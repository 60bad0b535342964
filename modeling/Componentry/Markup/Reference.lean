import Componentry.Markup.Entity

/-!
# Character references

`&name;`, `&#10;` and `&#x0A;` inside text and attribute values stand for characters. A few old
names do without the semicolon, in attribute values only when neither a letter, a digit nor an
equals sign follows.

- `reading`: what an ampersand stands for, and the text behind it.
- `decode`: an attribute value with its references replaced.
-/

namespace Componentry.Markup.Reference

/-- What the numbers 128 to 159 stand for; zero leaves the number as it is. -/
def c1Replacements : List Nat :=
  [0x20AC, 0, 0x201A, 0x0192, 0x201E, 0x2026, 0x2020, 0x2021, 0x02C6, 0x2030, 0x0160, 0x2039,
    0x0152, 0, 0x017D, 0, 0, 0x2018, 0x2019, 0x201C, 0x201D, 0x2022, 0x2013, 0x2014, 0x02DC,
    0x2122, 0x0161, 0x203A, 0x0153, 0, 0x017E, 0x0178]

/-- The character of a number. Numbers that are no character give the replacement character. -/
def ofNumber (n : Nat) : Char :=
  if n = 0 ∨ (0xD800 ≤ n ∧ n < 0xE000) ∨ 0x10FFFF < n then '\uFFFD'
  else if 0x80 ≤ n ∧ n < 0xA0 then
    match c1Replacements.getD (n - 0x80) 0 with
    | 0 => Char.ofNat n
    | m => Char.ofNat m
  else Char.ofNat n

def isHexDigit (c : Char) : Bool :=
  c.isDigit || ('a' ≤ c && c ≤ 'f') || ('A' ≤ c && c ≤ 'F')

def digitValue (c : Char) : Nat :=
  if c.isDigit then c.toNat - 48 else if 'a' ≤ c then c.toNat - 87 else c.toNat - 55

/-- A number from its digits, held at the first value beyond every character. -/
def numberOf (base : Nat) (ds : List Char) : Nat :=
  ds.foldl (fun n d => min 0x110000 (n * base + digitValue d)) 0

def dropSemicolon : List Char → List Char
  | ';' :: rest => rest
  | rest => rest

/-- What an ampersand stands for: one reference replaced, or the ampersand itself. -/
structure Reading where
  chars : List Char
  /-- The semicolon is missing. -/
  flawed : Bool := false
  /-- Text that was looked at and then left; it comes before `rest` and apart from it. -/
  ahead : List Char := []
  rest : List Char
  /-- The text ended before it was clear how far the reference goes. -/
  cutOff : Bool := false
  deriving Inhabited

/-- A number after its marker `#` or `#x`. -/
def numberAfter (base : Nat) (isDigit : Char → Bool) (marker cs : List Char) : Reading :=
  let (ds, rest) := cs.span isDigit
  let cutOff := rest.isEmpty
  if ds.isEmpty then { chars := ['&'], flawed := true, ahead := marker, rest, cutOff }
  else
    { chars := [ofNumber (numberOf base ds)], flawed := rest.head? != some ';',
      rest := dropSemicolon rest, cutOff }

/-- The reference `&#…` after its hash sign. -/
def numeric (cs : List Char) : Reading :=
  match cs with
  | 'x' :: rest => numberAfter 16 isHexDigit ['#', 'x'] rest
  | 'X' :: rest => numberAfter 16 isHexDigit ['#', 'X'] rest
  | rest => numberAfter 10 Char.isDigit ['#'] rest

/-- How many characters at the head of `cs` begin one of `names`. -/
def knownLength (names : List (List Char)) : List Char → Nat
  | [] => 0
  | c :: cs =>
    let tails := names.filterMap fun n => match n with
      | d :: ds => if c == d then some ds else none
      | [] => none
    if tails.isEmpty then 0 else 1 + knownLength tails cs

/-- The longest name without a semicolon that starts `word`, tried from `n` characters down. -/
def unclosedPrefix? (word : List Char) : Nat → Option Nat
  | 0 => none
  | n + 1 =>
    if Entity.unclosedNames.contains (String.ofList (word.take (n + 1))) then some (n + 1)
    else unclosedPrefix? word n

/-- The reference `&name` after its ampersand when no semicolon closes a known name. Characters
are looked at for as long as they begin a name, and one more; a word that has no known name in it
is looked at to its end. -/
def unclosed (inAttribute : Bool) (cs : List Char) : Reading :=
  let known := knownLength Entity.closedNames cs
  let (word, after) := (cs.take known, cs.drop known)
  match unclosedPrefix? word known with
  | some n =>
    let ahead := word.drop n ++ after.take 1
    let cutOff := after.isEmpty
    let blocked := inAttribute && match ahead with
      | c :: _ => c == '=' || c.isAlphanum
      | [] => false
    if blocked then { chars := ['&'], ahead := word ++ after.take 1, rest := after.drop 1, cutOff }
    else
      { chars := (Entity.find? (String.ofList (word.take n))).getD [], flawed := true, ahead,
        rest := after.drop 1, cutOff }
  | none =>
    let (more, after) := after.span Char.isAlphanum
    { chars := ['&'], ahead := word ++ more ++ after.take 1, rest := after.drop 1,
      cutOff := after.isEmpty }

/-- The reference `&name;` after its ampersand. -/
def named (inAttribute : Bool) (cs : List Char) : Reading :=
  let (word, rest) := cs.span Char.isAlphanum
  let closed := match rest with
    | ';' :: rest => (Entity.find? (String.ofList word)).map (·, rest)
    | _ => none
  match closed with
  | some (chars, rest) =>
    { chars, ahead := rest.take 1, rest := rest.drop 1, cutOff := rest.isEmpty }
  | none => unclosed inAttribute cs

/-- Characters that begin no reference right after an ampersand. -/
def endsAmpersand (c : Char) : Bool :=
  c == '\t' || c == '\n' || c == '\x0c' || c == ' ' || c == '<' || c == '&'

/-- What an ampersand stands for before the text `cs`. -/
def reading (inAttribute : Bool) (cs : List Char) : Reading :=
  match cs with
  | [] => { chars := ['&'], rest := [], cutOff := true }
  | '#' :: rest => numeric rest
  | c :: rest =>
    if endsAmpersand c then { chars := ['&'], rest := c :: rest } else named inAttribute (c :: rest)

/-- An attribute value with its references replaced; `fuel` bounds its length. -/
def decodeUpTo : Nat → List Char → List Char
  | 0, cs => cs
  | _, [] => []
  | fuel + 1, '&' :: cs =>
    let r := reading true cs
    r.chars ++ decodeUpTo fuel (r.ahead ++ r.rest)
  | fuel + 1, c :: cs => c :: decodeUpTo fuel cs

def decode (cs : List Char) : List Char := decodeUpTo cs.length cs

end Componentry.Markup.Reference
