import Componentry.Json.Shortest
import Componentry.Json.Value

/-!
# Writing JSON

- `Value.compact`: the text of a value on one line, without blanks.
- `Value.pretty`: one item a line, indented by two spaces a level.
- `Value.display`: how a value shows inside rendered text.
-/

namespace Componentry.Json

/-- Digits of `n` in base ten. -/
def digitsOf (n : Nat) : List Char := Nat.toDigits 10 n

/-- A double is written positionally from `10^-5` up to below `10^16`, with at least one digit
after the point; any other one with an exponent that carries its sign. -/
def doubleText (bits : UInt64) : String :=
  let sign := if bits.toNat / Nat.pow 2 63 = 1 then "-" else ""
  let (k, p) := Shortest.decimal bits
  let ds := digitsOf k
  let point : Int := ds.length + p
  let body : List Char :=
    if k = 0 then "0.0".toList
    else if 0 ≤ p ∧ point ≤ 16 then ds ++ List.replicate p.toNat '0' ++ ".0".toList
    else if 0 < point ∧ point ≤ 16 then
      ds.take point.toNat ++ '.' :: ds.drop point.toNat
    else if -5 < point ∧ point ≤ 0 then
      "0.".toList ++ List.replicate (-point).toNat '0' ++ ds
    else
      let mantissa := match ds with
        | [d] => [d]
        | d :: rest => d :: '.' :: rest
        | [] => []
      let e := point - 1
      mantissa ++ (if e < 0 then "e-" else "e+").toList ++ digitsOf e.natAbs
  sign ++ String.ofList body

def Number.text : Number → String
  | .int n => toString n
  | .double bits => doubleText bits

/-- The two hexadecimal digits of a small number. -/
def hexPair (n : Nat) : List Char := [Nat.digitChar (n / 16 % 16), Nat.digitChar (n % 16)]

/-- The escape of one character inside a string. -/
def escapeChar (c : Char) : List Char :=
  if c = '"' then ['\\', '"']
  else if c = '\\' then ['\\', '\\']
  else if c = '\n' then ['\\', 'n']
  else if c = '\r' then ['\\', 'r']
  else if c = '\t' then ['\\', 't']
  else if c = '\x08' then ['\\', 'b']
  else if c = '\x0c' then ['\\', 'f']
  else if c.val < 32 then '\\' :: 'u' :: '0' :: '0' :: hexPair c.toNat
  else [c]

def quoteChars (s : String) : List Char := '"' :: s.toList.flatMap escapeChar ++ ['"']

def quote (s : String) : String := String.ofList (quoteChars s)

namespace Value

mutual

def compact : Value → String
  | null => "null"
  | bool true => "true"
  | bool false => "false"
  | num n => n.text
  | str s => quote s
  | arr items => "[" ++ ",".intercalate (compactItems items) ++ "]"
  | obj fields => "\x7b" ++ ",".intercalate (compactFields fields) ++ "\x7d"

def compactItems : List Value → List String
  | [] => []
  | v :: vs => compact v :: compactItems vs

def compactFields : List (String × Value) → List String
  | [] => []
  | (k, v) :: rest => (quote k ++ ":" ++ compact v) :: compactFields rest

end

/-- A new line at `depth` levels of indentation. -/
def lineStart (depth : Nat) : String := "\n" ++ String.ofList (List.replicate (2 * depth) ' ')

mutual

def prettyAt (depth : Nat) : Value → String
  | arr [] => "[]"
  | obj [] => "\x7b\x7d"
  | arr items =>
    "[" ++ ",".intercalate (prettyItems (depth + 1) items) ++ lineStart depth ++ "]"
  | obj fields =>
    "\x7b" ++ ",".intercalate (prettyFields (depth + 1) fields) ++ lineStart depth ++ "\x7d"
  | null => "null"
  | bool true => "true"
  | bool false => "false"
  | num n => n.text
  | str s => quote s

def prettyItems (depth : Nat) : List Value → List String
  | [] => []
  | v :: vs => (lineStart depth ++ prettyAt depth v) :: prettyItems depth vs

def prettyFields (depth : Nat) : List (String × Value) → List String
  | [] => []
  | (k, v) :: rest =>
    (lineStart depth ++ quote k ++ ": " ++ prettyAt depth v) :: prettyFields depth rest

end

def pretty (v : Value) : String := prettyAt 0 v

/-- The text of a value inside rendered text: nothing for null, a string as it is, arrays and
objects laid out over lines. -/
def display : Value → String
  | null => ""
  | str s => s
  | arr items => pretty (arr items)
  | obj fields => pretty (obj fields)
  | v => compact v

end Value

end Componentry.Json
