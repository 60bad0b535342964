import Componentry.Json.Value

/-!
# Reading JSON

Text is read in two steps. `Literal.parse?` finds the structure of the text and keeps what a
value forgets: fields in the order written, repeated names, numbers as digits. `Literal.toValue?`
then makes the value, and this step may refuse text that the first accepts: a number beyond the
doubles, an escape that names no character, nesting deeper than `maxDepth`.

- `Literal.parse?`, `Literal.toValue?`: the two steps.
- `Value.parse?`: both.
-/

namespace Componentry.Json

/-- The digits of a number as written. -/
structure NumberLiteral where
  negative : Bool
  whole : List Char
  fraction : Option (List Char)
  /-- Sign and digits after the exponent mark. -/
  exponent : Option (Bool × List Char)

/-- Text as written. A string is `none` when one of its escapes names no character. -/
inductive Literal where
  | null
  | bool (b : Bool)
  | num (n : NumberLiteral)
  | str (s : Option String)
  | arr (items : List Literal)
  | obj (fields : List (Option String × Literal))

/-! ## Strings -/

/-- What stands between two quotes: characters, and units given by their number. -/
inductive StringPiece where
  | char (c : Char)
  | unit (n : Nat)

def hexDigit? (c : Char) : Option Nat :=
  if '0' ≤ c ∧ c ≤ '9' then some (c.toNat - 48)
  else if 'a' ≤ c ∧ c ≤ 'f' then some (c.toNat - 87)
  else if 'A' ≤ c ∧ c ≤ 'F' then some (c.toNat - 55)
  else none

def hexUnit? (a b c d : Char) : Option Nat := do
  return ((← hexDigit? a) * 16 + (← hexDigit? b)) * 256 + (← hexDigit? c) * 16 + (← hexDigit? d)

/-- The character of a one-letter escape. -/
def simpleEscape? : Char → Option Char
  | '"' => some '"'
  | '\\' => some '\\'
  | '/' => some '/'
  | 'b' => some '\x08'
  | 'f' => some '\x0c'
  | 'n' => some '\n'
  | 'r' => some '\r'
  | 't' => some '\t'
  | _ => none

/-- The pieces up to the closing quote, and what follows it. -/
def stringPieces? : List Char → Option (List StringPiece × List Char)
  | [] => none
  | '"' :: rest => some ([], rest)
  | '\\' :: 'u' :: a :: b :: c :: d :: rest => do
    let n ← hexUnit? a b c d
    let (ps, rest) ← stringPieces? rest
    return (.unit n :: ps, rest)
  | '\\' :: e :: rest => do
    let c ← simpleEscape? e
    let (ps, rest) ← stringPieces? rest
    return (.char c :: ps, rest)
  | c :: rest =>
    if c.val < 32 ∨ c = '\\' then none
    else do
      let (ps, rest) ← stringPieces? rest
      return (.char c :: ps, rest)

/-- Joins units into characters: a high surrogate takes the low one after it, and neither may
stand alone. -/
def joinPieces? : List StringPiece → Option (List Char)
  | [] => some []
  | .char c :: rest => (joinPieces? rest).map (c :: ·)
  | .unit hi :: .unit lo :: rest =>
    if 0xD800 ≤ hi ∧ hi < 0xDC00 then
      if 0xDC00 ≤ lo ∧ lo < 0xE000 then
        (joinPieces? rest).map (Char.ofNat (0x10000 + (hi - 0xD800) * 0x400 + (lo - 0xDC00)) :: ·)
      else none
    else if 0xDC00 ≤ hi ∧ hi < 0xE000 then none
    else (joinPieces? (.unit lo :: rest)).map (Char.ofNat hi :: ·)
  | .unit n :: rest =>
    if 0xD800 ≤ n ∧ n < 0xE000 then none
    else (joinPieces? rest).map (Char.ofNat n :: ·)

/-- A string after its opening quote. -/
def stringLiteral? (cs : List Char) : Option (Option String × List Char) :=
  (stringPieces? cs).map fun (ps, rest) => ((joinPieces? ps).map String.ofList, rest)

/-! ## Numbers -/

/-- At least one digit. -/
def digits1? (cs : List Char) : Option (List Char × List Char) :=
  match cs.span Char.isDigit with
  | ([], _) => none
  | (ds, rest) => some (ds, rest)

/-- A number without its sign. A whole part of several digits does not start with zero. -/
def unsigned? (negative : Bool) (cs : List Char) : Option (NumberLiteral × List Char) := do
  let (whole, rest) ← digits1? cs
  if whole.head? = some '0' ∧ 1 < whole.length then none
  let (fraction, rest) ← match rest with
    | '.' :: rest => do
      let (ds, rest) ← digits1? rest
      pure (some ds, rest)
    | rest => pure (none, rest)
  let (exponent, rest) ← match rest with
    | e :: rest' =>
      if e = 'e' ∨ e = 'E' then do
        let (neg, digits) := match rest' with
          | '-' :: ds => (true, ds)
          | '+' :: ds => (false, ds)
          | ds => (false, ds)
        let (ds, rest) ← digits1? digits
        pure (some (neg, ds), rest)
      else pure (none, rest)
    | [] => pure (none, rest)
  return (⟨negative, whole, fraction, exponent⟩, rest)

/-! ## Structure -/

def isSpace (c : Char) : Bool := c == ' ' || c == '\n' || c == '\t' || c == '\r'

def skipSpace (cs : List Char) : List Char := cs.dropWhile isSpace

/-- The text after `word`, if it starts with it. -/
def dropWord? : List Char → List Char → Option (List Char)
  | [], cs => some cs
  | w :: ws, c :: cs => if w = c then dropWord? ws cs else none
  | _, [] => none

mutual

/-- One value, blanks before it skipped. Each level of nesting spends one unit of fuel. -/
def literal? : Nat → List Char → Option (Literal × List Char)
  | 0, _ => none
  | fuel + 1, cs =>
    match skipSpace cs with
    | [] => none
    | '"' :: rest => (stringLiteral? rest).map fun (s, rest) => (.str s, rest)
    | '[' :: rest =>
      match skipSpace rest with
      | ']' :: rest => some (.arr [], rest)
      | rest => (itemLiterals? fuel rest).map fun (vs, rest) => (.arr vs, rest)
    | '\x7b' :: rest =>
      match skipSpace rest with
      | '\x7d' :: rest => some (.obj [], rest)
      | rest => (fieldLiterals? fuel rest).map fun (fs, rest) => (.obj fs, rest)
    | '-' :: rest => (unsigned? true rest).map fun (n, rest) => (.num n, rest)
    | c :: rest =>
      if c.isDigit then (unsigned? false (c :: rest)).map fun (n, rest) => (.num n, rest)
      else
        match dropWord? "null".toList (c :: rest) with
        | some rest => some (.null, rest)
        | none =>
          match dropWord? "true".toList (c :: rest) with
          | some rest => some (.bool true, rest)
          | none => (dropWord? "false".toList (c :: rest)).map fun rest => (.bool false, rest)

/-- The items of an array up to its closing bracket. -/
def itemLiterals? : Nat → List Char → Option (List Literal × List Char)
  | 0, _ => none
  | fuel + 1, cs =>
    match literal? fuel cs with
    | none => none
    | some (v, rest) =>
      match skipSpace rest with
      | ',' :: rest => (itemLiterals? fuel rest).map fun (vs, rest) => (v :: vs, rest)
      | ']' :: rest => some ([v], rest)
      | _ => none

/-- The fields of an object up to its closing brace. -/
def fieldLiterals? : Nat → List Char → Option (List (Option String × Literal) × List Char)
  | 0, _ => none
  | fuel + 1, cs =>
    match skipSpace cs with
    | '"' :: rest =>
      match stringLiteral? rest with
      | none => none
      | some (k, rest) =>
        match skipSpace rest with
        | ':' :: rest =>
          match literal? fuel rest with
          | none => none
          | some (v, rest) =>
            match skipSpace rest with
            | ',' :: rest =>
              (fieldLiterals? fuel rest).map fun (fs, rest) => ((k, v) :: fs, rest)
            | '\x7d' :: rest => some ([(k, v)], rest)
            | _ => none
        | _ => none
    | _ => none

end

/-- The structure of a whole text. -/
def Literal.parse? (s : String) : Option Literal :=
  let cs := s.toList
  match literal? (2 * cs.length + 2) cs with
  | some (v, rest) => if (skipSpace rest).isEmpty then some v else none
  | none => none

/-! ## Values -/

/-- Reads digits onto `n` while the result stays below `2^64`; also gives the digits left. -/
def accumulate (n : Nat) : List Char → Nat × List Char
  | [] => (n, [])
  | d :: ds =>
    let n' := n * 10 + (d.toNat - 48)
    if n' < Nat.pow 2 64 then accumulate n' ds else (n, d :: ds)

/-- `f · 10^e`, one rounded operation by a power of at most `10^308` at a time; `none` when the
result is beyond the doubles. -/
def scaleByTen? (f : Float) (e : Int) : Nat → Option Float
  | 0 => some f
  | fuel + 1 =>
    if e.natAbs ≤ 308 then
      let p := Float.ofScientific 1 false e.natAbs
      if 0 ≤ e then
        let g := f * p
        if g.isInf then none else some g
      else some (f / p)
    else if f == 0.0 then some f
    else if 0 ≤ e then none
    else scaleByTen? (f / Float.ofScientific 1 false 308) (e + 308) fuel

/-- The number a literal stands for. Whole numbers of 64 bits stay exact. For any other one the
first digits that fit 64 bits are taken and scaled by a power of ten. -/
def NumberLiteral.toNumber? (n : NumberLiteral) : Option Number := do
  let signed (f : Float) : Number := .double (if n.negative then -f else f).toBits
  let (sig, dropped) := accumulate 0 n.whole
  if n.fraction.isNone ∧ n.exponent.isNone ∧ dropped.isEmpty then
    if !n.negative then return .int sig
    else if sig = 0 ∨ Nat.pow 2 63 < sig then return signed (UInt64.ofNat sig).toFloat
    else return .int (-(sig : Int))
  else
    let frac := n.fraction.getD []
    let (sig, unread) := accumulate sig frac
    let start : Int := (dropped.length : Int) - ((frac.length - unread.length : Nat) : Int)
    let expo ← match n.exponent with
      | none => some (some start)
      | some (neg, ds) =>
        let e : Nat := ds.foldl (fun e d => e * 10 + (d.toNat - 48)) 0
        if e < Nat.pow 2 31 then some (some (start + (if neg then -(Int.ofNat e) else Int.ofNat e)))
        else if sig ≠ 0 ∧ !neg then none
        else some none
    match expo with
    | none => return signed 0.0
    | some e => return signed (← scaleByTen? (UInt64.ofNat sig).toFloat e 8)

/-- How many arrays and objects a value may nest. -/
def maxDepth : Nat := 127

mutual

/-- The value of a literal that may nest `depth` further levels. -/
def Literal.toValueAt? (depth : Nat) : Literal → Option Value
  | .null => some .null
  | .bool b => some (.bool b)
  | .num n => n.toNumber?.map .num
  | .str s => s.map .str
  | .arr items => if depth = 0 then none else (toItemsAt? (depth - 1) items).map .arr
  | .obj fields => if depth = 0 then none else (toFieldsAt? (depth - 1) fields).map (.obj ·)

def Literal.toItemsAt? (depth : Nat) : List Literal → Option (List Value)
  | [] => some []
  | v :: vs =>
    match toValueAt? depth v with
    | none => none
    | some v => (toItemsAt? depth vs).map (v :: ·)

/-- The fields by name: of two with one name the later counts. -/
def Literal.toFieldsAt? (depth : Nat) : List (Option String × Literal) → Option Record
  | [] => some []
  | (none, _) :: _ => none
  | (some k, v) :: rest =>
    match toValueAt? depth v with
    | none => none
    | some v =>
      (toFieldsAt? depth rest).map fun d => if Dict.contains d k then d else Dict.insert k v d

end

def Literal.toValue? (l : Literal) : Option Value := l.toValueAt? maxDepth

/-- The value that a text writes. -/
def Value.parse? (s : String) : Option Value := (Literal.parse? s).bind Literal.toValue?

end Componentry.Json
