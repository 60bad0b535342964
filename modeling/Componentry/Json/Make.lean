import Componentry.Json.Value

/-!
# Making JSON values

Short ways to write down values that describe something.
-/

namespace Componentry.Json.Value

def ofNat (n : Nat) : Value := .num (.int n)

def ofTexts (l : List String) : Value := .arr (l.map .str)

/-- A value by `f`, null for nothing. -/
def ofOption {α : Type} (f : α → Value) : Option α → Value
  | some a => f a
  | none => .null

def ofText? (s : Option String) : Value := ofOption .str s

/-- An object with a field for each entry. -/
def ofDict {α : Type} (f : α → Value) (d : Dict α) : Value := .obj (d.map fun e => (e.1, f e.2))

/-! ## Reading parts -/

/-- A field that is a text. -/
def text? (v : Value) (k : String) : Option String := (v.field? k).bind str?

/-- A field that is a flag; false without it. -/
def flag (v : Value) (k : String) : Bool := ((v.field? k).bind bool?).getD false

/-- A field that is a list; empty without it. -/
def items (v : Value) (k : String) : List Value := ((v.field? k).bind arr?).getD []

/-- A field that is an object; empty without it. -/
def record (v : Value) (k : String) : Record := ((v.field? k).bind obj?).getD []

/-- The texts among some values. -/
def texts (vs : List Value) : List String := vs.filterMap str?

def nat? : Value → Option Nat
  | .num (.int n) => if n < 0 then none else some n.toNat
  | _ => none

end Componentry.Json.Value
