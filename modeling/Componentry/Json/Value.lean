import Componentry.Dict

/-!
# JSON values

The dynamic values that definitions carry, components hold and scripts compute. Integers keep
their exact value; any other number is a double, held by its bits. Objects list their fields in
ascending order of names.

- `Value.same`: equality, where the two zeros among the doubles are one value.
-/

namespace Componentry.Json

/-- A number: an integer, or the bits of a double. -/
inductive Number where
  | int (n : Int)
  | double (bits : UInt64)
  deriving Repr, DecidableEq, Inhabited

/-- The bits of a zero, either sign. -/
def isZeroBits (bits : UInt64) : Bool := bits == 0 || bits == 0x8000000000000000

def Number.same : Number → Number → Bool
  | .int a, .int b => a == b
  | .double a, .double b => a == b || (isZeroBits a && isZeroBits b)
  | _, _ => false

inductive Value where
  | null
  | bool (b : Bool)
  | num (n : Number)
  | str (s : String)
  | arr (items : List Value)
  | obj (fields : List (String × Value))
  deriving Repr, Inhabited

/-- A record: the fields of an object. -/
abbrev Record := Dict Value

namespace Value

def isNull : Value → Bool
  | null => true
  | _ => false

def str? : Value → Option String
  | str s => some s
  | _ => none

def bool? : Value → Option Bool
  | bool b => some b
  | _ => none

def arr? : Value → Option (List Value)
  | arr items => some items
  | _ => none

def obj? : Value → Option Record
  | obj fields => some fields
  | _ => none

/-- The field `k` of an object; other values have none. -/
def field? (v : Value) (k : String) : Option Value :=
  v.obj?.bind (Dict.get? · k)

mutual

/-- Equality of values. -/
def same : Value → Value → Bool
  | null, null => true
  | bool a, bool b => a == b
  | num a, num b => a.same b
  | str a, str b => a == b
  | arr a, arr b => sameItems a b
  | obj a, obj b => sameFields a b
  | _, _ => false

def sameItems : List Value → List Value → Bool
  | [], [] => true
  | a :: as, b :: bs => same a b && sameItems as bs
  | _, _ => false

def sameFields : List (String × Value) → List (String × Value) → Bool
  | [], [] => true
  | (k, a) :: as, (j, b) :: bs => k == j && same a b && sameFields as bs
  | _, _ => false

end

/-- The kind of a value, as error messages spell it. -/
def kind : Value → String
  | null => "null"
  | bool _ => "boolean"
  | num _ => "number"
  | str _ => "string"
  | arr _ => "array"
  | obj _ => "object"

end Value

end Componentry.Json
