import Componentry.Json.Value
import Componentry.Text.Spelling

/-!
# Declarations of props and injections

Both come as a list of names or keyed by name with details. Their normal form is keyed; props
are keyed by camel names.

- `PropsDecl.normalized`, `InjectDecl.normalized`: the keyed forms.
- `PropType.accepts`: which values a type stands for.
-/

namespace Componentry

open Json (Value)

inductive PropType where
  | string
  | number
  | boolean
  | array
  | object
  deriving Repr, DecidableEq, Inhabited

namespace PropType

def all : List PropType := [string, number, boolean, array, object]

def name : PropType → String
  | string => "String"
  | number => "Number"
  | boolean => "Boolean"
  | array => "Array"
  | object => "Object"

def ofName? (s : String) : Option PropType := all.find? (·.name == s)

def accepts : PropType → Value → Bool
  | string, .str _ => true
  | number, .num _ => true
  | boolean, .bool _ => true
  | array, .arr _ => true
  | object, .obj _ => true
  | _, _ => false

end PropType

structure PropOptions where
  /-- Accepted types; none at all accepts anything. -/
  types : List PropType := []
  default : Option Value := none
  required : Bool := false
  deriving Repr, Inhabited

inductive PropsDecl where
  | names (names : List String)
  | keyed (props : Dict PropOptions)
  deriving Repr, Inhabited

/-- Props keyed by camel name; of two with one camel name the later counts. -/
def PropsDecl.normalized : PropsDecl → Dict PropOptions
  | names ns => Dict.ofList (ns.map fun n => (Text.camelize n, {}))
  | keyed props => Dict.ofList (props.map fun p => (Text.camelize p.1, p.2))

structure InjectOptions where
  /-- The name under which an ancestor provides the value. -/
  source : String
  default : Option Value := none
  deriving Repr, Inhabited

inductive InjectDecl where
  | names (names : List String)
  | keyed (entries : Dict InjectOptions)
  deriving Repr, Inhabited

def InjectDecl.normalized : InjectDecl → Dict InjectOptions
  | names ns => Dict.ofList (ns.map fun n => (n, { source := n }))
  | keyed entries => entries

end Componentry
