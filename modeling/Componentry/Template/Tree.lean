import Componentry.Json.Value

/-!
# Template trees

What a template says once its markup is understood: texts with expressions in them, elements with
bound attributes and listeners, slots, and places where a hoisted static tree goes.
-/

namespace Componentry.Template

open Json (Value)

/-- What an expression starts from. -/
inductive Operand where
  /-- A property of the instance, by a dotted path. -/
  | path (p : String)
  | literal (v : Value)
  deriving Repr, Inhabited

/-- An operand and the filters it goes through, first to last. -/
structure Expression where
  operand : Operand
  filters : List String
  deriving Repr, Inhabited

inductive TextPart where
  | literal (s : String)
  | expr (e : Expression)
  deriving Repr, Inhabited

inductive Node where
  | element (tag : String) (attrs : List (String × String)) (bindings : List (String × Expression))
      (listeners : List (String × String)) (children : List Node) (maybeComponent : Bool)
  | text (parts : List TextPart)
  | comment (s : String)
  | slot (name : String) (fallback : List Node)
  /-- The hoisted static tree with this index. -/
  | static (index : Nat)
  deriving Repr, Inhabited

end Componentry.Template
