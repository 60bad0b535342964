import Componentry.Json.Make
import Componentry.Render.Function

/-!
# Hand-written trees in JSON

A tree is an object whose fields say what kind of node it is. Of several kinds the first of this
order counts: a slot, a failure, an element, a component, a static tree, a comment, a text. A
warning may come with any of them.

- `NodeSpec.ofJson`: the tree that a value writes.
-/

namespace Componentry

open Json (Value)

mutual

/-- A value inside a tree: looked up, sent through a filter, or literal. -/
def SpecValue.ofJson : Value → SpecValue
  | .obj fields =>
    match (Dict.get? fields "lookup").bind Value.str?, specFilter? fields with
    | some path, _ => .lookup path
    | none, some f => f
    | none, none => .literal (.obj fields)
  | v => .literal v

/-- The filter among the fields of an object. -/
def specFilter? : List (String × Value) → Option SpecValue
  | [] => none
  | (k, v) :: rest => if k = "filter" then filteredOfJson? v else specFilter? rest

def filteredOfJson? : Value → Option SpecValue
  | .arr [.str name, v] => some (.filtered name (SpecValue.ofJson v))
  | _ => none

end

/-- The attributes of an element, in order. -/
def attrsOfJson (v : Value) : List (String × Value) :=
  (v.items "attrs").filterMap fun
    | .arr [.str name, w] => some (name, w)
    | _ => none

/-- The methods that listen, by event. -/
def methodsOfJson (v : Value) : List (String × String) :=
  (v.record "on").filterMap fun e => e.2.str?.map fun s => (e.1, s)

/-- A tree with these children, from the fields that say what it is. -/
def specWithKids (v : Value) (kids : List NodeSpec) : NodeSpec :=
  match v.text? "fail", v.text? "el", v.text? "component" with
  | some message, _, _ => .fail message
  | none, some tag, _ =>
    .element tag ((attrsOfJson v).map fun a => (a.1, SpecValue.ofJson a.2)) kids
  | none, none, some tag =>
    .component tag ((v.record "props").map fun p => (p.1, SpecValue.ofJson p.2)) (methodsOfJson v)
      kids
  | none, none, none =>
    match (v.field? "static").bind Value.nat?, v.text? "comment", v.field? "text" with
    | some i, _, _ => .static i
    | none, some s, _ => .comment s
    | none, none, some w => .text (SpecValue.ofJson w)
    | none, none, none => .nothing

mutual

/-- The tree that a value writes. -/
def NodeSpec.ofJson : Value → NodeSpec
  | .obj fields =>
    let v := Value.obj fields
    let body := specWithKids v (specKids fields)
    match v.text? "slot", v.text? "warn" with
    | some name, _ => .slot name
    | none, some message => .warn message body
    | none, none => body
  | _ => .nothing

/-- The children among the fields of an object. -/
def specKids : List (String × Value) → List NodeSpec
  | [] => []
  | (k, v) :: rest => if k = "kids" then specItems v else specKids rest

def specItems : Value → List NodeSpec
  | .arr items => specsOfJson items
  | _ => []

def specsOfJson : List Value → List NodeSpec
  | [] => []
  | v :: rest => NodeSpec.ofJson v :: specsOfJson rest

end

end Componentry
