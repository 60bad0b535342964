import Componentry.Engine.Lifecycle
import Componentry.Render.Spec

/-!
# Rendering an instance

- `Eng.scope`: what render functions see of an instance.
- `Eng.devScope`: the same, with warnings about properties that were never declared.
- `Eng.renderWith`: a render function run for an instance.
-/

namespace Componentry

open Json (Value)

namespace VNode

/-- An element, marked as the product of a hoisted static tree. -/
def asStatic : VNode → VNode
  | element tag attrs children _ => element tag attrs children true
  | n => n

end VNode

namespace Eng

variable (rt : Runtime) (run : Runner)

/-- The value of a dotted path from a property of an instance. -/
def lookupPath (vm : InstanceId) (path : String) : Eng (Option Value) := do
  let i ← getInstance vm
  match Path.segments path with
  | [] => return none
  | key :: rest => return (i.get? key).bind (Path.walk · rest)

/-- A value sent through a filter of an instance; without the filter it stays as it is. -/
def applyFilter (vm : InstanceId) (name : String) (v : Value) : Eng Value := do
  match (← getInstance vm).filter? name with
  | some e =>
    invoke (.filter e v)
    return e.filter v
  | none =>
    warn rt vm ("Failed to resolve filter: " ++ name)
    return v

/-- The class of a tag among the components of an instance. -/
def resolveComponent (vm : InstanceId) (tag : String) : Eng (Option ClassId) := do
  let i ← getInstance vm
  match i.options.components.bind (·.resolve? tag) with
  | none =>
    if !rt.config.isIgnoredElement tag then
      warn rt vm ("Unknown custom element: <" ++ tag ++ "> - did you register the component "
        ++ "correctly? For recursive components, make sure to provide the \"name\" option.")
    return none
  | some entry =>
    let base := (← get).forest.baseOf i.ctor
    match ← tryForging (Classes.classFor rt.config base entry) with
    | .ok c => return c
    | .error e =>
      warn rt vm ("Failed to resolve component <" ++ tag ++ ">: " ++ e.message)
      return none

/-- A listener that calls a method of an instance. -/
def bindListener (vm : InstanceId) (method : String) : Eng Listener := do
  let i ← getInstance vm
  if !Dict.contains i.methods method then
    warn rt vm ("Handler \"" ++ method ++ "\" is not defined on the instance.")
  return ⟨← freshMark, .method i.selfRef method⟩

/-- What render functions see of an instance, given how its static trees are rendered. -/
def scopeWith (vm : InstanceId) (renderStatic : Nat → Eng VNode) : RenderContext Eng where
  lookup := lookupPath vm
  applyFilter := applyFilter rt vm
  renderStatic := renderStatic
  resolveComponent := resolveComponent rt vm
  bindListener := bindListener rt vm
  slot name := do return (Dict.get? (← getInstance vm).slots name).getD []
  warn := warn rt vm

/-- The hoisted static tree with an index, rendered the first time it is asked for. Static trees
that ask for static trees go at most `fuel` deep. -/
def renderStatic (vm : InstanceId) : Nat → Nat → Eng VNode
  | 0, _ => throw .outOfFuel
  | fuel + 1, index => do
    let i ← getInstance vm
    match i.staticTrees.lookup index with
    | some tree => return tree
    | none =>
      match (i.options.part (·.staticRenderFns)).bind (·[index]?) with
      | none =>
        warn rt vm ("Static render function " ++ toString index ++ " is missing.")
        return .empty
      | some f =>
        let tree ← match ← (f.value.run (scopeWith rt vm (renderStatic vm fuel))).run with
          | .ok tree => pure tree.asStatic
          | .error e =>
            report rt run vm e "render"
            pure .empty
        modifyInstance vm fun i => { i with staticTrees := (index, tree) :: i.staticTrees }
        return tree

/-- What render functions see of an instance. -/
def scope (vm : InstanceId) : RenderContext Eng :=
  scopeWith rt vm (renderStatic rt run vm rt.fuel)

/-- What render functions see of an instance in development: looking up what was never declared
gives a warning. -/
def devScope (vm : InstanceId) : RenderContext Eng :=
  { scope rt run vm with
    lookup := fun path => do
      let key := (Path.segments path).headD ""
      if !(← getInstance vm).has key then
        warn rt vm ("Property or method \"" ++ key
          ++ "\" is not defined on the instance but referenced during render.")
      lookupPath vm path }

/-- A render function run for an instance, whom others may look at meanwhile. -/
def renderWith (vm : InstanceId) (f : RenderBody) : Eng (Except HookError VNode) :=
  withAccess vm .shared do
    let ctx := if (← getInstance vm).devProxy then devScope rt run vm else scope rt run vm
    (f.run ctx).run

end Eng

end Componentry
