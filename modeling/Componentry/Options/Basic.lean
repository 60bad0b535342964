import Componentry.Options.Decl
import Componentry.Options.Registry
import Componentry.Render.Function

/-!
# Component options

An `Options` object is what an author writes to define a component, and also what merging
several of them produces. Its composite parts are shared and carry marks, so that a late edit of
one part can be told from the part it replaces.

- `Hook`: the points in the life of an instance at which handlers run.
- `Options`: the object; `Options.merged` says that it is a result of merging.
- `Options.hookHandlers`, `Options.propsMap`, `Options.injectMap`: reading it.
- `Options.place`: giving marks to all its parts.
-/

namespace Componentry

open Json (Value Record)

/-- The points in the life of an instance at which handlers run, in the order of a life. -/
inductive Hook where
  | beforeCreate
  | created
  | beforeMount
  | mounted
  | beforeUpdate
  | updated
  | beforeDestroy
  | destroyed
  | activated
  | deactivated
  | serverPrefetch
  deriving Repr, DecidableEq, Inhabited

namespace Hook

def all : List Hook :=
  [beforeCreate, created, beforeMount, mounted, beforeUpdate, updated, beforeDestroy, destroyed,
    activated, deactivated, serverPrefetch]

def name : Hook → String
  | beforeCreate => "beforeCreate"
  | created => "created"
  | beforeMount => "beforeMount"
  | mounted => "mounted"
  | beforeUpdate => "beforeUpdate"
  | updated => "updated"
  | beforeDestroy => "beforeDestroy"
  | destroyed => "destroyed"
  | activated => "activated"
  | deactivated => "deactivated"
  | serverPrefetch => "serverPrefetch"

def ofName? (s : String) : Option Hook := all.find? (·.name == s)

theorem ofName?_name (h : Hook) : ofName? h.name = some h := by cases h <;> decide

theorem mem_all (h : Hook) : h ∈ all := by cases h <;> decide

end Hook

/-- The handlers of each hook that has any. -/
abbrev HookMap := List (Hook × List Handler)

/-- The handlers of one hook. -/
def HookMap.handlers (m : HookMap) (h : Hook) : List Handler := (m.lookup h).getD []

/-- Adds a handler at the end of a hook's list. -/
def HookMap.add (h : Hook) (f : Handler) : HookMap → HookMap
  | [] => [(h, [f])]
  | (h', fs) :: rest => if h' = h then (h', fs ++ [f]) :: rest else (h', fs) :: add h f rest

/-- Where a record of data or provided values comes from. -/
inductive DataSource where
  | record (r : Record)
  /-- A script's result; anything but an object counts as an empty record. -/
  | script (s : Script)
  /-- Both evaluated, the child first; the child's entries win. -/
  | both (parent child : DataSource)
  deriving Inhabited

def DataSource.isRecord : DataSource → Bool
  | record _ => true
  | _ => false

inductive WatchCallback where
  | handler (f : Handler)
  /-- The name of a method of the instance. -/
  | method (name : String)
  deriving Inhabited

structure WatchHandler where
  callback : WatchCallback
  immediate : Bool := false
  deriving Inhabited

/-- Watchers by property. -/
abbrev WatchMap := Dict (List WatchHandler)

inductive TemplateSource where
  /-- Markup, or `#selector` for the inner markup of an element of the page. -/
  | markup (s : String)
  | node (n : NodeId)
  /-- Any other value; mounting refuses it. -/
  | invalid (v : Value)
  deriving Inhabited

def TemplateSource.same : TemplateSource → TemplateSource → Bool
  | markup a, markup b => a == b
  | node a, node b => a == b
  | invalid a, invalid b => a.same b
  | _, _ => false

inductive MountTarget where
  | selector (s : String)
  | node (n : NodeId)
  deriving Repr, DecidableEq, Inhabited

/-- An entry of a components registry. -/
inductive ComponentRef (ω : Type) where
  | ofClass (c : ClassId)
  /-- A class under its own name; it does not keep the class alive. -/
  | self (c : ClassId)
  /-- A definition, made a class of when it is first used. -/
  | definition (id : Option Mark) (options : ω)
  deriving Inhabited

/-- The parts of an options object that hold no other options. -/
structure Fields where
  name : Option String := none
  data : Option (Placed DataSource) := none
  props : Option (Placed PropsDecl) := none
  computed : Option (Placed (Dict Script)) := none
  methods : Option (Placed (Dict Script)) := none
  watch : Option (Placed WatchMap) := none
  inject : Option (Placed InjectDecl) := none
  provide : Option (Placed DataSource) := none
  hooks : Option (Placed HookMap) := none
  errorCaptured : Option (Placed (List Handler)) := none
  directives : Option (Placed (Registry Unit)) := none
  filters : Option (Placed (Registry Expr)) := none
  template : Option TemplateSource := none
  render : Option RenderFn := none
  staticRenderFns : Option (Placed (List RenderFn)) := none
  el : Option MountTarget := none
  delimiters : Option (String × String) := none
  comments : Option Bool := none
  isAbstract : Option Bool := none
  /-- Options without a field of their own. -/
  extra : Dict Value := []
  deriving Inhabited

structure Options where
  fields : Fields := {}
  components : Option (Placed (Registry (ComponentRef Options))) := none
  mixins : Option (Placed (List Options)) := none
  base : Option (Placed Options) := none
  /-- The result of a merge: its base and mixins have been applied already. -/
  merged : Bool := false
  deriving Inhabited

/-- A components registry. -/
abbrev Components := Registry (ComponentRef Options)

namespace Options

def name (o : Options) : Option String := o.fields.name

def hookHandlers (o : Options) (h : Hook) : List Handler :=
  match o.fields.hooks with
  | some m => HookMap.handlers m.value h
  | none => []

def propsMap (o : Options) : Dict PropOptions :=
  match o.fields.props with
  | some p => p.value.normalized
  | none => []

def injectMap (o : Options) : Dict InjectOptions :=
  match o.fields.inject with
  | some i => i.value.normalized
  | none => []

/-- Changes the fields. -/
def mapFields (o : Options) (f : Fields → Fields) : Options := { o with fields := f o.fields }

/-- Puts an entry into the own layer of the components, which then is a part of its own. -/
def addComponent (o : Options) (name : String) (c : ComponentRef Options) : Options :=
  let r := match o.components with
    | some r => r.value
    | none => Registry.empty
  { o with components := some (Placed.new (r.insert name c)) }

end Options

/-- Static render functions, each of which has a mark of its own. -/
def placeFns : Option (Placed (List RenderFn)) → Marking (Option (Placed (List RenderFn)))
  | none => pure none
  | some ⟨mark, fns⟩ => do
    let fns ← fns.mapM Placed.place
    Placed.placeOption (some ⟨mark, fns⟩)

/-- Gives a mark to every part that has none. -/
def Fields.place (f : Fields) : Marking Fields := do
  let data ← Placed.placeOption f.data
  let props ← Placed.placeOption f.props
  let computed ← Placed.placeOption f.computed
  let methods ← Placed.placeOption f.methods
  let watch ← Placed.placeOption f.watch
  let inject ← Placed.placeOption f.inject
  let provide ← Placed.placeOption f.provide
  let hooks ← Placed.placeOption f.hooks
  let errorCaptured ← Placed.placeOption f.errorCaptured
  let directives ← Placed.placeOption f.directives
  let filters ← Placed.placeOption f.filters
  let render ← Placed.placeOption f.render
  let staticRenderFns ← placeFns f.staticRenderFns
  return { f with
    data, props, computed, methods, watch, inject, provide, hooks, errorCaptured, directives,
    filters, render, staticRenderFns }

mutual

/-- Gives a mark to every part that has none, here and in the options inside. -/
def Options.place : Options → Marking Options
  | ⟨fields, components, mixins, base, merged⟩ => do
    let fields ← fields.place
    let components ← placeComponents components
    let mixins ← placeMixins mixins
    let base ← placeBase base
    return ⟨fields, components, mixins, base, merged⟩

def placeComponents : Option (Placed Components) → Marking (Option (Placed Components))
  | none => pure none
  | some ⟨mark, ⟨own, outer⟩⟩ => do
    let own ← placeEntries own
    let outer ← placeLayers outer
    Placed.placeOption (some ⟨mark, ⟨own, outer⟩⟩)

def placeEntries :
    List (String × ComponentRef Options) → Marking (List (String × ComponentRef Options))
  | [] => pure []
  | (k, .ofClass c) :: rest => do return (k, .ofClass c) :: (← placeEntries rest)
  | (k, .self c) :: rest => do return (k, .self c) :: (← placeEntries rest)
  | (k, .definition (some id) o) :: rest => do
    return (k, .definition (some id) o) :: (← placeEntries rest)
  | (k, .definition none o) :: rest => do
    let o ← o.place
    let id ← freshMark
    return (k, .definition (some id) o) :: (← placeEntries rest)

def placeLayers : List (List (String × ComponentRef Options)) →
    Marking (List (List (String × ComponentRef Options)))
  | [] => pure []
  | layer :: rest => do
    let layer ← placeEntries layer
    return layer :: (← placeLayers rest)

def placeMixins : Option (Placed (List Options)) → Marking (Option (Placed (List Options)))
  | none => pure none
  | some ⟨some m, os⟩ => pure (some ⟨some m, os⟩)
  | some ⟨none, os⟩ => do
    let os ← placeAll os
    Placed.placeOption (some ⟨none, os⟩)

def placeAll : List Options → Marking (List Options)
  | [] => pure []
  | o :: rest => do
    let o ← o.place
    return o :: (← placeAll rest)

def placeBase : Option (Placed Options) → Marking (Option (Placed Options))
  | none => pure none
  | some ⟨some m, o⟩ => pure (some ⟨some m, o⟩)
  | some ⟨none, o⟩ => do
    let o ← o.place
    Placed.placeOption (some ⟨none, o⟩)

end

end Componentry
