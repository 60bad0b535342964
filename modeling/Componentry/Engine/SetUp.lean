import Componentry.Engine.Scope

/-!
# Initializing an instance

Initialization takes a freshly allocated instance through all phases. Failures of author's code are
reported on the way and stop nothing; only options that cannot be resolved or merged do.

- `Eng.setUp`: all phases, and mounting if the options name an element.
-/

namespace Componentry

open Json (Value)

/-- Where the options of an instance come from. -/
inductive Origin where
  /-- It was asked for, with a definition of its own. -/
  | root (definition : Options)
  /-- Its parent's rendering made it for a placeholder, perhaps with render functions for this one
  occasion. -/
  | child (parent : InstanceId) (placeholder : Placeholder) (render : Option RenderFn)
      (statics : List RenderFn)
  deriving Inhabited

namespace Eng

/-- Mounts an instance on a target, hydrating or not. -/
abbrev Mounting := InstanceId → Option MountTarget → Bool → Eng Unit

/-- A blank instance of a class. -/
def allocate (ctor : ClassId) : Eng InstanceId :=
  modifyGet fun w => (w.instances.size, { w with instances := w.instances.push { ctor } })

/-- Enters a phase. -/
def advance (vm : InstanceId) (phase : Phase) : Eng Unit := do
  modifyInstance vm ({ · with phase })
  record vm (.entered vm phase)

/-- The options of a child: those of its class, and what came with the placeholder. -/
def childOptions (proto : Placed Options) (parent : InstanceId) (p : Placeholder)
    (render : Option RenderFn) (statics : List RenderFn) : InstanceOptions :=
  let o : InstanceOptions :=
    { InstanceOptions.linked proto with
      parent := some parent
      parentVNode := some p
      propsData := some p.props
      parentListeners := some p.listeners
      renderChildren := some p.children
      componentTag := some p.tag }
  match render with
  | some f => o.setRender f statics
  | none => o

variable (rt : Runtime) (run : Runner)

/-- Gives an instance its options: those of its class, with its own definition merged over them
unless it is a child. -/
def initOptions (vm : InstanceId) : Origin → Eng Unit
  | .child parent p render statics => do
    let i ← getInstance vm
    let proto := (((← get).forest.class? i.ctor).getD default).options
    modifyInstance vm ({ · with options := childOptions proto parent p render statics })
  | .root definition => do
    let i ← getInstance vm
    let merged ← forging do
      let above ← Classes.resolve rt.config i.ctor
      let definition ← Forging.marking definition.place
      let merged ← Forging.merging (Options.merge rt.config true above.value definition)
      Forging.marking merged.place
    modifyInstance vm ({ · with options := .merged merged })

/-- The phases before any author's code runs. They give the instance its place in the tree. -/
def initPlace (vm : InstanceId) : Eng Unit := do
  advance vm .optionsResolved
  modifyInstance vm ({ · with devProxy := rt.config.devMode })
  advance vm .proxyInstalled
  modifyInstance vm ({ · with selfRef := some vm })
  advance vm .selfExposed
  initLifecycle vm
  advance vm .lifecycleWired
  initEvents vm
  advance vm .eventsWired
  initRender vm
  advance vm .renderWired

/-- The phases in which author's code runs. -/
def initOwn (vm : InstanceId) : Eng Unit := do
  callHook rt run vm .beforeCreate
  advance vm .beforeCreate
  initInjections rt vm
  advance vm .injectionsResolved
  initState rt run vm
  advance vm .stateReady
  initProvided rt run vm
  advance vm .provided
  callHook rt run vm .created
  advance vm .created

/-- The phases after the options are there. -/
def initPhases (vm : InstanceId) : Eng Unit := do
  initPlace rt vm
  initOwn rt run vm

/-- Begins the initialization: the instance gets its number. -/
def identify (vm : InstanceId) : Eng Nat := do
  let uid ← modifyGet fun w => (w.nextUid, { w with nextUid := w.nextUid + 1 })
  modifyInstance vm ({ · with uid := some uid, skipObservation := true })
  advance vm .identified
  return uid

/-- Mounts an instance on the element that options name, if they name one. -/
def mountNamed (mount : Mounting) (vm : InstanceId) (o : InstanceOptions) : Eng Unit :=
  match o.field (·.el) with
  | some el => mount vm (some el) false
  | none => return

/-- Initializes an instance. One that is past its beginning only gets a warning. -/
def setUp (mount : Mounting) (vm : InstanceId) (origin : Origin) : Eng Unit := do
  let i ← getInstance vm
  if i.access = .exclusive then throw (.fatal (.instanceBusy "init"))
  if i.phase ≠ .allocated then
    warn rt vm ("Component instance is already initialized; initialize must be called once on a "
      ++ "freshly allocated instance.")
    return
  let uid ← identify vm
  let start := "perf-start:" ++ toString uid
  let finish := "perf-end:" ++ toString uid
  onPerf (·.mark start)
  initOptions rt vm origin
  initPhases rt run vm
  onPerf (·.mark finish)
  let i ← getInstance vm
  onPerf (·.measure (i.displayName ++ " init") start finish)
  mountNamed mount vm i.options

end Eng

end Componentry
