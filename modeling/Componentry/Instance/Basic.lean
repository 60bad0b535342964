import Componentry.Instance.Options

/-!
# Component instances

- `Phase`: how far its initialization has come.
- `Instance`: everything an instance holds.
- `Instance.get?`, `Instance.has`: its properties.
- `Instance.displayName`: how it is named to people.
- `Access`: who may look at an instance at the moment.
-/

namespace Componentry

open Json (Value Record)

/-- An instance passes through the phases in their order and never goes back. -/
inductive Phase where
  | allocated
  | identified
  | optionsResolved
  | proxyInstalled
  | selfExposed
  | lifecycleWired
  | eventsWired
  | renderWired
  | beforeCreate
  | injectionsResolved
  | stateReady
  | provided
  | created
  deriving Repr, DecidableEq, Inhabited

namespace Phase

def all : List Phase :=
  [allocated, identified, optionsResolved, proxyInstalled, selfExposed, lifecycleWired,
    eventsWired, renderWired, beforeCreate, injectionsResolved, stateReady, provided, created]

def name : Phase → String
  | allocated => "allocated"
  | identified => "identified"
  | optionsResolved => "options"
  | proxyInstalled => "proxy"
  | selfExposed => "self"
  | lifecycleWired => "lifecycle"
  | eventsWired => "events"
  | renderWired => "render"
  | beforeCreate => "beforeCreate"
  | injectionsResolved => "injections"
  | stateReady => "state"
  | provided => "provide"
  | created => "created"

theorem mem_all (p : Phase) : p ∈ all := by cases p <;> decide

end Phase

/-- Whether an instance is in use. While its own code runs nobody else may look at it; while it
renders others may look and not change it. -/
inductive Access where
  | free
  | shared
  | exclusive
  deriving Repr, DecidableEq, Inhabited

structure Instance where
  ctor : ClassId
  /-- The number it got when its initialization began. -/
  uid : Option Nat := none
  phase : Phase := .allocated
  options : InstanceOptions := {}
  /-- Its fields are not observed as state. -/
  skipObservation : Bool := false
  /-- Rendering warns about properties that were never declared. -/
  devProxy : Bool := false
  /-- Its own number, once others may know it. -/
  selfRef : Option InstanceId := none
  parent : Option InstanceId := none
  root : Option InstanceId := none
  children : List InstanceId := []
  isMounted : Bool := false
  isDestroyed : Bool := false
  events : Listeners := []
  parentVNode : Option Placeholder := none
  vnode : Option VNode := none
  slots : Dict (List VNode) := []
  /-- The hoisted static trees that were rendered already. -/
  staticTrees : List (Nat × VNode) := []
  /-- Instances below that still wait for their mounted hook. -/
  pendingMounted : List InstanceId := []
  injected : Record := []
  props : Record := []
  data : Record := []
  computed : Record := []
  methods : Dict Script := []
  watchers : WatchMap := []
  provided : Record := []
  el : Option NodeId := none
  access : Access := .free
  alive : Bool := true
  deriving Inhabited

namespace Instance

/-- A property: among the props, the data, the computed values, what was injected. -/
def get? (i : Instance) (key : String) : Option Value :=
  Dict.get? i.props key <|> Dict.get? i.data key <|> Dict.get? i.computed key
    <|> Dict.get? i.injected key

/-- Whether there is a property or a method of a name. -/
def has (i : Instance) (key : String) : Bool :=
  (i.get? key).isSome || Dict.contains i.methods key

/-- Whether nothing is above it. -/
def isRoot (i : Instance) : Bool := i.parent.isNone

/-- The name in warnings: that of its options, else the tag it was made for. -/
def displayName (i : Instance) : String :=
  if i.isRoot then "<Root>"
  else
    match i.options.name <|> i.options.componentTag with
    | some name => "<" ++ Text.classify name ++ ">"
    | none => "<Anonymous>"

def hasListeners (i : Instance) (event : String) : Bool :=
  match Dict.get? i.events event with
  | some fs => !fs.isEmpty
  | none => false

/-- Adds a listener after those that are there. -/
def listen (i : Instance) (event : String) (f : Listener) : Instance :=
  { i with events := Dict.alter event (fun fs => fs.getD [] ++ [f]) i.events }

/-- Removes one listener, or all of an event. -/
def unlisten (i : Instance) (event : String) : Option Listener → Instance
  | none => { i with events := Dict.erase event i.events }
  | some f =>
    match Dict.get? i.events event with
    | none => i
    | some fs => { i with events := Dict.insert event (fs.filter (·.id != f.id)) i.events }

/-- A filter by any spelling of its name. -/
def filter? (i : Instance) (id : String) : Option Expr :=
  i.options.filters.bind (·.resolve? id)

end Instance

end Componentry
