import Componentry.Chronicle
import Componentry.Class.Resolve
import Componentry.Host.Query
import Componentry.Instance.Basic
import Componentry.Template.Compile

/-!
# The world

Everything that changes while components are made and mounted: classes, instances, the host page,
caches. Operations are computations on the world that may come to a halt.

- `Perf`: marks that are set at moments of interest, and the measures taken between them.
- `World`: the state.
- `Runtime`: what does not change.
- `Eng`: operations; what was done before a halt stays done.
- `withAccess`: running something while an instance is in use.
-/

namespace Componentry

open Json (Value)

/-- A compiled template as render functions. -/
structure CompiledTemplate where
  render : RenderFn
  statics : List RenderFn
  problems : List Template.Problem
  deriving Inhabited

/-- Marks and measures. How long a measure took is nobody's business here; that it was taken is. -/
structure Perf where
  enabled : Bool := false
  marks : List String := []
  /-- The names of the measures taken, in order. -/
  measures : List String := []
  deriving Repr, DecidableEq, Inhabited

namespace Perf

def mark (p : Perf) (tag : String) : Perf :=
  if p.enabled && !p.marks.contains tag then { p with marks := tag :: p.marks } else p

/-- Takes a measure and uses up its marks. Without both of them, or between a mark and itself,
there is no measure, but the marks are used up all the same. -/
def measure (p : Perf) (name start finish : String) : Perf :=
  if p.enabled then
    let marks := (p.marks.erase start).erase finish
    if p.marks.contains start && (p.marks.erase start).contains finish then
      { p with marks, measures := p.measures ++ [name] }
    else { p with marks }
  else p

end Perf

structure World where
  forest : Forest := {}
  instances : Array Instance := #[]
  host : Host := {}
  /-- How many initializations have begun. -/
  nextUid : Nat := 0
  /-- Compiled templates by digest. -/
  memo : Dict CompiledTemplate := []
  /-- How many templates were compiled, repetitions not counted. -/
  compilations : Nat := 0
  /-- Every compilation that was asked for, repetitions counted; nothing reads it. -/
  asked : List (Template.CompileSettings × String) := []
  /-- The markup found for each selector; nothing found is remembered as empty. -/
  templates : Dict String := []
  perf : Perf := {}
  chronicle : Array Occurrence := #[]
  /-- Every call of author's code, in order; nothing reads it. -/
  invoked : Array Invocation := #[]
  /-- Where markup came from and what was compiled, in order; nothing reads it. -/
  sourced : Array Sourcing := #[]
  deriving Inhabited

/-- How an instance with a render function becomes nodes of the host. -/
inductive Mounter where
  | patch
  /-- Only records that it was asked. -/
  | recorder
  deriving Repr, DecidableEq, Inhabited

structure Runtime where
  config : Config := {}
  /-- The class that every class comes from. -/
  base : ClassId := 0
  /-- The document of the host page, if there is a page. -/
  page : Option NodeId := none
  mounter : Mounter := .patch
  /-- The host hands out attribute values with newlines decoded. -/
  decodeNewlines : Bool := false
  decodeHrefNewlines : Bool := false
  /-- What compilations are remembered by. -/
  digest : Template.CompileSettings → String → String := Template.digest
  /-- How deep calls may go. -/
  fuel : Nat := 100000

/-- Why an operation stopped. -/
inductive Halt where
  | fatal (e : Error)
  | outOfFuel
  deriving Repr, DecidableEq, Inhabited

abbrev Eng := ExceptT Halt (StateM World)

namespace Eng

variable {α : Type}

/-! ## Parts of the world -/

/-- A computation on classes, its error as a result. -/
def tryForging (f : Forging α) : Eng (Except Error α) :=
  modifyGet fun w =>
    let (r, forest) := f.run.run w.forest
    (r, { w with forest })

/-- A computation on classes, its error a halt. -/
def forging (f : Forging α) : Eng α := do
  match ← tryForging f with
  | .ok a => return a
  | .error e => throw (.fatal e)

/-- Writes to the journal. -/
def noting (n : Noting α) : Eng α :=
  modifyGet fun w =>
    let (a, journal) := n.run w.forest.journal
    (a, { w with forest := { w.forest with journal } })

def note (e : LogEntry) : Eng Unit := noting (Componentry.note e)

def freshMark : Eng Mark :=
  modifyGet fun w =>
    (w.forest.nextMark, { w with forest := { w.forest with nextMark := w.forest.nextMark + 1 } })

/-- Passes over marks. -/
def skipMarks (n : Nat) : Eng Unit :=
  modify fun w => { w with forest := { w.forest with nextMark := w.forest.nextMark + n } }

/-- An instance by its number. -/
def getInstance (vm : InstanceId) : Eng Instance := do
  return (← get).instances.getD vm default

def modifyInstance (vm : InstanceId) (f : Instance → Instance) : Eng Unit :=
  modify fun w => { w with instances := w.instances.modify vm f }

/-- Enters what happens to an instance into the chronicle. -/
def record (vm : InstanceId) (what : Happening) : Eng Unit :=
  modify fun w =>
    { w with chronicle := w.chronicle.push ⟨what, w.instances.getD vm default⟩ }

/-- Enters a call of author's code into the record of calls. -/
def invoke (call : Invocation) : Eng Unit :=
  modify fun w => { w with invoked := w.invoked.push call }

/-- Enters where markup came from, or what is compiled. -/
def source (step : World → Sourcing) : Eng Unit :=
  modify fun w => { w with sourced := w.sourced.push (step w) }

/-- The instance, if it is still there. -/
def alive? (vm : Option InstanceId) : Eng (Option InstanceId) := do
  let w ← get
  return vm.filter fun i => (w.instances.getD i { (default : Instance) with alive := false }).alive

/-- The parent of an instance, if it is still there. -/
def parentOf (vm : InstanceId) : Eng (Option InstanceId) := do
  alive? (← getInstance vm).parent

def getHost : Eng Host := do return (← get).host

def onHost (f : Host → α × Host) : Eng α :=
  modifyGet fun w =>
    let (a, host) := f w.host
    (a, { w with host })

def onPerf (f : Perf → Perf) : Eng Unit := modify fun w => { w with perf := f w.perf }

/-! ## Access -/

def setAccess (vm : InstanceId) (a : Access) (w : World) : World :=
  { w with instances := w.instances.modify vm ({ · with access := a }) }

/-- Runs something while an instance is in use; afterwards, also after a halt, it is in use as
before. -/
def withAccess (vm : InstanceId) (a : Access) (act : Eng α) : Eng α := fun w =>
  let before := (w.instances.getD vm default).access
  let (r, w) := act (setAccess vm a w)
  (r, setAccess vm before w)

end Eng

/-! ## Beginning -/

/-- The assets that every class starts with: none, but in registries of their own. -/
def defaultOptions : Options where
  fields := { directives := some (.new .empty), filters := some (.new .empty) }
  components := some (.new .empty)

/-- A runtime that goes by a configuration, and its world. `page` is the markup of the host
page. -/
def Runtime.start (config : Config) (page : Option String) : Runtime × World :=
  let (_, forest) := (Classes.newBase defaultOptions).run.run {}
  let perf : Perf := { enabled := config.settings.performance && config.devMode }
  match page with
  | none => ({ config }, { forest, perf })
  | some html =>
    let (root, host) := Host.loadDocument {} html
    ({ config, page := some root }, { forest, perf, host })

end Componentry
