import Componentry.Engine.Report
import Componentry.Instance.Basic
import Componentry.Json.Printer
import Componentry.Text.LetterCase

/-!
# Running scripts

A script acts on the instance it runs for: it sets properties, which runs watchers, it calls
methods, and it emits events, which runs listeners. Each of these runs scripts again.

- `Expr.eval`: the value of an expression.
- `Eng.set`, `Eng.callMethod`, `Eng.emit`: acting on an instance, given how scripts run.
- `Eng.runScript`: running a script, to a depth.
- `Runtime.run`: running a script to the depth that the runtime allows.
-/

namespace Componentry

open Json (Value Number)

/-! ## Expressions

An expression is evaluated against an instance, or against none, and the arguments of the script it
stands in. -/

/-- Whole numbers from this on are too large for a sum, as are those below its negative. -/
def wholeLimit : Int := 9223372036854775808

/-- The whole number that a value counts for in a sum. -/
def wholeOf : Value → Int
  | .num (.int n) => if -wholeLimit ≤ n ∧ n < wholeLimit then n else 0
  | _ => 0

namespace Expr

mutual

/-- The value of an expression. Without an instance there are no properties. -/
def eval (vm : Option Instance) (args : List Value) : Expr → Value
  | lit v => v
  | list items => .arr (evalAll vm args items)
  | record fields => .obj (evalFields vm args fields)
  | get key => (vm.bind (·.get? key)).getD .null
  | has key => .bool ((vm.map (·.has key)).getD false)
  | arg i => (args[i]?).getD .null
  | upper e => .str (Text.upper (eval vm args e).display)
  | cat items => .str (String.join ((evalAll vm args items).map Value.display))
  | add items => .num (.int ((evalAll vm args items).foldl (fun n v => n + wholeOf v) 0))

def evalAll (vm : Option Instance) (args : List Value) : List Expr → List Value
  | [] => []
  | e :: rest => eval vm args e :: evalAll vm args rest

def evalFields (vm : Option Instance) (args : List Value) :
    List (String × Expr) → List (String × Value)
  | [] => []
  | (k, e) :: rest => (k, eval vm args e) :: evalFields vm args rest

end

/-- A value sent through a filter. -/
def filter (e : Expr) (v : Value) : Value := e.eval none [v]

end Expr

namespace Eng

variable (rt : Runtime) (run : Runner)

/-! ## Acting on an instance -/

/-- Calls a method. -/
def callMethod (vm : InstanceId) (name : String) (args : List Value) :
    Eng (Except HookError Value) := do
  match Dict.get? (← getInstance vm).methods name with
  | some s => run vm args s
  | none => return .error ⟨"method \"" ++ name ++ "\" is not defined"⟩

/-- Runs a watcher with the new value and the old one. -/
def runWatcher (vm : InstanceId) (h : WatchHandler) (value old : Value) :
    Eng (Except HookError Unit) := do
  let r ← match h.callback with
    | .handler f => run vm [value, old] f.script
    | .method name => callMethod run vm name [value, old]
  return r.map fun _ => ()

/-- Runs watchers one after the other and reports the errors of each. -/
def runWatchers (vm : InstanceId) (info : String) (value old : Value) :
    List WatchHandler → Eng Unit
  | [] => return
  | h :: rest => do
    match ← runWatcher run vm h value old with
    | .ok _ => pure ()
    | .error e => report rt run vm e info
    runWatchers vm info value old rest

/-- Tells the watchers of a property that it changed. -/
def notify (vm : InstanceId) (key : String) (value old : Value) : Eng Unit := do
  match Dict.get? (← getInstance vm).watchers key with
  | some hs => runWatchers rt run vm ("callback for watcher \"" ++ key ++ "\"") value old hs
  | none => return

/-- Sets a property of the data, or else a prop, and tells its watchers. False if there is no such
property. -/
def set (vm : InstanceId) (key : String) (value : Value) : Eng Bool := do
  let i ← getInstance vm
  match Dict.get? i.data key with
  | some old =>
    modifyInstance vm fun i => { i with data := Dict.insert key value i.data }
    notify rt run vm key value old
    return true
  | none =>
    match Dict.get? i.props key with
    | some old =>
      modifyInstance vm fun i => { i with props := Dict.insert key value i.props }
      warn rt vm ("Avoid mutating a prop directly since the value will be overwritten whenever "
        ++ "the parent component re-renders. Prop being mutated: \"" ++ key ++ "\"")
      notify rt run vm key value old
      return true
    | none =>
      warn rt vm ("Cannot set reactive property \"" ++ key
        ++ "\": it is not declared in data or props.")
      return false

/-! ## Events -/

/-- Calls a listener. One that calls a method needs its instance to be there and not in use. -/
def callListener (f : Listener) (args : List Value) : Eng (Except HookError Unit) := do
  match f.body with
  | .recorder label =>
    note (.listener label args)
    if label.startsWith "!" then return .error ⟨label⟩ else return .ok ()
  | .method target name =>
    match ← alive? target with
    | none => return .error ⟨"listener target was dropped"⟩
    | some vm =>
      if (← getInstance vm).access = .free then
        let r ← withAccess vm .exclusive (callMethod run vm name args)
        return r.map fun _ => ()
      else return .error ⟨"listener target is busy"⟩

/-- Calls listeners one after the other and reports the errors of each. -/
def callListeners (vm : InstanceId) (info : String) (args : List Value) :
    List Listener → Eng Unit
  | [] => return
  | f :: rest => do
    match ← callListener run f args with
    | .ok _ => pure ()
    | .error e => report rt run vm e info
    callListeners vm info args rest

/-- Calls the listeners of an event that there are when it is emitted. -/
def emit (vm : InstanceId) (event : String) (args : List Value) : Eng Unit := do
  match Dict.get? (← getInstance vm).events event with
  | some fs => callListeners rt run vm ("event handler for \"" ++ event ++ "\"") args fs
  | none => return

/-- Adds a new listener that records under a label. -/
def listen (vm : InstanceId) (event label : String) : Eng Unit := do
  let id ← freshMark
  modifyInstance vm (·.listen event ⟨id, .recorder label⟩)

/-! ## Actions -/

/-- Runs one action; a script ends with an error or a result. -/
def act (vm : InstanceId) (args : List Value) (a : Action) :
    Eng (Option (Except HookError Value)) := do
  let i ← getInstance vm
  let eval := Expr.eval (some i) args
  match a with
  | .log e =>
    note (.value (eval e))
    return none
  | .phase =>
    note (.phase i.phase.name)
    return none
  | .state =>
    note (.state i.props i.data i.injected i.provided)
    return none
  | .set key e =>
    let ok ← set rt run vm key (eval e)
    note (.set key ok)
    return none
  | .call method es =>
    let r ← callMethod run vm method (es.map eval)
    note (.call method r)
    return none
  | .emit event es =>
    emit rt run vm event (es.map eval)
    return none
  | .listen event label =>
    listen vm event label
    return none
  | .unlisten event =>
    modifyInstance vm (·.unlisten event none)
    return none
  | .warn message =>
    warn rt vm message
    return none
  | .fail message => return some (.error ⟨message⟩)
  | .ret e => return some (.ok (eval e))

/-- Runs actions in order, until the script ends; at the end of the actions its result is null. -/
def actAll (vm : InstanceId) (args : List Value) : Script → Eng (Except HookError Value)
  | [] => return .ok .null
  | a :: rest => do
    match ← act rt run vm args a with
    | some r => return r
    | none => actAll vm args rest

end Eng

/-- Runs a script; scripts that it makes run go at most `fuel` deep. -/
def Eng.runScript (rt : Runtime) : Nat → Runner
  | 0, _, _, _ => throw .outOfFuel
  | fuel + 1, vm, args, s => do
    Eng.invoke (.script vm args s)
    Eng.actAll rt (Eng.runScript rt fuel) vm args s

/-- Runs a script as deep as the runtime allows. -/
def Runtime.run (rt : Runtime) : Runner := Eng.runScript rt rt.fuel

end Componentry
