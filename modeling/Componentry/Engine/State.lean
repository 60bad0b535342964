import Componentry.Engine.Script

/-!
# Initializing state

The state of an instance is set up in a fixed order: props, methods, data, computed values,
watchers. What shadows something set up before is warned about.

- `initState`: all of it.
- `evaluateSource`: the record of a data source.
- `initInjections`, `initProvided`: what comes from ancestors and what is offered to descendants.
-/

namespace Componentry

open Json (Value Record)

/-- The kind of a value, as warnings about props spell it. -/
def valueTypeName : Value → String
  | .null => "Null"
  | .bool _ => "Boolean"
  | .num _ => "Number"
  | .str _ => "String"
  | .arr _ => "Array"
  | .obj _ => "Object"

namespace Eng

variable (rt : Runtime) (run : Runner)

/-! ## Props -/

/-- The value that was passed for a prop, in either spelling. -/
def passedValue (passed : Record) (key : String) : Option Value :=
  Dict.get? passed key <|> Dict.get? passed (Text.hyphenate key)

/-- Whether a value will do for a prop. -/
def acceptsProp (o : PropOptions) (v : Value) : Bool :=
  v.isNull || o.types.isEmpty || o.types.any (·.accepts v)

/-- The value of a prop; one that is missing or of another type is warned about. -/
def propValue (vm : InstanceId) (key : String) (o : PropOptions) (passed : Option Value) :
    Eng Value := do
  match passed with
  | none =>
    if o.required then warn rt vm ("Missing required prop: \"" ++ key ++ "\"")
    return o.default.getD .null
  | some v =>
    if !acceptsProp o v then
      warn rt vm ("Invalid prop: type check failed for prop \"" ++ key ++ "\". Expected "
        ++ ", ".intercalate (o.types.map PropType.name) ++ ", got " ++ valueTypeName v)
    return v

def initProps (vm : InstanceId) : Eng Unit := do
  let i ← getInstance vm
  let passed := i.options.propsData.getD []
  let props ← i.options.props.foldlM (fun d p => do
    return Dict.insert p.1 (← propValue rt vm p.1 p.2 (passedValue passed p.1)) d) []
  modifyInstance vm ({ · with props })

/-! ## Methods -/

def initMethods (vm : InstanceId) : Eng Unit := do
  let i ← getInstance vm
  match i.options.part (·.methods) with
  | none => return
  | some methods =>
    methods.forM fun m => do
      if Dict.contains i.props m.1 then
        warn rt vm ("Method \"" ++ m.1 ++ "\" has already been defined as a prop.")
    modifyInstance vm ({ · with methods })

/-! ## Data -/

/-- The record of a data source. -/
def evaluateSource (vm : InstanceId) : DataSource → Eng (Except HookError Record)
  | .record r => return .ok r
  | .script s => do return (← run vm [] s).map fun v => v.obj?.getD []
  | .both parent child => do
    match ← evaluateSource vm child with
    | .error e => return .error e
    | .ok own => return (← evaluateSource vm parent).map (Dict.overlay · own)

def initData (vm : InstanceId) : Eng Unit := do
  match (← getInstance vm).options.part (·.data) with
  | none => return
  | some source =>
    let code := do
      record vm (.ran vm .data)
      evaluateSource run vm source
    match ← attempt rt run vm "data()" code with
    | none => return
    | some values =>
      let i ← getInstance vm
      values.forM fun e => do
        if Dict.contains i.methods e.1 then
          warn rt vm ("Method \"" ++ e.1 ++ "\" has already been defined as a data property.")
        if Dict.contains i.props e.1 then
          warn rt vm ("The data property \"" ++ e.1
            ++ "\" is already declared as a prop. Use prop default value instead.")
      modifyInstance vm ({ · with data := values })

/-! ## Computed values -/

/-- Computes a value, unless it is shadowed. -/
def initComputedValue (vm : InstanceId) (key : String) (getter : Script) : Eng Unit := do
  let i ← getInstance vm
  if Dict.contains i.data key || Dict.contains i.props key then
    warn rt vm ("The computed property \"" ++ key ++ "\" is already defined in data or props.")
  else
    match ← attempt rt run vm ("getter for computed property \"" ++ key ++ "\"")
        (run vm [] getter) with
    | some v => modifyInstance vm fun i => { i with computed := Dict.insert key v i.computed }
    | none => return

def initComputed (vm : InstanceId) : Eng Unit := do
  match (← getInstance vm).options.part (·.computed) with
  | none => return
  | some getters => getters.forM fun g => initComputedValue rt run vm g.1 g.2

/-! ## Watchers -/

/-- The watchers that run at once. -/
def immediateWatchers (watch : WatchMap) : List (String × WatchHandler) :=
  watch.flatMap fun e => (e.2.filter (·.immediate)).map fun h => (e.1, h)

def runImmediate (vm : InstanceId) (key : String) (h : WatchHandler) : Eng Unit := do
  let value := ((← getInstance vm).get? key).getD .null
  match ← runWatcher run vm h value .null with
  | .ok _ => return
  | .error e => report rt run vm e ("callback for immediate watcher \"" ++ key ++ "\"")

def initWatch (vm : InstanceId) : Eng Unit := do
  match (← getInstance vm).options.part (·.watch) with
  | none => return
  | some watchers =>
    modifyInstance vm ({ · with watchers })
    withAccess vm .exclusive
      ((immediateWatchers watchers).forM fun e => runImmediate rt run vm e.1 e.2)

/-- Sets up the state of an instance. -/
def initState (vm : InstanceId) : Eng Unit := do
  initProps rt vm
  initMethods rt vm
  initData rt run vm
  initComputed rt run vm
  initWatch rt run vm

/-! ## Injections -/

/-- What an ancestor provides of what is still wanted, and what is wanted then. -/
def takeProvided (provided : Record) (wanted : Dict InjectOptions) (found : Record) :
    Dict InjectOptions × Record :=
  wanted.foldl (fun (left, found) e =>
    match Dict.get? provided e.2.source with
    | some v => (left, Dict.insert e.1 v found)
    | none => (left ++ [e], found)) ([], found)

/-- Asks the ancestors from `p` up, the nearest first, until nothing is wanted any more. It goes no
further than an ancestor that may not be looked at. -/
def askAncestors : Nat → Option InstanceId → Dict InjectOptions → Record →
    Eng (Dict InjectOptions × Record)
  | 0, _, wanted, found => return (wanted, found)
  | fuel + 1, p, wanted, found => do
    match ← alive? p with
    | none => return (wanted, found)
    | some p =>
      if wanted.isEmpty then return (wanted, found)
      let i ← getInstance p
      if i.access = .exclusive then
        note (.line .debug "skipping busy ancestor while resolving injections")
        return (wanted, found)
      let (wanted, found) := takeProvided i.provided wanted found
      askAncestors fuel i.parent wanted found

/-- Injects what ancestors provide, or else the defaults. -/
def initInjections (vm : InstanceId) : Eng Unit := do
  let i ← getInstance vm
  let wanted := i.options.inject
  if wanted.isEmpty then return
  let (missing, found) ← askAncestors ((← get).instances.size + 1) i.parent wanted []
  let injected ← missing.foldlM (fun d e => do
    match e.2.default with
    | some v => return Dict.insert e.1 v d
    | none =>
      warn rt vm ("Injection \"" ++ e.1 ++ "\" not found")
      return d) found
  modifyInstance vm ({ · with injected })

/-- Evaluates what is offered to descendants. -/
def initProvided (vm : InstanceId) : Eng Unit := do
  match (← getInstance vm).options.part (·.provide) with
  | none => return
  | some source =>
    let code := do
      record vm (.ran vm .provide)
      evaluateSource run vm source
    match ← attempt rt run vm "provide()" code with
    | some provided => modifyInstance vm ({ · with provided })
    | none => return

end Eng

end Componentry
