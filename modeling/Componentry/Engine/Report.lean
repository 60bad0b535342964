import Componentry.World

/-!
# Warnings and errors of instances

A warning comes with the names of the instance and of everything above it. An error of author's
code first goes up through the ancestors, each of which may keep it from going on.

- `warn`: a warning of an instance.
- `report`: an error of author's code that ran for an instance.
- `attempt`: runs author's code for an instance and reports its error.
-/

namespace Componentry

open Json (Value)

/-- Runs a script for an instance, with arguments. -/
abbrev Runner := InstanceId → List Value → Script → Eng (Except HookError Value)

namespace Eng

/-! ## Warnings -/

/-- The names from an instance up, as far as one may look; `fuel` bounds the steps. -/
def namesFrom (w : World) : Nat → Option InstanceId → List String
  | 0, _ => []
  | _, none => []
  | fuel + 1, some vm =>
    match w.instances[vm]? with
    | none => []
    | some i =>
      if !i.alive then []
      else if i.access = .exclusive then ["<busy>"]
      else i.displayName :: namesFrom w fuel i.parent

/-- The names of an instance and of everything above it, innermost first. -/
def namesAbove (w : World) (vm : InstanceId) : List String :=
  let i := w.instances.getD vm default
  i.displayName :: namesFrom w (w.instances.size + 1) i.parent

/-- One line for each name, further in for each step up. -/
def traceLines : Nat → List String → String
  | _, [] => ""
  | depth, name :: rest =>
    let lead := if depth = 0 then "---> " else String.ofList (List.replicate (5 + depth * 2) ' ')
    lead ++ name ++ "\n" ++ traceLines (depth + 1) rest

/-- Where an instance is, for people to read. -/
def traceOf (w : World) (vm : InstanceId) : String :=
  "\n\nfound in\n\n" ++ traceLines 0 (namesAbove w vm)

def trace (vm : InstanceId) : Eng String := do return traceOf (← get) vm

/-- A warning of an instance. -/
def warn (rt : Runtime) (vm : InstanceId) (message : String) : Eng Unit := do
  if rt.config.warns then
    let trace ← trace vm
    if rt.config.handlers then
      note (.warning message (some (← getInstance vm).displayName) trace)
    else note (.line .warn ("[component warn]: " ++ message ++ trace))

/-! ## Errors -/

/-- A text between backquotes. -/
def backquoted (s : String) : String :=
  String.ofList [Char.ofNat 96] ++ s ++ String.ofList [Char.ofNat 96]

/-- Gives an error that nobody kept to the handler of errors. -/
def reportAtTop (rt : Runtime) (vm : InstanceId) (e : HookError) (info : String) : Eng Unit := do
  let name := (← getInstance vm).displayName
  if rt.config.handlers then note (.failure e.message (some name) info)
  else note (.line .error ("Error in " ++ info ++ " " ++ name ++ ": \"" ++ e.message ++ "\""))

/-- Shows an error to the handlers of one ancestor, in order, up to the first that keeps it by
returning false; says whether one did. A handler that fails does not keep it. -/
def showTo (run : Runner) (p : InstanceId) (e : HookError) (info : String) :
    List Handler → Eng Bool
  | [] => return false
  | h :: rest => do
    match ← run p [.str e.message, .str info] h.script with
    | .ok (.bool false) => return true
    | _ => showTo run p e info rest

/-- Shows an error to the ancestors from `p` up; says whether one kept it. It goes no further than
an ancestor that is in use. -/
def showFrom (run : Runner) (e : HookError) (info : String) :
    Nat → Option InstanceId → Eng Bool
  | 0, _ => return false
  | fuel + 1, p => do
    match ← alive? p with
    | none => return false
    | some p =>
      let i ← getInstance p
      if i.access = .free then
        if ← withAccess p .exclusive (showTo run p e info i.options.errorCaptured) then
          return true
        else showFrom run e info fuel i.parent
      else
        note (.line .debug ("skipping busy ancestor while reporting " ++ backquoted info))
        return false

/-- Reports an error of author's code that ran for an instance. -/
def report (rt : Runtime) (run : Runner) (vm : InstanceId) (e : HookError) (info : String) :
    Eng Unit := do
  let w ← get
  let kept ← showFrom run e info (w.instances.size + 1) (← getInstance vm).parent
  if !kept then reportAtTop rt vm e info

/-- Runs author's code for an instance that nobody may look at meanwhile, and reports its error. If
the instance is in use already, the code does not run. -/
def attempt {α : Type} (rt : Runtime) (run : Runner) (vm : InstanceId) (info : String)
    (code : Eng (Except HookError α)) : Eng (Option α) := do
  if (← getInstance vm).access = .free then
    withAccess vm .exclusive do
      match ← code with
      | .ok a => return some a
      | .error e =>
        report rt run vm e info
        return none
  else
    note (.line .error ("cannot run " ++ backquoted info ++ ": component instance is busy"))
    return none

end Eng

end Componentry
