import Componentry.Config

/-!
# The journal

What happens on the side while an operation runs: warnings, errors of author's code, questions to
the host page, and what scripts record. Entries keep the order in which they happened.
-/

namespace Componentry

open Json (Value Record)

inductive LogLevel where
  | warn
  | error
  | debug
  deriving Repr, DecidableEq, Inhabited

inductive LogEntry where
  /-- A warning given to its handler, with the name of the instance and the trace. -/
  | warning (message : String) (vm : Option String) (trace : String)
  /-- An error of author's code given to its handler. -/
  | failure (text : String) (vm : Option String) (info : String)
  /-- A line of the common log. -/
  | line (level : LogLevel) (text : String)
  /-- The page was asked for a selector. -/
  | query (selector : String)
  /-- A custom strategy ran. -/
  | strategy (key : String) (parent child : Option Value)
  /-- The recording mounter ran. -/
  | mounter (target : Option String) (hydrating hasRender : Bool) (measures : Nat)
  | value (v : Value)
  | phase (name : String)
  | state (props data injected provided : Record)
  | set (key : String) (ok : Bool)
  | call (method : String) (result : Except HookError Value)
  | listener (label : String) (args : List Value)
  deriving Inhabited

structure Journal where
  entries : Array LogEntry := #[]
  /-- How many merges ran, those of bases and mixins included. -/
  merges : Nat := 0
  deriving Inhabited

/-- Computations that write to the journal. -/
abbrev Noting := StateM Journal

def note (e : LogEntry) : Noting Unit := modify fun j => { j with entries := j.entries.push e }

/-- A warning that concerns no instance. -/
def warnAlone (cfg : Config) (message : String) : Noting Unit := do
  if cfg.warns then
    if cfg.handlers then note (.warning message none "")
    else note (.line .warn ("[component warn]: " ++ message))

end Componentry
