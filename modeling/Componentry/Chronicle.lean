import Componentry.Instance.Basic

/-!
# The chronicle

What instances go through, in the order in which it happens: the phases of their initialization,
the author's code that runs for them on the way, rendering, and the patch of the host page. Nothing
reads the chronicle. It is there so that one can say in which order things happen.

- `Happening`: what can happen to an instance.
- `Occurrence`: one entry, with the instance as it was then.
- `Invocation`: a call of author's code, kept in a record of its own.
- `Sourcing`: where the markup of templates came from and what was compiled, in another.
-/

namespace Componentry

/-- Author's code that belongs to the life of an instance. -/
inductive Work where
  | hook (h : Hook) (f : Handler)
  | data
  | provide
  deriving Inhabited

inductive Happening where
  | entered (vm : InstanceId) (phase : Phase)
  /-- Author's code began to run. -/
  | ran (vm : InstanceId) (work : Work)
  | rendered (vm : InstanceId) (tree : VNode)
  /-- The tree was put into the host page. -/
  | patched (vm : InstanceId)
  deriving Inhabited

/-- The instance that it happens to. -/
def Happening.subject : Happening → InstanceId
  | entered vm _ => vm
  | ran vm _ => vm
  | rendered vm _ => vm
  | patched vm => vm

/-- A call of author's code, with what it is given. -/
inductive Invocation where
  | script (vm : InstanceId) (args : List Json.Value) (s : Script)
  | filter (e : Expr) (v : Json.Value)
  deriving Inhabited

/-- A step on the way from a template to a render function. -/
inductive Sourcing where
  /-- The page was asked for the markup that a selector names; nothing found is empty. -/
  | lookedUp (selector markup : String)
  /-- An instance whose template is a selector was given the markup for it. -/
  | given (vm : InstanceId) (selector markup : String)
  /-- The compiler was called for an instance, with the instance as it was then if it is there. -/
  | compiled (vm : InstanceId) (found : Option Instance) (template : String)
  deriving Inhabited

structure Occurrence where
  what : Happening
  /-- The instance as it was when this happened. -/
  found : Instance
  deriving Inhabited

end Componentry
