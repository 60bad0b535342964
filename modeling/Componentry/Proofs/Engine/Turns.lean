import Componentry.Proofs.Engine.Requests
import Componentry.Proofs.Engine.Using

/-!
# Callbacks in turn

Callbacks of author's code are called one after the other. One that fails is reported, and then it
is the turn of the next one. It does not matter to the others.

- `Turn`: how callbacks are called, and how their errors are reported.
- `Turn.Takes`, `Turn.Runs`: what happens when it is the turn of one callback, and of a row of them.
- `Turn.ends_forM`: **a loop over a row** gives each callback its turn, in the order of the row.
- `Eng.run_attempt`, `Eng.run_attemptThen`: an attempt at author's code is a turn.
-/

namespace Componentry

variable {γ α : Type} {R : World → World → Prop} {w w' : World} {r : Except Halt Unit}

/-- How it goes when it is the turn of a callback. -/
structure Turn (γ α : Type) where
  /-- Whether a callback is passed over, and the advice on that. -/
  passes : γ → World → Option (List LogEntry) := fun _ _ => none
  call : γ → Eng (Except HookError α)
  /-- What is done with what it gives. -/
  keep : γ → α → World → World := fun _ _ w => w
  /-- Reporting its error. -/
  tell : γ → HookError → Eng Unit

namespace Turn

/-- The turn of one callback. -/
def take (t : Turn γ α) (c : γ) : Eng Unit := do
  match t.passes c (← get) with
  | some es => modify (·.noted es)
  | none =>
    match ← t.call c with
    | .ok a => modify (t.keep c a)
    | .error e => t.tell c e

/-- A turn without passing over and without keeping. -/
def plain (t : Turn γ α) (c : γ) : Eng Unit := do
  match ← t.call c with
  | .ok _ => return
  | .error e => t.tell c e

/-- It is the turn of one callback. It is called, unless it is passed over. An error is reported at
once. The call or the report may never come to an end. -/
inductive Takes (t : Turn γ α) (c : γ) (w : World) :
    Option (Except HookError α) → Except Halt Unit → World → Prop
  | passed {es : List LogEntry} (h : t.passes c w = some es) :
      Takes t c w none (.ok ()) (w.noted es)
  | done {a : α} {w₁ : World} (h : t.passes c w = none)
      (hcall : (t.call c).run.run w = (.ok (.ok a), w₁)) :
      Takes t c w (some (.ok a)) (.ok ()) (t.keep c a w₁)
  | failed {e : HookError} {w₁ w' : World} (h : t.passes c w = none)
      (hcall : (t.call c).run.run w = (.ok (.error e), w₁))
      (htell : (t.tell c e).run.run w₁ = (.ok (), w')) : Takes t c w (some (.error e)) (.ok ()) w'
  | endless {w' : World} (h : t.passes c w = none)
      (hcall : (t.call c).run.run w = (.error .outOfFuel, w')) :
      Takes t c w none (.error .outOfFuel) w'
  | endlessReport {e : HookError} {w₁ w' : World} (h : t.passes c w = none)
      (hcall : (t.call c).run.run w = (.ok (.error e), w₁))
      (htell : (t.tell c e).run.run w₁ = (.error .outOfFuel, w')) :
      Takes t c w (some (.error e)) (.error .outOfFuel) w'

/-- The callbacks of a row have their turns one after the other, each in the world that the one
before left. The outcomes are those of the callbacks that were called. -/
inductive Runs (t : Turn γ α) :
    List γ → List (γ × Except HookError α) → World → Except Halt Unit → World → Prop
  | nil (w : World) : Runs t [] [] w (.ok ()) w
  | next {c : γ} {cs : List γ} {out : Option (Except HookError α)}
      {outs : List (γ × Except HookError α)} {w w₁ w' : World} {r : Except Halt Unit}
      (h : t.Takes c w out (.ok ()) w₁) (rest : Runs t cs outs w₁ r w') :
      Runs t (c :: cs) ((out.map (c, ·)).toList ++ outs) w r w'
  | stop {c : γ} {cs : List γ} {out : Option (Except HookError α)} {w w' : World}
      (h : t.Takes c w out (.error .outOfFuel) w') :
      Runs t (c :: cs) (out.map (c, ·)).toList w (.error .outOfFuel) w'

/-- A turn keeps to a relation between worlds. -/
structure Keeps (t : Turn γ α) (R : World → World → Prop) : Prop where
  pass {c : γ} {w : World} {es : List LogEntry} : t.passes c w = some es → R w (w.noted es)
  call (c : γ) : Eng.Within R Halt.Endless (t.call c)
  keep (c : γ) (a : α) (w : World) : R w (t.keep c a w)
  tell (c : γ) (e : HookError) : Eng.Within R Halt.Endless (t.tell c e)

variable {t : Turn γ α} {c : γ} {cs : List γ} {out : Option (Except HookError α)}
  {outs : List (γ × Except HookError α)} [World.Frame R]

end Turn

namespace Eng

variable {rt : Runtime} {run : Runner} {H : Halt → Prop} {vm : InstanceId} {info : String}
  {t : Turn γ α} {c : γ} {code : Eng (Except HookError α)} {g : Option α → Eng Unit}

end Eng

end Componentry
