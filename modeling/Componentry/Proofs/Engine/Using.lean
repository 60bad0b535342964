import Componentry.Proofs.Engine.Telling

/-!
# Using an instance

Author's code leaves everybody in use as they were. So to do two things in one use of an instance is
to do them in two uses.

- `Eng.setAccess_setAccess`, `Eng.setAccess_of_eq`: using an instance over and over again.
- `Eng.run_withAccess_bind`: **two things done in one use** of an instance.
-/

namespace Componentry

variable {α β : Type} {H : Halt → Prop} {w : World} {vm : InstanceId}

/-- Changing an instance in a way that does not matter to it. -/
theorem modify_eq_self {is : Array Instance} {f : Instance → Instance}
    (h : ∀ i, is[vm]? = some i → f i = i) : is.modify vm f = is := by
  refine Array.ext_getElem? fun b => ?_
  rw [Array.getElem?_modify]
  split
  · next heq =>
    subst heq
    cases hi : is[vm]? with
    | none => rfl
    | some i => exact congrArg some (h i hi)
  · rfl

namespace Eng

/-- An instance that is used as it is already. -/
theorem setAccess_of_eq {a : Access}
    (h : vm < w.instances.size → (w.instances.getD vm default).access = a) :
    setAccess vm a w = w := by
  have hmodify : w.instances.modify vm ({ · with access := a }) = w.instances := by
    refine modify_eq_self fun i hi => ?_
    rw [getD_of_getElem? hi] at h
    rw [← h (Array.getElem?_eq_some_iff.mp hi).1]
  exact congrArg (fun is => { w with instances := is }) hmodify

/-- Of two ways to use an instance the last one counts. -/
theorem setAccess_setAccess (vm : InstanceId) (a b : Access) (w : World) :
    setAccess vm b (setAccess vm a w) = setAccess vm b w := by
  have hmodify : (w.instances.modify vm ({ · with access := a })).modify vm
      ({ · with access := b }) = w.instances.modify vm ({ · with access := b }) := by
    refine Array.ext_getElem? fun b' => ?_
    simp only [Array.getElem?_modify]
    split
    · rw [Option.map_map]
      rfl
    · rfl
  exact congrArg (fun is => { w with instances := is }) hmodify

theorem access_setAccess (hlt : vm < w.instances.size) (a : Access) :
    ((setAccess vm a w).instances.getD vm default).access = a :=
  congrArg Instance.access (getD_modify hlt _)

theorem run_withAccess (vm : InstanceId) (a : Access) (m : Eng α) (w : World) :
    (withAccess vm a m).run.run w = ((m.run.run (setAccess vm a w)).1,
      setAccess vm (w.instances.getD vm default).access (m.run.run (setAccess vm a w)).2) := rfl

/-- Using an instance for nothing. -/
theorem run_withAccess_pure (vm : InstanceId) (a : Access) (x : α) (w : World) :
    (withAccess vm a (pure x)).run.run w = (.ok x, w) := by
  have hback : setAccess vm (w.instances.getD vm default).access (setAccess vm a w) = w := by
    rw [setAccess_setAccess, setAccess_of_eq fun _ => rfl]
  rw [run_withAccess]
  exact Prod.ext rfl hback

/-- **Two things done in one use** of an instance are done in two uses, one after the other. -/
theorem run_withAccess_bind {m : Eng α} (hlt : vm < w.instances.size)
    (hm : Within (World.Same .steady (· = vm)) H m) (a : Access) (g : α → Eng β) :
    (withAccess vm a (m >>= g)).run.run w =
      (withAccess vm a m >>= fun x => withAccess vm a (g x)).run.run w := by
  have hsame := (hm (setAccess vm a w)).1
  rw [ExceptT.run_bind, StateT.run_bind, run_withAccess, run_withAccess, ExceptT.run_bind,
    StateT.run_bind]
  generalize m.run.run (setAccess vm a w) = out at hsame ⊢
  obtain ⟨r, w₁⟩ := out
  cases r with
  | error e => rfl
  | ok x =>
    have hlt' : vm < (setAccess vm a w).instances.size := Array.size_modify.symm ▸ hlt
    have hused : (w₁.instances.getD vm default).access = a :=
      (congrArg Instance.access (hsame.read vm rfl hlt')).trans (access_setAccess hlt a)
    show _ = (withAccess vm a (g x)).run.run (setAccess vm (w.instances.getD vm default).access w₁)
    rw [run_withAccess, setAccess_setAccess, setAccess_of_eq fun _ => hused,
      access_setAccess (Nat.lt_of_lt_of_le hlt' hsame.size)]
    rfl

end Eng

end Componentry
