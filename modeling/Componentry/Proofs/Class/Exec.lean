import Componentry.Class.Resolve
import Componentry.Proofs.Options.Linearize
import Componentry.Proofs.Options.Place

/-!
# Running computations on classes

- `Forging.exec`: what a computation gives on a forest, and what it leaves.
- `Yields`: a property of both, with one rule for each way in which computations are built.
- `Forest.get`: a class by its number.
- `Forest.Quiet`, `Forest.Only`: what a step leaves alone.
-/

namespace Componentry

variable {α β : Type}

/-- What a computation gives on a forest, and the forest it leaves. -/
def Forging.exec (m : Forging α) (f : Forest) : Except Error α × Forest := m.run.run f

theorem Forging.exec_bind (m : Forging α) (g : α → Forging β) (f : Forest) :
    (m >>= g).exec f =
      match m.exec f with
      | (.ok a, f') => (g a).exec f'
      | (.error e, f') => (.error e, f') := by
  show ((m >>= g).run).run f = _
  rw [ExceptT.run_bind, StateT.run_bind, Forging.exec]
  generalize m.run.run f = out
  obtain ⟨r, f'⟩ := out
  cases r <;> rfl

theorem Forging.exec_eq_error {m : Forging α} {f : Forest} (h : (m.exec f).1.isOk = false) :
    ∃ e f', m.exec f = (.error e, f') := by
  generalize m.exec f = out at h
  obtain ⟨r, f'⟩ := out
  cases r with
  | error e => exact ⟨e, f', rfl⟩
  | ok a => cases h

theorem Forging.exec_eq_ok {m : Forging α} {f : Forest} (h : (m.exec f).1.isOk = true) :
    ∃ a f', m.exec f = (.ok a, f') := by
  generalize m.exec f = out at h
  obtain ⟨r, f'⟩ := out
  cases r with
  | error e => cases h
  | ok a => exact ⟨a, f', rfl⟩

/-- Whether a computation on a forest succeeds, and what it gives and leaves passes a test. -/
def Forging.passes (m : Forging α) (f : Forest) (test : α → Forest → Bool) : Bool :=
  match m.exec f with
  | (.ok a, f') => test a f'
  | (.error _, _) => false

theorem Forging.exec_of_passes {m : Forging α} {f : Forest} {test : α → Forest → Bool}
    (h : m.passes f test = true) : ∃ a f', m.exec f = (.ok a, f') ∧ test a f' = true := by
  rw [Forging.passes] at h
  generalize m.exec f = out at h
  obtain ⟨r, f'⟩ := out
  cases r with
  | error e => cases h
  | ok a => exact ⟨a, f', rfl, h⟩

/-- What a computation gives on a forest and what it leaves have the property. -/
def Yields (m : Forging α) (f : Forest) (Q : Except Error α → Forest → Prop) : Prop :=
  Q (m.exec f).1 (m.exec f).2

namespace Yields

variable {m : Forging α} {g : α → Forging β} {f : Forest} {P Q : Except Error α → Forest → Prop}
  {R : Except Error β → Forest → Prop}

theorem pure {a : α} (h : Q (.ok a) f) : Yields (Pure.pure a) f Q := h

theorem throw {e : Error} (h : Q (.error e) f) : Yields (MonadExcept.throw e) f Q := h

theorem imp (hm : Yields m f P) (h : ∀ r f', P r f' → Q r f') : Yields m f Q := h _ _ hm

theorem and (hp : Yields m f P) (hq : Yields m f Q) : Yields m f fun r f' => P r f' ∧ Q r f' :=
  ⟨hp, hq⟩

theorem bind (hm : Yields m f P) (ok : ∀ a f', P (.ok a) f' → Yields (g a) f' R)
    (error : ∀ e f', P (.error e) f' → R (.error e) f') : Yields (m >>= g) f R := by
  rw [Yields] at hm ⊢
  rw [Forging.exec_bind]
  generalize m.exec f = out at hm ⊢
  obtain ⟨r, f'⟩ := out
  cases r with
  | ok a => exact ok a f' hm
  | error e => exact error e f' hm

end Yields

/-! ## Classes of a forest -/

namespace Forest

/-- A class by its number. -/
def get (f : Forest) (c : ClassId) : Class := (f.class? c).getD default

def size (f : Forest) : Nat := f.classes.size

/-- The same classes; only the journal, the supply of marks and the record of made classes may
differ. -/
structure Quiet (f f' : Forest) : Prop where
  classes : f'.classes = f.classes
  nextMark : f.nextMark ≤ f'.nextMark

/-- No class differs but `c`, which is now `k`. -/
structure Only (f f' : Forest) (c : ClassId) (k : Class) : Prop where
  here : f'.get c = k
  there : ∀ b, b ≠ c → f'.get b = f.get b

theorem get_of_size_le {f : Forest} {c : ClassId} (h : f.size ≤ c) : f.get c = default := by
  rw [get, class?, Array.getElem?_eq_none h, Option.getD_none]

namespace Quiet

variable {f f' f'' : Forest}

theorem refl (f : Forest) : Quiet f f := ⟨rfl, Nat.le_refl _⟩

theorem trans (h : Quiet f f') (h' : Quiet f' f'') : Quiet f f'' :=
  ⟨h'.classes.trans h.classes, Nat.le_trans h.nextMark h'.nextMark⟩

theorem get (h : Quiet f f') (c : ClassId) : f'.get c = f.get c := by
  rw [Forest.get, Forest.get, class?, class?, h.classes]

theorem size (h : Quiet f f') : f'.size = f.size := by rw [Forest.size, Forest.size, h.classes]

end Quiet

theorem get_modify (f : Forest) (c b : ClassId) (g : Class → Class) :
    ({ f with classes := f.classes.modify c g } : Forest).get b =
      if b = c ∧ c < f.size then g (f.get c) else f.get b := by
  show ((f.classes.modify c g)[b]?).getD default = _
  rw [Array.getElem?_modify]
  by_cases hb : c = b
  · subst hb
    by_cases hc : c < f.size
    · have hk : f.classes[c]? = some (f.get c) := by
        show _ = some ((f.classes[c]?).getD default)
        rw [Array.getElem?_eq_getElem hc, Option.getD_some]
      rw [if_pos rfl, if_pos ⟨rfl, hc⟩, hk]
      rfl
    · have hk : f.classes[c]? = none := Array.getElem?_eq_none (Nat.le_of_not_lt hc)
      rw [if_pos rfl, if_neg fun h => hc h.2, hk, get, class?, hk]
      rfl
  · rw [if_neg hb, if_neg fun h => hb h.1.symm]
    rfl

theorem get_push (f : Forest) (k : Class) (b : ClassId) :
    ({ f with classes := f.classes.push k } : Forest).get b =
      if b = f.size then k else f.get b := by
  show ((f.classes.push k)[b]?).getD default = _
  rw [Array.getElem?_push]
  by_cases hb : b = f.size
  · rw [if_pos (show b = f.classes.size from hb), if_pos hb]
    rfl
  · rw [if_neg (show ¬b = f.classes.size from hb), if_neg hb]
    rfl

end Forest

/-! ## The parts that computations are built of -/

open Forest

namespace Yields

variable {f : Forest}

theorem getClass (c : ClassId) :
    Yields (Forging.getClass c) f fun r f' => r = .ok (f.get c) ∧ f' = f := ⟨rfl, rfl⟩

/-- Changing a class that is there. -/
theorem modifyClass {c : ClassId} (hc : c < f.size) (g : Class → Class) :
    Yields (Forging.modifyClass c g) f fun r f' =>
      r = .ok () ∧ Only f f' c (g (f.get c)) ∧ f'.size = f.size ∧ f'.nextMark = f.nextMark := by
  refine ⟨rfl, ⟨?_, fun b hb => ?_⟩, Array.size_modify, rfl⟩
  · exact (f.get_modify c c g).trans (if_pos ⟨rfl, hc⟩)
  · exact (f.get_modify c b g).trans (if_neg fun h => hb h.1)

theorem noting (n : Noting α) :
    Yields (Forging.noting n) f fun r f' => (∃ a, r = .ok a) ∧ Quiet f f' ∧
      f'.nextMark = f.nextMark :=
  ⟨⟨_, rfl⟩, ⟨rfl, Nat.le_refl _⟩, rfl⟩

/-- **Merging**: the result does not depend on the forest, and no class changes. -/
theorem merging (cfg : Config) {i : Bool} (parent child : Options) :
    Yields (Forging.merging (Options.merge cfg i parent child)) f fun r f' =>
      r = Options.mergeResult cfg parent child ∧ Quiet f f' ∧ f'.nextMark = f.nextMark := by
  have hg := Options.merge_gives cfg i parent child f.journal
  refine Yields.bind (P := fun r f' => r = .ok (Options.mergeResult cfg parent child) ∧
    Quiet f f' ∧ f'.nextMark = f.nextMark) ?_ ?_ ?_
  · exact ⟨congrArg Except.ok hg, ⟨rfl, Nat.le_refl _⟩, rfl⟩
  · intro a f' ⟨ha, hq⟩
    cases ha
    generalize Options.mergeResult cfg parent child = r
    cases r with
    | ok m => exact Yields.pure ⟨rfl, hq⟩
    | error e => exact Yields.throw ⟨rfl, hq⟩
  · intro e f' ⟨he, _⟩
    cases he

end Yields

/-! ## Storing -/

namespace Yields

variable {f : Forest}

theorem place (o : Options) :
    Yields (Forging.marking o.place) f fun r f' => r = .ok (o.placed f.nextMark) ∧ Quiet f f' ∧
      f'.nextMark = o.markAfter f.nextMark :=
  ⟨rfl, ⟨rfl, (o.placedAs f.nextMark).le⟩, rfl⟩

theorem store (o : Options) :
    Yields (Forging.store o) f fun r f' => r = .ok (o.stored f.nextMark) ∧ Quiet f f' ∧
      f'.nextMark = o.markAfter f.nextMark + 1 :=
  ⟨rfl, ⟨rfl, Nat.le_succ_of_le (o.placedAs f.nextMark).le⟩, rfl⟩

theorem addClass (k : Class) :
    Yields (Forging.addClass k) f fun r f' => r = .ok f.size ∧ Only f f' f.size k ∧
      f'.size = f.size + 1 ∧ f'.nextMark = f.nextMark := by
  refine ⟨rfl, ⟨?_, fun b hb => ?_⟩, Array.size_push .., rfl⟩
  · exact (f.get_push k f.size).trans (if_pos rfl)
  · exact (f.get_push k b).trans (if_neg hb)

end Yields

end Componentry
