import Componentry.Proofs.Class.Everywhere

/-!
# Options that were noted

A class notes the options of its super class that it was merged over, and later compares marks only.
That is enough: options are never changed in place, so that two noted options with one mark are one
object with one value.

- `Forest.Snapshot`: options that a class has, or has noted.
- `Forest.Coherent`: **the mark of a snapshot determines it**.
- `Change.coherent`, `Reachable.coherent`: events keep it.
- `Coherent.eq_of_isCurrent`: options that are current are those that were noted.
-/

namespace Componentry

open Forest

variable {cfg : Config} {f f' : Forest} {c s : ClassId} {k : Class} {p q : Placed Options}

/-- Two stored things are one object exactly if they have the same mark. -/
theorem Placed.mark_eq_of_same {α : Type} {a b : Placed α} (h : a.same b = true) :
    a.mark = b.mark := by
  obtain ⟨m, v⟩ := a
  obtain ⟨m', v'⟩ := b
  cases m with
  | none => cases h
  | some m =>
    cases m' with
    | none => cases h
    | some m' => exact congrArg some (eq_of_beq h)

namespace Forest

/-- Options that a class has, or those of its super class that it has noted. -/
def Snapshot (f : Forest) (p : Placed Options) : Prop :=
  ∃ c, c < f.size ∧ (p = (f.get c).options ∨ (f.get c).superOptions = some p)

/-- Snapshots have marks that were given out, and no two have the same. -/
structure Coherent (f : Forest) : Prop where
  marked : ∀ {p}, f.Snapshot p → ∃ m, p.mark = some m ∧ m < f.nextMark
  unique : ∀ {p q}, f.Snapshot p → f.Snapshot q → p.mark = q.mark → p = q

/-- Options that are current are those that the class has noted. -/
theorem Coherent.eq_of_isCurrent (hf : f.Coherent) (hs : s < f.size) (hc : c < f.size)
    {above : Placed Options} (hnoted : (f.get c).superOptions = some above)
    (h : (f.get c).isCurrent (f.get s).options = true) : above = (f.get s).options := by
  rw [Class.isCurrent, hnoted] at h
  exact hf.unique ⟨c, hc, .inr hnoted⟩ ⟨s, hs, .inl rfl⟩ (Placed.mark_eq_of_same h)

/-- A snapshot after one class was changed or added is an old one, or one of that class. -/
theorem Snapshot.only (ho : Only f f' c k) (hnew : ∀ b, b < f'.size → b < f.size ∨ b = c)
    (h : f'.Snapshot q) : f.Snapshot q ∨ q = k.options ∨ k.superOptions = some q := by
  obtain ⟨b, hb, hq⟩ := h
  by_cases hbc : b = c
  · subst hbc
    rw [ho.here] at hq
    exact .inr hq
  · rw [ho.there b hbc] at hq
    exact .inl ⟨b, (hnew b hb).resolve_right hbc, hq⟩

/-- No new snapshot, and no mark taken back. -/
theorem Coherent.keep (hf : f.Coherent) (hn : f.nextMark ≤ f'.nextMark)
    (h : ∀ q, f'.Snapshot q → f.Snapshot q) : f'.Coherent where
  marked hq := by
    obtain ⟨m, hm, hlt⟩ := hf.marked (h _ hq)
    exact ⟨m, hm, Nat.lt_of_lt_of_le hlt hn⟩
  unique hp hq := hf.unique (h _ hp) (h _ hq)

/-- One new snapshot, with a mark that was not given out before. -/
theorem Coherent.grow (hf : f.Coherent) {n : Nat} (hle : f.nextMark ≤ n)
    (hp : p.mark = some n ∧ f'.nextMark = n + 1)
    (h : ∀ q, f'.Snapshot q → f.Snapshot q ∨ q = p) : f'.Coherent := by
  obtain ⟨hpn, hnext⟩ := hp
  -- an old snapshot does not have the new mark
  have old : ∀ {q : Placed Options}, f.Snapshot q → q.mark ≠ p.mark := fun hq heq => by
    obtain ⟨m, hm, hlt⟩ := hf.marked hq
    rw [hm, hpn] at heq
    obtain rfl : m = n := Option.some.inj heq
    exact Nat.not_lt.mpr hle hlt
  refine ⟨fun {q} hq => ?_, fun {q q'} hq hq' heq => ?_⟩
  · rcases h q hq with hq | rfl
    · obtain ⟨m, hm, hlt⟩ := hf.marked hq
      exact ⟨m, hm, by rw [hnext]; exact Nat.lt_succ_of_lt (Nat.lt_of_lt_of_le hlt hle)⟩
    · exact ⟨n, hpn, by rw [hnext]; exact Nat.lt_succ_self n⟩
  · rcases h q hq with hq | rfl
    · rcases h q' hq' with hq' | rfl
      · exact hf.unique hq hq' heq
      · exact absurd heq (old hq)
    · rcases h q' hq' with hq' | rfl
      · exact absurd heq.symm (old hq')
      · rfl

end Forest

theorem Options.stored_grows {o : Options} {n n' : Nat} (hp : p = o.stored n)
    (hn : ∃ m, p.mark = some m ∧ n' = m + 1) :
    n ≤ o.markAfter n ∧ p.mark = some (o.markAfter n) ∧ n' = o.markAfter n + 1 := by
  refine ⟨(o.placedAs n).le, ?_, (Options.lt_of_stored hp hn).1⟩
  rw [hp]
  rfl

/-- **Events keep** a forest coherent. -/
theorem Change.coherent {ev : Event} (h : Change cfg f f' ev) (hg : f.Grounded)
    (hf : f.Coherent) : f'.Coherent := by
  -- the classes that there are once one was added, or was changed
  have added : ∀ b, f'.size = f.size + 1 → b < f'.size → b < f.size ∨ b = f.size := by
    intro b hs hb
    rw [hs] at hb
    exact Nat.lt_succ_iff_lt_or_eq.mp hb
  have same : ∀ c b : ClassId, f'.size = f.size → b < f'.size → b < f.size ∨ b = c :=
    fun c b hs hb => .inl (hs ▸ hb)
  cases h with
  | aside hq =>
    refine hf.keep hq.nextMark fun q ⟨b, hb, h⟩ => ⟨b, hq.size ▸ hb, ?_⟩
    rw [hq.get] at h
    exact h
  | founded hp ho hs hn =>
    obtain ⟨hle, hmark⟩ := Options.stored_grows hp hn
    refine hf.grow hle hmark fun q hq => ?_
    rcases hq.only ho fun b => added b hs with hq | hq | hq
    · exact .inl hq
    · exact .inr hq
    · cases hq
  | @made s d m p hlt hu hm hp ho hs hn =>
    obtain ⟨hle, hmark⟩ := Options.stored_grows hp hn
    refine hf.grow (Nat.le_trans (d.placedAs f.nextMark).le hle) hmark fun q hq => ?_
    rcases hq.only ho fun b => added b hs with hq | hq | hq
    · exact .inl hq
    · exact .inr hq
    -- what the class notes is what its super class has
    · exact .inl ⟨s, hlt, .inl (Option.some.inj hq).symm⟩
  | @revised c r o n p hc hr hp ho hs hn =>
    obtain ⟨hle, hmark⟩ := Options.stored_grows hp hn
    refine hf.grow (Nat.le_trans hr.le hle) hmark fun q hq => ?_
    rcases hq.only ho fun b => same c b hs with hq | hq | hq
    · exact .inl hq
    · exact .inr hq
    · exact .inl ⟨c, hc, .inr hq⟩
  | @remerged c s m p hk hu hcur hm hp ho hs hn =>
    obtain ⟨hle, hmark⟩ := Options.stored_grows hp hn
    refine hf.grow hle hmark fun q hq => ?_
    rcases hq.only ho fun b => same c b hs with hq | hq | hq
    · exact .inl hq
    · exact .inr hq
    · have hlt := Nat.lt_trans (hg.super_lt hk) (lt_size_of_super hk)
      exact .inl ⟨s, hlt, .inl (Option.some.inj hq).symm⟩
  | @spoiled c s e hk hu hcur hm ho hs hn =>
    -- nothing was stored
    refine hf.keep (Nat.le_of_eq hn.symm) fun q hq => ?_
    rcases hq.only ho fun b => same c b hs with hq | hq | hq
    · exact hq
    · exact ⟨c, lt_size_of_super hk, .inl hq⟩
    · have hlt := Nat.lt_trans (hg.super_lt hk) (lt_size_of_super hk)
      exact ⟨s, hlt, .inl (Option.some.inj hq).symm⟩

theorem Steps.coherent {evs : List Event} (h : Steps cfg evs f f') (hg : f.Grounded)
    (hf : f.Coherent) : f'.Coherent := by
  induction h with
  | nil f => exact hf
  | cons hc _ ih => exact ih (hc.grounded hg) (hc.coherent hg hf)

theorem History.start_coherent (cfg : Config) : (History.start cfg).forest.Coherent := by
  have hget : (History.start cfg).forest.get 0 =
      { options := ({ defaultOptions with merged := true } : Options).stored 0
        sealed := ({ defaultOptions with merged := true } : Options).stored 0 } := rfl
  have hsnap : ∀ {q}, (History.start cfg).forest.Snapshot q →
      q = ({ defaultOptions with merged := true } : Options).stored 0 := by
    rintro q ⟨b, hb, hq⟩
    cases Nat.lt_one_iff.mp hb
    rw [hget] at hq
    rcases hq with hq | hq
    · exact hq
    · cases hq
  refine ⟨fun hq => ?_, fun hp hq _ => (hsnap hp).trans (hsnap hq).symm⟩
  rw [hsnap hq]
  exact ⟨_, rfl, Nat.lt_succ_self _⟩

theorem Reachable.coherent {h : History} (hr : Reachable cfg h) : h.forest.Coherent := by
  induction hr with
  | refl => exact History.start_coherent cfg
  | step hr hfit _ ih =>
    have hg := Reachable.grounded hr
    obtain ⟨evs, hsteps, -⟩ := History.step_events cfg hg hfit
    exact hsteps.coherent hg ih

end Componentry
