import Componentry.Proofs.Class.Change

/-!
# Resolving as events

Resolving a class goes up to the root and down again. On the way down every class that is out of
date is merged again; where that fails, resolving stops, and what was merged before stays merged.

- `Classes.remerge_yields`, `Classes.refresh_yields`: one class.
- `Classes.resolve_yields`: **resolving** brings a line up to date, or fails on the way.
- `Classes.resolve_in_turn`: the class itself comes last.
- `Steps.get_of_onLine`: classes after the resolved one are left alone.
-/

namespace Componentry

open Forest

variable {cfg : Config} {f : Forest} {c s : ClassId}

/-! ## Resolving -/

/-- An event that resolving a class may bring: a class on its line is merged again, or fails to. -/
def Event.OnLine (c : ClassId) : Event → Prop
  | .remerged d => d ≤ c
  | .spoiled d => d ≤ c
  | _ => False

/-- What holds of every merge holds of an event on a line. -/
theorem Event.OnLine.elim {P : Event → Prop} {ev : Event} (h : ev.OnLine c)
    (remerged : ∀ d, P (.remerged d)) (spoiled : ∀ d, P (.spoiled d)) : P ev := by
  cases ev with
  | remerged d => exact remerged d
  | spoiled d => exact spoiled d
  | aside => cases h
  | founded o => cases h
  | made s d => cases h
  | revised c r => cases h

theorem Event.OnLine.ne_revised {ev : Event} (h : ev.OnLine s) (r : Revision) :
    ev ≠ .revised c r := by
  rintro rfl
  cases h

/-- What `resolve` gives: the options of the class, whose line then is up to date. -/
def Resolved (cfg : Config) (f : Forest) (c : ClassId) (r : Except Error (Placed Options))
    (f' : Forest) : Prop :=
  (∃ evs, Steps cfg evs f f' ∧ ∀ ev ∈ evs, ev.OnLine c) ∧
    ∀ o, r = .ok o → o = (f'.get c).options ∧ f'.UpToDate c

theorem Class.isCurrent_self {k : Class} {above : Placed Options} (hk : k.superOptions = some above)
    (hm : above.mark.isSome) : k.isCurrent above = true := by
  rw [Class.isCurrent, hk]
  obtain ⟨m, hm⟩ := Option.isSome_iff_exists.mp hm
  simp [Placed.same, hm]

/-- Merging a class again. It changes the class even when the merge fails. -/
theorem Classes.remerge_yields (hk : (f.get c).superClass = some s) (hu : f.UpToDate s)
    (hcur : (f.get c).isCurrent (f.get s).options = false) :
    Yields (Classes.remerge cfg c (f.get s).options) f fun r f' =>
      (∀ o, r = .ok o → Change cfg f f' (.remerged c) ∧ o = (f'.get c).options) ∧
        ∀ e, r = .error e → Change cfg f f' (.spoiled c) ∧
          Options.mergeResult cfg (f.get s).options.value (f.get c).carried = .error e := by
  have hlt := lt_size_of_super hk
  refine Yields.bind (Yields.modifyClass hlt _) ?_ (fun e f₁ h => by cases h.1)
  rintro ⟨⟩ f₁ ⟨-, ho₁, hs₁, hn₁⟩
  refine Yields.bind (Yields.getClass c) ?_ (fun e f₂ h => by cases h.1)
  rintro k f₁' ⟨hk', rfl⟩
  cases hk'
  rw [ho₁.here]
  refine Yields.bind (Yields.merging cfg _ _) ?_ ?_
  · rintro m f₂ ⟨hm, hq₂, hn₂⟩
    refine Yields.bind (Yields.store _) ?_ (fun e f₃ h => by cases h.1)
    rintro p f₃ ⟨hp, hq₃, hn₃⟩
    cases hp
    have hs₃ : f₃.size = f.size := hq₃.size.trans (hq₂.size.trans hs₁)
    refine Yields.bind (Yields.modifyClass (hs₃.symm ▸ hlt) _) ?_ (fun e f₄ h => by cases h.1)
    rintro ⟨⟩ f₄ ⟨-, ho₄, hs₄, hn₄⟩
    rw [hn₂, hn₁] at hn₃ ho₄ ⊢
    have ho₃ := (ho₁.then_quiet hq₂).then_quiet hq₃
    rw [ho₃.here] at ho₄
    have ho : Only f f₄ c ((f.get c).remerged (f.get s).options
        ((m.withSelf m.name c).stored f.nextMark)) :=
      ⟨ho₄.here, fun b hb => (ho₄.there b hb).trans (ho₃.there b hb)⟩
    refine Yields.pure ⟨fun o h => ?_, fun e h => by cases h⟩
    cases h
    refine ⟨.remerged hk hu hcur hm.symm rfl ho (hs₄.trans hs₃) ⟨_, rfl, hn₄.trans hn₃⟩, ?_⟩
    rw [ho.here]
    rfl
  · rintro e f₂ ⟨hm, hq₂, hn₂⟩
    refine ⟨fun o h => (by cases h), fun e' he => ⟨?_, by cases he; exact hm.symm⟩⟩
    exact .spoiled hk hu hcur hm.symm (ho₁.then_quiet hq₂) (hq₂.size.trans hs₁) (hn₂.trans hn₁)

/-- A class whose super class is up to date. -/
theorem Classes.refresh_yields (hf : f.Grounded) (hk : (f.get c).superClass = some s)
    (hu : f.UpToDate s) :
    Yields (Classes.refresh cfg (f.get s).options c) f (Resolved cfg f c) := by
  have hsc := hf.super_lt hk
  have hlt := lt_size_of_super hk
  refine Yields.bind (Yields.getClass c) ?_ (fun e f₁ h => by cases h.1)
  rintro k f₁ ⟨hk', rfl⟩
  cases hk'
  cases hcur : (f₁.get c).isCurrent (f₁.get s).options with
  | true =>
    refine Yields.pure ⟨⟨[], .nil _, fun ev hev => by cases hev⟩, fun o h => ?_⟩
    cases h
    exact ⟨rfl, .under hk hu hcur⟩
  | false =>
    refine (Classes.remerge_yields hk hu hcur).imp fun r f₂ ⟨hok, herr⟩ => ?_
    cases r with
    | error e => exact ⟨⟨_, .single (herr e rfl).1, by simp [Event.OnLine]⟩, fun o h => by cases h⟩
    | ok o =>
      obtain ⟨hc, ho⟩ := hok o rfl
      refine ⟨⟨_, .single hc, by simp [Event.OnLine]⟩, fun o' h => ?_⟩
      cases h
      refine ⟨ho, ?_⟩
      cases hc with
      | @remerged _ s' m p hk' _ _ _ _ honly =>
        cases hk.symm.trans hk'
        have hsame : ∀ b, b ≤ s → f₂.get b = f₁.get b := fun b hb =>
          honly.there b (Nat.ne_of_lt (Nat.lt_of_le_of_lt hb hsc))
        refine .under (s := s) ?_ (hu.frame hf hsame) ?_
        · rw [honly.here]
          exact hk
        · rw [honly.here, hsame s (Nat.le_refl s)]
          exact Class.isCurrent_self rfl (hf.marked (Nat.lt_trans hsc hlt))

theorem Event.OnLine.mono {ev : Event} (h : ev.OnLine s) (hs : s ≤ c) : ev.OnLine c := by
  cases ev with
  | remerged d => exact Nat.le_trans h hs
  | spoiled d => exact Nat.le_trans h hs
  | aside => exact h
  | founded o => exact h
  | made s d => exact h
  | revised c r => exact h

/-- Events on the line of a class leave the classes after it alone. -/
theorem Steps.get_of_onLine {evs : List Event} {f' : Forest} (h : Steps cfg evs f f')
    (hl : ∀ ev ∈ evs, ev.OnLine s) {b : ClassId} (hb : s < b) : f'.get b = f.get b := by
  induction h with
  | nil f => rfl
  | cons hc _ ih =>
    rw [ih fun ev hev => hl ev (List.mem_cons_of_mem _ hev)]
    have hev := hl _ List.mem_cons_self
    cases hc with
    | remerged _ _ _ _ _ ho => exact ho.there b (Nat.ne_of_gt (Nat.lt_of_le_of_lt hev hb))
    | spoiled _ _ _ _ ho => exact ho.there b (Nat.ne_of_gt (Nat.lt_of_le_of_lt hev hb))
    | aside => cases hev
    | founded => cases hev
    | made => cases hev
    | revised => cases hev

theorem Steps.size_of_onLine {evs : List Event} {f' : Forest} (h : Steps cfg evs f f')
    (hl : ∀ ev ∈ evs, ev.OnLine s) : f'.size = f.size := by
  induction h with
  | nil f => rfl
  | cons hc _ ih =>
    rw [ih fun ev hev => hl ev (List.mem_cons_of_mem _ hev)]
    have hev := hl _ List.mem_cons_self
    cases hc with
    | remerged _ _ _ _ _ _ hs => exact hs
    | spoiled _ _ _ _ _ hs => exact hs
    | aside => cases hev
    | founded => cases hev
    | made => cases hev
    | revised => cases hev

theorem Classes.resolveWithin_yields (cfg : Config) (hf : f.Grounded) (left : Nat) (c : ClassId) :
    Yields (Classes.resolveWithin cfg left c) f (Resolved cfg f c) := by
  induction left generalizing c with
  | zero => exact Yields.throw ⟨⟨[], .nil _, fun ev hev => by cases hev⟩, fun o h => by cases h⟩
  | succ left ih =>
    refine Yields.bind (Yields.getClass c) ?_ (fun e f₁ h => by cases h.1)
    rintro k f₁ ⟨hk, rfl⟩
    cases hk
    split
    · rename_i hc
      refine Yields.pure ⟨⟨[], .nil _, fun ev hev => by cases hev⟩, fun o h => ?_⟩
      cases h
      exact ⟨rfl, .root hc⟩
    · rename_i s hc
      have hsc := hf.super_lt hc
      refine Yields.bind (ih s) ?_ ?_
      · rintro above f₂ ⟨⟨evs, hsteps, hevs⟩, hok⟩
        obtain ⟨rfl, hu⟩ := hok above rfl
        have hc₂ : (f₂.get c).superClass = some s := by
          rw [hsteps.get_of_onLine hevs hsc]
          exact hc
        refine (Classes.refresh_yields (hsteps.grounded hf) hc₂ hu).imp fun r f₃ h => ?_
        obtain ⟨⟨evs', hsteps', hevs'⟩, hr⟩ := h
        refine ⟨⟨evs ++ evs', hsteps.append hsteps', fun ev hev => ?_⟩, hr⟩
        rcases List.mem_append.mp hev with hev | hev
        · exact (hevs ev hev).mono (Nat.le_of_lt hsc)
        · exact hevs' ev hev
      · rintro e f₂ ⟨⟨evs, hsteps, hevs⟩, -⟩
        refine ⟨⟨evs, hsteps, fun ev hev => ?_⟩, fun o h => by cases h⟩
        exact (hevs ev hev).mono (Nat.le_of_lt hsc)

/-- **Resolving**: classes on the line are merged again, and the result is what the class has
then. -/
theorem Classes.resolve_yields (cfg : Config) (hf : f.Grounded) (c : ClassId) :
    Yields (Classes.resolve cfg c) f (Resolved cfg f c) :=
  Classes.resolveWithin_yields cfg hf _ c

/-- The class itself comes last: it is as it was, or is merged again when the rest of its line is
up to date. -/
theorem Classes.resolve_in_turn (cfg : Config) (hf : f.Grounded) (c : ClassId) :
    Yields (Classes.resolve cfg c) f fun r f' => ∀ o, r = .ok o →
      f'.get c = f.get c ∧ o = (f.get c).options ∨
        ∃ g evs, Steps cfg evs f g ∧ (∀ ev ∈ evs, ev.OnLine c) ∧ g.get c = f.get c ∧
          Change cfg g f' (.remerged c) ∧ o = (f'.get c).options := by
  refine Yields.bind (Yields.getClass c) ?_ (fun e f₁ h => by cases h.1)
  rintro k f₁ ⟨hk, rfl⟩
  cases hk
  split
  · refine Yields.pure fun o h => ?_
    cases h
    exact .inl ⟨rfl, rfl⟩
  · rename_i s hc
    have hsc := hf.super_lt hc
    refine Yields.bind (Classes.resolveWithin_yields cfg hf _ s) ?_ ?_
    · rintro above g ⟨⟨evs, hsteps, hevs⟩, hok⟩
      obtain ⟨rfl, hu⟩ := hok above rfl
      have hget : g.get c = f₁.get c := hsteps.get_of_onLine hevs hsc
      refine Yields.bind (Yields.getClass c) ?_ (fun e f₂ h => by cases h.1)
      rintro k g' ⟨hk, rfl⟩
      cases hk
      cases hcur : (g'.get c).isCurrent (g'.get s).options with
      | true =>
        refine Yields.pure fun o h => ?_
        cases h
        exact .inl ⟨hget, congrArg Class.options hget⟩
      | false =>
        refine (Classes.remerge_yields (hget ▸ hc) hu hcur).imp fun r f₂ h o hr => ?_
        obtain ⟨hchange, ho⟩ := h.1 o hr
        have hevs' : ∀ ev ∈ evs, ev.OnLine c := fun ev hev =>
          (hevs ev hev).mono (Nat.le_of_lt hsc)
        exact .inr ⟨g', evs, hsteps, hevs', hget, hchange, ho⟩
    · rintro e g - o h
      cases h

theorem Classes.resolve_last (cfg : Config) (hf : f.Grounded) (c : ClassId) :
    Yields (Classes.resolve cfg c) f fun r f' => ∀ o, r = .ok o →
      f'.get c = f.get c ∧ o = (f.get c).options ∨
        ∃ g, g.get c = f.get c ∧ Change cfg g f' (.remerged c) ∧ o = (f'.get c).options :=
  (Classes.resolve_in_turn cfg hf c).imp fun _ _ h o ho =>
    (h o ho).imp id fun ⟨g, _, _, _, hlast⟩ => ⟨g, hlast⟩

end Componentry
