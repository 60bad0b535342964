import Componentry.Proofs.Class.Operation

/-!
# Resolving again after a failure

When merging a class again fails, the class has already noted the options of its super class that
it was to be merged over, and keeps the options that it had. The next time it is taken to be up to
date. So a failure is repeated only where another class, further down, fails as well.

- `Forest.TooDeep`: a line that resolving does not follow.
- `FailedAt`: what is left of a class whose merge failed.
- `resolve_after_failure`: **what resolving gives the second time**.
- `failure_then_stale_options`: a failure that the second time is none.
-/

namespace Componentry

open Forest

variable {cfg : Config} {f : Forest} {c d s : ClassId}

namespace Forest

/-- A class has at least as many super classes above it. -/
def HasAbove (f : Forest) : Nat → ClassId → Prop
  | 0, _ => True
  | n + 1, c => ∃ s, (f.get c).superClass = some s ∧ HasAbove f n s

/-- A class with more super classes than resolving follows. -/
def TooDeep (f : Forest) (c : ClassId) : Prop := f.HasAbove (Classes.inheritanceLimit + 1) c

/-- The classes on a line from just under `d` down to another class. -/
inductive Below (f : Forest) (d : ClassId) : List ClassId → ClassId → Prop where
  | here : Below f d [] d
  | under {cs : List ClassId} {s c : ClassId} (h : Below f d cs s)
      (hc : (f.get c).superClass = some s) : Below f d (cs ++ [c]) c

theorem HasAbove.congr {f' : Forest} (h : ∀ b, (f'.get b).superClass = (f.get b).superClass)
    (n : Nat) (c : ClassId) : f'.HasAbove n c ↔ f.HasAbove n c := by
  induction n generalizing c with
  | zero => exact Iff.rfl
  | succ n ih => simp only [HasAbove, h, ih]

theorem Below.congr {f' : Forest} (h : ∀ b, (f'.get b).superClass = (f.get b).superClass)
    {cs : List ClassId} (hb : f.Below d cs c) : f'.Below d cs c := by
  induction hb with
  | here => exact .here
  | under _ hc ih => exact .under ih ((h _).trans hc)

end Forest

/-! ## Lines that are too deep, or up to date -/

theorem Classes.resolveWithin_exec (n : Nat) (c : ClassId) (f : Forest) :
    (Classes.resolveWithin cfg (n + 1) c).exec f =
      match (f.get c).superClass with
      | none => (.ok (f.get c).options, f)
      | some s => (Classes.resolveWithin cfg n s >>= (Classes.refresh cfg · c)).exec f := by
  rw [Classes.resolveWithin, Forging.exec_bind]
  show Forging.exec (match (f.get c).superClass with
    | none => _
    | some s => _) f = _
  cases (f.get c).superClass <;> rfl

theorem Classes.refresh_of_current {above : Placed Options} (h : (f.get c).isCurrent above = true) :
    (Classes.refresh cfg above c).exec f = (.ok (f.get c).options, f) := by
  rw [Classes.refresh, Forging.exec_bind]
  show Forging.exec (if (f.get c).isCurrent above then _ else _) f = _
  rw [if_pos h]
  rfl

/-- A line that is too deep is an error, and nothing else happens. -/
theorem Classes.resolveWithin_of_hasAbove (cfg : Config) {n : Nat} (h : f.HasAbove n c) :
    (Classes.resolveWithin cfg n c).exec f =
      (.error (.inheritanceTooDeep Classes.inheritanceLimit), f) := by
  induction n generalizing c with
  | zero => rfl
  | succ n ih =>
    obtain ⟨s, hs, hn⟩ := h
    rw [Classes.resolveWithin_exec, hs]
    show (Classes.resolveWithin cfg n s >>= _).exec f = _
    rw [Forging.exec_bind, ih hn]

theorem Classes.resolveWithin_upToDate {n : Nat} (hu : f.UpToDate c) (hn : ¬f.HasAbove n c) :
    (Classes.resolveWithin cfg n c).exec f = (.ok (f.get c).options, f) := by
  induction n generalizing c with
  | zero => exact absurd trivial hn
  | succ n ih =>
    rw [Classes.resolveWithin_exec]
    cases hu with
    | root hc => rw [hc]
    | @under _ s hc hs hcur =>
      rw [hc]
      show (Classes.resolveWithin cfg n s >>= _).exec f = _
      rw [Forging.exec_bind, ih hs fun h => hn ⟨s, hc, h⟩]
      exact Classes.refresh_of_current hcur

/-- From a class whose line is up to date, resolving goes on with the classes below it. -/
theorem Classes.resolveWithin_below (cfg : Config) {n : Nat} {cs : List ClassId} (hu : f.UpToDate d)
    (hb : f.Below d cs c) (hn : ¬f.HasAbove n c) :
    (Classes.resolveWithin cfg n c).exec f =
      (cs.foldlM (fun above b => Classes.refresh cfg above b) (f.get d).options).exec f := by
  induction hb generalizing n with
  | here => exact Classes.resolveWithin_upToDate hu hn
  | @under cs s c _ hc ih =>
    cases n with
    | zero => exact absurd trivial hn
    | succ n =>
      rw [Classes.resolveWithin_exec, hc, List.foldlM_append]
      show (Classes.resolveWithin cfg n s >>= _).exec f = _
      rw [Forging.exec_bind, Forging.exec_bind, ih fun h => hn ⟨s, hc, h⟩]
      simp only [List.foldlM_cons, List.foldlM_nil, bind_pure]

/-! ## What a failure leaves -/

/-- Resolving failed at `d`, a class under `s`: everything above is up to date, `d` has noted the
options of `s` and taken up its edits, but has the options that it had, and nothing below `d` was
looked at. -/
structure FailedAt (cfg : Config) (f f' : Forest) (e : Error) (d s : ClassId) : Prop where
  super : (f.get d).superClass = some s
  upToDate : f'.UpToDate s
  noted : (f'.get d).superOptions = some (f'.get s).options
  taken : (f'.get d).definition = (f.get d).carried
  kept : (f'.get d).options = (f.get d).options
  fails : Options.mergeResult cfg (f'.get s).options.value (f.get d).carried = .error e
  supers : ∀ b, (f'.get b).superClass = (f.get b).superClass
  below : ∀ b, d < b → f'.get b = f.get b

theorem Steps.superClass_eq {evs : List Event} {f' : Forest} (h : Steps cfg evs f f')
    (hl : ∀ ev ∈ evs, ev.OnLine s) (b : ClassId) :
    (f'.get b).superClass = (f.get b).superClass := by
  induction h with
  | nil f => rfl
  | @cons ev evs f g f' hc _ ih =>
    rw [ih fun ev hev => hl ev (List.mem_cons_of_mem _ hev)]
    have hev := hl _ List.mem_cons_self
    cases hc with
    | remerged _ _ _ _ _ ho => exact ho.superClass_eq rfl b
    | spoiled _ _ _ _ ho => exact ho.superClass_eq rfl b
    | aside => cases hev
    | founded => cases hev
    | made => cases hev
    | revised => cases hev

/-- Merging a class again fails at this class. -/
theorem Classes.refresh_failure (hf : f.Grounded) (hc : (f.get c).superClass = some s)
    (hu : f.UpToDate s) :
    Yields (Classes.refresh cfg (f.get s).options c) f fun r f' => ∀ e, r = .error e →
      FailedAt cfg f f' e c s := by
  have hsc := hf.super_lt hc
  refine Yields.bind (Yields.getClass c) ?_ (fun e f₁ h => by cases h.1)
  rintro k f₁ ⟨hk, rfl⟩
  cases hk
  cases hcur : (f₁.get c).isCurrent (f₁.get s).options with
  | true => exact Yields.pure fun e he => by cases he
  | false =>
    refine (Classes.remerge_yields hc hu hcur).imp fun r f₂ ⟨_, herr⟩ e he => ?_
    obtain ⟨hchange, hfails⟩ := herr e he
    cases hchange with
    | @spoiled _ s' _ hs' _ _ _ ho hs hn =>
      cases hc.symm.trans hs'
      have hsame : ∀ b, b ≤ s → f₂.get b = f₁.get b := fun b hb =>
        ho.there b (Nat.ne_of_lt (Nat.lt_of_le_of_lt hb hsc))
      have hsuper : f₂.get s = f₁.get s := hsame s (Nat.le_refl s)
      -- noted, taken, kept and fails; the rest says that no other class was changed
      refine ⟨hc, hu.frame hf hsame, ?_, ?_, ?_, ?_, ho.superClass_eq rfl, fun b hb => ?_⟩
      · rw [ho.here, hsuper]
        rfl
      · rw [ho.here]
        rfl
      · rw [ho.here]
        rfl
      · rw [hsuper]
        exact hfails
      · exact ho.there b (Nat.ne_of_gt hb)

/-- What is known of a failure does not depend on what happened before on the line. -/
theorem FailedAt.of_steps {g f' : Forest} {evs : List Event} {e : Error}
    (h : FailedAt cfg g f' e c s) (hsteps : Steps cfg evs f g) (hevs : ∀ ev ∈ evs, ev.OnLine s)
    (hsc : s < c) : FailedAt cfg f f' e c s := by
  have hget : ∀ b, s < b → g.get b = f.get b := fun b hb => hsteps.get_of_onLine hevs hb
  have hc := hget c hsc
  refine ⟨?_, h.upToDate, h.noted, ?_, ?_, ?_, fun b => ?_, fun b hb => ?_⟩
  · rw [← hc]
    exact h.super
  · rw [← hc]
    exact h.taken
  · rw [← hc]
    exact h.kept
  · rw [← hc]
    exact h.fails
  · rw [h.supers b, hsteps.superClass_eq hevs b]
  · rw [h.below b hb, hget b (Nat.lt_trans hsc hb)]

/-- **A failure**: the line is too deep, or merging one of its classes again failed. -/
theorem Classes.resolveWithin_failure (cfg : Config) (hf : f.Grounded) (n : Nat) (c : ClassId) :
    Yields (Classes.resolveWithin cfg n c) f fun r f' => ∀ e, r = .error e →
      f.HasAbove n c ∧ f' = f ∨
        ¬f.HasAbove n c ∧ ∃ d s cs, f.Below d cs c ∧ FailedAt cfg f f' e d s := by
  by_cases hn : f.HasAbove n c
  · rw [Yields, Classes.resolveWithin_of_hasAbove cfg hn]
    exact fun e _ => .inl ⟨hn, rfl⟩
  induction n generalizing c with
  | zero => exact absurd trivial hn
  | succ n ih =>
    cases hc : (f.get c).superClass with
    | none =>
      rw [Yields, Classes.resolveWithin_exec, hc]
      exact fun e he => by cases he
    | some s =>
      have hsc := hf.super_lt hc
      have hn' : ¬f.HasAbove n s := fun h => hn ⟨s, hc, h⟩
      rw [Yields, Classes.resolveWithin_exec, hc]
      show Yields (Classes.resolveWithin cfg n s >>= fun above => Classes.refresh cfg above c) f
        fun r f' => ∀ e, r = .error e → f.HasAbove (n + 1) c ∧ f' = f ∨
          ¬f.HasAbove (n + 1) c ∧ ∃ d s cs, f.Below d cs c ∧ FailedAt cfg f f' e d s
      -- either the super class was resolved and this class fails, or the failure was further up
      refine Yields.bind ((ih s hn').and (Classes.resolveWithin_yields cfg hf n s)) ?_ ?_
      · rintro above f₁ ⟨-, ⟨evs, hsteps, hevs⟩, hok⟩
        obtain ⟨rfl, hu⟩ := hok above rfl
        have hc₁ : (f₁.get c).superClass = some s := by
          rw [hsteps.get_of_onLine hevs hsc]
          exact hc
        refine (Classes.refresh_failure (hsteps.grounded hf) hc₁ hu).imp fun r f₂ h e he => ?_
        exact .inr ⟨hn, c, s, [], .here, (h e he).of_steps hsteps hevs hsc⟩
      · rintro e f₁ ⟨hfail, -⟩ e' he
        cases he
        rcases hfail e rfl with ⟨h, -⟩ | ⟨-, d, s', cs, hb, hfa⟩
        · exact absurd h hn'
        · exact .inr ⟨hn, d, s', cs ++ [c], .under hb hc, hfa⟩

/-! ## The second time -/

/-- **Resolving once more after a failure**, with nothing done in between. A line that is too deep
fails the same way. Otherwise the class `d` at which it failed now counts as up to date, with the
options that it had before; the second time is what becomes of the classes below it, and if there
are none it is those options. -/
theorem resolve_after_failure {h : History} (hr : Reachable cfg h) {e : Error} {f' : Forest}
    (hfail : (Classes.resolve cfg c).exec h.forest = (.error e, f')) :
    h.forest.TooDeep c ∧ (Classes.resolve cfg c).exec f' = (.error e, f') ∨
      ¬h.forest.TooDeep c ∧ ∃ d s cs, h.forest.Below d cs c ∧ FailedAt cfg h.forest f' e d s ∧
        (Classes.resolve cfg c).exec f' =
          (cs.foldlM (fun above b => Classes.refresh cfg above b)
            (h.forest.get d).options).exec f' ∧
        (d = c → (Classes.resolve cfg c).exec f' = (.ok (h.forest.get c).options, f')) := by
  have hfailure := Classes.resolveWithin_failure cfg hr.grounded
    (Classes.inheritanceLimit + 1) c
  rw [Yields, show Classes.resolveWithin cfg (Classes.inheritanceLimit + 1) c =
    Classes.resolve cfg c from rfl, hfail] at hfailure
  rcases hfailure e rfl with ⟨hdeep, hf'⟩ | ⟨hdeep, d, s, cs, hb, hfa⟩
  · refine .inl ⟨hdeep, ?_⟩
    obtain rfl : f' = h.forest := hf'
    exact hfail
  · have hsteps := (Classes.resolve_yields cfg hr.grounded c).1
    rw [hfail] at hsteps
    obtain ⟨evs, hsteps, -⟩ := hsteps
    have hf' : f'.Grounded := hsteps.grounded hr.grounded
    have hd : (f'.get d).superClass = some s := (hfa.supers d).trans hfa.super
    have hmark : (f'.get s).options.mark.isSome :=
      hf'.marked (Nat.lt_trans (hf'.super_lt hd) (lt_size_of_super hd))
    -- the class notes the very options that it failed to be merged over
    have hu : f'.UpToDate d := .under hd hfa.upToDate
      (Class.isCurrent_self hfa.noted hmark)
    have hdeep' : ¬f'.HasAbove (Classes.inheritanceLimit + 1) c := fun h =>
      hdeep ((HasAbove.congr hfa.supers _ c).mp h)
    have hsecond := Classes.resolveWithin_below cfg hu (hb.congr hfa.supers) hdeep'
    rw [hfa.kept] at hsecond
    refine .inr ⟨hdeep, d, s, cs, hb, hfa, hsecond, fun hdc => ?_⟩
    subst hdc
    rw [← hfa.kept]
    exact Classes.resolveWithin_upToDate hu hdeep'

/-- Lists of tags are joined. -/
def joinedTags : Config where
  settings := { production := true }
  strategies := [("tags", Strategy.concat "tags")]

/-- A class with a list of tags, whose super class has been given a number for its tags since. -/
def mistagged : History :=
  ((History.start joinedTags).step joinedTags
    (.extend rootClass { fields := { extra := [("tags", .arr [.str "a"])] } })).step joinedTags
      (.edit rootClass [.custom "tags" (.num (.int 7))])

theorem mistagged_reachable : Reachable joinedTags mistagged :=
  .step (.step .refl Nat.one_pos trivial) (show 0 < Forest.size _ by decide +kernel) trivial

theorem resolve_mistagged_fails :
    ∃ e f', (Classes.resolve joinedTags 1).exec mistagged.forest = (.error e, f') :=
  Forging.exec_eq_error (by decide +kernel)

theorem resolve_after_failure_mistagged :
    ∃ e f', (Classes.resolve joinedTags 1).exec mistagged.forest = (.error e, f') ∧
      (mistagged.forest.TooDeep 1 ∧
          (Classes.resolve joinedTags 1).exec f' = (.error e, f') ∨
        ¬mistagged.forest.TooDeep 1 ∧ ∃ d s cs, mistagged.forest.Below d cs 1 ∧
          FailedAt joinedTags mistagged.forest f' e d s ∧
          (Classes.resolve joinedTags 1).exec f' =
            (cs.foldlM (fun above b => Classes.refresh joinedTags above b)
              (mistagged.forest.get d).options).exec f' ∧
          (d = 1 → (Classes.resolve joinedTags 1).exec f' =
            (.ok (mistagged.forest.get 1).options, f'))) := by
  obtain ⟨e, f', hfail⟩ := resolve_mistagged_fails
  exact ⟨e, f', hfail, resolve_after_failure mistagged_reachable hfail⟩

/-- A failure may be masked: the second time the class has the options from before. -/
theorem failure_then_stale_options :
    ∃ (cfg : Config) (h : History) (c : ClassId) (e : Error) (f' : Forest) (o : Placed Options)
      (f'' : Forest), Reachable cfg h ∧ (Classes.resolve cfg c).exec h.forest = (.error e, f') ∧
        (Classes.resolve cfg c).exec f' = (.ok o, f'') ∧
        o.same (h.forest.get c).options = true := by
  obtain ⟨e, f', hfail⟩ := resolve_mistagged_fails
  obtain rfl : ((Classes.resolve joinedTags 1).exec mistagged.forest).2 = f' := by rw [hfail]
  have hsecond : ((Classes.resolve joinedTags 1).exec
      ((Classes.resolve joinedTags 1).exec mistagged.forest).2).1.toOption.map
        (·.same (mistagged.forest.get 1).options) = some true := by decide +kernel
  obtain ⟨o, f'', hok⟩ : ∃ o f'', (Classes.resolve joinedTags 1).exec
      ((Classes.resolve joinedTags 1).exec mistagged.forest).2 = (.ok o, f'') :=
    Forging.exec_eq_ok (by decide +kernel)
  rw [hok] at hsecond
  exact ⟨joinedTags, mistagged, 1, e, _, o, f'', mistagged_reachable, hfail, hok,
    Option.some.inj hsecond⟩

end Componentry
