import Componentry.Proofs.Class.Failure
import Componentry.Proofs.Class.Settled
import Componentry.Proofs.Options.Agree

/-!
# Computing options anew

A class keeps the options that it was merged to until those of its super class are another object.
Here the options of a class are computed from nothing but the definitions on its line and what the
root of the line has now, and that is what resolving gives.

- `History.scratch`: the options of a class computed anew.
- `scratch_of_upToDate`: a class whose line is up to date has them.
- `resolve_as_from_scratch`: **resolving gives the options computed anew**, and it makes no
  difference whether a class is made before or after something is mixed in or registered for all.
-/

namespace Componentry

open Forest

variable {cfg : Config} {f f' : Forest} {c s : ClassId} {d : Options}

/-- A definition merged over options. What the journal holds makes no difference. -/
def Options.mergedOver (cfg : Config) (above d : Options) : Except Error Options :=
  ((Options.merge cfg false above d).run.run {}).1

theorem Options.mergedOver_eq (cfg : Config) (above d : Options) :
    Options.mergedOver cfg above d = Options.mergeResult cfg above d :=
  Options.merge_gives cfg false above d {}

/-- The options of a class computed anew. The class at the root of a line has what it has now; every
class below has its definition, as it was given, merged over the options of its super class, and
stands among its own components under the name that this leads to. -/
def History.scratch (cfg : Config) (h : History) (c : ClassId) : Except Error Options :=
  match h.origin c with
  | none => .ok (h.forest.get c).options.value
  | some (s, d) =>
    -- a super class comes before its classes
    if _hlt : s < c then do
      let above ← h.scratch cfg s
      let merged ← Options.mergedOver cfg above d
      return merged.withSelf merged.name c
    else .error (.inheritanceTooDeep Classes.inheritanceLimit)
termination_by c

/-! ## Roots -/

/-- The classes without a super class have options that are alike. -/
def RootsAlike (os : List (Option (ClassId × Options))) (f f' : Forest) : Prop :=
  ∀ b, originAt os b = none → (f.get b).options.value.unmarked = (f'.get b).options.value.unmarked

/-- **A class whose line is up to date** has the options computed anew, whichever history with the
same definitions and the same roots they are computed from. -/
theorem scratch_of_upToDate {h : History} (hg : f.Grounded) (hc : f.Coherent)
    (hs : f.Settled cfg h.origins) (hroots : RootsAlike h.origins f h.forest)
    (hu : f.UpToDate c) :
    ∃ o, h.scratch cfg c = .ok o ∧ (f.get c).options.value.unmarked = o.unmarked := by
  induction hu with
  | @root c hsuper =>
    have ho := hs.originAt_eq_none hsuper
    refine ⟨(h.forest.get c).options.value, ?_, hroots c ho⟩
    rw [History.scratch, show h.origin c = none from ho]
  | @under c s hsuper hup hcur ih =>
    obtain ⟨o, hscratch, halike⟩ := ih
    obtain ⟨d, ho⟩ := hs.originAt_of_super hsuper
    obtain ⟨above, m, hnoted, hm, hunmarked⟩ := (hs.made c s d ho).merged
    have hlt := hg.super_lt hsuper
    have hsize := lt_size_of_super hsuper
    -- what the class has noted is what its super class has
    obtain rfl := hc.eq_of_isCurrent (Nat.lt_trans hlt hsize) hsize hnoted hcur
    obtain ⟨m', hm', hmm'⟩ := Options.mergeResult_alike halike rfl hm
    refine ⟨m'.withSelf m'.name c, ?_, ?_⟩
    · rw [History.scratch, show h.origin c = some (s, d) from ho]
      show (if _hlt : s < c then _ else _) = _
      rw [dif_pos hlt, hscratch]
      show (do
        let merged ← Options.mergedOver cfg o d
        return merged.withSelf merged.name c) = _
      rw [Options.mergedOver_eq, hm']
      rfl
    · rw [hunmarked]
      exact Options.withSelf_alike hmm'.symm c

/-- Classes without a super class stay as they are while nobody edits them. -/
theorem Steps.get_of_root {evs : List Event} (h : Steps cfg evs f f')
    (hevs : ∀ ev ∈ evs, ∀ r, ev ≠ .revised c r) (hc : c < f.size)
    (hroot : (f.get c).superClass = none) : f'.get c = f.get c := by
  induction h with
  | nil f => rfl
  | @cons ev evs f g f' hstep _ ih =>
    have hsame : g.get c = f.get c := by
      cases hstep with
      | aside hq => exact hq.get c
      | founded _ ho _ _ => exact ho.there c (Nat.ne_of_lt hc)
      | made _ _ _ _ ho _ _ => exact ho.there c (Nat.ne_of_lt hc)
      | @revised b r _ _ _ _ _ _ ho _ _ =>
        refine ho.there c fun hcb => ?_
        exact hevs (.revised b r) List.mem_cons_self r (hcb ▸ rfl)
      | remerged hk _ _ _ _ ho _ _ =>
        refine ho.there c fun hcb => ?_
        rw [← hcb, hroot] at hk
        cases hk
      | spoiled hk _ _ _ ho _ _ =>
        refine ho.there c fun hcb => ?_
        rw [← hcb, hroot] at hk
        cases hk
    rw [ih (fun ev hev => hevs ev (List.mem_cons_of_mem _ hev)) ?_ (hsame ▸ hroot), hsame]
    exact Nat.lt_of_lt_of_le hc hstep.size_le

/-- What resolving leaves of a forest of settled classes: the roots are as they were, and a class
that was resolved has the options computed anew. -/
theorem History.resolve_scratch {h : History} (h' : History) (c : ClassId)
    (hg : h.forest.Grounded) (hc : h.forest.Coherent) (hcfg : cfg.strategies = [])
    (hs : h.forest.Settled cfg h.origins) (hsame : h.origins = h'.origins)
    (hroots : RootsAlike h.origins h.forest h'.forest) :
    Yields (Classes.resolve cfg c) h.forest fun r _ => ∀ o, r = .ok o →
      ∃ o', h'.scratch cfg c = .ok o' ∧ o.value.unmarked = o'.unmarked := by
  refine (Classes.resolve_yields cfg hg c).imp fun r f' ⟨⟨evs, hsteps, hevs⟩, hok⟩ o ho => ?_
  obtain ⟨rfl, hu⟩ := hok o ho
  have hplain : ∀ ev ∈ evs, ev.Plain h.origins := fun ev hev =>
    (hevs ev hev).elim (fun _ => trivial) fun _ => trivial
  have hsettled := hsteps.settled hcfg hplain hs
  rw [no_origins_of_onLine hevs, List.append_nil] at hsettled
  refine scratch_of_upToDate (hsteps.grounded hg) (hsteps.coherent hg hc) (hsame ▸ hsettled)
    (fun b hb => ?_) hu
  rw [← hsame] at hb
  rw [← hroots b hb]
  by_cases hlt : b < h.forest.size
  · rw [hsteps.get_of_root (fun ev hev => (hevs ev hev).ne_revised) hlt (hs.root b hb)]
  · rw [get_of_size_le (Nat.le_of_not_lt hlt), get_of_size_le]
    rw [hsteps.size_of_onLine hevs]
    exact Nat.le_of_not_lt hlt

/-! ## Failing -/

/-- Without strategies, resolving fails for a line that is too deep only. -/
theorem Classes.tooDeep_of_resolve (hcfg : cfg.strategies = []) (hg : f.Grounded) (c : ClassId) :
    Yields (Classes.resolve cfg c) f fun r _ => ∀ e, r = .error e → f.TooDeep c := by
  refine (Classes.resolveWithin_failure cfg hg _ c).imp fun r f' hfail e he => ?_
  rcases hfail e he with ⟨hdeep, -⟩ | ⟨-, b, s, cs, -, hb⟩
  · exact hdeep
  · obtain ⟨m, hm⟩ := Options.mergeResult_ok hcfg (f'.get s).options.value (f.get b).carried
    have hfails := hb.fails
    rw [hm] at hfails
    cases hfails

/-- Without strategies, a class is made unless the line above it is too deep. -/
theorem Classes.tooDeep_of_extend (hcfg : cfg.strategies = []) (hg : f.Grounded) (s : ClassId)
    (d : Options) :
    Yields (Classes.extend cfg s d) f fun r _ => ∀ e, r = .error e → f.TooDeep s := by
  refine Yields.bind (Classes.tooDeep_of_resolve hcfg hg s) ?_ (fun e f₁ h _ _ => h e rfl)
  intro above f₁ _
  refine Yields.bind (Yields.adviseName _) ?_ (fun e f₂ h => by cases h.1)
  rintro ⟨⟩ f₂ -
  refine Yields.bind (Yields.place d) ?_ (fun e f₃ h => by cases h.1)
  rintro p f₃ -
  refine Yields.bind (Yields.merging cfg _ _) ?_ ?_
  · intro m f₄ _
    refine Yields.bind Yields.get ?_ (fun e f₅ h => by cases h.1)
    rintro g f₅ -
    refine Yields.bind (Yields.store _) ?_ (fun e f₆ h => by cases h.1)
    rintro q f₆ -
    refine (Yields.addClass _).imp fun r f₇ hr e he => ?_
    rw [hr.1] at he
    cases he
  · intro e f₄ h
    obtain ⟨m, hm⟩ := Options.mergeResult_ok hcfg above.value p
    have := h.1
    rw [hm] at this
    cases this

/-- Under a line that is too deep no class is made, and nothing else happens. -/
theorem Classes.extend_of_tooDeep (cfg : Config) (hdeep : f.TooDeep s) (d : Options) :
    (Classes.extend cfg s d).exec f =
      (.error (.inheritanceTooDeep Classes.inheritanceLimit), f) := by
  rw [Classes.extend, Forging.exec_bind, Classes.resolve,
    Classes.resolveWithin_of_hasAbove cfg hdeep]

/-! ## Changes for all classes -/

/-- Several operations one after the other. -/
def History.after (cfg : Config) (h : History) (ops : List Op) : History :=
  ops.foldl (History.step cfg) h

/-- An operation that changes what all classes start from, and makes no class. -/
def Op.ForAll : Op → Prop
  | .mixin _ => True
  | .register _ _ => True
  | .directive _ => True
  | .filter _ _ => True
  | _ => False

/-- What such an operation makes of the options that all classes start from. -/
def Op.changed (cfg : Config) (o : Options) : Op → Except Error Options
  | .mixin d => Options.mergeResult cfg o d
  | .register name k => .ok (o.edit (.component name (.ofClass k)))
  | .directive name => .ok (o.edit (.directive name))
  | .filter name e => .ok (o.edit (.filter name e))
  | _ => .ok o

theorem unmarkedPart_editPart {α : Type} (empty : α) (g : α → α) (p : Option (Placed α)) :
    unmarkedPart (editPart empty g p) = editPart empty g (unmarkedPart p) := by
  cases p <;> rfl

/-- It looks at no mark. -/
theorem Op.changed_alike (op : Op) (hcfg : cfg.strategies = []) {o o' : Options}
    (h : o.unmarked = o'.unmarked) :
    ∃ m m', op.changed cfg o = .ok m ∧ op.changed cfg o' = .ok m' ∧ m.unmarked = m'.unmarked := by
  have edited : ∀ e : Edit, (∀ o : Options, (o.edit e).unmarked = o.unmarked.edit e) →
      (o.edit e).unmarked = (o'.edit e).unmarked := fun e he => by rw [he, h, he]
  cases op with
  | mixin d =>
    obtain ⟨m, hm⟩ := Options.mergeResult_ok hcfg o d
    obtain ⟨m', hm', halike⟩ := Options.mergeResult_alike h rfl hm
    exact ⟨m, m', hm, hm', halike.symm⟩
  | register name k =>
    refine ⟨_, _, rfl, rfl, edited _ fun o => ?_⟩
    show (o.addComponent name (.ofClass k)).unmarked = o.unmarked.addComponent name (.ofClass k)
    rw [Options.addComponent_unmarked, unmarkedEntry]
  | directive name =>
    refine ⟨_, _, rfl, rfl, edited _ fun o => ?_⟩
    obtain ⟨fields, components, mixins, base, merged⟩ := o
    simp only [Options.edit, Options.mapFields, Options.unmarked, Fields.unmarked,
      unmarkedPart_editPart]
  | filter name e =>
    refine ⟨_, _, rfl, rfl, edited _ fun o => ?_⟩
    obtain ⟨fields, components, mixins, base, merged⟩ := o
    simp only [Options.edit, Options.mapFields, Options.unmarked, Fields.unmarked,
      unmarkedPart_editPart]
  | _ => exact ⟨o, o', rfl, rfl, h⟩

/-- The root class has other options, which are `m` but for marks; no other class changes. -/
def Rerooted (f f' : Forest) (m : Options) : Prop :=
  f'.size = f.size ∧ ∃ p, Only f f' rootClass ((f.get rootClass).revised p) ∧
    p.value.unmarked = m.unmarked

theorem Change.rerooted {es : List Edit}
    (h : Change cfg f f' (.revised rootClass (.edits es))) :
    Rerooted f f' (es.foldl Options.edit (f.get rootClass).options.value) := by
  cases h with
  | @revised _ _ o n p hc hr hp ho hs hn =>
    obtain ⟨rfl, rfl⟩ := hr
    refine ⟨hs, p, ho, ?_⟩
    rw [hp]
    exact Options.placed_unmarked _ _

theorem Registered.rerooted {e : Edit} {r : Except Error Unit}
    (h : Registered cfg f rootClass e r f') :
    Rerooted f f' ((f.get rootClass).options.value.edit e) := by
  obtain ⟨-, hsteps⟩ := h
  cases hsteps with
  | @cons _ _ _ g _ haside hrest =>
    cases haside with
    | aside hq =>
      cases hrest with
      | cons hrevised hnil =>
        cases hnil
        obtain ⟨hs, p, ho, hp⟩ := hrevised.rerooted
        rw [hq.get rootClass] at ho hp
        exact ⟨hs.trans hq.size, p, ho.of_quiet hq, hp⟩

/-- **A change for all** is one of the root class. -/
theorem Op.ForAll.yields {op : Op} (hcfg : cfg.strategies = []) (hop : op.ForAll)
    (hg : f.Grounded) :
    Yields (op.run cfg) f fun _ f' =>
      ∃ m, op.changed cfg (f.get rootClass).options.value = .ok m ∧ Rerooted f f' m := by
  have hroot := hg.root_lt
  cases op with
  | mixin d =>
    refine (Classes.mixin_yields cfg hroot d).imp fun r f' h => ?_
    rcases h with ⟨-, hchange⟩ | ⟨e, -, -, herr⟩
    · cases hchange with
      | @revised _ _ o n p hc hr hp ho hs hn =>
        obtain ⟨m, hm, halike⟩ := Options.mergeResult_alike
          (Eq.refl (f.get rootClass).options.value.unmarked) (d.placed_unmarked f.nextMark) hr.1
        refine ⟨m, hm, hs, p, ho, ?_⟩
        rw [hp, halike]
        exact Options.placed_unmarked _ _
    · obtain ⟨m, hok⟩ := Options.mergeResult_ok hcfg (f.get rootClass).options.value
        (d.placed f.nextMark)
      rw [hok] at herr
      cases herr
  | register name k =>
    exact (Classes.register_yields cfg hroot name k).imp fun _ _ h => ⟨_, rfl, h.rerooted⟩
  | directive name =>
    exact (Classes.directive_yields cfg hroot name).imp fun _ _ h => ⟨_, rfl, h.rerooted⟩
  | filter name e =>
    exact (Classes.filter_yields cfg hroot name e).imp fun _ _ h => ⟨_, rfl, h.rerooted⟩
  | _ => cases hop

theorem Op.ForAll.plain {op : Op} (hop : op.ForAll) (f : Forest) : op.Fits f ∧ op.Plain f := by
  cases op with
  | mixin d => exact ⟨trivial, trivial⟩
  | register name k => exact ⟨trivial, trivial⟩
  | directive name => exact ⟨trivial, trivial⟩
  | filter name e => exact ⟨trivial, trivial⟩
  | _ => cases hop

theorem Rerooted.superClass_eq {m : Options} (h : Rerooted f f' m) (b : ClassId) :
    (f'.get b).superClass = (f.get b).superClass := by
  obtain ⟨-, p, ho, -⟩ := h
  exact ho.superClass_eq rfl b

/-- Roots that are alike stay alike when both change in the same way. -/
theorem RootsAlike.rerooted {os : List (Option (ClassId × Options))} {g g' : Forest}
    {m m' : Options} (h : RootsAlike os f g) (hf : Rerooted f f' m) (hg : Rerooted g g' m')
    (hm : m.unmarked = m'.unmarked) : RootsAlike os f' g' := by
  obtain ⟨-, p, hof, hp⟩ := hf
  obtain ⟨-, q, hog, hq⟩ := hg
  intro b hb
  by_cases hbr : b = rootClass
  · subst hbr
    rw [hof.here, hog.here]
    show p.value.unmarked = q.value.unmarked
    rw [hp, hq, hm]
  · rw [hof.there b hbr, hog.there b hbr]
    exact h b hb

/-- Changes for all make no class, and change roots that are alike alike. -/
theorem History.after_forAll (hcfg : cfg.strategies = []) {gs : List Op}
    (hgs : ∀ g ∈ gs, g.ForAll) {h : History} (hr : Runs cfg Op.Plain (.start cfg) h) :
    Runs cfg Op.Plain (.start cfg) (h.after cfg gs) ∧ (h.after cfg gs).origins = h.origins ∧
      (∀ b, ((h.after cfg gs).forest.get b).superClass = (h.forest.get b).superClass) ∧
      ∀ (os : List (Option (ClassId × Options))) (h' : History),
        Runs cfg Op.Plain (.start cfg) h' → originAt os rootClass = none →
          RootsAlike os h.forest h'.forest →
            RootsAlike os (h.after cfg gs).forest (h'.after cfg gs).forest := by
  induction gs generalizing h with
  | nil => exact ⟨hr, rfl, fun b => rfl, fun os h' _ _ halike => halike⟩
  | cons g gs ih =>
    have hop := hgs g List.mem_cons_self
    have hstep : ∀ {h : History}, Runs cfg Op.Plain (.start cfg) h →
        Runs cfg Op.Plain (.start cfg) (h.step cfg g) ∧
          ∃ m, g.changed cfg (h.forest.get rootClass).options.value = .ok m ∧
            Rerooted h.forest (h.step cfg g).forest m := fun hr =>
      ⟨.step hr (hop.plain _).1 (hop.plain _).2,
        hop.yields hcfg (hr.grounded (History.start_grounded cfg))⟩
    obtain ⟨hr₁, m, hm, hroot⟩ := hstep hr
    obtain ⟨hr₂, horigins, hsuper, halike⟩ :=
      ih (fun g' hg' => hgs g' (List.mem_cons_of_mem _ hg')) hr₁
    have hsame : (h.step cfg g).origins = h.origins :=
      if_neg (Nat.not_lt.mpr (Nat.le_of_eq hroot.1))
    refine ⟨hr₂, horigins.trans hsame, fun b => (hsuper b).trans (hroot.superClass_eq b), ?_⟩
    intro os h' hr' hos hroots
    obtain ⟨hr₁', m', hm', hroot'⟩ := hstep hr'
    refine halike os (h'.step cfg g) hr₁' hos (hroots.rerooted hroot hroot' ?_)
    obtain ⟨n, n', hn, hn', hnn'⟩ := Op.changed_alike g hcfg (hroots rootClass hos)
    cases hm.symm.trans hn
    cases hm'.symm.trans hn'
    exact hnn'

/-! ## Extending before or after -/

/-- **Extending** a class makes one class, unless the line is too deep. -/
theorem History.step_extend (hcfg : cfg.strategies = []) {h : History} (hg : h.forest.Grounded)
    (hfit : s < h.forest.size) (d : Options) :
    h.forest.TooDeep s ∧ h.step cfg (.extend s d) = h ∨
      ¬h.forest.TooDeep s ∧ (h.step cfg (.extend s d)).origins = h.origins ++ [some (s, d)] := by
  have hrun : ((Op.extend s d).run cfg).exec h.forest =
      match (Classes.extend cfg s d).exec h.forest with
      | (.ok _, f') => (.ok (), f')
      | (.error e, f') => (.error e, f') := by
    refine (Forging.exec_bind (Classes.extend cfg s d) (fun _ => pure ()) h.forest).trans ?_
    generalize (Classes.extend cfg s d).exec h.forest = out
    obtain ⟨r, f'⟩ := out
    cases r <;> rfl
  by_cases hdeep : h.forest.TooDeep s
  · refine .inl ⟨hdeep, ?_⟩
    rw [Classes.extend_of_tooDeep cfg hdeep] at hrun
    rw [History.step, hrun]
    show (⟨h.forest, if h.forest.size < h.forest.size then _ else _⟩ : History) = h
    rw [if_neg (Nat.lt_irrefl _)]
  · refine .inr ⟨hdeep, ?_⟩
    obtain ⟨⟨evs, hsteps, -, hr⟩, hok⟩ :=
      (Classes.extend_yields cfg hg hfit d).and (Classes.tooDeep_of_extend hcfg hg s d)
    rcases hr with ⟨⟨e, he⟩, -⟩ | ⟨-, hevs⟩
    · exact absurd (hok e he) hdeep
    · have hforest : (h.step cfg (.extend s d)).forest =
          ((Classes.extend cfg s d).exec h.forest).2 := by
        show (((Op.extend s d).run cfg).exec h.forest).2 = _
        rw [hrun]
        generalize (Classes.extend cfg s d).exec h.forest = out
        obtain ⟨r, f'⟩ := out
        cases r <;> rfl
      have hsize := hsteps.size_eq
      rw [hevs, ← hforest] at hsize
      exact if_pos (hsize ▸ Nat.lt_succ_self _)

/-- The roots stay as they are when a class is extended. -/
theorem History.roots_extend (hcfg : cfg.strategies = []) {h : History} (hg : h.forest.Grounded)
    (hs : h.forest.Settled cfg h.origins)
    (hs' : (h.step cfg (.extend s d)).forest.Settled cfg (h.step cfg (.extend s d)).origins)
    (hfit : s < h.forest.size) :
    RootsAlike (h.step cfg (.extend s d)).origins h.forest
      (h.step cfg (.extend s d)).forest := by
  rcases h.step_extend hcfg hg hfit d with ⟨-, heq⟩ | ⟨-, horigins⟩
  · rw [heq]
    exact fun b _ => rfl
  · have hsize := hs'.length
    rw [horigins, List.length_append, hs.length] at hsize
    have hfits : (Op.extend s d).Fits h.forest := hfit
    obtain ⟨evs, hsteps, hevs, -⟩ := History.step_events cfg hg hfits
    have hkept : ∀ ev ∈ evs, ∀ b r, ev ≠ .revised b r := fun ev hev b r heq => by
      have hbrings := hevs ev hev
      rw [heq] at hbrings
      cases hbrings
    intro b hb
    rw [horigins] at hb
    rcases Nat.lt_trichotomy b h.forest.size with hlt | rfl | hgt
    · rw [originAt_append_of_lt (hs.length ▸ hlt)] at hb
      rw [hsteps.get_of_root (fun ev hev => hkept ev hev b) hlt (hs.root b hb)]
    · rw [← hs.length, originAt_length] at hb
      cases hb
    · rw [get_of_size_le (Nat.le_of_lt hgt), get_of_size_le (hsize ▸ hgt)]

/-- Resolving has the same outcome: the same error, or options that agree. -/
def SameOutcome : Except Error (Placed Options) → Except Error (Placed Options) → Prop
  | .ok o, .ok o' => o.value.Agree o'.value
  | .error e, .error e' => e = e'
  | _, _ => False

/-- In two histories with the same definitions and the same roots, every class resolves to options
that agree, or its line is too deep in both. -/
theorem History.sameOutcome (hcfg : cfg.strategies = []) {h h' : History}
    (hr : Runs cfg Op.Plain (.start cfg) h) (hr' : Runs cfg Op.Plain (.start cfg) h')
    (hsame : h.origins = h'.origins) (hroots : RootsAlike h.origins h.forest h'.forest)
    (c : ClassId) :
    SameOutcome ((Classes.resolve cfg c).exec h.forest).1
      ((Classes.resolve cfg c).exec h'.forest).1 := by
  obtain ⟨hc, hs⟩ := hr.settled hcfg
  obtain ⟨hc', hs'⟩ := hr'.settled hcfg
  have hg := hr.grounded (History.start_grounded cfg)
  have hg' := hr'.grounded (History.start_grounded cfg)
  have hsuper : ∀ b, (h'.forest.get b).superClass = (h.forest.get b).superClass := fun b => by
    rw [hs.superClass_eq, hs'.superClass_eq, hsame]
  by_cases hdeep : h.forest.TooDeep c
  · have hdeep' : h'.forest.TooDeep c := (HasAbove.congr hsuper _ c).mpr hdeep
    rw [Classes.resolve, Classes.resolveWithin_of_hasAbove cfg hdeep,
      Classes.resolveWithin_of_hasAbove cfg hdeep']
    rfl
  · have hdeep' : ¬h'.forest.TooDeep c := fun hd => hdeep ((HasAbove.congr hsuper _ c).mp hd)
    have hok := (History.resolve_scratch h' c hg hc hcfg hs hsame hroots).and
      (Classes.tooDeep_of_resolve hcfg hg c)
    have hok' := (History.resolve_scratch h' c hg' hc' hcfg hs' rfl
      (fun b _ => rfl)).and (Classes.tooDeep_of_resolve hcfg hg' c)
    rw [Yields] at hok hok'
    generalize ((Classes.resolve cfg c).exec h.forest).1 = r at hok
    generalize ((Classes.resolve cfg c).exec h'.forest).1 = r' at hok'
    cases r with
    | error e => exact absurd (hok.2 e rfl) hdeep
    | ok o =>
      cases r' with
      | error e => exact absurd (hok'.2 e rfl) hdeep'
      | ok o' =>
        obtain ⟨m, hm, ho⟩ := hok.1 o rfl
        obtain ⟨m', hm', ho'⟩ := hok'.1 o' rfl
        cases hm.symm.trans hm'
        exact Options.agree_of_unmarked (ho.trans ho'.symm)

/-- **Resolving gives the options computed anew.** No class but those without a super class is
edited, and every definition has a name of its own if its base or one of its mixins has one. Then
whatever was made, mixed in, registered and resolved before and in whatever order, the options that
resolving gives agree with those computed anew. So it makes no difference whether a class is made
before or after changes for all classes. -/
theorem resolve_as_from_scratch (hcfg : cfg.strategies = []) {h : History}
    (hr : Runs cfg Op.Plain (.start cfg) h) :
    (∀ c o f', (Classes.resolve cfg c).exec h.forest = (.ok o, f') →
      ∃ o', h.scratch cfg c = .ok o' ∧ o.value.Agree o') ∧
    ∀ s d gs, s < h.forest.size → d.NamesItself → (∀ g ∈ gs, g.ForAll) → ∀ c,
      SameOutcome
        ((Classes.resolve cfg c).exec ((h.step cfg (.extend s d)).after cfg gs).forest).1
        ((Classes.resolve cfg c).exec ((h.after cfg gs).step cfg (.extend s d)).forest).1 := by
  obtain ⟨hc, hs⟩ := hr.settled hcfg
  have hg := hr.grounded (History.start_grounded cfg)
  refine ⟨fun c o f' hres => ?_, fun s d gs hfit hd hgs c => ?_⟩
  · have hok := History.resolve_scratch h c hg hc hcfg hs rfl fun b _ => rfl
    rw [Yields, hres] at hok
    obtain ⟨o', hscratch, halike⟩ := hok o rfl
    exact ⟨o', hscratch, Options.agree_of_unmarked halike⟩
  · obtain ⟨hrlate, horigins, hsuper, hlate⟩ := History.after_forAll hcfg hgs hr
    have hrearly : Runs cfg Op.Plain (.start cfg) (h.step cfg (.extend s d)) := .step hr hfit hd
    obtain ⟨hrbefore, horigins', -, -⟩ := History.after_forAll hcfg hgs hrearly
    obtain ⟨-, hslate⟩ := hrlate.settled hcfg
    obtain ⟨-, hsearly⟩ := hrearly.settled hcfg
    have hglate := hrlate.grounded (History.start_grounded cfg)
    have hfitlate : s < (h.after cfg gs).forest.size := by
      rw [← hslate.length, horigins, hs.length]
      exact hfit
    have hrafter : Runs cfg Op.Plain (.start cfg) ((h.after cfg gs).step cfg (.extend s d)) :=
      .step hrlate hfitlate hd
    -- the class is made in both orders, or in none
    have hsame : (h.step cfg (.extend s d)).origins =
        ((h.after cfg gs).step cfg (.extend s d)).origins := by
      have hdeep := HasAbove.congr hsuper (Classes.inheritanceLimit + 1) s
      rcases h.step_extend hcfg hg hfit d with ⟨h₁, heq⟩ | ⟨h₁, heq⟩
      · rcases (h.after cfg gs).step_extend hcfg hglate hfitlate d with ⟨-, heq'⟩ | ⟨h₂, -⟩
        · rw [heq, heq', horigins]
        · exact absurd (hdeep.mpr h₁) h₂
      · rcases (h.after cfg gs).step_extend hcfg hglate hfitlate d with ⟨h₂, -⟩ | ⟨-, heq'⟩
        · exact absurd (hdeep.mp h₂) h₁
        · rw [heq, heq', horigins]
    have hroot : originAt (h.step cfg (.extend s d)).origins rootClass = none := by
      refine hsearly.originAt_eq_none (Option.eq_none_iff_forall_ne_some.mpr fun b hb => ?_)
      exact Nat.not_lt_zero b ((hrearly.grounded (History.start_grounded cfg)).super_lt hb)
    have hearly := hlate _ _ hrearly hroot (History.roots_extend hcfg hg hs hsearly hfit)
    have hsafter := (hrafter.settled hcfg).2
    have hroots := History.roots_extend hcfg hglate hslate hsafter hfitlate
    refine History.sameOutcome hcfg hrbefore hrafter (horigins'.trans hsame) (fun b hb => ?_) c
    rw [horigins'] at hb
    exact (hearly b hb).symm.trans (hroots b (hsame ▸ hb))

/-- A class, and something that is mixed in after it was made. -/
def themedPanel : History :=
  ((History.start quietConfig).step quietConfig (.extend rootClass panel)).step quietConfig
    (.mixin darkTheme)

theorem resolve_as_from_scratch_themed :
    quietConfig.strategies = [] ∧ Runs quietConfig Op.Plain (.start quietConfig) themedPanel ∧
      (∃ o f' o', (Classes.resolve quietConfig 1).exec themedPanel.forest = (.ok o, f') ∧
        themedPanel.scratch quietConfig 1 = .ok o' ∧ o.value.Agree o') ∧
      SameOutcome
        ((Classes.resolve quietConfig 2).exec
          ((themedPanel.step quietConfig (.extend 1 {})).after quietConfig
            [.directive "focus", .register "v-panel" 1]).forest).1
        ((Classes.resolve quietConfig 2).exec
          ((themedPanel.after quietConfig [.directive "focus", .register "v-panel" 1]).step
            quietConfig (.extend 1 {})).forest).1 := by
  have hr : Runs quietConfig Op.Plain (.start quietConfig) themedPanel :=
    .step (.step .refl Nat.one_pos (show panel.NamesItself by decide)) trivial trivial
  obtain ⟨hscratch, hsame⟩ := resolve_as_from_scratch rfl hr
  refine ⟨rfl, hr, ?_, hsame 1 {} _ ?_ (by decide) (fun g hg => ?_) 2⟩
  · obtain ⟨o, f', hres⟩ : ∃ o f', (Classes.resolve quietConfig 1).exec themedPanel.forest =
        (.ok o, f') := Forging.exec_eq_ok (by decide +kernel)
    obtain ⟨o', ho', hagree⟩ := hscratch 1 o f' hres
    exact ⟨o, f', o', hres, ho', hagree⟩
  · show 1 < Forest.size _
    decide +kernel
  · rcases List.mem_cons.mp hg with rfl | hg
    · trivial
    · cases List.mem_singleton.mp hg
      trivial

end Componentry
