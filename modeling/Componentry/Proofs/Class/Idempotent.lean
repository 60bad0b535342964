import Componentry.Proofs.Class.Coherent
import Componentry.Proofs.Class.Failure
import Componentry.Proofs.Engine.Calm

/-!
# Resolving again

Once a class was resolved, resolving it again finds every class on its line up to date and does
nothing. When the options of one class on the line have been replaced since, the classes below it
are merged again, each of them once.

- `Forest.Replaced`: one class of a line has other options, and nothing else is different.
- `Classes.resolve_upToDate`: what is left by resolving.
- `Classes.refresh_replaced`: below a replacement **every class is merged again**.
- `resolve_idempotent`: **resolving again**, making children, and resolving after a replacement.
-/

namespace Componentry

open Forest

variable {cfg : Config} {f g : Forest} {a c s : ClassId} {cs : List ClassId}

/-! ## Lines of two forests -/

namespace Forest

/-- Only classes on the line of a class decide how deep it is. -/
theorem HasAbove.frame (hf : f.Grounded) (n : Nat)
    (h : ∀ b, b ≤ c → (g.get b).superClass = (f.get b).superClass) :
    g.HasAbove n c ↔ f.HasAbove n c := by
  induction n generalizing c with
  | zero => exact Iff.rfl
  | succ n ih =>
    simp only [HasAbove, h c (Nat.le_refl c)]
    refine exists_congr fun s => and_congr_right fun hs => ?_
    have hsc := Nat.le_of_lt (hf.super_lt hs)
    exact ih fun b hb => h b (Nat.le_trans hb hsc)

theorem Below.le (hf : f.Grounded) (hb : f.Below a cs c) : a ≤ c ∧ ∀ b ∈ cs, b ≤ c := by
  induction hb with
  | here => exact ⟨Nat.le_refl a, fun b hb => by cases hb⟩
  | @under cs s c _ hc ih =>
    have hsc := Nat.le_of_lt (hf.super_lt hc)
    refine ⟨Nat.le_trans ih.1 hsc, fun b hb => ?_⟩
    rcases List.mem_append.mp hb with hb | hb
    · exact Nat.le_trans (ih.2 b hb) hsc
    · exact Nat.le_of_eq (List.mem_singleton.mp hb)

/-- No class is twice on a line. -/
theorem Below.nodup (hf : f.Grounded) (hb : f.Below a cs c) : cs.Nodup := by
  induction hb with
  | here => exact List.nodup_nil
  | @under cs s c hb hc ih =>
    rw [List.nodup_append]
    refine ⟨ih, List.nodup_cons.mpr ⟨List.not_mem_nil, List.nodup_nil⟩, fun b hb' d hd => ?_⟩
    rw [List.mem_singleton.mp hd]
    exact Nat.ne_of_lt (Nat.lt_of_le_of_lt ((hb.le hf).2 b hb') (hf.super_lt hc))

theorem Below.frame (hf : f.Grounded) (hb : f.Below a cs c)
    (h : ∀ b, b ≤ c → (g.get b).superClass = (f.get b).superClass) : g.Below a cs c := by
  induction hb with
  | here => exact .here
  | @under cs s c _ hc ih =>
    have hsc := Nat.le_of_lt (hf.super_lt hc)
    refine .under (ih fun b hb => h b (Nat.le_trans hb hsc)) ?_
    rw [h c (Nat.le_refl c)]
    exact hc

/-- What is above a class that is up to date is up to date. -/
theorem UpToDate.above (hu : f.UpToDate c) (hb : f.Below a cs c) : f.UpToDate a := by
  induction hb with
  | here => exact hu
  | @under cs s c _ hc ih =>
    cases hu with
    | root hc' => rw [hc'] at hc; cases hc
    | under hc' hs _ =>
      rw [hc'] at hc
      cases hc
      exact ih hs

/-- Up to `c` the classes are the same, but for the options of `a`, which are another object. -/
structure Replaced (f g : Forest) (a c : ClassId) : Prop where
  here : ∃ p, g.get a = (f.get a).revised p ∧ p.same (f.get a).options = false
  there : ∀ b, b ≤ c → b ≠ a → g.get b = f.get b

theorem Replaced.superClass_eq (h : f.Replaced g a c) (b : ClassId) (hb : b ≤ c) :
    (g.get b).superClass = (f.get b).superClass := by
  by_cases hba : b = a
  · subst hba
    obtain ⟨p, hp, -⟩ := h.here
    rw [hp]
    rfl
  · rw [h.there b hb hba]

/-- The class that has other options is up to date if it was. -/
theorem Replaced.upToDate (h : f.Replaced g a c) (hf : f.Grounded) (hac : a ≤ c)
    (hu : f.UpToDate a) : g.UpToDate a := by
  obtain ⟨p, hp, -⟩ := h.here
  cases hu with
  | root hs =>
    refine .root ?_
    rw [hp]
    exact hs
  | @under _ s hs hu hcur =>
    have hsa := hf.super_lt hs
    have hsame : ∀ b, b ≤ s → g.get b = f.get b := fun b hb =>
      h.there b (Nat.le_trans hb (Nat.le_trans (Nat.le_of_lt hsa) hac))
        (Nat.ne_of_lt (Nat.lt_of_le_of_lt hb hsa))
    refine .under (s := s) ?_ (hu.frame hf hsame) ?_
    · rw [hp]
      exact hs
    · rw [hp, hsame s (Nat.le_refl s)]
      exact hcur

end Forest

/-! ## Marks of options -/

theorem Placed.same_eq_true {α : Type} {p q : Placed α} (hp : p.mark.isSome) :
    p.same q = true ↔ p.mark = q.mark := by
  obtain ⟨m, v⟩ := p
  obtain ⟨n, w⟩ := q
  obtain ⟨m, rfl⟩ := Option.isSome_iff_exists.mp hp
  cases n with
  | none => simp [Placed.same]
  | some n => simp [Placed.same]

/-- Options that were just stored are another object than any that a class had before. -/
theorem Forest.Coherent.same_stored (hf : f.Coherent) (hc : c < f.size) {o : Options}
    {p : Placed Options} {n n' : Nat} (hle : f.nextMark ≤ n) (hp : p = o.stored n)
    (hn : ∃ m, p.mark = some m ∧ n' = m + 1) : p.same (f.get c).options = false := by
  obtain ⟨m, hm, hlt⟩ := hf.marked ⟨c, hc, .inl rfl⟩
  obtain ⟨hle', hpm, -⟩ := Options.stored_grows hp hn
  rw [← Bool.not_eq_true, Placed.same_eq_true (by rw [hpm]; rfl), hm, hpm]
  intro h
  cases h
  exact Nat.not_lt.mpr (Nat.le_trans hle hle') hlt

/-- A change of the options of a class replaces them. -/
theorem Change.replaced {r : Revision} (h : Change cfg f g (.revised a r)) (hf : f.Coherent)
    (c : ClassId) : f.Replaced g a c := by
  cases h with
  | revised ha hr hp ho _ hn =>
    exact ⟨⟨_, ho.here, hf.same_stored ha hr.le hp hn⟩, fun b _ hb => ho.there b hb⟩

/-! ## Below a replacement -/

theorem Classes.refresh_of_not_current (cfg : Config) {above : Placed Options}
    (h : (f.get c).isCurrent above = false) :
    (Classes.refresh cfg above c).exec f = (Classes.remerge cfg c above).exec f := by
  rw [Classes.refresh, Forging.exec_bind]
  show Forging.exec (if (f.get c).isCurrent above then _ else _) f = _
  rw [h]
  rfl

/-- Options that were merged over one object are out of date for any other. -/
theorem Class.isCurrent_other {k : Class} {p q : Placed Options} (h : k.isCurrent p = true)
    (hq : q.same p = false) (hm : q.mark.isSome) : k.isCurrent q = false := by
  rw [Class.isCurrent] at h ⊢
  cases hseen : k.superOptions with
  | none => rfl
  | some seen =>
    rw [hseen] at h
    have hp : seen.mark = p.mark := Placed.mark_eq_of_same h
    show seen.same q = false
    rw [← Bool.not_eq_true] at hq ⊢
    intro hs
    have hsq : seen.mark = q.mark := Placed.mark_eq_of_same hs
    exact hq ((Placed.same_eq_true hm).mpr (hsq.symm.trans hp))

/-- A class that is out of date is merged again, and what it has then is another object. -/
theorem Classes.refresh_outdated (cfg : Config) (hg : g.Grounded) (hgc : g.Coherent)
    (hk : (g.get c).superClass = some s) (hu : g.UpToDate s)
    (hcur : (g.get c).isCurrent (g.get s).options = false) :
    (Classes.refresh cfg (g.get s).options c).exec g =
        (Classes.remerge cfg c (g.get s).options).exec g ∧
      ∀ o g', (Classes.remerge cfg c (g.get s).options).exec g = (.ok o, g') →
        Change cfg g g' (.remerged c) ∧ g'.UpToDate c ∧ o = (g'.get c).options ∧
          o.same (g.get c).options = false := by
  have hrefresh := Classes.refresh_of_not_current cfg hcur
  refine ⟨hrefresh, fun o g' h => ?_⟩
  have hremerge : Yields (Classes.remerge cfg c _) g _ := Classes.remerge_yields hk hu hcur
  rw [Yields, h] at hremerge
  obtain ⟨hchange, ho⟩ := hremerge.1 o rfl
  have hdone : Yields (Classes.refresh cfg _ c) g _ := Classes.refresh_yields hg hk hu
  rw [Yields, hrefresh, h] at hdone
  refine ⟨hchange, (hdone.2 o rfl).2, ho, ?_⟩
  cases hchange with
  | remerged _ _ _ _ hp honly _ hn =>
    rw [ho, honly.here]
    exact hgc.same_stored (lt_size_of_super hk) (Nat.le_refl _) hp hn

/-- **Below a replacement** every class is merged again: refreshing the classes of the line is
merging each of them again, and what is left then is another object than before. -/
theorem Classes.refresh_replaced (cfg : Config) (hf : f.Grounded) (hg : g.Grounded)
    (hgc : g.Coherent) (hu : f.UpToDate c) (hb : f.Below a cs c) (hr : f.Replaced g a c) :
    (cs.foldlM (fun above b => Classes.refresh cfg above b) (g.get a).options).exec g =
        (cs.foldlM (fun above b => Classes.remerge cfg b above) (g.get a).options).exec g ∧
      ∀ o g', (cs.foldlM (fun above b => Classes.remerge cfg b above) (g.get a).options).exec g =
          (.ok o, g') →
        Steps cfg (cs.map .remerged) g g' ∧ g'.UpToDate c ∧ o = (g'.get c).options ∧
          o.same (f.get c).options = false := by
  induction hb with
  | here =>
    refine ⟨rfl, fun o g' h => ?_⟩
    cases h
    obtain ⟨p, hp, hsame⟩ := hr.here
    refine ⟨.nil g, hr.upToDate hf (Nat.le_refl a) hu, rfl, ?_⟩
    rw [hp]
    exact hsame
  | @under cs s c hb hc ih =>
    have hsc := hf.super_lt hc
    have hle := (hb.le hf).2
    have has := (hb.le hf).1
    -- what holds of the line down to the super class
    obtain ⟨hcur, hus⟩ : (f.get c).isCurrent (f.get s).options = true ∧ f.UpToDate s := by
      cases hu with
      | root hc' => rw [hc'] at hc; cases hc
      | under hc' hs hcur =>
        rw [hc'] at hc
        cases hc
        exact ⟨hcur, hs⟩
    have hrs : f.Replaced g a s :=
      ⟨hr.here, fun b hb hba => hr.there b (Nat.le_trans hb (Nat.le_of_lt hsc)) hba⟩
    obtain ⟨hexec, hok⟩ := ih hus hrs
    have hgc' : g.get c = f.get c :=
      hr.there c (Nat.le_refl c) (Nat.ne_of_gt (Nat.lt_of_le_of_lt has hsc))
    simp only [List.foldlM_append, List.foldlM_cons, List.foldlM_nil, bind_pure,
      Forging.exec_bind, hexec]
    generalize hrun : (cs.foldlM (fun above b => Classes.remerge cfg b above)
      (g.get a).options).exec g = out
    obtain ⟨r, g₁⟩ := out
    cases r with
    | error e => exact ⟨rfl, fun o g' h => by cases h⟩
    | ok o =>
      obtain ⟨hsteps, hu₁, ho, hsame⟩ := hok o g₁ hrun
      have hline : ∀ ev ∈ cs.map Event.remerged, ev.OnLine s := by
        intro ev hev
        obtain ⟨b, hb, rfl⟩ := List.mem_map.mp hev
        exact hle b hb
      have hget : g₁.get c = f.get c := (hsteps.get_of_onLine hline hsc).trans hgc'
      have hg₁ := hsteps.grounded hg
      have hk : (g₁.get c).superClass = some s := by rw [hget]; exact hc
      have hmark := hg₁.marked (Nat.lt_trans hsc (lt_size_of_super hk))
      subst ho
      -- the class was merged over the options that its super class had before
      have hcur₁ : (g₁.get c).isCurrent (g₁.get s).options = false := by
        rw [hget]
        exact Class.isCurrent_other hcur hsame hmark
      obtain ⟨hrefresh, hremerge⟩ :=
        Classes.refresh_outdated cfg hg₁ (hsteps.coherent hg hgc) hk hu₁ hcur₁
      refine ⟨hrefresh, fun o g' h => ?_⟩
      obtain ⟨hchange, hu', ho, hsame'⟩ := hremerge o g' h
      rw [hget] at hsame'
      refine ⟨?_, hu', ho, hsame'⟩
      rw [List.map_append]
      exact hsteps.append (.single hchange)

/-! ## Resolving again -/

/-- What resolving a class leaves: its line is up to date and not too deep, and the result is what
the class has. -/
theorem Classes.resolve_upToDate {h : History} (hr : Reachable cfg h) {o : Placed Options}
    (hok : (Classes.resolve cfg c).exec h.forest = (.ok o, f)) :
    f.UpToDate c ∧ ¬f.TooDeep c ∧ o = (f.get c).options ∧ f.Grounded := by
  have hyields := Classes.resolve_yields cfg hr.grounded c
  rw [Yields, hok] at hyields
  obtain ⟨⟨evs, hsteps, hline⟩, hres⟩ := hyields
  obtain ⟨ho, hu⟩ := hres o rfl
  refine ⟨hu, fun hdeep => ?_, ho, hsteps.grounded hr.grounded⟩
  have hdeep' : h.forest.TooDeep c := (HasAbove.congr (hsteps.superClass_eq hline) _ c).mp hdeep
  have herr := Classes.resolveWithin_of_hasAbove (f := h.forest) cfg hdeep'
  rw [show Classes.resolveWithin cfg (Classes.inheritanceLimit + 1) c =
    Classes.resolve cfg c from rfl, hok] at herr
  cases herr

/-- **Resolving again.** Once resolving a class gave its options, it gives the same object, and
changes nothing at all, wherever the classes are as they were left; and there a child of the class,
if the options name no element, reads that very object, and making it changes no class and merges
nothing. Once one class of the line has other options, resolving merges the classes below it again,
from the top down, each once. -/
theorem resolve_idempotent {h : History} (hr : Reachable cfg h) {o : Placed Options}
    (hok : (Classes.resolve cfg c).exec h.forest = (.ok o, f)) :
    (∀ g : Forest, g.classes = f.classes → (Classes.resolve cfg c).exec g = (.ok o, g)) ∧
      (o.value.fields.el = none → ∀ (rt : Runtime) (mount : Eng.Mounting) (w : World)
        (parent : InstanceId) (p : Placeholder), rt.config = cfg → w.forest.classes = f.classes →
        p.ctor = c → Eng.Ends (Eng.createChild rt rt.run mount parent p) w fun r w' =>
          w.ChildMade o w.instances.size w' ∧
            (r = .ok w.instances.size ∨ r = .error .outOfFuel)) ∧
      ∀ (a : ClassId) (cs : List ClassId) (h' : History), f.Below a cs c → Reachable cfg h' →
        f.Replaced h'.forest a c → cs.Nodup ∧
          (Classes.resolve cfg c).exec h'.forest =
            (cs.foldlM (fun above b => Classes.remerge cfg b above)
              (h'.forest.get a).options).exec h'.forest ∧
          ∀ o' g', (Classes.resolve cfg c).exec h'.forest = (.ok o', g') →
            Steps cfg (cs.map .remerged) h'.forest g' := by
  obtain ⟨hu, hdeep, ho, hf⟩ := Classes.resolve_upToDate hr hok
  have again : ∀ g : Forest, g.classes = f.classes →
      (Classes.resolve cfg c).exec g = (.ok o, g) := by
    intro g hg
    have hget : ∀ b, g.get b = f.get b := fun b => by
      rw [Forest.get, Forest.get, class?, class?, hg]
    have hug : g.UpToDate c := hu.frame hf fun b _ => hget b
    have hdeepg : ¬g.TooDeep c := fun hd =>
      hdeep ((HasAbove.congr (fun b => congrArg Class.superClass (hget b)) _ c).mp hd)
    rw [ho, ← hget c]
    exact Classes.resolveWithin_upToDate hug hdeepg
  refine ⟨again, ?_, ?_⟩
  · rintro hel rt mount w parent p rfl hw rfl
    refine Eng.createChild_of_resolved rt.calm_run mount parent (again w.forest hw) ?_ hel
    rw [ho, Forest.get, Forest.get, class?, class?, hw]
  · intro a cs h' hb hr' hrep
    have hsuper := hrep.superClass_eq
    have hac := (hb.le hf).1
    have hua : h'.forest.UpToDate a := hrep.upToDate hf hac (hu.above hb)
    have hdeep' : ¬h'.forest.TooDeep c := fun hd => hdeep ((HasAbove.frame hf _ hsuper).mp hd)
    have hbelow : (Classes.resolve cfg c).exec h'.forest = _ :=
      Classes.resolveWithin_below cfg hua (hb.frame hf hsuper) hdeep'
    obtain ⟨hexec, hsteps⟩ :=
      Classes.refresh_replaced cfg hf hr'.grounded hr'.coherent hu hb hrep
    refine ⟨hb.nodup hf, hbelow.trans hexec, fun o' g' h => ?_⟩
    rw [hbelow, hexec] at h
    exact (hsteps o' g' h).1

/-- A named class, and a class under it. -/
def panels : History :=
  ((History.start quietConfig).step quietConfig (.extend rootClass panel)).step quietConfig
    (.extend 1 {})

theorem panels_reachable : Reachable quietConfig panels :=
  .step (.step .refl Nat.one_pos trivial) (show 1 < Forest.size _ by decide +kernel) trivial

/-- The lower class was resolved, and then what all classes start from was given a theme. -/
def panelsThemed : History :=
  (panels.step quietConfig (.resolve 2)).step quietConfig (.mixin darkTheme)

/-- A placeholder for a child of the lower class. -/
def panelHolder : Placeholder := ⟨"v-panel", 2, [], [], []⟩

theorem resolve_idempotent_panels :
    ∃ o f, Reachable quietConfig panels ∧
      (Classes.resolve quietConfig 2).exec panels.forest = (.ok o, f) ∧
      (Classes.resolve quietConfig 2).exec f = (.ok o, f) ∧
      (o.value.fields.el = none ∧
        let rt : Runtime := { config := quietConfig }
        Eng.Ends (Eng.createChild rt rt.run rt.mount 0 panelHolder) { forest := f } fun r w' =>
          World.ChildMade o 0 { forest := f } w' ∧ (r = .ok 0 ∨ r = .error .outOfFuel)) ∧
      f.Below 0 [1, 2] 2 ∧ Reachable quietConfig panelsThemed ∧
      f.Replaced panelsThemed.forest 0 2 ∧
      (Classes.resolve quietConfig 2).exec panelsThemed.forest =
        ([1, 2].foldlM (fun above b => Classes.remerge quietConfig b above)
          (panelsThemed.forest.get 0).options).exec panelsThemed.forest ∧
      ∃ o' g', (Classes.resolve quietConfig 2).exec panelsThemed.forest = (.ok o', g') ∧
        Steps quietConfig [.remerged 1, .remerged 2] panelsThemed.forest g' := by
  obtain ⟨o, f, hok⟩ : ∃ o f, (Classes.resolve quietConfig 2).exec panels.forest = (.ok o, f) :=
    Forging.exec_eq_ok (by decide +kernel)
  obtain ⟨hagain, hchild, hreplaced⟩ := resolve_idempotent panels_reachable hok
  obtain ⟨-, -, ho, -⟩ := Classes.resolve_upToDate panels_reachable hok
  have hstep : (panels.step quietConfig (.resolve 2)).forest = f := by
    show ((do let _ ← Classes.resolve quietConfig 2 : Forging Unit).exec panels.forest).2 = f
    rw [Forging.exec_bind, hok]
    rfl
  have hf : ((Classes.resolve quietConfig 2).exec panels.forest).2 = f := by rw [hok]
  have hresolved : Reachable quietConfig (panels.step quietConfig (.resolve 2)) :=
    .step panels_reachable trivial trivial
  have hthemed : Reachable quietConfig panelsThemed := .step hresolved trivial trivial
  have hel : o.value.fields.el = none := by
    rw [ho, ← hf]
    decide +kernel
  have hbelow : f.Below 0 [1, 2] 2 := by
    have h₁ : (f.get 1).superClass = some 0 := by
      rw [← hf]
      decide +kernel
    have h₂ : (f.get 2).superClass = some 1 := by
      rw [← hf]
      decide +kernel
    exact .under (.under .here h₁) h₂
  have hreplace : f.Replaced panelsThemed.forest 0 2 := by
    have hmixed : panelsThemed.forest = ((Classes.mixin quietConfig 0 darkTheme).exec f).2 := by
      rw [← hstep]
      rfl
    have hmixin : ((Classes.mixin quietConfig 0 darkTheme).exec f).1.isOk = true := by
      rw [← hf]
      decide +kernel
    have hroot : 0 < f.size := hstep ▸ hresolved.grounded.root_lt
    have hyields := Classes.mixin_yields quietConfig hroot darkTheme
    rw [Yields, ← hmixed] at hyields
    rcases hyields with ⟨-, hchange⟩ | ⟨e, he, -⟩
    · exact hchange.replaced (hstep ▸ hresolved.coherent) 2
    · rw [he] at hmixin
      cases hmixin
  obtain ⟨-, hexec, hsteps⟩ := hreplaced 0 [1, 2] panelsThemed hbelow hthemed hreplace
  obtain ⟨o', g', hok'⟩ :
      ∃ o' g', (Classes.resolve quietConfig 2).exec panelsThemed.forest = (.ok o', g') :=
    Forging.exec_eq_ok (by decide +kernel)
  exact ⟨o, f, panels_reachable, hok, hagain f rfl,
    ⟨hel, hchild hel _ _ { forest := f } 0 panelHolder rfl rfl rfl⟩, hbelow, hthemed, hreplace,
    hexec, o', g', hok', hsteps o' g' hok'⟩

end Componentry
