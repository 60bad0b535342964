import Componentry.Proofs.Class.Everywhere

/-!
# What happens elsewhere

Operations that edit other classes only have one effect on a class: it may be merged again, when it
or a class under it is resolved. What merging the class again keeps, they all keep.

- `Op.Elsewhere`: an operation that is no edit of a class.
- `Lasting`: a property of one class that merging it again keeps.
- `Lasting.later`: **operations elsewhere keep it**, and so does resolving.
- `Runs.stems`: **what a class begins with lasts**, if operations elsewhere are all there are.
- `Classes.resolve_remerged`: a class that is merged again when it is resolved.
-/

namespace Componentry

open Forest

variable {cfg : Config} {f f' : Forest} {c s : ClassId} {P : Nat → Options → Prop}
  {Q : Class → Prop}

/-- An operation that is no edit of the class `c`. -/
structure Op.Elsewhere (c : ClassId) (op : Op) : Prop where
  edit : ∀ es, op ≠ .edit c es
  replace : ∀ o, op ≠ .replace c o

/-- A property of the class `c` that merging the class again keeps, also where that fails, if all
options have `P`. -/
structure Lasting (cfg : Config) (P : Nat → Options → Prop) (c : ClassId) (Q : Class → Prop) :
    Prop where
  remerged : ∀ {f f' : Forest}, f.Grounded → f.Everywhere (fun _ => True) P →
    Change cfg f f' (.remerged c) → Q (f.get c) → Q (f'.get c)
  spoiled : ∀ {f : Forest} (above : Placed Options), f.Everywhere (fun _ => True) P →
    Q (f.get c) → Q ((f.get c).spoiled above)

namespace Lasting

/-- An event keeps what lasts, unless it is an edit of the class that does not. -/
theorem change (L : Lasting cfg P c Q) {ev : Event} (h : Change cfg f f' ev) (hg : f.Grounded)
    (he : f.Everywhere (fun _ => True) P) (hc : c < f.size)
    (hev : (∀ r, ev ≠ .revised c r) ∨ ∀ k p, Q k → Q (k.revised p)) (hq : Q (f.get c)) :
    Q (f'.get c) := by
  have hchange := h
  -- what is left to show if the class is as it was
  have unchanged : f'.get c = f.get c → Q (f'.get c) := fun hsame => hsame ▸ hq
  cases h with
  | aside hquiet => exact unchanged (hquiet.get c)
  | founded _ ho _ _ => exact unchanged (ho.there c (Nat.ne_of_lt hc))
  | made _ _ _ _ ho _ _ => exact unchanged (ho.there c (Nat.ne_of_lt hc))
  | @revised b r _ _ _ _ _ _ ho _ _ =>
    by_cases hcb : c = b
    · subst hcb
      rw [ho.here]
      exact hev.elim (fun hne => absurd rfl (hne r)) fun hrevised => hrevised _ _ hq
    · exact unchanged (ho.there c hcb)
  | @spoiled b t err hb hu hcur hm ho hs hn =>
    by_cases hcb : c = b
    · subst hcb
      rw [ho.here]
      exact L.spoiled _ he hq
    · exact unchanged (ho.there c hcb)
  | @remerged b t m p hb hu hcur hm hp ho hs hn =>
    by_cases hcb : c = b
    · subst hcb
      exact L.remerged hg he hchange hq
    · exact unchanged (ho.there c hcb)

theorem steps (L : Lasting cfg P c Q) (H : Hereditary cfg P) {evs : List Event}
    (h : Steps cfg evs f f') (hg : f.Grounded) (he : f.Everywhere (fun _ => True) P)
    (hc : c < f.size) (hev : ∀ ev ∈ evs, ∀ r, ev ≠ .revised c r)
    (hk : ∀ ev ∈ evs, ∀ n size, f.nextMark ≤ n → f.size ≤ size →
      ev.Keeps (fun _ => True) P n size)
    (hq : Q (f.get c)) : Q (f'.get c) := by
  induction h with
  | nil f => exact hq
  | @cons ev evs f g f' hchange _ ih =>
    have hmem : ∀ ev' ∈ evs, ev' ∈ ev :: evs := fun ev' h => List.mem_cons_of_mem _ h
    have hkeep := hk ev List.mem_cons_self _ _ (Nat.le_refl _) (Nat.le_refl _)
    refine ih (hchange.grounded hg)
      (hchange.everywhere H (fun _ _ _ _ => trivial) hg.super_lt hkeep he)
      (Nat.lt_of_lt_of_le hc hchange.size_le) (fun ev' h => hev ev' (hmem ev' h)) ?_
      (L.change hchange hg he hc (.inl (hev ev List.mem_cons_self)) hq)
    intro ev' h n size hn hs
    exact hk ev' (hmem ev' h) n size (Nat.le_trans hchange.nextMark_le hn)
      (Nat.le_trans hchange.size_le hs)

/-- **Operations elsewhere keep** what lasts. -/
theorem runs (L : Lasting cfg P c Q) (H : Hereditary cfg P) {A : Forest → Op → Prop}
    (hA : ∀ f op, A f op → op.Keeps (fun _ => True) P f ∧ op.Elsewhere c) {h h' : History}
    (hr : Runs cfg A h h') (hg : h.forest.Grounded) (he : h.forest.Everywhere (fun _ => True) P)
    (hsuper : (h.forest.get c).superClass = some s) (hq : Q (h.forest.get c)) :
    c < h'.forest.size ∧ Q (h'.forest.get c) := by
  have hroot := hg.ne_root hsuper
  have hc : c < h.forest.size := lt_size_of_super hsuper
  induction hr with
  | refl => exact ⟨hc, hq⟩
  | @step h₁ op hr₁ hfit hop ih =>
    obtain ⟨hc₁, hq₁⟩ := ih
    obtain ⟨hkeeps, helse⟩ := hA _ _ hop
    have hg₁ := hr₁.grounded hg
    have he₁ := hr₁.everywhere H (fun _ _ _ _ => trivial) (fun f op ha => (hA f op ha).1) hg he
    obtain ⟨evs, hsteps, hevs, -⟩ := History.step_events cfg hg₁ hfit
    refine ⟨?_, L.steps H hsteps hg₁ he₁ hc₁ (fun ev hev => ?_) (fun ev hev => ?_) hq₁⟩
    · rw [hsteps.size_eq]
      exact Nat.lt_of_lt_of_le hc₁ (Nat.le_add_right _ _)
    · exact (hevs ev hev).ne_revised hroot helse.edit helse.replace
    · exact hkeeps ev (hevs ev hev)

/-- Resolving keeps what lasts, and gives the options of a class that has it. -/
theorem resolve (L : Lasting cfg P c Q) (H : Hereditary cfg P) (hg : f.Grounded)
    (he : f.Everywhere (fun _ => True) P) (hc : c < f.size) (hq : Q (f.get c)) :
    Yields (Classes.resolve cfg c) f fun r f' =>
      ∀ o, r = .ok o → o = (f'.get c).options ∧ Q (f'.get c) := by
  refine (Classes.resolve_yields cfg hg c).imp fun r f' ⟨⟨evs, hsteps, hevs⟩, hok⟩ o hr => ?_
  refine ⟨(hok o hr).1, ?_⟩
  exact L.steps H hsteps hg he hc (fun ev hev => (hevs ev hev).ne_revised)
    (fun ev hev _ _ _ _ => (hevs ev hev).keeps _ _) hq

/-- **What lasts is there later**, in the class and in what resolving gives. -/
theorem later (L : Lasting cfg P c Q) (H : Hereditary cfg P) {A : Forest → Op → Prop}
    (hA : ∀ f op, A f op → op.Keeps (fun _ => True) P f ∧ op.Elsewhere c) {h h' : History}
    (hr : Runs cfg A h h') (hg : h.forest.Grounded) (he : h.forest.Everywhere (fun _ => True) P)
    (hsuper : (h.forest.get c).superClass = some s) (hq : Q (h.forest.get c)) :
    Q (h'.forest.get c) ∧ ∀ o f', (Classes.resolve cfg c).exec h'.forest = (.ok o, f') →
      o = (f'.get c).options ∧ Q (f'.get c) := by
  obtain ⟨hc', hq'⟩ := L.runs H hA hr hg he hsuper hq
  refine ⟨hq', fun o f' hres => ?_⟩
  have he' := hr.everywhere H (fun _ _ _ _ => trivial) (fun f op ha => (hA f op ha).1) hg he
  have hresolved := L.resolve H (hr.grounded hg) he' hc' hq'
  rw [Yields, hres] at hresolved
  exact hresolved o rfl

end Lasting

/-! ## From the making of a class on -/

/-- The class `c`, if it was made under `s` of the definition `d`, has a property. -/
structure Forest.Stems (f : Forest) (os : List (Option (ClassId × Options))) (c s : ClassId)
    (d : Options) (Q : Class → Prop) : Prop where
  length : os.length = f.size
  made : originAt os c = some (s, d) → (f.get c).superClass = some s ∧ Q (f.get c)

/-- A class that is made under `s` of the definition `d` has a property. -/
def Begins (cfg : Config) (P : Nat → Options → Prop) (c s : ClassId) (d : Options)
    (Q : Class → Prop) : Prop :=
  ∀ {f f' : Forest}, f.Grounded → f.Everywhere (fun _ => True) P → d.Throughout (P f.nextMark) →
    Change cfg f f' (.made s d) → f.size = c → Q (f'.get c)

/-- No event puts a class under another one. -/
theorem Change.superClass_eq {ev : Event} (h : Change cfg f f' ev) (hc : c < f.size) :
    (f'.get c).superClass = (f.get c).superClass := by
  cases h with
  | aside hq => rw [hq.get]
  | founded _ ho _ _ => rw [ho.there c (Nat.ne_of_lt hc)]
  | made _ _ _ _ ho _ _ => rw [ho.there c (Nat.ne_of_lt hc)]
  | revised _ _ _ ho _ _ => exact ho.superClass_eq rfl c
  | remerged _ _ _ _ _ ho _ _ => exact ho.superClass_eq rfl c
  | spoiled _ _ _ _ ho _ _ => exact ho.superClass_eq rfl c

section

variable {d : Options} {os : List (Option (ClassId × Options))}

/-- The class that an event makes is the last one. -/
theorem Change.made_of_origin {ev : Event} (h : Change cfg f f' ev) (hlen : os.length = f.size)
    (hc : f.size ≤ c) (ho : originAt (os ++ ev.origin?.toList) c = some (s, d)) :
    c = f.size ∧ ev = .made s d := by
  have hlt := lt_length_of_originAt ho
  -- without a new class, there is no class of the number
  have none : ev.origin? = .none → c = f.size ∧ ev = .made s d := fun hnone => by
    rw [hnone, Option.toList_none, List.append_nil, hlen] at hlt
    exact absurd hlt (Nat.not_lt.mpr hc)
  have last : ∀ x, ev.origin? = some x → c = f.size ∧ x = some (s, d) := fun x hx => by
    rw [hx, Option.toList_some] at hlt ho
    rw [List.length_append, hlen] at hlt
    obtain rfl : c = f.size := Nat.le_antisymm (Nat.le_of_lt_succ hlt) hc
    rw [← hlen, originAt_length] at ho
    exact ⟨rfl, ho⟩
  cases h with
  | aside _ => exact none rfl
  | revised _ _ _ _ _ _ => exact none rfl
  | remerged _ _ _ _ _ _ _ _ => exact none rfl
  | spoiled _ _ _ _ _ _ _ => exact none rfl
  | founded _ _ _ _ => cases (last _ rfl).2
  | made _ _ _ _ _ _ _ =>
    obtain ⟨hlast, hx⟩ := last _ rfl
    cases hx
    exact ⟨hlast, rfl⟩

theorem Change.stems (L : Lasting cfg P c Q) (B : Begins cfg P c s d Q) {ev : Event}
    (h : Change cfg f f' ev) (hg : f.Grounded) (he : f.Everywhere (fun _ => True) P)
    (hk : ev.Keeps (fun _ => True) P f.nextMark f.size)
    (hev : (c ≠ rootClass → ∀ r, ev ≠ .revised c r) ∨ ∀ k p, Q k → Q (k.revised p))
    (hf : f.Stems os c s d Q) : f'.Stems (os ++ ev.origin?.toList) c s d Q where
  length := by
    rw [(Steps.single h).size_eq, List.length_append, hf.length]
    cases ev with
    | founded o => rfl
    | made t d' => rfl
    | _ => rfl
  made ho := by
    by_cases hc : c < f.size
    · rw [originAt_append_of_lt (hf.length.symm ▸ hc)] at ho
      obtain ⟨hsuper, hq⟩ := hf.made ho
      refine ⟨(h.superClass_eq hc).trans hsuper, L.change h hg he hc (hev.imp_left ?_) hq⟩
      exact fun hne => hne (hg.ne_root hsuper)
    · obtain ⟨rfl, rfl⟩ := h.made_of_origin hf.length (Nat.le_of_not_lt hc) ho
      refine ⟨?_, B hg he (hk trivial) h rfl⟩
      cases h with
      | made _ _ _ _ hnew _ _ => rw [hnew.here]

theorem Steps.stems (L : Lasting cfg P c Q) (B : Begins cfg P c s d Q) (H : Hereditary cfg P)
    {evs : List Event} (h : Steps cfg evs f f') (hg : f.Grounded)
    (he : f.Everywhere (fun _ => True) P)
    (hk : ∀ ev ∈ evs, ∀ n size, f.nextMark ≤ n → f.size ≤ size →
      ev.Keeps (fun _ => True) P n size)
    (hev : (c ≠ rootClass → ∀ ev ∈ evs, ∀ r, ev ≠ .revised c r) ∨ ∀ k p, Q k → Q (k.revised p))
    (hf : f.Stems os c s d Q) : f'.Stems (os ++ evs.filterMap Event.origin?) c s d Q := by
  induction h generalizing os with
  | nil f =>
    rw [List.filterMap_nil, List.append_nil]
    exact hf
  | @cons ev evs f g f' hchange _ ih =>
    have hmem : ∀ ev' ∈ evs, ev' ∈ ev :: evs := fun ev' h => List.mem_cons_of_mem _ h
    have hkeep := hk ev List.mem_cons_self _ _ (Nat.le_refl _) (Nat.le_refl _)
    have hnext := hchange.stems L B hg he hkeep
      (hev.imp_left fun hne hc => hne hc ev List.mem_cons_self) hf
    have hrest := ih (hchange.grounded hg)
      (hchange.everywhere H (fun _ _ _ _ => trivial) hg.super_lt hkeep he)
      (fun ev' h n size hn hs => hk ev' (hmem ev' h) n size (Nat.le_trans hchange.nextMark_le hn)
        (Nat.le_trans hchange.size_le hs))
      (hev.imp_left fun hne hc ev' h => hne hc ev' (hmem ev' h)) hnext
    rw [List.append_assoc] at hrest
    rw [Event.origins_cons]
    exact hrest

/-- **What a class begins with lasts**, if it is not edited, or edits keep it as well. -/
theorem Runs.stems (L : Lasting cfg P c Q) (B : Begins cfg P c s d Q) (H : Hereditary cfg P)
    {A : Forest → Op → Prop} (hA : ∀ f op, A f op → op.Keeps (fun _ => True) P f)
    (hev : (∀ f op, A f op → op.Elsewhere c) ∨ ∀ k p, Q k → Q (k.revised p)) {h : History}
    (hr : Runs cfg A (.start cfg) h)
    (he : (History.start cfg).forest.Everywhere (fun _ => True) P) :
    h.forest.Stems h.origins c s d Q := by
  induction hr with
  | refl =>
    refine ⟨rfl, fun ho => ?_⟩
    cases c with
    | zero => cases ho
    | succ c => cases ho
  | @step h₁ op hr₁ hfit hop ih =>
    have hg₁ := hr₁.grounded (History.start_grounded cfg)
    have he₁ := hr₁.everywhere H (fun _ _ _ _ => trivial) hA (History.start_grounded cfg) he
    obtain ⟨evs, hsteps, hevs, horigins⟩ := History.step_events cfg hg₁ hfit
    rw [horigins]
    refine hsteps.stems L B H hg₁ he₁ (fun ev hev => hA _ _ hop ev (hevs ev hev)) ?_ ih
    refine hev.imp_left fun helse hc ev hmem => ?_
    exact (hevs ev hmem).ne_revised hc (helse _ _ hop).edit (helse _ _ hop).replace

end

/-- A class that is resolved is as it was, or it is merged again, where all options still have a
hereditary property. -/
theorem Classes.resolve_remerged (H : Hereditary cfg P) (hg : f.Grounded)
    (he : f.Everywhere (fun _ => True) P) (c : ClassId) :
    Yields (Classes.resolve cfg c) f fun r f' => ∀ o, r = .ok o →
      f'.get c = f.get c ∧ o = (f.get c).options ∨
        ∃ g : Forest, g.Grounded ∧ g.Everywhere (fun _ => True) P ∧ g.get c = f.get c ∧
          Change cfg g f' (.remerged c) ∧ o = (f'.get c).options := by
  refine (Classes.resolve_in_turn cfg hg c).imp fun r f' h o ho => (h o ho).imp id ?_
  rintro ⟨g, evs, hsteps, hevs, hlast⟩
  exact ⟨g, hsteps.grounded hg, hsteps.everywhere H (fun _ _ _ _ => trivial) hg
    (fun ev hev _ _ _ _ => (hevs ev hev).keeps _ _) he, hlast⟩

end Componentry
