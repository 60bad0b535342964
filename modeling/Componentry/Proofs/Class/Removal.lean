import Componentry.Proofs.Class.Elsewhere
import Componentry.Proofs.Options.Overrides

/-!
# Options that come back

A late edit can take an option away that the definition of a class has set. What is carried over
when the class is merged again are the parts that it has, so that the definition still has the
option, and it comes back.

- `Class.Own`: an option of which a class has a value of its own.
- `Class.own_lasting`: **it stays so** with all that does not edit the class.
- `Op.Removes`: a late edit that takes an option away.
- `removed_value_returns`: **a removed option comes back** when the class is merged again.
- `removed_template_returns`: a template that no other class has, and comes back.
-/

namespace Componentry

open Forest

variable {α : Type} {cfg : Config} {f f' : Forest} {c s : ClassId} {k : Class} {d : Options}
  {x : Override α} {V : α → Prop} {W : Placed Options → Prop}

/-- The definition of a class has a value `V` for an option. So has the class itself, unless its
options are `W`. -/
structure Class.Own (x : Override α) (V : α → Prop) (W : Placed Options → Prop) (k : Class) :
    Prop where
  definition : ∃ v, x.get k.definition = some v ∧ V v
  live : W k.options ∨ ∃ v, x.get k.options.value = some v ∧ V v

/-- A late edit of the class `c` that takes an option away. -/
def Op.Removes (x : Override α) (c : ClassId) (f : Forest) : Op → Prop
  | .edit b es => b = c ∧ x.get (es.foldl Options.edit (f.get c).options.value) = none
  | .replace b o => b = c ∧ x.get o = none
  | _ => False

/-! ## Merging again -/

/-- A value that the definition has is still there when edits were carried over, if no other value
goes there. -/
theorem Class.Own.carried (hW : ∀ p v, W p → x.get p.value = some v → V v) (h : k.Own x V W)
    (hk : Dict.Ordered k.options.value.fields.extra) : ∃ v, x.get k.carried = some v ∧ V v := by
  rw [k.carried_eq]
  rcases x.get_carried hk with heq | ⟨⟨v, hv⟩, heq⟩
  · rw [heq]
    exact h.definition
  · rw [heq, hv]
    refine ⟨v, rfl, ?_⟩
    rcases h.live with hw | ⟨u, hu, hVu⟩
    · exact hW _ v hw hv
    · cases hv.symm.trans hu
      exact hVu

/-- **A value of its own lasts**: merging the class again gives it back. -/
theorem Class.own_lasting (hx : x.Plain cfg) (hW : ∀ p v, W p → x.get p.value = some v → V v)
    (c : ClassId) : Lasting cfg Options.Known c (Class.Own x V W) where
  remerged {f f'} hg hk h hown := by
    obtain ⟨s, w, extra, -, -, -, hextra, hlike, hdef, -⟩ := h.remerged_over fun _ => hg.super_lt
    obtain ⟨v, hv, hVv⟩ := hown.carried hW (hk c trivial).1.here.extra
    have hknown := (Options.known_hereditary cfg).throughout_carried (hk c trivial).1
      (hk c trivial).2.1
    refine ⟨⟨v, hdef.symm ▸ hv, hVv⟩, .inr ⟨v, ?_, hVv⟩⟩
    rw [x.get_unmarked hlike, x.get_withSelf, x.get_joined hx hknown.here.extra hextra, hv]
    rfl
  spoiled _ hk hown := ⟨hown.carried hW (hk _ trivial).1.here.extra, hown.live⟩

/-- A class begins with the value that its definition has. -/
theorem Class.own_begins (hx : x.Plain cfg) (hd : ∃ v, x.get d = some v ∧ V v) :
    Begins cfg Options.Known c s d (Class.Own x V W) := by
  intro f f' hg hk hknown h hc
  subst hc
  obtain ⟨v, hv, hVv⟩ := hd
  cases h with
  | @made _ _ m p hlt hu hm hp ho hs hn =>
    obtain ⟨w, extra, -, hextra, rfl⟩ := Options.mergeResult_eq_ok hm
    have hlike := d.placed_unmarked f.nextMark
    have hordered : Dict.Ordered (d.placed f.nextMark).fields.extra := by
      rw [(Options.agree_of_unmarked hlike).extra]
      exact hknown.here.extra
    have hplaced : x.get (d.placed f.nextMark) = some v := (x.get_unmarked hlike).trans hv
    rw [ho.here, hp]
    refine ⟨⟨v, hplaced, hVv⟩, .inr ⟨v, ?_, hVv⟩⟩
    show x.get (Options.stored _ _).value = some v
    rw [x.get_stored, x.get_withSelf, x.get_joined hx hordered hextra, hplaced]
    rfl

/-! ## Histories -/

theorem History.stems_own {A : Forest → Op → Prop} (hx : x.Plain cfg)
    (hW : ∀ p v, W p → x.get p.value = some v → V v) (hA : ∀ f op, A f op → op.Known f)
    (hev : (∀ f op, A f op → op.Elsewhere c) ∨ ∀ p, W p) {h : History}
    (hr : Runs cfg A (.start cfg) h) (horigin : h.origin c = some (s, d))
    (hd : ∃ v, x.get d = some v ∧ V v) :
    (h.forest.get c).superClass = some s ∧ (h.forest.get c).Own x V W := by
  have hstems := hr.stems (Class.own_lasting hx hW c) (Class.own_begins (s := s) hx hd)
    (Options.known_hereditary cfg) (fun f op ha => (hA f op ha).keeps _)
    (hev.imp_right fun hall k p hown => ⟨hown.definition, .inl (hall p)⟩)
    (History.start_known cfg)
  exact hstems.made horigin

/-- A late edit that takes an option away leaves the definition as it was. -/
theorem Op.Removes.step (cfg : Config) {h : History} {op : Op} (hop : op.Removes x c h.forest)
    (hc : c < h.forest.size) :
    op.Fits h.forest ∧ ∃ p, x.get p.value = none ∧
      (h.step cfg op).forest.get c = (h.forest.get c).revised p := by
  cases op with
  | edit b es =>
    obtain ⟨rfl, hnone⟩ := hop
    obtain ⟨-, p, hp, ho, -⟩ := Classes.editOptions_yields hc (es.foldl Options.edit ·)
    exact ⟨hc, p, by rw [hp, x.get_stored]; exact hnone, ho.here⟩
  | replace b o =>
    obtain ⟨rfl, hnone⟩ := hop
    obtain ⟨-, p, hp, ho, -⟩ := Classes.editOptions_yields hc fun _ => o
    exact ⟨hc, p, by rw [hp, x.get_stored]; exact hnone, ho.here⟩
  | _ => cases hop

/-- **A removed option comes back.** The definition of a class that was made with an option has it
ever after, and with the same value as long as the class is not edited. When a late edit takes the
option away, whatever becomes of other classes then: what resolving gives are the very options that
the edit left, or else they have the value that the definition had before the edit. -/
theorem removed_value_returns (x : Override α) (hx : x.Plain cfg) {h : History}
    (hr : Runs cfg (fun f op => op.Known f) (.start cfg) h) (horigin : h.origin c = some (s, d))
    (hset : x.get d ≠ none) :
    x.get (h.forest.get c).definition ≠ none ∧
    (Runs cfg (fun f op => op.Known f ∧ op.Elsewhere c) (.start cfg) h →
      x.get (h.forest.get c).definition = x.get d) ∧
    ∀ op, op.Removes x c h.forest → op.Known h.forest →
      ∀ h', Runs cfg (fun f op => op.Known f ∧ op.Elsewhere c) (h.step cfg op) h' →
        ∀ o f', (Classes.resolve cfg c).exec h'.forest = (.ok o, f') →
          o = ((h.step cfg op).forest.get c).options ∨
            x.get o.value = x.get (h.forest.get c).definition := by
  obtain ⟨v, hv⟩ := Option.ne_none_iff_exists'.mp hset
  have hg := hr.grounded (History.start_grounded cfg)
  have hk := hr.known (fun _ _ ha => ha) (History.start_grounded cfg) (History.start_known cfg)
  -- some value stays, whatever edits there are
  obtain ⟨hsuper, ⟨u, hu, -⟩, -⟩ := History.stems_own (V := fun _ => True) (W := fun _ => True) hx
    (fun _ _ _ _ => trivial) (fun _ _ ha => ha) (.inr fun _ => trivial) hr horigin ⟨v, hv, trivial⟩
  refine ⟨by rw [hu]; exact Option.some_ne_none u, fun hr' => ?_, fun op hop hknown h' hr' => ?_⟩
  · obtain ⟨-, ⟨w, hw, rfl⟩, -⟩ := History.stems_own (V := (· = v)) (W := fun _ => False) hx
      (fun _ _ hfalse => hfalse.elim) (fun _ _ ha => ha.1) (.inl fun _ _ ha => ha.2) hr' horigin
      ⟨v, hv, rfl⟩
    rw [hw, hv]
  · intro o f' hres
    obtain ⟨hfit, p, hp, hstep⟩ := hop.step cfg (lt_size_of_super hsuper)
    have hr₁ : Runs cfg (fun f op => op.Known f) (.start cfg) (h.step cfg op) :=
      .step hr hfit hknown
    have hg₁ := hr₁.grounded (History.start_grounded cfg)
    have hk₁ := hr₁.known (fun _ _ ha => ha) (History.start_grounded cfg) (History.start_known cfg)
    have hown : ((h.step cfg op).forest.get c).Own x (· = u)
        (· = ((h.step cfg op).forest.get c).options) :=
      ⟨⟨u, by rw [hstep]; exact hu, rfl⟩, .inl rfl⟩
    have L := Class.own_lasting (V := (· = u))
      (W := (· = ((h.step cfg op).forest.get c).options)) hx (fun q w hq hw => ?_) c
    · obtain ⟨-, hlater⟩ := L.later (Options.known_hereditary cfg)
        (fun _ _ ha => ⟨ha.1.keeps _, ha.2⟩) hr' hg₁ hk₁ (by rw [hstep]; exact hsuper) hown
      obtain ⟨rfl, hown'⟩ := hlater o f' hres
      rcases hown'.live with hsame | ⟨w, hw, rfl⟩
      · exact .inl hsame
      · exact .inr (hw.trans hu.symm)
    · -- the options that the edit left have no value
      subst hq
      rw [hstep] at hw
      cases hp.symm.trans hw

/-! ## A template that comes back -/

/-- The text of a template that is given as text. -/
def Options.markup? (o : Options) : Option String :=
  match o.fields.template with
  | some (.markup text) => some text
  | _ => none

/-- A definition with a template, and an option under a name of the author's. -/
def ownTemplate : Options where
  fields := { template := some (.markup "<p>own</p>"), extra := [("flavor", .str "mint")] }

/-- A class with a template. -/
def templated : History :=
  (History.start quietConfig).step quietConfig (.extend rootClass ownTemplate)

/-- Both are taken away from the class. -/
def stripping : Op := .edit 1 [.clear "template", .clear "flavor"]

/-- The options of the class without them. -/
def strippedOptions : Options :=
  [Edit.clear "template", .clear "flavor"].foldl Options.edit
    (templated.forest.get 1).options.value

/-- Something is mixed in that concerns neither. -/
def strippedThemed : History :=
  (templated.step quietConfig stripping).step quietConfig (.mixin darkTheme)

/-- What these histories come to. -/
theorem templated_evaluated :
    templated.forest.size = 2 ∧
    (strippedOptions.fields.template.isNone ∧
      (Dict.get? strippedOptions.fields.extra "flavor").isNone) ∧
    (Classes.resolve quietConfig 1).passes strippedThemed.forest (fun o f' =>
      o.value.markup? == some "<p>own</p>" &&
        (Dict.get? o.value.fields.extra "flavor").isSome &&
        (f'.get 0).options.value.fields.template.isNone &&
        (Dict.get? (f'.get 0).options.value.fields.extra "flavor").isNone) = true := by
  decide +kernel

theorem resolve_strippedThemed :
    ∃ o f', (Classes.resolve quietConfig 1).exec strippedThemed.forest = (.ok o, f') ∧
      o.value.markup? = some "<p>own</p>" ∧
      (Dict.get? o.value.fields.extra "flavor").isSome ∧
      (f'.get 0).options.value.fields.template = none ∧
      Dict.get? (f'.get 0).options.value.fields.extra "flavor" = none := by
  obtain ⟨o, f', hres, htest⟩ := Forging.exec_of_passes templated_evaluated.2.2
  simp only [Bool.and_eq_true, beq_iff_eq, Option.isNone_iff_eq_none, and_assoc] at htest
  exact ⟨o, f', hres, htest⟩

theorem known_ownTemplate (n : Nat) : ownTemplate.Throughout (Options.Known n) := by
  refine Options.throughout_alone ⟨fun x m hm => ?_, ?_, ?_, ?_, ?_⟩ rfl rfl
  · cases x <;> cases hm
  all_goals decide

theorem known_templated :
    Runs quietConfig (fun f op => op.Known f) (.start quietConfig) templated :=
  .step .refl Nat.one_pos (known_ownTemplate _)

theorem origin_templated : templated.origin 1 = some (rootClass, ownTemplate) := by
  have hmade : templated.origins = (History.start quietConfig).origins ++ [_] :=
    History.origins_step_of_lt (by rw [← templated, templated_evaluated.1]; decide)
  rw [History.origin, hmade]
  rfl

theorem known_stripping (f : Forest) : stripping.Known f := by
  intro e he
  rcases List.mem_cons.mp he with rfl | he
  · trivial
  · cases List.mem_singleton.mp he
    trivial

theorem removes_stripping :
    stripping.Removes .template 1 templated.forest ∧
      stripping.Removes (.extra "flavor") 1 templated.forest := by
  obtain ⟨-, ⟨htemplate, hflavor⟩, -⟩ := templated_evaluated
  exact ⟨⟨rfl, Option.isNone_iff_eq_none.mp htemplate⟩,
    ⟨rfl, Option.isNone_iff_eq_none.mp hflavor⟩⟩

theorem themed_elsewhere :
    Runs quietConfig (fun f op => op.Known f ∧ op.Elsewhere 1)
      (templated.step quietConfig stripping) strippedThemed :=
  .step .refl trivial ⟨known_darkTheme _, fun es h => (by cases h), fun o h => by cases h⟩

theorem removed_value_returns_template :
    ∃ o f', (Classes.resolve quietConfig 1).exec strippedThemed.forest = (.ok o, f') ∧
      (o = ((templated.step quietConfig stripping).forest.get 1).options ∨
        o.value.fields.template = (templated.forest.get 1).definition.fields.template) := by
  obtain ⟨o, f', hres, -⟩ := resolve_strippedThemed
  refine ⟨o, f', hres, ?_⟩
  exact (removed_value_returns .template trivial known_templated origin_templated
    (fun h => by cases h)).2.2 stripping removes_stripping.1 (known_stripping _) strippedThemed
    themed_elsewhere o f' hres

/-- **A template that comes back.** A class has a template and an option of its own; its super class
has neither. Both are taken away, then something is mixed in that concerns neither. Once the class
is resolved it has both again. -/
theorem removed_template_returns :
    ∃ (cfg : Config) (h : History) (s c : ClassId) (d mixed : Options) (op : Op)
      (o : Placed Options) (f' : Forest),
      Runs cfg (fun f op => op.Known f) (.start cfg) h ∧ h.origin c = some (s, d) ∧
      op.Removes .template c h.forest ∧ op.Removes (.extra "flavor") c h.forest ∧
      (Classes.resolve cfg c).exec ((h.step cfg op).step cfg (.mixin mixed)).forest = (.ok o, f') ∧
      (f'.get s).options.value.fields.template = none ∧
      Dict.get? (f'.get s).options.value.fields.extra "flavor" = none ∧
      o.value.markup? = d.markup? ∧ d.markup? = some "<p>own</p>" ∧
      (Dict.get? o.value.fields.extra "flavor").isSome := by
  obtain ⟨o, f', hres, hmarkup, hflavor, htemplate, hnone⟩ := resolve_strippedThemed
  exact ⟨quietConfig, templated, rootClass, 1, ownTemplate, darkTheme, stripping, o, f',
    known_templated, origin_templated, removes_stripping.1, removes_stripping.2, hres, htemplate,
    hnone, hmarkup, rfl, hflavor⟩

end Componentry
