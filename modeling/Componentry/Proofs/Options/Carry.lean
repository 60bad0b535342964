import Componentry.Options.Change
import Componentry.Class.Basic
import Componentry.Proofs.Dict
import Componentry.Proofs.Options.Place

/-!
# Carrying edits over

When a class is merged again, every part of its options that is not the one it was merged to goes
into its definition, in place of what was there.

- `Options.changes`: the parts that are not those of the copy that was kept.
- `Class.carried_eq`: **what becomes of a definition**, part by part.
- `Options.carry_changes_self`: nothing changes where nothing was edited.
-/

namespace Componentry

open Json (Value)

variable {α : Type}

/-- A part of the options, unless it is the one that was kept. -/
def unlessSame (same : Bool) (live : Option α) : Option α := if same then none else live

/-- The parts of `live` that are not those of `kept`. -/
def Options.changes (live kept : Options) : Options where
  fields := {
    name := unlessSame (live.fields.name == kept.fields.name) live.fields.name
    data := unlessSame (sameSource live.fields.data kept.fields.data) live.fields.data
    props := unlessSame (Placed.sameOption live.fields.props kept.fields.props) live.fields.props
    computed := unlessSame (Placed.sameOption live.fields.computed kept.fields.computed)
      live.fields.computed
    methods := unlessSame (Placed.sameOption live.fields.methods kept.fields.methods)
      live.fields.methods
    watch := unlessSame (Placed.sameOption live.fields.watch kept.fields.watch) live.fields.watch
    inject := unlessSame (Placed.sameOption live.fields.inject kept.fields.inject)
      live.fields.inject
    provide := unlessSame (sameSource live.fields.provide kept.fields.provide) live.fields.provide
    hooks := unlessSame (Placed.sameOption live.fields.hooks kept.fields.hooks) live.fields.hooks
    errorCaptured := unlessSame
      (Placed.sameOption live.fields.errorCaptured kept.fields.errorCaptured)
      live.fields.errorCaptured
    directives := unlessSame (Placed.sameOption live.fields.directives kept.fields.directives)
      live.fields.directives
    filters := unlessSame (Placed.sameOption live.fields.filters kept.fields.filters)
      live.fields.filters
    template := unlessSame
      (sameOptional TemplateSource.same live.fields.template kept.fields.template)
      live.fields.template
    render := unlessSame (Placed.sameOption live.fields.render kept.fields.render)
      live.fields.render
    staticRenderFns := unlessSame
      (Placed.sameOption live.fields.staticRenderFns kept.fields.staticRenderFns)
      live.fields.staticRenderFns
    el := unlessSame (live.fields.el == kept.fields.el) live.fields.el
    delimiters := unlessSame (live.fields.delimiters == kept.fields.delimiters)
      live.fields.delimiters
    comments := unlessSame (live.fields.comments == kept.fields.comments) live.fields.comments
    isAbstract := unlessSame (live.fields.isAbstract == kept.fields.isAbstract)
      live.fields.isAbstract
    extra := changedExtra live.fields.extra kept.fields.extra }
  components := unlessSame (Placed.sameOption live.components kept.components) live.components
  mixins := unlessSame (Placed.sameOption live.mixins kept.mixins) live.mixins
  base := unlessSame (Placed.sameOption live.base kept.base) live.base

/-- Of two parts, the one carried is the edited one or the one that was there. -/
theorem unlessSame_or (same : Bool) (live d : Option α) :
    (unlessSame same live <|> d) = live ∨ (unlessSame same live <|> d) = d := by
  cases same with
  | true => exact .inr rfl
  | false =>
    cases live with
    | none => exact .inr rfl
    | some a => exact .inl rfl

theorem unlessSame_of_not_changed {same : Bool} {live : Option α}
    (h : (changedIf same live).2 = false) : unlessSame same live = none := by
  cases same with
  | true => rfl
  | false => cases h

theorem changedIf_fst (same : Bool) (live : Option α) :
    (changedIf same live).1 = unlessSame same live := by
  cases same <;> rfl

/-- Nothing is carried where no part was edited. -/
theorem Options.carry_none (o : Options) : o.carry {} = o := by
  cases o
  rfl

/-- The edited parts are carried, whether there are any or not. -/
theorem Options.carry_changesSince (live kept d : Options) :
    (match live.changesSince kept with
      | some changes => d.carry changes
      | none => d) = d.carry (live.changes kept) := by
  unfold Options.changesSince
  dsimp only
  split
  · rename_i changes h
    split at h
    · obtain rfl := Option.some.inj h
      simp only [changedIf_fst]
      rfl
    · cases h
  · rename_i h
    split at h
    · cases h
    · rename_i hsame
      simp only [List.any_cons, List.any_nil, Bool.or_false, id, Bool.or_eq_true, not_or,
        Bool.not_eq_true, Bool.not_eq_false', List.isEmpty_iff] at hsame
      have hnone : live.changes kept = {} := by
        rw [Options.changes]
        simp only [unlessSame_of_not_changed, hsame]
      rw [hnone, Options.carry_none]

/-- **What becomes of a definition** when its class is merged again. -/
theorem Class.carried_eq (k : Class) :
    k.carried = k.definition.carry (k.options.value.changes k.sealed.value) :=
  Options.carry_changesSince k.options.value k.sealed.value k.definition

/-! ## Nothing edited -/

mutual

theorem Json.Value.same_refl : ∀ v : Value, v.same v = true
  | .null => by rw [Value.same]
  | .bool b => by rw [Value.same, beq_self_eq_true]
  | .num n => by
    rw [Value.same]
    cases n with
    | int n => exact beq_self_eq_true n
    | double bits => simp [Number.same]
  | .str s => by rw [Value.same, beq_self_eq_true]
  | .arr items => by
    rw [Value.same]
    exact Json.Value.sameItems_refl items
  | .obj fields => by
    rw [Value.same]
    exact Json.Value.sameFields_refl fields

theorem Json.Value.sameItems_refl : ∀ vs : List Value, Value.sameItems vs vs = true
  | [] => by rw [Value.sameItems]
  | v :: rest => by
    rw [Value.sameItems, Json.Value.same_refl v, Json.Value.sameItems_refl rest, Bool.true_and]

theorem Json.Value.sameFields_refl : ∀ fs : List (String × Value), Value.sameFields fs fs = true
  | [] => by rw [Value.sameFields]
  | (k, v) :: rest => by
    rw [Value.sameFields, Json.Value.same_refl v, Json.Value.sameFields_refl rest,
      beq_self_eq_true, Bool.true_and, Bool.true_and]

end

theorem TemplateSource.same_refl (t : TemplateSource) : t.same t = true := by
  cases t with
  | markup s => exact beq_self_eq_true s
  | node n => exact beq_self_eq_true n
  | invalid v => exact v.same_refl

/-- A stored part is the same object as itself. -/
theorem Placed.sameOption_self {p : Option (Placed α)} (h : markOf p ≠ some none) :
    Placed.sameOption p p = true := by
  cases p with
  | none => rfl
  | some p =>
    obtain ⟨m, v⟩ := p
    cases m with
    | none => exact absurd rfl h
    | some m => exact beq_self_eq_true m

theorem sameSource_self {p : Option (Placed DataSource)} (h : markOf p ≠ some none) :
    sameSource p p = true := by
  cases p with
  | none => rfl
  | some p =>
    have hs := Placed.sameOption_self h
    rw [Placed.sameOption] at hs
    rw [sameSource, sameOptional, hs, beq_self_eq_true, Bool.true_and]

theorem changedExtra_self {d : Dict Value} (h : Dict.Ordered d) : changedExtra d d = [] := by
  refine List.filter_eq_nil_iff.mpr fun e he => ?_
  rw [Dict.get?_of_mem h (show (e.1, e.2) ∈ d from he)]
  simp [Json.Value.same_refl]

/-- Every part has a mark. -/
def Options.Marked (o : Options) : Prop := ∀ x, o.markAt x ≠ some none

theorem Options.marked_stored (o : Options) (n : Nat) : (o.stored n).value.Marked := by
  intro x hx
  have hs := (o.placedAs n).stamped x
  rw [show (o.placed n).markAt x = some none from hx] at hs
  generalize o.markAt x = a at hs
  cases hs

/-- Options that were not edited leave a definition as it was. -/
theorem Options.carry_changes_self {o : Options} (hm : o.Marked)
    (he : Dict.Ordered o.fields.extra) (d : Options) : d.carry (o.changes o) = d := by
  have htemplate : sameOptional TemplateSource.same o.fields.template o.fields.template = true := by
    cases o.fields.template with
    | none => rfl
    | some t => exact t.same_refl
  have hnone : o.changes o = {} := by
    rw [Options.changes, sameSource_self (hm .data), Placed.sameOption_self (hm .props),
      Placed.sameOption_self (hm .computed), Placed.sameOption_self (hm .methods),
      Placed.sameOption_self (hm .watch), Placed.sameOption_self (hm .inject),
      sameSource_self (hm .provide), Placed.sameOption_self (hm .hooks),
      Placed.sameOption_self (hm .errorCaptured), Placed.sameOption_self (hm .directives),
      Placed.sameOption_self (hm .filters), Placed.sameOption_self (hm .render),
      Placed.sameOption_self (hm .staticRenderFns), Placed.sameOption_self (hm .components),
      Placed.sameOption_self (hm .mixins), Placed.sameOption_self (hm .base), htemplate,
      changedExtra_self he]
    simp only [beq_self_eq_true, unlessSame, if_true]
  rw [hnone, Options.carry_none]

end Componentry
