import Componentry.Proofs.Options.Agree
import Componentry.Proofs.Options.LateEdits

/-!
# Options that override

Some options are one value: that of the child takes the place of that of the parent. What an author
puts among the options under a name of his own is such a value too, unless there is a strategy for
it.

- `Override`: these options.
- `Override.get_joined`: **merging** takes the value of the child, if it has one.
- `Override.get_carried`: carrying edits over takes no value away.
-/

namespace Componentry

variable {α : Type} {cfg : Config}

/-- The options that override as a whole. -/
inductive Override : Type → Type where
  | name : Override String
  | template : Override TemplateSource
  | render : Override RenderBody
  | el : Override MountTarget
  | delimiters : Override (String × String)
  | comments : Override Bool
  | isAbstract : Override Bool
  | extra (key : String) : Override Json.Value

/-- The value that options have. -/
def Override.get : Override α → Options → Option α
  | .name, o => o.fields.name
  | .template, o => o.fields.template
  | .render, o => valueOf o.fields.render
  | .el, o => o.fields.el
  | .delimiters, o => o.fields.delimiters
  | .comments, o => o.fields.comments
  | .isAbstract, o => o.fields.isAbstract
  | .extra key, o => Dict.get? o.fields.extra key

/-- No strategy says how the option is merged. -/
def Override.Plain (cfg : Config) : Override α → Prop
  | .extra key => Dict.get? cfg.strategies key = none
  | _ => True

theorem Override.get_unmarked (x : Override α) {a b : Options} (h : a.unmarked = b.unmarked) :
    x.get a = x.get b := by
  have hagree := Options.agree_of_unmarked h
  cases x with
  | name => exact hagree.name
  | template => exact hagree.template
  | render => exact hagree.render
  | el => exact hagree.el
  | delimiters => exact hagree.delimiters
  | comments => exact hagree.comments
  | isAbstract => exact hagree.isAbstract
  | extra key => exact congrArg (Dict.get? · key) hagree.extra

theorem Override.get_stored (x : Override α) (o : Options) (n : Nat) :
    x.get (o.stored n).value = x.get o :=
  x.get_unmarked (o.placed_unmarked n)

theorem Override.get_withSelf (x : Override α) (o : Options) (name : Option String) (c : ClassId) :
    x.get (o.withSelf name c) = x.get o := by
  cases name <;> cases x <;> rfl

/-- **Merging** takes the value of the child, or else that of the parent. -/
theorem Override.get_joined (x : Override α) (hx : x.Plain cfg) {w c : Options}
    {extra : Dict Json.Value} (hc : Dict.Ordered c.fields.extra)
    (hextra : extraOver cfg w.fields.extra c.fields.extra = .ok extra) :
    x.get (w.joined c extra) = (x.get c <|> x.get w) := by
  cases x with
  | render =>
    show valueOf (c.fields.render <|> w.fields.render) = _
    cases hr : c.fields.render with
    | none =>
      rw [Override.get, hr]
      rfl
    | some r =>
      rw [Override.get, hr]
      rfl
  | extra key => exact get?_extraOver_eq hx hextra hc
  | _ => rfl

/-- An extra option that is carried is the one that was there, or a live one. -/
theorem get?_overlay_changedExtra_or {d live kept : Dict Json.Value} (hlive : Dict.Ordered live)
    (key : String) :
    Dict.get? (Dict.overlay d (changedExtra live kept)) key = Dict.get? d key ∨
      (∃ v, Dict.get? live key = some v) ∧
        Dict.get? (Dict.overlay d (changedExtra live kept)) key = Dict.get? live key := by
  have hchanged : Dict.Ordered (changedExtra live kept) := Dict.ordered_filter hlive _
  rw [Dict.get?_overlay hchanged, changedExtra, Dict.get?_filter hlive]
  cases Dict.get? live key with
  | none => exact .inl rfl
  | some v =>
    rw [Option.filter_some]
    split_ifs
    · exact .inr ⟨⟨v, rfl⟩, rfl⟩
    · exact .inl rfl

/-- **Carrying** takes no value away: there is the value that was there, or a live one. -/
theorem Override.get_carried (x : Override α) {live kept d : Options}
    (hlive : Dict.Ordered live.fields.extra) :
    x.get (d.carry (live.changes kept)) = x.get d ∨
      (∃ v, x.get live = some v) ∧ x.get (d.carry (live.changes kept)) = x.get live := by
  -- the same for each field, read off by a function of it
  have field : ∀ {β : Type} (same : Bool) (l p : Option β) (read : Option β → Option α),
      read none = none → (∀ b, ∃ v, read (some b) = some v) →
      read (unlessSame same l <|> p) = read p ∨
        (∃ v, read l = some v) ∧ read (unlessSame same l <|> p) = read l := by
    intro β same l p read hnone hsome
    cases l with
    | none => cases same <;> exact .inl rfl
    | some b =>
      cases same with
      | true => exact .inl rfl
      | false => exact .inr ⟨hsome b, rfl⟩
  cases x with
  | render => exact field _ _ _ valueOf rfl fun r => ⟨r.value, rfl⟩
  | extra key => exact get?_overlay_changedExtra_or hlive key
  | _ => exact field _ _ _ id rfl fun b => ⟨b, rfl⟩

end Componentry
