import Componentry.Proofs.Options.Known

/-!
# Edits

An edit changes one option. Where the option is a part with a mark, the edit makes a new part, which
has no mark until it is stored.

- `Edit.part`: the part that an edit makes anew.
- `Options.markAt_edit`: **other parts stay the same objects**.
- `Edit.Holds`: a property of the options that an edit brings in.
- `Options.Known.edit`: edits keep options known.
-/

namespace Componentry

open Json (Value)

/-- The part that an edit makes anew or takes away. -/
def Edit.part : Edit → Option Part
  | .data _ => some .data
  | .dataRecord _ => some .data
  | .provide _ => some .provide
  | .props _ => some .props
  | .prop _ _ => some .props
  | .computed _ _ => some .computed
  | .method _ _ => some .methods
  | .watch _ _ => some .watch
  | .inject _ => some .inject
  | .injectFrom _ _ _ => some .inject
  | .on _ _ => some .hooks
  | .errorCaptured _ => some .errorCaptured
  | .component _ _ => some .components
  | .directive _ => some .directives
  | .filter _ _ => some .filters
  | .mixin _ => some .mixins
  | .base _ => some .base
  | .render _ => some .render
  | .staticRender _ => some .staticRenderFns
  | .clear key =>
    if key = "data" then some .data
    else if key = "components" then some .components
    else if key = "hooks" then some .hooks
    else if key = "watch" then some .watch
    else if key = "props" then some .props
    else none
  | _ => none

/-- A part that is taken away is missing; all others stay. -/
theorem Options.markAt_clear (o : Options) (key : String) (x : Part) :
    (o.edit (.clear key)).markAt x =
      if (Edit.clear key).part = some x then none else o.markAt x := by
  rw [Options.edit]
  by_cases hc : key = "components"
  · subst hc
    cases x <;> rfl
  rw [if_neg hc, Edit.part, Options.mapFields, Fields.clear]
  by_cases hn : key = "name"
  · subst hn
    cases x <;> rfl
  rw [if_neg hn]
  by_cases hd : key = "data"
  · subst hd
    cases x <;> rfl
  rw [if_neg hd, if_neg hd, if_neg hc]
  by_cases ht : key = "template"
  · subst ht
    cases x <;> rfl
  rw [if_neg ht]
  by_cases hh : key = "hooks"
  · subst hh
    cases x <;> rfl
  rw [if_neg hh, if_neg hh]
  by_cases hw : key = "watch"
  · subst hw
    cases x <;> rfl
  rw [if_neg hw, if_neg hw]
  by_cases hp : key = "props"
  · subst hp
    cases x <;> rfl
  rw [if_neg hp, if_neg hp]
  cases x <;> rfl

/-- **Other parts stay** the same objects. -/
theorem Options.markAt_edit_of_ne (o : Options) {e : Edit} {x : Part} (h : e.part ≠ some x) :
    (o.edit e).markAt x = o.markAt x := by
  cases e with
  | clear key => rw [Options.markAt_clear, if_neg h]
  | _ =>
    cases x <;> first
      | rfl
      | exact absurd rfl h

/-- A part that is made anew has no mark yet. -/
theorem Options.markAt_edit_part (o : Options) {e : Edit} {x : Part} (h : e.part = some x) :
    (o.edit e).markAt x = some none ∨ (o.edit e).markAt x = none := by
  cases e with
  | clear key => exact .inr (by rw [Options.markAt_clear, if_pos h])
  | _ => cases h <;> exact .inl rfl

/-! ## Options that an edit brings in -/

/-- A property of the options that an edit brings in as a base or a mixin. -/
def Edit.Holds (P : Options → Prop) : Edit → Prop
  | .mixin o => o.Throughout P
  | .base o => o.Throughout P
  | _ => True

theorem allThroughout_append {P : Options → Prop} {os : List Options} (h : AllThroughout P os)
    {o : Options} (ho : o.Throughout P) : AllThroughout P (os ++ [o]) := by
  induction os with
  | nil =>
    rw [List.nil_append, AllThroughout, AllThroughout]
    exact ⟨ho, trivial⟩
  | cons o' rest ih =>
    rw [AllThroughout] at h
    rw [List.cons_append, AllThroughout]
    exact ⟨h.1, ih h.2⟩

theorem Options.Inside.edit {P : Options → Prop} {o : Options} {e : Edit} (h : o.Inside P)
    (he : e.Holds P) : (o.edit e).Inside P := by
  cases e with
  | mixin m =>
    refine ⟨h.1, ?_⟩
    show MixinsThroughout P (editPart [] (· ++ [m]) o.mixins)
    have hm := h.2
    cases hms : o.mixins with
    | none =>
      show MixinsThroughout P (some ⟨none, [] ++ [m]⟩)
      rw [MixinsThroughout]
      exact allThroughout_append (by rw [AllThroughout]; trivial) he
    | some ms =>
      rw [hms, MixinsThroughout] at hm
      show MixinsThroughout P (some ⟨none, ms.value ++ [m]⟩)
      rw [MixinsThroughout]
      exact allThroughout_append hm he
  | base b =>
    refine ⟨?_, h.2⟩
    show BaseThroughout P (some (.new b))
    rw [Placed.new, BaseThroughout]
    exact he
  | clear key =>
    rw [Options.edit]
    split <;> exact h
  | _ => exact h

theorem Options.Inside.edits {P : Options → Prop} {es : List Edit} {o : Options} (h : o.Inside P)
    (hes : ∀ e ∈ es, e.Holds P) : (es.foldl Options.edit o).Inside P := by
  induction es generalizing o with
  | nil => exact h
  | cons e rest ih =>
    exact ih (h.edit (hes e List.mem_cons_self)) fun e' he' => hes e' (List.mem_cons_of_mem _ he')

/-! ## Known options -/

theorem ordered_editPart {α : Type} {f : Dict α → Dict α} {p : Option (Placed (Dict α))}
    (hf : ∀ d, Dict.Ordered d → Dict.Ordered (f d)) (h : Dict.Ordered (entriesOf p)) :
    Dict.Ordered (entriesOf (editPart [] f p)) := by
  cases p with
  | none => exact hf [] Dict.ordered_nil
  | some p => exact hf p.value h

/-- The dictionaries that stay when something is taken away. -/
theorem Fields.clear_cases (f : Fields) (key : String) :
    (f.clear key).computed = f.computed ∧ (f.clear key).methods = f.methods ∧
      ((f.clear key).watch = f.watch ∨ (f.clear key).watch = none) ∧
      ((f.clear key).extra = f.extra ∨ (f.clear key).extra = Dict.erase key f.extra) := by
  rw [Fields.clear]
  split_ifs <;> simp

theorem Options.Known.edit {n : Nat} {o : Options} (h : o.Known n) (e : Edit) :
    (o.edit e).Known n := by
  have hmarks : ∀ x m, (o.edit e).markAt x = some (some m) → m < n := by
    intro x m hm
    by_cases hx : e.part = some x
    · rcases o.markAt_edit_part hx with h' | h' <;> rw [h'] at hm <;> cases hm
    · rw [o.markAt_edit_of_ne hx] at hm
      exact h.marks x m hm
  cases e with
  | computed name s =>
    exact ⟨hmarks, ordered_editPart (fun d hd => Dict.ordered_insert hd name s) h.computed,
      h.methods, h.watch, h.extra⟩
  | method name s =>
    exact ⟨hmarks, h.computed, ordered_editPart (fun d hd => Dict.ordered_insert hd name s)
      h.methods, h.watch, h.extra⟩
  | watch key w =>
    exact ⟨hmarks, h.computed, h.methods,
      ordered_editPart (fun d hd => Dict.ordered_alter hd key _) h.watch, h.extra⟩
  | custom key v =>
    exact ⟨hmarks, h.computed, h.methods, h.watch, Dict.ordered_insert h.extra key v⟩
  | clear key =>
    refine ⟨hmarks, ?_, ?_, ?_, ?_⟩
    all_goals
      rw [Options.edit]
      split
    · exact h.computed
    · exact (o.fields.clear_cases key).1 ▸ h.computed
    · exact h.methods
    · exact (o.fields.clear_cases key).2.1 ▸ h.methods
    · exact h.watch
    · rcases (o.fields.clear_cases key).2.2.1 with hw | hw
      · exact hw ▸ h.watch
      · show Dict.Ordered (entriesOf (o.fields.clear key).watch)
        rw [hw]
        exact Dict.ordered_nil
    · exact h.extra
    · rcases (o.fields.clear_cases key).2.2.2 with he | he
      · exact he ▸ h.extra
      · show Dict.Ordered (o.fields.clear key).extra
        rw [he]
        exact Dict.ordered_erase h.extra key
  | _ => exact ⟨hmarks, h.computed, h.methods, h.watch, h.extra⟩

/-! ## Seeing an edit -/

/-- Whether two parts are both missing or one object, by their marks. -/
def sameMarks : Option (Option Mark) → Option (Option Mark) → Bool
  | some (some m), some (some n) => m == n
  | none, none => true
  | _, _ => false

theorem Placed.sameOption_eq {α : Type} (p q : Option (Placed α)) :
    Placed.sameOption p q = sameMarks (markOf p) (markOf q) := by
  cases p with
  | none => cases q <;> rfl
  | some p =>
    cases q with
    | none =>
      obtain ⟨m, v⟩ := p
      cases m <;> rfl
    | some q =>
      obtain ⟨m, v⟩ := p
      obtain ⟨m', v'⟩ := q
      cases m <;> cases m' <;> rfl

/-- **An edit is seen**: a part that is made anew is none of those known before, once it is
stored. -/
theorem Options.sameMarks_stored {o kept : Options} {n : Nat} {x : Part}
    (h : o.markAt x = some none) (hk : kept.Known n) :
    sameMarks ((o.stored n).value.markAt x) (kept.markAt x) = false := by
  have hs := (o.placedAs n).stamped x
  rw [h] at hs
  show sameMarks ((o.placed n).markAt x) (kept.markAt x) = false
  generalize (o.placed n).markAt x = a at hs
  cases hs with
  | given m hn hn' =>
    cases hb : kept.markAt x with
    | none => rfl
    | some mark =>
      cases mark with
      | none => rfl
      | some m' =>
        have hlt := hk.marks x m' hb
        exact beq_false_of_ne (fun hm => by rw [hm] at hn; exact Nat.not_lt.mpr hn hlt)

/-- A part stays one that is made anew under edits that do not take it away. -/
theorem Options.markAt_edits {x : Part} {es : List Edit} {o : Options}
    (hclear : ∀ e ∈ es, e.part = some x → ∀ o : Options, (o.edit e).markAt x = some none)
    (h : o.markAt x = some none ∨ ∃ e ∈ es, e.part = some x) :
    (es.foldl Options.edit o).markAt x = some none := by
  induction es generalizing o with
  | nil =>
    rcases h with h | ⟨e, he, -⟩
    · exact h
    · cases he
  | cons e rest ih =>
    refine ih (fun e' he' => hclear e' (List.mem_cons_of_mem _ he')) ?_
    by_cases hx : e.part = some x
    · exact .inl (hclear e List.mem_cons_self hx o)
    · rcases h with h | ⟨e', he', hx'⟩
      · exact .inl ((o.markAt_edit_of_ne hx).trans h)
      · rcases List.mem_cons.mp he' with rfl | he'
        · exact absurd hx' hx
        · exact .inr ⟨e', he', hx'⟩

end Componentry
