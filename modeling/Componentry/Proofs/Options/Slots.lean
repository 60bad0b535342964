import Componentry.Proofs.Options.Edits
import Componentry.Proofs.Options.Handlers
import Componentry.Proofs.Options.Watchers

/-!
# Slots of late edits

A late edit adds a handler, sets an entry or sets a field of options that were merged already. It is
present as long as no other edit is about the same handler, entry or field.

- `Edit.slot`: the handler, the entry or the field that a late edit is about.
- `Edit.In`: the edit is present in options.
- `Edit.in_edit`: an edit is present once it is made.
- `Edit.In.edits`: **edits of other slots keep it**.
-/

namespace Componentry

variable {α β : Type}

/-- What a late edit is about: a field, an entry of a part, or a handler in a list. -/
inductive Slot where
  | name
  | template
  | render
  | delimiters
  | comments
  | isAbstract
  | hook (h : Hook) (id : Mark)
  | errorCaptured (id : Mark)
  | watcher (key : String) (id : Mark)
  | method (name : String)
  | computed (name : String)
  | component (name : String)
  | directive (name : String)
  | filter (name : String)
  | extra (key : String)

/-- The slot of a late edit. Other edits have none: those that take an option away, and those of
data, props, injections, the base and the mixins. -/
def Edit.slot : Edit → Option Slot
  | .name _ => some .name
  | .template _ => some .template
  | .templateNode _ => some .template
  | .render _ => some .render
  | .delimiters _ _ => some .delimiters
  | .comments _ => some .comments
  | .abstract => some .isAbstract
  | .on h f => some (.hook h f.id)
  | .errorCaptured f => some (.errorCaptured f.id)
  | .watch key ⟨.handler f, _⟩ => some (.watcher key f.id)
  | .method key _ => some (.method key)
  | .computed key _ => some (.computed key)
  | .component key _ => some (.component key)
  | .directive key => some (.directive key)
  | .filter key _ => some (.filter key)
  | .custom key _ => some (.extra key)
  | _ => none

/-- A late edit brings in no options. -/
theorem Edit.holds_of_slot {P : Options → Prop} {e : Edit} (h : e.slot ≠ none) : e.Holds P := by
  cases e with
  | mixin o => exact absurd rfl h
  | base o => exact absurd rfl h
  | _ => trivial

/-! ## Presence -/

/-- An entry in the own layer of a part that is a registry. -/
def ownIn (p : Option (Placed (Registry α))) (key : String) : Option α :=
  (valueOf p).bind (·.getOwn? key)

/-- How often the handler that a late edit adds stands in its list. -/
def Edit.times (o : Options) : Edit → Nat
  | .on h f => timesIn f.id (hooksOf o.fields.hooks h)
  | .errorCaptured f => timesIn f.id (handlersOf o.fields.errorCaptured)
  | .watch key w => occurrences w (watchersAt o.fields.watch key)
  | _ => 0

/-- A late edit is present: a handler stands once in its list, an entry or a field has the value
that it was given. Of a definition among the components, only the mark is left out. -/
def Edit.In (o : Options) : Edit → Prop
  | .name s => o.fields.name = some s
  | .template s => o.fields.template = some (.markup s)
  | .templateNode n => o.fields.template = some (.node n)
  | .render f => valueOf o.fields.render = some (.spec f)
  | .delimiters a b => o.fields.delimiters = some (a, b)
  | .comments keep => o.fields.comments = some keep
  | .abstract => o.fields.isAbstract = some true
  | .on h f => timesIn f.id (hooksOf o.fields.hooks h) = 1
  | .errorCaptured f => timesIn f.id (handlersOf o.fields.errorCaptured) = 1
  | .watch key w => w.isFunction = true ∧ occurrences w (watchersAt o.fields.watch key) = 1
  | .method key s => Dict.get? (entriesOf o.fields.methods) key = some s
  | .computed key s => Dict.get? (entriesOf o.fields.computed) key = some s
  | .component key c => (ownIn o.components key).map unmarkedEntry = some (unmarkedEntry c)
  | .directive key => ownIn o.fields.directives key = some ()
  | .filter key e => ownIn o.fields.filters key = some e
  | .custom key v => Dict.get? o.fields.extra key = some v
  | _ => False

/-- Presence does not depend on marks. -/
theorem Edit.In.of_unmarked {e : Edit} {a b : Options} (h : a.unmarked = b.unmarked)
    (hin : e.In a) : e.In b := by
  have hf := Options.fields_unmarked_eq h
  have part : ∀ {α : Type} (read : Fields → Option (Placed α)),
      (∀ f : Fields, read f.unmarked = unmarkedPart (read f)) →
        valueOf (read a.fields) = valueOf (read b.fields) := Fields.valueOf_eq hf
  have plain : ∀ {β : Type} (read : Fields → β), (∀ f : Fields, read f.unmarked = read f) →
      read a.fields = read b.fields := Fields.read_eq hf
  cases e with
  | name s => exact (plain (·.name) fun _ => rfl).symm.trans hin
  | template s => exact (plain (·.template) fun _ => rfl).symm.trans hin
  | templateNode n => exact (plain (·.template) fun _ => rfl).symm.trans hin
  | render f => exact (part (·.render) fun _ => rfl).symm.trans hin
  | delimiters x y => exact (plain (·.delimiters) fun _ => rfl).symm.trans hin
  | comments keep => exact (plain (·.comments) fun _ => rfl).symm.trans hin
  | «abstract» => exact (plain (·.isAbstract) fun _ => rfl).symm.trans hin
  | custom key v =>
    have hextra := plain (·.extra) fun _ => rfl
    rw [Edit.In] at hin ⊢
    rw [← show a.fields.extra = b.fields.extra from hextra]
    exact hin
  | on h f =>
    rw [Edit.In, hooksOf] at hin ⊢
    rw [← part (·.hooks) fun _ => rfl]
    exact hin
  | errorCaptured f =>
    rw [Edit.In, handlersOf] at hin ⊢
    rw [← part (·.errorCaptured) fun _ => rfl]
    exact hin
  | watch key w =>
    rw [Edit.In, watchersAt, entriesOf] at hin ⊢
    rw [← part (·.watch) fun _ => rfl]
    exact hin
  | method name s =>
    rw [Edit.In, entriesOf] at hin ⊢
    rw [← part (·.methods) fun _ => rfl]
    exact hin
  | computed name s =>
    rw [Edit.In, entriesOf] at hin ⊢
    rw [← part (·.computed) fun _ => rfl]
    exact hin
  | directive name =>
    rw [Edit.In, ownIn] at hin ⊢
    rw [← part (·.directives) fun _ => rfl]
    exact hin
  | filter name e =>
    rw [Edit.In, ownIn] at hin ⊢
    rw [← part (·.filters) fun _ => rfl]
    exact hin
  | component name c =>
    have hown : ∀ r : Option (Placed Components),
        ownIn (unmarkedComponents r) name = (ownIn r name).map unmarkedEntry := fun r => by
      cases r with
      | none =>
        rw [unmarkedComponents]
        rfl
      | some r =>
        rw [unmarkedComponents, unmarkedEntries_eq]
        exact Dict.get?_mapValues unmarkedEntry r.value.own name
    rw [Edit.In] at hin ⊢
    rw [← hown, ← Options.unmarked_components, ← h, Options.unmarked_components, hown]
    exact hin
  | _ => cases hin

/-! ## Editing -/

theorem valueOf_editPart (empty : α) (f : α → α) (p : Option (Placed α)) :
    valueOf (editPart empty f p) = some (f ((valueOf p).getD empty)) := by
  cases p <;> rfl

theorem hooksOf_edit (o : Options) (h h' : Hook) (f : Handler) :
    hooksOf (o.edit (.on h f)).fields.hooks h' =
      if h' = h then hooksOf o.fields.hooks h ++ [f] else hooksOf o.fields.hooks h' := by
  show HookMap.handlers ((valueOf (editPart [] (HookMap.add h f) o.fields.hooks)).getD []) h' = _
  rw [valueOf_editPart]
  exact HookMap.handlers_add _ h h' f

theorem handlersOf_edit (o : Options) (f : Handler) :
    handlersOf (o.edit (.errorCaptured f)).fields.errorCaptured =
      handlersOf o.fields.errorCaptured ++ [f] := by
  show (valueOf (editPart [] (· ++ [f]) o.fields.errorCaptured)).getD [] = _
  rw [valueOf_editPart]
  rfl

theorem watchersAt_edit (o : Options) (key key' : String) (w : WatchHandler) :
    watchersAt (o.edit (.watch key w)).fields.watch key' =
      if key' = key then watchersAt o.fields.watch key ++ [w]
      else watchersAt o.fields.watch key' := by
  show (Dict.get? ((valueOf (editPart [] _ o.fields.watch)).getD []) key').getD [] = _
  rw [valueOf_editPart, Option.getD_some, Dict.get?_alter]
  by_cases h : key' = key
  · rw [if_pos h, if_pos h]
    rfl
  · rw [if_neg h, if_neg h]
    rfl

theorem get?_editPart (p : Option (Placed (Dict α))) (key key' : String) (a : α) :
    Dict.get? (entriesOf (editPart [] (Dict.insert key a) p)) key' =
      if key' = key then some a else Dict.get? (entriesOf p) key' := by
  rw [entriesOf, valueOf_editPart, Option.getD_some]
  exact Dict.get?_insert _ key key' a

theorem ownIn_editPart (p : Option (Placed (Registry α))) (key key' : String) (a : α) :
    ownIn (editPart .empty (·.insert key a) p) key' =
      if key' = key then some a else ownIn p key' := by
  rw [ownIn, valueOf_editPart, Option.bind_some]
  show Dict.get? (Dict.insert key a (Registry.own _)) key' = _
  rw [Dict.get?_insert]
  cases p <;> rfl

theorem ownIn_addComponent (o : Options) (key key' : String) (c : ComponentRef Options) :
    ownIn (o.edit (.component key c)).components key' =
      if key' = key then some c else ownIn o.components key' := by
  show Dict.get? (Dict.insert key c (Registry.own _)) key' = _
  rw [Dict.get?_insert]
  cases o.components <;> rfl

/-- Watchers of the same function are interchangeable in a count. -/
theorem WatchHandler.same_of_function {w : WatchHandler} (h : w.isFunction = true) :
    w.same w = true := by
  obtain ⟨cb, imm⟩ := w
  cases cb with
  | handler f => exact beq_self_eq_true f.id
  | method name => cases h

/-- A late edit that adds a watcher adds a function. -/
theorem Edit.isFunction_of_slot {key : String} {w : WatchHandler}
    (h : (Edit.watch key w).slot ≠ none) : w.isFunction = true := by
  obtain ⟨cb, imm⟩ := w
  cases cb with
  | handler f => rfl
  | method name => exact absurd rfl h

/-- **A late edit is present** once it is made. -/
theorem Edit.in_edit {e : Edit} {o : Options} (hs : e.slot ≠ none) (ha : e.times o = 0) :
    e.In (o.edit e) := by
  cases e with
  | on h f =>
    rw [Edit.In, hooksOf_edit, if_pos rfl, timesIn_snoc, show timesIn _ _ = 0 from ha, if_pos rfl]
  | errorCaptured f =>
    rw [Edit.In, handlersOf_edit, timesIn_snoc, show timesIn _ _ = 0 from ha, if_pos rfl]
  | watch key w =>
    have hfun := Edit.isFunction_of_slot hs
    refine ⟨hfun, ?_⟩
    rw [watchersAt_edit, if_pos rfl, occurrences_append, show occurrences _ _ = 0 from ha,
      occurrences_cons, if_pos (WatchHandler.same_of_function hfun)]
    rfl
  | method key s => exact (get?_editPart o.fields.methods key key s).trans (if_pos rfl)
  | computed key s => exact (get?_editPart o.fields.computed key key s).trans (if_pos rfl)
  | component key c => rw [Edit.In, ownIn_addComponent, if_pos rfl, Option.map_some]
  | directive key => exact (ownIn_editPart o.fields.directives key key ()).trans (if_pos rfl)
  | filter key f => exact (ownIn_editPart o.fields.filters key key f).trans (if_pos rfl)
  | custom key v => exact (Dict.get?_insert o.fields.extra key key v).trans (if_pos rfl)
  | name s => rfl
  | template s => rfl
  | templateNode n => rfl
  | render f => rfl
  | delimiters a b => rfl
  | comments keep => rfl
  | «abstract» => rfl
  | _ => exact absurd rfl hs

/-- A late edit that is about another slot leaves the handler of a late edit as often as it
stands there. -/
theorem Edit.times_edit {e e' : Edit} (o : Options) (hs : e'.slot ≠ none)
    (hne : e'.slot ≠ e.slot) : e.times (o.edit e') = e.times o := by
  -- only an edit of the same kind adds to the list, and it adds another handler
  cases e with
  | on h f =>
    cases e' with
    | on h' f' =>
      rw [Edit.times, hooksOf_edit]
      by_cases hh : h = h'
      · subst hh
        have hf : f'.id ≠ f.id := fun hf => hne (by rw [Edit.slot, Edit.slot, hf])
        rw [if_pos rfl, timesIn_snoc, if_neg hf]
        rfl
      · rw [if_neg hh]
        rfl
    | clear key => exact absurd rfl hs
    | _ => rfl
  | errorCaptured f =>
    cases e' with
    | errorCaptured f' =>
      have hf : f'.id ≠ f.id := fun hf => hne (by rw [Edit.slot, Edit.slot, hf])
      rw [Edit.times, handlersOf_edit, timesIn_snoc, if_neg hf]
      rfl
    | clear key => exact absurd rfl hs
    | _ => rfl
  | watch key w =>
    cases e' with
    | watch key' w' =>
      rw [Edit.times, watchersAt_edit]
      by_cases hk : key = key'
      · subst hk
        -- two functions of one identity would be one slot
        have hw : ¬w.same w' = true := fun hsame => by
          obtain ⟨cb, imm⟩ := w
          obtain ⟨cb', imm'⟩ := w'
          cases cb' with
          | method name => exact hs rfl
          | handler g =>
            cases cb with
            | method name => cases hsame
            | handler f =>
              refine hne ?_
              rw [Edit.slot, Edit.slot, show f.id = g.id from eq_of_beq hsame]
        rw [if_pos rfl, occurrences_append, occurrences_cons, if_neg hw]
        rfl
      · rw [if_neg hk]
        rfl
    | clear key => exact absurd rfl hs
    | _ => rfl
  | _ => rfl

/-- **Other edits keep** a late edit: those of another field or entry, or of another handler. -/
theorem Edit.In.edit {e e' : Edit} {o : Options} (hs : e'.slot ≠ none) (hne : e'.slot ≠ e.slot)
    (hin : e.In o) : e.In (o.edit e') := by
  have htimes := Edit.times_edit o hs hne
  -- an edit of another kind does not touch what makes this one present
  cases e' with
  | on h' f' =>
    cases e with
    | on h f => exact htimes.trans hin
    | _ => exact hin
  | errorCaptured f' =>
    cases e with
    | errorCaptured f => exact htimes.trans hin
    | _ => exact hin
  | watch key' w' =>
    cases e with
    | watch key w => exact ⟨hin.1, htimes.trans hin.2⟩
    | _ => exact hin
  | method key' s' =>
    cases e with
    | method key s =>
      have hk : key ≠ key' := fun hk => hne (by rw [Edit.slot, Edit.slot, hk])
      exact (get?_editPart o.fields.methods key' key s').trans ((if_neg hk).trans hin)
    | _ => exact hin
  | computed key' s' =>
    cases e with
    | computed key s =>
      have hk : key ≠ key' := fun hk => hne (by rw [Edit.slot, Edit.slot, hk])
      exact (get?_editPart o.fields.computed key' key s').trans ((if_neg hk).trans hin)
    | _ => exact hin
  | component key' c' =>
    cases e with
    | component key c =>
      have hk : key ≠ key' := fun hk => hne (by rw [Edit.slot, Edit.slot, hk])
      rw [Edit.In, ownIn_addComponent, if_neg hk]
      exact hin
    | _ => exact hin
  | directive key' =>
    cases e with
    | directive key =>
      have hk : key ≠ key' := fun hk => hne (by rw [Edit.slot, Edit.slot, hk])
      exact (ownIn_editPart o.fields.directives key' key ()).trans ((if_neg hk).trans hin)
    | _ => exact hin
  | filter key' f' =>
    cases e with
    | filter key f =>
      have hk : key ≠ key' := fun hk => hne (by rw [Edit.slot, Edit.slot, hk])
      exact (ownIn_editPart o.fields.filters key' key f').trans ((if_neg hk).trans hin)
    | _ => exact hin
  | custom key' v' =>
    cases e with
    | custom key v =>
      have hk : key ≠ key' := fun hk => hne (by rw [Edit.slot, Edit.slot, hk])
      exact (Dict.get?_insert o.fields.extra key' key v').trans ((if_neg hk).trans hin)
    | _ => exact hin
  | name s' =>
    cases e with
    | name s => exact absurd rfl hne
    | _ => exact hin
  | template s' =>
    cases e with
    | template s => exact absurd rfl hne
    | templateNode n => exact absurd rfl hne
    | _ => exact hin
  | templateNode n' =>
    cases e with
    | template s => exact absurd rfl hne
    | templateNode n => exact absurd rfl hne
    | _ => exact hin
  | render f' =>
    cases e with
    | render f => exact absurd rfl hne
    | _ => exact hin
  | delimiters a' b' =>
    cases e with
    | delimiters a b => exact absurd rfl hne
    | _ => exact hin
  | comments keep' =>
    cases e with
    | comments keep => exact absurd rfl hne
    | _ => exact hin
  | «abstract» =>
    cases e with
    | «abstract» => exact absurd rfl hne
    | _ => exact hin
  | _ => exact absurd rfl hs

/-- Late edits that leave a late edit alone: none is about its slot. -/
def Edit.Spares (e e' : Edit) : Prop := e'.slot ≠ none ∧ e'.slot ≠ e.slot

theorem Edit.In.edits {e : Edit} {es : List Edit} (hes : ∀ e' ∈ es, e.Spares e') {o : Options}
    (hin : e.In o) : e.In (es.foldl Options.edit o) := by
  induction es generalizing o with
  | nil => exact hin
  | cons e' rest ih =>
    obtain ⟨hs, hne⟩ := hes e' List.mem_cons_self
    exact ih (fun e'' he'' => hes e'' (List.mem_cons_of_mem _ he'')) (hin.edit hs hne)

theorem Edit.times_edits {e : Edit} {es : List Edit} (hes : ∀ e' ∈ es, e.Spares e')
    (o : Options) : e.times (es.foldl Options.edit o) = e.times o := by
  induction es generalizing o with
  | nil => rfl
  | cons e' rest ih =>
    obtain ⟨hs, hne⟩ := hes e' List.mem_cons_self
    exact (ih (fun e'' he'' => hes e'' (List.mem_cons_of_mem _ he'')) (o.edit e')).trans
      (Edit.times_edit o hs hne)

end Componentry
