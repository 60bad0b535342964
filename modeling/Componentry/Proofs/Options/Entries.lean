import Componentry.Proofs.Options.Agree
import Componentry.Proofs.Options.LateEdits

/-!
# Entries

Methods, computed values, props and injections are overlaid by name when options are merged. So an
entry of the child hides that of the parent, and all other entries of the parent shine through.

- `Entries`: the four parts, each with what its entries are.
- `Entries.get?_joined`: **an entry of merged options**.
- `Entries.of_carried`: what becomes of the entries of a definition.
- `Options.Declared`: names of props and injections as merging leaves them.
- `Options.declared_hereditary`, `Options.Declared.edit`: **operations and edits keep them**.
-/

namespace Componentry

variable {α β : Type} {cfg : Config}

/-- The parts that are overlaid entry by entry. -/
inductive Entries : Type → Type where
  | methods : Entries Script
  | computed : Entries Script
  | props : Entries PropOptions
  | inject : Entries InjectOptions

/-- The entries of a part; declarations are read in their normal form. -/
def Entries.of : Entries α → Options → Dict α
  | .methods, o => entriesOf o.fields.methods
  | .computed, o => entriesOf o.fields.computed
  | .props, o => o.propsMap
  | .inject, o => o.injectMap

def Entries.part : Entries α → Part
  | .methods => .methods
  | .computed => .computed
  | .props => .props
  | .inject => .inject

/-- The options have the part, and it is not the one that was kept. -/
def Entries.Edited (x : Entries α) (live kept : Options) : Prop :=
  live.markAt x.part ≠ none ∧ live.Apart kept x.part

/-! ## Where entries come from -/

theorem Entries.of_unmarked (x : Entries α) {a b : Options} (h : a.unmarked = b.unmarked) :
    x.of a = x.of b := by
  have hagree := Options.agree_of_unmarked h
  cases x with
  | methods => exact congrArg (Option.getD · []) hagree.methods
  | computed => exact congrArg (Option.getD · []) hagree.computed
  | props => exact hagree.props
  | inject => exact hagree.inject

theorem Entries.of_withSelf (x : Entries α) (o : Options) (name : Option String) (c : ClassId) :
    x.of (o.withSelf name c) = x.of o := by
  cases name <;> cases x <;> rfl

/-- A part that is carried is the live one if that is there and not the one that was kept. -/
theorem unlessSame_or_edited {same : Bool} {live d : Option β} (h : live ≠ none)
    (hs : same = false) : (unlessSame same live <|> d) = live := by
  subst hs
  cases live with
  | none => exact absurd rfl h
  | some l => rfl

theorem unlessSame_or_unedited {same : Bool} {live d : Option β}
    (h : ¬(live ≠ none ∧ same = false)) : (unlessSame same live <|> d) = d := by
  cases live with
  | none => cases same <;> rfl
  | some l =>
    cases same with
    | true => rfl
    | false => exact absurd ⟨fun h => (by cases h), rfl⟩ h

/-- **Carrying**: an edited part takes the place of that of the definition, with all its entries. -/
theorem Entries.of_carried (x : Entries α) (live kept d : Options) :
    (x.Edited live kept → x.of (d.carry (live.changes kept)) = x.of live) ∧
      (¬x.Edited live kept → x.of (d.carry (live.changes kept)) = x.of d) := by
  have missing : ∀ {γ : Type} {p : Option (Placed γ)}, markOf p ≠ none ↔ p ≠ none := fun {_ p} => by
    cases p <;> simp [markOf]
  -- the same for each part, read off by a function of it
  have both : ∀ {γ : Type} (l k p : Option (Placed γ)) (r : Option (Placed γ) → Dict α),
      (markOf l ≠ none ∧ sameMarks (markOf l) (markOf k) = false →
        r (unlessSame (Placed.sameOption l k) l <|> p) = r l) ∧
      (¬(markOf l ≠ none ∧ sameMarks (markOf l) (markOf k) = false) →
        r (unlessSame (Placed.sameOption l k) l <|> p) = r p) := by
    intro γ l k p r
    rw [missing, ← Placed.sameOption_eq]
    exact ⟨fun h => congrArg r (unlessSame_or_edited h.1 h.2),
      fun h => congrArg r (unlessSame_or_unedited h)⟩
  cases x with
  | methods => exact both _ _ _ entriesOf
  | computed => exact both _ _ _ entriesOf
  | props =>
    exact both live.fields.props kept.fields.props d.fields.props
      fun p => Options.propsMap { fields := { props := p } }
  | inject =>
    exact both live.fields.inject kept.fields.inject d.fields.inject
      fun p => Options.injectMap { fields := { inject := p } }

/-! ## Names of props and injections -/

/-- The names of props stay what they are when they are made camel names once more. -/
def Options.Camel (o : Options) : Prop :=
  ∀ key po, Dict.get? o.propsMap key = some po → Text.camelize key = key

/-- The names of declarations last: those of props, if it is them that one looks at, and those of
injections ascend. -/
structure Options.Declared (x : Entries α) (o : Options) : Prop where
  props : x.part = .props → o.Camel
  inject : Dict.Ordered o.injectMap

theorem Dict.ordered_ofList (es : List (String × α)) : Dict.Ordered (Dict.ofList es) :=
  Dict.ordered_overlay Dict.ordered_nil es

theorem Options.ordered_propsMap (o : Options) : Dict.Ordered o.propsMap := by
  rw [Options.propsMap]
  split
  · rename_i p _
    cases p.value with
    | names ns => exact Dict.ordered_ofList _
    | keyed ps => exact Dict.ordered_ofList _
  · exact Dict.ordered_nil

/-- Props under camel names are in their normal form. -/
theorem PropsDecl.get?_keyed {d : Dict PropOptions} (hd : Dict.Ordered d)
    (h : ∀ key po, Dict.get? d key = some po → Text.camelize key = key) (key : String) :
    Dict.get? (PropsDecl.keyed d).normalized key = Dict.get? d key := by
  have hmap : d.map (fun p => (Text.camelize p.1, p.2)) = d := by
    refine (List.map_congr_left fun p hp => ?_).trans (List.map_id d)
    rw [h p.1 p.2 (Dict.get?_of_mem hd hp)]
    rfl
  rw [PropsDecl.normalized, hmap, Dict.ofList, Dict.get?_overlay hd]
  cases Dict.get? d key <;> rfl

/-- A declaration over another is one that is keyed, with the entries of both. -/
theorem Options.declarations_joined (w c : Options) (extra : Dict Json.Value) :
    (w.joined c extra).propsMap =
        (if c.fields.props.isSome then
          (PropsDecl.keyed (Dict.overlay w.propsMap c.propsMap)).normalized
        else w.propsMap) ∧
      (w.joined c extra).injectMap =
        if c.fields.inject.isSome then Dict.overlay w.injectMap c.injectMap else w.injectMap := by
  have hprops : ∀ p : Option (Placed PropsDecl), p = c.fields.props →
      (w.joined c extra).fields.props =
        mergeDecls PropsDecl.normalized .keyed w.fields.props p := fun p h => h ▸ rfl
  have hinject : ∀ p : Option (Placed InjectDecl), p = c.fields.inject →
      (w.joined c extra).fields.inject =
        mergeDecls InjectDecl.normalized .keyed w.fields.inject p := fun p h => h ▸ rfl
  refine ⟨?_, ?_⟩
  · rw [Options.propsMap, Options.propsMap, Options.propsMap, hprops _ rfl]
    cases c.fields.props with
    | none => rw [mergeDecls]; rfl
    | some cp => cases w.fields.props <;> rfl
  · rw [Options.injectMap, Options.injectMap, Options.injectMap, hinject _ rfl]
    cases c.fields.inject with
    | none => rw [mergeDecls]; rfl
    | some ci => cases w.fields.inject <;> rfl

theorem get?_propsMap_joined {w c : Options} {extra : Dict Json.Value} (hw : w.Camel)
    (hc : c.Camel) (key : String) :
    Dict.get? (w.joined c extra).propsMap key =
      (Dict.get? c.propsMap key <|> Dict.get? w.propsMap key) := by
  have hordered := c.ordered_propsMap
  rw [(w.declarations_joined c extra).1]
  split
  · have hunion := Dict.ordered_overlay w.ordered_propsMap c.propsMap
    rw [PropsDecl.get?_keyed hunion, Dict.get?_overlay hordered]
    -- every name of the overlay comes from one of the two
    intro k po hk
    rw [Dict.get?_overlay hordered] at hk
    cases hck : Dict.get? c.propsMap k with
    | some po' => exact hc k po' hck
    | none =>
      rw [hck] at hk
      exact hw k po hk
  · rename_i h
    rw [Options.propsMap_eq c, Option.not_isSome_iff_eq_none.mp h]
    rfl

theorem get?_injectMap_joined {w c : Options} {extra : Dict Json.Value}
    (hc : Dict.Ordered c.injectMap) (key : String) :
    Dict.get? (w.joined c extra).injectMap key =
      (Dict.get? c.injectMap key <|> Dict.get? w.injectMap key) := by
  rw [(w.declarations_joined c extra).2]
  split
  · exact Dict.get?_overlay hc w.injectMap key
  · rename_i h
    rw [Options.injectMap_eq c, Option.not_isSome_iff_eq_none.mp h]
    rfl

/-- **An entry of merged options**: that of the child, or else that of the parent. -/
theorem Entries.get?_joined (x : Entries α) {n : Nat} {w c : Options} {extra : Dict Json.Value}
    (hk : c.Known n) (hw : w.Declared x) (hc : c.Declared x) (key : String) :
    Dict.get? (x.of (w.joined c extra)) key =
      (Dict.get? (x.of c) key <|> Dict.get? (x.of w) key) := by
  cases x with
  | methods => exact get?_mergeParts_eq hk.methods key
  | computed => exact get?_mergeParts_eq hk.computed key
  | props => exact get?_propsMap_joined (hw.props rfl) (hc.props rfl) key
  | inject => exact get?_injectMap_joined hc.inject key

namespace Options.Declared

variable {x : Entries α} {o o' p c m live d : Options}

theorem of_maps (h : o.Declared x) (hp : o'.propsMap = o.propsMap)
    (hi : o'.injectMap = o.injectMap) : o'.Declared x := by
  refine ⟨fun hx => ?_, ?_⟩
  · rw [Options.Camel, hp]
    exact h.props hx
  · rw [hi]
    exact h.inject

theorem layered (hp : p.Declared x) (hc : c.Declared x) (h : Options.over cfg p c = .ok m) :
    m.Declared x := by
  obtain ⟨extra, -, rfl⟩ := Options.over_eq_ok h
  refine ⟨fun hx key po hget => ?_, ?_⟩
  · rw [get?_propsMap_joined (hp.props hx) (hc.props hx)] at hget
    cases hck : Dict.get? c.propsMap key with
    | some po' => exact hc.props hx key po' hck
    | none =>
      rw [hck] at hget
      exact hp.props hx key po hget
  · rw [(p.declarations_joined c extra).2]
    split
    · exact Dict.ordered_overlay hp.inject _
    · exact hp.inject

theorem carried (kept : Options) (hl : live.Declared x) (hd : d.Declared x) :
    (d.carry (live.changes kept)).Declared x := by
  have either : ∀ {β : Type} (y : Entries β),
      y.of (d.carry (live.changes kept)) = y.of live ∨
        y.of (d.carry (live.changes kept)) = y.of d := fun y => by
    obtain ⟨hedited, hunedited⟩ := y.of_carried live kept d
    exact (Classical.em (y.Edited live kept)).imp hedited hunedited
  refine ⟨fun hx => ?_, ?_⟩
  · rw [Options.Camel]
    rcases either .props with h | h
    · rw [show Options.propsMap _ = _ from h]
      exact hl.props hx
    · rw [show Options.propsMap _ = _ from h]
      exact hd.props hx
  · rcases either .inject with h | h
    · rw [show Options.injectMap _ = _ from h]
      exact hl.inject
    · rw [show Options.injectMap _ = _ from h]
      exact hd.inject

end Options.Declared

theorem Options.declared_empty (x : Entries α) : Options.Declared x {} :=
  ⟨fun _ _ _ h => (by cases h), Dict.ordered_nil⟩

/-- **Operations keep** the names of declarations. -/
theorem Options.declared_hereditary (cfg : Config) (x : Entries α) :
    Hereditary cfg fun _ => Options.Declared x where
  empty _ := Options.declared_empty x
  mono _ h := h
  placed h hp := h.of_maps (Entries.of_unmarked .props hp.unmarked)
    (Entries.of_unmarked .inject hp.unmarked)
  layered := Options.Declared.layered
  carried kept := Options.Declared.carried kept
  addComponent _ _ h := h.of_maps rfl rfl
  named _ h := h.of_maps rfl rfl
  asMerged h := h.of_maps rfl rfl

/-! ## Edits -/

/-- An edit that declares props declares them under names that have a camel name once for all. -/
def Edit.Camel : Edit → Prop
  | .props keys => ∀ key ∈ keys, Text.camelize (Text.camelize key) = Text.camelize key
  | .prop key _ => Text.camelize (Text.camelize key) = Text.camelize key
  | _ => True

theorem Fields.clear_declarations (f : Fields) (key : String) :
    ((f.clear key).props = f.props ∨ (f.clear key).props = none) ∧
      (f.clear key).inject = f.inject := by
  rw [Fields.clear]
  split_ifs <;> simp

/-- Clearing a part leaves the declarations as they are, or drops the props. -/
theorem Options.maps_clear (o : Options) (key : String) :
    ((o.edit (.clear key)).propsMap = o.propsMap ∨ (o.edit (.clear key)).propsMap = []) ∧
      (o.edit (.clear key)).injectMap = o.injectMap := by
  rw [Options.edit]
  split
  · exact ⟨.inl rfl, rfl⟩
  · obtain ⟨hp, hi⟩ := o.fields.clear_declarations key
    simp only [Options.propsMap_eq, Options.injectMap_eq, Options.mapFields]
    refine ⟨hp.imp (fun h => ?_) fun h => ?_, ?_⟩
    · rw [h]
    · rw [h]
      rfl
    · rw [hi]

theorem Dict.mem_of_get?_ofList {es : List (String × α)} {key : String} {a : α}
    (h : Dict.get? (Dict.ofList es) key = some a) : ∃ e ∈ es, e.1 = key := by
  by_contra hno
  rw [Dict.ofList, Dict.get?_overlay_of_not_mem _ _ _ fun e he heq => hno ⟨e, he, heq⟩] at h
  cases h

theorem Options.Camel.edit {o : Options} {e : Edit} (h : o.Camel) (he : e.Camel) :
    (o.edit e).Camel := by
  cases e with
  | props names =>
    intro key po hget
    obtain ⟨p, hp, rfl⟩ := Dict.mem_of_get?_ofList hget
    obtain ⟨name, hname, rfl⟩ := List.mem_map.mp hp
    exact he name hname
  | prop name po =>
    have hstable : ∀ key po', Dict.get? (Dict.insert (Text.camelize name) po o.propsMap) key =
        some po' → Text.camelize key = key := by
      intro key po' hget
      rw [Dict.get?_insert] at hget
      split at hget
      · rename_i hkey
        rw [hkey]
        exact he
      · exact h key po' hget
    intro key po' hget
    refine hstable key po' ?_
    rw [← hget]
    exact (PropsDecl.get?_keyed (Dict.ordered_insert o.ordered_propsMap _ _) hstable key).symm
  | clear key =>
    rcases (o.maps_clear key).1 with hp | hp
    · rwa [Options.Camel, hp]
    · rw [Options.Camel, hp]
      exact fun _ _ h => (by cases h)
  | _ => exact h

theorem Options.ordered_injectMap_edit {o : Options} {e : Edit} (h : Dict.Ordered o.injectMap) :
    Dict.Ordered (o.edit e).injectMap := by
  cases e with
  | inject names => exact Dict.ordered_ofList _
  | injectFrom key source default => exact Dict.ordered_insert h _ _
  | clear key => rwa [(o.maps_clear key).2]
  | _ => exact h

/-- **Edits keep** the names of declarations. -/
theorem Options.Declared.edit {x : Entries α} {o : Options} {e : Edit} (h : o.Declared x)
    (he : x.part = .props → e.Camel) : (o.edit e).Declared x :=
  ⟨fun hx => (h.props hx).edit (he hx), Options.ordered_injectMap_edit h.inject⟩

end Componentry
