import Componentry.Proofs.Options.Slots

/-!
# Late edits

When a class is merged again, the parts of its options that are not those that were kept go into its
definition, and that is merged over the options of the super class. A late edit stays present
through all of it, if it is seen or the definition has it already.

- `Edit.Moved`: the edit is seen, compared with the options that were kept.
- `Edit.In.carried`: **carrying keeps it**.
- `Edit.In.joined`: **merging keeps it**, and the child's side wins.
- `Edit.In.withSelf`, `Edit.In.stored`: so do the last steps of merging a class again.
-/

namespace Componentry

open Json (Value)

variable {α β : Type} {cfg : Config}

/-! ## Seeing an edit -/

/-- A part is not the object that was kept. -/
def Options.Apart (live kept : Options) (x : Part) : Prop :=
  sameMarks (live.markAt x) (kept.markAt x) = false

/-- Options that were kept do not have the value that an edit gives to a field without a mark. -/
def Edit.Differs (kept : Options) : Edit → Prop
  | .name s => kept.fields.name ≠ some s
  | .template s => sameOptional TemplateSource.same (some (.markup s)) kept.fields.template = false
  | .templateNode n =>
    sameOptional TemplateSource.same (some (.node n)) kept.fields.template = false
  | .delimiters a b => kept.fields.delimiters ≠ some (a, b)
  | .comments keep => kept.fields.comments ≠ some keep
  | .abstract => kept.fields.isAbstract ≠ some true
  | .custom key v => ∀ v', Dict.get? kept.fields.extra key = some v' → v.same v' = false
  | _ => False

/-- A late edit is seen: its part is another object than the one that was kept, or its value differs
from the one that was kept. -/
def Edit.Moved (live kept : Options) (e : Edit) : Prop :=
  match e.part with
  | some x => live.Apart kept x
  | none => e.Differs kept

/-- The part of a late edit is made anew. -/
theorem Edit.markAt_late {e : Edit} {x : Part} (hs : e.slot ≠ none) (hx : e.part = some x)
    (o : Options) : (o.edit e).markAt x = some none := by
  cases e with
  | clear key => exact absurd rfl hs
  | _ => cases hx <;> rfl

/-- A part that has moved stays so under late edits. -/
theorem Options.Apart.edits {live kept : Options} {x : Part} {es : List Edit} {n : Nat}
    (h : live.Apart kept x) (hes : ∀ e ∈ es, e.slot ≠ none) (hkept : kept.Known n)
    (hlive : live.Marked) : ((es.foldl Options.edit live).stored n).value.Apart kept x := by
  by_cases hx : ∃ e ∈ es, e.part = some x
  · refine Options.sameMarks_stored (Options.markAt_edits (fun e he hx o => ?_) (.inr hx)) hkept
    exact Edit.markAt_late (hes e he) hx o
  · have hsame : (es.foldl Options.edit live).markAt x = live.markAt x := by
      clear h hes hlive
      induction es generalizing live with
      | nil => rfl
      | cons e rest ih =>
        rw [List.foldl_cons, ih fun ⟨e', he', hx'⟩ => hx ⟨e', List.mem_cons_of_mem _ he', hx'⟩]
        exact live.markAt_edit_of_ne fun hx' => hx ⟨e, List.mem_cons_self, hx'⟩
    have hst := ((es.foldl Options.edit live).placedAs n).stamped x
    rw [hsame] at hst
    show sameMarks (((es.foldl Options.edit live).placed n).markAt x) (kept.markAt x) = false
    rw [Options.Apart] at h
    have hm := hlive x
    generalize ((es.foldl Options.edit live).placed n).markAt x = b at hst ⊢
    generalize live.markAt x = a at hst h hm
    cases hst with
    | absent => exact h
    | kept m => exact h
    | given m hn hn' => exact absurd rfl hm

/-- A late edit that is seen stays so. -/
theorem Edit.Moved.edits {e : Edit} {live kept : Options} {es : List Edit} {n : Nat}
    (h : e.Moved live kept) (hes : ∀ e' ∈ es, e'.slot ≠ none) (hkept : kept.Known n)
    (hlive : live.Marked) : e.Moved ((es.foldl Options.edit live).stored n).value kept := by
  rw [Edit.Moved] at h ⊢
  generalize e.part = part at h ⊢
  cases part with
  | none => exact h
  | some x => exact Options.Apart.edits h hes hkept hlive

/-! ## Carrying -/

/-- What holds of the live part holds of the part that is carried, if it holds of the one that was
there or the live one has changed. -/
theorem unlessSame_or_holds {P : Option β → Prop} {same : Bool} {live d : Option β}
    (hlive : P live) (hnone : ¬P none) (h : P d ∨ same = false) :
    P (unlessSame same live <|> d) := by
  rcases h with hd | rfl
  · rcases unlessSame_or same live d with heq | heq
    · rw [heq]
      exact hlive
    · rw [heq]
      exact hd
  · cases live with
    | none => exact absurd hlive hnone
    | some l => exact hlive

theorem unlessSame_or_eq {same : Bool} {live d : Option β} {b : β} (hlive : live = some b)
    (h : d = some b ∨ same = false) : (unlessSame same live <|> d) = some b :=
  unlessSame_or_holds (P := (· = some b)) hlive (fun h => by cases h) h

/-- An extra option is carried, if it was there or its value is another than the one that was
kept. -/
theorem get?_overlay_changedExtra {d live kept : Dict Value} {key : String} {v : Value}
    (hlive : Dict.Ordered live) (hv : Dict.get? live key = some v)
    (h : Dict.get? d key = some v ∨ ∀ v', Dict.get? kept key = some v' → v.same v' = false) :
    Dict.get? (Dict.overlay d (changedExtra live kept)) key = some v := by
  have hchanged : Dict.Ordered (changedExtra live kept) := Dict.ordered_filter hlive _
  rw [Dict.get?_overlay hchanged, changedExtra, Dict.get?_filter hlive, hv, Option.filter_some]
  rcases h with hd | hkept
  · rw [hd]
    split_ifs <;> rfl
  · rw [if_pos]
    · rfl
    · split
      · rename_i v' hv'
        rw [hkept v' hv']
        rfl
      · rfl

/-- **Carrying keeps** a late edit that is present, if the definition has it or it is seen. -/
theorem Edit.In.carried {e : Edit} {live kept d : Options} (hin : e.In live)
    (h : e.In d ∨ e.Moved live kept) (hextra : Dict.Ordered live.fields.extra) :
    e.In (d.carry (live.changes kept)) := by
  -- a part that has moved is not the same by its mark
  have apart : ∀ {α : Type} {p q : Option (Placed α)}, sameMarks (markOf p) (markOf q) = false →
      Placed.sameOption p q = false := fun hm => (Placed.sameOption_eq _ _).trans hm
  cases e with
  | name s =>
    refine unlessSame_or_eq hin (h.imp id fun hm => ?_)
    rw [show live.fields.name = some s from hin]
    exact beq_false_of_ne (Ne.symm hm)
  | template s =>
    refine unlessSame_or_eq hin (h.imp id fun hm => ?_)
    rw [show live.fields.template = some (.markup s) from hin]
    exact hm
  | templateNode n =>
    refine unlessSame_or_eq hin (h.imp id fun hm => ?_)
    rw [show live.fields.template = some (.node n) from hin]
    exact hm
  | delimiters a b =>
    refine unlessSame_or_eq hin (h.imp id fun hm => ?_)
    rw [show live.fields.delimiters = some (a, b) from hin]
    exact beq_false_of_ne (Ne.symm hm)
  | comments keep =>
    refine unlessSame_or_eq hin (h.imp id fun hm => ?_)
    rw [show live.fields.comments = some keep from hin]
    exact beq_false_of_ne (Ne.symm hm)
  | «abstract» =>
    refine unlessSame_or_eq hin (h.imp id fun hm => ?_)
    rw [show live.fields.isAbstract = some true from hin]
    exact beq_false_of_ne (Ne.symm hm)
  | render f =>
    exact unlessSame_or_holds (P := fun p : Option RenderFn => valueOf p = some (.spec f)) hin
      (fun h => by cases h) (h.imp id apart)
  | on hook f =>
    exact unlessSame_or_holds (P := fun p => timesIn f.id (hooksOf p hook) = 1) hin
      (fun h => by cases h) (h.imp id apart)
  | errorCaptured f =>
    exact unlessSame_or_holds (P := fun p => timesIn f.id (handlersOf p) = 1) hin
      (fun h => by cases h) (h.imp id apart)
  | watch key w =>
    exact unlessSame_or_holds
      (P := fun p => w.isFunction = true ∧ occurrences w (watchersAt p key) = 1) hin
      (fun h => by cases h.2) (h.imp id apart)
  | method key s =>
    exact unlessSame_or_holds (P := fun p => Dict.get? (entriesOf p) key = some s) hin
      (fun h => by cases h) (h.imp id apart)
  | computed key s =>
    exact unlessSame_or_holds (P := fun p => Dict.get? (entriesOf p) key = some s) hin
      (fun h => by cases h) (h.imp id apart)
  | component key c =>
    exact unlessSame_or_holds
      (P := fun p => (ownIn p key).map unmarkedEntry = some (unmarkedEntry c)) hin
      (fun h => by cases h) (h.imp id apart)
  | directive key =>
    exact unlessSame_or_holds (P := fun p => ownIn p key = some ()) hin (fun h => by cases h)
      (h.imp id apart)
  | filter key f =>
    exact unlessSame_or_holds (P := fun p => ownIn p key = some f) hin (fun h => by cases h)
      (h.imp id apart)
  | custom key v =>
    exact get?_overlay_changedExtra hextra hin h
  | _ => cases hin

/-! ## Merging -/

/-- A list that has a handler once at most, for the function that a late edit adds. -/
def Options.WatchedOnce (key : String) (w : WatchHandler) (o : Options) : Prop :=
  occurrences w (watchersAt o.fields.watch key) ≤ 1

/-- What holds of the child's part holds of the merged part, if joining keeps it. -/
theorem mergeParts_holds {P : Option (Placed α) → Prop} {join : α → α → α}
    {p c : Option (Placed α)} (hc : P c) (hnone : ¬P none)
    (hjoin : ∀ a b, P (some b) → P (some (.new (join a b.value)))) : P (mergeParts join p c) := by
  cases c with
  | none => exact absurd hc hnone
  | some c =>
    cases p with
    | none => exact hc
    | some p => exact hjoin p.value c hc

theorem ownIn_mergeRegistries (p c : Option (Placed (Registry α))) (key : String) :
    ownIn (mergeRegistries p c) key = ownIn c key := by
  cases c with
  | none => cases p <;> rfl
  | some c => cases p <;> rfl

/-- Collecting values gives each key its own value. -/
theorem get?_collected (value : String → Except Error (Option Value)) {right : Option Value}
    {key : String} (hkey : value key = .ok right) {ks : List String} {start d : Dict Value}
    (h : ks.foldlM (fun d k => do
      match ← value k with
      | some v => return Dict.insert k v d
      | none => return d) start = .ok d) :
    Dict.get? d key =
      if key ∈ ks then (right <|> Dict.get? start key) else Dict.get? start key := by
  induction ks generalizing start with
  | nil =>
    cases h
    rfl
  | cons k rest ih =>
    rw [List.foldlM_cons] at h
    -- a step at another key changes nothing for this one
    have hother : key ≠ k → (key ∈ k :: rest ↔ key ∈ rest) := fun hne =>
      ⟨fun hm => (List.mem_cons.mp hm).resolve_left hne, List.mem_cons_of_mem _⟩
    cases hk : value k with
    | error e =>
      rw [hk] at h
      cases h
    | ok w =>
      rw [hk] at h
      by_cases heq : key = k
      · subst heq
        cases hkey.symm.trans hk
        rw [if_pos List.mem_cons_self]
        cases right with
        | none =>
          rw [ih h]
          split <;> rfl
        | some v =>
          rw [ih h, Dict.get?_insert, if_pos rfl]
          split <;> rfl
      · rw [if_congr (hother heq) rfl rfl]
        cases w with
        | none => exact ih h
        | some w =>
          rw [ih h, Dict.get?_insert, if_neg heq]

/-- An option without a strategy: the child's value, or else that of the parent. -/
theorem get?_extraOver_eq {p c extra : Dict Value} {key : String}
    (hkey : Dict.get? cfg.strategies key = none) (h : extraOver cfg p c = .ok extra)
    (hc : Dict.Ordered c) : Dict.get? extra key = (Dict.get? c key <|> Dict.get? p key) := by
  have hvalue : extraValue cfg key (Dict.get? p key) (Dict.get? c key) =
      .ok (Dict.get? c key <|> Dict.get? p key) := by
    rw [extraValue, hkey]
  have hunion : Dict.get? (Dict.overlay p c) key = (Dict.get? c key <|> Dict.get? p key) :=
    Dict.get?_overlay hc p key
  rw [extraOver] at h
  rw [get?_collected (fun k => extraValue cfg k (Dict.get? p k) (Dict.get? c k)) hvalue h,
    ← hunion]
  cases hv : Dict.get? (Dict.overlay p c) key with
  | none => split <;> rfl
  | some v =>
    rw [if_pos (Dict.mem_keys_of_get? hv)]
    rfl

/-- Without strategies the child's value wins. -/
theorem get?_extraOver (hcfg : cfg.strategies = []) {p c extra : Dict Value} {key : String}
    {v : Value} (h : extraOver cfg p c = .ok extra) (hc : Dict.Ordered c)
    (hv : Dict.get? c key = some v) : Dict.get? extra key = some v := by
  rw [get?_extraOver_eq (by rw [hcfg]; rfl) h hc, hv]
  rfl

/-- An entry of merged dictionaries: that of the child, or else that of the parent. -/
theorem get?_mergeParts_eq {p c : Option (Placed (Dict α))} (hc : Dict.Ordered (entriesOf c))
    (key : String) : Dict.get? (entriesOf (mergeParts Dict.overlay p c)) key =
      (Dict.get? (entriesOf c) key <|> Dict.get? (entriesOf p) key) := by
  cases c with
  | none => cases p <;> rfl
  | some c =>
    cases p with
    | none =>
      show Dict.get? c.value key = (Dict.get? c.value key <|> none)
      cases Dict.get? c.value key <;> rfl
    | some p => exact Dict.get?_overlay hc p.value key

/-- In a merged dictionary the child's entry wins. -/
theorem get?_mergeParts {p c : Option (Placed (Dict α))} {key : String} {a : α}
    (hc : Dict.Ordered (entriesOf c)) (h : Dict.get? (entriesOf c) key = some a) :
    Dict.get? (entriesOf (mergeParts Dict.overlay p c)) key = some a := by
  rw [get?_mergeParts_eq hc, h]
  rfl

theorem or_eq_of_eq_some {p c : Option β} {b : β} (h : c = some b) : (c <|> p) = some b := by
  rw [h]
  rfl

/-- **Merging keeps** a late edit that the child has. -/
theorem Edit.In.joined (hcfg : cfg.strategies = []) {e : Edit} {n : Nat} {w c : Options}
    {extra : Dict Value} (hin : e.In c) (hc : c.Known n)
    (hwatch : ∀ key x, e = .watch key x → w.WatchedOnce key x)
    (hextra : extraOver cfg w.fields.extra c.fields.extra = .ok extra) :
    e.In (w.joined c extra) := by
  -- fields and entries: the child's side wins; handlers: joined, each function once
  cases e with
  | name s => exact or_eq_of_eq_some hin
  | template s => exact or_eq_of_eq_some hin
  | templateNode n => exact or_eq_of_eq_some hin
  | delimiters a b => exact or_eq_of_eq_some hin
  | comments keep => exact or_eq_of_eq_some hin
  | «abstract» => exact or_eq_of_eq_some hin
  | render f =>
    obtain ⟨r, hr, hv⟩ := Option.map_eq_some_iff.mp hin
    show valueOf (c.fields.render <|> w.fields.render) = some (.spec f)
    rw [hr]
    exact congrArg some hv
  | on hook f =>
    refine mergeParts_holds (P := fun p => timesIn f.id (hooksOf p hook) = 1) hin
      (fun h => by cases h) fun a b hb => ?_
    show timesIn f.id (HookMap.handlers (joinHooks a b.value) hook) = 1
    rw [HookMap.handlers_joinHooks, timesIn_joinHandlers,
      show timesIn f.id (HookMap.handlers b.value hook) = 1 from hb]
    omega
  | errorCaptured f =>
    refine mergeParts_holds (P := fun p => timesIn f.id (handlersOf p) = 1) hin
      (fun h => by cases h) fun a b hb => ?_
    show timesIn f.id (joinHandlers a b.value) = 1
    rw [timesIn_joinHandlers, show timesIn f.id b.value = 1 from hb]
    omega
  | watch key x =>
    refine ⟨hin.1, ?_⟩
    obtain ⟨hfun, honce⟩ := hin
    have hw := hwatch key x rfl
    have hord := hc.watch
    show occurrences x (watchersAt (mergeParts joinWatch w.fields.watch c.fields.watch) key) = 1
    cases hcw : c.fields.watch with
    | none =>
      rw [hcw] at honce
      cases honce
    | some cw =>
      rw [hcw] at honce hord
      rw [watchersAt_mergeParts _ hord]
      split
      · exact honce
      · rw [occurrences_joinWatchers, if_pos hfun, honce]
        rw [Options.WatchedOnce] at hw
        split_ifs <;> omega
  | method key s => exact get?_mergeParts hc.methods hin
  | computed key s => exact get?_mergeParts hc.computed hin
  | component key k =>
    rw [Edit.In] at hin ⊢
    exact (congrArg _ (ownIn_mergeRegistries w.components c.components key)).trans hin
  | directive key => exact (ownIn_mergeRegistries _ _ key).trans hin
  | filter key f => exact (ownIn_mergeRegistries _ _ key).trans hin
  | custom key v => exact get?_extraOver hcfg hextra hc.extra hin
  | _ => cases hin

/-! ## Storing -/

/-- The entry of a component of this name. -/
def Edit.Names (name : Option String) : Edit → Prop
  | .component key _ => name = some key
  | _ => False

/-- A class among its own components hides a component of its name, and nothing else. -/
theorem Edit.In.withSelf {e : Edit} {m : Options} {name : Option String} {c : ClassId}
    (hin : e.In m) (hname : ¬e.Names name) : e.In (m.withSelf name c) := by
  cases name with
  | none => exact hin
  | some name =>
    cases e with
    | component key k =>
      have hne : key ≠ name := fun h => hname (congrArg some h.symm)
      rw [Edit.In] at hin ⊢
      rw [show m.withSelf (some name) c = m.edit (.component name (.self c)) from rfl,
        ownIn_addComponent, if_neg hne]
      exact hin
    | _ => exact hin

theorem Edit.In.stored {e : Edit} {o : Options} (hin : e.In o) (n : Nat) :
    e.In (o.stored n).value :=
  hin.of_unmarked (o.placed_unmarked n).symm

end Componentry
