import Componentry.Proofs.Options.Throughout

/-!
# Marks that were given out, and ordered names

Two things hold of all options that classes have: their marks have been given out before, so that a
part that is stored later is none of theirs, and the names in their dictionaries ascend.

- `Options.Known`: both, for one object.
- `Options.known_hereditary`: **operations keep them**.
-/

namespace Componentry

open Json (Value)

variable {α β : Type}

/-- The entries of a part that is a dictionary. -/
def entriesOf (p : Option (Placed (Dict α))) : Dict α := (valueOf p).getD []

/-- The marks of the parts are below a bound, and the names in dictionaries ascend. -/
structure Options.Known (n : Nat) (o : Options) : Prop where
  marks : ∀ x m, o.markAt x = some (some m) → m < n
  computed : Dict.Ordered (entriesOf o.fields.computed)
  methods : Dict.Ordered (entriesOf o.fields.methods)
  watch : Dict.Ordered (entriesOf o.fields.watch)
  extra : Dict.Ordered o.fields.extra

/-! ## Marks -/

section Marks

variable {m : Mark}

theorem markOf_mergeParts {join : α → α → α} {p c : Option (Placed α)}
    (h : markOf (mergeParts join p c) = some (some m)) :
    markOf p = some (some m) ∨ markOf c = some (some m) := by
  cases p with
  | none =>
    cases c with
    | none => cases h
    | some c => exact .inr h
  | some p =>
    cases c with
    | none => exact .inl h
    | some c => cases h

theorem markOf_mergeDecls {normal : α → Dict β} {keyed : Dict β → α} {p c : Option (Placed α)}
    (h : markOf (mergeDecls normal keyed p c) = some (some m)) :
    markOf p = some (some m) ∨ markOf c = some (some m) := by
  cases c with
  | none =>
    rw [mergeDecls] at h
    exact .inl h
  | some c => cases p <;> cases h

theorem markOf_mergeRegistries {p c : Option (Placed (Registry α))}
    (h : markOf (mergeRegistries p c) = some (some m)) :
    markOf p = some (some m) ∨ markOf c = some (some m) := by
  cases p with
  | none =>
    rw [mergeRegistries] at h
    exact .inr h
  | some p => cases c <;> cases h

theorem markOf_or {p c : Option (Placed α)} (h : markOf (c <|> p) = some (some m)) :
    markOf p = some (some m) ∨ markOf c = some (some m) := by
  cases c with
  | none => exact .inl h
  | some c => exact .inr h

/-- A merge makes new parts or takes those of either side. -/
theorem Options.markAt_joined {p c : Options} {extra : Dict Value} {x : Part}
    (h : (p.joined c extra).markAt x = some (some m)) :
    p.markAt x = some (some m) ∨ c.markAt x = some (some m) := by
  cases x with
  | data => exact markOf_mergeParts h
  | props => exact markOf_mergeDecls h
  | computed => exact markOf_mergeParts h
  | methods => exact markOf_mergeParts h
  | watch => exact markOf_mergeParts h
  | inject => exact markOf_mergeDecls h
  | provide => exact markOf_mergeParts h
  | hooks => exact markOf_mergeParts h
  | errorCaptured => exact markOf_mergeParts h
  | directives => exact markOf_mergeRegistries h
  | filters => exact markOf_mergeRegistries h
  | render => exact markOf_or h
  | staticRenderFns => exact markOf_or h
  | components => exact markOf_mergeRegistries h
  | mixins => exact markOf_or h
  | base => exact markOf_or h

theorem markOf_unlessSame_or {same : Bool} {l d : Option (Placed α)}
    (h : markOf (unlessSame same l <|> d) = some (some m)) :
    markOf l = some (some m) ∨ markOf d = some (some m) := by
  rcases unlessSame_or same l d with heq | heq
  · exact .inl (heq ▸ h)
  · exact .inr (heq ▸ h)

/-- A part that is carried is one of the live options, or one that was there. -/
theorem Options.markAt_carry {live kept d : Options} {x : Part}
    (h : (d.carry (live.changes kept)).markAt x = some (some m)) :
    live.markAt x = some (some m) ∨ d.markAt x = some (some m) := by
  cases x <;> exact markOf_unlessSame_or h

end Marks

theorem Options.markAt_addComponent {o : Options} {name : String} {c : ComponentRef Options}
    {x : Part} (hx : x ≠ .components) : (o.addComponent name c).markAt x = o.markAt x := by
  cases x with
  | components => exact absurd rfl hx
  | _ => rfl

/-! ## Names -/

theorem ordered_mergeParts {join : Dict α → Dict α → Dict α} {p c : Option (Placed (Dict α))}
    (hjoin : ∀ a b, Dict.Ordered a → Dict.Ordered (join a b)) (hp : Dict.Ordered (entriesOf p))
    (hc : Dict.Ordered (entriesOf c)) : Dict.Ordered (entriesOf (mergeParts join p c)) := by
  cases p with
  | none =>
    cases c with
    | none => exact Dict.ordered_nil
    | some c => exact hc
  | some p =>
    cases c with
    | none => exact hp
    | some c => exact hjoin p.value c.value hp

theorem ordered_joinWatch {parent : WatchMap} (h : Dict.Ordered parent) (child : WatchMap) :
    Dict.Ordered (joinWatch parent child) := by
  rw [joinWatch]
  induction child generalizing parent with
  | nil => exact h
  | cons e rest ih => exact ih (Dict.ordered_alter h e.1 _)

theorem ordered_extraOver {cfg : Config} {p c d : Dict Value} (h : extraOver cfg p c = .ok d) :
    Dict.Ordered d := by
  rw [extraOver] at h
  have hstart : Dict.Ordered ([] : Dict Value) := Dict.ordered_nil
  revert h hstart
  generalize ([] : Dict Value) = start
  induction Dict.keys (Dict.overlay p c) generalizing start with
  | nil =>
    intro h hstart
    cases h
    exact hstart
  | cons key rest ih =>
    intro h hstart
    rw [List.foldlM_cons] at h
    cases hv : extraValue cfg key (Dict.get? p key) (Dict.get? c key) with
    | error e =>
      rw [hv] at h
      cases h
    | ok v =>
      rw [hv] at h
      cases v with
      | none => exact ih start h hstart
      | some v => exact ih _ h (Dict.ordered_insert hstart key v)

theorem ordered_unlessSame_or {same : Bool} {l d : Option (Placed (Dict α))}
    (hl : Dict.Ordered (entriesOf l)) (hd : Dict.Ordered (entriesOf d)) :
    Dict.Ordered (entriesOf (unlessSame same l <|> d)) := by
  rcases unlessSame_or same l d with heq | heq
  · rw [heq]
    exact hl
  · rw [heq]
    exact hd

/-! ## Operations -/

namespace Options.Known

variable {cfg : Config} {n n' : Nat} {o o' p c m live kept d : Options}

theorem mono (hn : n ≤ n') (h : o.Known n) : o.Known n' :=
  { h with marks := fun x m hm => Nat.lt_of_lt_of_le (h.marks x m hm) hn }

theorem placed (h : o.Known n) (hp : o.PlacedAs n o' n') : o'.Known n' := by
  have hf := Options.fields_unmarked_eq hp.unmarked
  refine ⟨fun x m hm => ?_, ?_, ?_, ?_, ?_⟩
  · have hs := hp.stamped x
    rw [hm] at hs
    generalize hx : o.markAt x = a at hs
    cases hs with
    | kept _ => exact Nat.lt_of_lt_of_le (h.marks x m hx) hp.le
    | given _ _ hlt => exact hlt
  · rw [entriesOf, Fields.valueOf_eq hf (·.computed) fun _ => rfl]
    exact h.computed
  · rw [entriesOf, Fields.valueOf_eq hf (·.methods) fun _ => rfl]
    exact h.methods
  · rw [entriesOf, Fields.valueOf_eq hf (·.watch) fun _ => rfl]
    exact h.watch
  · rw [Fields.read_eq hf (·.extra) fun _ => rfl]
    exact h.extra

theorem layered (hp : p.Known n) (hc : c.Known n) (h : Options.over cfg p c = .ok m) :
    m.Known n := by
  obtain ⟨extra, hextra, rfl⟩ := Options.over_eq_ok h
  refine ⟨fun x m hm => ?_, ?_, ?_, ?_, ordered_extraOver hextra⟩
  · exact (Options.markAt_joined hm).elim (hp.marks x m) (hc.marks x m)
  · exact ordered_mergeParts (fun a b ha => Dict.ordered_overlay ha b) hp.computed hc.computed
  · exact ordered_mergeParts (fun a b ha => Dict.ordered_overlay ha b) hp.methods hc.methods
  · exact ordered_mergeParts (fun a b ha => ordered_joinWatch ha b) hp.watch hc.watch

theorem carried (kept : Options) (hl : live.Known n) (hd : d.Known n) :
    (d.carry (live.changes kept)).Known n where
  marks x m hm := (Options.markAt_carry hm).elim (hl.marks x m) (hd.marks x m)
  computed := ordered_unlessSame_or hl.computed hd.computed
  methods := ordered_unlessSame_or hl.methods hd.methods
  watch := ordered_unlessSame_or hl.watch hd.watch
  extra := Dict.ordered_overlay hd.extra _

theorem addComponent (h : o.Known n) (name : String) (c : ComponentRef Options) :
    (o.addComponent name c).Known n := by
  refine { h with marks := fun x m hm => ?_ }
  by_cases hx : x = .components
  · subst hx
    cases hm
  · rw [Options.markAt_addComponent hx] at hm
    exact h.marks x m hm

end Options.Known

/-- **Operations keep** options known. -/
theorem Options.known_hereditary (cfg : Config) : Hereditary cfg Options.Known where
  empty n := by
    refine ⟨fun x m hm => ?_, ?_, ?_, ?_, ?_⟩
    · cases x <;> cases hm
    all_goals exact Dict.ordered_nil
  mono := Options.Known.mono
  placed := Options.Known.placed
  layered := Options.Known.layered
  carried kept := Options.Known.carried kept
  addComponent name c h := h.addComponent name c
  named name h := by
    refine { h with marks := fun x m hm => h.marks x m ?_ }
    rw [← hm]
    cases x <;> rfl
  asMerged h := by
    refine { h with marks := fun x m hm => h.marks x m ?_ }
    rw [← hm]
    cases x <;> rfl

end Componentry
