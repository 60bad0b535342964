import Componentry.Class.Resolve
import Componentry.Proofs.Dict
import Componentry.Proofs.Options.Linearize
import Componentry.Proofs.Options.Place

/-!
# Merging and marks

A merge looks at no mark. Options that are alike but for their marks therefore merge to options
that are alike, and so it makes no difference to what a class ends up with when its definition
was stored.

- `Options.linearize_unmarked`, `Options.over_unmarked`: the two halves of a merge.
- `Options.mergeResult_unmarked`: **merging looks at no mark**.
-/

namespace Componentry

variable {α β : Type}

/-! ## Parts -/

theorem unmarkedPart_mergeParts (join : α → α → α) (p c : Option (Placed α)) :
    unmarkedPart (mergeParts join p c) = mergeParts join (unmarkedPart p) (unmarkedPart c) := by
  cases p <;> cases c <;> rfl

theorem unmarkedPart_mergeDecls (normal : α → Dict β) (keyed : Dict β → α)
    (p c : Option (Placed α)) :
    unmarkedPart (mergeDecls normal keyed p c) =
      mergeDecls normal keyed (unmarkedPart p) (unmarkedPart c) := by
  cases p <;> cases c <;> rfl

theorem unmarkedPart_mergeRegistries (p c : Option (Placed (Registry α))) :
    unmarkedPart (mergeRegistries p c) = mergeRegistries (unmarkedPart p) (unmarkedPart c) := by
  cases p <;> cases c <;> rfl

theorem unmarkedPart_or (p c : Option (Placed α)) :
    unmarkedPart (c <|> p) = (unmarkedPart c <|> unmarkedPart p) := by
  cases c <;> rfl

theorem unmarkedFns_or (p c : Option (Placed (List RenderFn))) :
    unmarkedFns (c <|> p) = (unmarkedFns c <|> unmarkedFns p) := by
  cases c <;> rfl

theorem Fields.mergeKnown_unmarked (p c : Fields) :
    (Fields.mergeKnown p c).unmarked = Fields.mergeKnown p.unmarked c.unmarked := by
  simp only [Fields.mergeKnown, Fields.unmarked, unmarkedPart_mergeParts, unmarkedPart_mergeDecls,
    unmarkedPart_mergeRegistries, unmarkedPart_or, unmarkedFns_or]

theorem unmarkedComponents_mergeRegistries (p c : Option (Placed Components)) :
    unmarkedComponents (mergeRegistries p c) =
      mergeRegistries (unmarkedComponents p) (unmarkedComponents c) := by
  cases p with
  | none => rw [mergeRegistries, unmarkedComponents, mergeRegistries]
  | some p =>
    cases c with
    | none =>
      simp only [mergeRegistries, unmarkedComponents, Placed.new, Registry.pushLayer,
        unmarkedEntries, unmarkedLayers]
    | some c =>
      simp only [mergeRegistries, unmarkedComponents, Placed.new, Registry.pushLayer,
        unmarkedLayers]

theorem unmarkedMixins_or (p c : Option (Placed (List Options))) :
    unmarkedMixins (c <|> p) = (unmarkedMixins c <|> unmarkedMixins p) := by
  cases c with
  | none => rw [unmarkedMixins]; rfl
  | some c => exact rfl

theorem unmarkedBase_or (p c : Option (Placed Options)) :
    unmarkedBase (c <|> p) = (unmarkedBase c <|> unmarkedBase p) := by
  cases c with
  | none => rw [unmarkedBase]; rfl
  | some c => exact rfl

/-! ## One object over another -/

theorem Options.joined_unmarked (p c : Options) (extra : Dict Json.Value) :
    (p.joined c extra).unmarked = p.unmarked.joined c.unmarked extra := by
  obtain ⟨pf, pc, pm, pb, _⟩ := p
  obtain ⟨cf, cc, cm, cb, _⟩ := c
  simp only [Options.joined, Options.unmarked, unmarkedComponents_mergeRegistries,
    unmarkedMixins_or, unmarkedBase_or, ← Fields.mergeKnown_unmarked]
  rfl

theorem Options.over_unmarked (cfg : Config) (p c : Options) :
    Options.over cfg p.unmarked c.unmarked = (Options.over cfg p c).map Options.unmarked := by
  rw [Options.over, Options.over, Options.unmarked_fields, Options.unmarked_fields]
  show (do
    let extra ← extraOver cfg p.fields.extra c.fields.extra
    return p.unmarked.joined c.unmarked extra) = _
  cases extraOver cfg p.fields.extra c.fields.extra with
  | error e => rfl
  | ok extra => exact congrArg Except.ok (Options.joined_unmarked p c extra).symm

/-! ## An object with all that it stands for -/

mutual

theorem Options.linearize_unmarked : ∀ o : Options,
    o.unmarked.linearize = o.linearize.map Options.unmarked
  | ⟨fields, components, mixins, base, merged⟩ => by
    rw [Options.unmarked, Options.linearize, Options.linearize, linearizeBase_unmarked base,
      linearizeMixins_unmarked mixins, List.map_append, List.map_singleton, Options.unmarked]
    cases merged with
    | true => rfl
    | false =>
      show _ = (linearizeBase base ++ linearizeMixins mixins).map Options.unmarked ++ _
      rw [List.map_append]
      rfl

theorem linearizeBase_unmarked : ∀ b : Option (Placed Options),
    linearizeBase (unmarkedBase b) = (linearizeBase b).map Options.unmarked
  | none => by rw [unmarkedBase, linearizeBase, List.map_nil]
  | some ⟨_, o⟩ => by
    rw [unmarkedBase, linearizeBase, linearizeBase]
    exact Options.linearize_unmarked o

theorem linearizeMixins_unmarked : ∀ ms : Option (Placed (List Options)),
    linearizeMixins (unmarkedMixins ms) = (linearizeMixins ms).map Options.unmarked
  | none => by rw [unmarkedMixins, linearizeMixins, List.map_nil]
  | some ⟨_, os⟩ => by
    rw [unmarkedMixins, linearizeMixins, linearizeMixins]
    exact linearizeAll_unmarked os

theorem linearizeAll_unmarked : ∀ os : List Options,
    linearizeAll (unmarkedAll os) = (linearizeAll os).map Options.unmarked
  | [] => by rw [unmarkedAll, linearizeAll, List.map_nil]
  | o :: rest => by
    rw [unmarkedAll, linearizeAll, linearizeAll, List.map_append, Options.linearize_unmarked o,
      linearizeAll_unmarked rest]

end

/-- Laying down objects one after the other looks at no mark. -/
theorem foldlM_over_unmarked (cfg : Config) (p : Options) (cs : List Options) :
    (cs.map Options.unmarked).foldlM (Options.over cfg) p.unmarked =
      (cs.foldlM (Options.over cfg) p).map Options.unmarked := by
  induction cs generalizing p with
  | nil => rfl
  | cons c rest ih =>
    rw [List.map_cons, List.foldlM_cons, List.foldlM_cons, Options.over_unmarked]
    cases Options.over cfg p c with
    | error e => rfl
    | ok m => exact ih m

/-- **Merging looks at no mark.** -/
theorem Options.mergeResult_unmarked (cfg : Config) (p c : Options) :
    Options.mergeResult cfg p.unmarked c.unmarked =
      (Options.mergeResult cfg p c).map Options.unmarked := by
  rw [Options.mergeResult, Options.linearize_unmarked]
  exact foldlM_over_unmarked cfg p c.linearize

/-- Options that are alike merge to options that are alike, or both do not merge. -/
theorem Options.mergeResult_alike {cfg : Config} {p p' c c' m : Options}
    (hp : p.unmarked = p'.unmarked) (hc : c.unmarked = c'.unmarked)
    (h : Options.mergeResult cfg p c = .ok m) :
    ∃ m', Options.mergeResult cfg p' c' = .ok m' ∧ m'.unmarked = m.unmarked := by
  have hm := Options.mergeResult_unmarked cfg p' c'
  rw [← hp, ← hc, Options.mergeResult_unmarked, h] at hm
  cases hr : Options.mergeResult cfg p' c' with
  | error e =>
    rw [hr] at hm
    cases hm
  | ok m' =>
    rw [hr] at hm
    exact ⟨m', rfl, (Except.ok.inj hm).symm⟩

/-! ## The class among its components -/

theorem Options.addComponent_unmarked (o : Options) (name : String) (c : ComponentRef Options) :
    (o.addComponent name c).unmarked = o.unmarked.addComponent name (unmarkedEntry c) := by
  obtain ⟨fields, components, mixins, base, merged⟩ := o
  simp only [Options.addComponent, Options.unmarked, Options.mk.injEq, true_and, and_true]
  cases components with
  | none =>
    simp only [unmarkedComponents, Placed.new, Registry.insert, Registry.empty, unmarkedLayers,
      unmarkedEntries_eq, Dict.mapValues_insert]
    rfl
  | some r =>
    simp only [unmarkedComponents, Placed.new, Registry.insert, unmarkedEntries_eq,
      Dict.mapValues_insert]

theorem Options.withSelf_unmarked (o : Options) (name : Option String) (c : ClassId) :
    (o.withSelf name c).unmarked = o.unmarked.withSelf name c := by
  cases name with
  | none => rfl
  | some name =>
    show (o.addComponent name (.self c)).unmarked = o.unmarked.addComponent name (.self c)
    rw [Options.addComponent_unmarked, unmarkedEntry]

theorem Options.unmarked_name (o : Options) : o.unmarked.name = o.name := by
  rw [Options.name, Options.unmarked_fields]
  rfl

theorem Options.name_eq_of_unmarked {a b : Options} (h : a.unmarked = b.unmarked) :
    a.name = b.name := by
  rw [← a.unmarked_name, h, b.unmarked_name]

theorem Options.name_withSelf (o : Options) (name : Option String) (c : ClassId) :
    (o.withSelf name c).name = o.name := by
  cases name <;> rfl

/-- A class under the name that it was merged to have, from options that are alike. -/
theorem Options.withSelf_alike {a b : Options} (h : a.unmarked = b.unmarked) (c : ClassId) :
    (a.withSelf a.name c).unmarked = (b.withSelf b.name c).unmarked := by
  rw [Options.withSelf_unmarked, Options.withSelf_unmarked, h, Options.name_eq_of_unmarked h]

end Componentry
