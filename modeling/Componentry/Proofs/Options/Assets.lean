import Componentry.Proofs.Options.Agree
import Componentry.Proofs.Options.LateEdits
import Componentry.Proofs.Registry

/-!
# Assets of merged options

A merge puts the own layer of the child over all layers of the parent. What the child has further
out goes away with the merge, unless there is no registry to put anything over. So an asset that a
definition owes to its own base or mixins is lost once the definition has been merged and is then
used as a mixin itself.

- `Asset`: the registries that options have.
- `Asset.get?_joined`: **a name after a merge**, and `Asset.get?_joined_iff`: when nothing is lost.
- `Asset.get?_layered`: **a name after many**, one object over the other.
- `merged_assets`: the assets of merged options.
- `Options.components_placed`: **what storing makes of components**.
-/

namespace Componentry

variable {α : Type} {cfg : Config}

/-- The registries of options. -/
inductive Asset : Type → Type where
  | components : Asset (ComponentRef Options)
  | directives : Asset Unit
  | filters : Asset Expr

def Asset.part : Asset α → Options → Option (Placed (Registry α))
  | .components, o => o.components
  | .directives, o => o.fields.directives
  | .filters, o => o.fields.filters

/-- The visible entry of a name. -/
def Asset.get? (x : Asset α) (o : Options) (key : String) : Option α := lookupIn (x.part o) key

/-- The entry of a name in the own layer. -/
def Asset.getOwn? (x : Asset α) (o : Options) (key : String) : Option α := ownIn (x.part o) key

/-! ## One object over another -/

section Joined

variable (x : Asset α) (w c : Options) (extra : Dict Json.Value) (key : String)

theorem Asset.part_joined : x.part (w.joined c extra) = mergeRegistries (x.part w) (x.part c) := by
  cases x <;> rfl

theorem Asset.getOwn?_joined : x.getOwn? (w.joined c extra) key = x.getOwn? c key := by
  rw [Asset.getOwn?, Asset.part_joined, ownIn_mergeRegistries]
  rfl

variable {x w c key}

/-- An own entry is visible. -/
theorem Asset.get?_of_getOwn? {a : α} (h : x.getOwn? c key = some a) : x.get? c key = some a := by
  rw [Asset.getOwn?, ownIn] at h
  rw [Asset.get?, lookupIn]
  cases hpart : valueOf (x.part c) with
  | none =>
    rw [hpart] at h
    cases h
  | some r =>
    rw [hpart] at h
    exact Registry.get?_of_getOwn? h

theorem Asset.getOwn?_of_get?_none (h : x.get? c key = none) : x.getOwn? c key = none := by
  cases hown : x.getOwn? c key with
  | none => rfl
  | some a =>
    rw [Asset.get?_of_getOwn? hown] at h
    cases h

theorem Asset.get?_of_part_none (h : x.part c = none) : x.get? c key = none := by
  rw [Asset.get?, h]
  rfl

variable (x w c key)

/-- **A name after a merge**: the child's entry if it has one of its own, or else the parent's. Only
over a parent without a registry everything counts that the child shows. -/
theorem Asset.get?_joined : x.get? (w.joined c extra) key =
    ((if (x.part w).isSome then x.getOwn? c key else x.get? c key) <|> x.get? w key) := by
  cases hw : x.part w with
  | none =>
    rw [Asset.get?_of_part_none hw, Asset.get?, Asset.part_joined, hw]
    show lookupIn (x.part c) key = (x.get? c key <|> none)
    rw [← Asset.get?]
    cases x.get? c key <;> rfl
  | some p =>
    rw [if_pos Option.isSome_some]
    simp only [Asset.get?, Asset.getOwn?, Asset.part_joined, hw]
    cases x.part c with
    | none => exact Registry.get?_pushLayer p.value [] key
    | some c =>
      show (p.value.pushLayer c.value.own).get? key =
        (Dict.get? c.value.own key <|> p.value.get? key)
      rw [Registry.get?_pushLayer]
      cases Dict.get? c.value.own key <;> rfl

/-- **When nothing is lost**: exactly where there is no registry to put the child's over, where the
child has an entry of its own or shows none, or where the parent shows the same one. -/
theorem Asset.get?_joined_iff :
    x.get? (w.joined c extra) key = (x.get? c key <|> x.get? w key) ↔
      x.part w = none ∨ (x.getOwn? c key).isSome ∨ x.get? c key = none ∨
        x.get? c key = x.get? w key := by
  rw [Asset.get?_joined]
  cases hw : x.part w with
  | none => simp
  | some p =>
    rw [if_pos Option.isSome_some]
    cases hown : x.getOwn? c key with
    | some a =>
      rw [Asset.get?_of_getOwn? hown]
      simp
    | none =>
      cases hget : x.get? c key with
      | none => simp
      | some a =>
        -- the child's entry is further out, so the merge shows that of the parent
        show x.get? w key = some a ↔ _
        constructor
        · intro heq
          exact .inr (.inr (.inr heq.symm))
        · rintro (h | h | h | h)
          · cases h
          · cases h
          · cases h
          · exact h.symm

end Joined

/-! ## Many objects -/

/-- **A name after many objects**: the entry of the last one that has one of its own, or else that
of the parent. -/
theorem Asset.get?_layered (x : Asset α) (key : String) {os : List Options} {p m : Options}
    (hp : (x.part p).isSome) (h : os.foldlM (Options.over cfg) p = .ok m) :
    x.get? m key = (os.reverse.findSome? (x.getOwn? · key) <|> x.get? p key) := by
  induction os generalizing p with
  | nil =>
    cases h
    rfl
  | cons o rest ih =>
    obtain ⟨extra, hrest⟩ := foldlM_over_cons h
    have hq : (x.part (p.joined o extra)).isSome := by
      rw [Asset.part_joined]
      obtain ⟨r, hr⟩ := Option.isSome_iff_exists.mp hp
      rw [hr]
      cases x.part o <;> rfl
    rw [ih hq hrest, Asset.get?_joined, if_pos hp, List.reverse_cons, List.findSome?_append,
      List.findSome?_singleton]
    cases rest.reverse.findSome? (x.getOwn? · key) <;> rfl

/-- Objects that show no asset of a kind leave those of the parent. -/
theorem Asset.get?_layered_of_none {x : Asset α} {os : List Options} {p m : Options}
    (hnone : ∀ o ∈ os, ∀ key, x.get? o key = none) (h : os.foldlM (Options.over cfg) p = .ok m)
    (key : String) : x.get? m key = x.get? p key := by
  induction os generalizing p with
  | nil =>
    cases h
    rfl
  | cons o rest ih =>
    obtain ⟨extra, hrest⟩ := foldlM_over_cons h
    have ho := hnone o List.mem_cons_self key
    rw [ih (fun o' ho' => hnone o' (List.mem_cons_of_mem o ho')) hrest, Asset.get?_joined, ho,
      Asset.getOwn?_of_get?_none ho, ite_self]
    rfl

/-- **The assets of merged options.** A name shows the own entry of the definition, or else what
shows beneath it; what the definition shows from further out counts only where there is no registry
beneath. Where there is one from the start, it is the own entries of the linearization that count,
the last one first. -/
theorem merged_assets {i : Bool} {p d m : Options} (hm : Gives (Options.merge cfg i p d) (.ok m))
    (x : Asset α) (key : String) :
    (∃ w, Options.beneath cfg p d = .ok w ∧ (d.Alone → w = p) ∧
      x.get? m key =
        ((if (x.part w).isSome then x.getOwn? d key else x.get? d key) <|> x.get? w key) ∧
      (x.get? m key = (x.get? d key <|> x.get? w key) ↔
        x.part w = none ∨ (x.getOwn? d key).isSome ∨ x.get? d key = none ∨
          x.get? d key = x.get? w key)) ∧
    ((x.part p).isSome →
      x.get? m key = (d.linearize.reverse.findSome? (x.getOwn? · key) <|> x.get? p key)) := by
  have hresult : Options.mergeResult cfg p d = .ok m :=
    (Options.merge_gives cfg i p d {}).symm.trans (hm {})
  refine ⟨?_, fun hp => Asset.get?_layered x key hp hresult⟩
  obtain ⟨w, extra, hw, -, rfl⟩ := Options.mergeResult_eq_ok hresult
  refine ⟨w, hw, fun halone => ?_, x.get?_joined w d extra key, x.get?_joined_iff w d extra key⟩
  exact Except.ok.inj (hw.symm.trans (halone.beneath cfg p))

/-- An object that registers a component. -/
def registering (name : String) : Options where
  components := some (.new ⟨[(name, .definition none {})], []⟩)

/-- A component, and one more over it. -/
def registeringBoth : Options := (registering "lost-item").joined (registering "own-item") []

theorem merge_registering (p d : Options) (hp : p.fields.extra = []) (hd : d.fields.extra = [])
    (h : d.Alone) : Gives (Options.merge {} false p d) (.ok (p.joined d [])) := by
  have hresult : Options.mergeResult {} p d = .ok (p.joined d []) := by
    rw [h.mergeResult, Options.over, hp, hd]
    rfl
  rw [← hresult]
  exact Options.merge_gives {} false p d

theorem merged_assets_registering :
    ∃ m, Gives (Options.merge {} false (registering "there") registeringBoth) (.ok m) ∧
      (Asset.components.get? m "own-item").isSome ∧ (Asset.components.get? m "there").isSome ∧
      (Asset.components.get? m "lost-item").isSome = false := by
  have hm := merge_registering (registering "there") registeringBoth rfl rfl (.inl rfl)
  have hlist := fun key => (merged_assets hm .components key).2 rfl
  refine ⟨_, hm, ?_, ?_, ?_⟩
  · rw [hlist]
    decide +kernel
  · rw [hlist]
    decide +kernel
  · rw [hlist]
    decide +kernel

/-- **An asset from further out is lost.** The definition is what a merge gave, and it shows the
component that comes from the parent of that merge. Merged over something that has a component as
well, it does not show it any more. -/
theorem outer_asset_lost :
    ∃ (p a b d m : Options) (key : String),
      Gives (Options.merge {} false a b) (.ok d) ∧ Gives (Options.merge {} false p d) (.ok m) ∧
      (Asset.components.get? d key).isSome ∧ Asset.components.get? m key = none ∧
      Asset.components.get? m key ≠
        (Asset.components.get? d key <|> Asset.components.get? p key) := by
  have hd := merge_registering (registering "lost-item") (registering "own-item") rfl rfl
    (.inr ⟨rfl, rfl⟩)
  have hm := merge_registering (registering "there") registeringBoth rfl rfl (.inl rfl)
  refine ⟨registering "there", registering "lost-item", registering "own-item", registeringBoth, _,
    "lost-item", hd, hm, by decide +kernel, rfl, ?_⟩
  intro heq
  cases heq

/-! ## Storing -/

/-- An entry that storing leaves as it is: a class, or a definition that has a mark. -/
def ComponentRef.Marked {ω : Type} : ComponentRef ω → Prop
  | .definition none _ => False
  | _ => True

/-- What storing makes of an entry: it has a mark then, and is what it was if it had one before. -/
structure ComponentRef.StoredAs (e e' : ComponentRef Options) : Prop where
  marked : e'.Marked
  same : e.Marked → e' = e

theorem ComponentRef.Marked.storedAs {e : ComponentRef Options} (h : e.Marked) : e.StoredAs e :=
  ⟨h, fun _ => rfl⟩

/-- What storing makes of a layer: each entry is stored under its name. -/
def LayerStored (es es' : List (String × ComponentRef Options)) : Prop :=
  List.Forall₂ (fun p p' => p'.1 = p.1 ∧ p.2.StoredAs p'.2) es es'

theorem placeEntries_stored (es : List (String × ComponentRef Options)) (n : Nat) :
    Leads (placeEntries es) n fun es' _ => LayerStored es es' := by
  induction es generalizing n with
  | nil =>
    rw [placeEntries]
    exact Leads.pure .nil
  | cons p rest ih =>
    obtain ⟨key, e⟩ := p
    have hkept : ∀ e : ComponentRef Options, e.Marked → ∀ n, Leads (do
        return (key, e) :: (← placeEntries rest)) n
          fun es' _ => LayerStored ((key, e) :: rest) es' := fun e he n =>
      Leads.bind (ih n) fun rest' _ hrest => Leads.pure (.cons ⟨rfl, he.storedAs⟩ hrest)
    cases e with
    | ofClass c => exact hkept (.ofClass c) trivial n
    | self c => exact hkept (.self c) trivial n
    | definition id o =>
      cases id with
      | some id => exact hkept (.definition (some id) o) trivial n
      | none =>
        rw [placeEntries]
        refine Leads.bind (P := fun _ _ => True) trivial fun o' n₁ _ => ?_
        refine Leads.bind (P := fun _ _ => True) trivial fun id n₂ _ => ?_
        refine Leads.bind (ih n₂) fun rest' n₃ hrest => Leads.pure (.cons ⟨rfl, ?_⟩ hrest)
        exact ⟨trivial, fun h => h.elim⟩

theorem placeLayers_stored (ls : List (List (String × ComponentRef Options))) (n : Nat) :
    Leads (placeLayers ls) n fun ls' _ => List.Forall₂ LayerStored ls ls' := by
  induction ls generalizing n with
  | nil =>
    rw [placeLayers]
    exact Leads.pure .nil
  | cons layer rest ih =>
    rw [placeLayers]
    refine Leads.bind (placeEntries_stored layer n) fun layer' n₁ hlayer => ?_
    exact Leads.bind (ih n₁) fun rest' _ hrest => Leads.pure (.cons hlayer hrest)

theorem LayerStored.get? {es es' : List (String × ComponentRef Options)} (h : LayerStored es es')
    (key : String) :
    Option.Rel ComponentRef.StoredAs (Dict.get? es key) (Dict.get? es' key) := by
  induction h with
  | nil => exact .none
  | @cons p p' rest rest' hp _ ih =>
    obtain ⟨k, e⟩ := p
    obtain ⟨k', e'⟩ := p'
    obtain ⟨rfl, he⟩ := hp
    simp only [Dict.get?]
    split
    · exact .some he
    · exact ih

theorem get?_layersStored {ls ls' : List (List (String × ComponentRef Options))}
    (h : List.Forall₂ LayerStored ls ls') (key : String) :
    Option.Rel ComponentRef.StoredAs (ls.findSome? (Dict.get? · key))
      (ls'.findSome? (Dict.get? · key)) := by
  induction h with
  | nil => exact .none
  | @cons layer layer' rest rest' hlayer _ ih =>
    have hfirst := hlayer.get? key
    rw [List.findSome?_cons, List.findSome?_cons]
    revert hfirst
    generalize Dict.get? layer key = first
    generalize Dict.get? layer' key = first'
    rintro (hsame | _)
    · exact .some hsame
    · exact ih

/-- **What storing makes of components**: every entry is stored where it was. -/
theorem Options.components_placed (o : Options) (n : Nat) (key : String) :
    Option.Rel ComponentRef.StoredAs (Asset.components.get? o key)
        (Asset.components.get? (o.placed n) key) ∧
      Option.Rel ComponentRef.StoredAs (Asset.components.getOwn? o key)
        (Asset.components.getOwn? (o.placed n) key) := by
  have hparts : ∀ (r : Option (Placed Components)) (n : Nat),
      Leads (placeComponents r) n fun r' _ =>
        Option.Rel ComponentRef.StoredAs (lookupIn r key) (lookupIn r' key) ∧
          Option.Rel ComponentRef.StoredAs (ownIn r key) (ownIn r' key) := by
    intro r n
    cases r with
    | none =>
      rw [placeComponents]
      exact Leads.pure ⟨.none, .none⟩
    | some r =>
      obtain ⟨mark, own, outer⟩ := r
      rw [placeComponents]
      refine Leads.bind (placeEntries_stored own n) fun own' n₁ hown => ?_
      refine Leads.bind (placeLayers_stored outer n₁) fun outer' n₂ houter => ?_
      refine (Placed.placeSome_leads mark (Registry.mk own' outer') n₂).imp ?_
      rintro r' n₃ ⟨-, m, rfl, -⟩
      exact ⟨get?_layersStored (.cons hown houter) key, hown.get? key⟩
  obtain ⟨fields, components, mixins, base, merged⟩ := o
  have hplaced : Leads (Options.place ⟨fields, components, mixins, base, merged⟩) n fun o' _ =>
      Option.Rel ComponentRef.StoredAs (lookupIn components key) (lookupIn o'.components key) ∧
        Option.Rel ComponentRef.StoredAs (ownIn components key) (ownIn o'.components key) := by
    rw [Options.place]
    refine Leads.bind (P := fun _ _ => True) trivial fun fields' n₁ _ => ?_
    refine Leads.bind (hparts components n₁) fun components' n₂ hcomponents => ?_
    refine Leads.bind (P := fun _ _ => True) trivial fun mixins' n₃ _ => ?_
    refine Leads.bind (P := fun _ _ => True) trivial fun base' n₄ _ => ?_
    exact Leads.pure hcomponents
  exact hplaced

end Componentry
