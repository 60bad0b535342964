import Componentry.Proofs.Class.Operation
import Componentry.Proofs.Engine.Calm
import Componentry.Proofs.Options.Assets

/-!
# Tags of root instances and of children

A root instance has options merged for it, so that its components are those of its class under the
layers of its own definition. A child reads the options of its class as they are. If the definition
declares no components, its layers are empty. They hide nothing, but they take the position of the
own layer from the components of the class, and only there the two can tell a tag apart.

- `Instance.tagEntry`: the entry that a tag stands for in an instance.
- `Eng.initOptions_root`: **the options of a root instance**.
- `BareRoot`, `ChildOf`: a root instance that declares no components, and a child of the same class.
- `BareRoot.tagEntry_eq`, `ChildOf.tagEntry_eq`: what a tag stands for in either.
- `resolve_under_empty_layers`: **empty layers and tags**.
-/

namespace Componentry

open Forest

variable {cfg : Config} {rt : Runtime} {f : Forest} {w : World} {vm : InstanceId}

/-- The entry that a tag stands for in an instance. Rendering makes a class of it. -/
def Instance.tagEntry (i : Instance) (tag : String) : Option (ComponentRef Options) :=
  i.options.components.bind (·.resolve? tag)

/-! ## Components of instances -/

theorem InstanceOptions.components_merged (o : Options) :
    (InstanceOptions.merged o).components = valueOf o.components := by
  rw [InstanceOptions.components, InstanceOptions.layered, InstanceOptions.merged]
  cases o.components <;> rfl

theorem Eng.components_childOptions (o : Placed Options) (parent : InstanceId) (p : Placeholder)
    (render : Option RenderFn) (statics : List RenderFn) :
    (childOptions o parent p render statics).components = valueOf o.value.components := by
  cases render <;> rfl

/-! ## The options of a root instance -/

/-- Resolving a class and merging a definition over its options. -/
theorem Classes.resolveAndMerge_yields (cfg : Config) (hf : f.Grounded) (c : ClassId)
    (d : Options) :
    Yields (do
      let above ← Classes.resolve cfg c
      let definition ← Forging.marking d.place
      let merged ← Forging.merging (Options.merge cfg true above.value definition)
      Forging.marking merged.place) f fun r f' => ∀ o, r = .ok o →
        f'.Grounded ∧ ∃ m n n', Options.mergeResult cfg (f'.get c).options.value (d.placed n) =
          .ok m ∧ o = m.placed n' := by
  refine Yields.bind (Classes.resolve_yields cfg hf c) ?_ (fun e f₁ _ o h => by cases h)
  rintro above f₁ ⟨⟨evs, hsteps, -⟩, hok⟩
  obtain ⟨rfl, -⟩ := hok above rfl
  refine Yields.bind (Yields.place d) ?_ (fun e f₂ h => by cases h.1)
  rintro d' f₂ ⟨hd, hq₂, -⟩
  cases hd
  refine Yields.bind (Yields.merging cfg _ _) ?_ (fun e f₃ _ o h => by cases h)
  rintro m f₃ ⟨hm, hq₃, -⟩
  refine (Yields.place m).imp fun r f₄ ⟨hr, hq₄, _⟩ o ho => ?_
  -- once the class is resolved, no class changes
  have hq : f₁.Quiet f₄ := (hq₂.trans hq₃).trans hq₄
  have haside : Change cfg f₁ f₄ .aside := .aside hq
  refine ⟨haside.grounded (hsteps.grounded hf), m, f₁.nextMark, f₃.nextMark, ?_,
    Except.ok.inj (ho.symm.trans hr)⟩
  rw [hq.get]
  exact hm.symm

/-- A computation on classes leaves the instances alone. -/
theorem Eng.forging_ends {α : Type} {m : Forging α} {Q : Except Error α → Forest → Prop}
    (h : Yields m w.forest Q) :
    Ends (forging m) w fun r w' =>
      w'.instances = w.instances ∧ ∀ a, r = .ok a → Q (.ok a) w'.forest := by
  rw [Yields] at h
  rw [Ends, run_forging]
  generalize m.exec w.forest = out at h ⊢
  obtain ⟨r, f⟩ := out
  cases r with
  | error e => exact ⟨rfl, fun a ha => by cases ha⟩
  | ok a =>
    refine ⟨rfl, fun a' ha => ?_⟩
    cases ha
    exact h

/-- **The options of a root instance**: its definition merged over the options of its class. -/
theorem Eng.initOptions_root (hg : w.forest.Grounded) (hlt : vm < w.instances.size)
    (d : Options) :
    Ends (initOptions rt vm (.root d)) w fun r w' => r = .ok () →
      w'.forest.Grounded ∧ ∃ m n n',
        Options.mergeResult rt.config
          (w'.forest.get (w.instances.getD vm default).ctor).options.value (d.placed n) = .ok m ∧
        (w'.instances.getD vm default).options = .merged (m.placed n') := by
  refine Ends.next (a := w.instances.getD vm default) rfl ?_
  have hyields := Classes.resolveAndMerge_yields rt.config hg (w.instances.getD vm default).ctor d
  refine Ends.bind (forging_ends hyields) ?_ fun e w₁ _ h => by cases h
  rintro o w₁ ⟨hinstances, hok⟩ -
  obtain ⟨hgrounded, m, n, n', hm, rfl⟩ := hok o rfl o rfl
  refine ⟨hgrounded, m, n, n', hm, ?_⟩
  exact congrArg Instance.options (getD_modify (hinstances ▸ hlt) _)

/-! ## Tags -/

/-- A root instance of a class that had the options `o` when its own were merged, if its definition
shows no component. Its components are those that it got then. -/
def BareRoot (rt : Runtime) (o : Placed Options) (i : Instance) : Prop :=
  ∃ w w' vm d, w.forest.Grounded ∧ vm < w.instances.size ∧
    (∀ b ∈ d.linearize, ∀ key, Asset.components.get? b key = none) ∧
    (Eng.initOptions rt vm (.root d)).run.run w = (.ok (), w') ∧
    o = (w'.forest.get (w.instances.getD vm default).ctor).options ∧
    i.options.components = (w'.instances.getD vm default).options.components

/-- A child of a class that had the options `o` when they became those of the child. -/
def ChildOf (rt : Runtime) (o : Placed Options) (i : Instance) : Prop :=
  ∃ w w' vm parent p render statics, vm < w.instances.size ∧
    (Eng.initOptions rt vm (.child parent p render statics)).run.run w = (.ok (), w') ∧
    o = (w.forest.get (w.instances.getD vm default).ctor).options ∧
    i.options.components = (w'.instances.getD vm default).options.components

/-- A child resolves tags in the components of its class. -/
theorem ChildOf.components {o : Placed Options} {i : Instance} (h : ChildOf rt o i) :
    i.options.components = valueOf o.value.components := by
  obtain ⟨w, w', vm, parent, p, render, statics, hlt, hrun, ho, hi⟩ := h
  have hchild : Eng.Ends (Eng.initOptions rt vm (.child parent p render statics)) w _ :=
    Eng.initOptions_child rt parent hlt ho
  rw [Eng.Ends, hrun] at hchild
  rw [hi, hchild.2.2]
  exact Eng.components_childOptions o parent p render statics

/-- The first spelling that shows anything, in a part that is a registry. -/
theorem firstVisible_eq {α : Type} (p : Option (Placed (Registry α))) (id : String) :
    (valueOf p).bind (·.firstVisible id) = (Registry.spellings id).findSome? (lookupIn p) := by
  cases p with
  | none =>
    refine (List.findSome?_eq_none_iff.mpr fun s _ => ?_).symm
    rfl
  | some r => rfl

/-- In a grounded forest the components of a class have marks, if they are definitions. -/
theorem Forest.Grounded.components_marked (hf : f.Grounded) {c : ClassId} {key : String}
    {e : ComponentRef Options}
    (h : Asset.components.get? (f.get c).options.value key = some e) : e.Marked := by
  by_cases hc : c < f.size
  · obtain ⟨o, n, hstored⟩ := hf.stored hc
    rw [hstored] at h
    have hrel := (o.components_placed n key).1
    have hget : Asset.components.get? (o.placed n) key = some e := h
    rw [hget] at hrel
    generalize Asset.components.get? o key = e' at hrel
    cases hrel with
    | some hentry => exact hentry.marked
  · rw [get_of_size_le (Nat.le_of_not_lt hc)] at h
    cases h

/-- Storing a definition that shows no component does not make it show one. -/
theorem Options.placed_bare {d : Options}
    (h : ∀ b ∈ d.linearize, ∀ key, Asset.components.get? b key = none) (n : Nat) :
    ∀ b ∈ (d.placed n).linearize, ∀ key, Asset.components.get? b key = none := by
  intro b hb key
  have hlines : (d.placed n).linearize.map Options.unmarked = d.linearize.map Options.unmarked := by
    rw [← Options.linearize_unmarked, ← Options.linearize_unmarked, Options.placed_unmarked]
  have hmem : b.unmarked ∈ d.linearize.map Options.unmarked := by
    rw [← hlines]
    exact List.mem_map_of_mem hb
  obtain ⟨b', hb', heq⟩ := List.mem_map.mp hmem
  have hentry := (Options.agree_of_unmarked heq).components key
  have hnone : lookupIn b'.components key = none := h b' hb' key
  rw [hnone] at hentry
  exact Option.map_eq_none_iff.mp hentry.symm

/-- What shows entries with marks, and has none of its own, is stored as it is. -/
theorem Options.lookups_placed {m : Options}
    (hmarked : ∀ key e, Asset.components.get? m key = some e → e.Marked)
    (hown : ∀ key, Asset.components.getOwn? m key = none) (n : Nat) (key : String) :
    Asset.components.get? (m.placed n) key = Asset.components.get? m key ∧
      Asset.components.getOwn? (m.placed n) key = none := by
  obtain ⟨hget, hgetOwn⟩ := m.components_placed n key
  have hmark := hmarked key
  rw [hown key] at hgetOwn
  constructor
  · revert hget hmark
    generalize Asset.components.get? m key = e
    generalize Asset.components.get? (m.placed n) key = e'
    rintro (hstored | _) hmark
    · rw [hstored.same (hmark _ rfl)]
    · rfl
  · revert hgetOwn
    generalize Asset.components.getOwn? (m.placed n) key = e'
    rintro ⟨⟩
    rfl

/-- **A root instance without components** of its own: a tag stands for the entry of the first
spelling that shows anything in its class. -/
theorem BareRoot.tagEntry_eq {o : Placed Options} {i : Instance} (h : BareRoot rt o i)
    (tag : String) : i.tagEntry tag = (valueOf o.value.components).bind (·.firstVisible tag) := by
  obtain ⟨w, w', vm, d, hg, hlt, hnone, hrun, ho, hi⟩ := h
  have hroot : Eng.Ends (Eng.initOptions rt vm (.root d)) w _ := Eng.initOptions_root hg hlt d
  rw [Eng.Ends, hrun] at hroot
  obtain ⟨hg', m, n, n', hm, hoptions⟩ := hroot rfl
  have hbare := Options.placed_bare hnone n
  -- the merged options show what the class shows, from further out
  have hget : ∀ key, Asset.components.get? m key = Asset.components.get? o.value key := by
    intro key
    rw [ho]
    exact Asset.get?_layered_of_none hbare hm key
  have hown : ∀ key, Asset.components.getOwn? m key = none := by
    intro key
    obtain ⟨b, extra, -, -, rfl⟩ := Options.mergeResult_eq_ok hm
    rw [Asset.getOwn?_joined]
    refine Asset.getOwn?_of_get?_none (hbare _ ?_ key)
    rw [Options.linearize_eq]
    exact List.mem_append_right _ (List.mem_singleton.mpr rfl)
  have hmarked : ∀ key e, Asset.components.get? m key = some e → e.Marked := by
    intro key e he
    rw [hget, ho] at he
    exact hg'.components_marked he
  have hstored := Options.lookups_placed hmarked hown n'
  rw [Instance.tagEntry, hi, hoptions, InstanceOptions.components_merged, firstVisible_eq]
  have hlookups : lookupIn o.value.components = lookupIn (m.placed n').components := by
    funext key
    exact ((hstored key).1.trans (hget key)).symm
  rw [hlookups, ← firstVisible_eq]
  cases hpart : valueOf (m.placed n').components with
  | none => rfl
  | some r =>
    refine Registry.resolve?_of_own_none (fun s => ?_) tag
    have hs := (hstored s).2
    rw [Asset.getOwn?, Asset.part, ownIn, hpart] at hs
    exact hs

/-- **A child** resolves a tag in the components of its class as they are. -/
theorem ChildOf.tagEntry_eq {o : Placed Options} {i : Instance} (h : ChildOf rt o i)
    (tag : String) : i.tagEntry tag = (valueOf o.value.components).bind (·.resolve? tag) := by
  rw [Instance.tagEntry, h.components]

/-- **Empty layers and tags.** Empty layers hide no exact name. Under one of them or more an id
resolves to the entry of the first spelling that shows any. That is what it resolves to without
them, unless the own layer has the id under some spelling while the first spelling that shows any
shows one from further out; and something is found in either case or in none. So a root instance
that declares no components and a child of a class with the same options know the same tags, and a
tag stands for the same entry in both, unless the components of the class are such a case. -/
theorem resolve_under_empty_layers :
    (∀ {α : Type} (r : Registry α) (id : String) (n : Nat),
      (∀ key, (r.underEmpty n).get? key = r.get? key) ∧
      (r.underEmpty (n + 1)).resolve? id = r.firstVisible id ∧
      ((r.underEmpty n).resolve? id).isSome = (r.resolve? id).isSome ∧
      (¬r.Eclipsed id → (r.underEmpty n).resolve? id = r.resolve? id) ∧
      (r.Eclipsed id →
        (∃ t ∈ Registry.spellings id, ∃ a, r.getOwn? t = some a ∧ r.resolve? id = some a) ∧
          ∃ s ∈ Registry.spellings id, r.getOwn? s = none ∧
            ∃ v, r.get? s = some v ∧ (r.underEmpty (n + 1)).resolve? id = some v)) ∧
    ∀ (rt : Runtime) (o : Placed Options) (root child : Instance), BareRoot rt o root →
      ChildOf rt o child → ∀ tag,
        (root.tagEntry tag).isSome = (child.tagEntry tag).isSome ∧
        ((∀ r, child.options.components = some r → ¬r.Eclipsed tag) →
          root.tagEntry tag = child.tagEntry tag) := by
  refine ⟨fun r id n => ⟨r.get?_underEmpty n, r.resolve?_underEmpty n id, ?_, fun h => ?_,
    fun h => ?_⟩, ?_⟩
  · cases n with
    | zero => rfl
    | succ n => rw [r.resolve?_underEmpty, r.isSome_resolve?]
  · cases n with
    | zero => rfl
    | succ n => rw [r.resolve?_underEmpty, Registry.resolve?_of_not_eclipsed h]
  · rw [r.resolve?_underEmpty]
    exact h.resolve?
  · intro rt o root child hroot hchild tag
    rw [hroot.tagEntry_eq, hchild.tagEntry_eq, hchild.components]
    cases valueOf o.value.components with
    | none => exact ⟨rfl, fun _ => rfl⟩
    | some r =>
      refine ⟨(r.isSome_resolve? tag).symm, fun h => ?_⟩
      exact (Registry.resolve?_of_not_eclipsed (h r rfl)).symm

/-! ## An item under two names -/

/-- A definition that registers another one under a name. -/
def registeringAs (key name : String) : Options where
  components := some (.new ⟨[(key, .definition none { fields := { name := some name } })], []⟩)

/-- A class with an item, and a class below it with another item under another spelling. -/
def items : History :=
  ((History.start quietConfig).step quietConfig
    (.extend rootClass (registeringAs "my-item" "outer"))).step quietConfig
    (.extend 1 (registeringAs "MyItem" "nearer"))

/-- Two instances of the class below. -/
def itemsWorld : World := { forest := items.forest, instances := #[{ ctor := 2 }, { ctor := 2 }] }

/-- The first of them is a root instance without a definition. -/
def itemsRooted : World := ((Eng.initOptions {} 0 (.root {})).run.run itemsWorld).2

/-- The second of them is a child. -/
def itemsChild : World :=
  ((Eng.initOptions {} 1 (.child 0 default none [])).run.run itemsRooted).2

theorem reachable_items : Reachable quietConfig items := by
  refine .step (.step .refl Nat.one_pos trivial) ?_ trivial
  show 1 < Forest.size _
  decide +kernel

theorem bareRoot_items : BareRoot {} (itemsRooted.forest.get 2).options
    (itemsRooted.instances.getD 0 default) := by
  refine ⟨itemsWorld, itemsRooted, 0, {}, reachable_items.grounded, Nat.two_pos, ?_, ?_, rfl, rfl⟩
  · intro b hb key
    cases List.mem_singleton.mp hb
    rfl
  · have hok : ((Eng.initOptions {} 0 (.root {})).run.run itemsWorld).1.isOk = true := by
      decide +kernel
    rw [itemsRooted]
    generalize (Eng.initOptions {} 0 (.root {})).run.run itemsWorld = out at hok
    obtain ⟨r, w'⟩ := out
    cases r with
    | error e => cases hok
    | ok u => rfl

theorem childOf_items : ChildOf {} (itemsRooted.forest.get 2).options
    (itemsChild.instances.getD 1 default) := by
  have hsize : 1 < itemsRooted.instances.size := by decide +kernel
  have hctor : (itemsRooted.instances.getD 1 default).ctor = 2 := by decide +kernel
  exact ⟨itemsRooted, itemsChild, 1, 0, default, none, [], hsize, rfl, by rw [hctor], rfl⟩

/-- The name of the definition that a tag stands for. -/
def Instance.tagName (i : Instance) (tag : String) : Option String :=
  (i.tagEntry tag).bind fun e => match e with
    | .definition _ o => o.name
    | _ => none

theorem resolve_under_empty_layers_items :
    (∀ r, (itemsChild.instances.getD 1 default).options.components = some r →
        ¬r.Eclipsed "MyItem") ∧
      (itemsRooted.instances.getD 0 default).tagEntry "MyItem" =
        (itemsChild.instances.getD 1 default).tagEntry "MyItem" ∧
      (itemsRooted.instances.getD 0 default).tagName "MyItem" = some "nearer" := by
  have hclear : ((itemsChild.instances.getD 1 default).options.components.all fun r =>
      decide (¬r.Eclipsed "MyItem")) = true := by decide +kernel
  have hnot : ∀ r, (itemsChild.instances.getD 1 default).options.components = some r →
      ¬r.Eclipsed "MyItem" := by
    intro r hr
    rw [hr] at hclear
    exact of_decide_eq_true hclear
  refine ⟨hnot, ?_, by decide +kernel⟩
  exact (resolve_under_empty_layers.2 {} _ _ _ bareRoot_items childOf_items "MyItem").2 hnot

/-- **Empty layers make a difference** to an id that the own layer has under a later spelling only.
The item under the later spelling is nearer, and it is what a child means by the tag; a root
instance means the one that is further out. -/
theorem empty_layer_differs :
    (∃ (r : Registry String) (id : String),
      r.resolve? id = some "nearer" ∧ (r.pushLayer []).resolve? id = some "outer") ∧
    ∃ (rt : Runtime) (o : Placed Options) (root child : Instance) (tag : String),
      BareRoot rt o root ∧ ChildOf rt o child ∧
      root.tagName tag = some "outer" ∧ child.tagName tag = some "nearer" ∧
      root.tagEntry tag ≠ child.tagEntry tag := by
  have hroot : (itemsRooted.instances.getD 0 default).tagName "my-item" = some "outer" := by
    decide +kernel
  have hchild : (itemsChild.instances.getD 1 default).tagName "my-item" = some "nearer" := by
    decide +kernel
  refine ⟨⟨⟨[("MyItem", "nearer")], [[("my-item", "outer")]]⟩, "my-item", ?_, ?_⟩,
    {}, _, _, _, "my-item", bareRoot_items, childOf_items, hroot, hchild, ?_⟩
  · decide +kernel
  · decide +kernel
  · intro heq
    rw [Instance.tagName] at hroot hchild
    rw [heq, hchild] at hroot
    exact absurd hroot (by decide)

end Componentry
