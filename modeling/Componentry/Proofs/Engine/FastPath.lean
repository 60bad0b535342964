import Componentry.Proofs.Engine.Tags
import Componentry.Proofs.Options.Grouping

/-!
# Two ways to options

An instance that was asked for gets options of its own: its definition is merged over the options of
its class. A child skips the merge and reads the options of its class. With an empty definition
there is nothing to merge, and reading shows no difference.

- `InstanceOptions.Agree`: all that can be read of the options of an instance.
- `Options.joined_empty`: what an empty definition over options gives.
- `InstanceOptions.agree_of_relayered`: merged and linked options agree.
- `root_agrees_with_child`: **both ways to options agree**.
-/

namespace Componentry

open Forest

variable {α β : Type} {cfg : Config} {rt : Runtime} {w : World} {vm : InstanceId}

/-- What can be read of the options of two instances is the same. Data and provided values have the
same source, so that they evaluate to the same. -/
structure InstanceOptions.Agree (a b : InstanceOptions) : Prop where
  name : a.name = b.name
  data : a.part (·.data) = b.part (·.data)
  provide : a.part (·.provide) = b.part (·.provide)
  props : a.props = b.props
  inject : a.inject = b.inject
  computed : a.part (·.computed) = b.part (·.computed)
  methods : a.part (·.methods) = b.part (·.methods)
  watch : a.part (·.watch) = b.part (·.watch)
  hooks : ∀ h, a.hookHandlers h = b.hookHandlers h
  errorCaptured : a.errorCaptured = b.errorCaptured
  template : a.field (·.template) = b.field (·.template)
  render : a.part (·.render) = b.part (·.render)
  staticRenderFns : (a.part (·.staticRenderFns)).map (List.map Placed.value) =
    (b.part (·.staticRenderFns)).map (List.map Placed.value)
  el : a.field (·.el) = b.field (·.el)
  delimiters : a.field (·.delimiters) = b.field (·.delimiters)
  comments : a.comments = b.comments
  isAbstract : a.isAbstract = b.isAbstract
  extra : ∀ key, a.extra key = b.extra key
  components : ∀ key, a.components.bind (·.get? key) = b.components.bind (·.get? key)
  directives : ∀ key, a.directives.bind (·.get? key) = b.directives.bind (·.get? key)
  filters : ∀ key, a.filters.bind (·.get? key) = b.filters.bind (·.get? key)

/-! ## Reading -/

namespace InstanceOptions

variable {p : Placed Options} {parent : InstanceId} {holder : Placeholder}
  {statics : List RenderFn}

theorem field_merged (o : Options) (read : Fields → Option α) :
    (merged o).field read = read o.fields := by
  rw [field, layered, merged]
  cases read o.fields <;> rfl

theorem part_merged (o : Options) (read : Fields → Option (Placed α)) :
    (merged o).part read = valueOf (read o.fields) := by
  rw [part, field_merged]
  rfl

/-- A child has no options of its own. -/
theorem field_childOptions {read : Fields → Option α} (h : read {} = none) :
    (Eng.childOptions p parent holder none statics).field read = read p.value.fields := by
  have hown : read (Eng.childOptions p parent holder none statics).own.fields = none := h
  rw [field, layered, hown]
  rfl

theorem part_childOptions {read : Fields → Option (Placed α)} (h : read {} = none) :
    (Eng.childOptions p parent holder none statics).part read = valueOf (read p.value.fields) := by
  rw [part, field_childOptions h]
  rfl

end InstanceOptions

/-! ## Nothing over something -/

theorem mergeParts_none (join : α → α → α) (p : Option (Placed α)) :
    mergeParts join p none = p := by
  cases p <;> rfl

/-- An empty layer over a registry, if there is one. -/
def relayered (r : Option (Placed (Registry α))) : Option (Placed (Registry α)) :=
  mergeRegistries r none

/-- Empty layers over the registries of options, and other options without a field. -/
def Options.relayered (o : Options) (extra : Dict Json.Value) : Options :=
  { o with
    fields := { o.fields with
      directives := Componentry.relayered o.fields.directives
      filters := Componentry.relayered o.fields.filters
      extra }
    components := Componentry.relayered o.components
    merged := true }

/-- An empty definition over options adds empty layers. -/
theorem Options.joined_empty (o : Options) (extra : Dict Json.Value) :
    o.joined {} extra = o.relayered extra := by
  simp only [Options.joined, Options.relayered, Componentry.relayered, Fields.mergeKnown,
    mergeParts_none, mergeDecls_none]
  rfl

theorem lookupIn_relayered (r : Option (Placed (Registry α))) (key : String) :
    lookupIn (relayered r) key = lookupIn r key := by
  cases r with
  | none => rfl
  | some r => exact Registry.get?_pushLayer r.value [] key

/-- Storing an empty definition. -/
theorem Options.placed_empty (n : Nat) : ({} : Options).placed n = {} := rfl

/-- An empty definition merged over options: empty layers, and the options without a field as they
were. -/
theorem Options.mergeResult_empty (h : cfg.strategies = []) (o : Options) :
    ∃ extra, Options.mergeResult cfg o {} = .ok (o.relayered extra) ∧
      ∀ key, Dict.get? extra key = Dict.get? o.fields.extra key := by
  obtain ⟨extra, he⟩ := extraOver_ok h o.fields.extra []
  have halone : ({} : Options).Alone := .inr ⟨rfl, rfl⟩
  refine ⟨extra, ?_, fun key => ?_⟩
  · rw [halone.mergeResult, Options.over, he, ← Options.joined_empty]
    rfl
  · have hkey : Dict.get? cfg.strategies key = none := by rw [h]; rfl
    exact get?_extraOver_eq hkey he Dict.ordered_nil

/-! ## Merged and linked options -/

/-- Merged and linked options agree, if the merge added nothing but empty layers. -/
theorem InstanceOptions.agree_of_relayered {o : Placed Options} {stored : Options}
    {extra : Dict Json.Value} (hstored : stored.unmarked = (o.value.relayered extra).unmarked)
    (hextra : ∀ key, Dict.get? extra key = Dict.get? o.value.fields.extra key)
    (hcomponents : ∀ key, lookupIn stored.components key = lookupIn o.value.components key)
    (parent : InstanceId) (holder : Placeholder) (statics : List RenderFn) :
    (merged stored).Agree (Eng.childOptions o parent holder none statics) := by
  have hfields := Options.fields_unmarked_eq hstored
  -- a part that has no layers
  have part : ∀ {α : Type} (read : Fields → Option (Placed α)),
      (∀ f : Fields, read f.unmarked = unmarkedPart (read f)) →
      read (o.value.relayered extra).fields = read o.value.fields → read {} = none →
        (merged stored).part read =
          (Eng.childOptions o parent holder none statics).part read := by
    intro α read hread hsame hnone
    rw [part_merged, part_childOptions hnone, Fields.valueOf_eq hfields read hread, hsame]
  -- a field that holds no mark
  have plain : ∀ {α : Type} (read : Fields → Option α),
      (∀ f : Fields, read f.unmarked = read f) →
      read (o.value.relayered extra).fields = read o.value.fields → read {} = none →
        (merged stored).field read =
          (Eng.childOptions o parent holder none statics).field read := by
    intro α read hread hsame hnone
    rw [field_merged, field_childOptions hnone, Fields.read_eq hfields read hread, hsame]
  -- a registry among the fields
  have layers : ∀ {α : Type} (read : Fields → Option (Placed (Registry α))),
      (∀ f : Fields, read f.unmarked = unmarkedPart (read f)) →
      read (o.value.relayered extra).fields = relayered (read o.value.fields) →
      read {} = none → ∀ key, ((merged stored).part read).bind (·.get? key) =
        ((Eng.childOptions o parent holder none statics).part read).bind (·.get? key) := by
    intro α read hread hsame hnone key
    rw [part_merged, part_childOptions hnone, Fields.valueOf_eq hfields read hread, hsame]
    exact lookupIn_relayered _ key
  have hprops := part (·.props) (fun _ => rfl) rfl rfl
  have hinject := part (·.inject) (fun _ => rfl) rfl rfl
  have hhooks := part (·.hooks) (fun _ => rfl) rfl rfl
  have herror := part (·.errorCaptured) (fun _ => rfl) rfl rfl
  refine {
    name := plain (·.name) (fun _ => rfl) rfl rfl
    data := part (·.data) (fun _ => rfl) rfl rfl
    provide := part (·.provide) (fun _ => rfl) rfl rfl
    props := by rw [props, props, hprops]
    inject := by rw [inject, inject, hinject]
    computed := part (·.computed) (fun _ => rfl) rfl rfl
    methods := part (·.methods) (fun _ => rfl) rfl rfl
    watch := part (·.watch) (fun _ => rfl) rfl rfl
    hooks := fun h => by rw [hookHandlers, hookHandlers, hhooks]
    errorCaptured := congrArg (Option.getD · []) herror
    template := plain (·.template) (fun _ => rfl) rfl rfl
    render := part (·.render) (fun _ => rfl) rfl rfl
    staticRenderFns := ?_
    el := plain (·.el) (fun _ => rfl) rfl rfl
    delimiters := plain (·.delimiters) (fun _ => rfl) rfl rfl
    comments := congrArg (Option.getD · false) (plain (·.comments) (fun _ => rfl) rfl rfl)
    isAbstract := congrArg (Option.getD · false) (plain (·.isAbstract) (fun _ => rfl) rfl rfl)
    extra := fun key => ?_
    components := fun key => ?_
    directives := layers (·.directives) (fun _ => rfl) rfl rfl
    filters := layers (·.filters) (fun _ => rfl) rfl rfl }
  · rw [part_merged, part_childOptions rfl, ← staticRenderFns_unmarkedFns,
      show unmarkedFns stored.fields.staticRenderFns = unmarkedFns o.value.fields.staticRenderFns
        from congrArg Fields.staticRenderFns hfields, staticRenderFns_unmarkedFns]
  · rw [InstanceOptions.extra, InstanceOptions.extra, field_merged, field_childOptions rfl,
      show stored.fields.extra = extra from congrArg Fields.extra hfields]
    exact hextra key
  · rw [components_merged, Eng.components_childOptions]
    exact hcomponents key

/-! ## Both ways -/

theorem Classes.resolve_ok {f g : Forest} (hf : f.Grounded) {c : ClassId} {o : Placed Options}
    (h : (Classes.resolve cfg c).exec f = (.ok o, g)) : g.Grounded ∧ o = (g.get c).options := by
  have hyields := Classes.resolve_yields cfg hf c
  rw [Yields, h] at hyields
  obtain ⟨⟨evs, hsteps, -⟩, hok⟩ := hyields
  exact ⟨hsteps.grounded hf, (hok o rfl).1⟩

/-- Merging an empty definition over the options of a class that resolves. -/
theorem Classes.resolveAndMerge_empty {f g : Forest} (hf : f.Grounded) (hs : cfg.strategies = [])
    {c : ClassId} {o : Placed Options} (hres : (Classes.resolve cfg c).exec f = (.ok o, g)) :
    Yields (do
      let above ← Classes.resolve cfg c
      let definition ← Forging.marking ({} : Options).place
      let merged ← Forging.merging (Options.merge cfg true above.value definition)
      Forging.marking merged.place) f fun r _ => ∃ m, r = .ok m ∧
        ∀ parent holder statics,
          (InstanceOptions.merged m).Agree (Eng.childOptions o parent holder none statics) := by
  obtain ⟨hg, ho⟩ := Classes.resolve_ok hf hres
  obtain ⟨extra, hmerge, hextra⟩ := Options.mergeResult_empty hs o.value
  have hfirst : Yields (Classes.resolve cfg c) f fun r f' => r = .ok o ∧ f' = g := by
    rw [Yields, hres]
    exact ⟨rfl, rfl⟩
  refine Yields.bind hfirst ?_ fun e f₁ h => by cases h.1
  rintro above f₁ ⟨habove, rfl⟩
  cases habove
  refine Yields.bind (Yields.place {}) ?_ fun e f₂ h => by cases h.1
  rintro d f₂ ⟨hd, -, -⟩
  cases hd
  rw [Options.placed_empty]
  refine Yields.bind (Yields.merging cfg _ _) ?_ fun e f₃ h => by cases hmerge.symm.trans h.1.symm
  rintro m f₃ ⟨hm, -, -⟩
  cases hmerge.symm.trans hm.symm
  refine (Yields.place _).imp fun r f₄ h => ⟨_, h.1, fun parent holder statics => ?_⟩
  refine InstanceOptions.agree_of_relayered (Options.placed_unmarked _ _) hextra (fun key => ?_)
    parent holder statics
  -- what the class shows was stored before, so that storing it again leaves it as it is
  have hsame : ∀ key, Asset.components.get? (o.value.relayered extra) key =
      Asset.components.get? o.value key := lookupIn_relayered o.value.components
  have hmarked : ∀ key e, Asset.components.get? (o.value.relayered extra) key = some e →
      e.Marked := by
    intro key e he
    rw [hsame, ho] at he
    exact hg.components_marked he
  have hown : ∀ key, Asset.components.getOwn? (o.value.relayered extra) key = none := by
    intro key
    rw [← Options.joined_empty, Asset.getOwn?_joined]
    rfl
  exact (Options.lookups_placed hmarked hown _ key).1.trans (hsame key)

/-- **Both ways to options agree.** Where the class of an instance can be resolved and there are no
strategies, an empty definition can be merged over its options, and they can be linked, and reading
either shows the same. -/
theorem root_agrees_with_child (hg : w.forest.Grounded) (hs : rt.config.strategies = [])
    (hlt : vm < w.instances.size) {o : Placed Options} {g : Forest}
    (hres : (Classes.resolve rt.config (w.instances.getD vm default).ctor).exec w.forest =
      (.ok o, g)) :
    ∃ w₁, (Eng.initOptions rt vm (.root {})).run.run w = (.ok (), w₁) ∧
      ∀ (parent : InstanceId) (holder : Placeholder) (statics : List RenderFn),
        ∃ w₂, (do
            let _ ← Eng.forging (Classes.resolve rt.config (w.instances.getD vm default).ctor)
            Eng.initOptions rt vm (.child parent holder none statics)).run.run w = (.ok (), w₂) ∧
          (w₁.instances.getD vm default).options.Agree (w₂.instances.getD vm default).options := by
  obtain ⟨m, hm, hagree⟩ := Classes.resolveAndMerge_empty hg hs hres
  have hroot : Eng.Ends (Eng.initOptions rt vm (.root {})) w fun r w₁ =>
      r = .ok () ∧ (w₁.instances.getD vm default).options = .merged m := by
    refine Eng.Ends.next (a := w.instances.getD vm default) rfl ?_
    refine Eng.Ends.next (Eng.forging_of_exec (Prod.ext hm rfl)) ⟨rfl, ?_⟩
    exact congrArg Instance.options (getD_modify hlt _)
  refine ⟨_, Prod.ext hroot.1 rfl, fun parent holder statics => ?_⟩
  -- the child's way starts with resolving its class, as making a child does
  have hchild : Eng.Ends (do
      let _ ← Eng.forging (Classes.resolve rt.config (w.instances.getD vm default).ctor)
      Eng.initOptions rt vm (.child parent holder none statics)) w fun r w₂ => r = .ok () ∧
        (w₂.instances.getD vm default).options = Eng.childOptions o parent holder none statics := by
    refine Eng.Ends.next (Eng.forging_of_exec hres) ?_
    have hlinked : Eng.Ends (Eng.initOptions rt vm (.child parent holder none statics))
        { w with forest := g } _ :=
      Eng.initOptions_child rt parent hlt (Classes.resolve_ok hg hres).2
    exact ⟨hlinked.1, hlinked.2.2⟩
  refine ⟨_, Prod.ext hchild.1 rfl, ?_⟩
  rw [hroot.2, hchild.2]
  exact hagree parent holder statics

theorem root_agrees_with_child_items :
    let rt : Runtime := {}
    (∃ o g, itemsWorld.forest.Grounded ∧ rt.config.strategies = [] ∧
      0 < itemsWorld.instances.size ∧
      (Classes.resolve rt.config (itemsWorld.instances.getD 0 default).ctor).exec
        itemsWorld.forest = (.ok o, g)) ∧
    ∃ w₁ w₂, (Eng.initOptions rt 0 (.root {})).run.run itemsWorld = (.ok (), w₁) ∧
      (do
        let _ ← Eng.forging (Classes.resolve rt.config (itemsWorld.instances.getD 0 default).ctor)
        Eng.initOptions rt 0 (.child 1 default none [])).run.run itemsWorld = (.ok (), w₂) ∧
      (w₁.instances.getD 0 default).options.Agree (w₂.instances.getD 0 default).options ∧
      ((w₁.instances.getD 0 default).options.components.bind (·.get? "my-item")).isSome := by
  intro rt
  obtain ⟨o, g, hres⟩ : ∃ o g,
      (Classes.resolve rt.config (itemsWorld.instances.getD 0 default).ctor).exec
        itemsWorld.forest = (.ok o, g) := Forging.exec_eq_ok (by decide +kernel)
  have hg : itemsWorld.forest.Grounded := reachable_items.grounded
  obtain ⟨w₁, hw₁, hchild⟩ := root_agrees_with_child hg rfl Nat.two_pos hres
  obtain ⟨w₂, hw₂, hagree⟩ := hchild 1 default []
  have hitem : ((((Eng.initOptions rt 0 (.root {})).run.run itemsWorld).2.instances.getD 0
      default).options.components.bind (·.get? "my-item")).isSome = true := by decide +kernel
  rw [hw₁] at hitem
  exact ⟨⟨o, g, hg, rfl, Nat.two_pos, hres⟩, w₁, w₂, hw₁, hw₂, hagree, hitem⟩

end Componentry
