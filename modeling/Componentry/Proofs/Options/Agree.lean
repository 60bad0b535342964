import Componentry.Engine.State
import Componentry.Proofs.Options.Handlers
import Componentry.Proofs.Options.Unmarked
import Componentry.Proofs.Options.Watchers

/-!
# Options that agree

Two options objects agree when an instance that reads either sees the same. Marks are not seen, so
options that are alike but for their marks agree.

- `Options.Agree`: all that can be read.
- `Options.agree_of_unmarked`: **options that are alike agree**.
-/

namespace Componentry

variable {α β : Type}

/-- The entry of an exact name in a part that is a registry. -/
def lookupIn (p : Option (Placed (Registry α))) (key : String) : Option α :=
  (valueOf p).bind (·.get? key)

/-- What can be read from two options objects is the same. Of a definition among the components,
only the mark is left out. -/
structure Options.Agree (a b : Options) : Prop where
  name : a.name = b.name
  hooks : ∀ h, a.hookHandlers h = b.hookHandlers h
  errorCaptured : handlersOf a.fields.errorCaptured = handlersOf b.fields.errorCaptured
  watch : ∀ key, watchersAt a.fields.watch key = watchersAt b.fields.watch key
  data : ∀ run vm, (valueOf a.fields.data).map (Eng.evaluateSource run vm) =
    (valueOf b.fields.data).map (Eng.evaluateSource run vm)
  provide : ∀ run vm, (valueOf a.fields.provide).map (Eng.evaluateSource run vm) =
    (valueOf b.fields.provide).map (Eng.evaluateSource run vm)
  methods : valueOf a.fields.methods = valueOf b.fields.methods
  computed : valueOf a.fields.computed = valueOf b.fields.computed
  props : a.propsMap = b.propsMap
  inject : a.injectMap = b.injectMap
  template : a.fields.template = b.fields.template
  render : valueOf a.fields.render = valueOf b.fields.render
  staticRenderFns : (valueOf a.fields.staticRenderFns).map (List.map Placed.value) =
    (valueOf b.fields.staticRenderFns).map (List.map Placed.value)
  el : a.fields.el = b.fields.el
  delimiters : a.fields.delimiters = b.fields.delimiters
  comments : a.fields.comments = b.fields.comments
  isAbstract : a.fields.isAbstract = b.fields.isAbstract
  extra : a.fields.extra = b.fields.extra
  directives : ∀ key, lookupIn a.fields.directives key = lookupIn b.fields.directives key
  filters : ∀ key, lookupIn a.fields.filters key = lookupIn b.fields.filters key
  components : ∀ key, (lookupIn a.components key).map unmarkedEntry =
    (lookupIn b.components key).map unmarkedEntry

theorem Registry.get?_map (f : α → β) (r : Registry α) (key : String) :
    Registry.get? ⟨Dict.mapValues f r.own, r.outer.map (Dict.mapValues f)⟩ key =
      (r.get? key).map f := by
  show List.findSome? _ ((r.own :: r.outer).map (Dict.mapValues f)) =
    (List.findSome? _ (r.own :: r.outer)).map f
  induction r.own :: r.outer with
  | nil => rfl
  | cons layer rest ih =>
    rw [List.map_cons, List.findSome?_cons, List.findSome?_cons, Dict.get?_mapValues, ih]
    cases Dict.get? layer key <;> rfl

theorem lookupIn_unmarkedComponents (r : Option (Placed Components)) (key : String) :
    lookupIn (unmarkedComponents r) key = (lookupIn r key).map unmarkedEntry := by
  cases r with
  | none =>
    rw [unmarkedComponents]
    rfl
  | some r =>
    rw [unmarkedComponents, unmarkedEntries_eq, unmarkedLayers_eq]
    exact Registry.get?_map unmarkedEntry r.value key

theorem staticRenderFns_unmarkedFns (p : Option (Placed (List RenderFn))) :
    (valueOf (unmarkedFns p)).map (List.map Placed.value) =
      (valueOf p).map (List.map Placed.value) := by
  cases p with
  | none => rfl
  | some p =>
    show some ((p.value.map Placed.unmarked).map Placed.value) = some (p.value.map Placed.value)
    rw [List.map_map]
    rfl

/-- Reading props and injections looks at values only. -/
theorem Options.propsMap_eq (o : Options) :
    o.propsMap = ((valueOf o.fields.props).map PropsDecl.normalized).getD [] := by
  rw [Options.propsMap]
  cases o.fields.props <;> rfl

theorem Options.injectMap_eq (o : Options) :
    o.injectMap = ((valueOf o.fields.inject).map InjectDecl.normalized).getD [] := by
  rw [Options.injectMap]
  cases o.fields.inject <;> rfl

/-- **Options that are alike agree.** -/
theorem Options.agree_of_unmarked {a b : Options} (h : a.unmarked = b.unmarked) : a.Agree b := by
  have hf := Options.fields_unmarked_eq h
  have part : ∀ {α : Type} (read : Fields → Option (Placed α)),
      (∀ f : Fields, read f.unmarked = unmarkedPart (read f)) →
        valueOf (read a.fields) = valueOf (read b.fields) := Fields.valueOf_eq hf
  have plain : ∀ {β : Type} (read : Fields → β), (∀ f : Fields, read f.unmarked = read f) →
      read a.fields = read b.fields := Fields.read_eq hf
  have hwatch := part (·.watch) fun _ => rfl
  have hdata := part (·.data) fun _ => rfl
  have hprovide := part (·.provide) fun _ => rfl
  have hdirectives := part (·.directives) fun _ => rfl
  have hfilters := part (·.filters) fun _ => rfl
  refine {
    name := Options.name_eq_of_unmarked h
    hooks := fun hook => ?_
    errorCaptured := congrArg (Option.getD · []) (part (·.errorCaptured) fun _ => rfl)
    watch := fun key =>
      congrArg (fun v : Option WatchMap => (Dict.get? (v.getD []) key).getD []) hwatch
    data := fun run vm => congrArg (Option.map (Eng.evaluateSource run vm)) hdata
    provide := fun run vm => congrArg (Option.map (Eng.evaluateSource run vm)) hprovide
    methods := part (·.methods) fun _ => rfl
    computed := part (·.computed) fun _ => rfl
    props := ?_
    inject := ?_
    template := plain (·.template) fun _ => rfl
    render := part (·.render) fun _ => rfl
    staticRenderFns := ?_
    el := plain (·.el) fun _ => rfl
    delimiters := plain (·.delimiters) fun _ => rfl
    comments := plain (·.comments) fun _ => rfl
    isAbstract := plain (·.isAbstract) fun _ => rfl
    extra := plain (·.extra) fun _ => rfl
    directives := fun key => congrArg (fun v => v.bind (Registry.get? · key)) hdirectives
    filters := fun key => congrArg (fun v => v.bind (Registry.get? · key)) hfilters
    components := fun key => ?_ }
  · rw [Options.hookHandlers_eq, Options.hookHandlers_eq, hooksOf, part (·.hooks) fun _ => rfl]
    rfl
  · rw [Options.propsMap_eq, Options.propsMap_eq, part (·.props) fun _ => rfl]
  · rw [Options.injectMap_eq, Options.injectMap_eq, part (·.inject) fun _ => rfl]
  · rw [← staticRenderFns_unmarkedFns, show unmarkedFns a.fields.staticRenderFns =
      unmarkedFns b.fields.staticRenderFns from congrArg Fields.staticRenderFns hf,
      staticRenderFns_unmarkedFns]
  · rw [← lookupIn_unmarkedComponents, ← Options.unmarked_components, h,
      Options.unmarked_components, lookupIn_unmarkedComponents]

end Componentry
