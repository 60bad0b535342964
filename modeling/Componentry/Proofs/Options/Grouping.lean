import Componentry.Proofs.Options.Entries
import Componentry.Proofs.Options.Joining

/-!
# Merging in either grouping

Three options objects may be merged by putting the second over the first and the third over that, or
the third over the second and both over the first. Every part has its own way of being merged, and
each of these ways may be grouped as one likes. Only assets may not: there a merge takes the own
layer of the upper object.

- `mergeParts_assoc`, `mergeDecls_assoc`, `Eng.evaluateSource_assoc`: **grouping**, one part at a
  time.
- `Options.SameButAssets`: two objects that nothing but their assets tells apart.
- `merge_assoc`: **merging in either grouping**.
-/

namespace Componentry

open Json (Value Record)

variable {α β : Type}

/-! ## Parts -/

theorem mergeParts_assoc {join : α → α → α} {p a b : Option (Placed α)}
    (h : ∀ x y z, valueOf a = some y → join (join x y) z = join x (join y z)) :
    mergeParts join (mergeParts join p a) b = mergeParts join p (mergeParts join a b) := by
  cases p with
  | none => cases a <;> cases b <;> rfl
  | some p =>
    cases a with
    | none => cases b <;> rfl
    | some a =>
      cases b with
      | none => rfl
      | some b =>
        show some (Placed.new (join (join p.value a.value) b.value)) =
          some (Placed.new (join p.value (join a.value b.value)))
        rw [h p.value a.value b.value rfl]

/-- The middle dictionary must be ordered, for it is laid over another and has another over it. -/
theorem mergeParts_overlay_assoc {a : Option (Placed (Dict α))} (ha : Dict.Ordered (entriesOf a))
    (p b : Option (Placed (Dict α))) :
    mergeParts Dict.overlay (mergeParts Dict.overlay p a) b =
      mergeParts Dict.overlay p (mergeParts Dict.overlay a b) := by
  refine mergeParts_assoc fun x y z hy => ?_
  rw [entriesOf, hy] at ha
  exact Dict.overlay_assoc ha x z

theorem or_assoc_parts (p a b : Option α) : (b <|> a <|> p) = ((b <|> a) <|> p) := by
  cases b <;> rfl

/-! ## Declarations -/

/-- The entries of a declaration in its normal form. -/
def declared (normal : α → Dict β) (p : Option (Placed α)) : Dict β :=
  ((valueOf p).map normal).getD []

section Declarations

variable {normal : α → Dict β} {keyed : Dict β → α} {p a b : Option (Placed α)}

theorem mergeDecls_none (p : Option (Placed α)) : mergeDecls normal keyed p none = p := by
  rw [mergeDecls]

theorem mergeDecls_some (p : Option (Placed α)) (c : Placed α) :
    mergeDecls normal keyed p (some c) =
      some (.new (keyed (Dict.overlay (declared normal p) (normal c.value)))) := by
  cases p <;> rfl

/-- What merged declarations declare, where being keyed anew makes no difference. -/
theorem declared_mergeDecls
    (hpa : normal (keyed (Dict.overlay (declared normal p) (declared normal a))) =
      Dict.overlay (declared normal p) (declared normal a)) :
    declared normal (mergeDecls normal keyed p a) =
      Dict.overlay (declared normal p) (declared normal a) := by
  cases a with
  | none =>
    rw [mergeDecls_none]
    rfl
  | some a =>
    rw [mergeDecls_some]
    exact hpa

theorem mergeDecls_assoc
    (hpa : normal (keyed (Dict.overlay (declared normal p) (declared normal a))) =
      Dict.overlay (declared normal p) (declared normal a))
    (hab : normal (keyed (Dict.overlay (declared normal a) (declared normal b))) =
      Dict.overlay (declared normal a) (declared normal b))
    (ha : Dict.Ordered (declared normal a)) :
    mergeDecls normal keyed (mergeDecls normal keyed p a) b =
      mergeDecls normal keyed p (mergeDecls normal keyed a b) := by
  cases b with
  | none => rw [mergeDecls_none, mergeDecls_none]
  | some c =>
    rw [mergeDecls_some, mergeDecls_some, mergeDecls_some, declared_mergeDecls hpa]
    have hc : normal (keyed (Dict.overlay (declared normal a) (normal c.value))) =
        Dict.overlay (declared normal a) (normal c.value) := hab
    show some (Placed.new (keyed _)) = some (Placed.new (keyed (Dict.overlay _ (normal (keyed _)))))
    rw [hc, Dict.overlay_assoc ha]

end Declarations

/-- Props under camel names are in their normal form. -/
theorem PropsDecl.normalized_keyed {d : Dict PropOptions} (hd : Dict.Ordered d)
    (h : ∀ key po, Dict.get? d key = some po → Text.camelize key = key) :
    (PropsDecl.keyed d).normalized = d :=
  Dict.ext_of_ordered (Dict.ordered_ofList _) hd (PropsDecl.get?_keyed hd h)

/-- Camel names over camel names are in their normal form. -/
theorem Options.Camel.normalized_overlay {o c : Options} (ho : o.Camel) (hc : c.Camel) :
    (PropsDecl.keyed (Dict.overlay o.propsMap c.propsMap)).normalized =
      Dict.overlay o.propsMap c.propsMap := by
  refine PropsDecl.normalized_keyed (Dict.ordered_overlay o.ordered_propsMap _) ?_
  intro key po hkey
  rw [Dict.get?_overlay c.ordered_propsMap] at hkey
  cases hget : Dict.get? c.propsMap key with
  | some po' => exact hc key po' hget
  | none =>
    rw [hget] at hkey
    exact ho key po hkey

theorem mergeProps_assoc {p a b : Options} (hp : p.Camel) (ha : a.Camel) (hb : b.Camel) :
    mergeDecls PropsDecl.normalized .keyed
        (mergeDecls PropsDecl.normalized .keyed p.fields.props a.fields.props) b.fields.props =
      mergeDecls PropsDecl.normalized .keyed p.fields.props
        (mergeDecls PropsDecl.normalized .keyed a.fields.props b.fields.props) := by
  have hread : ∀ o : Options, declared PropsDecl.normalized o.fields.props = o.propsMap :=
    fun o => o.propsMap_eq.symm
  refine mergeDecls_assoc ?_ ?_ ?_
  · rw [hread, hread]
    exact hp.normalized_overlay ha
  · rw [hread, hread]
    exact ha.normalized_overlay hb
  · rw [hread]
    exact a.ordered_propsMap

theorem mergeInject_assoc {a : Options} (ha : Dict.Ordered a.injectMap) (p b : Options) :
    mergeDecls InjectDecl.normalized .keyed
        (mergeDecls InjectDecl.normalized .keyed p.fields.inject a.fields.inject)
          b.fields.inject =
      mergeDecls InjectDecl.normalized .keyed p.fields.inject
        (mergeDecls InjectDecl.normalized .keyed a.fields.inject b.fields.inject) := by
  refine mergeDecls_assoc rfl rfl ?_
  rw [declared, ← a.injectMap_eq]
  exact ha

/-! ## Data -/

/-- Whatever record the source gives an instance, its names ascend, as in every JSON object. -/
def DataSource.Ascending (run : Runner) (vm : InstanceId) (source : DataSource) : Prop :=
  ∀ w r w', (Eng.evaluateSource run vm source).run.run w = (.ok (.ok r), w') → Dict.Ordered r

theorem DataSource.ascending_record {run : Runner} {vm : InstanceId} {r : Record}
    (h : Dict.Ordered r) : (DataSource.record r).Ascending run vm := by
  intro w r' w' hr
  cases hr
  exact h

/-- Two sources: the upper one is evaluated first, and the other one only if that comes to a
record. -/
theorem Eng.run_evaluateSource_both (run : Runner) (vm : InstanceId) (p c : DataSource)
    (w : World) : (Eng.evaluateSource run vm (.both p c)).run.run w =
      match (Eng.evaluateSource run vm c).run.run w with
      | (.error h, w') => (.error h, w')
      | (.ok (.error e), w') => (.ok (.error e), w')
      | (.ok (.ok own), w') =>
        match (Eng.evaluateSource run vm p).run.run w' with
        | (.error h, w'') => (.error h, w'')
        | (.ok r, w'') => (.ok (r.map (Dict.overlay · own)), w'') := by
  rw [Eng.evaluateSource, ExceptT.run_bind, StateT.run_bind]
  obtain ⟨r, w'⟩ := (Eng.evaluateSource run vm c).run.run w
  match r with
  | .error h => rfl
  | .ok (.error e) => rfl
  | .ok (.ok own) =>
    show (ExceptT.run (Eng.evaluateSource run vm p >>= _)).run w' = _
    rw [ExceptT.run_bind, StateT.run_bind]
    dsimp only
    generalize (Eng.evaluateSource run vm p).run.run w' = out
    obtain ⟨r', w''⟩ := out
    cases r' with
    | error h => rfl
    | ok r' => rfl

/-- **Evaluating in either grouping**: the same records come, laid over each other in the same
order, or the same first error; and what the scripts do on the way is done in the same order. -/
theorem Eng.evaluateSource_assoc {run : Runner} {vm : InstanceId} {a : DataSource}
    (ha : a.Ascending run vm) (p b : DataSource) :
    Eng.evaluateSource run vm (.both (.both p a) b) =
      Eng.evaluateSource run vm (.both p (.both a b)) := by
  funext w
  show (Eng.evaluateSource run vm (.both (.both p a) b)).run.run w =
    (Eng.evaluateSource run vm (.both p (.both a b))).run.run w
  simp only [Eng.run_evaluateSource_both]
  -- the topmost source comes first on both sides, then the middle one
  obtain ⟨rb, w₁⟩ := (Eng.evaluateSource run vm b).run.run w
  match rb with
  | .error h => rfl
  | .ok (.error e) => rfl
  | .ok (.ok own) =>
    have hmid := ha w₁
    dsimp only
    generalize (Eng.evaluateSource run vm a).run.run w₁ = out at hmid ⊢
    obtain ⟨ra, w₂⟩ := out
    match ra with
    | .error h => rfl
    | .ok (.error e) => rfl
    | .ok (.ok mid) =>
      have hordered : Dict.Ordered mid := hmid mid w₂ rfl
      dsimp only [Except.map]
      generalize (Eng.evaluateSource run vm p).run.run w₂ = out
      obtain ⟨rp, w₃⟩ := out
      match rp with
      | .error h => rfl
      | .ok (.error e) => rfl
      | .ok (.ok base) =>
        show ((.ok (.ok (Dict.overlay (Dict.overlay base mid) own)), w₃) :
            Except Halt (Except HookError Record) × World) =
          (.ok (.ok (Dict.overlay base (Dict.overlay mid own))), w₃)
        rw [Dict.overlay_assoc hordered]

/-! ## Options -/

/-- The names in the dictionaries of an object ascend, as they do in all that insertions build. -/
structure Options.Ordered (o : Options) : Prop where
  computed : Dict.Ordered (entriesOf o.fields.computed)
  methods : Dict.Ordered (entriesOf o.fields.methods)
  watch : Dict.Ordered (entriesOf o.fields.watch)
  inject : Dict.Ordered o.injectMap
  extra : Dict.Ordered o.fields.extra

/-- What is left of an object when its data sources and its assets are taken out. -/
def Options.pared (o : Options) : Options :=
  { o with
    fields := { o.fields with data := none, provide := none, directives := none, filters := none }
    components := none }

/-- Nothing but their assets tells two objects apart: what is in them besides is the same part by
part, and the instance that evaluates their data gets the same from either. -/
structure Options.SameButAssets (run : Runner) (vm : InstanceId) (a b : Options) : Prop where
  pared : a.pared = b.pared
  data : (valueOf a.fields.data).map (Eng.evaluateSource run vm) =
    (valueOf b.fields.data).map (Eng.evaluateSource run vm)
  provide : (valueOf a.fields.provide).map (Eng.evaluateSource run vm) =
    (valueOf b.fields.provide).map (Eng.evaluateSource run vm)

section Grouping

variable {cfg : Config} {p a b : Options}

/-- Without strategies, options without a field are laid over each other in either grouping. -/
theorem extraOver_assoc {p a b pa ab left right : Dict Value} (hcfg : cfg.strategies = [])
    (ha : Dict.Ordered a) (hb : Dict.Ordered b) (hpa : extraOver cfg p a = .ok pa)
    (hab : extraOver cfg a b = .ok ab) (hleft : extraOver cfg pa b = .ok left)
    (hright : extraOver cfg p ab = .ok right) : left = right := by
  have hkey : ∀ key, Dict.get? cfg.strategies key = none := by
    intro key
    rw [hcfg]
    rfl
  refine Dict.ext_of_ordered (ordered_extraOver hleft) (ordered_extraOver hright) fun key => ?_
  rw [get?_extraOver_eq (hkey key) hleft hb, get?_extraOver_eq (hkey key) hpa ha,
    get?_extraOver_eq (hkey key) hright (ordered_extraOver hab),
    get?_extraOver_eq (hkey key) hab hb]
  exact or_assoc_parts _ _ _

theorem mergeSources_assoc {run : Runner} {vm : InstanceId} {a : Option (Placed DataSource)}
    (ha : ∀ s, valueOf a = some s → s.Ascending run vm) (p b : Option (Placed DataSource)) :
    (valueOf (mergeParts .both (mergeParts .both p a) b)).map (Eng.evaluateSource run vm) =
      (valueOf (mergeParts .both p (mergeParts .both a b))).map (Eng.evaluateSource run vm) := by
  cases p with
  | none => cases a <;> cases b <;> rfl
  | some p =>
    cases a with
    | none => cases b <;> rfl
    | some a =>
      cases b with
      | none => rfl
      | some b => exact congrArg some (Eng.evaluateSource_assoc (ha a.value rfl) p.value b.value)

/-- Each part is merged in either grouping. -/
theorem Options.pared_joined_joined (hp : p.Camel) (ha : a.Camel) (hb : b.Camel)
    (hao : a.Ordered) (pa ab extra : Dict Value) :
    ((p.joined a pa).joined b extra).pared = (p.joined (a.joined b ab) extra).pared := by
  have hcomputed := mergeParts_overlay_assoc hao.computed p.fields.computed b.fields.computed
  have hmethods := mergeParts_overlay_assoc hao.methods p.fields.methods b.fields.methods
  have hwatch : mergeParts joinWatch (mergeParts joinWatch p.fields.watch a.fields.watch)
      b.fields.watch = mergeParts joinWatch p.fields.watch
        (mergeParts joinWatch a.fields.watch b.fields.watch) := by
    refine mergeParts_assoc fun x y z hy => joinWatch_assoc ?_ x z
    have hordered := hao.watch
    rw [entriesOf, hy] at hordered
    exact hordered
  have hhooks : mergeParts joinHooks (mergeParts joinHooks p.fields.hooks a.fields.hooks)
      b.fields.hooks = mergeParts joinHooks p.fields.hooks
        (mergeParts joinHooks a.fields.hooks b.fields.hooks) :=
    mergeParts_assoc fun x y z _ => joinHooks_assoc x y z
  have hcaptured : mergeParts joinHandlers
      (mergeParts joinHandlers p.fields.errorCaptured a.fields.errorCaptured)
      b.fields.errorCaptured = mergeParts joinHandlers p.fields.errorCaptured
        (mergeParts joinHandlers a.fields.errorCaptured b.fields.errorCaptured) :=
    mergeParts_assoc fun x y z _ => joinHandlers_assoc x y z
  simp only [Options.pared, Options.joined, Fields.mergeKnown, hcomputed, hmethods, hwatch,
    hhooks, hcaptured, mergeProps_assoc hp ha hb, mergeInject_assoc hao.inject, or_assoc_parts]

/-- An object that stands alone is laid over another as it is. -/
theorem Options.Alone.merge_gives (h : b.Alone) (hcfg : cfg.strategies = []) (p : Options) :
    ∃ extra, extraOver cfg p.fields.extra b.fields.extra = .ok extra ∧
      ∀ i, Gives (Options.merge cfg i p b) (.ok (p.joined b extra)) := by
  obtain ⟨extra, hextra⟩ := extraOver_ok hcfg p.fields.extra b.fields.extra
  refine ⟨extra, hextra, fun i => ?_⟩
  have hresult : Options.mergeResult cfg p b = .ok (p.joined b extra) := by
    rw [h.mergeResult, Options.over, hextra]
    rfl
  rw [← hresult]
  exact Options.merge_gives cfg i p b

/-- **Merging in either grouping.** Without strategies, where two objects stand alone and the names
of props are camel names, it makes no difference but to the assets whether the second goes over the
merge of the first over a parent, or both go over the parent merged. -/
theorem merge_assoc (hcfg : cfg.strategies = []) (ha : a.Alone) (hb : b.Alone) (hp : p.Camel)
    (hac : a.Camel) (hbc : b.Camel) (hao : a.Ordered) (hbo : b.Ordered) :
    ∃ pa ab left right,
      (∀ i, Gives (Options.merge cfg i p a) (.ok pa)) ∧
      (∀ i, Gives (Options.merge cfg i pa b) (.ok left)) ∧
      (∀ i, Gives (Options.merge cfg i a b) (.ok ab)) ∧
      (∀ i, Gives (Options.merge cfg i p ab) (.ok right)) ∧
      ∀ run vm, (∀ s, valueOf a.fields.data = some s → s.Ascending run vm) →
        (∀ s, valueOf a.fields.provide = some s → s.Ascending run vm) →
          left.SameButAssets run vm right := by
  obtain ⟨epa, hepa, hpa⟩ := ha.merge_gives hcfg p
  obtain ⟨eleft, heleft, hleft⟩ := hb.merge_gives hcfg (p.joined a epa)
  obtain ⟨eab, heab, hab⟩ := hb.merge_gives hcfg a
  -- what a merge gives counts as merged
  have hmerged : (a.joined b eab).Alone := .inl rfl
  obtain ⟨eright, heright, hright⟩ := hmerged.merge_gives hcfg p
  have hextra : eleft = eright := extraOver_assoc hcfg hao.extra hbo.extra hepa heab heleft heright
  subst hextra
  refine ⟨_, _, _, _, hpa, hleft, hab, hright, fun run vm hdata hprovide => ⟨?_, ?_, ?_⟩⟩
  · exact Options.pared_joined_joined hp hac hbc hao epa eab eleft
  · exact mergeSources_assoc hdata p.fields.data b.fields.data
  · exact mergeSources_assoc hprovide p.fields.provide b.fields.provide

end Grouping

/-- A handler that records a label. -/
def labelled (id : Mark) (label : String) : Handler := ⟨id, [.log (.lit (.str label))]⟩

/-- What a counter is made of: a script for its data, and a hook. -/
def counterParent : Options where
  fields := {
    data := some (.new (.script [.ret (.record [("n", .lit (.str "zero"))])]))
    props := some (.new (.names ["initial"]))
    hooks := some (.new [(.created, [labelled 1 "parent"])]) }

/-- The parent's handler once more, a handler of its own, and the parent's data anew. -/
def counterBelow : Options where
  fields := {
    data := some (.new (.record [("n", .str "one"), ("step", .str "small")]))
    props := some (.new (.names ["unit"]))
    hooks := some (.new [(.created, [labelled 1 "parent", labelled 2 "below"])])
    watch := some (.new [("n", [{ callback := .handler (labelled 1 "parent") }])])
    extra := [("theme", .str "dark")] }

/-- Both handlers in the other order. -/
def counterAbove : Options where
  fields := {
    data := some (.new (.record [("step", .str "large")]))
    hooks := some (.new [(.created, [labelled 2 "below", labelled 1 "parent"])])
    watch := some (.new [("n", [{ callback := .handler (labelled 1 "parent") },
      { callback := .method "onN" }])])
    extra := [("theme", .str "light")] }

theorem Options.camel_of_keys {o : Options}
    (h : ∀ key ∈ Dict.keys o.propsMap, Text.camelize key = key) : o.Camel :=
  fun key _ hget => h key (Dict.mem_keys_of_get? hget)

theorem merge_assoc_counters :
    ∃ pa ab left right,
      (∀ i, Gives (Options.merge {} i counterParent counterBelow) (.ok pa)) ∧
      (∀ i, Gives (Options.merge {} i pa counterAbove) (.ok left)) ∧
      (∀ i, Gives (Options.merge {} i counterBelow counterAbove) (.ok ab)) ∧
      (∀ i, Gives (Options.merge {} i counterParent ab) (.ok right)) ∧
      left.SameButAssets (Runtime.run { fuel := 1 }) 0 right := by
  have hparent : counterParent.Camel := Options.camel_of_keys (by decide +kernel)
  have hbelow : counterBelow.Camel := Options.camel_of_keys (by decide +kernel)
  have habove : counterAbove.Camel := Options.camel_of_keys (by decide +kernel)
  have hordered : counterBelow.Ordered := by constructor <;> decide
  have hordered' : counterAbove.Ordered := by constructor <;> decide
  have hplain : ({} : Config).strategies = [] := rfl
  obtain ⟨pa, ab, left, right, hpa, hleft, hab, hright, hsame⟩ :=
    merge_assoc hplain (.inr ⟨rfl, rfl⟩) (.inr ⟨rfl, rfl⟩) hparent hbelow habove hordered hordered'
  refine ⟨pa, ab, left, right, hpa, hleft, hab, hright, hsame _ 0 ?_ ?_⟩
  · intro s hs
    cases hs
    exact DataSource.ascending_record (by decide)
  · intro s hs
    cases hs

end Componentry
