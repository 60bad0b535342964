import Componentry.Engine.SetUp
import Componentry.Proofs.Diagnostics.Scripts

/-!
# Initialization and diagnostics

Every phase of an initialization does alike under any flags. One of them chooses how rendering looks
at the instance, and that depends on the flags; it is what diagnostics leave in an instance.

- `Eng.same_initState`, `Eng.same_initInjections` and so on: the phases do alike.
- `Eng.same_initPhases`: **all phases** do alike.
- `Eng.same_initOptions`: so does giving an instance its options.
-/

namespace Componentry

open Json (Value Record)

variable {α : Type} {rt : Runtime} {φ : Flags} {run run' : Runner} {vm : InstanceId}

namespace Eng

/-! ## State -/

theorem same_propValue (key : String) (o : PropOptions) (passed : Option Value) :
    Same rt (propValue rt vm key o passed) (propValue (rt.under φ) vm key o passed) := by
  cases passed with
  | none => exact warnFirst (.warn rt vm _) (.warn _ vm _) (same_pure _)
  | some v => exact warnFirst (.warn rt vm _) (.warn _ vm _) (same_pure v)

theorem same_initProps : Same rt (initProps rt vm) (initProps (rt.under φ) vm) := by
  refine getInstanceThen fun i o d ho => ?_
  dsimp only
  rw [ho.read (·.propsData) fun _ => rfl, ho.read (·.props) fun _ => rfl]
  refine (alike rt).bindSame ((alike rt).foldlM _ rfl fun p _ d d' hd => ?_) fun props => ?_
  · cases hd
    exact (alike rt).bindSame (same_propValue p.1 p.2 _) fun _ => same_pure _
  · exact same_modifyInstance vm fun _ => rfl

theorem same_initMethods : Same rt (initMethods rt vm) (initMethods (rt.under φ) vm) := by
  refine getInstanceThen fun i o d ho => ?_
  dsimp only
  rw [ho.read (·.part (·.methods)) fun _ => rfl]
  cases o.part (·.methods) with
  | none => exact same_pure ()
  | some methods =>
    refine (alike rt).bindSame ((alike rt).forM _ fun m _ => ?_) fun _ =>
      same_modifyInstance vm fun _ => rfl
    exact (alike rt).ite (same_warn rt _ vm _) (same_pure ())

variable (hrun : ∀ vm args s, Same rt (run vm args s) (run' vm args s))

include hrun in
theorem same_evaluateSource (vm : InstanceId) (source : DataSource) :
    Same rt (evaluateSource run vm source) (evaluateSource run' vm source) := by
  induction source with
  | record r => exact same_pure _
  | script s => exact (alike rt).bindSame (hrun vm [] s) fun _ => same_pure _
  | both parent child ihp ihc =>
    refine (alike rt).bindSame ihc fun own => ?_
    cases own with
    | error e => exact same_pure _
    | ok own => exact (alike rt).bindSame ihp fun _ => same_pure _

/-- Advice on a name of the data that is taken already. -/
theorem Aside.warnShadowed (rt : Runtime) (i : Instance) (e : String × Value) :
    Aside (do
      if Dict.contains i.methods e.1 then
        Eng.warn rt vm ("Method \"" ++ e.1 ++ "\" has already been defined as a data property.")
      if Dict.contains i.props e.1 then
        Eng.warn rt vm ("The data property \"" ++ e.1
          ++ "\" is already declared as a prop. Use prop default value instead.")) := by
  have hprop : Aside (if Dict.contains i.props e.1 then
      Eng.warn rt vm ("The data property \"" ++ e.1
        ++ "\" is already declared as a prop. Use prop default value instead.")
    else Pure.pure ()) := .ite (.warn rt vm _) .pure
  cases Dict.contains i.methods e.1 with
  | true => exact .bind (.warn rt vm _) hprop
  | false => exact hprop

include hrun in
theorem same_initData : Same rt (initData rt run vm) (initData (rt.under φ) run' vm) := by
  refine getInstanceThen fun i o d ho => ?_
  dsimp only
  rw [ho.read (·.part (·.data)) fun _ => rfl]
  cases o.part (·.data) with
  | none => exact same_pure ()
  | some source =>
    have hcode := (alike rt).bindSame (same_record vm (.ran vm .data)) fun _ =>
      same_evaluateSource hrun vm source
    refine (alike rt).bindSame (same_attempt hrun vm _ hcode) fun values => ?_
    cases values with
    | none => exact same_pure ()
    | some values =>
      refine getInstanceThen fun i o d ho => ?_
      refine (alike rt).bindSame ((alike rt).forM _ fun e _ => ?_) fun _ =>
        same_modifyInstance vm fun _ => rfl
      exact same_aside (.warnShadowed rt i e) (.warnShadowed _ i e)

include hrun in
theorem same_initComputed :
    Same rt (initComputed rt run vm) (initComputed (rt.under φ) run' vm) := by
  refine getInstanceThen fun i o d ho => ?_
  dsimp only
  rw [ho.read (·.part (·.computed)) fun _ => rfl]
  cases o.part (·.computed) with
  | none => exact same_pure ()
  | some getters =>
    refine (alike rt).forM getters fun g _ => ?_
    refine getInstanceThen fun i o d ho => (alike rt).ite (same_warn rt _ vm _) ?_
    refine (alike rt).bindSame (same_attempt hrun vm _ (hrun vm [] g.2)) fun v => ?_
    cases v with
    | none => exact same_pure ()
    | some v => exact same_modifyInstance vm fun _ => rfl

include hrun in
theorem same_runImmediate (key : String) (h : WatchHandler) :
    Same rt (runImmediate rt run vm key h) (runImmediate (rt.under φ) run' vm key h) := by
  refine getInstanceThen fun i o d ho => ?_
  refine (alike rt).bindSame (same_runWatcher hrun vm h _ _) fun r => ?_
  cases r with
  | ok _ => exact same_pure ()
  | error e => exact same_report hrun vm e _

include hrun in
theorem same_initWatch : Same rt (initWatch rt run vm) (initWatch (rt.under φ) run' vm) := by
  refine getInstanceThen fun i o d ho => ?_
  dsimp only
  rw [ho.read (·.part (·.watch)) fun _ => rfl]
  cases o.part (·.watch) with
  | none => exact same_pure ()
  | some watchers =>
    refine (alike rt).bindSame (same_modifyInstance vm fun _ => rfl) fun _ => ?_
    refine alike_withAccess vm .exclusive ((alike rt).forM _ fun e _ => ?_)
    exact same_runImmediate hrun e.1 e.2

include hrun in
theorem same_initState : Same rt (initState rt run vm) (initState (rt.under φ) run' vm) := by
  refine (alike rt).bindSame same_initProps fun _ => ?_
  refine (alike rt).bindSame same_initMethods fun _ => ?_
  refine (alike rt).bindSame (same_initData hrun) fun _ => ?_
  exact (alike rt).bindSame (same_initComputed hrun) fun _ => same_initWatch hrun

/-! ## Injections -/

theorem same_askAncestors (fuel : Nat) (p : Option InstanceId) (wanted : Dict InjectOptions)
    (found : Record) :
    Same rt (askAncestors fuel p wanted found) (askAncestors fuel p wanted found) := by
  induction fuel generalizing p wanted found with
  | zero => exact same_pure _
  | succ fuel ih =>
    refine (alike rt).bindSame (same_alive? p) fun p => ?_
    cases p with
    | none => exact same_pure _
    | some p =>
      refine (alike rt).ite (same_pure _) (getInstanceThen fun i o d ho => ?_)
      refine (alike rt).ite ?_ (ih i.parent _ _)
      exact (alike rt).bindSame (same_note rfl) fun _ => same_pure _

theorem same_initInjections :
    Same rt (initInjections rt vm) (initInjections (rt.under φ) vm) := by
  refine getInstanceThen fun i o d ho => ?_
  dsimp only
  rw [ho.read (·.inject) fun _ => rfl]
  refine (alike rt).ite (same_pure ()) ((alike rt).bind alike_get fun w w' hw => ?_)
  rw [hw.size]
  refine (alike rt).bindSame (same_askAncestors _ _ _ _) fun out => ?_
  refine (alike rt).bindSame ((alike rt).foldlM _ rfl fun e _ d d' hd => ?_) fun injected =>
    same_modifyInstance vm fun _ => rfl
  cases hd
  obtain ⟨key, source, default⟩ := e
  cases default with
  | some v => exact same_pure _
  | none => exact (alike rt).bindSame (same_warn rt _ vm _) fun _ => same_pure _

include hrun in
theorem same_initProvided :
    Same rt (initProvided rt run vm) (initProvided (rt.under φ) run' vm) := by
  refine getInstanceThen fun i o d ho => ?_
  dsimp only
  rw [ho.read (·.part (·.provide)) fun _ => rfl]
  cases o.part (·.provide) with
  | none => exact same_pure ()
  | some source =>
    have hcode := (alike rt).bindSame (same_record vm (.ran vm .provide)) fun _ =>
      same_evaluateSource hrun vm source
    refine (alike rt).bindSame (same_attempt hrun vm _ hcode) fun provided => ?_
    cases provided with
    | none => exact same_pure ()
    | some provided => exact same_modifyInstance vm fun _ => rfl

/-! ## Hooks and the tree -/

include hrun in
theorem same_callHook (h : Hook) :
    Same rt (callHook rt run vm h) (callHook (rt.under φ) run' vm h) := by
  refine getInstanceThen fun i o d ho => ?_
  dsimp only
  rw [ho.read (·.hookHandlers h) fun _ => rfl]
  refine (alike rt).bindSame ((alike rt).forM _ fun f _ => ?_) fun _ =>
    getInstanceThen fun i o d ho => ?_
  · have hcode := (alike rt).bindSame (same_record vm (.ran vm (.hook h f))) fun _ =>
      hrun vm [] f.script
    exact (alike rt).bindSame (same_attempt hrun vm _ hcode) fun _ => same_pure ()
  · exact (alike rt).ite (alike_withAccess vm .exclusive (same_emit hrun vm _ [])) (same_pure ())

/-- The first ancestor that is not abstract is the same. -/
theorem firstConcrete_alike {w w' : World} (h : w.Alike w') (fuel : Nat) (p : InstanceId) :
    firstConcrete w fuel p = firstConcrete w' fuel p := by
  induction fuel generalizing p with
  | zero => rfl
  | succ fuel ih =>
    have hread := h.read? (fun i => (i.options.isAbstract, i.parent)) (fun _ => rfl) p
    rw [firstConcrete, firstConcrete]
    obtain ⟨hw, hw'⟩ | ⟨i, i', hw, hw', hi⟩ := cases_of_map_eq hread
    · rw [hw, hw']
    · rw [hw, hw']
      obtain ⟨habstract, hparent⟩ := Prod.mk.inj hi
      dsimp only
      rw [habstract, hparent]
      cases i'.parent with
      | none => rfl
      | some q =>
        dsimp only
        rw [h.alive q, ih q]

theorem same_initLifecycle : Same rt (initLifecycle vm) (initLifecycle vm) := by
  refine getInstanceThen fun i o d ho => ?_
  dsimp only
  rw [ho.read (·.parent) fun _ => rfl, ho.read (·.isAbstract) fun _ => rfl]
  refine (alike rt).bindSame (same_alive? _) fun creator => ?_
  refine (alike rt).bind alike_get fun w w' hw => ?_
  rw [hw.size, funext (firstConcrete_alike hw (w'.instances.size + 1))]
  generalize (if o.isAbstract then creator
    else creator.map (firstConcrete w' (w'.instances.size + 1))) = parent
  cases parent with
  | none => exact same_modifyInstance vm fun _ => rfl
  | some p =>
    have hroot : Same rt
        (do
          let root := some ((← getInstance p).root.getD p)
          modifyInstance vm ({ · with
            parent := some p, root, children := [], isMounted := false, isDestroyed := false }))
        (do
          let root := some ((← getInstance p).root.getD p)
          modifyInstance vm ({ · with
            parent := some p, root, children := [], isMounted := false, isDestroyed := false })) :=
      getInstanceThen fun i o d ho => same_modifyInstance vm fun _ => rfl
    refine (alike rt).ite ?_ hroot
    exact (alike rt).bindSame (same_modifyInstance p fun _ => rfl) fun _ => hroot

theorem same_advance (phase : Phase) : Same rt (advance vm phase) (advance vm phase) :=
  (alike rt).bindSame (same_modifyInstance vm fun _ => rfl) fun _ => same_record vm _

theorem same_initPlace : Same rt (initPlace rt vm) (initPlace (rt.under φ) vm) := by
  refine (alike rt).bindSame (same_advance _) fun _ => ?_
  -- the proxy is what diagnostics leave in an instance
  refine (alike rt).bindSame (alike_modifyInstance vm fun i i' hi => hi) fun _ => ?_
  refine (alike rt).bindSame (same_advance _) fun _ => ?_
  refine (alike rt).bindSame (same_modifyInstance vm fun _ => rfl) fun _ => ?_
  refine (alike rt).bindSame (same_advance _) fun _ => ?_
  refine (alike rt).bindSame same_initLifecycle fun _ => ?_
  refine (alike rt).bindSame (same_advance _) fun _ => ?_
  refine (alike rt).bindSame (same_modifyInstance vm fun _ => rfl) fun _ => ?_
  refine (alike rt).bindSame (same_advance _) fun _ => ?_
  refine (alike rt).bindSame (same_modifyInstance vm fun _ => rfl) fun _ => ?_
  exact same_advance _

include hrun in
theorem same_initOwn : Same rt (initOwn rt run vm) (initOwn (rt.under φ) run' vm) := by
  refine (alike rt).bindSame (same_callHook hrun _) fun _ => ?_
  refine (alike rt).bindSame (same_advance _) fun _ => ?_
  refine (alike rt).bindSame same_initInjections fun _ => ?_
  refine (alike rt).bindSame (same_advance _) fun _ => ?_
  refine (alike rt).bindSame (same_initState hrun) fun _ => ?_
  refine (alike rt).bindSame (same_advance _) fun _ => ?_
  refine (alike rt).bindSame (same_initProvided hrun) fun _ => ?_
  refine (alike rt).bindSame (same_advance _) fun _ => ?_
  refine (alike rt).bindSame (same_callHook hrun _) fun _ => ?_
  exact same_advance _

include hrun in
/-- **All phases** do alike under any flags. -/
theorem same_initPhases : Same rt (initPhases rt run vm) (initPhases (rt.under φ) run' vm) :=
  (alike rt).bindSame same_initPlace fun _ => same_initOwn hrun

/-! ## Options -/

theorem same_tryForging {m m' : Forging α} (h : Forging.alike.Rel Eq m m') :
    Same rt (tryForging m) (tryForging m') := by
  refine alike_modifyGet (fun _ => ⟨_, rfl⟩) (fun _ => ⟨_, rfl⟩) (fun _ => ⟨rfl, rfl⟩)
    (fun _ => ⟨rfl, rfl⟩) fun w w' hw => ?_
  obtain ⟨hr, hforest⟩ := h.both w.forest w'.forest hw.forest trivial trivial
  exact ⟨hr.eq, { hw with forest := hforest }⟩

theorem same_forging {m m' : Forging α} (h : Forging.alike.Rel Eq m m') :
    Same rt (forging m) (forging m') := by
  refine (alike rt).bindSame (same_tryForging h) fun r => ?_
  cases r with
  | ok a => exact same_pure a
  | error e => exact same_throw _

/-- The same options on both sides. -/
theorem same_setOptions (o : InstanceOptions) :
    Same rt (modifyInstance vm ({ · with options := o }))
      (modifyInstance vm ({ · with options := o })) :=
  alike_modifyInstance vm fun _ _ hi => hi.withOptions rfl

theorem same_initOptions (origin : Origin) :
    Same rt (initOptions rt vm origin) (initOptions (rt.under φ) vm origin) := by
  cases origin with
  | child parent p render statics =>
    refine getInstanceThen fun i o d ho => (alike rt).bind alike_get fun w w' hw => ?_
    rw [Forest.class?, Forest.class?, hw.forest.classes]
    exact same_setOptions _
  | root definition =>
    refine getInstanceThen fun i o d ho => ?_
    refine (alike rt).bindSame (same_forging ?_) fun merged => same_setOptions _
    refine Forging.alike.bindSame (Classes.resolve_alike _) fun above => ?_
    refine Forging.alike.bindSame (Forging.alike_marking _) fun definition => ?_
    refine Forging.alike.bindSame ?_ fun merged => Forging.alike_marking _
    exact Forging.alike_merging (Options.merge_alike true _ _)

end Eng

end Componentry
