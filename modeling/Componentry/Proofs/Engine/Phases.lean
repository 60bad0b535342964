import Componentry.Proofs.Engine.Frame

/-!
# What the phases leave alone

A phase runs author's code, and it changes the instance in a few fields of its own. So it keeps to
any relation that allows for author's code and for those changes.

- `Eng.within_initProps` and so on: one rule for each function of the initialization, which asks for
  just the changes that the function makes.
- `Eng.Placing`, `Eng.Filling`, `Eng.Raising`: a relation that allows for the first phases, for the
  later ones, and for all.
- `Eng.within_initPhases`: **all phases** keep to such a relation.
-/

namespace Componentry

open Json (Value Record)

variable {α : Type} {R : World → World → Prop} {H : Halt → Prop} [World.Lenient R]

namespace Eng

variable {rt : Runtime} {run : Runner} {vm : InstanceId}

/-! ## State -/

theorem within_propValue (key : String) (o : PropOptions) (passed : Option Value) :
    Within R H (propValue rt vm key o passed) := by
  have warned : ∀ (message : String) (v : Value),
      Within R H (warn rt vm message >>= fun _ => Pure.pure v) := fun message v =>
    (within_warn vm message).bind fun _ => Within.pure v
  cases passed with
  | none => exact Within.ite (warned _ _) (Within.pure _)
  | some v => exact Within.ite (warned _ v) (Within.pure v)

theorem within_initProps
    (hset : ∀ props, Within R H (modifyInstance vm ({ · with props }))) :
    Within R H (initProps rt vm) := by
  refine (Within.getInstance vm).bind fun i => ?_
  refine (Within.foldlM (fun d p => ?_) _ _).bind fun props => hset props
  exact (within_propValue _ _ _).bind fun _ => Within.pure _

theorem within_initMethods
    (hset : ∀ methods, Within R H (modifyInstance vm ({ · with methods }))) :
    Within R H (initMethods rt vm) := by
  refine (Within.getInstance vm).bind fun i => ?_
  cases i.options.part (·.methods) with
  | none => exact Within.pure ()
  | some methods =>
    refine (Within.forM (fun m => ?_) _).bind fun _ => hset methods
    exact Within.ite (within_warn vm _) (Within.pure ())

variable (hrun : ∀ vm args s, Within R H (run vm args s))

include hrun in
theorem within_evaluateSource (vm : InstanceId) (source : DataSource) :
    Within R H (evaluateSource run vm source) := by
  induction source with
  | record r => exact Within.pure _
  | script s => exact (hrun vm [] s).bind fun _ => Within.pure _
  | both parent child ihp ihc =>
    refine ihc.bind fun own => ?_
    cases own with
    | error e => exact Within.pure _
    | ok own => exact ihp.bind fun _ => Within.pure _

/-- Advice on a name of the data that is taken already. -/
theorem within_warnShadowed (vm : InstanceId) (i : Instance) (e : String × Value) :
    Within R H (do
      if Dict.contains i.methods e.1 then
        warn rt vm ("Method \"" ++ e.1 ++ "\" has already been defined as a data property.")
      if Dict.contains i.props e.1 then
        warn rt vm ("The data property \"" ++ e.1
          ++ "\" is already declared as a prop. Use prop default value instead.")) := by
  have hprop : Within R H (if Dict.contains i.props e.1 then
      warn rt vm ("The data property \"" ++ e.1
        ++ "\" is already declared as a prop. Use prop default value instead.")
    else Pure.pure ()) := Within.ite (within_warn vm _) (Within.pure ())
  cases Dict.contains i.methods e.1 with
  | true => exact (within_warn vm _).bind fun _ => hprop
  | false => exact hprop

include hrun in
theorem within_initData (hrecord : Within R H (record vm (.ran vm .data)))
    (hset : ∀ data, Within R H (modifyInstance vm ({ · with data }))) :
    Within R H (initData rt run vm) := by
  refine (Within.getInstance vm).bind fun i => ?_
  cases i.options.part (·.data) with
  | none => exact Within.pure ()
  | some source =>
    have hcode := hrecord.bind fun _ => within_evaluateSource hrun vm source
    refine (within_attempt hrun vm _ hcode).bind fun values => ?_
    cases values with
    | none => exact Within.pure ()
    | some values =>
      refine (Within.getInstance vm).bind fun i => ?_
      refine (Within.forM (fun e => ?_) _).bind fun _ => hset values
      exact within_warnShadowed vm i e

include hrun in
theorem within_initComputed
    (hset : ∀ key v, Within R H (modifyInstance vm fun i =>
      { i with computed := Dict.insert key v i.computed })) :
    Within R H (initComputed rt run vm) := by
  refine (Within.getInstance vm).bind fun i => ?_
  cases i.options.part (·.computed) with
  | none => exact Within.pure ()
  | some getters =>
    refine Within.forM (fun g : String × Script => ?_) getters
    refine (Within.getInstance vm).bind fun i => Within.ite (within_warn vm _) ?_
    refine (within_attempt hrun vm _ (hrun vm [] g.2)).bind fun v => ?_
    cases v with
    | none => exact Within.pure ()
    | some v => exact hset g.1 v

include hrun in
theorem within_runImmediate (key : String) (h : WatchHandler) :
    Within R H (runImmediate rt run vm key h) := by
  refine (Within.getInstance vm).bind fun i => (within_runWatcher hrun vm h _ _).bind fun r => ?_
  cases r with
  | ok _ => exact Within.pure ()
  | error e => exact within_report hrun vm e _

include hrun in
theorem within_initWatch
    (hset : ∀ watchers, Within R H (modifyInstance vm ({ · with watchers }))) :
    Within R H (initWatch rt run vm) := by
  refine (Within.getInstance vm).bind fun i => ?_
  cases i.options.part (·.watch) with
  | none => exact Within.pure ()
  | some watchers =>
    refine (hset watchers).bind fun _ => Within.withAccess vm .exclusive ?_
    exact Within.forM (fun e : String × WatchHandler => within_runImmediate hrun e.1 e.2) _

/-! ## Injections -/

theorem within_askAncestors (fuel : Nat) (p : Option InstanceId) (wanted : Dict InjectOptions)
    (found : Record) : Within R H (askAncestors fuel p wanted found) := by
  induction fuel generalizing p wanted found with
  | zero => exact Within.pure _
  | succ fuel ih =>
    refine (Within.alive? p).bind fun p => ?_
    cases p with
    | none => exact Within.pure _
    | some p =>
      refine Within.ite (Within.pure _) ((Within.getInstance p).bind fun i => ?_)
      exact Within.ite ((Within.note _).bind fun _ => Within.pure _) (ih i.parent _ _)

theorem within_initInjections
    (hset : ∀ injected, Within R H (modifyInstance vm ({ · with injected }))) :
    Within R H (initInjections rt vm) := by
  refine (Within.getInstance vm).bind fun i => ?_
  refine Within.ite (Within.pure ()) (Within.get.bind fun w => ?_)
  refine (within_askAncestors _ _ _ _).bind fun out => ?_
  refine (Within.foldlM (fun d e => ?_) _ _).bind fun injected => hset injected
  obtain ⟨key, source, default⟩ := e
  cases default with
  | some v => exact Within.pure _
  | none => exact (within_warn vm _).bind fun _ => Within.pure _

include hrun in
theorem within_initProvided (hrecord : Within R H (record vm (.ran vm .provide)))
    (hset : ∀ provided, Within R H (modifyInstance vm ({ · with provided }))) :
    Within R H (initProvided rt run vm) := by
  refine (Within.getInstance vm).bind fun i => ?_
  cases i.options.part (·.provide) with
  | none => exact Within.pure ()
  | some source =>
    have hcode := hrecord.bind fun _ => within_evaluateSource hrun vm source
    refine (within_attempt hrun vm _ hcode).bind fun provided => ?_
    cases provided with
    | none => exact Within.pure ()
    | some provided => exact hset provided

/-! ## Hooks and the tree -/

include hrun in
theorem within_callHook (h : Hook)
    (hrecord : ∀ f, Within R H (record vm (.ran vm (.hook h f)))) :
    Within R H (callHook rt run vm h) := by
  refine (Within.getInstance vm).bind fun i => ?_
  refine (Within.forM (fun f => ?_) _).bind fun _ => (Within.getInstance vm).bind fun j => ?_
  · have hcode := (hrecord f).bind fun _ => hrun vm [] f.script
    exact (within_attempt hrun vm _ hcode).bind fun _ => Within.pure ()
  · exact Within.ite (Within.withAccess vm .exclusive (within_emit hrun vm _ [])) (Within.pure ())

theorem within_initLifecycle
    (hadopt : ∀ p, Within R H (modifyInstance p fun j => { j with children := j.children ++ [vm] }))
    (hset : ∀ parent root, Within R H (modifyInstance vm ({ · with
      parent, root, children := [], isMounted := false, isDestroyed := false }))) :
    Within R H (initLifecycle vm) := by
  refine (Within.getInstance vm).bind fun i => (Within.alive? _).bind fun creator => ?_
  refine Within.get.bind fun w => ?_
  generalize (if i.options.isAbstract then creator
    else creator.map (firstConcrete w (w.instances.size + 1))) = parent
  cases parent with
  | none => exact hset none none
  | some p =>
    have hroot : Within R H (do
        let root := some ((← getInstance p).root.getD p)
        modifyInstance vm ({ · with
          parent := some p, root, children := [], isMounted := false, isDestroyed := false })) :=
      (Within.getInstance p).bind fun _ => hset _ _
    exact Within.ite ((hadopt p).bind fun _ => hroot) hroot

theorem within_advance {phase : Phase} (hrecord : Within R H (record vm (.entered vm phase)))
    (hset : Within R H (modifyInstance vm ({ · with phase }))) :
    Within R H (advance vm phase) := hset.bind fun _ => hrecord

/-! ## All phases -/

end Eng

/-- An instance without what gives it its place in the tree. -/
def Instance.unplaced (i : Instance) : Instance :=
  { i with
    phase := .allocated
    devProxy := false
    selfRef := none
    parent := none
    root := none
    children := []
    isMounted := false
    isDestroyed := false
    events := []
    parentVNode := none
    vnode := none
    slots := []
    staticTrees := [] }

/-- What the phases leave as it is of the instance that goes through them. -/
def Instance.steady (i : Instance) : Instance where
  ctor := i.ctor
  options := i.options
  access := i.access
  alive := i.alive
  pendingMounted := i.pendingMounted

/-- An instance without what the later phases fill it with. -/
def Instance.unfilled (i : Instance) : Instance :=
  { i with
    phase := .allocated
    injected := []
    props := []
    data := []
    computed := []
    methods := []
    watchers := []
    provided := [] }

/-- What a field says that the phases do not change. -/
theorem Instance.read_of_steady {β : Type} {i i' : Instance} (h : i'.steady = i.steady)
    (f : Instance → β) (hf : ∀ j : Instance, f j.steady = f j) : f i' = f i := by
  rw [← hf i', ← hf i, h]

/-- What a field says that has nothing to do with the place in the tree. -/
theorem Instance.read_of_unplaced {β : Type} {i i' : Instance} (h : i'.unplaced = i.unplaced)
    (f : Instance → β) (hf : ∀ j : Instance, f j.unplaced = f j) : f i' = f i := by
  rw [← hf i', ← hf i, h]

/-- What a field says that the later phases do not fill. -/
theorem Instance.read_of_unfilled {β : Type} {i i' : Instance} (h : i'.unfilled = i.unfilled)
    (f : Instance → β) (hf : ∀ j : Instance, f j.unfilled = f j) : f i' = f i := by
  rw [← hf i', ← hf i, h]

/-- A relation that allows for changing an instance in anything but `rest`, and for telling of
it. -/
structure Eng.Allows (R : World → World → Prop) (vm : InstanceId) (rest : Instance → Instance) :
    Prop where
  own {f : Instance → Instance} (hf : ∀ i, rest (f i) = rest i) (w : World) :
    R w { w with instances := w.instances.modify vm f }
  record {o : Occurrence} (ho : o.what.subject = vm) (w : World) :
    R w { w with chronicle := w.chronicle.push o }

/-- The same, and for putting it among the children of another instance. -/
structure Eng.Settles (R : World → World → Prop) (vm : InstanceId) (rest : Instance → Instance) :
    Prop extends Eng.Allows R vm rest where
  adopt (p : InstanceId) (w : World) :
    R w { w with
      instances := w.instances.modify p fun j => { j with children := j.children ++ [vm] } }

/-- A relation that allows for giving an instance its place in the tree. -/
abbrev Eng.Placing (R : World → World → Prop) (vm : InstanceId) : Prop :=
  Settles R vm Instance.unplaced

/-- A relation that allows for the later phases. -/
abbrev Eng.Filling (R : World → World → Prop) (vm : InstanceId) : Prop :=
  Allows R vm Instance.unfilled

/-- A relation that allows for all that the phases of an instance change. -/
abbrev Eng.Raising (R : World → World → Prop) (vm : InstanceId) : Prop :=
  Settles R vm Instance.steady

namespace Eng

variable {rt : Runtime} {run : Runner} {vm : InstanceId} {rest : Instance → Instance}

namespace Allows

omit [World.Lenient R] in
theorem set (h : Allows R vm rest) {f : Instance → Instance} (hf : ∀ i, rest (f i) = rest i) :
    Within R H (modifyInstance vm f) := Within.modifyInstance vm (h.own hf)

omit [World.Lenient R] in
theorem enter (h : Allows R vm rest) {what : Happening} (hwhat : what.subject = vm) :
    Within R H (Eng.record vm what) := Within.modifyGet fun w => h.record hwhat w

theorem advance (h : Allows R vm rest)
    (hrest : ∀ i phase, rest { i with phase } = rest i) (phase : Phase) :
    Within R H (Eng.advance vm phase) :=
  within_advance (h.enter rfl) (h.set fun i => hrest i phase)

omit [World.Lenient R] in
/-- Changing less is allowed for as well. -/
theorem mono {rest' : Instance → Instance} (h : Allows R vm rest)
    (hrest : ∀ i i', rest' i' = rest' i → rest i' = rest i) : Allows R vm rest' where
  own hf := h.own fun i => hrest i _ (hf i)
  record := h.record

end Allows

section Placing

/-- The first phases keep to a relation that allows for entering them and for what they change
apart from that. -/
theorem within_initPlace_of
    (hset : ∀ {f : Instance → Instance}, (∀ i, (f i).unplaced = i.unplaced) →
      (∀ i, (f i).phase = i.phase) → Within R H (modifyInstance vm f))
    (hadopt : ∀ p, Within R H (modifyInstance p fun j => { j with children := j.children ++ [vm] }))
    (hadvance : ∀ phase, phase ≠ .allocated → Within R H (advance vm phase)) :
    Within R H (initPlace rt vm) := by
  have hlifecycle : Within R H (initLifecycle vm) :=
    within_initLifecycle hadopt fun _ _ => hset (fun _ => rfl) fun _ => rfl
  have setThen : ∀ {f : Instance → Instance} {g : Unit → Eng Unit},
      (∀ i, (f i).unplaced = i.unplaced) → (∀ i, (f i).phase = i.phase) →
        (∀ a, Within R H (g a)) → Within R H (modifyInstance vm f >>= g) := fun hf hphase hg =>
    (hset hf hphase).bind hg
  refine (hadvance _ (by decide)).bind fun _ => setThen (fun _ => rfl) (fun _ => rfl) fun _ => ?_
  refine (hadvance _ (by decide)).bind fun _ => setThen (fun _ => rfl) (fun _ => rfl) fun _ => ?_
  refine (hadvance _ (by decide)).bind fun _ => hlifecycle.bind fun _ => ?_
  refine (hadvance _ (by decide)).bind fun _ => setThen (fun _ => rfl) (fun _ => rfl) fun _ => ?_
  refine (hadvance _ (by decide)).bind fun _ => setThen (fun _ => rfl) (fun _ => rfl) fun _ => ?_
  exact hadvance _ (by decide)

variable (h : Placing R vm)
include h

theorem Placing.lifecycle : Within R H (Eng.initLifecycle vm) :=
  within_initLifecycle (fun p => Within.modifyInstance p (h.adopt p)) fun _ _ => h.set fun _ => rfl

theorem within_initPlace : Within R H (initPlace rt vm) :=
  within_initPlace_of (fun hf _ => h.set hf) (fun p => Within.modifyInstance p (h.adopt p))
    fun phase _ => h.advance (fun _ _ => rfl) phase

end Placing

section Filling

section

variable (hrun : ∀ vm args s, Within R H (run vm args s))
  (hset : ∀ {f : Instance → Instance}, (∀ i, (f i).unfilled = i.unfilled) →
    (∀ i, (f i).phase = i.phase) → Within R H (modifyInstance vm f))
  (hrecord : ∀ {what : Happening}, what.subject = vm → Within R H (record vm what))
include hrun hset hrecord

theorem within_initState_of : Within R H (initState rt run vm) := by
  refine (within_initProps fun _ => hset (fun _ => rfl) fun _ => rfl).bind fun _ => ?_
  refine (within_initMethods fun _ => hset (fun _ => rfl) fun _ => rfl).bind fun _ => ?_
  refine (within_initData hrun (hrecord rfl) fun _ =>
    hset (fun _ => rfl) fun _ => rfl).bind fun _ => ?_
  refine (within_initComputed hrun fun _ _ => hset (fun _ => rfl) fun _ => rfl).bind fun _ => ?_
  exact within_initWatch hrun fun _ => hset (fun _ => rfl) fun _ => rfl

/-- The later phases keep to a relation that allows for entering them, for what they change apart
from that, and for telling of it. -/
theorem within_initOwn_of
    (hadvance : ∀ phase, phase ≠ .allocated → Within R H (advance vm phase)) :
    Within R H (initOwn rt run vm) := by
  have hook : ∀ hook, Within R H (callHook rt run vm hook) := fun hook =>
    within_callHook hrun hook fun _ => hrecord rfl
  have hinjections : Within R H (initInjections rt vm) :=
    within_initInjections fun _ => hset (fun _ => rfl) fun _ => rfl
  have hprovided : Within R H (initProvided rt run vm) :=
    within_initProvided hrun (hrecord rfl) fun _ => hset (fun _ => rfl) fun _ => rfl
  refine (hook _).bind fun _ => (hadvance _ (by decide)).bind fun _ => ?_
  refine hinjections.bind fun _ => (hadvance _ (by decide)).bind fun _ => ?_
  refine (within_initState_of hrun hset hrecord).bind fun _ => (hadvance _ (by decide)).bind fun _ => ?_
  refine hprovided.bind fun _ => (hadvance _ (by decide)).bind fun _ => ?_
  exact (hook _).bind fun _ => hadvance _ (by decide)

end

variable (h : Filling R vm) (hrun : ∀ vm args s, Within R H (run vm args s))
include h hrun

theorem within_initState : Within R H (initState rt run vm) :=
  within_initState_of hrun (fun hf _ => h.set hf) h.enter

theorem within_initOwn : Within R H (initOwn rt run vm) :=
  within_initOwn_of hrun (fun hf _ => h.set hf) h.enter fun phase _ =>
    h.advance (fun _ _ => rfl) phase

end Filling

section Raising

variable (h : Raising R vm)
include h

omit [World.Lenient R] in
theorem Raising.placing : Placing R vm where
  toAllows := h.mono fun _ _ hi => Instance.read_of_unplaced hi Instance.steady fun _ => rfl
  adopt := h.adopt

omit [World.Lenient R] in
theorem Raising.filling : Filling R vm :=
  h.mono fun _ _ hi => Instance.read_of_unfilled hi Instance.steady fun _ => rfl

/-- **All phases** keep to the relation. -/
theorem within_initPhases (hrun : ∀ vm args s, Within R H (run vm args s)) :
    Within R H (initPhases rt run vm) :=
  (within_initPlace (Raising.placing h)).bind fun _ => within_initOwn (Raising.filling h) hrun

end Raising

end Eng

end Componentry
