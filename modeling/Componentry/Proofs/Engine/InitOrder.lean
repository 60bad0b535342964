import Componentry.Proofs.Class.History
import Componentry.Proofs.Engine.Calm
import Componentry.Proofs.Engine.Initialize
import Componentry.Proofs.Engine.Mounting

/-!
# The order of initialization

A freshly allocated instance goes through all phases, each once, whatever author's code does on the
way. Each piece of author's code runs in its place and finds what is set up by then.

- `Eng.Ends.setUp`: initialization as options, phases and mounting, one after the other.
- `Eng.optionsFor`: the options that an instance is given.
- `InstanceOptions.phases_of_initSteps`: the steps of an initialization enter each phase once.
- `Eng.Initialization`: the ways in which an initialization can go.
- `setUp_in_order`: **each initialization** goes in one of these ways.
-/

namespace Componentry

open Json (Value)

/-! ## Parts of an initialization -/

/-- The options of an instance. -/
def World.optionsOf (w : World) (vm : InstanceId) : InstanceOptions :=
  (w.instances.getD vm default).options

/-- The world once an initialization has begun. -/
def World.begun (w : World) (vm : InstanceId) : World :=
  ((do Eng.onPerf (·.mark ("perf-start:" ++ toString (← Eng.identify vm))) : Eng Unit).run.run w).2

variable {rt : Runtime} {run : Runner} {w : World} {vm : InstanceId} {c : ClassId}

/-- Beginning an initialization keeps to a relation that allows for giving a number and entering a
phase. -/
theorem World.begun_of_within {R : World → World → Prop} [World.Slack R]
    (hset : ∀ uid, Eng.Within R (fun _ => True)
      (Eng.modifyInstance vm ({ · with uid, skipObservation := true })))
    (hadvance : Eng.Within R (fun _ => True) (Eng.advance vm .identified)) (w : World) :
    R w (w.begun vm) :=
  ((Eng.within_identify hset hadvance).bind fun _ => Eng.Within.onPerf _) w |>.1

/-- Initialization of an instance that nobody uses and that was not begun before, down to the
measure that is taken of it. -/
theorem Eng.Ends.setUp_measured {mount : Mounting} {origin : Origin}
    {P Q R : Except Halt Unit → World → Prop}
    (hfree : (w.instances.getD vm default).access ≠ .exclusive)
    (hphase : (w.instances.getD vm default).phase = .allocated)
    (hoptions : Ends (initOptions rt vm origin) (w.begun vm) P)
    (unresolved : ∀ e w₁, P (.error e) w₁ → R (.error e) w₁)
    (hphases : ∀ w₁, P (.ok ()) w₁ → Ends (initPhases rt run vm) w₁ Q)
    (endless : ∀ e w₂, Q (.error e) w₂ → R (.error e) w₂)
    (hmount : ∀ (w₂ : World) (perf : Perf), Q (.ok ()) w₂ →
      Ends (mountNamed mount vm (w₂.optionsOf vm)) { w₂ with perf } R) :
    Ends (setUp rt run mount vm origin) w R := by
  rw [Eng.setUp]
  refine Ends.next (a := w.instances.getD vm default) rfl ?_
  rw [if_neg hfree]
  dsimp only
  rw [if_neg fun h => h hphase]
  refine Ends.next (a := w.nextUid) (v := ((identify vm).run.run w).2) rfl ?_
  refine Ends.next (a := ()) (v := w.begun vm) rfl ?_
  refine Ends.bind hoptions (fun _ w₁ h₁ => ?_) unresolved
  refine Ends.bind (hphases w₁ h₁) (fun _ w₂ h₂ => ?_) endless
  refine Ends.next (a := ()) (v := { w₂ with perf := _ }) rfl ?_
  refine Ends.next (a := w₂.instances.getD vm default) (v := { w₂ with perf := _ }) rfl ?_
  refine Ends.next (a := ()) (v := { w₂ with perf := _ }) rfl ?_
  exact hmount w₂ _ h₂

/-- **Initialization** of an instance that nobody uses and that was not begun before is finding the
options, going through the phases, and mounting. -/
theorem Eng.Ends.setUp_of_allocated {mount : Mounting} {origin : Origin}
    {P Q R : Except Halt Unit → World → Prop}
    (hfree : (w.instances.getD vm default).access ≠ .exclusive)
    (hphase : (w.instances.getD vm default).phase = .allocated)
    (hoptions : Ends (initOptions rt vm origin) (w.begun vm) P)
    (unresolved : ∀ e w₁, P (.error e) w₁ → R (.error e) w₁)
    (hphases : ∀ w₁, P (.ok ()) w₁ → Ends (initPhases rt run vm) w₁ Q)
    (endless : ∀ e w₂, Q (.error e) w₂ → R (.error e) w₂)
    (hmount : ∀ w₂ ready : World, Q (.ok ()) w₂ → ready.instances = w₂.instances →
      ready.chronicle = w₂.chronicle → ready.host = w₂.host →
        Ends (mountNamed mount vm (ready.optionsOf vm)) ready R) :
    Ends (setUp rt run mount vm origin) w R :=
  setUp_measured hfree hphase hoptions unresolved hphases endless fun w₂ perf h₂ =>
    hmount w₂ { w₂ with perf } h₂ rfl rfl rfl

/-- The same for a blank instance. -/
theorem Eng.Ends.setUp {mount : Mounting} {origin : Origin}
    {P Q R : Except Halt Unit → World → Prop} (hblank : w.instances[vm]? = some { ctor := c })
    (hoptions : Ends (initOptions rt vm origin) (w.begun vm) P)
    (unresolved : ∀ e w₁, P (.error e) w₁ → R (.error e) w₁)
    (hphases : ∀ w₁, P (.ok ()) w₁ → Ends (initPhases rt run vm) w₁ Q)
    (endless : ∀ e w₂, Q (.error e) w₂ → R (.error e) w₂)
    (hmount : ∀ w₂ ready : World, Q (.ok ()) w₂ → ready.instances = w₂.instances →
      ready.chronicle = w₂.chronicle → ready.host = w₂.host →
        Ends (mountNamed mount vm (ready.optionsOf vm)) ready R) :
    Ends (setUp rt run mount vm origin) w R := by
  have hnew : w.instances.getD vm default = { ctor := c } := getD_of_getElem? hblank
  refine Ends.setUp_of_allocated ?_ ?_ hoptions unresolved hphases endless hmount
  · rw [hnew]
    nofun
  · rw [hnew]

/-! ## The options of an instance -/

/-- A definition merged over the options of a class. -/
def Eng.mergedOptions (rt : Runtime) (c : ClassId) (definition : Options) : Forging Options := do
  let above ← Classes.resolve rt.config c
  let definition ← Forging.marking definition.place
  let merged ← Forging.merging (Options.merge rt.config true above.value definition)
  Forging.marking merged.place

/-- The options for an instance of a class: those of the class with its own definition merged over
them, or those that are linked to the class. -/
def Eng.optionsFor (rt : Runtime) (c : ClassId) : Origin → Forging InstanceOptions
  | .root definition => do return .merged (← mergedOptions rt c definition)
  | .child parent p render statics => do
    let proto := (((← get).class? c).getD default).options
    return childOptions proto parent p render statics

/-- **Finding the options** gives them to the instance, unless they cannot be resolved or merged. -/
theorem Eng.ends_initOptions_for (origin : Origin) :
    Ends (initOptions rt vm origin) w fun r w' =>
      (∃ o, ((optionsFor rt (w.instances.getD vm default).ctor origin).exec w.forest).1 = .ok o ∧
        r = .ok () ∧ w'.instances = w.instances.modify vm ({ · with options := o })) ∨
      ∃ e, ((optionsFor rt (w.instances.getD vm default).ctor origin).exec w.forest).1 = .error e ∧
        r = .error (.fatal e) ∧ w'.instances = w.instances := by
  cases origin with
  | child parent p render statics => exact .inl ⟨_, rfl, rfl, rfl⟩
  | root definition =>
    have hrun : (initOptions rt vm (.root definition)).run.run w =
        (forging (mergedOptions rt (w.instances.getD vm default).ctor definition) >>= fun m =>
          modifyInstance vm ({ · with options := .merged m })).run.run w := rfl
    rw [Ends, hrun, optionsFor, ExceptT.run_bind, StateT.run_bind, run_forging, Forging.exec_bind]
    generalize (mergedOptions rt (w.instances.getD vm default).ctor definition).exec w.forest = out
    obtain ⟨r, f⟩ := out
    cases r with
    | ok m => exact .inl ⟨.merged m, rfl, rfl, rfl⟩
    | error e => exact .inr ⟨e, rfl, rfl, rfl⟩

/-! ## The steps of an initialization -/

/-- Who uses an instance, and what it has been given. -/
def Aspect.gear : Aspect (Access × Inventory) where
  read i := (i.access, i.inventory)
  acted h := Prod.ext (h.read (·.access) fun _ => rfl) h.inventory
  access _ _ _ h := Prod.ext rfl (congrArg Prod.snd h :)

namespace InstanceOptions

variable (o : InstanceOptions) (vm : InstanceId)

/-- Calling a hook enters no phase. -/
theorem phases_of_calls (h : Hook) : (o.calls vm h).filterMap (Happening.phase? vm) = [] := by
  rw [calls, List.filterMap_map]
  exact List.filterMap_eq_nil_iff.mpr fun _ _ => rfl

theorem phases_of_evaluates (read : Fields → Option (Placed DataSource)) (work : Work) :
    (o.evaluates vm read work).filterMap (Happening.phase? vm) = [] := by
  rw [evaluates]
  split <;> rfl

/-- **The steps of an initialization** enter each phase once, in order. -/
theorem phases_of_initSteps :
    (Happening.entered vm .identified :: o.initSteps vm).filterMap (Happening.phase? vm) =
      Phase.all.tail := by
  simp [initSteps, placeSteps, ownSteps, stateSteps, Happening.phase?, phases_of_calls,
    phases_of_evaluates, Phase.all]

end InstanceOptions

/-- Between the two an instance got its options and its number; it has nothing else yet. -/
structure World.Prepared (vm : InstanceId) (w w₁ : World) : Prop where
  told : ∃ o : Occurrence, w₁.chronicle.toList = w.chronicle.toList ++ [o] ∧
    o.what = .entered vm .identified ∧ o.found.phase = .identified
  size : vm < w₁.instances.size
  free : (w₁.instances.getD vm default).access = .free
  bare : (w₁.instances.getD vm default).inventory = ({ ctor := 0 } : Instance).inventory

/-- Between the two an instance that takes the options `o` went through all phases, in order, and
every entry finds what is set up by then. -/
structure World.Created (vm : InstanceId) (o : InstanceOptions) (w ready : World) : Prop where
  told : ∃ new, ready.chronicle.toList = w.chronicle.toList ++ new ∧
    new.map Occurrence.what = .entered vm .identified :: o.initSteps vm ∧
    Occurrence.AllFind (ready.instances.getD vm default) new
  options : ready.optionsOf vm = o
  size : vm < ready.instances.size

namespace World.Created

variable {o : InstanceOptions} {ready : World} (h : w.Created vm o ready)
include h

theorem steps : ready.steps = w.steps ++ .entered vm .identified :: o.initSteps vm := by
  obtain ⟨new, hnew, hsteps, -⟩ := h.told
  rw [World.steps, hnew, List.map_append, hsteps, World.steps]

/-- It has gone through each phase once more. -/
theorem phases : ready.phases vm = w.phases vm ++ Phase.all.tail := by
  rw [World.phases, h.steps, List.filterMap_append, InstanceOptions.phases_of_initSteps,
    World.phases]

/-- Nothing but instances and the chronicle matters. -/
theorem congr {ready' : World} (hinstances : ready'.instances = ready.instances)
    (hchronicle : ready'.chronicle = ready.chronicle) : w.Created vm o ready' where
  told := hchronicle ▸ hinstances ▸ h.told
  options := (congrArg (fun is : Array Instance => (is.getD vm default).options) hinstances).trans
    h.options
  size := hinstances ▸ h.size

end World.Created

namespace Eng

/-- Finding the options of a fresh instance prepares it. -/
theorem ends_initOptions (origin : Origin) (hblank : w.instances[vm]? = some { ctor := c }) :
    Ends (initOptions rt vm origin) (w.begun vm) fun r w₁ =>
      w.Prepared vm w₁ ∧ ∀ e, r = .error e → ∃ e', e = .fatal e' := by
  obtain ⟨hlt, -⟩ := Array.getElem?_eq_some_iff.mp hblank
  have hnew : w.instances.getD vm default = { ctor := c } := getD_of_getElem? hblank
  have hbegun : World.Same .gear (· = vm) w (w.begun vm) :=
    World.begun_of_within (fun _ => World.Same.set fun _ _ => rfl)
      (within_advance (World.Same.record _) (World.Same.set fun _ _ => rfl)) w
  have htold : ∃ o : Occurrence, (w.begun vm).chronicle.toList = w.chronicle.toList ++ [o] ∧
      o.what = .entered vm .identified ∧ o.found.phase = .identified := by
    refine ⟨_, Array.toList_push, rfl, congrArg Instance.phase (getD_modify ?_ _)⟩
    exact Array.size_modify.symm ▸ hlt
  have hkeeps : Within (fun w w' => World.Still w w' ∧ World.Same .gear (· = vm) w w')
      (fun e => ∃ e', e = .fatal e') (initOptions rt vm origin) :=
    (within_initOptions (fun e => ⟨e, rfl⟩) (fun _ => World.Still.set) origin).and
      (within_initOptions (fun e => ⟨e, rfl⟩) (fun _ => World.Same.set fun _ _ => rfl) origin)
  refine (Ends.of_within hkeeps _).imp fun r w₁ ⟨⟨hstill, hsame⟩, hfatal⟩ => ⟨?_, hfatal⟩
  have hgear := (hsame.read vm rfl (Nat.lt_of_lt_of_le hlt hbegun.size)).trans
    (hbegun.read vm rfl hlt)
  rw [hnew] at hgear
  refine ⟨?_, Nat.lt_of_lt_of_le hlt (Nat.le_trans hbegun.size hsame.size),
    congrArg Prod.fst hgear, (congrArg Prod.snd hgear :)⟩
  rw [show w₁.chronicle = _ from hstill]
  exact htold

/-- The phases of an instance that is prepared create it, unless some of author's code never
ends. -/
theorem ends_initPhases {w₁ : World} (hrun : ∀ vm args s, Acts (run vm args s))
    (h : w.Prepared vm w₁) :
    Ends (initPhases rt run vm) w₁ fun r w₂ =>
      (r = .ok () → w.Created vm (w₁.optionsOf vm) w₂) ∧
      ∀ e, r = .error e → e = .outOfFuel ∧ ∃ done, done <+: (w₁.optionsOf vm).initSteps vm ∧
        w₂.steps = w.steps ++ .entered vm .identified :: done := by
  obtain ⟨⟨begun, htold, hwhat, hphase⟩, hlt, hfree, hbare⟩ := h
  have hkeeps : Within (World.Same (.kept fun _ => ()) (· = vm)) Halt.Endless
      (initPhases rt run vm) :=
    within_initPhases (Aspect.kept_raising (· = vm) vm) (Within.run hrun)
  obtain ⟨new, hnew, hok, herror⟩ :=
    (tells_initPhases hrun hlt hfree hbare).within hkeeps
  have hall : ((initPhases rt run vm).run.run w₁).2.chronicle.toList =
      w.chronicle.toList ++ begun :: new := by
    rw [hnew, htold, List.append_assoc, List.singleton_append]
  refine ⟨fun hr => ?_, fun e he => ?_⟩
  · obtain ⟨hsteps, hfind, hsame⟩ := hok () hr
    refine ⟨⟨begun :: new, hall, by rw [List.map_cons, hwhat, hsteps]; rfl, ?_⟩,
      hsame.options hlt, Nat.lt_of_lt_of_le hlt hsame.size⟩
    rw [Occurrence.AllFind, List.forall_mem_cons]
    refine ⟨?_, hfind⟩
    rw [hwhat]
    exact hphase
  · obtain ⟨he, hbefore⟩ := herror e he
    refine ⟨he, _, hbefore, ?_⟩
    rw [World.steps, hall, List.map_append, List.map_cons, hwhat, World.steps]

end Eng

/-! ## How an initialization goes -/

/-- The ways in which the initialization of an instance can go. -/
inductive Eng.Initialization (rt : Runtime) (mount : Mounting) (vm : InstanceId) (origin : Origin)
    (w : World) : Except Halt Unit → World → Prop
  /-- Its options cannot be resolved or merged. -/
  | unresolved {e : Error} {w' : World}
      (options : (initOptions rt vm origin).run.run (w.begun vm) = (.error (.fatal e), w'))
      (steps : w'.steps = w.steps ++ [.entered vm .identified]) :
      Initialization rt mount vm origin w (.error (.fatal e)) w'
  /-- Some of author's code never ends. Up to there everything goes in order. -/
  | endless {w₁ w' : World} {done : List Happening}
      (options : (initOptions rt vm origin).run.run (w.begun vm) = (.ok (), w₁))
      (before : done <+: (w₁.optionsOf vm).initSteps vm)
      (steps : w'.steps = w.steps ++ .entered vm .identified :: done) :
      Initialization rt mount vm origin w (.error .outOfFuel) w'
  /-- It is created, and its options name no element. -/
  | created {w₁ ready : World}
      (options : (initOptions rt vm origin).run.run (w.begun vm) = (.ok (), w₁))
      (created : w.Created vm (w₁.optionsOf vm) ready)
      (element : (w₁.optionsOf vm).field (·.el) = none) :
      Initialization rt mount vm origin w (.ok ()) ready
  /-- It is created and then mounted on the element that its options name, which may fail. -/
  | mounted {w₁ ready w' : World} {el : MountTarget} {r : Except Halt Unit}
      (options : (initOptions rt vm origin).run.run (w.begun vm) = (.ok (), w₁))
      (created : w.Created vm (w₁.optionsOf vm) ready)
      (element : (w₁.optionsOf vm).field (·.el) = some el)
      (mounting : (mount vm (some el) false).run.run ready = (r, w'))
      (phases : w'.phases vm = ready.phases vm) :
      Initialization rt mount vm origin w r w'

/-- **An initialization** goes in one of these ways, whatever mounting does. -/
theorem Eng.ends_setUp {mount : Mounting} (hrun : ∀ vm args s, Acts (run vm args s))
    (hmount : ∀ vm target hydrating,
      Within (World.Onward fun _ => True) (fun _ => True) (mount vm target hydrating))
    (origin : Origin) (hblank : w.instances[vm]? = some { ctor := c }) :
    Ends (setUp rt run mount vm origin) w (Initialization rt mount vm origin w) := by
  have hoptions : Ends (initOptions rt vm origin) (w.begun vm) fun r w₁ =>
      (w.Prepared vm w₁ ∧ ∀ e, r = .error e → ∃ e', e = .fatal e') ∧
        (initOptions rt vm origin).run.run (w.begun vm) = (r, w₁) :=
    (ends_initOptions origin hblank).and rfl
  refine Ends.setUp (Q := fun r w₂ => ∃ w₁,
      (initOptions rt vm origin).run.run (w.begun vm) = (.ok (), w₁) ∧
      (r = .ok () → w.Created vm (w₁.optionsOf vm) w₂) ∧
      ∀ e, r = .error e → e = .outOfFuel ∧ ∃ done, done <+: (w₁.optionsOf vm).initSteps vm ∧
        w₂.steps = w.steps ++ .entered vm .identified :: done)
    hblank hoptions ?unresolved ?phases ?endless ?created
  case unresolved =>
    rintro e w₁ ⟨⟨hprepared, hfatal⟩, hrun₁⟩
    obtain ⟨e, rfl⟩ := hfatal e rfl
    obtain ⟨o, htold, hwhat, -⟩ := hprepared.told
    refine .unresolved hrun₁ ?_
    rw [World.steps, htold, List.map_append, List.map_singleton, hwhat, World.steps]
  case phases =>
    rintro w₁ ⟨⟨hprepared, -⟩, hrun₁⟩
    exact (ends_initPhases hrun hprepared).imp fun r w₂ h => ⟨w₁, hrun₁, h⟩
  case endless =>
    rintro e w₂ ⟨w₁, hrun₁, -, herror⟩
    obtain ⟨rfl, done, hbefore, hsteps⟩ := herror e rfl
    exact .endless hrun₁ hbefore hsteps
  case created =>
    rintro w₂ ready ⟨w₁, hrun₁, hok, -⟩ hinstances hchronicle -
    have hcreated := (hok rfl).congr hinstances hchronicle
    rw [hcreated.options, mountNamed]
    cases hel : (w₁.optionsOf vm).field (·.el) with
    | none => exact .created hrun₁ hcreated hel
    | some el =>
      refine .mounted hrun₁ hcreated hel rfl ?_
      exact ((hmount vm (some el) false) ready).1.phases vm trivial hcreated.size

/-- **Initialization happens in order.** Whatever a fresh instance is made of and whatever author's
code does on the way, its initialization goes in one of the ways above. If it succeeds, the instance
has entered each phase once, in order; and it fails only if its options cannot be resolved or merged
or if mounting it on the element that they name fails. -/
theorem setUp_in_order (rt : Runtime) (origin : Origin)
    (hblank : w.instances[vm]? = some { ctor := c }) :
    Eng.Ends (rt.setUp vm origin) w fun r w' =>
      Eng.Initialization rt rt.mount vm origin w r w' ∧
      (r = .ok () → w'.phases vm = w.phases vm ++ Phase.all.tail) ∧
      ∀ e, r = .error (.fatal e) →
        (∃ w₁, (Eng.initOptions rt vm origin).run.run (w.begun vm) = (.error (.fatal e), w₁)) ∨
        ∃ o ready el, w.Created vm o ready ∧ o.field (·.el) = some el ∧
          (rt.mount vm (some el) false).run.run ready = (.error (.fatal e), w') := by
  have hmount : ∀ vm target hydrating, Eng.Within (World.Onward fun _ => True) (fun _ => True)
      (rt.mount vm target hydrating) :=
    Eng.onward_mountAt (Eng.within_runScript (H := fun _ => True) trivial rt rt.fuel) rt.fuel
  refine (Eng.ends_setUp rt.acts_run hmount origin hblank).imp fun r w' h => ⟨h, ?_, ?_⟩
  · rintro rfl
    cases h with
    | created _ hcreated _ => exact hcreated.phases
    | mounted _ hcreated _ _ hphases => exact hphases.trans hcreated.phases
  · rintro e rfl
    cases h with
    | unresolved hfailed _ => exact .inl ⟨_, hfailed⟩
    | mounted _ hcreated hel hmounting _ => exact .inr ⟨_, _, _, hcreated, hel, hmounting⟩

/-- A world with one fresh instance. -/
def freshWorld : World :=
  { (Runtime.start quietConfig none).2 with instances := #[{ ctor := 0 }] }

/-- Options with a handler that fails before anything is set up. -/
def failingEarly : Options where
  fields := {
    data := some (.new (.record [("n", .str "one")]))
    hooks := some (.new [(.beforeCreate, [⟨0, [.fail "early"]⟩]), (.created, [⟨1, []⟩])]) }

theorem setUp_in_order_failingEarly :
    let rt : Runtime := { config := quietConfig, fuel := 5 }
    freshWorld.instances[0]? = some { ctor := 0 } ∧
    ∃ w', (rt.setUp 0 (.root failingEarly)).run.run freshWorld = (.ok (), w') ∧
      w'.phases 0 = Phase.all.tail := by
  intro rt
  obtain ⟨⟨⟩, w', hrun⟩ : ∃ u w', (rt.setUp 0 (.root failingEarly)).run.run freshWorld =
      (.ok u, w') := Eng.run_eq_ok (by decide +kernel)
  have hblank : freshWorld.instances[0]? = some { ctor := 0 } := rfl
  have h := setUp_in_order rt (.root failingEarly) hblank
  rw [Eng.Ends, hrun] at h
  exact ⟨hblank, w', hrun, h.2.1 rfl⟩

end Componentry
