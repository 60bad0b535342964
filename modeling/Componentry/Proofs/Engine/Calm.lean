import Componentry.Proofs.Class.Failure
import Componentry.Proofs.Engine.Phases

/-!
# What instances leave alone

Author's code acts on instances only. Whatever it does while an instance goes through its phases, no
class changes, nothing is merged, and every instance keeps its class and its options.

- `World.Calm`: nothing of this differs between two worlds.
- `Eng.Calm`: a computation that leaves it alone and comes to no fatal halt.
- `Runtime.calm_run`: **scripts** are calm, however deep they go.
- `Eng.calm_initPhases`: **the phases** of an instance are calm.
- `Eng.createChild_of_resolved`: **making a child** of a class that is up to date merges nothing.
-/

namespace Componentry

variable {α : Type}

/-! ## Calm computations -/

/-- The same classes, and no merge ran in between; the same instances, each with its class and its
options. -/
structure World.Calm (w w' : World) : Prop where
  classes : w'.forest.classes = w.forest.classes
  merges : w'.forest.journal.merges = w.forest.journal.merges
  size : w'.instances.size = w.instances.size
  ctor : ∀ vm, (w'.instances.getD vm default).ctor = (w.instances.getD vm default).ctor
  options : ∀ vm, (w'.instances.getD vm default).options = (w.instances.getD vm default).options

namespace World.Calm

variable {w w' w'' : World}

theorem refl (w : World) : w.Calm w := ⟨rfl, rfl, rfl, fun _ => rfl, fun _ => rfl⟩

theorem trans (h : w.Calm w') (h' : w'.Calm w'') : w.Calm w'' where
  classes := h'.classes.trans h.classes
  merges := h'.merges.trans h.merges
  size := h'.size.trans h.size
  ctor vm := (h'.ctor vm).trans (h.ctor vm)
  options vm := (h'.options vm).trans (h.options vm)

/-- Changing an instance in anything but its class and its options. -/
theorem modify (w : World) (vm : InstanceId) {f : Instance → Instance}
    (hf : ∀ i, (f i).ctor = i.ctor ∧ (f i).options = i.options) :
    w.Calm { w with instances := w.instances.modify vm f } where
  classes := rfl
  merges := rfl
  size := Array.size_modify
  ctor := forall_getD_modify (P := fun i i' => i'.ctor = i.ctor) (fun _ => rfl) (hf _).1
  options := forall_getD_modify (P := fun i i' => i'.options = i.options) (fun _ => rfl) (hf _).2

theorem of_acted (h : w.Acted w') : w.Calm w' where
  classes := h.read (·.forest.classes) fun _ => rfl
  merges := h.read (·.forest.journal.merges) fun _ => rfl
  size := h.size
  ctor vm := (h.instances vm).read (·.ctor) fun _ => rfl
  options vm := (h.instances vm).read (·.options) fun _ => rfl

theorem withAccess {vm : InstanceId} {a : Access} (h : (Eng.setAccess vm a w).Calm w') :
    w.Calm (Eng.setAccess vm (w.instances.getD vm default).access w') := by
  have hset : ∀ (a : Access) (v : World), v.Calm (Eng.setAccess vm a v) := fun a v =>
    modify v vm fun _ => ⟨rfl, rfl⟩
  exact ((hset a w).trans h).trans (hset _ w')

instance : World.Tolerant World.Calm where
  refl := refl
  trans := trans
  acted := of_acted
  access := withAccess

/-- The phases of an instance are allowed for. -/
theorem raising (vm : InstanceId) : Eng.Raising World.Calm vm where
  own hf w := .modify w vm fun i =>
    ⟨Instance.read_of_steady (hf i) (·.ctor) fun _ => rfl,
      Instance.read_of_steady (hf i) (·.options) fun _ => rfl⟩
  adopt p w := .modify w p fun _ => ⟨rfl, rfl⟩
  record _ _ := ⟨rfl, rfl, rfl, fun _ => rfl, fun _ => rfl⟩

end World.Calm

/-- A computation that changes no class, runs no merge, leaves the options of all instances alone,
and comes to no fatal halt. -/
def Eng.Calm (m : Eng α) : Prop := Eng.Within World.Calm (fun e => e = .outOfFuel) m

namespace Eng

variable {rt : Runtime} {run : Runner}

theorem calm_onPerf (f : Perf → Perf) : Calm (onPerf f) :=
  Within.modifyGet fun _ => ⟨rfl, rfl, rfl, fun _ => rfl, fun _ => rfl⟩

/-- **The phases** after the options are there are calm. -/
theorem calm_initPhases (hrun : ∀ vm args s, Calm (run vm args s)) (vm : InstanceId) :
    Calm (initPhases rt run vm) := within_initPhases (World.Calm.raising vm) hrun

theorem calm_identify (vm : InstanceId) : Calm (identify vm) := by
  have huid : Calm (modifyGet fun w => (w.nextUid, { w with nextUid := w.nextUid + 1 })) :=
    Within.modifyGet fun _ => ⟨rfl, rfl, rfl, fun _ => rfl, fun _ => rfl⟩
  have hraising := World.Calm.raising vm
  refine Within.bind huid fun _ => Within.bind (hraising.set fun _ => rfl) fun _ => ?_
  exact (hraising.advance (fun _ _ => rfl) _).bind fun _ => Within.pure _

end Eng

/-- **Scripts of a runtime** are calm. -/
theorem Runtime.calm_run (rt : Runtime) (vm : InstanceId) (args : List Json.Value) (s : Script) :
    Eng.Calm (rt.run vm args s) :=
  Eng.within_runScript (H := fun e => e = .outOfFuel) rfl rt rt.fuel vm args s

/-- A computation on classes, whether it succeeds or not. -/
theorem Eng.run_forging (m : Forging α) (w : World) :
    (forging m).run.run w = ((m.exec w.forest).1.mapError Halt.fatal,
      { w with forest := (m.exec w.forest).2 }) := by
  have htry : (tryForging m).run.run w =
      (.ok (m.exec w.forest).1, { w with forest := (m.exec w.forest).2 }) := rfl
  rw [forging, ExceptT.run_bind, StateT.run_bind, htry]
  cases (m.exec w.forest).1 <;> rfl

/-- A computation on classes that succeeds. -/
theorem Eng.forging_of_exec {m : Forging α} {w : World} {a : α} {f : Forest}
    (h : m.exec w.forest = (.ok a, f)) :
    (forging m).run.run w = (.ok a, { w with forest := f }) := by
  rw [run_forging, h]
  rfl

/-! ## Making a child -/

/-- In between the instance `vm` was made a child that reads the options `o`; no class changed, and
nothing was merged. -/
structure World.ChildMade (o : Placed Options) (vm : InstanceId) (w w' : World) : Prop where
  classes : w'.forest.classes = w.forest.classes
  merges : w'.forest.journal.merges = w.forest.journal.merges
  proto : (w'.instances.getD vm default).options.proto = some o

theorem World.ChildMade.calm {o : Placed Options} {vm : InstanceId} {w w' w'' : World}
    (h : w.ChildMade o vm w') (h' : w'.Calm w'') : w.ChildMade o vm w'' where
  classes := h'.classes.trans h.classes
  merges := h'.merges.trans h.merges
  proto := (congrArg InstanceOptions.proto (h'.options vm)).trans h.proto

section

variable {rt : Runtime} {run : Runner} {p : Placeholder} {w : World} {vm : InstanceId}
  {o : Placed Options}

/-- The options of a child are those of its class, read through. -/
theorem Eng.initOptions_child (rt : Runtime) (parent : InstanceId) {render : Option RenderFn}
    {statics : List RenderFn} (hlt : vm < w.instances.size)
    (ho : o = (w.forest.get (w.instances.getD vm default).ctor).options) :
    Ends (initOptions rt vm (.child parent p render statics)) w fun r w' =>
      r = .ok () ∧ w.ChildMade o vm w' ∧
        (w'.instances.getD vm default).options = childOptions o parent p render statics := by
  let f : Instance → Instance := ({ · with options := childOptions o parent p render statics })
  have hrun : (initOptions rt vm (.child parent p render statics)).run.run w =
      (.ok (), { w with instances := w.instances.modify vm f }) := by
    subst ho
    rfl
  have hoptions : ((w.instances.modify vm f).getD vm default).options =
      childOptions o parent p render statics := by rw [getD_modify hlt]
  rw [Ends, hrun]
  refine ⟨rfl, ⟨rfl, rfl, ?_⟩, hoptions⟩
  rw [hoptions]
  cases render <;> rfl

theorem Eng.setUp_child (hrun : ∀ vm args s, Calm (run vm args s)) (mount : Mounting)
    (parent : InstanceId) (hlt : vm < w.instances.size)
    (hnew : w.instances.getD vm default = { ctor := p.ctor })
    (ho : o = (w.forest.get p.ctor).options) (hel : o.value.fields.el = none) :
    Ends (setUp rt run mount vm (.child parent p none [])) w fun r w' =>
      w.ChildMade o vm w' ∧ (r = .ok () ∨ r = .error .outOfFuel) := by
  refine Ends.next (a := w.instances.getD vm default) rfl ?_
  rw [hnew]
  refine Ends.step (calm_identify vm) rfl fun w₁ h₁ => ?_
  refine Ends.step (calm_onPerf _) rfl fun w₂ h₂ => ?_
  have h : w.Calm w₂ := h₁.trans h₂
  have hctor : (w₂.instances.getD vm default).ctor = p.ctor := by rw [h.ctor, hnew]
  have ho₂ : o = (w₂.forest.get (w₂.instances.getD vm default).ctor).options := by
    rw [hctor, Forest.get, Forest.class?, h.classes]
    exact ho
  refine Ends.bind (initOptions_child (p := p) rt parent (h.size ▸ hlt) ho₂) ?_
    fun e w₃ h₃ => by cases h₃.1
  rintro ⟨⟩ w₃ ⟨-, hmade, hoptions⟩
  have h₃ : w.ChildMade o vm w₃ :=
    ⟨hmade.classes.trans h.classes, hmade.merges.trans h.merges, hmade.proto⟩
  refine Ends.after (calm_initPhases hrun vm) (fun _ w₄ h₄ => ?_) fun e w₄ h₄ he =>
    ⟨h₃.calm h₄, .inr (congrArg _ he)⟩
  refine Ends.step (calm_onPerf _) rfl fun w₅ h₅ => ?_
  refine Ends.next (a := w₅.instances.getD vm default) rfl ?_
  refine Ends.step (calm_onPerf _) rfl fun w₆ h₆ => ?_
  -- the options name no element, so that nothing is mounted
  have hfield : (w₅.instances.getD vm default).options.field (·.el) = none := by
    rw [h₅.options, h₄.options, hoptions]
    exact hel
  rw [mountNamed, hfield]
  exact ⟨((h₃.calm h₄).calm h₅).calm h₆, .inl rfl⟩

/-- **A child** of a class that is up to date, and whose options name no element, is made without
any merge. -/
theorem Eng.createChild_of_resolved (hrun : ∀ vm args s, Calm (run vm args s)) (mount : Mounting)
    (parent : InstanceId)
    (hres : (Classes.resolve rt.config p.ctor).exec w.forest = (.ok o, w.forest))
    (ho : o = (w.forest.get p.ctor).options) (hel : o.value.fields.el = none) :
    Ends (createChild rt run mount parent p) w fun r w' =>
      w.ChildMade o w.instances.size w' ∧
        (r = .ok w.instances.size ∨ r = .error .outOfFuel) := by
  refine Ends.next (forging_of_exec hres) ?_
  -- the new instance, as it is before its initialization
  let w₁ : World := { w with instances := w.instances.push { ctor := p.ctor } }
  have hnew : w₁.instances.getD w.instances.size default = { ctor := p.ctor } := by
    rw [Array.getD_eq_getD_getElem?, Array.getElem?_push_size, Option.getD_some]
  have hlt : w.instances.size < w₁.instances.size := by
    rw [Array.size_push]
    exact Nat.lt_succ_self _
  refine Ends.next (a := w.instances.size) (v := w₁) rfl ?_
  refine Ends.bind (setUp_child hrun mount parent hlt hnew ho hel) ?_ ?_
  · rintro ⟨⟩ w₂ ⟨hmade, -⟩
    exact ⟨⟨hmade.classes, hmade.merges, hmade.proto⟩, .inl rfl⟩
  · rintro e w₂ ⟨hmade, hr⟩
    refine ⟨⟨hmade.classes, hmade.merges, hmade.proto⟩, .inr ?_⟩
    rcases hr with hr | hr
    · cases hr
    · cases hr
      rfl

end

end Componentry
