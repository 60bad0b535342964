import Componentry.Proofs.Engine.InitOrder

/-!
# What lasts over a mount

Mounting an instance below others changes little of the instances that are there. Their options
change only where a template was compiled, and there only the render functions; who uses them,
whether they are mounted and what they stand for stays.

- `InstanceOptions.unrendered`: options without what compiling may put among them.
- `InstanceOptions.stopped`: mounting stops at the template.
- `World.Holds`: what lasts of the instances, from one world to any later one.
- `World.Standing`: what mounting children leaves alone.
-/

namespace Componentry

open Json (Value)

variable {α : Type} {H : Halt → Prop}

/-! ## Options -/

namespace InstanceOptions

/-- The template is nothing that could be compiled. -/
def hasInvalidTemplate (o : InstanceOptions) : Bool :=
  match o.field (·.template) with
  | some (.invalid _) => true
  | _ => false

/-- Mounting stops at the template. -/
def stopped (o : InstanceOptions) : Bool := (o.part (·.render)).isNone && o.hasInvalidTemplate

/-- The options without render functions of their own, which compiling a template may have put
there. Nothing is compiled where the template is invalid. -/
def unrendered (o : InstanceOptions) : InstanceOptions :=
  if o.hasInvalidTemplate then o
  else { o with own := o.own.mapFields fun f => { f with render := none, staticRenderFns := none } }

variable {o o' : InstanceOptions}

/-- A field that has nothing to do with render functions. -/
theorem field_unrendered {read : Fields → Option α}
    (hread : ∀ f : Fields, read { f with render := none, staticRenderFns := none } = read f)
    (o : InstanceOptions) : o.unrendered.field read = o.field read := by
  rw [unrendered]
  split
  · rfl
  · simp only [field, layered, Options.mapFields, hread]

theorem field_of_unrendered (h : o'.unrendered = o.unrendered) {read : Fields → Option α}
    (hread : ∀ f : Fields, read { f with render := none, staticRenderFns := none } = read f) :
    o'.field read = o.field read := by
  rw [← field_unrendered hread o', h, field_unrendered hread]

theorem part_of_unrendered (h : o'.unrendered = o.unrendered) {read : Fields → Option (Placed α)}
    (hread : ∀ f : Fields, read { f with render := none, staticRenderFns := none } = read f) :
    o'.part read = o.part read := congrArg (Option.map _) (field_of_unrendered h hread)

theorem hasInvalidTemplate_of_unrendered (h : o'.unrendered = o.unrendered) :
    o'.hasInvalidTemplate = o.hasInvalidTemplate := by
  rw [hasInvalidTemplate, hasInvalidTemplate, field_of_unrendered h fun _ => rfl]

/-- Where the template is invalid, render functions count. -/
theorem stopped_of_unrendered (h : o'.unrendered = o.unrendered) : o'.stopped = o.stopped := by
  have hinvalid := hasInvalidTemplate_of_unrendered h
  rw [stopped, stopped, hinvalid]
  cases ho : o.hasInvalidTemplate with
  | false => rw [Bool.and_false, Bool.and_false]
  | true =>
    rw [unrendered, unrendered, hinvalid, if_pos ho, if_pos ho] at h
    rw [h]

/-- What is not said by the own options at all. -/
theorem read_of_unrendered (h : o'.unrendered = o.unrendered) {read : InstanceOptions → α}
    (hread : ∀ (o : InstanceOptions) own, read { o with own } = read o) : read o' = read o := by
  have hsame : ∀ o : InstanceOptions, read o.unrendered = read o := fun o => by
    rw [unrendered]
    split
    · rfl
    · exact hread o _
  rw [← hsame o', h, hsame]

theorem unrendered_setRender (ho : o.hasInvalidTemplate = false) (render : RenderFn)
    (statics : List RenderFn) : (o.setRender render statics).unrendered = o.unrendered := by
  have hset : (o.setRender render statics).hasInvalidTemplate = false := ho
  rw [unrendered, unrendered, hset, ho]
  rfl

theorem calls_of_unrendered (h : o'.unrendered = o.unrendered) (vm : InstanceId) (hook : Hook) :
    o'.calls vm hook = o.calls vm hook := by
  rw [calls, calls, hookHandlers, hookHandlers, part_of_unrendered h fun _ => rfl]

theorem initSteps_of_unrendered (h : o'.unrendered = o.unrendered) (vm : InstanceId) :
    o'.initSteps vm = o.initSteps vm := by
  have hdata : o'.evaluates vm (·.data) .data = o.evaluates vm (·.data) .data := by
    rw [evaluates, evaluates, part_of_unrendered h fun _ => rfl]
  have hprovide : o'.evaluates vm (·.provide) .provide = o.evaluates vm (·.provide) .provide := by
    rw [evaluates, evaluates, part_of_unrendered h fun _ => rfl]
  simp only [initSteps, ownSteps, stateSteps, hdata, hprovide, calls_of_unrendered h]

end InstanceOptions

/-! ## Instances -/

namespace Aspect

/-- The class, and the options without what compiling may put among them. -/
def lasting : Aspect (ClassId × InstanceOptions) where
  read i := (i.ctor, i.options.unrendered)
  acted h := h.read (fun i => (i.ctor, i.options.unrendered)) fun _ => rfl
  access _ _ _ h := h

/-- What lasts, who uses the instance, whether it is mounted, and what it stands for. -/
def standing : Aspect ((ClassId × InstanceOptions) × Access × Bool × Option Placeholder) where
  read i := (lasting.read i, i.access, i.isMounted, i.parentVNode)
  acted h := h.read
    (fun i => (lasting.read i, i.access, i.isMounted, i.parentVNode)) fun _ => rfl
  access i _ _ h := congrArg (fun s : (ClassId × InstanceOptions) × Access × Bool ×
    Option Placeholder => (s.1, i.access, s.2.2)) h

end Aspect

/-- What lasts of the instances is in the later world as in the earlier one. -/
abbrev World.Holds : World → World → Prop := World.Same .lasting fun _ => True

namespace World.Holds

variable {w v : World} {vm : InstanceId} (h : w.Holds v) (hlt : vm < w.instances.size)
include h hlt

theorem ctor : (v.instances.getD vm default).ctor = (w.instances.getD vm default).ctor :=
  congrArg Prod.fst (h.read vm trivial hlt)

theorem unrendered : (v.optionsOf vm).unrendered = (w.optionsOf vm).unrendered :=
  congrArg Prod.snd (h.read vm trivial hlt)

end World.Holds

namespace World.Same

variable {P : InstanceId → Prop} {w w' : World} {b : InstanceId}
  (h : World.Same .standing P w w') (hb : P b) (hlt : b < w.instances.size)
include h hb hlt

theorem access_eq : (w'.instances.getD b default).access = (w.instances.getD b default).access :=
  congrArg (fun s => s.2.1) (h.read b hb hlt)

theorem isMounted_eq :
    (w'.instances.getD b default).isMounted = (w.instances.getD b default).isMounted :=
  congrArg (fun s => s.2.2.1) (h.read b hb hlt)

theorem parentVNode_eq :
    (w'.instances.getD b default).parentVNode = (w.instances.getD b default).parentVNode :=
  congrArg (fun s => s.2.2.2) (h.read b hb hlt)

end World.Same

/-- The instances of `P` stand as before, there are no others, and the host page is the same. -/
structure World.Standing (P : InstanceId → Prop) (w w' : World) : Prop where
  same : World.Same .standing P w w'
  size : w'.instances.size = w.instances.size
  host : w'.host = w.host

namespace World.Standing

variable {P : InstanceId → Prop} {w w' : World} {vm : InstanceId}

instance : World.Lax (World.Standing P) where
  refl w := ⟨World.Frame.refl w, rfl, rfl⟩
  trans h h' := ⟨World.Frame.trans h.same h'.same, h'.size.trans h.size, h'.host.trans h.host⟩
  acted h := ⟨World.Tolerant.acted h, h.size, h.read (·.host) fun _ => rfl⟩
  access h := ⟨World.Tolerant.access h.same,
    (Array.size_modify.trans h.size).trans Array.size_modify, h.host⟩
  aside hinstances hchronicle hhost :=
    ⟨World.Lax.aside hinstances hchronicle hhost, congrArg Array.size hinstances, hhost⟩

/-- Changing an instance: one that does not count, or one that stands as before. -/
theorem modify (w : World) {f : Instance → Instance}
    (hf : P vm → Aspect.standing.read (f (w.instances.getD vm default)) =
      Aspect.standing.read (w.instances.getD vm default)) :
    World.Standing P w { w with instances := w.instances.modify vm f } :=
  ⟨World.Same.modify w hf, Array.size_modify, rfl⟩

theorem set {f : Instance → Instance}
    (hf : ∀ i, P vm → Aspect.standing.read (f i) = Aspect.standing.read i) :
    Eng.Within (World.Standing P) H (Eng.modifyInstance vm f) :=
  Eng.Within.modifyInstance vm fun w => modify w (hf _)

theorem record (what : Happening) : Eng.Within (World.Standing P) H (Eng.record vm what) :=
  Eng.Within.modifyGet fun _ => ⟨⟨Nat.le_refl _, fun _ _ _ => rfl⟩, rfl, rfl⟩

/-- The phases of an instance that does not count. -/
theorem raising (vm : InstanceId) : Eng.Raising (World.Standing (· ≠ vm)) vm where
  own _ w := modify w fun h => absurd rfl h
  adopt _ w := modify w fun _ => rfl
  record _ _ := ⟨⟨Nat.le_refl _, fun _ _ _ => rfl⟩, rfl, rfl⟩

end World.Standing

end Componentry
