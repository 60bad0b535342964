import Componentry.Proofs.Engine.Phases

/-!
# What instances keep

What author's code does to an instance is seen in some of its fields only. Something that is read
off the others stays the same over any script, and over any computation that sets none of them.

- `Aspect`: something that author's code does not change.
- `World.Same`: some instances keep an aspect.
- `Aspect.steady`, `Aspect.kept`: what the phases leave alone, and some of what they set up.
- `World.steps`, `World.phases`: what has happened, and the phases of an instance in it.
- `World.Still`: nothing happened that the chronicle tells of.
-/

namespace Componentry

variable {α β : Type} {H : Halt → Prop}

/-- Something to be read off an instance that author's code does not change, nor using the instance
and giving it back. -/
structure Aspect (β : Type) where
  read : Instance → β
  acted {i i' : Instance} : i.Acted i' → read i' = read i
  access (i j : Instance) (a : Access) : read j = read { i with access := a } →
    read { j with access := i.access } = read i

/-- The instances of `P` that there are keep an aspect. -/
structure World.Same (A : Aspect β) (P : InstanceId → Prop) (w w' : World) : Prop where
  size : w.instances.size ≤ w'.instances.size
  read : ∀ b, P b → b < w.instances.size →
    A.read (w'.instances.getD b default) = A.read (w.instances.getD b default)

namespace World.Same

variable {A : Aspect β} {P : InstanceId → Prop} {w w' w'' : World} {vm : InstanceId}

theorem refl (w : World) : World.Same A P w w := ⟨Nat.le_refl _, fun _ _ _ => rfl⟩

theorem trans (h : World.Same A P w w') (h' : World.Same A P w' w'') : World.Same A P w w'' where
  size := Nat.le_trans h.size h'.size
  read b hb hlt := (h'.read b hb (Nat.lt_of_lt_of_le hlt h.size)).trans (h.read b hb hlt)

/-- Changing an instance: one that does not count, or one that keeps the aspect. -/
theorem modify (w : World) {f : Instance → Instance}
    (hf : P vm → A.read (f (w.instances.getD vm default)) =
      A.read (w.instances.getD vm default)) :
    World.Same A P w { w with instances := w.instances.modify vm f } where
  size := Nat.le_of_eq Array.size_modify.symm
  read b hb hlt := by
    by_cases hvm : b = vm
    · subst hvm
      show A.read ((w.instances.modify b f).getD b default) = _
      rw [getD_modify hlt]
      exact hf hb
    · exact congrArg A.read (getD_modify_of_ne hvm)

instance : World.Tolerant (World.Same A P) where
  refl := refl
  trans := trans
  acted h := ⟨Nat.le_of_eq h.size.symm, fun b _ _ => A.acted (h.instances b)⟩
  access {w w' vm a} h := by
    have hsame : (Eng.setAccess vm a w).instances.size = w.instances.size := Array.size_modify
    have hsize : w.instances.size ≤ w'.instances.size := hsame ▸ h.size
    refine ⟨Nat.le_trans hsize (Nat.le_of_eq Array.size_modify.symm), fun b hb hlt => ?_⟩
    have hread := h.read b hb (hsame.symm ▸ hlt)
    exact Eng.getD_setAccess (P := fun i j => A.read j = A.read i) A.access hsize hlt hread

/-- Setting something of an instance that does not count, or that keeps the aspect. -/
theorem set {f : Instance → Instance} (hf : ∀ i, P vm → A.read (f i) = A.read i) :
    Eng.Within (World.Same A P) H (Eng.modifyInstance vm f) :=
  Eng.Within.modifyInstance vm fun w => modify w (hf _)

theorem record (what : Happening) : Eng.Within (World.Same A P) H (Eng.record vm what) :=
  Eng.Within.modifyGet fun _ => ⟨Nat.le_refl _, fun _ _ _ => rfl⟩

/-- Changes of an instance that does not count, or that keeps the aspect over them. -/
theorem allows {rest : Instance → Instance}
    (hvm : P vm → ∀ i i' : Instance, rest i' = rest i → A.read i' = A.read i) :
    Eng.Allows (World.Same A P) vm rest where
  own hf w := modify w fun h => hvm h _ _ (hf _)
  record _ _ := ⟨Nat.le_refl _, fun _ _ _ => rfl⟩

/-- The same for an aspect that has nothing to do with children. -/
theorem settles {rest : Instance → Instance}
    (hvm : P vm → ∀ i i' : Instance, rest i' = rest i → A.read i' = A.read i)
    (hchildren : ∀ (i : Instance) children, A.read { i with children } = A.read i) :
    Eng.Settles (World.Same A P) vm rest where
  toAllows := allows hvm
  adopt _ w := modify w fun _ => hchildren _ _

end World.Same

/-! ## Aspects -/

namespace Aspect

/-- What the phases leave alone. -/
def steady : Aspect Instance where
  read := Instance.steady
  acted h := h.read (fun i => i.steady) fun _ => rfl
  access i _ _ h := congrArg (fun s : Instance => { s with access := i.access }) h

end Aspect

/-- What an instance has been given: of props and data the names, of everything else the values. -/
structure Inventory where
  injected : Json.Record
  props : String → Bool
  methods : Dict Script
  data : String → Bool
  computed : Json.Record
  watchers : WatchMap
  provided : Json.Record

namespace Instance

def inventory (i : Instance) : Inventory where
  injected := i.injected
  props := Dict.contains i.props
  methods := i.methods
  data := Dict.contains i.data
  computed := i.computed
  watchers := i.watchers
  provided := i.provided

variable {i i' : Instance}

theorem Acted.inventory (h : i.Acted i') : i'.inventory = i.inventory := by
  simp only [Instance.inventory, Inventory.mk.injEq]
  exact ⟨h.read (·.injected) fun _ => rfl, funext h.props, h.read (·.methods) fun _ => rfl,
    funext h.data, h.read (·.computed) fun _ => rfl, h.read (·.watchers) fun _ => rfl,
    h.read (·.provided) fun _ => rfl⟩

end Instance

namespace Inventory

/-- Without what is evaluated from the data on. -/
def beforeData (v : Inventory) : Inventory :=
  { v with data := fun _ => false, computed := [], watchers := [], provided := [] }

/-- Without what is offered to descendants. -/
def beforeProvided (v : Inventory) : Inventory := { v with provided := [] }

end Inventory

/-- What the phases leave alone, and a part of the inventory. -/
def Aspect.kept (part : Inventory → β) : Aspect (Instance × β) where
  read i := (i.steady, part i.inventory)
  acted h := Prod.ext (Aspect.steady.acted h) (congrArg part h.inventory)
  access i j a h := Prod.ext (Aspect.steady.access i j a (congrArg Prod.fst h))
    (congrArg Prod.snd h :)

/-- The place in the tree has nothing to do with it. -/
theorem Aspect.kept_placing (part : Inventory → β) (P : InstanceId → Prop) (vm : InstanceId) :
    Eng.Placing (World.Same (.kept part) P) vm :=
  World.Same.settles
    (fun _ _ _ h => Instance.read_of_unplaced h (Aspect.kept part).read fun _ => rfl)
    fun _ _ => rfl

/-- The phases leave alone what they leave alone. -/
theorem Aspect.kept_raising (P : InstanceId → Prop) (vm : InstanceId) :
    Eng.Raising (World.Same (.kept fun _ => ()) P) vm :=
  World.Same.settles
    (fun _ _ _ h => Instance.read_of_steady h (Aspect.kept fun _ => ()).read fun _ => rfl)
    fun _ _ => rfl

/-! ## What the chronicle tells -/

/-- What has happened so far, in order. -/
def World.steps (w : World) : List Happening := w.chronicle.toList.map Occurrence.what

/-- The phase that an instance enters. -/
def Happening.phase? (vm : InstanceId) : Happening → Option Phase
  | .entered b phase => if b = vm then some phase else none
  | _ => none

/-- The phases that an instance has gone through, in order. -/
def World.phases (w : World) (vm : InstanceId) : List Phase :=
  w.steps.filterMap (Happening.phase? vm)

/-- The chronicle is the same. -/
def World.Still (w w' : World) : Prop := w'.chronicle = w.chronicle

instance : World.Tolerant World.Still where
  refl _ := rfl
  trans h h' := h'.trans h
  acted h := h.read (·.chronicle) fun _ => rfl
  access h := h

theorem World.Still.set {vm : InstanceId} {f : Instance → Instance} :
    Eng.Within World.Still H (Eng.modifyInstance vm f) := Eng.Within.modifyInstance vm fun _ => rfl

end Componentry
