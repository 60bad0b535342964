import Componentry.Engine.Release
import Componentry.Proofs.Diagnostics.Alike

/-!
# Releasing and diagnostics

What keeps what alive has nothing to do with diagnostics, so the same goes when nothing refers to it
any more.

- `World.Alike.refs`: everything that the living refer to.
- `World.Alike.release`: **letting go** of what nothing refers to.
-/

namespace Componentry

variable {w w' : World}

/-- What options refer to has nothing to do with the identities of render functions. -/
theorem InstanceOptions.refs_plain (made : List (Mark × ClassId)) (o : InstanceOptions) :
    o.plain.refs made = o.refs made := by
  have hfields : o.plain.own.fields.refs = o.own.fields.refs := by
    have hrender : o.plain.own.fields.render = o.own.fields.render.map RenderFn.plain := rfl
    have hstatics : o.plain.own.fields.staticRenderFns =
      o.own.fields.staticRenderFns.map fun fs => .new (fs.value.map RenderFn.plain) := rfl
    dsimp only [Fields.refs]
    rw [hrender, hstatics]
    refine congrArg₂ (· ++ ·) (congrArg₂ (· ++ ·) rfl ?_) ?_
    · cases o.own.fields.render with
      | none => rfl
      | some f => rfl
    · cases o.own.fields.staticRenderFns with
      | none => rfl
      | some fs => exact List.flatMap_map _ _ fs.value
  have hown : o.plain.own.refs made = o.own.refs made := by
    obtain ⟨_, ⟨fields, components, mixins, base, merged⟩⟩ := o
    show Fields.refs _ ++ _ ++ _ ++ _ = fields.refs ++ _ ++ _ ++ _
    rw [← show _ = fields.refs from hfields]
    rfl
  rw [InstanceOptions.refs, InstanceOptions.refs, hown]
  rfl

/-- What an instance refers to has nothing to do with diagnostics. -/
theorem Instance.refs_plain (made : List (Mark × ClassId)) (i : Instance) :
    i.plain.refs made = i.refs made := by
  rw [Instance.refs, Instance.refs, show i.plain.options = i.options.plain from rfl,
    i.options.refs_plain]
  rfl

namespace World.Alike

theorem plain_instances (h : w.Alike w') :
    w.instances.toList.map Instance.plain = w'.instances.toList.map Instance.plain := by
  refine List.ext_getElem? fun vm => ?_
  rw [List.getElem?_map, List.getElem?_map, Array.getElem?_toList, Array.getElem?_toList]
  exact h.read? Instance.plain Instance.plain_plain vm

/-- Everything that the living refer to. -/
theorem refs (h : w.Alike w') : w.refs = w'.refs := by
  have hplain : ∀ is : List Instance,
      (is.filter (·.alive)).flatMap (·.refs w'.forest.made) =
        ((is.map Instance.plain).filter (·.alive)).flatMap (·.refs w'.forest.made) := fun is => by
    have hrefs : (fun i : Instance => i.plain.refs w'.forest.made) =
        fun i => i.refs w'.forest.made := funext fun i => i.refs_plain _
    rw [List.filter_map, List.flatMap_map, hrefs]
    rfl
  rw [World.refs, World.refs, h.forest.classes, h.forest.made, h.host, hplain, h.plain_instances,
    ← hplain]

/-- Letting go of the same instances in both. -/
theorem bury (h : w.Alike w') (dead : List InstanceId) :
    World.Alike
      { w with instances :=
          dead.foldl (fun a i => a.modify i ({ · with alive := false })) w.instances }
      { w' with instances :=
          dead.foldl (fun a i => a.modify i ({ · with alive := false })) w'.instances } := by
  induction dead generalizing w w' with
  | nil => exact h
  | cons vm rest ih =>
    exact ih (h.modify fun _ _ hi => hi.change ({ · with alive := false }) fun _ => rfl)

theorem releaseOnce (h : w.Alike w') (roots : List Ref) :
    (w.releaseOnce roots).1 = (w'.releaseOnce roots).1 ∧
      (w.releaseOnce roots).2.Alike (w'.releaseOnce roots).2 := by
  have hdying : ∀ marks : Array Bool,
      dying w.instances (·.alive) marks = dying w'.instances (·.alive) marks := fun marks => by
    rw [dying, dying, h.size]
    exact congrArg (List.filter · _) (funext fun vm => by rw [h.read? (·.alive) (fun _ => rfl) vm])
  rw [World.releaseOnce, World.releaseOnce]
  dsimp only
  rw [h.refs, h.forest.classes, h.host, h.size, hdying]
  refine ⟨rfl, ?_⟩
  exact { h.bury _ with forest := { h.forest with classes := rfl }, host := rfl }

theorem releaseUpTo (h : w.Alike w') (roots : List Ref) (fuel : Nat) :
    (World.releaseUpTo roots fuel w).Alike (World.releaseUpTo roots fuel w') := by
  induction fuel generalizing w w' with
  | zero => exact h
  | succ fuel ih =>
    -- if anything goes it does on both sides, so that both stop at once
    obtain ⟨hagain, hafter⟩ := h.releaseOnce roots
    rw [World.releaseUpTo, World.releaseUpTo]
    dsimp only
    rw [hagain]
    split
    · exact ih hafter
    · exact hafter

/-- **Letting go** of what nothing refers to. -/
theorem release (h : w.Alike w') (roots : List Ref) :
    (w.release roots).Alike (w'.release roots) := by
  rw [World.release, World.release, h.forest.classes, h.size, h.host]
  exact h.releaseUpTo roots _

end World.Alike

/-- Letting go has nothing to do with what else there is. -/
theorem World.read_release {β : Type} (f : World → β)
    (hf : ∀ roots (w : World), f (w.releaseOnce roots).2 = f w) (roots : List Ref) (w : World) :
    f (w.release roots) = f w := by
  have : World.Frame fun w w' => f w' = f w := ⟨fun _ => rfl, fun h h' => h'.trans h⟩
  exact World.within_release (R := fun w w' => f w' = f w) (hf roots) w

/-- What is remembered of compilations is not let go of. -/
theorem World.release_asked (roots : List Ref) (w : World) :
    (w.release roots).memo = w.memo ∧ (w.release roots).asked = w.asked :=
  ⟨World.read_release (·.memo) (fun _ _ => rfl) roots w,
    World.read_release (·.asked) (fun _ _ => rfl) roots w⟩

end Componentry
