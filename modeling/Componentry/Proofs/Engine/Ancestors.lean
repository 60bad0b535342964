import Componentry.Proofs.Engine.Lineage
import Mathlib.Data.List.Perm.Subperm

/-!
# The way up

Errors go up from an instance to its ancestors, and what it injects is looked for there. Both follow
the parents. The way ends with the topmost ancestor, or below the first one that is gone.

- `World.Above`: the instances on the way up.
- `World.Above.nodup`, `World.Above.length_le`: nobody is met twice, so a bound on the steps that is
  as large as the number of instances does no harm.
- `World.Tree.exists_above`: where instances make up a tree, every way comes to an end.
-/

namespace Componentry

variable {w w' : World} {p : Option InstanceId} {a vm : InstanceId} {l : List InstanceId}

namespace World

theorem lt_of_isAlive (h : w.isAlive a = true) : a < w.instances.size := by
  rw [isAlive_eq, Bool.and_eq_true, decide_eq_true_eq] at h
  exact h.1

/-- The instances from `p` up, as far as they are still there. -/
inductive Above (w : World) : Option InstanceId → List InstanceId → Prop
  | top {p : Option InstanceId} (h : p.filter w.isAlive = none) : Above w p []
  | up {p : InstanceId} {l : List InstanceId} (h : w.isAlive p = true)
      (rest : Above w (w.kin p).parent l) : Above w (some p) (p :: l)

namespace Above

/-- There is one way up. -/
theorem unique {l' : List InstanceId} (h : w.Above p l) (h' : w.Above p l') : l = l' := by
  induction h generalizing l' with
  | top h =>
    cases h' with
    | top _ => rfl
    | up halive _ =>
      rw [Option.filter_some_pos halive] at h
      cases h
  | up halive _ ih =>
    cases h' with
    | top h' =>
      rw [Option.filter_some_pos halive] at h'
      cases h'
    | up _ rest => rw [ih rest]

/-- The way goes on from whom one meets. -/
theorem of_mem (h : w.Above p l) (ha : a ∈ l) :
    ∃ rest, w.Above (w.kin a).parent rest ∧ (a :: rest) <:+ l ∧ w.isAlive a = true := by
  induction h with
  | top _ => cases ha
  | up halive above ih =>
    rcases List.mem_cons.mp ha with rfl | ha
    · exact ⟨_, above, List.suffix_rfl, halive⟩
    · obtain ⟨rest, hrest, hsuffix, ha⟩ := ih ha
      exact ⟨rest, hrest, hsuffix.trans (List.suffix_cons _ _), ha⟩

theorem isAlive (h : w.Above p l) (ha : a ∈ l) : w.isAlive a = true :=
  let ⟨_, _, _, halive⟩ := h.of_mem ha
  halive

/-- An instance is not above itself. -/
theorem not_mem (h : w.Above (w.kin vm).parent l) : vm ∉ l := by
  intro hmem
  obtain ⟨rest, hrest, hsuffix, -⟩ := h.of_mem hmem
  rw [hrest.unique h] at hsuffix
  exact absurd hsuffix.length_le (by simp)

/-- Nobody is met twice. -/
theorem nodup (h : w.Above p l) : l.Nodup := by
  induction h with
  | top _ => exact List.nodup_nil
  | up _ above ih => exact List.nodup_cons.mpr ⟨above.not_mem, ih⟩

/-- There are no more steps than instances. -/
theorem length_le (h : w.Above p l) : l.length ≤ w.instances.size := by
  have hsub : l ⊆ List.range w.instances.size := fun b hb =>
    List.mem_range.mpr (lt_of_isAlive (h.isAlive hb))
  simpa using (h.nodup.subperm hsub).length_le

/-- Only parents, and who is still there, matter. -/
theorem congr (h : w.Above p l) (hparent : ∀ b, (w'.kin b).parent = (w.kin b).parent)
    (halive : ∀ b, w'.isAlive b = w.isAlive b) : w'.Above p l := by
  have hfun : w'.isAlive = w.isAlive := funext halive
  induction h with
  | top h => exact .top (by rw [hfun]; exact h)
  | up h _ ih => exact .up ((halive _).trans h) ((hparent _).symm ▸ ih)

/-- Looking whether the next one is still there. -/
theorem run_alive? (h : w.Above p l) : (Eng.alive? p).run.run w = (.ok l.head?, w) := by
  have hnext : p.filter w.isAlive = l.head? := by
    cases h with
    | top hnone => exact hnone
    | up halive _ => exact Option.filter_some_pos halive
  exact Prod.ext (congrArg Except.ok hnext) rfl

/-- Author's code makes no difference to it. -/
theorem acted (h : w.Above p l) (hacted : w.Acted w') : w'.Above p l := by
  refine h.congr (fun b => ?_) fun b => ?_
  · exact (hacted.instances b).read (·.parent) fun _ => rfl
  · rw [isAlive_eq, isAlive_eq, hacted.size, (hacted.instances b).read (·.alive) fun _ => rfl]

end Above

/-- **In a tree of instances** every way up comes to an end. -/
theorem Tree.exists_above (h : w.Tree) (p : Option InstanceId) : ∃ l, w.Above p l := by
  have hsome : ∀ b : InstanceId, ∃ l, w.Above (some b) l := by
    intro b
    induction b using Nat.strongRecOn with
    | ind b ih =>
      cases halive : w.isAlive b with
      | false => exact ⟨[], .top (by simp [Option.filter, halive])⟩
      | true =>
        cases hparent : (w.kin b).parent with
        | none => exact ⟨[b], .up halive (hparent ▸ .top rfl)⟩
        | some q =>
          obtain ⟨l, hl⟩ := ih q (h.older hparent)
          exact ⟨b :: l, .up halive (hparent ▸ hl)⟩
  cases p with
  | none => exact ⟨[], .top rfl⟩
  | some b => exact hsome b

/-- Instances with options, each below the one before. -/
def descent (os : List Options) : World where
  instances := (os.mapIdx fun n o =>
    { ctor := 0, options := .merged o, parent := if n = 0 then none else some (n - 1) }).toArray

end World

end Componentry
