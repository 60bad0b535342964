import Componentry.Options.Registry
import Componentry.Proofs.Dict

/-!
# Looking up ids

An id stands for up to three names, its spellings. An own entry under any of them counts before all
that is further out; where there is none, the first spelling counts that shows anything at all. So
the own layer has a special position, which an empty layer over a registry takes from it.

- `Registry.firstVisible`: the entry of the first spelling that shows anything.
- `Registry.resolve?_underEmpty`: **under empty layers** that is what an id resolves to.
- `Registry.Eclipsed`: where the own layer has one spelling, and an earlier one is further out.
- `Registry.resolve?_of_not_eclipsed`, `Registry.Eclipsed.resolve?`: the position of the own layer
  makes a difference **exactly there**.
-/

namespace Componentry

namespace Registry

variable {α : Type} {r : Registry α} {id key : String}

/-- An own entry is visible. -/
theorem get?_of_getOwn? {a : α} (h : r.getOwn? key = some a) : r.get? key = some a := by
  have hown : Dict.get? r.own key = some a := h
  rw [get?, layers, List.findSome?_cons, hown]

/-! ## Empty layers -/

/-- A registry under empty layers. -/
def underEmpty (r : Registry α) : Nat → Registry α
  | 0 => r
  | n + 1 => (r.underEmpty n).pushLayer []

/-- No exact name shows anything else under empty layers. -/
theorem get?_underEmpty (r : Registry α) (n : Nat) (key : String) :
    (r.underEmpty n).get? key = r.get? key := by
  induction n with
  | zero => rfl
  | succ n ih =>
    rw [underEmpty, get?_pushLayer]
    exact ih

/-- The entry under the first spelling that shows any. -/
def firstVisible (r : Registry α) (id : String) : Option α := (spellings id).findSome? r.get?

theorem firstVisible_congr {r r' : Registry α} (h : ∀ key, r.get? key = r'.get? key)
    (id : String) : r.firstVisible id = r'.firstVisible id := by
  rw [firstVisible, firstVisible, funext h]

/-- Without an own entry under any spelling, the first spelling counts that shows one. -/
theorem resolve?_of_own_none (h : ∀ s, r.getOwn? s = none) (id : String) :
    r.resolve? id = r.firstVisible id := by
  have hown : (spellings id).findSome? r.getOwn? = none :=
    List.findSome?_eq_none_iff.mpr fun s _ => h s
  rw [resolve?, hown, firstVisible]

/-- **Under empty layers** an id resolves to the entry of the first spelling that shows any,
however many empty layers there are. -/
theorem resolve?_underEmpty (r : Registry α) (n : Nat) (id : String) :
    (r.underEmpty (n + 1)).resolve? id = r.firstVisible id := by
  rw [resolve?_of_own_none fun _ => rfl]
  exact firstVisible_congr (r.get?_underEmpty (n + 1)) id

/-! ## The position of the own layer -/

/-- The own layer has the id under some spelling, but the first spelling that shows anything shows
something further out. -/
def Eclipsed (r : Registry α) (id : String) : Prop :=
  ((spellings id).findSome? r.getOwn?).isSome ∧
    ∃ s ∈ (spellings id).find? r.contains, r.getOwn? s = none

instance (r : Registry α) (id : String) : Decidable (r.Eclipsed id) :=
  inferInstanceAs (Decidable (((spellings id).findSome? r.getOwn?).isSome ∧
    ∃ s ∈ (spellings id).find? r.contains, r.getOwn? s = none))

/-- If the first name that shows anything is an own one, it is the first own one. -/
theorem findSome?_get?_eq {a : α} {ss : List String} (hown : ss.findSome? r.getOwn? = some a)
    (h : ∀ s, ss.find? r.contains = some s → r.getOwn? s ≠ none) :
    ss.findSome? r.get? = some a := by
  induction ss with
  | nil => cases hown
  | cons s rest ih =>
    rw [List.findSome?_cons] at hown ⊢
    cases hs : r.getOwn? s with
    | some b =>
      rw [hs] at hown
      rw [get?_of_getOwn? hs]
      exact hown
    | none =>
      rw [hs] at hown
      -- the name shows nothing, or else it would be the first that shows anything
      have hget : r.get? s = none := by
        by_contra hne
        have hcontains : r.contains s = true := Option.isSome_iff_ne_none.mpr hne
        exact h s (by rw [List.find?_cons, hcontains]) hs
      have hcontains : r.contains s = false := by rw [contains, hget]; rfl
      rw [hget]
      refine ih hown fun s' hs' => h s' ?_
      rw [List.find?_cons, hcontains]
      exact hs'

theorem resolve?_of_not_eclipsed (h : ¬r.Eclipsed id) : r.resolve? id = r.firstVisible id := by
  rw [resolve?, firstVisible]
  cases hown : (spellings id).findSome? r.getOwn? with
  | none => rfl
  | some a =>
    refine (findSome?_get?_eq hown fun s hs hnone => h ⟨?_, s, hs, hnone⟩).symm
    rw [hown]
    rfl

/-- What an eclipsed id resolves to is an own entry; the first spelling that shows anything shows
one that is not. -/
theorem Eclipsed.resolve? (h : r.Eclipsed id) :
    (∃ t ∈ spellings id, ∃ a, r.getOwn? t = some a ∧ r.resolve? id = some a) ∧
      ∃ s ∈ spellings id, r.getOwn? s = none ∧
        ∃ v, r.get? s = some v ∧ r.firstVisible id = some v := by
  obtain ⟨hown, s, hs, hnone⟩ := h
  obtain ⟨a, ha⟩ := Option.isSome_iff_exists.mp hown
  obtain ⟨t, ht, hat⟩ := List.exists_of_findSome?_eq_some ha
  have hcontains : r.contains s = true := List.find?_some hs
  obtain ⟨v, hv⟩ := Option.isSome_iff_exists.mp hcontains
  refine ⟨⟨t, ht, a, hat, ?_⟩, s, List.mem_of_find?_eq_some hs, hnone, v, hv, ?_⟩
  · rw [Registry.resolve?, ha]
  · -- nothing before the spelling shows anything
    obtain ⟨-, before, after, hsplit, hbefore⟩ := List.find?_eq_some_iff_append.mp hs
    have hno : before.findSome? r.get? = none := by
      refine List.findSome?_eq_none_iff.mpr fun u hu => ?_
      exact Option.not_isSome_iff_eq_none.mp fun hsome => by
        have := hbefore u hu
        rw [contains, hsome] at this
        cases this
    rw [firstVisible, hsplit, List.findSome?_append, hno, List.findSome?_cons, hv]
    rfl

/-- Something is found under an id in one way exactly if it is in the other. -/
theorem isSome_resolve? (r : Registry α) (id : String) :
    (r.resolve? id).isSome = (r.firstVisible id).isSome := by
  by_cases h : r.Eclipsed id
  · obtain ⟨⟨_, _, _, _, hresolve⟩, _, _, _, _, _, hvisible⟩ := h.resolve?
    rw [hresolve, hvisible]
    rfl
  · rw [resolve?_of_not_eclipsed h]

end Registry

end Componentry
