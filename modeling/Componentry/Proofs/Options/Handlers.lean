import Componentry.Options.Edit
import Componentry.Proofs.Options.Place
import Mathlib.Tactic.SplitIfs

/-!
# Joined handlers

A handler is known by its identity. The handlers of a parent and those of its child are joined with
the first of each identity kept, so that in a joined list no handler stands twice.

- `timesIn`: how often a handler stands in a list.
- `timesIn_joinHandlers`: **once in a joined list**, if on either side.
- `HookMap.handlers_joinHooks`: the joined lists of each hook.
- `HookMap.handlers_add`: the lists after one handler was added.
-/

namespace Componentry

/-- How often a handler stands in a list, by its identity. -/
def timesIn (id : Mark) (fs : List Handler) : Nat := fs.countP (·.id == id)

variable {id : Mark}

theorem timesIn_cons (f : Handler) (fs : List Handler) :
    timesIn id (f :: fs) = timesIn id fs + if f.id = id then 1 else 0 := by
  rw [timesIn, List.countP_cons, timesIn]
  simp only [beq_iff_eq]

theorem timesIn_append (fs gs : List Handler) :
    timesIn id (fs ++ gs) = timesIn id fs + timesIn id gs :=
  List.countP_append

/-- One more handler at the end. -/
theorem timesIn_snoc (fs : List Handler) (f : Handler) :
    timesIn id (fs ++ [f]) = timesIn id fs + if f.id = id then 1 else 0 := by
  rw [timesIn_append, timesIn_cons]
  exact congrArg _ (Nat.zero_add _)

theorem any_id_eq (fs : List Handler) : fs.any (·.id == id) = decide (0 < timesIn id fs) := by
  rw [Bool.eq_iff_iff, decide_eq_true_eq, timesIn, List.countP_pos_iff, List.any_eq_true]

theorem timesIn_keepNew (seen fs : List Handler) :
    timesIn id (keepNew seen fs) =
      if 0 < timesIn id seen then timesIn id seen else min 1 (timesIn id fs) := by
  induction fs generalizing seen with
  | nil =>
    show timesIn id seen = if 0 < timesIn id seen then timesIn id seen else min 1 0
    split_ifs <;> omega
  | cons f rest ih =>
    rw [keepNew, any_id_eq, timesIn_cons]
    by_cases hf : f.id = id
    · subst hf
      by_cases hseen : 0 < timesIn f.id seen
      · rw [if_pos (decide_eq_true hseen), ih, if_pos hseen, if_pos hseen]
      · rw [if_neg (by simpa using hseen), ih, timesIn_snoc, if_pos rfl, if_neg hseen]
        rw [if_pos (by omega)]
        omega
    · rw [if_neg hf, Nat.add_zero]
      split
      · exact ih seen
      · rw [ih, timesIn_snoc, if_neg hf, Nat.add_zero]

/-- **A handler stands once in a joined list** if it stands on either side. -/
theorem timesIn_joinHandlers (parent child : List Handler) :
    timesIn id (joinHandlers parent child) = min 1 (timesIn id parent + timesIn id child) := by
  rw [joinHandlers, timesIn_keepNew, timesIn_append]
  rfl

/-! ## Each hook -/

/-- The handlers in a part. -/
def handlersOf (p : Option (Placed (List Handler))) : List Handler := (valueOf p).getD []

/-- The handlers of one hook in a part. -/
def hooksOf (p : Option (Placed HookMap)) (h : Hook) : List Handler :=
  HookMap.handlers ((valueOf p).getD []) h

theorem Options.hookHandlers_eq (o : Options) (h : Hook) :
    o.hookHandlers h = hooksOf o.fields.hooks h := by
  rw [Options.hookHandlers, hooksOf]
  cases o.fields.hooks <;> rfl

theorem lookup_filterMap {β : Type} (p : Hook → Bool) (g : Hook → β) (h : Hook) (hs : List Hook) :
    (hs.filterMap fun h => if p h then some (h, g h) else none).lookup h =
      if h ∈ hs ∧ p h = true then some (g h) else none := by
  induction hs with
  | nil => rfl
  | cons h' rest ih =>
    rw [List.filterMap_cons]
    by_cases hp : p h' = true
    · rw [if_pos hp]
      show List.lookup h ((h', g h') :: _) = _
      rw [List.lookup_cons]
      by_cases heq : h = h'
      · subst heq
        rw [beq_self_eq_true, if_pos ⟨List.mem_cons_self, hp⟩]
      · rw [beq_false_of_ne heq, ih]
        simp only [List.mem_cons, heq, false_or]
    · rw [if_neg hp]
      show List.lookup h (rest.filterMap _) = _
      rw [ih]
      by_cases heq : h = h'
      · subst heq
        rw [if_neg fun h => hp h.2, if_neg fun h => hp h.2]
      · simp only [List.mem_cons, heq, false_or]

namespace HookMap

/-- **The handlers of a hook after a merge.** -/
theorem handlers_joinHooks (parent child : HookMap) (h : Hook) :
    (joinHooks parent child).handlers h = joinHandlers (parent.handlers h) (child.handlers h) := by
  rw [handlers, joinHooks, lookup_filterMap]
  by_cases hsome : ((parent.lookup h).isSome || (child.lookup h).isSome) = true
  · rw [if_pos ⟨h.mem_all, hsome⟩]
    rfl
  · rw [if_neg fun hs => hsome hs.2]
    simp only [Bool.or_eq_true, not_or, Option.not_isSome_iff_eq_none] at hsome
    rw [handlers, handlers, hsome.1, hsome.2]
    rfl

theorem handlers_add (m : HookMap) (h h' : Hook) (f : Handler) :
    (add h f m).handlers h' = if h' = h then m.handlers h ++ [f] else m.handlers h' := by
  induction m with
  | nil =>
    rw [add, handlers, List.lookup_cons]
    by_cases heq : h' = h
    · rw [if_pos heq, heq, beq_self_eq_true]
      rfl
    · rw [if_neg heq, beq_false_of_ne heq]
      rfl
  | cons e rest ih =>
    obtain ⟨k, fs⟩ := e
    rw [add]
    by_cases hk : k = h
    · subst hk
      rw [if_pos rfl, handlers, handlers, handlers, List.lookup_cons, List.lookup_cons,
        List.lookup_cons, beq_self_eq_true]
      by_cases heq : h' = k
      · rw [if_pos heq, heq, beq_self_eq_true]
        rfl
      · rw [if_neg heq, beq_false_of_ne heq]
    · rw [if_neg hk]
      rw [handlers, handlers, handlers] at ih ⊢
      rw [List.lookup_cons, List.lookup_cons, List.lookup_cons, beq_false_of_ne (Ne.symm hk)]
      by_cases heq : h' = k
      · rw [heq, beq_self_eq_true, if_neg hk]
      · rw [beq_false_of_ne heq]
        exact ih

end HookMap

end Componentry
