import Componentry.Proofs.Options.Known

/-!
# Joined watchers

The watchers of a child are appended to those of its parent. A function that is there already is
left out. A method has no identity of its own, only its name, and is never left out.

- `WatchHandler.same`, `occurrences`: how often a handler stands in a list.
- `occurrences_joinWatchers`: **how often it stands in a joined list**.
- `watchersAt_mergeParts`: the joined list of each key.
-/

namespace Componentry

namespace WatchHandler

/-- Whether two watchers run the same function, or methods of the same name. -/
def same (a b : WatchHandler) : Bool :=
  match a.callback, b.callback with
  | .handler f, .handler g => f.id == g.id
  | .method m, .method n => m == n
  | _, _ => false

def isFunction (w : WatchHandler) : Bool :=
  match w.callback with
  | .handler _ => true
  | .method _ => false

end WatchHandler

/-- How often a handler stands in a list. -/
def occurrences (w : WatchHandler) (ws : List WatchHandler) : Nat := ws.countP w.same

theorem occurrences_cons (w h : WatchHandler) (ws : List WatchHandler) :
    occurrences w (h :: ws) = occurrences w ws + if w.same h then 1 else 0 :=
  List.countP_cons

theorem occurrences_append (w : WatchHandler) (ws ws' : List WatchHandler) :
    occurrences w (ws ++ ws') = occurrences w ws + occurrences w ws' :=
  List.countP_append

/-- A function counts as there already where it occurs; a method never does. -/
theorem any_sameFunction (ws : List WatchHandler) {w h : WatchHandler} (hs : w.same h = true) :
    ws.any h.sameFunction = (w.isFunction && decide (0 < occurrences w ws)) := by
  obtain ⟨wc, wi⟩ := w
  obtain ⟨hc, hi⟩ := h
  cases hc with
  | method n =>
    have hnone : ws.any (WatchHandler.sameFunction ⟨.method n, hi⟩) = false :=
      List.any_eq_false.mpr fun a _ => by simp [WatchHandler.sameFunction]
    rw [hnone]
    cases wc with
    | method m => rfl
    | handler f => cases hs
  | handler g =>
    cases wc with
    | method m => cases hs
    | handler f =>
      have hid : f.id = g.id := eq_of_beq hs
      rw [Bool.eq_iff_iff]
      simp only [WatchHandler.isFunction, Bool.true_and, decide_eq_true_eq, occurrences,
        List.countP_pos_iff, List.any_eq_true]
      refine exists_congr fun a => and_congr_right fun _ => ?_
      obtain ⟨ac, ai⟩ := a
      cases ac with
      | method m => exact Iff.rfl
      | handler k =>
        show (g.id == k.id) = true ↔ (f.id == k.id) = true
        rw [hid]

/-- **How often a handler stands in a joined list**: a method as often as on both sides, a function
as often as in the parent's list, or else once if the child has it. -/
theorem occurrences_joinWatchers (w : WatchHandler) (parent child : List WatchHandler) :
    occurrences w (joinWatchers parent child) =
      if w.isFunction then
        if 0 < occurrences w parent then occurrences w parent else min 1 (occurrences w child)
      else occurrences w parent + occurrences w child := by
  -- the joined list grows on the parent's side
  induction child generalizing parent with
  | nil =>
    show occurrences w parent = if w.isFunction then
      (if 0 < occurrences w parent then occurrences w parent else min 1 0)
      else occurrences w parent + 0
    split_ifs <;> omega
  | cons h rest ih =>
    rw [joinWatchers, occurrences_cons]
    by_cases hs : w.same h = true
    · rw [any_sameFunction parent hs, if_pos hs]
      by_cases hf : w.isFunction = true
      · by_cases hp : 0 < occurrences w parent
        · rw [if_pos (by simp [hf, hp]), ih, if_pos hf, if_pos hp, if_pos hf, if_pos hp]
        · rw [if_neg (by simp [hp]), ih, occurrences_append, occurrences_cons, if_pos hs,
            if_pos hf, if_pos hf, if_neg hp]
          have : occurrences w [] = 0 := rfl
          rw [if_pos (by omega)]
          omega
      · rw [if_neg (by simp [hf]), ih, occurrences_append, occurrences_cons, if_pos hs, if_neg hf,
          if_neg hf]
        have : occurrences w [] = 0 := rfl
        omega
    · have hkeep : occurrences w (parent ++ [h]) = occurrences w parent := by
        rw [occurrences_append, occurrences_cons, if_neg hs]
        rfl
      rw [if_neg hs, Nat.add_zero]
      split
      · exact ih parent
      · rw [ih (parent ++ [h]), hkeep]

/-! ## Each key -/

/-- The watchers of a key, in order. -/
def watchersAt (p : Option (Placed WatchMap)) (key : String) : List WatchHandler :=
  (Dict.get? (entriesOf p) key).getD []

theorem get?_joinWatch {child : WatchMap} (h : Dict.Ordered child) (parent : WatchMap)
    (key : String) :
    Dict.get? (joinWatch parent child) key =
      match Dict.get? child key with
      | some ws => some (joinWatchers ((Dict.get? parent key).getD []) ws)
      | none => Dict.get? parent key := by
  rw [joinWatch]
  induction child generalizing parent with
  | nil => rfl
  | cons e rest ih =>
    have htail := Dict.get?_tail h
    rw [List.foldl_cons, ih (List.pairwise_cons.mp h).2, Dict.get?_alter]
    obtain ⟨k, ws⟩ := e
    rw [Dict.get?]
    by_cases hk : key = k
    · subst hk
      rw [htail, if_pos rfl, if_pos rfl]
    · rw [if_neg hk, if_neg hk]

/-- **The watchers of a key after a merge**: those of a single side as they are, else both
joined. -/
theorem watchersAt_mergeParts (p : Option (Placed WatchMap)) {c : Placed WatchMap}
    (h : Dict.Ordered c.value) (key : String) :
    watchersAt (mergeParts joinWatch p (some c)) key =
      if p.isNone then watchersAt (some c) key
      else joinWatchers (watchersAt p key) (watchersAt (some c) key) := by
  cases p with
  | none => rfl
  | some p =>
    show (Dict.get? (joinWatch p.value c.value) key).getD [] = _
    rw [get?_joinWatch h]
    show _ = joinWatchers _ ((Dict.get? c.value key).getD [])
    cases Dict.get? c.value key <;> rfl

end Componentry
