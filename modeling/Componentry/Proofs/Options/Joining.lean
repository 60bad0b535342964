import Componentry.Proofs.Options.Handlers
import Componentry.Proofs.Options.Watchers

/-!
# Joining lists one after the other

Handlers are joined by appending those that are not there yet, and so are watchers; they differ only
in what counts as being there. When a third list comes in, it makes no difference which two were
joined first.

- `appendNew`: appending what is not there yet, for any way to tell.
- `appendNew_appendNew`: what was appended to a list may be appended to another list instead.
- `appendNew_nil`: nothing there yet means that **the first of each** is kept.
- `joinHandlers_assoc`, `joinWatchers_assoc`, `joinHooks_assoc`, `joinWatch_assoc`: joining **in
  either grouping**.
-/

namespace Componentry

variable {α : Type}

/-- Appends the elements that are not seen yet; `seenAs a b` says that `b` makes `a` one of
those. -/
def appendNew (seenAs : α → α → Bool) (seen : List α) : List α → List α
  | [] => seen
  | a :: as =>
    if seen.any (seenAs a) then appendNew seenAs seen as else appendNew seenAs (seen ++ [a]) as

section AppendNew

variable {q : α → α → Bool}

theorem appendNew_append (s as bs : List α) :
    appendNew q s (as ++ bs) = appendNew q (appendNew q s as) bs := by
  induction as generalizing s with
  | nil => rfl
  | cons a as ih =>
    rw [List.cons_append, appendNew, appendNew]
    split
    · exact ih s
    · exact ih (s ++ [a])

/-- What is appended was not there before. -/
theorem appendNew_eq (s as : List α) :
    ∃ rest, appendNew q s as = s ++ rest ∧ ∀ a ∈ rest, s.any (q a) = false := by
  induction as generalizing s with
  | nil => exact ⟨[], by simp [appendNew], by simp⟩
  | cons a as ih =>
    rw [appendNew]
    by_cases ha : s.any (q a) = true
    · rw [if_pos ha]
      exact ih s
    · rw [if_neg ha]
      obtain ⟨rest, hrest, hnew⟩ := ih (s ++ [a])
      refine ⟨a :: rest, by rw [hrest]; simp, ?_⟩
      intro b hb
      rcases List.mem_cons.mp hb with rfl | hb
      · exact Bool.eq_false_iff.mpr ha
      · have hboth := hnew b hb
        rw [List.any_append, Bool.or_eq_false_iff] at hboth
        exact hboth.1

/-- Elements that are told apart are all appended. -/
theorem appendNew_of_pairwise {s as : List α}
    (h : (s ++ as).Pairwise fun a b => q b a = false) : appendNew q s as = s ++ as := by
  induction as generalizing s with
  | nil => simp [appendNew]
  | cons a as ih =>
    have hnot : s.any (q a) = false := by
      rw [List.any_eq_false]
      intro b hb
      rw [(List.pairwise_append.mp h).2.2 b hb a List.mem_cons_self]
      simp
    have hmoved : s ++ a :: as = (s ++ [a]) ++ as := by simp
    rw [hmoved] at h ⊢
    rw [appendNew, hnot]
    exact ih h

/-- With nothing seen, the first of each is kept. -/
theorem appendNew_nil (as : List α) : appendNew q [] as = as.eraseDupsBy q := by
  -- the library collects in reverse
  have hloop : ∀ s, appendNew q s as = List.eraseDupsBy.loop q as s.reverse := by
    induction as with
    | nil => intro s; simp [appendNew, List.eraseDupsBy.loop]
    | cons a as ih =>
      intro s
      rw [appendNew, List.eraseDupsBy.loop, List.any_reverse]
      cases s.any (q a) with
      | true => exact ih s
      | false =>
        have happended := ih (s ++ [a])
        rw [List.reverse_append] at happended
        exact happended
  exact hloop []

/-- An element is there afterwards if it was there or came in. -/
theorem any_appendNew (htrans : ∀ a b c, q a b = true → q b c = true → q a c = true)
    (s as : List α) (b : α) :
    (appendNew q s as).any (q b) = (s.any (q b) || as.any (q b)) := by
  induction as generalizing s with
  | nil => simp [appendNew]
  | cons a as ih =>
    rw [appendNew, List.any_cons]
    by_cases ha : s.any (q a) = true
    · rw [if_pos ha, ih]
      -- whatever `a` would be found by is found by what `a` was found by
      have habsorb : q b a = true → s.any (q b) = true := by
        intro hba
        obtain ⟨c, hc, hac⟩ := List.any_eq_true.mp ha
        exact List.any_eq_true.mpr ⟨c, hc, htrans b a c hba hac⟩
      cases hba : q b a with
      | false => simp
      | true => simp [habsorb hba]
    · rw [if_neg ha, ih, List.any_append]
      simp [Bool.or_assoc]

/-- **What was appended to one list** may be appended to another one after it. -/
theorem appendNew_appendNew (htrans : ∀ a b c, q a b = true → q b c = true → q a c = true)
    (s t as : List α) :
    appendNew q s (appendNew q t as) = appendNew q (appendNew q s t) as := by
  induction as generalizing t with
  | nil => rfl
  | cons a as ih =>
    rw [appendNew, appendNew, any_appendNew htrans]
    by_cases ha : t.any (q a) = true
    · rw [if_pos ha, ha, Bool.or_true]
      exact ih t
    · rw [if_neg ha, ih, appendNew_append, Bool.eq_false_iff.mpr ha, Bool.or_false, appendNew,
        any_appendNew htrans, Bool.eq_false_iff.mpr ha, Bool.or_false]
      split <;> rfl

/-- Nothing changes its order. -/
theorem sublist_appendNew (s as : List α) : (appendNew q s as).Sublist (s ++ as) := by
  induction as generalizing s with
  | nil => rw [appendNew, List.append_nil]
  | cons a as ih =>
    rw [appendNew]
    split
    · exact (ih s).trans ((List.sublist_cons_self a as).append_left s)
    · have hrest := ih (s ++ [a])
      rwa [List.append_assoc] at hrest

/-- Elements that are told apart stay so. -/
theorem pairwise_appendNew {s : List α} (h : s.Pairwise fun a b => q b a = false) (as : List α) :
    (appendNew q s as).Pairwise fun a b => q b a = false := by
  induction as generalizing s with
  | nil => exact h
  | cons a as ih =>
    rw [appendNew]
    split
    · exact ih h
    · rename_i ha
      refine ih (List.pairwise_append.mpr ⟨h, List.pairwise_singleton _ a, ?_⟩)
      intro b hb c hc
      obtain rfl := List.mem_singleton.mp hc
      exact List.any_eq_false.mp (Bool.eq_false_iff.mpr ha) b hb |> Bool.eq_false_iff.mpr

/-- What was thinned out before may stand in its place, in front or behind. -/
theorem eraseDupsBy_append_left
    (htrans : ∀ a b c, q a b = true → q b c = true → q a c = true) (as bs : List α) :
    (as.eraseDupsBy q ++ bs).eraseDupsBy q = (as ++ bs).eraseDupsBy q := by
  have hfirst := appendNew_appendNew htrans [] [] as
  rw [← appendNew_nil, ← appendNew_nil, ← appendNew_nil, appendNew_append, appendNew_append,
    hfirst]
  rfl

theorem eraseDupsBy_append_right
    (htrans : ∀ a b c, q a b = true → q b c = true → q a c = true) (as bs : List α) :
    (as ++ bs.eraseDupsBy q).eraseDupsBy q = (as ++ bs).eraseDupsBy q := by
  rw [← appendNew_nil, ← appendNew_nil, ← appendNew_nil, appendNew_append, appendNew_append,
    appendNew_appendNew htrans]
  rfl

/-- What comes later is put behind, and is nothing that came before. -/
theorem eraseDupsBy_append (as bs : List α) :
    ∃ rest, (as ++ bs).eraseDupsBy q = as.eraseDupsBy q ++ rest ∧
      ∀ b ∈ rest, (as.eraseDupsBy q).any (q b) = false := by
  rw [← appendNew_nil, ← appendNew_nil, appendNew_append]
  exact appendNew_eq _ bs

end AppendNew

/-! ## Handlers -/

/-- The first handler of each identity, in the order in which they come. -/
def firstOfEach (fs : List Handler) : List Handler := fs.eraseDupsBy fun f g => g.id == f.id

theorem keepNew_eq (seen fs : List Handler) :
    keepNew seen fs = appendNew (fun f g => g.id == f.id) seen fs := by
  induction fs generalizing seen with
  | nil => rfl
  | cons f fs ih =>
    rw [keepNew, appendNew, ih, ih]

theorem joinHandlers_eq (parent child : List Handler) :
    joinHandlers parent child = firstOfEach (parent ++ child) := by
  rw [joinHandlers, keepNew_eq, appendNew_nil, firstOfEach]

theorem sameId_trans (f g h : Handler) (hfg : (g.id == f.id) = true) (hgh : (h.id == g.id) = true) :
    (h.id == f.id) = true := by
  rw [beq_iff_eq] at hfg hgh ⊢
  exact hgh.trans hfg

/-- What was thinned out before may stand in its place, in front or behind. -/
theorem firstOfEach_append_left (fs gs : List Handler) :
    firstOfEach (firstOfEach fs ++ gs) = firstOfEach (fs ++ gs) :=
  eraseDupsBy_append_left sameId_trans fs gs

theorem firstOfEach_append_right (fs gs : List Handler) :
    firstOfEach (fs ++ firstOfEach gs) = firstOfEach (fs ++ gs) :=
  eraseDupsBy_append_right sameId_trans fs gs

/-- **Handlers joined in either grouping.** -/
theorem joinHandlers_assoc (fs gs hs : List Handler) :
    joinHandlers (joinHandlers fs gs) hs = joinHandlers fs (joinHandlers gs hs) := by
  simp only [joinHandlers_eq]
  rw [firstOfEach_append_left, firstOfEach_append_right, List.append_assoc]

/-- The hooks that joined handlers are for: those of either side. -/
theorem lookup_joinHooks (parent child : HookMap) (h : Hook) :
    ((joinHooks parent child).lookup h).isSome =
      ((parent.lookup h).isSome || (child.lookup h).isSome) := by
  rw [joinHooks, lookup_filterMap]
  cases hsome : (parent.lookup h).isSome || (child.lookup h).isSome with
  | true => rw [if_pos ⟨h.mem_all, rfl⟩]; rfl
  | false => rw [if_neg (fun hs => by cases hs.2)]; rfl

/-- **Handlers of every hook joined in either grouping.** -/
theorem joinHooks_assoc (a b c : HookMap) :
    joinHooks (joinHooks a b) c = joinHooks a (joinHooks b c) := by
  have hentry : ∀ m n : HookMap, joinHooks m n = Hook.all.filterMap fun h =>
      if (m.lookup h).isSome || (n.lookup h).isSome then
        some (h, joinHandlers (m.handlers h) (n.handlers h))
      else none := fun _ _ => rfl
  rw [hentry (joinHooks a b) c, hentry a (joinHooks b c)]
  simp only [lookup_joinHooks, HookMap.handlers_joinHooks, joinHandlers_assoc, Bool.or_assoc]

/-! ## Watchers -/

theorem joinWatchers_eq (parent child : List WatchHandler) :
    joinWatchers parent child = appendNew WatchHandler.sameFunction parent child := by
  induction child generalizing parent with
  | nil => rfl
  | cons w ws ih =>
    rw [joinWatchers, appendNew, ih, ih]

theorem WatchHandler.sameFunction_trans (a b c : WatchHandler) (hab : a.sameFunction b = true)
    (hbc : b.sameFunction c = true) : a.sameFunction c = true := by
  obtain ⟨ac, ai⟩ := a
  obtain ⟨bc, bi⟩ := b
  obtain ⟨cc, ci⟩ := c
  -- only functions are the same
  cases ac with
  | method m => cases hab
  | handler f =>
    cases bc with
    | method m => cases hab
    | handler g =>
      cases cc with
      | method m => cases hbc
      | handler h =>
        simp only [WatchHandler.sameFunction, beq_iff_eq] at hab hbc ⊢
        exact hab.trans hbc

/-- **Watchers joined in either grouping.** -/
theorem joinWatchers_assoc (ws vs us : List WatchHandler) :
    joinWatchers (joinWatchers ws vs) us = joinWatchers ws (joinWatchers vs us) := by
  simp only [joinWatchers_eq]
  exact (appendNew_appendNew WatchHandler.sameFunction_trans ws vs us).symm

theorem joinWatch_eq_layer (parent child : WatchMap) :
    joinWatch parent child =
      Dict.layer (fun there ws => joinWatchers (there.getD []) ws) parent child :=
  rfl

/-- **Watchers of every key joined in either grouping.** -/
theorem joinWatch_assoc {b : WatchMap} (hb : Dict.Ordered b) (a c : WatchMap) :
    joinWatch (joinWatch a b) c = joinWatch a (joinWatch b c) := by
  simp only [joinWatch_eq_layer]
  refine Dict.layer_assoc ?_ ?_ hb a c
  · intro there ws vs
    exact joinWatchers_assoc (there.getD []) ws vs
  · intro there ws
    exact (joinWatchers_assoc (there.getD []) [] ws).symm

end Componentry
