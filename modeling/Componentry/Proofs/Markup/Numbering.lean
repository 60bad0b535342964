import Componentry.Markup.Node

/-!
# Trees by numbers

Both a tree under construction and the host keep their nodes in a table and refer to them by
numbers. A tree is made from the top, and its children from the first to the last, so its nodes have
consecutive numbers.

- `Node.At`, `AllAt`: the nodes of a tree, or of trees in a row, from a number on.
- `Node.Bare`, `AllBare`: no template is in the trees.
- `Node.At.congr`, `AllAt.congr`: **only those numbers** make a difference.
- `Node.At.read`, `AllAt.read`: **what is read** of the nodes of a tree is the tree.
-/

namespace Componentry.Markup

mutual

/-- How many nodes a tree is made of. -/
def Node.count : Node → Nat
  | .element _ _ _ children => 1 + countAll children
  | _ => 1

def countAll : List Node → Nat
  | [] => 0
  | n :: rest => n.count + countAll rest

end

/-- The numbers of the roots of trees in a row. -/
def rootsFrom (i : Nat) : List Node → List Nat
  | [] => []
  | n :: rest => i :: rootsFrom (i + n.count) rest

/-- What is known of numbered nodes: each without its children, if it is one that can stand in a
tree, and the numbers of its children. -/
abbrev Look := Nat → Option Node × List Nat

mutual

/-- A tree, its nodes numbered from `i` on. It has no template in it. -/
def Node.At (look : Look) (i : Nat) : Node → Prop
  | .element tag attrs contents children =>
    contents = none ∧ look i = (some (.element tag attrs none []), rootsFrom (i + 1) children) ∧
      AllAt look (i + 1) children
  | n => look i = (some n, [])

/-- Trees in a row, their nodes numbered from `i` on. -/
def AllAt (look : Look) (i : Nat) : List Node → Prop
  | [] => True
  | n :: rest => n.At look i ∧ AllAt look (i + n.count) rest

end

mutual

/-- No element of the tree keeps contents apart from its children. -/
def Node.Bare : Node → Prop
  | .element _ _ contents children => contents = none ∧ AllBare children
  | _ => True

def AllBare : List Node → Prop
  | [] => True
  | n :: rest => n.Bare ∧ AllBare rest

end

theorem Node.count_pos (n : Node) : 0 < n.count := by
  cases n with
  | element tag attrs contents children =>
    rw [Node.count]
    omega
  | _ => exact Nat.one_pos

theorem Node.at_text {look : Look} {i : Nat} {s : String} :
    (Node.text s).At look i = (look i = (some (.text s), [])) := rfl

theorem countAll_append (ns ms : List Node) : countAll (ns ++ ms) = countAll ns + countAll ms := by
  induction ns with
  | nil => rw [List.nil_append, countAll, Nat.zero_add]
  | cons n ns ih => rw [List.cons_append, countAll, countAll, ih, Nat.add_assoc]

theorem rootsFrom_append (i : Nat) (ns ms : List Node) :
    rootsFrom i (ns ++ ms) = rootsFrom i ns ++ rootsFrom (i + countAll ns) ms := by
  induction ns generalizing i with
  | nil => rfl
  | cons n ns ih =>
    rw [List.cons_append, rootsFrom, rootsFrom, ih, countAll, Nat.add_assoc]
    rfl

theorem length_rootsFrom (i : Nat) (ns : List Node) : (rootsFrom i ns).length = ns.length := by
  induction ns generalizing i with
  | nil => rfl
  | cons n ns ih => rw [rootsFrom, List.length_cons, ih, List.length_cons]

theorem lt_of_mem_rootsFrom {i j : Nat} {ns : List Node} (h : j ∈ rootsFrom i ns) :
    j < i + countAll ns := by
  induction ns generalizing i with
  | nil => cases h
  | cons n ns ih =>
    have hpos := n.count_pos
    rw [countAll]
    rcases List.mem_cons.mp h with rfl | h
    · omega
    · have hlt := ih h
      omega

theorem le_of_mem_rootsFrom {i j : Nat} {ns : List Node} (h : j ∈ rootsFrom i ns) : i ≤ j := by
  induction ns generalizing i with
  | nil => cases h
  | cons n ns ih =>
    rcases List.mem_cons.mp h with rfl | h
    · exact Nat.le_refl j
    · exact Nat.le_trans (Nat.le_add_right i n.count) (ih h)

/-- Each root has a number of its own. -/
theorem nodup_rootsFrom (i : Nat) (ns : List Node) : (rootsFrom i ns).Nodup := by
  induction ns generalizing i with
  | nil => exact List.nodup_nil
  | cons n ns ih =>
    have hpos := n.count_pos
    refine List.nodup_cons.mpr ⟨fun h => ?_, ih _⟩
    have hle := le_of_mem_rootsFrom h
    omega

theorem allAt_append {look : Look} {i : Nat} {ns ms : List Node} (h : AllAt look i ns)
    (h' : AllAt look (i + countAll ns) ms) : AllAt look i (ns ++ ms) := by
  induction ns generalizing i with
  | nil => exact h'
  | cons n ns ih =>
    rw [AllAt] at h
    rw [countAll, ← Nat.add_assoc] at h'
    rw [List.cons_append, AllAt]
    exact ⟨h.1, ih h.2 h'⟩

mutual

/-- **Only the numbers of a tree** make a difference to it. -/
theorem Node.At.congr {look look' : Look} :
    ∀ {n : Node} {i : Nat}, (∀ j, i ≤ j → j < i + n.count → look' j = look j) →
      n.At look i → n.At look' i
  | .element tag attrs contents children, i, hsame, h => by
    rw [Node.At] at h ⊢
    rw [Node.count] at hsame
    refine ⟨h.1, (hsame i (Nat.le_refl i) (by omega)).trans h.2.1, AllAt.congr ?_ h.2.2⟩
    exact fun j hle hlt => hsame j (by omega) (by omega)
  | .doctype _, i, hsame, h => (hsame i (Nat.le_refl i) (Nat.lt_succ_self i)).trans h
  | .text _, i, hsame, h => (hsame i (Nat.le_refl i) (Nat.lt_succ_self i)).trans h
  | .comment _, i, hsame, h => (hsame i (Nat.le_refl i) (Nat.lt_succ_self i)).trans h

theorem AllAt.congr {look look' : Look} :
    ∀ {ns : List Node} {i : Nat}, (∀ j, i ≤ j → j < i + countAll ns → look' j = look j) →
      AllAt look i ns → AllAt look' i ns
  | [], _, _, _ => by
    rw [AllAt]
    trivial
  | n :: rest, i, hsame, h => by
    rw [AllAt] at h ⊢
    rw [countAll] at hsame
    exact ⟨Node.At.congr (fun j hle hlt => hsame j hle (by omega)) h.1,
      AllAt.congr (fun j hle hlt => hsame j (by omega) (by omega)) h.2⟩

end

/-- Making trees of what is known of numbered nodes, to a depth. -/
structure ReadsTrees (look : Look) (read : Nat → Nat → List Node) : Prop where
  leaf {depth i : Nat} {n : Node} : look i = (some n, []) → read (depth + 1) i = [n]
  element {depth i : Nat} {tag : TagName} {attrs : List Attribute} {ids : List Nat} :
    look i = (some (.element tag attrs none []), ids) →
      read (depth + 1) i = [.element tag attrs none (ids.flatMap (read depth))]

mutual

/-- **What is read** of the nodes of a tree is the tree, if one looks deep enough. -/
theorem Node.At.read {look : Look} {read : Nat → Nat → List Node} (hread : ReadsTrees look read) :
    ∀ {n : Node} {i depth : Nat}, n.At look i → n.count ≤ depth → read depth i = [n]
  | .element tag attrs contents children, i, depth, h, hdepth => by
    rw [Node.At] at h
    rw [Node.count] at hdepth
    obtain ⟨depth, rfl⟩ : ∃ k, depth = k + 1 := ⟨depth - 1, by omega⟩
    obtain ⟨rfl, hlook, hchildren⟩ := h
    rw [hread.element hlook, AllAt.read hread hchildren (by omega)]
  | .doctype _, i, depth, h, hdepth => by
    obtain ⟨depth, rfl⟩ : ∃ k, depth = k + 1 := ⟨depth - 1, (Nat.sub_add_cancel hdepth).symm⟩
    exact hread.leaf h
  | .text _, i, depth, h, hdepth => by
    obtain ⟨depth, rfl⟩ : ∃ k, depth = k + 1 := ⟨depth - 1, (Nat.sub_add_cancel hdepth).symm⟩
    exact hread.leaf h
  | .comment _, i, depth, h, hdepth => by
    obtain ⟨depth, rfl⟩ : ∃ k, depth = k + 1 := ⟨depth - 1, (Nat.sub_add_cancel hdepth).symm⟩
    exact hread.leaf h

theorem AllAt.read {look : Look} {read : Nat → Nat → List Node} (hread : ReadsTrees look read) :
    ∀ {ns : List Node} {i depth : Nat}, AllAt look i ns → countAll ns ≤ depth →
      (rootsFrom i ns).flatMap (read depth) = ns
  | [], _, _, _, _ => rfl
  | n :: rest, i, depth, h, hdepth => by
    rw [AllAt] at h
    rw [countAll] at hdepth
    rw [rootsFrom, List.flatMap_cons, Node.At.read hread h.1 (by omega),
      AllAt.read hread h.2 (by omega)]
    rfl

end

end Componentry.Markup
