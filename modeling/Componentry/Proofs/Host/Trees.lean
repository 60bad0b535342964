import Componentry.Proofs.Host
import Componentry.Proofs.Markup.Numbering

/-!
# Trees in the host

Markup that is read into the host is found there again. Its nodes have consecutive numbers, and at
the first of them there is the tree that they were made of, for as long as they are left alone.

- `Host.loadNode_numbers`, `Host.loadNodes_numbers`: which numbers the new nodes have.
- `Host.loadNode_at`, `Host.loadNodes_at`: **the new nodes** are the nodes of the trees.
- `Host.loadDocument_at`: so are those of a document.
- `Host.trees_eq`: **the tree at a node** is the one whose nodes are there.
- `Host.Untouched`: the nodes that were made are as they were made.
-/

namespace Componentry

open Markup

/-! ## What is known of a node -/

/-- A node without its children. -/
def HostKind.bare : HostKind → Option Node
  | .document => none
  | .doctype name => some (.doctype name)
  | .text s => some (.text s)
  | .comment s => some (.comment s)
  | .element tag attrs => some (.element tag attrs none [])

namespace Host

variable {h h' g : Host} {i : NodeId} {n : Node} {ns : List Node}

/-- What is known of a node. -/
def look (h : Host) : Look := fun i => ((h.node i).kind.bare, h.children i)

/-- How the trees of the host are made. -/
theorem readsTrees (h : Host) : ReadsTrees h.look h.treesAt where
  leaf {depth i n} hlook := by
    obtain ⟨hkind, hchildren⟩ := Prod.mk.inj hlook
    rw [children] at hchildren
    rw [treesAt]
    cases hk : (h.node i).kind with
    | document =>
      rw [hk] at hkind
      cases hkind
    | element tag attrs =>
      rw [hk] at hkind
      cases hkind
      simp only [hchildren]
      rfl
    | _ =>
      rw [hk] at hkind
      cases hkind
      rfl
  element {depth i tag attrs ids} hlook := by
    obtain ⟨hkind, hchildren⟩ := Prod.mk.inj hlook
    rw [children] at hchildren
    rw [treesAt]
    cases hk : (h.node i).kind with
    | element tag' attrs' =>
      rw [hk] at hkind
      cases hkind
      simp only [hchildren]
    | _ =>
      rw [hk] at hkind
      cases hkind

/-- **The tree at a node** is the one whose nodes are there. -/
theorem trees_eq (hat : n.At h.look i) (hcount : n.count ≤ h.nodes.size) : h.trees i = [n] :=
  hat.read h.readsTrees (Nat.le_succ_of_le hcount)

theorem outerHtml_eq (hat : n.At h.look i) (hcount : n.count ≤ h.nodes.size) :
    h.outerHtml i = n.write false := by
  rw [outerHtml, trees_eq hat hcount]
  exact String.append_empty

/-! ## Making nodes -/

theorem size_add (x : HostNode) : (h.add x).2.nodes.size = h.nodes.size + 1 := Array.size_push x

theorem size_setChildren (cs : List NodeId) : (h.setChildren i cs).nodes.size = h.nodes.size :=
  Array.size_modify

mutual

/-- **The numbers** of the nodes that are made of a tree. -/
theorem loadNode_numbers (parent : Option NodeId) (h : Host) : ∀ n : Node,
    (loadNode parent h n).1 = h.nodes.size ∧
      (loadNode parent h n).2.nodes.size = h.nodes.size + n.count
  | .doctype _ => ⟨rfl, size_add _⟩
  | .text _ => ⟨rfl, size_add _⟩
  | .comment _ => ⟨rfl, size_add _⟩
  | .element tag attrs contents children => by
    refine ⟨rfl, ?_⟩
    rw [loadNode, size_setChildren,
      (loadNodes_numbers _ (h.add { kind := .element tag attrs, parent }).2 children).2, size_add,
      Node.count, Nat.add_assoc]

theorem loadNodes_numbers (parent : Option NodeId) (h : Host) : ∀ ns : List Node,
    (loadNodes parent h ns).1 = rootsFrom h.nodes.size ns ∧
      (loadNodes parent h ns).2.nodes.size = h.nodes.size + countAll ns
  | [] => ⟨rfl, rfl⟩
  | n :: rest => by
    obtain ⟨hfirst, hsize⟩ := loadNode_numbers parent h n
    obtain ⟨hrest, hend⟩ := loadNodes_numbers parent (loadNode parent h n).2 rest
    rw [hsize] at hrest hend
    rw [loadNodes, rootsFrom, countAll, ← Nat.add_assoc]
    exact ⟨List.cons_eq_cons.mpr ⟨hfirst, hrest⟩, hend⟩

end

/-- What is known of the nodes that were there is the same. -/
theorem Extends.look (hh : h.Extends h') (hi : i < h.nodes.size) : h'.look i = h.look i := by
  rw [Host.look, Host.look, children, children, hh.node i hi]

theorem node_add_self (x : HostNode) : (h.add x).2.node h.nodes.size = x := by
  rw [node, add, Array.getD_eq_getD_getElem?, Array.getElem?_push_size]
  rfl

theorem look_add (x : HostNode) : (h.add x).2.look h.nodes.size = (x.kind.bare, x.children) := by
  rw [look, children, node_add_self]

/-- Listing the children of another node. -/
theorem look_setChildren_of_ne {j : NodeId} {cs : List NodeId} (hne : j ≠ i) :
    (h.setChildren i cs).look j = h.look j := by
  rw [look, look, children, children, setChildren, node_update_of_ne hne]

mutual

/-- **The nodes that are made of a tree** are the nodes of that tree. -/
theorem loadNode_at (parent : Option NodeId) (h : Host) : ∀ n : Node, n.Bare →
    n.At (loadNode parent h n).2.look h.nodes.size
  | .doctype name, _ => look_add { kind := .doctype name, parent }
  | .text s, _ => look_add { kind := .text s, parent }
  | .comment s, _ => look_add { kind := .comment s, parent }
  | .element tag attrs contents children, hbare => by
    rw [Node.Bare] at hbare
    -- the element is there first, then its children, and at the end they are listed
    let h₁ := (h.add { kind := .element tag attrs, parent }).2
    have hsize : h₁.nodes.size = h.nodes.size + 1 := size_add _
    obtain ⟨hids, hend⟩ := loadNodes_numbers (some h.nodes.size) h₁ children
    have hchildren := loadNodes_at (some h.nodes.size) h₁ children hbare.2
    have hextends := (loadNodes_extends (some h.nodes.size) h₁ children).1
    rw [hsize] at hids hend hchildren
    have hlt : h.nodes.size < (loadNodes (some h.nodes.size) h₁ children).2.nodes.size := by
      rw [hend]
      omega
    have hkind : ((loadNodes (some h.nodes.size) h₁ children).2.node h.nodes.size).kind =
        .element tag attrs := by
      rw [hextends.node _ (hsize ▸ Nat.lt_succ_self _)]
      exact congrArg HostNode.kind (node_add_self _)
    rw [Node.At]
    refine ⟨hbare.1, ?_, AllAt.congr (fun j hle _ => ?_) hchildren⟩
    · show ((((loadNodes _ h₁ children).2.update _ _).node h.nodes.size).kind.bare,
        (((loadNodes _ h₁ children).2.update _ _).node h.nodes.size).children) = _
      rw [node_update_self hlt, ← hids]
      exact congrArg (fun k => (HostKind.bare k, _)) hkind
    · exact look_setChildren_of_ne (Nat.ne_of_gt hle)

theorem loadNodes_at (parent : Option NodeId) (h : Host) : ∀ ns : List Node, AllBare ns →
    AllAt (loadNodes parent h ns).2.look h.nodes.size ns
  | [], _ => by
    rw [AllAt]
    trivial
  | n :: rest, hbare => by
    rw [AllBare] at hbare
    obtain ⟨-, hsize⟩ := loadNode_numbers parent h n
    have hfirst := loadNode_at parent h n hbare.1
    have hrest := loadNodes_at parent (loadNode parent h n).2 rest hbare.2
    have hextends := (loadNodes_extends parent (loadNode parent h n).2 rest).1
    rw [hsize] at hrest
    rw [AllAt]
    refine ⟨hfirst.congr fun j _ hlt => ?_, hrest⟩
    exact hextends.look (hsize ▸ hlt)

end

theorem loadDocument_fst (h : Host) (html : String) : (h.loadDocument html).1 = h.nodes.size := by
  rw [loadDocument]
  generalize Document.parse html = d
  rfl

/-- **A document** comes first, and then what is in it. -/
theorem loadDocument_at (h : Host) {html : String} (hnodes : (Document.parse html).nodes = ns)
    (hbare : AllBare ns) :
    (h.loadDocument html).1 = h.nodes.size ∧
      (h.loadDocument html).2.nodes.size = h.nodes.size + 1 + countAll ns ∧
      (h.loadDocument html).2.children h.nodes.size = rootsFrom (h.nodes.size + 1) ns ∧
      AllAt (h.loadDocument html).2.look (h.nodes.size + 1) ns := by
  let h₁ := (h.add { kind := .document }).2
  have hsize : h₁.nodes.size = h.nodes.size + 1 := size_add _
  obtain ⟨hids, hend⟩ := loadNodes_numbers (some h.nodes.size) h₁ ns
  have hrow := loadNodes_at (some h.nodes.size) h₁ ns hbare
  rw [hsize] at hids hend hrow
  have hdocument : h.loadDocument html = (h.nodes.size,
      (loadNodes (some h.nodes.size) h₁ ns).2.setChildren h.nodes.size
        (rootsFrom (h.nodes.size + 1) ns)) := by
    rw [← hids, loadDocument, hnodes]
    rfl
  rw [hdocument]
  have hlt : h.nodes.size < (loadNodes (some h.nodes.size) h₁ ns).2.nodes.size := by
    rw [hend]
    omega
  refine ⟨rfl, (size_setChildren _).trans hend, ?_, AllAt.congr (fun j hle _ => ?_) hrow⟩
  · rw [children, setChildren, node_update_self hlt]
  · exact look_setChildren_of_ne (Nat.ne_of_gt hle)

/-! ## Nodes that are left alone -/

/-- The nodes that were made between the first two are in the third as they were made. -/
structure Untouched (h h' g : Host) : Prop where
  size : h'.nodes.size ≤ g.nodes.size
  node : ∀ i, h.nodes.size ≤ i → i < h'.nodes.size → g.node i = h'.node i

theorem Untouched.refl (h h' : Host) : h.Untouched h' h' := ⟨Nat.le_refl _, fun _ _ _ => rfl⟩

/-- A tree of those nodes is still there. -/
theorem Untouched.at (hg : h.Untouched h' g) (hat : n.At h'.look i) (hle : h.nodes.size ≤ i)
    (hlt : i + n.count ≤ h'.nodes.size) : n.At g.look i :=
  hat.congr fun j hj hj' => by
    rw [look, look, children, children,
      hg.node j (Nat.le_trans hle hj) (Nat.lt_of_lt_of_le hj' hlt)]

end Host

end Componentry
