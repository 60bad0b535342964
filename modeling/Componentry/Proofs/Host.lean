import Componentry.Host.Basic

/-!
# What stays in the host tree

Markup that is read into the host makes new nodes and leaves the others alone. Putting nodes in the
place of another takes that one out of its parent and nothing else. So if it is neither an html nor
a body element, those elements stay where they are.

- `Host.Extends`: only new nodes were added.
- `Host.loadNode_extends`, `Host.loadNodes_extends`: **reading markup** only adds nodes.
- `Host.Keeps`: html and body elements stay where they are.
- `Host.keeps_replaceNode`: **putting nodes in the place of another** keeps them.
- `Host.Rooted`: an html or body element that belongs to a document.
-/

namespace Componentry

namespace Host

variable {h h' h'' : Host} {i j n p : NodeId} {f : HostNode → HostNode}

/-! ## One node -/

theorem node_of_size_le (hle : h.nodes.size ≤ i) :
    h.node i = { kind := .document, alive := false } := by
  rw [node, Array.getD_eq_getD_getElem?, Array.getElem?_eq_none hle]
  rfl

theorem node_update_of_ne (hne : i ≠ j) : (h.update j f).node i = h.node i := by
  rw [node, node, update, Array.getD_eq_getD_getElem?, Array.getD_eq_getD_getElem?,
    Array.getElem?_modify, if_neg (Ne.symm hne)]

theorem node_update_self (hlt : i < h.nodes.size) : (h.update i f).node i = f (h.node i) := by
  rw [node, node, update, Array.getD_eq_getD_getElem?, Array.getD_eq_getD_getElem?,
    Array.getElem?_modify, if_pos rfl, Array.getElem?_eq_getElem hlt]
  rfl

/-- What an update does not change of a node. -/
theorem read_update {β : Type} {read : HostNode → β} (hf : ∀ x, read (f x) = read x) (i : NodeId) :
    read ((h.update j f).node i) = read (h.node i) := by
  by_cases hij : i = j
  · subst hij
    by_cases hlt : i < h.nodes.size
    · rw [node_update_self hlt, hf]
    · have hle : h.nodes.size ≤ i := Nat.le_of_not_lt hlt
      rw [node_of_size_le hle, node_of_size_le (by rw [update, Array.size_modify]; exact hle)]
  · rw [node_update_of_ne hij]

/-- A document root is a node that is there. -/
theorem lt_size_of_isDocumentRoot (hn : h.isDocumentRoot n = true) : n < h.nodes.size := by
  refine Nat.lt_of_not_le fun hle => ?_
  rw [isDocumentRoot, tag?, node_of_size_le hle] at hn
  cases hn

/-- Only nodes that are there have children. -/
theorem lt_size_of_mem_children (hn : n ∈ h.children p) : p < h.nodes.size := by
  refine Nat.lt_of_not_le fun hle => ?_
  rw [children, node_of_size_le hle] at hn
  cases hn

theorem isDocumentRoot_congr (hkind : (h'.node n).kind = (h.node n).kind) :
    h'.isDocumentRoot n = h.isDocumentRoot n := by
  rw [isDocumentRoot, isDocumentRoot, tag?, tag?, hkind]

/-! ## New nodes -/

/-- Nodes were added, and the others are as they were. -/
structure Extends (h h' : Host) : Prop where
  size : h.nodes.size ≤ h'.nodes.size
  node : ∀ i, i < h.nodes.size → h'.node i = h.node i

namespace Extends

theorem refl (h : Host) : h.Extends h := ⟨Nat.le_refl _, fun _ _ => rfl⟩

theorem trans (hh : h.Extends h') (hh' : h'.Extends h'') : h.Extends h'' where
  size := Nat.le_trans hh.size hh'.size
  node i hi := (hh'.node i (Nat.lt_of_lt_of_le hi hh.size)).trans (hh.node i hi)

theorem add (hh : h.Extends h') (x : HostNode) : h.Extends (h'.add x).2 where
  size := by
    rw [Host.add, Array.size_push]
    exact Nat.le_succ_of_le hh.size
  node i hi := by
    have hne : i ≠ h'.nodes.size := Nat.ne_of_lt (Nat.lt_of_lt_of_le hi hh.size)
    rw [← hh.node i hi, Host.node, Host.node, Host.add, Array.getD_eq_getD_getElem?,
      Array.getD_eq_getD_getElem?, Array.getElem?_push, if_neg hne]

/-- Changing a new node. -/
theorem update (hh : h.Extends h') (hnew : h.nodes.size ≤ j) : h.Extends (h'.update j f) where
  size := by
    rw [Host.update, Array.size_modify]
    exact hh.size
  node i hi := by
    rw [node_update_of_ne (Nat.ne_of_lt (Nat.lt_of_lt_of_le hi hnew)), hh.node i hi]

end Extends

mutual

/-- **Reading a tree** only adds nodes. -/
theorem loadNode_extends (parent : Option NodeId) (h : Host) :
    ∀ t : Markup.Node, h.Extends (loadNode parent h t).2 ∧ h.nodes.size ≤ (loadNode parent h t).1
  | .doctype _ => ⟨(Extends.refl h).add _, Nat.le_refl _⟩
  | .text _ => ⟨(Extends.refl h).add _, Nat.le_refl _⟩
  | .comment _ => ⟨(Extends.refl h).add _, Nat.le_refl _⟩
  | .element tag attrs _ kids => by
    have hnew : h.Extends (h.add { kind := .element tag attrs, parent }).2 :=
      (Extends.refl h).add _
    have hkids := (loadNodes_extends (some h.nodes.size)
      (h.add { kind := .element tag attrs, parent }).2 kids).1
    exact ⟨(hnew.trans hkids).update (Nat.le_refl _), Nat.le_refl _⟩

/-- **Reading trees in a row** only adds nodes. -/
theorem loadNodes_extends (parent : Option NodeId) (h : Host) :
    ∀ ts : List Markup.Node, h.Extends (loadNodes parent h ts).2 ∧
      ∀ i ∈ (loadNodes parent h ts).1, h.nodes.size ≤ i
  | [] => ⟨Extends.refl h, fun i hi => by cases hi⟩
  | t :: rest => by
    obtain ⟨hfirst, hnumber⟩ := loadNode_extends parent h t
    obtain ⟨hrest, hnumbers⟩ := loadNodes_extends parent (loadNode parent h t).2 rest
    refine ⟨hfirst.trans hrest, fun i hi => ?_⟩
    rcases List.mem_cons.mp hi with rfl | hi
    · exact hnumber
    · exact Nat.le_trans hfirst.size (hnumbers i hi)

end

/-! ## Document roots -/

/-- Whatever was an html or body element still is one, with the parent that it had, and in the
children of whatever it was in. -/
structure Keeps (h h' : Host) : Prop where
  size : h.nodes.size ≤ h'.nodes.size
  kind : ∀ i, i < h.nodes.size → (h'.node i).kind = (h.node i).kind
  parent : ∀ n, h.isDocumentRoot n = true → (h'.node n).parent = (h.node n).parent
  listed : ∀ n p, h.isDocumentRoot n = true → n ∈ h.children p → n ∈ h'.children p

theorem Keeps.refl (h : Host) : h.Keeps h :=
  ⟨Nat.le_refl _, fun _ _ => rfl, fun _ _ => rfl, fun _ _ _ hn => hn⟩

theorem Keeps.isDocumentRoot (hh : h.Keeps h') (hn : h.isDocumentRoot n = true) :
    h'.isDocumentRoot n = true :=
  (isDocumentRoot_congr (hh.kind n (lt_size_of_isDocumentRoot hn))).trans hn

theorem Keeps.trans (hh : h.Keeps h') (hh' : h'.Keeps h'') : h.Keeps h'' where
  size := Nat.le_trans hh.size hh'.size
  kind i hi := (hh'.kind i (Nat.lt_of_lt_of_le hi hh.size)).trans (hh.kind i hi)
  parent n hn := (hh'.parent n (hh.isDocumentRoot hn)).trans (hh.parent n hn)
  listed n p hn hp := hh'.listed n p (hh.isDocumentRoot hn) (hh.listed n p hn hp)

theorem Extends.keeps (hh : h.Extends h') : h.Keeps h' where
  size := hh.size
  kind i hi := by rw [hh.node i hi]
  parent n hn := by rw [hh.node n (lt_size_of_isDocumentRoot hn)]
  listed n p _ hp := by
    rw [children, hh.node p (lt_size_of_mem_children hp)]
    exact hp

/-- An update that says nothing new of document roots. -/
theorem Keeps.update (hh : h.Keeps h') (hkind : ∀ x, (f x).kind = x.kind)
    (hparent : h.isDocumentRoot j = true → ∀ x, (f x).parent = x.parent)
    (hlisted : ∀ n, h.isDocumentRoot n = true → n ∈ h'.children j →
      n ∈ (f (h'.node j)).children) : h.Keeps (h'.update j f) where
  size := by
    rw [Host.update, Array.size_modify]
    exact hh.size
  kind i hi := (read_update hkind i).trans (hh.kind i hi)
  parent n hn := by
    rw [← hh.parent n hn]
    by_cases hj : n = j
    · subst hj
      exact read_update (hparent hn) n
    · rw [node_update_of_ne hj]
  listed n p hn hp := by
    have hp := hh.listed n p hn hp
    by_cases hj : p = j
    · subst hj
      rw [children, node_update_self (lt_size_of_mem_children hp)]
      exact hlisted n hn hp
    · rw [children, node_update_of_ne hj]
      exact hp

/-- Giving a parent to nodes that are no document roots. -/
theorem Keeps.setParent (hh : h.Keeps h') (hj : h.isDocumentRoot j = false) (q : Option NodeId) :
    h.Keeps (h'.setParent j q) := by
  refine hh.update (fun _ => rfl) (fun hroot => ?_) fun _ _ hn => hn
  rw [hj] at hroot
  cases hroot

theorem Keeps.setParents {is : List NodeId} (hh : h.Keeps h')
    (his : ∀ i ∈ is, h.isDocumentRoot i = false) (q : Option NodeId) :
    h.Keeps (is.foldl (fun h i => h.setParent i q) h') := by
  induction is generalizing h' with
  | nil => exact hh
  | cons i rest ih =>
    obtain ⟨hi, hrest⟩ := List.forall_mem_cons.mp his
    exact ih (hh.setParent hi q) hrest

/-- What is put in the place of a node takes out that node and nothing else. -/
theorem mem_spliced {cs news : List NodeId} {old : NodeId} (hn : n ∈ cs) (hne : n ≠ old) :
    n ∈ spliced cs old news := by
  have hparts : n ∈ cs.takeWhile (· != old) ∨ n ∈ cs.dropWhile (· != old) := by
    rw [← List.mem_append, List.takeWhile_append_dropWhile]
    exact hn
  rw [spliced, List.mem_append, List.mem_append]
  rcases hparts with hbefore | hafter
  · exact .inl (.inl hbefore)
  · refine .inr ?_
    cases hrest : cs.dropWhile (· != old) with
    | nil =>
      rw [hrest] at hafter
      cases hafter
    | cons c rest =>
      -- the first of the rest is the node that is taken out
      have hc : c = old := by
        have hne : cs.dropWhile (· != old) ≠ [] := by simp [hrest]
        have hhead := List.head_dropWhile_not (· != old) hne
        simpa [hrest] using hhead
      rw [hrest, hc] at hafter
      exact (List.mem_cons.mp hafter).resolve_left hne

/-- **Putting nodes in the place of another** that is no document root keeps all document roots, if
the nodes are none of them either. -/
theorem keeps_replaceNode {old : NodeId} {news : List NodeId} (hh : h.Keeps h')
    (hold : h.isDocumentRoot old = false) (hnews : ∀ i ∈ news, h.isDocumentRoot i = false) :
    h.Keeps (h'.replaceNode old news).2 := by
  rw [replaceNode]
  cases h'.parent? old with
  | none => exact hh
  | some p =>
    dsimp only
    by_cases hin : (h'.children p).contains old
    · rw [if_pos hin]
      refine Keeps.setParent ?_ hold none
      refine (hh.setParents hnews (some p)).update (fun _ => rfl) (fun _ _ => rfl) ?_
      intro n hn hp
      refine mem_spliced hp fun hne => ?_
      rw [hne, hold] at hn
      cases hn
    · rw [if_neg hin]
      exact hh

/-- **Reading markup and putting it in the place of a node** that is no document root keeps all
document roots. -/
theorem keeps_loadBody_replaceNode {old : NodeId} (hold : h.isDocumentRoot old = false)
    (d : Markup.Document) :
    h.Keeps ((h.loadBody d).2.replaceNode old (h.loadBody d).1).2 := by
  obtain ⟨hextends, hnew⟩ := loadNodes_extends none h d.body
  refine keeps_replaceNode hextends.keeps hold fun i hi => ?_
  rw [Bool.eq_false_iff]
  exact fun hroot => Nat.not_lt_of_le (hnew i hi) (lt_size_of_isDocumentRoot hroot)

/-- An html or body element that belongs to a document: it is a child of the document, or of another
such element, and has it as its parent. -/
inductive Rooted (h : Host) (page : NodeId) : NodeId → Prop
  | top {n : NodeId} (root : h.isDocumentRoot n = true) (listed : n ∈ h.children page)
      (parent : (h.node n).parent = some page) : Rooted h page n
  | inside {n p : NodeId} (above : Rooted h page p) (root : h.isDocumentRoot n = true)
      (listed : n ∈ h.children p) (parent : (h.node n).parent = some p) : Rooted h page n

/-- It stays where it is. -/
theorem Keeps.rooted {page : NodeId} (hh : h.Keeps h') (hn : h.Rooted page n) :
    h'.Rooted page n := by
  induction hn with
  | top hroot hlisted hparent =>
    exact .top (hh.isDocumentRoot hroot) (hh.listed _ _ hroot hlisted)
      ((hh.parent _ hroot).trans hparent)
  | inside _ hroot hlisted hparent ih =>
    exact .inside ih (hh.isDocumentRoot hroot) (hh.listed _ _ hroot hlisted)
      ((hh.parent _ hroot).trans hparent)

end Host

end Componentry
