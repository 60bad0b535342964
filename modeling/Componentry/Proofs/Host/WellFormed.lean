import Componentry.Proofs.Host.Splice
import Mathlib.Data.List.Nodup
import Mathlib.Logic.Relation

/-!
# Well-formed host trees

Which node is below which is kept twice in the host: every node lists its children, and every node
has its parent. Putting nodes in the place of another changes both, one after the other, and they
agree again afterwards, whatever the place and however many nodes are put there.

- `Host.WellFormed`: what is listed is listed once, by its parent.
- `Host.Replaced`: nodes that had no parent are in the place of another.
- `Host.Replaced.wellFormed`: **the tree is well formed again**.
- `Host.Replaced.acyclic`: nor is there a circle, unless a new node was above the place. Being well
  formed says nothing of circles.
- `Host.replaced_replaceNode`: **putting nodes in the place of another** leaves them there.
- `Host.replaceNode_of_not_listed`: a node that nothing lists has no place. It may still have a
  parent: one that lost its children when something above it was let go of.
- `Host.replaceNode_wellFormed`: both, for any node of a tree.
- `Host.loadNode_wellFormed`: **reading markup** leaves a well-formed host, too.
-/

namespace Componentry

open Markup
open Relation (TransGen ReflTransGen reflTransGen_iff_eq_or_transGen)

namespace Host

variable {h h' : Host} {i j old p q : NodeId} {news : List NodeId}

/-- No node is listed twice: not by the same node, and not by two, since the node that lists another
is its parent. -/
structure WellFormed (h : Host) : Prop where
  once : ∀ p, (h.children p).Nodup
  parent : ∀ p, ∀ i ∈ h.children p, h.parent? i = some p

/-- A node without a parent. -/
structure Detached (h : Host) (i : NodeId) : Prop where
  there : i < h.nodes.size
  parent : h.parent? i = none

/-- A node of a tree: the one at the top, which has no parent, or one that is listed. -/
def InTree (h : Host) (i : NodeId) : Prop := h.parent? i = none ∨ ∃ p, i ∈ h.children p

namespace WellFormed

/-- A node is listed by one other at most. -/
theorem lister_unique (hwf : h.WellFormed) (hp : i ∈ h.children p) (hq : i ∈ h.children q) :
    p = q :=
  Option.some.inj ((hwf.parent p i hp).symm.trans (hwf.parent q i hq))

theorem not_listed (hwf : h.WellFormed) (hi : h.parent? i = none) (p : NodeId) :
    i ∉ h.children p := by
  intro hp
  rw [hwf.parent p i hp] at hi
  cases hi

/-- A node of a tree is listed by its parent, if it has one. -/
theorem listed (hwf : h.WellFormed) (hi : h.InTree i) (hparent : h.parent? i = some p) :
    i ∈ h.children p := by
  rcases hi with hnone | ⟨q, hq⟩
  · rw [hnone] at hparent
    cases hparent
  · obtain rfl := Option.some.inj ((hwf.parent q i hq).symm.trans hparent)
    exact hq

end WellFormed

/-- Only the nodes that are there need to be looked at. -/
instance (h : Host) : Decidable h.WellFormed :=
  decidable_of_iff (∀ p < h.nodes.size, (h.children p).Nodup ∧
    ∀ i ∈ h.children p, h.parent? i = some p) <| by
    constructor
    · intro hall
      refine ⟨fun p => ?_, fun p i hi => (hall p (lt_size_of_mem_children hi)).2 i hi⟩
      by_cases hp : p < h.nodes.size
      · exact (hall p hp).1
      · rw [children, node_of_size_le (Nat.le_of_not_lt hp)]
        exact List.nodup_nil
    · exact fun hwf p _ => ⟨hwf.once p, hwf.parent p⟩

/-- `i` is among the children of `p`. -/
def Lists (h : Host) (p i : NodeId) : Prop := i ∈ h.children p

/-- No node is below itself. -/
def Acyclic (h : Host) : Prop := ∀ i, ¬TransGen h.Lists i i

theorem parent?_congr (hparent : (h'.node i).parent = (h.node i).parent)
    (halive : ∀ p, (h'.node p).alive = (h.node p).alive) : h'.parent? i = h.parent? i := by
  rw [parent?, parent?, hparent]
  simp only [halive]

/-! ## Nodes in the place of another -/

/-- Between the two, nodes were put in the place of `old`, below its parent `p`. They are in order
between what was before it and what was behind it, `old` has no parent any more, and of any other
node nothing changed. -/
structure Replaced (h h' : Host) (old p : NodeId) (news : List NodeId) : Prop where
  row : ∃ before after, h.children p = before ++ old :: after ∧
    h'.children p = before ++ news ++ after
  attached : ∀ i ∈ news, h'.parent? i = some p
  detached : h'.Detached old
  children : ∀ i, i ≠ p → h'.children i = h.children i
  parent : ∀ i, i ≠ old → i ∉ news → (h'.node i).parent = (h.node i).parent
  rest : ∀ i, (h'.node i).kind = (h.node i).kind ∧ (h'.node i).alive = (h.node i).alive
  size : h'.nodes.size = h.nodes.size

namespace Replaced

/-- The parent of any other node is the same. -/
theorem parent?_eq (hr : h.Replaced h' old p news) (hne : i ≠ old) (hnot : i ∉ news) :
    h'.parent? i = h.parent? i :=
  parent?_congr (hr.parent i hne hnot) fun p => (hr.rest p).2

/-- But for the order, the new nodes are among the children in the place of the old one. -/
theorem perm (hr : h.Replaced h' old p news) : ∃ kept, (h.children p).Perm (old :: kept) ∧
    (h'.children p).Perm (news ++ kept) := by
  obtain ⟨before, after, hrow, hrow'⟩ := hr.row
  refine ⟨before ++ after, hrow ▸ List.perm_middle, ?_⟩
  rw [hrow', ← List.append_assoc]
  exact List.perm_append_comm.append_right after

/-- What is listed is new, or was listed by the same node and is not the one that was replaced. -/
theorem listed (hr : h.Replaced h' old p news) (hwf : h.WellFormed) (hi : i ∈ h'.children q) :
    q = p ∧ i ∈ news ∨ i ∈ h.children q ∧ i ≠ old := by
  obtain ⟨kept, hperm, hperm'⟩ := hr.perm
  by_cases hq : q = p
  · subst hq
    have honce : old ∉ kept := (List.nodup_cons.mp (hperm.nodup_iff.mp (hwf.once q))).1
    rcases List.mem_append.mp (hperm'.mem_iff.mp hi) with hnew | hkept
    · exact .inl ⟨rfl, hnew⟩
    · exact .inr ⟨hperm.mem_iff.mpr (List.mem_cons_of_mem _ hkept), fun heq => honce (heq ▸ hkept)⟩
  · rw [hr.children q hq] at hi
    have hold : old ∈ h.children p := hperm.mem_iff.mpr List.mem_cons_self
    exact .inr ⟨hi, fun heq => hq (hwf.lister_unique hi (heq ▸ hold))⟩

/-- **The tree is well formed again**, if the new nodes are distinct and had no parent. -/
theorem wellFormed (hr : h.Replaced h' old p news) (hwf : h.WellFormed) (hdistinct : news.Nodup)
    (hnews : ∀ i ∈ news, h.parent? i = none) : h'.WellFormed where
  once q := by
    by_cases hq : q = p
    · subst hq
      obtain ⟨kept, hperm, hperm'⟩ := hr.perm
      have honce : kept.Nodup := (List.nodup_cons.mp (hperm.nodup_iff.mp (hwf.once q))).2
      -- what had no parent was not listed before
      have hapart : news.Disjoint kept := fun i hnew hkept =>
        hwf.not_listed (hnews i hnew) q (hperm.mem_iff.mpr (List.mem_cons_of_mem _ hkept))
      exact hperm'.nodup_iff.mpr (hdistinct.append honce hapart)
    · rw [hr.children q hq]
      exact hwf.once q
  parent q i hi := by
    rcases hr.listed hwf hi with ⟨rfl, hnew⟩ | ⟨hlisted, hne⟩
    · exact hr.attached i hnew
    · have hparent := hwf.parent q i hlisted
      have hnot : i ∉ news := by
        intro hnew
        rw [hnews i hnew] at hparent
        cases hparent
      rw [hr.parent?_eq hne hnot, hparent]

/-- What is below what now was so before, or it is below a new node and the way there is through the
place. -/
theorem below (hr : h.Replaced h' old p news) (hwf : h.WellFormed) (hij : TransGen h'.Lists i j) :
    TransGen h.Lists i j ∨
      ReflTransGen h'.Lists i p ∧ ∃ n ∈ news, ReflTransGen h.Lists n j := by
  induction hij with
  | single hlists =>
    rcases hr.listed hwf hlists with ⟨rfl, hnew⟩ | ⟨hbefore, -⟩
    · exact .inr ⟨.refl, _, hnew, .refl⟩
    · exact .inl (.single hbefore)
  | tail habove hlists ih =>
    rcases hr.listed hwf hlists with ⟨rfl, hnew⟩ | ⟨hbefore, -⟩
    · exact .inr ⟨habove.to_reflTransGen, _, hnew, .refl⟩
    · refine ih.imp (·.tail hbefore) ?_
      rintro ⟨hplace, n, hn, hbelow⟩
      exact ⟨hplace, n, hn, hbelow.tail hbefore⟩

/-- **No circle arises**, if the place was not below a new node. -/
theorem acyclic (hr : h.Replaced h' old p news) (hwf : h.WellFormed) (hacyclic : h.Acyclic)
    (hnews : ∀ n ∈ news, ¬ReflTransGen h.Lists n p) : h'.Acyclic := by
  intro i hcircle
  rcases hr.below hwf hcircle with hbefore | ⟨hplace, n, hn, hbelow⟩
  · exact hacyclic i hbefore
  · -- the circle goes through the place, so the place is below a new node
    rcases reflTransGen_iff_eq_or_transGen.mp hplace with rfl | hplace
    · exact hnews n hn hbelow
    · rcases hr.below hwf hplace with hbefore | ⟨-, m, hm, hbelow'⟩
      · exact hnews n hn (hbelow.trans hbefore.to_reflTransGen)
      · exact hnews m hm hbelow'

end Replaced

/-! ## Putting nodes in the place of another -/

/-- A node that nothing lists has no place. -/
theorem replaceNode_of_not_listed (hnot : ∀ p, old ∉ h.children p) (news : List NodeId) :
    h.replaceNode old news = (false, h) := by
  rw [replaceNode]
  cases h.parent? old with
  | none => rfl
  | some p =>
    dsimp only
    rw [if_neg fun hin => hnot p (List.contains_iff_mem.mp hin)]

section

variable (hparent : h.parent? old = some p) (hin : old ∈ h.children p)
include hparent hin

theorem replaceNode_fst : (h.replaceNode old news).1 = true := by
  rw [replaceNode, hparent]
  dsimp only
  rw [if_pos (List.contains_iff_mem.mpr hin)]

/-- What is said of a node that is said neither of its parent nor of its children. -/
theorem read_replaceNode {β : Type} (read : HostNode → β)
    (hread : ∀ x q, read { x with parent := q } = read x)
    (hread' : ∀ x cs, read { x with children := cs } = read x) (i : NodeId) :
    read ((h.replaceNode old news).2.node i) = read (h.node i) := by
  rw [replaceNode_eq hparent hin, read_setParent read hread, read_setChildren read hread',
    read_setParents read hread]

/-- **Putting nodes in the place of another** leaves them there. -/
theorem replaced_replaceNode (hnews : ∀ i ∈ news, h.Detached i) :
    h.Replaced (h.replaceNode old news).2 old p news where
  row := by
    obtain ⟨before, after, hrow, hnot⟩ := List.eq_append_cons_of_mem hin
    refine ⟨before, after, hrow, ?_⟩
    rw [children_replaceNode hparent hin, hrow, spliced_eq hnot]
  attached i hi := by
    obtain ⟨hthere, hnone⟩ := hnews i hi
    have hne : i ≠ old := by
      rintro rfl
      rw [hparent] at hnone
      cases hnone
    exact parent_replaceNode hparent hin hne hi hthere
  detached := by
    have hthere : old < (h.replaceNode old news).2.nodes.size := by
      rw [size_replaceNode hparent hin]
      exact lt_size_of_parent hparent
    refine ⟨hthere, ?_⟩
    rw [replaceNode_eq hparent hin, setParent, update, Array.size_modify] at hthere
    rw [replaceNode_eq hparent hin, parent?, setParent, node_update_self hthere]
    rfl
  children i hne := congrArg Prod.snd (look_replaceNode hparent hin hne)
  parent i hne hnot := by
    rw [replaceNode_eq hparent hin, setParent, node_update_of_ne hne,
      read_setChildren HostNode.parent fun _ _ => rfl, node_setParents_of_not_mem _ hnot]
  rest i := Prod.mk.inj <| read_replaceNode hparent hin (fun x => (x.kind, x.alive))
    (fun _ _ => rfl) (fun _ _ => rfl) i
  size := size_replaceNode hparent hin

end

/-- **Putting nodes in the place of another keeps the host well formed.** Let `old` be any node of a
tree, and `news` any number of distinct nodes without a parent. If `old` has a parent, they are put
in its place and nothing else changes, and the host is well formed again. If it has none, nothing
changes at all. -/
theorem replaceNode_wellFormed (hwf : h.WellFormed) (hold : h.InTree old)
    (hdistinct : news.Nodup) (hnews : ∀ i ∈ news, h.Detached i) :
    (∀ p, h.parent? old = some p →
      (h.replaceNode old news).1 = true ∧ h.Replaced (h.replaceNode old news).2 old p news ∧
        (h.replaceNode old news).2.WellFormed) ∧
    (h.parent? old = none → h.replaceNode old news = (false, h)) := by
  constructor
  · intro p hparent
    have hin : old ∈ h.children p := hwf.listed hold hparent
    have hreplaced := replaced_replaceNode hparent hin hnews
    exact ⟨replaceNode_fst hparent hin, hreplaced,
      hreplaced.wellFormed hwf hdistinct fun i hi => (hnews i hi).parent⟩
  · intro hnone
    exact replaceNode_of_not_listed (hwf.not_listed hnone) news

/-- A page with an element between two texts, and two nodes that are in no page. -/
def loosePage : Host where
  nodes := #[{ kind := .document, children := [1, 2, 4] },
    { kind := .text "before", parent := some 0 },
    { kind := .element ⟨.html, "p"⟩ [], parent := some 0, children := [3] },
    { kind := .text "inside", parent := some 2 },
    { kind := .text "after", parent := some 0 },
    { kind := .element ⟨.html, "b"⟩ [], children := [6] },
    { kind := .text "new", parent := some 5 },
    { kind := .comment "new" }]

/-- Two nodes, one with a child, are put in the place of an element, and none in that of the page. -/
theorem replaceNode_wellFormed_loosePage :
    let g := (loosePage.replaceNode 2 [7, 5]).2
    loosePage.WellFormed ∧ loosePage.InTree 2 ∧ (∀ i ∈ [7, 5], loosePage.Detached i) ∧
      loosePage.parent? 2 = some 0 ∧ (loosePage.replaceNode 2 [7, 5]).1 = true ∧
      loosePage.Replaced g 2 0 [7, 5] ∧ g.WellFormed ∧ g.children 0 = [1, 7, 5, 4] ∧
      loosePage.replaceNode 0 [7, 5] = (false, loosePage) := by
  have hwf : loosePage.WellFormed := by decide +kernel
  have hplace : loosePage.InTree 2 := .inr ⟨0, by decide +kernel⟩
  have hnews : ∀ i ∈ [7, 5], loosePage.Detached i :=
    List.forall_mem_cons.mpr ⟨⟨by decide, rfl⟩, List.forall_mem_singleton.mpr ⟨by decide, rfl⟩⟩
  obtain ⟨hdone, hreplaced, hwf'⟩ :=
    (replaceNode_wellFormed hwf hplace (by decide) hnews).1 0 rfl
  exact ⟨hwf, hplace, hnews, rfl, hdone, hreplaced, hwf', rfl,
    (replaceNode_wellFormed hwf (.inl rfl) (by decide) hnews).2 rfl⟩

/-! ## Making nodes -/

/-- A new node without children changes nobody's children. -/
theorem children_add {x : HostNode} (hx : x.children = []) (q : NodeId) :
    (h.add x).2.children q = h.children q := by
  rcases Nat.lt_trichotomy q h.nodes.size with hlt | rfl | hgt
  · exact congrArg HostNode.children (((Extends.refl h).add x).node q hlt)
  · rw [children, children, node_add_self, node_of_size_le (Nat.le_refl _), hx]
  · rw [children, children, node_of_size_le (Nat.le_of_lt hgt),
      node_of_size_le (by rw [size_add]; exact hgt)]

theorem loadNode_parent (parent : Option NodeId) (h : Host) (n : Node) :
    ((loadNode parent h n).2.node h.nodes.size).parent = parent := by
  cases n with
  | element tag attrs contents children =>
    have hextends := (loadNodes_extends (some h.nodes.size)
      (h.add { kind := .element tag attrs, parent }).2 children).1
    have hkept := hextends.node h.nodes.size (by rw [size_add]; exact Nat.lt_succ_self _)
    rw [loadNode, read_setChildren HostNode.parent fun _ _ => rfl]
    exact congrArg HostNode.parent (hkept.trans (node_add_self _))
  | _ => exact congrArg HostNode.parent (node_add_self _)

/-- The new nodes in a row have the parent that they were made for. -/
theorem loadNodes_parent (parent : Option NodeId) (h : Host) (ns : List Node) :
    ∀ i ∈ (loadNodes parent h ns).1, ((loadNodes parent h ns).2.node i).parent = parent := by
  induction ns generalizing h with
  | nil => exact fun i hi => by cases hi
  | cons n rest ih =>
    intro i hi
    rcases List.mem_cons.mp hi with rfl | hi
    · obtain ⟨hnumber, hsize⟩ := loadNode_numbers parent h n
      have hextends := (loadNodes_extends parent (loadNode parent h n).2 rest).1
      have hlt : h.nodes.size < (loadNode parent h n).2.nodes.size := by
        have hpos := n.count_pos
        omega
      show ((loadNodes parent (loadNode parent h n).2 rest).2.node _).parent = parent
      rw [hnumber, hextends.node _ hlt, loadNode_parent]
    · exact ih _ i hi

theorem loadNodes_nodup (parent : Option NodeId) (h : Host) (ns : List Node) :
    (loadNodes parent h ns).1.Nodup := by
  rw [(loadNodes_numbers parent h ns).1]
  exact nodup_rootsFrom _ _

namespace WellFormed

theorem add (hwf : h.WellFormed) {x : HostNode} (hx : x.children = []) :
    (h.add x).2.WellFormed where
  once q := by
    rw [children_add hx]
    exact hwf.once q
  parent q i hi := by
    rw [children_add hx] at hi
    exact ((Extends.refl h).add x).parent? (hwf.parent q i hi) (lt_size_of_mem_children hi)

/-- Listing nodes that have the parent already. -/
theorem setChildren (hwf : h.WellFormed) (hp : p < h.nodes.size) {cs : List NodeId}
    (honce : cs.Nodup) (hcs : ∀ i ∈ cs, h.parent? i = some p) : (h.setChildren p cs).WellFormed := by
  have hparent : ∀ i, (h.setChildren p cs).parent? i = h.parent? i := fun i =>
    parent?_congr (read_setChildren HostNode.parent (fun _ _ => rfl) h p cs i)
      (read_setChildren HostNode.alive (fun _ _ => rfl) h p cs)
  have hself : (h.setChildren p cs).children p = cs := by
    rw [children, Host.setChildren, node_update_self hp]
  have hother : ∀ q, q ≠ p → (h.setChildren p cs).children q = h.children q := fun q hne =>
    congrArg HostNode.children (node_update_of_ne hne)
  refine ⟨fun q => ?_, fun q i hi => ?_⟩
  · by_cases hq : q = p
    · rw [hq, hself]
      exact honce
    · rw [hother q hq]
      exact hwf.once q
  · rw [hparent]
    by_cases hq : q = p
    · rw [hq] at hi ⊢
      exact hcs i (hself ▸ hi)
    · exact hwf.parent q i (hother q hq ▸ hi)

/-- A new node and the nodes that are made below it, which it lists in the end. -/
theorem listed_loadNodes {x : HostNode} (halive : x.alive = true) {ns : List Node}
    (hwf : (loadNodes (some h.nodes.size) (h.add x).2 ns).2.WellFormed) :
    ((loadNodes (some h.nodes.size) (h.add x).2 ns).2.setChildren h.nodes.size
      (loadNodes (some h.nodes.size) (h.add x).2 ns).1).WellFormed := by
  have hextends := (loadNodes_extends (some h.nodes.size) (h.add x).2 ns).1
  have hnew : h.nodes.size < (h.add x).2.nodes.size := size_add x ▸ Nat.lt_succ_self _
  refine hwf.setChildren (Nat.lt_of_lt_of_le hnew hextends.size) (loadNodes_nodup _ _ ns) ?_
  intro i hi
  rw [parent?, loadNodes_parent _ _ ns i hi, Option.filter_eq_some_iff, hextends.node _ hnew,
    node_add_self]
  exact ⟨rfl, halive⟩

end WellFormed

mutual

/-- **Reading a tree** leaves a well-formed host. -/
theorem loadNode_wellFormed (parent : Option NodeId) {h : Host} (hwf : h.WellFormed) :
    ∀ n : Node, (loadNode parent h n).2.WellFormed
  | .doctype _ => hwf.add rfl
  | .text _ => hwf.add rfl
  | .comment _ => hwf.add rfl
  | .element _ _ _ children =>
    WellFormed.listed_loadNodes rfl (loadNodes_wellFormed (some h.nodes.size) (hwf.add rfl) children)

theorem loadNodes_wellFormed (parent : Option NodeId) {h : Host} (hwf : h.WellFormed) :
    ∀ ns : List Node, (loadNodes parent h ns).2.WellFormed
  | [] => hwf
  | n :: rest => loadNodes_wellFormed parent (loadNode_wellFormed parent hwf n) rest

end

/-- So does reading a page. -/
theorem loadDocument_wellFormed (hwf : h.WellFormed) (html : String) :
    (h.loadDocument html).2.WellFormed := by
  rw [loadDocument]
  generalize Document.parse html = d
  exact WellFormed.listed_loadNodes rfl (loadNodes_wellFormed _ (hwf.add rfl) d.nodes)

/-- The nodes that are read from the body of a document have no parent. -/
theorem loadBody_detached (h : Host) (d : Document) :
    ∀ i ∈ (h.loadBody d).1, (h.loadBody d).2.Detached i := by
  intro i hi
  refine ⟨?_, ?_⟩
  · obtain ⟨hids, hsize⟩ := loadNodes_numbers none h d.body
    rw [loadBody, hids] at hi
    rw [loadBody, hsize]
    exact lt_of_mem_rootsFrom hi
  · rw [parent?, loadBody, loadNodes_parent none h d.body i hi]
    rfl

/-- **Reading markup and putting it in the place of a node**, if that has one. -/
theorem loadBody_replaceNode_wellFormed (hwf : h.WellFormed) (old : NodeId) (d : Document) :
    ((h.loadBody d).2.replaceNode old (h.loadBody d).1).2.WellFormed := by
  have hwf' : (h.loadBody d).2.WellFormed := loadNodes_wellFormed none hwf d.body
  by_cases hlisted : ∃ p, old ∈ (h.loadBody d).2.children p
  · obtain ⟨p, hin⟩ := hlisted
    exact (replaced_replaceNode (hwf'.parent p old hin) hin (loadBody_detached h d)).wellFormed hwf'
      (loadNodes_nodup none h d.body) fun i hi => (loadBody_detached h d i hi).parent
  · rw [replaceNode_of_not_listed (not_exists.mp hlisted)]
    exact hwf'

end Host

end Componentry
