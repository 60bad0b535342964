import Componentry.Proofs.Host.Trees

/-!
# In the place of a node

Markup that is put in the place of a node takes that node out of its parent and nothing else: what
stood before it and behind it still does, and the new nodes are between, in the order in which they
were read.

- `Host.spliced_eq`: what the children of the parent are then.
- `Host.Spliced`: new nodes in the place of another.
- `Host.spliced_loadBody`: **reading markup and putting it in the place of a node**.
- `Host.trees_loadBody`: what the new nodes show.
-/

namespace Componentry

open Markup

namespace Host

variable {β : Type} {h h' : Host} {i old p : NodeId} {news : List NodeId}

/-! ## One step at a time -/

/-- What is said of a node that is not said of its parent. -/
theorem read_setParent (read : HostNode → β) (hread : ∀ x q, read { x with parent := q } = read x)
    (h : Host) (j : NodeId) (q : Option NodeId) (i : NodeId) :
    read ((h.setParent j q).node i) = read (h.node i) := read_update (fun x => hread x q) i

theorem read_setParents (read : HostNode → β) (hread : ∀ x q, read { x with parent := q } = read x)
    (h : Host) (is : List NodeId) (q : Option NodeId) (i : NodeId) :
    read ((is.foldl (fun h i => h.setParent i q) h).node i) = read (h.node i) := by
  induction is generalizing h with
  | nil => rfl
  | cons j rest ih => rw [List.foldl_cons, ih, read_setParent read hread]

/-- What is said of a node that is not said of its children. -/
theorem read_setChildren (read : HostNode → β)
    (hread : ∀ x cs, read { x with children := cs } = read x) (h : Host) (j : NodeId)
    (cs : List NodeId) (i : NodeId) :
    read ((h.setChildren j cs).node i) = read (h.node i) := read_update (fun x => hread x cs) i

theorem look_setParent (h : Host) (j : NodeId) (q : Option NodeId) :
    (h.setParent j q).look = h.look :=
  funext fun i => read_setParent (fun x => (x.kind.bare, x.children)) (fun _ _ => rfl) h j q i

theorem size_setParents (is : List NodeId) (q : Option NodeId) :
    (is.foldl (fun h i => h.setParent i q) h).nodes.size = h.nodes.size := by
  induction is generalizing h with
  | nil => rfl
  | cons j rest ih => rw [List.foldl_cons, ih, setParent, update, Array.size_modify]

theorem node_setParents_of_not_mem {is : List NodeId} (q : Option NodeId) (hi : i ∉ is) :
    (is.foldl (fun h i => h.setParent i q) h).node i = h.node i := by
  induction is generalizing h with
  | nil => rfl
  | cons j rest ih =>
    obtain ⟨hne, hrest⟩ := not_or.mp (mt List.mem_cons.mpr hi)
    rw [List.foldl_cons, ih hrest, setParent, node_update_of_ne hne]

theorem parent_setParents {is : List NodeId} (q : Option NodeId) (hi : i ∈ is)
    (hlt : i < h.nodes.size) :
    ((is.foldl (fun h i => h.setParent i q) h).node i).parent = q := by
  induction is generalizing h with
  | nil => cases hi
  | cons j rest ih =>
    rw [List.foldl_cons]
    by_cases hrest : i ∈ rest
    · exact ih hrest (by rw [setParent, update, Array.size_modify]; exact hlt)
    · obtain rfl := (List.mem_cons.mp hi).resolve_right hrest
      rw [node_setParents_of_not_mem q hrest, setParent, node_update_self hlt]

/-- What is put in the place of a node stands between what was before it and what was behind it. -/
theorem spliced_eq {before after : List NodeId} (hold : old ∉ before) :
    spliced (before ++ old :: after) old news = before ++ news ++ after := by
  have hbefore : ∀ c ∈ before, (c != old) = true := fun c hc =>
    bne_iff_ne.mpr fun heq => hold (heq ▸ hc)
  rw [spliced, List.takeWhile_append_of_pos hbefore, List.dropWhile_append_of_pos hbefore,
    List.takeWhile_cons_of_neg (by simp), List.dropWhile_cons_of_neg (by simp), List.append_nil,
    List.drop_one, List.tail_cons]

/-- A node that has a parent is there. -/
theorem lt_size_of_parent (hparent : h.parent? old = some p) : old < h.nodes.size := by
  refine Nat.lt_of_not_le fun hle => ?_
  rw [parent?, node_of_size_le hle] at hparent
  cases hparent

theorem alive_of_parent (hparent : h.parent? old = some p) : (h.node p).alive = true := by
  rw [parent?, Option.filter_eq_some_iff] at hparent
  exact hparent.2

theorem Extends.parent? (hh : h.Extends h') (hparent : h.parent? old = some p)
    (hlt : p < h.nodes.size) : h'.parent? old = some p := by
  rw [Host.parent?, hh.node old (lt_size_of_parent hparent)]
  rw [Host.parent?, Option.filter_eq_some_iff] at hparent
  rw [Option.filter_eq_some_iff, hh.node p hlt]
  exact hparent

/-! ## Putting nodes in the place of a node -/

/-- The new nodes get the parent of the old one, the parent gets them, and the old one is left
without a parent. -/
theorem replaceNode_eq (hparent : h.parent? old = some p) (hin : old ∈ h.children p) :
    (h.replaceNode old news).2 =
      ((news.foldl (fun h i => h.setParent i (some p)) h).setChildren p
        (spliced (h.children p) old news)).setParent old none := by
  have hchildren : (news.foldl (fun h i => h.setParent i (some p)) h).children p = h.children p :=
    read_setParents HostNode.children (fun _ _ => rfl) _ _ _ p
  rw [replaceNode, hparent]
  dsimp only
  rw [if_pos (List.contains_iff_mem.mpr hin), hchildren]

section

variable (hparent : h.parent? old = some p) (hin : old ∈ h.children p)
include hparent hin

/-- What is put in the place of a node changes what is known of the parent, and of no other node. -/
theorem look_replaceNode (hne : i ≠ p) : (h.replaceNode old news).2.look i = h.look i := by
  rw [replaceNode_eq hparent hin, look_setParent, look_setChildren_of_ne hne]
  exact read_setParents (fun x => (x.kind.bare, x.children)) (fun _ _ => rfl) _ _ _ i

theorem size_replaceNode : (h.replaceNode old news).2.nodes.size = h.nodes.size := by
  rw [replaceNode_eq hparent hin, setParent, update, Array.size_modify, setChildren, update,
    Array.size_modify, size_setParents]

theorem children_replaceNode :
    (h.replaceNode old news).2.children p = spliced (h.children p) old news := by
  have hp := lt_size_of_mem_children hin
  rw [replaceNode_eq hparent hin, children, read_setParent HostNode.children fun _ _ => rfl,
    setChildren, node_update_self (by rw [size_setParents]; exact hp)]

theorem node_replaceNode_of_ne (hne : i ≠ old) (hnep : i ≠ p) (hnot : i ∉ news) :
    (h.replaceNode old news).2.node i = h.node i := by
  rw [replaceNode_eq hparent hin, setParent, node_update_of_ne hne, setChildren,
    node_update_of_ne hnep, node_setParents_of_not_mem _ hnot]

theorem parent_replaceNode (hne : i ≠ old) (hi : i ∈ news) (hlt : i < h.nodes.size) :
    (h.replaceNode old news).2.parent? i = some p := by
  have halive : ((h.replaceNode old news).2.node p).alive = true := by
    rw [replaceNode_eq hparent hin, read_setParent HostNode.alive fun _ _ => rfl,
      read_setChildren HostNode.alive fun _ _ => rfl, read_setParents HostNode.alive fun _ _ => rfl]
    exact alive_of_parent hparent
  rw [parent?, Option.filter_eq_some_iff]
  refine ⟨?_, halive⟩
  rw [replaceNode_eq hparent hin, setParent, node_update_of_ne hne,
    read_setChildren HostNode.parent fun _ _ => rfl]
  exact parent_setParents _ hi hlt

end

/-- Between the two, new nodes were put in the place of a node, below its parent. What stood before
it and behind it still does. -/
structure Spliced (h h' : Host) (old p : NodeId) (news : List NodeId) : Prop where
  row : ∃ before after, h.children p = before ++ old :: after ∧ old ∉ before ∧
    h'.children p = before ++ news ++ after
  fresh : ∀ i ∈ news, h.nodes.size ≤ i
  attached : ∀ i ∈ news, h'.parent? i = some p
  others : ∀ i, i < h.nodes.size → i ≠ old → i ≠ p → h'.node i = h.node i

/-- **Putting new nodes in the place of a node.** -/
theorem spliced_replaceNode (hextends : h.Extends h') (hparent : h.parent? old = some p)
    (hin : old ∈ h.children p) (hfresh : ∀ i ∈ news, h.nodes.size ≤ i)
    (hthere : ∀ i ∈ news, i < h'.nodes.size) :
    h.Spliced (h'.replaceNode old news).2 old p news := by
  have hp : p < h.nodes.size := lt_size_of_mem_children hin
  have hold : old < h.nodes.size := lt_size_of_parent hparent
  have hchildren : h'.children p = h.children p := congrArg HostNode.children (hextends.node p hp)
  have hparent' : h'.parent? old = some p := hextends.parent? hparent hp
  have hin' : old ∈ h'.children p := hchildren ▸ hin
  obtain ⟨before, after, hrow, hnot⟩ := List.eq_append_cons_of_mem hin
  refine ⟨⟨before, after, hrow, hnot, ?_⟩, hfresh, fun i hi => ?_, fun i hlt hne hnep => ?_⟩
  · rw [children_replaceNode hparent' hin', hchildren, hrow, spliced_eq hnot]
  · have hne : i ≠ old := fun heq => Nat.not_lt_of_le (hfresh i hi) (heq ▸ hold)
    exact parent_replaceNode hparent' hin' hne hi (hthere i hi)
  · have hnot : i ∉ news := fun hi => Nat.not_lt_of_le (hfresh i hi) hlt
    rw [node_replaceNode_of_ne hparent' hin' hne hnep hnot, hextends.node i hlt]

/-! ## Putting markup in the place of a node -/

section

variable (hparent : h.parent? old = some p) (hin : old ∈ h.children p) (d : Document)
include hparent hin

/-- **Reading markup and putting it in the place of a node.** -/
theorem spliced_loadBody :
    h.Spliced ((h.loadBody d).2.replaceNode old (h.loadBody d).1).2 old p
      (rootsFrom h.nodes.size d.body) := by
  obtain ⟨hids, hsize⟩ := loadNodes_numbers none h d.body
  obtain ⟨hextends, hfresh⟩ := loadNodes_extends none h d.body
  rw [loadBody, hids]
  refine spliced_replaceNode hextends hparent hin (hids ▸ hfresh) fun i hi => ?_
  rw [hsize]
  exact lt_of_mem_rootsFrom hi

/-- The new nodes show what was read. -/
theorem trees_loadBody (hbare : AllBare d.body) :
    (rootsFrom h.nodes.size d.body).flatMap
      ((h.loadBody d).2.replaceNode old (h.loadBody d).1).2.trees = d.body := by
  obtain ⟨-, hsize⟩ := loadNodes_numbers none h d.body
  have hp := lt_size_of_mem_children hin
  have hextends := (loadNodes_extends none h d.body).1
  have hparent' := hextends.parent? hparent hp
  have hchildren : (loadNodes none h d.body).2.children p = h.children p :=
    congrArg HostNode.children (hextends.node p hp)
  have hin' : old ∈ (loadNodes none h d.body).2.children p := hchildren ▸ hin
  rw [loadBody]
  refine AllAt.read (readsTrees _) (AllAt.congr (fun j hle _ => ?_) (loadNodes_at none h _ hbare)) ?_
  · exact look_replaceNode hparent' hin' (Nat.ne_of_gt (Nat.lt_of_lt_of_le hp hle))
  · rw [size_replaceNode hparent' hin', hsize]
    omega

end

end Host

end Componentry
