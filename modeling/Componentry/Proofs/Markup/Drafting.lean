import Componentry.Markup.Draft
import Componentry.Proofs.Markup.Numbering

/-!
# Growing a draft

Reading the markup of a tree adds its nodes to the draft, one after the other and below one node.
The nodes that were there before stay as they are, but for the children of that one.

- `Draft.put`: a new node below another.
- `Draft.Grown`: **a draft that trees were added to**, in a row below a node.
- `Draft.Grown.element`, `Draft.Grown.text`: adding an element or a text.
- `Draft.readsTrees`: how the trees of a draft are made of its nodes.
-/

namespace Componentry.Markup.Draft

variable {d d' d'' : Draft} {p i j : Nat} {kind : DraftKind} {s s' : String}

/-! ## One node -/

theorem node_push (x : DraftNode) (j : Nat) :
    Draft.node (d.push x) j = if j = d.size then x else d.node j := by
  rw [node, node, Array.getD_eq_getD_getElem?, Array.getD_eq_getD_getElem?, Array.getElem?_push]
  split <;> rfl

theorem node_update {f : DraftNode → DraftNode} (hlt : i < d.size) (j : Nat) :
    (d.update i f).node j = if j = i then f (d.node i) else d.node j := by
  rw [update, node, node, node, Array.getD_eq_getD_getElem?, Array.getD_eq_getD_getElem?,
    Array.getD_eq_getD_getElem?, Array.getElem?_modify]
  by_cases h : j = i
  · subst h
    rw [if_pos rfl, if_pos rfl, Array.getElem?_eq_getElem hlt]
    rfl
  · rw [if_neg (Ne.symm h), if_neg h]

theorem size_update (f : DraftNode → DraftNode) : (d.update i f).size = d.size :=
  Array.size_modify

/-- A new node, as the last child of another. -/
def put (d : Draft) (p : Nat) (kind : DraftKind) : Draft := (d.add kind).1.append p d.size

theorem put_eq (d : Draft) (p : Nat) (kind : DraftKind) :
    d.put p kind = ((Draft.update (d.push ⟨kind, none, []⟩) p fun n =>
      { n with children := n.children ++ [d.size] }).update d.size fun n =>
        { n with parent := some p }) := by
  rw [put, append, add, detach]
  have hnone : (Draft.node (d.push ⟨kind, none, []⟩) d.size).parent = none := by
    rw [node_push, if_pos rfl]
  simp only [hnone]

theorem size_put : (d.put p kind).size = d.size + 1 := by
  rw [put_eq, size_update, size_update, Array.size_push]

/-- What is where after a node was added. -/
theorem node_put (hp : p < d.size) (j : Nat) :
    (d.put p kind).node j =
      if j = d.size then ⟨kind, some p, []⟩
      else if j = p then { d.node p with children := (d.node p).children ++ [d.size] }
      else d.node j := by
  have hsize : d.size < d.size + 1 := Nat.lt_succ_self _
  have hne : d.size ≠ p := Nat.ne_of_gt hp
  rw [put_eq, node_update, node_update, node_update, node_push, node_push, node_push]
  · by_cases hnew : j = d.size
    · rw [if_pos hnew, if_neg hne, if_pos rfl, if_pos hnew]
    · rw [if_neg hnew, if_neg (Ne.symm hne), if_neg hnew, if_neg hnew]
  all_goals first
    | rw [Array.size_push]; omega
    | rw [size_update, Array.size_push]; omega

/-- Whether the last child of a node is a text. -/
def endsInText (d : Draft) (p : Nat) : Bool :=
  match (d.node p).children.getLast?.map fun i => (d.node i).kind with
  | some (.text _) => true
  | _ => false

theorem extendText?_eq (d : Draft) (i : Nat) (s : String) :
    d.extendText? i s = match (d.node i).kind with
      | .text t => some (d.update i fun n => { n with kind := .text (t ++ s) })
      | _ => none := rfl

/-- Text behind anything else is a node by itself. -/
theorem appendText_of_not (h : d.endsInText p = false) :
    d.appendText p s = d.put p (.text s) := by
  have hnone : ((d.node p).children.getLast?.bind fun i => d.extendText? i s) = none := by
    rw [endsInText] at h
    cases hlast : (d.node p).children.getLast? with
    | none => rfl
    | some i =>
      rw [hlast] at h
      rw [Option.bind_some, extendText?_eq]
      simp only [Option.map_some] at h
      cases hkind : (d.node i).kind with
      | text t =>
        rw [hkind] at h
        cases h
      | _ => rfl
  rw [appendText, hnone]
  rfl

/-! ## Growing -/

/-- What is known of the nodes of a draft. A template has contents besides its children, and stands
in no tree here. -/
def look (d : Draft) : Look := fun i =>
  (match (d.node i).kind with
    | .container => none
    | .doctype name => some (.doctype name)
    | .text s => some (.text s)
    | .comment s => some (.comment s)
    | .element tag attrs none => some (.element tag attrs none [])
    | .element _ _ (some _) => none, (d.node i).children)

theorem readsTrees (d : Draft) : ReadsTrees d.look d.toNodeAt where
  leaf {depth i n} h := by
    obtain ⟨hkind, hchildren⟩ := Prod.mk.inj h
    rw [toNodeAt]
    cases hk : (d.node i).kind with
    | element tag attrs contents =>
      cases contents with
      | none =>
        rw [hk] at hkind
        cases hkind
        simp only [hchildren]
        rfl
      | some c =>
        rw [hk] at hkind
        cases hkind
    | container =>
      rw [hk] at hkind
      cases hkind
    | _ =>
      rw [hk] at hkind
      cases hkind
      rfl
  element {depth i tag attrs ids} h := by
    obtain ⟨hkind, hchildren⟩ := Prod.mk.inj h
    rw [toNodeAt]
    cases hk : (d.node i).kind with
    | element tag' attrs' contents =>
      cases contents with
      | none =>
        rw [hk] at hkind
        cases hkind
        simp only [hchildren]
        rfl
      | some c =>
        rw [hk] at hkind
        cases hkind
    | _ =>
      rw [hk] at hkind
      cases hkind

/-- **Trees were added** in a row below a node. -/
structure Grown (d d' : Draft) (p : Nat) (ns : List Node) : Prop where
  size : d'.size = d.size + countAll ns
  old : ∀ j, j < d.size → j ≠ p → d'.node j = d.node j
  under : d'.node p = { d.node p with children := (d.node p).children ++ rootsFrom d.size ns }
  row : AllAt d'.look d.size ns

namespace Grown

variable {ns ms : List Node} {tag : TagName} {attrs : List Attribute}

theorem nil (d : Draft) (p : Nat) : Grown d d p [] where
  size := rfl
  old _ _ _ := rfl
  under := by
    rw [rootsFrom, List.append_nil]
  row := by
    rw [AllAt]
    trivial

theorem look_eq (h : Grown d d' p ns) (hj : j < d.size) (hne : j ≠ p) : d'.look j = d.look j := by
  rw [look, look, h.old j hj hne]

/-- Trees in a row, and further ones behind them. -/
theorem append (h : Grown d d' p ns) (h' : Grown d' d'' p ms) (hp : p < d.size) :
    Grown d d'' p (ns ++ ms) where
  size := by rw [h'.size, h.size, countAll_append, Nat.add_assoc]
  old j hj hne := by
    rw [h'.old j (by rw [h.size]; omega) hne, h.old j hj hne]
  under := by
    rw [h'.under, h.under, rootsFrom_append, List.append_assoc, h.size]
  row := by
    refine allAt_append (AllAt.congr (fun j hle hlt => ?_) h.row) (h.size ▸ h'.row)
    exact h'.look_eq (by rw [h.size]; exact hlt) (by omega)

/-- One text. -/
theorem text (hp : p < d.size) (s : String) : Grown d (d.put p (.text s)) p [.text s] where
  size := size_put
  old j hj hne := by
    rw [node_put hp, if_neg (Nat.ne_of_lt hj), if_neg hne]
  under := by
    rw [node_put hp, if_neg (Nat.ne_of_lt hp), if_pos rfl]
    rfl
  row := by
    rw [AllAt, AllAt, Node.at_text, look, node_put hp, if_pos rfl]
    exact ⟨rfl, trivial⟩

/-- More of the text that was added last. -/
theorem more (h : Grown d d' p [.text s]) (hp : p < d.size) (s' : String) :
    Grown d (d'.appendText p s') p [.text (s ++ s')] := by
  have hsize : d'.size = d.size + 1 := h.size
  have hlt : d.size < d'.size := by omega
  obtain ⟨hkind, hchildren⟩ : (d'.node d.size).kind = .text s ∧ (d'.node d.size).children = [] := by
    have hrow := h.row
    rw [AllAt, Node.at_text, look] at hrow
    obtain ⟨hkind, hchildren⟩ := Prod.mk.inj hrow.1
    refine ⟨?_, hchildren⟩
    cases hk : (d'.node d.size).kind with
    | element tag attrs contents =>
      rw [hk] at hkind
      cases contents <;> cases hkind
    | text t =>
      rw [hk] at hkind
      cases hkind
      rfl
    | _ =>
      rw [hk] at hkind
      cases hkind
  have hlast : (d'.node p).children.getLast? = some d.size := by
    rw [h.under]
    exact List.getLast?_concat
  have hmore : d'.appendText p s' =
      d'.update d.size fun n => { n with kind := .text (s ++ s') } := by
    rw [appendText, hlast, Option.bind_some, extendText?_eq, hkind]
  rw [hmore]
  refine ⟨by rw [size_update, hsize]; rfl, fun j hj hne => ?_, ?_, ?_⟩
  · rw [node_update hlt, if_neg (Nat.ne_of_lt hj), h.old j hj hne]
  · rw [node_update hlt, if_neg (Nat.ne_of_lt hp), h.under]
    rfl
  · rw [AllAt, AllAt, Node.at_text, look, node_update hlt, if_pos rfl, hchildren]
    exact ⟨rfl, trivial⟩

/-- One element, with what was added to it. -/
theorem element (hp : p < d.size) (h : Grown (d.put p (.element tag attrs none)) d' d.size ns) :
    Grown d d' p [.element tag attrs none ns] where
  size := by
    rw [h.size, size_put, countAll, Node.count, countAll]
    omega
  old j hj hne := by
    rw [h.old j (by rw [size_put]; omega) (Nat.ne_of_lt hj), node_put hp,
      if_neg (Nat.ne_of_lt hj), if_neg hne]
  under := by
    rw [h.old p (by rw [size_put]; omega) (Nat.ne_of_lt hp), node_put hp,
      if_neg (Nat.ne_of_lt hp), if_pos rfl]
    rfl
  row := by
    have hrow := h.row
    rw [size_put] at hrow
    rw [AllAt, AllAt, Node.At, look, h.under, node_put hp, if_pos rfl, size_put]
    exact ⟨⟨rfl, rfl, hrow⟩, trivial⟩

/-- What was there keeps its kind. -/
theorem kind_eq (h : Grown d d' p ns) (hj : j < d.size) : (d'.node j).kind = (d.node j).kind := by
  by_cases hne : j = p
  · subst hne
    rw [h.under]
  · rw [h.old j hj hne]

theorem tag?_eq (h : Grown d d' p ns) (hj : j < d.size) : d'.tag? j = d.tag? j := by
  rw [tag?, tag?, h.kind_eq hj]

theorem contents?_eq (h : Grown d d' p ns) (hj : j < d.size) : d'.contents? j = d.contents? j := by
  rw [contents?, contents?, h.kind_eq hj]

/-- Behind an element there is no text. -/
theorem endsInText_element (h : Grown d d' p [.element tag attrs none ns]) :
    d'.endsInText p = false := by
  have hrow := h.row
  rw [AllAt, Node.At, look] at hrow
  obtain ⟨hkind, -⟩ := Prod.mk.inj hrow.1.2.1
  rw [endsInText, h.under, rootsFrom, rootsFrom, List.getLast?_concat, Option.map_some]
  cases hk : (d'.node d.size).kind with
  | text t =>
    rw [hk] at hkind
    cases hkind
  | _ => rfl

end Grown

end Componentry.Markup.Draft
