import Componentry.Proofs.Engine.Frame

/-!
# The tree of instances

An instance has a parent, or it is a root. If it is not abstract, it is among the children of its
parent. Its parent need not be the instance below which it was made, its creator: instances that are
not abstract pass over abstract ones.

- `World.Line`: an instance with its ancestors, up to the topmost one.
- `World.shelter`: the first instance of a line that is not abstract, or the topmost one.
- `World.Tree`: **the instances make up a tree**, in which each has the place that is due to it.
- `World.firstConcrete_of_line`: the search for a parent finds the shelter of the line.
- `World.Tree.of_kin`, `World.Tree.wired`: what the tree survives, and how an instance joins it.
-/

namespace Componentry

variable {w w' : World} {b c p vm : InstanceId} {l : List InstanceId}

/-! ## Instances and their ancestors -/

/-- What an instance says of its place among the others. The creator is the instance below which it
was made. -/
structure Kin where
  selfRef : Option InstanceId := none
  parent : Option InstanceId := none
  root : Option InstanceId := none
  children : List InstanceId := []
  creator : Option InstanceId := none
  isAbstract : Bool := false

def Instance.kin (i : Instance) : Kin where
  selfRef := i.selfRef
  parent := i.parent
  root := i.root
  children := i.children
  creator := i.options.parent
  isAbstract := i.options.isAbstract

/-- Whether its initialization is past finding the options. -/
def Instance.isPlaced (i : Instance) : Bool :=
  match i.phase with
  | .allocated | .identified => false
  | _ => true

namespace World

def kin (w : World) (b : InstanceId) : Kin := (w.instances.getD b default).kin

/-- Whether there is such an instance, still. -/
def isAlive (w : World) (b : InstanceId) : Bool :=
  (w.instances.getD b { (default : Instance) with alive := false }).alive

theorem isAlive_eq (w : World) (b : InstanceId) :
    w.isAlive b = (decide (b < w.instances.size) && (w.instances.getD b default).alive) := by
  by_cases hlt : b < w.instances.size
  · simp [isAlive, Array.getD, hlt]
  · simp [isAlive, Array.getD, hlt]

theorem isAlive_modify {f : Instance → Instance} (hf : ∀ i, (f i).alive = i.alive) (w : World)
    (vm b : InstanceId) :
    isAlive { w with instances := w.instances.modify vm f } b = w.isAlive b := by
  have halive : ((w.instances.modify vm f).getD b default).alive =
      (w.instances.getD b default).alive :=
    forall_getD_modify (P := fun i i' => i'.alive = i.alive) (fun _ => rfl) (hf _) b
  rw [isAlive_eq, isAlive_eq, Array.size_modify, halive]

def isPlaced (w : World) (b : InstanceId) : Bool := (w.instances.getD b default).isPlaced

/-- The root that an instance names: the one that it was given, or else itself, if it is still
there. -/
def rootOf (w : World) (b : InstanceId) : Option InstanceId :=
  ((w.kin b).root <|> (w.kin b).selfRef).filter w.isAlive

/-- An instance with its ancestors, up to the topmost one. -/
inductive Line (w : World) : InstanceId → List InstanceId → Prop
  | top {b : InstanceId} (h : (w.kin b).parent = none) : Line w b [b]
  | up {b p : InstanceId} {l : List InstanceId} (h : (w.kin b).parent = some p)
      (above : Line w p l) : Line w b (b :: l)

/-- The first instance of a line that is not abstract, or the topmost one if all are. -/
def shelter (w : World) (l : List InstanceId) : Option InstanceId :=
  (l.find? fun a => !(w.kin a).isAbstract).or l.getLast?

/-- **The instances make up a tree.** -/
structure Tree (w : World) : Prop where
  /-- Parents are older, so that nobody is above itself. -/
  older {b p : InstanceId} : (w.kin b).parent = some p → p < b
  creator {b c : InstanceId} : (w.kin b).creator = some c → c < b
  /-- An instance is among the children of its parent, once, unless it is abstract. It is not among
  those of any other. -/
  listed (p b : InstanceId) : (w.kin p).children.count b =
    if (w.kin b).isAbstract = false ∧ (w.kin b).parent = some p then 1 else 0
  root (b : InstanceId) : (w.kin b).root = (w.kin b).parent.map fun p => (w.kin p).root.getD p
  named {b : InstanceId} : b < w.instances.size → w.isPlaced b → (w.kin b).selfRef = some b
  /-- Below a creator whose ancestors are all there, an abstract instance has the creator for a
  parent, and one that is not finds the shelter of the creator's line. -/
  placed {b c : InstanceId} {l : List InstanceId} : (w.kin b).creator = some c → w.Line c l →
    (∀ a ∈ l, w.isAlive a) →
      (w.kin b).parent = if (w.kin b).isAbstract then some c else w.shelter l
  free {b : InstanceId} : (w.kin b).creator = none → (w.kin b).parent = none

/-! ## Lines -/

namespace Line

theorem mem_self (h : w.Line b l) : b ∈ l := by
  cases h with
  | top _ => exact List.mem_singleton.mpr rfl
  | up _ _ => exact List.mem_cons_self

theorem ne_nil (h : w.Line b l) : l ≠ [] := List.ne_nil_of_mem h.mem_self

/-- An instance has one line. -/
theorem unique {l' : List InstanceId} (h : w.Line b l) (h' : w.Line b l') : l = l' := by
  induction h generalizing l' with
  | top h =>
    cases h' with
    | top _ => rfl
    | up h' _ => cases h.symm.trans h'
  | up h _ ih =>
    cases h' with
    | top h' => cases h'.symm.trans h
    | up h' above =>
      cases h.symm.trans h'
      rw [ih above]

/-- Only the parents of those in the line matter. -/
theorem congr (h : w.Line b l) (hparent : ∀ a ∈ l, (w'.kin a).parent = (w.kin a).parent) :
    w'.Line b l := by
  induction h with
  | top h => exact .top ((hparent _ (List.mem_singleton.mpr rfl)).trans h)
  | up h _ ih =>
    rw [List.forall_mem_cons] at hparent
    exact .up (hparent.1.trans h) (ih hparent.2)

section

variable (older : ∀ {b p : InstanceId}, (w.kin b).parent = some p → p < b)
include older

/-- Ancestors are older. -/
theorem le (h : w.Line b l) : ∀ a ∈ l, a ≤ b := by
  induction h with
  | top _ =>
    intro a ha
    exact Nat.le_of_eq (List.mem_singleton.mp ha)
  | up h _ ih =>
    rw [List.forall_mem_cons]
    exact ⟨Nat.le_refl _, fun a ha => Nat.le_trans (ih a ha) (Nat.le_of_lt (older h))⟩

theorem length_le (h : w.Line b l) : l.length ≤ b + 1 := by
  induction h with
  | top _ => exact Nat.succ_le_succ (Nat.zero_le _)
  | up h _ ih => exact Nat.succ_le_succ (Nat.le_trans ih (older h))

/-- Following parents comes to an end. -/
theorem exists_of_older (b : InstanceId) : ∃ l, w.Line b l := by
  induction b using Nat.strongRecOn with
  | ind b ih =>
    cases hparent : (w.kin b).parent with
    | none => exact ⟨[b], .top hparent⟩
    | some p =>
      obtain ⟨l, hl⟩ := ih p (older hparent)
      exact ⟨b :: l, .up hparent hl⟩

end

end Line

theorem shelter_congr (h : ∀ a ∈ l, (w'.kin a).isAbstract = (w.kin a).isAbstract) :
    w'.shelter l = w.shelter l := by
  have hfind : ∀ l : List InstanceId, (∀ a ∈ l, (w'.kin a).isAbstract = (w.kin a).isAbstract) →
      (l.find? fun a => !(w'.kin a).isAbstract) = l.find? fun a => !(w.kin a).isAbstract := by
    intro l
    induction l with
    | nil => exact fun _ => rfl
    | cons a rest ih =>
      intro h
      rw [List.forall_mem_cons] at h
      rw [List.find?_cons, List.find?_cons, h.1, ih h.2]
  rw [shelter, hfind l h, shelter]

/-! ## Finding a parent -/

/-- An abstract instance can be looked up. -/
theorem getElem?_of_isAbstract (h : (w.kin c).isAbstract = true) :
    w.instances[c]? = some (w.instances.getD c default) := by
  by_cases hlt : c < w.instances.size
  · rw [Array.getElem?_eq_getElem hlt, getD_of_getElem? (Array.getElem?_eq_getElem hlt)]
  · rw [kin, getD_of_size_le (Nat.le_of_not_lt hlt)] at h
    cases h

/-- The search ends with an instance that is not abstract. -/
theorem firstConcrete_of_concrete (habstract : (w.kin c).isAbstract = false) (fuel : Nat) :
    Eng.firstConcrete w fuel c = c := by
  cases fuel with
  | zero => rfl
  | succ fuel =>
    rw [Eng.firstConcrete]
    cases hi : w.instances[c]? with
    | none => rfl
    | some i =>
      rw [kin, getD_of_getElem? hi] at habstract
      simp only [show i.options.isAbstract = false from habstract, Bool.false_eq_true, if_false]

/-- It passes over an abstract one, if the parent is there. -/
theorem firstConcrete_of_abstract (habstract : (w.kin c).isAbstract = true) (fuel : Nat) :
    Eng.firstConcrete w (fuel + 1) c =
      match (w.kin c).parent with
      | none => c
      | some p => if w.isAlive p then Eng.firstConcrete w fuel p else c := by
  rw [Eng.firstConcrete, getElem?_of_isAbstract habstract]
  dsimp only
  rw [if_pos (show (w.instances.getD c default).options.isAbstract = true from habstract)]
  rfl

/-- **The search for a parent** finds the shelter of a line. -/
theorem firstConcrete_of_line (h : w.Line c l) (halive : ∀ a ∈ l, w.isAlive a) {fuel : Nat}
    (hfuel : l.length ≤ fuel) : some (Eng.firstConcrete w fuel c) = w.shelter l := by
  induction h generalizing fuel with
  | @top c hparent =>
    obtain ⟨fuel, rfl⟩ : ∃ n, fuel = n + 1 := Nat.exists_eq_add_of_le' hfuel
    have hshelter : w.shelter [c] = some c := by
      simp only [shelter, List.find?_singleton, List.getLast?_singleton]
      split <;> rfl
    rw [hshelter]
    cases habstract : (w.kin c).isAbstract with
    | false => rw [firstConcrete_of_concrete habstract]
    | true => rw [firstConcrete_of_abstract habstract, hparent]
  | @up c p l hparent hl ih =>
    obtain ⟨fuel, rfl⟩ : ∃ n, fuel = n + 1 :=
      Nat.exists_eq_add_of_le' (Nat.le_trans (Nat.le_add_left 1 l.length) hfuel)
    rw [List.forall_mem_cons] at halive
    cases habstract : (w.kin c).isAbstract with
    | false =>
      rw [firstConcrete_of_concrete habstract, shelter, List.find?_cons, habstract]
      rfl
    | true =>
      have hp : w.isAlive p = true := halive.2 p hl.mem_self
      rw [firstConcrete_of_abstract habstract, hparent]
      simp only [hp, if_true]
      rw [ih halive.2 (Nat.le_of_succ_le_succ hfuel), shelter, shelter, List.find?_cons, habstract,
        List.getLast?_cons]
      cases hlast : l.getLast? with
      | none => exact absurd (List.getLast?_eq_none_iff.mp hlast) hl.ne_nil
      | some a => rfl

/-- What the search finds is not younger than where it begins. -/
theorem firstConcrete_le (older : ∀ {b p : InstanceId}, (w.kin b).parent = some p → p < b)
    (fuel : Nat) (c : InstanceId) : Eng.firstConcrete w fuel c ≤ c := by
  induction fuel generalizing c with
  | zero => exact Nat.le_refl _
  | succ fuel ih =>
    cases habstract : (w.kin c).isAbstract with
    | false => exact Nat.le_of_eq (firstConcrete_of_concrete habstract _)
    | true =>
      rw [firstConcrete_of_abstract habstract]
      cases hparent : (w.kin c).parent with
      | none => exact Nat.le_refl _
      | some p =>
        dsimp only
        by_cases hp : w.isAlive p
        · rw [if_pos hp]
          exact Nat.le_trans (ih p) (Nat.le_of_lt (older hparent))
        · exact Nat.le_of_eq (if_neg hp)

/-- Whoever has a creator is there. -/
theorem lt_size_of_creator (h : (w.kin b).creator = some c) : b < w.instances.size := by
  refine Nat.lt_of_not_le fun hle => ?_
  rw [kin, getD_of_size_le hle] at h
  cases h

theorem lt_size_of_parent (h : (w.kin b).parent = some p) : b < w.instances.size := by
  refine Nat.lt_of_not_le fun hle => ?_
  rw [kin, getD_of_size_le hle] at h
  cases h

/-! ## What the tree survives -/

namespace Tree

/-- Whatever leaves the places of instances alone, if nobody comes back. -/
theorem of_kin (h : w.Tree) (hkin : ∀ b, w'.kin b = w.kin b)
    (halive : ∀ b < w.instances.size, w'.isAlive b → w.isAlive b)
    (hnamed : ∀ b < w'.instances.size, w'.isPlaced b → (w.kin b).selfRef = some b) : w'.Tree where
  older hp := h.older (hkin _ ▸ hp)
  creator hc := h.creator (hkin _ ▸ hc)
  listed p b := by
    rw [hkin, hkin]
    exact h.listed p b
  root b := by
    rw [hkin, h.root b]
    cases (w.kin b).parent with
    | none => rfl
    | some p => rw [Option.map_some, Option.map_some, hkin]
  named hlt hplaced := (congrArg Kin.selfRef (hkin _)).trans (hnamed _ hlt hplaced)
  placed {b c l} hc hl hall := by
    rw [hkin] at hc
    have hline : w.Line c l := hl.congr fun a _ => by rw [hkin]
    have hlt : ∀ a ∈ l, a < w.instances.size := fun a ha =>
      Nat.lt_trans (Nat.lt_of_le_of_lt (hline.le h.older a ha) (h.creator hc))
        (lt_size_of_creator hc)
    have hshelter : w'.shelter l = w.shelter l := shelter_congr fun a _ => by rw [hkin]
    rw [hkin, hshelter]
    exact h.placed hc hline fun a ha => halive a (hlt a ha) (hall a ha)
  free hc := by
    rw [hkin] at hc ⊢
    exact h.free hc

/-- The root that is noted for an instance is the end of its line. -/
theorem getLast?_line (h : w.Tree) (hl : w.Line b l) :
    l.getLast? = some ((w.kin b).root.getD b) := by
  induction hl with
  | top hparent => rw [h.root, hparent, List.getLast?_singleton, Option.map_none, Option.getD_none]
  | @up b p l hparent hl ih =>
    rw [h.root, hparent, List.getLast?_cons, ih]
    rfl

/-- **The root** that an instance names is the end of its line, if all in the line are there. -/
theorem rootOf_eq (h : w.Tree) (hlt : b < w.instances.size) (hplaced : w.isPlaced b)
    (hl : w.Line b l) (halive : ∀ a ∈ l, w.isAlive a) : w.rootOf b = l.getLast? := by
  have hlast := h.getLast?_line hl
  have hnamed : ((w.kin b).root <|> (w.kin b).selfRef) = some ((w.kin b).root.getD b) := by
    rw [h.named hlt hplaced]
    cases (w.kin b).root <;> rfl
  rw [rootOf, hnamed, hlast, Option.filter_some, if_pos]
  exact halive _ (List.mem_of_getLast? hlast)

end Tree

/-! ## Joining the tree -/

/-- Between the two the instance `vm` was put below `parent`, and among the children of `parent` if
it is not abstract. -/
structure Wired (vm : InstanceId) (parent creator : Option InstanceId) (isAbstract : Bool)
    (w w' : World) : Prop where
  size : w'.instances.size = w.instances.size
  alive (b : InstanceId) : w'.isAlive b = w.isAlive b
  placed (b : InstanceId) : b ≠ vm → w'.isPlaced b → w.isPlaced b
  own : w'.kin vm =
    { selfRef := some vm
      parent
      root := parent.map fun p => (w.kin p).root.getD p
      creator
      isAbstract }
  others (b : InstanceId) : b ≠ vm → w'.kin b =
    { w.kin b with children := (w.kin b).children ++
        if isAbstract = false ∧ parent = some b then [vm] else [] }

/-- Nobody is below the last one. -/
theorem Tree.parent_ne_last (h : w.Tree) (hlast : vm + 1 = w.instances.size) :
    (w.kin b).parent ≠ some vm := fun hb =>
  Nat.not_lt_of_le (hlast ▸ h.older hb : w.instances.size ≤ b) (lt_size_of_parent hb)

section

variable {parent creator : Option InstanceId} {isAbstract : Bool}

namespace Wired

theorem parent_eq (hw : Wired vm parent creator isAbstract w w') (hb : b ≠ vm) :
    (w'.kin b).parent = (w.kin b).parent := by rw [hw.others b hb]

theorem isAbstract_eq (hw : Wired vm parent creator isAbstract w w') (hb : b ≠ vm) :
    (w'.kin b).isAbstract = (w.kin b).isAbstract := by rw [hw.others b hb]

variable (h : w.Tree) (hw : Wired vm parent creator isAbstract w w')
  (holder : ∀ p, parent = some p → p < vm)
include h hw holder

theorem older (hb : (w'.kin b).parent = some p) : p < b := by
  by_cases hvm : b = vm
  · subst hvm
    rw [hw.own] at hb
    exact holder p hb
  · exact h.older (hw.parent_eq hvm ▸ hb)

/-- The lines of those that are older are as they were, and so are their shelters. -/
theorem line (hc : c < vm) (hl : w'.Line c l) : w.Line c l ∧ w'.shelter l = w.shelter l := by
  have hne : ∀ a ∈ l, a ≠ vm := fun a ha =>
    Nat.ne_of_lt (Nat.lt_of_le_of_lt (hl.le (hw.older h holder) a ha) hc)
  exact ⟨hl.congr fun a ha => (hw.parent_eq (hne a ha)).symm,
    shelter_congr fun a ha => hw.isAbstract_eq (hne a ha)⟩

/-- The last one has no children yet, and is among those of the parent that it was given. -/
theorem listed (hlast : vm + 1 = w.instances.size) (hblank : w.kin vm = {}) (p b : InstanceId) :
    (w'.kin p).children.count b =
      if (w'.kin b).isAbstract = false ∧ (w'.kin b).parent = some p then 1 else 0 := by
  by_cases hp : p = vm
  · subst hp
    have hnot : (w'.kin b).parent ≠ some p := by
      intro hb
      have hne : b ≠ p := fun h' => Nat.ne_of_lt (hw.older h holder hb) h'.symm
      exact h.parent_ne_last hlast (hw.parent_eq hne ▸ hb)
    rw [hw.own, if_neg fun hb => hnot hb.2]
    rfl
  rw [hw.others p hp, List.count_append, h.listed p b]
  by_cases hb : b = vm
  · subst hb
    rw [hblank, hw.own, if_neg nofun, Nat.zero_add]
    by_cases hadopted : isAbstract = false ∧ parent = some p
    · rw [if_pos hadopted, if_pos hadopted, List.count_singleton_self]
    · rw [if_neg hadopted, if_neg hadopted, List.count_nil]
  · have hother : (if isAbstract = false ∧ parent = some p then [vm] else []).count b = 0 := by
      rw [List.count_eq_zero]
      split
      · exact fun hmem => hb (List.mem_singleton.mp hmem)
      · exact List.not_mem_nil
    rw [hother, hw.isAbstract_eq hb, hw.parent_eq hb, Nat.add_zero]

theorem root_eq (hlast : vm + 1 = w.instances.size) (b : InstanceId) :
    (w'.kin b).root = (w'.kin b).parent.map fun p => (w'.kin p).root.getD p := by
  by_cases hb : b = vm
  · subst hb
    rw [hw.own]
    cases hp : parent with
    | none => rfl
    | some p => rw [Option.map_some, Option.map_some, hw.others p (Nat.ne_of_lt (holder p hp))]
  · rw [hw.others b hb, h.root b]
    cases hp : (w.kin b).parent with
    | none => rfl
    | some p =>
      have hne : p ≠ vm := fun hvm => h.parent_ne_last hlast (hvm ▸ hp)
      rw [Option.map_some, Option.map_some, hw.others p hne]

end Wired

/-- **Who joins the tree** as the last one, in the place that is due to it, is in the tree. -/
theorem Tree.wired (h : w.Tree) (hlast : vm + 1 = w.instances.size) (hblank : w.kin vm = {})
    (hw : Wired vm parent creator isAbstract w w') (holder : ∀ p, parent = some p → p < vm)
    (hcreator : ∀ c, creator = some c → c < vm) (hfree : creator = none → parent = none)
    (hplaced : ∀ c l, creator = some c → w.Line c l → (∀ a ∈ l, w.isAlive a) →
      parent = if isAbstract then some c else w.shelter l) : w'.Tree := by
  refine ⟨hw.older h holder, ?creator, hw.listed h holder hlast hblank, hw.root_eq h holder hlast,
    ?named, ?placed, ?free⟩
  case creator =>
    intro b c hb
    by_cases hvm : b = vm
    · subst hvm
      rw [hw.own] at hb
      exact hcreator c hb
    · rw [hw.others b hvm] at hb
      exact h.creator hb
  case named =>
    intro b hlt hb
    by_cases hvm : b = vm
    · rw [hvm, hw.own]
    · rw [hw.others b hvm]
      exact h.named (hw.size ▸ hlt) (hw.placed b hvm hb)
  case placed =>
    intro b c l hc hl hall
    have hall' : ∀ a ∈ l, w.isAlive a := fun a ha => hw.alive a ▸ hall a ha
    by_cases hb : b = vm
    · subst hb
      rw [hw.own] at hc ⊢
      obtain ⟨hline, hshelter⟩ := hw.line h holder (hcreator c hc) hl
      rw [hshelter]
      exact hplaced c l hc hline hall'
    · rw [hw.others b hb] at hc ⊢
      have hlt : b < vm + 1 := hlast ▸ lt_size_of_creator hc
      obtain ⟨hline, hshelter⟩ := hw.line h holder
        (Nat.lt_of_lt_of_le (h.creator hc) (Nat.le_of_lt_succ hlt)) hl
      rw [hshelter]
      exact h.placed hc hline hall'
  case free =>
    intro b hb
    by_cases hvm : b = vm
    · subst hvm
      rw [hw.own] at hb ⊢
      exact hfree hb
    · rw [hw.others b hvm] at hb ⊢
      exact h.free hb

end

/-- Between the two everybody but `vm` keeps its place. -/
structure Apart (vm : InstanceId) (w w' : World) : Prop where
  size : w'.instances.size = w.instances.size
  alive (b : InstanceId) : w'.isAlive b = w.isAlive b
  placed (b : InstanceId) : b ≠ vm → w'.isPlaced b → w.isPlaced b
  others (b : InstanceId) : b ≠ vm → w'.kin b = w.kin b

theorem Apart.trans {w'' : World} (h : Apart vm w w') (h' : Apart vm w' w'') : Apart vm w w'' where
  size := h'.size.trans h.size
  alive b := (h'.alive b).trans (h.alive b)
  placed b hb hplaced := h.placed b hb (h'.placed b hb hplaced)
  others b hb := (h'.others b hb).trans (h.others b hb)

theorem Apart.modify (w : World) {f : Instance → Instance} (hf : ∀ i, (f i).alive = i.alive) :
    Apart vm w { w with instances := w.instances.modify vm f } where
  size := Array.size_modify
  alive := isAlive_modify hf w vm
  placed b hb h := by rwa [isPlaced, getD_modify_of_ne hb] at h
  others b hb := by rw [kin, getD_modify_of_ne hb, kin]

/-- The instance below which `vm` is made, if it is still there. -/
def creatorOf (w : World) (vm : InstanceId) : Option InstanceId :=
  (w.kin vm).creator.filter w.isAlive

/-- Where an instance finds its place. -/
def parentFor (w : World) (vm : InstanceId) : Option InstanceId :=
  if (w.kin vm).isAbstract then w.creatorOf vm
  else (w.creatorOf vm).map (Eng.firstConcrete w (w.instances.size + 1))

section

variable {v : World} {creator : Option InstanceId} {isAbstract : Bool}

/-- What is known of the wiring of an instance is known from a time on when it was blank still. -/
theorem Wired.of_apart {parent : Option InstanceId} (h : Apart vm w v)
    (hw : Wired vm parent creator isAbstract v w') (hparent : parent ≠ some vm) :
    Wired vm parent creator isAbstract w w' where
  size := hw.size.trans h.size
  alive b := (hw.alive b).trans (h.alive b)
  placed b hb hplaced := h.placed b hb (hw.placed b hb hplaced)
  own := by
    rw [hw.own]
    cases parent with
    | none => rfl
    | some p =>
      have hp : p ≠ vm := fun hp => hparent (congrArg some hp)
      rw [Option.map_some, Option.map_some, h.others p hp]
  others b hb := by rw [hw.others b hb, h.others b hb]

/-- Parents are older still if the one that lost its place has none. -/
theorem Apart.older (hapart : Apart vm w v) (h : w.Tree) (hvm : (v.kin vm).parent = none)
    {b p : InstanceId} (hb : (v.kin b).parent = some p) : p < b := by
  by_cases hne : b = vm
  · rw [hne, hvm] at hb
    cases hb
  · exact h.older (hapart.others b hne ▸ hb)

/-- An instance that is made below an older one finds an older parent. -/
theorem parentFor_lt (older : ∀ {b p : InstanceId}, (v.kin b).parent = some p → p < b)
    (hcreator : ∀ c, (v.kin vm).creator = some c → c < vm) {p : InstanceId}
    (hp : v.parentFor vm = some p) : p < vm := by
  rw [parentFor] at hp
  cases hc : v.creatorOf vm with
  | none =>
    rw [hc, Option.map_none, ite_self] at hp
    cases hp
  | some c =>
    have hlt : c < vm := hcreator c (Option.filter_eq_some_iff.mp hc).1
    rw [hc] at hp
    cases habstract : (v.kin vm).isAbstract with
    | true =>
      rw [habstract, if_pos rfl] at hp
      cases hp
      exact hlt
    | false =>
      rw [habstract, if_neg Bool.false_ne_true] at hp
      cases hp
      exact Nat.lt_of_le_of_lt (firstConcrete_le older _ c) hlt

/-- It finds what the tree asks for, if all above its creator are there. -/
theorem parentFor_of_line (older : ∀ {b p : InstanceId}, (v.kin b).parent = some p → p < b)
    (hc : (v.kin vm).creator = some c) (hlt : c < v.instances.size) (hl : v.Line c l)
    (halive : ∀ a ∈ l, v.isAlive a) :
    v.parentFor vm = if (v.kin vm).isAbstract then some c else v.shelter l := by
  have hcreator : v.creatorOf vm = some c := by
    rw [creatorOf, hc, Option.filter_some, if_pos (halive c hl.mem_self)]
  have hfuel : l.length ≤ v.instances.size + 1 :=
    Nat.le_trans (hl.length_le older) (Nat.succ_le_succ (Nat.le_of_lt hlt))
  rw [parentFor, hcreator, Option.map_some, firstConcrete_of_line hl halive hfuel]

/-- **The place that is due**: an instance that was blank and finds its parent is in the tree. -/
theorem Tree.wired_parentFor (h : w.Tree) (hlast : vm + 1 = w.instances.size)
    (hblank : w.kin vm = {}) (hapart : Apart vm w v)
    (hown : v.kin vm = { selfRef := some vm, creator, isAbstract })
    (hcreator : ∀ c, creator = some c → c < vm)
    (hw : Wired vm (v.parentFor vm) creator isAbstract v w') : w'.Tree := by
  have hlt : vm < v.instances.size := by
    rw [hapart.size, ← hlast]
    exact Nat.lt_succ_self vm
  have older : ∀ {b p}, (v.kin b).parent = some p → p < b :=
    hapart.older h (congrArg Kin.parent hown)
  have holder : ∀ p, v.parentFor vm = some p → p < vm := fun p =>
    parentFor_lt older fun c hc => hcreator c (by rwa [hown] at hc)
  have hparent : v.parentFor vm ≠ some vm := fun hp => Nat.lt_irrefl _ (holder vm hp)
  refine h.wired hlast hblank (hw.of_apart hapart hparent) holder hcreator ?free ?placed
  case free =>
    intro hnone
    rw [parentFor, creatorOf, hown, hnone]
    cases isAbstract <;> rfl
  case placed =>
    intro c l hc hl halive
    have hne : ∀ a ∈ l, a ≠ vm := fun a ha =>
      Nat.ne_of_lt (Nat.lt_of_le_of_lt (hl.le h.older a ha) (hcreator c hc))
    have hline : v.Line c l := hl.congr fun a ha => by rw [hapart.others a (hne a ha)]
    have hshelter : v.shelter l = w.shelter l := shelter_congr fun a ha => by
      rw [hapart.others a (hne a ha)]
    rw [parentFor_of_line older (by rw [hown]; exact hc) (Nat.lt_trans (hcreator c hc) hlt) hline
      fun a ha => hapart.alive a ▸ halive a ha, hown, hshelter]

end

end World

end Componentry
