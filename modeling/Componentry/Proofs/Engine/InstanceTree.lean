import Componentry.Proofs.Engine.Lineage
import Componentry.Proofs.Engine.SetUpOnce

/-!
# The tree of instances grows

An instance joins the tree when it is initialized, in the place that is due to it. Nothing else
moves an instance: not author's code, not the later phases, not mounting.

- `World.Kindred`: every instance keeps its place.
- `Eng.ends_initPlace`: **the first phases** put an instance into its place.
- `Eng.ends_setUp_tree`: **an initialization** of the last instance keeps the tree a tree.
- `Eng.tends_mountAt`: **mounting**, and all that is made by it, keeps it a tree.
- `Runtime.Proper`: requests for instances below others that are there.
- `instances_make_tree`: **after any number of requests** the instances make up a tree.
-/

namespace Componentry

open Eng (Within Ends)

variable {H : Halt → Prop} {rt : Runtime} {run : Runner} {w w' : World} {vm : InstanceId}

/-! ## Keeping the place -/

namespace World

/-- Between the two every instance keeps its place, and those of `P` are not past finding their
options unless they were. -/
structure Kindred (P : InstanceId → Prop) (w w' : World) : Prop where
  size : w'.instances.size = w.instances.size
  kin (b : InstanceId) : w'.kin b = w.kin b
  alive (b : InstanceId) :
    (w'.instances.getD b default).alive = (w.instances.getD b default).alive
  placed (b : InstanceId) : P b → w'.isPlaced b → w.isPlaced b

namespace Kindred

variable {P : InstanceId → Prop} {w'' : World}

theorem of_instances (h : w'.instances = w.instances) : Kindred P w w' where
  size := congrArg Array.size h
  kin b := by rw [World.kin, h, World.kin]
  alive b := by rw [h]
  placed b _ hb := by rwa [isPlaced, h] at hb

theorem trans (h : Kindred P w w') (h' : Kindred P w' w'') : Kindred P w w'' where
  size := h'.size.trans h.size
  kin b := (h'.kin b).trans (h.kin b)
  alive b := (h'.alive b).trans (h.alive b)
  placed b hP hb := h.placed b hP (h'.placed b hP hb)

theorem modify (w : World) {f : Instance → Instance} (hkin : ∀ i, (f i).kin = i.kin)
    (halive : ∀ i, (f i).alive = i.alive) (hplaced : P vm → ∀ i, (f i).isPlaced → i.isPlaced) :
    Kindred P w { w with instances := w.instances.modify vm f } where
  size := Array.size_modify
  kin := forall_getD_modify (P := fun i i' => i'.kin = i.kin) (fun _ => rfl) (hkin _)
  alive := forall_getD_modify (P := fun i i' => i'.alive = i.alive) (fun _ => rfl) (halive _)
  placed b hP hb := by
    by_cases hvm : b = vm
    · subst hvm
      exact forall_getD_modify (P := fun i i' => i'.isPlaced → i.isPlaced) (fun _ => id)
        (hplaced hP _) b hb
    · rwa [isPlaced, getD_modify_of_ne hvm] at hb

/-- Using an instance makes no difference. -/
theorem setAccess (w : World) (vm : InstanceId) (a : Access) :
    Kindred P w (Eng.setAccess vm a w) := modify w (fun _ => rfl) (fun _ => rfl) fun _ _ => id

instance : World.Lax (Kindred P) where
  refl _ := of_instances rfl
  trans := trans
  acted h :=
    { size := h.size
      kin b := (h.instances b).read Instance.kin fun _ => rfl
      alive b := (h.instances b).read Instance.alive fun _ => rfl
      placed b _ hb := by
        have hread := (h.instances b).read Instance.isPlaced fun _ => rfl
        rwa [isPlaced, hread] at hb }
  access {w w' vm a} h := (setAccess w vm a).trans (h.trans (setAccess w' vm _))
  aside h _ _ := of_instances h

theorem set {f : Instance → Instance} (hkin : ∀ i, (f i).kin = i.kin)
    (halive : ∀ i, (f i).alive = i.alive) (hplaced : P vm → ∀ i, (f i).isPlaced → i.isPlaced) :
    Within (Kindred P) H (Eng.modifyInstance vm f) :=
  Within.modifyInstance vm fun w => modify w hkin halive hplaced

theorem record (what : Happening) : Within (Kindred P) H (Eng.record vm what) :=
  Within.modifyGet fun _ => of_instances rfl

/-- Mounting changes nothing of the place of an instance. -/
theorem showing : Eng.Showing (Kindred P) where
  own hf _ w := modify w (fun i => Instance.read_of_unshown (hf i) Instance.kin fun _ => rfl)
    (fun i => Instance.read_of_unshown (hf i) Instance.alive fun _ => rfl)
    fun _ i hi => Instance.read_of_unshown (hf i) Instance.isPlaced (fun _ => rfl) ▸ hi
  compile _ _ el := Eng.within_ensureRender el fun _ _ =>
    set (fun _ => rfl) (fun _ => rfl) fun _ _ => id
  record _ _ := of_instances rfl
  host _ _ := of_instances rfl

/-- Neither do the later phases, and only the instance enters them. -/
theorem filling : Eng.Filling (Kindred (· ≠ vm)) vm where
  own hf w := modify w (fun i => Instance.read_of_unfilled (hf i) Instance.kin fun _ => rfl)
    (fun i => Instance.read_of_unfilled (hf i) Instance.alive fun _ => rfl)
    fun h => absurd rfl h
  record _ _ := of_instances rfl

theorem isAlive (h : Kindred P w w') (b : InstanceId) : w'.isAlive b = w.isAlive b := by
  rw [isAlive_eq, isAlive_eq, h.size, h.alive]

/-- Everybody but one keeps its place. -/
theorem apart (h : Kindred (· ≠ vm) w w') : Apart vm w w' where
  size := h.size
  alive := h.isAlive
  placed := h.placed
  others b _ := h.kin b

/-- **The tree** is as it was, if those that do not count have names. -/
theorem tree (h : Kindred P w w') (htree : w.Tree)
    (hnamed : ∀ b, P b ∨ (w.kin b).selfRef = some b) : w'.Tree := by
  refine htree.of_kin h.kin (fun b _ => (h.isAlive b ▸ ·)) fun b hlt hb => ?_
  rcases hnamed b with hP | hname
  · exact htree.named (h.size ▸ hlt) (h.placed b hP hb)
  · exact hname

end Kindred

end World

/-! ## Joining the tree -/

/-- The world in which `p` has one more child. -/
def World.adopted (w : World) (p vm : InstanceId) : World :=
  { w with instances := w.instances.modify p fun j => { j with children := j.children ++ [vm] } }

theorem World.kin_adopted {p b : InstanceId} (hp : p < w.instances.size) :
    (w.adopted p vm).kin b = { w.kin b with
      children := (w.kin b).children ++ if p = b then [vm] else [] } := by
  by_cases hb : p = b
  · subst hb
    rw [kin, adopted, getD_modify hp, if_pos rfl]
    rfl
  · rw [kin, adopted, getD_modify_of_ne (Ne.symm hb), if_neg hb, List.append_nil]
    rfl

/-- Between the two the instance joined the tree, and nobody came or went. -/
structure World.Joined (vm : InstanceId) (w w' : World) : Prop where
  tree : w'.Tree
  size : w'.instances.size = w.instances.size
  alive (b : InstanceId) : w'.isAlive b = w.isAlive b
  named : (w'.kin vm).selfRef = some vm

/-- It stays there. -/
theorem World.Joined.later {w'' : World} (h : w.Joined vm w') (hk : Kindred (· ≠ vm) w' w'') :
    w.Joined vm w'' where
  tree := hk.tree h.tree fun b => by
    by_cases hb : b = vm
    · exact .inr (hb ▸ h.named)
    · exact .inl hb
  size := hk.size.trans h.size
  alive b := (hk.isAlive b).trans (h.alive b)
  named := (congrArg Kin.selfRef (hk.kin vm)).trans h.named

namespace Eng

/-- Noting its place for an instance, once it is among the children of its parent. -/
theorem wired_of_adopted {v : World} {parent root : Option InstanceId} (hlt : vm < w.instances.size)
    (hname : (w.kin vm).selfRef = some vm) (hsize : v.instances.size = w.instances.size)
    (halive : ∀ b, v.isAlive b = w.isAlive b) (hplaced : ∀ b, v.isPlaced b = w.isPlaced b)
    (hkin : ∀ b, v.kin b = { w.kin b with children := (w.kin b).children ++
      if (w.kin vm).isAbstract = false ∧ parent = some b then [vm] else [] })
    (hroot : root = parent.map fun p => (w.kin p).root.getD p) :
    World.Wired vm parent (w.kin vm).creator (w.kin vm).isAbstract w
      { v with instances := v.instances.modify vm ({ · with
        parent, root, children := [], isMounted := false, isDestroyed := false }) } := by
  refine ⟨Array.size_modify.trans hsize, ?alive, ?placed, ?own, ?others⟩
  case alive =>
    intro b
    refine (World.isAlive_modify ?_ v vm b).trans (halive b)
    exact fun _ => rfl
  case placed =>
    intro b hb hplaced'
    rw [World.isPlaced, getD_modify_of_ne hb] at hplaced'
    exact hplaced b ▸ hplaced'
  case own =>
    have hself := hkin vm
    rw [World.kin, getD_modify (hsize ▸ hlt)]
    simp only [Instance.kin, World.kin, Kin.mk.injEq] at hself hname ⊢
    exact ⟨hself.1.trans hname, trivial, hroot, trivial, hself.2.2.2.2.1, hself.2.2.2.2.2⟩
  case others =>
    intro b hb
    rw [World.kin, getD_modify_of_ne hb]
    exact hkin b

/-- The instance finds its place, and that of nobody else changes. -/
theorem ends_initLifecycle (hlt : vm < w.instances.size)
    (hname : (w.kin vm).selfRef = some vm)
    (hparent : ∀ p, w.parentFor vm = some p → p < w.instances.size) :
    Ends (initLifecycle vm) w fun r w' => r = .ok () ∧
      World.Wired vm (w.parentFor vm) (w.kin vm).creator (w.kin vm).isAbstract w w' := by
  rw [initLifecycle]
  refine Ends.next (a := w.instances.getD vm default) (v := w) rfl ?_
  refine Ends.next (a := w.creatorOf vm) (v := w) rfl ?_
  refine Ends.next (a := w) (v := w) rfl ?_
  generalize hp : (if (w.instances.getD vm default).options.isAbstract then w.creatorOf vm
    else (w.creatorOf vm).map (firstConcrete w (w.instances.size + 1))) = parent
  obtain rfl : w.parentFor vm = parent := hp
  revert hparent
  cases w.parentFor vm with
  | none =>
    intro _
    refine ⟨rfl, wired_of_adopted hlt hname rfl (fun _ => rfl) (fun _ => rfl) (fun b => ?_) rfl⟩
    rw [if_neg fun h => nomatch h.2]
    simp only [List.append_nil]
  | some p =>
    intro hparent
    have hp := hparent p rfl
    dsimp only
    cases habstract : (w.instances.getD vm default).options.isAbstract with
    | true =>
      refine ⟨rfl, wired_of_adopted hlt hname rfl (fun _ => rfl) (fun _ => rfl) (fun b => ?_) rfl⟩
      rw [if_neg fun h => nomatch h.1.symm.trans habstract]
      simp only [List.append_nil]
    | false =>
      have hroot : ((w.adopted p vm).instances.getD p default).root = (w.kin p).root :=
        congrArg Kin.root (World.kin_adopted (b := p) hp)
      refine ⟨rfl, wired_of_adopted (v := w.adopted p vm) hlt hname Array.size_modify
        (fun b => ?alive) (fun b => ?placed) (fun b => ?kin) ?root⟩
      case alive =>
        refine World.isAlive_modify ?_ w p b
        exact fun _ => rfl
      case placed =>
        exact forall_getD_modify (P := fun i i' => i'.isPlaced = i.isPlaced) (fun _ => rfl) rfl b
      case kin =>
        have hconcrete : (w.kin vm).isAbstract = false := habstract
        rw [World.kin_adopted hp]
        simp only [hconcrete, true_and, Option.some.injEq]
      case root => exact congrArg (fun r : Option InstanceId => some (r.getD p)) hroot

/-- **The first phases** of the last instance, which has its options and nothing else, put it into
the tree. -/
theorem ends_initPlace {u : World} {creator : Option InstanceId} {isAbstract : Bool}
    (htree : u.Tree) (hlast : vm + 1 = u.instances.size) (hblank : u.kin vm = {})
    (hapart : u.Apart vm w) (hown : w.kin vm = { creator, isAbstract })
    (hcreator : ∀ c, creator = some c → c < vm) :
    Ends (initPlace rt vm) w fun r w' => r = .ok () ∧ u.Joined vm w' := by
  have hadvance : ∀ phase, Within (World.Kindred (· ≠ vm)) Halt.Endless (advance vm phase) :=
    World.Kindred.filling.advance fun _ _ => rfl
  have hset : ∀ {f : Instance → Instance}, (∀ i, (f i).kin = i.kin) →
      (∀ i, (f i).alive = i.alive) →
        Within (World.Kindred (· ≠ vm)) Halt.Endless (modifyInstance vm f) := fun hkin halive =>
    World.Kindred.set hkin halive fun h => absurd rfl h
  have hsize : ∀ {v}, u.Apart vm v → vm < v.instances.size := by
    intro v h
    rw [h.size, ← hlast]
    exact Nat.lt_succ_self vm
  refine Ends.step (hadvance _) rfl fun w₁ h₁ => ?_
  refine Ends.step (hset (fun _ => rfl) fun _ => rfl) rfl fun w₂ h₂ => ?_
  refine Ends.step (hadvance _) rfl fun w₃ h₃ => ?_
  have hbefore := (h₁.trans h₂).trans h₃
  have h₃ : u.Apart vm w₃ := hapart.trans hbefore.apart
  -- it gets its name
  let w₄ : World := { w₃ with instances := w₃.instances.modify vm ({ · with selfRef := some vm }) }
  have h₄ : u.Apart vm w₄ := h₃.trans (.modify w₃ fun _ => rfl)
  have hown₄ : w₄.kin vm = { selfRef := some vm, creator, isAbstract } := by
    rw [World.kin, getD_modify (hsize h₃)]
    show { w₃.kin vm with selfRef := some vm } = _
    rw [hbefore.kin, hown]
  refine Ends.next (a := ()) (v := w₄) rfl ?_
  refine Ends.step (hadvance _) rfl fun w₅ h₅ => ?_
  have hown₅ := (h₅.kin vm).trans hown₄
  have h₅ : u.Apart vm w₅ := h₄.trans h₅.apart
  -- then its parent
  have hlifecycle : Ends (initLifecycle vm) w₅ fun r w₆ => r = .ok () ∧ u.Joined vm w₆ := by
    have holder : ∀ p, w₅.parentFor vm = some p → p < vm := fun p =>
      World.parentFor_lt (h₅.older htree (congrArg Kin.parent hown₅))
        fun c hc => hcreator c (by rwa [hown₅] at hc)
    refine (ends_initLifecycle (hsize h₅) (congrArg Kin.selfRef hown₅) fun p hp =>
      Nat.lt_trans (holder p hp) (hsize h₅)).imp fun r w₆ h => ?_
    obtain ⟨hr, hwired⟩ := h
    rw [hown₅] at hwired
    exact ⟨hr, htree.wired_parentFor hlast hblank h₅ hown₅ hcreator hwired,
      hwired.size.trans h₅.size, fun b => (hwired.alive b).trans (h₅.alive b),
      congrArg Kin.selfRef hwired.own⟩
  refine Ends.bind hlifecycle (fun _ w₆ h => ?_) fun e w₆ h => by cases h.1
  have hjoined := h.2
  refine Ends.step (hadvance _) rfl fun w₇ h₇ => ?_
  refine Ends.step (hset (fun _ => rfl) fun _ => rfl) rfl fun w₈ h₈ => ?_
  refine Ends.step (hadvance _) rfl fun w₉ h₉ => ?_
  refine Ends.step (hset (fun _ => rfl) fun _ => rfl) rfl fun w₁₀ h₁₀ => ?_
  have hok : Ends (advance vm .renderWired) w₁₀ fun r _ => r = .ok () := rfl
  refine (hok.and (Ends.of_within (hadvance _) w₁₀)).imp fun r w' h₁₁ => ⟨h₁₁.1, ?_⟩
  exact hjoined.later ((((h₇.trans h₈).trans h₉).trans h₁₀).trans h₁₁.2.1)

end Eng

/-! ## Making instances -/

/-- The instance below which one is made. -/
def Origin.creator : Origin → Option InstanceId
  | .root _ => none
  | .child parent _ _ _ => some parent

/-- The options of an instance name its creator. -/
theorem Eng.parent_of_optionsFor {c : ClassId} {origin : Origin} {f : Forest} {o : InstanceOptions}
    (h : ((optionsFor rt c origin).exec f).1 = .ok o) : o.parent = origin.creator := by
  cases origin with
  | child parent p render statics =>
    obtain rfl := Except.ok.inj h
    cases render <;> rfl
  | root definition =>
    rw [optionsFor, Forging.exec_bind] at h
    generalize (mergedOptions rt c definition).exec f = out at h
    obtain ⟨r, f'⟩ := out
    cases r with
    | ok m =>
      obtain rfl := Except.ok.inj h
      rfl
    | error e => cases h

/-- Everybody is there, still. -/
def World.Whole (w : World) : Prop := ∀ b < w.instances.size, w.isAlive b

/-- Between the two the tree may have grown. If `stay` holds nobody was let go of. -/
structure World.Outgrows (stay : Prop) (w w' : World) : Prop where
  tree : w'.Tree
  size : w.instances.size ≤ w'.instances.size
  whole : stay → w.Whole → w'.Whole

namespace World

variable {stay : Prop}

theorem Outgrows.trans {w'' : World} (h : Outgrows stay w w') (h' : Outgrows stay w' w'') :
    Outgrows stay w w'' where
  tree := h'.tree
  size := Nat.le_trans h.size h'.size
  whole hs hw := h'.whole hs (h.whole hs hw)

theorem Outgrows.of_true (h : Outgrows True w w') : Outgrows stay w w' :=
  ⟨h.tree, h.size, fun _ => h.whole trivial⟩

theorem Joined.outgrows (h : w.Joined vm w') : Outgrows stay w w' where
  tree := h.tree
  size := Nat.le_of_eq h.size.symm
  whole _ hw b hb := (h.alive b).trans (hw b (h.size ▸ hb))

theorem Kindred.outgrows (h : Kindred (fun _ => True) w w') (htree : w.Tree) :
    Outgrows stay w w' where
  tree := h.tree htree fun _ => .inl trivial
  size := Nat.le_of_eq h.size.symm
  whole _ hw b hb := (h.isAlive b).trans (hw b (h.size ▸ hb))

/-- The tree may have grown in between, if there was the instance to begin with. -/
def Tends (vm : InstanceId) (w w' : World) : Prop :=
  vm < w.instances.size → w.Tree → Outgrows True w w'

theorem Kindred.tends (h : Kindred (fun _ => True) w w') : Tends vm w w' := fun _ htree =>
  h.outgrows htree

instance : World.Lax (Tends vm) where
  refl w := (Kindred.of_instances rfl).tends
  trans h h' hlt htree := by
    have hfirst := h hlt htree
    exact hfirst.trans (h' (Nat.lt_of_lt_of_le hlt hfirst.size) hfirst.tree)
  acted h := (World.Tolerant.acted h : Kindred (fun _ => True) _ _).tends
  access {w w' b a} h hlt htree := by
    have huse : Outgrows True w (Eng.setAccess b a w) := (Kindred.setAccess w b a).outgrows htree
    have hused := huse.trans (h (Nat.lt_of_lt_of_le hlt huse.size) huse.tree)
    exact hused.trans ((Kindred.setAccess w' b _).outgrows hused.tree)
  aside h _ _ := (Kindred.of_instances h).tends

theorem Tends.showing : Eng.Showing (Tends vm) where
  own hf b w := (Kindred.showing.own hf b w).tends
  compile rt b el := (Kindred.showing.compile rt b el).mono fun _ _ => Kindred.tends
  record ho w := (Kindred.showing.record ho w).tends
  host w host := (Kindred.showing.host w host).tends

/-- A blank instance is a root without children. -/
theorem Tree.push (h : w.Tree) (c : ClassId) :
    Outgrows stay w { w with instances := w.instances.push { ctor := c } } := by
  let v : World := { w with instances := w.instances.push { ctor := c } }
  have hsize : v.instances.size = w.instances.size + 1 := Array.size_push _
  have hnew : v.instances.getD w.instances.size default = { ctor := c } := getD_push_size _ _
  have hold : ∀ b, b ≠ w.instances.size →
      v.instances.getD b default = w.instances.getD b default := fun b hb => getD_push_of_ne hb
  have hcases : ∀ b < v.instances.size, b ≠ w.instances.size → b < w.instances.size := by
    intro b hb hne
    rw [hsize] at hb
    exact Nat.lt_of_le_of_ne (Nat.le_of_lt_succ hb) hne
  have halive : ∀ b < w.instances.size, v.isAlive b = w.isAlive b := by
    intro b hb
    rw [isAlive_eq, isAlive_eq, hold b (Nat.ne_of_lt hb), hsize, decide_eq_true hb,
      decide_eq_true (Nat.lt_succ_of_lt hb)]
  refine ⟨h.of_kin (fun b => ?kin) (fun b hb => (halive b hb ▸ ·)) fun b hb hplaced => ?named,
    hsize ▸ Nat.le_succ _, fun _ hw b hb => ?whole⟩
  case kin =>
    by_cases hb : b = w.instances.size
    · rw [hb, kin, kin, hnew, getD_of_size_le (Nat.le_refl _)]
      rfl
    · rw [kin, kin, hold b hb]
  case named =>
    by_cases hne : b = w.instances.size
    · rw [hne, isPlaced, hnew] at hplaced
      cases hplaced
    · rw [isPlaced, hold b hne] at hplaced
      exact h.named (hcases b hb hne) hplaced
  case whole =>
    by_cases hne : b = w.instances.size
    · rw [hne, isAlive_eq, hnew, hsize, decide_eq_true (Nat.lt_succ_self _)]
      rfl
    · rw [halive b (hcases b hb hne)]
      exact hw b (hcases b hb hne)

end World

namespace Eng

variable {mount : Mounting} {c : ClassId}

/-- Finding its options moves nobody but the instance, which has a creator then. -/
theorem ends_initOptions_tree (origin : Origin) (hlt : vm < w.instances.size) :
    Ends (initOptions rt vm origin) (w.begun vm) fun r w₁ =>
      (∃ isAbstract, r = .ok () ∧ w.Apart vm w₁ ∧
        w₁.kin vm = { w.kin vm with creator := origin.creator, isAbstract }) ∨
      ∃ e, r = .error e ∧ World.Kindred (fun _ => True) w w₁ := by
  have hbegun : World.Kindred (fun _ => True) w (w.begun vm) := by
    refine World.begun_of_within (fun _ => ?number) (within_advance (World.Kindred.record _) ?_) w
    case number => exact World.Kindred.set (fun _ => rfl) (fun _ => rfl) fun _ _ => id
    exact World.Kindred.set (fun _ => rfl) (fun _ => rfl) fun _ _ => nofun
  refine (ends_initOptions_for origin).imp fun r w₁ h => ?_
  rcases h with ⟨o, hoptions, hr, hinstances⟩ | ⟨e, -, hr, hinstances⟩
  · let v : World := { w.begun vm with
      instances := (w.begun vm).instances.modify vm ({ · with options := o }) }
    have hv : World.Kindred (· ≠ vm) v w₁ := .of_instances hinstances
    have hapart : w.Apart vm v :=
      (World.Kindred.apart ⟨hbegun.size, hbegun.kin, hbegun.alive, fun b _ =>
        hbegun.placed b trivial⟩).trans (.modify (w.begun vm) fun _ => rfl)
    refine .inl ⟨o.isAbstract, hr, hapart.trans hv.apart, ?_⟩
    rw [hv.kin, World.kin, getD_modify (hbegun.size ▸ hlt), ← parent_of_optionsFor hoptions,
      ← hbegun.kin]
    rfl
  · exact .inr ⟨_, hr, hbegun.trans (.of_instances hinstances)⟩

/-- **An initialization** of the last instance, which is blank, keeps the tree a tree, whether it
succeeds or not. -/
theorem ends_setUp_tree (hrun : ∀ vm args s, Acts (run vm args s))
    (hmount : ∀ v target hydrating,
      Within (World.Tends v) (fun _ => True) (mount v target hydrating))
    (htree : w.Tree) (hlast : vm + 1 = w.instances.size)
    (hblank : w.instances[vm]? = some { ctor := c }) (origin : Origin)
    (hcreator : ∀ p, origin.creator = some p → p < vm) :
    Ends (setUp rt run mount vm origin) w fun _ w' => World.Outgrows True w w' := by
  have hlt : vm < w.instances.size := hlast ▸ Nat.lt_succ_self vm
  have hkin : w.kin vm = {} := by
    rw [World.kin, getD_of_getElem? hblank]
    rfl
  refine Ends.setUp (Q := fun _ w₂ => w.Joined vm w₂) hblank (ends_initOptions_tree origin hlt)
    ?unresolved ?phases ?endless ?mounted
  case unresolved =>
    rintro e w₁ (⟨_, hr, _⟩ | ⟨_, _, hkindred⟩)
    · cases hr
    · exact hkindred.outgrows htree
  case phases =>
    rintro w₁ (⟨isAbstract, -, hapart, hown⟩ | ⟨_, hr, _⟩)
    · rw [hkin] at hown
      refine Ends.bind (ends_initPlace htree hlast hkin hapart hown hcreator)
        (fun _ w₂ hplaced => ?_) fun e w₂ h => by cases h.1
      refine (Ends.of_within (within_initOwn World.Kindred.filling (Within.run hrun)) w₂).imp ?_
      exact fun _ w₃ h => hplaced.2.later h.1
    · cases hr
  case endless => exact fun _ w₂ h => h.outgrows
  case mounted =>
    intro w₂ ready hjoined hinstances _ _
    have hready : w.Joined vm ready := hjoined.later (.of_instances hinstances)
    rw [mountNamed]
    cases (ready.optionsOf vm).field (·.el) with
    | none => exact hready.outgrows
    | some el =>
      refine hready.outgrows.trans ((hmount vm (some el) false ready).1 ?_ hready.tree)
      exact hready.size ▸ hlt

/-- Making an instance below one that is there. -/
theorem ends_make_tree (hrun : ∀ vm args s, Acts (run vm args s))
    (hmount : ∀ v target hydrating,
      Within (World.Tends v) (fun _ => True) (mount v target hydrating))
    (htree : w.Tree) (c : ClassId) (origin : Origin)
    (hcreator : ∀ p, origin.creator = some p → p < w.instances.size) :
    Ends (make rt run mount c origin) w fun r w' =>
      World.Outgrows True w w' ∧ ∀ b, r = .ok b → b < w'.instances.size := by
  let v : World := { w with instances := w.instances.push { ctor := c } }
  have hsize : v.instances.size = w.instances.size + 1 := Array.size_push _
  have hpush : World.Outgrows True w v := htree.push c
  have hsetUp : Ends (setUp rt run mount w.instances.size origin) v fun _ w' =>
      World.Outgrows True v w' :=
    ends_setUp_tree hrun hmount hpush.tree hsize.symm Array.getElem?_push_size origin hcreator
  refine Ends.make hsetUp (fun w' h => ⟨hpush.trans h, fun b hb => ?_⟩) fun e w' h =>
    ⟨hpush.trans h, nofun⟩
  cases hb
  exact Nat.lt_of_lt_of_le (hsize ▸ Nat.lt_succ_self _) h.size

/-- Making a child. -/
theorem ends_createChild_tree (hrun : ∀ vm args s, Acts (run vm args s))
    (hmount : ∀ v target hydrating,
      Within (World.Tends v) (fun _ => True) (mount v target hydrating))
    (htree : w.Tree) {parent : InstanceId} (hlt : parent < w.instances.size) (p : Placeholder) :
    Ends (createChild rt run mount parent p) w fun r w' =>
      World.Outgrows True w w' ∧ ∀ b, r = .ok b → b < w'.instances.size := by
  have hresolve : Within (World.Kindred fun _ => True) (fun _ => True)
      (forging (Classes.resolve rt.config p.ctor)) := Within.forging (fun _ => trivial) _
  refine Ends.after hresolve (fun _ w₁ h₁ => ?_) fun e w₁ h₁ _ => ⟨h₁.outgrows htree, nofun⟩
  have hfirst : World.Outgrows True w w₁ := h₁.outgrows htree
  refine (ends_make_tree hrun hmount hfirst.tree p.ctor _ fun c hc => ?_).imp fun r w' ⟨h, hb⟩ =>
    ⟨hfirst.trans h, hb⟩
  cases hc
  exact Nat.lt_of_lt_of_le hlt hfirst.size

/-- A placeholder of an instance that is there. -/
theorem tends_expandPlaceholder (hrun : ∀ vm args s, Acts (run vm args s))
    (hmount : ∀ v target hydrating,
      Within (World.Tends v) (fun _ => True) (mount v target hydrating)) (p : Placeholder) :
    Within (World.Tends vm) (fun _ => True) (expandPlaceholder rt run mount vm p) := by
  intro w
  refine ⟨fun hlt htree => ?_, fun _ _ => trivial⟩
  show Ends (expandPlaceholder rt run mount vm p) w fun _ w' => World.Outgrows True w w'
  refine Ends.bind (ends_createChild_tree hrun hmount htree hlt p)
    (fun child w₁ ⟨h₁, hchild⟩ => ?_) fun e w₁ ⟨h₁, _⟩ => h₁
  have hrest : Within (World.Tends child) (fun _ => True) (do
      mount child none false
      let i ← getInstance child
      modifyInstance child ({ · with pendingMounted := [] })
      return (i.vnode.getD .empty, i.pendingMounted ++ [child])) :=
    (hmount child none false).bind fun _ => (Within.getInstance child).bind fun _ =>
      Within.bind (World.Tends.showing.set fun _ => rfl) fun _ => Within.pure _
  exact h₁.trans ((hrest w₁).1 (hchild child rfl) h₁.tree)

/-- **Mounting** an instance that is there keeps the tree a tree, with all the children that it
makes on the way. -/
theorem tends_mountAt (hrun : ∀ vm args s, Acts (run vm args s)) (fuel : Nat) (vm : InstanceId)
    (target : Option MountTarget) (hydrating : Bool) :
    Within (World.Tends vm) (fun _ => True) (mountAt rt run fuel vm target hydrating) := by
  induction fuel generalizing vm target hydrating with
  | zero => exact Within.throw trivial
  | succ fuel ih =>
    have hscripts : ∀ b args s, Within (World.Tends vm) (fun _ => True) (run b args s) :=
      fun b args s => (Within.run hrun b args s).anyHalt
    refine within_mountWith target hydrating fun el => ?_
    exact within_mountOn (World.Tends.showing.compile rt vm el)
      (within_patchMount World.Tends.showing hscripts trivial vm
        (tends_expandPlaceholder hrun ih) el hydrating)

end Eng

/-! ## Any number of requests -/

/-- A request that does not initialize an instance by itself, and that is for instances that are
there. -/
def Request.Proper (w : World) (q : Request) : Prop :=
  match q.core with
  | .setUp .. => False
  | .createChild creator _ => creator < w.instances.size
  | .mount vm .. => vm < w.instances.size
  | _ => True

/-- Each of the requests is proper when its turn comes. -/
def Runtime.Proper (rt : Runtime) : List Request → World → Prop
  | [], _ => True
  | q :: qs, w => q.Proper w ∧ rt.Proper qs ((q.perform rt).run.run w).2

/-- Letting go of instances moves nobody. -/
theorem World.Faded.tree (h : w.Faded w') (htree : w.Tree) : w'.Tree := by
  have hplaced : ∀ b, w'.isPlaced b = w.isPlaced b := h.read Instance.isPlaced fun _ => rfl
  refine htree.of_kin (h.read Instance.kin fun _ => rfl) (fun b _ hb => ?_) fun b hlt hb => ?_
  · rw [World.isAlive_eq, Bool.and_eq_true] at hb ⊢
    exact ⟨h.size ▸ hb.1, h.alive hb.2⟩
  · exact htree.named (h.size ▸ hlt) (hplaced b ▸ hb)

/-- **A proper request** leaves a tree, and nobody is let go of unless it asks for that. -/
theorem Request.ends_tree (rt : Runtime) (q : Request) (hq : q.Proper w) (htree : w.Tree) :
    Ends (q.perform rt) w fun _ w' =>
      World.Outgrows (∀ roots, q.core ≠ .release roots) w w' := by
  have hmount : ∀ v target hydrating,
      Within (World.Tends v) (fun _ => True) (rt.mount v target hydrating) :=
    Eng.tends_mountAt rt.acts_run rt.fuel
  induction q generalizing w with
  | classes f =>
    have hkeeps : Within (World.Kindred fun _ => True) (fun _ => True) (Eng.forging f) :=
      Within.forging (fun _ => trivial) f
    exact (hkeeps w).1.outgrows htree
  | allocate c => exact htree.push c
  | setUp vm origin => exact hq.elim
  | create c definition =>
    exact Ends.bind (Eng.ends_make_tree rt.acts_run hmount htree c (.root definition) nofun)
      (fun _ _ h => h.1.of_true) fun _ _ h => h.1.of_true
  | createChild creator p =>
    exact Ends.bind (Eng.ends_createChild_tree rt.acts_run hmount htree hq p)
      (fun _ _ h => h.1.of_true) fun _ _ h => h.1.of_true
  | mount vm target hydrating => exact ((hmount vm target hydrating w).1 hq htree).of_true
  | act vm args s =>
    have hkeeps : Within (World.Kindred fun _ => True) (fun _ => True)
        ((Request.act vm args s).perform rt) :=
      (rt.within_run vm args s).bind fun _ => Within.pure ()
    exact (hkeeps w).1.outgrows htree
  | release roots =>
    have hfaded := w.faded_release roots
    exact ⟨hfaded.tree htree, Nat.le_of_eq hfaded.size.symm, fun h => absurd rfl (h roots)⟩
  | inUse b a q ih =>
    have huse : World.Kindred (fun _ => True) w (Eng.setAccess b a w) := .setAccess w b a
    have hq' : q.Proper (Eng.setAccess b a w) := by
      rw [Request.Proper, huse.size]
      exact hq
    have hused := (huse.outgrows htree).trans (ih hq' (huse.tree htree fun _ => .inl trivial))
    exact hused.trans ((World.Kindred.setAccess _ b _).outgrows hused.tree)

namespace Runtime

variable {qs : List Request}

/-- **Any number of proper requests**, one after the other. -/
theorem Proper.outgrows (hqs : rt.Proper qs w) (htree : w.Tree) :
    World.Outgrows (∀ q ∈ qs, ∀ roots, q.core ≠ .release roots) w (rt.after qs w) := by
  induction qs generalizing w with
  | nil => exact (World.Kindred.of_instances rfl).outgrows htree
  | cons q rest ih =>
    obtain ⟨hq, hrest⟩ := hqs
    have hfirst := Request.ends_tree rt q hq htree
    have hafter := ih hrest hfirst.tree
    refine ⟨hafter.tree, Nat.le_trans hfirst.size hafter.size, fun hstay hwhole => ?_⟩
    rw [List.forall_mem_cons] at hstay
    exact hafter.whole hstay.2 (hfirst.whole hstay.1 hwhole)

/-- No proper request initializes an instance by itself. -/
theorem Proper.core_ne (hqs : rt.Proper qs w) :
    ∀ q ∈ qs, ∀ vm origin, q.core ≠ .setUp vm origin := by
  induction qs generalizing w with
  | nil => nofun
  | cons q rest ih =>
    obtain ⟨hq, hrest⟩ := hqs
    rw [List.forall_mem_cons]
    refine ⟨fun vm origin h => ?_, ih hrest⟩
    rw [Request.Proper, h] at hq
    exact hq

theorem Proper.append {qs' : List Request} (hqs : rt.Proper (qs ++ qs') w) :
    rt.Proper qs' (rt.after qs w) := by
  induction qs generalizing w with
  | nil => exact hqs
  | cons q rest ih => exact ih hqs.2

end Runtime

/-! ## Who made whom -/

/-- The request makes an instance, below `creator` if it names one. -/
def Request.Makes (creator : Option InstanceId) (q : Request) : Prop :=
  match q.core with
  | .create .. => creator = none
  | .createChild c _ => creator = some c
  | _ => False

/-- One of the requests made the instance, below `creator` if it named one. -/
def Runtime.Made (rt : Runtime) (w : World) (qs : List Request) (creator : Option InstanceId)
    (b : InstanceId) : Prop :=
  ∃ before q after, qs = before ++ q :: after ∧ q.Makes creator ∧
    ((q.perform rt).run.run (rt.after before w)).1 = .ok () ∧
    b = (rt.after before w).instances.size

/-- Making an instance: it is created then, and its options name its creator. -/
theorem Eng.ends_make_stage (rt : Runtime) (w : World) (c : ClassId) (origin : Origin) :
    Ends (make rt rt.run rt.mount c origin) w fun r w' => ∀ b, r = .ok b → b = w.instances.size ∧
      (w'.progress b).phase = .created ∧ (w'.progress b).options.parent = origin.creator := by
  let v : World := { w with instances := w.instances.push { ctor := c } }
  have hlt : w.instances.size < v.instances.size := by
    rw [show v.instances.size = w.instances.size + 1 from Array.size_push _]
    exact Nat.lt_succ_self _
  have hphase : (v.progress w.instances.size).phase = .allocated := by
    rw [World.progress, getD_push_size]
    rfl
  refine Ends.make (Eng.ends_setUp_call rt origin hlt) (fun w' h b hb => ?_) fun _ _ _ _ hb => by cases hb
  cases hb
  cases h with
  | idle _ late => exact absurd hphase (late rfl)
  | created _ options rests =>
    have hparent := parent_of_optionsFor options
    exact ⟨rfl, rests.phase, rests.options.parent.trans hparent⟩

/-- A request that makes an instance. -/
theorem Request.ends_made {creator : Option InstanceId} (q : Request) (hq : q.Makes creator) :
    Ends (q.perform rt) w fun r w' => r = .ok () →
      (w'.progress w.instances.size).phase = .created ∧
      (w'.progress w.instances.size).options.parent = creator := by
  induction q generalizing w with
  | create c definition =>
    obtain rfl : creator = none := hq
    refine Ends.bind (Eng.ends_make_stage rt w c (.root definition)) (fun b w' h _ => ?_)
      fun _ _ _ => nofun
    obtain ⟨rfl, hstage⟩ := h b rfl
    exact hstage
  | createChild parent p =>
    obtain rfl : creator = some parent := hq
    have hresolve : Within (World.Kindred fun _ => True) (fun _ => True)
        (Eng.forging (Classes.resolve rt.config p.ctor)) := Within.forging (fun _ => trivial) _
    have hchild : Ends (Eng.createChild rt rt.run rt.mount parent p) w fun r w' =>
        ∀ b, r = .ok b → b = w.instances.size ∧ (w'.progress b).phase = .created ∧
          (w'.progress b).options.parent = some parent := by
      refine Ends.after hresolve (fun _ w₁ h₁ => ?_) fun _ _ _ _ => nofun
      rw [← h₁.size]
      exact Eng.ends_make_stage rt w₁ p.ctor (.child parent p none [])
    refine Ends.bind hchild (fun b w' h _ => ?_) fun _ _ _ => nofun
    obtain ⟨rfl, hstage⟩ := h b rfl
    exact hstage
  | inUse b a q ih =>
    intro hok
    have hsize : (Eng.setAccess b a w).instances.size = w.instances.size := Array.size_modify
    have hused := ih (w := Eng.setAccess b a w) hq hok
    rwa [hsize, ← World.progress_setAccess b (w.instances.getD b default).access] at hused
  | _ => exact hq.elim

theorem World.isPlaced_of_created {b : InstanceId} (h : (w.progress b).phase = .created) :
    w.isPlaced b := by
  have hphase : (w.instances.getD b default).phase = .created := h
  rw [isPlaced, Instance.isPlaced, hphase]

/-- **Who was made** is there, is past finding its options, and has the creator that was asked
for. -/
theorem Runtime.Made.kin {qs : List Request} {creator : Option InstanceId} {b : InstanceId}
    (h : rt.Made w qs creator b) (hqs : rt.Proper qs w) :
    b < (rt.after qs w).instances.size ∧ (rt.after qs w).isPlaced b ∧
      ((rt.after qs w).kin b).creator = creator := by
  obtain ⟨before, q, after, rfl, hmakes, hok, rfl⟩ := h
  have hproper := hqs.append
  rw [rt.after_append]
  generalize rt.after before w = w₁ at hok hproper
  obtain ⟨hphase, hparent⟩ := q.ends_made hmakes hok
  generalize hw₂ : ((q.perform rt).run.run w₁).2 = w₂ at hphase hparent hproper
  have hafter : rt.after (q :: after) w₁ = rt.after after w₂ := by
    rw [← hw₂]
    rfl
  have hlt : w₁.instances.size < w₂.instances.size := by
    refine Nat.lt_of_not_le fun hle => ?_
    rw [World.progress, getD_of_size_le hle] at hphase
    cases hphase
  -- from then on it keeps its options
  have hkeeps : World.Rests (· = w₁.instances.size) w₂ (rt.after after w₂) :=
    Runtime.within_after (fun q' hq' => q'.within_rests fun vm origin hcore _ =>
      hproper.2.core_ne q' hq' vm origin hcore) w₂
  have hrests := hkeeps.progress _ rfl hlt
  rw [hafter]
  refine ⟨Nat.lt_of_lt_of_le hlt hkeeps.size, ?_, ?_⟩
  · exact World.isPlaced_of_created (hrests.phase.trans hphase)
  · exact hrests.options.parent.trans hparent

/-! ## The tree -/

/-- A world without instances. -/
theorem World.Tree.of_empty (h : w.instances = #[]) : w.Tree := by
  have hkin : ∀ b, w.kin b = {} := by
    intro b
    rw [kin, h]
    rfl
  refine ⟨fun h => ?_, fun h => ?_, fun p b => ?_, fun b => ?_, fun hlt => ?_, fun h => ?_,
    fun _ => ?_⟩
  · rw [hkin] at h
    cases h
  · rw [hkin] at h
    cases h
  · rw [hkin p, hkin b]
    rfl
  · rw [hkin b]
    rfl
  · rw [h] at hlt
    cases hlt
  · rw [hkin] at h
    cases h
  · rw [hkin]

/-- **The instances make up a tree**, after any number of requests that make instances, below others
that are there or below none, and of others that initialize none by themselves:

- parents are older, so that no one is above itself, and everybody has one line;
- an instance that is not abstract is among the children of its parent, once, and among those of
  nobody else; an abstract one is among those of nobody;
- an instance that was made has its options, and the creator that was asked for; one without a
  creator has no parent;
- the parent of an abstract instance is its creator; the parent of any other is the first in the
  line of its creator that is not abstract, or the topmost one if all are abstract;
- the root that an instance names, once it has its options, is the end of its line;
- unless some are let go of, all are there. -/
theorem instances_make_tree {qs : List Request} (hnone : w.instances = #[])
    (hqs : rt.Proper qs w) :
    let w' := rt.after qs w
    (∀ b p, (w'.kin b).parent = some p → p < b) ∧
    (∀ b, ∃! l, w'.Line b l) ∧
    (∀ p b, (w'.kin p).children.count b =
      if (w'.kin b).isAbstract = false ∧ (w'.kin b).parent = some p then 1 else 0) ∧
    (∀ creator b, rt.Made w qs creator b →
      b < w'.instances.size ∧ w'.isPlaced b ∧ (w'.kin b).creator = creator) ∧
    (∀ b, (w'.kin b).creator = none → (w'.kin b).parent = none) ∧
    (∀ b c l, (w'.kin b).creator = some c → w'.Line c l → (∀ a ∈ l, w'.isAlive a) →
      (w'.kin b).parent = if (w'.kin b).isAbstract then some c else w'.shelter l) ∧
    (∀ b l, b < w'.instances.size → w'.isPlaced b → w'.Line b l → (∀ a ∈ l, w'.isAlive a) →
      w'.rootOf b = l.getLast?) ∧
    ((∀ q ∈ qs, ∀ roots, q.core ≠ .release roots) →
      ∀ b < w'.instances.size, w'.isAlive b) := by
  have hgrown := hqs.outgrows (World.Tree.of_empty hnone)
  have htree := hgrown.tree
  refine ⟨fun _ _ => htree.older, fun b => ?line, htree.listed, fun _ _ hmade => hmade.kin hqs,
    fun _ => htree.free, fun _ _ _ => htree.placed, fun _ _ => htree.rootOf_eq,
    fun hstay => hgrown.whole hstay fun b hb => ?whole⟩
  case line =>
    obtain ⟨l, hl⟩ := World.Line.exists_of_older htree.older b
    exact ⟨l, hl, fun _ h => h.unique hl⟩
  case whole =>
    rw [hnone] at hb
    cases hb

/-- A definition of an abstract instance. -/
def passedOver : Options where
  fields := { isAbstract := some true }

/-- A root, an abstract instance below it, and another instance below that one. -/
def underAbstract : List Request :=
  [ .create 0 {},
    .classes do let _ ← Classes.extend quietConfig 0 passedOver,
    .createChild 0 ⟨"frame", 1, [], [], []⟩,
    .createChild 1 ⟨"panel", 0, [], [], []⟩ ]

theorem instances_make_tree_underAbstract :
    let rt : Runtime := { config := quietConfig, fuel := 5 }
    let w : World := { forest := (History.start quietConfig).forest }
    w.instances = #[] ∧ rt.Proper underAbstract w ∧
      ((rt.after underAbstract w).kin 2).creator = some 1 ∧
      ((rt.after underAbstract w).kin 2).parent = some 0 ∧
      (rt.after underAbstract w).rootOf 2 = some 0 := by
  intro rt w
  have hqs : rt.Proper underAbstract w := by
    refine ⟨trivial, trivial, ?_, ?_, trivial⟩
    · show 0 < _
      decide +kernel
    · show 1 < _
      decide +kernel
  have hcreator : ((rt.after underAbstract w).kin 2).creator = some 1 := by decide +kernel
  have habove : (rt.after underAbstract w).Line 1 [1, 0] :=
    .up (by decide +kernel) (.top (by decide +kernel))
  obtain ⟨-, -, -, -, -, hplaced, hroot, -⟩ := instances_make_tree rfl hqs
  have hparent : ((rt.after underAbstract w).kin 2).parent = some 0 := by
    rw [hplaced 2 1 [1, 0] hcreator habove (by decide +kernel)]
    decide +kernel
  refine ⟨rfl, hqs, hcreator, hparent, ?_⟩
  exact hroot 2 [2, 0] (by decide +kernel) (by decide +kernel)
    (.up hparent (.top (by decide +kernel))) (by decide +kernel)

end Componentry
