import Componentry.Proofs.Engine.MountedOnce

/-!
# Filling a tree

Expanding a tree makes a child for each placeholder, mounts it, and puts the tree of the child in
its place. The child expands its own tree before it keeps it, so no placeholder is left in what is
put there, however deep the components go.

- `VNode.fill`: a tree with other trees in the places of its placeholders.
- `World.treeOf`, `World.Clears`: the tree that an instance keeps, and mounting an instance as far
  as trees are concerned.
- `Eng.gives_createChild_tree`: making a child touches no tree that is there.
- `Eng.gives_expand_filled`: expanding a tree fills it, if each placeholder is filled.
- `Eng.mountsClear_mountAt`: **mounting** an instance leaves a tree without placeholders.
- `expand_fills`: **expanding a tree** fills it, and all that are made wait, children first.
-/

namespace Componentry

variable {rt : Runtime} {run : Runner} {w w' w'' : World} {c parent : InstanceId}

/-! ## Trees in the places of placeholders -/

mutual

/-- A tree with the given trees in the places of its placeholders, in document order, and those of
the given trees that are left over. -/
def VNode.fill : VNode → List VNode → VNode × List VNode
  | .component _ _ _ _ _, trees => (trees.headD .empty, trees.tail)
  | .element tag attrs children isStatic, trees =>
    let (children, left) := VNode.fillAll children trees
    (.element tag attrs children isStatic, left)
  | .text s, trees => (.text s, trees)
  | .comment s, trees => (.comment s, trees)

def VNode.fillAll : List VNode → List VNode → List VNode × List VNode
  | [], trees => ([], trees)
  | n :: rest, trees =>
    let (n, left) := n.fill trees
    let (rest, left) := VNode.fillAll rest left
    (n :: rest, left)

end

/-- A placeholder as it stands in a tree. -/
def Placeholder.node (p : Placeholder) : VNode :=
  .component p.tag p.ctor p.props p.listeners p.children

example : (VNode.element "p" [] [.text "a", .component "b" 0 [] [] [], .text "c"] false).fill
    [.comment "b", .text "d"] =
      (.element "p" [] [.text "a", .comment "b", .text "c"] false, [.text "d"]) := rfl

/-! ## The trees that instances keep -/

/-- The tree that an instance keeps; the empty comment if there is none. -/
def World.treeOf (w : World) (c : InstanceId) : VNode :=
  (w.instances.getD c default).vnode.getD .empty

/-- The tree that an instance keeps. -/
def Aspect.tree : Aspect VNode where
  read i := i.vnode.getD .empty
  acted h := h.read (fun i => i.vnode.getD .empty) fun _ => rfl
  access _ _ _ h := h

/-- The trees of families. -/
def World.trees (w : World) (kids : List Family) : List VNode := kids.map fun k => w.treeOf k.vm

/-- Between the two all other instances have kept their trees, and the instance has no placeholder
in its tree unless it had. -/
structure World.Clears (c : InstanceId) (w w' : World) : Prop where
  same : World.Same .tree (· ≠ c) w w'
  clear : c < w.instances.size → (w.treeOf c).placeholders = [] → (w'.treeOf c).placeholders = []

namespace World

theorem Same.treeOf_eq {P : InstanceId → Prop} (h : World.Same .tree P w w') (hc : P c)
    (hlt : c < w.instances.size) : w'.treeOf c = w.treeOf c := h.read c hc hlt

theorem Clears.of_same (h : World.Same .tree (fun _ => True) w w') : w.Clears c w' where
  same := ⟨h.size, fun b _ => h.read b trivial⟩
  clear hlt hclear := by
    rw [h.treeOf_eq trivial hlt]
    exact hclear

theorem Clears.trans (h : w.Clears c w') (h' : w'.Clears c w'') : w.Clears c w'' where
  same := h.same.trans h'.same
  clear hlt hclear := h'.clear (Nat.lt_of_lt_of_le hlt h.same.size) (h.clear hlt hclear)

/-- What happens to an instance that was not there is not seen before. -/
theorem Same.of_new {β : Type} {A : Aspect β} (h : World.Same A (fun _ => True) w w')
    (h' : World.Same A (· ≠ w.instances.size) w' w'') : World.Same A (fun _ => True) w w'' where
  size := Nat.le_trans h.size h'.size
  read b _ hlt :=
    (h'.read b (Nat.ne_of_lt hlt) (Nat.lt_of_lt_of_le hlt h.size)).trans (h.read b trivial hlt)

end World

namespace Eng

/-- Mounting leaves the trees of all others, and leaves no placeholder in that of the instance. -/
def MountsClear (mount : Mounting) : Prop :=
  ∀ (w : World) (c : InstanceId) (target : Option MountTarget) (hydrating : Bool),
    Gives (mount c target hydrating) w fun _ w' => w.Clears c w'

namespace Gives

variable {α β γ : Type} {R : World → World → Prop} {H : Halt → Prop} {m : Eng α} {g : α → Eng β}
  {A : Aspect γ} {P : InstanceId → Prop} {Q : β → World → Prop}

/-- A computation that takes no instance away comes first. -/
theorem afterSame (hm : Within (World.Same A P) H m) (hlt : c < w.instances.size)
    (hg : ∀ a w', c < w'.instances.size → Gives (g a) w' Q) : Gives (m >>= g) w Q :=
  after hm fun a w' h => hg a w' (Nat.lt_of_lt_of_le hlt h.size)

/-- A computation that touches no tree comes first. -/
theorem afterTrees (hm : Within (World.Same .tree fun _ => True) H m)
    (hg : ∀ a w', Gives (g a) w' fun _ w'' => w'.Clears c w'') :
    Gives (m >>= g) w fun _ w'' => w.Clears c w'' :=
  after hm fun a w' h => (hg a w').imp fun _ _ h' => (World.Clears.of_same h).trans h'

end Gives

/-! ## Making a child -/

/-- An instance that gets its place in the tree of instances has rendered nothing yet. -/
theorem gives_initPlace_tree (hlt : c < w.instances.size) :
    Gives (initPlace rt c) w fun _ w' => c < w'.instances.size ∧ w'.treeOf c = .empty := by
  have hset : ∀ {f : Instance → Instance}, Within (World.Same .tree (· ≠ c)) Halt.Endless
      (modifyInstance c f) := World.Same.set fun _ h => absurd rfl h
  have hadvance : ∀ phase, Within (World.Same .tree (· ≠ c)) Halt.Endless (advance c phase) :=
    fun phase => within_advance (World.Same.record _) hset
  have hlifecycle : Within (World.Same .tree (· ≠ c)) Halt.Endless (initLifecycle c) :=
    within_initLifecycle (fun p => World.Same.set fun _ _ => rfl) fun _ _ => hset
  refine Gives.afterSame (hadvance _) hlt fun _ _ hlt => Gives.afterSame hset hlt fun _ _ hlt => ?_
  refine Gives.afterSame (hadvance _) hlt fun _ _ hlt => Gives.afterSame hset hlt fun _ _ hlt => ?_
  refine Gives.afterSame (hadvance _) hlt fun _ _ hlt => ?_
  refine Gives.afterSame hlifecycle hlt fun _ _ hlt => ?_
  refine Gives.afterSame (hadvance _) hlt fun _ _ hlt => Gives.afterSame hset hlt fun _ _ hlt => ?_
  refine Gives.afterSame (hadvance _) hlt fun _ w₁ hlt => ?_
  have hrender : Gives (initRender c) w₁ fun _ w' =>
      c < w'.instances.size ∧ w'.treeOf c = .empty := by
    refine (Gives.modifyInstance hlt _).imp fun _ w' ⟨hlt', h⟩ => ⟨hlt', ?_⟩
    rw [World.treeOf, h]
    rfl
  refine Gives.bind hrender fun _ w₂ ⟨hlt₂, hempty⟩ => ?_
  have hlast : Within (World.Same .tree fun _ => True) Halt.Endless (advance c .renderWired) :=
    within_advance (World.Same.record _) (World.Same.set fun _ _ => rfl)
  refine (Gives.of_within hlast w₂).imp fun _ w' h => ?_
  exact ⟨Nat.lt_of_lt_of_le hlt₂ h.size, (h.treeOf_eq trivial hlt₂).trans hempty⟩

variable (hrun : ∀ vm args s, Acts (run vm args s))
include hrun

/-- Nor does it render anything in the later phases. -/
theorem gives_initPhases_tree (hlt : c < w.instances.size) :
    Gives (initPhases rt run c) w fun _ w' => w'.treeOf c = .empty := by
  have hown : Within (World.Same .tree fun _ => True) Halt.Endless (initOwn rt run c) := by
    refine within_initOwn (World.Same.allows fun _ i i' h => ?_) (Within.run hrun)
    exact Instance.read_of_unfilled h Aspect.tree.read fun _ => rfl
  refine Gives.bind (gives_initPlace_tree hlt) fun _ w₁ ⟨hlt₁, hempty⟩ => ?_
  exact (Gives.of_within hown w₁).imp fun _ w' h => (h.treeOf_eq trivial hlt₁).trans hempty

variable {mount : Mounting} (hmount : MountsClear mount)
include hmount

/-- A child that is initialized has no placeholder in its tree, also if it was mounted on the
element that its options name. -/
theorem gives_setUp_tree {ctor : ClassId} {p : Placeholder}
    (hblank : w.instances[c]? = some { ctor }) :
    Gives (setUp rt run mount c (.child parent p none [])) w fun _ w' =>
      c < w'.instances.size ∧ World.Same .tree (· ≠ c) w w' ∧ (w'.treeOf c).placeholders = [] := by
  obtain ⟨hlt, -⟩ := Array.getElem?_eq_some_iff.mp hblank
  have hset : ∀ {H : Halt → Prop} {f : Instance → Instance}, Within (World.Same .tree (· ≠ c)) H
      (modifyInstance c f) := World.Same.set fun _ h => absurd rfl h
  have hbegun : World.Same .tree (· ≠ c) w (w.begun c) :=
    World.begun_of_within (fun _ => hset) (within_advance (World.Same.record _) hset) w
  have hoptions : Within (World.Same .tree (· ≠ c)) (fun _ => True)
      (initOptions rt c (.child parent p none [])) :=
    within_initOptions (fun _ => trivial) (fun _ => hset) _
  have hphases : Within (World.Same .tree (· ≠ c)) Halt.Endless (initPhases rt run c) :=
    within_initPhases (World.Same.settles (fun h => absurd rfl h) fun _ _ => rfl) (Within.run hrun)
  refine Ends.setUp (P := fun _ w₁ => World.Same .tree (· ≠ c) w w₁)
    (Q := fun r w₂ => r = .ok () → World.Same .tree (· ≠ c) w w₂ ∧ w₂.treeOf c = .empty) hblank
    ?options ?unresolved ?phases ?endless ?mounted
  case options => exact (Ends.of_within hoptions _).imp fun r w₁ h => hbegun.trans h.1
  case unresolved =>
    intro e w₁ _ a ha
    cases ha
  case phases =>
    intro w₁ h₁
    have hlt₁ : c < w₁.instances.size := Nat.lt_of_lt_of_le hlt h₁.size
    refine ((Ends.of_within hphases w₁).and (gives_initPhases_tree hrun hlt₁)).imp ?_
    rintro r w₂ ⟨⟨hsame, -⟩, hempty⟩ hok
    exact ⟨h₁.trans hsame, hempty () hok⟩
  case endless =>
    intro e w₂ _ a ha
    cases ha
  case mounted =>
    intro w₂ ready h₂ hinstances _ _
    obtain ⟨hsame, hempty⟩ := h₂ rfl
    have hready : World.Same .tree (· ≠ c) w ready :=
      hsame.trans ⟨Nat.le_of_eq (congrArg Array.size hinstances.symm), fun b _ _ => by
        rw [hinstances]⟩
    have hclear : (ready.treeOf c).placeholders = [] := by
      rw [World.treeOf, hinstances]
      show (w₂.treeOf c).placeholders = []
      rw [hempty]
      rfl
    have hlt' : c < ready.instances.size := Nat.lt_of_lt_of_le hlt hready.size
    show Gives (mountNamed mount c (ready.optionsOf c)) ready _
    rw [mountNamed]
    cases (ready.optionsOf c).field (·.el) with
    | none => exact Gives.pure ⟨hlt', hready, hclear⟩
    | some el =>
      refine (hmount ready c (some el) false).imp fun _ w' h => ?_
      exact ⟨Nat.lt_of_lt_of_le hlt' h.same.size, hready.trans h.same, h.clear hlt' hclear⟩

/-- **Making a child** touches no tree that is there. -/
theorem gives_createChild_tree (p : Placeholder) :
    Gives (createChild rt run mount parent p) w fun child w' =>
      child = w.instances.size ∧ child < w'.instances.size ∧
        World.Same .tree (fun _ => True) w w' ∧ (w'.treeOf child).placeholders = [] := by
  have hresolve : Within (fun w w' => World.Standing (fun _ => True) w w' ∧
      World.Same .tree (fun _ => True) w w') (fun _ => True)
      (forging (Classes.resolve rt.config p.ctor)) :=
    (Within.forging (fun _ => trivial) _).and (Within.forging (fun _ => trivial) _)
  refine Gives.after hresolve fun _ w₀ ⟨hstanding, hsame⟩ => ?_
  refine Gives.bind (P := fun child w' => child = w₀.instances.size ∧
    w' = { w₀ with instances := w₀.instances.push { ctor := p.ctor } }) ?_ ?_
  · intro child hchild
    cases hchild
    exact ⟨rfl, rfl⟩
  · rintro child w₁ ⟨rfl, rfl⟩
    refine Gives.bind (gives_setUp_tree hrun hmount Array.getElem?_push_size) ?_
    rintro - w₂ ⟨hlt, hsame₂, hclear⟩
    exact Gives.pure ⟨hstanding.size, hlt, hsame.trans (World.Same.of_push hsame₂), hclear⟩

/-- **A placeholder** is filled with the tree of the next instance. -/
theorem gives_expandPlaceholder_tree (p : Placeholder) :
    Gives (expandPlaceholder rt run mount parent p) w fun out w' =>
      World.Same .tree (fun _ => True) w w' ∧ out.1 = w'.treeOf w.instances.size ∧
        out.1.placeholders = [] := by
  refine Gives.bind (gives_createChild_tree hrun hmount p) ?_
  rintro child w₁ ⟨rfl, hlt₁, hsame₁, hclear₁⟩
  refine Gives.bind (hmount w₁ w.instances.size none false) fun _ w₂ h₂ => Gives.getInstance ?_
  have hlt₂ := Nat.lt_of_lt_of_le hlt₁ h₂.same.size
  have hset : Within (World.Same .tree fun _ => True) Halt.Endless
      (modifyInstance w.instances.size ({ · with pendingMounted := [] })) :=
    World.Same.set fun _ _ => rfl
  refine Gives.after hset fun _ w₃ h₃ => Gives.pure ?_
  exact ⟨(hsame₁.of_new h₂.same).trans h₃, (h₃.treeOf_eq trivial hlt₂).symm,
    h₂.clear hlt₁ hclear₁⟩

end Eng

/-! ## Expanding a tree -/

/-- Between the two, families were brought about for placeholders, all trees that were there were
kept, and those that wait are queued. -/
structure World.Expanded (rt : Runtime) (parent : InstanceId) (ps : List Placeholder)
    (kids : List Family) (queue : List InstanceId) (w w' : World) : Prop
    extends w.Brought rt parent ps kids w' where
  trees : World.Same .tree (fun _ => True) w w'
  queue_eq : queue = kids.flatMap Family.waiting

namespace World.Expanded

variable {ps ps' : List Placeholder} {kids kids' : List Family} {queue queue' : List InstanceId}

theorem nil (w : World) : w.Expanded rt parent [] [] [] w where
  toBrought := .nil (World.Frame.refl w)
  trees := World.Frame.refl w
  queue_eq := rfl

theorem trans (h : w.Expanded rt parent ps kids queue w')
    (h' : w'.Expanded rt parent ps' kids' queue' w'') :
    w.Expanded rt parent (ps ++ ps') (kids ++ kids') (queue ++ queue') w'' where
  toBrought := h.toBrought.trans h'.toBrought
  trees := h.trees.trans h'.trees
  queue_eq := by rw [h.queue_eq, h'.queue_eq, List.flatMap_append]

/-- The instances of the families are there. -/
theorem vm_lt (h : w.Expanded rt parent ps kids queue w') {k : Family} (hk : k ∈ kids) :
    k.vm < w'.instances.size := by
  refine h.grown.lt_size (List.mem_flatMap.mpr ⟨k, hk, ?_⟩)
  obtain ⟨vm, visits⟩ := k
  rw [Family.preorder_node]
  exact List.mem_cons_self

/-- Their trees stay what they are. -/
theorem trees_eq (h : w.Expanded rt parent ps kids queue w')
    (h' : World.Same .tree (fun _ => True) w' w'') : w''.trees kids = w'.trees kids :=
  List.map_congr_left fun _ hk => h'.treeOf_eq trivial (h.vm_lt hk)

end World.Expanded

namespace Eng

/-- What a tree expands to: it is filled with the trees of those that were made for it, and has no
placeholder left. -/
def FillsTree (rt : Runtime) (parent : InstanceId) (n : VNode) (w : World)
    (out : VNode × List InstanceId) (w' : World) : Prop :=
  ∃ kids, w.Expanded rt parent n.placeholders kids out.2 w' ∧ out.1.placeholders = [] ∧
    ∀ more, n.fill (w'.trees kids ++ more) = (out.1, more)

/-- The same for a list of trees. -/
def FillsTrees (rt : Runtime) (parent : InstanceId) (ns : List VNode) (w : World)
    (out : List VNode × List InstanceId) (w' : World) : Prop :=
  ∃ kids, w.Expanded rt parent (VNode.allPlaceholders ns) kids out.2 w' ∧
    VNode.allPlaceholders out.1 = [] ∧
    ∀ more, VNode.fillAll ns (w'.trees kids ++ more) = (out.1, more)

variable {mount : Mounting}

mutual

/-- **Expanding a tree** fills it if each placeholder is filled. -/
theorem gives_expand_filled
    (h : ∀ p w, Gives (expandPlaceholder rt run mount parent p) w (FillsTree rt parent p.node w)) :
    ∀ (n : VNode) (w : World), Gives (expand rt run mount parent n) w (FillsTree rt parent n w)
  | .component tag ctor props listeners children, w => by
    rw [expand]
    exact h { tag, ctor, props, listeners, children } w
  | .element tag attrs children isStatic, w => by
    rw [expand]
    refine Gives.bind (gives_expandAll_filled h children w) ?_
    rintro ⟨ns, queue⟩ w' ⟨kids, hexpanded, hclear, hfill⟩
    refine Gives.pure ⟨kids, hexpanded, hclear, fun more => ?_⟩
    rw [VNode.fill, hfill more]
  | .text s, w => Gives.pure (a := (VNode.text s, [])) ⟨[], .nil w, rfl, fun _ => rfl⟩
  | .comment s, w => Gives.pure (a := (VNode.comment s, [])) ⟨[], .nil w, rfl, fun _ => rfl⟩

theorem gives_expandAll_filled
    (h : ∀ p w, Gives (expandPlaceholder rt run mount parent p) w (FillsTree rt parent p.node w)) :
    ∀ (ns : List VNode) (w : World),
      Gives (expandAll rt run mount parent ns) w (FillsTrees rt parent ns w)
  | [], w => by
    rw [expandAll]
    exact Gives.pure ⟨[], .nil w, rfl, fun _ => rfl⟩
  | n :: rest, w => by
    rw [expandAll]
    refine Gives.bind (gives_expand_filled h n w) ?_
    rintro ⟨n', queue⟩ w₁ ⟨kids, hexpanded, hclear, hfill⟩
    refine Gives.bind (gives_expandAll_filled h rest w₁) ?_
    rintro ⟨rest', queue'⟩ w₂ ⟨kids', hexpanded', hclear', hfill'⟩
    refine Gives.pure ⟨kids ++ kids', hexpanded.trans hexpanded', ?_, fun more => ?_⟩
    · show n'.placeholders ++ VNode.allPlaceholders rest' = []
      rw [hclear, hclear', List.append_nil]
    · -- the first tree takes the trees of its own families, which stay what they are
      have htrees : w₂.trees (kids ++ kids') ++ more =
          w₁.trees kids ++ (w₂.trees kids' ++ more) := by
        rw [← hexpanded.trees_eq hexpanded'.trees, ← List.append_assoc]
        exact congrArg (· ++ more) List.map_append
      rw [htrees, VNode.fillAll, hfill]
      show (n' :: (VNode.fillAll rest (w₂.trees kids' ++ more)).1, _) = _
      rw [hfill' more]

end

variable (hrun : ∀ vm args s, Acts (run vm args s)) (hbelow : MountsBelow rt mount)
  (hmount : MountsClear mount)
include hrun hbelow hmount

/-- **A placeholder** is filled with the tree of the child that is made for it. -/
theorem gives_expandPlaceholder_filled (p : Placeholder) (w : World) :
    Gives (expandPlaceholder rt run mount parent p) w (FillsTree rt parent p.node w) := by
  refine ((gives_expandPlaceholder hrun hbelow _).and
    (gives_expandPlaceholder_tree hrun hmount _)).imp ?_
  rintro ⟨n, queue⟩ w' ⟨⟨kids, hbrought, hqueue⟩, hsame, htree, hclear⟩
  refine ⟨kids, ⟨hbrought, hsame, hqueue⟩, hclear, fun more => ?_⟩
  -- there is one family, and its instance is the first that was made
  have hfits := hbrought.fits w' (World.Frame.refl w')
  cases hfits with
  | cons _ hnone =>
    cases hnone
    rename_i k _
    have hvm : k.vm = w.instances.size := by
      have hnumbered := hbrought.grown.numbered
      obtain ⟨vm, visits⟩ := k
      rw [List.flatMap_singleton, Family.preorder_node, List.length_cons,
        List.range'_succ] at hnumbered
      exact List.head_eq_of_cons_eq hnumbered
    show (w'.treeOf k.vm, more) = (n, more)
    rw [hvm, ← htree]

/-- **Rendering** an instance with everything below it touches no tree that is there, and leaves no
placeholder. -/
theorem gives_renderBelow_tree (target : Option NodeId) :
    Gives (renderBelow rt run mount c target) w fun out w' =>
      World.Same .tree (fun _ => True) w w' ∧ out.1.placeholders = [] := by
  refine Gives.after (H := Halt.Endless) (World.Same.set (A := .tree) (P := fun _ => True)
    fun _ _ => rfl) fun _ w₁ h₁ => ?_
  refine Gives.after (R := World.Same .tree fun _ => True) (H := Halt.Endless)
    (within_warnUnrendered target) fun _ w₂ h₂ => ?_
  have hhook : Within (World.Same .tree fun _ => True) Halt.Endless
      (callHook rt run c .beforeMount) :=
    within_callHook (Within.run hrun) .beforeMount fun _ => World.Same.record _
  have hrender : Within (World.Same .tree fun _ => True) Halt.Endless (renderInstance rt run c) :=
    within_renderInstance (Within.run hrun) rfl fun _ => World.Same.set fun _ _ => rfl
  refine Gives.after hhook fun _ w₃ h₃ => Gives.after hrender fun tree w₄ h₄ => ?_
  refine Gives.after (R := World.Same .tree fun _ => True) (H := Halt.Endless)
    (World.Same.record _) fun _ w₅ h₅ => ?_
  have h := h₁.trans (h₂.trans (h₃.trans (h₄.trans h₅)))
  refine (gives_expand_filled (gives_expandPlaceholder_filled hrun hbelow hmount) tree w₅).imp ?_
  rintro out w' ⟨kids, hexpanded, hclear, -⟩
  exact ⟨h.trans hexpanded.trees, hclear⟩

/-- An instance keeps what it has rendered. -/
theorem gives_patchMount_tree (target : Option NodeId) (hydrating : Bool) :
    Gives (patchMount rt run mount c target hydrating) w fun _ w' => w.Clears c w' := by
  rw [patchMount_eq]
  refine Gives.bind (gives_renderBelow_tree hrun hbelow hmount target) ?_
  rintro ⟨tree, queue⟩ w₁ ⟨h₁, hclear⟩
  have hkeep : Gives (modifyInstance c ({ · with vnode := some tree })) w₁ fun _ w' =>
      w₁.Clears c w' := by
    intro _ _
    refine ⟨World.Same.modify w₁ fun h => absurd rfl h, fun hlt _ => ?_⟩
    show VNode.placeholders (((w₁.instances.modify c _).getD c default).vnode.getD .empty) = []
    rw [getD_modify hlt]
    exact hclear
  have hset : Within (World.Same .tree fun _ => True) Halt.Endless
      (modifyInstance c ({ · with pendingMounted := queue })) := World.Same.set fun _ _ => rfl
  have hfinish : ∀ b, Within (World.Same .tree fun _ => True) Halt.Endless
      (finishMounted rt run b) := fun b =>
    within_finishMounted (Within.run hrun) (World.Same.set fun _ _ => rfl)
      fun _ => World.Same.record _
  have hpatch : Within (World.Same .tree fun _ => True) Halt.Endless
      (patch rt c target tree hydrating) :=
    within_patch target tree hydrating fun _ => Within.modifyGet fun _ =>
      ⟨Nat.le_refl _, fun _ _ _ => rfl⟩
  have hland : Within (World.Same .tree fun _ => True) Halt.Endless
      (land rt run c target tree queue hydrating) := by
    refine hpatch.bind fun el => Within.bind (World.Same.record _) fun _ => ?_
    refine Within.bind (World.Same.set fun _ _ => rfl) fun _ => ?_
    exact (Within.forM hfinish queue).bind fun _ => hfinish c
  refine Gives.bind hkeep fun _ w₂ h₂ => ?_
  have hrest : Within (World.Same .tree fun _ => True) Halt.Endless (do
      if (← getInstance c).parentVNode.isSome then
        modifyInstance c ({ · with pendingMounted := queue })
      else land rt run c target tree queue hydrating) :=
    (Within.getInstance c).bind fun _ => Within.ite hset hland
  refine (Gives.of_within hrest w₂).imp fun _ w' h' => ?_
  exact (World.Clears.of_same h₁).trans (h₂.trans (.of_same h'))

/-- Mounting one level deeper. -/
theorem mountsClear_mountWith (hpatch : rt.mounter = .patch) :
    MountsClear (mountWith rt run mount) := by
  intro w c target hydrating
  have hon : ∀ el w, Gives (mountOn rt run mount c el hydrating) w fun _ w' => w.Clears c w' := by
    intro el w
    refine Gives.afterTrees (H := Halt.Endless) (within_refuses el) fun refused w₁ => ?_
    refine Gives.ite (fun _ => ?_) fun _ => ?_
    · exact (Gives.of_within (H := Halt.Endless) (within_warn c _) w₁).imp fun _ _ => .of_same
    · have hready : Within (World.Same .tree fun _ => True) Halt.Endless (ensureRender rt c el) :=
        within_ensureRender el fun _ _ => World.Same.set fun _ _ => rfl
      refine Gives.afterTrees hready fun ready w₂ => Gives.ite (fun _ => ?_) fun _ => ?_
      · rw [hpatch]
        exact gives_patchMount_tree hrun hbelow hmount el hydrating
      · exact Gives.pure (.of_same (World.Frame.refl w₂))
  cases target with
  | none => exact hon none w
  | some t => exact Gives.afterTrees (H := Halt.Endless) (within_resolveTarget t) hon

omit hbelow hmount in
/-- **Mounting** an instance leaves no placeholder in its tree, however deep the instances below it
go. -/
theorem mountsClear_mountAt (hpatch : rt.mounter = .patch) (fuel : Nat) :
    MountsClear (mountAt rt run fuel) := by
  induction fuel with
  | zero => intro w c target hydrating a ha; cases ha
  | succ fuel ih =>
    exact mountsClear_mountWith hrun (mountsBelow_mountAt hrun hpatch fuel) ih hpatch

end Eng

/-! ## Children first -/

/-- One of some instances was made below another of them, directly or not. -/
def World.MadeBelow (w : World) (ids : List InstanceId) : InstanceId → InstanceId → Prop :=
  Relation.TransGen fun d c => d ∈ ids ∧ c ∈ ids ∧ (w.optionsOf d).parent = some c

/-- Families that were made for placeholders of an instance were made below it. -/
theorem World.MadeFor.parent_of_mem {ps : List Placeholder} {kids : List Family}
    (h : List.Forall₂ (w.MadeFor parent) ps kids) :
    ∀ k ∈ kids, (w.optionsOf k.vm).parent = some parent := by
  induction h with
  | nil => nofun
  | cons hmade _ ih => exact List.forall_mem_cons.mpr ⟨hmade.parent, ih⟩

/-- Whoever is below the root of a family was made for another member, which comes later in
post-order. -/
theorem World.Fits.before_parent {k : Family} :
    k.All w.Fits → ∀ d ∈ k.preorder, d = k.vm ∨
      ∃ c, (w.optionsOf d).parent = some c ∧ [d, c].Sublist k.postorder := by
  induction k using Family.induct with
  | h vm visits ih =>
    rintro ⟨hfits, hbelow⟩ d hd
    rw [Family.preorder_node, List.mem_cons] at hd
    rcases hd with rfl | hd
    · exact .inl rfl
    · obtain ⟨t, ht, hd⟩ := List.mem_flatMap.mp hd
      obtain ⟨k, hk, hd⟩ := List.mem_flatMap.mp hd
      have hsub : k.postorder.Sublist (visits.flatMap fun t => t.2.flatMap Family.postorder) :=
        (Family.sublist_flatMap Family.postorder hk).trans
          (Family.sublist_flatMap (fun t => t.2.flatMap Family.postorder) ht)
      right
      rw [Family.postorder_node]
      rcases ih t ht k hk (hbelow t ht k hk) d hd with rfl | ⟨c, hparent, hbefore⟩
      · have hmem : k.vm ∈ k.postorder := k.postorder_perm.mem_iff.mpr hd
        refine ⟨vm, World.MadeFor.parent_of_mem (hfits t ht) k hk, ?_⟩
        exact (List.singleton_sublist.mpr (hsub.subset hmem)).append (List.Sublist.refl [vm])
      · exact ⟨c, hparent, (hbefore.trans hsub).trans (List.sublist_append_left _ _)⟩

/-- What comes earlier in a list without repetitions has the smaller index. -/
theorem idxOf_lt_of_sublist {ids : List InstanceId} (hnodup : ids.Nodup) {d c : InstanceId}
    (h : [d, c].Sublist ids) : ids.idxOf d < ids.idxOf c := by
  have hincreasing : ids.Pairwise fun a b => ids.idxOf a < ids.idxOf b := by
    refine List.pairwise_iff_getElem.mpr fun i j hi hj hij => ?_
    rw [hnodup.idxOf_getElem i hi, hnodup.idxOf_getElem j hj]
    exact hij
  exact List.rel_of_pairwise_cons (hincreasing.sublist h) List.mem_cons_self

/-- If each instance waits after those below it, so does each after all that were made below it,
however far down. -/
theorem World.MadeBelow.idxOf_lt {ps : List Placeholder} {kids : List Family}
    {queue : List InstanceId} (hqueue : queue = kids.flatMap Family.postorder)
    (hnodup : queue.Nodup) (hparent : parent ∉ queue)
    (hfits : List.Forall₂ (w.MadeFor parent) ps kids) (hall : ∀ k ∈ kids, k.All w.Fits)
    {d : InstanceId} (h : w.MadeBelow queue d c) : queue.idxOf d < queue.idxOf c := by
  have hstep : ∀ d c, d ∈ queue ∧ c ∈ queue ∧ (w.optionsOf d).parent = some c →
      queue.idxOf d < queue.idxOf c := by
    rintro d c ⟨hd, hc, hmade⟩
    obtain ⟨k, hk, hdk⟩ := List.mem_flatMap.mp (hqueue ▸ hd)
    rcases World.Fits.before_parent (hall k hk) d (k.postorder_perm.mem_iff.mp hdk) with
      rfl | ⟨c', hc', hbefore⟩
    · -- it was made for a placeholder of the tree, so below an instance that does not wait
      rw [World.MadeFor.parent_of_mem hfits k hk, Option.some.injEq] at hmade
      exact absurd hc (hmade ▸ hparent)
    · rw [hc', Option.some.injEq] at hmade
      subst hmade
      refine idxOf_lt_of_sublist hnodup (hbefore.trans ?_)
      rw [hqueue]
      exact Family.sublist_flatMap Family.postorder hk
  induction h with
  | single h => exact hstep _ _ h
  | tail _ h ih => exact Nat.lt_trans ih (hstep _ _ h)

namespace World.Expanded

variable {ps : List Placeholder} {kids : List Family} {queue : List InstanceId}
  (h : w.Expanded rt parent ps kids queue w')
include h

/-- The members of the families are the instances that were made. -/
theorem preorder_eq : kids.flatMap Family.preorder =
    List.range' w.instances.size (w'.instances.size - w.instances.size) := by
  rw [h.grown.size, Nat.add_sub_cancel_left]
  exact h.grown.numbered

/-- All of them wait, in post-order, if nobody is rendered twice. -/
theorem queue_postorder (hel : ∀ c, w.instances.size ≤ c → c < w'.instances.size →
    (w'.optionsOf c).field (·.el) = none) : queue = kids.flatMap Family.postorder := by
  rw [h.queue_eq]
  refine List.flatMap_congr fun k hk => Family.All.waiting_eq ?_
  refine (h.regular w' (World.Frame.refl w') k hk).imp_of_mem fun c hc visits hregular => ?_
  have hc : c ∈ kids.flatMap Family.preorder := List.mem_flatMap.mpr ⟨k, hk, hc⟩
  rw [h.preorder_eq, List.mem_range'_1] at hc
  rw [hregular.1]
  exact Runtime.visits_le_one (hel c hc.1 (by omega))

end World.Expanded

/-- **Expanding a tree fills it**, for every instance and every tree, whatever components there are
and however deep they go, if it succeeds. There is a child for each placeholder, in order; what
comes out is the tree with the trees of the children in the places of the placeholders, and has no
placeholder left. If no options name an element, every instance that was made waits once, those that
were made below it first. -/
theorem expand_fills (rt : Runtime) (hpatch : rt.mounter = .patch) (fuel : Nat)
    (hparent : parent < w.instances.size) (tree out : VNode) (queue : List InstanceId)
    (hexpand : (Eng.expand rt rt.run (Eng.mountAt rt rt.run fuel) parent tree).run.run w =
      (.ok (out, queue), w'))
    (hel : ∀ c, w.instances.size ≤ c → c < w'.instances.size →
      (w'.optionsOf c).field (·.el) = none) :
    out.placeholders = [] ∧
    (∃ kids, List.Forall₂ (w'.MadeFor parent) tree.placeholders kids ∧
      (∀ k ∈ kids, k.All w'.Fits) ∧ tree.fill (w'.trees kids) = (out, []) ∧
      queue = kids.flatMap Family.postorder) ∧
    queue.Perm (List.range' w.instances.size (w'.instances.size - w.instances.size)) ∧
    queue.Nodup ∧ ∀ d c, w'.MadeBelow queue d c → queue.idxOf d < queue.idxOf c := by
  have hfills : Eng.Gives (Eng.expand rt rt.run (Eng.mountAt rt rt.run fuel) parent tree) w
      (Eng.FillsTree rt parent tree w) :=
    Eng.gives_expand_filled (Eng.gives_expandPlaceholder_filled rt.acts_run
      (Eng.mountsBelow_mountAt rt.acts_run hpatch fuel)
      (Eng.mountsClear_mountAt rt.acts_run hpatch fuel)) tree w
  rw [Eng.Gives, Eng.Ends, hexpand] at hfills
  obtain ⟨kids, hexpanded, hclear, hfill⟩ := hfills (out, queue) rfl
  have hfits : List.Forall₂ (w'.MadeFor parent) tree.placeholders kids :=
    hexpanded.fits w' (World.Frame.refl w')
  have hall : ∀ k ∈ kids, k.All w'.Fits := fun k hk =>
    (hexpanded.regular w' (World.Frame.refl w') k hk).imp fun _ _ h => h.2
  have hqueue : queue = kids.flatMap Family.postorder := hexpanded.queue_postorder hel
  have hperm : queue.Perm
      (List.range' w.instances.size (w'.instances.size - w.instances.size)) := by
    rw [← hexpanded.preorder_eq, hqueue]
    exact List.Perm.flatMap_left _ fun k _ => k.postorder_perm
  have hnodup : queue.Nodup := hperm.nodup_iff.mpr List.nodup_range'
  have hout : tree.fill (w'.trees kids) = (out, []) := by
    have h := hfill []
    rw [List.append_nil] at h
    exact h
  have hnew : parent ∉ queue := by
    rw [hperm.mem_iff, List.mem_range'_1]
    exact fun h => Nat.not_le.mpr hparent h.1
  exact ⟨hclear, ⟨kids, hfits, hall, hout, hqueue⟩, hperm, hnodup,
    fun d c h => h.idxOf_lt hqueue hnodup hnew hfits hall⟩

/-- The root of `smallTree` renders to a branch and a leaf. The branch has a leaf of its own, which
waits first. -/
theorem expand_fills_smallTree :
    let rt : Runtime := { config := quietConfig, fuel := 5 }
    let created := ((rt.create 0 smallTree).run.run (Runtime.start quietConfig none).2).2
    let w := ((Eng.renderInstance rt rt.run 0).run.run created).2
    let tree := VNode.element "div" [] [.component "branch" 1 [] [] [],
      .component "leaf" 2 [] [] []] false
    ∃ out queue w', (Eng.expand rt rt.run rt.mount 0 tree).run.run w = (.ok (out, queue), w') ∧
      out.placeholders = [] ∧ (∃ kids, tree.fill (w'.trees kids) = (out, [])) ∧
      queue = [2, 1, 3] ∧ w'.MadeBelow queue 2 1 ∧ queue.idxOf 2 < queue.idxOf 1 := by
  intro rt created w tree
  obtain ⟨⟨out, queue⟩, w', hexpand⟩ : ∃ o w',
      (Eng.expand rt rt.run rt.mount 0 tree).run.run w = (.ok o, w') :=
    Eng.run_eq_ok (by decide +kernel)
  have hw' : w' = ((Eng.expand rt rt.run rt.mount 0 tree).run.run w).2 := by rw [hexpand]
  have hsize : w.instances.size = 1 ∧ w'.instances.size = 4 := by
    subst hw'
    decide +kernel
  have hel : ∀ c, c < 4 → ((w'.optionsOf c).field (·.el)).isNone = true := by
    subst hw'
    decide +kernel
  have hparent : (w'.optionsOf 2).parent = some 1 := by
    subst hw'
    decide +kernel
  obtain ⟨hclear, ⟨kids, -, -, hfill, -⟩, -, -, hfirst⟩ :=
    expand_fills rt rfl rt.fuel (hsize.1 ▸ Nat.zero_lt_one) tree out queue hexpand fun c _ hlt =>
      Option.isNone_iff_eq_none.mp (hel c (hsize.2 ▸ hlt))
  have hqueue : queue = [2, 1, 3] := by
    have h : ((Eng.expand rt rt.run rt.mount 0 tree).run.run w).1.toOption.map (·.2) =
        some [2, 1, 3] := by decide +kernel
    rw [hexpand] at h
    exact Option.some.inj h
  have hmade : w'.MadeBelow queue 2 1 := by
    refine .single ⟨?_, ?_, hparent⟩
    · rw [hqueue]
      decide
    · rw [hqueue]
      decide
  exact ⟨out, queue, w', hexpand, hclear, ⟨kids, hfill⟩, hqueue, hmade, hfirst 2 1 hmade⟩

end Componentry
