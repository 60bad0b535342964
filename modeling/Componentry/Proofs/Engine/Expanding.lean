import Componentry.Proofs.Engine.Children

/-!
# Expanding a tree

Each placeholder of a rendered tree is expanded in turn: a child is made and mounted, and so are
the children that its own tree asks for.

- `World.Brought`: the families that expanding brings about.
- `Eng.gives_expand`: **expanding a tree** brings about a family for each placeholder, in order.
- `Eng.mountsBelow_mountAt`: **mounting** an instance below others makes a visit of it, unless its
  target or its template is in the way.
-/

namespace Componentry

open Json (Value)

variable {rt : Runtime} {run : Runner} {w : World}

/-- Between the two, families were brought about below an instance, one for each placeholder in
order, all of which are regular. -/
structure World.Brought (rt : Runtime) (parent : InstanceId) (ps : List Placeholder)
    (kids : List Family) (w w' : World) : Prop where
  grown : w.Grown (kids.flatMap Family.preorder)
    (fun v => kids.flatMap (Family.story v.optionsOf)) w'
  fits : ∀ v, w'.Holds v → List.Forall₂ (v.MadeFor parent) ps kids
  regular : ∀ v, w'.Holds v → ∀ k ∈ kids, k.All (v.Regular rt w.host)

namespace World.Brought

variable {parent : InstanceId} {ps ps' : List Placeholder} {kids kids' : List Family}
  {w' w'' : World}

theorem nil (h : w.Quiet w') : w.Brought rt parent [] [] w' where
  grown := h.grown
  fits _ _ := .nil
  regular _ _ k hk := by cases hk

/-- More families after those that are there. -/
theorem trans (h : w.Brought rt parent ps kids w') (h' : w'.Brought rt parent ps' kids' w'') :
    w.Brought rt parent (ps ++ ps') (kids ++ kids') w'' where
  grown := by
    have hgrown := h.grown.trans h'.grown
    simp only [List.flatMap_append]
    exact hgrown
  fits v hv := List.rel_append (h.fits v (h'.grown.holds hv)) (h'.fits v hv)
  regular v hv k hk := by
    rcases List.mem_append.mp hk with hk | hk
    · exact h.regular v (h'.grown.holds hv) k hk
    · rw [← h.grown.host]
      exact h'.regular v hv k hk

/-- One child, after what it is visited for while it is made and then. -/
theorem of_made {child : InstanceId} {p : Placeholder} {visits : List (VNode × List Family)}
    {ready : World} (h : w.Made parent p child ready) (h' : ready.Visited rt child visits w')
    (hlength : ∀ v, w'.Holds v → visits.length = rt.visits w.host (v.optionsOf child)) :
    w.Brought rt parent [p] [.node child visits] w' where
  grown := by
    have hgrown := h.grown.trans h'.grown
    simp only [List.flatMap_singleton, Family.preorder_node, Family.story_node]
    exact hgrown
  fits v hv := .cons (h.fits v (h'.grown.holds hv) visits) .nil
  regular v hv k hk := by
    rw [List.mem_singleton.mp hk]
    refine .node ⟨hlength v hv, h'.fits v hv⟩ fun t ht k hk => ?_
    rw [← h.grown.host]
    exact h'.regular v hv t ht k hk

end World.Brought

/-- A rendered tree with what was brought about for it is one visit. -/
theorem World.Shown.of_grown {vm : InstanceId} {tree : VNode} {kids : List Family} {w' : World}
    (hgrown : w.Grown (kids.flatMap Family.preorder) (fun v => (v.optionsOf vm).visitSteps vm tree
      (kids.flatMap (Family.story v.optionsOf))) w')
    (hkids : ∀ v, w'.Holds v → List.Forall₂ (v.MadeFor vm) tree.placeholders kids ∧
      ∀ k ∈ kids, k.All (v.Regular rt w.host)) : w.Shown rt vm [(tree, kids)] w' where
  grown := by
    simp only [Family.made, Family.visitsStory, List.flatMap_singleton]
    exact hgrown
  fits v hv t ht := by
    rw [List.mem_singleton.mp ht]
    exact (hkids v hv).1
  regular v hv t ht := by
    rw [List.mem_singleton.mp ht]
    exact (hkids v hv).2

namespace Eng

variable {parent : InstanceId} {mount : Mounting}
  (hrun : ∀ vm args s, Acts (run vm args s)) (hmount : MountsBelow rt mount)
include hrun hmount

/-- **Making a child** for a placeholder, with the visit on the element that its options name. -/
theorem gives_createChild (p : Placeholder) :
    Gives (createChild rt run mount parent p) w fun child w' =>
      ∃ ready visits, w.Made parent p child ready ∧ ready.Visited rt child visits w' ∧
        visits.length = ((ready.optionsOf child).field (·.el)).elim 0 fun el =>
          rt.visitsOn ready.host (ready.optionsOf child) (some el) := by
  refine Gives.after (R := World.Quiet) (H := fun _ => True)
    (Within.forging (fun _ => trivial) _) fun _ w₀ h₀ => ?_
  let w₁ : World := { w₀ with instances := w₀.instances.push { ctor := p.ctor } }
  have hallocate : Gives (allocate p.ctor) w₀ fun child w' =>
      child = w₀.instances.size ∧ w' = w₁ := fun child hchild => by
    cases hchild
    exact ⟨rfl, rfl⟩
  -- resolving the class touched no instance, so the new one is the next
  refine Gives.bind hallocate fun child w₁' ⟨hchild, hw₁⟩ => ?_
  subst hchild hw₁
  have hblank : w₁.instances[w₀.instances.size]? = some { ctor := p.ctor } :=
    Array.getElem?_push_size
  refine Gives.bind (gives_setUp hrun hmount hblank) fun _ w₂ h => Gives.pure ?_
  obtain ⟨ready, visits, hborn, hvisited, hlength⟩ := h
  exact ⟨ready, visits, hborn.made.of_quiet h₀, hvisited, hlength⟩

/-- **A placeholder** brings about a family. -/
theorem gives_expandPlaceholder (p : Placeholder) :
    Gives (expandPlaceholder rt run mount parent p) w fun out w' =>
      ∃ kids, w.Brought rt parent [p] kids w' ∧ out.2 = kids.flatMap Family.waiting := by
  refine Gives.bind (gives_createChild hrun hmount p) fun child w₁ h => ?_
  obtain ⟨ready, visits₁, hmade, hvisited₁, hlength₁⟩ := h
  have hready : child < ready.instances.size :=
    hmade.grown.lt_size (List.mem_singleton_self child)
  have hfree : (w₁.instances.getD child default).access = .free :=
    (hvisited₁.grown.same.access_eq trivial hready).trans
      (hmade.grown.fresh child (List.mem_singleton_self child)).1
  have hplace : (w₁.instances.getD child default).parentVNode.isSome := by
    rw [hvisited₁.grown.same.parentVNode_eq trivial hready, hmade.place]
    rfl
  have hlt₁ : child < w₁.instances.size := Nat.lt_of_lt_of_le hready hvisited₁.grown.same.size
  refine Gives.bind (hmount w₁ child none false hlt₁ hfree hplace) fun _ w₂ h => ?_
  obtain ⟨visits₂, hvisited₂, hlength₂⟩ := h
  refine Gives.getInstance (Gives.after (R := World.Quiet) (H := Halt.Endless) ?_
    fun _ w₃ h₃ => Gives.pure ?_)
  · exact World.Quiet.set fun _ => rfl
  -- the visit on the element that its options name, if there is one, and the one below its parent
  have hvisited := hvisited₁.trans hvisited₂
  have hlength : ∀ v, w₂.Holds v →
      (visits₁ ++ visits₂).length = rt.visits w.host (v.optionsOf child) := by
    intro v hv
    have hv₁ := (hvisited.grown.holds hv).unrendered hready
    have hv₂ := hvisited₁.grown.same.holds.unrendered hready
    rw [Runtime.visits_of_unrendered hv₁, List.length_append, hlength₁, hlength₂,
      hvisited₁.grown.host, hmade.grown.host, Runtime.visitsOn_of_unrendered hv₂, Runtime.visits]
  refine ⟨_, (World.Brought.of_made hmade hvisited hlength).trans (.nil h₃), ?_⟩
  -- those that were made last have taken the place of those made before
  show (w₂.instances.getD child default).pendingMounted ++ [child] = _
  rw [hvisited.pending, hmade.waiting, List.append_nil, List.flatMap_singleton,
    Family.waiting_node]

omit hrun hmount in
mutual

/-- **Expanding a tree** brings about a family for each placeholder, in order, if each placeholder
does. -/
theorem gives_expand (h : ∀ p w, Gives (expandPlaceholder rt run mount parent p) w fun out w' =>
      ∃ kids, w.Brought rt parent [p] kids w' ∧ out.2 = kids.flatMap Family.waiting) :
    ∀ (n : VNode) (w : World), Gives (expand rt run mount parent n) w fun out w' =>
      ∃ kids, w.Brought rt parent n.placeholders kids w' ∧ out.2 = kids.flatMap Family.waiting
  | .component tag ctor props listeners children, w => by
    rw [expand, VNode.placeholders]
    exact h _ w
  | .element tag attrs children isStatic, w => by
    rw [expand, VNode.placeholders]
    exact Gives.bind (gives_expandAll h children w) fun out w' h => Gives.pure h
  | .text s, w => by
    rw [VNode.placeholders]
    exact Gives.pure (a := (VNode.text s, [])) ⟨[], .nil (World.Frame.refl w), rfl⟩
  | .comment s, w => by
    rw [VNode.placeholders]
    exact Gives.pure (a := (VNode.comment s, [])) ⟨[], .nil (World.Frame.refl w), rfl⟩

theorem gives_expandAll (h : ∀ p w, Gives (expandPlaceholder rt run mount parent p) w fun out w' =>
      ∃ kids, w.Brought rt parent [p] kids w' ∧ out.2 = kids.flatMap Family.waiting) :
    ∀ (ns : List VNode) (w : World), Gives (expandAll rt run mount parent ns) w fun out w' =>
      ∃ kids, w.Brought rt parent (VNode.allPlaceholders ns) kids w' ∧
        out.2 = kids.flatMap Family.waiting
  | [], w => by
    rw [expandAll, VNode.allPlaceholders]
    exact Gives.pure ⟨[], .nil (World.Frame.refl w), rfl⟩
  | n :: rest, w => by
    rw [expandAll, VNode.allPlaceholders]
    refine Gives.bind (gives_expand h n w) fun out w₁ ⟨kids, hkids, hqueue⟩ => ?_
    refine Gives.bind (gives_expandAll h rest w₁) fun out' w₂ ⟨kids', hkids', hqueue'⟩ => ?_
    refine Gives.pure ⟨kids ++ kids', hkids.trans hkids', ?_⟩
    rw [hqueue, hqueue', List.flatMap_append]

end

/-- **Rendering** an instance with everything below it is one visit. -/
theorem gives_renderBelow {vm : InstanceId} (target : Option NodeId) (hlt : vm < w.instances.size)
    (hfree : (w.instances.getD vm default).access = .free) :
    Gives (renderBelow rt run mount vm target) w fun out w' =>
      ∃ tree kids, w.Shown rt vm [(tree, kids)] w' ∧ out.2 = kids.flatMap Family.waiting := by
  -- what comes out of the chain of rules below is a visit
  suffices hgrows : Grows (renderBelow rt run mount vm target) w fun out ids story w' =>
      ∃ tree kids, ids = kids.flatMap Family.preorder ∧
        (story = fun v => (v.optionsOf vm).visitSteps vm tree
          (kids.flatMap (Family.story v.optionsOf))) ∧
        (∀ v, w'.Holds v → List.Forall₂ (v.MadeFor vm) tree.placeholders kids ∧
          ∀ k ∈ kids, k.All (v.Regular rt w.host)) ∧
        out.2 = kids.flatMap Family.waiting by
    refine Gives.imp hgrows ?_
    rintro out w' ⟨ids, story, hgrown, tree, kids, rfl, rfl, hkids, hqueue⟩
    exact ⟨tree, kids, .of_grown hgrown hkids, hqueue⟩
  refine Grows.after (H := Halt.Endless) (World.Quiet.set fun _ => rfl) fun _ w₁ h₁ => ?_
  refine Grows.after (H := Halt.Endless) (within_warnUnrendered target) fun _ w₂ h₂ => ?_
  have hquiet : w.Quiet w₂ := World.Frame.trans h₁ h₂
  have hlt₂ : vm < w₂.instances.size := hquiet.1.size.symm ▸ hlt
  have hfree₂ : (w₂.instances.getD vm default).access = .free :=
    (hquiet.1.same.access_eq trivial hlt).trans hfree
  refine Grows.hook hrun hlt₂ hfree₂ fun w₃ h₃ => ?_
  have hrendering : Within World.Quiet Halt.Endless (renderInstance rt run vm) :=
    within_renderInstance (Within.run hrun) rfl fun _ => World.Quiet.set fun _ => rfl
  refine Grows.after hrendering fun tree w₄ h₄ => ?_
  refine Grows.record fun w₅ h₅ => ?_
  have hhost : w₅.host = w.host :=
    h₅.host.trans <| h₄.1.host.trans <| h₃.host.trans hquiet.1.host
  refine (gives_expand (fun p w => gives_expandPlaceholder hrun hmount p) tree w₅).imp ?_
  rintro out w' ⟨kids, hbrought, hqueue⟩
  refine ⟨_, _, hbrought.grown, tree, kids, rfl, rfl, fun v hv => ⟨hbrought.fits v hv, ?_⟩, hqueue⟩
  rw [← hhost]
  exact hbrought.regular v hv

/-- An instance that stands for a placeholder keeps its tree and those that wait to itself. -/
theorem gives_patchMount {vm : InstanceId} (target : Option NodeId) (hydrating : Bool)
    (hlt : vm < w.instances.size) (hfree : (w.instances.getD vm default).access = .free)
    (hplace : (w.instances.getD vm default).parentVNode.isSome) :
    Gives (patchMount rt run mount vm target hydrating) w fun _ w' =>
      ∃ visit, w.Visited rt vm [visit] w' := by
  refine Gives.bind (gives_renderBelow hrun hmount target hlt hfree) ?_
  rintro ⟨shown, queue⟩ w₁ ⟨tree, kids, hshown, hqueue⟩
  refine Gives.after (H := Halt.Endless) (World.Quiet.set fun _ => rfl)
    fun _ w₂ h₂ => Gives.getInstance ?_
  have hlt₁ : vm < w₁.instances.size := Nat.lt_of_lt_of_le hlt hshown.grown.same.size
  have hlt₂ : vm < w₂.instances.size := Nat.lt_of_lt_of_le hlt₁ h₂.1.same.size
  rw [← hshown.grown.same.parentVNode_eq trivial hlt, ← h₂.1.same.parentVNode_eq trivial hlt₁]
    at hplace
  refine Gives.ite (fun _ => ?_) fun hnone => absurd hplace hnone
  have hwait : Within World.Quiet Halt.Endless
      (modifyInstance vm ({ · with pendingMounted := queue })) := World.Quiet.set fun _ => rfl
  refine ((Gives.of_within hwait w₂).and (Gives.modifyInstance hlt₂ _)).imp ?_
  rintro _ w₃ ⟨h₃, -, hpending⟩
  refine ⟨(tree, kids), (hshown.before h₂).before h₃, ?_⟩
  rw [hpending]
  exact hqueue

/-- Mounting one level deeper. -/
theorem mountsBelow_mountWith (hpatch : rt.mounter = .patch) :
    MountsBelow rt (mountWith rt run mount) := by
  intro w c target hydrating hlt hfree hplace
  refine Gives.mountWith hpatch hlt (fun hclosed w' h => ?_) fun hopen w₁ h₁ => ?_
  · refine ⟨[], .nil h hlt, ?_⟩
    rw [Runtime.visitsOn, if_pos hclosed]
    rfl
  · have hlt₁ : c < w₁.instances.size := Nat.lt_of_lt_of_le hlt h₁.1.1.same.size
    have hfree₁ : (w₁.instances.getD c default).access = .free :=
      (h₁.1.1.same.access_eq trivial hlt).trans hfree
    rw [← h₁.1.1.same.parentVNode_eq trivial hlt] at hplace
    refine (gives_patchMount hrun hmount _ hydrating hlt₁ hfree₁ hplace).imp ?_
    rintro _ w' ⟨visit, hvisited⟩
    refine ⟨[visit], (World.Visited.nil h₁ hlt).trans hvisited, ?_⟩
    rw [Runtime.visitsOn, hopen]
    rfl

omit hmount in
/-- **Mounting** an instance below others visits it, unless its target or its template is in the
way, however deep the instances below it go. -/
theorem mountsBelow_mountAt (hpatch : rt.mounter = .patch) (fuel : Nat) :
    MountsBelow rt (mountAt rt run fuel) := by
  induction fuel with
  | zero => intro w c target hydrating _ _ _ a ha; cases ha
  | succ fuel ih => exact mountsBelow_mountWith hrun ih hpatch

end Eng

end Componentry
