import Componentry.Engine.Api
import Componentry.Proofs.Engine.RootMount
import Mathlib.Data.List.Nodup

/-!
# The order of a mount

A child is made once its parent has been rendered, and it is rendered with everything below it
before the next child is made. So the handlers of `beforeMount` run from the root down. Those of
`mounted` wait until the tree of the root is in the host page, and then run from the leaves up.

This needs that each child is rendered once. It is unless its options name an element, on which it
is mounted by itself, or have an invalid template, at which mounting stops.

- `InstanceOptions.Plain`: options with which a child is rendered once.
- `Family.InOrder`: handlers run in order.
- `mount_in_order`: **mounting a root** runs the handlers of everything below it in order.
-/

namespace Componentry

variable {rt : Runtime} {w w' : World} {vm : InstanceId}

/-! ## Children that are rendered once -/

/-- The options name no element, and their template is not invalid. -/
structure InstanceOptions.Plain (o : InstanceOptions) : Prop where
  element : o.field (·.el) = none
  template : o.hasInvalidTemplate = false

/-- With plain options a child is rendered when its parent expands the placeholder, and only
then. -/
theorem InstanceOptions.Plain.visits_eq {o : InstanceOptions} (h : o.Plain) (host : Host) :
    rt.visits host o = 1 := by
  have hstopped : o.stopped = false := by rw [stopped, h.template, Bool.and_false]
  rw [Runtime.visits, Runtime.visitsOn, h.element, hstopped]
  rfl

theorem World.RootMounted.once {tree : VNode} {kids : List Family}
    (h : w.RootMounted rt vm tree kids w') (hplain : ∀ c, w.instances.size ≤ c →
      c < w'.instances.size → (w'.optionsOf c).Plain) : ∀ k ∈ kids, k.Once := by
  intro k hk
  refine (h.regular k hk).imp_of_mem fun c hc visits hvisits => ?_
  obtain ⟨hle, hlt⟩ := h.mem_kids.mp (List.mem_flatMap.mpr ⟨k, hk, hc⟩)
  have hlength : visits.length = 1 := hvisits.1.trans ((hplain c hle hlt).visits_eq _)
  obtain ⟨⟨tree, kids⟩, rfl⟩ := List.length_eq_one_iff.mp hlength
  exact ⟨tree, kids, rfl⟩

/-! ## Order -/

/-- In what happens, the handlers of a family run in order. -/
structure Family.InOrder (o : InstanceId → InstanceOptions) (fam : Family)
    (new : List Happening) : Prop where
  /-- What runs while an instance is made runs for all but the root, parents first. -/
  early : ∀ h, h = .beforeCreate ∨ h = .created →
    new.filter (Happening.isCall h) = fam.preorder.tail.flatMap fun c => (o c).calls c h
  beforeMount : new.filter (Happening.isCall .beforeMount) =
    fam.preorder.flatMap fun c => (o c).calls c .beforeMount
  mounted : new.filter (Happening.isCall .mounted) =
    fam.postorder.flatMap fun c => (o c).calls c .mounted
  once : ∀ c ∈ fam.preorder, ∀ h, h = .beforeMount ∨ h = .mounted →
    new.filter (Happening.isCallOf c h) = (o c).calls c h
  /-- A child is made after the handlers of `beforeMount` of its parent have run, and has its own
  run once it is made. -/
  afterParent : fam.All fun p visits => ∀ v ∈ visits, ∀ k ∈ v.2,
    ((o p).calls p .beforeMount ++ ((o k.vm).calls k.vm .beforeCreate ++
      (o k.vm).calls k.vm .created ++ (o k.vm).calls k.vm .beforeMount)).Sublist new
  /-- The handlers of `mounted` run after the tree was put into the host page. -/
  patched : ∃ before after, new = before ++ .patched fam.vm :: after ∧
    (∀ s ∈ before, s.isCall .mounted = false) ∧ ∀ s ∈ after, s.isCall .mounted = true

/-- **The story of a mount is in order** if each child is rendered once. -/
theorem Family.rootStory_inOrder {o : InstanceId → InstanceOptions} {tree : VNode}
    {kids : List Family} (hkids : ∀ k ∈ kids, k.Once)
    (hnodup : (node vm [(tree, kids)]).preorder.Nodup) :
    (node vm [(tree, kids)]).InOrder o (rootStory o vm tree kids) := by
  -- rendered once each, the members are rendered in pre-order, and wait in post-order
  have honce : (node vm [(tree, kids)]).Once := by
    refine .node ⟨tree, kids, rfl⟩ fun v hv k hk => ?_
    rw [List.mem_singleton.mp hv] at hk
    exact hkids k hk
  have hbefore : (rootStory o vm tree kids).filter (Happening.isCall .beforeMount) =
      (node vm [(tree, kids)]).preorder.flatMap fun c => (o c).calls c .beforeMount := by
    rw [filter_rootStory_beforeMount, honce.openings_eq]
  have hmounted : (rootStory o vm tree kids).filter (Happening.isCall .mounted) =
      (node vm [(tree, kids)]).postorder.flatMap fun c => (o c).calls c .mounted := by
    rw [filter_rootStory_mounted, honce.waiting_eq]
  refine ⟨fun h hh => ?_, hbefore, hmounted, fun c hc h hh => ?_, rootStory_after_parent hkids,
    rootStory_patched⟩
  · rw [filter_rootStory_early hh, preorder_node, List.flatMap_singleton]
    rfl
  · have hcount := List.count_eq_one_of_mem hnodup hc
    rcases hh with rfl | rfl
    · rw [filter_isCallOf hbefore, hcount, List.replicate_one, List.flatten_singleton]
    · rw [filter_isCallOf hmounted, (postorder_perm _).count_eq, hcount, List.replicate_one,
        List.flatten_singleton]

/-- **A mount happens in order.** A root that nobody uses is mounted where nothing is in the way,
and this succeeds. If all instances that are made are plain, they are the members of a family, with
a child for each placeholder of each tree that was rendered, and what happened is the story of a
mount of that family, in which handlers run in order. -/
theorem mount_in_order (rt : Runtime) (hpatch : rt.mounter = .patch) (target : Option MountTarget)
    (hydrating : Bool) (hroot : w.IsRoot vm)
    (hopen : (rt.refuses w.host target || (w.optionsOf vm).stopped) = false)
    (hmount : (rt.mount vm target hydrating).run.run w = (.ok (), w'))
    (hplain : ∀ c, w.instances.size ≤ c → c < w'.instances.size → (w'.optionsOf c).Plain) :
    ∃ tree kids,
      (Family.node vm [(tree, kids)]).preorder =
        vm :: List.range' w.instances.size (w'.instances.size - w.instances.size) ∧
      (Family.node vm [(tree, kids)]).All (fun c visits => visits.length = 1 ∧ w'.Fits c visits) ∧
      w'.steps = w.steps ++ Family.rootStory w'.optionsOf vm tree kids ∧
      (Family.node vm [(tree, kids)]).InOrder w'.optionsOf
        (Family.rootStory w'.optionsOf vm tree kids) := by
  obtain ⟨tree, kids, h⟩ := Runtime.rootMounted hpatch hroot hopen hmount
  have honce := h.once hplain
  refine ⟨tree, kids, h.preorder, .node ⟨rfl, h.fits⟩ fun v hv k hk => ?_, h.steps,
    Family.rootStory_inOrder honce (h.nodup hroot.size)⟩
  rw [List.mem_singleton.mp hv] at hk
  refine ((honce k hk).and (h.regular k hk)).imp ?_
  rintro c visits ⟨⟨tree, kids, rfl⟩, hregular⟩
  exact ⟨rfl, hregular.2⟩

/-- Options that render to an element with components in it. -/
def nesting (components : List (String × Options)) (inside : List NodeSpec) : Options where
  fields := {
    hooks := some (.new [(.beforeMount, [⟨0, []⟩]), (.mounted, [⟨1, []⟩])])
    render := some (.new (.spec (.element "div" [] inside))) }
  components := some (.new ⟨components.map fun c => (c.1, .definition none c.2), []⟩)

/-- A root with a branch and a leaf. The branch has a leaf of its own. -/
def smallTree : Options :=
  let leaf := nesting [] []
  nesting [("branch", nesting [("leaf", leaf)] [.component "leaf" [] [] []]), ("leaf", leaf)]
    [.component "branch" [] [] [], .component "leaf" [] [] []]

theorem mount_in_order_smallTree :
    let rt : Runtime := { config := quietConfig, fuel := 5 }
    let w := ((rt.create 0 smallTree).run.run (Runtime.start quietConfig none).2).2
    ∃ w', (rt.mount 0 none false).run.run w = (.ok (), w') ∧ ∃ tree kids,
      (Family.node 0 [(tree, kids)]).preorder = [0, 1, 2, 3] ∧
      (Family.node 0 [(tree, kids)]).InOrder w'.optionsOf
        (Family.rootStory w'.optionsOf 0 tree kids) := by
  intro rt w
  have hroot : w.IsRoot 0 := by
    refine ⟨by decide +kernel, by decide +kernel, Option.isNone_iff_eq_none.mp ?_⟩
    decide +kernel
  obtain ⟨⟨⟩, w', hmount⟩ : ∃ u w', (rt.mount 0 none false).run.run w = (.ok u, w') :=
    Eng.run_eq_ok (by decide +kernel)
  have hw' : w' = ((rt.mount 0 none false).run.run w).2 := by rw [hmount]
  have hsize : w.instances.size = 1 ∧ w'.instances.size = 4 := by
    subst hw'
    decide +kernel
  have hplain : ∀ c, c < 4 → ((w'.optionsOf c).field (·.el)).isNone = true ∧
      (w'.optionsOf c).hasInvalidTemplate = false := by
    subst hw'
    decide +kernel
  obtain ⟨tree, kids, hpreorder, -, -, horder⟩ := mount_in_order rt rfl none false hroot
    (by decide +kernel) hmount fun c _ hlt =>
      ⟨Option.isNone_iff_eq_none.mp (hplain c (hsize.2 ▸ hlt)).1, (hplain c (hsize.2 ▸ hlt)).2⟩
  rw [hsize.1, hsize.2] at hpreorder
  exact ⟨w', hmount, tree, kids, hpreorder, horder⟩

end Componentry
