import Componentry.Proofs.Engine.MountOrder

/-!
# How often the hooks of a mount run

An instance that is made in a mount runs the handlers of `beforeMount` each time that it is
rendered. It is rendered once if its options are plain. If they name an element it is rendered
twice: on that element while it is initialized, and again below its parent. If they have an invalid
template, and no render function, it is not rendered at all.

Who waits is marked and runs the handlers of `mounted` once, whether it was rendered or not. Of an
instance that was rendered twice, those below it that were made first do not wait any more.

- `Runtime.visits_eq_one_iff`: when an instance is rendered once.
- `World.RanHooks`: the handlers that an instance ran.
- `hooks_follow_visits`: **mounting a root** runs the hooks of all that are made so.
-/

namespace Componentry

variable {rt : Runtime} {w w' : World} {vm c : InstanceId} {tree : VNode} {kids : List Family}

/-! ## How often an instance is rendered -/

/-- **An instance is rendered once** unless mounting stops at its template, or its options name an
element that may be replaced. -/
theorem Runtime.visits_eq_one_iff {host : Host} {o : InstanceOptions} :
    rt.visits host o = 1 ↔ o.stopped = false ∧
      ∀ el, o.field (·.el) = some el → rt.refuses host (some el) = true := by
  have hbelow : rt.visitsOn host o none = if o.stopped then 0 else 1 := rfl
  rw [visits, hbelow]
  cases hstopped : o.stopped with
  | true =>
    -- neither on an element nor below the parent
    have hzero : ∀ target, rt.visitsOn host o target = 0 := fun target => by
      rw [visitsOn, hstopped, Bool.or_true, if_pos rfl]
    cases o.field (·.el) <;> simp [hzero]
  | false =>
    cases hel : o.field (·.el) with
    | none => simp
    | some el =>
      cases hrefuses : rt.refuses host (some el) <;> simp [visitsOn, hstopped, hrefuses]

/-- If no options name an element, nobody is rendered twice. -/
theorem Runtime.visits_le_one {host : Host} {o : InstanceOptions}
    (hel : o.field (·.el) = none) : rt.visits host o ≤ 1 := by
  rw [visits, hel, Option.elim_none, Nat.zero_add, visitsOn]
  split <;> decide

namespace World.RootMounted

variable (h : w.RootMounted rt vm tree kids w')
include h

/-- Whoever is made is rendered as often as its options say. -/
theorem count_openings (hlt : vm < w.instances.size) (hle : w.instances.size ≤ c)
    (hc : c < w'.instances.size) :
    (Family.node vm [(tree, kids)]).openings.count c = rt.visits w.host (w'.optionsOf c) := by
  have hone : (kids.flatMap Family.preorder).count c = 1 :=
    List.count_eq_one_of_mem (h.numbered ▸ List.nodup_range') (h.mem_kids.mpr ⟨hle, hc⟩)
  have hkids : (kids.flatMap Family.openings).count c =
      rt.visits w.host (w'.optionsOf c) * (kids.flatMap Family.preorder).count c :=
    Family.count_flatMap_mul fun k hk =>
      Family.count_openings (n := fun c => rt.visits w.host (w'.optionsOf c)) c
        ((h.regular k hk).imp fun _ _ hregular => hregular.1)
  have hne : vm ≠ c := Nat.ne_of_lt (Nat.lt_of_lt_of_le hlt hle)
  rw [Family.openings_node, List.flatMap_singleton, List.count_cons_of_ne hne, hkids, hone,
    Nat.mul_one]

/-- If nobody is rendered twice, all wait. -/
theorem all_wait (honce : ∀ c, w.instances.size ≤ c → c < w'.instances.size →
    rt.visits w.host (w'.optionsOf c) ≤ 1) (hle : w.instances.size ≤ c)
    (hc : c < w'.instances.size) : c ∈ (Family.node vm [(tree, kids)]).waiting := by
  have hall : (Family.node vm [(tree, kids)]).All fun _ visits => visits.length ≤ 1 := by
    refine .node (Nat.le_refl 1) fun v hv k hk => ?_
    rw [List.mem_singleton.mp hv] at hk
    refine (h.regular k hk).imp_of_mem fun b hb visits hvisits => ?_
    obtain ⟨hle, hlt⟩ := h.mem_kids.mp (List.mem_flatMap.mpr ⟨k, hk, hb⟩)
    exact hvisits.1.symm ▸ honce b hle hlt
  rw [hall.waiting_eq, (Family.postorder_perm _).mem_iff, Family.preorder_node,
    List.flatMap_singleton]
  exact List.mem_cons_of_mem _ (h.mem_kids.mpr ⟨hle, hc⟩)

end World.RootMounted

/-! ## Which handlers an instance ran -/

/-- In what happened on the way to a world, an instance ran the handlers of `beforeMount` so many
times, and those of `mounted` once if it is marked and else not at all. -/
structure World.RanHooks (w' : World) (new : List Happening) (c : InstanceId) (times : Nat) :
    Prop where
  beforeMount : new.filter (Happening.isCallOf c .beforeMount) =
    (List.replicate times ((w'.optionsOf c).calls c .beforeMount)).flatten
  mounted : new.filter (Happening.isCallOf c .mounted) =
    if (w'.instances.getD c default).isMounted then (w'.optionsOf c).calls c .mounted else []

theorem World.RootMounted.ranHooks (h : w.RootMounted rt vm tree kids w')
    (hlt : vm < w.instances.size) (hle : w.instances.size ≤ c) (hc : c < w'.instances.size) :
    w'.RanHooks (Family.rootStory w'.optionsOf vm tree kids) c
      (rt.visits w.host (w'.optionsOf c)) where
  beforeMount := by
    rw [Family.filter_isCallOf Family.filter_rootStory_beforeMount, h.count_openings hlt hle hc]
  mounted := by
    rw [Family.filter_isCallOf Family.filter_rootStory_mounted]
    have hnodup : (Family.node vm [(tree, kids)]).waiting.Nodup :=
      (Family.waiting_sublist _).nodup ((Family.postorder_perm _).nodup_iff.mpr (h.nodup hlt))
    -- so it is among those that wait once if it is marked, and else not
    have hmarked := h.marked c hle hc
    by_cases hmounted : (w'.instances.getD c default).isMounted = true
    · rw [List.count_eq_one_of_mem hnodup (hmarked.mp hmounted), if_pos hmounted,
        List.replicate_one, List.flatten_singleton]
    · rw [List.count_eq_zero.mpr (mt hmarked.mpr hmounted), if_neg hmounted, List.replicate_zero,
        List.flatten_nil]

/-- **The hooks of a mount follow the visits.** A root that nobody uses is mounted where nothing is
in the way, and this succeeds, whatever components there are. Each instance that is made is rendered
as often as its options say and runs the handlers of `beforeMount` each time: once, unless mounting
stops at its template or its options name an element that may be replaced. Who waits is marked, and
runs the handlers of `mounted` once, after the tree was put into the host page; nobody else is or
does. All wait unless the options of some name an element. -/
theorem hooks_follow_visits (rt : Runtime) (hpatch : rt.mounter = .patch)
    (target : Option MountTarget) (hydrating : Bool) (hroot : w.IsRoot vm)
    (hopen : (rt.refuses w.host target || (w.optionsOf vm).stopped) = false)
    (hmount : (rt.mount vm target hydrating).run.run w = (.ok (), w')) :
    ∃ tree kids, w.RootMounted rt vm tree kids w' ∧
      (∃ before after, Family.rootStory w'.optionsOf vm tree kids =
          before ++ .patched vm :: after ∧
        (∀ s ∈ before, s.isCall .mounted = false) ∧ ∀ s ∈ after, s.isCall .mounted = true) ∧
      (∀ c, w.instances.size ≤ c → c < w'.instances.size →
        w'.RanHooks (Family.rootStory w'.optionsOf vm tree kids) c
          (rt.visits w.host (w'.optionsOf c)) ∧
        (rt.visits w.host (w'.optionsOf c) = 1 ↔ (w'.optionsOf c).stopped = false ∧
          ∀ el, (w'.optionsOf c).field (·.el) = some el →
            rt.refuses w.host (some el) = true)) ∧
      ((∀ c, w.instances.size ≤ c → c < w'.instances.size →
          (w'.optionsOf c).field (·.el) = none) →
        ∀ c, w.instances.size ≤ c → c < w'.instances.size →
          (w'.instances.getD c default).isMounted = true) := by
  obtain ⟨tree, kids, h⟩ := Runtime.rootMounted hpatch hroot hopen hmount
  refine ⟨tree, kids, h, Family.rootStory_patched,
    fun c hle hc => ⟨h.ranHooks hroot.size hle hc, Runtime.visits_eq_one_iff⟩,
    fun hel c hle hc => (h.marked c hle hc).mpr (h.all_wait (fun b hb hb' => ?_) hle hc)⟩
  exact Runtime.visits_le_one (hel b hb hb')

/-- A root with a branch that is to be mounted on an element of the page, and has a leaf. -/
def placedBranch : Options :=
  let branch := nesting [("leaf", nesting [] [])] [.component "leaf" [] [] []]
  nesting [("branch", { branch with fields := { branch.fields with el := some (.selector "#x") } })]
    [.component "branch" [] [] []]

theorem hooks_follow_visits_placedBranch :
    let rt : Runtime := { config := quietConfig, fuel := 5 }
    let w := ((rt.create 0 placedBranch).run.run (Runtime.start quietConfig none).2).2
    ∃ w', (rt.mount 0 none false).run.run w = (.ok (), w') ∧ ∃ tree kids,
      w.RootMounted rt 0 tree kids w' ∧
      w'.RanHooks (Family.rootStory w'.optionsOf 0 tree kids) 1 2 := by
  intro rt w
  have hroot : w.IsRoot 0 := by
    refine ⟨by decide +kernel, by decide +kernel, Option.isNone_iff_eq_none.mp ?_⟩
    decide +kernel
  obtain ⟨⟨⟩, w', hmount⟩ : ∃ u w', (rt.mount 0 none false).run.run w = (.ok u, w') :=
    Eng.run_eq_ok (by decide +kernel)
  have hw' : w' = ((rt.mount 0 none false).run.run w).2 := by rw [hmount]
  have hsize : w.instances.size ≤ 1 ∧ 1 < w'.instances.size := by
    subst hw'
    decide +kernel
  have hvisits : rt.visits w.host (w'.optionsOf 1) = 2 := by
    subst hw'
    decide +kernel
  obtain ⟨tree, kids, h, -, hran, -⟩ :=
    hooks_follow_visits rt rfl none false hroot (by decide +kernel) hmount
  exact ⟨w', hmount, tree, kids, h, hvisits ▸ (hran 1 hsize.1 hsize.2).1⟩

/-- The branch has one handler of `beforeMount`, which runs twice, and the leaf that was made first
is never marked. -/
theorem placedBranch_mounts_twice :
    let rt : Runtime := { config := quietConfig, fuel := 5 }
    let w := ((rt.create 0 placedBranch).run.run (Runtime.start quietConfig none).2).2
    let r := (rt.mount 0 none false).run.run w
    (w.instances.getD 0 default).parentVNode.isNone = true ∧
    (rt.refuses w.host none || (w.optionsOf 0).stopped) = false ∧
    r.1.isOk = true ∧ w.instances.size = 1 ∧ r.2.instances.size = 4 ∧
    (r.2.instances.getD 1 default).isMounted = true ∧
    ((r.2.optionsOf 1).calls 1 .beforeMount).length = 1 ∧
    (r.2.steps.filter (Happening.isCallOf 1 .beforeMount)).length = 2 ∧
    (r.2.instances.getD 2 default).isMounted = false := by
  decide +kernel

end Componentry
