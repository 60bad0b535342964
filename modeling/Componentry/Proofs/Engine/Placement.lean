import Componentry.Proofs.Engine.Growing
import Componentry.Proofs.Engine.HostPage
import Componentry.Proofs.Host.Splice
import Componentry.Proofs.Markup.RoundTrip

/-!
# Where a rendered tree lands

A root instance renders to a tree, the tree is put into the host page in the place of the target,
and the first of the new nodes stands for the instance. Author's code that runs afterwards changes
none of this.

- `Aspect.outcome`: what an instance renders to, and what stands for it.
- `Eng.run_patch_of_agrees`, `Eng.gives_patch`: **taking a target over**, and putting a tree into the
  host page.
- `World.Patched`: a root instance rendered to a tree, which was put into the host page.
- `Runtime.patched`: **what a mount leaves** of a root instance.
- `rendered_tree_lands`: new nodes stand **in the place of the target**, and nothing else is moved.
-/

namespace Componentry

variable {α : Type} {H : Halt → Prop} {rt : Runtime} {w w' : World} {vm : InstanceId}

/-! ## What author's code does not change -/

/-- What an instance renders to, and the node that stands for it. -/
def Aspect.outcome : Aspect (Option VNode × Option NodeId) where
  read i := (i.vnode, i.el)
  acted h := h.read (fun i => (i.vnode, i.el)) fun _ => rfl
  access _ _ _ h := h

/-- Between the two, the host page is the same, and so is what instances render to and what stands
for them. -/
def World.Displays (w w' : World) : Prop :=
  World.Same .outcome (fun _ => True) w w' ∧ w'.host = w.host

namespace World.Displays

instance : World.Lax World.Displays where
  refl w := ⟨World.Frame.refl w, rfl⟩
  trans h h' := ⟨World.Frame.trans h.1 h'.1, h'.2.trans h.2⟩
  acted h := ⟨World.Tolerant.acted h, h.read (·.host) fun _ => rfl⟩
  access h := ⟨World.Tolerant.access h.1, h.2⟩
  aside hi _ hh := ⟨⟨Nat.le_of_eq (congrArg _ hi.symm), fun _ _ _ => by rw [hi]⟩, hh⟩

theorem record (what : Happening) : Eng.Within World.Displays H (Eng.record vm what) :=
  Eng.Within.modifyGet fun _ => ⟨⟨Nat.le_refl _, fun _ _ _ => rfl⟩, rfl⟩

theorem outcome (h : w.Displays w') (hlt : vm < w.instances.size) :
    Aspect.outcome.read (w'.instances.getD vm default) =
      Aspect.outcome.read (w.instances.getD vm default) := h.1.read vm trivial hlt

/-- Marking an instance as mounted and running its hook. -/
theorem finishMounted (rt : Runtime) (vm : InstanceId) :
    Eng.Within World.Displays (fun _ => True) (Eng.finishMounted rt rt.run vm) :=
  Eng.within_finishMounted rt.within_run
    (Eng.Within.modifyInstance vm fun w => ⟨World.Same.modify w fun _ => rfl, rfl⟩)
    fun _ => record _

end World.Displays

namespace Eng

/-- What a computation that succeeds comes to. -/
theorem Gives.self (m : Eng α) (w : World) : Gives m w fun a w' => m.run.run w = (.ok a, w') :=
  fun _ ha => Prod.ext ha rfl

/-- **A target that is taken over.** If it is written like the tree, nothing at all is changed. -/
theorem run_patch_of_agrees (rt : Runtime) (vm : InstanceId) {t : NodeId} {tree : VNode}
    (hagrees : w.host.outerHtml t = tree.toHtml) :
    (patch rt vm (some t) tree true).run.run w = (.ok (some t), w) := by
  have hsame : (true && (some t).any fun t => w.host.outerHtml t == tree.toHtml) = true := by
    rw [Bool.true_and, Option.any_some, hagrees, beq_self_eq_true]
  have hpatch : Ends (patch rt vm (some t) tree true) w fun r w' => (r, w') = (.ok (some t), w) := by
    refine Ends.next (a := w.host) (v := w) rfl ?_
    rw [if_pos hsame]
    rfl
  exact hpatch

/-- **Putting a tree into the host page.** The first of the new nodes stands for it. -/
theorem gives_patch (rt : Runtime) (vm : InstanceId) {t : NodeId} {tree : VNode} (hydrating : Bool)
    (hdiffers : hydrating = true → w.host.outerHtml t ≠ tree.toHtml) :
    Gives (patch rt vm (some t) tree hydrating) w fun el w' =>
      ∃ nodes, nodes = (w.host.loadMarkup tree.toHtml).1 ∧ el = nodes.head? ∧
        w'.host = ((w.host.loadMarkup tree.toHtml).2.replaceNode t nodes).2 := by
  have hput : ∀ w₁ : World, w₁.host = w.host → Gives (do
      let nodes ← readMarkup tree.toHtml
      replaceTarget (some t) nodes
      return nodes.head?) w₁ fun el w' =>
        ∃ nodes, nodes = (w.host.loadMarkup tree.toHtml).1 ∧ el = nodes.head? ∧
          w'.host = ((w.host.loadMarkup tree.toHtml).2.replaceNode t nodes).2 := by
    intro w₁ h₁
    have hread : Gives (readMarkup tree.toHtml) w₁ fun nodes w₂ =>
        (nodes, w₂.host) = w.host.loadMarkup tree.toHtml := by
      intro nodes hnodes
      obtain ⟨nodes', hok, hloaded⟩ := ends_readMarkup (w := w₁) tree.toHtml
      obtain rfl := Except.ok.inj (hnodes.symm.trans hok)
      exact h₁ ▸ hloaded
    refine Gives.bind hread fun nodes w₂ hloaded => ?_
    obtain ⟨hnodes, hhost⟩ := Prod.ext_iff.mp hloaded
    have hreplace : Gives (replaceTarget (some t) nodes) w₂ fun _ w₃ =>
        w₃.host = (w₂.host.replaceNode t nodes).2 := fun _ _ => ends_replaceTarget t nodes
    refine Gives.bind hreplace fun _ w₃ h₃ => Gives.pure ⟨nodes, hnodes, rfl, h₃.trans ?_⟩
    rw [← hhost]
  have hnot : ¬(hydrating && (some t).any fun t => w.host.outerHtml t == tree.toHtml) = true := by
    rw [Bool.and_eq_true, Option.any_some, beq_iff_eq]
    exact fun h => hdiffers h.1 h.2
  refine Ends.next (a := w.host) (v := w) rfl ?_
  rw [if_neg hnot]
  by_cases hwarns : (hydrating && (some t).isSome) = true
  · rw [if_pos hwarns]
    exact Gives.after (R := World.Spared fun _ => True) (H := fun _ => False) (within_warn vm _)
      fun _ w₁ h₁ => hput w₁ h₁.host
  · rw [if_neg hwarns]
    exact hput w rfl

end Eng

/-! ## Mounting -/

/-- Between the two, the instance rendered to a tree, and the tree was put into the host page in the
place of the target. Until then everything else was spared; since then author's code ran. -/
structure World.Patched (rt : Runtime) (vm : InstanceId) (target : Option NodeId) (tree : VNode)
    (hydrating : Bool) (w w' : World) : Prop where
  vnode : (w'.instances.getD vm default).vnode = some tree
  patch : ∃ w₁ w₂, World.Spared (fun _ => True) w w₁ ∧
    (Eng.patch rt vm target tree hydrating).run.run w₁ =
      (.ok (w'.instances.getD vm default).el, w₂) ∧ w'.host = w₂.host

theorem World.Patched.after {w₀ : World} {target : Option NodeId} {tree : VNode} {hydrating : Bool}
    (hw : World.Spared (fun _ => True) w₀ w) (h : w.Patched rt vm target tree hydrating w') :
    w₀.Patched rt vm target tree hydrating w' where
  vnode := h.vnode
  patch :=
    let ⟨w₁, w₂, hspared, hrest⟩ := h.patch
    ⟨w₁, w₂, hw.trans hspared, hrest⟩

/-- While nothing happens, everything is spared. -/
theorem World.Quiet.spared (h : w.Quiet w') : World.Spared (fun _ => True) w w' := by
  have hmounted : ∀ b, (w'.instances.getD b default).isMounted =
      (w.instances.getD b default).isMounted := by
    intro b
    by_cases hb : b < w.instances.size
    · exact h.1.same.isMounted_eq trivial hb
    · have hle := Nat.le_of_not_lt hb
      rw [getD_of_size_le hle, getD_of_size_le (h.1.size ▸ hle)]
  refine .of_still ⟨h.1.same.size, fun b _ hb => ?_⟩ hmounted h.1.host h.2
  exact Prod.ext (hmounted b) (h.1.same.parentVNode_eq trivial hb)

namespace Eng

/-- The node that a patch gives stands for the instance, and what follows leaves it. -/
theorem gives_land {target : Option NodeId} {tree : VNode} {queue : List InstanceId}
    {hydrating : Bool} (hlt : vm < w.instances.size) :
    Gives (land rt rt.run vm target tree queue hydrating) w fun _ w' => ∃ w₁,
      (patch rt vm target tree hydrating).run.run w = (.ok (w'.instances.getD vm default).el, w₁) ∧
      w'.host = w₁.host ∧
      (w'.instances.getD vm default).vnode = (w.instances.getD vm default).vnode := by
  have hpatch : Within (World.Same .outcome fun _ => True) (fun _ => True)
      (patch rt vm target tree hydrating) :=
    within_patch target tree hydrating fun f =>
      Within.modifyGet fun _ => ⟨Nat.le_refl _, fun _ _ _ => rfl⟩
  refine Gives.bind ((Gives.self _ w).and (Gives.of_within hpatch w)) fun el w₁ ⟨hrun, h₁⟩ => ?_
  have hlt₁ : vm < w₁.instances.size := Nat.lt_of_lt_of_le hlt h₁.size
  have hvnode₁ := congrArg Prod.fst (h₁.read vm trivial hlt)
  refine Gives.after (World.Displays.record (H := fun _ => True) _) fun _ w₂ h₂ => ?_
  have hlt₂ : vm < w₂.instances.size := Nat.lt_of_lt_of_le hlt₁ h₂.1.size
  have hset : Gives (modifyInstance vm ({ · with el })) w₂ fun _ w' =>
      vm < w'.instances.size ∧ w'.host = w₂.host ∧ w'.instances.getD vm default =
        { w₂.instances.getD vm default with el } := fun _ _ =>
    ⟨Array.size_modify.symm ▸ hlt₂, rfl, getD_modify hlt₂ _⟩
  refine Gives.bind hset fun _ w₃ ⟨hlt₃, hhost₃, h₃⟩ => ?_
  have hrest : Within World.Displays (fun _ => True) (do
      queue.forM (Eng.finishMounted rt rt.run)
      Eng.finishMounted rt rt.run vm) :=
    (Within.forM (World.Displays.finishMounted rt) queue).bind fun _ =>
      World.Displays.finishMounted rt vm
  refine (Gives.of_within hrest w₃).imp fun _ w₄ h₄ => ?_
  obtain ⟨hvnode₄, hel₄⟩ := Prod.mk.inj (h₄.outcome hlt₃)
  rw [h₃] at hvnode₄ hel₄
  refine ⟨w₁, hel₄ ▸ hrun, h₄.2.trans (hhost₃.trans h₂.2), hvnode₄.trans ?_⟩
  exact (congrArg Prod.fst (h₂.outcome hlt₁)).trans hvnode₁

/-- What a root instance renders to is put into the host page. -/
theorem gives_patchMount_patched {mount : Mounting} (hmount : Spares mount)
    (hlt : vm < w.instances.size) (hroot : (w.instances.getD vm default).parentVNode = none)
    (target : Option NodeId) (hydrating : Bool) :
    Gives (patchMount rt rt.run mount vm target hydrating) w fun _ w' =>
      ∃ tree, w.Patched rt vm target tree hydrating w' := by
  rw [patchMount_eq]
  refine Gives.after (spared_renderBelow rt.acts_run hmount vm target) ?_
  rintro ⟨tree, queue⟩ w₁ h₁
  have hlt₁ : vm < w₁.instances.size := Nat.lt_of_lt_of_le hlt h₁.same.size
  have hkeep : Within (World.Spared fun _ => True) (fun _ => True)
      (modifyInstance vm ({ · with vnode := some tree })) := World.Spared.set fun _ => rfl
  refine Gives.bind ((Gives.of_within hkeep w₁).and (Gives.modifyInstance hlt₁ _))
    fun _ w₂ ⟨h₂, hlt₂, hvnode₂⟩ => Gives.getInstance ?_
  have hplace : (w₂.instances.getD vm default).parentVNode = none := by
    have hread := (h₁.trans h₂).same.read vm trivial hlt
    exact (congrArg Prod.snd hread).trans hroot
  rw [hplace]
  refine (gives_land hlt₂).imp fun _ w' ⟨w₃, hrun, hhost, hvnode⟩ => ?_
  refine ⟨tree, hvnode.trans ?_, w₂, w₃, h₁.trans h₂, hrun, hhost⟩
  rw [hvnode₂]

end Eng

/-- **What a mount leaves** of a root instance, if it is not refused and succeeds. -/
theorem Runtime.patched (hpatch : rt.mounter = .patch) {target : Option MountTarget}
    {hydrating : Bool} (hlt : vm < w.instances.size)
    (hroot : (w.instances.getD vm default).parentVNode = none)
    (hopen : (rt.refuses w.host target || (w.optionsOf vm).stopped) = false)
    (hmount : (rt.mount vm target hydrating).run.run w = (.ok (), w')) :
    ∃ tree, w.Patched rt vm (target.bind (rt.targetOf w.host)) tree hydrating w' := by
  have hgives : Eng.Gives (rt.mount vm target hydrating) w fun _ w' =>
      ∃ tree, w.Patched rt vm (target.bind (rt.targetOf w.host)) tree hydrating w' := by
    rw [Runtime.mount]
    cases rt.fuel with
    | zero => intro a ha; cases ha
    | succ fuel =>
      have hbelow : Eng.Spares (Eng.mountAt rt rt.run fuel) := .of_ends fun w vm target hydrating =>
        Eng.ends_mountAt rt fuel w vm target hydrating
      refine Eng.Gives.mountWith hpatch hlt (fun hclosed => ?_) fun _ w₁ h₁ => ?_
      · rw [hopen] at hclosed
        cases hclosed
      · have hlt₁ : vm < w₁.instances.size := h₁.1.1.size.symm ▸ hlt
        have hroot₁ := (h₁.1.1.same.parentVNode_eq trivial hlt).trans hroot
        refine (Eng.gives_patchMount_patched hbelow hlt₁ hroot₁ _ hydrating).imp ?_
        exact fun _ w₂ ⟨tree, h₂⟩ => ⟨tree, h₂.after h₁.1.spared⟩
  rw [Eng.Gives, Eng.Ends, hmount] at hgives
  exact hgives () rfl

/-- **The rendered tree lands in the place of the target.** Where a root instance is mounted on a
node with a parent, new nodes stand between what was before the target and what was behind it. They
are what the markup of the tree leaves in a body, in order, and show it; the first of them, if there
is one, stands for the instance. A tree of ordinary elements leaves one, which shows that tree. -/
theorem rendered_tree_lands (rt : Runtime) (hpatch : rt.mounter = .patch)
    {target : Option MountTarget} (hlt : vm < w.instances.size)
    (hroot : (w.instances.getD vm default).parentVNode = none)
    (hopen : (rt.refuses w.host target || (w.optionsOf vm).stopped) = false) {n p : NodeId}
    (htarget : target.bind (rt.targetOf w.host) = some n) (hparent : w.host.parent? n = some p)
    (hin : n ∈ w.host.children p)
    (hmount : (rt.mount vm target false).run.run w = (.ok (), w')) :
    ∃ tree nodes, (w'.instances.getD vm default).vnode = some tree ∧
      w.host.Spliced w'.host n p nodes ∧
      (w'.instances.getD vm default).el = nodes.head? ∧
      nodes.length = (Markup.Document.parse tree.toHtml).body.length ∧
      (Markup.AllBare (Markup.Document.parse tree.toHtml).body →
        nodes.flatMap w'.host.trees = (Markup.Document.parse tree.toHtml).body) ∧
      (VNode.isOrdinary ["body", "html"] tree → VNode.isPlain tree → ¬VNode.isText tree →
        Markup.isUnmarked tree.toHtml →
          ∃ t, nodes = [t] ∧ w'.host.trees t = [tree.node]) := by
  obtain ⟨tree, hvnode, w₁, w₂, hspared, hrun, hhost⟩ := Runtime.patched hpatch hlt hroot hopen hmount
  rw [htarget] at hrun
  have hgives : Eng.Gives (Eng.patch rt vm (some n) tree false) w₁ _ :=
    Eng.gives_patch rt vm false nofun
  rw [Eng.Gives, Eng.Ends, hrun] at hgives
  obtain ⟨nodes, hnodes, hel, hput⟩ := hgives _ rfl
  rw [hspared.host, Host.loadMarkup] at hnodes hput
  rw [hnodes, ← hhost] at hput
  have hordinary := @Markup.Document.body_parse_toHtml tree
  refine ⟨tree, nodes, hvnode, ?_⟩
  generalize Markup.Document.parse tree.toHtml = d at hnodes hput hordinary ⊢
  replace hnodes := hnodes.trans (Host.loadNodes_numbers none w.host d.body).1
  have hspliced := Host.spliced_loadBody hparent hin d
  have htrees := Host.trees_loadBody hparent hin d
  rw [← hput, ← hnodes] at hspliced htrees
  have hlength : nodes.length = d.body.length := by rw [hnodes, Markup.length_rootsFrom]
  refine ⟨hspliced, hel, hlength, htrees, fun htree hplain htext hmark => ?_⟩
  have hbody := hordinary htree hplain (Bool.not_eq_true _ ▸ htext) hmark
  have hbare : Markup.AllBare d.body := by
    rw [hbody]
    exact ⟨tree.bare_node, trivial⟩
  have hnode := htrees hbare
  rw [hbody, Markup.rootsFrom, Markup.rootsFrom] at hnodes
  rw [hnodes, hbody, List.flatMap_singleton] at hnode
  exact ⟨_, hnodes, hnode⟩

/-- A page with three elements in its body. -/
def flankedPage : Host where
  nodes := #[{ kind := .document, children := [1] },
    { kind := .element ⟨.html, "html"⟩ [], parent := some 0, children := [2, 3] },
    { kind := .element ⟨.html, "head"⟩ [], parent := some 1 },
    { kind := .element ⟨.html, "body"⟩ [], parent := some 1, children := [4, 5, 6] },
    { kind := .element ⟨.html, "i"⟩ [], parent := some 3 },
    { kind := .element ⟨.html, "div"⟩ [⟨.none, "id", "app"⟩], parent := some 3 },
    { kind := .element ⟨.html, "b"⟩ [], parent := some 3 }]

/-- A runtime whose page is the first document. -/
def pageRuntime : Runtime := { config := quietConfig, page := some 0, fuel := 5 }

/-- A root that renders to a tree, with a host page. -/
def rootOn (host : Host) (tree : NodeSpec) : World :=
  { ((pageRuntime.create 0 { fields := { render := some (.new (.spec tree)) } }).run.run
    (Runtime.start quietConfig none).2).2 with host }

theorem rootOn_host (host : Host) (tree : NodeSpec) : (rootOn host tree).host = host := rfl

theorem rendered_tree_lands_flankedPage :
    let w := rootOn flankedPage (.element "p" [] [.text (.literal (.str "a"))])
    ∃ w', (pageRuntime.mount 0 (some (.node 5)) false).run.run w = (.ok (), w') ∧
      w.host.parent? 5 = some 3 ∧ 5 ∈ w.host.children 3 ∧ ∃ t, w.host.Spliced w'.host 5 3 [t] ∧
        (w'.instances.getD 0 default).el = some t ∧ w'.host.outerHtml t = "<p>a</p>" := by
  intro w
  obtain ⟨w', hmount, hw'⟩ := Eng.run_eq_done (w := w)
    (m := pageRuntime.mount 0 (some (.node 5)) false) (by decide +kernel)
  have hordinary : (w'.instances.getD 0 default).vnode.any fun tree =>
      VNode.isOrdinary ["body", "html"] tree && VNode.isPlain tree && !VNode.isText tree &&
        Markup.isUnmarked tree.toHtml && tree.node.write false == "<p>a</p>" := by
    rw [hw']
    decide +kernel
  have hparent : w.host.parent? 5 = some 3 := by decide +kernel
  have hin : 5 ∈ w.host.children 3 := by decide +kernel
  have hopen : (pageRuntime.refuses w.host (some (.node 5)) || (w.optionsOf 0).stopped) = false := by
    decide +kernel
  obtain ⟨tree, nodes, hvnode, hspliced, hel, -, -, hone⟩ := rendered_tree_lands pageRuntime rfl
    (by decide +kernel) (Option.isNone_iff_eq_none.mp (by decide +kernel)) hopen rfl hparent hin
    hmount
  rw [hvnode] at hordinary
  simp only [Option.any_some, Bool.and_eq_true, Bool.not_eq_true', beq_iff_eq] at hordinary
  obtain ⟨⟨⟨⟨htree, hplain⟩, htext⟩, hmark⟩, hhtml⟩ := hordinary
  obtain ⟨t, rfl, hshown⟩ := hone htree hplain (Bool.eq_false_iff.mp htext) hmark
  refine ⟨w', hmount, hparent, hin, t, hspliced, hel, ?_⟩
  rw [Host.outerHtml, hshown, Markup.writeNodes, hhtml]
  rfl

/-- An empty comment lands nowhere: the target is taken out of the page, and nothing stands for the
instance. -/
theorem empty_comment_lands_nowhere :
    let w := rootOn flankedPage (.comment "")
    ∃ w', (pageRuntime.mount 0 (some (.node 5)) false).run.run w = (.ok (), w') ∧
      (pageRuntime.refuses w.host (some (.node 5)) || (w.optionsOf 0).stopped) = false ∧
      w.host.parent? 5 = some 3 ∧ w.host.children 3 = [4, 5, 6] ∧
      ((w'.instances.getD 0 default).vnode.map VNode.toHtml) = some VNode.empty.toHtml ∧
      w'.host.children 3 = [4, 6] ∧ (w'.instances.getD 0 default).el = none := by
  intro w
  obtain ⟨w', hmount, hw'⟩ := Eng.run_eq_done (w := w)
    (m := pageRuntime.mount 0 (some (.node 5)) false) (by decide +kernel)
  refine ⟨w', hmount, by decide +kernel, by decide +kernel, by decide +kernel, ?_⟩
  rw [hw']
  decide +kernel

end Componentry
