import Componentry.Proofs.Engine.Expanding

/-!
# Mounting a root

A root instance is rendered with everything below it, then the tree is put into the host page, and
then all that wait are marked and run their mounted hook.

- `World.Finished`: instances are marked as mounted, and run their hook, one after the other.
- `World.IsRoot`, `World.RootMounted`: what mounting a root brings about.
- `Runtime.gives_mount`: **mounting a root** brings that about.
-/

namespace Componentry

open Json (Value)

variable {α β : Type} {H : Halt → Prop} {rt : Runtime} {run : Runner} {w : World} {vm : InstanceId}

/-! ## The instances there are -/

/-- All instances keep an aspect, and there are no others. -/
structure World.Level (A : Aspect β) (w w' : World) : Prop where
  same : World.Same A (fun _ => True) w w'
  size : w'.instances.size = w.instances.size

namespace World.Level

variable {A : Aspect β}

instance : World.Lax (World.Level A) where
  refl w := ⟨World.Frame.refl w, rfl⟩
  trans h h' := ⟨World.Frame.trans h.same h'.same, h'.size.trans h.size⟩
  acted h := ⟨World.Tolerant.acted h, h.size⟩
  access h := ⟨World.Tolerant.access h.same,
    (Array.size_modify.trans h.size).trans Array.size_modify⟩
  aside hi hc hh := ⟨World.Lax.aside hi hc hh, congrArg Array.size hi⟩

theorem set {f : Instance → Instance} (hf : ∀ i, A.read (f i) = A.read i) :
    Eng.Within (World.Level A) H (Eng.modifyInstance vm f) :=
  Eng.Within.modifyInstance vm fun w => ⟨World.Same.modify w fun _ => hf _, Array.size_modify⟩

theorem record (what : Happening) : Eng.Within (World.Level A) H (Eng.record vm what) :=
  Eng.Within.modifyGet fun _ => ⟨⟨Nat.le_refl _, fun _ _ _ => rfl⟩, rfl⟩

theorem onHost (f : Host → α × Host) : Eng.Within (World.Level A) H (Eng.onHost f) :=
  Eng.Within.modifyGet fun _ => ⟨⟨Nat.le_refl _, fun _ _ _ => rfl⟩, rfl⟩

end World.Level

/-- Between the two nothing happened to any instance. The host page may have changed. -/
def World.Unmoved (w w' : World) : Prop := World.Level .standing w w' ∧ World.Still w w'

instance : World.Lax World.Unmoved := World.lax_and

theorem World.Unmoved.steps_eq {w' : World} (h : w.Unmoved w') : w'.steps = w.steps := by
  rw [steps, show w'.chronicle = _ from h.2]
  rfl

theorem World.Unmoved.set {f : Instance → Instance}
    (hf : ∀ i, Aspect.standing.read (f i) = Aspect.standing.read i) :
    Eng.Within World.Unmoved H (Eng.modifyInstance vm f) :=
  (World.Level.set hf).and World.Still.set

/-! ## Mounted hooks -/

/-- What lasts, and who uses the instance. -/
def Aspect.ready : Aspect ((ClassId × InstanceOptions) × Access) where
  read i := (lasting.read i, i.access)
  acted h := h.read (fun i => (lasting.read i, i.access)) fun _ => rfl
  access i _ _ h := congrArg (fun s : (ClassId × InstanceOptions) × Access => (s.1, i.access)) h

/-- Whether an instance is mounted. -/
def Aspect.marked : Aspect Bool where
  read i := i.isMounted
  acted h := h.read (·.isMounted) fun _ => rfl
  access _ _ _ h := h

/-- Between the two the instances of a queue were marked as mounted and ran their hook, in
order. -/
structure World.Finished (queue : List InstanceId) (w w' : World) : Prop where
  level : World.Level .ready w w'
  steps : ∀ v, w'.Holds v →
    w'.steps = w.steps ++ queue.flatMap fun c => (v.optionsOf c).calls c .mounted
  marked : ∀ b, b < w.instances.size → ((w'.instances.getD b default).isMounted = true ↔
    (w.instances.getD b default).isMounted = true ∨ b ∈ queue)

namespace World

variable {w' w'' : World} {queue queue' : List InstanceId}

theorem Level.holds (h : World.Level .ready w w') : w.Holds w' where
  size := h.same.size
  read b hb hlt := congrArg Prod.fst (h.same.read b hb hlt)

theorem Level.access_eq (h : World.Level .ready w w') {b : InstanceId}
    (hlt : b < w.instances.size) :
    (w'.instances.getD b default).access = (w.instances.getD b default).access :=
  congrArg Prod.snd (h.same.read b trivial hlt)

theorem Finished.nil (w : World) : w.Finished [] w where
  level := World.Frame.refl w
  steps _ _ := (List.append_nil _).symm
  marked b _ := by simp

theorem Finished.trans (h : w.Finished queue w') (h' : w'.Finished queue' w'') :
    w.Finished (queue ++ queue') w'' where
  level := World.Frame.trans h.level h'.level
  steps v hv := by
    rw [h'.steps v hv, h.steps v (World.Frame.trans h'.level.holds hv), List.append_assoc,
      List.flatMap_append]
  marked b hlt := by
    rw [h'.marked b (h.level.size.symm ▸ hlt), h.marked b hlt, List.mem_append, or_assoc]

end World

namespace Eng

variable (hrun : ∀ vm args s, Acts (run vm args s))
include hrun

/-- One instance is marked and runs its hook. -/
theorem gives_finishMounted (hlt : vm < w.instances.size)
    (hfree : (w.instances.getD vm default).access = .free) :
    Gives (finishMounted rt run vm) w fun _ w' => w.Finished [vm] w' := by
  have hmark : Gives (modifyInstance vm ({ · with isMounted := true })) w fun _ w' =>
      World.Level .ready w w' ∧ w'.steps = w.steps ∧ ∀ b, b < w.instances.size →
        ((w'.instances.getD b default).isMounted = true ↔
          (w.instances.getD b default).isMounted = true ∨ b = vm) := by
    have hset : Within (World.Level .ready) Halt.Endless
        (modifyInstance vm ({ · with isMounted := true })) := World.Level.set fun _ => rfl
    refine fun _ _ => ⟨(hset w).1, rfl, fun b hb => ?_⟩
    show ((w.instances.modify vm ({ · with isMounted := true })).getD b default).isMounted = true ↔
      _
    by_cases hvm : b = vm
    · subst hvm
      rw [getD_modify hb]
      exact ⟨fun _ => .inr rfl, fun _ => rfl⟩
    · rw [getD_modify_of_ne hvm]
      exact ⟨.inl, fun h => h.resolve_right hvm⟩
  refine Gives.bind hmark fun _ w₁ ⟨h₁, hsteps₁, hmarked₁⟩ => ?_
  have hlt₁ : vm < w₁.instances.size := h₁.size.symm ▸ hlt
  have hready : Within (World.Level .ready) Halt.Endless (callHook rt run vm .mounted) :=
    within_callHook (Within.run hrun) _ fun _ => World.Level.record _
  have hmarks : Within (World.Level .marked) Halt.Endless (callHook rt run vm .mounted) :=
    within_callHook (Within.run hrun) _ fun _ => World.Level.record _
  refine ((Gives.callHook hrun hlt₁ ((h₁.access_eq hlt).trans hfree)).and
    ((Gives.of_within hready w₁).and (Gives.of_within hmarks w₁))).imp ?_
  rintro _ w₂ ⟨hsteps₂, hready₂, hmarks₂⟩
  refine ⟨World.Frame.trans h₁ hready₂, fun v hv => ?_, fun b hb => ?_⟩
  · have hlasts : w₁.Holds v := World.Frame.trans hready₂.holds hv
    rw [hsteps₂, hsteps₁, List.flatMap_singleton,
      InstanceOptions.calls_of_unrendered (hlasts.unrendered hlt₁)]
  · have hmarked : (w₂.instances.getD b default).isMounted =
        (w₁.instances.getD b default).isMounted :=
      hmarks₂.same.read b trivial (h₁.size.symm ▸ hb)
    rw [hmarked, hmarked₁ b hb, List.mem_singleton]

/-- All instances of a queue are marked and run their hook. -/
theorem gives_finishAll (queue : List InstanceId) (hqueue : ∀ c ∈ queue, c < w.instances.size ∧
      (w.instances.getD c default).access = .free) :
    Gives (queue.forM (finishMounted rt run)) w fun _ w' => w.Finished queue w' := by
  induction queue generalizing w with
  | nil => exact Gives.pure (.nil w)
  | cons c rest ih =>
    obtain ⟨⟨hlt, hfree⟩, hrest⟩ := List.forall_mem_cons.mp hqueue
    refine Gives.bind (gives_finishMounted hrun hlt hfree) fun _ w₁ h₁ => ?_
    refine (ih fun c hc => ?_).imp fun _ w₂ h₂ => h₁.trans h₂
    obtain ⟨hlt, hfree⟩ := hrest c hc
    exact ⟨h₁.level.size.symm ▸ hlt, (h₁.level.access_eq hlt).trans hfree⟩

end Eng

/-! ## Mounting a root -/

/-- A root instance that nobody uses. -/
structure World.IsRoot (w : World) (vm : InstanceId) : Prop where
  size : vm < w.instances.size
  free : (w.instances.getD vm default).access = .free
  place : (w.instances.getD vm default).parentVNode = none

/-- Between the two a root instance was mounted, with the families of children that were made for
the tree that it rendered to. -/
structure World.RootMounted (rt : Runtime) (vm : InstanceId) (tree : VNode) (kids : List Family)
    (w w' : World) : Prop where
  preorder : (Family.node vm [(tree, kids)]).preorder =
    vm :: List.range' w.instances.size (w'.instances.size - w.instances.size)
  fits : w'.Fits vm [(tree, kids)]
  regular : ∀ k ∈ kids, k.All (w'.Regular rt w.host)
  steps : w'.steps = w.steps ++ Family.rootStory w'.optionsOf vm tree kids
  marked : ∀ c, w.instances.size ≤ c → c < w'.instances.size →
    ((w'.instances.getD c default).isMounted = true ↔
      c ∈ (Family.node vm [(tree, kids)]).waiting)

section

variable {tree : VNode} {kids : List Family} {w₁ w₂ w₃ : World}

theorem World.Level.holds_of_standing (h : World.Level .standing w₁ w₂) : w₁.Holds w₂ :=
  h.same.holds

/-- Who waits below an instance that was rendered is new, and not in use. -/
theorem World.Shown.free_of_waiting (h : w.Shown rt vm [(tree, kids)] w₁) {c : InstanceId}
    (hc : c ∈ kids.flatMap Family.waiting) :
    c < w₁.instances.size ∧ (w₁.instances.getD c default).access = .free := by
  have hmade : c ∈ Family.made [(tree, kids)] := by
    rw [Family.made, List.flatMap_singleton]
    obtain ⟨k, hk, hck⟩ := List.mem_flatMap.mp hc
    exact List.mem_flatMap.mpr ⟨k, hk, Family.mem_preorder_of_waiting hck⟩
  exact ⟨h.grown.lt_size hmade, (h.grown.fresh c hmade).1⟩

/-- **Rendered, put into the page, finished**: a root is mounted. -/
theorem World.Shown.rootMounted (hshown : w.Shown rt vm [(tree, kids)] w₁)
    (hlevel : World.Level .standing w₁ w₂) (hsteps : w₂.steps = w₁.steps ++ [.patched vm])
    (hfinished : w₂.Finished (Family.node vm [(tree, kids)]).waiting w₃) :
    w.RootMounted rt vm tree kids w₃ := by
  have hholds : w₁.Holds w₃ :=
    World.Frame.trans hlevel.holds_of_standing hfinished.level.holds
  have hsize : w₃.instances.size = w.instances.size + (Family.made [(tree, kids)]).length := by
    rw [hfinished.level.size, hlevel.size, hshown.grown.size]
  refine ⟨?_, hshown.fits w₃ hholds, fun k hk => ?_, ?_, fun c hle hlt => ?_⟩
  · rw [Family.preorder_node, hsize, Nat.add_sub_cancel_left, ← hshown.grown.numbered]
    rfl
  · exact hshown.regular w₃ hholds _ (List.mem_singleton_self _) k hk
  · rw [hfinished.steps w₃ (World.Frame.refl w₃), hsteps, hshown.grown.steps w₃ hholds,
      Family.visitsStory, List.flatMap_singleton, Family.rootStory]
    simp only [List.append_assoc, List.singleton_append]
  · have hc : c ∈ Family.made [(tree, kids)] := by
      rw [hshown.grown.numbered, List.mem_range'_1]
      exact ⟨hle, hsize ▸ hlt⟩
    have hlt₁ := hshown.grown.lt_size hc
    have hunmarked : (w₂.instances.getD c default).isMounted = false :=
      (hlevel.same.isMounted_eq trivial hlt₁).trans (hshown.grown.fresh c hc).2
    rw [hfinished.marked c (hlevel.size.symm ▸ hlt₁), hunmarked]
    exact ⟨fun h => h.resolve_left Bool.false_ne_true, .inr⟩

/-- Nothing happens before. -/
theorem World.RootMounted.after (hw : w.Quiet w₁) (h : w₁.RootMounted rt vm tree kids w₂) :
    w.RootMounted rt vm tree kids w₂ where
  preorder := by
    rw [h.preorder, hw.1.size]
  fits := h.fits
  regular := hw.1.host ▸ h.regular
  steps := by
    rw [h.steps, World.steps, World.steps, show w₁.chronicle = _ from hw.2]
  marked c hle := h.marked c (hw.1.size.symm ▸ hle)

/-- The children are numbered as they are made. -/
theorem World.RootMounted.numbered (h : w.RootMounted rt vm tree kids w₁) :
    kids.flatMap Family.preorder =
      List.range' w.instances.size (w₁.instances.size - w.instances.size) := by
  have hall := h.preorder
  rw [Family.preorder_node, List.flatMap_singleton] at hall
  exact List.tail_eq_of_cons_eq hall

/-- Who was made. -/
theorem World.RootMounted.mem_kids (h : w.RootMounted rt vm tree kids w₁) {c : InstanceId} :
    c ∈ kids.flatMap Family.preorder ↔ w.instances.size ≤ c ∧ c < w₁.instances.size := by
  have hiff : ∀ a b n : Nat, (a ≤ n ∧ n < a + (b - a)) ↔ (a ≤ n ∧ n < b) := fun _ _ _ => by omega
  rw [h.numbered, List.mem_range'_1]
  exact hiff _ _ _

/-- No instance is there twice. -/
theorem World.RootMounted.nodup (h : w.RootMounted rt vm tree kids w₁)
    (hlt : vm < w.instances.size) : (Family.node vm [(tree, kids)]).preorder.Nodup := by
  rw [h.preorder, List.nodup_cons, List.mem_range'_1]
  exact ⟨fun hvm => Nat.not_le_of_lt hlt hvm.1, List.nodup_range'⟩

end

namespace Eng

variable {mount : Mounting} (hrun : ∀ vm args s, Acts (run vm args s))
  (hmount : MountsBelow rt mount)
include hrun hmount

omit hrun hmount in
/-- A tree is put into the host page, and what comes next. -/
theorem gives_patched {target : Option NodeId} {tree : VNode} {hydrating : Bool} {g : Unit → Eng β}
    {Q : β → World → Prop} (hg : ∀ w', World.Level .standing w w' →
      w'.steps = w.steps ++ [.patched vm] → Gives (g ()) w' Q) :
    Gives (patch rt vm target tree hydrating >>= fun el => record vm (.patched vm) >>= fun _ =>
      modifyInstance vm ({ · with el }) >>= g) w Q := by
  have hhost : ∀ {α : Type} (f : Host → α × Host), Within World.Unmoved Halt.Endless (onHost f) :=
    fun f => (World.Level.onHost f).and (Within.modifyGet fun _ => rfl)
  refine Gives.after (within_patch target _ hydrating hhost) fun el w₁ h₁ => ?_
  have hrecord : Gives (record vm (.patched vm)) w₁ fun _ w' =>
      World.Level .standing w₁ w' ∧ w'.steps = w₁.steps ++ [.patched vm] := by
    refine fun _ _ => ⟨(World.Level.record (H := Halt.Endless) _ w₁).1, ?_⟩
    show (w₁.chronicle.push _).toList.map Occurrence.what = _
    rw [Array.toList_push, List.map_append]
    rfl
  -- nothing else happens, and all instances stand as before
  refine Gives.bind hrecord fun _ w₂ ⟨h₂, hsteps₂⟩ => ?_
  refine Gives.after (H := Halt.Endless) (World.Unmoved.set fun _ => rfl) fun _ w₃ h₃ => hg w₃ ?_ ?_
  · exact World.Frame.trans h₁.1 (World.Frame.trans h₂ h₃.1)
  · rw [h₃.steps_eq, hsteps₂, h₁.steps_eq]

omit hmount in
/-- Those that wait below a root are mounted, and then the root is. -/
theorem gives_finish {tree : VNode} {kids : List Family} {w₁ w₂ : World}
    (hshown : w.Shown rt vm [(tree, kids)] w₁) (hlevel : World.Level .standing w₁ w₂)
    (hlt : vm < w.instances.size) (hfree : (w.instances.getD vm default).access = .free) :
    Gives (do
      (kids.flatMap Family.waiting).forM (finishMounted rt run)
      finishMounted rt run vm) w₂ fun _ w' =>
        w₂.Finished (Family.node vm [(tree, kids)]).waiting w' := by
  -- patching the page touched no instance
  have hready : ∀ c, c < w₁.instances.size → (w₁.instances.getD c default).access = .free →
      c < w₂.instances.size ∧ (w₂.instances.getD c default).access = .free := fun c hc hfree =>
    ⟨hlevel.size.symm ▸ hc, (hlevel.same.access_eq trivial hc).trans hfree⟩
  obtain ⟨hlt₂, hfree₂⟩ := hready vm (Nat.lt_of_lt_of_le hlt hshown.grown.same.size)
    ((hshown.grown.same.access_eq trivial hlt).trans hfree)
  refine Gives.bind (gives_finishAll hrun _ fun c hc => ?_) fun _ w₃ h₃ => ?_
  · obtain ⟨hltc, hfreec⟩ := hshown.free_of_waiting hc
    exact hready c hltc hfreec
  · refine (gives_finishMounted hrun (h₃.level.size.symm ▸ hlt₂)
      ((h₃.level.access_eq hlt₂).trans hfree₂)).imp fun _ w₄ h₄ => ?_
    rw [Family.waiting_node]
    exact h₃.trans h₄

/-- The tree of a root is put into the host page, and then all that wait are mounted. -/
theorem gives_patchMount_root (target : Option NodeId) (hydrating : Bool)
    (hlt : vm < w.instances.size) (hfree : (w.instances.getD vm default).access = .free)
    (hroot : (w.instances.getD vm default).parentVNode = none) :
    Gives (patchMount rt run mount vm target hydrating) w fun _ w' =>
      ∃ tree kids, w.RootMounted rt vm tree kids w' := by
  refine Gives.bind (gives_renderBelow hrun hmount target hlt hfree) ?_
  rintro ⟨shown, queue⟩ w₁ ⟨tree, kids, hshown, hqueue⟩
  replace hqueue : queue = kids.flatMap Family.waiting := hqueue
  subst hqueue
  have hlt₁ : vm < w₁.instances.size := Nat.lt_of_lt_of_le hlt hshown.grown.same.size
  refine Gives.after (H := Halt.Endless) (World.Unmoved.set fun _ => rfl)
    fun _ w₂ h₂ => Gives.getInstance ?_
  rw [← hshown.grown.same.parentVNode_eq trivial hlt, ← h₂.1.same.parentVNode_eq trivial hlt₁]
    at hroot
  refine Gives.ite (fun hsome => ?_) fun _ => gives_patched fun w₃ h₃ hsteps₃ => ?_
  · -- only a child keeps its tree to itself
    rw [hroot] at hsome
    cases hsome
  · have hlevel : World.Level .standing w₁ w₃ := World.Frame.trans h₂.1 h₃
    have hsteps : w₃.steps = w₁.steps ++ [.patched vm] := by rw [hsteps₃, h₂.steps_eq]
    refine (gives_finish hrun hshown hlevel hlt hfree).imp fun _ w₄ h₄ => ?_
    exact ⟨tree, kids, hshown.rootMounted hlevel hsteps h₄⟩

end Eng

/-- **Mounting a root** that is not refused: if it succeeds, the root is mounted with everything
below it. -/
theorem Runtime.gives_mount (hpatch : rt.mounter = .patch) (target : Option MountTarget)
    (hydrating : Bool) (hroot : w.IsRoot vm)
    (hopen : (rt.refuses w.host target || (w.optionsOf vm).stopped) = false) :
    Eng.Gives (rt.mount vm target hydrating) w fun _ w' =>
      ∃ tree kids, w.RootMounted rt vm tree kids w' := by
  rw [Runtime.mount]
  generalize hfuel : rt.fuel = fuel
  cases fuel with
  | zero => intro a ha; cases ha
  | succ fuel =>
    have hmount := Eng.mountsBelow_mountAt rt.acts_run hpatch fuel
    refine Eng.Gives.mountWith hpatch hroot.size (fun hclosed => ?_) fun _ w₁ h₁ => ?_
    · rw [hopen] at hclosed
      cases hclosed
    · have hstill : World.Same .standing (fun _ => True) w w₁ := h₁.1.1.same
      refine (Eng.gives_patchMount_root rt.acts_run hmount _ hydrating
        (h₁.1.1.size.symm ▸ hroot.size)
        ((hstill.access_eq trivial hroot.size).trans hroot.free)
        ((hstill.parentVNode_eq trivial hroot.size).trans hroot.place)).imp ?_
      rintro _ w' ⟨tree, kids, h⟩
      exact ⟨tree, kids, h.after h₁.1⟩

/-- What there is after a root was mounted. -/
theorem Runtime.rootMounted (hpatch : rt.mounter = .patch) {target : Option MountTarget}
    {hydrating : Bool} {w' : World} (hroot : w.IsRoot vm)
    (hopen : (rt.refuses w.host target || (w.optionsOf vm).stopped) = false)
    (hmount : (rt.mount vm target hydrating).run.run w = (.ok (), w')) :
    ∃ tree kids, w.RootMounted rt vm tree kids w' := by
  have hgives := Runtime.gives_mount hpatch target hydrating hroot hopen ()
  rw [hmount] at hgives
  exact hgives rfl

end Componentry
