import Componentry.Engine.Api
import Componentry.Proofs.Class.Failure
import Componentry.Proofs.Engine.Children

/-!
# How a mount ends

Rendering an instance with everything below it makes instances and runs author's code, but it does
not touch the host page, marks no instance as mounted and runs no handler of `mounted`. All of that
is left to the landing, at the very end, which nothing but author's code can break off. So a mount
that fails leaves these things alone, at whatever depth the failure came about.

- `World.Spared`: the host page and what belongs to being mounted are as before.
- `Eng.Spares`: mounting children spares them.
- `World.Landed`: a rendered tree landed in the host page.
- `Eng.ends_mountAt`: **a mount** either spares everything or lands, however it goes.
- `failed_mount_spares`: **a mount that fails** spares everything.
-/

namespace Componentry

open Json (Value)

variable {α : Type} {H : Halt → Prop} {rt : Runtime} {run : Runner} {w w' : World}
  {vm : InstanceId}

/-! ## Being spared -/

/-- Whether an instance is mounted, and what it stands for. -/
def Aspect.status : Aspect (Bool × Option Placeholder) where
  read i := (i.isMounted, i.parentVNode)
  acted h := h.read (fun i => (i.isMounted, i.parentVNode)) fun _ => rfl
  access _ _ _ h := h

/-- Between the two the host page is the same, no handler of `mounted` began to run, and no instance
was marked as mounted. The instances of `P` that there are stand for what they stood for. -/
structure World.Spared (P : InstanceId → Prop) (w w' : World) : Prop where
  same : World.Same .status P w w'
  unmarked : ∀ b, (w'.instances.getD b default).isMounted = true →
    (w.instances.getD b default).isMounted = true
  host : w'.host = w.host
  steps : ∃ new, w'.steps = w.steps ++ new ∧ ∀ s ∈ new, s.isCall .mounted = false

namespace World.Spared

variable {P : InstanceId → Prop} {w'' : World}

/-- Nothing happened, and no instance was marked. -/
theorem of_still (hsame : World.Same .status P w w') (hunmarked : ∀ b,
      (w'.instances.getD b default).isMounted = (w.instances.getD b default).isMounted)
    (hhost : w'.host = w.host) (hstill : w'.chronicle = w.chronicle) : World.Spared P w w' where
  same := hsame
  unmarked b h := hunmarked b ▸ h
  host := hhost
  steps := ⟨[], by rw [World.steps, hstill, List.append_nil]; rfl, fun s hs => by cases hs⟩

theorem trans (h : World.Spared P w w') (h' : World.Spared P w' w'') : World.Spared P w w'' where
  same := World.Frame.trans h.same h'.same
  unmarked b hb := h.unmarked b (h'.unmarked b hb)
  host := h'.host.trans h.host
  steps := by
    obtain ⟨new, hnew, hcalls⟩ := h.steps
    obtain ⟨new', hnew', hcalls'⟩ := h'.steps
    refine ⟨new ++ new', by rw [hnew', hnew, List.append_assoc], fun s hs => ?_⟩
    rcases List.mem_append.mp hs with hs | hs
    · exact hcalls s hs
    · exact hcalls' s hs

instance : World.Lax (World.Spared P) where
  refl w := of_still (World.Frame.refl w) (fun _ => rfl) rfl rfl
  trans := trans
  acted h := of_still (World.Tolerant.acted h)
    (fun b => (h.instances b).read (·.isMounted) fun _ => rfl) (h.read (·.host) fun _ => rfl)
    (h.read (·.chronicle) fun _ => rfl)
  access {w w' vm a} h := by
    have hused : ∀ (a : Access) (v : World) (b : InstanceId),
        ((Eng.setAccess vm a v).instances.getD b default).isMounted =
          (v.instances.getD b default).isMounted := fun a v b =>
      forall_getD_modify (P := fun i i' => i'.isMounted = i.isMounted) (fun _ => rfl) rfl b
    refine ⟨World.Tolerant.access h.same, fun b hb => ?_, h.host, h.steps⟩
    rw [hused] at hb
    exact hused a w b ▸ h.unmarked b hb
  aside hi hc hh := of_still (World.Lax.aside hi hc hh) (fun _ => by rw [hi]) hh hc

theorem set {f : Instance → Instance} (hf : ∀ i, Aspect.status.read (f i) = Aspect.status.read i) :
    Eng.Within (World.Spared P) H (Eng.modifyInstance vm f) :=
  Eng.Within.modifyInstance vm fun w => of_still (World.Same.modify w fun _ => hf _)
    (forall_getD_modify (P := fun i i' => i'.isMounted = i.isMounted) (fun _ => rfl)
      (congrArg Prod.fst (hf _))) rfl rfl

/-- Telling of anything but a handler of `mounted`. -/
theorem tell {what : Happening} (hwhat : what.isCall .mounted = false) :
    Eng.Within (World.Spared P) H (Eng.record vm what) := by
  refine Eng.Within.modifyGet fun w => ⟨⟨Nat.le_refl _, fun _ _ _ => rfl⟩, fun _ h => h, rfl,
    [what], ?_, fun s hs => ?_⟩
  · show (w.chronicle.push _).toList.map Occurrence.what = _
    rw [Array.toList_push, List.map_append]
    rfl
  · rw [List.mem_singleton.mp hs]
    exact hwhat

theorem mono {P' : InstanceId → Prop} (h : World.Spared P w w') (hP : ∀ b, P' b → P b) :
    World.Spared P' w w' where
  same := ⟨h.same.size, fun b hb => h.same.read b (hP b hb)⟩
  unmarked := h.unmarked
  host := h.host
  steps := h.steps

/-- Of an instance that is there it is said whether it is mounted; a new one is not. -/
theorem isMounted_eq (h : World.Spared (fun _ => True) w w') (b : InstanceId) :
    (w'.instances.getD b default).isMounted = (w.instances.getD b default).isMounted := by
  by_cases hb : b < w.instances.size
  · exact congrArg Prod.fst (h.same.read b trivial hb)
  · have hnew : (w.instances.getD b default).isMounted = false := by
      rw [getD_of_size_le (Nat.le_of_not_lt hb)]
      rfl
    have hnot := mt (h.unmarked b) (Bool.not_eq_true _ ▸ hnew)
    rw [hnew, Bool.eq_false_iff]
    exact hnot

end World.Spared

/-! ## Making children -/

/-- Mounting an instance that stands for a placeholder spares everything. -/
def Eng.Spares (mount : Mounting) : Prop :=
  ∀ w c target hydrating, (w.instances.getD c default).parentVNode.isSome →
    Ends (mount c target hydrating) w fun _ w' => World.Spared (fun _ => True) w w'

/-- An instance that stands for a placeholder is there. -/
theorem World.lt_size_of_place {c : InstanceId}
    (h : (w.instances.getD c default).parentVNode.isSome) : c < w.instances.size := by
  refine Nat.lt_of_not_le fun hle => ?_
  rw [getD_of_size_le hle] at h
  cases h

/-- Initializing an instance runs no handler of `mounted`. -/
theorem InstanceOptions.isCall_of_initSteps {o : InstanceOptions} {s : Happening}
    (hs : s ∈ o.initSteps vm) : s.isCall .mounted = false := by
  have hnone : (o.initSteps vm).filter (Happening.isCall .mounted) = [] := by
    rw [Family.filter_initSteps (o := fun _ => o), if_neg (by nofun)]
  rw [Bool.eq_false_iff]
  exact List.filter_eq_nil_iff.mp hnone s hs

namespace Eng

/-- Finding a place in the tree never fails. -/
theorem initPlace_ok (w : World) : ((initPlace rt vm).run.run w).1 = .ok () := by
  have hnever : Within (World.Standing (· ≠ vm)) (fun _ => False) (initPlace rt vm) :=
    within_initPlace (Raising.placing (World.Standing.raising vm))
  cases hr : ((initPlace rt vm).run.run w).1 with
  | error e => exact ((hnever w).2 e hr).elim
  | ok a => rfl

/-- However the phases of an instance end, it is not mounted, and it stands for what its options say
it stands for. -/
theorem ends_wired (hrun : ∀ vm args s, Acts (run vm args s)) (hlt : vm < w.instances.size) :
    Ends (initPhases rt run vm) w fun _ w' =>
      (w'.instances.getD vm default).isMounted = false ∧
      (w'.instances.getD vm default).parentVNode = (w.optionsOf vm).parentVNode := by
  have hoptions : Within (World.Same (.kept fun _ => ()) (· = vm)) Halt.Endless
      (initPhases rt run vm) :=
    within_initPhases (Aspect.kept_raising (· = vm) vm) (Within.run hrun)
  have hown : Within (World.Same .wiring (· = vm)) Halt.Endless (initOwn rt run vm) := by
    refine within_initOwn (World.Same.allows fun _ i i' h => ?_) (Within.run hrun)
    exact Instance.read_of_unfilled h Aspect.wiring.read fun _ => rfl
  have hwired : Ends (initPhases rt run vm) w fun _ w' =>
      (w'.instances.getD vm default).isMounted = false ∧
      (w'.instances.getD vm default).parentVNode =
        (w'.instances.getD vm default).options.parentVNode := by
    have hplace : Ends (initPlace rt vm) w fun r w₁ => r = .ok () ∧
        ∀ a, r = .ok a → (w₁.instances.getD vm default).isMounted = false ∧
          (w₁.instances.getD vm default).parentVNode =
            (w₁.instances.getD vm default).options.parentVNode ∧ vm < w₁.instances.size :=
      ⟨initPlace_ok w, gives_initPlace hlt⟩
    refine Ends.bind hplace (fun a w₁ ⟨hr, h⟩ => ?_) fun e w₁ ⟨hr, _⟩ => by cases hr
    obtain ⟨hmounted, hvnode, hlt₁⟩ := h a rfl
    -- the later phases leave all of this alone, also where they break off
    refine (Ends.of_within hown w₁).imp fun r w₂ ⟨h₂, _⟩ => ?_
    have hread := h₂.read vm rfl hlt₁
    refine ⟨(congrArg Prod.fst hread).trans hmounted, ?_⟩
    have hplace := congrArg (fun s => s.2.1) hread
    have hoptions := congrArg (fun s => s.2.2) hread
    exact hplace.trans (hvnode.trans hoptions.symm)
  refine (hwired.and (Ends.of_within hoptions w)).imp ?_
  rintro r w' ⟨⟨hmounted, hplace⟩, hsame, -⟩
  refine ⟨hmounted, hplace.trans ?_⟩
  rw [World.optionsOf, hsame.options hlt]

/-- However the phases of a child end, everything is spared, and it stands for its placeholder. -/
theorem ends_childPhases_spared (hrun : ∀ vm args s, Acts (run vm args s)) {child : InstanceId}
    {p : Placeholder} {w₁ : World} (hprepared : w.Prepared child w₁)
    (hstanding : World.Standing (· ≠ child) w w₁)
    (hplaceholder : (w₁.optionsOf child).parentVNode = some p) :
    Ends (initPhases rt run child) w₁ fun _ w₂ => World.Spared (· ≠ child) w w₂ ∧
      (w₂.instances.getD child default).parentVNode = some p := by
  have hothers : Within (World.Standing (· ≠ child)) Halt.Endless (initPhases rt run child) :=
    within_initPhases (World.Standing.raising child) (Within.run hrun)
  refine ((ends_initPhases hrun hprepared).and <| (Ends.of_within hothers w₁).and
    (ends_wired hrun hprepared.size)).imp ?_
  rintro r w₂ ⟨⟨hcreated, hendless⟩, ⟨hstanding₂, -⟩, hmounted, hplace⟩
  have hall : World.Standing (· ≠ child) w w₂ := World.Frame.trans hstanding hstanding₂
  refine ⟨⟨⟨hall.same.size, fun b hb hlt => ?_⟩, fun b hb => ?_, hall.host, ?_⟩,
    hplace.trans hplaceholder⟩
  · exact Prod.ext (hall.same.isMounted_eq hb hlt) (hall.same.parentVNode_eq hb hlt)
  · by_cases hchild : b = child
    · rw [hchild, hmounted] at hb
      cases hb
    · by_cases hlt : b < w.instances.size
      · rwa [hall.same.isMounted_eq hchild hlt] at hb
      · rw [getD_of_size_le (hall.size ▸ Nat.le_of_not_lt hlt)] at hb
        cases hb
  · cases r with
    | ok a =>
      refine ⟨_, (hcreated rfl).steps, fun s hs => ?_⟩
      rcases List.mem_cons.mp hs with rfl | hs
      · rfl
      · exact InstanceOptions.isCall_of_initSteps hs
    | error e =>
      obtain ⟨-, done, hbefore, hsteps⟩ := hendless e rfl
      refine ⟨_, hsteps, fun s hs => ?_⟩
      rcases List.mem_cons.mp hs with rfl | hs
      · rfl
      · exact InstanceOptions.isCall_of_initSteps (hbefore.subset hs)

/-- Initializing a child spares everything, also if it is mounted already on the element that its
options name. -/
theorem ends_setUp_spared {mount : Mounting} (hrun : ∀ vm args s, Acts (run vm args s))
    (hmount : Spares mount) {parent child : InstanceId} {p : Placeholder}
    (hblank : w.instances[child]? = some { ctor := p.ctor }) :
    Ends (setUp rt run mount child (.child parent p none [])) w fun _ w' =>
      World.Spared (· ≠ child) w w' ∧
        (w'.instances.getD child default).parentVNode = some p := by
  refine Ends.setUp (Q := fun _ w₂ => World.Spared (· ≠ child) w w₂ ∧
      (w₂.instances.getD child default).parentVNode = some p) hblank
    (ends_childOptions hblank) ?unresolved ?phases (fun _ _ h => h) ?mounted
  case unresolved =>
    rintro e w₁ ⟨hok, -⟩
    cases hok
  case phases =>
    rintro w₁ ⟨-, hprepared, hstanding, -, -, hplaceholder⟩
    exact ends_childPhases_spared hrun hprepared hstanding hplaceholder
  case mounted =>
    rintro w₂ ready ⟨hspared, hplace⟩ hinstances hchronicle hhost
    have hready : World.Spared (· ≠ child) w ready :=
      hspared.trans (World.Lax.aside hinstances hchronicle hhost)
    rw [← hinstances] at hplace
    rw [mountNamed]
    cases (ready.optionsOf child).field (·.el) with
    | none => exact ⟨hready, hplace⟩
    | some el =>
      have hsome : (ready.instances.getD child default).parentVNode.isSome := by
        rw [hplace]
        rfl
      refine (hmount ready child (some el) false hsome).imp fun r w' h => ⟨?_, ?_⟩
      · exact hready.trans (h.mono fun _ _ => trivial)
      · have hread := h.same.read child trivial (World.lt_size_of_place hsome)
        exact (congrArg Prod.snd hread).trans hplace

/-- **Making a child** spares everything, and a child that is made stands for a placeholder. -/
theorem ends_createChild_spared {mount : Mounting} (hrun : ∀ vm args s, Acts (run vm args s))
    (hmount : Spares mount) (parent : InstanceId) (p : Placeholder) :
    Ends (createChild rt run mount parent p) w fun r w' => World.Spared (fun _ => True) w w' ∧
      ∀ c, r = .ok c → (w'.instances.getD c default).parentVNode.isSome := by
  refine Ends.after (R := World.Spared fun _ => True) (H := fun _ => True)
    (Within.forging (fun _ => trivial) _) (fun _ w₁ h₁ => ?_) fun e w₁ h₁ _ =>
      ⟨h₁, fun c hc => by cases hc⟩
  -- the blank instance is new, and the others are as they were
  let w₂ : World := { w₁ with instances := w₁.instances.push { ctor := p.ctor } }
  have hnew : w₂.instances[w₁.instances.size]? = some { ctor := p.ctor } :=
    Array.getElem?_push_size
  have hold : ∀ w', World.Spared (· ≠ w₁.instances.size) w₂ w' →
      World.Spared (fun _ => True) w₁ w' := by
    intro w' h
    refine ⟨h.same.of_push, fun b hb => ?_, h.host, h.steps⟩
    have hmarked : ((w₁.instances.push { ctor := p.ctor }).getD b default).isMounted = true :=
      h.unmarked b hb
    by_cases hb : b = w₁.instances.size
    · rw [hb, getD_push_size] at hmarked
      cases hmarked
    · rwa [getD_push_of_ne hb] at hmarked
  refine Ends.make (ends_setUp_spared hrun hmount hnew) (fun w₃ ⟨h₃, hplace⟩ => ?_)
    fun e w₃ ⟨h₃, _⟩ => ⟨h₁.trans (hold w₃ h₃), nofun⟩
  refine ⟨h₁.trans (hold w₃ h₃), fun c hc => ?_⟩
  cases hc
  show (w₃.instances.getD w₁.instances.size default).parentVNode.isSome
  rw [hplace]
  rfl

theorem ends_expandPlaceholder_spared {mount : Mounting}
    (hrun : ∀ vm args s, Acts (run vm args s)) (hmount : Spares mount) (parent : InstanceId)
    (p : Placeholder) :
    Within (World.Spared fun _ => True) (fun _ => True)
      (expandPlaceholder rt run mount parent p) := by
  intro w
  refine ⟨?_, fun _ _ => trivial⟩
  show Ends (expandPlaceholder rt run mount parent p) w fun _ w' =>
    World.Spared (fun _ => True) w w'
  refine Ends.bind (ends_createChild_spared hrun hmount parent p) (fun child w₁ ⟨h₁, hplace⟩ => ?_)
    fun e w₁ ⟨h₁, _⟩ => h₁
  refine Ends.bind (hmount w₁ child none false (hplace child rfl)) (fun _ w₂ h₂ => ?_)
    fun e w₂ h₂ => h₁.trans h₂
  have hrest : Within (World.Spared fun _ => True) (fun _ => True) (do
      let i ← getInstance child
      modifyInstance child ({ · with pendingMounted := [] })
      return (i.vnode.getD .empty, i.pendingMounted ++ [child])) :=
    (Within.getInstance child).bind fun _ =>
      Within.bind (World.Spared.set fun _ => rfl) fun _ => Within.pure _
  exact (Ends.of_within hrest w₂).imp fun _ w₃ ⟨h₃, _⟩ => (h₁.trans h₂).trans h₃

/-- **Rendering** an instance with everything below it spares everything, at whatever depth it
breaks off. -/
theorem spared_renderBelow {mount : Mounting} (hrun : ∀ vm args s, Acts (run vm args s))
    (hmount : Spares mount) (vm : InstanceId) (target : Option NodeId) :
    Within (World.Spared fun _ => True) (fun _ => True) (renderBelow rt run mount vm target) :=
  within_renderBelow (fun vm args s => Within.act (hrun vm args s).anyHalt) trivial
    (fun _ => World.Spared.set fun _ => rfl) (fun _ => World.Spared.set fun _ => rfl)
    (fun _ => World.Spared.tell rfl) (fun _ => World.Spared.tell rfl)
    (ends_expandPlaceholder_spared hrun hmount vm) target

end Eng

/-! ## Landing -/

/-- Between the two, everything was spared until a rendered tree landed in the host page, in the
place of a node that may be replaced. -/
inductive World.Landed (rt : Runtime) (vm : InstanceId) (w : World) :
    Except Halt Unit → World → Prop
  | intro {w₁ w' : World} {r : Except Halt Unit} {target : Option NodeId} {tree : VNode}
      {queue : List InstanceId} {hydrating : Bool}
      (before : World.Spared (fun _ => True) w w₁)
      (root : (w₁.instances.getD vm default).parentVNode = none)
      (allowed : target.any w.host.isDocumentRoot = false)
      (landing : (Eng.land rt rt.run vm target tree queue hydrating).run.run w₁ = (r, w')) :
      World.Landed rt vm w r w'

/-- A landing is broken off by nothing but author's code that never ends. -/
theorem World.Landed.endless {e : Halt} (h : w.Landed rt vm (.error e) w') : e.Endless := by
  obtain ⟨-, -, -, hlanding⟩ := h
  rename_i w₁ target tree queue hydrating
  have hland : Eng.Within (World.Onward fun _ => True) Halt.Endless
      (Eng.land rt rt.run vm target tree queue hydrating) :=
    Eng.within_land World.Onward.showing (Eng.Within.run rt.acts_run) vm target tree queue hydrating
  refine (hland w₁).2 e ?_
  rw [hlanding]

/-- What was spared before does not count. -/
theorem World.Landed.after {w₀ : World} {r : Except Halt Unit}
    (hw : World.Spared (fun _ => True) w₀ w) (h : w.Landed rt vm r w') : w₀.Landed rt vm r w' := by
  obtain ⟨hbefore, hroot, hallowed, hlanding⟩ := h
  exact .intro (hw.trans hbefore) hroot (hw.host ▸ hallowed) hlanding

namespace Eng

variable {mount : Mounting} (hmount : Spares mount)
include hmount

/-- What is rendered lands, unless the instance stands for a placeholder. -/
theorem ends_patchMount {target : Option NodeId}
    (hallowed : target.any w.host.isDocumentRoot = false) (hydrating : Bool) :
    Ends (patchMount rt rt.run mount vm target hydrating) w fun r w' =>
      World.Spared (fun _ => True) w w' ∨ w.Landed rt vm r w' := by
  rw [patchMount_eq]
  refine Ends.after (spared_renderBelow rt.acts_run hmount vm target) ?_ fun e w₁ h₁ _ => .inl h₁
  rintro ⟨tree, queue⟩ w₁ h₁
  have hset : ∀ {f : Instance → Instance}, (∀ i, Aspect.status.read (f i) = Aspect.status.read i) →
      Within (World.Spared fun _ => True) (fun _ => True) (modifyInstance vm f) := fun hf =>
    World.Spared.set hf
  refine Ends.step (hset fun _ => rfl) rfl fun w₂ h₂ => ?_
  refine Ends.next (a := w₂.instances.getD vm default) rfl ?_
  cases hplace : (w₂.instances.getD vm default).parentVNode with
  | some p =>
    have hpending : Within (World.Spared fun _ => True) (fun _ => True)
        (modifyInstance vm ({ · with pendingMounted := queue })) := hset fun _ => rfl
    exact .inl ((h₁.trans h₂).trans (hpending w₂).1)
  | none => exact .inr (.intro (h₁.trans h₂) hplace hallowed rfl)

theorem ends_mountOn (el : Option NodeId) (hydrating : Bool) :
    Ends (mountOn rt rt.run mount vm el hydrating) w fun r w' =>
      World.Spared (fun _ => True) w w' ∨ w.Landed rt vm r w' := by
  have hspared : ∀ {α : Type} {m : Eng α} {w : World},
      Within (World.Spared fun _ => True) (fun _ => True) m →
        Ends m w fun _ w' => World.Spared (fun _ => True) w w' := fun hm => (hm _).1
  refine Ends.next (a := el.any w.host.isDocumentRoot) (v := w) ?_ ?_
  · cases el <;> rfl
  cases hallowed : el.any w.host.isDocumentRoot with
  | true => exact (hspared (within_warn vm _)).imp fun _ _ => .inl
  | false =>
    refine Ends.after (R := World.Spared fun _ => True) (H := fun _ => True)
      (within_ensureRender el fun _ _ => World.Spared.set fun _ => rfl) (fun ready w₁ h₁ => ?_)
      fun e w₁ h₁ _ => .inl h₁
    cases ready with
    | false => exact .inl h₁
    | true =>
      cases hmounter : rt.mounter with
      | recorder =>
        exact (hspared (within_recordMount el hydrating)).imp fun _ w₂ h₂ => .inl (h₁.trans h₂)
      | patch =>
        rw [← h₁.host] at hallowed
        refine (ends_patchMount hmount hallowed hydrating).imp fun r w₂ h₂ => ?_
        exact h₂.imp h₁.trans (World.Landed.after h₁)

theorem ends_mountWith (target : Option MountTarget) (hydrating : Bool) :
    Ends (mountWith rt rt.run mount vm target hydrating) w fun r w' =>
      World.Spared (fun _ => True) w w' ∨ w.Landed rt vm r w' := by
  cases target with
  | none => exact ends_mountOn hmount none hydrating
  | some t =>
    refine Ends.after (R := World.Spared fun _ => True) (H := fun _ => True)
      (within_resolveTarget t) (fun el w₁ h₁ => ?_) fun e w₁ h₁ _ => .inl h₁
    exact (ends_mountOn hmount el hydrating).imp fun r w₂ h₂ => h₂.imp h₁.trans (.after h₁)

omit hmount in
/-- What stands for a placeholder does not land. -/
theorem Spares.of_ends (h : ∀ w vm target hydrating, Ends (mount vm target hydrating) w fun r w' =>
      World.Spared (fun _ => True) w w' ∨ w.Landed rt vm r w') : Spares mount := by
  intro w c target hydrating hplace
  refine (h w c target hydrating).imp fun r w' h => ?_
  rcases h with hspared | ⟨hbefore, hroot, -, -⟩
  · exact hspared
  · have hread := hbefore.same.read c trivial (World.lt_size_of_place hplace)
    have hnone := (congrArg Prod.snd hread).symm.trans hroot
    rw [show (w.instances.getD c default).parentVNode = none from hnone] at hplace
    cases hplace

end Eng

/-- **A mount** either spares everything or lands, however it goes. -/
theorem Eng.ends_mountAt (rt : Runtime) (fuel : Nat) (w : World) (vm : InstanceId)
    (target : Option MountTarget) (hydrating : Bool) :
    Ends (mountAt rt rt.run fuel vm target hydrating) w fun r w' =>
      World.Spared (fun _ => True) w w' ∨ w.Landed rt vm r w' := by
  induction fuel generalizing w vm target hydrating with
  | zero => exact .inl (World.Frame.refl w)
  | succ fuel ih => exact ends_mountWith (.of_ends ih) target hydrating

/-- **A mount that fails** leaves the host page alone, at whatever depth the failure came about and
whatever author's code did until then. No handler of `mounted` began to run, and no instance, old or
new, has been marked as mounted. -/
theorem failed_mount_spares (rt : Runtime) {target : Option MountTarget} {hydrating : Bool}
    {e : Error} (hfail : (rt.mount vm target hydrating).run.run w = (.error (.fatal e), w')) :
    w'.host = w.host ∧
      (∃ new, w'.steps = w.steps ++ new ∧ ∀ s ∈ new, s.isCall .mounted = false) ∧
      ∀ b, (w'.instances.getD b default).isMounted = (w.instances.getD b default).isMounted := by
  have hends := Eng.ends_mountAt rt rt.fuel w vm target hydrating
  rw [Eng.Ends, show (Eng.mountAt rt rt.run rt.fuel vm target hydrating).run.run w = _ from hfail]
    at hends
  rcases hends with hspared | hlanded
  · exact ⟨hspared.host, hspared.steps, hspared.isMounted_eq⟩
  · cases hlanded.endless

/-- A page with one element in its body. -/
def plainPage : Host where
  nodes := #[{ kind := .document, children := [1] },
    { kind := .element ⟨.html, "html"⟩ [], parent := some 0, children := [2] },
    { kind := .element ⟨.html, "body"⟩ [], parent := some 1, children := [3] },
    { kind := .element ⟨.html, "main"⟩ [], parent := some 2 }]

/-- A class with a list of tags, and a class under it. The list has become a number since. -/
def brittleClasses : History :=
  (((History.start joinedTags).step joinedTags
    (.extend rootClass { fields := { extra := [("tags", .arr [.str "a"])] } })).step joinedTags
      (.extend 1 {})).step joinedTags (.edit 1 [.custom "tags" (.num (.int 7))])

/-- A root with a branch in it. The branch renders a leaf, whose class cannot be resolved. -/
def brittleTree : Options :=
  let branch : Options := {
    fields := { render := some (.new (.spec (.element "p" [] [.component "leaf" [] [] []]))) }
    components := some (.new ⟨[("leaf", .ofClass 2)], []⟩) }
  { fields := {
      hooks := some (.new [(.beforeMount, [⟨0, []⟩]), (.mounted, [⟨1, []⟩])])
      render := some (.new (.spec (.element "div" [] [.component "branch" [] [] []]))) }
    components := some (.new ⟨[("branch", .definition none branch)], []⟩) }

theorem failed_mount_spares_brittleTree :
    let rt : Runtime := { config := joinedTags, page := some 0, fuel := 5 }
    let w := ((rt.create 0 brittleTree).run.run
      { forest := brittleClasses.forest, host := plainPage }).2
    ∃ e w', (rt.mount 0 (some (.node 3)) false).run.run w = (.error (.fatal e), w') ∧
      w'.instances.size = 2 ∧ w'.host = w.host ∧
      (w'.instances.getD 0 default).isMounted = false ∧
      (w'.instances.getD 1 default).isMounted = false := by
  intro rt w
  obtain ⟨e, w', hfail⟩ : ∃ e w', (rt.mount 0 (some (.node 3)) false).run.run w =
      (.error (.fatal e), w') := Eng.run_eq_fatal (by decide +kernel)
  -- by then the root and the branch are there
  have hsize : ((rt.mount 0 (some (.node 3)) false).run.run w).2.instances.size = 2 := by
    decide +kernel
  rw [hfail] at hsize
  obtain ⟨hhost, -, hmounted⟩ := failed_mount_spares rt hfail
  refine ⟨e, w', hfail, hsize, hhost, (hmounted 0).trans ?_, (hmounted 1).trans ?_⟩ <;>
    decide +kernel

end Componentry
