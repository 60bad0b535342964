import Componentry.Proofs.Class.Failure
import Componentry.Proofs.Engine.Growing
import Componentry.Proofs.Engine.Requests
import Mathlib.Data.List.Induction

/-!
# Initializing more than once

An instance is initialized once. A call on an instance in use fails and leaves it as it was, and the
next call may succeed. Any other call begins the initialization, and from then on all calls only
warn. So if the options of an instance cannot be found in that first call, no later call can make up
for it.

- `Progress`, `Progress.Rests`: how far an instance is, and getting no further.
- `InstanceOptions.Compiled`, `Eng.rests_ensureRender`: what compiling may make of options.
- `Eng.Call`, `Eng.ends_setUp_call`: **the ways in which a call can go**.
- `Request.within_rests`: requests take only those instances further that they initialize.
- `Runtime.Begun`: the call among a number of requests that began the initialization.
- `Runtime.Stage`, `Runtime.stage_after`: **how far an instance is** after any number of requests.
- `setUp_ok`: what is there **when a call succeeds**.
-/

namespace Componentry

variable {rt : Runtime} {run : Runner} {w w' : World} {vm : InstanceId} {c : ClassId}

/-! ## How far an instance is -/

/-- Options without render functions of their own. -/
def InstanceOptions.uncompiled (o : InstanceOptions) : InstanceOptions :=
  { o with own := o.own.mapFields fun f => { f with render := none, staticRenderFns := none } }

/-- What compiling may make of options. Those that have a render function stay as they are. Others
stay so but for render functions of their own. -/
structure InstanceOptions.Compiled (o o' : InstanceOptions) : Prop where
  rest : o'.uncompiled = o.uncompiled
  kept : (o.part (·.render)).isSome → o' = o

namespace InstanceOptions.Compiled

variable {o o' o'' : InstanceOptions}

theorem refl (o : InstanceOptions) : o.Compiled o := ⟨rfl, fun _ => rfl⟩

theorem trans (h : o.Compiled o') (h' : o'.Compiled o'') : o.Compiled o'' where
  rest := h'.rest.trans h.rest
  kept hrender := by
    have hsame := h.kept hrender
    subst hsame
    exact h'.kept hrender

/-- Nothing is compiled into the parent. -/
theorem parent (h : o.Compiled o') : o'.parent = o.parent :=
  (congrArg InstanceOptions.parent h.rest :)

end InstanceOptions.Compiled

/-- How far an instance is. -/
structure Progress where
  ctor : ClassId
  phase : Phase
  options : InstanceOptions

def Instance.progress (i : Instance) : Progress := ⟨i.ctor, i.phase, i.options⟩

def Aspect.progress : Aspect Progress where
  read := Instance.progress
  acted h := h.read Instance.progress fun _ => rfl
  access _ _ _ h := h

/-- The same, but for the render functions. -/
def Aspect.outline : Aspect Progress where
  read i := { i.progress with options := i.options.uncompiled }
  acted h := h.read (fun i => { i.progress with options := i.options.uncompiled }) fun _ => rfl
  access _ _ _ h := h

/-- How far an instance is in a world. -/
def World.progress (w : World) (vm : InstanceId) : Progress :=
  (w.instances.getD vm default).progress

theorem World.progress_congr (h : w'.instances = w.instances) : w'.progress vm = w.progress vm := by
  rw [progress, h, progress]

/-- Using an instance takes none any further. -/
theorem World.progress_setAccess (b : InstanceId) (a : Access) (w : World) :
    (Eng.setAccess b a w).progress vm = w.progress vm :=
  forall_getD_modify (P := fun i i' => i'.progress = i.progress) (fun _ => rfl) rfl vm

/-- An instance got no further. At most something was compiled for it. -/
structure Progress.Rests (p p' : Progress) : Prop where
  ctor : p'.ctor = p.ctor
  phase : p'.phase = p.phase
  options : p.options.Compiled p'.options

namespace Progress.Rests

variable {p p' p'' : Progress}

theorem refl (p : Progress) : p.Rests p := ⟨rfl, rfl, .refl _⟩

theorem trans (h : p.Rests p') (h' : p'.Rests p'') : p.Rests p'' where
  ctor := h'.ctor.trans h.ctor
  phase := h'.phase.trans h.phase
  options := h.options.trans h'.options

end Progress.Rests

/-- The instances of `P` that there are got no further. -/
structure World.Rests (P : InstanceId → Prop) (w w' : World) : Prop where
  size : w.instances.size ≤ w'.instances.size
  progress : ∀ b, P b → b < w.instances.size → (w.progress b).Rests (w'.progress b)

namespace World.Rests

variable {P : InstanceId → Prop} {w'' : World} {H : Halt → Prop}

theorem of_same (h : World.Same .progress P w w') : Rests P w w' where
  size := h.size
  progress b hb hlt := by
    have hsame : w'.progress b = w.progress b := h.read b hb hlt
    exact hsame ▸ .refl _

theorem trans (h : Rests P w w') (h' : Rests P w' w'') : Rests P w w'' where
  size := Nat.le_trans h.size h'.size
  progress b hb hlt :=
    (h.progress b hb hlt).trans (h'.progress b hb (Nat.lt_of_lt_of_le hlt h.size))

theorem mono {P' : InstanceId → Prop} (h : Rests P w w') (hP : ∀ b, P' b → P b) :
    Rests P' w w' := ⟨h.size, fun b hb => h.progress b (hP b hb)⟩

instance : World.Lax (Rests P) where
  refl w := of_same (.refl w)
  trans := trans
  acted h := of_same (World.Tolerant.acted h)
  access {w w' vm a} h := by
    have hsize : w.instances.size ≤ w'.instances.size :=
      (Array.size_modify : (Eng.setAccess vm a w).instances.size = _) ▸ h.size
    refine ⟨Nat.le_trans hsize (Nat.le_of_eq Array.size_modify.symm), fun b hb hlt => ?_⟩
    rw [World.progress_setAccess]
    exact World.progress_setAccess vm a w ▸ h.progress b hb (Array.size_modify.symm ▸ hlt)
  aside hi hc hh := of_same (World.Lax.aside hi hc hh)

/-- A blank instance is new, and the others are as they were. -/
theorem of_push {ctor : ClassId}
    (h : Rests (· ≠ w.instances.size) { w with instances := w.instances.push { ctor } } w') :
    Rests (fun _ => True) w w' where
  size := size_le_of_push h.size
  progress b _ := forall_of_push (P := fun b i => i.progress.Rests (w'.progress b)) h.progress b

/-- Others do not notice that an instance is initialized. -/
theorem raising {c : InstanceId} (hc : ¬P c) : Eng.Raising (Rests P) c where
  own _ w := of_same (World.Same.modify w fun h => absurd h hc)
  record _ _ := of_same ⟨Nat.le_refl _, fun _ _ _ => rfl⟩
  adopt _ w := of_same (World.Same.modify w fun _ => rfl)

theorem set {f : Instance → Instance} (hf : ∀ i, P vm → (f i).progress = i.progress) :
    Eng.Within (Rests P) H (Eng.modifyInstance vm f) :=
  (World.Same.set hf).mono fun _ _ => of_same

end World.Rests

namespace Eng

variable {H : Halt → Prop}

/-- **Compiling** for an instance is nothing to those that have a render function. -/
theorem rests_ensureRender (rt : Runtime) (vm : InstanceId) (el : Option NodeId) :
    Within (World.Rests fun _ => True) H (ensureRender rt vm el) := by
  intro w
  by_cases hrender : ((w.optionsOf vm).part (·.render)).isSome
  · show Ends (ensureRender rt vm el) w fun r w' =>
      World.Rests (fun _ => True) w w' ∧ ∀ e, r = .error e → H e
    rw [ensureRender]
    refine Ends.next (a := w.instances.getD vm default) (v := w) rfl ?_
    rw [if_pos (show ((w.instances.getD vm default).options.part _).isSome from hrender)]
    exact ⟨World.Frame.refl w, nofun⟩
  · have hothers : Within (World.Same .progress (· ≠ vm)) H (ensureRender rt vm el) :=
      within_ensureRender el fun _ _ => World.Same.set fun _ h => absurd rfl h
    have houtline : Within (World.Same .outline fun _ => True) H (ensureRender rt vm el) :=
      within_ensureRender el fun _ _ => World.Same.set fun _ _ => rfl
    obtain ⟨hsame, hH⟩ := houtline w
    refine ⟨⟨hsame.size, fun b _ hlt => ?_⟩, hH⟩
    by_cases hb : b = vm
    · subst hb
      have hread := hsame.read b trivial hlt
      refine ⟨(congrArg Progress.ctor hread :), (congrArg Progress.phase hread :), ?_⟩
      exact ⟨(congrArg Progress.options hread :), fun h => absurd h hrender⟩
    · have hread : _ = w.progress b := (hothers w).1.read b hb hlt
      exact hread ▸ .refl _

/-- Making an instance takes no other any further, if mounting does not. -/
theorem rests_make {mount : Mounting} (hmount : ∀ c el,
      Within (World.Rests fun _ => True) (fun _ => True) (mount c (some el) false)) (c : ClassId)
    (origin : Origin) :
    Within (World.Rests fun _ => True) (fun _ => True) (make rt rt.run mount c origin) :=
  within_make (S := fun c => World.Rests (· ≠ c)) (fun _ => trivial) (fun _ => rt.within_run)
    (fun _ _ _ => World.Rests.of_push) (fun _ => World.Rests.raising fun h => h rfl)
    (fun _ _ => World.Rests.set fun _ h => absurd rfl h)
    (fun c el => (hmount c el).mono fun _ _ h => h.mono fun _ _ => trivial) _ _

/-- Mounting takes no instance any further. -/
theorem rests_mountAt (rt : Runtime) (fuel : Nat) (vm : InstanceId) (target : Option MountTarget)
    (hydrating : Bool) : Within (World.Rests fun _ => True) (fun _ => True)
      (mountAt rt rt.run fuel vm target hydrating) := by
  have hshowing : Showing (World.Rests fun _ => True) := by
    refine ⟨fun hf vm w => ?own, rests_ensureRender, fun _ w => ?record,
      fun w host => ?host⟩
    case own =>
      refine .of_same (World.Same.modify w fun _ => ?_)
      exact Instance.read_of_unshown (hf _) Instance.progress fun _ => rfl
    all_goals exact .of_same ⟨Nat.le_refl _, fun _ _ _ => rfl⟩
  refine within_mountAt hshowing rt.within_run trivial (fun mount hmount parent p => ?_) fuel vm
    target hydrating
  exact within_createChild (fun _ => trivial)
    (rests_make (fun c el => hmount c (some el) false) _ _)

/-- At the end of its phases an instance is created. -/
theorem gives_created (hrun : ∀ vm args s, Acts (run vm args s)) (hlt : vm < w.instances.size) :
    Eng.Gives (initPhases rt run vm) w fun _ w' =>
      (w'.instances.getD vm default).phase = .created := by
  have hraising : Raising (World.Same .steady fun _ => False) vm :=
    World.Same.settles (fun h => h.elim) fun _ _ => rfl
  have hfilling := Raising.filling hraising
  have hscripts : ∀ vm args s, Within (World.Same .steady fun _ => False) Halt.Endless
      (run vm args s) := Within.run hrun
  have hadvance : ∀ phase, Within (World.Same .steady fun _ => False) Halt.Endless
      (advance vm phase) := hraising.advance fun _ _ => rfl
  have hhook : ∀ h, Within (World.Same .steady fun _ => False) Halt.Endless
      (callHook rt run vm h) := fun h => within_callHook hscripts h fun _ => World.Same.record _
  have hinjections : Within (World.Same .steady fun _ => False) Halt.Endless
      (initInjections rt vm) := within_initInjections fun _ => hfilling.set fun _ => rfl
  have hprovided : Within (World.Same .steady fun _ => False) Halt.Endless
      (initProvided rt run vm) :=
    within_initProvided hscripts (World.Same.record _) fun _ => hfilling.set fun _ => rfl
  have hplace : Within (World.Same .steady fun _ => False) Halt.Endless (initPlace rt vm) :=
    within_initPlace (Raising.placing hraising)
  refine Gives.after hplace fun _ w₁ h₁ => ?_
  refine Gives.after (hhook _) fun _ w₂ h₂ => Gives.after (hadvance _) fun _ w₃ h₃ => ?_
  refine Gives.after hinjections fun _ w₄ h₄ => Gives.after (hadvance _) fun _ w₅ h₅ => ?_
  refine Gives.after (within_initState hfilling hscripts) fun _ w₆ h₆ => ?_
  refine Gives.after (hadvance _) fun _ w₇ h₇ => Gives.after hprovided fun _ w₈ h₈ => ?_
  refine Gives.after (hadvance _) fun _ w₉ h₉ => Gives.after (hhook _) fun _ w₁₀ h₁₀ => ?_
  have hgrown := ((((h₁.trans h₂).trans h₃).trans h₄).trans h₅).trans h₆
  have hgrown₁₀ := (((hgrown.trans h₇).trans h₈).trans h₉).trans h₁₀
  intro _ _
  exact congrArg Instance.phase (getD_modify (Nat.lt_of_lt_of_le hlt hgrown₁₀.size) _)

end Eng

/-! ## A call -/

/-- The ways in which a call of the initialization can go, given what it comes to and the world that
it leaves. -/
inductive Eng.Call (rt : Runtime) (vm : InstanceId) (origin : Origin) (w : World) :
    Except Halt Unit → World → Prop
  /-- The instance is in use, or its initialization began before. -/
  | idle {r : Except Halt Unit} {w' : World} (progress : w'.progress vm = w.progress vm)
      (late : r = .ok () → (w.progress vm).phase ≠ .allocated) : Call rt vm origin w r w'
  /-- Its options cannot be found. -/
  | unresolved {e : Error} {w' : World} (first : (w.progress vm).phase = .allocated)
      (options : ((optionsFor rt (w.progress vm).ctor origin).exec w.forest).1 = .error e)
      (progress : w'.progress vm = { w.progress vm with phase := .identified }) :
      Call rt vm origin w (.error (.fatal e)) w'
  /-- Some of author's code never ends. -/
  | endless {w' : World} (first : (w.progress vm).phase = .allocated) :
      Call rt vm origin w (.error .outOfFuel) w'
  /-- It is created, and mounting it afterwards may fail. -/
  | created {r : Except Halt Unit} {w' : World} {o : InstanceOptions}
      (first : (w.progress vm).phase = .allocated)
      (options : ((optionsFor rt (w.progress vm).ctor origin).exec w.forest).1 = .ok o)
      (rests : Progress.Rests ⟨(w.progress vm).ctor, .created, o⟩ (w'.progress vm)) :
      Call rt vm origin w r w'

namespace Eng

/-- Whatever is in use meanwhile. -/
theorem Call.withAccess {origin : Origin} {b : InstanceId} {a a' : Access} {r : Except Halt Unit}
    (h : Call rt vm origin (setAccess b a w) r w') : Call rt vm origin w r (setAccess b a' w') := by
  cases h with
  | idle progress late =>
    rw [World.progress_setAccess] at progress late
    exact .idle ((World.progress_setAccess _ _ _).trans progress) late
  | unresolved first options progress =>
    rw [World.progress_setAccess] at first options progress
    exact .unresolved first options ((World.progress_setAccess _ _ _).trans progress)
  | endless first =>
    rw [World.progress_setAccess] at first
    exact .endless first
  | created first options rests =>
    rw [World.progress_setAccess] at first options rests
    exact .created first options ((World.progress_setAccess b a' w').symm ▸ rests)

/-- A call on an instance in use. -/
theorem run_setUp_busy {mount : Mounting} (origin : Origin)
    (hbusy : (w.instances.getD vm default).access = .exclusive) :
    (setUp rt run mount vm origin).run.run w = (.error (.fatal (.instanceBusy "init")), w) := by
  refine show Ends (setUp rt run mount vm origin) w fun r w' => (r, w') = _ from ?_
  rw [setUp]
  refine Ends.next (a := w.instances.getD vm default) rfl ?_
  rw [if_pos hbusy]
  rfl

/-- A call on an instance that is past its beginning does nothing but warn. -/
theorem run_setUp_late {mount : Mounting} (origin : Origin)
    (hfree : (w.instances.getD vm default).access ≠ .exclusive)
    (hlate : (w.instances.getD vm default).phase ≠ .allocated) :
    (setUp rt run mount vm origin).run.run w = (.ok (), w.noted (rt.warningOf w vm
      ("Component instance is already initialized; initialize must be called once on a "
        ++ "freshly allocated instance."))) := by
  refine show Ends (setUp rt run mount vm origin) w fun r w' => (r, w') = _ from ?_
  rw [setUp]
  refine Ends.next (a := w.instances.getD vm default) rfl ?_
  rw [if_neg hfree]
  dsimp only
  rw [if_pos hlate]
  exact Ends.next (run_warn ..) rfl

theorem instances_begun (w : World) (vm : InstanceId) : (w.begun vm).instances =
    (w.instances.modify vm fun i =>
      { i with uid := some w.nextUid, skipObservation := true }).modify vm
        ({ · with phase := .identified }) := rfl

/-- How far an instance is once its initialization has begun. -/
theorem progress_begun (hlt : vm < w.instances.size) :
    (w.begun vm).progress vm = { w.progress vm with phase := .identified } := by
  rw [World.progress, instances_begun, getD_modify (Array.size_modify.symm ▸ hlt), getD_modify hlt]
  rfl

/-- The phases of an instance create it, unless some of author's code never ends. -/
theorem ends_initPhases_progress (hrun : ∀ vm args s, Acts (run vm args s))
    (hlt : vm < w.instances.size) :
    Ends (initPhases rt run vm) w fun r w' => vm < w'.instances.size ∧
      (r = .ok () → w'.progress vm = { w.progress vm with phase := .created }) ∧
      ∀ e, r = .error e → e = .outOfFuel := by
  have hkeeps : Within (World.Same .steady (· = vm)) Halt.Endless (initPhases rt run vm) :=
    within_initPhases (World.Same.settles (fun _ _ _ h => h) fun _ _ => rfl) (Within.run hrun)
  have hcreated : Eng.Gives (initPhases rt run vm) w fun _ w' =>
      (w'.instances.getD vm default).phase = .created := gives_created hrun hlt
  refine (Ends.and (Ends.of_within hkeeps w) hcreated).imp fun r w' ⟨⟨hsame, hendless⟩, hphase⟩ =>
    ⟨Nat.lt_of_lt_of_le hlt hsame.size, fun hok => ?_, hendless⟩
  have hsteady := hsame.read vm rfl hlt
  rw [World.progress, Instance.progress, Progress.mk.injEq]
  exact ⟨(congrArg Instance.ctor hsteady :), hphase () hok, (congrArg Instance.options hsteady :)⟩

/-- Finding the options, once the initialization has begun. -/
theorem ends_initOptions_progress (origin : Origin) (hlt : vm < w.instances.size) :
    Ends (initOptions rt vm origin) (w.begun vm) fun r w₁ =>
      (∃ o, ((optionsFor rt (w.progress vm).ctor origin).exec w.forest).1 = .ok o ∧ r = .ok () ∧
        vm < w₁.instances.size ∧ w₁.progress vm = ⟨(w.progress vm).ctor, .identified, o⟩) ∨
      ∃ e, ((optionsFor rt (w.progress vm).ctor origin).exec w.forest).1 = .error e ∧
        r = .error (.fatal e) ∧ w₁.progress vm = { w.progress vm with phase := .identified } := by
  have hltb : vm < (w.begun vm).instances.size := by
    rw [instances_begun, Array.size_modify, Array.size_modify]
    exact hlt
  have hctor : ((w.begun vm).instances.getD vm default).ctor = (w.progress vm).ctor :=
    congrArg Progress.ctor (progress_begun hlt)
  refine (ends_initOptions_for origin).imp fun r w₁ h => ?_
  rw [hctor] at h
  rcases h with ⟨o, hoptions, hr, hinstances⟩ | ⟨e, hoptions, hr, hinstances⟩
  · refine .inl ⟨o, hoptions, hr, ?_, ?_⟩
    · rw [hinstances, Array.size_modify]
      exact hltb
    · rw [World.progress, hinstances, getD_modify hltb]
      exact congrArg ({ · with options := o }) (progress_begun hlt)
  · exact .inr ⟨e, hoptions, hr, (World.progress_congr hinstances).trans (progress_begun hlt)⟩

/-- **The first call**, while the instance is not in use, begins the initialization. -/
theorem ends_setUp_first (rt : Runtime) (origin : Origin) (hlt : vm < w.instances.size)
    (hfree : (w.instances.getD vm default).access ≠ .exclusive)
    (hphase : (w.instances.getD vm default).phase = .allocated) :
    Ends (rt.setUp vm origin) w (Call rt vm origin w) := by
  refine Ends.setUp_of_allocated (Q := fun r w₂ => ∃ o,
    ((optionsFor rt (w.progress vm).ctor origin).exec w.forest).1 = .ok o ∧
    vm < w₂.instances.size ∧
    (r = .ok () → w₂.progress vm = ⟨(w.progress vm).ctor, .created, o⟩) ∧
    ∀ e, r = .error e → e = .outOfFuel) hfree hphase (ends_initOptions_progress origin hlt)
    ?unresolved ?phases ?endless ?created
  case unresolved =>
    rintro e w₁ (⟨o, -, hok, -⟩ | ⟨e, hoptions, hr, hprogress⟩)
    · cases hok
    · cases hr
      exact .unresolved hphase hoptions hprogress
  case phases =>
    rintro w₁ (⟨o, hoptions, -, hlt₁, hprogress⟩ | ⟨e, -, hr, -⟩)
    · refine (ends_initPhases_progress rt.acts_run hlt₁).imp
        fun r w₂ ⟨hlt₂, hcreated, hendless⟩ => ⟨o, hoptions, hlt₂, fun hr => ?_, hendless⟩
      rw [hcreated hr, hprogress]
    · cases hr
  case endless =>
    rintro e w₂ ⟨o, -, -, -, herror⟩
    obtain rfl := herror e rfl
    exact .endless hphase
  case created =>
    rintro w₂ ready ⟨o, hoptions, hlt₂, hcreated, -⟩ hinstances - -
    have hready : ready.progress vm = ⟨(w.progress vm).ctor, .created, o⟩ :=
      (World.progress_congr hinstances).trans (hcreated rfl)
    rw [mountNamed]
    cases (ready.optionsOf vm).field (·.el) with
    | none => exact .created hphase hoptions (hready ▸ .refl _)
    | some el =>
      refine .created hphase hoptions ?_
      have hrests := (rests_mountAt rt rt.fuel vm (some el) false ready).1
      exact hready ▸ hrests.progress vm trivial (hinstances ▸ hlt₂)

/-- **Each call** goes in one of these ways. -/
theorem ends_setUp_call (rt : Runtime) (origin : Origin) (hlt : vm < w.instances.size) :
    Ends (rt.setUp vm origin) w (Call rt vm origin w) := by
  by_cases hfree : (w.instances.getD vm default).access = .exclusive
  · rw [Ends, show (rt.setUp vm origin).run.run w = _ from run_setUp_busy origin hfree]
    exact .idle rfl fun h => by cases h
  by_cases hphase : (w.instances.getD vm default).phase = .allocated
  · exact ends_setUp_first rt origin hlt hfree hphase
  · rw [Ends, show (rt.setUp vm origin).run.run w = _ from run_setUp_late origin hfree hphase]
    exact .idle rfl fun _ => hphase

end Eng

/-! ## Any number of requests -/

/-- A request takes only those instances further that it initializes. -/
theorem Request.within_rests {P : InstanceId → Prop} (q : Request)
    (hother : ∀ vm origin, q.core = .setUp vm origin → ¬P vm) :
    Eng.Within (World.Rests P) (fun _ => True) (q.perform rt) := by
  have hall : ∀ {β : Type} {m : Eng β},
      Eng.Within (World.Rests fun _ => True) (fun _ => True) m →
        Eng.Within (World.Rests P) (fun _ => True) m :=
    fun h => h.mono fun _ _ h => h.mono fun _ _ => trivial
  have hmount : ∀ c el, Eng.Within (World.Rests fun _ => True) (fun _ => True)
      (rt.mount c (some el) false) := fun c el => Eng.rests_mountAt rt rt.fuel c (some el) false
  refine q.within (fun c _ => ?allocate) (fun vm origin hq => ?setUp)
    (fun c definition => hall (Eng.rests_make hmount c _))
    (fun creator p => hall (Eng.within_createChild (fun _ => trivial) (Eng.rests_make hmount _ _)))
    (fun vm target hydrating => hall (Eng.rests_mountAt rt rt.fuel vm target hydrating))
    (fun roots _ w => ?release)
  case allocate =>
    exact hall (Eng.Within.modifyGet fun w => (World.Frame.refl _ : World.Rests _ _ _).of_push)
  case setUp =>
    have hvm := hother vm origin hq
    exact Eng.within_setUp (fun _ => trivial) (fun _ _ _ => rt.within_run _ _ _)
      (World.Rests.raising hvm) (fun _ => World.Rests.set fun _ h => absurd h hvm)
      (fun el => hall (hmount vm el)) origin
  case release =>
    have hfaded := w.faded_release roots
    exact .of_same ⟨Nat.le_of_eq hfaded.size.symm, fun b _ _ =>
      hfaded.read Instance.progress (fun _ => rfl) b⟩

/-- A call among the requests goes in one of the ways of a call. -/
theorem Request.ends_call {origin : Origin} (q : Request) (hq : q.core = .setUp vm origin)
    (hlt : vm < w.instances.size) : Eng.Ends (q.perform rt) w (Eng.Call rt vm origin w) := by
  induction q generalizing w with
  | setUp vm' origin' =>
    cases hq
    exact Eng.ends_setUp_call rt origin hlt
  | inUse b a q ih =>
    exact Eng.Call.withAccess (ih hq (Array.size_modify.symm ▸ hlt))
  | _ => cases hq

namespace Runtime

/-- The call that began the initialization of an instance: `before` are the requests before it,
which left the instance blank, and `r` is what it came to. -/
structure Begun (rt : Runtime) (vm : InstanceId) (c : ClassId) (w : World) (qs : List Request)
    (before : List Request) (origin : Origin) (r : Except Halt Unit) : Prop where
  call : ∃ q after, qs = before ++ q :: after ∧ q.core = .setUp vm origin ∧
    ((q.perform rt).run.run (rt.after before w)).1 = r
  blank : Progress.Rests ⟨c, .allocated, {}⟩ ((rt.after before w).progress vm)

/-- How far an instance is after a number of requests. -/
inductive Stage (rt : Runtime) (vm : InstanceId) (c : ClassId) (w : World) (qs : List Request)
    (p : Progress) : Prop
  | blank (rests : Progress.Rests ⟨c, .allocated, {}⟩ p)
  /-- Its options could not be found. -/
  | unresolved {before : List Request} {origin : Origin} {e : Error}
      (begun : rt.Begun vm c w qs before origin (.error (.fatal e)))
      (options : ((Eng.optionsFor rt c origin).exec (rt.after before w).forest).1 = .error e)
      (rests : Progress.Rests ⟨c, .identified, {}⟩ p)
  /-- Some of author's code never ended. -/
  | endless {before : List Request} {origin : Origin}
      (begun : rt.Begun vm c w qs before origin (.error .outOfFuel))
  | created {before : List Request} {origin : Origin} {r : Except Halt Unit} {o : InstanceOptions}
      (begun : rt.Begun vm c w qs before origin r)
      (options : ((Eng.optionsFor rt c origin).exec (rt.after before w).forest).1 = .ok o)
      (rests : Progress.Rests ⟨c, .created, o⟩ p)

variable {qs before : List Request} {origin : Origin} {r : Except Halt Unit} {p p' : Progress}

theorem Begun.mono (h : rt.Begun vm c w qs before origin r) (qs' : List Request) :
    rt.Begun vm c w (qs ++ qs') before origin r := by
  obtain ⟨⟨q, after, rfl, hq, hr⟩, hblank⟩ := h
  exact ⟨⟨q, after ++ qs', by simp, hq, hr⟩, hblank⟩

/-- More requests that do not take the instance any further. -/
theorem Stage.mono (h : rt.Stage vm c w qs p) (qs' : List Request) (hp : p.Rests p') :
    rt.Stage vm c w (qs ++ qs') p' := by
  cases h with
  | blank rests => exact .blank (rests.trans hp)
  | unresolved begun options rests => exact .unresolved (begun.mono qs') options (rests.trans hp)
  | endless begun => exact .endless (begun.mono qs')
  | created begun options rests => exact .created (begun.mono qs') options (rests.trans hp)

/-- An instance whose initialization seems not to have begun is blank, unless a call never ended. -/
theorem Stage.eq_blank (h : rt.Stage vm c w qs p) (hp : p.phase = .allocated) :
    Progress.Rests ⟨c, .allocated, {}⟩ p ∨
      ∃ before origin, rt.Begun vm c w qs before origin (.error .outOfFuel) := by
  cases h with
  | blank rests => exact .inl rests
  | unresolved _ _ rests => cases hp.symm.trans rests.phase
  | endless begun => exact .inr ⟨_, _, begun⟩
  | created _ _ rests => cases hp.symm.trans rests.phase

/-- One more call. -/
theorem Stage.call {q : Request} {v : World}
    (h : rt.Stage vm c w qs ((rt.after qs w).progress vm))
    (hq : q.core = .setUp vm origin) (hr : ((q.perform rt).run.run (rt.after qs w)).1 = r)
    (hcall : Eng.Call rt vm origin (rt.after qs w) r v) :
    rt.Stage vm c w (qs ++ [q]) (v.progress vm) := by
  have hbegun : Progress.Rests ⟨c, .allocated, {}⟩ ((rt.after qs w).progress vm) →
      rt.Begun vm c w (qs ++ [q]) qs origin r := fun hblank => ⟨⟨q, [], rfl, hq, hr⟩, hblank⟩
  have hlast := h.mono [q] (.refl _)
  cases hcall with
  | idle progress _ => exact progress ▸ hlast
  | unresolved first options progress =>
    rcases hlast.eq_blank first with hblank | ⟨_, _, begun⟩
    · rw [hblank.ctor] at options
      refine .unresolved (hbegun hblank) options ?_
      exact progress ▸ ⟨hblank.ctor, rfl, hblank.options⟩
    · exact .endless begun
  | endless first =>
    rcases hlast.eq_blank first with hblank | ⟨_, _, begun⟩
    · exact .endless (hbegun hblank)
    · exact .endless begun
  | created first options rests =>
    rcases hlast.eq_blank first with hblank | ⟨_, _, begun⟩
    · rw [hblank.ctor] at options rests
      exact .created (hbegun hblank) options rests
    · exact .endless begun

/-- Who is there stays. -/
theorem size_le_after (rt : Runtime) (qs : List Request) (w : World) :
    w.instances.size ≤ (rt.after qs w).instances.size :=
  (within_after (R := World.Rests fun _ => False)
    (fun q _ => q.within_rests fun _ _ _ => id) w).size

/-- **How far an instance is** after a number of requests, if it was blank before them. -/
theorem stage_after (hblank : w.instances[vm]? = some { ctor := c }) (qs : List Request) :
    rt.Stage vm c w qs ((rt.after qs w).progress vm) := by
  obtain ⟨hlt, -⟩ := Array.getElem?_eq_some_iff.mp hblank
  induction qs using List.reverseRecOn with
  | nil =>
    rw [show rt.after [] w = w from rfl, World.progress, getD_of_getElem? hblank]
    exact .blank (.refl _)
  | append_singleton qs q ih =>
    have hltq := Nat.lt_of_lt_of_le hlt (rt.size_le_after qs w)
    rw [rt.after_append qs [q] w]
    by_cases hcall : ∃ origin, q.core = .setUp vm origin
    · obtain ⟨origin, hq⟩ := hcall
      exact ih.call hq rfl (q.ends_call hq hltq)
    · have hkeeps : Eng.Within (World.Rests (· = vm)) (fun _ => True) (q.perform rt) := by
        refine q.within_rests fun b origin hq hb => hcall ⟨origin, ?_⟩
        rw [hq, hb]
      exact ih.mono [q] ((hkeeps (rt.after qs w)).1.progress vm rfl hltq)

end Runtime

/-! ## When a call succeeds -/

/-- **Initializing succeeds** on an instance, whatever was done since it was blank, in these ways
only. The instance is created, with the options that the class and the first call give; they are
there as they are, but for a template that was compiled if they have no render function. Or these
options could not be found, so that the first call failed, and this call does nothing but warn. Or,
in a world where some of author's code never ends, the first call never came to an end. -/
theorem setUp_ok {qs : List Request} {origin : Origin}
    (hblank : w.instances[vm]? = some { ctor := c })
    (hok : (rt.setUp vm origin).run.run (rt.after qs w) = (.ok (), w')) :
    (∃ before origin' r o, rt.Begun vm c w (qs ++ [.setUp vm origin]) before origin' r ∧
        ((Eng.optionsFor rt c origin').exec (rt.after before w).forest).1 = .ok o ∧
        Progress.Rests ⟨c, .created, o⟩ (w'.progress vm)) ∨
      (∃ before origin' e, rt.Begun vm c w qs before origin' (.error (.fatal e)) ∧
        ((Eng.optionsFor rt c origin').exec (rt.after before w).forest).1 = .error e ∧
        Progress.Rests ⟨c, .identified, {}⟩ (w'.progress vm) ∧
        ∃ es, w' = (rt.after qs w).noted es) ∨
      ∃ before origin', rt.Begun vm c w qs before origin' (.error .outOfFuel) := by
  obtain ⟨hlt, -⟩ := Array.getElem?_eq_some_iff.mp hblank
  have hltq := Nat.lt_of_lt_of_le hlt (rt.size_le_after qs w)
  have hfree : ((rt.after qs w).instances.getD vm default).access ≠ .exclusive := by
    intro hbusy
    rw [show (rt.setUp vm origin).run.run _ = _ from Eng.run_setUp_busy origin hbusy] at hok
    cases hok
  have hlate : ((rt.after qs w).progress vm).phase ≠ .allocated →
      ∃ es, w' = (rt.after qs w).noted es := by
    intro hlate
    rw [show (rt.setUp vm origin).run.run _ = _ from Eng.run_setUp_late origin hfree hlate] at hok
    cases hok
    exact ⟨_, rfl⟩
  have hcall := Eng.ends_setUp_call rt origin hltq
  rw [Eng.Ends, hok] at hcall
  cases rt.stage_after hblank qs with
  | blank rests =>
    cases hcall with
    | idle _ late => exact absurd rests.phase (late rfl)
    | created _ options hcreated =>
      rw [rests.ctor] at options hcreated
      have hbegun : rt.Begun vm c w (qs ++ [.setUp vm origin]) qs origin (.ok ()) :=
        ⟨⟨_, [], rfl, rfl, congrArg Prod.fst hok⟩, rests⟩
      exact .inl ⟨qs, origin, .ok (), _, hbegun, options, hcreated⟩
  | unresolved begun options rests =>
    obtain ⟨es, rfl⟩ := hlate fun h => by cases h.symm.trans rests.phase
    exact .inr (.inl ⟨_, _, _, begun, options, rests, es, rfl⟩)
  | endless begun => exact .inr (.inr ⟨_, _, begun⟩)
  | created begun options rests =>
    obtain ⟨es, rfl⟩ := hlate fun h => by cases h.symm.trans rests.phase
    exact .inl ⟨_, _, _, _, begun.mono _, options, rests⟩

/-- A definition whose tags are no list. -/
def mistaggedDefinition : Options where
  fields := { extra := [("tags", .num (.int 7))] }

/-- A call while the instance is in use. -/
def earlyCall : Request := .inUse 0 .exclusive (.setUp 0 (.root mistaggedDefinition))

theorem setUp_ok_earlyCall :
    let rt : Runtime := { config := joinedTags, fuel := 5 }
    freshWorld.instances[0]? = some { ctor := 0 } ∧
    ∃ w', (rt.setUp 0 (.root failingEarly)).run.run (rt.after [earlyCall] freshWorld) =
        (.ok (), w') ∧
      ∃ before origin r o,
        rt.Begun 0 0 freshWorld ([earlyCall] ++ [.setUp 0 (.root failingEarly)]) before origin r ∧
        ((Eng.optionsFor rt 0 origin).exec (rt.after before freshWorld).forest).1 = .ok o ∧
        Progress.Rests ⟨0, .created, o⟩ (w'.progress 0) := by
  intro rt
  have hblank : freshWorld.instances[0]? = some { ctor := 0 } := rfl
  obtain ⟨⟨⟩, w', hok⟩ : ∃ u w', (rt.setUp 0 (.root failingEarly)).run.run
      (rt.after [earlyCall] freshWorld) = (.ok u, w') := Eng.run_eq_ok (by decide +kernel)
  have hphase : (((rt.setUp 0 (.root failingEarly)).run.run
      (rt.after [earlyCall] freshWorld)).2.progress 0).phase = .created := by decide +kernel
  rw [hok] at hphase
  refine ⟨hblank, w', hok, ?_⟩
  rcases setUp_ok hblank hok with hcreated | ⟨_, _, _, _, _, hrests, _⟩ | ⟨before, _, begun⟩
  · exact hcreated
  · cases hphase.symm.trans hrests.phase
  · -- the call before this one fails at once
    obtain ⟨⟨q, after, hqs, -, hr⟩, -⟩ := begun
    have hearly : Eng.failed ((earlyCall.perform rt).run.run freshWorld).1 = true := by
      decide +kernel
    cases before with
    | nil =>
      obtain ⟨rfl, -⟩ := List.cons.inj hqs
      rw [show ((earlyCall.perform rt).run.run freshWorld).1 = .error .outOfFuel from hr] at hearly
      cases hearly
    | cons _ rest => simp at hqs

/-- A call may succeed on an instance that is not created: the first one failed. -/
theorem setUp_ok_not_created :
    let rt : Runtime := { config := joinedTags, fuel := 5 }
    ∃ e w₁ w₂, (rt.setUp 0 (.root mistaggedDefinition)).run.run freshWorld =
        (.error (.fatal e), w₁) ∧
      (rt.setUp 0 (.root darkTheme)).run.run w₁ = (.ok (), w₂) ∧
      (w₂.instances.getD 0 default).phase = .identified := by
  intro rt
  obtain ⟨e, w₁, hfail⟩ : ∃ e w₁, (rt.setUp 0 (.root mistaggedDefinition)).run.run freshWorld =
      (.error (.fatal e), w₁) := Eng.run_eq_fatal (by decide +kernel)
  obtain rfl : ((rt.setUp 0 (.root mistaggedDefinition)).run.run freshWorld).2 = w₁ := by rw [hfail]
  obtain ⟨⟨⟩, w₂, hok⟩ : ∃ u w₂, (rt.setUp 0 (.root darkTheme)).run.run
      ((rt.setUp 0 (.root mistaggedDefinition)).run.run freshWorld).2 = (.ok u, w₂) :=
    Eng.run_eq_ok (by decide +kernel)
  refine ⟨e, _, w₂, hfail, hok, ?_⟩
  obtain rfl : ((rt.setUp 0 (.root darkTheme)).run.run
      ((rt.setUp 0 (.root mistaggedDefinition)).run.run freshWorld).2).2 = w₂ := by rw [hok]
  decide +kernel

end Componentry
