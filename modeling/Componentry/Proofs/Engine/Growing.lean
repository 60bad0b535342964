import Componentry.Proofs.Engine.Lasting
import Componentry.Proofs.Engine.Story

/-!
# How the world grows

Mounting children adds instances, one after the other, and entries of the chronicle. What the
entries are depends on the options of the instances, which may still change as far as they do not
last; so the story is told in terms of any later world.

- `Eng.Gives`: what a computation gives if it succeeds.
- `World.Grown`: between two worlds, new instances and what the chronicle tells of them.
- `Eng.Grows`: a computation that lets the world grow, with a rule for putting computations one
  after the other.
- `Eng.Gives.ensureRender`, `Eng.Gives.mountWith`: mounting up to the point where it renders.
-/

namespace Componentry

open Json (Value)

variable {α β : Type} {R : World → World → Prop} {H : Halt → Prop}

/-! ## Computations that succeed -/

/-- If the computation succeeds, what it gives and what it leaves have the property. -/
def Eng.Gives (m : Eng α) (w : World) (Q : α → World → Prop) : Prop :=
  Ends m w fun r w' => ∀ a, r = .ok a → Q a w'

namespace Eng.Gives

variable {m : Eng α} {g : α → Eng β} {w : World} {P : α → World → Prop} {Q : β → World → Prop}

theorem imp {P' : α → World → Prop} (hm : Gives m w P) (h : ∀ a w', P a w' → P' a w') :
    Gives m w P' := fun a ha => h a _ (hm a ha)

theorem and {P' : α → World → Prop} (hm : Gives m w P) (hm' : Gives m w P') :
    Gives m w fun a w' => P a w' ∧ P' a w' := fun a ha => ⟨hm a ha, hm' a ha⟩

theorem pure {a : α} (h : P a w) : Gives (Pure.pure a) w P := fun b hb => by
  cases hb
  exact h

theorem bind (hm : Gives m w P) (hg : ∀ a w', P a w' → Gives (g a) w' Q) :
    Gives (m >>= g) w Q :=
  Ends.bind hm (fun a w' h => hg a w' (h a rfl)) fun e w' _ b hb => by cases hb

theorem of_within (hm : Within R H m) (w : World) : Gives m w fun _ w' => R w w' :=
  fun _ _ => (hm w).1

/-- A computation within a relation comes first. -/
theorem after (hm : Within R H m) (hg : ∀ a w', R w w' → Gives (g a) w' Q) :
    Gives (m >>= g) w Q := bind (of_within hm w) hg

/-- Looking at an instance first. -/
theorem getInstance {vm : InstanceId} {g : Instance → Eng β}
    (hg : Gives (g (w.instances.getD vm default)) w Q) :
    Gives (Eng.getInstance vm >>= g) w Q := hg

/-- Changing an instance. -/
theorem modifyInstance {vm : InstanceId} (hlt : vm < w.instances.size) (f : Instance → Instance) :
    Gives (Eng.modifyInstance vm f) w fun _ w' => vm < w'.instances.size ∧
      w'.instances.getD vm default = f (w.instances.getD vm default) :=
  fun _ _ => ⟨Array.size_modify.symm ▸ hlt, getD_modify hlt f⟩

theorem ite {c : Prop} [Decidable c] {m n : Eng α} (hm : c → Gives m w P)
    (hn : ¬c → Gives n w P) : Gives (if c then m else n) w P := by
  by_cases hc : c
  · rw [if_pos hc]
    exact hm hc
  · rw [if_neg hc]
    exact hn hc

end Eng.Gives

/-- The handlers of a hook run, in order. -/
theorem Eng.Gives.callHook {rt : Runtime} {run : Runner} {w : World} {vm : InstanceId} {h : Hook}
    (hrun : ∀ vm args s, Acts (run vm args s)) (hlt : vm < w.instances.size)
    (hfree : (w.instances.getD vm default).access = .free) :
    Gives (Eng.callHook rt run vm h) w fun _ w' =>
      w'.steps = w.steps ++ (w.optionsOf vm).calls vm h := by
  intro _ hok
  obtain ⟨new, hnew, hsteps, -⟩ := tells_callHook hrun h hlt hfree
  rw [World.steps, hnew, List.map_append, (hsteps _ hok).1]
  rfl

/-! ## Worlds that grow -/

/-- Between the two the new instances are `ids`, which are not in use and not mounted, and `story`
tells what happened, in terms of any later world. The others stand as before. -/
structure World.Grown (ids : List InstanceId) (story : World → List Happening) (w w' : World) :
    Prop where
  same : World.Same .standing (fun _ => True) w w'
  host : w'.host = w.host
  numbered : ids = List.range' w.instances.size ids.length
  size : w'.instances.size = w.instances.size + ids.length
  steps : ∀ v, w'.Holds v → w'.steps = w.steps ++ story v
  fresh : ∀ b ∈ ids, (w'.instances.getD b default).access = .free ∧
    (w'.instances.getD b default).isMounted = false

/-- Between the two nothing happened, and all instances stand as before. -/
def World.Quiet (w w' : World) : Prop := World.Standing (fun _ => True) w w' ∧ World.Still w w'

/-- Which instances below an instance wait for their mounted hook. -/
def Aspect.waiting : Aspect (List InstanceId) where
  read i := i.pendingMounted
  acted h := h.read (·.pendingMounted) fun _ => rfl
  access _ _ _ h := h

/-- Between the two nothing happened, and the same instances wait. -/
def World.Idle (w w' : World) : Prop := w.Quiet w' ∧ World.Same .waiting (fun _ => True) w w'

section

variable {S : World → World → Prop}

/-- Two relations at once. -/
theorem World.lax_and [World.Lax R] [World.Lax S] : World.Lax fun w w' => R w w' ∧ S w w' where
  refl w := ⟨World.Frame.refl w, World.Frame.refl w⟩
  trans h h' := ⟨World.Frame.trans h.1 h'.1, World.Frame.trans h.2 h'.2⟩
  acted h := ⟨World.Tolerant.acted h, World.Tolerant.acted h⟩
  access h := ⟨World.Tolerant.access h.1, World.Tolerant.access h.2⟩
  aside hi hc hh := ⟨World.Lax.aside hi hc hh, World.Lax.aside hi hc hh⟩

end

instance : World.Lax World.Quiet := World.lax_and

theorem World.Quiet.set {vm : InstanceId} {f : Instance → Instance}
    (hf : ∀ i, Aspect.standing.read (f i) = Aspect.standing.read i) :
    Eng.Within World.Quiet H (Eng.modifyInstance vm f) :=
  (World.Standing.set fun i _ => hf i).and World.Still.set

instance : World.Lax World.Idle := World.lax_and

namespace World

variable {w w' w'' v : World} {ids ids' : List InstanceId} {story story' : World → List Happening}

/-- What stands as before lasts. -/
theorem Same.holds (h : World.Same .standing (fun _ => True) w w') : w.Holds w' where
  size := h.size
  read b hb hlt := congrArg Prod.fst (h.read b hb hlt)

theorem Quiet.holds (h : w.Quiet w') : w.Holds w' := h.1.same.holds

theorem Idle.holds (h : w.Idle w') : w.Holds w' := h.1.holds

/-- Everything there is stands as before, and this is what happened. -/
theorem Standing.grown (h : World.Standing (fun _ => True) w w')
    (hsteps : ∀ v, w'.Holds v → w'.steps = w.steps ++ story v) : w.Grown [] story w' where
  same := h.same
  host := h.host
  numbered := rfl
  size := h.size
  steps := hsteps
  fresh _ hb := by cases hb

theorem Quiet.grown (h : w.Quiet w') : w.Grown [] (fun _ => []) w' :=
  h.1.grown fun _ _ => by rw [steps, show w'.chronicle = _ from h.2, List.append_nil]; rfl

namespace Grown

theorem holds (h : w.Grown ids story w') (hv : w'.Holds v) : w.Holds v :=
  World.Frame.trans h.same.holds hv

/-- A new instance is there. -/
theorem lt_size (h : w.Grown ids story w') {b : InstanceId} (hb : b ∈ ids) :
    b < w'.instances.size := by
  rw [h.numbered, List.mem_range'_1] at hb
  rw [h.size]
  exact hb.2

/-- **Growing on**: the stories follow each other. -/
theorem trans (h : w.Grown ids story w') (h' : w'.Grown ids' story' w'') :
    w.Grown (ids ++ ids') (fun v => story v ++ story' v) w'' where
  same := World.Frame.trans h.same h'.same
  host := h'.host.trans h.host
  numbered := by
    rw [List.length_append, ← List.range'_append_1, ← h.numbered, ← h.size, ← h'.numbered]
  size := by rw [h'.size, h.size, List.length_append, Nat.add_assoc]
  steps v hv := by rw [h'.steps v hv, h.steps v (h'.holds hv), List.append_assoc]
  fresh b hb := by
    rcases List.mem_append.mp hb with hb | hb
    · have hlt := h.lt_size hb
      exact ⟨(h'.same.access_eq trivial hlt).trans (h.fresh b hb).1,
        (h'.same.isMounted_eq trivial hlt).trans (h.fresh b hb).2⟩
    · exact h'.fresh b hb

end Grown

end World

/-! ## Computations that let the world grow -/

/-- If the computation succeeds, the world has grown, and what it gives, the new instances, their
story and the world it leaves have the property. -/
def Eng.Grows (m : Eng α) (w : World)
    (Q : α → List InstanceId → (World → List Happening) → World → Prop) : Prop :=
  Gives m w fun a w' => ∃ ids story, w.Grown ids story w' ∧ Q a ids story w'

namespace Eng.Grows

variable {m : Eng α} {g : α → Eng β} {w w' : World}
  {P : α → List InstanceId → (World → List Happening) → World → Prop}
  {Q : β → List InstanceId → (World → List Happening) → World → Prop}

/-- From a world that has grown already. -/
theorem from_grown {ids : List InstanceId} {story : World → List Happening}
    (hw : w.Grown ids story w') (hm : Grows m w' fun a ids' story' w'' =>
      P a (ids ++ ids') (fun v => story v ++ story' v) w'') : Gives m w' fun a w'' =>
        ∃ ids story, w.Grown ids story w'' ∧ P a ids story w'' :=
  Gives.imp hm fun _ _ ⟨_, _, hgrown, hP⟩ => ⟨_, _, hw.trans hgrown, hP⟩

/-- A computation during which nothing happens comes first. -/
theorem after (hm : Within World.Quiet H m) (hg : ∀ a w', w.Quiet w' → Grows (g a) w' Q) :
    Grows (m >>= g) w Q :=
  Gives.after hm fun a w' h => from_grown h.grown (hg a w' h)

/-- A new entry, and what comes next. -/
theorem record {vm : InstanceId} {what : Happening} {g : Unit → Eng β}
    (hg : ∀ w', World.Standing (fun _ => True) w w' → Grows (g ()) w' fun b ids story w'' =>
      Q b ids (fun v => what :: story v) w'') : Grows (Eng.record vm what >>= g) w Q := by
  have hrecord : Gives (Eng.record vm what) w fun _ w' =>
      World.Standing (fun _ => True) w w' ∧ w'.steps = w.steps ++ [what] := by
    intro _ _
    refine ⟨⟨⟨Nat.le_refl _, fun _ _ _ => rfl⟩, rfl, rfl⟩, ?_⟩
    show (w.chronicle.push _).toList.map Occurrence.what = _
    rw [Array.toList_push, List.map_append]
    rfl
  refine Gives.bind hrecord fun _ w' ⟨hstanding, hsteps⟩ => ?_
  exact from_grown (hstanding.grown fun _ _ => hsteps) (hg w' hstanding)

/-- The handlers of a hook, and what comes next. -/
theorem hook {rt : Runtime} {run : Runner} {vm : InstanceId} {h : Hook} {g : Unit → Eng β}
    (hrun : ∀ vm args s, Acts (run vm args s)) (hlt : vm < w.instances.size)
    (hfree : (w.instances.getD vm default).access = .free)
    (hg : ∀ w', World.Standing (fun _ => True) w w' → Grows (g ()) w' fun b ids story w'' =>
      Q b ids (fun v => (v.optionsOf vm).calls vm h ++ story v) w'') :
    Grows (callHook rt run vm h >>= g) w Q := by
  have hstanding : Within (World.Standing fun _ => True) Halt.Endless (callHook rt run vm h) :=
    within_callHook (Within.run hrun) h fun _ =>
      World.Standing.record _
  refine Gives.bind ((Gives.of_within hstanding w).and (Gives.callHook hrun hlt hfree))
    fun _ w' ⟨hw', hsteps⟩ => ?_
  refine from_grown (hw'.grown fun v hv => ?_) (hg w' hw')
  have hlasts : w.Holds v := World.Frame.trans hw'.same.holds hv
  rw [hsteps, InstanceOptions.calls_of_unrendered (hlasts.unrendered hlt)]

end Eng.Grows

/-! ## Up to the point where an instance renders -/

/-- The element that a target names. -/
def Runtime.targetOf (rt : Runtime) (host : Host) : MountTarget → Option NodeId
  | .node n => some n
  | .selector s => rt.page.bind fun page => host.query page s

/-- Whether a target must not be replaced. -/
def Runtime.refuses (rt : Runtime) (host : Host) (target : Option MountTarget) : Bool :=
  ((target.bind (rt.targetOf host)).map host.isDocumentRoot).getD false

namespace Eng.Gives

variable {rt : Runtime} {run : Runner} {vm : InstanceId} {w : World}

theorem resolveTarget (t : MountTarget) :
    Gives (Eng.resolveTarget rt vm t) w fun el w' => w.Idle w' ∧ el = rt.targetOf w.host t := by
  refine (of_within (H := Halt.Endless) (within_resolveTarget t) w).and ?_
  cases t with
  | node n => exact pure rfl
  | selector s =>
    have hquery : Gives (query rt s) w fun found _ => found = rt.targetOf w.host (.selector s) := by
      rw [query, Runtime.targetOf]
      cases rt.page with
      | none => exact pure rfl
      | some page => exact fun a ha => by cases ha; rfl
    refine bind hquery fun found w' h => ?_
    subst h
    exact ite (fun _ => after (within_warn (R := World.Idle) (H := Halt.Endless) vm _)
      fun _ _ _ => pure rfl) fun _ => pure rfl

/-- There is a template to compile, unless it is invalid. -/
theorem resolveTemplate (el : Option NodeId) :
    Gives (Eng.resolveTemplate rt vm el) w fun template w' =>
      w.Idle w' ∧ template.isSome = !(w.optionsOf vm).hasInvalidTemplate := by
  refine (of_within (H := Halt.Endless) (within_resolveTemplate el) w).and (getInstance ?_)
  have htarget : ∀ w, Gives (Eng.resolveTemplate.fromTarget el) w
      fun template _ => template.isSome = true := by
    intro w
    cases el with
    | none => exact pure rfl
    | some n => exact fun a ha => by cases ha; rfl
  rw [InstanceOptions.hasInvalidTemplate, World.optionsOf]
  cases (w.instances.getD vm default).options.field (·.template) with
  | none => exact htarget w
  | some t =>
    cases t with
    | node n => exact fun a ha => by cases ha; rfl
    | invalid v =>
      exact after (within_warn (R := World.Idle) (H := Halt.Endless) vm _) fun _ _ _ => pure rfl
    | markup m =>
      refine ite (fun _ => ?_) fun _ => ite (fun _ => htarget w) fun _ => pure rfl
      refine after (within_templateOf (R := World.Idle) (H := Halt.Endless) m) fun found w' _ => ?_
      refine after (Within.source (R := World.Idle) (H := Halt.Endless) _) fun _ w'' _ => ?_
      exact ite (fun _ => after (within_warn (R := World.Idle) (H := Halt.Endless) vm _)
        fun _ _ _ => pure rfl) fun _ => pure rfl

/-- Compiling for an instance whose template is not invalid. -/
theorem compileInto (template : String) (hlt : vm < w.instances.size)
    (hvalid : (w.optionsOf vm).hasInvalidTemplate = false) :
    Gives (Eng.compileInto rt vm template) w fun _ w' => w.Idle w' := by
  have hperf : ∀ f, Within World.Idle Halt.Endless (onPerf f) := fun f => Within.onPerf f
  refine after (hperf _) fun _ w₁ h₁ => ?_
  refine after (Within.source (R := World.Idle) (H := Halt.Endless) _) fun _ w₂ h₂ => getInstance ?_
  refine after (within_compile (R := World.Idle) (H := Halt.Endless) _ template)
    fun compiled w₃ h₃ => ?_
  refine after (Within.forM (R := World.Idle) (H := Halt.Endless) (fun p => within_warn vm _) _)
    fun _ w₄ h₄ => ?_
  have h : w.Idle w₄ := World.Frame.trans h₁ (World.Frame.trans h₂ (World.Frame.trans h₃ h₄))
  -- the template is still not invalid, so that what is compiled does not count
  have hlasts := h.holds.unrendered hlt
  have hvalid₄ : (w₄.optionsOf vm).hasInvalidTemplate = false :=
    (InstanceOptions.hasInvalidTemplate_of_unrendered hlasts).trans hvalid
  have hset : Gives (Eng.modifyInstance vm fun i =>
      { i with options := i.options.setRender compiled.render compiled.statics }) w₄
      fun _ w' => w.Idle w' := by
    refine fun _ _ => World.Frame.trans h
      ⟨⟨World.Standing.modify w₄ fun _ => ?_, rfl⟩, World.Same.modify w₄ fun _ => rfl⟩
    exact congrArg (fun o => ((_, o), _)) (InstanceOptions.unrendered_setRender hvalid₄ _ _)
  refine bind hset fun _ w₅ h₅ => after (hperf _) fun _ w₆ h₆ => getInstance ?_
  exact (of_within (hperf _) w₆).imp fun _ w₇ h₇ =>
    World.Frame.trans h₅ (World.Frame.trans h₆ h₇)

/-- Compiling the template of an instance, unless mounting must stop there. -/
theorem ensureRender (el : Option NodeId) (hlt : vm < w.instances.size) :
    Gives (Eng.ensureRender rt vm el) w fun ready w' =>
      w.Idle w' ∧ ready = !(w.optionsOf vm).stopped := by
  rw [InstanceOptions.stopped]
  refine getInstance (ite (fun hrender => pure ⟨World.Frame.refl w, ?_⟩) fun hrender => ?_)
  · have hnone : ((w.optionsOf vm).part (·.render)).isNone = false := by
      rw [Option.isNone_eq_false_iff]
      exact hrender
    rw [hnone]
    rfl
  · have hnone : ((w.optionsOf vm).part (·.render)).isNone = true := by
      rw [Option.isNone_iff_eq_none, ← Option.not_isSome_iff_eq_none]
      exact hrender
    rw [hnone, Bool.true_and]
    refine bind (resolveTemplate el) ?_
    rintro template w₁ ⟨h₁, htemplate⟩
    cases template with
    | none => exact pure ⟨h₁, htemplate⟩
    | some template =>
      have hvalid : (w.optionsOf vm).hasInvalidTemplate = false := by
        rw [← Bool.not_eq_true', ← htemplate]
        rfl
      rw [hvalid]
      have hlasts := h₁.holds.unrendered hlt
      refine ite (fun _ => ?_) fun _ => pure ⟨h₁, rfl⟩
      refine bind (compileInto template (Nat.lt_of_lt_of_le hlt h₁.1.1.same.size)
        ((InstanceOptions.hasInvalidTemplate_of_unrendered hlasts).trans hvalid)) fun _ w₂ h₂ => ?_
      exact pure ⟨World.Frame.trans h₁ h₂, rfl⟩

/-- **Mounting** an instance on the element that was found: if nothing is in the way, it comes to
where the instance renders. -/
theorem mountOn {mount : Mounting} {target : Option MountTarget} {hydrating : Bool}
    {Q : Unit → World → Prop} {w₁ : World} (hpatch : rt.mounter = .patch)
    (hlt : vm < w.instances.size)
    (closed : (rt.refuses w.host target || (w.optionsOf vm).stopped) = true →
      ∀ w', w.Idle w' → Q () w')
    (opened : (rt.refuses w.host target || (w.optionsOf vm).stopped) = false → ∀ w', w.Idle w' →
      Gives (patchMount rt run mount vm (target.bind (rt.targetOf w.host)) hydrating) w' Q)
    (h₁ : w.Idle w₁) :
    Gives (Eng.mountOn rt run mount vm (target.bind (rt.targetOf w.host)) hydrating) w₁ Q := by
  have hrefuses : Gives (Eng.refuses (target.bind (rt.targetOf w.host))) w₁ fun refused w' =>
      w' = w₁ ∧ refused = rt.refuses w.host target := by
    intro _ hok
    cases hok
    refine ⟨rfl, ?_⟩
    rw [Runtime.refuses, ← h₁.1.1.host]
  refine bind hrefuses ?_
  rintro refused w₂ ⟨rfl, rfl⟩
  refine ite (fun hrefused => ?_) fun hrefused => ?_
  · refine (of_within (within_warn (R := World.Idle) (H := Halt.Endless) vm _) _).imp ?_
    refine fun _ w₃ h₃ => closed ?_ w₃ (World.Frame.trans h₁ h₃)
    rw [hrefused, Bool.true_or]
  · have hlasts := h₁.holds.unrendered hlt
    have hlt₁ := Nat.lt_of_lt_of_le hlt h₁.1.1.same.size
    refine bind (ensureRender _ hlt₁) ?_
    rintro ready w₃ ⟨h₃, hready⟩
    rw [InstanceOptions.stopped_of_unrendered hlasts] at hready
    rw [Bool.not_eq_true] at hrefused
    rw [hrefused, Bool.false_or] at closed opened
    refine ite (fun hopen => ?_) fun hstop => pure ?_
    · rw [hpatch]
      refine opened ?_ w₃ (World.Frame.trans h₁ h₃)
      rw [← Bool.not_eq_true', ← hready, hopen]
    · refine closed ?_ w₃ (World.Frame.trans h₁ h₃)
      rw [← Bool.not_eq_false', ← hready]
      exact Bool.not_eq_true _ ▸ hstop

/-- **Mounting** an instance: if nothing is in the way, it comes to where the instance renders. -/
theorem mountWith {mount : Mounting} {target : Option MountTarget} {hydrating : Bool}
    {Q : Unit → World → Prop} (hpatch : rt.mounter = .patch) (hlt : vm < w.instances.size)
    (closed : (rt.refuses w.host target || (w.optionsOf vm).stopped) = true →
      ∀ w', w.Idle w' → Q () w')
    (opened : (rt.refuses w.host target || (w.optionsOf vm).stopped) = false → ∀ w', w.Idle w' →
      Gives (patchMount rt run mount vm (target.bind (rt.targetOf w.host)) hydrating) w' Q) :
    Gives (Eng.mountWith rt run mount vm target hydrating) w Q := by
  have hrest : ∀ el w₁, w.Idle w₁ ∧ el = target.bind (rt.targetOf w.host) →
      Gives (Eng.mountOn rt run mount vm el hydrating) w₁ Q := by
    rintro el w₁ ⟨h₁, rfl⟩
    exact mountOn hpatch hlt closed opened h₁
  cases target with
  | none => exact bind (pure ⟨World.Frame.refl w, rfl⟩) hrest
  | some t => exact bind (resolveTarget t) hrest

end Eng.Gives

end Componentry
