import Componentry.Proofs.Diagnostics.Operations
import Componentry.Proofs.Engine.Placement
import Componentry.Proofs.Engine.Sourcing

/-!
# Compiling and looking up once

Whatever happens in a run, no selector is looked up a second time, also if the page has changed by
then, and what is compiled for an instance stays, unless its initialization gives it other options.
So the compiler is called for it at most once before its initialization begins, and at most once
from then on.

- `Eng.spares_setUp`, `Eng.spares_mountAt`: initializing and mounting keep to what is allowed for.
- `Operation.spares`: so does one operation, whatever it is.
- `Move`, `Runtime.moved`: what can happen in a run, and a run.
- `sourced_once`: **compiling and looking up once**; `compiled_again` is what happens to an instance
  that is mounted before it is initialized, and again afterwards.
-/

namespace Componentry

open Eng (Within Succeeds)

variable {rt : Runtime} {run : Runner} {w w' w'' : World} {vm c : InstanceId} {early : Bool}

namespace Eng

/-! ## Initializing -/

/-- The phases allow for nothing more. -/
theorem spares_initPhases {H : Halt → Prop}
    (hrun : ∀ vm args s, Within World.Spares H (run vm args s)) :
    Within World.Spares H (initPhases rt run vm) := by
  have hadvance : ∀ phase, phase ≠ .allocated → Within World.Spares H (advance vm phase) := by
    intro phase hphase
    refine within_advance (World.Spares.record _) (Within.modifyInstance vm fun w => ?_)
    exact World.Spares.modify w fun i early =>
      Progress.allowance_advance (p := i.progress) hphase
  have hkeeps : ∀ {i i' : Instance}, (i'.ctor, i'.options) = (i.ctor, i.options) →
      i'.phase = i.phase → i'.progress = i.progress := by
    intro i i' hrest hphase
    unfold Instance.progress
    rw [hphase, show i'.ctor = i.ctor from congrArg Prod.fst hrest,
      show i'.options = i.options from congrArg Prod.snd hrest]
  have hplace : Within World.Spares H (initPlace rt vm) := by
    refine within_initPlace_of (fun hf hphase => World.Spares.set fun i => ?_)
      (fun p => World.Spares.set fun _ => rfl) hadvance
    exact hkeeps (Instance.read_of_unplaced (hf i) (fun j => (j.ctor, j.options)) fun _ => rfl)
      (hphase i)
  have hown : Within World.Spares H (initOwn rt run vm) := by
    refine within_initOwn_of hrun (fun hf hphase => World.Spares.set fun i => ?_)
      (fun _ => World.Spares.record _) hadvance
    exact hkeeps (Instance.read_of_unfilled (hf i) (fun j => (j.ctor, j.options)) fun _ => rfl)
      (hphase i)
  exact hplace.bind fun _ => hown

/-- An instance whose initialization has begun may be called for once, whatever options it gets. -/
theorem allowance_begun (hphase : (w.progress vm).phase = .allocated)
    (hsize : w'.instances.size = w.instances.size)
    (hothers : ∀ b, b ≠ vm → w'.progress b = (w.begun vm).progress b)
    (hsame : (w'.progress vm).phase = ((w.begun vm).progress vm).phase) (b : InstanceId)
    (early : Bool) : (w'.progress b).allowance early ≤ (w.progress b).allowance early := by
  by_cases hb : b = vm
  · subst hb
    by_cases hlt : b < w.instances.size
    · refine Progress.allowance_begin hphase ?_
      rw [hsame, progress_begun hlt]
      nofun
    · -- there is no such instance
      have hle := Nat.le_of_not_lt hlt
      unfold World.progress
      rw [getD_of_size_le hle, getD_of_size_le (hsize ▸ hle)]
  · have hbegun : (w.begun vm).progress b = w.progress b := by
      unfold World.progress
      rw [instances_begun, getD_modify_of_ne hb, getD_modify_of_ne hb]
    rw [hothers b hb, hbegun]

/-- **Beginning an initialization** may take a render function away, but then it has begun. -/
theorem ends_initOptions_spares (origin : Origin) (hphase : (w.progress vm).phase = .allocated) :
    Ends (initOptions rt vm origin) (w.begun vm) fun _ w' => w.Spares w' := by
  have hbegun : w.Unsourced (w.begun vm) :=
    World.begun_of_within (fun _ => World.Unsourced.set)
      (within_advance (World.Unsourced.record _) World.Unsourced.set) w
  have hoptions : Within World.Unsourced (fun _ => True) (initOptions rt vm origin) :=
    within_initOptions (fun _ => trivial) (fun _ => World.Unsourced.set) origin
  have hsize : (w.begun vm).instances.size = w.instances.size := by
    rw [instances_begun, Array.size_modify, Array.size_modify]
  refine ((ends_initOptions_for origin).and (Ends.of_within hoptions _)).imp ?_
  rintro r w' ⟨⟨o, -, -, hinstances⟩ | ⟨e, -, -, hinstances⟩, hunsourced, -⟩
  · refine .of_unsourced (hbegun.trans hunsourced) (allowance_begun hphase ?_ (fun b hb => ?_) ?_)
    · rw [hinstances, Array.size_modify, hsize]
    · unfold World.progress
      rw [hinstances, getD_modify_of_ne hb]
    · unfold World.progress
      rw [hinstances]
      exact forall_getD_modify (P := fun i i' => i'.phase = i.phase) (fun _ => rfl) rfl vm
  · refine .of_unsourced (hbegun.trans hunsourced) (allowance_begun hphase ?_ (fun b _ => ?_) ?_)
    · rw [hinstances, hsize]
    · exact World.progress_congr hinstances
    · exact congrArg Progress.phase (World.progress_congr hinstances)

/-- **Initializing** an instance, given that mounting it does not call for more than allowed. -/
theorem spares_setUp {mount : Mounting} (origin : Origin)
    (hrun : ∀ vm args s, Within World.Spares (fun _ => True) (run vm args s))
    (hmount : ∀ el, Within World.Spares (fun _ => True) (mount vm (some el) false)) :
    Within World.Spares (fun _ => True) (setUp rt run mount vm origin) := by
  intro w
  refine ⟨?_, fun _ _ => trivial⟩
  by_cases hbusy : (w.instances.getD vm default).access = .exclusive
  · rw [run_setUp_busy origin hbusy]
    exact .refl w
  by_cases hphase : (w.instances.getD vm default).phase = .allocated
  · show Ends (setUp rt run mount vm origin) w fun _ w' => w.Spares w'
    refine Ends.setUp_measured (Q := fun _ w₂ => w.Spares w₂) hbusy hphase
      (ends_initOptions_spares origin hphase) (fun _ _ h => h) (fun w₁ h₁ => ?_) (fun _ _ h => h)
      fun w₂ perf h₂ => ?_
    · exact (Ends.of_within (spares_initPhases hrun) w₁).imp fun _ w₂ h => h₁.trans h.1
    · have hready : w.Spares { w₂ with perf } := ⟨h₂.grows, h₂.budget, h₂.accounts⟩
      have hnamed : Within World.Spares (fun _ => True)
          (mountNamed mount vm (w₂.optionsOf vm)) := by
        rw [mountNamed]
        cases (w₂.optionsOf vm).field (·.el) with
        | none => exact Within.pure ()
        | some el => exact hmount el
      exact (Ends.of_within hnamed _).imp fun _ w' h => hready.trans h.1
  · rw [run_setUp_late origin hbusy hphase]
    exact .of_paused ⟨rfl, rfl⟩ fun _ => rfl

/-! ## Mounting -/

theorem spares_allocate {H : Halt → Prop} (ctor : ClassId) :
    Within World.Spares H (allocate ctor) := by
  refine Within.modifyGet fun w => .of_unsourced ⟨rfl, rfl⟩ fun b early => ?_
  show Progress.allowance (((w.instances.push { ctor }).getD b default).progress) early ≤ _
  by_cases hb : b = w.instances.size
  · subst hb
    rw [getD_push_size, World.progress, getD_of_size_le (Nat.le_refl _)]
    exact Nat.le_refl _
  · rw [getD_push_of_ne hb]
    exact Nat.le_refl _

theorem spares_make {mount : Mounting} (ctor : ClassId) (origin : Origin)
    (hrun : ∀ vm args s, Within World.Spares (fun _ => True) (run vm args s))
    (hmount : ∀ c el, Within World.Spares (fun _ => True) (mount c (some el) false)) :
    Within World.Spares (fun _ => True) (make rt run mount ctor origin) :=
  (spares_allocate ctor).bind fun c => (spares_setUp origin hrun (hmount c)).bind fun _ =>
    Within.pure _

/-- What mounting changes of an instance has nothing to do with templates, but for compiling. -/
theorem showing_spares : Showing World.Spares where
  own hf _ w := World.Spares.modify w fun i early =>
    Nat.le_of_eq (congrArg (·.allowance early)
      (Instance.read_of_unshown (hf i) Instance.progress fun _ => rfl))
  compile _ _ el := Succeeds.within (succeeds_ensureRender el)
  record _ _ := .of_paused ⟨rfl, rfl⟩ fun _ => rfl
  host _ _ := .of_paused ⟨rfl, rfl⟩ fun _ => rfl

/-- **Mounting** an instance with everything below it. -/
theorem spares_mountAt (hrun : ∀ vm args s, Within World.Spares (fun _ => True) (run vm args s))
    (fuel : Nat) (vm : InstanceId) (target : Option MountTarget) (hydrating : Bool) :
    Within World.Spares (fun _ => True) (mountAt rt run fuel vm target hydrating) := by
  refine within_mountAt showing_spares hrun trivial (fun mount hmount parent p => ?_) fuel vm target
    hydrating
  exact within_createChild (fun _ => trivial)
    (spares_make p.ctor _ hrun fun c el => hmount c (some el) false)

end Eng

/-! ## Runs -/

/-- Removing listeners takes an instance no further. -/
theorem Instance.unlisten_progress (i : Instance) (event : String) (f : Option Listener) :
    (i.unlisten event f).progress = i.progress := by
  cases f with
  | none => rfl
  | some f =>
    unfold unlisten
    cases Dict.get? i.events event with
    | none => rfl
    | some fs => rfl

/-- **One operation** calls for no more than allowed. -/
theorem Operation.spares (rt : Runtime) (op : Operation) :
    Within World.Spares (fun _ => True) (op.answer rt) := by
  have hrun : ∀ vm args s, Within World.Spares (fun _ => True) (rt.run vm args s) := rt.within_run
  have hmount : ∀ vm target hydrating,
      Within World.Spares (fun _ => True) (rt.mount vm target hydrating) :=
    Eng.spares_mountAt hrun rt.fuel
  have hforging : ∀ {α : Type} (f : Forging α),
      Within World.Spares (fun _ => True) (Eng.forging f) := Within.forging fun _ => trivial
  have hlisten : ∀ vm (f : Instance → Instance), (∀ i, (f i).progress = i.progress) →
      Within World.Spares (fun _ => True) (Eng.modifyInstance vm f) := fun _ _ hf =>
    World.Spares.set hf
  induction op with
  | newBase o => exact (hforging _).bind fun _ => Within.pure _
  | extend above definition => exact (hforging _).bind fun _ => Within.pure _
  | resolve c => exact (hforging _).bind fun _ => Within.pure _
  | classFor entry => exact (hforging _).bind fun _ => Within.pure _
  | mixin definition => exact (hforging _).bind fun _ => Within.pure _
  | register name c => exact (hforging _).bind fun _ => Within.pure _
  | component name definition => exact (hforging _).bind fun _ => Within.pure _
  | directive name => exact (hforging _).bind fun _ => Within.pure _
  | filter name e => exact (hforging _).bind fun _ => Within.pure _
  | edit c es => exact (hforging _).bind fun _ => Within.pure _
  | replace c o => exact (hforging _).bind fun _ => Within.pure _
  | classState c => exact Within.get.bind fun _ => Within.pure _
  | compile template => exact (Eng.within_compile _ _).bind fun _ => Within.pure _
  | templateOf selector =>
    refine Within.bind (Succeeds.within fun w => ?_) fun _ => Within.pure _
    exact (Eng.succeeds_templateOf selector w).imp fun _ _ h => h.1
  | allocate c => exact (Eng.spares_allocate c).bind fun _ => Within.pure _
  | create c definition =>
    exact (Eng.spares_make c (.root definition) hrun fun c el => hmount c (some el) false).bind
      fun _ => Within.pure _
  | setUp vm origin =>
    exact (Eng.spares_setUp origin hrun fun el => hmount vm (some el) false).bind fun _ =>
      Within.pure _
  | mount vm target hydrating => exact (hmount vm target hydrating).bind fun _ => Within.pure _
  | render vm f =>
    exact (Eng.within_renderWith hrun trivial (fun _ => World.Spares.set fun _ => rfl) f).bind
      fun _ => Within.pure _
  | set vm key v =>
    exact (Within.withAccess vm .exclusive (Eng.within_set hrun vm key v)).bind fun _ =>
      Within.pure _
  | call vm method args =>
    exact (Within.withAccess vm .exclusive (Eng.within_callMethod hrun vm method args)).bind
      fun _ => Within.pure _
  | act vm args s =>
    exact (Within.withAccess vm .exclusive (hrun vm args s)).bind fun _ => Within.pure _
  | evaluate vm source =>
    exact (Within.withAccess vm .exclusive (Eng.within_evaluateSource hrun vm source)).bind
      fun _ => Within.pure _
  | emit vm event args =>
    exact (Within.withAccess vm .exclusive (Eng.within_emit hrun vm event args)).bind fun _ =>
      Within.pure _
  | listen vm event f =>
    exact (hlisten vm (·.listen event f) fun _ => rfl).bind fun _ => Within.pure _
  | unlisten vm event f =>
    exact (hlisten vm (·.unlisten event f) fun i => i.unlisten_progress event f).bind fun _ =>
      Within.pure _
  | warn vm message =>
    exact (Within.withAccess vm .shared (Eng.within_warn vm message)).bind fun _ => Within.pure _
  | report vm e info =>
    exact (Within.withAccess vm .shared (Eng.within_report hrun vm e info)).bind fun _ =>
      Within.pure _
  | callHook vm h =>
    exact (Eng.within_callHook hrun h fun _ => World.Spares.record _).bind fun _ => Within.pure _
  | trace vm => exact (Within.get.bind fun _ => Within.pure _).bind fun _ => Within.pure _
  | state vm => exact (Within.getInstance vm).bind fun _ => Within.pure _
  | html n => exact Within.getHost.bind fun _ => Within.pure _
  | release roots =>
    refine Within.bind (Within.modifyGet fun w => ?_) fun _ => Within.pure _
    refine .of_paused ⟨?_, ?_⟩ fun b => ?_
    · exact World.read_release (·.templates) (fun _ _ => rfl) roots w
    · exact World.read_release (·.sourced) (fun _ _ => rfl) roots w
    · exact (w.faded_release roots).read Instance.progress (fun _ => rfl) b
  | inUse vm a op ih => exact Within.withAccess vm a ih

/-- What can happen next in a run. -/
inductive Move where
  | ask (op : Operation)
  /-- The host page changes by itself. -/
  | change (host : Host)

/-- What a move does. -/
def Move.perform (rt : Runtime) : Move → Eng Unit
  | ask op => do let _ ← op.answer rt
  | change host => modify ({ · with host })

/-- The world after a number of moves. What was done before a failure stays done. -/
def Runtime.moved (rt : Runtime) (ms : List Move) (w : World) : World :=
  ms.foldl (fun w m => ((m.perform rt).run.run w).2) w

theorem Move.spares (rt : Runtime) (m : Move) :
    Within World.Spares (fun _ => True) (m.perform rt) := by
  cases m with
  | ask op => exact (op.spares rt).bind fun _ => Within.pure ()
  | change host => exact Within.modifyGet fun _ => .of_paused ⟨rfl, rfl⟩ fun _ => rfl

/-- **Any number of moves** call for no more than allowed. -/
theorem Runtime.spares_moved (rt : Runtime) (ms : List Move) (w : World) :
    w.Spares (rt.moved ms w) := by
  induction ms generalizing w with
  | nil => exact .refl w
  | cons m rest ih => exact (m.spares rt w).1.trans (ih _)

/-- **Compiling and looking up once.** Of two moments of a run, the earlier first: no selector is
looked up twice, and what was found for it then is what is given out and compiled for it later, also
if the page has changed. The compiler is called for an instance once at most before its
initialization begins, and once at most from then on; and it is not called for an instance with a
render function, which keeps it, unless its initialization begins. -/
theorem sourced_once (rt : Runtime) (w : World) (htemplates : w.templates = [])
    (hsourced : w.sourced = #[]) (ms ms' : List Move) :
    let w₁ := rt.moved ms w
    let w₂ := rt.moved ms' w₁
    (w₁.sourcings <+: w₂.sourcings ∧ w₂.Accounts ∧ (∀ s, w₂.lookups s ≤ 1) ∧
      ∀ s m, .lookedUp s m ∈ w₁.sourcings →
        (∀ vm m', .given vm s m' ∈ w₂.sourcings → m' = m) ∧
        ∀ vm i t, .compiled vm (some i) t ∈ w₂.sourcings → i.progress.Selects s → t = m) ∧
    ∀ c, (∀ early, w₂.compiles c early ≤ 1) ∧
      ((w₁.progress c).phase ≠ .allocated → w₂.compiles c true = w₁.compiles c true) ∧
      ((w₂.progress c).phase = .allocated → w₂.compiles c false = 0) ∧
      ((w₁.progress c).hasRender = true →
        (w₁.progress c).phase ≠ .allocated ∨ (w₂.progress c).phase = .allocated →
        (w₂.progress c).hasRender = true ∧ ∀ early, w₂.compiles c early = w₁.compiles c early) := by
  intro w₁ w₂
  have h₁ : w.Spares w₁ := rt.spares_moved ms w
  have h₂ : w₁.Spares w₂ := rt.spares_moved ms' w₁
  have hempty : w.Accounts := by
    unfold World.Accounts World.sourcings
    rw [htemplates, hsourced]
    exact .empty
  have haccounts : w₂.Accounts := h₂.accounts (h₁.accounts hempty)
  have hone : ∀ c early, w₂.budget c early ≤ 1 := (h₁.trans h₂).budget_le_one hsourced
  refine ⟨⟨h₂.grows, haccounts, haccounts.once, fun s m hm => ?_⟩,
    fun c => ⟨fun early => ?_, ?_, ?_, ?_⟩⟩
  · have hm₂ : Sourcing.lookedUp s m ∈ w₂.sourcings := h₂.grows.subset hm
    refine ⟨fun vm m' hgiven => ?_, fun vm i t hi hs => ?_⟩
    · exact haccounts.lookedUp_unique hm₂ (haccounts.given vm s m' hgiven)
    · exact haccounts.lookedUp_unique hm₂ (haccounts.found vm i t s hi hs)
  · exact Nat.le_trans (Nat.le_add_right _ _) (hone c early)
  · intro hphase
    exact (h₂.of_spent (Progress.allowance_early_eq_zero.mpr (.inl hphase))).1
  · exact World.compiles_late_eq_zero (hone c false)
  · intro hrender hphase
    obtain ⟨hearly, hspent⟩ := h₂.of_spent (Progress.allowance_early_eq_zero.mpr (.inr hrender))
    rcases hphase with hphase | hphase
    · obtain ⟨hlate, hspent'⟩ := h₂.of_spent
        (Progress.allowance_late_eq_zero.mpr ⟨hphase, hrender⟩)
      refine ⟨(Progress.allowance_late_eq_zero.mp hspent').2, fun early => ?_⟩
      cases early with
      | true => exact hearly
      | false => exact hlate
    · have hlate : w₂.compiles c false = 0 := World.compiles_late_eq_zero (hone c false) hphase
      refine ⟨(Progress.allowance_early_eq_zero.mp hspent).resolve_left fun h => h hphase, ?_⟩
      intro early
      cases early with
      | true => exact hearly
      | false => exact Nat.le_antisymm (hlate ▸ Nat.zero_le _) (h₂.le_compiles c false)

/-- A page with a template in its body. -/
def templatePage (text : String) : Host where
  nodes := #[{ kind := .document, children := [1] },
    { kind := .element ⟨.html, "html"⟩ [], parent := some 0, children := [2] },
    { kind := .element ⟨.html, "body"⟩ [], parent := some 1, children := [3] },
    { kind := .element ⟨.html, "div"⟩ [⟨.none, "id", "t"⟩], parent := some 2, children := [4] },
    { kind := .element ⟨.html, "p"⟩ [], parent := some 3, children := [5] },
    { kind := .text text, parent := some 4 }]

/-- A fresh world with the page. -/
def templateWorld : World :=
  { (Runtime.start quietConfig none).2 with host := templatePage "old" }

def withTemplate (template : String) : Options where
  fields := { template := some (.markup template) }

/-- The second instance still renders what the page had when the first one was mounted. -/
theorem sourced_once_changed_page :
    let mounted (vm : InstanceId) : List Move :=
      [.ask (.create 0 (withTemplate "#t")), .ask (.mount vm none false)]
    let w₁ := pageRuntime.moved (mounted 0) templateWorld
    let w₂ := pageRuntime.moved (.change (templatePage "new") :: mounted 1 ++
      [.ask (.mount 0 none false)]) w₁
    (templateWorld.templates = [] ∧ templateWorld.sourced = #[] ∧
      .lookedUp "#t" "<p>old</p>" ∈ w₁.sourcings ∧ (w₁.progress 0).hasRender = true ∧
      (w₁.progress 0).phase ≠ .allocated) ∧
    w₂.lookups "#t" ≤ 1 ∧
    (∀ vm i t, .compiled vm (some i) t ∈ w₂.sourcings → i.progress.Selects "#t" →
      t = "<p>old</p>") ∧
    (∀ early, w₂.compiles 0 early = w₁.compiles 0 early) ∧ w₂.compiles 1 false = 1 ∧
    w₂.host.innerHtml 3 = "<p>new</p>" ∧
    (w₂.instances.getD 1 default).el.map w₂.host.outerHtml = some "<p>old</p>" := by
  intro mounted w₁ w₂
  have haccounts : w₁.Accounts :=
    (pageRuntime.spares_moved (mounted 0) templateWorld).accounts Sourcing.Accounts.empty
  have hlooked : .lookedUp "#t" "<p>old</p>" ∈ w₁.sourcings :=
    (haccounts.remembered "#t" "<p>old</p>").mp (by decide +kernel)
  have hcarries : (w₁.progress 0).hasRender = true ∧ (w₁.progress 0).phase ≠ .allocated := by
    decide +kernel
  have hseen : w₂.compiles 1 false = 1 ∧ w₂.host.innerHtml 3 = "<p>new</p>" ∧
      (w₂.instances.getD 1 default).el.map w₂.host.outerHtml = some "<p>old</p>" := by
    decide +kernel
  have honce := sourced_once pageRuntime templateWorld rfl rfl (mounted 0)
    (.change (templatePage "new") :: mounted 1 ++ [.ask (.mount 0 none false)])
  obtain ⟨-, -, hlookups, hsame⟩ := honce.1
  obtain ⟨-, hfound⟩ := hsame "#t" "<p>old</p>" hlooked
  obtain ⟨-, hkept⟩ := (honce.2 0).2.2.2 hcarries.1 (.inl hcarries.2)
  exact ⟨⟨rfl, rfl, hlooked, hcarries⟩, hlookups "#t", hfound, hkept, hseen⟩

/-- An instance that is mounted before it is initialized is compiled for again afterwards, though it
carried a render function. -/
theorem compiled_again :
    let w₁ := pageRuntime.moved
      [.ask (.allocate 0), .ask (.mount 0 (some (.selector "#t")) false)] templateWorld
    let w₂ := pageRuntime.moved
      [.ask (.setUp 0 (.root (withTemplate "<p>own</p>"))), .ask (.mount 0 none false)] w₁
    (w₁.progress 0).hasRender = true ∧ w₁.compiles 0 true = 1 ∧
      w₂.compiles 0 true = 1 ∧ w₂.compiles 0 false = 1 := by
  decide +kernel

end Componentry
