import Componentry.Engine.Api
import Componentry.Engine.Release
import Componentry.Proofs.Engine.Mounting
import Componentry.Proofs.Engine.Telling

/-!
# What is asked of a runtime

From outside a runtime is asked for one thing after the other, each in the world that the one before
left, also where that one failed. What each request does to the world, any number of them does.

- `Request`, `Request.perform`: what can be asked for, and doing it.
- `Runtime.after`: the world after a number of requests.
- `Request.within`, `Runtime.within_after`: a relation that each request keeps to, and so do many.
- `World.within_release`, `World.faded_release`: letting go, and that it does nothing else to
  instances.
- `Eng.run_warn`: a warning adds to the journal and does nothing else.
-/

namespace Componentry

open Json (Value)
open Eng (Within)

variable {R : World → World → Prop} {rt : Runtime}

/-- Something that a runtime is asked for. -/
inductive Request where
  /-- Anything about classes: making, registering, mixing in, editing, resolving. -/
  | classes (f : Forging Unit)
  /-- A blank instance of a class. -/
  | allocate (c : ClassId)
  /-- Initializing an instance. -/
  | setUp (vm : InstanceId) (origin : Origin)
  /-- An instance of a class with a definition of its own, made and initialized. -/
  | create (c : ClassId) (definition : Options)
  /-- A child for a placeholder, made and initialized below `creator`. -/
  | createChild (creator : InstanceId) (p : Placeholder)
  | mount (vm : InstanceId) (target : Option MountTarget) (hydrating : Bool)
  /-- Author's code that runs for an instance. -/
  | act (vm : InstanceId) (args : List Value) (s : Script)
  /-- Letting go of what nothing refers to any more. -/
  | release (roots : List Ref)
  /-- A request while an instance is in use. -/
  | inUse (vm : InstanceId) (a : Access) (q : Request)

namespace Request

/-- The request itself, whatever is in use meanwhile. -/
def core : Request → Request
  | inUse _ _ q => q.core
  | q => q

/-- Does what is asked for. -/
def perform (rt : Runtime) : Request → Eng Unit
  | classes f => Eng.forging f
  | allocate c => do let _ ← Eng.allocate c
  | setUp vm origin => rt.setUp vm origin
  | create c definition => do let _ ← rt.create c definition
  | createChild creator p => do let _ ← Eng.createChild rt rt.run rt.mount creator p
  | mount vm target hydrating => rt.mount vm target hydrating
  | act vm args s => do let _ ← rt.run vm args s
  | release roots => modify (World.release roots)
  | inUse vm a q => Eng.withAccess vm a (q.perform rt)

end Request

/-- The world after a number of requests. What was done before a failure stays done. -/
def Runtime.after (rt : Runtime) (qs : List Request) (w : World) : World :=
  qs.foldl (fun w q => ((q.perform rt).run.run w).2) w

/-- Scripts keep to any relation that tolerates author's code. -/
theorem Runtime.within_run [World.Tolerant R] (rt : Runtime) (vm : InstanceId) (args : List Value)
    (s : Script) : Within R (fun _ => True) (rt.run vm args s) :=
  Within.act (rt.acts_run vm args s).anyHalt

/-- **A request** keeps to a relation if making, initializing, mounting and letting go do. -/
theorem Request.within [World.Slack R] (q : Request)
    (hallocate : ∀ c, q.core = .allocate c → Within R (fun _ => True) (Eng.allocate c))
    (hsetUp : ∀ vm origin, q.core = .setUp vm origin →
      Within R (fun _ => True) (rt.setUp vm origin))
    (hcreate : ∀ c definition, Within R (fun _ => True) (rt.create c definition))
    (hchild : ∀ creator p,
      Within R (fun _ => True) (Eng.createChild rt rt.run rt.mount creator p))
    (hmount : ∀ vm target hydrating, Within R (fun _ => True) (rt.mount vm target hydrating))
    (hrelease : ∀ roots, q.core = .release roots → ∀ w, R w (w.release roots)) :
    Within R (fun _ => True) (q.perform rt) := by
  induction q with
  | classes f => exact Within.forging (fun _ => trivial) f
  | allocate c => exact (hallocate c rfl).bind fun _ => Within.pure ()
  | setUp vm origin => exact hsetUp vm origin rfl
  | create c definition => exact (hcreate c definition).bind fun _ => Within.pure ()
  | createChild creator p => exact (hchild creator p).bind fun _ => Within.pure ()
  | mount vm target hydrating => exact hmount vm target hydrating
  | act vm args s => exact (rt.within_run vm args s).bind fun _ => Within.pure ()
  | release roots => exact Within.modifyGet fun w => hrelease roots rfl w
  | inUse vm a q ih => exact Within.withAccess vm a (ih hallocate hsetUp hrelease)

/-- **Any number of requests** keep to a relation that each of them keeps to. -/
theorem Runtime.within_after [World.Frame R] {qs : List Request}
    (h : ∀ q ∈ qs, Within R (fun _ => True) (q.perform rt)) (w : World) : R w (rt.after qs w) := by
  induction qs generalizing w with
  | nil => exact World.Frame.refl w
  | cons q rest ih =>
    obtain ⟨hq, hrest⟩ := List.forall_mem_cons.mp h
    exact World.Frame.trans (hq w).1 (ih hrest _)

theorem Runtime.after_append (rt : Runtime) (qs qs' : List Request) (w : World) :
    rt.after (qs ++ qs') w = rt.after qs' (rt.after qs w) := List.foldl_append

/-! ## Letting go -/

/-- Between the two some instances were let go of, and nothing else happened to any. -/
structure World.Faded (w w' : World) : Prop where
  size : w'.instances.size = w.instances.size
  instances : ∀ b, w'.instances.getD b default = w.instances.getD b default ∨
    w'.instances.getD b default = { w.instances.getD b default with alive := false }

namespace World.Faded

variable {w w' w'' : World}

theorem refl (w : World) : w.Faded w := ⟨rfl, fun _ => .inl rfl⟩

theorem trans (h : w.Faded w') (h' : w'.Faded w'') : w.Faded w'' where
  size := h'.size.trans h.size
  instances b := by
    rcases h'.instances b with hb' | hb' <;> rcases h.instances b with hb | hb <;> rw [hb', hb]
    · exact .inl rfl
    · exact .inr rfl
    · exact .inr rfl
    · exact .inr rfl

instance : World.Frame World.Faded := ⟨refl, trans⟩

/-- What a field says that has nothing to do with being there. -/
theorem read {β : Type} (h : w.Faded w') (f : Instance → β)
    (hf : ∀ i : Instance, f { i with alive := false } = f i) (b : InstanceId) :
    f (w'.instances.getD b default) = f (w.instances.getD b default) := by
  rcases h.instances b with hb | hb
  · rw [hb]
  · rw [hb, hf]

/-- Who is there afterwards was there before. -/
theorem alive (h : w.Faded w') {b : InstanceId}
    (hb : (w'.instances.getD b default).alive = true) :
    (w.instances.getD b default).alive = true := by
  rcases h.instances b with hsame | hgone
  · rwa [hsame] at hb
  · rw [hgone] at hb
    cases hb

/-- Letting go of a row of instances. -/
theorem of_row (w : World) (gone : List InstanceId) :
    w.Faded { w with
      instances :=
        gone.foldl (fun a i => a.modify i ({ · with alive := false })) w.instances } := by
  induction gone generalizing w with
  | nil => exact refl w
  | cons i rest ih =>
    have hfirst : w.Faded { w with
        instances := w.instances.modify i ({ · with alive := false }) } := by
      refine ⟨Array.size_modify, ?_⟩
      exact forall_getD_modify (P := fun j j' => j' = j ∨ j' = { j with alive := false })
        (fun _ => .inl rfl) (.inr rfl)
    exact hfirst.trans (ih _)

end World.Faded

/-- **Letting go** keeps to a relation if letting go once does. -/
theorem World.within_release [World.Frame R] {roots : List Ref}
    (honce : ∀ w : World, R w (w.releaseOnce roots).2) (w : World) : R w (w.release roots) := by
  have hupTo : ∀ (fuel : Nat) (w : World), R w (releaseUpTo roots fuel w) := by
    intro fuel
    induction fuel with
    | zero => exact World.Frame.refl
    | succ fuel ih =>
      intro w
      rw [releaseUpTo]
      dsimp only
      split
      · exact World.Frame.trans (honce w) (ih _)
      · exact honce w
  exact hupTo _ w

/-- **Letting go** of what nothing refers to does nothing else to instances. -/
theorem World.faded_release (w : World) (roots : List Ref) : w.Faded (w.release roots) := by
  refine World.within_release (fun w => ?_) w
  obtain ⟨hsize, hinstances⟩ := World.Faded.of_row w _
  exact ⟨hsize, hinstances⟩

/-! ## Advice -/

/-- The world with further entries in its journal. -/
def World.noted (w : World) (es : List LogEntry) : World :=
  { w with forest := { w.forest with
      journal := { w.forest.journal with entries := w.forest.journal.entries ++ es } } }

theorem World.noted_instances (w : World) (es : List LogEntry) :
    (w.noted es).instances = w.instances := rfl

theorem World.noted_append (w : World) (es es' : List LogEntry) :
    w.noted (es ++ es') = (w.noted es).noted es' := by
  have hentries : w.forest.journal.entries ++ (es ++ es') = w.forest.journal.entries ++ es ++ es' :=
    List.foldl_append
  rw [noted, hentries]
  rfl

/-- What a warning of an instance adds to the journal: nothing, if warnings are switched off. -/
def Runtime.warningOf (rt : Runtime) (w : World) (vm : InstanceId) (message : String) :
    List LogEntry :=
  let trace := Eng.traceOf w vm
  if rt.config.warns then
    if rt.config.handlers then
      [.warning message (some (w.instances.getD vm default).displayName) trace]
    else [.line .warn ("[component warn]: " ++ message ++ trace)]
  else []

/-- Other entries make no difference to it. -/
theorem Runtime.warningOf_noted (rt : Runtime) (w : World) (es : List LogEntry) (vm : InstanceId)
    (message : String) : rt.warningOf (w.noted es) vm message = rt.warningOf w vm message := by
  have hnames : ∀ fuel p, Eng.namesFrom (w.noted es) fuel p = Eng.namesFrom w fuel p := by
    intro fuel
    induction fuel with
    | zero => exact fun _ => rfl
    | succ fuel ih =>
      intro p
      cases p with
      | none => rfl
      | some p => simp only [Eng.namesFrom, ih, World.noted_instances]
  have htrace : Eng.traceOf (w.noted es) vm = Eng.traceOf w vm := by
    simp only [Eng.traceOf, Eng.namesAbove, hnames, World.noted_instances]
  rw [warningOf, warningOf, htrace]
  rfl

/-- **A warning** adds to the journal and does nothing else. -/
theorem Eng.run_warn (rt : Runtime) (w : World) (vm : InstanceId) (message : String) :
    (warn rt vm message).run.run w = (.ok (), w.noted (rt.warningOf w vm message)) := by
  rw [warn, Runtime.warningOf]
  cases rt.config.warns with
  | false => rfl
  | true =>
    cases rt.config.handlers with
    | false => rfl
    | true => rfl

end Componentry
