import Componentry.Proofs.Engine.Aspects

/-!
# What the chronicle tells

The chronicle only grows. What a computation adds to it can be said beforehand, given the options of
the instance: author's code adds nothing, and the computations that run it add one entry for each
piece of code before it runs. If author's code never comes to an end, the chronicle breaks off.

- `Eng.Tells`: what a computation adds to the chronicle, with a rule for putting computations one
  after the other.
- `Eng.tells_attempt`: **an attempt** at author's code adds an entry before the code runs.
- `Eng.tells_callHook`: **a hook** adds an entry for each of its handlers, in order.
- `Eng.tells_initData`, `Eng.tells_initProvided`: evaluating data and provided values.
-/

namespace Componentry

open Json (Value)

variable {α β : Type} {R : World → World → Prop} {H : Halt → Prop}

/-- Computations that come to no other halt than running out of fuel. -/
abbrev Halt.Endless (e : Halt) : Prop := e = .outOfFuel

/-- What the computation adds to the chronicle. If it succeeds, these are the happenings `S`, and
`Q` holds of what it gives, of the new entries and of the world it leaves. Otherwise it breaks off
somewhere in `S`. -/
def Eng.Tells (m : Eng α) (w : World) (S : List Happening)
    (Q : α → List Occurrence → World → Prop) : Prop :=
  Ends m w fun r w' => ∃ new, w'.chronicle.toList = w.chronicle.toList ++ new ∧
    (∀ a, r = .ok a → new.map Occurrence.what = S ∧ Q a new w') ∧
    ∀ e, r = .error e → e.Endless ∧ new.map Occurrence.what <+: S

namespace Eng.Tells

variable {m : Eng α} {g : α → Eng β} {w : World} {S T : List Happening}
  {P : α → List Occurrence → World → Prop} {Q : β → List Occurrence → World → Prop}

theorem imp {P' : α → List Occurrence → World → Prop} (hm : Tells m w S P)
    (h : ∀ a new w', P a new w' → P' a new w') : Tells m w S P' := by
  obtain ⟨new, hnew, hok, herror⟩ := hm
  exact ⟨new, hnew, fun a ha => ⟨(hok a ha).1, h _ _ _ (hok a ha).2⟩, herror⟩

/-- The entries are those that are told of. -/
theorem told (hm : Tells m w S P) :
    Tells m w S fun a new w' => new.map Occurrence.what = S ∧ P a new w' := by
  obtain ⟨new, hnew, hok, herror⟩ := hm
  exact ⟨new, hnew, fun a ha => ⟨(hok a ha).1, hok a ha⟩, herror⟩

/-- What else is known of the computation. -/
theorem within (hm : Tells m w S P) (hR : Within R H m) :
    Tells m w S fun a new w' => P a new w' ∧ R w w' := by
  obtain ⟨new, hnew, hok, herror⟩ := hm
  exact ⟨new, hnew, fun a ha => ⟨(hok a ha).1, (hok a ha).2, (hR w).1⟩, herror⟩

theorem pure {a : α} {P : α → List Occurrence → World → Prop} (h : P a [] w) :
    Tells (Pure.pure a) w [] P :=
  ⟨[], (List.append_nil _).symm, fun b hb => by cases hb; exact ⟨rfl, h⟩, fun e he => by cases he⟩

/-- **One computation after the other**: the second one continues the tale. -/
theorem bind (hm : Tells m w S P) (hg : ∀ a new w', P a new w' →
    Tells (g a) w' T fun b new' w'' => Q b (new ++ new') w'') :
    Tells (m >>= g) w (S ++ T) Q := by
  refine Ends.bind hm ?_ ?_
  · rintro a w' ⟨new, hnew, hok, -⟩
    obtain ⟨hS, hP⟩ := hok a rfl
    obtain ⟨new', hnew', hok', herror'⟩ := hg a new w' hP
    refine ⟨new ++ new', by rw [hnew', hnew, List.append_assoc], fun b hb => ?_, fun e he => ?_⟩
    · exact ⟨by rw [List.map_append, hS, (hok' b hb).1], (hok' b hb).2⟩
    · refine ⟨(herror' e he).1, ?_⟩
      rw [List.map_append, hS]
      exact (List.prefix_append_right_inj S).mpr (herror' e he).2
  · rintro e w' ⟨new, hnew, -, herror⟩
    refine ⟨new, hnew, fun b hb => (by cases hb), fun e' he' => ?_⟩
    cases he'
    exact ⟨(herror e rfl).1, (herror e rfl).2.trans (List.prefix_append S T)⟩

/-- A computation that adds nothing. -/
theorem still (hm : Within World.Still Halt.Endless m) :
    Tells m w [] fun _ new _ => new = [] :=
  ⟨[], by rw [(hm w).1, List.append_nil], fun _ _ => ⟨rfl, rfl⟩, fun e he =>
    ⟨(hm w).2 e he, List.nil_prefix⟩⟩

/-- A computation that adds nothing comes first. -/
theorem after (hm : Within World.Still Halt.Endless m) (hR : Within R Halt.Endless m)
    (hg : ∀ a w', R w w' → Tells (g a) w' S Q) : Tells (m >>= g) w S Q :=
  bind ((still hm).within hR) fun a new w' ⟨hnew, hw'⟩ => by
    subst hnew
    exact hg a w' hw'

/-- A computation that adds nothing comes last. -/
theorem before {P : List Occurrence → Prop} (hm : Tells m w S fun _ new _ => P new)
    (hg : ∀ a, Within World.Still Halt.Endless (g a)) :
    Tells (m >>= g) w S fun _ new _ => P new := by
  rw [← List.append_nil S]
  refine bind hm fun a new w' ha => (still (hg a)).imp ?_
  rintro b new' w'' rfl
  rw [List.append_nil]
  exact ha

/-- An instance is in use meanwhile. What is added does not depend on that. -/
theorem withAccess {vm : InstanceId} {a : Access} {P : List Occurrence → Prop}
    (hm : Tells m (setAccess vm a w) S fun _ new _ => P new) :
    Tells (Eng.withAccess vm a m) w S fun _ new _ => P new := hm

theorem record (vm : InstanceId) (what : Happening) :
    Tells (Eng.record vm what) w [what] fun _ new w' =>
      new = [⟨what, w.instances.getD vm default⟩] ∧ w'.instances = w.instances :=
  ⟨[⟨what, w.instances.getD vm default⟩], Array.toList_push, fun _ _ => ⟨rfl, rfl, rfl⟩,
    fun e he => by cases he⟩

/-- Looking at an instance first. -/
theorem getInstance {vm : InstanceId} {g : Instance → Eng β}
    (hg : Tells (g (w.instances.getD vm default)) w S Q) :
    Tells (Eng.getInstance vm >>= g) w S Q := hg

end Eng.Tells

/-! ## Author's code -/

/-- Author's code acts, and comes to no other halt than running out of fuel. -/
def Eng.Acts (m : Eng α) : Prop := Eng.Within World.Acted Halt.Endless m

/-- The scripts of a runtime act. -/
theorem Runtime.acts_run (rt : Runtime) (vm : InstanceId) (args : List Value) (s : Script) :
    Eng.Acts (rt.run vm args s) :=
  Eng.within_runScript (H := Halt.Endless) rfl rt rt.fuel vm args s

/-- Author's code keeps to any relation that tolerates what it does. -/
theorem Eng.Within.run {run : Runner} (hrun : ∀ vm args s, Acts (run vm args s))
    {R : World → World → Prop} [World.Tolerant R] (vm : InstanceId) (args : List Value)
    (s : Script) : Within R Halt.Endless (run vm args s) := Within.act (hrun vm args s)

theorem inventory_setAccess (vm : InstanceId) (a : Access) (w : World) (b : InstanceId) :
    ((Eng.setAccess vm a w).instances.getD b default).inventory =
      (w.instances.getD b default).inventory :=
  forall_getD_modify (P := fun i i' => i'.inventory = i.inventory) (fun _ => rfl) rfl b

namespace Eng

variable {rt : Runtime} {run : Runner} {w : World} {vm : InstanceId}
  (hrun : ∀ vm args s, Acts (run vm args s))
include hrun

/-- **An attempt** at author's code adds an entry before the code runs. -/
theorem tells_attempt {what : Happening} {code : Eng (Except HookError α)} (info : String)
    (hcode : Acts code) (hfree : (w.instances.getD vm default).access = .free) :
    Tells (attempt rt run vm info do
        record vm what
        code) w [what]
      fun _ new _ => ∀ o ∈ new, o.found.inventory = (w.instances.getD vm default).inventory := by
  refine Tells.getInstance ?_
  rw [if_pos hfree]
  refine Tells.withAccess ?_
  have hrecorded : Tells (do
      record vm what
      code) (setAccess vm .exclusive w) [what] fun _ new _ =>
        ∀ o ∈ new, o.found.inventory = (w.instances.getD vm default).inventory := by
    refine Tells.before ((Tells.record vm what).imp ?_) fun _ => Within.act hcode
    rintro _ new w₁ ⟨rfl, -⟩ o ho
    cases List.mem_singleton.mp ho
    exact inventory_setAccess vm .exclusive w vm
  refine Tells.before hrecorded fun r => Within.act ?_
  -- an error is reported, which is author's code as well
  cases r with
  | ok a => exact Within.pure (some a)
  | error e => exact (within_report hrun vm e info).bind fun _ => Within.pure none

end Eng

/-! ## Hooks, data and provided values -/

namespace InstanceOptions

variable (o : InstanceOptions) (vm : InstanceId)

/-- The entries for the handlers of a hook. -/
def calls (h : Hook) : List Happening := (o.hookHandlers h).map fun f => .ran vm (.hook h f)

/-- The entry for a source that is evaluated, if there is one. -/
def evaluates (read : Fields → Option (Placed DataSource)) (work : Work) : List Happening :=
  if (o.part read).isSome then [.ran vm work] else []

variable {o vm} {new : List Occurrence} {e : Occurrence}

/-- An entry for a handler. -/
theorem what_of_calls {h : Hook} (hnew : new.map Occurrence.what = o.calls vm h) (he : e ∈ new) :
    ∃ f, e.what = .ran vm (.hook h f) := by
  have hmem : e.what ∈ o.calls vm h := hnew ▸ List.mem_map_of_mem he
  obtain ⟨f, -, hf⟩ := List.mem_map.mp hmem
  exact ⟨f, hf.symm⟩

/-- An entry for a source. -/
theorem what_of_evaluates {read : Fields → Option (Placed DataSource)} {work : Work}
    (hnew : new.map Occurrence.what = o.evaluates vm read work) (he : e ∈ new) :
    e.what = .ran vm work := by
  have hmem : e.what ∈ o.evaluates vm read work := hnew ▸ List.mem_map_of_mem he
  rw [evaluates] at hmem
  split at hmem
  · exact List.mem_singleton.mp hmem
  · cases hmem

end InstanceOptions

namespace World.Same

variable {part : Inventory → β} {w w' : World} {vm : InstanceId}
  (h : World.Same (.kept part) (· = vm) w w') (hlt : vm < w.instances.size)
include h hlt

theorem options : (w'.instances.getD vm default).options = (w.instances.getD vm default).options :=
  congrArg (fun p : Instance × β => p.1.options) (h.read vm rfl hlt)

theorem free (hfree : (w.instances.getD vm default).access = .free) :
    (w'.instances.getD vm default).access = .free :=
  (congrArg (fun p : Instance × β => p.1.access) (h.read vm rfl hlt)).trans hfree

theorem inventory : part (w'.instances.getD vm default).inventory =
    part (w.instances.getD vm default).inventory :=
  congrArg Prod.snd (h.read vm rfl hlt)

end World.Same

namespace Eng

variable {rt : Runtime} {run : Runner} {w : World} {vm : InstanceId}
  (hrun : ∀ vm args s, Acts (run vm args s))
include hrun

/-- Handlers that are attempted one after the other. -/
theorem tells_handlers (h : Hook) (fs : List Handler) (hlt : vm < w.instances.size)
    (hfree : (w.instances.getD vm default).access = .free) :
    Tells (fs.forM fun f => do
        let _ ← attempt rt run vm (h.name ++ " hook") do
          record vm (.ran vm (.hook h f))
          run vm [] f.script) w (fs.map fun f => .ran vm (.hook h f))
      fun _ new _ => ∀ o ∈ new, o.found.inventory = (w.instances.getD vm default).inventory := by
  induction fs generalizing w with
  | nil => exact Tells.pure fun o ho => by cases ho
  | cons f rest ih =>
    have hcode : Acts (run vm [] f.script) := hrun vm [] f.script
    have hkeeps : Within (World.Same (.kept id) (· = vm)) Halt.Endless (do
        let _ ← attempt rt run vm (h.name ++ " hook") do
          record vm (.ran vm (.hook h f))
          run vm [] f.script) :=
      (within_attempt (Within.run hrun) vm _
        ((World.Same.record _).bind fun _ => Within.act hcode)).bind fun _ => Within.pure ()
    have hfirst := (Tells.before (tells_attempt hrun (h.name ++ " hook") hcode hfree)
      fun _ => Within.pure ()).within hkeeps
    refine Tells.bind (S := [_]) hfirst ?_
    rintro _ new w' ⟨hfound, hsame⟩
    refine (ih (Nat.lt_of_lt_of_le hlt hsame.size) (hsame.free hlt hfree)).imp ?_
    rintro _ new' w'' hfound' o ho
    rcases List.mem_append.mp ho with ho | ho
    · exact hfound o ho
    · rw [hfound' o ho]
      exact hsame.inventory hlt

/-- **A hook** adds an entry for each of its handlers, in order. -/
theorem tells_callHook (h : Hook) (hlt : vm < w.instances.size)
    (hfree : (w.instances.getD vm default).access = .free) :
    Tells (callHook rt run vm h) w ((w.instances.getD vm default).options.calls vm h)
      fun _ new _ => ∀ o ∈ new, o.found.inventory = (w.instances.getD vm default).inventory := by
  have hemit : ∀ event, Acts (do
      if (← getInstance vm).hasListeners event then
        withAccess vm .exclusive (emit rt run vm event [])) := fun event =>
    (Within.getInstance vm).bind fun _ =>
      Within.ite (Within.withAccess vm .exclusive (within_emit hrun vm event [])) (Within.pure ())
  refine Tells.getInstance ?_
  exact Tells.before (tells_handlers hrun h _ hlt hfree) fun _ => Within.act (hemit _)

/-- Evaluating a source adds an entry before. -/
theorem tells_evaluate (info : String) (work : Work) (source : DataSource)
    {g : Option Json.Record → Eng Unit} (hg : ∀ values, Within World.Still Halt.Endless (g values))
    (hfree : (w.instances.getD vm default).access = .free) :
    Tells ((attempt rt run vm info do
        record vm (.ran vm work)
        evaluateSource run vm source) >>= g) w [.ran vm work]
      fun _ new _ => ∀ o ∈ new, o.found.inventory = (w.instances.getD vm default).inventory :=
  Tells.before (tells_attempt hrun info (within_evaluateSource hrun vm source) hfree) hg

/-- **The data** of an instance: one entry if there is any, before it is evaluated. -/
theorem tells_initData (hfree : (w.instances.getD vm default).access = .free) :
    Tells (initData rt run vm) w
      ((w.instances.getD vm default).options.evaluates vm (·.data) .data)
      fun _ new _ => ∀ o ∈ new, o.found.inventory = (w.instances.getD vm default).inventory := by
  rw [InstanceOptions.evaluates]
  refine Tells.getInstance ?_
  cases (w.instances.getD vm default).options.part (·.data) with
  | none => exact Tells.pure fun o ho => by cases ho
  | some source =>
    refine tells_evaluate hrun "data()" .data source (fun values => ?_) hfree
    cases values with
    | none => exact Within.pure ()
    | some values =>
      refine (Within.getInstance vm).bind fun i => ?_
      refine (Within.forM (fun e => ?_) _).bind fun _ => World.Still.set
      exact within_warnShadowed vm i e

/-- **The provided values** of an instance: one entry if there are any, before they are
evaluated. -/
theorem tells_initProvided (hfree : (w.instances.getD vm default).access = .free) :
    Tells (initProvided rt run vm) w
      ((w.instances.getD vm default).options.evaluates vm (·.provide) .provide)
      fun _ new _ => ∀ o ∈ new, o.found.inventory = (w.instances.getD vm default).inventory := by
  rw [InstanceOptions.evaluates]
  refine Tells.getInstance ?_
  cases (w.instances.getD vm default).options.part (·.provide) with
  | none => exact Tells.pure fun o ho => by cases ho
  | some source =>
    refine tells_evaluate hrun "provide()" .provide source (fun values => ?_) hfree
    cases values with
    | none => exact Within.pure ()
    | some values => exact World.Still.set

end Eng

end Componentry
