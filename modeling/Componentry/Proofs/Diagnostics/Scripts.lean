import Componentry.Proofs.Diagnostics.Classes

/-!
# Author's code and diagnostics

Author's code does alike under any flags: it gives the same, it fails with the same, and it leaves
worlds that are alike, as long as the compiler can tell what it was asked for.

- `Runtime.Tells`: the compiler can tell what it was asked for.
- `Eng.alike`: computations that do alike; `Eng.Same`: and give the same.
- `Eng.Aside`: a computation that leaves nothing but diagnostics, such as a warning.
- `Eng.same_report`: reporting an error of author's code does alike.
- `Eng.same_runScript`: **scripts** do alike under any flags, however deep they go.
-/

namespace Componentry

open Json (Value Record)
open Template (CompileSettings fingerprint NulFree)

variable {α β γ δ : Type} {rt : Runtime} {φ : Flags}

/-! ## Computations that do alike -/

/-- What the compiler was asked for has no NUL, and digests tell it apart. -/
structure Runtime.Tells (rt : Runtime) (asked : List (CompileSettings × String)) : Prop where
  nulFree : ∀ q ∈ asked, NulFree q.1 q.2
  distinct : ∀ p ∈ asked, ∀ q ∈ asked, rt.digest p.1 p.2 = rt.digest q.1 q.2 →
    fingerprint p.1 p.2 = fingerprint q.1 q.2

/-- Worlds that are alike, and in which what is remembered of compilations is right. -/
structure World.Twins (rt : Runtime) (w w' : World) : Prop where
  alike : w.Alike w'
  left : w.Remembers rt
  right : w'.Remembers rt

/-! ## Expressions -/

namespace Expr

variable {i i' : Instance} {args : List Value}

mutual

/-- An expression has the same value for instances that are alike. -/
theorem eval_alike (h : i.Alike i') : ∀ e : Expr, eval (some i) args e = eval (some i') args e
  | lit v => rfl
  | list items => by rw [eval, eval, evalAll_alike h items]
  | record fields => by rw [eval, eval, evalFields_alike h fields]
  | get key => by
    rw [eval, eval, Option.bind_some, Option.bind_some, h.read (·.get? key) fun _ => rfl]
  | has key => by
    rw [eval, eval, Option.map_some, Option.map_some, h.read (·.has key) fun _ => rfl]
  | arg n => rfl
  | upper e => by rw [eval, eval, eval_alike h e]
  | cat items => by rw [eval, eval, evalAll_alike h items]
  | add items => by rw [eval, eval, evalAll_alike h items]

theorem evalAll_alike (h : i.Alike i') : ∀ es : List Expr,
    evalAll (some i) args es = evalAll (some i') args es
  | [] => rfl
  | e :: rest => by rw [evalAll, evalAll, eval_alike h e, evalAll_alike h rest]

theorem evalFields_alike (h : i.Alike i') : ∀ fields : List (String × Expr),
    evalFields (some i) args fields = evalFields (some i') args fields
  | [] => rfl
  | (k, e) :: rest => by rw [evalFields, evalFields, eval_alike h e, evalFields_alike h rest]

end

end Expr

namespace Eng

/-- Computations on worlds that are alike, with the same halts, as long as the compiler can tell
what it was asked for. -/
def alike (rt : Runtime) : Likeness Eng :=
  (Likeness.paired (World.Twins rt) (fun w => rt.Tells w.asked) fun w => rt.Tells w.asked).failing
    Halt

/-- Computations that do alike and give the same. -/
abbrev Same (rt : Runtime) (x y : Eng α) : Prop := (alike rt).Rel Eq x y

/-! ## Steps -/

section

variable {r : α → β → Prop}

/-- Neither side asks for a compilation. -/
theorem alike_modifyGet {f : World → α × World} {f' : World → β × World}
    (hleft : ∀ w, ∃ b, r (f w).1 b) (hright : ∀ w, ∃ a, r a (f' w).1)
    (hkeep : ∀ w, (f w).2.memo = w.memo ∧ (f w).2.asked = w.asked)
    (hkeep' : ∀ w, (f' w).2.memo = w.memo ∧ (f' w).2.asked = w.asked)
    (h : ∀ w w' : World, w.Alike w' → r (f w).1 (f' w').1 ∧ (f w).2.Alike (f' w').2) :
    (alike rt).Rel r (modifyGet f) (modifyGet f') := by
  refine Likeness.failing_lift (L := Likeness.paired _ _ _) ⟨fun w => ?_, fun w => ?_, ?_⟩
  · exact ⟨hleft w, fun ht => (hkeep w).2 ▸ ht⟩
  · exact ⟨hright w, fun ht => (hkeep' w).2 ▸ ht⟩
  · intro w w' hw _ _
    obtain ⟨hr, hafter⟩ := h w w' hw.alike
    exact ⟨hr, hafter, hw.left.congr (hkeep w).1 (hkeep w).2,
      hw.right.congr (hkeep' w').1 (hkeep' w').2⟩

/-- The same on both sides. -/
theorem same_modifyGet {f : World → α × World}
    (hkeep : ∀ w, (f w).2.memo = w.memo ∧ (f w).2.asked = w.asked)
    (h : ∀ w w' : World, w.Alike w' → (f w).1 = (f w').1 ∧ (f w).2.Alike (f w').2) :
    Same rt (modifyGet f) (modifyGet f) :=
  alike_modifyGet (fun _ => ⟨_, rfl⟩) (fun _ => ⟨_, rfl⟩) hkeep hkeep h

theorem alike_get : (alike rt).Rel World.Alike (get : Eng World) get :=
  alike_modifyGet (fun w => ⟨w, .refl w⟩) (fun w => ⟨w, .refl w⟩) (fun _ => ⟨rfl, rfl⟩)
    (fun _ => ⟨rfl, rfl⟩) fun _ _ h => ⟨h, h⟩

theorem same_pure (a : α) : Same rt (pure a) (pure a) := (alike rt).pure rfl

theorem same_throw (e : Halt) : Same rt (throw e : Eng α) (throw e) := Likeness.failing_throw _ e

theorem same_noting {n n' : Noting α} (h : Noting.alike.Rel Eq n n') :
    Same rt (noting n) (noting n') :=
  alike_modifyGet (fun w => (h.left w.forest.journal).1) (fun w => (h.right w.forest.journal).1)
    (fun _ => ⟨rfl, rfl⟩) (fun _ => ⟨rfl, rfl⟩) fun w w' hw =>
      have hboth := h.both w.forest.journal w'.forest.journal hw.forest.journal trivial trivial
      ⟨hboth.1, { hw with forest := { hw.forest with journal := hboth.2 } }⟩

theorem same_note {e e' : LogEntry} (he : e.told? = e'.told?) : Same rt (note e) (note e') :=
  same_noting (Noting.alike_note he)

theorem same_freshMark : Same rt freshMark freshMark :=
  same_modifyGet (fun _ => ⟨rfl, rfl⟩) fun _ _ h => ⟨h.forest.nextMark,
    { h with forest := { h.forest with nextMark := congrArg (· + 1) h.forest.nextMark } }⟩

theorem same_invoke (call : Invocation) : Same rt (invoke call) (invoke call) :=
  same_modifyGet (fun _ => ⟨rfl, rfl⟩) fun _ _ h =>
    ⟨rfl, { h with invoked := congrArg (·.push call) h.invoked }⟩

theorem same_alive? (vm : Option InstanceId) : Same rt (alive? vm) (alive? vm) :=
  (alike rt).bind alike_get fun w w' h => (alike rt).pure (by
    congr 1
    exact funext fun i => h.alive i)

theorem same_getHost : Same rt getHost getHost :=
  (alike rt).bind alike_get fun _ _ h => (alike rt).pure h.host

theorem same_onHost (f : Host → α × Host) : Same rt (onHost f) (onHost f) :=
  same_modifyGet (fun _ => ⟨rfl, rfl⟩) fun _ _ h =>
    ⟨congrArg (fun host => (f host).1) h.host,
      { h with host := congrArg (fun host => (f host).2) h.host }⟩

theorem alike_getInstance (vm : InstanceId) :
    (alike rt).Rel Instance.Alike (getInstance vm) (getInstance vm) :=
  (alike rt).bind alike_get fun _ _ h => (alike rt).pure (h.instances vm)

/-- Looking at an instance, and what comes next. -/
theorem getInstanceThen {vm : InstanceId} {g : Instance → Eng α} {g' : Instance → Eng β}
    (h : ∀ i o d, i.options.Alike o → (alike rt).Rel r (g i)
      (g' { i with options := o, devProxy := d })) :
    (alike rt).Rel r (getInstance vm >>= g) (getInstance vm >>= g') :=
  (alike rt).bind (alike_getInstance vm) fun i i' hi => by
    rw [hi.eq_with]
    exact h i i'.options i'.devProxy hi.options

theorem alike_modifyInstance (vm : InstanceId) {f f' : Instance → Instance}
    (hf : ∀ i i' : Instance, i.Alike i' → (f i).Alike (f' i')) :
    Same rt (modifyInstance vm f) (modifyInstance vm f') :=
  alike_modifyGet (fun _ => ⟨_, rfl⟩) (fun _ => ⟨_, rfl⟩) (fun _ => ⟨rfl, rfl⟩)
    (fun _ => ⟨rfl, rfl⟩) fun _ _ h => ⟨rfl, h.modify hf⟩

/-- The same change on both sides, one that has nothing to do with diagnostics. -/
theorem same_modifyInstance (vm : InstanceId) {f : Instance → Instance}
    (hf : ∀ i : Instance, (f i).plain = f i.plain) :
    Same rt (modifyInstance vm f) (modifyInstance vm f) :=
  alike_modifyInstance vm fun _ _ h => h.change f hf

theorem same_record (vm : InstanceId) (what : Happening) :
    Same rt (record vm what) (record vm what) :=
  same_modifyGet (fun _ => ⟨rfl, rfl⟩) fun _ _ h => ⟨rfl, h.record vm what⟩

theorem alike_withAccess (vm : InstanceId) (a : Access) {x : Eng α} {y : Eng β}
    (h : (alike rt).Rel r x y) : (alike rt).Rel r (withAccess vm a x) (withAccess vm a y) where
  left w := h.left (setAccess vm a w)
  right w := h.right (setAccess vm a w)
  both w w' hw hG hG' := by
    have haccess := (hw.alike.instances vm).read (·.access) fun _ => rfl
    obtain ⟨hr, hafter⟩ := h.both (setAccess vm a w) (setAccess vm a w')
      ⟨hw.alike.setAccess vm a, hw.left, hw.right⟩ hG hG'
    refine ⟨hr, ?_, hafter.left, hafter.right⟩
    show (setAccess vm _ _).Alike (setAccess vm _ _)
    rw [haccess]
    exact hafter.alike.setAccess vm _

end

/-! ## Warnings -/

/-- The computation succeeds and leaves nothing but diagnostics. -/
def Aside (m : Eng Unit) : Prop := ∀ w, Succeeds m w fun _ w' =>
  w.Alike w' ∧ w'.memo = w.memo ∧ w'.asked = w.asked

theorem Aside.pure : Aside (Pure.pure ()) := fun w => .pure ⟨.refl w, rfl, rfl⟩

theorem Aside.bind {m m' : Eng Unit} (hm : Aside m) (hm' : Aside m') :
    Aside (m >>= fun _ => m') := fun w => by
  refine (hm w).bind fun _ w₁ ⟨h₁, hmemo₁, hasked₁⟩ => ?_
  refine (hm' w₁).imp fun _ w₂ ⟨h₂, hmemo₂, hasked₂⟩ => ?_
  exact ⟨h₁.trans h₂, hmemo₂.trans hmemo₁, hasked₂.trans hasked₁⟩

theorem Aside.ite {c : Prop} [Decidable c] {m m' : Eng Unit} (hm : Aside m) (hm' : Aside m') :
    Aside (if c then m else m') := by
  split
  · exact hm
  · exact hm'

theorem Aside.forM {f : α → Eng PUnit} (hf : ∀ a, Aside (f a)) (as : List α) :
    Aside (as.forM f) := by
  induction as with
  | nil => exact pure
  | cons a rest ih => exact bind (hf a) ih

/-- Looking at an instance for it. -/
theorem Aside.getInstance {vm : InstanceId} {g : Instance → Eng Unit} (hg : ∀ i, Aside (g i)) :
    Aside (getInstance vm >>= g) := fun w => hg (w.instances.getD vm default) w

theorem Aside.onPerf (f : Perf → Perf) : Aside (onPerf f) := fun w =>
  .modifyGet ⟨{ World.Alike.refl w with }, rfl, rfl⟩

theorem Aside.source (step : World → Sourcing) : Aside (source step) := fun w =>
  .modifyGet ⟨{ World.Alike.refl w with }, rfl, rfl⟩

theorem Aside.warn (rt : Runtime) (vm : InstanceId) (message : String) :
    Aside (warn rt vm message) := fun w => by
  refine ⟨(), _, run_warn rt w vm message, .noted w fun e he => ?_, rfl, rfl⟩
  rw [Runtime.warningOf] at he
  split at he
  · split at he
    · cases List.mem_singleton.mp he
      rfl
    · cases List.mem_singleton.mp he
      rfl
  · cases he

/-- Diagnostics are alike, whatever they are. -/
theorem same_aside {m m' : Eng Unit} (h : Aside m) (h' : Aside m') : Same rt m m' where
  left w := by
    obtain ⟨_, v, hrun, -, -, hasked⟩ := h w
    rw [hrun]
    exact ⟨⟨.ok (), .ok rfl⟩, fun ht => hasked ▸ ht⟩
  right w := by
    obtain ⟨_, v, hrun, -, -, hasked⟩ := h' w
    rw [hrun]
    exact ⟨⟨.ok (), .ok rfl⟩, fun ht => hasked ▸ ht⟩
  both w w' hw _ _ := by
    obtain ⟨_, v, hrun, hv, hmemo, hasked⟩ := h w
    obtain ⟨_, v', hrun', hv', hmemo', hasked'⟩ := h' w'
    rw [hrun, hrun']
    exact ⟨.ok rfl, hv.symm.trans (hw.alike.trans hv'), hw.left.congr hmemo hasked,
      hw.right.congr hmemo' hasked'⟩

theorem same_warn (rt' rt'' : Runtime) (vm : InstanceId) (message : String) :
    Same rt (warn rt' vm message) (warn rt'' vm message) :=
  same_aside (.warn rt' vm message) (.warn rt'' vm message)

/-- A warning on either side, or on none. -/
theorem warnFirst {r : α → β → Prop} {c c' : Prop} [Decidable c] [Decidable c'] {m m' : Eng Unit}
    {x : Eng α} {y : Eng β} (hm : Aside m) (hm' : Aside m') (h : (alike rt).Rel r x y) :
    (alike rt).Rel r (if c then m >>= fun _ => x else x) (if c' then m' >>= fun _ => y else y) :=
  (alike rt).saidFirst h (same_aside hm hm') (same_aside hm .pure) (same_aside .pure hm')

/-! ## Errors -/

variable {run run' : Runner} (hrun : ∀ vm args s, Same rt (run vm args s) (run' vm args s))

theorem same_reportAtTop (vm : InstanceId) (e : HookError) (info : String) :
    Same rt (reportAtTop rt vm e info) (reportAtTop (rt.under φ) vm e info) := by
  refine (alike rt).bind (alike_getInstance vm) fun i i' hi => ?_
  rw [hi.read (·.displayName) fun _ => rfl]
  exact (alike rt).ite (same_note rfl) (same_note rfl)

include hrun

theorem same_showTo (p : InstanceId) (e : HookError) (info : String) (hs : List Handler) :
    Same rt (showTo run p e info hs) (showTo run' p e info hs) := by
  induction hs with
  | nil => exact same_pure false
  | cons h rest ih =>
    refine (alike rt).bindSame (hrun p _ h.script) fun r => ?_
    split
    · exact same_pure true
    · exact ih

theorem same_showFrom (e : HookError) (info : String) (fuel : Nat) (p : Option InstanceId) :
    Same rt (showFrom run e info fuel p) (showFrom run' e info fuel p) := by
  induction fuel generalizing p with
  | zero => exact same_pure false
  | succ fuel ih =>
    refine (alike rt).bindSame (same_alive? p) fun p => ?_
    cases p with
    | none => exact same_pure false
    | some p =>
      refine getInstanceThen fun i o d ho => (alike rt).ite ?_ ?_
      · rw [ho.read (·.errorCaptured) fun _ => rfl]
        refine (alike rt).bindSame (alike_withAccess p .exclusive (same_showTo hrun p e info _)) ?_
        exact fun kept => (alike rt).ite (same_pure true) (ih i.parent)
      · exact (alike rt).bindSame (same_note rfl) fun _ => same_pure false

theorem same_report (vm : InstanceId) (e : HookError) (info : String) :
    Same rt (report rt run vm e info) (report (rt.under φ) run' vm e info) := by
  refine (alike rt).bind alike_get fun w w' hw => getInstanceThen fun i o d ho => ?_
  rw [hw.size]
  refine (alike rt).bindSame (same_showFrom hrun e info _ i.parent) fun kept => ?_
  exact (alike rt).ite (same_reportAtTop vm e info) (same_pure ())

theorem same_attempt (vm : InstanceId) (info : String) {code code' : Eng (Except HookError α)}
    (hcode : Same rt code code') :
    Same rt (attempt rt run vm info code) (attempt (rt.under φ) run' vm info code') := by
  refine getInstanceThen fun i o d ho => (alike rt).ite ?_ ?_
  · refine alike_withAccess vm .exclusive ((alike rt).bindSame hcode fun r => ?_)
    cases r with
    | ok a => exact same_pure (some a)
    | error e =>
      exact (alike rt).bindSame (same_report hrun vm e info) fun _ => same_pure none
  · exact (alike rt).bindSame (same_note rfl) fun _ => same_pure none

/-! ## Acting on an instance -/

theorem same_callMethod (vm : InstanceId) (name : String) (args : List Value) :
    Same rt (callMethod run vm name args) (callMethod run' vm name args) := by
  refine getInstanceThen fun i o d ho => ?_
  dsimp only
  cases Dict.get? i.methods name with
  | some s => exact hrun vm args s
  | none => exact same_pure _

theorem same_runWatcher (vm : InstanceId) (h : WatchHandler) (value old : Value) :
    Same rt (runWatcher run vm h value old) (runWatcher run' vm h value old) := by
  obtain ⟨callback, immediate⟩ := h
  cases callback with
  | handler f => exact (alike rt).bindSame (hrun vm _ _) fun _ => same_pure _
  | method name => exact (alike rt).bindSame (same_callMethod hrun vm _ _) fun _ => same_pure _

theorem same_runWatchers (vm : InstanceId) (info : String) (value old : Value)
    (hs : List WatchHandler) : Same rt (runWatchers rt run vm info value old hs)
      (runWatchers (rt.under φ) run' vm info value old hs) := by
  induction hs with
  | nil => exact same_pure ()
  | cons h rest ih =>
    refine (alike rt).bindSame (same_runWatcher hrun vm h value old) fun r => ?_
    cases r with
    | ok _ => exact ih
    | error e => exact (alike rt).bindSame (same_report hrun vm e info) fun _ => ih

theorem same_notify (vm : InstanceId) (key : String) (value old : Value) :
    Same rt (notify rt run vm key value old) (notify (rt.under φ) run' vm key value old) := by
  refine getInstanceThen fun i o d ho => ?_
  dsimp only
  cases Dict.get? i.watchers key with
  | some hs => exact same_runWatchers hrun vm _ value old hs
  | none => exact same_pure ()

theorem same_set (vm : InstanceId) (key : String) (value : Value) :
    Same rt (set rt run vm key value) (set (rt.under φ) run' vm key value) := by
  refine getInstanceThen fun i o d ho => ?_
  dsimp only
  cases Dict.get? i.data key with
  | some old =>
    refine (alike rt).bindSame (same_modifyInstance vm fun _ => rfl) fun _ => ?_
    exact (alike rt).bindSame (same_notify hrun vm key value old) fun _ => same_pure true
  | none =>
    dsimp only
    cases Dict.get? i.props key with
    | some old =>
      refine (alike rt).bindSame (same_modifyInstance vm fun _ => rfl) fun _ => ?_
      refine (alike rt).bindSame (same_warn rt _ vm _) fun _ => ?_
      exact (alike rt).bindSame (same_notify hrun vm key value old) fun _ => same_pure true
    | none => exact (alike rt).bindSame (same_warn rt _ vm _) fun _ => same_pure false

theorem same_callListener (f : Listener) (args : List Value) :
    Same rt (callListener run f args) (callListener run' f args) := by
  obtain ⟨id, body⟩ := f
  cases body with
  | recorder label =>
    refine (alike rt).bindSame (same_note rfl) fun _ => ?_
    exact (alike rt).ite (same_pure _) (same_pure _)
  | method target name =>
    refine (alike rt).bindSame (same_alive? target) fun target => ?_
    cases target with
    | none => exact same_pure _
    | some vm =>
      refine getInstanceThen fun i o d ho => (alike rt).ite ?_ (same_pure _)
      refine (alike rt).bindSame ?_ fun _ => same_pure _
      exact alike_withAccess vm .exclusive (same_callMethod hrun vm name args)

theorem same_callListeners (vm : InstanceId) (info : String) (args : List Value)
    (fs : List Listener) : Same rt (callListeners rt run vm info args fs)
      (callListeners (rt.under φ) run' vm info args fs) := by
  induction fs with
  | nil => exact same_pure ()
  | cons f rest ih =>
    refine (alike rt).bindSame (same_callListener hrun f args) fun r => ?_
    cases r with
    | ok _ => exact ih
    | error e => exact (alike rt).bindSame (same_report hrun vm e info) fun _ => ih

theorem same_emit (vm : InstanceId) (event : String) (args : List Value) :
    Same rt (emit rt run vm event args) (emit (rt.under φ) run' vm event args) := by
  refine getInstanceThen fun i o d ho => ?_
  dsimp only
  cases Dict.get? i.events event with
  | some fs => exact same_callListeners hrun vm _ args fs
  | none => exact same_pure ()

omit hrun in
theorem same_listen (vm : InstanceId) (event label : String) :
    Same rt (listen vm event label) (listen vm event label) :=
  (alike rt).bindSame same_freshMark fun _ => same_modifyInstance vm fun _ => rfl

/-! ## Scripts -/

theorem same_act (vm : InstanceId) (args : List Value) (a : Action) :
    Same rt (act rt run vm args a) (act (rt.under φ) run' vm args a) := by
  refine (alike rt).bind (alike_getInstance vm) fun i i' hi => ?_
  have heval : Expr.eval (some i) args = Expr.eval (some i') args :=
    funext (Expr.eval_alike hi)
  rw [heval, hi.eq_with]
  cases a with
  | log e => exact (alike rt).bindSame (same_note rfl) fun _ => same_pure none
  | phase => exact (alike rt).bindSame (same_note rfl) fun _ => same_pure none
  | state => exact (alike rt).bindSame (same_note rfl) fun _ => same_pure none
  | set key e =>
    refine (alike rt).bindSame (same_set hrun vm key _) fun ok => ?_
    exact (alike rt).bindSame (same_note rfl) fun _ => same_pure none
  | call method es =>
    refine (alike rt).bindSame (same_callMethod hrun vm method _) fun r => ?_
    exact (alike rt).bindSame (same_note rfl) fun _ => same_pure none
  | emit event es => exact (alike rt).bindSame (same_emit hrun vm event _) fun _ => same_pure none
  | listen event label =>
    exact (alike rt).bindSame (same_listen vm event label) fun _ => same_pure none
  | unlisten event =>
    exact (alike rt).bindSame (same_modifyInstance vm fun i => rfl) fun _ => same_pure none
  | warn message => exact (alike rt).bindSame (same_warn rt _ vm message) fun _ => same_pure none
  | fail message => exact same_pure _
  | ret e => exact same_pure _

theorem same_actAll (vm : InstanceId) (args : List Value) (s : Script) :
    Same rt (actAll rt run vm args s) (actAll (rt.under φ) run' vm args s) := by
  induction s with
  | nil => exact same_pure _
  | cons a rest ih =>
    refine (alike rt).bindSame (same_act hrun vm args a) fun r => ?_
    cases r with
    | some r => exact same_pure r
    | none => exact ih

omit hrun in
/-- **Scripts** do alike under any flags, however deep they go. -/
theorem same_runScript (fuel : Nat) (vm : InstanceId) (args : List Value) (s : Script) :
    Same rt (runScript rt fuel vm args s) (runScript (rt.under φ) fuel vm args s) := by
  -- the scripts that a script calls have less fuel, and they are what its actions run
  induction fuel generalizing vm args s with
  | zero => exact same_throw _
  | succ fuel ih =>
    exact (alike rt).bindSame (same_invoke _) fun _ => same_actAll ih vm args s

end Eng

end Componentry
