import Componentry.Proofs.Engine.Ancestors
import Componentry.Proofs.Engine.Requests
import Componentry.Proofs.Engine.Using

/-!
# Errors on their way up

An error of author's code is shown to the handlers of errors of the ancestors: those of the nearest
one first, and those of one ancestor in their order. The first handler that returns false keeps the
error, and nobody hears of it any more. An error that nobody keeps is given to the handler of errors
for all, or else to the log.

- `World.keepers`: the handlers that an error passes, in order.
- `Eng.Shows`: an error is shown to handlers, up to the one that keeps it.
- `Eng.shows_showTo`, `Eng.shows_showFrom`: one ancestor, and all of them.
- `Eng.report_goes_up`: **an error goes up** to the first handler that keeps it, or is reported.
-/

namespace Componentry

open Json (Value)

variable {rt : Runtime} {run : Runner} {e : HookError} {info : String} {w w' w₁ : World}
  {vm p : InstanceId} {above : List InstanceId}

/-! ## Handlers of errors -/

/-- The handlers of errors of some instances, each with the instance it belongs to. -/
def World.keepers (w : World) (above : List InstanceId) : List (InstanceId × Handler) :=
  above.flatMap fun p => (w.instances.getD p default).options.errorCaptured.map (p, ·)

theorem World.Acted.keepers (h : w.Acted w') (above : List InstanceId) :
    w'.keepers above = w.keepers above := by
  refine congrArg (fun f => List.flatMap f above) (funext fun p => ?_)
  rw [(h.instances p).read (·.options) fun _ => rfl]

/-- What a handler came to keeps the error from going on. -/
def HookError.isKept : Except HookError Value → Bool
  | .ok (.bool false) => true
  | _ => false

theorem HookError.eq_of_isKept {r : Except HookError Value} (h : isKept r = true) :
    r = .ok (.bool false) := by
  unfold isKept at h
  split at h
  · rfl
  · cases h

theorem HookError.isKept_of_ne {r : Except HookError Value} (h : r ≠ .ok (.bool false)) :
    isKept r = false := by
  unfold isKept
  split
  · exact absurd rfl h
  · rfl

/-- Shows an error to one handler. Its instance is in use meanwhile. -/
def Eng.showOne (run : Runner) (e : HookError) (info : String) (k : InstanceId × Handler) :
    Eng (Except HookError Value) :=
  withAccess k.1 .exclusive (run k.1 [.str e.message, .str info] k.2.script)

/-- An error is shown to handlers one after the other, up to the first that keeps it. Each finds the
world that the one before left. In the end it is known whether the error was kept, unless a handler
never came to an end. -/
inductive Eng.Shows (run : Runner) (e : HookError) (info : String) :
    List (InstanceId × Handler) → World → Except Halt Bool → World → Prop
  | none (w : World) : Shows run e info [] w (.ok false) w
  | passed {k : InstanceId × Handler} {ks : List (InstanceId × Handler)} {w w₁ w' : World}
      {r : Except HookError Value} {kept : Except Halt Bool}
      (h : (showOne run e info k).run.run w = (.ok r, w₁)) (hr : HookError.isKept r = false)
      (rest : Shows run e info ks w₁ kept w') : Shows run e info (k :: ks) w kept w'
  | kept {k : InstanceId × Handler} {ks : List (InstanceId × Handler)} {w w' : World}
      {r : Except HookError Value}
      (h : (showOne run e info k).run.run w = (.ok r, w')) (hr : HookError.isKept r = true) :
      Shows run e info (k :: ks) w (.ok true) w'
  | endless {k : InstanceId × Handler} {ks : List (InstanceId × Handler)} {w w' : World}
      {halt : Halt} (h : (showOne run e info k).run.run w = (.error halt, w')) :
      Shows run e info (k :: ks) w (.error halt) w'

namespace Eng

namespace Shows

variable {k : InstanceId × Handler} {ks ks' : List (InstanceId × Handler)}
  {kept : Except Halt Bool}

/-- Handlers that pass an error on, and then others. -/
theorem append (h : Shows run e info ks w (.ok false) w₁)
    (h' : Shows run e info ks' w₁ kept w') : Shows run e info (ks ++ ks') w kept w' := by
  generalize hr : (Except.ok false : Except Halt Bool) = r at h
  induction h with
  | none _ => exact h'
  | passed hk hpass _ ih => exact .passed hk hpass (ih h' hr)
  | kept _ _ => cases hr
  | endless _ => cases hr

/-- Who comes after is not shown an error that was kept. -/
theorem append_of_ne (h : Shows run e info ks w kept w') (hkept : kept ≠ .ok false)
    (ks' : List (InstanceId × Handler)) : Shows run e info (ks ++ ks') w kept w' := by
  induction h with
  | none _ => exact absurd rfl hkept
  | passed hk hpass _ ih => exact .passed hk hpass (ih hkept)
  | kept hk hkeep => exact .kept hk hkeep
  | endless hk => exact .endless hk

/-- Where an error stops: those before passed it on. -/
theorem stopped (h : Shows run e info ks w kept w') (hkept : kept ≠ .ok false) :
    ∃ done k rest w₁, ks = done ++ k :: rest ∧ Shows run e info done w (.ok false) w₁ ∧
      (kept = .ok true ∧ (showOne run e info k).run.run w₁ = (.ok (.ok (.bool false)), w') ∨
        ∃ halt, kept = .error halt ∧ (showOne run e info k).run.run w₁ = (.error halt, w')) := by
  induction h with
  | none _ => exact absurd rfl hkept
  | @passed k ks w w₁ w' r kept hk hpass _ ih =>
    obtain ⟨done, k', rest, w₂, rfl, hdone, hstop⟩ := ih hkept
    exact ⟨k :: done, k', rest, w₂, rfl, .passed hk hpass hdone, hstop⟩
  | @kept k ks w w' r hk hkeep =>
    rw [HookError.eq_of_isKept hkeep] at hk
    exact ⟨[], k, ks, w, rfl, .none w, .inl ⟨rfl, hk⟩⟩
  | @endless k ks w w' halt hk => exact ⟨[], k, ks, w, rfl, .none w, .inr ⟨halt, rfl, hk⟩⟩

end Shows

theorem showTo_cons (p : InstanceId) (h : Handler) (rest : List Handler) :
    showTo run p e info (h :: rest) = run p [.str e.message, .str info] h.script >>= fun r =>
      if HookError.isKept r then pure true else showTo run p e info rest := by
  refine congrArg _ (funext fun r => ?_)
  split
  · rfl
  · next hne => rw [HookError.isKept_of_ne hne, if_neg Bool.false_ne_true]

variable (hrun : ∀ vm args s, Acts (run vm args s))
include hrun

/-- **One ancestor** is shown an error: each of its handlers in turn. -/
theorem shows_showTo (hs : List Handler) (hlt : p < w.instances.size) :
    Ends (withAccess p .exclusive (showTo run p e info hs)) w
      (Shows run e info (hs.map (p, ·)) w) := by
  induction hs generalizing w with
  | nil =>
    rw [Ends, showTo, run_withAccess_pure]
    exact .none w
  | cons h rest ih =>
    have hacts : Acts (showOne run e info (p, h)) :=
      Within.withAccess p .exclusive (hrun p _ h.script)
    rw [showTo_cons, Ends, run_withAccess_bind hlt (Within.act (hrun p _ h.script))]
    refine Ends.bind (P := fun r w₁ =>
      w.Acted w₁ ∧ (showOne run e info (p, h)).run.run w = (r, w₁)) ⟨(hacts w).1, rfl⟩ ?_ ?_
    · rintro r w₁ ⟨hacted, hfirst⟩
      cases hkept : HookError.isKept r with
      | true =>
        rw [if_pos rfl, Ends, run_withAccess_pure]
        exact .kept hfirst hkept
      | false =>
        rw [if_neg Bool.false_ne_true]
        exact (ih (hacted.size ▸ hlt)).imp fun _ _ hrest => .passed hfirst hkept hrest
    · rintro halt w₁ ⟨-, hfirst⟩
      exact .endless hfirst

/-- **The ancestors** are shown an error, the nearest one first, if none of them is in use. -/
theorem shows_showFrom {fuel : Nat} {p : Option InstanceId} (habove : w.Above p above)
    (hfuel : above.length ≤ fuel)
    (hfree : ∀ b ∈ above, (w.instances.getD b default).access = .free) :
    Ends (showFrom run e info fuel p) w (Shows run e info (w.keepers above) w) := by
  induction above generalizing w p fuel with
  | nil =>
    cases fuel with
    | zero => exact .none w
    | succ fuel => exact Ends.next habove.run_alive? (.none w)
  | cons q rest ih =>
    cases fuel with
    | zero => cases hfuel
    | succ fuel =>
      refine Ends.next habove.run_alive? (Ends.getInstanceThen ?_)
      cases habove with
      | up halive hrest =>
        rw [List.forall_mem_cons] at hfree
        rw [if_pos hfree.1]
        have hacts : Acts (withAccess q .exclusive
            (showTo run q e info (w.instances.getD q default).options.errorCaptured)) :=
          Within.withAccess q .exclusive (within_showTo hrun q e info _)
        -- the handlers of the nearest one, and then those above if it was not kept
        refine Ends.bind ((Ends.of_within hacts w).and
          (shows_showTo hrun _ (World.lt_of_isAlive halive))) ?_ ?_
        · rintro kept w₁ ⟨⟨hacted, -⟩, hshows⟩
          cases kept with
          | true => exact hshows.append_of_ne (by simp) _
          | false =>
            have hfree' : ∀ b ∈ rest, (w₁.instances.getD b default).access = .free := fun b hb =>
              ((hacted.instances b).read (·.access) fun _ => rfl).trans (hfree.2 b hb)
            have hrest' := ih (hrest.acted hacted) (Nat.le_of_succ_le_succ hfuel) hfree'
            rw [hacted.keepers] at hrest'
            exact hrest'.imp fun _ _ h => hshows.append h
        · rintro halt w₁ ⟨-, hshows⟩
          exact hshows.append_of_ne (by simp) _

end Eng

/-! ## Reports -/

/-- What is made known of an error that nobody kept: the handler of errors gets it, or else the
log. -/
def Runtime.failureOf (rt : Runtime) (w : World) (vm : InstanceId) (e : HookError)
    (info : String) : LogEntry :=
  let name := (w.instances.getD vm default).displayName
  if rt.config.handlers then .failure e.message (some name) info
  else .line .error ("Error in " ++ info ++ " " ++ name ++ ": \"" ++ e.message ++ "\"")

/-- Author's code makes no difference to it. -/
theorem World.Acted.failureOf (h : w.Acted w') (rt : Runtime) (vm : InstanceId) (e : HookError)
    (info : String) : rt.failureOf w' vm e info = rt.failureOf w vm e info := by
  rw [Runtime.failureOf, (h.instances vm).read (·.displayName) fun _ => rfl]
  rfl

namespace Eng

theorem run_reportAtTop (rt : Runtime) (vm : InstanceId) (e : HookError) (info : String)
    (w : World) :
    (reportAtTop rt vm e info).run.run w = (.ok (), w.noted [rt.failureOf w vm e info]) := by
  rw [reportAtTop, Runtime.failureOf]
  cases rt.config.handlers with
  | false => rfl
  | true => rfl

/-- All of the handlers passed the error on. -/
abbrev PassedOn (run : Runner) (e : HookError) (info : String) (ks : List (InstanceId × Handler))
    (w w' : World) : Prop := Shows run e info ks w (.ok false) w'

/-- How an error goes up through handlers. Either all pass it on, and then it is made known, once.
Or it comes to a handler that keeps it, or that never comes to an end, and that is all. -/
def GoesUp (rt : Runtime) (vm : InstanceId) (e : HookError) (info : String)
    (ks : List (InstanceId × Handler)) (w : World) (r : Except Halt Unit) (w' : World) : Prop :=
  (∃ w₁, r = .ok () ∧ PassedOn rt.run e info ks w w₁ ∧ w' = w₁.noted [rt.failureOf w vm e info]) ∨
  ∃ done k rest w₁, ks = done ++ k :: rest ∧ PassedOn rt.run e info done w w₁ ∧
    (r = .ok () ∧ (showOne rt.run e info k).run.run w₁ = (.ok (.ok (.bool false)), w') ∨
      r = .error .outOfFuel ∧ (showOne rt.run e info k).run.run w₁ = (.error .outOfFuel, w'))

/-- **An error goes up** through the handlers of the ancestors, and never to those of the instance
itself, to the first one that keeps it. If none does, it is made known. -/
theorem report_goes_up (rt : Runtime) (e : HookError) (info : String)
    (habove : w.Above (w.kin vm).parent above)
    (hfree : ∀ p ∈ above, (w.instances.getD p default).access = .free) :
    vm ∉ above ∧ Ends (report rt rt.run vm e info) w (GoesUp rt vm e info (w.keepers above) w) := by
  refine ⟨habove.not_mem, ?_⟩
  have hacts : Acts (showFrom rt.run e info (w.instances.size + 1) (w.kin vm).parent) :=
    within_showFrom rt.acts_run e info _ _
  have hshows : Ends (showFrom rt.run e info _ _) w (Shows rt.run e info (w.keepers above) w) :=
    shows_showFrom rt.acts_run habove (Nat.le_succ_of_le habove.length_le) hfree
  refine Ends.next (a := w) (v := w) rfl (Ends.getInstanceThen ?_)
  refine Ends.bind ((Ends.of_within hacts w).and hshows) ?_ ?_
  · rintro kept w₁ ⟨⟨hacted, -⟩, hshows⟩
    cases kept with
    | false =>
      rw [Ends]
      show GoesUp rt vm e info _ w ((reportAtTop rt vm e info).run.run w₁).1
        ((reportAtTop rt vm e info).run.run w₁).2
      rw [run_reportAtTop, hacted.failureOf]
      exact .inl ⟨w₁, rfl, hshows, rfl⟩
    | true =>
      obtain ⟨done, k, rest, w₂, hks, hdone, ⟨-, hk⟩ | ⟨halt, hhalt, -⟩⟩ :=
        hshows.stopped (by simp)
      · exact .inr ⟨done, k, rest, w₂, hks, hdone, .inl ⟨rfl, hk⟩⟩
      · cases hhalt
  · rintro halt w₁ ⟨⟨-, hhalt⟩, hshows⟩
    cases hhalt halt rfl
    obtain ⟨done, k, rest, w₂, hks, hdone, ⟨h, -⟩ | ⟨halt, hhalt, hk⟩⟩ := hshows.stopped (by simp)
    · cases h
    · cases hhalt
      exact .inr ⟨done, k, rest, w₂, hks, hdone, .inr ⟨rfl, hk⟩⟩

/-- Options with handlers of errors. -/
def capturing (hs : List Handler) : Options := { fields := { errorCaptured := some (.new hs) } }

/-- An error of a grandchild, whose parent passes it on to a root that keeps it. -/
theorem report_goes_up_two :
    let w := World.descent [capturing [⟨0, [.ret (.lit (.bool false))]⟩], capturing [⟨1, []⟩], {}]
    w.keepers [1, 0] = [(1, ⟨1, []⟩), (0, ⟨0, [.ret (.lit (.bool false))]⟩)] ∧
    w.Above (w.kin 2).parent [1, 0] ∧
    (∀ p ∈ [1, 0], (w.instances.getD p default).access = .free) ∧
    2 ∉ [1, 0] ∧ Ends (report {} (Runtime.run {}) 2 ⟨"oops"⟩ "created hook") w
      (GoesUp {} 2 ⟨"oops"⟩ "created hook" (w.keepers [1, 0]) w) := by
  intro w
  have habove : w.Above (w.kin 2).parent [1, 0] := .up rfl (.up rfl (.top rfl))
  have hfree : ∀ p ∈ [1, 0], (w.instances.getD p default).access = .free := by decide
  exact ⟨rfl, habove, hfree, report_goes_up {} ⟨"oops"⟩ "created hook" habove hfree⟩

end Eng

end Componentry
