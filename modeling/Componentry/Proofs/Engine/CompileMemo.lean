import Componentry.Proofs.Engine.Requests
import Componentry.Proofs.Template.Fingerprint
import Mathlib.Data.List.Forall2

/-!
# Compiling each template once

A template that was compiled before is not compiled again: what is remembered under its digest is
given. That is what was asked for first under this digest, and the same template as long as digests
tell apart what was asked for.

- `CompiledTemplate.Of`: render functions that do what a compilation says.
- `World.Remembers`: **what is remembered** is of what was asked for first under its digest.
- `Eng.succeeds_compile`: compiling gives that, and keeps to it.
- `Eng.succeeds_compileAll`: so do compilations in a row.
- `compiled_as_first_asked`: **compilations are remembered by fingerprint**, and so each gives what
  compiling afresh gives where there is no NUL; `compiled_as_another` is what happens with one.
-/

namespace Componentry

open Template (CompileSettings fingerprint NulFree)

/-- Render functions that do what a compilation says, and its problems. -/
structure CompiledTemplate.Of (c : CompiledTemplate) (t : Template.Compiled) : Prop where
  render : c.render.value = .template t.root
  statics : c.statics.map (·.value) = t.statics.map .fixed
  problems : c.problems = t.problems

/-- The first compilation that was asked for under a digest. -/
def Runtime.firstAsked (rt : Runtime) (asked : List (CompileSettings × String)) (key : String) :
    Option (CompileSettings × String) := asked.find? fun q => rt.digest q.1 q.2 = key

/-- Under each digest that was asked for there is what the first compilation gave, and nothing else
is remembered. -/
def World.Remembers (rt : Runtime) (w : World) : Prop :=
  ∀ key, Option.Rel (fun c q => c.Of (Template.compile q.1 q.2)) (Dict.get? w.memo key)
    (rt.firstAsked w.asked key)

variable {rt : Runtime} {w w' : World} {asked more : List (CompileSettings × String)}
  {q p : CompileSettings × String} {key : String}

namespace Runtime

theorem firstAsked_append (h : rt.firstAsked asked key = some q) :
    rt.firstAsked (asked ++ more) key = some q := by
  rw [firstAsked] at h ⊢
  rw [List.find?_append, h, Option.some_or]

theorem firstAsked_snoc (h : rt.firstAsked asked key = none) (p : CompileSettings × String) :
    rt.firstAsked (asked ++ [p]) key = if rt.digest p.1 p.2 = key then some p else none := by
  rw [firstAsked] at h ⊢
  rw [List.find?_append, h, Option.none_or, List.find?_singleton]
  simp only [decide_eq_true_eq]

theorem firstAsked_spec (h : rt.firstAsked asked key = some q) :
    q ∈ asked ∧ rt.digest q.1 q.2 = key := by
  have hkey := List.find?_some
    (p := fun q : CompileSettings × String => decide (rt.digest q.1 q.2 = key)) h
  exact ⟨List.mem_of_find?_eq_some h, of_decide_eq_true hkey⟩

end Runtime

/-- The world when a compilation was asked for, some marks were given out and there were some
warnings about the markup. What is remembered stands for itself. -/
def World.compiled (w : World) (q : CompileSettings × String) (marks : Nat) (es : List LogEntry)
    (memo : Dict CompiledTemplate) (compilations : Nat) : World :=
  { w.noted es with
    forest := { (w.noted es).forest with nextMark := w.forest.nextMark + marks }
    asked := w.asked ++ [q]
    memo
    compilations }

namespace World.Remembers

theorem of_new (hmemo : w.memo = []) (hasked : w.asked = []) : w.Remembers rt := fun key => by
  rw [hmemo, hasked]
  exact .none

/-- Anything but compiling makes no difference. -/
theorem congr (h : w.Remembers rt) (hmemo : w'.memo = w.memo) (hasked : w'.asked = w.asked) :
    w'.Remembers rt := fun key => by
  rw [hmemo, hasked]
  exact h key

/-- Asking again. -/
theorem again (h : w.Remembers rt) (hmemo : w'.memo = w.memo) (hasked : w'.asked = w.asked ++ [q])
    (hq : rt.firstAsked w.asked (rt.digest q.1 q.2) = some p) : w'.Remembers rt := fun key => by
  rw [hmemo, hasked]
  have hkey := h key
  cases hfirst : rt.firstAsked w.asked key with
  | some p' =>
    rw [Runtime.firstAsked_append hfirst, ← hfirst]
    exact hkey
  | none =>
    rw [Runtime.firstAsked_snoc hfirst, if_neg, ← hfirst]
    · exact hkey
    · rintro rfl
      rw [hq] at hfirst
      cases hfirst

/-- Asking for the first time. -/
theorem anew {c : CompiledTemplate} (h : w.Remembers rt)
    (hmemo : w'.memo = Dict.insert (rt.digest q.1 q.2) c w.memo)
    (hasked : w'.asked = w.asked ++ [q]) (hq : rt.firstAsked w.asked (rt.digest q.1 q.2) = none)
    (hc : c.Of (Template.compile q.1 q.2)) : w'.Remembers rt := fun key => by
  rw [hmemo, hasked, Dict.get?_insert]
  by_cases hkey : key = rt.digest q.1 q.2
  · subst hkey
    rw [if_pos rfl, Runtime.firstAsked_snoc hq, if_pos rfl]
    exact .some hc
  · have h' := h key
    rw [if_neg hkey]
    cases hfirst : rt.firstAsked w.asked key with
    | some p' =>
      rw [Runtime.firstAsked_append hfirst, ← hfirst]
      exact h'
    | none =>
      rw [Runtime.firstAsked_snoc hfirst, if_neg (Ne.symm hkey), ← hfirst]
      exact h'

end World.Remembers

/-! ## Computations that are known to succeed -/

/-- The computation succeeds, and what it gives and what it leaves have the property. -/
def Eng.Succeeds {α : Type} (m : Eng α) (w : World) (Q : α → World → Prop) : Prop :=
  ∃ a w', m.run.run w = (.ok a, w') ∧ Q a w'

namespace Eng.Succeeds

variable {α β : Type} {m : Eng α} {g : α → Eng β} {P : α → World → Prop} {Q : β → World → Prop}

theorem imp {P' : α → World → Prop} (hm : Succeeds m w P) (h : ∀ a w', P a w' → P' a w') :
    Succeeds m w P' := by
  obtain ⟨a, w', hrun, hP⟩ := hm
  exact ⟨a, w', hrun, h a w' hP⟩

theorem pure {a : α} (h : P a w) : Succeeds (Pure.pure a) w P := ⟨a, w, rfl, h⟩

theorem modifyGet {f : World → α × World} (h : P (f w).1 (f w).2) :
    Succeeds (MonadState.modifyGet f) w P := ⟨_, _, rfl, h⟩

theorem bind (hm : Succeeds m w P) (hg : ∀ a w', P a w' → Succeeds (g a) w' Q) :
    Succeeds (m >>= g) w Q := by
  obtain ⟨a, w', hrun, hP⟩ := hm
  obtain ⟨b, w'', hrun', hQ⟩ := hg a w' hP
  refine ⟨b, w'', ?_, hQ⟩
  rw [ExceptT.run_bind, StateT.run_bind, hrun]
  exact hrun'

theorem getThen {g : World → Eng β} (hg : Succeeds (g w) w Q) :
    Succeeds (MonadState.get >>= g) w Q := hg

theorem getHostThen {g : Host → Eng β} (hg : Succeeds (g w.host) w Q) :
    Succeeds (getHost >>= g) w Q := hg

theorem getInstanceThen {vm : InstanceId} {g : Instance → Eng β}
    (hg : Succeeds (g (w.instances.getD vm default)) w Q) :
    Succeeds (getInstance vm >>= g) w Q := hg

theorem modifyThen {f : World → World} {g : Unit → Eng β} (hg : Succeeds (g ()) (f w) Q) :
    Succeeds (modify f >>= g) w Q := hg

variable {R : World → World → Prop}

/-- A computation that keeps to a relation and never comes to a halt. -/
theorem of_within (h : Within R (fun _ => False) m) (w : World) :
    Succeeds m w fun _ w' => R w w' := by
  obtain ⟨hR, hhalt⟩ := h w
  generalize hout : m.run.run w = out at hR hhalt
  obtain ⟨r, w'⟩ := out
  cases r with
  | ok a => exact ⟨a, w', hout, hR⟩
  | error e => exact (hhalt e rfl).elim

theorem within {H : Halt → Prop} (h : ∀ w, Succeeds m w fun _ w' => R w w') : Within R H m := by
  intro w
  obtain ⟨a, w', hrun, hR⟩ := h w
  rw [hrun]
  exact ⟨hR, nofun⟩

/-- Such a computation, and what comes next. -/
theorem after (hm : Within R (fun _ => False) m) (hg : ∀ a w', R w w' → Succeeds (g a) w' Q) :
    Succeeds (m >>= g) w Q := (of_within hm w).bind hg

end Eng.Succeeds

namespace Eng

/-! ## One compilation -/

/-- The world when some marks were given out. -/
def passing (w : World) (n : Nat) : World :=
  { w with forest := { w.forest with nextMark := w.forest.nextMark + n } }

theorem passing_passing (w : World) (n m : Nat) : passing (passing w n) m = passing w (n + m) := by
  simp only [passing, Nat.add_assoc]

/-- Putting up static trees takes a mark for each, and nothing else. -/
theorem succeeds_installStatics (trees : List VNode) (w : World) :
    Succeeds (trees.mapM fun tree => do return (⟨some (← freshMark), .fixed tree⟩ : RenderFn)) w
      fun fns w' => fns.map (·.value) = trees.map .fixed ∧ w' = passing w trees.length := by
  induction trees generalizing w with
  | nil =>
    rw [List.mapM_nil]
    exact .pure ⟨rfl, rfl⟩
  | cons tree rest ih =>
    rw [List.mapM_cons]
    have hfn : Succeeds (do return (⟨some (← freshMark), .fixed tree⟩ : RenderFn)) w
        fun f w' => f.value = .fixed tree ∧ w' = passing w 1 := ⟨_, _, rfl, rfl, rfl⟩
    refine hfn.bind fun f w₁ ⟨hvalue, hw₁⟩ => (ih w₁).bind fun fns w₂ ⟨hvalues, hw₂⟩ => .pure ?_
    rw [List.map_cons, List.map_cons, hvalue, hvalues, hw₂, hw₁, passing_passing, List.length_cons,
      Nat.add_comm]
    exact ⟨rfl, rfl⟩

/-- Putting up a compilation takes a mark for each function, and nothing else. -/
theorem succeeds_install (t : Template.Compiled) (w : World) :
    Succeeds (install t) w fun c w' => c.Of t ∧ w' = passing w (1 + c.statics.length) := by
  have hmark : Succeeds freshMark w fun _ w' => w' = passing w 1 := ⟨_, _, rfl, rfl⟩
  refine hmark.bind fun mark w₁ hw₁ => ?_
  refine (succeeds_installStatics t.statics w₁).bind fun fns w₂ ⟨hvalues, hw₂⟩ => .pure ?_
  have hlength := congrArg List.length hvalues
  rw [List.length_map, List.length_map] at hlength
  exact ⟨⟨rfl, hvalues, rfl⟩, by rw [hw₂, hw₁, passing_passing, hlength]⟩

/-- Warnings about markup go to the journal. -/
theorem succeeds_warnMisplaced (count : Nat) (w : World) :
    Succeeds (warnMisplaced count) w fun _ w' => ∃ es, (∀ e ∈ es, ∃ text, e = .line .warn text) ∧
      w' = w.noted es := by
  have hwarn : ∀ (texts : List String) (w : World),
      Succeeds (texts.forM fun text => note (.line .warn text)) w fun _ w' =>
        w' = w.noted (texts.map (.line .warn)) := by
    intro texts
    induction texts with
    | nil => exact fun w => .pure rfl
    | cons text rest ih =>
      intro w
      have hnote : Succeeds (note (.line .warn text)) w fun _ w' =>
          w' = w.noted [.line .warn text] := ⟨_, _, rfl, rfl⟩
      refine hnote.bind fun _ w₁ hw₁ => (ih w₁).imp fun _ w₂ hw₂ => ?_
      rw [hw₂, hw₁, ← World.noted_append]
      rfl
  refine (hwarn _ w).imp fun _ w' hw' => ⟨_, fun e he => ?_, hw'⟩
  obtain ⟨text, -, rfl⟩ := List.mem_map.mp he
  exact ⟨text, rfl⟩

section

variable {s : CompileSettings} {template : String}

/-- Compiling what is remembered. -/
theorem succeeds_compile_hit {hit : CompiledTemplate}
    (hhit : Dict.get? w.memo (rt.digest s template) = some hit) :
    Succeeds (compile rt s template) w fun c w' => c = hit ∧
      w' = w.compiled (s, template) (1 + c.statics.length) [] w.memo w.compilations := by
  rw [compile]
  refine .modifyThen (.getThen ?_)
  dsimp only
  rw [hhit]
  exact ⟨hit, _, rfl, rfl, rfl⟩

/-- Compiling what is not remembered. -/
theorem succeeds_compile_miss (hmiss : Dict.get? w.memo (rt.digest s template) = none) :
    Succeeds (compile rt s template) w fun c w' => c.Of (Template.compile s template) ∧
      ∃ es, (∀ e ∈ es, ∃ text, e = .line .warn text) ∧
        w' = w.compiled (s, template) (1 + c.statics.length) es
          (Dict.insert (rt.digest s template) c w.memo) (w.compilations + 1) := by
  rw [compile]
  refine .modifyThen (.getThen ?_)
  dsimp only
  rw [hmiss]
  refine .modifyThen ((succeeds_warnMisplaced _ _).bind fun _ w₂ ⟨es, hes, hw₂⟩ => ?_)
  refine (succeeds_install _ w₂).bind fun c w₃ ⟨hof, hw₃⟩ => ?_
  subst hw₃ hw₂
  exact ⟨c, _, rfl, hof, es, hes, rfl⟩

/-- **Compiling** gives what the first compilation under the digest says. -/
theorem succeeds_compile (s : CompileSettings) (template : String) (h : w.Remembers rt) :
    Succeeds (compile rt s template) w fun c w' => w'.Remembers rt ∧
      (∃ q, rt.firstAsked (w.asked ++ [(s, template)]) (rt.digest s template) = some q ∧
        c.Of (Template.compile q.1 q.2)) ∧
      ∃ es memo compilations, (∀ e ∈ es, ∃ text, e = .line .warn text) ∧
        w' = w.compiled (s, template) (1 + c.statics.length) es memo compilations := by
  have hkey := h (rt.digest s template)
  cases hhit : Dict.get? w.memo (rt.digest s template) with
  | some hit =>
    rw [hhit] at hkey
    obtain ⟨q, hq, hof⟩ : ∃ q, rt.firstAsked w.asked (rt.digest s template) = some q ∧
        hit.Of (Template.compile q.1 q.2) := by
      generalize rt.firstAsked w.asked (rt.digest s template) = first at hkey
      cases hkey with
      | some hof => exact ⟨_, rfl, hof⟩
    refine (succeeds_compile_hit hhit).imp fun c w' ⟨hc, hw'⟩ => ⟨?_, ⟨q, ?_, hc ▸ hof⟩, ?_⟩
    · rw [hw']
      exact h.again rfl rfl hq
    · exact Runtime.firstAsked_append hq
    · exact ⟨[], _, _, fun e he => (List.not_mem_nil he).elim, hw'⟩
  | none =>
    rw [hhit] at hkey
    have hq : rt.firstAsked w.asked (rt.digest s template) = none := by
      generalize rt.firstAsked w.asked (rt.digest s template) = first at hkey
      cases hkey with
      | none => rfl
    refine (succeeds_compile_miss hhit).imp fun c w' ⟨hof, es, hes, hw'⟩ =>
      ⟨?_, ⟨(s, template), ?_, hof⟩, es, _, _, hes, hw'⟩
    · rw [hw']
      exact h.anew rfl rfl hq hof
    · rw [Runtime.firstAsked_snoc hq, if_pos rfl]

end

/-! ## Compilations in a row -/

/-- Each gives what the first compilation under its digest says. -/
theorem succeeds_compileAll (calls : List (CompileSettings × String)) (h : w.Remembers rt) :
    Succeeds (calls.mapM fun q => compile rt q.1 q.2) w fun cs w' => w'.asked = w.asked ++ calls ∧
      List.Forall₂ (fun c q => q ∈ w'.asked ∧
        ∃ p, rt.firstAsked w'.asked (rt.digest q.1 q.2) = some p ∧
          c.Of (Template.compile p.1 p.2)) cs calls := by
  induction calls generalizing w with
  | nil =>
    rw [List.mapM_nil]
    exact .pure ⟨(List.append_nil _).symm, .nil⟩
  | cons q rest ih =>
    rw [List.mapM_cons]
    refine (succeeds_compile q.1 q.2 h).bind fun c w₁ ⟨h₁, ⟨p, hp, hof⟩, es, _, _, _, hw₁⟩ => ?_
    refine (ih h₁).bind fun cs w₂ ⟨hasked, hrest⟩ => .pure ?_
    have hasked₁ : w₁.asked = w.asked ++ [q] := by
      rw [hw₁]
      rfl
    refine ⟨?_, .cons ⟨?_, p, ?_, hof⟩ hrest⟩
    · rw [hasked, hasked₁, List.append_assoc]
      rfl
    · rw [hasked, hasked₁]
      exact List.mem_append_left rest (List.mem_append_right w.asked List.mem_cons_self)
    · rw [hasked, hasked₁]
      exact Runtime.firstAsked_append hp

end Eng

/-- The first of some compilations that has the fingerprint of another. -/
def firstAlike (calls : List (CompileSettings × String)) (q : CompileSettings × String) :
    Option (CompileSettings × String) :=
  calls.find? fun p => fingerprint p.1 p.2 = fingerprint q.1 q.2

theorem firstAlike_spec {calls : List (CompileSettings × String)}
    (h : firstAlike calls q = some p) :
    p ∈ calls ∧ fingerprint p.1 p.2 = fingerprint q.1 q.2 := by
  have hsame := List.find?_some (p := fun p : CompileSettings × String =>
    decide (fingerprint p.1 p.2 = fingerprint q.1 q.2)) h
  exact ⟨List.mem_of_find?_eq_some h, of_decide_eq_true hsame⟩

theorem find?_congr {α : Type} {f g : α → Bool} {as : List α} (h : ∀ a ∈ as, f a = g a) :
    as.find? f = as.find? g := by
  induction as with
  | nil => rfl
  | cons a rest ih =>
    rw [List.find?_cons, List.find?_cons, h a List.mem_cons_self,
      ih fun b hb => h b (List.mem_cons_of_mem a hb)]

/-- Where the digest tells fingerprints apart, going by one is going by the other. -/
theorem Runtime.firstAsked_eq {hash : List UInt8 → String}
    (hdigest : ∀ s template, rt.digest s template = hash (fingerprint s template))
    (hfree : ∀ p ∈ asked, hash (fingerprint p.1 p.2) = hash (fingerprint q.1 q.2) →
      fingerprint p.1 p.2 = fingerprint q.1 q.2) :
    rt.firstAsked asked (rt.digest q.1 q.2) = firstAlike asked q := by
  rw [firstAsked, firstAlike]
  refine find?_congr fun p hp => decide_eq_decide.mpr ?_
  rw [hdigest, hdigest]
  exact ⟨hfree p hp, congrArg hash⟩

/-- **Compilations are remembered by fingerprint.** However many are asked for of a compiler that
has compiled nothing yet, each gives what compiling afresh the first of them with its fingerprint
gives: the same tree to render, the same static trees, the same problems. This is the compilation
that was asked for if neither has a NUL in the template or in what opens expressions. -/
theorem compiled_as_first_asked {hash : List UInt8 → String}
    {calls : List (CompileSettings × String)}
    (hdigest : ∀ s template, rt.digest s template = hash (fingerprint s template))
    (hfree : ∀ p ∈ calls, ∀ q ∈ calls, hash (fingerprint p.1 p.2) = hash (fingerprint q.1 q.2) →
      fingerprint p.1 p.2 = fingerprint q.1 q.2)
    (hmemo : w.memo = []) (hasked : w.asked = []) :
    ∃ compiled w', (calls.mapM fun q => Eng.compile rt q.1 q.2).run.run w = (.ok compiled, w') ∧
      List.Forall₂ (fun c q => ∃ p, firstAlike calls q = some p ∧
        c.Of (Template.compile p.1 p.2) ∧ (NulFree p.1 p.2 → NulFree q.1 q.2 → p = q))
        compiled calls ∧
      ((∀ q ∈ calls, NulFree q.1 q.2) →
        List.Forall₂ (fun c q => c.Of (Template.compile q.1 q.2)) compiled calls) := by
  obtain ⟨compiled, w', hrun, hasked', hall⟩ :=
    Eng.succeeds_compileAll calls (show w.Remembers rt from .of_new hmemo hasked)
  rw [hasked, List.nil_append] at hasked'
  rw [hasked'] at hall
  have hfirst : List.Forall₂ (fun c q => q ∈ calls ∧ ∃ p, firstAlike calls q = some p ∧
      p ∈ calls ∧ c.Of (Template.compile p.1 p.2) ∧ (NulFree p.1 p.2 → NulFree q.1 q.2 → p = q))
      compiled calls := by
    refine hall.imp fun c q ⟨hq, p, hp, hof⟩ => ?_
    rw [Runtime.firstAsked_eq hdigest fun p hp => hfree p hp q hq] at hp
    obtain ⟨hmem, hsame⟩ := firstAlike_spec hp
    refine ⟨hq, p, hp, hmem, hof, fun h₀ h₀' => ?_⟩
    obtain ⟨hsettings, htemplate⟩ := Template.fingerprint_injective h₀ h₀' hsame
    exact Prod.ext hsettings htemplate
  refine ⟨compiled, w', hrun, ?_, fun hnul => ?_⟩
  · exact hfirst.imp fun c q ⟨_, p, hp, _, hof, heq⟩ => ⟨p, hp, hof, heq⟩
  · refine hfirst.imp fun c q ⟨hq, p, _, hmem, hof, heq⟩ => ?_
    rw [heq (hnul p hmem) (hnul q hq)] at hof
    exact hof

/-- The same template twice, and once with its comments in between. -/
def valueTwice : List (CompileSettings × String) :=
  [({}, "<p>{{ a }}</p>"), ({ comments := true }, "<p>{{ a }}</p>"), ({}, "<p>{{ a }}</p>")]

theorem compiled_as_first_asked_valueTwice :
    (∀ p ∈ valueTwice, ∀ q ∈ valueTwice,
      Digest.Sha256.hex (fingerprint p.1 p.2) = Digest.Sha256.hex (fingerprint q.1 q.2) →
        fingerprint p.1 p.2 = fingerprint q.1 q.2) ∧
    ∃ compiled w', (valueTwice.mapM fun q => Eng.compile {} q.1 q.2).run.run {} =
        (.ok compiled, w') ∧
      List.Forall₂ (fun c q => c.Of (Template.compile q.1 q.2)) compiled valueTwice ∧
      valueTwice.map (firstAlike valueTwice) =
        [some ({}, "<p>{{ a }}</p>"), some ({ comments := true }, "<p>{{ a }}</p>"),
          some ({}, "<p>{{ a }}</p>")] := by
  have hfree : ∀ p ∈ valueTwice, ∀ q ∈ valueTwice,
      Digest.Sha256.hex (fingerprint p.1 p.2) = Digest.Sha256.hex (fingerprint q.1 q.2) →
        fingerprint p.1 p.2 = fingerprint q.1 q.2 := by decide +kernel
  have hnul : ∀ q ∈ valueTwice, NulFree q.1 q.2 := by
    intro q hq
    simp only [valueTwice, List.mem_cons, List.not_mem_nil, or_false] at hq
    rcases hq with rfl | rfl | rfl
    all_goals exact ⟨by decide, fun o c h => by cases h⟩
  have hdigest : ∀ s template,
      ({} : Runtime).digest s template = Digest.Sha256.hex (fingerprint s template) :=
    fun _ _ => rfl
  obtain ⟨compiled, w', hrun, -, hall⟩ :=
    compiled_as_first_asked (w := {}) hdigest hfree rfl rfl
  exact ⟨hfree, compiled, w', hrun, hall hnul, by decide +kernel⟩

/-- A context with one property. -/
def valueContext : RenderContext Id where
  lookup path := if path = "a" then some (.str "value") else none
  applyFilter _ v := v
  renderStatic _ := .empty
  resolveComponent _ := none
  bindListener name := ⟨0, .recorder name⟩
  slot _ := []
  warn _ := ()

/-- The markup that a render function gives with that property. -/
def shownValue (f : RenderBody) : Option String :=
  match (f.run valueContext).run with
  | .ok tree => some tree.toHtml
  | .error _ => none

/-- A template that goes on as what stands behind a template for its delimiters, and a template
with these delimiters. -/
def lookalikes : List (CompileSettings × String) :=
  [({}, "<p>{{ a }}</p>\x00delimiters\x00[[\x00]]"),
    ({ delimiters := some ("[[", "]]") }, "<p>{{ a }}</p>")]

/-- **One compilation may be given for another** where there is a NUL: the first template goes on
as what stands behind the second for its delimiters, so that they have one fingerprint. Compiled
after it, the second renders as the first: what stands between braces is looked up, though the
template has other delimiters. -/
theorem compiled_as_another :
    lookalikes.map (fun q => fingerprint q.1 q.2) =
      List.replicate 2 (fingerprint { delimiters := some ("[[", "]]") } "<p>{{ a }}</p>") ∧
    ∃ c₁ c₂ w', (lookalikes.mapM fun q => Eng.compile {} q.1 q.2).run.run {} =
        (.ok [c₁, c₂], w') ∧
      shownValue c₂.render.value = some "<p>value</p>" ∧
      shownValue (.template
        (Template.compile { delimiters := some ("[[", "]]") } "<p>{{ a }}</p>").root) =
          some "<p>{{ a }}</p>" := by
  have hsame : lookalikes.map (fun q => fingerprint q.1 q.2) =
      List.replicate 2 (fingerprint { delimiters := some ("[[", "]]") } "<p>{{ a }}</p>") := by
    decide +kernel
  obtain ⟨compiled, w', hrun, hasked, hall⟩ := Eng.succeeds_compileAll lookalikes
    (show World.Remembers {} {} from .of_new rfl rfl)
  rw [show w'.asked = lookalikes from hasked] at hall
  cases hall with
  | cons _ hall =>
    cases hall with
    | cons hsecond hnil =>
      cases hnil
      obtain ⟨-, p, hp, hof⟩ := hsecond
      -- the one fingerprint has one digest, so that the first template counts
      have hfirst : Runtime.firstAsked {} lookalikes
          (Template.digest { delimiters := some ("[[", "]]") } "<p>{{ a }}</p>") =
            some ({}, "<p>{{ a }}</p>\x00delimiters\x00[[\x00]]") := by decide +kernel
      cases hfirst.symm.trans hp
      refine ⟨hsame, _, _, w', hrun, ?_, by decide +kernel⟩
      rw [hof.render]
      decide +kernel

end Componentry
