import Componentry.Proofs.Engine.CompileMemo
import Componentry.Proofs.Engine.SetUpOnce

/-!
# Where templates come from

The page is asked once for the markup of a selector, and the compiler is called for an instance that
has no render function. An account of both is kept, and every step of a mount keeps it in order.

- `Sourcing.Accounts`: lookups, what instances were given, and compilations agree with each other.
- `World.compiles`, `Progress.allowance`: how often the compiler was called for an instance, and how
  often it may still be called.
- `World.Spares`: both together never grow, and the accounts stay in order.
- `Eng.succeeds_templateOf`: a selector is looked up unless it was before.
- `Eng.succeeds_ensureRender`: **compiling for an instance** uses up what may be compiled for it.
-/

namespace Componentry

open Eng (Within Succeeds)

variable {rt : Runtime} {run : Runner} {w w' w'' : World} {vm c : InstanceId} {early : Bool}

/-! ## Accounts -/

/-- There is a render function. -/
def Progress.hasRender (p : Progress) : Bool := (p.options.part (·.render)).isSome

/-- The template option is a selector. -/
def Progress.Selects (p : Progress) (selector : String) : Prop :=
  p.options.field (·.template) = some (.markup selector) ∧ selector.startsWith "#" = true

namespace Sourcing

/-- The page is asked for a selector. -/
def looksUp (selector : String) : Sourcing → Bool
  | lookedUp s _ => s == selector
  | _ => false

/-- The compiler is called for an instance that is there, before its initialization began or from
then on. -/
def compilesFor (c : InstanceId) (early : Bool) : Sourcing → Bool
  | compiled vm (some i) _ => vm == c && (i.phase == .allocated) == early
  | _ => false

@[simp] theorem compilesFor_self (i : Instance) (template : String) :
    compilesFor c early (.compiled c (some i) template) = ((i.phase == .allocated) == early) := by
  simp [compilesFor]

@[simp] theorem compilesFor_none (template : String) :
    compilesFor c early (.compiled vm none template) = false := rfl

theorem compilesFor_of_ne (h : vm ≠ c) (found : Option Instance) (template : String) :
    compilesFor c early (.compiled vm found template) = false := by
  cases found <;> simp [compilesFor, h]

/-- Lookups, what instances were given, and compilations agree with each other. -/
structure Accounts (templates : Dict String) (log : List Sourcing) : Prop where
  /-- What was found is remembered, and nothing else is. -/
  remembered : ∀ s m, Dict.get? templates s = some m ↔ .lookedUp s m ∈ log
  /-- The page is asked once for each selector. -/
  once : ∀ s, log.countP (looksUp s) ≤ 1
  /-- Who has the selector for a template is given what was found. -/
  given : ∀ vm s m, .given vm s m ∈ log → .lookedUp s m ∈ log
  /-- The compiler is called for instances without a render function. -/
  bare : ∀ vm i t, .compiled vm (some i) t ∈ log → i.progress.hasRender = false
  /-- What is compiled for who has the selector for a template is what was found. -/
  found : ∀ vm i t s, .compiled vm (some i) t ∈ log → i.progress.Selects s → .lookedUp s t ∈ log

namespace Accounts

variable {templates : Dict String} {log : List Sourcing} {s m : String}

theorem empty : Accounts [] [] where
  remembered s m := by simp [Dict.get?]
  once s := by simp
  given vm s m h := by cases h
  bare vm i t h := by cases h
  found vm i t s h := by cases h

/-- A selector that is not remembered is looked up. -/
theorem lookUp (h : Accounts templates log) (hnone : Dict.get? templates s = none) (m : String) :
    Accounts (Dict.insert s m templates) (log ++ [.lookedUp s m]) where
  remembered s' m' := by
    rw [Dict.get?_insert, List.mem_append, List.mem_singleton, Sourcing.lookedUp.injEq]
    by_cases hs : s' = s
    · subst hs
      have hnot : Sourcing.lookedUp s' m' ∉ log := by
        rw [← h.remembered, hnone]
        simp
      simp [hnot, eq_comm]
    · simp [hs, h.remembered]
  once s' := by
    rw [List.countP_append, List.countP_singleton]
    by_cases hs : s = s'
    · subst hs
      have hzero : log.countP (looksUp s) = 0 := by
        refine List.countP_eq_zero.mpr fun e he hlooks => ?_
        cases e with
        | lookedUp s' m' =>
          -- it would be remembered
          have hs' : s' = s := by simpa [looksUp] using hlooks
          subst hs'
          rw [← h.remembered, hnone] at he
          cases he
        | given => cases hlooks
        | compiled => cases hlooks
      rw [hzero]
      split <;> decide
    · rw [if_neg (by simpa [looksUp] using hs)]
      exact h.once s'
  given vm s' m' hmem := by
    rcases List.mem_append.mp hmem with hmem | hmem
    · exact List.mem_append_left _ (h.given vm s' m' hmem)
    · simp at hmem
  bare vm i t hmem := by
    rcases List.mem_append.mp hmem with hmem | hmem
    · exact h.bare vm i t hmem
    · simp at hmem
  found vm i t s' hmem hs' := by
    rcases List.mem_append.mp hmem with hmem | hmem
    · exact List.mem_append_left _ (h.found vm i t s' hmem hs')
    · simp at hmem

/-- An entry that is no lookup and agrees with what is there. -/
theorem enter (h : Accounts templates log) {e : Sourcing} (hlooks : ∀ s, looksUp s e = false)
    (hgiven : ∀ vm s m, e = .given vm s m → .lookedUp s m ∈ log)
    (hbare : ∀ vm i t, e = .compiled vm (some i) t → i.progress.hasRender = false)
    (hfound : ∀ vm i t s, e = .compiled vm (some i) t → i.progress.Selects s →
      .lookedUp s t ∈ log) :
    Accounts templates (log ++ [e]) where
  remembered s m := by
    have hne : Sourcing.lookedUp s m ≠ e := by
      rintro rfl
      simpa [looksUp] using hlooks s
    simp [h.remembered, hne]
  once s := by
    rw [List.countP_append, List.countP_singleton, hlooks]
    exact h.once s
  given vm s m hmem := by
    refine List.mem_append_left _ ?_
    rcases List.mem_append.mp hmem with hmem | hmem
    · exact h.given vm s m hmem
    · exact hgiven vm s m (List.mem_singleton.mp hmem).symm
  bare vm i t hmem := by
    rcases List.mem_append.mp hmem with hmem | hmem
    · exact h.bare vm i t hmem
    · exact hbare vm i t (List.mem_singleton.mp hmem).symm
  found vm i t s hmem hs := by
    refine List.mem_append_left _ ?_
    rcases List.mem_append.mp hmem with hmem | hmem
    · exact h.found vm i t s hmem hs
    · exact hfound vm i t s (List.mem_singleton.mp hmem).symm hs

/-- A selector is looked up with one outcome. -/
theorem lookedUp_unique (h : Accounts templates log) {m' : String} (hm : .lookedUp s m ∈ log)
    (hm' : .lookedUp s m' ∈ log) : m' = m := by
  have hknown := (h.remembered s m).mpr hm
  rw [(h.remembered s m').mpr hm'] at hknown
  exact Option.some.inj hknown

end Accounts

end Sourcing

/-! ## How often the compiler is called -/

namespace Progress

/-- How often the compiler may still be called for an instance: before its initialization begins,
if it has no render function; and from then on, unless it has one. -/
def allowance (p : Progress) : Bool → Nat
  | true => if p.phase = .allocated ∧ p.hasRender = false then 1 else 0
  | false => if p.phase ≠ .allocated ∧ p.hasRender = true then 0 else 1

variable {p p' : Progress}

theorem allowance_le_one : p.allowance early ≤ 1 := by
  cases early <;> simp only [allowance] <;> split <;> decide

theorem allowance_early_eq_zero :
    p.allowance true = 0 ↔ p.phase ≠ .allocated ∨ p.hasRender = true := by
  unfold allowance
  by_cases hphase : p.phase = .allocated <;> cases p.hasRender <;> simp [hphase]

theorem allowance_late_eq_zero :
    p.allowance false = 0 ↔ p.phase ≠ .allocated ∧ p.hasRender = true := by
  unfold allowance
  by_cases hphase : p.phase = .allocated <;> cases p.hasRender <;> simp [hphase]

/-- Entering a phase allows for nothing more. -/
theorem allowance_advance {phase : Phase} (hphase : phase ≠ .allocated) :
    ({ p with phase } : Progress).allowance early ≤ p.allowance early := by
  have hsame : ({ p with phase } : Progress).hasRender = p.hasRender := rfl
  cases early
  · unfold allowance
    by_cases hp : p.phase = .allocated <;> cases hrender : p.hasRender <;>
      simp [hsame, hrender, hphase, hp]
  · rw [allowance_early_eq_zero.mpr (.inl hphase)]
    exact Nat.zero_le _

/-- Beginning the initialization, whatever options it gives, allows for nothing more. -/
theorem allowance_begin (hp : p.phase = .allocated) (hp' : p'.phase ≠ .allocated) :
    p'.allowance early ≤ p.allowance early := by
  cases early
  · have hone : p.allowance false = 1 := by
      unfold allowance
      simp [hp]
    rw [hone]
    exact allowance_le_one
  · rw [allowance_early_eq_zero.mpr (.inl hp')]
    exact Nat.zero_le _

/-- A compilation uses up what is allowed for. -/
theorem allowance_compile (early : Bool) (hbare : p.hasRender = false) (hphase : p'.phase = p.phase)
    (hrender : p'.hasRender = true) :
    (if (p.phase == .allocated) == early then 1 else 0) + p'.allowance early ≤
      p.allowance early := by
  cases early <;> unfold allowance <;> by_cases hp : p.phase = .allocated <;>
    simp [hphase, hp, hbare, hrender]

end Progress

/-- Everything that was looked up, given to instances or compiled, in order. -/
def World.sourcings (w : World) : List Sourcing := w.sourced.toList

/-- How often the page was asked for the markup that a selector names. -/
def World.lookups (w : World) (selector : String) : Nat :=
  w.sourcings.countP (Sourcing.looksUp selector)

/-- How often the compiler was called for an instance, before its initialization began or from then
on. -/
def World.compiles (w : World) (c : InstanceId) (early : Bool) : Nat :=
  w.sourcings.countP (Sourcing.compilesFor c early)

/-- How often it was called and may still be called. -/
def World.budget (w : World) (c : InstanceId) (early : Bool) : Nat :=
  w.compiles c early + (w.progress c).allowance early

/-- The accounts of a world are in order. -/
def World.Accounts (w : World) : Prop := Sourcing.Accounts w.templates w.sourcings

/-- If an instance has a selector for a template, this is what was found for it. -/
def World.FoundFor (w : World) (vm : InstanceId) (markup : String) : Prop :=
  ∀ s, (w.progress vm).Selects s → .lookedUp s markup ∈ w.sourcings

/-- Between the two, the accounts stayed in order, and the compiler was not called more often than
allowed for. -/
structure World.Spares (w w' : World) : Prop where
  grows : w.sourcings <+: w'.sourcings
  budget : ∀ c early, w'.budget c early ≤ w.budget c early
  accounts : w.Accounts → w'.Accounts

/-- Between the two, nothing was looked up and nothing compiled. -/
structure World.Unsourced (w w' : World) : Prop where
  templates : w'.templates = w.templates
  sourced : w'.sourced = w.sourced

/-- Between the two, no instance was made or got any further. -/
structure World.Paused (w w' : World) : Prop where
  size : w'.instances.size = w.instances.size
  progress : ∀ b, w'.progress b = w.progress b

/-- Between the two, nothing happened to templates or to instances on their way. -/
structure World.Dormant (w w' : World) : Prop extends World.Unsourced w w', World.Paused w w'

namespace World

/-- One entry more. -/
theorem sourcings_push {e : Sourcing} (h : w'.sourced = w.sourced.push e) :
    w'.sourcings = w.sourcings ++ [e] := by
  unfold sourcings
  rw [h, Array.toList_push]

namespace Unsourced

theorem sourcings (h : w.Unsourced w') : w'.sourcings = w.sourcings :=
  congrArg Array.toList h.sourced

theorem trans (h : w.Unsourced w') (h' : w'.Unsourced w'') : w.Unsourced w'' :=
  ⟨h'.templates.trans h.templates, h'.sourced.trans h.sourced⟩

instance : World.Slack World.Unsourced where
  refl _ := ⟨rfl, rfl⟩
  trans := trans
  acted h := ⟨h.read (·.templates) fun _ => rfl, h.read (·.sourced) fun _ => rfl⟩
  access h := ⟨h.templates, h.sourced⟩
  beside _ _ _ ht hs := ⟨ht, hs⟩

theorem set {H : Halt → Prop} {f : Instance → Instance} :
    Within World.Unsourced H (Eng.modifyInstance vm f) :=
  Within.modifyInstance vm fun _ => ⟨rfl, rfl⟩

theorem record {H : Halt → Prop} (what : Happening) :
    Within World.Unsourced H (Eng.record vm what) := Within.modifyGet fun _ => ⟨rfl, rfl⟩

end Unsourced

namespace Paused

theorem trans (h : w.Paused w') (h' : w'.Paused w'') : w.Paused w'' :=
  ⟨h'.size.trans h.size, fun b => (h'.progress b).trans (h.progress b)⟩

instance : World.Lax World.Paused where
  refl _ := ⟨rfl, fun _ => rfl⟩
  trans := trans
  acted h := ⟨h.size, fun b => (h.instances b).read Instance.progress fun _ => rfl⟩
  access {w w' vm a} h := by
    refine ⟨Array.size_modify.trans (h.size.trans Array.size_modify), fun b => ?_⟩
    rw [progress_setAccess, h.progress b, progress_setAccess]
  aside h _ _ := ⟨congrArg Array.size h, fun _ => progress_congr h⟩

end Paused

namespace Dormant

theorem trans (h : w.Dormant w') (h' : w'.Dormant w'') : w.Dormant w'' :=
  ⟨h.toUnsourced.trans h'.toUnsourced, h.toPaused.trans h'.toPaused⟩

instance : World.Slack World.Dormant where
  refl w := ⟨World.Frame.refl w, World.Frame.refl w⟩
  trans := trans
  acted h := ⟨World.Tolerant.acted h, World.Tolerant.acted h⟩
  access h := ⟨World.Tolerant.access h.toUnsourced, World.Tolerant.access h.toPaused⟩
  beside hi hc hh ht hs := ⟨World.Slack.beside hi hc hh ht hs, World.Slack.beside hi hc hh ht hs⟩

end Dormant

namespace Spares

theorem refl (w : World) : w.Spares w := ⟨List.prefix_rfl, fun _ _ => Nat.le_refl _, id⟩

theorem trans (h : w.Spares w') (h' : w'.Spares w'') : w.Spares w'' where
  grows := h.grows.trans h'.grows
  budget c early := Nat.le_trans (h'.budget c early) (h.budget c early)
  accounts := h'.accounts ∘ h.accounts

/-- Where nothing is looked up or compiled it is enough to allow for nothing more. -/
theorem of_unsourced (h : w.Unsourced w') (hallowance : ∀ b early,
    (w'.progress b).allowance early ≤ (w.progress b).allowance early) : w.Spares w' where
  grows := h.sourcings ▸ List.prefix_rfl
  budget c early := by
    unfold World.budget compiles
    rw [h.sourcings]
    exact Nat.add_le_add_left (hallowance c early) _
  accounts haccounts := by
    unfold World.Accounts
    rw [h.templates, h.sourcings]
    exact haccounts

theorem of_paused (h : w.Unsourced w') (hprogress : ∀ b, w'.progress b = w.progress b) :
    w.Spares w' :=
  of_unsourced h fun b early => Nat.le_of_eq (congrArg (·.allowance early) (hprogress b))

theorem of_dormant (h : w.Dormant w') : w.Spares w' := of_paused h.toUnsourced h.progress

instance : World.Slack World.Spares where
  refl := refl
  trans := trans
  acted h := of_paused (World.Tolerant.acted h) fun b =>
    (h.instances b).read Instance.progress fun _ => rfl
  access {w w' vm a} h := by
    refine ⟨h.grows, fun c early => ?_, h.accounts⟩
    have hbudget := h.budget c early
    unfold World.budget at hbudget ⊢
    rw [progress_setAccess] at hbudget ⊢
    exact hbudget
  beside hi hc hh ht hs := of_paused ⟨ht, hs⟩ fun _ => progress_congr hi

/-- Changing an instance so that nothing more is allowed for. -/
theorem modify {f : Instance → Instance} (w : World)
    (hf : ∀ i early, (f i).progress.allowance early ≤ i.progress.allowance early) :
    w.Spares { w with instances := w.instances.modify vm f } :=
  of_unsourced ⟨rfl, rfl⟩ fun b early =>
    forall_getD_modify
      (P := fun i i' => i'.progress.allowance early ≤ i.progress.allowance early)
      (fun _ => Nat.le_refl _) (hf _ early) b

theorem set {H : Halt → Prop} {f : Instance → Instance}
    (hf : ∀ i, (f i).progress = i.progress) :
    Within World.Spares H (Eng.modifyInstance vm f) :=
  Within.modifyInstance vm fun w => modify w fun i early =>
    Nat.le_of_eq (congrArg (·.allowance early) (hf i))

theorem record {H : Halt → Prop} (what : Happening) :
    Within World.Spares H (Eng.record vm what) :=
  Within.modifyGet fun _ => of_paused ⟨rfl, rfl⟩ fun _ => rfl

/-- Where nothing was compiled before, calls and what is allowed for are one at most. -/
theorem budget_le_one (h : w.Spares w') (hnone : w.sourced = #[]) (c : InstanceId) (early : Bool) :
    w'.budget c early ≤ 1 := by
  have hbudget := h.budget c early
  have hzero : w.compiles c early = 0 := by
    unfold compiles sourcings
    rw [hnone]
    rfl
  have hone : (w.progress c).allowance early ≤ 1 := Progress.allowance_le_one
  unfold World.budget at hbudget ⊢
  omega

theorem le_compiles (h : w.Spares w') (c : InstanceId) (early : Bool) :
    w.compiles c early ≤ w'.compiles c early := h.grows.sublist.countP_le

/-- Where nothing is allowed for, nothing is compiled, and nothing is allowed for later. -/
theorem of_spent (h : w.Spares w') (hspent : (w.progress c).allowance early = 0) :
    w'.compiles c early = w.compiles c early ∧ (w'.progress c).allowance early = 0 := by
  have hbudget := h.budget c early
  have hle := h.le_compiles c early
  unfold World.budget at hbudget
  omega

end Spares

/-- What is compiled from the beginning of an initialization on is not compiled before. -/
theorem compiles_late_eq_zero (hbudget : w.budget c false ≤ 1)
    (hphase : (w.progress c).phase = .allocated) : w.compiles c false = 0 := by
  have hone : (w.progress c).allowance false = 1 := by
    unfold Progress.allowance
    simp [hphase]
  unfold budget at hbudget
  omega

end World

/-! ## Templates -/

namespace Eng

/-- An entry in the log, and what comes next. -/
theorem Succeeds.sourceThen {β : Type} {Q : β → World → Prop} {step : World → Sourcing}
    {g : Unit → Eng β}
    (hg : Succeeds (g ()) { w with sourced := w.sourced.push (step w) } Q) :
    Succeeds (source step >>= g) w Q := hg

/-- An entry that keeps the accounts in order, and a compilation uses up what is allowed for. -/
theorem spares_enter {e : Sourcing} (h : w.Spares w') (hlog : w''.sourcings = w'.sourcings ++ [e])
    (hallowance : ∀ c early, (if Sourcing.compilesFor c early e then 1 else 0) +
      (w''.progress c).allowance early ≤ (w'.progress c).allowance early)
    (haccounts : w'.Accounts → Sourcing.Accounts w''.templates (w'.sourcings ++ [e])) :
    w.Spares w'' where
  grows := by
    rw [hlog]
    exact h.grows.trans (List.prefix_append _ _)
  budget c early := by
    refine Nat.le_trans ?_ (h.budget c early)
    unfold World.budget World.compiles
    rw [hlog, List.countP_append, List.countP_singleton, Nat.add_assoc]
    exact Nat.add_le_add_left (hallowance c early) _
  accounts hw := by
    unfold World.Accounts
    rw [hlog]
    exact haccounts (h.accounts hw)

/-- An entry that is no compilation for an instance. -/
theorem spares_push {e : Sourcing} (h : w.Spares w') (hlog : w''.sourced = w'.sourced.push e)
    (hcompiles : ∀ c early, Sourcing.compilesFor c early e = false)
    (hprogress : ∀ b, w''.progress b = w'.progress b)
    (haccounts : w'.Accounts → Sourcing.Accounts w''.templates (w'.sourcings ++ [e])) :
    w.Spares w'' := by
  refine spares_enter h (World.sourcings_push hlog) (fun c early => ?_) haccounts
  rw [hcompiles, hprogress]
  simp

/-- **Looking up** what a selector names: what is found is on the accounts. -/
theorem succeeds_templateOf (selector : String) (w : World) :
    Succeeds (templateOf rt selector) w fun markup w' => w.Spares w' ∧ w.Paused w' ∧
      (w'.Accounts → .lookedUp selector markup ∈ w'.sourcings) := by
  refine .getThen ?_
  cases hknown : Dict.get? w.templates selector with
  | some markup =>
    refine .pure ⟨.refl w, World.Frame.refl w, fun h => ?_⟩
    exact (h.remembered selector markup).mp hknown
  | none =>
    have hquery : Within World.Dormant (fun _ => False) (query rt selector) := within_query selector
    refine .after hquery fun found w₁ hdormant => .getHostThen ?_
    have hspares : ∀ markup, w.Spares { w₁ with
        templates := Dict.insert selector markup w₁.templates
        sourced := w₁.sourced.push (.lookedUp selector markup) } := by
      intro markup
      refine spares_push (.of_dormant hdormant) rfl (fun _ _ => rfl) (fun _ => rfl) fun h => ?_
      refine h.lookUp ?_ markup
      rw [hdormant.templates]
      exact hknown
    refine .modifyThen (.sourceThen (.pure ?_))
    refine ⟨hspares _, ⟨hdormant.size, hdormant.progress⟩, fun _ => ?_⟩
    rw [World.sourcings_push (w := w₁) rfl]
    exact List.mem_append_right _ List.mem_cons_self

/-- A step that finds markup to compile takes no instance any further, and what it finds for who
has a selector for a template is what was found for the selector. -/
structure Resolves (w : World) (vm : InstanceId) (template : Option String) (w' : World) :
    Prop where
  spares : w.Spares w'
  paused : w.Paused w'
  found : w'.Accounts → ∀ m, template = some m → w'.FoundFor vm m

/-- Finding markup that no selector names. -/
theorem resolves_of_within {m : Eng (Option String)}
    (hspares : Within World.Spares (fun _ => False) m)
    (hpaused : Within World.Paused (fun _ => False) m) (hnone : ∀ s, ¬(w.progress vm).Selects s) :
    Succeeds m w (Resolves w vm) :=
  (Succeeds.of_within (hspares.and hpaused) w).imp fun _ _ h =>
    ⟨h.1, h.2, fun _ _ _ s hs => (hnone s (h.2.progress vm ▸ hs)).elim⟩

/-- Finding the markup that a selector names. -/
theorem resolves_selector {selector : String} (hselects : (w.progress vm).Selects selector) :
    Succeeds (do
      let found ← templateOf rt selector
      source fun _ => .given vm selector found
      if found.isEmpty then warn rt vm ("Template element not found or is empty: " ++ selector)
      return some found) w (Resolves w vm) := by
  refine (succeeds_templateOf selector w).bind fun found w₁ ⟨hspares, hpaused, hlooked⟩ => ?_
  refine .sourceThen ?_
  have hgiven : w.Spares { w₁ with sourced := w₁.sourced.push (.given vm selector found) } := by
    refine spares_push hspares rfl (fun _ _ => rfl) (fun _ => rfl) fun h => ?_
    refine h.enter (fun _ => rfl) (fun b s t he => ?_) (fun _ _ _ he => ?_) fun _ _ _ _ he => ?_
    · cases he
      exact hlooked h
    · cases he
    · cases he
  have hresolves : ∀ w₂, World.Spares { w₁ with
      sourced := w₁.sourced.push (.given vm selector found) } w₂ → World.Paused { w₁ with
      sourced := w₁.sourced.push (.given vm selector found) } w₂ →
      Resolves w vm (some found) w₂ := by
    intro w₂ hspares₂ hpaused₂
    have hpaused' : w.Paused w₂ := hpaused.trans ⟨hpaused₂.size, hpaused₂.progress⟩
    refine ⟨hgiven.trans hspares₂, hpaused', fun h m hm s hs => ?_⟩
    rw [hpaused'.progress vm] at hs
    -- there is but one selector
    obtain rfl : selector = s := by
      have hsame := hselects.1.symm.trans hs.1
      injection hsame with hsame
      injection hsame
    obtain rfl := Option.some.inj hm
    refine h.given vm selector found (hspares₂.grows.subset ?_)
    rw [World.sourcings_push (w := w₁) rfl]
    exact List.mem_append_right _ List.mem_cons_self
  cases found.isEmpty with
  | true =>
    exact .after ((within_warn vm _).and (within_warn vm _)) fun _ w₂ ⟨hspares₂, hpaused₂⟩ =>
      .pure (hresolves w₂ hspares₂ hpaused₂)
  | false => exact .pure (hresolves _ (.refl _) (World.Frame.refl _))

/-- **Finding the markup** to compile for an instance. -/
theorem succeeds_resolveTemplate (el : Option NodeId) (w : World) :
    Succeeds (resolveTemplate rt vm el) w (Resolves w vm) := by
  refine .getInstanceThen ?_
  generalize htemplate : (w.instances.getD vm default).options.field (·.template) = template
  have hnone : (∀ s, template = some (.markup s) → s.startsWith "#" = false) →
      ∀ s, ¬(w.progress vm).Selects s := by
    intro h s ⟨hs, hhash⟩
    rw [h s (htemplate.symm.trans hs)] at hhash
    cases hhash
  cases template with
  | none => exact resolves_of_within (within_fromTarget el) (within_fromTarget el) (hnone nofun)
  | some t =>
    cases t with
    | node n =>
      exact .getHostThen (resolves_of_within (Within.pure _) (Within.pure _) (hnone nofun))
    | invalid v =>
      exact resolves_of_within ((within_warn vm _).bind fun _ => Within.pure none)
        ((within_warn vm _).bind fun _ => Within.pure none) (hnone nofun)
    | markup m =>
      dsimp only
      split
      · next hhash => exact resolves_selector ⟨htemplate, hhash⟩
      · next hhash =>
        have hplain := hnone fun s hs => by
          cases hs
          exact Bool.eq_false_iff.mpr hhash
        split
        · exact resolves_of_within (within_fromTarget el) (within_fromTarget el) hplain
        · exact resolves_of_within (Within.pure _) (Within.pure _) hplain

/-! ## Compiling for an instance -/

/-- Being called for an instance, and installing a render function in it, uses up what it may. -/
theorem allowance_installed (hpaused : w.Paused w') (hbare : (w.progress vm).hasRender = false)
    (template : String) (render : RenderFn) (statics : List RenderFn) (c : InstanceId)
    (early : Bool) :
    (if Sourcing.compilesFor c early (.compiled vm w.instances[vm]? template) then 1 else 0) +
      ((w'.instances.modify vm fun i =>
        { i with options := i.options.setRender render statics }).getD c
          default).progress.allowance early ≤ (w.progress c).allowance early := by
  by_cases hc : vm = c
  · subst hc
    by_cases hlt : vm < w.instances.size
    · have hi : w.instances[vm]? = some (w.instances.getD vm default) := by
        rw [Array.getElem?_eq_getElem hlt, Array.getD_eq_getD_getElem?,
          Array.getElem?_eq_getElem hlt]
        rfl
      rw [hi, Sourcing.compilesFor_self, getD_modify (hpaused.size ▸ hlt)]
      exact Progress.allowance_compile early hbare (congrArg Progress.phase (hpaused.progress vm) :)
        rfl
    · -- there is no such instance
      have hle := Nat.le_of_not_lt hlt
      have hle' : (w'.instances.modify vm fun i =>
          { i with options := i.options.setRender render statics }).size ≤ vm := by
        rw [Array.size_modify, hpaused.size]
        exact hle
      rw [Array.getElem?_eq_none hle, Sourcing.compilesFor_none, getD_of_size_le hle',
        World.progress, getD_of_size_le hle]
      simp
  · have hsame : (w'.instances.getD c default).progress = w.progress c := hpaused.progress c
    rw [Sourcing.compilesFor_of_ne hc, getD_modify_of_ne (Ne.symm hc), hsame]
    simp

/-- **The compiler is called** for an instance without a render function, which has one then. -/
theorem spares_installed {template : String} (hbare : (w.progress vm).hasRender = false)
    (hfound : w.Accounts → w.FoundFor vm template)
    (hunsourced : World.Unsourced { w with
      sourced := w.sourced.push (.compiled vm w.instances[vm]? template) } w')
    (hpaused : w.Paused w') (render : RenderFn) (statics : List RenderFn) :
    w.Spares { w' with instances := w'.instances.modify vm fun i =>
      { i with options := i.options.setRender render statics } } := by
  have hlog : w'.sourcings = w.sourcings ++ [.compiled vm w.instances[vm]? template] :=
    hunsourced.sourcings.trans (World.sourcings_push rfl)
  refine spares_enter (.refl w) hlog
    (allowance_installed hpaused hbare template render statics) fun h => ?_
  · show Sourcing.Accounts w'.templates _
    rw [hunsourced.templates]
    have hentry : ∀ {b : InstanceId} {i : Instance} {t : String},
        Sourcing.compiled vm w.instances[vm]? template = .compiled b (some i) t →
          w.progress vm = i.progress ∧ template = t := by
      intro b i t he
      injection he with _ hi ht
      rw [World.progress, getD_of_getElem? hi]
      exact ⟨rfl, ht⟩
    refine h.enter (fun _ => rfl) (fun _ _ _ he => by cases he) (fun b i t he => ?_)
      fun b i t s he hs => ?_
    · obtain ⟨hi, -⟩ := hentry he
      exact hi ▸ hbare
    · obtain ⟨hi, rfl⟩ := hentry he
      exact hfound h s (hi ▸ hs)

/-- **Compiling** for an instance without a render function. -/
theorem succeeds_compileInto (template : String) (hbare : (w.progress vm).hasRender = false)
    (hfound : w.Accounts → w.FoundFor vm template) :
    Succeeds (compileInto rt vm template) w fun _ w' => w.Spares w' := by
  have hperf : ∀ f, Within World.Dormant (fun _ => False) (onPerf f) := Within.onPerf
  refine .after (hperf _) fun _ w₁ h₁ => .sourceThen (.getInstanceThen ?_)
  have hcompile : Within World.Dormant (fun _ => False)
      (compile rt (compileSettings rt (w₁.instances.getD vm default)) template) :=
    within_compile _ template
  refine .after hcompile fun compiled w₂ h₂ => ?_
  have hwarns : Within World.Dormant (fun _ => False) (compiled.problems.forM fun p =>
      warn rt vm ("Error compiling template:\n\n" ++ template ++ "\n\n- " ++ p.display)) :=
    Within.forM (fun p => within_warn vm _) _
  refine .after hwarns fun _ w₃ h₃ => .modifyThen ?_
  have hbare₁ : (w₁.progress vm).hasRender = false := h₁.progress vm ▸ hbare
  have hfound₁ : w₁.Accounts → w₁.FoundFor vm template := by
    unfold World.Accounts World.FoundFor
    rw [h₁.progress vm, h₁.templates, h₁.sourcings]
    exact hfound
  have hinstalled := spares_installed hbare₁ hfound₁ (h₂.trans h₃).toUnsourced
    ⟨(h₂.trans h₃).size, (h₂.trans h₃).progress⟩ compiled.render compiled.statics
  have hspares : w.Spares _ := (World.Spares.of_dormant h₁).trans hinstalled
  refine .after (hperf _) fun _ w₄ h₄ => .getInstanceThen ?_
  refine (Succeeds.of_within (hperf _) w₄).imp fun _ w₅ h₅ => ?_
  exact hspares.trans (.of_dormant (h₄.trans h₅))

/-- **The template of an instance is compiled** if it has no render function, and only then. -/
theorem succeeds_ensureRender (el : Option NodeId) (w : World) :
    Succeeds (ensureRender rt vm el) w fun _ w' => w.Spares w' := by
  refine .getInstanceThen ?_
  dsimp only
  split
  · exact .pure (.refl w)
  · next hrender =>
    refine (succeeds_resolveTemplate el w).bind fun template w₁ ⟨h₁, hpaused₁, hfound₁⟩ => ?_
    cases template with
    | none => exact .pure h₁
    | some template =>
      have hbare : (w₁.progress vm).hasRender = false := by
        rw [hpaused₁.progress vm]
        exact Bool.eq_false_iff.mpr hrender
      dsimp only
      split
      · have hfound : w₁.Accounts → w₁.FoundFor vm template := fun h => hfound₁ h template rfl
        exact (succeeds_compileInto template hbare hfound).bind fun _ w₂ h₂ =>
          .pure (h₁.trans h₂)
      · exact .pure h₁

end Eng

end Componentry
