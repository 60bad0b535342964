import Componentry.Proofs.Class.Operation
import Componentry.Proofs.Options.Edits

/-!
# Properties of all options of a forest

A hereditary property that the options of some classes and their definitions have, with those
inside them, stays theirs, as long as what is brought in has it too.

- `Forest.Everywhere`: a property of the options and definitions of some classes.
- `Change.everywhere`: **an event keeps it**.
- `Op.Brought`, `Op.Brought.keeps`: **what comes from outside keeps it**.
- `Op.Known`, `Runs.known`: options that come from outside have no marks that were not given out,
  and so no options of a class have.
- `Change.part_edited`: **a late edit is seen**, since no part that was kept has its mark.
-/

namespace Componentry

open Forest

/-- A property of what a revision brings in; edits keep it. -/
def Revision.Keeps (P : Nat → Options → Prop) (n : Nat) : Revision → Prop
  | edits es => ∀ e ∈ es, e.Holds (P n) ∧ ∀ n o, P n o → P n (o.edit e)
  | mixin definition => definition.Throughout (P n)
  | replace o => o.Throughout (P n)

/-- A property of what an event brings in to the classes of a set. -/
def Event.Keeps (S : ClassId → Prop) (P : Nat → Options → Prop) (n size : Nat) : Event → Prop
  | founded o => S size → o.Throughout (P n)
  | made _ definition => S size → definition.Throughout (P n)
  | revised c r => S c → r.Keeps P n
  | _ => True

/-- What holds of all options holds of all that an event brings in. -/
theorem Event.keeps_of_forall {P : Nat → Options → Prop} (h : ∀ n o, P n o) (S : ClassId → Prop)
    (n size : Nat) (ev : Event) : ev.Keeps S P n size := by
  have hall : ∀ o : Options, o.Throughout (P n) := Options.throughout_of_forall (h n)
  cases ev with
  | founded o => exact fun _ => hall o
  | made s definition => exact fun _ => hall definition
  | revised c r =>
    intro _
    cases r with
    | mixin definition => exact hall definition
    | replace o => exact hall o
    | edits es =>
      refine fun e _ => ⟨?_, fun _ _ _ => h _ _⟩
      cases e with
      | mixin o => exact hall o
      | base o => exact hall o
      | _ => trivial
  | _ => trivial

/-- A property of the options and the definitions of the classes in a set. -/
def Forest.Everywhere (f : Forest) (S : ClassId → Prop) (P : Nat → Options → Prop) : Prop :=
  ∀ c, S c → (f.get c).options.value.Throughout (P f.nextMark) ∧
    (f.get c).definition.Throughout (P f.nextMark) ∧
    (f.get c).sealed.value.Throughout (P f.nextMark)

variable {cfg : Config}

/-! ## Marks that are taken -/

theorem Options.lt_of_stored {o : Options} {p : Placed Options} {n n' : Nat} (hp : p = o.stored n)
    (hn : ∃ m, p.mark = some m ∧ n' = m + 1) : n' = o.markAfter n + 1 ∧ n < n' := by
  subst hp
  obtain ⟨m, hm, rfl⟩ := hn
  obtain rfl : o.markAfter n = m := Option.some.inj hm
  exact ⟨rfl, Nat.lt_succ_of_le (o.placedAs n).le⟩

theorem Revision.Gives.le {r : Revision} {o o' : Options} {n n' : Nat}
    (h : r.Gives cfg o n o' n') : n ≤ n' := by
  cases r with
  | edits es => exact Nat.le_of_eq h.2.symm
  | replace p => exact Nat.le_of_eq h.2.symm
  | mixin d =>
    rw [h.2]
    exact (d.placedAs n).le

/-- Marks that were given out stay so. -/
theorem Change.nextMark_le {f f' : Forest} {ev : Event} (h : Change cfg f f' ev) :
    f.nextMark ≤ f'.nextMark := by
  cases h with
  | aside hq => exact hq.nextMark
  | founded hp _ _ hn => exact Nat.le_of_lt (Options.lt_of_stored hp hn).2
  | made _ _ _ hp _ _ hn =>
    exact Nat.le_trans (Options.placedAs _ _).le (Nat.le_of_lt (Options.lt_of_stored hp hn).2)
  | revised _ hr hp _ _ hn => exact Nat.le_trans hr.le (Nat.le_of_lt (Options.lt_of_stored hp hn).2)
  | remerged _ _ _ _ hp _ _ hn => exact Nat.le_of_lt (Options.lt_of_stored hp hn).2
  | spoiled _ _ _ _ _ _ hn => exact Nat.le_of_eq hn.symm

/-! ## One event -/

section

variable {P : Nat → Options → Prop} {n : Nat}

theorem Hereditary.throughout_edits {es : List Edit}
    (h : ∀ e ∈ es, e.Holds (P n) ∧ ∀ n o, P n o → P n (o.edit e)) {o : Options}
    (ho : o.Throughout (P n)) : (es.foldl Options.edit o).Throughout (P n) := by
  induction es generalizing o with
  | nil => exact ho
  | cons e rest ih =>
    obtain ⟨he, hkeep⟩ := h e List.mem_cons_self
    have hedit : (o.edit e).Throughout (P n) :=
      (Options.throughout_iff _).mpr ⟨hkeep n o ho.here, ho.inside.edit he⟩
    exact ih (fun e' he' => h e' (List.mem_cons_of_mem _ he')) hedit

theorem Hereditary.throughout_stored (H : Hereditary cfg P) {o : Options} {p : Placed Options}
    {n' : Nat} (h : o.Throughout (P n)) (hp : p = o.stored n)
    (hn : ∃ m, p.mark = some m ∧ n' = m + 1) : p.value.Throughout (P n') := by
  rw [(Options.lt_of_stored hp hn).1, hp]
  exact H.throughout_mono (Nat.le_succ _) (H.place_leads o n h)

theorem Hereditary.throughout_revised (H : Hereditary cfg P) {r : Revision} {o o' : Options}
    {n' : Nat} (hr : r.Gives cfg o n o' n') (hk : r.Keeps P n) (ho : o.Throughout (P n)) :
    o'.Throughout (P n') := by
  cases r with
  | edits es =>
    obtain ⟨rfl, rfl⟩ := hr
    exact Hereditary.throughout_edits hk ho
  | replace p =>
    obtain ⟨rfl, rfl⟩ := hr
    exact hk
  | mixin d =>
    obtain ⟨hm, rfl⟩ := hr
    have hle := (d.placedAs n).le
    exact H.mergeResult (H.throughout_mono hle ho) (H.place_leads d n hk) hm

/-- **An event keeps** a hereditary property of the options of some classes, if these include the
super classes of theirs. -/
theorem Change.everywhere (H : Hereditary cfg P) {S : ClassId → Prop}
    (hS : ∀ a b, a < b → S b → S a) {f f' : Forest} {ev : Event} (h : Change cfg f f' ev)
    (hf : ∀ {c s}, (f.get c).superClass = some s → s < c)
    (hk : ev.Keeps S P f.nextMark f.size) (he : f.Everywhere S P) : f'.Everywhere S P := by
  have hle := h.nextMark_le
  have keep : ∀ {o : Options}, o.Throughout (P f.nextMark) → o.Throughout (P f'.nextMark) :=
    fun ho => H.throughout_mono hle ho
  -- only the class that the event changes has to be looked at
  have only : ∀ {c : ClassId} {k : Class}, Only f f' c k →
      (S c → k.options.value.Throughout (P f'.nextMark) ∧
        k.definition.Throughout (P f'.nextMark) ∧ k.sealed.value.Throughout (P f'.nextMark)) →
      f'.Everywhere S P := by
    intro c k ho hc
    refine ho.forall (P := fun b k => S b → k.options.value.Throughout (P f'.nextMark) ∧
      k.definition.Throughout (P f'.nextMark) ∧ k.sealed.value.Throughout (P f'.nextMark)) hc ?_
    intro b _ hb
    obtain ⟨h₁, h₂, h₃⟩ := he b hb
    exact ⟨keep h₁, keep h₂, keep h₃⟩
  cases h with
  | aside hq =>
    intro c hc
    rw [hq.get]
    obtain ⟨h₁, h₂, h₃⟩ := he c hc
    exact ⟨keep h₁, keep h₂, keep h₃⟩
  | founded hp ho hs hn =>
    refine only ho fun hc => ?_
    have hnew := H.throughout_stored (H.throughout_asMerged (hk hc)) hp hn
    exact ⟨hnew, H.throughout_empty _, hnew⟩
  | @made s d m p hlt hu hm hp ho hs hn =>
    refine only ho fun hc => ?_
    -- the definition is placed first, and what it leaves is left to the merge
    have hd := H.place_leads d f.nextMark (hk hc)
    have hsuper := H.throughout_mono (d.placedAs f.nextMark).le (he s (hS s _ hlt hc)).1
    have hmerged := H.mergeResult hsuper hd hm
    have hnew := H.throughout_stored (H.throughout_withSelf hmerged _ _) hp hn
    have hd' : d.markAfter f.nextMark ≤ f'.nextMark :=
      Nat.le_of_lt (Options.lt_of_stored hp hn).2
    exact ⟨hnew, H.throughout_mono hd' hd, hnew⟩
  | revised hc' hr hp ho hs hn =>
    refine only ho fun hc => ?_
    obtain ⟨h₁, h₂, h₃⟩ := he _ hc
    exact ⟨H.throughout_stored (H.throughout_revised hr (hk hc) h₁) hp hn, keep h₂, keep h₃⟩
  | remerged hk' hu hcur hm hp ho hs hn =>
    refine only ho fun hc => ?_
    obtain ⟨h₁, h₂, h₃⟩ := he _ hc
    have hcarried := H.throughout_carried h₁ h₂
    have hmerged := H.mergeResult (he _ (hS _ _ (hf hk') hc)).1 hcarried hm
    have hnew := H.throughout_stored (H.throughout_withSelf hmerged _ _) hp hn
    exact ⟨hnew, keep hcarried, hnew⟩
  | spoiled hk' hu hcur hm ho hs hn =>
    refine only ho fun hc => ?_
    obtain ⟨h₁, h₂, h₃⟩ := he _ hc
    exact ⟨keep h₁, keep (H.throughout_carried h₁ h₂), keep h₃⟩

end

/-! ## Operations -/

theorem Change.size_le {f f' : Forest} {ev : Event} (h : Change cfg f f' ev) :
    f.size ≤ f'.size := by
  rw [(Steps.single h).size_eq]
  exact Nat.le_add_right _ _

/-- Resolving brings in no options. -/
theorem Event.OnLine.keeps {ev : Event} {c : ClassId} (h : ev.OnLine c) (S : ClassId → Prop)
    (P : Nat → Options → Prop) {n size : Nat} : ev.Keeps S P n size :=
  h.elim (P := fun ev => ev.Keeps S P n size) (fun _ => trivial) fun _ => trivial

/-- What an operation brings in keeps a property, however much is done before it is brought in. -/
def Op.Keeps (S : ClassId → Prop) (P : Nat → Options → Prop) (f : Forest) (op : Op) : Prop :=
  ∀ ev, op.Brings ev → ∀ n size, f.nextMark ≤ n → f.size ≤ size → ev.Keeps S P n size

theorem Steps.everywhere {P : Nat → Options → Prop} (H : Hereditary cfg P) {S : ClassId → Prop}
    (hS : ∀ a b, a < b → S b → S a) {evs : List Event} {f f' : Forest} (h : Steps cfg evs f f')
    (hf : f.Grounded)
    (hk : ∀ ev ∈ evs, ∀ n size, f.nextMark ≤ n → f.size ≤ size → ev.Keeps S P n size)
    (he : f.Everywhere S P) : f'.Everywhere S P := by
  induction h with
  | nil f => exact he
  | cons hc _ ih =>
    have hev := hk _ List.mem_cons_self _ _ (Nat.le_refl _) (Nat.le_refl _)
    refine ih (hc.grounded hf) (fun ev hev n size hn hs => ?_)
      (hc.everywhere H hS hf.super_lt hev he)
    exact hk ev (List.mem_cons_of_mem _ hev) n size (Nat.le_trans hc.nextMark_le hn)
      (Nat.le_trans hc.size_le hs)

/-- **A run keeps** a hereditary property of the options of some classes. -/
theorem Runs.everywhere {P : Nat → Options → Prop} (H : Hereditary cfg P) {S : ClassId → Prop}
    (hS : ∀ a b, a < b → S b → S a) {A : Forest → Op → Prop}
    (hA : ∀ f op, A f op → op.Keeps S P f) {h h' : History} (hr : Runs cfg A h h')
    (hg : h.forest.Grounded) (he : h.forest.Everywhere S P) : h'.forest.Everywhere S P := by
  induction hr with
  | refl => exact he
  | step hr hfit ha ih =>
    have hg' := hr.grounded hg
    obtain ⟨evs, hsteps, hevs, -⟩ := History.step_events cfg hg' hfit
    exact hsteps.everywhere H hS hg' (fun ev hev => hA _ _ ha ev (hevs ev hev)) ih

/-! ## Options that are known -/

/-- The marks of what comes from outside were given out before, and its names ascend. -/
def Op.Known (f : Forest) : Op → Prop
  | .newBase o => o.Throughout (Options.Known f.nextMark)
  | .extend _ definition => definition.Throughout (Options.Known f.nextMark)
  | .mixin definition => definition.Throughout (Options.Known f.nextMark)
  | .component _ definition => definition.Throughout (Options.Known f.nextMark)
  | .classFor (.definition _ definition) => definition.Throughout (Options.Known f.nextMark)
  | .edit _ es => ∀ e ∈ es, e.Holds (Options.Known f.nextMark)
  | .replace _ o => o.Throughout (Options.Known f.nextMark)
  | _ => True

theorem Edit.Holds.imp {P Q : Options → Prop} (hPQ : ∀ o, P o → Q o) {e : Edit}
    (h : e.Holds P) : e.Holds Q := by
  cases e with
  | mixin o => exact Options.Throughout.imp hPQ o h
  | base o => exact Options.Throughout.imp hPQ o h
  | _ => trivial

/-- A property of all options that an operation brings in. -/
def Op.Brought (P : Options → Prop) : Op → Prop
  | .newBase o => o.Throughout P
  | .extend _ definition => definition.Throughout P
  | .mixin definition => definition.Throughout P
  | .component _ definition => definition.Throughout P
  | .classFor (.definition _ definition) => definition.Throughout P
  | .edit _ es => ∀ e ∈ es, e.Holds P
  | .replace _ o => o.Throughout P
  | _ => True

/-- **What an operation brings in keeps** a hereditary property that it has, if its edits keep the
property. -/
theorem Op.Brought.keeps {P : Nat → Options → Prop} (H : Hereditary cfg P) {f : Forest} {op : Op}
    (h : op.Brought (P f.nextMark))
    (hedit : ∀ c es, op.Revises c (.edits es) → ∀ e ∈ es, ∀ n o, P n o → P n (o.edit e))
    (S : ClassId → Prop) : op.Keeps S P f := by
  intro ev hev n size hn _
  have mono : ∀ {o : Options}, o.Throughout (P f.nextMark) → o.Throughout (P n) := fun ho =>
    H.throughout_mono hn ho
  cases ev with
  | aside => trivial
  | remerged c => trivial
  | spoiled c => trivial
  | founded o =>
    cases (show op = .newBase o from hev)
    exact fun _ => mono h
  | made s d =>
    intro _
    cases op with
    | extend s' d' =>
      cases hev
      exact mono h
    | component name d' =>
      cases hev
      exact mono (H.throughout_orNamed h name)
    | classFor entry =>
      cases entry with
      | definition id o =>
        cases hev
        exact mono h
      | ofClass c => cases hev
      | self c => cases hev
    | _ => cases hev
  | revised c r =>
    intro _
    -- a registration is one edit, that brings in no options
    have registered : ∀ {e : Edit}, op.Revises c (.edits [e]) → e.Holds (P n) →
        (Revision.edits [e]).Keeps P n := fun hr he e' he' => by
      refine ⟨?_, hedit c _ hr e' he'⟩
      cases List.mem_singleton.mp he'
      exact he
    cases op with
    | mixin d =>
      cases hev.2
      exact mono h
    | component name d =>
      obtain ⟨hc, k, rfl⟩ := hev
      exact registered ⟨hc, k, rfl⟩ trivial
    | register name k =>
      obtain ⟨hc, rfl⟩ := hev
      exact registered ⟨hc, rfl⟩ trivial
    | directive name =>
      obtain ⟨hc, rfl⟩ := hev
      exact registered ⟨hc, rfl⟩ trivial
    | filter name e =>
      obtain ⟨hc, rfl⟩ := hev
      exact registered ⟨hc, rfl⟩ trivial
    | edit b es =>
      obtain ⟨hc, rfl⟩ := hev
      exact fun e he => ⟨(h e he).imp fun _ => H.mono hn, hedit c es ⟨hc, rfl⟩ e he⟩
    | replace b o =>
      cases hev.2
      exact mono h
    | _ => cases hev

theorem Op.Known.brought {f : Forest} {op : Op} (h : op.Known f) :
    op.Brought (Options.Known f.nextMark) := by
  cases op with
  | classFor entry => cases entry <;> exact h
  | _ => exact h

theorem Op.Known.keeps {f : Forest} {op : Op} (h : op.Known f) (S : ClassId → Prop) :
    op.Keeps S Options.Known f :=
  h.brought.keeps (Options.known_hereditary {}) (fun _ _ _ e _ _ _ ho => ho.edit e) S

/-- All options of all classes are known. -/
def Forest.Known (f : Forest) : Prop := f.Everywhere (fun _ => True) Options.Known

theorem known_defaultOptions (n : Nat) : defaultOptions.Throughout (Options.Known n) := by
  refine Options.throughout_alone ⟨fun x m hm => ?_, ?_, ?_, ?_, ?_⟩ rfl rfl
  · cases x <;> cases hm
  all_goals decide

/-- A hereditary property that the default options have holds everywhere in a fresh runtime. -/
theorem History.start_everywhere {P : Nat → Options → Prop} (H : Hereditary cfg P)
    (hdefault : ∀ n, defaultOptions.Throughout (P n)) (S : ClassId → Prop) :
    (History.start cfg).forest.Everywhere S P := by
  have hempty : ∀ c, ({} : Forest).get c = default := fun c => get_of_size_le (Nat.zero_le c)
  have hstart : Change cfg {} (History.start cfg).forest (.founded defaultOptions) :=
    Classes.newBase_yields cfg defaultOptions
  have hall : (History.start cfg).forest.Everywhere (fun _ => True) P := by
    refine hstart.everywhere H (fun _ _ _ _ => trivial) ?_ (fun _ => hdefault _) fun c _ => ?_
    · intro c s hs
      rw [hempty] at hs
      cases hs
    · rw [hempty]
      exact ⟨H.throughout_empty 0, H.throughout_empty 0, H.throughout_empty 0⟩
  exact fun c _ => hall c trivial

theorem History.start_known (cfg : Config) : (History.start cfg).forest.Known :=
  History.start_everywhere (Options.known_hereditary cfg) known_defaultOptions _

/-- In every history of options that are known, all options of all classes are known. -/
theorem Runs.known {A : Forest → Op → Prop} (hA : ∀ f op, A f op → op.Known f) {h h' : History}
    (hr : Runs cfg A h h') (hg : h.forest.Grounded) (hk : h.forest.Known) : h'.forest.Known :=
  hr.everywhere (Options.known_hereditary cfg) (fun _ _ _ _ => trivial)
    (fun f op ha => (hA f op ha).keeps _) hg hk

/-- **A late edit is seen.** A part that edits make anew is there, and is not the one that was
kept. -/
theorem Change.part_edited {f f' : Forest} {c : ClassId} {es : List Edit} {x : Part}
    (h : Change cfg f f' (.revised c (.edits es))) (hk : (f.get c).sealed.value.Known f.nextMark)
    (hmem : ∃ e ∈ es, e.part = some x)
    (hanew : ∀ e ∈ es, e.part = some x → ∀ o : Options, (o.edit e).markAt x = some none) :
    (f'.get c).options.value.markAt x ≠ none ∧
      sameMarks ((f'.get c).options.value.markAt x) ((f'.get c).sealed.value.markAt x) = false := by
  cases h with
  | revised hc hr hp ho hs hn =>
    obtain ⟨rfl, rfl⟩ := hr
    have hnew : (es.foldl Options.edit (f.get c).options.value).markAt x = some none :=
      Options.markAt_edits hanew (.inr hmem)
    have hstamped := (Options.placedAs (es.foldl Options.edit (f.get c).options.value)
      f.nextMark).stamped x
    rw [ho.here, hp]
    refine ⟨fun hnone => ?_, Options.sameMarks_stored hnew hk⟩
    rw [hnew, show (Options.placed _ _).markAt x = none from hnone] at hstamped
    cases hstamped

theorem known_darkTheme (n : Nat) : darkTheme.Throughout (Options.Known n) := by
  refine Options.throughout_alone ⟨fun x m hm => ?_, ?_, ?_, ?_, ?_⟩ rfl rfl
  · cases x <;> cases hm
  all_goals decide

theorem known_panel (n : Nat) : panel.Throughout (Options.Known n) := by
  refine Options.throughout_alone ⟨fun x m hm => ?_, ?_, ?_, ?_, ?_⟩ rfl rfl
  · cases x <;> cases hm
  all_goals decide

end Componentry
