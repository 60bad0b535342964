import Componentry.Proofs.Class.History

/-!
# What an operation does to a forest

Every operation changes the classes of a forest in a few ways only, one class at a time. An
invariant of all histories needs to be shown for each of these ways, and for no operation.

- `Event`, `Change`: the ways in which a forest changes, and what each does.
- `Grounded`: super classes come before their classes, and options are stored.
- `UpToDate`: no class on a line has to be merged again.
- `Steps.preserves`: what every event preserves, a run of events preserves.
- `Grounded.only`, `Change.grounded`: **events keep a forest grounded**.
- `Change.remerged_over`: **what a class is merged to** when it is merged again.
-/

namespace Componentry

/-- A change of the options of a class as they are now. -/
inductive Revision where
  | edits (es : List Edit)
  | mixin (definition : Options)
  | replace (o : Options)

/-- The options `o'` that a revision of `o` leads to, and the marks `n'` that are taken then. -/
def Revision.Gives (cfg : Config) (o : Options) (n : Nat) (o' : Options) (n' : Nat) :
    Revision → Prop
  | edits es => o' = es.foldl Options.edit o ∧ n' = n
  | mixin definition =>
    Options.mergeResult cfg o (definition.placed n) = .ok o' ∧ n' = definition.markAfter n
  | replace p => o' = p ∧ n' = n

inductive Event where
  /-- No class changes. -/
  | aside
  /-- A new class without a super class. -/
  | founded (o : Options)
  /-- A new class under `s`. -/
  | made (s : ClassId) (definition : Options)
  | revised (c : ClassId) (r : Revision)
  /-- A class is merged again. -/
  | remerged (c : ClassId)
  /-- Merging a class again fails. -/
  | spoiled (c : ClassId)

/-- What the new class is made under and of, if there is a new class. -/
def Event.origin? : Event → Option (Option (ClassId × Options))
  | founded _ => some none
  | made s definition => some (some (s, definition))
  | _ => none

theorem Event.origins_cons (ev : Event) (evs : List Event) :
    (ev :: evs).filterMap Event.origin? = ev.origin?.toList ++ evs.filterMap Event.origin? := by
  rw [List.filterMap_cons]
  cases ev.origin? <;> rfl

namespace Forest

/-- Super classes come before their classes, and the options of every class are stored. -/
structure Grounded (f : Forest) : Prop where
  root_lt : rootClass < f.size
  super_lt : ∀ {c s}, (f.get c).superClass = some s → s < c
  stored : ∀ {c}, c < f.size → ∃ o n, (f.get c).options = Options.stored o n

/-- The options of every class on the line of a class were merged over those of its super class as
they are now. -/
inductive UpToDate (f : Forest) : ClassId → Prop where
  | root {c : ClassId} (hc : (f.get c).superClass = none) : UpToDate f c
  | under {c s : ClassId} (hc : (f.get c).superClass = some s) (hs : UpToDate f s)
      (hcur : (f.get c).isCurrent (f.get s).options = true) : UpToDate f c

end Forest

namespace Class

/-- The class with options that were changed. -/
def revised (k : Class) (options : Placed Options) : Class := { k with options }

/-- The class merged again over the options of its super class. -/
def remerged (k : Class) (above options : Placed Options) : Class :=
  { k with superOptions := some above, definition := k.carried, options, sealed := options }

/-- The class after a merge over the options of its super class failed. -/
def spoiled (k : Class) (above : Placed Options) : Class :=
  { k with superOptions := some above, definition := k.carried }

end Class

open Forest

/-- **What an event does.** -/
inductive Change (cfg : Config) (f f' : Forest) : Event → Prop where
  | aside (hq : Quiet f f') : Change cfg f f' .aside
  | founded {o : Options} {p : Placed Options}
      (hp : p = ({ o with merged := true } : Options).stored f.nextMark)
      (ho : Only f f' f.size { options := p, sealed := p }) (hs : f'.size = f.size + 1)
      (hn : ∃ m, p.mark = some m ∧ f'.nextMark = m + 1) : Change cfg f f' (.founded o)
  | made {s : ClassId} {definition m : Options} {p : Placed Options}
      (hlt : s < f.size) (hu : f.UpToDate s)
      (hm : Options.mergeResult cfg (f.get s).options.value (definition.placed f.nextMark) = .ok m)
      (hp : p = (m.withSelf (definition.name <|> (f.get s).options.value.name) f.size).stored
        (definition.markAfter f.nextMark))
      (ho : Only f f' f.size {
        superClass := some s
        options := p
        superOptions := some (f.get s).options
        definition := definition.placed f.nextMark
        sealed := p })
      (hs : f'.size = f.size + 1) (hn : ∃ m, p.mark = some m ∧ f'.nextMark = m + 1) :
      Change cfg f f' (.made s definition)
  | revised {c : ClassId} {r : Revision} {o : Options} {n : Nat} {p : Placed Options}
      (hc : c < f.size) (hr : r.Gives cfg (f.get c).options.value f.nextMark o n)
      (hp : p = o.stored n) (ho : Only f f' c ((f.get c).revised p)) (hs : f'.size = f.size)
      (hn : ∃ m, p.mark = some m ∧ f'.nextMark = m + 1) : Change cfg f f' (.revised c r)
  | remerged {c s : ClassId} {m : Options} {p : Placed Options}
      (hk : (f.get c).superClass = some s) (hu : f.UpToDate s)
      (hcur : (f.get c).isCurrent (f.get s).options = false)
      (hm : Options.mergeResult cfg (f.get s).options.value (f.get c).carried = .ok m)
      (hp : p = (m.withSelf m.name c).stored f.nextMark)
      (ho : Only f f' c ((f.get c).remerged (f.get s).options p)) (hs : f'.size = f.size)
      (hn : ∃ m, p.mark = some m ∧ f'.nextMark = m + 1) : Change cfg f f' (.remerged c)
  | spoiled {c s : ClassId} {e : Error}
      (hk : (f.get c).superClass = some s) (hu : f.UpToDate s)
      (hcur : (f.get c).isCurrent (f.get s).options = false)
      (hm : Options.mergeResult cfg (f.get s).options.value (f.get c).carried = .error e)
      (ho : Only f f' c ((f.get c).spoiled (f.get s).options)) (hs : f'.size = f.size)
      (hn : f'.nextMark = f.nextMark) : Change cfg f f' (.spoiled c)

/-- Events one after the other. -/
inductive Steps (cfg : Config) : List Event → Forest → Forest → Prop where
  | nil (f : Forest) : Steps cfg [] f f
  | cons {ev : Event} {evs : List Event} {f f' f'' : Forest} (h : Change cfg f f' ev)
      (hs : Steps cfg evs f' f'') : Steps cfg (ev :: evs) f f''

namespace Steps

variable {cfg : Config} {evs evs' : List Event} {ev : Event} {f f' f'' : Forest}

theorem single (h : Change cfg f f' ev) : Steps cfg [ev] f f' := .cons h (.nil f')

theorem append (h : Steps cfg evs f f') (h' : Steps cfg evs' f' f'') :
    Steps cfg (evs ++ evs') f f'' := by
  induction h with
  | nil f => exact h'
  | cons hc _ ih => exact .cons hc (ih h')

/-- What every event preserves, a run of events preserves. -/
theorem preserves {I : Forest → Prop} (h : Steps cfg evs f f') (hf : I f)
    (step : ∀ ev ∈ evs, ∀ g g', Change cfg g g' ev → I g → I g') : I f' := by
  induction h with
  | nil f => exact hf
  | cons hc _ ih =>
    refine ih (step _ List.mem_cons_self _ _ hc hf) fun ev hev => ?_
    exact step ev (List.mem_cons_of_mem _ hev)

end Steps

/-! ## Grounded forests -/

namespace Forest

variable {f f' : Forest} {c s : ClassId} {k : Class}

theorem Grounded.marked (hf : f.Grounded) (hc : c < f.size) : (f.get c).options.mark.isSome := by
  obtain ⟨o, n, h⟩ := hf.stored hc
  rw [h]
  rfl

theorem lt_size_of_super (h : (f.get c).superClass = some s) : c < f.size := by
  refine Nat.lt_of_not_le fun hc => ?_
  rw [get_of_size_le hc] at h
  cases h

/-- A class with a super class is not the root. -/
theorem Grounded.ne_root (hf : f.Grounded) (h : (f.get c).superClass = some s) :
    c ≠ rootClass := by
  rintro rfl
  exact Nat.not_lt_zero s (hf.super_lt h)

theorem Only.of_quiet {g : Forest} (hq : Quiet f g) (h : Only g f' c k) : Only f f' c k :=
  ⟨h.here, fun b hb => (h.there b hb).trans (hq.get b)⟩

theorem Only.then_quiet {g : Forest} (h : Only f g c k) (hq : Quiet g f') : Only f f' c k :=
  ⟨(hq.get c).trans h.here, fun b hb => (hq.get b).trans (h.there b hb)⟩

/-- What holds of the class that changed, and of the others as they were, holds of all. -/
theorem Only.forall {P : ClassId → Class → Prop} (ho : Only f f' c k) (here : P c k)
    (there : ∀ b, b ≠ c → P b (f.get b)) (b : ClassId) : P b (f'.get b) := by
  by_cases hb : b = c
  · subst hb
    rw [ho.here]
    exact here
  · rw [ho.there b hb]
    exact there b hb

theorem Only.superClass_eq (ho : Only f f' c k) (hk : k.superClass = (f.get c).superClass)
    (b : ClassId) : (f'.get b).superClass = (f.get b).superClass :=
  ho.forall (P := fun b k => k.superClass = (f.get b).superClass) hk (fun _ _ => rfl) b

/-- Only classes on the line of a class decide whether it is up to date. -/
theorem UpToDate.frame (h : f.UpToDate s) (hf : f.Grounded)
    (hsame : ∀ b, b ≤ s → f'.get b = f.get b) : f'.UpToDate s := by
  induction h with
  | root hc => exact .root (by rw [hsame _ (Nat.le_refl _)]; exact hc)
  | @under c s hc hs hcur ih =>
    have hsc := Nat.le_of_lt (hf.super_lt hc)
    have hs' := ih fun b hb => hsame b (Nat.le_trans hb hsc)
    refine .under ((congrArg Class.superClass (hsame c (Nat.le_refl c))).trans hc) hs' ?_
    rw [hsame c (Nat.le_refl c), hsame s hsc]
    exact hcur

/-- A forest with one more or one changed class. -/
theorem Grounded.only (hf : f.Grounded) (ho : Only f f' c k) (hsize : f.size ≤ f'.size)
    (hnew : ∀ b, b < f'.size → b < f.size ∨ b = c) (hlt : ∀ s, k.superClass = some s → s < c)
    (hstored : ∃ o n, k.options = Options.stored o n) : f'.Grounded where
  root_lt := Nat.lt_of_lt_of_le hf.root_lt hsize
  super_lt {b s} := ho.forall (P := fun b k => k.superClass = some s → s < b) (hlt s)
    (fun _ _ => hf.super_lt) b
  stored {b} := ho.forall (P := fun b k => b < f'.size → ∃ o n, k.options = Options.stored o n)
    (fun _ => hstored) (fun b hb hlt => hf.stored ((hnew b hlt).resolve_right hb)) b

end Forest

theorem Change.grounded {cfg : Config} {f f' : Forest} {ev : Event} (h : Change cfg f f' ev)
    (hf : f.Grounded) : f'.Grounded := by
  cases h with
  | aside hq =>
    refine ⟨?_, ?_, ?_⟩
    · rw [hq.size]
      exact hf.root_lt
    · intro c s hc
      rw [hq.get] at hc
      exact hf.super_lt hc
    · intro c hc
      rw [hq.get]
      exact hf.stored (hq.size ▸ hc)
  | founded hp ho hs _ =>
    exact hf.only ho (by omega) (fun b hb => by omega) (fun s hs => by cases hs) ⟨_, _, hp⟩
  | made hlt _ _ hp ho hs _ =>
    refine hf.only ho (by omega) (fun b hb => by omega) (fun s hs => ?_) ⟨_, _, hp⟩
    cases hs
    exact hlt
  | revised _ _ hp ho hs _ =>
    exact hf.only ho (by omega) (fun b hb => by omega) (fun s hs => hf.super_lt hs) ⟨_, _, hp⟩
  | remerged _ _ _ _ hp ho hs _ =>
    exact hf.only ho (by omega) (fun b hb => by omega) (fun s hs => hf.super_lt hs) ⟨_, _, hp⟩
  | spoiled hk _ _ _ ho hs _ =>
    exact hf.only ho (by omega) (fun b hb => by omega) (fun s hs => hf.super_lt hs)
      (hf.stored (lt_size_of_super hk))

theorem Steps.grounded {cfg : Config} {evs : List Event} {f f' : Forest}
    (h : Steps cfg evs f f') (hf : f.Grounded) : f'.Grounded :=
  h.preserves hf fun _ _ _ _ hc hg => hc.grounded hg

/-- **What a class is merged to** when it is merged again: its definition, with the edits that were
carried over, on what lies beneath it, and itself among the components. -/
theorem Change.remerged_over {cfg : Config} {f f' : Forest} {c : ClassId}
    (h : Change cfg f f' (.remerged c)) (hlt : ∀ s, (f.get c).superClass = some s → s < c) :
    ∃ s w extra, (f.get c).superClass = some s ∧ f'.get s = f.get s ∧
      Options.beneath cfg (f.get s).options.value (f.get c).carried = .ok w ∧
      extraOver cfg w.fields.extra (f.get c).carried.fields.extra = .ok extra ∧
      (f'.get c).options.value.unmarked =
        ((w.joined (f.get c).carried extra).withSelf
          (w.joined (f.get c).carried extra).name c).unmarked ∧
      (f'.get c).definition = (f.get c).carried ∧ (f'.get c).sealed = (f'.get c).options := by
  cases h with
  | @remerged _ s m p hk hu hcur hm hp ho hs hn =>
    obtain ⟨w, extra, hw, hextra, rfl⟩ := Options.mergeResult_eq_ok hm
    refine ⟨s, w, extra, hk, ho.there s (Nat.ne_of_lt (hlt s hk)), hw, hextra, ?_, ?_, ?_⟩
    · rw [ho.here, Class.remerged, hp]
      exact Options.placed_unmarked _ _
    · rw [ho.here]
      rfl
    · rw [ho.here]
      rfl

end Componentry
