import Componentry.Class.Resolve
import Componentry.Proofs.Diagnostics.Alike
import Componentry.Proofs.Likeness

/-!
# Classes and diagnostics

Making and resolving classes gives advice on names and on options that make no sense. Whether it is
given makes no difference to anything else: merging and the operations on classes do alike under any
flags.

- `Noting.Aside`: a computation that leaves nothing but warnings.
- `Merging.alike`, `Forging.alike`: merges and computations on classes that do alike.
- `Options.merge_alike`: **merging** does alike under any flags.
- `Classes.resolve_alike`, `Classes.extend_alike` and so on: so do the operations on classes.
-/

namespace Componentry

open Json (Value)

variable {α β : Type} {φ : Flags} {cfg : Config}

/-! ## Advice -/

/-- The computation leaves nothing but warnings. -/
def Noting.Aside (n : Noting α) : Prop := ∀ j : Journal, j.Alike (n.run j).2

namespace Noting.Aside

theorem pure (a : α) : Aside (Pure.pure a : Noting α) := .refl

theorem bind {n : Noting α} {g : α → Noting β} (hn : Aside n) (hg : ∀ a, Aside (g a)) :
    Aside (n >>= g) := fun j => (hn j).trans (hg _ _)

theorem ite {c : Prop} [Decidable c] {n n' : Noting α} (hn : Aside n) (hn' : Aside n') :
    Aside (if c then n else n') := by
  split
  · exact hn
  · exact hn'

theorem forM {f : α → Noting PUnit} (hf : ∀ a, Aside (f a)) (as : List α) :
    Aside (as.forM f) := by
  induction as with
  | nil => exact pure PUnit.unit
  | cons a rest ih => exact bind (hf a) fun _ => ih

theorem warned {e : LogEntry} (he : e.told? = none) : Aside (note e) := fun j => .warned j he

theorem warnAlone (cfg : Config) (message : String) : Aside (warnAlone cfg message) :=
  ite (ite (warned rfl) (warned rfl)) (pure ())

theorem checkComponentName (cfg : Config) (name : String) :
    Aside (checkComponentName cfg name) := by
  refine ite ?_ (ite ?_ (pure true))
  all_goals exact bind (warnAlone cfg _) fun _ => pure false

theorem checkDirectiveName (cfg : Config) (name : String) :
    Aside (checkDirectiveName cfg name) := ite (warnAlone cfg _) (pure ())

theorem checkAssetNames (cfg : Config) (fields : Fields) (components : Option (Placed Components)) :
    Aside (checkAssetNames cfg fields components) := by
  have hcomponents := forM fun e : String × ComponentRef Options =>
    bind (checkComponentName cfg e.1) fun _ => pure ()
  have hdirectives := forM fun e : String × Unit => checkDirectiveName cfg e.1
  refine ite ?_ (pure ())
  cases fields.directives with
  | none =>
    cases components with
    | none => exact pure ()
    | some r => exact bind (hcomponents r.value.own) fun _ => pure ()
  | some d =>
    cases components with
    | none => exact hdirectives d.value.own
    | some r => exact bind (hcomponents r.value.own) fun _ => hdirectives d.value.own

theorem checkClassFields (cfg : Config) (fields : Fields) :
    Aside (checkClassFields cfg fields) := by
  refine ite (ite (bind (warnAlone cfg _) fun _ => ?_) ?_) (pure ())
  all_goals
    cases fields.data with
    | none => exact pure ()
    | some d => exact ite (warnAlone cfg _) (pure ())

end Noting.Aside

/-! ## Merging -/

/-- Nothing in particular is asked of what comes out. -/
def Anything {σ : Type} (_ : σ) : Prop := True

/-- Two computations that write the same to a journal, warnings apart. -/
def Noting.alike : Likeness Noting := .paired Journal.Alike Anything Anything

/-- Merges with the same outcome that write the same to a journal, warnings apart. -/
def Merging.alike : Likeness Merging := Noting.alike.failing Error

/-- Advice is alike, given or not. -/
theorem Noting.alike_aside {n n' : Noting Unit} (hn : Noting.Aside n) (hn' : Noting.Aside n') :
    Noting.alike.Rel Eq n n' where
  left _ := ⟨⟨_, rfl⟩, fun _ => trivial⟩
  right _ := ⟨⟨_, rfl⟩, fun _ => trivial⟩
  both j j' h _ _ := ⟨rfl, (hn j).symm.trans (h.trans (hn' j'))⟩

theorem Noting.alike_note {e e' : LogEntry} (he : e.told? = e'.told?) :
    Noting.alike.Rel Eq (note e) (note e') where
  left _ := ⟨⟨_, rfl⟩, fun _ => trivial⟩
  right _ := ⟨⟨_, rfl⟩, fun _ => trivial⟩
  both _ _ h _ _ := ⟨rfl, h.push he⟩

theorem Noting.alike_countMerge : Noting.alike.Rel Eq countMerge countMerge where
  left _ := ⟨⟨_, rfl⟩, fun _ => trivial⟩
  right _ := ⟨⟨_, rfl⟩, fun _ => trivial⟩
  both _ _ h _ _ := ⟨rfl, { h with merges := congrArg (· + 1) h.merges }⟩

theorem mergeExtraValue_alike (key : String) (parent child : Option Value) :
    Merging.alike.Rel Eq (mergeExtraValue cfg key parent child)
      (mergeExtraValue (cfg.under φ) key parent child) := by
  unfold mergeExtraValue
  rw [show (cfg.under φ).strategies = cfg.strategies from rfl]
  cases Dict.get? cfg.strategies key with
  | none => exact Merging.alike.pure rfl
  | some strategy =>
    refine Merging.alike.bindSame (Noting.alike.failing_lift (Noting.alike_note rfl)) fun _ => ?_
    cases strategy parent child with
    | error e => exact Noting.alike.failing_throw e
    | ok v => exact Merging.alike.pure rfl

theorem mergeExtra_alike (parent child : Dict Value) :
    Merging.alike.Rel Eq (mergeExtra cfg parent child) (mergeExtra (cfg.under φ) parent child) := by
  refine Merging.alike.foldlM _ rfl fun key _ d d' hd => ?_
  cases hd
  refine Merging.alike.bindSame (mergeExtraValue_alike key _ _) fun v => ?_
  cases v with
  | none => exact Merging.alike.pure rfl
  | some v => exact Merging.alike.pure rfl

theorem mergeOwn_alike (parent child : Options) :
    Merging.alike.Rel Eq (Options.mergeOwn cfg parent child)
      (Options.mergeOwn (cfg.under φ) parent child) :=
  Merging.alike.bindSame (mergeExtra_alike _ _) fun _ => Merging.alike.pure rfl

mutual

/-- **Merging** does alike under any flags. -/
theorem Options.merge_alike (forInstance : Bool) (parent : Options) : ∀ child : Options,
    Merging.alike.Rel Eq (Options.merge cfg forInstance parent child)
      (Options.merge (cfg.under φ) forInstance parent child)
  | ⟨fields, components, mixins, base, merged⟩ => by
    rw [Options.merge, Options.merge]
    have hown : ∀ p, Merging.alike.Rel Eq
        (do
          if !forInstance then checkClassFields cfg fields
          Options.mergeOwn cfg p ⟨fields, components, mixins, base, merged⟩)
        (do
          if !forInstance then checkClassFields (cfg.under φ) fields
          Options.mergeOwn (cfg.under φ) p ⟨fields, components, mixins, base, merged⟩) := by
      intro p
      cases forInstance with
      | true => exact mergeOwn_alike p _
      | false =>
        refine Merging.alike.bindSame (Noting.alike.failing_lift ?_) fun _ => mergeOwn_alike p _
        exact Noting.alike_aside (.checkClassFields cfg fields) (.checkClassFields _ fields)
    refine Merging.alike.bindSame (Noting.alike.failing_lift Noting.alike_countMerge) fun _ => ?_
    refine Merging.alike.bindSame (Noting.alike.failing_lift ?_) fun _ => ?_
    · exact Noting.alike_aside (.checkAssetNames cfg fields _) (.checkAssetNames _ fields _)
    cases merged with
    | true => exact hown parent
    | false =>
      refine Merging.alike.bindSame (mergeBase_alike forInstance parent base) fun p => ?_
      exact Merging.alike.bindSame (mergeMixins_alike forInstance p mixins) hown

theorem mergeBase_alike (forInstance : Bool) (parent : Options) :
    ∀ base : Option (Placed Options), Merging.alike.Rel Eq (mergeBase cfg forInstance parent base)
      (mergeBase (cfg.under φ) forInstance parent base)
  | none => by
    rw [mergeBase, mergeBase]
    exact Merging.alike.pure rfl
  | some ⟨_, o⟩ => by
    rw [mergeBase, mergeBase]
    exact Options.merge_alike forInstance parent o

theorem mergeMixins_alike (forInstance : Bool) (parent : Options) :
    ∀ mixins : Option (Placed (List Options)),
      Merging.alike.Rel Eq (mergeMixins cfg forInstance parent mixins)
        (mergeMixins (cfg.under φ) forInstance parent mixins)
  | none => by
    rw [mergeMixins, mergeMixins]
    exact Merging.alike.pure rfl
  | some ⟨_, os⟩ => by
    rw [mergeMixins, mergeMixins]
    exact mergeAll_alike forInstance parent os

theorem mergeAll_alike (forInstance : Bool) (parent : Options) : ∀ os : List Options,
    Merging.alike.Rel Eq (mergeAll cfg forInstance parent os)
      (mergeAll (cfg.under φ) forInstance parent os)
  | [] => by
    rw [mergeAll, mergeAll]
    exact Merging.alike.pure rfl
  | o :: rest => by
    rw [mergeAll, mergeAll]
    exact Merging.alike.bindSame (Options.merge_alike forInstance parent o) fun p =>
      mergeAll_alike forInstance p rest

end

/-! ## Computations on classes -/

/-- Computations on classes with the same outcome that do the same but for warnings. -/
def Forging.alike : Likeness Forging :=
  (Likeness.paired Forest.Alike Anything Anything).failing Error

namespace Forging

theorem alike_modifyGet {r : α → β → Prop} {f : Forest → α × Forest} {f' : Forest → β × Forest}
    (hleft : ∀ w, ∃ b, r (f w).1 b) (hright : ∀ w, ∃ a, r a (f' w).1)
    (h : ∀ w w' : Forest, w.Alike w' → r (f w).1 (f' w').1 ∧ (f w).2.Alike (f' w').2) :
    Forging.alike.Rel r (modifyGet f) (modifyGet f') := by
  refine Likeness.failing_lift (L := Likeness.paired _ _ _) ⟨fun w => ?_, fun w => ?_, ?_⟩
  · exact ⟨hleft w, fun _ => trivial⟩
  · exact ⟨hright w, fun _ => trivial⟩
  · exact fun w w' hw _ _ => h w w' hw

/-- The same on both sides. -/
theorem alike_same {f : Forest → α × Forest}
    (h : ∀ w w' : Forest, w.Alike w' → (f w).1 = (f w').1 ∧ (f w).2.Alike (f w').2) :
    Forging.alike.Rel Eq (modifyGet f) (modifyGet f) :=
  alike_modifyGet (fun _ => ⟨_, rfl⟩) (fun _ => ⟨_, rfl⟩) h

theorem alike_get : Forging.alike.Rel Forest.Alike (get : Forging Forest) get :=
  alike_modifyGet (fun w => ⟨w, .refl w⟩) (fun w => ⟨w, .refl w⟩) fun _ _ h => ⟨h, h⟩

theorem alike_getClass (c : ClassId) : Forging.alike.Rel Eq (getClass c) (getClass c) :=
  Forging.alike.bind alike_get fun w w' h => Forging.alike.pure (by
    rw [Forest.class?, Forest.class?, h.classes])

theorem alike_modifyClass (c : ClassId) (f : Class → Class) :
    Forging.alike.Rel Eq (modifyClass c f) (modifyClass c f) :=
  alike_same fun _ _ h => ⟨rfl, { h with classes := congrArg (·.modify c f) h.classes }⟩

theorem alike_addClass {c c' : Class} (hc : c = c') :
    Forging.alike.Rel Eq (addClass c) (addClass c') := by
  cases hc
  exact alike_same fun _ _ h =>
    ⟨congrArg Array.size h.classes, { h with classes := congrArg (·.push c) h.classes }⟩

theorem alike_marking (m : Marking α) : Forging.alike.Rel Eq (marking m) (marking m) :=
  alike_same fun _ _ h =>
    ⟨congrArg (fun n => (m.run n).1) h.nextMark,
      { h with nextMark := congrArg (fun n => (m.run n).2) h.nextMark }⟩

theorem alike_store (o : Options) : Forging.alike.Rel Eq (store o) (store o) := alike_marking _

theorem alike_noting {r : α → β → Prop} {n : Noting α} {n' : Noting β}
    (h : Noting.alike.Rel r n n') : Forging.alike.Rel r (noting n) (noting n') :=
  alike_modifyGet (fun w => (h.left w.journal).1) (fun w => (h.right w.journal).1)
    fun w w' hw =>
      have hboth := h.both w.journal w'.journal hw.journal trivial trivial
      ⟨hboth.1, { hw with journal := hboth.2 }⟩

theorem alike_merging {m m' : Merging α} (h : Merging.alike.Rel Eq m m') :
    Forging.alike.Rel Eq (merging m) (merging m') := by
  refine Forging.alike.bind (alike_noting h) fun r r' hr => ?_
  cases hr with
  | ok ha => exact Forging.alike.pure ha
  | error e => exact Likeness.failing_throw _ e

/-- The computation succeeds and leaves nothing but warnings. -/
def Aside (m : Forging Unit) : Prop := ∀ w : Forest, ∃ w', m.run.run w = (.ok (), w') ∧ w.Alike w'

theorem Aside.pure : Aside (Pure.pure ()) := fun w => ⟨w, rfl, .refl w⟩

theorem Aside.noting {n : Noting Unit} (h : Noting.Aside n) : Aside (noting n) := fun w =>
  ⟨_, rfl, { Forest.Alike.refl w with journal := h w.journal }⟩

theorem Aside.discard {n : Noting α} (h : Noting.Aside n) : Aside (discard (Forging.noting n)) :=
  fun w => ⟨_, rfl, { Forest.Alike.refl w with journal := h w.journal }⟩

/-- Advice is alike, given or not. -/
theorem alike_aside {m m' : Forging Unit} (h : Aside m) (h' : Aside m') :
    Forging.alike.Rel Eq m m' where
  left w := by
    obtain ⟨v, hrun, -⟩ := h w
    exact ⟨⟨.ok (), by rw [hrun]; exact .ok rfl⟩, fun _ => trivial⟩
  right w := by
    obtain ⟨v, hrun, -⟩ := h' w
    exact ⟨⟨.ok (), by rw [hrun]; exact .ok rfl⟩, fun _ => trivial⟩
  both w w' hw _ _ := by
    obtain ⟨v, hrun, hv⟩ := h w
    obtain ⟨v', hrun', hv'⟩ := h' w'
    rw [hrun, hrun']
    exact ⟨.ok rfl, hv.symm.trans (hw.trans hv')⟩

end Forging

/-! ## Classes -/

namespace Classes

open Forging

theorem remerge_alike (c : ClassId) (above : Placed Options) :
    Forging.alike.Rel Eq (remerge cfg c above) (remerge (cfg.under φ) c above) := by
  refine Forging.alike.bindSame (alike_modifyClass c _) fun _ => ?_
  refine Forging.alike.bindSame (alike_getClass c) fun k => ?_
  refine Forging.alike.bindSame (alike_merging (Options.merge_alike false _ _)) fun merged => ?_
  refine Forging.alike.bindSame (alike_store _) fun options => ?_
  exact Forging.alike.bindSame (alike_modifyClass c _) fun _ => Forging.alike.pure rfl

theorem refresh_alike (above : Placed Options) (c : ClassId) :
    Forging.alike.Rel Eq (refresh cfg above c) (refresh (cfg.under φ) above c) := by
  refine Forging.alike.bindSame (alike_getClass c) fun k => ?_
  cases k.isCurrent above with
  | true => exact Forging.alike.pure rfl
  | false => exact remerge_alike c above

theorem resolveWithin_alike (left : Nat) (c : ClassId) :
    Forging.alike.Rel Eq (resolveWithin cfg left c) (resolveWithin (cfg.under φ) left c) := by
  induction left generalizing c with
  | zero => exact Likeness.failing_throw _ _
  | succ left ih =>
    refine Forging.alike.bindSame (alike_getClass c) fun k => ?_
    cases k.superClass with
    | none => exact Forging.alike.pure rfl
    | some s => exact Forging.alike.bindSame (ih s) fun above => refresh_alike above c

/-- **Resolving** does alike under any flags. -/
theorem resolve_alike (c : ClassId) :
    Forging.alike.Rel Eq (resolve cfg c) (resolve (cfg.under φ) c) := resolveWithin_alike _ c

theorem adviseName_aside (cfg : Config) (name : Option String) :
    Forging.Aside (adviseName cfg name) := by
  unfold adviseName
  cases cfg.devMode with
  | false => exact .pure
  | true =>
    cases name with
    | none => exact .pure
    | some n => exact .discard (.checkComponentName cfg n)

theorem adviseName_alike (name : Option String) :
    Forging.alike.Rel Eq (adviseName cfg name) (adviseName (cfg.under φ) name) :=
  alike_aside (adviseName_aside cfg name) (adviseName_aside _ name)

theorem newBase_alike (o : Options) : Forging.alike.Rel Eq (newBase o) (newBase o) :=
  Forging.alike.bindSame (alike_store _) fun _ => alike_addClass rfl

/-- **Making a class** does alike under any flags. -/
theorem extend_alike (s : ClassId) (definition : Options) :
    Forging.alike.Rel Eq (extend cfg s definition) (extend (cfg.under φ) s definition) := by
  refine Forging.alike.bindSame (resolve_alike s) fun above => ?_
  refine Forging.alike.bindSame (adviseName_alike _) fun _ => ?_
  refine Forging.alike.bindSame (alike_marking _) fun definition => ?_
  refine Forging.alike.bindSame (alike_merging (Options.merge_alike false _ _)) fun merged => ?_
  refine Forging.alike.bind alike_get fun w w' h => ?_
  rw [h.classes]
  refine Forging.alike.bindSame (alike_store _) fun options => ?_
  exact alike_addClass rfl

theorem classFor_alike (base : ClassId) (entry : ComponentRef Options) :
    Forging.alike.Rel Eq (classFor cfg base entry) (classFor (cfg.under φ) base entry) := by
  cases entry with
  | ofClass c => exact Forging.alike.pure rfl
  | self c =>
    refine Forging.alike.bind alike_get fun w w' h => Forging.alike.pure ?_
    rw [Forest.isAlive, Forest.isAlive, Forest.class?, Forest.class?, h.classes]
  | definition id o =>
    cases id with
    | none => exact Forging.alike.bindSame (extend_alike base o) fun c => Forging.alike.pure rfl
    | some id =>
      refine Forging.alike.bind alike_get fun w w' h => ?_
      rw [h.made]
      cases w'.made.lookup id with
      | some c => exact Forging.alike.pure rfl
      | none =>
        refine Forging.alike.bindSame (extend_alike base o) fun c => ?_
        refine Forging.alike.bindSame (alike_same fun _ _ h => ?_) fun _ => Forging.alike.pure rfl
        exact ⟨rfl, { h with made := congrArg (List.cons (id, c)) h.made }⟩

theorem editOptions_alike (c : ClassId) (f : Options → Options) :
    Forging.alike.Rel Eq (editOptions c f) (editOptions c f) :=
  Forging.alike.bindSame (alike_getClass c) fun _ =>
    Forging.alike.bindSame (alike_store _) fun _ => alike_modifyClass c _

theorem mixin_alike (base : ClassId) (definition : Options) :
    Forging.alike.Rel Eq (mixin cfg base definition) (mixin (cfg.under φ) base definition) := by
  refine Forging.alike.bindSame (alike_getClass base) fun k => ?_
  refine Forging.alike.bindSame (alike_marking _) fun definition => ?_
  refine Forging.alike.bindSame (alike_merging (Options.merge_alike false _ _)) fun merged => ?_
  exact editOptions_alike base _

theorem register_alike (base : ClassId) (name : String) (c : ClassId) :
    Forging.alike.Rel Eq (register cfg base name c) (register (cfg.under φ) base name c) :=
  Forging.alike.bindSame (adviseName_alike _) fun _ => editOptions_alike base _

theorem component_alike (base : ClassId) (name : String) (definition : Options) :
    Forging.alike.Rel Eq (component cfg base name definition)
      (component (cfg.under φ) base name definition) :=
  Forging.alike.bindSame (extend_alike base _) fun c =>
    Forging.alike.bindSame (register_alike base name c) fun _ => Forging.alike.pure rfl

theorem directive_alike (base : ClassId) (name : String) :
    Forging.alike.Rel Eq (directive cfg base name) (directive (cfg.under φ) base name) := by
  have hadvice : ∀ cfg : Config, Forging.Aside (noting (checkDirectiveName cfg name)) :=
    fun cfg => .noting (.checkDirectiveName cfg name)
  exact Forging.alike.saidFirst (editOptions_alike base _) (alike_aside (hadvice _) (hadvice _))
    (alike_aside (hadvice _) .pure) (alike_aside .pure (hadvice _))

end Classes

end Componentry
