import Componentry.Proofs.Class.Elsewhere
import Componentry.Proofs.Options.Entries

/-!
# Entries that are pinned

A late edit of one entry makes its whole part another object than the one that was kept, and with
it everything that the class inherited there goes into its definition. From then on the class goes
its own way: whatever its ancestors say of such an entry later, it keeps what it had.

- `Class.EntriesEdited`: a part whose entries were edited, or replaced as a whole.
- `Class.Pins`: an entry that a class will keep.
- `Class.pins_lasting`: **it is kept** by all that does not edit the class itself.
- `Class.Overlaid`: what becomes of the entries of a part in the next merge.
- `late_edit_pins_entries`: **a late edit pins inherited entries**.
- `inherited_method_pinned`: a method that an ancestor replaces in vain.
-/

namespace Componentry

open Forest

variable {α : Type} {cfg : Config} {f f' : Forest} {c s : ClassId} {k : Class} {x : Entries α}
  {key : String} {v : α}

/-- Options that are known, and declare under names that last. -/
def Options.Regular (x : Entries α) (n : Nat) (o : Options) : Prop := o.Known n ∧ o.Declared x

/-- What an operation brings in is regular, and its edits declare props under names that last. -/
structure Op.Regular (x : Entries α) (f : Forest) (op : Op) : Prop where
  brought : op.Brought (Options.Regular x f.nextMark)
  camel : ∀ b es, op = .edit b es → x.part = .props → ∀ e ∈ es, e.Camel

/-- A class has edited entries: the part is there, and is not the one that was kept. -/
def Class.EntriesEdited (k : Class) (x : Entries α) : Prop :=
  x.Edited k.options.value k.sealed.value

/-- An entry that a class has, and will have when it is merged again: the definition has it too, or
the whole part will go there. -/
def Class.Pins (x : Entries α) (key : String) (v : α) (k : Class) : Prop :=
  Dict.get? (x.of k.options.value) key = some v ∧
    (Dict.get? (x.of k.definition) key = some v ∨ k.EntriesEdited x)

/-! ## Regular options -/

theorem Options.regular_hereditary (cfg : Config) (x : Entries α) :
    Hereditary cfg (Options.Regular x) :=
  (Options.known_hereditary cfg).and (Options.declared_hereditary cfg x)

/-- A registration declares nothing. -/
theorem Op.Regular.keeps {op : Op} (h : op.Regular x f) :
    op.Keeps (fun _ => True) (Options.Regular x) f := by
  refine h.brought.keeps (Options.regular_hereditary {} x) (fun c es hr e he n o ho => ?_) _
  refine ⟨ho.1.edit e, ho.2.edit fun hx => ?_⟩
  cases op with
  | edit b es' =>
    cases hr.2
    exact h.camel b es rfl hx e he
  | component name d =>
    obtain ⟨-, k, hk⟩ := hr
    cases hk
    cases List.mem_singleton.mp he
    trivial
  | register name k =>
    cases hr.2
    cases List.mem_singleton.mp he
    trivial
  | directive name =>
    cases hr.2
    cases List.mem_singleton.mp he
    trivial
  | filter name e' =>
    cases hr.2
    cases List.mem_singleton.mp he
    trivial
  | mixin d => cases hr.2
  | replace b o => cases hr.2
  | _ => cases hr

theorem regular_defaultOptions (x : Entries α) (n : Nat) :
    defaultOptions.Throughout (Options.Regular x n) :=
  Options.throughout_alone
    ⟨(known_defaultOptions n).here, (Options.declared_empty x).of_maps rfl rfl⟩ rfl rfl

/-- In every history of regular options, all options of all classes are regular. -/
theorem Runs.regular {h : History} (hr : Runs cfg (fun f op => op.Regular x f) (.start cfg) h) :
    h.forest.Everywhere (fun _ => True) (Options.Regular x) :=
  hr.everywhere (Options.regular_hereditary cfg x) (fun _ _ _ _ => trivial) (fun _ _ ha => ha.keeps)
    (History.start_grounded cfg)
    (History.start_everywhere (Options.regular_hereditary cfg x) (regular_defaultOptions x) _)

/-! ## One class -/

theorem Class.of_carried_edited (h : k.EntriesEdited x) :
    x.of k.carried = x.of k.options.value := by
  rw [k.carried_eq]
  exact (x.of_carried _ _ _).1 h

theorem Class.of_carried_unedited (h : ¬k.EntriesEdited x) :
    x.of k.carried = x.of k.definition := by
  rw [k.carried_eq]
  exact (x.of_carried _ _ _).2 h

/-- What is pinned goes into the definition, or stays there. -/
theorem Class.Pins.carried (h : k.Pins x key v) : Dict.get? (x.of k.carried) key = some v := by
  obtain ⟨hlive, hown⟩ := h
  by_cases hedit : k.EntriesEdited x
  · rw [Class.of_carried_edited hedit]
    exact hlive
  · rw [Class.of_carried_unedited hedit]
    exact hown.resolve_right hedit

/-- **An entry of a class that is merged again**: that of its definition, edits included, or else
what lies beneath it. -/
theorem Change.get?_remerged (h : Change cfg f f' (.remerged c)) (hg : f.Grounded)
    (hd : f.Everywhere (fun _ => True) (Options.Regular x)) :
    ∃ s w, (f.get c).superClass = some s ∧
      Options.beneath cfg (f'.get s).options.value (f.get c).carried = .ok w ∧
      ∀ key, Dict.get? (x.of (f'.get c).options.value) key =
        (Dict.get? (x.of (f.get c).carried) key <|> Dict.get? (x.of w) key) := by
  obtain ⟨s, w, extra, hs, hsame, hw, -, hlike, -⟩ := h.remerged_over fun _ => hg.super_lt
  have H := Options.regular_hereditary cfg x
  have hcarried := H.throughout_carried (hd c trivial).1 (hd c trivial).2.1
  have hbeneath := H.throughout_beneath (hd s trivial).1 hcarried.inside hw
  refine ⟨s, w, hs, hsame.symm ▸ hw, fun key => ?_⟩
  rw [x.of_unmarked hlike, x.of_withSelf]
  exact x.get?_joined hcarried.here.1 hbeneath.here.2 hcarried.here.2 key

/-- **What is pinned lasts.** -/
theorem Class.pins_lasting (cfg : Config) (c : ClassId) (x : Entries α) (key : String) (v : α) :
    Lasting cfg (Options.Regular x) c (Class.Pins x key v) where
  remerged {f f'} hg hd h hp := by
    obtain ⟨-, -, -, -, -, -, -, -, hdef, -⟩ := h.remerged_over fun _ => hg.super_lt
    obtain ⟨s, w, -, -, hget⟩ := h.get?_remerged hg hd
    refine ⟨?_, .inl ?_⟩
    · rw [hget, hp.carried]
      rfl
    · rw [hdef]
      exact hp.carried
  -- the merge fails, but the definition is changed before
  spoiled _ _ hp := ⟨hp.1, .inl hp.carried⟩

/-! ## Making a late edit -/

/-- An edit of entries makes the part anew, unless it takes the props away. -/
theorem Entries.markAt_edit (x : Entries α) {e : Edit} (he : e.part = some x.part)
    (hclear : e ≠ .clear "props") (o : Options) : (o.edit e).markAt x.part = some none := by
  cases e with
  | clear key =>
    rw [Edit.part] at he
    split_ifs at he with _ _ _ _ hkey
    · cases x <;> cases he
    · cases x <;> cases he
    · cases x <;> cases he
    · cases x <;> cases he
    · exact absurd (congrArg Edit.clear hkey) hclear
  | _ => cases x <;> first | rfl | cases he

/-- **A late edit of an entry is seen.** -/
theorem Change.entriesEdited {es : List Edit} (h : Change cfg f f' (.revised c (.edits es)))
    (hd : f.Everywhere (fun _ => True) (Options.Regular x))
    (hmem : ∃ e ∈ es, e.part = some x.part) (hclear : Edit.clear "props" ∉ es) :
    (f'.get c).EntriesEdited x :=
  h.part_edited (hd c trivial).2.2.here.1 hmem fun _ he hx o =>
    x.markAt_edit hx (fun heq => hclear (heq ▸ he)) o

/-! ## Entries that are pinned -/

/-- What becomes of the entries of a part of a class `k` that is merged again. Beneath it lies what
its ancestors and its own base and mixins have now. Where none of the entries was edited, those of
the definition hide what lies beneath. But where one was, all that the class has hide it: then the
class follows what lies beneath exactly in the entries that it did not have, or had already. -/
def Class.Overlaid (cfg : Config) (k : Class) (x : Entries α) (f' : Forest) (o : Options) : Prop :=
  ∃ s w, k.superClass = some s ∧
    Options.beneath cfg (f'.get s).options.value k.carried = .ok w ∧
    (¬k.EntriesEdited x → ∀ key, Dict.get? (x.of o) key =
      (Dict.get? (x.of k.definition) key <|> Dict.get? (x.of w) key)) ∧
    (k.EntriesEdited x → ∀ key, Dict.get? (x.of o) key =
        (Dict.get? (x.of k.options.value) key <|> Dict.get? (x.of w) key) ∧
      (Dict.get? (x.of o) key = Dict.get? (x.of w) key ↔
        Dict.get? (x.of k.options.value) key = none ∨
          Dict.get? (x.of k.options.value) key = Dict.get? (x.of w) key))

/-- An entry that hides another is that other exactly if it is missing or the same. -/
theorem or_eq_right_iff {β : Type} (a b : Option β) : (a <|> b) = b ↔ a = none ∨ a = b := by
  cases a with
  | none => exact iff_of_true rfl (.inl rfl)
  | some a => exact ⟨.inr, fun h => h.resolve_left fun h => by cases h⟩

/-- **A late edit pins inherited entries.** A late edit of an entry is seen. A class that is
resolved has the options that it had, or was merged again; then its entries are those that it had
before it was merged, if they were edited, and others shine through only where it had none. So from
a late edit on, every entry that the class has then stays: in the options of the class, and in what
resolving gives, whatever becomes of its ancestors. -/
theorem late_edit_pins_entries (x : Entries α) {h : History}
    (hr : Runs cfg (fun f op => op.Regular x f) (.start cfg) h)
    (hsuper : (h.forest.get c).superClass = some s) :
    (∀ es, (∃ e ∈ es, e.part = some x.part) → Edit.clear "props" ∉ es →
      ((h.step cfg (.edit c es)).forest.get c).EntriesEdited x) ∧
    (∀ o f', (Classes.resolve cfg c).exec h.forest = (.ok o, f') →
      o = (h.forest.get c).options ∨ (h.forest.get c).Overlaid cfg x f' o.value) ∧
    ((h.forest.get c).EntriesEdited x →
      ∀ h', Runs cfg (fun f op => op.Regular x f ∧ op.Elsewhere c) h h' →
        ∀ key v, Dict.get? (x.of (h.forest.get c).options.value) key = some v →
          Dict.get? (x.of (h'.forest.get c).options.value) key = some v ∧
            ∀ o f', (Classes.resolve cfg c).exec h'.forest = (.ok o, f') →
              Dict.get? (x.of o.value) key = some v) := by
  have hg := hr.grounded (History.start_grounded cfg)
  have hd := hr.regular
  have H := Options.regular_hereditary cfg x
  refine ⟨fun es hmem hclear => ?_, fun o f' hres => ?_, fun hedit h' hr' key v hlive => ?_⟩
  · have hedits : Change cfg h.forest (h.step cfg (.edit c es)).forest (.revised c (.edits es)) :=
      (Classes.edit_yields cfg (lt_size_of_super hsuper) es).2
    exact hedits.entriesEdited hd hmem hclear
  · have hlast := Classes.resolve_remerged H hg hd c
    rw [Yields, hres] at hlast
    rcases hlast o rfl with ⟨-, ho⟩ | ⟨g, hgg, hdg, hget, hchange, ho⟩
    · exact .inl ho
    · rw [ho]
      obtain ⟨t, w, ht, hw, hentries⟩ := hchange.get?_remerged hgg hdg
      rw [hget] at ht hw hentries
      refine .inr ⟨t, w, ht, hw, fun hsame key => ?_, fun hedit key => ?_⟩
      · rw [hentries, Class.of_carried_unedited hsame]
      · rw [hentries, Class.of_carried_edited hedit]
        exact ⟨rfl, or_eq_right_iff _ _⟩
  · have L := Class.pins_lasting cfg c x key v
    obtain ⟨hpins, hresolve⟩ := L.later H (fun f op ha => ⟨ha.1.keeps, ha.2⟩) hr' hg hd hsuper
      ⟨hlive, .inr hedit⟩
    refine ⟨hpins.1, fun o f' hres => ?_⟩
    obtain ⟨rfl, hpins'⟩ := hresolve o f' hres
    exact hpins'.1

/-! ## A method that is replaced in vain -/

/-- A method that answers with a text. -/
def answering (text : String) : Script := [.ret (.lit (.str text))]

/-- The text that a method answers with, if it does nothing else. -/
def Script.answer? : Script → Option String
  | [.ret (.lit (.str text))] => some text
  | _ => none

/-- The text that a method of the options answers with. -/
def Options.answer? (o : Options) (name : String) : Option String :=
  (Dict.get? (Entries.methods.of o) name).bind Script.answer?

/-- A definition with a method `j`. -/
def answeringOld : Options where
  fields := { methods := some (.new [("j", answering "old")]) }

/-- A class with a method `j`. -/
def answeringClass : History :=
  (History.start quietConfig).step quietConfig (.extend rootClass answeringOld)

/-- A class under it that has nothing of its own. -/
def inheriting : History := answeringClass.step quietConfig (.extend 1 {})

/-- The class below gets another method. -/
def inheritingLate : History :=
  inheriting.step quietConfig (.edit 2 [.method "k" (answering "late")])

/-- The class above gets another method `j`. -/
def inheritingNew : History :=
  inheritingLate.step quietConfig (.edit 1 [.method "j" (answering "new")])

/-- What these histories come to. -/
theorem inheriting_evaluated :
    (answeringClass.forest.size = 2 ∧ inheriting.forest.size = 3 ∧
      inheritingLate.forest.size = 3) ∧
    ((inheriting.forest.get 2).superClass = some 1 ∧
      (inheritingLate.forest.get 2).superClass = some 1) ∧
    (inheritingLate.forest.get 2).options.value.answer? "j" = some "old" ∧
    (Classes.resolve quietConfig 2).passes inheritingNew.forest (fun o f' =>
      o.value.answer? "j" == some "old" &&
        (f'.get 1).options.value.answer? "j" == some "new") = true := by
  decide +kernel

theorem resolve_inheritingNew :
    ∃ o f', (Classes.resolve quietConfig 2).exec inheritingNew.forest = (.ok o, f') ∧
      o.value.answer? "j" = some "old" ∧
      (f'.get 1).options.value.answer? "j" = some "new" := by
  obtain ⟨o, f', hres, htest⟩ := Forging.exec_of_passes inheriting_evaluated.2.2.2
  rw [Bool.and_eq_true, beq_iff_eq, beq_iff_eq] at htest
  exact ⟨o, f', hres, htest⟩

theorem regular_answeringOld (n : Nat) :
    answeringOld.Throughout (Options.Regular .methods n) := by
  refine Options.throughout_alone ⟨⟨fun x m hm => ?_, ?_, ?_, ?_, ?_⟩, fun h => ?_, ?_⟩ rfl rfl
  · cases x <;> cases hm
  · decide
  · decide
  · decide
  · decide
  · cases h
  · exact Dict.ordered_nil

/-- Edits of methods bring in no options. -/
theorem regular_method (f : Forest) (c : ClassId) (name : String) (t : Script) :
    Op.Regular .methods f (.edit c [.method name t]) where
  brought e he := by
    cases List.mem_singleton.mp he
    trivial
  camel b es hop h := by cases h

theorem regular_inheriting :
    Runs quietConfig (fun f op => op.Regular .methods f) (.start quietConfig) inheriting := by
  obtain ⟨⟨hsize, -, -⟩, -⟩ := inheriting_evaluated
  have hempty := (Options.regular_hereditary quietConfig .methods).throughout_empty
  refine .step (.step .refl Nat.one_pos ⟨regular_answeringOld _, ?_⟩) ?_ ⟨hempty _, ?_⟩
  · intro b es h
    cases h
  · show 1 < answeringClass.forest.size
    rw [hsize]
    decide
  · intro b es h
    cases h

theorem regular_inheritingLate :
    Runs quietConfig (fun f op => op.Regular .methods f) (.start quietConfig) inheritingLate := by
  obtain ⟨⟨-, hsize, -⟩, -⟩ := inheriting_evaluated
  refine .step regular_inheriting ?_ (regular_method _ _ _ _)
  show 2 < inheriting.forest.size
  rw [hsize]
  decide

theorem origin_inheriting : inheriting.origin 2 = some (1, {}) := by
  obtain ⟨⟨hsize, hsize', -⟩, -⟩ := inheriting_evaluated
  have hfirst : answeringClass.origins = (History.start quietConfig).origins ++ [_] :=
    History.origins_step_of_lt (by rw [← answeringClass, hsize]; decide)
  have hsecond : inheriting.origins = answeringClass.origins ++ [_] :=
    History.origins_step_of_lt (by rw [← inheriting, hsize, hsize']; decide)
  rw [History.origin, hsecond, hfirst]
  rfl

theorem late_edit_pins_entries_answering :
    (inheritingLate.forest.get 2).EntriesEdited .methods ∧
      ∃ o f', (Classes.resolve quietConfig 2).exec inheritingNew.forest = (.ok o, f') ∧
        o.value.answer? "j" = some "old" := by
  obtain ⟨⟨-, -, hsize⟩, ⟨hsuper, hsuper'⟩, hlive, -⟩ := inheriting_evaluated
  have hedited : (inheritingLate.forest.get 2).EntriesEdited .methods :=
    (late_edit_pins_entries .methods regular_inheriting hsuper).1 _
      ⟨_, List.mem_singleton.mpr rfl, rfl⟩ fun h => by cases List.mem_singleton.mp h
  refine ⟨hedited, ?_⟩
  obtain ⟨v, hv, hanswer⟩ := Option.bind_eq_some_iff.mp hlive
  have hnew : Runs quietConfig (fun f op => op.Regular .methods f ∧ op.Elsewhere 2)
      inheritingLate inheritingNew := by
    refine .step .refl ?_ ⟨regular_method _ _ _ _, fun es h => ?_, fun o h => ?_⟩
    · show 1 < inheritingLate.forest.size
      rw [hsize]
      decide
    · cases h
    · cases h
  obtain ⟨o, f', hres, -⟩ := resolve_inheritingNew
  have hpinned := (late_edit_pins_entries .methods regular_inheritingLate hsuper').2.2 hedited
    inheritingNew hnew "j" v hv
  refine ⟨o, f', hres, ?_⟩
  rw [Options.answer?, hpinned.2 o f' hres]
  exact hanswer

/-- **A method replaced in vain.** A class that has nothing of its own inherits a method `j` and
gets another method `k`, then the class above gets another `j`. Once the class is resolved it still
has the old one. -/
theorem inherited_method_pinned :
    ∃ (cfg : Config) (h : History) (s c : ClassId) (j k : String) (late new : Script)
      (o : Placed Options) (f' : Forest),
      Runs cfg (fun f op => op.Regular .methods f) (.start cfg) h ∧
      h.origin c = some (s, {}) ∧ j ≠ k ∧
      (Classes.resolve cfg c).exec
        ((h.step cfg (.edit c [.method k late])).step cfg (.edit s [.method j new])).forest =
          (.ok o, f') ∧
      (f'.get s).options.value.answer? j = new.answer? ∧ new.answer? = some "new" ∧
      o.value.answer? j = some "old" := by
  obtain ⟨o, f', hres, hold, hnew⟩ := resolve_inheritingNew
  exact ⟨quietConfig, inheriting, 1, 2, "j", "k", answering "late", answering "new", o, f',
    regular_inheriting, origin_inheriting, by decide, hres, hnew, rfl, hold⟩

end Componentry
