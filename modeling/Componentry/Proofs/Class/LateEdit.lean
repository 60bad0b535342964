import Componentry.Proofs.Class.Everywhere
import Componentry.Proofs.Options.LateEdits
import Componentry.Proofs.Options.Unmarked

/-!
# Late edits of a class

The options of a class may be edited after they were merged. When an ancestor changes, the class is
merged again, and a late edit has to survive that, and every later time as well.

- `Class.Keeps`: a late edit is present, and will be carried.
- `Change.keeps`: **events keep it**, but for edits of the class itself.
- `Op.Leaves`: what may happen to a class without touching a late edit.
- `late_edit_survives`: **a late edit survives** whatever leaves it alone.
-/

namespace Componentry

open Forest

variable {cfg : Config} {f f' : Forest} {c s : ClassId} {k : Class} {e : Edit}

/-! ## Watchers that are added once -/

/-- Known options that watch a key by a function once at most. -/
def Options.Spared (key : String) (w : WatchHandler) (n : Nat) (o : Options) : Prop :=
  o.Known n ∧ o.WatchedOnce key w

theorem Options.watchedOnce_eq {key : String} {w : WatchHandler} {o o' : Options}
    (h : valueOf o'.fields.watch = valueOf o.fields.watch) (ho : o.WatchedOnce key w) :
    o'.WatchedOnce key w := by
  rw [Options.WatchedOnce, watchersAt, entriesOf, h]
  exact ho

/-- **Operations keep** a function once. -/
theorem Options.spared_hereditary (cfg : Config) (key : String) {w : WatchHandler}
    (hw : w.isFunction = true) : Hereditary cfg (Options.Spared key w) := by
  have H := Options.known_hereditary cfg
  refine {
    empty := fun n => ⟨H.empty n, Nat.zero_le 1⟩
    mono := fun hn h => ⟨h.1.mono hn, h.2⟩
    placed := fun {n n' o o'} h hp => ⟨h.1.placed hp, ?_⟩
    layered := fun {n p c m} hp hc h => ⟨hp.1.layered hc.1 h, ?_⟩
    carried := fun {n live d} kept hl hd => ⟨hl.1.carried kept hd.1, ?_⟩
    addComponent := fun name c h => ⟨h.1.addComponent name c, h.2⟩
    named := fun name h => ⟨H.named name h.1, h.2⟩
    asMerged := fun h => ⟨H.asMerged h.1, h.2⟩ }
  · exact Options.watchedOnce_eq
      (Fields.valueOf_eq (Options.fields_unmarked_eq hp.unmarked) (·.watch) fun _ => rfl) h.2
  · obtain ⟨extra, -, rfl⟩ := Options.over_eq_ok h
    have hord := hc.1.watch
    have hchild := hc.2
    have hparent := hp.2
    rw [Options.WatchedOnce] at hchild hparent ⊢
    show occurrences w (watchersAt (mergeParts joinWatch p.fields.watch c.fields.watch) key) ≤ 1
    cases hcw : c.fields.watch with
    | none =>
      cases hpw : p.fields.watch with
      | none => exact Nat.zero_le 1
      | some pw =>
        rw [hpw] at hparent
        exact hparent
    | some cw =>
      rw [hcw] at hchild hord
      rw [watchersAt_mergeParts _ hord]
      split
      · exact hchild
      · rw [occurrences_joinWatchers, if_pos hw]
        split_ifs <;> omega
  · rcases unlessSame_or (Placed.sameOption live.fields.watch kept.fields.watch)
      live.fields.watch d.fields.watch with h | h
    · exact Options.watchedOnce_eq (congrArg valueOf h) hl.2
    · exact Options.watchedOnce_eq (congrArg valueOf h) hd.2

/-! ## One class -/

/-- A late edit of a class is present, and will be carried: the definition has it, or it is seen. -/
def Class.Keeps (k : Class) (e : Edit) : Prop :=
  e.In k.options.value ∧ (e.In k.definition ∨ e.Moved k.options.value k.sealed.value)

/-- A component of a class that was merged again under the name of that component. The definition
still has it. -/
def Class.Hides (k : Class) (e : Edit) : Prop :=
  e.In k.definition ∧ k.sealed = k.options ∧ e.Names k.options.value.name

theorem Forest.Grounded.marked_value (hf : f.Grounded) (hc : c < f.size) :
    (f.get c).options.value.Marked := by
  obtain ⟨o, n, h⟩ := hf.stored hc
  rw [h]
  exact o.marked_stored n

/-- A late edit that is kept goes into the definition when the class is merged again. -/
theorem Class.Keeps.carried (h : k.Keeps e) (hk : Dict.Ordered k.options.value.fields.extra) :
    e.In k.carried := by
  rw [k.carried_eq]
  exact h.1.carried h.2 hk

theorem Class.Hides.carried (h : k.Hides e) (hm : k.options.value.Marked)
    (hk : Dict.Ordered k.options.value.fields.extra) : e.In k.carried := by
  rw [k.carried_eq, h.2.1, Options.carry_changes_self hm hk]
  exact h.1

/-! ## One event -/

/-- No class made before `c` has the watcher that a late edit of `c` adds more than once in a list,
and neither have the options inside those of `c`. -/
def Forest.Spares (f : Forest) (c : ClassId) (e : Edit) : Prop :=
  ∀ key w, e = .watch key w → f.Everywhere (· < c) (Options.Spared key w) ∧
    (f.get c).options.value.Inside (Options.Spared key w f.nextMark) ∧
    (f.get c).definition.Inside (Options.Spared key w f.nextMark)

/-- A late edit of a class that has a super class is kept, or hidden by the name of the class. -/
structure Forest.Keeps (f : Forest) (c : ClassId) (e : Edit) : Prop where
  super : ∃ s, (f.get c).superClass = some s
  kept : (f.get c).Keeps e ∨ (f.get c).Hides e
  spares : f.Spares c e

/-- What a class is merged to when it is merged again has the late edit, and only the name of the
class may hide it. -/
theorem Class.remerged_keeps (hcfg : cfg.strategies = []) {n n' : Nat} {above : Placed Options}
    {m : Options} {p : Placed Options} (hin : e.In k.carried) (hknown : k.carried.Known n)
    (hwatch : ∀ key w, e = .watch key w → ∀ b,
      Options.beneath cfg above.value k.carried = .ok b → b.WatchedOnce key w)
    (hm : Options.mergeResult cfg above.value k.carried = .ok m)
    (hp : p = (m.withSelf m.name c).stored n') :
    (k.remerged above p).Keeps e ∨ (k.remerged above p).Hides e := by
  obtain ⟨b, extra, hb, hextra, rfl⟩ := Options.mergeResult_eq_ok hm
  have hmerged := hin.joined hcfg hknown (fun key w h => hwatch key w h b hb) hextra
  -- the class goes among its own components under the merged name
  by_cases hname : e.Names (b.joined k.carried extra).name
  · refine .inr ⟨hin, rfl, ?_⟩
    have hsame : p.value.name = (b.joined k.carried extra).name := by
      rw [hp]
      exact (Options.name_eq_of_unmarked (Options.placed_unmarked _ n')).trans
        (Options.name_withSelf _ _ c)
    show e.Names p.value.name
    rw [hsame]
    exact hname
  · refine .inl ⟨?_, .inl hin⟩
    show e.In p.value
    rw [hp]
    exact (hmerged.withSelf hname).stored n'

/-- Options inside stay spared once the options are stored. -/
theorem Hereditary.inside_stored {P : Nat → Options → Prop} (H : Hereditary cfg P) {o : Options}
    {p : Placed Options} {n n' : Nat} (h : o.Inside (P n)) (hp : p = o.stored n)
    (hn : ∃ m, p.mark = some m ∧ n' = m + 1) : p.value.Inside (P n') := by
  rw [(Options.lt_of_stored hp hn).1, hp]
  have hplaced : (o.placed n).Inside (P (o.markAfter n)) := H.inside_leads o n h
  exact hplaced.imp fun _ => H.mono (Nat.le_succ _)

/-- A class that is merged again keeps a late edit, wherever the classes before it have no watcher
of the edit twice. -/
theorem Change.keeps_remerged (hcfg : cfg.strategies = []) (h : Change cfg f f' (.remerged c))
    (hg : f.Grounded) (hk : f.Known) (he : e.slot ≠ none) (hkeep : f.Keeps c e)
    (hbefore : ∀ key w, e = .watch key w → f'.Everywhere (· < c) (Options.Spared key w)) :
    f'.Keeps c e := by
  obtain ⟨⟨s, hsuper⟩, hkept, hspares⟩ := hkeep
  have hle := h.nextMark_le
  have H : ∀ {key w}, e = .watch key w → Hereditary cfg (Options.Spared key w) :=
    fun hw => Options.spared_hereditary cfg _ (Edit.isFunction_of_slot (hw ▸ he))
  cases h with
  | @remerged _ t m p hb hu hcur hm hp ho hs hn =>
    have htc := hg.super_lt hb
    -- what goes into the definition
    have hord := (hk c trivial).1.here.extra
    have hmarked : (f.get c).options.value.Marked := hg.marked_value (lt_size_of_super hb)
    have hin : e.In (f.get c).carried :=
      hkept.elim (·.carried hord) (·.carried hmarked hord)
    have hknown : (f.get c).carried.Known f.nextMark :=
      ((Options.known_hereditary cfg).throughout_carried (hk c trivial).1 (hk c trivial).2.1).here
    have hinside : ∀ key w, e = .watch key w →
        (f.get c).carried.Inside (Options.Spared key w f.nextMark) := fun key w hw =>
      inside_carried (hspares key w hw).2.1 (hspares key w hw).2.2
    -- what the class inherits has the watcher once at most
    have hbeneath : ∀ key w, e = .watch key w → ∀ b,
        Options.beneath cfg (f.get t).options.value (f.get c).carried = .ok b →
          b.Throughout (Options.Spared key w f.nextMark) := fun key w hw b hb =>
      (H hw).throughout_beneath ((hspares key w hw).1 t htc).1 (hinside key w hw) hb
    refine ⟨⟨t, by rw [ho.here]; exact hb⟩, ?_, fun key w hw => ⟨hbefore key w hw, ?_, ?_⟩⟩
    · rw [ho.here]
      exact Class.remerged_keeps hcfg hin hknown
        (fun key w hw b hb => (hbeneath key w hw b hb).here.2) hm hp
    · rw [ho.here]
      obtain ⟨b, extra, hbn, -, rfl⟩ := Options.mergeResult_eq_ok hm
      refine (H hw).inside_stored (Options.Inside.withSelf ?_ _ c) hp hn
      exact (hbeneath key w hw b hbn).inside.joined (hinside key w hw)
    · rw [ho.here]
      exact (hinside key w hw).imp fun _ => (H hw).mono hle

/-- **Events keep** a late edit, if they are no edits of the class itself. -/
theorem Change.keeps {ev : Event} (hcfg : cfg.strategies = []) (h : Change cfg f f' ev)
    (hg : f.Grounded) (hk : f.Known) (he : e.slot ≠ none) (hev : ∀ r, ev ≠ .revised c r)
    (hspare : ∀ key w, e = .watch key w →
      ev.Keeps (· < c) (Options.Spared key w) f.nextMark f.size)
    (hkeep : f.Keeps c e) : f'.Keeps c e := by
  have hkeep' := hkeep
  have hchange := h
  obtain ⟨⟨s, hsuper⟩, hkept, hspares⟩ := hkeep
  have hlt := lt_size_of_super hsuper
  have hle := h.nextMark_le
  have H : ∀ {key w}, e = .watch key w → Hereditary cfg (Options.Spared key w) :=
    fun hw => Options.spared_hereditary cfg _ (Edit.isFunction_of_slot (hw ▸ he))
  -- the classes before do not depend on what becomes of the class
  have hbefore : ∀ key w, e = .watch key w → f'.Everywhere (· < c) (Options.Spared key w) :=
    fun key w hw => h.everywhere (H hw) (fun a b hab hb => Nat.lt_trans hab hb)
      hg.super_lt (hspare key w hw) (hspares key w hw).1
  -- what is left to show if the class is as it was
  have unchanged : f'.get c = f.get c → f'.Keeps c e := fun hsame => by
    refine ⟨⟨s, hsame ▸ hsuper⟩, hsame ▸ hkept, fun key w hw => ⟨hbefore key w hw, ?_, ?_⟩⟩
    · rw [hsame]
      exact (hspares key w hw).2.1.imp fun _ => (H hw).mono hle
    · rw [hsame]
      exact (hspares key w hw).2.2.imp fun _ => (H hw).mono hle
  cases h with
  | aside hq => exact unchanged (hq.get c)
  | founded _ ho _ _ => exact unchanged (ho.there c (Nat.ne_of_lt hlt))
  | made _ _ _ _ ho _ _ => exact unchanged (ho.there c (Nat.ne_of_lt hlt))
  | @revised b r _ _ _ _ _ _ ho _ _ =>
    exact unchanged (ho.there c fun hcb => hev r (by rw [hcb]))
  | @spoiled b t err hb hu hcur hm ho hs hn =>
    -- without strategies no merge fails
    obtain ⟨m, hok⟩ := Options.mergeResult_ok hcfg (f.get t).options.value (f.get b).carried
    rw [hok] at hm
    cases hm
  | @remerged b t m p hb hu hcur hm hp ho hs hn =>
    by_cases hcb : c = b
    · subst hcb
      exact hchange.keeps_remerged hcfg hg hk he hkeep' hbefore
    · exact unchanged (ho.there c hcb)

/-- **Other late edits of the class** keep a late edit. -/
theorem Change.keeps_edits {es : List Edit} (h : Change cfg f f' (.revised c (.edits es)))
    (hg : f.Grounded) (hk : f.Known) (he : e.slot ≠ none) (hes : ∀ e' ∈ es, e.Spares e')
    (hkeep : (f.get c).Keeps e) (hsuper : ∃ s, (f.get c).superClass = some s)
    (hspares : f.Spares c e) : f'.Keeps c e := by
  have hchange := h
  have hle := h.nextMark_le
  cases h with
  | @revised _ _ o n p hc hr hp ho hs hn =>
    obtain ⟨rfl, rfl⟩ := hr
    obtain ⟨hin, hheld⟩ := hkeep
    have hmarked : (f.get c).options.value.Marked := hg.marked_value hc
    have hlate : ∀ e' ∈ es, e'.slot ≠ none := fun e' he' => (hes e' he').1
    refine ⟨by rw [ho.here]; exact hsuper, .inl ?_, fun key w hw => ?_⟩
    · rw [ho.here, hp]
      refine ⟨(hin.edits hes).stored _, hheld.imp id fun hmoved => ?_⟩
      exact hmoved.edits hlate (hk c trivial).2.2.here hmarked
    · obtain ⟨hbefore, hlive, hdef⟩ := hspares key w hw
      have H := Options.spared_hereditary cfg key (Edit.isFunction_of_slot (hw ▸ he))
      refine ⟨hchange.everywhere H (fun a b hab hb => Nat.lt_trans hab hb) hg.super_lt
        (fun hcc => absurd hcc (Nat.lt_irrefl c)) hbefore, ?_, ?_⟩
      · rw [ho.here]
        exact H.inside_stored (hlive.edits fun e' he' => Edit.holds_of_slot (hlate e' he')) hp hn
      · rw [ho.here]
        exact hdef.imp fun _ => H.mono hle

/-- A late edit that is not hidden by the name of the class is kept. -/
theorem Forest.Keeps.here (h : f.Keeps c e) (hname : ¬e.Names (f.get c).name) :
    (f.get c).Keeps e :=
  h.kept.resolve_right fun hhides => hname hhides.2.2

theorem Steps.keeps {evs : List Event} (hcfg : cfg.strategies = []) (h : Steps cfg evs f f')
    (hg : f.Grounded) (hk : f.Known) (he : e.slot ≠ none)
    (hev : ∀ ev ∈ evs, ∀ r, ev ≠ .revised c r)
    (hknown : ∀ ev ∈ evs, ∀ n size, f.nextMark ≤ n → f.size ≤ size →
      ev.Keeps (fun _ => True) Options.Known n size)
    (hspare : ∀ key w, e = .watch key w → ∀ ev ∈ evs, ∀ n size, f.nextMark ≤ n →
      f.size ≤ size → ev.Keeps (· < c) (Options.Spared key w) n size)
    (hkeep : f.Keeps c e) : f'.Keeps c e := by
  induction h with
  | nil f => exact hkeep
  | @cons ev evs f g f' hc _ ih =>
    have hmem : ∀ ev' ∈ evs, ev' ∈ ev :: evs := fun ev' hev' => List.mem_cons_of_mem _ hev'
    have hn := hc.nextMark_le
    have hs := hc.size_le
    have hkg : g.Known := hc.everywhere (Options.known_hereditary cfg) (fun _ _ _ _ => trivial)
      hg.super_lt (hknown ev List.mem_cons_self _ _ (Nat.le_refl _) (Nat.le_refl _)) hk
    have hkeepg : g.Keeps c e := hc.keeps hcfg hg hk he (hev ev List.mem_cons_self)
      (fun key w hw => hspare key w hw ev List.mem_cons_self _ _ (Nat.le_refl _) (Nat.le_refl _))
      hkeep
    refine ih (hc.grounded hg) hkg (fun ev' hev' => hev ev' (hmem ev' hev')) ?_ ?_ hkeepg
    · intro ev' hev' n size hle hle'
      exact hknown ev' (hmem ev' hev') n size (Nat.le_trans hn hle) (Nat.le_trans hs hle')
    · intro key w hw ev' hev' n size hle hle'
      exact hspare key w hw ev' (hmem ev' hev') n size (Nat.le_trans hn hle)
        (Nat.le_trans hs hle')

/-! ## Operations -/

/-- The class of a number once an operation was carried out. -/
def Op.leaving (cfg : Config) (op : Op) (f : Forest) (c : ClassId) : Class :=
  ((op.run cfg).exec f).2.get c

/-- An operation that leaves a late edit of the class `c` alone. Edits of the class are late edits
too, of other slots, and its options are not replaced. A function that the class watches by is not
added once more to a list of a class before it. A component of the class does not have the name
that the class has then. -/
structure Op.Leaves (cfg : Config) (c : ClassId) (e : Edit) (f : Forest) (op : Op) : Prop where
  known : op.Known f
  edits : ∀ es, op = .edit c es → ∀ e' ∈ es, e.Spares e'
  replaces : ∀ o, op ≠ .replace c o
  watchers : ∀ key w, e = .watch key w → op.Keeps (· < c) (Options.Spared key w) f
  name : ¬e.Names (op.leaving cfg f c).name

theorem Op.Leaves.not_revised {op : Op} (h : op.Leaves cfg c e f) (hg : f.Grounded)
    (hsuper : (f.get c).superClass = some s) (hedit : ∀ es, op ≠ .edit c es) {ev : Event}
    (hev : op.Brings ev) (r : Revision) : ev ≠ .revised c r :=
  hev.ne_revised (hg.ne_root hsuper) hedit h.replaces r

/-- **An operation that leaves a late edit alone keeps it.** -/
theorem Op.Leaves.step {h : History} {op : Op} (hcfg : cfg.strategies = [])
    (hop : op.Leaves cfg c e h.forest) (hfit : op.Fits h.forest) (hg : h.forest.Grounded)
    (hk : h.forest.Known) (he : e.slot ≠ none) (hkeep : h.forest.Keeps c e)
    (hname : ¬e.Names (h.forest.get c).name) :
    (h.step cfg op).forest.Keeps c e ∧ ¬e.Names ((h.step cfg op).forest.get c).name := by
  refine ⟨?_, hop.name⟩
  obtain ⟨s, hsuper⟩ := hkeep.super
  by_cases hedit : ∃ es, op = .edit c es
  · obtain ⟨es, rfl⟩ := hedit
    have hchange : Change cfg h.forest (h.step cfg (.edit c es)).forest (.revised c (.edits es)) :=
      (Classes.edit_yields cfg hfit es).2
    exact hchange.keeps_edits hg hk he (hop.edits es rfl) (hkeep.here hname) ⟨s, hsuper⟩
      hkeep.spares
  · obtain ⟨evs, hsteps, hevs, -⟩ := History.step_events cfg hg hfit
    refine hsteps.keeps hcfg hg hk he (fun ev hev r => ?_) (fun ev hev => ?_)
      (fun key w hw ev hev => hop.watchers key w hw ev (hevs ev hev)) hkeep
    · exact hop.not_revised hg hsuper (fun es hes => hedit ⟨es, hes⟩) (hevs ev hev) r
    · exact hop.known.keeps _ ev (hevs ev hev)

/-- **A run that leaves a late edit alone keeps it.** -/
theorem Runs.keeps {h h' : History} (hr : Runs cfg (Op.Leaves cfg c e) h h')
    (hcfg : cfg.strategies = []) (hg : h.forest.Grounded) (hk : h.forest.Known)
    (he : e.slot ≠ none) (hkeep : h.forest.Keeps c e) (hname : ¬e.Names (h.forest.get c).name) :
    h'.forest.Grounded ∧ h'.forest.Known ∧ h'.forest.Keeps c e ∧
      ¬e.Names (h'.forest.get c).name := by
  induction hr with
  | refl => exact ⟨hg, hk, hkeep, hname⟩
  | @step h₁ op hr₁ hfit hop ih =>
    obtain ⟨hg₁, hk₁, hkeep₁, hname₁⟩ := ih
    have hone : Runs cfg (fun f op => op.Known f) h₁ (h₁.step cfg op) := .step .refl hfit hop.known
    exact ⟨hone.grounded hg₁, hone.known (fun _ _ ha => ha) hg₁ hk₁,
      hop.step hcfg hfit hg₁ hk₁ he hkeep₁ hname₁⟩

/-- What resolving gives has a late edit that was kept, unless the name of the class hides it. -/
theorem Classes.resolve_keeps (hcfg : cfg.strategies = []) (hg : f.Grounded) (hk : f.Known)
    (he : e.slot ≠ none) (hkeep : f.Keeps c e) :
    Yields (Classes.resolve cfg c) f fun r _ =>
      ∀ o, r = .ok o → ¬e.Names o.value.name → e.In o.value := by
  refine (Classes.resolve_yields cfg hg c).imp fun r f' ⟨⟨evs, hsteps, hevs⟩, hok⟩ o hr hname => ?_
  obtain ⟨rfl, -⟩ := hok o hr
  -- resolving edits nothing, and brings in no options
  have hkept : ∀ ev ∈ evs, ∀ (S : ClassId → Prop) (P : Nat → Options → Prop) n size,
      ev.Keeps S P n size := fun ev hev S P n size =>
    (hevs ev hev).elim (fun _ => trivial) fun _ => trivial
  have hlast := hsteps.keeps hcfg hg hk he (fun ev hev => (hevs ev hev).ne_revised)
    (fun ev hev n size _ _ => hkept ev hev _ _ n size)
    (fun key w _ ev hev n size _ _ => hkept ev hev _ _ n size) hkeep
  exact (hlast.here hname).1

/-! ## Making a late edit -/

/-- A late edit is seen once it is made. -/
theorem Change.moved {es : List Edit} (h : Change cfg f f' (.revised c (.edits es)))
    (hk : f.Known) (hmem : e ∈ es) (hes : ∀ e' ∈ es, e'.slot ≠ none)
    (hdiffers : e.part = none → e.Differs (f.get c).sealed.value) :
    e.Moved (f'.get c).options.value (f'.get c).sealed.value := by
  rw [Edit.Moved]
  cases hx : e.part with
  | none =>
    cases h with
    | revised _ _ _ ho _ _ =>
      rw [ho.here]
      exact hdiffers hx
  | some x =>
    exact (h.part_edited (hk c trivial).2.2.here ⟨e, hmem, hx⟩ fun e' he' hx' o =>
      Edit.markAt_late (hes e' he') hx' o).2

/-- A late edit is present once it is made, if it adds no handler that is there already. -/
theorem Change.in_edits {pre post : List Edit}
    (h : Change cfg f f' (.revised c (.edits (pre ++ e :: post)))) (he : e.slot ≠ none)
    (hes : ∀ e' ∈ pre ++ post, e.Spares e') (htimes : e.times (f.get c).options.value = 0) :
    e.In (f'.get c).options.value := by
  cases h with
  | revised hc hr hp ho hs hn =>
    obtain ⟨rfl, rfl⟩ := hr
    rw [ho.here, hp]
    refine Edit.In.stored ?_ _
    rw [List.foldl_append, List.foldl_cons]
    refine Edit.In.edits (fun e' he' => hes e' (List.mem_append_right _ he')) (Edit.in_edit he ?_)
    rw [Edit.times_edits fun e' he' => hes e' (List.mem_append_left _ he')]
    exact htimes

/-- **A late edit survives.** A late edit of a class with a super class, made together with others
that are about other slots, is present then and is seen, if a handler that it adds is new and a
value that it sets is not the one that was kept. And a late edit that is present and seen stays
present through whatever leaves it alone: in the options of the class, and in what resolving
gives, however often the class is merged again. A function that it watches by must not stand twice
in a list of another class; one that stands nowhere else does not. -/
theorem late_edit_survives (hcfg : cfg.strategies = []) {h : History}
    (hr : Runs cfg (fun f op => op.Known f) (.start cfg) h)
    (hsuper : (h.forest.get c).superClass = some s) (he : e.slot ≠ none) :
    (∀ pre post, (∀ e' ∈ pre ++ post, e.Spares e') →
      e.times (h.forest.get c).options.value = 0 →
      (e.part = none → e.Differs (h.forest.get c).sealed.value) →
      e.In ((h.step cfg (.edit c (pre ++ e :: post))).forest.get c).options.value ∧
        e.Moved ((h.step cfg (.edit c (pre ++ e :: post))).forest.get c).options.value
          ((h.step cfg (.edit c (pre ++ e :: post))).forest.get c).sealed.value) ∧
    (e.In (h.forest.get c).options.value →
      e.Moved (h.forest.get c).options.value (h.forest.get c).sealed.value →
      h.forest.Spares c e → ¬e.Names (h.forest.get c).name →
      ∀ h', Runs cfg (Op.Leaves cfg c e) h h' →
        e.In (h'.forest.get c).options.value ∧
          ∀ o f', (Classes.resolve cfg c).exec h'.forest = (.ok o, f') →
            ¬e.Names o.value.name → e.In o.value) := by
  have hg := hr.grounded (History.start_grounded cfg)
  have hk := hr.known (fun _ _ ha => ha) (History.start_grounded cfg) (History.start_known cfg)
  refine ⟨fun pre post hes htimes hdiffers => ?_, fun hin hmoved hspares hname h' hr' => ?_⟩
  · have hchange : Change cfg h.forest (h.step cfg (.edit c (pre ++ e :: post))).forest
        (.revised c (.edits (pre ++ e :: post))) :=
      (Classes.edit_yields cfg (lt_size_of_super hsuper) _).2
    refine ⟨hchange.in_edits he hes htimes, hchange.moved hk ?_ (fun e' he' => ?_) hdiffers⟩
    · exact List.mem_append_right _ List.mem_cons_self
    · rcases List.mem_append.mp he' with he' | he'
      · exact (hes e' (List.mem_append_left _ he')).1
      · rcases List.mem_cons.mp he' with rfl | he'
        · exact he
        · exact (hes e' (List.mem_append_right _ he')).1
  · have hkeep : h.forest.Keeps c e := ⟨⟨s, hsuper⟩, .inl ⟨hin, .inr hmoved⟩, hspares⟩
    obtain ⟨hg', hk', hkeep', hname'⟩ := hr'.keeps hcfg hg hk he hkeep hname
    refine ⟨(hkeep'.here hname').1, fun o f' hres hnot => ?_⟩
    have hresolved := Classes.resolve_keeps hcfg hg' hk' he hkeep'
    rw [Yields, hres] at hresolved
    exact hresolved o rfl hnot

/-! ## A watcher that stays -/

/-- A class under the name of a panel. -/
def panelled : History := (History.start quietConfig).step quietConfig (.extend rootClass panel)

def watchTitle : Edit := .watch "title" { callback := .handler ⟨7, []⟩ }

/-- The class gets a handler and a watcher. -/
def panelWatched : History :=
  panelled.step quietConfig (.edit 1 [.on .created ⟨5, []⟩, watchTitle])

theorem known_panelled :
    Runs quietConfig (fun f op => op.Known f) (.start quietConfig) panelled :=
  .step .refl Nat.one_pos (known_panel _)

theorem known_panelWatched :
    Runs quietConfig (fun f op => op.Known f) (.start quietConfig) panelWatched := by
  refine .step known_panelled (show 1 < Forest.size _ by decide +kernel) fun e he => ?_
  rcases List.mem_cons.mp he with rfl | he
  · trivial
  · cases List.mem_singleton.mp he
    trivial

/-- Options without watchers watch by no function twice. -/
theorem spared_of_known {key : String} {w : WatchHandler} {n : Nat} {o : Options}
    (h : o.Throughout (Options.Known n)) (hw : o.fields.watch = none) (hb : o.base = none)
    (hm : o.mixins = none) : o.Throughout (Options.Spared key w n) := by
  refine Options.throughout_alone ⟨h.here, ?_⟩ hb hm
  rw [Options.WatchedOnce, hw]
  exact Nat.zero_le 1

theorem spares_panelWatched : panelWatched.forest.Spares 1 watchTitle := by
  intro key w hw
  cases hw
  have H := Options.spared_hereditary quietConfig "title"
    (w := { callback := .handler ⟨7, []⟩ }) rfl
  have hinside : ∀ {P : Options → Prop} {o : Options}, o.base.isNone = true →
      o.mixins.isNone = true → o.Inside P := fun hb hm => by
    rw [Options.Inside, Option.isNone_iff_eq_none.mp hb, Option.isNone_iff_eq_none.mp hm,
      BaseThroughout, MixinsThroughout]
    exact ⟨trivial, trivial⟩
  refine ⟨?_, hinside (by decide +kernel) (by decide +kernel),
    hinside (by decide +kernel) (by decide +kernel)⟩
  -- neither operation brings anything in to the class before
  have hrun : Runs quietConfig (fun f op => op.Keeps (· < 1) (Options.Spared "title"
      { callback := .handler ⟨7, []⟩ }) f ∧ 0 < f.size) (.start quietConfig) panelWatched := by
    refine .step (.step .refl Nat.one_pos ⟨fun ev hev n size _ hs => ?_, Nat.one_pos⟩)
      (show 1 < Forest.size _ by decide +kernel) ⟨fun ev hev n size _ _ => ?_, by decide +kernel⟩
    · cases ev with
      | made s d => exact fun hlt => absurd hlt (Nat.not_lt.mpr hs)
      | founded o => cases hev
      | revised c r => cases hev
      | _ => trivial
    · cases ev with
      | revised c r =>
        cases hev.1
        exact fun hlt => absurd hlt (Nat.lt_irrefl 1)
      | made s d => cases hev
      | founded o => cases hev
      | _ => trivial
  refine hrun.everywhere H (fun a b hab hb => Nat.lt_trans hab hb) (fun f op h => h.1)
    (History.start_grounded quietConfig) (History.start_everywhere H (fun n => ?_) _)
  exact spared_of_known (known_defaultOptions n) rfl rfl rfl

theorem leaves_darkTheme :
    Op.Leaves quietConfig 1 watchTitle panelWatched.forest (.mixin darkTheme) where
  known := known_darkTheme _
  edits es h := by cases h
  replaces o h := by cases h
  watchers key w hw ev hev n size hn hs := by
    cases hw
    cases ev with
    | revised c r =>
      obtain ⟨-, rfl⟩ := hev
      exact fun _ => spared_of_known (known_darkTheme n) rfl rfl rfl
    | made s d => cases hev
    | founded o => cases hev
    | _ => trivial
  name h := h

theorem late_edit_survives_watched :
    (watchTitle.In (panelWatched.forest.get 1).options.value ∧
      watchTitle.Moved (panelWatched.forest.get 1).options.value
        (panelWatched.forest.get 1).sealed.value) ∧
      ∃ o f', (Classes.resolve quietConfig 1).exec
          (panelWatched.step quietConfig (.mixin darkTheme)).forest = (.ok o, f') ∧
        watchTitle.In o.value := by
  have hmade : watchTitle.In (panelWatched.forest.get 1).options.value ∧
      watchTitle.Moved (panelWatched.forest.get 1).options.value
        (panelWatched.forest.get 1).sealed.value := by
    refine (late_edit_survives (c := 1) (s := 0) (e := watchTitle) rfl known_panelled
      (by decide +kernel) (by decide)).1 [.on .created ⟨5, []⟩] [] (fun e' he' => ?_)
      (by decide +kernel) fun h => by cases h
    cases List.mem_singleton.mp he'
    exact ⟨fun h => (by cases h), fun h => by cases h⟩
  refine ⟨hmade, ?_⟩
  have hlater := (late_edit_survives (c := 1) (s := 0) (e := watchTitle) rfl known_panelWatched
    (by decide +kernel) (by decide)).2 hmade.1 hmade.2 spares_panelWatched (fun h => h)
    (panelWatched.step quietConfig (.mixin darkTheme)) (.step .refl trivial leaves_darkTheme)
  obtain ⟨o, f', hres⟩ : ∃ o f', (Classes.resolve quietConfig 1).exec
      (panelWatched.step quietConfig (.mixin darkTheme)).forest = (.ok o, f') :=
    Forging.exec_eq_ok (by decide +kernel)
  exact ⟨o, f', hres, hlater.2 o f' hres fun h => h⟩

end Componentry
