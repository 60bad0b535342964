import Componentry.Markup.Document
import Componentry.Proofs.Markup.EndTags

/-!
# Tokens in the body

What one token does to the state while the body is read: a start tag opens an element, the end tag
behind its content closes it, and text goes to the end of the current element.

- `Builder.Inside.feed_startTag`, `Builder.Inside.feed_endTag`, `Builder.Inside.feed_text`: **one
  token**, by its kind.
- `Builder.Inside.feed_eof`: the end of the input changes nothing.
-/

namespace Componentry.Markup

namespace Draft

variable {d : Draft} {p i j : Nat} {s : String}

/-- Adding to a text leaves the elements as they are. -/
theorem kind_extended {d' : Draft} (h : d.extendText? i s = some d') (j : Nat) :
    d'.tag? j = d.tag? j ∧ d'.contents? j = d.contents? j := by
  rw [extendText?_eq] at h
  cases hkind : (d.node i).kind with
  | text t =>
    rw [hkind] at h
    cases h
    by_cases hi : i < d.size
    · rw [tag?, tag?, contents?, contents?, node_update hi]
      by_cases hji : j = i
      · subst hji
        rw [if_pos rfl, hkind]
        exact ⟨rfl, rfl⟩
      · rw [if_neg hji]
        exact ⟨rfl, rfl⟩
    · rw [node, Array.getD_eq_getD_getElem?, Array.getElem?_eq_none (Nat.not_lt.mp hi)] at hkind
      cases hkind
  | _ =>
    rw [hkind] at h
    cases h

/-- **Text leaves the elements** as they are. -/
theorem kind_appendText (hp : p < d.size) (hj : j < d.size) :
    (d.appendText p s).tag? j = d.tag? j ∧ (d.appendText p s).contents? j = d.contents? j := by
  rw [appendText]
  cases hmore : (d.node p).children.getLast?.bind fun i => d.extendText? i s with
  | some d' =>
    obtain ⟨i, -, hext⟩ := Option.bind_eq_some_iff.mp hmore
    exact kind_extended hext j
  | none => exact ⟨(Grown.text hp s).tag?_eq hj, (Grown.text hp s).contents?_eq hj⟩

end Draft

open Builder

variable {b : Builder} {name : String} {names : List String} {attrs : List (String × String)}
  {closes : Bool} {t : Token}

/-- A token that the rules of the body finish. -/
theorem feedUpTo_run {n : Nat} {b' : Builder} (h : b.Inside names)
    (hrule : (inBodyRules t).run b = (.done, b')) : (feedUpTo (n + 1) t).run b = ((), b') := by
  have hforeign : b.isForeign t = false := by
    obtain ⟨name, outer, hopen, htag⟩ := h.exists_current
    have hhtml : b.currentTag.vocabulary = .html := by
      rw [currentTag, tag_of_tag? htag]
    simp only [isForeign, hhtml, beq_self_eq_true, Bool.or_true, if_true]
  rw [feedUpTo, get_then, hforeign]
  show (rules b.mode t >>= _).run b = _
  rw [h.mode]
  show (inBodyRules t >>= _).run b = _
  rw [run_then hrule]
  rfl

theorem feedOne_run {b' : Builder} (h : b.Inside names)
    (hrule : (inBodyRules t).run b = (.done, b')) : (feedOne t).run b = ((), b') := by
  rw [feedOne, get_then, Nat.add_comm]
  exact feedUpTo_run h hrule

namespace Builder.Inside

/-! ## Tags -/

/-- **A start tag** opens an element. -/
theorem feed_startTag (h : b.Inside names) (hname : nestable names name = true)
    (attrs : List (String × String)) (closes : Bool) :
    ∃ b', b.feed (.startTag name attrs closes) = b' ∧ b'.Inside (name :: names) ∧
      b'.draft = b.draft.put b.current (.element ⟨.html, name⟩ (plainAttrs attrs) none) ∧
      b'.openElements = b.draft.size :: b.openElements ∧ b'.misplaced = b.misplaced ∧
      (b'.skipNewline = true → dropsNewline name = true) := by
  have hflags := h.flags b.framesetOk false
  obtain ⟨framesetOk, skipNewline, formatting, hrun, hskip, hlisted⟩ :=
    inBodyStart_run hflags hname (.startTag name attrs closes) attrs closes
  have htemplate := ne_of_contains_eq_false (n := "template") (by decide) (nestable_iff.mp hname).1
  have hfeed : b.feed (.startTag name attrs closes) = ((feedOne (.startTag name attrs closes)).run
      { b with skipNewline := false }).2 := rfl
  rw [feedOne_run (t := .startTag name attrs closes) hflags hrun] at hfeed
  refine ⟨_, hfeed, hflags.opened htemplate hlisted, rfl, rfl, rfl, fun hs => ?_⟩
  exact (hskip hs).resolve_left Bool.false_ne_true

/-- **An end tag** behind the content of its element closes it. -/
theorem feed_endTag (h : b.Inside (name :: names)) (hinner : names ≠ [])
    (hname : nestable names name = true) :
    ∃ b', b.feed (.endTag name) = b' ∧ b'.Inside names ∧ b'.draft = b.draft ∧
      b'.openElements = b.openElements.tail ∧ b'.misplaced = b.misplaced ∧
      b'.skipNewline = false := by
  have hflags := h.flags b.framesetOk false
  obtain ⟨formatting, hrun, hlisted⟩ :=
    inBodyEnd_run (t := .endTag name) hflags (nestable_iff.mp hname).1
  have hform : name = "form" → "form" ∉ names := by
    rintro rfl
    exact (nestable_iff.mp hname).2.2.2.2.2.1 rfl
  have hfeed : b.feed (.endTag name) =
      ((feedOne (.endTag name)).run { b with skipNewline := false }).2 := rfl
  rw [feedOne_run (t := .endTag name) hflags hrun] at hfeed
  exact ⟨_, hfeed, hflags.closed hinner hform hlisted, rfl, rfl, rfl, rfl⟩

/-! ## Text -/

/-- Text in the current element changes nothing but the draft. -/
theorem texted (h : b.Inside names) (s : String) (framesetOk : Bool) :
    Inside { b with draft := b.draft.appendText b.current s, framesetOk } names := by
  have hsame : ∀ i ∈ b.openElements,
      (b.draft.appendText b.current s).tag? i = b.draft.tag? i ∧
        (b.draft.appendText b.current s).contents? i = b.draft.contents? i := fun i hi =>
    Draft.kind_appendText h.current_lt (h.lt_size hi)
  refine
    { mode := h.mode, model := h.model, fostering := h.fostering, templateModes := h.templateModes
      named := (List.map_congr_left fun i hi => (hsame i hi).1).trans h.named
      contents := fun i hi => (hsame i hi).2.trans (h.contents i hi)
      distinct := h.distinct
      inner := h.inner
      noTemplate := h.noTemplate
      form := h.form.trans (List.find?_congr fun i hi => ?_)
      formatting := ?_ }
  · rw [isNamed, isNamed, tag, tag]
    exact congrArg (fun t => Option.getD t _ == _) (hsame i hi).1.symm
  · obtain ⟨fs, hfs, hnodes, htags⟩ := h.formatting
    refine ⟨fs, hfs, hnodes, fun f hf => ⟨?_, (htags f hf).2⟩⟩
    exact (hsame _ (hnodes.subset (List.mem_map_of_mem hf))).1.trans (htags f hf).1

theorem insertText_run (h : b.Inside names) (run : List Char) :
    (insertText run).run b =
      ((), { b with draft := b.draft.appendText b.current (String.ofList run) }) := by
  have hplace := h.placeIn
  exact congrArg (fun p : Place =>
    ((), { b with draft := p.insertText (String.ofList run) b.draft })) hplace

theorem text_run (h : b.Inside names) (run : List Char) :
    ∃ framesetOk, (inBodyRules (.text run)).run b = (.done, { b with
      draft := b.draft.appendText b.current (String.ofList run), framesetOk }) := by
  rw [inBodyRules, run_then (reconstructFormatting_run h)]
  cases hspace : isSpaceRun run with
  | true =>
    refine ⟨b.framesetOk, ?_⟩
    show (insertText run >>= _).run b = _
    rw [run_then (h.insertText_run run)]
    rfl
  | false =>
    refine ⟨false, ?_⟩
    have hclear : clearFramesetOk.run b = ((), { b with framesetOk := false }) := rfl
    show (clearFramesetOk >>= _).run b = _
    rw [run_then hclear, run_then ((h.flags false b.skipNewline).insertText_run run)]
    rfl

/-- **A run of text** goes to the end of the current element. -/
theorem feed_text {run : List Char} (h : b.Inside names) (hrun : run ≠ [])
    (hskip : b.skipNewline = true → run.head? ≠ some '\n') :
    ∃ b', b.feed (.text run) = b' ∧ b'.Inside names ∧
      b'.draft = b.draft.appendText b.current (String.ofList run) ∧
      b'.openElements = b.openElements ∧ b'.misplaced = b.misplaced ∧ b'.skipNewline = false := by
  have hflags := h.flags b.framesetOk false
  obtain ⟨framesetOk, hrule⟩ := hflags.text_run run
  have hkeep : (if b.skipNewline && run.head? == some '\n' then run.drop 1 else run) = run := by
    refine if_neg fun hboth => ?_
    rw [Bool.and_eq_true, beq_iff_eq] at hboth
    exact hskip hboth.1 hboth.2
  have hfeed : b.feed (.text run) = ((feedText run.length run).run
      { b with skipNewline := false }).2 := by
    rw [feed, hkeep]
  obtain ⟨c, cs, rfl⟩ := List.exists_cons_of_ne_nil hrun
  have hone : (feedText (c :: cs).length (c :: cs)).run { b with skipNewline := false } =
      (feedOne (.text (c :: cs))).run { b with skipNewline := false } := by
    rw [List.length_cons, feedText, get_then, h.mode]
    rfl
  rw [hone, feedOne_run (t := .text (c :: cs)) hflags hrule] at hfeed
  exact ⟨_, hfeed, hflags.texted _ framesetOk, rfl, rfl, rfl, rfl⟩

/-- **The end** of the input changes nothing. -/
theorem feed_eof (h : b.Inside names) : b.feed .eof = { b with skipNewline := false } := by
  have hflags := h.flags b.framesetOk false
  have hrule : (inBodyRules .eof).run { b with skipNewline := false } =
      (.done, { b with skipNewline := false }) := by
    rw [inBodyRules, get_then, h.templateModes]
    rfl
  exact congrArg Prod.snd (feedOne_run hflags hrule)

end Builder.Inside

end Componentry.Markup
