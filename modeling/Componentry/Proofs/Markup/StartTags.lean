import Componentry.Proofs.Markup.Nesting

/-!
# Start tags in the body

Where an element may stand, its start tag opens it in the current element, and leaves everything
else as it is. The rules differ in what else they look at, so each kind of element has its own case.

- `insertElement_run`: the common step of all of them.
- `inBodyStart_run`: **an element is opened** by its start tag.
-/

namespace Componentry.Markup

open Builder

variable {b : Builder} {name : String} {names : List String} {attrs : List (String × String)}
  {closes : Bool} {t : Token}

/-- A step, and what follows it. -/
theorem run_then {α β : Type} {m : Build α} {f : α → Build β} {a : α} {b b' : Builder}
    (h : m.run b = (a, b')) : (m >>= f).run b = (f a).run b' := by
  rw [StateT.run_bind, h]
  rfl

/-- A look at the state, and what follows it. -/
theorem get_then {β : Type} {f : Builder → Build β} : (get >>= f).run b = (f b).run b := rfl

/-! ## A new element -/

/-- A node that has no place yet makes no difference to where content goes. -/
theorem placeIn_added (h : b.Inside names) (kind : DraftKind) :
    ({ b with draft := (b.draft.add kind).1 } : Builder).placeIn b.current =
      .lastChild b.current := by
  have hcontents : Draft.contents? (b.draft.push ⟨kind, none, []⟩) b.current = none := by
    rw [Draft.contents?, Draft.node_push, if_neg (Nat.ne_of_lt h.current_lt)]
    exact h.contents _ h.current_mem
  rw [Builder.placeIn, h.fostering]
  exact congrArg (fun c => Place.lastChild (Option.getD c b.current)) hcontents

theorem newElement_run (hname : name ≠ "template") (attrs : List Attribute) :
    (newElement ⟨.html, name⟩ attrs).run b =
      (b.draft.size, { b with draft := (b.draft.add (.element ⟨.html, name⟩ attrs none)).1 }) := by
  have hne : ((⟨.html, name⟩ : TagName) == ⟨.html, "template"⟩) = false :=
    beq_false_of_ne fun heq => hname (TagName.mk.inj heq).2
  simp only [newElement, hne]
  rfl

theorem insertNode_run (h : b.Inside names) (kind : DraftKind) :
    (insertNode b.draft.size).run { b with draft := (b.draft.add kind).1 } =
      ((), { b with draft := b.draft.put b.current kind }) := by
  have hplace := placeIn_added h kind
  exact congrArg (fun p : Place =>
    ((), { b with draft := p.insert b.draft.size (b.draft.add kind).1 })) hplace

theorem insertElement_run (h : b.Inside names) (hname : name ≠ "template") :
    (insertElement ⟨name, attrs, closes⟩).run b = (b.draft.size, b.opened name attrs) := by
  rw [insertElement, openElement, run_then (newElement_run hname _), run_then (insertNode_run h _)]
  rfl

/-! ## Steps that close nothing here -/

theorem closeParagraphInButtonScope_run (h : b.Inside names)
    (hout : reaches TagName.endsButtonScope "p" names = false) :
    closeParagraphInButtonScope.run b = ((), b) := by
  simp only [closeParagraphInButtonScope, StateT.run_bind, StateT.run_get, pure_bind,
    h.inScopeNamed, hout]
  rfl

theorem closeListItem_run {items : List String} (h : b.Inside names)
    (hout : closesItem items names = false) :
    (closeListItem items).run b = ((), { b with framesetOk := false }) := by
  have hfind := h.find? fun t => t.isOneOf items ||
    (t.isSpecial && !t.isOneOf ["address", "div", "p"])
  have hname : ∀ (n : String) items, TagName.isOneOf ⟨.html, n⟩ items = items.contains n :=
    fun n items => Bool.true_and _
  have hspecial : ∀ n : String, TagName.isSpecial ⟨.html, n⟩ = specialNames.contains n :=
    fun n => hname n specialNames
  simp only [hname, hspecial] at hfind
  rw [closesItem] at hout
  have hcleared : clearFramesetOk.run b = ((), { b with framesetOk := false }) := rfl
  rw [closeListItem, run_then hcleared, get_then]
  dsimp only
  split
  · -- the nearest item is another
    rename_i i hb
    have hfound := (congrArg (Option.map b.tag) hb).symm.trans hfind
    cases hn : names.find? fun n => items.contains n ||
        (specialNames.contains n && !(["address", "div", "p"].contains n)) with
    | none =>
      rw [hn] at hfound
      cases hfound
    | some n =>
      rw [hn] at hfound hout
      have hitem : (b.tag i).isOneOf items = false := by
        rw [Option.some.inj hfound, hname]
        exact hout
      exact congrArg (StateT.run · _) (if_neg (Bool.eq_false_iff.mp hitem))
  · rfl

/-! ## The kinds of elements -/

/-- What a start tag leaves besides the new element. -/
def Starts (b : Builder) (name : String) (attrs : List (String × String))
    (r : Flow × Builder) : Prop :=
  ∃ framesetOk skipNewline formatting,
    r = (.done, { b.opened name attrs with
      framesetOk, skipNewline, formatting, form := b.formOpened name }) ∧
    (skipNewline = true → b.skipNewline = true ∨ dropsNewline name = true) ∧
    b.Enlisted name attrs formatting

/-- Nothing but the element is new, and no frameset may follow. -/
theorem Starts.plain (framesetOk : Bool) {r : Flow × Builder} (hform : name ≠ "form")
    (h : r = (.done, { b.opened name attrs with framesetOk })) : Starts b name attrs r := by
  refine ⟨framesetOk, b.skipNewline, b.formatting, ?_, .inl, .inl rfl⟩
  rw [h, formOpened, if_neg hform]
  rfl

theorem inBodyStart_block (h : blockNames.contains name = true) :
    inBodyStart t ⟨name, attrs, closes⟩ = (do
      closeParagraphInButtonScope
      let _ ← insertElement ⟨name, attrs, closes⟩
      return .done) := by
  have hnot : ∀ n ∈ blockNames, n ≠ "html" ∧ headNames.contains n = false ∧ n ≠ "body" ∧
      n ≠ "frameset" := by decide
  obtain ⟨hhtml, hhead, hbody, hframeset⟩ := hnot name (List.contains_iff_mem.mp h)
  simp only [inBodyStart, h, hhtml, hhead, hbody, hframeset, if_true, if_false,
    Bool.false_eq_true]

theorem inBodyStart_heading (h : headingNames.contains name = true) :
    inBodyStart t ⟨name, attrs, closes⟩ = (do
      closeParagraphInButtonScope
      if (← get).currentIs headingNames then popOpen
      let _ ← insertElement ⟨name, attrs, closes⟩
      return .done) := by
  have hnot : ∀ n ∈ headingNames, n ≠ "html" ∧ headNames.contains n = false ∧ n ≠ "body" ∧
      n ≠ "frameset" ∧ blockNames.contains n = false := by decide
  obtain ⟨hhtml, hhead, hbody, hframeset, hblock⟩ := hnot name (List.contains_iff_mem.mp h)
  simp only [inBodyStart, h, hhtml, hhead, hbody, hframeset, hblock, if_true, if_false,
    Bool.false_eq_true]

theorem inBodyStart_formatting (h : formattingNames.contains name = true) :
    inBodyStart t ⟨name, attrs, closes⟩ = (do
      reconstructFormatting
      insertFormatting ⟨name, attrs, closes⟩
      return .done) := by
  have hmem := List.contains_iff_mem.mp h
  simp only [formattingNames, List.mem_cons, List.not_mem_nil, or_false] at hmem
  rcases hmem with rfl | rfl | rfl | rfl | rfl | rfl | rfl | rfl | rfl | rfl | rfl | rfl <;> rfl

/-- The elements that have rules of their own in the body. -/
def ruledNames : List String :=
  peculiarNames ++ blockNames ++ headingNames ++ formattingNames ++
    ["pre", "listing", "form", "li", "dd", "dt", "button", "a"]

theorem inBodyStart_common (h : ruledNames.contains name = false) :
    inBodyStart t ⟨name, attrs, closes⟩ = (do
      reconstructFormatting
      let _ ← insertElement ⟨name, attrs, closes⟩
      return .done) := by
  have hpeculiar := contains_eq_false (l := peculiarNames) (by decide) h
  have hruled := contains_eq_false
    (l := ["pre", "listing", "form", "li", "dd", "dt", "button", "a", "hr"]) (by decide) h
  simp only [peculiarNames, List.contains_append] at hpeculiar
  simp only [List.contains_cons, List.contains_nil, Bool.or_eq_false_iff, beq_eq_false_iff_ne]
    at hpeculiar hruled
  have hvoid := contains_eq_false
    (l := ["area", "br", "embed", "img", "keygen", "wbr", "input"]) (by decide) h
  have hmedia := contains_eq_false (l := ["param", "source", "track"]) (by decide) h
  simp only [inBodyStart, hpeculiar, hruled, hvoid, hmedia,
    contains_eq_false (l := blockNames) (by decide) h,
    contains_eq_false (l := headingNames) (by decide) h,
    contains_eq_false (l := formattingNames) (by decide) h, if_false, Bool.false_eq_true, or_self]

/-- Opening an element and no more. -/
theorem open_run (h : b.Inside names) (hname : name ≠ "template") :
    (do let _ ← insertElement ⟨name, attrs, closes⟩; return Flow.done : Build Flow).run b =
      (.done, b.opened name attrs) := by
  rw [run_then (insertElement_run h hname)]
  rfl

theorem insertFormatting_run (h : b.Inside names) (hname : name ≠ "template")
    (attrs : List (String × String)) (closes : Bool) :
    ∃ earlier, earlier.Sublist b.formatting ∧
      (insertFormatting ⟨name, attrs, closes⟩).run b =
        ((), { b.opened name attrs with
          formatting := some ⟨b.draft.size, ⟨name, attrs, closes⟩⟩ :: earlier }) := by
  have hopen : ∀ earlier, earlier.Sublist b.formatting →
      (do
        let i ← insertElement ⟨name, attrs, closes⟩
        modify fun b => { b with formatting := some ⟨i, ⟨name, attrs, closes⟩⟩ :: b.formatting } :
          Build Unit).run { b with formatting := earlier } =
        ((), { b.opened name attrs with
          formatting := some ⟨b.draft.size, ⟨name, attrs, closes⟩⟩ :: earlier }) := by
    intro earlier hsub
    rw [run_then (insertElement_run (h.forgetting hsub) hname)]
    rfl
  simp only [insertFormatting, StateT.run_bind, StateT.run_get, pure_bind]
  by_cases hmany : 3 ≤ (b.formattingToMarker.filter fun f =>
      Tag.alike ⟨name, attrs, closes⟩ f.tag).length
  · rw [if_pos hmany]
    split
    · exact ⟨_, List.filter_sublist, hopen _ List.filter_sublist⟩
    · exact ⟨_, List.Sublist.refl _, hopen _ (List.Sublist.refl _)⟩
  · rw [if_neg hmany]
    exact ⟨_, List.Sublist.refl _, hopen _ (List.Sublist.refl _)⟩

/-! ## What each kind leaves -/

theorem Starts.block (h : b.Inside names) (hname : name ≠ "template")
    (hblock : blockNames.contains name = true)
    (hout : reaches TagName.endsButtonScope "p" names = false) :
    Starts b name attrs ((inBodyStart t ⟨name, attrs, closes⟩).run b) := by
  refine .plain b.framesetOk ?_ ?_
  · rintro rfl
    cases hblock
  · rw [inBodyStart_block hblock, run_then (closeParagraphInButtonScope_run h hout)]
    exact open_run h hname

theorem Starts.heading (h : b.Inside names) (hname : name ≠ "template")
    (hheading : headingNames.contains name = true)
    (hout : reaches TagName.endsButtonScope "p" names = false)
    (hcurrent : names.head?.any headingNames.contains = false) :
    Starts b name attrs ((inBodyStart t ⟨name, attrs, closes⟩).run b) := by
  have hnot : b.currentIs headingNames = false := by
    obtain ⟨n, outer, rfl⟩ := List.exists_cons_of_ne_nil h.inner
    obtain ⟨-, -, htag, -⟩ := h.cons
    rw [currentIs, currentTag, tag_of_tag? htag]
    exact hcurrent
  refine .plain b.framesetOk ?_ ?_
  · rintro rfl
    cases hheading
  · rw [inBodyStart_heading hheading, run_then (closeParagraphInButtonScope_run h hout),
      get_then, hnot]
    exact open_run h hname

theorem Starts.preformatted (h : b.Inside names) (hname : name ≠ "template")
    (hpre : dropsNewline name = true)
    (hout : reaches TagName.endsButtonScope "p" names = false) :
    Starts b name attrs ((inBodyStart t ⟨name, attrs, closes⟩).run b) := by
  have hrule : inBodyStart t ⟨name, attrs, closes⟩ = (do
      closeParagraphInButtonScope
      let _ ← insertElement ⟨name, attrs, closes⟩
      modify fun b => { b with skipNewline := true, framesetOk := false }
      return .done) := by
    have hmem := List.contains_iff_mem.mp hpre
    simp only [List.mem_cons, List.not_mem_nil, or_false] at hmem
    rcases hmem with rfl | rfl <;> rfl
  refine ⟨false, true, b.formatting, ?_, fun _ => .inr hpre, .inl rfl⟩
  rw [hrule, run_then (closeParagraphInButtonScope_run h hout),
    run_then (insertElement_run h hname), formOpened, if_neg]
  · rfl
  · rintro rfl
    cases hpre

theorem Starts.form (h : b.Inside names)
    (hout : reaches TagName.endsButtonScope "p" names = false) (hno : "form" ∉ names) :
    Starts b "form" attrs ((inBodyStart t ⟨"form", attrs, closes⟩).run b) := by
  have hnone : b.form = none := by
    rw [h.form, List.find?_eq_none]
    intro i hi heq
    obtain ⟨n, hn, htag⟩ := h.tag?_of_mem hi
    rw [isNamed, tag_of_tag? htag, beq_iff_eq] at heq
    cases heq
    exact hno hn
  have hrule : inBodyStart t ⟨"form", attrs, closes⟩ = (do
      let b ← get
      let inTemplate := b.hasOpen "template"
      if b.form.isNone || inTemplate then
        closeParagraphInButtonScope
        let i ← insertElement ⟨"form", attrs, closes⟩
        if !inTemplate then modify fun b => { b with form := some i }
      return .done) := rfl
  refine ⟨b.framesetOk, b.skipNewline, b.formatting, ?_, .inl, .inl rfl⟩
  rw [hrule, get_then]
  simp only [hnone, h.hasOpen_template, Option.isNone_none, Bool.true_or, Bool.not_false, if_true]
  rw [run_then (closeParagraphInButtonScope_run h hout),
    run_then (insertElement_run h (by decide))]
  rfl

/-- Items of a list, and the terms and descriptions of another kind of list. -/
theorem Starts.item {items : List String} (h : b.Inside names) (hname : name ≠ "template")
    (hform : name ≠ "form")
    (hrule : inBodyStart t ⟨name, attrs, closes⟩ = (do
      closeListItem items
      closeParagraphInButtonScope
      let _ ← insertElement ⟨name, attrs, closes⟩
      return .done))
    (hitem : closesItem items names = false)
    (hout : reaches TagName.endsButtonScope "p" names = false) :
    Starts b name attrs ((inBodyStart t ⟨name, attrs, closes⟩).run b) := by
  have hflags := h.flags false b.skipNewline
  refine .plain false hform ?_
  rw [hrule, run_then (closeListItem_run h hitem),
    run_then (closeParagraphInButtonScope_run hflags hout)]
  exact open_run hflags hname

theorem Starts.button (h : b.Inside names)
    (hout : reaches TagName.endsScope "button" names = false) :
    Starts b "button" attrs ((inBodyStart t ⟨"button", attrs, closes⟩).run b) := by
  have hrule : inBodyStart t ⟨"button", attrs, closes⟩ = (do
      if (← get).inScopeNamed TagName.endsScope "button" then
        impliedEnds impliedEndNames
        popThroughNamed "button"
      reconstructFormatting
      let _ ← insertElement ⟨"button", attrs, closes⟩
      clearFramesetOk
      return .done) := rfl
  refine .plain false (by decide) ?_
  rw [hrule, get_then, h.inScopeNamed, hout]
  show (reconstructFormatting >>= _).run b = _
  rw [run_then (reconstructFormatting_run h), run_then (insertElement_run h (by decide))]
  rfl

/-- Formatting elements, and links where no other link is open. -/
theorem Starts.reopened (h : b.Inside names) (hname : name ≠ "template") (hform : name ≠ "form")
    (hreopened : isReopened name = true) (hlink : name = "a" → "a" ∉ names) :
    Starts b name attrs ((inBodyStart t ⟨name, attrs, closes⟩).run b) := by
  have hrun : (inBodyStart t ⟨name, attrs, closes⟩).run b = (do
      reconstructFormatting
      insertFormatting ⟨name, attrs, closes⟩
      return .done : Build Flow).run b := by
    rcases List.mem_cons.mp (List.contains_iff_mem.mp hreopened) with rfl | hformatting
    · have hnone : (b.formattingToMarker.find? fun f => b.isNamed f.node "a") = none := by
        rw [List.find?_eq_none]
        intro f hf heq
        obtain ⟨fs, hfs, hnodes, htags⟩ := h.formatting
        have hmem : f ∈ fs := by
          obtain ⟨_, hmem, rfl⟩ := List.mem_filterMap.mp hf
          have hmem := (List.takeWhile_sublist _).subset hmem
          rw [hfs] at hmem
          obtain ⟨_, hmem, heq⟩ := List.mem_map.mp hmem
          cases heq
          exact hmem
        obtain ⟨n, hn, htag⟩ := h.tag?_of_mem (hnodes.subset (List.mem_map_of_mem hmem))
        rw [isNamed, tag_of_tag? htag, beq_iff_eq] at heq
        cases heq
        exact hlink rfl hn
      rw [show inBodyStart t ⟨"a", attrs, closes⟩ = (get >>= _) from rfl, get_then, hnone]
    · rw [inBodyStart_formatting (List.contains_iff_mem.mpr hformatting)]
  obtain ⟨earlier, hsub, hinsert⟩ := insertFormatting_run h hname attrs closes
  refine ⟨b.framesetOk, b.skipNewline, _, ?_, .inl, .inr ⟨hreopened, closes, earlier, rfl, hsub⟩⟩
  rw [hrun, run_then (reconstructFormatting_run h), run_then hinsert, formOpened, if_neg hform]
  rfl

theorem Starts.common (h : b.Inside names) (hname : ruledNames.contains name = false) :
    Starts b name attrs ((inBodyStart t ⟨name, attrs, closes⟩).run b) := by
  have hform := ne_of_contains_eq_false (n := "form") (by decide) hname
  have htemplate := ne_of_contains_eq_false (n := "template") (by decide) hname
  refine .plain b.framesetOk hform ?_
  rw [inBodyStart_common hname, run_then (reconstructFormatting_run h)]
  exact open_run h htemplate

/-- **An element is opened** by its start tag, where it may stand. -/
theorem inBodyStart_run (h : b.Inside names) (hname : nestable names name = true) (t : Token)
    (attrs : List (String × String)) (closes : Bool) :
    Starts b name attrs ((inBodyStart t ⟨name, attrs, closes⟩).run b) := by
  obtain ⟨hpeculiar, hparagraph, hheading, hli, hterm, hown, hbutton⟩ := nestable_iff.mp hname
  have htemplate := ne_of_contains_eq_false (n := "template") (by decide) hpeculiar
  have hends : ∀ l : List String, (∀ n ∈ l, endsParagraph n = true) → l.contains name = true →
      reaches TagName.endsButtonScope "p" names = false := fun l hl hmem =>
    hparagraph (hl name (List.contains_iff_mem.mp hmem))
  by_cases hblock : blockNames.contains name = true
  · exact .block h htemplate hblock (hends blockNames (by decide) hblock)
  by_cases hhead : headingNames.contains name = true
  · exact .heading h htemplate hhead (hends headingNames (by decide) hhead) (hheading hhead)
  by_cases hpre : dropsNewline name = true
  · exact .preformatted h htemplate hpre (hends ["pre", "listing"] (by decide) hpre)
  by_cases hform : name = "form"
  · subst hform
    exact .form h (hparagraph rfl) (hown rfl)
  by_cases hitem : name = "li"
  · subst hitem
    exact .item h htemplate hform rfl (hli rfl) (hparagraph rfl)
  by_cases hdd : name = "dd"
  · subst hdd
    exact .item h htemplate hform rfl (hterm rfl) (hparagraph rfl)
  by_cases hdt : name = "dt"
  · subst hdt
    exact .item h htemplate hform rfl (hterm rfl) (hparagraph rfl)
  by_cases hpush : name = "button"
  · subst hpush
    exact .button h (hbutton rfl)
  by_cases hreopened : isReopened name = true
  · refine .reopened h htemplate hform hreopened ?_
    rintro rfl
    exact hown rfl
  -- there are no other elements with rules of their own
  refine .common h ?_
  simp only [isReopened, dropsNewline, List.contains_cons, List.contains_nil, Bool.or_eq_true,
    beq_iff_eq, not_or] at hreopened hpre
  simp only [ruledNames, List.contains_append, List.contains_cons, List.contains_nil,
    Bool.or_eq_false_iff, beq_eq_false_iff_ne]
  exact ⟨⟨⟨⟨hpeculiar, Bool.eq_false_iff.mpr hblock⟩, Bool.eq_false_iff.mpr hhead⟩,
    Bool.eq_false_iff.mpr hreopened.2⟩, hpre.1, hpre.2.1, hform, hitem, hdd, hdt, hpush,
    hreopened.1, trivial⟩

end Componentry.Markup
