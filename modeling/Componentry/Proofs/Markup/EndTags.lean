import Componentry.Proofs.Markup.StartTags

/-!
# End tags in the body

An end tag may close elements between, or be left out of account. Right after the content of its own
element it closes that element and no other.

- `inBodyEnd_run`: **the current element is closed** by its end tag.
-/

namespace Componentry.Markup

open Builder

variable {b : Builder} {name : String} {names outer : List String} {t : Token} {i : Nat}
  {rest : List Nat}

/-! ## Closing the current element -/

section Current

variable {p : TagName → Bool} (hopen : b.openElements = i :: rest)
include hopen

theorem popThrough_run (hp : p (b.tag i) = true) :
    (popThrough p).run b = ((), { b with openElements := b.openElements.tail }) := by
  have hdrop : (b.openElements.dropWhile fun i => !p (b.tag i)).drop 1 = b.openElements.tail := by
    rw [hopen, List.dropWhile_cons, hp]
    rfl
  exact congrArg (fun l => ((), { b with openElements := l })) hdrop

theorem popTo_run (hp : p (b.tag i) = true) : (popTo p).run b = ((), b) := by
  have hdrop : (b.openElements.dropWhile fun i => !p (b.tag i)) = b.openElements := by
    rw [hopen, List.dropWhile_cons, hp]
    rfl
  exact congrArg (fun l => ((), { b with openElements := l })) hdrop

theorem popOpen_run : popOpen.run b = ((), { b with openElements := b.openElements.tail }) := by
  have hdrop : b.openElements.drop 1 = b.openElements.tail := by
    rw [hopen]
    rfl
  exact congrArg (fun l => ((), { b with openElements := l })) hdrop

theorem inScope_current {ends : TagName → Bool} {p : Nat → Bool} (hp : p i = true) :
    b.inScope ends p = true := by
  rw [Builder.inScope, hopen, List.find?_cons, hp]
  exact hp

end Current

/-- No end tag is left out of account, and none is put in. -/
theorem impliedEnds_run {implied : List String} (hopen : b.openElements = i :: rest)
    (htag : b.tag i = ⟨.html, name⟩) (hname : implied.contains name = false) :
    (impliedEnds implied).run b = ((), b) := by
  refine popTo_run hopen ?_
  rw [htag, TagName.isOneOf, hname]
  rfl

theorem popThroughNamed_run (hopen : b.openElements = i :: rest)
    (htag : b.tag i = ⟨.html, name⟩) :
    (popThroughNamed name).run b = ((), { b with openElements := b.openElements.tail }) :=
  popThrough_run hopen (beq_iff_eq.mpr htag)

theorem impliedEndsExcept_run (hopen : b.openElements = i :: rest)
    (htag : b.tag i = ⟨.html, name⟩) : (impliedEndsExcept name).run b = ((), b) := by
  refine impliedEnds_run hopen htag (Bool.eq_false_iff.mpr fun hcontains => ?_)
  have hmem := List.contains_iff_mem.mp hcontains
  have hnodup : impliedEndNames.Nodup := by decide
  exact (hnodup.mem_erase_iff.mp hmem).1 rfl

theorem closeInScope_run (hopen : b.openElements = i :: rest) (htag : b.tag i = ⟨.html, name⟩)
    (hname : impliedEndNames.contains name = false) :
    (closeInScope name).run b = (true, { b with openElements := b.openElements.tail }) := by
  have hscope : b.inScopeNamed TagName.endsScope name = true :=
    inScope_current hopen (beq_iff_eq.mpr htag)
  rw [closeInScope, get_then, hscope]
  show (impliedEnds impliedEndNames >>= _).run b = _
  rw [run_then (impliedEnds_run hopen htag hname), run_then (popThroughNamed_run hopen htag)]
  rfl

/-! ## The kinds of elements -/

/-- What an end tag leaves: one element less is open, and it is not to be reopened. -/
def Ends (b : Builder) (name : String) (r : Flow × Builder) : Prop :=
  ∃ formatting, r = (.done, { b with
      openElements := b.openElements.tail, formatting, form := b.formClosed name }) ∧
    Listed b.draft b.openElements.tail formatting

/-- The element was not one to reopen. -/
theorem Ends.plain {r : Flow × Builder} (h : b.Inside (name :: names)) (hform : name ≠ "form")
    (hreopened : isReopened name = false)
    (hr : r = (.done, { b with openElements := b.openElements.tail })) : Ends b name r := by
  refine ⟨b.formatting, ?_, ?_⟩
  · rw [hr, formClosed, if_neg hform]
  · rcases h.formatting_cases with ⟨-, hlisted⟩ | ⟨_, _, -, -, -, hname, -⟩
    · exact hlisted
    · rw [hreopened] at hname
      cases hname

/-- Where the rule closes elements through the first of the name, if one is in scope. -/
theorem Ends.inScope {m : Build Unit} {ends : TagName → Bool} {p : Nat → Bool}
    (h : b.Inside (name :: names)) (hform : name ≠ "form") (hreopened : isReopened name = false)
    (hrule : inBodyEnd t name = (do
      if (← get).inScope ends p then m
      return .done))
    (hp : p b.current = true)
    (hm : m.run b = ((), { b with openElements := b.openElements.tail })) :
    Ends b name ((inBodyEnd t name).run b) := by
  obtain ⟨outer, hopen, -, -⟩ := h.cons
  refine .plain h hform hreopened ?_
  rw [hrule, get_then, inScope_current hopen hp]
  show (m >>= _).run b = _
  rw [run_then hm]
  rfl

theorem Ends.block (h : b.Inside (name :: names)) (hblock : blockEndNames.contains name = true) :
    Ends b name ((inBodyEnd t name).run b) := by
  have hnot : ∀ n ∈ blockEndNames, n ≠ "template" ∧ n ≠ "body" ∧ n ≠ "html" ∧ n ≠ "form" ∧
      isReopened n = false ∧ impliedEndNames.contains n = false := by decide
  obtain ⟨htemplate, hbody, hhtml, hform, hreopened, himplied⟩ :=
    hnot name (List.contains_iff_mem.mp hblock)
  obtain ⟨outer, hopen, htag, -⟩ := h.cons
  have hrule : inBodyEnd t name = (do
      discard <| closeInScope name
      return .done) := by
    simp only [inBodyEnd, hblock, htemplate, hbody, hhtml, if_true, if_false]
  have hclose := closeInScope_run hopen (tag_of_tag? htag) himplied
  have hdiscard : (discard <| closeInScope name : Build Unit).run b =
      ((), { b with openElements := b.openElements.tail }) :=
    congrArg (fun r : Bool × Builder => ((), r.2)) hclose
  refine .plain h hform hreopened ?_
  rw [hrule, run_then hdiscard]
  rfl

theorem Ends.heading (h : b.Inside (name :: names)) (hheading : headingNames.contains name = true) :
    Ends b name ((inBodyEnd t name).run b) := by
  have hnot : ∀ n ∈ headingNames, n ≠ "template" ∧ n ≠ "body" ∧ n ≠ "html" ∧
      blockEndNames.contains n = false ∧ n ≠ "form" ∧ n ≠ "p" ∧ n ≠ "li" ∧ n ≠ "dd" ∧ n ≠ "dt" ∧
      isReopened n = false ∧ impliedEndNames.contains n = false := by decide
  obtain ⟨htemplate, hbody, hhtml, hblock, hform, hp, hli, hdd, hdt, hreopened, himplied⟩ :=
    hnot name (List.contains_iff_mem.mp hheading)
  obtain ⟨outer, hopen, htag, -⟩ := h.cons
  have htag := tag_of_tag? htag
  have hhere : (b.tag b.current).isOneOf headingNames = true := by
    rw [htag, TagName.isOneOf, hheading]
    rfl
  have hrule : inBodyEnd t name = (do
      let b ← get
      if b.inScope TagName.endsScope fun i => (b.tag i).isOneOf headingNames then
        impliedEnds impliedEndNames
        popThrough (·.isOneOf headingNames)
      return .done) := by
    simp only [inBodyEnd, hheading, htemplate, hbody, hhtml, hblock, hform, hp, hli, hdd, hdt,
      if_true, if_false, Bool.false_eq_true, or_self]
  refine .plain h hform hreopened ?_
  rw [hrule, get_then, inScope_current hopen hhere]
  show (impliedEnds impliedEndNames >>= _).run b = _
  rw [run_then (impliedEnds_run hopen htag himplied), run_then (popThrough_run hopen hhere)]
  rfl

theorem Ends.paragraph (h : b.Inside ("p" :: names)) : Ends b "p" ((inBodyEnd t "p").run b) := by
  obtain ⟨outer, hopen, htag, -⟩ := h.cons
  have htag := tag_of_tag? htag
  have hrule : inBodyEnd t "p" = (do
      if !(← get).inScopeNamed TagName.endsButtonScope "p" then insertImplied "p"
      closeParagraph
      return .done) := rfl
  have hscope : b.inScopeNamed TagName.endsButtonScope "p" = true :=
    inScope_current hopen (beq_iff_eq.mpr htag)
  refine .plain h (by decide) (by decide) ?_
  rw [hrule, get_then, hscope]
  show (closeParagraph >>= _).run b = _
  rw [closeParagraph, bind_assoc, run_then (impliedEndsExcept_run hopen htag),
    run_then (popThroughNamed_run hopen htag)]
  rfl

/-- Items of a list, terms and descriptions. -/
theorem Ends.item {ends : TagName → Bool} (h : b.Inside (name :: names)) (hform : name ≠ "form")
    (hreopened : isReopened name = false)
    (hrule : inBodyEnd t name = (do
      if (← get).inScopeNamed ends name then
        impliedEndsExcept name
        popThroughNamed name
      return .done)) :
    Ends b name ((inBodyEnd t name).run b) := by
  obtain ⟨outer, hopen, htag, -⟩ := h.cons
  have htag := tag_of_tag? htag
  have hscope : b.inScopeNamed ends name = true := inScope_current hopen (beq_iff_eq.mpr htag)
  refine .plain h hform hreopened ?_
  rw [hrule, get_then, hscope]
  show (impliedEndsExcept name >>= _).run b = _
  rw [run_then (impliedEndsExcept_run hopen htag), run_then (popThroughNamed_run hopen htag)]
  rfl

theorem Ends.form (h : b.Inside ("form" :: names)) :
    Ends b "form" ((inBodyEnd t "form").run b) := by
  obtain ⟨outer, hopen, htag, -⟩ := h.cons
  have htag := tag_of_tag? htag
  have hthis : b.form = some b.current := by
    rw [h.form, hopen, List.find?_cons, isNamed, htag, beq_self_eq_true]
  have hscope : b.inScope TagName.endsScope (· == b.current) = true :=
    inScope_current hopen (beq_self_eq_true b.current)
  have herase : b.openElements.erase b.current = b.openElements.tail := by
    rw [hopen, List.erase_cons_head, List.tail_cons]
  have hclose : closeForm.run b =
      ((), { b with openElements := b.openElements.tail, form := none }) := by
    rw [closeForm, get_then, h.hasOpen_template, hthis]
    show (if b.inScope TagName.endsScope (· == b.current) then do
      impliedEnds impliedEndNames
      removeOpen b.current else pure () : Build Unit).run { b with form := none } = _
    rw [hscope, if_pos rfl,
      run_then (impliedEnds_run (b := { b with form := none }) hopen htag (by decide))]
    exact congrArg (fun l => ((), { b with openElements := l, form := none })) herase
  have hlisted : Listed b.draft b.openElements.tail b.formatting := by
    rcases h.formatting_cases with ⟨-, hlisted⟩ | ⟨_, _, -, -, -, hname, -⟩
    · exact hlisted
    · cases hname
  have hrule : inBodyEnd t "form" = (do
      closeForm
      return .done) := rfl
  refine ⟨b.formatting, ?_, hlisted⟩
  rw [hrule, run_then hclose]
  rfl

/-! ## Elements to reopen -/

/-- The end tag of the element that is the latest to reopen. -/
theorem adoptOnce_run {f : Formatting} {earlier : List (Option Formatting)}
    (hopen : b.openElements = f.node :: rest) (hformatting : b.formatting = some f :: earlier) :
    (adoptOnce f.tag.name).run b = (false, { b with
      openElements := b.openElements.tail
      formatting := b.formatting.filter fun g => match g with
        | some g => g.node != f.node
        | none => true }) := by
  have hfind : (b.formattingToMarker.find? (·.tag.name == f.tag.name)) = some f := by
    rw [formattingToMarker, hformatting]
    simp
  have hcontains : b.openElements.contains f.node = true := by
    rw [hopen]
    simp
  have hscope : b.inScope TagName.endsScope (· == f.node) = true :=
    inScope_current hopen (beq_self_eq_true f.node)
  have hinner : b.openElements.takeWhile (· != f.node) = [] := by
    rw [hopen]
    simp
  have hdrop : (b.openElements.dropWhile (· != f.node)).drop 1 = b.openElements.tail := by
    rw [hopen]
    simp
  rw [adoptOnce, get_then, hfind]
  simp only [hcontains, hscope, hinner, List.reverse_nil, List.find?_nil, Bool.not_true,
    Bool.false_eq_true, if_false]
  exact congrArg (fun l => (false, { b with
    openElements := l
    formatting := b.formatting.filter fun g => match g with
      | some g => g.node != f.node
      | none => true })) hdrop

/-- Forgetting the current element leaves the entries of those around it. -/
theorem filter_earlier {d : Draft} {earlier : List (Option Formatting)} (hout : i ∉ rest)
    (h : Listed d rest earlier) :
    (earlier.filter fun g => match g with
      | some g => g.node != i
      | none => true) = earlier := by
  obtain ⟨fs, rfl, hnodes, -⟩ := h
  refine List.filter_eq_self.mpr fun g hg => ?_
  obtain ⟨f, hf, rfl⟩ := List.mem_map.mp hg
  refine bne_iff_ne.mpr fun heq => hout ?_
  exact heq ▸ hnodes.subset (List.mem_map_of_mem hf)

theorem Ends.reopened (h : b.Inside (name :: names)) (hform : name ≠ "form")
    (hreopened : isReopened name = true) : Ends b name ((inBodyEnd t name).run b) := by
  obtain ⟨outer, hopen, htag, -⟩ := h.cons
  have hnamed : b.isNamed b.current name = true := by
    rw [isNamed, tag_of_tag? htag, beq_self_eq_true]
  have hrule : inBodyEnd t name = (do
      adoptionAgency name
      return .done) := by
    have hmem := List.contains_iff_mem.mp hreopened
    simp only [formattingNames, List.mem_cons, List.not_mem_nil, or_false] at hmem
    rcases hmem with
      rfl | rfl | rfl | rfl | rfl | rfl | rfl | rfl | rfl | rfl | rfl | rfl | rfl <;> rfl
  rcases h.formatting_cases with ⟨hnot, hlisted⟩ | ⟨f, earlier, hfs, hnode, rfl, -, hlisted⟩
  · have hagency : (adoptionAgency name).run b =
        ((), { b with openElements := b.openElements.tail }) := by
      rw [adoptionAgency, get_then, hnamed, hnot]
      exact popOpen_run hopen
    refine ⟨b.formatting, ?_, hlisted⟩
    rw [hrule, run_then hagency, formClosed, if_neg hform]
    rfl
  · have hdistinct := h.distinct
    rw [← hnode] at hopen hnamed
    rw [hopen, List.nodup_cons] at hdistinct
    rw [hopen, List.tail_cons] at hlisted
    have hfilter : (b.formatting.filter fun g => match g with
        | some g => g.node != f.node
        | none => true) = earlier := by
      rw [hfs, List.filter_cons_of_neg (by simp), filter_earlier hdistinct.1 hlisted]
    have hagency : (adoptionAgency f.tag.name).run b =
        ((), { b with openElements := b.openElements.tail, formatting := earlier }) := by
      have hformatting : b.isFormatting b.current = true := by
        rw [isFormatting, hfs, ← hnode, List.any_cons]
        simp
      rw [adoptionAgency, get_then, hformatting, ← hnode, hnamed]
      show (adoptOnce f.tag.name >>= _).run b = _
      rw [run_then (adoptOnce_run hopen hfs), hfilter]
      rfl
    refine ⟨earlier, ?_, hopen ▸ hlisted⟩
    rw [hrule, run_then hagency, formClosed, if_neg hform]
    rfl

/-! ## The others -/

theorem closeGeneric_run (h : b.Inside (name :: names)) :
    (closeGeneric name).run b = ((), { b with openElements := b.openElements.tail }) := by
  obtain ⟨outer, hopen, htag, -⟩ := h.cons
  have htag := tag_of_tag? htag
  have hnamed : b.isNamed b.current name = true := by
    rw [isNamed, htag, beq_self_eq_true]
  have hfind : (b.openElements.find? fun i => b.isNamed i name || (b.tag i).isSpecial) =
      some b.current := by
    rw [hopen, List.find?_cons, hnamed]
    rfl
  have hdrop : (b.openElements.dropWhile (· != b.current)).drop 1 = b.openElements.tail := by
    rw [hopen]
    simp
  rw [closeGeneric, get_then, hfind]
  simp only [hnamed, if_true]
  rw [run_then (impliedEndsExcept_run hopen htag)]
  exact congrArg (fun l => ((), { b with openElements := l })) hdrop

theorem Ends.common (h : b.Inside (name :: names)) (hname : ruledNames.contains name = false) :
    Ends b name ((inBodyEnd t name).run b) := by
  have hform := ne_of_contains_eq_false (n := "form") (by decide) hname
  have hreopened := contains_eq_false (l := "a" :: formattingNames) (by decide) hname
  have hruled := contains_eq_false (l := ["template", "body", "html", "form", "p", "li", "dd", "dt",
    "a", "nobr", "applet", "marquee", "object", "br"]) (by decide) hname
  simp only [List.contains_cons, List.contains_nil, Bool.or_eq_false_iff, beq_eq_false_iff_ne]
    at hruled
  have hrule : inBodyEnd t name = (do
      closeGeneric name
      return .done) := by
    simp only [inBodyEnd, hruled, contains_eq_false (l := blockEndNames) (by decide) hname,
      contains_eq_false (l := headingNames) (by decide) hname,
      contains_eq_false (l := formattingNames) (by decide) hname, if_false, Bool.false_eq_true,
      or_self]
  refine .plain h hform hreopened ?_
  rw [hrule, run_then (closeGeneric_run h)]
  rfl

/-- **The current element is closed** by its end tag. -/
theorem inBodyEnd_run (h : b.Inside (name :: names)) (hname : peculiarNames.contains name = false) :
    Ends b name ((inBodyEnd t name).run b) := by
  by_cases hblock : blockEndNames.contains name = true
  · exact .block h hblock
  by_cases hhead : headingNames.contains name = true
  · exact .heading h hhead
  by_cases hp : name = "p"
  · subst hp
    exact .paragraph h
  by_cases hform : name = "form"
  · subst hform
    exact .form h
  by_cases hli : name = "li"
  · subst hli
    exact .item h hform rfl rfl
  by_cases hdd : name = "dd"
  · subst hdd
    exact .item h hform rfl rfl
  by_cases hdt : name = "dt"
  · subst hdt
    exact .item h hform rfl rfl
  by_cases hreopened : isReopened name = true
  · exact .reopened h hform hreopened
  -- there are no other elements with rules of their own
  refine .common h ?_
  have hblockNames : blockNames.contains name = false := by
    have hkinds : ∀ n ∈ blockNames, n = "p" ∨ blockEndNames.contains n = true := by decide
    refine Bool.eq_false_iff.mpr fun hcontains => ?_
    exact (hkinds name (List.contains_iff_mem.mp hcontains)).elim hp hblock
  simp only [blockEndNames, isReopened, List.contains_append, List.contains_cons,
    List.contains_nil, Bool.or_eq_true, beq_iff_eq, not_or] at hreopened hblock
  simp only [ruledNames, List.contains_append, List.contains_cons, List.contains_nil,
    Bool.or_eq_false_iff, beq_eq_false_iff_ne]
  exact ⟨⟨⟨⟨hname, hblockNames⟩, Bool.eq_false_iff.mpr hhead⟩,
    Bool.eq_false_iff.mpr hreopened.2⟩, hblock.2.2.2.1, hblock.2.2.1, hform, hli, hdd, hdt,
    hblock.2.1, hreopened.1, trivial⟩

end Componentry.Markup
