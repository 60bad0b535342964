import Componentry.Markup.Printer
import Componentry.Markup.Rules
import Componentry.Proofs.Markup.Drafting
import Mathlib.Data.List.Find

/-!
# Elements that may stand where they are

An author may leave out end tags, so a start tag often closes what is open before it. Whether it
does so depends on the names of the open elements alone. Where it does not, the element is opened
in the current one.

- `nestable`: **an element of the name** may be written in open elements of the names.
- `Builder.Inside`: the state of reading in the body, in open elements of the names.
- `Builder.Inside.inScopeNamed`: what is in scope, told by the names.
- `Builder.Inside.opened`, `Builder.Inside.closed`: one element more, or one less.
-/

namespace Componentry.Markup

/-! ## Names -/

/-- Whether one of the open elements, innermost first, has the name and none before it ends the
scope. -/
def reaches (ends : TagName → Bool) (name : String) (names : List String) : Bool :=
  (names.find? fun n => n == name || ends ⟨.html, n⟩) == some name

/-- Whether the item of a list ends one of the names, which stands in it. -/
def closesItem (items names : List String) : Bool :=
  (names.find? fun n => items.contains n ||
    (specialNames.contains n && !(["address", "div", "p"].contains n))).any items.contains

/-- Elements that are read by rules of their own: those of the page and of its head, of tables,
selections and annotations, those without content or with raw text, and foreign ones. -/
def peculiarNames : List String :=
  ["html", "body", "frameset", "plaintext", "nobr", "applet", "marquee", "object", "table",
    "textarea", "xmp", "iframe", "noembed", "noscript", "select", "optgroup", "option", "rb", "rtc",
    "rp", "rt", "math", "svg", "image"] ++ headNames ++ voidNames ++ misplacedNames

/-- Elements before which a paragraph ends. -/
def endsParagraph (name : String) : Bool :=
  (blockNames ++ headingNames ++ ["pre", "listing", "form", "li", "dd", "dt"]).contains name

/-- Elements that are reopened if they are closed too early. -/
def isReopened (name : String) : Bool := ("a" :: formattingNames).contains name

/-- Elements after whose start tag a line end is dropped. -/
def dropsNewline (name : String) : Bool := ["pre", "listing"].contains name

/-- **Whether an element may be written** in open elements of the names, innermost first: none of
them is closed by it, and it is read by the rules for common elements. -/
def nestable (names : List String) (name : String) : Bool :=
  !peculiarNames.contains name &&
    !(endsParagraph name && reaches TagName.endsButtonScope "p" names) &&
    !(headingNames.contains name && names.head?.any headingNames.contains) &&
    !(name == "li" && closesItem ["li"] names) &&
    !(["dd", "dt"].contains name && closesItem ["dd", "dt"] names) &&
    !(["a", "form"].contains name && names.contains name) &&
    !(name == "button" && reaches TagName.endsScope "button" names)

theorem nestable_iff {names : List String} {name : String} :
    nestable names name = true ↔ peculiarNames.contains name = false ∧
      (endsParagraph name = true → reaches TagName.endsButtonScope "p" names = false) ∧
      (headingNames.contains name = true → names.head?.any headingNames.contains = false) ∧
      (name = "li" → closesItem ["li"] names = false) ∧
      (["dd", "dt"].contains name = true → closesItem ["dd", "dt"] names = false) ∧
      (["a", "form"].contains name = true → name ∉ names) ∧
      (name = "button" → reaches TagName.endsScope "button" names = false) := by
  have hmem : names.contains name = false ↔ name ∉ names := by
    rw [Bool.eq_false_iff, Ne, List.contains_iff_mem]
  simp only [nestable, Bool.and_eq_true, Bool.not_eq_true', Bool.and_eq_false_imp, beq_iff_eq,
    and_assoc, hmem]

/-- A name that is none of a list is none of a part of it. -/
theorem contains_eq_false {l l' : List String} {name : String} (hl : ∀ n ∈ l, n ∈ l')
    (h : l'.contains name = false) : l.contains name = false := by
  refine Bool.eq_false_iff.mpr fun hcontains => ?_
  rw [List.contains_iff_mem.mpr (hl name (List.contains_iff_mem.mp hcontains))] at h
  cases h

theorem ne_of_contains_eq_false {l : List String} {n name : String} (hn : n ∈ l)
    (h : l.contains name = false) : name ≠ n := by
  rintro rfl
  rw [List.contains_iff_mem.mpr hn] at h
  cases h

namespace Builder

/-! ## The state in the body -/

/-- The formatting elements to reopen, if all of them are still open. -/
def Listed (d : Draft) (openElements : List Nat) (formatting : List (Option Formatting)) : Prop :=
  ∃ fs : List Formatting, formatting = fs.map some ∧
    (fs.map Formatting.node).Sublist openElements ∧
    ∀ f ∈ fs, d.tag? f.node = some ⟨.html, f.tag.name⟩ ∧ isReopened f.tag.name = true

/-- **Reading in the body**, in open elements of the names, innermost first. -/
structure Inside (b : Builder) (names : List String) : Prop where
  mode : b.mode = .inBody
  model : b.model = .markup
  fostering : b.fostering = false
  templateModes : b.templateModes = []
  named : b.openElements.map b.draft.tag? = names.map fun n => some ⟨.html, n⟩
  contents : ∀ i ∈ b.openElements, b.draft.contents? i = none
  distinct : b.openElements.Nodup
  inner : names ≠ []
  noTemplate : "template" ∉ names
  form : b.form = b.openElements.find? (b.isNamed · "form")
  formatting : Listed b.draft b.openElements b.formatting

variable {b : Builder} {name : String} {names : List String} {i : Nat}

theorem tag_of_tag? {t : TagName} (h : b.draft.tag? i = some t) : b.tag i = t := by
  rw [tag, h]
  rfl

theorem lt_size_of_tag? {t : TagName} (h : b.draft.tag? i = some t) : i < b.draft.size := by
  refine Nat.lt_of_not_le fun hge => ?_
  rw [Draft.tag?, Draft.node, Array.getD_eq_getD_getElem?, Array.getElem?_eq_none hge] at h
  cases h

namespace Inside

/-- The current element, and those around it. -/
theorem cons (h : b.Inside (name :: names)) :
    ∃ outer, b.openElements = b.current :: outer ∧ b.draft.tag? b.current = some ⟨.html, name⟩ ∧
      outer.map b.draft.tag? = names.map fun n => some ⟨.html, n⟩ := by
  have hnamed := h.named
  cases hopen : b.openElements with
  | nil =>
    rw [hopen] at hnamed
    cases hnamed
  | cons i outer =>
    rw [hopen, List.map_cons, List.map_cons] at hnamed
    obtain ⟨hi, houter⟩ := List.cons.inj hnamed
    rw [current, hopen]
    exact ⟨outer, rfl, hi, houter⟩

theorem exists_current (h : b.Inside names) :
    ∃ name outer, b.openElements = b.current :: outer ∧
      b.draft.tag? b.current = some ⟨.html, name⟩ := by
  obtain ⟨name, names, rfl⟩ := List.exists_cons_of_ne_nil h.inner
  obtain ⟨outer, hopen, hname, -⟩ := h.cons
  exact ⟨name, outer, hopen, hname⟩

theorem current_mem (h : b.Inside names) : b.current ∈ b.openElements := by
  obtain ⟨_, outer, hopen, -⟩ := h.exists_current
  rw [hopen]
  exact List.mem_cons_self

theorem tag?_of_mem (h : b.Inside names) (hi : i ∈ b.openElements) :
    ∃ n ∈ names, b.draft.tag? i = some ⟨.html, n⟩ := by
  have hmem := List.mem_map_of_mem (f := b.draft.tag?) hi
  rw [h.named] at hmem
  obtain ⟨n, hn, heq⟩ := List.mem_map.mp hmem
  exact ⟨n, hn, heq.symm⟩

theorem lt_size (h : b.Inside names) (hi : i ∈ b.openElements) : i < b.draft.size := by
  obtain ⟨n, -, htag⟩ := h.tag?_of_mem hi
  exact lt_size_of_tag? htag

theorem current_lt (h : b.Inside names) : b.current < b.draft.size := h.lt_size h.current_mem

/-- What is asked of the open elements is told by their names. -/
theorem find? (h : b.Inside names) (p : TagName → Bool) :
    (b.openElements.find? fun i => p (b.tag i)).map b.tag =
      (names.find? fun n => p ⟨.html, n⟩).map (TagName.mk .html) := by
  have htags : b.openElements.map b.tag = names.map (TagName.mk .html) := by
    have hmap := congrArg (List.map fun t => t.getD ⟨.html, ""⟩) h.named
    rw [List.map_map, List.map_map] at hmap
    exact hmap
  have hfind := congrArg (List.find? p) htags
  rw [List.find?_map, List.find?_map] at hfind
  exact hfind

theorem inScope (h : b.Inside names) (ends p : TagName → Bool) :
    b.inScope ends (fun i => p (b.tag i)) =
      (names.find? fun n => p ⟨.html, n⟩ || ends ⟨.html, n⟩).any fun n => p ⟨.html, n⟩ := by
  have hfind := h.find? fun t => p t || ends t
  rw [Builder.inScope]
  cases hb : b.openElements.find? fun i => p (b.tag i) || ends (b.tag i) with
  | none =>
    rw [hb] at hfind
    cases hn : names.find? fun n => p ⟨.html, n⟩ || ends ⟨.html, n⟩ with
    | none => rfl
    | some n =>
      rw [hn] at hfind
      cases hfind
  | some i =>
    rw [hb] at hfind
    cases hn : names.find? fun n => p ⟨.html, n⟩ || ends ⟨.html, n⟩ with
    | none =>
      rw [hn] at hfind
      cases hfind
    | some n =>
      rw [hn] at hfind
      exact congrArg p (Option.some.inj hfind)

/-- **What is in scope** is told by the names. -/
theorem inScopeNamed (h : b.Inside names) (ends : TagName → Bool) (name : String) :
    b.inScopeNamed ends name = Markup.reaches ends name names := by
  have hnamed : ∀ n : String, ((⟨.html, n⟩ : TagName) == ⟨.html, name⟩) = (n == name) := by
    intro n
    rw [Bool.eq_iff_iff, beq_iff_eq, beq_iff_eq, TagName.mk.injEq, eq_self, true_and]
  rw [Builder.inScopeNamed, Markup.reaches]
  refine (h.inScope ends (· == ⟨.html, name⟩)).trans ?_
  simp only [hnamed]
  cases names.find? fun n => n == name || ends ⟨.html, n⟩ with
  | none => rfl
  | some n => rw [Option.any_some, Option.some_beq_some]

theorem hasOpen (h : b.Inside names) (name : String) : b.hasOpen name = names.contains name := by
  rw [Builder.hasOpen, Bool.eq_iff_iff, List.any_eq_true, List.contains_iff_mem]
  constructor
  · rintro ⟨i, hi, hname⟩
    obtain ⟨n, hn, htag⟩ := h.tag?_of_mem hi
    rw [isNamed, tag_of_tag? htag, beq_iff_eq] at hname
    cases hname
    exact hn
  · intro hn
    have hmem : some (TagName.mk .html name) ∈ b.openElements.map b.draft.tag? := by
      rw [h.named]
      exact List.mem_map_of_mem hn
    obtain ⟨i, hi, htag⟩ := List.mem_map.mp hmem
    exact ⟨i, hi, by rw [isNamed, tag_of_tag? htag, beq_self_eq_true]⟩

theorem hasOpen_template (h : b.Inside names) : b.hasOpen "template" = false := by
  rw [h.hasOpen]
  exact Bool.eq_false_iff.mpr fun hcontains => h.noTemplate (List.contains_iff_mem.mp hcontains)

/-- Content goes into the current element. -/
theorem placeIn (h : b.Inside names) : b.placeIn b.current = .lastChild b.current := by
  rw [Builder.placeIn, h.fostering]
  exact congrArg (fun c => Place.lastChild (Option.getD c b.current)) (h.contents _ h.current_mem)

/-! ## One element more -/

/-- What is not changed by a new node. -/
theorem tag?_put {kind : DraftKind} (h : b.Inside names) (hi : i ∈ b.openElements) :
    (b.draft.put b.current kind).tag? i = b.draft.tag? i ∧
      (b.draft.put b.current kind).contents? i = b.draft.contents? i := by
  have hkind : ((b.draft.put b.current kind).node i).kind = (b.draft.node i).kind := by
    rw [Draft.node_put h.current_lt, if_neg (Nat.ne_of_lt (h.lt_size hi))]
    split
    · rename_i heq
      rw [heq]
    · rfl
  rw [Draft.tag?, Draft.contents?, hkind]
  exact ⟨rfl, rfl⟩

end Inside

/-- A new element in the current one, itself open. -/
def opened (b : Builder) (name : String) (attrs : List (String × String)) : Builder :=
  { b with
    draft := b.draft.put b.current (.element ⟨.html, name⟩ (plainAttrs attrs) none)
    openElements := b.draft.size :: b.openElements }

theorem tag?_opened_size (h : b.Inside names) (attrs : List (String × String)) :
    (b.opened name attrs).draft.tag? b.draft.size = some ⟨.html, name⟩ := by
  rw [opened, Draft.tag?, Draft.node_put h.current_lt, if_pos rfl]

/-- The formatting elements to reopen after an element was opened: as before, or with the element,
and perhaps without some of the old ones. -/
def Enlisted (b : Builder) (name : String) (attrs : List (String × String))
    (formatting : List (Option Formatting)) : Prop :=
  formatting = b.formatting ∨ isReopened name = true ∧ ∃ closes earlier,
    formatting = some ⟨b.draft.size, ⟨name, attrs, closes⟩⟩ :: earlier ∧
      earlier.Sublist b.formatting

theorem Listed.sublist {d : Draft} {openElements : List Nat}
    {formatting earlier : List (Option Formatting)} (h : Listed d openElements formatting)
    (hsub : earlier.Sublist formatting) : Listed d openElements earlier := by
  obtain ⟨fs, rfl, hnodes, htags⟩ := h
  obtain ⟨fs', hfs', rfl⟩ := List.sublist_map_iff.mp hsub
  exact ⟨fs', rfl, (hfs'.map _).trans hnodes, fun f hf => htags f (hfs'.subset hf)⟩

/-- The element that is the form, when one more is open. -/
def formOpened (b : Builder) (name : String) : Option Nat :=
  if name = "form" then some b.draft.size else b.form

namespace Inside

/-- Entries of elements that are open stay right. -/
theorem listed_opened {formatting : List (Option Formatting)} (h : b.Inside names) (name : String)
    (attrs : List (String × String)) (hlisted : Listed b.draft b.openElements formatting) :
    Listed (b.opened name attrs).draft b.openElements formatting := by
  obtain ⟨fs, hfs, hnodes, htags⟩ := hlisted
  refine ⟨fs, hfs, hnodes, fun f hf => ⟨?_, (htags f hf).2⟩⟩
  exact (h.tag?_put (hnodes.subset (List.mem_map_of_mem hf))).1.trans (htags f hf).1

/-- **One element more** is open. -/
theorem opened {attrs : List (String × String)} {framesetOk skipNewline : Bool}
    {formatting : List (Option Formatting)} (h : b.Inside names) (hname : name ≠ "template")
    (hformatting : b.Enlisted name attrs formatting) :
    Inside { b.opened name attrs with
      framesetOk, skipNewline, formatting, form := b.formOpened name } (name :: names) where
  mode := h.mode
  model := h.model
  fostering := h.fostering
  templateModes := h.templateModes
  named := by
    have houter : b.openElements.map (b.opened name attrs).draft.tag? =
        names.map fun n => some ⟨.html, n⟩ :=
      (List.map_congr_left fun i hi => (h.tag?_put hi).1).trans h.named
    show (b.draft.size :: b.openElements).map (b.opened name attrs).draft.tag? = _
    rw [List.map_cons, List.map_cons, tag?_opened_size h, houter]
  contents i hi := by
    rcases List.mem_cons.mp hi with rfl | hi
    · show Draft.contents? (b.draft.put b.current _) b.draft.size = none
      rw [Draft.contents?, Draft.node_put h.current_lt, if_pos rfl]
    · exact (h.tag?_put hi).2.trans (h.contents i hi)
  distinct := List.nodup_cons.mpr ⟨fun hmem => Nat.lt_irrefl _ (h.lt_size hmem), h.distinct⟩
  inner := nofun
  noTemplate hmem := by
    rcases List.mem_cons.mp hmem with heq | hmem
    · exact hname heq.symm
    · exact h.noTemplate hmem
  form := by
    have hnew : (b.opened name attrs).tag b.draft.size = ⟨.html, name⟩ :=
      tag_of_tag? (tag?_opened_size h attrs)
    have hold : ∀ i ∈ b.openElements, (b.opened name attrs).isNamed i "form" =
        b.isNamed i "form" := fun i hi => by
      rw [isNamed, isNamed, tag, tag]
      exact congrArg (fun t => Option.getD t _ == _) (h.tag?_put hi).1
    show b.formOpened name =
      (b.draft.size :: b.openElements).find? ((b.opened name attrs).isNamed · "form")
    rw [formOpened, List.find?_cons, isNamed, hnew]
    by_cases hform : name = "form"
    · rw [if_pos hform, hform, beq_self_eq_true]
    · have hne : ((⟨.html, name⟩ : TagName) == ⟨.html, "form"⟩) = false :=
        beq_false_of_ne fun heq => hform (TagName.mk.inj heq).2
      rw [if_neg hform, hne, h.form]
      exact (List.find?_congr fun i hi => (hold i hi).symm)
  formatting := by
    rcases hformatting with rfl | ⟨hreopened, closes, earlier, rfl, hsub⟩
    · obtain ⟨fs, hfs, hnodes, htags⟩ := h.listed_opened name attrs h.formatting
      exact ⟨fs, hfs, hnodes.cons _, htags⟩
    · obtain ⟨fs, rfl, hnodes, htags⟩ :=
        h.listed_opened name attrs (h.formatting.sublist hsub)
      refine ⟨⟨b.draft.size, ⟨name, attrs, closes⟩⟩ :: fs, rfl, hnodes.cons_cons _, ?_⟩
      exact List.forall_mem_cons.mpr ⟨⟨tag?_opened_size h attrs, hreopened⟩, htags⟩

end Inside

/-! ## One element less -/

/-- The element that is the form, when the current one is closed. -/
def formClosed (b : Builder) (name : String) : Option Nat := if name = "form" then none else b.form

namespace Inside

/-- The current element is not to be reopened, or it is the latest that is. -/
theorem formatting_cases (h : b.Inside (name :: names)) :
    b.isFormatting b.current = false ∧ Listed b.draft b.openElements.tail b.formatting ∨
      ∃ f earlier, b.formatting = some f :: earlier ∧ f.node = b.current ∧ f.tag.name = name ∧
        isReopened name = true ∧ Listed b.draft b.openElements.tail earlier := by
  obtain ⟨outer, hopen, hname, -⟩ := h.cons
  have hdistinct := h.distinct
  obtain ⟨fs, hfs, hnodes, htags⟩ := h.formatting
  rw [hopen, List.nodup_cons] at hdistinct
  rw [hopen] at hnodes
  rw [hopen, List.tail_cons]
  rcases List.sublist_cons_iff.mp hnodes with hnodes | ⟨nodes, hcons, hnodes⟩
  · refine .inl ⟨?_, fs, hfs, hnodes, htags⟩
    rw [isFormatting, hfs, List.any_map, List.any_eq_false]
    intro f hf heq
    exact hdistinct.1 (beq_iff_eq.mp heq ▸ hnodes.subset (List.mem_map_of_mem hf))
  · cases fs with
    | nil => cases hcons
    | cons f fs =>
      obtain ⟨hnode, rfl⟩ := List.cons.inj hcons
      obtain ⟨⟨htag, hreopened⟩, htags⟩ := List.forall_mem_cons.mp htags
      rw [hnode, hname] at htag
      cases htag
      exact .inr ⟨f, fs.map some, hfs, hnode, rfl, hreopened, fs, rfl, hnodes, htags⟩

/-- **One element less** is open. -/
theorem closed {skipNewline : Bool} {formatting : List (Option Formatting)}
    (h : b.Inside (name :: names)) (hinner : names ≠ []) (hform : name = "form" → "form" ∉ names)
    (hformatting : Listed b.draft b.openElements.tail formatting) :
    Inside { b with
      openElements := b.openElements.tail, skipNewline, formatting, form := b.formClosed name }
      names := by
  obtain ⟨outer, hopen, hname, hnamed⟩ := h.cons
  have hcontents := h.contents
  have hdistinct := h.distinct
  have hfind := h.form
  rw [hopen, List.tail_cons] at hformatting ⊢
  rw [hopen] at hcontents hdistinct hfind
  refine
    { mode := h.mode, model := h.model, fostering := h.fostering, templateModes := h.templateModes
      named := hnamed
      contents := fun i hi => hcontents i (List.mem_cons_of_mem _ hi)
      distinct := (List.nodup_cons.mp hdistinct).2
      inner := hinner
      noTemplate := fun hmem => h.noTemplate (List.mem_cons_of_mem _ hmem)
      form := ?_
      formatting := hformatting }
  show b.formClosed name = outer.find? (b.isNamed · "form")
  rw [formClosed]
  split
  · -- there is no other form
    rename_i heq
    refine (List.find?_eq_none.mpr fun i hi hi' => hform heq ?_).symm
    have hmem := List.mem_map_of_mem (f := b.draft.tag?) hi
    rw [hnamed] at hmem
    obtain ⟨n, hn, htag⟩ := List.mem_map.mp hmem
    rw [isNamed, tag_of_tag? htag.symm, beq_iff_eq] at hi'
    cases hi'
    exact hn
  · rename_i hne
    rw [hfind, List.find?_cons, isNamed, tag_of_tag? hname,
      beq_false_of_ne fun heq => hne (TagName.mk.inj heq).2]

end Inside

namespace Inside

/-- Some formatting elements may be forgotten. -/
theorem forgetting {earlier : List (Option Formatting)} (h : b.Inside names)
    (hsub : earlier.Sublist b.formatting) : Inside { b with formatting := earlier } names :=
  { h with formatting := h.formatting.sublist hsub }

/-- What does not say where the reading is. -/
theorem flags (h : b.Inside names) (framesetOk skipNewline : Bool) :
    Inside { b with framesetOk, skipNewline } names := { h with }

end Inside

/-! ## Reopening -/

/-- **Nothing is reopened** as long as all of it is open. -/
theorem reconstructFormatting_run (h : b.Inside names) :
    reconstructFormatting.run b = ((), b) := by
  obtain ⟨fs, hfs, hnodes, -⟩ := h.formatting
  cases fs with
  | nil =>
    simp only [reconstructFormatting, StateT.run_bind, StateT.run_get, pure_bind, hfs]
    rfl
  | cons f fs =>
    have hmem : b.openElements.contains f.node = true :=
      List.contains_iff_mem.mpr (hnodes.subset List.mem_cons_self)
    simp only [reconstructFormatting, StateT.run_bind, StateT.run_get, pure_bind, hfs,
      List.map_cons, List.takeWhile_cons, hmem]
    rfl

end Builder

end Componentry.Markup
