import Componentry.Proofs.Template.SelfClosing

/-!
# Templates as they are made of pieces

To a reader of markup a template is texts, comments, tags and the text of elements like `style`,
one after the other. To the passes over component tags it is characters. They leave the pieces
apart, since all but texts end with a closing bracket, but what looks like a component tag they take
for one wherever it stands: in a value, in a comment, in the text of a script.

- `Piece`: **a piece of a template**, `Piece.fits`: read as what it is.
- `readsAs_written`: tags and comments are the tokens that are read.
- `substitute_pieces`: **a pass sees to each piece by itself**.
- `closed`, `marked`: what is meant to become of a piece.
- `closeTags_piece`, `markTags_piece`: what becomes of it.
- `passes_pieces`: **the passes** do what is meant, so that every value, comment and text is read as
  it is written, if and only if nothing that they find begins elsewhere.
-/

namespace Componentry.Template

open Componentry.Markup
open Componentry.Text (isBlank)

/-! ## Pieces -/

/-- A piece of a template. -/
inductive Piece where
  | text (cs : List Char)
  | comment (cs : List Char)
  /-- A document type, or anything else that starts with a mark and ends at the first bracket. -/
  | declaration (cs : List Char)
  | startTag (t : TagText)
  | endTag (name : List Char)
  /-- The text of an element that has nothing but text, and the end tag of the element. -/
  | rawText (cs name : List Char)

/-- Whether a character that follows an opening bracket makes it more than text. -/
def opensMarkup (c : Char) : Bool := c.isAlpha || c == '/' || c == '!' || c == '?'

/-- Whether no bracket in the text opens anything, with `rest` behind the text. -/
def isPlainText (rest : List Char) : List Char → Bool
  | [] => true
  | c :: cs => !(c == '<' && (cs ++ rest).head?.any opensMarkup) && isPlainText rest cs

namespace Piece

/-- How the piece is written. -/
def written : Piece → List Char
  | text cs => cs
  | comment cs => writtenComment cs
  | declaration cs => '<' :: (cs ++ ['>'])
  | startTag t => t.text
  | endTag name => endTagText name
  | rawText cs name => cs ++ endTagText name

/-- Whether a piece is read as what it is, with `rest` behind it. -/
def fits (rest : List Char) : Piece → Bool
  | text cs => isPlainText rest cs
  | comment cs => isCommentText cs
  | declaration cs => cs.head?.any (fun c => c == '!' || c == '?') && cs.all (· != '>') &&
      !"!--".toList.isPrefixOf cs
  | startTag _ => true
  | endTag name => isTagWord name
  | rawText cs name => isTagWord name &&
      rawTextBefore (lowerName name) (cs ++ endTagText name) == cs

/-- The texts, comments and values that a reader of the piece is given. -/
def data : Piece → List (List Char)
  | text cs => [cs]
  | comment cs => [cs]
  | declaration cs => [cs]
  | startTag t => t.attrs.map (·.value.chars)
  | endTag _ => []
  | rawText cs _ => [cs]

/-- The token of a tag or a comment. -/
def token? : Piece → Option Token
  | comment cs => some (.comment (cs.map mend))
  | startTag t => some t.token
  | endTag name => some (.endTag (lowerName name))
  | _ => none

end Piece

/-- A template, as its pieces are written. -/
def writtenAll (ps : List Piece) : List Char := ps.flatMap Piece.written

/-- Whether each piece is read as what it is. -/
def areFitting : List Piece → Bool
  | [] => true
  | p :: ps => p.fits (writtenAll ps) && areFitting ps

variable {p : Piece} {ps : List Piece} {cs rest : List Char} {m : List Char → Option Stretch}

/-! ## Pieces are read as tokens -/

theorem not_opensMarkup (h : isPlainText rest cs = true) {ds : List Char} (hds : '<' :: ds <:+ cs) :
    ∀ c ∈ (ds ++ rest).head?, opensMarkup c = false := by
  induction cs with
  | nil => exact absurd (List.suffix_nil.mp hds) nofun
  | cons c cs ih =>
    rw [isPlainText, Bool.and_eq_true] at h
    rcases List.suffix_cons_iff.mp hds with heq | hds
    · obtain ⟨rfl, rfl⟩ := List.cons.inj heq
      intro c hc
      have hhead := h.1
      rw [show (ds ++ rest).head? = some c from hc] at hhead
      simpa using hhead
    · exact ih h.2 hds

/-- **A bracket in a text** opens nothing. -/
theorem tagStep?_eq_none (h : isPlainText rest cs = true) {ds : List Char} (hds : '<' :: ds <:+ cs)
    (hne : ds ++ rest ≠ []) : tagStep? false (ds ++ rest) = none := by
  obtain ⟨c, more, hmore⟩ := List.exists_cons_of_ne_nil hne
  have hc := not_opensMarkup h hds
  rw [hmore] at hc ⊢
  have hopens := hc c rfl
  simp only [opensMarkup, Bool.or_eq_false_iff, beq_eq_false_iff_ne] at hopens
  obtain ⟨⟨⟨halpha, hslash⟩, hmark⟩, hquestion⟩ := hopens
  rw [tagStep?, halpha, if_neg Bool.false_ne_true]
  · exact fun h => absurd h hslash
  · exact hmark
  · exact hquestion
  · exact fun _ _ h => absurd h hslash

/-- **Tags and comments** are the tokens that are read. -/
theorem readsAs_written {t : Token} (h : p.fits rest = true) (ht : p.token? = some t) :
    ReadsAs p.written t := by
  cases p with
  | text cs => cases ht
  | comment cs =>
    cases ht
    exact readsAs_comment h
  | declaration cs => cases ht
  | startTag tag =>
    cases ht
    exact tag.readsAs
  | endTag name =>
    cases ht
    exact readsAs_endTagText h
  | rawText cs name => cases ht

/-! ## Passes over pieces -/

theorem opensNoName_of_isPlainText (h : isPlainText rest cs = true) {ds : List Char}
    (hds : ds <:+ cs) (hne : ds ≠ []) : OpensNoName (ds ++ rest) := by
  intro c tail heq
  cases ds with
  | nil => exact absurd rfl hne
  | cons d ds =>
    obtain ⟨rfl, hmore⟩ := List.cons.inj heq
    have hopens := not_opensMarkup h hds c (by rw [show ds ++ rest = c :: tail from hmore]; rfl)
    simp only [opensMarkup, Bool.or_eq_false_iff] at hopens
    exact hopens.1.1.1

/-- A piece that is no text ends with a closing bracket. -/
theorem exists_front (h : ∀ cs, p ≠ .text cs) : ∃ front, p.written = front ++ ['>'] := by
  cases p with
  | text cs => exact absurd rfl (h cs)
  | comment cs =>
    exact ⟨"<!--".toList ++ (cs ++ "--".toList), by simp [Piece.written, writtenComment]⟩
  | declaration cs => exact ⟨'<' :: cs, rfl⟩
  | startTag t =>
    refine ⟨'<' :: (t.name ++ (t.attrs.flatMap AttributeText.text ++
      (t.gap ++ if t.closes then ['/'] else []))), ?_⟩
    cases hcloses : t.closes <;>
      simp [Piece.written, TagText.text, TagText.inside, TagText.ending, hcloses]
  | endTag name => exact ⟨'<' :: '/' :: name, rfl⟩
  | rawText cs name => exact ⟨cs ++ '<' :: '/' :: name, by simp [Piece.written, endTagText]⟩

/-- What is found in a piece ends in the piece. -/
theorem settled_written (hm : FindsTags m) (h : p.fits rest = true) : Settled m p.written rest := by
  by_cases htext : ∃ cs, p = .text cs
  · obtain ⟨cs, rfl⟩ := htext
    intro ds hds hne
    have hopens := opensNoName_of_isPlainText h hds hne
    have halone : OpensNoName ds := fun c tail heq => hopens c (tail ++ rest) (by rw [heq]; rfl)
    rw [hm.none hopens, hm.none halone]
    exact ⟨rfl, nofun⟩
  · obtain ⟨front, hfront⟩ := exists_front (p := p) fun cs heq => htext ⟨cs, heq⟩
    rw [hfront]
    exact hm.settled front rest

/-- **A pass sees to each piece by itself.** -/
theorem substitute_pieces (hm : FindsTags m) (h : areFitting ps = true) :
    substitute m (writtenAll ps) = ps.flatMap fun p => substitute m p.written := by
  induction ps with
  | nil => rfl
  | cons p ps ih =>
    rw [areFitting, Bool.and_eq_true] at h
    rw [writtenAll, List.flatMap_cons, List.flatMap_cons, ← ih h.2]
    exact substitute_append (settled_written hm h.1)

/-- Where a pass does what it is meant to at the head of a piece and sees to what is left, the pass
does what it is meant to with all of them if and only if nothing that it finds begins in what is
left. -/
theorem pass_pieces {x : Char} {meant left : Piece → List Char} (hm : FindsTags m)
    (hgrows : Grows m x)
    (hpiece : ∀ p : Piece, ∃ new, meant p = new ++ left p ∧
      substitute m p.written = new ++ substitute m (left p))
    (h : areFitting ps = true) :
    substitute m (writtenAll ps) = ps.flatMap meant ↔ ∀ p ∈ ps, Untouched m (left p) := by
  rw [substitute_pieces hm h, flatMap_eq_iff (x := x)]
  · refine forall₂_congr fun p _ => ?_
    obtain ⟨new, hmeant, hpass⟩ := hpiece p
    rw [hmeant, hpass, List.append_right_inj, substitute_eq_self_iff hgrows]
  · intro p _
    obtain ⟨new, hmeant, hpass⟩ := hpiece p
    rw [hmeant, hpass, List.count_append, List.count_append]
    exact Nat.add_le_add_left (hgrows.count_le (left p)) _
  · intro p _ hcount
    obtain ⟨new, hmeant, hpass⟩ := hpiece p
    rw [hmeant, hpass, List.count_append, List.count_append] at hcount
    rw [hmeant, hpass, substitute_of_untouched (hgrows.untouched (Nat.add_left_cancel hcount))]

/-! ## What is meant to become of a piece -/

/-- Whether a tag is that of a component and closes itself, its attributes without a closing bracket
and not ended by a blank, which in markup may be a part of a name. -/
def isSelfClosing (t : TagText) : Bool :=
  t.closes && isComponentName t.name && !(t.attrs.flatMap AttributeText.text).contains '>' &&
    (t.attrs.flatMap AttributeText.text).getLast?.all (!isBlank ·)

/-- A tag that closes itself becomes a pair of tags. -/
def closed : Piece → List Piece
  | .startTag t =>
    if isSelfClosing t then [.startTag (openedTag t), .endTag t.name] else [.startTag t]
  | p => [p]

/-- What is not meant to be closed of a piece. -/
def unclosed : Piece → List Char
  | .startTag t => if isSelfClosing t then [] else t.text
  | p => p.written

/-- The attribute that keeps a name. -/
def nameAttributeText (name : List Char) (hname : isPascalName name = true) : AttributeText where
  gap := [' ']
  name := nameAttribute.toList
  value := .quoted '"' name
  isSpaced := Eq.refl true
  isNamed := Eq.refl true
  isComplete := by
    have hcomponent : isComponentName name = true := by rw [isComponentName, hname]; rfl
    rw [ValueText.isComplete, Bool.and_eq_true, List.all_eq_true]
    exact ⟨rfl, fun c hc => bne_iff_ne.mpr fun h =>
      notMem_componentName hcomponent (by decide) (h ▸ hc)⟩

/-- A tag with the attribute that keeps its name. -/
def markedTag (t : TagText) (hname : isPascalName t.name = true) : TagText where
  name := t.name
  attrs := nameAttributeText t.name hname :: t.attrs
  gap := t.gap
  closes := t.closes
  isNamed := t.isNamed
  isSpaced := t.isSpaced
  isEnded := by
    have hended := t.isEnded
    rw [List.getLast?_cons]
    cases hlast : t.attrs.getLast? with
    | none => simp [nameAttributeText, ValueText.isBare]
    | some a =>
      rw [hlast] at hended
      exact hended

/-- A start tag whose name has a capital gets the attribute for its name. -/
def marked : Piece → Piece
  | .startTag t => if h : isPascalName t.name = true then .startTag (markedTag t h) else .startTag t
  | p => p

/-- What of a piece comes behind the name that is marked. -/
def unmarked : Piece → List Char
  | .startTag t =>
    if isPascalName t.name then t.attrs.flatMap AttributeText.text ++ t.ending else t.text
  | p => p.written

/-! ## What becomes of it -/

/-- **Closing** a piece: it becomes what it is meant to, but for what is found in the rest of it. -/
theorem closeTags_piece (p : Piece) :
    ∃ new, writtenAll (closed p) = new ++ unclosed p ∧
      closeTags p.written = new ++ closeTags (unclosed p) := by
  cases p with
  | startTag t =>
    rw [closed, unclosed]
    cases hcloses : isSelfClosing t with
    | false => exact ⟨[], List.append_nil _, rfl⟩
    | true =>
      simp only [isSelfClosing, Bool.and_eq_true, Bool.not_eq_true'] at hcloses
      obtain ⟨⟨⟨hclosed, hname⟩, hbracket⟩, hlast⟩ := hcloses
      have hmem : '>' ∉ t.attrs.flatMap AttributeText.text := fun hmem => by
        rw [List.contains_iff_mem.mpr hmem] at hbracket
        cases hbracket
      have hblank : ∀ c ∈ (t.attrs.flatMap AttributeText.text).getLast?, isBlank c = false := by
        intro c hc
        rw [show (t.attrs.flatMap AttributeText.text).getLast? = some c from hc] at hlast
        simpa using hlast
      have hclose : closeTags (t.text ++ []) = _ := closeTags_text hname hclosed hmem hblank
      rw [List.append_nil] at hclose
      exact ⟨(openedTag t).text ++ endTagText t.name,
        by simp [writtenAll, Piece.written], by rw [List.append_assoc]; exact hclose⟩
  | _ => exact ⟨[], List.append_nil _, rfl⟩

theorem markTags_text {name : List Char} (hname : isPascalName name = true)
    (hends : endsName rest = true) :
    markTags ('<' :: (name ++ rest)) = markedStart name ++ markTags rest := by
  have hfound : markedTag? ('<' :: (name ++ rest)) = some (markedStart name, name.length) :=
    markedTag?_eq_some_iff.mpr ⟨name, rest, rfl, hname, hends, rfl, rfl⟩
  rw [markTags, substitute_some hfound, List.drop_left]
  rfl

/-- What is behind the name of a start tag ends it. -/
theorem endsName_behind (t : TagText) :
    endsName (t.attrs.flatMap AttributeText.text ++ t.ending) = true := by
  cases hattrs : t.attrs with
  | cons a attrs =>
    obtain ⟨g, gap, hgap, hspace⟩ := a.exists_gap
    rw [List.flatMap_cons, AttributeText.text, hgap]
    simp only [List.cons_append]
    rw [endsName_cons, Text.isBlank_of_isMarkupSpace hspace, Bool.or_true]
  | nil =>
    have hspaced := t.isSpaced
    rw [List.flatMap_nil, List.nil_append, TagText.ending]
    cases hgap : t.gap with
    | nil => cases t.closes <;> rfl
    | cons g gap =>
      rw [hgap, List.all_cons, Bool.and_eq_true] at hspaced
      rw [List.cons_append, endsName_cons, Text.isBlank_of_isMarkupSpace hspaced.1, Bool.or_true]

/-- **Marking** a piece: it becomes what it is meant to, but for what is found in the rest of it. -/
theorem markTags_piece (p : Piece) :
    ∃ new, (marked p).written = new ++ unmarked p ∧
      markTags p.written = new ++ markTags (unmarked p) := by
  cases p with
  | startTag t =>
    rw [marked, unmarked]
    by_cases hname : isPascalName t.name = true
    · rw [dif_pos hname, if_pos hname]
      refine ⟨markedStart t.name, ?_, markTags_text hname (endsName_behind t)⟩
      show '<' :: (t.name ++ ((nameAttributeText t.name hname :: t.attrs).flatMap
        AttributeText.text ++ t.ending)) = _
      simp [nameAttributeText, markedStart, AttributeText.text, ValueText.text]
    · rw [dif_neg hname, if_neg hname]
      exact ⟨[], rfl, rfl⟩
  | _ => exact ⟨[], rfl, rfl⟩

/-! ## Both passes -/

theorem writtenAll_closed (ps : List Piece) :
    writtenAll (ps.flatMap closed) = ps.flatMap fun p => writtenAll (closed p) := by
  rw [writtenAll, List.flatMap_assoc]
  rfl

theorem writtenAll_marked (ps : List Piece) :
    writtenAll (ps.map marked) = ps.flatMap fun p => (marked p).written := by
  rw [writtenAll, List.flatMap_map]

/-- **Closing** does what is meant if and only if nothing else that it finds begins in a piece. -/
theorem closeTags_pieces (h : areFitting ps = true) :
    closeTags (writtenAll ps) = writtenAll (ps.flatMap closed) ↔
      ∀ p ∈ ps, Untouched closedTag? (unclosed p) := by
  rw [writtenAll_closed]
  exact pass_pieces findsTags_closedTag? grows_closedTag? closeTags_piece h

/-- **Marking** does what is meant if and only if nothing else that it finds begins in a piece. -/
theorem markTags_pieces (h : areFitting ps = true) :
    markTags (writtenAll ps) = writtenAll (ps.map marked) ↔
      ∀ p ∈ ps, Untouched markedTag? (unmarked p) := by
  rw [writtenAll_marked]
  exact pass_pieces findsTags_markedTag? grows_markedTag? markTags_piece h

/-- A pair of tags has the values of the tag that closes itself. -/
theorem data_closed (p : Piece) : (closed p).flatMap Piece.data = p.data := by
  cases p with
  | startTag t =>
    rw [closed]
    cases isSelfClosing t <;> simp [Piece.data, openedTag]
  | _ => exact List.append_nil _

/-- The name that a piece keeps. -/
def keptName : Piece → List (List Char)
  | .startTag t => if isPascalName t.name then [t.name] else []
  | _ => []

/-- A marked tag has the values that it had, behind its name. -/
theorem data_marked (p : Piece) : (marked p).data = keptName p ++ p.data := by
  cases p with
  | startTag t =>
    rw [marked, keptName]
    by_cases hname : isPascalName t.name = true
    · rw [dif_pos hname, if_pos hname]
      rfl
    · rw [dif_neg hname, if_neg hname]
      rfl
  | _ => rfl

/-- Texts in a row that have the same heads have the same head. -/
theorem head?_flatMap_congr {α : Type} {f g : α → List Char} (h : ∀ a, (f a).head? = (g a).head?)
    (l : List α) : (l.flatMap f).head? = (l.flatMap g).head? := by
  induction l with
  | nil => rfl
  | cons a l ih =>
    rw [List.flatMap_cons, List.flatMap_cons, List.head?_append, List.head?_append, h, ih]

/-- What heads a piece is the same when the piece is closed. -/
theorem head?_closed (ps : List Piece) :
    (writtenAll (ps.flatMap closed)).head? = (writtenAll ps).head? := by
  rw [writtenAll_closed]
  refine head?_flatMap_congr (fun p => ?_) ps
  cases p with
  | startTag t =>
    rw [closed]
    cases isSelfClosing t <;> rfl
  | _ => exact congrArg List.head? (List.append_nil _)

/-- Of what is behind a text only the first character counts. -/
theorem isPlainText_congr {rest' : List Char} (h : rest.head? = rest'.head?) (cs : List Char) :
    isPlainText rest cs = isPlainText rest' cs := by
  induction cs with
  | nil => rfl
  | cons c cs ih => rw [isPlainText, isPlainText, ih, List.head?_append, List.head?_append, h]

/-- Pieces that were closed are read as what they are. -/
theorem areFitting_closed (h : areFitting ps = true) : areFitting (ps.flatMap closed) = true := by
  induction ps with
  | nil => rfl
  | cons p ps ih =>
    rw [areFitting, Bool.and_eq_true] at h
    have hrest := ih h.2
    rw [List.flatMap_cons]
    cases p with
    | startTag t =>
      rw [closed]
      cases isSelfClosing t with
      | true =>
        show (true && (isTagWord t.name && areFitting (ps.flatMap closed))) = true
        rw [t.isNamed, hrest]
        rfl
      | false => exact hrest
    | text cs =>
      show (isPlainText (writtenAll (ps.flatMap closed)) cs &&
        areFitting (ps.flatMap closed)) = true
      rw [isPlainText_congr (head?_closed ps), hrest, Bool.and_true]
      exact h.1
    | _ =>
      refine Bool.and_eq_true_iff.mpr ⟨h.1, hrest⟩

theorem fits_of_mem (h : areFitting ps = true) (hp : p ∈ ps) : ∃ rest, p.fits rest = true := by
  induction ps with
  | nil => cases hp
  | cons q ps ih =>
    rw [areFitting, Bool.and_eq_true] at h
    rcases List.mem_cons.mp hp with rfl | hp
    · exact ⟨_, h.1⟩
    · exact ih h.2 hp

/-- Pieces that were closed and marked are read as what they are meant to be. -/
theorem readsAs_marked {t : Token} (h : areFitting ps = true) (hp : p ∈ ps)
    (ht : (marked p).token? = some t) : ReadsAs (marked p).written t := by
  obtain ⟨rest, hfits⟩ := fits_of_mem h hp
  have hmarked : (marked p).fits rest = true := by
    cases p with
    | startTag tag =>
      rw [marked]
      split <;> rfl
    | _ => exact hfits
  exact readsAs_written hmarked ht

/-- **The passes over component tags**, on a template of which each piece is read as what it is.
Either pass, and the one after the other, gives what it is meant to if and only if nothing that it
finds begins elsewhere: in a value, in a comment, in the text of a script. What it is meant to give
has every value, comment and text as it was, behind the names that are kept, and is read as it
stands. -/
theorem passes_pieces (ps : List Piece) (h : areFitting ps = true) :
    (closeTags (writtenAll ps) = writtenAll (ps.flatMap closed) ↔
      ∀ p ∈ ps, Untouched closedTag? (unclosed p)) ∧
    (markTags (writtenAll ps) = writtenAll (ps.map marked) ↔
      ∀ p ∈ ps, Untouched markedTag? (unmarked p)) ∧
    ((∀ p ∈ ps, Untouched closedTag? (unclosed p)) →
      (markTags (closeTags (writtenAll ps)) = writtenAll ((ps.flatMap closed).map marked) ↔
        ∀ p ∈ ps.flatMap closed, Untouched markedTag? (unmarked p))) ∧
    (ps.flatMap closed).flatMap Piece.data = ps.flatMap Piece.data ∧
    (ps.map marked).flatMap Piece.data = (ps.flatMap fun p => keptName p ++ p.data) ∧
    ∀ p ∈ ps.flatMap closed, ∀ t, (marked p).token? = some t → ReadsAs (marked p).written t := by
  refine ⟨closeTags_pieces h, markTags_pieces h, fun hclosed => ?_, ?_, ?_,
    fun p hp t ht => readsAs_marked (areFitting_closed h) hp ht⟩
  · rw [(closeTags_pieces h).mpr hclosed]
    exact markTags_pieces (areFitting_closed h)
  · rw [List.flatMap_assoc]
    simp only [data_closed]
  · rw [List.flatMap_map]
    simp only [data_marked]

/-- The pieces of `<div><!-- a > b -->1 < 2<TodoItem done="a < b" /></div>`. -/
def listPieces : List Piece :=
  [.startTag ⟨"div".toList, [], [], false, Eq.refl true, Eq.refl true, Eq.refl false⟩,
    .comment " a > b ".toList, .text "1 < 2".toList,
    .startTag ⟨"TodoItem".toList,
      [⟨[' '], "done".toList, .quoted '"' "a < b".toList,
        Eq.refl true, Eq.refl true, Eq.refl true⟩],
      [' '], true, Eq.refl true, Eq.refl true, Eq.refl false⟩,
    .endTag "div".toList]

theorem passes_pieces_listPieces :
    markTags (closeTags "<div><!-- a > b -->1 < 2<TodoItem done=\"a < b\" /></div>".toList) =
      ("<div><!-- a > b -->1 < 2<TodoItem data-orig-name=\"TodoItem\" done=\"a < b\">" ++
        "</TodoItem></div>").toList := by
  obtain ⟨-, -, hboth, -⟩ := passes_pieces listPieces (by decide)
  have htext : "<div><!-- a > b -->1 < 2<TodoItem done=\"a < b\" /></div>".toList =
      writtenAll listPieces := by decide
  rw [htext, (hboth (by decide)).mpr (by decide)]
  decide

/-- A value and a comment in which something looks like a component tag: the passes take it for one,
and so the value that is read ends in the middle. -/
theorem tags_found_in_data :
    let template := "<p title=\"<Foo>\">x</p>"
    markTags template.toList = "<p title=\"<Foo data-orig-name=\"Foo\">\">x</p>".toList ∧
    closeTags "<!-- <Foo /> -->".toList = "<!-- <Foo ></Foo> -->".toList ∧
    (compile {} template).problems = [] ∧
    (compile {} template).root.map (fun root =>
      VNode.listToHtml (renderNode (slotContext fun _ => []) root)) =
        some "<p title=\"<Foo data-orig-name=\" foo\"=\"\">\"&gt;x</p>" := by
  decide +kernel

end Componentry.Template
