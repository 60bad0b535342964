import Componentry.Proofs.Template.NewlineReferences
import Componentry.Proofs.Template.Pieces

/-!
# Attributes whose references to newlines are guarded

Markup does not know the settings, so references to newlines that are to be kept are guarded before
it is read. The pass looks for a blank, a name and a value in double quotes, wherever they stand. An
attribute of another form is not found, and what has the form is found in a text or a comment, too.

- `guardedAttribute?_eq_some_iff`: **what is found**.
- `isGuardedIn_guardNewlines`: whatever the text is, the pass **only guards references**.
- `isFound`, `guardedAttr`, `guarded`: attributes that are found, and what becomes of a piece.
- `areClear`: nothing else that is found begins in the pieces.
- `guardNewlines_clear`: then **the pass** does with every piece what it is meant to.
- `prepare_pieces`: so does the whole preparation of a template.
- `attributesRead`, `readAttributes_guarded`: what is read of attributes that were guarded.
- `valueRead_eq_iff`: whether this is **as the settings say**.
-/

namespace Componentry.Template

open Componentry.Markup
open Componentry.Text (isBlank isMarkupSpace isBlank_of_isMarkupSpace)

variable {s : CompileSettings} {cs front back rest new name value : List Char} {c : Char} {n : Nat}
  {m : List Char → Option Stretch}

/-! ## What is found -/

/-- The value of an attribute that is found, its references guarded unless they are decoded. -/
def guardedValue (s : CompileSettings) (name value : List Char) : List Char :=
  if decodes s name then value else guardReferences value

/-- A blank and an attribute with its value in double quotes. -/
def quotedAttribute (b : Char) (name value : List Char) : List Char :=
  b :: (name ++ '=' :: '"' :: (value ++ ['"']))

theorem quotedAttribute_append (b : Char) (name value rest : List Char) :
    quotedAttribute b name value ++ rest = b :: (name ++ '=' :: '"' :: (value ++ '"' :: rest)) := by
  simp [quotedAttribute]

/-- **What is found** is a blank, a name and a value in double quotes. -/
theorem guardedAttribute?_eq_some_iff : guardedAttribute? s cs = some (new, n) ↔
    ∃ b name value rest, cs = quotedAttribute b name value ++ rest ∧
      isBlank b = true ∧ name ≠ [] ∧ (∀ c ∈ name, isAttributeNameChar c = true) ∧ '"' ∉ value ∧
      new = quotedAttribute b name (guardedValue s name value) ∧
      n + 1 = (quotedAttribute b name value).length := by
  constructor
  · intro h
    cases cs with
    | nil => cases h
    | cons b cs =>
      cases hspan : cs.span isAttributeNameChar with
      | mk name behind =>
        obtain ⟨rfl, hname, -⟩ := of_span hspan
        rw [guardedAttribute?, hspan] at h
        simp only [Option.bind_eq_bind, Option.bind_eq_some_iff, Option.guard_eq_some', exists_const,
          Bool.not_eq_true', List.isEmpty_eq_false_iff] at h
        obtain ⟨hb, hne, h⟩ := h
        split at h
        · rename_i quoted
          simp only [Option.bind_eq_some_iff, Option.guard_eq_some', exists_const,
            Option.pure_def, Option.some.injEq, Prod.mk.injEq] at h
          obtain ⟨hlength, rfl, rfl⟩ := h
          cases hvalue : quoted.span (· != '"') with
          | mk value after =>
            obtain ⟨rfl, hnoquote, hstops⟩ := of_span hvalue
            rw [List.span_eq_takeWhile_dropWhile] at hvalue
            rw [(Prod.mk.inj hvalue).1] at hlength ⊢
            -- the value is not all that is behind the quote, so there is a second quote
            cases after with
            | nil =>
              rw [List.append_nil] at hlength
              exact absurd hlength (Nat.lt_irrefl _)
            | cons c rest =>
              obtain rfl : c = '"' := by simpa using hstops c rfl
              exact ⟨b, name, value, rest, (quotedAttribute_append b name value rest).symm, hb, hne,
                hname, fun hmem => absurd (hnoquote _ hmem) (by decide),
                by simp [quotedAttribute, guardedValue], by simp [quotedAttribute]; omega⟩
        · cases h
  · rintro ⟨b, name, value, rest, rfl, hb, hne, hname, hvalue, rfl, hn⟩
    have hspan : (name ++ '=' :: '"' :: (value ++ '"' :: rest)).span isAttributeNameChar =
        (name, '=' :: '"' :: (value ++ '"' :: rest)) :=
      span_append_of hname fun c hc => by
        cases hc
        rfl
    have hempty : name.isEmpty = false := List.isEmpty_eq_false_iff.mpr hne
    obtain rfl : n = name.length + value.length + 3 := by
      simp only [quotedAttribute, List.length_cons, List.length_append, List.length_nil] at hn
      omega
    rw [quotedAttribute_append, guardedAttribute?, hspan, hb]
    simp [hempty, takeWhile_ne hvalue, guardedValue, quotedAttribute]

/-! ## Whatever the text is -/

theorem isGuardedIn_guardedValue (s : CompileSettings) (name value : List Char) :
    IsGuardedIn value (guardedValue s name value) := by
  rw [guardedValue]
  split
  · exact .refl value
  · exact isGuardedIn_guardReferences value

/-- **The pass only guards** references to newlines, whatever the text is. -/
theorem isGuardedIn_guardNewlines (s : CompileSettings) (cs : List Char) :
    IsGuardedIn cs (guardNewlines s cs) := by
  rw [guardNewlines]
  split
  · exact .refl cs
  · refine IsGuardedIn.substitute (fun cs new n hfound => ?_) cs
    obtain ⟨b, name, value, rest, rfl, -, -, -, -, rfl, hn⟩ :=
      guardedAttribute?_eq_some_iff.mp hfound
    have hold : IsGuardedIn (quotedAttribute b name value)
        (quotedAttribute b name (guardedValue s name value)) := by
      have hname := IsGuardedIn.refl (b :: (name ++ ['=', '"']))
      have hquote := IsGuardedIn.refl ['"']
      simpa [quotedAttribute] using
        hname.append ((isGuardedIn_guardedValue s name value).append hquote)
    rwa [List.take_left' hn.symm]

/-! ## Where nothing is found -/

/-- Whether no stretch begins in the text, with `back` behind it. -/
def noneBegins (m : List Char → Option Stretch) (back : List Char) : List Char → Bool
  | [] => true
  | c :: cs => (m (c :: (cs ++ back))).isNone && noneBegins m back cs

/-- **A text in which no stretch begins** stays as it is. -/
theorem substitute_of_noneBegins (h : noneBegins m back front = true) :
    substitute m (front ++ back) = front ++ substitute m back := by
  induction front with
  | nil => rfl
  | cons c front ih =>
    rw [noneBegins, Bool.and_eq_true, Option.isNone_iff_eq_none] at h
    rw [List.cons_append, substitute_none h.1, ih h.2]
    rfl

/-- Nothing is found but where a blank and the name of an attribute begin. -/
theorem guardedAttribute?_eq_none
    (h : isBlank c = false ∨ ∀ d ∈ cs.head?, isAttributeNameChar d = false) :
    guardedAttribute? s (c :: cs) = none := by
  refine Option.eq_none_iff_forall_not_mem.mpr fun ⟨new, n⟩ hfound => ?_
  obtain ⟨b, name, value, rest, hcs, hb, hne, hname, -⟩ := guardedAttribute?_eq_some_iff.mp hfound
  rw [quotedAttribute_append] at hcs
  obtain ⟨rfl, rfl⟩ := List.cons.inj hcs
  rcases h with h | h
  · rw [hb] at h
    cases h
  · cases name with
    | nil => exact hne rfl
    | cons d name =>
      have hd := hname d List.mem_cons_self
      rw [h d rfl] at hd
      cases hd

/-- Blanks before something that is no name of an attribute stay as they are. -/
theorem noneBegins_gap {gap : List Char} (hgap : gap.all isMarkupSpace = true)
    (hback : ∀ d ∈ back.head?, isAttributeNameChar d = false) :
    noneBegins (guardedAttribute? s) back gap = true := by
  induction gap with
  | nil => rfl
  | cons g gap ih =>
    rw [List.all_cons, Bool.and_eq_true] at hgap
    rw [noneBegins, ih hgap.2, Bool.and_true, Option.isNone_iff_eq_none]
    refine guardedAttribute?_eq_none (.inr fun d hd => ?_)
    cases gap with
    | nil => exact hback d hd
    | cons d' gap =>
      cases hd
      rw [List.all_cons, Bool.and_eq_true] at hgap
      rw [isAttributeNameChar, isBlank_of_isMarkupSpace hgap.2.1]
      rfl

/-! ## What is meant to become of a piece -/

/-- Whether an attribute is found: its value is in double quotes, and its name has neither a quote
nor a blank that markup takes for a part of the name. -/
def isFound (a : AttributeText) : Bool := isDoubleQuoted a.value && a.name.all isAttributeNameChar

/-- Whether references to newlines in the value of the attribute are kept. -/
def keeps (s : CompileSettings) (a : AttributeText) : Bool := isFound a && !decodes s a.name

theorem eq_quoted_of_isDoubleQuoted {v : ValueText} (h : isDoubleQuoted v = true) :
    v = .quoted '"' v.chars := by
  cases v with
  | quoted q cs =>
    rw [isDoubleQuoted, beq_iff_eq] at h
    rw [h]
    rfl
  | _ => cases h

theorem quote_notMem {a : AttributeText} (h : isDoubleQuoted a.value = true) :
    '"' ∉ a.value.chars := by
  have hcomplete := a.isComplete
  rw [eq_quoted_of_isDoubleQuoted h, ValueText.isComplete, Bool.and_eq_true, List.all_eq_true]
    at hcomplete
  exact fun hmem => absurd (hcomplete.2 _ hmem) (by decide)

theorem quote_notMem_guardReferences (h : '"' ∉ value) : '"' ∉ guardReferences value := by
  have hwritten : ∀ r : Newline, '"' ∉ r.written ∧ '"' ∉ r.guarded := fun r => by
    cases r <;> decide
  rwa [(isGuardedIn_guardReferences value).mem_iff hwritten]

/-- An attribute with the references in its value guarded, if they are kept. -/
def guardedAttr (s : CompileSettings) (a : AttributeText) : AttributeText :=
  if h : keeps s a = true then
    { a with
      value := .quoted '"' (guardReferences a.value.chars)
      isComplete := by
        rw [keeps, isFound, Bool.and_eq_true, Bool.and_eq_true] at h
        have hquote := quote_notMem_guardReferences (quote_notMem h.1.1)
        rw [ValueText.isComplete, Bool.and_eq_true, List.all_eq_true]
        exact ⟨rfl, fun c hc => bne_iff_ne.mpr fun heq => hquote (heq ▸ hc)⟩ }
  else a

theorem guardedAttr_name (s : CompileSettings) (a : AttributeText) :
    (guardedAttr s a).name = a.name := by
  rw [guardedAttr]
  split <;> rfl

theorem guardedAttr_isBare (s : CompileSettings) (a : AttributeText) :
    (guardedAttr s a).value.isBare = a.value.isBare := by
  rw [guardedAttr]
  split
  · rename_i h
    rw [keeps, isFound, Bool.and_eq_true, Bool.and_eq_true] at h
    exact (congrArg ValueText.isBare (eq_quoted_of_isDoubleQuoted h.1.1)).symm
  · rfl

theorem guardedAttr_chars (s : CompileSettings) (a : AttributeText) :
    (guardedAttr s a).value.chars =
      if keeps s a then guardReferences a.value.chars else a.value.chars := by
  rw [guardedAttr]
  by_cases h : keeps s a = true
  · rw [dif_pos h, if_pos h]
    rfl
  · rw [dif_neg h, if_neg h]

/-- A tag with the references in its attributes guarded where they are kept. -/
def guardedTag (s : CompileSettings) (t : TagText) : TagText where
  name := t.name
  attrs := t.attrs.map (guardedAttr s)
  gap := t.gap
  closes := t.closes
  isNamed := t.isNamed
  isSpaced := t.isSpaced
  isEnded := by
    have hended := t.isEnded
    rw [List.getLast?_map]
    cases hlast : t.attrs.getLast? with
    | none =>
      rw [hlast] at hended
      exact hended
    | some a =>
      rw [hlast] at hended
      rw [Option.map_some, Option.any_some, guardedAttr_isBare]
      exact hended

/-- Nothing but start tags is meant to change. -/
def guarded (s : CompileSettings) : Piece → Piece
  | .startTag t => .startTag (guardedTag s t)
  | p => p

/-! ## Nothing else is found -/

/-- Whether nothing that is found begins in the attributes but those that are meant, with `back`
behind them. -/
def clearAttributes (s : CompileSettings) (back : List Char) : List AttributeText → Bool
  | [] => true
  | a :: attrs =>
    (isFound a ||
        noneBegins (guardedAttribute? s) (attrs.flatMap AttributeText.text ++ back) a.text) &&
      clearAttributes s back attrs

/-- Whether nothing that is found begins in the piece but the attributes that are meant, with `rest`
behind it. -/
def Piece.isClear (s : CompileSettings) (rest : List Char) : Piece → Bool
  | .startTag t =>
    noneBegins (guardedAttribute? s) (t.attrs.flatMap AttributeText.text ++ (t.ending ++ rest))
        ('<' :: t.name) &&
      clearAttributes s (t.ending ++ rest) t.attrs
  | p => noneBegins (guardedAttribute? s) rest p.written

/-- Whether that is so for all pieces. -/
def areClear (s : CompileSettings) : List Piece → Bool
  | [] => true
  | p :: ps => p.isClear s (writtenAll ps) && areClear s ps

/-- The text of an attribute that is found, and of what becomes of it. -/
theorem exists_quotedAttribute {a : AttributeText} (h : isFound a = true) :
    ∃ gap b, a.gap = gap ++ [b] ∧ a.text = gap ++ quotedAttribute b a.name a.value.chars ∧
      (guardedAttr s a).text =
        gap ++ quotedAttribute b a.name (guardedValue s a.name a.value.chars) := by
  have hquoted : a.value = .quoted '"' a.value.chars := by
    rw [isFound, Bool.and_eq_true] at h
    exact eq_quoted_of_isDoubleQuoted h.1
  obtain ⟨g, gap', hcons, -⟩ := a.exists_gap
  obtain ⟨gap, b, hgap⟩ : ∃ gap b, a.gap = gap ++ [b] := by
    rcases List.eq_nil_or_concat a.gap with hnil | ⟨gap, b, hconcat⟩
    · rw [hnil] at hcons
      cases hcons
    · exact ⟨gap, b, by rw [hconcat, List.concat_eq_append]⟩
  have htext : ∀ value, a.gap ++ (a.name ++ (ValueText.quoted '"' value).text) =
      gap ++ quotedAttribute b a.name value := by
    intro value
    rw [hgap]
    simp [ValueText.text, quotedAttribute]
  have hsame : a.text = gap ++ quotedAttribute b a.name a.value.chars := by
    rw [← htext, AttributeText.text]
    exact congrArg (fun v => a.gap ++ (a.name ++ ValueText.text v)) hquoted
  refine ⟨gap, b, hgap, hsame, ?_⟩
  by_cases hkeeps : keeps s a = true
  · have hdecodes : ¬decodes s a.name = true := by
      rw [keeps, h, Bool.true_and, Bool.not_eq_true'] at hkeeps
      rw [hkeeps]
      exact Bool.false_ne_true
    rw [guardedAttr, dif_pos hkeeps, guardedValue, if_neg hdecodes]
    exact htext _
  · have hdecodes : decodes s a.name = true := by
      rw [keeps, h, Bool.true_and, Bool.not_eq_true', Bool.not_eq_false] at hkeeps
      exact hkeeps
    rw [guardedAttr, dif_neg hkeeps, guardedValue, if_pos hdecodes]
    exact hsame

/-- **An attribute that is found** becomes what it is meant to, and what is behind it is seen to by
itself. -/
theorem substitute_attribute {a : AttributeText} (h : isFound a = true) (back : List Char) :
    substitute (guardedAttribute? s) (a.text ++ back) =
      (guardedAttr s a).text ++ substitute (guardedAttribute? s) back := by
  obtain ⟨gap, b, hgap, htext, hguarded⟩ := exists_quotedAttribute (s := s) h
  rw [isFound, Bool.and_eq_true, List.all_eq_true] at h
  have hspaced := a.isSpaced
  rw [hgap, Bool.and_eq_true, List.all_append, Bool.and_eq_true, List.all_cons,
    Bool.and_eq_true] at hspaced
  have hb := isBlank_of_isMarkupSpace hspaced.2.2.1
  have hname : a.name ≠ [] := by
    obtain ⟨c, more, hname, -⟩ := a.exists_name
    exact hname ▸ List.cons_ne_nil c more
  have hgapend : noneBegins (guardedAttribute? s)
      (quotedAttribute b a.name a.value.chars ++ back) gap = true := by
    refine noneBegins_gap hspaced.2.1 fun d hd => ?_
    cases hd
    rw [isAttributeNameChar, hb]
    rfl
  have hfound : guardedAttribute? s (quotedAttribute b a.name a.value.chars ++ back) =
      some (_, (quotedAttribute b a.name a.value.chars).length - 1) :=
    guardedAttribute?_eq_some_iff.mpr ⟨b, a.name, a.value.chars, back, rfl, hb, hname, h.2,
      quote_notMem h.1, rfl, rfl⟩
  have hsubstitute : substitute (guardedAttribute? s)
      (quotedAttribute b a.name a.value.chars ++ back) =
        quotedAttribute b a.name (guardedValue s a.name a.value.chars) ++
          substitute (guardedAttribute? s) back :=
    (substitute_some hfound).trans (congrArg (_ ++ substitute _ ·) List.drop_left)
  rw [htext, hguarded, List.append_assoc, substitute_of_noneBegins hgapend, hsubstitute,
    List.append_assoc]

/-! ## What becomes of the pieces -/

variable {p : Piece} {ps : List Piece}

theorem guardedAttr_of_not_isFound {a : AttributeText} (h : ¬isFound a = true) :
    guardedAttr s a = a := by
  refine dif_neg fun hkeeps => h ?_
  rw [keeps, Bool.and_eq_true] at hkeeps
  exact hkeeps.1

theorem substitute_attributes {attrs : List AttributeText}
    (h : clearAttributes s back attrs = true) :
    substitute (guardedAttribute? s) (attrs.flatMap AttributeText.text ++ back) =
      (attrs.map (guardedAttr s)).flatMap AttributeText.text ++
        substitute (guardedAttribute? s) back := by
  induction attrs with
  | nil => rfl
  | cons a attrs ih =>
    rw [clearAttributes, Bool.and_eq_true, Bool.or_eq_true] at h
    rw [List.flatMap_cons, List.map_cons, List.flatMap_cons, List.append_assoc, List.append_assoc,
      ← ih h.2]
    by_cases hfound : isFound a = true
    · exact substitute_attribute hfound _
    · rw [guardedAttr_of_not_isFound hfound]
      exact substitute_of_noneBegins (h.1.resolve_left hfound)

/-- Nothing is found in the end of a tag. -/
theorem substitute_ending (t : TagText) (rest : List Char) :
    substitute (guardedAttribute? s) (t.ending ++ rest) =
      t.ending ++ substitute (guardedAttribute? s) rest := by
  have hbracket : substitute (guardedAttribute? s) ('>' :: rest) =
      '>' :: substitute (guardedAttribute? s) rest :=
    substitute_none (guardedAttribute?_eq_none (.inl (by decide)))
  have hslash : substitute (guardedAttribute? s) ('/' :: '>' :: rest) =
      '/' :: '>' :: substitute (guardedAttribute? s) rest :=
    (substitute_none (guardedAttribute?_eq_none (.inl (by decide)))).trans
      (congrArg _ hbracket)
  rw [TagText.ending, List.append_assoc, List.append_assoc]
  cases t.closes with
  | false =>
    exact (substitute_of_noneBegins (noneBegins_gap t.isSpaced fun d hd => by cases hd; rfl)).trans
      (congrArg _ hbracket)
  | true =>
    exact (substitute_of_noneBegins (noneBegins_gap t.isSpaced fun d hd => by cases hd; rfl)).trans
      (congrArg _ hslash)

/-- **One piece** becomes what it is meant to. -/
theorem substitute_piece (h : p.isClear s rest = true) :
    substitute (guardedAttribute? s) (p.written ++ rest) =
      (guarded s p).written ++ substitute (guardedAttribute? s) rest := by
  cases p with
  | startTag t =>
    rw [Piece.isClear, Bool.and_eq_true] at h
    have htext : ∀ t' : TagText, t'.text =
        ('<' :: t'.name) ++ (t'.attrs.flatMap AttributeText.text ++ t'.ending) := fun _ => rfl
    show substitute _ (t.text ++ rest) = (guardedTag s t).text ++ _
    rw [htext, htext, List.append_assoc, List.append_assoc, List.append_assoc, List.append_assoc,
      substitute_of_noneBegins h.1, substitute_attributes h.2, substitute_ending]
    rfl
  | _ => exact substitute_of_noneBegins h

theorem substitute_clear (h : areClear s ps = true) :
    substitute (guardedAttribute? s) (writtenAll ps) = writtenAll (ps.map (guarded s)) := by
  induction ps with
  | nil => rfl
  | cons p ps ih =>
    rw [areClear, Bool.and_eq_true] at h
    rw [List.map_cons, writtenAll, writtenAll, List.flatMap_cons, List.flatMap_cons]
    exact (substitute_piece h.1).trans (congrArg _ (ih h.2))

/-- Where everything is decoded, nothing becomes of a piece. -/
theorem written_guarded_of_decodes (h : ∀ name, decodes s name = true) (p : Piece) :
    (guarded s p).written = p.written := by
  cases p with
  | startTag t =>
    have hattrs : t.attrs.map (guardedAttr s) = t.attrs :=
      (List.map_congr_left fun a _ => dif_neg (by
        rw [keeps, h, Bool.not_true, Bool.and_false]
        exact Bool.false_ne_true)).trans (List.map_id _)
    show '<' :: (t.name ++ ((t.attrs.map (guardedAttr s)).flatMap AttributeText.text ++ _)) = _
    rw [hattrs]
    rfl
  | _ => rfl

/-- **The pass** does with every piece what it is meant to. -/
theorem guardNewlines_clear (h : areClear s ps = true) :
    guardNewlines s (writtenAll ps) = writtenAll (ps.map (guarded s)) := by
  rw [guardNewlines]
  split
  · rename_i hboth
    rw [Bool.and_eq_true] at hboth
    have hdecodes : ∀ name, decodes s name = true := fun name => by
      rw [decodes]
      split
      · exact hboth.2
      · exact hboth.1
    rw [writtenAll, writtenAll, List.flatMap_map]
    exact (List.flatMap_congr fun p _ => written_guarded_of_decodes hdecodes p).symm
  · exact substitute_clear h

theorem head?_guarded (s : CompileSettings) (ps : List Piece) :
    (writtenAll (ps.map (guarded s))).head? = (writtenAll ps).head? := by
  rw [writtenAll, List.flatMap_map]
  refine head?_flatMap_congr (fun p => ?_) ps
  cases p <;> rfl

/-- Pieces that were guarded are read as what they are. -/
theorem areFitting_guarded (s : CompileSettings) (h : areFitting ps = true) :
    areFitting (ps.map (guarded s)) = true := by
  induction ps with
  | nil => rfl
  | cons p ps ih =>
    rw [areFitting, Bool.and_eq_true] at h
    rw [List.map_cons, areFitting, Bool.and_eq_true]
    refine ⟨?_, ih h.2⟩
    cases p with
    | text cs =>
      show isPlainText (writtenAll (ps.map (guarded s))) cs = true
      rw [isPlainText_congr (head?_guarded s ps)]
      exact h.1
    | startTag t => rfl
    | _ => exact h.1

/-- **The preparation of a template** of which the passes find nothing but what is meant. -/
theorem prepare_pieces (h : areFitting ps = true)
    (hclosed : ∀ p ∈ ps, Untouched closedTag? (unclosed p))
    (hmarked : ∀ p ∈ ps.flatMap closed, Untouched markedTag? (unmarked p))
    (hclear : areClear s ((ps.flatMap closed).map marked) = true) :
    prepare s (String.ofList (writtenAll ps)) =
      String.ofList (writtenAll (((ps.flatMap closed).map marked).map (guarded s))) := by
  rw [prepare, String.toList_ofList, (closeTags_pieces h).mpr hclosed,
    (markTags_pieces (areFitting_closed h)).mpr hmarked, guardNewlines_clear hclear]

/-! ## What is read of the attributes -/

/-- The value that is read of an attribute, its references to newlines kept or decoded. -/
def valueRead (keep : Bool) (a : AttributeText) : List Char :=
  readValue keep (a.value.chars.map mend)

/-- The attributes that are read of a tag; `keep` says where references to newlines are kept. A name
that was there before is passed over. -/
def attributesRead (keep : AttributeText → Bool) (attrs : List AttributeText) :
    List (String × String) :=
  attrs.foldl (fun acc a =>
    if acc.any (·.1 == lowerName a.name) then acc
    else acc ++ [(lowerName a.name, String.ofList (valueRead (keep a) a))]) []

/-- **The value of an attribute** that was guarded. -/
theorem decode_guardedAttr (s : CompileSettings) (a : AttributeText) :
    Reference.decode ((guardedAttr s a).value.chars.map mend) = valueRead (keeps s a) a := by
  rw [guardedAttr_chars, valueRead]
  cases keeps s a with
  | false => exact decode_eq_readValue _
  | true =>
    rw [← decode_guardReferences, guardReferences_mend]
    rfl

theorem addAttribute_guardedAttr (s : CompileSettings) (acc : List (String × String))
    (a : AttributeText) :
    addAttribute acc (guardedAttr s a).name (guardedAttr s a).value.chars =
      if acc.any (·.1 == lowerName a.name) then acc
      else acc ++ [(lowerName a.name, String.ofList (valueRead (keeps s a) a))] := by
  rw [addAttribute, guardedAttr_name, decode_guardedAttr]
  rfl

/-- **The attributes of a tag** that were guarded. -/
theorem readAttributes_guarded (s : CompileSettings) (attrs : List AttributeText) :
    readAttributes [] (attrs.map (guardedAttr s)) = attributesRead (keeps s) attrs := by
  rw [readAttributes, List.foldl_map, attributesRead]
  simp only [addAttribute_guardedAttr]

/-- **Whether a value is read as the settings say**: if the attribute is found, or the settings ask
for nothing to be kept, or there is nothing to keep. -/
theorem valueRead_eq_iff (s : CompileSettings) (a : AttributeText) :
    valueRead (keeps s a) a = valueRead (!decodes s a.name) a ↔
      isFound a = true ∨ decodes s a.name = true ∨
        Untouched guardedReference? (a.value.chars.map mend) := by
  rw [keeps]
  cases isFound a with
  | true => exact iff_of_true rfl (.inl rfl)
  | false =>
    cases decodes s a.name with
    | true => exact iff_of_true rfl (.inr (.inl rfl))
    | false =>
      rw [Bool.false_and, Bool.not_false, eq_comm]
      exact (readValue_eq_iff _).trans (by simp)

/-! ## References to newlines follow the settings -/

/-- **References to newlines**, on any text and on a template of which each piece is read as what it
is. Whatever the text, nothing but references to newlines is changed. Where nothing else that is
found begins in the pieces, only the attributes that are found become other ones, and the tags are
read with the references in them kept unless the settings ask for them to be decoded. All other
references are decoded. So the value of an attribute is read as the settings say if and only if the
attribute is found, or nothing in it is to be kept. -/
theorem guardNewlines_pieces (s : CompileSettings) (ps : List Piece) (h : areFitting ps = true) :
    (∀ cs, IsGuardedIn cs (guardNewlines s cs)) ∧
    (areClear s ps = true →
      guardNewlines s (writtenAll ps) = writtenAll (ps.map (guarded s)) ∧
      areFitting (ps.map (guarded s)) = true ∧
      ∀ t, .startTag t ∈ ps → ReadsAs (guardedTag s t).text
        (.startTag (lowerName t.name) (attributesRead (keeps s) t.attrs) t.closes)) ∧
    ∀ a, valueRead (keeps s a) a = valueRead (!decodes s a.name) a ↔
      isFound a = true ∨ decodes s a.name = true ∨
        Untouched guardedReference? (a.value.chars.map mend) := by
  refine ⟨isGuardedIn_guardNewlines s, fun hclear => ?_, valueRead_eq_iff s⟩
  refine ⟨guardNewlines_clear hclear, areFitting_guarded s h, fun t _ => ?_⟩
  rw [← readAttributes_guarded]
  exact (guardedTag s t).readsAs

/-- The tag `<a title="a&#10;b" href="x&#10;y">`. -/
def linkTag : TagText where
  name := ['a']
  attrs := [⟨[' '], "title".toList, .quoted '"' "a&#10;b".toList,
      Eq.refl true, Eq.refl true, Eq.refl true⟩,
    ⟨[' '], "href".toList, .quoted '"' "x&#10;y".toList,
      Eq.refl true, Eq.refl true, Eq.refl true⟩]
  gap := []
  closes := false
  isNamed := Eq.refl true
  isSpaced := Eq.refl true
  isEnded := Eq.refl false

theorem guardNewlines_pieces_link :
    guardNewlines { decodeNewlines := true }
        "<a title=\"a&#10;b\" href=\"x&#10;y\">t</a>".toList =
      "<a title=\"a&#10;b\" href=\"x&amp;#10;y\">t</a>".toList ∧
    ReadsAs (guardedTag { decodeNewlines := true } linkTag).text
      (.startTag "a" [("title", "a\nb"), ("href", "x&#10;y")] false) := by
  obtain ⟨-, hclear, -⟩ := guardNewlines_pieces { decodeNewlines := true }
    [.startTag linkTag, .text ['t'], .endTag ['a']] (by decide)
  obtain ⟨hguard, -, hread⟩ := hclear (by decide)
  have hattrs : attributesRead (keeps { decodeNewlines := true }) linkTag.attrs =
      [("title", "a\nb"), ("href", "x&#10;y")] := by decide +kernel
  have htag := hread linkTag List.mem_cons_self
  rw [hattrs] at htag
  refine ⟨?_, htag⟩
  rw [show "<a title=\"a&#10;b\" href=\"x&#10;y\">t</a>".toList =
    writtenAll [.startTag linkTag, .text ['t'], .endTag ['a']] by decide, hguard]
  decide

/-- A value in single quotes is not found, nor is one without a blank before its name, and so they
are decoded unasked. In a text something that looks like an attribute is found. -/
theorem single_quotes_not_found :
    let template := "<p title='a&#10;b'>x</p>"
    guardNewlines {} template.toList = template.toList ∧
    (compile {} template).problems = [] ∧
    (compile {} template).root.map (fun root =>
      VNode.listToHtml (renderNode (slotContext fun _ => []) root)) =
        some "<p title=\"a\nb\">x</p>" ∧
    guardNewlines {} "<p a=\"1\"b=\"&#9;\">x</p>".toList = "<p a=\"1\"b=\"&#9;\">x</p>".toList ∧
    guardNewlines {} "<p>t a=\"&#10;\" u</p>".toList = "<p>t a=\"&amp;#10;\" u</p>".toList := by
  decide +kernel

end Componentry.Template
