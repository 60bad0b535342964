import Componentry.Proofs.Markup.Tokens
import Mathlib.Data.List.Infix

/-!
# Tags and comments as an author may write them

A value may be missing, stand bare or stand in quotes of either kind, blanks may stand between
attributes, and names may have capitals. All of it is kept here as it is written, so that what is
done to the text of a tag can be told from what is done to the tag.

- `ValueText`, `AttributeText`, `TagText`: a start tag **as it is written**.
- `attributesUpTo?_attribute`: one attribute is read as it is written.
- `startTagToken_text`: **a start tag** is read as it is written, with its names in small letters
  and the references in its values replaced.
- `endTagToken_text`: so is an end tag.
- `readsAs_comment`: **a comment** is read up to its end.
-/

namespace Componentry.Markup

open Componentry.Text (isMarkupSpace)

variable {acc : List (String × String)} {cs q rest : List Char} {n : Nat}

/-! ## What is written -/

/-- The value of an attribute, as it is written. -/
inductive ValueText where
  /-- No value, and no equals sign either. -/
  | absent
  | bare (cs : List Char)
  | quoted (quote : Char) (cs : List Char)
  deriving Repr, DecidableEq

namespace ValueText

/-- A bare value ends at a blank or at the end of the tag, a quoted one at its quote. -/
def isComplete : ValueText → Bool
  | absent => true
  | bare cs => cs.head?.any (fun c => c != '"' && c != '\'') &&
      cs.all fun c => !(isMarkupSpace c || c == '>')
  | quoted q cs => (q == '"' || q == '\'') && cs.all (· != q)

/-- The characters of the value. -/
def chars : ValueText → List Char
  | absent => []
  | bare cs => cs
  | quoted _ cs => cs

/-- What stands behind the name of the attribute. -/
def text : ValueText → List Char
  | absent => []
  | bare cs => '=' :: cs
  | quoted q cs => '=' :: q :: (cs ++ [q])

def isBare : ValueText → Bool
  | bare _ => true
  | _ => false

/-- Whether the value ends where `cs` begins. -/
def endsBefore (cs : List Char) : ValueText → Bool
  | absent => cs.head?.any endsTagName && (dropSpaces cs).head? != some '='
  | bare _ => cs.head?.any fun c => isMarkupSpace c || c == '>'
  | quoted .. => true

end ValueText

/-- An attribute, as it is written: the blanks before it, its name and its value. -/
structure AttributeText where
  gap : List Char
  name : List Char
  value : ValueText
  isSpaced : (!gap.isEmpty && gap.all isMarkupSpace) = true
  isNamed : (!name.isEmpty && name.all inAttrName) = true
  isComplete : value.isComplete = true

def AttributeText.text (a : AttributeText) : List Char := a.gap ++ (a.name ++ a.value.text)

/-- The attributes that are read, after `acc`. A name that was there before is passed over. -/
def readAttributes (acc : List (String × String)) (attrs : List AttributeText) :
    List (String × String) :=
  attrs.foldl (fun acc a => addAttribute acc a.name a.value.chars) acc

/-- The name of a tag, as it may be written. -/
def isTagWord (name : List Char) : Bool :=
  name.head?.any Char.isAlpha && name.all (!endsTagName ·)

/-- The name of a tag in small letters. -/
def lowerName (name : List Char) : String := String.ofList (name.map fun c => (mend c).toLower)

/-- A start tag, as it is written: its name, its attributes, the blanks behind them, and whether it
closes itself. Behind a bare value the slash would be a part of the value. -/
structure TagText where
  name : List Char
  attrs : List AttributeText
  gap : List Char
  closes : Bool
  isNamed : isTagWord name = true
  isSpaced : gap.all isMarkupSpace = true
  isEnded : (closes && gap.isEmpty && attrs.getLast?.any (·.value.isBare)) = false

namespace TagText

/-- What stands behind the attributes. -/
def ending (t : TagText) : List Char := t.gap ++ if t.closes then ['/', '>'] else ['>']

def inside (t : TagText) : List Char := t.name ++ (t.attrs.flatMap AttributeText.text ++ t.ending)

def text (t : TagText) : List Char := '<' :: t.inside

/-- The token that is read. -/
def token (t : TagText) : Token :=
  .startTag (lowerName t.name) (readAttributes [] t.attrs) t.closes

end TagText

/-- An end tag, as it is written. -/
def endTagText (name : List Char) : List Char := '<' :: '/' :: (name ++ ['>'])

/-! ## Reading it -/

theorem span_append_of {p : Char → Bool} {front : List Char} (hfront : ∀ c ∈ front, p c = true)
    (hrest : ∀ c ∈ rest.head?, p c = false) : (front ++ rest).span p = (front, rest) := by
  rw [List.span_eq_takeWhile_dropWhile, List.takeWhile_append_of_pos hfront,
    List.dropWhile_append_of_pos hfront]
  cases rest with
  | nil => rw [List.takeWhile_nil, List.dropWhile_nil, List.append_nil]
  | cons c rest =>
    rw [List.takeWhile_cons, List.dropWhile_cons, hrest c rfl]
    simp

theorem of_span {p : Char → Bool} {front : List Char} (h : cs.span p = (front, rest)) :
    cs = front ++ rest ∧ (∀ c ∈ front, p c = true) ∧ ∀ c ∈ rest.head?, p c = false := by
  rw [List.span_eq_takeWhile_dropWhile] at h
  obtain ⟨rfl, rfl⟩ := Prod.mk.inj h
  refine ⟨List.takeWhile_append_dropWhile.symm, List.all_eq_true.mp List.all_takeWhile,
    fun c hc => ?_⟩
  have hnot := List.head?_dropWhile_not p cs
  rw [show (cs.dropWhile p).head? = some c from hc] at hnot
  exact hnot

theorem dropSpaces_gap {gap : List Char} (hgap : gap.all isMarkupSpace = true)
    (hrest : ∀ c ∈ rest.head?, isMarkupSpace c = false) : dropSpaces (gap ++ rest) = rest := by
  have hspan := span_append_of (List.all_eq_true.mp hgap) hrest
  rw [List.span_eq_takeWhile_dropWhile] at hspan
  exact (Prod.mk.inj hspan).2

theorem dropSpaces_of_head (h : ∀ c ∈ cs.head?, isMarkupSpace c = false) : dropSpaces cs = cs := by
  have hgap : ([] : List Char).all isMarkupSpace = true := rfl
  exact dropSpaces_gap hgap h

theorem dropSpaces_dropSpaces (cs : List Char) : dropSpaces (dropSpaces cs) = dropSpaces cs :=
  dropSpaces_of_head (of_span (List.span_eq_takeWhile_dropWhile ..)).2.2

/-- Blanks before the attributes are passed over. -/
theorem attributesUpTo?_dropSpaces (n : Nat) (acc : List (String × String)) (cs : List Char) :
    attributesUpTo? n acc (dropSpaces cs) = attributesUpTo? n acc cs := by
  cases n with
  | zero => rfl
  | succ n => rw [attributesUpTo?, attributesUpTo?, dropSpaces_dropSpaces]

theorem attributesAfter?_of_head {name : List Char} (h : (dropSpaces cs).head? ≠ some '=') :
    attributesAfter? n acc name cs = attributesUpTo? n (addAttribute acc name []) cs := by
  rw [← attributesUpTo?_dropSpaces, attributesAfter?]
  split
  · rename_i heq
    rw [heq] at h
    exact absurd rfl h
  · rfl

/-- **The value of an attribute** is read as it is written. -/
theorem attributesAfter?_text {v : ValueText} (name : List Char) (hv : v.isComplete = true)
    (hends : v.endsBefore cs = true) :
    attributesAfter? n acc name (v.text ++ cs) =
      attributesUpTo? n (addAttribute acc name v.chars) cs := by
  cases v with
  | absent =>
    simp only [ValueText.endsBefore, Bool.and_eq_true, bne_iff_ne] at hends
    exact attributesAfter?_of_head hends.2
  | bare value =>
    simp only [ValueText.isComplete, Bool.and_eq_true] at hv
    obtain ⟨c, value, rfl⟩ : ∃ c more, value = c :: more := by
      cases value with
      | nil => cases hv.1
      | cons c more => exact ⟨c, more, rfl⟩
    obtain ⟨hhead, hall⟩ := hv
    have hquotes : ¬(c = '"' ∨ c = '\'') := by simpa using hhead
    have hc := List.all_eq_true.mp hall c List.mem_cons_self
    simp only [Bool.not_eq_true', Bool.or_eq_false_iff, beq_eq_false_iff_ne] at hc
    have hspaces : dropSpaces (c :: (value ++ cs)) = c :: (value ++ cs) :=
      dropSpaces_of_head fun d hd => by
        cases hd
        exact hc.1
    have hspan : (c :: (value ++ cs)).span (fun c => !(isMarkupSpace c || c == '>')) =
        (c :: value, cs) := by
      refine span_append_of (List.all_eq_true.mp hall) fun d hd => ?_
      rw [ValueText.endsBefore, hd] at hends
      exact (congrArg not hends).trans rfl
    have hequals : dropSpaces ('=' :: c :: (value ++ cs)) = '=' :: c :: (value ++ cs) := rfl
    have hread : attributeValue? (c :: (value ++ cs)) = some (c :: value, cs) := by
      rw [attributeValue?_cons hspaces hc.2, if_neg hquotes, hspan]
    exact (attributesAfter?_value hequals).trans (by rw [hread]; rfl)
  | quoted q value =>
    simp only [ValueText.isComplete, Bool.and_eq_true, Bool.or_eq_true, beq_iff_eq] at hv
    obtain ⟨hq, hall⟩ := hv
    have hmark : isMarkupSpace q = false ∧ q ≠ '>' := by rcases hq with rfl | rfl <;> decide
    have hspaces : dropSpaces (q :: (value ++ q :: cs)) = q :: (value ++ q :: cs) :=
      dropSpaces_of_head fun d hd => by
        cases hd
        exact hmark.1
    have hspan : (value ++ q :: cs).span (· != q) = (value, q :: cs) := by
      refine span_append_of (List.all_eq_true.mp hall) fun d hd => ?_
      cases hd
      exact bne_self_eq_false _
    have hequals : dropSpaces ('=' :: q :: (value ++ q :: cs)) = '=' :: q :: (value ++ q :: cs) :=
      rfl
    have hread : attributeValue? (q :: (value ++ q :: cs)) = some (value, cs) := by
      rw [attributeValue?_cons hspaces hmark.2, if_pos hq, hspan]
    have htext : (ValueText.quoted q value).text ++ cs = '=' :: q :: (value ++ q :: cs) := by
      simp [ValueText.text]
    rw [htext]
    exact (attributesAfter?_value hequals).trans (by rw [hread]; rfl)

/-- What stands behind the name of an attribute ends the name. -/
theorem ends_attrName {v : ValueText} (hends : v.endsBefore cs = true) :
    ∀ c ∈ (v.text ++ cs).head?, inAttrName c = false := by
  intro c hc
  cases v with
  | absent =>
    simp only [ValueText.endsBefore, Bool.and_eq_true] at hends
    change cs.head? = some c at hc
    rw [hc] at hends
    rw [inAttrName, show endsTagName c = true from hends.1]
    rfl
  | bare value =>
    cases hc
    rfl
  | quoted q value =>
    cases hc
    rfl

theorem AttributeText.exists_gap (a : AttributeText) :
    ∃ g gap, a.gap = g :: gap ∧ isMarkupSpace g = true := by
  have hgap := a.isSpaced
  cases h : a.gap with
  | nil =>
    rw [h] at hgap
    cases hgap
  | cons g gap =>
    rw [h] at hgap
    simp only [List.all_cons, Bool.and_eq_true] at hgap
    exact ⟨g, gap, rfl, hgap.2.1⟩

/-- The name of an attribute starts with a character that is no blank and ends no tag. -/
theorem AttributeText.exists_name (a : AttributeText) :
    ∃ c more, a.name = c :: more ∧ inAttrName c = true ∧ isMarkupSpace c = false ∧ c ≠ '>' ∧
      c ≠ '/' ∧ c ≠ '=' := by
  have hname := a.isNamed
  cases h : a.name with
  | nil =>
    rw [h] at hname
    cases hname
  | cons c more =>
    rw [h] at hname
    simp only [List.all_cons, Bool.and_eq_true] at hname
    have hc := hname.2.1
    simp only [inAttrName, endsTagName, Bool.not_eq_true', Bool.or_eq_false_iff,
      beq_eq_false_iff_ne] at hc
    exact ⟨c, more, rfl, hname.2.1, hc.1.1.1, hc.1.2, hc.1.1.2, hc.2⟩

theorem AttributeText.dropSpaces_text (a : AttributeText) (cs : List Char) :
    dropSpaces (a.text ++ cs) = a.name ++ (a.value.text ++ cs) := by
  have hgap := a.isSpaced
  rw [Bool.and_eq_true] at hgap
  obtain ⟨c, more, hname, -, hspace, -⟩ := a.exists_name
  rw [AttributeText.text, List.append_assoc, List.append_assoc, dropSpaces_gap hgap.2]
  intro d hd
  rw [hname] at hd
  cases hd
  exact hspace

/-- **One attribute** is read as it is written. -/
theorem attributesUpTo?_attribute (a : AttributeText) (hends : a.value.endsBefore cs = true) :
    attributesUpTo? (n + 1) acc (a.text ++ cs) =
      attributesUpTo? n (addAttribute acc a.name a.value.chars) cs := by
  have hname := a.isNamed
  have hspaces := a.dropSpaces_text cs
  obtain ⟨c, more, hcm, -, -, hbracket, hslash, -⟩ := a.exists_name
  rw [hcm] at hname hspaces
  simp only [List.all_cons, Bool.and_eq_true] at hname
  have hspan : (more ++ (a.value.text ++ cs)).span inAttrName = (more, a.value.text ++ cs) :=
    span_append_of (List.all_eq_true.mp hname.2.2) (ends_attrName hends)
  rw [List.cons_append] at hspaces
  rw [attributesUpTo?_attr hspaces hbracket hslash, hspan, ← hcm]
  exact attributesAfter?_text a.name a.isComplete hends

/-- **The attributes of a tag** are read as they are written. -/
theorem attributesUpTo?_text {attrs : List AttributeText}
    (hends : ∀ a ∈ attrs.getLast?, a.value.endsBefore cs = true) :
    attributesUpTo? (n + attrs.length) acc (attrs.flatMap AttributeText.text ++ cs) =
      attributesUpTo? n (readAttributes acc attrs) cs := by
  induction attrs generalizing acc with
  | nil => rfl
  | cons a attrs ih =>
    have hmore : a.value.endsBefore (attrs.flatMap AttributeText.text ++ cs) = true := by
      cases attrs with
      | nil => exact hends a rfl
      | cons b attrs =>
        -- a blank ends the value, and the name of an attribute follows
        obtain ⟨g, gap, hgap, hspace⟩ := b.exists_gap
        obtain ⟨c, more, hname, -, -, -, -, hequals⟩ := b.exists_name
        have hdrop := b.dropSpaces_text (attrs.flatMap AttributeText.text ++ cs)
        have hhead : (b.text ++ (attrs.flatMap AttributeText.text ++ cs)).head? = some g := by
          rw [AttributeText.text, hgap]
          rfl
        rw [List.flatMap_cons, List.append_assoc]
        cases a.value with
        | absent =>
          rw [ValueText.endsBefore, hdrop, hhead, hname]
          simp [endsTagName, hspace, hequals]
        | bare value =>
          rw [ValueText.endsBefore, hhead]
          simp [hspace]
        | quoted q value => rfl
    rw [List.flatMap_cons, List.append_assoc, List.length_cons, ← Nat.add_assoc,
      attributesUpTo?_attribute a hmore, ih fun b hb => hends b ?_]
    · rfl
    · rw [List.getLast?_cons]
      cases hlast : attrs.getLast? with
      | none =>
        rw [hlast] at hb
        cases hb
      | some d =>
        rw [hlast] at hb
        exact hb

theorem length_le_flatMap_text (attrs : List AttributeText) :
    attrs.length ≤ (attrs.flatMap AttributeText.text).length := by
  induction attrs with
  | nil => exact Nat.le_refl 0
  | cons a attrs ih =>
    obtain ⟨g, gap, hgap, -⟩ := a.exists_gap
    rw [List.flatMap_cons, List.length_append, AttributeText.text, hgap, List.length_cons,
      List.cons_append, List.length_cons]
    omega

namespace TagText

variable (t : TagText)

theorem head?_ending (q : List Char) :
    ∃ c, (t.ending ++ q).head? = some c ∧ endsTagName c = true ∧
      (isMarkupSpace c = false → t.gap = []) := by
  have hgap := t.isSpaced
  rw [ending]
  cases h : t.gap with
  | nil =>
    cases t.closes with
    | true => exact ⟨'/', rfl, rfl, fun _ => rfl⟩
    | false => exact ⟨'>', rfl, rfl, fun _ => rfl⟩
  | cons g gap =>
    rw [h, List.all_cons, Bool.and_eq_true] at hgap
    refine ⟨g, rfl, ?_, fun hnot => ?_⟩
    · rw [endsTagName, hgap.1]
      rfl
    · rw [hgap.1] at hnot
      cases hnot

theorem dropSpaces_ending (q : List Char) :
    dropSpaces (t.ending ++ q) = (if t.closes then ['/', '>'] else ['>']) ++ q := by
  rw [ending, List.append_assoc]
  refine dropSpaces_gap t.isSpaced fun c hc => ?_
  cases hcloses : t.closes <;> rw [hcloses] at hc <;> cases hc <;> rfl

/-- Where its attributes end, the tag does. -/
theorem endsBefore_ending (q : List Char) :
    ∀ a ∈ t.attrs.getLast?, a.value.endsBefore (t.ending ++ q) = true := by
  intro a ha
  obtain ⟨c, hhead, hends, hgap⟩ := t.head?_ending q
  have hended := t.isEnded
  rw [ha] at hended
  cases hvalue : a.value with
  | absent =>
    rw [ValueText.endsBefore, t.dropSpaces_ending, hhead]
    cases t.closes <;> simp [hends]
  | bare value =>
    rw [ValueText.endsBefore, hhead]
    cases hspace : isMarkupSpace c with
    | true => simp [hspace]
    | false =>
      -- no blank is behind the value, so no slash is
      have hnil := hgap hspace
      simp only [Option.any_some, hvalue, ValueText.isBare, hnil, List.isEmpty_nil, Bool.and_true]
        at hended
      rw [ending, hnil, hended] at hhead
      cases hhead
      rfl
  | quoted q value => rfl

/-- **A start tag** is read as it is written. -/
theorem startTagToken_text (q : List Char) : startTagToken (t.inside ++ q) = (t.token, some q) := by
  have hname := t.isNamed
  rw [isTagWord, Bool.and_eq_true] at hname
  have hends := t.endsBefore_ending q
  obtain ⟨c, hhead, hc, -⟩ := t.head?_ending q
  have htag : tagNameOf (t.inside ++ q) = (t.name.map fun c => (mend c).toLower,
      t.attrs.flatMap AttributeText.text ++ (t.ending ++ q)) := by
    rw [inside, List.append_assoc, List.append_assoc, tagNameOf,
      span_append_of (List.all_eq_true.mp hname.2)]
    intro d hd
    cases hattrs : t.attrs with
    | nil =>
      rw [hattrs] at hd
      obtain rfl : c = d := Option.some.inj (hhead.symm.trans hd)
      rw [hc]
      rfl
    | cons a attrs =>
      obtain ⟨g, gap, hgap, hspace⟩ := a.exists_gap
      rw [hattrs, List.flatMap_cons, AttributeText.text, hgap] at hd
      cases hd
      rw [endsTagName, hspace]
      rfl
  have hattrs : attributes? (t.attrs.flatMap AttributeText.text ++ (t.ending ++ q)) =
      some (readAttributes [] t.attrs, t.closes, q) := by
    have hle := length_le_flatMap_text t.attrs
    obtain ⟨k, hk⟩ : ∃ k, (t.attrs.flatMap AttributeText.text ++ (t.ending ++ q)).length + 1 =
        k + 1 + t.attrs.length :=
      ⟨(t.attrs.flatMap AttributeText.text).length - t.attrs.length + (t.ending ++ q).length, by
        rw [List.length_append]
        omega⟩
    rw [attributes?, hk, attributesUpTo?_text hends, attributesUpTo?, t.dropSpaces_ending]
    cases t.closes <;> rfl
  rw [startTagToken, htag]
  dsimp only
  rw [hattrs]
  rfl

/-- **The next token** is the start tag that is written. -/
theorem readsAs : ReadsAs t.text t.token := by
  have hname := t.isNamed
  have htag := t.startTagToken_text []
  rw [List.append_nil] at htag
  cases h : t.name with
  | nil =>
    rw [h] at hname
    cases hname
  | cons c name =>
    rw [isTagWord, h, Bool.and_eq_true] at hname
    rw [inside, h] at htag
    rw [text, inside, h]
    exact readsAs_startTag hname.1 htag

end TagText

/-- **An end tag** is read as it is written. -/
theorem endTagToken_text {name : List Char} (hname : isTagWord name = true) (q : List Char) :
    endTagToken (name ++ '>' :: q) = (.endTag (lowerName name), some q) := by
  rw [isTagWord, Bool.and_eq_true] at hname
  have htag : tagNameOf (name ++ '>' :: q) = (name.map fun c => (mend c).toLower, '>' :: q) := by
    rw [tagNameOf, span_append_of (List.all_eq_true.mp hname.2)]
    intro c hc
    cases hc
    rfl
  rw [endTagToken, htag]
  rfl

/-- **The next token** is the end tag that is written. -/
theorem readsAs_endTagText {name : List Char} (hname : isTagWord name = true) :
    ReadsAs (endTagText name) (.endTag (lowerName name)) := by
  have htag := endTagToken_text hname []
  cases name with
  | nil => cases hname
  | cons c name =>
    rw [isTagWord, Bool.and_eq_true] at hname
    exact readsAs_endTag hname.1 htag

/-! ## Comments -/

/-- A text with `word` at its head has it there without `q`, or ends in the word. -/
theorem starts_or_ends (word : List Char) {more : List Char} (h : cs ++ q = word ++ more) :
    (∃ tail, cs = word ++ tail) ∨ cs ∈ word.inits := by
  rcases List.prefix_or_prefix_of_prefix (List.prefix_append cs q) ⟨more, h.symm⟩ with h | h
  · exact .inr ((List.mem_inits cs word).mpr h)
  · exact .inl (h.imp fun _ => Eq.symm)

/-- What is behind a comment makes no difference to it. -/
theorem commentText_append {seen text : List Char} (h : commentText seen cs = (text, some rest)) :
    commentText seen (cs ++ q) = (text, some (rest ++ q)) := by
  induction cs generalizing seen with
  | nil => cases h
  | cons c cs ih =>
    unfold commentText at h
    split at h
    · rename_i heq
      cases heq
    · rename_i heq
      obtain ⟨rfl, rfl⟩ := List.cons.inj heq
      cases h
      rfl
    · rename_i heq
      obtain ⟨rfl, rfl⟩ := List.cons.inj heq
      cases h
      rfl
    · rename_i d ds hshort hlong heq
      obtain ⟨rfl, rfl⟩ := List.cons.inj heq
      -- the end of a comment is not cut by the end of the text, or the comment would have no end
      have hmore : commentText seen (c :: (cs ++ q)) = commentText (c :: seen) (cs ++ q) := by
        rw [commentText]
        · rintro more rfl heq
          rcases starts_or_ends ['-', '>'] heq with ⟨tail, rfl⟩ | hmem
          · exact hshort tail rfl rfl
          · simp only [List.inits, List.map, List.mem_cons, List.not_mem_nil, or_false] at hmem
            rcases hmem with rfl | rfl | rfl
            · cases h
            · cases h
            · exact hshort [] rfl rfl
        · rintro more rfl heq
          rcases starts_or_ends ['-', '!', '>'] heq with ⟨tail, rfl⟩ | hmem
          · exact hlong tail rfl rfl
          · simp only [List.inits, List.map, List.mem_cons, List.not_mem_nil, or_false] at hmem
            rcases hmem with rfl | rfl | rfl | rfl
            · cases h
            · cases h
            · cases h
            · exact hlong [] rfl rfl
      rw [List.cons_append, hmore, ih h]

theorem commentToken_eq (hbracket : ∀ tail, cs ≠ '>' :: tail)
    (hdash : ∀ tail, cs ≠ '-' :: '>' :: tail) :
    commentToken cs = (.comment ((commentText [] cs).1.map mend), (commentText [] cs).2) :=
  commentToken.eq_3 cs hbracket hdash

/-- **What is behind a comment** is left alone. -/
theorem commentToken_append {t : Token} (h : commentToken cs = (t, some rest)) :
    commentToken (cs ++ q) = (t, some (rest ++ q)) := by
  unfold commentToken at h
  split at h
  · cases h
    rfl
  · cases h
    rfl
  · rename_i hbracket hdash
    rw [commentToken_eq]
    · cases htext : commentText [] cs with
      | mk text found =>
        rw [htext] at h
        obtain ⟨rfl, hfound⟩ := Prod.mk.inj h
        subst hfound
        rw [commentText_append htext]
    · intro more heq
      rcases starts_or_ends ['>'] heq with ⟨tail, rfl⟩ | hmem
      · exact hbracket tail rfl
      · simp only [List.inits, List.map, List.mem_cons, List.not_mem_nil, or_false] at hmem
        rcases hmem with rfl | rfl
        · cases h
        · exact hbracket [] rfl
    · intro more heq
      rcases starts_or_ends ['-', '>'] heq with ⟨tail, rfl⟩ | hmem
      · exact hdash tail rfl
      · simp only [List.inits, List.map, List.mem_cons, List.not_mem_nil, or_false] at hmem
        rcases hmem with rfl | rfl | rfl
        · cases h
        · cases h
        · exact hdash [] rfl

/-- Whether a comment has its end behind the text, and nowhere else. -/
def isCommentText (cs : List Char) : Bool :=
  cs.head? != some '>' && cs.take 2 != ['-', '>'] &&
    commentText [] (cs ++ "-->".toList) == (cs, some [])

/-- A comment, as it is written. -/
def writtenComment (cs : List Char) : List Char := "<!--".toList ++ (cs ++ "-->".toList)

theorem commentToken_text (h : isCommentText cs = true) :
    commentToken (cs ++ "-->".toList) = (.comment (cs.map mend), some []) := by
  simp only [isCommentText, Bool.and_eq_true, bne_iff_ne, beq_iff_eq] at h
  obtain ⟨⟨hbracket, hdash⟩, htext⟩ := h
  rw [commentToken_eq, htext]
  · rintro tail heq
    cases cs with
    | nil => cases heq
    | cons c cs => exact hbracket (congrArg some (List.cons.inj heq).1)
  · rintro tail heq
    match cs, heq with
    | [], heq => cases heq
    | [c], heq => cases heq
    | c :: d :: cs, heq =>
      obtain ⟨rfl, hrest⟩ := List.cons.inj heq
      exact hdash (by rw [(List.cons.inj hrest).1]; rfl)

/-- **A comment** that is complete. -/
theorem readsAs_comment (h : isCommentText cs = true) :
    ReadsAs (writtenComment cs) (.comment (cs.map mend)) := by
  have htoken := commentToken_text h
  have hstep : ∀ alone ds, step .markup false alone ('<' :: '!' :: '-' :: '-' :: ds) =
      .ofToken (commentToken ds) := fun _ _ => rfl
  intro src rest hsrc
  refine next_piece hsrc (fun p more hp hmore => ?_) fun q => ?_
  · -- a part of the opening, or of the comment behind it
    change '<' :: '!' :: '-' :: '-' :: (cs ++ "-->".toList) = p ++ more at hp
    match p, hp with
    | [], _ => rfl
    | [_], hp =>
      obtain ⟨rfl, -⟩ := List.cons.inj hp
      rfl
    | [_, _], hp =>
      simp only [List.cons_append, List.cons.injEq] at hp
      obtain ⟨rfl, rfl, -⟩ := hp
      rfl
    | [_, _, _], hp =>
      simp only [List.cons_append, List.cons.injEq] at hp
      obtain ⟨rfl, rfl, rfl, -⟩ := hp
      rfl
    | _ :: _ :: _ :: _ :: p, hp =>
      simp only [List.cons_append, List.cons.injEq] at hp
      obtain ⟨rfl, rfl, rfl, rfl, hp⟩ := hp
      rw [hp] at htoken
      have hnone : (commentToken p).2 = none := none_of_part commentToken_append htoken hmore
      rw [hstep]
      show (commentToken p).2.isNone = true
      rw [hnone]
      rfl
  · show step .markup false src.alone ('<' :: '!' :: '-' :: '-' :: (cs ++ "-->".toList ++ q)) = _
    rw [hstep, commentToken_append htoken]
    rfl

end Componentry.Markup
