import Componentry.Markup.Token
import Componentry.Proofs.Markup.Escaping

/-!
# Tags that writing leaves

What is behind a tag makes no difference to it once the tag is complete. So it is enough to read the
tags that writing a tree leaves by themselves.

- `attributes?_append`: **text behind the attributes** is left alone.
- `startTagToken_append`, `endTagToken_append`: so it is with tags.
- `attributesUpTo?_written`: **attributes**, as writing leaves them.
- `startTagToken_written`, `endTagToken_written`: **tags**, as writing leaves them.
-/

namespace Componentry.Markup

open Componentry.Text (isMarkupSpace)

/-! ## Text behind a tag -/

variable {cs q rest : List Char} {p : Char → Bool}

/-- Where a run ends, text further on makes no difference. -/
theorem takeWhile_append_of_rest (hrest : cs.dropWhile p ≠ []) :
    (cs ++ q).takeWhile p = cs.takeWhile p ∧ (cs ++ q).dropWhile p = cs.dropWhile p ++ q := by
  induction cs with
  | nil => exact absurd rfl hrest
  | cons c cs ih =>
    rw [List.cons_append, List.takeWhile_cons, List.dropWhile_cons, List.takeWhile_cons,
      List.dropWhile_cons]
    cases hp : p c with
    | false => exact ⟨rfl, rfl⟩
    | true =>
      rw [List.dropWhile_cons, hp] at hrest
      obtain ⟨htake, hdrop⟩ := ih hrest
      exact ⟨congrArg (c :: ·) htake, hdrop⟩

theorem span_append (hrest : (cs.span p).2 ≠ []) :
    (cs ++ q).span p = ((cs.span p).1, (cs.span p).2 ++ q) := by
  rw [List.span_eq_takeWhile_dropWhile] at hrest
  obtain ⟨htake, hdrop⟩ := takeWhile_append_of_rest (q := q) hrest
  rw [List.span_eq_takeWhile_dropWhile, List.span_eq_takeWhile_dropWhile, htake, hdrop]

theorem dropSpaces_append {c : Char} (h : dropSpaces cs = c :: rest) :
    dropSpaces (cs ++ q) = c :: (rest ++ q) := by
  rw [dropSpaces] at h
  rw [dropSpaces, (takeWhile_append_of_rest (by rw [h]; exact nofun)).2, h]
  rfl

/-- A value that is there, quoted or not. -/
theorem attributeValue?_cons {c : Char} (h : dropSpaces cs = c :: rest) (hc : c ≠ '>') :
    attributeValue? cs =
      if c = '"' ∨ c = '\'' then
        match rest.span (· != c) with
        | (_, []) => none
        | (value, _ :: rest) => some (value, rest)
      else some ((c :: rest).span fun c => !(isMarkupSpace c || c == '>')) := by
  unfold attributeValue?
  rw [h]
  split
  · rename_i heq
    cases heq
  · rename_i heq
    cases heq
    exact absurd rfl hc
  · rename_i heq
    cases heq
    rfl

theorem attributeValue?_append {value : List Char} (h : attributeValue? cs = some (value, rest))
    (hrest : rest ≠ []) : attributeValue? (cs ++ q) = some (value, rest ++ q) := by
  cases hspaces : dropSpaces cs with
  | nil =>
    rw [attributeValue?, hspaces] at h
    cases h
  | cons c tail =>
    have hmore := dropSpaces_append (q := q) hspaces
    by_cases hbracket : c = '>'
    · subst hbracket
      rw [attributeValue?, hspaces] at h
      cases h
      rw [attributeValue?, hmore]
      rfl
    · rw [attributeValue?_cons hspaces hbracket] at h
      rw [attributeValue?_cons hmore hbracket]
      by_cases hquote : c = '"' ∨ c = '\''
      · rw [if_pos hquote] at h ⊢
        cases hspan : tail.span (· != c) with
        | mk run behind =>
          rw [hspan] at h
          cases behind with
          | nil => cases h
          | cons d behind =>
            cases h
            rw [span_append (by rw [hspan]; exact nofun), hspan]
            rfl
      · rw [if_neg hquote] at h ⊢
        have hspan := Option.some.inj h
        rw [← List.cons_append, span_append (by rw [hspan]; exact hrest), hspan]

/-- At the end of the input there is no tag. -/
theorem attributesUpTo?_nil (n : Nat) (attrs : List (String × String)) :
    attributesUpTo? n attrs [] = none := by
  cases n <;> rfl

/-- What comes behind the name of an attribute, up to the end of the tag. -/
def attributesAfter? (n : Nat) (attrs : List (String × String)) (name : List Char)
    (cs : List Char) : Option (List (String × String) × Bool × List Char) :=
  match dropSpaces cs with
  | '=' :: rest =>
    match attributeValue? rest with
    | none => none
    | some (value, rest) => attributesUpTo? n (addAttribute attrs name value) rest
  | rest => attributesUpTo? n (addAttribute attrs name []) rest

/-- A character of the name of an attribute. -/
def inAttrName (c : Char) : Bool := !(endsTagName c || c == '=')

theorem attributesUpTo?_attr {n : Nat} {attrs : List (String × String)} {c : Char}
    (h : dropSpaces cs = c :: rest) (hbracket : c ≠ '>') (hslash : c ≠ '/') :
    attributesUpTo? (n + 1) attrs cs =
      attributesAfter? n attrs (c :: (rest.span inAttrName).1) (rest.span inAttrName).2 := by
  rw [attributesUpTo?, h]
  split
  · rename_i heq
    cases heq
  · rename_i heq
    cases heq
    exact absurd rfl hbracket
  · rename_i heq
    cases heq
    exact absurd rfl hslash
  · rename_i heq
    cases heq
    exact absurd rfl hslash
  · rename_i heq
    cases heq
    rfl

/-- A slash that closes no tag is passed over. -/
theorem attributesUpTo?_slash {n : Nat} {attrs : List (String × String)} {c : Char}
    (h : dropSpaces cs = '/' :: c :: rest) (hc : c ≠ '>') :
    attributesUpTo? (n + 1) attrs cs = attributesUpTo? n attrs (c :: rest) := by
  rw [attributesUpTo?, h]
  split
  · rename_i heq
    cases heq
  · rename_i heq
    cases heq
  · rename_i heq
    cases heq
    exact absurd rfl hc
  · rename_i heq
    cases heq
    rfl
  · rename_i hslash heq
    exact (hslash (List.cons.inj heq).1.symm).elim

/-- An attribute with a value. -/
theorem attributesAfter?_value {n : Nat} {attrs : List (String × String)} {name : List Char}
    (h : dropSpaces cs = '=' :: rest) :
    attributesAfter? n attrs name cs = (attributeValue? rest).bind fun v =>
      attributesUpTo? n (addAttribute attrs name v.1) v.2 := by
  rw [attributesAfter?, h]
  show (match attributeValue? rest with
    | none => none
    | some (value, rest) => attributesUpTo? n (addAttribute attrs name value) rest) = _
  cases attributeValue? rest <;> rfl

/-- An attribute without a value. -/
theorem attributesAfter?_bare {n : Nat} {attrs : List (String × String)} {name : List Char}
    {c : Char} (h : dropSpaces cs = c :: rest) (hc : c ≠ '=') :
    attributesAfter? n attrs name cs =
      attributesUpTo? n (addAttribute attrs name []) (c :: rest) := by
  rw [attributesAfter?, h]
  split
  · rename_i hcons
    cases hcons
    exact absurd rfl hc
  · rfl

theorem attributesAfter?_append {n m : Nat} {attrs res : List (String × String)}
    {name : List Char} {closes : Bool}
    (h : attributesAfter? n attrs name cs = some (res, closes, rest))
    (ih : ∀ {attrs cs}, attributesUpTo? n attrs cs = some (res, closes, rest) →
      attributesUpTo? m attrs (cs ++ q) = some (res, closes, rest ++ q)) :
    attributesAfter? m attrs name (cs ++ q) = some (res, closes, rest ++ q) := by
  have hsome : ∀ {attrs : List (String × String)},
      attributesUpTo? n attrs [] ≠ some (res, closes, rest) := fun h => by
    rw [attributesUpTo?_nil] at h
    cases h
  cases hspaces : dropSpaces cs with
  | nil =>
    rw [attributesAfter?, hspaces] at h
    exact absurd h hsome
  | cons c tail =>
    have hmore := dropSpaces_append (q := q) hspaces
    by_cases heq : c = '='
    · subst heq
      rw [attributesAfter?_value hspaces, Option.bind_eq_some_iff] at h
      obtain ⟨⟨value, behind⟩, hvalue, h⟩ := h
      have hbehind : behind ≠ [] := fun hnil => hsome (hnil ▸ h)
      rw [attributesAfter?_value hmore, attributeValue?_append hvalue hbehind]
      exact ih h
    · rw [attributesAfter?_bare hspaces heq] at h
      rw [attributesAfter?_bare hmore heq]
      exact ih h

/-- **Text behind the attributes** is left alone. -/
theorem attributesUpTo?_append {n m : Nat} {attrs res : List (String × String)} {closes : Bool}
    (h : attributesUpTo? n attrs cs = some (res, closes, rest)) (hnm : n ≤ m) :
    attributesUpTo? m attrs (cs ++ q) = some (res, closes, rest ++ q) := by
  induction n generalizing m attrs cs with
  | zero => cases h
  | succ n ih =>
    obtain ⟨m, rfl⟩ : ∃ k, m = k + 1 := ⟨m - 1, by omega⟩
    have hnm : n ≤ m := Nat.le_of_succ_le_succ hnm
    cases hspaces : dropSpaces cs with
    | nil =>
      rw [attributesUpTo?, hspaces] at h
      cases h
    | cons c tail =>
      have hmore := dropSpaces_append (q := q) hspaces
      by_cases hbracket : c = '>'
      · subst hbracket
        rw [attributesUpTo?, hspaces] at h
        rw [attributesUpTo?, hmore]
        cases h
        rfl
      by_cases hslash : c = '/'
      · subst hslash
        cases tail with
        | nil =>
          rw [attributesUpTo?, hspaces] at h
          change attributesUpTo? n attrs [] = _ at h
          rw [attributesUpTo?_nil] at h
          cases h
        | cons d tail =>
          by_cases hd : d = '>'
          · subst hd
            rw [attributesUpTo?, hspaces] at h
            rw [attributesUpTo?, hmore]
            cases h
            rfl
          · rw [attributesUpTo?_slash hspaces hd] at h
            rw [attributesUpTo?_slash hmore hd]
            exact ih h hnm
      · rw [attributesUpTo?_attr hspaces hbracket hslash] at h
        rw [attributesUpTo?_attr hmore hbracket hslash]
        -- the name ends before the text does, or nothing could be read
        have hname : (tail.span inAttrName).2 ≠ [] := by
          intro hnil
          rw [hnil] at h
          change attributesUpTo? n (addAttribute attrs _ []) [] = _ at h
          rw [attributesUpTo?_nil] at h
          cases h
        rw [span_append hname]
        exact attributesAfter?_append h fun h => ih h hnm

theorem attributes?_append {res : List (String × String)} {closes : Bool}
    (h : attributes? cs = some (res, closes, rest)) :
    attributes? (cs ++ q) = some (res, closes, rest ++ q) :=
  attributesUpTo?_append h (by rw [List.length_append]; omega)

/-- A complete start tag or end tag is the same with text behind it. -/
theorem tagNameOf_append (hrest : (tagNameOf cs).2 ≠ []) :
    tagNameOf (cs ++ q) = ((tagNameOf cs).1, (tagNameOf cs).2 ++ q) := by
  have hspan : (cs ++ q).span (!endsTagName ·) =
      ((cs.span (!endsTagName ·)).1, (cs.span (!endsTagName ·)).2 ++ q) := span_append hrest
  rw [tagNameOf, hspan]
  rfl

theorem attributes?_tagNameOf_append {res : List (String × String)} {closes : Bool}
    (h : attributes? (tagNameOf cs).2 = some (res, closes, rest)) :
    (tagNameOf (cs ++ q)).1 = (tagNameOf cs).1 ∧
      attributes? (tagNameOf (cs ++ q)).2 = some (res, closes, rest ++ q) := by
  have hrest : (tagNameOf cs).2 ≠ [] := by
    intro hnil
    rw [hnil] at h
    cases h
  rw [tagNameOf_append hrest]
  exact ⟨rfl, attributes?_append h⟩

/-- **Text behind a start tag** is left alone. -/
theorem startTagToken_append {t : Token} (h : startTagToken cs = (t, some rest)) :
    startTagToken (cs ++ q) = (t, some (rest ++ q)) := by
  rw [startTagToken] at h
  cases hattrs : attributes? (tagNameOf cs).2 with
  | none =>
    dsimp only at h
    rw [hattrs] at h
    cases h
  | some found =>
    obtain ⟨attrs, closes, behind⟩ := found
    dsimp only at h
    rw [hattrs] at h
    cases h
    obtain ⟨hname, hmore⟩ := attributes?_tagNameOf_append (q := q) hattrs
    rw [startTagToken]
    dsimp only
    rw [hmore, hname]

/-- **Text behind an end tag** is left alone. -/
theorem endTagToken_append {t : Token} (h : endTagToken cs = (t, some rest)) :
    endTagToken (cs ++ q) = (t, some (rest ++ q)) := by
  rw [endTagToken] at h
  cases hattrs : attributes? (tagNameOf cs).2 with
  | none =>
    dsimp only at h
    rw [hattrs] at h
    cases h
  | some found =>
    obtain ⟨attrs, closes, behind⟩ := found
    dsimp only at h
    rw [hattrs] at h
    cases h
    obtain ⟨hname, hmore⟩ := attributes?_tagNameOf_append (q := q) hattrs
    rw [endTagToken]
    dsimp only
    rw [hmore, hname]

/-! ## Tags as they are written -/

/-- A character that is read as it stands. -/
def isKept (c : Char) : Bool := c != '\x00' && c != '\r'

/-- A character of a name that is read as it stands. -/
def isNameChar (c : Char) : Bool := !endsTagName c && c.toLower == c && c != '\x00'

/-- A name that is read as the name of a tag, as it stands. -/
def isTagName (name : String) : Bool :=
  (name.toList.head?.any Char.isAlpha) && name.toList.all isNameChar

/-- A name that is read as the name of an attribute, as it stands. -/
def isAttrName (name : String) : Bool :=
  !name.toList.isEmpty && name.toList.all fun c => isNameChar c && c != '='

/-- Attributes that are read as they stand: their names differ, and their values have neither the
character with number zero nor a return. -/
def areAttrs (attrs : List (String × String)) : Bool :=
  attrs.all (fun a => isAttrName a.1 && a.2.toList.all isKept) && (attrs.map (·.1)).Nodup

theorem mend_of_isKept {c : Char} (h : isKept c = true) : mend c = c := by
  simp only [isKept, Bool.and_eq_true, bne_iff_ne] at h
  rw [mend, if_neg (by simpa using h.1), if_neg (by simpa using h.2)]

theorem isNameChar_iff {c : Char} :
    isNameChar c = true ↔ endsTagName c = false ∧ c.toLower = c ∧ c ≠ '\x00' := by
  simp [isNameChar, and_assoc]

theorem isKept_of_isNameChar {c : Char} (h : isNameChar c = true) : isKept c = true := by
  obtain ⟨hends, -, hzero⟩ := isNameChar_iff.mp h
  have hreturn : c ≠ '\r' := by
    rintro rfl
    cases hends
  simp [isKept, hzero, hreturn]

/-- A name is read as it stands. -/
theorem map_mend_toLower {name : List Char} (h : ∀ c ∈ name, isNameChar c = true) :
    (name.map fun c => (mend c).toLower) = name := by
  refine (List.map_congr_left fun c hc => ?_).trans (List.map_id name)
  rw [mend_of_isKept (isKept_of_isNameChar (h c hc))]
  exact (isNameChar_iff.mp (h c hc)).2.1

theorem tagNameOf_written {name : List Char} (h : ∀ c ∈ name, isNameChar c = true) {c : Char}
    (hc : endsTagName c = true) (rest : List Char) : tagNameOf (name ++ c :: rest) = (name, c :: rest) := by
  have hall : ∀ c ∈ name, (!endsTagName c) = true := fun c hc => by
    rw [(isNameChar_iff.mp (h c hc)).1]
    rfl
  rw [tagNameOf, List.span_eq_takeWhile_dropWhile, List.takeWhile_append_of_pos hall,
    List.dropWhile_append_of_pos hall, List.takeWhile_cons, List.dropWhile_cons, hc]
  simp only [Bool.not_true, Bool.false_eq_true, if_false, List.append_nil, map_mend_toLower h]

/-- An attribute as it is written. -/
def writtenAttr (a : String × String) : List Char :=
  ' ' :: (a.1.toList ++ '=' :: '"' :: (a.2.toList.flatMap VNode.escapeAttrChar ++ ['"']))

/-- What is said of the characters of a value, and of the references that escaping writes, is said of
the escaped value. -/
theorem forall_mem_escaped {p : Char → Bool} {cs : List Char}
    (hrefs : "&amp;&quot;".toList.all p = true) (h : ∀ c ∈ cs, c ≠ '"' → p c = true) :
    ∀ c ∈ cs.flatMap VNode.escapeAttrChar, p c = true := by
  intro c hc
  replace hrefs := List.all_eq_true.mp hrefs
  obtain ⟨d, hdcs, hd⟩ := List.mem_flatMap.mp hc
  rw [VNode.escapeAttrChar] at hd
  by_cases hamp : d = '&'
  · rw [if_pos hamp] at hd
    exact hrefs c (List.mem_append_left "&quot;".toList hd)
  · by_cases hquot : d = '"'
    · rw [if_neg hamp, if_pos hquot] at hd
      exact hrefs c (List.mem_append_right "&amp;".toList hd)
    · rw [if_neg hamp, if_neg hquot, List.mem_singleton] at hd
      rw [hd]
      exact h d hdcs hquot

theorem addAttribute_written {acc : List (String × String)} {a : String × String}
    (hname : isAttrName a.1 = true) (hvalue : a.2.toList.all isKept = true)
    (hnew : ∀ b ∈ acc, b.1 ≠ a.1) :
    addAttribute acc a.1.toList (a.2.toList.flatMap VNode.escapeAttrChar) = acc ++ [a] := by
  have hchars : ∀ c ∈ a.1.toList, isNameChar c = true := by
    simp only [isAttrName, Bool.and_eq_true, List.all_eq_true] at hname
    exact fun c hc => (hname.2 c hc).1
  have hkept := forall_mem_escaped (p := isKept) (by decide)
    fun c hc _ => List.all_eq_true.mp hvalue c hc
  have hmend : (a.2.toList.flatMap VNode.escapeAttrChar).map mend =
      a.2.toList.flatMap VNode.escapeAttrChar :=
    (List.map_congr_left fun c hc => mend_of_isKept (hkept c hc)).trans (List.map_id _)
  have hnone : (acc.any (·.1 == a.1)) = false := by
    rw [List.any_eq_false]
    intro b hb
    simpa using hnew b hb
  rw [addAttribute, map_mend_toLower hchars, String.ofList_toList, hnone, hmend,
    Reference.decode_escaped, String.ofList_toList]
  rfl

/-- One attribute, as it is written. -/
theorem attributesUpTo?_next {acc : List (String × String)} {a : String × String} {n : Nat}
    (hname : isAttrName a.1 = true) (hvalue : a.2.toList.all isKept = true)
    (hnew : ∀ b ∈ acc, b.1 ≠ a.1) :
    attributesUpTo? (n + 1) acc (writtenAttr a ++ cs) = attributesUpTo? n (acc ++ [a]) cs := by
  have hchars : a.1.toList ≠ [] ∧ ∀ c ∈ a.1.toList, isNameChar c = true ∧ c ≠ '=' := by
    simpa [isAttrName, List.all_eq_true] using hname
  obtain ⟨hne, hchars⟩ := hchars
  obtain ⟨c, more, hcm⟩ := List.exists_cons_of_ne_nil hne
  rw [hcm] at hchars
  obtain ⟨hc, hmore⟩ := List.forall_mem_cons.mp hchars
  have hends := (isNameChar_iff.mp hc.1).1
  simp only [endsTagName, Bool.or_eq_false_iff, beq_eq_false_iff_ne] at hends
  have hadd := addAttribute_written hname hvalue hnew
  have hquotes : ∀ c ∈ a.2.toList.flatMap VNode.escapeAttrChar, (c != '"') = true :=
    forall_mem_escaped (p := fun c => c != '"') (by decide) fun c _ hc => bne_iff_ne.mpr hc
  rw [writtenAttr]
  generalize a.2.toList.flatMap VNode.escapeAttrChar = value at hadd hquotes ⊢
  -- first the name, up to the equals sign
  have hspaces : dropSpaces (' ' :: (a.1.toList ++ '=' :: '"' :: (value ++ ['"'])) ++ cs) =
      c :: (more ++ '=' :: '"' :: (value ++ '"' :: cs)) := by
    rw [hcm, dropSpaces, List.cons_append, List.dropWhile_cons, if_pos (by decide)]
    simp [hends.1.1]
  have hmoreName : ∀ d ∈ more, inAttrName d = true := fun d hd => by
    obtain ⟨hdname, hdeq⟩ := hmore d hd
    rw [inAttrName, (isNameChar_iff.mp hdname).1, beq_false_of_ne hdeq]
    rfl
  have hspan : (more ++ '=' :: '"' :: (value ++ '"' :: cs)).span inAttrName =
      (more, '=' :: '"' :: (value ++ '"' :: cs)) := by
    rw [List.span_eq_takeWhile_dropWhile, List.takeWhile_append_of_pos hmoreName,
      List.dropWhile_append_of_pos hmoreName, List.takeWhile_cons, List.dropWhile_cons]
    simp [inAttrName]
  -- then the value, up to the quote
  have hquote : dropSpaces ('"' :: (value ++ '"' :: cs)) = '"' :: (value ++ '"' :: cs) := rfl
  have hequals : dropSpaces ('=' :: '"' :: (value ++ '"' :: cs)) =
      '=' :: '"' :: (value ++ '"' :: cs) := rfl
  have hread : attributeValue? ('"' :: (value ++ '"' :: cs)) = some (value, cs) := by
    rw [attributeValue?_cons hquote (by decide),
      if_pos (.inl rfl), List.span_eq_takeWhile_dropWhile, List.takeWhile_append_of_pos hquotes,
      List.dropWhile_append_of_pos hquotes]
    simp
  rw [attributesUpTo?_attr hspaces hends.2 hends.1.2, hspan,
    attributesAfter?_value hequals, hread, Option.bind_some,
    ← hcm, hadd]

/-- **Attributes**, as they are written. -/
theorem attributesUpTo?_written {attrs acc : List (String × String)} {n : Nat}
    (hattrs : areAttrs attrs = true) (hnew : ∀ a ∈ attrs, ∀ b ∈ acc, b.1 ≠ a.1)
    (hn : attrs.length < n) :
    attributesUpTo? n acc (attrs.flatMap writtenAttr ++ ['>']) = some (acc ++ attrs, false, []) := by
  induction attrs generalizing acc n with
  | nil =>
    obtain ⟨n, rfl⟩ : ∃ k, n = k + 1 := ⟨n - 1, by omega⟩
    rw [List.append_nil]
    rfl
  | cons a attrs ih =>
    obtain ⟨n, rfl⟩ : ∃ k, n = k + 1 := ⟨n - 1, by omega⟩
    simp only [areAttrs, List.all_cons, List.map_cons, List.nodup_cons, Bool.and_eq_true,
      decide_eq_true_eq] at hattrs
    obtain ⟨⟨⟨hname, hvalue⟩, hall⟩, hnotin, hnodup⟩ := hattrs
    have hrest : areAttrs attrs = true := by
      simp only [areAttrs, Bool.and_eq_true, decide_eq_true_eq]
      exact ⟨hall, hnodup⟩
    rw [List.flatMap_cons, List.append_assoc,
      attributesUpTo?_next hname hvalue (hnew a List.mem_cons_self),
      ih hrest ?_ (Nat.lt_of_succ_lt_succ hn), List.append_assoc]
    · rfl
    · intro b hb d hd
      rcases List.mem_append.mp hd with hd | hd
      · exact hnew b (List.mem_cons_of_mem a hb) d hd
      · rw [List.mem_singleton.mp hd]
        exact fun heq => hnotin (heq ▸ List.mem_map_of_mem hb)

theorem attributes?_written {attrs : List (String × String)} (hattrs : areAttrs attrs = true) :
    attributes? (attrs.flatMap writtenAttr ++ ['>']) = some (attrs, false, []) := by
  refine attributesUpTo?_written hattrs (fun _ _ b hb => by cases hb) (Nat.lt_succ_of_le ?_)
  -- an attribute has one character at least
  rw [List.length_append]
  refine Nat.le_add_right_of_le ?_
  clear hattrs
  induction attrs with
  | nil => exact Nat.le_refl 0
  | cons a attrs ih =>
    rw [List.flatMap_cons, List.length_append, List.length_cons, writtenAttr, List.length_cons]
    omega

/-- What is written after the name of a start tag ends the name. -/
theorem written_cons (attrs : List (String × String)) :
    ∃ c rest, attrs.flatMap writtenAttr ++ ['>'] = c :: rest ∧ endsTagName c = true := by
  cases attrs with
  | nil => exact ⟨'>', [], rfl, rfl⟩
  | cons a attrs =>
    exact ⟨' ', _, by rw [List.flatMap_cons, writtenAttr]; rfl, rfl⟩

/-- **A start tag**, as it is written, and text behind it. -/
theorem startTagToken_written {name : String} {attrs : List (String × String)}
    (hname : isTagName name = true) (hattrs : areAttrs attrs = true) (q : List Char) :
    startTagToken (name.toList ++ (attrs.flatMap writtenAttr ++ ['>']) ++ q) =
      (.startTag name attrs false, some q) := by
  rw [isTagName, Bool.and_eq_true, List.all_eq_true] at hname
  obtain ⟨c, rest, hrest, hc⟩ := written_cons attrs
  have htag := tagNameOf_written hname.2 hc rest
  rw [← hrest] at htag
  have halone : startTagToken (name.toList ++ (attrs.flatMap writtenAttr ++ ['>'])) =
      (.startTag name attrs false, some []) := by
    rw [startTagToken, htag]
    dsimp only
    rw [attributes?_written hattrs, String.ofList_toList]
  exact startTagToken_append halone

/-- **An end tag**, as it is written, and text behind it. -/
theorem endTagToken_written {name : String} (hname : isTagName name = true) (q : List Char) :
    endTagToken (name.toList ++ ['>'] ++ q) = (.endTag name, some q) := by
  rw [isTagName, Bool.and_eq_true, List.all_eq_true] at hname
  have htag := tagNameOf_written hname.2 (c := '>') rfl []
  have halone : endTagToken (name.toList ++ ['>']) = (.endTag name, some []) := by
    rw [endTagToken, htag]
    dsimp only
    rw [show attributes? ['>'] = some ([], false, []) from rfl, String.ofList_toList]
  exact endTagToken_append halone

/-- A part of a tag is no tag. -/
theorem none_of_part {tag : List Char → Token × Option (List Char)} {t : Token} {p more : List Char}
    (happend : ∀ {cs q rest t}, tag cs = (t, some rest) → tag (cs ++ q) = (t, some (rest ++ q)))
    (h : tag (p ++ more) = (t, some [])) (hmore : more ≠ []) : (tag p).2 = none := by
  cases htag : tag p with
  | mk t' found =>
    cases found with
    | none => rfl
    | some rest =>
      rw [happend htag] at h
      exact absurd (List.append_eq_nil_iff.mp (Option.some.inj (Prod.mk.inj h).2)).2 hmore

end Componentry.Markup
