import Componentry.Proofs.Markup.Tags

/-!
# Tokens that writing leaves

A source is cut into blocks, and a token may begin in one block and end in another. Blocks are put
together until the token is complete, so where a tag is cut makes no difference. Text is read in
several runs.

- `Source.text`: what is still to be read.
- `nextFrom_eq`: the next tokens are those of the first step that comes to an end.
- `ReadsAs`: a text is read as a token, whatever is behind it.
- `readsAs_startTag`, `readsAs_endTag`: **tags that are complete** are.
- `next_startTag`, `next_endTag`: **the next token** is the tag that was written.
- `next_text`: it is a run of the text that was written.
-/

namespace Componentry.Markup

/-- The text that is still to be read. -/
def Source.text (src : Source) : List Char := src.front ++ src.later.flatten

variable {src : Source} {rest : List Char}

theorem Step.text_source (s : Step) (blocks : List (List Char)) :
    (s.source blocks).text = s.ahead ++ (s.rest ++ blocks.flatten) := by
  rw [Step.source]
  cases hahead : s.ahead with
  | nil => rfl
  | cons c ahead => rfl

theorem Step.alone_source (s : Step) (blocks : List (List Char)) :
    (s.source blocks).alone = s.alone := by
  rw [Step.source]
  split <;> rfl

/-- The next tokens are those of a step on so much of the text that the step comes to an end, or on
all of it. -/
theorem nextFrom_eq (model : TextModel) (foreign alone : Bool) (front : List Char)
    (later : List (List Char)) :
    ∃ p blocks, p ++ blocks.flatten = front ++ later.flatten ∧
      ((step model foreign alone p).cutOff = true → blocks = []) ∧
      Token.nextFrom model foreign alone front later =
        ((step model foreign alone p).tokens, (step model foreign alone p).source blocks) := by
  induction later generalizing front with
  | nil => exact ⟨front, [], rfl, fun _ => rfl, rfl⟩
  | cons block later ih =>
    cases hcut : (step model foreign alone front).cutOff with
    | true =>
      obtain ⟨p, blocks, htext, hend, hnext⟩ := ih (front ++ block)
      refine ⟨p, blocks, by rw [htext, List.flatten_cons, List.append_assoc], hend, ?_⟩
      rw [Token.nextFrom, hcut]
      exact hnext
    | false =>
      refine ⟨front, block :: later, rfl, fun h => ?_, ?_⟩
      · rw [hcut] at h
        cases h
      · rw [Token.nextFrom, hcut]
        rfl

/-! ## Tags -/

/-- **A piece of text** that is complete by itself, and is not read before it is complete. -/
theorem next_piece {piece : List Char} {ts : List Token} (hsrc : src.text = piece ++ rest)
    (hpart : ∀ p more, piece = p ++ more → more ≠ [] →
      (step .markup false src.alone p).cutOff = true)
    (hpiece : ∀ q, step .markup false src.alone (piece ++ q) = { tokens := ts, rest := q }) :
    ∃ src', Token.next .markup false src = (ts, src') ∧ src'.text = rest ∧
      src'.alone = false := by
  obtain ⟨p, blocks, htext, hend, hnext⟩ :=
    nextFrom_eq .markup false src.alone src.front src.later
  have hsplit : p ++ blocks.flatten = piece ++ rest := htext.trans hsrc
  obtain ⟨q, rfl, hrest⟩ : ∃ q, p = piece ++ q ∧ rest = q ++ blocks.flatten := by
    rcases List.append_eq_append_iff.mp hsplit with ⟨more, hmore, hblocks⟩ | ⟨q, hq, hrest⟩
    · -- a part of the piece would not do, and there is nothing else
      by_cases hnil : more = []
      · subst hnil
        exact ⟨[], by rw [hmore, List.append_nil, List.append_nil], hblocks.symm⟩
      · rw [hend (hpart p more hmore hnil)] at hblocks
        exact absurd (List.append_eq_nil_iff.mp hblocks.symm).1 hnil
    · exact ⟨q, hq, hrest⟩
  rw [hpiece] at hnext
  refine ⟨_, hnext, ?_, ?_⟩
  · rw [Step.text_source, hrest]
    rfl
  · rw [Step.alone_source]

theorem tagStep?_start {c : Char} (hc : c.isAlpha = true) (cs : List Char) :
    tagStep? false (c :: cs) = some (.ofToken (startTagToken (c :: cs))) := by
  have hne : ∀ d : Char, d.isAlpha = false → c ≠ d := fun d hd h => by
    rw [h, hd] at hc
    cases hc
  rw [tagStep?, if_pos hc]
  · exact fun h => absurd h (hne '/' rfl)
  · exact hne '!' rfl
  · exact hne '?' rfl
  · exact fun _ _ h => absurd h (hne '/' rfl)

theorem tagStep?_end {c : Char} (hc : c.isAlpha = true) (cs : List Char) :
    tagStep? false ('/' :: c :: cs) = some (.ofToken (endTagToken (c :: cs))) := by
  rw [tagStep?, if_pos hc]

/-- The name of a tag starts with a letter. -/
theorem isTagName_cons {name : String} (h : isTagName name = true) :
    ∃ c cs, name.toList = c :: cs ∧ c.isAlpha = true := by
  rw [isTagName, Bool.and_eq_true] at h
  cases hname : name.toList with
  | nil =>
    rw [hname] at h
    cases h.1
  | cons c cs =>
    rw [hname] at h
    exact ⟨c, cs, rfl, h.1⟩

/-- A start tag, as it is written. -/
def writtenStart (name : String) (attrs : List (String × String)) : List Char :=
  '<' :: (name.toList ++ (attrs.flatMap writtenAttr ++ ['>']))

/-- An end tag, as it is written. -/
def writtenEnd (name : String) : List Char := '<' :: '/' :: (name.toList ++ ['>'])

/-- The text is read as the token, whatever is behind it. -/
def ReadsAs (cs : List Char) (t : Token) : Prop :=
  ∀ (src : Source) (rest : List Char), src.text = cs ++ rest →
    ∃ src', Token.next .markup false src = ([t], src') ∧ src'.text = rest ∧ src'.alone = false

/-- **A start tag** that is complete. -/
theorem readsAs_startTag {c : Char} {body : List Char} {t : Token} (hc : c.isAlpha = true)
    (htag : startTagToken (c :: body) = (t, some [])) : ReadsAs ('<' :: c :: body) t := by
  intro src rest hsrc
  have hstep : ∀ alone cs, step .markup false alone ('<' :: c :: cs) =
      .ofToken (startTagToken (c :: cs)) := by
    intro alone cs
    rw [step, if_pos rfl, tagStep?_start hc]
  refine next_piece hsrc (fun p more hp hmore => ?_) fun q => ?_
  · -- a bracket by itself, or a part of the tag behind it
    match p, hp with
    | [], _ => rfl
    | ['<'], _ => rfl
    | _ :: _ :: p, hp =>
      simp only [List.cons_append, List.cons.injEq] at hp
      obtain ⟨rfl, rfl, hp⟩ := hp
      rw [hp] at htag
      have hnone : (startTagToken (c :: p)).2 = none :=
        none_of_part startTagToken_append htag hmore
      rw [hstep]
      show (startTagToken (c :: p)).2.isNone = true
      rw [hnone]
      rfl
  · have hfull := startTagToken_append (q := q) htag
    rw [List.cons_append] at hfull
    rw [List.cons_append, List.cons_append, hstep, hfull]
    rfl

/-- **An end tag** that is complete. -/
theorem readsAs_endTag {c : Char} {body : List Char} {t : Token} (hc : c.isAlpha = true)
    (htag : endTagToken (c :: body) = (t, some [])) : ReadsAs ('<' :: '/' :: c :: body) t := by
  intro src rest hsrc
  have hstep : ∀ alone cs, step .markup false alone ('<' :: '/' :: c :: cs) =
      .ofToken (endTagToken (c :: cs)) := by
    intro alone cs
    rw [step, if_pos rfl, tagStep?_end hc]
  refine next_piece hsrc (fun p more hp hmore => ?_) fun q => ?_
  · match p, hp with
    | [], _ => rfl
    | ['<'], _ => rfl
    | ['<', '/'], _ => rfl
    | _ :: _ :: _ :: p, hp =>
      simp only [List.cons_append, List.cons.injEq] at hp
      obtain ⟨rfl, rfl, rfl, hp⟩ := hp
      rw [hp] at htag
      have hnone : (endTagToken (c :: p)).2 = none := none_of_part endTagToken_append htag hmore
      rw [hstep]
      show (endTagToken (c :: p)).2.isNone = true
      rw [hnone]
      rfl
  · have hfull := endTagToken_append (q := q) htag
    rw [List.cons_append] at hfull
    rw [List.cons_append, List.cons_append, List.cons_append, hstep, hfull]
    rfl

/-- **The next token** is the start tag that was written. -/
theorem next_startTag {name : String} {attrs : List (String × String)}
    (hname : isTagName name = true) (hattrs : areAttrs attrs = true) :
    ReadsAs (writtenStart name attrs) (.startTag name attrs false) := by
  obtain ⟨c, cs, hcs, hc⟩ := isTagName_cons hname
  have htag := startTagToken_written hname hattrs []
  rw [List.append_nil, hcs] at htag
  rw [writtenStart, hcs]
  exact readsAs_startTag hc htag

/-- **The next token** is the end tag that was written. -/
theorem next_endTag {name : String} (hname : isTagName name = true) :
    ReadsAs (writtenEnd name) (.endTag name) := by
  obtain ⟨c, cs, hcs, hc⟩ := isTagName_cons hname
  have htag := endTagToken_written hname []
  rw [List.append_nil, hcs] at htag
  rw [writtenEnd, hcs]
  exact readsAs_endTag hc htag

/-! ## Text -/

/-- A character of text is escaped by a reference, or written as it is. -/
theorem escapeTextChar_cases (c : Char) :
    (∃ e ∈ escapeNames, e.2 = c ∧ VNode.escapeTextChar c = '&' :: (e.1 ++ [';'])) ∨
      c ≠ '&' ∧ c ≠ '<' ∧ VNode.escapeTextChar c = [c] := by
  rw [VNode.escapeTextChar]
  by_cases hamp : c = '&'
  · subst hamp
    exact .inl ⟨("amp".toList, '&'), by decide, rfl, rfl⟩
  by_cases hlt : c = '<'
  · subst hlt
    exact .inl ⟨("lt".toList, '<'), by decide, rfl, rfl⟩
  by_cases hgt : c = '>'
  · subst hgt
    exact .inl ⟨("gt".toList, '>'), by decide, rfl, rfl⟩
  rw [if_neg hamp, if_neg hlt, if_neg hgt]
  exact .inr ⟨hamp, hlt, rfl⟩

/-- Text as it is written, and the tag behind it. -/
def writtenText (t rest : List Char) : List Char := t.flatMap VNode.escapeTextChar ++ '<' :: rest

theorem writtenText_cons (c : Char) (t rest : List Char) :
    writtenText (c :: t) rest = VNode.escapeTextChar c ++ writtenText t rest := by
  rw [writtenText, List.flatMap_cons, List.append_assoc]
  rfl

theorem writtenText_ne_nil (t rest : List Char) : writtenText t rest ≠ [] := by
  rw [writtenText]
  exact List.append_ne_nil_of_right_ne_nil _ nofun

/-- The rules for text where tags may stand. -/
def bodyText : TextRules := ⟨true, true⟩

/-- Where a block ends, or starts with a character that ends a run, there is no run. -/
theorem span_of_stops {p behind t rest : List Char} (h : p ++ behind = writtenText t rest)
    (hstops : ∀ c ∈ p.head?, bodyText.stops c = true) :
    ∃ run later, t = run ++ later ∧ p.takeWhile (!bodyText.stops ·) = run ∧
      p.dropWhile (!bodyText.stops ·) ++ behind = writtenText later rest := by
  refine ⟨[], t, rfl, ?_, ?_⟩ <;> cases p with
  | nil => first | rfl | exact h
  | cons c p =>
    simp only [List.takeWhile_cons, List.dropWhile_cons, hstops c rfl]
    first | rfl | exact h

/-- As far as a block goes, a run is a part of the text that was written. -/
theorem span_writtenText {p behind t rest : List Char} (h : p ++ behind = writtenText t rest) :
    ∃ run later, t = run ++ later ∧ p.takeWhile (!bodyText.stops ·) = run ∧
      p.dropWhile (!bodyText.stops ·) ++ behind = writtenText later rest := by
  induction t generalizing p with
  | nil =>
    refine span_of_stops h fun c hc => ?_
    cases p with
    | nil => cases hc
    | cons d p =>
      cases hc
      cases (List.cons.inj h).1
      rfl
  | cons c t ih =>
    cases p with
    | nil => exact span_of_stops h fun d hd => by cases hd
    | cons d p =>
      have hcons := h
      rw [writtenText_cons] at hcons
      cases hstops : bodyText.stops d with
      | true =>
        refine span_of_stops h fun d' hd' => ?_
        cases hd'
        exact hstops
      | false =>
        rcases escapeTextChar_cases c with ⟨e, -, -, hesc⟩ | ⟨-, -, hesc⟩
        · -- a reference starts with a character that ends the run
          rw [hesc] at hcons
          rw [(List.cons.inj hcons).1] at hstops
          cases hstops
        · rw [hesc] at hcons
          obtain ⟨rfl, hrest⟩ := List.cons.inj hcons
          obtain ⟨run, later, rfl, htake, hdrop⟩ := ih hrest
          refine ⟨d :: run, later, rfl, ?_, ?_⟩
          · rw [List.takeWhile_cons, hstops, ← htake]
            rfl
          · rw [List.dropWhile_cons, hstops]
            exact hdrop

/-- A step on so much of the text that it comes to an end, where some text is left. -/
theorem exists_step (h : src.text ≠ []) (halone : src.alone = false) :
    ∃ c p blocks, c :: p ++ blocks.flatten = src.text ∧
      ((step .markup false false (c :: p)).cutOff = true → blocks = []) ∧
      Token.next .markup false src = ((step .markup false false (c :: p)).tokens,
        (step .markup false false (c :: p)).source blocks) := by
  obtain ⟨p, blocks, htext, hend, hnext⟩ :=
    nextFrom_eq .markup false src.alone src.front src.later
  rw [halone] at hend hnext
  cases p with
  | nil =>
    rw [hend rfl] at htext
    exact absurd htext.symm h
  | cons c p =>
    refine ⟨c, p, blocks, htext, hend, ?_⟩
    rw [Token.next, halone]
    exact hnext

/-- An escaped character is a run by itself. -/
theorem next_reference {c : Char} {t : List Char} {e : List Char × Char} (he : e ∈ escapeNames)
    (hesc : VNode.escapeTextChar c = '&' :: (e.1 ++ [';']))
    (hsrc : src.text = writtenText (c :: t) rest) (halone : src.alone = false) :
    ∃ src', Token.next .markup false src = ([.text [e.2]], src') ∧
      src'.text = writtenText t rest ∧ src'.alone = false := by
  have hne : src.text ≠ [] := hsrc ▸ writtenText_ne_nil _ _
  obtain ⟨d, p, blocks, htext, hend, hnext⟩ := exists_step hne halone
  rw [hsrc, writtenText_cons, hesc] at htext
  obtain ⟨rfl, hrest⟩ := List.cons.inj htext
  have hstep : ∀ p, step .markup false false ('&' :: p) =
      { tokens := (if (Reference.reading false p).flawed then [Token.malformed] else []) ++
          (Reference.reading false p).chars.map fun c => .text [c]
        ahead := (Reference.reading false p).ahead
        rest := (Reference.reading false p).rest
        cutOff := (Reference.reading false p).cutOff } := fun p => rfl
  -- the reference is there, and a character behind it
  have hnot : ¬p <+: e.1 ++ [';'] := by
    intro hp
    rw [hend (by rw [hstep]; exact Reference.cutOff_of_prefix he hp)] at hrest
    have hlength := congrArg List.length hrest
    have hle := hp.length_le
    have hpos := List.length_pos_iff.mpr (writtenText_ne_nil t rest)
    simp only [List.flatten_nil, List.append_eq, List.append_nil, List.length_append] at hlength hle
    omega
  obtain ⟨x, q, rfl, hq⟩ : ∃ x q, p = e.1 ++ ';' :: x :: q ∧
      writtenText t rest = x :: q ++ blocks.flatten := by
    rcases List.append_eq_append_iff.mp hrest with ⟨more, hmore, -⟩ | ⟨q, hq, hrest⟩
    · exact absurd ⟨more, hmore.symm⟩ hnot
    · cases q with
      | nil => exact absurd ⟨[], by rw [hq]; simp⟩ hnot
      | cons x q => exact ⟨x, q, by rw [hq, List.append_assoc]; rfl, hrest⟩
  rw [hstep, Reference.reading_closed false he] at hnext
  refine ⟨_, hnext, ?_, ?_⟩
  · rw [Step.text_source, hq]
    rfl
  · rw [Step.alone_source]

/-- A character that is written as it is starts a run. -/
theorem next_run {c : Char} {t : List Char} (hamp : c ≠ '&') (hlt : c ≠ '<')
    (hesc : VNode.escapeTextChar c = [c]) (hc : isKept c = true)
    (hsrc : src.text = writtenText (c :: t) rest) (halone : src.alone = false) :
    ∃ run later src', t = run ++ later ∧ Token.next .markup false src = ([.text (c :: run)], src') ∧
      src'.text = writtenText later rest ∧ src'.alone = false := by
  have hne : src.text ≠ [] := hsrc ▸ writtenText_ne_nil _ _
  obtain ⟨d, p, blocks, htext, -, hnext⟩ := exists_step hne halone
  rw [hsrc, writtenText_cons, hesc] at htext
  obtain ⟨rfl, hrest⟩ := List.cons.inj htext
  have hmend := mend_of_isKept hc
  simp only [isKept, Bool.and_eq_true, bne_iff_ne] at hc
  have hstep : step .markup false false (d :: p) =
      if bodyText.stops d then { tokens := [.text [mend d]], rest := p, alone := d == '\r' }
      else { tokens := [.text (d :: p.takeWhile (!bodyText.stops ·))]
             rest := p.dropWhile (!bodyText.stops ·) } := by
    rw [step, if_neg hlt, textStep, if_neg, if_neg, List.span_eq_takeWhile_dropWhile]
    · rfl
    · simp [hc.1]
    · simp [hamp]
  cases hstops : bodyText.stops d with
  | true =>
    rw [hstops, if_pos rfl, hmend, beq_false_of_ne hc.2] at hstep
    rw [hstep] at hnext
    refine ⟨[], t, _, rfl, hnext, ?_, ?_⟩
    · rw [Step.text_source]
      exact hrest
    · rw [Step.alone_source]
  | false =>
    rw [hstops, if_neg Bool.false_ne_true] at hstep
    obtain ⟨run, later, rfl, htake, hdrop⟩ := span_writtenText hrest
    rw [htake] at hstep
    rw [hstep] at hnext
    refine ⟨run, later, _, rfl, hnext, ?_, ?_⟩
    · rw [Step.text_source]
      exact hdrop
    · rw [Step.alone_source]

/-- **The next token** is a run of the text that was written; the rest of it is still to be read. -/
theorem next_text {t : List Char} (ht : t ≠ []) (hkept : ∀ c ∈ t, isKept c = true)
    (hsrc : src.text = writtenText t rest) (halone : src.alone = false) :
    ∃ run later src', t = run ++ later ∧ run ≠ [] ∧
      Token.next .markup false src = ([.text run], src') ∧
      src'.text = writtenText later rest ∧ src'.alone = false := by
  obtain ⟨c, t, rfl⟩ := List.exists_cons_of_ne_nil ht
  rcases escapeTextChar_cases c with ⟨e, he, rfl, hesc⟩ | ⟨hamp, hlt, hesc⟩
  · obtain ⟨src', hnext, htext, halone⟩ := next_reference he hesc hsrc halone
    exact ⟨[e.2], t, src', rfl, nofun, hnext, htext, halone⟩
  · obtain ⟨run, later, src', rfl, hnext, htext, halone⟩ :=
      next_run hamp hlt hesc (hkept c List.mem_cons_self) hsrc halone
    exact ⟨c :: run, later, src', rfl, nofun, hnext, htext, halone⟩

end Componentry.Markup
