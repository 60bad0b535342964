import Mathlib.Data.List.Infix
import Componentry.Template.Compile

/-!
# Texts and the expressions in them

A text is split at its expressions from the front. The first expression opens at the first opening
delimiter, has at least one character, and goes to the next closing delimiter. What is left when
there is no expression any more is the remainder, and only there an opening delimiter may be left.

- `Leftmost`, `leftmost_of_cutAt`, `cutAt_eq_none_iff`: **the first place** of a pattern in a text.
- `FirstExpression`, `nextExpression?_eq_some_iff`, `nextExpression?_eq_none_iff`: **the first
  expression** of a text.
- `Splits`, `splitText_splits`: **all of them**.
- `Splits.written_eq`: **nothing is lost**.
- `Splits.unique`: a text is split in one way only.
- `unclosedTexts_eq`, `unclosedMessages_compileDocument`: what is reported about a document.
- `text_interpolated`: how a text is split, what its parts are, and when it is reported.
-/

namespace Componentry.Template

variable {opening closing cs before source after rest : List Char}
  {pieces : List (List Char × List Char)}

/-! ## The first place of a pattern -/

/-- A text with a pattern in it, which is nowhere further to the front. -/
structure Leftmost (pattern cs before after : List Char) : Prop where
  text : cs = before ++ (pattern ++ after)
  first : ∀ {a b}, cs = a ++ (pattern ++ b) → before.length ≤ a.length

theorem Leftmost.unique {pattern before' after' : List Char}
    (h : Leftmost pattern cs before after) (h' : Leftmost pattern cs before' after') :
    before = before' ∧ after = after' := by
  have hlength : before.length = before'.length :=
    Nat.le_antisymm (h.first h'.text) (h'.first h.text)
  obtain ⟨hbefore, hrest⟩ := List.append_inj (h.text.symm.trans h'.text) hlength
  exact ⟨hbefore, List.append_cancel_left hrest⟩

/-- A pattern that is not at the front is further back, or nowhere. -/
theorem exists_tail_of_not_prefix {pattern a b : List Char} {c : Char}
    (hfront : ¬ pattern <+: c :: cs) (h : c :: cs = a ++ (pattern ++ b)) :
    ∃ a', a = c :: a' ∧ cs = a' ++ (pattern ++ b) := by
  cases a with
  | nil => exact absurd ⟨b, h.symm⟩ hfront
  | cons d a' =>
    obtain ⟨rfl, htail⟩ := List.cons.inj h
    exact ⟨a', rfl, htail⟩

theorem cutAt_spec (pattern cs : List Char) :
    (∀ before after, cutAt pattern cs = some (before, after) →
      Leftmost pattern cs before after) ∧
    (cutAt pattern cs = none → ∀ a b, cs ≠ a ++ (pattern ++ b)) := by
  induction cs with
  | nil =>
    rw [cutAt]
    split
    · rename_i hempty
      rw [List.isEmpty_iff] at hempty
      subst hempty
      refine ⟨fun before after h => ?_, fun h => nomatch h⟩
      obtain ⟨rfl, rfl⟩ := Prod.mk.inj (Option.some.inj h)
      exact ⟨rfl, fun _ => Nat.zero_le _⟩
    · rename_i hempty
      refine ⟨fun before after h => (nomatch h), fun _ a b heq => hempty ?_⟩
      have hnil := (List.append_eq_nil_iff.mp heq.symm).2
      exact List.isEmpty_iff.mpr (List.append_eq_nil_iff.mp hnil).1
  | cons c cs ih =>
    rw [cutAt]
    split
    · rename_i hfront
      refine ⟨fun before after h => ?_, fun h => nomatch h⟩
      obtain ⟨rfl, rfl⟩ := Prod.mk.inj (Option.some.inj h)
      refine ⟨?_, fun _ => Nat.zero_le _⟩
      exact (List.prefix_iff_eq_append.mp (List.isPrefixOf_iff_prefix.mp hfront)).symm
    · rename_i hfront
      rw [List.isPrefixOf_iff_prefix] at hfront
      obtain ⟨ihsome, ihnone⟩ := ih
      constructor
      · intro before after h
        obtain ⟨⟨before', after'⟩, hcut, heq⟩ := Option.map_eq_some_iff.mp h
        obtain ⟨rfl, rfl⟩ := Prod.mk.inj heq
        have hleft := ihsome _ _ hcut
        refine ⟨by rw [List.cons_append, ← hleft.text], fun {a b} hab => ?_⟩
        obtain ⟨a', rfl, htail⟩ := exists_tail_of_not_prefix hfront hab
        have hle := hleft.first htail
        simp only [List.length_cons]
        omega
      · intro h a b hab
        obtain ⟨a', rfl, htail⟩ := exists_tail_of_not_prefix hfront hab
        exact ihnone (Option.map_eq_none_iff.mp h) a' b htail

theorem leftmost_of_cutAt {pattern : List Char} (h : cutAt pattern cs = some (before, after)) :
    Leftmost pattern cs before after :=
  (cutAt_spec pattern cs).1 before after h

theorem cutAt_eq_none_iff {pattern : List Char} :
    cutAt pattern cs = none ↔ ∀ a b, cs ≠ a ++ (pattern ++ b) := by
  refine ⟨(cutAt_spec pattern cs).2, fun h => ?_⟩
  cases hcut : cutAt pattern cs with
  | none => rfl
  | some p => exact absurd (leftmost_of_cutAt hcut).text (h _ _)

theorem isSome_cutAt_iff {pattern : List Char} :
    (cutAt pattern cs).isSome ↔ pattern <:+: cs := by
  rw [← not_iff_not, Bool.not_eq_true, Option.isSome_eq_false_iff, Option.isNone_iff_eq_none,
    cutAt_eq_none_iff]
  constructor
  · rintro h ⟨a, b, heq⟩
    exact h a b (by rw [← heq, List.append_assoc])
  · intro h a b heq
    exact h ⟨a, b, by rw [heq, List.append_assoc]⟩

/-- Before its first place there is no pattern, unless it is empty. -/
theorem Leftmost.not_infix {pattern : List Char} (h : Leftmost pattern cs before after)
    (hne : pattern ≠ []) : ¬ pattern <:+: before := by
  rintro ⟨a, b, rfl⟩
  have hle := h.first (a := a) (b := b ++ (pattern ++ after)) (by simp [h.text])
  have hpos := List.length_pos_iff.mpr hne
  simp only [List.length_append] at hle
  omega

/-! ## The first expression -/

/-- The first expression of a text: it opens where an expression can open first, its source has a
character, and behind that it goes to the first closing delimiter. -/
structure FirstExpression (opening closing cs before source after : List Char) : Prop where
  opens : Leftmost opening cs before (source ++ (closing ++ after))
  source_ne_nil : source ≠ []
  closes : Leftmost closing (source.tail ++ (closing ++ after)) source.tail after

/-- A text without an expression in it. -/
def Plain (opening closing cs : List Char) : Prop :=
  ∀ before source after, source ≠ [] → cs ≠ before ++ (opening ++ (source ++ (closing ++ after)))

theorem FirstExpression.text (h : FirstExpression opening closing cs before source after) :
    cs = before ++ (opening ++ (source ++ (closing ++ after))) := h.opens.text

theorem FirstExpression.unique {before' source' after' : List Char}
    (h : FirstExpression opening closing cs before source after)
    (h' : FirstExpression opening closing cs before' source' after') :
    before = before' ∧ source = source' ∧ after = after' := by
  obtain ⟨rfl, hrest⟩ := h.opens.unique h'.opens
  cases source with
  | nil => exact absurd rfl h.source_ne_nil
  | cons c source =>
    cases source' with
    | nil => exact absurd rfl h'.source_ne_nil
    | cons c' source' =>
      obtain ⟨rfl, htail⟩ := List.cons.inj hrest
      have hcloses := h'.closes
      rw [List.tail_cons, ← List.append_eq, ← htail] at hcloses
      obtain ⟨rfl, rfl⟩ := h.closes.unique hcloses
      exact ⟨rfl, rfl, rfl⟩

/-- What is left is shorter. -/
theorem FirstExpression.length_lt (h : FirstExpression opening closing cs before source after) :
    after.length < cs.length := by
  have hpos := List.length_pos_iff.mpr h.source_ne_nil
  rw [h.text]
  simp only [List.length_append]
  omega

/-- What comes after the first place where one may open has whatever comes after another place. -/
theorem exists_of_length_le {front back front' back' : List Char}
    (h : front ++ back = front' ++ back') (hle : front.length ≤ front'.length) :
    ∃ mid, front' = front ++ mid ∧ back = mid ++ back' := by
  rcases List.append_eq_append_iff.mp h with ⟨mid, hfront, hback⟩ | ⟨mid, hfront, hback⟩
  · exact ⟨mid, hfront, hback⟩
  · rw [hfront, List.length_append] at hle
    have hmid : mid = [] := List.eq_nil_of_length_eq_zero (by omega)
    subst hmid
    exact ⟨[], by simpa using hfront.symm, by simpa using hback.symm⟩

theorem nextExpression?_spec (opening closing cs : List Char) :
    (∀ before source after, nextExpression? opening closing cs = some (before, source, after) →
      FirstExpression opening closing cs before source after) ∧
    (nextExpression? opening closing cs = none → Plain opening closing cs) := by
  rw [nextExpression?]
  cases hopen : cutAt opening cs with
  | none =>
    refine ⟨fun _ _ _ h => (nomatch h), fun _ before source after _ => ?_⟩
    exact cutAt_eq_none_iff.mp hopen before _
  | some p =>
    obtain ⟨before, behind⟩ := p
    have hopens := leftmost_of_cutAt hopen
    cases behind with
    | nil =>
      -- nothing is behind the first place, and so nothing behind any
      refine ⟨fun _ _ _ h => (nomatch h), fun _ before' source after hne heq => hne ?_⟩
      have hle := hopens.first heq
      have hlength := congrArg List.length (hopens.text.symm.trans heq)
      simp only [List.length_append, List.length_nil] at hlength
      exact List.eq_nil_of_length_eq_zero (by omega)
    | cons c behind =>
      cases hclose : cutAt closing behind with
      | none =>
        simp only [hclose]
        refine ⟨fun _ _ _ h => (nomatch h), fun _ before' source after hne heq => ?_⟩
        -- a closing delimiter behind any other place is behind the first one too
        have hle := hopens.first heq
        have hpos := List.length_pos_iff.mpr hne
        have hsame : (before ++ (opening ++ [c])) ++ behind =
            (before' ++ (opening ++ source)) ++ (closing ++ after) := by
          simpa using hopens.text.symm.trans heq
        obtain ⟨mid, -, hmid⟩ := exists_of_length_le hsame (by
          simp only [List.length_append, List.length_singleton]
          omega)
        exact cutAt_eq_none_iff.mp hclose mid after hmid
      | some q =>
        obtain ⟨source, after⟩ := q
        simp only [hclose]
        refine ⟨fun before' source' after' h => ?_, fun h => nomatch h⟩
        cases h
        have hcloses := leftmost_of_cutAt hclose
        refine ⟨?_, List.cons_ne_nil _ _, ?_⟩
        · rw [List.cons_append, ← hcloses.text]
          exact hopens
        · rw [List.tail_cons, ← hcloses.text]
          exact hcloses

theorem nextExpression?_eq_some_iff : nextExpression? opening closing cs =
    some (before, source, after) ↔ FirstExpression opening closing cs before source after := by
  refine ⟨(nextExpression?_spec opening closing cs).1 before source after, fun h => ?_⟩
  cases hnext : nextExpression? opening closing cs with
  | none =>
    have hplain := (nextExpression?_spec opening closing cs).2 hnext
    exact absurd h.text (hplain _ _ _ h.source_ne_nil)
  | some found =>
    have hfound := (nextExpression?_spec opening closing cs).1 _ _ _ hnext
    obtain ⟨h₁, h₂, h₃⟩ := hfound.unique h
    simp [← h₁, ← h₂, ← h₃]

theorem nextExpression?_eq_none_iff :
    nextExpression? opening closing cs = none ↔ Plain opening closing cs := by
  refine ⟨(nextExpression?_spec opening closing cs).2, fun h => ?_⟩
  cases hnext : nextExpression? opening closing cs with
  | none => rfl
  | some found =>
    have hfound := nextExpression?_eq_some_iff.mp hnext
    exact absurd hfound.text (h _ _ _ hfound.source_ne_nil)

/-! ## All expressions -/

/-- How a text is split: at its first expression, and then what is behind that in the same way,
until there is none. -/
inductive Splits (opening closing : List Char) :
    List Char → List (List Char × List Char) → List Char → Prop
  | remainder {cs : List Char} (h : Plain opening closing cs) : Splits opening closing cs [] cs
  | expression {cs before source after rest : List Char} {pieces : List (List Char × List Char)}
      (h : FirstExpression opening closing cs before source after)
      (hrest : Splits opening closing after pieces rest) :
      Splits opening closing cs ((before, source) :: pieces) rest

/-- A plain text, and the expression behind it between its delimiters. -/
def written (opening closing : List Char) (piece : List Char × List Char) : List Char :=
  piece.1 ++ (opening ++ (piece.2 ++ closing))

/-- Every expression takes characters away, so there is fuel for all of them. -/
theorem splitText_splits (fuel : Nat) (hfuel : cs.length ≤ fuel) :
    Splits opening closing cs (splitText opening closing fuel cs).1
      (splitText opening closing fuel cs).2 := by
  induction fuel generalizing cs with
  | zero =>
    rw [List.eq_nil_of_length_eq_zero (Nat.le_zero.mp hfuel), splitText]
    refine .remainder fun before source after hne heq => hne ?_
    have hlength := congrArg List.length heq
    simp only [List.length_append, List.length_nil] at hlength
    exact List.eq_nil_of_length_eq_zero (by omega)
  | succ fuel ih =>
    rw [splitText]
    cases hnext : nextExpression? opening closing cs with
    | none => exact .remainder (nextExpression?_eq_none_iff.mp hnext)
    | some found =>
      have hfound := nextExpression?_eq_some_iff.mp hnext
      have hlt := hfound.length_lt
      exact .expression hfound (ih (by omega))

namespace Splits

/-- **Nothing is lost**: the pieces as they were written, and the remainder, are the text. -/
theorem written_eq (h : Splits opening closing cs pieces rest) :
    pieces.flatMap (written opening closing) ++ rest = cs := by
  induction h with
  | remainder => rfl
  | expression h _ ih => simp [written, ih, h.text]

/-- A text is split in one way only. -/
theorem unique {pieces' : List (List Char × List Char)} {rest' : List Char}
    (h : Splits opening closing cs pieces rest) (h' : Splits opening closing cs pieces' rest') :
    pieces = pieces' ∧ rest = rest' := by
  induction h generalizing pieces' rest' with
  | remainder hplain =>
    cases h' with
    | remainder => exact ⟨rfl, rfl⟩
    | expression hfirst _ => exact absurd hfirst.text (hplain _ _ _ hfirst.source_ne_nil)
  | expression hfirst _ ih =>
    cases h' with
    | remainder hplain => exact absurd hfirst.text (hplain _ _ _ hfirst.source_ne_nil)
    | expression hfirst' hrest' =>
      obtain ⟨rfl, rfl, rfl⟩ := hfirst.unique hfirst'
      obtain ⟨rfl, rfl⟩ := ih hrest'
      exact ⟨rfl, rfl⟩

/-- No expression is empty, and nothing opens one in the plain text before it. -/
theorem forall_pieces (h : Splits opening closing cs pieces rest) (hopening : opening ≠ []) :
    ∀ piece ∈ pieces, piece.2 ≠ [] ∧ ¬ opening <:+: piece.1 := by
  induction h with
  | remainder => exact fun _ hpiece => absurd hpiece List.not_mem_nil
  | expression h _ ih =>
    exact List.forall_mem_cons.mpr ⟨⟨h.source_ne_nil, h.opens.not_infix hopening⟩, ih⟩

end Splits

/-! ## What is reported -/

variable {s : CompileSettings}

theorem piecesOf_splits (s : CompileSettings) (text : String) :
    Splits s.opening s.closing text.toList (piecesOf s text).1 (piecesOf s text).2 :=
  splitText_splits _ (Nat.le_refl _)

/-- A text is reported with its remainder if something opens an expression there. -/
theorem unclosed?_eq (hopening : s.opening ≠ []) (text : String) :
    unclosed? s text =
      if s.opening <:+: (piecesOf s text).2 then some (String.ofList (piecesOf s text).2)
      else none := by
  have hiff : (!(piecesOf s text).2.isEmpty && (cutAt s.opening (piecesOf s text).2).isSome) =
      true ↔ s.opening <:+: (piecesOf s text).2 := by
    rw [Bool.and_eq_true, isSome_cutAt_iff, and_iff_right_iff_imp]
    intro hinfix
    cases hrest : (piecesOf s text).2 with
    | nil =>
      rw [hrest] at hinfix
      exact absurd (List.eq_nil_of_infix_nil hinfix) hopening
    | cons c cs => rfl
  simp only [unclosed?, hiff]

mutual

/-- The texts of a node that are split, in the order of the document. -/
def splitIn : Markup.Node → List String
  | .doctype _ => []
  | .text t => if Text.isBlankText t then [] else [t]
  | .comment _ => []
  | .element _ _ contents children =>
    let below := splitTexts children
    (splitInContents contents).getD below

def splitInContents : Option (List Markup.Node) → Option (List String)
  | none => none
  | some ns => some (splitTexts ns)

def splitTexts : List Markup.Node → List String
  | [] => []
  | n :: rest => splitIn n ++ splitTexts rest

end

mutual

theorem unclosedIn_eq (s : CompileSettings) : ∀ n : Markup.Node,
    unclosedIn s n = (splitIn n).filterMap (unclosed? s)
  | .doctype _ => by rw [unclosedIn, splitIn, List.filterMap_nil]
  | .text t => by
    rw [unclosedIn, splitIn]
    split
    · rw [List.filterMap_nil]
    · cases hrest : unclosed? s t <;> simp [hrest]
  | .comment _ => by rw [unclosedIn, splitIn, List.filterMap_nil]
  | .element _ _ contents children => by
    rw [unclosedIn, splitIn, unclosedTexts_eq s children]
    cases contents with
    | none =>
      rw [unclosedInContents, splitInContents]
      rfl
    | some ns =>
      rw [unclosedInContents, splitInContents, unclosedTexts_eq s ns]
      rfl

theorem unclosedTexts_eq (s : CompileSettings) : ∀ ns : List Markup.Node,
    unclosedTexts s ns = (splitTexts ns).filterMap (unclosed? s)
  | [] => by rw [unclosedTexts, splitTexts, List.filterMap_nil]
  | n :: rest => by
    rw [unclosedTexts, splitTexts, List.filterMap_append, unclosedIn_eq s n,
      unclosedTexts_eq s rest]

end

/-- The messages about expressions that never close. -/
def Compiled.unclosedMessages (c : Compiled) : List String :=
  (c.problems.filter fun p => p.code = "TPL004").map (·.message)

theorem code_rootProblems {roots : List Node} {found : List Problem} {p : Problem}
    (hp : p ∈ rootProblems roots found) : p.code ≠ "TPL004" := by
  have hcases : p = .noRoot ∨ p = .severalRoots := by
    match roots with
    | [] =>
      rw [rootProblems] at hp
      split at hp
      · exact .inl (List.mem_singleton.mp hp)
      · exact absurd hp List.not_mem_nil
    | [_] => exact absurd hp List.not_mem_nil
    | _ :: _ :: _ => exact .inr (List.mem_singleton.mp hp)
  rcases hcases with rfl | rfl <;> decide

/-- **What is reported about a document**: one problem for each text with something left that opens
an expression, in the order of the document. -/
theorem unclosedMessages_compileDocument (s : CompileSettings) (size : Nat)
    (doc : List Markup.Node) :
    (compileDocument s size doc).unclosedMessages =
      ((splitTexts doc).filterMap (unclosed? s)).map fun rest =>
        "Unclosed interpolation in text: " ++ Text.trim rest := by
  -- where a problem is makes no difference
  have hlocated : ∀ (ps : List Problem) (range : Option (Nat × Nat)),
      ((ps.map fun p => { p with range }).filter fun p => p.code = "TPL004").map (·.message) =
        (ps.filter fun p => p.code = "TPL004").map (·.message) := by
    intro ps range
    rw [List.filter_map, List.map_map]
    rfl
  have hproblems : (compileDocument s size doc).problems =
      ((unclosedTexts s doc).map (fun rest => Problem.unclosed (Text.trim rest)) ++
        rootProblems ((rootsOf s doc).filter Node.countsAsRoot)
          ((unclosedTexts s doc).map fun rest => Problem.unclosed (Text.trim rest))).map
        fun p => { p with range := if s.sourceRange then some (0, size) else none } := by
    rw [compileDocument]
    dsimp only
    cases (rootsOf s doc).filter Node.countsAsRoot <;> rfl
  have hroots : ∀ roots found, ((rootProblems roots found).filter fun p => p.code = "TPL004") = [] :=
    fun roots found => List.filter_eq_nil_iff.mpr fun p hp => by simpa using code_rootProblems hp
  rw [Compiled.unclosedMessages, hproblems, hlocated, List.filter_append, hroots, List.append_nil,
    List.filter_eq_self.mpr, List.map_map, unclosedTexts_eq]
  · rfl
  · intro p hp
    obtain ⟨rest, -, rfl⟩ := List.mem_map.mp hp
    rfl

/-- **Interpolation loses nothing.** A text is split in one way: at the successive places where an
expression opens first, has a character, and closes first. Its parts are the plain texts and the
expressions read from their sources; written between their delimiters they are the text again. No
plain text but the remainder opens an expression, and a text is reported if the remainder does,
in a document one after the other. -/
theorem text_interpolated {s : CompileSettings} (hopening : s.opening ≠ []) (text : String) :
    (∃ pieces rest, Splits s.opening s.closing text.toList pieces rest ∧
      (∀ pieces' rest', Splits s.opening s.closing text.toList pieces' rest' →
        pieces' = pieces ∧ rest' = rest) ∧
      textParts s text = pieces.flatMap (fun piece =>
        plainPart piece.1 ++ [.expr (Expression.parse piece.2)]) ++ plainPart rest ∧
      String.ofList (pieces.flatMap (written s.opening s.closing) ++ rest) = text ∧
      (∀ piece ∈ pieces, piece.2 ≠ [] ∧ ¬ s.opening <:+: piece.1) ∧
      unclosed? s text = if s.opening <:+: rest then some (String.ofList rest) else none) ∧
    ∀ size doc, (compileDocument s size doc).unclosedMessages =
      ((splitTexts doc).filterMap (unclosed? s)).map fun rest =>
        "Unclosed interpolation in text: " ++ Text.trim rest := by
  have hsplits := piecesOf_splits s text
  refine ⟨⟨_, _, hsplits, ?_, rfl, ?_, hsplits.forall_pieces hopening,
    unclosed?_eq hopening text⟩, unclosedMessages_compileDocument s⟩
  · exact fun _ _ h => h.unique hsplits
  · rw [hsplits.written_eq, String.ofList_toList]

/-- An expression that closes after one that does not have a character, and one that never closes.
The delimiters begin alike. -/
theorem text_interpolated_greeting :
    let s : CompileSettings := { delimiters := some ("<<", "<>") }
    s.opening ≠ [] ∧
      Splits s.opening s.closing "Hi <<<><>, <<you".toList [("Hi ".toList, "<>".toList)]
        ", <<you".toList ∧
      textParts s "Hi <<<><>, <<you" =
        [.literal "Hi ", .expr ⟨.path "<>", []⟩, .literal ", <<you"] ∧
      unclosed? s "Hi <<<><>, <<you" = some ", <<you" := by
  intro s
  have hopening : s.opening ≠ [] := by decide
  obtain ⟨⟨pieces, rest, hsplits, hunique, hparts, -, -, hunclosed⟩, -⟩ :=
    text_interpolated hopening "Hi <<<><>, <<you"
  obtain ⟨hpieces, hrest⟩ := hunique _ _ (piecesOf_splits s "Hi <<<><>, <<you")
  have hpieces' : pieces = [("Hi ".toList, "<>".toList)] := hpieces ▸ by decide
  have hrest' : rest = ", <<you".toList := hrest ▸ by decide
  subst hpieces' hrest'
  refine ⟨hopening, hsplits, ?_, ?_⟩
  · rw [hparts]
    rfl
  · rw [hunclosed]
    decide

end Componentry.Template
