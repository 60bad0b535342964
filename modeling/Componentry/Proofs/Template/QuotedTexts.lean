import Componentry.Proofs.Template.Roots
import Mathlib.Data.List.Infix
import Mathlib.Data.List.TakeWhile

/-!
# Quoted texts in expressions

An expression is cut at its bars before anything else is made of it. A text in single quotes with a
bar in it is cut like anything else, so what is left of it at the head has no closing quote, and is
taken for a path.

- `segmentsOf`: the texts between bars, without the blanks around them.
- `segmentsOf_chainText`: the segments of an operand **with filters behind it** are those of the
  operand, and then the filters.
- `parse_chainText`: a quoted text without a bar **is that text**, and the filters are those that
  are written.
- `parse_chainText_cut`: with a bar it is a path, up to the bar.
- `quoted_chain`: what an expression of a quoted text and filters is, and what it is evaluated to.
-/

namespace Componentry.Template

open Text (isBlank trimChars trimEndChars)
open Json (Value)

variable {cs gap front back : List Char} {filters : List String}

/-! ## Trimming -/

theorem trimEndChars_gap (cs : List Char) (hgap : gap.all isBlank = true) :
    trimEndChars (cs ++ gap) = trimEndChars cs := by
  have hreverse : ∀ c ∈ gap.reverse, isBlank c = true := fun c hc =>
    List.all_eq_true.mp hgap c (List.mem_reverse.mp hc)
  rw [trimEndChars, trimEndChars, List.reverse_append, List.dropWhile_append_of_pos hreverse]

/-- Blanks at the end make no difference. -/
theorem trimChars_gap (cs : List Char) (hgap : gap.all isBlank = true) :
    trimChars (cs ++ gap) = trimChars cs := by
  rw [trimChars, trimChars, List.dropWhile_append]
  split
  · rename_i hempty
    have hnil : gap.dropWhile isBlank = [] :=
      List.dropWhile_eq_nil_iff.mpr (List.all_eq_true.mp hgap)
    rw [hnil, List.isEmpty_iff.mp hempty]
  · exact trimEndChars_gap _ hgap

/-- Nor do blanks at the front. -/
theorem trimChars_gap_append (cs : List Char) (hgap : gap.all isBlank = true) :
    trimChars (gap ++ cs) = trimChars cs := by
  rw [trimChars, trimChars, List.dropWhile_append_of_pos (List.all_eq_true.mp hgap)]

/-- A quote at the front stays. -/
theorem trimChars_quote (cs : List Char) : trimChars ('\'' :: cs) = '\'' :: trimEndChars cs := by
  have hquote : isBlank '\'' = false := rfl
  rw [trimChars, List.dropWhile_cons, hquote, if_neg Bool.false_ne_true, trimEndChars, trimEndChars,
    List.reverse_cons, List.dropWhile_append]
  split
  · rename_i hempty
    rw [List.isEmpty_iff.mp hempty, List.dropWhile_cons, hquote]
    rfl
  · rw [List.reverse_append]
    rfl

/-- A text between quotes has no blank at either end. -/
theorem trimChars_quoted (cs : List Char) :
    trimChars ('\'' :: (cs ++ ['\''])) = '\'' :: (cs ++ ['\'']) := by
  rw [trimChars_quote, trimEndChars, List.reverse_append, List.reverse_singleton,
    List.singleton_append, List.dropWhile_cons_of_neg (by decide), List.reverse_cons,
    List.reverse_reverse]

/-! ## Segments -/

/-- The texts between bars, without the blanks around them. -/
def segmentsOf (cs : List Char) : List (List Char) := (splitAtBars cs).map trimChars

theorem splitAtBars_ne_nil (cs : List Char) : splitAtBars cs ≠ [] := by
  cases cs with
  | nil => exact List.cons_ne_nil _ _
  | cons c cs =>
    rw [splitAtBars]
    split
    · exact List.cons_ne_nil _ _
    · split <;> exact List.cons_ne_nil _ _

/-- **A bar** cuts a text in two that have nothing to do with each other. -/
theorem splitAtBars_append (front back : List Char) :
    splitAtBars (front ++ '|' :: back) = splitAtBars front ++ splitAtBars back := by
  induction front with
  | nil => rfl
  | cons c front ih =>
    rw [List.cons_append, splitAtBars, splitAtBars, ih]
    split
    · rfl
    · cases hfront : splitAtBars front with
      | nil => exact absurd hfront (splitAtBars_ne_nil front)
      | cons first rest => rfl

theorem splitAtBars_of_notMem (h : '|' ∉ cs) : splitAtBars cs = [cs] := by
  induction cs with
  | nil => rfl
  | cons c cs ih =>
    rw [List.mem_cons, not_or] at h
    rw [splitAtBars, if_neg (Ne.symm h.1), ih h.2]

theorem segmentsOf_append (front back : List Char) :
    segmentsOf (front ++ '|' :: back) = segmentsOf front ++ segmentsOf back := by
  rw [segmentsOf, splitAtBars_append, List.map_append]
  rfl

theorem segmentsOf_of_notMem (h : '|' ∉ cs) : segmentsOf cs = [trimChars cs] := by
  rw [segmentsOf, splitAtBars_of_notMem h]
  rfl

theorem bar_notMem (hgap : gap.all isBlank = true) : '|' ∉ gap := fun hmem =>
  absurd (List.all_eq_true.mp hgap _ hmem) (by decide)

/-- **Blanks at the end** make no difference to the segments. -/
theorem segmentsOf_gap (cs : List Char) (hgap : gap.all isBlank = true) :
    segmentsOf (cs ++ gap) = segmentsOf cs := by
  induction hlen : cs.length using Nat.strongRecOn generalizing cs with
  | ind len ih =>
    by_cases hbar : '|' ∈ cs
    · obtain ⟨front, back, rfl, -⟩ := List.eq_append_cons_of_mem hbar
      rw [List.append_assoc, List.cons_append, segmentsOf_append, segmentsOf_append,
        ih back.length (by rw [← hlen, List.length_append, List.length_cons]; omega) back rfl]
    · have hnot : '|' ∉ cs ++ gap := by
        rw [List.mem_append, not_or]
        exact ⟨hbar, bar_notMem hgap⟩
      rw [segmentsOf_of_notMem hnot, segmentsOf_of_notMem hbar, trimChars_gap cs hgap]

/-- Nor do blanks at the front. -/
theorem segmentsOf_gap_append (cs : List Char) (hgap : gap.all isBlank = true) :
    segmentsOf (gap ++ cs) = segmentsOf cs := by
  by_cases hbar : '|' ∈ cs
  · obtain ⟨front, back, rfl, hfront⟩ := List.eq_append_cons_of_mem hbar
    have hnot : '|' ∉ gap ++ front := by
      rw [List.mem_append, not_or]
      exact ⟨bar_notMem hgap, hfront⟩
    rw [← List.append_assoc, segmentsOf_append, segmentsOf_append, segmentsOf_of_notMem hnot,
      segmentsOf_of_notMem hfront, trimChars_gap_append front hgap]
  · have hnot : '|' ∉ gap ++ cs := by
      rw [List.mem_append, not_or]
      exact ⟨bar_notMem hgap, hbar⟩
    rw [segmentsOf_of_notMem hnot, segmentsOf_of_notMem hbar, trimChars_gap_append cs hgap]

/-! ## Filters behind an operand -/

/-- An operand with filters behind it, as it is written. -/
def chainText (operand : List Char) (filters : List String) : List Char :=
  operand ++ filters.flatMap fun f => [' ', '|', ' '] ++ f.toList

/-- A name that a filter can have: no bar in it, no blanks around it, and not empty. -/
def isFilterName (f : String) : Bool :=
  !f.toList.isEmpty && trimChars f.toList == f.toList && !f.toList.contains '|'

/-- **The segments of a chain** are those of its operand, and then the filters. -/
theorem segmentsOf_chainText (operand : List Char)
    (hfilters : ∀ f ∈ filters, isFilterName f = true) :
    segmentsOf (chainText operand filters) = segmentsOf operand ++ filters.map String.toList := by
  induction filters generalizing operand with
  | nil => simp [chainText]
  | cons f filters ih =>
    obtain ⟨hf, hfilters⟩ := List.forall_mem_cons.mp hfilters
    simp only [isFilterName, Bool.and_eq_true, beq_iff_eq, Bool.not_eq_true',
      List.contains_eq_mem, decide_eq_false_iff_not] at hf
    obtain ⟨⟨-, htrim⟩, hbar⟩ := hf
    -- the filters behind the first one are those of a chain of its own
    have htext : chainText operand (f :: filters) =
        (operand ++ [' ']) ++ '|' :: ([' '] ++ chainText f.toList filters) := by
      simp [chainText]
    rw [htext, segmentsOf_append, segmentsOf_gap operand rfl, segmentsOf_gap_append _ rfl,
      ih _ hfilters, segmentsOf_of_notMem hbar, htrim, List.map_cons, List.singleton_append]

/-! ## Reading an expression -/

/-- The filters that are named. -/
def filterNames (segments : List (List Char)) : List String :=
  (segments.filter (!·.isEmpty)).map String.ofList

theorem parse_of_segmentsOf {head : List Char} {rest : List (List Char)}
    (h : segmentsOf cs = head :: rest) :
    Expression.parse cs = ⟨Operand.parse head, filterNames rest⟩ := by
  rw [segmentsOf] at h
  rw [Expression.parse, h]
  rfl

theorem filterNames_append (a b : List (List Char)) :
    filterNames (a ++ b) = filterNames a ++ filterNames b := by
  rw [filterNames, List.filter_append, List.map_append]
  rfl

theorem filterNames_toList (hfilters : ∀ f ∈ filters, isFilterName f = true) :
    filterNames (filters.map String.toList) = filters := by
  have hfull : (filters.map String.toList).filter (!·.isEmpty) = filters.map String.toList := by
    refine List.filter_eq_self.mpr fun cs hcs => ?_
    obtain ⟨f, hf, rfl⟩ := List.mem_map.mp hcs
    have hname := hfilters f hf
    rw [isFilterName, Bool.and_eq_true, Bool.and_eq_true] at hname
    exact hname.1.1
  rw [filterNames, hfull, List.map_map]
  exact (List.map_congr_left fun f _ => String.ofList_toList).trans (List.map_id filters)

theorem parse_quoted_operand (cs : List Char) :
    Operand.parse ('\'' :: (cs ++ ['\''])) = .literal (.str (String.ofList cs)) := by
  have hquoted : quoted? ('\'' :: (cs ++ ['\''])) = some cs := by
    rw [quoted?, List.getLast?_concat, List.dropLast_concat]
    rfl
  rw [Operand.parse, hquoted]

/-- No value of JSON starts with a single quote. -/
theorem parse?_quote (cs : List Char) : Value.parse? (String.ofList ('\'' :: cs)) = none := by
  have hliteral : ∀ fuel, Json.literal? (fuel + 1) ('\'' :: cs) = none := fun fuel => by
    rw [Json.literal?]
    rfl
  rw [Value.parse?, Json.Literal.parse?, String.toList_ofList, hliteral]
  rfl

/-- A quote that is not closed makes a path. -/
theorem parse_unclosed_operand (h : '\'' ∉ cs) :
    Operand.parse ('\'' :: cs) = .path (String.ofList ('\'' :: cs)) := by
  have hquoted : quoted? ('\'' :: cs) = none := by
    rw [quoted?]
    split
    · rename_i hlast
      exact absurd (List.mem_of_getLast? hlast) h
    · rfl
  rw [Operand.parse, hquoted, parse?_quote]

/-! ## Quoted texts -/

/-- A text in single quotes. -/
def quoted (s : String) : List Char := '\'' :: (s.toList ++ ['\''])

/-- **A quoted text without a bar** is that text, and the filters are those that are written. -/
theorem parse_chainText {s : String} (hbar : '|' ∉ s.toList)
    (hfilters : ∀ f ∈ filters, isFilterName f = true)
    (hfront : front.all isBlank = true) (hback : back.all isBlank = true) :
    Expression.parse (front ++ (chainText (quoted s) filters ++ back)) =
      ⟨.literal (.str s), filters⟩ := by
  have hquoted : '|' ∉ quoted s := by simp [quoted, hbar]
  have hsegments : segmentsOf (front ++ (chainText (quoted s) filters ++ back)) =
      quoted s :: filters.map String.toList := by
    rw [segmentsOf_gap_append _ hfront, segmentsOf_gap _ hback, segmentsOf_chainText _ hfilters,
      segmentsOf_of_notMem hquoted, quoted, trimChars_quoted, List.singleton_append]
  rw [parse_of_segmentsOf hsegments, filterNames_toList hfilters, quoted, parse_quoted_operand,
    String.ofList_toList]

/-- **A quoted text with a bar** is cut there. What is before the first bar is a path, with the
opening quote, and what is behind it names filters. -/
theorem parse_chainText_cut {s : String} {before behind : List Char}
    (hs : s.toList = before ++ '|' :: behind) (hquote : '\'' ∉ s.toList) (hbar : '|' ∉ before)
    (hfilters : ∀ f ∈ filters, isFilterName f = true)
    (hfront : front.all isBlank = true) (hback : back.all isBlank = true) :
    Expression.parse (front ++ (chainText (quoted s) filters ++ back)) =
      ⟨.path (String.ofList ('\'' :: trimEndChars before)),
        filterNames (segmentsOf (behind ++ ['\''])) ++ filters⟩ := by
  have hquoted : quoted s = ('\'' :: before) ++ '|' :: (behind ++ ['\'']) := by
    simp [quoted, hs]
  have hbefore : '|' ∉ '\'' :: before := by simp [hbar]
  have hsegments : segmentsOf (front ++ (chainText (quoted s) filters ++ back)) =
      ('\'' :: trimEndChars before) ::
        (segmentsOf (behind ++ ['\'']) ++ filters.map String.toList) := by
    rw [segmentsOf_gap_append _ hfront, segmentsOf_gap _ hback, segmentsOf_chainText _ hfilters,
      hquoted, segmentsOf_append, segmentsOf_of_notMem hbefore, trimChars_quote]
    rfl
  have hnot : '\'' ∉ trimEndChars before := fun hmem => by
    rw [trimEndChars, List.mem_reverse] at hmem
    refine hquote ?_
    rw [hs]
    exact List.mem_append_left _ (List.mem_reverse.mp (List.dropWhile_subset _ hmem))
  rw [parse_of_segmentsOf hsegments, filterNames_append, filterNames_toList hfilters,
    parse_unclosed_operand hnot]

/-- **An expression of a quoted text and filters**, with blanks around it. It is that text with
those filters if and only if the text has no bar in it. Then evaluating it sends the text through
the filters, from the first to the last, and looks nothing up. With a bar it is a path, so what is
sent through the filters is what the path leads to. -/
theorem quoted_chain (s : String) (filters : List String) (front back : List Char)
    (hquote : '\'' ∉ s.toList) (hfilters : ∀ f ∈ filters, isFilterName f = true)
    (hfront : front.all isBlank = true) (hback : back.all isBlank = true) :
    let e := Expression.parse (front ++ (chainText (quoted s) filters ++ back))
    (e = ⟨.literal (.str s), filters⟩ ↔ '|' ∉ s.toList) ∧
    ('|' ∉ s.toList → ∀ (m : Type → Type) [Monad m] [LawfulMonad m] (ctx : RenderContext m),
      evaluate ctx e = filters.foldlM (fun v f => ctx.applyFilter f v) (.str s)) ∧
    ∀ before behind, s.toList = before ++ '|' :: behind → '|' ∉ before →
      let path := String.ofList ('\'' :: trimEndChars before)
      let names := filterNames (segmentsOf (behind ++ ['\'']))
      e = ⟨.path path, names ++ filters⟩ ∧
      ∀ (m : Type → Type) [Monad m] [LawfulMonad m] (ctx : RenderContext m),
        evaluate ctx e = ctx.lookup path >>= fun v =>
          (names ++ filters).foldlM (fun v f => ctx.applyFilter f v) (v.getD .null) := by
  intro e
  have hcut : ∀ before behind, s.toList = before ++ '|' :: behind → '|' ∉ before →
      e = ⟨.path (String.ofList ('\'' :: trimEndChars before)),
        filterNames (segmentsOf (behind ++ ['\''])) ++ filters⟩ := fun before behind hs hbar =>
    parse_chainText_cut hs hquote hbar hfilters hfront hback
  refine ⟨⟨fun h hbar => ?_, fun h => parse_chainText h hfilters hfront hback⟩, fun h => ?_, ?_⟩
  · obtain ⟨before, behind, hs, hbefore⟩ := List.eq_append_cons_of_mem hbar
    rw [hcut before behind hs hbefore] at h
    cases h
  · intro m _ _ ctx
    have he : e = ⟨.literal (.str s), filters⟩ := parse_chainText h hfilters hfront hback
    rw [he]
    exact pure_bind _ _
  · intro before behind hs hbefore path names
    refine ⟨hcut before behind hs hbefore, fun m _ _ ctx => ?_⟩
    rw [hcut before behind hs hbefore, evaluate]
    simp only [pure_bind, path, names]

/-- A context that writes down which paths and filters it is asked for. -/
def notingContext : RenderContext (StateM (List String)) where
  lookup path := do
    modify (· ++ ["path " ++ path])
    return none
  applyFilter name v := do
    modify (· ++ ["filter " ++ name])
    return v
  renderStatic _ := pure .empty
  resolveComponent _ := pure none
  bindListener name := pure ⟨0, .recorder name⟩
  slot _ := pure []
  warn _ := pure ()

theorem quoted_chain_greeting :
    '\'' ∉ "Hi, you".toList ∧ (∀ f ∈ ["upper", "wave"], isFilterName f = true) ∧
    Expression.parse " 'Hi, you' | upper | wave ".toList =
      ⟨.literal (.str "Hi, you"), ["upper", "wave"]⟩ ∧
    (evaluate notingContext (Expression.parse " 'Hi, you' | upper | wave ".toList)).run [] =
      (.str "Hi, you", ["filter upper", "filter wave"]) := by
  have hquote : '\'' ∉ "Hi, you".toList := by decide
  have hbar : '|' ∉ "Hi, you".toList := by decide
  have hfilters : ∀ f ∈ ["upper", "wave"], isFilterName f = true := by decide
  have htext : " 'Hi, you' | upper | wave ".toList =
      [' '] ++ (chainText (quoted "Hi, you") ["upper", "wave"] ++ [' ']) := by decide
  obtain ⟨hparse, hevaluate, -⟩ := quoted_chain "Hi, you" ["upper", "wave"] [' '] [' '] hquote
    hfilters rfl rfl
  rw [htext, hevaluate hbar]
  exact ⟨hquote, hfilters, hparse.mpr hbar, rfl⟩

/-- A quoted text with a bar in it, and no filter: a path that leads nowhere goes through a filter
that is not there, and nothing is shown. -/
theorem bar_cuts_quoted_text :
    chainText (quoted "a|b") [] = "'a|b'".toList ∧ '\'' ∉ "a|b".toList ∧
    (match Expression.parse "'a|b'".toList with
      | ⟨.path p, filters⟩ => p = "'a" ∧ filters = ["b'"]
      | ⟨.literal _, _⟩ => False) ∧
    ((evaluate notingContext (Expression.parse "'a|b'".toList)).run []).2 =
      ["path 'a", "filter b'"] ∧
    (compile {} "<p>\x7b\x7b 'a|b' \x7d\x7d</p>").root.map (fun root =>
      VNode.listToHtml (renderNode (slotContext fun _ => []) root)) = some "<p></p>" := by
  refine ⟨by decide, by decide, ?_, ?_, by decide +kernel⟩
  · exact ⟨rfl, rfl⟩
  · rfl

end Componentry.Template
