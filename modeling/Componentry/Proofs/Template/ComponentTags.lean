import Componentry.Proofs.Markup.Handwritten
import Componentry.Proofs.Template.Substitution
import Componentry.Proofs.Text.Spelling
import Mathlib.Data.Option.Basic

/-!
# What the passes over component tags find

The two passes look for the name of a component behind an opening bracket. A tag that closes itself
is taken to end at the first closing bracket behind its name, in a value or not; the start of a tag
whose name has a capital is taken as soon as the name ends.

- `isPascalName`, `isDashedName`, `isComponentName`: **names of components**.
- `componentName?_append`, `of_componentName?`: how they are found.
- `closedTag?_eq_some_iff`: **a tag that closes itself**, up to the first closing bracket.
- `markedTag?_eq_some_iff`: **the start of a tag** that is marked.
- `grows_closedTag?`, `grows_markedTag?`: what there is more of where one was found.
- `FindsTags.settled`: **neither pass looks beyond a closing bracket** at the end of a text.
-/

namespace Componentry.Template

open Componentry.Markup (isTagWord endsTagName span_append_of of_span)
open Componentry.Text (forall_ascii isAlphanum_iff isAlphanum_of_isUpper ascii_of_isAlphanum
  toUpper_of_isLower)

variable {name cs front rest new : List Char} {n : Nat}

/-! ## Names of components -/

/-- A name of letters and digits that starts with a capital. -/
def isPascalName (name : List Char) : Bool :=
  name.head?.any Char.isUpper && name.all Char.isAlphanum

def isDashedChar (c : Char) : Bool := isLowerAlphanum c || c == '-'

/-- A name of small letters, digits and dashes that starts with a letter and has a dash. -/
def isDashedName (name : List Char) : Bool :=
  name.head?.any Char.isLower && name.all isDashedChar && name.contains '-'

def isComponentName (name : List Char) : Bool := isPascalName name || isDashedName name

/-- The name of a component at the head of a text, and what follows it. -/
def componentName? (cs : List Char) : Option (List Char × List Char) :=
  pascalName? cs <|> dashedName? cs

/-- The name of a component ends before the text. -/
def EndsName (rest : List Char) : Prop := ∀ c ∈ rest.head?, c.isAlphanum = false ∧ c ≠ '-'

theorem isAlphanum_of_isLowerAlphanum {c : Char} (h : isLowerAlphanum c = true) :
    c.isAlphanum = true := by
  rw [isLowerAlphanum, Bool.or_eq_true] at h
  exact isAlphanum_iff.mpr (h.imp_left .inr)

theorem pascalName?_append (hname : isPascalName name = true)
    (hrest : ∀ c ∈ rest.head?, c.isAlphanum = false) :
    pascalName? (name ++ rest) = some (name, rest) := by
  cases name with
  | nil => cases hname
  | cons c name =>
    rw [isPascalName, Bool.and_eq_true] at hname
    have hspan := span_append_of (List.all_eq_true.mp hname.2) hrest
    rw [List.cons_append] at hspan ⊢
    rw [pascalName?, if_pos (show c.isUpper = true from hname.1), hspan]

theorem of_pascalName? (h : pascalName? cs = some (name, rest)) :
    cs = name ++ rest ∧ isPascalName name = true := by
  cases cs with
  | nil => cases h
  | cons c cs =>
    rw [pascalName?] at h
    by_cases hc : c.isUpper = true
    · rw [if_pos hc] at h
      obtain ⟨hcs, hall, hstops⟩ := of_span (Option.some.inj h)
      refine ⟨hcs, ?_⟩
      rw [isPascalName, Bool.and_eq_true, List.all_eq_true]
      refine ⟨?_, hall⟩
      cases name with
      | nil =>
        rw [← show c :: cs = rest from hcs] at hstops
        have hhead := hstops c rfl
        rw [isAlphanum_of_isUpper hc] at hhead
        cases hhead
      | cons d name =>
        rw [← (List.cons.inj hcs).1]
        exact hc
    · rw [if_neg hc] at h
      cases h

/-- A name with a dash has small letters and digits up to its first dash. -/
theorem exists_dash (hname : isDashedName name = true) :
    ∃ c word back, name = c :: word ++ '-' :: back ∧ c.isLower = true ∧
      (∀ d ∈ c :: word, isLowerAlphanum d = true) ∧ ∀ d ∈ '-' :: back, isDashedChar d = true := by
  simp only [isDashedName, Bool.and_eq_true, List.contains_iff_mem] at hname
  obtain ⟨⟨hhead, hall⟩, hdash⟩ := hname
  obtain ⟨word, back, rfl, hfirst⟩ := List.eq_append_cons_of_mem hdash
  replace hall := List.all_eq_true.mp hall
  have hword : ∀ d ∈ word, isLowerAlphanum d = true := fun d hd => by
    have hdashed := hall d (List.mem_append_left _ hd)
    have hne : d ≠ '-' := fun h => hfirst (h ▸ hd)
    simpa [isDashedChar, hne] using hdashed
  cases word with
  | nil => cases hhead
  | cons c word =>
    exact ⟨c, word, back, rfl, hhead, hword, fun d hd => hall d (List.mem_append_right _ hd)⟩

theorem dashedName?_append (hname : isDashedName name = true)
    (hrest : ∀ c ∈ rest.head?, isDashedChar c = false) :
    dashedName? (name ++ rest) = some (name, rest) := by
  obtain ⟨c, word, back, rfl, hlower, hword, hback⟩ := exists_dash hname
  have hfront : (c :: (word ++ '-' :: (back ++ rest))).span isLowerAlphanum =
      (c :: word, '-' :: (back ++ rest)) := by
    refine span_append_of hword fun d hd => ?_
    cases hd
    rfl
  have hbehind : ('-' :: (back ++ rest)).span isDashedChar = ('-' :: back, rest) :=
    span_append_of hback hrest
  rw [List.append_assoc, List.cons_append, List.cons_append, dashedName?, if_pos hlower, hfront]
  dsimp only
  rw [show (fun c => isLowerAlphanum c || c == '-') = isDashedChar from rfl, hbehind]
  rfl

/-- Small letters and digits, a letter first, with a dash behind them. -/
theorem isDashedName_append {word back : List Char} (hhead : word.head?.any Char.isLower = true)
    (hword : ∀ d ∈ word, isLowerAlphanum d = true)
    (hback : ∀ d ∈ '-' :: back, isDashedChar d = true) :
    isDashedName (word ++ '-' :: back) = true := by
  simp only [isDashedName, Bool.and_eq_true, List.contains_iff_mem, List.all_eq_true,
    List.mem_append]
  refine ⟨⟨?_, fun d hd => ?_⟩, .inr List.mem_cons_self⟩
  · cases word with
    | nil => cases hhead
    | cons c word => exact hhead
  · rcases hd with hd | hd
    · rw [isDashedChar, hword d hd]
      rfl
    · exact hback d hd

theorem of_dashedName? (h : dashedName? cs = some (name, rest)) :
    cs = name ++ rest ∧ isDashedName name = true := by
  cases cs with
  | nil => cases h
  | cons c cs =>
    rw [dashedName?] at h
    by_cases hc : c.isLower = true
    · rw [if_pos hc] at h
      cases hfront : (c :: cs).span isLowerAlphanum with
      | mk word behind =>
        obtain ⟨hcs, hword, -⟩ := of_span hfront
        rw [hfront] at h
        dsimp only at h
        split at h
        · rename_i more
          cases hback : ('-' :: more).span isDashedChar with
          | mk back after =>
            obtain ⟨hmore, hdashed, hstops⟩ := of_span hback
            rw [show (fun c => isLowerAlphanum c || c == '-') = isDashedChar from rfl, hback] at h
            obtain ⟨rfl, rfl⟩ := Prod.mk.inj (Option.some.inj h)
            obtain ⟨back, rfl⟩ : ∃ tail, back = '-' :: tail := by
              cases back with
              | nil =>
                rw [← show '-' :: more = after from hmore] at hstops
                cases hstops '-' rfl
              | cons d back => exact ⟨back, by rw [(List.cons.inj hmore).1]⟩
            have hhead : word.head?.any Char.isLower = true := by
              cases word with
              | nil =>
                rw [(List.cons.inj hcs).1] at hc
                cases hc
              | cons d word =>
                rw [(List.cons.inj hcs).1] at hc
                exact hc
            exact ⟨by rw [List.append_assoc, ← hmore, hcs], isDashedName_append hhead hword hdashed⟩
        · cases h
    · rw [if_neg hc] at h
      cases h

/-- **The name of a component** is found where it ends. -/
theorem componentName?_append (hname : isComponentName name = true) (hrest : EndsName rest) :
    componentName? (name ++ rest) = some (name, rest) := by
  rw [isComponentName, Bool.or_eq_true] at hname
  rcases hname with hname | hname
  · rw [componentName?, pascalName?_append hname fun c hc => (hrest c hc).1]
    rfl
  · have hdashed : dashedName? (name ++ rest) = some (name, rest) := by
      refine dashedName?_append hname fun c hc => ?_
      obtain ⟨halpha, hdash⟩ := hrest c hc
      rw [isDashedChar, beq_false_of_ne hdash, Bool.or_false]
      exact Bool.eq_false_iff.mpr fun h => by
        rw [isAlphanum_of_isLowerAlphanum h] at halpha
        cases halpha
    have hpascal : pascalName? (name ++ rest) = none := by
      obtain ⟨c, word, back, rfl, hlower, -, -⟩ := exists_dash hname
      rw [List.cons_append, List.cons_append, pascalName?, (toUpper_of_isLower hlower).2.2,
        if_neg Bool.false_ne_true]
    rw [componentName?, hpascal]
    exact hdashed

theorem of_componentName? (h : componentName? cs = some (name, rest)) :
    cs = name ++ rest ∧ isComponentName name = true := by
  rw [isComponentName, Bool.or_eq_true]
  rw [componentName?] at h
  cases hpascal : pascalName? cs with
  | none =>
    rw [hpascal] at h
    obtain ⟨hcs, hname⟩ := of_dashedName? h
    exact ⟨hcs, .inr hname⟩
  | some found =>
    rw [hpascal] at h
    obtain ⟨hcs, hname⟩ := of_pascalName? (hpascal.trans h)
    exact ⟨hcs, .inl hname⟩

/-- A character in the name of a component. -/
theorem mem_componentName (hname : isComponentName name = true) :
    ∀ c ∈ name, c.isAlphanum = true ∨ c = '-' := by
  intro c hc
  simp only [isComponentName, isPascalName, isDashedName, Bool.or_eq_true, Bool.and_eq_true,
    List.all_eq_true] at hname
  rcases hname with ⟨-, hall⟩ | ⟨⟨-, hall⟩, -⟩
  · exact .inl (hall c hc)
  · have hdashed := hall c hc
    rw [isDashedChar, Bool.or_eq_true, beq_iff_eq] at hdashed
    exact hdashed.imp_left isAlphanum_of_isLowerAlphanum

/-- It has no character that stands for something else in a tag. -/
theorem notMem_componentName {x : Char} (hname : isComponentName name = true)
    (hx : x.isAlphanum = false ∧ x ≠ '-') : x ∉ name := fun hmem => by
  rcases mem_componentName hname x hmem with h | h
  · rw [hx.1] at h
    cases h
  · exact hx.2 h

/-- So it is the name of a tag. -/
theorem isTagWord_componentName (hname : isComponentName name = true) : isTagWord name = true := by
  have hends : ∀ c : Char, endsTagName c = true → c.isAlphanum = false ∧ c ≠ '-' := by
    intro c hc
    simp only [endsTagName, Text.isMarkupSpace, Bool.or_eq_true, beq_iff_eq] at hc
    rcases hc with ((((((rfl | rfl) | rfl) | rfl) | rfl) | rfl) | rfl) <;> decide
  rw [isTagWord, Bool.and_eq_true, List.all_eq_true]
  refine ⟨?_, fun c hc => ?_⟩
  · simp only [isComponentName, isPascalName, isDashedName, Bool.or_eq_true,
      Bool.and_eq_true] at hname
    cases name with
    | nil => rcases hname with ⟨h, -⟩ | ⟨⟨h, -⟩, -⟩ <;> cases h
    | cons c name =>
      show (c.isUpper || c.isLower) = true
      rw [Bool.or_eq_true]
      rcases hname with ⟨h, -⟩ | ⟨⟨h, -⟩, -⟩
      · exact .inl h
      · exact .inr h
  · rw [Bool.not_eq_true', Bool.eq_false_iff]
    exact fun h => notMem_componentName hname (hends c h) hc

/-- Where the name of a component stands there is no blank. -/
theorem not_alphanum_of_isBlank {c : Char} (h : Text.isBlank c = true) :
    c.isAlphanum = false ∧ c ≠ '-' := by
  by_cases hc : c.val < 128
  · revert h
    exact forall_ascii (P := fun c => Text.isBlank c = true → c.isAlphanum = false ∧ c ≠ '-')
      (by decide) hc
  · refine ⟨Bool.eq_false_iff.mpr fun halpha => hc (ascii_of_isAlphanum halpha), ?_⟩
    rintro rfl
    exact hc (by decide)

/-! ## Tags that close themselves -/

/-- The pair of tags that a tag which closes itself becomes. -/
def closedPair (name attrs : List Char) : List Char :=
  '<' :: name ++ attrs ++ ['>', '<', '/'] ++ name ++ ['>']

/-- What stands behind the name of the component, if a pair of tags can take its place. -/
theorem endsName_of_closedAttributes? {body attrs : List Char}
    (h : closedAttributes? body = some attrs) : EndsName (body ++ '/' :: rest) := by
  intro c hc
  cases body with
  | nil =>
    cases hc
    decide
  | cons d body =>
    cases hc
    rw [closedAttributes?] at h
    by_cases hblank : Text.isBlank c = true
    · exact not_alphanum_of_isBlank hblank
    · rw [if_neg hblank] at h
      cases h

theorem takeWhile_ne {x : Char} {body : List Char} (h : x ∉ body) (rest : List Char) :
    (body ++ x :: rest).takeWhile (· != x) = body := by
  have hspan : (body ++ x :: rest).span (· != x) = (body, x :: rest) := by
    refine span_append_of (fun c hc => bne_iff_ne.mpr fun heq => h (heq ▸ hc)) fun c hc => ?_
    cases hc
    exact bne_self_eq_false _
  rw [List.span_eq_takeWhile_dropWhile] at hspan
  exact (Prod.mk.inj hspan).1

/-- What is asked of the text behind the name. -/
theorem closedTag?_cons : closedTag? ('<' :: cs) = some (new, n) ↔
    ∃ name behind, componentName? cs = some (name, behind) ∧
      (behind.takeWhile (· != '>')).length < behind.length ∧
      (behind.takeWhile (· != '>')).getLast? = some '/' ∧
      ∃ attrs, closedAttributes? (behind.takeWhile (· != '>')).dropLast = some attrs ∧
        new = closedPair name attrs ∧
        n = name.length + (behind.takeWhile (· != '>')).length + 1 := by
  simp only [closedTag?, componentName?, Option.bind_eq_bind, Option.bind_eq_some_iff, Prod.exists,
    Option.guard_eq_some', beq_iff_eq, exists_const, Option.pure_def, Option.some.injEq,
    Prod.mk.injEq, closedPair, @eq_comm _ new, @eq_comm _ n]

/-- **A tag that closes itself** is found up to the first closing bracket behind its name. -/
theorem closedTag?_eq_some_iff : closedTag? cs = some (new, n) ↔
    ∃ name body attrs rest, cs = '<' :: (name ++ (body ++ '/' :: '>' :: rest)) ∧
      isComponentName name = true ∧ '>' ∉ body ∧ closedAttributes? body = some attrs ∧
      new = closedPair name attrs ∧ n = name.length + body.length + 2 := by
  constructor
  · intro h
    obtain ⟨cs, rfl⟩ : ∃ tail, cs = '<' :: tail := by
      unfold closedTag? at h
      split at h
      · exact ⟨_, rfl⟩
      · cases h
    obtain ⟨name, behind, hfound, hlength, hlast, attrs, hattrs, hnew, hn⟩ := closedTag?_cons.mp h
    obtain ⟨rfl, hname⟩ := of_componentName? hfound
    cases hspan : behind.span (· != '>') with
    | mk front rest =>
      obtain ⟨rfl, hfront, hstops⟩ := of_span hspan
      rw [List.span_eq_takeWhile_dropWhile] at hspan
      rw [(Prod.mk.inj hspan).1] at hlength hlast hattrs hn
      obtain ⟨body, rfl⟩ := List.getLast?_eq_some_iff.mp hlast
      obtain ⟨c, rest, rfl⟩ : ∃ c more, rest = c :: more := by
        refine List.exists_cons_of_ne_nil fun hnil => ?_
        rw [hnil, List.append_nil] at hlength
        exact absurd hlength (Nat.lt_irrefl _)
      obtain rfl : c = '>' := by simpa using hstops c rfl
      rw [List.dropLast_concat] at hattrs
      refine ⟨name, body, attrs, rest, by rw [List.append_assoc]; rfl, hname, fun hmem => ?_,
        hattrs, hnew, by rw [hn, List.length_append]; rfl⟩
      exact absurd (hfront '>' (List.mem_append_left _ hmem)) (by decide)
  · rintro ⟨name, body, attrs, rest, rfl, hname, hbody, hattrs, rfl, rfl⟩
    have hbefore : '>' ∉ body ++ ['/'] := by simpa using hbody
    have htake := takeWhile_ne hbefore rest
    rw [List.append_assoc, List.cons_append, List.nil_append] at htake
    refine closedTag?_cons.mpr ⟨name, _,
      componentName?_append hname (endsName_of_closedAttributes? hattrs), ?_⟩
    rw [htake, List.dropLast_concat]
    refine ⟨?_, List.getLast?_concat, attrs, hattrs, rfl, ?_⟩ <;>
      simp only [List.length_append, List.length_cons, List.length_nil] <;> omega

/-- Its closing bracket is the only one. -/
theorem notMem_selfClosing {body : List Char} (hname : isComponentName name = true)
    (hbody : '>' ∉ body) : '>' ∉ '<' :: (name ++ (body ++ ['/'])) := by
  simpa [hbody] using notMem_componentName hname (by decide)

/-- So what is behind the closing bracket makes no difference. -/
theorem closedTag?_bracket (hfront : '>' ∉ front) :
    closedTag? (front ++ '>' :: rest) = some (new, n) ↔
      ∃ name body attrs, front = '<' :: (name ++ (body ++ ['/'])) ∧ isComponentName name = true ∧
        closedAttributes? body = some attrs ∧ new = closedPair name attrs ∧ n = front.length := by
  rw [closedTag?_eq_some_iff]
  constructor
  · rintro ⟨name, body, attrs, behind, hcs, hname, hbody, hattrs, hnew, hn⟩
    have hbefore := notMem_selfClosing hname hbody
    have hsame : front ++ '>' :: rest = '<' :: (name ++ (body ++ ['/'])) ++ '>' :: behind := by
      simpa using hcs
    obtain rfl : front = '<' :: (name ++ (body ++ ['/'])) := by
      rw [← takeWhile_ne hfront rest, hsame, takeWhile_ne hbefore]
    exact ⟨name, body, attrs, rfl, hname, hattrs, hnew, by
      rw [hn, List.length_cons, List.length_append, List.length_append]
      rfl⟩
  · rintro ⟨name, body, attrs, rfl, hname, hattrs, hnew, hn⟩
    refine ⟨name, body, attrs, rest, by simp, hname, fun hmem => hfront ?_, hattrs, hnew, ?_⟩
    · exact List.mem_cons_of_mem _ (List.mem_append_right _ (List.mem_append_left _ hmem))
    · rw [hn, List.length_cons, List.length_append, List.length_append]
      rfl

/-- A pair of tags has a closing bracket more than the tag that closes itself. -/
theorem grows_closedTag? : Grows closedTag? '>' := by
  intro cs new n h
  obtain ⟨name, body, attrs, rest, rfl, hname, hbody, -, rfl, rfl⟩ := closedTag?_eq_some_iff.mp h
  have hbefore := notMem_selfClosing hname hbody
  have htag : ('<' :: (name ++ (body ++ '/' :: '>' :: rest))).take
      (name.length + body.length + 2 + 1) = '<' :: (name ++ (body ++ ['/'])) ++ ['>'] := by
    rw [show '<' :: (name ++ (body ++ '/' :: '>' :: rest)) =
      '<' :: (name ++ (body ++ ['/'])) ++ ['>'] ++ rest by simp]
    refine List.take_left' ?_
    simp only [List.length_append, List.length_cons, List.length_nil]
    omega
  have htwo : (closedPair name attrs).count '>' =
      name.count '>' + attrs.count '>' + (name.count '>' + 2) := by
    simp [closedPair, List.count_append]
    omega
  rw [htag, List.count_append, List.count_eq_zero.mpr hbefore, htwo]
  exact Nat.lt_of_lt_of_le (by decide) (Nat.le_add_left 2 _)

/-! ## Names as they are written -/

/-- The start of a tag with the attribute for its name. -/
def markedStart (name : List Char) : List Char :=
  '<' :: name ++ ' ' :: nameAttribute.toList ++ ['=', '"'] ++ name ++ ['"']

theorem endsName_of_endsName {rest : List Char} (h : endsName rest = true) : EndsName rest := by
  intro c hc
  unfold endsName at h
  split at h
  · cases hc
    decide
  · cases hc
    decide
  · cases hc
    exact not_alphanum_of_isBlank h
  · cases h

/-- **The start of a tag** is found if its name has a capital and ends. -/
theorem markedTag?_eq_some_iff : markedTag? cs = some (new, n) ↔
    ∃ name rest, cs = '<' :: (name ++ rest) ∧ isPascalName name = true ∧ endsName rest = true ∧
      new = markedStart name ∧ n = name.length := by
  constructor
  · intro h
    unfold markedTag? at h
    split at h
    · simp only [Option.bind_eq_bind, Option.bind_eq_some_iff, Prod.exists, Option.guard_eq_some',
        exists_const, Option.pure_def, Option.some.injEq, Prod.mk.injEq] at h
      obtain ⟨name, rest, hfound, hends, hnew, hn⟩ := h
      obtain ⟨rfl, hname⟩ := of_pascalName? hfound
      exact ⟨name, rest, rfl, hname, hends, hnew.symm, hn.symm⟩
    · cases h
  · rintro ⟨name, rest, rfl, hname, hends, rfl, rfl⟩
    have hfound := pascalName?_append hname fun c hc => (endsName_of_endsName hends c hc).1
    rw [markedTag?, hfound]
    simp [hends, markedStart]

theorem endsName_cons (c : Char) (cs : List Char) :
    endsName (c :: cs) = (c == '>' || c == '/' && cs.head? == some '>' || Text.isBlank c) := by
  by_cases hbracket : c = '>'
  · subst hbracket
    rfl
  · cases cs with
    | nil => simp [endsName, hbracket]
    | cons d cs => by_cases hslash : c = '/' <;> by_cases hd : d = '>' <;>
        simp [endsName, hbracket, hslash, hd]

/-- Where a name ends is seen without what is behind a closing bracket. -/
theorem endsName_bracket (front rest : List Char) :
    endsName (front ++ '>' :: rest) = endsName (front ++ ['>']) := by
  cases front with
  | nil => rfl
  | cons c front =>
    rw [List.cons_append, List.cons_append, endsName_cons, endsName_cons, List.head?_append,
      List.head?_append]
    rfl

/-- So what is behind the closing bracket makes no difference. -/
theorem markedTag?_bracket (hfront : '>' ∉ front) :
    markedTag? (front ++ '>' :: rest) = some (new, n) ↔
      ∃ name more, front = '<' :: (name ++ more) ∧ isPascalName name = true ∧
        endsName (more ++ ['>']) = true ∧ new = markedStart name ∧ n = name.length := by
  rw [markedTag?_eq_some_iff]
  constructor
  · rintro ⟨name, behind, hcs, hname, hends, hnew, hn⟩
    have hbracket : '>' ∉ '<' :: name := by
      have hcomponent : isComponentName name = true := by rw [isComponentName, hname]; rfl
      simpa using notMem_componentName hcomponent (by decide)
    obtain ⟨more, rfl, rfl⟩ :
        ∃ more, front = '<' :: name ++ more ∧ behind = more ++ '>' :: rest := by
      have hsame : front ++ '>' :: rest = '<' :: name ++ behind := hcs
      rcases List.append_eq_append_iff.mp hsame
        with ⟨part, hpart, hrest⟩ | ⟨more, hmore, hbehind⟩
      · -- the closing bracket would be in the name
        cases part with
        | nil => exact ⟨[], by rw [hpart, List.append_nil, List.append_nil], hrest.symm⟩
        | cons c part =>
          obtain rfl := (List.cons.inj hrest).1
          rw [hpart] at hbracket
          exact absurd (List.mem_append_right _ List.mem_cons_self) hbracket
      · exact ⟨more, hmore, hbehind⟩
    exact ⟨name, more, rfl, hname, by rw [← endsName_bracket, hends], hnew, hn⟩
  · rintro ⟨name, more, rfl, hname, hends, hnew, hn⟩
    exact ⟨name, more ++ '>' :: rest, by simp, hname, by rw [endsName_bracket, hends], hnew, hn⟩

/-- The attribute for the name has an equals sign. -/
theorem grows_markedTag? : Grows markedTag? '=' := by
  intro cs new n h
  obtain ⟨name, rest, rfl, hname, -, rfl, rfl⟩ := markedTag?_eq_some_iff.mp h
  have hequals : '=' ∉ name :=
    notMem_componentName (by rw [isComponentName, hname]; rfl) (by decide)
  have hstart : (markedStart name).count '=' =
      name.count '=' + (name.count '=' + 1) := by
    simp [markedStart, nameAttribute, List.count_append]
  rw [List.take_succ_cons, List.take_left, hstart, List.count_cons, List.count_eq_zero.mpr hequals]
  decide

/-! ## What the passes have in common -/

/-- No letter follows an opening bracket at the head of the text. -/
def OpensNoName (cs : List Char) : Prop :=
  ∀ c tail, cs = '<' :: c :: tail → c.isAlpha = false

theorem not_opensNoName (hname : isComponentName name = true) :
    ¬OpensNoName ('<' :: (name ++ rest)) := by
  intro h
  have hword := isTagWord_componentName hname
  rw [isTagWord, Bool.and_eq_true] at hword
  cases name with
  | nil => cases hword.1
  | cons c name =>
    have halpha := h c (name ++ rest) rfl
    rw [show c.isAlpha = true from hword.1] at halpha
    cases halpha

/-- A pass over component tags finds nothing where no letter follows an opening bracket. It looks as
far as the first closing bracket, and what it finds ends there or before. -/
structure FindsTags (m : List Char → Option Stretch) : Prop where
  none : ∀ {cs}, OpensNoName cs → m cs = none
  bracket : ∀ {front} rest, '>' ∉ front → m (front ++ '>' :: rest) = m (front ++ ['>'])
  within : ∀ {front new n}, '>' ∉ front → m (front ++ ['>']) = some (new, n) → n ≤ front.length

theorem findsTags_closedTag? : FindsTags closedTag? where
  none h := by
    refine Option.eq_none_iff_forall_ne_some.mpr fun found hfound => ?_
    obtain ⟨name, body, attrs, rest, rfl, hname, -⟩ := closedTag?_eq_some_iff.mp hfound
    exact not_opensNoName hname h
  bracket rest h := Option.ext fun found => by rw [closedTag?_bracket h, closedTag?_bracket h]
  within h hfound := by
    obtain ⟨-, -, -, -, -, -, -, hn⟩ := (closedTag?_bracket h).mp hfound
    exact Nat.le_of_eq hn

theorem findsTags_markedTag? : FindsTags markedTag? where
  none h := by
    refine Option.eq_none_iff_forall_ne_some.mpr fun found hfound => ?_
    obtain ⟨name, rest, rfl, hname, -⟩ := markedTag?_eq_some_iff.mp hfound
    exact not_opensNoName (by rw [isComponentName, hname]; rfl) h
  bracket rest h := Option.ext fun found => by rw [markedTag?_bracket h, markedTag?_bracket h]
  within h hfound := by
    obtain ⟨name, more, rfl, -, -, -, hn⟩ := (markedTag?_bracket h).mp hfound
    rw [hn, List.length_cons, List.length_append]
    omega

/-- **Nothing that begins in a text reaches beyond it** if a closing bracket is at its end. -/
theorem FindsTags.settled {m : List Char → Option Stretch} (hm : FindsTags m)
    (front back : List Char) : Settled m (front ++ ['>']) back := by
  intro cs hcs hne
  obtain ⟨more, rfl, -⟩ := (List.suffix_concat_iff.mp hcs).resolve_left hne
  obtain ⟨before, behind, hmore, hbefore⟩ :=
    List.eq_append_cons_of_mem (List.mem_append_right more (List.mem_singleton_self '>'))
  rw [hmore, List.append_assoc, List.cons_append, hm.bracket _ hbefore, hm.bracket behind hbefore]
  refine ⟨rfl, fun new n h => ?_⟩
  have hn := hm.within hbefore h
  rw [List.length_append, List.length_cons]
  omega

end Componentry.Template
