import Componentry.Proofs.Markup.RoundTrip
import Componentry.Proofs.Template.ComponentTags
import Componentry.Proofs.Template.Roots

/-!
# Component tags that close themselves

Markup ignores the slash of a component tag that closes itself, so what follows the tag would come
to stand in the component. The tag is made a pair of tags instead. It is taken to end at the first
closing bracket, so this is done only where no value has one.

- `openedTag`: the start tag of the pair.
- `closedTag?_text`: **the whole tag is found**, and made the pair.
- `takes_pair`: reading the pair leaves one element without content.
- `nestable_of_isDashedName`: a name with a dash may be written anywhere.
- `closeTags_selfClosing`: **component tags that close themselves** become pairs of tags, and what
  follows them is not read as their content, if and only if no value has a closing bracket.
-/

namespace Componentry.Template

open Componentry.Markup
open Componentry.Text (isBlank isMarkupSpace isBlank_of_isMarkupSpace trimEndChars)

variable {name rest : List Char}

/-! ## The start tag of the pair -/

/-- The tag without its slash. Blanks behind the attributes go; without attributes one is left. -/
def openedTag (t : TagText) : TagText where
  name := t.name
  attrs := t.attrs
  gap := if t.attrs.isEmpty then t.gap.take 1 else []
  closes := false
  isNamed := t.isNamed
  isSpaced := by
    have hgap := List.all_eq_true.mp t.isSpaced
    refine List.all_eq_true.mpr fun c hc => hgap c ?_
    cases hempty : t.attrs.isEmpty <;> rw [hempty] at hc
    · cases hc
    · exact List.mem_of_mem_take hc
  isEnded := rfl

theorem trimEndChars_append {front gap : List Char}
    (hlast : ∀ c ∈ front.getLast?, isBlank c = false)
    (hgap : gap.all isMarkupSpace = true) : trimEndChars (front ++ gap) = front := by
  have hblank : ∀ c ∈ gap.reverse, isBlank c = true := fun c hc =>
    isBlank_of_isMarkupSpace (List.all_eq_true.mp hgap c (List.mem_reverse.mp hc))
  rw [trimEndChars, List.reverse_append, List.dropWhile_append_of_pos hblank, List.reverse_eq_iff]
  rw [← List.head?_reverse] at hlast
  cases hfront : front.reverse with
  | nil => rfl
  | cons c before =>
    rw [hfront] at hlast
    rw [List.dropWhile_cons, if_neg (by rw [hlast c rfl]; exact Bool.false_ne_true)]

/-- What is kept of the attributes. -/
theorem closedAttributes?_append {attrs gap : List Char}
    (hhead : ∀ c ∈ attrs.head?, isBlank c = true) (hlast : ∀ c ∈ attrs.getLast?, isBlank c = false)
    (hgap : gap.all isMarkupSpace = true) :
    closedAttributes? (attrs ++ gap) =
      some (attrs ++ if attrs.isEmpty then gap.take 1 else []) := by
  have htrim := trimEndChars_append hlast hgap
  cases attrs with
  | nil =>
    cases gap with
    | nil => rfl
    | cons g gap =>
      have hg : isBlank g = true :=
        isBlank_of_isMarkupSpace (List.all_eq_true.mp hgap g List.mem_cons_self)
      rw [List.nil_append] at htrim ⊢
      rw [closedAttributes?, if_pos hg, htrim]
      rfl
  | cons c attrs =>
    rw [List.cons_append] at htrim ⊢
    rw [closedAttributes?, if_pos (hhead c rfl), htrim, List.length_cons,
      Nat.max_eq_right (Nat.succ_le_succ (Nat.zero_le _)), List.take_succ_cons, List.take_left]
    simp

/-! ## Finding the tag -/

/-- A closing bracket among the attributes is in a value. -/
theorem mem_attributesText {attrs : List AttributeText} :
    '>' ∈ attrs.flatMap AttributeText.text ↔ ∃ a ∈ attrs, '>' ∈ a.value.chars := by
  rw [List.mem_flatMap]
  refine exists_congr fun a => and_congr_right fun _ => ?_
  have hgap : '>' ∉ a.gap := fun hmem => by
    have hspaced := a.isSpaced
    rw [Bool.and_eq_true] at hspaced
    exact absurd (List.all_eq_true.mp hspaced.2 _ hmem) (by decide)
  have hname : '>' ∉ a.name := fun hmem => by
    have hnamed := a.isNamed
    rw [Bool.and_eq_true] at hnamed
    exact absurd (List.all_eq_true.mp hnamed.2 _ hmem) (by decide)
  rw [AttributeText.text, List.mem_append, List.mem_append]
  have hcomplete := a.isComplete
  cases hvalue : a.value with
  | absent => simp [ValueText.text, ValueText.chars, hgap, hname]
  | bare cs => simp [ValueText.text, ValueText.chars, hgap, hname]
  | quoted q cs =>
    have hq : q ≠ '>' := by
      rintro rfl
      rw [hvalue] at hcomplete
      cases hcomplete
    simp [ValueText.text, ValueText.chars, hgap, hname, Ne.symm hq]

/-- The text of a tag that closes itself, up to its closing bracket. -/
def frontText (t : TagText) : List Char :=
  '<' :: (t.name ++ (t.attrs.flatMap AttributeText.text ++ t.gap ++ ['/']))

theorem text_eq {t : TagText} (hcloses : t.closes = true) : t.text = frontText t ++ ['>'] := by
  simp [frontText, TagText.text, TagText.inside, TagText.ending, hcloses]

theorem head?_attributesText (attrs : List AttributeText) :
    ∀ c ∈ (attrs.flatMap AttributeText.text).head?, isBlank c = true := by
  intro c hc
  cases attrs with
  | nil => cases hc
  | cons a attrs =>
    obtain ⟨g, gap, hgap, hspace⟩ := a.exists_gap
    rw [List.flatMap_cons, AttributeText.text, hgap] at hc
    cases hc
    exact isBlank_of_isMarkupSpace hspace

theorem isEmpty_attributesText (attrs : List AttributeText) :
    (attrs.flatMap AttributeText.text).isEmpty = attrs.isEmpty := by
  cases attrs with
  | nil => rfl
  | cons a attrs =>
    obtain ⟨g, gap, hgap, -⟩ := a.exists_gap
    rw [List.flatMap_cons, AttributeText.text, hgap]
    rfl

theorem closedPair_eq (t : TagText) :
    closedPair t.name (t.attrs.flatMap AttributeText.text ++
      if (t.attrs.flatMap AttributeText.text).isEmpty then t.gap.take 1 else []) =
        (openedTag t).text ++ endTagText t.name := by
  simp [closedPair, openedTag, TagText.text, TagText.inside, TagText.ending, endTagText,
    isEmpty_attributesText]

/-- **The whole tag** is found, and made a pair of tags, when no closing bracket stands among its
attributes and no blank ends them. -/
theorem closedTag?_text {t : TagText} (hname : isComponentName t.name = true)
    (hcloses : t.closes = true) (hbracket : '>' ∉ t.attrs.flatMap AttributeText.text)
    (hlast : ∀ c ∈ (t.attrs.flatMap AttributeText.text).getLast?, isBlank c = false) :
    closedTag? (t.text ++ rest) =
      some ((openedTag t).text ++ endTagText t.name, t.text.length - 1) := by
  have hgap : '>' ∉ t.gap := fun hmem =>
    absurd (List.all_eq_true.mp t.isSpaced _ hmem) (by decide)
  have hfront : '>' ∉ frontText t := by
    have hnot := notMem_componentName hname (x := '>') (by decide)
    simp [frontText, hnot, hbracket, hgap]
  rw [text_eq hcloses, List.append_assoc]
  refine (closedTag?_bracket hfront).mpr ⟨t.name, t.attrs.flatMap AttributeText.text ++ t.gap, _,
    rfl, hname, closedAttributes?_append (head?_attributesText _) hlast t.isSpaced,
    (closedPair_eq t).symm, ?_⟩
  rw [List.length_append]
  rfl

/-- **The tag becomes a pair of tags**, and what is behind it is seen to by itself. -/
theorem closeTags_text {t : TagText} (hname : isComponentName t.name = true)
    (hcloses : t.closes = true) (hbracket : '>' ∉ t.attrs.flatMap AttributeText.text)
    (hlast : ∀ c ∈ (t.attrs.flatMap AttributeText.text).getLast?, isBlank c = false) :
    closeTags (t.text ++ rest) = (openedTag t).text ++ (endTagText t.name ++ closeTags rest) := by
  have hfound : closedTag? ('<' :: (t.inside ++ rest)) =
      some ((openedTag t).text ++ endTagText t.name, t.text.length - 1) :=
    closedTag?_text hname hcloses hbracket hlast
  have hdrop : (t.inside ++ rest).drop (t.text.length - 1) = rest := List.drop_left
  rw [closeTags, show t.text ++ rest = '<' :: (t.inside ++ rest) from rfl, substitute_some hfound,
    hdrop, List.append_assoc]
  rfl

/-- **The whole tag is found** only if no closing bracket stands among its attributes. -/
theorem notMem_of_closedTag? {t : TagText} {new : List Char}
    (h : closedTag? (t.text ++ rest) = some (new, t.text.length - 1)) :
    '>' ∉ t.attrs.flatMap AttributeText.text := by
  intro hmem
  obtain ⟨before, behind, hattrs, hbefore⟩ := List.eq_append_cons_of_mem hmem
  -- what is found ends at the first closing bracket
  have htext : t.text ++ rest =
      '<' :: (t.name ++ before) ++ '>' :: (behind ++ (t.ending ++ rest)) := by
    simp [TagText.text, TagText.inside, hattrs]
  have hname : '>' ∉ t.name := fun hmem => by
    have hword := t.isNamed
    rw [isTagWord, Bool.and_eq_true] at hword
    exact absurd (List.all_eq_true.mp hword.2 _ hmem) (by decide)
  have hfront : '>' ∉ '<' :: (t.name ++ before) := by simp [hname, hbefore]
  rw [htext] at h
  obtain ⟨-, -, -, -, -, -, -, hn⟩ := (closedTag?_bracket hfront).mp h
  -- the tag does not
  have hending : 0 < t.ending.length := by
    rw [TagText.ending, List.length_append]
    cases t.closes <;> exact Nat.lt_of_lt_of_le (by decide) (Nat.le_add_left ..)
  have hlength : t.text.length =
      (t.name ++ before).length + behind.length + t.ending.length + 2 := by
    simp only [TagText.text, TagText.inside, hattrs, List.length_cons, List.length_append]
    omega
  rw [List.length_cons] at hn
  omega

/-! ## Values in double quotes -/

/-- Whether the value stands in double quotes. -/
def isDoubleQuoted : ValueText → Bool
  | .quoted q _ => q == '"'
  | _ => false

theorem getLast?_of_doubleQuoted {attrs : List AttributeText}
    (hquoted : ∀ a ∈ attrs, isDoubleQuoted a.value = true) :
    ∀ c ∈ (attrs.flatMap AttributeText.text).getLast?, isBlank c = false := by
  intro c hc
  rcases List.eq_nil_or_concat attrs with rfl | ⟨front, a, rfl⟩
  · cases hc
  · have ha := hquoted a (by simp)
    cases hvalue : a.value with
    | absent => rw [hvalue] at ha; cases ha
    | bare cs => rw [hvalue] at ha; cases ha
    | quoted q cs =>
      rw [hvalue, isDoubleQuoted, beq_iff_eq] at ha
      subst ha
      have htext : (front ++ [a]).flatMap AttributeText.text =
          front.flatMap AttributeText.text ++ (a.gap ++ (a.name ++ '=' :: '"' :: cs)) ++ ['"'] := by
        simp [AttributeText.text, hvalue, ValueText.text]
      rw [List.concat_eq_append, htext, List.getLast?_concat] at hc
      cases hc
      rfl

/-! ## Reading the pair -/

/-- **Reading the pair** leaves one element without content where the tag stands. -/
theorem takes_pair {t : TagText} {b : Builder} {src : Source} {names : List String}
    (h : b.Inside names) (hnestable : nestable names (lowerName t.name) = true)
    (hsrc : src.text = t.text ++ (endTagText t.name ++ rest)) :
    ∃ b' src', b.Takes src b' src' names [.element ⟨.html, lowerName t.name⟩
      (plainAttrs (readAttributes [] t.attrs)) none []] rest := by
  have hbetween : src.text = t.text ++ ([] ++ (endTagText t.name ++ rest)) := hsrc
  obtain ⟨b', src', htakes, -⟩ := Builder.takes_element h hnestable t.readsAs
    (readsAs_endTagText t.isNamed) ⟨nofun, nofun⟩ hbetween rfl
    fun {b₁ src₁} hinside _ _ htext halone =>
      ⟨b₁, src₁, .refl b₁ src₁, hinside, rfl, .nil _ _, rfl, htext, halone⟩
  exact ⟨b', src', htakes⟩

/-- A name with a dash is no name of markup. -/
theorem contains_of_dash {names : List String} (hnames : names.all (!·.toList.contains '-') = true)
    (hname : isDashedName name = true) : names.contains (lowerName name) = false := by
  have hdash : '-' ∈ (lowerName name).toList := by
    rw [isDashedName, Bool.and_eq_true, List.contains_iff_mem] at hname
    rw [lowerName, String.toList_ofList]
    exact List.mem_map.mpr ⟨'-', hname.2, rfl⟩
  refine Bool.eq_false_iff.mpr fun hmem => ?_
  have hnot := List.all_eq_true.mp hnames _ (List.contains_iff_mem.mp hmem)
  rw [List.contains_iff_mem.mpr hdash] at hnot
  cases hnot

/-- **A name with a dash** may be written anywhere. -/
theorem nestable_of_isDashedName (names : List String) (hname : isDashedName name = true) :
    nestable names (lowerName name) = true := by
  have hnot : ∀ {n : String}, (!n.toList.contains '-') = true → lowerName name ≠ n := by
    intro n hn heq
    have hcontains : [n].contains (lowerName name) = false :=
      contains_of_dash (by simpa using hn) hname
    rw [heq] at hcontains
    simp at hcontains
  have hlist : ∀ {l : List String}, l.all (!·.toList.contains '-') = true →
      l.contains (lowerName name) = true → False := fun hl hmem => by
    rw [contains_of_dash hl hname] at hmem
    cases hmem
  rw [nestable_iff]
  exact ⟨contains_of_dash (by decide) hname, fun h => (hlist (by decide) h).elim,
    fun h => (hlist (by decide) h).elim, fun h => (hnot (by decide) h).elim,
    fun h => (hlist (by decide) h).elim, fun h => (hlist (by decide) h).elim,
    fun h => (hnot (by decide) h).elim⟩

/-! ## Component tags -/

/-- **Component tags that close themselves**, their values in double quotes. The whole tag is found
if and only if no value has a closing bracket. Then it becomes a pair of tags, and the rest of the
text is seen to by itself. Either tag of the pair is read as it is written, and reading both leaves
one element without content, so that what follows is not read as content of the component. -/
theorem closeTags_selfClosing (t : TagText) (rest : List Char)
    (hname : isComponentName t.name = true) (hcloses : t.closes = true)
    (hquoted : ∀ a ∈ t.attrs, isDoubleQuoted a.value = true) :
    (closedTag? (t.text ++ rest) =
        some ((openedTag t).text ++ endTagText t.name, t.text.length - 1) ↔
      ∀ a ∈ t.attrs, '>' ∉ a.value.chars) ∧
    ((∀ a ∈ t.attrs, '>' ∉ a.value.chars) →
      closeTags (t.text ++ rest) = (openedTag t).text ++ (endTagText t.name ++ closeTags rest) ∧
      ReadsAs (openedTag t).text
        (.startTag (lowerName t.name) (readAttributes [] t.attrs) false) ∧
      ReadsAs (endTagText t.name) (.endTag (lowerName t.name)) ∧
      ∀ (b : Builder) (src : Source) (names : List String), b.Inside names →
        isDashedName t.name = true ∨ nestable names (lowerName t.name) = true →
        src.text = closeTags (t.text ++ rest) →
        ∃ b' src', b.Takes src b' src' names [.element ⟨.html, lowerName t.name⟩
          (plainAttrs (readAttributes [] t.attrs)) none []] (closeTags rest)) := by
  have hlast := getLast?_of_doubleQuoted hquoted
  have hbracket : '>' ∉ t.attrs.flatMap AttributeText.text ↔
      ∀ a ∈ t.attrs, '>' ∉ a.value.chars := by
    rw [mem_attributesText]
    simp only [not_exists, not_and]
  refine ⟨⟨fun h => hbracket.mp (notMem_of_closedTag? h),
    fun h => closedTag?_text hname hcloses (hbracket.mpr h) hlast⟩, fun h => ?_⟩
  have hclose : closeTags (t.text ++ rest) =
      (openedTag t).text ++ (endTagText t.name ++ closeTags rest) :=
    closeTags_text hname hcloses (hbracket.mpr h) hlast
  refine ⟨hclose, (openedTag t).readsAs, readsAs_endTagText t.isNamed, ?_⟩
  intro b src names hinside hnames hsrc
  have hnestable : nestable names (lowerName t.name) = true :=
    hnames.elim (nestable_of_isDashedName names) id
  rw [hclose] at hsrc
  exact takes_pair (t := openedTag t) hinside hnestable hsrc

/-- The tag `<todo-item a="b/ c" d="" />`. -/
def todoItemTag : TagText where
  name := "todo-item".toList
  attrs := [⟨[' '], ['a'], .quoted '"' "b/ c".toList, rfl, rfl, rfl⟩,
    ⟨[' '], ['d'], .quoted '"' [], rfl, rfl, rfl⟩]
  gap := [' ']
  closes := true
  isNamed := rfl
  isSpaced := rfl
  isEnded := rfl

theorem closeTags_selfClosing_todoItem :
    closeTags "<todo-item a=\"b/ c\" d=\"\" /><p>".toList =
      "<todo-item a=\"b/ c\" d=\"\"></todo-item><p>".toList ∧
    ∃ b' src', (pageIn .inBody).Takes { front := closeTags (todoItemTag.text ++ "<p>".toList) }
      b' src' ["body", "html"]
      [.element ⟨.html, "todo-item"⟩ [⟨.none, "a", "b/ c"⟩, ⟨.none, "d", ""⟩] none []]
      "<p>".toList := by
  obtain ⟨-, hpair⟩ := closeTags_selfClosing todoItemTag "<p>".toList (by decide) rfl (by decide)
  obtain ⟨hclose, -, -, htakes⟩ := hpair (by decide)
  have hrest : closeTags "<p>".toList = "<p>".toList := by decide
  have htext : "<todo-item a=\"b/ c\" d=\"\" /><p>".toList = todoItemTag.text ++ "<p>".toList := by
    decide
  have hattrs : plainAttrs (readAttributes [] todoItemTag.attrs) =
      [⟨.none, "a", "b/ c"⟩, ⟨.none, "d", ""⟩] := by decide +kernel
  refine ⟨by rw [htext, hclose, hrest]; decide, ?_⟩
  have hread := htakes (pageIn .inBody) { front := closeTags (todoItemTag.text ++ "<p>".toList) } _
    inside_pageIn (.inl (by decide)) (by simp [Source.text])
  rw [hattrs, hrest] at hread
  exact hread

/-- With a closing bracket in a value the tag is left as it is, and what follows it is read as
content of the component. -/
theorem bracket_in_value_leaves_open :
    let tag := "<todo-item a=\"1 > 0\" />"
    let template := "<div><todo-item a=\"1 > 0\" /><p>next</p></div>"
    closeTags tag.toList = tag.toList ∧
    (compile {} template).problems = [] ∧
    (compile {} template).root.map (fun root =>
      VNode.listToHtml (renderNode (slotContext fun _ => []) root)) =
        some "<div><todo-item a=\"1 > 0\"><p>next</p></todo-item></div>" := by
  decide +kernel

end Componentry.Template
