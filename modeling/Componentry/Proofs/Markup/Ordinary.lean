import Componentry.Markup.Printer
import Componentry.Proofs.Markup.Nesting
import Componentry.Proofs.Markup.Tokens

/-!
# Trees of ordinary elements

Most of what is rendered are elements with content, one inside the other, and texts between them.
Both the markup of such a tree and the tree that is read from it are told by the tree.

- `VNode.isOrdinary`: a tree of elements that may stand where they are.
- `VNode.isPlain`: its texts and values have **no character that is not read as it stands**: none
  with number zero and no return.
- `VNode.noBreaks`: how many no-break spaces are in it. The printer of markup writes them as
  references, and a tree does not.
- `VNode.node`: the tree of markup that it stands for.
- `VNode.write_node_iff`: that tree is written like the tree itself **if and only if** it has none.
-/

namespace Componentry.VNode

open Markup

/-! ## Which trees -/

def isText : VNode → Bool
  | text _ => true
  | _ => false

/-- No two texts are next to each other. -/
def apart : List VNode → Bool
  | n :: m :: rest => !(n.isText && m.isText) && apart (m :: rest)
  | _ => true

mutual

/-- **A tree of ordinary elements**, which may stand in open elements of the names. Attributes have
different names, and texts are neither empty nor next to each other. -/
def isOrdinary (names : List String) : VNode → Bool
  | element tag attrs children _ =>
    isTagName tag && nestable names tag && attrs.all (isAttrName ·.1) && (attrs.map (·.1)).Nodup &&
      apart children && areOrdinary (tag :: names) children
  | text s => !s.toList.isEmpty
  | _ => false

def areOrdinary (names : List String) : List VNode → Bool
  | [] => true
  | n :: rest => isOrdinary names n && areOrdinary names rest

end

/-- Whether the first of the trees is a text that starts with a line end. -/
def startsWithNewline : List VNode → Bool
  | text s :: _ => s.toList.head? == some '\n'
  | _ => false

mutual

/-- **All text is read as it stands.** A line end at the start of preformatted text is not read. -/
def isPlain : VNode → Bool
  | element tag attrs children _ =>
    attrs.all (·.2.toList.all isKept) && !(dropsNewline tag && startsWithNewline children) &&
      arePlain children
  | text s => s.toList.all isKept
  | _ => true

def arePlain : List VNode → Bool
  | [] => true
  | n :: rest => isPlain n && arePlain rest

end

/-- How many no-break spaces a text has. -/
def noBreaksIn (s : String) : Nat := s.toList.count '\u00A0'

/-- How many are in the values of attributes. -/
def noBreaksOf : List (String × String) → Nat
  | [] => 0
  | a :: rest => noBreaksIn a.2 + noBreaksOf rest

mutual

/-- How many no-break spaces are in the texts and values of a tree. -/
def noBreaks : VNode → Nat
  | element _ attrs children _ => noBreaksOf attrs + noBreaksAll children
  | text s => noBreaksIn s
  | _ => 0

def noBreaksAll : List VNode → Nat
  | [] => 0
  | n :: rest => noBreaks n + noBreaksAll rest

end

mutual

/-- The tree of markup that a tree of elements and texts stands for. -/
def node : VNode → Node
  | element tag attrs children _ => .element ⟨.html, tag⟩ (plainAttrs attrs) none (nodes children)
  | text s => .text s
  | comment s => .comment s
  | component .. => .comment ""

def nodes : List VNode → List Node
  | [] => []
  | n :: rest => node n :: nodes rest

end

mutual

/-- There is no template in it. -/
theorem bare_node : ∀ n : VNode, (node n).Bare
  | element _ _ children _ => by
    rw [node, Node.Bare]
    exact ⟨rfl, allBare_nodes children⟩
  | text _ => trivial
  | comment _ => trivial
  | component .. => trivial

theorem allBare_nodes : ∀ ns : List VNode, AllBare (nodes ns)
  | [] => trivial
  | n :: rest => ⟨bare_node n, allBare_nodes rest⟩

end

/-! ## As it is written -/

variable {names : List String} {tag : String} {attrs : List (String × String)}
  {children : List VNode} {isStatic : Bool}

theorem toList_attrHtml (a : String × String) : (attrHtml a).toList = writtenAttr a := by
  rw [attrHtml, writtenAttr, escapeAttr]
  simp

theorem toList_startTag (tag : String) (attrs : List (String × String)) :
    (startTag tag attrs).toList = writtenStart tag attrs := by
  have hattrs : (attrs.map attrHtml).flatMap String.toList = attrs.flatMap writtenAttr := by
    rw [List.flatMap_map]
    exact congrArg (List.flatMap · attrs) (funext toList_attrHtml)
  rw [startTag, writtenStart, ← hattrs, ← String.toList_join]
  simp

theorem toList_toHtml_text (s : String) :
    (toHtml (text s)).toList = s.toList.flatMap escapeTextChar := by
  rw [toHtml, escapeText, String.toList_ofList]

theorem toList_toHtml_element (hvoid : voidTags.contains tag = false) :
    (toHtml (element tag attrs children isStatic)).toList =
      writtenStart tag attrs ++ ((listToHtml children).toList ++ writtenEnd tag) := by
  rw [toHtml, hvoid, ← toList_startTag, writtenEnd]
  simp

/-! ## Written again -/

/-- Two ways of escaping that differ in no-break spaces only, for which the first one writes five
characters more. -/
structure Differ (f g : Char → List Char) : Prop where
  noBreak : (f '\u00A0').length = (g '\u00A0').length + 5
  other : ∀ c, c ≠ '\u00A0' → f c = g c

namespace Differ

variable {f g : Char → List Char} {cs : List Char}

theorem text : Differ Markup.escapeTextChar escapeTextChar where
  noBreak := by decide
  other c hc := by rw [Markup.escapeTextChar, escapeTextChar, if_neg hc]

theorem attr : Differ Markup.escapeAttrChar escapeAttrChar where
  noBreak := by decide
  other c hc := by rw [Markup.escapeAttrChar, escapeAttrChar, if_neg hc]

theorem eq_of_count (h : Differ f g) (hcs : cs.count '\u00A0' = 0) :
    cs.flatMap f = cs.flatMap g := by
  refine congrArg List.flatten (List.map_congr_left fun c hc => h.other c ?_)
  rintro rfl
  exact List.count_eq_zero.mp hcs hc

theorem length (h : Differ f g) (cs : List Char) :
    (cs.flatMap f).length = (cs.flatMap g).length + 5 * cs.count '\u00A0' := by
  induction cs with
  | nil => rfl
  | cons c cs ih =>
    rw [List.flatMap_cons, List.flatMap_cons, List.length_append, List.length_append, ih,
      List.count_cons]
    by_cases hc : c = '\u00A0'
    · subst hc
      rw [h.noBreak, if_pos (beq_self_eq_true _)]
      omega
    · rw [h.other c hc, if_neg (by rwa [beq_iff_eq])]
      omega

end Differ

/-- An attribute with its blank, the value escaped in one way or another. -/
def attrWith (f : Char → List Char) (a : String × String) : List Char :=
  ' ' :: (a.1.toList ++ '=' :: '"' :: (a.2.toList.flatMap f ++ ['"']))

theorem toList_writeStart (tag : String) (attrs : List (String × String)) :
    (TagName.writeStart ⟨.html, tag⟩ (plainAttrs attrs)).toList =
      '<' :: (tag.toList ++ attrs.flatMap (attrWith Markup.escapeAttrChar) ++ ['>']) := by
  have hattrs : ((plainAttrs attrs).map Attribute.write).flatMap String.toList =
      attrs.flatMap (attrWith Markup.escapeAttrChar) := by
    rw [plainAttrs, List.map_map, List.flatMap_map]
    refine congrArg (List.flatMap · attrs) (funext fun a => ?_)
    show (" " ++ a.1 ++ "=\"" ++ Markup.escapeAttr a.2 ++ "\"").toList = _
    rw [Markup.escapeAttr, attrWith]
    simp
  rw [TagName.writeStart, ← hattrs, ← String.toList_join]
  simp

theorem length_flatMap_attrWith (attrs : List (String × String)) :
    (attrs.flatMap (attrWith Markup.escapeAttrChar)).length =
      (attrs.flatMap (attrWith escapeAttrChar)).length + 5 * noBreaksOf attrs := by
  induction attrs with
  | nil => rfl
  | cons a attrs ih =>
    simp only [List.flatMap_cons, List.length_append, noBreaksOf, ih, attrWith, List.length_cons,
      Differ.attr.length, noBreaksIn]
    omega

theorem flatMap_attrWith {attrs : List (String × String)}
    (h : noBreaksOf attrs = 0) :
    attrs.flatMap (attrWith Markup.escapeAttrChar) = attrs.flatMap (attrWith escapeAttrChar) := by
  induction attrs with
  | nil => rfl
  | cons a attrs ih =>
    rw [noBreaksOf, Nat.add_eq_zero_iff] at h
    rw [List.flatMap_cons, List.flatMap_cons, ih h.2, attrWith, attrWith,
      Differ.attr.eq_of_count h.1]

theorem writtenStart_eq (tag : String) (attrs : List (String × String)) :
    writtenStart tag attrs =
      '<' :: (tag.toList ++ attrs.flatMap (attrWith escapeAttrChar) ++ ['>']) := by
  rw [writtenStart, List.append_assoc]
  rfl

/-- A start tag is written with five characters more for each no-break space. -/
theorem length_writeStart (tag : String) (attrs : List (String × String)) :
    (TagName.writeStart ⟨.html, tag⟩ (plainAttrs attrs)).toList.length =
      (startTag tag attrs).toList.length + 5 * noBreaksOf attrs := by
  rw [toList_writeStart, toList_startTag, writtenStart_eq]
  simp only [List.length_cons, List.length_append, length_flatMap_attrWith]
  omega

theorem writeStart_eq {attrs : List (String × String)}
    (h : noBreaksOf attrs = 0) (tag : String) :
    TagName.writeStart ⟨.html, tag⟩ (plainAttrs attrs) = startTag tag attrs := by
  rw [← String.toList_inj, toList_writeStart, toList_startTag, writtenStart_eq, flatMap_attrWith h]

/-- What is written of an element with content. -/
theorem write_element (hpeculiar : peculiarNames.contains tag = false)
    (attrs : List (String × String)) (children : List VNode) (isStatic : Bool) :
    (node (element tag attrs children isStatic)).write false =
        TagName.writeStart ⟨.html, tag⟩ (plainAttrs attrs) ++
          writeNodes false (nodes children) ++ ("</" ++ tag ++ ">") ∧
      toHtml (element tag attrs children isStatic) =
        startTag tag attrs ++ listToHtml children ++ ("</" ++ tag ++ ">") := by
  have hvoid : TagName.isVoid ⟨.html, tag⟩ = false := contains_eq_false (by decide) hpeculiar
  have hraw : TagName.hasRawText ⟨.html, tag⟩ = false := contains_eq_false (by decide) hpeculiar
  have hempty : voidTags.contains tag = false := contains_eq_false (by decide) hpeculiar
  rw [node, Node.write, toHtml, hvoid, hraw, hempty, TagName.writeEnd]
  simp only [Bool.false_eq_true, if_false, String.append_assoc, and_self]

mutual

/-- **How much is written** of a tree by the printer of markup: five characters more for each
no-break space. -/
theorem length_write_node : ∀ {n : VNode} {names : List String}, isOrdinary names n = true →
    ((node n).write false).toList.length = n.toHtml.toList.length + 5 * noBreaks n
  | element tag attrs children isStatic, names, hordinary => by
    simp only [isOrdinary, Bool.and_eq_true] at hordinary
    obtain ⟨⟨⟨⟨⟨-, hnestable⟩, -⟩, -⟩, -⟩, hchildren⟩ := hordinary
    obtain ⟨hwrite, hhtml⟩ := write_element (nestable_iff.mp hnestable).1 attrs
      children isStatic
    rw [hwrite, hhtml, noBreaks]
    simp only [String.toList_append, List.length_append, length_writeStart,
      length_writeNodes hchildren]
    omega
  | text s, _, _ => by
    rw [node, Node.write, toHtml, noBreaks, noBreaksIn, if_neg Bool.false_ne_true,
      Markup.escapeText, escapeText, String.toList_ofList, String.toList_ofList,
      Differ.text.length]

theorem length_writeNodes : ∀ {ns : List VNode} {names : List String}, areOrdinary names ns = true →
    (writeNodes false (nodes ns)).toList.length =
      (listToHtml ns).toList.length + 5 * noBreaksAll ns
  | [], _, _ => rfl
  | n :: rest, names, hordinary => by
    rw [areOrdinary, Bool.and_eq_true] at hordinary
    rw [nodes, writeNodes, listToHtml, noBreaksAll, String.toList_append, String.toList_append,
      List.length_append, List.length_append, length_write_node hordinary.1,
      length_writeNodes hordinary.2]
    omega

end

mutual

/-- A tree without no-break spaces is written alike by the printer of markup. -/
theorem write_node : ∀ {n : VNode} {names : List String}, isOrdinary names n = true →
    noBreaks n = 0 → (node n).write false = toHtml n
  | element tag attrs children isStatic, names, hordinary, hnone => by
    simp only [isOrdinary, Bool.and_eq_true] at hordinary
    rw [noBreaks, Nat.add_eq_zero_iff] at hnone
    obtain ⟨⟨⟨⟨⟨-, hnestable⟩, -⟩, -⟩, -⟩, hchildren⟩ := hordinary
    obtain ⟨hwrite, hhtml⟩ := write_element (nestable_iff.mp hnestable).1 attrs
      children isStatic
    rw [hwrite, hhtml, writeStart_eq hnone.1, write_nodes hchildren hnone.2]
  | text s, _, _, hnone => by
    rw [noBreaks, noBreaksIn] at hnone
    rw [node, Node.write, toHtml, if_neg Bool.false_ne_true, Markup.escapeText, escapeText,
      Differ.text.eq_of_count hnone]

theorem write_nodes : ∀ {ns : List VNode} {names : List String}, areOrdinary names ns = true →
    noBreaksAll ns = 0 → writeNodes false (nodes ns) = listToHtml ns
  | [], _, _, _ => rfl
  | n :: rest, names, hordinary, hnone => by
    rw [areOrdinary, Bool.and_eq_true] at hordinary
    rw [noBreaksAll, Nat.add_eq_zero_iff] at hnone
    rw [nodes, writeNodes, listToHtml, write_node hordinary.1 hnone.1,
      write_nodes hordinary.2 hnone.2]

end

/-- **A tree is written alike** by the printer of markup if and only if no no-break space is in
it. -/
theorem write_node_iff {n : VNode} (hordinary : isOrdinary names n = true) :
    (node n).write false = toHtml n ↔ noBreaks n = 0 := by
  refine ⟨fun heq => ?_, write_node hordinary⟩
  have hlength := length_write_node hordinary
  rw [heq] at hlength
  omega

end Componentry.VNode
