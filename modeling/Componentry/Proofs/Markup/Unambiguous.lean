import Componentry.Proofs.Markup.Ordinary

/-!
# Markup that stands for one tree

A tree may have names, texts and values that no reader of markup would take for what they are. What
is written of it still stands for no other tree: each part is written so that its end is seen in
what was written, whatever comes behind it.

- `VNode.isWritable`: a tree that is written as it is. There are no placeholders, and no text that
  could not be seen or told from the one next to it.
- `VNode.unflagged`: the tree without the marks of hoisted trees, which are not written.
- `flatMap_append_inj`: items that are written one after the other are read one after the other.
- `VNode.unflagged_eq_of_append`: **a tree is told from what is written of it**, and so is where
  it ends.
- `VNode.toHtml_eq_iff`: two such trees are written alike **if and only if** they are the same up to
  these marks.
-/

namespace Componentry.VNode

open Markup

/-! ## Which trees -/

/-- The characters that separate the parts of a tag. -/
def tagMarks : List Char := "\"'=<>/".toList

/-- A character inside a name. -/
def isNameChar (c : Char) : Bool := !c.isWhitespace && !tagMarks.contains c

/-- A name that is neither taken for a part of the tag nor for the start of a comment. -/
def isMarkupName (s : String) : Bool :=
  !s.toList.isEmpty && s.toList.head? != some '!' && s.toList.all isNameChar

mutual

/-- **A tree that is written as it is.** Texts and values may be any; a comment has to end where its
end is written. -/
def isWritable : VNode → Bool
  | element tag attrs children _ =>
    isMarkupName tag && attrs.all (isMarkupName ·.1) &&
      (!voidTags.contains tag || children.isEmpty) && apart children && areWritable children
  | text s => !s.toList.isEmpty
  | comment s => !decide ("-->".toList <:+: s.toList)
  | component .. => false

def areWritable : List VNode → Bool
  | [] => true
  | n :: rest => isWritable n && areWritable rest

end

mutual

/-- A tree whose elements are not marked as hoisted. -/
def unflagged : VNode → VNode
  | element tag attrs children _ => element tag attrs (allUnflagged children) false
  | text s => text s
  | comment s => comment s
  | component tag ctor props listeners children =>
    component tag ctor props listeners (allUnflagged children)

def allUnflagged : List VNode → List VNode
  | [] => []
  | n :: rest => unflagged n :: allUnflagged rest

end

mutual

/-- The marks are not written. -/
theorem toHtml_unflagged : ∀ n : VNode, (unflagged n).toHtml = n.toHtml
  | element tag attrs children _ => by
    rw [unflagged, toHtml, toHtml, listToHtml_unflagged children]
  | text _ => rfl
  | comment _ => rfl
  | component .. => rfl

theorem listToHtml_unflagged : ∀ ns : List VNode, listToHtml (allUnflagged ns) = listToHtml ns
  | [] => rfl
  | n :: rest => by
    rw [allUnflagged, listToHtml, listToHtml, toHtml_unflagged n, listToHtml_unflagged rest]

end

/-! ## Parts that end where it is seen -/

section Parts

variable {α β : Type} {f : α → List β} {as bs : List α} {s t : List β}

/-- **Items one after the other.** If each is told from what is written of it, whatever comes behind
it, and none starts at what comes behind all of them, so are they all. -/
theorem flatMap_append_inj (hitem : ∀ a ∈ as, ∀ b ∈ bs, ∀ s t, f a ++ s = f b ++ t → a = b ∧ s = t)
    (hs : ∀ b ∈ bs, ∀ t, f b ++ t ≠ s) (ht : ∀ a ∈ as, ∀ s, f a ++ s ≠ t)
    (h : as.flatMap f ++ s = bs.flatMap f ++ t) : as = bs ∧ s = t := by
  induction as generalizing bs with
  | nil =>
    cases bs with
    | nil => exact ⟨rfl, h⟩
    | cons b bs =>
      rw [List.flatMap_nil, List.nil_append, List.flatMap_cons, List.append_assoc] at h
      exact absurd h.symm (hs b List.mem_cons_self _)
  | cons a as ih =>
    rw [List.flatMap_cons, List.append_assoc] at h
    cases bs with
    | nil => exact absurd h (ht a List.mem_cons_self _)
    | cons b bs =>
      rw [List.flatMap_cons, List.append_assoc] at h
      obtain ⟨rfl, hrest⟩ := hitem a List.mem_cons_self b List.mem_cons_self _ _ h
      obtain ⟨rfl, hend⟩ := ih (fun a ha b hb => hitem a (List.mem_cons_of_mem _ ha) b
        (List.mem_cons_of_mem _ hb)) (fun b hb => hs b (List.mem_cons_of_mem _ hb))
        (fun a ha => ht a (List.mem_cons_of_mem _ ha)) hrest
      exact ⟨rfl, hend⟩

/-- A run of characters of one kind, up to the first of another kind. -/
theorem run_append_inj {p : β → Bool} {as bs : List β} (has : as.all p = true)
    (hbs : bs.all p = true) (hs : s.head?.all (!p ·) = true) (ht : t.head?.all (!p ·) = true)
    (h : as ++ s = bs ++ t) : as = bs ∧ s = t := by
  have hrun : ∀ {cs : List β} {r : List β}, r.head?.all (!p ·) = true → cs.all p = true →
      ∀ c ∈ cs, ∀ q, [c] ++ q ≠ r := by
    rintro cs r hr hcs c hc q rfl
    rw [List.all_eq_true] at hcs
    simp [hcs c hc] at hr
  refine flatMap_append_inj (f := fun c => [c]) (fun a _ b _ s t h => List.cons_eq_cons.mp h)
    (hrun hs hbs) (hrun ht has) ?_
  rwa [List.flatMap_singleton', List.flatMap_singleton']

end Parts

/-! ## Texts and values -/

section Characters

variable {a b : Char} {as bs s t : List Char} {x y : String}

theorem escapeTextChar_append_inj (h : escapeTextChar a ++ s = escapeTextChar b ++ t) :
    a = b ∧ s = t := by
  unfold escapeTextChar at h
  split_ifs at h <;> simp at h <;> grind

theorem escapeAttrChar_append_inj (h : escapeAttrChar a ++ s = escapeAttrChar b ++ t) :
    a = b ∧ s = t := by
  unfold escapeAttrChar at h
  split_ifs at h <;> simp at h <;> grind

/-- No character is escaped to something that starts with a tag. -/
theorem escapeTextChar_starts (a : Char) : ∃ c q, escapeTextChar a = c :: q ∧ c ≠ '<' := by
  unfold escapeTextChar
  split_ifs with hamp hlt hgt
  · exact ⟨'&', _, rfl, by decide⟩
  · exact ⟨'&', _, rfl, by decide⟩
  · exact ⟨'&', _, rfl, by decide⟩
  · exact ⟨a, [], rfl, hlt⟩

theorem escapeAttrChar_ne_quote : escapeAttrChar a ++ s ≠ '"' :: t := by
  unfold escapeAttrChar
  split_ifs <;> simp_all

/-- Nothing else, or a tag. -/
def atTag (s : List Char) : Prop := s = [] ∨ ∃ t, s = '<' :: t

theorem escapeTextChar_not_atTag (hs : atTag s) : escapeTextChar a ++ t ≠ s := by
  obtain ⟨c, q, hq, hc⟩ := escapeTextChar_starts a
  rw [hq]
  rintro rfl
  obtain h | ⟨s, h⟩ := hs
  · cases h
  · exact hc (List.cons_eq_cons.mp h).1

/-- A text goes up to the next tag. -/
theorem text_append_inj (hs : atTag s) (ht : atTag t)
    (h : as.flatMap escapeTextChar ++ s = bs.flatMap escapeTextChar ++ t) : as = bs ∧ s = t :=
  flatMap_append_inj (fun _ _ _ _ _ _ => escapeTextChar_append_inj)
    (fun _ _ _ => escapeTextChar_not_atTag hs) (fun _ _ _ => escapeTextChar_not_atTag ht) h

/-- A value goes up to the next quote. -/
theorem value_append_inj
    (h : as.flatMap escapeAttrChar ++ '"' :: s = bs.flatMap escapeAttrChar ++ '"' :: t) :
    as = bs ∧ s = t := by
  obtain ⟨rfl, hrest⟩ := flatMap_append_inj (fun _ _ _ _ _ _ => escapeAttrChar_append_inj)
    (fun _ _ _ => escapeAttrChar_ne_quote) (fun _ _ _ => escapeAttrChar_ne_quote) h
  exact ⟨rfl, (List.cons_eq_cons.mp hrest).2⟩

/-- A name goes up to the first character that cannot be in one. -/
theorem name_append_inj (hx : isMarkupName x = true) (hy : isMarkupName y = true)
    (hs : s.head?.all (!isNameChar ·) = true) (ht : t.head?.all (!isNameChar ·) = true)
    (h : x.toList ++ s = y.toList ++ t) : x = y ∧ s = t := by
  simp only [isMarkupName, Bool.and_eq_true] at hx hy
  obtain ⟨hname, hrest⟩ := run_append_inj hx.2 hy.2 hs ht h
  exact ⟨String.toList_inj.mp hname, hrest⟩

/-- **A comment goes up to the first end of a comment** behind it. -/
theorem comment_append_inj (has : ¬"-->".toList <:+: as) (hbs : ¬"-->".toList <:+: bs)
    (h : as ++ ("-->".toList ++ s) = bs ++ ("-->".toList ++ t)) : as = bs ∧ s = t := by
  -- nothing but a whole end could be written between the ends of the two
  have hlonger : ∀ {more s t : List Char}, "-->".toList ++ s = more ++ ("-->".toList ++ t) →
      more = [] ∨ "-->".toList <+: more := by
    intro more s t h
    match more with
    | [] => exact .inl rfl
    | [c] => simp at h
    | [c, d] => simp at h
    | c :: d :: e :: more =>
      simp only [String.reduceToList, List.cons_append, List.cons.injEq] at h
      obtain ⟨rfl, rfl, rfl, -⟩ := h
      exact .inr ⟨more, rfl⟩
  rcases List.append_eq_append_iff.mp h with ⟨more, rfl, hmore⟩ | ⟨more, rfl, hmore⟩
  · obtain rfl | hend := hlonger hmore
    · exact ⟨(List.append_nil _).symm, List.append_cancel_left hmore⟩
    · exact absurd (hend.isInfix.trans (List.suffix_append _ _).isInfix) hbs
  · obtain rfl | hend := hlonger hmore
    · exact ⟨List.append_nil _, (List.append_cancel_left hmore).symm⟩
    · exact absurd (hend.isInfix.trans (List.suffix_append _ _).isInfix) has

end Characters

/-! ## Tags -/

section Tags

variable {tag tag' : String} {attrs attrs' : List (String × String)} {s t : List Char}

/-- An attribute goes up to the quote behind its value. -/
theorem attr_append_inj {a b : String × String} (ha : isMarkupName a.1 = true)
    (hb : isMarkupName b.1 = true) (h : writtenAttr a ++ s = writtenAttr b ++ t) :
    a = b ∧ s = t := by
  unfold writtenAttr at h
  simp only [List.cons_append, List.append_assoc, List.cons.injEq, true_and] at h
  obtain ⟨hname, hvalue⟩ := name_append_inj ha hb rfl rfl h
  simp only [List.cons.injEq, true_and] at hvalue
  obtain ⟨hvalue, hrest⟩ := value_append_inj hvalue
  exact ⟨Prod.ext hname (String.toList_inj.mp hvalue), hrest⟩

/-- The name of a tag ends where the attributes or the end of the tag are. -/
theorem head_attrs (attrs : List (String × String)) (s : List Char) :
    (attrs.flatMap writtenAttr ++ '>' :: s).head?.all (!isNameChar ·) = true := by
  cases attrs with
  | nil => rfl
  | cons a attrs =>
    rw [List.flatMap_cons, List.append_assoc, writtenAttr, List.cons_append]
    rfl

/-- **A start tag** tells its name and its attributes. -/
theorem start_append_inj (htag : isMarkupName tag = true) (htag' : isMarkupName tag' = true)
    (hattrs : attrs.all (isMarkupName ·.1) = true) (hattrs' : attrs'.all (isMarkupName ·.1) = true)
    (h : writtenStart tag attrs ++ s = writtenStart tag' attrs' ++ t) :
    tag = tag' ∧ attrs = attrs' ∧ s = t := by
  rw [List.all_eq_true] at hattrs hattrs'
  unfold writtenStart at h
  simp only [List.cons_append, List.append_assoc, List.cons.injEq, true_and, List.nil_append] at h
  obtain ⟨rfl, hrest⟩ := name_append_inj htag htag' (head_attrs ..) (head_attrs ..) h
  have hblank : ∀ (a : String × String) (q r : List Char), writtenAttr a ++ q ≠ '>' :: r :=
    fun a q r h => by simp [writtenAttr] at h
  obtain ⟨rfl, hend⟩ := flatMap_append_inj
    (fun a ha b hb _ _ => attr_append_inj (hattrs a ha) (hattrs' b hb))
    (fun b _ t => hblank b t _) (fun a _ s => hblank a s _) hrest
  exact ⟨rfl, rfl, (List.cons_eq_cons.mp hend).2⟩

end Tags

/-! ## Trees -/

variable {n m : VNode} {s t : List Char} {tag : String} {attrs : List (String × String)}
  {children : List VNode} {isStatic : Bool}

/-- What is written behind the start tag of an element. -/
def behindStart (tag : String) (children : List VNode) : List Char :=
  if voidTags.contains tag then [] else (listToHtml children).toList ++ writtenEnd tag

theorem toList_toHtml_start : (toHtml (element tag attrs children isStatic)).toList =
    writtenStart tag attrs ++ behindStart tag children := by
  cases hvoid : voidTags.contains tag with
  | true =>
    rw [toHtml, behindStart, hvoid, ← toList_startTag]
    exact (List.append_nil _).symm
  | false => rw [toList_toHtml_element hvoid, behindStart, hvoid, if_neg Bool.false_ne_true]

theorem toList_toHtml_comment (s : String) :
    (toHtml (comment s)).toList = '<' :: '!' :: '-' :: '-' :: (s.toList ++ "-->".toList) := by
  rw [toHtml]
  simp

/-- **How the markup of a tree starts**: a tag, a character of a text, or a comment. -/
def Starts : VNode → List Char → Prop
  | element .., cs => ∃ c rest, cs = '<' :: c :: rest ∧ c ≠ '!' ∧ c ≠ '/'
  | text _, cs => ∃ c rest, cs = c :: rest ∧ c ≠ '<'
  | comment _, cs => ∃ rest, cs = '<' :: '!' :: rest
  | component .., _ => False

/-- The first character of a name is not one that a comment or an end tag starts with. -/
theorem markupName_cons {x : String} (hx : isMarkupName x = true) :
    ∃ c cs, x.toList = c :: cs ∧ c ≠ '!' ∧ c ≠ '/' := by
  simp only [isMarkupName, Bool.and_eq_true, bne_iff_ne, ne_eq] at hx
  obtain ⟨⟨hne, hhead⟩, hchars⟩ := hx
  cases hcs : x.toList with
  | nil =>
    rw [hcs] at hne
    cases hne
  | cons c cs =>
    rw [hcs] at hhead hchars
    refine ⟨c, cs, rfl, fun h => hhead (congrArg some h), ?_⟩
    rintro rfl
    rw [List.all_cons] at hchars
    cases hchars

theorem starts_toHtml (hn : isWritable n = true) (s : List Char) :
    n.Starts (n.toHtml.toList ++ s) := by
  cases n with
  | element tag attrs children isStatic =>
    simp only [isWritable, Bool.and_eq_true] at hn
    obtain ⟨c, cs, hcs, hc⟩ := markupName_cons hn.1.1.1.1
    rw [toList_toHtml_start, writtenStart, hcs]
    exact ⟨c, _, rfl, hc⟩
  | text x =>
    rw [isWritable] at hn
    rw [toList_toHtml_text]
    cases hcs : x.toList with
    | nil =>
      rw [hcs] at hn
      cases hn
    | cons a cs =>
      obtain ⟨c, q, hq, hc⟩ := escapeTextChar_starts a
      rw [List.flatMap_cons, hq]
      exact ⟨c, _, rfl, hc⟩
  | comment x =>
    rw [toList_toHtml_comment]
    exact ⟨_, rfl⟩
  | component => cases hn

/-- Nothing else, or an end tag. -/
def atEndTag (s : List Char) : Prop := s = [] ∨ ∃ t, s = '<' :: '/' :: t

theorem atEndTag.atTag (h : atEndTag s) : atTag s :=
  h.imp_right fun ⟨_, ht⟩ => ⟨_, ht⟩

/-- **No tree starts where an element ends.** -/
theorem Starts.not_atEndTag (h : n.Starts s) : ¬atEndTag s := by
  rintro (rfl | ⟨t, rfl⟩) <;> cases n <;> simp [Starts] at h

/-- Only a text starts with something else than a tag. -/
theorem Starts.atTag (h : n.Starts s) (htext : n.isText = false) : atTag s := by
  cases n with
  | element =>
    obtain ⟨c, rest, rfl, -⟩ := h
    exact .inr ⟨_, rfl⟩
  | text => cases htext
  | comment =>
    obtain ⟨rest, rfl⟩ := h
    exact .inr ⟨_, rfl⟩
  | component => cases h

/-- A text is followed by a tag: of the element or comment next to it, or of the end of all. -/
theorem atTag_behind {rest : List VNode} (hapart : apart (n :: rest) = true)
    (hrest : areWritable rest = true) (hs : atEndTag s) (htext : n.isText = true) :
    atTag ((listToHtml rest).toList ++ s) := by
  cases rest with
  | nil =>
    rw [listToHtml]
    exact hs.atTag
  | cons m rest =>
    rw [apart, htext, Bool.true_and, Bool.and_eq_true, Bool.not_eq_true'] at hapart
    rw [areWritable, Bool.and_eq_true] at hrest
    rw [listToHtml, String.toList_append, List.append_assoc]
    exact (starts_toHtml hrest.1 _).atTag hapart.1

theorem apart_of_cons {rest : List VNode} (h : apart (n :: rest) = true) : apart rest = true := by
  cases rest with
  | nil => rfl
  | cons m rest =>
    rw [apart, Bool.and_eq_true] at h
    exact h.2

mutual

/-- **A tree is told from what is written of it**, up to the marks, and so is what is behind it. -/
theorem unflagged_eq_of_append : ∀ (n m : VNode) {s t : List Char}, isWritable n = true →
    isWritable m = true → (n.isText = true → atTag s) → (m.isText = true → atTag t) →
    n.toHtml.toList ++ s = m.toHtml.toList ++ t → unflagged n = unflagged m ∧ s = t
  | element tag attrs children _, m, s, t, hn, hm, _, _, h => by
    have hlike := starts_toHtml hn s
    have hlike' := starts_toHtml hm t
    cases m with
    | element tag' attrs' children' _ =>
      simp only [isWritable, Bool.and_eq_true, Bool.or_eq_true, Bool.not_eq_true',
        List.isEmpty_iff] at hn hm
      obtain ⟨⟨⟨⟨htag, hattrs⟩, hvoid⟩, hapart⟩, hchildren⟩ := hn
      obtain ⟨⟨⟨⟨htag', hattrs'⟩, hvoid'⟩, hapart'⟩, hchildren'⟩ := hm
      rw [toList_toHtml_start, toList_toHtml_start, List.append_assoc, List.append_assoc] at h
      obtain ⟨rfl, rfl, hbehind⟩ := start_append_inj htag htag' hattrs hattrs' h
      rw [behindStart, behindStart] at hbehind
      cases hempty : voidTags.contains tag with
      | true =>
        rw [hempty] at hvoid hvoid' hbehind
        obtain rfl : children = [] := hvoid.resolve_left nofun
        obtain rfl : children' = [] := hvoid'.resolve_left nofun
        exact ⟨rfl, hbehind⟩
      | false =>
        rw [hempty, if_neg Bool.false_ne_true, if_neg Bool.false_ne_true, List.append_assoc,
          List.append_assoc] at hbehind
        have hends : ∀ r, atEndTag (writtenEnd tag ++ r) := fun r => .inr ⟨_, rfl⟩
        obtain ⟨hsame, hrest⟩ := allUnflagged_eq_of_append children children' hapart hchildren
          hapart' hchildren' (hends s) (hends t) hbehind
        rw [unflagged, unflagged, hsame]
        exact ⟨rfl, List.append_cancel_left hrest⟩
    | _ => grind [Starts]
  | text x, m, s, t, hn, hm, hs, ht, h => by
    have hlike := starts_toHtml hn s
    have hlike' := starts_toHtml hm t
    cases m with
    | text y =>
      rw [toList_toHtml_text, toList_toHtml_text] at h
      obtain ⟨hxy, hrest⟩ := text_append_inj (hs rfl) (ht rfl) h
      exact ⟨congrArg text (String.toList_inj.mp hxy), hrest⟩
    | _ => grind [Starts]
  | comment x, m, s, t, hn, hm, _, _, h => by
    have hlike := starts_toHtml hn s
    have hlike' := starts_toHtml hm t
    cases m with
    | comment y =>
      simp only [isWritable, Bool.not_eq_true', decide_eq_false_iff_not] at hn hm
      simp only [toList_toHtml_comment, List.cons_append, List.append_assoc, List.cons.injEq,
        true_and] at h
      obtain ⟨hxy, hrest⟩ := comment_append_inj hn hm h
      exact ⟨congrArg comment (String.toList_inj.mp hxy), hrest⟩
    | _ => grind [Starts]

theorem allUnflagged_eq_of_append : ∀ (ns ms : List VNode) {s t : List Char},
    apart ns = true → areWritable ns = true → apart ms = true → areWritable ms = true →
    atEndTag s → atEndTag t → (listToHtml ns).toList ++ s = (listToHtml ms).toList ++ t →
    allUnflagged ns = allUnflagged ms ∧ s = t
  | [], [], s, t, _, _, _, _, _, _, h => ⟨rfl, h⟩
  | [], m :: ms, s, t, _, _, _, hm, hs, _, h => by
    rw [areWritable, Bool.and_eq_true] at hm
    rw [listToHtml, listToHtml, String.toList_append, List.append_assoc] at h
    have hstarts := starts_toHtml hm.1 ((listToHtml ms).toList ++ t)
    rw [← h] at hstarts
    exact absurd hs hstarts.not_atEndTag
  | n :: ns, [], s, t, _, hn, _, _, _, ht, h => by
    rw [areWritable, Bool.and_eq_true] at hn
    rw [listToHtml, listToHtml, String.toList_append, List.append_assoc] at h
    have hstarts := starts_toHtml hn.1 ((listToHtml ns).toList ++ s)
    rw [h] at hstarts
    exact absurd ht hstarts.not_atEndTag
  | n :: ns, m :: ms, s, t, hns, hn, hms, hm, hs, ht, h => by
    rw [areWritable, Bool.and_eq_true] at hn hm
    rw [listToHtml, listToHtml, String.toList_append, String.toList_append, List.append_assoc,
      List.append_assoc] at h
    obtain ⟨hfirst, hrest⟩ := unflagged_eq_of_append n m hn.1 hm.1 (atTag_behind hns hn.2 hs)
      (atTag_behind hms hm.2 ht) h
    obtain ⟨hothers, hend⟩ := allUnflagged_eq_of_append ns ms (apart_of_cons hns) hn.2
      (apart_of_cons hms) hm.2 hs ht hrest
    exact ⟨by rw [allUnflagged, allUnflagged, hfirst, hothers], hend⟩

end

/-- **Two trees are written alike** if and only if they are the same up to the marks of hoisted
trees. Whatever characters are in a text or a value, none of them is taken for markup. -/
theorem toHtml_eq_iff (hn : isWritable n = true) (hm : isWritable m = true) :
    n.toHtml = m.toHtml ↔ unflagged n = unflagged m := by
  constructor
  · intro h
    have hwhole : n.toHtml.toList ++ [] = m.toHtml.toList ++ [] := by rw [h]
    exact (unflagged_eq_of_append n m hn hm (fun _ => .inl rfl) (fun _ => .inl rfl) hwhole).1
  · intro h
    rw [← toHtml_unflagged n, ← toHtml_unflagged m, h]

/-- A value and a text that look like markup. -/
def disguised : VNode :=
  element "p" [("title", "a\" id=\"b")] [text "<br></p><!--", comment "x-", element "br" [] [] true]
    true

/-- The markup that they look like. -/
def genuine : VNode :=
  element "p" [("title", "a"), ("id", "b")]
    [element "br" [] [] false, comment "x-", element "br" [] [] false] false

theorem toHtml_eq_iff_disguised : isWritable disguised = true ∧ isWritable genuine = true ∧
    disguised.toHtml = disguised.unflagged.toHtml ∧ disguised.toHtml ≠ genuine.toHtml := by
  have hdisguised : isWritable disguised = true := by decide +kernel
  have hgenuine : isWritable genuine = true := by decide +kernel
  refine ⟨hdisguised, hgenuine, (toHtml_unflagged disguised).symm, fun h => ?_⟩
  have hsame := (toHtml_eq_iff hdisguised hgenuine).mp h
  simp [disguised, genuine, unflagged, allUnflagged] at hsame

end Componentry.VNode
