import Componentry.Proofs.Template.Hoist
import Componentry.Proofs.Template.Interpolation

/-!
# Templates that stay as they are written

Markup in which nothing asks for the instance renders to the tree that it is, whatever the context:
the same tags, attributes and texts. Only its blank texts are condensed, and it matters what counts
as blank. The code goes by the white space of Unicode, which has more characters than the white
space of markup, no-break spaces among them.

- `isVerbatim`: markup without comments, expressions, bindings, listeners, slots and components.
- `shown`: the tree that markup is, its blank texts condensed.
- `lowerNode_verbatim`: such markup becomes a static tree, one case per kind of node.
- `shown_eq_iff`: **two notions of blank** show the same tree if and only if they agree on its
  texts.
- `verbatim_rendered`: what a whole template of such markup renders to.
-/

namespace Componentry.Template

open Text (isBlankText isMarkupSpace)

/-! ## Markup that asks for nothing -/

/-- An attribute that is neither a binding nor a listener, and does not tell how the tag was
written. -/
def isPlainAttribute (a : Markup.Attribute) : Bool :=
  a.name != nameAttribute &&
    [":", "v-bind:", "@", "v-on:"].all fun front => !front.toList.isPrefixOf a.name.toList

mutual

/-- **Markup that asks for nothing**: no comments, no expressions in texts, no bindings, listeners
or slots, and no tags of components. -/
def isVerbatim (s : CompileSettings) : Markup.Node → Bool
  | .doctype _ => false
  | .text t => (nextExpression? s.opening s.closing t.toList).isNone
  | .comment _ => false
  | .element tag attrs contents children =>
    !tag.name.toList.contains '-' && tag.name != "slot" && attrs.all isPlainAttribute &&
      (isVerbatimContents s contents).getD (areVerbatim s children)

def isVerbatimContents (s : CompileSettings) : Option (List Markup.Node) → Option Bool
  | none => none
  | some ns => some (areVerbatim s ns)

def areVerbatim (s : CompileSettings) : List Markup.Node → Bool
  | [] => true
  | n :: rest => isVerbatim s n && areVerbatim s rest

end

/-! ## The tree that markup is -/

/-- A text that is all white space of markup. -/
def isSpaceText (t : String) : Bool := t.toList.all isMarkupSpace

/-- A text. A blank one goes if it has a line feed in it and is a single space otherwise. -/
def shownText (blank : String → Bool) (t : String) : List VNode :=
  if blank t then (if t.toList.contains '\n' then [] else [.text " "]) else [.text t]

mutual

/-- The tree that markup is, with its tags, attributes and texts. Blank texts are condensed. -/
def shown (blank : String → Bool) : Markup.Node → List VNode
  | .doctype _ => []
  | .text t => shownText blank t
  | .comment _ => []
  | .element tag attrs contents children =>
    let below := shownAll blank children
    [.element tag.name (attrs.map fun a => (a.name, a.value))
      ((shownContents blank contents).getD below) false]

def shownContents (blank : String → Bool) : Option (List Markup.Node) → Option (List VNode)
  | none => none
  | some ns => some (shownAll blank ns)

def shownAll (blank : String → Bool) : List Markup.Node → List VNode
  | [] => []
  | n :: rest => shown blank n ++ shownAll blank rest

end

mutual

/-- The texts in a node, in order. -/
def textsIn : Markup.Node → List String
  | .doctype _ => []
  | .text t => [t]
  | .comment _ => []
  | .element _ _ contents children =>
    let below := textsOf children
    (textsInContents contents).getD below

def textsInContents : Option (List Markup.Node) → Option (List String)
  | none => none
  | some ns => some (textsOf ns)

def textsOf : List Markup.Node → List String
  | [] => []
  | n :: rest => textsIn n ++ textsOf rest

end

/-! ## From markup to a static tree -/

theorem roleOf_plain {a : Markup.Attribute} (h : isPlainAttribute a = true) :
    roleOf a = .plain a.name a.value := by
  simp only [isPlainAttribute, List.all_cons, List.all_nil, Bool.and_eq_true, Bool.not_eq_true',
    bne_iff_ne, and_true] at h
  obtain ⟨hname, hcolon, hbind, hat, hon⟩ := h
  rw [roleOf, if_neg hname]
  simp only [without?, hcolon, hbind, hat, hon, Bool.false_eq_true, if_false]
  rfl

/-- An element that is no component's and no slot, and has plain attributes only. -/
theorem elementOf_plain {tag : String} {attrs : List Markup.Attribute} (children : List Node)
    (hdash : '-' ∉ tag.toList) (hslot : tag ≠ "slot")
    (hattrs : attrs.all isPlainAttribute = true) :
    elementOf tag (attrs.map roleOf) children =
      .element tag (attrs.map fun a => (a.name, a.value)) [] [] children false := by
  have hroles : attrs.map roleOf = attrs.map fun a => .plain a.name a.value :=
    List.map_congr_left fun a ha => roleOf_plain (List.all_eq_true.mp hattrs a ha)
  rw [hroles, elementOf]
  simp [List.filterMap_map, hdash, hslot]

/-- A text without expressions is one plain part. -/
theorem textParts_verbatim {s : CompileSettings} {t : String}
    (h : (nextExpression? s.opening s.closing t.toList).isNone = true)
    (hblank : isBlankText t = false) :
    textParts s t = [.literal t] := by
  obtain ⟨c, cs, hcs⟩ : ∃ c cs, t.toList = c :: cs := by
    cases ht : t.toList with
    | nil =>
      rw [isBlankText, ht] at hblank
      cases hblank
    | cons c cs => exact ⟨c, cs, rfl⟩
  have hsplit : piecesOf s t = ([], t.toList) := by
    rw [piecesOf, hcs, List.length_cons, splitText, ← hcs, Option.isNone_iff_eq_none.mp h]
  have hne : t.toList.isEmpty = false := by rw [hcs, List.isEmpty_cons]
  rw [textParts, hsplit]
  show [] ++ plainPart t.toList = _
  rw [plainPart, hne, List.nil_append, String.ofList_toList]
  rfl

section

variable {s : CompileSettings}

mutual

/-- **Markup that asks for nothing** becomes a static tree, which is the tree that the markup is. -/
theorem lowerNode_verbatim : ∀ x : Markup.Node, isVerbatim s x = true →
    Node.allStatic (lowerNode s x).toList = true ∧
      VNode.plainAll (Node.fixedAll (lowerNode s x).toList) = shown isBlankText x
  | .doctype _, h => by cases h
  | .text t, h => by
    rw [isVerbatim] at h
    rw [lowerNode, textOf?, shown, shownText]
    cases hblank : isBlankText t with
    | true =>
      simp only [if_true]
      split <;> exact ⟨rfl, rfl⟩
    | false =>
      rw [textParts_verbatim h hblank]
      refine ⟨rfl, ?_⟩
      simp [Node.fixedAll, Node.fixed, VNode.plainAll, VNode.plain, TextPart.literalText,
        String.join]
  | .comment _, h => by cases h
  | .element tag attrs contents children, h => by
    simp only [isVerbatim, Bool.and_eq_true, Bool.not_eq_true', bne_iff_ne,
      List.contains_eq_mem, decide_eq_false_iff_not] at h
    obtain ⟨⟨⟨hdash, hslot⟩, hattrs⟩, hbelow⟩ := h
    have hlowered : Node.allStatic ((lowerContents s contents).getD (lowerAll s children)) = true ∧
        VNode.plainAll (Node.fixedAll ((lowerContents s contents).getD (lowerAll s children))) =
          (shownContents isBlankText contents).getD (shownAll isBlankText children) := by
      cases contents with
      | none => exact lowerAll_verbatim children hbelow
      | some ns => exact lowerAll_verbatim ns hbelow
    rw [lowerNode, shown, elementOf_plain _ hdash hslot hattrs]
    refine ⟨?_, ?_⟩
    · simp only [Option.toList_some, Node.allStatic, Node.isStatic, hlowered.1]
      rfl
    · simp only [Option.toList_some, Node.fixedAll, Node.fixed, VNode.plainAll, VNode.plain,
        hlowered.2]

theorem lowerAll_verbatim : ∀ xs : List Markup.Node, areVerbatim s xs = true →
    Node.allStatic (lowerAll s xs) = true ∧
      VNode.plainAll (Node.fixedAll (lowerAll s xs)) = shownAll isBlankText xs
  | [], _ => ⟨rfl, rfl⟩
  | x :: rest, h => by
    rw [areVerbatim, Bool.and_eq_true] at h
    obtain ⟨hx, hxtree⟩ := lowerNode_verbatim x h.1
    obtain ⟨hrest, hrestTrees⟩ := lowerAll_verbatim rest h.2
    rw [lowerAll, shownAll, ← hxtree, ← hrestTrees]
    cases hlowered : lowerNode s x with
    | none => exact ⟨hrest, rfl⟩
    | some n =>
      rw [hlowered, Option.toList_some, Node.allStatic, Node.allStatic, Bool.and_true] at hx
      refine ⟨?_, rfl⟩
      show Node.allStatic (n :: lowerAll s rest) = true
      rw [Node.allStatic, hx, hrest]
      rfl

end

end

/-! ## Notions of blank -/

section

variable {p q : String → Bool}

/-- If more counts as blank, there is less to show. -/
theorem length_shownText_le (hqp : ∀ t, q t = true → p t = true) (t : String) :
    (shownText p t).length ≤ (shownText q t).length := by
  rw [shownText, shownText]
  cases hq : q t with
  | true => rw [hqp t hq]
  | false =>
    simp only [Bool.false_eq_true, if_false]
    split
    · split
      · exact Nat.zero_le _
      · exact Nat.le_refl _
    · exact Nat.le_refl _

theorem shownText_eq_iff (hqp : ∀ t, q t = true → p t = true) (hspace : q " " = true)
    (t : String) : shownText p t = shownText q t ↔ (p t = true → q t = true) := by
  cases hq : q t with
  | true => simp [shownText, hq, hqp t hq]
  | false =>
    cases hp : p t with
    | false => simp [shownText, hp, hq]
    | true =>
      have hne : " " ≠ t := by
        rintro rfl
        rw [hspace] at hq
        cases hq
      rw [shownText, shownText, hp, hq]
      refine iff_of_false (fun heq => ?_) (by simp)
      simp only [if_true, Bool.false_eq_true, if_false] at heq
      split at heq
      · cases heq
      · cases heq
        exact hne rfl

mutual

theorem length_shown_le (hqp : ∀ t, q t = true → p t = true) : ∀ x : Markup.Node,
    (shown p x).length ≤ (shown q x).length
  | .doctype _ => Nat.le_refl _
  | .text t => by
    rw [shown, shown]
    exact length_shownText_le hqp t
  | .comment _ => Nat.le_refl _
  | .element .. => by
    rw [shown, shown]
    exact Nat.le_refl _

theorem length_shownAll_le (hqp : ∀ t, q t = true → p t = true) : ∀ xs : List Markup.Node,
    (shownAll p xs).length ≤ (shownAll q xs).length
  | [] => Nat.le_refl _
  | x :: rest => by
    rw [shownAll, shownAll, List.length_append, List.length_append]
    exact Nat.add_le_add (length_shown_le hqp x) (length_shownAll_le hqp rest)

end

mutual

/-- **Two notions of blank**, one of which says more often that a text is, show the same tree if and
only if they agree on its texts. -/
theorem shown_eq_iff (hqp : ∀ t, q t = true → p t = true) (hspace : q " " = true) :
    ∀ x : Markup.Node, shown p x = shown q x ↔ ∀ t ∈ textsIn x, p t = true → q t = true
  | .doctype _ => by simp [shown, textsIn]
  | .text t => by
    rw [shown, shown, shownText_eq_iff hqp hspace t, textsIn, List.forall_mem_singleton]
  | .comment _ => by simp [shown, textsIn]
  | .element tag attrs contents children => by
    rw [shown, shown, textsIn, List.cons.injEq, VNode.element.injEq]
    simp only [true_and, and_true]
    cases contents with
    | none => exact shownAll_eq_iff hqp hspace children
    | some ns => exact shownAll_eq_iff hqp hspace ns

theorem shownAll_eq_iff (hqp : ∀ t, q t = true → p t = true) (hspace : q " " = true) :
    ∀ xs : List Markup.Node, shownAll p xs = shownAll q xs ↔
      ∀ t ∈ textsOf xs, p t = true → q t = true
  | [] => by simp [shownAll, textsOf]
  | x :: rest => by
    rw [textsOf, List.forall_mem_append, ← shown_eq_iff hqp hspace x,
      ← shownAll_eq_iff hqp hspace rest, shownAll, shownAll]
    refine ⟨fun heq => ?_, fun ⟨hx, hrest⟩ => by rw [hx, hrest]⟩
    -- both parts have to be as long, so they are the same
    have hlength := congrArg List.length heq
    rw [List.length_append, List.length_append] at hlength
    have hx := length_shown_le hqp x
    have hrest := length_shownAll_le hqp rest
    exact List.append_inj heq (by omega)

end

end

/-! ## The top of a document -/

def isElement : Markup.Node → Bool
  | .element .. => true
  | _ => false

mutual

/-- The nodes at the top that a node stands for: those in it, if it is there whether it was written
or not. -/
def topOf : Markup.Node → List Markup.Node
  | .element tag attrs contents children =>
    if isWrapper tag.name then topsOf children else [.element tag attrs contents children]
  | n => [n]

def topsOf : List Markup.Node → List Markup.Node
  | [] => []
  | n :: rest => topOf n ++ topsOf rest

end

section

variable {s : CompileSettings}

mutual

theorem rootsOfNode_eq : ∀ x : Markup.Node,
    rootsOfNode s x = (topOf x).flatMap fun x => (lowerNode s x).toList
  | .element tag attrs contents children => by
    rw [rootsOfNode, topOf]
    split
    · exact rootsOf_eq children
    · rw [List.flatMap_singleton]
  | .doctype _ => by simp [rootsOfNode, topOf]
  | .text _ => by simp [rootsOfNode, topOf]
  | .comment _ => by simp [rootsOfNode, topOf]

theorem rootsOf_eq : ∀ xs : List Markup.Node,
    rootsOf s xs = (topsOf xs).flatMap fun x => (lowerNode s x).toList
  | [] => rfl
  | x :: rest => by
    rw [rootsOf, topsOf, List.flatMap_append, rootsOfNode_eq x, rootsOf_eq rest]

end

theorem countsAsRoot_elementOf (tag : String) (roles : List AttributeRole) (children : List Node) :
    (elementOf tag roles children).countsAsRoot = true := by
  unfold elementOf
  dsimp only
  split <;> rfl

/-- What counts as a root is what is an element in the markup. -/
theorem filter_countsAsRoot (x : Markup.Node) :
    (lowerNode s x).toList.filter Node.countsAsRoot =
      if isElement x then (lowerNode s x).toList else [] := by
  cases x with
  | element tag attrs contents children =>
    rw [lowerNode, Option.toList_some, List.filter_cons, countsAsRoot_elementOf]
    rfl
  | text t =>
    rw [lowerNode, textOf?]
    split
    · split <;> rfl
    · rfl
  | comment c =>
    rw [lowerNode]
    split <;> rfl
  | doctype name => rfl

theorem filter_rootsOf (doc : List Markup.Node) :
    (rootsOf s doc).filter Node.countsAsRoot =
      ((topsOf doc).filter isElement).flatMap fun x => (lowerNode s x).toList := by
  rw [rootsOf_eq, List.filter_flatMap]
  induction topsOf doc with
  | nil => rfl
  | cons x rest ih =>
    rw [List.flatMap_cons, ih, filter_countsAsRoot, List.filter_cons]
    split
    · rw [List.flatMap_cons]
    · rw [List.nil_append]

end

/-! ## Whole templates -/

theorem isBlankText_of_isSpaceText {t : String} (h : isSpaceText t = true) :
    isBlankText t = true := by
  rw [isSpaceText, List.all_eq_true] at h
  rw [isBlankText, List.all_eq_true]
  exact fun c hc => Text.isBlank_of_isMarkupSpace (h c hc)

/-- What the hoisted root of a static tree renders to is the tree, and the context is asked for
nothing but the trees that were taken out. -/
theorem renderRoot_static {m : Type → Type} [Monad m] [LawfulMonad m] {ctx : RenderContext m}
    {n : Node} (hn : n.indices = []) (hstatic : n.isStatic = true)
    (hserved : ∀ i tree, (hoist 0 n).2[i]? = some tree → ctx.renderStatic i = pure tree) :
    (fun tree => [tree.plain]) <$> renderRoot ctx (some (hoist 0 n).1) =
      pure [n.fixed.plain] := by
  have hlike := renderNode_hoist (Likeness.serves_equal hserved) 0 n hn (holds_zero _)
  have hsame : (fun ns => [(ns.headD .empty).plain]) <$> renderNode ctx (hoist 0 n).1 =
      (fun ns => [(ns.headD .empty).plain]) <$> renderNode ctx n :=
    hlike.map_eq fun ns ns' hns => congrArg (fun n => [n]) (LikeNodes.headD hns)
  rw [renderNode_fixed ctx n hstatic hn, map_pure, List.headD_cons, VNode.plain_plain] at hsame
  rw [renderRoot, bind_pure_comp, Functor.map_map]
  exact hsame

/-- **Templates that stay as they are written.** A template whose one element asks for nothing
renders, in every context that has its hoisted trees, to the tree that the element is, but for
marks; of the context nothing else is asked. Its blank texts are condensed, those of no-break spaces
and the other white space of Unicode too. Every text that is not all white space of markup is kept
if and only if there are no such texts. -/
theorem verbatim_rendered {s : CompileSettings} (size : Nat) {doc : List Markup.Node}
    {x : Markup.Node} (htop : (topsOf doc).filter isElement = [x]) (hx : isVerbatim s x = true) :
    (∀ (m : Type → Type) [Monad m] [LawfulMonad m] (ctx : RenderContext m),
      (∀ i tree, (compileDocument s size doc).statics[i]? = some tree →
        ctx.renderStatic i = pure tree) →
      (fun tree => [tree.plain]) <$> renderRoot ctx (compileDocument s size doc).root =
        pure (shown isBlankText x)) ∧
    (shown isBlankText x = shown isSpaceText x ↔
      ∀ t ∈ textsIn x, isBlankText t = true → isSpaceText t = true) := by
  refine ⟨?_, shown_eq_iff (fun _ => isBlankText_of_isSpaceText) (by decide) x⟩
  have hroots := filter_rootsOf (s := s) doc
  rw [htop, List.flatMap_singleton] at hroots
  obtain ⟨hstatic, htree⟩ := lowerNode_verbatim x hx
  obtain ⟨n, hn⟩ : ∃ n, lowerNode s x = some n := by
    have helement : isElement x = true := (List.mem_filter.mp (htop ▸ List.mem_singleton_self x)).2
    cases x with
    | element => exact ⟨_, by rw [lowerNode]⟩
    | _ => cases helement
  rw [hn, Option.toList_some] at hroots hstatic htree
  rw [Node.allStatic, Node.allStatic, Bool.and_true] at hstatic
  have hindices : n.indices = [] := lowerNode_indices s x n (Option.mem_def.mpr hn)
  have hcompiled : (compileDocument s size doc).root = some (hoist 0 n).1 ∧
      (compileDocument s size doc).statics = (hoist 0 n).2 := by
    rw [compileDocument]
    dsimp only
    rw [hroots]
    exact ⟨rfl, rfl⟩
  intro m _ _ ctx hserved
  rw [hcompiled.2] at hserved
  rw [hcompiled.1, renderRoot_static hindices hstatic hserved, ← htree]
  rfl

/-- A list with blank texts of all kinds: a line end, a space, and a no-break space. -/
def menu : Markup.Node :=
  .element ⟨.html, "ul"⟩ [⟨.none, "class", "menu"⟩, ⟨.none, "id", "top"⟩] none
    [.text "\n  ", .element ⟨.html, "li"⟩ [] none [.text " one "], .text "\t ",
      .element ⟨.html, "li"⟩ [] none [.text "\u00A0"]]

/-- A page that the list is alone in, and what gives its hoisted trees. -/
def menuPage : List Markup.Node :=
  [.doctype "html", .element ⟨.html, "html"⟩ [] none
    [.element ⟨.html, "head"⟩ [] none [], .element ⟨.html, "body"⟩ [] none [menu, .text "\n"]]]

def menuContext : RenderContext Id :=
  { noticeContext with
    renderStatic := fun i => ((compileDocument {} 100 menuPage).statics[i]?).getD .empty }

theorem verbatim_rendered_menu :
    (topsOf menuPage).filter isElement = [menu] ∧ isVerbatim {} menu = true ∧
    (compileDocument {} 100 menuPage).statics.length = 1 ∧
    [(renderRoot menuContext (compileDocument {} 100 menuPage).root).plain] =
      [.element "ul" [("class", "menu"), ("id", "top")]
        [.element "li" [] [.text " one "] false, .text " ", .element "li" [] [.text " "] false]
        false] ∧
    shown isBlankText menu ≠ shown isSpaceText menu := by
  have htop : (topsOf menuPage).filter isElement = [menu] := rfl
  have hmenu : isVerbatim {} menu = true := by decide
  obtain ⟨hrendered, hiff⟩ := verbatim_rendered 100 htop hmenu
  refine ⟨htop, hmenu, rfl, ?_, fun heq => ?_⟩
  · refine (hrendered Id menuContext fun i tree hi => ?_).trans rfl
    show ((compileDocument {} 100 menuPage).statics[i]?).getD .empty = tree
    rw [hi, Option.getD_some]
  · have hspace := hiff.mp heq "\u00A0" (by decide) (by decide)
    cases hspace

/-- A reference to a no-break space between two elements. It is read as a text that is no white
space of markup, and comes out as a space. -/
theorem no_break_space_condensed :
    let template := "<p><b>a</b>&nbsp;<b>c</b></p>"
    let tops := (topsOf (Markup.Document.parse (prepare {} template)).nodes).filter isElement
    let ctx : RenderContext Id := { noticeContext with
      renderStatic := fun i => ((compile {} template).statics[i]?).getD .empty }
    tops.length = 1 ∧ areVerbatim {} tops = true ∧ isSpaceText "\u00A0" = false ∧
    VNode.listToHtml (shownAll isSpaceText tops) = "<p><b>a</b>\u00A0<b>c</b></p>" ∧
    (renderRoot ctx (compile {} template).root).toHtml = "<p><b>a</b> <b>c</b></p>" := by
  decide +kernel

end Componentry.Template
