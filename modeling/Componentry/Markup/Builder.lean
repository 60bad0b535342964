import Componentry.Markup.Draft
import Componentry.Markup.Token

/-!
# Tree construction: state and common steps

Tokens become a tree under the rules of HTML: tags that the author left out are put in, misnested
tags are mended, and what stands where it must not moves elsewhere. The state of that work is a
`Builder`: the draft, the stack of open elements, the list of formatting elements to reopen, and
the insertion mode that says which rules apply.

- `Builder.inScope`: whether an element is open and reachable.
- `insertElement`, `insertText`: adding to the draft at the place the rules appoint.
- `reconstructFormatting`, `adoptionAgency`: reopening and mending formatting elements.
-/

namespace Componentry.Markup

/-- Which rules the next token is read by. -/
inductive InsertionMode where
  | initial
  | beforeHtml
  | beforeHead
  | inHead
  | afterHead
  | inBody
  | text
  | inTable
  | inTableText
  | inCaption
  | inColumnGroup
  | inTableBody
  | inRow
  | inCell
  | inSelect
  | inSelectInTable
  | inTemplate
  | afterBody
  | inFrameset
  | afterFrameset
  | afterAfterBody
  | afterAfterFrameset
  deriving Repr, DecidableEq, Inhabited

/-- A start tag as written. -/
structure Tag where
  name : String
  attrs : List (String × String)
  selfClosing : Bool
  deriving Inhabited

/-- A formatting element that may be reopened. -/
structure Formatting where
  node : Nat
  tag : Tag
  deriving Inhabited

structure Builder where
  draft : Draft := Draft.empty
  mode : InsertionMode := .initial
  /-- The mode to return to after text. -/
  returnMode : InsertionMode := .initial
  templateModes : List InsertionMode := []
  /-- Text inside a table, latest run first. -/
  tableText : List (List Char) := []
  quirks : Bool := false
  /-- Open elements, innermost first. -/
  openElements : List Nat := []
  /-- Formatting elements, latest first; `none` is a marker. -/
  formatting : List (Option Formatting) := []
  head : Option Nat := none
  form : Option Nat := none
  framesetOk : Bool := true
  /-- A line feed right after this point is dropped. -/
  skipNewline : Bool := false
  /-- Content of a table that is no table content goes before the table. -/
  fostering : Bool := false
  /-- How often that happened. -/
  misplaced : Nat := 0
  model : TextModel := .markup

/-- What a rule asks for. -/
inductive Flow where
  | done
  /-- Read the token again, in the mode now set. -/
  | again (t : Token)

abbrev Build := StateM Builder

/-! ## Sets of elements -/

/-- An HTML element with one of the names. -/
def TagName.isOneOf (t : TagName) (names : List String) : Bool :=
  t.vocabulary == .html && names.contains t.name

def TagName.isMathText (t : TagName) : Bool :=
  t.vocabulary == .mathml && ["mi", "mo", "mn", "ms", "mtext"].contains t.name

/-- An SVG element whose content is HTML. -/
def TagName.isHtmlInside (t : TagName) : Bool :=
  t.vocabulary == .svg && ["foreignObject", "desc", "title"].contains t.name

def TagName.endsScope (t : TagName) : Bool :=
  t.isOneOf ["applet", "caption", "html", "table", "td", "th", "marquee", "object", "template"]
    || t.isMathText || t.isHtmlInside

def TagName.endsListItemScope (t : TagName) : Bool := t.endsScope || t.isOneOf ["ol", "ul"]

def TagName.endsButtonScope (t : TagName) : Bool := t.endsScope || t.isOneOf ["button"]

def TagName.endsTableScope (t : TagName) : Bool := t.isOneOf ["html", "table", "template"]

def TagName.endsSelectScope (t : TagName) : Bool := !t.isOneOf ["optgroup", "option"]

def headingNames : List String := ["h1", "h2", "h3", "h4", "h5", "h6"]

/-- Elements whose end tag may be left out. -/
def impliedEndNames : List String :=
  ["dd", "dt", "li", "option", "optgroup", "p", "rb", "rp", "rt", "rtc"]

def thoroughImpliedEndNames : List String :=
  impliedEndNames ++ ["caption", "colgroup", "tbody", "td", "tfoot", "th", "thead", "tr"]

def specialNames : List String :=
  ["address", "applet", "area", "article", "aside", "base", "basefont", "bgsound", "blockquote",
    "body", "br", "button", "caption", "center", "col", "colgroup", "dd", "details", "dir", "div",
    "dl", "dt", "embed", "fieldset", "figcaption", "figure", "footer", "form", "frame", "frameset",
    "h1", "h2", "h3", "h4", "h5", "h6", "head", "header", "hgroup", "hr", "html", "iframe", "img",
    "input", "isindex", "li", "link", "listing", "main", "marquee", "menu", "meta", "nav",
    "noembed", "noframes", "noscript", "object", "ol", "p", "param", "plaintext", "pre", "script",
    "section", "select", "source", "style", "summary", "table", "tbody", "td", "template",
    "textarea", "tfoot", "th", "thead", "title", "tr", "track", "ul", "wbr", "xmp"]

def TagName.isSpecial (t : TagName) : Bool := t.isOneOf specialNames

/-! ## Looking at the state -/

namespace Builder

def tag (b : Builder) (i : Nat) : TagName := (b.draft.tag? i).getD ⟨.html, ""⟩

/-- The innermost open element. -/
def current (b : Builder) : Nat := b.openElements.headD 0

def currentTag (b : Builder) : TagName := b.tag b.current

def currentIs (b : Builder) (names : List String) : Bool := b.currentTag.isOneOf names

def isNamed (b : Builder) (i : Nat) (name : String) : Bool := b.tag i == ⟨.html, name⟩

/-- Whether an open element satisfies `p` with none before it that ends the scope. -/
def inScope (b : Builder) (ends : TagName → Bool) (p : Nat → Bool) : Bool :=
  match b.openElements.find? fun i => p i || ends (b.tag i) with
  | some i => p i
  | none => false

def inScopeNamed (b : Builder) (ends : TagName → Bool) (name : String) : Bool :=
  b.inScope ends (b.isNamed · name)

def hasOpen (b : Builder) (name : String) : Bool := b.openElements.any (b.isNamed · name)

def root (b : Builder) : Nat := b.openElements.getLastD 0

/-- The body, if it is the second open element. -/
def body? (b : Builder) : Option Nat :=
  match b.openElements.reverse with
  | _ :: i :: _ => if b.isNamed i "body" then some i else none
  | _ => none

/-- Formatting elements since the last marker, latest first. -/
def formattingToMarker (b : Builder) : List Formatting :=
  (b.formatting.takeWhile Option.isSome).filterMap id

def isFormatting (b : Builder) (i : Nat) : Bool :=
  b.formatting.any fun f => match f with
    | some f => f.node == i
    | none => false

/-- The mode that suits the open elements. -/
def resetMode (b : Builder) : InsertionMode :=
  let rec go : List Nat → InsertionMode
    | [] => .inBody
    | i :: outer =>
      let last := outer.isEmpty
      let t := b.tag i
      if t.vocabulary != .html then go outer
      else
        match t.name with
        | "select" =>
          match outer.find? fun a => b.isNamed a "template" || b.isNamed a "table" with
          | some a => if b.isNamed a "table" then .inSelectInTable else .inSelect
          | none => .inSelect
        | "td" | "th" => if last then go outer else .inCell
        | "tr" => .inRow
        | "tbody" | "thead" | "tfoot" => .inTableBody
        | "caption" => .inCaption
        | "colgroup" => .inColumnGroup
        | "table" => .inTable
        | "template" => b.templateModes.headD .inBody
        | "head" => if last then go outer else .inHead
        | "body" => .inBody
        | "frameset" => .inFrameset
        | "html" => if b.head.isNone then .beforeHead else .afterHead
        | _ => go outer
  go b.openElements

end Builder

/-! ## Places -/

/-- Where a node goes. -/
inductive Place where
  | lastChild (parent : Nat)
  /-- Before a table, or in the element open around it when the table has no parent. -/
  | beforeTable (table outer : Nat)

/-- The place for content of `target`. -/
def Builder.placeIn (b : Builder) (target : Nat) : Place :=
  let inside (i : Nat) : Place := .lastChild ((b.draft.contents? i).getD i)
  if b.fostering && (b.tag target).isOneOf ["table", "tbody", "tfoot", "thead", "tr"] then
    let rec go : List Nat → Place
      | [] => .lastChild b.root
      | i :: outer =>
        if b.isNamed i "template" then inside i
        else if b.isNamed i "table" then .beforeTable i (outer.headD 0)
        else go outer
    go b.openElements
  else inside target

def Place.insert (p : Place) (i : Nat) (d : Draft) : Draft :=
  match p with
  | lastChild parent => d.append parent i
  | beforeTable table outer =>
    if (d.node table).parent.isSome then d.insertBefore table i else d.append outer i

def Place.insertText (p : Place) (s : String) (d : Draft) : Draft :=
  match p with
  | lastChild parent => d.appendText parent s
  | beforeTable table outer =>
    if (d.node table).parent.isSome then d.insertTextBefore table s else d.appendText outer s

/-! ## Common steps -/

def setMode (m : InsertionMode) : Build Unit := modify fun b => { b with mode := m }

def clearFramesetOk : Build Unit := modify fun b => { b with framesetOk := false }

/-- A new element without a place. -/
def newElement (tag : TagName) (attrs : List Attribute) : Build Nat :=
  modifyGet fun b =>
    if tag == ⟨.html, "template"⟩ then
      let (d, contents) := b.draft.add .container
      let (d, i) := d.add (.element tag attrs (some contents))
      (i, { b with draft := d })
    else
      let (d, i) := b.draft.add (.element tag attrs none)
      (i, { b with draft := d })

def plainAttrs (attrs : List (String × String)) : List Attribute :=
  attrs.map fun a => ⟨.none, a.1, a.2⟩

def newHtmlElement (tag : Tag) : Build Nat := newElement ⟨.html, tag.name⟩ (plainAttrs tag.attrs)

/-- Puts a node where content of the current element goes. -/
def insertNode (i : Nat) : Build Unit :=
  modify fun b => { b with draft := (b.placeIn b.current).insert i b.draft }

def pushOpen (i : Nat) : Build Unit :=
  modify fun b => { b with openElements := i :: b.openElements }

def popOpen : Build Unit := modify fun b => { b with openElements := b.openElements.drop 1 }

/-- Opens a new element in the current one. -/
def openElement (tag : TagName) (attrs : List Attribute) : Build Nat := do
  let i ← newElement tag attrs
  insertNode i
  pushOpen i
  return i

def insertElement (tag : Tag) : Build Nat := openElement ⟨.html, tag.name⟩ (plainAttrs tag.attrs)

/-- An element for a tag that the author left out. -/
def insertImplied (name : String) : Build Unit := discard <| insertElement ⟨name, [], false⟩

/-- An element without content. -/
def insertVoid (tag : Tag) : Build Nat := do
  let i ← insertElement tag
  popOpen
  return i

def insertText (run : List Char) : Build Unit :=
  modify fun b =>
    { b with draft := (b.placeIn b.current).insertText (String.ofList run) b.draft }

def insertComment (text : List Char) : Build Unit := do
  let b ← get
  let (d, i) := b.draft.add (.comment (String.ofList text))
  set { b with draft := d }
  insertNode i

/-- A comment as the last child of a given node. -/
def insertCommentIn (parent : Nat) (text : List Char) : Build Unit :=
  modify fun b =>
    let (d, i) := b.draft.add (.comment (String.ofList text))
    { b with draft := d.append parent i }

/-- Closes elements up to and with the first that satisfies `p`. -/
def popThrough (p : TagName → Bool) : Build Unit :=
  modify fun b =>
    { b with openElements := (b.openElements.dropWhile fun i => !p (b.tag i)).drop 1 }

def popThroughNamed (name : String) : Build Unit := popThrough (· == ⟨.html, name⟩)

/-- Closes elements until the current one satisfies `p`. -/
def popTo (p : TagName → Bool) : Build Unit :=
  modify fun b => { b with openElements := b.openElements.dropWhile fun i => !p (b.tag i) }

/-- Closes elements whose end tags may be left out. -/
def impliedEnds (names : List String) : Build Unit := popTo fun t => !t.isOneOf names

def impliedEndsExcept (name : String) : Build Unit := impliedEnds (impliedEndNames.erase name)

def closeParagraph : Build Unit := do
  impliedEndsExcept "p"
  popThroughNamed "p"

def closeParagraphInButtonScope : Build Unit := do
  if (← get).inScopeNamed TagName.endsButtonScope "p" then closeParagraph

/-- Takes an element off the stack wherever it is. -/
def removeOpen (i : Nat) : Build Unit :=
  modify fun b => { b with openElements := b.openElements.erase i }

def removeFormatting (i : Nat) : Build Unit :=
  modify fun b =>
    { b with formatting := b.formatting.filter fun f => match f with
        | some f => f.node != i
        | none => true }

def clearFormattingToMarker : Build Unit :=
  modify fun b => { b with formatting := (b.formatting.dropWhile Option.isSome).drop 1 }

def pushMarker : Build Unit := modify fun b => { b with formatting := none :: b.formatting }

/-- Reopens the formatting elements that are no longer open, oldest first. -/
def reconstructFormatting : Build Unit := do
  let b ← get
  let closed := b.formatting.takeWhile fun f => match f with
    | some f => !b.openElements.contains f.node
    | none => false
  let reopened ← closed.reverse.mapM fun f => match f with
    | some f => do return some { f with node := (← insertElement f.tag) }
    | none => pure none
  modify fun b => { b with formatting := reopened.reverse ++ b.formatting.drop closed.length }

/-- Whether two tags have one name and the same attributes in any order. -/
def Tag.alike (a b : Tag) : Bool :=
  a.name == b.name && a.attrs.length == b.attrs.length && a.attrs.all b.attrs.contains

/-- Opens a formatting element. Of more than three alike the oldest is forgotten. -/
def insertFormatting (tag : Tag) : Build Unit := do
  let b ← get
  let alike := b.formattingToMarker.filter (tag.alike ·.tag)
  if 3 ≤ alike.length then
    match alike.getLast? with
    | some f => removeFormatting f.node
    | none => pure ()
  let i ← insertElement tag
  modify fun b => { b with formatting := some ⟨i, tag⟩ :: b.formatting }

/-- An end tag without rules of its own closes the nearest element of its name, unless a special
element stands between. -/
def closeGeneric (name : String) : Build Unit := do
  let b ← get
  match b.openElements.find? fun i => b.isNamed i name || (b.tag i).isSpecial with
  | none => pure ()
  | some i =>
    if b.isNamed i name then
      impliedEndsExcept name
      modify fun b => { b with openElements := (b.openElements.dropWhile (· != i)).drop 1 }

/-- The nodes between the furthest block and the formatting element, walked from the inside out.
Each formatting element among them is replaced by a copy that takes in what was built so far.
Gives the last node built and where the new formatting entry goes: right before (that is, later
than) the entry of that node. -/
def adoptInner (block : Nat) : List Nat → Nat → Nat → Option Nat → Build (Nat × Option Nat)
  | [], _, last, bookmark => pure (last, bookmark)
  | node :: outer, count, last, bookmark => do
    let b ← get
    match b.formatting.findSome? fun f => f.filter (·.node == node) with
    | none =>
      removeOpen node
      adoptInner block outer (count + 1) last bookmark
    | some f =>
      if 3 < count then
        removeFormatting node
        removeOpen node
        adoptInner block outer (count + 1) last bookmark
      else
        let copy ← newHtmlElement f.tag
        modify fun b =>
          { b with
            openElements := b.openElements.map fun i => if i == node then copy else i
            formatting := b.formatting.map fun g =>
              g.map fun g => if g.node == node then { g with node := copy } else g }
        let bookmark := if last == block then some copy else bookmark
        modify fun b => { b with draft := b.draft.append copy last }
        adoptInner block outer (count + 1) copy bookmark

/-- One round of mending after the end tag `name` of a formatting element. Whether another round
may follow. -/
def adoptOnce (name : String) : Build Bool := do
  let b ← get
  match b.formattingToMarker.find? (·.tag.name == name) with
  | none =>
    closeGeneric name
    return false
  | some f =>
    if !b.openElements.contains f.node then
      removeFormatting f.node
      return false
    else if !b.inScope TagName.endsScope (· == f.node) then return false
    else
      let inner := b.openElements.takeWhile (· != f.node)
      match inner.reverse.find? fun i => (b.tag i).isSpecial with
      | none =>
        modify fun b =>
          { b with openElements := (b.openElements.dropWhile (· != f.node)).drop 1 }
        removeFormatting f.node
        return false
      | some block =>
        let ancestor := ((b.openElements.dropWhile (· != f.node)).drop 1).headD 0
        let between := (inner.dropWhile (· != block)).drop 1
        let (last, bookmark) ← adoptInner block between 1 block none
        modify fun b => { b with draft := b.draft.detach last }
        modify fun b => { b with draft := (b.placeIn ancestor).insert last b.draft }
        let copy ← newHtmlElement f.tag
        modify fun b =>
          { b with draft := (b.draft.moveChildren block copy).append block copy }
        let entry : Option Formatting := some ⟨copy, f.tag⟩
        modify fun b =>
          let formatting := match bookmark with
            | none => b.formatting.map fun g => match g with
              | some g => if g.node == f.node then entry else some g
              | none => none
            | some mark =>
              (b.formatting.flatMap fun g => match g with
                | some g => if g.node == mark then [entry, some g] else [some g]
                | none => [none]).filter fun g => match g with
                | some g => g.node != f.node
                | none => true
          { b with
            formatting
            openElements := (b.openElements.erase f.node).flatMap fun i =>
              if i == block then [copy, i] else [i] }
        return true

/-- Rounds of mending, at most `n`. -/
def adoptRounds (name : String) : Nat → Build Unit
  | 0 => pure ()
  | n + 1 => do
    if ← adoptOnce name then adoptRounds name n

/-- The end tag of a formatting element. -/
def adoptionAgency (name : String) : Build Unit := do
  let b ← get
  if b.isNamed b.current name && !b.isFormatting b.current then popOpen
  else adoptRounds name 8

/-- Opens an element whose text is read under another model. -/
def insertRawText (tag : Tag) (model : TextModel) : Build Unit := do
  let _ ← insertElement tag
  modify fun b => { b with returnMode := b.mode, mode := .text, model }

end Componentry.Markup
