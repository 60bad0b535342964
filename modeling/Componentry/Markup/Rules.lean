import Componentry.Markup.Builder

/-!
# Tree construction: the rules of each insertion mode

One function per insertion mode, in an order such that each uses only those before it. A rule
either finishes a token or asks to read it again in another mode.

- `Builder.feed`: one token into the state.
-/

namespace Componentry.Markup

open Componentry.Text (isMarkupSpace)

def isSpaceRun (run : List Char) : Bool := run.all isMarkupSpace

/-- Asks to read `t` again in mode `m`. -/
def againIn (m : InsertionMode) (t : Token) : Build Flow := do
  setMode m
  return .again t

/-- Adds the attributes that the root does not have yet. -/
def mergeIntoRoot (attrs : List (String × String)) : Build Unit := do
  if !(← get).hasOpen "template" then
    modify fun b => { b with draft := b.draft.addMissingAttrs b.root attrs }

def createRoot (attrs : List (String × String)) : Build Unit := do
  let i ← newElement ⟨.html, "html"⟩ (plainAttrs attrs)
  pushOpen i
  modify fun b => { b with draft := b.draft.append 0 i }

/-! ## Before the body -/

/-- A document type other than plain `html` asks for quirks. -/
def initialRules (t : Token) : Build Flow :=
  match t with
  | .comment text => do insertCommentIn 0 text; return .done
  | .text run =>
    if isSpaceRun run then return .done
    else do
      modify fun b => { b with quirks := true }
      againIn .beforeHtml t
  | .doctype name quirks => do
    modify fun b =>
      let (d, i) := b.draft.add (.doctype name)
      { b with draft := d.append 0 i, quirks := quirks || name != "html", mode := .beforeHtml }
    return .done
  | t => do
    modify fun b => { b with quirks := true }
    againIn .beforeHtml t

/-- End tags that stand for the start of what follows when they come too early. -/
def opensWhatFollows (name : String) : Bool := ["head", "body", "html", "br"].contains name

def beforeHtmlRules (t : Token) : Build Flow :=
  let otherwise : Build Flow := do
    createRoot []
    againIn .beforeHead t
  match t with
  | .comment text => do insertCommentIn 0 text; return .done
  | .text run => if isSpaceRun run then return .done else otherwise
  | .startTag "html" attrs _ => do
    createRoot attrs
    setMode .beforeHead
    return .done
  | .endTag name => if opensWhatFollows name then otherwise else return .done
  | _ => otherwise

def metadataNames : List String := ["base", "basefont", "bgsound", "link", "meta"]

/-- Start tags that belong in the head wherever they stand. -/
def headNames : List String :=
  metadataNames ++ ["noframes", "script", "style", "template", "title"]

def inHeadRules (t : Token) : Build Flow :=
  let otherwise : Build Flow := do
    popOpen
    againIn .afterHead t
  match t with
  | .comment text => do insertComment text; return .done
  | .text run => if isSpaceRun run then do insertText run; return .done else otherwise
  | .startTag name attrs selfClosing =>
    let tag : Tag := ⟨name, attrs, selfClosing⟩
    if name = "html" then do mergeIntoRoot attrs; return .done
    else if metadataNames.contains name then do
      let _ ← insertVoid tag
      return .done
    else if name = "title" then do insertRawText tag (.titleText name); return .done
    else if name = "noframes" ∨ name = "style" ∨ name = "noscript" then do
      insertRawText tag (.rawText name)
      return .done
    else if name = "script" then do insertRawText tag .script; return .done
    else if name = "template" then do
      let _ ← insertElement tag
      pushMarker
      modify fun b =>
        { b with
          framesetOk := false
          mode := .inTemplate
          templateModes := .inTemplate :: b.templateModes }
      return .done
    else if name = "head" then return .done
    else otherwise
  | .endTag name =>
    if name = "head" then do
      popOpen
      setMode .afterHead
      return .done
    else if name = "template" then do
      if (← get).hasOpen "template" then
        impliedEnds thoroughImpliedEndNames
        popThroughNamed "template"
        clearFormattingToMarker
        modify fun b =>
          let b := { b with templateModes := b.templateModes.drop 1 }
          { b with mode := b.resetMode }
      return .done
    else if opensWhatFollows name then otherwise
    else return .done
  | _ => otherwise

def beforeHeadRules (t : Token) : Build Flow :=
  let otherwise : Build Flow := do
    let i ← insertElement ⟨"head", [], false⟩
    modify fun b => { b with head := some i }
    againIn .inHead t
  match t with
  | .comment text => do insertComment text; return .done
  | .text run => if isSpaceRun run then return .done else otherwise
  | .startTag "html" attrs _ => do mergeIntoRoot attrs; return .done
  | .startTag "head" attrs selfClosing => do
    let i ← insertElement ⟨"head", attrs, selfClosing⟩
    modify fun b => { b with head := some i, mode := .inHead }
    return .done
  | .endTag name => if opensWhatFollows name then otherwise else return .done
  | _ => otherwise

def afterHeadRules (t : Token) : Build Flow :=
  let otherwise : Build Flow := do
    insertImplied "body"
    againIn .inBody t
  match t with
  | .comment text => do insertComment text; return .done
  | .text run => if isSpaceRun run then do insertText run; return .done else otherwise
  | .startTag name attrs selfClosing =>
    let tag : Tag := ⟨name, attrs, selfClosing⟩
    if name = "html" then do mergeIntoRoot attrs; return .done
    else if name = "body" then do
      let _ ← insertElement tag
      clearFramesetOk
      setMode .inBody
      return .done
    else if name = "frameset" then do
      let _ ← insertElement tag
      setMode .inFrameset
      return .done
    else if headNames.contains name then do
      match (← get).head with
      | none => inHeadRules t
      | some head =>
        pushOpen head
        let flow ← inHeadRules t
        removeOpen head
        return flow
    else if name = "head" then return .done
    else otherwise
  | .endTag name =>
    if name = "template" then inHeadRules t
    else if opensWhatFollows name then otherwise
    else return .done
  | _ => otherwise

/-! ## Foreign content -/

/-- Names of SVG elements that have capitals. -/
def svgTagNames : List String :=
  ["altGlyph", "altGlyphDef", "altGlyphItem", "animateColor", "animateMotion", "animateTransform",
    "clipPath", "feBlend", "feColorMatrix", "feComponentTransfer", "feComposite",
    "feConvolveMatrix", "feDiffuseLighting", "feDisplacementMap", "feDistantLight", "feDropShadow",
    "feFlood", "feFuncA", "feFuncB", "feFuncG", "feFuncR", "feGaussianBlur", "feImage", "feMerge",
    "feMergeNode", "feMorphology", "feOffset", "fePointLight", "feSpecularLighting", "feSpotLight",
    "feTile", "feTurbulence", "foreignObject", "glyphRef", "linearGradient", "radialGradient",
    "textPath"]

/-- Names of SVG attributes that have capitals. -/
def svgAttrNames : List String :=
  ["attributeName", "attributeType", "baseFrequency", "baseProfile", "calcMode", "clipPathUnits",
    "diffuseConstant", "edgeMode", "filterUnits", "glyphRef", "gradientTransform",
    "gradientUnits", "kernelMatrix", "kernelUnitLength", "keyPoints", "keySplines", "keyTimes",
    "lengthAdjust", "limitingConeAngle", "markerHeight", "markerUnits", "markerWidth",
    "maskContentUnits", "maskUnits", "numOctaves", "pathLength", "patternContentUnits",
    "patternTransform", "patternUnits", "pointsAtX", "pointsAtY", "pointsAtZ", "preserveAlpha",
    "preserveAspectRatio", "primitiveUnits", "refX", "refY", "repeatCount", "repeatDur",
    "requiredExtensions", "requiredFeatures", "specularConstant", "specularExponent",
    "spreadMethod", "startOffset", "stdDeviation", "stitchTiles", "surfaceScale",
    "systemLanguage", "tableValues", "targetX", "targetY", "textLength", "viewBox", "viewTarget",
    "xChannelSelector", "yChannelSelector", "zoomAndPan"]

def asciiLower (s : String) : String := String.ofList (s.toList.map Char.toLower)

/-- The name among `names` that `name` is in lower case. -/
def restoreCase (names : List String) (name : String) : String :=
  (names.find? fun n => asciiLower n == name).getD name

/-- The prefix and local part of an attribute name in foreign content. -/
def foreignAttr (name value : String) : Attribute :=
  let xlink := ["actuate", "arcrole", "href", "role", "show", "title", "type"]
  match xlink.find? fun n => "xlink:" ++ n == name with
  | some n => ⟨.xlink, n, value⟩
  | none =>
    match ["lang", "space"].find? fun n => "xml:" ++ n == name with
    | some n => ⟨.xml, n, value⟩
    | none =>
      if name = "xmlns" then ⟨.xmlns, "xmlns", value⟩
      else if name = "xmlns:xlink" then ⟨.xmlns, "xlink", value⟩
      else ⟨.none, name, value⟩

def foreignAttrs (v : Vocabulary) (attrs : List (String × String)) : List Attribute :=
  attrs.map fun a =>
    let name := match v with
      | .svg => restoreCase svgAttrNames a.1
      | .mathml => if a.1 = "definitionurl" then "definitionURL" else a.1
      | .html => a.1
    foreignAttr name a.2

/-- Opens an element of a foreign vocabulary. A tag that closes itself has no content. -/
def insertForeign (v : Vocabulary) (tag : Tag) : Build Flow := do
  let name := if v == .svg then restoreCase svgTagNames tag.name else tag.name
  let _ ← openElement ⟨v, name⟩ (foreignAttrs v tag.attrs)
  if tag.selfClosing then popOpen
  return .done

/-! ## In the body -/

/-- Elements that close an open paragraph. -/
def blockNames : List String :=
  ["address", "article", "aside", "blockquote", "center", "details", "dialog", "dir", "div", "dl",
    "fieldset", "figcaption", "figure", "footer", "header", "hgroup", "main", "menu", "nav", "ol",
    "p", "search", "section", "summary", "ul"]

def blockEndNames : List String := (blockNames.erase "p") ++ ["button", "listing", "pre"]

def formattingNames : List String :=
  ["b", "big", "code", "em", "font", "i", "s", "small", "strike", "strong", "tt", "u"]

/-- Start tags of parts of a table or a page that stand alone in the body. -/
def misplacedNames : List String :=
  ["caption", "col", "colgroup", "frame", "head", "tbody", "td", "tfoot", "th", "thead", "tr"]

def isHiddenInput (attrs : List (String × String)) : Bool :=
  match attrs.lookup "type" with
  | some v => asciiLower v == "hidden"
  | none => false

/-- An item of a list closes the item before it. -/
def closeListItem (names : List String) : Build Unit := do
  clearFramesetOk
  let b ← get
  let stops (i : Nat) : Bool :=
    (b.tag i).isSpecial && !(b.tag i).isOneOf ["address", "div", "p"]
  match b.openElements.find? fun i => (b.tag i).isOneOf names || stops i with
  | some i =>
    if (b.tag i).isOneOf names then
      impliedEndsExcept (b.tag i).name
      popThroughNamed (b.tag i).name
  | none => pure ()

/-- The end of the input inside a template. -/
def endInTemplate : Build Flow := do
  if (← get).hasOpen "template" then
    popThroughNamed "template"
    clearFormattingToMarker
    modify fun b => { b with templateModes := b.templateModes.drop 1 }
    againIn (← get).resetMode .eof
  else return .done

def inBodyStart (t : Token) (tag : Tag) : Build Flow := do
  let name := tag.name
  if name = "html" then
    mergeIntoRoot tag.attrs
    return .done
  else if headNames.contains name then inHeadRules t
  else if name = "body" then
    let b ← get
    match b.body? with
    | some body =>
      if !b.hasOpen "template" then
        clearFramesetOk
        modify fun b => { b with draft := b.draft.addMissingAttrs body tag.attrs }
    | none => pure ()
    return .done
  else if name = "frameset" then
    let b ← get
    match b.body? with
    | some body =>
      if b.framesetOk then
        modify fun b => { b with draft := b.draft.detach body, openElements := [b.root] }
        let _ ← insertElement tag
        setMode .inFrameset
    | none => pure ()
    return .done
  else if blockNames.contains name then
    closeParagraphInButtonScope
    let _ ← insertElement tag
    return .done
  else if headingNames.contains name then
    closeParagraphInButtonScope
    if (← get).currentIs headingNames then popOpen
    let _ ← insertElement tag
    return .done
  else if name = "pre" ∨ name = "listing" then
    closeParagraphInButtonScope
    let _ ← insertElement tag
    modify fun b => { b with skipNewline := true, framesetOk := false }
    return .done
  else if name = "form" then
    let b ← get
    let inTemplate := b.hasOpen "template"
    if b.form.isNone || inTemplate then
      closeParagraphInButtonScope
      let i ← insertElement tag
      if !inTemplate then modify fun b => { b with form := some i }
    return .done
  else if name = "li" then
    closeListItem ["li"]
    closeParagraphInButtonScope
    let _ ← insertElement tag
    return .done
  else if name = "dd" ∨ name = "dt" then
    closeListItem ["dd", "dt"]
    closeParagraphInButtonScope
    let _ ← insertElement tag
    return .done
  else if name = "plaintext" then
    closeParagraphInButtonScope
    let _ ← insertElement tag
    modify fun b => { b with model := .plain }
    return .done
  else if name = "button" then
    if (← get).inScopeNamed TagName.endsScope "button" then
      impliedEnds impliedEndNames
      popThroughNamed "button"
    reconstructFormatting
    let _ ← insertElement tag
    clearFramesetOk
    return .done
  else if name = "a" then
    let b ← get
    match b.formattingToMarker.find? fun f => b.isNamed f.node "a" with
    | some f =>
      adoptionAgency "a"
      removeFormatting f.node
      removeOpen f.node
    | none => pure ()
    reconstructFormatting
    insertFormatting tag
    return .done
  else if formattingNames.contains name then
    reconstructFormatting
    insertFormatting tag
    return .done
  else if name = "nobr" then
    reconstructFormatting
    if (← get).inScopeNamed TagName.endsScope "nobr" then
      adoptionAgency "nobr"
      reconstructFormatting
    insertFormatting tag
    return .done
  else if name = "applet" ∨ name = "marquee" ∨ name = "object" then
    reconstructFormatting
    let _ ← insertElement tag
    pushMarker
    clearFramesetOk
    return .done
  else if name = "table" then
    if !(← get).quirks then closeParagraphInButtonScope
    let _ ← insertElement tag
    clearFramesetOk
    setMode .inTable
    return .done
  else if ["area", "br", "embed", "img", "keygen", "wbr", "input"].contains name then
    reconstructFormatting
    let _ ← insertVoid tag
    if !(name == "input" && isHiddenInput tag.attrs) then clearFramesetOk
    return .done
  else if ["param", "source", "track"].contains name then
    let _ ← insertVoid tag
    return .done
  else if name = "hr" then
    closeParagraphInButtonScope
    let _ ← insertVoid tag
    clearFramesetOk
    return .done
  else if name = "image" then
    reconstructFormatting
    let _ ← insertVoid { tag with name := "img" }
    clearFramesetOk
    return .done
  else if name = "textarea" then
    modify fun b => { b with skipNewline := true, framesetOk := false }
    insertRawText tag (.titleText name)
    return .done
  else if name = "xmp" then
    closeParagraphInButtonScope
    reconstructFormatting
    clearFramesetOk
    insertRawText tag (.rawText name)
    return .done
  else if name = "iframe" then
    clearFramesetOk
    insertRawText tag (.rawText name)
    return .done
  else if name = "noembed" ∨ name = "noscript" then
    insertRawText tag (.rawText name)
    return .done
  else if name = "select" then
    reconstructFormatting
    let _ ← insertElement tag
    clearFramesetOk
    modify fun b =>
      let inTable := [.inTable, .inCaption, .inTableBody, .inRow, .inCell].contains b.mode
      { b with mode := if inTable then .inSelectInTable else .inSelect }
    return .done
  else if name = "optgroup" ∨ name = "option" then
    if (← get).currentIs ["option"] then popOpen
    reconstructFormatting
    let _ ← insertElement tag
    return .done
  else if name = "rb" ∨ name = "rtc" then
    if (← get).inScopeNamed TagName.endsScope "ruby" then impliedEnds impliedEndNames
    let _ ← insertElement tag
    return .done
  else if name = "rp" ∨ name = "rt" then
    if (← get).inScopeNamed TagName.endsScope "ruby" then impliedEndsExcept "rtc"
    let _ ← insertElement tag
    return .done
  else if name = "math" then
    reconstructFormatting
    insertForeign .mathml tag
  else if name = "svg" then
    reconstructFormatting
    insertForeign .svg tag
  else if misplacedNames.contains name then return .done
  else
    reconstructFormatting
    let _ ← insertElement tag
    return .done

/-- Closes an element and those inside it, if it is in scope. -/
def closeInScope (name : String) : Build Bool := do
  if (← get).inScopeNamed TagName.endsScope name then
    impliedEnds impliedEndNames
    popThroughNamed name
    return true
  else return false

/-- The end tag of a form closes the form element remembered, wherever it is open. -/
def closeForm : Build Unit := do
  let b ← get
  if b.hasOpen "template" then discard <| closeInScope "form"
  else
    set { b with form := none }
    match b.form with
    | some form =>
      if b.inScope TagName.endsScope (· == form) then
        impliedEnds impliedEndNames
        removeOpen form
    | none => pure ()

def inBodyEnd (t : Token) (name : String) : Build Flow := do
  if name = "template" then inHeadRules t
  else if name = "body" then
    if (← get).inScopeNamed TagName.endsScope "body" then setMode .afterBody
    return .done
  else if name = "html" then
    if (← get).inScopeNamed TagName.endsScope "body" then againIn .afterBody t else return .done
  else if blockEndNames.contains name then
    discard <| closeInScope name
    return .done
  else if name = "form" then
    closeForm
    return .done
  else if name = "p" then
    if !(← get).inScopeNamed TagName.endsButtonScope "p" then insertImplied "p"
    closeParagraph
    return .done
  else if name = "li" then
    if (← get).inScopeNamed TagName.endsListItemScope "li" then
      impliedEndsExcept "li"
      popThroughNamed "li"
    return .done
  else if name = "dd" ∨ name = "dt" then
    if (← get).inScopeNamed TagName.endsScope name then
      impliedEndsExcept name
      popThroughNamed name
    return .done
  else if headingNames.contains name then
    let b ← get
    if b.inScope TagName.endsScope fun i => (b.tag i).isOneOf headingNames then
      impliedEnds impliedEndNames
      popThrough (·.isOneOf headingNames)
    return .done
  else if name = "a" ∨ name = "nobr" ∨ formattingNames.contains name then
    adoptionAgency name
    return .done
  else if name = "applet" ∨ name = "marquee" ∨ name = "object" then
    if ← closeInScope name then clearFormattingToMarker
    return .done
  else if name = "br" then inBodyStart (.startTag "br" [] false) ⟨"br", [], false⟩
  else
    closeGeneric name
    return .done

def inBodyRules (t : Token) : Build Flow :=
  match t with
  | .null | .malformed => return .done
  | .text run => do
    reconstructFormatting
    if !isSpaceRun run then clearFramesetOk
    insertText run
    return .done
  | .comment text => do insertComment text; return .done
  | .doctype .. => return .done
  | .startTag name attrs selfClosing => inBodyStart t ⟨name, attrs, selfClosing⟩
  | .endTag name => inBodyEnd t name
  | .eof => do
    if (← get).templateModes.isEmpty then return .done else endInTemplate

/-! ## Text -/

/-- Text of an element that is read under a model of its own. -/
def textRules (t : Token) : Build Flow := do
  let leave : Build Unit := do
    popOpen
    modify fun b => { b with mode := b.returnMode, model := .markup }
  match t with
  | .text run =>
    insertText run
    return .done
  | .eof =>
    leave
    return .again t
  | .endTag _ =>
    leave
    return .done
  | _ => return .done

/-! ## In tables -/

/-- The rules of the body, with content put before the table. -/
def fosterInBody (t : Token) : Build Flow := do
  modify fun b => { b with fostering := true, misplaced := b.misplaced + 1 }
  let flow ← inBodyRules t
  modify fun b => { b with fostering := false }
  return flow

def tableContext : List String := ["table", "template", "html"]

def tableBodyContext : List String := ["tbody", "tfoot", "thead", "template", "html"]

def rowContext : List String := ["tr", "template", "html"]

def tablePartEnds : List String :=
  ["body", "caption", "col", "colgroup", "html", "tbody", "td", "tfoot", "th", "thead", "tr"]

def tableTextOr (t : Token) : Build Flow := do
  if (← get).currentIs ["table", "tbody", "tfoot", "thead", "tr"] then
    modify fun b => { b with returnMode := b.mode }
    againIn .inTableText t
  else fosterInBody t

def inTableRules (t : Token) : Build Flow := do
  match t with
  | .null => tableTextOr t
  | .text _ => tableTextOr t
  | .comment text =>
    insertComment text
    return .done
  | .doctype .. | .malformed => return .done
  | .startTag name attrs selfClosing =>
    let tag : Tag := ⟨name, attrs, selfClosing⟩
    if name = "caption" then
      popTo (·.isOneOf tableContext)
      pushMarker
      let _ ← insertElement tag
      setMode .inCaption
      return .done
    else if name = "colgroup" then
      popTo (·.isOneOf tableContext)
      let _ ← insertElement tag
      setMode .inColumnGroup
      return .done
    else if name = "col" then
      popTo (·.isOneOf tableContext)
      insertImplied "colgroup"
      againIn .inColumnGroup t
    else if ["tbody", "tfoot", "thead"].contains name then
      popTo (·.isOneOf tableContext)
      let _ ← insertElement tag
      setMode .inTableBody
      return .done
    else if ["td", "th", "tr"].contains name then
      popTo (·.isOneOf tableContext)
      insertImplied "tbody"
      againIn .inTableBody t
    else if name = "table" then
      if (← get).inScopeNamed TagName.endsTableScope "table" then
        popThroughNamed "table"
        againIn (← get).resetMode t
      else return .done
    else if ["style", "script", "template"].contains name then inHeadRules t
    else if name = "input" ∧ isHiddenInput attrs then
      let _ ← insertVoid tag
      return .done
    else if name = "form" then
      let b ← get
      if !b.hasOpen "template" && b.form.isNone then
        let i ← insertVoid tag
        modify fun b => { b with form := some i }
      return .done
    else fosterInBody t
  | .endTag name =>
    if name = "table" then
      if (← get).inScopeNamed TagName.endsTableScope "table" then
        popThroughNamed "table"
        modify fun b => { b with mode := b.resetMode }
      return .done
    else if tablePartEnds.contains name then return .done
    else if name = "template" then inHeadRules t
    else fosterInBody t
  | .eof => inBodyRules t

/-- Text inside a table is collected first. If it is not all space, all of it goes before the
table. -/
def inTableTextRules (t : Token) : Build Flow := do
  match t with
  | .null => return .done
  | .text run =>
    modify fun b => { b with tableText := run :: b.tableText }
    return .done
  | t =>
    let runs := (← get).tableText.reverse
    modify fun b => { b with tableText := [] }
    if runs.all isSpaceRun then runs.forM insertText
    else runs.forM fun run => discard <| fosterInBody (.text run)
    againIn (← get).returnMode t

def inCaptionRules (t : Token) : Build Flow := do
  let close (next : Build Flow) : Build Flow := do
    if (← get).inScopeNamed TagName.endsTableScope "caption" then
      impliedEnds impliedEndNames
      popThroughNamed "caption"
      clearFormattingToMarker
      next
    else return .done
  match t with
  | .startTag name .. =>
    if ["caption", "col", "colgroup", "tbody", "td", "tfoot", "th", "thead", "tr"].contains name
    then close (againIn .inTable t)
    else inBodyRules t
  | .endTag name =>
    if name = "caption" then close (do setMode .inTable; return .done)
    else if name = "table" then close (againIn .inTable t)
    else if tablePartEnds.contains name then return .done
    else inBodyRules t
  | t => inBodyRules t

def inColumnGroupRules (t : Token) : Build Flow := do
  let otherwise : Build Flow := do
    if (← get).currentIs ["colgroup"] then
      popOpen
      againIn .inTable t
    else return .done
  match t with
  | .text run =>
    if isSpaceRun run then
      insertText run
      return .done
    else otherwise
  | .comment text =>
    insertComment text
    return .done
  | .startTag name attrs selfClosing =>
    if name = "html" then inBodyRules t
    else if name = "col" then
      let _ ← insertVoid ⟨name, attrs, selfClosing⟩
      return .done
    else if name = "template" then inHeadRules t
    else otherwise
  | .endTag name =>
    if name = "colgroup" then
      if (← get).currentIs ["colgroup"] then
        popOpen
        setMode .inTable
      return .done
    else if name = "col" then return .done
    else if name = "template" then inHeadRules t
    else otherwise
  | .eof => inBodyRules t
  | _ => otherwise

def inTableBodyRules (t : Token) : Build Flow := do
  let leave : Build Flow := do
    let b ← get
    if b.inScope TagName.endsTableScope fun i => (b.tag i).isOneOf ["table", "tbody", "tfoot"] then
      popTo (·.isOneOf tableBodyContext)
      popOpen
      againIn .inTable t
    else return .done
  match t with
  | .startTag name attrs selfClosing =>
    if name = "tr" then
      popTo (·.isOneOf tableBodyContext)
      let _ ← insertElement ⟨name, attrs, selfClosing⟩
      setMode .inRow
      return .done
    else if name = "th" ∨ name = "td" then
      popTo (·.isOneOf tableBodyContext)
      insertImplied "tr"
      againIn .inRow t
    else if ["caption", "col", "colgroup", "tbody", "tfoot", "thead"].contains name then leave
    else inTableRules t
  | .endTag name =>
    if ["tbody", "tfoot", "thead"].contains name then
      if (← get).inScopeNamed TagName.endsTableScope name then
        popTo (·.isOneOf tableBodyContext)
        popOpen
        setMode .inTable
      return .done
    else if name = "table" then leave
    else if tablePartEnds.contains name then return .done
    else inTableRules t
  | t => inTableRules t

def inRowRules (t : Token) : Build Flow := do
  let leave : Build Flow := do
    if (← get).inScopeNamed TagName.endsTableScope "tr" then
      popTo (·.isOneOf rowContext)
      popOpen
      againIn .inTableBody t
    else return .done
  match t with
  | .startTag name attrs selfClosing =>
    if name = "th" ∨ name = "td" then
      popTo (·.isOneOf rowContext)
      let _ ← insertElement ⟨name, attrs, selfClosing⟩
      setMode .inCell
      pushMarker
      return .done
    else if ["caption", "col", "colgroup", "tbody", "tfoot", "thead", "tr"].contains name then
      leave
    else inTableRules t
  | .endTag name =>
    if name = "tr" then
      if (← get).inScopeNamed TagName.endsTableScope "tr" then
        popTo (·.isOneOf rowContext)
        popOpen
        setMode .inTableBody
      return .done
    else if name = "table" then leave
    else if ["tbody", "tfoot", "thead"].contains name then
      if (← get).inScopeNamed TagName.endsTableScope name then leave else return .done
    else if tablePartEnds.contains name then return .done
    else inTableRules t
  | t => inTableRules t

def closeCell : Build Unit := do
  impliedEnds impliedEndNames
  popThrough (·.isOneOf ["td", "th"])
  clearFormattingToMarker

def inCellRules (t : Token) : Build Flow := do
  match t with
  | .startTag name .. =>
    if ["caption", "col", "colgroup", "tbody", "td", "tfoot", "th", "thead", "tr"].contains name
    then
      let b ← get
      if b.inScope TagName.endsTableScope fun i => (b.tag i).isOneOf ["td", "th"] then
        closeCell
        againIn .inRow t
      else return .done
    else inBodyRules t
  | .endTag name =>
    if name = "td" ∨ name = "th" then
      if (← get).inScopeNamed TagName.endsTableScope name then
        impliedEnds impliedEndNames
        popThroughNamed name
        clearFormattingToMarker
        setMode .inRow
      return .done
    else if ["table", "tbody", "tfoot", "thead", "tr"].contains name then
      if (← get).inScopeNamed TagName.endsTableScope name then
        closeCell
        againIn .inRow t
      else return .done
    else if tablePartEnds.contains name then return .done
    else inBodyRules t
  | t => inBodyRules t

/-! ## Selections, templates, frames and what follows the body -/

def inSelectRules (t : Token) : Build Flow := do
  match t with
  | .text run =>
    insertText run
    return .done
  | .comment text =>
    insertComment text
    return .done
  | .startTag name attrs selfClosing =>
    let tag : Tag := ⟨name, attrs, selfClosing⟩
    if name = "html" then inBodyRules t
    else if name = "option" then
      if (← get).currentIs ["option"] then popOpen
      let _ ← insertElement tag
      return .done
    else if name = "optgroup" then
      if (← get).currentIs ["option"] then popOpen
      if (← get).currentIs ["optgroup"] then popOpen
      let _ ← insertElement tag
      return .done
    else if name = "hr" then
      if (← get).currentIs ["option"] then popOpen
      if (← get).currentIs ["optgroup"] then popOpen
      let _ ← insertVoid tag
      return .done
    else if ["select", "input", "keygen", "textarea"].contains name then
      if (← get).inScopeNamed TagName.endsSelectScope "select" then
        popThroughNamed "select"
        modify fun b => { b with mode := b.resetMode }
        return if name = "select" then .done else .again t
      else return .done
    else if name = "script" ∨ name = "template" then inHeadRules t
    else return .done
  | .endTag name =>
    if name = "optgroup" then
      let b ← get
      let grouped := match b.openElements with
        | _ :: i :: _ => b.isNamed i "optgroup"
        | _ => false
      if b.currentIs ["option"] && grouped then popOpen
      if (← get).currentIs ["optgroup"] then popOpen
      return .done
    else if name = "option" then
      if (← get).currentIs ["option"] then popOpen
      return .done
    else if name = "select" then
      if (← get).inScopeNamed TagName.endsSelectScope "select" then
        popThroughNamed "select"
        modify fun b => { b with mode := b.resetMode }
      return .done
    else if name = "template" then inHeadRules t
    else return .done
  | .eof => inBodyRules t
  | _ => return .done

def inSelectInTableRules (t : Token) : Build Flow := do
  let tableNames := ["caption", "table", "tbody", "tfoot", "thead", "tr", "td", "th"]
  let leave : Build Flow := do
    popThroughNamed "select"
    againIn (← get).resetMode t
  match t with
  | .startTag name .. => if tableNames.contains name then leave else inSelectRules t
  | .endTag name =>
    if tableNames.contains name then
      if (← get).inScopeNamed TagName.endsTableScope name then leave else return .done
    else inSelectRules t
  | t => inSelectRules t

def inTemplateRules (t : Token) : Build Flow := do
  let switchTo (m : InsertionMode) : Build Flow := do
    modify fun b => { b with templateModes := m :: b.templateModes.drop 1 }
    againIn m t
  match t with
  | .text _ => inBodyRules t
  | .comment _ => inBodyRules t
  | .startTag name .. =>
    if headNames.contains name then inHeadRules t
    else if ["caption", "colgroup", "tbody", "tfoot", "thead"].contains name then switchTo .inTable
    else if name = "col" then switchTo .inColumnGroup
    else if name = "tr" then switchTo .inTableBody
    else if name = "td" ∨ name = "th" then switchTo .inRow
    else switchTo .inBody
  | .endTag name => if name = "template" then inHeadRules t else return .done
  | .eof => endInTemplate
  | _ => return .done

def afterBodyRules (t : Token) : Build Flow := do
  match t with
  | .text run => if isSpaceRun run then inBodyRules t else againIn .inBody t
  | .comment text =>
    insertCommentIn (← get).root text
    return .done
  | .doctype .. => return .done
  | .startTag "html" .. => inBodyRules t
  | .endTag "html" =>
    setMode .afterAfterBody
    return .done
  | .eof => return .done
  | t => againIn .inBody t

def inFramesetRules (t : Token) : Build Flow := do
  match t with
  | .text run =>
    if isSpaceRun run then insertText run
    return .done
  | .comment text =>
    insertComment text
    return .done
  | .startTag name attrs selfClosing =>
    let tag : Tag := ⟨name, attrs, selfClosing⟩
    if name = "html" then inBodyRules t
    else if name = "frameset" then
      let _ ← insertElement tag
      return .done
    else if name = "frame" then
      let _ ← insertVoid tag
      return .done
    else if name = "noframes" then inHeadRules t
    else return .done
  | .endTag "frameset" =>
    if (← get).openElements.length ≠ 1 then
      popOpen
      if !(← get).currentIs ["frameset"] then setMode .afterFrameset
    return .done
  | _ => return .done

def afterFramesetRules (t : Token) : Build Flow := do
  match t with
  | .text run =>
    if isSpaceRun run then insertText run
    return .done
  | .comment text =>
    insertComment text
    return .done
  | .startTag "html" .. => inBodyRules t
  | .startTag "noframes" .. => inHeadRules t
  | .endTag "html" =>
    setMode .afterAfterFrameset
    return .done
  | _ => return .done

def afterAfterBodyRules (t : Token) : Build Flow := do
  match t with
  | .text run => if isSpaceRun run then inBodyRules t else againIn .inBody t
  | .comment text =>
    insertCommentIn 0 text
    return .done
  | .doctype .. => return .done
  | .startTag "html" .. => inBodyRules t
  | .eof => return .done
  | t => againIn .inBody t

def afterAfterFramesetRules (t : Token) : Build Flow := do
  match t with
  | .text run => if isSpaceRun run then inBodyRules t else return .done
  | .comment text =>
    insertCommentIn 0 text
    return .done
  | .startTag "html" .. => inBodyRules t
  | .startTag "noframes" .. => inHeadRules t
  | _ => return .done

/-- The rules of the mode now set. -/
def rules (m : InsertionMode) (t : Token) : Build Flow :=
  match m with
  | .initial => initialRules t
  | .beforeHtml => beforeHtmlRules t
  | .beforeHead => beforeHeadRules t
  | .inHead => inHeadRules t
  | .afterHead => afterHeadRules t
  | .inBody => inBodyRules t
  | .text => textRules t
  | .inTable => inTableRules t
  | .inTableText => inTableTextRules t
  | .inCaption => inCaptionRules t
  | .inColumnGroup => inColumnGroupRules t
  | .inTableBody => inTableBodyRules t
  | .inRow => inRowRules t
  | .inCell => inCellRules t
  | .inSelect => inSelectRules t
  | .inSelectInTable => inSelectInTableRules t
  | .inTemplate => inTemplateRules t
  | .afterBody => afterBodyRules t
  | .inFrameset => inFramesetRules t
  | .afterFrameset => afterFramesetRules t
  | .afterAfterBody => afterAfterBodyRules t
  | .afterAfterFrameset => afterAfterFramesetRules t

/-! ## Foreign content, read -/

/-- HTML elements whose start tags end foreign content. -/
def breakoutNames : List String :=
  ["b", "big", "blockquote", "body", "br", "center", "code", "dd", "div", "dl", "dt", "em",
    "embed", "h1", "h2", "h3", "h4", "h5", "h6", "head", "hr", "i", "img", "li", "listing",
    "menu", "meta", "nobr", "ol", "p", "pre", "ruby", "s", "small", "span", "strong", "strike",
    "sub", "sup", "table", "tt", "u", "ul", "var"]

/-- Whether a token is read by the rules of foreign content. -/
def Builder.isForeign (b : Builder) (t : Token) : Bool :=
  let tag := b.currentTag
  let annotationIsHtml : Bool := (b.draft.attrs b.current).any fun a =>
    a.name == "encoding" && ["text/html", "application/xhtml+xml"].contains (asciiLower a.value)
  if b.openElements.isEmpty || tag.vocabulary == .html then false
  else
    match t with
    | .eof => false
    | .text _ | .null =>
      !(tag.isMathText || tag.isHtmlInside ||
        (tag == ⟨.mathml, "annotation-xml"⟩ && annotationIsHtml))
    | .startTag name .. =>
      !((tag.isMathText && name != "mglyph" && name != "malignmark") || tag.isHtmlInside ||
        (tag == ⟨.mathml, "annotation-xml"⟩ && (name == "svg" || annotationIsHtml)))
    | _ => true

/-- Closes foreign elements, then reads the tag by the rules of the mode. -/
def breakOut (t : Token) : Build Flow := do
  popTo fun tag => tag.vocabulary == .html || tag.isMathText || tag.isHtmlInside
  rules (← get).mode t

/-- An end tag in foreign content closes the nearest element of its name; from the first HTML
element on, the rules of the mode decide. -/
def foreignEnd (t : Token) (name : String) (first : Bool) : List Nat → Build Flow
  | [] => return .done
  | [_] => return .done
  | i :: outer => do
    let b ← get
    let tag := b.tag i
    if !first && tag.vocabulary == .html then rules b.mode t
    else if asciiLower tag.name == name then
      set { b with openElements := outer }
      return .done
    else foreignEnd t name false outer

def foreignRules (t : Token) : Build Flow := do
  match t with
  | .null =>
    insertText ['\uFFFD']
    return .done
  | .text run =>
    if !isSpaceRun run then clearFramesetOk
    insertText run
    return .done
  | .comment text =>
    insertComment text
    return .done
  | .startTag name attrs selfClosing =>
    let fontBreaks := attrs.any fun a => ["color", "face", "size"].contains a.1
    if breakoutNames.contains name || (name == "font" && fontBreaks) then breakOut t
    else insertForeign (← get).currentTag.vocabulary ⟨name, attrs, selfClosing⟩
  | .endTag name =>
    if name = "br" ∨ name = "p" then breakOut t
    else foreignEnd t name true (← get).openElements
  | _ => return .done

/-! ## Feeding tokens -/

/-- Reads a token until no rule asks to read it again, at most `n` times. -/
def feedUpTo : Nat → Token → Build Unit
  | 0, _ => pure ()
  | n + 1, t => do
    let b ← get
    match ← if b.isForeign t then foreignRules t else rules b.mode t with
    | .done => pure ()
    | .again t => feedUpTo n t

def feedOne (t : Token) : Build Unit := do
  feedUpTo (16 + 2 * (← get).openElements.length) t

/-- Modes whose rules tell spaces from other text. -/
def InsertionMode.splitsText (m : InsertionMode) : Bool :=
  match m with
  | initial | beforeHtml | beforeHead | inHead | afterHead | inColumnGroup => true
  | afterBody | inFrameset | afterFrameset | afterAfterBody | afterAfterFrameset => true
  | _ => false

/-- Feeds text, in runs that are all space or have none where the mode makes a difference between
the two; `n` bounds their number. -/
def feedText : Nat → List Char → Build Unit
  | 0, _ => pure ()
  | _, [] => pure ()
  | n + 1, c :: cs => do
    let b ← get
    if b.mode.splitsText && !b.isForeign (.text []) then
      let (run, later) := cs.span fun d => isMarkupSpace d == isMarkupSpace c
      feedOne (.text (c :: run))
      feedText n later
    else feedOne (.text (c :: cs))

/-- One token into the state. A line feed that follows certain start tags is dropped. -/
def Builder.feed (b : Builder) (t : Token) : Builder :=
  let skip := b.skipNewline
  let b := { b with skipNewline := false }
  match t with
  | .malformed => b
  | .text run =>
    let run := if skip && run.head? == some '\n' then run.drop 1 else run
    ((feedText run.length run).run b).2
  | .doctype .. => if b.mode == .initial then ((feedOne t).run b).2 else b
  | t => ((feedOne t).run b).2

end Componentry.Markup
