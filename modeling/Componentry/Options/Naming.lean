import Componentry.Journal
import Componentry.Text.LetterCase

/-!
# Names of components and directives

Advice on the names under which components and directives are registered.

- `checkComponentName`: whether a component name will do; warns if not.
- `checkDirectiveName`: warns about the names of built-in directives.
-/

namespace Componentry

/-- Ranges above ASCII of characters in the name of a custom element. -/
def elementNameRanges : List (Nat × Nat) :=
  [(0xB7, 0xB7), (0xC0, 0xD6), (0xD8, 0xF6), (0xF8, 0x37D), (0x37F, 0x1FFF), (0x200C, 0x200D),
    (0x203F, 0x2040), (0x2070, 0x218F), (0x2C00, 0x2FEF), (0x3001, 0xD7FF), (0xF900, 0xFDCF),
    (0xFDF0, 0xFFFD)]

def isElementNameChar (c : Char) : Bool :=
  if c.val < 128 then c.isAlphanum || c == '-' || c == '.' || c == '_'
  else elementNameRanges.any fun r => r.1 ≤ c.toNat && c.toNat ≤ r.2

/-- A letter followed by characters of element names. -/
def isElementName (s : String) : Bool :=
  match s.toList with
  | [] => false
  | c :: cs => c.isAlpha && cs.all isElementNameChar

/-- Tags with a meaning of their own in templates. -/
def builtinTags : List String := ["slot", "component"]

/-- Tags of HTML and SVG, in lower case. -/
def reservedTags : List String :=
  ["html", "body", "base", "head", "link", "meta", "style", "title", "address", "article", "aside",
    "footer", "header", "h1", "h2", "h3", "h4", "h5", "h6", "hgroup", "nav", "section", "div",
    "dd", "dl", "dt", "figcaption", "figure", "picture", "hr", "img", "li", "main", "ol", "p",
    "pre", "ul", "a", "b", "abbr", "bdi", "bdo", "br", "cite", "code", "data", "dfn", "em", "i",
    "kbd", "mark", "q", "rp", "rt", "rtc", "ruby", "s", "samp", "small", "span", "strong", "sub",
    "sup", "time", "u", "var", "wbr", "area", "audio", "map", "track", "video", "embed", "object",
    "param", "source", "canvas", "script", "noscript", "del", "ins", "caption", "col", "colgroup",
    "table", "thead", "tbody", "td", "th", "tr", "button", "datalist", "fieldset", "form", "input",
    "label", "legend", "meter", "optgroup", "option", "output", "progress", "select", "textarea",
    "details", "dialog", "menu", "menuitem", "summary", "content", "element", "shadow",
    "template", "blockquote", "iframe", "tfoot", "svg", "animate", "circle", "clippath", "cursor",
    "defs", "desc", "ellipse", "filter", "font-face", "foreignobject", "g", "glyph", "image",
    "line", "marker", "mask", "missing-glyph", "path", "pattern", "polygon", "polyline", "rect",
    "switch", "symbol", "text", "textpath", "tspan", "use", "view"]

def builtinDirectives : List String :=
  ["bind", "cloak", "else", "else-if", "for", "html", "if", "model", "on", "once", "pre", "show",
    "slot", "text"]

/-- Whether `name` will do for a component. -/
def checkComponentName (cfg : Config) (name : String) : Noting Bool := do
  if !isElementName name then
    warnAlone cfg ("Invalid component name: \"" ++ name ++ "\". Component names should conform to "
      ++ "valid custom element name in html5 specification.")
    return false
  else if (builtinTags ++ reservedTags).contains (Text.lower name) then
    warnAlone cfg
      ("Do not use built-in or reserved HTML elements as component id: " ++ name)
    return false
  else return true

def checkDirectiveName (cfg : Config) (name : String) : Noting Unit := do
  if builtinDirectives.contains name then
    warnAlone cfg ("Do not use built-in directive ids as custom directive id: " ++ name)

end Componentry
