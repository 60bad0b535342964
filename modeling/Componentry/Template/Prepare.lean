import Componentry.Template.Settings
import Componentry.Text.Blank

/-!
# Preparing the markup of a template

Markup has neither tags that keep their case nor tags of components that close themselves. Three
passes over the text of a template make up for it before it is read as markup.

- `closeTags`: `<todo-item a="b" />` becomes `<todo-item a="b"></todo-item>`.
- `markTags`: `<TodoItem>` gets an attribute with its name as it is written.
- `guardNewlines`: references to line feeds and tabs in attribute values stay as they are
  written, unless the settings ask for them to be decoded.
- `prepare`: all three.
-/

namespace Componentry.Template

/-! ## Substitution -/

/-- A stretch at the front of a text: what replaces it, and how many characters after the first
belong to it. -/
abbrev Stretch := List Char × Nat

/-- Replaces the stretches that `m` finds, from left to right. `skip` characters still belong to
the last stretch. -/
def substituteFrom (m : List Char → Option Stretch) : Nat → List Char → List Char
  | _, [] => []
  | skip + 1, _ :: cs => substituteFrom m skip cs
  | 0, c :: cs =>
    match m (c :: cs) with
    | some (new, n) => new ++ substituteFrom m n cs
    | none => c :: substituteFrom m 0 cs

def substitute (m : List Char → Option Stretch) (cs : List Char) : List Char :=
  substituteFrom m 0 cs

/-! ## Names of component tags -/

/-- A name with a capital, and what follows it. -/
def pascalName? : List Char → Option (List Char × List Char)
  | c :: cs => if c.isUpper then some ((c :: cs).span Char.isAlphanum) else none
  | [] => none

def isLowerAlphanum (c : Char) : Bool := c.isLower || c.isDigit

/-- A name of small letters with a dash in it, and what follows it. -/
def dashedName? : List Char → Option (List Char × List Char)
  | c :: cs =>
    if c.isLower then
      let (front, rest) := (c :: cs).span isLowerAlphanum
      match rest with
      | '-' :: _ =>
        let (back, rest) := rest.span fun c => isLowerAlphanum c || c == '-'
        some (front ++ back, rest)
      | _ => none
    else none
  | [] => none

/-! ## Tags that close themselves -/

/-- The attributes of a tag that closes itself, from the text between its name and `/>`. They
start with a blank, and all but the first of the blanks at their end go. -/
def closedAttributes? (body : List Char) : Option (List Char) :=
  match body with
  | [] => some []
  | c :: _ =>
    if Text.isBlank c then some (body.take (max 1 (Text.trimEndChars body).length)) else none

/-- A component tag that closes itself, as a pair of tags. -/
def closedTag? : List Char → Option Stretch
  | '<' :: cs => do
    let (name, rest) ← pascalName? cs <|> dashedName? cs
    let body := rest.takeWhile (· != '>')
    guard (body.length < rest.length)
    guard (body.getLast? == some '/')
    let attrs ← closedAttributes? body.dropLast
    return ('<' :: name ++ attrs ++ ['>', '<', '/'] ++ name ++ ['>'],
      name.length + body.length + 1)
  | _ => none

/-- Closes the component tags that close themselves by tags of their own. -/
def closeTags (cs : List Char) : List Char := substitute closedTag? cs

/-! ## Names as written -/

/-- The attribute that keeps the name of a tag as it is written. -/
def nameAttribute : String := "data-orig-name"

/-- Whether a tag goes on after its name: a blank, or its end. -/
def endsName : List Char → Bool
  | '>' :: _ => true
  | '/' :: '>' :: _ => true
  | c :: _ => Text.isBlank c
  | [] => false

/-- The start of a tag whose name has a capital, with the attribute for the name. -/
def markedTag? : List Char → Option Stretch
  | '<' :: cs => do
    let (name, rest) ← pascalName? cs
    guard (endsName rest)
    return ('<' :: name ++ ' ' :: nameAttribute.toList ++ ['=', '"'] ++ name ++ ['"'],
      name.length)
  | _ => none

/-- Records the names of tags before markup turns them into small letters. -/
def markTags (cs : List Char) : List Char := substitute markedTag? cs

/-! ## References to newlines -/

/-- A reference to a line feed or a tab, its ampersand as a reference. -/
def guardedReference? : List Char → Option Stretch
  | '&' :: '#' :: '1' :: '0' :: ';' :: _ => some ("&amp;#10;".toList, 4)
  | '&' :: '#' :: '9' :: ';' :: _ => some ("&amp;#9;".toList, 3)
  | _ => none

def guardReferences (cs : List Char) : List Char := substitute guardedReference? cs

/-- Characters in the name of an attribute. -/
def isAttributeNameChar (c : Char) : Bool :=
  !(Text.isBlank c || c == '=' || c == '/' || c == '>' || c == '"' || c == '\'')

/-- Whether references in the values of an attribute are decoded. -/
def decodes (s : CompileSettings) (name : List Char) : Bool :=
  if name.map Char.toLower = "href".toList then s.decodeHrefNewlines else s.decodeNewlines

/-- A blank and an attribute with its value in double quotes, the references in it guarded. -/
def guardedAttribute? (s : CompileSettings) : List Char → Option Stretch
  | b :: cs => do
    guard (Text.isBlank b)
    let (name, rest) := cs.span isAttributeNameChar
    guard !name.isEmpty
    match rest with
    | '=' :: '"' :: rest =>
      let value := rest.takeWhile (· != '"')
      guard (value.length < rest.length)
      let value' := if decodes s name then value else guardReferences value
      return (b :: name ++ ['=', '"'] ++ value' ++ ['"'], name.length + value.length + 3)
    | _ => none
  | [] => none

/-- Guards the references to newlines that are not to be decoded. -/
def guardNewlines (s : CompileSettings) (cs : List Char) : List Char :=
  if s.decodeNewlines && s.decodeHrefNewlines then cs else substitute (guardedAttribute? s) cs

/-- The text of a template, ready to be read as markup. -/
def prepare (s : CompileSettings) (template : String) : String :=
  String.ofList (guardNewlines s (markTags (closeTags template.toList)))

end Componentry.Template
