import Componentry.Markup.Node
import Componentry.Template.Interpolation
import Componentry.Template.Prepare

/-!
# From markup to template trees

Reading the markup of a template: attributes become plain attributes, bindings and listeners,
texts are taken apart, blank texts are condensed, and comments go unless they are asked for.

- `lowerNode`: the template node of a node of markup, if there is one.
- `rootsOf`: the nodes at the top of a template.
- `unclosedTexts`: the ends of texts in which an expression never closes.
-/

namespace Componentry.Template

open Text (isBlankText trim)

/-! ## Elements -/

/-- What an attribute is for. -/
inductive AttributeRole where
  /-- Gives the name of the tag as it was written. -/
  | tagName (name : String)
  | binding (name : String) (e : Expression)
  | listener (event method : String)
  | plain (name value : String)
  deriving Repr, Inhabited

/-- `cs` without `front` at its start. -/
def without? (front : String) (cs : List Char) : Option String :=
  if front.toList.isPrefixOf cs then some (String.ofList (cs.drop front.toList.length)) else none

/-- The role of an attribute, by its name. -/
def roleOf (a : Markup.Attribute) : AttributeRole :=
  let cs := a.name.toList
  if a.name = nameAttribute then .tagName a.value
  else
    match without? ":" cs <|> without? "v-bind:" cs with
    | some name => .binding name (Expression.parse a.value.toList)
    | none =>
      match without? "@" cs <|> without? "v-on:" cs with
      | some event => .listener event (trim a.value)
      | none => .plain a.name a.value

/-- An element, or a slot if its tag says so. A tag with a dash, or one written with a capital,
may be a component's. -/
def elementOf (tag : String) (roles : List AttributeRole) (children : List Node) : Node :=
  let written := roles.filterMap fun
    | .tagName n => some n
    | _ => none
  let attrs := roles.filterMap fun
    | .plain n v => some (n, v)
    | _ => none
  let bindings := roles.filterMap fun
    | .binding n e => some (n, e)
    | _ => none
  let listeners := roles.filterMap fun
    | .listener e m => some (e, m)
    | _ => none
  let maybeComponent := tag.toList.contains '-' || !written.isEmpty
  let tag := (written.getLast?).getD tag
  if tag = "slot" then .slot ((attrs.lookup "name").getD "default") children
  else .element tag attrs bindings listeners children maybeComponent

/-- A text. A blank one goes if it has a line feed in it and is a single space otherwise. -/
def textOf? (s : CompileSettings) (text : String) : Option Node :=
  if isBlankText text then
    if text.toList.contains '\n' then none else some (.text [.literal " "])
  else some (.text (textParts s text))

mutual

/-- The template node of a node of markup. -/
def lowerNode (s : CompileSettings) : Markup.Node → Option Node
  | .doctype _ => none
  | .text t => textOf? s t
  | .comment c => if s.comments then some (.comment c) else none
  | .element tag attrs contents children =>
    let below := lowerAll s children
    some (elementOf tag.name (attrs.map roleOf) ((lowerContents s contents).getD below))

def lowerContents (s : CompileSettings) : Option (List Markup.Node) → Option (List Node)
  | none => none
  | some ns => some (lowerAll s ns)

def lowerAll (s : CompileSettings) : List Markup.Node → List Node
  | [] => []
  | n :: rest => (lowerNode s n).toList ++ lowerAll s rest

end

/-! ## The top -/

/-- Elements of a document that are there whether they were written or not. -/
def isWrapper (tag : String) : Bool := tag == "html" || tag == "head" || tag == "body"

mutual

/-- The nodes that a node at the top stands for. -/
def rootsOfNode (s : CompileSettings) : Markup.Node → List Node
  | .element tag attrs contents children =>
    if isWrapper tag.name then rootsOf s children
    else (lowerNode s (.element tag attrs contents children)).toList
  | n => (lowerNode s n).toList

/-- The nodes at the top of a document, the wrappers taken away. -/
def rootsOf (s : CompileSettings) : List Markup.Node → List Node
  | [] => []
  | n :: rest => rootsOfNode s n ++ rootsOf s rest

end

/-! ## Expressions that never close -/

mutual

/-- The ends of the texts in a node in which an expression opens and never closes. -/
def unclosedIn (s : CompileSettings) : Markup.Node → List String
  | .doctype _ => []
  | .text t => if isBlankText t then [] else (unclosed? s t).toList
  | .comment _ => []
  | .element _ _ contents children =>
    let below := unclosedTexts s children
    (unclosedInContents s contents).getD below

def unclosedInContents (s : CompileSettings) : Option (List Markup.Node) → Option (List String)
  | none => none
  | some ns => some (unclosedTexts s ns)

def unclosedTexts (s : CompileSettings) : List Markup.Node → List String
  | [] => []
  | n :: rest => unclosedIn s n ++ unclosedTexts s rest

end

end Componentry.Template
