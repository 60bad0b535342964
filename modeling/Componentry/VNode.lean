import Componentry.Json.Value
import Componentry.Placed

/-!
# Virtual nodes

What rendering produces: elements, texts, comments, and placeholders that stand for child
components until these are instantiated.

- `VNode.toHtml`: the markup of a tree.
- `VNode.textContent`: its text.
- `VNode.attr?`: an attribute of an element, or a textual prop of a placeholder.
-/

namespace Componentry

open Json (Value Record)

/-- What a listener does. -/
inductive ListenerBody where
  /-- Records its arguments under a label; a label that starts with `!` then fails. -/
  | recorder (label : String)
  /-- Calls a method of an instance, if that is still there. -/
  | method (target : Option InstanceId) (name : String)
  deriving Repr, DecidableEq, Inhabited

/-- A listener; two are the same if their identities agree. -/
structure Listener where
  id : Mark
  body : ListenerBody
  deriving Repr, DecidableEq, Inhabited

/-- Listeners by event, in the order they were added. -/
abbrev Listeners := Dict (List Listener)

inductive VNode where
  /-- `isStatic` marks what a hoisted static tree produced. -/
  | element (tag : String) (attrs : List (String × String)) (children : List VNode)
      (isStatic : Bool)
  | text (s : String)
  | comment (s : String)
  /-- A child component of class `ctor`: the tag, its props as written, listeners and children. -/
  | component (tag : String) (ctor : ClassId) (props : Record) (listeners : Listeners)
      (children : List VNode)
  deriving Inhabited

/-- The parts of a placeholder. -/
structure Placeholder where
  tag : String
  ctor : ClassId
  props : Record
  listeners : Listeners
  children : List VNode
  deriving Inhabited

namespace VNode

/-- Shown when there is nothing to show. -/
def empty : VNode := comment ""

def ofPlaceholder (p : Placeholder) : VNode :=
  component p.tag p.ctor p.props p.listeners p.children

/-- Elements written without content and end tag. -/
def voidTags : List String :=
  ["area", "base", "br", "col", "embed", "hr", "img", "input", "link", "meta", "source", "track",
    "wbr"]

def attr? (n : VNode) (name : String) : Option String :=
  match n with
  | element _ attrs _ _ => attrs.lookup name
  | component _ _ props _ _ => (Dict.get? props name).bind Value.str?
  | _ => none

def escapeTextChar (c : Char) : List Char :=
  if c = '&' then "&amp;".toList
  else if c = '<' then "&lt;".toList
  else if c = '>' then "&gt;".toList
  else [c]

def escapeAttrChar (c : Char) : List Char :=
  if c = '&' then "&amp;".toList else if c = '"' then "&quot;".toList else [c]

def escapeText (s : String) : String := String.ofList (s.toList.flatMap escapeTextChar)

def escapeAttr (s : String) : String := String.ofList (s.toList.flatMap escapeAttrChar)

/-- An attribute with the blank before it. -/
def attrHtml (a : String × String) : String := " " ++ a.1 ++ "=\"" ++ escapeAttr a.2 ++ "\""

def startTag (tag : String) (attrs : List (String × String)) : String :=
  "<" ++ tag ++ String.join (attrs.map attrHtml) ++ ">"

mutual

/-- The markup of a tree. A placeholder that was never expanded is an empty comment. -/
def toHtml : VNode → String
  | element tag attrs children _ =>
    if voidTags.contains tag then startTag tag attrs
    else startTag tag attrs ++ listToHtml children ++ "</" ++ tag ++ ">"
  | text s => escapeText s
  | comment s => "<!--" ++ s ++ "-->"
  | component .. => "<!---->"

def listToHtml : List VNode → String
  | [] => ""
  | n :: rest => toHtml n ++ listToHtml rest

end

mutual

def textContent : VNode → String
  | element _ _ children _ => listTextContent children
  | text s => s
  | comment _ => ""
  | component _ _ _ _ children => listTextContent children

def listTextContent : List VNode → String
  | [] => ""
  | n :: rest => textContent n ++ listTextContent rest

end

end VNode

end Componentry
