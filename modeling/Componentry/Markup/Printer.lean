import Componentry.Markup.Node

/-!
# Writing markup

- `Node.write`: the markup of a tree that stands in a given parent. Text of elements whose
  content is raw is written as it is; elsewhere it is escaped.
- `writeNodes`: the markup of trees in a row.
-/

namespace Componentry.Markup

/-- Elements written without content and end tag. -/
def voidNames : List String :=
  ["area", "base", "basefont", "bgsound", "br", "col", "embed", "frame", "hr", "img", "input",
    "keygen", "link", "meta", "param", "source", "track", "wbr"]

/-- Elements whose text is written as it is. -/
def rawTextNames : List String :=
  ["style", "script", "xmp", "iframe", "noembed", "noframes", "plaintext", "noscript"]

def escapeTextChar (c : Char) : List Char :=
  if c = '&' then "&amp;".toList
  else if c = '\u00A0' then "&nbsp;".toList
  else if c = '<' then "&lt;".toList
  else if c = '>' then "&gt;".toList
  else [c]

def escapeAttrChar (c : Char) : List Char :=
  if c = '&' then "&amp;".toList
  else if c = '\u00A0' then "&nbsp;".toList
  else if c = '"' then "&quot;".toList
  else [c]

def escapeText (s : String) : String := String.ofList (s.toList.flatMap escapeTextChar)

def escapeAttr (s : String) : String := String.ofList (s.toList.flatMap escapeAttrChar)

/-- The written name of an attribute. -/
def Attribute.writtenName (a : Attribute) : String :=
  match a.namePrefix with
  | .none => a.name
  | .xlink => "xlink:" ++ a.name
  | .xml => "xml:" ++ a.name
  | .xmlns => if a.name = "xmlns" then a.name else "xmlns:" ++ a.name

def Attribute.write (a : Attribute) : String :=
  " " ++ a.writtenName ++ "=\"" ++ escapeAttr a.value ++ "\""

def TagName.isVoid (t : TagName) : Bool := t.vocabulary == .html && voidNames.contains t.name

def TagName.hasRawText (t : TagName) : Bool :=
  t.vocabulary == .html && rawTextNames.contains t.name

/-- The start tag of an element. -/
def TagName.writeStart (t : TagName) (attrs : List Attribute) : String :=
  "<" ++ t.name ++ String.join (attrs.map Attribute.write) ++ ">"

def TagName.writeEnd (t : TagName) : String := "</" ++ t.name ++ ">"

mutual

/-- The markup of a tree; `raw` says that the parent's text is written as it is. Nothing is
written of the elements inside a void element. -/
def Node.write (raw : Bool) : Node → String
  | .doctype name => "<!DOCTYPE " ++ name ++ ">"
  | .text s => if raw then s else escapeText s
  | .comment s => "<!--" ++ s ++ "-->"
  | .element tag attrs _ children =>
    if tag.isVoid then tag.writeStart attrs
    else tag.writeStart attrs ++ writeNodes tag.hasRawText children ++ tag.writeEnd

def writeNodes (raw : Bool) : List Node → String
  | [] => ""
  | n :: rest => n.write raw ++ writeNodes raw rest

end

end Componentry.Markup
