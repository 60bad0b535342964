/-!
# Markup trees

What markup says once it is read: elements with their attributes and children, texts, comments
and the document type. Elements belong to one of three vocabularies.

- `Node`: a tree. A `template` element keeps its contents apart from its children.
- `Node.tag?`, `Node.attr?`: the local name of an element and the value of an attribute.
-/

namespace Componentry.Markup

inductive Vocabulary where
  | html
  | svg
  | mathml
  deriving Repr, DecidableEq, Inhabited

/-- The name of an element. -/
structure TagName where
  vocabulary : Vocabulary
  name : String
  deriving Repr, DecidableEq, Inhabited

/-- The part before the colon in the name of a foreign attribute. -/
inductive AttrPrefix where
  | none
  | xlink
  | xml
  | xmlns
  deriving Repr, DecidableEq, Inhabited

structure Attribute where
  namePrefix : AttrPrefix
  name : String
  value : String
  deriving Repr, DecidableEq, Inhabited

inductive Node where
  | doctype (name : String)
  | text (s : String)
  | comment (s : String)
  | element (tag : TagName) (attrs : List Attribute) (contents : Option (List Node))
      (children : List Node)
  deriving Repr, Inhabited

namespace Node

def tag? : Node → Option String
  | element tag .. => some tag.name
  | _ => none

def attr? (n : Node) (name : String) : Option String :=
  match n with
  | element _ attrs .. => (attrs.find? (·.name == name)).map (·.value)
  | _ => none

end Node

end Componentry.Markup
