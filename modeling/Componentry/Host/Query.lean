import Componentry.Host.Basic

/-!
# Asking the page

The first element, in the order of the document, with an id, with a class or of a tag.

- `Host.query`: the element that a selector names.
-/

namespace Componentry

/-- What a selector asks for. -/
inductive Selector where
  | id (name : String)
  | ofClass (name : List Char)
  | tag (name : String)
  /-- No selector at all. -/
  | nothing
  deriving Repr, DecidableEq

namespace Selector

/-- `#id`, `.class` or a tag, blanks around it dropped. -/
def parse (s : String) : Selector :=
  match Text.trimChars s.toList with
  | [] => nothing
  | '#' :: rest => id (String.ofList rest)
  | '.' :: rest => ofClass rest
  | cs => tag (String.ofList (cs.map Char.toLower))

/-- Whether an element is asked for. -/
def accepts (s : Selector) (h : Host) (i : NodeId) : Bool :=
  match s with
  | id name => h.attr? i "id" == some name
  | ofClass name =>
    match h.attr? i "class" with
    | some v => (Text.wordsOf v.toList).contains name
    | none => false
  | tag name => h.tag? i == some name
  | nothing => false

end Selector

namespace Host

/-- The first element among nodes and what is below them, to a depth. -/
def findIn (h : Host) (p : NodeId → Bool) : Nat → List NodeId → Option NodeId
  | 0, _ => none
  | depth + 1, is => is.findSome? fun i =>
    if (h.tag? i).isSome && p i then some i else findIn h p depth (h.children i)

/-- The first element below `root` that satisfies `p`. -/
def findFirst (h : Host) (root : NodeId) (p : NodeId → Bool) : Option NodeId :=
  h.findIn p (h.nodes.size + 1) (h.children root)

def query (h : Host) (root : NodeId) (selector : String) : Option NodeId :=
  match Selector.parse selector with
  | .nothing => none
  | s => h.findFirst root (s.accepts h)

def documentElement (h : Host) (root : NodeId) : Option NodeId :=
  h.findFirst root fun i => h.tag? i == some "html"

def body (h : Host) (root : NodeId) : Option NodeId :=
  h.findFirst root fun i => h.tag? i == some "body"

end Host

end Componentry
