import Componentry.Markup.Document
import Componentry.Markup.Printer
import Componentry.Placed
import Componentry.Text.Blank

/-!
# The host tree

The page that components are mounted into, and nodes that belong to no page yet. Nodes have
numbers; each knows its parent and lists its children. A node that nothing refers to any more is
no longer alive, and then it is nobody's parent.

- `Host.load`: nodes made of markup trees.
- `Host.tree`, `Host.outerHtml`, `Host.innerHtml`: a node as markup.
- `Host.replaceNode`: putting nodes in the place of another.
-/

namespace Componentry

inductive HostKind where
  | document
  | doctype (name : String)
  | text (s : String)
  | comment (s : String)
  | element (tag : Markup.TagName) (attrs : List Markup.Attribute)
  deriving Inhabited

structure HostNode where
  kind : HostKind
  parent : Option NodeId := none
  children : List NodeId := []
  alive : Bool := true
  deriving Inhabited

structure Host where
  nodes : Array HostNode := #[]
  deriving Inhabited

namespace Host

def node (h : Host) (i : NodeId) : HostNode :=
  h.nodes.getD i { kind := .document, alive := false }

def update (h : Host) (i : NodeId) (f : HostNode → HostNode) : Host := ⟨h.nodes.modify i f⟩

/-- A new node and its number. -/
def add (h : Host) (n : HostNode) : NodeId × Host := (h.nodes.size, ⟨h.nodes.push n⟩)

def children (h : Host) (i : NodeId) : List NodeId := (h.node i).children

def setChildren (h : Host) (i : NodeId) (cs : List NodeId) : Host :=
  h.update i ({ · with children := cs })

def setParent (h : Host) (i : NodeId) (p : Option NodeId) : Host :=
  h.update i ({ · with parent := p })

/-! ## Making nodes -/

mutual

/-- Makes the node of a tree under `parent`, its children listed but itself not yet. -/
def loadNode (parent : Option NodeId) (h : Host) : Markup.Node → NodeId × Host
  | .doctype name => h.add { kind := .doctype name, parent }
  | .text s => h.add { kind := .text s, parent }
  | .comment s => h.add { kind := .comment s, parent }
  | .element tag attrs _ children =>
    let (i, h) := h.add { kind := .element tag attrs, parent }
    let (cs, h) := loadNodes (some i) h children
    (i, h.setChildren i cs)

/-- Makes the nodes of trees in a row under `parent`. -/
def loadNodes (parent : Option NodeId) (h : Host) : List Markup.Node → List NodeId × Host
  | [] => ([], h)
  | n :: rest =>
    let (i, h) := loadNode parent h n
    let (is, h) := loadNodes parent h rest
    (i :: is, h)

end

/-- The document of a page. -/
def loadDocument (h : Host) (html : String) : NodeId × Host :=
  let (i, h) := h.add { kind := .document }
  let (cs, h) := loadNodes (some i) h (Markup.Document.parse html).nodes
  (i, h.setChildren i cs)

/-- The nodes in the body of a document, without a parent. -/
def loadBody (h : Host) (d : Markup.Document) : List NodeId × Host := loadNodes none h d.body

/-- The nodes that a piece of markup leaves in a body. -/
def loadMarkup (h : Host) (markup : String) : List NodeId × Host :=
  h.loadBody (Markup.Document.parse markup)

/-! ## Looking at nodes -/

def tag? (h : Host) (i : NodeId) : Option String :=
  match (h.node i).kind with
  | .element tag _ => some tag.name
  | _ => none

def attr? (h : Host) (i : NodeId) (name : String) : Option String :=
  match (h.node i).kind with
  | .element _ attrs => (attrs.find? (·.name == name)).map (·.value)
  | _ => none

/-- The parent of a node, if it is alive. -/
def parent? (h : Host) (i : NodeId) : Option NodeId :=
  (h.node i).parent.filter fun p => (h.node p).alive

/-- The elements that a mount must never replace. -/
def isDocumentRoot (h : Host) (i : NodeId) : Bool :=
  h.tag? i == some "html" || h.tag? i == some "body"

/-- The trees of a node, to a depth; a document stands for its children. -/
def treesAt (h : Host) : Nat → NodeId → List Markup.Node
  | 0, _ => []
  | depth + 1, i =>
    let n := h.node i
    match n.kind with
    | .document => n.children.flatMap (treesAt h depth)
    | .doctype name => [.doctype name]
    | .text s => [.text s]
    | .comment s => [.comment s]
    | .element tag attrs => [.element tag attrs none (n.children.flatMap (treesAt h depth))]

def trees (h : Host) (i : NodeId) : List Markup.Node := h.treesAt (h.nodes.size + 1) i

/-- A node as markup. -/
def outerHtml (h : Host) (i : NodeId) : String := Markup.writeNodes false (h.trees i)

/-- The content of a node as markup. -/
def innerHtml (h : Host) (i : NodeId) : String :=
  Markup.writeNodes false ((h.children i).flatMap h.trees)

/-- The text inside a node, to a depth. -/
def textAt (h : Host) : Nat → NodeId → String
  | 0, _ => ""
  | depth + 1, i =>
    match (h.node i).kind with
    | .text s => s
    | _ => String.join ((h.children i).map (textAt h depth))

def textContent (h : Host) (i : NodeId) : String := h.textAt (h.nodes.size + 1) i

/-! ## Moving nodes -/

/-- `cs` with `news` in the place of `old`. -/
def spliced (cs : List NodeId) (old : NodeId) (news : List NodeId) : List NodeId :=
  cs.takeWhile (· != old) ++ news ++ (cs.dropWhile (· != old)).drop 1

/-- Puts `news` where `old` is in its parent; false, and nothing changed, when it has none. -/
def replaceNode (h : Host) (old : NodeId) (news : List NodeId) : Bool × Host :=
  match h.parent? old with
  | none => (false, h)
  | some p =>
    if (h.children p).contains old then
      let h := news.foldl (fun h i => h.setParent i (some p)) h
      let h := h.setChildren p (spliced (h.children p) old news)
      (true, h.setParent old none)
    else (false, h)

end Host

end Componentry
