import Componentry.Markup.Node

/-!
# Trees under construction

While markup is read, elements move and text is added in the middle, so the tree is kept as a
table of numbered nodes. Node 0 is the document. When reading is done the table is turned into
trees.

- `Draft.append`, `Draft.insertBefore`, `Draft.detach`: moving nodes.
- `Draft.appendText`, `Draft.insertTextBefore`: adding text, joined to text already there.
- `Draft.toNodes`: the finished trees below a node.
-/

namespace Componentry.Markup

inductive DraftKind where
  /-- The document, or the contents of a template. -/
  | container
  | doctype (name : String)
  | text (s : String)
  | comment (s : String)
  /-- An element; a template has its contents in a node of their own. -/
  | element (tag : TagName) (attrs : List Attribute) (contents : Option Nat)
  deriving Inhabited

structure DraftNode where
  kind : DraftKind
  parent : Option Nat
  children : List Nat
  deriving Inhabited

/-- Numbered nodes. -/
abbrev Draft := Array DraftNode

namespace Draft

def empty : Draft := #[⟨.container, none, []⟩]

def node (d : Draft) (i : Nat) : DraftNode := d.getD i ⟨.container, none, []⟩

def update (d : Draft) (i : Nat) (f : DraftNode → DraftNode) : Draft := d.modify i f

/-- A new node without a place, and its number. -/
def add (d : Draft) (kind : DraftKind) : Draft × Nat := (d.push ⟨kind, none, []⟩, d.size)

def tag? (d : Draft) (i : Nat) : Option TagName :=
  match (d.node i).kind with
  | .element tag .. => some tag
  | _ => none

/-- Where the contents of a template go. -/
def contents? (d : Draft) (i : Nat) : Option Nat :=
  match (d.node i).kind with
  | .element _ _ contents => contents
  | _ => none

def attrs (d : Draft) (i : Nat) : List Attribute :=
  match (d.node i).kind with
  | .element _ attrs _ => attrs
  | _ => []

/-- Takes a node out of its parent. -/
def detach (d : Draft) (i : Nat) : Draft :=
  match (d.node i).parent with
  | none => d
  | some p =>
    (d.update p fun n => { n with children := n.children.filter (· != i) }).update i fun n =>
      { n with parent := none }

/-- Makes a node the last child of `p`. -/
def append (d : Draft) (p i : Nat) : Draft :=
  let d := d.detach i
  (d.update p fun n => { n with children := n.children ++ [i] }).update i fun n =>
    { n with parent := some p }

/-- Puts a node into the parent of `sibling`, right before it. -/
def insertBefore (d : Draft) (sibling i : Nat) : Draft :=
  let d := d.detach i
  match (d.node sibling).parent with
  | none => d
  | some p =>
    (d.update p fun n =>
      { n with children :=
          n.children.takeWhile (· != sibling) ++ i :: n.children.dropWhile (· != sibling) }).update i
      fun n => { n with parent := some p }

/-- Adds to a text node; `none` for any other node. -/
def extendText? (d : Draft) (i : Nat) (s : String) : Option Draft :=
  match (d.node i).kind with
  | .text t => some (d.update i fun n => { n with kind := .text (t ++ s) })
  | _ => none

/-- Text at the end of `p`. -/
def appendText (d : Draft) (p : Nat) (s : String) : Draft :=
  match (d.node p).children.getLast?.bind fun i => d.extendText? i s with
  | some d => d
  | none =>
    let (d, i) := d.add (.text s)
    d.append p i

/-- Text right before `sibling`. -/
def insertTextBefore (d : Draft) (sibling : Nat) (s : String) : Draft :=
  let before := match (d.node sibling).parent with
    | none => none
    | some p => ((d.node p).children.takeWhile (· != sibling)).getLast?
  match before.bind fun i => d.extendText? i s with
  | some d => d
  | none =>
    let (d, i) := d.add (.text s)
    d.insertBefore sibling i

/-- Moves all children of `old` to the end of `new`. -/
def moveChildren (d : Draft) (old new : Nat) : Draft :=
  (d.node old).children.foldl (fun d i => d.append new i) d

/-- Adds the attributes that an element does not have yet. -/
def addMissingAttrs (d : Draft) (i : Nat) (more : List (String × String)) : Draft :=
  d.update i fun n =>
    match n.kind with
    | .element tag attrs contents =>
      let fresh := more.filter fun a => !(attrs.any fun b => b.namePrefix == .none && b.name == a.1)
      { n with kind := .element tag (attrs ++ fresh.map fun a => ⟨.none, a.1, a.2⟩) contents }
    | _ => n

/-- The tree of a node; `depth` bounds how far down it goes. -/
def toNodeAt (d : Draft) : Nat → Nat → List Node
  | 0, _ => []
  | depth + 1, i =>
    let n := d.node i
    match n.kind with
    | .container => []
    | .doctype name => [.doctype name]
    | .text s => [.text s]
    | .comment s => [.comment s]
    | .element tag attrs contents =>
      let inner := contents.map fun c => (d.node c).children.flatMap (toNodeAt d depth)
      [.element tag attrs inner (n.children.flatMap (toNodeAt d depth))]

/-- The trees of the children of a node. -/
def toNodes (d : Draft) (i : Nat) : List Node :=
  (d.node i).children.flatMap (toNodeAt d d.size)

end Draft

end Componentry.Markup
