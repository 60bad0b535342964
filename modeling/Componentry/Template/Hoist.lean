import Componentry.Template.Tree
import Componentry.VNode

/-!
# Hoisting static trees

A tree that renders to the same thing whatever the instance is rendered once and then kept.

- `Node.isStatic`: whether a tree depends on nothing.
- `Node.isHoisted`: whether it is also worth keeping.
- `hoist`: takes the static trees out.
-/

namespace Componentry.Template

def TextPart.isLiteral : TextPart → Bool
  | literal _ => true
  | expr _ => false

def TextPart.literalText : TextPart → String
  | literal s => s
  | expr _ => ""

namespace Node

mutual

/-- Whether a tree renders to the same thing everywhere. -/
def isStatic : Node → Bool
  | element _ _ bindings listeners children maybeComponent =>
    !maybeComponent && bindings.isEmpty && listeners.isEmpty && allStatic children
  | text parts => parts.all TextPart.isLiteral
  | comment _ => true
  | slot _ _ => false
  | static _ => true

def allStatic : List Node → Bool
  | [] => true
  | n :: rest => isStatic n && allStatic rest

end

def isText : Node → Bool
  | text _ => true
  | _ => false

/-- Whether a tree is taken out: a static element with more than a single text in it. -/
def isHoisted (n : Node) : Bool :=
  match n with
  | element _ _ _ _ children _ =>
    n.isStatic && !children.isEmpty && !(children.length == 1 && children.all isText)
  | _ => false

mutual

/-- What a static tree renders to. -/
def fixed : Node → VNode
  | element tag attrs _ _ children _ => .element tag attrs (fixedAll children) true
  | text parts => .text (String.join (parts.map TextPart.literalText))
  | comment s => .comment s
  | slot _ _ => .empty
  | static _ => .empty

def fixedAll : List Node → List VNode
  | [] => []
  | n :: rest => fixed n :: fixedAll rest

end

end Node

mutual

/-- The tree with each static tree replaced by its index, and these trees in order; `next` is the
index of the first. -/
def hoist (next : Nat) : Node → Node × List VNode
  | .element tag attrs bindings listeners children maybeComponent =>
    let n := Node.element tag attrs bindings listeners children maybeComponent
    if n.isHoisted then (.static next, [n.fixed])
    else
      let (children, statics) := hoistAll next children
      (.element tag attrs bindings listeners children maybeComponent, statics)
  | .slot name fallback =>
    let (fallback, statics) := hoistAll next fallback
    (.slot name fallback, statics)
  | n => (n, [])

def hoistAll (next : Nat) : List Node → List Node × List VNode
  | [] => ([], [])
  | n :: rest =>
    let (n, here) := hoist next n
    let (rest, later) := hoistAll (next + here.length) rest
    (n :: rest, here ++ later)

end

end Componentry.Template
