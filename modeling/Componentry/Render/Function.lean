import Componentry.Options.Script
import Componentry.Template.Tree
import Componentry.VNode

/-!
# Render functions

A render function is written by hand as a `NodeSpec`, comes from a compiled template, or gives a
fixed tree that was hoisted out of one.
-/

namespace Componentry

open Json (Value)

/-- A value inside a hand-written tree. -/
inductive SpecValue where
  | literal (v : Value)
  /-- A property of the rendering instance, by a dotted path. -/
  | lookup (path : String)
  | filtered (filter : String) (v : SpecValue)
  deriving Inhabited

/-- A hand-written tree. -/
inductive NodeSpec where
  /-- Warns, then goes on. -/
  | warn (message : String) (next : NodeSpec)
  | fail (message : String)
  | element (tag : String) (attrs : List (String × SpecValue)) (kids : List NodeSpec)
  /-- A component tag with its props and, by event, the methods that listen. -/
  | component (tag : String) (props : List (String × SpecValue)) (on : List (String × String))
      (kids : List NodeSpec)
  | static (index : Nat)
  | comment (s : String)
  | text (v : SpecValue)
  /-- As a child, all of the slot's nodes; alone, nothing. -/
  | slot (name : String)
  | nothing
  deriving Inhabited

inductive RenderBody where
  | spec (s : NodeSpec)
  /-- The root of a compiled template, if it has one. -/
  | template (root : Option Template.Node)
  | fixed (tree : VNode)
  deriving Inhabited

/-- A render function under its identity. -/
abbrev RenderFn := Placed RenderBody

end Componentry
