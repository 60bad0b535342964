import Componentry.Text.Blank
import Componentry.VNode

/-!
# What a render function sees

A render function reads its instance, and asks it for filters, static trees, components, listeners
and slots, through a `RenderContext`. The context says in which monad the answers come, so that a
render function can be run, and reasoned about, without an instance.

- `RenderContext`: the questions.
- `Path.walk`: the value at a dotted path below a property.
-/

namespace Componentry

open Json (Value)

structure RenderContext (m : Type → Type) where
  /-- The value of a dotted path, if there is one. -/
  lookup : String → m (Option Value)
  /-- A value sent through a filter. -/
  applyFilter : String → Value → m Value
  /-- The hoisted static tree with an index. -/
  renderStatic : Nat → m VNode
  /-- The class of a component tag, if there is one. -/
  resolveComponent : String → m (Option ClassId)
  /-- A listener that calls a method of the instance. -/
  bindListener : String → m Listener
  /-- The nodes that were passed for a slot. -/
  slot : String → m (List VNode)
  warn : String → m Unit

namespace Path

/-- The texts between dots. -/
def splitAtDots : List Char → List (List Char)
  | [] => [[]]
  | c :: cs =>
    if c = '.' then [] :: splitAtDots cs
    else
      match splitAtDots cs with
      | first :: rest => (c :: first) :: rest
      | [] => [[c]]

/-- The segments of a dotted path, blanks around each dropped; there is always a first one. -/
def segments (path : String) : List String :=
  (splitAtDots path.toList).map fun cs => String.ofList (Text.trimChars cs)

/-- The largest index there can be. -/
def indexLimit : Nat := Nat.pow 2 64

/-- A whole number in decimal digits, a plus sign allowed. -/
def index? (s : String) : Option Nat :=
  let digits := match s.toList with
    | '+' :: ds => ds
    | ds => ds
  if digits.isEmpty || !digits.all Char.isDigit then none
  else
    let n := digits.foldl (fun n d => 10 * n + (d.toNat - 48)) 0
    if n < indexLimit then some n else none

/-- One step down from a value. -/
def step (v : Value) (segment : String) : Option Value :=
  match v with
  | .obj fields => Dict.get? fields segment
  | .arr items => (index? segment).bind fun i => items[i]?
  | _ => none

/-- The value that the segments lead to. -/
def walk (v : Value) (segments : List String) : Option Value := segments.foldlM step v

end Path

end Componentry
