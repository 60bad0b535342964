import Componentry.Text.Blank
import Componentry.VNode

/-!
# Slots

The children that a parent passes to a component are dealt out to slots by their `slot` attribute.

- `resolveSlots`: the nodes of each slot.
-/

namespace Componentry

namespace VNode

def isWhitespace : VNode → Bool
  | text s => Text.isBlankText s
  | _ => false

end VNode

/-- The slot that a child goes to, and the nodes that it puts there. -/
def slotShare (n : VNode) : String × List VNode :=
  match n with
  | .element tag attrs children _ =>
    match attrs.lookup "slot" with
    | some name => (name, if tag = "template" then children else [n])
    | none => ("default", [n])
  | _ => ("default", [n])

/-- Every slot that gets something, those with nothing but blank texts left out. -/
def resolveSlots (children : List VNode) : Dict (List VNode) :=
  let dealt := children.foldl (fun d n =>
    Dict.alter (slotShare n).1 (fun ns => ns.getD [] ++ (slotShare n).2) d) []
  List.filter (fun e => !(e.2.all VNode.isWhitespace)) dealt

end Componentry
