import Componentry.Error
import Componentry.Render.Function
import Componentry.Render.Template

/-!
# Rendering hand-written trees

A hand-written tree may warn and may fail; it fails as author's code does.

- `NodeSpec.render`: the node that a hand-written tree gives.
- `RenderBody.run`: the node that any render function gives.
-/

namespace Componentry

open Json (Value Record)

variable {m : Type → Type} [Monad m]

/-- The value at a place of a hand-written tree. -/
def SpecValue.eval (ctx : RenderContext m) : SpecValue → m Value
  | literal v => pure v
  | lookup path => do return (← ctx.lookup path).getD .null
  | filtered filter v => do ctx.applyFilter filter (← v.eval ctx)

/-- Rendering that may fail. -/
abbrev Rendering (m : Type → Type) := ExceptT HookError m

namespace NodeSpec

/-- Attributes with their displayed values, in order. -/
def renderAttrs (ctx : RenderContext m) (attrs : List (String × SpecValue)) :
    m (List (String × String)) :=
  attrs.mapM fun a => do return (a.1, (← a.2.eval ctx).display)

def renderProps (ctx : RenderContext m) (props : List (String × SpecValue)) : m Record :=
  props.foldlM (fun d p => do return Dict.insert p.1 (← p.2.eval ctx) d) []

def bindAll (ctx : RenderContext m) (on : List (String × String)) : m Listeners :=
  on.foldlM (fun d l => do
    let f ← ctx.bindListener l.2
    return Dict.insert l.1 [f] d) []

/-- The slot that a child stands for. -/
def slotName? : NodeSpec → Option String
  | slot name => some name
  | _ => none

mutual

/-- The node of a tree. -/
def render (ctx : RenderContext m) : NodeSpec → Rendering m VNode
  | warn message next => do
    ExceptT.lift (ctx.warn message)
    render ctx next
  | fail message => throw ⟨message⟩
  | element tag attrs kids => do
    let attrs ← ExceptT.lift (renderAttrs ctx attrs)
    let kids ← renderKids ctx kids
    return .element tag attrs kids false
  | component tag props on kids => do
    match ← ExceptT.lift (ctx.resolveComponent tag) with
    | none => return .comment "unresolved"
    | some ctor =>
      let on ← ExceptT.lift (bindAll ctx on)
      let props ← ExceptT.lift (renderProps ctx props)
      let kids ← renderKids ctx kids
      return .component tag ctor props on kids
  | static i => ExceptT.lift (ctx.renderStatic i)
  | comment s => return .comment s
  | text v => do return .text (← ExceptT.lift (v.eval ctx)).display
  | slot _ => return .empty
  | nothing => return .empty

/-- The nodes of children in a row; a slot gives all of its nodes. -/
def renderKids (ctx : RenderContext m) : List NodeSpec → Rendering m (List VNode)
  | [] => return []
  | k :: rest => do
    let here ←
      match k.slotName? with
      | some name => ExceptT.lift (ctx.slot name)
      | none => pure [← render ctx k]
    return here ++ (← renderKids ctx rest)

end

end NodeSpec

/-- The node that a render function gives. -/
def RenderBody.run (ctx : RenderContext m) : RenderBody → Rendering m VNode
  | spec s => s.render ctx
  | template root => ExceptT.lift (Template.renderRoot ctx root)
  | fixed tree => return tree

end Componentry
