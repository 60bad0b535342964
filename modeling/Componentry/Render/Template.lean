import Componentry.Json.Printer
import Componentry.Render.Context
import Componentry.Template.Tree

/-!
# Rendering compiled templates

- `Template.evaluate`: an expression in a context.
- `Template.renderNode`: the nodes that a template node gives.
- `Template.renderRoot`: the one node that a whole template gives.
-/

namespace Componentry.Template

open Json (Value Record)

variable {m : Type → Type} [Monad m]

/-- The value of an expression. A path that leads nowhere is null. -/
def evaluate (ctx : RenderContext m) (e : Expression) : m Value := do
  let v ← match e.operand with
    | .path p => pure ((← ctx.lookup p).getD .null)
    | .literal v => pure v
  e.filters.foldlM (fun v name => ctx.applyFilter name v) v

def renderPart (ctx : RenderContext m) : TextPart → m String
  | .literal s => pure s
  | .expr e => do return (← evaluate ctx e).display

/-- The attribute that a bound value gives: none for null and false. -/
def boundAttribute (name : String) : Value → List (String × String)
  | .null => []
  | .bool false => []
  | .bool true => [(name, "")]
  | v => [(name, v.display)]

/-- The plain attributes and then the bound ones. -/
def renderAttributes (ctx : RenderContext m) (attrs : List (String × String))
    (bindings : List (String × Expression)) : m (List (String × String)) :=
  bindings.foldlM (fun attrs b => do
    return attrs ++ boundAttribute b.1 (← evaluate ctx b.2)) attrs

/-- The attributes as props, bound ones over plain ones. -/
def renderProps (ctx : RenderContext m) (attrs : List (String × String))
    (bindings : List (String × Expression)) : m Record :=
  bindings.foldlM (fun props b => do return Dict.insert b.1 (← evaluate ctx b.2) props)
    (Dict.ofList (attrs.map fun a => (a.1, Value.str a.2)))

def renderListeners (ctx : RenderContext m) (listeners : List (String × String)) :
    m Listeners :=
  listeners.foldlM (fun d l => do
    let f ← ctx.bindListener l.2
    return Dict.alter l.1 (fun fs => fs.getD [] ++ [f]) d) []

/-- An element whose children are rendered, or a placeholder if its tag is a component's. -/
def renderElement (ctx : RenderContext m) (tag : String) (attrs : List (String × String))
    (bindings : List (String × Expression)) (listeners : List (String × String))
    (children : List VNode) (maybeComponent : Bool) : m VNode := do
  let ctor ← if maybeComponent then ctx.resolveComponent tag else pure none
  match ctor with
  | some ctor =>
    let props ← renderProps ctx attrs bindings
    let listeners ← renderListeners ctx listeners
    return .component tag ctor props listeners children
  | none => return .element tag (← renderAttributes ctx attrs bindings) children false

mutual

/-- The nodes that a template node gives. -/
def renderNode (ctx : RenderContext m) : Node → m (List VNode)
  | .text parts => do return [.text (String.join (← parts.mapM (renderPart ctx)))]
  | .comment s => pure [.comment s]
  | .static i => do return [← ctx.renderStatic i]
  | .slot name fallback => do
    let provided ← ctx.slot name
    if provided.isEmpty then renderAll ctx fallback else return provided
  | .element tag attrs bindings listeners children maybeComponent => do
    let children ← renderAll ctx children
    return [← renderElement ctx tag attrs bindings listeners children maybeComponent]

def renderAll (ctx : RenderContext m) : List Node → m (List VNode)
  | [] => pure []
  | n :: rest => do
    let here ← renderNode ctx n
    return here ++ (← renderAll ctx rest)

end

/-- The first node that the root gives; nothing without a root. -/
def renderRoot (ctx : RenderContext m) : Option Node → m VNode
  | none => pure .empty
  | some root => do return (← renderNode ctx root).headD .empty

end Componentry.Template
