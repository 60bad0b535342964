import Componentry.Proofs.Likeness
import Componentry.Render.Spec

/-!
# Rendering with answers that are alike

What a render function gives comes from what its context answers and from nothing else. So in two
contexts that answer alike, in any sense of the word, a render function gives alike.

- `Likeness.Answers`: contexts that answer alike, hoisted trees apart.
- `Template.renderElement_like`: an element in two such contexts.
- `Template.renderNode_alike`: a template tree in two such contexts, one case per kind of node.
- `NodeSpec.render_alike`: a hand-written tree.
- `RenderBody.run_alike`: **any render function** gives alike in contexts that answer alike.
-/

namespace Componentry

open Json (Value Record)

variable {m : Type → Type} [Monad m]

/-- Contexts that answer alike, other than about hoisted trees. -/
structure Likeness.Answers (L : Likeness m) (ctx ctx' : RenderContext m) : Prop where
  lookup : ∀ path, L.Rel Eq (ctx.lookup path) (ctx'.lookup path)
  applyFilter : ∀ name v, L.Rel Eq (ctx.applyFilter name v) (ctx'.applyFilter name v)
  resolveComponent : ∀ tag, L.Rel Eq (ctx.resolveComponent tag) (ctx'.resolveComponent tag)
  bindListener : ∀ method, L.Rel Eq (ctx.bindListener method) (ctx'.bindListener method)
  slot : ∀ name, L.Rel Eq (ctx.slot name) (ctx'.slot name)
  warn : ∀ message, L.Rel Eq (ctx.warn message) (ctx'.warn message)

variable {L : Likeness m} {ctx ctx' : RenderContext m}

/-! ## Compiled templates -/

namespace Template

theorem evaluate_like (S : L.Answers ctx ctx') (e : Expression) :
    L.Rel Eq (evaluate ctx e) (evaluate ctx' e) := by
  have hfilters : ∀ v, L.Rel Eq (e.filters.foldlM (fun v name => ctx.applyFilter name v) v)
      (e.filters.foldlM (fun v name => ctx'.applyFilter name v) v) := fun v =>
    L.foldlM _ rfl fun name _ v v' hv => by
      cases hv
      exact S.applyFilter name v
  unfold evaluate
  cases e.operand with
  | path p => exact L.bindSame (S.lookup p) fun _ => L.bindSame (L.pure rfl) hfilters
  | literal v => exact L.bindSame (L.pure rfl) hfilters

theorem renderPart_like (S : L.Answers ctx ctx') (p : TextPart) :
    L.Rel Eq (renderPart ctx p) (renderPart ctx' p) := by
  cases p with
  | literal s => exact L.pure rfl
  | expr e => exact L.bindSame (evaluate_like S e) fun _ => L.pure rfl

section

variable {r : VNode → VNode → Prop} {ns ns' : List VNode}

/-- An element that is related to another over other children. -/
theorem plainElement_like (S : L.Answers ctx ctx') (tag : String)
    (attrs : List (String × String)) (bindings : List (String × Expression))
    (h : ∀ attrs, r (.element tag attrs ns false) (.element tag attrs ns' false)) :
    L.Rel r (do return VNode.element tag (← renderAttributes ctx attrs bindings) ns false)
      (do return VNode.element tag (← renderAttributes ctx' attrs bindings) ns' false) := by
  refine L.bindSame (L.foldlM _ rfl fun b _ d d' hd => ?_) fun attrs => L.pure (h attrs)
  cases hd
  exact L.bindSame (evaluate_like S b.2) fun _ => L.pure rfl

/-- A placeholder that is related to another over other children. -/
theorem placeholder_like (S : L.Answers ctx ctx') (tag : String) (ctor : ClassId)
    (attrs : List (String × String)) (bindings : List (String × Expression))
    (listeners : List (String × String))
    (h : ∀ props listeners, r (.component tag ctor props listeners ns)
      (.component tag ctor props listeners ns')) :
    L.Rel r
      (do
        let props ← renderProps ctx attrs bindings
        return VNode.component tag ctor props (← renderListeners ctx listeners) ns)
      (do
        let props ← renderProps ctx' attrs bindings
        return VNode.component tag ctor props (← renderListeners ctx' listeners) ns') := by
  refine L.bindSame (L.foldlM _ rfl fun b _ props props' hp => ?_) fun props => ?_
  · cases hp
    exact L.bindSame (evaluate_like S b.2) fun _ => L.pure rfl
  refine L.bindSame (L.foldlM _ rfl fun l _ d d' hd => ?_) fun listeners => ?_
  · cases hd
    exact L.bindSame (S.bindListener l.2) fun _ => L.pure rfl
  · exact L.pure (h props listeners)

/-- An element over other children gives what is related to it, if that is so whether or not its tag
is a component's. -/
theorem renderElement_like [LawfulMonad m] (S : L.Answers ctx ctx') (tag : String)
    (attrs : List (String × String)) (bindings : List (String × Expression))
    (listeners : List (String × String)) (maybeComponent : Bool)
    (helement : ∀ attrs, r (.element tag attrs ns false) (.element tag attrs ns' false))
    (hcomponent : ∀ ctor props listeners, r (.component tag ctor props listeners ns)
      (.component tag ctor props listeners ns')) :
    L.Rel r (renderElement ctx tag attrs bindings listeners ns maybeComponent)
      (renderElement ctx' tag attrs bindings listeners ns' maybeComponent) := by
  unfold renderElement
  cases maybeComponent with
  | false =>
    simp only [Bool.false_eq_true, if_false, pure_bind]
    exact plainElement_like S tag attrs bindings helement
  | true =>
    refine L.bindSame (S.resolveComponent tag) fun ctor => ?_
    cases ctor with
    | some ctor => exact placeholder_like S tag ctor attrs bindings listeners (hcomponent ctor)
    | none => exact plainElement_like S tag attrs bindings helement

end

mutual

/-- A template tree, one case per kind of node. -/
theorem renderNode_alike [LawfulMonad m] (S : L.Answers ctx ctx')
    (hstatic : ∀ i, L.Rel Eq (ctx.renderStatic i) (ctx'.renderStatic i)) : ∀ n : Node,
    L.Rel Eq (renderNode ctx n) (renderNode ctx' n)
  | .text parts => by
    rw [renderNode, renderNode]
    exact L.bindSame (L.mapM _ fun p _ => renderPart_like S p) fun _ => L.pure rfl
  | .comment s => by
    rw [renderNode, renderNode]
    exact L.pure rfl
  | .static i => by
    rw [renderNode, renderNode]
    exact L.bindSame (hstatic i) fun _ => L.pure rfl
  | .slot name fallback => by
    rw [renderNode, renderNode]
    refine L.bindSame (S.slot name) fun provided => ?_
    exact L.ite (renderAll_alike S hstatic fallback) (L.pure rfl)
  | .element tag attrs bindings listeners children maybeComponent => by
    rw [renderNode, renderNode]
    refine L.bindSame (renderAll_alike S hstatic children) fun children => ?_
    refine L.bindSame ?_ fun _ => L.pure rfl
    exact renderElement_like S tag attrs bindings listeners maybeComponent (fun _ => rfl)
      fun _ _ _ => rfl

theorem renderAll_alike [LawfulMonad m] (S : L.Answers ctx ctx')
    (hstatic : ∀ i, L.Rel Eq (ctx.renderStatic i) (ctx'.renderStatic i)) : ∀ ns : List Node,
    L.Rel Eq (renderAll ctx ns) (renderAll ctx' ns)
  | [] => by
    rw [renderAll, renderAll]
    exact L.pure rfl
  | n :: rest => by
    rw [renderAll, renderAll]
    refine L.bindSame (renderNode_alike S hstatic n) fun here => ?_
    exact L.bindSame (renderAll_alike S hstatic rest) fun _ => L.pure rfl

end

theorem renderRoot_alike [LawfulMonad m] (S : L.Answers ctx ctx')
    (hstatic : ∀ i, L.Rel Eq (ctx.renderStatic i) (ctx'.renderStatic i)) (root : Option Node) :
    L.Rel Eq (renderRoot ctx root) (renderRoot ctx' root) := by
  cases root with
  | none => exact L.pure rfl
  | some root => exact L.bindSame (renderNode_alike S hstatic root) fun _ => L.pure rfl

end Template

/-! ## Hand-written trees -/

theorem SpecValue.eval_alike (S : L.Answers ctx ctx') : ∀ v : SpecValue,
    L.Rel Eq (v.eval ctx) (v.eval ctx')
  | literal _ => L.pure rfl
  | lookup path => L.bindSame (S.lookup path) fun _ => L.pure rfl
  | filtered filter v => L.bindSame (eval_alike S v) (S.applyFilter filter)

namespace NodeSpec

theorem renderAttrs_alike [LawfulMonad m] (S : L.Answers ctx ctx')
    (attrs : List (String × SpecValue)) :
    L.Rel Eq (renderAttrs ctx attrs) (renderAttrs ctx' attrs) :=
  L.mapM _ fun a _ => L.bindSame (a.2.eval_alike S) fun _ => L.pure rfl

theorem renderProps_alike (S : L.Answers ctx ctx') (props : List (String × SpecValue)) :
    L.Rel Eq (renderProps ctx props) (renderProps ctx' props) :=
  L.foldlM _ rfl fun p _ d d' hd => by
    cases hd
    exact L.bindSame (p.2.eval_alike S) fun _ => L.pure rfl

theorem bindAll_alike (S : L.Answers ctx ctx') (on : List (String × String)) :
    L.Rel Eq (bindAll ctx on) (bindAll ctx' on) :=
  L.foldlM _ rfl fun l _ d d' hd => by
    cases hd
    exact L.bindSame (S.bindListener l.2) fun _ => L.pure rfl

mutual

/-- A hand-written tree, one case per kind of node. -/
theorem render_alike [LawfulMonad m] (S : L.Answers ctx ctx')
    (hstatic : ∀ i, L.Rel Eq (ctx.renderStatic i) (ctx'.renderStatic i)) : ∀ n : NodeSpec,
    (L.failing HookError).Rel Eq (n.render ctx) (n.render ctx')
  | warn message next => by
    rw [render, render]
    refine (L.failing _).bindSame (L.failing_lift (S.warn message)) fun _ => ?_
    exact render_alike S hstatic next
  | fail message => by
    rw [render, render]
    exact L.failing_throw _
  | element tag attrs kids => by
    rw [render, render]
    refine (L.failing _).bindSame (L.failing_lift (renderAttrs_alike S attrs)) fun attrs => ?_
    exact (L.failing _).bindSame (renderKids_alike S hstatic kids) fun _ => (L.failing _).pure rfl
  | component tag props on kids => by
    rw [render, render]
    refine (L.failing _).bindSame (L.failing_lift (S.resolveComponent tag)) fun ctor => ?_
    cases ctor with
    | none => exact (L.failing _).pure rfl
    | some ctor =>
      refine (L.failing _).bindSame (L.failing_lift (bindAll_alike S on)) fun on => ?_
      refine (L.failing _).bindSame (L.failing_lift (renderProps_alike S props)) fun props => ?_
      exact (L.failing _).bindSame (renderKids_alike S hstatic kids) fun _ => (L.failing _).pure rfl
  | static i => by
    rw [render, render]
    exact L.failing_lift (hstatic i)
  | comment s => by
    rw [render, render]
    exact (L.failing _).pure rfl
  | text v => by
    rw [render, render]
    refine (L.failing _).bindSame (L.failing_lift (v.eval_alike S)) fun _ => ?_
    exact (L.failing _).pure rfl
  | slot _ => by
    rw [render, render]
    exact (L.failing _).pure rfl
  | nothing => by
    rw [render, render]
    exact (L.failing _).pure rfl

theorem renderKids_alike [LawfulMonad m] (S : L.Answers ctx ctx')
    (hstatic : ∀ i, L.Rel Eq (ctx.renderStatic i) (ctx'.renderStatic i)) : ∀ ks : List NodeSpec,
    (L.failing HookError).Rel Eq (renderKids ctx ks) (renderKids ctx' ks)
  | [] => by
    rw [renderKids, renderKids]
    exact (L.failing _).pure rfl
  | k :: rest => by
    rw [renderKids, renderKids]
    have hrest : ∀ here : List VNode, (L.failing HookError).Rel Eq
        (do return here ++ (← renderKids ctx rest)) (do return here ++ (← renderKids ctx' rest)) :=
      fun here => (L.failing _).bindSame (renderKids_alike S hstatic rest) fun _ =>
        (L.failing _).pure rfl
    cases k.slotName? with
    | some name => exact (L.failing _).bindSame (L.failing_lift (S.slot name)) hrest
    | none =>
      refine (L.failing _).bindSame (render_alike S hstatic k) fun n => ?_
      exact (L.failing _).bindSame ((L.failing _).pure rfl) hrest

end

end NodeSpec

/-- **Any render function** gives alike in contexts that answer alike. -/
theorem RenderBody.run_alike [LawfulMonad m] (S : L.Answers ctx ctx')
    (hstatic : ∀ i, L.Rel Eq (ctx.renderStatic i) (ctx'.renderStatic i)) (f : RenderBody) :
    (L.failing HookError).Rel Eq (f.run ctx) (f.run ctx') := by
  cases f with
  | spec s => exact s.render_alike S hstatic
  | template root => exact L.failing_lift (Template.renderRoot_alike S hstatic root)
  | fixed tree => exact (L.failing _).pure rfl

end Componentry
