import Componentry.Proofs.Engine.Frame

/-!
# What rendering leaves alone

Rendering reads an instance, may make classes of definitions, and runs author's code where it
reports an error. It keeps the static trees that it has rendered, and nothing else. Neither it nor
the compilation of templates is seen in other instances, the chronicle or the host page.

- `World.Lax`: a relation that looks at instances, the chronicle and the host page only.
- `World.Slack`: one that may look at where templates came from, too.
- `RenderContext.Answers`: a context whose answers keep to a relation.
- `Eng.renders_spec`, `Template.within_renderNode`: **rendering** asks its context and does nothing
  else.
- `Eng.within_renderInstance`, `Eng.within_ensureRender`: rendering and compiling for an instance.
-/

namespace Componentry

open Json (Value)

variable {α β : Type} {R : World → World → Prop} {H : Halt → Prop}

/-- A relation that looks at instances, the chronicle and the host page only. -/
class World.Lax (R : World → World → Prop) : Prop extends World.Tolerant R where
  aside {w w' : World} : w'.instances = w.instances → w'.chronicle = w.chronicle →
    w'.host = w.host → R w w'

/-- A relation that also looks at what templates came from. -/
class World.Slack (R : World → World → Prop) : Prop extends World.Tolerant R where
  beside {w w' : World} : w'.instances = w.instances → w'.chronicle = w.chronicle →
    w'.host = w.host → w'.templates = w.templates → w'.sourced = w.sourced → R w w'

instance [World.Lax R] : World.Slack R where
  beside hi hc hh _ _ := World.Lax.aside hi hc hh

namespace Eng.Within

/-- A change of anything else. -/
theorem aside [World.Lax R] {f : World → α × World} (hf : ∀ w, (f w).2.instances = w.instances ∧
    (f w).2.chronicle = w.chronicle ∧ (f w).2.host = w.host) :
    Within R H (MonadState.modifyGet f) :=
  modifyGet fun w => World.Lax.aside (hf w).1 (hf w).2.1 (hf w).2.2

theorem source [World.Lax R] (step : World → Sourcing) : Within R H (Eng.source step) :=
  aside fun _ => ⟨rfl, rfl, rfl⟩

variable [World.Slack R]

/-- A change of anything else still. -/
theorem beside {f : World → α × World} (hf : ∀ w, (f w).2.instances = w.instances ∧
    (f w).2.chronicle = w.chronicle ∧ (f w).2.host = w.host ∧ (f w).2.templates = w.templates ∧
    (f w).2.sourced = w.sourced) : Within R H (MonadState.modifyGet f) :=
  modifyGet fun w => World.Slack.beside (hf w).1 (hf w).2.1 (hf w).2.2.1 (hf w).2.2.2.1
    (hf w).2.2.2.2

theorem tryForging (f : Forging α) : Within R H (Eng.tryForging f) :=
  beside fun _ => ⟨rfl, rfl, rfl, rfl, rfl⟩

theorem forging (hH : ∀ e, H (.fatal e)) (f : Forging α) : Within R H (Eng.forging f) := by
  refine (tryForging f).bind fun r => ?_
  cases r with
  | ok a => exact pure a
  | error e => exact throw (hH e)

theorem onPerf (f : Perf → Perf) : Within R H (Eng.onPerf f) :=
  beside fun _ => ⟨rfl, rfl, rfl, rfl, rfl⟩

theorem skipMarks (n : Nat) : Within R H (Eng.skipMarks n) :=
  beside fun _ => ⟨rfl, rfl, rfl, rfl, rfl⟩

end Eng.Within

/-! ## Hand-written trees -/

/-- The answers of the context keep to the relation. -/
structure RenderContext.Answers (R : World → World → Prop) (H : Halt → Prop)
    (ctx : RenderContext Eng) : Prop where
  lookup (path : String) : Eng.Within R H (ctx.lookup path)
  applyFilter (name : String) (v : Value) : Eng.Within R H (ctx.applyFilter name v)
  renderStatic (i : Nat) : Eng.Within R H (ctx.renderStatic i)
  resolveComponent (tag : String) : Eng.Within R H (ctx.resolveComponent tag)
  bindListener (method : String) : Eng.Within R H (ctx.bindListener method)
  slot (name : String) : Eng.Within R H (ctx.slot name)
  warn (message : String) : Eng.Within R H (ctx.warn message)

/-- Rendering that keeps to the relation, whether it fails or not. -/
def Eng.Renders (R : World → World → Prop) (H : Halt → Prop) (m : Rendering Eng α) : Prop :=
  Within R H m.run

namespace Eng.Renders

variable [World.Frame R]

theorem pure (a : α) : Renders R H (Pure.pure a) := Within.pure (Except.ok a)

theorem throw (e : HookError) : Renders R H (MonadExcept.throw e : Rendering Eng α) :=
  Within.pure (Except.error e)

theorem lift {m : Eng α} (hm : Within R H m) : Renders R H (ExceptT.lift m) :=
  hm.bind fun a => Within.pure (Except.ok a)

theorem bind {m : Rendering Eng α} {g : α → Rendering Eng β} (hm : Renders R H m)
    (hg : ∀ a, Renders R H (g a)) : Renders R H (m >>= g) := by
  refine Within.bind hm fun r => ?_
  cases r with
  | ok a => exact hg a
  | error e => exact Within.pure (Except.error e)

end Eng.Renders

namespace Eng

variable [World.Frame R] {ctx : RenderContext Eng} (hctx : ctx.Answers R H)
include hctx

theorem within_specValue (v : SpecValue) : Within R H (v.eval ctx) := by
  induction v with
  | literal v => exact Within.pure v
  | lookup path => exact (hctx.lookup path).bind fun _ => Within.pure _
  | filtered filter v ih => exact ih.bind (hctx.applyFilter filter)

theorem within_specAttrs (attrs : List (String × SpecValue)) :
    Within R H (NodeSpec.renderAttrs ctx attrs) := by
  refine Within.mapM (fun a => ?_) attrs
  exact (within_specValue hctx a.2).bind fun _ => Within.pure _

theorem within_specProps (props : List (String × SpecValue)) :
    Within R H (NodeSpec.renderProps ctx props) := by
  refine Within.foldlM (fun d p => ?_) props []
  exact (within_specValue hctx p.2).bind fun _ => Within.pure _

theorem within_bindAll (on : List (String × String)) : Within R H (NodeSpec.bindAll ctx on) := by
  refine Within.foldlM (fun d l => ?_) on []
  exact (hctx.bindListener l.2).bind fun _ => Within.pure _

mutual

/-- **Rendering a hand-written tree** asks the context and does nothing else. -/
theorem renders_spec : ∀ s : NodeSpec, Renders R H (s.render ctx)
  | .warn message next => by
    rw [NodeSpec.render]
    exact (Renders.lift (hctx.warn message)).bind fun _ => renders_spec next
  | .fail message => by
    rw [NodeSpec.render]
    exact Renders.throw _
  | .element tag attrs kids => by
    rw [NodeSpec.render]
    refine (Renders.lift (within_specAttrs hctx attrs)).bind fun _ => ?_
    exact (renders_kids kids).bind fun _ => Renders.pure _
  | .component tag props on kids => by
    rw [NodeSpec.render]
    refine (Renders.lift (hctx.resolveComponent tag)).bind fun ctor => ?_
    cases ctor with
    | none => exact Renders.pure _
    | some ctor =>
      refine (Renders.lift (within_bindAll hctx on)).bind fun _ => ?_
      refine (Renders.lift (within_specProps hctx props)).bind fun _ => ?_
      exact (renders_kids kids).bind fun _ => Renders.pure _
  | .static i => by
    rw [NodeSpec.render]
    exact Renders.lift (hctx.renderStatic i)
  | .comment s => by
    rw [NodeSpec.render]
    exact Renders.pure _
  | .text v => by
    rw [NodeSpec.render]
    exact (Renders.lift (within_specValue hctx v)).bind fun _ => Renders.pure _
  | .slot name => by
    rw [NodeSpec.render]
    exact Renders.pure _
  | .nothing => by
    rw [NodeSpec.render]
    exact Renders.pure _

theorem renders_kids : ∀ ks : List NodeSpec, Renders R H (NodeSpec.renderKids ctx ks)
  | [] => by
    rw [NodeSpec.renderKids]
    exact Renders.pure _
  | k :: rest => by
    rw [NodeSpec.renderKids]
    have hrest : ∀ here : List VNode, Renders R H (do
        return here ++ (← NodeSpec.renderKids ctx rest)) := fun here =>
      (renders_kids rest).bind fun _ => Renders.pure _
    cases k.slotName? with
    | some name => exact (Renders.lift (hctx.slot name)).bind hrest
    | none => exact (renders_spec k).bind fun _ => (Renders.pure _).bind hrest

end

end Eng

/-! ## Compiled templates -/

namespace Template

open Eng (Within)

variable [World.Frame R] {ctx : RenderContext Eng}

section

variable (hctx : ctx.Answers R H)
include hctx

theorem within_evaluate (e : Expression) : Within R H (evaluate ctx e) := by
  have hfilters : ∀ v, Within R H (e.filters.foldlM (fun v name => ctx.applyFilter name v) v) :=
    fun v => Within.foldlM (fun v name => hctx.applyFilter name v) _ v
  rw [evaluate]
  cases e.operand with
  | path p => exact (hctx.lookup p).bind fun _ => (Within.pure _).bind hfilters
  | literal v => exact (Within.pure v).bind hfilters

theorem within_renderPart (p : TextPart) : Within R H (renderPart ctx p) := by
  cases p with
  | literal s => exact Within.pure s
  | expr e => exact (within_evaluate hctx e).bind fun _ => Within.pure _

theorem within_renderElement (tag : String) (attrs : List (String × String))
    (bindings : List (String × Expression)) (listeners : List (String × String))
    (children : List VNode) (maybeComponent : Bool) :
    Within R H (renderElement ctx tag attrs bindings listeners children maybeComponent) := by
  have hplain : Within R H (do
      return VNode.element tag (← renderAttributes ctx attrs bindings) children false) := by
    refine Within.bind (Within.foldlM (fun d b => ?_) _ _) fun _ => Within.pure _
    exact (within_evaluate hctx b.2).bind fun _ => Within.pure _
  cases maybeComponent with
  | false => exact hplain
  | true =>
    refine (hctx.resolveComponent tag).bind fun ctor => ?_
    cases ctor with
    | none => exact hplain
    | some ctor =>
      refine Within.bind (Within.foldlM (fun d b => ?_) _ _) fun _ =>
        Within.bind (Within.foldlM (fun d l => ?_) _ _) fun _ => Within.pure _
      · exact (within_evaluate hctx b.2).bind fun _ => Within.pure _
      · exact (hctx.bindListener l.2).bind fun _ => Within.pure _

end

mutual

/-- **Rendering a compiled template** asks the context and does nothing else. -/
theorem within_renderNode (hctx : ctx.Answers R H) :
    ∀ n : Node, Within R H (renderNode ctx n)
  | .text parts => by
    rw [renderNode]
    exact (Within.mapM (within_renderPart hctx) parts).bind fun _ => Within.pure _
  | .comment s => by
    rw [renderNode]
    exact Within.pure _
  | .static i => by
    rw [renderNode]
    exact (hctx.renderStatic i).bind fun _ => Within.pure _
  | .slot name fallback => by
    rw [renderNode]
    refine (hctx.slot name).bind fun provided => ?_
    exact Within.ite (within_renderAll hctx fallback) (Within.pure provided)
  | .element tag attrs bindings listeners children maybeComponent => by
    rw [renderNode]
    refine (within_renderAll hctx children).bind fun children => ?_
    exact (within_renderElement hctx _ _ _ _ _ _).bind fun _ => Within.pure _

theorem within_renderAll (hctx : ctx.Answers R H) :
    ∀ ns : List Node, Within R H (renderAll ctx ns)
  | [] => by
    rw [renderAll]
    exact Within.pure _
  | n :: rest => by
    rw [renderAll]
    refine (within_renderNode hctx n).bind fun _ => ?_
    exact (within_renderAll hctx rest).bind fun _ => Within.pure _

end

end Template

namespace Eng

/-- Running a render function asks the context and does nothing else. -/
theorem renders_body [World.Frame R] {ctx : RenderContext Eng} (hctx : ctx.Answers R H)
    (f : RenderBody) : Renders R H (f.run ctx) := by
  cases f with
  | spec s => exact renders_spec hctx s
  | template root =>
    refine Renders.lift ?_
    cases root with
    | none => exact Within.pure _
    | some root => exact (Template.within_renderNode hctx root).bind fun _ => Within.pure _
  | fixed tree => exact Renders.pure tree

variable [World.Slack R] {rt : Runtime} {run : Runner} {vm : InstanceId}

/-! ## What an instance answers -/

theorem within_lookupPath (path : String) : Within R H (lookupPath vm path) := by
  refine (Within.getInstance vm).bind fun i => ?_
  cases Path.segments path <;> exact Within.pure _

theorem within_applyFilter (name : String) (v : Value) :
    Within R H (applyFilter rt vm name v) := by
  refine (Within.getInstance vm).bind fun i => ?_
  cases i.filter? name with
  | some e => exact (Within.invoke _).bind fun _ => Within.pure _
  | none => exact (within_warn vm _).bind fun _ => Within.pure _

theorem within_resolveComponent (tag : String) : Within R H (resolveComponent rt vm tag) := by
  refine (Within.getInstance vm).bind fun i => ?_
  cases i.options.components.bind (·.resolve? tag) with
  | none =>
    cases rt.config.isIgnoredElement tag with
    | true => exact Within.pure none
    | false => exact (within_warn vm _).bind fun _ => Within.pure none
  | some entry =>
    refine Within.get.bind fun w => (Within.tryForging _).bind fun r => ?_
    cases r with
    | ok c => exact Within.pure c
    | error e => exact (within_warn vm _).bind fun _ => Within.pure none

theorem within_bindListener (method : String) : Within R H (bindListener rt vm method) := by
  refine (Within.getInstance vm).bind fun i => ?_
  cases Dict.contains i.methods method with
  | true => exact Within.freshMark.bind fun _ => Within.pure _
  | false => exact (within_warn vm _).bind fun _ => Within.freshMark.bind fun _ => Within.pure _

theorem answers_scopeWith {renderStatic : Nat → Eng VNode}
    (hstatic : ∀ i, Within R H (renderStatic i)) :
    (scopeWith rt vm renderStatic).Answers R H where
  lookup := within_lookupPath
  applyFilter := within_applyFilter
  renderStatic := hstatic
  resolveComponent := within_resolveComponent
  bindListener := within_bindListener
  slot _ := (Within.getInstance vm).bind fun _ => Within.pure _
  warn := within_warn vm

variable (hrun : ∀ vm args s, Within R H (run vm args s)) (hfuel : H .outOfFuel)
  (hkeep : ∀ e, Within R H
    (modifyInstance vm fun i => { i with staticTrees := e :: i.staticTrees }))
include hrun hfuel hkeep

theorem within_renderStatic (fuel index : Nat) :
    Within R H (renderStatic rt run vm fuel index) := by
  induction fuel generalizing index with
  | zero => exact Within.throw hfuel
  | succ fuel ih =>
    refine (Within.getInstance vm).bind fun i => ?_
    cases i.staticTrees.lookup index with
    | some tree => exact Within.pure tree
    | none =>
      cases (i.options.part (·.staticRenderFns)).bind (·[index]?) with
      | none => exact (within_warn vm _).bind fun _ => Within.pure _
      | some f =>
        have hanswers : (scopeWith rt vm (renderStatic rt run vm fuel)).Answers R H :=
          answers_scopeWith ih
        refine Within.bind (renders_body hanswers f.value) fun r => ?_
        cases r with
        | ok tree => exact (Within.pure _).bind fun _ => (hkeep _).bind fun _ => Within.pure _
        | error e =>
          refine (within_report hrun vm e "render").bind fun _ => (Within.pure _).bind fun _ => ?_
          exact (hkeep _).bind fun _ => Within.pure _

theorem within_renderWith (f : RenderBody) : Within R H (renderWith rt run vm f) := by
  have hanswers : (scope rt run vm).Answers R H :=
    answers_scopeWith (within_renderStatic hrun hfuel hkeep rt.fuel)
  have hlookup : ∀ path, Within R H ((devScope rt run vm).lookup path) := by
    intro path
    refine (Within.getInstance vm).bind fun i => ?_
    cases i.has ((Path.segments path).headD "") with
    | true => exact within_lookupPath path
    | false => exact (within_warn vm _).bind fun _ => within_lookupPath path
  refine Within.withAccess vm .shared ((Within.getInstance vm).bind fun i => ?_)
  cases i.devProxy with
  | true => exact renders_body { hanswers with lookup := hlookup } f
  | false => exact renders_body hanswers f

/-- **Rendering an instance** keeps to the relation. -/
theorem within_renderInstance : Within R H (renderInstance rt run vm) := by
  refine (Within.getInstance vm).bind fun i => ?_
  cases i.options.part (·.render) with
  | none => exact Within.pure _
  | some f =>
    refine (within_renderWith hrun hfuel hkeep f).bind fun r => ?_
    cases r with
    | ok n => exact Within.pure n
    | error e =>
      exact (Within.withAccess vm .shared (within_report hrun vm e "render")).bind fun _ =>
        Within.pure _

end Eng

end Componentry
