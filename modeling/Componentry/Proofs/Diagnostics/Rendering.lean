import Componentry.Engine.Scope
import Componentry.Proofs.Diagnostics.Phases
import Componentry.Proofs.Template.Answering

/-!
# Rendering and diagnostics

In development an instance warns of what was never declared when it renders. That is all: what a
render function is answered is the same, so it gives the same.

- `Eng.scopeWith_answers`: instances answer alike under any flags.
- `Eng.scope_eq`: what it makes of the answers to warn of what was never declared.
- `Eng.same_renderStatic`: hoisted trees render alike.
- `Eng.same_renderWith`: **render functions** give the same under any flags.
-/

namespace Componentry

open Json (Value)

variable {rt : Runtime} {φ : Flags} {run run' : Runner} {vm : InstanceId}

/-- What a hoisted tree renders to has nothing to do with the identity of its function. -/
theorem InstanceOptions.Alike.staticBody {o o' : InstanceOptions} (h : o.Alike o') (index : Nat) :
    ((o.part (·.staticRenderFns)).bind (·[index]?)).map (·.value) =
      ((o'.part (·.staticRenderFns)).bind (·[index]?)).map (·.value) := by
  refine h.read (fun o => ((o.part (·.staticRenderFns)).bind (·[index]?)).map (·.value)) fun o => ?_
  have hplain : o.plain.own.fields.staticRenderFns =
    o.own.fields.staticRenderFns.map fun fs => .new (fs.value.map RenderFn.plain) := rfl
  simp only [part, field, layered]
  rw [hplain]
  cases o.own.fields.staticRenderFns with
  | none => rfl
  | some fs =>
    show ((fs.value.map RenderFn.plain)[index]?).map (·.value) = (fs.value[index]?).map (·.value)
    rw [List.getElem?_map, Option.map_map]
    rfl

/-- The line of super classes has nothing to do with the journal. -/
theorem Forest.Alike.baseOf {f f' : Forest} (h : f.Alike f') (c : ClassId) :
    f.baseOf c = f'.baseOf c := by
  have hfrom : ∀ (fuel : Nat) (c : ClassId), f.baseFrom fuel c = f'.baseFrom fuel c := by
    intro fuel
    induction fuel with
    | zero => exact fun _ => rfl
    | succ fuel ih =>
      intro c
      rw [Forest.baseFrom, Forest.baseFrom, Forest.class?, Forest.class?, h.classes]
      cases (f'.classes[c]?).bind (·.superClass) with
      | none => rfl
      | some s => exact ih s
  rw [Forest.baseOf, Forest.baseOf, h.classes, hfrom]

namespace Eng

/-! ## Answers -/

theorem same_lookupPath (path : String) : Same rt (lookupPath vm path) (lookupPath vm path) :=
  getInstanceThen fun i o d ho => by
    cases Path.segments path with
    | nil => exact same_pure _
    | cons key rest => exact same_pure _

theorem same_applyFilter (name : String) (v : Value) :
    Same rt (applyFilter rt vm name v) (applyFilter (rt.under φ) vm name v) := by
  refine getInstanceThen fun i o d ho => ?_
  dsimp only [Instance.filter?]
  rw [ho.read (·.filters) fun _ => rfl]
  cases o.filters.bind (·.resolve? name) with
  | some e => exact (alike rt).bindSame (same_invoke _) fun _ => same_pure _
  | none => exact (alike rt).bindSame (same_warn rt _ vm _) fun _ => same_pure _

theorem same_resolveComponent (tag : String) :
    Same rt (resolveComponent rt vm tag) (resolveComponent (rt.under φ) vm tag) := by
  refine getInstanceThen fun i o d ho => ?_
  dsimp only
  rw [ho.read (·.components) fun _ => rfl]
  cases o.components.bind (·.resolve? tag) with
  | none => exact warnFirst (.warn rt vm _) (.warn _ vm _) (same_pure _)
  | some entry =>
    refine (alike rt).bind alike_get fun w w' hw => ?_
    rw [hw.forest.baseOf]
    refine (alike rt).bindSame (same_tryForging (Classes.classFor_alike _ entry)) fun r => ?_
    cases r with
    | ok c => exact same_pure c
    | error e => exact (alike rt).bindSame (same_warn rt _ vm _) fun _ => same_pure _

theorem same_bindListener (method : String) :
    Same rt (bindListener rt vm method) (bindListener (rt.under φ) vm method) :=
  getInstanceThen fun i o d ho => by
    refine warnFirst (.warn rt vm _) (.warn _ vm _) ?_
    exact (alike rt).bindSame same_freshMark fun _ => same_pure _

/-- Instances answer alike under any flags. -/
theorem scopeWith_answers (rt : Runtime) (φ : Flags) (vm : InstanceId)
    (tree tree' : Nat → Eng VNode) :
    (alike rt).Answers (scopeWith rt vm tree) (scopeWith (rt.under φ) vm tree') where
  lookup := same_lookupPath
  applyFilter := same_applyFilter
  resolveComponent := same_resolveComponent
  bindListener := same_bindListener
  slot _ := getInstanceThen fun _ _ _ _ => same_pure _
  warn := same_warn rt _ vm

/-! ## Render functions -/

variable (hrun : ∀ vm args s, Same rt (run vm args s) (run' vm args s))

/-- A render function, given that hoisted trees render alike. -/
theorem same_run {ctx ctx' : RenderContext Eng} (S : (alike rt).Answers ctx ctx')
    (hstatic : ∀ i, Same rt (ctx.renderStatic i) (ctx'.renderStatic i)) (f : RenderBody) :
    Same rt (f.run ctx).run (f.run ctx').run :=
  (alike rt).imp (f.run_alike S hstatic) fun _ _ h => h.eq

include hrun

/-- Hoisted trees render alike. -/
theorem same_renderStatic (fuel : Nat) (index : Nat) :
    Same rt (renderStatic rt run vm fuel index) (renderStatic (rt.under φ) run' vm fuel index) := by
  induction fuel generalizing index with
  | zero => exact same_throw _
  | succ fuel ih =>
    refine getInstanceThen fun i o d ho => ?_
    dsimp only
    cases i.staticTrees.lookup index with
    | some tree => exact same_pure tree
    | none =>
      dsimp only
      obtain ⟨hf, hf'⟩ | ⟨f, f', hf, hf', hbody⟩ := cases_of_map_eq (ho.staticBody index)
      · rw [hf, hf']
        exact (alike rt).bindSame (same_warn rt _ vm _) fun _ => same_pure _
      · rw [hf, hf']
        dsimp only
        rw [hbody]
        refine (alike rt).bindSame (same_run (scopeWith_answers rt φ vm _ _) ih f'.value) fun r => ?_
        have hkept : ∀ tree : VNode, Same rt
            (do
              modifyInstance vm fun i => { i with staticTrees := (index, tree) :: i.staticTrees }
              return tree)
            (do
              modifyInstance vm fun i => { i with staticTrees := (index, tree) :: i.staticTrees }
              return tree) := fun tree =>
          (alike rt).bindSame (same_modifyInstance vm fun _ => rfl) fun _ => same_pure tree
        cases r with
        | ok tree => exact hkept tree.asStatic
        | error e => exact (alike rt).bindSame (same_report hrun vm e _) fun _ => hkept .empty

omit hrun in
/-- Warning of what was never declared or not, an instance answers as it does otherwise, but for
what it looks at first when something is looked up. -/
theorem scope_eq (rt : Runtime) (run : Runner) (vm : InstanceId) (d : Bool) :
    (if d then devScope rt run vm else scope rt run vm) = { scope rt run vm with
      lookup := fun path => do
        let i ← getInstance vm
        if d && !i.has ((Path.segments path).headD "") then
          Eng.warn rt vm ("Property or method \"" ++ (Path.segments path).headD ""
            ++ "\" is not defined on the instance but referenced during render.")
        lookupPath vm path } := by
  cases d with
  | false => rfl
  | true => rfl

/-- **Render functions** give the same under any flags. -/
theorem same_renderWith (vm : InstanceId) (f : RenderBody) :
    Same rt (renderWith rt run vm f) (renderWith (rt.under φ) run' vm f) := by
  refine alike_withAccess vm .shared (getInstanceThen fun i o d ho => ?_)
  dsimp only
  rw [scope_eq, scope_eq]
  -- it makes no difference which of the two warns
  refine same_run ?_ (same_renderStatic hrun rt.fuel) f
  have S := scopeWith_answers rt φ vm (renderStatic rt run vm rt.fuel)
    (renderStatic (rt.under φ) run' vm rt.fuel)
  refine { S with lookup := fun path => getInstanceThen fun _ _ _ _ => ?_ }
  exact warnFirst (.warn rt vm _) (.warn _ vm _) (same_lookupPath path)

end Eng

end Componentry
