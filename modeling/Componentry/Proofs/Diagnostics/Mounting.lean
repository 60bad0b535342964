import Componentry.Engine.Api
import Componentry.Proofs.Diagnostics.Compiling

/-!
# Mounting and diagnostics

Making an instance and mounting it do alike under any flags, and so do all that is below it.

- `Eng.same_setUp`: initializing.
- `Eng.same_expand`: the children of a rendered tree, one case per kind of node.
- `Eng.same_patchMount`: rendering into the host.
- `Eng.same_mountAt`: **mounting**, to any depth of components in components.
- `Runtime.same_mount`, `Runtime.same_setUp`: so for a runtime.
-/

namespace Componentry

open Json (Value)

variable {rt : Runtime} {φ : Flags} {run run' : Runner} {vm : InstanceId}

/-- What an instance renders with has nothing to do with the identity of its function. -/
theorem InstanceOptions.Alike.render {o o' : InstanceOptions} (h : o.Alike o') :
    o.part (·.render) = o'.part (·.render) := by
  refine h.read (·.part (·.render)) fun o => ?_
  have hplain : o.plain.own.fields.render = o.own.fields.render.map RenderFn.plain := rfl
  simp only [part, field, layered]
  rw [hplain]
  cases o.own.fields.render with
  | none => rfl
  | some f => rfl

namespace Eng

/-! ## Templates -/

theorem same_query (selector : String) :
    Same rt (query rt selector) (query (rt.under φ) selector) := by
  unfold query
  rw [show (rt.under φ).page = rt.page from rfl]
  cases rt.page with
  | none => exact same_pure none
  | some page =>
    refine (alike rt).bindSame (same_note rfl) fun _ => ?_
    exact (alike rt).bindSame same_getHost fun _ => same_pure _

theorem same_templateOf (selector : String) :
    Same rt (templateOf rt selector) (templateOf (rt.under φ) selector) := by
  refine (alike rt).bind alike_get fun w w' hw => ?_
  rw [hw.templates]
  cases Dict.get? w'.templates selector with
  | some markup => exact same_pure markup
  | none =>
    refine (alike rt).bindSame (same_query selector) fun found => ?_
    refine (alike rt).bindSame same_getHost fun host => ?_
    refine (alike rt).bindSame (same_modifyGet (fun _ => ⟨rfl, rfl⟩) fun w w' hw => ?_)
      fun _ => (alike rt).bindSame (same_aside (.source _) (.source _)) fun _ => same_pure _
    exact ⟨rfl, { hw with templates := congrArg (Dict.insert selector _) hw.templates }⟩

theorem same_fromTarget (el : Option NodeId) :
    Same rt (resolveTemplate.fromTarget el) (resolveTemplate.fromTarget el) := by
  cases el with
  | none => exact same_pure _
  | some n => exact (alike rt).bindSame same_getHost fun _ => same_pure _

theorem same_resolveTemplate (el : Option NodeId) :
    Same rt (resolveTemplate rt vm el) (resolveTemplate (rt.under φ) vm el) := by
  refine getInstanceThen fun i o d ho => ?_
  dsimp only
  rw [ho.read (·.field (·.template)) fun _ => rfl]
  cases o.field (·.template) with
  | none => exact same_fromTarget el
  | some source =>
    cases source with
    | node n => exact (alike rt).bindSame same_getHost fun _ => same_pure _
    | invalid v => exact (alike rt).bindSame (same_warn rt _ vm _) fun _ => same_pure none
    | markup m =>
      refine (alike rt).ite ?_ ((alike rt).ite (same_fromTarget el) (same_pure _))
      refine (alike rt).bindSame (same_templateOf m) fun found => ?_
      refine (alike rt).bindSame (same_aside (.source _) (.source _)) fun _ => ?_
      exact warnFirst (.warn rt vm _) (.warn _ vm _) (same_pure _)

theorem same_ensureRender (el : Option NodeId) :
    Same rt (ensureRender rt vm el) (ensureRender (rt.under φ) vm el) := by
  refine getInstanceThen fun i o d ho => ?_
  dsimp only
  rw [ho.render]
  refine (alike rt).ite (same_pure true) ?_
  refine (alike rt).bindSame (same_resolveTemplate el) fun template => ?_
  cases template with
  | none => exact same_pure false
  | some template =>
    refine (alike rt).ite ?_ (same_pure true)
    exact (alike rt).bindSame (same_compileInto template) fun _ => same_pure true

/-! ## Making instances -/

theorem same_allocate (c : ClassId) : Same rt (allocate c) (allocate c) :=
  same_modifyGet (fun _ => ⟨rfl, rfl⟩) fun _ _ h => ⟨h.size, h.push _⟩

theorem same_identify : Same rt (identify vm) (identify vm) := by
  refine (alike rt).bindSame (same_modifyGet (fun _ => ⟨rfl, rfl⟩) fun w w' hw => ?_) fun uid => ?_
  · exact ⟨hw.nextUid, { hw with nextUid := congrArg (· + 1) hw.nextUid }⟩
  refine (alike rt).bindSame (same_modifyInstance vm fun _ => rfl) fun _ => ?_
  exact (alike rt).bindSame (same_advance _) fun _ => same_pure uid

variable (hrun : ∀ vm args s, Same rt (run vm args s) (run' vm args s)) {mount mount' : Mounting}
  (hmount : ∀ vm target hydrating, Same rt (mount vm target hydrating) (mount' vm target hydrating))

include hmount in
theorem same_mountNamed {o o' : InstanceOptions} (ho : o.Alike o') :
    Same rt (mountNamed mount vm o) (mountNamed mount' vm o') := by
  rw [mountNamed, mountNamed, ho.read (·.field (·.el)) fun _ => rfl]
  cases o'.field (·.el) with
  | none => exact same_pure ()
  | some el => exact hmount vm (some el) false

include hrun hmount in
/-- **Initializing** does alike under any flags. -/
theorem same_setUp (vm : InstanceId) (origin : Origin) :
    Same rt (setUp rt run mount vm origin) (setUp (rt.under φ) run' mount' vm origin) := by
  refine getInstanceThen fun i o d ho => ?_
  refine (alike rt).ite (same_throw (.fatal (.instanceBusy "init"))) ((alike rt).ite ?_ ?_)
  · exact (alike rt).bindSame (same_warn rt _ vm _) fun _ => same_pure ()
  refine (alike rt).bindSame same_identify fun uid => ?_
  refine (alike rt).bindSame (same_aside (.onPerf _) (.onPerf _)) fun _ => ?_
  refine (alike rt).bindSame (same_initOptions origin) fun _ => ?_
  refine (alike rt).bindSame (same_initPhases hrun) fun _ => ?_
  refine (alike rt).bindSame (same_aside (.onPerf _) (.onPerf _)) fun _ => ?_
  refine getInstanceThen fun i o d ho => ?_
  refine (alike rt).bindSame (same_aside (.onPerf _) (.onPerf _)) fun _ => ?_
  exact same_mountNamed hmount ho

include hrun hmount in
theorem same_createChild (parent : InstanceId) (p : Placeholder) :
    Same rt (createChild rt run mount parent p)
      (createChild (rt.under φ) run' mount' parent p) := by
  refine (alike rt).bindSame (same_forging (Classes.resolve_alike p.ctor)) fun _ => ?_
  refine (alike rt).bindSame (same_allocate p.ctor) fun child => ?_
  exact (alike rt).bindSame (same_setUp hrun hmount child _) fun _ => same_pure child

/-! ## Rendering -/

include hrun in
theorem same_renderInstance :
    Same rt (renderInstance rt run vm) (renderInstance (rt.under φ) run' vm) := by
  refine getInstanceThen fun i o d ho => ?_
  dsimp only
  rw [ho.render]
  cases o.part (·.render) with
  | none => exact same_pure _
  | some f =>
    refine (alike rt).bindSame (same_renderWith hrun vm f) fun r => ?_
    cases r with
    | ok n => exact same_pure n
    | error e =>
      refine (alike rt).bindSame ?_ fun _ => same_pure _
      exact alike_withAccess vm .shared (same_report hrun vm e _)

include hrun hmount in
theorem same_expandPlaceholder (parent : InstanceId) (p : Placeholder) :
    Same rt (expandPlaceholder rt run mount parent p)
      (expandPlaceholder (rt.under φ) run' mount' parent p) := by
  refine (alike rt).bindSame (same_createChild hrun hmount parent p) fun child => ?_
  refine (alike rt).bindSame (hmount child none false) fun _ => ?_
  refine getInstanceThen fun i o d ho => ?_
  exact (alike rt).bindSame (same_modifyInstance child fun _ => rfl) fun _ => same_pure _

mutual

/-- **The children of a rendered tree** are made alike, one case per kind of node. -/
theorem same_expand (hrun : ∀ vm args s, Same rt (run vm args s) (run' vm args s))
    (hmount : ∀ vm target hydrating,
      Same rt (mount vm target hydrating) (mount' vm target hydrating)) (parent : InstanceId) :
    ∀ n : VNode, Same rt (expand rt run mount parent n) (expand (rt.under φ) run' mount' parent n)
  | .component tag ctor props listeners children => by
    rw [expand, expand]
    exact same_expandPlaceholder hrun hmount parent _
  | .element tag attrs children isStatic => by
    rw [expand, expand]
    exact (alike rt).bindSame (same_expandAll hrun hmount parent children) fun _ => same_pure _
  | .text s => same_pure (VNode.text s, [])
  | .comment s => same_pure (VNode.comment s, [])

theorem same_expandAll (hrun : ∀ vm args s, Same rt (run vm args s) (run' vm args s))
    (hmount : ∀ vm target hydrating,
      Same rt (mount vm target hydrating) (mount' vm target hydrating)) (parent : InstanceId) :
    ∀ ns : List VNode,
      Same rt (expandAll rt run mount parent ns) (expandAll (rt.under φ) run' mount' parent ns)
  | [] => by
    rw [expandAll, expandAll]
    exact same_pure _
  | n :: rest => by
    rw [expandAll, expandAll]
    refine (alike rt).bindSame (same_expand hrun hmount parent n) fun here => ?_
    exact (alike rt).bindSame (same_expandAll hrun hmount parent rest) fun _ => same_pure _

end

/-! ## The host -/

theorem same_warnMisplaced (count : Nat) : Same rt (warnMisplaced count) (warnMisplaced count) :=
  (alike rt).forM _ fun _ _ => same_note rfl

theorem same_readMarkup (markup : String) : Same rt (readMarkup markup) (readMarkup markup) := by
  unfold readMarkup
  generalize Markup.Document.parse markup = doc
  exact (alike rt).bindSame (same_warnMisplaced doc.misplaced) fun _ => same_onHost _

theorem same_replaceTarget (target : Option NodeId) (nodes : List NodeId) :
    Same rt (replaceTarget target nodes) (replaceTarget target nodes) := by
  cases target with
  | none => exact same_pure ()
  | some t =>
    refine (alike rt).bindSame (same_onHost _) fun replaced => ?_
    exact (alike rt).ite (same_note rfl) (same_pure ())

theorem same_patch (target : Option NodeId) (tree : VNode) (hydrating : Bool) :
    Same rt (patch rt vm target tree hydrating) (patch (rt.under φ) vm target tree hydrating) := by
  refine (alike rt).bindSame same_getHost fun host => (alike rt).ite (same_pure target) ?_
  refine warnFirst (.warn rt vm _) (.warn _ vm _) ?_
  refine (alike rt).bindSame (same_readMarkup _) fun nodes => ?_
  exact (alike rt).bindSame (same_replaceTarget target nodes) fun _ => same_pure _

theorem Aside.warnUnrendered (rt : Runtime) (vm : InstanceId) (target : Option NodeId) :
    Aside (warnUnrendered rt vm target) :=
  .getInstance fun _ => .ite (.ite (.warn rt vm _) (.warn rt vm _)) .pure

include hrun in
theorem same_finishMounted (vm : InstanceId) :
    Same rt (finishMounted rt run vm) (finishMounted (rt.under φ) run' vm) :=
  (alike rt).bindSame (same_modifyInstance vm fun _ => rfl) fun _ => same_callHook hrun _

include hrun hmount in
theorem same_renderBelow (target : Option NodeId) :
    Same rt (renderBelow rt run mount vm target)
      (renderBelow (rt.under φ) run' mount' vm target) := by
  refine (alike rt).bindSame (same_modifyInstance vm fun _ => rfl) fun _ => ?_
  refine (alike rt).bindSame (same_aside (.warnUnrendered rt vm _) (.warnUnrendered _ vm _)) ?_
  refine fun _ => (alike rt).bindSame (same_callHook hrun _) fun _ => ?_
  refine (alike rt).bindSame (same_renderInstance hrun) fun rendered => ?_
  refine (alike rt).bindSame (same_record vm _) fun _ => ?_
  exact same_expand hrun hmount vm rendered

include hrun hmount in
/-- **Rendering into the host** does alike under any flags. -/
theorem same_patchMount (target : Option NodeId) (hydrating : Bool) :
    Same rt (patchMount rt run mount vm target hydrating)
      (patchMount (rt.under φ) run' mount' vm target hydrating) := by
  refine (alike rt).bindSame (same_renderBelow hrun hmount target) fun rendered => ?_
  obtain ⟨tree, queue⟩ := rendered
  refine (alike rt).bindSame (same_modifyInstance vm fun _ => rfl) fun _ => ?_
  refine getInstanceThen fun i o d ho => (alike rt).ite (same_modifyInstance vm fun _ => rfl) ?_
  refine (alike rt).bindSame (same_patch target tree hydrating) fun el => ?_
  refine (alike rt).bindSame (same_record vm _) fun _ => ?_
  refine (alike rt).bindSame (same_modifyInstance vm fun _ => rfl) fun _ => ?_
  refine (alike rt).bindSame ((alike rt).forM queue fun vm _ => same_finishMounted hrun vm) ?_
  exact fun _ => same_finishMounted hrun vm

theorem same_recordMount (target : Option NodeId) (hydrating : Bool) :
    Same rt (recordMount vm target hydrating) (recordMount vm target hydrating) := by
  refine (alike rt).bindSame same_getHost fun host => getInstanceThen fun i o d ho => ?_
  dsimp only
  rw [ho.render]
  exact (alike rt).bind alike_get fun _ _ _ => same_note rfl

/-! ## Mounting -/

theorem same_resolveTarget (target : MountTarget) :
    Same rt (resolveTarget rt vm target) (resolveTarget (rt.under φ) vm target) := by
  cases target with
  | node n => exact same_pure _
  | selector s =>
    refine (alike rt).bindSame (same_query s) fun found => ?_
    exact warnFirst (.warn rt vm _) (.warn _ vm _) (same_pure _)

theorem same_refuses (el : Option NodeId) : Same rt (refuses el) (refuses el) :=
  (alike rt).bindSame same_getHost fun _ => same_pure _

include hrun hmount

theorem same_mountOn (el : Option NodeId) (hydrating : Bool) :
    Same rt (mountOn rt run mount vm el hydrating)
      (mountOn (rt.under φ) run' mount' vm el hydrating) := by
  refine (alike rt).bindSame (same_refuses el) fun refused => ?_
  refine (alike rt).ite (same_warn rt _ vm _) ?_
  refine (alike rt).bindSame (same_ensureRender el) fun ready => (alike rt).ite ?_ (same_pure ())
  rw [show (rt.under φ).mounter = rt.mounter from rfl]
  cases rt.mounter with
  | patch => exact same_patchMount hrun hmount el hydrating
  | recorder => exact same_recordMount el hydrating

theorem same_mountWith (vm : InstanceId) (target : Option MountTarget) (hydrating : Bool) :
    Same rt (mountWith rt run mount vm target hydrating)
      (mountWith (rt.under φ) run' mount' vm target hydrating) := by
  cases target with
  | none =>
    refine (alike rt).bindSame (same_pure none) fun el => ?_
    exact same_mountOn hrun hmount el hydrating
  | some t =>
    refine (alike rt).bindSame (same_resolveTarget t) fun el => ?_
    exact same_mountOn hrun hmount el hydrating

omit hmount in
/-- **Mounting** does alike under any flags, to any depth of components in components. -/
theorem same_mountAt (fuel : Nat) (vm : InstanceId) (target : Option MountTarget)
    (hydrating : Bool) : Same rt (mountAt rt run fuel vm target hydrating)
      (mountAt (rt.under φ) run' fuel vm target hydrating) := by
  -- the children that a rendering asks for are mounted with less fuel
  induction fuel generalizing vm target hydrating with
  | zero => exact same_throw _
  | succ fuel ih => exact same_mountWith hrun ih vm target hydrating

end Eng

namespace Runtime

open Eng (Same)

theorem same_run (vm : InstanceId) (args : List Value) (s : Script) :
    Same rt (rt.run vm args s) ((rt.under φ).run vm args s) := Eng.same_runScript _ vm args s

theorem same_mount (vm : InstanceId) (target : Option MountTarget) (hydrating : Bool) :
    Same rt (rt.mount vm target hydrating) ((rt.under φ).mount vm target hydrating) :=
  Eng.same_mountAt same_run _ vm target hydrating

theorem same_setUp (vm : InstanceId) (origin : Origin) :
    Same rt (rt.setUp vm origin) ((rt.under φ).setUp vm origin) :=
  Eng.same_setUp same_run same_mount vm origin

end Runtime

end Componentry
