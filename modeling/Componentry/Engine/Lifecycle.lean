import Componentry.Engine.State
import Componentry.Render.Slots

/-!
# Wiring an instance into its tree

- `initLifecycle`: parent, root and the parent's children.
- `initEvents`, `initRender`: listeners and slots that came with the placeholder.
- `callHook`: the handlers of a hook.
-/

namespace Componentry

namespace Eng

variable (rt : Runtime) (run : Runner)

/-- The first instance from `p` up that is not abstract, or the topmost one. -/
def firstConcrete (w : World) : Nat → InstanceId → InstanceId
  | 0, p => p
  | fuel + 1, p =>
    match w.instances[p]? with
    | none => p
    | some i =>
      if i.options.isAbstract then
        match i.parent with
        | none => p
        | some q =>
          if (w.instances.getD q { (default : Instance) with alive := false }).alive then
            firstConcrete w fuel q
          else p
      else p

/-- Puts an instance below its parent. One that is not abstract goes below the first ancestor that
is not abstract, and among its children. -/
def initLifecycle (vm : InstanceId) : Eng Unit := do
  let i ← getInstance vm
  let creator ← alive? i.options.parent
  let w ← get
  let parent :=
    if i.options.isAbstract then creator
    else creator.map (firstConcrete w (w.instances.size + 1))
  match parent with
  | none =>
    modifyInstance vm ({ · with
      parent, root := none, children := [], isMounted := false, isDestroyed := false })
  | some p =>
    if !i.options.isAbstract then
      modifyInstance p fun j => { j with children := j.children ++ [vm] }
    let root := some ((← getInstance p).root.getD p)
    modifyInstance vm ({ · with
      parent, root, children := [], isMounted := false, isDestroyed := false })

/-- Attaches the listeners that came with the placeholder. -/
def initEvents (vm : InstanceId) : Eng Unit :=
  modifyInstance vm fun i =>
    let events := (i.options.parentListeners.getD []).foldl (fun d e =>
      if e.2.isEmpty then d else Dict.alter e.1 (fun fs => fs.getD [] ++ e.2) d) []
    { i with events }

/-- Deals out the children that came with the placeholder. -/
def initRender (vm : InstanceId) : Eng Unit :=
  modifyInstance vm fun i =>
    { i with
      vnode := none
      staticTrees := []
      parentVNode := i.options.parentVNode
      slots := (i.options.renderChildren.map resolveSlots).getD [] }

/-- Runs the handlers of a hook in order and reports the errors of each, then emits the event of
the hook if anybody listens. -/
def callHook (vm : InstanceId) (h : Hook) : Eng Unit := do
  let i ← getInstance vm
  (i.options.hookHandlers h).forM fun f => do
    let _ ← attempt rt run vm (h.name ++ " hook") do
      record vm (.ran vm (.hook h f))
      run vm [] f.script
  let event := "hook:" ++ h.name
  if (← getInstance vm).hasListeners event then
    withAccess vm .exclusive (emit rt run vm event [])

end Eng

end Componentry
