import Componentry.Engine.SetUp

/-!
# Mounting

Mounting finds the element to replace, compiles the template of an instance that has no render
function yet, renders, makes the child components that rendering asked for, and puts the result
into the host page.

- `Eng.compile`: compiling a template, each only once.
- `Eng.expand`: makes the children of a rendered tree.
- `Eng.mountAt`: mounting, to a depth of components in components.
- `Runtime.mount`, `Runtime.setUp`: mounting and initializing as deep as the runtime allows.
-/

namespace Componentry

open Json (Value)

namespace Eng

variable (rt : Runtime)

/-! ## Templates -/

/-- A compiled template as render functions. -/
def install (c : Template.Compiled) : Eng CompiledTemplate := do
  let render : RenderFn := ⟨some (← freshMark), .template c.root⟩
  let statics ← c.statics.mapM fun tree => do
    return (⟨some (← freshMark), .fixed tree⟩ : RenderFn)
  return { render, statics, problems := c.problems }

/-- Warns of everything in some markup that does not belong into the table where it stands. -/
def warnMisplaced (count : Nat) : Eng Unit :=
  (List.replicate count "foster parenting not implemented").forM fun text => note (.line .warn text)

/-- Compiles a template, unless that was done before. Then the marks that the render functions would
have taken are passed over: which marks come next does not depend on what was compiled before. -/
def compile (s : Template.CompileSettings) (template : String) : Eng CompiledTemplate := do
  modify fun w => { w with asked := w.asked ++ [(s, template)] }
  let key := rt.digest s template
  match Dict.get? (← get).memo key with
  | some hit =>
    skipMarks (1 + hit.statics.length)
    return hit
  | none =>
    modify fun w => { w with compilations := w.compilations + 1 }
    let tree := Template.compile s template
    warnMisplaced tree.misplaced
    let compiled ← install tree
    modify fun w => { w with memo := Dict.insert key compiled w.memo }
    return compiled

/-- The first element of the page that a selector names. -/
def query (selector : String) : Eng (Option NodeId) := do
  match rt.page with
  | none => return none
  | some page =>
    note (.query selector)
    return (← getHost).query page selector

/-- The markup inside the element that a selector names. The page is asked once for each selector;
nothing found counts as empty. -/
def templateOf (selector : String) : Eng String := do
  match Dict.get? (← get).templates selector with
  | some markup => return markup
  | none =>
    let found ← query rt selector
    let host ← getHost
    let markup := match found with
      | some n => host.innerHtml n
      | none => ""
    modify fun w => { w with templates := Dict.insert selector markup w.templates }
    source fun _ => .lookedUp selector markup
    return markup

/-- The markup to compile for an instance; empty if there is nothing to compile, none if mounting
must stop. -/
def resolveTemplate (vm : InstanceId) (el : Option NodeId) : Eng (Option String) := do
  match (← getInstance vm).options.field (·.template) with
  | some (.node n) => return some ((← getHost).innerHtml n)
  | some (.invalid v) =>
    warn rt vm ("invalid template option: " ++ v.compact)
    return none
  | some (.markup m) =>
    if m.startsWith "#" then
      let found ← templateOf rt m
      source fun _ => .given vm m found
      if found.isEmpty then warn rt vm ("Template element not found or is empty: " ++ m)
      return some found
    else if m.isEmpty then fromTarget
    else return some m
  | none => fromTarget
where
  /-- The target itself is the template. -/
  fromTarget : Eng (Option String) := do
    match el with
    | some n => return some ((← getHost).outerHtml n)
    | none => return some ""

/-- What an instance asks of the compiler. -/
def compileSettings (i : Instance) : Template.CompileSettings where
  sourceRange := rt.config.devMode
  decodeNewlines := rt.decodeNewlines
  decodeHrefNewlines := rt.decodeHrefNewlines
  delimiters := i.options.field (·.delimiters)
  comments := i.options.comments

/-- Compiles a template for an instance and keeps the render functions among its options. -/
def compileInto (vm : InstanceId) (template : String) : Eng Unit := do
  onPerf (·.mark "compile")
  source fun w => .compiled vm w.instances[vm]? template
  let compiled ← compile rt (compileSettings rt (← getInstance vm)) template
  compiled.problems.forM fun p =>
    warn rt vm ("Error compiling template:\n\n" ++ template ++ "\n\n- " ++ p.display)
  modifyInstance vm fun i =>
    { i with options := i.options.setRender compiled.render compiled.statics }
  onPerf (·.mark "compile end")
  let name := (← getInstance vm).displayName
  onPerf (·.measure (name ++ " compile") "compile" "compile end")

/-! ## Rendering -/

variable (run : Runner)

/-- The tree that an instance renders to; nothing if its render function fails. -/
def renderInstance (vm : InstanceId) : Eng VNode := do
  match (← getInstance vm).options.part (·.render) with
  | none => return .empty
  | some f =>
    match ← renderWith rt run vm f with
    | .ok n => return n
    | .error e =>
      withAccess vm .shared (report rt run vm e "render")
      return .empty

/-- Makes the child for a placeholder, below `parent`. -/
def createChild (mount : Mounting) (parent : InstanceId) (p : Placeholder) :
    Eng InstanceId := do
  let _ ← forging (Classes.resolve rt.config p.ctor)
  let child ← allocate p.ctor
  setUp rt run mount child (.child parent p none [])
  return child

/-- Makes and mounts the child for a placeholder: the tree it renders to, and the instances that
wait for their mounted hook, the child last. -/
def expandPlaceholder (mount : Mounting) (parent : InstanceId) (p : Placeholder) :
    Eng (VNode × List InstanceId) := do
  let child ← createChild rt run mount parent p
  mount child none false
  let i ← getInstance child
  modifyInstance child ({ · with pendingMounted := [] })
  return (i.vnode.getD .empty, i.pendingMounted ++ [child])

mutual

/-- Puts in the place of each placeholder the tree of a child made for it, and gives the instances
that wait for their mounted hook, each after those below it. -/
def expand (mount : Mounting) (parent : InstanceId) : VNode → Eng (VNode × List InstanceId)
  | .component tag ctor props listeners children =>
    expandPlaceholder rt run mount parent { tag, ctor, props, listeners, children }
  | .element tag attrs children isStatic => do
    let (children, queue) ← expandAll mount parent children
    return (.element tag attrs children isStatic, queue)
  | n => return (n, [])

def expandAll (mount : Mounting) (parent : InstanceId) :
    List VNode → Eng (List VNode × List InstanceId)
  | [] => return ([], [])
  | n :: rest => do
    let (n, here) ← expand mount parent n
    let (rest, later) ← expandAll mount parent rest
    return (n :: rest, here ++ later)

end

/-! ## The host -/

/-- The nodes that a piece of markup leaves in a body, made in the host. -/
def readMarkup (markup : String) : Eng (List NodeId) := do
  let doc := Markup.Document.parse markup
  warnMisplaced doc.misplaced
  onHost (·.loadBody doc)

/-- Puts nodes into the host in the place of the target, if there is one. -/
def replaceTarget (target : Option NodeId) (nodes : List NodeId) : Eng Unit := do
  match target with
  | some t =>
    if !(← onHost (·.replaceNode t nodes)) then
      note (.line .debug "mount target is detached; rendered nodes are kept off-document")
  | none => return

/-- Puts a rendered tree into the host in the place of the target, and gives the element that now
stands for the instance. A hydrated target that agrees with the tree stays. -/
def patch (vm : InstanceId) (target : Option NodeId) (tree : VNode) (hydrating : Bool) :
    Eng (Option NodeId) := do
  let html := tree.toHtml
  let host ← getHost
  if hydrating && target.any fun t => host.outerHtml t == html then return target
  if hydrating && target.isSome then
    warn rt vm ("The client-side rendered virtual DOM tree is not matching server-rendered "
      ++ "content. Bailing hydration and performing full client-side render.")
  let nodes ← readMarkup html
  replaceTarget target nodes
  return nodes.head?

/-- Whether the template of an instance is something that a compiler could have compiled. -/
def hasMarkup (o : InstanceOptions) : Bool :=
  match o.field (·.template) with
  | some (.markup m) => !m.startsWith "#"
  | some _ => true
  | none => false

/-- Warns about an instance without a render function. -/
def warnUnrendered (vm : InstanceId) (target : Option NodeId) : Eng Unit := do
  let o := (← getInstance vm).options
  if (o.part (·.render)).isNone then
    if hasMarkup o || (o.field (·.el)).isSome || target.isSome then
      warn rt vm ("You are using the runtime-only build where the template compiler is not "
        ++ "available. Either pre-compile the templates into render functions, or use a runtime "
        ++ "with a template compiler.")
    else
      warn rt vm "Failed to mount component: template or render function not defined."

/-- Marks an instance as mounted and runs its hook. -/
def finishMounted (vm : InstanceId) : Eng Unit := do
  modifyInstance vm ({ · with isMounted := true })
  callHook rt run vm .mounted

/-- Renders an instance with everything below it: the tree, and the instances below that wait for
their mounted hook. -/
def renderBelow (mount : Mounting) (vm : InstanceId) (target : Option NodeId) :
    Eng (VNode × List InstanceId) := do
  modifyInstance vm ({ · with el := target })
  warnUnrendered rt vm target
  callHook rt run vm .beforeMount
  let rendered ← renderInstance rt run vm
  record vm (.rendered vm rendered)
  expand rt run mount vm rendered

/-- Renders an instance with everything below it and puts it into the host. A child is not put
there by itself: it keeps its tree, and those below that wait, for the root. -/
def patchMount (mount : Mounting) (vm : InstanceId) (target : Option NodeId)
    (hydrating : Bool) : Eng Unit := do
  let (tree, queue) ← renderBelow rt run mount vm target
  modifyInstance vm ({ · with vnode := some tree })
  if (← getInstance vm).parentVNode.isSome then
    modifyInstance vm ({ · with pendingMounted := queue })
  else
    let el ← patch rt vm target tree hydrating
    record vm (.patched vm)
    modifyInstance vm ({ · with el })
    queue.forM (finishMounted rt run)
    finishMounted rt run vm

/-- Records that mounting was asked for. -/
def recordMount (vm : InstanceId) (target : Option NodeId) (hydrating : Bool) : Eng Unit := do
  let h ← getHost
  let hasRender := ((← getInstance vm).options.part (·.render)).isSome
  note (.mounter (target.map h.outerHtml) hydrating hasRender (← get).perf.measures.length)

/-! ## Mounting -/

/-- The element that a target names. -/
def resolveTarget (vm : InstanceId) : MountTarget → Eng (Option NodeId)
  | .node n => return some n
  | .selector s => do
    let found ← query rt s
    if found.isNone then warn rt vm ("Cannot find element: " ++ s)
    return found

/-- Compiles the template of an instance that has no render function; false if mounting must
stop. -/
def ensureRender (vm : InstanceId) (el : Option NodeId) : Eng Bool := do
  if ((← getInstance vm).options.part (·.render)).isSome then return true
  match ← resolveTemplate rt vm el with
  | none => return false
  | some template =>
    if !template.isEmpty then compileInto rt vm template
    return true

/-- Whether a target must not be replaced. -/
def refuses (el : Option NodeId) : Eng Bool := do
  let h ← getHost
  return (el.map h.isDocumentRoot).getD false

/-- Mounts an instance on the element that was found for its target. -/
def mountOn (mount : Mounting) (vm : InstanceId) (el : Option NodeId) (hydrating : Bool) :
    Eng Unit := do
  if ← refuses el then
    warn rt vm ("Do not mount components to <html> or <body> - mount to normal elements "
      ++ "instead.")
  else if ← ensureRender rt vm el then
    match rt.mounter with
    | .patch => patchMount rt run mount vm el hydrating
    | .recorder => recordMount vm el hydrating

/-- Mounts an instance, given how its children are mounted. -/
def mountWith (mount : Mounting) : Mounting := fun vm target hydrating => do
  let el ← match target with
    | some t => resolveTarget rt vm t
    | none => pure none
  mountOn rt run mount vm el hydrating

/-- Mounts an instance; components in components go at most `fuel` deep. -/
def mountAt : Nat → Mounting
  | 0 => fun _ _ _ => throw .outOfFuel
  | fuel + 1 => fun vm target hydrating => mountWith rt run (mountAt fuel) vm target hydrating

end Eng

/-- Mounts an instance as deep as the runtime allows. -/
def Runtime.mount (rt : Runtime) : Eng.Mounting := Eng.mountAt rt rt.run rt.fuel

/-- Initializes an instance as deep as the runtime allows. -/
def Runtime.setUp (rt : Runtime) : InstanceId → Origin → Eng Unit :=
  Eng.setUp rt rt.run rt.mount

end Componentry
