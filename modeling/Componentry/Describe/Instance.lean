import Componentry.Describe.Options

/-!
# Describing classes, trees and instances

- `VNode.describe`: a rendered tree.
- `Class.describe`: a class, by its place in its line.
- `Instance.describe`: an instance and its options.
-/

namespace Componentry

open Json (Value)
open Json.Value (ofNat ofTexts ofOption ofText? ofDict)

/-! ## Trees -/

mutual

def VNode.describe (f : Forest) : VNode → Value
  | .element tag attrs kids isStatic =>
    .obj [("el", .str tag), ("attrs", .arr (attrs.map fun a => ofTexts [a.1, a.2])),
      ("kids", .arr (describeVNodes f kids)), ("static", .bool isStatic)]
  | .text s => .obj [("text", .str s)]
  | .comment s => .obj [("comment", .str s)]
  | .component tag ctor props on kids =>
    .obj [("component", .str tag), ("name", ofText? (f.className? ctor)), ("props", .obj props),
      ("on", ofDict (fun fs : List Listener => ofNat fs.length) on),
      ("kids", .arr (describeVNodes f kids))]

def describeVNodes (f : Forest) : List VNode → List Value
  | [] => []
  | n :: rest => VNode.describe f n :: describeVNodes f rest

end

def describeSlots (f : Forest) (d : Dict (List VNode)) : Value :=
  ofDict (fun ns => .arr (describeVNodes f ns)) d

/-! ## Classes -/

/-- A class: its name, what is above it, and how much later than the base it was made. -/
def Class.describe (rt : Runtime) (f : Forest) (c : ClassId) : Value :=
  .obj [("name", ofText? (f.className? c)),
    ("super", match (f.class? c).bind (·.superClass) with
      | none => .null
      | some s => if s = rt.base then .str "base" else ofText? (f.className? s)),
    ("baseIsRuntimeBase", .bool (f.baseOf c == rt.base)),
    ("cidOffset", .num (.int ((c : Int) - rt.base)))]

/-! ## Instances -/

namespace World

def instanceAt (w : World) (vm : InstanceId) : Instance := w.instances.getD vm default

/-- An instance that is still there. -/
def aliveAt? (w : World) (vm : Option InstanceId) : Option InstanceId :=
  vm.filter fun i => ((w.instances[i]?).map (·.alive)).getD false

end World

/-- The names in a registry that can be seen. -/
def describeKeys {α : Type} (r : Option (Registry α)) : Value :=
  ofOption (fun r => ofTexts r.keys) r

/-- The names in a dictionary. -/
def describeNames {α : Type} (d : Option (Dict α)) : Value :=
  ofOption (fun d => ofTexts (Dict.keys d)) d

/-- What an instance reads from its options. -/
def describeReads (w : World) (i : Instance) : Value :=
  let o := i.options
  let live := (w.forest.class? i.ctor).map (·.options)
  .obj [("name", ofText? o.name), ("fastPath", .bool o.proto.isSome),
    ("protoIsClassOptions", ofOption (fun p => .bool ((live.map p.same).getD false)) o.proto),
    ("ownRender", .bool o.own.fields.render.isSome),
    ("render", .bool (o.part (·.render)).isSome),
    ("staticRenderFns", ofOption (fun fs => ofNat fs.length) (o.part (·.staticRenderFns))),
    ("componentTag", ofText? o.componentTag), ("propsData", ofOption Value.obj o.propsData),
    ("renderChildren", ofOption (fun ns => ofNat ns.length) o.renderChildren),
    ("parentListeners", describeNames o.parentListeners),
    ("components", describeKeys o.components), ("directives", describeKeys o.directives),
    ("filters", describeKeys o.filters), ("computed", describeNames (o.part (·.computed))),
    ("methods", describeNames (o.part (·.methods))),
    ("delimiters", ofOption (fun d => ofTexts [d.1, d.2]) (o.field (·.delimiters))),
    ("comments", .bool o.comments), ("abstract", .bool o.isAbstract),
    ("theme", ofOption id (o.extra "theme"))]

/-- An instance and its options. -/
def Instance.describe (w : World) (vm : InstanceId) : Value :=
  let i := w.instanceAt vm
  let self := w.aliveAt? i.selfRef
  let root := match i.root with
    | some r => w.aliveAt? (some r)
    | none => self
  .obj [("props", .obj i.props), ("data", .obj i.data), ("injected", .obj i.injected),
    ("provided", .obj i.provided), ("uid", ofOption ofNat i.uid), ("phase", .str i.phase.name),
    ("name", .str i.displayName), ("isRoot", .bool i.isRoot), ("mounted", .bool i.isMounted),
    ("destroyed", .bool i.isDestroyed), ("observable", .bool !i.skipObservation),
    ("devProxy", .bool i.devProxy), ("selfRef", .bool (self == some vm)),
    ("parent", ofText? ((w.aliveAt? i.parent).map fun p => (w.instanceAt p).displayName)),
    ("rootIsSelf", .bool (root == some vm)),
    ("children", ofTexts (i.children.map fun c => (w.instanceAt c).displayName)),
    ("slots", describeSlots w.forest i.slots),
    ("watchers", ofDict (fun hs : List WatchHandler => ofNat hs.length) i.watchers),
    ("el", ofText? (i.el.map w.host.outerHtml)),
    ("vnode", ofOption (VNode.describe w.forest) i.vnode),
    ("parentTag", ofText? (i.parentVNode.map (·.tag))), ("options", describeReads w i)]

end Componentry
