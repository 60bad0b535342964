import Componentry.World

/-!
# Releasing what nothing refers to

Classes, instances and nodes of the host live as long as something refers to them: an outsider, or
another of them that lives. Parents, listeners and a class's entry under its own name do not keep
anything alive. What refers to itself in a circle stays.

- `World.refs`: everything that the living refer to.
- `World.release`: lets go of what nothing refers to.
-/

namespace Componentry

open Json (Value)

/-- Something that is kept alive by being referred to. -/
inductive Ref where
  | ofClass (c : ClassId)
  | ofInstance (vm : InstanceId)
  | ofNode (n : NodeId)
  deriving Repr, DecidableEq, Inhabited

/-! ## What refers to what -/

mutual

def VNode.refs : VNode → List Ref
  | .element _ _ children _ => refsOfVNodes children
  | .text _ => []
  | .comment _ => []
  | .component _ ctor _ _ children => .ofClass ctor :: refsOfVNodes children

def refsOfVNodes : List VNode → List Ref
  | [] => []
  | n :: rest => VNode.refs n ++ refsOfVNodes rest

end

def Placeholder.refs (p : Placeholder) : List Ref := .ofClass p.ctor :: refsOfVNodes p.children

def RenderBody.refs : RenderBody → List Ref
  | .fixed tree => tree.refs
  | _ => []

def Fields.refs (f : Fields) : List Ref :=
  let template := match f.template with
    | some (.node n) => [.ofNode n]
    | _ => []
  let el := match f.el with
    | some (.node n) => [.ofNode n]
    | _ => []
  let render := match f.render with
    | some r => r.value.refs
    | none => []
  let statics := match f.staticRenderFns with
    | some fs => fs.value.flatMap (·.value.refs)
    | none => []
  template ++ el ++ render ++ statics

mutual

/-- What options refer to. `made` has the classes that definitions were made into. -/
def Options.refs (made : List (Mark × ClassId)) : Options → List Ref
  | ⟨fields, components, mixins, base, _⟩ =>
    fields.refs ++ refsOfComponents made components ++ refsOfMixins made mixins
      ++ refsOfBase made base

def refsOfComponents (made : List (Mark × ClassId)) : Option (Placed Components) → List Ref
  | none => []
  | some ⟨_, ⟨own, outer⟩⟩ => refsOfEntries made own ++ refsOfLayers made outer

def refsOfEntries (made : List (Mark × ClassId)) :
    List (String × ComponentRef Options) → List Ref
  | [] => []
  | (_, .ofClass c) :: rest => .ofClass c :: refsOfEntries made rest
  | (_, .self _) :: rest => refsOfEntries made rest
  | (_, .definition id o) :: rest =>
    ((id.bind (made.lookup ·)).map Ref.ofClass).toList ++ o.refs made ++ refsOfEntries made rest

def refsOfLayers (made : List (Mark × ClassId)) :
    List (List (String × ComponentRef Options)) → List Ref
  | [] => []
  | layer :: rest => refsOfEntries made layer ++ refsOfLayers made rest

def refsOfMixins (made : List (Mark × ClassId)) : Option (Placed (List Options)) → List Ref
  | none => []
  | some ⟨_, os⟩ => refsOfAll made os

def refsOfAll (made : List (Mark × ClassId)) : List Options → List Ref
  | [] => []
  | o :: rest => o.refs made ++ refsOfAll made rest

def refsOfBase (made : List (Mark × ClassId)) : Option (Placed Options) → List Ref
  | none => []
  | some ⟨_, o⟩ => o.refs made

end

def Class.refs (made : List (Mark × ClassId)) (c : Class) : List Ref :=
  (c.superClass.map Ref.ofClass).toList ++ c.options.value.refs made ++ c.sealed.value.refs made
    ++ (c.superOptions.map (·.value.refs made)).getD [] ++ c.definition.refs made

def InstanceOptions.refs (made : List (Mark × ClassId)) (o : InstanceOptions) : List Ref :=
  (o.proto.map (·.value.refs made)).getD [] ++ o.own.refs made
    ++ (o.parentVNode.map Placeholder.refs).getD [] ++ refsOfVNodes (o.renderChildren.getD [])

def Instance.refs (made : List (Mark × ClassId)) (i : Instance) : List Ref :=
  .ofClass i.ctor :: i.options.refs made ++ i.children.map Ref.ofInstance
    ++ i.pendingMounted.map Ref.ofInstance ++ (i.parentVNode.map Placeholder.refs).getD []
    ++ (i.vnode.map VNode.refs).getD [] ++ i.slots.flatMap (fun s => refsOfVNodes s.2)
    ++ i.staticTrees.flatMap (fun t => t.2.refs) ++ (i.el.map Ref.ofNode).toList

namespace World

/-- Everything that the living refer to. -/
def refs (w : World) : List Ref :=
  let made := w.forest.made
  ((w.forest.classes.toList.filter (·.alive)).flatMap (·.refs made))
    ++ ((w.instances.toList.filter (·.alive)).flatMap (·.refs made))
    ++ ((w.host.nodes.toList.filter (·.alive)).flatMap fun n => n.children.map Ref.ofNode)

/-! ## Letting go -/

/-- Which of the things numbered below `size` are referred to; `pick` reads the number of a
reference of their kind. -/
def held (size : Nat) (pick : Ref → Option Nat) (refs : List Ref) : Array Bool :=
  (refs.filterMap pick).foldl (fun marks i => marks.setIfInBounds i true)
    (Array.replicate size false)

/-- The numbers of the living that are not held. -/
def dying {α : Type} (things : Array α) (alive : α → Bool) (marks : Array Bool) : List Nat :=
  (List.range things.size).filter fun i =>
    (things[i]?.map alive).getD false && !marks.getD i false

/-- Lets go of a node: it and everything below it lose their children. -/
def dropNode (h : Host) : Nat → NodeId → Host
  | 0, _ => h
  | fuel + 1, n =>
    let below := h.children n
    below.foldl (fun h c => dropNode h fuel c) (h.setChildren n [])

/-- Lets go once of all that nothing refers to, and says whether there was anything. -/
def releaseOnce (roots : List Ref) (w : World) : Bool × World :=
  let refs := roots ++ w.refs
  let classes := dying w.forest.classes (·.alive) <| held w.forest.classes.size (fun
    | .ofClass c => some c
    | _ => none) refs
  let instances := dying w.instances (·.alive) <| held w.instances.size (fun
    | .ofInstance i => some i
    | _ => none) refs
  let nodes := dying w.host.nodes (·.alive) <| held w.host.nodes.size (fun
    | .ofNode n => some n
    | _ => none) refs
  let forest := { w.forest with
    classes := classes.foldl (fun a i => a.modify i ({ · with alive := false })) w.forest.classes }
  let left := instances.foldl (fun a i => a.modify i ({ · with alive := false })) w.instances
  let host := nodes.foldl (fun h n =>
    (dropNode h (h.nodes.size + 1) n).update n ({ · with alive := false })) w.host
  (!(classes.isEmpty && instances.isEmpty && nodes.isEmpty),
    { w with forest, instances := left, host })

/-- Lets go until everything that lives is referred to. -/
def releaseUpTo (roots : List Ref) : Nat → World → World
  | 0, w => w
  | fuel + 1, w =>
    let (again, w) := releaseOnce roots w
    if again then releaseUpTo roots fuel w else w

/-- Lets go of everything but what `roots`, or anything that lives, refers to. -/
def release (roots : List Ref) (w : World) : World :=
  releaseUpTo roots (w.forest.classes.size + w.instances.size + w.host.nodes.size + 1) w

end World

end Componentry
