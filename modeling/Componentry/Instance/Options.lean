import Componentry.Options.Basic

/-!
# Options of an instance

An instance that was asked for by name has options of its own, merged for it. A child that its
parent's rendering made reads the options of its class instead and has only a few of its own.
Reading looks at the own options first.

- `InstanceOptions.merged`, `InstanceOptions.linked`: the two kinds.
- `InstanceOptions.layered`: reading an option.
-/

namespace Componentry

open Json (Value Record)

structure InstanceOptions where
  /-- The options of the class, if they are read through. -/
  proto : Option (Placed Options) := none
  own : Options := {}
  /-- The instance whose rendering made this one. -/
  parent : Option InstanceId := none
  parentVNode : Option Placeholder := none
  propsData : Option Record := none
  parentListeners : Option Listeners := none
  renderChildren : Option (List VNode) := none
  componentTag : Option String := none
  deriving Inhabited

namespace InstanceOptions

/-- Options merged for one instance. -/
def merged (o : Options) : InstanceOptions := { own := o }

/-- Options read from a class. -/
def linked (proto : Placed Options) : InstanceOptions := { proto := some proto }

/-- An option of its own, or else that of the class. -/
def layered {α : Type} (o : InstanceOptions) (read : Options → Option α) : Option α :=
  match read o.own with
  | some a => some a
  | none => o.proto.bind fun p => read p.value

/-- An option in one of the fields. -/
def field {α : Type} (o : InstanceOptions) (read : Fields → Option α) : Option α :=
  o.layered fun opts => read opts.fields

/-- A composite part among the fields. -/
def part {α : Type} (o : InstanceOptions) (read : Fields → Option (Placed α)) : Option α :=
  (o.field read).map (·.value)

def name (o : InstanceOptions) : Option String := o.field (·.name)

def props (o : InstanceOptions) : Dict PropOptions :=
  match o.part (·.props) with
  | some d => d.normalized
  | none => []

def inject (o : InstanceOptions) : Dict InjectOptions :=
  match o.part (·.inject) with
  | some d => d.normalized
  | none => []

def hookHandlers (o : InstanceOptions) (h : Hook) : List Handler :=
  match o.part (·.hooks) with
  | some m => m.handlers h
  | none => []

def errorCaptured (o : InstanceOptions) : List Handler := (o.part (·.errorCaptured)).getD []

def components (o : InstanceOptions) : Option Components :=
  (o.layered (·.components)).map (·.value)

def filters (o : InstanceOptions) : Option (Registry Expr) := o.part (·.filters)

def directives (o : InstanceOptions) : Option (Registry Unit) := o.part (·.directives)

def comments (o : InstanceOptions) : Bool := (o.field (·.comments)).getD false

def isAbstract (o : InstanceOptions) : Bool := (o.field (·.isAbstract)).getD false

def extra (o : InstanceOptions) (key : String) : Option Value :=
  o.field fun f => Dict.get? f.extra key

/-- Installs render functions among the own options. -/
def setRender (o : InstanceOptions) (render : RenderFn) (statics : List RenderFn) :
    InstanceOptions :=
  { o with
    own := o.own.mapFields fun f =>
      { f with render := some render, staticRenderFns := some (.new statics) } }

end InstanceOptions

end Componentry
