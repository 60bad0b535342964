import Componentry.Json.Make
import Componentry.World

/-!
# Describing options

What options hold, as plain data that can be shown. Functions are only counted.

- `Options.describe`: options.
-/

namespace Componentry

open Json (Value)
open Json.Value (ofNat ofTexts ofOption ofText? ofDict)

namespace Forest

/-- The name of a class, if it has one. -/
def className? (f : Forest) (c : ClassId) : Option String := (f.class? c).bind (·.name)

end Forest

def PropOptions.describe (o : PropOptions) : Value :=
  .obj [("types", ofTexts (o.types.map PropType.name)), ("default", ofOption id o.default),
    ("required", .bool o.required)]

def PropsDecl.describe : PropsDecl → Value
  | .names ns => .obj [("names", ofTexts ns)]
  | .keyed d => .obj [("keyed", ofDict PropOptions.describe d)]

def InjectOptions.describe (o : InjectOptions) : Value :=
  .obj [("from", .str o.source), ("default", ofOption id o.default)]

def InjectDecl.describe : InjectDecl → Value
  | .names ns => .obj [("names", ofTexts ns)]
  | .keyed d => .obj [("keyed", ofDict InjectOptions.describe d)]

def DataSource.describe : DataSource → Value
  | .record r => .obj [("record", .obj r)]
  | _ => .str "fn"

def WatchHandler.describe (h : WatchHandler) : Value :=
  match h.callback with
  | .method m => .obj [("method", .str m), ("immediate", .bool h.immediate)]
  | .handler _ => .obj [("fn", .bool true), ("immediate", .bool h.immediate)]

def HookMap.describe (m : HookMap) : Value := .obj (m.map fun e => (e.1.name, ofNat e.2.length))

/-- A node of the host, by its tag. -/
def Host.describeNode (h : Host) (n : NodeId) : Value := .obj [("node", ofText? (h.tag? n))]

def TemplateSource.describe (h : Host) : TemplateSource → Value
  | .markup s => .obj [("markup", .str s)]
  | .node n => h.describeNode n
  | .invalid v => .obj [("invalid", v)]

def MountTarget.describe (h : Host) : MountTarget → Value
  | .selector s => .obj [("selector", .str s)]
  | .node n => h.describeNode n

def ComponentRef.describe (f : Forest) : ComponentRef Options → Value
  | .ofClass c => .obj [("class", ofText? (f.className? c))]
  | .self c => .obj [("self", ofText? (if f.isAlive c then f.className? c else none))]
  | .definition _ o => .obj [("definition", ofText? o.name)]

/-- The layers of a registry, the own one first. -/
def Registry.describe {α : Type} (g : α → Value) (r : Registry α) : Value :=
  .arr (r.layers.map (ofDict g))

/-- Only that something is there. -/
def present {α : Type} (_ : α) : Value := .bool true

/-- A field of a description, if there is something to describe. -/
def fieldIf {α : Type} (k : String) (g : α → Value) (a : Option α) : List (String × Value) :=
  (a.map fun a => (k, g a)).toList

/-- A field for a composite part. -/
def partIf {α : Type} (k : String) (g : α → Value) (a : Option (Placed α)) :
    List (String × Value) := fieldIf k (fun p => g p.value) a

/-- What the fields hold. -/
def Fields.describe (h : Host) (f : Fields) : List (String × Value) :=
  fieldIf "name" .str f.name ++ partIf "data" DataSource.describe f.data
  ++ partIf "provide" DataSource.describe f.provide ++ partIf "props" PropsDecl.describe f.props
  ++ partIf "propsMap" (fun d => ofDict PropOptions.describe d.normalized) f.props
  ++ partIf "inject" InjectDecl.describe f.inject
  ++ partIf "injectMap" (fun d => ofDict InjectOptions.describe d.normalized) f.inject
  ++ partIf "computed" (fun d => ofTexts (Dict.keys d)) f.computed
  ++ partIf "methods" (fun d => ofTexts (Dict.keys d)) f.methods
  ++ partIf "watch" (ofDict fun hs => .arr (hs.map WatchHandler.describe)) f.watch
  ++ partIf "hooks" HookMap.describe f.hooks
  ++ partIf "errorCaptured" (fun hs => ofNat hs.length) f.errorCaptured
  ++ partIf "directives" (Registry.describe present) f.directives
  ++ partIf "filters" (Registry.describe present) f.filters
  ++ fieldIf "template" (TemplateSource.describe h) f.template
  ++ fieldIf "render" present f.render
  ++ partIf "staticRenderFns" (fun fs => ofNat fs.length) f.staticRenderFns
  ++ fieldIf "el" (MountTarget.describe h) f.el
  ++ fieldIf "delimiters" (fun d => ofTexts [d.1, d.2]) f.delimiters
  ++ fieldIf "comments" .bool f.comments ++ fieldIf "abstract" .bool f.isAbstract
  ++ [("extra", .obj f.extra)]

mutual

/-- What options hold. -/
def Options.describe (w : World) : Options → Value
  | ⟨fields, components, mixins, base, merged⟩ =>
    .obj (fields.describe w.host
      ++ partIf "components" (Registry.describe (ComponentRef.describe w.forest)) components
      ++ partIf "mixins" (fun ms => ofNat ms.length) mixins
      ++ describeBase w base ++ [("merged", .bool merged)])

def describeBase (w : World) : Option (Placed Options) → List (String × Value)
  | none => []
  | some ⟨_, o⟩ => [("extends", o.describe w)]

end

end Componentry
