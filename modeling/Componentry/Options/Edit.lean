import Componentry.Options.Basic

/-!
# Building and editing options

An `Edit` changes one option. A definition is built by edits from an empty one, and the options
of a class may be edited later by the same means. A composite part that is edited becomes a new
part.

- `Options.edit`: one edit.
-/

namespace Componentry

open Json (Value Record)

inductive Edit where
  | name (s : String)
  | data (s : Script)
  | dataRecord (r : Record)
  | provide (s : Script)
  | props (names : List String)
  | prop (name : String) (o : PropOptions)
  | computed (name : String) (s : Script)
  | method (name : String) (s : Script)
  | watch (key : String) (h : WatchHandler)
  | inject (names : List String)
  | injectFrom (key source : String) (default : Option Value)
  | on (h : Hook) (f : Handler)
  | errorCaptured (f : Handler)
  | component (name : String) (c : ComponentRef Options)
  | directive (name : String)
  | filter (name : String) (e : Expr)
  | mixin (o : Options)
  | base (o : Options)
  | template (s : String)
  | templateNode (n : NodeId)
  | render (f : NodeSpec)
  | staticRender (fs : List NodeSpec)
  | el (t : MountTarget)
  | delimiters (opening closing : String)
  | comments (keep : Bool)
  | abstract
  | custom (key : String) (v : Value)
  /-- Takes an option away: `name`, `data`, `template`, `components`, `hooks`, `watch` or
  `props`, or the extra option of any other name. -/
  | clear (key : String)
  deriving Inhabited

/-- Changes a part, starting from `empty` if there is none. -/
def editPart {α : Type} (empty : α) (f : α → α) (p : Option (Placed α)) : Option (Placed α) :=
  some (.new (f (match p with
    | some p => p.value
    | none => empty)))

def Fields.clear (f : Fields) (key : String) : Fields :=
  if key = "name" then { f with name := none }
  else if key = "data" then { f with data := none }
  else if key = "template" then { f with template := none }
  else if key = "hooks" then { f with hooks := none }
  else if key = "watch" then { f with watch := none }
  else if key = "props" then { f with props := none }
  else { f with extra := Dict.erase key f.extra }

namespace Options

/-- The options after one edit. -/
def edit (o : Options) : Edit → Options
  | .name s => o.mapFields ({ · with name := some s })
  | .data s => o.mapFields ({ · with data := some (.new (.script s)) })
  | .dataRecord r => o.mapFields ({ · with data := some (.new (.record r)) })
  | .provide s => o.mapFields ({ · with provide := some (.new (.script s)) })
  | .props names => o.mapFields ({ · with props := some (.new (.names names)) })
  | .prop name po =>
    let keyed := Dict.insert (Text.camelize name) po o.propsMap
    o.mapFields ({ · with props := some (.new (.keyed keyed)) })
  | .computed name s => o.mapFields fun f =>
    { f with computed := editPart [] (Dict.insert name s) f.computed }
  | .method name s => o.mapFields fun f =>
    { f with methods := editPart [] (Dict.insert name s) f.methods }
  | .watch key h => o.mapFields fun f =>
    { f with watch := editPart [] (Dict.alter key fun hs => hs.getD [] ++ [h]) f.watch }
  | .inject names => o.mapFields ({ · with inject := some (.new (.names names)) })
  | .injectFrom key source default =>
    let keyed := Dict.insert key { source, default } o.injectMap
    o.mapFields ({ · with inject := some (.new (.keyed keyed)) })
  | .on h f => o.mapFields fun fs => { fs with hooks := editPart [] (HookMap.add h f) fs.hooks }
  | .errorCaptured f => o.mapFields fun fs =>
    { fs with errorCaptured := editPart [] (· ++ [f]) fs.errorCaptured }
  | .component name c => o.addComponent name c
  | .directive name => o.mapFields fun f =>
    { f with directives := editPart .empty (·.insert name ()) f.directives }
  | .filter name e => o.mapFields fun f =>
    { f with filters := editPart .empty (·.insert name e) f.filters }
  | .mixin m => { o with mixins := editPart [] (· ++ [m]) o.mixins }
  | .base b => { o with base := some (.new b) }
  | .template s => o.mapFields ({ · with template := some (.markup s) })
  | .templateNode n => o.mapFields ({ · with template := some (.node n) })
  | .render s => o.mapFields ({ · with render := some (.new (.spec s)) })
  | .staticRender ss =>
    o.mapFields ({ · with staticRenderFns := some (.new (ss.map fun s => .new (.spec s))) })
  | .el t => o.mapFields ({ · with el := some t })
  | .delimiters a b => o.mapFields ({ · with delimiters := some (a, b) })
  | .comments keep => o.mapFields ({ · with comments := some keep })
  | .abstract => o.mapFields ({ · with isAbstract := some true })
  | .custom key v => o.mapFields fun f => { f with extra := Dict.insert key v f.extra }
  | .clear key =>
    if key = "components" then { o with components := none } else o.mapFields (·.clear key)

end Options

end Componentry
