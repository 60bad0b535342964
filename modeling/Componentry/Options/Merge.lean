import Componentry.Options.Basic
import Componentry.Options.Naming

/-!
# Merging options

Merging lays a child's options over a parent's, each field in its own way: handlers are joined,
assets become a new layer, data is evaluated on both sides, props, injections, computed values and
methods are overlaid by name, options without a field go through a strategy, and in anything else
the child wins.

- `Options.mergeOwn`: the merge of one options object over another, field by field.
- `Options.merge`: the same with the base and the mixins of the child applied first.
- `Options.linearize`: the objects that `merge` lays down, in order.
-/

namespace Componentry

open Json (Value)

/-- Merges write to the journal and may stop with an error. -/
abbrev Merging := ExceptT Error Noting

/-! ## Fields -/

/-- Appends the handlers not seen yet, each identity once. -/
def keepNew (seen : List Handler) : List Handler → List Handler
  | [] => seen
  | f :: fs =>
    if seen.any (·.id == f.id) then keepNew seen fs else keepNew (seen ++ [f]) fs

/-- The parent's handlers, then the child's, the first of each identity. -/
def joinHandlers (parent child : List Handler) : List Handler := keepNew [] (parent ++ child)

/-- Two parts by a joint rule, a single one as it is. -/
def mergeParts {α : Type} (join : α → α → α) (parent child : Option (Placed α)) :
    Option (Placed α) :=
  match parent, child with
  | none, none => none
  | some p, none => some p
  | none, some c => some c
  | some p, some c => some (.new (join p.value c.value))

/-- A declaration in its normal form over the parent's; a single parent's part stays as it is. -/
def mergeDecls {α β : Type} (normal : α → Dict β) (keyed : Dict β → α)
    (parent child : Option (Placed α)) : Option (Placed α) :=
  match parent, child with
  | parent, none => parent
  | none, some c => some (.new (keyed (Dict.overlay [] (normal c.value))))
  | some p, some c => some (.new (keyed (Dict.overlay (normal p.value) (normal c.value))))

def joinHooks (parent child : HookMap) : HookMap :=
  Hook.all.filterMap fun h =>
    if (parent.lookup h).isSome || (child.lookup h).isSome then
      some (h, joinHandlers (parent.handlers h) (child.handlers h))
    else none

/-- Whether two watchers run the same function. Methods go by name and never count as the same. -/
def WatchHandler.sameFunction (a b : WatchHandler) : Bool :=
  match a.callback, b.callback with
  | .handler f, .handler g => f.id == g.id
  | _, _ => false

/-- Appends the watchers whose function is not there yet. -/
def joinWatchers (parent : List WatchHandler) : List WatchHandler → List WatchHandler
  | [] => parent
  | h :: hs =>
    if parent.any h.sameFunction then joinWatchers parent hs else joinWatchers (parent ++ [h]) hs

def joinWatch (parent child : WatchMap) : WatchMap :=
  child.foldl (fun d e => Dict.alter e.1 (fun hs => joinWatchers (hs.getD []) e.2) d) parent

/-- A new layer with the child's own entries. A child without a parent stays as it is. -/
def mergeRegistries {α : Type} (parent child : Option (Placed (Registry α))) :
    Option (Placed (Registry α)) :=
  match parent, child with
  | none, child => child
  | some p, none => some (.new (p.value.pushLayer []))
  | some p, some c => some (.new (p.value.pushLayer c.value.own))

/-- One option without a field: the strategy of its name, else the child's value wins. -/
def mergeExtraValue (cfg : Config) (key : String) (parent child : Option Value) :
    Merging (Option Value) := do
  match Dict.get? cfg.strategies key with
  | none => return child <|> parent
  | some strategy =>
    note (.strategy key parent child)
    match strategy parent child with
    | .ok v => return v
    | .error e => throw e

/-- Every option without a field that either side has, in order of names. -/
def mergeExtra (cfg : Config) (parent child : Dict Value) : Merging (Dict Value) :=
  (Dict.keys (Dict.overlay parent child)).foldlM (fun d key => do
    match ← mergeExtraValue cfg key (Dict.get? parent key) (Dict.get? child key) with
    | some v => return Dict.insert key v d
    | none => return d) []

/-- Every field but those without a field of their own. -/
def Fields.mergeKnown (parent child : Fields) : Fields where
  name := child.name <|> parent.name
  data := mergeParts .both parent.data child.data
  props := mergeDecls PropsDecl.normalized .keyed parent.props child.props
  computed := mergeParts Dict.overlay parent.computed child.computed
  methods := mergeParts Dict.overlay parent.methods child.methods
  watch := mergeParts joinWatch parent.watch child.watch
  inject := mergeDecls InjectDecl.normalized .keyed parent.inject child.inject
  provide := mergeParts .both parent.provide child.provide
  hooks := mergeParts joinHooks parent.hooks child.hooks
  errorCaptured := mergeParts joinHandlers parent.errorCaptured child.errorCaptured
  directives := mergeRegistries parent.directives child.directives
  filters := mergeRegistries parent.filters child.filters
  template := child.template <|> parent.template
  render := child.render <|> parent.render
  staticRenderFns := child.staticRenderFns <|> parent.staticRenderFns
  el := child.el <|> parent.el
  delimiters := child.delimiters <|> parent.delimiters
  comments := child.comments <|> parent.comments
  isAbstract := child.isAbstract <|> parent.isAbstract
  extra := []

/-! ## Options -/

/-- `child` over `parent`, field by field; the base and the mixins of the child are not
applied. -/
def Options.mergeOwn (cfg : Config) (parent child : Options) : Merging Options := do
  let extra ← mergeExtra cfg parent.fields.extra child.fields.extra
  return {
    fields := { Fields.mergeKnown parent.fields child.fields with extra }
    components := mergeRegistries parent.components child.components
    mixins := child.mixins <|> parent.mixins
    base := child.base <|> parent.base
    merged := true }

/-- Advice on the names a definition registers. -/
def checkAssetNames (cfg : Config) (fields : Fields) (components : Option (Placed Components)) :
    Noting Unit := do
  if cfg.devMode then
    match components with
    | some r => r.value.own.forM fun e => discard <| checkComponentName cfg e.1
    | none => pure ()
    match fields.directives with
    | some r => r.value.own.forM fun e => checkDirectiveName cfg e.1
    | none => pure ()

/-- Advice on options that make no sense where a class is defined. -/
def checkClassFields (cfg : Config) (fields : Fields) : Noting Unit := do
  if cfg.devMode then
    if fields.el.isSome then
      warnAlone cfg "option \"el\" can only be used during instance creation."
    match fields.data with
    | some d =>
      if d.value.isRecord then
        warnAlone cfg ("The \"data\" option should be a function that returns a per-instance "
          ++ "value in component definitions.")
    | none => pure ()

def countMerge : Noting Unit := modify fun j => { j with merges := j.merges + 1 }

mutual

/-- `child` over `parent`. Unless the child was merged before, its base and then each of its
mixins go over the parent first. `forInstance` says that this is for an instance and not for a
class. -/
def Options.merge (cfg : Config) (forInstance : Bool) (parent : Options) :
    Options → Merging Options
  | ⟨fields, components, mixins, base, merged⟩ => do
    countMerge
    checkAssetNames cfg fields components
    let parent ←
      if merged then pure parent
      else do
        let parent ← mergeBase cfg forInstance parent base
        mergeMixins cfg forInstance parent mixins
    if !forInstance then checkClassFields cfg fields
    Options.mergeOwn cfg parent ⟨fields, components, mixins, base, merged⟩

def mergeBase (cfg : Config) (forInstance : Bool) (parent : Options) :
    Option (Placed Options) → Merging Options
  | none => pure parent
  | some ⟨_, o⟩ => Options.merge cfg forInstance parent o

def mergeMixins (cfg : Config) (forInstance : Bool) (parent : Options) :
    Option (Placed (List Options)) → Merging Options
  | none => pure parent
  | some ⟨_, os⟩ => mergeAll cfg forInstance parent os

def mergeAll (cfg : Config) (forInstance : Bool) (parent : Options) :
    List Options → Merging Options
  | [] => pure parent
  | o :: rest => do
    let parent ← Options.merge cfg forInstance parent o
    mergeAll cfg forInstance parent rest

end

mutual

/-- The options objects that a definition stands for, in the order in which they are laid down:
its base, its mixins, itself. -/
def Options.linearize : Options → List Options
  | ⟨fields, components, mixins, base, merged⟩ =>
    (if merged then [] else linearizeBase base ++ linearizeMixins mixins)
      ++ [⟨fields, components, mixins, base, merged⟩]

def linearizeBase : Option (Placed Options) → List Options
  | none => []
  | some ⟨_, o⟩ => o.linearize

def linearizeMixins : Option (Placed (List Options)) → List Options
  | none => []
  | some ⟨_, os⟩ => linearizeAll os

def linearizeAll : List Options → List Options
  | [] => []
  | o :: rest => o.linearize ++ linearizeAll rest

end

end Componentry
