import Componentry.Class.Basic

/-!
# Resolving the options of a class

The options of a class are merged when it is made and again when the options of its super class
have become another object. Edits made in between are carried over.

- `Classes.resolve`: the options that instances of a class start from.
- `Classes.extend`: a class under another.
- `Classes.classFor`: the class of an entry among the components.
- `Classes.mixin`, `Classes.component`, `Classes.register`, `Classes.directive`, `Classes.filter`:
  changes to the options of the root of a line, which are the defaults of all classes under it.
-/

namespace Componentry

/-- Puts a class among its own components, if it has a name. -/
def Options.withSelf (o : Options) (name : Option String) (c : ClassId) : Options :=
  match name with
  | some n => o.addComponent n (.self c)
  | none => o

/-- A definition under the name it is registered by, if it has none of its own. -/
def Options.orNamed (o : Options) (name : String) : Options :=
  if o.name.isNone then o.mapFields ({ · with name := some name }) else o

namespace Classes

open Forging

/-- The most super classes that resolution follows. -/
def inheritanceLimit : Nat := 64

/-- Merges the options of a class again, over new options of its super class. The edits made since
the last time go into its definition first, and stay there even if the merge fails. -/
def remerge (cfg : Config) (c : ClassId) (above : Placed Options) : Forging (Placed Options) := do
  modifyClass c fun k => { k with superOptions := some above, definition := k.carried }
  let k ← getClass c
  let merged ← merging (Options.merge cfg false above.value k.definition)
  let options ← store (merged.withSelf merged.name c)
  modifyClass c ({ · with options, sealed := options })
  return options

/-- The options of a class whose super class has the options `above`: those it has if they were
merged over these, else merged again. -/
def refresh (cfg : Config) (above : Placed Options) (c : ClassId) : Forging (Placed Options) := do
  let k ← getClass c
  if k.isCurrent above then return k.options else remerge cfg c above

/-- Resolves a class, of which at most `left` classes of its line may be looked at. -/
def resolveWithin (cfg : Config) : Nat → ClassId → Forging (Placed Options)
  | 0, _ => throw (.inheritanceTooDeep inheritanceLimit)
  | left + 1, c => do
    let k ← getClass c
    match k.superClass with
    | none => return k.options
    | some s =>
      let above ← resolveWithin cfg left s
      refresh cfg above c

/-- The options that instances of a class start from. -/
def resolve (cfg : Config) (c : ClassId) : Forging (Placed Options) :=
  resolveWithin cfg (inheritanceLimit + 1) c

/-- A class at the root of a line. -/
def newBase (o : Options) : Forging ClassId := do
  let options ← store { o with merged := true }
  addClass { options, sealed := options }

/-- Advice on the name under which a class becomes a component. -/
def adviseName (cfg : Config) (name : Option String) : Forging Unit := do
  if cfg.devMode then
    match name with
    | some n => discard <| noting (checkComponentName cfg n)
    | none => pure ()

/-- A class under `s`. With a name it is among its own components. -/
def extend (cfg : Config) (s : ClassId) (definition : Options) : Forging ClassId := do
  let above ← resolve cfg s
  let name := definition.name <|> above.value.name
  adviseName cfg name
  let definition ← marking definition.place
  let merged ← merging (Options.merge cfg false above.value definition)
  let c := (← get).classes.size
  let options ← store (merged.withSelf name c)
  addClass {
    superClass := some s
    options
    superOptions := some above
    definition
    sealed := options }

/-- The class of an entry among the components; a definition is made a class under `base` when it
is first asked for. There is none if the class is gone. -/
def classFor (cfg : Config) (base : ClassId) (entry : ComponentRef Options) :
    Forging (Option ClassId) := do
  match entry with
  | .ofClass c => return some c
  | .self c => return if (← get).isAlive c then some c else none
  | .definition none o => return some (← extend cfg base o)
  | .definition (some id) o =>
    match (← get).made.lookup id with
    | some c => return some c
    | none =>
      let c ← extend cfg base o
      modify fun w => { w with made := (id, c) :: w.made }
      return some c

/-! ## Changing options later -/

/-- Edits the options of a class as they are now. -/
def editOptions (c : ClassId) (f : Options → Options) : Forging Unit := do
  let k ← getClass c
  let options ← store (f k.options.value)
  modifyClass c ({ · with options })

/-- Gives a class other options. -/
def replaceOptions (c : ClassId) (o : Options) : Forging Unit := editOptions c fun _ => o

/-! ## What every class starts from -/

/-- Merges a definition into what every class under `base` starts from. -/
def mixin (cfg : Config) (base : ClassId) (definition : Options) : Forging Unit := do
  let k ← getClass base
  let definition ← marking definition.place
  let merged ← merging (Options.merge cfg false k.options.value definition)
  replaceOptions base merged

/-- Registers a class for all under a name. -/
def register (cfg : Config) (base : ClassId) (name : String) (c : ClassId) : Forging Unit := do
  adviseName cfg name
  editOptions base (·.edit (.component name (.ofClass c)))

/-- Makes a class of a definition and registers it for all. -/
def component (cfg : Config) (base : ClassId) (name : String) (definition : Options) :
    Forging ClassId := do
  let c ← extend cfg base (definition.orNamed name)
  register cfg base name c
  return c

def directive (cfg : Config) (base : ClassId) (name : String) : Forging Unit := do
  if cfg.devMode then noting (checkDirectiveName cfg name)
  editOptions base (·.edit (.directive name))

def filter (base : ClassId) (name : String) (e : Expr) : Forging Unit :=
  editOptions base (·.edit (.filter name e))

end Classes

end Componentry
