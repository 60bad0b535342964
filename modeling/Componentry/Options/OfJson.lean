import Componentry.Error
import Componentry.Options.Basic

/-!
# Definitions in JSON

The part of a definition that is plain data can be written as a JSON object. Every field that has
a meaning must have its shape; any other field is kept as it is.

- `Options.ofJson?`: the definition, or the first value of the wrong shape in order of names.
-/

namespace Componentry

open Json (Value Record)

/-- The texts of a list, or the first item that is none. -/
def textsOf (option expected : String) : List Value → Except Error (List String)
  | [] => .ok []
  | .str s :: rest => (textsOf option expected rest).map (s :: ·)
  | v :: _ => .error (.invalid option expected v)

/-- A type by its name, plain or as the only field of an object. -/
def propTypeOf? : Value → Option PropType
  | .str s => PropType.ofName? s
  | .obj [(s, .null)] => PropType.ofName? s
  | _ => none

/-- The details of a prop. Fields without a meaning are ignored. -/
def propOptionsOf? (fields : Record) : Option PropOptions := do
  let types ← match Dict.get? fields "types" with
    | none => some []
    | some (.arr items) => items.mapM propTypeOf?
    | some _ => none
  let required ← match Dict.get? fields "required" with
    | none => some false
    | some (.bool b) => some b
    | some _ => none
  let default := (Dict.get? fields "default").filter (!·.isNull)
  return { types, default, required }

/-- A prop by its type or its details. A type of an unknown name accepts anything. -/
def propOf (spec : Value) : Except Error PropOptions :=
  match spec with
  | .null => .ok {}
  | .str s => .ok { types := (PropType.ofName? s).toList }
  | .obj fields =>
    match propOptionsOf? fields with
    | some o => .ok o
    | none => .error (.invalid "props" "a prop descriptor" spec)
  | other => .error (.invalid "props" "a prop descriptor" other)

def propsOf : Value → Except Error PropsDecl
  | .arr items => (textsOf "props" "an array of strings" items).map .names
  | .obj entries => do
    let props ← entries.mapM fun e => do return (e.1, ← propOf e.2)
    return .keyed props
  | v => .error (.invalid "props" "an array or object" v)

/-- An injection by its source, or by its source and default. -/
def injectionOf (key : String) : Value → Except Error InjectOptions
  | .str s => .ok { source := s }
  | .obj fields =>
    .ok {
      source := ((Dict.get? fields "from").bind Value.str?).getD key
      default := Dict.get? fields "default" }
  | v => .error (.invalid "inject" "a string or object" v)

def injectOf : Value → Except Error InjectDecl
  | .arr items => (textsOf "inject" "an array of strings" items).map .names
  | .obj entries => do
    let entries ← entries.mapM fun e => do return (e.1, ← injectionOf e.1 e.2)
    return .keyed entries
  | v => .error (.invalid "inject" "an array or object" v)

/-- The watchers of a property: the name of a method, or several. -/
def watchersOf : Value → Except Error (List WatchHandler)
  | .str s => .ok [{ callback := .method s }]
  | .arr items => do
    return (← textsOf "watch" "a method name" items).map fun s => { callback := .method s }
  | v => .error (.invalid "watch" "a method name or list" v)

def watchOf : Value → Except Error WatchMap
  | .obj entries => entries.mapM fun e => do return (e.1, ← watchersOf e.2)
  | v => .error (.invalid "watch" "an object" v)

def recordOf (option : String) : Value → Except Error Record
  | .obj fields => .ok fields
  | v => .error (.invalid option "an object" v)

def textOf (option expected : String) : Value → Except Error String
  | .str s => .ok s
  | v => .error (.invalid option expected v)

def flagOf (option : String) : Value → Except Error Bool
  | .bool b => .ok b
  | v => .error (.invalid option "a boolean" v)

def pairOf (option : String) : Value → Except Error (String × String)
  | .arr [.str a, .str b] => .ok (a, b)
  | v => .error (.invalid option "a pair of strings" v)

/-- Sets a field that holds no further definitions; a name without a meaning goes to the extra
options. -/
def Fields.setJson (f : Fields) (key : String) (v : Value) : Except Error Fields :=
  if key = "name" then do return { f with name := some (← textOf key "a string" v) }
  else if key = "props" then do return { f with props := some (.new (← propsOf v)) }
  else if key = "data" then do return { f with data := some (.new (.record (← recordOf key v))) }
  else if key = "provide" then do
    return { f with provide := some (.new (.record (← recordOf key v))) }
  else if key = "inject" then do return { f with inject := some (.new (← injectOf v)) }
  else if key = "watch" then do return { f with watch := some (.new (← watchOf v)) }
  else if key = "template" then
    .ok { f with
      template := some (match v with
        | .str s => .markup s
        | v => .invalid v) }
  else if key = "el" then do
    return { f with el := some (.selector (← textOf key "a selector string" v)) }
  else if key = "delimiters" then do return { f with delimiters := some (← pairOf key v) }
  else if key = "comments" then do return { f with comments := some (← flagOf key v) }
  else if key = "abstract" then do return { f with isAbstract := some (← flagOf key v) }
  else .ok { f with extra := Dict.insert key v f.extra }

mutual

/-- The definition that a JSON value gives. -/
def Options.ofJson? : Value → Except Error Options
  | .obj fields => ofJsonFields {} fields
  | v => .error (.invalid "<definition>" "an object" v)

/-- Sets the fields one after the other. -/
def ofJsonFields (o : Options) : List (String × Value) → Except Error Options
  | [] => .ok o
  | (key, v) :: rest =>
    if key = "mixins" then
      match ofJsonMixins v with
      | .ok ms => ofJsonFields { o with mixins := some (.new ms) } rest
      | .error e => .error e
    else if key = "extends" then
      match Options.ofJson? v with
      | .ok b => ofJsonFields { o with base := some (.new b) } rest
      | .error e => .error e
    else if key = "components" then
      match ofJsonComponents v with
      | .ok cs => ofJsonFields { o with components := some (.new ⟨cs, []⟩) } rest
      | .error e => .error e
    else
      match o.fields.setJson key v with
      | .ok f => ofJsonFields { o with fields := f } rest
      | .error e => .error e

def ofJsonMixins : Value → Except Error (List Options)
  | .arr items => ofJsonList items
  | v => .error (.invalid "mixins" "an array" v)

def ofJsonList : List Value → Except Error (List Options)
  | [] => .ok []
  | v :: rest =>
    match Options.ofJson? v with
    | .ok o => (ofJsonList rest).map (o :: ·)
    | .error e => .error e

def ofJsonComponents : Value → Except Error (List (String × ComponentRef Options))
  | .obj entries => ofJsonEntries entries
  | v => .error (.invalid "components" "an object" v)

def ofJsonEntries :
    List (String × Value) → Except Error (List (String × ComponentRef Options))
  | [] => .ok []
  | (name, v) :: rest =>
    match Options.ofJson? v with
    | .ok o => (ofJsonEntries rest).map ((name, .definition none o) :: ·)
    | .error e => .error e

end

end Componentry
