import Componentry.Error
import Componentry.Json.Literal
import Componentry.Json.Printer

/-!
# Configuration

Flags that steer diagnostics, and strategies for merging options that have no field of their own.

- `Settings.parse`: the flags from JSON text.
- `Config`: the flags with what only code can give.
- `Strategy.concat`, `Strategy.parentWins`, `Strategy.drop`: stock strategies.
-/

namespace Componentry

open Json (Value Literal)

/-- The part of a configuration that is data. -/
structure Settings where
  /-- No warnings at all. -/
  silent : Bool := false
  /-- No development diagnostics. -/
  production : Bool := false
  /-- Measure initialization and compilation. -/
  performance : Bool := false
  /-- Tags that may be unknown. -/
  ignoredElements : List String := []
  deriving Repr, DecidableEq, Inhabited

namespace Settings

def ofBool? : Literal → Option Bool
  | .bool b => some b
  | _ => none

def ofNames? : List Literal → Option (List String)
  | [] => some []
  | .str (some s) :: rest => (ofNames? rest).map (s :: ·)
  | _ => none

def ofArr? : Literal → Option (List String)
  | .arr items => ofNames? items
  | _ => none

/-- Sets the fields in their order; those at the end may be missing, none may be left over. -/
def ofItems? : List Literal → Option Settings
  | [] => some {}
  | [a] => do return { silent := ← ofBool? a }
  | [a, b] => do return { silent := ← ofBool? a, production := ← ofBool? b }
  | [a, b, c] => do
    return { silent := ← ofBool? a, production := ← ofBool? b, performance := ← ofBool? c }
  | [a, b, c, d] => do
    return {
      silent := ← ofBool? a
      production := ← ofBool? b
      performance := ← ofBool? c
      ignoredElements := ← ofArr? d }
  | _ => none

/-- Sets named fields, each at most once; `seen` are the names set before. Other names are
ignored. -/
def ofFields? (s : Settings) (seen : List String) :
    List (Option String × Literal) → Option Settings
  | [] => some s
  | (none, _) :: _ => none
  | (some k, v) :: rest =>
    if ["silent", "production", "performance", "ignoredElements"].contains k then
      if seen.contains k then none
      else do
        let s ←
          if k = "silent" then do pure { s with silent := ← ofBool? v }
          else if k = "production" then do pure { s with production := ← ofBool? v }
          else if k = "performance" then do pure { s with performance := ← ofBool? v }
          else do pure { s with ignoredElements := ← ofArr? v }
        ofFields? s (k :: seen) rest
    else ofFields? s seen rest

def ofLiteral? : Literal → Option Settings
  | .obj fields => ofFields? {} [] fields
  | .arr items => ofItems? items
  | _ => none

/-- The settings that a JSON text gives: an object, or the fields in order. -/
def parse (source : String) : Except Error Settings :=
  match (Literal.parse? source).bind ofLiteral? with
  | some s => .ok s
  | none => .error .config

end Settings

/-- Merges an option that has no field of its own: the parent's value, the child's, the result. -/
abbrev Strategy := Option Value → Option Value → Except Error (Option Value)

namespace Strategy

/-- The items of one side; a missing side has none. -/
def items (key : String) : Option Value → Except Error (List Value)
  | none => .ok []
  | some (.arr vs) => .ok vs
  | some v => .error (.invalidOption key "an array" v.compact)

/-- The items of both arrays, the parent's first. -/
def concat (key : String) : Strategy := fun parent child => do
  return some (.arr ((← items key parent) ++ (← items key child)))

/-- The parent's value if it has one. -/
def parentWins : Strategy := fun parent child => .ok (parent <|> child)

/-- No value. -/
def drop : Strategy := fun _ _ => .ok none

end Strategy

structure Config where
  settings : Settings := {}
  /-- Warnings and errors go to handlers of their own rather than to the common log. -/
  handlers : Bool := true
  strategies : Dict Strategy := []

namespace Config

def devMode (c : Config) : Bool := !c.settings.production

def isIgnoredElement (c : Config) (tag : String) : Bool := c.settings.ignoredElements.contains tag

/-- Whether warnings are given. -/
def warns (c : Config) : Bool := !c.settings.silent && !c.settings.production

end Config

end Componentry
