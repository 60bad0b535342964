import Componentry.Json.Value
import Componentry.Placed

/-!
# Scripts

What a component's author writes as functions is given as data: a script is a list of actions on
the instance it runs for, and an expression computes a value from that instance and from the
arguments. This module has their syntax only.
-/

namespace Componentry

open Json (Value)

/-- A computed value. -/
inductive Expr where
  | lit (v : Value)
  | list (items : List Expr)
  | record (fields : List (String × Expr))
  /-- A property of the instance, null if it has none of the name. -/
  | get (key : String)
  | has (key : String)
  /-- An argument by position, null if there is none. -/
  | arg (i : Nat)
  | upper (e : Expr)
  /-- The displayed texts, one after the other. -/
  | cat (items : List Expr)
  /-- The sum of the whole numbers among the values. -/
  | add (items : List Expr)
  deriving Inhabited

/-- One step of a script. -/
inductive Action where
  | log (e : Expr)
  | phase
  | state
  | set (key : String) (e : Expr)
  | call (method : String) (args : List Expr)
  | emit (event : String) (args : List Expr)
  | listen (event label : String)
  | unlisten (event : String)
  | warn (message : String)
  | fail (message : String)
  | ret (e : Expr)
  deriving Inhabited

abbrev Script := List Action

/-- A script under the identity of the function it stands for. -/
structure Handler where
  id : Mark
  script : Script
  deriving Inhabited

end Componentry
