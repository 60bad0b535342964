import Componentry.Json.Make
import Componentry.Options.Script

/-!
# Scripts in JSON

An expression is written as the value it gives, except that an object with a single field of a
certain name is computed. A script is a list of actions, each a list of its name and its parts.

- `Expr.ofJson`: the expression that a value writes.
- `Script.ofJson?`: the script that a value writes, if it is one.
-/

namespace Componentry

open Json (Value)

mutual

/-- The expression that a value writes. -/
def Expr.ofJson : Value → Expr
  | .arr items => .list (exprsOfJson items)
  | .obj [(k, v)] =>
    match k, v with
    | "$get", .str key => .get key
    | "$has", .str key => .has key
    | "$arg", .num (.int n) => .arg n.toNat
    | "$upper", e => .upper (Expr.ofJson e)
    | "$cat", .arr es => .cat (exprsOfJson es)
    | "$add", .arr es => .add (exprsOfJson es)
    | k, v => .record [(k, Expr.ofJson v)]
  | .obj fields => .record (exprFieldsOfJson fields)
  | v => .lit v

def exprsOfJson : List Value → List Expr
  | [] => []
  | v :: rest => Expr.ofJson v :: exprsOfJson rest

def exprFieldsOfJson : List (String × Value) → List (String × Expr)
  | [] => []
  | (k, v) :: rest => (k, Expr.ofJson v) :: exprFieldsOfJson rest

end

/-- The action that a value writes. -/
def Action.ofJson? : Value → Option Action
  | .arr [.str "log", e] => some (.log (Expr.ofJson e))
  | .arr [.str "phase"] => some .phase
  | .arr [.str "state"] => some .state
  | .arr [.str "set", .str key, e] => some (.set key (Expr.ofJson e))
  | .arr [.str "call", .str method, .arr es] => some (.call method (es.map Expr.ofJson))
  | .arr [.str "call", .str method] => some (.call method [])
  | .arr [.str "emit", .str event, .arr es] => some (.emit event (es.map Expr.ofJson))
  | .arr [.str "emit", .str event] => some (.emit event [])
  | .arr [.str "listen", .str event, .str label] => some (.listen event label)
  | .arr [.str "unlisten", .str event] => some (.unlisten event)
  | .arr [.str "warn", .str message] => some (.warn message)
  | .arr [.str "fail", .str message] => some (.fail message)
  | .arr [.str "return", e] => some (.ret (Expr.ofJson e))
  | _ => none

/-- The script that a value writes. -/
def Script.ofJson? (v : Value) : Option Script := v.arr?.bind fun items =>
  items.mapM Action.ofJson?

end Componentry
