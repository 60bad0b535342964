import Componentry.Json.Value

/-!
# Errors

An `Error` stops an operation: a value of the wrong shape, a class too deep, an instance in use.
A `HookError` is what an author's own code fails with; it is reported and never stops anything.
-/

namespace Componentry

open Json (Value)

inductive Error where
  /-- An option with a value of the wrong shape. -/
  | invalidOption (option expected found : String)
  /-- More ancestors than resolution follows. -/
  | inheritanceTooDeep (limit : Nat)
  /-- The instance is in use and cannot enter the phase. -/
  | instanceBusy (phase : String)
  /-- The configuration text is no configuration. -/
  | config
  deriving Repr, DecidableEq, Inhabited

namespace Error

/-- An option whose value has the wrong kind. -/
def invalid (option expected : String) (found : Value) : Error :=
  invalidOption option expected found.kind

def kind : Error → String
  | invalidOption .. => "InvalidOption"
  | inheritanceTooDeep _ => "InheritanceTooDeep"
  | instanceBusy _ => "InstanceBusy"
  | config => "Config"

def message : Error → String
  | invalidOption option expected found =>
    "invalid value for option \"" ++ option ++ "\": expected " ++ expected ++ ", got " ++ found
  | inheritanceTooDeep limit =>
    "component inheritance chain exceeds " ++ toString limit ++ " levels"
  | instanceBusy phase =>
    "component instance is busy and cannot enter phase " ++ String.ofList [Char.ofNat 96] ++ phase
      ++ String.ofList [Char.ofNat 96]
  | config => "invalid runtime configuration"

end Error

/-- The failure of an author's own code. -/
structure HookError where
  message : String
  deriving Repr, DecidableEq, Inhabited

end Componentry
