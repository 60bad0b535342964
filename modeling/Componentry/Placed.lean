/-!
# Identity of shared parts

Options objects and their composite parts are shared, and it matters whether two of them are the
same object or merely equal: a late edit shows as a part that is no longer the same. Each such
thing therefore carries a mark. A part that was just made has none yet; it gets a fresh one when
it is stored.

- `Placed`: a value with its mark.
- `Placed.same`: being one object.
- `Placed.place`: giving out a fresh mark where there is none.
-/

namespace Componentry

/-- Names a class. -/
abbrev ClassId := Nat

/-- Names a component instance. -/
abbrev InstanceId := Nat

/-- Names a node of the host document. -/
abbrev NodeId := Nat

/-- Tells shared things apart. -/
abbrev Mark := Nat

/-- A value together with the mark of the object that holds it. -/
structure Placed (α : Type) where
  mark : Option Mark
  value : α
  deriving Repr, Inhabited

/-- The supply of fresh marks. -/
abbrev Marking := StateM Mark

def freshMark : Marking Mark := modifyGet fun n => (n, n + 1)

namespace Placed

variable {α : Type}

/-- A value in an object of its own that is not stored yet. -/
def new (a : α) : Placed α := ⟨none, a⟩

/-- Whether two stored parts are one object. -/
def same (a b : Placed α) : Bool :=
  match a.mark, b.mark with
  | some m, some n => m == n
  | _, _ => false

/-- Gives a mark to a part that has none. -/
def place (a : Placed α) : Marking (Placed α) :=
  match a.mark with
  | some _ => pure a
  | none => do return { a with mark := some (← freshMark) }

/-- Whether two optional parts are both missing or one object. -/
def sameOption (a b : Option (Placed α)) : Bool :=
  match a, b with
  | some a, some b => a.same b
  | none, none => true
  | _, _ => false

def placeOption (a : Option (Placed α)) : Marking (Option (Placed α)) :=
  match a with
  | none => pure none
  | some a => do return some (← a.place)

end Placed

end Componentry
