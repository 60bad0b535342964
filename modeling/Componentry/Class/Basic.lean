import Componentry.Journal
import Componentry.Options.Change
import Componentry.Options.Edit
import Componentry.Options.Merge

/-!
# Classes

A class has the options that its instances start from: those of its super class with its own
definition merged over them. Classes are kept in a `Forest`, in the order in which they were made.

- `Class`: a class, with what is needed to see that its options are out of date.
- `Forest`: all classes, with the supply of marks and the journal.
- `Forging`: computations on classes.
-/

namespace Componentry

structure Class where
  superClass : Option ClassId := none
  /-- The options as they are now; they may have been edited since they were merged. -/
  options : Placed Options
  /-- The options of the super class that these were merged over. -/
  superOptions : Option (Placed Options) := none
  /-- The definition, with the late edits that were carried over. -/
  definition : Options := {}
  /-- The options as they were merged. -/
  sealed : Placed Options
  alive : Bool := true
  deriving Inhabited

namespace Class

def name (c : Class) : Option String := c.options.value.name

/-- Whether the options were merged over these options of the super class. -/
def isCurrent (c : Class) (above : Placed Options) : Bool :=
  match c.superOptions with
  | some seen => seen.same above
  | none => false

/-- The definition with the edits that the options have seen since they were merged. -/
def carried (c : Class) : Options :=
  match c.options.value.changesSince c.sealed.value with
  | some changes => c.definition.carry changes
  | none => c.definition

end Class

structure Forest where
  classes : Array Class := #[]
  /-- The classes that definitions among the components were made into. -/
  made : List (Mark × ClassId) := []
  nextMark : Mark := 0
  journal : Journal := {}
  deriving Inhabited

namespace Forest

def class? (f : Forest) (c : ClassId) : Option Class := f.classes[c]?

def isAlive (f : Forest) (c : ClassId) : Bool :=
  match f.class? c with
  | some k => k.alive
  | none => false

/-- The first class, from `c` up, that has no super class; `fuel` bounds the steps. -/
def baseFrom (f : Forest) : Nat → ClassId → ClassId
  | 0, c => c
  | fuel + 1, c =>
    match (f.class? c).bind (·.superClass) with
    | some s => baseFrom f fuel s
    | none => c

/-- The root of the line of super classes. -/
def baseOf (f : Forest) (c : ClassId) : ClassId := f.baseFrom f.classes.size c

end Forest

/-- Computations on classes. What was done before an error stays done. -/
abbrev Forging := ExceptT Error (StateM Forest)

namespace Forging

variable {α : Type}

def getClass (c : ClassId) : Forging Class := do return ((← get).class? c).getD default

def modifyClass (c : ClassId) (f : Class → Class) : Forging Unit :=
  modify fun w => { w with classes := w.classes.modify c f }

/-- Writes to the journal. -/
def noting (n : Noting α) : Forging α :=
  modifyGet fun w =>
    let (a, journal) := n.run w.journal
    (a, { w with journal })

/-- Gives out marks. -/
def marking (m : Marking α) : Forging α :=
  modifyGet fun w =>
    let (a, nextMark) := m.run w.nextMark
    (a, { w with nextMark })

/-- Merges. -/
def merging (m : Merging α) : Forging α := do
  match ← noting m.run with
  | .ok a => return a
  | .error e => throw e

/-- Stores options in an object of their own. -/
def store (o : Options) : Forging (Placed Options) :=
  marking do
    let o ← o.place
    (Placed.new o).place

/-- Adds a class and gives its number. -/
def addClass (c : Class) : Forging ClassId :=
  modifyGet fun w => (w.classes.size, { w with classes := w.classes.push c })

end Forging

end Componentry
