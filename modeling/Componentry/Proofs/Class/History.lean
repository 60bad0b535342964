import Componentry.Class.Resolve
import Componentry.Proofs.Class.Exec
import Componentry.World

/-!
# What happens to classes

- `Op`: what can be done to the classes of a runtime, by one call.
- `History`: the classes, and what each was made of.
- `Runs`: one history after the other.
- `Reachable`: a history that starts with a fresh runtime.
-/

namespace Componentry

/-- The class that every class of a runtime comes from. -/
def rootClass : ClassId := 0

inductive Op where
  | newBase (o : Options)
  | extend (s : ClassId) (definition : Options)
  | mixin (definition : Options)
  | component (name : String) (definition : Options)
  | register (name : String) (c : ClassId)
  | directive (name : String)
  | filter (name : String) (e : Expr)
  | resolve (c : ClassId)
  | classFor (entry : ComponentRef Options)
  | edit (c : ClassId) (es : List Edit)
  | replace (c : ClassId) (o : Options)

namespace Op

def run (cfg : Config) : Op → Forging Unit
  | newBase o => do let _ ← Classes.newBase o
  | extend s definition => do let _ ← Classes.extend cfg s definition
  | mixin definition => Classes.mixin cfg rootClass definition
  | component name definition => do let _ ← Classes.component cfg rootClass name definition
  | register name c => Classes.register cfg rootClass name c
  | directive name => Classes.directive cfg rootClass name
  | filter name e => Classes.filter rootClass name e
  | resolve c => do let _ ← Classes.resolve cfg c
  | classFor entry => do let _ ← Classes.classFor cfg rootClass entry
  | edit c es => Classes.editOptions c fun o => es.foldl Options.edit o
  | replace c o => Classes.replaceOptions c o

/-- The class that is to be extended or changed is there. -/
def Fits (f : Forest) : Op → Prop
  | extend s _ => s < f.size
  | edit c _ => c < f.size
  | replace c _ => c < f.size
  | _ => True

/-- The super class and the definition of the class that an operation makes, if it makes one that
has a super class. -/
def origin : Op → Option (ClassId × Options)
  | extend s definition => some (s, definition)
  | component name definition => some (rootClass, definition.orNamed name)
  | classFor (.definition _ definition) => some (rootClass, definition)
  | _ => none

end Op

/-- What the class of a number was made under and of. -/
def originAt (os : List (Option (ClassId × Options))) (c : ClassId) : Option (ClassId × Options) :=
  (os[c]?).join

section

variable {os os' : List (Option (ClassId × Options))} {c : ClassId}

theorem originAt_append_of_lt (h : c < os.length) : originAt (os ++ os') c = originAt os c := by
  rw [originAt, originAt, List.getElem?_append_left h]

theorem originAt_length (x : Option (ClassId × Options)) : originAt (os ++ [x]) os.length = x := by
  rw [originAt, List.getElem?_append_right (Nat.le_refl _), Nat.sub_self]
  rfl

theorem lt_length_of_originAt {s : ClassId} {d : Options} (h : originAt os c = some (s, d)) :
    c < os.length := by
  refine Nat.lt_of_not_le fun hle => ?_
  rw [originAt, List.getElem?_eq_none hle] at h
  cases h

end

/-- The classes, and for each its super class and its definition as they were given. -/
structure History where
  forest : Forest
  origins : List (Option (ClassId × Options))

namespace History

/-- A fresh runtime. -/
def start (cfg : Config) : History := ⟨(Runtime.start cfg none).2.forest, [none]⟩

/-- One operation, whether it succeeds or not. -/
def step (cfg : Config) (h : History) (op : Op) : History :=
  let f := ((op.run cfg).exec h.forest).2
  ⟨f, if h.forest.size < f.size then h.origins ++ [op.origin] else h.origins⟩

theorem origins_step_of_lt {cfg : Config} {h : History} {op : Op}
    (hlt : h.forest.size < (h.step cfg op).forest.size) :
    (h.step cfg op).origins = h.origins ++ [op.origin] :=
  if_pos hlt

/-- What a class was made under and of. -/
def origin (h : History) (c : ClassId) : Option (ClassId × Options) := (h.origins[c]?).join

end History

/-- One history comes after the other by operations that `A` allows where they are carried out. -/
inductive Runs (cfg : Config) (A : Forest → Op → Prop) (h : History) : History → Prop where
  | refl : Runs cfg A h h
  | step {h' : History} {op : Op} (hr : Runs cfg A h h') (hf : op.Fits h'.forest)
      (ha : A h'.forest op) : Runs cfg A h (h'.step cfg op)

/-- A history that starts with a fresh runtime. -/
def Reachable (cfg : Config) (h : History) : Prop :=
  Runs cfg (fun _ _ => True) (.start cfg) h

/-- The page makes no difference to the classes of a fresh runtime. -/
theorem History.start_forest (cfg : Config) (page : Option String) :
    (Runtime.start cfg page).2.forest = (History.start cfg).forest := by
  cases page <;> rfl

/-! ## Definitions for small histories -/

/-- No diagnostics, and no strategies. -/
def quietConfig : Config := { settings := { production := true } }

def darkTheme : Options where
  fields := { extra := [("theme", .str "dark")] }

def panel : Options where
  fields := { name := some "panel" }

end Componentry
