/-!
# Settings and problems of compilation

- `CompileSettings`: what can be asked of the compiler.
- `Problem`: what it finds wrong with a template.
-/

namespace Componentry.Template

structure CompileSettings where
  /-- Problems tell where they are. -/
  sourceRange : Bool := false
  /-- References to line feeds and tabs in attribute values are decoded. -/
  decodeNewlines : Bool := false
  /-- The same for the values of `href`. -/
  decodeHrefNewlines : Bool := false
  /-- What opens and what closes an expression in a text. -/
  delimiters : Option (String × String) := none
  /-- Comments are kept. -/
  comments : Bool := false
  deriving Repr, DecidableEq, Inhabited

namespace CompileSettings

/-- What opens an expression. -/
def opening (s : CompileSettings) : List Char :=
  match s.delimiters with
  | some (o, _) => o.toList
  | none => ['\x7b', '\x7b']

/-- What closes an expression. -/
def closing (s : CompileSettings) : List Char :=
  match s.delimiters with
  | some (_, c) => c.toList
  | none => ['\x7d', '\x7d']

end CompileSettings

structure Problem where
  code : String
  message : String
  /-- The bytes of the template that it is about. -/
  range : Option (Nat × Nat) := none
  deriving Repr, DecidableEq, Inhabited

namespace Problem

def display (p : Problem) : String := "[" ++ p.code ++ "] " ++ p.message

/-- More than one element at the top. -/
def severalRoots : Problem :=
  { code := "TPL001", message := "Component template should contain exactly one root element." }

/-- No element at the top. -/
def noRoot : Problem :=
  { code := "TPL002"
    message := "Component template requires a root element, rather than just text." }

/-- An expression without an end; `rest` is the text from the last closed expression on. -/
def unclosed (rest : String) : Problem :=
  { code := "TPL004", message := "Unclosed interpolation in text: " ++ rest }

end Problem

end Componentry.Template
