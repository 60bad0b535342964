import Componentry.Json.Literal
import Componentry.Template.Settings
import Componentry.Template.Tree
import Componentry.Text.Blank

/-!
# Expressions in texts

A text of a template may have expressions in it, between an opening and a closing delimiter. An
expression is a path, a literal value or a text in single quotes, followed by the filters that it
goes through.

- `Expression.parse`: an expression from its source.
- `splitText`: the pieces of a text, and what is left after the last expression.
- `textParts`: the parts of a text.
- `unclosed?`: the end of a text, if an expression opens in it and never closes.
-/

namespace Componentry.Template

open Json (Value)

/-! ## Expressions -/

/-- The texts between bars. -/
def splitAtBars : List Char → List (List Char)
  | [] => [[]]
  | c :: cs =>
    if c = '|' then [] :: splitAtBars cs
    else
      match splitAtBars cs with
      | first :: rest => (c :: first) :: rest
      | [] => [[c]]

/-- A text in single quotes. -/
def quoted? : List Char → Option (List Char)
  | '\'' :: rest =>
    match rest.getLast? with
    | some '\'' => some rest.dropLast
    | _ => none
  | _ => none

/-- A text in single quotes, a JSON value, or else a path. -/
def Operand.parse (cs : List Char) : Operand :=
  match quoted? cs with
  | some s => .literal (.str (String.ofList s))
  | none =>
    match Value.parse? (String.ofList cs) with
    | some v => .literal v
    | none => .path (String.ofList cs)

/-- `operand | filter | filter`; a filter without a name is left out. -/
def Expression.parse (cs : List Char) : Expression :=
  match (splitAtBars cs).map Text.trimChars with
  | [] => ⟨.path "", []⟩
  | head :: filters =>
    ⟨Operand.parse head, (filters.filter (!·.isEmpty)).map String.ofList⟩

/-! ## Texts -/

/-- What is before the first `pattern` of a text, and what is after it. -/
def cutAt (pattern : List Char) : List Char → Option (List Char × List Char)
  | [] => if pattern.isEmpty then some ([], []) else none
  | c :: cs =>
    if pattern.isPrefixOf (c :: cs) then some ([], (c :: cs).drop pattern.length)
    else (cutAt pattern cs).map fun (before, after) => (c :: before, after)

/-- The first expression of a text: what is before it, its source, which is not empty, and what
is after it. -/
def nextExpression? (opening closing : List Char) (cs : List Char) :
    Option (List Char × List Char × List Char) :=
  match cutAt opening cs with
  | some (before, c :: rest) =>
    match cutAt closing rest with
    | some (source, after) => some (before, c :: source, after)
    | none => none
  | _ => none

/-- The pairs of a plain text and the source of the expression after it, and the plain text after
the last one. At most `fuel` expressions are looked for; every expression has a character. -/
def splitText (opening closing : List Char) :
    Nat → List Char → List (List Char × List Char) × List Char
  | 0, cs => ([], cs)
  | fuel + 1, cs =>
    match nextExpression? opening closing cs with
    | none => ([], cs)
    | some (before, source, after) =>
      let (pieces, rest) := splitText opening closing fuel after
      ((before, source) :: pieces, rest)

/-- The pieces of a whole text. -/
def piecesOf (s : CompileSettings) (text : String) : List (List Char × List Char) × List Char :=
  splitText s.opening s.closing text.toList.length text.toList

/-- A plain part, unless it is empty. -/
def plainPart (cs : List Char) : List TextPart :=
  if cs.isEmpty then [] else [.literal (String.ofList cs)]

/-- The parts of a text. -/
def textParts (s : CompileSettings) (text : String) : List TextPart :=
  let (pieces, rest) := piecesOf s text
  pieces.flatMap (fun (before, source) => plainPart before ++ [.expr (Expression.parse source)])
    ++ plainPart rest

/-- What is left after the last expression, if another one opens in it. -/
def unclosed? (s : CompileSettings) (text : String) : Option String :=
  let rest := (piecesOf s text).2
  if !rest.isEmpty && (cutAt s.opening rest).isSome then some (String.ofList rest) else none

end Componentry.Template
