import Componentry.Markup.Doctype
import Componentry.Markup.Reference
import Componentry.Markup.Source

/-!
# Markup tokens

Markup is read as a sequence of tokens: tags, runs of text, comments and document types. How text
is read depends on the element it stands in, so each step is told the `TextModel` in force.

Text comes in runs. A line end is a run by itself, and so are the characters of a reference, a
bracket that opens no tag, and the character after a return or after such a bracket. A run ends
with its block, and with the text that was looked at for a reference.

- `Token.next`: the first tokens of a source and what is left of it.
-/

namespace Componentry.Markup

open Componentry.Text (isMarkupSpace)

/-- How the text of the current element is read. -/
inductive TextModel where
  /-- Tags, comments and references. -/
  | markup
  /-- References, and the end tag of the element. -/
  | titleText (tag : String)
  /-- The end tag of the element only. -/
  | rawText (tag : String)
  /-- As raw text, with a script's own rules for comments. -/
  | script
  /-- No tags any more. -/
  | plain
  deriving Repr, DecidableEq, Inhabited

inductive Token where
  /-- `quirks` is set when it is malformed. -/
  | doctype (name : String) (quirks : Bool)
  | startTag (name : String) (attrs : List (String × String)) (selfClosing : Bool)
  | endTag (name : String)
  | comment (text : List Char)
  /-- A non-empty run of text. -/
  | text (run : List Char)
  /-- The character with number zero. -/
  | null
  /-- Markup that leaves nothing but was not as it should be. -/
  | malformed
  | eof
  deriving Repr, Inhabited

/-- The character with number zero becomes the replacement character, a return a line feed. -/
def mend (c : Char) : Char :=
  if c == '\x00' then '\uFFFD' else if c == '\r' then '\n' else c

/-- The text after `word`. -/
def dropExact? : List Char → List Char → Option (List Char)
  | [], cs => some cs
  | w :: ws, c :: cs => if w = c then dropExact? ws cs else none
  | _, [] => none

/-! ## Tags -/

def endsTagName (c : Char) : Bool := isMarkupSpace c || c == '/' || c == '>'

/-- The name at the head of a tag, in lower case, and what follows. -/
def tagNameOf (cs : List Char) : List Char × List Char :=
  let (name, rest) := cs.span (!endsTagName ·)
  (name.map fun c => (mend c).toLower, rest)

/-- The value of an attribute after its equals sign. `none` at the end of input. -/
def attributeValue? (cs : List Char) : Option (List Char × List Char) :=
  match dropSpaces cs with
  | [] => none
  | '>' :: rest => some ([], '>' :: rest)
  | q :: rest =>
    if q = '"' ∨ q = '\'' then
      match rest.span (· != q) with
      | (_, []) => none
      | (value, _ :: rest) => some (value, rest)
    else
      let (value, rest) := (q :: rest).span fun c => !(isMarkupSpace c || c == '>')
      some (value, rest)

/-- Adds an attribute unless its name is already there. -/
def addAttribute (attrs : List (String × String)) (name value : List Char) :
    List (String × String) :=
  let name := String.ofList (name.map fun c => (mend c).toLower)
  if attrs.any (·.1 == name) then attrs
  else attrs ++ [(name, String.ofList (Reference.decode (value.map mend)))]

/-- The attributes of a tag, whether it closes itself, and what follows it. `none` when the input
ends inside the tag. -/
def attributesUpTo? : Nat → List (String × String) → List Char →
    Option (List (String × String) × Bool × List Char)
  | 0, _, _ => none
  | fuel + 1, attrs, cs =>
    match dropSpaces cs with
    | [] => none
    | '>' :: rest => some (attrs, false, rest)
    | '/' :: '>' :: rest => some (attrs, true, rest)
    | '/' :: rest => attributesUpTo? fuel attrs rest
    | c :: rest =>
      let (more, rest) := rest.span fun c => !(endsTagName c || c == '=')
      match dropSpaces rest with
      | '=' :: rest =>
        match attributeValue? rest with
        | none => none
        | some (value, rest) => attributesUpTo? fuel (addAttribute attrs (c :: more) value) rest
      | rest => attributesUpTo? fuel (addAttribute attrs (c :: more) []) rest

def attributes? (cs : List Char) : Option (List (String × String) × Bool × List Char) :=
  attributesUpTo? (cs.length + 1) [] cs

/-- A start tag after its opening bracket, and the text behind it. The input ending inside it
leaves nothing. -/
def startTagToken (cs : List Char) : Token × Option (List Char) :=
  let (name, rest) := tagNameOf cs
  match attributes? rest with
  | some (attrs, selfClosing, rest) => (.startTag (String.ofList name) attrs selfClosing, some rest)
  | none => (.eof, none)

/-- An end tag after its bracket and slash; its attributes are dropped. -/
def endTagToken (cs : List Char) : Token × Option (List Char) :=
  let (name, rest) := tagNameOf cs
  match attributes? rest with
  | some (_, _, rest) => (.endTag (String.ofList name), some rest)
  | none => (.eof, none)

/-! ## Comments and document types -/

/-- The text up to the first closing bracket, and the text behind the bracket. -/
def upToBracket (cs : List Char) : List Char × Option (List Char) :=
  match cs.span (· != '>') with
  | (text, []) => (text, none)
  | (text, _ :: rest) => (text, some rest)

/-- A comment that ends at the first closing bracket. -/
def bogusComment (cs : List Char) : Token × Option (List Char) :=
  let (text, rest) := upToBracket cs
  (.comment (text.map mend), rest)

/-- `cs` without the beginning of a comment's end, as input that ends inside one leaves it. -/
def dropPartialEnd (text : List Char) : List Char :=
  match text.reverse with
  | '!' :: '-' :: '-' :: rest => rest.reverse
  | '-' :: '-' :: rest => rest.reverse
  | '-' :: rest => rest.reverse
  | _ => text

/-- The text of a comment up to `-->` or `--!>`; `seen` is what was read, latest first. -/
def commentText (seen : List Char) : List Char → List Char × Option (List Char)
  | [] => (dropPartialEnd seen.reverse, none)
  | '-' :: '-' :: '>' :: rest => (seen.reverse, some rest)
  | '-' :: '-' :: '!' :: '>' :: rest => (seen.reverse, some rest)
  | c :: rest => commentText (c :: seen) rest

/-- A comment after its opening dashes. -/
def commentToken (cs : List Char) : Token × Option (List Char) :=
  match cs with
  | '>' :: rest => (.comment [], some rest)
  | '-' :: '>' :: rest => (.comment [], some rest)
  | cs =>
    let (text, rest) := commentText [] cs
    (.comment (text.map mend), rest)

/-- A document type after its keyword. -/
def doctypeToken (cs : List Char) : Token × Option (List Char) :=
  let (name, rest) := (dropSpaces cs).span fun c => !(isMarkupSpace c || c == '>')
  let name := String.ofList (name.map fun c => (mend c).toLower)
  let after := dropSpaces rest
  let quirks :=
    if after.head? == some '>' then name.isEmpty
    else match Doctype.ids? after with
      | some ids => ids.asksForQuirks
      | none => true
  (.doctype name quirks, (upToBracket rest).2)

/-! ## Raw text -/

/-- The text behind `</tag` when `cs` starts so and the name ends there. -/
def endTagOf? (tag : String) (cs : List Char) : Option (List Char) :=
  match cs with
  | '<' :: '/' :: rest =>
    match dropWordAnyCase? tag.toList rest with
    | some (c :: _) => if endsTagName c then some rest else none
    | _ => none
  | _ => none

/-- The text of an element that ends at its end tag. -/
def rawTextBefore (tag : String) : List Char → List Char
  | [] => []
  | c :: cs => if (endTagOf? tag (c :: cs)).isSome then [] else c :: rawTextBefore tag cs

/-- Where a script stands in the markup comments that it may hold. Dashes seen are counted up to
two. -/
inductive ScriptState where
  | code
  | escaped (dashes : Nat)
  | nested (dashes : Nat)

/-- Whether `cs` starts with `word` in any case and the name ends there. -/
def startsName (word : List Char) (cs : List Char) : Bool :=
  match dropWordAnyCase? word cs with
  | some (c :: _) => endsTagName c
  | _ => false

/-- The state behind the character that heads the text. -/
def ScriptState.step (s : ScriptState) (cs : List Char) : ScriptState :=
  match s, cs with
  | code, cs => if (dropExact? "<!--".toList cs).isSome then escaped 0 else code
  | escaped d, '-' :: _ => escaped (min 2 (d + 1))
  | escaped d, '>' :: _ => if d = 2 then code else escaped 0
  | escaped _, cs => if startsName "<script".toList cs then nested 0 else escaped 0
  | nested d, '-' :: _ => nested (min 2 (d + 1))
  | nested d, '>' :: _ => if d = 2 then code else nested 0
  | nested _, cs => if startsName "</script".toList cs then escaped 0 else nested 0

/-- The text of a script up to the end tag that closes it. -/
def scriptTextBefore (s : ScriptState) : List Char → List Char
  | [] => []
  | c :: cs =>
    let inner := match s with
      | .nested _ => true
      | _ => false
    if !inner && (endTagOf? "script" (c :: cs)).isSome then []
    else c :: scriptTextBefore (s.step (c :: cs)) cs

/-! ## Steps -/

/-- What stands at the head of a block. -/
structure Step where
  tokens : List Token
  /-- Text to be read before `rest` and apart from it. -/
  ahead : List Char := []
  rest : List Char := []
  /-- The next character is a run by itself. -/
  alone : Bool := false
  /-- The block ended too early: with more text the step could be another. -/
  cutOff : Bool := false

def Step.atEnd : Step := { tokens := [.eof], cutOff := true }

def Step.ofToken (t : Token × Option (List Char)) : Step :=
  { tokens := [t.1], rest := t.2.getD [], cutOff := t.2.isNone }

/-- Text of known extent, or else the end tag that follows. -/
def rawStep (run cs : List Char) : Step :=
  match run with
  | [] => if cs.isEmpty then .atEnd else .ofToken (endTagToken (cs.drop 2))
  | run =>
    let rest := cs.drop run.length
    { tokens := [.text (run.map mend)], rest, cutOff := rest.isEmpty }

/-- How plain text is read where tags may stand. -/
structure TextRules where
  references : Bool
  /-- The character with number zero is a token by itself. -/
  keepsNull : Bool

/-- Whether a run of text ends before `c`. -/
def TextRules.stops (r : TextRules) (c : Char) : Bool :=
  c == '\r' || c == '\x00' || c == '\n' || (r.references && (c == '&' || c == '<'))

/-- A run of text that `c` starts. -/
def textStep (r : TextRules) (alone : Bool) (c : Char) (cs : List Char) : Step :=
  if c == '&' && r.references then
    let reading := Reference.reading false cs
    let flaw := if reading.flawed then [Token.malformed] else []
    { tokens := flaw ++ reading.chars.map fun c => .text [c]
      ahead := reading.ahead, rest := reading.rest, cutOff := reading.cutOff }
  else if c == '\x00' && r.keepsNull then { tokens := [.null], rest := cs }
  else if alone || r.stops c then
    { tokens := [.text [mend c]], rest := cs, alone := c == '\r' }
  else
    let (run, rest) := cs.span (!r.stops ·)
    { tokens := [.text (c :: run)], rest }

/-- The text of a character data section, by runs without the character zero. -/
def sectionTokens (run : List Char) : List Char → List Token × Option (List Char)
  | [] => ([.text run.reverse], none)
  | ']' :: ']' :: '>' :: rest => ([.text run.reverse], some rest)
  | '\x00' :: rest =>
    let (ts, rest) := sectionTokens [] rest
    (.text run.reverse :: .null :: ts, rest)
  | c :: rest => sectionTokens (mend c :: run) rest

/-- What follows an opening bracket, if it opens something. -/
def tagStep? (foreign : Bool) (cs : List Char) : Option Step :=
  match cs with
  | [] => some { tokens := [.text ['<']], cutOff := true }
  | ['/'] => some { tokens := [.text ['<'], .text ['/']], cutOff := true }
  | '!' :: rest =>
    match dropExact? "--".toList rest with
    | some rest => some (.ofToken (commentToken rest))
    | none =>
      match dropWordAnyCase? "doctype".toList rest with
      | some rest => some (.ofToken (doctypeToken rest))
      | none =>
        match if foreign then dropExact? "[CDATA[".toList rest else none with
        | some rest =>
          let (tokens, rest) := sectionTokens [] rest
          some { tokens, rest := rest.getD [], cutOff := rest.isNone }
        | none => some (.ofToken (bogusComment rest))
  | '?' :: rest => some (.ofToken (bogusComment ('?' :: rest)))
  | '/' :: c :: rest =>
    if c.isAlpha then some (.ofToken (endTagToken (c :: rest)))
    else if c = '>' then some { tokens := [.malformed], rest }
    else some (.ofToken (bogusComment (c :: rest)))
  | c :: rest => if c.isAlpha then some (.ofToken (startTagToken (c :: rest))) else none

/-- The first tokens of a block. `foreign` says that the current element is outside HTML, where
character data sections are read. -/
def step (model : TextModel) (foreign alone : Bool) (cs : List Char) : Step :=
  match cs with
  | [] => .atEnd
  | c :: rest =>
    match model with
    | .markup =>
      if c = '<' then
        match tagStep? foreign rest with
        | some s => s
        | none => { tokens := [.text ['<']], rest, alone := true }
      else textStep ⟨true, true⟩ alone c rest
    | .titleText tag =>
      if c = '<' then
        if (endTagOf? tag (c :: rest)).isSome then .ofToken (endTagToken (rest.drop 1))
        else { tokens := [.text ['<']], rest, cutOff := (rest.drop (tag.length + 1)).isEmpty }
      else textStep ⟨true, false⟩ alone c rest
    | .rawText tag => rawStep (rawTextBefore tag (c :: rest)) (c :: rest)
    | .script => rawStep (scriptTextBefore .code (c :: rest)) (c :: rest)
    | .plain => textStep ⟨false, false⟩ alone c rest

/-! ## The next token -/

/-- What a step leaves before the blocks `later`. -/
def Step.source (s : Step) (later : List (List Char)) : Source :=
  if s.ahead.isEmpty then { front := s.rest, later, alone := s.alone }
  else { front := s.ahead, later := s.rest :: later, alone := s.alone }

/-- The first tokens of a block and those behind it. Blocks are put together for as long as the
first ends too early. -/
def Token.nextFrom (model : TextModel) (foreign alone : Bool) (front : List Char) :
    List (List Char) → List Token × Source
  | [] =>
    let s := step model foreign alone front
    (s.tokens, s.source [])
  | block :: later =>
    let s := step model foreign alone front
    if s.cutOff then nextFrom model foreign alone (front ++ block) later
    else (s.tokens, s.source (block :: later))

/-- The first tokens of a source and what is left of it. At its end they are `eof` alone. -/
def Token.next (model : TextModel) (foreign : Bool) (src : Source) : List Token × Source :=
  nextFrom model foreign src.alone src.front src.later

end Componentry.Markup
