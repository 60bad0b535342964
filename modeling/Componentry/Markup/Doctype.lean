import Componentry.Text.Blank

/-!
# Document types

A document type has a name and may have a public and a system identifier. Pages of the first
years of markup are known by their identifiers; they ask for quirks.

- `Doctype.ids?`: the identifiers of a document type.
- `Doctype.Ids.asksForQuirks`: whether the identifiers are those of an old page.
-/

namespace Componentry.Markup

open Componentry.Text (isMarkupSpace)

def dropSpaces (cs : List Char) : List Char := cs.dropWhile isMarkupSpace

/-- The text after `word`, letters compared without case; `word` is in lower case. -/
def dropWordAnyCase? : List Char → List Char → Option (List Char)
  | [], cs => some cs
  | w :: ws, c :: cs => if w = c.toLower then dropWordAnyCase? ws cs else none
  | _, [] => none

namespace Doctype

/-- The identifiers, in lower case. -/
structure Ids where
  publicId : Option String := none
  systemId : Option String := none
  deriving Repr, Inhabited

/-- A quoted identifier and what follows it; none if it is not there or not closed. -/
def quoted? (cs : List Char) : Option (String × List Char) :=
  match dropSpaces cs with
  | q :: rest =>
    if q = '"' ∨ q = '\'' then
      match rest.span fun c => c != q && c != '>' with
      | (id, c :: rest) =>
        if c = q then some (String.ofList (id.map Char.toLower), rest) else none
      | (_, []) => none
    else none
  | [] => none

/-- A system identifier that the input does not end with. -/
def systemId? (cs : List Char) : Option String :=
  match quoted? cs with
  | some (id, rest) => if (dropSpaces rest).isEmpty then none else some id
  | none => none

/-- The identifiers in what follows the name of a document type: a keyword and what it calls for,
up to the end. None if it is malformed. -/
def ids? (cs : List Char) : Option Ids :=
  match dropWordAnyCase? "public".toList cs with
  | some rest =>
    match quoted? rest with
    | none => none
    | some (publicId, rest) =>
      if (dropSpaces rest).head? == some '>' then some { publicId := some publicId }
      else (systemId? rest).map fun id => { publicId := some publicId, systemId := some id }
  | none =>
    match dropWordAnyCase? "system".toList cs with
    | some rest => (systemId? rest).map fun id => { systemId := some id }
    | none => none

/-- Public identifiers of old pages. -/
def oldPublicIds : List String :=
  ["-//w3o//dtd w3 html strict 3.0//en//", "-/w3c/dtd html 4.0 transitional/en", "html"]

/-- System identifiers of old pages. -/
def oldSystemIds : List String :=
  ["//www.ibm.com/data/dtd/v11/ibmxhtml1-transitional.dtd"].map ("http:" ++ ·)

/-- How public identifiers of old pages start. -/
def oldPublicStarts : List String :=
  ["-//advasoft ltd//dtd html 3.0 aswedit + extensions//",
    "-//as//dtd html 3.0 aswedit + extensions//",
    "-//ietf//dtd html 2.0 level 1//", "-//ietf//dtd html 2.0 level 2//",
    "-//ietf//dtd html 2.0 strict level 1//", "-//ietf//dtd html 2.0 strict level 2//",
    "-//ietf//dtd html 2.0 strict//", "-//ietf//dtd html 2.0//", "-//ietf//dtd html 2.1e//",
    "-//ietf//dtd html 3.0//", "-//ietf//dtd html 3.2 final//", "-//ietf//dtd html 3.2//",
    "-//ietf//dtd html 3//", "-//ietf//dtd html level 0//", "-//ietf//dtd html level 1//",
    "-//ietf//dtd html level 2//", "-//ietf//dtd html level 3//",
    "-//ietf//dtd html strict level 0//", "-//ietf//dtd html strict level 1//",
    "-//ietf//dtd html strict level 2//", "-//ietf//dtd html strict level 3//",
    "-//ietf//dtd html strict//", "-//ietf//dtd html//",
    "-//metrius//dtd metrius presentational//",
    "-//microsoft//dtd internet explorer 2.0 html strict//",
    "-//microsoft//dtd internet explorer 2.0 html//",
    "-//microsoft//dtd internet explorer 2.0 tables//",
    "-//microsoft//dtd internet explorer 3.0 html strict//",
    "-//microsoft//dtd internet explorer 3.0 html//",
    "-//microsoft//dtd internet explorer 3.0 tables//",
    "-//netscape comm. corp.//dtd html//", "-//netscape comm. corp.//dtd strict html//",
    "-//o'reilly and associates//dtd html 2.0//",
    "-//o'reilly and associates//dtd html extended 1.0//",
    "-//o'reilly and associates//dtd html extended relaxed 1.0//",
    "-//softquad software//dtd hotmetal pro 6.0::19990601::extensions to html 4.0//",
    "-//softquad//dtd hotmetal pro 4.0::19971010::extensions to html 4.0//",
    "-//spyglass//dtd html 2.0 extended//", "-//sq//dtd html 2.0 hotmetal + extensions//",
    "-//sun microsystems corp.//dtd hotjava html//",
    "-//sun microsystems corp.//dtd hotjava strict html//",
    "-//w3c//dtd html 3 1995-03-24//", "-//w3c//dtd html 3.2 draft//",
    "-//w3c//dtd html 3.2 final//", "-//w3c//dtd html 3.2//", "-//w3c//dtd html 3.2s draft//",
    "-//w3c//dtd html 4.0 frameset//", "-//w3c//dtd html 4.0 transitional//",
    "-//w3c//dtd html experimental 19960712//", "-//w3c//dtd html experimental 970421//",
    "-//w3c//dtd w3 html//", "-//w3o//dtd w3 html 3.0//", "-//webtechs//dtd mozilla html 2.0//",
    "-//webtechs//dtd mozilla html//"]

/-- How public identifiers start that are old only without a system identifier. -/
def oldStartsAlone : List String :=
  ["-//w3c//dtd html 4.01 frameset//", "-//w3c//dtd html 4.01 transitional//"]

/-- Whether `id` starts in one of the ways of `starts`. -/
def startsAs (starts : List String) (id : String) : Bool :=
  starts.any fun s => s.toList.isPrefixOf id.toList

/-- Whether the identifiers are those of an old page. -/
def Ids.asksForQuirks (ids : Ids) : Bool :=
  let byPublic := ids.publicId.any fun id =>
    oldPublicIds.contains id || startsAs oldPublicStarts id
      || (ids.systemId.isNone && startsAs oldStartsAlone id)
  byPublic || ids.systemId.any oldSystemIds.contains

end Doctype

end Componentry.Markup
