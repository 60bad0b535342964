import Componentry.Digest.Sha256
import Componentry.Markup.Document
import Componentry.Template.Hoist
import Componentry.Template.Lower

/-!
# Compiling templates

- `compile`: a template as a tree to render, with its static trees and its problems.
- `fingerprint`: the bytes that a compilation depends on.
-/

namespace Componentry.Template

structure Compiled where
  /-- The element to render, if there is one. -/
  root : Option Node := none
  statics : List VNode := []
  problems : List Problem := []
  /-- How often something stood in a table that does not belong there. -/
  misplaced : Nat := 0
  deriving Inhabited

/-- Neither a text nor a comment. -/
def Node.countsAsRoot : Node → Bool
  | text _ => false
  | comment _ => false
  | _ => true

/-- What is wrong with the number of roots. Without a root there may be other problems that
explain it. -/
def rootProblems (roots : List Node) (found : List Problem) : List Problem :=
  match roots with
  | [] => if found.isEmpty then [.noRoot] else []
  | [_] => []
  | _ => [.severalRoots]

/-- The compilation of a document that was read from a template of `size` bytes. -/
def compileDocument (s : CompileSettings) (size : Nat) (doc : List Markup.Node) : Compiled :=
  let roots := (rootsOf s doc).filter Node.countsAsRoot
  let found := (unclosedTexts s doc).map fun rest => Problem.unclosed (Text.trim rest)
  let range := if s.sourceRange then some (0, size) else none
  let problems := (found ++ rootProblems roots found).map fun p => { p with range }
  match roots with
  | [] => { problems }
  | root :: _ =>
    let (root, statics) := hoist 0 root
    { root := some root, statics, problems }

def compile (s : CompileSettings) (template : String) : Compiled :=
  let doc := Markup.Document.parse (prepare s template)
  { compileDocument s template.utf8ByteSize doc.nodes with misplaced := doc.misplaced }

/-! ## Fingerprints -/

def flagByte (b : Bool) : UInt8 := if b then 1 else 0

/-- What stands behind a template for the delimiters. -/
def CompileSettings.suffix (s : CompileSettings) : String :=
  match s.delimiters with
  | none => ""
  | some (o, c) => "\x00delimiters\x00" ++ o ++ "\x00" ++ c

def CompileSettings.flags (s : CompileSettings) : List UInt8 :=
  [flagByte s.comments, flagByte s.decodeNewlines, flagByte s.decodeHrefNewlines,
    flagByte s.sourceRange]

/-- The template and the settings as bytes. -/
def fingerprint (s : CompileSettings) (template : String) : List UInt8 :=
  template.toUTF8.data.toList ++ s.suffix.toUTF8.data.toList ++ s.flags

/-- A short name for a compilation. -/
def digest (s : CompileSettings) (template : String) : String :=
  Digest.Sha256.hex (fingerprint s template)

end Componentry.Template
