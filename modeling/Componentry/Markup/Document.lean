import Componentry.Markup.Rules

/-!
# Reading a document

- `Document.parse`: a whole document from its text.
- `Document.body`: what the text leaves in the body.
-/

namespace Componentry.Markup

/-- What a text is read as. -/
structure Document where
  /-- The trees at the top. -/
  nodes : List Node := []
  /-- How often something stood in a table that does not belong there. -/
  misplaced : Nat := 0
  deriving Inhabited

/-- Whether a token is the end tag of a script whose text is being read. -/
def Builder.endsScript (b : Builder) : Token → Bool
  | .endTag name => b.mode == .text && name == "script"
  | _ => false

/-- Feeds the tokens of a source, those of at most `fuel` steps before the end. -/
def Builder.read : Nat → Builder → Source → Builder
  | 0, b, _ => b.feed .eof
  | fuel + 1, b, src =>
    let foreign := !b.openElements.isEmpty && b.currentTag.vocabulary != .html
    match Token.next b.model foreign src with
    | ([.eof], _) => b.feed .eof
    | (ts, src) =>
      let src := if ts.any b.endsScript then src.afterScript else src
      Builder.read fuel (ts.foldl Builder.feed b) src

/-- Reads a text. Each step but the last takes a character at least, so there are never more of
them than characters. -/
def Document.parse (s : String) : Document :=
  let src := Source.ofText s
  let b := Builder.read src.length {} src
  { nodes := b.draft.toNodes 0, misplaced := b.misplaced }

mutual

/-- The children of the first body element, in the order of the text. -/
def Document.bodyOf? : Node → Option (List Node)
  | .element tag _ _ children =>
    if tag.name = "body" then some children else bodyIn? children
  | _ => none

def Document.bodyIn? : List Node → Option (List Node)
  | [] => none
  | n :: rest =>
    match bodyOf? n with
    | some children => some children
    | none => bodyIn? rest

end

/-- The nodes in the body. -/
def Document.body (d : Document) : List Node := (bodyIn? d.nodes).getD []

end Componentry.Markup
