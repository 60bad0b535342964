import Componentry.Template.Compile

/-!
# Where problems are

A template can be compiled so that problems tell where they are. Nothing else comes out otherwise.

- `rootsOf_located`, `unclosedTexts_located`: what markup says, one case per kind of node.
- `compile_located`: **the tree, the static trees and the problems** do not depend on whether
  problems tell where they are.
-/

namespace Componentry.Template

/-- The settings, with problems that tell where they are or not. -/
def CompileSettings.located (s : CompileSettings) (b : Bool) : CompileSettings :=
  { s with sourceRange := b }

variable (s : CompileSettings) (b : Bool)

mutual

theorem lowerNode_located : ∀ n : Markup.Node, lowerNode (s.located b) n = lowerNode s n
  | .doctype _ => by rw [lowerNode, lowerNode]
  | .text t => by
    rw [lowerNode, lowerNode]
    rfl
  | .comment c => by
    rw [lowerNode, lowerNode]
    rfl
  | .element tag attrs contents children => by
    rw [lowerNode, lowerNode, lowerAll_located children]
    cases contents with
    | none => rw [lowerContents, lowerContents]
    | some ns => rw [lowerContents, lowerContents, lowerAll_located ns]

theorem lowerAll_located : ∀ ns : List Markup.Node, lowerAll (s.located b) ns = lowerAll s ns
  | [] => by rw [lowerAll, lowerAll]
  | n :: rest => by rw [lowerAll, lowerAll, lowerNode_located n, lowerAll_located rest]

end

mutual

theorem rootsOfNode_located : ∀ n : Markup.Node, rootsOfNode (s.located b) n = rootsOfNode s n
  | .element tag attrs contents children => by
    rw [rootsOfNode, rootsOfNode, lowerNode_located, rootsOf_located children]
  | .doctype t => congrArg Option.toList (lowerNode_located s b (.doctype t))
  | .text t => congrArg Option.toList (lowerNode_located s b (.text t))
  | .comment t => congrArg Option.toList (lowerNode_located s b (.comment t))

/-- The nodes at the top. -/
theorem rootsOf_located : ∀ ns : List Markup.Node, rootsOf (s.located b) ns = rootsOf s ns
  | [] => by rw [rootsOf, rootsOf]
  | n :: rest => by rw [rootsOf, rootsOf, rootsOfNode_located n, rootsOf_located rest]

end

mutual

theorem unclosedIn_located : ∀ n : Markup.Node, unclosedIn (s.located b) n = unclosedIn s n
  | .doctype _ => by rw [unclosedIn, unclosedIn]
  | .text t => by
    rw [unclosedIn, unclosedIn]
    rfl
  | .comment _ => by rw [unclosedIn, unclosedIn]
  | .element tag attrs contents children => by
    rw [unclosedIn, unclosedIn, unclosedTexts_located children]
    cases contents with
    | none => rw [unclosedInContents, unclosedInContents]
    | some ns => rw [unclosedInContents, unclosedInContents, unclosedTexts_located ns]

/-- The texts in which an expression never closes. -/
theorem unclosedTexts_located : ∀ ns : List Markup.Node,
    unclosedTexts (s.located b) ns = unclosedTexts s ns
  | [] => by rw [unclosedTexts, unclosedTexts]
  | n :: rest => by
    rw [unclosedTexts, unclosedTexts, unclosedIn_located n, unclosedTexts_located rest]

end

/-- What is compiled, without where its problems are. -/
def Compiled.unlocated (c : Compiled) : Compiled :=
  { c with problems := c.problems.map ({ · with range := none }) }

theorem compileDocument_located (size : Nat) (doc : List Markup.Node) :
    (compileDocument (s.located b) size doc).unlocated =
      (compileDocument s size doc).unlocated := by
  unfold compileDocument
  rw [rootsOf_located, unclosedTexts_located]
  dsimp only
  cases (rootsOf s doc).filter Node.countsAsRoot with
  | nil =>
    dsimp only [Compiled.unlocated]
    rw [List.map_map, List.map_map]
    rfl
  | cons root rest =>
    dsimp only [Compiled.unlocated]
    rw [List.map_map, List.map_map]
    rfl

/-- **The tree, the static trees and the problems** do not depend on whether problems tell where
they are. -/
theorem compile_located (template : String) :
    (compile (s.located b) template).unlocated = (compile s template).unlocated := by
  have hprepare : prepare (s.located b) template = prepare s template := rfl
  unfold compile
  rw [hprepare]
  generalize Markup.Document.parse (prepare s template) = doc
  have hdocument := compileDocument_located s b template.utf8ByteSize doc.nodes
  exact congrArg (fun c : Compiled => { c with misplaced := doc.misplaced }) hdocument

end Componentry.Template
