import Componentry.Proofs.Likeness
import Componentry.Template.Compile
import Componentry.Render.Template

/-!
# The root of a template

A template is compiled only if one node stands at its top, texts and comments apart, and it renders
to one node. A slot is one node of the template and gives as many as are passed for it, or as its
fallback gives, so the two notions of a root come apart there, and nowhere else.

- `Sure`: what a computation gives satisfies a condition.
- `Node.width`: how many nodes a tree gives, by how many are passed for the slots.
- `sure_length_renderNode`: **a tree gives that many**, one case per kind of node.
- `Node.RendersWhole`: rendering the root gives one node, whatever the context.
- `root_of_no_problems`: a template without problems has one node at its top.
- `rendersWhole_of_no_problems`: it renders whole **if and only if** that node is no slot.
-/

namespace Componentry.Template

variable {m : Type → Type} [Monad m] {α β : Type}

/-! ## What is sure of a result -/

/-- What a computation gives satisfies the condition, whatever else it does. -/
def Sure (p : α → Prop) (x : m α) : Prop := Likeness.EqualBy (fun a b => a = b ∧ p a) x x

namespace Sure

variable [LawfulMonad m] {p : α → Prop} {q : β → Prop} {x : m α}

theorem pure {a : α} (h : p a) : Sure p (Pure.pure a : m α) :=
  (Likeness.equal m).pure (r := fun a b => a = b ∧ p a) ⟨rfl, h⟩

theorem bind {f : α → m β} (h : Sure p x) (hf : ∀ a, p a → Sure q (f a)) : Sure q (x >>= f) := by
  refine (Likeness.equal m).bind (r := fun a b => a = b ∧ p a) (s := fun a b => a = b ∧ q a) h
    fun a b hab => ?_
  obtain ⟨rfl, ha⟩ := hab
  exact hf a ha

theorem any (x : m α) : Sure (fun _ => True) x := by
  show (Likeness.equal m).Rel (fun a b => a = b ∧ True) x x
  exact (Likeness.equal m).imp (Likeness.equalBy_refl x) fun _ _ hab => ⟨hab, trivial⟩

/-- A computation that does nothing else. -/
theorem run {p : α → Prop} {x : Id α} (h : Sure p x) : p x.run := by
  obtain ⟨z, rfl, -⟩ := h
  exact z.2.2

end Sure

/-! ## How many nodes a tree gives -/

namespace Node

mutual

/-- How many nodes a tree gives, if `given` tells how many are passed for each slot. -/
def width (given : String → Nat) : Node → Nat
  | slot name fallback => if given name = 0 then widthAll given fallback else given name
  | _ => 1

def widthAll (given : String → Nat) : List Node → Nat
  | [] => 0
  | n :: rest => width given n + widthAll given rest

end

def isSlot : Node → Bool
  | slot _ _ => true
  | _ => false

end Node

section

variable [LawfulMonad m] {ctx : RenderContext m} {given : String → Nat}

mutual

/-- **How many nodes a tree gives**, one case per kind of node. -/
theorem sure_length_renderNode
    (hslot : ∀ name, Sure (fun ns => ns.length = given name) (ctx.slot name)) : ∀ n : Node,
    Sure (fun ns => ns.length = n.width given) (renderNode ctx n)
  | .text parts => by
    rw [renderNode]
    exact (Sure.any _).bind fun _ _ => .pure rfl
  | .comment s => by
    rw [renderNode]
    exact .pure rfl
  | .static i => by
    rw [renderNode]
    exact (Sure.any _).bind fun _ _ => .pure rfl
  | .slot name fallback => by
    rw [renderNode, Node.width]
    refine (hslot name).bind fun provided hprovided => ?_
    cases provided with
    | nil =>
      rw [List.length_nil] at hprovided
      rw [if_pos hprovided.symm]
      exact sure_length_renderAll hslot fallback
    | cons n rest =>
      rw [if_neg (by rw [← hprovided]; exact Nat.succ_ne_zero _)]
      exact .pure hprovided
  | .element tag attrs bindings listeners children maybeComponent => by
    rw [renderNode]
    refine (Sure.any _).bind fun _ _ => (Sure.any _).bind fun _ _ => .pure rfl

theorem sure_length_renderAll
    (hslot : ∀ name, Sure (fun ns => ns.length = given name) (ctx.slot name)) : ∀ ns : List Node,
    Sure (fun vs => vs.length = Node.widthAll given ns) (renderAll ctx ns)
  | [] => by
    rw [renderAll]
    exact .pure rfl
  | n :: rest => by
    rw [renderAll]
    refine (sure_length_renderNode hslot n).bind fun here hhere => ?_
    refine (sure_length_renderAll hslot rest).bind fun later hlater => .pure ?_
    rw [List.length_append, hhere, hlater, Node.widthAll]

end

end

/-! ## Rendering whole -/

/-- Rendering the root gives one node in every context, so nothing is left out of what is kept. -/
def Node.RendersWhole (root : Node) : Prop :=
  ∀ (m : Type → Type) [Monad m] [LawfulMonad m] (ctx : RenderContext m),
    renderNode ctx root = (fun n => [n]) <$> renderRoot ctx (some root)

/-- A context that has nothing but nodes for its slots. -/
def slotContext (slot : String → List VNode) : RenderContext Id where
  lookup _ := none
  applyFilter _ v := v
  renderStatic _ := .empty
  resolveComponent _ := none
  bindListener name := ⟨0, .recorder name⟩
  slot := slot
  warn _ := ()

/-- A node that is no slot gives one node. -/
theorem rendersWhole_of_single {root : Node}
    (h : ∀ (m : Type → Type) [Monad m] [LawfulMonad m] (ctx : RenderContext m),
      ∃ x : m VNode, renderNode ctx root = (fun n => [n]) <$> x) : root.RendersWhole := by
  intro m _ _ ctx
  obtain ⟨x, hx⟩ := h m ctx
  simp only [renderRoot, hx, List.headD_cons, bind_pure_comp, Functor.map_map]

/-- **A root renders whole** if and only if it is no slot. -/
theorem rendersWhole_iff (root : Node) : root.RendersWhole ↔ root.isSlot = false := by
  refine ⟨fun h => ?_, fun h => rendersWhole_of_single fun m _ _ ctx => ?_⟩
  · cases root with
    | slot name fallback =>
      -- two nodes are passed for the slot
      have hboth := h Id (slotContext fun _ => [.text "a", .text "b"])
      rw [renderNode] at hboth
      have hlength : 2 = 1 := congrArg List.length hboth
      cases hlength
    | _ => rfl
  · cases root with
    | slot name fallback => cases h
    | text parts =>
      rw [renderNode]
      exact ⟨do return .text (String.join (← parts.mapM (renderPart ctx))), by simp⟩
    | comment s =>
      rw [renderNode]
      exact ⟨pure (.comment s), by simp⟩
    | static i =>
      rw [renderNode]
      exact ⟨ctx.renderStatic i, by simp⟩
    | element tag attrs bindings listeners children maybeComponent =>
      rw [renderNode]
      exact ⟨do
        renderElement ctx tag attrs bindings listeners (← renderAll ctx children) maybeComponent,
        by simp⟩

theorem isSlot_hoist (next : Nat) (n : Node) : (hoist next n).1.isSlot = n.isSlot := by
  cases n with
  | element tag attrs bindings listeners children maybeComponent =>
    rw [hoist]
    split <;> rfl
  | slot name fallback =>
    rw [hoist]
    rfl
  | _ => rfl

/-! ## Templates without problems -/

theorem singleton_of_rootProblems {roots : List Node} (h : rootProblems roots [] = []) :
    ∃ top, roots = [top] := by
  match roots, h with
  | [top], _ => exact ⟨top, rfl⟩

/-- **A template without problems** has one node at its top, texts and comments apart, and the root
is that node with its static trees taken out. -/
theorem root_of_no_problems {s : CompileSettings} {size : Nat} {doc : List Markup.Node}
    (h : (compileDocument s size doc).problems = []) :
    ∃ top, (rootsOf s doc).filter Node.countsAsRoot = [top] ∧
      (compileDocument s size doc).root = some (hoist 0 top).1 := by
  rw [compileDocument] at h ⊢
  dsimp only at h ⊢
  generalize (rootsOf s doc).filter Node.countsAsRoot = roots at h ⊢
  have hproblems : unclosedTexts s doc = [] ∧ rootProblems roots
      ((unclosedTexts s doc).map fun rest => Problem.unclosed (Text.trim rest)) = [] := by
    cases roots <;> simpa using h
  rw [hproblems.1] at hproblems
  obtain ⟨top, rfl⟩ := singleton_of_rootProblems hproblems.2
  exact ⟨top, rfl, rfl⟩

/-- **Templates without problems** have a root. It gives as many nodes as its width says, and it
renders to one node, so that nothing is left out of what is kept, if and only if the node at the top
of the template is no slot. -/
theorem rendersWhole_of_no_problems {s : CompileSettings} {size : Nat} {doc : List Markup.Node}
    (h : (compileDocument s size doc).problems = []) :
    ∃ top root, (rootsOf s doc).filter Node.countsAsRoot = [top] ∧
      (compileDocument s size doc).root = some root ∧
      (∀ (m : Type → Type) [Monad m] [LawfulMonad m] (ctx : RenderContext m) (given : String → Nat),
        (∀ name, Sure (fun ns => ns.length = given name) (ctx.slot name)) →
          Sure (fun ns => ns.length = root.width given) (renderNode ctx root)) ∧
      (root.RendersWhole ↔ top.isSlot = false) := by
  obtain ⟨top, htop, hroot⟩ := root_of_no_problems h
  refine ⟨top, _, htop, hroot, fun m _ _ ctx given hslot => sure_length_renderNode hslot _, ?_⟩
  rw [rendersWhole_iff, isSlot_hoist]

/-- A document with a slot and a comment at its top, and a blank text between them. -/
def outlet : List Markup.Node :=
  [.comment "outlet", .text " ", .element ⟨.html, "slot"⟩ [⟨.none, "name", "body"⟩] none
    [.element ⟨.html, "p"⟩ [] none [.text "none"], .text "yet"]]

theorem rendersWhole_of_no_problems_outlet :
    (compileDocument { comments := true } 60 outlet).problems = [] ∧
    ∃ root, (compileDocument { comments := true } 60 outlet).root = some root ∧
      ¬ root.RendersWhole ∧
      ∀ slot, (renderNode (slotContext slot) root).length =
        root.width fun name => (slot name).length := by
  have hproblems : (compileDocument { comments := true } 60 outlet).problems = [] := by decide
  obtain ⟨top, root, htop, hroot, hwidth, hwhole⟩ := rendersWhole_of_no_problems hproblems
  have hslot : top.isSlot = true := by
    have hhead := congrArg (fun roots => (roots.map Node.isSlot).head?) htop
    exact (Option.some.inj hhead).symm
  refine ⟨hproblems, root, hroot, fun h => ?_, fun slot => ?_⟩
  · rw [hwhole, hslot] at h
    cases h
  · exact (hwidth Id (slotContext slot) _ fun name => .pure rfl).run

/-- A slot whose fallback is two elements: nothing is wrong with the template, and of the two nodes
that its root gives only the first is kept. -/
theorem slot_root_leaves_out :
    let template := "<slot><p>a</p><p>b</p></slot>"
    let ctx := slotContext fun _ => []
    (compile {} template).problems = [] ∧
    (compile {} template).root.map (fun root => VNode.listToHtml (renderNode ctx root)) =
      some "<p>a</p><p>b</p>" ∧
    (renderRoot ctx (compile {} template).root).toHtml = "<p>a</p>" := by
  decide +kernel

end Componentry.Template
