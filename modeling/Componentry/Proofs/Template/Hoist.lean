import Componentry.Proofs.Template.Answering
import Componentry.Template.Compile

/-!
# Hoisting and rendering

Taking the static trees out of a template changes nothing that a render function gives, but for the
marks that static trees carry: the tree that is kept for an index is what its template renders to,
and rendering it asks the context for nothing.

- `Node.indices`: the hoisted trees that a template refers to.
- `hoist_indices`: **hoisting gives out indices in order**, one for each tree that it takes out.
- `VNode.plain`: a tree without the marks of static trees.
- `RenderContext.noting`: a context that keeps a record of what it is asked.
- `Likeness.Serves`: a context that has the trees of a template.
- `renderNode_fixed`: what a static tree renders to is fixed.
- `renderNode_hoist`: **a hoisted template renders alike**, one case per kind of node.
- `hoisting_preserves_rendering`: the same for whole templates and the questions they ask.
-/

namespace Componentry

open Json (Value Record)

/-! ## Trees without marks -/

namespace VNode

mutual

/-- A tree without the marks of what came from hoisted static trees. -/
def plain : VNode → VNode
  | element tag attrs children _ => .element tag attrs (plainAll children) false
  | text s => .text s
  | comment s => .comment s
  | component tag ctor props listeners children =>
    .component tag ctor props listeners (plainAll children)

def plainAll : List VNode → List VNode
  | [] => []
  | n :: rest => plain n :: plainAll rest

end

mutual

theorem plain_plain : ∀ n : VNode, n.plain.plain = n.plain
  | element tag attrs children _ => by rw [plain, plain, plainAll_plainAll children]
  | text s => rfl
  | comment s => rfl
  | component tag ctor props listeners children => by
    rw [plain, plain, plainAll_plainAll children]

theorem plainAll_plainAll : ∀ ns : List VNode, plainAll (plainAll ns) = plainAll ns
  | [] => rfl
  | n :: rest => by rw [plainAll, plainAll, plain_plain n, plainAll_plainAll rest]

end

theorem plainAll_append (ns ns' : List VNode) :
    plainAll (ns ++ ns') = plainAll ns ++ plainAll ns' := by
  induction ns with
  | nil => rfl
  | cons n rest ih => rw [List.cons_append, plainAll, ih, plainAll, List.cons_append]

end VNode

/-- Nodes that differ in the marks of static trees only. -/
def LikeNodes (ns ns' : List VNode) : Prop := VNode.plainAll ns = VNode.plainAll ns'

namespace LikeNodes

variable {n n' : VNode} {ns ns' ns₁ ns₁' : List VNode}

theorem append (h : LikeNodes ns ns') (h₁ : LikeNodes ns₁ ns₁') :
    LikeNodes (ns ++ ns₁) (ns' ++ ns₁') := by
  rw [LikeNodes, VNode.plainAll_append, VNode.plainAll_append, h, h₁]

theorem single (h : n.plain = n'.plain) : LikeNodes [n] [n'] :=
  congrArg (fun n => [n]) h

theorem element (h : LikeNodes ns ns') (tag : String) (attrs : List (String × String))
    (b b' : Bool) :
    (VNode.element tag attrs ns b).plain = (VNode.element tag attrs ns' b').plain := by
  rw [VNode.plain, VNode.plain, h]

theorem component (h : LikeNodes ns ns') (tag : String) (ctor : ClassId) (props : Record)
    (listeners : Listeners) : (VNode.component tag ctor props listeners ns).plain =
      (VNode.component tag ctor props listeners ns').plain := by
  rw [VNode.plain, VNode.plain, h]

theorem headD (h : LikeNodes ns ns') : (ns.headD .empty).plain = (ns'.headD .empty).plain := by
  cases ns with
  | nil =>
    cases ns' with
    | nil => rfl
    | cons n' rest' => cases h
  | cons n rest =>
    cases ns' with
    | nil => cases h
    | cons n' rest' => exact (List.cons.inj h).1

end LikeNodes

/-! ## What a context is asked -/

/-- A question to a context, other than for a hoisted tree. -/
inductive Question where
  | lookup (path : String)
  | applyFilter (name : String) (v : Value)
  | resolveComponent (tag : String)
  | bindListener (method : String)
  | slot (name : String)
  | warn (message : String)

variable {m : Type → Type} [Monad m]

/-- Keeps a record of a question and passes it on. -/
def noteQuestion {α : Type} (q : Question) (answer : m α) : StateT (List Question) m α := do
  modify (· ++ [q])
  StateT.lift answer

/-- The context with a record of what it is asked, hoisted trees apart. -/
def RenderContext.noting (ctx : RenderContext m) : RenderContext (StateT (List Question) m) where
  lookup path := noteQuestion (.lookup path) (ctx.lookup path)
  applyFilter name v := noteQuestion (.applyFilter name v) (ctx.applyFilter name v)
  renderStatic i := StateT.lift (ctx.renderStatic i)
  resolveComponent tag := noteQuestion (.resolveComponent tag) (ctx.resolveComponent tag)
  bindListener method := noteQuestion (.bindListener method) (ctx.bindListener method)
  slot name := noteQuestion (.slot name) (ctx.slot name)
  warn message := noteQuestion (.warn message) (ctx.warn message)

/-- A context that answers with the trees in `statics` when it is asked for hoisted trees, and
answers alike when it is asked alike. -/
structure Likeness.Serves (L : Likeness m) (ctx : RenderContext m) (statics : List VNode) :
    Prop where
  lookup : ∀ path, L.Rel Eq (ctx.lookup path) (ctx.lookup path)
  applyFilter : ∀ name v, L.Rel Eq (ctx.applyFilter name v) (ctx.applyFilter name v)
  renderStatic : ∀ i tree, statics[i]? = some tree → L.Rel Eq (ctx.renderStatic i) (Pure.pure tree)
  resolveComponent : ∀ tag, L.Rel Eq (ctx.resolveComponent tag) (ctx.resolveComponent tag)
  bindListener : ∀ method, L.Rel Eq (ctx.bindListener method) (ctx.bindListener method)
  slot : ∀ name, L.Rel Eq (ctx.slot name) (ctx.slot name)
  warn : ∀ message, L.Rel Eq (ctx.warn message) (ctx.warn message)

/-- Giving a result without touching the record. -/
theorem lift_pure [LawfulMonad m] {α σ : Type} (a : α) :
    (StateT.lift (pure a) : StateT σ m α) = pure a :=
  StateT.ext fun t => by
    rw [StateT.run_lift, pure_bind]
    rfl

namespace Likeness

variable {L : Likeness m} {ctx : RenderContext m} {statics : List VNode}

/-- In the sense of equality, a context only has to have the trees. -/
theorem serves_equal [LawfulMonad m]
    (h : ∀ i tree, statics[i]? = some tree → ctx.renderStatic i = Pure.pure tree) :
    (Likeness.equal m).Serves ctx statics where
  lookup _ := equalBy_refl _
  applyFilter _ _ := equalBy_refl _
  renderStatic i tree hi := by
    rw [h i tree hi]
    exact equalBy_refl _
  resolveComponent _ := equalBy_refl _
  bindListener _ := equalBy_refl _
  slot _ := equalBy_refl _
  warn _ := equalBy_refl _

/-- It answers like itself. -/
theorem Serves.answers (S : L.Serves ctx statics) : L.Answers ctx ctx :=
  { S with }

variable [LawfulMonad m]

theorem noteQuestion {α : Type} (q : Question) {x y : m α} (h : L.Rel Eq x y) :
    (L.beside (List Question)).Rel Eq (noteQuestion q x) (noteQuestion q y) :=
  (L.beside _).bind (r := Eq) (fun _ => L.pure ⟨rfl, rfl⟩) fun _ _ _ => L.beside_lift h

/-- A record of the questions makes no difference. -/
theorem Serves.noting (S : L.Serves ctx statics) :
    (L.beside (List Question)).Serves ctx.noting statics where
  lookup path := noteQuestion _ (S.lookup path)
  applyFilter name v := noteQuestion _ (S.applyFilter name v)
  renderStatic i tree h := by
    rw [← lift_pure tree]
    exact L.beside_lift (S.renderStatic i tree h)
  resolveComponent tag := noteQuestion _ (S.resolveComponent tag)
  bindListener method := noteQuestion _ (S.bindListener method)
  slot name := noteQuestion _ (S.slot name)
  warn message := noteQuestion _ (S.warn message)

end Likeness

namespace Template

/-! ## Indices -/

namespace Node

mutual

/-- The indices of the hoisted trees that stand in a tree, in order. -/
def indices : Node → List Nat
  | element _ _ _ _ children _ => indicesOfAll children
  | text _ => []
  | comment _ => []
  | slot _ fallback => indicesOfAll fallback
  | static i => [i]

def indicesOfAll : List Node → List Nat
  | [] => []
  | n :: rest => indices n ++ indicesOfAll rest

end

end Node

open Node (indices indicesOfAll)

theorem indicesOfAll_cons_eq_nil {n : Node} {rest : List Node}
    (h : indicesOfAll (n :: rest) = []) : n.indices = [] ∧ indicesOfAll rest = [] := by
  rw [indicesOfAll] at h
  exact List.append_eq_nil_iff.mp h

mutual

/-- **Hoisting gives out indices in order**, one for each tree that is taken out. -/
theorem hoist_indices (next : Nat) : ∀ n : Node, n.indices = [] →
    (hoist next n).1.indices = List.range' next (hoist next n).2.length
  | .element tag attrs bindings listeners children maybeComponent, h => by
    rw [indices] at h
    rw [hoist]
    split
    · rfl
    · exact hoistAll_indices next children h
  | .text parts, _ => rfl
  | .comment s, _ => rfl
  | .slot name fallback, h => by
    rw [indices] at h
    rw [hoist]
    exact hoistAll_indices next fallback h
  | .static i, h => by cases h

theorem hoistAll_indices (next : Nat) : ∀ ns : List Node, indicesOfAll ns = [] →
    indicesOfAll (hoistAll next ns).1 = List.range' next (hoistAll next ns).2.length
  | [], _ => rfl
  | n :: rest, h => by
    obtain ⟨hn, hrest⟩ := indicesOfAll_cons_eq_nil h
    rw [hoistAll]
    show (hoist next n).1.indices ++ indicesOfAll (hoistAll _ rest).1 = _
    rw [hoist_indices next n hn, hoistAll_indices _ rest hrest, List.length_append]
    exact List.range'_append_1

end

/-! ## Rendering -/

section

variable {m : Type → Type} [Monad m] {L : Likeness m} {ctx : RenderContext m}
  {statics : List VNode}

/-! ### Static trees -/

theorem Node.isStatic_of_isHoisted {n : Node} (h : n.isHoisted = true) : n.isStatic = true := by
  cases n with
  | element tag attrs bindings listeners children maybeComponent =>
    simp only [Node.isHoisted, Bool.and_eq_true] at h
    exact h.1.1
  | _ => cases h

/-- A static element asks for nothing. -/
theorem renderElement_static [LawfulMonad m] (tag : String) (attrs : List (String × String))
    (listeners : List (String × String)) (ns : List VNode) :
    renderElement ctx tag attrs [] listeners ns false = pure (.element tag attrs ns false) := by
  rw [renderElement, renderAttributes]
  simp only [Bool.false_eq_true, if_false, pure_bind, List.foldlM_nil]

theorem renderParts_static [LawfulMonad m] {parts : List TextPart}
    (h : parts.all TextPart.isLiteral = true) :
    parts.mapM (renderPart ctx) = pure (parts.map TextPart.literalText) := by
  induction parts with
  | nil => rw [List.mapM_nil, List.map_nil]
  | cons p rest ih =>
    rw [List.all_cons, Bool.and_eq_true] at h
    cases p with
    | literal s =>
      rw [List.mapM_cons, ih h.2, renderPart, pure_bind, pure_bind]
      rfl
    | expr e => cases h.1

mutual

/-- **What a static tree renders to is fixed**, but for marks, and the context is asked for
nothing. -/
theorem renderNode_fixed [LawfulMonad m] (ctx : RenderContext m) : ∀ n : Node, n.isStatic = true →
    n.indices = [] → renderNode ctx n = pure [n.fixed.plain]
  | .element tag attrs bindings listeners children maybeComponent, h, hn => by
    simp only [Node.isStatic, Bool.and_eq_true, Bool.not_eq_true', List.isEmpty_iff] at h
    obtain ⟨⟨⟨rfl, rfl⟩, -⟩, hchildren⟩ := h
    rw [renderNode, renderAll_fixed ctx children hchildren hn, pure_bind, renderElement_static,
      pure_bind, Node.fixed, VNode.plain]
  | .text parts, h, _ => by
    rw [renderNode, renderParts_static h, pure_bind]
    rfl
  | .comment s, _, _ => by
    rw [renderNode]
    rfl
  | .slot name fallback, h, _ => by cases h
  | .static i, _, hn => by cases hn

theorem renderAll_fixed [LawfulMonad m] (ctx : RenderContext m) : ∀ ns : List Node,
    Node.allStatic ns = true → indicesOfAll ns = [] → renderAll ctx ns = pure (VNode.plainAll (Node.fixedAll ns))
  | [], _, _ => by
    rw [renderAll]
    rfl
  | n :: rest, h, hn => by
    rw [Node.allStatic, Bool.and_eq_true] at h
    obtain ⟨hnone, hrest⟩ := indicesOfAll_cons_eq_nil hn
    rw [renderAll, renderNode_fixed ctx n h.1 hnone, pure_bind, renderAll_fixed ctx rest h.2 hrest,
      pure_bind]
    rfl

end

/-! ### Hoisted trees -/

/-- The trees from an index on are among those of a template. -/
def Holds (statics : List VNode) (next : Nat) (trees : List VNode) : Prop :=
  ∀ i tree, trees[i]? = some tree → statics[next + i]? = some tree

theorem Holds.append {next : Nat} {here later : List VNode}
    (h : Holds statics next (here ++ later)) :
    Holds statics next here ∧ Holds statics (next + here.length) later := by
  refine ⟨fun i tree hi => h i tree ?_, fun i tree hi => ?_⟩
  · rw [List.getElem?_append_left (List.getElem?_eq_some_iff.mp hi).1]
    exact hi
  · rw [Nat.add_assoc]
    refine h _ tree ?_
    rw [List.getElem?_append_right (Nat.le_add_right _ _), Nat.add_sub_cancel_left]
    exact hi

mutual

/-- **A hoisted template renders alike**: where a static tree was taken out, the context gives what
it renders to. -/
theorem renderNode_hoist [LawfulMonad m] (S : L.Serves ctx statics) (next : Nat) : ∀ n : Node,
    n.indices = [] → Holds statics next (hoist next n).2 →
      L.Rel LikeNodes (renderNode ctx (hoist next n).1) (renderNode ctx n)
  | .element tag attrs bindings listeners children maybeComponent, hn, h => by
    rw [hoist] at h ⊢
    split
    · rename_i hhoisted
      rw [if_pos hhoisted] at h
      -- the context gives the tree, and so does a computation that does nothing
      have htree := S.renderStatic next _ (h 0 _ rfl)
      rw [renderNode_fixed ctx _ (Node.isStatic_of_isHoisted hhoisted) hn, renderNode,
        ← pure_bind (Node.fixed _) fun tree => pure [tree.plain]]
      refine L.bindSame htree fun tree => L.pure (.single (VNode.plain_plain tree).symm)
    · rename_i hhoisted
      rw [if_neg hhoisted] at h
      rw [indices] at hn
      rw [renderNode, renderNode]
      refine L.bind (renderAll_hoist S next children hn h) fun ns ns' hns => ?_
      refine L.bind (r := fun n n' => n.plain = n'.plain) ?_ fun n n' hnn => L.pure (.single hnn)
      exact renderElement_like S.answers tag attrs bindings listeners maybeComponent
        (fun attrs => hns.element tag attrs false false) (hns.component tag)
  | .text parts, _, _ => by
    show L.Rel LikeNodes (renderNode ctx (.text parts)) (renderNode ctx (.text parts))
    rw [renderNode]
    exact L.bindSame (L.mapM _ fun p _ => renderPart_like S.answers p) fun _ => L.pure rfl
  | .comment s, _, _ => by
    show L.Rel LikeNodes (renderNode ctx (.comment s)) (renderNode ctx (.comment s))
    rw [renderNode]
    exact L.pure rfl
  | .slot name fallback, hn, h => by
    rw [indices] at hn
    rw [hoist] at h ⊢
    rw [renderNode, renderNode]
    refine L.bindSame (S.slot name) fun provided => ?_
    cases provided.isEmpty with
    | true => exact renderAll_hoist S next fallback hn h
    | false => exact L.pure rfl
  | .static i, hn, _ => by cases hn

theorem renderAll_hoist [LawfulMonad m] (S : L.Serves ctx statics) (next : Nat) : ∀ ns : List Node,
    indicesOfAll ns = [] → Holds statics next (hoistAll next ns).2 →
      L.Rel LikeNodes (renderAll ctx (hoistAll next ns).1) (renderAll ctx ns)
  | [], _, _ => by
    rw [hoistAll, renderAll]
    exact L.pure rfl
  | n :: rest, hn, h => by
    obtain ⟨hnone, hrest⟩ := indicesOfAll_cons_eq_nil hn
    rw [hoistAll] at h ⊢
    obtain ⟨hhere, hlater⟩ := Holds.append h
    rw [renderAll, renderAll]
    refine L.bind (renderNode_hoist S next n hnone hhere) fun here here' hh => ?_
    refine L.bind (renderAll_hoist S _ rest hrest hlater) fun later later' hl => ?_
    exact L.pure (hh.append hl)

end

end

/-! ## Whole templates -/

theorem holds_zero (trees : List VNode) : Holds trees 0 trees := fun i tree hi => by
  rw [Nat.zero_add]
  exact hi

/-- A render function from a template, hoisted or not: both succeed, and give what is alike. -/
theorem run_hoist {m : Type → Type} [Monad m] [LawfulMonad m] {L : Likeness m}
    {ctx : RenderContext m} {n : Node} (hn : n.indices = []) (S : L.Serves ctx (hoist 0 n).2) :
    (L.failing HookError).Rel (fun tree tree' => tree.plain = tree'.plain)
      ((RenderBody.template (some (hoist 0 n).1)).run ctx)
      ((RenderBody.template (some n)).run ctx) := by
  refine L.failing_lift (L.bind (renderNode_hoist S 0 n hn (holds_zero _)) fun ns ns' hns => ?_)
  exact L.pure hns.headD

/-- **Hoisting preserves rendering.** The hoisted template refers to the trees that were taken out,
to each once and in order. In every context that has these trees it renders to what the template
itself renders to, but for marks, and asks the same questions in the same order, other than for the
trees. The context may be of any kind and its answers may depend on all that was asked before; if it
does something of its own when it is asked for a tree, such as keeping it, that has to make no
difference in the sense in which the renderings are compared. -/
theorem hoisting_preserves_rendering {n : Node} (hn : n.indices = []) :
    (hoist 0 n).1.indices = List.range (hoist 0 n).2.length ∧
    (∀ (m : Type → Type) [Monad m] [LawfulMonad m] (ctx : RenderContext m),
      (∀ i tree, (hoist 0 n).2[i]? = some tree → ctx.renderStatic i = pure tree) →
        VNode.plainAll <$> renderNode ctx.noting (hoist 0 n).1 =
            VNode.plainAll <$> renderNode ctx.noting n ∧
          VNode.plain <$> (RenderBody.template (some (hoist 0 n).1)).run ctx.noting =
            VNode.plain <$> (RenderBody.template (some n)).run ctx.noting) ∧
    ∀ (m : Type → Type) [Monad m] [LawfulMonad m] (L : Likeness m) (ctx : RenderContext m),
      L.Serves ctx (hoist 0 n).2 →
        (L.beside (List Question)).Rel LikeNodes (renderNode ctx.noting (hoist 0 n).1)
            (renderNode ctx.noting n) ∧
          ((L.beside (List Question)).failing HookError).Rel
            (fun tree tree' => tree.plain = tree'.plain)
            ((RenderBody.template (some (hoist 0 n).1)).run ctx.noting)
            ((RenderBody.template (some n)).run ctx.noting) := by
  refine ⟨?_, fun m _ _ ctx h => ?_, fun m _ _ L ctx S => ?_⟩
  · rw [hoist_indices 0 n hn, List.range_eq_range']
  · have S : (Likeness.equal (StateT (List Question) m)).Serves ctx.noting (hoist 0 n).2 := by
      refine Likeness.serves_equal fun i tree hi => ?_
      show StateT.lift (ctx.renderStatic i) = pure tree
      rw [h i tree hi]
      exact lift_pure tree
    refine ⟨(renderNode_hoist S 0 n hn (holds_zero _)).map_eq fun _ _ h => h, ?_⟩
    refine ExceptT.ext ?_
    rw [ExceptT.run_map, ExceptT.run_map]
    refine Likeness.EqualBy.map_eq (run_hoist hn S) fun a b hab => ?_
    cases hab with
    | ok hab => exact congrArg Except.ok hab
    | error e => rfl
  · exact ⟨renderNode_hoist S.noting 0 n hn (holds_zero _), run_hoist hn S.noting⟩

/-- A template with one tree to take out, beside a text that depends on the instance. -/
def notice : Node :=
  .element "div" [("class", "notice")] [] []
    [.element "p" [] [] [] [.comment "always", .text [.literal "the same"]] false,
      .text [.expr ⟨.path "state", []⟩]] false

/-- A context with a property and the trees of that template. -/
def noticeContext : RenderContext Id where
  lookup path := if path = "state" then some (.str "open") else none
  applyFilter _ v := v
  renderStatic i := ((hoist 0 notice).2[i]?).getD .empty
  resolveComponent _ := none
  bindListener name := ⟨0, .recorder name⟩
  slot _ := []
  warn _ := ()

theorem hoisting_preserves_rendering_notice :
    notice.indices = [] ∧
    (∀ i tree, (hoist 0 notice).2[i]? = some tree →
      noticeContext.renderStatic i = pure tree) ∧
    (hoist 0 notice).1.indices = [0] ∧
    VNode.plainAll <$> renderNode noticeContext.noting (hoist 0 notice).1 =
      VNode.plainAll <$> renderNode noticeContext.noting notice ∧
    ((renderNode noticeContext.noting (hoist 0 notice).1).run []).2 = [.lookup "state"] := by
  have hserved : ∀ i tree, (hoist 0 notice).2[i]? = some tree →
      noticeContext.renderStatic i = pure tree := fun i tree hi => by
    show ((hoist 0 notice).2[i]?).getD .empty = tree
    rw [hi, Option.getD_some]
  obtain ⟨hindices, hequal, -⟩ := hoisting_preserves_rendering (n := notice) rfl
  exact ⟨rfl, hserved, hindices, (hequal Id noticeContext hserved).1, rfl⟩

/-! ## Compiled templates -/

theorem indicesOfAll_eq_nil {ns : List Node} :
    indicesOfAll ns = [] ↔ ∀ n ∈ ns, n.indices = [] := by
  induction ns with
  | nil => exact ⟨fun _ _ hn => (List.not_mem_nil hn).elim, fun _ => rfl⟩
  | cons n rest ih =>
    rw [indicesOfAll, List.append_eq_nil_iff, ih, List.forall_mem_cons]

theorem elementOf_indices (tag : String) (roles : List AttributeRole) (children : List Node) :
    (elementOf tag roles children).indices = indicesOfAll children := by
  unfold elementOf
  dsimp only
  split
  · rw [indices]
  · rw [indices]

mutual

/-- Markup says nothing of hoisted trees. -/
theorem lowerNode_indices (s : CompileSettings) : ∀ x : Markup.Node, ∀ n ∈ lowerNode s x,
    n.indices = []
  | .doctype _, n, hn => by
    rw [lowerNode] at hn
    cases hn
  | .text t, n, hn => by
    rw [lowerNode, textOf?] at hn
    split at hn
    · split at hn
      · cases hn
      · cases hn
        rfl
    · cases hn
      rfl
  | .comment c, n, hn => by
    rw [lowerNode] at hn
    split at hn
    · cases hn
      rfl
    · cases hn
  | .element tag attrs contents children, n, hn => by
    rw [lowerNode] at hn
    cases hn
    rw [elementOf_indices]
    cases contents with
    | none => exact indicesOfAll_eq_nil.mpr (lowerAll_indices s children)
    | some ns => exact indicesOfAll_eq_nil.mpr (lowerAll_indices s ns)

theorem lowerAll_indices (s : CompileSettings) : ∀ xs : List Markup.Node, ∀ n ∈ lowerAll s xs,
    n.indices = []
  | [], n, hn => by
    rw [lowerAll] at hn
    cases hn
  | x :: rest, n, hn => by
    rw [lowerAll] at hn
    rcases List.mem_append.mp hn with hn | hn
    · exact lowerNode_indices s x n (Option.mem_toList.mp hn)
    · exact lowerAll_indices s rest n hn

end

mutual

theorem rootsOfNode_indices (s : CompileSettings) : ∀ x : Markup.Node, ∀ n ∈ rootsOfNode s x,
    n.indices = []
  | .element tag attrs contents children, n, hn => by
    rw [rootsOfNode] at hn
    split at hn
    · exact rootsOf_indices s children n hn
    · exact lowerNode_indices s _ n (Option.mem_toList.mp hn)
  | .doctype _, n, hn => by
    simp only [rootsOfNode] at hn
    exact lowerNode_indices s _ n (Option.mem_toList.mp hn)
  | .text t, n, hn => by
    simp only [rootsOfNode] at hn
    exact lowerNode_indices s _ n (Option.mem_toList.mp hn)
  | .comment c, n, hn => by
    simp only [rootsOfNode] at hn
    exact lowerNode_indices s _ n (Option.mem_toList.mp hn)

theorem rootsOf_indices (s : CompileSettings) : ∀ xs : List Markup.Node, ∀ n ∈ rootsOf s xs,
    n.indices = []
  | [], n, hn => by
    rw [rootsOf] at hn
    cases hn
  | x :: rest, n, hn => by
    rw [rootsOf] at hn
    rcases List.mem_append.mp hn with hn | hn
    · exact rootsOfNode_indices s x n hn
    · exact rootsOf_indices s rest n hn

end

theorem compileDocument_indices (s : CompileSettings) (size : Nat) (doc : List Markup.Node)
    (root : Node) (h : (compileDocument s size doc).root = some root) :
    root.indices = List.range (compileDocument s size doc).statics.length := by
  rw [compileDocument] at h ⊢
  dsimp only at h ⊢
  split at h
  · cases h
  · rename_i top rest hroots
    cases h
    have hmem : top ∈ (rootsOf s doc).filter Node.countsAsRoot := hroots ▸ List.mem_cons_self
    rw [hoist_indices 0 top (rootsOf_indices s doc top (List.mem_filter.mp hmem).1),
      List.range_eq_range', hroots]

/-- **A compiled template** refers to its static trees, to each once and in order. -/
theorem compile_indices (s : CompileSettings) (template : String) (root : Node)
    (h : (compile s template).root = some root) :
    root.indices = List.range (compile s template).statics.length := by
  unfold compile at h ⊢
  generalize Markup.Document.parse (prepare s template) = doc at h ⊢
  exact compileDocument_indices s template.utf8ByteSize doc.nodes root h

end Template

end Componentry
