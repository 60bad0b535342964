import Componentry.Proofs.Diagnostics.Mounting
import Componentry.Proofs.Diagnostics.Releasing

/-!
# Diagnostics do not influence behaviour

Whatever is asked of two runtimes that differ in their flags for diagnostics, they answer alike and
leave worlds that are alike.

- `Operation`, `Operation.answer`: what can be asked of a runtime, and what it answers.
- `Operation.alike_answer`: one operation, one case per kind.
- `Runtime.alike_answers`: any number of operations, one after the other.
- `Runtime.start_under`: runtimes that have just been made.
- `diagnostics_do_not_influence`: **diagnostics do not influence behaviour.**
-/

namespace Componentry

open Json (Value Record)
open Eng (withAccess forging)
open Template (NulFree)

variable {rt : Runtime} {φ : Flags} {w w' : World}

/-! ## What can be asked -/

/-- Something that is asked of a runtime from outside. -/
inductive Operation where
  | newBase (o : Options)
  | extend (above : ClassId) (definition : Options)
  | resolve (c : ClassId)
  | classFor (entry : ComponentRef Options)
  | mixin (definition : Options)
  | register (name : String) (c : ClassId)
  | component (name : String) (definition : Options)
  | directive (name : String)
  | filter (name : String) (e : Expr)
  | edit (c : ClassId) (es : List Edit)
  | replace (c : ClassId) (o : Options)
  /-- Everything about a class. -/
  | classState (c : ClassId)
  | compile (template : String)
  | templateOf (selector : String)
  | allocate (c : ClassId)
  | create (c : ClassId) (definition : Options)
  /-- Initializing an instance that was allocated, on its own or as a child of another. -/
  | setUp (vm : InstanceId) (origin : Origin)
  | mount (vm : InstanceId) (target : Option MountTarget) (hydrating : Bool)
  /-- A render function run for an instance. -/
  | render (vm : InstanceId) (f : RenderBody)
  | set (vm : InstanceId) (key : String) (v : Value)
  | call (vm : InstanceId) (method : String) (args : List Value)
  /-- Author's code run for an instance. -/
  | act (vm : InstanceId) (args : List Value) (s : Script)
  /-- The record of a data source. -/
  | evaluate (vm : InstanceId) (source : DataSource)
  | emit (vm : InstanceId) (event : String) (args : List Value)
  | listen (vm : InstanceId) (event : String) (f : Listener)
  | unlisten (vm : InstanceId) (event : String) (f : Option Listener)
  | warn (vm : InstanceId) (message : String)
  | report (vm : InstanceId) (e : HookError) (info : String)
  | callHook (vm : InstanceId) (h : Hook)
  /-- The names of an instance and of everything above it. -/
  | trace (vm : InstanceId)
  /-- Everything about an instance. -/
  | state (vm : InstanceId)
  /-- The markup of a node of the host. -/
  | html (n : NodeId)
  /-- Letting go of what nothing refers to any more. -/
  | release (roots : List Ref)
  /-- An operation while an instance is in use. -/
  | inUse (vm : InstanceId) (a : Access) (op : Operation)

/-- What is answered. -/
inductive Reply where
  | done
  | flag (b : Bool)
  | text (s : String)
  | value (r : Except HookError Value)
  | record (r : Except HookError Record)
  | tree (r : Except HookError VNode)
  | ofClass (c : Option ClassId)
  | options (o : Placed Options)
  | classState (k : Option Class)
  | compiled (c : CompiledTemplate)
  | ofInstance (vm : InstanceId)
  | state (i : Instance)

/-- A compilation without the identities of its render functions. -/
def CompiledTemplate.plain (c : CompiledTemplate) : CompiledTemplate :=
  { c with render := c.render.plain, statics := c.statics.map RenderFn.plain }

/-- An answer without what diagnostics leave in it: how an instance looks at itself when it renders,
and which render functions are one and the same. -/
def Reply.plain : Reply → Reply
  | compiled c => .compiled c.plain
  | state i => .state i.plain
  | r => r

/-- Answers that agree in everything but diagnostics. -/
def Reply.Alike (r r' : Reply) : Prop := r.plain = r'.plain

/-- What a runtime answers. -/
def Operation.answer (rt : Runtime) : Operation → Eng Reply
  | newBase o => do return .ofClass (some (← forging (Classes.newBase o)))
  | extend above definition => do return .ofClass (some (← rt.extend above definition))
  | resolve c => do return .options (← rt.resolve c)
  | classFor entry => do return .ofClass (← rt.classFor entry)
  | mixin definition => do
    rt.mixin definition
    return .done
  | register name c => do
    rt.register name c
    return .done
  | component name definition => do return .ofClass (some (← rt.component name definition))
  | directive name => do
    rt.directive name
    return .done
  | filter name e => do
    rt.filter name e
    return .done
  | edit c es => do
    forging (Classes.editOptions c fun o => es.foldl Options.edit o)
    return .done
  | replace c o => do
    forging (Classes.replaceOptions c o)
    return .done
  | classState c => do return .classState ((← get).forest.class? c)
  | compile template => do return .compiled (← rt.compile template)
  | templateOf selector => do return .text (← Eng.templateOf rt selector)
  | allocate c => do return .ofInstance (← Eng.allocate c)
  | create c definition => do return .ofInstance (← rt.create c definition)
  | setUp vm origin => do
    rt.setUp vm origin
    return .done
  | mount vm target hydrating => do
    rt.mount vm target hydrating
    return .done
  | render vm f => do return .tree (← rt.render vm f)
  | set vm key v => do return .flag (← rt.set vm key v)
  | call vm method args => do return .value (← rt.call vm method args)
  | act vm args s => do return .value (← withAccess vm .exclusive (rt.run vm args s))
  | evaluate vm source => do
    return .record (← withAccess vm .exclusive (Eng.evaluateSource rt.run vm source))
  | emit vm event args => do
    rt.emit vm event args
    return .done
  | listen vm event f => do
    Eng.modifyInstance vm (·.listen event f)
    return .done
  | unlisten vm event f => do
    Eng.modifyInstance vm (·.unlisten event f)
    return .done
  | warn vm message => do
    rt.warn vm message
    return .done
  | report vm e info => do
    rt.report vm e info
    return .done
  | callHook vm h => do
    rt.callHook vm h
    return .done
  | trace vm => do return .text (← Eng.trace vm)
  | state vm => do return .state (← Eng.getInstance vm)
  | html n => do return .text ((← Eng.getHost).outerHtml n)
  | release roots => do
    modify (World.release roots)
    return .done
  | inUse vm a op => withAccess vm a (op.answer rt)

/-- The answers to a number of operations, each asked in the world that the one before left, also
where that one failed. -/
def Runtime.answers (rt : Runtime) (ops : List Operation) :
    StateM World (List (Except Halt Reply)) := ops.mapM fun op => (op.answer rt).run

/-! ## One operation -/

theorem CompiledTemplate.Alike.plain {c c' : CompiledTemplate} (h : c.Alike c')
    (hproblems : c.problems = c'.problems) : c.plain = c'.plain := by
  have hplain : ∀ c : CompiledTemplate, c.plain =
      ⟨.new c.render.value, (c.statics.map (·.value)).map .new, c.problems⟩ := fun c => by
    rw [List.map_map]
    rfl
  rw [hplain, hplain, h.render, h.statics, hproblems]

/-- Removing listeners has nothing to do with diagnostics. -/
theorem Instance.unlisten_plain (event : String) (f : Option Listener) (i : Instance) :
    (i.unlisten event f).plain = i.plain.unlisten event f := by
  cases f with
  | none => rfl
  | some f =>
    simp only [unlisten]
    rw [show i.plain.events = i.events from rfl]
    cases Dict.get? i.events event with
    | none => rfl
    | some fs => rfl

namespace Eng

/-- The names from an instance up are the same. -/
theorem namesFrom_alike (h : w.Alike w') (fuel : Nat) (p : Option InstanceId) :
    namesFrom w fuel p = namesFrom w' fuel p := by
  induction fuel generalizing p with
  | zero => rfl
  | succ fuel ih =>
    cases p with
    | none => rfl
    | some vm =>
      have hread := h.read? (fun i => (i.alive, i.access, i.displayName, i.parent))
        (fun _ => rfl) vm
      rw [namesFrom, namesFrom]
      obtain ⟨hw, hw'⟩ | ⟨i, i', hw, hw', hi⟩ := cases_of_map_eq hread
      · rw [hw, hw']
      · rw [hw, hw']
        simp only [Prod.mk.injEq] at hi
        obtain ⟨halive, haccess, hname, hparent⟩ := hi
        dsimp only
        rw [halive, haccess, hname, hparent, ih]

theorem same_trace (vm : InstanceId) : Same rt (trace vm) (trace vm) :=
  (alike rt).bind alike_get fun w w' hw => (alike rt).pure (by
    have hvm := hw.instances vm
    rw [traceOf, traceOf, namesAbove, namesAbove, namesFrom_alike hw,
      hw.size, hvm.read (·.displayName) fun _ => rfl, hvm.read (·.parent) fun _ => rfl])

theorem same_release (roots : List Ref) :
    Same rt (modify (World.release roots)) (modify (World.release roots)) :=
  same_modifyGet (World.release_asked roots) fun _ _ hw => ⟨rfl, hw.release roots⟩

end Eng

open Eng (alike Same)

/-- What is answered is the same, once what it is made of is. -/
theorem Eng.same_reply {α : Type} {x y : Eng α} (h : Same rt x y) (f : α → Reply) :
    (alike rt).Rel Reply.Alike (do return f (← x)) (do return f (← y)) :=
  (alike rt).bindSame h fun _ => (alike rt).pure rfl

/-- **One operation** is answered alike under any flags, one case per kind. -/
theorem Operation.alike_answer (op : Operation) :
    (alike rt).Rel Reply.Alike (op.answer rt) (op.answer (rt.under φ)) := by
  induction op with
  | newBase o => exact Eng.same_reply (Eng.same_forging (Classes.newBase_alike o)) _
  | extend above definition =>
    exact Eng.same_reply (Eng.same_forging (Classes.extend_alike above definition)) _
  | resolve c => exact Eng.same_reply (Eng.same_forging (Classes.resolve_alike c)) _
  | classFor entry =>
    exact Eng.same_reply (Eng.same_forging (Classes.classFor_alike rt.base entry)) _
  | mixin definition =>
    exact Eng.same_reply (Eng.same_forging (Classes.mixin_alike rt.base definition)) _
  | register name c =>
    exact Eng.same_reply (Eng.same_forging (Classes.register_alike rt.base name c)) _
  | component name definition =>
    exact Eng.same_reply (Eng.same_forging (Classes.component_alike rt.base name definition)) _
  | directive name =>
    exact Eng.same_reply (Eng.same_forging (Classes.directive_alike rt.base name)) _
  | filter name e =>
    exact Eng.same_reply (Eng.same_forging (Classes.editOptions_alike rt.base _)) _
  | edit c es => exact Eng.same_reply (Eng.same_forging (Classes.editOptions_alike c _)) _
  | replace c o => exact Eng.same_reply (Eng.same_forging (Classes.editOptions_alike c _)) _
  | classState c =>
    refine (alike rt).bind Eng.alike_get fun w w' hw => (alike rt).pure ?_
    rw [Forest.class?, Forest.class?, hw.forest.classes]
    rfl
  | compile template =>
    -- here problems tell where they are on neither side
    have hcompile := Eng.alike_compile rt φ
      { decodeNewlines := rt.decodeNewlines, decodeHrefNewlines := rt.decodeHrefNewlines }
      false false template
    refine (alike rt).bind hcompile fun c c' h => ?_
    obtain ⟨hc, hproblems⟩ := h
    exact (alike rt).pure (congrArg Reply.compiled (hc.plain (hproblems rfl)))
  | templateOf selector => exact Eng.same_reply (Eng.same_templateOf selector) _
  | allocate c => exact Eng.same_reply (Eng.same_allocate c) _
  | create c definition =>
    refine Eng.same_reply ((alike rt).bindSame (Eng.same_allocate c) fun vm => ?_) _
    exact (alike rt).bindSame (Runtime.same_setUp vm _) fun _ => Eng.same_pure vm
  | setUp vm origin => exact Eng.same_reply (Runtime.same_setUp vm origin) _
  | mount vm target hydrating =>
    exact Eng.same_reply (Runtime.same_mount vm target hydrating) _
  | render vm f => exact Eng.same_reply (Eng.same_renderWith Runtime.same_run vm f) _
  | set vm key v =>
    refine Eng.same_reply (Eng.alike_withAccess vm .exclusive ?_) _
    exact Eng.same_set Runtime.same_run vm key v
  | call vm method args =>
    refine Eng.same_reply (Eng.alike_withAccess vm .exclusive ?_) _
    exact Eng.same_callMethod Runtime.same_run vm method args
  | act vm args s =>
    exact Eng.same_reply (Eng.alike_withAccess vm .exclusive (Runtime.same_run vm args s)) _
  | evaluate vm source =>
    refine Eng.same_reply (Eng.alike_withAccess vm .exclusive ?_) _
    exact Eng.same_evaluateSource Runtime.same_run vm source
  | emit vm event args =>
    refine Eng.same_reply (Eng.alike_withAccess vm .exclusive ?_) _
    exact Eng.same_emit Runtime.same_run vm event args
  | listen vm event f =>
    exact Eng.same_reply
      (Eng.same_modifyInstance vm (f := fun i => i.listen event f) fun _ => rfl) _
  | unlisten vm event f =>
    exact Eng.same_reply (Eng.same_modifyInstance vm (f := fun i => i.unlisten event f)
      (Instance.unlisten_plain event f)) _
  | warn vm message =>
    refine Eng.same_reply (Eng.alike_withAccess vm .shared ?_) _
    exact Eng.same_warn rt _ vm message
  | report vm e info =>
    refine Eng.same_reply (Eng.alike_withAccess vm .shared ?_) _
    exact Eng.same_report Runtime.same_run vm e info
  | callHook vm h => exact Eng.same_reply (Eng.same_callHook Runtime.same_run h) _
  | trace vm => exact Eng.same_reply (Eng.same_trace vm) _
  | state vm =>
    exact (alike rt).bind (Eng.alike_getInstance vm) fun i i' hi =>
      (alike rt).pure (congrArg Reply.state hi)
  | html n => exact Eng.same_reply Eng.same_getHost _
  | release roots => exact Eng.same_reply (Eng.same_release roots) _
  | inUse vm a op ih => exact Eng.alike_withAccess vm a ih

/-! ## Many operations -/

/-- **Any number of operations**, one after the other. -/
theorem Runtime.alike_answers (rt : Runtime) (φ : Flags) (ops : List Operation) :
    (Likeness.paired (World.Twins rt) (fun w => rt.Tells w.asked) fun w => rt.Tells w.asked).Rel
      (List.Forall₂ (SameOutcomeBy Reply.Alike)) (rt.answers ops) ((rt.under φ).answers ops) :=
  Likeness.mapMBy _ ops fun op _ => op.alike_answer

/-- Runtimes that have just been made, and their worlds. -/
theorem Runtime.start_under (cfg : Config) (φ : Flags) (page : Option String) :
    (Runtime.start (cfg.under φ) page).1 = (Runtime.start cfg page).1.under φ ∧
      ∀ rt : Runtime, World.Twins rt (Runtime.start cfg page).2
        (Runtime.start (cfg.under φ) page).2 := by
  unfold Runtime.start
  generalize (Classes.newBase defaultOptions).run.run {} = base
  obtain ⟨_, forest⟩ := base
  have hworlds : ∀ (perf perf' : Perf) (host : Host),
      World.Alike { forest, perf, host } { forest, perf := perf', host } := fun _ _ _ =>
    { World.Alike.refl _ with }
  cases page with
  | none => exact ⟨rfl, fun rt => ⟨hworlds _ _ _, .of_new rfl rfl, .of_new rfl rfl⟩⟩
  | some html =>
    refine ⟨rfl, fun rt => ⟨?_, .of_new rfl rfl, .of_new rfl rfl⟩⟩
    exact hworlds _ _ (Host.loadDocument {} html).2

/-- **Diagnostics do not influence behaviour.** Two runtimes that differ in their flags for
diagnostics are asked for the same, one operation after the other, where nothing with a NUL is
compiled and digests tell apart what is. They answer alike, also with errors, and leave worlds that
are alike: with the same classes and the same host, with instances that differ at most in how they
look at themselves when they render and in which render functions are one and the same, with the
same calls of author's code, and with journals in which everything but warnings and measures is the
same. -/
theorem diagnostics_do_not_influence (rt : Runtime) (φ : Flags) (ops : List Operation)
    (h : World.Twins rt w w') (htells : rt.Tells ((rt.answers ops).run w).2.asked)
    (htells' : rt.Tells (((rt.under φ).answers ops).run w').2.asked) :
    List.Forall₂ (SameOutcomeBy Reply.Alike) ((rt.answers ops).run w).1
        (((rt.under φ).answers ops).run w').1 ∧
      ((rt.answers ops).run w).2.Alike (((rt.under φ).answers ops).run w').2 := by
  obtain ⟨hreplies, hafter⟩ := (rt.alike_answers φ ops).both w w' h htells htells'
  exact ⟨hreplies, hafter.alike⟩

/-- A root whose template looks up what nobody declared and whose hook fails, and its template once
more, compiled by itself. -/
def careless : List Operation := [
  .create 0 { fields := {
    data := some (.new (.record [("n", .str "one")]))
    template := some (.markup "<p>{{ n }}{{ m }}</p>")
    hooks := some (.new [(.created, [⟨0, [.log (.get "n"), .fail "late"]⟩])]) } },
  .mount 0 (some (.node 4)) false,
  .compile "<p>{{ n }}{{ m }}</p>",
  .html 0]

/-- A runtime in development. -/
def developing : Runtime := { (Runtime.start {} (some "<p id=app></p>")).1 with fuel := 8 }

/-- The world of a runtime that has just been made, under some flags. -/
def pageWorld (cfg : Config) : World := (Runtime.start cfg (some "<p id=app></p>")).2

def inProduction : Flags := { silent := true, production := true, performance := true }

/-- What comes of the careless operations in development. -/
def carelessDeveloping : List (Except Halt Reply) × World :=
  (developing.answers careless).run (pageWorld {})

/-- What comes of them in production. -/
def carelessProducing : List (Except Halt Reply) × World :=
  ((developing.under inProduction).answers careless).run
    (pageWorld (({} : Config).under inProduction))

/-- In development the template is compiled twice, once so that problems tell where they are, and
there is a warning; in production it is compiled once, and there is none. -/
theorem diagnostics_do_not_influence_careless :
    World.Twins developing (pageWorld {}) (pageWorld (({} : Config).under inProduction)) ∧
    developing.Tells carelessDeveloping.2.asked ∧ developing.Tells carelessProducing.2.asked ∧
    List.Forall₂ (SameOutcomeBy Reply.Alike) carelessDeveloping.1 carelessProducing.1 ∧
    carelessDeveloping.2.Alike carelessProducing.2 ∧
    (carelessDeveloping.2.compilations, carelessProducing.2.compilations) = (2, 1) ∧
    (carelessDeveloping.2.forest.journal.entries.size,
      carelessProducing.2.forest.journal.entries.size) = (3, 2) := by
  have htwins : World.Twins developing (pageWorld {})
      (pageWorld (({} : Config).under inProduction)) := (Runtime.start_under _ _ _).2 _
  have hasked : carelessDeveloping.2.asked = [({ sourceRange := true }, "<p>{{ n }}{{ m }}</p>"),
      ({}, "<p>{{ n }}{{ m }}</p>")] := by decide +kernel
  have hasked' : carelessProducing.2.asked = [({}, "<p>{{ n }}{{ m }}</p>"),
      ({}, "<p>{{ n }}{{ m }}</p>")] := by decide +kernel
  have hnul : ∀ b : Bool, NulFree { sourceRange := b } "<p>{{ n }}{{ m }}</p>" := fun b =>
    ⟨by decide, fun o c h => by cases h⟩
  have htells : developing.Tells carelessDeveloping.2.asked := by
    rw [hasked]
    exact ⟨List.forall_mem_cons.mpr ⟨hnul true, List.forall_mem_singleton.mpr (hnul false)⟩,
      by decide +kernel⟩
  have htells' : developing.Tells carelessProducing.2.asked := by
    rw [hasked']
    exact ⟨List.forall_mem_cons.mpr ⟨hnul false, List.forall_mem_singleton.mpr (hnul false)⟩,
      by decide +kernel⟩
  have hsame : List.Forall₂ (SameOutcomeBy Reply.Alike) carelessDeveloping.1 carelessProducing.1 ∧
      carelessDeveloping.2.Alike carelessProducing.2 := by
    unfold carelessDeveloping at htells ⊢
    unfold carelessProducing at htells' ⊢
    exact diagnostics_do_not_influence developing inProduction careless htwins htells htells'
  exact ⟨htwins, htells, htells', hsame.1, hsame.2, by decide +kernel, by decide +kernel⟩

end Componentry
