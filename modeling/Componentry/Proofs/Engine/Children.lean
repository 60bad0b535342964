import Componentry.Proofs.Engine.Calm
import Componentry.Proofs.Engine.Growing

/-!
# Children and their visits

A child is made for a placeholder of its parent's tree: it is initialized, and stands for the
placeholder. Where its options name an element it is mounted on that already while it is
initialized.

- `World.MadeFor`, `World.Regular`: a child that fits its placeholder, and how often an instance is
  rendered.
- `World.Visited`, `Eng.MountsBelow`: being rendered in a mount, and mounting that does so.
- `World.Made`: what making a child brings about.
- `Eng.gives_setUp`: **initializing** a child makes it, with the visit on the element that its
  options name.
-/

namespace Componentry

open Json (Value)

variable {rt : Runtime} {run : Runner} {w : World} {c : InstanceId}

/-! ## Children and their placeholders -/

/-- The instance of a family was made for a placeholder of its parent. -/
structure World.MadeFor (v : World) (parent : InstanceId) (p : Placeholder) (k : Family) :
    Prop where
  ctor : (v.instances.getD k.vm default).ctor = p.ctor
  parent : (v.optionsOf k.vm).parent = some parent
  placeholder : (v.optionsOf k.vm).parentVNode = some p

/-- How often mounting on a target renders an instance with the given options. -/
def Runtime.visitsOn (rt : Runtime) (host : Host) (o : InstanceOptions)
    (target : Option MountTarget) : Nat :=
  if rt.refuses host target || o.stopped then 0 else 1

/-- How often an instance with the given options is rendered if it is made for a placeholder: on the
element that the options name, if they name one, and below its parent. -/
def Runtime.visits (rt : Runtime) (host : Host) (o : InstanceOptions) : Nat :=
  ((o.field (·.el)).elim 0 fun el => rt.visitsOn host o (some el)) + rt.visitsOn host o none

/-- In each visit of an instance there is a child for each placeholder of the tree, in order. -/
def World.Fits (v : World) (vm : InstanceId) (visits : List (VNode × List Family)) : Prop :=
  ∀ t ∈ visits, List.Forall₂ (v.MadeFor vm) t.1.placeholders t.2

/-- The children of an instance fit, and it is rendered as often as its options say. -/
def World.Regular (rt : Runtime) (host : Host) (v : World) (vm : InstanceId)
    (visits : List (VNode × List Family)) : Prop :=
  visits.length = rt.visits host (v.optionsOf vm) ∧ v.Fits vm visits

theorem Runtime.visitsOn_of_unrendered {host : Host} {o o' : InstanceOptions}
    (h : o'.unrendered = o.unrendered) (target : Option MountTarget) :
    rt.visitsOn host o' target = rt.visitsOn host o target := by
  rw [visitsOn, visitsOn, InstanceOptions.stopped_of_unrendered h]

theorem Runtime.visits_of_unrendered {host : Host} {o o' : InstanceOptions}
    (h : o'.unrendered = o.unrendered) : rt.visits host o' = rt.visits host o := by
  rw [visits, visits, InstanceOptions.field_of_unrendered h fun _ => rfl, visitsOn_of_unrendered h]
  simp only [visitsOn_of_unrendered h]

/-! ## What visits bring about -/

namespace Family

/-- The instances that are made in visits. -/
def made (visits : List (VNode × List Family)) : List InstanceId :=
  visits.flatMap fun t => t.2.flatMap preorder

/-- What happens in visits of an instance. -/
def visitsStory (o : InstanceId → InstanceOptions) (vm : InstanceId)
    (visits : List (VNode × List Family)) : List Happening :=
  visits.flatMap fun t => (o vm).visitSteps vm t.1 (t.2.flatMap (story o))

end Family

/-- Between the two an instance was rendered with everything below it: the world has grown by what
the visits made, all of which is regular. -/
structure World.Shown (rt : Runtime) (c : InstanceId) (visits : List (VNode × List Family))
    (w w' : World) : Prop where
  grown : w.Grown (Family.made visits) (fun v => Family.visitsStory v.optionsOf c visits) w'
  fits : ∀ v, w'.Holds v → v.Fits c visits
  regular : ∀ v, w'.Holds v → ∀ t ∈ visits, ∀ k ∈ t.2, k.All (v.Regular rt w.host)

/-- Between the two an instance was visited, and those that were made last wait. -/
structure World.Visited (rt : Runtime) (c : InstanceId) (visits : List (VNode × List Family))
    (w w' : World) : Prop extends w.Shown rt c visits w' where
  pending : (w'.instances.getD c default).pendingMounted =
    visits.getLast?.elim (w.instances.getD c default).pendingMounted
      fun t => t.2.flatMap Family.waiting

section

variable {w' w'' : World} {visits visits' : List (VNode × List Family)}

theorem World.Shown.nil (h : w.Quiet w') : w.Shown rt c [] w' where
  grown := h.grown
  fits _ _ t ht := by cases ht
  regular _ _ t ht := by cases ht

theorem World.Shown.trans (h : w.Shown rt c visits w') (h' : w'.Shown rt c visits' w'') :
    w.Shown rt c (visits ++ visits') w'' where
  grown := by
    have hgrown := h.grown.trans h'.grown
    rw [Family.made, List.flatMap_append]
    simp only [Family.visitsStory, List.flatMap_append]
    exact hgrown
  fits v hv t ht := by
    rcases List.mem_append.mp ht with ht | ht
    · exact h.fits v (h'.grown.holds hv) t ht
    · exact h'.fits v hv t ht
  regular v hv t ht := by
    rcases List.mem_append.mp ht with ht | ht
    · exact h.regular v (h'.grown.holds hv) t ht
    · rw [← h.grown.host]
      exact h'.regular v hv t ht

/-- Nothing happens afterwards. -/
theorem World.Shown.before (h : w.Shown rt c visits w') (hw : w'.Quiet w'') :
    w.Shown rt c visits w'' := by
  rw [← List.append_nil visits]
  exact h.trans (.nil hw)

/-- Not being visited at all. -/
theorem World.Visited.nil (h : w.Idle w') (hlt : c < w.instances.size) :
    w.Visited rt c [] w' where
  toShown := .nil h.1
  pending := h.2.read c trivial hlt

/-- Being visited again. -/
theorem World.Visited.trans (h : w.Visited rt c visits w') (h' : w'.Visited rt c visits' w'') :
    w.Visited rt c (visits ++ visits') w'' where
  toShown := h.toShown.trans h'.toShown
  pending := by
    rw [h'.pending, h.pending, List.getLast?_append]
    cases visits'.getLast? <;> rfl

end

/-- Mounting an instance below others visits it, unless its target or its template is in the way. -/
def Eng.MountsBelow (rt : Runtime) (mount : Eng.Mounting) : Prop :=
  ∀ (w : World) (c : InstanceId) (target : Option MountTarget) (hydrating : Bool),
    c < w.instances.size → (w.instances.getD c default).access = .free →
    (w.instances.getD c default).parentVNode.isSome →
      Gives (mount c target hydrating) w fun _ w' => ∃ visits, w.Visited rt c visits w' ∧
        visits.length = rt.visitsOn w.host (w.optionsOf c) target

/-! ## Making a child -/

/-- Whether an instance is mounted, what it stands for, and what its options say it stands for. -/
def Aspect.wiring : Aspect (Bool × Option Placeholder × Option Placeholder) where
  read i := (i.isMounted, i.parentVNode, i.options.parentVNode)
  acted h := h.read (fun i => (i.isMounted, i.parentVNode, i.options.parentVNode)) fun _ => rfl
  access _ _ _ h := h

/-- The class of an instance, who uses it, and which instances below it wait. -/
def Aspect.origin : Aspect (ClassId × Access × List InstanceId) where
  read i := (i.ctor, i.access, i.pendingMounted)
  acted h := h.read (fun i => (i.ctor, i.access, i.pendingMounted)) fun _ => rfl
  access i _ _ h := congrArg (fun s : ClassId × Access × List InstanceId =>
    (s.1, i.access, s.2.2)) h

namespace Eng

variable {vm : InstanceId}

/-- An instance that is put into the tree is not mounted. -/
theorem gives_initLifecycle (hlt : vm < w.instances.size) :
    Gives (initLifecycle vm) w fun _ w' =>
      vm < w'.instances.size ∧ (w'.instances.getD vm default).isMounted = false := by
  have hset : ∀ w parent root, vm < w.instances.size → Gives (modifyInstance vm ({ · with
      parent, root, children := [], isMounted := false, isDestroyed := false })) w fun _ w' =>
        vm < w'.instances.size ∧ (w'.instances.getD vm default).isMounted = false := by
    intro w parent root hlt
    exact (Gives.modifyInstance hlt _).imp fun _ w' ⟨hlt', h⟩ => ⟨hlt', by rw [h]⟩
  refine Gives.getInstance (Gives.after (R := World.Standing fun _ => True) (H := Halt.Endless)
    (Within.alive? _) fun creator w₁ h₁ => ?_)
  have hlt₁ : vm < w₁.instances.size := h₁.size.symm ▸ hlt
  refine Gives.after (R := World.Standing fun _ => True) (H := Halt.Endless) Within.get
    fun w₂ w₃ h₃ => ?_
  have hlt₃ : vm < w₃.instances.size := h₃.size.symm ▸ hlt₁
  generalize (if (w.instances.getD vm default).options.isAbstract then creator
    else creator.map (firstConcrete w₂ (w₂.instances.size + 1))) = parent
  cases parent with
  | none => exact hset w₃ none none hlt₃
  | some p =>
    refine Gives.ite (fun _ => ?_) fun _ => hset w₃ _ _ hlt₃
    refine Gives.after (R := World.Standing fun _ => True) (H := Halt.Endless)
      (World.Standing.set fun _ _ => rfl) fun _ w₄ h₄ => ?_
    exact hset w₄ _ _ (h₄.size.symm ▸ hlt₃)

/-- An instance that has its place in the tree stands for what its options say. -/
theorem gives_initPlace (hlt : vm < w.instances.size) :
    Gives (initPlace rt vm) w fun _ w' =>
      (w'.instances.getD vm default).isMounted = false ∧
      (w'.instances.getD vm default).parentVNode =
        (w'.instances.getD vm default).options.parentVNode ∧ vm < w'.instances.size := by
  have hadvance : ∀ phase, Within (World.Same .wiring (· = vm)) Halt.Endless (advance vm phase) :=
    fun phase => within_advance (World.Same.record _) (World.Same.set fun _ _ => rfl)
  have hset : ∀ {f : Instance → Instance}, (∀ i, Aspect.wiring.read (f i) = Aspect.wiring.read i) →
      Within (World.Same .wiring (· = vm)) Halt.Endless (modifyInstance vm f) := fun hf =>
    World.Same.set fun i _ => hf i
  refine Gives.after (hadvance _) fun _ w₁ h₁ => Gives.after (hset fun _ => rfl) fun _ w₂ h₂ => ?_
  refine Gives.after (hadvance _) fun _ w₃ h₃ => Gives.after (hset fun _ => rfl) fun _ w₄ h₄ => ?_
  refine Gives.after (hadvance _) fun _ w₅ h₅ => ?_
  have hfirst := World.Frame.trans h₁ <| World.Frame.trans h₂ <| World.Frame.trans h₃ <|
    World.Frame.trans h₄ h₅
  have hlt₅ : vm < w₅.instances.size := Nat.lt_of_lt_of_le hlt hfirst.size
  refine Gives.bind (gives_initLifecycle hlt₅) fun _ w₆ ⟨hlt₆, hmounted⟩ => ?_
  refine Gives.after (hadvance _) fun _ w₇ h₇ => Gives.after (hset fun _ => rfl) fun _ w₈ h₈ => ?_
  refine Gives.after (hadvance _) fun _ w₉ h₉ => ?_
  have h := World.Frame.trans h₇ (World.Frame.trans h₈ h₉)
  have hlt₉ : vm < w₉.instances.size := Nat.lt_of_lt_of_le hlt₆ h.size
  have hrender : Gives (initRender vm) w₉ fun _ w' => vm < w'.instances.size ∧
      (w'.instances.getD vm default).isMounted = (w₉.instances.getD vm default).isMounted ∧
      (w'.instances.getD vm default).parentVNode =
        (w'.instances.getD vm default).options.parentVNode :=
    (Gives.modifyInstance hlt₉ _).imp fun _ w' ⟨hlt', h⟩ => ⟨hlt', by rw [h], by rw [h]⟩
  refine Gives.bind hrender fun _ w₁₀ ⟨hlt₁₀, hmounted₁₀, hvnode⟩ => ?_
  refine (Gives.of_within (hadvance _) w₁₀).imp fun _ w' h' => ?_
  have hread := h'.read vm rfl hlt₁₀
  refine ⟨?_, ?_, Nat.lt_of_lt_of_le hlt₁₀ h'.size⟩
  · have hbefore : (w₉.instances.getD vm default).isMounted = false :=
      (congrArg Prod.fst (h.read vm rfl hlt₆)).trans hmounted
    exact (congrArg Prod.fst hread).trans (hmounted₁₀.trans hbefore)
  · have hstands := congrArg (fun s => s.2.1) hread
    have hoptions := congrArg (fun s => s.2.2) hread
    exact hstands.trans (hvnode.trans hoptions.symm)

/-- Neither does that change in the later phases. -/
theorem gives_initPhases (hrun : ∀ vm args s, Acts (run vm args s)) (hlt : vm < w.instances.size) :
    Gives (initPhases rt run vm) w fun _ w' =>
      (w'.instances.getD vm default).isMounted = false ∧
      (w'.instances.getD vm default).parentVNode =
        (w'.instances.getD vm default).options.parentVNode := by
  have hown : Within (World.Same .wiring (· = vm)) Halt.Endless (initOwn rt run vm) := by
    refine within_initOwn (World.Same.allows fun _ i i' h => ?_) (Within.run hrun)
    exact Instance.read_of_unfilled h Aspect.wiring.read fun _ => rfl
  refine Gives.bind (gives_initPlace hlt) fun _ w₁ ⟨hmounted, hvnode, hlt₁⟩ => ?_
  refine (Gives.of_within hown w₁).imp fun _ w' h' => ?_
  have hread := h'.read vm rfl hlt₁
  refine ⟨(congrArg Prod.fst hread).trans hmounted, ?_⟩
  have hplace := congrArg (fun s => s.2.1) hread
  have hoptions := congrArg (fun s => s.2.2) hread
  exact hplace.trans (hvnode.trans hoptions.symm)

end Eng

/-- Between the two a fresh instance was initialized as a child for a placeholder. -/
structure World.Born (parent : InstanceId) (p : Placeholder) (child : InstanceId)
    (w ready : World) : Prop where
  standing : World.Standing (· ≠ child) w ready
  created : w.Created child (ready.optionsOf child) ready
  origin : Aspect.origin.read (ready.instances.getD child default) = (p.ctor, .free, [])
  parent : (ready.optionsOf child).parent = some parent
  placeholder : (ready.optionsOf child).parentVNode = some p
  place : (ready.instances.getD child default).parentVNode = some p
  unmounted : (ready.instances.getD child default).isMounted = false

/-- Nothing but instances, the chronicle and the host page matters. -/
theorem World.Born.congr {parent child : InstanceId} {p : Placeholder} {ready ready' : World}
    (h : w.Born parent p child ready) (hinstances : ready'.instances = ready.instances)
    (hchronicle : ready'.chronicle = ready.chronicle) (hhost : ready'.host = ready.host) :
    w.Born parent p child ready' where
  standing := World.Frame.trans h.standing (World.Lax.aside hinstances hchronicle hhost)
  created := by
    rw [World.optionsOf, hinstances]
    exact h.created.congr hinstances hchronicle
  origin := hinstances ▸ h.origin
  parent := by
    rw [World.optionsOf, hinstances]
    exact h.parent
  placeholder := by
    rw [World.optionsOf, hinstances]
    exact h.placeholder
  place := hinstances ▸ h.place
  unmounted := hinstances ▸ h.unmounted

namespace Eng

variable {parent child : InstanceId} {p : Placeholder}

/-- The options of a child are those of its class, and others are not touched. -/
theorem ends_childOptions (hblank : w.instances[child]? = some { ctor := p.ctor }) :
    Ends (initOptions rt child (.child parent p none [])) (w.begun child) fun r w' =>
      r = .ok () ∧ w.Prepared child w' ∧ World.Standing (· ≠ child) w w' ∧
        Aspect.origin.read (w'.instances.getD child default) = (p.ctor, .free, []) ∧
        (w'.optionsOf child).parent = some parent ∧
        (w'.optionsOf child).parentVNode = some p := by
  obtain ⟨hlt, -⟩ := Array.getElem?_eq_some_iff.mp hblank
  have hnew : w.instances.getD child default = { ctor := p.ctor } := getD_of_getElem? hblank
  have hbegun : World.Standing (· ≠ child) w (w.begun child) :=
    World.begun_of_within (fun _ => World.Standing.set fun _ h => absurd rfl h)
      (within_advance (World.Standing.record _) (World.Standing.set fun _ h => absurd rfl h)) w
  have horigin : World.Same .origin (· = child) w (w.begun child) :=
    World.begun_of_within (fun _ => World.Same.set fun _ _ => rfl)
      (within_advance (World.Same.record _) (World.Same.set fun _ _ => rfl)) w
  have hothers : Within (World.Standing (· ≠ child)) (fun _ => True)
      (initOptions rt child (.child parent p none [])) :=
    within_initOptions (fun _ => trivial) (fun _ => World.Standing.set fun _ h => absurd rfl h) _
  have hkeeps : Within (World.Same .origin (· = child)) (fun _ => True)
      (initOptions rt child (.child parent p none [])) :=
    within_initOptions (fun _ => trivial) (fun _ => World.Same.set fun _ _ => rfl) _
  have hlt' : child < (w.begun child).instances.size := Nat.lt_of_lt_of_le hlt hbegun.same.size
  have hoptions : Ends (initOptions rt child (.child parent p none [])) (w.begun child) fun r w' =>
      r = .ok () ∧ (w.begun child).ChildMade _ child w' ∧
        (w'.instances.getD child default).options = childOptions _ parent p none [] :=
    initOptions_child rt parent hlt' rfl
  refine ((ends_initOptions _ hblank).and <| (Ends.of_within hothers _).and <|
    (Ends.of_within hkeeps _).and hoptions).imp ?_
  rintro r w' ⟨⟨hprepared, -⟩, ⟨hstanding, -⟩, ⟨hsame, -⟩, hok, -, hchild⟩
  refine ⟨hok, hprepared, World.Frame.trans hbegun hstanding, ?_, ?_, ?_⟩
  · rw [hsame.read child rfl hlt', horigin.read child rfl hlt, hnew]
    rfl
  · rw [World.optionsOf, hchild]
    rfl
  · rw [World.optionsOf, hchild]
    rfl

/-- The phases of a child that has its options. -/
theorem ends_childPhases (hrun : ∀ vm args s, Acts (run vm args s)) {w₁ : World}
    (hprepared : w.Prepared child w₁) (hstanding : World.Standing (· ≠ child) w w₁)
    (horigin : Aspect.origin.read (w₁.instances.getD child default) = (p.ctor, .free, []))
    (hparent : (w₁.optionsOf child).parent = some parent)
    (hplaceholder : (w₁.optionsOf child).parentVNode = some p) :
    Ends (initPhases rt run child) w₁ fun r w₂ => r = .ok () → w.Born parent p child w₂ := by
  have hothers : Within (World.Standing (· ≠ child)) Halt.Endless (initPhases rt run child) :=
    within_initPhases (World.Standing.raising child) (Within.run hrun)
  have hkeeps : Within (World.Same .origin (· = child)) Halt.Endless (initPhases rt run child) :=
    within_initPhases (World.Same.settles (fun _ _ _ h =>
      Instance.read_of_steady h Aspect.origin.read fun _ => rfl) fun _ _ => rfl)
      (Within.run hrun)
  refine ((ends_initPhases hrun hprepared).and <| (Ends.of_within hothers w₁).and <|
    (Ends.of_within hkeeps w₁).and (gives_initPhases hrun hprepared.size)).imp ?_
  rintro r w₂ ⟨⟨hcreated, -⟩, ⟨hstanding₂, -⟩, ⟨hsame, -⟩, hwired⟩ hok
  have hcreated := hcreated hok
  obtain ⟨hmounted, hplace⟩ := hwired () hok
  have hoptions := hcreated.options
  rw [← hoptions] at hcreated hparent hplaceholder
  exact {
    standing := World.Frame.trans hstanding hstanding₂
    created := hcreated
    origin := (hsame.read child rfl hprepared.size).trans horigin
    parent := hparent
    placeholder := hplaceholder
    place := hplace.trans hplaceholder
    unmounted := hmounted }

/-- A child is initialized, and mounted already if its options name an element. -/
theorem gives_setUp {mount : Mounting} (hrun : ∀ vm args s, Acts (run vm args s))
    (hmount : MountsBelow rt mount) (hblank : w.instances[child]? = some { ctor := p.ctor }) :
    Gives (setUp rt run mount child (.child parent p none [])) w fun _ w' =>
      ∃ ready visits, w.Born parent p child ready ∧ ready.Visited rt child visits w' ∧
        visits.length = ((ready.optionsOf child).field (·.el)).elim 0 fun el =>
          rt.visitsOn ready.host (ready.optionsOf child) (some el) := by
  refine Ends.setUp (Q := fun r w₂ => r = .ok () → w.Born parent p child w₂) hblank
    (ends_childOptions hblank) ?unresolved ?phases ?endless ?mounted
  case unresolved =>
    rintro e w₁ ⟨hok, -⟩
    cases hok
  case phases =>
    rintro w₁ ⟨-, hprepared, hstanding, horigin, hparent, hplaceholder⟩
    exact ends_childPhases hrun hprepared hstanding horigin hparent hplaceholder
  case endless =>
    intro e w₂ _ a ha
    cases ha
  case mounted =>
    intro w₂ ready hborn hinstances hchronicle hhost
    have hborn := (hborn rfl).congr hinstances hchronicle hhost
    show Gives (mountNamed mount child (ready.optionsOf child)) ready _
    rw [mountNamed]
    cases hel : (ready.optionsOf child).field (·.el) with
    | none =>
      refine Gives.pure ⟨ready, [], hborn, .nil (World.Frame.refl ready) hborn.created.size, ?_⟩
      rw [hel]
      rfl
    | some el =>
      have hfree := congrArg (fun s => s.2.1) hborn.origin
      have hplace : (ready.instances.getD child default).parentVNode.isSome := by
        rw [hborn.place]
        rfl
      refine (hmount ready child (some el) false hborn.created.size hfree hplace).imp ?_
      rintro _ w' ⟨visits, hvisited, hlength⟩
      refine ⟨ready, visits, hborn, hvisited, ?_⟩
      rw [hel]
      exact hlength

end Eng

/-- Between the two a child was made for a placeholder: it is the one new instance, it was
initialized, and it stands for the placeholder. -/
structure World.Made (parent : InstanceId) (p : Placeholder) (child : InstanceId)
    (w ready : World) : Prop where
  grown : w.Grown [child]
    (fun v => .entered child .identified :: (v.optionsOf child).initSteps child) ready
  fits : ∀ v, ready.Holds v → ∀ visits, v.MadeFor parent p (.node child visits)
  place : (ready.instances.getD child default).parentVNode = some p
  waiting : (ready.instances.getD child default).pendingMounted = []

/-- A fresh instance that is initialized as a child. -/
theorem World.Born.made {parent : InstanceId} {p : Placeholder} {ready : World}
    (h : { w with instances := w.instances.push { ctor := p.ctor } }.Born parent p
      w.instances.size ready) : w.Made parent p w.instances.size ready := by
  have hsize : ready.instances.size = w.instances.size + 1 :=
    h.standing.size.trans (Array.size_push _)
  have hlt : w.instances.size < ready.instances.size := hsize ▸ Nat.lt_succ_self _
  have hread : ∀ b, b < w.instances.size →
      Aspect.standing.read (ready.instances.getD b default) =
        Aspect.standing.read (w.instances.getD b default) := by
    intro b hb
    rw [← getD_push_of_ne (Nat.ne_of_lt hb)]
    exact h.standing.same.read b (Nat.ne_of_lt hb) (by
      rw [Array.size_push]
      exact Nat.lt_succ_of_lt hb)
  refine ⟨⟨⟨hsize ▸ Nat.le_succ _, fun b _ hb => hread b hb⟩, h.standing.host, rfl, hsize, ?_, ?_⟩,
    ?_, h.place, congrArg (fun s => s.2.2) h.origin⟩
  · intro v hv
    rw [h.created.steps, InstanceOptions.initSteps_of_unrendered (hv.unrendered hlt)]
    rfl
  · intro b hb
    rw [List.mem_singleton.mp hb]
    exact ⟨congrArg (fun s => s.2.1) h.origin, h.unmounted⟩
  · intro v hv visits
    have hunrendered := hv.unrendered hlt
    refine ⟨(hv.ctor hlt).trans (congrArg Prod.fst h.origin), ?_, ?_⟩
    · exact (InstanceOptions.read_of_unrendered hunrendered fun _ _ => rfl).trans h.parent
    · exact (InstanceOptions.read_of_unrendered hunrendered fun _ _ => rfl).trans h.placeholder

theorem World.Made.of_quiet {parent child : InstanceId} {p : Placeholder} {w₀ ready : World}
    (hw : w.Quiet w₀) (h : w₀.Made parent p child ready) : w.Made parent p child ready where
  grown := hw.grown.trans h.grown
  fits := h.fits
  place := h.place
  waiting := h.waiting

end Componentry
