import Componentry.Proofs.Engine.Telling

/-!
# The order of an initialization

An instance goes through all phases, in their order, whatever author's code does on the way: it may
fail, set properties, emit events and call methods. So what the chronicle tells of an initialization
is known beforehand, and also what author's code finds when it is called.

- `InstanceOptions.initSteps`: all that happens, given the options.
- `Happening.Finds`: what is there of the instance when something happens.
- `Eng.tells_initPhases`: **the phases happen in order**.
-/

namespace Componentry

variable {α β γ : Type} {rt : Runtime} {run : Runner} {w : World} {vm : InstanceId}

/-! ## What happens, and what it finds -/

/-- The phases in which an instance gets its place in the tree. -/
def placeSteps (vm : InstanceId) : List Happening :=
  [.entered vm .optionsResolved, .entered vm .proxyInstalled, .entered vm .selfExposed,
    .entered vm .lifecycleWired, .entered vm .eventsWired, .entered vm .renderWired]

namespace InstanceOptions

variable (o : InstanceOptions) (vm : InstanceId)

/-- The phases from the state on, with the code that runs in them. -/
def stateSteps : List Happening :=
  o.evaluates vm (·.data) .data ++
    (.entered vm .stateReady ::
      (o.evaluates vm (·.provide) .provide ++
        (.entered vm .provided :: (o.calls vm .created ++ [.entered vm .created]))))

/-- The phases in which author's code runs, with the code that runs in them. -/
def ownSteps : List Happening :=
  o.calls vm .beforeCreate ++
    (.entered vm .beforeCreate :: .entered vm .injectionsResolved :: o.stateSteps vm)

/-- All that happens to an instance from the moment it has its options until it is created. -/
def initSteps : List Happening := placeSteps vm ++ o.ownSteps vm

end InstanceOptions

/-- What is there of an instance when something happens to it, compared with the instance as it is
once it has been created. -/
def Happening.Finds (created found : Instance) : Happening → Prop
  | .entered _ phase => found.phase = phase
  | .ran _ (.hook .beforeCreate _) => found.props = [] ∧ found.data = [] ∧ found.computed = [] ∧
      found.injected = [] ∧ found.methods = []
  | .ran _ .data => found.inventory.beforeData = created.inventory.beforeData
  | .ran _ .provide => found.inventory.beforeProvided = created.inventory.beforeProvided
  | .ran _ (.hook .created _) => found.inventory = created.inventory
  | _ => True

/-- The new entries find what they should. -/
def Occurrence.AllFind (created : Instance) (new : List Occurrence) : Prop :=
  ∀ o ∈ new, o.what.Finds created o.found

namespace Eng

/-! ## Phases that run nothing -/

/-- Entering a phase adds an entry that finds the instance in it. -/
theorem tells_advance (phase : Phase) (hlt : vm < w.instances.size) :
    Tells (advance vm phase) w [.entered vm phase] fun _ new _ =>
      ∃ o : Occurrence, new = [o] ∧ o.what = .entered vm phase ∧ o.found.phase = phase := by
  refine ⟨_, Array.toList_push, fun _ _ => ⟨rfl, _, rfl, rfl, ?_⟩, fun e he => by cases he⟩
  exact congrArg Instance.phase (getD_modify hlt _)

/-- Entering a phase, and what comes next. -/
theorem Tells.enter {phase : Phase} {g : Unit → Eng β} {T : List Happening}
    {Q : β → List Occurrence → World → Prop} (hlt : vm < w.instances.size)
    (hg : ∀ o w', (∀ created, o.what.Finds created o.found) → vm < w'.instances.size →
      World.Same (.kept id) (· = vm) w w' →
      Tells (g ()) w' T fun b new w'' => Q b (o :: new) w'') :
    Tells (advance vm phase >>= g) w (.entered vm phase :: T) Q := by
  have hkeeps : Within (World.Same (.kept id) (· = vm)) Halt.Endless (advance vm phase) :=
    (Aspect.kept_placing id _ vm).advance (fun _ _ => rfl) phase
  refine Tells.bind (S := [_]) ((tells_advance phase hlt).within hkeeps) ?_
  rintro _ new w' ⟨⟨o, rfl, hwhat, hphase⟩, hsame⟩
  refine hg o w' (fun created => ?_) (Nat.lt_of_lt_of_le hlt hsame.size) hsame
  rw [hwhat]
  exact hphase

/-- A step that adds nothing, and what comes next. -/
theorem Tells.pass {m : Eng α} {g : α → Eng β} {S : List Happening} {A : Aspect γ}
    {Q : β → List Occurrence → World → Prop} (hlt : vm < w.instances.size)
    (hm : Within World.Still Halt.Endless m)
    (hkeeps : Within (World.Same A (· = vm)) Halt.Endless m)
    (hg : ∀ a w', vm < w'.instances.size → World.Same A (· = vm) w w' → Tells (g a) w' S Q) :
    Tells (m >>= g) w S Q :=
  Tells.after hm hkeeps fun a w' h => hg a w' (Nat.lt_of_lt_of_le hlt h.size) h

/-! ## The place in the tree -/

theorem tells_initPlace (hlt : vm < w.instances.size) :
    Tells (initPlace rt vm) w (placeSteps vm) fun _ new _ =>
      ∀ created, Occurrence.AllFind created new := by
  have hplacing := Aspect.kept_placing id (· = vm) vm
  have hstill : Within World.Still Halt.Endless (initLifecycle vm) :=
    within_initLifecycle (fun _ => World.Still.set) fun _ _ => World.Still.set
  refine Tells.enter hlt fun o₁ _ h₁ hlt _ => ?_
  refine Tells.pass hlt World.Still.set (hplacing.set fun _ => rfl) fun _ _ hlt _ => ?_
  refine Tells.enter hlt fun o₂ _ h₂ hlt _ => ?_
  refine Tells.pass hlt World.Still.set (hplacing.set fun _ => rfl) fun _ _ hlt _ => ?_
  refine Tells.enter hlt fun o₃ _ h₃ hlt _ => ?_
  refine Tells.pass hlt hstill (Placing.lifecycle hplacing) fun _ _ hlt _ => ?_
  refine Tells.enter hlt fun o₄ _ h₄ hlt _ => ?_
  refine Tells.pass hlt World.Still.set (hplacing.set fun _ => rfl) fun _ _ hlt _ => ?_
  refine Tells.enter hlt fun o₅ _ h₅ hlt _ => ?_
  refine Tells.pass hlt World.Still.set (hplacing.set fun _ => rfl) fun _ _ hlt _ => ?_
  refine (tells_advance .renderWired hlt).imp ?_
  rintro _ _ _ ⟨o₆, rfl, hwhat, hphase⟩ created
  have h₆ : o₆.what.Finds created o₆.found := by
    rw [hwhat]
    exact hphase
  simp only [Occurrence.AllFind, List.forall_mem_cons]
  exact ⟨h₁ created, h₂ created, h₃ created, h₄ created, h₅ created, h₆, fun o ho => by cases ho⟩

/-! ## State -/

variable (hrun : ∀ vm args s, Acts (run vm args s))
include hrun

/-- Setting up the state adds one entry for the data, if there is any. Injected values, props and
methods are there by then, and stay. -/
theorem tells_initState (hlt : vm < w.instances.size)
    (hfree : (w.instances.getD vm default).access = .free) :
    Tells (initState rt run vm) w
      ((w.instances.getD vm default).options.evaluates vm (·.data) .data)
      fun _ new w' => ∀ created : Instance,
        created.inventory.beforeData = (w'.instances.getD vm default).inventory.beforeData →
          Occurrence.AllFind created new := by
  refine Tells.pass (A := .kept fun _ => ()) hlt (within_initProps fun _ => World.Still.set)
    (within_initProps fun _ => World.Same.set fun _ _ => rfl) fun _ w₁ hlt₁ h₁ => ?_
  refine Tells.pass (A := .kept fun _ => ()) hlt₁ (within_initMethods fun _ => World.Still.set)
    (within_initMethods fun _ => World.Same.set fun _ _ => rfl) fun _ w₂ hlt₂ h₂ => ?_
  have hoptions := (h₂.options hlt₁).trans (h₁.options hlt)
  have hdata : Within (World.Same (.kept Inventory.beforeData) (· = vm)) Halt.Endless
      (initData rt run vm) :=
    within_initData (Within.run hrun) (World.Same.record _)
      fun _ => World.Same.set fun _ _ => rfl
  have hrest : Within (World.Same (.kept Inventory.beforeData) (· = vm)) Halt.Endless (do
      initComputed rt run vm
      initWatch rt run vm) :=
    (within_initComputed (Within.run hrun) fun _ _ => World.Same.set fun _ _ => rfl).bind fun _ =>
      within_initWatch (Within.run hrun) fun _ => World.Same.set fun _ _ => rfl
  have hstill : Within World.Still Halt.Endless (do
      initComputed rt run vm
      initWatch rt run vm) :=
    (within_initComputed (Within.run hrun) fun _ _ => World.Still.set).bind fun _ =>
      within_initWatch (Within.run hrun) fun _ => World.Still.set
  have htells : Tells (initData rt run vm) w₂ _ _ :=
    (tells_initData hrun (h₂.free hlt₁ (h₁.free hlt hfree))).told
  rw [← hoptions, ← List.append_nil (InstanceOptions.evaluates ..)]
  refine Tells.bind (htells.within hdata) ?_
  rintro _ new w₃ ⟨⟨hnew, hfound⟩, h₃⟩
  refine ((Tells.still hstill).within hrest).imp ?_
  rintro _ new' w₄ ⟨rfl, h₄⟩ created hcreated o ho
  rw [List.append_nil] at ho
  rw [InstanceOptions.what_of_evaluates hnew ho]
  show o.found.inventory.beforeData = created.inventory.beforeData
  rw [hfound o ho, hcreated, h₄.inventory (Nat.lt_of_lt_of_le hlt₂ h₃.size), h₃.inventory hlt₂]

/-! ## Author's code on the way -/

/-- From the state on. What the data finds stays until the end, as does what the provided values and
the handlers of `created` find. -/
theorem tells_fromState (hlt : vm < w.instances.size)
    (hfree : (w.instances.getD vm default).access = .free) :
    Tells (do
        initState rt run vm
        advance vm .stateReady
        initProvided rt run vm
        advance vm .provided
        callHook rt run vm .created
        advance vm .created) w ((w.instances.getD vm default).options.stateSteps vm)
      fun _ new w' => Occurrence.AllFind (w'.instances.getD vm default) new := by
  have hstate : Within (World.Same (.kept fun _ => ()) (· = vm)) Halt.Endless
      (initState rt run vm) :=
    within_initState (Raising.filling (Aspect.kept_raising (· = vm) vm)) (Within.run hrun)
  have hprovided : Within (World.Same (.kept Inventory.beforeProvided) (· = vm)) Halt.Endless
      (initProvided rt run vm) :=
    within_initProvided (Within.run hrun) (World.Same.record _)
      fun _ => World.Same.set fun _ _ => rfl
  have hcreated : Within (World.Same (.kept id) (· = vm)) Halt.Endless
      (callHook rt run vm .created) :=
    within_callHook (Within.run hrun) _ fun _ => World.Same.record _
  have hadvance : Within (World.Same (.kept id) (· = vm)) Halt.Endless (advance vm .created) :=
    (Aspect.kept_placing id _ vm).advance (fun _ _ => rfl) _
  refine Tells.bind ((tells_initState hrun hlt hfree).within hstate) ?_
  rintro _ new₁ w₁ ⟨hfound₁, h₁⟩
  have hlt₁ := Nat.lt_of_lt_of_le hlt h₁.size
  refine Tells.enter hlt₁ fun o₂ w₂ ho₂ hlt₂ h₂ => ?_
  have hfree₂ := h₂.free hlt₁ (h₁.free hlt hfree)
  rw [← (h₂.options hlt₁).trans (h₁.options hlt)]
  refine Tells.bind ((tells_initProvided hrun hfree₂).told.within hprovided) ?_
  rintro _ new₃ w₃ ⟨⟨hnew₃, hfound₃⟩, h₃⟩
  have hlt₃ := Nat.lt_of_lt_of_le hlt₂ h₃.size
  refine Tells.enter hlt₃ fun o₄ w₄ ho₄ hlt₄ h₄ => ?_
  have hfree₄ := h₄.free hlt₃ (h₃.free hlt₂ hfree₂)
  rw [← (h₄.options hlt₃).trans (h₃.options hlt₂)]
  refine Tells.bind ((tells_callHook hrun .created hlt₄ hfree₄).told.within hcreated) ?_
  rintro _ new₅ w₅ ⟨⟨hnew₅, hfound₅⟩, h₅⟩
  have hlt₅ := Nat.lt_of_lt_of_le hlt₄ h₅.size
  refine ((tells_advance .created hlt₅).within hadvance).imp ?_
  rintro _ _ w₆ ⟨⟨o₆, rfl, hwhat₆, hphase₆⟩, h₆⟩ o ho
  -- what an entry found is what is there in the end
  have hcalled : (w₆.instances.getD vm default).inventory =
      (w₄.instances.getD vm default).inventory :=
    (h₆.inventory hlt₅).trans (h₅.inventory hlt₄)
  have hpassed : (w₄.instances.getD vm default).inventory =
      (w₃.instances.getD vm default).inventory := h₄.inventory hlt₃
  have hready : (w₂.instances.getD vm default).inventory =
      (w₁.instances.getD vm default).inventory := h₂.inventory hlt₁
  have hoffered : (w₆.instances.getD vm default).inventory.beforeProvided =
      (w₂.instances.getD vm default).inventory.beforeProvided :=
    (congrArg Inventory.beforeProvided (hcalled.trans hpassed)).trans (h₃.inventory hlt₂)
  have hevaluated : (w₆.instances.getD vm default).inventory.beforeData =
      (w₁.instances.getD vm default).inventory.beforeData := by
    rw [← hready]
    exact (congrArg Inventory.beforeData hoffered :)
  simp only [List.mem_append, List.mem_cons, List.not_mem_nil, or_false] at ho
  rcases ho with ho | rfl | ho | rfl | ho | rfl
  · exact hfound₁ _ hevaluated o ho
  · exact ho₂ _
  · rw [InstanceOptions.what_of_evaluates hnew₃ ho]
    show o.found.inventory.beforeProvided = _
    rw [hfound₃ o ho, hoffered]
  · exact ho₄ _
  · obtain ⟨f, hf⟩ := InstanceOptions.what_of_calls hnew₅ ho
    rw [hf]
    exact (hfound₅ o ho).trans hcalled.symm
  · rw [hwhat₆]
    exact hphase₆

omit hrun in
/-- A dictionary without names. -/
theorem eq_nil_of_contains {d : Dict α} (h : ∀ key, Dict.contains d key = false) : d = [] := by
  cases d with
  | nil => rfl
  | cons e rest =>
    have he := h e.1
    rw [Dict.contains, Dict.get?, if_pos rfl] at he
    cases he

/-- The phases in which author's code runs, of an instance that has nothing yet. -/
theorem tells_initOwn (hlt : vm < w.instances.size)
    (hfree : (w.instances.getD vm default).access = .free)
    (hbare : (w.instances.getD vm default).inventory = ({ ctor := 0 } : Instance).inventory) :
    Tells (initOwn rt run vm) w ((w.instances.getD vm default).options.ownSteps vm)
      fun _ new w' => Occurrence.AllFind (w'.instances.getD vm default) new := by
  have hhook : Within (World.Same (.kept id) (· = vm)) Halt.Endless
      (callHook rt run vm .beforeCreate) :=
    within_callHook (Within.run hrun) _ fun _ => World.Same.record _
  refine Tells.bind ((tells_callHook hrun .beforeCreate hlt hfree).told.within hhook) ?_
  rintro _ new₁ w₁ ⟨⟨hnew₁, hfound₁⟩, h₁⟩
  have hlt₁ := Nat.lt_of_lt_of_le hlt h₁.size
  refine Tells.enter hlt₁ fun o₂ w₂ ho₂ hlt₂ h₂ => ?_
  refine Tells.pass (A := .kept fun _ => ()) hlt₂ (within_initInjections fun _ => World.Still.set)
    (within_initInjections fun _ => World.Same.set fun _ _ => rfl) fun _ w₃ hlt₃ h₃ => ?_
  refine Tells.enter hlt₃ fun o₄ w₄ ho₄ hlt₄ h₄ => ?_
  have hfree₄ := h₄.free hlt₃ <| h₃.free hlt₂ <| h₂.free hlt₁ <| h₁.free hlt hfree
  rw [← (h₄.options hlt₃).trans <| (h₃.options hlt₂).trans <| (h₂.options hlt₁).trans <|
    h₁.options hlt]
  refine (tells_fromState hrun hlt₄ hfree₄).imp ?_
  rintro _ new₅ w₅ hfound₅ o ho
  simp only [List.mem_append, List.mem_cons] at ho
  rcases ho with ho | rfl | rfl | ho
  · obtain ⟨f, hf⟩ := InstanceOptions.what_of_calls hnew₁ ho
    have hnothing := (hfound₁ o ho).trans hbare
    simp only [Instance.inventory, Inventory.mk.injEq] at hnothing
    obtain ⟨hinjected, hprops, hmethods, hdata, hcomputed, -, -⟩ := hnothing
    rw [hf]
    exact ⟨eq_nil_of_contains (congrFun hprops), eq_nil_of_contains (congrFun hdata), hcomputed,
      hinjected, hmethods⟩
  · exact ho₂ _
  · exact ho₄ _
  · exact hfound₅ o ho

/-- **The phases happen in order**, each once, and everything finds what it should. -/
theorem tells_initPhases (hlt : vm < w.instances.size)
    (hfree : (w.instances.getD vm default).access = .free)
    (hbare : (w.instances.getD vm default).inventory = ({ ctor := 0 } : Instance).inventory) :
    Tells (initPhases rt run vm) w ((w.instances.getD vm default).options.initSteps vm)
      fun _ new w' => Occurrence.AllFind (w'.instances.getD vm default) new := by
  have hplace : Within (World.Same (.kept id) (· = vm)) Halt.Endless (initPlace rt vm) :=
    within_initPlace (Aspect.kept_placing id _ vm)
  refine Tells.bind ((tells_initPlace hlt).within hplace) ?_
  rintro _ new₁ w₁ ⟨hfound₁, h₁⟩
  have hlt₁ := Nat.lt_of_lt_of_le hlt h₁.size
  rw [← h₁.options hlt]
  refine (tells_initOwn hrun hlt₁ (h₁.free hlt hfree) ((h₁.inventory hlt).trans hbare)).imp ?_
  rintro _ new₂ w₂ hfound₂ o ho
  rcases List.mem_append.mp ho with ho | ho
  · exact hfound₁ _ o ho
  · exact hfound₂ o ho

end Eng

end Componentry
