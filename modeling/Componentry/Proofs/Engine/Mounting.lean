import Componentry.Proofs.Engine.Aspects
import Componentry.Proofs.Engine.Rendering

/-!
# What mounting leaves alone

Mounting compiles, renders, makes children and changes the host page. It makes instances, but no
instance that is there already goes through any phase meanwhile.

- `Eng.within_ensureRender`, `Eng.within_patch`: compiling for an instance and changing the page.
- `Eng.within_setUp`: a whole initialization, given what mounting keeps to.
- `Eng.make`, `Eng.Ends.make`: making an instance, which is blank before it is initialized.
- `Eng.Showing`: a relation that allows for what mounting an instance changes of it.
- `Eng.within_mountAt`: **mounting** keeps to such a relation if making children does.
- `World.Onward`: instances go through no phase.
- `Eng.onward_mountAt`: mounting takes no instance that is there through any phase.
-/

namespace Componentry

open Json (Value)

variable {α β : Type} {R : World → World → Prop} {H : Halt → Prop}

namespace Eng

variable {rt : Runtime} {run : Runner} {vm : InstanceId}

/-! ## Templates -/

section

variable [World.Slack R]

theorem within_warnMisplaced (count : Nat) : Within R H (warnMisplaced count) :=
  Within.forM (fun _ => Within.note _) _

theorem within_install (c : Template.Compiled) : Within R H (install c) := by
  refine Within.freshMark.bind fun _ => (Within.mapM (fun tree => ?_) _).bind fun _ => Within.pure _
  exact Within.freshMark.bind fun _ => Within.pure _

theorem within_compile (s : Template.CompileSettings) (template : String) :
    Within R H (compile rt s template) := by
  refine (Within.beside fun _ => ⟨rfl, rfl, rfl, rfl, rfl⟩).bind fun _ => Within.get.bind fun w => ?_
  cases Dict.get? w.memo (rt.digest s template) with
  | some hit => exact (Within.skipMarks _).bind fun _ => Within.pure hit
  | none =>
    refine (Within.beside fun _ => ⟨rfl, rfl, rfl, rfl, rfl⟩).bind fun _ => ?_
    refine (within_warnMisplaced _).bind fun _ => (within_install _).bind fun compiled => ?_
    exact (Within.beside fun _ => ⟨rfl, rfl, rfl, rfl, rfl⟩).bind fun _ => Within.pure _

theorem within_query (selector : String) : Within R H (query rt selector) := by
  rw [query]
  cases rt.page with
  | none => exact Within.pure none
  | some page => exact (Within.note _).bind fun _ => Within.getHost.bind fun _ => Within.pure _

theorem within_fromTarget (el : Option NodeId) : Within R H (resolveTemplate.fromTarget el) := by
  cases el with
  | none => exact Within.pure _
  | some n => exact Within.getHost.bind fun _ => Within.pure _

end

section

variable [World.Lax R]

theorem within_templateOf (selector : String) : Within R H (templateOf rt selector) := by
  refine Within.get.bind fun w => ?_
  cases Dict.get? w.templates selector with
  | some markup => exact Within.pure markup
  | none =>
    refine (within_query selector).bind fun found => Within.getHost.bind fun _ => ?_
    refine (Within.aside fun _ => ⟨rfl, rfl, rfl⟩).bind fun _ => ?_
    exact (Within.source _).bind fun _ => Within.pure _

theorem within_resolveTemplate (el : Option NodeId) : Within R H (resolveTemplate rt vm el) := by
  refine (Within.getInstance vm).bind fun i => ?_
  cases i.options.field (·.template) with
  | none => exact within_fromTarget el
  | some t =>
    cases t with
    | node n => exact Within.getHost.bind fun _ => Within.pure _
    | invalid v => exact (within_warn vm _).bind fun _ => Within.pure none
    | markup m =>
      refine Within.ite ((within_templateOf m).bind fun found => (Within.source _).bind fun _ => ?_)
        (Within.ite (within_fromTarget el) (Within.pure _))
      have hfound : Within R H (Pure.pure (some found)) := Within.pure _
      cases found.isEmpty with
      | true => exact (within_warn vm _).bind fun _ => hfound
      | false => exact hfound

theorem within_compileInto (template : String)
    (hset : ∀ render statics, Within R H (modifyInstance vm fun i =>
      { i with options := i.options.setRender render statics })) :
    Within R H (compileInto rt vm template) := by
  refine (Within.onPerf _).bind fun _ => (Within.source _).bind fun _ => ?_
  refine (Within.getInstance vm).bind fun _ => (within_compile _ template).bind fun compiled => ?_
  refine (Within.forM (fun p => within_warn vm _) _).bind fun _ => (hset _ _).bind fun _ => ?_
  exact (Within.onPerf _).bind fun _ => (Within.getInstance vm).bind fun _ => Within.onPerf _

theorem within_ensureRender (el : Option NodeId)
    (hset : ∀ render statics, Within R H (modifyInstance vm fun i =>
      { i with options := i.options.setRender render statics })) :
    Within R H (ensureRender rt vm el) := by
  refine (Within.getInstance vm).bind fun i => Within.ite (Within.pure true) ?_
  refine (within_resolveTemplate el).bind fun template => ?_
  cases template with
  | none => exact Within.pure false
  | some template =>
    have hdone : Within R H (Pure.pure true) := Within.pure _
    exact Within.ite ((within_compileInto template hset).bind fun _ => hdone) hdone

end

variable [World.Slack R]

theorem within_warnUnrendered (target : Option NodeId) :
    Within R H (warnUnrendered rt vm target) :=
  (Within.getInstance vm).bind fun _ =>
    Within.ite (Within.ite (within_warn vm _) (within_warn vm _)) (Within.pure ())

/-! ## The host page -/

theorem within_resolveTarget (t : MountTarget) : Within R H (resolveTarget rt vm t) := by
  cases t with
  | node n => exact Within.pure _
  | selector s =>
    refine (within_query s).bind fun found => ?_
    have hfound : Within R H (Pure.pure found) := Within.pure _
    cases found.isNone with
    | true => exact (within_warn vm _).bind fun _ => hfound
    | false => exact hfound

theorem within_refuses (el : Option NodeId) : Within R H (refuses el) :=
  Within.getHost.bind fun _ => Within.pure _

theorem within_recordMount (target : Option NodeId) (hydrating : Bool) :
    Within R H (recordMount vm target hydrating) :=
  Within.getHost.bind fun _ => (Within.getInstance vm).bind fun _ => Within.get.bind fun _ =>
    Within.note _

theorem within_replaceTarget (target : Option NodeId) (nodes : List NodeId)
    (hhost : ∀ {α : Type} (f : Host → α × Host), Within R H (onHost f)) :
    Within R H (replaceTarget target nodes) := by
  cases target with
  | none => exact Within.pure ()
  | some t =>
    refine Within.bind (hhost _) fun put => ?_
    cases put with
    | true => exact Within.pure ()
    | false => exact Within.note _

theorem within_patch (target : Option NodeId) (tree : VNode) (hydrating : Bool)
    (hhost : ∀ {α : Type} (f : Host → α × Host), Within R H (onHost f)) :
    Within R H (patch rt vm target tree hydrating) := by
  have hread : ∀ markup, Within R H (readMarkup markup) := fun markup =>
    (within_warnMisplaced _).bind fun _ => hhost _
  have hput : Within R H (do
      let nodes ← readMarkup tree.toHtml
      replaceTarget target nodes
      return nodes.head?) :=
    (hread _).bind fun nodes => (within_replaceTarget target nodes hhost).bind fun _ =>
      Within.pure _
  refine Within.getHost.bind fun host => Within.ite (Within.pure target) ?_
  exact Within.ite ((within_warn vm _).bind fun _ => hput) hput

/-! ## Children -/

omit [World.Slack R] in
mutual

/-- Expanding a tree does what making and mounting its children does, and nothing else. -/
theorem within_expand [World.Frame R] {mount : Mounting} {parent : InstanceId}
    (h : ∀ p, Within R H (expandPlaceholder rt run mount parent p)) :
    ∀ n : VNode, Within R H (expand rt run mount parent n)
  | .component tag ctor props listeners children => by
    rw [expand]
    exact h _
  | .element tag attrs children isStatic => by
    rw [expand]
    exact (within_expandAll h children).bind fun _ => Within.pure _
  | .text s => Within.pure (VNode.text s, [])
  | .comment s => Within.pure (VNode.comment s, [])

theorem within_expandAll [World.Frame R] {mount : Mounting} {parent : InstanceId}
    (h : ∀ p, Within R H (expandPlaceholder rt run mount parent p)) :
    ∀ ns : List VNode, Within R H (expandAll rt run mount parent ns)
  | [] => by
    rw [expandAll]
    exact Within.pure _
  | n :: rest => by
    rw [expandAll]
    exact (within_expand h n).bind fun _ => (within_expandAll h rest).bind fun _ => Within.pure _

end

/-! ## Initialization -/

theorem within_identify
    (hset : ∀ uid, Within R H (modifyInstance vm ({ · with uid, skipObservation := true })))
    (hadvance : Within R H (advance vm .identified)) : Within R H (identify vm) :=
  (Within.beside fun _ => ⟨rfl, rfl, rfl, rfl, rfl⟩).bind fun _ => (hset _).bind fun _ =>
    hadvance.bind fun _ => Within.pure _

theorem within_initOptions (hH : ∀ e, H (.fatal e))
    (hset : ∀ options, Within R H (modifyInstance vm ({ · with options }))) (origin : Origin) :
    Within R H (initOptions rt vm origin) := by
  cases origin with
  | child parent p render statics =>
    exact (Within.getInstance vm).bind fun i => Within.get.bind fun _ => hset _
  | root definition =>
    exact (Within.getInstance vm).bind fun i => (Within.forging hH _).bind fun _ => hset _

/-- **A whole initialization** keeps to a relation that allows for the phases of the instance, for
giving it options, and for mounting it. -/
theorem within_setUp (hH : ∀ e, H (.fatal e)) (hrun : ∀ vm args s, Within R H (run vm args s))
    (h : Raising R vm)
    (hset : ∀ options, Within R H (modifyInstance vm ({ · with options })))
    {mount : Mounting} (hmount : ∀ el, Within R H (mount vm (some el) false)) (origin : Origin) :
    Within R H (setUp rt run mount vm origin) := by
  have hrest : Within R H (do
      let uid ← identify vm
      let start := "perf-start:" ++ toString uid
      let finish := "perf-end:" ++ toString uid
      onPerf (·.mark start)
      initOptions rt vm origin
      initPhases rt run vm
      onPerf (·.mark finish)
      let i ← getInstance vm
      onPerf (·.measure (i.displayName ++ " init") start finish)
      mountNamed mount vm i.options) := by
    refine (within_identify (fun _ => h.set fun _ => rfl) (h.advance (fun _ _ => rfl) _)).bind
      fun uid => ?_
    refine (Within.onPerf _).bind fun _ => ?_
    refine (within_initOptions hH hset origin).bind fun _ => ?_
    refine (within_initPhases h hrun).bind fun _ => (Within.onPerf _).bind fun _ => ?_
    refine (Within.getInstance vm).bind fun i => (Within.onPerf _).bind fun _ => ?_
    rw [mountNamed]
    cases i.options.field (·.el) with
    | some el => exact hmount el
    | none => exact Within.pure ()
  refine (Within.getInstance vm).bind fun i => ?_
  refine Within.ite ((Within.throw (hH _)).bind fun _ => ?_) ?_
  all_goals exact Within.ite ((within_warn vm _).bind fun _ => Within.pure ()) hrest

end Eng

/-! ## Making and mounting -/

/-- An instance without what mounting changes of it, but for its options. -/
def Instance.unshown (i : Instance) : Instance :=
  { i with
    isMounted := false
    vnode := none
    staticTrees := []
    pendingMounted := []
    el := none }

/-- What a field says that mounting does not change. -/
theorem Instance.read_of_unshown {i i' : Instance} (h : i'.unshown = i.unshown)
    (f : Instance → β) (hf : ∀ j : Instance, f j.unshown = f j) : f i' = f i := by
  rw [← hf i', ← hf i, h]

/-- A relation that allows for what mounting an instance changes of it, for compiling its template,
for telling of it, and for changing the host page. -/
structure Eng.Showing (R : World → World → Prop) : Prop where
  own {f : Instance → Instance} (hf : ∀ i, (f i).unshown = i.unshown) (vm : InstanceId)
    (w : World) : R w { w with instances := w.instances.modify vm f }
  compile {H : Halt → Prop} (rt : Runtime) (vm : InstanceId) (el : Option NodeId) :
    Eng.Within R H (Eng.ensureRender rt vm el)
  record {o : Occurrence} (ho : ∀ b, o.what.phase? b = none) (w : World) :
    R w { w with chronicle := w.chronicle.push o }
  host (w : World) (host : Host) : R w { w with host }

namespace Eng

theorem Showing.set (h : Showing R) {vm : InstanceId} {f : Instance → Instance}
    (hf : ∀ i, (f i).unshown = i.unshown) : Within R H (modifyInstance vm f) :=
  Within.modifyInstance vm (h.own hf vm)

theorem Showing.tell (h : Showing R) {vm : InstanceId} {what : Happening}
    (hwhat : ∀ b, what.phase? b = none) : Within R H (Eng.record vm what) :=
  Within.modifyGet fun w => h.record hwhat w

/-- Makes an instance and initializes it. -/
def make (rt : Runtime) (run : Runner) (mount : Mounting) (ctor : ClassId) (origin : Origin) :
    Eng InstanceId := do
  let vm ← allocate ctor
  setUp rt run mount vm origin
  return vm

section

variable [World.Slack R] {rt : Runtime} {run : Runner} {vm : InstanceId} {mount : Mounting}

/-- An instance is blank before it is initialized. -/
theorem Ends.make {w : World} {ctor : ClassId} {origin : Origin}
    {P : Except Halt Unit → World → Prop} {Q : Except Halt InstanceId → World → Prop}
    (h : Ends (setUp rt run mount w.instances.size origin)
      { w with instances := w.instances.push { ctor } } P)
    (ok : ∀ w', P (.ok ()) w' → Q (.ok w.instances.size) w')
    (error : ∀ e w', P (.error e) w' → Q (.error e) w') :
    Ends (make rt run mount ctor origin) w Q := by
  refine Ends.next (a := w.instances.size) rfl ?_
  exact h.bind (fun _ => ok) error

omit [World.Slack R] in
/-- Making an instance keeps to a relation if, of a world in which the blank instance is there,
initializing it keeps to another that allows for its phases. -/
theorem within_make {S : InstanceId → World → World → Prop} [∀ c, World.Slack (S c)]
    (hH : ∀ e, H (.fatal e)) (hrun : ∀ c vm args s, Within (S c) H (run vm args s))
    (hnew : ∀ ctor w w', S w.instances.size { w with instances := w.instances.push { ctor } } w' →
      R w w') (hraising : ∀ c, Raising (S c) c)
    (hset : ∀ c options, Within (S c) H (modifyInstance c ({ · with options })))
    (hmount : ∀ c el, Within (S c) H (mount c (some el) false)) (ctor : ClassId)
    (origin : Origin) : Within R H (make rt run mount ctor origin) := by
  intro w
  have hsetUp : Within (S w.instances.size) H (setUp rt run mount w.instances.size origin) :=
    within_setUp hH (hrun _) (hraising _) (hset _) (hmount _) origin
  show Ends (make rt run mount ctor origin) w fun r w' => R w w' ∧ ∀ e, r = .error e → H e
  refine Ends.make (Ends.of_within hsetUp _) (fun w' h => ⟨hnew ctor w w' h.1, nofun⟩)
    fun e w' h => ⟨hnew ctor w w' h.1, fun e' he => ?_⟩
  cases he
  exact h.2 e rfl

theorem within_createChild (hH : ∀ e, H (.fatal e)) {parent : InstanceId} {p : Placeholder}
    (hmake : Within R H (make rt run mount p.ctor (.child parent p none []))) :
    Within R H (createChild rt run mount parent p) :=
  (Within.forging hH _).bind fun _ => hmake

theorem within_expandPlaceholder {parent : InstanceId} {p : Placeholder}
    (hcreate : Within R H (createChild rt run mount parent p))
    (hmount : ∀ c, Within R H (mount c none false))
    (hset : ∀ c, Within R H (modifyInstance c ({ · with pendingMounted := [] }))) :
    Within R H (expandPlaceholder rt run mount parent p) :=
  hcreate.bind fun child => (hmount child).bind fun _ => (Within.getInstance child).bind fun _ =>
    (hset child).bind fun _ => Within.pure _

/-- Rendering an instance with everything below it. -/
theorem within_renderBelow (hrun : ∀ vm args s, Within R H (run vm args s)) (hfuel : H .outOfFuel)
    (hel : ∀ el, Within R H (modifyInstance vm ({ · with el })))
    (hkeep : ∀ e, Within R H
      (modifyInstance vm fun i => { i with staticTrees := e :: i.staticTrees }))
    (hhook : ∀ f, Within R H (record vm (.ran vm (.hook .beforeMount f))))
    (hrendered : ∀ tree, Within R H (record vm (.rendered vm tree)))
    (hexpand : ∀ p, Within R H (expandPlaceholder rt run mount vm p)) (target : Option NodeId) :
    Within R H (renderBelow rt run mount vm target) := by
  refine (hel target).bind fun _ => (within_warnUnrendered target).bind fun _ => ?_
  refine (within_callHook hrun .beforeMount hhook).bind fun _ => ?_
  refine (within_renderInstance hrun hfuel hkeep).bind fun rendered => ?_
  exact (hrendered rendered).bind fun _ => within_expand hexpand rendered

/-- Puts a rendered tree into the host page, and then finishes those that wait below the instance
and the instance itself. -/
def land (rt : Runtime) (run : Runner) (vm : InstanceId) (target : Option NodeId) (tree : VNode)
    (queue : List InstanceId) (hydrating : Bool) : Eng Unit := do
  let el ← patch rt vm target tree hydrating
  record vm (.patched vm)
  modifyInstance vm ({ · with el })
  queue.forM (finishMounted rt run)
  finishMounted rt run vm

/-- What is rendered lands, unless the instance is a child. -/
theorem patchMount_eq (target : Option NodeId) (hydrating : Bool) :
    patchMount rt run mount vm target hydrating = (do
      let (tree, queue) ← renderBelow rt run mount vm target
      modifyInstance vm ({ · with vnode := some tree })
      if (← getInstance vm).parentVNode.isSome then
        modifyInstance vm ({ · with pendingMounted := queue })
      else land rt run vm target tree queue hydrating) := rfl

theorem within_finishMounted (hrun : ∀ vm args s, Within R H (run vm args s))
    (hset : Within R H (modifyInstance vm ({ · with isMounted := true })))
    (hhook : ∀ f, Within R H (record vm (.ran vm (.hook .mounted f)))) :
    Within R H (finishMounted rt run vm) :=
  hset.bind fun _ => within_callHook hrun .mounted hhook

theorem within_mountOn {el : Option NodeId} {hydrating : Bool}
    (hcompile : Within R H (ensureRender rt vm el))
    (hpatch : Within R H (patchMount rt run mount vm el hydrating)) :
    Within R H (mountOn rt run mount vm el hydrating) := by
  refine (within_refuses el).bind fun refused => Within.ite (within_warn vm _) ?_
  refine hcompile.bind fun ready => Within.ite ?_ (Within.pure ())
  cases rt.mounter with
  | patch => exact hpatch
  | recorder => exact within_recordMount el hydrating

theorem within_mountWith (target : Option MountTarget) (hydrating : Bool)
    (hon : ∀ el, Within R H (mountOn rt run mount vm el hydrating)) :
    Within R H (mountWith rt run mount vm target hydrating) := by
  cases target with
  | none => exact (Within.pure none).bind hon
  | some t => exact (within_resolveTarget t).bind hon

end

section

variable [World.Slack R] {rt : Runtime} {run : Runner} (h : Showing R)
  (hrun : ∀ vm args s, Within R H (run vm args s)) (hfuel : H .outOfFuel)
include h hrun

theorem within_land (vm : InstanceId) (target : Option NodeId) (tree : VNode)
    (queue : List InstanceId) (hydrating : Bool) :
    Within R H (land rt run vm target tree queue hydrating) := by
  have hfinish : ∀ vm, Within R H (finishMounted rt run vm) := fun vm =>
    within_finishMounted hrun (h.set fun _ => rfl) fun _ => h.tell fun _ => rfl
  have hhost : ∀ {α : Type} (f : Host → α × Host), Within R H (onHost f) := fun f =>
    Within.modifyGet fun w => h.host w _
  refine (within_patch target tree hydrating hhost).bind fun el => ?_
  refine Within.bind (h.tell fun _ => rfl) fun _ => Within.bind (h.set fun _ => rfl) fun _ => ?_
  exact (Within.forM hfinish queue).bind fun _ => hfinish vm

include hfuel

theorem within_patchMount {mount : Mounting} (vm : InstanceId)
    (hexpand : ∀ p, Within R H (expandPlaceholder rt run mount vm p)) (target : Option NodeId)
    (hydrating : Bool) : Within R H (patchMount rt run mount vm target hydrating) := by
  rw [patchMount_eq]
  refine (within_renderBelow hrun hfuel (fun _ => h.set fun _ => rfl) (fun _ => h.set fun _ => rfl)
    (fun _ => h.tell fun _ => rfl) (fun _ => h.tell fun _ => rfl) hexpand target).bind fun out => ?_
  refine Within.bind (h.set fun _ => rfl) fun _ => (Within.getInstance vm).bind fun i => ?_
  exact Within.ite (h.set fun _ => rfl) (within_land h hrun vm target out.1 out.2 hydrating)

/-- **Mounting** keeps to a relation that allows for what it changes of an instance, if making
children does. -/
theorem within_mountAt (hcreate : ∀ mount : Mounting,
      (∀ vm target hydrating, Within R H (mount vm target hydrating)) →
        ∀ parent p, Within R H (createChild rt run mount parent p))
    (fuel : Nat) (vm : InstanceId) (target : Option MountTarget) (hydrating : Bool) :
    Within R H (mountAt rt run fuel vm target hydrating) := by
  induction fuel generalizing vm target hydrating with
  | zero => exact Within.throw hfuel
  | succ fuel ih =>
    have hexpand : ∀ p, Within R H (expandPlaceholder rt run (mountAt rt run fuel) vm p) := fun p =>
      within_expandPlaceholder (hcreate _ ih vm p) (fun c => ih c none false) fun c =>
        h.set fun _ => rfl
    refine within_mountWith target hydrating fun el => ?_
    exact within_mountOn (h.compile rt vm el)
      (within_patchMount h hrun hfuel vm hexpand el hydrating)

end

end Eng

instance {A : Aspect β} {P : InstanceId → Prop} : World.Lax (World.Same A P) where
  aside h _ _ := ⟨Nat.le_of_eq (congrArg Array.size h.symm), fun b _ _ => by rw [h]⟩

instance : World.Lax World.Still where
  aside _ h _ := h

theorem size_le_of_push {is : Array Instance} {i : Instance} {n : Nat}
    (h : (is.push i).size ≤ n) : is.size ≤ n := by
  rw [Array.size_push] at h
  exact Nat.le_of_succ_le h

/-- What holds of all but the new instance holds of all that were there. -/
theorem forall_of_push {is : Array Instance} {i : Instance} {P : InstanceId → Instance → Prop}
    (h : ∀ b, b ≠ is.size → b < (is.push i).size → P b ((is.push i).getD b default)) :
    ∀ b < is.size, P b (is.getD b default) := by
  intro b hlt
  have hne : b ≠ is.size := Nat.ne_of_lt hlt
  rw [← getD_push_of_ne hne]
  exact h b hne (Array.size_push i ▸ Nat.lt_succ_of_lt hlt)

/-- A blank instance is new, and the others are as they were. -/
theorem World.Same.of_push {A : Aspect β} {w w' : World} {ctor : ClassId}
    (h : World.Same A (· ≠ w.instances.size) { w with instances := w.instances.push { ctor } } w') :
    World.Same A (fun _ => True) w w' where
  size := size_le_of_push h.size
  read b _ := forall_of_push (P := fun b i => A.read (w'.instances.getD b default) = A.read i)
    h.read b

/-! ## Phases of instances -/

/-- The instances of `P` that there are have gone through no phase in between. -/
structure World.Onward (P : InstanceId → Prop) (w w' : World) : Prop where
  size : w.instances.size ≤ w'.instances.size
  phases : ∀ b, P b → b < w.instances.size → w'.phases b = w.phases b

namespace World.Onward

variable {P : InstanceId → Prop} {w w' w'' : World} {vm : InstanceId}

theorem of_still (hsize : w.instances.size ≤ w'.instances.size)
    (h : w'.chronicle = w.chronicle) : World.Onward P w w' :=
  ⟨hsize, fun b _ _ => by rw [World.phases, World.steps, h]; rfl⟩

theorem trans (h : World.Onward P w w') (h' : World.Onward P w' w'') : World.Onward P w w'' where
  size := Nat.le_trans h.size h'.size
  phases b hb hlt := (h'.phases b hb (Nat.lt_of_lt_of_le hlt h.size)).trans (h.phases b hb hlt)

instance : World.Lax (World.Onward P) where
  refl _ := of_still (Nat.le_refl _) rfl
  trans := trans
  acted h := of_still (Nat.le_of_eq h.size.symm) (h.read (·.chronicle) fun _ => rfl)
  access {w w' vm a} h := by
    have hused : (Eng.setAccess vm a w).instances.size = w.instances.size := Array.size_modify
    exact ⟨Nat.le_trans (hused ▸ h.size) (Nat.le_of_eq Array.size_modify.symm), fun b hb hlt =>
      h.phases b hb (hused.symm ▸ hlt)⟩
  aside hinstances hchronicle _ :=
    of_still (Nat.le_of_eq (congrArg Array.size hinstances.symm)) hchronicle

theorem set {f : Instance → Instance} :
    Eng.Within (World.Onward P) H (Eng.modifyInstance vm f) :=
  Eng.Within.modifyInstance vm fun _ => of_still (Nat.le_of_eq Array.size_modify.symm) rfl

/-- A new entry that is of no phase, or of an instance that does not count. -/
theorem push (w : World) {o : Occurrence} (ho : ∀ b, P b → o.what.phase? b = none) :
    World.Onward P w { w with chronicle := w.chronicle.push o } where
  size := Nat.le_refl _
  phases b hb _ := by
    rw [World.phases, World.steps, Array.toList_push, List.map_append, List.filterMap_append]
    show w.phases b ++ [o.what].filterMap (Happening.phase? b) = w.phases b
    rw [List.filterMap_cons_none (ho b hb), List.filterMap_nil, List.append_nil]

theorem record {what : Happening} (hwhat : ∀ b, P b → what.phase? b = none) :
    Eng.Within (World.Onward P) H (Eng.record vm what) :=
  Eng.Within.modifyGet fun w => push w hwhat

/-- The phases of an instance do not count for the others. -/
theorem raising (vm : InstanceId) : Eng.Raising (World.Onward (· ≠ vm)) vm where
  own _ _ := of_still (Nat.le_of_eq Array.size_modify.symm) rfl
  adopt _ _ := of_still (Nat.le_of_eq Array.size_modify.symm) rfl
  record {o} ho w := push w fun b hb => by
    obtain ⟨what, found⟩ := o
    cases what with
    | entered c phase => exact if_neg fun hc => hb (hc.symm.trans ho)
    | ran _ _ => rfl
    | rendered _ _ => rfl
    | patched _ => rfl

end World.Onward

/-- What mounting changes of an instance is no phase. -/
theorem World.Onward.showing {P : InstanceId → Prop} : Eng.Showing (World.Onward P) where
  own _ _ _ := of_still (Nat.le_of_eq Array.size_modify.symm) rfl
  compile _ _ el := Eng.within_ensureRender el fun _ _ => set
  record ho w := push w fun b _ => ho b
  host _ _ := of_still (Nat.le_refl _) rfl

/-- **Mounting** takes no instance that is there through any phase. -/
theorem Eng.onward_mountAt {rt : Runtime} {run : Runner}
    (hrun : ∀ {P : InstanceId → Prop} vm args s,
      Within (World.Onward P) (fun _ => True) (run vm args s)) (fuel : Nat) (vm : InstanceId)
    (target : Option MountTarget) (hydrating : Bool) :
    Within (World.Onward fun _ => True) (fun _ => True)
      (mountAt rt run fuel vm target hydrating) := by
  refine within_mountAt World.Onward.showing hrun trivial (fun mount hmount parent p => ?_) fuel vm
    target hydrating
  -- only the child goes through phases, and it is new
  refine within_createChild (fun _ => trivial) (within_make (S := fun c => World.Onward (· ≠ c))
    (fun _ => trivial) (fun _ => hrun) (fun ctor w w' h => ?_) World.Onward.raising
    (fun _ _ => World.Onward.set) (fun c el => (hmount c (some el) false).mono fun _ _ h => ?_) _ _)
  · have hpush : (w.instances.push { ctor }).size = w.instances.size + 1 := Array.size_push _
    refine ⟨Nat.le_trans (hpush ▸ Nat.le_succ _) h.size, fun b _ hlt => ?_⟩
    exact h.phases b (Nat.ne_of_lt hlt) (hpush ▸ Nat.lt_succ_of_lt hlt)
  · exact ⟨h.size, fun b _ hlt => h.phases b trivial hlt⟩

end Componentry
