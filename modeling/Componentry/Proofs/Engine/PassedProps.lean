import Componentry.Proofs.Class.OwnName
import Componentry.Proofs.Engine.Calm
import Componentry.Proofs.Engine.Properties
import Componentry.Proofs.Options.PropNames

/-!
# Passing props in either spelling

A prop may be declared under a camel name or under the same name with dashes, and its value may be
passed under either. Declared names are made camel names of, and a value is looked for under both
spellings. So it makes no difference which ones are used.

- `Options.DeclaresProp`: options that declare a prop, or that were merged of some that do.
- `Classes.declaresProp_extend`: a class that is made declares what its definition does.
- `Eng.run_initProps`: **the props of an instance**: what was passed, or else the defaults.
- `World.PropKept`: a prop stays as it is unless a call meanwhile sets it.
- `Eng.ends_initPhases_prop`: the phases after the props are there keep them.
- `Eng.spellings_interchangeable`: **either spelling leads to the other, and to the prop**.
-/

namespace Componentry

open Json (Value Record)

variable {cfg : Config} {rt : Runtime} {run : Runner} {H : Halt → Prop} {w w' : World}
  {vm : InstanceId} {key name : String} {o : Options}

/-! ## Declaring -/

/-- The options declare a prop under the name, or they were merged of some that do, or they have the
props of some that do. -/
inductive Options.DeclaresProp (cfg : Config) (name : String) : Options → Prop
  | written {o : Options} {decl : PropsDecl} (hdecl : valueOf o.fields.props = some decl)
      (hname : name ∈ decl.written) : DeclaresProp cfg name o
  | merged {i : Bool} {p d e m : Options} (hm : Gives (Options.merge cfg i p d) (.ok m))
      (he : e = p ∨ e ∈ d.linearize) (h : DeclaresProp cfg name e) : DeclaresProp cfg name m
  | alike {a b : Options} (h : DeclaresProp cfg name a) (hsame : b.propsMap = a.propsMap) :
      DeclaresProp cfg name b

/-- A prop is there under its camel name, if that is its own camel name. -/
theorem Options.DeclaresProp.mem_keys (h : o.DeclaresProp cfg name)
    (hcamel : Text.camelize (Text.camelize name) = Text.camelize name) :
    Text.camelize name ∈ Dict.keys o.propsMap := by
  induction h with
  | @written o decl hdecl hname =>
    rw [Options.propsMap_eq, hdecl]
    exact PropsDecl.mem_keys_normalized.mpr ⟨name, hname, rfl⟩
  | @merged i p d e m hm he _ ih =>
    have hresult : Options.mergeResult cfg p d = .ok m :=
      (Options.merge_gives cfg i p d {}).symm.trans (hm {})
    refine mem_keys_layered hcamel hresult ?_
    rcases he with rfl | he
    · exact .inl ih
    · exact .inr ⟨e, he, ih⟩
  | alike _ hsame ih => rwa [hsame]

/-- A class that is made declares the props of its super class, and those of its definition and of
the base and the mixins of that. -/
theorem Change.declaresProp_made {f f' : Forest} {s : ClassId} {d e : Options}
    (h : Change cfg f f' (.made s d)) (he : e = (f.get s).options.value ∨ e ∈ d.linearize)
    (hdecl : e.DeclaresProp cfg name) : (f'.get f.size).options.value.DeclaresProp cfg name := by
  cases h with
  | @made _ _ m p _ _ hm hp ho _ _ =>
    obtain ⟨m', hm', hsame⟩ := Options.mergeResult_alike
      (Eq.refl (f.get s).options.value.unmarked) (d.placed_unmarked f.nextMark) hm
    have hmerged : m'.DeclaresProp cfg name :=
      .merged (i := false) (fun j => (Options.merge_gives cfg false _ d j).trans hm') he hdecl
    rw [ho.here]
    subst hp
    refine hmerged.alike ?_
    rw [Options.stored]
    exact ((Entries.of_unmarked .props (Options.placed_unmarked _ _)).trans
      (Entries.of_withSelf .props m _ _)).trans (Entries.of_unmarked .props hsame.symm)

/-- **A class that is made declares what its definition does.** -/
theorem Classes.declaresProp_extend {f f' : Forest} {c s : ClassId} {d e : Options}
    (hf : f.Grounded) (hs : s < f.size) (hext : (Classes.extend cfg s d).exec f = (.ok c, f'))
    (he : e = (f'.get s).options.value ∨ e ∈ d.linearize) (hdecl : e.DeclaresProp cfg name) :
    (f'.get c).options.value.DeclaresProp cfg name := by
  obtain ⟨g, -, rfl, hmade⟩ := Classes.extend_made hf hs hext
  rw [hmade.super_made.2] at he
  exact hmade.declaresProp_made he hdecl

/-- A child declares the props that its class does. -/
theorem InstanceOptions.props_childOptions (o : Placed Options) (parent : InstanceId)
    (p : Placeholder) (render : Option RenderFn) (statics : List RenderFn) :
    (Eng.childOptions o parent p render statics).props = o.value.propsMap := by
  have hpart : (Eng.childOptions o parent p render statics).part (·.props) =
      valueOf o.value.fields.props := by cases render <;> rfl
  rw [InstanceOptions.props, hpart, Options.propsMap_eq]
  cases valueOf o.value.fields.props <;> rfl

theorem InstanceOptions.propsData_childOptions (o : Placed Options) (parent : InstanceId)
    (p : Placeholder) (render : Option RenderFn) (statics : List RenderFn) :
    (Eng.childOptions o parent p render statics).propsData = some p.props := by
  cases render <;> rfl

theorem InstanceOptions.ordered_props (o : InstanceOptions) : Dict.Ordered o.props := by
  rw [InstanceOptions.props]
  split
  · exact PropsDecl.ordered_normalized _
  · exact Dict.ordered_nil

/-! ## Receiving -/

namespace Eng

/-- The value of a prop: what was passed for it, or else its default. -/
def received (passed : Record) (key : String) (o : PropOptions) : Value :=
  (passedValue passed key).getD (o.default.getD .null)

theorem run_propValue (rt : Runtime) (w : World) (vm : InstanceId) (key : String)
    (o : PropOptions) (passed : Record) :
    ∃ notes, (propValue rt vm key o (passedValue passed key)).run.run w =
      (.ok (received passed key o), w.noted notes) := by
  -- there may be a warning first
  have hwarned : ∀ (c : Bool) (message : String) (v : Value), ∃ notes,
      (do if c then warn rt vm message
          return v : Eng Value).run.run w = (.ok v, w.noted notes) := by
    intro c message v
    cases c with
    | true =>
      refine ⟨rt.warningOf w vm message, ?_⟩
      show (warn rt vm message >>= fun _ => pure v).run.run w = _
      rw [ExceptT.run_bind, StateT.run_bind, run_warn]
      rfl
    | false => exact ⟨[], rfl⟩
  rw [received]
  cases passedValue passed key with
  | none => exact hwarned o.required _ _
  | some v => exact hwarned (!acceptsProp o v) _ v

/-- Adds a prop with what it receives. -/
def propOne (rt : Runtime) (vm : InstanceId) (passed d : Record) (e : String × PropOptions) :
    Eng Record := do
  return Dict.insert e.1 (← propValue rt vm e.1 e.2 (passedValue passed e.1)) d

theorem run_props (rt : Runtime) (w : World) (vm : InstanceId) (passed base : Record)
    {declared : Dict PropOptions} (h : Dict.Ordered declared) :
    ∃ props notes, (declared.foldlM (propOne rt vm passed) base).run.run w =
        (.ok props, w.noted notes) ∧
      ∀ key, Dict.get? props key =
        ((Dict.get? declared key).map (received passed key) <|> Dict.get? base key) := by
  induction declared generalizing w base with
  | nil => exact ⟨base, [], rfl, fun _ => rfl⟩
  | cons e rest ih =>
    obtain ⟨notes, hvalue⟩ := run_propValue rt w vm e.1 e.2 passed
    obtain ⟨props, notes', hrest, hget⟩ := ih (w.noted notes)
      (Dict.insert e.1 (received passed e.1 e.2) base) (List.pairwise_cons.mp h).2
    refine ⟨props, notes ++ notes', ?_, fun key => ?_⟩
    · have hone : (propOne rt vm passed base e).run.run w =
          (.ok (Dict.insert e.1 (received passed e.1 e.2) base), w.noted notes) := by
        rw [propOne, ExceptT.run_bind, StateT.run_bind, hvalue]
        rfl
      rw [List.foldlM_cons, ExceptT.run_bind, StateT.run_bind, hone, World.noted_append]
      exact hrest
    · have htail := Dict.get?_tail h
      obtain ⟨k, o⟩ := e
      rw [hget, Dict.get?_insert, Dict.get?]
      by_cases hkey : key = k
      · subst hkey
        rw [if_pos rfl, if_pos rfl, htail]
        rfl
      · rw [if_neg hkey, if_neg hkey]

/-- **The props of an instance** are those that it declares, each with what was passed for it in
either spelling, or else its default. There may be warnings, and nothing else changes. -/
theorem run_initProps (rt : Runtime) (w : World) (vm : InstanceId) :
    ∃ props notes, (initProps rt vm).run.run w = (.ok (), { w.noted notes with
        instances := w.instances.modify vm ({ · with props }) }) ∧
      ∀ key, Dict.get? props key =
        (Dict.get? (w.instances.getD vm default).options.props key).map
          (received ((w.instances.getD vm default).options.propsData.getD []) key) := by
  let i := w.instances.getD vm default
  obtain ⟨props, notes, hrun, hget⟩ :=
    run_props rt w vm (i.options.propsData.getD []) [] i.options.ordered_props
  have hends : Ends (initProps rt vm) w fun r w' => r = .ok () ∧ w' = { w.noted notes with
      instances := w.instances.modify vm ({ · with props }) } :=
    Ends.getInstanceThen (Ends.next hrun ⟨rfl, rfl⟩)
  refine ⟨props, notes, Prod.ext hends.1 hends.2, fun key => ?_⟩
  rw [hget]
  cases Dict.get? i.options.props key <;> rfl

end Eng

/-! ## Keeping -/

/-- There were more calls of author's code, and unless one of them sets the prop, it stayed as it
was. -/
def World.PropKept (vm : InstanceId) (key : String) (w w' : World) : Prop :=
  ∃ calls, w'.invoked.toList = w.invoked.toList ++ calls ∧ (NobodySets vm key calls →
    Dict.get? (w'.instances.getD vm default).props key =
      Dict.get? (w.instances.getD vm default).props key)

namespace World.PropKept

theorem of_traced (h : World.Traced vm key w w') : w.PropKept vm key w' := by
  obtain ⟨calls, hcalls, hkept⟩ := h
  refine ⟨calls, hcalls, fun hnobody => ?_⟩
  rcases hkept with ⟨c, hc, hsets⟩ | hslot
  · exact absurd hsets (hnobody c hc)
  · exact congrArg Prod.fst hslot

/-- Changing an instance, but not its props. -/
theorem modify (w : World) (b : InstanceId) {f : Instance → Instance}
    (hf : ∀ i, (f i).props = i.props) :
    World.PropKept vm key w { w with instances := w.instances.modify b f } := by
  refine ⟨[], (List.append_nil _).symm, fun _ => ?_⟩
  have hprops : ((w.instances.modify b f).getD vm default).props =
      (w.instances.getD vm default).props :=
    forall_getD_modify (P := fun i i' => i'.props = i.props) (fun _ => rfl) (hf _) vm
  exact congrArg (Dict.get? · key) hprops

theorem props_setAccess (vm b : InstanceId) (a : Access) (w : World) :
    ((Eng.setAccess b a w).instances.getD vm default).props =
      (w.instances.getD vm default).props :=
  forall_getD_modify (P := fun i i' => i'.props = i.props) (fun _ => rfl) rfl vm

instance : World.Lenient (World.PropKept vm key) where
  refl w := ⟨[], (List.append_nil _).symm, fun _ => rfl⟩
  trans := by
    rintro w w' w'' ⟨calls, hcalls, h⟩ ⟨calls', hcalls', h'⟩
    refine ⟨calls ++ calls', by rw [hcalls', hcalls, List.append_assoc], fun hnobody => ?_⟩
    obtain ⟨hfirst, hsecond⟩ := List.forall_mem_append.mp hnobody
    exact (h' hsecond).trans (h hfirst)
  aside h := by
    obtain ⟨calls, hcalls⟩ := h.invoked
    exact ⟨calls, hcalls.symm, fun _ => h.read vm (fun i => Dict.get? i.props key) fun _ => rfl⟩
  access := by
    rintro w w' b a ⟨calls, hcalls, h⟩
    refine ⟨calls, hcalls, fun hnobody => ?_⟩
    rw [props_setAccess, h hnobody, props_setAccess]

end World.PropKept

namespace Eng

/-! ## Before the props, and after them -/

/-- The phases until the props are set up. -/
def beforeProps (rt : Runtime) (run : Runner) (vm : InstanceId) : Eng Unit := do
  initPlace rt vm
  callHook rt run vm .beforeCreate
  advance vm .beforeCreate
  initInjections rt vm
  advance vm .injectionsResolved

/-- The phases once the props are set up. -/
def afterProps (rt : Runtime) (run : Runner) (vm : InstanceId) : Eng Unit := do
  initMethods rt vm
  initData rt run vm
  initComputed rt run vm
  initWatch rt run vm
  advance vm .stateReady
  initProvided rt run vm
  advance vm .provided
  callHook rt run vm .created
  advance vm .created

theorem initPhases_eq (rt : Runtime) (run : Runner) (vm : InstanceId) : initPhases rt run vm =
    beforeProps rt run vm >>= fun _ => initProps rt vm >>= fun _ => afterProps rt run vm := by
  simp only [initPhases, initOwn, initState, beforeProps, afterProps, bind_assoc]

theorem within_beforeProps {R : World → World → Prop} [World.Lenient R] (h : Raising R vm)
    (hrun : ∀ vm args s, Within R H (run vm args s)) : Within R H (beforeProps rt run vm) := by
  have hfill := Raising.filling h
  have advance : ∀ phase, Within R H (Eng.advance vm phase) := hfill.advance fun _ _ => rfl
  refine (within_initPlace (Raising.placing h)).bind fun _ => ?_
  refine (within_callHook hrun _ fun _ => hfill.enter rfl).bind fun _ => (advance _).bind fun _ => ?_
  refine (within_initInjections fun _ => hfill.set fun _ => rfl).bind fun _ => ?_
  exact advance _

/-- **The phases after the props** change no prop but by the scripts that they run. -/
theorem within_afterProps (hrun : ∀ b args s, Within (World.PropKept vm key) H (run b args s)) :
    Within (World.PropKept vm key) H (afterProps rt run vm) := by
  have change : ∀ {f : Instance → Instance}, (∀ i, (f i).props = i.props) →
      Within (World.PropKept vm key) H (modifyInstance vm f) := fun hf =>
    Within.modifyInstance vm fun w => World.PropKept.modify w vm hf
  have enter : ∀ what, Within (World.PropKept vm key) H (record vm what) := fun what =>
    Within.modifyGet fun w => ⟨[], (List.append_nil _).symm, fun _ => rfl⟩
  have advance : ∀ phase, Within (World.PropKept vm key) H (Eng.advance vm phase) := fun phase =>
    within_advance (enter _) (change fun _ => rfl)
  refine (within_initMethods fun _ => change fun _ => rfl).bind fun _ => ?_
  refine (within_initData hrun (enter _) fun _ => change fun _ => rfl).bind fun _ => ?_
  refine (within_initComputed hrun fun _ _ => change fun _ => rfl).bind fun _ => ?_
  refine (within_initWatch hrun fun _ => change fun _ => rfl).bind fun _ => (advance _).bind fun _ => ?_
  refine (within_initProvided hrun (enter _) fun _ => change fun _ => rfl).bind fun _ =>
    (advance _).bind fun _ => ?_
  exact (within_callHook hrun _ fun _ => enter _).bind fun _ => advance _

/-- Author's code runs before the props are there as well, but it changes no options. -/
theorem within_quietBefore (rt : Runtime) (vm : InstanceId) :
    Within (fun w w' => World.Calm w w' ∧ World.MoreCalls w w') Halt.Endless
      (beforeProps rt rt.run vm) := by
  have hmore : Raising World.MoreCalls vm :=
    { own := fun _ _ => List.prefix_rfl
      record := fun _ _ => List.prefix_rfl
      adopt := fun _ _ => List.prefix_rfl }
  have hscripts : ∀ b args s, Within World.MoreCalls Halt.Endless (rt.run b args s) :=
    within_scripts (H := Halt.Endless) rfl rt (fun hrun => moreCalls_set hrun) rt.fuel
  exact (within_beforeProps (World.Calm.raising vm) rt.calm_run).and
    (within_beforeProps hmore hscripts)

/-- **A prop through all phases.** When they have come to their end, the prop is what was received
for it, unless a script meanwhile sets it. -/
theorem ends_initPhases_prop (rt : Runtime) {o : PropOptions} (hlt : vm < w.instances.size)
    (ho : Dict.get? (w.instances.getD vm default).options.props key = some o) :
    Ends (initPhases rt rt.run vm) w fun r w' => (r = .ok () ∨ r = .error .outOfFuel) ∧
      ∃ calls, w'.invoked.toList = w.invoked.toList ++ calls ∧
        (r = .ok () → NobodySets vm key calls →
          Dict.get? (w'.instances.getD vm default).props key =
            some (received ((w.instances.getD vm default).options.propsData.getD []) key o)) := by
  have hscripts : ∀ b args s, Within (World.PropKept vm key) Halt.Endless (rt.run b args s) :=
    fun b args s => (traced_runScript (H := Halt.Endless) rfl rt vm key rt.fuel b args s).mono
      fun _ _ => World.PropKept.of_traced
  rw [initPhases_eq]
  refine Ends.after (within_quietBefore rt vm) ?_ ?_
  · rintro ⟨⟩ w₁ ⟨hcalm, calls₁, hcalls₁⟩
    obtain ⟨props, notes, hprops, hget⟩ := run_initProps rt w₁ vm
    refine Ends.next hprops ?_
    refine (Ends.of_within (within_afterProps hscripts) _).imp ?_
    rintro r w₂ ⟨⟨calls₂, hcalls₂, hkept⟩, hends⟩
    refine ⟨?_, calls₁ ++ calls₂, ?_, fun _ hnobody => ?_⟩
    · cases r with
      | ok a => exact .inl rfl
      | error e => exact .inr (by rw [hends e rfl])
    · rw [hcalls₂, ← List.append_assoc, hcalls₁]
      rfl
    · rw [hkept (List.forall_mem_append.mp hnobody).2, getD_modify (hcalm.size ▸ hlt), hget,
        hcalm.options, ho]
      rfl
  · rintro e w₁ ⟨-, calls, hcalls⟩ he
    exact ⟨.inr (by rw [he]), calls, hcalls.symm, fun hok => by cases hok⟩

/-! ## Either spelling -/

/-- What is passed under one of the spellings of a declared name is received under its camel
name. -/
theorem received_childOptions {k : String} {o : Placed Options} {p : Placeholder} {v : Value}
    (hk : Text.Kebab k) (hname : name = k ∨ name = Text.camelize k)
    (hdecl : o.value.DeclaresProp cfg name)
    (hpassed : (Dict.get? p.props (Text.camelize k) <|> Dict.get? p.props k) = some v)
    (parent : InstanceId) (render : Option RenderFn) (statics : List RenderFn) :
    ∃ po, Dict.get? (childOptions o parent p render statics).props (Text.camelize k) = some po ∧
      received ((childOptions o parent p render statics).propsData.getD []) (Text.camelize k) po =
        v := by
  obtain ⟨hcamel, hback⟩ := hk.camelize
  have hspelled : Text.camelize name = Text.camelize k := by
    rcases hname with rfl | rfl
    · rfl
    · exact hcamel.camelize
  have hmem := hdecl.mem_keys (by rw [hspelled, hcamel.camelize])
  rw [hspelled] at hmem
  obtain ⟨po, hpo⟩ := Dict.exists_get?_of_mem_keys o.value.ordered_propsMap hmem
  refine ⟨po, by rw [InstanceOptions.props_childOptions, hpo], ?_⟩
  rw [InstanceOptions.propsData_childOptions, Option.getD_some, received, passedValue, hback,
    hpassed, Option.getD_some]

/-- **Either spelling leads to the other, and to the prop.** Camel names and names with dashes
correspond to each other. Whichever one a class declares, and whichever one a value is passed under,
the prop of a child that has the camel name receives the value; where it is passed under both, that
is the one under the camel name. It keeps it through all phases, unless a script sets it. -/
theorem spellings_interchangeable (rt : Runtime) {k : String} {o : Placed Options}
    {p : Placeholder} {v : Value} (hk : Text.Kebab k)
    (hname : name = k ∨ name = Text.camelize k) (hdecl : o.value.DeclaresProp cfg name)
    (hpassed : (Dict.get? p.props (Text.camelize k) <|> Dict.get? p.props k) = some v)
    (hlt : vm < w.instances.size)
    (hclass : (w.forest.get (w.instances.getD vm default).ctor).options = o)
    (parent : InstanceId) (render : Option RenderFn) (statics : List RenderFn) :
    (Set.InvOn Text.hyphenate Text.camelize {s | Text.Kebab s} {s | Text.Camel s} ∧
      Set.BijOn Text.camelize {s | Text.Kebab s} {s | Text.Camel s} ∧
      Set.BijOn Text.hyphenate {s | Text.Camel s} {s | Text.Kebab s}) ∧
    (∀ w₁ : World,
      (w₁.instances.getD vm default).options = childOptions o parent p render statics →
        ∃ props notes, (initProps rt vm).run.run w₁ = (.ok (), { w₁.noted notes with
            instances := w₁.instances.modify vm ({ · with props }) }) ∧
          Dict.get? props (Text.camelize k) = some v) ∧
    Ends (initOptions rt vm (.child parent p render statics) >>= fun _ => initPhases rt rt.run vm) w
      fun r w' => (r = .ok () ∨ r = .error .outOfFuel) ∧
        ∃ calls, w'.invoked.toList = w.invoked.toList ++ calls ∧
          (r = .ok () → NobodySets vm (Text.camelize k) calls →
            Dict.get? (w'.instances.getD vm default).props (Text.camelize k) = some v) := by
  obtain ⟨po, hpo, hreceived⟩ :=
    received_childOptions hk hname hdecl hpassed parent render statics
  refine ⟨⟨Text.invOn_hyphenate_camelize, Text.bijOn_camelize, Text.bijOn_hyphenate⟩, ?_, ?_⟩
  · intro w₁ hoptions
    obtain ⟨props, notes, hrun, hget⟩ := run_initProps rt w₁ vm
    refine ⟨props, notes, hrun, ?_⟩
    rw [hget, hoptions, hpo, Option.map_some, hreceived]
  · let f : Instance → Instance := ({ · with options := childOptions o parent p render statics })
    have hoptions : (initOptions rt vm (.child parent p render statics)).run.run w =
        (.ok (), { w with instances := w.instances.modify vm f }) := by
      subst hclass
      rfl
    have hfound : ((w.instances.modify vm f).getD vm default).options =
        childOptions o parent p render statics := by rw [getD_modify hlt]
    have hlt' : vm < (w.instances.modify vm f).size := by rwa [Array.size_modify]
    refine Ends.next hoptions ?_
    have hphases := ends_initPhases_prop rt (w := { w with
      instances := w.instances.modify vm f }) hlt' (hfound ▸ hpo)
    simp only [hfound, hreceived] at hphases
    exact hphases

/-- A badge that declares a prop with dashes, and is passed it without. -/
theorem spellings_interchangeable_badge :
    let o : Placed Options := .new { fields := { props := some (.new (.names ["user-name"])) } }
    let p : Placeholder := ⟨"user-badge", 0, [("userName", .str "guest")], [], []⟩
    let w : World := { forest := { classes := #[{ options := o, sealed := o }] }
                       instances := #[{ ctor := 0 }, { ctor := 0 }] }
    Text.Kebab "user-name" ∧ Text.camelize "user-name" = "userName" ∧
      o.value.DeclaresProp {} "user-name" ∧
      (Dict.get? p.props "userName" <|> Dict.get? p.props "user-name") = some (.str "guest") ∧
      1 < w.instances.size ∧ (w.forest.get (w.instances.getD 1 default).ctor).options = o ∧
      Ends (initOptions {} 1 (.child 0 p none []) >>= fun _ => initPhases {} (Runtime.run {}) 1) w
        fun r w' => r = .ok () ∧
          Dict.get? (w'.instances.getD 1 default).props "userName" = some (.str "guest") := by
  intro o p w
  have hk : Text.Kebab "user-name" := by
    refine ⟨["user", "name"], by decide, ?_, by decide⟩
    rw [List.forall_mem_cons, List.forall_mem_singleton]
    exact ⟨⟨'u', ['s', 'e', 'r'], rfl, by decide, by simp⟩,
      ⟨'n', ['a', 'm', 'e'], rfl, by decide, by simp⟩⟩
  have hcamel : Text.camelize "user-name" = "userName" := by decide +kernel
  have hwritten : "user-name" ∈ (PropsDecl.names ["user-name"]).written := List.mem_cons_self
  have hdecl : o.value.DeclaresProp {} "user-name" := .written rfl hwritten
  have hpassed : (Dict.get? p.props (Text.camelize "user-name") <|>
      Dict.get? p.props "user-name") = some (.str "guest") := by
    rw [hcamel]
    rfl
  have hlt : 1 < w.instances.size := by decide
  have hends :=
    (spellings_interchangeable {} hk (.inl rfl) hdecl hpassed hlt rfl 0 none []).2.2
  -- no script runs, so none sets the prop
  have hquiet : Ends (initOptions {} 1 (.child 0 p none []) >>= fun _ =>
      initPhases {} (Runtime.run {}) 1) w fun r w' =>
        r.toOption = some () ∧ w'.invoked.toList = [] :=
    ⟨by decide +kernel, by decide +kernel⟩
  refine ⟨hk, hcamel, hdecl, hcamel ▸ hpassed, hlt, rfl, (hquiet.and hends).imp ?_⟩
  rintro r w' ⟨⟨hdone, hnone⟩, -, calls, hcalls, hreads⟩
  cases r with
  | error e => cases hdone
  | ok a =>
    rw [hnone] at hcalls
    refine ⟨rfl, hcamel ▸ hreads rfl fun c hc => ?_⟩
    rw [(List.append_eq_nil_iff.mp hcalls.symm).2] at hc
    cases hc

end Eng

end Componentry
