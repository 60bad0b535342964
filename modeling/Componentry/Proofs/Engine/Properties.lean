import Componentry.Proofs.Engine.Requests

/-!
# Reading what was set

Setting a property runs watchers, which may set properties themselves. What else they do changes no
property. So a property reads as it was set, and any other as before, unless one of the scripts that
run meanwhile sets it. There is one exception: of a name that both the props and the data have, the
data are set and the prop is read.

- `Invocation.Sets`: a call of a script that sets a property.
- `World.Traced`: a property that no call meanwhile sets stays as it is.
- `Eng.traced_runScript`: **scripts** change no other properties than those they set.
- `Eng.set_then_get`: **what is read after a property was set**.
-/

namespace Componentry

open Json (Value)

variable {H : Halt → Prop} {w w' : World} {vm vm₀ b : InstanceId} {key : String}

/-- A call of a script that sets the property of the instance. -/
def Invocation.Sets (vm : InstanceId) (key : String) : Invocation → Prop
  | script b _ s => b = vm ∧ key ∈ s.sets
  | filter _ _ => False

namespace Instance

/-- What can be set under a name: the prop, and the entry of the data. -/
def slot (i : Instance) (key : String) : Option Value × Option Value :=
  (Dict.get? i.props key, Dict.get? i.data key)

/-- Whether a name can be set. -/
def declares (i : Instance) (key : String) : Bool :=
  Dict.contains i.props key || Dict.contains i.data key

/-- A property is read from what can be set, and then from what cannot. -/
theorem get?_eq {i i' : Instance} (hslot : i'.slot key = i.slot key)
    (hcomputed : i'.computed = i.computed) (hinjected : i'.injected = i.injected) :
    i'.get? key = i.get? key := by
  have hprops : Dict.get? i'.props key = Dict.get? i.props key := congrArg Prod.fst hslot
  have hdata : Dict.get? i'.data key = Dict.get? i.data key := congrArg Prod.snd hslot
  rw [get?, get?, hprops, hdata, hcomputed, hinjected]

theorem slot_setData {k : String} (h : k ≠ key) (v : Value) (i : Instance) :
    ({ i with data := Dict.insert key v i.data } : Instance).slot k = i.slot k :=
  congrArg (Prod.mk _) ((Dict.get?_insert i.data key k v).trans (if_neg h))

theorem slot_setProp {k : String} (h : k ≠ key) (v : Value) (i : Instance) :
    ({ i with props := Dict.insert key v i.props } : Instance).slot k = i.slot k :=
  congrArg (Prod.mk · _) ((Dict.get?_insert i.props key k v).trans (if_neg h))

variable {i : Instance} {old : Value}

theorem declares_of_data (h : Dict.get? i.data key = some old) : i.declares key = true := by
  rw [declares, Dict.contains, Dict.contains, h]
  exact Bool.or_true _

theorem declares_of_props (h : Dict.get? i.props key = some old) : i.declares key = true := by
  rw [declares, Dict.contains, h]
  rfl

/-- A name of the data that was set is read as it was set, but a prop of the name hides it. -/
theorem get?_setData (h : Dict.get? i.data key = some old) (v : Value) :
    ({ i with data := Dict.insert key v i.data } : Instance).get? key =
      if Dict.contains i.props key && Dict.contains i.data key then i.get? key else some v := by
  have hinsert : Dict.get? (Dict.insert key v i.data) key = some v :=
    (Dict.get?_insert i.data key key v).trans (if_pos rfl)
  rw [get?, get?, hinsert, Dict.contains, Dict.contains, h]
  cases Dict.get? i.props key with
  | none => rfl
  | some p => rfl

/-- A prop that was set is read as it was set. -/
theorem get?_setProp (h : Dict.get? i.data key = none) (v : Value) :
    ({ i with props := Dict.insert key v i.props } : Instance).get? key =
      if Dict.contains i.props key && Dict.contains i.data key then i.get? key else some v := by
  have hinsert : Dict.get? (Dict.insert key v i.props) key = some v :=
    (Dict.get?_insert i.props key key v).trans (if_pos rfl)
  rw [get?, hinsert, Dict.contains, Dict.contains, h, Option.isSome_none, Bool.and_false]
  rfl

end Instance

/-! ## What scripts leave alone -/

/-- There were more calls of author's code. -/
def World.MoreCalls (w w' : World) : Prop := w.invoked.toList <+: w'.invoked.toList

instance : World.Lenient World.MoreCalls where
  refl _ := List.prefix_rfl
  trans := List.IsPrefix.trans
  aside h := h.invoked
  access h := h

/-- There were more calls of author's code, and unless one of them sets the property, it stayed as
it was. -/
def World.Traced (vm : InstanceId) (key : String) (w w' : World) : Prop :=
  ∃ calls, w'.invoked.toList = w.invoked.toList ++ calls ∧
    ((∃ c ∈ calls, c.Sets vm key) ∨
      (w'.instances.getD vm default).slot key = (w.instances.getD vm default).slot key)

namespace World.Traced

/-- Changing an instance, but not the property. -/
theorem modify (w : World) {f : Instance → Instance}
    (hf : b = vm → ∀ i, (f i).slot key = i.slot key) :
    World.Traced vm key w { w with instances := w.instances.modify b f } := by
  refine ⟨[], (List.append_nil _).symm, .inr ?_⟩
  by_cases hb : b = vm
  · exact forall_getD_modify (P := fun i i' => i'.slot key = i.slot key) (fun _ => rfl) (hf hb _) vm
  · exact congrArg (Instance.slot · key) (getD_modify_of_ne (Ne.symm hb))

theorem slot_setAccess (vm b : InstanceId) (key : String) (a : Access) (w : World) :
    ((Eng.setAccess b a w).instances.getD vm default).slot key =
      (w.instances.getD vm default).slot key :=
  forall_getD_modify (P := fun i i' => i'.slot key = i.slot key) (fun _ => rfl) rfl vm

instance : World.Lenient (World.Traced vm key) where
  refl w := ⟨[], (List.append_nil _).symm, .inr rfl⟩
  trans := by
    rintro w w' w'' ⟨calls, hcalls, h⟩ ⟨calls', hcalls', h'⟩
    refine ⟨calls ++ calls', by rw [hcalls', hcalls, List.append_assoc], ?_⟩
    rcases h with ⟨c, hc, hsets⟩ | hslot
    · exact .inl ⟨c, List.mem_append_left _ hc, hsets⟩
    · rcases h' with ⟨c, hc, hsets⟩ | hslot'
      · exact .inl ⟨c, List.mem_append_right _ hc, hsets⟩
      · exact .inr (hslot'.trans hslot)
  aside h := by
    obtain ⟨calls, hcalls⟩ := h.invoked
    exact ⟨calls, hcalls.symm, .inr (h.read vm (·.slot key) fun _ => rfl)⟩
  access := by
    rintro w w' b a ⟨calls, hcalls, h⟩
    refine ⟨calls, hcalls, h.imp id fun hslot => ?_⟩
    rw [slot_setAccess, hslot, slot_setAccess]

end World.Traced

namespace Eng

/-- Setting another property. -/
theorem traced_set {rt : Runtime} {run : Runner}
    (hrun : ∀ vm args s, Within (World.Traced vm₀ key) H (run vm args s)) {k : String}
    (h : b = vm₀ → key ≠ k) (value : Value) :
    Within (World.Traced vm₀ key) H (set rt run b k value) := by
  refine within_setProperty hrun b k value (fun _ => World.Traced.modify _ fun hb i => ?_)
    fun _ => World.Traced.modify _ fun hb i => ?_
  · exact Instance.slot_setData (h hb) value i
  · exact Instance.slot_setProp (h hb) value i

theorem moreCalls_set {rt : Runtime} {run : Runner}
    (hrun : ∀ vm args s, Within World.MoreCalls H (run vm args s)) (b : InstanceId) (k : String)
    (value : Value) : Within World.MoreCalls H (set rt run b k value) :=
  within_setProperty hrun b k value (fun _ => List.prefix_rfl) fun _ => List.prefix_rfl

/-- **Scripts** change no other properties than those that they, or the scripts that they make run,
set. -/
theorem traced_runScript (hH : H .outOfFuel) (rt : Runtime) (vm₀ : InstanceId) (key : String)
    (fuel : Nat) (b : InstanceId) (args : List Value) (s : Script) :
    Within (World.Traced vm₀ key) H (runScript rt fuel b args s) := by
  induction fuel generalizing b args s with
  | zero => exact Within.throw hH
  | succ fuel ih =>
    by_cases hsets : b = vm₀ ∧ key ∈ s.sets
    · -- the script itself is a call that sets the property
      have hmore : ∀ vm args s, Within World.MoreCalls H (runScript rt fuel vm args s) :=
        within_scripts hH rt (fun hrun => moreCalls_set hrun) fuel
      intro w
      obtain ⟨⟨calls, hcalls⟩, hends⟩ := within_actAll hmore b args s
        (fun k _ => moreCalls_set hmore b k) { w with invoked := w.invoked.push (.script b args s) }
      refine ⟨⟨.script b args s :: calls, ?_, .inl ⟨_, List.mem_cons_self, hsets⟩⟩, hends⟩
      rw [Array.toList_push, List.append_assoc] at hcalls
      exact hcalls.symm
    · refine (Within.invoke _).bind fun _ => within_actAll ih b args s fun k hk => ?_
      refine traced_set ih fun hb hkey => hsets ⟨hb, hkey ▸ hk⟩

end Eng

/-! ## Setting and reading -/

/-- None of the calls is of a script that sets the property. -/
def NobodySets (vm : InstanceId) (key : String) (calls : List Invocation) : Prop :=
  ∀ c ∈ calls, ¬ c.Sets vm key

/-- What is known of all properties of an instance at once. -/
theorem World.Traced.all (h : ∀ key, World.Traced vm key w w') :
    ∃ calls, w'.invoked.toList = w.invoked.toList ++ calls ∧
      ∀ key, NobodySets vm key calls → (w'.instances.getD vm default).slot key =
        (w.instances.getD vm default).slot key := by
  obtain ⟨calls, hcalls, -⟩ := h ""
  refine ⟨calls, hcalls, fun key hnobody => ?_⟩
  obtain ⟨calls', hcalls', hkey⟩ := h key
  cases List.append_cancel_left (hcalls.symm.trans hcalls')
  rcases hkey with ⟨c, hc, hsets⟩ | hslot
  · exact absurd hsets (hnobody c hc)
  · exact hslot

/-- A name that cannot be set cannot be set by author's code either. -/
theorem Instance.Acted.slot_of_undeclared {i i' : Instance} (h : i.Acted i')
    (hundeclared : i.declares key = false) : i'.slot key = i.slot key := by
  have hnone : ∀ {d : Json.Record}, Dict.contains d key = false → Dict.get? d key = none :=
    fun hd => Option.isNone_iff_eq_none.mp (by simpa [Dict.contains] using hd)
  obtain ⟨hprops, hdata⟩ := Bool.or_eq_false_iff.mp hundeclared
  rw [slot, slot, hnone hprops, hnone hdata, hnone ((h.props key).trans hprops),
    hnone ((h.data key).trans hdata)]

/-- Only an instance that there is has names that can be set. -/
theorem lt_of_declares (h : (w.instances.getD vm default).declares key = true) :
    vm < w.instances.size := by
  refine Decidable.byContradiction fun hle => ?_
  rw [getD_of_size_le (Nat.le_of_not_lt hle)] at h
  cases h

/-- What an instance reads after one of its properties was set and scripts ran. The property reads
as said, and all others as before, but for those that one of the scripts sets. -/
def World.ReadsAfter (w : World) (vm : InstanceId) (key : String) (read : Option Value)
    (w' : World) : Prop :=
  ∃ calls, w'.invoked.toList = w.invoked.toList ++ calls ∧
    (NobodySets vm key calls → (w'.instances.getD vm default).get? key = read) ∧
    ∀ k, k ≠ key → ((w.instances.getD vm default).declares k = true → NobodySets vm k calls) →
      (w'.instances.getD vm default).get? k = (w.instances.getD vm default).get? k

section

variable {f : Instance → Instance}
  (hacted : (w.instances.getD vm default).Acted (f (w.instances.getD vm default)))
  (hother : ∀ k, k ≠ key → (f (w.instances.getD vm default)).slot k =
    (w.instances.getD vm default).slot k) (hlt : vm < w.instances.size)
include hacted hother hlt

/-- What is read in the end follows from what the scripts left alone. -/
theorem World.readsAfter (hafter : World.Acted { w with instances := w.instances.modify vm f } w')
    (hall : ∀ k, World.Traced vm k { w with instances := w.instances.modify vm f } w') :
    w.ReadsAfter vm key ((f (w.instances.getD vm default)).get? key) w' := by
  have hfound : (w.instances.modify vm f).getD vm default = f (w.instances.getD vm default) :=
    getD_modify hlt f
  have hown := hafter.instances vm
  obtain ⟨calls, hcalls, hslot⟩ := World.Traced.all hall
  simp only [hfound] at hown hslot
  refine ⟨calls, hcalls, fun hnobody => ?_, fun k hk hnobody => ?_⟩
  · exact Instance.get?_eq (hslot key hnobody) (hown.read (·.computed) fun _ => rfl)
      (hown.read (·.injected) fun _ => rfl)
  · have hwhole := hacted.trans hown
    refine Instance.get?_eq ?_ (hwhole.read (·.computed) fun _ => rfl)
      (hwhole.read (·.injected) fun _ => rfl)
    cases hdeclared : (w.instances.getD vm default).declares k with
    | true => exact (hslot k (hnobody hdeclared)).trans (hother k hk)
    | false => exact hwhole.slot_of_undeclared hdeclared

/-- A property is changed, and then there may be advice and author's code runs. -/
theorem Eng.ends_written {advice code : Eng Unit} (hacts : Acts (advice >>= fun _ => code))
    (htraced : ∀ k, Within (World.Traced vm k) Halt.Endless (advice >>= fun _ => code)) :
    Ends (modifyInstance vm f >>= fun _ => advice >>= fun _ => code >>= fun _ => pure true) w
      fun r w' => (r = .ok true ∨ r = .error .outOfFuel) ∧
        w.ReadsAfter vm key ((f (w.instances.getD vm default)).get? key) w' := by
  refine Ends.next (a := ()) (v := { w with instances := w.instances.modify vm f }) rfl ?_
  rw [← bind_assoc]
  refine Ends.bind (P := fun r w' =>
    (World.Acted { w with instances := w.instances.modify vm f } w' ∧
      ∀ e, r = .error e → e.Endless) ∧
    ∀ k, World.Traced vm k { w with instances := w.instances.modify vm f } w')
    ⟨hacts _, fun k => (htraced k _).1⟩ ?_ ?_
  · rintro ⟨⟩ w' ⟨⟨hafter, -⟩, hall⟩
    exact ⟨.inl rfl, World.readsAfter hacted hother hlt hafter hall⟩
  · rintro e w' ⟨⟨hafter, hends⟩, hall⟩
    exact ⟨.inr (by rw [hends e rfl]), World.readsAfter hacted hother hlt hafter hall⟩

end

namespace Eng

/-- **What is read after a property was set.** It reads as it was set, unless somebody set it once
more meanwhile. But if both the props and the data have the name, the data are set and the prop
reads as before. All other properties read as before, but for those that somebody set meanwhile.
A name that neither has cannot be set, and then nothing changes at all. -/
theorem set_then_get (rt : Runtime) (fuel : Nat) (w : World) (vm : InstanceId) (key : String)
    (v : Value) : Ends (set rt (runScript rt fuel) vm key v) w fun r w' =>
      let i := w.instances.getD vm default
      (i.declares key = true ∧ (r = .ok true ∨ r = .error .outOfFuel) ∧
        w.ReadsAfter vm key
          (if Dict.contains i.props key && Dict.contains i.data key then i.get? key else some v)
          w') ∨
      (i.declares key = false ∧ r = .ok false ∧ w' = w.noted (rt.warningOf w vm
        ("Cannot set reactive property \"" ++ key
          ++ "\": it is not declared in data or props."))) := by
  have hrun : ∀ vm args s, Acts (runScript rt fuel vm args s) :=
    within_runScript (H := Halt.Endless) rfl rt fuel
  have htraced : ∀ k b args s,
      Within (World.Traced vm k) Halt.Endless (runScript rt fuel b args s) :=
    fun k => traced_runScript (H := Halt.Endless) rfl rt vm k fuel
  refine Ends.getInstanceThen ?_
  cases hdata : Dict.get? (w.instances.getD vm default).data key with
  | some old =>
    have hdeclared := Instance.declares_of_data hdata
    refine Ends.imp (ends_written ⟨rfl, fun _ => rfl, Dict.contains_insert_of_get? hdata v⟩
      (fun k hk => Instance.slot_setData hk v _) (lt_of_declares hdeclared)
      ((Within.pure ()).bind fun _ => within_notify hrun vm key v old)
      fun k => (Within.pure ()).bind fun _ => within_notify (htraced k) vm key v old) ?_
    rintro r w' ⟨hr, hreads⟩
    rw [Instance.get?_setData hdata v] at hreads
    exact .inl ⟨hdeclared, hr, hreads⟩
  | none =>
    cases hprops : Dict.get? (w.instances.getD vm default).props key with
    | some old =>
      have hdeclared := Instance.declares_of_props hprops
      refine Ends.imp (ends_written ⟨rfl, Dict.contains_insert_of_get? hprops v, fun _ => rfl⟩
        (fun k hk => Instance.slot_setProp hk v _) (lt_of_declares hdeclared)
        ((within_warn vm _).bind fun _ => within_notify hrun vm key v old)
        fun k => (within_warn vm _).bind fun _ => within_notify (htraced k) vm key v old) ?_
      rintro r w' ⟨hr, hreads⟩
      rw [Instance.get?_setProp hdata v] at hreads
      exact .inl ⟨hdeclared, hr, hreads⟩
    | none =>
      refine Ends.next (run_warn rt w vm _) (.inr ⟨?_, rfl, rfl⟩)
      rw [Instance.declares, Dict.contains, Dict.contains, hprops, hdata]
      rfl

end Eng

/-! ## A name of both the props and the data -/

/-- A definition whose props and data have a name in common. -/
def overlapping : Options where
  fields :=
    { props := some (.new (.names ["n"])), data := some (.new (.record [("n", .str "old")])) }

/-- An instance of it is made, the name is set, and the value is not what is read. -/
theorem hidden_by_prop :
    let start := Runtime.start {} none
    let made := (start.1.create start.1.base overlapping).run.run start.2
    let set := (start.1.set 0 "n" (.str "new")).run.run made.2
    made.1.toOption = some 0 ∧ (made.2.instances.getD 0 default).watchers.isEmpty = true ∧
      set.1.toOption = some true ∧
      ((set.2.instances.getD 0 default).get? "n").map Value.isNull = some true := by
  decide +kernel

end Componentry
