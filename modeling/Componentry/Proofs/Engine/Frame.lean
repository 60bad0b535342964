import Componentry.Engine.Mount

/-!
# What author's code leaves alone

Author's code acts on instances only, and of an instance it changes the values of its data and its
props and its listeners. It adds no name, and nothing else changes but the journal, the record of
calls and the supply of marks. So every relation between worlds that allows for this much holds over
any script.

- `Eng.Within`: a computation that keeps to a relation between worlds, with a rule for each way in
  which computations are built.
- `Eng.Ends`: what a computation comes to from one world.
- `World.Acted`: what author's code may change.
- `World.Tolerant`: a relation that allows for it.
- `World.Lenient`: a relation that allows for all of it but setting properties.
- `Eng.within_runScript`: **scripts** keep to a relation that allows for what they do, however deep
  they go.
-/

namespace Componentry

open Json (Value Record)

variable {α β : Type} {R S : World → World → Prop} {H : Halt → Prop}

/-! ## Computations within a relation -/

/-- A relation between a world and a later one that holds over any number of steps. -/
class World.Frame (R : World → World → Prop) : Prop where
  refl (w : World) : R w w
  trans {w w' w'' : World} : R w w' → R w' w'' → R w w''

/-- What the computation leaves is related to what it began with, and it comes to no other halt than
`H` allows. -/
def Eng.Within (R : World → World → Prop) (H : Halt → Prop) (m : Eng α) : Prop :=
  ∀ w, R w (m.run.run w).2 ∧ ∀ e, (m.run.run w).1 = .error e → H e

namespace Eng.Within

theorem mono {m : Eng α} (h : Within R H m) (hRS : ∀ w w', R w w' → S w w') : Within S H m :=
  fun w => ⟨hRS _ _ (h w).1, (h w).2⟩

/-- Whatever halt it comes to. -/
theorem anyHalt {m : Eng α} (h : Within R H m) : Within R (fun _ => True) m :=
  fun w => ⟨(h w).1, fun _ _ => trivial⟩

theorem and {m : Eng α} (h : Within R H m) (h' : Within S H m) :
    Within (fun w w' => R w w' ∧ S w w') H m := fun w => ⟨⟨(h w).1, (h' w).1⟩, (h w).2⟩

theorem modifyGet {f : World → α × World} (hf : ∀ w, R w (f w).2) :
    Within R H (MonadState.modifyGet f) := fun w => ⟨hf w, fun e h => by cases h⟩

theorem modifyInstance (vm : InstanceId) {f : Instance → Instance}
    (hf : ∀ w : World, R w { w with instances := w.instances.modify vm f }) :
    Within R H (Eng.modifyInstance vm f) := modifyGet hf

section

variable [World.Frame R]

theorem pure (a : α) : Within R H (Pure.pure a) :=
  fun w => ⟨World.Frame.refl w, fun e h => by cases h⟩

theorem throw {e : Halt} (he : H e) : Within R H (MonadExcept.throw e : Eng α) :=
  fun w => ⟨World.Frame.refl w, fun e' h => by cases h; exact he⟩

theorem bind {m : Eng α} {g : α → Eng β} (hm : Within R H m) (hg : ∀ a, Within R H (g a)) :
    Within R H (m >>= g) := by
  intro w
  obtain ⟨hw, hr⟩ := hm w
  rw [ExceptT.run_bind, StateT.run_bind]
  generalize m.run.run w = out at hw hr ⊢
  obtain ⟨r, w'⟩ := out
  cases r with
  | error e => exact ⟨hw, fun e' h => hr e' (by cases h; rfl)⟩
  | ok a => exact ⟨World.Frame.trans hw (hg a w').1, (hg a w').2⟩

theorem get : Within R H (MonadState.get : Eng World) :=
  fun w => ⟨World.Frame.refl w, fun e h => by cases h⟩

theorem getInstance (vm : InstanceId) : Within R H (Eng.getInstance vm) := get.bind fun _ => pure _

theorem getHost : Within R H Eng.getHost := get.bind fun _ => pure _

theorem alive? (vm : Option InstanceId) : Within R H (Eng.alive? vm) := get.bind fun _ => pure _

omit [World.Frame R] in
theorem ite {c : Prop} [Decidable c] {m n : Eng α} (hm : Within R H m) (hn : Within R H n) :
    Within R H (if c then m else n) := by
  by_cases hc : c
  · rw [if_pos hc]
    exact hm
  · rw [if_neg hc]
    exact hn

theorem forM {f : α → Eng PUnit} (hf : ∀ a, Within R H (f a)) (as : List α) :
    Within R H (as.forM f) := by
  induction as with
  | nil => exact pure PUnit.unit
  | cons a rest ih =>
    show Within R H (f a >>= fun _ => rest.forM f)
    exact (hf a).bind fun _ => ih

theorem foldlM {f : β → α → Eng β} (hf : ∀ b a, Within R H (f b a)) (as : List α) (b : β) :
    Within R H (as.foldlM f b) := by
  induction as generalizing b with
  | nil => exact pure b
  | cons a rest ih =>
    rw [List.foldlM_cons]
    exact (hf b a).bind ih

theorem mapM {f : α → Eng β} (hf : ∀ a, Within R H (f a)) (as : List α) :
    Within R H (as.mapM f) := by
  induction as with
  | nil =>
    rw [List.mapM_nil]
    exact pure []
  | cons a rest ih =>
    rw [List.mapM_cons]
    exact (hf a).bind fun _ => ih.bind fun _ => pure _

end

/-- Looking at an instance, and what comes next. -/
theorem getInstanceThen {vm : InstanceId} {g : Instance → Eng β}
    (h : ∀ w : World, R w ((g (w.instances.getD vm default)).run.run w).2 ∧
      ∀ e, ((g (w.instances.getD vm default)).run.run w).1 = .error e → H e) :
    Within R H (Eng.getInstance vm >>= g) := h

end Eng.Within

/-! ## Where a computation ends -/

/-- What a computation on a world gives and what it leaves have the property. -/
def Eng.Ends (m : Eng α) (w : World) (Q : Except Halt α → World → Prop) : Prop :=
  Q (m.run.run w).1 (m.run.run w).2

namespace Eng.Ends

variable {m : Eng α} {g : α → Eng β} {w w' : World} {a : α} {P : Except Halt α → World → Prop}
  {Q : Except Halt β → World → Prop}

theorem imp {P' : Except Halt α → World → Prop} (hm : Ends m w P) (h : ∀ r w', P r w' → P' r w') :
    Ends m w P' := h _ _ hm

theorem and {P' : Except Halt α → World → Prop} (hm : Ends m w P) (hm' : Ends m w P') :
    Ends m w fun r w' => P r w' ∧ P' r w' := ⟨hm, hm'⟩

theorem bind (hm : Ends m w P) (ok : ∀ a w', P (.ok a) w' → Ends (g a) w' Q)
    (error : ∀ e w', P (.error e) w' → Q (.error e) w') : Ends (m >>= g) w Q := by
  rw [Ends] at hm
  rw [Ends, ExceptT.run_bind, StateT.run_bind]
  generalize m.run.run w = out at hm ⊢
  obtain ⟨r, w'⟩ := out
  cases r with
  | ok a => exact ok a w' hm
  | error e => exact error e w' hm

/-- A computation that is known to succeed. -/
theorem next {v : World} (hm : m.run.run w = (.ok a, v)) (hg : Ends (g a) v Q) :
    Ends (m >>= g) w Q := by
  rw [Ends, ExceptT.run_bind, StateT.run_bind, hm]
  exact hg

/-- Reading an instance first. -/
theorem getInstanceThen {vm : InstanceId} {g : Instance → Eng β}
    (hg : Ends (g (w.instances.getD vm default)) w Q) : Ends (Eng.getInstance vm >>= g) w Q :=
  next rfl hg

/-- Of a computation within a relation. -/
theorem of_within (hm : Within R H m) (w : World) :
    Ends m w fun r w' => R w w' ∧ ∀ e, r = .error e → H e := hm w

/-- After a computation that succeeds it is enough to know the relation that it keeps to. -/
theorem step (hm : Within R H m) (ha : (m.run.run w).1 = .ok a)
    (hg : ∀ w', R w w' → Ends (g a) w' Q) : Ends (m >>= g) w Q :=
  next (Prod.ext ha rfl) (hg _ (hm w).1)

/-- A computation within a relation either succeeds or comes to a halt that is allowed. -/
theorem after (hm : Within R H m) (ok : ∀ a w', R w w' → Ends (g a) w' Q)
    (error : ∀ e w', R w w' → H e → Q (.error e) w') : Ends (m >>= g) w Q :=
  bind (of_within hm w) (fun a w' h => ok a w' h.1) fun e w' h => error e w' h.1 (h.2 e rfl)

end Eng.Ends

/-- A computation that is seen to succeed. -/
theorem Eng.run_eq_ok {m : Eng α} {w : World} (h : (m.run.run w).1.isOk = true) :
    ∃ a w', m.run.run w = (.ok a, w') := by
  generalize m.run.run w = out at h
  obtain ⟨r, w'⟩ := out
  cases r with
  | error e => cases h
  | ok a => exact ⟨a, w', rfl⟩

/-- Where a computation ends that is seen to succeed. -/
theorem Eng.run_eq_done {m : Eng Unit} {w : World} (h : (m.run.run w).1.isOk = true) :
    ∃ w', m.run.run w = (.ok (), w') ∧ w' = (m.run.run w).2 := by
  obtain ⟨⟨⟩, w', hrun⟩ := Eng.run_eq_ok h
  exact ⟨w', hrun, by rw [hrun]⟩

/-- Whether a computation failed. -/
def Eng.failed : Except Halt α → Bool
  | .error (.fatal _) => true
  | _ => false

/-- A computation that is seen to fail. -/
theorem Eng.run_eq_fatal {m : Eng α} {w : World} (h : failed (m.run.run w).1 = true) :
    ∃ e w', m.run.run w = (.error (.fatal e), w') := by
  generalize m.run.run w = out at h
  obtain ⟨r, w'⟩ := out
  cases r with
  | ok a => cases h
  | error e =>
    cases e with
    | fatal e => exact ⟨e, w', rfl⟩
    | outOfFuel => cases h

/-! ## What author's code may change -/

/-- An instance without what author's code may change. -/
def Instance.unacted (i : Instance) : Instance := { i with props := [], data := [], events := [] }

/-- Between the two only author's code acted on the instance. -/
structure Instance.Acted (i i' : Instance) : Prop where
  rest : i'.unacted = i.unacted
  props : ∀ key, Dict.contains i'.props key = Dict.contains i.props key
  data : ∀ key, Dict.contains i'.data key = Dict.contains i.data key

namespace Instance.Acted

variable {i i' i'' : Instance}

theorem refl (i : Instance) : i.Acted i := ⟨rfl, fun _ => rfl, fun _ => rfl⟩

theorem trans (h : i.Acted i') (h' : i'.Acted i'') : i.Acted i'' where
  rest := h'.rest.trans h.rest
  props key := (h'.props key).trans (h.props key)
  data key := (h'.data key).trans (h.data key)

/-- What a field says that author's code does not change. -/
theorem read (h : i.Acted i') (f : Instance → β) (hf : ∀ j : Instance, f j.unacted = f j) :
    f i' = f i := by rw [← hf i', ← hf i, h.rest]

/-- It makes no difference who may look at the instance meanwhile. -/
theorem access (h : i.Acted i') (a : Access) :
    { i with access := a }.Acted { i' with access := a } where
  rest := congrArg (fun j : Instance => { j with access := a }) h.rest
  props := h.props
  data := h.data

end Instance.Acted

/-- Setting a name that is there adds no name. -/
theorem Dict.contains_insert_of_get? {d : Dict α} {key : String} {old : α}
    (h : Dict.get? d key = some old) (v : α) (j : String) :
    Dict.contains (Dict.insert key v d) j = Dict.contains d j := by
  rw [Dict.contains, Dict.contains, Dict.get?_insert]
  split
  · next heq => rw [heq, h]; rfl
  · rfl

/-- A world without its instances, its journal, its record of calls and its supply of marks. -/
def World.unacted (w : World) : World :=
  { w with
    instances := #[]
    invoked := #[]
    forest := { w.forest with nextMark := 0, journal := { w.forest.journal with entries := #[] } } }

/-- Between the two only author's code acted. -/
structure World.Acted (w w' : World) : Prop where
  rest : w'.unacted = w.unacted
  size : w'.instances.size = w.instances.size
  instances : ∀ vm, (w.instances.getD vm default).Acted (w'.instances.getD vm default)

/-! ## Instances after one was changed -/

section

variable {is : Array Instance} {vm b : InstanceId} {f : Instance → Instance}

/-- The instance that was changed. -/
theorem getD_modify (hlt : vm < is.size) (f : Instance → Instance) :
    (is.modify vm f).getD vm default = f (is.getD vm default) := by
  rw [Array.getD_eq_getD_getElem?, Array.getD_eq_getD_getElem?, Array.getElem?_modify,
    if_pos rfl, Array.getElem?_eq_getElem hlt]
  rfl

/-- Any other instance. -/
theorem getD_modify_of_ne (h : b ≠ vm) : (is.modify vm f).getD b default = is.getD b default := by
  rw [Array.getD_eq_getD_getElem?, Array.getD_eq_getD_getElem?, Array.getElem?_modify,
    if_neg (Ne.symm h)]

theorem getD_of_getElem? {i : Instance} (h : is[vm]? = some i) : is.getD vm default = i := by
  rw [Array.getD_eq_getD_getElem?, h, Option.getD_some]

theorem getD_of_size_le (h : is.size ≤ b) : is.getD b default = default := by
  rw [Array.getD_eq_getD_getElem?, Array.getElem?_eq_none h]
  rfl

/-- An instance that is new. -/
theorem getD_push_size (is : Array Instance) (i : Instance) :
    (is.push i).getD is.size default = i := by
  rw [Array.getD_eq_getD_getElem?, Array.getElem?_push_size, Option.getD_some]

/-- Any other instance. -/
theorem getD_push_of_ne {i : Instance} (h : b ≠ is.size) :
    (is.push i).getD b default = is.getD b default := by
  rw [Array.getD_eq_getD_getElem?, Array.getD_eq_getD_getElem?, Array.getElem?_push, if_neg h]

/-- Every instance is related to what it was before if the one that was changed is. -/
theorem forall_getD_modify {P : Instance → Instance → Prop} (hrefl : ∀ i, P i i)
    (hf : P (is.getD vm default) (f (is.getD vm default))) (b : InstanceId) :
    P (is.getD b default) ((is.modify vm f).getD b default) := by
  by_cases hb : b = vm
  · subst hb
    by_cases hlt : b < is.size
    · rw [getD_modify hlt]
      exact hf
    · have hle := Nat.le_of_not_lt hlt
      rw [getD_of_size_le hle, getD_of_size_le (by rw [Array.size_modify]; exact hle)]
      exact hrefl _
  · rw [getD_modify_of_ne hb]
    exact hrefl _

/-- Using an instance and giving it back: an instance is related to what it was before, if who uses
an instance makes no difference. -/
theorem Eng.getD_setAccess {P : Instance → Instance → Prop} {w w' : World} {a : Access}
    (hP : ∀ i j a, P { i with access := a } j → P i { j with access := i.access })
    (hsize : w.instances.size ≤ w'.instances.size) (hb : b < w.instances.size)
    (h : P ((setAccess vm a w).instances.getD b default) (w'.instances.getD b default)) :
    P (w.instances.getD b default)
      ((setAccess vm (w.instances.getD vm default).access w').instances.getD b default) := by
  simp only [setAccess] at h ⊢
  by_cases hvm : b = vm
  · subst hvm
    rw [getD_modify hb] at h
    rw [getD_modify (Nat.lt_of_lt_of_le hb hsize)]
    exact hP _ _ _ h
  · rw [getD_modify_of_ne hvm] at h
    rw [getD_modify_of_ne hvm]
    exact h

end

namespace World.Acted

variable {w w' w'' : World}

theorem refl (w : World) : w.Acted w := ⟨rfl, rfl, fun _ => .refl _⟩

theorem trans (h : w.Acted w') (h' : w'.Acted w'') : w.Acted w'' where
  rest := h'.rest.trans h.rest
  size := h'.size.trans h.size
  instances vm := (h.instances vm).trans (h'.instances vm)

instance : World.Frame World.Acted := ⟨refl, trans⟩

/-- Acting on one instance. -/
theorem modify (w : World) (vm : InstanceId) {f : Instance → Instance}
    (hf : (w.instances.getD vm default).Acted (f (w.instances.getD vm default))) :
    w.Acted { w with instances := w.instances.modify vm f } :=
  ⟨rfl, Array.size_modify, forall_getD_modify .refl hf⟩

end World.Acted

/-- A relation that allows for author's code, also while an instance is in use. -/
class World.Tolerant (R : World → World → Prop) : Prop extends World.Frame R where
  acted {w w' : World} : w.Acted w' → R w w'
  access {w w' : World} {vm : InstanceId} {a : Access} : R (Eng.setAccess vm a w) w' →
    R w (Eng.setAccess vm (w.instances.getD vm default).access w')

/-- An instance without its listeners. -/
def Instance.unheard (i : Instance) : Instance := { i with events := [] }

/-- Between the two nothing happened but entries in the journal, calls of author's code and changes
of listeners. -/
structure World.Aside (w w' : World) : Prop where
  rest : w'.unacted = w.unacted
  size : w'.instances.size = w.instances.size
  instances : ∀ vm, (w'.instances.getD vm default).unheard = (w.instances.getD vm default).unheard
  invoked : w.invoked.toList <+: w'.invoked.toList

/-- What a field says that has nothing to do with listeners. -/
theorem World.Aside.read {w w' : World} (h : w.Aside w') (vm : InstanceId) (f : Instance → β)
    (hf : ∀ j : Instance, f j.unheard = f j) :
    f (w'.instances.getD vm default) = f (w.instances.getD vm default) := by
  rw [← hf (w'.instances.getD vm default), ← hf (w.instances.getD vm default), h.instances vm]

theorem World.Aside.acted {w w' : World} (h : w.Aside w') : w.Acted w' where
  rest := h.rest
  size := h.size
  instances vm :=
    { rest := h.read vm Instance.unacted fun _ => rfl
      props := fun key => h.read vm (fun i => Dict.contains i.props key) fun _ => rfl
      data := fun key => h.read vm (fun i => Dict.contains i.data key) fun _ => rfl }

/-- A relation that allows for what author's code does besides setting properties, also while an
instance is in use. -/
class World.Lenient (R : World → World → Prop) : Prop extends World.Frame R where
  aside {w w' : World} : w.Aside w' → R w w'
  access {w w' : World} {vm : InstanceId} {a : Access} : R (Eng.setAccess vm a w) w' →
    R w (Eng.setAccess vm (w.instances.getD vm default).access w')

instance World.Tolerant.lenient [World.Tolerant R] : World.Lenient R where
  aside h := World.Tolerant.acted h.acted
  access := World.Tolerant.access

namespace World.Acted

variable {w w' : World}

theorem withAccess {vm : InstanceId} {a : Access} (h : (Eng.setAccess vm a w).Acted w') :
    w.Acted (Eng.setAccess vm (w.instances.getD vm default).access w') := by
  have hsize : w'.instances.size = w.instances.size := h.size.trans Array.size_modify
  refine ⟨h.rest, Array.size_modify.trans hsize, fun b => ?_⟩
  by_cases hb : b < w.instances.size
  · exact Eng.getD_setAccess (fun i j a h => h.access i.access) (Nat.le_of_eq hsize.symm) hb
      (h.instances b)
  · -- there is no such instance, before and after
    have hle := Nat.le_of_not_lt hb
    rw [getD_of_size_le hle, getD_of_size_le ((Array.size_modify.trans hsize).symm ▸ hle)]
    exact .refl _

instance : World.Tolerant World.Acted := ⟨id, withAccess⟩

/-- What a relation says of the rest of the world. -/
theorem read (h : w.Acted w') (f : World → β) (hf : ∀ v : World, f v.unacted = f v) :
    f w' = f w := by rw [← hf w', ← hf w, h.rest]

end World.Acted

namespace Eng.Within

theorem act [World.Tolerant R] {m : Eng α} (h : Within World.Acted H m) : Within R H m :=
  h.mono fun _ _ => World.Tolerant.acted

variable [World.Lenient R]

theorem withAccess {act : Eng α} (vm : InstanceId) (a : Access) (h : Within R H act) :
    Within R H (Eng.withAccess vm a act) := fun _ => ⟨World.Lenient.access (h _).1, (h _).2⟩

theorem note (e : LogEntry) : Within R H (Eng.note e) :=
  modifyGet fun _ => World.Lenient.aside ⟨rfl, rfl, fun _ => rfl, List.prefix_rfl⟩

theorem freshMark : Within R H Eng.freshMark :=
  modifyGet fun _ => World.Lenient.aside ⟨rfl, rfl, fun _ => rfl, List.prefix_rfl⟩

theorem invoke (call : Invocation) : Within R H (Eng.invoke call) :=
  modifyGet fun _ => World.Lenient.aside ⟨rfl, rfl, fun _ => rfl, by
    rw [Array.toList_push]
    exact List.prefix_append _ _⟩

/-- Changing the listeners of an instance. -/
theorem hear (vm : InstanceId) {f : Instance → Instance} (hf : ∀ i, (f i).unheard = i.unheard) :
    Within R H (Eng.modifyInstance vm f) :=
  modifyInstance vm fun _ => World.Lenient.aside ⟨rfl, Array.size_modify,
    forall_getD_modify (P := fun i i' => i'.unheard = i.unheard) (fun _ => rfl) (hf _),
    List.prefix_rfl⟩

/-- Changing an instance, and what comes next. -/
theorem modifyThen {w : World} {vm : InstanceId} {f : Instance → Instance} {g : Unit → Eng β}
    (hf : R w { w with instances := w.instances.modify vm f }) (hg : ∀ a, Within R H (g a)) :
    R w ((Eng.modifyInstance vm f >>= g).run.run w).2 ∧
      ∀ e, ((Eng.modifyInstance vm f >>= g).run.run w).1 = .error e → H e :=
  ⟨World.Frame.trans hf (hg () _).1, (hg () _).2⟩

end Eng.Within

/-! ## Scripts -/

/-- After the action the script is over. -/
def Action.ends : Action → Bool
  | .fail _ | .ret _ => true
  | _ => false

/-- The property that the action sets. -/
def Action.sets : Action → Option String
  | .set key _ => some key
  | _ => none

/-- The properties that a script sets before it is over. -/
def Script.sets (s : Script) : List String :=
  (s.takeWhile fun a => !a.ends).filterMap Action.sets

theorem Script.sets_cons {a : Action} (h : a.ends = false) (rest : Script) :
    Script.sets (a :: rest) = a.sets.toList ++ Script.sets rest := by
  rw [sets, List.takeWhile_cons, if_pos (by rw [h]; rfl), List.filterMap_cons]
  cases a.sets with
  | none => rfl
  | some key => rfl

namespace Eng

variable {rt : Runtime} {run : Runner} [World.Lenient R]

theorem within_warn (vm : InstanceId) (message : String) : Within R H (warn rt vm message) := by
  refine Within.ite ?_ (Within.pure ())
  refine (Within.get.bind fun _ => Within.pure _).bind fun _ => Within.ite ?_ (Within.note _)
  exact (Within.getInstance vm).bind fun _ => Within.note _

theorem within_reportAtTop (vm : InstanceId) (e : HookError) (info : String) :
    Within R H (reportAtTop rt vm e info) := by
  exact (Within.getInstance vm).bind fun i => Within.ite (Within.note _) (Within.note _)

variable (hrun : ∀ vm args s, Within R H (run vm args s))
include hrun

theorem within_showTo (p : InstanceId) (e : HookError) (info : String) (hs : List Handler) :
    Within R H (showTo run p e info hs) := by
  induction hs with
  | nil => exact Within.pure false
  | cons h rest ih =>
    refine (hrun p _ h.script).bind fun r => ?_
    split
    · exact Within.pure true
    · exact ih

theorem within_showFrom (e : HookError) (info : String) (fuel : Nat) (p : Option InstanceId) :
    Within R H (showFrom run e info fuel p) := by
  induction fuel generalizing p with
  | zero => exact Within.pure false
  | succ fuel ih =>
    refine (Within.alive? p).bind fun p => ?_
    cases p with
    | none => exact Within.pure false
    | some p =>
      refine (Within.getInstance p).bind fun i => Within.ite ?_ ?_
      · refine (Within.withAccess p .exclusive (within_showTo hrun p e info _)).bind fun kept => ?_
        exact Within.ite (Within.pure true) (ih i.parent)
      · exact (Within.note _).bind fun _ => Within.pure false

theorem within_report (vm : InstanceId) (e : HookError) (info : String) :
    Within R H (report rt run vm e info) := by
  refine Within.get.bind fun w => (Within.getInstance vm).bind fun i => ?_
  refine (within_showFrom hrun e info _ i.parent).bind fun kept => ?_
  exact Within.ite (within_reportAtTop vm e info) (Within.pure ())

theorem within_attempt (vm : InstanceId) (info : String) {code : Eng (Except HookError α)}
    (hcode : Within R H code) : Within R H (attempt rt run vm info code) := by
  refine (Within.getInstance vm).bind fun i => Within.ite ?_ ?_
  · refine Within.withAccess vm .exclusive (hcode.bind fun r => ?_)
    cases r with
    | ok a => exact Within.pure (some a)
    | error e => exact (within_report hrun vm e info).bind fun _ => Within.pure none
  · exact (Within.note _).bind fun _ => Within.pure none

theorem within_callMethod (vm : InstanceId) (name : String) (args : List Value) :
    Within R H (callMethod run vm name args) := by
  refine (Within.getInstance vm).bind fun i => ?_
  cases Dict.get? i.methods name with
  | some s => exact hrun vm args s
  | none => exact Within.pure _

theorem within_runWatcher (vm : InstanceId) (h : WatchHandler) (value old : Value) :
    Within R H (runWatcher run vm h value old) := by
  obtain ⟨callback, immediate⟩ := h
  cases callback with
  | handler f => exact (hrun vm _ _).bind fun _ => Within.pure _
  | method name => exact (within_callMethod hrun vm _ _).bind fun _ => Within.pure _

theorem within_runWatchers (vm : InstanceId) (info : String) (value old : Value)
    (hs : List WatchHandler) : Within R H (runWatchers rt run vm info value old hs) := by
  induction hs with
  | nil => exact Within.pure ()
  | cons h rest ih =>
    refine (within_runWatcher hrun vm h value old).bind fun r => ?_
    cases r with
    | ok _ => exact ih
    | error e => exact (within_report hrun vm e info).bind fun _ => ih

theorem within_notify (vm : InstanceId) (key : String) (value old : Value) :
    Within R H (notify rt run vm key value old) := by
  refine (Within.getInstance vm).bind fun i => ?_
  cases Dict.get? i.watchers key with
  | some hs => exact within_runWatchers hrun vm _ value old hs
  | none => exact Within.pure ()

/-- Setting a property, if the relation allows for that. -/
theorem within_setProperty (vm : InstanceId) (key : String) (value : Value)
    (hdata : ∀ {w : World} {old},
      Dict.get? (w.instances.getD vm default).data key = some old → R w { w with
        instances := w.instances.modify vm fun i =>
          { i with data := Dict.insert key value i.data } })
    (hprops : ∀ {w : World} {old},
      Dict.get? (w.instances.getD vm default).props key = some old → R w { w with
        instances := w.instances.modify vm fun i =>
          { i with props := Dict.insert key value i.props } }) :
    Within R H (set rt run vm key value) := by
  have hnotify : ∀ old, Within R H (notify rt run vm key value old) :=
    within_notify hrun vm key value
  refine Within.getInstanceThen fun w => ?_
  cases hd : Dict.get? (w.instances.getD vm default).data key with
  | some old =>
    exact Within.modifyThen (hdata hd) fun _ => (hnotify old).bind fun _ => Within.pure true
  | none =>
    cases hp : Dict.get? (w.instances.getD vm default).props key with
    | some old =>
      refine Within.modifyThen (hprops hp) ?_
      exact fun _ => (within_warn vm _).bind fun _ => (hnotify old).bind fun _ => Within.pure true
    | none => exact ((within_warn vm _).bind fun _ => Within.pure false) w

omit [World.Lenient R] in
theorem within_set [World.Tolerant R] (vm : InstanceId) (key : String) (value : Value) :
    Within R H (set rt run vm key value) :=
  within_setProperty hrun vm key value
    (fun {_} _ hold => World.Tolerant.acted (.modify _ vm
      ⟨rfl, fun _ => rfl, Dict.contains_insert_of_get? hold value⟩))
    (fun {_} _ hold => World.Tolerant.acted (.modify _ vm
      ⟨rfl, Dict.contains_insert_of_get? hold value, fun _ => rfl⟩))

theorem within_callListener (f : Listener) (args : List Value) :
    Within R H (callListener run f args) := by
  obtain ⟨id, body⟩ := f
  cases body with
  | recorder label =>
    exact (Within.note _).bind fun _ => Within.ite (Within.pure _) (Within.pure _)
  | method target name =>
    refine (Within.alive? target).bind fun target => ?_
    cases target with
    | none => exact Within.pure _
    | some vm =>
      refine (Within.getInstance vm).bind fun i => Within.ite ?_ (Within.pure _)
      exact (Within.withAccess vm .exclusive (within_callMethod hrun vm name args)).bind
        fun _ => Within.pure _

theorem within_callListeners (vm : InstanceId) (info : String) (args : List Value)
    (fs : List Listener) : Within R H (callListeners rt run vm info args fs) := by
  induction fs with
  | nil => exact Within.pure ()
  | cons f rest ih =>
    refine (within_callListener hrun f args).bind fun r => ?_
    cases r with
    | ok _ => exact ih
    | error e => exact (within_report hrun vm e info).bind fun _ => ih

theorem within_emit (vm : InstanceId) (event : String) (args : List Value) :
    Within R H (emit rt run vm event args) := by
  refine (Within.getInstance vm).bind fun i => ?_
  cases Dict.get? i.events event with
  | some fs => exact within_callListeners hrun vm _ args fs
  | none => exact Within.pure ()

omit hrun in
theorem within_listen (vm : InstanceId) (event label : String) :
    Within R H (listen vm event label) :=
  Within.freshMark.bind fun _ => Within.hear vm fun _ => rfl

/-- An action, if the relation allows for the properties that it sets. -/
theorem within_act (vm : InstanceId) (args : List Value) (a : Action)
    (hset : ∀ key e, a = .set key e → ∀ value, Within R H (set rt run vm key value)) :
    Within R H (act rt run vm args a) := by
  refine (Within.getInstance vm).bind fun i => ?_
  cases a with
  | log e => exact (Within.note _).bind fun _ => Within.pure none
  | phase => exact (Within.note _).bind fun _ => Within.pure none
  | state => exact (Within.note _).bind fun _ => Within.pure none
  | set key e =>
    exact (hset key e rfl _).bind fun _ => (Within.note _).bind fun _ => Within.pure none
  | call method es =>
    exact (within_callMethod hrun vm method _).bind fun _ => (Within.note _).bind fun _ =>
      Within.pure none
  | emit event es => exact (within_emit hrun vm event _).bind fun _ => Within.pure none
  | listen event label => exact (within_listen vm event label).bind fun _ => Within.pure none
  | unlisten event =>
    have hunlisten : Within R H (modifyInstance vm (·.unlisten event none)) :=
      Within.hear vm fun _ => rfl
    exact hunlisten.bind fun _ => Within.pure none
  | warn message => exact (within_warn vm message).bind fun _ => Within.pure none
  | fail message => exact Within.pure _
  | ret e => exact Within.pure _

/-- Actions in order, if the relation allows for the properties that they set. -/
theorem within_actAll (vm : InstanceId) (args : List Value) (s : Script)
    (hset : ∀ key ∈ s.sets, ∀ value, Within R H (set rt run vm key value)) :
    Within R H (actAll rt run vm args s) := by
  induction s with
  | nil => exact Within.pure _
  | cons a rest ih =>
    cases hends : a.ends with
    | true =>
      cases a with
      | fail message => exact fun w => ⟨World.Frame.refl w, fun e h => by cases h⟩
      | ret e => exact fun w => ⟨World.Frame.refl w, fun e h => by cases h⟩
      | _ => cases hends
    | false =>
      have hsets := Script.sets_cons hends rest
      refine (within_act hrun vm args a fun key e ha => hset key ?_).bind fun r => ?_
      · rw [hsets, ha]
        exact List.mem_cons_self
      · cases r with
        | some r => exact Within.pure r
        | none => exact ih fun key hkey => hset key (hsets ▸ List.mem_append_right _ hkey)

omit hrun in
/-- **Scripts** keep to the relation, however deep they go, if setting properties does. -/
theorem within_scripts (hH : H .outOfFuel) (rt : Runtime)
    (hset : ∀ {run : Runner}, (∀ vm args s, Within R H (run vm args s)) →
      ∀ vm key value, Within R H (set rt run vm key value))
    (fuel : Nat) (vm : InstanceId) (args : List Value) (s : Script) :
    Within R H (runScript rt fuel vm args s) := by
  induction fuel generalizing vm args s with
  | zero => exact Within.throw hH
  | succ fuel ih =>
    exact (Within.invoke _).bind fun _ => within_actAll ih vm args s fun key _ => hset ih vm key

omit hrun [World.Lenient R] in
/-- Scripts keep to a relation that allows for author's code. -/
theorem within_runScript [World.Tolerant R] (hH : H .outOfFuel) (rt : Runtime) (fuel : Nat)
    (vm : InstanceId) (args : List Value) (s : Script) : Within R H (runScript rt fuel vm args s) :=
  within_scripts hH rt (fun hrun => within_set hrun) fuel vm args s

end Eng

end Componentry
