import Componentry.Proofs.Engine.CompileMemo

/-!
# Worlds that differ in diagnostics

A configuration has three flags for diagnostics. What they steer is meant for people who develop:
warnings, measures, and a rendering that warns of properties nobody declared. Two worlds are alike
if they agree in everything else.

- `Flags`, `Runtime.under`: a runtime with other flags.
- `LogEntry.told?`: an entry of the journal, unless it is a warning.
- `Instance.plain`: an instance without what diagnostics leave in it.
- `World.Alike`: **worlds that agree in everything but diagnostics.**
- `World.Alike.modify`, `World.Alike.noted` and so on: changes that both undergo.
-/

namespace Componentry

open Json (Value Record)

/-- What is there on one side is there on the other. -/
theorem cases_of_map_eq {α β γ : Type} {f : α → γ} {g : β → γ} {a : Option α} {b : Option β}
    (h : a.map f = b.map g) :
    a = none ∧ b = none ∨ ∃ x y, a = some x ∧ b = some y ∧ f x = g y := by
  cases a with
  | none =>
    cases b with
    | none => exact .inl ⟨rfl, rfl⟩
    | some y => cases h
  | some x =>
    cases b with
    | none => cases h
    | some y => exact .inr ⟨x, y, rfl, rfl, Option.some.inj h⟩

/-! ## Flags -/

/-- What a configuration says about diagnostics. -/
structure Flags where
  silent : Bool
  production : Bool
  performance : Bool

def Config.under (cfg : Config) (φ : Flags) : Config :=
  { cfg with settings := { cfg.settings with
      silent := φ.silent, production := φ.production, performance := φ.performance } }

/-- A runtime that differs in the flags for diagnostics. -/
def Runtime.under (rt : Runtime) (φ : Flags) : Runtime := { rt with config := rt.config.under φ }

/-! ## The journal -/

/-- An entry of the journal, unless it is a warning; how much was measured is left out. -/
def LogEntry.told? : LogEntry → Option LogEntry
  | .warning _ _ _ => none
  | .line .warn _ => none
  | .mounter target hydrating hasRender _ => some (.mounter target hydrating hasRender 0)
  | e => some e

/-- What a journal tells, warnings apart. -/
def Journal.told (j : Journal) : List LogEntry := j.entries.toList.filterMap LogEntry.told?

/-- Journals that agree in everything but warnings. -/
structure Journal.Alike (j j' : Journal) : Prop where
  told : j.told = j'.told
  merges : j.merges = j'.merges

namespace Journal.Alike

variable {j j' j'' : Journal}

theorem refl (j : Journal) : j.Alike j := ⟨rfl, rfl⟩

theorem symm (h : j.Alike j') : j'.Alike j := ⟨h.told.symm, h.merges.symm⟩

theorem trans (h : j.Alike j') (h' : j'.Alike j'') : j.Alike j'' :=
  ⟨h.told.trans h'.told, h.merges.trans h'.merges⟩

theorem told_push (j : Journal) (e : LogEntry) :
    Journal.told { j with entries := j.entries.push e } = j.told ++ e.told?.toList := by
  rw [Journal.told, Array.toList_push, List.filterMap_append, Journal.told]
  cases h : e.told? with
  | none => rw [List.filterMap_cons_none h]; rfl
  | some e' => rw [List.filterMap_cons_some h]; rfl

/-- The same entry in both, warnings and measures apart. -/
theorem push (h : j.Alike j') {e e' : LogEntry} (he : e.told? = e'.told?) :
    Journal.Alike { j with entries := j.entries.push e }
      { j' with entries := j'.entries.push e' } := by
  refine ⟨?_, h.merges⟩
  rw [told_push, told_push, h.told, he]

/-- A warning in one of them. -/
theorem warned (j : Journal) {e : LogEntry} (he : e.told? = none) :
    j.Alike { j with entries := j.entries.push e } := by
  refine ⟨?_, rfl⟩
  rw [told_push, he]
  exact (List.append_nil _).symm

end Journal.Alike

/-! ## Classes -/

/-- Classes, marks and journals that agree in everything but warnings. -/
structure Forest.Alike (f f' : Forest) : Prop where
  classes : f.classes = f'.classes
  made : f.made = f'.made
  nextMark : f.nextMark = f'.nextMark
  journal : f.journal.Alike f'.journal

namespace Forest.Alike

variable {f f' f'' : Forest}

theorem refl (f : Forest) : f.Alike f := ⟨rfl, rfl, rfl, .refl _⟩

theorem symm (h : f.Alike f') : f'.Alike f :=
  ⟨h.classes.symm, h.made.symm, h.nextMark.symm, h.journal.symm⟩

theorem trans (h : f.Alike f') (h' : f'.Alike f'') : f.Alike f'' where
  classes := h.classes.trans h'.classes
  made := h.made.trans h'.made
  nextMark := h.nextMark.trans h'.nextMark
  journal := h.journal.trans h'.journal

end Forest.Alike

/-! ## Instances -/

/-- A render function without its identity. -/
def RenderFn.plain (f : RenderFn) : RenderFn := .new f.value

/-- The options of an instance, its render functions without their identities: which they are
depends on what was compiled before. -/
def InstanceOptions.plain (o : InstanceOptions) : InstanceOptions :=
  { o with
    own := o.own.mapFields fun f =>
      { f with
        render := f.render.map RenderFn.plain
        staticRenderFns := f.staticRenderFns.map fun fs => .new (fs.value.map RenderFn.plain) } }

/-- An instance without what diagnostics leave in it. -/
def Instance.plain (i : Instance) : Instance :=
  { i with devProxy := false, options := i.options.plain }

theorem InstanceOptions.plain_plain (o : InstanceOptions) : o.plain.plain = o.plain := by
  simp only [plain, Options.mapFields, Option.map_map, List.map_map, Function.comp_def,
    RenderFn.plain, Placed.new]
  rfl

theorem Instance.plain_plain (i : Instance) : i.plain.plain = i.plain := by
  show { i.plain with options := i.options.plain.plain } = i.plain
  rw [i.options.plain_plain]
  rfl

/-- Options that agree in everything but the identities of render functions. -/
def InstanceOptions.Alike (o o' : InstanceOptions) : Prop := o.plain = o'.plain

/-- What has nothing to do with those is the same in both. -/
theorem InstanceOptions.Alike.read {β : Type} {o o' : InstanceOptions} (h : o.Alike o')
    (f : InstanceOptions → β) (hf : ∀ o : InstanceOptions, f o.plain = f o) : f o = f o' := by
  rw [← hf o, h, hf o']

/-- Instances that agree in everything but what diagnostics leave in them. -/
def Instance.Alike (i i' : Instance) : Prop := i.plain = i'.plain

namespace Instance.Alike

variable {i i' i'' : Instance}

theorem refl (i : Instance) : i.Alike i := rfl

theorem symm (h : i.Alike i') : i'.Alike i := Eq.symm h

theorem trans (h : i.Alike i') (h' : i'.Alike i'') : i.Alike i'' := Eq.trans h h'

/-- What has nothing to do with diagnostics is the same in both. -/
theorem read {β : Type} (h : i.Alike i') (f : Instance → β)
    (hf : ∀ j : Instance, f j.plain = f j) : f i = f i' := by
  rw [← hf i, h, hf i']

theorem options (h : i.Alike i') : i.options.Alike i'.options := congrArg Instance.options h

/-- They differ in the proxy and in the options only. -/
theorem eq_with (h : i.Alike i') :
    i' = { i with options := i'.options, devProxy := i'.devProxy } := by
  obtain ⟨⟩ := i
  obtain ⟨⟩ := i'
  simp only [Alike, plain, mk.injEq] at h ⊢
  simp only [h, and_self]

/-- The same change of both, one that has nothing to do with diagnostics. -/
theorem change (h : i.Alike i') (f : Instance → Instance)
    (hf : ∀ j : Instance, (f j).plain = f j.plain) : (f i).Alike (f i') := by
  rw [Alike, hf, hf, h]

/-- Other options for both. -/
theorem withOptions (h : i.Alike i') {o o' : InstanceOptions} (ho : o.Alike o') :
    Instance.Alike { i with options := o } { i' with options := o' } := by
  show { i.plain with options := o.plain } = { i'.plain with options := o'.plain }
  rw [show i.plain = i'.plain from h, show o.plain = o'.plain from ho]

end Instance.Alike

/-! ## Occurrences -/

/-- What happens, with the instance as it was, but for diagnostics. -/
def Occurrence.plain (o : Occurrence) : Occurrence := { o with found := o.found.plain }

/-! ## Worlds -/

/-- **Worlds that agree in everything but diagnostics**: warnings, measures, what rendering warns
of, and what is remembered of compilations. -/
structure World.Alike (w w' : World) : Prop where
  forest : w.forest.Alike w'.forest
  size : w.instances.size = w'.instances.size
  instances : ∀ vm, (w.instances.getD vm default).Alike (w'.instances.getD vm default)
  host : w.host = w'.host
  nextUid : w.nextUid = w'.nextUid
  templates : w.templates = w'.templates
  chronicle : w.chronicle.toList.map Occurrence.plain = w'.chronicle.toList.map Occurrence.plain
  invoked : w.invoked = w'.invoked

namespace World.Alike

variable {w w' w'' : World}

theorem refl (w : World) : w.Alike w := ⟨.refl _, rfl, fun _ => .refl _, rfl, rfl, rfl, rfl, rfl⟩

theorem symm (h : w.Alike w') : w'.Alike w where
  forest := h.forest.symm
  size := h.size.symm
  instances vm := (h.instances vm).symm
  host := h.host.symm
  nextUid := h.nextUid.symm
  templates := h.templates.symm
  chronicle := h.chronicle.symm
  invoked := h.invoked.symm

theorem trans (h : w.Alike w') (h' : w'.Alike w'') : w.Alike w'' where
  forest := h.forest.trans h'.forest
  size := h.size.trans h'.size
  instances vm := (h.instances vm).trans (h'.instances vm)
  host := h.host.trans h'.host
  nextUid := h.nextUid.trans h'.nextUid
  templates := h.templates.trans h'.templates
  chronicle := h.chronicle.trans h'.chronicle
  invoked := h.invoked.trans h'.invoked

/-- Warnings make no difference. -/
theorem noted (w : World) {es : List LogEntry} (hes : ∀ e ∈ es, e.told? = none) :
    w.Alike (w.noted es) := by
  induction es generalizing w with
  | nil => exact refl w
  | cons e rest ih =>
    have he : e.told? = none := hes e List.mem_cons_self
    have hone : w.Alike (w.noted [e]) :=
      { refl w with forest := { Forest.Alike.refl w.forest with journal := .warned _ he } }
    have hrest := ih (w.noted [e]) fun e' he' => hes e' (List.mem_cons_of_mem _ he')
    rw [show e :: rest = [e] ++ rest from rfl, noted_append]
    exact hone.trans hrest

/-- Changing an instance in both. -/
theorem modify (h : w.Alike w') {vm : InstanceId} {f f' : Instance → Instance}
    (hf : ∀ i i' : Instance, i.Alike i' → (f i).Alike (f' i')) :
    World.Alike { w with instances := w.instances.modify vm f }
      { w' with instances := w'.instances.modify vm f' } where
  forest := h.forest
  size := by
    show (w.instances.modify vm f).size = (w'.instances.modify vm f').size
    rw [Array.size_modify, Array.size_modify, h.size]
  instances b := by
    show ((w.instances.modify vm f).getD b default).Alike
      ((w'.instances.modify vm f').getD b default)
    by_cases hb : b = vm
    · subst hb
      by_cases hlt : b < w.instances.size
      · rw [getD_modify hlt, getD_modify (h.size ▸ hlt)]
        exact hf _ _ (h.instances b)
      · -- there is no such instance
        have hle := Nat.le_of_not_lt hlt
        rw [getD_of_size_le (Array.size_modify.symm ▸ hle),
          getD_of_size_le (Array.size_modify.symm ▸ h.size ▸ hle)]
        exact .refl _
    · rw [getD_modify_of_ne hb, getD_modify_of_ne hb]
      exact h.instances b
  host := h.host
  nextUid := h.nextUid
  templates := h.templates
  chronicle := h.chronicle
  invoked := h.invoked

/-- Who uses an instance, in both. -/
theorem setAccess (h : w.Alike w') (vm : InstanceId) (a : Access) :
    (Eng.setAccess vm a w).Alike (Eng.setAccess vm a w') :=
  h.modify fun _ _ hi => hi.change (fun i => { i with access := a }) fun _ => rfl

/-- Telling the same in both. -/
theorem record (h : w.Alike w') (vm : InstanceId) (what : Happening) : World.Alike
    { w with chronicle := w.chronicle.push ⟨what, w.instances.getD vm default⟩ }
    { w' with chronicle := w'.chronicle.push ⟨what, w'.instances.getD vm default⟩ } := by
  refine { h with chronicle := ?_ }
  rw [Array.toList_push, Array.toList_push, List.map_append, List.map_append, h.chronicle]
  exact congrArg (fun i => _ ++ [Occurrence.mk what i]) (h.instances vm)

/-- Adding an instance to both. -/
theorem push (h : w.Alike w') (i : Instance) :
    World.Alike { w with instances := w.instances.push i }
      { w' with instances := w'.instances.push i } where
  forest := h.forest
  size := by
    show (w.instances.push i).size = (w'.instances.push i).size
    rw [Array.size_push, Array.size_push, h.size]
  instances b := by
    show ((w.instances.push i).getD b default).Alike ((w'.instances.push i).getD b default)
    by_cases hb : b = w.instances.size
    · rw [hb, getD_push_size, h.size, getD_push_size]
      exact .refl _
    · rw [getD_push_of_ne hb, getD_push_of_ne (h.size ▸ hb)]
      exact h.instances b
  host := h.host
  nextUid := h.nextUid
  templates := h.templates
  chronicle := h.chronicle
  invoked := h.invoked

/-- What is read of an instance that may not be there. -/
theorem read? {β : Type} (h : w.Alike w') (f : Instance → β)
    (hf : ∀ j : Instance, f j.plain = f j) (vm : InstanceId) :
    (w.instances[vm]?).map f = (w'.instances[vm]?).map f := by
  by_cases hlt : vm < w.instances.size
  · have h' := (h.instances vm).read f hf
    rw [Array.getD_eq_getD_getElem?, Array.getD_eq_getD_getElem?] at h'
    rw [Array.getElem?_eq_getElem hlt, Array.getElem?_eq_getElem (h.size ▸ hlt)] at h' ⊢
    exact congrArg some h'
  · have hle := Nat.le_of_not_lt hlt
    rw [Array.getElem?_eq_none hle, Array.getElem?_eq_none (h.size ▸ hle)]

/-- Whether an instance is there. -/
theorem alive (h : w.Alike w') (vm : InstanceId) :
    (w.instances.getD vm { (default : Instance) with alive := false }).alive =
      (w'.instances.getD vm { (default : Instance) with alive := false }).alive := by
  have hread := h.read? (·.alive) (fun _ => rfl) vm
  rw [Array.getD_eq_getD_getElem?, Array.getD_eq_getD_getElem?]
  obtain ⟨hw, hw'⟩ | ⟨i, i', hw, hw', halive⟩ := cases_of_map_eq hread
  · rw [hw, hw']
  · rw [hw, hw']
    exact halive

end World.Alike

end Componentry
