import Componentry.Proofs.Class.Resolve

/-!
# Operations as events

Each operation is read through once here: what it gives, and the events by which it changes the
forest. Later proofs look at the events only.

- `Classes.extend_yields`, `Classes.mixin_yields`: the operations that merge a definition.
- `Op.run_yields`: **every operation is a run of events**.
- `History.step_events`: the same for a history, which notes what each class was made of.
-/

namespace Componentry

open Forest

variable {cfg : Config} {f : Forest} {c s : ClassId}

/-! ## Making and changing classes -/

/-- An event by which a class is made, or none if making it fails. -/
def Event.Making (s : ClassId) (definition : Options) : Event → Prop
  | .aside => True
  | .remerged _ => True
  | .spoiled _ => True
  | .made s' d => s' = s ∧ d = definition
  | _ => False

theorem Event.OnLine.making {ev : Event} {definition : Options} {b : ClassId} (h : ev.OnLine b) :
    ev.Making s definition :=
  h.elim (fun _ => trivial) fun _ => trivial

/-- Events on a line make no class. -/
theorem no_origins_of_onLine {evs : List Event} {b : ClassId} (hevs : ∀ ev ∈ evs, ev.OnLine b) :
    evs.filterMap Event.origin? = [] :=
  List.filterMap_eq_nil_iff.mpr fun ev hev =>
    (hevs ev hev).elim (P := fun ev => ev.origin? = none) (fun _ => rfl) fun _ => rfl

theorem Yields.adviseName (name : Option String) :
    Yields (Classes.adviseName cfg name) f fun r f' => r = .ok () ∧ Quiet f f' := by
  unfold Classes.adviseName
  cases cfg.devMode with
  | false => exact ⟨rfl, Quiet.refl f⟩
  | true =>
    cases name with
    | none => exact ⟨rfl, Quiet.refl f⟩
    | some n => exact ⟨rfl, rfl, Nat.le_refl _⟩

theorem Yields.get : Yields MonadState.get f fun r f' => r = .ok f ∧ f' = f := ⟨rfl, rfl⟩

/-- The events that extending a class brings, and whether the class was made. -/
def Extended (cfg : Config) (f : Forest) (s : ClassId) (definition : Options)
    (r : Except Error ClassId) (f' : Forest) : Prop :=
  ∃ evs, Steps cfg evs f f' ∧ (∀ ev ∈ evs, ev.Making s definition) ∧
    ((∃ e, r = .error e) ∧ evs.filterMap Event.origin? = [] ∨
      r = .ok f.size ∧ evs.filterMap Event.origin? = [some (s, definition)])

/-- **Extending**: the line of the super class is resolved first, and the class is made last. -/
theorem Classes.extend_in_turn (cfg : Config) (hf : f.Grounded) (hs : s < f.size)
    (definition : Options) :
    Yields (Classes.extend cfg s definition) f fun r f' =>
      ∃ evs g, Steps cfg evs f g ∧ (∀ ev ∈ evs, ev = .aside ∨ ev.OnLine s) ∧
        ((∃ e, r = .error e) ∧ f' = g ∨
          r = .ok f.size ∧ g.size = f.size ∧ Change cfg g f' (.made s definition)) := by
  have snoc : ∀ {evs : List Event} {g g' : Forest}, Steps cfg evs f g →
      (∀ ev ∈ evs, ev.OnLine s) → Quiet g g' → Steps cfg (evs ++ [.aside]) f g' ∧
        ∀ ev ∈ evs ++ [Event.aside], ev = .aside ∨ ev.OnLine s := by
    intro evs g g' hsteps hevs hq
    refine ⟨hsteps.append (.single (.aside hq)), fun ev hev => ?_⟩
    rcases List.mem_append.mp hev with hev | hev
    · exact .inr (hevs ev hev)
    · exact .inl (List.mem_singleton.mp hev)
  refine Yields.bind (Classes.resolve_yields cfg hf s) ?_ ?_
  · rintro above f₁ ⟨⟨evs, hsteps, hevs⟩, hok⟩
    obtain ⟨rfl, hu⟩ := hok above rfl
    refine Yields.bind (Yields.adviseName _) ?_ (fun e f₂ h => by cases h.1)
    rintro ⟨⟩ f₂ ⟨-, hq₂⟩
    refine Yields.bind (Yields.place definition) ?_ (fun e f₃ h => by cases h.1)
    rintro d f₃ ⟨hd, hq₃, hn₃⟩
    cases hd
    -- advice and placing change no class, so that the line stays up to date
    have hs₂ : f₂.size = f.size := hq₂.size.trans (hsteps.size_of_onLine hevs)
    have hu₂ : f₂.UpToDate s := hu.frame (hsteps.grounded hf) fun b _ => hq₂.get b
    rw [← hq₂.get s]
    refine Yields.bind (Yields.merging cfg _ _) ?_ ?_
    · rintro m f₄ ⟨hm, hq₄, hn₄⟩
      refine Yields.bind Yields.get ?_ (fun e f₅ h => by cases h.1)
      rintro g f₄' ⟨hg, rfl⟩
      cases hg
      refine Yields.bind (Yields.store _) ?_ (fun e f₅ h => by cases h.1)
      rintro p f₅ ⟨hp, hq₅, hn₅⟩
      cases hp
      have hq : Quiet f₂ f₅ := (hq₃.trans hq₄).trans hq₅
      have hs₄ : g.classes.size = f₂.size := (hq₃.trans hq₄).size
      refine (Yields.addClass _).imp ?_
      rintro r f₆ ⟨hr, ho, hs₆, hn₆⟩
      rw [hq.size] at hr ho hs₆
      rw [hn₄, hn₃] at hn₅ ho
      rw [hs₄] at hn₅ ho
      have hc := Change.made (hs₂ ▸ hs) hu₂ hm.symm rfl (ho.of_quiet hq) hs₆
        ⟨_, rfl, hn₆.trans hn₅⟩
      obtain ⟨hsteps₂, hevs₂⟩ := snoc hsteps hevs hq₂
      exact ⟨_, f₂, hsteps₂, hevs₂, .inr ⟨by rw [hr, hs₂], hs₂, hc⟩⟩
    · rintro e f₄ ⟨hm, hq₄, hn₄⟩
      -- the merge failed: what was resolved stays so, and no class is made
      obtain ⟨hsteps₄, hevs₄⟩ := snoc hsteps hevs (hq₂.trans (hq₃.trans hq₄))
      exact ⟨_, f₄, hsteps₄, hevs₄, .inl ⟨⟨e, rfl⟩, rfl⟩⟩
  · rintro e f₁ ⟨⟨evs, hsteps, hevs⟩, -⟩
    exact ⟨evs, f₁, hsteps, fun ev hev => .inr (hevs ev hev), .inl ⟨⟨e, rfl⟩, rfl⟩⟩

theorem Classes.extend_yields (cfg : Config) (hf : f.Grounded) (hs : s < f.size)
    (definition : Options) :
    Yields (Classes.extend cfg s definition) f (Extended cfg f s definition) := by
  refine (Classes.extend_in_turn cfg hf hs definition).imp ?_
  rintro r f' ⟨evs, g, hsteps, hevs, hr⟩
  have hmaking : ∀ ev ∈ evs, ev.Making s definition := fun ev hev => by
    rcases hevs ev hev with rfl | h
    · trivial
    · exact h.making
  have hnone : evs.filterMap Event.origin? = [] := by
    refine List.filterMap_eq_nil_iff.mpr fun ev hev => ?_
    rcases hevs ev hev with rfl | h
    · rfl
    · exact h.elim (P := fun ev => ev.origin? = none) (fun _ => rfl) fun _ => rfl
  rcases hr with ⟨he, rfl⟩ | ⟨hr, -, hmade⟩
  · exact ⟨evs, hsteps, hmaking, .inl ⟨he, hnone⟩⟩
  · refine ⟨evs ++ [.made s definition], hsteps.append (.single hmade), fun ev hev => ?_,
      .inr ⟨hr, ?_⟩⟩
    · rcases List.mem_append.mp hev with hev | hev
      · exact hmaking ev hev
      · cases List.mem_singleton.mp hev
        exact ⟨rfl, rfl⟩
    · rw [List.filterMap_append, hnone]
      rfl

theorem Classes.newBase_yields (cfg : Config) (o : Options) :
    Yields (Classes.newBase o) f fun _ f' => Change cfg f f' (.founded o) := by
  refine Yields.bind (Yields.store _) ?_ (fun e f₁ h => by cases h.1)
  rintro p f₁ ⟨hp, hq, hn⟩
  cases hp
  refine (Yields.addClass _).imp ?_
  rintro r f₂ ⟨-, ho, hs, hn₂⟩
  rw [hq.size] at ho hs
  exact .founded rfl (ho.of_quiet hq) hs ⟨_, rfl, hn₂.trans hn⟩

theorem Classes.editOptions_yields (hc : c < f.size) (g : Options → Options) :
    Yields (Classes.editOptions c g) f fun r f' => r = .ok () ∧
      ∃ p, p = (g (f.get c).options.value).stored f.nextMark ∧
        Only f f' c ((f.get c).revised p) ∧ f'.size = f.size ∧
        ∃ m, p.mark = some m ∧ f'.nextMark = m + 1 := by
  refine Yields.bind (Yields.getClass c) ?_ (fun e f₁ h => by cases h.1)
  rintro k f₁ ⟨hk, rfl⟩
  cases hk
  refine Yields.bind (Yields.store _) ?_ (fun e f₂ h => by cases h.1)
  rintro p f₂ ⟨hp, hq, hn⟩
  cases hp
  refine (Yields.modifyClass (hq.size.symm ▸ hc) _).imp ?_
  rintro r f₃ ⟨hr, ho, hs, hn₃⟩
  rw [hq.get c] at ho
  exact ⟨hr, _, rfl, ho.of_quiet hq, hs.trans hq.size, _, rfl, hn₃.trans hn⟩

/-- Edits of the options of a class. -/
theorem Classes.edit_yields (cfg : Config) (hc : c < f.size) (es : List Edit) :
    Yields (Classes.editOptions c fun o => es.foldl Options.edit o) f fun r f' =>
      r = .ok () ∧ Change cfg f f' (.revised c (.edits es)) :=
  (Classes.editOptions_yields hc _).imp fun _ _ ⟨hr, _, hp, ho, hs, hn⟩ =>
    ⟨hr, .revised hc ⟨rfl, rfl⟩ hp ho hs hn⟩

theorem Classes.replace_yields (cfg : Config) (hc : c < f.size) (o : Options) :
    Yields (Classes.replaceOptions c o) f fun r f' =>
      r = .ok () ∧ Change cfg f f' (.revised c (.replace o)) :=
  (Classes.editOptions_yields hc _).imp fun _ _ ⟨hr, _, hp, ho, hs, hn⟩ =>
    ⟨hr, .revised hc ⟨rfl, rfl⟩ hp ho hs hn⟩

/-- **Mixing in**: nothing but a change of the options, or an error and no change. -/
theorem Classes.mixin_yields (cfg : Config) (hc : c < f.size) (definition : Options) :
    Yields (Classes.mixin cfg c definition) f fun r f' =>
      r = .ok () ∧ Change cfg f f' (.revised c (.mixin definition)) ∨
        ∃ e, r = .error e ∧ Change cfg f f' .aside ∧
          Options.mergeResult cfg (f.get c).options.value (definition.placed f.nextMark) =
            .error e := by
  refine Yields.bind (Yields.getClass c) ?_ (fun e f₁ h => by cases h.1)
  rintro k f₁ ⟨hk, rfl⟩
  cases hk
  refine Yields.bind (Yields.place definition) ?_ (fun e f₂ h => by cases h.1)
  rintro d f₂ ⟨hd, hq₂, hn₂⟩
  cases hd
  refine Yields.bind (Yields.merging cfg _ _) ?_ ?_
  · rintro m f₃ ⟨hm, hq₃, hn₃⟩
    have hq := hq₂.trans hq₃
    refine (Classes.editOptions_yields (hq.size.symm ▸ hc) _).imp ?_
    rintro r f₄ ⟨hr, p, hp, ho, hs, hn⟩
    rw [hn₃] at hp
    rw [hq.get c] at ho
    exact .inl ⟨hr, .revised hc ⟨hm.symm, hn₂⟩ hp (ho.of_quiet hq) (hs.trans hq.size) hn⟩
  · rintro e f₃ ⟨hm, hq₃, -⟩
    exact .inr ⟨e, rfl, .aside (hq₂.trans hq₃), hm.symm⟩

/-- Registering changes the options by one edit, after some advice. -/
def Registered (cfg : Config) (f : Forest) (c : ClassId) (e : Edit) (r : Except Error Unit)
    (f' : Forest) : Prop :=
  r = .ok () ∧ Steps cfg [.aside, .revised c (.edits [e])] f f'

theorem Yields.registered {g : Forest} (hq : Quiet f g) (hc : c < f.size) (e : Edit) :
    Yields (Classes.editOptions c (·.edit e)) g (Registered cfg f c e) :=
  (Classes.edit_yields cfg (hq.size.symm ▸ hc) [e]).imp fun _ _ ⟨hr, h⟩ =>
    ⟨hr, .cons (.aside hq) (.single h)⟩

theorem Classes.register_yields (cfg : Config) (hc : c < f.size) (name : String) (k : ClassId) :
    Yields (Classes.register cfg c name k) f (Registered cfg f c (.component name (.ofClass k))) :=
  Yields.bind (Yields.adviseName _) (fun _ _ h => Yields.registered h.2 hc _)
    (fun _ _ h => by cases h.1)

theorem Classes.directive_yields (cfg : Config) (hc : c < f.size) (name : String) :
    Yields (Classes.directive cfg c name) f (Registered cfg f c (.directive name)) := by
  unfold Classes.directive
  cases cfg.devMode with
  | false => exact Yields.registered (Quiet.refl f) hc _
  | true =>
    refine Yields.bind (Yields.noting _) (fun _ _ h => Yields.registered h.2.1 hc _) ?_
    rintro e f₁ ⟨⟨_, h⟩, -⟩
    cases h

theorem Classes.filter_yields (cfg : Config) (hc : c < f.size) (name : String) (e : Expr) :
    Yields (Classes.filter c name e) f (Registered cfg f c (.filter name e)) :=
  Yields.registered (Quiet.refl f) hc _

/-! ## Every operation -/

/-- How an operation may change the options of a class. -/
def Op.Revises (c : ClassId) (r : Revision) : Op → Prop
  | .mixin definition => c = rootClass ∧ r = .mixin definition
  | .component name _ => c = rootClass ∧ ∃ k, r = .edits [.component name (.ofClass k)]
  | .register name k => c = rootClass ∧ r = .edits [.component name (.ofClass k)]
  | .directive name => c = rootClass ∧ r = .edits [.directive name]
  | .filter name e => c = rootClass ∧ r = .edits [.filter name e]
  | .edit b es => c = b ∧ r = .edits es
  | .replace b o => c = b ∧ r = .replace o
  | _ => False

/-- The events that an operation may bring. -/
def Op.Brings (op : Op) : Event → Prop
  | .aside => True
  | .remerged _ => True
  | .spoiled _ => True
  | .founded o => op = .newBase o
  | .made s definition => op.origin = some (s, definition)
  | .revised c r => op.Revises c r

/-- Only the root class and the class that is edited are changed by an operation. -/
theorem Op.Brings.ne_revised {op : Op} {ev : Event} (hev : op.Brings ev) (hc : c ≠ rootClass)
    (hedit : ∀ es, op ≠ .edit c es) (hreplace : ∀ o, op ≠ .replace c o) (r : Revision) :
    ev ≠ .revised c r := by
  rintro rfl
  cases op with
  | mixin d => exact hc hev.1
  | component name d => exact hc hev.1
  | register name k => exact hc hev.1
  | directive name => exact hc hev.1
  | filter name x => exact hc hev.1
  | edit b es => exact hedit es (by rw [hev.1])
  | replace b o => exact hreplace o (by rw [hev.1])
  | _ => cases hev

/-- What an operation does: a run of its events, with one new class at most. -/
def Op.Done (cfg : Config) (op : Op) (f f' : Forest) : Prop :=
  ∃ evs, Steps cfg evs f f' ∧ (∀ ev ∈ evs, op.Brings ev) ∧
    (evs.filterMap Event.origin? = [] ∨ evs.filterMap Event.origin? = [op.origin])

theorem Op.Done.of_extended (op : Op) {definition : Options} {r : Except Error ClassId}
    {f' : Forest} (h : Extended cfg f s definition r f') (ho : op.origin = some (s, definition)) :
    op.Done cfg f f' := by
  obtain ⟨evs, hsteps, hevs, hr⟩ := h
  refine ⟨evs, hsteps, fun ev hev => ?_, ?_⟩
  · have hm := hevs ev hev
    cases ev with
    | aside => trivial
    | remerged d => trivial
    | spoiled d => trivial
    | made s' d =>
      obtain ⟨rfl, rfl⟩ := hm
      exact ho
    | founded o => cases hm
    | revised c r => cases hm
  · rw [ho]
    exact hr.imp And.right And.right

theorem Op.Done.of_registered {op : Op} {e : Edit} {r : Except Error Unit} {f' : Forest}
    (h : Registered cfg f c e r f') (ho : op.Revises c (.edits [e])) : op.Done cfg f f' := by
  refine ⟨_, h.2, fun ev hev => ?_, .inl rfl⟩
  rcases List.mem_cons.mp hev with rfl | hev
  · trivial
  · cases List.mem_singleton.mp hev
    exact ho

theorem Op.Done.of_aside {op : Op} {f' : Forest} (h : Quiet f f') : op.Done cfg f f' := by
  refine ⟨_, .single (.aside h), fun ev hev => ?_, .inl rfl⟩
  cases List.mem_singleton.mp hev
  trivial

theorem Op.Done.of_revised {op : Op} {r : Revision} {f' : Forest}
    (h : Change cfg f f' (.revised c r)) (ho : op.Revises c r) : op.Done cfg f f' := by
  refine ⟨_, .single h, fun ev hev => ?_, .inl rfl⟩
  cases List.mem_singleton.mp hev
  exact ho

theorem Op.Done.then_quiet {op : Op} {g f' : Forest} (h : op.Done cfg f g) (hq : Quiet g f') :
    op.Done cfg f f' := by
  obtain ⟨evs, hsteps, hevs, hr⟩ := h
  refine ⟨evs ++ [.aside], hsteps.append (.single (.aside hq)), fun ev hev => ?_, ?_⟩
  · rcases List.mem_append.mp hev with hev | hev
    · exact hevs ev hev
    · cases List.mem_singleton.mp hev
      trivial
  · rw [List.filterMap_append]
    show evs.filterMap Event.origin? ++ [] = _ ∨ evs.filterMap Event.origin? ++ [] = _
    rw [List.append_nil]
    exact hr

theorem Classes.component_yields (cfg : Config) (hf : f.Grounded) (name : String)
    (definition : Options) :
    Yields (Classes.component cfg rootClass name definition) f fun _ f' =>
      (Op.component name definition).Done cfg f f' := by
  refine Yields.bind (Classes.extend_yields cfg hf hf.root_lt (definition.orNamed name)) ?_ ?_
  · rintro c f₁ hext
    obtain ⟨evs, hsteps, hevs, hr⟩ := Op.Done.of_extended (.component name definition) hext rfl
    have hlt := (hsteps.grounded hf).root_lt
    refine Yields.bind (Classes.register_yields cfg hlt name c) ?_ (fun e f₂ h => by cases h.1)
    rintro ⟨⟩ f₂ ⟨-, hreg⟩
    refine Yields.pure ⟨_, hsteps.append hreg, fun ev hev => ?_, ?_⟩
    · rcases List.mem_append.mp hev with hev | hev
      · exact hevs ev hev
      · rcases List.mem_cons.mp hev with rfl | hev
        · trivial
        · cases List.mem_singleton.mp hev
          exact ⟨rfl, c, rfl⟩
    · rw [List.filterMap_append]
      show evs.filterMap Event.origin? ++ [] = _ ∨ evs.filterMap Event.origin? ++ [] = _
      rw [List.append_nil]
      exact hr
  · rintro e f₁ hext
    exact Op.Done.of_extended _ hext rfl

theorem Classes.classFor_yields (cfg : Config) (hf : f.Grounded) (entry : ComponentRef Options) :
    Yields (Classes.classFor cfg rootClass entry) f fun _ f' =>
      (Op.classFor entry).Done cfg f f' := by
  have hext : ∀ {id : Option Mark} {o : Options} {r : Except Error ClassId} {f' : Forest},
      Extended cfg f rootClass o r f' → (Op.classFor (.definition id o)).Done cfg f f' :=
    fun h => Op.Done.of_extended _ h rfl
  cases entry with
  | ofClass c => exact Yields.pure (Op.Done.of_aside (Quiet.refl f))
  | self c =>
    refine Yields.bind Yields.get ?_ (fun e f₁ h => by cases h.1)
    rintro g f₁ ⟨-, rfl⟩
    exact Yields.pure (Op.Done.of_aside (Quiet.refl _))
  | definition id o =>
    cases id with
    | none =>
      refine Yields.bind (Classes.extend_yields cfg hf hf.root_lt o) ?_ fun e f₁ h => hext h
      intro c f₁ h
      exact Yields.pure (hext h)
    | some id =>
      refine Yields.bind Yields.get ?_ (fun e f₁ h => by cases h.1)
      rintro g f₁ ⟨hg, rfl⟩
      split
      · exact Yields.pure (Op.Done.of_aside (Quiet.refl _))
      · refine Yields.bind (Classes.extend_yields cfg hf hf.root_lt o) ?_ fun e f₁ h => hext h
        intro c f₁ h
        exact (hext h).then_quiet ⟨rfl, Nat.le_refl _⟩

/-- **Every operation** is a run of events, and makes one class at most. -/
theorem Op.run_yields (cfg : Config) (hf : f.Grounded) (op : Op) (hfit : op.Fits f) :
    Yields (op.run cfg) f fun _ f' => op.Done cfg f f' := by
  -- an operation whose result is not looked at
  have drop : ∀ {α : Type} {m : Forging α} {op : Op},
      Yields m f (fun _ f' => op.Done cfg f f') →
        Yields (do let _ ← m) f fun _ f' => op.Done cfg f f' := fun h =>
    Yields.bind h (fun _ _ hd => Yields.pure hd) fun _ _ hd => hd
  have hroot := hf.root_lt
  cases op with
  | newBase o =>
    refine drop ((Classes.newBase_yields cfg o).imp fun r f' h => ⟨_, .single h, ?_, .inr rfl⟩)
    intro ev hev
    cases List.mem_singleton.mp hev
    rfl
  | extend s d =>
    exact drop ((Classes.extend_yields cfg hf hfit d).imp fun r f' h => Op.Done.of_extended _ h rfl)
  | mixin d =>
    refine (Classes.mixin_yields cfg hroot d).imp fun r f' h => ?_
    rcases h with ⟨-, h⟩ | ⟨e, -, h, -⟩
    · exact Op.Done.of_revised h ⟨rfl, rfl⟩
    · cases h with
      | aside hq => exact Op.Done.of_aside hq
  | component name d => exact drop (Classes.component_yields cfg hf name d)
  | register name k =>
    exact (Classes.register_yields cfg hroot name k).imp fun _ _ h =>
      Op.Done.of_registered h ⟨rfl, rfl⟩
  | directive name =>
    exact (Classes.directive_yields cfg hroot name).imp fun _ _ h =>
      Op.Done.of_registered h ⟨rfl, rfl⟩
  | filter name e =>
    exact (Classes.filter_yields cfg hroot name e).imp fun _ _ h =>
      Op.Done.of_registered h ⟨rfl, rfl⟩
  | resolve c =>
    refine drop ((Classes.resolve_yields cfg hf c).imp fun r f' h => ?_)
    obtain ⟨⟨evs, hsteps, hevs⟩, -⟩ := h
    refine ⟨evs, hsteps, fun ev hev => ?_, .inl (no_origins_of_onLine hevs)⟩
    exact (hevs ev hev).elim (fun _ => trivial) fun _ => trivial
  | classFor entry => exact drop (Classes.classFor_yields cfg hf entry)
  | edit c es =>
    exact (Classes.edit_yields cfg hfit es).imp fun _ _ h => Op.Done.of_revised h.2 ⟨rfl, rfl⟩
  | replace c o =>
    exact (Classes.replace_yields cfg hfit o).imp fun _ _ h => Op.Done.of_revised h.2 ⟨rfl, rfl⟩

/-! ## Every history -/

theorem History.start_grounded (cfg : Config) : (History.start cfg).forest.Grounded := by
  have hget : ∀ c, (History.start cfg).forest.get (c + 1) = default := fun c =>
    get_of_size_le (Nat.le_add_left 1 c)
  refine ⟨Nat.one_pos, ?_, ?_⟩
  · intro c s hs
    cases c with
    | zero => cases hs
    | succ c =>
      rw [hget c] at hs
      cases hs
  · intro c hc
    cases Nat.lt_one_iff.mp hc
    exact ⟨{ defaultOptions with merged := true }, 0, rfl⟩

theorem Steps.size_eq {evs : List Event} {f' : Forest} (h : Steps cfg evs f f') :
    f'.size = f.size + (evs.filterMap Event.origin?).length := by
  induction h with
  | nil f => rfl
  | @cons ev evs f g f' hc _ ih =>
    rw [ih]
    cases hc with
    | aside hq => rw [hq.size]; rfl
    | founded _ _ hs => rw [hs]; exact Nat.add_right_comm f.size 1 _
    | made _ _ _ _ _ hs => rw [hs]; exact Nat.add_right_comm f.size 1 _
    | revised _ _ _ _ hs => rw [hs]; rfl
    | remerged _ _ _ _ _ _ hs => rw [hs]; rfl
    | spoiled _ _ _ _ _ hs => rw [hs]; rfl

/-- One operation as events. Each new class is noted with what it was made of. -/
theorem History.step_events (cfg : Config) {h : History} (hg : h.forest.Grounded) {op : Op}
    (hfit : op.Fits h.forest) :
    ∃ evs, Steps cfg evs h.forest (h.step cfg op).forest ∧ (∀ ev ∈ evs, op.Brings ev) ∧
      (h.step cfg op).origins = h.origins ++ evs.filterMap Event.origin? := by
  obtain ⟨evs, hsteps, hevs, hr⟩ := Op.run_yields cfg hg op hfit
  refine ⟨evs, hsteps, hevs, ?_⟩
  have hsize := hsteps.size_eq
  show (if h.forest.size < Forest.size _ then _ else _) = _
  rw [hsize]
  rcases hr with hr | hr
  · rw [hr, List.append_nil]
    exact if_neg (Nat.lt_irrefl _)
  · rw [hr]
    exact if_pos (Nat.lt_succ_self _)

theorem Runs.grounded {A : Forest → Op → Prop} {h h' : History} (hr : Runs cfg A h h')
    (hg : h.forest.Grounded) : h'.forest.Grounded := by
  induction hr with
  | refl => exact hg
  | step _ hfit _ ih =>
    obtain ⟨evs, hsteps, -⟩ := History.step_events cfg ih hfit
    exact hsteps.grounded ih

theorem Reachable.grounded {h : History} (hr : Reachable cfg h) : h.forest.Grounded :=
  Runs.grounded hr (History.start_grounded cfg)

end Componentry
