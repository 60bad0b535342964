import Componentry.Options.Merge

/-!
# Storing options

Storing gives a mark to every part that has none, however deep. Nothing else about the options
changes: they are the same without their marks, and marks that were there stay.

- `Leads`: what a computation that gives out marks leads to.
- `Options.unmarked`: the options without any mark.
- `Stamped`: a part's mark before and after storing.
- `Options.place_leads`: **what storing does**.
- `Options.placed`, `Options.stored`: options once they are stored.
-/

namespace Componentry

variable {α β : Type}

/-- What a computation that gives out marks leads to when the marks below `n` are taken. -/
def Leads (m : Marking α) (n : Nat) (Q : α → Nat → Prop) : Prop := Q (m.run n).1 (m.run n).2

namespace Leads

variable {m : Marking α} {g : α → Marking β} {n : Nat} {P Q : α → Nat → Prop}
  {R : β → Nat → Prop}

theorem pure {a : α} (h : Q a n) : Leads (Pure.pure a) n Q := h

theorem bind (hm : Leads m n P) (hg : ∀ a n', P a n' → Leads (g a) n' R) : Leads (m >>= g) n R :=
  hg _ _ hm

theorem imp (hm : Leads m n P) (h : ∀ a n', P a n' → Q a n') : Leads m n Q := h _ _ hm

theorem and (hp : Leads m n P) (hq : Leads m n Q) : Leads m n fun a n' => P a n' ∧ Q a n' :=
  ⟨hp, hq⟩

end Leads

/-! ## Marks of parts -/

/-- Whether there is a part, and its mark. -/
def markOf (p : Option (Placed α)) : Option (Option Mark) := p.map Placed.mark

/-- The mark of a part before and after storing: one that is missing is given out of the supply
from `n` to `n'`. -/
inductive Stamped (n n' : Nat) : Option (Option Mark) → Option (Option Mark) → Prop where
  | absent : Stamped n n' none none
  | kept (m : Mark) : Stamped n n' (some (some m)) (some (some m))
  | given (m : Nat) (hn : n ≤ m) (hn' : m < n') : Stamped n n' (some none) (some (some m))

theorem Stamped.widen {n n' k k' : Nat} {a b : Option (Option Mark)} (h : Stamped n n' a b)
    (hk : k ≤ n) (hk' : n' ≤ k') : Stamped k k' a b := by
  cases h with
  | absent => exact .absent
  | kept m => exact .kept m
  | given m hn hn' => exact .given m (Nat.le_trans hk hn) (Nat.lt_of_lt_of_le hn' hk')

/-- The parts that carry marks. -/
inductive Part where
  | data
  | props
  | computed
  | methods
  | watch
  | inject
  | provide
  | hooks
  | errorCaptured
  | directives
  | filters
  | render
  | staticRenderFns
  | components
  | mixins
  | base
  deriving DecidableEq

/-- Whether the options have a part, and its mark. -/
def Options.markAt (o : Options) : Part → Option (Option Mark)
  | .data => markOf o.fields.data
  | .props => markOf o.fields.props
  | .computed => markOf o.fields.computed
  | .methods => markOf o.fields.methods
  | .watch => markOf o.fields.watch
  | .inject => markOf o.fields.inject
  | .provide => markOf o.fields.provide
  | .hooks => markOf o.fields.hooks
  | .errorCaptured => markOf o.fields.errorCaptured
  | .directives => markOf o.fields.directives
  | .filters => markOf o.fields.filters
  | .render => markOf o.fields.render
  | .staticRenderFns => markOf o.fields.staticRenderFns
  | .components => markOf o.components
  | .mixins => markOf o.mixins
  | .base => markOf o.base

/-! ## Options without marks -/

def Placed.unmarked (p : Placed α) : Placed α := .new p.value

def unmarkedPart (p : Option (Placed α)) : Option (Placed α) := p.map Placed.unmarked

/-- The value of a part. -/
def valueOf (p : Option (Placed α)) : Option α := p.map Placed.value

/-- Parts that are alike have the same value. -/
theorem valueOf_eq {p q : Option (Placed α)} (h : unmarkedPart p = unmarkedPart q) :
    valueOf p = valueOf q := by
  have hvalue : ∀ p : Option (Placed α), valueOf (unmarkedPart p) = valueOf p := fun p => by
    cases p <;> rfl
  rw [← hvalue p, h, hvalue]

/-- Static render functions, each of which has a mark of its own. -/
def unmarkedFns (p : Option (Placed (List RenderFn))) : Option (Placed (List RenderFn)) :=
  p.map fun p => .new (p.value.map Placed.unmarked)

def Fields.unmarked (f : Fields) : Fields where
  name := f.name
  data := unmarkedPart f.data
  props := unmarkedPart f.props
  computed := unmarkedPart f.computed
  methods := unmarkedPart f.methods
  watch := unmarkedPart f.watch
  inject := unmarkedPart f.inject
  provide := unmarkedPart f.provide
  hooks := unmarkedPart f.hooks
  errorCaptured := unmarkedPart f.errorCaptured
  directives := unmarkedPart f.directives
  filters := unmarkedPart f.filters
  template := f.template
  render := unmarkedPart f.render
  staticRenderFns := unmarkedFns f.staticRenderFns
  el := f.el
  delimiters := f.delimiters
  comments := f.comments
  isAbstract := f.isAbstract
  extra := f.extra

mutual

/-- The options without any mark, those inside included. -/
def Options.unmarked : Options → Options
  | ⟨fields, components, mixins, base, merged⟩ =>
    ⟨fields.unmarked, unmarkedComponents components, unmarkedMixins mixins, unmarkedBase base,
      merged⟩

def unmarkedComponents : Option (Placed Components) → Option (Placed Components)
  | none => none
  | some ⟨_, ⟨own, outer⟩⟩ => some ⟨none, ⟨unmarkedEntries own, unmarkedLayers outer⟩⟩

def unmarkedEntry : ComponentRef Options → ComponentRef Options
  | .ofClass c => .ofClass c
  | .self c => .self c
  | .definition _ o => .definition none o.unmarked

def unmarkedEntries :
    List (String × ComponentRef Options) → List (String × ComponentRef Options)
  | [] => []
  | (k, e) :: rest => (k, unmarkedEntry e) :: unmarkedEntries rest

def unmarkedLayers : List (List (String × ComponentRef Options)) →
    List (List (String × ComponentRef Options))
  | [] => []
  | layer :: rest => unmarkedEntries layer :: unmarkedLayers rest

def unmarkedMixins : Option (Placed (List Options)) → Option (Placed (List Options))
  | none => none
  | some ⟨_, os⟩ => some ⟨none, unmarkedAll os⟩

def unmarkedAll : List Options → List Options
  | [] => []
  | o :: rest => o.unmarked :: unmarkedAll rest

def unmarkedBase : Option (Placed Options) → Option (Placed Options)
  | none => none
  | some ⟨_, o⟩ => some ⟨none, o.unmarked⟩

end

@[simp] theorem Options.unmarked_fields (o : Options) : o.unmarked.fields = o.fields.unmarked := by
  cases o
  rw [Options.unmarked]

/-- Fields that are alike hold the same parts, but for marks, and the same of all else. -/
theorem Fields.valueOf_eq {f g : Fields} (h : f.unmarked = g.unmarked)
    (read : Fields → Option (Placed α))
    (hread : ∀ f : Fields, read f.unmarked = unmarkedPart (read f)) :
    valueOf (read f) = valueOf (read g) := by
  refine Componentry.valueOf_eq ?_
  rw [← hread, h, hread]

theorem Fields.read_eq {f g : Fields} (h : f.unmarked = g.unmarked) (read : Fields → β)
    (hread : ∀ f : Fields, read f.unmarked = read f) : read f = read g := by
  rw [← hread, h, hread]

theorem Options.fields_unmarked_eq {a b : Options} (h : a.unmarked = b.unmarked) :
    a.fields.unmarked = b.fields.unmarked := by
  rw [← Options.unmarked_fields, h, Options.unmarked_fields]

@[simp] theorem Options.unmarked_components (o : Options) :
    o.unmarked.components = unmarkedComponents o.components := by
  cases o
  rw [Options.unmarked]

theorem unmarkedEntries_eq (es : List (String × ComponentRef Options)) :
    unmarkedEntries es = Dict.mapValues unmarkedEntry es := by
  induction es with
  | nil => rw [unmarkedEntries, Dict.mapValues, List.map_nil]
  | cons e rest ih => rw [unmarkedEntries, ih, Dict.mapValues, Dict.mapValues, List.map_cons]

theorem unmarkedLayers_eq (ls : List (List (String × ComponentRef Options))) :
    unmarkedLayers ls = ls.map (Dict.mapValues unmarkedEntry) := by
  induction ls with
  | nil => rw [unmarkedLayers, List.map_nil]
  | cons l rest ih => rw [unmarkedLayers, List.map_cons, ih, unmarkedEntries_eq]

/-! ## What storing does -/

theorem Placed.place_leads (mark : Option Mark) (a : α) (n : Nat) :
    Leads (Placed.place ⟨mark, a⟩) n fun p n' =>
      n ≤ n' ∧ ∃ m, p = ⟨m, a⟩ ∧ Stamped n n' (some mark) (some m) := by
  cases mark with
  | none => exact ⟨Nat.le_succ n, some n, rfl, .given n (Nat.le_refl n) (Nat.lt_succ_self n)⟩
  | some m => exact ⟨Nat.le_refl n, some m, rfl, .kept m⟩

theorem Placed.placeSome_leads (mark : Option Mark) (a : α) (n : Nat) :
    Leads (Placed.placeOption (some ⟨mark, a⟩)) n fun p n' =>
      n ≤ n' ∧ ∃ m, p = some ⟨m, a⟩ ∧ Stamped n n' (some mark) (some m) := by
  refine Leads.bind (Placed.place_leads mark a n) fun p n' ⟨hn, m, hp, hs⟩ => ?_
  exact Leads.pure ⟨hn, m, congrArg some hp, hs⟩

theorem Placed.placeOption_leads (p : Option (Placed α)) (n : Nat) :
    Leads (Placed.placeOption p) n fun p' n' =>
      n ≤ n' ∧ unmarkedPart p' = unmarkedPart p ∧ Stamped n n' (markOf p) (markOf p') := by
  cases p with
  | none => exact ⟨Nat.le_refl n, rfl, .absent⟩
  | some p =>
    refine (Placed.placeSome_leads p.mark p.value n).imp fun p' n' ⟨hn, m, hp, hs⟩ => ?_
    subst hp
    exact ⟨hn, rfl, hs⟩

theorem mapM_place_leads (ps : List (Placed α)) (n : Nat) :
    Leads (ps.mapM Placed.place) n fun ps' n' =>
      n ≤ n' ∧ ps'.map Placed.unmarked = ps.map Placed.unmarked := by
  induction ps generalizing n with
  | nil => exact ⟨Nat.le_refl n, rfl⟩
  | cons p rest ih =>
    rw [List.mapM_cons]
    refine Leads.bind (Placed.place_leads p.mark p.value n) fun p' n₁ ⟨h₁, m, hp, _⟩ => ?_
    refine Leads.bind (ih n₁) fun ps' n₂ ⟨h₂, hps⟩ => ?_
    refine Leads.pure ⟨Nat.le_trans h₁ h₂, ?_⟩
    rw [List.map_cons, List.map_cons, hp, hps]
    rfl

theorem placeFns_leads (p : Option (Placed (List RenderFn))) (n : Nat) :
    Leads (placeFns p) n fun p' n' =>
      n ≤ n' ∧ unmarkedFns p' = unmarkedFns p ∧ Stamped n n' (markOf p) (markOf p') := by
  cases p with
  | none => exact ⟨Nat.le_refl n, rfl, .absent⟩
  | some p =>
    refine Leads.bind (mapM_place_leads p.value n) fun fns n₁ ⟨h₁, hfns⟩ => ?_
    refine (Placed.placeSome_leads p.mark fns n₁).imp fun p' n₂ ⟨h₂, m, hp, hs⟩ => ?_
    subst hp
    refine ⟨Nat.le_trans h₁ h₂, ?_, hs.widen h₁ (Nat.le_refl n₂)⟩
    show some (Placed.new (fns.map Placed.unmarked)) = _
    rw [hfns]
    rfl

/-- The fields one after the other, each from the supply that the one before left. -/
theorem Fields.place_leads (f : Fields) (n : Nat) :
    Leads f.place n fun f' n' =>
      n ≤ n' ∧ f'.unmarked = f.unmarked ∧ ∀ x,
        Stamped n n' (Options.markAt { fields := f } x) (Options.markAt { fields := f' } x) := by
  refine Leads.bind (Placed.placeOption_leads f.data n) fun data n₁ ⟨h₁, e₁, s₁⟩ => ?_
  refine Leads.bind (Placed.placeOption_leads f.props n₁) fun props n₂ ⟨h₂, e₂, s₂⟩ => ?_
  refine Leads.bind (Placed.placeOption_leads f.computed n₂) fun computed n₃ ⟨h₃, e₃, s₃⟩ => ?_
  refine Leads.bind (Placed.placeOption_leads f.methods n₃) fun methods n₄ ⟨h₄, e₄, s₄⟩ => ?_
  refine Leads.bind (Placed.placeOption_leads f.watch n₄) fun watch n₅ ⟨h₅, e₅, s₅⟩ => ?_
  refine Leads.bind (Placed.placeOption_leads f.inject n₅) fun inject n₆ ⟨h₆, e₆, s₆⟩ => ?_
  refine Leads.bind (Placed.placeOption_leads f.provide n₆) fun provide n₇ ⟨h₇, e₇, s₇⟩ => ?_
  refine Leads.bind (Placed.placeOption_leads f.hooks n₇) fun hooks n₈ ⟨h₈, e₈, s₈⟩ => ?_
  refine Leads.bind (Placed.placeOption_leads f.errorCaptured n₈)
    fun errorCaptured n₉ ⟨h₉, e₉, s₉⟩ => ?_
  refine Leads.bind (Placed.placeOption_leads f.directives n₉)
    fun directives n₁₀ ⟨h₁₀, e₁₀, s₁₀⟩ => ?_
  refine Leads.bind (Placed.placeOption_leads f.filters n₁₀) fun filters n₁₁ ⟨h₁₁, e₁₁, s₁₁⟩ => ?_
  refine Leads.bind (Placed.placeOption_leads f.render n₁₁) fun render n₁₂ ⟨h₁₂, e₁₂, s₁₂⟩ => ?_
  refine Leads.bind (placeFns_leads f.staticRenderFns n₁₂)
    fun staticRenderFns n₁₃ ⟨h₁₃, e₁₃, s₁₃⟩ => Leads.pure ⟨by omega, ?_, ?_⟩
  · rw [Fields.unmarked, Fields.unmarked, e₁, e₂, e₃, e₄, e₅, e₆, e₇, e₈, e₉, e₁₀, e₁₁, e₁₂, e₁₃]
  · intro x
    cases x with
    | data => exact s₁.widen (by omega) (by omega)
    | props => exact s₂.widen (by omega) (by omega)
    | computed => exact s₃.widen (by omega) (by omega)
    | methods => exact s₄.widen (by omega) (by omega)
    | watch => exact s₅.widen (by omega) (by omega)
    | inject => exact s₆.widen (by omega) (by omega)
    | provide => exact s₇.widen (by omega) (by omega)
    | hooks => exact s₈.widen (by omega) (by omega)
    | errorCaptured => exact s₉.widen (by omega) (by omega)
    | directives => exact s₁₀.widen (by omega) (by omega)
    | filters => exact s₁₁.widen (by omega) (by omega)
    | render => exact s₁₂.widen (by omega) (by omega)
    | staticRenderFns => exact s₁₃.widen (by omega) (by omega)
    | components => exact .absent
    | mixins => exact .absent
    | base => exact .absent

/-- What storing does to options when the marks below `n` are taken. -/
structure Options.PlacedAs (o : Options) (n : Nat) (o' : Options) (n' : Nat) : Prop where
  le : n ≤ n'
  unmarked : o'.unmarked = o.unmarked
  stamped : ∀ x, Stamped n n' (o.markAt x) (o'.markAt x)

mutual

/-- **Storing** gives out marks, and only that: no value changes and no mark that was there. -/
theorem Options.place_leads : ∀ (o : Options) (n : Nat), Leads o.place n (o.PlacedAs n)
  | ⟨fields, components, mixins, base, merged⟩, n => by
    rw [Options.place]
    refine Leads.bind (fields.place_leads n) fun fields' n₁ ⟨h₁, e₁, s₁⟩ => ?_
    refine Leads.bind (placeComponents_leads components n₁) fun components' n₂ ⟨h₂, e₂, s₂⟩ => ?_
    refine Leads.bind (placeMixins_leads mixins n₂) fun mixins' n₃ ⟨h₃, e₃, s₃⟩ => ?_
    refine Leads.bind (placeBase_leads base n₃) fun base' n₄ ⟨h₄, e₄, s₄⟩ => ?_
    refine Leads.pure ⟨by omega, ?_, fun x => ?_⟩
    · rw [Options.unmarked, Options.unmarked, e₁, e₂, e₃, e₄]
    · cases x with
      | components => exact s₂.widen (by omega) (by omega)
      | mixins => exact s₃.widen (by omega) (by omega)
      | base => exact s₄.widen (by omega) (by omega)
      | data => exact (s₁ .data).widen (by omega) (by omega)
      | props => exact (s₁ .props).widen (by omega) (by omega)
      | computed => exact (s₁ .computed).widen (by omega) (by omega)
      | methods => exact (s₁ .methods).widen (by omega) (by omega)
      | watch => exact (s₁ .watch).widen (by omega) (by omega)
      | inject => exact (s₁ .inject).widen (by omega) (by omega)
      | provide => exact (s₁ .provide).widen (by omega) (by omega)
      | hooks => exact (s₁ .hooks).widen (by omega) (by omega)
      | errorCaptured => exact (s₁ .errorCaptured).widen (by omega) (by omega)
      | directives => exact (s₁ .directives).widen (by omega) (by omega)
      | filters => exact (s₁ .filters).widen (by omega) (by omega)
      | render => exact (s₁ .render).widen (by omega) (by omega)
      | staticRenderFns => exact (s₁ .staticRenderFns).widen (by omega) (by omega)

theorem placeComponents_leads : ∀ (r : Option (Placed Components)) (n : Nat),
    Leads (placeComponents r) n fun r' n' =>
      n ≤ n' ∧ unmarkedComponents r' = unmarkedComponents r ∧ Stamped n n' (markOf r) (markOf r')
  | none, n => by
    rw [placeComponents]
    exact Leads.pure ⟨Nat.le_refl n, rfl, .absent⟩
  | some ⟨mark, ⟨own, outer⟩⟩, n => by
    rw [placeComponents]
    refine Leads.bind (placeEntries_leads own n) fun own' n₁ ⟨h₁, e₁⟩ => ?_
    refine Leads.bind (placeLayers_leads outer n₁) fun outer' n₂ ⟨h₂, e₂⟩ => ?_
    refine (Placed.placeSome_leads mark (Registry.mk own' outer') n₂).imp
      fun r' n₃ ⟨h₃, m, hr, s₃⟩ => ?_
    subst hr
    refine ⟨by omega, ?_, s₃.widen (by omega) (by omega)⟩
    rw [unmarkedComponents, unmarkedComponents, e₁, e₂]

theorem placeEntries_leads : ∀ (es : List (String × ComponentRef Options)) (n : Nat),
    Leads (placeEntries es) n fun es' n' => n ≤ n' ∧ unmarkedEntries es' = unmarkedEntries es
  | [], n => by
    rw [placeEntries]
    exact Leads.pure ⟨Nat.le_refl n, rfl⟩
  | (k, .ofClass c) :: rest, n => by
    rw [placeEntries]
    refine Leads.bind (placeEntries_leads rest n) fun rest' n₁ ⟨h₁, e₁⟩ => ?_
    refine Leads.pure ⟨h₁, ?_⟩
    rw [unmarkedEntries, unmarkedEntries, e₁]
  | (k, .self c) :: rest, n => by
    rw [placeEntries]
    refine Leads.bind (placeEntries_leads rest n) fun rest' n₁ ⟨h₁, e₁⟩ => ?_
    refine Leads.pure ⟨h₁, ?_⟩
    rw [unmarkedEntries, unmarkedEntries, e₁]
  | (k, .definition (some id) o) :: rest, n => by
    rw [placeEntries]
    refine Leads.bind (placeEntries_leads rest n) fun rest' n₁ ⟨h₁, e₁⟩ => ?_
    refine Leads.pure ⟨h₁, ?_⟩
    rw [unmarkedEntries, unmarkedEntries, e₁]
  | (k, .definition none o) :: rest, n => by
    rw [placeEntries]
    refine Leads.bind (Options.place_leads o n) fun o' n₁ ho => ?_
    refine Leads.bind (P := fun _ n₂ => n₂ = n₁ + 1) rfl fun id n₂ h₂ => ?_
    refine Leads.bind (placeEntries_leads rest n₂) fun rest' n₃ ⟨h₃, e₃⟩ => ?_
    have h₁ := ho.le
    refine Leads.pure ⟨by omega, ?_⟩
    rw [unmarkedEntries, unmarkedEntries, unmarkedEntry, unmarkedEntry, ho.unmarked, e₃]

theorem placeLayers_leads : ∀ (ls : List (List (String × ComponentRef Options))) (n : Nat),
    Leads (placeLayers ls) n fun ls' n' => n ≤ n' ∧ unmarkedLayers ls' = unmarkedLayers ls
  | [], n => by
    rw [placeLayers]
    exact Leads.pure ⟨Nat.le_refl n, rfl⟩
  | layer :: rest, n => by
    rw [placeLayers]
    refine Leads.bind (placeEntries_leads layer n) fun layer' n₁ ⟨h₁, e₁⟩ => ?_
    refine Leads.bind (placeLayers_leads rest n₁) fun rest' n₂ ⟨h₂, e₂⟩ => ?_
    refine Leads.pure ⟨by omega, ?_⟩
    rw [unmarkedLayers, unmarkedLayers, e₁, e₂]

theorem placeMixins_leads : ∀ (ms : Option (Placed (List Options))) (n : Nat),
    Leads (placeMixins ms) n fun ms' n' =>
      n ≤ n' ∧ unmarkedMixins ms' = unmarkedMixins ms ∧ Stamped n n' (markOf ms) (markOf ms')
  | none, n => by
    rw [placeMixins]
    exact Leads.pure ⟨Nat.le_refl n, rfl, .absent⟩
  | some ⟨some m, os⟩, n => by
    rw [placeMixins]
    exact Leads.pure ⟨Nat.le_refl n, rfl, .kept m⟩
  | some ⟨none, os⟩, n => by
    rw [placeMixins]
    refine Leads.bind (placeAll_leads os n) fun os' n₁ ⟨h₁, e₁⟩ => ?_
    refine (Placed.placeSome_leads none os' n₁).imp fun ms' n₂ ⟨h₂, m, hms, s₂⟩ => ?_
    subst hms
    refine ⟨by omega, ?_, s₂.widen h₁ (Nat.le_refl n₂)⟩
    rw [unmarkedMixins, unmarkedMixins, e₁]

theorem placeAll_leads : ∀ (os : List Options) (n : Nat),
    Leads (placeAll os) n fun os' n' => n ≤ n' ∧ unmarkedAll os' = unmarkedAll os
  | [], n => by
    rw [placeAll]
    exact Leads.pure ⟨Nat.le_refl n, rfl⟩
  | o :: rest, n => by
    rw [placeAll]
    refine Leads.bind (Options.place_leads o n) fun o' n₁ ho => ?_
    refine Leads.bind (placeAll_leads rest n₁) fun rest' n₂ ⟨h₂, e₂⟩ => ?_
    have h₁ := ho.le
    refine Leads.pure ⟨by omega, ?_⟩
    rw [unmarkedAll, unmarkedAll, ho.unmarked, e₂]

theorem placeBase_leads : ∀ (b : Option (Placed Options)) (n : Nat),
    Leads (placeBase b) n fun b' n' =>
      n ≤ n' ∧ unmarkedBase b' = unmarkedBase b ∧ Stamped n n' (markOf b) (markOf b')
  | none, n => by
    rw [placeBase]
    exact Leads.pure ⟨Nat.le_refl n, rfl, .absent⟩
  | some ⟨some m, o⟩, n => by
    rw [placeBase]
    exact Leads.pure ⟨Nat.le_refl n, rfl, .kept m⟩
  | some ⟨none, o⟩, n => by
    rw [placeBase]
    refine Leads.bind (Options.place_leads o n) fun o' n₁ ho => ?_
    have h₁ := ho.le
    refine (Placed.placeSome_leads none o' n₁).imp fun b' n₂ ⟨h₂, m, hb, s₂⟩ => ?_
    subst hb
    refine ⟨by omega, ?_, s₂.widen h₁ (Nat.le_refl n₂)⟩
    rw [unmarkedBase, unmarkedBase, ho.unmarked]

end

/-! ## Stored options -/

/-- The options with a mark on every part, where those below `n` are taken. -/
def Options.placed (o : Options) (n : Nat) : Options := (o.place.run n).1

/-- The marks that are taken once the options are stored. -/
def Options.markAfter (o : Options) (n : Nat) : Nat := (o.place.run n).2

/-- The options in an object of their own. -/
def Options.stored (o : Options) (n : Nat) : Placed Options := ⟨some (o.markAfter n), o.placed n⟩

theorem Options.placedAs (o : Options) (n : Nat) : o.PlacedAs n (o.placed n) (o.markAfter n) :=
  o.place_leads n

theorem Options.placed_unmarked (o : Options) (n : Nat) : (o.placed n).unmarked = o.unmarked :=
  (o.placedAs n).unmarked

end Componentry
