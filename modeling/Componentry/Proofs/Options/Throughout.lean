import Componentry.Class.Resolve
import Componentry.Proofs.Options.Carry
import Componentry.Proofs.Options.Linearize

/-!
# Properties of options and of those inside

Options hold other options, as a base and as mixins, and a merge lays down all of them. A property
of what classes hold is therefore asked of the options inside as well.

- `Options.Throughout`: a property of options and of all options inside them.
- `Hereditary`: a property that operations on options keep, each looking at one object.
- `Hereditary.place`, `Hereditary.mergeResult`, `Hereditary.carry`: **such a property is kept
  throughout**.
-/

namespace Componentry

mutual

/-- A property of options and of all options inside them. -/
def Options.Throughout (P : Options → Prop) : Options → Prop
  | ⟨fields, components, mixins, base, merged⟩ =>
    P ⟨fields, components, mixins, base, merged⟩ ∧ BaseThroughout P base ∧
      MixinsThroughout P mixins

def BaseThroughout (P : Options → Prop) : Option (Placed Options) → Prop
  | none => True
  | some ⟨_, o⟩ => o.Throughout P

def MixinsThroughout (P : Options → Prop) : Option (Placed (List Options)) → Prop
  | none => True
  | some ⟨_, os⟩ => AllThroughout P os

def AllThroughout (P : Options → Prop) : List Options → Prop
  | [] => True
  | o :: rest => o.Throughout P ∧ AllThroughout P rest

end

/-- A property of all options inside. -/
def Options.Inside (P : Options → Prop) (o : Options) : Prop :=
  BaseThroughout P o.base ∧ MixinsThroughout P o.mixins

variable {P Q : Options → Prop}

theorem Options.throughout_iff (o : Options) : o.Throughout P ↔ P o ∧ o.Inside P := by
  cases o
  rw [Options.Throughout, Options.Inside]

theorem Options.Throughout.here {o : Options} (h : o.Throughout P) : P o :=
  (o.throughout_iff.mp h).1

theorem Options.Throughout.inside {o : Options} (h : o.Throughout P) : o.Inside P :=
  (o.throughout_iff.mp h).2

mutual

/-- What holds of all options holds throughout. -/
theorem Options.throughout_of_forall (h : ∀ o, P o) : ∀ o : Options, o.Throughout P
  | ⟨fields, components, mixins, base, merged⟩ => by
    rw [Options.Throughout]
    exact ⟨h _, baseThroughout_of_forall h base, mixinsThroughout_of_forall h mixins⟩

theorem baseThroughout_of_forall (h : ∀ o, P o) : ∀ b : Option (Placed Options), BaseThroughout P b
  | none => by
    rw [BaseThroughout]
    trivial
  | some ⟨_, o⟩ => by
    rw [BaseThroughout]
    exact Options.throughout_of_forall h o

theorem mixinsThroughout_of_forall (h : ∀ o, P o) :
    ∀ ms : Option (Placed (List Options)), MixinsThroughout P ms
  | none => by
    rw [MixinsThroughout]
    trivial
  | some ⟨_, os⟩ => by
    rw [MixinsThroughout]
    exact allThroughout_of_forall h os

theorem allThroughout_of_forall (h : ∀ o, P o) : ∀ os : List Options, AllThroughout P os
  | [] => by
    rw [AllThroughout]
    trivial
  | o :: rest => by
    rw [AllThroughout]
    exact ⟨Options.throughout_of_forall h o, allThroughout_of_forall h rest⟩

end

/-- Options without a base and mixins have no options inside. -/
theorem Options.throughout_alone {o : Options} (h : P o) (hb : o.base = none)
    (hm : o.mixins = none) : o.Throughout P := by
  refine o.throughout_iff.mpr ⟨h, ?_, ?_⟩
  · rw [hb, BaseThroughout]
    trivial
  · rw [hm, MixinsThroughout]
    trivial

mutual

theorem Options.Throughout.imp (hPQ : ∀ o, P o → Q o) :
    ∀ o : Options, o.Throughout P → o.Throughout Q
  | ⟨fields, components, mixins, base, merged⟩, h => by
    rw [Options.Throughout] at h ⊢
    exact ⟨hPQ _ h.1, BaseThroughout.imp hPQ base h.2.1, MixinsThroughout.imp hPQ mixins h.2.2⟩

theorem BaseThroughout.imp (hPQ : ∀ o, P o → Q o) :
    ∀ b : Option (Placed Options), BaseThroughout P b → BaseThroughout Q b
  | none, _ => by
    rw [BaseThroughout]
    trivial
  | some ⟨_, o⟩, h => by
    rw [BaseThroughout] at h ⊢
    exact Options.Throughout.imp hPQ o h

theorem MixinsThroughout.imp (hPQ : ∀ o, P o → Q o) :
    ∀ ms : Option (Placed (List Options)), MixinsThroughout P ms → MixinsThroughout Q ms
  | none, _ => by
    rw [MixinsThroughout]
    trivial
  | some ⟨_, os⟩, h => by
    rw [MixinsThroughout] at h ⊢
    exact AllThroughout.imp hPQ os h

theorem AllThroughout.imp (hPQ : ∀ o, P o → Q o) :
    ∀ os : List Options, AllThroughout P os → AllThroughout Q os
  | [], _ => by
    rw [AllThroughout]
    trivial
  | o :: rest, h => by
    rw [AllThroughout] at h ⊢
    exact ⟨Options.Throughout.imp hPQ o h.1, AllThroughout.imp hPQ rest h.2⟩

end

theorem Options.Inside.imp (hPQ : ∀ o, P o → Q o) {o : Options} (h : o.Inside P) : o.Inside Q :=
  ⟨BaseThroughout.imp hPQ o.base h.1, MixinsThroughout.imp hPQ o.mixins h.2⟩

mutual

/-- What holds throughout options holds throughout each object that they stand for. -/
theorem Options.Throughout.linearize :
    ∀ o : Options, o.Throughout P → ∀ q ∈ o.linearize, q.Throughout P
  | ⟨fields, components, mixins, base, merged⟩, h, q, hq => by
    have hinside := h.inside
    rw [Options.linearize] at hq
    rcases List.mem_append.mp hq with hq | hq
    · cases merged with
      | true => cases hq
      | false =>
        rcases List.mem_append.mp hq with hq | hq
        · exact BaseThroughout.linearize base hinside.1 q hq
        · exact MixinsThroughout.linearize mixins hinside.2 q hq
    · rw [List.mem_singleton.mp hq]
      exact h

theorem BaseThroughout.linearize : ∀ b : Option (Placed Options), BaseThroughout P b →
    ∀ q ∈ linearizeBase b, q.Throughout P
  | none, _, q, hq => by
    rw [linearizeBase] at hq
    cases hq
  | some ⟨_, o⟩, h, q, hq => by
    rw [linearizeBase] at hq
    rw [BaseThroughout] at h
    exact Options.Throughout.linearize o h q hq

theorem MixinsThroughout.linearize : ∀ ms : Option (Placed (List Options)), MixinsThroughout P ms →
    ∀ q ∈ linearizeMixins ms, q.Throughout P
  | none, _, q, hq => by
    rw [linearizeMixins] at hq
    cases hq
  | some ⟨_, os⟩, h, q, hq => by
    rw [linearizeMixins] at hq
    rw [MixinsThroughout] at h
    exact AllThroughout.linearize os h q hq

theorem AllThroughout.linearize : ∀ os : List Options, AllThroughout P os →
    ∀ q ∈ linearizeAll os, q.Throughout P
  | [], _, q, hq => by
    rw [linearizeAll] at hq
    cases hq
  | o :: rest, h, q, hq => by
    rw [linearizeAll] at hq
    rw [AllThroughout] at h
    rcases List.mem_append.mp hq with hq | hq
    · exact Options.Throughout.linearize o h.1 q hq
    · exact AllThroughout.linearize rest h.2 q hq

end

theorem baseThroughout_or {p c : Option (Placed Options)} (hp : BaseThroughout P p)
    (hc : BaseThroughout P c) : BaseThroughout P (c <|> p) := by
  cases c with
  | none => exact hp
  | some c => exact hc

theorem mixinsThroughout_or {p c : Option (Placed (List Options))} (hp : MixinsThroughout P p)
    (hc : MixinsThroughout P c) : MixinsThroughout P (c <|> p) := by
  cases c with
  | none => exact hp
  | some c => exact hc

theorem Options.Inside.foundation {o : Options} (h : o.Inside P) :
    ∀ q ∈ o.foundation, q.Throughout P := by
  intro q hq
  rw [Options.foundation] at hq
  split at hq
  · cases hq
  · rcases List.mem_append.mp hq with hq | hq
    · exact BaseThroughout.linearize o.base h.1 q hq
    · exact MixinsThroughout.linearize o.mixins h.2 q hq

theorem Options.Inside.withSelf {o : Options} (h : o.Inside P) (name : Option String)
    (c : ClassId) : (o.withSelf name c).Inside P := by
  cases name <;> exact h

theorem Options.Inside.joined {p c : Options} {extra : Dict Json.Value} (hp : p.Inside P)
    (hc : c.Inside P) : (p.joined c extra).Inside P :=
  ⟨baseThroughout_or hp.1 hc.1, mixinsThroughout_or hp.2 hc.2⟩

/-- Carrying edits over takes the options inside from the live ones or from the definition. -/
theorem inside_carried {k : Class} (hlive : k.options.value.Inside P)
    (hd : k.definition.Inside P) : k.carried.Inside P := by
  rw [k.carried_eq]
  constructor
  · show BaseThroughout P (unlessSame _ k.options.value.base <|> k.definition.base)
    rcases unlessSame_or (Placed.sameOption k.options.value.base k.sealed.value.base)
      k.options.value.base k.definition.base with h | h
    · rw [h]
      exact hlive.1
    · rw [h]
      exact hd.1
  · show MixinsThroughout P (unlessSame _ k.options.value.mixins <|> k.definition.mixins)
    rcases unlessSame_or (Placed.sameOption k.options.value.mixins k.sealed.value.mixins)
      k.options.value.mixins k.definition.mixins with h | h
    · rw [h]
      exact hlive.2
    · rw [h]
      exact hd.2

/-! ## Properties that operations keep -/

/-- A property of options whose marks are below a bound, not of those inside, that operations on
options keep. -/
structure Hereditary (cfg : Config) (P : Nat → Options → Prop) : Prop where
  empty : ∀ n, P n {}
  mono : ∀ {n n' o}, n ≤ n' → P n o → P n' o
  placed : ∀ {n n' o o'}, P n o → o.PlacedAs n o' n' → P n' o'
  layered : ∀ {n p c m}, P n p → P n c → Options.over cfg p c = .ok m → P n m
  carried : ∀ {n live d} (kept : Options), P n live → P n d → P n (d.carry (live.changes kept))
  addComponent : ∀ {n o} (name : String) (c : ComponentRef Options), P n o →
    P n (o.addComponent name c)
  named : ∀ {n o} (name : Option String), P n o → P n (o.mapFields ({ · with name := name }))
  asMerged : ∀ {n o}, P n o → P n { o with merged := true }

namespace Hereditary

variable {cfg : Config} {P : Nat → Options → Prop} {n : Nat} {o : Options}

/-- What holds of all options is hereditary. -/
theorem of_forall (h : ∀ n o, P n o) : Hereditary cfg P where
  empty _ := h _ _
  mono _ _ := h _ _
  placed _ _ := h _ _
  layered _ _ _ := h _ _
  carried _ _ _ := h _ _
  addComponent _ _ _ := h _ _
  named _ _ := h _ _
  asMerged _ := h _ _

/-- Two hereditary properties are one. -/
theorem and {Q : Nat → Options → Prop} (H : Hereditary cfg P) (K : Hereditary cfg Q) :
    Hereditary cfg fun n o => P n o ∧ Q n o where
  empty n := ⟨H.empty n, K.empty n⟩
  mono hn h := ⟨H.mono hn h.1, K.mono hn h.2⟩
  placed h hp := ⟨H.placed h.1 hp, K.placed h.2 hp⟩
  layered hp hc h := ⟨H.layered hp.1 hc.1 h, K.layered hp.2 hc.2 h⟩
  carried kept hl hd := ⟨H.carried kept hl.1 hd.1, K.carried kept hl.2 hd.2⟩
  addComponent name c h := ⟨H.addComponent name c h.1, K.addComponent name c h.2⟩
  named name h := ⟨H.named name h.1, K.named name h.2⟩
  asMerged h := ⟨H.asMerged h.1, K.asMerged h.2⟩

theorem throughout_mono (H : Hereditary cfg P) {n' : Nat} (hn : n ≤ n')
    (h : o.Throughout (P n)) : o.Throughout (P n') :=
  Options.Throughout.imp (fun _ => H.mono hn) o h

theorem throughout_empty (H : Hereditary cfg P) (n : Nat) : Options.Throughout (P n) {} :=
  Options.throughout_alone (H.empty n) rfl rfl

/-! ### Storing -/

theorem throughout_placed (H : Hereditary cfg P) {n' : Nat} {o' : Options} (h : o.Throughout (P n))
    (hp : o.PlacedAs n o' n') (hi : o'.Inside (P n')) : o'.Throughout (P n') :=
  o'.throughout_iff.mpr ⟨H.placed h.here hp, hi⟩

mutual

/-- Storing keeps a hereditary property of all options inside, in the order in which they are
stored. -/
theorem inside_leads (H : Hereditary cfg P) : ∀ (o : Options) (n : Nat), o.Inside (P n) →
    Leads o.place n fun o' n' => o'.Inside (P n')
  | ⟨fields, components, mixins, base, merged⟩, n, h => by
    obtain ⟨hbase, hmixins⟩ := h
    rw [Options.place]
    refine Leads.bind (fields.place_leads n) fun fields' n₁ ⟨h₁, _⟩ => ?_
    refine Leads.bind (placeComponents_leads components n₁) fun components' n₂ ⟨h₂, _⟩ => ?_
    have hplaced := Componentry.placeMixins_leads mixins n₂
    refine Leads.bind (hplaced.and (H.placeMixins_leads mixins n₂ ?_))
      fun mixins' n₃ ⟨⟨h₃, _⟩, hm⟩ => ?_
    · exact MixinsThroughout.imp (fun _ => H.mono (by omega)) mixins hmixins
    refine Leads.bind ((Componentry.placeBase_leads base n₃).and (H.placeBase_leads base n₃ ?_))
      fun base' n₄ ⟨⟨h₄, _⟩, hb⟩ => ?_
    · exact BaseThroughout.imp (fun _ => H.mono (by omega)) base hbase
    exact Leads.pure ⟨hb, MixinsThroughout.imp (fun _ => H.mono h₄) mixins' hm⟩

theorem placeMixins_leads (H : Hereditary cfg P) :
    ∀ (ms : Option (Placed (List Options))) (n : Nat), MixinsThroughout (P n) ms →
      Leads (placeMixins ms) n fun ms' n' => MixinsThroughout (P n') ms'
  | none, n, h => by
    rw [placeMixins]
    exact Leads.pure h
  | some ⟨some m, os⟩, n, h => by
    rw [placeMixins]
    exact Leads.pure h
  | some ⟨none, os⟩, n, h => by
    rw [placeMixins]
    rw [MixinsThroughout] at h
    refine Leads.bind (H.placeAll_leads os n h) fun os' n₁ hos => ?_
    refine (Placed.placeSome_leads none os' n₁).imp fun ms' n₂ ⟨h₂, m, hms, _⟩ => ?_
    subst hms
    rw [MixinsThroughout]
    exact AllThroughout.imp (fun _ => H.mono h₂) os' hos

theorem placeAll_leads (H : Hereditary cfg P) : ∀ (os : List Options) (n : Nat),
    AllThroughout (P n) os → Leads (placeAll os) n fun os' n' => AllThroughout (P n') os'
  | [], n, h => by
    rw [placeAll]
    exact Leads.pure h
  | o :: rest, n, h => by
    rw [placeAll]
    rw [AllThroughout] at h
    refine Leads.bind ((Options.place_leads o n).and (H.inside_leads o n h.1.inside))
      fun o' n₁ ⟨hp, ho⟩ => ?_
    have hrest := AllThroughout.imp (fun _ => H.mono hp.le) rest h.2
    refine Leads.bind ((Componentry.placeAll_leads rest n₁).and (H.placeAll_leads rest n₁ hrest))
      fun rest' n₂ ⟨⟨h₂, _⟩, hr⟩ => Leads.pure ?_
    rw [AllThroughout]
    exact ⟨H.throughout_mono h₂ (H.throughout_placed h.1 hp ho), hr⟩

theorem placeBase_leads (H : Hereditary cfg P) : ∀ (b : Option (Placed Options)) (n : Nat),
    BaseThroughout (P n) b → Leads (placeBase b) n fun b' n' => BaseThroughout (P n') b'
  | none, n, h => by
    rw [placeBase]
    exact Leads.pure h
  | some ⟨some m, o⟩, n, h => by
    rw [placeBase]
    exact Leads.pure h
  | some ⟨none, o⟩, n, h => by
    rw [placeBase]
    rw [BaseThroughout] at h
    refine Leads.bind ((Options.place_leads o n).and (H.inside_leads o n h.inside))
      fun o' n₁ ⟨hp, ho⟩ => ?_
    refine (Placed.placeSome_leads none o' n₁).imp fun b' n₂ ⟨h₂, m, hb, _⟩ => ?_
    subst hb
    rw [BaseThroughout]
    exact H.throughout_mono h₂ (H.throughout_placed h hp ho)

end

/-- **Storing** keeps a hereditary property throughout. -/
theorem place_leads (H : Hereditary cfg P) (o : Options) (n : Nat) (h : o.Throughout (P n)) :
    Leads o.place n fun o' n' => o'.Throughout (P n') :=
  ((Options.place_leads o n).and (H.inside_leads o n h.inside)).imp fun _ _ ⟨hp, hi⟩ =>
    H.throughout_placed h hp hi

/-! ### Merging -/

theorem throughout_over (H : Hereditary cfg P) {p c m : Options} (hp : p.Throughout (P n))
    (hc : c.Throughout (P n)) (h : Options.over cfg p c = .ok m) : m.Throughout (P n) := by
  refine m.throughout_iff.mpr ⟨H.layered hp.here hc.here h, ?_⟩
  obtain ⟨extra, -, rfl⟩ := Options.over_eq_ok h
  exact hp.inside.joined hc.inside

theorem foldlM_over (H : Hereditary cfg P) {cs : List Options} {p m : Options}
    (hp : p.Throughout (P n)) (hcs : ∀ c ∈ cs, c.Throughout (P n))
    (h : cs.foldlM (Options.over cfg) p = .ok m) : m.Throughout (P n) := by
  induction cs generalizing p with
  | nil =>
    cases h
    exact hp
  | cons c rest ih =>
    rw [List.foldlM_cons] at h
    cases hover : Options.over cfg p c with
    | error e =>
      rw [hover] at h
      cases h
    | ok q =>
      rw [hover] at h
      have hq := H.throughout_over hp (hcs c List.mem_cons_self) hover
      exact ih hq (fun c' hc' => hcs c' (List.mem_cons_of_mem _ hc')) h

/-- **Merging** keeps a hereditary property throughout. -/
theorem mergeResult (H : Hereditary cfg P) {p c m : Options} (hp : p.Throughout (P n))
    (hc : c.Throughout (P n)) (h : Options.mergeResult cfg p c = .ok m) : m.Throughout (P n) :=
  H.foldlM_over hp (Options.Throughout.linearize c hc) h

theorem throughout_withSelf (H : Hereditary cfg P) (h : o.Throughout (P n)) (name : Option String)
    (c : ClassId) : (o.withSelf name c).Throughout (P n) := by
  cases name with
  | none => exact h
  | some name =>
    exact (Options.throughout_iff _).mpr ⟨H.addComponent name _ h.here, h.inside⟩

/-- **Carrying edits over** keeps a hereditary property throughout. -/
theorem throughout_carried (H : Hereditary cfg P) {k : Class}
    (hlive : k.options.value.Throughout (P n)) (hd : k.definition.Throughout (P n)) :
    k.carried.Throughout (P n) := by
  refine (Options.throughout_iff _).mpr ⟨?_, inside_carried hlive.inside hd.inside⟩
  rw [k.carried_eq]
  exact H.carried _ hlive.here hd.here

/-- What lies beneath an object has a property that the parent and all options inside have. -/
theorem throughout_beneath (H : Hereditary cfg P) {p w : Options} (hp : p.Throughout (P n))
    (ho : o.Inside (P n)) (h : Options.beneath cfg p o = .ok w) : w.Throughout (P n) :=
  H.foldlM_over hp ho.foundation h

theorem throughout_asMerged (H : Hereditary cfg P) (h : o.Throughout (P n)) :
    Options.Throughout (P n) { o with merged := true } :=
  (Options.throughout_iff _).mpr ⟨H.asMerged h.here, h.inside⟩

theorem throughout_orNamed (H : Hereditary cfg P) (h : o.Throughout (P n)) (name : String) :
    (o.orNamed name).Throughout (P n) := by
  rw [Options.orNamed]
  split
  · exact (Options.throughout_iff _).mpr ⟨H.named _ h.here, h.inside⟩
  · exact h

end Hereditary

end Componentry
