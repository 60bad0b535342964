import Componentry.Error
import Mathlib.Data.List.Forall2

/-!
# Computations that are alike

Two computations are compared by what they give and by what they do on the way. A likeness says when
two computations count as alike, for each way of comparing their results; all that is asked of it is
that computations made of like parts are alike.

- `Likeness`: the notion, and `Likeness.foldlM`, `Likeness.mapMBy`, `Likeness.forM`: loops over
  lists.
- `Likeness.equal`: computations that are equal, up to what is compared of their results.
- `Likeness.paired`: computations on states that correspond, as long as what comes out is sound.
- `Likeness.beside`: computations that change a state of their own besides.
- `Likeness.failing`: computations that may fail.
-/

namespace Componentry

variable {m : Type → Type} [Monad m] {α β γ δ σ ε : Type}

/-- When computations are alike whose results are to be related; sequencing keeps it. -/
structure Likeness (m : Type → Type) [Monad m] where
  Rel : {α β : Type} → (α → β → Prop) → m α → m β → Prop
  pure : ∀ {α β : Type} {r : α → β → Prop} {a : α} {b : β}, r a b →
    Rel r (Pure.pure a) (Pure.pure b)
  bind : ∀ {α β γ δ : Type} {r : α → β → Prop} {s : γ → δ → Prop} {x : m α} {y : m β}
    {f : α → m γ} {g : β → m δ}, Rel r x y → (∀ a b, r a b → Rel s (f a) (g b)) →
    Rel s (x >>= f) (y >>= g)

namespace Likeness

variable (L : Likeness m) {r : α → β → Prop} {s : γ → δ → Prop}

theorem imp [LawfulMonad m] {x : m α} {y : m β} {r' : α → β → Prop} (h : L.Rel r x y)
    (hr : ∀ a b, r a b → r' a b) : L.Rel r' x y := by
  rw [← bind_pure x, ← bind_pure y]
  exact L.bind h fun a b hab => L.pure (hr a b hab)

/-- Parts with the same result. -/
theorem bindSame {x y : m α} {f : α → m γ} {g : α → m δ} (h : L.Rel Eq x y)
    (hf : ∀ a, L.Rel s (f a) (g a)) : L.Rel s (x >>= f) (y >>= g) :=
  L.bind h fun a b hab => by
    cases hab
    exact hf a

theorem map [LawfulMonad m] {x : m α} {y : m β} {f : α → γ} {g : β → δ} (h : L.Rel r x y)
    (hf : ∀ a b, r a b → s (f a) (g b)) : L.Rel s (f <$> x) (g <$> y) := by
  rw [map_eq_pure_bind, map_eq_pure_bind]
  exact L.bind h fun a b hab => L.pure (hf a b hab)

theorem ite {c : Prop} [Decidable c] {x x' : m α} {y y' : m β} (h : L.Rel r x y)
    (h' : L.Rel r x' y') : L.Rel r (if c then x else x') (if c then y else y') := by
  split
  · exact h
  · exact h'

/-- Something said first, on either side or not, makes no difference if it is like doing nothing. -/
theorem saidFirst [LawfulMonad m] {c c' : Prop} [Decidable c] [Decidable c'] {a a' : m PUnit}
    {x : m α} {y : m β} (h : L.Rel r x y) (hboth : L.Rel Eq a a')
    (hleft : L.Rel Eq a (Pure.pure ⟨⟩)) (hright : L.Rel Eq (Pure.pure ⟨⟩) a') :
    L.Rel r (if c then a >>= fun _ => x else x) (if c' then a' >>= fun _ => y else y) := by
  split
  · split
    · exact L.bindSame hboth fun _ => h
    · rw [← pure_bind PUnit.unit fun _ => y]
      exact L.bindSame hleft fun _ => h
  · split
    · rw [← pure_bind PUnit.unit fun _ => x]
      exact L.bindSame hright fun _ => h
    · exact h

/-! ## Loops -/

theorem foldlM {f : α → γ → m α} {g : β → γ → m β} (items : List γ) {a : α} {b : β} (hab : r a b)
    (h : ∀ x ∈ items, ∀ a b, r a b → L.Rel r (f a x) (g b x)) :
    L.Rel r (items.foldlM f a) (items.foldlM g b) := by
  induction items generalizing a b with
  | nil => exact L.pure hab
  | cons x rest ih =>
    rw [List.foldlM_cons, List.foldlM_cons]
    refine L.bind (h x List.mem_cons_self a b hab) fun a' b' hab' => ?_
    exact ih hab' fun x' hx' => h x' (List.mem_cons_of_mem _ hx')

/-- Results of a row of computations, one by one. -/
theorem mapMBy {f : γ → m α} {g : γ → m β} [LawfulMonad m] (items : List γ)
    (h : ∀ x ∈ items, L.Rel r (f x) (g x)) :
    L.Rel (List.Forall₂ r) (items.mapM f) (items.mapM g) := by
  induction items with
  | nil =>
    rw [List.mapM_nil, List.mapM_nil]
    exact L.pure .nil
  | cons x rest ih =>
    rw [List.mapM_cons, List.mapM_cons]
    refine L.bind (h x List.mem_cons_self) fun a b hab => ?_
    refine L.bind (ih fun x' hx' => h x' (List.mem_cons_of_mem _ hx')) fun as bs habs => ?_
    exact L.pure (.cons hab habs)

theorem mapM [LawfulMonad m] {f : γ → m α} {g : γ → m α} (items : List γ)
    (h : ∀ x ∈ items, L.Rel Eq (f x) (g x)) : L.Rel Eq (items.mapM f) (items.mapM g) :=
  L.imp (L.mapMBy items h) fun as bs has => by rwa [List.forall₂_eq_eq_eq] at has

theorem forM {f g : γ → m PUnit} (items : List γ) (h : ∀ x ∈ items, L.Rel Eq (f x) (g x)) :
    L.Rel Eq (items.forM f) (items.forM g) := by
  induction items with
  | nil => exact L.pure rfl
  | cons x rest ih =>
    show L.Rel Eq (f x >>= fun _ => rest.forM f) (g x >>= fun _ => rest.forM g)
    refine L.bindSame (h x List.mem_cons_self) fun _ => ?_
    exact ih fun x' hx' => h x' (List.mem_cons_of_mem _ hx')

end Likeness

/-! ## Kinds of likeness -/

/-- Outcomes of computations that may fail: results that are related, or the same error. -/
inductive SameOutcomeBy (r : α → β → Prop) : Except ε α → Except ε β → Prop where
  | ok {a : α} {b : β} (h : r a b) : SameOutcomeBy r (.ok a) (.ok b)
  | error (e : ε) : SameOutcomeBy r (.error e) (.error e)

/-- Outcomes with the same result are the same. -/
theorem SameOutcomeBy.eq {x y : Except ε α} (h : SameOutcomeBy Eq x y) : x = y := by
  cases h with
  | ok h => exact congrArg Except.ok h
  | error e => rfl

namespace Likeness

/-- Computations are the two sides of one computation of pairs that are related. -/
def EqualBy (r : α → β → Prop) (x : m α) (y : m β) : Prop :=
  ∃ z : m {p : α × β // r p.1 p.2}, x = (·.1.1) <$> z ∧ y = (·.1.2) <$> z

/-- Computations that are equal, up to what is compared of their results. -/
def equal (m : Type → Type) [Monad m] [LawfulMonad m] : Likeness m where
  Rel := EqualBy
  pure {_ _ _ a b} h := ⟨Pure.pure ⟨(a, b), h⟩, by rw [map_pure], by rw [map_pure]⟩
  bind {α β γ δ r s x y f g} h hf := by
    obtain ⟨z, rfl, rfl⟩ := h
    obtain ⟨w, hw⟩ := Classical.axiomOfChoice fun p : {p : α × β // r p.1 p.2} =>
      hf p.1.1 p.1.2 p.2
    refine ⟨z >>= w, ?_, ?_⟩
    · rw [map_bind, bind_map_left]
      exact bind_congr fun p => (hw p).1
    · rw [map_bind, bind_map_left]
      exact bind_congr fun p => (hw p).2

/-- What is compared of the results is equal then. -/
theorem EqualBy.map_eq [LawfulMonad m] {r : α → β → Prop} {x : m α} {y : m β}
    (h : EqualBy r x y) {f : α → γ} {g : β → γ} (hf : ∀ a b, r a b → f a = g b) :
    f <$> x = g <$> y := by
  obtain ⟨z, rfl, rfl⟩ := h
  rw [Functor.map_map, Functor.map_map]
  exact congrArg (· <$> z) (funext fun p => hf p.1.1 p.1.2 p.2)

theorem equalBy_refl [LawfulMonad m] (x : m α) : EqualBy Eq x x := by
  refine ⟨(fun a => ⟨(a, a), rfl⟩) <$> x, ?_, ?_⟩
  · rw [Functor.map_map, id_map']
  · rw [Functor.map_map, id_map']

/-- Computations that change a state of their own besides: from the same state they come to the
same one. -/
def beside (L : Likeness m) (σ : Type) : Likeness (StateT σ m) where
  Rel r x y := ∀ t, L.Rel (fun a b => r a.1 b.1 ∧ a.2 = b.2) (x.run t) (y.run t)
  pure h _ := L.pure ⟨h, rfl⟩
  bind h hf t := by
    rw [StateT.run_bind, StateT.run_bind]
    refine L.bind (h t) fun a b ⟨hab, ht⟩ => ?_
    rw [ht]
    exact hf a.1 b.1 hab b.2

theorem beside_lift [LawfulMonad m] (L : Likeness m) {r : α → β → Prop} {x : m α} {y : m β}
    (h : L.Rel r x y) : (L.beside σ).Rel r (StateT.lift x) (StateT.lift y) := fun t => by
  rw [StateT.run_lift, StateT.run_lift]
  exact L.bind h fun a b hab => L.pure ⟨hab, rfl⟩

/-- Computations that may fail: both fail with the same error, or none does. -/
def failing (L : Likeness m) (ε : Type) : Likeness (ExceptT ε m) where
  Rel r x y := L.Rel (SameOutcomeBy r) x.run y.run
  pure h := L.pure (.ok h)
  bind h hf := by
    rw [ExceptT.run_bind, ExceptT.run_bind]
    refine L.bind h fun a b hab => ?_
    cases hab with
    | ok hab => exact hf _ _ hab
    | error e => exact L.pure (.error e)

theorem failing_lift [LawfulMonad m] (L : Likeness m) {r : α → β → Prop} {x : m α} {y : m β}
    (h : L.Rel r x y) : (L.failing ε).Rel r (ExceptT.lift x) (ExceptT.lift y) := by
  show L.Rel _ (ExceptT.run _) (ExceptT.run _)
  rw [ExceptT.run_lift, ExceptT.run_lift]
  exact L.map h fun a b hab => .ok hab

/-- Computations on states of which some are sound: they come to a sound state from sound ones only.
From states that correspond they come to states that correspond, with related results, if both come
to a sound state. What one of them gives from any state is related to something. -/
structure Paired (S : σ → σ → Prop) (G G' : σ → Prop) (r : α → β → Prop) (x : StateM σ α)
    (y : StateM σ β) : Prop where
  left : ∀ s, (∃ b, r (x.run s).1 b) ∧ (G (x.run s).2 → G s)
  right : ∀ s, (∃ a, r a (y.run s).1) ∧ (G' (y.run s).2 → G' s)
  both : ∀ s s', S s s' → G (x.run s).2 → G' (y.run s').2 →
    r (x.run s).1 (y.run s').1 ∧ S (x.run s).2 (y.run s').2

/-- Computations on states that correspond, as long as what comes out is sound. -/
def paired (S : σ → σ → Prop) (G G' : σ → Prop) : Likeness (StateM σ) where
  Rel := Paired S G G'
  pure {_ _ _ a b} h := ⟨fun _ => ⟨⟨b, h⟩, id⟩, fun _ => ⟨⟨a, h⟩, id⟩, fun _ _ hS _ _ => ⟨h, hS⟩⟩
  bind {_ _ _ _ _ _ x y f g} h hf := by
    refine ⟨fun s => ?_, fun s => ?_, fun s s' hS hG hG' => ?_⟩
    · obtain ⟨⟨b, hb⟩, hG⟩ := h.left s
      obtain ⟨hc, hG₁⟩ := (hf _ _ hb).left (x.run s).2
      exact ⟨hc, fun hend => hG (hG₁ hend)⟩
    · obtain ⟨⟨a, ha⟩, hG⟩ := h.right s
      obtain ⟨hc, hG₁⟩ := (hf _ _ ha).right (y.run s).2
      exact ⟨hc, fun hend => hG (hG₁ hend)⟩
    · -- both were sound in between
      obtain ⟨b, hb⟩ := (h.left s).1
      obtain ⟨a, ha⟩ := (h.right s').1
      obtain ⟨hr, hS₁⟩ := h.both s s' hS (((hf _ _ hb).left _).2 hG) (((hf _ _ ha).right _).2 hG')
      exact (hf _ _ hr).both _ _ hS₁ hG hG'

theorem failing_throw (L : Likeness m) {r : α → β → Prop} (e : ε) :
    (L.failing ε).Rel r (throw e) (throw e) := L.pure (.error e)

end Likeness

end Componentry
