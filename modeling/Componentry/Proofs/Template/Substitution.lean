import Componentry.Template.Prepare
import Mathlib.Data.List.Infix

/-!
# Substituting stretches of a text

A substitution goes over a text from the left and takes the stretches that it finds. It knows
nothing of what the text says, so where a text is made of pieces, a stretch may begin in one piece
and end in another, or begin where a reader would not begin anything.

- `substitute_none`, `substitute_some`: **one step** of a substitution.
- `Settled`: the stretches that begin in a text end in it, whatever follows it.
- `substitute_append`: **such a text** is substituted by itself.
- `Untouched`: no stretch begins in a text.
- `Grows`: with every stretch that is replaced there is more of a character.
- `substitute_eq_self_iff`: a text **stays as it is** if and only if no stretch begins in it.
- `flatMap_eq_iff`: so it is with texts in a row.
-/

namespace Componentry.Template

variable {m : List Char → Option Stretch} {cs front back new : List Char} {c x : Char} {n : Nat}

/-! ## One step -/

theorem substituteFrom_eq (m : List Char → Option Stretch) (skip : Nat) (cs : List Char) :
    substituteFrom m skip cs = substitute m (cs.drop skip) := by
  induction cs generalizing skip with
  | nil => cases skip <;> rfl
  | cons c cs ih =>
    cases skip with
    | zero => rfl
    | succ skip =>
      rw [substituteFrom, List.drop_succ_cons]
      exact ih skip

theorem substitute_none (h : m (c :: cs) = none) :
    substitute m (c :: cs) = c :: substitute m cs := by
  rw [substitute, substituteFrom, h]
  rfl

theorem substitute_some (h : m (c :: cs) = some (new, n)) :
    substitute m (c :: cs) = new ++ substitute m (cs.drop n) := by
  rw [substitute, substituteFrom, h]
  show new ++ substituteFrom m n cs = _
  rw [substituteFrom_eq]

/-- **The way of a substitution** over a text: it passes one character, or a whole stretch. -/
theorem substitute_induction {motive : List Char → Prop} (m : List Char → Option Stretch)
    (nil : motive [])
    (pass : ∀ c cs, m (c :: cs) = none → motive cs → motive (c :: cs))
    (stretch : ∀ c cs new n, m (c :: cs) = some (new, n) → motive (cs.drop n) → motive (c :: cs))
    (cs : List Char) : motive cs := by
  induction hlen : cs.length using Nat.strongRecOn generalizing cs with
  | ind len ih =>
    cases cs with
    | nil => exact nil
    | cons c cs =>
      rw [List.length_cons] at hlen
      cases hm : m (c :: cs) with
      | none => exact pass c cs hm (ih cs.length (by omega) cs rfl)
      | some found =>
        obtain ⟨new, n⟩ := found
        refine stretch c cs new n hm (ih (cs.drop n).length ?_ (cs.drop n) rfl)
        rw [List.length_drop]
        omega

/-! ## Texts in a row -/

/-- The stretches that begin in `front` end in it, and are the same without `back` behind it. -/
def Settled (m : List Char → Option Stretch) (front back : List Char) : Prop :=
  ∀ cs, cs <:+ front → cs ≠ [] →
    m (cs ++ back) = m cs ∧ ∀ new n, m cs = some (new, n) → n < cs.length

theorem Settled.of_suffix (h : Settled m front back) (hcs : cs <:+ front) : Settled m cs back :=
  fun ds hds => h ds (hds.trans hcs)

/-- **A text whose stretches end in it** is substituted by itself. -/
theorem substitute_append (h : Settled m front back) :
    substitute m (front ++ back) = substitute m front ++ substitute m back := by
  induction front using substitute_induction m with
  | nil => rfl
  | pass c cs hnone ih =>
    have hmore : m (c :: (cs ++ back)) = none := (h (c :: cs) List.suffix_rfl nofun).1.trans hnone
    rw [List.cons_append, substitute_none hmore, substitute_none hnone,
      ih (h.of_suffix (List.suffix_cons c cs)), List.cons_append]
  | stretch c cs new n hsome ih =>
    obtain ⟨hback, hends⟩ := h (c :: cs) List.suffix_rfl nofun
    have hmore : m (c :: (cs ++ back)) = some (new, n) := hback.trans hsome
    have hn : n ≤ cs.length := Nat.le_of_lt_succ (hends new n hsome)
    have hrest : cs.drop n <:+ c :: cs := (List.drop_suffix n cs).trans (List.suffix_cons c cs)
    rw [List.cons_append, substitute_some hmore, substitute_some hsome,
      List.drop_append_of_le_length hn, ih (h.of_suffix hrest), List.append_assoc]

/-! ## Texts that stay as they are -/

/-- No stretch begins in the text. -/
def Untouched (m : List Char → Option Stretch) (cs : List Char) : Prop :=
  ∀ ds, ds <:+ cs → ds ≠ [] → m ds = none

instance (m : List Char → Option Stretch) (cs : List Char) : Decidable (Untouched m cs) :=
  decidable_of_iff (∀ ds ∈ cs.tails, ds ≠ [] → m ds = none)
    ⟨fun h ds hds => h ds ((List.mem_tails ds cs).mpr hds),
      fun h ds hds => h ds ((List.mem_tails ds cs).mp hds)⟩

theorem untouched_cons :
    Untouched m (c :: cs) ↔ m (c :: cs) = none ∧ Untouched m cs := by
  refine ⟨fun h => ⟨h _ List.suffix_rfl nofun, fun ds hds => h ds ?_⟩,
    fun ⟨hhead, htail⟩ ds hds hne => ?_⟩
  · exact hds.trans (List.suffix_cons c cs)
  rcases List.suffix_cons_iff.mp hds with rfl | hds
  · exact hhead
  · exact htail ds hds hne

theorem substitute_of_untouched (h : Untouched m cs) : substitute m cs = cs := by
  induction cs with
  | nil => rfl
  | cons c cs ih =>
    obtain ⟨hhead, htail⟩ := untouched_cons.mp h
    rw [substitute_none hhead, ih htail]

/-- With every stretch that is replaced there is more of a character. -/
def Grows (m : List Char → Option Stretch) (x : Char) : Prop :=
  ∀ cs new n, m cs = some (new, n) → (cs.take (n + 1)).count x < new.count x

/-- What a stretch and the text behind it have of a character. -/
theorem count_take_drop (x c : Char) (cs : List Char) (n : Nat) :
    ((c :: cs).take (n + 1)).count x + (cs.drop n).count x = (c :: cs).count x := by
  rw [← List.drop_succ_cons (a := c), ← List.count_append, List.take_append_drop]

/-- A substitution takes nothing of the character away. -/
theorem Grows.count_le (h : Grows m x) (cs : List Char) :
    cs.count x ≤ (substitute m cs).count x := by
  induction cs using substitute_induction m with
  | nil => exact Nat.le_refl _
  | pass c cs hnone ih =>
    rw [substitute_none hnone, List.count_cons, List.count_cons]
    exact Nat.add_le_add_right ih _
  | stretch c cs new n hsome ih =>
    have hnew := h _ _ _ hsome
    have hall := count_take_drop x c cs n
    rw [substitute_some hsome, List.count_append]
    omega

/-- Where there is no more of the character, no stretch was found. -/
theorem Grows.untouched (h : Grows m x) (hcount : (substitute m cs).count x = cs.count x) :
    Untouched m cs := by
  induction cs with
  | nil => exact fun ds hds hne => absurd (List.suffix_nil.mp hds) hne
  | cons c cs ih =>
    cases hm : m (c :: cs) with
    | none =>
      rw [substitute_none hm, List.count_cons, List.count_cons] at hcount
      exact untouched_cons.mpr ⟨hm, ih (Nat.add_right_cancel hcount)⟩
    | some found =>
      obtain ⟨new, n⟩ := found
      have hnew := h _ _ _ hm
      have hall := count_take_drop x c cs n
      have hrest := h.count_le (cs.drop n)
      rw [substitute_some hm, List.count_append] at hcount
      omega

/-- **A text stays as it is** if and only if no stretch begins in it. -/
theorem substitute_eq_self_iff (h : Grows m x) : substitute m cs = cs ↔ Untouched m cs :=
  ⟨fun heq => h.untouched (by rw [heq]), substitute_of_untouched⟩

theorem count_flatMap_le {α : Type} {f g : α → List Char} {l : List α}
    (hle : ∀ a ∈ l, (g a).count x ≤ (f a).count x) :
    (l.flatMap g).count x ≤ (l.flatMap f).count x := by
  induction l with
  | nil => exact Nat.le_refl _
  | cons a l ih =>
    obtain ⟨ha, hl⟩ := List.forall_mem_cons.mp hle
    rw [List.flatMap_cons, List.flatMap_cons, List.count_append, List.count_append]
    exact Nat.add_le_add ha (ih hl)

/-- Texts in a row, of which none has less of a character than it should, are what they should be if
and only if each of them is, when having no more of the character is enough for one. -/
theorem flatMap_eq_iff {α : Type} {f g : α → List Char} {l : List α}
    (hle : ∀ a ∈ l, (g a).count x ≤ (f a).count x)
    (heq : ∀ a ∈ l, (f a).count x = (g a).count x → f a = g a) :
    l.flatMap f = l.flatMap g ↔ ∀ a ∈ l, f a = g a := by
  induction l with
  | nil => exact ⟨fun _ => nofun, fun _ => rfl⟩
  | cons a l ih =>
    obtain ⟨hle, hles⟩ := List.forall_mem_cons.mp hle
    obtain ⟨heq, heqs⟩ := List.forall_mem_cons.mp heq
    rw [List.flatMap_cons, List.flatMap_cons, List.forall_mem_cons, ← ih hles heqs]
    refine ⟨fun h => ?_, fun ⟨ha, hl⟩ => by rw [ha, hl]⟩
    have hboth := congrArg (List.count x) h
    have hrest := count_flatMap_le hles
    rw [List.count_append, List.count_append] at hboth
    have ha := heq (by omega)
    rw [ha] at h
    exact ⟨ha, List.append_cancel_left h⟩

end Componentry.Template
