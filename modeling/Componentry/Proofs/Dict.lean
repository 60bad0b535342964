import Componentry.Dict
import Mathlib.Data.String.Basic

/-!
# Laws of dictionaries

The keys of a dictionary that was built by `insert` ascend. Only for such dictionaries does laying
one over another mean what it says: the upper one is walked entry by entry, and a name that came
twice would count with its last entry where a lookup sees its first.

- `Dict.Ordered`: the keys ascend. `insert`, `erase` and `overlay` keep it.
- `Dict.get?_overlay`: what a lookup sees in an overlay.
- `Dict.layer_assoc`: laying over in turn comes to the same **in either grouping**.
- `Dict.ext_of_ordered`: ordered dictionaries are told apart by their entries.
- `Dict.mem_keys_overlay`: an overlay has the names of both.
-/

namespace Componentry

namespace Dict

variable {α β : Type}

/-- The keys ascend. -/
def Ordered (d : Dict α) : Prop := List.Pairwise (fun a b => a.1 < b.1) d

instance (d : Dict α) : Decidable (Ordered d) :=
  inferInstanceAs (Decidable (List.Pairwise (fun a b => a.1 < b.1) d))

theorem ordered_nil : Ordered ([] : Dict α) := List.Pairwise.nil

theorem ordered_filter {d : Dict α} (h : Ordered d) (p : String × α → Bool) :
    Ordered (List.filter p d) :=
  List.Pairwise.filter p h

theorem ordered_erase {d : Dict α} (h : Ordered d) (k : String) : Ordered (erase k d) :=
  ordered_filter h _

/-- An entry after an insertion is the new one or an old one. -/
theorem mem_insert {d : Dict α} {k : String} {v : α} {e : String × α} (h : e ∈ insert k v d) :
    e = (k, v) ∨ e ∈ d := by
  induction d with
  | nil => exact Or.inl (List.mem_singleton.mp h)
  | cons e' rest ih =>
    obtain ⟨k', v'⟩ := e'
    rw [insert] at h
    split at h
    · exact List.mem_cons.mp h
    · split at h
      · rcases List.mem_cons.mp h with h | h
        · exact Or.inl h
        · exact Or.inr (List.mem_cons_of_mem _ h)
      · rcases List.mem_cons.mp h with h | h
        · exact Or.inr (h ▸ List.mem_cons_self)
        · exact (ih h).imp id (List.mem_cons_of_mem _)

theorem ordered_insert {d : Dict α} (h : Ordered d) (k : String) (v : α) :
    Ordered (insert k v d) := by
  induction d with
  | nil => exact List.pairwise_singleton _ _
  | cons e rest ih =>
    obtain ⟨k', v'⟩ := e
    obtain ⟨hhead, htail⟩ := List.pairwise_cons.mp h
    rw [insert]
    split
    · rename_i hlt
      refine List.pairwise_cons.mpr ⟨fun e he => ?_, h⟩
      rcases List.mem_cons.mp he with rfl | he
      · exact hlt
      · exact lt_trans hlt (hhead e he)
    · rename_i hnlt
      split
      · rename_i heq
        exact List.pairwise_cons.mpr ⟨fun e he => heq ▸ hhead e he, htail⟩
      · rename_i hne
        refine List.pairwise_cons.mpr ⟨fun e he => ?_, ih htail⟩
        rcases mem_insert he with rfl | he
        · exact lt_of_le_of_ne (not_lt.mp hnlt) (Ne.symm hne)
        · exact hhead e he

theorem ordered_overlay {base : Dict α} (h : Ordered base) (top : Dict α) :
    Ordered (overlay base top) := by
  induction top generalizing base with
  | nil => exact h
  | cons e rest ih => exact ih (ordered_insert h e.1 e.2)

theorem ordered_alter {d : Dict α} (h : Ordered d) (k : String) (f : Option α → α) :
    Ordered (alter k f d) :=
  ordered_insert h k _

theorem get?_alter (d : Dict α) (k j : String) (f : Option α → α) :
    get? (alter k f d) j = if j = k then some (f (get? d k)) else get? d j :=
  get?_insert d k j _

/-- In an ordered dictionary the name of the first entry does not come again. -/
theorem get?_tail {e : String × α} {rest : Dict α} (h : Ordered (e :: rest)) :
    get? rest e.1 = none := by
  have hne : ∀ e' ∈ rest, e'.1 ≠ e.1 := fun e' he' => ne_of_gt ((List.pairwise_cons.mp h).1 e' he')
  clear h
  induction rest with
  | nil => rfl
  | cons e' rest ih =>
    obtain ⟨k', v'⟩ := e'
    rw [get?, if_neg (Ne.symm (hne _ List.mem_cons_self))]
    exact ih fun e' he' => hne e' (List.mem_cons_of_mem _ he')

/-- **Laying over**: the upper dictionary wins wherever it has the name. -/
theorem get?_overlay {top : Dict α} (h : Ordered top) (base : Dict α) (k : String) :
    get? (overlay base top) k = (get? top k <|> get? base k) := by
  induction top generalizing base with
  | nil => rfl
  | cons e rest ih =>
    have hrest := ih (List.pairwise_cons.mp h).2 (insert e.1 e.2 base)
    have htail := get?_tail h
    obtain ⟨k', v'⟩ := e
    show get? (overlay (insert k' v' base) rest) k = _
    rw [hrest, get?_insert, get?]
    by_cases hk : k = k'
    · subst hk
      rw [htail, if_pos rfl, if_pos rfl]
      rfl
    · rw [if_neg hk, if_neg hk]

/-- What is made of the entries counts before what another dictionary has. To look at the first
entry first is to lay what is made of it over the other dictionary. -/
theorem get?_bind_cons {e : String × α} {rest : Dict α} (h : Ordered (e :: rest))
    (f : α → Option β) (d : Dict β) (k : String) :
    ((get? (e :: rest) k).bind f <|> get? d k) =
      ((get? rest k).bind f <|> get? ((f e.2).elim d fun v => insert e.1 v d) k) := by
  have htail := get?_tail h
  obtain ⟨k', a⟩ := e
  rw [get?]
  by_cases hk : k = k'
  · rw [if_pos hk, hk, htail, Option.bind_some]
    cases f a with
    | none => rfl
    | some v => exact ((get?_insert d k' k' v).trans (if_pos rfl)).symm
  · rw [if_neg hk]
    cases f a with
    | none => rfl
    | some v => exact congrArg _ (funext fun _ => ((get?_insert d k' k v).trans (if_neg hk)).symm)

/-- What a lookup finds is there. -/
theorem mem_of_get? {d : Dict α} {k : String} {v : α} (h : get? d k = some v) : (k, v) ∈ d := by
  induction d with
  | nil => cases h
  | cons e rest ih =>
    obtain ⟨k', v'⟩ := e
    rw [get?] at h
    by_cases hk : k = k'
    · rw [if_pos hk] at h
      cases h
      exact hk ▸ List.mem_cons_self
    · rw [if_neg hk] at h
      exact List.mem_cons_of_mem _ (ih h)

/-- Only the names that an entry stands for are found. -/
theorem mem_keys_of_get? {d : Dict α} {k : String} {v : α} (h : get? d k = some v) :
    k ∈ keys d := List.mem_map_of_mem (mem_of_get? h)

/-- In an ordered dictionary every entry is the one that a lookup of its name finds. -/
theorem get?_of_mem {d : Dict α} (hd : Ordered d) {k : String} {v : α} (h : (k, v) ∈ d) :
    get? d k = some v := by
  induction d with
  | nil => cases h
  | cons e rest ih =>
    obtain ⟨k', v'⟩ := e
    obtain ⟨hhead, htail⟩ := List.pairwise_cons.mp hd
    rcases List.mem_cons.mp h with heq | hrest
    · cases heq
      rw [get?, if_pos rfl]
    · rw [get?, if_neg (ne_of_gt (hhead _ hrest))]
      exact ih htail hrest

/-- What a lookup sees once entries were left out. -/
theorem get?_filter {d : Dict α} (h : Ordered d) (p : String × α → Bool) (k : String) :
    get? (List.filter p d) k = (get? d k).filter fun v => p (k, v) := by
  induction d with
  | nil => rfl
  | cons e rest ih =>
    have hrest := ih (List.pairwise_cons.mp h).2
    have htail := get?_tail h
    obtain ⟨k', v'⟩ := e
    rw [List.filter_cons, get?]
    by_cases hk : k = k'
    · subst hk
      rw [if_pos rfl, Option.filter_some]
      split
      · rw [get?, if_pos rfl]
      · rw [hrest, htail]
        rfl
    · rw [if_neg hk]
      split
      · rw [get?, if_neg hk, hrest]
      · exact hrest

/-! ## Values under a function -/

theorem mapValues_insert (f : α → β) (k : String) (v : α) (d : Dict α) :
    mapValues f (insert k v d) = insert k (f v) (mapValues f d) := by
  induction d with
  | nil => rfl
  | cons e rest ih =>
    obtain ⟨k', v'⟩ := e
    show mapValues f (insert k v ((k', v') :: rest)) =
      insert k (f v) ((k', f v') :: mapValues f rest)
    rw [insert, insert]
    split_ifs
    · rfl
    · rfl
    · exact congrArg _ ih

theorem get?_mapValues (f : α → β) (d : Dict α) (k : String) :
    get? (mapValues f d) k = (get? d k).map f := by
  induction d with
  | nil => rfl
  | cons e rest ih =>
    obtain ⟨k', v'⟩ := e
    show get? ((k', f v') :: mapValues f rest) k = _
    rw [get?, get?]
    split_ifs
    · rfl
    · exact ih

/-! ## Laying over in turn -/

theorem insert_of_lt {k j : String} {v w : α} {rest : Dict α} (h : k < j) :
    insert k v ((j, w) :: rest) = (k, v) :: (j, w) :: rest := by
  rw [insert, if_pos h]

theorem insert_of_gt {k j : String} {v w : α} {rest : Dict α} (h : j < k) :
    insert k v ((j, w) :: rest) = (j, w) :: insert k v rest := by
  rw [insert, if_neg (not_lt_of_gt h), if_neg (ne_of_gt h)]

theorem insert_self {k : String} {v w : α} {rest : Dict α} :
    insert k v ((k, w) :: rest) = (k, v) :: rest := by
  rw [insert, if_neg (lt_irrefl k), if_pos rfl]

/-- Two names may be inserted in either order. -/
theorem insert_comm {k j : String} (h : k ≠ j) (v w : α) (d : Dict α) :
    insert k v (insert j w d) = insert j w (insert k v d) := by
  -- it is enough to look at the smaller name first
  wlog hlt : k < j generalizing k j v w
  · exact (this h.symm w v (lt_of_le_of_ne (not_lt.mp hlt) h.symm)).symm
  induction d with
  | nil => simp [insert, hlt, h.symm, not_lt_of_gt hlt]
  | cons e rest ih =>
    obtain ⟨i, u⟩ := e
    rcases lt_trichotomy k i with hki | rfl | hki
    · rw [insert_of_lt hki, insert_of_gt hlt]
      rcases lt_trichotomy j i with hji | rfl | hji
      · rw [insert_of_lt hji, insert_of_lt hlt]
      · rw [insert_self, insert_of_lt hlt]
      · rw [insert_of_gt hji, insert_of_lt hki]
    · rw [insert_self, insert_of_gt hlt, insert_of_gt hlt, insert_self]
    · rw [insert_of_gt hki, insert_of_gt (lt_trans hki hlt), insert_of_gt hki,
        insert_of_gt (lt_trans hki hlt), ih]

/-- A name that is inserted twice has the later value. -/
theorem insert_insert (k : String) (v w : α) (d : Dict α) :
    insert k v (insert k w d) = insert k v d := by
  induction d with
  | nil => simp [insert]
  | cons e rest ih =>
    obtain ⟨j, u⟩ := e
    rcases lt_trichotomy k j with hkj | rfl | hkj
    · rw [insert_of_lt hkj, insert_self, insert_of_lt hkj]
    · rw [insert_self, insert_self, insert_self]
    · rw [insert_of_gt hkj, insert_of_gt hkj, insert_of_gt hkj, ih]

/-- Lays `top` over `base`, each entry joined to the one that is there. -/
def layer (join : Option α → α → α) (base top : Dict α) : Dict α :=
  top.foldl (fun d e => alter e.1 (join · e.2) d) base

theorem alter_comm {k j : String} (h : k ≠ j) (f g : Option α → α) (d : Dict α) :
    alter k f (alter j g d) = alter j g (alter k f d) := by
  unfold alter
  rw [get?_insert, get?_insert, if_neg h, if_neg h.symm]
  exact insert_comm h _ _ d

theorem alter_alter (k : String) (f g : Option α → α) (d : Dict α) :
    alter k f (alter k g d) = alter k (fun v => f (some (g v))) d := by
  unfold alter
  rw [get?_insert, if_pos rfl]
  exact insert_insert k _ _ d

/-- A name before the first one is not there. -/
theorem get?_of_lt {e : String × α} {rest : Dict α} (h : Ordered (e :: rest)) {k : String}
    (hk : k < e.1) : get? (e :: rest) k = none := by
  cases hget : get? (e :: rest) k with
  | none => rfl
  | some v =>
    obtain ⟨e', he', heq⟩ := List.mem_map.mp (mem_keys_of_get? hget)
    rcases List.mem_cons.mp he' with rfl | he'
    · exact absurd heq (ne_of_gt hk)
    · exact absurd heq (ne_of_gt (lt_trans hk ((List.pairwise_cons.mp h).1 e' he')))

section Layer

variable {join : Option α → α → α} {k : String} {base mid top : Dict α}

/-- A name that is not above may as well be changed afterwards. -/
theorem layer_alter_base (f : Option α → α) (h : ∀ e ∈ top, e.1 ≠ k) :
    layer join (alter k f base) top = alter k f (layer join base top) := by
  induction top generalizing base with
  | nil => rfl
  | cons e rest ih =>
    have hrest : ∀ e' ∈ rest, e'.1 ≠ k := fun e' he' => h e' (List.mem_cons_of_mem _ he')
    show layer join (alter e.1 _ (alter k f base)) rest =
      alter k f (layer join (alter e.1 _ base) rest)
    rw [alter_comm (h e List.mem_cons_self), ih hrest]

/-- The names after the first one are greater. -/
theorem Ordered.ne_head {e : String × α} {rest : Dict α} (h : Ordered (e :: rest)) {j : String}
    (hj : j ≤ e.1) : ∀ e' ∈ rest, e'.1 ≠ j := by
  intro e' he'
  exact ne_of_gt (lt_of_le_of_lt hj ((List.pairwise_cons.mp h).1 e' he'))

/-- One entry more in the middle is one entry more on top. -/
theorem layer_alter_mid (hsome : ∀ o a b, join (some (join o a)) b = join o (join (some a) b))
    (hnone : ∀ o b, join o (join none b) = join o b) (hmid : Ordered mid) (base : Dict α)
    (k : String) (v : α) :
    layer join base (alter k (join · v) mid) = alter k (join · v) (layer join base mid) := by
  induction mid generalizing base with
  | nil =>
    show alter k (join · (join none v)) base = alter k (join · v) base
    rw [alter, alter, hnone]
  | cons e rest ih =>
    obtain ⟨j, a⟩ := e
    have hrest := (List.pairwise_cons.mp hmid).2
    rcases lt_trichotomy k j with hkj | rfl | hkj
    · -- the name comes before all that are there
      have hnot : ∀ e ∈ (j, a) :: rest, e.1 ≠ k := by
        intro e he
        rcases List.mem_cons.mp he with rfl | he
        · exact ne_of_gt hkj
        · exact hmid.ne_head (le_of_lt hkj) e he
      rw [alter, get?_of_lt hmid hkj, insert_of_lt hkj]
      show layer join (alter k (join · (join none v)) base) ((j, a) :: rest) = _
      rw [layer_alter_base _ hnot, alter, hnone]
      rfl
    · -- the name is there
      have hnot := hmid.ne_head (le_refl k)
      rw [alter, get?, if_pos rfl, insert_self]
      show layer join (alter k (join · (join (some a) v)) base) rest =
        alter k (join · v) (layer join (alter k (join · a) base) rest)
      rw [← layer_alter_base _ hnot, alter_alter]
      simp only [hsome]
    · -- the name comes further on
      rw [alter, get?, if_neg (ne_of_gt hkj), insert_of_gt hkj]
      exact ih hrest _

/-- **Laying over in turn**: laying over what was laid over another comes to the same in either
grouping. Only in the middle does the order of names matter. -/
theorem layer_assoc (hsome : ∀ o a b, join (some (join o a)) b = join o (join (some a) b))
    (hnone : ∀ o b, join o (join none b) = join o b) (hmid : Ordered mid) (base top : Dict α) :
    layer join (layer join base mid) top = layer join base (layer join mid top) := by
  induction top generalizing mid with
  | nil => rfl
  | cons e rest ih =>
    have hstep := layer_alter_mid hsome hnone hmid base e.1 e.2
    show layer join (alter e.1 _ (layer join base mid)) rest =
      layer join base (layer join (alter e.1 _ mid) rest)
    rw [← hstep]
    exact ih (ordered_alter hmid e.1 _)

end Layer

/-- Overlays may be grouped either way. -/
theorem overlay_assoc {mid : Dict α} (h : Ordered mid) (base top : Dict α) :
    overlay (overlay base mid) top = overlay base (overlay mid top) := by
  have hlayer : ∀ d t : Dict α, overlay d t = layer (fun _ v => v) d t := fun _ _ => rfl
  simp only [hlayer]
  exact layer_assoc (fun _ _ _ => rfl) (fun _ _ => rfl) h base top

/-- Ordered dictionaries with the same entries are the same. -/
theorem ext_of_ordered {d e : Dict α} (hd : Ordered d) (he : Ordered e)
    (h : ∀ k, get? d k = get? e k) : d = e := by
  induction d generalizing e with
  | nil =>
    cases e with
    | nil => rfl
    | cons y ys =>
      have hy := h y.1
      simp [get?] at hy
  | cons x xs ih =>
    cases e with
    | nil =>
      have hx := h x.1
      simp [get?] at hx
    | cons y ys =>
      obtain ⟨k, a⟩ := x
      obtain ⟨j, b⟩ := y
      -- the smaller of the two first names is in both, so it comes first in both
      have hkj : k = j := by
        rcases lt_trichotomy k j with hlt | heq | hlt
        · have hk := h k
          rw [get?_of_lt he hlt, get?, if_pos rfl] at hk
          cases hk
        · exact heq
        · have hj := h j
          rw [get?_of_lt hd hlt, get?, if_pos rfl] at hj
          cases hj
      subst hkj
      have hab : a = b := by
        have hk := h k
        simpa [get?] using hk
      have hrest : xs = ys := by
        refine ih (List.pairwise_cons.mp hd).2 (List.pairwise_cons.mp he).2 fun i => ?_
        have hi := h i
        by_cases hik : i = k
        · rw [hik, get?_tail hd, get?_tail he]
        · simpa [get?, hik] using hi
      rw [hab, hrest]

/-- Laying over nothing makes no difference. -/
theorem nil_overlay {d : Dict α} (h : Ordered d) : overlay [] d = d := by
  refine ext_of_ordered (ordered_overlay ordered_nil d) h fun k => ?_
  rw [get?_overlay h]
  cases get? d k <;> rfl

/-! ## Names -/

theorem exists_get?_of_mem_keys {d : Dict α} (hd : Ordered d) {k : String} (h : k ∈ keys d) :
    ∃ v, get? d k = some v := by
  obtain ⟨⟨j, v⟩, hmem, rfl⟩ := List.mem_map.mp h
  exact ⟨v, get?_of_mem hd hmem⟩

theorem mem_keys_insert {d : Dict α} {k j : String} {v : α} :
    j ∈ keys (insert k v d) ↔ j = k ∨ j ∈ keys d := by
  induction d with
  | nil => simp [insert, keys]
  | cons e rest ih =>
    obtain ⟨k', v'⟩ := e
    simp only [keys] at ih
    rw [insert]
    split
    · simp [keys]
    · split
      · rename_i heq
        simp [keys, heq]
      · simp only [keys, List.map_cons, List.mem_cons, ih]
        exact or_left_comm

/-- An overlay has the names of both. -/
theorem mem_keys_overlay {base top : Dict α} {j : String} :
    j ∈ keys (overlay base top) ↔ j ∈ keys base ∨ j ∈ keys top := by
  induction top generalizing base with
  | nil => simp [overlay, keys]
  | cons e rest ih =>
    have hrest : j ∈ keys (overlay (insert e.1 e.2 base) rest) ↔
        j ∈ keys (insert e.1 e.2 base) ∨ j ∈ keys rest := ih
    rw [mem_keys_insert] at hrest
    refine hrest.trans ?_
    simp only [keys, List.map_cons, List.mem_cons]
    exact or_assoc.trans or_left_comm

theorem mem_keys_ofList {es : List (String × α)} {j : String} :
    j ∈ keys (ofList es) ↔ j ∈ es.map Prod.fst :=
  mem_keys_overlay.trans (by simp [empty, keys])

end Dict

end Componentry
