/-!
# Dictionaries with ordered keys

A dictionary is a list of pairs in ascending order of keys, so that walking it visits the keys
in order of their code points. `insert` and `erase` keep the order.

- `Dict.get?_insert`, `Dict.get?_erase`: what a lookup sees after a change.
- `Dict.get?_overlay_of_not_mem`: other names keep their values under an overlay.
-/

namespace Componentry

/-- A finite map from names to values, in ascending order of names. -/
abbrev Dict (α : Type) := List (String × α)

namespace Dict

variable {α β : Type}

def empty : Dict α := []

/-- The value bound to a name. -/
def get? : Dict α → String → Option α
  | [], _ => none
  | (k', v) :: rest, k => if k = k' then some v else get? rest k

def contains (d : Dict α) (k : String) : Bool := (get? d k).isSome

def keys (d : Dict α) : List String := List.map Prod.fst d

/-- `d` with `k` bound to `v`. -/
def insert (k : String) (v : α) : Dict α → Dict α
  | [] => [(k, v)]
  | (k', v') :: rest =>
    if k < k' then (k, v) :: (k', v') :: rest
    else if k = k' then (k, v) :: rest
    else (k', v') :: insert k v rest

def erase (k : String) (d : Dict α) : Dict α := List.filter (fun e => e.1 != k) d

/-- `base` with every entry of `top` laid over it. -/
def overlay (base top : Dict α) : Dict α := top.foldl (fun d e => insert e.1 e.2 d) base

def ofList (entries : List (String × α)) : Dict α := overlay empty entries

/-- Changes the entry of `k`, or makes one from `none`. -/
def alter (k : String) (f : Option α → α) (d : Dict α) : Dict α := insert k (f (get? d k)) d

def mapValues (f : α → β) (d : Dict α) : Dict β := List.map (fun e => (e.1, f e.2)) d

theorem get?_insert (d : Dict α) (k j : String) (v : α) :
    get? (insert k v d) j = if j = k then some v else get? d j := by
  induction d with
  | nil => simp [insert, get?]
  | cons e rest ih =>
    obtain ⟨k', v'⟩ := e
    by_cases hlt : k < k'
    · simp [insert, hlt, get?]
    · by_cases heq : k = k'
      · subst heq
        by_cases h : j = k <;> simp [insert, get?, h]
      · simp only [insert, hlt, heq, if_false, get?, ih]
        by_cases h' : j = k'
        · have hjk : j ≠ k := fun hjk => heq (hjk ▸ h')
          simp [h', Ne.symm heq]
        · simp [h']

theorem get?_erase (d : Dict α) (k j : String) :
    get? (erase k d) j = if j = k then none else get? d j := by
  induction d with
  | nil => simp [erase, get?]
  | cons e rest ih =>
    obtain ⟨k', v'⟩ := e
    rw [erase] at ih ⊢
    by_cases hk : k' = k
    · subst hk
      by_cases h : j = k' <;> simp_all [get?]
    · have hkeep : List.filter (fun e => e.1 != k) ((k', v') :: rest) =
          (k', v') :: List.filter (fun e => e.1 != k) rest := by simp [hk]
      rw [hkeep]
      by_cases h' : j = k' <;> simp_all [get?]

theorem get?_overlay_of_not_mem (base top : Dict α) (k : String)
    (h : ∀ e ∈ top, e.1 ≠ k) : get? (overlay base top) k = get? base k := by
  induction top generalizing base with
  | nil => rfl
  | cons e rest ih =>
    simp only [overlay, List.foldl_cons] at ih ⊢
    rw [ih (insert e.1 e.2 base) fun e' he' => h e' (List.mem_cons_of_mem _ he'), get?_insert,
      if_neg (Ne.symm (h e List.mem_cons_self))]

end Dict

end Componentry
