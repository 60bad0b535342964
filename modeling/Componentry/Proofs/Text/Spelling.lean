import Mathlib.Data.List.Chain
import Mathlib.Data.Set.Function
import Componentry.Text.Spelling

/-!
# Spellings that lead to each other

Camel names are made by dropping dashes, so a name is spoilt only where a dash is left that would be
dropped the next time. That takes two dashes in a row. Of names as people write them, small letters
and digits in segments with a dash between any two, there is a camel name for each and each for one.

- `camelize_eq_or_lt`: **making a camel name** leaves a name as it is or takes dashes out of it.
- `camelize_camelize`: without two dashes in a row a camel name is made once for all.
- `Kebab`, `Camel`: the two spellings of a name.
- `invOn_hyphenate_camelize`, `bijOn_camelize`, `bijOn_hyphenate`: **either spelling leads to the
  other**, and back.
-/

namespace Componentry.Text

/-! ## Characters -/

/-- What holds of the characters of ASCII one by one. -/
theorem forall_ascii {P : Char → Prop} (h : ∀ n : Fin 128, P (Char.ofNat n)) {c : Char}
    (hc : c.val < 128) : P c := by
  have hn : c.toNat < 128 := by simpa [UInt32.lt_iff_toNat_lt] using hc
  simpa using h ⟨c.toNat, hn⟩

/-- Letters and digits. -/
theorem isAlphanum_iff {c : Char} :
    c.isAlphanum = true ↔ (c.isUpper = true ∨ c.isLower = true) ∨ c.isDigit = true := by
  show ((c.isUpper || c.isLower) || c.isDigit) = true ↔ _
  rw [Bool.or_eq_true, Bool.or_eq_true]

theorem isAlphanum_of_isLower {c : Char} (h : c.isLower = true) : c.isAlphanum = true :=
  isAlphanum_iff.mpr (.inl (.inr h))

theorem isAlphanum_of_isUpper {c : Char} (h : c.isUpper = true) : c.isAlphanum = true :=
  isAlphanum_iff.mpr (.inl (.inl h))

theorem ascii_of_isAlphanum {c : Char} (h : c.isAlphanum = true) : c.val < 128 := by
  rcases isAlphanum_iff.mp h with (hupper | hlower) | hdigit
  · have hle : c.val ≤ 'Z'.val := (of_decide_eq_true hupper).2
    exact UInt32.lt_of_le_of_lt hle (by decide)
  · have hle : c.val ≤ 'z'.val := of_decide_eq_true (Bool.and_eq_true_iff.mp hlower).2
    exact UInt32.lt_of_le_of_lt hle (by decide)
  · have hle : c.val ≤ '9'.val := of_decide_eq_true (Bool.and_eq_true_iff.mp hdigit).2
    exact UInt32.lt_of_le_of_lt hle (by decide)

theorem isWordChar_of_isAlphanum {c : Char} (h : c.isAlphanum = true) : isWordChar c = true := by
  simp [isWordChar_ascii (ascii_of_isAlphanum h), h]

theorem ne_dash_of_isAlphanum {c : Char} (h : c.isAlphanum = true) : c ≠ '-' := by
  rintro rfl
  simp at h

/-- A small letter and the capital that it becomes. -/
theorem toUpper_of_isLower {c : Char} (h : c.isLower = true) :
    c.toUpper.isUpper = true ∧ c.toUpper.toLower = c ∧ c.isUpper = false := by
  have hc := ascii_of_isAlphanum (isAlphanum_of_isLower h)
  revert h
  exact forall_ascii (P := fun c => c.isLower = true →
    c.toUpper.isUpper = true ∧ c.toUpper.toLower = c ∧ c.isUpper = false) (by decide) hc

/-- A capital and the small letter that it becomes. -/
theorem toLower_of_isUpper {c : Char} (h : c.isUpper = true) :
    c.toLower.isLower = true ∧ c.toLower.toUpper = c := by
  have hc := ascii_of_isAlphanum (isAlphanum_of_isUpper h)
  revert h
  exact forall_ascii (P := fun c => c.isUpper = true →
    c.toLower.isLower = true ∧ c.toLower.toUpper = c) (by decide) hc

/-- A small letter or a digit is its own small letter, and no capital. -/
theorem toLower_of_not_isUpper {c : Char} (h : c.isAlphanum = true) (hupper : c.isUpper = false) :
    c.toLower = c ∧ (c.isLower = true ∨ c.isDigit = true) := by
  have hc := ascii_of_isAlphanum h
  revert h hupper
  exact forall_ascii (P := fun c => c.isAlphanum = true → c.isUpper = false →
    c.toLower = c ∧ (c.isLower = true ∨ c.isDigit = true)) (by decide) hc

/-! ## Capitals are no dashes -/

theorem ofNat_eq_dash {n : Nat} (h : Char.ofNat n = '-') : n = 45 := by
  rw [Char.ofNat] at h
  by_cases hvalid : n.isValidChar
  · rw [dif_pos hvalid] at h
    exact congrArg Char.toNat h
  · rw [dif_neg hvalid] at h
    exact absurd (congrArg Char.toNat h) (by decide)

/-- No run of the table leads to a dash, for all of them stay above it. -/
theorem upperRuns_above : ∀ r ∈ upperRuns, 45 < r.first + r.shift := by decide +kernel

theorem upperExpansions_dashless : ∀ e ∈ upperExpansions, 45 ∉ e.2 := by decide +kernel

theorem image?_above {r : CaseRun} (hr : 45 < r.first + r.shift) {c n : Nat}
    (h : r.image? c = some n) : n ≠ 45 := by
  rw [CaseRun.image?] at h
  split at h
  · rename_i hc
    have hn : Int.toNat (c + r.shift) = n := Option.some.inj h
    omega
  · simp at h

theorem mem_of_lookup {β : Type} {es : List (Nat × β)} {k : Nat} {b : β}
    (h : es.lookup k = some b) : (k, b) ∈ es := by
  induction es with
  | nil => simp at h
  | cons e rest ih =>
    obtain ⟨k', b'⟩ := e
    rw [List.lookup_cons] at h
    split at h
    · rename_i heq
      rw [beq_iff_eq.mp heq, ← Option.some.inj h]
      exact List.mem_cons_self
    · exact List.mem_cons_of_mem _ (ih h)

/-- **The capital** of a character other than a dash has no dash in it. -/
theorem dash_not_mem_upperChar {c : Char} (hc : c ≠ '-') : '-' ∉ upperChar c := by
  rw [upperChar]
  split
  · rename_i hascii
    simp only [List.mem_singleton]
    revert hc
    exact forall_ascii (P := fun c => c ≠ '-' → ¬ '-' = c.toUpper) (by decide) hascii
  · rw [convertWith]
    split
    · rename_i cs hlookup
      intro hmem
      obtain ⟨n, hn, heq⟩ := List.mem_map.mp hmem
      exact upperExpansions_dashless _ (mem_of_lookup hlookup) (ofNat_eq_dash heq ▸ hn)
    · split
      · rename_i n hrun
        obtain ⟨r, hr, himage⟩ := List.exists_of_findSome?_eq_some hrun
        intro hmem
        have heq := ofNat_eq_dash (List.mem_singleton.mp hmem).symm
        exact image?_above (upperRuns_above r hr) himage heq
      · simpa using Ne.symm hc

theorem ne_dash_of_isWordChar {c : Char} (h : isWordChar c = true) : c ≠ '-' := by
  rintro rfl
  simp [isWordChar] at h

/-! ## Making camel names -/

/-- Every dash stands where it is kept: at the end, or before a character that is none of a word. -/
abbrev Settled : List Char → Prop := List.IsChain fun a b => a = '-' → isWordChar b = false

/-- No two dashes stand in a row. -/
abbrev SingleDashes : List Char → Prop := List.IsChain fun a b => a = '-' → b ≠ '-'

theorem settled_of_dashless {cs : List Char} (h : '-' ∉ cs) : Settled cs := by
  induction cs with
  | nil => exact List.isChain_nil
  | cons c cs ih =>
    obtain ⟨hc, hrest⟩ := not_or.mp (List.mem_cons.not.mp h)
    exact List.isChain_cons.mpr ⟨fun _ _ heq => absurd heq.symm hc, ih hrest⟩

theorem camelizeChars_dash {c : Char} (h : isWordChar c = true) (cs : List Char) :
    camelizeChars ('-' :: c :: cs) = upperChar c ++ camelizeChars cs := by
  rw [camelizeChars, if_pos h]

theorem camelizeChars_kept {c : Char} (h : isWordChar c = false) (cs : List Char) :
    camelizeChars ('-' :: c :: cs) = '-' :: camelizeChars (c :: cs) := by
  rw [camelizeChars, if_neg (by simp [h])]

/-- A character stays unless it is a dash with another character behind it. -/
theorem camelizeChars_unless {c : Char} {cs : List Char}
    (h : ∀ c' cs', c = '-' → cs = c' :: cs' → False) :
    camelizeChars (c :: cs) = c :: camelizeChars cs := by
  rw [camelizeChars]
  exact h

theorem camelizeChars_cons {c : Char} (h : c ≠ '-') (cs : List Char) :
    camelizeChars (c :: cs) = c :: camelizeChars cs :=
  camelizeChars_unless fun _ _ heq _ => h heq

/-- **Making a camel name** leaves a name as it is or takes dashes out of it. -/
theorem camelizeChars_eq_or_lt (cs : List Char) :
    camelizeChars cs = cs ∨ (camelizeChars cs).count '-' < cs.count '-' := by
  induction cs using camelizeChars.induct with
  | case1 => exact .inl rfl
  | case2 c cs hword ih =>
    have hcapital := List.count_eq_zero_of_not_mem
      (dash_not_mem_upperChar (ne_dash_of_isWordChar hword))
    have hc : ('-' :: c :: cs).count '-' = cs.count '-' + 1 := by
      simp [ne_dash_of_isWordChar hword]
    right
    rw [camelizeChars_dash hword, List.count_append, hcapital, hc]
    rcases ih with heq | hlt
    · rw [heq]
      omega
    · omega
  | case3 c cs hword ih =>
    rw [camelizeChars_kept (by simpa using hword)]
    rcases ih with heq | hlt
    · exact .inl (by rw [heq])
    · right
      rw [List.count_cons_self, List.count_cons_self]
      omega
  | case4 c cs hkept ih =>
    rw [camelizeChars_unless hkept]
    rcases ih with heq | hlt
    · exact .inl (by rw [heq])
    · right
      rw [List.count_cons, List.count_cons]
      omega

theorem camelizeChars_of_settled {cs : List Char} (h : Settled cs) : camelizeChars cs = cs := by
  induction cs using camelizeChars.induct with
  | case1 => rfl
  | case2 c cs hword ih =>
    have hkept := (List.isChain_cons_cons.mp h).1 rfl
    simp [hword] at hkept
  | case3 c cs hword ih =>
    rw [camelizeChars_kept (by simpa using hword), ih (List.isChain_cons_cons.mp h).2]
  | case4 c cs hkept ih => rw [camelizeChars_unless hkept, ih h.tail]

/-- Without two dashes in a row all dashes that are left are kept for good. -/
theorem settled_camelizeChars {cs : List Char} (h : SingleDashes cs) :
    Settled (camelizeChars cs) := by
  induction cs using camelizeChars.induct with
  | case1 => exact List.isChain_nil
  | case2 c cs hword ih =>
    have hdashless := dash_not_mem_upperChar (ne_dash_of_isWordChar hword)
    rw [camelizeChars_dash hword, Settled, List.isChain_append]
    refine ⟨settled_of_dashless hdashless, ih (List.isChain_cons_cons.mp h).2.tail, ?_⟩
    intro a ha b hb heq
    exact absurd (heq ▸ List.mem_of_mem_getLast? ha) hdashless
  | case3 c cs hword ih =>
    obtain ⟨hc, hrest⟩ := List.isChain_cons_cons.mp h
    have ih := ih hrest
    rw [camelizeChars_kept (by simpa using hword)]
    rw [camelizeChars_cons (hc rfl)] at ih ⊢
    exact List.isChain_cons_cons.mpr ⟨fun _ => by simpa using hword, ih⟩
  | case4 c cs hkept ih =>
    have ih := ih h.tail
    rw [camelizeChars_unless hkept]
    cases cs with
    | nil => exact List.isChain_singleton _
    | cons c' cs' =>
      have hc : c ≠ '-' := fun heq => hkept c' cs' heq rfl
      cases hrest : camelizeChars (c' :: cs') with
      | nil => exact List.isChain_singleton _
      | cons d ds =>
        rw [hrest] at ih
        exact List.isChain_cons_cons.mpr ⟨fun heq => absurd heq hc, ih⟩

theorem toList_camelize (s : String) : (camelize s).toList = camelizeChars s.toList := by
  rw [camelize, String.toList_ofList]

/-- A name is its own camel name, or its camel name has fewer dashes. -/
theorem camelize_eq_or_lt (s : String) :
    camelize s = s ∨ (camelize s).toList.count '-' < s.toList.count '-' := by
  rw [toList_camelize]
  refine (camelizeChars_eq_or_lt s.toList).imp (fun heq => ?_) id
  rw [camelize, heq, String.ofList_toList]

/-- **Once for all**: without two dashes in a row a camel name is its own camel name. -/
theorem camelize_camelize {s : String} (h : SingleDashes s.toList) :
    camelize (camelize s) = camelize s := by
  rw [camelize, toList_camelize, camelizeChars_of_settled (settled_camelizeChars h)]
  rfl

/-! ## Two spellings -/

/-- A small letter, and small letters and digits after it. -/
def Segment (s : String) : Prop :=
  ∃ c cs, s.toList = c :: cs ∧ c.isLower = true ∧ ∀ d ∈ cs, d.isLower = true ∨ d.isDigit = true

/-- Segments with one dash between any two. -/
def Kebab (s : String) : Prop :=
  ∃ segments, segments ≠ [] ∧ (∀ g ∈ segments, Segment g) ∧ s = "-".intercalate segments

/-- A small letter, and letters and digits after it. -/
def Camel (s : String) : Prop :=
  ∃ c cs, s.toList = c :: cs ∧ c.isLower = true ∧ ∀ d ∈ cs, d.isAlphanum = true

/-- What may come after the first letter of a name with dashes: a character of the same segment, or
a dash and the letter with which the next one starts. -/
inductive KebabRest : List Char → Prop
  | nil : KebabRest []
  | char {c : Char} {cs : List Char} (hc : c.isLower = true ∨ c.isDigit = true)
      (h : KebabRest cs) : KebabRest (c :: cs)
  | dash {c : Char} {cs : List Char} (hc : c.isLower = true) (h : KebabRest cs) :
      KebabRest ('-' :: c :: cs)

theorem isAlphanum_of_segment {c : Char} (h : c.isLower = true ∨ c.isDigit = true) :
    c.isAlphanum = true := by
  rcases h with hlower | hdigit
  · exact isAlphanum_of_isLower hlower
  · exact isAlphanum_iff.mpr (.inr hdigit)

theorem KebabRest.append {cs rest : List Char} (h : KebabRest rest)
    (hcs : ∀ c ∈ cs, c.isLower = true ∨ c.isDigit = true) : KebabRest (cs ++ rest) := by
  induction cs with
  | nil => exact h
  | cons c cs ih =>
    obtain ⟨hc, hrest⟩ := List.forall_mem_cons.mp hcs
    exact .char hc (ih hrest)

/-- Segments with one dash between any two, as characters. -/
theorem toList_intercalate_dash (g : String) (gs : List String) :
    ("-".intercalate (g :: gs)).toList = g.toList ++ gs.flatMap fun g => '-' :: g.toList := by
  rw [String.toList_intercalate]
  induction gs generalizing g with
  | nil => simp
  | cons g' gs ih =>
    rw [List.map_cons, List.map_cons, List.intercalate_cons_cons, ← List.map_cons, ih]
    simp

/-- **A name with dashes**, read from the front. -/
theorem kebab_iff {s : String} : Kebab s ↔
    ∃ c cs, s.toList = c :: cs ∧ c.isLower = true ∧ KebabRest cs := by
  constructor
  · rintro ⟨segments, hne, hsegments, rfl⟩
    cases segments with
    | nil => exact absurd rfl hne
    | cons g gs =>
      obtain ⟨⟨c, cs, hg, hc, hcs⟩, hgs⟩ := List.forall_mem_cons.mp hsegments
      have hrest : KebabRest (gs.flatMap fun g => '-' :: g.toList) := by
        clear hne hsegments
        induction gs with
        | nil => exact .nil
        | cons g' gs ih =>
          obtain ⟨⟨d, ds, hg', hd, hds⟩, hgs⟩ := List.forall_mem_cons.mp hgs
          rw [List.flatMap_cons, hg']
          exact .dash hd ((ih hgs).append hds)
      refine ⟨c, cs ++ gs.flatMap fun g => '-' :: g.toList, ?_, hc, hrest.append hcs⟩
      rw [toList_intercalate_dash, hg, List.cons_append]
  · rintro ⟨c, cs, hs, hc, hrest⟩
    -- the segment that is being read, and those behind it
    have hsplit : ∃ (ds : List Char) (gs : List String), (∀ d ∈ ds, d.isLower = true ∨ d.isDigit = true) ∧
        (∀ g ∈ gs, Segment g) ∧ cs = ds ++ gs.flatMap fun g => '-' :: g.toList := by
      clear hs
      induction hrest with
      | nil => exact ⟨[], [], by simp, by simp, rfl⟩
      | @char d cs hd _ ih =>
        obtain ⟨ds, gs, hds, hgs, rfl⟩ := ih
        exact ⟨d :: ds, gs, List.forall_mem_cons.mpr ⟨hd, hds⟩, hgs, rfl⟩
      | @dash d cs hd _ ih =>
        obtain ⟨ds, gs, hds, hgs, rfl⟩ := ih
        have hg : Segment (String.ofList (d :: ds)) :=
          ⟨d, ds, String.toList_ofList, hd, hds⟩
        refine ⟨[], String.ofList (d :: ds) :: gs, by simp,
          List.forall_mem_cons.mpr ⟨hg, hgs⟩, ?_⟩
        rw [List.flatMap_cons, String.toList_ofList]
        rfl
    obtain ⟨ds, gs, hds, hgs, rfl⟩ := hsplit
    have hg : Segment (String.ofList (c :: ds)) := ⟨c, ds, String.toList_ofList, hc, hds⟩
    refine ⟨String.ofList (c :: ds) :: gs, List.cons_ne_nil _ _,
      List.forall_mem_cons.mpr ⟨hg, hgs⟩, ?_⟩
    rw [← String.toList_inj, hs, toList_intercalate_dash, String.toList_ofList, List.cons_append]

/-- A character of a camel name with dashes instead of capitals. -/
def dashed (c : Char) : List Char := if c.isUpper then ['-', c.toLower] else [c]

/-- Behind a word character, capitals become small letters with a dash before them. -/
theorem lowerFrom_dashCapitals {cs : List Char} (h : ∀ c ∈ cs, c.isAlphanum = true)
    (before : List Char) : lowerFrom before (dashCapitals true cs) = cs.flatMap dashed := by
  have lowered : ∀ (before : List Char) {c : Char} (cs : List Char), c.val < 128 →
      lowerFrom before (c :: cs) = c.toLower :: lowerFrom (c :: before) cs := by
    intro before c cs hc
    have hsigma : c ≠ 'Σ' := by
      rintro rfl
      simp at hc
    simp [lowerFrom, hsigma, lowerChar_ascii hc]
  induction cs generalizing before with
  | nil => rfl
  | cons c cs ih =>
    obtain ⟨hc, hrest⟩ := List.forall_mem_cons.mp h
    have hascii := ascii_of_isAlphanum hc
    rw [dashCapitals, List.flatMap_cons, dashed]
    by_cases hupper : c.isUpper = true
    · rw [if_pos (by simp [hupper]), lowered _ _ (by decide), lowered _ _ hascii, ih hrest,
        if_pos hupper]
      rfl
    · have hsame := (toLower_of_not_isUpper hc (by simpa using hupper)).1
      rw [if_neg (by simp [hupper]), lowered _ _ hascii, isWordChar_of_isAlphanum hc, ih hrest,
        if_neg hupper, hsame]
      rfl

theorem toList_hyphenate {s : String} {c : Char} {cs : List Char} (hs : s.toList = c :: cs)
    (hc : c.isLower = true) (hcs : ∀ d ∈ cs, d.isAlphanum = true) :
    (hyphenate s).toList = c :: cs.flatMap dashed := by
  have halnum := isAlphanum_of_isLower hc
  have hsigma : c ≠ 'Σ' := by
    rintro rfl
    simp at hc
  have hsame := (toLower_of_not_isUpper halnum (toUpper_of_isLower hc).2.2).1
  rw [hyphenate, String.toList_ofList, hs, dashCapitals, Bool.false_and,
    if_neg Bool.false_ne_true, isWordChar_of_isAlphanum halnum, lowerFrom,
    lowerFrom_dashCapitals hcs]
  simp [hsigma, lowerChar_ascii (ascii_of_isAlphanum halnum), hsame]

/-! ## From one to the other -/

/-- The rest of a name with dashes has no dashes as a camel name, and leads back. -/
theorem KebabRest.camelized {cs : List Char} (h : KebabRest cs) :
    (∀ c ∈ camelizeChars cs, c.isAlphanum = true) ∧ (camelizeChars cs).flatMap dashed = cs := by
  induction h with
  | nil => simp [camelizeChars]
  | @char c cs hc _ ih =>
    have halnum := isAlphanum_of_segment hc
    have hupper : c.isUpper = false := by
      rcases hc with hlower | hdigit
      · exact (toUpper_of_isLower hlower).2.2
      · revert hdigit
        exact forall_ascii (P := fun c => c.isDigit = true → c.isUpper = false) (by decide)
          (ascii_of_isAlphanum halnum)
    rw [camelizeChars_cons (ne_dash_of_isAlphanum halnum)]
    refine ⟨List.forall_mem_cons.mpr ⟨halnum, ih.1⟩, ?_⟩
    rw [List.flatMap_cons, ih.2, dashed, hupper]
    rfl
  | @dash c cs hc _ ih =>
    have halnum := isAlphanum_of_isLower hc
    obtain ⟨hupper, hback, -⟩ := toUpper_of_isLower hc
    rw [camelizeChars_dash (isWordChar_of_isAlphanum halnum),
      upperChar_ascii (ascii_of_isAlphanum halnum), List.singleton_append]
    refine ⟨List.forall_mem_cons.mpr ⟨isAlphanum_of_isUpper hupper, ih.1⟩, ?_⟩
    rw [List.flatMap_cons, ih.2, dashed, if_pos hupper, hback]
    rfl

/-- The rest of a camel name with dashes instead of capitals, and back. -/
theorem KebabRest.hyphenated {cs : List Char} (h : ∀ c ∈ cs, c.isAlphanum = true) :
    KebabRest (cs.flatMap dashed) ∧ camelizeChars (cs.flatMap dashed) = cs := by
  induction cs with
  | nil => exact ⟨.nil, rfl⟩
  | cons c cs ih =>
    obtain ⟨hc, hrest⟩ := List.forall_mem_cons.mp h
    obtain ⟨hkebab, hback⟩ := ih hrest
    rw [List.flatMap_cons, dashed]
    by_cases hupper : c.isUpper = true
    · obtain ⟨hlower, hraised⟩ := toLower_of_isUpper hupper
      have halnum := isAlphanum_of_isLower hlower
      rw [if_pos hupper]
      refine ⟨.dash hlower hkebab, ?_⟩
      show camelizeChars ('-' :: c.toLower :: cs.flatMap dashed) = c :: cs
      rw [camelizeChars_dash (isWordChar_of_isAlphanum halnum),
        upperChar_ascii (ascii_of_isAlphanum halnum), hback, hraised]
      rfl
    · rw [if_neg hupper]
      refine ⟨.char (toLower_of_not_isUpper hc (by simpa using hupper)).2 hkebab, ?_⟩
      show camelizeChars (c :: cs.flatMap dashed) = c :: cs
      rw [camelizeChars_cons (ne_dash_of_isAlphanum hc), hback]

theorem Kebab.camelize {s : String} (h : Kebab s) :
    Camel (camelize s) ∧ hyphenate (Text.camelize s) = s := by
  obtain ⟨c, cs, hs, hc, hrest⟩ := kebab_iff.mp h
  obtain ⟨halnum, hback⟩ := hrest.camelized
  have hcamel : (Text.camelize s).toList = c :: camelizeChars cs := by
    rw [toList_camelize, hs, camelizeChars_cons (ne_dash_of_isAlphanum (isAlphanum_of_isLower hc))]
  refine ⟨⟨c, camelizeChars cs, hcamel, hc, halnum⟩, ?_⟩
  rw [← String.toList_inj, toList_hyphenate hcamel hc halnum, hback, hs]

theorem Camel.hyphenate {s : String} (h : Camel s) :
    Kebab (hyphenate s) ∧ camelize (Text.hyphenate s) = s := by
  obtain ⟨c, cs, hs, hc, hcs⟩ := h
  obtain ⟨hkebab, hback⟩ := KebabRest.hyphenated hcs
  have hdashed := toList_hyphenate hs hc hcs
  refine ⟨kebab_iff.mpr ⟨c, _, hdashed, hc, hkebab⟩, ?_⟩
  rw [← String.toList_inj, toList_camelize, hdashed,
    camelizeChars_cons (ne_dash_of_isAlphanum (isAlphanum_of_isLower hc)), hback, hs]

/-- A camel name is its own camel name. -/
theorem Camel.camelize {s : String} (h : Camel s) : camelize s = s := by
  obtain ⟨c, cs, hs, hc, hcs⟩ := h
  have hdashless : '-' ∉ s.toList := by
    rw [hs, List.mem_cons, not_or]
    exact ⟨(ne_dash_of_isAlphanum (isAlphanum_of_isLower hc)).symm,
      fun hd => ne_dash_of_isAlphanum (hcs _ hd) rfl⟩
  rw [Text.camelize, camelizeChars_of_settled (settled_of_dashless hdashless),
    String.ofList_toList]

/-- **Either spelling leads to the other** and back. -/
theorem invOn_hyphenate_camelize :
    Set.InvOn hyphenate camelize {s | Kebab s} {s | Camel s} :=
  ⟨fun _ h => h.camelize.2, fun _ h => h.hyphenate.2⟩

theorem bijOn_camelize : Set.BijOn camelize {s | Kebab s} {s | Camel s} :=
  invOn_hyphenate_camelize.bijOn (fun _ h => h.camelize.1) fun _ h => h.hyphenate.1

theorem bijOn_hyphenate : Set.BijOn hyphenate {s | Camel s} {s | Kebab s} :=
  invOn_hyphenate_camelize.symm.bijOn (fun _ h => h.hyphenate.1) fun _ h => h.camelize.1

end Componentry.Text
