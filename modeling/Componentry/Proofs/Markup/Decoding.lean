import Componentry.Proofs.Markup.Escaping
import Componentry.Proofs.Markup.Handwritten

/-!
# Decoding a value part by part

How far a reference goes depends on what is behind it, so a value cannot be decoded in parts just
anywhere. But nothing that is looked at for a reference goes beyond the next ampersand: a value may
be cut before any of them.

- `Reading.outcome`: **what decoding goes by**, what a reference stands for and the text behind it.
- `unclosed_outcome`, `named_outcome`, `numberAfter_outcome`: the outcome of each kind of reference.
- `outcome_suffix`: the text behind a reference is a part of the text.
- `notMem_closedNames`: no name of a character has an ampersand in it.
- `outcome_append`: **a reference is the same** with an ampersand somewhere behind it.
- `decode_cons`, `decode_amp`: one step of decoding.
- `decode_append`: **a value is decoded in two parts**, the second of which starts with an ampersand.
- `decode_number`, `decode_closed`: references that are complete.
-/

namespace Componentry.Markup.Reference

variable {inAttribute : Bool} {cs q rest : List Char} {p : Char → Bool} {n : Nat}

/-! ## Outcomes -/

/-- What decoding goes by: what the reference stands for, and the text behind it. -/
def Reading.outcome (r : Reading) : List Char × List Char := (r.chars, r.ahead ++ r.rest)

theorem numberAfter_outcome (base : Nat) (p : Char → Bool) (marker cs : List Char) :
    (numberAfter base p marker cs).outcome =
      if (cs.span p).1.isEmpty then (['&'], marker ++ cs)
      else ([ofNumber (numberOf base (cs.span p).1)], dropSemicolon (cs.span p).2) := by
  cases hspan : cs.span p with
  | mk ds rest =>
    obtain ⟨rfl, -, -⟩ := of_span hspan
    rw [numberAfter, hspan]
    cases ds <;> rfl

theorem unclosedPrefix?_le {word : List Char} {k : Nat} (h : unclosedPrefix? word n = some k) :
    k ≤ n := by
  induction n with
  | zero => cases h
  | succ n ih =>
    rw [unclosedPrefix?] at h
    split at h
    · cases h
      exact Nat.le_refl _
    · exact Nat.le_succ_of_le (ih h)

/-- Whether the text behind a name without a semicolon keeps it from being a reference. -/
def holdsBack (inAttribute : Bool) (cs : List Char) : Bool :=
  inAttribute && cs.head?.any fun c => c == '=' || c.isAlphanum

theorem unclosed_outcome (inAttribute : Bool) (cs : List Char) :
    (unclosed inAttribute cs).outcome =
      let known := knownLength Entity.closedNames cs
      match unclosedPrefix? (cs.take known) known with
      | some n =>
        if holdsBack inAttribute (cs.drop n) then (['&'], cs)
        else ((Entity.find? (String.ofList (cs.take n))).getD [], cs.drop n)
      | none => (['&'], cs) := by
  unfold unclosed
  generalize knownLength Entity.closedNames cs = known
  dsimp only
  cases hprefix : unclosedPrefix? (cs.take known) known with
  | none =>
    cases hspan : (cs.drop known).span Char.isAlphanum with
    | mk more after =>
      obtain ⟨hmore, -, -⟩ := of_span hspan
      simp only [Reading.outcome, List.append_assoc, List.take_append_drop, ← hmore]
  | some n =>
    have hle : n ≤ known := unclosedPrefix?_le hprefix
    have htake : (cs.take known).take n = cs.take n := by rw [List.take_take, Nat.min_eq_left hle]
    have hdrop : (cs.take known).drop n ++ cs.drop known = cs.drop n := by
      rw [List.drop_take, ← Nat.add_sub_cancel' hle, ← List.drop_drop, Nat.add_sub_cancel_left,
        List.take_append_drop]
    have hall : (cs.take known).drop n ++ (cs.drop known).take 1 ++ (cs.drop known).drop 1 =
        cs.drop n := by
      rw [List.append_assoc, List.take_append_drop, hdrop]
    dsimp only
    rw [htake]
    -- what was looked at is not empty unless nothing is behind the name
    cases hahead : (cs.take known).drop n ++ (cs.drop known).take 1 with
    | nil =>
      have hnil : cs.drop known = [] := by simpa using (List.append_eq_nil_iff.mp hahead).2
      have hn : cs.drop n = [] := by rw [← hall, hahead, hnil]; rfl
      simp only [Reading.outcome, holdsBack, hnil, hn]
      simp
    | cons c more =>
      rw [hahead] at hall
      rw [← hall, holdsBack, List.cons_append, List.head?_cons, Option.any_some]
      dsimp only
      split <;> simp only [Reading.outcome, List.append_assoc, List.take_append_drop,
        List.cons_append]

/-- A name with the semicolon that closes it: what it stands for, and the text behind it. -/
def closedName? (cs : List Char) : Option (List Char × List Char) :=
  match (cs.span Char.isAlphanum).2 with
  | ';' :: rest =>
    (Entity.find? (String.ofList (cs.span Char.isAlphanum).1)).map fun chars => (chars, rest)
  | _ => none

theorem named_outcome (inAttribute : Bool) (cs : List Char) :
    (named inAttribute cs).outcome = (closedName? cs).getD (unclosed inAttribute cs).outcome := by
  unfold named
  dsimp only
  split
  · rename_i chars rest hclosed
    rw [show closedName? cs = some (chars, rest) from hclosed]
    simp only [Reading.outcome, List.take_append_drop, Option.getD_some]
  · rename_i hclosed
    rw [show closedName? cs = none from hclosed]
    rfl

/-! ## The text behind a reference is a part of the text -/

theorem dropSemicolon_suffix (cs : List Char) : dropSemicolon cs <:+ cs := by
  unfold dropSemicolon
  split
  · exact List.suffix_cons ..
  · exact List.suffix_rfl

theorem numberAfter_suffix (base : Nat) (p : Char → Bool) (marker cs : List Char) :
    (numberAfter base p marker cs).outcome.2 <:+ marker ++ cs := by
  rw [numberAfter_outcome]
  cases hspan : cs.span p with
  | mk ds rest =>
    obtain ⟨rfl, -, -⟩ := of_span hspan
    split
    · exact List.suffix_rfl
    · exact (dropSemicolon_suffix rest).trans
        ((List.suffix_append ds rest).trans (List.suffix_append marker _))

theorem numeric_suffix (cs : List Char) : (numeric cs).outcome.2 <:+ '#' :: cs := by
  unfold numeric
  split
  · exact numberAfter_suffix 16 isHexDigit ['#', 'x'] _
  · exact numberAfter_suffix 16 isHexDigit ['#', 'X'] _
  · exact numberAfter_suffix 10 Char.isDigit ['#'] _

theorem unclosed_suffix (inAttribute : Bool) (cs : List Char) :
    (unclosed inAttribute cs).outcome.2 <:+ cs := by
  rw [unclosed_outcome]
  dsimp only
  split
  · split
    · exact List.suffix_rfl
    · exact List.drop_suffix ..
  · exact List.suffix_rfl

theorem closedName?_suffix {found : List Char × List Char} (h : closedName? cs = some found) :
    found.2 <:+ cs := by
  cases hspan : cs.span Char.isAlphanum with
  | mk word rest =>
    obtain ⟨rfl, -, -⟩ := of_span hspan
    rw [closedName?, hspan] at h
    split at h
    · rename_i more hrest
      obtain ⟨chars, -, rfl⟩ := Option.map_eq_some_iff.mp h
      obtain rfl : rest = ';' :: more := hrest
      exact (List.suffix_cons ';' more).trans (List.suffix_append word _)
    · cases h

theorem named_suffix (inAttribute : Bool) (cs : List Char) :
    (named inAttribute cs).outcome.2 <:+ cs := by
  rw [named_outcome]
  cases hclosed : closedName? cs with
  | none => exact unclosed_suffix inAttribute cs
  | some found => exact closedName?_suffix hclosed

/-- **The text behind a reference** is a part of the text. -/
theorem outcome_suffix (inAttribute : Bool) (cs : List Char) :
    (reading inAttribute cs).outcome.2 <:+ cs := by
  unfold reading
  split
  · exact List.suffix_rfl
  · exact numeric_suffix _
  · split
    · exact List.suffix_rfl
    · exact named_suffix inAttribute _

/-! ## An ampersand behind a reference -/

theorem span_append_ampersand (hp : p '&' = false) (cs q : List Char) :
    (cs ++ '&' :: q).span p = (cs.span p).map id (· ++ '&' :: q) := by
  cases hspan : cs.span p with
  | mk front rest =>
    obtain ⟨rfl, hfront, hrest⟩ := of_span hspan
    rw [List.append_assoc, span_append_of hfront]
    · rfl
    · intro c hc
      cases rest with
      | nil =>
        cases hc
        exact hp
      | cons d rest => exact hrest c hc

theorem dropSemicolon_append (cs q : List Char) :
    dropSemicolon (cs ++ '&' :: q) = dropSemicolon cs ++ '&' :: q := by
  cases cs with
  | nil => rfl
  | cons c cs =>
    by_cases hc : c = ';'
    · subst hc
      rfl
    · rw [List.cons_append, dropSemicolon.eq_2 _ fun _ h => hc (List.cons.inj h).1,
        dropSemicolon.eq_2 _ fun _ h => hc (List.cons.inj h).1]
      rfl

theorem numberAfter_append (base : Nat) (hp : p '&' = false) (marker cs q : List Char) :
    (numberAfter base p marker (cs ++ '&' :: q)).outcome =
      (numberAfter base p marker cs).outcome.map id (· ++ '&' :: q) := by
  rw [numberAfter_outcome, numberAfter_outcome, span_append_ampersand hp]
  cases cs.span p with
  | mk ds rest =>
    show (if ds.isEmpty then _ else ([_], dropSemicolon (rest ++ '&' :: q))) = _
    rw [dropSemicolon_append]
    cases ds with
    | nil => exact congrArg (Prod.mk _) (List.append_assoc ..).symm
    | cons d ds => rfl

theorem numeric_append (cs q : List Char) :
    (numeric (cs ++ '&' :: q)).outcome = (numeric cs).outcome.map id (· ++ '&' :: q) := by
  have hdecimal := numberAfter_append 10 (p := Char.isDigit) (by decide) ['#'] cs q
  cases cs with
  | nil => exact hdecimal
  | cons c cs =>
    by_cases hsmall : c = 'x'
    · subst hsmall
      exact numberAfter_append 16 (p := isHexDigit) (by decide) ['#', 'x'] cs q
    · by_cases hbig : c = 'X'
      · subst hbig
        exact numberAfter_append 16 (p := isHexDigit) (by decide) ['#', 'X'] cs q
      · have hnumeric : ∀ ds, numeric (c :: ds) = numberAfter 10 Char.isDigit ['#'] (c :: ds) :=
          fun ds => numeric.eq_3 (c :: ds) (fun _ h => hsmall (List.cons.inj h).1)
            fun _ h => hbig (List.cons.inj h).1
        rw [List.cons_append, hnumeric, hnumeric]
        exact hdecimal

/-- No name of a character has an ampersand in it. -/
theorem notMem_closedNames : ∀ n ∈ Entity.closedNames, '&' ∉ n := by
  have hword : ∀ e ∈ Entity.basic ++ Entity.others, '&' ∉ e.1.toList := by
    intro e he hmem
    rcases List.mem_append.mp he with he | he
    · have hbasic : ∀ e ∈ Entity.basic, '&' ∉ e.1.toList := by decide
      exact hbasic e he hmem
    · obtain ⟨w, -, rfl⟩ := List.mem_map.mp he
      cases hspan : w.span Char.isAlphanum with
      | mk name codes =>
        obtain ⟨-, hname, -⟩ := of_span hspan
        rw [Entity.unpackEntry, hspan, String.toList_ofList] at hmem
        exact absurd (hname _ hmem) (by decide)
  intro n hn hmem
  obtain ⟨e, he, rfl⟩ := List.mem_map.mp hn
  rcases List.mem_append.mp hmem with hmem | hmem
  · exact hword e he hmem
  · cases List.mem_singleton.mp hmem

theorem knownLength_le (names : List (List Char)) (cs : List Char) :
    knownLength names cs ≤ cs.length := by
  induction cs generalizing names with
  | nil => exact Nat.le_refl _
  | cons c cs ih =>
    rw [knownLength]
    split
    · exact Nat.zero_le _
    · rw [List.length_cons, Nat.add_comm]
      exact Nat.succ_le_succ (ih _)

/-- What is left of a name that begins with `c`. -/
theorem cons_mem_of_mem_tails {names : List (List Char)} {c : Char} {ds : List Char}
    (h : ds ∈ names.filterMap fun n => match n with
      | d :: ds => if c == d then some ds else none
      | [] => none) : c :: ds ∈ names := by
  obtain ⟨n, hn, hds⟩ := List.mem_filterMap.mp h
  cases n with
  | nil => cases hds
  | cons d more =>
    by_cases hd : c = d
    · subst hd
      obtain rfl : more = ds := by simpa using hds
      exact hn
    · simp [hd] at hds

theorem knownLength_append {names : List (List Char)} (hnames : ∀ n ∈ names, '&' ∉ n)
    (cs q : List Char) : knownLength names (cs ++ '&' :: q) = knownLength names cs := by
  induction cs generalizing names with
  | nil =>
    rw [List.nil_append, knownLength, knownLength, List.filterMap_eq_nil_iff.mpr]
    · rfl
    · intro n hn
      cases n with
      | nil => rfl
      | cons d more =>
        have hd : '&' ≠ d := fun h => hnames _ hn (h ▸ List.mem_cons_self)
        simp [hd]
  | cons c cs ih =>
    rw [List.cons_append, knownLength, knownLength, ih]
    exact fun ds hds hmem => hnames _ (cons_mem_of_mem_tails hds) (List.mem_cons_of_mem c hmem)

theorem holdsBack_append (cs q : List Char) :
    holdsBack inAttribute (cs ++ '&' :: q) = holdsBack inAttribute cs := by
  cases cs <;> rfl

theorem unclosed_append (inAttribute : Bool) (cs q : List Char) :
    (unclosed inAttribute (cs ++ '&' :: q)).outcome =
      (unclosed inAttribute cs).outcome.map id (· ++ '&' :: q) := by
  have hknown := knownLength_le Entity.closedNames cs
  rw [unclosed_outcome, unclosed_outcome, knownLength_append notMem_closedNames]
  dsimp only
  rw [List.take_append_of_le_length hknown]
  cases hprefix : unclosedPrefix? (cs.take _) _ with
  | none => rfl
  | some n =>
    have hn : n ≤ cs.length := (unclosedPrefix?_le hprefix).trans hknown
    dsimp only
    rw [List.drop_append_of_le_length hn, List.take_append_of_le_length hn, holdsBack_append]
    split <;> rfl

theorem closedName?_append (cs q : List Char) :
    closedName? (cs ++ '&' :: q) = (closedName? cs).map (·.map id (· ++ '&' :: q)) := by
  rw [closedName?, closedName?, span_append_ampersand (by decide)]
  cases cs.span Char.isAlphanum with
  | mk word rest =>
    cases rest with
    | nil => rfl
    | cons c rest =>
      by_cases hc : c = ';'
      · subst hc
        show Option.map _ (Entity.find? (String.ofList word)) = _
        cases Entity.find? (String.ofList word) <;> rfl
      · simp [hc]

theorem named_append (inAttribute : Bool) (cs q : List Char) :
    (named inAttribute (cs ++ '&' :: q)).outcome =
      (named inAttribute cs).outcome.map id (· ++ '&' :: q) := by
  rw [named_outcome, named_outcome, closedName?_append, unclosed_append]
  cases closedName? cs <;> rfl

/-- **A reference is the same** with an ampersand somewhere behind it. -/
theorem outcome_append (inAttribute : Bool) (cs q : List Char) :
    (reading inAttribute (cs ++ '&' :: q)).outcome =
      (reading inAttribute cs).outcome.map id (· ++ '&' :: q) := by
  cases cs with
  | nil => rfl
  | cons c cs =>
    by_cases hc : c = '#'
    · subst hc
      exact numeric_append cs q
    · have hreading : ∀ ds, reading inAttribute (c :: ds) =
          if endsAmpersand c then { chars := ['&'], rest := c :: ds }
          else named inAttribute (c :: ds) := fun ds =>
        reading.eq_3 inAttribute c ds hc
      rw [List.cons_append, hreading, hreading]
      split
      · rfl
      · exact named_append inAttribute (c :: cs) q

/-! ## Decoding -/

theorem decodeUpTo_eq {m : Nat} (hn : cs.length ≤ n) (hm : cs.length ≤ m) :
    decodeUpTo n cs = decodeUpTo m cs := by
  induction n generalizing cs m with
  | zero =>
    obtain rfl : cs = [] := List.eq_nil_of_length_eq_zero (Nat.le_zero.mp hn)
    cases m <;> rfl
  | succ n ih =>
    cases cs with
    | nil => cases m <;> rfl
    | cons c cs =>
      obtain ⟨m, rfl⟩ : ∃ k, m = k + 1 := ⟨m - 1, by rw [List.length_cons] at hm; omega⟩
      rw [List.length_cons] at hn hm
      by_cases hc : c = '&'
      · subst hc
        have hbehind := (outcome_suffix true cs).length_le
        exact congrArg ((reading true cs).chars ++ ·)
          (ih (hbehind.trans (Nat.le_of_succ_le_succ hn)) (hbehind.trans (Nat.le_of_succ_le_succ hm)))
      · rw [decodeUpTo, decodeUpTo, ih (Nat.le_of_succ_le_succ hn) (Nat.le_of_succ_le_succ hm)]
        · exact hc
        · exact hc

/-- Fuel for the length of the value is enough. -/
theorem decodeUpTo_of_le (hn : cs.length ≤ n) : decodeUpTo n cs = decode cs :=
  decodeUpTo_eq hn (Nat.le_refl _)

theorem decode_cons {c : Char} (hc : c ≠ '&') (cs : List Char) :
    decode (c :: cs) = c :: decode cs := by
  rw [decode, List.length_cons, decodeUpTo]
  · rfl
  · exact hc

/-- **A text without an ampersand** stays as it is. -/
theorem decode_append_of_notMem {front : List Char} (h : '&' ∉ front) (cs : List Char) :
    decode (front ++ cs) = front ++ decode cs := by
  induction front with
  | nil => rfl
  | cons c front ih =>
    rw [List.mem_cons, not_or] at h
    rw [List.cons_append, decode_cons (Ne.symm h.1), ih h.2]
    rfl

theorem decode_amp (cs : List Char) :
    decode ('&' :: cs) =
      (reading true cs).outcome.1 ++ decode (reading true cs).outcome.2 := by
  rw [decode, List.length_cons, decodeUpTo]
  exact congrArg _ (decodeUpTo_of_le (outcome_suffix true cs).length_le)

/-- **A value is decoded in two parts**, the second of which starts with an ampersand. -/
theorem decode_append (cs q : List Char) :
    decode (cs ++ '&' :: q) = decode cs ++ decode ('&' :: q) := by
  induction hlen : cs.length using Nat.strongRecOn generalizing cs with
  | ind len ih =>
    cases cs with
    | nil => rfl
    | cons c cs =>
      rw [List.length_cons] at hlen
      by_cases hc : c = '&'
      · subst hc
        have hbehind := (outcome_suffix true cs).length_le
        rw [List.cons_append, decode_amp, decode_amp, outcome_append, List.append_assoc]
        exact congrArg _ (ih (reading true cs).outcome.2.length (by omega) _ rfl)
      · rw [List.cons_append, decode_cons hc, decode_cons hc, ih cs.length (by omega) cs rfl]
        rfl

/-! ## References that are complete -/

/-- **A number** with its semicolon. -/
theorem decode_number (ds : List Char) (hne : ds ≠ []) (hds : ds.all Char.isDigit = true)
    (cs : List Char) :
    decode ('&' :: '#' :: (ds ++ ';' :: cs)) = ofNumber (numberOf 10 ds) :: decode cs := by
  have hspan : (ds ++ ';' :: cs).span Char.isDigit = (ds, ';' :: cs) :=
    span_append_of (List.all_eq_true.mp hds) fun c hc => by
      cases hc
      rfl
  have hdecimal : numeric (ds ++ ';' :: cs) =
      numberAfter 10 Char.isDigit ['#'] (ds ++ ';' :: cs) := by
    refine numeric.eq_3 _ ?_ ?_ <;>
    · rintro rest heq
      cases ds with
      | nil => exact hne rfl
      | cons d ds =>
        obtain ⟨rfl, -⟩ := List.cons.inj heq
        exact absurd (List.all_eq_true.mp hds _ List.mem_cons_self) (by decide)
  rw [decode_amp, show reading true ('#' :: (ds ++ ';' :: cs)) = numeric (ds ++ ';' :: cs) from rfl,
    hdecimal, numberAfter_outcome, hspan]
  cases ds with
  | nil => exact absurd rfl hne
  | cons d ds => rfl

/-- **A name** that escaping uses, with its semicolon. -/
theorem decode_closed {e : List Char × Char} (he : e ∈ escapeNames) (cs : List Char) :
    decode ('&' :: (e.1 ++ ';' :: cs)) = e.2 :: decode cs := by
  rw [decode_amp, reading_closed true he]
  simp only [Reading.outcome, List.take_append_drop, List.singleton_append]

end Componentry.Markup.Reference
