import Componentry.Markup.Reference
import Componentry.VNode
import Mathlib.Data.List.Infix
import Mathlib.Data.List.TakeDrop

/-!
# References that escaping writes

Writing a tree escapes a few characters, and reading replaces the references that this leaves. In the
value of an attribute that undoes it. In text a reference is read when the character behind it is
there as well; before that the block that is read ends too early.

- `Reference.reading_closed`: **a reference** that escaping wrote.
- `Reference.cutOff_of_prefix`: a part of one.
- `Reference.decode_escaped`: **the value of an attribute** is what it was.
-/

namespace Componentry.Markup

/-- The names that escaping uses, and what they stand for. -/
def escapeNames : List (List Char × Char) :=
  [("amp".toList, '&'), ("lt".toList, '<'), ("gt".toList, '>'), ("quot".toList, '"')]

namespace Reference

theorem find?_escapeName : ∀ e ∈ escapeNames,
    Entity.find? (String.ofList e.1) = some [e.2] ∧ (∀ c ∈ e.1, c.isAlphanum = true) ∧
      ∃ c rest, e.1 = c :: rest ∧ c ≠ '#' ∧ endsAmpersand c = false := by
  have hnames : ∀ e ∈ escapeNames,
      Entity.find? (String.ofList e.1) = some [e.2] ∧ e.1.all Char.isAlphanum = true := by
    decide +kernel
  intro e he
  refine ⟨(hnames e he).1, List.all_eq_true.mp (hnames e he).2, ?_⟩
  simp only [escapeNames, List.mem_cons, List.not_mem_nil, or_false] at he
  rcases he with rfl | rfl | rfl | rfl <;> exact ⟨_, _, rfl, by decide, by decide⟩

/-- **A reference** that escaping wrote, and one character more if there is one. -/
theorem reading_closed (inAttribute : Bool) {e : List Char × Char} (he : e ∈ escapeNames)
    (rest : List Char) :
    reading inAttribute (e.1 ++ ';' :: rest) =
      { chars := [e.2], ahead := rest.take 1, rest := rest.drop 1, cutOff := rest.isEmpty } := by
  obtain ⟨hfind, halnum, c, name, hname, hhash, hends⟩ := find?_escapeName e he
  have hspan : (e.1 ++ ';' :: rest).span Char.isAlphanum = (e.1, ';' :: rest) := by
    rw [List.span_eq_takeWhile_dropWhile, List.takeWhile_append_of_pos halnum,
      List.dropWhile_append_of_pos halnum]
    simp
  have hnamed : reading inAttribute (e.1 ++ ';' :: rest) =
      named inAttribute (e.1 ++ ';' :: rest) := by
    rw [hname, List.cons_append, reading]
    · rw [hends]
      rfl
    · exact hhash
  rw [hnamed, named, hspan]
  simp only [hfind, Option.map_some]

/-- As far as it goes, the beginning of a known name begins a known name. -/
theorem knownLength_of_prefix {names : List (List Char)} {n cs : List Char} (hn : n ∈ names)
    (h : cs <+: n) : knownLength names cs = cs.length := by
  induction cs generalizing names n with
  | nil => rfl
  | cons c cs ih =>
    obtain ⟨rest, rfl⟩ := h
    rw [knownLength]
    generalize htails : names.filterMap _ = tails
    -- what is left of the name is among what is left of all names that begin so
    have htail : cs ++ rest ∈ tails := by
      refine htails ▸ List.mem_filterMap.mpr ⟨_, hn, ?_⟩
      show (if c == c then some (cs ++ rest) else none) = _
      rw [if_pos (beq_self_eq_true c)]
    have hsome : tails.isEmpty = false := by
      cases tails with
      | nil => cases htail
      | cons _ _ => rfl
    rw [hsome, ih htail ⟨rest, rfl⟩, List.length_cons, Nat.add_comm]
    rfl

/-- A part of a reference, or a reference with nothing behind it: what it stands for depends on what
comes next. -/
theorem cutOff_of_prefix {e : List Char × Char} (he : e ∈ escapeNames) {p : List Char}
    (hp : p <+: e.1 ++ [';']) : (reading false p).cutOff = true := by
  have hknown : e.1 ++ [';'] ∈ Entity.closedNames := by
    have hbasic : ∀ e ∈ escapeNames, e.1 ++ [';'] ∈ Entity.basic.map fun e => e.1.toList ++ [';'] :=
      by decide
    rw [Entity.closedNames, List.map_append]
    exact List.mem_append_left _ (hbasic e he)
  obtain ⟨-, halnum, c, name, hname, hhash, hends⟩ := find?_escapeName e he
  rw [List.prefix_concat_iff] at hp
  rcases hp with rfl | hp
  · rw [reading_closed false he []]
    rfl
  · have hpalnum : ∀ d ∈ p, d.isAlphanum = true := fun d hd => halnum d (hp.subset hd)
    cases p with
    | nil => rfl
    | cons d p =>
      have hd : d = c := by
        rw [hname] at hp
        exact (List.cons_prefix_cons.mp hp).1
      subst hd
      have hspan : (d :: p).span Char.isAlphanum = (d :: p, []) := by
        have htake := @List.takeWhile_append_of_pos _ _ (d :: p) [] hpalnum
        have hdrop := @List.dropWhile_append_of_pos _ _ (d :: p) [] hpalnum
        rw [List.append_nil, List.takeWhile_nil, List.append_nil] at htake
        rw [List.append_nil, List.dropWhile_nil] at hdrop
        rw [List.span_eq_takeWhile_dropWhile, htake, hdrop]
      have hlength := knownLength_of_prefix hknown (hp.trans (List.prefix_append e.1 [';']))
      have hnamed : reading false (d :: p) = unclosed false (d :: p) := by
        rw [reading]
        · rw [hends, named, hspan]
          rfl
        · exact hhash
      rw [hnamed, unclosed, hlength]
      simp only [List.take_length, List.drop_length]
      cases unclosedPrefix? (d :: p) (d :: p).length <;> rfl

/-- The next reference of a value is replaced. -/
theorem decodeUpTo_closed {e : List Char × Char} (he : e ∈ escapeNames) (fuel : Nat)
    (rest : List Char) :
    decodeUpTo (fuel + 1) ('&' :: (e.1 ++ ';' :: rest)) = e.2 :: decodeUpTo fuel rest := by
  rw [decodeUpTo, reading_closed true he]
  show [e.2] ++ decodeUpTo fuel (rest.take 1 ++ rest.drop 1) = _
  rw [List.take_append_drop]
  rfl

theorem decodeUpTo_escaped (cs : List Char) {fuel : Nat}
    (hfuel : (cs.flatMap VNode.escapeAttrChar).length ≤ fuel) :
    decodeUpTo fuel (cs.flatMap VNode.escapeAttrChar) = cs := by
  induction cs generalizing fuel with
  | nil => cases fuel <;> rfl
  | cons c cs ih =>
    rw [List.flatMap_cons] at hfuel ⊢
    -- what is written for a character has one character at least
    have hstep : ∀ {w : List Char}, (w ++ cs.flatMap VNode.escapeAttrChar).length ≤ fuel →
        0 < w.length → ∃ n, fuel = n + 1 ∧ (cs.flatMap VNode.escapeAttrChar).length ≤ n := by
      intro w hw hpos
      rw [List.length_append] at hw
      exact ⟨fuel - 1, by omega, by omega⟩
    by_cases hamp : c = '&'
    · subst hamp
      obtain ⟨n, rfl, hn⟩ := hstep hfuel (by decide)
      have hcl := decodeUpTo_closed (e := ("amp".toList, '&')) (by decide) n
        (cs.flatMap VNode.escapeAttrChar)
      rw [ih hn] at hcl
      exact hcl
    · by_cases hquot : c = '"'
      · subst hquot
        obtain ⟨n, rfl, hn⟩ := hstep hfuel (by decide)
        have hcl := decodeUpTo_closed (e := ("quot".toList, '"')) (by decide) n
          (cs.flatMap VNode.escapeAttrChar)
        rw [ih hn] at hcl
        exact hcl
      · have hplain : VNode.escapeAttrChar c = [c] := by
          rw [VNode.escapeAttrChar, if_neg hamp, if_neg hquot]
        rw [hplain] at hfuel ⊢
        obtain ⟨n, rfl, hn⟩ := hstep hfuel Nat.one_pos
        rw [List.singleton_append, decodeUpTo, ih hn]
        exact hamp

/-- **The value of an attribute**, escaped and read again, is what it was. -/
theorem decode_escaped (cs : List Char) : decode (cs.flatMap VNode.escapeAttrChar) = cs :=
  decodeUpTo_escaped cs (Nat.le_refl _)

end Reference

end Componentry.Markup
