import Componentry.Proofs.Markup.Decoding
import Componentry.Proofs.Template.Substitution

/-!
# References to newlines in a value

A reference to a line feed or a tab is guarded by writing its ampersand as a reference. Whoever
decodes the value then finds the reference as it was written. Nothing else in the value is read in
another way: what stands before and behind is decoded as it would be by itself.

- `Newline`: the references that are guarded.
- `guardReferences_written`, `guardReferences_cons`: **one step** of guarding.
- `IsGuardedIn`: a text with some of its references guarded, and nothing else changed.
- `readValue`: **a value as it is meant to be read**, its references to newlines kept or not.
- `decode_eq_readValue`, `decode_guardReferences`: this is what is read of it, guarded or not.
- `readValue_eq_iff`: it makes a difference if and only if there is such a reference.
- `guardReferences_mend`: mending the characters of a value comes to the same before and after.
-/

namespace Componentry.Template

open Componentry.Markup (mend)
open Componentry.Markup.Reference

/-! ## The references -/

/-- A character whose reference is guarded. -/
inductive Newline where
  | feed
  | tab
  deriving DecidableEq

namespace Newline

def char : Newline → Char
  | feed => '\n'
  | tab => '\t'

/-- The digits of the reference. -/
def digits : Newline → List Char
  | feed => ['1', '0']
  | tab => ['9']

/-- The reference, as it is written. -/
def written (r : Newline) : List Char := '&' :: '#' :: (r.digits ++ [';'])

/-- The reference with its ampersand as a reference. -/
def guarded (r : Newline) : List Char := "&amp;#".toList ++ (r.digits ++ [';'])

/-- What is read of the reference: what is written, or what it stands for. -/
def read (keep : Bool) (r : Newline) : List Char := if keep then r.written else [r.char]

end Newline

variable {cs ds front rest new : List Char} {c x : Char} {n : Nat} {keep : Bool}

theorem guardedReference?_eq_some_iff :
    guardedReference? cs = some (new, n) ↔
      ∃ (r : Newline) (rest : List Char), cs = r.written ++ rest ∧ new = r.guarded ∧
        n + 1 = r.written.length := by
  constructor
  · intro h
    unfold guardedReference? at h
    split at h
    · cases h
      exact ⟨.feed, _, rfl, rfl, rfl⟩
    · cases h
      exact ⟨.tab, _, rfl, rfl, rfl⟩
    · cases h
  · rintro ⟨r, rest, rfl, rfl, hn⟩
    obtain rfl := Nat.succ.inj hn
    cases r <;> rfl

theorem guardReferences_written (r : Newline) (rest : List Char) :
    guardReferences (r.written ++ rest) = r.guarded ++ guardReferences rest := by
  cases r <;> rfl

theorem guardReferences_cons (h : guardedReference? (c :: cs) = none) :
    guardReferences (c :: cs) = c :: guardReferences cs :=
  substitute_none h

/-- **The way of guarding** over a value: it passes one character, or a reference. -/
theorem reference_induction {motive : List Char → Prop} (nil : motive [])
    (pass : ∀ c cs, guardedReference? (c :: cs) = none → motive cs → motive (c :: cs))
    (reference : ∀ (r : Newline) rest, motive rest → motive (r.written ++ rest))
    (cs : List Char) : motive cs := by
  refine substitute_induction guardedReference? nil pass (fun c cs new n hsome ih => ?_) cs
  obtain ⟨r, rest, hcs, -, hn⟩ := guardedReference?_eq_some_iff.mp hsome
  have hrest : cs.drop n = rest := by
    rw [← List.drop_succ_cons (a := c), hcs, hn, List.drop_left]
  rw [hcs]
  exact reference r rest (hrest ▸ ih)

/-! ## Texts with some of their references guarded -/

/-- The second text is the first with some of its references to newlines guarded. -/
inductive IsGuardedIn : List Char → List Char → Prop
  | nil : IsGuardedIn [] []
  | pass (c : Char) {cs ds : List Char} : IsGuardedIn cs ds → IsGuardedIn (c :: cs) (c :: ds)
  | guard (r : Newline) {cs ds : List Char} :
    IsGuardedIn cs ds → IsGuardedIn (r.written ++ cs) (r.guarded ++ ds)

namespace IsGuardedIn

theorem refl (cs : List Char) : IsGuardedIn cs cs := by
  induction cs with
  | nil => exact .nil
  | cons c cs ih => exact .pass c ih

theorem append {cs' ds' : List Char} (h : IsGuardedIn cs ds) (h' : IsGuardedIn cs' ds') :
    IsGuardedIn (cs ++ cs') (ds ++ ds') := by
  induction h with
  | nil => exact h'
  | pass c _ ih => exact .pass c ih
  | guard r _ ih =>
    rw [List.append_assoc, List.append_assoc]
    exact .guard r ih

/-- A character that guarding does not write is in neither of the texts or in both. -/
theorem mem_iff (h : IsGuardedIn cs ds) (hx : ∀ r : Newline, x ∉ r.written ∧ x ∉ r.guarded) :
    x ∈ ds ↔ x ∈ cs := by
  induction h with
  | nil => exact Iff.rfl
  | pass c _ ih => rw [List.mem_cons, List.mem_cons, ih]
  | guard r _ ih =>
    rw [List.mem_append, List.mem_append, ih]
    exact or_congr_left (iff_of_false (hx r).2 (hx r).1)

/-- What a substitution gives, when it gives so for each stretch. -/
theorem substitute {m : List Char → Option Stretch}
    (hm : ∀ cs new n, m cs = some (new, n) → IsGuardedIn (cs.take (n + 1)) new) (cs : List Char) :
    IsGuardedIn cs (substitute m cs) := by
  induction cs using substitute_induction m with
  | nil => exact .nil
  | pass c cs hnone ih =>
    rw [substitute_none hnone]
    exact .pass c ih
  | stretch c cs new n hsome ih =>
    rw [substitute_some hsome, ← List.take_append_drop (n + 1) (c :: cs)]
    exact (hm _ _ _ hsome).append ih

end IsGuardedIn

theorem isGuardedIn_guardReferences (cs : List Char) : IsGuardedIn cs (guardReferences cs) := by
  induction cs using reference_induction with
  | nil => exact .nil
  | pass c cs hnone ih =>
    rw [guardReferences_cons hnone]
    exact .pass c ih
  | reference r rest ih =>
    rw [guardReferences_written]
    exact .guard r ih

/-! ## Values as they are meant to be read -/

/-- A value decoded around its references to newlines, which are kept as they are written if `keep`
is set. `front` is what was passed since the last of them. -/
def readFrom (keep : Bool) (front : List Char) : List Char → List Char
  | [] => decode front
  | '&' :: '#' :: '1' :: '0' :: ';' :: cs =>
    decode front ++ (Newline.feed.read keep ++ readFrom keep [] cs)
  | '&' :: '#' :: '9' :: ';' :: cs =>
    decode front ++ (Newline.tab.read keep ++ readFrom keep [] cs)
  | c :: cs => readFrom keep (front ++ [c]) cs

/-- **A value as it is meant to be read**, its references to newlines kept or decoded. -/
def readValue (keep : Bool) (cs : List Char) : List Char := readFrom keep [] cs

theorem readFrom_written (keep : Bool) (front : List Char) (r : Newline) (rest : List Char) :
    readFrom keep front (r.written ++ rest) =
      decode front ++ (r.read keep ++ readFrom keep [] rest) := by
  cases r <;> rfl

theorem readFrom_cons (keep : Bool) (front : List Char) (h : guardedReference? (c :: cs) = none) :
    readFrom keep front (c :: cs) = readFrom keep (front ++ [c]) cs := by
  rw [readFrom]
  · rintro rest rfl rfl
    cases h
  · rintro rest rfl rfl
    cases h

/-! ## What is read -/

theorem decode_written (r : Newline) (rest : List Char) :
    decode (r.written ++ rest) = r.char :: decode rest := by
  cases r with
  | feed => exact decode_number ['1', '0'] nofun rfl rest
  | tab => exact decode_number ['9'] nofun rfl rest

theorem decode_guarded (r : Newline) (rest : List Char) :
    decode (r.guarded ++ rest) = r.written ++ decode rest := by
  have hplain : '&' ∉ '#' :: (r.digits ++ [';']) := by cases r <;> decide
  have hamp : decode (r.guarded ++ rest) = '&' :: decode ('#' :: (r.digits ++ [';']) ++ rest) :=
    decode_closed (e := ("amp".toList, '&')) (by decide) ('#' :: (r.digits ++ [';']) ++ rest)
  rw [hamp, decode_append_of_notMem hplain]
  rfl

/-- A reference, guarded or not, may be decoded apart from what stands before it. -/
theorem decode_append_written (front : List Char) (r : Newline) (rest : List Char) :
    decode (front ++ (r.written ++ rest)) = decode front ++ (r.char :: decode rest) := by
  rw [← decode_written]
  exact decode_append front _

theorem decode_append_guarded (front : List Char) (r : Newline) (rest : List Char) :
    decode (front ++ (r.guarded ++ rest)) = decode front ++ (r.written ++ decode rest) := by
  rw [← decode_guarded]
  exact decode_append front _

theorem decode_append_eq_readFrom (front cs : List Char) :
    decode (front ++ cs) = readFrom false front cs := by
  induction cs using reference_induction generalizing front with
  | nil => rw [List.append_nil, readFrom]
  | pass c cs hnone ih =>
    rw [readFrom_cons false front hnone, ← ih, List.append_assoc]
    rfl
  | reference r rest ih =>
    rw [decode_append_written, readFrom_written, ← ih]
    rfl

theorem decode_append_guardReferences (front cs : List Char) :
    decode (front ++ guardReferences cs) = readFrom true front cs := by
  induction cs using reference_induction generalizing front with
  | nil =>
    rw [readFrom]
    exact congrArg decode (List.append_nil front)
  | pass c cs hnone ih =>
    rw [readFrom_cons true front hnone, ← ih, List.append_assoc, guardReferences_cons hnone]
    rfl
  | reference r rest ih =>
    rw [guardReferences_written, decode_append_guarded, readFrom_written, ← ih]
    rfl

/-- **A value that is not guarded** is read with its references to newlines decoded. -/
theorem decode_eq_readValue (cs : List Char) : decode cs = readValue false cs :=
  decode_append_eq_readFrom [] cs

/-- **A value that is guarded** is read with its references to newlines as they are written. -/
theorem decode_guardReferences (cs : List Char) :
    decode (guardReferences cs) = readValue true cs :=
  decode_append_guardReferences [] cs

theorem readFrom_eq_iff (front cs : List Char) :
    readFrom true front cs = readFrom false front cs ↔ Untouched guardedReference? cs := by
  induction cs using reference_induction generalizing front with
  | nil => exact iff_of_true rfl fun ds hds hne => absurd (List.suffix_nil.mp hds) hne
  | pass c cs hnone ih =>
    rw [readFrom_cons true front hnone, readFrom_cons false front hnone, ih, untouched_cons]
    exact ⟨fun h => ⟨hnone, h⟩, fun h => h.2⟩
  | reference r rest ih =>
    have hdiffers : '&' ≠ r.char := by cases r <;> decide
    refine iff_of_false (fun h => ?_) fun h => ?_
    · rw [readFrom_written, readFrom_written, List.append_right_inj] at h
      exact hdiffers (List.cons.inj h).1
    · have hfound : guardedReference? (r.written ++ rest) = none :=
        h _ List.suffix_rfl (List.cons_ne_nil _ _)
      cases r <;> cases hfound

/-- **It makes a difference** whether references to newlines are kept if and only if there are
any. -/
theorem readValue_eq_iff (cs : List Char) :
    readValue true cs = readValue false cs ↔ Untouched guardedReference? cs :=
  readFrom_eq_iff [] cs

/-! ## Mending -/

theorem mend_eq_self_of (hzero : mend c ≠ '\uFFFD') (hreturn : mend c ≠ '\n') : mend c = c := by
  unfold mend at hzero hreturn ⊢
  split
  · rename_i h
    exact absurd (if_pos h) hzero
  · rename_i h
    rw [if_neg h] at hreturn
    split
    · rename_i h'
      exact absurd (if_pos h') hreturn
    · rfl

theorem map_mend_written (r : Newline) : r.written.map mend = r.written := by cases r <;> decide

theorem map_mend_guarded (r : Newline) : r.guarded.map mend = r.guarded := by cases r <;> decide

theorem eq_written_of_map_mend {r : Newline} (h : cs.map mend = r.written) : cs = r.written := by
  have hchars : r.written.all (fun x => x != '\uFFFD' && x != '\n') = true := by cases r <;> decide
  rw [← h]
  refine (List.map_id cs).symm.trans (List.map_congr_left fun c hc => ?_)
  have hmended := List.all_eq_true.mp hchars _ (h ▸ List.mem_map_of_mem hc)
  rw [Bool.and_eq_true, bne_iff_ne, bne_iff_ne] at hmended
  exact (mend_eq_self_of hmended.1 hmended.2).symm

/-- A reference is there before mending if it is there after it. -/
theorem guardedReference?_mend (cs : List Char) :
    guardedReference? (cs.map mend) = guardedReference? cs := by
  refine Option.ext fun ⟨new, n⟩ => ?_
  rw [guardedReference?_eq_some_iff, guardedReference?_eq_some_iff]
  refine exists_congr fun r => ⟨?_, ?_⟩
  · rintro ⟨rest, hcs, hnew⟩
    obtain ⟨front, back, rfl, hfront, -⟩ := List.map_eq_append_iff.mp hcs
    rw [eq_written_of_map_mend hfront]
    exact ⟨back, rfl, hnew⟩
  · rintro ⟨rest, rfl, hnew⟩
    exact ⟨rest.map mend, by rw [List.map_append, map_mend_written], hnew⟩

/-- **Mending** the characters of a value comes to the same before and after. -/
theorem guardReferences_mend (cs : List Char) :
    guardReferences (cs.map mend) = (guardReferences cs).map mend := by
  induction cs using reference_induction with
  | nil => rfl
  | pass c cs hnone ih =>
    have hmended : guardedReference? (mend c :: cs.map mend) = none :=
      (guardedReference?_mend (c :: cs)).trans hnone
    rw [List.map_cons, guardReferences_cons hmended, guardReferences_cons hnone, ih]
    rfl
  | reference r rest ih =>
    rw [List.map_append, map_mend_written, guardReferences_written, guardReferences_written, ih,
      List.map_append, map_mend_guarded]

end Componentry.Template
