import Componentry.Template.Compile

/-!
# What fingerprints tell apart

A fingerprint is a template, what stands behind it for the delimiters, and the flags, with nothing
that says where one ends and the next begins but a NUL. So it tells two compilations apart as far
as texts without that character go, and no further.

- `fingerprint_eq_iff`: **equal fingerprints** are equal texts with equal flags.
- `NulFree`: compilations whose parts can be told from the whole.
- `fingerprint_injective`: **such compilations** have fingerprints of their own.
-/

namespace Componentry.Template

variable {s s' : CompileSettings} {template template' : String}

/-! ## Equal fingerprints -/

theorem utf8_append (a b : String) :
    (a ++ b).toUTF8.data.toList = a.toUTF8.data.toList ++ b.toUTF8.data.toList := by
  show (a ++ b).toByteArray.data.toList = a.toByteArray.data.toList ++ b.toByteArray.data.toList
  rw [String.toByteArray_append, ByteArray.data_append, Array.toList_append]

theorem utf8_injective {a b : String} (h : a.toUTF8.data.toList = b.toUTF8.data.toList) : a = b :=
  String.toByteArray_inj.mp (ByteArray.ext (Array.toList_inj.mp h))

theorem flagByte_injective {a b : Bool} (h : flagByte a = flagByte b) : a = b := by
  revert h
  cases a <;> cases b <;> decide

theorem flags_injective (h : s.flags = s'.flags) : s.comments = s'.comments ∧
    s.decodeNewlines = s'.decodeNewlines ∧ s.decodeHrefNewlines = s'.decodeHrefNewlines ∧
    s.sourceRange = s'.sourceRange := by
  simp only [CompileSettings.flags, List.cons.injEq, and_true] at h
  obtain ⟨hcomments, hnewlines, hhref, hrange⟩ := h
  exact ⟨flagByte_injective hcomments, flagByte_injective hnewlines, flagByte_injective hhref,
    flagByte_injective hrange⟩

/-- **Equal fingerprints** are equal texts, of templates with what stands behind them, with equal
flags. -/
theorem fingerprint_eq_iff : fingerprint s template = fingerprint s' template' ↔
    template ++ s.suffix = template' ++ s'.suffix ∧ s.flags = s'.flags := by
  rw [fingerprint, fingerprint, ← utf8_append, ← utf8_append]
  constructor
  · intro h
    obtain ⟨htext, hflags⟩ := List.append_inj' h rfl
    exact ⟨utf8_injective htext, hflags⟩
  · rintro ⟨htext, hflags⟩
    rw [htext, hflags]

/-! ## Telling the parts apart -/

/-- The rest behind a text is nothing, or begins with a mark. -/
def BeginsWith {α : Type} (a : α) (rest : List α) : Prop := rest = [] ∨ ∃ more, rest = a :: more

/-- Where a mark does not occur in a text, the first one shows where the text ends. -/
theorem append_cancel {α : Type} {a : α} {l l' rest rest' : List α} (hl : a ∉ l) (hl' : a ∉ l')
    (hrest : BeginsWith a rest) (hrest' : BeginsWith a rest') (h : l ++ rest = l' ++ rest') :
    l = l' ∧ rest = rest' := by
  induction l generalizing l' with
  | nil =>
    cases l' with
    | nil => exact ⟨rfl, h⟩
    | cons b l' =>
      obtain rfl | ⟨more, rfl⟩ := hrest
      · cases h
      · exact (hl' ((List.cons.inj h).1 ▸ List.mem_cons_self)).elim
  | cons b l ih =>
    cases l' with
    | nil =>
      obtain rfl | ⟨more, rfl⟩ := hrest'
      · cases h
      · exact (hl ((List.cons.inj h).1 ▸ List.mem_cons_self)).elim
    | cons b' l' =>
      obtain ⟨rfl, htail⟩ := List.cons.inj h
      obtain ⟨rfl, hrest⟩ := ih (fun hm => hl (List.mem_cons_of_mem _ hm))
        (fun hm => hl' (List.mem_cons_of_mem _ hm)) htail
      exact ⟨rfl, hrest⟩

/-- Nothing that ends at a NUL has one inside: the template, and what opens an expression. -/
structure NulFree (s : CompileSettings) (template : String) : Prop where
  template : '\x00' ∉ template.toList
  opening : ∀ o c, s.delimiters = some (o, c) → '\x00' ∉ o.toList

theorem suffix_none (h : s.delimiters = none) : s.suffix.toList = [] := by
  rw [CompileSettings.suffix, h]
  rfl

theorem suffix_some {o c : String} (h : s.delimiters = some (o, c)) :
    s.suffix.toList = "\x00delimiters\x00".toList ++ (o.toList ++ '\x00' :: c.toList) := by
  rw [CompileSettings.suffix, h, String.toList_append, String.toList_append, String.toList_append,
    List.append_assoc, List.append_assoc]
  rfl

theorem beginsWith_suffix (s : CompileSettings) : BeginsWith '\x00' s.suffix.toList := by
  cases h : s.delimiters with
  | none => exact .inl (suffix_none h)
  | some d => exact .inr ⟨_, suffix_some h⟩

theorem suffix_injective (ho : ∀ o c, s.delimiters = some (o, c) → '\x00' ∉ o.toList)
    (ho' : ∀ o c, s'.delimiters = some (o, c) → '\x00' ∉ o.toList)
    (h : s.suffix.toList = s'.suffix.toList) : s.delimiters = s'.delimiters := by
  cases hd : s.delimiters with
  | none =>
    cases hd' : s'.delimiters with
    | none => rfl
    | some d' =>
      rw [suffix_none hd, suffix_some hd'] at h
      cases h
  | some d =>
    cases hd' : s'.delimiters with
    | none =>
      rw [suffix_some hd, suffix_none hd'] at h
      cases h
    | some d' =>
      rw [suffix_some hd, suffix_some hd'] at h
      obtain ⟨hopen, hclose⟩ := append_cancel (ho _ _ hd) (ho' _ _ hd') (.inr ⟨_, rfl⟩)
        (.inr ⟨_, rfl⟩) (List.append_cancel_left h)
      exact congrArg some (Prod.ext (String.toList_inj.mp hopen)
        (String.toList_inj.mp (List.cons.inj hclose).2))

/-- **Compilations whose parts end at the first NUL** have fingerprints of their own. -/
theorem fingerprint_injective (h₀ : NulFree s template) (h₀' : NulFree s' template')
    (h : fingerprint s template = fingerprint s' template') : s = s' ∧ template = template' := by
  obtain ⟨htext, hflags⟩ := fingerprint_eq_iff.mp h
  obtain ⟨htemplate, hsuffix⟩ := append_cancel h₀.template h₀'.template (beginsWith_suffix s)
    (beginsWith_suffix s') (by rw [← String.toList_append, htext, String.toList_append])
  have hdelimiters := suffix_injective h₀.opening h₀'.opening hsuffix
  obtain ⟨hcomments, hnewlines, hhref, hrange⟩ := flags_injective hflags
  refine ⟨?_, String.toList_inj.mp htemplate⟩
  cases s
  cases s'
  cases hcomments
  cases hnewlines
  cases hhref
  cases hrange
  cases hdelimiters
  rfl

end Componentry.Template
