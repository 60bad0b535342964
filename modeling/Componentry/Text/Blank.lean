/-!
# Blank characters

Two notions of blank. `isBlank` is Unicode white space, which trimming removes; `isMarkupSpace`
is the five characters that separate things in markup.
-/

namespace Componentry.Text

/-- The white space above ASCII. -/
def blankCodes : List Nat :=
  [0x85, 0xA0, 0x1680, 0x2000, 0x2001, 0x2002, 0x2003, 0x2004, 0x2005, 0x2006, 0x2007, 0x2008,
    0x2009, 0x200A, 0x2028, 0x2029, 0x202F, 0x205F, 0x3000]

/-- White space in the sense of Unicode. -/
def isBlank (c : Char) : Bool :=
  if c.val < 128 then c == ' ' || (9 ≤ c.toNat && c.toNat ≤ 13)
  else blankCodes.contains c.toNat

/-- Space, tab, line feed, form feed and carriage return. -/
def isMarkupSpace (c : Char) : Bool :=
  c == ' ' || c == '\t' || c == '\n' || c == '\x0c' || c == '\r'

theorem isBlank_of_isMarkupSpace {c : Char} (h : isMarkupSpace c = true) : isBlank c = true := by
  simp only [isMarkupSpace, Bool.or_eq_true, beq_iff_eq] at h
  rcases h with (((rfl | rfl) | rfl) | rfl) | rfl <;> decide

/-- `cs` without the blanks at its end. -/
def trimEndChars (cs : List Char) : List Char :=
  (cs.reverse.dropWhile isBlank).reverse

/-- `cs` without the blanks at either end. -/
def trimChars (cs : List Char) : List Char :=
  trimEndChars (cs.dropWhile isBlank)

def trim (s : String) : String := String.ofList (trimChars s.toList)

/-- Whether nothing is left of `s` once blanks are trimmed. -/
def isBlankText (s : String) : Bool := s.toList.all isBlank

/-- The maximal runs of `cs` without blanks. -/
def wordsOf (cs : List Char) : List (List Char) :=
  (cs.splitBy fun a b => isBlank a == isBlank b).filter fun w => !(w.all isBlank)

end Componentry.Text
