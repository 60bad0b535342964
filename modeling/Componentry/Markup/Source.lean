/-!
# Text in blocks

A document is read in blocks of `blockSize` bytes. A character that does not fit into the block it
starts in is a block of its own. Blocks matter in two ways: a byte order mark at the head of a
block is dropped, and a run of text ends with its block.

- `blocksFrom`: the blocks of a text.
- `Source`: what is still to be read of a text.
- `Source.ofText`: a text that nothing was read of.
-/

namespace Componentry.Markup

/-- The bytes of a block. -/
def blockSize : Nat := 4096

/-- The blocks of a text when `used` bytes of the first are taken. -/
def blocksFrom (used : Nat) : List Char → List (List Char)
  | [] => [[]]
  | c :: cs =>
    let next := used + c.utf8Size
    if next < blockSize then
      match blocksFrom next cs with
      | block :: later => (c :: block) :: later
      | [] => [[c]]
    else if next = blockSize then [c] :: blocksFrom 0 cs
    else [] :: [c] :: blocksFrom (next - blockSize) cs

/-- Nothing is lost between blocks. -/
theorem flatten_blocksFrom (used : Nat) (cs : List Char) : (blocksFrom used cs).flatten = cs := by
  induction cs generalizing used with
  | nil => rfl
  | cons c cs ih =>
    simp only [blocksFrom]
    split
    · have h := ih (used + c.utf8Size)
      split <;> simp_all
    · split <;> simp [ih]

/-- Text without a byte order mark at its head. -/
def dropMark : List Char → List Char
  | '\uFEFF' :: cs => cs
  | cs => cs

/-- CR LF becomes CR. `cut` says that a CR came right before; the flag given back says the same of
what follows. -/
def foldReturns (cut : Bool) : List Char → List Char × Bool
  | [] => ([], cut)
  | c :: cs =>
    if cut && c == '\n' then foldReturns false cs
    else
      let (cs, cut) := foldReturns (c == '\r') cs
      (c :: cs, cut)

/-- Blocks without their marks and with single line ends. -/
def prepareBlocks (cut : Bool) : List (List Char) → List (List Char)
  | [] => []
  | block :: later =>
    let (block, cut) := foldReturns cut (dropMark block)
    block :: prepareBlocks cut later

/-- What is still to be read. -/
structure Source where
  /-- The rest of the block that is being read. -/
  front : List Char := []
  later : List (List Char) := []
  /-- The next character is a run of text by itself. -/
  alone : Bool := false
  deriving Inhabited

namespace Source

def ofText (s : String) : Source := { later := prepareBlocks false (blocksFrom 0 s.toList) }

/-- How many characters are left. -/
def length (s : Source) : Nat := s.later.foldl (fun n block => n + block.length) s.front.length

/-- The text behind a script that ends here: a mark right there is dropped, unless the block ends
as well. -/
def afterScript (s : Source) : Source := { s with front := dropMark s.front }

end Source

end Componentry.Markup
