/-!
# Filling lines

A paragraph is filled into lines of a given width. A line takes words as long as they fit, and a
word that does not fit starts the next line, whatever its own width. Blanks between words are kept
as they are, except that a line neither begins nor ends with one. After a hyphen between two letters
a word may be continued on the next line.

## Main statements

`flatten_fill`: the lines put together are the words, so no word is lost or moved.
-/

namespace LintFront.Text

/-- A word and the number of blanks in front of it; none if it continues a hyphenated word. -/
structure Word where
  gap : Nat
  letters : List Char
  deriving DecidableEq, Repr

namespace Word

/-- A word and its blanks as written inside a line. -/
def spelled (word : Word) : List Char := List.replicate word.gap ' ' ++ word.letters

end Word

/-- The words of a text, of which `gap` blanks and the letters `begun`, last one first, have been
seen. -/
def wordsFrom (gap : Nat) (begun : List Char) : List Char → List Word
  | [] => if begun.isEmpty then [] else [⟨gap, begun.reverse⟩]
  | c :: rest =>
    if c = ' ' then
      if begun.isEmpty then wordsFrom (gap + 1) [] rest
      else ⟨gap, begun.reverse⟩ :: wordsFrom 1 [] rest
    else if c = '-' && begun.head?.any Char.isAlpha && rest.head?.any Char.isAlpha then
      ⟨gap, (c :: begun).reverse⟩ :: wordsFrom 0 [] rest
    else wordsFrom gap (c :: begun) rest

/-- Puts a word in front of the first of some lines. -/
def putWord (word : Word) : List (List Word) → List (List Word)
  | [] => [[word]]
  | line :: lines => (word :: line) :: lines

/-- The lines that words fill; `used` columns of the first line are taken. -/
def fill (width used : Nat) : List Word → List (List Word)
  | [] => [[]]
  | word :: rest =>
    let size := word.letters.length
    if used = 0 then putWord word (fill width size rest)
    else if used + word.gap + size ≤ width then
      putWord word (fill width (used + word.gap + size) rest)
    else [] :: putWord word (fill width size rest)

/-- A line as written. -/
def spellLine : List Word → List Char
  | [] => []
  | word :: rest => word.letters ++ rest.flatMap Word.spelled

/-- A text filled into lines. -/
def wrap (width : Nat) (text : String) : List String :=
  (fill width 0 (wordsFrom 0 [] text.toList)).map fun line => String.ofList (spellLine line)

@[simp] theorem flatten_putWord (word : Word) (lines : List (List Word)) :
    (putWord word lines).flatten = word :: lines.flatten := by
  cases lines <;> simp [putWord]

/-- The lines put together are the words. -/
theorem flatten_fill (width used : Nat) (words : List Word) :
    (fill width used words).flatten = words := by
  induction words generalizing used with
  | nil => rfl
  | cons word rest ih =>
    simp only [fill]
    split
    · simp [ih]
    split <;> simp [ih]

end LintFront.Text
