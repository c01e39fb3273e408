/-!
# Kinds of characters

Four questions are asked of a character in this library: may it start an identifier, may it
continue one, does it stand for itself in quoted text, and does it belong to a word or to the blank
between words. The answers come from the Unicode character database, and only nine combinations of
them occur. A character therefore has one *kind*, and each question is a function of the kind; the
table of kinds is data (`Text.KindTable`), the questions are not.
-/

namespace LintFront.Text

/-- The combinations of character properties that occur. -/
inductive Kind where
  /-- Starts and continues identifiers, belongs to words. -/
  | letter
  /-- Starts and continues identifiers but belongs to no word by itself. -/
  | joiner
  /-- Continues identifiers and belongs to words: decimal digits. -/
  | digit
  /-- Continues identifiers only: combining marks. -/
  | mark
  /-- Belongs to words but to no identifier: fractions, superscripts. -/
  | numeral
  /-- Printable and nothing else. -/
  | symbol
  /-- The printable blank, U+0020. -/
  | space
  /-- Blank and not printable. -/
  | gap
  /-- None of all this: controls, format characters, unassigned code points. -/
  | other
  deriving DecidableEq, Repr

namespace Kind

/-- May a character of this kind be the first of an identifier? The underscore is a `joiner`. -/
def startsIdentifier : Kind → Bool
  | letter | joiner => true
  | _ => false

/-- May a character of this kind stand in an identifier after its first character? -/
def continuesIdentifier : Kind → Bool
  | letter | joiner | digit | mark => true
  | _ => false

/-- Does a character of this kind stand for itself in quoted text? -/
def isPrintable : Kind → Bool
  | gap | other => false
  | _ => true

/-- Is a character of this kind a letter or a number of some sort? -/
def isAlphanumeric : Kind → Bool
  | letter | digit | numeral => true
  | _ => false

/-- Is a character of this kind blank? -/
def isBlank : Kind → Bool
  | space | gap => true
  | _ => false

/-- What may start an identifier may also continue it. -/
theorem continuesIdentifier_of_starts {k : Kind} (h : k.startsIdentifier = true) :
    k.continuesIdentifier = true := by
  cases k <;> first | rfl | cases h

end Kind

end LintFront.Text
