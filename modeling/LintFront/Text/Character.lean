import LintFront.Text.KindTable
/-!
# The kind of a character

ASCII is decided by comparison, because nearly every character is ASCII; the rest is looked up in
the table of runs.
-/

namespace LintFront.Text

/-- The kind of an ASCII character, given by its code point. -/
def asciiKind (n : Nat) : Kind :=
  if n = 0x20 then .space
  else if (9 ≤ n ∧ n ≤ 13) ∨ (28 ≤ n ∧ n ≤ 31) then .gap
  else if n < 0x20 ∨ n = 0x7F then .other
  else if 0x30 ≤ n ∧ n ≤ 0x39 then .digit
  else if (0x41 ≤ n ∧ n ≤ 0x5A) ∨ (0x61 ≤ n ∧ n ≤ 0x7A) then .letter
  else if n = 0x5F then .joiner
  else .symbol

/-- The kind of the last run that starts at `n` or before; `k` is the kind of what precedes the
first run. -/
def kindWithin (n : Nat) (k : Kind) : List (Nat × Kind) → Kind
  | [] => k
  | (start, k') :: rest => if n < start then k else kindWithin n k' rest

/-- The kind of a character. -/
def kind (c : Char) : Kind :=
  if c.toNat < 0x80 then asciiKind c.toNat else kindWithin c.toNat .other runs

/-- May `c` start an identifier? -/
def startsIdentifier (c : Char) : Bool := (kind c).startsIdentifier

/-- May `c` continue an identifier? -/
def continuesIdentifier (c : Char) : Bool := (kind c).continuesIdentifier

/-- Does `c` stand for itself in quoted text? -/
def isPrintable (c : Char) : Bool := (kind c).isPrintable

/-- Is `c` part of a word: alphanumeric or an underscore? -/
def isWordChar (c : Char) : Bool := (kind c).isAlphanumeric || c = '_'

/-- Is `c` blank? -/
def isBlank (c : Char) : Bool := (kind c).isBlank

/-- Is `c` one of the control characters of ASCII or Latin-1? -/
def isControl (c : Char) : Bool := c.toNat < 0x20 || (0x7F ≤ c.toNat && c.toNat < 0xA0)

/-- Is `c` trimmed from the ends of a numeral? The information separators U+001C to U+001F are
blank but are not trimmed. -/
def isTrimmed (c : Char) : Bool := isBlank c && !(0x1C ≤ c.toNat && c.toNat ≤ 0x1F)

/-- `s` without the trimmed characters at its two ends. -/
def trim (s : List Char) : List Char :=
  ((s.dropWhile isTrimmed).reverse.dropWhile isTrimmed).reverse

/-- Is `s` an identifier: a starting character, then continuing ones? The keywords of a language
are identifiers too. -/
def isIdentifier (s : String) : Bool :=
  match s.toList with
  | [] => false
  | c :: rest => startsIdentifier c && rest.all continuesIdentifier

end LintFront.Text
