import LintFront.Source.Glyph
/-!
# Tokens of source text

A token is a lexeme at its place. Besides what is written there are tokens for what the layout says:
the end of a logical line, and a step of the indentation inwards or outwards.

A text that breaks the grammar has a *flaw*, which is reported at one place.
-/

namespace LintFront.Source

/-- A place in a text: its line, counted from one, and how many glyphs stand before it on the
line. -/
structure Place where
  line : Nat
  before : Nat
  deriving DecidableEq, Repr

namespace Place

/-- Where a text starts. -/
def start : Place := ⟨1, 0⟩

/-- The start of the next line. -/
def nextLine (place : Place) : Place := ⟨place.line + 1, 0⟩

/-- The place `n` glyphs further on the same line. -/
def along (place : Place) (n : Nat) : Place := ⟨place.line, place.before + n⟩

/-- The place after one more glyph. -/
def step (place : Place) (glyph : Glyph) : Place :=
  if glyph = .char '\n' then place.nextLine else place.along 1

/-- The place after some more glyphs. -/
def after (place : Place) (glyphs : List Glyph) : Place := glyphs.foldl step place

end Place

/-- What a token is. -/
inductive Lexeme where
  /-- An identifier or a keyword. -/
  | name (spelling : String)
  | number
  /-- A text between quotes; is it a text of bytes? -/
  | quoted (ofBytes : Bool) (body : List Glyph)
  /-- An operator, a delimiter or a bracket. -/
  | sign (spelling : String)
  | lineEnd
  | indent
  | dedent
  deriving DecidableEq, Repr

/-- A lexeme at its place. -/
structure Token where
  lexeme : Lexeme
  place : Place
  deriving DecidableEq, Repr

/-- Why a text breaks the grammar, and the line and column where it is reported. -/
structure Flaw where
  line : Nat
  column : Nat
  message : String
  deriving DecidableEq, Repr

namespace Flaw

/-- A flaw reported at a place; columns count from one. -/
def at_ (place : Place) (message : String) : Flaw := ⟨place.line, place.before + 1, message⟩

/-- The flaw of a text of which nothing better can be said. -/
def generic (place : Place) : Flaw := at_ place "invalid syntax"

end Flaw

/-- An opening bracket that waits for its partner. -/
structure Bracket where
  opening : Char
  place : Place
  deriving DecidableEq, Repr

namespace Bracket

/-- The bracket that closes an opening one. -/
def closing (opening : Char) : Char :=
  if opening = '(' then ')' else if opening = '[' then ']' else '}'

/-- The flaw of a bracket that no other one closes. -/
def unclosed (bracket : Bracket) : Flaw :=
  .at_ bracket.place ("'" ++ bracket.opening.toString ++ "' was never closed")

/-- The flaw of a bracket at `place` that should close `bracket` and is of another sort. -/
def mismatched (bracket : Bracket) (closing : Char) (place : Place) : Flaw :=
  .at_ place ("closing parenthesis '" ++ closing.toString ++
    "' does not match opening parenthesis '" ++ bracket.opening.toString ++ "'" ++
    if bracket.place.line = place.line then "" else " on line " ++ toString bracket.place.line)

end Bracket

end LintFront.Source
