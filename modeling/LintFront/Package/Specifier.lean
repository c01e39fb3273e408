import LintFront.SourceUnit
/-!
# Package specifiers

A package is named by identifiers with dots or slashes between them. Slashes around the whole do not
count. Taken apart, a specifier is the list of its identifiers; two spellings are the same
specifier when their lists agree.

## Main statements

`Specifier.parse?_eq_some_iff`: which texts are specifiers, and of what.
-/

namespace LintFront

/-- The name of a package: the identifiers from the outermost package inwards. -/
structure Specifier where
  segments : List String
  deriving DecidableEq, Repr

namespace Specifier

/-- Does a character separate identifiers? -/
def isSeparator (c : Char) : Bool := c = '.' || c = '/'

/-- The text without slashes around it. -/
def stripSlashes (s : List Char) : List Char := Path.dropEndSlashes (s.dropWhile (· = '/'))

/-- The pieces of a text between separators, slashes around it aside. -/
def pieces (text : String) : List String :=
  ((stripSlashes text.toList).splitOnP isSeparator).map String.ofList

/-- The specifier that a text spells, if every piece is an identifier. -/
def parse? (text : String) : Option Specifier :=
  if (pieces text).all Text.isIdentifier then some ⟨pieces text⟩ else none

/-- The spelling with dots. -/
def dotted (spec : Specifier) : String := ".".intercalate spec.segments

/-- The specifier that a text spells, or the reason why it spells none. -/
def parse (text : String) : Except Trouble Specifier :=
  match parse? text with
  | some spec => .ok spec
  | none => .error (.noUnit (.badSpecifier text))

/-- The normal form of a text: the identifiers that it spells, with dots between them
(`normalize_specifier`). -/
def normalForm (text : String) : Except Trouble String := (parse text).map dotted

theorem parse?_eq_some_iff {text : String} {spec : Specifier} :
    parse? text = some spec ↔
      spec.segments = pieces text ∧ ∀ s ∈ pieces text, Text.isIdentifier s = true := by
  cases spec with
  | mk segments =>
    simp only [parse?, List.all_eq_true]
    split <;> rename_i h
    · simp only [Option.some.injEq, Specifier.mk.injEq]
      exact ⟨fun he => ⟨he.symm, h⟩, fun he => he.1.symm⟩
    · simp [h]

end Specifier

end LintFront
