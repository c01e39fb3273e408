import LintFront.Text.Quoted
/-!
# Defects of a document

A settings document that is not well formed is rejected as a whole, with the first defect and its
place. The reader never counts positions: a defect carries the text that was still to be read, and
the place follows from how much that is.
-/

namespace LintFront.Toml

/-- What is wrong with a document. Names of tables are the parts of a dotted key. -/
inductive Cause where
  | statement
  | value
  | afterStatement
  | equals
  | keyStart
  | tableEnd
  | tableArrayEnd
  | declaredTwice (key : List String)
  | immutable (key : List String)
  | redefined (key : List String)
  | overwritten
  | unclosedArray
  | unclosedInlineTable
  | duplicateKey (name : String)
  | unterminated
  /-- A literal string lacks its closing delimiter. -/
  | expected (delimiter : String)
  /-- A control character in a string with escapes. -/
  | illegal (c : Char)
  /-- A control character in a literal string or a comment. -/
  | invalid (c : Char)
  | backslash
  | hexadecimal
  | notScalar
  | date
  /-- A whole number of more decimal digits than are read. -/
  | tooManyDigits (count : Nat)
  /-- A value nested in more values than are read. -/
  | tooDeep
  deriving DecidableEq, Repr

namespace Cause

/-- The wording of a cause. -/
def message : Cause → String
  | statement => "Invalid statement"
  | value => "Invalid value"
  | afterStatement => "Expected newline or end of document after a statement"
  | equals => "Expected '=' after a key in a key/value pair"
  | keyStart => "Invalid initial character for a key part"
  | tableEnd => "Expected ']' at the end of a table declaration"
  | tableArrayEnd => "Expected ']]' at the end of an array declaration"
  | declaredTwice key => "Cannot declare " ++ Text.quoteAll key ++ " twice"
  | immutable key => "Cannot mutate immutable namespace " ++ Text.quoteAll key
  | redefined key => "Cannot redefine namespace " ++ Text.quoteAll key
  | overwritten => "Cannot overwrite a value"
  | unclosedArray => "Unclosed array"
  | unclosedInlineTable => "Unclosed inline table"
  | duplicateKey name => "Duplicate inline table key " ++ Text.quote name
  | unterminated => "Unterminated string"
  | expected delimiter => "Expected " ++ Text.quote delimiter
  | illegal c => "Illegal character " ++ Text.quote (String.singleton c)
  | invalid c => "Found invalid character " ++ Text.quote (String.singleton c)
  | backslash => "Unescaped '\\' in a string"
  | hexadecimal => "Invalid hex value"
  | notScalar => "Escaped character is not a Unicode scalar value"
  | date => "Invalid date or datetime"
  | tooManyDigits count =>
    "Exceeds the limit (4300 digits) for integer string conversion: value has " ++
      toString count ++ " digits; use sys.set_int_max_str_digits() to increase the limit"
  | tooDeep => "maximum recursion depth exceeded"

end Cause

/-- A cause and the text that was still to be read when it was noticed. -/
structure Defect where
  cause : Cause
  rest : List Char
  deriving DecidableEq, Repr

/-- A place in a document. -/
inductive Place where
  | at (line column : Nat)
  | endOfDocument
  deriving DecidableEq, Repr

namespace Place

/-- The wording of a place. -/
def text : Place → String
  | .at line column => "at line " ++ toString line ++ ", column " ++ toString column
  | endOfDocument => "at end of document"

/-- The place of the character after those in `before`; lines and columns count from one. -/
def after (before : List Char) : Place :=
  .at (before.count '\n' + 1) ((before.reverse.takeWhile (· ≠ '\n')).length + 1)

end Place

namespace Defect

/-- The place of a defect in its document. -/
def place (document : List Char) (defect : Defect) : Place :=
  if defect.rest.isEmpty then .endOfDocument
  else .after (document.take (document.length - defect.rest.length))

/-- The wording of a defect of a document. -/
def message (document : List Char) (defect : Defect) : String :=
  defect.cause.message ++ " (" ++ (defect.place document).text ++ ")"

end Defect

/-- A step of the reader: what was read and the text after it, or a defect. -/
abbrev Step (α : Type) := Except Defect (α × List Char)

end LintFront.Toml
