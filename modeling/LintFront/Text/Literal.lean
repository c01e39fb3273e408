import LintFront.Number.Shortest
import LintFront.Text.Quoted
import LintFront.Value
/-!
# Values in messages

A message that complains about a value repeats it. Texts are quoted there, so that a text is never
mistaken for a number or a word, and what a list or a table holds is written in the same manner.
-/

namespace LintFront.Value

mutual

/-- The value as a message repeats it. -/
def literal : Value → String
  | .null => "None"
  | .bool value => if value then "True" else "False"
  | .integer value => toString value
  | .real value => value.text
  | .text value => Text.quote value
  | .moment spelling => spelling
  | .list items => "[" ++ ", ".intercalate (literals items) ++ "]"
  | .table entries => "\x7b" ++ ", ".intercalate (entryLiterals entries) ++ "\x7d"

/-- The items of a list as a message repeats them. -/
def literals : List Value → List String
  | [] => []
  | v :: rest => literal v :: literals rest

/-- The entries of a table as a message repeats them. -/
def entryLiterals : List (String × Value) → List String
  | [] => []
  | (name, v) :: rest => (Text.quote name ++ ": " ++ literal v) :: entryLiterals rest

end

@[simp] theorem literals_eq_map (items : List Value) : literals items = items.map literal := by
  induction items with
  | nil => simp [literals]
  | cons v rest ih => simp [literals, ih]

end LintFront.Value
