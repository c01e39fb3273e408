import LintFront.Entries
import LintFront.Number.Double
/-!
# Values of unknown shape

A settings file and a report of an engine hold data whose shape is not known until it is looked at.
Whole numbers and doubles are different, even when they are equal; dates and times are values of
their own, which nothing here reads as anything else.
-/

namespace LintFront

/-- Data of any shape. -/
inductive Value where
  | null
  | bool (value : Bool)
  | integer (value : Int)
  | real (value : Double)
  | text (value : String)
  /-- A date, a time or both, as it is spelled. -/
  | moment (spelling : String)
  | list (items : List Value)
  | table (entries : List (String × Value))

namespace Value

/-- The entries of a table. -/
def table? : Value → Option (Entries Value)
  | table entries => some entries
  | _ => none

/-- Does the value count as a yes where any value may stand for a switch? Zero, and what is empty,
counts as a no. -/
def isTruthy : Value → Bool
  | null => false
  | bool value => value
  | integer value => value ≠ 0
  | real (.finite _ grains) => grains ≠ 0
  | real _ => true
  | text value => value ≠ ""
  | moment _ => true
  | list items => !items.isEmpty
  | table entries => !entries.isEmpty

end Value

end LintFront
