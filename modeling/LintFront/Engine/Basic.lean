import LintFront.Finding
import LintFront.Rule
/-!
# Engines

An engine is given the files of one unit, all at once, and the selection of rules. It answers with
findings in the order in which they are to be printed, or refuses the unit with a message. An engine
that does neither has crashed, and its crash is not the business of the front end to hide.

An engine may have a memory, or look at things outside the files. So its answer is a function of the
*turn* as well, the number of units that it was given before: the same question may be answered
differently each time it is put.
-/

namespace LintFront

/-- The files of a unit by path, in order, with their bytes. -/
abbrev Sources := List (String × ByteArray)

/-- What an engine makes of a unit. -/
inductive Verdict where
  | findings (found : List Finding)
  /-- The unit cannot be analysed. -/
  | refused (message : String)
  /-- The engine broke its promise to answer. -/
  | crashed (message : String)
  deriving DecidableEq, Repr

/-- An engine by its name and its answers (`Analyzer`). -/
structure Engine where
  name : String
  /-- Does the engine come with the front end? -/
  isBuiltIn : Bool := false
  /-- The answer to files and rules, after as many units as the turn says. -/
  inspect : (turn : Nat) → Sources → RuleSelection → Verdict

/-- The engine never crashes. -/
def Engine.IsFaithful (engine : Engine) : Prop :=
  ∀ turn files rules message, engine.inspect turn files rules ≠ .crashed message

end LintFront
