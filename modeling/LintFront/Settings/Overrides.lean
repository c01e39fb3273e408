import LintFront.Settings.Basic
import LintFront.Text.Literal
/-!
# Overrides

What is said on the command line overrides what the files say, setting by setting and rule by rule,
and only where it is said. Among several mentions of a rule the last one counts, also when it leaves
the rule open.
-/

namespace LintFront

/-- A rule with a switch: on, off, or left open. -/
abbrev RuleSwitch := RuleCategory × Option Bool

/-- What switches say about a category. -/
def switchOf (switches : List RuleSwitch) (category : RuleCategory) : Option Bool :=
  ((switches.filter fun s => s.1 = category).getLast?).bind (·.2)

/-- A value that names no rule. -/
structure UnknownRule where
  value : Value

/-- The wording of the error. -/
def UnknownRule.message (e : UnknownRule) : String :=
  e.value.literal ++ " is not a valid RuleCategory"

/-- The category that a value names. -/
def RuleCategory.ofValue (v : Value) : Except UnknownRule RuleCategory :=
  match v with
  | .text name =>
    match RuleCategory.ofKey? name with
    | some category => .ok category
    | none => .error ⟨v⟩
  | _ => .error ⟨v⟩

/-- Switches for named rules with values of any shape: a value counts as on when it is truthy, and
the null value leaves the rule open. -/
def switchesOfPairs : List (Value × Value) → Except UnknownRule (List RuleSwitch)
  | [] => .ok []
  | (name, v) :: rest => do
    let category ← RuleCategory.ofValue name
    let others ← switchesOfPairs rest
    return (category, match v with | .null => none | v => some v.isTruthy) :: others

/-- The selection with the decided switches applied. -/
def RuleSelection.withSwitches (rules : RuleSelection) (switches : List RuleSwitch) :
    RuleSelection := rules.override (switchOf switches)

/-- What is given explicitly (`CLIOverrides`); none leaves a setting as it is. -/
structure Overrides where
  minConfidence : Option Number := none
  setExitStatus : Option Bool := none
  analyzer : Option String := none
  rules : List RuleSwitch := []
  deriving Repr

namespace Overrides

/-- Is nothing given at all? -/
def isEmpty (o : Overrides) : Bool :=
  o.minConfidence.isNone && o.setExitStatus.isNone && o.analyzer.isNone && o.rules.isEmpty

/-- The settings with everything applied that is given (`CLIOverrides.apply`). -/
def apply (o : Overrides) (settings : Settings) : Settings where
  minConfidence := o.minConfidence.getD settings.minConfidence
  setExitStatus := o.setExitStatus.getD settings.setExitStatus
  analyzer := o.analyzer.getD settings.analyzer
  rules := settings.rules.withSwitches o.rules
  excludes := settings.excludes

/-- Where nothing is given nothing changes. -/
theorem apply_of_isEmpty {o : Overrides} (h : o.isEmpty = true) (settings : Settings) :
    o.apply settings = settings := by
  obtain ⟨m, e, a, r⟩ := o
  simp only [isEmpty, Bool.and_eq_true, Option.isNone_iff_eq_none, List.isEmpty_iff] at h
  obtain ⟨⟨⟨rfl, rfl⟩, rfl⟩, rfl⟩ := h
  rfl

end Overrides

end LintFront
