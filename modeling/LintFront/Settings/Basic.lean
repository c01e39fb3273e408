import LintFront.Rule
import LintFront.Validation
/-!
# Settings

Five settings govern a run. They are read from a table whose every name has to be one of the five,
and the rules are a table of their own whose every name has to be a rule: a misspelt name is an
error and never passes in silence.

A single setting can be given another value later; `Settings.assignField` reads the value as it is
read from a table.
-/

namespace LintFront

namespace RuleSelection

/-- The value that a table gives to a category, on if it gives none. -/
def fieldOf (entries : Entries Value) (category : RuleCategory) : Checked Bool :=
  entries.field category.key true Value.asFlag

/-- The complaints about a table of rules: those about the rules in their order, then those about
other names. -/
def complaintsAbout (entries : Entries Value) : List Complaint :=
  (RuleCategory.all.flatMap fun category => (fieldOf entries category).complaints) ++
    (entries.onlyKnown (RuleCategory.all.map RuleCategory.key)).complaints

/-- The selection that a table describes. -/
def ofEntries (entries : Entries Value) : Checked RuleSelection :=
  match complaintsAbout entries with
  | [] => .ok ⟨fun category => (fieldOf entries category).toOption.getD true⟩
  | complaints => .error complaints

/-- The selection that a value describes. -/
def ofValue : Value → Checked RuleSelection
  | .table entries => ofEntries entries
  | _ => .fail (.notTable "RuleSelection")

end RuleSelection

/-- What governs a run (`LintConfig`). -/
structure Settings where
  /-- Findings less sure than this are not printed. -/
  minConfidence : Number
  /-- Does a printed finding make the run fail? -/
  setExitStatus : Bool
  /-- The name of the engine. -/
  analyzer : String
  rules : RuleSelection
  /-- Names of directories that are skipped besides the conventional ones. -/
  excludes : List String

namespace Settings

/-- The settings where nothing is set. -/
def default : Settings where
  minConfidence := .real (.ofDecimal false 8 (-1))
  setExitStatus := false
  analyzer := "syntax"
  rules := .everything
  excludes := []

/-- The names of the settings. -/
def names : List String := ["min_confidence", "set_exit_status", "analyzer", "rules", "excludes"]

/-- The value as a threshold. -/
def asThreshold (v : Value) : Checked Number := v.asConfidence.map Number.real

/-- The settings that a table describes. -/
def ofEntries (entries : Entries Value) : Checked Settings :=
  ((entries.field "min_confidence" default.minConfidence asThreshold).zip
    ((entries.field "set_exit_status" default.setExitStatus Value.asFlag).zip
      ((entries.field "analyzer" default.analyzer Value.asText).zip
        ((entries.field "rules" default.rules RuleSelection.ofValue).zip
          ((entries.field "excludes" default.excludes Value.asTexts).zip
            (entries.onlyKnown names)))))).map
    fun (minConfidence, setExitStatus, analyzer, rules, excludes, ()) =>
      ⟨minConfidence, setExitStatus, analyzer, rules, excludes⟩

/-- Gives a value to the field of a name. -/
def assignField (settings : Settings) (name : String) (v : Value) : Checked Settings :=
  match name with
  | "min_confidence" =>
    (asThreshold v).under name |>.map fun x => { settings with minConfidence := x }
  | "set_exit_status" => v.asFlag.under name |>.map fun x => { settings with setExitStatus := x }
  | "analyzer" => v.asText.under name |>.map fun x => { settings with analyzer := x }
  | "rules" => (RuleSelection.ofValue v).under name |>.map fun x => { settings with rules := x }
  | "excludes" => v.asTexts.under name |>.map fun x => { settings with excludes := x }
  | other => .error [⟨[other], .noSuchAttribute other⟩]

end Settings

end LintFront
