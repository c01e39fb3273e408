/-!
# Rules

The checks of an engine fall into eighteen categories, each of which can be switched off by itself.
A `RuleSelection` says which are on; all are on unless something switches them off.

## Main statements

`RuleCategory.mem_all`: the list of categories is complete. `RuleSelection.isOn_override`: an
override that says nothing about a category leaves it alone, and one that does decides it.
-/

namespace LintFront

/-- The categories of checks. -/
inductive RuleCategory where
  | exported
  | packageComments
  | imports
  | blankImports
  | names
  | varDecls
  | elses
  | ranges
  | errorFormat
  | errors
  | errorStrings
  | receiverNames
  | incDec
  | errorReturns
  | unexportedReturn
  | timeNames
  | contextKeyTypes
  | contextArgs
  deriving DecidableEq, Repr

namespace RuleCategory

/-- All categories, in the order in which they are listed to the user. -/
def all : List RuleCategory :=
  [.exported, .packageComments, .imports, .blankImports, .names, .varDecls, .elses, .ranges,
    .errorFormat, .errors, .errorStrings, .receiverNames, .incDec, .errorReturns,
    .unexportedReturn, .timeNames, .contextKeyTypes, .contextArgs]

/-- The name of a category in settings. -/
def key : RuleCategory → String
  | exported => "exported"
  | packageComments => "package_comments"
  | imports => "imports"
  | blankImports => "blank_imports"
  | names => "names"
  | varDecls => "vardecls"
  | elses => "elses"
  | ranges => "ranges"
  | errorFormat => "errorf"
  | errors => "errors"
  | errorStrings => "error_strings"
  | receiverNames => "receiver_names"
  | incDec => "inc_dec"
  | errorReturns => "error_returns"
  | unexportedReturn => "unexported_return"
  | timeNames => "time_names"
  | contextKeyTypes => "context_key_types"
  | contextArgs => "context_args"

/-- What the checks of a category look at. -/
def description : RuleCategory → String
  | exported => "Lint public functions, classes, and constants."
  | packageComments => "Lint module and package docstrings."
  | imports => "Lint import statements."
  | blankImports => "Lint side-effect-only imports."
  | names => "Lint naming conventions."
  | varDecls => "Lint variable declarations and annotations."
  | elses => "Lint else branches following return."
  | ranges => "Lint range-based loops."
  | errorFormat => "Lint exception messages formatted before construction."
  | errors => "Lint exception class definitions."
  | errorStrings => "Lint exception message strings."
  | receiverNames => "Lint self and cls parameter names."
  | incDec => "Lint increments and decrements spelled as x = x + 1."
  | errorReturns => "Lint functions returning exceptions instead of raising."
  | unexportedReturn => "Lint public functions returning private types."
  | timeNames => "Lint duration names carrying unit suffixes."
  | contextKeyTypes => "Lint contextvars.ContextVar keys of built-in types."
  | contextArgs => "Lint context parameters that are not first in a signature."

/-- The stem of the command-line switch of a category. -/
def flag (category : RuleCategory) : String :=
  "lint-" ++ String.ofList (category.key.toList.map fun c => if c = '_' then '-' else c)

/-- The category that goes by a name in settings. -/
def ofKey? (key : String) : Option RuleCategory := all.find? fun c => c.key = key

theorem mem_all (category : RuleCategory) : category ∈ all := by
  cases category <;> decide

theorem nodup_all : all.Nodup := by decide

@[simp] theorem ofKey?_key (category : RuleCategory) : ofKey? category.key = some category := by
  cases category <;> rfl

theorem key_of_ofKey? {key : String} {category : RuleCategory} (h : ofKey? key = some category) :
    category.key = key := by
  simpa using List.find?_some h

end RuleCategory

/-- Which categories of checks are on. -/
structure RuleSelection where
  isOn : RuleCategory → Bool

namespace RuleSelection

/-- The selection with every category on. -/
def everything : RuleSelection := ⟨fun _ => true⟩

/-- The categories that are on, in order (`RuleSelection.enabled`). -/
def enabled (rules : RuleSelection) : List RuleCategory := RuleCategory.all.filter rules.isOn

/-- The categories that are off, in order. -/
def disabled (rules : RuleSelection) : List RuleCategory :=
  RuleCategory.all.filter fun c => !rules.isOn c

/-- The selection with one category switched. -/
def set (rules : RuleSelection) (category : RuleCategory) (on : Bool) : RuleSelection :=
  ⟨fun c => if c = category then on else rules.isOn c⟩

/-- Switches the categories that `switches` decides and leaves the others
(`RuleSelection.with_overrides`). -/
def override (rules : RuleSelection) (switches : RuleCategory → Option Bool) : RuleSelection :=
  ⟨fun c => (switches c).getD (rules.isOn c)⟩

theorem isOn_override (rules : RuleSelection) (switches : RuleCategory → Option Bool)
    (category : RuleCategory) :
    (rules.override switches).isOn category = (switches category).getD (rules.isOn category) := rfl

theorem mem_enabled {rules : RuleSelection} {category : RuleCategory} :
    category ∈ rules.enabled ↔ rules.isOn category = true := by
  simp [enabled, RuleCategory.mem_all]

end RuleSelection

end LintFront
