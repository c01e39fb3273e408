import LintFront.Settings.Overrides
/-!
# Settings in memory

Settings and selections of rules are objects, and settings hold on to their selection. Whoever else
holds on to one of them must not see it change when something is overridden. So what is to be
changed is copied first, and the copy is changed; and where nothing is given the object itself is
handed on.

Whether something is given is asked in three ways. A setting is given if it has a value at all. A
table of rules is given if it has an entry. A rule is given if it has an entry in the table and the
entry is not the null value; nobody looks at the value beyond that, and it counts as on when it is
truthy.

`RawOverrides.applyAt` overrides settings in memory. What the command does with settings of its own
is `Overrides.apply`.
-/

namespace LintFront

/-- What is given by a value, nothing by the null value. -/
def Value.explicit? : Value → Option Value
  | .null => none
  | v => some v

/-- A table that may have an entry for each rule. -/
abbrev RuleTable := RuleCategory → Option Value

namespace RuleTable

/-- The table with the given entries; of two entries for a rule the later one stays. -/
def ofPairs : List (Value × Value) → Except UnknownRule RuleTable
  | [] => .ok fun _ => none
  | (name, v) :: rest => do
    let category ← RuleCategory.ofValue name
    let others ← ofPairs rest
    return fun c => (others c).or (if c = category then some v else none)

/-- Has the table no entry at all? -/
def isEmpty (table : RuleTable) : Bool :=
  RuleCategory.all.all fun category => (table category).isNone

/-- The value that the table gives to a rule. -/
def explicit? (table : RuleTable) (category : RuleCategory) : Option Value :=
  (table category).bind Value.explicit?

/-- Does the table give nothing to any rule? -/
def isSilent (table : RuleTable) : Bool :=
  RuleCategory.all.all fun category => (table.explicit? category).isNone

end RuleTable

/-- A selection in memory: a value for each rule. -/
structure StoredRules where
  valueOf : RuleCategory → Value

/-- Settings in memory. -/
structure StoredSettings where
  minConfidence : Number
  setExitStatus : Bool
  analyzer : String
  /-- The place of the selection. -/
  rules : Nat
  excludes : List String

/-- The objects that there are, each at its place. A new object has its place behind the others. -/
structure Memory where
  rules : List StoredRules
  settings : List StoredSettings

namespace Memory

/-- Copies the object at a place and changes the copy. The result is the place of the copy, with the
objects that there are then. -/
def copyChanged {α : Type} (objects : List α) (place : Nat) (change : α → α) :
    Option (Nat × List α) := do
  let object ← objects[place]?
  return (objects.length, (objects ++ [object]).modify objects.length change)

/-- Switches the rules in the selection at a place, as far as a table gives them a value. -/
def switchRules (memory : Memory) (place : Nat) (table : RuleTable) : Option (Nat × Memory) :=
  if table.isSilent then some (place, memory)
  else do
    let (copy, rules) ← copyChanged memory.rules place fun selection =>
      ⟨fun category => (table.explicit? category).getD (selection.valueOf category)⟩
    return (copy, { memory with rules })

end Memory

/-- Changes to settings. -/
structure SettingsUpdate where
  minConfidence : Option Number
  setExitStatus : Option Bool
  analyzer : Option String
  /-- The place of another selection. -/
  rules : Option Nat

namespace SettingsUpdate

/-- Is there no change at all? -/
def isEmpty (update : SettingsUpdate) : Bool :=
  update.minConfidence.isNone && update.setExitStatus.isNone && update.analyzer.isNone &&
    update.rules.isNone

/-- Stored settings with the changes made. -/
def change (update : SettingsUpdate) (settings : StoredSettings) : StoredSettings where
  minConfidence := update.minConfidence.getD settings.minConfidence
  setExitStatus := update.setExitStatus.getD settings.setExitStatus
  analyzer := update.analyzer.getD settings.analyzer
  rules := update.rules.getD settings.rules
  excludes := settings.excludes

end SettingsUpdate

/-- Makes changes to the settings at a place, if there are any to make. -/
def Memory.changeSettings (memory : Memory) (place : Nat) (update : SettingsUpdate) :
    Option (Nat × Memory) :=
  if update.isEmpty then some (place, memory)
  else do
    let (copy, settings) ← copyChanged memory.settings place update.change
    return (copy, { memory with settings })

/-- What is given explicitly, as it came. -/
structure RawOverrides where
  minConfidence : Option Number := none
  setExitStatus : Option Bool := none
  analyzer : Option String := none
  rules : Option RuleTable := none

namespace RawOverrides

/-- The value that is given to a rule. -/
def rule? (o : RawOverrides) (category : RuleCategory) : Option Value :=
  o.rules.bind fun table => table.explicit? category

/-- Is nothing given, not even a rule with the null value? -/
def isEmpty (o : RawOverrides) : Bool :=
  o.minConfidence.isNone && o.setExitStatus.isNone && o.analyzer.isNone &&
    o.rules.all fun table => table.isEmpty

/-- The place of the selection that settings are to get instead of the one at a place, if they are
to get one. -/
def switchedRules (o : RawOverrides) (memory : Memory) (place : Nat) :
    Option (Option Nat × Memory) :=
  match o.rules with
  | none => some (none, memory)
  | some table =>
    if table.isEmpty then some (none, memory)
    else (memory.switchRules place table).map fun (copy, memory) => (some copy, memory)

/-- Overrides the settings at a place (`CLIOverrides.apply`). The result is the place of the
settings with everything that is given; there is none if the place is empty. -/
def applyAt (o : RawOverrides) (memory : Memory) (place : Nat) : Option (Nat × Memory) := do
  let settings ← memory.settings[place]?
  let (rules, memory) ← o.switchedRules memory settings.rules
  memory.changeSettings place ⟨o.minConfidence, o.setExitStatus, o.analyzer, rules⟩

/-- Overrides the settings at a place, then the result, and so on. -/
def applyAll (overrides : List RawOverrides) (memory : Memory) (place : Nat) :
    Option (Nat × Memory) :=
  overrides.foldlM (fun (place, memory) o => o.applyAt memory place) (place, memory)

end RawOverrides

/-! ## Reading -/

/-- All that settings in memory hold. -/
structure SettingsContent where
  minConfidence : Number
  setExitStatus : Bool
  analyzer : String
  rules : RuleCategory → Value
  excludes : List String

/-- The content as settings: a rule is on when its value is truthy. -/
def SettingsContent.settings (content : SettingsContent) : Settings where
  minConfidence := content.minConfidence
  setExitStatus := content.setExitStatus
  analyzer := content.analyzer
  rules := ⟨fun category => (content.rules category).isTruthy⟩
  excludes := content.excludes

namespace Memory

/-- What the settings at a place hold, none if there are none or their selection is missing. -/
def content? (memory : Memory) (place : Nat) : Option SettingsContent := do
  let settings ← memory.settings[place]?
  let selection ← memory.rules[settings.rules]?
  return {
    minConfidence := settings.minConfidence
    setExitStatus := settings.setExitStatus
    analyzer := settings.analyzer
    rules := selection.valueOf
    excludes := settings.excludes }

/-- The memory with some settings and nothing else. -/
def ofSettings (settings : Settings) : Memory where
  rules := [⟨fun category => .bool (settings.rules.isOn category)⟩]
  settings :=
    [{ minConfidence := settings.minConfidence, setExitStatus := settings.setExitStatus,
       analyzer := settings.analyzer, rules := 0, excludes := settings.excludes }]

end Memory

end LintFront
