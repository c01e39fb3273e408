import LintFront.Settings.Overrides
import LintFront.Settings.Record
/-!
# Settings under assignment

Settings are assigned one by one, and a value is looked at before it is taken: what does not suit
the field is refused and changes nothing. A selection of rules is never changed in place; switches
are applied to a copy of it. Yet both are records, with what every record has in common: notes may
be left with them, and a note may replace what they hold or stand in the way of their use. So what
is held can be more than settings, and reading it can fail.

* `Settings.assign` and `RuleSelection.assign` give a value to a name.
* `RuleSelection.switchHeld` applies switches to a held selection.
* `Settings.view` and `RuleSelection.ofHeld` read what is held, field by field in order; the first
  field that cannot be read is the error.

## Main statements

`Settings.view_of_own`: where every field shows the record's own value the record is read as it is.
-/

namespace LintFront

namespace RuleSelection

/-- The sort of selections. -/
def sort : String := "RuleSelection"

/-- A selection with nothing left with it. -/
def held (rules : RuleSelection) : Held RuleSelection :=
  .ofRecord (RuleCategory.all.map RuleCategory.key) rules

/-- A selection cannot be changed in place, whatever the name; a note can be left with it. -/
def assign (name : String) (v : Value) : Assigning RuleSelection Unit := do
  let held ← get
  Assigning.expect .unusable (held.way name false)
  if Assignment.isPrivate name then Assigning.leaveNote sort name v
  else throw (.rejected [⟨[name], .frozen⟩])

/-- Enters the category `first`, and others, into the account of the fields that were given a
value. A value that was put there keeps no such account. -/
def enter (held : Held RuleSelection) (first : RuleCategory) : Except RecordError Unit :=
  match held.slots.find? Slot.assigned.name with
  | none => .ok ()
  | some (.table _) => .error (.notPair first.key.length)
  | some v => .error (.missing v.sort "update")

/-- The held selection with the decided switches applied: the selection itself if there are none,
otherwise a copy of it. -/
def switchHeld (held : Held RuleSelection) (switches : List RuleSwitch) :
    Except RecordError (Held RuleSelection) := do
  held.operation .applySwitches
  match (switches.map (·.1)).filter fun category => (switchOf switches category).isSome with
  | [] => return held
  | first :: others =>
    held.operation .copyChanged
    held.operation .copy
    discard (Held.partOfTable "items" (held.slot? .hidden))
    discard (Held.partOfTable "get" (held.note? .policy))
    enter held first
    let record := held.record.withSwitches switches
    return { held with record }.uncover ((first :: others).map RuleCategory.key)

/-- Is a category on in a held selection? A value that nobody looked at counts as on when it is
truthy. -/
def readsOn (held : Held RuleSelection) (category : RuleCategory) : Except RecordError Bool :=
  held.field sort category.key (·.isOn category) fun v => .ok v.isTruthy

/-- The selection that is held. -/
def ofHeld (held : Held RuleSelection) : Except RecordError RuleSelection := do
  held.operation .enabled
  held.operation .isEnabled
  let fields ← RuleCategory.all.mapM fun category => return (category, ← readsOn held category)
  return ⟨fun category => ((fields.find? fun f => f.1 = category).map (·.2)).getD true⟩

end RuleSelection

namespace Settings

/-- The sort of settings. -/
def sort : String := "LintConfig"

/-- Settings with nothing left with them. -/
def held (settings : Settings) : Held Settings := .ofRecord names settings

/-- The extras of settings. They have to be a table if there are any. -/
def extras (held : Held Settings) : Except RecordError (Entries Value) :=
  match held.slot? .extras with
  | none => .ok []
  | some (.table entries) => .ok entries
  | some v => .error (.notInstance v.sort "dict")

/-- Enters a name into the account of the fields that were given a value. A value that was put there
is no such account. -/
def enter (held : Held Settings) : Except RecordError Unit :=
  match held.slots.find? Slot.assigned.name with
  | none => .ok ()
  | some v => .error (.notInstance v.sort "set")

/-- Gives a value to the field of a name. The value is looked at, then entered, then taken; with it
the extras come into the place of fields, and there are none any more. -/
def assignHeld (name : String) (v : Value) : Assigning Settings Unit := do
  let held ← get
  if let some found := held.note? .checker then
    throw (.unusable (.missing found.sort "validate_assignment"))
  let extras ← Assigning.expect .unusable (extras held)
  let record ← Assigning.expect .rejected (held.record.assignField name v)
  Assigning.expect .unusable (enter held)
  set ({ held with record }.putAll extras |>.uncover [name])
  modify fun held => { held with slots := held.slots.erase Slot.extras.name }

/-- Assigns one setting by its name, or leaves a note with the settings. -/
def assign (name : String) (v : Value) : Assigning Settings Unit := do
  let held ← get
  Assigning.expect .unusable (held.way name (names.contains name))
  if Assignment.isPrivate name then Assigning.leaveNote sort name v
  else if name ∈ Assignment.computedNames then throw (.computed sort name)
  else assignHeld name v

/-- Settings as they are read from what is held: only the rules are sure to be of their sort. -/
structure View where
  minConfidence : Value
  setExitStatus : Value
  analyzer : Value
  rules : RuleSelection
  excludes : Value

/-- The value of a threshold. -/
def thresholdValue : Number → Value
  | .integer value => .integer value
  | .real value => .real value

/-- What is read from held settings. A value that nobody looked at is no selection of rules, so it
cannot tell which of them are on. -/
def view (held : Held Settings) : Except RecordError View := do
  let plain (name : String) (own : Settings → Value) := held.field sort name own .ok
  return {
    minConfidence := ← plain "min_confidence" fun s => thresholdValue s.minConfidence
    setExitStatus := ← plain "set_exit_status" fun s => .bool s.setExitStatus
    analyzer := ← plain "analyzer" fun s => .text s.analyzer
    rules := ← held.field sort "rules" (·.rules) fun v =>
      .error (.missing v.sort Working.enabled.name)
    excludes := ← plain "excludes" fun s => .list (s.excludes.map .text) }

/-- What is read where nothing stands in the place of a field. -/
def View.ofSettings (settings : Settings) : View where
  minConfidence := thresholdValue settings.minConfidence
  setExitStatus := .bool settings.setExitStatus
  analyzer := .text settings.analyzer
  rules := settings.rules
  excludes := .list (settings.excludes.map .text)

/-- Where every field shows the record's own value the record is read as it is. -/
theorem view_of_own {held : Held Settings}
    (h : ∀ name ∈ names, held.entries.find? name = some .own) :
    view held = .ok (.ofSettings held.record) := by
  simp only [view]
  repeat rw [Held.field_of_own (h _ (by decide))]
  rfl

/-- Settings that were left alone are read as they are. -/
theorem view_held (settings : Settings) : view settings.held = .ok (.ofSettings settings) :=
  view_of_own fun _ hname => Held.find?_ofRecord hname settings

end Settings

end LintFront
