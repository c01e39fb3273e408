import LintFront.Settings.Assignment
/-!
# Records to which values are assigned

`Held α` is a record together with all that assignments by name have left with it. It holds
*entries*: an entry under the name of a field shows the record's own value or one that was put in
its place, any other entry is a note. Values that were put in place are not looked at by anyone, so
reading a field can give a value of any sort, and a field without an entry is missing.

An entry under the name of a `Working` takes its place. The functions `operation`, `partOfTable` and
`search` below say what comes of that: an operation is in vain, a table serves as it is, and names
cannot be looked for in a number. What stands in the slots is kept apart, because entries do not
hide it.

## Main statements

`Held.field_ofRecord`: nothing stands between a fresh record and its reader.
`Held.find?_leaveNote_of_ne`: a note leaves all other entries as they are, unless it replaces them.
`Held.find?_slots_leaveNote`: a note goes into the slot of its name alone.
-/

namespace LintFront

/-- What is shown under a name. -/
inductive Shown where
  /-- The value of the record itself. -/
  | own
  /-- A value that nobody looked at. -/
  | given (value : Value)

/-- A record with what was left with it. -/
structure Held (α : Type) where
  record : α
  entries : Entries Shown
  /-- What was put into slots, each under the name of its slot. -/
  slots : Entries Value := []

/-- Assigning to a record. What was done before a failure stays done. -/
abbrev Assigning (α β : Type) := ExceptT AssignmentError (StateM (Held α)) β

namespace Assigning

variable {α β : Type}

/-- Goes on with an outcome, or fails with what `wrap` makes of its error. -/
def expect {ε : Type} (wrap : ε → AssignmentError) (outcome : Except ε β) : Assigning α β :=
  match outcome with
  | .ok x => pure x
  | .error e => throw (wrap e)

/-- Assigns to a record: what comes of it, and the record afterwards. -/
def runOn (action : Assigning α β) (held : Held α) : Except AssignmentError β × Held α :=
  action.run.run held

end Assigning

namespace Held

variable {α β : Type}

/-- A record whose fields have the given names, with nothing left with it. -/
def ofRecord (names : List String) (record : α) : Held α :=
  { record, entries := names.map fun name => (name, .own) }

/-! ## 1. Leaving notes -/

/-- Puts values in the place of entries. -/
def putAll (held : Held α) (values : Entries Value) : Held α :=
  let put (entries : Entries Shown) (e : String × Value) := entries.insert e.1 (.given e.2)
  { held with entries := values.foldl put held.entries }

/-- Lets fields show the record's own values again. -/
def uncover (held : Held α) (names : List String) : Held α :=
  { held with entries := names.foldl (fun entries name => entries.insert name .own) held.entries }

/-- Leaves a note under a private name with a record of the sort `sort`. -/
def leaveNote (held : Held α) (sort name : String) (v : Value) :
    Except AssignmentError (Held α) :=
  match Assignment.refusal? sort name v with
  | some e => .error e
  | none =>
    match Slot.ofName? name with
    | some slot => .ok { held with slots := held.slots.insert slot.name v }
    | none =>
      if name = Assignment.holdings then
        .ok { held with entries := (v.table?.getD []).map fun e => (e.1, .given e.2) }
      else .ok { held with entries := held.entries.insert name (.given v) }

end Held

/-- Leaves a note with the record to which is assigned. -/
def Assigning.leaveNote {α : Type} (sort name : String) (v : Value) : Assigning α Unit := do
  let held ← get
  set (← expect id (held.leaveNote sort name v))

namespace Held

variable {α β : Type}

/-! ## 2. Using the record -/

/-- The value that stands in the place of a working, if any does. -/
def note? (held : Held α) (working : Working) : Option Value :=
  match held.entries.find? working.name with
  | some (.given v) => some v
  | _ => none

/-- What was put into a slot, if anything was. The null value is nothing. -/
def slot? (held : Held α) (slot : Slot) : Option Value :=
  match held.slots.find? slot.name with
  | some .null => none
  | found => found

/-- Carries out a working, which is in vain where a value stands in its place. -/
def operation (held : Held α) (working : Working) : Except RecordError Unit :=
  match held.note? working with
  | none => .ok ()
  | some v => .error (.blocked v.sort)

/-- Asks a value for a part that only tables have. -/
def partOfTable (part : String) : Option Value → Except RecordError (Entries Value)
  | none => .ok []
  | some (.table entries) => .ok entries
  | some v => .error (.missing v.sort part)

/-- Finds the way to assign under a name: a way that was found before is taken again, and nothing
that could be left with a record is a way. `isSettled` says that the way of the name is known
beforehand. -/
def way (held : Held α) (name : String) (isSettled : Bool) : Except RecordError Unit := do
  let ways ← partOfTable "get" (held.note? .ways)
  match ways.find? name with
  | none | some .null =>
    if isSettled && (held.note? .ways).isNone then return () else held.operation .findWay
  | some v => .error (.blocked v.sort)

/-! ## 3. Reading the record -/

/-- Looks for a name in a value: tables have names, and numbers cannot be searched. -/
def search (name : String) : Value → Except RecordError (Option Value)
  | .table entries => .ok (Entries.find? name entries)
  | .list _ | .text _ | .moment _ => .ok none
  | v => .error (.notSearchable v.sort)

/-- The value for a field that has no entry, in a record of the sort `sort`: one of the extras, if
they have the name. -/
def absent (held : Held α) (sort name : String) : Except RecordError Value := do
  match held.note? .hiddenNames with
  | some v => discard (search name v)
  | none => pure ()
  match held.slot? .extras with
  | some v =>
    if v.isTruthy then
      match ← search name v with
      | some found => return found
      | none => .error (.missing sort name)
    else .error (.missing sort name)
  | none => .error (.missing sort name)

/-- Reads the field `name` of a record of the sort `sort`: `own` reads the record, and `given` a
value that nobody looked at. -/
def field (held : Held α) (sort name : String) (own : α → β)
    (given : Value → Except RecordError β) : Except RecordError β :=
  match held.entries.find? name with
  | some .own => .ok (own held.record)
  | some (.given v) => given v
  | none => do given (← held.absent sort name)

/-! ## 4. Laws -/

/-- Every field of a fresh record shows the record's own value. -/
theorem find?_ofRecord {names : List String} {name : String} (h : name ∈ names) (record : α) :
    (ofRecord names record).entries.find? name = some .own := by
  induction names with
  | nil => cases h
  | cons n names ih =>
    by_cases hn : n = name
    · simp [ofRecord, Entries.find?, hn]
    · have : name ∈ names := by simpa [Ne.symm hn] using h
      simpa [ofRecord, Entries.find?, hn] using ih this

/-- A field that shows the record's own value is read from the record. -/
theorem field_of_own {held : Held α} {name : String} (h : held.entries.find? name = some .own)
    (sort : String) (own : α → β) (given : Value → Except RecordError β) :
    held.field sort name own given = .ok (own held.record) := by
  rw [field, h]

/-- Nothing stands between a fresh record and its reader. -/
theorem field_ofRecord {names : List String} {name : String} (h : name ∈ names) (record : α)
    (sort : String) (own : α → β) (given : Value → Except RecordError β) :
    (ofRecord names record).field sort name own given = .ok (own record) :=
  field_of_own (find?_ofRecord h record) sort own given

/-- A note never touches the record itself. -/
theorem record_leaveNote {held after : Held α} {sort name : String} {v : Value}
    (left : held.leaveNote sort name v = .ok after) : after.record = held.record := by
  unfold leaveNote at left
  repeat' split at left
  all_goals simp at left
  all_goals simp [← left]

/-- A note leaves all other entries as they are, unless it replaces them. -/
theorem find?_leaveNote_of_ne {held after : Held α} {sort name other : String} {v : Value}
    (h : name ≠ Assignment.holdings) (ne : other ≠ name)
    (left : held.leaveNote sort name v = .ok after) :
    after.entries.find? other = held.entries.find? other := by
  unfold leaveNote at left
  rw [if_neg h] at left
  repeat' split at left
  all_goals simp at left
  all_goals simp [← left, Entries.find?_insert_of_ne ne]

variable {held after : Held α} {name sort : String} {v : Value}

/-- Values come into the place of entries of their names alone. -/
theorem find?_putAll_of_notMem {values : Entries Value} (h : name ∉ values.names) :
    (held.putAll values).entries.find? name = held.entries.find? name := by
  rw [putAll]
  generalize held.entries = entries
  induction values generalizing entries with
  | nil => rfl
  | cons e rest ih =>
    obtain ⟨hfirst, hrest⟩ : name ≠ e.1 ∧ name ∉ Entries.names rest := by
      simpa only [Entries.names, List.map_cons, List.mem_cons, not_or] using h
    exact (ih hrest _).trans (Entries.find?_insert_of_ne hfirst _ _)

theorem refusal?_of_leaveNote (left : held.leaveNote sort name v = .ok after) :
    Assignment.refusal? sort name v = none := by
  unfold leaveNote at left
  split at left
  · cases left
  · assumption

/-- A note goes into the slot of its name and into no other. -/
theorem find?_slots_leaveNote (left : held.leaveNote sort name v = .ok after) (slot : Slot) :
    after.slots.find? slot.name =
      if name = slot.name then some v else held.slots.find? slot.name := by
  unfold leaveNote at left
  split at left
  · cases left
  split at left
  · rename_i into hinto
    obtain rfl := Except.ok.inj left
    obtain rfl := Slot.ofName?_eq_some_iff.1 hinto
    dsimp only
    split
    · rename_i hname
      rw [hname, Entries.find?_insert_self]
    · rename_i hname
      rw [Entries.find?_insert_of_ne (Ne.symm hname)]
  · rename_i hnone
    have hname : name ≠ slot.name := by
      rintro rfl
      rw [Slot.ofName?_eq_some_iff.2 rfl] at hnone
      cases hnone
    rw [if_neg hname]
    split at left <;> obtain rfl := Except.ok.inj left <;> rfl

end Held

namespace Assigning

variable {α β γ : Type}

theorem runOn_get_bind (next : Held α → Assigning α β) (held : Held α) :
    runOn (get >>= next) held = (next held).runOn held := rfl

theorem runOn_expect_bind {ε : Type} (wrap : ε → AssignmentError) (outcome : Except ε β)
    (next : β → Assigning α γ) (held : Held α) :
    runOn (expect wrap outcome >>= next) held =
      match outcome with
      | .ok x => (next x).runOn held
      | .error e => (.error (wrap e), held) := by
  cases outcome <;> rfl

theorem runOn_leaveNote (sort name : String) (v : Value) (held : Held α) :
    (leaveNote sort name v).runOn held =
      match held.leaveNote sort name v with
      | .ok after => (.ok (), after)
      | .error e => (.error e, held) := by
  rw [leaveNote, runOn_get_bind, runOn_expect_bind]
  cases held.leaveNote sort name v <;> rfl

end Assigning

end LintFront
