import LintFront.Proofs.CommandLine.Threshold
import LintFront.Proofs.Entries
import LintFront.Settings.Held
/-!
# Settings after any number of assignments

Settings are assigned one after the other, each under any name and with any value. Two things could
go wrong: an assignment could fail half-way and leave the settings changed, and a value could come
into the place of a field without being looked at.

The first never happens, since whatever can fail in an assignment comes before anything is changed
(`Settings.Assigned.failed`). The second does happen, but only where a table is assigned to a name
that stands for the record as a whole: a table under `__dict__` replaces all that the record holds,
and a table that is left in the slot for extras comes into the place of fields with the next field
that is assigned (`Settings.holdings_not_checked`). As long as no assignment does this the fields
show the record's own values. This is the invariant, `Settings.IsSound`, and the rest follows from
it.

Notes can also stand in the way, so that a field does not take a value that suits it. Where none was
left (`Settings.IsBare`) the value alone decides.

## Main statements

`Settings.assigned_runOn`: what an assignment can do. `Settings.IsSound.assigned`: the invariant is
kept. `Settings.assignments_sound`: settings stay valid under assignments, and an assignment changes
the field that it names or nothing. `Settings.view_assignAll_of_not_isPrivate`: under names that a
field can have this needs no proviso.
-/

namespace LintFront.Settings

/-! ## 1. What an assignment can do -/

/-- What comes of an assignment, and the settings after it: it fails and changes nothing, it leaves
a note, or a field takes the value, and with it the extras come into the place of fields. -/
inductive Assigned (held : Held Settings) (name : String) (v : Value) :
    Except AssignmentError Unit → Held Settings → Prop where
  | failed (e : AssignmentError) : Assigned held name v (.error e) held
  | noted {after : Held Settings} (isPrivate : Assignment.isPrivate name = true)
      (left : held.leaveNote sort name v = .ok after) : Assigned held name v (.ok ()) after
  | taken {values : Entries Value} {record : Settings} (beside : extras held = .ok values)
      (read : held.record.assignField name v = .ok record) :
      Assigned held name v (.ok ())
        { { held with record }.putAll values |>.uncover [name] with
          slots := held.slots.erase Slot.extras.name }

theorem assigned_runOn_assignHeld (held : Held Settings) (name : String) (v : Value) :
    Assigned held name v ((assignHeld name v).runOn held).1 ((assignHeld name v).runOn held).2 := by
  rw [assignHeld, Assigning.runOn_get_bind]
  split
  · exact .failed _
  · rw [Assigning.runOn_expect_bind]
    -- Each of the three questions is put to the settings as they were found.
    cases hextras : extras held with
    | error e => exact .failed _
    | ok values =>
      dsimp only
      rw [Assigning.runOn_expect_bind]
      cases hread : held.record.assignField name v with
      | error complaints => exact .failed _
      | ok record =>
        dsimp only
        rw [Assigning.runOn_expect_bind]
        cases enter held with
        | error e => exact .failed _
        | ok => exact .taken hextras hread

/-- An assignment fails and changes nothing, or it does what it is to do. -/
theorem assigned_runOn (held : Held Settings) (name : String) (v : Value) :
    Assigned held name v ((assign name v).runOn held).1 ((assign name v).runOn held).2 := by
  rw [assign, Assigning.runOn_get_bind, Assigning.runOn_expect_bind]
  split
  · split
    · rename_i hprivate
      rw [Assigning.runOn_leaveNote]
      cases hleft : held.leaveNote sort name v with
      | error e => exact .failed e
      | ok after => exact .noted hprivate hleft
    · split
      · exact .failed _
      · exact assigned_runOn_assignHeld held name v
  · exact .failed _

/-! ## 2. One field -/

/-- What is read from valid settings: a threshold between zero and one, a flag, a text and a list of
texts. That the rules are a selection is the sort of what is read. -/
structure View.IsValid (view : View) : Prop where
  minConfidence : ∃ x, view.minConfidence = .real x ∧ x.IsWithinUnit
  setExitStatus : ∃ on, view.setExitStatus = .bool on
  analyzer : ∃ text, view.analyzer = .text text
  excludes : ∃ texts : List String, view.excludes = .list (texts.map .text)

/-- What is read is the same in all fields but the one of the name. -/
structure View.SameApartFrom (name : String) (before after : View) : Prop where
  minConfidence : name ≠ "min_confidence" → after.minConfidence = before.minConfidence
  setExitStatus : name ≠ "set_exit_status" → after.setExitStatus = before.setExitStatus
  analyzer : name ≠ "analyzer" → after.analyzer = before.analyzer
  rules : name ≠ "rules" → after.rules = before.rules
  excludes : name ≠ "excludes" → after.excludes = before.excludes

theorem View.SameApartFrom.refl (name : String) (view : View) : SameApartFrom name view view :=
  ⟨fun _ => rfl, fun _ => rfl, fun _ => rfl, fun _ => rfl, fun _ => rfl⟩

theorem View.isValid_ofSettings {settings : Settings}
    (h : settings.minConfidence.IsWithinUnit) : (View.ofSettings settings).IsValid := by
  obtain ⟨x, hx, hwithin⟩ := h
  exact ⟨⟨x, congrArg thresholdValue hx, hwithin⟩, ⟨_, rfl⟩, ⟨_, rfl⟩, ⟨_, rfl⟩⟩

/-- A field that takes a value is one of the settings, the others stay, and the threshold stays
within its bounds. -/
theorem of_assignField {settings settings' : Settings} {name : String} {v : Value}
    (h : settings.assignField name v = .ok settings') :
    name ∈ names ∧ View.SameApartFrom name (.ofSettings settings) (.ofSettings settings') ∧
      (settings.minConfidence.IsWithinUnit → settings'.minConfidence.IsWithinUnit) := by
  unfold assignField at h
  split at h
  case h_6 => cases h
  -- The threshold alone has bounds, which are checked when it is read.
  all_goals obtain ⟨x, hx, rfl⟩ := Checked.map_eq_ok_iff.1 h
  case h_1 =>
    have hread := Checked.under_eq_ok_iff.1 hx
    exact ⟨by decide, ⟨fun hne => absurd rfl hne, fun _ => rfl, fun _ => rfl, fun _ => rfl,
      fun _ => rfl⟩, fun _ => isWithinUnit_of_asThreshold hread⟩
  all_goals
    refine ⟨by decide, ?_, id⟩
    constructor <;> intro hne <;> first | rfl | exact absurd rfl hne

/-! ## 3. The invariant -/

/-- The assignment does not put a table in the place of all that the record holds, and no table with
the name of a field into the slot for extras. -/
def Spares (name : String) (v : Value) : Prop :=
  ∀ entries : Entries Value, v.table? = some entries → name ≠ Assignment.holdings ∧
    (name = Slot.extras.name → ∀ field ∈ names, field ∉ entries.names)

/-- The fields show the record's own values, the threshold is within its bounds, and no extra waits
to come into the place of a field. -/
structure IsSound (held : Held Settings) : Prop where
  own : ∀ field ∈ names, held.entries.find? field = some .own
  bounded : held.record.minConfidence.IsWithinUnit
  beside : ∀ values : Entries Value, held.slots.find? Slot.extras.name = some (.table values) →
    ∀ field ∈ names, field ∉ values.names

variable {held : Held Settings} {name : String} {v : Value}

theorem not_isPrivate_of_mem_names (h : name ∈ names) : Assignment.isPrivate name = false := by
  revert name
  decide

theorem isSound_held {entries : Entries Value} {settings : Settings}
    (h : ofEntries entries = .ok settings) : IsSound settings.held where
  own _ hfield := Held.find?_ofRecord hfield settings
  bounded := isWithinUnit_of_ofEntries h
  beside _ hvalues := nomatch hvalues

theorem IsSound.view (h : IsSound held) : view held = .ok (.ofSettings held.record) :=
  view_of_own h.own

/-- What comes into the place of fields is no field. -/
theorem IsSound.notMem_of_extras (h : IsSound held) {values : Entries Value}
    (hvalues : extras held = .ok values) {field : String} (hfield : field ∈ names) :
    field ∉ values.names := by
  unfold extras Held.slot? at hvalues
  split at hvalues
  · obtain rfl := Except.ok.inj hvalues
    exact List.not_mem_nil
  · rename_i found hfound
    obtain rfl := Except.ok.inj hvalues
    refine h.beside _ ?_ field hfield
    split at hfound
    · cases hfound
    · exact hfound
  · cases hvalues

theorem IsSound.noted (h : IsSound held) (hspares : Spares name v)
    (hprivate : Assignment.isPrivate name = true) {after : Held Settings}
    (left : held.leaveNote sort name v = .ok after) : IsSound after := by
  -- Under the name of all holdings only a table is not refused, and such a table is not spared.
  have hholdings : name ≠ Assignment.holdings := by
    intro hname
    have htable := (Assignment.refusal?_eq_none_iff.1 (Held.refusal?_of_leaveNote left)).2 hname
    obtain ⟨entries, hentries⟩ := Option.ne_none_iff_exists'.1 htable
    exact (hspares entries hentries).1 hname
  constructor
  case own =>
    intro field hfield
    have hne : field ≠ name := by
      rintro rfl
      rw [not_isPrivate_of_mem_names hfield] at hprivate
      cases hprivate
    rw [Held.find?_leaveNote_of_ne hholdings hne left]
    exact h.own field hfield
  case bounded =>
    rw [Held.record_leaveNote left]
    exact h.bounded
  case beside =>
    intro values hvalues
    rw [Held.find?_slots_leaveNote left] at hvalues
    split at hvalues
    · rename_i hname
      obtain rfl := Option.some.inj hvalues
      exact (hspares values rfl).2 hname
    · exact h.beside values hvalues

theorem IsSound.taken (h : IsSound held) {values : Entries Value} {record : Settings}
    (hvalues : extras held = .ok values) (hread : held.record.assignField name v = .ok record) :
    IsSound { { held with record }.putAll values |>.uncover [name] with
      slots := held.slots.erase Slot.extras.name } := by
  constructor
  case own =>
    intro field hfield
    show (Entries.insert name .own ({ held with record }.putAll values).entries).find? field = _
    by_cases hname : field = name
    · rw [hname, Entries.find?_insert_self]
    · rw [Entries.find?_insert_of_ne hname,
        Held.find?_putAll_of_notMem (h.notMem_of_extras hvalues hfield)]
      exact h.own field hfield
  case bounded => exact (of_assignField hread).2.2 h.bounded
  case beside =>
    -- The extras are used up.
    intro found hfound
    rw [Entries.find?_erase_self] at hfound
    cases hfound

/-- The invariant is kept by every assignment that spares the record as a whole. -/
theorem IsSound.assigned (h : IsSound held) (hspares : Spares name v)
    {outcome : Except AssignmentError Unit} {after : Held Settings}
    (hassigned : Assigned held name v outcome after) : IsSound after := by
  cases hassigned with
  | failed e => exact h
  | noted hprivate left => exact h.noted hspares hprivate left
  | taken hvalues hread => exact h.taken hvalues hread

/-! ## 4. Settings without notes -/

/-- No note was left: nothing stands in a slot, and there are entries for fields alone. -/
structure IsBare (held : Held Settings) : Prop where
  slots : held.slots = []
  fields : ∀ name ∈ held.entries.names, name ∈ names

theorem IsBare.note?_eq_none (h : IsBare held) (working : Working) : held.note? working = none := by
  have hworking : working.name ∉ names := by cases working <;> decide
  have habsent : held.entries.find? working.name = none :=
    Entries.find?_eq_none_iff.2 fun hmem => hworking (h.fields _ hmem)
  rw [Held.note?, habsent]

theorem isBare_held (settings : Settings) : IsBare settings.held where
  slots := rfl
  fields := by
    intro name hname
    rwa [Settings.held, Held.ofRecord, Entries.names, List.map_map, List.map_id''] at hname
    exact fun _ => rfl

theorem IsBare.extras_eq (h : IsBare held) : extras held = .ok [] := by
  rw [extras, Held.slot?, h.slots]
  rfl

theorem IsBare.enter_eq (h : IsBare held) : enter held = .ok () := by
  rw [enter, h.slots]
  rfl

theorem IsBare.way_eq (h : IsBare held) (name : String) (isSettled : Bool) :
    held.way name isSettled = .ok () := by
  rw [Held.way, h.note?_eq_none, Held.operation, h.note?_eq_none]
  cases isSettled <;> rfl

/-- Where no note was left a field takes what can be read, and complains about anything else. -/
theorem IsBare.runOn_assign (h : IsBare held) (hname : name ∈ names) :
    ((assign name v).runOn held).1 =
      ((held.record.assignField name v).mapError .rejected).map fun _ => () := by
  have hcomputed : name ∉ Assignment.computedNames := by
    revert name
    decide
  rw [assign, Assigning.runOn_get_bind, Assigning.runOn_expect_bind, h.way_eq]
  dsimp only
  rw [not_isPrivate_of_mem_names hname, if_neg Bool.false_ne_true, if_neg hcomputed, assignHeld,
    Assigning.runOn_get_bind, h.note?_eq_none]
  dsimp only
  rw [Assigning.runOn_expect_bind, h.extras_eq]
  dsimp only
  rw [Assigning.runOn_expect_bind]
  cases held.record.assignField name v with
  | error complaints => rfl
  | ok record =>
    dsimp only
    rw [Assigning.runOn_expect_bind, h.enter_eq]
    rfl

theorem IsBare.assigned (h : IsBare held) (hprivate : Assignment.isPrivate name = false)
    {outcome : Except AssignmentError Unit} {after : Held Settings}
    (hassigned : Assigned held name v outcome after) : IsBare after := by
  cases hassigned with
  | failed e => exact h
  | noted isPrivate left =>
    rw [hprivate] at isPrivate
    cases isPrivate
  | taken hvalues hread =>
    obtain rfl := Except.ok.inj (h.extras_eq.symm.trans hvalues)
    constructor
    case slots =>
      dsimp only
      rw [h.slots]
      rfl
    case fields =>
      intro field hfield
      change field ∈ Entries.names (held.entries.insert name .own) at hfield
      rw [Entries.insert, Entries.names_alter] at hfield
      split at hfield
      · exact h.fields field hfield
      · rcases List.mem_append.1 hfield with hold | hnew
        · exact h.fields field hold
        · rw [List.mem_singleton.1 hnew]
          exact (of_assignField hread).1

/-! ## 5. One assignment after the other -/

/-- The settings after assignments, each of a value to a name. One that fails is passed over. -/
def assignAll (held : Held Settings) (steps : List (String × Value)) : Held Settings :=
  steps.foldl (fun held step => ((assign step.1 step.2).runOn held).2) held

/-- What every allowed assignment keeps, whatever comes of it, is kept by all of them together. -/
theorem assignAll_keeps (kept : Held Settings → Prop) (allowed : String → Value → Prop)
    (hstep : ∀ {held name v}, kept held → allowed name v →
      ∀ {outcome after}, Assigned held name v outcome after → kept after)
    (h : kept held) {steps : List (String × Value)}
    (hsteps : ∀ step ∈ steps, allowed step.1 step.2) : kept (assignAll held steps) := by
  induction steps generalizing held with
  | nil => exact h
  | cons step steps ih =>
    obtain ⟨hallowed, hsteps⟩ := List.forall_mem_cons.1 hsteps
    exact ih (hstep h hallowed (assigned_runOn _ _ _)) hsteps

/-- An assignment that does not fail changes the field of the name, and to what its value is read
as; under a name that is no field it changes none. -/
theorem Assigned.sameApartFrom {outcome : Except AssignmentError Unit} {after : Held Settings}
    (h : Assigned held name v outcome after) (hok : outcome = .ok ()) :
    View.SameApartFrom name (.ofSettings held.record) (.ofSettings after.record) ∧
      (name ∈ names → held.record.assignField name v = .ok after.record) := by
  cases h with
  | failed e => cases hok
  | noted hprivate left =>
    rw [Held.record_leaveNote left]
    refine ⟨.refl _ _, fun hname => ?_⟩
    rw [not_isPrivate_of_mem_names hname] at hprivate
    cases hprivate
  | taken hvalues hread => exact ⟨(of_assignField hread).2.1, fun _ => hread⟩

theorem Assigned.eq_of_error {outcome : Except AssignmentError Unit} {after : Held Settings}
    {e : AssignmentError} (h : Assigned held name v outcome after) (he : outcome = .error e) :
    after = held := by
  cases h with
  | failed => rfl
  | noted => cases he
  | taken => cases he

/-- Settings that are read from a table stay valid under assignments, as long as none of these puts
a table in the place of what the record holds. In every state that is reached all fields can be read
and are valid. An assignment that fails there changes nothing at all, and one that does not fail
changes the field that it names and no other. While no note is left, a field takes exactly what can
be read. -/
theorem assignments_sound {entries : Entries Value} {initial : Settings}
    (hread : ofEntries entries = .ok initial) {steps : List (String × Value)}
    (hsteps : ∀ step ∈ steps, Spares step.1 step.2) :
    ∃ settings, view (assignAll initial.held steps) = .ok (.ofSettings settings) ∧
      (View.ofSettings settings).IsValid ∧
      ∀ name v outcome after,
        (assign name v).runOn (assignAll initial.held steps) = (outcome, after) →
        (∀ e, outcome = .error e → after = assignAll initial.held steps) ∧
        (outcome = .ok () → Spares name v → ∃ settings',
          view after = .ok (.ofSettings settings') ∧
          View.SameApartFrom name (.ofSettings settings) (.ofSettings settings') ∧
          (name ∈ names → settings.assignField name v = .ok settings')) ∧
        ((∀ step ∈ steps, Assignment.isPrivate step.1 = false) → name ∈ names →
          outcome = ((settings.assignField name v).mapError .rejected).map fun _ => ()) := by
  have hsound : IsSound (assignAll initial.held steps) :=
    assignAll_keeps IsSound Spares IsSound.assigned (isSound_held hread) hsteps
  refine ⟨_, hsound.view, View.isValid_ofSettings hsound.bounded, ?_⟩
  intro name v outcome after hrun
  have hassigned := assigned_runOn (assignAll initial.held steps) name v
  rw [hrun] at hassigned
  refine ⟨fun e he => hassigned.eq_of_error he, fun hok hspares => ?taken, fun hbare hname => ?fit⟩
  case taken => exact ⟨_, (hsound.assigned hspares hassigned).view, hassigned.sameApartFrom hok⟩
  case fit =>
    have hkept : IsBare (assignAll initial.held steps) :=
      assignAll_keeps IsBare (fun name _ => Assignment.isPrivate name = false) IsBare.assigned
        (isBare_held initial) hbare
    rw [← hkept.runOn_assign hname, hrun]

/-- A note, a threshold that is no number, and a flag in a word. -/
def threeSteps : List (String × Value) :=
  [("_note", .table []), ("min_confidence", .text "seven"), ("set_exit_status", .text "yes")]

/-- The flag is read from its word, and everything else is as it was. -/
theorem sound_threeSteps : ofEntries [] = .ok default ∧
    (∀ step ∈ threeSteps, Spares step.1 step.2) ∧
    ∃ settings, view (assignAll default.held threeSteps) = .ok (.ofSettings settings) ∧
      (View.ofSettings settings).IsValid ∧
      View.ofSettings settings = { View.ofSettings default with setExitStatus := .bool true } := by
  have hread : ofEntries [] = .ok default := rfl
  have hsteps : ∀ step ∈ threeSteps, Spares step.1 step.2 := by
    simp [threeSteps, Spares, Value.table?, Assignment.holdings, Slot.name]
  obtain ⟨settings, hview, hvalid, -⟩ := assignments_sound hread hsteps
  refine ⟨hread, hsteps, settings, hview, hvalid, ?_⟩
  exact Except.ok.inj (hview.symm.trans rfl)

/-- A table with a threshold above one and without rules. -/
def unchecked : Value :=
  .table [("analyzer", .text "syntax"), ("min_confidence", .integer 7),
    ("set_exit_status", .bool false), ("excludes", .list [])]

/-- A table in the place of what the record holds is not looked at: the settings cannot be read
until rules are assigned, and then the threshold is too large. A table in the slot for extras is not
looked at either: an assignment to the rules changes the threshold. -/
theorem holdings_not_checked : ofEntries [] = .ok default ∧
    view (assignAll default.held [(Assignment.holdings, unchecked)]) =
      .error (.missing sort "rules") ∧
    (∃ seen,
      view (assignAll default.held [(Assignment.holdings, unchecked), ("rules", .table [])]) =
        .ok seen ∧ ¬seen.IsValid) ∧
    ∃ before after,
      view (assignAll default.held [(Slot.extras.name, unchecked)]) = .ok before ∧
      view (assignAll default.held [(Slot.extras.name, unchecked), ("rules", .table [])]) =
        .ok after ∧
      ¬View.SameApartFrom "rules" before after ∧ ¬after.IsValid := by
  have hinvalid : ∀ seen : View, seen.minConfidence = .integer 7 → ¬seen.IsValid := by
    rintro seen hseven ⟨⟨x, hx, -⟩, -, -, -⟩
    rw [hseven] at hx
    cases hx
  refine ⟨rfl, rfl, ⟨_, rfl, hinvalid _ rfl⟩, _, _, rfl, rfl, ?_, hinvalid _ rfl⟩
  intro hsame
  have hthreshold := hsame.minConfidence (by decide)
  cases hthreshold

/-! ## 6. Names that a field can have -/

/-- The settings after an assignment to a field: what can be read is taken. -/
def taking (settings : Settings) (step : String × Value) : Settings :=
  match settings.assignField step.1 step.2 with
  | .ok settings' => settings'
  | .error _ => settings

theorem sameApartFrom_taking (settings : Settings) (step : String × Value) :
    View.SameApartFrom step.1 (.ofSettings settings) (.ofSettings (settings.taking step)) := by
  unfold taking
  split
  · rename_i settings' hread
    exact (of_assignField hread).2.1
  · exact .refl _ _

/-- Where no note was left an assignment is nothing but the field's taking what can be read. -/
theorem IsBare.record_runOn_assign (h : IsBare held) (hprivate : Assignment.isPrivate name = false)
    (v : Value) : ((assign name v).runOn held).2.record = held.record.taking (name, v) := by
  have hfits (hname : name ∈ names) := h.runOn_assign hname (v := v)
  cases hrun : (assign name v).runOn held with
  | mk outcome after =>
    have hassigned := assigned_runOn held name v
    rw [hrun] at hassigned hfits
    dsimp only at hassigned hfits ⊢
    unfold taking
    cases hassigned with
    | failed e =>
      split
      · -- A value that can be read is taken.
        rename_i record hread
        have htaken := hfits (of_assignField hread).1
        rw [hread] at htaken
        cases htaken
      · rfl
    | noted isPrivate left =>
      rw [hprivate] at isPrivate
      cases isPrivate
    | taken beside read =>
      rw [read]
      rfl

theorem IsBare.record_assignAll (h : IsBare held) {steps : List (String × Value)}
    (hsteps : ∀ step ∈ steps, Assignment.isPrivate step.1 = false) :
    (assignAll held steps).record = steps.foldl taking held.record := by
  induction steps generalizing held with
  | nil => rfl
  | cons step steps ih =>
    obtain ⟨hstep, hsteps⟩ := List.forall_mem_cons.1 hsteps
    have hnext := ih (h.assigned hstep (assigned_runOn held step.1 step.2)) hsteps
    rw [h.record_runOn_assign hstep] at hnext
    exact hnext

/-- A name that a field can have does not stand for the record as a whole. -/
theorem spares_of_not_isPrivate (h : Assignment.isPrivate name = false) : Spares name v := by
  have hne : ∀ other, Assignment.isPrivate other = true → name ≠ other := by
    rintro other hprivate rfl
    exact absurd hprivate (by rw [h]; exact Bool.false_ne_true)
  exact fun entries _ => ⟨hne _ (by decide), fun hname => absurd hname (hne _ (by decide))⟩

/-- Under names that a field can have there is no exception. Settings that are read from a table
stay valid under any assignments, and they are what the fields have taken one after the other: all
that a record holds besides its fields makes no difference. One assignment more changes the field of
its name and no other. -/
theorem view_assignAll_of_not_isPrivate {entries : Entries Value} {initial : Settings}
    (hread : ofEntries entries = .ok initial) {steps : List (String × Value)}
    (hsteps : ∀ step ∈ steps, Assignment.isPrivate step.1 = false) :
    let settings := steps.foldl taking initial
    view (assignAll initial.held steps) = .ok (.ofSettings settings) ∧
      (View.ofSettings settings).IsValid ∧
      ∀ step, View.SameApartFrom step.1 (.ofSettings settings)
        (.ofSettings (settings.taking step)) := by
  intro settings
  have hsound : IsSound (assignAll initial.held steps) :=
    assignAll_keeps IsSound Spares IsSound.assigned (isSound_held hread) fun step hstep =>
      spares_of_not_isPrivate (hsteps step hstep)
  have hrecord : (assignAll initial.held steps).record = settings :=
    (isBare_held initial).record_assignAll hsteps
  have hview := hsound.view
  have hvalid := View.isValid_ofSettings hsound.bounded
  rw [hrecord] at hview hvalid
  exact ⟨hview, hvalid, sameApartFrom_taking settings⟩

end LintFront.Settings
