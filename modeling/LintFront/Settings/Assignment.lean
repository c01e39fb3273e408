import LintFront.Validation
/-!
# Assigning by name

A record can be given a value under a name. The fields of a record are its own affair; this module
settles which names have a meaning for every record, and what can go wrong.

A name that starts with an underscore is *private*. Anyone may leave a note under a private name,
with three exceptions.

* Some names stand for the record as a whole: a note under one of them is refused. Under `__dict__`
  a table is accepted, which replaces all that the record holds.
* A `Slot` is a place where the record keeps its accounts. It takes any value, and the record comes
  to grief over it later.
* A `Working` is what the record goes by when it is used. A note under its name takes its place, and
  then the record can no longer be used in that way.

## Main statements

`refusal?_eq_none_iff`: a note is refused under a taken name only.
-/

namespace LintFront

/-- Why a record can be neither read nor used. -/
inductive RecordError where
  /-- A value of the sort `found` lacks a part or a field of the name. -/
  | missing (found name : String)
  /-- A value of the sort `found` stands in the place of an operation. -/
  | blocked (found : String)
  /-- A value of the sort `found` was to be one of the sort `wanted`. -/
  | notInstance (found wanted : String)
  /-- Names were to be looked for in a value of the sort `found`. -/
  | notSearchable (found : String)
  /-- A name of the length was to be a pair. -/
  | notPair (length : Nat)
  deriving DecidableEq, Repr

/-- The wording of an error. -/
def RecordError.message : RecordError → String
  | missing found name => "'" ++ found ++ "' object has no attribute '" ++ name ++ "'"
  | blocked found => "'" ++ found ++ "' object is not callable"
  | notInstance found wanted => "'" ++ found ++ "' object is not an instance of '" ++ wanted ++ "'"
  | notSearchable found => "argument of type '" ++ found ++ "' is not iterable"
  | notPair length =>
    "dictionary update sequence element #0 has length " ++ toString length ++ "; 2 is required"

/-- Why an assignment fails. -/
inductive AssignmentError where
  /-- The value does not suit the field, or there is no such field. -/
  | rejected (complaints : List Complaint)
  /-- The name stands for something that is worked out from the record. -/
  | computed (record name : String)
  /-- The name stands for something that nobody can change. -/
  | fixed (record name : String)
  /-- The name stands for the sort of the record, and a value of the sort `found` is none. -/
  | notSort (found : String)
  /-- The name stands for all fields at once, and a value of the sort `found` is no table. -/
  | notFields (found : String)
  /-- The record cannot be assigned to. -/
  | unusable (error : RecordError)
  deriving DecidableEq, Repr

namespace AssignmentError

/-- The wording of an error. -/
def message : AssignmentError → String
  | rejected complaints => "; ".intercalate (complaints.map fun c => c.kind.message)
  | computed record name => "property '" ++ name ++ "' of '" ++ record ++ "' object has no setter"
  | fixed record name => "attribute '" ++ name ++ "' of '" ++ record ++ "' objects is not writable"
  | notSort found => "__class__ must be set to a class, not '" ++ found ++ "' object"
  | notFields found => "__dict__ must be set to a dictionary, not a '" ++ found ++ "'"
  | unusable error => error.message

end AssignmentError

/-- The word for the sort of a value. -/
def Value.sort : Value → String
  | null => "NoneType"
  | bool _ => "bool"
  | integer _ => "int"
  | real _ => "float"
  | text _ => "str"
  | moment _ => "datetime"
  | list _ => "list"
  | table _ => "dict"

/-- Where a record keeps its accounts. -/
inductive Slot where
  /-- Which fields were given a value. -/
  | assigned
  /-- The values that no field takes. -/
  | extras
  /-- The values that are not for reading. -/
  | hidden
  deriving DecidableEq, Repr

namespace Slot

/-- The private name of a slot. -/
def name : Slot → String
  | assigned => "__pydantic_fields_set__"
  | extras => "__pydantic_extra__"
  | hidden => "__pydantic_private__"

/-- The slot that goes by a name. -/
def ofName? (name : String) : Option Slot :=
  [assigned, extras, hidden].find? fun slot => slot.name = name

theorem ofName?_eq_some_iff {name : String} {slot : Slot} :
    ofName? name = some slot ↔ slot.name = name := by
  constructor
  · intro h
    simpa using List.find?_some h
  · rintro rfl
    cases slot <;> decide

end Slot

/-- What a record goes by when it is used. -/
inductive Working where
  /-- The ways that were found for assigning under names. -/
  | ways
  /-- Finds the way for a name. -/
  | findWay
  /-- Looks at the values of fields before they are taken. -/
  | checker
  /-- The names that are not for reading. -/
  | hiddenNames
  /-- Copies the record, plainly or with changes. -/
  | copy
  | copyChanged
  /-- Governs how the record is changed. -/
  | policy
  /-- Applies switches. -/
  | applySwitches
  /-- Tells which rules are on, all or one of them. -/
  | enabled
  | isEnabled
  deriving DecidableEq, Repr

/-- The name of a working. -/
def Working.name : Working → String
  | ways => "__pydantic_setattr_handlers__"
  | findWay => "_setattr_handler"
  | checker => "__pydantic_validator__"
  | hiddenNames => "__private_attributes__"
  | copy => "__copy__"
  | copyChanged => "model_copy"
  | policy => "model_config"
  | applySwitches => "with_overrides"
  | enabled => "enabled"
  | isEnabled => "is_enabled"

namespace Assignment

/-- Is a name private? -/
def isPrivate (name : String) : Bool := name.toList.head? = some '_'

/-- Names that every record has and that are worked out from it. -/
def computedNames : List String := ["model_extra", "model_fields_set"]

/-- The name that stands for all that a record holds. -/
def holdings : String := "__dict__"

/-- Why a note under a private name of a record of the sort `record` is refused, if it is. -/
def refusal? (record name : String) (v : Value) : Option AssignmentError :=
  if name = "__fields_set__" ∨ name = "__fields__" then some (.computed record name)
  else if name = "__weakref__" then some (.fixed record name)
  else if name = "__class__" then some (.notSort v.sort)
  else if name = holdings ∧ v.table? = none then some (.notFields v.sort)
  else none

/-- A note is refused under a taken name only, under one of them only when the value is no table. -/
theorem refusal?_eq_none_iff {record name : String} {v : Value} :
    refusal? record name v = none ↔
      name ∉ ["__fields_set__", "__fields__", "__weakref__", "__class__"] ∧
        (name = holdings → v.table? ≠ none) := by
  grind [refusal?]

end Assignment

end LintFront
