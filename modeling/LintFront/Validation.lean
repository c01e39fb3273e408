import LintFront.Value
import LintFront.Number.Reading
/-!
# Reading values

A value is read as a flag, a number, a text or a list of texts. Reading is lenient where a spelling
leaves no doubt: text may spell a number or a flag, and a flag is the number zero or one. What
cannot be read gives rise to a *complaint* that names the place and the fault.

Complaints do not end the reading: a record is read to its last field, and all complaints are handed
over together, those about its fields in the order of the fields and those about names it does not
know after them.

## Main statements

`Checked.zip_eq_ok_iff`: two readings succeed together exactly when both succeed.
-/

namespace LintFront

/-- What is wrong with a value. -/
inductive ComplaintKind where
  | missing
  | notText
  | notFlag
  | unreadableFlag
  | notWhole
  | unreadableWhole
  | tooLongWhole
  | fractional
  | notFinite
  | notNumber
  | unreadableNumber
  | belowZero
  | aboveOne
  | notList
  /-- The value is no table; the name says what it should describe. -/
  | notTable (what : String)
  | unknownName
  | frozen
  | noSuchAttribute (name : String)
  deriving DecidableEq, Repr

namespace ComplaintKind

/-- The short name of a fault. -/
def code : ComplaintKind → String
  | missing => "missing"
  | notText => "string_type"
  | notFlag => "bool_type"
  | unreadableFlag => "bool_parsing"
  | notWhole => "int_type"
  | unreadableWhole => "int_parsing"
  | tooLongWhole => "int_parsing_size"
  | fractional => "int_from_float"
  | notFinite => "finite_number"
  | notNumber => "float_type"
  | unreadableNumber => "float_parsing"
  | belowZero => "greater_than_equal"
  | aboveOne => "less_than_equal"
  | notList => "list_type"
  | notTable _ => "model_type"
  | unknownName => "extra_forbidden"
  | frozen => "frozen_instance"
  | noSuchAttribute _ => "no_such_attribute"

/-- The wording of a fault. -/
def message : ComplaintKind → String
  | missing => "Field required"
  | notText => "Input should be a valid string"
  | notFlag => "Input should be a valid boolean"
  | unreadableFlag => "Input should be a valid boolean, unable to interpret input"
  | notWhole => "Input should be a valid integer"
  | unreadableWhole => "Input should be a valid integer, unable to parse string as an integer"
  | tooLongWhole => "Unable to parse input string as an integer, exceeded maximum size"
  | fractional => "Input should be a valid integer, got a number with a fractional part"
  | notFinite => "Input should be a finite number"
  | notNumber => "Input should be a valid number"
  | unreadableNumber => "Input should be a valid number, unable to parse string as a number"
  | belowZero => "Input should be greater than or equal to 0"
  | aboveOne => "Input should be less than or equal to 1"
  | notList => "Input should be a valid list"
  | notTable what => "Input should be a valid dictionary or instance of " ++ what
  | unknownName => "Extra inputs are not permitted"
  | frozen => "Instance is frozen"
  | noSuchAttribute name => "Object has no attribute '" ++ name ++ "'"

end ComplaintKind

/-- A fault and its place: the names and positions that lead to it. -/
structure Complaint where
  location : List String
  kind : ComplaintKind
  deriving DecidableEq, Repr

/-- The place of a complaint as one text. -/
def Complaint.place (complaint : Complaint) : String := ".".intercalate complaint.location

/-- The outcome of reading: something, or the complaints. -/
abbrev Checked (α : Type) := Except (List Complaint) α

namespace Checked

variable {α β : Type}

/-- One complaint about the value itself. -/
def fail (kind : ComplaintKind) : Checked α := .error [⟨[], kind⟩]

/-- A reading one step further down: `name` leads to it. -/
def under (name : String) : Checked α → Checked α
  | .ok x => .ok x
  | .error complaints => .error (complaints.map fun c => { c with location := name :: c.location })

/-- Two readings, the complaints of both together. -/
def zip : Checked α → Checked β → Checked (α × β)
  | .ok a, .ok b => .ok (a, b)
  | .ok _, .error e => .error e
  | .error e, .ok _ => .error e
  | .error e, .error f => .error (e ++ f)

/-- The complaints of a reading. -/
def complaints : Checked α → List Complaint
  | .ok _ => []
  | .error e => e

theorem zip_eq_ok_iff {a : Checked α} {b : Checked β} {x : α} {y : β} :
    a.zip b = .ok (x, y) ↔ a = .ok x ∧ b = .ok y := by
  cases a <;> cases b <;> simp [zip]

theorem complaints_zip (a : Checked α) (b : Checked β) :
    (a.zip b).complaints = a.complaints ++ b.complaints := by
  cases a <;> cases b <;> simp [zip, complaints]

end Checked

namespace Value

/-! ## Reading one value -/

/-- The value as a text. -/
def asText : Value → Checked String
  | text s => .ok s
  | _ => .fail .notText

/-- The value as a text or nothing. -/
def asOptionalText : Value → Checked (Option String)
  | null => .ok none
  | v => v.asText.map some

/-- The words that spell a flag. -/
def flagOfWord? (word : String) : Option Bool :=
  if ["0", "off", "f", "false", "n", "no"].contains word then some false
  else if ["1", "on", "t", "true", "y", "yes"].contains word then some true
  else none

/-- Does a double that is the whole number `i` count as a whole number where one is asked for? The
two ends of the sixty-four bit numbers do not. -/
def isWithinWord (i : Int) : Bool := -Int.pow 2 63 < i && i < Int.pow 2 63

/-- The value as a flag. Numbers of more than sixty-four bits are not even looked at. -/
def asFlag : Value → Checked Bool
  | bool b => .ok b
  | integer i =>
    if i = 0 then .ok false
    else if i = 1 then .ok true
    else if -Int.pow 2 63 ≤ i ∧ i < Int.pow 2 63 then .fail .unreadableFlag
    else .fail .notFlag
  | real x =>
    match x.toInt? with
    | some i =>
      if i = 0 then .ok false
      else if i = 1 then .ok true
      else .fail (if isWithinWord i then .unreadableFlag else .notFlag)
    | none => .fail .notFlag
  | text s =>
    match flagOfWord? (String.ofList (s.toList.map Char.toLower)) with
    | some b => .ok b
    | none => .fail .unreadableFlag
  | _ => .fail .notFlag

/-- The complaint about a text that spells no whole number. -/
def complaintOf : Reading.WholeFault → ComplaintKind
  | .unreadable => .unreadableWhole
  | .tooLong => .tooLongWhole

/-- The value as a whole number. -/
def asWhole : Value → Checked Int
  | integer i => .ok i
  | bool b => .ok (if b then 1 else 0)
  | real x =>
    match x.toInt? with
    | some i => if isWithinWord i then .ok i else .fail .tooLongWhole
    | none => .fail (if x.isFinite then .fractional else .notFinite)
  | text s =>
    match Reading.whole s.toList with
    | .ok i => .ok i
    | .error fault => .fail (complaintOf fault)
  | _ => .fail .notWhole

/-- The value as a natural number. -/
def asNatural (v : Value) : Checked Nat :=
  match v.asWhole with
  | .ok i => if i < 0 then .fail .belowZero else .ok i.toNat
  | .error e => .error e

/-- The value as a double. An integer beyond all doubles is not a number here. -/
def asReal : Value → Checked Double
  | integer i => if (Double.ofInt i).isFinite then .ok (.ofInt i) else .fail .notNumber
  | bool b => .ok (if b then .one else .zero)
  | real x => .ok x
  | text s =>
    match Reading.real? s.toList with
    | some x => .ok x
    | none => .fail .unreadableNumber
  | _ => .fail .notNumber

/-- A double between zero and one. The undefined value is reported as too large. -/
def withinUnit (x : Double) : Checked Double :=
  if !x.le .one then .fail .aboveOne
  else if !Double.zero.le x then .fail .belowZero
  else .ok x

/-- The value as a confidence: a double between zero and one. -/
def asConfidence (v : Value) : Checked Double :=
  match v.asReal with
  | .ok x => withinUnit x
  | .error e => .error e

/-- The items of a list as texts, complaints about all items together; `index` counts the items
before them. -/
def textsFrom (index : Nat) : List Value → Checked (List String)
  | [] => .ok []
  | v :: rest => ((v.asText.under (toString index)).zip (textsFrom (index + 1) rest)).map fun p =>
    p.1 :: p.2

/-- The value as a list of texts. -/
def asTexts : Value → Checked (List String)
  | list items => textsFrom 0 items
  | _ => .fail .notList

end Value

namespace Entries

variable {α : Type}

/-- Reads a field that may be absent. -/
def field (entries : Entries Value) (name : String) (absent : α) (read : Value → Checked α) :
    Checked α :=
  match entries.find? name with
  | some v => (read v).under name
  | none => .ok absent

/-- Reads a field that must be there. -/
def required (entries : Entries Value) (name : String) (read : Value → Checked α) : Checked α :=
  match entries.find? name with
  | some v => (read v).under name
  | none => .error [⟨[name], .missing⟩]

/-- Complains about every name that is not known. -/
def onlyKnown (entries : Entries Value) (known : List String) : Checked Unit :=
  match (entries.names.filter fun name => !known.contains name) with
  | [] => .ok ()
  | unknown => .error (unknown.map fun name => ⟨[name], .unknownName⟩)

end Entries

/-- A double between zero and one is between zero and one. -/
theorem Value.withinUnit_eq_ok_iff {x y : Double} :
    withinUnit x = .ok y ↔ x = y ∧ Double.zero.le x = true ∧ x.le .one = true := by
  unfold withinUnit
  cases h : x.le .one <;> cases h' : Double.zero.le x <;> simp [Checked.fail]

end LintFront
