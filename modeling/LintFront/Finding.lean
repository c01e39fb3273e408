import LintFront.Validation
/-!
# Findings

An engine reports findings. A finding says where, what, and how sure the engine is; only the first
two are printed. A position without a line is the whole file, and one without a column is the whole
line.
-/

namespace LintFront

/-- A place in a source file. Lines and columns count from one; zero stands for none. -/
structure Position where
  file : String
  line : Nat := 0
  column : Nat := 0
  deriving DecidableEq, Repr

namespace Position

/-- The position as printed. -/
def text (p : Position) : String :=
  if p.line = 0 then p.file
  else if p.column = 0 then p.file ++ ":" ++ toString p.line
  else p.file ++ ":" ++ toString p.line ++ ":" ++ toString p.column

/-- The position that a table describes. Names it does not know are passed over. -/
def ofEntries (entries : Entries Value) : Checked Position :=
  ((entries.required "file" Value.asText).zip
    ((entries.field "line" 0 Value.asNatural).zip (entries.field "column" 0 Value.asNatural))).map
    fun (file, line, column) => ⟨file, line, column⟩

/-- The position that a value describes. -/
def ofValue : Value → Checked Position
  | .table entries => ofEntries entries
  | _ => .fail (.notTable "Position")

end Position

/-- What an engine has to say about a place. -/
structure Finding where
  position : Position
  text : String
  /-- Between zero and one. -/
  confidence : Double
  category : Option String := none
  link : Option String := none
  deriving DecidableEq, Repr

namespace Finding

/-- The finding as printed (`Finding.render`). -/
def render (finding : Finding) : String := finding.position.text ++ ": " ++ finding.text

/-- Is the finding at least as sure as the bound (`meets_threshold`)? -/
def meets (finding : Finding) (bound : Number) : Bool := bound.atMost finding.confidence

/-- The finding that a table describes. Names it does not know are passed over. -/
def ofEntries (entries : Entries Value) : Checked Finding :=
  ((entries.required "position" Position.ofValue).zip
    ((entries.required "text" Value.asText).zip
      ((entries.required "confidence" Value.asConfidence).zip
        ((entries.field "category" none Value.asOptionalText).zip
          (entries.field "link" none Value.asOptionalText))))).map
    fun (position, text, confidence, category, link) =>
      ⟨position, text, confidence, category, link⟩

/-- The finding that five values describe. The position is read first, and when it cannot be read
nothing is said about the rest. -/
def ofParts (file line column text confidence : Value) : Checked Finding := do
  let position ← Position.ofEntries [("file", file), ("line", line), ("column", column)]
  ((text.asText.under "text").zip (confidence.asConfidence.under "confidence")).map
    fun (text, confidence) => { position, text, confidence }

end Finding

end LintFront
