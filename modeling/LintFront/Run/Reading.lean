import LintFront.SourceUnit
import LintFront.Engine.Basic
/-!
# Reading the files of a unit

Files are read one after the other, and one that cannot be read does not keep the others from being
read. What was read is kept in the order of the paths, and so are the failures. A path that was read
is not read again.
-/

namespace LintFront

/-- Files that were read, and paths that could not be read (`ReadResult`). -/
structure Reading where
  sources : Sources := []
  failures : List (String × AccessError) := []

namespace Reading

/-- The report of a path that could not be read (`ReadFailure.describe`). -/
def describe (failure : String × AccessError) : String :=
  "open " ++ failure.1 ++ ": " ++ failure.2.reason

/-- Was the path read? -/
def has (reading : Reading) (path : String) : Bool := reading.sources.any fun f => f.1 = path

/-- Reads one more path. -/
def readNext (disk : Disk) (reading : Reading) (path : String) : Except Fault Reading :=
  if reading.has path then .ok reading
  else
    match disk.read path with
    | .ok content => .ok { reading with sources := reading.sources ++ [(path, content)] }
    | .error .embeddedNull => .error .embeddedNull
    | .error cause => .ok { reading with failures := reading.failures ++ [(path, cause)] }

/-- Reads paths after those of `reading`. -/
def readAll (disk : Disk) (reading : Reading) : List String → Except Fault Reading
  | [] => .ok reading
  | path :: rest =>
    match readNext disk reading path with
    | .ok reading => readAll disk reading rest
    | .error fault => .error fault

/-- Reads the paths of a unit (`read_sources`). -/
def ofPaths (disk : Disk) (paths : List String) : Except Fault Reading := readAll disk {} paths

/-- Reading one list after another is reading their concatenation. -/
theorem readAll_append (disk : Disk) (reading : Reading) (a b : List String) :
    readAll disk reading (a ++ b) =
      (readAll disk reading a).bind fun reading => readAll disk reading b := by
  induction a generalizing reading with
  | nil => rfl
  | cons path a ih =>
    simp only [List.cons_append, readAll]
    cases readNext disk reading path with
    | ok next => exact ih next
    | error fault => rfl

end Reading

end LintFront
