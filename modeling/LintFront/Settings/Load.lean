import LintFront.FileTree.Disk
import LintFront.Settings.Basic
import LintFront.Settings.Merge
import LintFront.Text.Utf8
import LintFront.Toml.Reader
/-!
# Loading settings

Two files may hold settings: the project's manifest, in one section of it, and a file for settings
alone, which the user may replace by another one. A file that does not exist is an empty layer,
unless the user asked for it by name. The layers are merged, the file over the manifest, and only
the result is read, so a bad value that a later layer replaces does no harm.

What the user can mend is a `SettingsError`. Some things are not about the settings but about the
file as such: bytes that are no text, a name that no disk can hold, and numbers or nestings beyond
what is read at all. They are `LoadFault`s.
-/

namespace LintFront

/-- Why there are no settings (`ConfigError`). -/
inductive SettingsError where
  /-- The file is no document; the text says where and why. -/
  | malformed (path defect : String)
  | unreadable (path : String) (cause : AccessError)
  /-- A file that was asked for by name does not exist. -/
  | absent (path : String)
  /-- The section of the manifest is no table. -/
  | sectionNotTable (path : String)
  | invalid (complaints : List Complaint)
  deriving DecidableEq, Repr

/-- What ends the loading of settings and is not about the settings. -/
inductive LoadFault where
  | undecodable (defect : Text.Utf8.Defect)
  | nameTooLong (path : String)
  /-- A whole number in a document has more digits than are read. -/
  | tooManyDigits (count : Nat)
  /-- The values of a document are nested too deep. -/
  | valuesTooDeep
  /-- The tables of a layer are nested too deep, however they are written. -/
  | tablesTooDeep
  deriving DecidableEq, Repr

/-- What can go wrong while settings are loaded. -/
inductive LoadTrouble where
  | error (error : SettingsError)
  | fault (fault : LoadFault)
  deriving DecidableEq, Repr

namespace SettingsError

/-- A complaint with its place (`_format_validation_error`); the whole is called the root. -/
def complaintText (complaint : Complaint) : String :=
  (if complaint.place = "" then "<root>" else complaint.place) ++ ": " ++ complaint.kind.message

/-- The wording of a reason. -/
def message : SettingsError → String
  | malformed path defect => "Invalid TOML in " ++ path ++ ": " ++ defect
  | unreadable path cause => "Cannot read " ++ path ++ ": " ++ cause.reason
  | absent path => "Configuration file " ++ path ++ " does not exist"
  | sectionNotTable path => "[tool.unitlint] in " ++ path ++ " must be a table"
  | invalid complaints =>
    "Invalid configuration: " ++ "; ".intercalate (complaints.map complaintText)

end SettingsError

namespace LoadFault

/-- The wording of a fault. -/
def message : LoadFault → String
  | undecodable defect => defect.message
  | nameTooLong path =>
    "[Errno 36] " ++ AccessError.nameTooLong.reason ++ ": " ++ Text.quote path
  | tooManyDigits count => (Toml.Cause.tooManyDigits count).message
  | valuesTooDeep => Toml.Cause.tooDeep.message
  | tablesTooDeep => "maximum recursion depth exceeded in comparison"

end LoadFault

/-- A file that may hold a layer of settings (`TomlConfigSource`). -/
structure SettingsFile where
  /-- The tidied path, which also names the file to the user. -/
  path : String
  /-- Did the user ask for this file? -/
  required : Bool := false
  /-- Are the settings in a section of the file? -/
  inSection : Bool := false
  deriving DecidableEq, Repr

namespace SettingsFile

/-- Does the file exist? A path that leads nowhere names no file, but a name that is too long is a
fault. -/
def isPresent (disk : Disk) (file : SettingsFile) : Except LoadTrouble Bool :=
  match disk.node file.path with
  | .ok _ => .ok true
  | .error .nameTooLong => .error (.fault (.nameTooLong file.path))
  | .error _ => .ok false

/-- The table that the bytes of a file describe. -/
def ofBytes (file : SettingsFile) (bytes : ByteArray) : Except LoadTrouble (Entries Value) :=
  match Text.Utf8.decode bytes.toList with
  | .error defect => .error (.fault (.undecodable defect))
  | .ok document =>
    match Toml.read document with
    | .ok entries => .ok entries
    | .error (.tooManyDigits count, _) => .error (.fault (.tooManyDigits count))
    | .error (.tooDeep, _) => .error (.fault .valuesTooDeep)
    | .error (_, defect) => .error (.error (.malformed file.path defect))

/-- The settings in the section of a manifest, none when there is no section
(`PyProjectConfigSource.load`). -/
def fromSection (file : SettingsFile) (entries : Entries Value) :
    Except LoadTrouble (Entries Value) :=
  match (entries.find? "tool").bind Value.table? with
  | none => .ok []
  | some tools =>
    match tools.find? "unitlint" with
    | none => .ok []
    | some (.table section_) => .ok section_
    | some _ => .error (.error (.sectionNotTable file.path))

/-- The layer in a file (`TomlConfigSource.load`). -/
def load (disk : Disk) (file : SettingsFile) : Except LoadTrouble (Entries Value) := do
  if ← file.isPresent disk then
    match disk.read file.path with
    | .error cause => .error (.error (.unreadable file.path cause))
    | .ok bytes =>
      let entries ← file.ofBytes bytes
      let layer ← if file.inSection then file.fromSection entries else pure entries
      if Layer.maxDepth < Layer.depth (.table layer) then .error (.fault .tablesTooDeep)
      else return layer
  else if file.required then .error (.error (.absent file.path))
  else return []

end SettingsFile

/-- Settings and the names of the layers that had a part in them (`ConfigLoadResult`). -/
structure Loaded where
  settings : Settings
  applied : List String

namespace Loaded

/-- The settings of layers with their names, the first layer lowest. An empty layer has no part. -/
def ofLayers (layers : List (String × Entries Value)) : Except SettingsError Loaded :=
  let speaking := layers.filter fun layer => !layer.2.isEmpty
  match Settings.ofEntries (Layer.merged (speaking.map fun layer => Layer.normalized layer.2)) with
  | .ok settings => .ok ⟨settings, speaking.map (·.1)⟩
  | .error complaints => .error (.invalid complaints)

/-- The layer of a source with its name, unless its tables are nested too deep. -/
def layerFrom (source : String × Except LoadTrouble (Entries Value)) :
    Except LoadTrouble (String × Entries Value) := do
  let layer ← source.2
  if Layer.maxDepth < Layer.depth (.table layer) then .error (.fault .tablesTooDeep)
  else return (source.1, layer)

/-- The settings of sources with their names, whatever gives their layers
(`ConfigLoader.load_with_trace`); the first source is the lowest. -/
def ofSources (sources : List (String × Except LoadTrouble (Entries Value))) :
    Except LoadTrouble Loaded := do
  let layers ← sources.mapM layerFrom
  (ofLayers layers).mapError .error

/-- The files that may hold the settings of the project in the directory `root`
(`ConfigLoader.for_root`). -/
def files (root : String) (replacement : Option String) : List SettingsFile :=
  let manifest : SettingsFile :=
    { path := Path.tidy (Path.join root "pyproject.toml"), inSection := true }
  let own : SettingsFile := match replacement with
    | some path => { path := Path.tidy path, required := true }
    | none => { path := Path.tidy (Path.join root ".unitlint.toml") }
  [manifest, own]

/-- The settings of the project in the directory `root` (`load_config`). A `replacement` is read
instead of the project's own file. -/
def load (disk : Disk) (root : String) (replacement : Option String) :
    Except LoadTrouble Loaded := do
  let layers ← (files root replacement).mapM fun file => return (file.path, ← file.load disk)
  match ofLayers layers with
  | .ok loaded => .ok loaded
  | .error e => .error (.error e)

end Loaded

end LintFront
