import LintFront.Proofs.CommandLine.Stages
import LintFront.Proofs.Package.Search
import LintFront.Proofs.Settings.Project
import LintFront.Proofs.Text.Utf8
/-!
# What ends the loading of settings

Whatever is wrong with settings is meant to be told to the user as such: a document that is no
document, a file that cannot be opened, a value that is none. This holds of all that is found out by
reading the settings. It does not hold of what is found out on the way there. A name may be too long
to be looked up at all, bytes may be the encoding of no text, a whole number may have more digits
than are read, and values and tables may be nested deeper than the reader goes. Each of these ends
the command as a fault, without an exit status.

## Main statements

`Command.loading_faults_iff`: which files end the loading of settings, and the command with it.
`Loaded.load_undecodable`: a file of one byte that does.
-/

namespace LintFront

/-! ## 1. One file -/

namespace SettingsFile

variable {disk : Disk} {file : SettingsFile}

/-- What about a file ends the loading of settings. -/
inductive Defeats (disk : Disk) (file : SettingsFile) : LoadFault → Prop where
  /-- The name cannot be looked up. -/
  | nameTooLong (looking : disk.node file.path = .error .nameTooLong) :
      Defeats disk file (.nameTooLong file.path)
  /-- The bytes are the encoding of no text. -/
  | undecodable (bytes : ByteArray) (defect : Text.Utf8.Defect)
      (reading : disk.read file.path = .ok bytes) (nothing : ∀ text : String, bytes ≠ text.toUTF8)
      (decoding : Text.Utf8.decode bytes.toList = .error defect) :
      Defeats disk file (.undecodable defect)
  /-- A whole number has too many digits. -/
  | tooManyDigits (text message : String) (count : Nat)
      (reading : disk.read file.path = .ok text.toUTF8)
      (parsing : Toml.read text = .error (.tooManyDigits count, message)) :
      Defeats disk file (.tooManyDigits count)
  /-- The values are nested deeper than they are read. -/
  | valuesTooDeep (text message : String) (reading : disk.read file.path = .ok text.toUTF8)
      (parsing : Toml.read text = .error (.tooDeep, message)) :
      Defeats disk file .valuesTooDeep
  /-- The tables are nested deeper than they are merged. -/
  | tablesTooDeep (text : String) (entries layer : Entries Value)
      (reading : disk.read file.path = .ok text.toUTF8) (parsing : Toml.read text = .ok entries)
      (layering : file.layerOf entries = .ok layer)
      (depth : Layer.maxDepth < Layer.depth (.table layer)) :
      Defeats disk file .tablesTooDeep

/-- Of a table only the depth ends the loading; a section that is no table is told to the user. -/
theorem settle_eq_fault_iff {entries : Entries Value} {fault : LoadFault} :
    file.settle entries = .error (.fault fault) ↔
      ∃ layer, file.layerOf entries = .ok layer ∧ Layer.maxDepth < Layer.depth (.table layer) ∧
        fault = .tablesTooDeep := by
  -- To pick the section of a manifest may fail, but only in a way that is told to the user.
  have hlayerOf : file.layerOf entries ≠ .error (.fault fault) := by
    intro h
    unfold layerOf fromSection at h
    split at h
    · split at h
      · cases h
      · split at h <;> cases h
    · cases h
  unfold settle
  cases hlayer : file.layerOf entries with
  | error trouble =>
    have hne : trouble ≠ .fault fault := fun heq => hlayerOf (heq ▸ hlayer)
    simp [Except.bind, hne]
  | ok layer =>
    by_cases hdepth : Layer.maxDepth < Layer.depth (.table layer)
    · simp [Except.bind, hdepth, eq_comm]
    · simp [Except.bind, hdepth]

/-- Bytes end the loading when they do not decode, or when not all numbers and values of the text
are read. -/
theorem ofBytes_eq_fault_iff {bytes : ByteArray} {fault : LoadFault} :
    file.ofBytes bytes = .error (.fault fault) ↔
      (∃ defect, Text.Utf8.decode bytes.toList = .error defect ∧ fault = .undecodable defect) ∨
      (∃ text count message, Text.Utf8.decode bytes.toList = .ok text ∧
        Toml.read text = .error (.tooManyDigits count, message) ∧ fault = .tooManyDigits count) ∨
      ∃ text message, Text.Utf8.decode bytes.toList = .ok text ∧
        Toml.read text = .error (.tooDeep, message) ∧ fault = .valuesTooDeep := by
  unfold ofBytes
  cases Text.Utf8.decode bytes.toList with
  | error defect => simp [eq_comm]
  | ok text =>
    cases hread : Toml.read text with
    | ok entries => simp [hread]
    | error cause =>
      obtain ⟨cause, message⟩ := cause
      cases cause <;> simp [hread, eq_comm]

/-- Bytes describe a table when they are the encoding of a document that does. -/
theorem ofBytes_eq_ok_iff {bytes : ByteArray} {entries : Entries Value} :
    file.ofBytes bytes = .ok entries ↔
      ∃ text, Text.Utf8.decode bytes.toList = .ok text ∧ Toml.read text = .ok entries := by
  unfold ofBytes
  cases Text.Utf8.decode bytes.toList with
  | error defect => simp
  | ok text =>
    cases hread : Toml.read text with
    | ok entries => simp [hread]
    | error cause =>
      obtain ⟨cause, message⟩ := cause
      cases cause <;> simp [hread]

/-- A file that cannot be read is passed over or told to the user, unless its name cannot even be
looked up. -/
theorem node_of_unreadable {cause : AccessError} {fault : LoadFault}
    (hread : disk.read file.path = .error cause) (h : file.load disk = .error (.fault fault)) :
    disk.node file.path = .error .nameTooLong ∧ fault = .nameTooLong file.path := by
  unfold load isPresent at h
  cases hnode : disk.node file.path with
  | ok node =>
    rw [hnode, hread] at h
    cases h
  | error reason =>
    rw [hnode] at h
    by_cases hlong : reason = .nameTooLong
    · subst hlong
      obtain rfl : LoadFault.nameTooLong file.path = fault := by
        simpa [bind, Except.bind] using h
      exact ⟨rfl, rfl⟩
    -- Any other reason means that there is no file, which is an error only if it was asked for.
    · cases hrequired : file.required <;> cases reason <;>
        simp [bind, Except.bind, pure, Except.pure, hrequired] at h hlong

/-- Bytes end the loading by one of the things named. -/
theorem defeats_of_ofBytes {bytes : ByteArray} {fault : LoadFault}
    (hread : disk.read file.path = .ok bytes) (h : file.ofBytes bytes = .error (.fault fault)) :
    file.Defeats disk fault := by
  rcases ofBytes_eq_fault_iff.1 h with ⟨defect, hdecode, rfl⟩ |
    ⟨text, count, message, hdecode, hparse, rfl⟩ | ⟨text, message, hdecode, hparse, rfl⟩
  · have hnothing := Text.Utf8.exists_decode_eq_error_iff.1 ⟨defect, hdecode⟩
    exact .undecodable bytes defect hread hnothing hdecode
  · obtain rfl := Text.Utf8.decode_toList_eq_ok_iff.1 hdecode
    exact .tooManyDigits text message count hread hparse
  · obtain rfl := Text.Utf8.decode_toList_eq_ok_iff.1 hdecode
    exact .valuesTooDeep text message hread hparse

/-- Each of the things named ends the loading. -/
theorem Defeats.load_eq (htidy : Path.tidy file.path = file.path) {fault : LoadFault}
    (h : file.Defeats disk fault) : file.load disk = .error (.fault fault) := by
  cases h with
  | nameTooLong looking =>
    rw [load, isPresent, looking]
    rfl
  | undecodable bytes defect reading nothing decoding =>
    rw [load_of_read htidy reading, ofBytes_eq_fault_iff.2 (.inl ⟨defect, decoding, rfl⟩)]
    rfl
  | tooManyDigits text message count reading parsing =>
    have hdecode := Text.Utf8.decode_toList_eq_ok_iff.2 (rfl : text.toUTF8 = _)
    rw [load_of_read htidy reading,
      ofBytes_eq_fault_iff.2 (.inr (.inl ⟨text, count, message, hdecode, parsing, rfl⟩))]
    rfl
  | valuesTooDeep text message reading parsing =>
    have hdecode := Text.Utf8.decode_toList_eq_ok_iff.2 (rfl : text.toUTF8 = _)
    rw [load_of_read htidy reading,
      ofBytes_eq_fault_iff.2 (.inr (.inr ⟨text, message, hdecode, parsing, rfl⟩))]
    rfl
  | tablesTooDeep text entries layer reading parsing layering depth =>
    have hdecode := Text.Utf8.decode_toList_eq_ok_iff.2 (rfl : text.toUTF8 = _)
    rw [load_of_read htidy reading, ofBytes_eq_ok_iff.2 ⟨text, hdecode, parsing⟩]
    exact settle_eq_fault_iff.2 ⟨layer, layering, depth, rfl⟩

/-- A file ends the loading by one of the things named, and by nothing else. -/
theorem load_eq_fault_iff (htidy : Path.tidy file.path = file.path) {fault : LoadFault} :
    file.load disk = .error (.fault fault) ↔ file.Defeats disk fault := by
  refine ⟨fun h => ?_, Defeats.load_eq htidy⟩
  -- The loading goes from the path to the bytes, from these to a table, and from it to a layer, and
  -- may end at each step.
  cases hread : disk.read file.path with
  | error cause =>
    obtain ⟨hnode, rfl⟩ := node_of_unreadable hread h
    exact .nameTooLong hnode
  | ok bytes =>
    rw [load_of_read htidy hread] at h
    cases hbytes : file.ofBytes bytes with
    | error trouble =>
      obtain rfl : trouble = .fault fault := by
        rw [hbytes] at h
        exact Except.error.inj h
      exact defeats_of_ofBytes hread hbytes
    | ok entries =>
      rw [hbytes] at h
      obtain ⟨layer, hlayer, hdepth, rfl⟩ := settle_eq_fault_iff.1 h
      obtain ⟨text, hdecode, hparse⟩ := ofBytes_eq_ok_iff.1 hbytes
      obtain rfl := Text.Utf8.decode_toList_eq_ok_iff.1 hdecode
      exact .tablesTooDeep text entries layer hread hparse hlayer hdepth

end SettingsFile

/-! ## 2. All files of a project -/

namespace Loaded

/-- One of the files of a project ends the loading, and those before it are layers. -/
def Defeated (disk : Disk) (root : String) (replacement : Option String) (fault : LoadFault) :
    Prop :=
  ∃ before file after, files root replacement = before ++ file :: after ∧
    file.Defeats disk fault ∧ ∀ earlier ∈ before, ∃ layer, earlier.load disk = .ok layer

variable {disk : Disk} {root : String} {replacement : Option String}

/-- Files are loaded one after the other, up to the first that is no layer. -/
theorem mapM_load_eq_error_iff {sources : List SettingsFile} {trouble : LoadTrouble} :
    (sources.mapM fun file => return (file.path, ← file.load disk)) =
        (.error trouble : Except LoadTrouble (List (String × Entries Value))) ↔
      ∃ before file after, sources = before ++ file :: after ∧
        file.load disk = .error trouble ∧
        ∀ earlier ∈ before, ∃ layer, earlier.load disk = .ok layer := by
  induction sources with
  | nil => simp [pure, Except.pure]
  | cons file rest ih =>
    rw [Package.exists_first_cons_iff, ← ih, List.mapM_cons]
    cases hload : file.load disk with
    | error cause => simp [bind, Except.bind]
    | ok layer =>
      cases hrest : rest.mapM fun file => return (file.path, ← file.load disk) with
      | error cause => simp [bind, Except.bind, pure, Except.pure]
      | ok layers => simp [bind, Except.bind, pure, Except.pure]

theorem load_eq_fault_iff {fault : LoadFault} :
    load disk root replacement = .error (.fault fault) ↔ Defeated disk root replacement fault := by
  have htidy : ∀ file ∈ files root replacement, Path.tidy file.path = file.path :=
    fun file hfile => tidy_path hfile
  have hlayers : load disk root replacement = .error (.fault fault) ↔
      ((files root replacement).mapM fun file => return (file.path, ← file.load disk)) =
        (.error (.fault fault) : Except LoadTrouble (List (String × Entries Value))) := by
    unfold load
    cases hall : (files root replacement).mapM fun file => return (file.path, ← file.load disk) with
    | error trouble => simp [bind, Except.bind]
    | ok layers =>
      -- What is made of the layers is settings, or an error that is told to the user.
      cases hmade : ofLayers layers <;> simp [bind, Except.bind, hmade]
  rw [hlayers, mapM_load_eq_error_iff, Defeated]
  constructor
  · rintro ⟨before, file, after, hfiles, hload, hbefore⟩
    have hfile : file ∈ files root replacement := by simp [hfiles]
    exact ⟨before, file, after, hfiles,
      (SettingsFile.load_eq_fault_iff (htidy file hfile)).1 hload, hbefore⟩
  · rintro ⟨before, file, after, hfiles, hdefeats, hbefore⟩
    have hfile : file ∈ files root replacement := by simp [hfiles]
    exact ⟨before, file, after, hfiles,
      (SettingsFile.load_eq_fault_iff (htidy file hfile)).2 hdefeats, hbefore⟩

end Loaded

/-! ## 3. The command -/

namespace Command

/-- A command ends by a fault of the loading exactly when its settings do. -/
theorem status_eq_loading_iff {host : Host} {invocation : Invocation} {fault : LoadFault} :
    (perform host invocation).status = .error (.loading fault) ↔
      Loaded.load host.disk host.disk.cwd invocation.config = .error (.fault fault) := by
  obtain ⟨ending, journal, hrun, hcourse⟩ := Stage.exists_course host invocation
  unfold perform
  rw [hrun]
  -- The first of the stages is the loading, and every other course has it behind it.
  cases hcourse with
  | settings error loading => simp [loading]
  | loading cause loading => simp [loading]
  | analyzer loaded name available opened loading => simp [loading]
  | fault loaded cause later loading other => simp [loading, other]
  | targets loaded error opened loading => simp [loading]
  | ended loaded engine opened later prepared => simp [prepared.loading]

/-- The loading of settings ends by a fault exactly when one of the two files that are loaded brings
it about, by a name that is too long, bytes that are no text, a number of too many digits, or values
or tables that are nested too deep. Everything else is settings or an error that is told to the
user. The command that loads them ends by the same faults, without an exit status. -/
theorem loading_faults_iff (host : Host) (invocation : Invocation) (root : String)
    (fault : LoadFault) :
    (Loaded.load host.disk root invocation.config = .error (.fault fault) ↔
      Loaded.Defeated host.disk root invocation.config fault) ∧
    ((perform host invocation).status = .error (.loading fault) ↔
      Loaded.Defeated host.disk host.disk.cwd invocation.config fault) :=
  ⟨Loaded.load_eq_fault_iff, status_eq_loading_iff.trans Loaded.load_eq_fault_iff⟩

end Command

/-! ## 4. A project with one file -/

namespace Loaded

/-- A project with a file for settings alone, which holds the bytes, and without a manifest. -/
def ofOwn (bytes : ByteArray) : Disk where
  root := .directory [(".unitlint.toml", .file bytes)]
  here := []

theorem files_dot : files "." none =
    [{ path := "pyproject.toml", inSection := true }, { path := ".unitlint.toml" }] := by
  have hjoin : ∀ name, Path.IsComponent name →
      Path.tidy (Path.join "." name) = (Path.mk 0 [name]).text := by
    intro name hname
    rw [Path.tidy, Path.parse_join "." hname]
    rfl
  rw [files, hjoin _ ⟨by decide, by decide⟩, hjoin _ ⟨by decide, by decide⟩]
  decide

theorem isPresent_ofOwn (bytes : ByteArray) :
    SettingsFile.isPresent (ofOwn bytes) { path := "pyproject.toml", inSection := true } =
      .ok false := by
  have hmissing : (ofOwn bytes).node "pyproject.toml" = .error .missing :=
    Disk.node_of_spellsOut_of_find?_eq_none rfl
      (show Disk.SpellsOut _ ([] ++ "pyproject.toml" :: []) by decide) rfl (if_neg (by decide))
  rw [SettingsFile.isPresent, hmissing]

theorem read_ofOwn (bytes : ByteArray) : (ofOwn bytes).read ".unitlint.toml" = .ok bytes := by
  have htidy : Path.tidy ".unitlint.toml" = ".unitlint.toml" := by decide
  have hnode : (ofOwn bytes).node ".unitlint.toml" = .ok (.file bytes) :=
    Disk.node_of_spellsOut rfl (show Disk.SpellsOut _ [".unitlint.toml"] by decide) rfl
      (Node.file_ne_link _)
  exact Disk.read_eq_ok (htidy.symm ▸ hnode)

/-- A project with a file for settings that holds one byte, with which no character starts. -/
def oneByte : Disk where
  root := .directory [(".unitlint.toml", .file ⟨#[0xff]⟩)]
  here := []

/-- The file is neither settings nor an error that is told to the user. -/
theorem load_undecodable :
    load oneByte "." none = .error (.fault (.undecodable ⟨0, 1, 0xff, .startByte⟩)) := by
  have hfirst : SettingsFile.load oneByte { path := "pyproject.toml", inSection := true } =
      .ok [] := by
    rw [SettingsFile.load, show oneByte = ofOwn ⟨#[0xff]⟩ from rfl, isPresent_ofOwn]
    rfl
  have hread : oneByte.read ".unitlint.toml" = .ok ⟨#[0xff]⟩ := read_ofOwn _
  have hdecode : Text.Utf8.decode (ByteArray.toList ⟨#[0xff]⟩) =
      .error ⟨0, 1, 0xff, .startByte⟩ := by
    rw [Text.Utf8.toList_eq_data, Text.Utf8.decode, Text.Utf8.decodeFrom]
    rfl
  have hsecond : SettingsFile.load oneByte { path := ".unitlint.toml" } =
      .error (.fault (.undecodable ⟨0, 1, 0xff, .startByte⟩)) := by
    have hnothing := Text.Utf8.exists_decode_eq_error_iff.1 ⟨_, hdecode⟩
    exact (SettingsFile.load_eq_fault_iff (by decide)).2 (.undecodable _ _ hread hnothing hdecode)
  rw [load, files_dot, List.mapM_cons, List.mapM_cons, hfirst, hsecond]
  rfl

end Loaded

end LintFront
