import LintFront.Proofs.FileTree.Following
import LintFront.Proofs.Path.Spelling
import LintFront.Settings.Load
/-!
# What the files of a project hold

A project has two files with settings. Each holds a table, the empty one if there is no file and
none was asked for. A table is taken for a layer if it is not nested too deep, and otherwise it ends
the loading; so the layers that are loaded are the tables that the files hold, under this one
condition.

## Main statements

`Loaded.hasLayers_iff`: which tables are loaded as layers. `Loaded.load_of_isTooDeep`: what a table
does that is nested too deep.
-/

namespace LintFront

/-! ## 1. One file -/

namespace SettingsFile

variable {disk : Disk} {file : SettingsFile}

/-- The layer in the table of the file: the table itself, or the section of it that holds
settings. -/
def layerOf (file : SettingsFile) (entries : Entries Value) : Except LoadTrouble (Entries Value) :=
  if file.inSection then file.fromSection entries else .ok entries

/-- What can be read can be looked up. -/
theorem isPresent_of_read (htidy : Path.tidy file.path = file.path) {bytes : ByteArray}
    (h : disk.read file.path = .ok bytes) : file.isPresent disk = .ok true := by
  unfold Disk.read at h
  rw [htidy] at h
  unfold isPresent
  cases hnode : disk.node file.path with
  | ok node => rfl
  | error cause =>
    rw [hnode] at h
    cases h

/-- What is made of the table of a file. -/
def settle (file : SettingsFile) (entries : Entries Value) : Except LoadTrouble (Entries Value) :=
  (file.layerOf entries).bind fun layer =>
    if Layer.maxDepth < Layer.depth (.table layer) then .error (.fault .tablesTooDeep)
    else .ok layer

/-- A file that can be read is loaded from its bytes. -/
theorem load_of_read (htidy : Path.tidy file.path = file.path) {bytes : ByteArray}
    (h : disk.read file.path = .ok bytes) :
    file.load disk = (file.ofBytes bytes).bind file.settle := by
  rw [load, isPresent_of_read htidy h, h]
  show (file.ofBytes bytes).bind _ = _
  congr 1
  funext entries
  unfold settle layerOf
  cases file.inSection <;> rfl

/-- On the disk a file holds a table of settings: the one that its bytes describe, or the empty one
if there is no such file and none was asked for. -/
inductive Holds (disk : Disk) (file : SettingsFile) : Entries Value → Prop where
  | absent (missing : file.isPresent disk = .ok false) (optional : file.required = false) :
      Holds disk file []
  | present {bytes : ByteArray} {entries layer : Entries Value}
      (reading : disk.read file.path = .ok bytes) (parsing : file.ofBytes bytes = .ok entries)
      (layering : file.layerOf entries = .ok layer) : Holds disk file layer

/-- What a file holds is its layer, unless it is nested too deep. -/
theorem Holds.load_eq {layer : Entries Value}
    (h : file.Holds disk layer) (htidy : Path.tidy file.path = file.path) :
    file.load disk = if Layer.maxDepth < Layer.depth (.table layer)
      then .error (.fault .tablesTooDeep) else .ok layer := by
  -- A missing file counts as an empty table, and that is never nested too deep.
  cases h with
  | absent missing optional =>
    have hshallow : ¬ Layer.maxDepth < Layer.depth (.table []) := by decide
    rw [load, missing, if_neg hshallow]
    simp only [bind, Except.bind, optional, Bool.false_eq_true, if_false]
    rfl
  | present reading parsing layering =>
    rw [load_of_read htidy reading, parsing]
    show file.settle _ = _
    rw [settle, layering]
    rfl

/-- What is loaded is what the file holds. -/
theorem Holds.of_load {layer : Entries Value} (htidy : Path.tidy file.path = file.path)
    (h : file.load disk = .ok layer) : file.Holds disk layer := by
  cases hpresent : file.isPresent disk with
  | error trouble =>
    rw [load, hpresent] at h
    cases h
  | ok present =>
    cases hread : disk.read file.path with
    | ok bytes =>
      rw [load_of_read htidy hread] at h
      cases hentries : file.ofBytes bytes with
      | error trouble =>
        rw [hentries] at h
        cases h
      | ok entries =>
        rw [hentries, Except.bind, settle] at h
        cases hlayer : file.layerOf entries with
        | error trouble =>
          rw [hlayer] at h
          cases h
        | ok found =>
          rw [hlayer, Except.bind] at h
          split at h
          · cases h
          · obtain rfl := Except.ok.inj h
            exact .present hread hentries hlayer
    | error cause =>
      -- A file that cannot be read holds something only if there is none.
      rw [load, hpresent, hread] at h
      cases present with
      | true => cases h
      | false =>
        cases hrequired : file.required with
        | true =>
          rw [hrequired] at h
          cases h
        | false =>
          rw [hrequired] at h
          obtain rfl := Except.ok.inj h
          exact .absent hpresent hrequired

/-- A file is loaded as what it holds, unless that is nested too deep. -/
theorem load_eq_ok_iff {layer : Entries Value} (htidy : Path.tidy file.path = file.path) :
    file.load disk = .ok layer ↔
      file.Holds disk layer ∧ ¬ Layer.maxDepth < Layer.depth (.table layer) := by
  constructor
  · intro h
    have hholds : file.Holds disk layer := .of_load htidy h
    refine ⟨hholds, fun hdeep => ?_⟩
    rw [hholds.load_eq htidy, if_pos hdeep] at h
    cases h
  · rintro ⟨hholds, hshallow⟩
    rw [hholds.load_eq htidy, if_neg hshallow]

end SettingsFile

/-! ## 2. Two files -/

namespace Loaded

variable {disk : Disk} {root : String} {replacement : Option String}
  {manifest own : Entries Value}

theorem exists_files_eq (root : String) (replacement : Option String) :
    ∃ first second, files root replacement = [first, second] := ⟨_, _, rfl⟩

/-- The files go by their shortest spellings. -/
theorem tidy_path {file : SettingsFile} (h : file ∈ files root replacement) :
    Path.tidy file.path = file.path := by
  cases replacement <;>
  · simp only [files, List.mem_cons, List.not_mem_nil, or_false] at h
    rcases h with rfl | rfl <;> exact Path.tidy_tidy _

/-- The two files of a project hold these tables, the second of which is above the first. -/
def Holding (disk : Disk) (root : String) (replacement : Option String)
    (manifest own : Entries Value) : Prop :=
  List.Forall₂ (fun file layer => SettingsFile.Holds disk file layer)
    (files root replacement) [manifest, own]

/-- One of two tables is nested too deep. -/
def IsTooDeep (manifest own : Entries Value) : Prop :=
  Layer.maxDepth < Layer.depth (.table manifest) ∨ Layer.maxDepth < Layer.depth (.table own)

/-- On the disk the manifest of the project and its other file with settings hold these layers. -/
def HasLayers (disk : Disk) (root : String) (replacement : Option String)
    (manifest own : Entries Value) : Prop :=
  List.Forall₂ (fun file layer => SettingsFile.load disk file = .ok layer)
    (files root replacement) [manifest, own]

theorem exists_loads (h : Holding disk root replacement manifest own) :
    ∃ first second, files root replacement = [first, second] ∧
      first.load disk = (if Layer.maxDepth < Layer.depth (.table manifest)
        then .error (.fault .tablesTooDeep) else .ok manifest) ∧
      second.load disk = if Layer.maxDepth < Layer.depth (.table own)
        then .error (.fault .tablesTooDeep) else .ok own := by
  have htidy : ∀ file ∈ files root replacement, Path.tidy file.path = file.path :=
    fun file hfile => tidy_path hfile
  obtain ⟨first, second, hfiles⟩ := exists_files_eq root replacement
  rw [Holding, hfiles] at h
  obtain ⟨hfirst, hrest⟩ := List.forall₂_cons.1 h
  obtain ⟨hsecond, -⟩ := List.forall₂_cons.1 hrest
  exact ⟨first, second, hfiles, hfirst.load_eq (htidy first (by simp [hfiles])),
    hsecond.load_eq (htidy second (by simp [hfiles]))⟩

theorem load_of_isTooDeep (h : Holding disk root replacement manifest own)
    (hdeep : IsTooDeep manifest own) :
    load disk root replacement = .error (.fault .tablesTooDeep) := by
  obtain ⟨first, second, hfiles, hfirst, hsecond⟩ := exists_loads h
  rw [load, hfiles, List.mapM_cons, List.mapM_cons, hfirst, hsecond]
  -- The layers are loaded in order, and the first one that is too deep ends it.
  by_cases hmanifest : Layer.maxDepth < Layer.depth (.table manifest)
  · rw [if_pos hmanifest]
    rfl
  · rw [if_neg hmanifest, if_pos (hdeep.resolve_left hmanifest)]
    rfl

/-- The tables that the files hold are loaded as layers unless one of them is nested too deep. -/
theorem hasLayers_iff :
    HasLayers disk root replacement manifest own ↔
      Holding disk root replacement manifest own ∧ ¬ IsTooDeep manifest own := by
  have htidy : ∀ file ∈ files root replacement, Path.tidy file.path = file.path :=
    fun file hfile => tidy_path hfile
  obtain ⟨first, second, hfiles⟩ := exists_files_eq root replacement
  have hfirst : first.load disk = .ok manifest ↔ _ :=
    SettingsFile.load_eq_ok_iff (htidy first (by simp [hfiles]))
  have hsecond : second.load disk = .ok own ↔ _ :=
    SettingsFile.load_eq_ok_iff (htidy second (by simp [hfiles]))
  rw [HasLayers, Holding, IsTooDeep, hfiles, List.forall₂_cons, List.forall₂_cons,
    List.forall₂_cons, List.forall₂_cons, hfirst, hsecond, not_or]
  constructor
  · rintro ⟨⟨hmanifest, hshallow⟩, ⟨hown, hshallow'⟩, hnil⟩
    exact ⟨⟨hmanifest, hown, .nil⟩, hshallow, hshallow'⟩
  · rintro ⟨⟨hmanifest, hown, hnil⟩, hshallow, hshallow'⟩
    exact ⟨⟨hmanifest, hshallow⟩, ⟨hown, hshallow'⟩, .nil⟩

end Loaded

end LintFront
