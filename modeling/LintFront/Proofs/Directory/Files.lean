import LintFront.Directory.Contents
import LintFront.Proofs.Distinct
import LintFront.Proofs.FileTree.Respelling
/-!
# The files of a directory

The unit of a directory holds the files that are eligible by their names and by what they are, told
apart in three sorts. Putting the three together again gives back all of them and nothing else, and
each is named by a path of its own.

## Main statements

`Directory.mem_files_iff`: which paths the unit of a directory names. `Directory.pathIn_inj`: a path
in a directory tells the directory and the name. `Directory.pathIn_split`: a path that is split is
put together again. `Directory.exists_read_pathIn`: the files of a unit can be read.
-/

namespace LintFront

/-! ## 1. Which names are eligible -/

/-- A file is a source file by its ending. -/
theorem role?_isSome_iff {name : String} :
    (role? name).isSome = true ↔
      Text.hasEnding name ".py" = true ∨ Text.hasEnding name ".pyi" = true := by
  have htest : isTestFile name = true → Text.hasEnding name ".py" = true := by
    intro h
    rw [isTestFile, Bool.or_eq_true, decide_eq_true_eq, Bool.and_eq_true] at h
    rcases h with rfl | h
    · decide
    · exact h.1
  unfold role?
  by_cases hstub : Text.hasEnding name ".pyi" = true
  · simp [hstub]
  · by_cases hsource : Text.hasEnding name ".py" = true
    · by_cases htestFile : isTestFile name = true <;> simp [hstub, hsource, htestFile]
    · have hnot : ¬isTestFile name = true := fun h => hsource (htest h)
      simp [hstub, hsource, hnot]

namespace Directory

variable {disk : Disk} {directory : String} {entries : Entries Node}

/-- Is `name` the name of a source file of the directory with these entries? Hidden files do not
count, and a link counts as what it leads to. -/
structure IsSource (disk : Disk) (directory : String) (entries : Entries Node) (name : String) :
    Prop where
  listed : name ∈ entries.names
  shown : name.startsWith "." = false
  ending : Text.hasEnding name ".py" = true ∨ Text.hasEnding name ".pyi" = true
  isFile : disk.isFile (Path.join directory name) = true

/-- An entry is a source file when its name says so and its path leads to a file. -/
theorem IsSource.of_node {name path : String} {content : ByteArray} (hlisted : name ∈ entries.names)
    (hshown : ¬".".toList <+: name.toList)
    (hending : Text.hasEnding name ".py" = true ∨ Text.hasEnding name ".pyi" = true)
    (hjoin : Path.join directory name = path) (h : disk.node path = .ok (.file content)) :
    IsSource disk directory entries name where
  listed := hlisted
  shown := String.startsWith_string_eq_false_iff.2 hshown
  ending := hending
  isFile := Disk.isFile_iff.2 ⟨content, hjoin ▸ h⟩

theorem mem_eligible {name : String} :
    name ∈ eligible disk directory entries ↔ IsSource disk directory entries name := by
  rw [eligible, List.mem_mergeSort, List.mem_filter, Bool.and_eq_true, Bool.and_eq_true,
    role?_isSome_iff, Bool.not_eq_true']
  constructor
  · rintro ⟨hlisted, ⟨hshown, hfile⟩, hending⟩
    exact ⟨hlisted, hshown, hending, hfile⟩
  · rintro ⟨hlisted, hshown, hending, hfile⟩
    exact ⟨hlisted, ⟨hshown, hfile⟩, hending⟩

theorem isEmpty_eligible_eq_false_iff :
    (eligible disk directory entries).isEmpty = false ↔
      ∃ name, IsSource disk directory entries name := by
  rw [List.isEmpty_eq_false_iff_exists_mem]
  exact exists_congr fun name => mem_eligible

/-- A directory without source files forms no unit. -/
theorem unit_of_isEmpty (h : disk.list directory = .ok entries)
    (hnone : (eligible disk directory entries).isEmpty = true) :
    unit disk directory = .error (.noUnit (.noSources directory)) := by
  rw [unit, h]
  exact if_pos hnone

/-- A directory with source files forms the unit of them. -/
theorem unit_of_not_isEmpty (h : disk.list directory = .ok entries)
    (hsome : (eligible disk directory entries).isEmpty = false) :
    unit disk directory =
      .ok (.ofNames directory (Path.baseName (Path.absolute disk.cwd directory))
        (eligible disk directory entries)) := by
  rw [unit, h]
  exact if_neg (by simp [hsome])

/-- Whether a directory that can be listed is visited hangs on its source files alone. -/
theorem isBuildable_of_list (h : disk.list directory = .ok entries) :
    isBuildable disk directory = .ok (!(eligible disk directory entries).isEmpty) := by
  by_cases hnone : (eligible disk directory entries).isEmpty = true
  · rw [isBuildable, unit_of_isEmpty h hnone, hnone]
    rfl
  · have hsome := Bool.eq_false_iff.2 hnone
    rw [isBuildable, unit_of_not_isEmpty h hsome, hsome]
    rfl

/-! ## 2. The paths of a unit -/

/-- The path of a name in a directory; in the working directory a bare name is a path. -/
def pathIn (directory name : String) : String :=
  if directory = "." then name else Path.join directory name

/-- The paths of a unit are those of its names. -/
theorem files_eq (unit : SourceUnit) : unit.files = unit.names.map (pathIn unit.directory) := by
  unfold SourceUnit.files
  by_cases h : unit.directory = "."
  · have hid : pathIn unit.directory = id := funext fun _ => if_pos h
    rw [if_pos h, hid, List.map_id]
  · have hjoin : pathIn unit.directory = Path.join unit.directory := funext fun _ => if_neg h
    rw [if_neg h, hjoin]

/-- The three sorts of files are together all files that are of any sort. -/
theorem mem_names_ofNames {label name : String} {names : List String}
    (hrole : ∀ name ∈ names, (role? name).isSome = true) :
    name ∈ (SourceUnit.ofNames directory label names).names ↔ name ∈ names := by
  rw [SourceUnit.names, List.mem_eraseDups, List.mem_append, List.mem_append]
  simp only [SourceUnit.ofNames, List.mem_filter, decide_eq_true_eq]
  constructor
  · rintro ((h | h) | h) <;> exact h.1
  · intro h
    obtain ⟨role, hname⟩ := Option.isSome_iff_exists.1 (hrole name h)
    cases role with
    | source => exact .inl (.inl ⟨h, hname⟩)
    | stub => exact .inl (.inr ⟨h, hname⟩)
    | test => exact .inr ⟨h, hname⟩

/-- The unit of a directory names the paths of its source files. -/
theorem mem_files_iff {label path : String} :
    path ∈ (SourceUnit.ofNames directory label (eligible disk directory entries)).files ↔
      ∃ name, IsSource disk directory entries name ∧ path = pathIn directory name := by
  have hrole : ∀ name ∈ eligible disk directory entries, (role? name).isSome = true :=
    fun name hname => role?_isSome_iff.2 (mem_eligible.1 hname).ending
  rw [files_eq, List.mem_map]
  constructor
  · rintro ⟨name, hname, rfl⟩
    exact ⟨name, mem_eligible.1 ((mem_names_ofNames hrole).1 hname), rfl⟩
  · rintro ⟨name, hname, rfl⟩
    exact ⟨name, (mem_names_ofNames hrole).2 (mem_eligible.2 hname), rfl⟩

/-! ## 3. A path tells its directory and its name -/

/-- Taken apart, a path in a directory is the directory and the name. -/
theorem parse_pathIn (directory : String) {name : String} (h : Path.IsComponent name) :
    Path.parse (pathIn directory name) = Path.parse (Path.join directory name) := by
  unfold pathIn
  split
  · rename_i hdot
    rw [hdot, Path.parse_join "." h, Path.parse_of_isComponent h]
    rfl
  · rfl

/-- A path in a directory tells the directory and the name. -/
theorem pathIn_inj {directory directory' name name' : String}
    (hdirectory : Path.tidy directory = directory) (hdirectory' : Path.tidy directory' = directory')
    (hname : Path.IsComponent name) (hname' : Path.IsComponent name')
    (h : pathIn directory name = pathIn directory' name') :
    directory = directory' ∧ name = name' := by
  have hparse := congrArg Path.parse h
  rw [parse_pathIn directory hname, parse_pathIn directory' hname', Path.parse_join directory hname,
    Path.parse_join directory' hname'] at hparse
  obtain ⟨hanchor, hnames⟩ := Path.mk.inj hparse
  obtain ⟨hinit, hlast⟩ := List.append_inj' hnames rfl
  have hsame : Path.parse directory = Path.parse directory' := by
    cases hp : Path.parse directory
    cases hp' : Path.parse directory'
    rw [hp, hp'] at hanchor hinit
    dsimp only at hanchor hinit
    rw [hanchor, hinit]
  refine ⟨?_, by simpa using hlast⟩
  rw [← hdirectory, ← hdirectory', Path.tidy, Path.tidy, hsame]

/-- A name right after the anchor is split from it, and put behind it again. -/
theorem pathIn_split_slashes_append {anchor : Nat} (hanchor : anchor ≤ 2) {name : String}
    (h : Path.IsComponent name) :
    pathIn (if (Path.split (Path.slashes anchor ++ name)).1 = "" then "."
        else (Path.split (Path.slashes anchor ++ name)).1)
      (Path.split (Path.slashes anchor ++ name)).2 = Path.slashes anchor ++ name := by
  rw [Path.split_slashes_append anchor h]
  dsimp only
  have hcases : anchor = 0 ∨ anchor = 1 ∨ anchor = 2 := by omega
  rcases hcases with rfl | hslashes
  -- Without slashes the directory is the working directory, in which a bare name is a path.
  · exact String.empty_append.symm
  · have hhead : Path.slashes anchor ≠ "" ∧ Path.slashes anchor ≠ "." ∧
        Text.hasEnding (Path.slashes anchor) "/" = true := by
      rcases hslashes with rfl | rfl <;> decide
    rw [if_neg hhead.1, pathIn, if_neg hhead.2.1, Path.join, if_neg h.not_isAbsolute,
      if_pos (.inr hhead.2.2)]

/-- The spelling of a path with at least two components is that of its directory, a slash and its
last component. -/
theorem text_concat {anchor : Nat} {init : List String} {name : String} (hinit : init ≠ [])
    (hends : Path.EndsInPiece (Path.text ⟨anchor, init⟩)) (h : Path.IsComponent name) :
    Path.text ⟨anchor, init ++ [name]⟩ = Path.join (Path.text ⟨anchor, init⟩) name := by
  rw [Path.join_of_endsInPiece hends h.not_isAbsolute, Path.text_of_names (by simp),
    Path.text_of_names hinit, String.intercalate_append_of_ne_nil hinit (by simp),
    String.intercalate_singleton]
  simp only [String.append_assoc]

/-- The parts of a shortest spelling are put together again where a unit is made of them. -/
theorem pathIn_split {s : String} (h : Path.tidy s = s) :
    pathIn (if (Path.split s).1 = "" then "." else (Path.split s).1) (Path.split s).2 = s := by
  have hwell := Path.wellSpelled_parse s
  rw [Path.tidy] at h
  generalize Path.parse s = p at h hwell
  obtain ⟨anchor, names⟩ := p
  have hanchor : anchor ≤ 2 := hwell.anchor_le
  rcases List.eq_nil_or_concat' names with rfl | ⟨init, name, rfl⟩
  · subst h
    have hcases : anchor = 0 ∨ anchor = 1 ∨ anchor = 2 := by omega
    rcases hcases with rfl | rfl | rfl <;> decide
  have hname : Path.IsComponent name := hwell.components name (by simp)
  by_cases hinit : init = []
  · have hspelled : s = Path.slashes anchor ++ name := by
      rw [← h, Path.text_of_names (by simp), hinit, List.nil_append, String.intercalate_singleton]
    rw [hspelled]
    exact pathIn_split_slashes_append hanchor hname
  · have hinits : Path.WellSpelled ⟨anchor, init⟩ :=
      ⟨hwell.anchor_le, fun n hn => hwell.components n (List.mem_append_left _ hn)⟩
    have hends : Path.EndsInPiece (Path.text ⟨anchor, init⟩) :=
      Path.endsInPiece_text hinits.components hinit
    have hdot : Path.text ⟨anchor, init⟩ ≠ "." := by
      intro hdot
      have hparse := Path.parse_text hinits
      rw [hdot] at hparse
      exact hinit (congrArg Path.names hparse).symm
    rw [← h, text_concat hinit hends hname, Path.split_join hends hname,
      if_neg (Path.endsInPiece_iff.1 hends).1, pathIn, if_neg hdot]

/-- The source files of a directory can be read. -/
theorem exists_read_pathIn {name : String} (hname : Path.IsComponent name)
    (h : disk.isFile (Path.join directory name) = true) :
    ∃ content, disk.read (pathIn directory name) = .ok content := by
  have htidy : Path.tidy (pathIn directory name) = Path.tidy (Path.join directory name) := by
    rw [Path.tidy, parse_pathIn directory hname, Path.tidy]
  obtain ⟨content, hnode⟩ := Disk.isFile_iff.1 h
  obtain ⟨place, hresolve, hplace⟩ := Disk.node_eq_ok_iff.1 hnode
  have hread := Disk.node_eq_ok_iff.2 ⟨place, Disk.resolve_tidy hresolve, hplace⟩
  exact ⟨content, Disk.read_eq_ok (htidy ▸ hread)⟩

end Directory

end LintFront
