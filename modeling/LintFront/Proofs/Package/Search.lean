import LintFront.Package.Search
import LintFront.Proofs.FileTree.Archive
/-!
# Looking up one identifier

The places on a search are gone through in order. A place settles the search when it holds a package
or a module of the name; whatever lies after it does not count. A place that does not settle it adds
at most a portion, and a place whose spelling holds a null character ends the run, once the search
gets there, unless it leads into an archive.

## Main statements

`Package.lookUp_eq_error_iff`: which searches end the run. `Package.lookUp_eq_portions_iff`: which
searches find nothing but portions. `Package.metIn_of_lookUp`: what is found stands in the places.
-/

namespace LintFront.Package

variable {disk : Disk} {name place : String}

/-! ## 1. What looks an identifier up -/

theorem anchored_of_head (h : place.toList.head? = some '/') : anchored disk place = place := by
  have hne : ¬(place = "" ∨ place = ".") := by
    rintro (rfl | rfl) <;> cases h
  rw [anchored, if_neg hne, if_pos (Path.isAbsolute_iff.2 h)]

theorem entry_of_head (h : place.toList.head? = some '/') : entry disk place = place := by
  rw [entry, if_neg]
  rintro rfl
  cases h

/-- The spellings of the module files that may stand for `name` in a place. -/
def moduleFiles (place name : String) : List String :=
  moduleSuffixes.map fun suffix => inside place (name ++ suffix)

namespace Finder

theorem place_ofDirectory (disk : Disk) (place : String) :
    (ofDirectory disk place).place = anchored disk place := rfl

theorem place_ofArchive (archive : Archive) : (ofArchive archive).place = archive.place := rfl

theorem isFile_ofDirectory (disk : Disk) (place : String) :
    (ofDirectory disk place).isFile = disk.isFile := rfl

theorem isDirectory_ofDirectory (disk : Disk) (place : String) :
    (ofDirectory disk place).isDirectory = disk.isDirectory := rfl

theorem suffixes_ofArchive (archive : Archive) :
    (ofArchive archive).suffixes = memberSuffixes := rfl

theorem suffixes_ofDirectory (disk : Disk) (place : String) :
    (ofDirectory disk place).suffixes = moduleSuffixes := rfl

variable {finder : Finder}

/-- Does `name` stand for a package or module? There is then a directory of that name with an
initial file, or a file of that name with a module suffix. -/
def Settles (finder : Finder) (name : String) : Prop :=
  ∃ suffix ∈ finder.suffixes,
    finder.isFile (inside (inside finder.place name) ("__init__" ++ suffix)) = true ∨
      finder.isFile (inside finder.place (name ++ suffix)) = true

/-- Is there a directory of the name? -/
def HoldsDirectory (finder : Finder) (name : String) : Prop :=
  finder.isDirectory (inside finder.place name) = true

instance (finder : Finder) (name : String) : Decidable (finder.HoldsDirectory name) :=
  inferInstanceAs (Decidable (_ = true))

/-- Does the place hold an initial file of the package `name`? -/
def hasInitialFile (finder : Finder) (name : String) : Bool :=
  finder.suffixes.any fun suffix =>
    finder.isFile (inside (inside finder.place name) ("__init__" ++ suffix))

/-- The spellings of the module files that may stand for `name`. -/
def moduleFiles (finder : Finder) (name : String) : List String :=
  finder.suffixes.map fun suffix => inside finder.place (name ++ suffix)

theorem probe_eq (finder : Finder) (name : String) :
    finder.probe name =
      if finder.hasInitialFile name then .package (inside finder.place name)
      else match (finder.moduleFiles name).find? finder.isFile with
        | some origin => .module origin
        | none => if finder.HoldsDirectory name then .portion (inside finder.place name)
          else .nothing := by
  unfold probe hasInitialFile moduleFiles HoldsDirectory
  cases (finder.suffixes.map fun suffix => inside finder.place (name ++ suffix)).find?
    finder.isFile <;> rfl

/-- A place with the initial file of a package holds the package, whatever else it holds. -/
theorem probe_of_hasInitialFile (h : finder.hasInitialFile name = true) :
    finder.probe name = .package (inside finder.place name) := by
  rw [probe_eq, if_pos h]

theorem settles_iff : finder.Settles name ↔ finder.hasInitialFile name = true ∨
    ∃ origin ∈ finder.moduleFiles name, finder.isFile origin = true := by
  rw [Settles, hasInitialFile, List.any_eq_true]
  constructor
  · rintro ⟨suffix, hsuffix, hinitial | hmember⟩
    · exact .inl ⟨suffix, hsuffix, hinitial⟩
    · exact .inr ⟨_, List.mem_map.2 ⟨suffix, hsuffix, rfl⟩, hmember⟩
  · rintro (⟨suffix, hsuffix, hinitial⟩ | ⟨_, hmem, hmember⟩)
    · exact ⟨suffix, hsuffix, .inl hinitial⟩
    · obtain ⟨suffix, hsuffix, rfl⟩ := List.mem_map.1 hmem
      exact ⟨suffix, hsuffix, .inr hmember⟩

/-- A place that settles what is looked for holds a package or a module of the name. -/
theorem probe_of_settles (h : finder.Settles name) :
    finder.probe name = .package (inside finder.place name) ∨
      ∃ origin ∈ finder.moduleFiles name, finder.probe name = .module origin := by
  by_cases hinitial : finder.hasInitialFile name = true
  · exact .inl (probe_of_hasInitialFile hinitial)
  · rw [probe_eq, if_neg hinitial]
    cases hfound : (finder.moduleFiles name).find? finder.isFile with
    | some origin => exact .inr ⟨origin, List.mem_of_find?_eq_some hfound, rfl⟩
    | none =>
      obtain ⟨origin, hmem, hfile⟩ := (settles_iff.1 h).resolve_left hinitial
      exact absurd hfile (List.find?_eq_none.1 hfound origin hmem)

/-- A place that does not settle what is looked for holds at most a portion. -/
theorem probe_of_not_settles (h : ¬finder.Settles name) :
    finder.probe name = if finder.HoldsDirectory name then .portion (inside finder.place name)
      else .nothing := by
  obtain ⟨hinitial, hmodule⟩ := not_or.1 fun hholds => h (settles_iff.2 hholds)
  have hnone : (finder.moduleFiles name).find? finder.isFile = none := by
    rw [List.find?_eq_none]
    exact fun origin hmem hfile => hmodule ⟨origin, hmem, hfile⟩
  rw [probe_eq, if_neg hinitial, hnone]

end Finder

/-! ## 2. What one place holds -/

/-- A place is searched as what it is. -/
theorem eq_of_finder? {finder : Finder} (h : finder? disk place = .ok (some finder)) :
    (∃ archive, disk.archive? (entry disk place) = some archive ∧ finder = .ofArchive archive) ∨
      disk.archive? (entry disk place) = none ∧ finder = .ofDirectory disk place := by
  unfold finder? at h
  split at h
  · rename_i archive harchive
    exact .inl ⟨archive, harchive, (Option.some.inj (Except.ok.inj h)).symm⟩
  · rename_i hnone
    split at h
    · cases h
    split at h
    · exact .inr ⟨hnone, (Option.some.inj (Except.ok.inj h)).symm⟩
    · cases h

theorem probeAt_of_finder? {finder : Finder} (h : finder? disk place = .ok (some finder)) :
    probeAt disk name place = .ok (finder.probe name) := by
  rw [probeAt, h]
  rfl

/-- What an identifier leads to is found in what is searched. -/
theorem eq_of_probeAt {hit : Hit} (h : probeAt disk name place = .ok hit) :
    hit = .nothing ∨
      ∃ finder, finder? disk place = .ok (some finder) ∧ hit = finder.probe name := by
  rw [probeAt] at h
  rcases hfinder : finder? disk place with fault | (_ | finder)
  · rw [hfinder] at h
    cases h
  · rw [hfinder] at h
    exact .inl (Except.ok.inj h).symm
  · rw [hfinder] at h
    exact .inr ⟨finder, rfl, (Except.ok.inj h).symm⟩

/-- The place on a search path holds a null character, and leads into no archive. -/
def IsRefused (disk : Disk) (place : String) : Prop :=
  ¬Path.NullFree place ∧ disk.archive? (entry disk place) = none

theorem finder?_eq_error_iff {fault : Fault} :
    finder? disk place = .error fault ↔ fault = .embeddedNull ∧ IsRefused disk place := by
  unfold finder? IsRefused Path.NullFree
  cases disk.archive? (entry disk place) with
  | some archive => simp
  | none =>
    dsimp only
    by_cases hnull : '\x00' ∈ place.toList
    · simp [hnull, eq_comm]
    · rw [if_neg hnull]
      split <;> simp [hnull]

/-- Does `name` stand for a package or module in a place? -/
def Settles (disk : Disk) (name place : String) : Prop :=
  ∃ finder, finder? disk place = .ok (some finder) ∧ finder.Settles name

/-- Is there a directory of the name in a place? -/
def HoldsDirectory (disk : Disk) (name place : String) : Prop :=
  ∃ finder, finder? disk place = .ok (some finder) ∧ finder.HoldsDirectory name

section

variable (habsolute : place.toList.head? = some '/') (hdirectory : disk.isDirectory place = true)

include habsolute hdirectory

/-- A directory that is spelled in full is searched as it is spelled. -/
theorem finder?_of_head : finder? disk place = .ok (some (.ofDirectory disk place)) := by
  obtain ⟨entries, hnode⟩ := Disk.isDirectory_iff.1 hdirectory
  rw [finder?, entry_of_head habsolute, Disk.archive?_of_isDirectory hdirectory]
  dsimp only
  rw [if_neg (Disk.nullFree_of_node hnode), if_pos hdirectory]

/-- A directory settles what is looked for with the files that are there. -/
theorem settles_iff_of_head :
    Settles disk name place ↔ ∃ suffix ∈ moduleSuffixes,
      disk.isFile (inside (inside place name) ("__init__" ++ suffix)) = true ∨
        disk.isFile (inside place (name ++ suffix)) = true := by
  rw [Settles, finder?_of_head habsolute hdirectory]
  simp [Finder.Settles, Finder.place_ofDirectory, Finder.suffixes_ofDirectory,
    Finder.isFile_ofDirectory, anchored_of_head habsolute]

/-- A directory holds the directories that are there. -/
theorem holdsDirectory_iff_of_head :
    HoldsDirectory disk name place ↔ disk.isDirectory (inside place name) = true := by
  rw [HoldsDirectory, finder?_of_head habsolute hdirectory]
  simp [Finder.HoldsDirectory, Finder.place_ofDirectory, Finder.isDirectory_ofDirectory,
    anchored_of_head habsolute]

/-- A directory with the initial file of a package holds the package, whatever else it holds. -/
theorem probeAt_of_initial
    (hinitial : disk.isFile (inside (inside place name) "__init__.py") = true) :
    probeAt disk name place = .ok (.package (inside place name)) := by
  have hplace : (Finder.ofDirectory disk place).place = place := by
    rw [Finder.place_ofDirectory, anchored_of_head habsolute]
  have hfound : (Finder.ofDirectory disk place).hasInitialFile name = true := by
    rw [Finder.hasInitialFile, hplace, List.any_eq_true]
    refine ⟨".py", ?_, ?_⟩
    · rw [Finder.suffixes_ofDirectory]
      decide
    · rw [Finder.isFile_ofDirectory]
      exact hinitial
  rw [probeAt_of_finder? (finder?_of_head habsolute hdirectory),
    Finder.probe_of_hasInitialFile hfound, hplace]

end

/-- A package that lies in the root directory is found there, as seen from the root directory. -/
theorem probeAt_slash {entries : Entries Node} {content : ByteArray}
    (hroot : disk.root = .directory entries) (hhere : disk.here = [])
    (hspells : Disk.SpellsOut (inside (inside "/" name) "__init__.py") [name, "__init__.py"])
    (hinitial : disk.root.at? [name, "__init__.py"] = some (.file content)) :
    probeAt disk name "/" = .ok (.package (inside "/" name)) := by
  have hfile := Disk.node_of_spellsOut hhere hspells hinitial (Node.file_ne_link content)
  exact probeAt_of_initial (by decide) (Disk.isDirectory_iff.2 ⟨entries, Disk.node_slash hroot⟩)
    (Disk.isFile_iff.2 ⟨content, hfile⟩)

/-! ## 3. Looking an identifier up -/

variable {portions places : List String}

theorem lookUp_cons_of_isRefused (h : IsRefused disk place) (rest : List String) :
    lookUp disk name portions (place :: rest) = .error .embeddedNull := by
  rw [lookUp, probeAt, finder?_eq_error_iff.2 ⟨rfl, h⟩]
  rfl

/-- Is what was found a package or module of the name in a place? -/
def Found.LiesIn (place name : String) : Found → Prop
  | .package location => location = inside place name
  | .module origin => origin ∈ moduleFiles place name
  | .portions _ => False

/-- In an archive modules stand under fewer suffixes than in a directory. -/
theorem suffixes_subset {finder : Finder} (h : finder? disk place = .ok (some finder)) :
    finder.suffixes ⊆ moduleSuffixes := by
  rcases eq_of_finder? h with ⟨archive, -, rfl⟩ | ⟨-, rfl⟩
  · rw [Finder.suffixes_ofArchive]
    decide
  · rw [Finder.suffixes_ofDirectory]
    exact List.Subset.refl _

/-- A place that settles what is looked for ends the search, whatever comes before or after it. -/
theorem lookUp_cons_of_settles {finder : Finder} (hfinder : finder? disk place = .ok (some finder))
    (h : finder.Settles name) :
    ∃ found : Found, found.LiesIn finder.place name ∧ ∀ portions rest,
      lookUp disk name portions (place :: rest) = .ok (some found) := by
  have hprobed : probeAt disk name place = .ok (finder.probe name) := probeAt_of_finder? hfinder
  rcases Finder.probe_of_settles h with hprobe | ⟨origin, horigin, hprobe⟩
  · rw [hprobe] at hprobed
    exact ⟨.package _, rfl, fun _ _ => by rw [lookUp, hprobed]⟩
  · rw [hprobe] at hprobed
    exact ⟨.module origin, List.map_subset _ (suffixes_subset hfinder) horigin,
      fun _ _ => by rw [lookUp, hprobed]⟩

/-- The portion that a place holds, if it holds one. -/
def portionsIn (disk : Disk) (name place : String) : List String :=
  match finder? disk place with
  | .ok (some finder) => if finder.HoldsDirectory name then [inside finder.place name] else []
  | _ => []

theorem portionsIn_eq_nil_iff :
    portionsIn disk name place = [] ↔ ¬HoldsDirectory disk name place := by
  unfold portionsIn HoldsDirectory
  rcases finder? disk place with fault | (_ | finder)
  · simp
  · simp
  · simp

/-- A place that does not settle what is looked for adds at most a portion. -/
theorem lookUp_cons_of_not_settles (hplace : ¬IsRefused disk place)
    (h : ¬Settles disk name place) (rest : List String) :
    lookUp disk name portions (place :: rest) =
      lookUp disk name (portions ++ portionsIn disk name place) rest := by
  rw [lookUp, probeAt, portionsIn]
  rcases hfinder : finder? disk place with fault | (_ | finder)
  · exact absurd (finder?_eq_error_iff.1 hfinder).2 hplace
  · simp [Except.map]
  · have hnot : ¬finder.Settles name := fun hsettles => h ⟨finder, hfinder, hsettles⟩
    dsimp only [Except.map]
    rw [Finder.probe_of_not_settles hnot]
    by_cases hholds : finder.HoldsDirectory name
    · rw [if_pos hholds, if_pos hholds]
    · rw [if_neg hholds, if_neg hholds, List.append_nil]

/-- The root directory is passed over when nothing in it begins with the name. -/
theorem lookUp_slash_of_find?_eq_none {entries : Entries Node}
    (hroot : disk.root = .directory entries) (hhere : disk.here = [])
    (hspells : ∀ suffix ∈ moduleSuffixes,
      Disk.SpellsOut (inside (inside "/" name) ("__init__" ++ suffix))
        ([] ++ name :: ["__init__" ++ suffix]) ∧
      Disk.SpellsOut (inside "/" (name ++ suffix)) ([] ++ (name ++ suffix) :: []))
    (hname : Disk.SpellsOut (inside "/" name) ([] ++ name :: []))
    (habsent : name ∉ entries.names ∧ ∀ suffix ∈ moduleSuffixes, name ++ suffix ∉ entries.names)
    (rest : List String) : lookUp disk name [] ("/" :: rest) = lookUp disk name [] rest := by
  have hat : disk.root.at? [] = some (.directory entries) := congrArg some hroot
  have hdirectory : disk.isDirectory "/" = true :=
    Disk.isDirectory_iff.2 ⟨entries, Disk.node_slash hroot⟩
  have hnone := Entries.find?_eq_none_iff.2 habsent.1
  have hsettles : ¬Settles disk name "/" := by
    rw [settles_iff_of_head (by decide) hdirectory]
    rintro ⟨suffix, hsuffix, hfile⟩
    obtain ⟨hinner, houter⟩ := hspells suffix hsuffix
    rw [Disk.isFile, Disk.isFile,
      Disk.node_of_spellsOut_of_find?_eq_none hhere hinner hat hnone,
      Disk.node_of_spellsOut_of_find?_eq_none hhere houter hat
        (Entries.find?_eq_none_iff.2 (habsent.2 suffix hsuffix))] at hfile
    simp at hfile
  have hholds : ¬HoldsDirectory disk name "/" := by
    rw [holdsDirectory_iff_of_head (by decide) hdirectory, Disk.isDirectory,
      Disk.node_of_spellsOut_of_find?_eq_none hhere hname hat hnone]
    exact Bool.false_ne_true
  have hrefused : ¬IsRefused disk "/" := fun h => h.1 (by decide)
  rw [lookUp_cons_of_not_settles hrefused hsettles, portionsIn_eq_nil_iff.2 hholds,
    List.append_nil]

theorem exists_first_cons_iff {α : Type} {P Q : α → Prop} {a : α} {l : List α} :
    (∃ before b after, a :: l = before ++ b :: after ∧ P b ∧ ∀ c ∈ before, Q c) ↔
      P a ∨ Q a ∧ ∃ before b after, l = before ++ b :: after ∧ P b ∧ ∀ c ∈ before, Q c := by
  constructor
  · rintro ⟨before, b, after, heq, hb, hbefore⟩
    rcases List.cons_eq_append_iff.1 heq with ⟨rfl, htail⟩ | ⟨before, rfl, htail⟩
    · obtain ⟨rfl, -⟩ := List.cons.inj htail
      exact .inl hb
    · obtain ⟨ha, hbefore⟩ := List.forall_mem_cons.1 hbefore
      exact .inr ⟨ha, before, b, after, htail, hb, hbefore⟩
  · rintro (ha | ⟨ha, before, b, after, rfl, hb, hbefore⟩)
    · exact ⟨[], a, l, rfl, ha, nofun⟩
    · exact ⟨a :: before, b, after, rfl, hb, List.forall_mem_cons.2 ⟨ha, hbefore⟩⟩

/-- A place that settles what is looked for is not refused. -/
theorem Settles.not_isRefused (h : Settles disk name place) : ¬IsRefused disk place := by
  intro hrefused
  obtain ⟨finder, hfinder, -⟩ := h
  rw [finder?_eq_error_iff.2 ⟨rfl, hrefused⟩] at hfinder
  cases hfinder

/-- Looking an identifier up ends the run where a place is refused and no place before it settles
what is looked for. -/
theorem lookUp_eq_error_iff {fault : Fault} :
    lookUp disk name portions places = .error fault ↔ fault = .embeddedNull ∧
      ∃ before place after, places = before ++ place :: after ∧ IsRefused disk place ∧
        ∀ earlier ∈ before, ¬Settles disk name earlier := by
  -- The portions met so far make no difference to where the search ends.
  induction places generalizing portions with
  | nil => simp [lookUp]
  | cons place rest ih =>
    rw [exists_first_cons_iff]
    by_cases hsettles : Settles disk name place
    · obtain ⟨finder, hfinder, hholds⟩ := id hsettles
      obtain ⟨found, -, hfound⟩ := lookUp_cons_of_settles hfinder hholds
      rw [hfound]
      simp [hsettles.not_isRefused, hsettles]
    · by_cases hplace : IsRefused disk place
      · rw [lookUp_cons_of_isRefused hplace]
        simp [hplace, eq_comm]
      · rw [lookUp_cons_of_not_settles hplace hsettles, ih]
        simp [hplace, hsettles]

/-- An identifier comes to stand for portions where no place settles it and some place holds a
directory of its name. -/
theorem lookUp_eq_portions_iff :
    (∃ locations, lookUp disk name portions places = .ok (some (.portions locations))) ↔
      (∀ place ∈ places, ¬IsRefused disk place ∧ ¬Settles disk name place) ∧
        (portions ≠ [] ∨ ∃ place ∈ places, HoldsDirectory disk name place) := by
  induction places generalizing portions with
  | nil =>
    rw [lookUp]
    -- At the end the portions met so far are what is found, if there are any.
    by_cases hnone : portions = []
    · simp [hnone]
    · simp [hnone]
  | cons place rest ih =>
    rw [List.forall_mem_cons]
    by_cases hsettles : Settles disk name place
    · obtain ⟨finder, hfinder, hholds⟩ := id hsettles
      obtain ⟨found, hlies, hfound⟩ := lookUp_cons_of_settles hfinder hholds
      have hnot : ∀ locations, found ≠ .portions locations := by
        rintro locations rfl
        exact hlies
      rw [hfound]
      simp [hsettles, hnot]
    · by_cases hplace : IsRefused disk place
      · rw [lookUp_cons_of_isRefused hplace]
        simp [hplace]
      · rw [lookUp_cons_of_not_settles hplace hsettles, ih, Ne, List.append_eq_nil_iff,
          portionsIn_eq_nil_iff, not_and, not_not]
        by_cases hnone : portions = [] <;> simp [hnone, hplace, hsettles]

/-- What was found stands in one of the places, or is made of portions that stand in them. -/
inductive Found.MetIn (disk : Disk) (name : String) (places : List String) : Found → Prop where
  | package {location place : String} (hplace : place ∈ places)
      (h : probeAt disk name place = .ok (.package location)) :
      MetIn disk name places (.package location)
  | module {origin place : String} (hplace : place ∈ places)
      (h : probeAt disk name place = .ok (.module origin)) :
      MetIn disk name places (.module origin)
  | portions {locations : List String} (h : ∀ location ∈ locations, ∃ place ∈ places,
      probeAt disk name place = .ok (.portion location)) :
      MetIn disk name places (.portions locations)

/-- What a search finds stands in the places `all`, if those that are left are among them and the
portions met so far stand in them. -/
theorem metIn_of_lookUp_portions {all : List String} {found : Found} (hplaces : places ⊆ all)
    (hportions : ∀ location ∈ portions, ∃ place ∈ all,
      probeAt disk name place = .ok (.portion location))
    (h : lookUp disk name portions places = .ok (some found)) : found.MetIn disk name all := by
  -- A portion that a place adds stands in that place, so what is supposed of the portions is kept.
  induction places generalizing portions with
  | nil =>
    rw [lookUp] at h
    split at h
    · cases h
    · obtain rfl := Option.some.inj (Except.ok.inj h)
      exact .portions hportions
  | cons place rest ih =>
    obtain ⟨hplace, hrest⟩ := List.cons_subset.1 hplaces
    rw [lookUp] at h
    cases hprobe : probeAt disk name place with
    | error fault =>
      rw [hprobe] at h
      cases h
    | ok hit =>
      rw [hprobe] at h
      cases hit with
      | package location =>
        obtain rfl := Option.some.inj (Except.ok.inj h)
        exact .package hplace hprobe
      | module origin =>
        obtain rfl := Option.some.inj (Except.ok.inj h)
        exact .module hplace hprobe
      | portion location =>
        refine ih hrest (fun other hother => ?_) h
        rcases List.mem_append.1 hother with hother | hother
        · exact hportions other hother
        · obtain rfl := List.mem_singleton.1 hother
          exact ⟨place, hplace, hprobe⟩
      | nothing => exact ih hrest hportions h

/-- What a search finds stands in the places that it goes through. -/
theorem metIn_of_lookUp {found : Found} (h : lookUp disk name [] places = .ok (some found)) :
    found.MetIn disk name places :=
  metIn_of_lookUp_portions (List.Subset.refl _) (List.forall_mem_nil _) h

end LintFront.Package
