import LintFront.Package.Unit
import LintFront.Proofs.Package.Search
import LintFront.Proofs.Package.Specifier
/-!
# Which searches end a run

A search that finds nothing is reported and no more. It ends the run in two cases only. On the
search path it may come to a place whose spelling holds a null character and that leads into no
archive. And inside a package it may find nothing but a directory without an initial file: outside
of any package such a directory is a package all the same, but inside of one it would be so only
together with the record of its parent among the packages that are loaded, and none is.

All other places of a search were found on the disk or in an archive, so their spellings are free of
null characters.

## Main statements

`Package.locate_eq_fault_iff`: which searches end the run, and with what.
-/

namespace LintFront.Package

variable {disk : Disk}

/-! ## 1. What is found is free of null characters -/

/-- The paths to which an identifier led. -/
def Found.paths : Found → List String
  | package location => [location]
  | module origin => [origin]
  | portions locations => locations

theorem Found.locations_subset (found : Found) : found.locations ⊆ found.paths := by
  cases found with
  | package location => exact List.Subset.refl _
  | module origin => exact List.nil_subset _
  | portions locations => exact List.Subset.refl _

/-- What is taken off a text are slashes at its end. -/
theorem exists_eq_chop_append (s : String) : ∃ n, s = chop s ++ Path.slashes n := by
  have hend : (s.toList.reverse.takeWhile (· = '/')).reverse =
      List.replicate (s.toList.reverse.takeWhile (· = '/')).length '/' := by
    refine List.eq_replicate_iff.2 ⟨List.length_reverse, fun c hc => ?_⟩
    simpa using List.mem_takeWhile_imp (List.mem_reverse.1 hc)
  refine ⟨(s.toList.reverse.takeWhile (· = '/')).length, ?_⟩
  rw [← String.toList_inj, String.toList_append, chop, Path.dropEndSlashes, Path.slashes,
    String.toList_ofList, String.toList_ofList, ← hend, ← List.reverse_append,
    List.takeWhile_append_dropWhile, List.reverse_reverse]

theorem nullFree_of_chop {s : String} (h : Path.NullFree (chop s)) : Path.NullFree s := by
  obtain ⟨n, hn⟩ := exists_eq_chop_append s
  rw [hn]
  exact Path.nullFree_append.2 ⟨h, by simp [Path.NullFree, Path.slashes]⟩

/-- A directory is spelled without null characters if something in it is. -/
theorem nullFree_of_inside {place name : String} (h : Path.NullFree (inside place name)) :
    Path.NullFree place :=
  nullFree_of_chop (Path.nullFree_append.1 (Path.nullFree_append.1 h).1).1

/-- The paths to which an identifier leads in one place. -/
def Hit.paths : Hit → List String
  | package location => [location]
  | module origin => [origin]
  | portion location => [location]
  | nothing => []

/-- What is there in a place that is searched is spelled without null characters. -/
theorem nullFree_of_finder? {place : String} {finder : Finder}
    (h : finder? disk place = .ok (some finder)) {path : String}
    (hpath : finder.isFile path = true ∨ finder.isDirectory path = true) : Path.NullFree path := by
  rcases eq_of_finder? h with ⟨archive, harchive, rfl⟩ | ⟨-, rfl⟩
  · rcases hpath with hmember | hmember
    · exact Disk.nullFree_of_holds harchive hmember
    · exact (Path.nullFree_append.1 (Disk.nullFree_of_holds harchive hmember)).1
  · rw [Finder.isFile_ofDirectory, Finder.isDirectory_ofDirectory, Disk.isFile_iff,
      Disk.isDirectory_iff] at hpath
    rcases hpath with ⟨content, hnode⟩ | ⟨entries, hnode⟩
    · exact Disk.nullFree_of_node hnode
    · exact Disk.nullFree_of_node hnode

/-- What an identifier leads to in a place on a search is free of null characters. -/
theorem nullFree_of_probeAt {name place : String} {hit : Hit}
    (h : probeAt disk name place = .ok hit) : ∀ path ∈ hit.paths, Path.NullFree path := by
  rcases eq_of_probeAt h with rfl | ⟨finder, hfinder, rfl⟩
  · exact List.forall_mem_nil _
  rw [Finder.probe_eq]
  split
  · -- Of a package the initial file is there, and of anything else what was found itself.
    rename_i hinitial
    obtain ⟨suffix, -, hfile⟩ := List.any_eq_true.1 hinitial
    exact List.forall_mem_singleton.2
      (nullFree_of_inside (nullFree_of_finder? hfinder (.inl hfile)))
  split
  · rename_i origin horigin
    exact List.forall_mem_singleton.2
      (nullFree_of_finder? hfinder (.inl (List.find?_some horigin)))
  split
  · rename_i hdirectory
    exact List.forall_mem_singleton.2 (nullFree_of_finder? hfinder (.inr hdirectory))
  · exact List.forall_mem_nil _

/-- What a search finds is free of null characters, whatever the places that it comes to. -/
theorem nullFree_of_lookUp {name : String} {places : List String} {found : Found}
    (h : lookUp disk name [] places = .ok (some found)) :
    ∀ path ∈ found.paths, Path.NullFree path := by
  cases metIn_of_lookUp h with
  | package hplace hprobe => exact nullFree_of_probeAt hprobe
  | module hplace hprobe => exact nullFree_of_probeAt hprobe
  | portions hmet =>
    intro path hpath
    obtain ⟨place, -, hprobe⟩ := hmet path hpath
    exact nullFree_of_probeAt hprobe path (List.mem_singleton_self path)

/-! ## 2. One identifier inside others -/

variable {parents places : List String} {name : String}

/-- A step of a search ends the run when looking up does, or when inside a package it finds nothing
but portions. -/
theorem step_eq_error_iff {fault : Fault} :
    step disk parents name places = .error fault ↔
      lookUp disk name [] places = .error fault ∨
        parents ≠ [] ∧ fault = .parentNotLoaded (".".intercalate parents) ∧
          ∃ locations, lookUp disk name [] places = .ok (some (.portions locations)) := by
  unfold step
  cases hlook : lookUp disk name [] places with
  | error cause => simp
  | ok found? =>
    rcases found? with _ | (location | origin | locations)
    · simp
    · simp
    · simp
    · by_cases hparents : parents = []
      · simp [hparents]
      · dsimp only
        rw [if_neg (by rwa [List.isEmpty_iff])]
        constructor
        · intro heq
          exact .inr ⟨hparents, (Except.error.inj heq).symm, locations, rfl⟩
        · rintro (hfault | ⟨-, rfl, -⟩)
          · cases hfault
          · rfl

/-- What a step of a search finds is what looking up finds. -/
theorem lookUp_of_step {found : Found} (h : step disk parents name places = .ok (some found)) :
    lookUp disk name [] places = .ok (some found) := by
  unfold step at h
  split at h
  · rename_i locations hlook
    split at h
    · rw [hlook, ← h]
    · cases h
  · exact h

/-! ## 3. All identifiers of a specifier -/

variable {whole base : String} {done todo : List String} {found next : Found}

theorem step_nil : step disk parents name [] = .ok none := rfl

/-- A step that does anything has places to search in. -/
theorem not_isEmpty_of_step {outcome : Except Fault (Option Found)}
    (h : step disk done name places = outcome) (hne : outcome ≠ .ok none) :
    ¬places.isEmpty = true := by
  intro hnone
  rw [List.isEmpty_iff.1 hnone, step_nil] at h
  exact hne h.symm

/-- The search goes on after an identifier that leads somewhere. -/
theorem locateFrom_cons_of_step {first : Found} {rest : List String}
    (h : step disk done name found.locations = .ok (some first)) :
    locateFrom disk whole base done found (name :: rest) =
      locateFrom disk whole base (done ++ [name]) first rest := by
  rw [locateFrom, if_neg (not_isEmpty_of_step h (by simp)), h]

/-- The search ends the run at an identifier whose step does. -/
theorem locateFrom_cons_of_error {fault : Fault} {rest : List String}
    (h : step disk done name found.locations = .error fault) :
    locateFrom disk whole base done found (name :: rest) = .error (.fault fault) := by
  rw [locateFrom, if_neg (not_isEmpty_of_step h (by simp)), h]

/-- The search ends at an identifier that leads nowhere. -/
theorem locateFrom_cons_of_none {rest : List String} (hne : found.locations ≠ [])
    (h : step disk done name found.locations = .ok none) :
    locateFrom disk whole base done found (name :: rest) =
      .error (.noUnit (.packageNotFound whole base)) := by
  rw [locateFrom, if_neg (by rwa [List.isEmpty_iff]), h]

theorem exists_step_of_locateFrom_cons {rest : List String}
    (h : locateFrom disk whole base done found (name :: rest) = .ok next) :
    ∃ first, step disk done name found.locations = .ok (some first) ∧
      locateFrom disk whole base (done ++ [name]) first rest = .ok next := by
  rw [locateFrom] at h
  split at h
  · cases h
  split at h
  · cases h
  · cases h
  · rename_i first hfirst
    exact ⟨first, hfirst, h⟩

/-- A search ends the run at the one identifier at which its step does. -/
theorem locateFrom_eq_fault_iff {fault : Fault} :
    locateFrom disk whole base done found todo = .error (.fault fault) ↔
      ∃ before name after next, todo = before ++ name :: after ∧
        locateFrom disk whole base done found before = .ok next ∧
        step disk (done ++ before) name next.locations = .error fault := by
  -- Either the first identifier is the one, and nothing is before it, or it leads somewhere and the
  -- one comes later.
  induction todo generalizing done found with
  | nil =>
    rw [locateFrom]
    simp
  | cons name rest ih =>
    constructor
    · intro h
      rw [locateFrom] at h
      split at h
      · cases h
      split at h
      · rename_i cause hcause
        obtain rfl : cause = fault := by simpa using h
        exact ⟨[], name, rest, found, rfl, rfl, by rwa [List.append_nil]⟩
      · cases h
      · rename_i first hfirst
        obtain ⟨before, name', after, next, rfl, hnext, hstep⟩ := ih.1 h
        refine ⟨name :: before, name', after, next, rfl, ?_, ?_⟩
        · rw [locateFrom_cons_of_step hfirst, hnext]
        · rwa [List.append_cons]
    · rintro ⟨before, name', after, next, heq, hnext, hstep⟩
      rcases List.cons_eq_append_iff.1 heq with ⟨rfl, htail⟩ | ⟨before, rfl, rfl⟩
      · obtain ⟨rfl, rfl⟩ := List.cons.inj htail
        obtain rfl : found = next := Except.ok.inj hnext
        rw [List.append_nil] at hstep
        exact locateFrom_cons_of_error hstep
      · obtain ⟨first, hfirst, hrest⟩ := exists_step_of_locateFrom_cons hnext
        rw [locateFrom_cons_of_step hfirst, ih]
        exact ⟨before, name', after, next, rfl, hrest, by rwa [← List.append_cons]⟩

/-- What a search comes to does not hang on what it is asked for in its messages. -/
theorem locateFrom_congr {whole' base' : String}
    (h : locateFrom disk whole base done found todo = .ok next) :
    locateFrom disk whole' base' done found todo = .ok next := by
  induction todo generalizing done found with
  | nil => exact h
  | cons name rest ih =>
    obtain ⟨first, hfirst, hrest⟩ := exists_step_of_locateFrom_cons h
    rw [locateFrom_cons_of_step hfirst]
    exact ih hrest

/-- What a search comes to is free of null characters once it has found anything. -/
theorem nullFree_of_locateFrom
    (hfound : todo = [] → ∀ path ∈ found.paths, Path.NullFree path)
    (h : locateFrom disk whole base done found todo = .ok next) :
    ∀ path ∈ next.paths, Path.NullFree path := by
  induction todo generalizing done found with
  | nil =>
    obtain rfl : found = next := Except.ok.inj h
    exact hfound rfl
  | cons name rest ih =>
    obtain ⟨first, hfirst, hrest⟩ := exists_step_of_locateFrom_cons h
    exact ih (fun _ => nullFree_of_lookUp (lookUp_of_step hfirst)) hrest

/-! ## 4. Which specifiers end a run -/

variable {search : List String} {spec : Specifier}

/-- The search for a specifier comes to a place on the search path whose spelling holds a null
character and that leads into no archive: in no place before it does the outermost identifier stand
for a package or module. -/
def MeetsNull (disk : Disk) (search : List String) (base : String) (spec : Specifier) : Prop :=
  ∃ name rest before place after, spec.segments = name :: rest ∧
    search = before ++ place :: after ∧ IsRefused disk place ∧
    ∀ earlier ∈ Path.absolute disk.cwd base :: before, ¬Settles disk name earlier

/-- The search for a specifier comes to a directory without an initial file inside the package
`parents`: the next identifier stands for no package or module there, and yet there is a directory
of its name. -/
def MeetsBareDirectory (disk : Disk) (search : List String) (base : String) (spec : Specifier)
    (parents : List String) : Prop :=
  parents ≠ [] ∧ ∃ name rest found, spec.segments = parents ++ name :: rest ∧
    locate disk search base ⟨parents⟩ = .ok found ∧
    (∀ place ∈ found.locations, ¬Settles disk name place) ∧
    ∃ place ∈ found.locations, HoldsDirectory disk name place

/-- The outermost identifier ends the run by a null character or not at all. -/
theorem step_nil_eq_error_iff {name : String} {fault : Fault} (hcwd : Path.NullFree disk.cwd)
    (hbase : Path.NullFree base) :
    step disk [] name (Path.absolute disk.cwd base :: search) = .error fault ↔
      fault = .embeddedNull ∧ ∃ before place after, search = before ++ place :: after ∧
        IsRefused disk place ∧
        ∀ earlier ∈ Path.absolute disk.cwd base :: before, ¬Settles disk name earlier := by
  have hfirst : ¬IsRefused disk (Path.absolute disk.cwd base) :=
    fun hrefused => hrefused.1 (hcwd.absolute hbase)
  rw [step_eq_error_iff, lookUp_eq_error_iff, exists_first_cons_iff]
  simp only [hfirst, false_or, ne_eq, not_true, false_and, or_false, List.forall_mem_cons]
  apply and_congr_right
  intro _
  constructor
  · rintro ⟨hnot, before, place, after, rfl, hplace, hbefore⟩
    exact ⟨before, place, after, rfl, hplace, hnot, hbefore⟩
  · rintro ⟨before, place, after, rfl, hplace, hnot, hbefore⟩
    exact ⟨hnot, before, place, after, rfl, hplace, hbefore⟩

/-- An identifier inside a package ends the run by a directory without an initial file or not at
all. -/
theorem step_cons_eq_error_iff {fault : Fault} (hplaces : ∀ place ∈ places, Path.NullFree place)
    (hparents : parents ≠ []) :
    step disk parents name places = .error fault ↔
      fault = .parentNotLoaded (".".intercalate parents) ∧
        (∀ place ∈ places, ¬Settles disk name place) ∧
        ∃ place ∈ places, HoldsDirectory disk name place := by
  rw [step_eq_error_iff, lookUp_eq_error_iff, lookUp_eq_portions_iff]
  constructor
  · rintro (⟨-, before, place, after, rfl, hplace, -⟩ | ⟨-, hfault, hnot, hholds⟩)
    · exact absurd (hplaces place (by simp)) hplace.1
    · exact ⟨hfault, fun place hplace => (hnot place hplace).2, hholds.resolve_left (by simp)⟩
  · rintro ⟨hfault, hnot, hholds⟩
    refine .inr ⟨hparents, hfault, fun place hplace => ⟨?_, hnot place hplace⟩, .inr hholds⟩
    exact fun hrefused => hrefused.1 (hplaces place hplace)

/-- Where a search goes on after at least one identifier there is no null character. -/
theorem nullFree_locations_of_locateFrom (hparents : parents ≠ [])
    (h : locateFrom disk whole base [] found parents = .ok next) :
    ∀ place ∈ next.locations, Path.NullFree place :=
  fun place hplace => nullFree_of_locateFrom (fun hnil => absurd hnil hparents) h place
    (next.locations_subset hplace)

/-- Which searches end the run, and with what. -/
theorem locate_eq_fault_iff (hcwd : Path.NullFree disk.cwd) (hbase : Path.NullFree base)
    {fault : Fault} :
    locate disk search base spec = .error (.fault fault) ↔
      fault = .embeddedNull ∧ MeetsNull disk search base spec ∨
        ∃ parents, fault = .parentNotLoaded (".".intercalate parents) ∧
          MeetsBareDirectory disk search base spec parents := by
  rw [locate, locateFrom_eq_fault_iff]
  -- The outermost identifier is looked up on the search path and every other inside a package.
  constructor
  · rintro ⟨parents, name, rest, found, hsegments, hfound, hstep⟩
    rw [List.nil_append] at hstep
    by_cases hparents : parents = []
    · subst hparents
      obtain rfl := Except.ok.inj hfound
      obtain ⟨hfault, before, place, after, hsearch, hplace, hnot⟩ :=
        (step_nil_eq_error_iff hcwd hbase).1 hstep
      exact .inl ⟨hfault, name, rest, before, place, after, hsegments, hsearch, hplace, hnot⟩
    · have hplaces := nullFree_locations_of_locateFrom hparents hfound
      obtain ⟨hfault, hnot, hholds⟩ := (step_cons_eq_error_iff hplaces hparents).1 hstep
      exact .inr ⟨parents, hfault, hparents, name, rest, found, hsegments, locateFrom_congr hfound,
        hnot, hholds⟩
  · rintro (⟨hfault, name, rest, before, place, after, hsegments, hsearch, hplace, hnot⟩ |
      ⟨parents, hfault, hparents, name, rest, found, hsegments, hlocate, hnot, hholds⟩)
    · refine ⟨[], name, rest, _, hsegments, rfl, ?_⟩
      exact (step_nil_eq_error_iff hcwd hbase).2
        ⟨hfault, before, place, after, hsearch, hplace, hnot⟩
    · have hfound : locateFrom disk spec.dotted base []
          (.portions (Path.absolute disk.cwd base :: search)) parents = .ok found :=
        locateFrom_congr hlocate
      refine ⟨parents, name, rest, found, hsegments, hfound, ?_⟩
      have hplaces := nullFree_locations_of_locateFrom hparents hfound
      rw [List.nil_append]
      exact (step_cons_eq_error_iff hplaces hparents).2 ⟨hfault, hnot, hholds⟩

end LintFront.Package
