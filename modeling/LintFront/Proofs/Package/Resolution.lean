import LintFront.Proofs.Directory.Faultless
import LintFront.Proofs.Package.Display
import LintFront.Proofs.Package.Location
/-!
# What packages come to

A package argument is looked up twice, once to expand it and once for each specifier that it stands
for. Both times all that can end the run is the search. A directory that is found forms a unit or
has a reason why it forms none, and so does a module.

## Main statements

`Package.unit_eq_fault_iff`, `Package.expand_eq_fault_iff`: which specifiers and which arguments end
the run.
-/

namespace LintFront

variable {disk : Disk}

namespace Package

variable {search excludes : List String} {base text : String} {spec : Specifier} {fault : Fault}

/-! ## 1. What is made of what is found -/

/-- The unit of what a specifier leads to. -/
def unitOf (disk : Disk) (spec : Specifier) : Found → Except Trouble SourceUnit
  | .package location => (Directory.unit disk (disk.display location)).bind (unit.named spec)
  | .portions (location :: _) =>
    (Directory.unit disk (disk.display location)).bind (unit.named spec)
  | .portions [] => .error (.noUnit (.noSources spec.dotted))
  | .module origin => moduleUnit disk spec.dotted origin

theorem unit_of_parse?_eq_none (h : Specifier.parse? text = none) :
    unit disk search text base = .error (.noUnit (.badSpecifier text)) := by
  rw [unit, Specifier.parse, h]
  rfl

theorem unit_of_parse? (h : Specifier.parse? text = some spec) :
    unit disk search text base = (locate disk search base spec).bind (unitOf disk spec) := by
  rw [unit, Specifier.parse, h]
  show (locate disk search base spec).bind _ = _
  cases locate disk search base spec with
  | error trouble => rfl
  | ok found => rcases found with _ | _ | _ | _ <;> rfl

/-- A unit under another name is as sound as before. -/
theorem sound_named {resolved : Except Trouble SourceUnit} (h : Sound resolved) :
    Sound (resolved.bind (unit.named spec)) := by
  cases h with
  | unit paths => exact .unit paths
  | reason error => exact .reason error

/-- The unit of a module file names that file. -/
theorem sound_moduleUnit (hcwd : Path.NullFree disk.cwd) {dotted origin : String}
    (horigin : Path.NullFree origin) : Sound (moduleUnit disk dotted origin) := by
  obtain ⟨hdirectory, hname⟩ := (disk.nullFree_display hcwd horigin).split
  rw [moduleUnit]
  -- Which parts the path has does not matter here, and they are better not computed.
  generalize Path.split (disk.display origin) = parts at hdirectory hname ⊢
  obtain ⟨directory, name⟩ := parts
  dsimp only at hdirectory hname ⊢
  split
  · refine .unit fun path hpath => ?_
    rw [Directory.files_eq] at hpath
    obtain ⟨member, hmember, rfl⟩ := List.mem_map.1 hpath
    obtain rfl : member = name := by simpa [SourceUnit.names] using hmember
    apply Directory.nullFree_pathIn _ hname
    dsimp only
    split
    · decide
    · exact hdirectory
  · exact .reason _

theorem sound_unitOf (hroot : disk.root.WellFormed) (hcwd : Path.NullFree disk.cwd) {found : Found}
    (hfound : ∀ path ∈ found.paths, Path.NullFree path) : Sound (unitOf disk spec found) := by
  have hdirectory : ∀ location ∈ found.paths, Sound (Directory.unit disk (disk.display location)) :=
    fun location hlocation =>
      Directory.sound_unit hroot (disk.nullFree_display hcwd (hfound location hlocation))
  rcases found with location | origin | (_ | ⟨location, rest⟩)
  · rw [unitOf]
    exact sound_named (hdirectory location List.mem_cons_self)
  · rw [unitOf]
    exact sound_moduleUnit hcwd (hfound origin List.mem_cons_self)
  · exact .reason _
  · rw [unitOf]
    exact sound_named (hdirectory location List.mem_cons_self)

/-! ## 2. Specifiers that end a run -/

/-- Does the search for a text that spells a specifier end the run, and with what? -/
def EndsRun (disk : Disk) (search : List String) (base text : String) (fault : Fault) : Prop :=
  ∃ spec, Specifier.parse? text = some spec ∧
    (fault = .embeddedNull ∧ MeetsNull disk search base spec ∨
      ∃ parents, fault = .parentNotLoaded (".".intercalate parents) ∧
        MeetsBareDirectory disk search base spec parents)

/-- A package that lies in no other package does not end the run, if the search path can be
searched. -/
theorem not_endsRun_of_singleton {name : String} (hsearch : ∀ place ∈ search, Path.NullFree place)
    (hparse : Specifier.parse? text = some ⟨[name]⟩) : ¬EndsRun disk search base text fault := by
  rintro ⟨spec, hspec, hmeets⟩
  obtain rfl := Option.some.inj (hparse.symm.trans hspec)
  rcases hmeets with ⟨-, _, _, before, place, after, -, rfl, hplace, -⟩ |
    ⟨parents, -, hparents, _, rest, _, hsegments, -⟩
  · exact hplace.1 (hsearch place (by simp))
  · obtain ⟨rfl, -⟩ | ⟨_, rfl, hrest⟩ := List.cons_eq_append_iff.1 hsegments
    · exact hparents rfl
    · simp at hrest

theorem nullFree_of_locate (hspec : spec.WellSpelled) {found : Found}
    (h : locate disk search base spec = .ok found) : ∀ path ∈ found.paths, Path.NullFree path :=
  nullFree_of_locateFrom (fun hnil => absurd hnil hspec.nonempty) h

section

variable (hroot : disk.root.WellFormed) (hcwd : Path.NullFree disk.cwd)
  (hbase : Path.NullFree base)

include hroot hcwd hbase

/-- A specifier comes to a unit or a reason, or the search for it ends the run. -/
theorem sound_unit_or_endsRun (search : List String) (text : String) :
    Sound (unit disk search text base) ∨
      ∃ fault, unit disk search text base = .error (.fault fault) ∧
        EndsRun disk search base text fault := by
  cases hparse : Specifier.parse? text with
  | none =>
    rw [unit_of_parse?_eq_none hparse]
    exact .inl (.reason _)
  | some spec =>
    have hspec := Specifier.wellSpelled_of_parse? hparse
    rw [unit_of_parse? hparse]
    -- Behind a search that succeeds nothing can go wrong any more.
    cases hlocate : locate disk search base spec with
    | ok found =>
      rw [Except.bind]
      exact .inl (sound_unitOf hroot hcwd (nullFree_of_locate hspec hlocate))
    | error trouble =>
      cases trouble with
      | noUnit error => exact .inl (.reason error)
      | fault fault =>
        have hmeets := (locate_eq_fault_iff hcwd hbase).1 hlocate
        exact .inr ⟨fault, rfl, spec, hparse, hmeets⟩

/-- A specifier ends the run if and only if the search for it does. -/
theorem unit_eq_fault_iff :
    unit disk search text base = .error (.fault fault) ↔ EndsRun disk search base text fault := by
  constructor
  · intro h
    rcases sound_unit_or_endsRun hroot hcwd hbase search text with hsound | ⟨fault', h', hends⟩
    · exact absurd h (hsound.ne_fault fault)
    · rw [h] at h'
      cases h'
      exact hends
  · rintro ⟨spec, hparse, hmeets⟩
    have hspec := Specifier.wellSpelled_of_parse? hparse
    rw [unit_of_parse? hparse, (locate_eq_fault_iff hcwd hbase).2 hmeets]
    rfl

end

/-! ## 3. Arguments that end a run -/

/-- The specifiers that a package with the marker stands for, once it is found. -/
def expansionOf (disk : Disk) (excludes : List String) (spec : Specifier) (found : Found) :
    Except Trouble (List String) :=
  match found.locations with
  | [] => .error (.noUnit (.moduleNotPackage spec.dotted))
  | location :: _ =>
    match Directory.expand disk excludes (disk.display location) with
    | .error fault => .error (.fault fault)
    | .ok paths => .ok (paths.filterMap (specifierBelow? disk spec (disk.display location)))

theorem expand_of_parse?_eq_none (hmarker : hasMarker text = true)
    (hparse : Specifier.parse? (stripMarker text) = none) :
    expand disk search excludes text base =
      .error (.noUnit (.badSpecifier (stripMarker text))) := by
  rw [expand, if_pos hmarker, Specifier.parse, hparse]
  rfl

theorem directory_dotted (hspec : spec.WellSpelled) :
    directory disk search spec.dotted base =
      (locate disk search base spec).bind fun found => match found.locations with
        | location :: _ => .ok (disk.display location)
        | [] => .error (.noUnit (.moduleNotPackage spec.dotted)) := by
  rw [directory, Specifier.parse, Specifier.parse?_dotted hspec]
  rfl

theorem expand_of_parse? (hmarker : hasMarker text = true)
    (hparse : Specifier.parse? (stripMarker text) = some spec) :
    expand disk search excludes text base =
      (locate disk search base spec).bind (expansionOf disk excludes spec) := by
  rw [expand, if_pos hmarker, Specifier.parse, hparse]
  dsimp only [bind, Except.bind]
  rw [directory_dotted (Specifier.wellSpelled_of_parse? hparse)]
  cases locate disk search base spec with
  | error trouble => rfl
  | ok found =>
    dsimp only [Except.bind, expansionOf]
    cases found.locations with
    | nil => rfl
    | cons location rest => rfl

theorem expansionOf_ne_fault (hroot : disk.root.WellFormed) (hcwd : Path.NullFree disk.cwd)
    {found : Found} (hfound : ∀ path ∈ found.paths, Path.NullFree path) :
    expansionOf disk excludes spec found ≠ .error (.fault fault) := by
  unfold expansionOf
  split
  · intro hmodule
    cases hmodule
  · rename_i location rest hlocations
    have hlocation : Path.NullFree location := by
      apply hfound location (found.locations_subset _)
      rw [hlocations]
      exact List.mem_cons_self
    obtain ⟨paths, hpaths⟩ : ∃ paths,
        Directory.expand disk excludes (disk.display location) = .ok paths :=
      (Directory.exists_expand_eq_ok hroot (disk.nullFree_display hcwd hlocation)).imp
        fun _ h => h.1
    rw [hpaths]
    intro hfault
    cases hfault

/-- An argument with the marker ends the run if and only if the search for its package does. -/
theorem expand_eq_fault_iff (hroot : disk.root.WellFormed) (hcwd : Path.NullFree disk.cwd)
    (hbase : Path.NullFree base) :
    expand disk search excludes text base = .error (.fault fault) ↔
      hasMarker text = true ∧ EndsRun disk search base (stripMarker text) fault := by
  by_cases hmarker : hasMarker text = true
  · cases hparse : Specifier.parse? (stripMarker text) with
    | none =>
      rw [expand_of_parse?_eq_none hmarker hparse, EndsRun]
      simp [hparse]
    | some spec =>
      have hspec := Specifier.wellSpelled_of_parse? hparse
      have hends : EndsRun disk search base (stripMarker text) fault ↔
          locate disk search base spec = .error (.fault fault) := by
        rw [EndsRun, locate_eq_fault_iff hcwd hbase]
        simp [hparse]
      rw [hends, expand_of_parse? hmarker hparse]
      cases hfound : locate disk search base spec with
      | error trouble => simp [hmarker, Except.bind]
      | ok found =>
        have hnot : expansionOf disk excludes spec found ≠ .error (.fault fault) :=
          expansionOf_ne_fault hroot hcwd (nullFree_of_locate hspec hfound)
        simpa [Except.bind] using hnot
  · rw [expand, if_neg hmarker]
    simp [hmarker]

end Package

end LintFront
