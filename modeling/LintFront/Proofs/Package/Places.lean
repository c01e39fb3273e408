import LintFront.Proofs.Package.Display
import LintFront.Proofs.Package.Location
/-!
# The places that a search finds

A search takes its first places from the base directory and the search path, and every other place
is a directory that it has found in one of these under the name of an identifier. So the places that
are found are spelled alike: absolute, without parent components if there are none on the search
path, and with an identifier at the end, or with the name of a file if it is a module. From such a
place the names of packages lead down, and the search goes where the names lead as long as there is
an initial file at each of them. It does not ask what else is there.

## Main statements

`Package.isThere_of_locate`: what a search finds, and how it is spelled.
`Package.locateFrom_of_initial`: a search goes down along the names of packages with initial files.
-/

namespace LintFront

/-! ## 1. Identifiers as names -/

theorem Text.isName_of_isIdentifier {name : String} (h : isIdentifier name = true) :
    Node.IsName name := by
  have hseparator := isSeparator_of_isIdentifier h
  have hdot : '.' ∉ name.toList := fun hmem => absurd (hseparator _ hmem) (by decide)
  refine ⟨?_, ?_, ?_, fun hmem => absurd (hseparator _ hmem) (by decide),
    nullFree_of_isIdentifier h⟩
  · rintro rfl
    cases h
  · rintro rfl
    exact hdot (by decide)
  · rintro rfl
    exact hdot (by decide)

/-- An identifier begins with no dot and has no ending, so it is skipped only for what it is. -/
theorem Directory.isSkipped_of_isIdentifier {excludes : List String} {name : String}
    (h : Text.isIdentifier name = true) :
    isSkipped excludes name = (conventional.contains name || excludes.contains name) := by
  have hdot : '.' ∉ name.toList := fun hmem =>
    absurd (Text.isSeparator_of_isIdentifier h _ hmem) (by decide)
  have hhidden : name.startsWith "." = false := by
    rw [String.startsWith_string_eq_false_iff]
    exact fun hstart => hdot (hstart.subset (by decide))
  have hmetadata : Text.hasEnding name metadataSuffix = false := by
    rw [← Bool.not_eq_true, Text.hasEnding, List.isSuffixOf_iff_suffix]
    exact fun hsuffix => hdot (hsuffix.subset (by decide))
  rw [isSkipped, hhidden, hmetadata, Bool.false_or, Bool.or_false]

namespace Package

variable {disk : Disk} {place name : String}

/-! ## 2. Spelling a name in a place -/

theorem filter_pieces_append_slashes (s : String) (n : Nat) :
    (Path.pieces (s ++ Path.slashes n)).filter Path.isTelling =
      (Path.pieces s).filter Path.isTelling := by
  induction n with
  | zero => rw [show s ++ Path.slashes 0 = s from String.append_empty]
  | succ n ih =>
    have hlast : s ++ Path.slashes (n + 1) = s ++ Path.slashes n ++ "/" := by
      rw [← String.toList_inj]
      simp [Path.slashes, List.replicate_succ']
    rw [hlast, Path.pieces_append_slash, List.filter_append, ih]
    exact List.append_nil _

/-- Without slashes at its end a text has the same components. -/
theorem names_chop (s : String) : (Path.parse (chop s)).names = (Path.parse s).names := by
  obtain ⟨n, hn⟩ := exists_eq_chop_append s
  have hsame := filter_pieces_append_slashes (chop s) n
  rw [← hn] at hsame
  simp only [Path.parse, hsame]

theorem chop_of_endsInPiece (h : Path.EndsInPiece place) : chop place = place := by
  rw [chop, Path.dropEndSlashes_of_endsInPiece h, String.ofList_toList]

/-- In a place that ends in a component a name is spelled as in any directory. -/
theorem inside_eq_join (hplace : Path.EndsInPiece place) (hname : Path.IsComponent name) :
    inside place name = Path.join place name := by
  rw [inside, chop_of_endsInPiece hplace, Path.join_of_endsInPiece hplace hname.not_isAbsolute]

/-- The components of a name in any place are those of the place and the name. -/
theorem names_inside (place : String) {rest : String} :
    (Path.parse (chop place ++ "/" ++ rest)).names =
      (Path.parse place).names ++ (Path.parse rest).names := by
  rw [← names_chop place]
  simp only [Path.parse, Path.pieces_append, List.filter_append]

theorem isAbsolute_inside (h : Path.isAbsolute place = true) (rest : String) :
    Path.isAbsolute (chop place ++ "/" ++ rest) = true := by
  obtain ⟨n, hn⟩ := exists_eq_chop_append place
  rw [Path.isAbsolute_iff] at h ⊢
  rw [String.append_assoc, String.toList_append]
  cases hchop : (chop place).toList with
  | nil => simp
  | cons c cs =>
    rw [hn, String.toList_append, hchop] at h
    exact h

/-- A name in a place is spelled as what a search finds. -/
theorem isLocation_inside (habsolute : Path.isAbsolute place = true)
    (hup : ".." ∉ (Path.parse place).names) (hname : Node.IsName name) :
    Path.IsLocation (inside place name) := by
  have hcomponent := Path.isComponent_of_isName hname
  have hnames : (Path.parse (inside place name)).names = (Path.parse place).names ++ [name] := by
    rw [inside, names_inside, Path.parse_of_isComponent hcomponent]
  refine ⟨isAbsolute_inside habsolute name, ?_, ?_, hcomponent.endsInPiece.append _⟩
  · rw [hnames, List.mem_append, List.mem_singleton, not_or]
    exact ⟨hup, fun heq => hname.2.2.1 heq.symm⟩
  · rw [hnames]
    exact List.append_ne_nil_of_right_ne_nil _ (List.cons_ne_nil _ _)

/-- A name whose path is too long stands for nothing in a directory, since what it could stand for
is looked for at paths that are at least as long. -/
theorem probe_of_long (hname : Path.EndsInPiece name)
    (h : Disk.maxPathBytes < (inside (anchored disk place) name).utf8ByteSize) :
    (Finder.ofDirectory disk place).probe name = .nothing := by
  have hfile : ∀ path : String,
      (inside (anchored disk place) name).utf8ByteSize ≤ path.utf8ByteSize →
      ¬disk.isFile path = true := by
    intro path hle hfile
    obtain ⟨content, hnode⟩ := Disk.isFile_iff.1 hfile
    exact Disk.node_of_long (h.trans_le hle) _ hnode
  have hsettles : ¬(Finder.ofDirectory disk place).Settles name := by
    rintro ⟨suffix, -, hheld⟩
    rw [Finder.isFile_ofDirectory, Finder.place_ofDirectory] at hheld
    rcases hheld with hinitial | hmodule
    · -- An initial file has a longer path than the directory in which it lies.
      refine hfile _ ?_ hinitial
      have hends : Path.EndsInPiece (inside (anchored disk place) name) := hname.append _
      generalize inside (anchored disk place) name = location at hends ⊢
      rw [inside, chop_of_endsInPiece hends, String.utf8ByteSize_append,
        String.utf8ByteSize_append]
      omega
    · -- So has a module, which is spelled by the name and a suffix.
      refine hfile _ ?_ hmodule
      simp only [inside, String.utf8ByteSize_append]
      omega
  have hdirectory : ¬(Finder.ofDirectory disk place).HoldsDirectory name := by
    rw [Finder.HoldsDirectory, Finder.isDirectory_ofDirectory, Finder.place_ofDirectory,
      Disk.isDirectory_iff]
    rintro ⟨entries, hnode⟩
    exact Disk.node_of_long h _ hnode
  rw [Finder.probe_of_not_settles hsettles, if_neg hdirectory]

/-! ## 3. What a search finds -/

/-- A name with a module suffix is the name of an entry. -/
theorem isName_moduleFile (hname : Node.IsName name) :
    ∀ suffix ∈ moduleSuffixes, Node.IsName (name ++ suffix) := by
  have hsuffixes : ∀ suffix ∈ moduleSuffixes,
      3 ≤ suffix.length ∧ '/' ∉ suffix.toList ∧ '\x00' ∉ suffix.toList := by
    decide
  intro suffix hsuffix
  obtain ⟨-, -, -, hslash, hnull⟩ := hname
  obtain ⟨hlength, hslash', hnull'⟩ := hsuffixes suffix hsuffix
  have hne : ∀ s : String, s.length < 3 → name ++ suffix ≠ s := by
    rintro s hs rfl
    rw [String.length_append] at hs
    omega
  refine ⟨hne "" (by decide), hne "." (by decide), hne ".." (by decide), ?_, ?_⟩
  · rw [String.toList_append, List.mem_append, not_or]
    exact ⟨hslash, hslash'⟩
  · rw [String.toList_append, List.mem_append, not_or]
    exact ⟨hnull, hnull'⟩

/-- A place that a search has found: a directory, spelled as such places are. -/
structure IsPlace (disk : Disk) (location : String) : Prop extends Path.IsLocation location where
  list : ∃ entries, disk.list location = .ok entries

/-- A place that a search has found is in no archive. -/
theorem IsPlace.archive?_eq_none {location : String} (h : IsPlace disk location) :
    disk.archive? (entry disk location) = none := by
  obtain ⟨entries, hlist⟩ := h.list
  rw [entry_of_head (Path.isAbsolute_iff.1 h.absolute)]
  exact Disk.archive?_of_isDirectory
    (Disk.isDirectory_iff.2 ⟨entries, Disk.list_eq_ok_iff.1 hlist⟩)

/-- A place leads to where the directory lies. -/
theorem IsPlace.exists_resolve {location : String} (h : IsPlace disk location) :
    ∃ home, disk.resolve location = .ok home := by
  obtain ⟨entries, hlist⟩ := h.list
  obtain ⟨home, hresolve, -⟩ := Disk.node_eq_ok_iff.1 (Disk.list_eq_ok_iff.1 hlist)
  exact ⟨home, hresolve⟩

/-- A module that a search has found: a regular file, spelled as such places are. -/
structure IsModuleFile (disk : Disk) (origin : String) : Prop extends Path.IsLocation origin where
  isFile : disk.isFile origin = true

/-- Is what an identifier stands for in one place there, and spelled as what a search finds? -/
def Hit.IsThere (disk : Disk) : Hit → Prop
  | package location => IsPlace disk location
  | module origin => IsModuleFile disk origin
  | portion location => IsPlace disk location
  | nothing => True

/-- Is what a search has found there, and spelled as such places are? -/
def Found.IsThere (disk : Disk) : Found → Prop
  | package location => IsPlace disk location
  | module origin => IsModuleFile disk origin
  | portions locations => ∀ location ∈ locations, IsPlace disk location

/-- The search goes on in places. -/
theorem Found.IsThere.isPlace {found : Found} (h : found.IsThere disk) :
    ∀ location ∈ found.locations, IsPlace disk location := by
  cases found with
  | package location => exact List.forall_mem_singleton.2 h
  | module origin => exact List.forall_mem_nil _
  | portions locations => exact h

/-- What a name stands for in a directory that is spelled without parent components is there. -/
theorem isThere_of_probe (habsolute : Path.isAbsolute (anchored disk place) = true)
    (hup : ".." ∉ (Path.parse (anchored disk place)).names) (hname : Node.IsName name) {hit : Hit}
    (h : (Finder.ofDirectory disk place).probe name = hit) : hit.IsThere disk := by
  have hlocation := isLocation_inside habsolute hup hname
  rw [Finder.probe_eq, Finder.place_ofDirectory, Finder.isFile_ofDirectory] at h
  by_cases hinitial : (Finder.ofDirectory disk place).hasInitialFile name = true
  · -- The initial file lies in the directory.
    rw [if_pos hinitial] at h
    subst h
    obtain ⟨suffix, hsuffix, hfile⟩ := List.any_eq_true.1 hinitial
    have hinit : Node.IsName ("__init__" ++ suffix) :=
      isName_moduleFile (by decide) suffix hsuffix
    rw [Finder.isFile_ofDirectory, Finder.place_ofDirectory,
      inside_eq_join hlocation.endsInPiece (Path.isComponent_of_isName hinit)] at hfile
    obtain ⟨content, hnode⟩ := Disk.isFile_iff.1 hfile
    exact ⟨hlocation, Disk.exists_list_of_node_join hlocation.endsInPiece hinit hnode⟩
  rw [if_neg hinitial] at h
  cases horigin : ((Finder.ofDirectory disk place).moduleFiles name).find? disk.isFile with
  | some origin =>
    rw [horigin] at h
    subst h
    obtain ⟨suffix, hsuffix, rfl⟩ := List.mem_map.1 (List.mem_of_find?_eq_some horigin)
    have hfile := isName_moduleFile hname suffix hsuffix
    exact ⟨isLocation_inside habsolute hup hfile, List.find?_some horigin⟩
  | none =>
    rw [horigin] at h
    dsimp only at h
    by_cases hdirectory : (Finder.ofDirectory disk place).HoldsDirectory name
    · rw [if_pos hdirectory] at h
      subst h
      rw [Finder.HoldsDirectory, Finder.isDirectory_ofDirectory, Finder.place_ofDirectory,
        Disk.isDirectory_iff] at hdirectory
      obtain ⟨entries, hnode⟩ := hdirectory
      exact ⟨hlocation, entries, Disk.list_eq_ok_iff.2 hnode⟩
    · rw [if_neg hdirectory] at h
      subst h
      trivial

/-- The places to which an identifier leads in one place. Further identifiers are looked up
there. -/
def Hit.locations : Hit → List String
  | package location => [location]
  | portion location => [location]
  | _ => []

theorem Hit.IsThere.isPlace {hit : Hit} (h : hit.IsThere disk) :
    ∀ location ∈ hit.locations, IsPlace disk location := by
  cases hit with
  | package location => exact List.forall_mem_singleton.2 h
  | portion location => exact List.forall_mem_singleton.2 h
  | module origin => exact List.forall_mem_nil _
  | nothing => exact List.forall_mem_nil _

/-- A search goes on where one of its places leads to. -/
theorem Found.MetIn.exists_hit {places : List String} {found : Found}
    (h : found.MetIn disk name places) :
    ∀ location ∈ found.locations, ∃ place ∈ places, ∃ hit,
      probeAt disk name place = .ok hit ∧ location ∈ hit.locations := by
  intro location hlocation
  cases h with
  | package hplace hprobe => exact ⟨_, hplace, _, hprobe, hlocation⟩
  | module hplace hprobe => cases hlocation
  | portions hmet =>
    obtain ⟨place, hplace, hprobe⟩ := hmet location hlocation
    exact ⟨place, hplace, _, hprobe, List.mem_singleton_self location⟩

/-- What a search finds stands in places that have all that its first places have, if it is handed
down from a place to those in it. -/
theorem metIn_of_locateFrom {P : String → Prop} {whole base : String} {done todo : List String}
    {found next : Found} (htodo : ∀ name ∈ todo, Text.isIdentifier name = true) (hne : todo ≠ [])
    (hkept : ∀ place name hit, P place → Text.isIdentifier name = true →
      probeAt disk name place = .ok hit → ∀ location ∈ hit.locations, P location)
    (hplaces : ∀ place ∈ found.locations, P place)
    (h : locateFrom disk whole base done found todo = .ok next) :
    ∃ name places, Text.isIdentifier name = true ∧ (∀ place ∈ places, P place) ∧
      next.MetIn disk name places := by
  induction todo generalizing done found with
  | nil => exact absurd rfl hne
  | cons name rest ih =>
    obtain ⟨first, hfirst, hrest⟩ := exists_step_of_locateFrom_cons h
    obtain ⟨hname, htodo⟩ := List.forall_mem_cons.1 htodo
    have hmet : first.MetIn disk name found.locations := metIn_of_lookUp (lookUp_of_step hfirst)
    by_cases hnil : rest = []
    · subst hnil
      obtain rfl : first = next := Except.ok.inj hrest
      exact ⟨name, found.locations, hname, hplaces, hmet⟩
    · refine ih htodo hnil (fun location hlocation => ?_) hrest
      obtain ⟨place, hplace, hit, hprobe, hmem⟩ := hmet.exists_hit location hlocation
      exact hkept place name hit (hplaces place hplace) hname hprobe location hmem

/-- A place on a search path that is spelled without parent components and leads into no archive. -/
structure IsPlain (disk : Disk) (place : String) : Prop where
  noParents : ".." ∉ (Path.parse place).names
  outside : disk.archive? (entry disk place) = none

section

variable (hhere : ∀ name ∈ disk.here, Node.IsName name)

include hhere

/-- The absolute spelling of a place on the search path has its parent components and no others. -/
theorem anchored_of_noParents (hplace : ".." ∉ (Path.parse place).names) :
    Path.isAbsolute (anchored disk place) = true ∧
      ".." ∉ (Path.parse (anchored disk place)).names := by
  unfold anchored
  split
  · exact ⟨Disk.isAbsolute_cwd hhere, Disk.noParents_cwd hhere⟩
  split
  · rename_i habsolute
    exact ⟨habsolute, hplace⟩
  · refine ⟨isAbsolute_inside (Disk.isAbsolute_cwd hhere) _, ?_⟩
    rw [names_inside, names_chop, List.mem_append, not_or]
    exact ⟨Disk.noParents_cwd hhere, hplace⟩

/-- What an identifier stands for in a plain place is there. -/
theorem isThere_of_probeAt (hplace : IsPlain disk place) (hname : Text.isIdentifier name = true)
    {hit : Hit} (h : probeAt disk name place = .ok hit) : hit.IsThere disk := by
  obtain ⟨habsolute, hup⟩ := anchored_of_noParents hhere hplace.noParents
  rcases eq_of_probeAt h with rfl | ⟨finder, hfinder, hprobe⟩
  · trivial
  · rcases eq_of_finder? hfinder with ⟨archive, harchive, -⟩ | ⟨-, rfl⟩
    · rw [hplace.outside] at harchive
      cases harchive
    · exact isThere_of_probe habsolute hup (Text.isName_of_isIdentifier hname) hprobe.symm

/-- What a search finds is there, if there are no parent components on the search path, and nothing
on it leads into an archive. -/
theorem isThere_of_locate {search : List String} {base : String} {spec : Specifier} {found : Found}
    (hsearch : ∀ place ∈ search, ".." ∉ (Path.parse place).names)
    (houtside : ∀ place ∈ Path.absolute disk.cwd base :: search,
      disk.archive? (entry disk place) = none)
    (hspec : spec.WellSpelled) (h : locate disk search base spec = .ok found) :
    found.IsThere disk := by
  have hup : ∀ place ∈ Path.absolute disk.cwd base :: search, ".." ∉ (Path.parse place).names :=
    List.forall_mem_cons.2 ⟨(Path.noParents_absolute (Disk.isAbsolute_cwd hhere) base).2, hsearch⟩
  have hfirst : ∀ place ∈ (Found.portions (Path.absolute disk.cwd base :: search)).locations,
      IsPlain disk place := fun place hplace => ⟨hup place hplace, houtside place hplace⟩
  -- What is found in a place is a directory, so further identifiers are looked up in directories.
  have hkept : ∀ place name hit, IsPlain disk place → Text.isIdentifier name = true →
      probeAt disk name place = .ok hit → ∀ location ∈ hit.locations, IsPlain disk location := by
    intro place name hit hplace hname hprobe location hlocation
    have hat := (isThere_of_probeAt hhere hplace hname hprobe).isPlace location hlocation
    exact ⟨hat.noParents, hat.archive?_eq_none⟩
  obtain ⟨name, places, hname, hplaces, hmet⟩ := metIn_of_locateFrom hspec.identifiers
    hspec.nonempty hkept hfirst h
  cases hmet with
  | package hplace hprobe => exact isThere_of_probeAt hhere (hplaces _ hplace) hname hprobe
  | module hplace hprobe => exact isThere_of_probeAt hhere (hplaces _ hplace) hname hprobe
  | portions hmet =>
    intro location hlocation
    obtain ⟨place, hplace, hprobe⟩ := hmet location hlocation
    exact isThere_of_probeAt hhere (hplaces place hplace) hname hprobe

end

/-! ## 4. Going down along packages -/

variable {whole base : String} {done : List String} {found next : Found}

/-- The identifiers of a search can be taken in two parts. -/
theorem locateFrom_append {before : List String}
    (h : locateFrom disk whole base done found before = .ok next) (after : List String) :
    locateFrom disk whole base done found (before ++ after) =
      locateFrom disk whole base (done ++ before) next after := by
  induction before generalizing done found with
  | nil =>
    obtain rfl : found = next := Except.ok.inj h
    rw [List.nil_append, List.append_nil]
  | cons name rest ih =>
    obtain ⟨first, hfirst, hrest⟩ := exists_step_of_locateFrom_cons h
    rw [List.cons_append, locateFrom_cons_of_step hfirst, ih hrest, ← List.append_cons]

/-- An identifier inside a place is a package when there is an initial file. -/
theorem step_of_initial {location : String} (hlocation : Path.IsLocation location)
    (hname : Text.isIdentifier name = true)
    (hinitial : disk.isFile (Path.join (Path.join location name) "__init__.py") = true)
    (done rest : List String) :
    step disk done name (location :: rest) = .ok (some (.package (Path.join location name))) := by
  have hinit : Node.IsName "__init__.py" := by decide
  have hentry := Text.isName_of_isIdentifier hname
  have hcomponent := Path.isComponent_of_isName hentry
  have hbelow : Path.EndsInPiece (Path.join location name) := hcomponent.endsInPiece.join location
  obtain ⟨content, hfile⟩ := Disk.isFile_iff.1 hinitial
  -- Both directories exist because the initial file does.
  obtain ⟨inner, hinner⟩ := Disk.exists_list_of_node_join hbelow hinit hfile
  rw [Disk.list_eq_ok_iff] at hinner
  obtain ⟨outer, houter⟩ := Disk.exists_list_of_node_join hlocation.endsInPiece hentry hinner
  rw [Disk.list_eq_ok_iff] at houter
  have hprobe : disk.isFile (inside (inside location name) "__init__.py") = true →
      probeAt disk name location = .ok (.package (inside location name)) :=
    probeAt_of_initial (Path.isAbsolute_iff.1 hlocation.absolute)
      (Disk.isDirectory_iff.2 ⟨outer, houter⟩)
  rw [inside_eq_join hlocation.endsInPiece hcomponent,
    inside_eq_join hbelow (Path.isComponent_of_isName hinit)] at hprobe
  rw [step, lookUp_cons_package (hprobe hinitial)]

/-- A search goes down along the names of packages with initial files, whatever else there is. -/
theorem locateFrom_of_initial {location : String} {others names : List String}
    (hlocation : Path.IsLocation location) (hfound : found.locations = location :: others)
    (hnames : ∀ name ∈ names, Text.isIdentifier name = true) (hne : names ≠ [])
    (hinitial : ∀ upper, upper <+: names → upper ≠ [] →
      disk.isFile (Path.join (Directory.descend location upper) "__init__.py") = true) :
    locateFrom disk whole base done found names =
      .ok (.package (Directory.descend location names)) := by
  induction names generalizing location others done found with
  | nil => exact absurd rfl hne
  | cons name rest ih =>
    obtain ⟨hname, hrest⟩ := List.forall_mem_cons.1 hnames
    have hfirst := hinitial [name] (List.prefix_append [name] rest) (List.cons_ne_nil _ _)
    have hstep := step_of_initial hlocation hname hfirst done others
    rw [← hfound] at hstep
    rw [locateFrom_cons_of_step hstep]
    by_cases hnil : rest = []
    · subst hnil
      rfl
    · have hbelow : Path.IsLocation (Path.join location name) :=
        hlocation.descend (List.forall_mem_singleton.2 (Text.isName_of_isIdentifier hname))
      refine ih hbelow rfl hrest hnil fun upper hupper _ => ?_
      exact hinitial (name :: upper) (List.cons_prefix_cons.2 ⟨rfl, hupper⟩) (List.cons_ne_nil _ _)

end Package

end LintFront
