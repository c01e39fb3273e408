import LintFront.Proofs.Package.Places
/-!
# What is found in archives

A search goes into an archive as it goes into a directory, and what it finds there it spells as if
the archive were one. For the disk the archive is a file, and below a file there is nothing: no path
leads to what was found, neither as the search has spelled it nor as it is shown. So of all places
that a search finds a walk can begin in those only that lie in no archive.

What is shown may be spelled from the working directory, while the archive was reached from the
root, or the other way round. The proof that it leads nowhere compares the two ways from the root.

## Main statements

`Package.isPlace_or_isStored_of_locate`: a place that a search finds is a directory or lies in an
archive. `Package.IsStored.node_display_ne_ok`: nothing is found where a place in an archive is
shown to be.
-/

namespace LintFront

variable {disk : Disk} {path : String}

/-! ## 1. Below a file, as it is shown -/

namespace Disk

section

variable {entries : Entries Node} (hhere : ∀ name ∈ disk.here, Node.IsName name)
  (hcwd : disk.root.at? disk.here = some (.directory entries))

include hhere

theorem isLocation_absolute (hup : ".." ∉ (Path.parse path).names)
    (hne : (Path.parse path).names ≠ []) : Path.IsLocation (Path.absolute disk.cwd path) := by
  obtain ⟨habsolute, hno⟩ := Path.noParents_absolute (isAbsolute_cwd hhere) path
  have hnames : (Path.parse (Path.absolute disk.cwd path)).names ≠ [] := by
    rw [Path.parse_absolute (noParents_cwd hhere) hup]
    split
    · exact hne
    · exact List.append_ne_nil_of_right_ne_nil _ hne
  refine ⟨habsolute, hno, hnames, ?_⟩
  rw [← Path.tidy_absolute]
  exact Path.endsInPiece_text (Path.wellSpelled_parse _).components hnames

/-- A path is shown as its absolute spelling is. -/
theorem display_absolute (path : String) :
    disk.display (Path.absolute disk.cwd path) = disk.display path := by
  obtain ⟨habsolute, hup⟩ := Path.noParents_absolute (isAbsolute_cwd hhere) path
  rw [display, display, Path.absolute_of_isAbsolute habsolute hup, Path.tidy_absolute]

include hcwd

/-- What is reached from the root through the working directory is reached from there. -/
theorem follow_here_of_follow {links : Nat} {names target : List String}
    (h : follow disk.root links [] (disk.here ++ names) = .ok target) :
    follow disk.root links disk.here names = .ok target := by
  have hlink := Node.directory_ne_link entries
  have hentry := isEntryName_of_follow hhere hcwd hlink h
  rwa [follow_names_append hentry hcwd hlink] at h

/-- The names that lead from the root to a file do not lead to the working directory, however they
go on. -/
theorem names_append_ne_here {links : Nat} {names home : List String} {content : ByteArray}
    (hfile : follow disk.root links [] names = .ok home)
    (hat : disk.root.at? home = some (.file content)) (rest : List String) :
    names ++ rest ≠ disk.here := by
  intro heq
  -- What lies on the way to the working directory is a directory.
  obtain ⟨listed, hlisted⟩ : ∃ listed, disk.root.at? names = some (.directory listed) := by
    cases rest with
    | nil => exact ⟨entries, by rwa [← heq, List.append_nil] at hcwd⟩
    | cons name after =>
      rw [← heq] at hcwd
      obtain ⟨listed, -, hlisted, -⟩ := exists_entry_of_at? hcwd (Node.directory_ne_link entries)
      exact ⟨listed, hlisted⟩
  have hnames : ∀ name ∈ names, Node.IsName name :=
    fun name hname => hhere name (heq ▸ List.mem_append_left rest hname)
  have hlink := Node.directory_ne_link listed
  have hentry : ∀ name ∈ names, IsEntryName name := by
    rw [← List.append_nil names] at hfile
    exact isEntryName_of_follow hnames hlisted hlink hfile
  have hhome := follow_of_at? hentry (show disk.root.at? ([] ++ names) = _ from hlisted) hlink links
  obtain rfl : names = home := Except.ok.inj (hhome.symm.trans hfile)
  rw [hlisted] at hat
  cases hat

/-- Nothing is found where a path below a file is shown to lead. -/
theorem node_display_ne_ok (hup : ".." ∉ (Path.parse path).names) {rest : List String}
    (hrest : rest ≠ []) (h : disk.IsAtFile path rest) (node : Node) :
    disk.node (disk.display path) ≠ .ok node := by
  intro hnode
  obtain ⟨file, content, hfile, hsame, hnames⟩ := h
  obtain ⟨home, hhome, hat⟩ := node_eq_ok_iff.1 hfile
  obtain ⟨target, hshown, -⟩ := node_eq_ok_iff.1 hnode
  have hway := follow_names_of_resolve hhome
  have hfound := follow_names_of_resolve hshown
  have hlocation : Path.IsLocation (Path.absolute disk.cwd path) :=
    isLocation_absolute hhere hup (hnames ▸ List.append_ne_nil_of_right_ne_nil _ hrest)
  have hparse := Path.parse_absolute (noParents_cwd hhere) hup
  rw [← display_absolute hhere] at hfound
  rw [start, ← hsame] at hway
  by_cases habsolute : Path.isAbsolute path = true
  · rw [if_pos habsolute] at hway hparse
    by_cases hwithin : disk.IsWithin (Path.absolute disk.cwd path)
    · -- The path is shown from the working directory, and leads to the file from the root.
      obtain ⟨rel, hrel⟩ := hwithin.exists_names hhere
      rw [parse_display_of_isWithin hhere hlocation hwithin hrel, start,
        if_neg (not_isAbsolute_display hhere hlocation hwithin)] at hfound
      rw [hparse, hnames] at hrel
      rcases List.append_eq_append_iff.1 hrel with ⟨after, heq, -⟩ | ⟨inner, heq, rfl⟩
      · exact names_append_ne_here hhere hcwd hway hat after heq.symm
      · rw [heq] at hway
        exact follow_append_ne_ok (follow_here_of_follow hhere hcwd hway) hat hrest _ hfound
    · rw [display_of_not_isWithin hlocation hwithin, start_tidy, start, if_pos hlocation.absolute,
        Path.parse_tidy, hparse, hnames] at hfound
      exact follow_append_ne_ok hway hat hrest _ hfound
  · rw [if_neg habsolute] at hway hparse
    have hgone : ¬follow disk.root maxLinks disk.here (Path.parse path).names = .ok target := by
      rw [hnames]
      exact follow_append_ne_ok hway hat hrest _
    have hwhole : (Path.parse (Path.absolute disk.cwd path)).names =
        disk.here ++ (Path.parse path).names := by
      rw [hparse, parse_cwd hhere]
    by_cases hwithin : disk.IsWithin (Path.absolute disk.cwd path)
    · rw [parse_display_of_isWithin hhere hlocation hwithin hwhole, start,
        if_neg (not_isAbsolute_display hhere hlocation hwithin)] at hfound
      exact hgone hfound
    · -- The path is shown from the root, and leads to the file from the working directory.
      rw [display_of_not_isWithin hlocation hwithin, start_tidy, start, if_pos hlocation.absolute,
        Path.parse_tidy, hwhole] at hfound
      exact hgone (follow_here_of_follow hhere hcwd hfound)

end

end Disk

/-! ## 2. What a search finds -/

namespace Package

variable {name place location : String}

/-- A place in an archive that a search has found: it lies below a file, and is spelled without
parent components. -/
structure IsStored (disk : Disk) (location : String) : Prop where
  noParents : ".." ∉ (Path.parse location).names
  below : ∃ rest, rest ≠ [] ∧ disk.IsAtFile location rest

/-- An identifier leads to the place of its name. -/
theorem Finder.eq_inside_of_mem_locations {finder : Finder}
    (h : location ∈ (finder.probe name).locations) : location = inside finder.place name := by
  by_cases hsettles : finder.Settles name
  · rcases probe_of_settles hsettles with hprobe | ⟨origin, -, hprobe⟩
    · rw [hprobe] at h
      exact List.mem_singleton.1 h
    · rw [hprobe] at h
      cases h
  · rw [probe_of_not_settles hsettles] at h
    split at h
    · exact List.mem_singleton.1 h
    · cases h

/-- What stands in an archive lies below a file. -/
theorem isAtFile_inside (hname : Node.IsName name) {rest : List String} (hne : place ≠ "")
    (h : disk.IsAtFile place rest) : disk.IsAtFile (inside place name) (rest ++ [name]) := by
  obtain ⟨file, content, hnode, hsame, hnames⟩ := h
  have habsolute : Path.isAbsolute (inside place name) = Path.isAbsolute place := by
    obtain ⟨n, hn⟩ := exists_eq_chop_append place
    by_cases hchop : chop place = ""
    · -- A place of slashes only is absolute, and so is what is spelled in it.
      rw [inside, hchop]
      cases n with
      | zero => exact absurd (by rw [hn, hchop]; rfl) hne
      | succ n =>
        rw [hn, hchop, Bool.eq_iff_iff, Path.isAbsolute_iff, Path.isAbsolute_iff]
        simp [Path.slashes, List.replicate_succ]
    · rw [inside, String.append_assoc, Disk.isAbsolute_append hchop]
      conv_rhs => rw [hn, Disk.isAbsolute_append hchop]
  refine ⟨file, content, hnode, habsolute.trans hsame, ?_⟩
  rw [inside, names_inside, Path.parse_of_isComponent (Path.isComponent_of_isName hname), hnames,
    List.append_assoc]

section

variable (hhere : ∀ name ∈ disk.here, Node.IsName name)

include hhere

/-- Where an identifier leads to is a directory or lies in an archive. -/
theorem isPlace_or_isStored_of_probeAt (hplace : ".." ∉ (Path.parse place).names)
    (hname : Text.isIdentifier name = true) {hit : Hit} (h : probeAt disk name place = .ok hit) :
    ∀ location ∈ hit.locations, IsPlace disk location ∨ IsStored disk location := by
  intro location hlocation
  rcases eq_of_probeAt h with rfl | ⟨finder, hfinder, rfl⟩
  · cases hlocation
  obtain rfl := Finder.eq_inside_of_mem_locations hlocation
  rcases eq_of_finder? hfinder with ⟨archive, harchive, rfl⟩ | ⟨hnone, -⟩
  · right
    obtain ⟨⟨rest, file, content, hnode, hsame, hway⟩, hne, habsolute, hnames⟩ :=
      Disk.isAtFile_of_archive? harchive
    have hat : disk.IsAtFile archive.place rest :=
      ⟨file, content, hnode, habsolute.trans hsame, hnames.trans hway⟩
    have hentry := Text.isName_of_isIdentifier hname
    have hup : ".." ∉ (Path.parse (entry disk place)).names := by
      rw [entry]
      split
      · exact Disk.noParents_cwd hhere
      · exact hplace
    refine ⟨?_, _, List.append_ne_nil_of_right_ne_nil _ (List.cons_ne_nil _ _),
      isAtFile_inside hentry hne hat⟩
    rw [inside, names_inside, Finder.place_ofArchive, hnames,
      Path.parse_of_isComponent (Path.isComponent_of_isName hentry), List.mem_append,
      List.mem_singleton, not_or]
    exact ⟨hup, fun heq => hentry.2.2.1 heq.symm⟩
  · exact .inl ((isThere_of_probeAt hhere ⟨hplace, hnone⟩ hname h).isPlace _ hlocation)

/-- A place that a search finds is a directory or lies in an archive, if there are no parent
components on the search path. -/
theorem isPlace_or_isStored_of_locate {search : List String} {base : String} {spec : Specifier}
    {found : Found} (hsearch : ∀ place ∈ search, ".." ∉ (Path.parse place).names)
    (hspec : spec.WellSpelled) (h : locate disk search base spec = .ok found) :
    ∀ location ∈ found.locations, IsPlace disk location ∨ IsStored disk location := by
  have hfirst : ∀ place ∈ (Found.portions (Path.absolute disk.cwd base :: search)).locations,
      ".." ∉ (Path.parse place).names :=
    List.forall_mem_cons.2 ⟨(Path.noParents_absolute (Disk.isAbsolute_cwd hhere) base).2, hsearch⟩
  have hkept : ∀ place name hit, ".." ∉ (Path.parse place).names →
      Text.isIdentifier name = true → probeAt disk name place = .ok hit →
      ∀ location ∈ hit.locations, ".." ∉ (Path.parse location).names := by
    intro place name hit hplace hname hprobe location hlocation
    exact (isPlace_or_isStored_of_probeAt hhere hplace hname hprobe location hlocation).elim
      (fun h => h.noParents) fun h => h.noParents
  obtain ⟨name, places, hname, hplaces, hmet⟩ :=
    metIn_of_locateFrom hspec.identifiers hspec.nonempty hkept hfirst h
  intro location hlocation
  obtain ⟨place, hplace, hit, hprobe, hmem⟩ := hmet.exists_hit location hlocation
  exact isPlace_or_isStored_of_probeAt hhere (hplaces place hplace) hname hprobe location hmem

variable {entries : Entries Node} (hcwd : disk.root.at? disk.here = some (.directory entries))

/-- What lies in an archive is shown without parent components. -/
theorem IsStored.noParents_display (h : IsStored disk location) :
    ".." ∉ (Path.parse (disk.display location)).names := by
  obtain ⟨rest, hrest, file, content, -, -, hnames⟩ := h.below
  rw [← Disk.display_absolute hhere]
  exact Disk.noParents_display hhere (Disk.isLocation_absolute hhere h.noParents
    (hnames ▸ List.append_ne_nil_of_right_ne_nil _ hrest))

include hcwd

/-- Nothing is found where a place in an archive is shown to be. -/
theorem IsStored.node_display_ne_ok (h : IsStored disk location) (node : Node) :
    disk.node (disk.display location) ≠ .ok node := by
  obtain ⟨rest, hrest, hat⟩ := h.below
  exact Disk.node_display_ne_ok hhere hcwd h.noParents hrest hat node

end

end Package

end LintFront
