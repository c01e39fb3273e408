import LintFront.FileTree.Archive
import LintFront.Proofs.FileTree.Access
import LintFront.Proofs.FileTree.Continuation
/-!
# Paths into archives

A path leads into an archive where a beginning of it names a file whose list of members can be
read. So a path that names a directory leads into no archive. And a place in an archive is no place
for the operating system: below a file there is nothing, and what is spelled there leads nowhere.

## Main statements

`Disk.archive?_of_isDirectory`: a directory is in no archive. `Disk.isAtFile_of_archive?`: how a
path into an archive is spelled. `Disk.follow_append_ne_ok`: nothing is found below a file.
-/

namespace LintFront.Disk

variable {disk : Disk} {path : String} {archive : Archive}

/-- A directory is in no archive. -/
theorem archive?_of_isDirectory (h : disk.isDirectory path = true) : disk.archive? path = none := by
  obtain ⟨entries, hnode⟩ := isDirectory_iff.1 h
  rw [archive?]
  cases hpieces : (Path.pieces path).reverse with
  | nil => rfl
  | cons last above =>
    have hwhole : "/".intercalate (last :: above).reverse = path := by
      rw [← hpieces, List.reverse_reverse, Path.intercalate_pieces]
    rw [archiveAbove?, hwhole, hnode]

/-- What a path into an archive is made of: the path of the archive, and the pieces after it. -/
structure LeadsInto (disk : Disk) (upper below : List String) (archive : Archive) : Prop where
  names : ∃ content names, disk.node ("/".intercalate upper) = .ok (.file content) ∧
    Archive.names? content.data.toList = some names ∧
    archive.members = names.map fun name => "/".intercalate upper ++ "/" ++ name
  place : archive.place = "/".intercalate ("/".intercalate upper :: below.filter (· ≠ ""))

theorem exists_of_archiveAbove? {pieces inner : List String}
    (h : disk.archiveAbove? pieces inner = some archive) :
    ∃ upper below, pieces.reverse ++ inner = upper ++ below ∧
      disk.LeadsInto upper below archive := by
  -- What is taken off the end of the path is put before the place, so both together stay the same.
  induction pieces generalizing inner with
  | nil => cases h
  | cons last above ih =>
    rw [archiveAbove?] at h
    split at h
    · obtain ⟨upper, below, hsplit, hleads⟩ := ih h
      refine ⟨upper, below, ?_, hleads⟩
      rw [← hsplit, List.reverse_cons, List.append_assoc]
      rfl
    · rename_i content hnode
      obtain ⟨names, hnames, rfl⟩ := Option.map_eq_some_iff.1 h
      exact ⟨(last :: above).reverse, inner, rfl, ⟨content, names, hnode, hnames, rfl⟩, rfl⟩
    · cases h

/-- The pieces of a path into an archive are those of the path of the archive and others. -/
theorem exists_of_archive? (h : disk.archive? path = some archive) :
    ∃ upper below, Path.pieces path = upper ++ below ∧ disk.LeadsInto upper below archive := by
  obtain ⟨upper, below, hsplit, hleads⟩ := exists_of_archiveAbove? h
  rw [List.reverse_reverse, List.append_nil] at hsplit
  exact ⟨upper, below, hsplit, hleads⟩

/-- The members of an archive are spelled without null characters. -/
theorem nullFree_of_holds (h : disk.archive? path = some archive) {member : String}
    (hmember : archive.holds member = true) : Path.NullFree member := by
  obtain ⟨upper, below, -, ⟨content, names, hnode, hnames, hmembers⟩, -⟩ := exists_of_archive? h
  rw [Archive.holds, hmembers, List.contains_iff_mem] at hmember
  obtain ⟨name, hname, rfl⟩ := List.mem_map.1 hmember
  have hfree : Path.NullFree name := Archive.notMem_of_names? hnames name hname
  exact Path.nullFree_append.2 ⟨Path.nullFree_append.2 ⟨nullFree_of_node hnode, by decide⟩, hfree⟩

/-! ## 2. Spelling a place in an archive -/

/-- A path that begins as a path of a file, and has the components `rest` after those of the
file. -/
def IsAtFile (disk : Disk) (path : String) (rest : List String) : Prop :=
  ∃ file content, disk.node file = .ok (.file content) ∧
    Path.isAbsolute path = Path.isAbsolute file ∧
    (Path.parse path).names = (Path.parse file).names ++ rest

/-- What is put after a path does not change whether it is absolute. -/
theorem isAbsolute_append {s : String} (h : s ≠ "") (rest : String) :
    Path.isAbsolute (s ++ rest) = Path.isAbsolute s := by
  rw [Bool.eq_iff_iff, Path.isAbsolute_iff, Path.isAbsolute_iff, String.toList_append]
  cases hs : s.toList with
  | nil => exact absurd (String.toList_eq_nil_iff.1 hs) h
  | cons c cs => rfl

theorem pieces_intercalate_cons (s : String) {names : List String}
    (h : ∀ name ∈ names, '/' ∉ name.toList) :
    Path.pieces ("/".intercalate (s :: names)) = Path.pieces s ++ names := by
  cases names with
  | nil => rw [String.intercalate_singleton, List.append_nil]
  | cons name rest =>
    rw [String.intercalate_cons_cons, Path.pieces_append,
      Path.pieces_intercalate h (List.cons_ne_nil _ _)]

namespace LeadsInto

variable {upper below : List String} (h : disk.LeadsInto upper below archive)

include h

theorem intercalate_ne_empty : "/".intercalate upper ≠ "" := by
  intro hempty
  obtain ⟨content, names, hnode, -, -⟩ := h.names
  obtain ⟨place, hresolve, -⟩ := node_eq_ok_iff.1 hnode
  exact (resolve_eq_ok_iff.1 hresolve).2.1 hempty

theorem ne_nil : upper ≠ [] := by
  rintro rfl
  exact h.intercalate_ne_empty rfl

theorem place_ne_empty : archive.place ≠ "" := by
  intro hempty
  rw [h.place] at hempty
  cases hinner : below.filter (· ≠ "") with
  | nil =>
    rw [hinner, String.intercalate_singleton] at hempty
    exact h.intercalate_ne_empty hempty
  | cons name rest =>
    rw [hinner, String.intercalate_cons_cons, String.append_assoc] at hempty
    exact h.intercalate_ne_empty (String.append_eq_empty_iff.1 hempty).1

/-- A place in an archive is absolute if the path of the archive is. -/
theorem isAbsolute_place :
    Path.isAbsolute archive.place = Path.isAbsolute ("/".intercalate upper) := by
  rw [h.place]
  cases below.filter (· ≠ "") with
  | nil => rw [String.intercalate_singleton]
  | cons name rest =>
    rw [String.intercalate_cons_cons, String.append_assoc, isAbsolute_append h.intercalate_ne_empty]

/-- The components of a place in an archive are those of the archive and those after it. -/
theorem names_place (hbelow : ∀ piece ∈ below, '/' ∉ piece.toList) :
    (Path.parse archive.place).names =
      (Path.parse ("/".intercalate upper)).names ++ below.filter Path.isTelling := by
  have hinner : ∀ piece ∈ below.filter (· ≠ ""), '/' ∉ piece.toList :=
    fun piece hpiece => hbelow piece (List.mem_of_mem_filter hpiece)
  -- The empty pieces were left out before, and no component is empty.
  have htelling : (below.filter (· ≠ "")).filter Path.isTelling = below.filter Path.isTelling := by
    rw [List.filter_filter]
    refine List.filter_congr fun piece _ => ?_
    by_cases hempty : piece = "" <;> simp [Path.isTelling, hempty]
  show (Path.pieces _).filter _ = (Path.pieces _).filter _ ++ _
  rw [h.place, pieces_intercalate_cons _ hinner, List.filter_append, htelling]

/-- A path into an archive begins as the path of the archive. -/
theorem isAtFile (hsplit : Path.pieces path = upper ++ below)
    (hupper : ∀ piece ∈ upper, '/' ∉ piece.toList) :
    Path.isAbsolute path = Path.isAbsolute ("/".intercalate upper) ∧
      (Path.parse path).names =
        (Path.parse ("/".intercalate upper)).names ++ below.filter Path.isTelling := by
  constructor
  · rw [← Path.intercalate_pieces path, hsplit]
    by_cases hbelow : below = []
    · rw [hbelow, List.append_nil]
    · rw [String.intercalate_append_of_ne_nil h.ne_nil hbelow, String.append_assoc,
        isAbsolute_append h.intercalate_ne_empty]
  · show (Path.pieces path).filter _ = (Path.pieces _).filter _ ++ _
    rw [hsplit, List.filter_append, Path.pieces_intercalate hupper h.ne_nil]

end LeadsInto

/-- A path into an archive begins as the path of a file, and the place in the archive is spelled by
the same components. -/
theorem isAtFile_of_archive? (h : disk.archive? path = some archive) :
    (∃ rest, disk.IsAtFile path rest) ∧ archive.place ≠ "" ∧
      Path.isAbsolute archive.place = Path.isAbsolute path ∧
      (Path.parse archive.place).names = (Path.parse path).names := by
  obtain ⟨upper, below, hsplit, hleads⟩ := exists_of_archive? h
  have hslash : ∀ piece ∈ upper ++ below, '/' ∉ piece.toList := by
    rw [← hsplit]
    exact fun piece hpiece hmem => (Path.mem_of_mem_pieces hpiece hmem).2 rfl
  obtain ⟨hupper, hbelow⟩ := List.forall_mem_append.1 hslash
  obtain ⟨content, names, hnode, -, -⟩ := hleads.names
  obtain ⟨habsolute, hnames⟩ := hleads.isAtFile hsplit hupper
  exact ⟨⟨_, _, content, hnode, habsolute, hnames⟩, hleads.place_ne_empty,
    hleads.isAbsolute_place.trans habsolute.symm, (hleads.names_place hbelow).trans hnames.symm⟩

/-! ## 3. Below a file -/

/-- Nothing is found below a file. -/
theorem follow_append_ne_ok {root : Node} {links : Nat} {place names home rest : List String}
    {content : ByteArray} (hfile : follow root links place names = .ok home)
    (hat : root.at? home = some (.file content)) (hrest : rest ≠ []) (target : List String) :
    follow root links place (names ++ rest) ≠ .ok target := by
  intro h
  obtain ⟨middle, links', hmiddle, hon⟩ := exists_follow_of_append h
  obtain rfl : home = middle := Except.ok.inj (hfile.symm.trans hmiddle)
  obtain ⟨step, after, rfl⟩ := List.exists_cons_of_ne_nil hrest
  obtain ⟨entries, hentries⟩ := exists_directory_of_follow_cons hon
  rw [hat] at hentries
  cases hentries

end LintFront.Disk
