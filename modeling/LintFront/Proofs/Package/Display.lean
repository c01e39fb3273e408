import LintFront.Package.Unit
import LintFront.Proofs.FileTree.Access
import LintFront.Proofs.FileTree.Continuation
/-!
# Paths as they are shown

A place that a search has found is shown relative to the working directory when it lies in it, and
in its shortest spelling when it does not. Either way it has the same absolute spelling, up to an
anchor of two slashes, and either way the disk goes on from it alike. What the two forms do not do
is to go on as texts: a place outside of the working directory is shown whole, while what lies below
it may lie in the working directory and is shown relative to it.

## Main statements

`Disk.parse_absolute_display`: the absolute spelling of a path that is shown.
`Disk.display_descend`: how what lies below a place is shown. `Disk.sameWay_display`: a place that
is found can be gone on from as it is shown.
-/

namespace LintFront

open LintFront.Path (parse tidy text)

namespace Path

/-- The spelling of a place as a search finds it: absolute, without parent components, and with a
name at its end. -/
structure IsLocation (s : String) : Prop where
  absolute : isAbsolute s = true
  noParents : ".." ∉ (parse s).names
  nonempty : (parse s).names ≠ []
  endsInPiece : EndsInPiece s

namespace IsLocation

variable {s : String}

theorem descend (h : IsLocation s) {names : List String}
    (hnames : ∀ name ∈ names, Node.IsName name) : IsLocation (names.foldl join s) where
  absolute := by
    have hsame : isAbsolute (names.foldl join s) = isAbsolute s :=
      isAbsolute_congr (by rw [parse_descend_of_isName hnames])
    rw [hsame]
    exact h.absolute
  noParents := notMem_descend h.noParents hnames
  nonempty := by
    rw [parse_descend_of_isName hnames]
    exact List.append_ne_nil_of_left_ne_nil h.nonempty names
  endsInPiece := h.endsInPiece.descend fun name hname => isComponent_of_isName (hnames name hname)

theorem anchor_ne_zero (h : IsLocation s) : (parse s).anchor ≠ 0 :=
  isAbsolute_iff_anchor.1 h.absolute

theorem tidy (h : IsLocation s) : IsLocation (Path.tidy s) where
  absolute := by
    rw [isAbsolute_iff_anchor, parse_tidy]
    exact h.anchor_ne_zero
  noParents := by rw [parse_tidy]; exact h.noParents
  nonempty := by rw [parse_tidy]; exact h.nonempty
  endsInPiece := endsInPiece_text (wellSpelled_parse s).components h.nonempty

end IsLocation

end Path

namespace Disk

variable {disk : Disk} {path : String}

/-! ## 1. In and out of the working directory -/

/-- Does an absolute path lie in the working directory, by its shortest spelling? -/
def IsWithin (disk : Disk) (path : String) : Prop :=
  tidy path = disk.cwd ∨ (tidy path).startsWith (disk.cwd ++ "/") = true

section

variable (hhere : ∀ name ∈ disk.here, Node.IsName name)

include hhere

theorem parse_cwd : parse disk.cwd = ⟨1, disk.here⟩ :=
  Path.parse_text ⟨Nat.le_succ 1, fun name hname => Path.isComponent_of_isName (hhere name hname)⟩

theorem noParents_cwd : ".." ∉ (parse disk.cwd).names := by
  rw [parse_cwd hhere]
  exact fun hmem => (hhere _ hmem).2.2.1 rfl

/-- What lies in the working directory has its components before others. -/
theorem IsWithin.exists_names (h : disk.IsWithin path) :
    ∃ rel, (parse path).names = disk.here ++ rel := by
  rw [← Path.parse_tidy path]
  rcases h with h | h
  · rw [h, parse_cwd hhere]
    exact ⟨[], (List.append_nil _).symm⟩
  · obtain ⟨tail, htail⟩ := String.startsWith_string_iff.1 h
    have hwhole : tidy path = disk.cwd ++ "/" ++ String.ofList tail := by
      rw [← String.toList_inj, String.toList_append, String.toList_ofList, htail]
    refine ⟨(parse (String.ofList tail)).names, ?_⟩
    rw [hwhole]
    show (Path.pieces _).filter Path.isTelling = _
    rw [Path.pieces_append, List.filter_append]
    show (parse disk.cwd).names ++ _ = _
    rw [parse_cwd hhere]
    rfl

/-- What lies in a working directory below the root is anchored as that is. -/
theorem IsWithin.anchor (h : disk.IsWithin path) (hne : disk.here ≠ []) :
    (parse path).anchor = 1 := by
  rw [← Path.parse_tidy path]
  rcases h with h | h
  · rw [h, parse_cwd hhere]
  · obtain ⟨tail, htail⟩ := String.startsWith_string_iff.1 h
    have hwhole : tidy path = disk.cwd ++ ("/" ++ String.ofList tail) := by
      rw [← String.toList_inj, ← String.append_assoc, String.toList_append, String.toList_ofList,
        htail]
    have hcwd : Path.EndsInPiece disk.cwd :=
      Path.endsInPiece_text (fun name hname => Path.isComponent_of_isName (hhere name hname)) hne
    rw [hwhole]
    show Path.anchorOf _ = 1
    rw [Path.anchorOf_append (.inl hcwd.exists_mem_ne_slash)]
    show (parse disk.cwd).anchor = 1
    rw [parse_cwd hhere]

theorem isAbsolute_cwd : Path.isAbsolute disk.cwd = true := by
  rw [Path.isAbsolute_iff_anchor, parse_cwd hhere]
  exact Nat.one_ne_zero

/-- The dot is the working directory. -/
theorem absolute_dot : Path.absolute disk.cwd "." = disk.cwd := by
  have hdot : ¬Path.isAbsolute "." = true := by
    rw [Path.isAbsolute_iff]
    decide
  have hnames : (parse ".").names = [] := by decide
  rw [← Path.tidy_absolute, tidy, Path.parse_absolute (noParents_cwd hhere) (by decide),
    if_neg hdot, parse_cwd hhere, hnames, List.append_nil]
  rfl

end

/-- What does not lie in the root directory has no anchor of two slashes. -/
theorem anchor_of_not_isWithin (hpath : Path.IsLocation path) (h : ¬disk.IsWithin path)
    (hroot : disk.here = []) : (parse path).anchor = 1 := by
  have hle := (Path.wellSpelled_parse path).anchor_le
  have hne := hpath.anchor_ne_zero
  by_contra hone
  have htwo : (parse path).anchor = 2 := by omega
  apply h
  right
  have hcwd : disk.cwd ++ "/" = Path.slashes 2 := by rw [cwd, hroot]; decide
  rw [hcwd, String.startsWith_string_iff, tidy, Path.text_of_names hpath.nonempty, htwo,
    String.toList_append]
  exact List.prefix_append _ _

/-- What lies below something in the working directory lies there too. -/
theorem IsWithin.descend (hpath : Path.IsLocation path) (h : disk.IsWithin path)
    {names : List String} (hnames : ∀ name ∈ names, Node.IsName name) :
    disk.IsWithin (names.foldl Path.join path) := by
  by_cases hnil : names = []
  · subst hnil
    exact h
  have hbelow : tidy (names.foldl Path.join path) = tidy path ++ "/" ++ "/".intercalate names := by
    rw [tidy, Path.parse_descend_of_isName hnames, tidy, Path.text_of_names hpath.nonempty,
      Path.text_of_names (List.append_ne_nil_of_right_ne_nil _ hnil),
      String.intercalate_append_of_ne_nil hpath.nonempty hnil]
    simp only [String.append_assoc]
  rw [IsWithin, hbelow]
  right
  simp only [String.startsWith_string_iff, String.toList_append]
  rcases h with h | h
  · rw [h]
    exact List.prefix_append _ _
  · rw [String.startsWith_string_iff] at h
    exact (String.toList_append ▸ h).trans
      ((List.prefix_append _ _).trans (List.prefix_append _ _))

/-! ## 2. How a path is shown -/

/-- What lies outside of the working directory is shown in its shortest spelling. -/
theorem display_of_not_isWithin (hpath : Path.IsLocation path) (h : ¬disk.IsWithin path) :
    disk.display path = tidy path := by
  obtain ⟨hcwd, hstart⟩ := not_or.1 h
  rw [display, Path.absolute_of_isAbsolute hpath.absolute hpath.noParents, if_neg hcwd,
    if_neg hstart]

theorem display_tidy (hpath : Path.IsLocation path) :
    disk.display (tidy path) = disk.display path := by
  rw [display, display, Path.absolute_of_isAbsolute hpath.tidy.absolute hpath.tidy.noParents,
    Path.absolute_of_isAbsolute hpath.absolute hpath.noParents, Path.tidy_tidy]

/-- A path as shown to the user is free of null characters when the path is. -/
theorem nullFree_display (hcwd : Path.NullFree disk.cwd)
    (h : Path.NullFree path) : Path.NullFree (disk.display path) := by
  unfold display
  have hwhole : Path.NullFree (Path.absolute disk.cwd path) := hcwd.absolute h
  dsimp only
  split
  · decide
  split
  · exact hcwd.relative hwhole
  · exact hwhole

section

variable (hhere : ∀ name ∈ disk.here, Node.IsName name) (hpath : Path.IsLocation path)

include hhere hpath

/-- What lies in the working directory is shown by what its components have after those of the
working directory. -/
theorem display_of_isWithin (h : disk.IsWithin path) {rel : List String}
    (hrel : (parse path).names = disk.here ++ rel) : disk.display path = text ⟨0, rel⟩ := by
  have hcwd := noParents_cwd hhere
  rw [display, Path.absolute_of_isAbsolute hpath.absolute hpath.noParents]
  split
  · rename_i hsame
    have hnames : disk.here ++ rel = disk.here := by
      rw [← hrel, ← Path.parse_tidy path, hsame, parse_cwd hhere]
    rw [List.append_right_eq_self.1 hnames]
    rfl
  · rename_i hne
    have hself : Path.absoluteNames disk.cwd disk.cwd = disk.here := by
      rw [Path.absoluteNames, Path.parse_absolute hcwd hcwd, if_pos (isAbsolute_cwd hhere),
        parse_cwd hhere]
    have hway : Path.relativeNames disk.cwd (tidy path) disk.cwd = rel := by
      apply Path.relativeNames_of_absoluteNames
      rw [Path.absoluteNames, Path.absolute_of_isAbsolute hpath.tidy.absolute hpath.tidy.noParents,
        Path.parse_tidy, Path.parse_tidy, hself, hrel]
    rw [if_pos (h.resolve_left hne), Path.relative_eq_text, hway]

theorem parse_display_of_isWithin (h : disk.IsWithin path) {rel : List String}
    (hrel : (parse path).names = disk.here ++ rel) : parse (disk.display path) = ⟨0, rel⟩ := by
  rw [display_of_isWithin hhere hpath h hrel]
  refine Path.parse_text ⟨Nat.zero_le _, fun name hname => ?_⟩
  exact (Path.wellSpelled_parse path).components name (hrel ▸ List.mem_append_right _ hname)

theorem not_isAbsolute_display (h : disk.IsWithin path) :
    ¬Path.isAbsolute (disk.display path) = true := by
  obtain ⟨rel, hrel⟩ := h.exists_names hhere
  rw [Path.isAbsolute_iff_anchor, not_not, parse_display_of_isWithin hhere hpath h hrel]

/-- What is shown is in its shortest spelling. -/
theorem tidy_display : tidy (disk.display path) = disk.display path := by
  by_cases h : disk.IsWithin path
  · obtain ⟨rel, hrel⟩ := h.exists_names hhere
    rw [tidy, parse_display_of_isWithin hhere hpath h hrel, display_of_isWithin hhere hpath h hrel]
  · rw [display_of_not_isWithin hpath h, Path.tidy_tidy]

theorem noParents_display : ".." ∉ (parse (disk.display path)).names := by
  by_cases h : disk.IsWithin path
  · obtain ⟨rel, hrel⟩ := h.exists_names hhere
    rw [parse_display_of_isWithin hhere hpath h hrel]
    exact fun hmem => hpath.noParents (hrel ▸ List.mem_append_right _ hmem)
  · rw [display_of_not_isWithin hpath h]
    exact hpath.tidy.noParents

/-- Whatever a path is shown as, its absolute spelling has the components of the path. Seen from the
root directory an anchor of two slashes is not kept. -/
theorem parse_absolute_display :
    parse (Path.absolute disk.cwd (disk.display path)) =
      ⟨if disk.here = [] then 1 else (parse path).anchor, (parse path).names⟩ := by
  have hcwd := noParents_cwd hhere
  rw [Path.parse_absolute hcwd (noParents_display hhere hpath)]
  by_cases h : disk.IsWithin path
  · obtain ⟨rel, hrel⟩ := h.exists_names hhere
    rw [if_neg (not_isAbsolute_display hhere hpath h), parse_display_of_isWithin hhere hpath h hrel,
      parse_cwd hhere, hrel]
    by_cases hroot : disk.here = []
    · rw [if_pos hroot]
    · rw [if_neg hroot, h.anchor hhere hroot]
  · rw [display_of_not_isWithin hpath h, if_pos hpath.tidy.absolute, Path.parse_tidy]
    by_cases hroot : disk.here = []
    · rw [if_pos hroot, ← anchor_of_not_isWithin hpath h hroot]
    · rw [if_neg hroot]

/-- What lies below a place is shown by the way down from the place as it is shown, unless the place
lies outside of the working directory. -/
theorem display_descend {names : List String} (hnames : ∀ name ∈ names, Node.IsName name) :
    disk.display (names.foldl Path.join path) =
        Path.normal (names.foldl Path.join (disk.display path)) ∨
      Path.normal (names.foldl Path.join (disk.display path)) =
        tidy (names.foldl Path.join path) := by
  have hup := Path.notMem_descend (noParents_display hhere hpath) hnames
  rw [Path.normal_of_notMem hup, tidy, Path.parse_descend_of_isName hnames]
  by_cases h : disk.IsWithin path
  · obtain ⟨rel, hrel⟩ := h.exists_names hhere
    have hdown : (parse (names.foldl Path.join path)).names = disk.here ++ (rel ++ names) := by
      rw [Path.parse_descend_of_isName hnames, hrel, List.append_assoc]
    left
    rw [parse_display_of_isWithin hhere hpath h hrel]
    exact display_of_isWithin hhere (hpath.descend hnames) (h.descend hpath hnames) hdown
  · right
    rw [display_of_not_isWithin hpath h, Path.parse_tidy, tidy, Path.parse_descend_of_isName hnames]

/-- What lies below a place, as it is shown and as the way down from the place as it is shown, is
the same absolute path. -/
theorem absolute_display_descend {names : List String} (hnames : ∀ name ∈ names, Node.IsName name) :
    Path.absolute disk.cwd (disk.display (names.foldl Path.join path)) =
      Path.absolute disk.cwd (Path.normal (names.foldl Path.join (disk.display path))) := by
  have hcwd := noParents_cwd hhere
  have hup := noParents_display hhere hpath
  have hdown := Path.notMem_descend hup hnames
  have hnormal := Path.parse_normal_of_notMem hdown
  rw [Path.absolute_congr hcwd (hnormal ▸ hdown) hnormal, ← Path.tidy_absolute, tidy,
    parse_absolute_display hhere (hpath.descend hnames),
    ← Path.tidy_absolute disk.cwd (names.foldl Path.join (disk.display path)), tidy,
    Path.parse_absolute_descend hcwd hup hnames, parse_absolute_display hhere hpath,
    Path.parse_descend_of_isName hnames]

/-! ## 3. Where a path that is shown leads -/

theorem endsInPiece_display : Path.EndsInPiece (disk.display path) := by
  by_cases h : disk.IsWithin path
  · obtain ⟨rel, hrel⟩ := h.exists_names hhere
    have hcomponents : ∀ name ∈ rel, Path.IsComponent name := fun name hname =>
      (Path.wellSpelled_parse path).components name (hrel ▸ List.mem_append_right _ hname)
    rw [display_of_isWithin hhere hpath h hrel]
    by_cases hnil : rel = []
    · subst hnil
      exact ⟨[], '.', rfl, by decide⟩
    · exact Path.endsInPiece_text hcomponents hnil
  · rw [display_of_not_isWithin hpath h]
    exact hpath.tidy.endsInPiece

/-- A place is shown by a spelling that is not longer than its shortest absolute one. -/
theorem size_display_le : (disk.display path).utf8ByteSize ≤ (tidy path).utf8ByteSize := by
  by_cases h : disk.IsWithin path
  · obtain ⟨rel, hrel⟩ := h.exists_names hhere
    rw [display_of_isWithin hhere hpath h hrel]
    by_cases hnil : rel = []
    · have hempty := (Path.endsInPiece_iff.1 hpath.tidy.endsInPiece).1
      rw [Ne, ← String.utf8ByteSize_eq_zero_iff] at hempty
      have hdot : (text ⟨0, rel⟩).utf8ByteSize = 1 := by rw [hnil]; decide
      omega
    · have hrest : ("/".intercalate rel).utf8ByteSize ≤
          ("/".intercalate (disk.here ++ rel)).utf8ByteSize := by
        by_cases hroot : disk.here = []
        · rw [hroot, List.nil_append]
        · rw [String.intercalate_append_of_ne_nil hroot hnil, String.utf8ByteSize_append]
          omega
      rw [tidy, Path.text_of_names hpath.nonempty, hrel, Path.text_of_names hnil,
        String.utf8ByteSize_append, String.utf8ByteSize_append]
      have hnone : (Path.slashes 0).utf8ByteSize = 0 := by decide
      dsimp only
      omega
  · rw [display_of_not_isWithin hpath h]

/-- So is a name in the place. -/
theorem size_join_display_le {name : String} (hname : Path.IsComponent name) :
    (Path.join (disk.display path) name).utf8ByteSize ≤
      (Path.join (tidy path) name).utf8ByteSize := by
  have hle := size_display_le hhere hpath
  rw [Path.size_join (endsInPiece_display hhere hpath) hname,
    Path.size_join hpath.tidy.endsInPiece hname]
  omega

/-- From a place that its components lead to, the way goes on as from the place as it is shown. -/
theorem follow_steps_display {entries : Entries Node}
    (hcwd : disk.root.at? disk.here = some (.directory entries)) {place : List String}
    (hdown : follow disk.root maxLinks [] (parse path).names = .ok place) (rest : List String) :
    follow disk.root maxLinks [] ((parse path).names ++ rest) =
      follow disk.root maxLinks (start disk.here (disk.display path))
        (steps (disk.display path) ++ rest) := by
  by_cases h : disk.IsWithin path
  · obtain ⟨rel, hrel⟩ := h.exists_names hhere
    have hparse := parse_display_of_isWithin hhere hpath h hrel
    have hwell : Path.WellSpelled ⟨0, rel⟩ := hparse ▸ Path.wellSpelled_parse (disk.display path)
    -- The way to the working directory goes through real directories, and no link is used up.
    have hlink := Node.directory_ne_link entries
    rw [hrel] at hdown
    have hentry := isEntryName_of_follow hhere hcwd hlink hdown
    rw [hrel, List.append_assoc, follow_names_append hentry hcwd hlink, List.nil_append, start,
      if_neg (not_isAbsolute_display hhere hpath h), display_of_isWithin hhere hpath h hrel,
      steps_text hwell]
    by_cases hnil : rel = []
    · subst hnil
      rw [if_pos rfl, List.nil_append, List.singleton_append, follow_cons, stride,
        Node.shapeAt_of_at? hcwd]
      rfl
    · rw [if_neg hnil]
  · have hsteps : steps (tidy path) = (parse path).names := by
      rw [tidy, steps_text (Path.wellSpelled_parse path), if_neg hpath.nonempty]
    rw [display_of_not_isWithin hpath h, hsteps, start_tidy, start, if_pos hpath.absolute]

/-- A place that is found can be gone on from as it is shown. -/
theorem sameWay_display {entries : Entries Node}
    (hcwd : disk.root.at? disk.here = some (.directory entries)) {place : List String}
    (hplace : disk.resolve path = .ok place) : disk.SameWay path (disk.display path) := by
  obtain ⟨hnull, hempty, -, hfollow⟩ := resolve_eq_ok_iff.1 hplace
  have hnull' : Path.NullFree (disk.display path) :=
    nullFree_display (nullFree_cwd_of_isName hhere) hnull
  refine ⟨hpath.endsInPiece, endsInPiece_display hhere hpath, hnull, hnull', fun rest => ?_⟩
  -- First the dots are left out, on which the path may pass as it was found.
  have hstart : start disk.here path = [] := if_pos hpath.absolute
  have hsteps : steps (tidy path) = (parse path).names := by
    rw [tidy, steps_text (Path.wellSpelled_parse path), if_neg hpath.nonempty]
  have hthin := thinned_steps_tidy hempty
  rw [hstart] at hfollow
  rw [hsteps] at hthin
  rw [hstart, follow_append_of_thinned hthin hfollow]
  exact follow_steps_display hhere hpath hcwd (follow_of_thinned hthin hfollow) rest

/-- What is found is found as it is shown. -/
theorem resolve_display {entries : Entries Node}
    (hcwd : disk.root.at? disk.here = some (.directory entries)) {place : List String}
    (hplace : disk.resolve path = .ok place) : disk.resolve (disk.display path) = .ok place := by
  obtain ⟨-, hempty, hsize, -⟩ := resolve_eq_ok_iff.1 hplace
  have hshown := (size_display_le hhere hpath).trans (Path.size_tidy_le hempty)
  have hway := sameWay_display hhere hpath hcwd hplace
  rw [← hway.resolve_eq hsize (hshown.trans hsize), hplace]

end

end Disk

end LintFront
