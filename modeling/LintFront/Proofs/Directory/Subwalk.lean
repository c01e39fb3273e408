import LintFront.Proofs.Directory.Expansion
import LintFront.Proofs.Directory.Faultless
import LintFront.Proofs.Directory.Preorder
import LintFront.Proofs.FileTree.Dots
import LintFront.Proofs.Path.Length
import Mathlib
/-!
# Walks within a walk

A walk may begin at any directory of another walk. The tree below is the same for both, so one would
have the other as a part; but the walks spell their paths from different beginnings, and what a path
leads to depends on its spelling in two ways. A parent component after a link leads astray in the
normal spelling, and a path may be too long. Where neither happens, the walk from below is a part of
the walk from above, and a target for its beginning adds nothing to a target for the root.

More excludes cut branches off and change nothing else. The root is never cut off, whatever its name
is.

## Main statements

`Directory.walk_within`: a walk contains the walks from the directories that it visits, and those
with more excludes. `Directory.walk_dotted`: what a walk from a long spelling visits.
-/

namespace LintFront

namespace Node

/-! ## 1. The branches of a part -/

variable {skip skip' : String → Bool} {node child : Node} {names : List String}

/-- The walk of a tree goes through the walk of each part that it comes to, from beginning to
end. -/
theorem exists_branches_eq_append (h : node.WellFormed) (hat : node.at? names = some child)
    (hkept : ∀ name ∈ names, skip name = false) :
    ∃ before after, node.branches skip =
      before ++ (child.branches skip).map (names ++ ·) ++ after := by
  induction names generalizing node with
  | nil =>
    rw [at?_nil] at hat
    obtain rfl := Option.some.inj hat
    exact ⟨[], [], by simp⟩
  | cons name rest ih =>
    obtain ⟨entries, next, rfl, hnext, hbelow⟩ := exists_of_at?_cons hat
    cases h with
    | directory distinct named below =>
      obtain ⟨hname, hrest⟩ := List.forall_mem_cons.1 hkept
      have hentry : (name, next) ∈ entries := (Entries.mem_iff_find? distinct).2 hnext
      obtain ⟨before, after, hbranches⟩ := ih (below _ hentry) hbelow hrest
      have hmem : (name, next.branches skip) ∈
          (branchesOf skip entries).mergeSort fun a b => a.1 ≤ b.1 :=
        List.mem_mergeSort.2 (mem_branchesOf.2 ⟨next, hentry, hname, rfl⟩)
      -- The branches of a directory are one block for each entry, so the block of the entry that is
      -- gone down to stands between those of the others.
      obtain ⟨left, right, hsplit⟩ := List.append_of_mem hmem
      refine ⟨[] :: left.flatMap (fun e => e.2.map (e.1 :: ·)) ++ before.map (name :: ·),
        after.map (name :: ·) ++ right.flatMap (fun e => e.2.map (e.1 :: ·)), ?_⟩
      rw [branches, hsplit, List.flatMap_append, List.flatMap_cons, hbranches]
      simp

/-! ## 2. The branches that are left -/

/-- When more names are skipped, those branches are left that go through none of the further
names. -/
theorem branches_eq_filter (h : node.WellFormed)
    (hmore : ∀ name, skip name = true → skip' name = true) :
    node.branches skip' = (node.branches skip).filter fun names => !names.any skip' := by
  refine eq_of_precedes (pairwise_precedes_branches h)
    ((pairwise_precedes_branches h).filter _) fun names => ?_
  rw [List.mem_filter, mem_branches h, mem_branches h, Bool.not_eq_true', List.any_eq_false]
  constructor
  · rintro ⟨hdirectory, hkept⟩
    refine ⟨⟨hdirectory, fun name hname => ?_⟩, fun name hname => by simp [hkept name hname]⟩
    by_contra hskip
    have hskip' := hmore name (by simpa using hskip)
    rw [hkept name hname] at hskip'
    cases hskip'
  · rintro ⟨⟨hdirectory, -⟩, hkept⟩
    exact ⟨hdirectory, fun name hname => by simpa using hkept name hname⟩

end Node

namespace Directory

variable {disk : Disk} {excludes excludes' : List String} {root d : String}
  {entries : Entries Node}

/-! ## 3. A walk from a directory of a walk -/

/-- A walk with room for all its paths spells the path of every branch. -/
theorem walk_of_fits (hroot : disk.root.WellFormed)
    (hnode : disk.node root = .ok (.directory entries))
    (hfits : ∀ names, Visits disk excludes root names →
      (descend root names).utf8ByteSize ≤ Disk.maxPathBytes) :
    walk disk excludes root = .ok (((Node.directory entries).branches (isSkipped excludes)).map
      fun names => Path.normal (descend root names)) := by
  have hpreorder : IsPreorder disk excludes root _ := isPreorder_branches hroot hnode
  rw [walk_of_node hnode, List.filter_eq_self.2, List.map_map]
  · rfl
  · intro path hpath
    obtain ⟨names, hnames, rfl⟩ := List.mem_map.1 hpath
    exact decide_eq_true (hfits names ((hpreorder.visits names).1 hnames))

/-- A way down goes on in the normal spelling as it does in any other. -/
theorem normal_descend_normal (s : String) {names : List String}
    (hnames : ∀ name ∈ names, Node.IsName name) :
    Path.normal (descend (Path.normal s) names) = Path.normal (descend s names) := by
  have hparse : (Path.parse (descend (Path.normal s) names)).collapse =
      (Path.parse (descend s names)).collapse := by
    rw [descend, descend, Path.collapse_parse_descend hnames, Path.collapse_parse_descend hnames,
      Path.parse_normal, Path.collapse_collapse]
    rfl
  exact congrArg Path.text hparse

/-- What is visited below a directory is visited there from above. -/
theorem visits_append_iff {node child : Node} {names rest : List String}
    (hnode : disk.node root = .ok node) (hat : node.at? names = some child)
    (hd : disk.node d = .ok child) (hkept : ∀ name ∈ names, isSkipped excludes name = false) :
    Visits disk excludes root (names ++ rest) ↔ Visits disk excludes d rest := by
  rw [visits_iff hnode, visits_iff hd, Node.at?_append, hat, Option.bind_some,
    List.forall_mem_append]
  exact and_congr_right fun _ => and_iff_right hkept

section

variable (hroot : disk.root.WellFormed) (hparents : ".." ∉ (Path.parse root).names)
  (hfits : ∀ names, Visits disk excludes root names → Disk.Fits (descend root names))

include hroot hparents hfits

/-- What is visited below a directory of a walk is visited by a walk from there, and the paths are
spelled the same. -/
theorem walk_descend {below : Entries Node} {names : List String}
    (hnode : disk.node root = .ok (.directory entries))
    (hat : (Node.directory entries).at? names = some (.directory below))
    (hkept : ∀ name ∈ names, isSkipped excludes name = false) :
    walk disk excludes (Path.normal (descend root names)) =
      .ok (((Node.directory below).branches (isSkipped excludes)).map fun rest =>
        Path.normal (descend root (names ++ rest))) := by
  obtain ⟨place, hresolve, hplace⟩ := Disk.node_eq_ok_iff.1 hnode
  have hwell := hroot.of_at? hplace
  have hbelow := hwell.of_at? hat
  have hself := hfits names ((visits_iff hnode).2 ⟨⟨below, hat⟩, hkept⟩)
  have hd := Disk.node_normal_descend hroot hparents hnode hat hself
  have hisName := hwell.isName_of_at? hat
  have hdescend : ∀ rest, descend root (names ++ rest) = descend (descend root names) rest :=
    fun rest => List.foldl_append
  -- There is room for the paths from below, since they are not longer than those from above.
  have hfits' : ∀ rest, Visits disk excludes (Path.normal (descend root names)) rest →
      (descend (Path.normal (descend root names)) rest).utf8ByteSize ≤ Disk.maxPathBytes := by
    intro rest hvisits
    obtain ⟨⟨last, hlast⟩, -⟩ := (visits_iff hd).1 hvisits
    have hle := (hfits _ ((visits_append_iff hnode hat hd hkept).2 hvisits)).1
    have hlong : descend root names ≠ "" :=
      Path.descend_ne_empty (Disk.resolve_eq_ok_iff.1 hresolve).2.1
        fun name hname => Path.isComponent_of_isName (hisName name hname)
    have htidy : Path.normal (descend root names) = Path.tidy (descend root names) :=
      Path.normal_of_notMem (Path.notMem_descend hparents hisName)
    rw [hdescend] at hle
    rw [htidy]
    exact (Path.size_descend_tidy_le hlong fun name hname =>
      Path.isComponent_of_isName (hbelow.isName_of_at? hlast name hname)).trans hle
  rw [walk_of_fits hroot hd hfits']
  refine congrArg _ (List.map_congr_left fun rest hrest => ?_)
  obtain ⟨⟨last, hlast⟩, -⟩ := (Node.mem_branches hbelow).1 hrest
  rw [hdescend, normal_descend_normal _ (hbelow.isName_of_at? hlast)]

/-- From each directory that a walk visits, a walk visits a part of what the first one does, without
a gap and beginning with this directory. -/
theorem exists_block (hlist : disk.list root = .ok entries) {paths : List String}
    (hwalk : walk disk excludes root = .ok paths) (hd : d ∈ paths) :
    ∃ before block after, paths = before ++ block ++ after ∧ block.head? = some d ∧
      walk disk excludes d = .ok block := by
  have hnode := Disk.list_eq_ok_iff.1 hlist
  obtain ⟨place, -, hplace⟩ := Disk.node_eq_ok_iff.1 hnode
  have hwell := hroot.of_at? hplace
  rw [walk_of_fits hroot hnode fun names hnames => (hfits names hnames).1] at hwalk
  obtain rfl := Except.ok.inj hwalk
  obtain ⟨names, hnames, rfl⟩ := List.mem_map.1 hd
  obtain ⟨⟨below, hat⟩, hkept⟩ := (Node.mem_branches hwell).1 hnames
  obtain ⟨before, after, hbranches⟩ := Node.exists_branches_eq_append hwell hat hkept
  let spell (names : List String) : String := Path.normal (descend root names)
  refine ⟨before.map spell, _, after.map spell, ?_, ?_,
    walk_descend hroot hparents hfits hnode hat hkept⟩
  · rw [hbranches, List.map_append, List.map_append, List.map_map]
    rfl
  · rw [List.head?_map, Node.branches, List.head?_cons, Option.map_some, List.append_nil]

end

/-! ## 4. Fewer directories -/

/-- Of the names that are not skipped, more excludes skip those that are among them. -/
theorem isSkipped_iff_of_more {name : String} (h : isSkipped excludes name = false) :
    isSkipped excludes' name = true ↔ name ∈ excludes' ∧ name ∉ excludes := by
  simp only [isSkipped, Bool.or_eq_false_iff] at h
  obtain ⟨⟨⟨hhidden, hconventional⟩, hkept⟩, hmetadata⟩ := h
  have hnew : name ∉ excludes := by simpa using hkept
  rw [isSkipped, hhidden, hconventional, hmetadata]
  simp [hnew]

/-- With more excludes a walk visits fewer directories: those are left out to which a name leads
that has been added, and no others. -/
theorem walk_of_more_excludes (hroot : disk.root.WellFormed) {paths : List String}
    (hnode : disk.node root = .ok (.directory entries))
    (hwalk : walk disk excludes root = .ok paths) (hmore : ∀ name ∈ excludes, name ∈ excludes') :
    ∃ paths', walk disk excludes' root = .ok paths' ∧ paths'.Sublist paths ∧
      ∀ path ∈ paths, path ∉ paths' ↔ ∃ names, Visits disk excludes root names ∧
        path = Path.normal (descend root names) ∧
        ∃ name ∈ names, name ∈ excludes' ∧ name ∉ excludes := by
  obtain ⟨place, -, hplace⟩ := Disk.node_eq_ok_iff.1 hnode
  have hwell := hroot.of_at? hplace
  rw [walk_of_node hnode, List.filter_map, List.map_map] at hwalk
  obtain rfl := Except.ok.inj hwalk
  have hwalk' : walk disk excludes' root = .ok _ := walk_of_node hnode
  rw [Node.branches_eq_filter hwell fun name => isSkipped_mono hmore, List.filter_map,
    List.map_map] at hwalk'
  refine ⟨_, hwalk', (List.filter_sublist.filter _).map _, fun path hpath => ⟨?out, ?back⟩⟩
  case out =>
    intro hout
    obtain ⟨names, hnames, rfl⟩ := List.mem_map.1 hpath
    obtain ⟨hbranch, hshort⟩ := List.mem_filter.1 hnames
    have hvisits := (visits_iff hnode).2 ((Node.mem_branches hwell).1 hbranch)
    refine ⟨names, hvisits, rfl, ?_⟩
    have hsome : names.any (isSkipped excludes') = true := by
      by_contra hnone
      have hleft : (!names.any (isSkipped excludes')) = true := by
        rw [Bool.not_eq_true']
        exact Bool.eq_false_iff.2 hnone
      exact hout (List.mem_map_of_mem
        (List.mem_filter.2 ⟨List.mem_filter.2 ⟨hbranch, hleft⟩, hshort⟩))
    obtain ⟨name, hname, hskipped⟩ := List.any_eq_true.1 hsome
    exact ⟨name, hname, (isSkipped_iff_of_more (hvisits.kept name hname)).1 hskipped⟩
  case back =>
    rintro ⟨names, hvisits, rfl, name, hname, hadded⟩ hmem
    obtain ⟨names', hnames', hsame⟩ := List.mem_map.1 hmem
    obtain ⟨hbranch, hnone⟩ := List.mem_filter.1 (List.mem_filter.1 hnames').1
    obtain ⟨⟨below, hat⟩, -⟩ := (visits_iff hnode).1 hvisits
    obtain ⟨⟨below', hat'⟩, -⟩ := (Node.mem_branches hwell).1 hbranch
    -- A path tells the names that lead to it, so it is left out by all walks or by none.
    obtain rfl := normal_descend_inj (hwell.isName_of_at? hat') (hwell.isName_of_at? hat) hsame
    rw [Bool.not_eq_true', List.any_eq_false] at hnone
    exact hnone name hname ((isSkipped_iff_of_more (hvisits.kept name hname)).2 hadded)

/-! ## 5. Targets that overlap -/

/-- The target for a directory and all below it. -/
def whole (disk : Disk) (s : String) : Target := .classify disk (s ++ recursiveMarker)

theorem directoriesOf_whole (h : disk.node d = .ok (.directory entries)) :
    Linter.directoriesOf disk excludes (whole disk d) = expand disk excludes d := by
  have hstrip : stripMarker (d ++ recursiveMarker) = d := by
    rw [stripMarker, hasMarker, Text.hasEnding_append, if_pos rfl, Text.dropLast_append]
  have hclassify : whole disk d = ⟨d ++ recursiveMarker, .directory, true⟩ := by
    rw [whole, Target.classify, if_pos]
    rw [hstrip, hasMarker, Text.hasEnding_append, Disk.isDirectory_iff.2 ⟨entries, h⟩]
    rfl
  rw [hclassify, Linter.directoriesOf, if_pos rfl, Target.path, if_pos rfl, hstrip]

theorem expandDirectories_of_forall₂ {targets : List Target} {expanded : List (List String)}
    (h : List.Forall₂ (fun target paths => Linter.directoriesOf disk excludes target = .ok paths)
      targets expanded) :
    Linter.expandDirectories disk excludes targets =
      .ok (expanded.flatten.map Path.normal).eraseDups := by
  rw [Linter.expandDirectories, Linter.mapM_eq_ok_iff.2 h]
  rfl

/-- What is found in a part of a walk is a part of what is found in the walk. -/
theorem expand_block {before block after found : List String}
    (hwalk : walk disk excludes root = .ok (before ++ block ++ after))
    (hblock : walk disk excludes d = .ok block) (h : expand disk excludes root = .ok found) :
    ∃ part, expand disk excludes d = .ok part ∧ part ⊆ found := by
  rw [expand, hwalk] at h
  obtain ⟨hjudged, rfl⟩ := accepted_eq_ok_iff.1 h
  have hsub : block ⊆ before ++ block ++ after :=
    fun path hpath => List.mem_append_left _ (List.mem_append_right _ hpath)
  refine ⟨block.filter (isAccepted (isBuildable disk)), ?_, List.filter_subset _ hsub⟩
  rw [expand, hblock]
  exact accepted_eq_ok_iff.2 ⟨fun path hpath => hjudged path (hsub hpath), rfl⟩

/-- A target for a directory of a walk adds nothing to the target for its root, and only another
order when it comes first. -/
theorem expandDirectories_block (hroot : disk.root.WellFormed)
    (hnode : disk.node root = .ok (.directory entries)) {before block after : List String}
    (hwalk : walk disk excludes root = .ok (before ++ block ++ after))
    (hblock : walk disk excludes d = .ok block) (hhead : block.head? = some d) :
    ∃ alone first,
      Linter.expandDirectories disk excludes [whole disk root] = .ok alone ∧
      Linter.expandDirectories disk excludes [whole disk root, whole disk d] = .ok alone ∧
      Linter.expandDirectories disk excludes [whole disk d, whole disk root] = .ok first ∧
      first.Perm alone := by
  obtain ⟨below, hbelow⟩ : ∃ below, disk.node d = .ok (.directory below) := by
    cases hlist : disk.list d with
    | ok below => exact ⟨below, Disk.list_eq_ok_iff.1 hlist⟩
    | error cause =>
      rw [walk_of_list_eq_error hlist] at hblock
      split at hblock <;> cases hblock
      cases hhead
  obtain ⟨found, hfound, -⟩ := exists_expand_eq_ok hroot (Disk.nullFree_of_node hnode)
  obtain ⟨part, hpart, hsub⟩ := expand_block hwalk hblock hfound
  have htop := (directoriesOf_whole hnode).trans hfound
  have hpartOf := (directoriesOf_whole hbelow).trans hpart
  obtain ⟨hafter, hfirst⟩ := eraseDups_append_of_subset (List.map_subset Path.normal hsub)
  refine ⟨_, _, expandDirectories_of_forall₂ (.cons htop .nil), ?_,
    expandDirectories_of_forall₂ (.cons hpartOf (.cons htop .nil)), ?_⟩
  · rw [expandDirectories_of_forall₂ (.cons htop (.cons hpartOf .nil))]
    simpa using hafter
  · simpa using hfirst

/-! ## 6. All walks -/

/-- A walk from a directory without parent components in its path has its own parts as walks: if
there is room for all its paths, a walk from a directory that it visits is a part of it, begins with
this directory, and is covered by the target for the root. With more excludes those directories are
left out to which a name leads that has been added. -/
theorem walk_within (hroot : disk.root.WellFormed) (hlist : disk.list root = .ok entries)
    (hparents : ".." ∉ (Path.parse root).names) :
    ∃ paths, walk disk excludes root = .ok paths ∧
      ((∀ names, Visits disk excludes root names → Disk.Fits (descend root names)) →
        ∀ d ∈ paths,
          (∃ before block after, paths = before ++ block ++ after ∧ block.head? = some d ∧
            walk disk excludes d = .ok block) ∧
          ∃ alone first,
            Linter.expandDirectories disk excludes [whole disk root] = .ok alone ∧
            Linter.expandDirectories disk excludes [whole disk root, whole disk d] = .ok alone ∧
            Linter.expandDirectories disk excludes [whole disk d, whole disk root] = .ok first ∧
            first.Perm alone) ∧
      ∀ excludes', (∀ name ∈ excludes, name ∈ excludes') →
        ∃ paths', walk disk excludes' root = .ok paths' ∧ paths'.Sublist paths ∧
          ∀ path ∈ paths, path ∉ paths' ↔ ∃ names, Visits disk excludes root names ∧
            path = Path.normal (descend root names) ∧
            ∃ name ∈ names, name ∈ excludes' ∧ name ∉ excludes := by
  have hnode := Disk.list_eq_ok_iff.1 hlist
  have hwalk : walk disk excludes root = .ok _ := walk_of_node hnode
  refine ⟨_, hwalk, fun hfits d hd => ?_, fun excludes' hmore =>
    walk_of_more_excludes hroot hnode hwalk hmore⟩
  obtain ⟨before, block, after, hpaths, hhead, hblock⟩ :=
    exists_block hroot hparents hfits hlist hwalk hd
  exact ⟨⟨before, block, after, hpaths, hhead, hblock⟩,
    expandDirectories_block hroot hnode (hpaths ▸ hwalk) hblock hhead⟩

/-- Directories within each other, one of them to be excluded. -/
def nested : Disk where
  root := .directory [("a", .directory [("b", .directory [("c", .emptyDirectory)])])]
  here := []

theorem branches_nested :
    nested.root.branches (isSkipped []) = [[], ["a"], ["a", "b"], ["a", "b", "c"]] := by
  cbv

/-- A walk and the walk from a directory within it, with and without an exclude. -/
theorem walk_within_nested :
    nested.root.WellFormed ∧ nested.list "/" = .ok nested.root.entries ∧
      ".." ∉ (Path.parse "/").names ∧
      (∀ names, Visits nested [] "/" names → Disk.Fits (descend "/" names)) ∧
      (∃ before block after, ["/", "/a", "/a/b", "/a/b/c"] = before ++ block ++ after ∧
        block.head? = some "/a" ∧ walk nested [] "/a" = .ok block) ∧
      ["/", "/a"].Sublist ["/", "/a", "/a/b", "/a/b/c"] ∧
      walk nested ["b"] "/" = .ok ["/", "/a"] := by
  have hroot : nested.root.WellFormed := by decide
  have hnode : nested.node "/" = .ok nested.root := Disk.node_slash rfl
  have hlist : nested.list "/" = .ok nested.root.entries := Disk.list_eq_ok_iff.2 hnode
  have hparents : ".." ∉ (Path.parse "/").names := by decide
  have hfits : ∀ names, Visits nested [] "/" names → Disk.Fits (descend "/" names) := by
    intro names hvisits
    have hmem := (Node.mem_branches hroot).2 ((visits_iff hnode).1 hvisits)
    rw [branches_nested] at hmem
    have hall : ∀ names ∈ [[], ["a"], ["a", "b"], ["a", "b", "c"]],
        (descend "/" names).utf8ByteSize ≤ Disk.maxPathBytes ∧
          ∀ name ∈ (Path.parse (descend "/" names)).names,
            name.utf8ByteSize ≤ Disk.maxNameBytes := by
      decide +kernel
    exact hall names hmem
  obtain ⟨paths, hwalk, hparts, hmore⟩ := walk_within hroot hlist hparents
  have hpaths : walk nested [] "/" = .ok ["/", "/a", "/a/b", "/a/b/c"] := by cbv
  obtain rfl := Except.ok.inj (hwalk.symm.trans hpaths)
  obtain ⟨paths', hwalk', hsub, -⟩ := hmore ["b"] (List.forall_mem_nil _)
  have hpaths' : walk nested ["b"] "/" = .ok ["/", "/a"] := by cbv
  obtain rfl := Except.ok.inj (hwalk'.symm.trans hpaths')
  exact ⟨hroot, hlist, hparents, hfits, (hparts hfits "/a" (by decide)).1, hsub, hpaths'⟩

/-! ## 7. A walk without room -/

/-- With dots at the end of its path, a walk visits those directories to which the way down is short
enough, and spells their paths without the dots. -/
theorem walk_dotted (hroot : disk.root.WellFormed) (h : Path.EndsInPiece root)
    (hnode : disk.node root = .ok (.directory entries)) {n : Nat}
    (hfits : root.utf8ByteSize + 2 * n ≤ Disk.maxPathBytes) :
    walk disk excludes (Path.dotted root n) =
      .ok ((((Node.directory entries).branches (isSkipped excludes)).filter fun names =>
        root.utf8ByteSize + 2 * n + (names.map fun name => 1 + name.utf8ByteSize).sum ≤
          Disk.maxPathBytes).map fun names => Path.normal (descend root names)) := by
  obtain ⟨place, -, hplace⟩ := Disk.node_eq_ok_iff.1 hnode
  have hwell := hroot.of_at? hplace
  have hisName : ∀ names ∈ (Node.directory entries).branches (isSkipped excludes),
      ∀ name ∈ names, Node.IsName name := by
    intro names hmem
    obtain ⟨⟨below, hat⟩, -⟩ := (Node.mem_branches hwell).1 hmem
    exact hwell.isName_of_at? hat
  rw [walk_of_node (Disk.node_dotted h hnode hfits), List.filter_map, List.map_map]
  have hkept : ((Node.directory entries).branches (isSkipped excludes)).filter
      ((fun path => decide (path.utf8ByteSize ≤ Disk.maxPathBytes)) ∘
        descend (Path.dotted root n)) =
      ((Node.directory entries).branches (isSkipped excludes)).filter fun names =>
        root.utf8ByteSize + 2 * n + (names.map fun name => 1 + name.utf8ByteSize).sum ≤
          Disk.maxPathBytes := by
    refine List.filter_congr fun names hnames => ?_
    have hsize := Path.size_descend (Path.endsInPiece_dotted h n)
      fun name hname => Path.isComponent_of_isName (hisName names hnames name hname)
    rw [Path.size_dotted] at hsize
    rw [Function.comp_apply, descend, hsize]
  rw [hkept]
  refine congrArg _ (List.map_congr_left fun names hnames => ?_)
  have hnames := hisName names (List.mem_of_mem_filter hnames)
  have hparse : Path.parse (descend (Path.dotted root n) names) =
      Path.parse (descend root names) := by
    rw [descend, descend, Path.parse_descend_of_isName hnames, Path.parse_descend_of_isName hnames,
      Path.parse_dotted h]
  rw [Function.comp_apply, Path.normal, Path.normal, hparse]

/-- From a directory whose path is almost too long a walk does not come as far as from a directory
that it visits. -/
theorem walk_nested_dotted :
    nested.list (Path.dotted "." 2045) = .ok nested.root.entries ∧
      ".." ∉ (Path.parse (Path.dotted "." 2045)).names ∧
      walk nested [] (Path.dotted "." 2045) = .ok [".", "a", "a/b"] ∧
      walk nested [] "a" = .ok ["a", "a/b", "a/b/c"] := by
  have hdot : Path.EndsInPiece "." := ⟨[], '.', rfl, by decide⟩
  have hnode : nested.node "." = .ok (.directory nested.root.entries) := by cbv
  have hfits : ".".utf8ByteSize + 2 * 2045 ≤ Disk.maxPathBytes := by decide
  have hwalk : walk nested [] (Path.dotted "." 2045) = .ok [".", "a", "a/b"] := by
    rw [walk_dotted (by decide) hdot hnode hfits]
    cbv
  refine ⟨Disk.list_eq_ok_iff.2 (Disk.node_dotted hdot hnode hfits), ?_, hwalk, by cbv⟩
  rw [Path.parse_dotted hdot]
  decide

end Directory

end LintFront
