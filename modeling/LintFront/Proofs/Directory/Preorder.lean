import LintFront.Proofs.Directory.Branches
import LintFront.Proofs.Path.Absolute
import Mathlib
/-!
# A walk visits a tree in pre-order

A walk has to be right in two ways. It visits what it should: the real directories to which names
lead that are not skipped, whatever links lie beside them. And it does so in order, a directory
before all below it and siblings by their names; the two together settle the list of what is
visited.

What the walk hands out are paths in their normal spelling, and for this the starting path may lose
components. The names that lead down from there are never lost, so no two of the paths are the same.
A search of the walk that passes over what it has found already therefore passes over nothing.

## Main statements

`Directory.walk_in_preorder`: what a walk visits, in which order, and what is found on it.
`Directory.expand_eq_expandBy`: the directories that are visited as units are found by asking
whether they can be built.
-/

namespace LintFront

/-- All that is passed on the way to a directory is a directory. -/
theorem Node.exists_directory_of_prefix {node : Node} {names above : List String}
    {entries : Entries Node} (h : node.at? names = some (directory entries))
    (habove : above <+: names) : ∃ passed, node.at? above = some (directory passed) := by
  obtain ⟨rest, rfl⟩ := habove
  rw [at?_append] at h
  obtain ⟨middle, hmiddle, hbelow⟩ := Option.bind_eq_some_iff.1 h
  cases middle with
  | directory passed => exact ⟨passed, hmiddle⟩
  | file content => cases rest <;> simp [at?, Node.entries, Entries.find?] at hbelow
  | link target => cases rest <;> simp [at?, Node.entries, Entries.find?] at hbelow

namespace Directory

variable {disk : Disk} {excludes : List String} {root : String}

/-! ## 1. What there is to visit -/

/-- The names lead down from the directory that `root` names: under each of them lies a real
directory, and none of them is skipped. -/
structure Visits (disk : Disk) (excludes : List String) (root : String) (names : List String) :
    Prop where
  leads : ∃ place, disk.resolve root = .ok place ∧ ∀ above, above <+: names →
    ∃ entries, disk.root.at? (place ++ above) = some (.directory entries)
  kept : ∀ name ∈ names, isSkipped excludes name = false

theorem visits_iff {node : Node} (h : disk.node root = .ok node) {names : List String} :
    Visits disk excludes root names ↔
      (∃ entries, node.at? names = some (.directory entries)) ∧
        ∀ name ∈ names, isSkipped excludes name = false := by
  obtain ⟨place, hplace, hnode⟩ := Disk.node_eq_ok_iff.1 h
  have hbelow : ∀ above, disk.root.at? (place ++ above) = node.at? above := by
    intro above
    rw [Node.at?_append, hnode, Option.bind_some]
  constructor
  · rintro ⟨⟨place', hplace', hleads⟩, hkept⟩
    obtain rfl := Except.ok.inj (hplace'.symm.trans hplace)
    obtain ⟨entries, hentries⟩ := hleads names (List.prefix_refl names)
    exact ⟨⟨entries, hbelow names ▸ hentries⟩, hkept⟩
  · rintro ⟨⟨entries, hentries⟩, hkept⟩
    refine ⟨⟨place, hplace, fun above habove => ?_⟩, hkept⟩
    rw [hbelow]
    exact Node.exists_directory_of_prefix hentries habove

/-- What is visited at and below a directory, by the names that lead there and in the order of the
walk. -/
structure IsPreorder (disk : Disk) (excludes : List String) (root : String)
    (branches : List (List String)) : Prop where
  visits : ∀ names, names ∈ branches ↔ Visits disk excludes root names
  once : branches.Nodup
  first : branches.head? = some []
  ordered : branches.Pairwise Node.Precedes

/-- What there is to visit and the order of the walk settle the walk. -/
theorem IsPreorder.unique {branches branches' : List (List String)}
    (h : IsPreorder disk excludes root branches) (h' : IsPreorder disk excludes root branches') :
    branches = branches' :=
  Node.eq_of_precedes h.ordered h'.ordered fun names => by rw [h.visits, h'.visits]

theorem isPreorder_branches (hroot : disk.root.WellFormed) {entries : Entries Node}
    (h : disk.node root = .ok (.directory entries)) :
    IsPreorder disk excludes root ((Node.directory entries).branches (isSkipped excludes)) := by
  obtain ⟨place, -, hplace⟩ := Disk.node_eq_ok_iff.1 h
  have hwell := hroot.of_at? hplace
  exact ⟨fun names => (Node.mem_branches hwell).trans (visits_iff h).symm,
    Node.nodup_branches hwell, by rw [Node.branches, List.head?_cons],
    Node.pairwise_precedes_branches hwell⟩

/-! ## 2. The paths are distinct -/

/-- The names that lead down can be told from the normal spelling of the path. -/
theorem normal_descend_inj {names names' : List String} (hnames : ∀ name ∈ names, Node.IsName name)
    (hnames' : ∀ name ∈ names', Node.IsName name)
    (h : Path.normal (descend root names) = Path.normal (descend root names')) :
    names = names' := by
  have hparse := congrArg Path.parse h
  rw [Path.parse_normal, Path.parse_normal, descend, descend, Path.collapse_parse_descend hnames,
    Path.collapse_parse_descend hnames'] at hparse
  exact List.append_cancel_left (Path.mk.inj hparse).2

/-- A walk visits no path twice. -/
theorem nodup_walk (hroot : disk.root.WellFormed) {paths : List String}
    (h : walk disk excludes root = .ok paths) : paths.Nodup := by
  cases hnode : disk.node root with
  | error cause =>
    have hnone : paths = [] := by
      rw [walk, hnode] at h
      cases cause <;> first | exact (Except.ok.inj h).symm | cases h
    exact hnone ▸ List.nodup_nil
  | ok node =>
    obtain ⟨place, -, hplace⟩ := Disk.node_eq_ok_iff.1 hnode
    have hwell := hroot.of_at? hplace
    rw [walk_of_node hnode, List.filter_map, List.map_map] at h
    obtain rfl := Except.ok.inj h
    have hisName : ∀ names ∈ node.branches (isSkipped excludes), ∀ name ∈ names,
        Node.IsName name := by
      intro names hmem
      obtain ⟨⟨entries, hat⟩, -⟩ := (Node.mem_branches hwell).1 hmem
      exact hwell.isName_of_at? hat
    -- The branches are distinct, so it is left to see that no two of them have one spelling.
    refine List.Nodup.map_on ?_ ((Node.nodup_branches hwell).filter _)
    intro names hmem names' hmem' hsame
    exact normal_descend_inj (hisName names (List.mem_of_mem_filter hmem))
      (hisName names' (List.mem_of_mem_filter hmem')) hsame

/-! ## 3. What is found on a walk -/

/-- Where no path comes twice, none is passed over because it was found. -/
theorem acceptedOnce_eq {ε : Type} (accept : String → Except ε Bool) {found paths : List String}
    (hnodup : paths.Nodup) (hnew : ∀ path ∈ paths, path ∉ found) :
    acceptedOnce accept found paths = (accepted accept paths).map (found ++ ·) := by
  induction paths generalizing found with
  | nil => simp [acceptedOnce, accepted, Except.map]
  | cons path rest ih =>
    obtain ⟨hpath, hrest⟩ := List.nodup_cons.1 hnodup
    have hmissing : ¬found.contains path = true :=
      mt List.contains_iff_mem.1 (hnew path List.mem_cons_self)
    have hlater : ∀ other ∈ rest, other ∉ found :=
      fun other hother => hnew other (List.mem_cons_of_mem _ hother)
    rw [acceptedOnce, if_neg hmissing, accepted]
    cases accept path with
    | error cause => rfl
    | ok yes =>
      dsimp only
      -- Only an accepted path is put among those that were found.
      cases yes with
      | false =>
        rw [if_neg Bool.false_ne_true, ih hrest hlater]
        cases accepted accept rest <;> rfl
      | true =>
        have hnext : ∀ other ∈ rest, other ∉ found ++ [path] := by
          intro other hother hmem
          rcases List.mem_append.1 hmem with hmem | hmem
          · exact hlater other hother hmem
          · exact hpath (List.mem_singleton.1 hmem ▸ hother)
        rw [if_pos rfl, ih hrest hnext]
        cases accepted accept rest with
        | error cause => rfl
        | ok others => simp [Except.map]

theorem acceptedOnce_nil_eq {ε : Type} (accept : String → Except ε Bool) {paths : List String}
    (hnodup : paths.Nodup) : acceptedOnce accept [] paths = accepted accept paths := by
  rw [acceptedOnce_eq accept hnodup fun _ _ => List.not_mem_nil]
  cases accepted accept paths <;> rfl

/-- The directories that are visited as units are found by asking whether they can be built. -/
theorem expand_eq_expandBy (hroot : disk.root.WellFormed) :
    expand disk excludes root = expandBy disk excludes (isBuildable disk) root := by
  unfold expand expandBy
  cases hwalk : walk disk excludes root with
  | error cause => rfl
  | ok paths => exact (acceptedOnce_nil_eq _ (nodup_walk hroot hwalk)).symm

/-- By a judgement that is never in doubt the directories are found that it accepts. -/
theorem expandBy_eq_filter (hroot : disk.root.WellFormed) {paths : List String}
    (h : walk disk excludes root = .ok paths) (good : String → Bool) :
    expandBy disk excludes (fun path => .ok (good path)) root = .ok (paths.filter good) := by
  rw [expandBy, h]
  exact (acceptedOnce_nil_eq _ (nodup_walk hroot h)).trans (accepted_eq_filter fun _ _ => rfl)

/-! ## 4. The walk -/

/-- Where there is nothing to list there is nothing to visit. -/
theorem walk_of_list_eq_error {cause : AccessError} (h : disk.list root = .error cause) :
    walk disk excludes root =
      if cause = .embeddedNull then .error .embeddedNull else .ok [] := by
  unfold Disk.list at h
  unfold walk
  cases hnode : disk.node root with
  | error cause' =>
    rw [hnode] at h
    obtain rfl := Except.error.inj h
    cases cause' <;> rfl
  | ok node =>
    rw [hnode] at h
    cases node with
    | directory entries => cases h
    | file content =>
      obtain rfl := Except.error.inj h
      rfl
    | link target =>
      obtain rfl := Except.error.inj h
      rfl

/-- From a path that names a directory, a walk visits in pre-order the paths down to the real
directories at and below it to which names lead that are not skipped, each once and itself first. No
two of the paths are the same, and of them those are found that a judgement accepts. From any other
path nothing is visited; a path with a null character is refused before the walk begins. -/
theorem walk_in_preorder (hroot : disk.root.WellFormed)
    (hfits : ∀ names, Visits disk excludes root names →
      (descend root names).utf8ByteSize ≤ Disk.maxPathBytes) :
    (∀ entries, disk.list root = .ok entries → ∃ branches paths,
      IsPreorder disk excludes root branches ∧
      paths = branches.map (fun names => Path.normal (descend root names)) ∧
      walk disk excludes root = .ok paths ∧ paths.Nodup ∧
      ∀ good : String → Bool,
        expandBy disk excludes (fun path => .ok (good path)) root = .ok (paths.filter good)) ∧
    ∀ cause, disk.list root = .error cause →
      walk disk excludes root =
        if cause = .embeddedNull then .error .embeddedNull else .ok [] := by
  constructor
  · intro entries hlist
    have hnode := Disk.list_eq_ok_iff.1 hlist
    have hpreorder : IsPreorder disk excludes root _ := isPreorder_branches hroot hnode
    have hwalk : walk disk excludes root = .ok _ := walk_of_node hnode
    -- Since every path can be used, none is left out of the walk.
    rw [List.filter_eq_self.2, List.map_map] at hwalk
    · exact ⟨_, _, hpreorder, rfl, hwalk, nodup_walk hroot hwalk, expandBy_eq_filter hroot hwalk⟩
    · intro path hpath
      obtain ⟨names, hnames, rfl⟩ := List.mem_map.1 hpath
      exact decide_eq_true (hfits names ((hpreorder.visits names).1 hnames))
  · exact fun cause hlist => walk_of_list_eq_error hlist

/-- A directory with links that lead back to it, a hidden directory and one to be excluded. -/
def looped : Disk where
  root := .directory [("b", .directory [("loop", .link ".."), ("x", .emptyDirectory)]),
    (".git", .emptyDirectory), ("a", .link "b"), ("ex", .emptyDirectory)]
  here := []

theorem branches_looped :
    looped.root.branches (isSkipped ["ex"]) = [[], ["b"], ["b", "x"]] := by
  cbv

/-- Links lead in circles, and a walk goes straight down. -/
theorem preorder_looped : looped.root.WellFormed ∧
    (∀ names, Visits looped ["ex"] "/" names →
      (descend "/" names).utf8ByteSize ≤ Disk.maxPathBytes) ∧
    ∃ branches, IsPreorder looped ["ex"] "/" branches ∧
      branches.map (fun names => Path.normal (descend "/" names)) = ["/", "/b", "/b/x"] := by
  have hroot : looped.root.WellFormed := Node.isWellFormed_iff.1 (by decide)
  have hnode : looped.node "/" = .ok looped.root := Disk.node_slash (by rfl)
  have hfits : ∀ names, Visits looped ["ex"] "/" names →
      (descend "/" names).utf8ByteSize ≤ Disk.maxPathBytes := by
    intro names hvisits
    -- The names that are visited are among the branches, and of these there are three.
    have hmem := (Node.mem_branches hroot).2 ((visits_iff hnode).1 hvisits)
    rw [branches_looped] at hmem
    have hall : ∀ names ∈ [[], ["b"], ["b", "x"]],
        (descend "/" names).utf8ByteSize ≤ Disk.maxPathBytes := by decide +kernel
    exact hall names hmem
  obtain ⟨branches, _, hpreorder, rfl, hwalk, -⟩ :=
    (walk_in_preorder hroot hfits).1 _ (Disk.list_eq_ok_iff.2 hnode)
  have hpaths : walk looped ["ex"] "/" = .ok ["/", "/b", "/b/x"] := by cbv
  exact ⟨hroot, hfits, branches, hpreorder, Except.ok.inj (hwalk.symm.trans hpaths)⟩

end Directory

end LintFront
