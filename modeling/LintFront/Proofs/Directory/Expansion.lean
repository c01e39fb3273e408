import LintFront.Proofs.Directory.Covered
import LintFront.Run.Orchestrate
import Mathlib.Data.List.Forall2
/-!
# What directory targets stand for

A recursive target stands for the directories that it covers and that hold source files, and any
other target for its own directory whether or not it holds any. The targets of a run together stand
for the union of these, each directory once, however many targets cover it and however its path is
spelled.

## Main statements

`Linter.mem_expandDirectories`: the directories that targets stand for.
-/

namespace LintFront

variable {disk : Disk} {excludes : List String}

/-! ## 1. One target -/

/-- A target whose paths can be spelled normally without going astray: no parent components, and
nothing that it covers is out of reach for its length. -/
structure Target.IsPlain (disk : Disk) (excludes : List String) (target : Target) : Prop where
  noParents : ".." ∉ (Path.parse target.path).names
  fits : ∀ names entries, target.Covers disk excludes names entries →
    Disk.Fits (Directory.descend target.path names)

namespace Target

theorem exists_node_of_classify {arg : String} (h : (classify disk arg).kind = .directory) :
    ∃ entries, disk.node (classify disk arg).path = .ok (.directory entries) := by
  apply Disk.isDirectory_iff.1
  unfold classify at h ⊢
  split at h
  · rename_i hmarked
    rw [if_pos hmarked]
    exact (Bool.and_eq_true _ _ ▸ hmarked).2
  split at h
  · rename_i hmarked hplain
    rw [if_neg hmarked, if_pos hplain]
    exact hplain
  split at h <;> cases h

end Target

namespace Directory

/-- Does a directory that can be listed hold source files? -/
def holdsSources (disk : Disk) : (path : String) → Bool :=
  isAccepted (isBuildable disk)

variable {path : String} {entries : Entries Node}

theorem holdsSources_iff (h : disk.list path = .ok entries) :
    holdsSources disk path = true ↔ ∃ name, IsSource disk path entries name := by
  rw [holdsSources, isAccepted_iff, isBuildable_of_list h, Except.ok.injEq, Bool.not_eq_true',
    isEmpty_eligible_eq_false_iff]

/-- Of directories that can all be listed those are accepted that hold source files. -/
theorem accepted_isBuildable {paths : List String}
    (h : ∀ path ∈ paths, ∃ entries, disk.list path = .ok entries) :
    accepted (isBuildable disk) paths = .ok (paths.filter (holdsSources disk)) := by
  refine accepted_eq_ok_iff.2 ⟨fun path hpath => ?_, rfl⟩
  obtain ⟨entries, hentries⟩ := h path hpath
  exact ⟨_, isBuildable_of_list hentries⟩

end Directory

namespace Linter

/-- A target that is not recursive stands for its own directory. -/
theorem mem_directoriesOf_alone (excludes : List String) {target : Target} {top : Entries Node}
    (halone : target.recursive = false) (htop : disk.node target.path = .ok (.directory top)) :
    directoriesOf disk excludes target = .ok [target.path] ∧
      ∀ d, d ∈ [target.path].map Path.normal ↔ ∃ names entries,
        target.Covers disk excludes names entries ∧ d = target.pathDown names := by
  refine ⟨by rw [directoriesOf, halone, if_neg Bool.false_ne_true], ?_⟩
  intro d
  rw [List.map_singleton, List.mem_singleton]
  constructor
  · rintro rfl
    exact ⟨[], top, ⟨fun _ => rfl, List.forall_mem_nil _, _, htop, Node.at?_nil _⟩, rfl⟩
  · rintro ⟨names, entries, hc, rfl⟩
    rw [hc.below halone]
    rfl

/-- The walk from a recursive target visits the directories that it covers, and all of them can be
listed by the paths that are visited. -/
theorem exists_walk_of_recursive (hroot : disk.root.WellFormed) {target : Target}
    (hplain : target.IsPlain disk excludes) {top : Entries Node}
    (hrecursive : target.recursive = true)
    (htop : disk.node target.path = .ok (.directory top)) :
    ∃ paths, Directory.walk disk excludes target.path = .ok paths ∧
      (∀ path, path ∈ paths ↔ ∃ names entries, target.Covers disk excludes names entries ∧
        path = target.pathDown names) ∧
      ∀ names entries, target.Covers disk excludes names entries →
        disk.list (target.pathDown names) = .ok entries := by
  have hcovers : ∀ names entries, (Node.directory top).at? names = some (.directory entries) →
      (∀ name ∈ names, Directory.isSkipped excludes name = false) →
      target.Covers disk excludes names entries := by
    intro names entries hat hkept
    exact ⟨by simp [hrecursive], hkept, _, htop, hat⟩
  obtain ⟨place, -, hplace⟩ := Disk.node_eq_ok_iff.1 htop
  obtain ⟨paths, hwalk, hpaths⟩ := Directory.mem_walk (hroot.of_at? hplace) htop
    fun names entries hat hkept => (hplain.fits _ _ (hcovers names entries hat hkept)).1
  refine ⟨paths, hwalk, ?_, ?_⟩
  · intro path
    rw [hpaths]
    constructor
    · rintro ⟨names, entries, hat, hkept, rfl⟩
      exact ⟨names, entries, hcovers names entries hat hkept, rfl⟩
    · rintro ⟨names, entries, hc, rfl⟩
      obtain ⟨node, hnode, hat⟩ := hc.leads
      obtain rfl := Except.ok.inj (htop.symm.trans hnode)
      exact ⟨names, entries, hat, hc.kept, rfl⟩
  · intro names entries hc
    exact hc.list_pathDown hroot hplain.noParents (hplain.fits _ _ hc)

/-- The directories that a target stands for. -/
theorem mem_directoriesOf (hroot : disk.root.WellFormed) {target : Target}
    (hplain : target.IsPlain disk excludes) {top : Entries Node}
    (htop : disk.node target.path = .ok (.directory top)) :
    ∃ directories, directoriesOf disk excludes target = .ok directories ∧
      ∀ d, d ∈ directories.map Path.normal ↔ ∃ names entries,
        target.Covers disk excludes names entries ∧ d = target.pathDown names ∧
        (target.recursive = true → ∃ name, Directory.IsSource disk d entries name) := by
  cases hrecursive : target.recursive with
  | false =>
    obtain ⟨halone, hmem⟩ := mem_directoriesOf_alone excludes hrecursive htop
    exact ⟨_, halone, fun d => (hmem d).trans (by simp)⟩
  | true =>
    obtain ⟨paths, hwalk, hpaths, hlist⟩ := exists_walk_of_recursive hroot hplain hrecursive htop
    have hjudged : ∀ path ∈ paths, ∃ entries, disk.list path = .ok entries := by
      intro path hpath
      obtain ⟨names, entries, hc, rfl⟩ := (hpaths path).1 hpath
      exact ⟨entries, hlist names entries hc⟩
    refine ⟨paths.filter (Directory.holdsSources disk), ?_, ?_⟩
    · rw [directoriesOf, if_pos hrecursive, Directory.expand, hwalk]
      exact Directory.accepted_isBuildable hjudged
    · intro d
      rw [List.mem_map]
      constructor
      · rintro ⟨path, hpath, rfl⟩
        obtain ⟨hpath, hsource⟩ := List.mem_filter.1 hpath
        obtain ⟨names, entries, hc, rfl⟩ := (hpaths path).1 hpath
        -- The walk yields normal spellings, so to spell them normally again changes nothing.
        rw [Target.normal_pathDown]
        exact ⟨names, entries, hc, rfl,
          fun _ => (Directory.holdsSources_iff (hlist names entries hc)).1 hsource⟩
      · rintro ⟨names, entries, hc, rfl, hsource⟩
        have hholds := (Directory.holdsSources_iff (hlist names entries hc)).2 (hsource rfl)
        exact ⟨_, List.mem_filter.2 ⟨(hpaths _).2 ⟨names, entries, hc, rfl⟩, hholds⟩,
          target.normal_pathDown names⟩

/-! ## 2. All targets -/

/-- A check of a list gives the results of its members, and succeeds if it does on each. -/
theorem mapM_eq_ok_iff {α β ε : Type} {f : α → Except ε β} {xs : List α} {ys : List β} :
    xs.mapM f = .ok ys ↔ List.Forall₂ (fun x y => f x = .ok y) xs ys := by
  induction xs generalizing ys with
  | nil =>
    rw [List.mapM_nil, List.forall₂_nil_left_iff, eq_comm]
    exact ⟨fun h => (Except.ok.inj h), fun h => h ▸ rfl⟩
  | cons x xs ih =>
    rw [List.mapM_cons, List.forall₂_cons_left_iff]
    constructor
    · intro h
      cases hx : f x with
      | error e =>
        rw [hx] at h
        cases h
      | ok y =>
        rw [hx] at h
        cases hxs : xs.mapM f with
        | error e =>
          rw [hxs] at h
          cases h
        | ok ys' =>
          rw [hxs] at h
          obtain rfl := Except.ok.inj h
          exact ⟨y, ys', rfl, ih.1 hxs, rfl⟩
    · rintro ⟨y, ys', hx, hxs, rfl⟩
      rw [hx, ih.2 hxs]
      rfl

theorem exists_mapM_eq_ok_iff {α β ε : Type} {f : α → Except ε β} {xs : List α} :
    (∃ ys, xs.mapM f = .ok ys) ↔ ∀ x ∈ xs, ∃ y, f x = .ok y := by
  simp only [mapM_eq_ok_iff]
  -- What the members give is chosen one by one, so the list of it is put together on the way.
  induction xs with
  | nil => simp
  | cons x xs ih =>
    rw [List.forall_mem_cons, ← ih]
    constructor
    · rintro ⟨_, hall⟩
      cases hall with
      | cons hx hxs => exact ⟨⟨_, hx⟩, _, hxs⟩
    · rintro ⟨⟨y, hy⟩, ys, hys⟩
      exact ⟨y :: ys, .cons hy hys⟩

theorem mem_flatten_of_forall₂ {α β ε : Type} {f : α → Except ε (List β)} {xs : List α}
    {ys : List (List β)} (h : List.Forall₂ (fun x y => f x = .ok y) xs ys) (b : β) :
    b ∈ ys.flatten ↔ ∃ x ∈ xs, ∃ y, f x = .ok y ∧ b ∈ y := by
  induction h with
  | nil => simp
  | cons hxy _ ih =>
    rw [List.flatten_cons, List.mem_append, ih]
    simp [hxy]

/-- Where every target stands for some directories, targets together stand for these in their normal
spelling, each once. -/
theorem exists_expandDirectories_eq_ok {targets : List Target}
    (heach : ∀ target ∈ targets, ∃ directories,
      directoriesOf disk excludes target = .ok directories) :
    ∃ directories, expandDirectories disk excludes targets = .ok directories ∧
      directories.Nodup ∧ ∀ d, d ∈ directories ↔ ∃ target ∈ targets, ∃ paths,
        directoriesOf disk excludes target = .ok paths ∧ d ∈ paths.map Path.normal := by
  obtain ⟨expanded, hexpanded⟩ := exists_mapM_eq_ok_iff.2 heach
  have hall := mapM_eq_ok_iff.1 hexpanded
  refine ⟨(expanded.flatten.map Path.normal).eraseDups, ?_, nodup_eraseDups _, ?_⟩
  · rw [expandDirectories, hexpanded]
    rfl
  · intro d
    rw [List.mem_eraseDups, List.mem_map]
    constructor
    · rintro ⟨path, hpath, rfl⟩
      obtain ⟨target, htarget, paths, hpaths, hmem⟩ := (mem_flatten_of_forall₂ hall path).1 hpath
      exact ⟨target, htarget, paths, hpaths, List.mem_map_of_mem hmem⟩
    · rintro ⟨target, htarget, paths, hpaths, hmem⟩
      obtain ⟨path, hpath, rfl⟩ := List.mem_map.1 hmem
      have hflat := (mem_flatten_of_forall₂ hall path).2 ⟨target, htarget, paths, hpaths, hpath⟩
      exact ⟨path, hflat, rfl⟩

/-- Targets that each name a directory stand for the directories that any of them covers, each once.
Of the directories below a target only those count that hold source files. -/
theorem mem_expandDirectories (hroot : disk.root.WellFormed) {targets : List Target}
    (hplain : ∀ target ∈ targets, target.IsPlain disk excludes)
    (hnode : ∀ target ∈ targets, ∃ top, disk.node target.path = .ok (.directory top)) :
    ∃ directories, expandDirectories disk excludes targets = .ok directories ∧
      directories.Nodup ∧ ∀ d, d ∈ directories ↔ ∃ target ∈ targets, ∃ names entries,
        target.Covers disk excludes names entries ∧ d = target.pathDown names ∧
        (target.recursive = true → ∃ name, Directory.IsSource disk d entries name) := by
  -- First that there are such lists at all, and then what is in them: the union asks for both.
  have heach : ∀ target ∈ targets, ∃ directories,
      directoriesOf disk excludes target = .ok directories := by
    intro target htarget
    obtain ⟨top, htop⟩ := hnode target htarget
    obtain ⟨directories, hdirectories, -⟩ := mem_directoriesOf hroot (hplain target htarget) htop
    exact ⟨directories, hdirectories⟩
  obtain ⟨directories, hexpand, hnodup, hmem⟩ := exists_expandDirectories_eq_ok heach
  refine ⟨directories, hexpand, hnodup, ?_⟩
  intro d
  rw [hmem]
  constructor
  · rintro ⟨target, htarget, paths, hpaths, hd⟩
    obtain ⟨top, htop⟩ := hnode target htarget
    obtain ⟨_, hsame, hiff⟩ := mem_directoriesOf hroot (hplain target htarget) htop
    obtain rfl := Except.ok.inj (hpaths.symm.trans hsame)
    exact ⟨target, htarget, (hiff d).1 hd⟩
  · rintro ⟨target, htarget, hcovered⟩
    obtain ⟨top, htop⟩ := hnode target htarget
    obtain ⟨paths, hpaths, hiff⟩ := mem_directoriesOf hroot (hplain target htarget) htop
    exact ⟨target, htarget, paths, hpaths, (hiff d).2 hcovered⟩

end Linter

end LintFront
