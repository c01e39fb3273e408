import LintFront.FileTree.Disk
import LintFront.Proofs.Entries
/-!
# The names in a well formed tree

What lies below a well formed tree is well formed, and all that lies in it lies there under names.
So what is read out of a directory can be written as a component of a path.

## Main statements

`Node.WellFormed.isName_of_at?`: whatever lies below a well formed node lies there under names.
`Node.isWellFormed_iff`: whether a tree is well formed can be checked.
-/

namespace LintFront.Node

/-! ## 1. Below a well formed node -/

theorem WellFormed.of_at? {node child : Node} (h : node.WellFormed) {place : List String}
    (hchild : node.at? place = some child) : child.WellFormed := by
  induction place generalizing node with
  | nil =>
    rw [at?_nil] at hchild
    exact Option.some.inj hchild ▸ h
  | cons name place ih =>
    obtain ⟨entries, next, rfl, hnext, hbelow⟩ := exists_of_at?_cons hchild
    cases h with
    | directory distinct named below =>
      exact ih (below _ ((Entries.mem_iff_find? distinct).2 hnext)) hbelow

/-- Whatever lies below a well formed node lies there under names. -/
theorem WellFormed.isName_of_at? {node child : Node} (h : node.WellFormed) {place : List String}
    (hchild : node.at? place = some child) : ∀ name ∈ place, IsName name := by
  induction place generalizing node with
  | nil => exact fun _ hname => nomatch hname
  | cons first place ih =>
    obtain ⟨entries, next, rfl, hnext, hbelow⟩ := exists_of_at?_cons hchild
    cases h with
    | directory distinct named below =>
      have hentry := (Entries.mem_iff_find? distinct).2 hnext
      rintro name (_ | ⟨_, hname⟩)
      · exact named _ hentry
      · exact ih (below _ hentry) hbelow name hname

/-- The entries of a well formed directory are named by names. -/
theorem WellFormed.isName_of_mem_names {entries : Entries Node}
    (h : (Node.directory entries).WellFormed) {name : String} (hname : name ∈ entries.names) :
    IsName name := by
  obtain ⟨e, he, rfl⟩ := List.mem_map.1 hname
  cases h with
  | directory distinct named below => exact named e he

/-! ## 2. Checking a tree -/

instance (name : String) : Decidable (IsName name) :=
  inferInstanceAs (Decidable (_ ∧ _ ∧ _ ∧ _ ∧ _))

mutual

/-- Is a tree well formed? -/
def isWellFormed : Node → Bool
  | .file _ => true
  | .link _ => true
  | .directory entries => decide (entries.map (·.1)).Nodup && areWellFormed entries

/-- Are entries named by names, and what they name well formed? -/
def areWellFormed : List (String × Node) → Bool
  | [] => true
  | (name, child) :: rest => decide (IsName name) && child.isWellFormed && areWellFormed rest

end

theorem areWellFormed_iff {entries : List (String × Node)} :
    areWellFormed entries = true ↔ ∀ e ∈ entries, IsName e.1 ∧ e.2.isWellFormed = true := by
  induction entries with
  | nil => simp [areWellFormed]
  | cons e rest ih =>
    obtain ⟨name, child⟩ := e
    rw [areWellFormed, Bool.and_eq_true, Bool.and_eq_true, decide_eq_true_eq, ih,
      List.forall_mem_cons]

mutual

theorem wellFormed_of_check : ∀ node : Node, node.isWellFormed = true → node.WellFormed
  | .file content, _ => .file content
  | .link target, _ => .link target
  | .directory entries, h => by
    rw [isWellFormed, Bool.and_eq_true, decide_eq_true_eq] at h
    have hentries := wellFormed_of_checkAll entries h.2
    exact .directory h.1 (fun e he => (hentries e he).1) fun e he => (hentries e he).2

theorem wellFormed_of_checkAll : ∀ entries : List (String × Node), areWellFormed entries = true →
    ∀ e ∈ entries, IsName e.1 ∧ e.2.WellFormed
  | [], _ => nofun
  | (name, child) :: rest, h => by
    rw [areWellFormed, Bool.and_eq_true, Bool.and_eq_true, decide_eq_true_eq] at h
    obtain ⟨⟨hname, hchild⟩, hrest⟩ := h
    rw [List.forall_mem_cons]
    exact ⟨⟨hname, wellFormed_of_check child hchild⟩, wellFormed_of_checkAll rest hrest⟩

end

/-- A tree is well formed when it passes the check. -/
theorem isWellFormed_iff {node : Node} : node.isWellFormed = true ↔ node.WellFormed := by
  refine ⟨wellFormed_of_check node, ?_⟩
  intro h
  -- The converse goes by the rules for well formed trees, so the entries come with it.
  induction h with
  | file content => rfl
  | link target => rfl
  | directory distinct named below ih =>
    rw [isWellFormed, Bool.and_eq_true, decide_eq_true_eq, areWellFormed_iff]
    exact ⟨distinct, fun e he => ⟨named e he, ih e he⟩⟩

instance (node : Node) : Decidable node.WellFormed := decidable_of_iff _ isWellFormed_iff

end LintFront.Node
