import LintFront.Proofs.Directory.Branches
import LintFront.Proofs.Directory.Files
import LintFront.Proofs.FileTree.Access
/-!
# Directories never end a run

Whatever a path leads to, or fails to lead to, a directory forms a unit or there is a reason why it
forms none. What would end the run is a null character. None can come from the disk, where names
hold none, so it is enough that the path at which one begins holds none.

## Main statements

`Directory.sound_unit`: a directory forms a unit or has a reason. `Directory.exists_expand_eq_ok`:
what is visited below a directory can always be told.
-/

namespace LintFront

/-- What can be gone on with: a unit whose paths can be looked up, or a reason why there is none. -/
inductive Sound : Except Trouble SourceUnit → Prop where
  | unit {unit : SourceUnit} (paths : ∀ path ∈ unit.files, Path.NullFree path) : Sound (.ok unit)
  | reason (error : UnitError) : Sound (.error (.noUnit error))

theorem Sound.ne_fault {resolved : Except Trouble SourceUnit} (h : Sound resolved) (fault : Fault) :
    resolved ≠ .error (.fault fault) := by
  rintro rfl
  cases h

namespace Directory

variable {disk : Disk} {excludes : List String} {d : String}

/-! ## 1. The unit of a directory -/

/-- A directory forms a unit, or there is a reason why it forms none. -/
theorem unit_ne_fault (hd : Path.NullFree d) (fault : Fault) :
    unit disk d ≠ .error (.fault fault) := by
  unfold unit
  cases hlist : disk.list d with
  | error cause =>
    have hcause : cause ≠ .embeddedNull := by
      rintro rfl
      exact Disk.list_ne_embeddedNull hd hlist
    cases cause with
    | embeddedNull => exact absurd rfl hcause
    | _ => nofun
  | ok entries =>
    dsimp only
    split <;> nofun

theorem nullFree_pathIn {name : String} (hd : Path.NullFree d) (hname : Path.NullFree name) :
    Path.NullFree (pathIn d name) := by
  unfold pathIn
  split
  · exact hname
  · exact hd.join hname

/-- A directory forms a unit whose paths can be looked up, or has a reason. -/
theorem sound_unit (hroot : disk.root.WellFormed) (hd : Path.NullFree d) :
    Sound (unit disk d) := by
  cases hlist : disk.list d with
  | error cause =>
    have hfault : ∀ fault, unit disk d ≠ .error (.fault fault) := unit_ne_fault hd
    rw [unit, hlist] at hfault ⊢
    dsimp only at hfault ⊢
    cases htrouble : listingTrouble d cause with
    | noUnit error => exact .reason error
    | fault fault => exact absurd (congrArg _ htrouble) (hfault fault)
  | ok entries =>
    by_cases hsome : (eligible disk d entries).isEmpty = false
    · rw [unit_of_not_isEmpty hlist hsome]
      refine .unit fun path hpath => ?_
      obtain ⟨name, hname, rfl⟩ := mem_files_iff.1 hpath
      have hentry := Disk.isName_of_list hroot hlist hname.listed
      exact nullFree_pathIn hd (Path.nullFree_of_isName hentry)
    · rw [unit_of_isEmpty hlist (by simpa using hsome)]
      exact .reason _

/-! ## 2. The directories below a directory -/

theorem exists_isBuildable_eq_ok (hd : Path.NullFree d) :
    ∃ yes, isBuildable disk d = .ok yes := by
  unfold isBuildable
  split
  · exact ⟨_, rfl⟩
  · exact ⟨_, rfl⟩
  · exact ⟨_, rfl⟩
  · rename_i fault hfault
    exact absurd hfault (unit_ne_fault hd fault)

/-- What a walk visits can be looked up. -/
theorem exists_walk_eq_ok (hroot : disk.root.WellFormed) (hd : Path.NullFree d) :
    ∃ paths, walk disk excludes d = .ok paths ∧ ∀ path ∈ paths, Path.NullFree path := by
  -- A path that leads nowhere is walked too, and nothing is visited.
  cases hnode : disk.node d with
  | error cause =>
    have hcause : cause ≠ .embeddedNull := by
      rintro rfl
      exact Disk.node_ne_embeddedNull hd hnode
    refine ⟨[], ?_, nofun⟩
    rw [walk, hnode]
    cases cause with
    | embeddedNull => exact absurd rfl hcause
    | _ => rfl
  | ok node =>
    obtain ⟨place, -, hplace⟩ := Disk.node_eq_ok_iff.1 hnode
    have hwell := hroot.of_at? hplace
    refine ⟨_, walk_of_node hnode, ?_⟩
    intro path hpath
    obtain ⟨long, hlong, rfl⟩ := List.mem_map.1 hpath
    obtain ⟨names, hnames, rfl⟩ := List.mem_map.1 (List.mem_filter.1 hlong).1
    obtain ⟨⟨entries, hentries⟩, -⟩ := (Node.mem_branches hwell).1 hnames
    apply Path.NullFree.normal
    exact hd.descend fun name hname =>
      Path.nullFree_of_isName (hwell.isName_of_at? hentries name hname)

/-- What is visited below a directory can always be told. -/
theorem exists_expand_eq_ok (hroot : disk.root.WellFormed) (hd : Path.NullFree d) :
    ∃ paths, expand disk excludes d = .ok paths ∧ ∀ path ∈ paths, Path.NullFree path := by
  obtain ⟨visited, hwalk, hvisited⟩ : ∃ paths, walk disk excludes d = .ok paths ∧
      ∀ path ∈ paths, Path.NullFree path := exists_walk_eq_ok hroot hd
  have hjudged : ∀ path ∈ visited, ∃ yes, isBuildable disk path = .ok yes :=
    fun path hpath => exists_isBuildable_eq_ok (hvisited path hpath)
  refine ⟨visited.filter (isAccepted (isBuildable disk)), ?_,
    fun path hpath => hvisited path (List.mem_of_mem_filter hpath)⟩
  rw [expand, hwalk]
  exact accepted_eq_ok_iff.2 ⟨hjudged, rfl⟩

end Directory

end LintFront
