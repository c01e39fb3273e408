import LintFront.Proofs.FileTree.Following
import LintFront.Proofs.FileTree.Names
import LintFront.Proofs.Path.Null
/-!
# What can go wrong with a path

Of the reasons for which a path cannot be used, all but one are found on the disk, on the way that
the path goes. The null character is found in the path itself and nowhere else: a path without one
may be missing, or lead through a file, but it is looked up.

## Main statements

`Disk.node_ne_embeddedNull`, `Disk.read_eq_embeddedNull_iff`: only a path with a null character is
refused for one.
-/

namespace LintFront.Disk

variable {disk : Disk} {path : String}

theorem stride_ne_embeddedNull (root : Node) (links : Nat) (place : List String) (step : String) :
    stride root links place step ≠ .error .embeddedNull := by
  intro h
  -- Every case is either a stride or one of the other reasons.
  unfold stride at h
  split at h <;> try cases h
  split at h
  · cases h
  split at h
  · cases h
  split at h
  · cases h
  split at h <;> try cases h
  split at h <;> cases h

theorem follow_ne_embeddedNull (root : Node) (links : Nat) (place todo : List String) :
    follow root links place todo ≠ .error .embeddedNull := by
  induction links, place, todo using follow_induction root with
  | nil links place =>
    rw [follow_nil]
    nofun
  | cons links place step rest ih =>
    rw [follow_cons]
    cases hs : stride root links place step with
    | error cause =>
      intro heq
      obtain rfl : cause = .embeddedNull := Except.error.inj heq
      exact stride_ne_embeddedNull root links place step hs
    | ok s => exact ih s hs

theorem node_ne_embeddedNull (h : Path.NullFree path) : disk.node path ≠ .error .embeddedNull := by
  -- The way to the node is looked at first, since all that is left after it is whether it is there.
  have hresolve : disk.resolve path ≠ .error .embeddedNull := by
    rw [resolve, if_neg h]
    split
    · intro hempty
      cases hempty
    split
    · intro hlong
      cases hlong
    · exact follow_ne_embeddedNull _ _ _ _
  intro hnode
  unfold node at hnode
  split at hnode
  · rename_i cause hcause
    exact hresolve (hcause.trans (congrArg _ (Except.error.inj hnode)))
  · split at hnode <;> cases hnode

theorem list_ne_embeddedNull (h : Path.NullFree path) : disk.list path ≠ .error .embeddedNull := by
  intro hlist
  unfold list at hlist
  split at hlist
  · cases hlist
  · cases hlist
  · rename_i cause hcause
    exact node_ne_embeddedNull h (hcause.trans (congrArg _ (Except.error.inj hlist)))

theorem read_ne_embeddedNull (h : Path.NullFree path) : disk.read path ≠ .error .embeddedNull := by
  intro hread
  unfold read at hread
  split at hread
  · cases hread
  · cases hread
  · rename_i cause hcause
    exact node_ne_embeddedNull h.tidy (hcause.trans (congrArg _ (Except.error.inj hread)))

/-- A path is refused for a null character exactly when it holds one. -/
theorem read_eq_embeddedNull_iff : disk.read path = .error .embeddedNull ↔ ¬Path.NullFree path := by
  refine ⟨fun hread hnull => read_ne_embeddedNull hnull hread, fun hnull => ?_⟩
  have htidy : ¬Path.NullFree (Path.tidy path) := mt Path.nullFree_tidy_iff.1 hnull
  rw [read, node, resolve, if_pos (not_not.1 htidy)]

/-- A path that leads to anything is free of null characters. -/
theorem nullFree_of_node {node : Node} (h : disk.node path = .ok node) : Path.NullFree path := by
  obtain ⟨place, hresolve, -⟩ := node_eq_ok_iff.1 h
  exact (resolve_eq_ok_iff.1 hresolve).1

/-- The entries of a directory that can be listed are named by names. -/
theorem isName_of_list (hroot : disk.root.WellFormed) {entries : Entries Node}
    (h : disk.list path = .ok entries) {name : String} (hname : name ∈ entries.names) :
    Node.IsName name := by
  unfold list at h
  split at h
  · rename_i found hnode
    obtain ⟨place, -, hplace⟩ := node_eq_ok_iff.1 hnode
    obtain rfl := Except.ok.inj h
    exact (hroot.of_at? hplace).isName_of_mem_names hname
  · cases h
  · cases h

/-- The spelling of a working directory is free of null characters when its names are names. -/
theorem nullFree_cwd_of_isName (h : ∀ name ∈ disk.here, Node.IsName name) :
    Path.NullFree disk.cwd :=
  .text fun name hname => Path.nullFree_of_isName (h name hname)

/-- The spelling of a working directory that exists is free of null characters. -/
theorem nullFree_cwd (hroot : disk.root.WellFormed) {node : Node}
    (h : disk.root.at? disk.here = some node) : Path.NullFree disk.cwd :=
  nullFree_cwd_of_isName (hroot.isName_of_at? h)

end LintFront.Disk
