import LintFront.Proofs.FileTree.Respelling
import LintFront.Proofs.Path.Length
import LintFront.Proofs.Path.Null
/-!
# Going on from a path

A path is a beginning and what comes after it, and the disk follows the one before the other. So a
path that leads somewhere leads through a directory at each of its slashes. And two spellings of a
directory are as good as each other when they can be gone on from alike, by whatever components;
then a name in the one is a name in the other, unless one of them is too long.

## Main statements

`Disk.exists_list_of_node_join`: what a path leads to lies in a directory. `Disk.SameWay`: spellings
that can be gone on from alike. `Disk.SameWay.node_descend`: they have the same things below them.
`Disk.follow_of_fewer_links`: what the number of links that may be followed has to do with it.
-/

namespace LintFront

namespace Disk

variable {disk : Disk} {s s' : String}

/-! ## 1. Spelling a way down -/

theorem steps_of_endsInPiece (h : Path.EndsInPiece s) :
    steps s = (Path.pieces s).filter (· ≠ "") := by
  rw [steps, if_neg (Path.endsInPiece_iff.1 h).2, List.append_nil]

/-- A name in a directory is followed after the directory. -/
theorem steps_join (h : Path.EndsInPiece s) {name : String} (hname : Path.IsComponent name) :
    steps (Path.join s name) = steps s ++ [name] := by
  have hne : name ≠ "" := fun heq => hname.ne_nil (by rw [heq]; rfl)
  rw [steps_of_endsInPiece (hname.endsInPiece.join s), steps_of_endsInPiece h,
    Path.join_of_endsInPiece h hname.not_isAbsolute, Path.pieces_append, List.filter_append,
    Path.pieces_of_notMem hname.2, List.filter_cons_of_pos (by simpa using hne), List.filter_nil]

/-- A way down is followed after its beginning. -/
theorem steps_descend (h : Path.EndsInPiece s) {names : List String}
    (hnames : ∀ name ∈ names, Path.IsComponent name) :
    steps (names.foldl Path.join s) = steps s ++ names := by
  induction names generalizing s with
  | nil => rw [List.foldl_nil, List.append_nil]
  | cons name names ih =>
    obtain ⟨hname, hnames⟩ := List.forall_mem_cons.1 hnames
    rw [List.foldl_cons, ih (hname.endsInPiece.join s) hnames, steps_join h hname,
      List.append_assoc]
    rfl

theorem start_descend (place : List String) {names : List String}
    (hnames : ∀ name ∈ names, Path.IsComponent name) :
    start place (names.foldl Path.join s) = start place s :=
  start_eq_of_anchor (by rw [Path.parse_descend s hnames])

theorem start_join (place : List String) {name : String} (hname : Path.IsComponent name) :
    start place (Path.join s name) = start place s :=
  start_eq_of_anchor (by rw [Path.parse_join s hname])

/-! ## 2. The beginning of a path -/

/-- The beginning of a path that leads somewhere leads somewhere itself. -/
theorem exists_follow_of_append {root : Node} {links : Nat}
    {place before after target : List String}
    (h : follow root links place (before ++ after) = .ok target) :
    ∃ middle links', follow root links place before = .ok middle ∧
      follow root links' middle after = .ok target := by
  induction links, place, before using follow_induction root with
  | nil links place => exact ⟨place, links, follow_nil _ _ _, h⟩
  | cons links place step rest ih =>
    -- What a step puts before the rest, as a link does, comes before all that is appended.
    obtain ⟨s, hs, hrest⟩ := follow_cons_eq_ok_iff.1 h
    have hassoc : s.before ++ rest.append after = (s.before ++ rest) ++ after :=
      (List.append_assoc _ _ _).symm
    rw [hassoc] at hrest
    obtain ⟨middle, links', hmiddle, hafter⟩ := ih s hs hrest
    exact ⟨middle, links', follow_cons_eq_ok_iff.2 ⟨s, hs, hmiddle⟩, hafter⟩

/-- What comes after a path that leads somewhere is followed from there, with the links that are
left. -/
theorem exists_links_of_follow {root : Node} {links : Nat} {place before target : List String}
    (h : follow root links place before = .ok target) :
    ∃ links', links' ≤ links ∧ ∀ after,
      follow root links place (before ++ after) = follow root links' target after := by
  induction links, place, before using follow_induction root with
  | nil links place =>
    obtain rfl : place = target := by simpa using h
    exact ⟨links, Nat.le_refl _, fun after => rfl⟩
  | cons links place step rest ih =>
    obtain ⟨s, hs, hrest⟩ := follow_cons_eq_ok_iff.1 h
    obtain ⟨links', hle, hgo⟩ := ih s hs hrest
    refine ⟨links', hle.trans ?_, fun after => ?_⟩
    · rcases stride_decreases hs with hlt | ⟨heq, -⟩
      · exact Nat.le_of_lt hlt
      · exact Nat.le_of_eq heq
    · rw [List.cons_append, follow_cons, hs]
      have hafter := hgo after
      rwa [List.append_assoc] at hafter

/-- A path goes on from a directory. -/
theorem exists_directory_of_follow_cons {root : Node} {links : Nat}
    {place rest target : List String} {step : String}
    (h : follow root links place (step :: rest) = .ok target) :
    ∃ entries, root.at? place = some (.directory entries) := by
  obtain ⟨s, hs, -⟩ := follow_cons_eq_ok_iff.1 h
  apply Node.shapeAt_eq_directory_iff.1
  unfold stride at hs
  split at hs <;> rename_i hshape
  · cases hs
  · cases hs
  · cases hs
  · exact hshape

/-- A shortest spelling leads where its components lead. The one dot of a path without components
asks for a directory, so there has to be one. -/
theorem resolve_text {p : Path} {place : List String} (hspelled : p.WellSpelled)
    (hnull : Path.NullFree p.text) (hsize : p.text.utf8ByteSize ≤ maxPathBytes)
    (hfollow : follow disk.root maxLinks (start disk.here p.text) p.names = .ok place)
    (hplace : p.names = [] → ∃ entries, disk.root.at? place = some (.directory entries)) :
    disk.resolve p.text = .ok place := by
  refine resolve_eq_ok_iff.2 ⟨hnull, Path.text_ne_empty hspelled, hsize, ?_⟩
  rw [steps_text hspelled]
  split
  · rename_i hnil
    obtain ⟨entries, hentries⟩ := hplace hnil
    rw [hnil, follow_nil] at hfollow
    obtain rfl := Except.ok.inj hfollow
    rw [follow_cons, stride, Node.shapeAt_of_at? hentries]
    exact follow_nil _ _ _
  · exact hfollow

/-- Where a path goes through real directories their names are short enough. -/
theorem isEntryName_of_follow {root node : Node} {links : Nat}
    {place names rest target : List String}
    (hnames : ∀ name ∈ names, Node.IsName name) (hat : root.at? (place ++ names) = some node)
    (hlink : ∀ text, node ≠ .link text)
    (h : follow root links place (names ++ rest) = .ok target) :
    ∀ name ∈ names, IsEntryName name := by
  induction names generalizing place with
  | nil => exact fun _ hname => nomatch hname
  | cons name after ih =>
    obtain ⟨hname, hafter⟩ := List.forall_mem_cons.1 hnames
    obtain ⟨-, hdot, hup, -, -⟩ := hname
    obtain ⟨entries, next, hplace, hentry, hnext⟩ := exists_entry_of_at? hat hlink
    obtain ⟨s, hs, hrest⟩ := follow_cons_eq_ok_iff.1 h
    -- A name that is too long would have been refused before it was looked up.
    have hsize : name.utf8ByteSize ≤ maxNameBytes := by
      by_contra hlong
      rw [stride, Node.shapeAt_of_at? hplace] at hs
      dsimp only [Node.shape] at hs
      rw [if_neg hdot, if_neg hup, if_pos (Nat.lt_of_not_le hlong)] at hs
      cases hs
    have hentryName : IsEntryName name := ⟨hdot, hup, hsize⟩
    rw [stride_of_find? hentryName hplace hentry hnext] at hs
    obtain rfl := Except.ok.inj hs
    rw [List.append_cons] at hat
    exact List.forall_mem_cons.2 ⟨hentryName, ih hafter hat hrest⟩

/-- What a path leads to lies in a directory. -/
theorem exists_list_of_node_join (h : Path.EndsInPiece s) {name : String} (hname : Node.IsName name)
    {node : Node} (hnode : disk.node (Path.join s name) = .ok node) :
    ∃ entries, disk.list s = .ok entries := by
  have hcomponent := Path.isComponent_of_isName hname
  obtain ⟨place, hresolve, -⟩ := node_eq_ok_iff.1 hnode
  obtain ⟨hnull, -, hsize, hfollow⟩ := resolve_eq_ok_iff.1 hresolve
  rw [Path.join_of_endsInPiece h hcomponent.not_isAbsolute] at hnull
  rw [steps_join h hcomponent, start_join disk.here hcomponent] at hfollow
  rw [Path.size_join h hcomponent] at hsize
  obtain ⟨middle, links, hmiddle, hlast⟩ := exists_follow_of_append hfollow
  obtain ⟨entries, hentries⟩ := exists_directory_of_follow_cons hlast
  have hresolve' : disk.resolve s = .ok middle := by
    refine resolve_eq_ok_iff.2 ⟨?_, (Path.endsInPiece_iff.1 h).1, by omega, hmiddle⟩
    exact (Path.nullFree_append.1 (Path.nullFree_append.1 hnull).1).1
  exact ⟨entries, by rw [Disk.list, node_eq_ok_iff.2 ⟨middle, hresolve', hentries⟩]⟩

/-! ## 3. Spellings that can be gone on from alike -/

/-- Two spellings after which a name comes with a slash between, and which are followed alike
whatever comes after them. -/
structure SameWay (disk : Disk) (s s' : String) : Prop where
  endsInPiece : Path.EndsInPiece s
  endsInPiece' : Path.EndsInPiece s'
  nullFree : Path.NullFree s
  nullFree' : Path.NullFree s'
  follow_eq : ∀ rest, follow disk.root maxLinks (start disk.here s) (steps s ++ rest) =
    follow disk.root maxLinks (start disk.here s') (steps s' ++ rest)

/-- How a path is resolved that is neither empty nor too long and holds no null character. -/
theorem resolve_eq_follow {path : String} (hnull : Path.NullFree path) (hempty : path ≠ "")
    (hsize : path.utf8ByteSize ≤ maxPathBytes) :
    disk.resolve path = follow disk.root maxLinks (start disk.here path) (steps path) := by
  rw [resolve, if_neg hnull, if_neg hempty, if_neg (Nat.not_lt.2 hsize)]

theorem resolve_descend (hs : Path.EndsInPiece s) (hnull : Path.NullFree s) {names : List String}
    (hnames : ∀ name ∈ names, Node.IsName name)
    (hsize : (names.foldl Path.join s).utf8ByteSize ≤ maxPathBytes) :
    disk.resolve (names.foldl Path.join s) =
      follow disk.root maxLinks (start disk.here s) (steps s ++ names) := by
  have hcomponents : ∀ name ∈ names, Path.IsComponent name :=
    fun name hname => Path.isComponent_of_isName (hnames name hname)
  have hnull' : Path.NullFree (names.foldl Path.join s) :=
    hnull.descend fun name hname => Path.nullFree_of_isName (hnames name hname)
  have hempty := (Path.endsInPiece_iff.1 (hs.descend hcomponents)).1
  rw [resolve_eq_follow hnull' hempty hsize, steps_descend hs hcomponents,
    start_descend disk.here hcomponents]

/-- Spellings that can be gone on from alike lead to the same places below them. -/
theorem SameWay.resolve_descend (h : disk.SameWay s s') {names : List String}
    (hnames : ∀ name ∈ names, Node.IsName name)
    (hsize : (names.foldl Path.join s).utf8ByteSize ≤ maxPathBytes)
    (hsize' : (names.foldl Path.join s').utf8ByteSize ≤ maxPathBytes) :
    disk.resolve (names.foldl Path.join s) = disk.resolve (names.foldl Path.join s') := by
  rw [Disk.resolve_descend h.endsInPiece h.nullFree hnames hsize,
    Disk.resolve_descend h.endsInPiece' h.nullFree' hnames hsize', h.follow_eq]

theorem SameWay.resolve_eq (h : disk.SameWay s s') (hsize : s.utf8ByteSize ≤ maxPathBytes)
    (hsize' : s'.utf8ByteSize ≤ maxPathBytes) : disk.resolve s = disk.resolve s' := by
  have hdown := h.resolve_descend (List.forall_mem_nil Node.IsName)
  rw [List.foldl_nil, List.foldl_nil] at hdown
  exact hdown hsize hsize'

/-- Spellings that can be gone on from alike have the same things below them. -/
theorem SameWay.node_descend (h : disk.SameWay s s') {names : List String}
    (hnames : ∀ name ∈ names, Node.IsName name)
    (hsize : (names.foldl Path.join s).utf8ByteSize ≤ maxPathBytes)
    (hsize' : (names.foldl Path.join s').utf8ByteSize ≤ maxPathBytes) :
    disk.node (names.foldl Path.join s) = disk.node (names.foldl Path.join s') := by
  rw [Disk.node, Disk.node, h.resolve_descend hnames hsize hsize']

theorem SameWay.node_join (h : disk.SameWay s s') {name : String} (hname : Node.IsName name)
    (hsize : (Path.join s name).utf8ByteSize ≤ maxPathBytes)
    (hsize' : (Path.join s' name).utf8ByteSize ≤ maxPathBytes) :
    disk.node (Path.join s name) = disk.node (Path.join s' name) := by
  have hnames : ∀ n ∈ [name], Node.IsName n := List.forall_mem_singleton.2 hname
  have hdown := h.node_descend hnames
  rw [List.foldl_cons, List.foldl_nil, List.foldl_cons, List.foldl_nil] at hdown
  exact hdown hsize hsize'

/-! ## 4. The links that are left -/

/-- With fewer links a component does the same, or the links run out. -/
theorem stride_of_fewer_links (root : Node) {links links' : Nat} (hle : links' ≤ links)
    (place : List String) (step : String) :
    stride root links' place step = .error .linkLoop ∨
      (∃ cause, stride root links' place step = .error cause ∧
        stride root links place step = .error cause) ∨
      ∃ left left' next before, left' ≤ left ∧
        stride root links' place step = .ok ⟨left', next, before⟩ ∧
        stride root links place step = .ok ⟨left, next, before⟩ := by
  unfold stride
  split
  · exact .inr (.inl ⟨_, rfl, rfl⟩)
  · exact .inr (.inl ⟨_, rfl, rfl⟩)
  · exact .inr (.inl ⟨_, rfl, rfl⟩)
  split
  · exact .inr (.inr ⟨_, _, _, _, hle, rfl, rfl⟩)
  split
  · exact .inr (.inr ⟨_, _, _, _, hle, rfl, rfl⟩)
  split
  · exact .inr (.inl ⟨_, rfl, rfl⟩)
  split
  · exact .inr (.inl ⟨_, rfl, rfl⟩)
  · cases links' with
    | zero => exact .inl rfl
    | succ links' =>
      obtain ⟨links, rfl⟩ := Nat.exists_eq_add_of_lt (Nat.lt_of_lt_of_le (Nat.succ_pos _) hle)
      exact .inr (.inr ⟨_, _, _, _, by omega, rfl, rfl⟩)
  · exact .inr (.inr ⟨_, _, _, _, hle, rfl, rfl⟩)
  · exact .inr (.inr ⟨_, _, _, _, hle, rfl, rfl⟩)

/-- With fewer links a path leads to the same place, or the links run out. -/
theorem follow_of_fewer_links (root : Node) {links links' : Nat} (hle : links' ≤ links)
    (place todo : List String) :
    follow root links' place todo = .error .linkLoop ∨
      follow root links' place todo = follow root links place todo := by
  induction links', place, todo using follow_induction root generalizing links with
  | nil links' place => exact .inr (by rw [follow_nil, follow_nil])
  | cons links' place step rest ih =>
    rw [follow_cons, follow_cons]
    rcases stride_of_fewer_links root hle place step with hloop | ⟨cause, hs', hs⟩ |
      ⟨left, left', next, before, hleft, hs', hs⟩
    · rw [hloop]
      exact .inl rfl
    · rw [hs', hs]
      exact .inr rfl
    · rw [hs', hs]
      exact ih _ hs' hleft

end Disk

end LintFront
