import LintFront.FileTree.Node
import LintFront.Path
import Mathlib.Data.List.Induction
import Mathlib.Data.List.TakeWhile
/-!
# Spellings of paths

A path taken apart has an anchor of at most two slashes and components that say something and hold
no slash. Such a path is recovered from its spelling, so what is taken apart and spelled again is in
the shortest spelling once and for all.

## Main statements

`Path.parse_text`: a well spelled path is recovered from its spelling. `Path.tidy_tidy`: the
shortest spelling is its own. `Path.parse_join`: a name in a directory is one component more.
`Path.split_join`: it is split off again. `Path.names_collapse_sublist`: a path without its parent
components has fewer components, in the same order. `Path.size_tidy_le`: the shortest spelling is
not longer than any other.
-/

namespace LintFront.Path

/-! ## 1. Pieces between slashes -/

theorem pieces_append (a b : String) : pieces (a ++ "/" ++ b) = pieces a ++ pieces b := by
  have hlist : (a ++ "/" ++ b).toList = a.toList ++ '/' :: b.toList := by simp
  rw [pieces, hlist, List.splitOn_append_cons_self, List.map_append]
  rfl

theorem pieces_of_notMem {s : String} (h : '/' ∉ s.toList) : pieces s = [s] := by
  rw [pieces, List.splitOn_eq_singleton h, List.map_singleton, String.ofList_toList]

theorem pieces_slash_append (s : String) : pieces ("/" ++ s) = "" :: pieces s :=
  pieces_append "" s

theorem pieces_append_slash (s : String) : pieces (s ++ "/") = pieces s ++ [""] := by
  have hempty : s ++ "/" = s ++ "/" ++ "" := String.append_empty.symm
  rw [hempty, pieces_append]
  rfl

theorem pieces_intercalate {names : List String} (h : ∀ n ∈ names, '/' ∉ n.toList)
    (hne : names ≠ []) : pieces ("/".intercalate names) = names := by
  induction names with
  | nil => exact absurd rfl hne
  | cons name rest ih =>
    cases rest with
    | nil => rw [String.intercalate_singleton, pieces_of_notMem (h name List.mem_cons_self)]
    | cons next rest =>
      rw [String.intercalate_cons_cons, pieces_append,
        pieces_of_notMem (h name List.mem_cons_self),
        ih (fun n hn => h n (List.mem_cons_of_mem _ hn)) (List.cons_ne_nil _ _)]
      rfl

theorem intercalate_pieces (s : String) : "/".intercalate (pieces s) = s := by
  rw [← String.toList_inj, String.toList_intercalate, pieces, List.map_map]
  have hid : (String.toList ∘ String.ofList) = id := funext fun _ => String.toList_ofList
  rw [hid, List.map_id]
  exact List.intercalate_splitOn '/'

/-- What lies between slashes is text without slashes. -/
theorem mem_of_mem_splitOn {c sep : Char} {piece s : List Char} (hpiece : piece ∈ s.splitOn sep)
    (hc : c ∈ piece) : c ∈ s ∧ c ≠ sep := by
  induction s generalizing piece with
  | nil =>
    obtain rfl : piece = [] := by simpa using hpiece
    cases hc
  | cons first s ih =>
    rw [List.splitOn_cons_eq_if_modifyHead] at hpiece
    obtain ⟨head, tail, hsplit⟩ := List.exists_cons_of_ne_nil (List.splitOn_ne_nil sep s)
    rw [hsplit] at hpiece ih
    -- The first character either is the separator and opens a piece, or belongs to the first piece
    -- of the others.
    split at hpiece
    · rcases List.mem_cons.1 hpiece with rfl | hpiece
      · cases hc
      · obtain ⟨hmem, hne⟩ := ih hpiece hc
        exact ⟨List.mem_cons_of_mem _ hmem, hne⟩
    · rename_i hfirst
      rw [List.modifyHead_cons] at hpiece
      rcases List.mem_cons.1 hpiece with rfl | hpiece
      · rcases List.mem_cons.1 hc with rfl | hc
        · exact ⟨List.mem_cons_self, by simpa using hfirst⟩
        · obtain ⟨hmem, hne⟩ := ih List.mem_cons_self hc
          exact ⟨List.mem_cons_of_mem _ hmem, hne⟩
      · obtain ⟨hmem, hne⟩ := ih (List.mem_cons_of_mem _ hpiece) hc
        exact ⟨List.mem_cons_of_mem _ hmem, hne⟩

theorem mem_of_mem_pieces {c : Char} {piece s : String} (hpiece : piece ∈ pieces s)
    (hc : c ∈ piece.toList) : c ∈ s.toList ∧ c ≠ '/' := by
  obtain ⟨l, hl, rfl⟩ := List.mem_map.1 hpiece
  rw [String.toList_ofList] at hc
  exact mem_of_mem_splitOn hl hc

/-! ## 2. Well spelled paths -/

/-- May the text be a component of a path taken apart? -/
def IsComponent (name : String) : Prop := isTelling name = true ∧ '/' ∉ name.toList

/-- The paths that come of taking a spelling apart. -/
structure WellSpelled (p : Path) : Prop where
  anchor_le : p.anchor ≤ 2
  components : ∀ name ∈ p.names, IsComponent name

theorem isComponent_of_isName {name : String} (h : Node.IsName name) : IsComponent name := by
  obtain ⟨hempty, hdot, -, hslash, -⟩ := h
  exact ⟨by simp [isTelling, hempty, hdot], hslash⟩

theorem IsComponent.ne_nil {name : String} (h : IsComponent name) : name.toList ≠ [] := by
  intro hnil
  obtain rfl : name = "" := by rw [← String.toList_inj, hnil]; rfl
  exact absurd h.1 (by decide)

/-- A component does not begin with a slash. -/
theorem IsComponent.head?_append {name : String} (h : IsComponent name) (l : List Char) :
    (name.toList ++ l).head? ≠ some '/' := by
  obtain ⟨c, cs, hname⟩ := List.exists_cons_of_ne_nil h.ne_nil
  intro hhead
  rw [hname, List.cons_append, List.head?_cons] at hhead
  exact h.2 (by rw [hname, Option.some.inj hhead]; exact List.mem_cons_self)

theorem anchorOf_le (s : String) : anchorOf s ≤ 2 := by
  unfold anchorOf
  split <;> decide

theorem wellSpelled_parse (s : String) : (parse s).WellSpelled where
  anchor_le := anchorOf_le s
  components := by
    intro name hname
    obtain ⟨hpiece, htelling⟩ := List.mem_filter.1 hname
    exact ⟨htelling, fun hslash => (mem_of_mem_pieces hpiece hslash).2 rfl⟩

theorem mem_of_mem_names_parse {c : Char} {name s : String} (hname : name ∈ (parse s).names)
    (hc : c ∈ name.toList) : c ∈ s.toList :=
  (mem_of_mem_pieces (List.mem_filter.1 hname).1 hc).1

/-- The anchor that so many slashes make. -/
def anchorOfCount : Nat → Nat
  | 0 => 0
  | 2 => 2
  | _ => 1

theorem anchorOf_eq (s : String) :
    anchorOf s = anchorOfCount (s.toList.takeWhile (· = '/')).length := by
  unfold anchorOf
  generalize s.toList = l
  -- The anchor is settled by the first three characters, since three slashes are as good as one.
  rcases l with _ | ⟨a, _ | ⟨b, _ | ⟨c, rest⟩⟩⟩
  · rfl
  · by_cases ha : a = '/' <;> simp [ha, anchorOfCount]
  · by_cases ha : a = '/' <;> by_cases hb : b = '/' <;> simp [ha, hb, anchorOfCount]
  · by_cases ha : a = '/' <;> by_cases hb : b = '/' <;> by_cases hc : c = '/' <;>
      simp [ha, hb, hc, anchorOfCount]

/-- The anchor is settled by a text with something else than slashes in it, and by any text that is
followed by something else than a slash. -/
theorem anchorOf_append {a b : String}
    (h : (∃ c ∈ a.toList, c ≠ '/') ∨ b.toList.head? ≠ some '/') :
    anchorOf (a ++ b) = anchorOf a := by
  rw [anchorOf_eq, anchorOf_eq, String.toList_append, List.takeWhile_append]
  -- The slashes go on into the second text only if the first is nothing but slashes.
  split
  · rename_i hall
    rcases h with ⟨c, hc, hne⟩ | hhead
    · have hself : a.toList.takeWhile (· = '/') = a.toList :=
        (List.takeWhile_prefix _).eq_of_length hall
      exact absurd (by simpa using List.takeWhile_eq_self_iff.1 hself c hc) hne
    · have hnone : b.toList.takeWhile (· = '/') = [] := by
        cases hb : b.toList with
        | nil => rfl
        | cons c cs =>
          rw [hb, List.head?_cons] at hhead
          rw [List.takeWhile_cons_of_neg]
          simpa using fun hc => hhead (congrArg some hc)
      rw [hnone, List.append_nil, hall]
  · rfl

/-- The slashes of an anchor. -/
def slashes (n : Nat) : String := String.ofList (List.replicate n '/')

theorem pieces_slashes_append (n : Nat) (s : String) :
    pieces (slashes n ++ s) = List.replicate n "" ++ pieces s := by
  induction n with
  | zero =>
    rw [show slashes 0 ++ s = s from String.empty_append]
    rfl
  | succ n ih =>
    have hcons : slashes (n + 1) ++ s = "/" ++ (slashes n ++ s) := by
      rw [← String.toList_inj]
      simp [slashes, List.replicate_succ]
    rw [hcons, pieces_slash_append, ih]
    rfl

theorem filter_pieces_slashes_append (n : Nat) (s : String) :
    (pieces (slashes n ++ s)).filter isTelling = (pieces s).filter isTelling := by
  rw [pieces_slashes_append, List.filter_append, List.filter_replicate]
  rfl

theorem anchorOf_slashes {n : Nat} (h : n ≤ 2) : anchorOf (slashes n) = n := by
  match n, h with
  | 0, _ => rfl
  | 1, _ => rfl
  | 2, _ => rfl

theorem text_of_names {p : Path} (h : p.names ≠ []) :
    p.text = slashes p.anchor ++ "/".intercalate p.names := by
  rw [text, if_neg fun hboth => h hboth.2]
  rfl

theorem pieces_text {p : Path} (h : p.WellSpelled) (hne : p.names ≠ []) :
    pieces p.text = List.replicate p.anchor "" ++ p.names := by
  rw [text_of_names hne, pieces_slashes_append,
    pieces_intercalate (fun n hn => (h.components n hn).2) hne]

/-- A spelling with components does not begin with a slash behind its anchor. -/
theorem head?_intercalate {names : List String} (h : ∀ name ∈ names, IsComponent name) :
    ("/".intercalate names).toList.head? ≠ some '/' := by
  cases names with
  | nil => simp
  | cons name rest =>
    rw [String.toList_intercalate, List.map_cons]
    cases rest with
    | nil => simpa using (h name List.mem_cons_self).head?_append []
    | cons next rest =>
      rw [List.map_cons, List.intercalate_cons_cons, List.append_assoc]
      exact (h name List.mem_cons_self).head?_append _

/-- A well spelled path is recovered from its spelling. -/
theorem parse_text {p : Path} (h : p.WellSpelled) : parse p.text = p := by
  by_cases hne : p.names = []
  · obtain ⟨anchor, names⟩ := p
    dsimp only at hne
    subst hne
    -- Without components there are three spellings: a dot, one slash, and two.
    match anchor, h.anchor_le with
    | 0, _ => decide
    | 1, _ => decide
    | 2, _ => decide
  · have hanchor : anchorOf p.text = p.anchor := by
      rw [text_of_names hne, anchorOf_append (.inr (head?_intercalate h.components)),
        anchorOf_slashes h.anchor_le]
    have hnames : (pieces p.text).filter isTelling = p.names := by
      rw [pieces_text h hne, List.filter_append, List.filter_replicate]
      exact List.filter_eq_self.2 fun n hn => (h.components n hn).1
    rw [parse, hanchor, hnames]

/-- Even the path without components is spelled by a dot. -/
theorem text_ne_empty {p : Path} (h : p.WellSpelled) : p.text ≠ "" := by
  intro hempty
  have hparse := parse_text h
  rw [hempty] at hparse
  rw [← hparse] at hempty
  exact absurd hempty (by decide)

/-- Spelled again, a path taken apart is in its shortest spelling. -/
theorem parse_tidy (s : String) : parse (tidy s) = parse s := parse_text (wellSpelled_parse s)

theorem tidy_tidy (s : String) : tidy (tidy s) = tidy s := by
  rw [tidy, parse_tidy, tidy]

/-- A spelling whose last character is no slash, so that one has to come before a further name. -/
def EndsInPiece (s : String) : Prop := ∃ stem c, s.toList = stem ++ [c] ∧ c ≠ '/'

theorem endsInPiece_iff {s : String} :
    EndsInPiece s ↔ s ≠ "" ∧ ¬Text.hasEnding s "/" = true := by
  constructor
  · rintro ⟨stem, c, hstem, hc⟩
    constructor
    · rintro rfl
      simp at hstem
    · intro hend
      obtain ⟨start, rfl⟩ := Text.hasEnding_iff.1 hend
      rw [String.toList_append] at hstem
      exact hc (List.cons.inj (List.append_inj' hstem rfl).2).1.symm
  · rintro ⟨hempty, hend⟩
    obtain ⟨stem, c, hstem⟩ : ∃ stem c, s.toList = stem ++ [c] := by
      refine ⟨_, _, (List.dropLast_concat_getLast ?_).symm⟩
      rwa [Ne, String.toList_eq_nil_iff]
    refine ⟨stem, c, hstem, ?_⟩
    rintro rfl
    apply hend
    rw [Text.hasEnding, List.isSuffixOf_iff_suffix, hstem]
    exact List.suffix_append stem _

/-- A spelling that does not end in a slash has something else in it. -/
theorem EndsInPiece.exists_mem_ne_slash {s : String} (h : EndsInPiece s) :
    ∃ c ∈ s.toList, c ≠ '/' := by
  obtain ⟨stem, c, hstem, hc⟩ := h
  exact ⟨c, by rw [hstem]; simp, hc⟩

theorem isAbsolute_iff {s : String} : isAbsolute s = true ↔ s.toList.head? = some '/' := by
  rw [isAbsolute, String.startsWith_string_iff]
  cases hs : s.toList with
  | nil => simp
  | cons c cs => simp [eq_comm]

theorem isAbsolute_iff_anchorOf {s : String} : isAbsolute s = true ↔ anchorOf s ≠ 0 := by
  rw [isAbsolute_iff, anchorOf]
  split <;> rename_i h
  · simp [h]
  · simp [h]
  · simp [h]
  · cases hlist : s.toList with
    | nil => simp
    | cons c cs =>
      simp only [List.head?_cons, Option.some.injEq, ne_eq, not_true_eq_false, iff_false]
      rintro rfl
      exact h cs hlist

theorem isAbsolute_iff_anchor {s : String} : isAbsolute s = true ↔ (parse s).anchor ≠ 0 :=
  isAbsolute_iff_anchorOf

/-- Whether a path is absolute is settled by its anchor. -/
theorem isAbsolute_congr {s s' : String} (h : (parse s).anchor = (parse s').anchor) :
    isAbsolute s = isAbsolute s' := by
  rw [Bool.eq_iff_iff, isAbsolute_iff_anchorOf, isAbsolute_iff_anchorOf]
  exact iff_of_eq (congrArg (· ≠ 0) h)

/-! ## 3. A path in a directory -/

/-- A relative path in a directory has the components of both. -/
theorem parse_join_of_relative (directory : String) {s : String} (h : ¬isAbsolute s = true) :
    parse (join directory s) =
      ⟨(parse directory).anchor, (parse directory).names ++ (parse s).names⟩ := by
  have hhead : s.toList.head? ≠ some '/' := mt isAbsolute_iff.2 h
  rw [join, if_neg h]
  split
  · rename_i hends
    rw [parse, anchorOf_append (.inr hhead)]
    refine congrArg (Path.mk (anchorOf directory)) ?_
    rcases hends with rfl | hends
    · rw [String.empty_append]
      rfl
    · -- What stands between the slash at the end and the path is nothing.
      obtain ⟨stem, rfl⟩ := Text.hasEnding_iff.1 hends
      rw [pieces_append, List.filter_append, parse, pieces_append_slash, List.filter_append]
      simp [isTelling, parse]
  · rename_i hends
    have hends := endsInPiece_iff.2 (not_or.1 hends)
    rw [parse, String.append_assoc, anchorOf_append (.inl hends.exists_mem_ne_slash),
      ← String.append_assoc, pieces_append, List.filter_append]
    rfl

theorem IsComponent.not_isAbsolute {name : String} (h : IsComponent name) :
    ¬isAbsolute name = true := by
  rw [isAbsolute_iff]
  simpa using h.head?_append []

theorem parse_of_isComponent {name : String} (h : IsComponent name) : parse name = ⟨0, [name]⟩ := by
  have hanchor : anchorOf name = 0 := not_not.1 (mt isAbsolute_iff_anchorOf.2 h.not_isAbsolute)
  rw [parse, hanchor, pieces_of_notMem h.2, List.filter_cons_of_pos h.1, List.filter_nil]

/-- A name in a directory is one component more. -/
theorem parse_join (directory : String) {name : String} (h : IsComponent name) :
    parse (join directory name) =
      ⟨(parse directory).anchor, (parse directory).names ++ [name]⟩ := by
  rw [parse_join_of_relative directory h.not_isAbsolute, parse_of_isComponent h]

/-- A sequence of names in a directory is so many components more. -/
theorem parse_descend (directory : String) {names : List String}
    (h : ∀ name ∈ names, IsComponent name) :
    parse (names.foldl join directory) =
      ⟨(parse directory).anchor, (parse directory).names ++ names⟩ := by
  induction names generalizing directory with
  | nil => rw [List.foldl_nil, List.append_nil]
  | cons name names ih =>
    rw [List.foldl_cons, ih _ fun n hn => h n (List.mem_cons_of_mem _ hn),
      parse_join directory (h name List.mem_cons_self), List.append_assoc]
    rfl

/-! ## 4. Spellings that end in a component -/

theorem EndsInPiece.append (a : String) {b : String} (h : EndsInPiece b) :
    EndsInPiece (a ++ b) := by
  obtain ⟨stem, c, hstem, hc⟩ := h
  exact ⟨a.toList ++ stem, c, by rw [String.toList_append, hstem, List.append_assoc], hc⟩

theorem IsComponent.endsInPiece {name : String} (h : IsComponent name) : EndsInPiece name := by
  refine ⟨_, _, (List.dropLast_concat_getLast h.ne_nil).symm, ?_⟩
  intro hslash
  exact h.2 (hslash ▸ List.getLast_mem h.ne_nil)

theorem join_of_endsInPiece {directory name : String} (h : EndsInPiece directory)
    (hname : ¬isAbsolute name = true) : join directory name = directory ++ "/" ++ name := by
  rw [join, if_neg hname, if_neg (not_or.2 (endsInPiece_iff.1 h))]

theorem EndsInPiece.join (directory : String) {name : String} (h : EndsInPiece name) :
    EndsInPiece (Path.join directory name) := by
  unfold Path.join
  split
  · exact h
  split
  · exact h.append directory
  · exact h.append _

/-- A way down ends in a component when its beginning does. -/
theorem EndsInPiece.descend {directory : String} (h : EndsInPiece directory) {names : List String}
    (hnames : ∀ name ∈ names, IsComponent name) :
    EndsInPiece (names.foldl Path.join directory) := by
  induction names generalizing directory with
  | nil => exact h
  | cons name names ih =>
    obtain ⟨hname, hnames⟩ := List.forall_mem_cons.1 hnames
    exact ih (hname.endsInPiece.join directory) hnames

theorem dropEndSlashes_of_endsInPiece {s : String} (h : EndsInPiece s) :
    dropEndSlashes s.toList = s.toList := by
  obtain ⟨stem, c, hstem, hc⟩ := h
  rw [dropEndSlashes, hstem, List.reverse_append, List.reverse_singleton, List.singleton_append,
    List.dropWhile_cons_of_neg (by simpa using hc)]
  simp

theorem endsInPiece_intercalate {names : List String} (h : ∀ name ∈ names, IsComponent name)
    (hne : names ≠ []) : EndsInPiece ("/".intercalate names) := by
  induction names with
  | nil => exact absurd rfl hne
  | cons name rest ih =>
    obtain ⟨hname, hrest⟩ := List.forall_mem_cons.1 h
    cases rest with
    | nil => rw [String.intercalate_singleton]; exact hname.endsInPiece
    | cons next rest =>
      rw [String.intercalate_cons_cons]
      exact (ih hrest (List.cons_ne_nil _ _)).append _

/-- The spelling of a path with components ends in one. -/
theorem endsInPiece_text {p : Path} (h : ∀ name ∈ p.names, IsComponent name) (hne : p.names ≠ []) :
    EndsInPiece p.text := by
  rw [text_of_names hne]
  exact (endsInPiece_intercalate h hne).append _

/-! ## 5. Splitting off the last component -/

/-- The last component is what stands behind the last slash. -/
theorem split_append {head name : String} (hhead : head = "" ∨ Text.hasEnding head "/" = true)
    (hname : '/' ∉ name.toList) :
    split (head ++ name) = (String.ofList (if (dropEndSlashes head.toList).isEmpty then head.toList
      else dropEndSlashes head.toList), name) := by
  have hbase : baseName (head ++ name) = name := by
    rw [baseName]
    rcases hhead with rfl | hend
    · rw [String.empty_append, pieces_of_notMem hname]
      rfl
    · obtain ⟨stem, rfl⟩ := Text.hasEnding_iff.1 hend
      rw [pieces_append, pieces_of_notMem hname, List.getLast?_concat]
      rfl
  have htake : (head ++ name).toList.take ((head ++ name).toList.length - name.toList.length) =
      head.toList := by
    rw [String.toList_append, List.length_append, Nat.add_sub_cancel, List.take_left]
  rw [split, hbase, htake]

/-- A name in a directory is split into the two. -/
theorem split_join {directory name : String} (h : EndsInPiece directory)
    (hname : IsComponent name) : split (join directory name) = (directory, name) := by
  have hdrop : dropEndSlashes (directory ++ "/").toList = directory.toList := by
    have hslash : (directory ++ "/").toList = directory.toList ++ ['/'] := by simp
    rw [hslash, dropEndSlashes, List.reverse_append, List.reverse_singleton, List.singleton_append,
      List.dropWhile_cons_of_pos (by decide)]
    exact dropEndSlashes_of_endsInPiece h
  have hsome : directory.toList.isEmpty = false := by
    obtain ⟨c, hc, -⟩ := h.exists_mem_ne_slash
    rw [List.isEmpty_eq_false_iff_exists_mem]
    exact ⟨c, hc⟩
  rw [join_of_endsInPiece h hname.not_isAbsolute,
    split_append (.inr (Text.hasEnding_iff.2 ⟨directory, rfl⟩)) hname.2, hdrop, hsome,
    if_neg Bool.false_ne_true, String.ofList_toList]

/-- The slashes of an anchor are not taken off. -/
theorem split_slashes_append (n : Nat) {name : String} (hname : IsComponent name) :
    split (slashes n ++ name) = (slashes n, name) := by
  have hhead : slashes n = "" ∨ Text.hasEnding (slashes n) "/" = true := by
    cases n with
    | zero => exact .inl rfl
    | succ n =>
      refine .inr (Text.hasEnding_iff.2 ⟨slashes n, ?_⟩)
      rw [← String.toList_inj]
      simp [slashes, List.replicate_succ']
  -- Nothing would be left of the slashes, and then all of them are kept.
  have hdrop : dropEndSlashes (slashes n).toList = [] := by
    rw [slashes, String.toList_ofList, dropEndSlashes, List.reverse_replicate,
      List.dropWhile_replicate]
    simp
  rw [split_append hhead hname.2, hdrop, List.isEmpty_nil, if_pos rfl, String.ofList_toList]

/-! ## 6. The parts of a spelling -/

theorem mem_intercalate {sep : String} {names : List String} {c : Char}
    (h : c ∈ (sep.intercalate names).toList) :
    c ∈ sep.toList ∨ ∃ name ∈ names, c ∈ name.toList := by
  induction names with
  | nil => simp at h
  | cons name rest ih =>
    cases rest with
    | nil => exact .inr ⟨name, List.mem_cons_self, by rwa [String.intercalate_singleton] at h⟩
    | cons next rest =>
      rw [String.intercalate_cons_cons, String.toList_append, String.toList_append,
        List.mem_append, List.mem_append] at h
      rcases h with (h | h) | h
      · exact .inr ⟨name, List.mem_cons_self, h⟩
      · exact .inl h
      · rcases ih h with hsep | ⟨other, hother, hc⟩
        · exact .inl hsep
        · exact .inr ⟨other, List.mem_cons_of_mem _ hother, hc⟩

/-- A spelling is made of its components, slashes and dots. -/
theorem mem_text {p : Path} {c : Char} (h : c ∈ p.text.toList) :
    c = '.' ∨ c = '/' ∨ ∃ name ∈ p.names, c ∈ name.toList := by
  unfold text at h
  split at h
  · exact .inl (by simpa using h)
  · rw [String.toList_append, String.toList_ofList, List.mem_append] at h
    rcases h with h | h
    · exact .inr (.inl (List.eq_of_mem_replicate h))
    · exact .inr ((mem_intercalate h).imp_left fun hslash => by simpa using hslash)

theorem climb_of_ne {anchored : Bool} {soFar : List String} {name : String} (h : name ≠ "..") :
    climb anchored soFar name = name :: soFar := if_neg h

/-- What a component is appended to, it takes from or leaves as it is. -/
theorem reverse_climb_sublist (anchored : Bool) {soFar names : List String} (name : String)
    (h : soFar.reverse.Sublist names) :
    (climb anchored soFar name).reverse.Sublist (names ++ [name]) := by
  have hpushed : (name :: soFar).reverse.Sublist (names ++ [name]) := by
    rw [List.reverse_cons]
    exact h.append_right [name]
  unfold climb
  split
  · rename_i hup
    split
    · split
      · exact List.nil_sublist _
      · exact hup ▸ hpushed
    · rename_i last rest
      split
      · rename_i hlast
        exact hup ▸ hpushed
      · -- The last component so far is taken back.
        rw [List.reverse_cons] at h
        exact ((List.sublist_append_left _ _).trans h).trans (List.sublist_append_left _ _)
  · exact hpushed

theorem reverse_foldl_climb_sublist (anchored : Bool) (names : List String) :
    (names.foldl (climb anchored) []).reverse.Sublist names := by
  induction names using List.reverseRecOn with
  | nil => exact List.Sublist.refl _
  | append_singleton names name ih =>
    rw [List.foldl_append]
    exact reverse_climb_sublist _ name ih

/-- Without its parent components a path has fewer components, in the same order. -/
theorem names_collapse_sublist (p : Path) : p.collapse.names.Sublist p.names :=
  reverse_foldl_climb_sublist _ _

/-- The path without parent components is made of the components of the path. -/
theorem mem_names_collapse {p : Path} {name : String} (h : name ∈ p.collapse.names) :
    name ∈ p.names :=
  p.names_collapse_sublist.subset h

/-- Components that are not parents are kept. -/
theorem foldl_climb_of_notMem {anchored : Bool} {names : List String} (h : ".." ∉ names)
    (soFar : List String) : names.foldl (climb anchored) soFar = names.reverse ++ soFar := by
  induction names generalizing soFar with
  | nil => rfl
  | cons first names ih =>
    obtain ⟨hfirst, hnames⟩ := not_or.1 (mt List.mem_cons.2 h)
    rw [List.foldl_cons, ih hnames, climb_of_ne (Ne.symm hfirst), List.reverse_cons,
      List.append_assoc]
    rfl

/-- Where there is no parent component there is nothing to collapse. -/
theorem collapse_of_notMem {p : Path} (h : ".." ∉ p.names) : p.collapse = p := by
  rw [collapse, foldl_climb_of_notMem h, List.append_nil, List.reverse_reverse]

theorem normal_of_notMem {s : String} (h : ".." ∉ (parse s).names) : normal s = tidy s := by
  rw [normal, collapse_of_notMem h, tidy]

/-! ## 7. The size of a spelling -/

theorem size_intercalate_cons (name : String) {names : List String} (h : names ≠ []) :
    ("/".intercalate (name :: names)).utf8ByteSize =
      name.utf8ByteSize + 1 + ("/".intercalate names).utf8ByteSize := by
  rw [String.intercalate_cons_of_ne_nil h, String.utf8ByteSize_append, String.utf8ByteSize_append]
  rfl

/-- With fewer components there is less to spell. -/
theorem size_intercalate_le_of_sublist {names names' : List String} (h : names.Sublist names') :
    ("/".intercalate names).utf8ByteSize ≤ ("/".intercalate names').utf8ByteSize := by
  -- A component that is left out takes a slash with it, unless it is the only one.
  induction h with
  | slnil => exact Nat.le_refl _
  | @cons names names' name h ih =>
    by_cases hnone : names' = []
    · subst hnone
      rw [List.sublist_nil.1 h]
      exact Nat.zero_le _
    · rw [size_intercalate_cons name hnone]
      omega
  | @cons_cons names names' name h ih =>
    by_cases hnone : names = []
    · subst hnone
      rw [String.intercalate_singleton]
      by_cases hnone' : names' = []
      · rw [hnone', String.intercalate_singleton]
      · rw [size_intercalate_cons name hnone']
        omega
    · have hnone' : names' ≠ [] := by
        rintro rfl
        exact hnone (List.sublist_nil.1 h)
      rw [size_intercalate_cons name hnone, size_intercalate_cons name hnone']
      omega

/-- A text begins with its anchor. -/
theorem exists_eq_slashes_append (s : String) : ∃ rest, s = slashes (anchorOf s) ++ rest := by
  unfold anchorOf
  split
  · rename_i rest h
    refine ⟨String.ofList ('/' :: '/' :: rest), ?_⟩
    rw [← String.toList_inj, h]
    simp [slashes]
  · rename_i rest _ h
    refine ⟨String.ofList rest, ?_⟩
    rw [← String.toList_inj, h]
    simp [slashes, List.replicate_succ]
  · rename_i rest _ _ h
    refine ⟨String.ofList rest, ?_⟩
    rw [← String.toList_inj, h]
    simp [slashes]
  · exact ⟨s, String.empty_append.symm⟩

/-- The shortest spelling is not longer than any other. -/
theorem size_tidy_le {s : String} (h : s ≠ "") : (tidy s).utf8ByteSize ≤ s.utf8ByteSize := by
  obtain ⟨rest, hrest⟩ := exists_eq_slashes_append s
  have hnames : (parse s).names = (pieces rest).filter isTelling := by
    have hpieces : pieces s = pieces (slashes (anchorOf s) ++ rest) := congrArg pieces hrest
    show (pieces s).filter isTelling = _
    rw [hpieces, filter_pieces_slashes_append]
  unfold tidy text
  split
  · have hsize : s.utf8ByteSize ≠ 0 := by rwa [Ne, String.utf8ByteSize_eq_zero_iff]
    have hdot : ".".utf8ByteSize = 1 := by decide
    omega
  · have hle : ("/".intercalate ((pieces rest).filter isTelling)).utf8ByteSize ≤
        ("/".intercalate (pieces rest)).utf8ByteSize :=
      size_intercalate_le_of_sublist List.filter_sublist
    rw [intercalate_pieces] at hle
    have hslashes : String.ofList (List.replicate (parse s).anchor '/') = slashes (anchorOf s) :=
      rfl
    conv => rhs; rw [hrest]
    rw [hnames, hslashes, String.utf8ByteSize_append, String.utf8ByteSize_append]
    omega

end LintFront.Path
