import LintFront.Proofs.FileTree.Continuation
import LintFront.Proofs.Path.Absolute
import LintFront.Proofs.Path.Null
/-!
# Parent components

The normal spelling of a path takes every parent component back together with the component before
it, and does not look at the disk for that. On the disk a parent component leads out of the
directory that was reached, and after a link this is not the directory in which the link lies. So
the two agree as long as no link is followed on the way to a parent component. After the last of
them links do no harm.

That no link is followed on a way is said by following it with no link left to follow.

## Main statements

`Disk.resolve_normal`: where the normal spelling of a path leads.
-/

namespace LintFront

/-! ## 1. The size of the normal spelling -/

namespace Path

/-- The normal spelling is not longer than any other. -/
theorem size_normal_le {s : String} (h : s ≠ "") :
    (normal s).utf8ByteSize ≤ s.utf8ByteSize := by
  refine Nat.le_trans ?_ (size_tidy_le h)
  have hsub := (parse s).names_collapse_sublist
  have hpositive : (tidy s).utf8ByteSize ≠ 0 := by
    rw [Ne, String.utf8ByteSize_eq_zero_iff]
    exact text_ne_empty (wellSpelled_parse s)
  have hdot : ".".utf8ByteSize = 1 := by decide
  rw [tidy] at hpositive ⊢
  rw [normal, text]
  split
  · omega
  · rename_i hsome
    have hlonger : ¬((parse s).anchor = 0 ∧ (parse s).names = []) := by
      rintro ⟨hanchor, hnames⟩
      exact hsome ⟨hanchor, List.sublist_nil.1 (hnames ▸ hsub)⟩
    have hle := size_intercalate_le_of_sublist hsub
    rw [text, if_neg hlonger, anchor_collapse, String.utf8ByteSize_append,
      String.utf8ByteSize_append]
    omega

end Path

namespace Disk

/-! ## 2. Ways on which no link is followed -/

variable {root : Node} {place target : List String}

/-- A step that follows no link is the same however many links may still be followed. -/
theorem stride_of_linkless {step : String} {s : Stride} (h : stride root 0 place step = .ok s)
    (links : Nat) :
    s = ⟨0, s.place, []⟩ ∧ stride root links place step = .ok ⟨links, s.place, []⟩ := by
  unfold stride at h ⊢
  cases hplace : root.shapeAt place with
  | none =>
    rw [hplace] at h
    cases h
  | some shape =>
    rw [hplace] at h
    cases shape with
    | file => cases h
    | link text => cases h
    | directory =>
      dsimp only at h ⊢
      by_cases hdot : step = "."
      · rw [if_pos hdot] at h ⊢
        obtain rfl := Except.ok.inj h
        exact ⟨rfl, rfl⟩
      by_cases hup : step = ".."
      · rw [if_neg hdot, if_pos hup] at h ⊢
        obtain rfl := Except.ok.inj h
        exact ⟨rfl, rfl⟩
      by_cases hlong : maxNameBytes < step.utf8ByteSize
      · rw [if_neg hdot, if_neg hup, if_pos hlong] at h
        cases h
      rw [if_neg hdot, if_neg hup, if_neg hlong] at h ⊢
      cases hnext : root.shapeAt (place ++ [step]) with
      | none =>
        rw [hnext] at h
        cases h
      | some next =>
        rw [hnext] at h
        -- A link would have needed one of the links that are not left.
        cases next with
        | link text => cases h
        | file =>
          obtain rfl := Except.ok.inj h
          exact ⟨rfl, rfl⟩
        | directory =>
          obtain rfl := Except.ok.inj h
          exact ⟨rfl, rfl⟩

/-- After a way on which no link is followed, all links are left for what comes after it. -/
theorem follow_append_of_linkless {before : List String}
    (h : follow root 0 place before = .ok target) (links : Nat) (after : List String) :
    follow root links place (before ++ after) = follow root links target after := by
  induction before generalizing place with
  | nil =>
    rw [follow_nil] at h
    rw [Except.ok.inj h, List.nil_append]
  | cons step before ih =>
    obtain ⟨s, hs, hrest⟩ := follow_cons_eq_ok_iff.1 h
    obtain ⟨hsame, hstride⟩ := stride_of_linkless hs links
    rw [hsame, List.nil_append] at hrest
    rw [List.cons_append, follow_cons, hstride]
    exact ih hrest

theorem exists_follow_of_concat {before : List String} {step : String}
    (h : follow root 0 place (before ++ [step]) = .ok target) :
    ∃ middle, follow root 0 place before = .ok middle ∧
      follow root 0 middle [step] = .ok target := by
  obtain ⟨middle, -, hmiddle, -⟩ := exists_follow_of_append h
  rw [follow_append_of_linkless hmiddle] at h
  exact ⟨middle, hmiddle, h⟩

/-- A parent component leads out of the directory that was reached. -/
theorem follow_up {links : Nat} {rest : List String}
    (h : follow root links place (".." :: rest) = .ok target) :
    follow root links place.dropLast rest = .ok target ∧
      follow root 0 place [".."] = .ok place.dropLast := by
  obtain ⟨entries, hentries⟩ := exists_directory_of_follow_cons h
  have hstride : ∀ n, stride root n place ".." = .ok ⟨n, place.dropLast, []⟩ := by
    intro n
    rw [stride, Node.shapeAt_of_at? hentries]
    rfl
  rw [follow_cons, hstride] at h
  refine ⟨h, ?_⟩
  rw [follow_cons, hstride]
  exact follow_nil _ _ _

/-- A name that is no link leads to what lies under it. -/
theorem eq_concat_of_follow {name : String} (hdot : name ≠ ".") (hup : name ≠ "..")
    (h : follow root 0 place [name] = .ok target) : target = place ++ [name] := by
  obtain ⟨s, hs, hrest⟩ := follow_cons_eq_ok_iff.1 h
  obtain ⟨hsame, -⟩ := stride_of_linkless hs 0
  rw [hsame, List.append_nil, follow_nil] at hrest
  obtain rfl := Except.ok.inj hrest
  unfold stride at hs
  split at hs
  · cases hs
  · cases hs
  · cases hs
  · rw [if_neg hdot, if_neg hup] at hs
    split at hs
    · cases hs
    split at hs
    · cases hs
    · cases hs
    · rw [← Except.ok.inj hs]
    · rw [← Except.ok.inj hs]

/-! ## 3. Taking parent components back -/

/-- One component more: a parent component takes the component before it back, and any other is put
behind the others. An absolute path begins at the root, which is its own parent. -/
theorem follow_climb {anchored : Bool} {soFar middle : List String} {name : String}
    (hdots : "." ∉ soFar) (hanchored : anchored = true → place = [])
    (hfront : follow root 0 place soFar.reverse = .ok middle)
    (hlast : follow root 0 middle [name] = .ok target) :
    follow root 0 place (Path.climb anchored soFar name).reverse = .ok target := by
  have hpushed : follow root 0 place (name :: soFar).reverse = .ok target := by
    rw [List.reverse_cons, follow_append_of_linkless hfront]
    exact hlast
  unfold Path.climb
  split
  · rename_i hup
    subst hup
    have hout : target = middle.dropLast := by
      have hends := (follow_up hlast).1
      rw [follow_nil] at hends
      exact (Except.ok.inj hends).symm
    split
    -- Nothing is left to take back: only at the root does the parent component lead nowhere else.
    · split
      · rename_i hroot
        rw [List.reverse_nil, follow_nil, hanchored hroot] at hfront
        rw [hout, ← Except.ok.inj hfront, hanchored hroot]
        exact follow_nil _ _ _
      · exact hpushed
    · rename_i last rest
      split
      · exact hpushed
      -- The last name led to a place right under the one before it, so its parent is that one.
      · rename_i hkept
        rw [List.reverse_cons] at hfront
        have hlastDot : last ≠ "." := fun heq => hdots (heq ▸ List.mem_cons_self)
        obtain ⟨before, hbefore, hname⟩ := exists_follow_of_concat hfront
        rw [hout, eq_concat_of_follow hlastDot hkept hname, List.dropLast_concat]
        exact hbefore
  · exact hpushed

/-- Where no link is followed, the parent components may all be taken back. The induction is on the
components from the last one on, since what was taken back so far leads where they lead. -/
theorem follow_foldl_climb {anchored : Bool} {names : List String} (hdots : "." ∉ names)
    (hanchored : anchored = true → place = []) (h : follow root 0 place names = .ok target) :
    follow root 0 place (names.foldl (Path.climb anchored) []).reverse = .ok target := by
  induction names using List.reverseRecOn generalizing target with
  | nil => exact h
  | append_singleton names name ih =>
    have hnoDot : "." ∉ names := fun hmem => hdots (List.mem_append_left _ hmem)
    obtain ⟨middle, hmiddle, hlast⟩ := exists_follow_of_concat h
    have hsub := Path.reverse_foldl_climb_sublist anchored names
    rw [List.foldl_concat]
    exact follow_climb (fun hmem => hnoDot (hsub.subset (List.mem_reverse.2 hmem))) hanchored
      (ih hnoDot hmiddle) hlast

/-- On the way to a parent component of the path no link is followed. -/
def UnlinkedParents (disk : Disk) (path : String) : Prop :=
  ∀ before after, (Path.parse path).names = before ++ ".." :: after →
    ∃ place, follow disk.root 0 (start disk.here path) before = .ok place

/-- A list is cut at the last place where an element stands. -/
theorem exists_split_at_last {name : String} {names : List String} (h : name ∈ names) :
    ∃ before after, names = before ++ name :: after ∧ name ∉ after := by
  obtain ⟨after, before, hsplit, hlast⟩ := List.eq_append_cons_of_mem (List.mem_reverse.2 h)
  refine ⟨before.reverse, after.reverse, ?_, by simpa using hlast⟩
  rw [← List.reverse_reverse names, hsplit]
  simp

/-- What comes after the last parent component is kept when the parents are taken back. -/
theorem names_collapse_of_split {path : String} {before after : List String}
    (hnames : (Path.parse path).names = before ++ ".." :: after) (hlast : ".." ∉ after) :
    (Path.parse path).collapse.names =
      ((before ++ [".."]).foldl (Path.climb ((Path.parse path).anchor ≠ 0)) []).reverse ++
        after := by
  rw [Path.collapse, hnames, List.append_cons, List.foldl_append,
    Path.foldl_climb_of_notMem hlast, List.reverse_append, List.reverse_reverse]

/-- A path that leads somewhere is led there by its components without the parents among them, if no
link is followed on the way to one of these. -/
theorem follow_names_collapse {disk : Disk} {path : String} {place : List String}
    (h : disk.resolve path = .ok place) (hup : disk.UnlinkedParents path) :
    follow disk.root maxLinks (start disk.here path) (Path.parse path).collapse.names =
      .ok place := by
  have hfollow := follow_names_of_resolve h
  by_cases hmem : ".." ∈ (Path.parse path).names
  · -- Up to the last parent component no link is followed, and what comes after it is kept.
    obtain ⟨before, after, hnames, hlast⟩ := exists_split_at_last hmem
    obtain ⟨middle, hmiddle⟩ := hup _ _ hnames
    have hdots : "." ∉ before ++ [".."] := by
      intro hdot
      have htelling := ((Path.wellSpelled_parse path).components "." (by
        rw [hnames, List.append_cons]
        exact List.mem_append_left _ hdot)).1
      exact absurd htelling (by decide)
    have hanchored : decide ((Path.parse path).anchor ≠ 0) = true → start disk.here path = [] := by
      intro hanchor
      rw [start, if_pos (Path.isAbsolute_iff_anchor.2 (of_decide_eq_true hanchor))]
    rw [hnames, follow_append_of_linkless hmiddle] at hfollow
    obtain ⟨hafter, hout⟩ := follow_up hfollow
    have hfront : follow disk.root 0 (start disk.here path) (before ++ [".."]) =
        .ok middle.dropLast := by
      rw [follow_append_of_linkless hmiddle]
      exact hout
    rw [names_collapse_of_split hnames hlast,
      follow_append_of_linkless (follow_foldl_climb hdots hanchored hfront)]
    exact hafter
  · rw [Path.collapse_of_notMem hmem]
    exact hfollow

/-- The normal spelling of a path leads where the path leads, if no link is followed on the way to a
parent component. -/
theorem resolve_normal {disk : Disk} {path : String} {place : List String}
    (h : disk.resolve path = .ok place) (hup : disk.UnlinkedParents path) :
    disk.resolve (Path.normal path) = .ok place := by
  obtain ⟨hnull, hempty, hsize, hsteps⟩ := resolve_eq_ok_iff.1 h
  have hstart : start disk.here (Path.normal path) = start disk.here path :=
    start_eq_of_anchor (by rw [Path.parse_normal, Path.anchor_collapse])
  have hfollow := follow_names_collapse h hup
  rw [← hstart] at hfollow
  refine resolve_text (Path.wellSpelled_collapse (Path.wellSpelled_parse path))
    (Path.NullFree.normal hnull) ((Path.size_normal_le hempty).trans hsize) hfollow fun hnil => ?_
  -- Where a path begins there is a directory.
  rw [hnil, follow_nil, hstart] at hfollow
  obtain rfl := Except.ok.inj hfollow
  obtain ⟨step, rest, hcons⟩ := List.exists_cons_of_ne_nil (steps_ne_nil hempty)
  rw [hcons] at hsteps
  exact exists_directory_of_follow_cons hsteps

end Disk

end LintFront
