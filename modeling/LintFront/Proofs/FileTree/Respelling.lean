import LintFront.Proofs.FileTree.Following
/-!
# Following another spelling

A dot among the components of a path leads nowhere, but it asks for a directory. So a path that
leads somewhere leads there without its dots as well, while with more dots it need not. For the same
reason a spelling is as good as the shortest one only where it leads somewhere.

## Main statements

`Disk.follow_of_thinned`: a path leads to the same place without its dots. `Disk.resolve_tidy`: the
shortest spelling of a path that leads somewhere leads to the same place.
-/

namespace LintFront.Disk

/-! ## 1. Dots -/

/-- The second list of components is the first without some of its dots. -/
inductive Thinned : List String → List String → Prop where
  | nil : Thinned [] []
  | keep (step : String) {todo todo' : List String} (h : Thinned todo todo') :
      Thinned (step :: todo) (step :: todo')
  | drop {todo todo' : List String} (h : Thinned todo todo') : Thinned ("." :: todo) todo'

theorem Thinned.refl (todo : List String) : Thinned todo todo := by
  induction todo with
  | nil => exact .nil
  | cons step todo ih => exact .keep step ih

theorem Thinned.append {a a' b b' : List String} (ha : Thinned a a') (hb : Thinned b b') :
    Thinned (a ++ b) (a' ++ b') := by
  induction ha with
  | nil => exact hb
  | keep step _ ih => exact .keep step ih
  | drop _ ih => exact .drop ih

/-- A dot leads nowhere else, so a path that leads somewhere can as well be followed without it, and
it goes on in the same way. -/
theorem follow_append_of_thinned {root : Node} {links : Nat} {place todo todo' target : List String}
    (hthin : Thinned todo todo') (h : follow root links place todo = .ok target)
    (rest : List String) :
    follow root links place (todo ++ rest) = follow root links place (todo' ++ rest) := by
  induction links, place, todo using follow_induction root generalizing todo' with
  | nil links place =>
    cases hthin
    rfl
  | cons links place step after ih =>
    obtain ⟨s, hs, hafter⟩ := follow_cons_eq_ok_iff.1 h
    rw [List.cons_append, follow_cons, hs]
    cases hthin with
    | keep _ hthin =>
      rw [List.cons_append, follow_cons, hs]
      have hgo := ih s hs ((Thinned.refl _).append hthin) hafter
      rwa [List.append_assoc, List.append_assoc] at hgo
    | drop hthin =>
      -- The dot was followed, so there is a directory, and it led to where it stood.
      have hsame : s = ⟨links, place, []⟩ := by
        unfold stride at hs
        split at hs <;> first | exact (Except.ok.inj hs).symm | cases hs
      subst hsame
      exact ih _ hs hthin hafter

/-- A path that leads somewhere leads to the same place without its dots. -/
theorem follow_of_thinned {root : Node} {links : Nat} {place todo todo' target : List String}
    (hthin : Thinned todo todo') (h : follow root links place todo = .ok target) :
    follow root links place todo' = .ok target := by
  have hgo := follow_append_of_thinned hthin h []
  rwa [List.append_nil, List.append_nil, h, eq_comm] at hgo

theorem thinned_filter (keep : String → Bool) {todo : List String}
    (h : ∀ step ∈ todo, keep step = false → step = ".") : Thinned todo (todo.filter keep) := by
  induction todo with
  | nil => exact .nil
  | cons step todo ih =>
    have hrest := ih fun s hs => h s (List.mem_cons_of_mem _ hs)
    cases hkeep : keep step with
    | true =>
      rw [List.filter_cons_of_pos hkeep]
      exact .keep step hrest
    | false =>
      rw [List.filter_cons_of_neg (by simp [hkeep]), h step List.mem_cons_self hkeep]
      exact .drop hrest

theorem thinned_dots {todo : List String} (h : ∀ step ∈ todo, step = ".") (hne : todo ≠ []) :
    Thinned todo ["."] := by
  induction todo with
  | nil => exact absurd rfl hne
  | cons step todo ih =>
    obtain rfl := h step List.mem_cons_self
    by_cases hnil : todo = []
    · subst hnil
      exact .refl _
    · exact .drop (ih (fun s hs => h s (List.mem_cons_of_mem _ hs)) hnil)

/-- The components that are followed, without the dots, are those of the path taken apart. -/
theorem filter_steps (path : String) :
    (steps path).filter Path.isTelling = (Path.parse path).names := by
  have hend : (if Text.hasEnding path "/" then ["."] else []).filter Path.isTelling = [] := by
    split <;> rfl
  rw [steps, List.filter_append, hend, List.append_nil, List.filter_filter, Path.parse]
  apply List.filter_congr
  intro piece _
  by_cases h : piece = "" <;> simp [Path.isTelling, h]

theorem eq_dot_of_mem_steps {path step : String} (h : step ∈ steps path)
    (htelling : Path.isTelling step = false) : step = "." := by
  rw [steps, List.mem_append] at h
  rcases h with h | h
  · obtain ⟨-, hne⟩ := List.mem_filter.1 h
    simp only [ne_eq, decide_not, Bool.not_eq_eq_eq_not, Bool.not_true, decide_eq_false_iff_not]
      at hne
    simpa [Path.isTelling, hne] using htelling
  · split at h
    · exact List.mem_singleton.1 h
    · cases h

theorem steps_ne_nil {path : String} (h : path ≠ "") : steps path ≠ [] := by
  by_cases hend : Text.hasEnding path "/" = true
  · simp [steps, hend]
  · -- A path that does not end in a slash has something between its slashes.
    obtain ⟨c, hc, hslash⟩ := (Path.endsInPiece_iff.2 ⟨h, hend⟩).exists_mem_ne_slash
    rw [← Path.intercalate_pieces path] at hc
    obtain ⟨piece, hpiece, hc⟩ := (Path.mem_intercalate hc).resolve_left (by simpa using hslash)
    have hne : piece ≠ "" := by
      rintro rfl
      cases hc
    apply List.ne_nil_of_mem (a := piece)
    rw [steps]
    exact List.mem_append_left _ (List.mem_filter.2 ⟨hpiece, by simpa using hne⟩)

/-- The shortest spelling is followed by its components, or by one dot if it has none. -/
theorem steps_text {p : Path} (h : p.WellSpelled) :
    steps p.text = if p.names = [] then ["."] else p.names := by
  obtain ⟨anchor, names⟩ := p
  by_cases hne : names = []
  · subst hne
    match anchor, h.anchor_le with
    | 0, _ => decide
    | 1, _ => decide
    | 2, _ => decide
  · have hpieces := Path.pieces_text h hne
    have htelling : ∀ name ∈ names, name ≠ "" := by
      rintro name hname rfl
      exact absurd (h.components "" hname).1 (by decide)
    -- The spelling ends in a component, so no dot is followed at its end.
    have hend := (Path.endsInPiece_iff.1 (Path.endsInPiece_text h.components hne)).2
    rw [steps, if_neg hend, List.append_nil, hpieces, List.filter_append, List.filter_replicate,
      if_neg hne]
    exact List.filter_eq_self.2 fun name hname => by simpa using htelling name hname

theorem thinned_steps_tidy {path : String} (h : path ≠ "") :
    Thinned (steps path) (steps (Path.tidy path)) := by
  have hthin : Thinned (steps path) ((steps path).filter Path.isTelling) :=
    thinned_filter Path.isTelling fun step hstep => eq_dot_of_mem_steps hstep
  rw [Path.tidy, steps_text (Path.wellSpelled_parse path)]
  -- A path without components is spelled by one dot, and all that was followed in it are dots.
  split
  · rename_i hnil
    apply thinned_dots ?_ (steps_ne_nil h)
    intro step hstep
    apply eq_dot_of_mem_steps hstep
    rw [← filter_steps, List.filter_eq_nil_iff] at hnil
    simpa using hnil step hstep
  · rwa [filter_steps] at hthin

/-! ## 2. The shortest spelling -/

/-- Where a path begins is settled by its anchor. -/
theorem start_eq_of_anchor {place : List String} {path path' : String}
    (h : (Path.parse path).anchor = (Path.parse path').anchor) :
    start place path = start place path' := by
  unfold start
  rw [Path.isAbsolute_congr h]

theorem start_tidy (place : List String) (path : String) :
    start place (Path.tidy path) = start place path :=
  start_eq_of_anchor (congrArg Path.anchor (Path.parse_tidy path))

/-- A path that leads somewhere is led there by its components alone. -/
theorem follow_names_of_resolve {disk : Disk} {path : String} {place : List String}
    (h : disk.resolve path = .ok place) :
    follow disk.root maxLinks (start disk.here path) (Path.parse path).names = .ok place := by
  obtain ⟨-, -, -, hfollow⟩ := resolve_eq_ok_iff.1 h
  rw [← filter_steps]
  exact follow_of_thinned (thinned_filter _ fun _ hstep => eq_dot_of_mem_steps hstep) hfollow

/-- The shortest spelling of a path that leads somewhere leads to the same place. -/
theorem resolve_tidy {disk : Disk} {path : String} {place : List String}
    (h : disk.resolve path = .ok place) : disk.resolve (Path.tidy path) = .ok place := by
  obtain ⟨hnull, hempty, hsize, hfollow⟩ := resolve_eq_ok_iff.1 h
  refine resolve_eq_ok_iff.2 ⟨?_, Path.text_ne_empty (Path.wellSpelled_parse path),
    (Path.size_tidy_le hempty).trans hsize, ?_⟩
  · intro hmem
    rcases Path.mem_text hmem with hdot | hslash | ⟨name, hname, hc⟩
    · exact absurd hdot (by decide)
    · exact absurd hslash (by decide)
    · exact hnull (Path.mem_of_mem_names_parse hname hc)
  · rw [start_tidy]
    exact follow_of_thinned (thinned_steps_tidy hempty) hfollow

end LintFront.Disk
