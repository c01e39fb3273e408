import LintFront.Proofs.FileTree.Continuation
/-!
# Dots at the end of a path

A dot at the end of a path asks for the directory that has been reached already. So a directory has
spellings of any length, and all of them lead there that are not too long. What differs from one to
another is how much may still be appended: below a spelling that is just short enough there is no
path that is.

## Main statements

`Disk.node_dotted`: a directory is found under its spelling with dots, unless this is too long.
-/

namespace LintFront

namespace Path

variable {s : String}

/-- The spelling with so many dots at its end. -/
def dotted (s : String) : Nat → String
  | 0 => s
  | n + 1 => dotted s n ++ "/" ++ "."

theorem endsInPiece_dotted (h : EndsInPiece s) (n : Nat) : EndsInPiece (dotted s n) := by
  cases n with
  | zero => exact h
  | succ n => exact EndsInPiece.append _ ⟨[], '.', rfl, by decide⟩

theorem size_dotted (s : String) (n : Nat) :
    (dotted s n).utf8ByteSize = s.utf8ByteSize + 2 * n := by
  induction n with
  | zero => rfl
  | succ n ih =>
    have hdot : ".".utf8ByteSize = 1 := by decide
    have hslash : "/".utf8ByteSize = 1 := by decide
    rw [dotted, String.utf8ByteSize_append, String.utf8ByteSize_append, ih, hdot, hslash]
    omega

theorem nullFree_dotted (h : NullFree s) (n : Nat) : NullFree (dotted s n) := by
  induction n with
  | zero => exact h
  | succ n ih =>
    rw [dotted, nullFree_append, nullFree_append]
    exact ⟨⟨ih, by decide⟩, by decide⟩

/-- Taken apart, a spelling shows none of the dots. -/
theorem parse_dotted (h : EndsInPiece s) (n : Nat) : parse (dotted s n) = parse s := by
  induction n with
  | zero => rfl
  | succ n ih =>
    have hdot : ¬isAbsolute "." = true := by
      rw [isAbsolute_iff]
      decide
    rw [dotted, ← join_of_endsInPiece (endsInPiece_dotted h n) hdot,
      parse_join_of_relative _ hdot, ih]
    simp [show parse "." = ⟨0, []⟩ by decide]

end Path

namespace Disk

variable {disk : Disk} {s : String} {place : List String} {entries : Entries Node}

theorem steps_dotted (h : Path.EndsInPiece s) (n : Nat) :
    steps (Path.dotted s n) = steps s ++ List.replicate n "." := by
  induction n with
  | zero => exact (List.append_nil _).symm
  | succ n ih =>
    rw [steps_of_endsInPiece (Path.endsInPiece_dotted h n)] at ih
    rw [steps_of_endsInPiece (Path.endsInPiece_dotted h (n + 1)), Path.dotted, Path.pieces_append,
      List.filter_append, ih, List.replicate_succ', ← List.append_assoc]
    rfl

/-- From a directory dots lead nowhere. -/
theorem follow_dots {root : Node} (h : root.at? place = some (.directory entries)) (links n : Nat)
    (rest : List String) :
    follow root links place (List.replicate n "." ++ rest) = follow root links place rest := by
  induction n with
  | zero => rfl
  | succ n ih =>
    rw [List.replicate_succ, List.cons_append, follow_cons, stride, Node.shapeAt_of_at? h]
    exact ih

theorem resolve_dotted (h : Path.EndsInPiece s) (hresolve : disk.resolve s = .ok place)
    (hplace : disk.root.at? place = some (.directory entries)) {n : Nat}
    (hfits : s.utf8ByteSize + 2 * n ≤ maxPathBytes) :
    disk.resolve (Path.dotted s n) = .ok place := by
  obtain ⟨hnull, -, -, hfollow⟩ := resolve_eq_ok_iff.1 hresolve
  have hstart : start disk.here (Path.dotted s n) = start disk.here s :=
    start_eq_of_anchor (by rw [Path.parse_dotted h])
  -- How many links are left makes no difference, since dots use none up.
  obtain ⟨links, -, hgo⟩ := exists_links_of_follow hfollow
  have hdots := follow_dots hplace links n []
  rw [List.append_nil, follow_nil] at hdots
  rw [resolve_eq_follow (Path.nullFree_dotted hnull n)
    (Path.endsInPiece_iff.1 (Path.endsInPiece_dotted h n)).1
    ((Path.size_dotted s n).symm ▸ hfits), hstart, steps_dotted h, hgo, hdots]

/-- A directory is found under its spelling with dots. -/
theorem node_dotted (h : Path.EndsInPiece s) (hnode : disk.node s = .ok (.directory entries))
    {n : Nat} (hfits : s.utf8ByteSize + 2 * n ≤ maxPathBytes) :
    disk.node (Path.dotted s n) = .ok (.directory entries) := by
  obtain ⟨place, hresolve, hplace⟩ := node_eq_ok_iff.1 hnode
  exact node_eq_ok_iff.2 ⟨place, resolve_dotted h hresolve hplace hfits, hplace⟩

end Disk

end LintFront
