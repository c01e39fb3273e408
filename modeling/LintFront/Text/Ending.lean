/-!
# Endings

Files and arguments are told apart by how their names end.

## Main statements

`hasEnding_iff`: a text has an ending when some text comes before it.
-/

namespace LintFront.Text

/-- Does a text end in `ending`? -/
def hasEnding (s ending : String) : Bool := ending.toList.isSuffixOf s.toList

/-- The text without its last `n` characters. -/
def dropLast (n : Nat) (s : String) : String := String.ofList (s.toList.take (s.toList.length - n))

/-- A text has an ending when some text comes before it. -/
theorem hasEnding_iff {s ending : String} :
    hasEnding s ending = true ↔ ∃ stem : String, s = stem ++ ending := by
  rw [hasEnding, List.isSuffixOf_iff_suffix]
  constructor
  · rintro ⟨stem, h⟩
    refine ⟨String.ofList stem, ?_⟩
    rw [← String.toList_inj, String.toList_append, String.toList_ofList, h]
  · rintro ⟨stem, rfl⟩
    exact ⟨stem.toList, by rw [String.toList_append]⟩

@[simp] theorem hasEnding_append (stem ending : String) :
    hasEnding (stem ++ ending) ending = true :=
  hasEnding_iff.2 ⟨stem, rfl⟩

@[simp] theorem dropLast_append (stem ending : String) :
    dropLast ending.toList.length (stem ++ ending) = stem := by
  rw [← String.toList_inj]
  simp [dropLast]

end LintFront.Text
