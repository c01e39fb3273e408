import LintFront.Package.Specifier
import LintFront.Proofs.Path.Null
import LintFront.Target
import Mathlib.Data.List.TakeWhile
/-!
# Spellings of specifiers

An identifier holds neither separators nor null characters. So a specifier that is spelled with dots
is taken apart into the identifiers of which it was made, and to take it apart a second time, as is
done when a package is expanded, changes nothing.

## Main statements

`Specifier.parse?_dotted`: a specifier is recovered from its spelling.
`Specifier.parse?_eq_none_of_hasMarker`: what ends in the marker is no specifier.
-/

namespace LintFront

namespace Text

/-- Every character of an identifier may continue one. -/
theorem continues_of_isIdentifier {s : String} (h : isIdentifier s = true) :
    ∀ c ∈ s.toList, continuesIdentifier c = true := by
  unfold isIdentifier at h
  split at h
  · cases h
  · rename_i first rest hs
    rw [Bool.and_eq_true, List.all_eq_true] at h
    intro c hc
    rw [hs] at hc
    rcases List.mem_cons.1 hc with rfl | hc
    · exact Kind.continuesIdentifier_of_starts h.1
    · exact h.2 c hc

theorem isSeparator_of_isIdentifier {s : String} (h : isIdentifier s = true) :
    ∀ c ∈ s.toList, Specifier.isSeparator c = false := by
  intro c hc
  have hcontinues := continues_of_isIdentifier h c hc
  have hdot : c ≠ '.' := by
    rintro rfl
    exact absurd hcontinues (by decide)
  have hslash : c ≠ '/' := by
    rintro rfl
    exact absurd hcontinues (by decide)
  simp [Specifier.isSeparator, hdot, hslash]

theorem nullFree_of_isIdentifier {s : String} (h : isIdentifier s = true) : Path.NullFree s :=
  fun hmem => absurd (continues_of_isIdentifier h _ hmem) (by decide)

end Text

namespace Specifier

/-- What a specifier that was taken apart consists of. -/
structure WellSpelled (spec : Specifier) : Prop where
  nonempty : spec.segments ≠ []
  identifiers : ∀ s ∈ spec.segments, Text.isIdentifier s = true

theorem wellSpelled_of_parse? {text : String} {spec : Specifier} (h : parse? text = some spec) :
    spec.WellSpelled := by
  obtain ⟨hsegments, hidentifiers⟩ := parse?_eq_some_iff.1 h
  constructor
  · rw [hsegments, pieces, Ne, List.map_eq_nil_iff]
    exact List.splitOnP_ne_nil _ _
  · rwa [hsegments]

/-- Identifiers with dots between them come apart at the dots. -/
theorem splitOnP_dotted {segments : List String}
    (h : ∀ s ∈ segments, Text.isIdentifier s = true) (hne : segments ≠ []) :
    ((".".intercalate segments).toList.splitOnP isSeparator).map String.ofList = segments := by
  induction segments with
  | nil => exact absurd rfl hne
  | cons first rest ih =>
    have hfirst := Text.isSeparator_of_isIdentifier (h first List.mem_cons_self)
    cases rest with
    | nil =>
      rw [String.intercalate_singleton, List.splitOnP_eq_singleton hfirst, List.map_singleton,
        String.ofList_toList]
    | cons next rest =>
      have hlist : (".".intercalate (first :: next :: rest)).toList =
          first.toList ++ '.' :: (".".intercalate (next :: rest)).toList := by
        rw [String.intercalate_cons_cons]
        simp
      rw [hlist, List.splitOnP_append_cons_of_forall_mem hfirst '.' (by decide), List.map_cons,
        ih (fun s hs => h s (List.mem_cons_of_mem _ hs)) (List.cons_ne_nil _ _),
        String.ofList_toList]

/-- The spelling with dots holds no slash. -/
theorem slash_notMem_dotted {segments : List String}
    (h : ∀ s ∈ segments, Text.isIdentifier s = true) :
    '/' ∉ (".".intercalate segments).toList := by
  intro hmem
  rcases Path.mem_intercalate hmem with hdot | ⟨s, hs, hc⟩
  · exact absurd hdot (by decide)
  · exact absurd (Text.isSeparator_of_isIdentifier (h s hs) _ hc) (by decide)

theorem stripSlashes_of_notMem {s : List Char} (h : '/' ∉ s) : stripSlashes s = s := by
  have hdrop : ∀ l : List Char, '/' ∉ l → l.dropWhile (· = '/') = l := by
    intro l hl
    rw [List.dropWhile_eq_self_iff]
    intro hpos heq
    rw [decide_eq_true_eq] at heq
    exact hl (heq ▸ List.getElem_mem hpos)
  rw [stripSlashes, hdrop s h, Path.dropEndSlashes, hdrop _ (by rwa [List.mem_reverse]),
    List.reverse_reverse]

/-- A specifier is recovered from its spelling with dots. -/
theorem parse?_dotted {spec : Specifier} (h : spec.WellSpelled) :
    parse? spec.dotted = some spec := by
  have hpieces : pieces spec.dotted = spec.segments := by
    rw [pieces, dotted, stripSlashes_of_notMem (slash_notMem_dotted h.identifiers),
      splitOnP_dotted h.identifiers h.nonempty]
  rw [parse?_eq_some_iff, hpieces]
  exact ⟨rfl, h.identifiers⟩

/-- The last piece of a text that ends in a dot is empty. -/
theorem nil_mem_pieces_append_dot (stem : String) : "" ∈ pieces (stem ++ ".") := by
  have hstrip : stripSlashes (stem ++ ".").toList =
      stem.toList.dropWhile (· = '/') ++ ['.'] := by
    have hdrop : (stem ++ ".").toList.dropWhile (· = '/') =
        stem.toList.dropWhile (· = '/') ++ ['.'] := by
      rw [String.toList_append, List.dropWhile_append]
      split
      · rename_i hempty
        rw [List.isEmpty_iff.1 hempty]
        rfl
      · rfl
    rw [stripSlashes, hdrop, Path.dropEndSlashes, List.reverse_append, List.reverse_singleton,
      List.singleton_append, List.dropWhile_cons_of_neg (by decide), List.reverse_cons,
      List.reverse_reverse]
  rw [pieces, hstrip, List.splitOnP_append_cons _ _ (by decide), List.map_append]
  exact List.mem_append_right _ List.mem_cons_self

/-- The marker belongs to an argument and not to a specifier. -/
theorem parse?_eq_none_of_hasMarker {text : String} (h : hasMarker text = true) :
    parse? text = none := by
  obtain ⟨stem, rfl⟩ := Text.hasEnding_iff.1 h
  have hdots : stem ++ recursiveMarker = stem ++ "/.." ++ "." := by
    rw [String.append_assoc]
    rfl
  rw [parse?, if_neg]
  intro hall
  have hempty := List.all_eq_true.1 hall "" (hdots ▸ nil_mem_pieces_append_dot _)
  exact absurd hempty (by decide)

end Specifier

end LintFront
