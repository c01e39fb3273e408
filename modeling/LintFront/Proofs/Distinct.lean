import Mathlib.Data.List.Nodup
import Mathlib.Data.List.Induction
import Mathlib.Data.List.Sort
/-!
# Lists in which each thing comes once

Directories, specifiers, paths and names are collected with repetitions, of which the first one
stays. What is left is a list without duplicates, and here is what else is known of it.

## Main statements

`isFirstsOf_iff`: each thing comes once, in the order in which things are first met.
`filter_eraseDups`: leaving out duplicates and leaving out other things can be exchanged.
`eraseDups_append_of_subset`: what has been met already adds nothing.
-/

namespace LintFront

variable {α : Type} [BEq α] [LawfulBEq α]

/-- One thing more stands at the end if it is new. -/
theorem eraseDups_concat (l : List α) (a : α) :
    (l ++ [a]).eraseDups = if a ∈ l then l.eraseDups else l.eraseDups ++ [a] := by
  rw [List.eraseDups_append]
  by_cases h : a ∈ l
  · simp [List.removeAll, h]
  · simp [List.removeAll, h, List.eraseDups_cons]

theorem nodup_eraseDups (l : List α) : l.eraseDups.Nodup := by
  induction l using List.reverseRecOn with
  | nil => exact List.nodup_nil
  | append_singleton l a ih =>
    rw [eraseDups_concat]
    split
    · exact ih
    · rename_i hnew
      rw [← List.concat_eq_append]
      exact ih.concat fun hmem => hnew (List.mem_eraseDups.1 hmem)

theorem eraseDups_of_nodup {l : List α} (h : l.Nodup) : l.eraseDups = l := by
  induction l using List.reverseRecOn with
  | nil => rfl
  | append_singleton l a ih =>
    obtain ⟨hl, -, hdisjoint⟩ := List.nodup_append'.1 h
    rw [eraseDups_concat, if_neg fun hmem => hdisjoint hmem (List.mem_singleton_self a), ih hl]

theorem filter_eraseDups (p : α → Bool) (l : List α) :
    l.eraseDups.filter p = (l.filter p).eraseDups := by
  induction l using List.reverseRecOn with
  | nil => rfl
  | append_singleton l a ih =>
    rw [eraseDups_concat, List.filter_append]
    by_cases ha : p a = true
    · have hmem : a ∈ l.filter p ↔ a ∈ l := by simp [ha]
      rw [List.filter_cons_of_pos ha, List.filter_nil, eraseDups_concat, ← ih]
      simp only [hmem]
      split
      · rfl
      · rw [List.filter_append, List.filter_cons_of_pos ha, List.filter_nil]
    · rw [List.filter_cons_of_neg ha, List.filter_nil, List.append_nil, ← ih]
      split
      · rfl
      · rw [List.filter_append, List.filter_cons_of_neg ha, List.filter_nil, List.append_nil]

/-- An element that is left out afterwards makes no difference to the others. -/
theorem filter_eraseDups_insert {α : Type} [DecidableEq α] (x : α) (a b : List α) :
    (a ++ x :: b).eraseDups.filter (· ≠ x) = (a ++ b).eraseDups.filter (· ≠ x) := by
  rw [filter_eraseDups, filter_eraseDups, List.filter_append, List.filter_append,
    List.filter_cons_of_neg (by simp)]

/-- What has been met already adds nothing after it, and only another order before it. -/
theorem eraseDups_append_of_subset {l l' : List α} (h : l' ⊆ l) :
    (l ++ l').eraseDups = l.eraseDups ∧ (l' ++ l).eraseDups.Perm l.eraseDups := by
  constructor
  · have hnone : l'.removeAll l = [] := by
      rw [List.removeAll, List.filter_eq_nil_iff]
      intro a ha
      simp [h ha]
    rw [List.eraseDups_append, hnone, List.eraseDups_nil, List.append_nil]
  · refine (List.perm_ext_iff_of_nodup (nodup_eraseDups _) (nodup_eraseDups _)).2 fun a => ?_
    rw [List.mem_eraseDups, List.mem_eraseDups, List.mem_append]
    exact or_iff_right_of_imp fun ha => h ha

/-- Without duplicates, lists are the same up to order when they have the same members. -/
theorem perm_eraseDups {l l' : List α} (h : ∀ a, a ∈ l ↔ a ∈ l') :
    l.eraseDups.Perm l'.eraseDups := by
  rw [List.perm_ext_iff_of_nodup (nodup_eraseDups _) (nodup_eraseDups _)]
  intro a
  rw [List.mem_eraseDups, List.mem_eraseDups, h]

/-- If all are the same, one is left. -/
theorem eraseDups_of_forall_eq {a : α} {l : List α} (hne : l ≠ []) (h : ∀ b ∈ l, b = a) :
    l.eraseDups = [a] := by
  cases l with
  | nil => exact absurd rfl hne
  | cons b l =>
    obtain rfl := h b List.mem_cons_self
    have hrest : l.filter (fun c => !c == b) = [] := by
      rw [List.filter_eq_nil_iff]
      intro c hc
      simp [h c (List.mem_cons_of_mem _ hc)]
    rw [List.eraseDups_cons, hrest]
    rfl

/-- `firsts` has what is in `l`, in the order in which it is met for the first time. Since the order
is strict, nothing comes twice. -/
structure IsFirstsOf (firsts l : List α) : Prop where
  mem_iff : ∀ a, a ∈ firsts ↔ a ∈ l
  ordered : firsts.Pairwise fun a b => l.idxOf a < l.idxOf b

omit [LawfulBEq α] in
theorem IsFirstsOf.nodup {firsts l : List α} (h : IsFirstsOf firsts l) : firsts.Nodup := by
  refine h.ordered.imp ?_
  rintro a b hlt rfl
  exact Nat.lt_irrefl _ hlt

theorem isFirstsOf_eraseDups (l : List α) : IsFirstsOf l.eraseDups l := by
  refine ⟨fun a => List.mem_eraseDups, ?_⟩
  induction l using List.reverseRecOn with
  | nil => exact List.Pairwise.nil
  | append_singleton l a ih =>
    -- What was met before is met at the same place, and what is new is met last.
    have hold : l.eraseDups.Pairwise fun b c => (l ++ [a]).idxOf b < (l ++ [a]).idxOf c := by
      refine ih.imp_of_mem ?_
      intro b c hb hc hlt
      rwa [List.idxOf_append_of_mem (List.mem_eraseDups.1 hb),
        List.idxOf_append_of_mem (List.mem_eraseDups.1 hc)]
    rw [eraseDups_concat]
    split
    · exact hold
    · rename_i hnew
      rw [List.pairwise_append]
      refine ⟨hold, List.pairwise_singleton _ _, ?_⟩
      intro b hb c hc
      obtain rfl := List.mem_singleton.1 hc
      have hb : b ∈ l := List.mem_eraseDups.1 hb
      rw [List.idxOf_append_of_mem hb, List.idxOf_append_of_notMem hnew]
      exact Nat.lt_of_lt_of_le (List.idxOf_lt_length_of_mem hb) (Nat.le_add_right _ _)

/-- Only one list has all things in the order in which they are first met. -/
theorem isFirstsOf_iff {firsts l : List α} : IsFirstsOf firsts l ↔ firsts = l.eraseDups := by
  constructor
  · intro h
    have herase := isFirstsOf_eraseDups l
    have hperm : firsts.Perm l.eraseDups := by
      rw [List.perm_ext_iff_of_nodup h.nodup herase.nodup]
      exact fun a => (h.mem_iff a).trans (herase.mem_iff a).symm
    refine hperm.eq_of_pairwise ?_ h.ordered herase.ordered
    intro a b _ _ hab hba
    exact absurd (Nat.lt_trans hab hba) (Nat.lt_irrefl _)
  · rintro rfl
    exact isFirstsOf_eraseDups l

end LintFront
