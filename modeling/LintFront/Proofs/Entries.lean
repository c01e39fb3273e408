import LintFront.Entries
import LintFront.Proofs.Distinct
/-!
# Entries by their names

Where each name occurs once, entries are the same as what is found under the names together with
the order of the names. `Entries.overlaid` puts some entries over others.

## Main statements

`Entries.mem_iff_find?`: what stands in the list is what is found. `Entries.ext_of_find?`: the names
in order and what is found under them make up the entries. `Entries.alter_mapValues`: changes go
through what is made of every value. `Entries.names_overlaid` and `Entries.find?_overlaid`: what
entries over others come to. `pairwise_lt_mergeSort`: sorting by distinct names is strict.
-/

namespace LintFront.Entries

variable {α : Type}

theorem nodup_names_alter {name : String} {f : Option α → α} {entries : Entries α}
    (h : entries.names.Nodup) : (entries.alter name f).names.Nodup := by
  rw [names_alter]
  split
  · exact h
  · rename_i hnew
    rw [List.nodup_append]
    refine ⟨h, by simp, ?_⟩
    intro a ha b hb hab
    rw [List.mem_singleton.1 hb] at hab
    exact hnew (hab ▸ ha)

theorem alter_of_notMem {name : String} {f : Option α → α} {entries : Entries α}
    (h : name ∉ entries.names) : entries.alter name f = entries ++ [(name, f none)] := by
  induction entries with
  | nil => rfl
  | cons e rest ih =>
    obtain ⟨hfirst, hrest⟩ : name ≠ e.1 ∧ name ∉ names rest := by
      simpa only [names, List.map_cons, List.mem_cons, not_or] using h
    rw [alter, if_neg (Ne.symm hfirst), ih hrest, List.cons_append]

theorem find?_eq_none_iff {name : String} {entries : Entries α} :
    entries.find? name = none ↔ name ∉ entries.names := by
  rw [← find?_isSome_iff, Option.not_isSome_iff_eq_none]

theorem find?_erase_self (name : String) (entries : Entries α) :
    (entries.erase name).find? name = none := by
  rw [find?_eq_none_iff, names, erase, List.mem_map]
  rintro ⟨e, he, rfl⟩
  simp at he

/-- Entries with the same names in the same order, each once, and the same under every name are the
same. -/
theorem ext_of_find? {a b : Entries α} (hnames : a.names = b.names) (hnodup : a.names.Nodup)
    (hfind : ∀ name, a.find? name = b.find? name) : a = b := by
  induction a generalizing b with
  | nil => exact (List.map_eq_nil_iff.1 hnames.symm).symm
  | cons e a ih =>
    obtain ⟨name, x⟩ := e
    cases b with
    | nil => cases hnames
    | cons e' b =>
      obtain ⟨name', y⟩ := e'
      obtain ⟨rfl, hrest⟩ : name = name' ∧ names a = names b := by
        simpa only [names, List.map_cons, List.cons.injEq] using hnames
      obtain ⟨hfirst, hnodup⟩ : name ∉ names a ∧ (names a).Nodup := List.nodup_cons.1 hnodup
      have hxy : x = y := by
        have h := hfind name
        rw [find?, find?, if_pos rfl, if_pos rfl] at h
        exact Option.some.inj h
      have hbehind : a = b := by
        apply ih hrest hnodup
        intro other
        -- Behind the first entry its name is found no more, so the other names decide.
        by_cases hother : other = name
        · rw [hother, find?_eq_none_iff.2 hfirst, find?_eq_none_iff.2 (hrest ▸ hfirst)]
        · have h := hfind other
          rwa [find?, find?, if_neg (Ne.symm hother), if_neg (Ne.symm hother)] at h
      rw [hxy, hbehind]

/-- What stands in the list is what is found. -/
theorem mem_iff_find? {entries : Entries α} (h : entries.names.Nodup) {name : String} {x : α} :
    (name, x) ∈ entries ↔ entries.find? name = some x := by
  induction entries with
  | nil => simp [find?]
  | cons e rest ih =>
    obtain ⟨first, y⟩ := e
    obtain ⟨hfirst, hrest⟩ : first ∉ names rest ∧ (names rest).Nodup := List.nodup_cons.1 h
    rw [List.mem_cons, find?, ih hrest, Prod.mk.injEq]
    by_cases hname : first = name
    · subst hname
      rw [if_pos rfl, find?_eq_none_iff.2 hfirst]
      simp [eq_comm]
    · rw [if_neg hname]
      simp [Ne.symm hname]

/-! ## Entries with other values -/

/-- The entries with something else made of every value. -/
def mapValues {β : Type} (g : α → β) (entries : Entries α) : Entries β :=
  entries.map fun e => (e.1, g e.2)

theorem names_mapValues {β : Type} (g : α → β) (entries : Entries α) :
    (entries.mapValues g).names = entries.names := by
  rw [names, mapValues, List.map_map]
  rfl

theorem find?_mapValues {β : Type} (g : α → β) (name : String) (entries : Entries α) :
    (entries.mapValues g).find? name = (entries.find? name).map g := by
  induction entries with
  | nil => rfl
  | cons e rest ih =>
    show (if e.1 = name then some (g e.2) else (mapValues g rest).find? name) = _
    rw [find?, ih]
    split <;> rfl

/-- To change a value and to make something else of it can be exchanged. -/
theorem alter_mapValues {β : Type} {g : α → β} {f : Option α → α} {f' : Option β → β}
    (h : ∀ old, f' (old.map g) = g (f old)) (name : String) (entries : Entries α) :
    (entries.mapValues g).alter name f' = (entries.alter name f).mapValues g := by
  induction entries with
  | nil => exact congrArg (fun x => [(name, x)]) (h none)
  | cons e rest ih =>
    show alter name f' ((e.1, g e.2) :: mapValues g rest) = _
    rw [alter, alter, ih]
    split
    · exact congrArg (fun x => (e.1, x) :: mapValues g rest) (h (some e.2))
    · rfl

/-! ## Entries overlaid by others -/

/-- The entries with pairs inserted one after the other. -/
def overlaid (entries : Entries α) (pairs : List (String × α)) : Entries α :=
  pairs.foldl (fun entries p => entries.insert p.1 p.2) entries

theorem overlaid_concat (entries : Entries α) (pairs : List (String × α)) (p : String × α) :
    entries.overlaid (pairs ++ [p]) = (entries.overlaid pairs).insert p.1 p.2 := by
  rw [overlaid, List.foldl_append]
  rfl

/-- The names that are there keep their places, and the others follow in the order in which they
first come. -/
theorem names_overlaid {entries : Entries α} (h : entries.names.Nodup)
    (pairs : List (String × α)) :
    (entries.overlaid pairs).names = (entries.names ++ pairs.map (·.1)).eraseDups := by
  induction pairs using List.reverseRecOn with
  | nil => rw [List.map_nil, List.append_nil, eraseDups_of_nodup h, overlaid, List.foldl_nil]
  | append_singleton pairs p ih =>
    rw [overlaid_concat, insert, names_alter, ih, List.map_append, ← List.append_assoc,
      List.map_singleton, eraseDups_concat]
    simp only [List.mem_eraseDups]

end LintFront.Entries

namespace LintFront

/-- Things with distinct names that are sorted by them stand in strictly ascending order. -/
theorem pairwise_lt_mergeSort {α : Type} (name : α → String) {l : List α}
    (h : (l.map name).Nodup) :
    (l.mergeSort fun a b => name a ≤ name b).Pairwise fun a b => name a < name b := by
  have hsorted : (l.mergeSort fun a b => name a ≤ name b).Pairwise
      fun a b => name a ≤ name b := by
    have htrans : ∀ a b c : α, decide (name a ≤ name b) = true →
        decide (name b ≤ name c) = true → decide (name a ≤ name c) = true := by
      intro a b c
      simpa only [decide_eq_true_eq] using String.le_trans
    have htotal : ∀ a b : α, (decide (name a ≤ name b) || decide (name b ≤ name a)) = true := by
      intro a b
      simpa only [Bool.or_eq_true, decide_eq_true_eq] using String.le_total (name a) (name b)
    exact (List.pairwise_mergeSort htrans htotal l).imp of_decide_eq_true
  have hdistinct : (l.mergeSort fun a b => name a ≤ name b).Pairwise
      fun a b => name a ≠ name b := by
    rw [← List.pairwise_map (f := name) (R := (· ≠ ·))]
    exact ((List.mergeSort_perm l fun a b => name a ≤ name b).map name).nodup_iff.2 h
  refine (hsorted.and hdistinct).imp ?_
  rintro a b ⟨hle, hne⟩
  exact String.not_le.1 fun hge => hne (String.le_antisymm hle hge)

end LintFront
