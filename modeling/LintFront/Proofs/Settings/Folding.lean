import LintFront.Proofs.Distinct
import LintFront.Proofs.Settings.Precedence
import Mathlib
/-!
# Any number of layers

Layers are merged one after the other, and each step asks what the layers below it have come to. So
it is not plain to see which layers have a part in the value of a name: a value that is no table
clears away all that lies below it, and a table that comes after it starts anew. Two merges are
therefore not the same as a merge with what the upper two come to.

What layers come to is said here without going through them one by one. Under each name the last
layer to speak decides, and if it speaks of a table, then so do some of the layers before it; the
tables back to the last value that is none are merged in the same way again. `Layer.Folds` says
this of all tables at once, however deep they are nested, and no two results fit it.

## Main statements

`Layer.folds_iff`: what layers come to. `Loaded.ofLayers_folds`: settings are read from what the
layers come to.
-/

namespace LintFront

namespace Layer

/-! ## 1. What layers come to -/

/-- A value in which the names of every table are distinct and in their one spelling, however deep
the table lies. What lists hold is not looked at. -/
inductive IsSettled : Value → Prop where
  | plain {v : Value} (h : IsPlain v) : IsSettled v
  | table {entries : Entries Value} (distinct : entries.names.Nodup)
      (named : ∀ e ∈ entries, spell e.1 = e.1) (below : ∀ e ∈ entries, IsSettled e.2) :
      IsSettled (.table entries)

/-- The values that layers give to a name, the lowest layer first. -/
def valuesOf (name : String) (layers : List (Entries Value)) : List Value :=
  layers.filterMap (Entries.find? name)

/-- The tables with which values end. -/
def lastTables (values : List Value) : List (Entries Value) :=
  (values.rtakeWhile fun v => v.table?.isSome).filterMap Value.table?

/-- Layers come to `result`: it has the names of all layers in the order in which they first appear,
and under each of them the last value that is given to it. Where this is a table it is replaced by
what the tables come to with which the values of the name end. -/
inductive Folds : (layers : List (Entries Value)) → (result : Entries Value) → Prop where
  | intro {layers : List (Entries Value)} {result : Entries Value}
      (inside : String → Entries Value)
      (names : result.names = (layers.flatMap Entries.names).eraseDups)
      (plain : ∀ name v, (valuesOf name layers).getLast? = some v → IsPlain v →
        result.find? name = some v)
      (table : ∀ name entries, (valuesOf name layers).getLast? = some (.table entries) →
        result.find? name = some (.table (inside name)))
      (below : ∀ name entries, (valuesOf name layers).getLast? = some (.table entries) →
        Folds (lastTables (valuesOf name layers)) (inside name)) : Folds layers result

/-! ## 2. The names -/

theorem names_mergeInto {base : Entries Value} {seen : List String}
    (h : base.names = seen.eraseDups) (upper : Entries Value) :
    (mergeInto base upper).names = (seen ++ upper.names).eraseDups := by
  induction upper generalizing base seen with
  | nil =>
    rw [mergeInto_nil, h]
    exact congrArg List.eraseDups (List.append_nil seen).symm
  | cons e rest ih =>
    have hnext : (base.alter e.1 fun old => mergeValue old e.2).names =
        (seen ++ [e.1]).eraseDups := by
      simp only [Entries.names_alter, eraseDups_concat, h, List.mem_eraseDups]
    rw [mergeInto_cons, ih hnext, List.append_assoc]
    rfl

/-- The last layer comes on top of what the layers before it come to. -/
theorem merged_concat (layers : List (Entries Value)) (layer : Entries Value) :
    merged (layers ++ [layer]) = mergeInto (merged layers) layer := by
  rw [merged, List.foldl_append]
  rfl

/-- What layers come to has the names of all of them, in the order in which they first appear. -/
theorem names_merged (layers : List (Entries Value)) :
    (merged layers).names = (layers.flatMap Entries.names).eraseDups := by
  induction layers using List.reverseRecOn with
  | nil => rfl
  | append_singleton layers layer ih =>
    rw [merged_concat, names_mergeInto ih, List.flatMap_append, List.flatMap_singleton]

theorem nodup_names_merged (layers : List (Entries Value)) : (merged layers).names.Nodup := by
  rw [names_merged]
  exact nodup_eraseDups _

/-! ## 3. The values -/

theorem isSettled_table {entries : Entries Value} :
    IsSettled (.table entries) ↔ entries.names.Nodup ∧ (∀ e ∈ entries, spell e.1 = e.1) ∧
      ∀ e ∈ entries, IsSettled e.2 := by
  constructor
  · intro h
    cases h with
    | plain h => cases h
    | table distinct named below => exact ⟨distinct, named, below⟩
  · rintro ⟨distinct, named, below⟩
    exact .table distinct named below

theorem IsSettled.nodup_names {entries : Entries Value} (h : IsSettled (.table entries)) :
    entries.names.Nodup := (isSettled_table.1 h).1

theorem IsSettled.of_find? {entries : Entries Value} (h : IsSettled (.table entries))
    {name : String} {v : Value} (hv : entries.find? name = some v) : IsSettled v := by
  obtain ⟨distinct, -, below⟩ := isSettled_table.1 h
  exact below _ ((Entries.mem_iff_find? distinct).2 hv)

/-- The value to which the values of one name come, one after the other. -/
def foldValues (values : List Value) : Option Value :=
  values.foldl (fun old v => some (mergeValue old v)) none

theorem foldValues_concat (values : List Value) (v : Value) :
    foldValues (values ++ [v]) = some (mergeValue (foldValues values) v) := by
  rw [foldValues, List.foldl_append]
  rfl

/-- What layers give to a name is what its values come to. -/
theorem find?_merged {layers : List (Entries Value)}
    (h : ∀ layer ∈ layers, IsSettled (.table layer)) (name : String) :
    (merged layers).find? name = foldValues (valuesOf name layers) := by
  induction layers using List.reverseRecOn with
  | nil => rfl
  | append_singleton layers layer ih =>
    obtain ⟨hlayers, hlayer⟩ := List.forall_mem_append.1 h
    have hnodup := (hlayer layer List.mem_cons_self).nodup_names
    have hvalues : valuesOf name (layers ++ [layer]) =
        valuesOf name layers ++ (layer.find? name).toList := by
      rw [valuesOf, List.filterMap_append]
      cases hfound : layer.find? name <;> simp [hfound, valuesOf]
    rw [merged_concat, find?_mergeInto _ hnodup, ih hlayers, hvalues]
    cases layer.find? name with
    | none => simp
    | some v =>
      rw [Option.toList_some, foldValues_concat]
      rfl

/-- A table that is found in what values come to is what the tables come to with which they end; any
other value stands for none. -/
theorem tableOf_foldValues {values : List Value} (h : ∀ v ∈ values, IsSettled v) :
    tableOf (foldValues values) = merged (lastTables values) ∧
      foldValues values = values.getLast?.map fun v =>
        if v.table?.isSome then .table (merged (lastTables values)) else v := by
  induction values using List.reverseRecOn with
  | nil => exact ⟨rfl, rfl⟩
  | append_singleton values v ih =>
    obtain ⟨hvalues, hv⟩ := List.forall_mem_append.1 h
    obtain ⟨ih, -⟩ := ih hvalues
    rw [foldValues_concat, List.getLast?_concat, Option.map_some]
    cases htable : v.table? with
    | none =>
      -- A value that is no table clears away the tables so far, and no table is left at the end.
      have hnone : lastTables (values ++ [v]) = [] := by
        rw [lastTables, List.rtakeWhile_concat_neg _ _ _ (by simp [htable])]
        rfl
      rw [mergeValue_of_isPlain htable, hnone]
      refine ⟨?_, by simp⟩
      rw [tableOf, Option.bind_some, htable]
      rfl
    | some entries =>
      obtain rfl := Value.eq_table_of_table? htable
      have hsome : lastTables (values ++ [.table entries]) = lastTables values ++ [entries] := by
        rw [lastTables, List.rtakeWhile_concat_pos _ _ _ rfl, List.filterMap_append]
        rfl
      have hnodup := (hv _ List.mem_cons_self).nodup_names
      rw [mergeValue_table hnodup, ih, hsome, merged_concat]
      exact ⟨rfl, rfl⟩

/-! ## 4. Tables within tables -/

theorem mem_of_mem_lastTables {values : List Value} {entries : Entries Value}
    (h : entries ∈ lastTables values) : .table entries ∈ values := by
  obtain ⟨v, hv, htable⟩ := List.mem_filterMap.1 h
  obtain rfl := Value.eq_table_of_table? htable
  exact (List.rtakeWhile_suffix _ _).subset hv

/-- A table with which the values of a name end stands under this name in one of the layers. -/
theorem exists_of_mem_lastTables {layers : List (Entries Value)} {name : String}
    {entries : Entries Value} (h : entries ∈ lastTables (valuesOf name layers)) :
    ∃ layer ∈ layers, layer.find? name = some (.table entries) :=
  List.mem_filterMap.1 (mem_of_mem_lastTables h)

theorem depth_le_depthBelow {name : String} {v : Value} {entries : Entries Value}
    (h : entries.find? name = some v) : depth v ≤ depthBelow entries := by
  induction entries with
  | nil => cases h
  | cons e rest ih =>
    rw [Entries.find?] at h
    rw [depthBelow]
    split at h
    · cases h
      exact Nat.le_max_left _ _
    · exact Nat.le_trans (ih h) (Nat.le_max_right _ _)

section

variable {layers : List (Entries Value)} (h : ∀ layer ∈ layers, IsSettled (.table layer))
include h

theorem isSettled_of_mem_valuesOf (name : String) : ∀ v ∈ valuesOf name layers, IsSettled v := by
  intro v hv
  obtain ⟨layer, hlayer, hfound⟩ := List.mem_filterMap.1 hv
  exact (h layer hlayer).of_find? hfound

theorem isSettled_of_mem_lastTables (name : String) :
    ∀ entries ∈ lastTables (valuesOf name layers), IsSettled (.table entries) := by
  intro entries hentries
  exact isSettled_of_mem_valuesOf h name _ (mem_of_mem_lastTables hentries)

/-- What layers give to a name is the last value they give to it, unless this is a table. -/
theorem find?_merged_eq (name : String) :
    (merged layers).find? name = (valuesOf name layers).getLast?.map fun v =>
      if v.table?.isSome then .table (merged (lastTables (valuesOf name layers))) else v := by
  rw [find?_merged h]
  exact (tableOf_foldValues (isSettled_of_mem_valuesOf h name)).2

end

/-- Layers come to what merging makes of them if the tables do that stand under one name. -/
theorem folds_of_below {layers : List (Entries Value)}
    (h : ∀ layer ∈ layers, IsSettled (.table layer))
    (hbelow : ∀ name entries, (valuesOf name layers).getLast? = some (.table entries) →
      Folds (lastTables (valuesOf name layers)) (merged (lastTables (valuesOf name layers)))) :
    Folds layers (merged layers) := by
  refine .intro (fun name => merged (lastTables (valuesOf name layers))) (names_merged layers)
    ?plain ?table hbelow
  case plain =>
    intro name v hlast hplain
    have hnone : v.table? = none := hplain
    rw [find?_merged_eq h, hlast, Option.map_some, hnone]
    rfl
  case table =>
    intro name entries hlast
    rw [find?_merged_eq h, hlast]
    rfl

/-- Of the tables under one name there may be as many as there are layers, but they are less
deep. -/
theorem depthBelow_lt_of_mem_lastTables {n : Nat} {layers : List (Entries Value)}
    (h : ∀ layer ∈ layers, depthBelow layer ≤ n) (name : String) :
    ∀ entries ∈ lastTables (valuesOf name layers), depthBelow entries < n := by
  intro entries hentries
  obtain ⟨layer, hlayer, hfound⟩ := exists_of_mem_lastTables hentries
  have hle := (depth_le_depthBelow hfound).trans (h layer hlayer)
  rwa [depth] at hle

/-- Merged one after the other, layers come to what they should. The induction is on how deep their
tables are nested. -/
theorem folds_merged (n : Nat) {layers : List (Entries Value)}
    (h : ∀ layer ∈ layers, IsSettled (.table layer))
    (hdepth : ∀ layer ∈ layers, depthBelow layer ≤ n) : Folds layers (merged layers) := by
  induction n generalizing layers with
  | zero =>
    refine folds_of_below h ?_
    intro name entries hlast
    have hnone : lastTables (valuesOf name layers) = [] :=
      List.eq_nil_iff_forall_not_mem.2 fun entries hentries =>
        Nat.not_lt_zero _ (depthBelow_lt_of_mem_lastTables hdepth name entries hentries)
    rw [hnone]
    exact folds_of_below (List.forall_mem_nil _) fun name entries hlast => nomatch hlast
  | succ n ih =>
    refine folds_of_below h ?_
    intro name entries hlast
    refine ih (isSettled_of_mem_lastTables h name) ?_
    intro entries hentries
    exact Nat.le_of_lt_succ (depthBelow_lt_of_mem_lastTables hdepth name entries hentries)

/-- Layers come to one thing only. -/
theorem Folds.eq_merged {layers : List (Entries Value)} {result : Entries Value}
    (hfolds : Folds layers result) (h : ∀ layer ∈ layers, IsSettled (.table layer)) :
    result = merged layers := by
  induction hfolds with
  | @intro layers result inside names plain table below ih =>
    have hnames : result.names = (merged layers).names := names.trans (names_merged layers).symm
    refine Entries.ext_of_find? hnames (hnames ▸ nodup_names_merged layers) ?_
    intro name
    -- No layer gives a value, the last value is none that is merged, or it is a table: here the two
    -- agree by the induction, which runs along the tables and not along the layers.
    have hmerged := find?_merged_eq h name
    cases hlast : (valuesOf name layers).getLast? with
    | none =>
      rw [hlast] at hmerged
      have habsent : name ∉ result.names := hnames ▸ Entries.find?_eq_none_iff.1 hmerged
      rw [hmerged, Entries.find?_eq_none_iff.2 habsent]
      rfl
    | some v =>
      rw [hlast, Option.map_some] at hmerged
      rw [hmerged]
      cases htable : v.table? with
      | none => exact plain name v hlast htable
      | some entries =>
        obtain rfl := Value.eq_table_of_table? htable
        rw [table name entries hlast,
          ih name entries hlast (isSettled_of_mem_lastTables h name)]
        rfl

/-- What layers come to is what is made of them when they are merged one after the other. -/
theorem folds_iff {layers : List (Entries Value)} (h : ∀ layer ∈ layers, IsSettled (.table layer))
    (result : Entries Value) : Folds layers result ↔ result = merged layers := by
  constructor
  · exact fun hfolds => hfolds.eq_merged h
  · rintro rfl
    refine folds_merged ((layers.map depthBelow).foldr max 0) h ?_
    intro layer hlayer
    exact List.le_max_of_le' 0 (List.mem_map_of_mem hlayer) le_rfl

/-! ## 5. Layers with names -/

theorem spelledFrom_of_settled {done entries : Entries Value}
    (hdistinct : (done.names ++ entries.names).Nodup) (hnamed : ∀ e ∈ entries, spell e.1 = e.1)
    (hvalues : ∀ e ∈ entries, spelled e.2 = e.2) : spelledFrom done entries = done ++ entries := by
  induction entries generalizing done with
  | nil => rw [spelledFrom, List.append_nil]
  | cons e rest ih =>
    obtain ⟨hname, hnamed⟩ := List.forall_mem_cons.1 hnamed
    obtain ⟨hvalue, hvalues⟩ := List.forall_mem_cons.1 hvalues
    have hnew : e.1 ∉ done.names := fun hold =>
      (List.nodup_append.1 hdistinct).2.2 _ hold _ List.mem_cons_self rfl
    rw [spelledFrom, hname, hvalue, Entries.insert, Entries.alter_of_notMem hnew, ih ?_ hnamed
      hvalues, List.append_assoc]
    · rfl
    · simpa [Entries.names] using hdistinct

theorem IsSettled.spelled_eq {v : Value} (h : IsSettled v) : spelled v = v := by
  induction h with
  | plain h => exact spelled_of_isPlain h
  | table distinct named below ih =>
    rw [spelled, spelledFrom_of_settled (by simpa [Entries.names] using distinct) named ih]
    rfl

/-- Bringing names to their one spelling changes nothing where they are in it already. -/
theorem IsSettled.normalized_eq {layer : Entries Value} (h : IsSettled (.table layer)) :
    normalized layer = layer :=
  Value.table.inj ((spelled_table layer).symm.trans h.spelled_eq)

/-- Layers without entries have no part. -/
theorem merged_filter (layers : List (Entries Value)) :
    merged (layers.filter fun layer => !layer.isEmpty) = merged layers := by
  unfold merged
  generalize ([] : Entries Value) = base
  induction layers generalizing base with
  | nil => rfl
  | cons layer layers ih =>
    cases layer with
    | nil => simpa using ih base
    | cons e rest => simpa using ih _

end Layer

namespace Loaded

/-- What layers with names come to, the first layer lowest. -/
def combined (layers : List (String × Entries Value)) : Entries Value :=
  Layer.merged ((layers.filter fun layer => !layer.2.isEmpty).map fun layer =>
    Layer.normalized layer.2)

theorem combined_eq_merged {layers : List (String × Entries Value)}
    (h : ∀ layer ∈ layers, Layer.IsSettled (.table layer.2)) :
    combined layers = Layer.merged (layers.map (·.2)) := by
  have hnormal : (layers.filter fun layer => !layer.2.isEmpty).map (fun layer =>
      Layer.normalized layer.2) = (layers.map (·.2)).filter fun layer => !layer.isEmpty := by
    rw [List.filter_map]
    apply List.map_congr_left
    intro layer hlayer
    exact (h layer (List.mem_of_mem_filter hlayer)).normalized_eq
  rw [combined, hnormal, Layer.merged_filter]

/-- Settings are read from what the layers come to: from nothing else, and from all of it. There is
one thing that layers come to, and no name of any of them is missing there; a layer without entries
changes nothing, be it below or above another. -/
theorem ofLayers_folds {layers : List (String × Entries Value)}
    (h : ∀ layer ∈ layers, Layer.IsSettled (.table layer.2)) :
    (∀ result, Layer.Folds (layers.map (·.2)) result ↔ result = combined layers) ∧
    ofLayers layers = (match Settings.ofEntries (combined layers) with
      | .ok settings => .ok ⟨settings, (layers.filter fun layer => !layer.2.isEmpty).map (·.1)⟩
      | .error complaints => .error (.invalid complaints)) ∧
    ∀ layer ∈ layers, layer.2.names ⊆ (combined layers).names ∧
      Layer.mergeInto [] layer.2 = layer.2 ∧ Layer.mergeInto layer.2 [] = layer.2 := by
  have hlayers : ∀ layer ∈ layers.map (·.2), Layer.IsSettled (.table layer) :=
    List.forall_mem_map.2 h
  refine ⟨?_, rfl, ?_⟩
  · intro result
    rw [combined_eq_merged h]
    exact Layer.folds_iff hlayers result
  · intro layer hlayer
    refine ⟨?_, Layer.mergeInto_nil_left (h layer hlayer).nodup_names, Layer.mergeInto_nil _⟩
    intro name hname
    rw [combined_eq_merged h, Layer.names_merged, List.mem_eraseDups, List.mem_flatMap]
    exact ⟨layer.2, List.mem_map_of_mem hlayer, hname⟩

/-- Four layers of which the second gives a whole number where the others give tables. -/
def interrupted : List (String × Entries Value) :=
  [("a", [("k", .table [("x", .integer 1)])]), ("b", [("k", .integer 5)]),
    ("c", [("k", .table [("x", .integer 2)])]),
    ("d", [("k", .table [("y", .integer 3), ("x", .integer 4)])])]

/-- The table below the whole number has no part, and those above it are merged. -/
theorem combined_interrupted :
    (∀ layer ∈ interrupted, Layer.IsSettled (.table layer.2)) ∧
    Layer.Folds (interrupted.map (·.2))
      [("k", .table [("x", .integer 4), ("y", .integer 3)])] := by
  have hinteger : ∀ i, Layer.IsSettled (.integer i) := fun i => .plain rfl
  have hnames : ∀ name ∈ ["k", "x", "y"], Layer.spell name = name := by decide
  have hsettled : ∀ layer ∈ interrupted, Layer.IsSettled (.table layer.2) := by
    simp [interrupted, Layer.isSettled_table, Entries.names, hinteger, hnames]
  refine ⟨hsettled, ((ofLayers_folds hsettled).1 _).2 ?_⟩
  cbv

end Loaded

end LintFront
