import LintFront.Proofs.Settings.Folding
/-!
# The spelling of names is free

Names are brought to one spelling in every layer before the layers are merged, so it does not matter
which spelling a layer uses, name by name and however deep in its tables the name stands.

There is one place where the spelling is never touched, in the tables within lists. So layers that
differ in spelling alone need not come to the same, and what they come to is compared without what
lies in lists: `outlined` leaves nothing of a table or a list within a list but that it is there.
Reading asks for no more, since the items of a list are texts or are refused whatever they hold, and
merging goes through it, since a list is replaced as a whole.

## Main statements

`Layer.outlined_spelled_congr`: values that differ in spelling are brought to the same outline.
`Loaded.ofSources_respelt`: the settings of sources, and what is wrong with them, do not hang on the
spelling of names.
-/

namespace LintFront

namespace Layer

/-! ## 1. Other spellings -/

/-- The name with underscores in the place of some of its hyphens. -/
def RespeltName (name name' : String) : Prop :=
  List.Forall₂ (fun c c' => c' = c ∨ c = '-' ∧ c' = '_') name.toList name'.toList

instance (name name' : String) : Decidable (RespeltName name name') :=
  inferInstanceAs (Decidable (List.Forall₂ _ _ _))

mutual

/-- The value with other spellings for some names in its tables, those within lists included. -/
inductive Respelt : Value → Value → Prop where
  | same (v : Value) : Respelt v v
  | list {items items' : List Value} (h : RespeltItems items items') :
      Respelt (.list items) (.list items')
  | table {entries entries' : Entries Value} (h : RespeltEntries entries entries') :
      Respelt (.table entries) (.table entries')

/-- The values with other spellings, one by one. -/
inductive RespeltItems : List Value → List Value → Prop where
  | nil : RespeltItems [] []
  | cons {v v' : Value} {rest rest' : List Value} (first : Respelt v v')
      (others : RespeltItems rest rest') : RespeltItems (v :: rest) (v' :: rest')

/-- The entries with other spellings of their names and in their values, every entry in its
place. -/
inductive RespeltEntries : Entries Value → Entries Value → Prop where
  | nil : RespeltEntries [] []
  | cons {name name' : String} {v v' : Value} {rest rest' : Entries Value}
      (named : RespeltName name name') (first : Respelt v v')
      (others : RespeltEntries rest rest') :
      RespeltEntries ((name, v) :: rest) ((name', v') :: rest')

end

/-- Whatever the spelling of a name, its one spelling is the same. -/
theorem RespeltName.spell_eq {name name' : String} (h : RespeltName name name') :
    spell name = spell name' := by
  unfold spell
  congr 1
  unfold RespeltName at h
  generalize name.toList = chars at h
  generalize name'.toList = chars' at h
  induction h with
  | nil => rfl
  | @cons c c' rest rest' hchar _ ih =>
    rw [List.map_cons, List.map_cons, ih]
    rcases hchar with rfl | ⟨rfl, rfl⟩ <;> rfl

mutual

theorem Respelt.depth_eq {v v' : Value} : Respelt v v' → depth v = depth v'
  | .same _ => rfl
  | .list _ => rfl
  | .table h => congrArg (· + 1) h.depthBelow_eq

theorem RespeltEntries.depthBelow_eq {entries entries' : Entries Value} :
    RespeltEntries entries entries' → depthBelow entries = depthBelow entries'
  | .nil => rfl
  | .cons _ first others => by
    rw [depthBelow, depthBelow, first.depth_eq, others.depthBelow_eq]

end

theorem RespeltEntries.isEmpty_eq {entries entries' : Entries Value}
    (h : RespeltEntries entries entries') : entries.isEmpty = entries'.isEmpty := by
  cases h <;> rfl

/-! ## 2. Values without what lies in lists -/

/-- An item of a list, where only what is no table and no list is looked at. -/
def itemOutline : Value → Value
  | .table _ => .table []
  | .list _ => .list []
  | v => v

mutual

/-- The value with nothing of the tables and lists within its lists but that they are there. -/
def outlined : Value → Value
  | .table entries => .table (outlinedEntries entries)
  | .list items => .list (items.map itemOutline)
  | v => v

/-- The entries with their values outlined. -/
def outlinedEntries : List (String × Value) → Entries Value
  | [] => []
  | (name, v) :: rest => (name, outlined v) :: outlinedEntries rest

end

theorem outlinedEntries_eq (entries : Entries Value) :
    outlinedEntries entries = entries.mapValues outlined := by
  induction entries with
  | nil => rfl
  | cons e rest ih => exact congrArg ((e.1, outlined e.2) :: ·) ih

theorem outlined_table (entries : Entries Value) :
    outlined (.table entries) = .table (entries.mapValues outlined) := by
  rw [outlined, outlinedEntries_eq]

/-! ## 3. Reading looks at the outline alone -/

theorem asFlag_outlined (v : Value) : (outlined v).asFlag = v.asFlag := by
  cases v <;> rfl

theorem asText_outlined (v : Value) : (outlined v).asText = v.asText := by
  cases v <;> rfl

theorem asThreshold_outlined (v : Value) :
    Settings.asThreshold (outlined v) = Settings.asThreshold v := by
  cases v <;> rfl

theorem textsFrom_itemOutline (index : Nat) (items : List Value) :
    Value.textsFrom index (items.map itemOutline) = Value.textsFrom index items := by
  induction items generalizing index with
  | nil => rfl
  | cons v rest ih =>
    have htext : (itemOutline v).asText = v.asText := by cases v <;> rfl
    rw [List.map_cons, Value.textsFrom, Value.textsFrom, htext, ih]

theorem asTexts_outlined (v : Value) : (outlined v).asTexts = v.asTexts := by
  cases v with
  | list items => exact textsFrom_itemOutline 0 items
  | _ => rfl

/-- A field is read as before if its value is. -/
theorem field_mapValues {α : Type} {g : Value → Value} {read : Value → Checked α}
    (h : ∀ v, read (g v) = read v) (entries : Entries Value) (name : String) (absent : α) :
    (entries.mapValues g).field name absent read = entries.field name absent read := by
  unfold Entries.field
  rw [Entries.find?_mapValues]
  cases entries.find? name with
  | none => rfl
  | some v => exact congrArg (Checked.under name) (h v)

theorem onlyKnown_mapValues (g : Value → Value) (entries : Entries Value) (known : List String) :
    (entries.mapValues g).onlyKnown known = entries.onlyKnown known := by
  unfold Entries.onlyKnown
  rw [Entries.names_mapValues]

theorem ofValue_outlined (v : Value) :
    RuleSelection.ofValue (outlined v) = RuleSelection.ofValue v := by
  cases v with
  | table entries =>
    have hfield : ∀ category,
        RuleSelection.fieldOf (Entries.mapValues outlined entries) category =
          RuleSelection.fieldOf entries category := fun category =>
      field_mapValues asFlag_outlined entries category.key true
    have hcomplaints : RuleSelection.complaintsAbout (Entries.mapValues outlined entries) =
        RuleSelection.complaintsAbout entries := by
      unfold RuleSelection.complaintsAbout
      simp only [hfield, onlyKnown_mapValues]
    rw [outlined_table, RuleSelection.ofValue, RuleSelection.ofValue, RuleSelection.ofEntries,
      RuleSelection.ofEntries, hcomplaints]
    simp only [hfield]
  | _ => rfl

/-- Settings are read from the outlines of values. -/
theorem ofEntries_outlined (entries : Entries Value) :
    Settings.ofEntries (entries.mapValues outlined) = Settings.ofEntries entries := by
  unfold Settings.ofEntries
  rw [field_mapValues asThreshold_outlined, field_mapValues asFlag_outlined,
    field_mapValues asText_outlined, field_mapValues ofValue_outlined,
    field_mapValues asTexts_outlined, onlyKnown_mapValues]

/-! ## 4. Merging outlines -/

mutual

theorem mergeValue_outlined (old : Option Value) :
    (v : Value) → mergeValue (old.map outlined) (outlined v) = outlined (mergeValue old v)
  | .table entries => by
    have hinto := fun base => mergeInto_outlined base entries
    -- Only a table over a table is merged any further.
    rw [outlined_table]
    cases old with
    | none => exact (outlined_table entries).symm
    | some v =>
      cases v with
      | table base =>
        rw [Option.map_some, outlined_table, mergeValue, mergeValue, hinto, outlined_table]
      | _ => exact (outlined_table entries).symm
  | .null => rfl
  | .bool _ => rfl
  | .integer _ => rfl
  | .real _ => rfl
  | .text _ => rfl
  | .moment _ => rfl
  | .list _ => rfl

theorem mergeInto_outlined (base : Entries Value) :
    (upper : List (String × Value)) →
      mergeInto (base.mapValues outlined) (Entries.mapValues outlined upper) =
        (mergeInto base upper).mapValues outlined
  | [] => by rw [mergeInto_nil]; exact mergeInto_nil _
  | (name, v) :: rest => by
    have hvalue := fun old => mergeValue_outlined old v
    have halter : (base.mapValues outlined).alter name (fun old => mergeValue old (outlined v)) =
        (base.alter name fun old => mergeValue old v).mapValues outlined :=
      Entries.alter_mapValues hvalue name base
    rw [mergeInto_cons, ← mergeInto_outlined _ rest, ← halter]
    exact mergeInto_cons _ _ _ _

end

theorem merged_outlined (layers : List (Entries Value)) :
    merged (layers.map (Entries.mapValues outlined)) = (merged layers).mapValues outlined := by
  induction layers using List.reverseRecOn with
  | nil => rfl
  | append_singleton layers layer ih =>
    unfold merged at ih ⊢
    rw [List.map_append, List.foldl_append, List.foldl_append, ih]
    exact mergeInto_outlined _ layer

/-! ## 5. One spelling for all -/

theorem insert_outlined (name : String) (v : Value) (entries : Entries Value) :
    (entries.insert name v).mapValues outlined =
      (entries.mapValues outlined).insert name (outlined v) := by
  have hvalue : ∀ old : Option Value, (fun _ => outlined v) (old.map outlined) =
      outlined ((fun _ => v) old) := fun _ => rfl
  exact (Entries.alter_mapValues hvalue name entries).symm

theorem RespeltItems.outline_eq {items items' : List Value} :
    RespeltItems items items' → items.map itemOutline = items'.map itemOutline
  | .nil => rfl
  | .cons first others => by
    rw [List.map_cons, List.map_cons, others.outline_eq]
    cases first <;> rfl

mutual

/-- Values that differ in the spelling of names are brought to the same outline. -/
theorem outlined_spelled_congr {v v' : Value} :
    Respelt v v' → outlined (spelled v) = outlined (spelled v')
  | .same _ => rfl
  -- Lists are not gone into: their items keep their spellings, and only the outlines agree.
  | .list h => congrArg Value.list h.outline_eq
  | .table h => by
    rw [spelled, spelled, outlined_table, outlined_table, outlined_spelledFrom_congr rfl h]

theorem outlined_spelledFrom_congr {done done' entries entries' : Entries Value}
    (hdone : done.mapValues outlined = done'.mapValues outlined) :
    RespeltEntries entries entries' →
      (spelledFrom done entries).mapValues outlined =
        (spelledFrom done' entries').mapValues outlined
  | .nil => by rwa [spelledFrom, spelledFrom]
  | .cons named first others => by
    have hnext := outlined_spelled_congr first
    rw [spelledFrom, spelledFrom, named.spell_eq]
    refine outlined_spelledFrom_congr ?_ others
    rw [insert_outlined, insert_outlined, hdone, hnext]

end

/-! ## 6. Bringing to one spelling -/

theorem IsSettled.insert {entries : Entries Value} (h : IsSettled (.table entries)) (name : String)
    {v : Value} (hv : IsSettled v) : IsSettled (.table (entries.insert (spell name) v)) := by
  obtain ⟨distinct, named, below⟩ := isSettled_table.1 h
  have hnodup : (entries.insert (spell name) v).names.Nodup := Entries.nodup_names_alter distinct
  have hall : ∀ e ∈ entries.insert (spell name) v, spell e.1 = e.1 ∧ IsSettled e.2 := by
    rintro ⟨other, w⟩ he
    rw [Entries.mem_iff_find? hnodup] at he
    by_cases hother : other = spell name
    · subst hother
      rw [Entries.find?_insert_self] at he
      obtain rfl := Option.some.inj he
      exact ⟨spell_spell name, hv⟩
    · rw [Entries.find?_insert_of_ne hother, ← Entries.mem_iff_find? distinct] at he
      exact ⟨named _ he, below _ he⟩
  exact .table hnodup (fun e he => (hall e he).1) fun e he => (hall e he).2

theorem isSettled_nil : IsSettled (.table []) :=
  isSettled_table.2 ⟨List.nodup_nil, List.forall_mem_nil _, List.forall_mem_nil _⟩

mutual

/-- Every value is brought to one in which all names are in their one spelling. -/
theorem isSettled_spelled : (v : Value) → IsSettled (spelled v)
  | .table entries => by
    rw [spelled]
    exact isSettled_spelledFrom isSettled_nil entries
  | .null => .plain rfl
  | .bool _ => .plain rfl
  | .integer _ => .plain rfl
  | .real _ => .plain rfl
  | .text _ => .plain rfl
  | .moment _ => .plain rfl
  | .list _ => .plain rfl

theorem isSettled_spelledFrom {done : Entries Value} (h : IsSettled (.table done)) :
    (entries : List (String × Value)) → IsSettled (.table (spelledFrom done entries))
  | [] => by rwa [spelledFrom]
  | (name, v) :: rest => by
    have hv := isSettled_spelled v
    rw [spelledFrom]
    exact isSettled_spelledFrom (h.insert name hv) rest

end

/-- The spellings of a name come to one entry, at the place of the first of them. -/
theorem isFirstsOf_names_normalized (entries : Entries Value) :
    IsFirstsOf (normalized entries).names (entries.map fun e => spell e.1) := by
  have hoverlaid : ∀ done : Entries Value, spelledFrom done entries =
      done.overlaid (entries.map fun e => (spell e.1, spelled e.2)) := by
    induction entries with
    | nil =>
      intro done
      rw [spelledFrom]
      rfl
    | cons e rest ih =>
      intro done
      rw [spelledFrom, ih]
      rfl
  have hnone : (Entries.names ([] : Entries Value)).Nodup := List.nodup_nil
  rw [isFirstsOf_iff, normalized, hoverlaid, Entries.names_overlaid hnone, List.map_map]
  rfl

end Layer

namespace Loaded

/-! ## 7. The settings of sources -/

/-- Two outcomes that are the same failure, or successes that stand in a relation. -/
inductive Matching {ε α : Type} (R : α → α → Prop) : Except ε α → Except ε α → Prop where
  | error (e : ε) : Matching R (.error e) (.error e)
  | ok {x y : α} (h : R x y) : Matching R (.ok x) (.ok y)

theorem Matching.bind {ε α β : Type} {R : α → α → Prop} {S : β → β → Prop} {a b : Except ε α}
    {f g : α → Except ε β} (h : Matching R a b)
    (hnext : ∀ x y, R x y → Matching S (f x) (g y)) : Matching S (a >>= f) (b >>= g) := by
  cases h with
  | error e => exact .error e
  | ok h => exact hnext _ _ h

theorem Matching.eq {ε α : Type} {a b : Except ε α} (h : Matching Eq a b) : a = b := by
  cases h with
  | error e => rfl
  | ok h => rw [h]

/-- Two sources of one name that fail alike, or whose layers differ in the spelling of names. -/
def RespeltSource (source source' : String × Except LoadTrouble (Entries Value)) : Prop :=
  source.1 = source'.1 ∧ Matching Layer.RespeltEntries source.2 source'.2

/-- Layers of one name that differ in the spelling of names. -/
def RespeltLayer (layer layer' : String × Entries Value) : Prop :=
  layer.1 = layer'.1 ∧ Layer.RespeltEntries layer.2 layer'.2

/-- Layers that differ in spelling make the same settings. -/
theorem ofLayers_respelt {layers layers' : List (String × Entries Value)}
    (h : List.Forall₂ RespeltLayer layers layers') : ofLayers layers = ofLayers layers' := by
  -- Which layers have a part does not hang on the spelling, since no entry comes or goes.
  have hspeaking : List.Forall₂ RespeltLayer (layers.filter fun layer => !layer.2.isEmpty)
      (layers'.filter fun layer => !layer.2.isEmpty) := by
    refine List.rel_filter ?_ h
    intro layer layer' hlayer
    show (!layer.2.isEmpty) = true ↔ (!layer'.2.isEmpty) = true
    rw [hlayer.2.isEmpty_eq]
  have happlied : (layers.filter fun layer => !layer.2.isEmpty).map (·.1) =
      (layers'.filter fun layer => !layer.2.isEmpty).map (·.1) := by
    rw [← List.forall₂_eq_eq_eq, List.forall₂_map_left_iff, List.forall₂_map_right_iff]
    exact hspeaking.imp fun _ _ hlayer => hlayer.1
  have houtlines : (layers.filter fun layer => !layer.2.isEmpty).map (fun layer =>
        (Layer.normalized layer.2).mapValues Layer.outlined) =
      (layers'.filter fun layer => !layer.2.isEmpty).map fun layer =>
        (Layer.normalized layer.2).mapValues Layer.outlined := by
    rw [← List.forall₂_eq_eq_eq, List.forall₂_map_left_iff, List.forall₂_map_right_iff]
    exact hspeaking.imp fun _ _ hlayer => Layer.outlined_spelledFrom_congr rfl hlayer.2
  have hread : ∀ layers : List (String × Entries Value), Settings.ofEntries (combined layers) =
      Settings.ofEntries (Layer.merged ((layers.filter fun layer => !layer.2.isEmpty).map
        fun layer => (Layer.normalized layer.2).mapValues Layer.outlined)) := by
    intro layers
    rw [← Layer.ofEntries_outlined, combined, ← Layer.merged_outlined, List.map_map]
    rfl
  have hsettings : Settings.ofEntries (combined layers) =
      Settings.ofEntries (combined layers') := by
    rw [hread, hread, houtlines]
  unfold combined at hsettings
  unfold ofLayers
  dsimp only
  rw [hsettings, happlied]

theorem layerFrom_respelt {source source' : String × Except LoadTrouble (Entries Value)}
    (h : RespeltSource source source') :
    Matching RespeltLayer (layerFrom source) (layerFrom source') := by
  obtain ⟨hname, houtcome⟩ := h
  refine houtcome.bind fun layer layer' hlayer => ?_
  have hdepth : Layer.depth (.table layer) = Layer.depth (.table layer') :=
    (Layer.Respelt.table hlayer).depth_eq
  rw [hdepth]
  split
  · exact .error _
  · exact .ok ⟨hname, hlayer⟩

/-- Sources that differ in spelling give layers that do, or fail alike. -/
theorem mapM_layerFrom_respelt
    {sources sources' : List (String × Except LoadTrouble (Entries Value))}
    (h : List.Forall₂ RespeltSource sources sources') :
    Matching (List.Forall₂ RespeltLayer) (sources.mapM layerFrom) (sources'.mapM layerFrom) := by
  induction h with
  | nil => exact .ok .nil
  | cons hsource _ ih =>
    rw [List.mapM_cons, List.mapM_cons]
    refine (layerFrom_respelt hsource).bind fun layer layer' hlayer => ?_
    exact ih.bind fun layers layers' hlayers => .ok (.cons hlayer hlayers)

/-- Sources that differ in spelling make the same settings. -/
theorem ofSources_eq_of_respelt
    {sources sources' : List (String × Except LoadTrouble (Entries Value))}
    (h : List.Forall₂ RespeltSource sources sources') : ofSources sources = ofSources sources' := by
  refine ((mapM_layerFrom_respelt h).bind fun layers layers' hlayers => ?_).eq
  rw [ofLayers_respelt hlayers]
  cases ofLayers layers' with
  | ok loaded => exact .ok rfl
  | error e => exact .error _

/-- The spelling of names is free: sources that differ in nothing else make the same settings with
the same sources applied, or fail in the same way. For names are brought to one spelling wherever
they are looked at. To do so twice is to do so once, and whatever is no table is left alone; where
spellings of one name come together the last value counts, at the place of the first. -/
theorem ofSources_respelt {sources sources' : List (String × Except LoadTrouble (Entries Value))}
    (h : List.Forall₂ RespeltSource sources sources') :
    ofSources sources = ofSources sources' ∧
    (∀ v, Layer.spelled (Layer.spelled v) = Layer.spelled v) ∧
    (∀ v, v.table? = none → Layer.spelled v = v) ∧
    ∀ entries : Entries Value,
      IsFirstsOf (Layer.normalized entries).names (entries.map fun e => Layer.spell e.1) ∧
      ∀ name, (Layer.normalized entries).find? name =
        (Layer.given? name entries).map Layer.spelled :=
  ⟨ofSources_eq_of_respelt h, fun v => (Layer.isSettled_spelled v).spelled_eq,
    fun _ => Layer.spelled_of_isPlain,
    fun entries => ⟨Layer.isFirstsOf_names_normalized entries, Layer.find?_normalized entries⟩⟩

/-- Two sources that both give the threshold and a table of rules, with hyphens throughout. -/
def hyphened : List (String × Except LoadTrouble (Entries Value)) :=
  [("a", .ok [("min-confidence", .real .one),
      ("rules", .table [("context-key-types", .bool false)])]),
    ("b", .ok [("min-confidence", .real .zero), ("rules", .table [("inc-dec", .bool false)])])]

/-- The same sources with underscores here and there. -/
def partlyHyphened : List (String × Except LoadTrouble (Entries Value)) :=
  [("a", .ok [("min-confidence", .real .one),
      ("rules", .table [("context-key_types", .bool false)])]),
    ("b", .ok [("min_confidence", .real .zero), ("rules", .table [("inc_dec", .bool false)])])]

/-- A threshold replaces one in another spelling, and what stands in two tables of rules is put
together. -/
theorem respelt_hyphened : List.Forall₂ RespeltSource hyphened partlyHyphened ∧
    ofSources hyphened = ofSources partlyHyphened ∧
    ∃ loaded, ofSources partlyHyphened = .ok loaded ∧ loaded.applied = ["a", "b"] ∧
      loaded.settings.minConfidence = .real .zero ∧
      loaded.settings.rules.disabled = [.incDec, .contextKeyTypes] := by
  have hsame : ∀ name, Layer.RespeltName name name := by
    intro name
    exact List.forall₂_same.2 fun _ _ => .inl rfl
  have hrespelt : List.Forall₂ RespeltSource hyphened partlyHyphened := by
    refine .cons ⟨rfl, .ok ?lower⟩ (.cons ⟨rfl, .ok ?upper⟩ .nil)
    case lower =>
      refine .cons (hsame _) (.same _) (.cons (hsame _) (.table ?_) .nil)
      exact .cons (by decide) (.same _) .nil
    case upper =>
      refine .cons (by decide) (.same _) (.cons (hsame _) (.table ?_) .nil)
      exact .cons (by decide) (.same _) .nil
  exact ⟨hrespelt, (ofSources_respelt hrespelt).1, _, rfl, rfl, rfl, rfl⟩

/-! ## 8. The files of a project -/

theorem bind_eq_ok_iff {ε α β : Type} {a : Except ε α} {f : α → Except ε β} {y : β} :
    a >>= f = .ok y ↔ ∃ x, a = .ok x ∧ f x = .ok y := by
  constructor
  · intro h
    cases a with
    | error e => cases h
    | ok x => exact ⟨x, rfl, h⟩
  · rintro ⟨x, rfl, h⟩
    exact h

/-- A layer that is loaded from a file is not nested too deep. -/
theorem depth_of_load {disk : Disk} {file : SettingsFile} {layer : Entries Value}
    (h : file.load disk = .ok layer) : Layer.depth (.table layer) ≤ Layer.maxDepth := by
  obtain ⟨present, -, h⟩ := bind_eq_ok_iff.1 h
  split at h
  · split at h
    · cases h
    · obtain ⟨entries, -, h⟩ := bind_eq_ok_iff.1 h
      have hsettle : ∀ layer' : Entries Value,
          (if Layer.maxDepth < Layer.depth (.table layer') then .error (.fault .tablesTooDeep)
            else (.ok layer' : Except LoadTrouble (Entries Value))) = .ok layer →
          Layer.depth (.table layer) ≤ Layer.maxDepth := by
        intro layer' h
        split at h
        · cases h
        · rename_i hshallow
          obtain rfl := Except.ok.inj h
          exact Nat.le_of_not_lt hshallow
      cases hsection : file.inSection with
      | true =>
        rw [hsection, if_pos rfl] at h
        obtain ⟨layer', -, h⟩ := bind_eq_ok_iff.1 h
        exact hsettle layer' h
      | false =>
        rw [hsection, if_neg Bool.false_ne_true] at h
        exact hsettle entries h
  · split at h
    · cases h
    · obtain rfl := Except.ok.inj h
      decide

/-- The files of a project are its sources. -/
theorem load_eq_ofSources (disk : Disk) (root : String) (replacement : Option String) :
    load disk root replacement =
      ofSources ((files root replacement).map fun file => (file.path, file.load disk)) := by
  unfold load ofSources
  rw [List.mapM_map]
  congr 1
  · congr 1
    funext file
    show _ = layerFrom (file.path, file.load disk)
    cases hload : file.load disk with
    | error trouble => rfl
    | ok layer => exact (if_neg (Nat.not_lt.2 (depth_of_load hload))).symm
  · funext layers
    cases ofLayers layers <;> rfl

/-- On two disks where the files of a project differ in spelling alone its settings are the same. -/
theorem load_respelt {disk disk' : Disk} {root : String} {replacement : Option String}
    (h : ∀ file ∈ files root replacement,
      Matching Layer.RespeltEntries (file.load disk) (file.load disk')) :
    load disk root replacement = load disk' root replacement := by
  rw [load_eq_ofSources, load_eq_ofSources]
  apply ofSources_eq_of_respelt
  rw [List.forall₂_map_left_iff, List.forall₂_map_right_iff]
  exact List.forall₂_same.2 fun file hfile => ⟨rfl, h file hfile⟩

end Loaded

end LintFront
