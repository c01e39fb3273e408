import LintFront.Proofs.Settings.Complaints
import LintFront.Proofs.Settings.Faults
/-!
# A misspelt setting is not ignored

The layers of a project are merged before anything is read, and the merge knows no settings: to it a
misspelt name is a name like any other. So it is to be seen that such a name gets through to the
reading, whatever the other layer says. At the top it does, since no name is ever lost. Among the
rules it may not, since the other layer can put a value in the place of the whole table of rules;
but then this value is no table, and that is an error too.

One thing is found out before the names are looked at. A layer whose tables are nested too deep ends
the loading by a fault, and then nothing is said about its names.

## Main statements

`Loaded.load_rejects`: what loading comes to when the two files of a project hold two given tables.
`Loaded.load_tower`: a misspelt name that is not complained of.
-/

namespace LintFront

namespace Loaded

variable {disk : Disk} {root : String} {replacement : Option String}
  {manifest own : Entries Value}

/-- The settings are read from the two layers merged. -/
theorem load_of_hasLayers (h : HasLayers disk root replacement manifest own) :
    ∃ applied, load disk root replacement =
      match Settings.ofEntries (Layer.both own manifest) with
      | .ok settings => .ok ⟨settings, applied⟩
      | .error complaints => .error (.error (.invalid complaints)) := by
  obtain ⟨first, second, hfiles⟩ := exists_files_eq root replacement
  rw [HasLayers, hfiles] at h
  obtain ⟨hfirst, hrest⟩ := List.forall₂_cons.1 h
  obtain ⟨hsecond, -⟩ := List.forall₂_cons.1 hrest
  refine ⟨([(first.path, manifest), (second.path, own)].filter fun layer =>
    !layer.2.isEmpty).map (·.1), ?_⟩
  rw [load, hfiles, List.mapM_cons, List.mapM_cons, List.mapM_nil, hfirst, hsecond]
  simp only [bind, Except.bind, pure, Except.pure, ofLayers]
  rw [merged_speaking]
  cases Settings.ofEntries (Layer.both own manifest) <;> rfl

end Loaded

/-! ## 1. Names that get through -/

namespace Layer

/-- A layer has a name that is no setting, or its table of rules has one that is no rule. -/
def IsMisspelt (layer : Entries Value) : Prop :=
  (∃ name ∈ layer.names, spell name ∉ Settings.names) ∨
    ∃ name ∈ (rulesOf layer).names, spell name ∉ RuleCategory.all.map RuleCategory.key

theorem given?_isSome_iff {name : String} {layer : Entries Value} :
    (given? name layer).isSome ↔ ∃ key ∈ layer.names, spell key = name := by
  induction layer with
  | nil => simp [given?, Entries.names]
  | cons e rest ih =>
    rw [given?_cons, Option.isSome_or, Bool.or_eq_true, ih]
    by_cases h : spell e.1 = name <;> simp [Entries.names, h]

/-- The names of two layers merged are those of either, in their one spelling. -/
theorem mem_names_both {upper base : Entries Value} {name : String} :
    name ∈ (both upper base).names ↔
      (∃ key ∈ upper.names, spell key = name) ∨ ∃ key ∈ base.names, spell key = name := by
  rw [← Entries.find?_isSome_iff, find?_both, ← given?_isSome_iff, ← given?_isSome_iff,
    Option.isSome_or, Option.isSome_map, Option.isSome_map, Bool.or_eq_true]

theorem nodup_names_both (upper base : Entries Value) : (both upper base).names.Nodup :=
  nodup_names_mergeInto (nodup_names_normalized base) _

variable {upper base : Entries Value}

/-- A table of rules in two layers merged is made of the tables of rules of the two. -/
theorem rules_both {rules : Entries Value}
    (h : (both upper base).find? "rules" = some (.table rules)) :
    rules = both (rulesOf upper) (rulesOf base) := eq_both_of_find?_both h

/-- A table without names that are misspelt gives rise to none when it is merged. -/
theorem known_of_not_isMisspelt (hupper : ¬ IsMisspelt upper) (hbase : ¬ IsMisspelt base) :
    (∀ name ∈ (both upper base).names, name ∈ Settings.names) ∧
      ∀ rules : Entries Value, (both upper base).find? "rules" = some (.table rules) →
        ∀ name ∈ rules.names, name ∈ RuleCategory.all.map RuleCategory.key := by
  obtain ⟨hupper, hupperRules⟩ := not_or.1 hupper
  obtain ⟨hbase, hbaseRules⟩ := not_or.1 hbase
  push Not at hupper hupperRules hbase hbaseRules
  constructor
  · intro name hname
    rcases mem_names_both.1 hname with ⟨key, hkey, rfl⟩ | ⟨key, hkey, rfl⟩
    · exact hupper key hkey
    · exact hbase key hkey
  · intro rules hrules name hname
    rw [rules_both hrules] at hname
    rcases mem_names_both.1 hname with ⟨key, hkey, rfl⟩ | ⟨key, hkey, rfl⟩
    · exact hupperRules key hkey
    · exact hbaseRules key hkey

theorem exists_rules_both {key : String}
    (h : key ∈ (rulesOf upper).names ∨ key ∈ (rulesOf base).names) :
    ∃ v, (both upper base).find? "rules" = some v := by
  have hgiven : ∀ {layer : Entries Value}, key ∈ (rulesOf layer).names →
      (given? "rules" layer).isSome := by
    intro layer hkey
    rw [rulesOf, tableOf] at hkey
    cases hvalue : given? "rules" layer with
    | none =>
      rw [hvalue] at hkey
      cases hkey
    | some v => rfl
  rw [← Option.isSome_iff_exists, find?_both, Option.isSome_or, Option.isSome_map,
    Option.isSome_map, Bool.or_eq_true]
  exact h.imp hgiven hgiven

/-- A misspelt name in one of two layers is a fault of the two merged, or the value that came into
the place of its table is. -/
theorem exists_fault_of_isMisspelt (h : IsMisspelt base ∨ IsMisspelt upper) :
    ∃ c, Settings.Fault (both upper base) c := by
  have htop : ∀ name, (name ∈ upper.names ∨ name ∈ base.names) → spell name ∉ Settings.names →
      ∃ c, Settings.Fault (both upper base) c := by
    intro name hname hunknown
    refine ⟨_, .unknown (mem_names_both.2 ?_) hunknown⟩
    exact hname.imp (fun hmem => ⟨name, hmem, rfl⟩) fun hmem => ⟨name, hmem, rfl⟩
  have hinside : ∀ name, (name ∈ (rulesOf upper).names ∨ name ∈ (rulesOf base).names) →
      spell name ∉ RuleCategory.all.map RuleCategory.key →
      ∃ c, Settings.Fault (both upper base) c := by
    intro name hname hunknown
    obtain ⟨v, hv⟩ := exists_rules_both hname
    -- Either the tables were merged, with the name in them, or what stands there is no table.
    cases htable : v.table? with
    | none => exact ⟨_, .rules hv (.notTable htable)⟩
    | some rules =>
      obtain rfl := Value.eq_table_of_table? htable
      refine ⟨_, .rules hv (.inside rfl (.unknown ?_ hunknown))⟩
      rw [rules_both hv, mem_names_both]
      exact hname.imp (fun hmem => ⟨name, hmem, rfl⟩) fun hmem => ⟨name, hmem, rfl⟩
  rcases h with (⟨name, hname, hnew⟩ | ⟨name, hname, hnew⟩) |
    (⟨name, hname, hnew⟩ | ⟨name, hname, hnew⟩)
  · exact htop name (.inr hname) hnew
  · exact hinside name (.inr hname) hnew
  · exact htop name (.inl hname) hnew
  · exact hinside name (.inl hname) hnew

/-- Of what the reading of two merged layers complains. -/
theorem tellsOf_both (upper base : Entries Value) :
    (Settings.ofEntries (both upper base)).TellsOf (Settings.Fault (both upper base)) := by
  refine Settings.tellsOf_ofEntries (nodup_names_both upper base) ?_
  intro rules hrules
  rw [rules_both hrules]
  exact nodup_names_both _ _

end Layer

/-! ## 2. What loading comes to -/

/-- The place of a fault is not empty, unless an empty name is one. -/
theorem Settings.Fault.place_ne_empty {entries : Entries Value} {c : Complaint}
    (h : Fault entries c) (hknown : ∀ name ∈ entries.names, name ∈ names) : c.place ≠ "" := by
  have hcons : ∀ (name : String) (rest : List String), name ≠ "" →
      ".".intercalate (name :: rest) ≠ "" := by
    intro name rest hname
    cases rest with
    | nil => simpa using hname
    | cons next rest => simp [String.intercalate_cons_cons, hname]
  -- Only the fault of an unknown name begins its place with a name from the table.
  cases h with
  | unknown given hnew => exact absurd (hknown _ given) hnew
  | _ => exact hcons _ _ (by decide)

namespace Loaded

/-- The words of an error about settings: a part with the place and the fault for each complaint. -/
def wording (complaints : List Complaint) : String :=
  "Invalid configuration: " ++ "; ".intercalate
    (complaints.map fun c => ".".intercalate c.location ++ ": " ++ c.kind.message)

theorem message_invalid {entries : Entries Value} {complaints : List Complaint}
    (hknown : ∀ name ∈ entries.names, name ∈ Settings.names)
    (h : ∀ c ∈ complaints, Settings.Fault entries c) :
    (SettingsError.invalid complaints).message = wording complaints := by
  have hparts : complaints.map SettingsError.complaintText =
      complaints.map fun c => ".".intercalate c.location ++ ": " ++ c.kind.message := by
    apply List.map_congr_left
    intro c hc
    rw [SettingsError.complaintText, if_neg ((h c hc).place_ne_empty hknown), Complaint.place]
  exact congrArg (fun parts => "Invalid configuration: " ++ "; ".intercalate parts) hparts

/-- What loading comes to when the two files of a project hold two given tables. If one of them is
nested too deep, it ends by a fault. Otherwise a misspelt name in either is an error, whatever the
other holds; without misspelt names the settings are loaded exactly when all values of the two
merged suit; and an error has one part for each thing that is wrong, and no two for one place. -/
theorem load_rejects (h : Holding disk root replacement manifest own) :
    (IsTooDeep manifest own → load disk root replacement = .error (.fault .tablesTooDeep)) ∧
    (¬ IsTooDeep manifest own →
      (Layer.IsMisspelt manifest ∨ Layer.IsMisspelt own →
        ∃ complaints, load disk root replacement = .error (.error (.invalid complaints))) ∧
      (¬ Layer.IsMisspelt manifest → ¬ Layer.IsMisspelt own →
        ((∃ loaded, load disk root replacement = .ok loaded) ↔
          Settings.IsAcceptable (Layer.both own manifest)) ∧
        ∀ complaints, load disk root replacement = .error (.error (.invalid complaints)) →
          (SettingsError.invalid complaints).message = wording complaints) ∧
      ∀ trouble, load disk root replacement = .error trouble → ∃ complaints,
        trouble = .error (.invalid complaints) ∧
        (complaints.map Complaint.location).Nodup ∧
        ∀ c, c ∈ complaints ↔ Settings.Fault (Layer.both own manifest) c) := by
  refine ⟨load_of_isTooDeep h, fun hshallow => ?_⟩
  obtain ⟨applied, hload⟩ := load_of_hasLayers (hasLayers_iff.2 ⟨h, hshallow⟩)
  have htells := Layer.tellsOf_both own manifest
  have hok : (∃ loaded, load disk root replacement = .ok loaded) ↔
      ∀ c, ¬ Settings.Fault (Layer.both own manifest) c := by
    rw [← htells.exists_ok_iff, hload]
    cases Settings.ofEntries (Layer.both own manifest) <;> simp
  have herror : ∀ trouble, load disk root replacement = .error trouble → ∃ complaints,
      trouble = .error (.invalid complaints) ∧ (complaints.map Complaint.location).Nodup ∧
      ∀ c, c ∈ complaints ↔ Settings.Fault (Layer.both own manifest) c := by
    intro trouble htrouble
    rw [hload] at htrouble
    cases hread : Settings.ofEntries (Layer.both own manifest) with
    | ok settings =>
      rw [hread] at htrouble
      cases htrouble
    | error complaints =>
      rw [hread] at htrouble htells
      exact ⟨complaints, (Except.error.inj htrouble).symm, htells.once, htells.about⟩
  refine ⟨?misspelt, ?known, herror⟩
  case misspelt =>
    intro hmisspelt
    obtain ⟨c, hfault⟩ := Layer.exists_fault_of_isMisspelt hmisspelt
    cases hresult : load disk root replacement with
    | ok loaded => exact absurd hfault (hok.1 ⟨loaded, hresult⟩ c)
    | error trouble =>
      obtain ⟨complaints, rfl, -⟩ := herror trouble hresult
      exact ⟨complaints, rfl⟩
  case known =>
    intro hmanifest hown
    obtain ⟨hknown, hrules⟩ := Layer.known_of_not_isMisspelt hown hmanifest
    refine ⟨hok.trans (Settings.isAcceptable_iff hknown hrules).symm, ?_⟩
    intro complaints hinvalid
    obtain ⟨_, heq, -, habout⟩ := herror _ hinvalid
    obtain rfl := SettingsError.invalid.inj (LoadTrouble.error.inj heq)
    exact message_invalid hknown fun c hc => (habout c).1 hc

theorem holding_ofOwn {text : String} {entries : Entries Value}
    (h : Toml.read text = .ok entries) : Holding (ofOwn text.toUTF8) "." none [] entries := by
  have hdecode := Text.Utf8.decode_toList_eq_ok_iff.2 (rfl : text.toUTF8 = _)
  rw [Holding, files_dot]
  refine .cons (.absent (isPresent_ofOwn _) rfl) (.cons ?_ .nil)
  exact .present (read_ofOwn _) (SettingsFile.ofBytes_eq_ok_iff.2 ⟨text, hdecode, h⟩) rfl

/-- A file that misspells the name of the engine's setting is not settings. -/
theorem rejects_analyser :
    Holding (ofOwn "analyser = \"a\"".toUTF8) "." none [] [("analyser", .text "a")] ∧
    ∃ complaints, load (ofOwn "analyser = \"a\"".toUTF8) "." none =
      .error (.error (.invalid complaints)) := by
  have hread : Toml.read "analyser = \"a\"" = .ok [("analyser", .text "a")] := by cbv
  have hshallow : ¬ IsTooDeep [] [("analyser", .text "a")] := by
    simp [IsTooDeep, Layer.depth, Layer.depthBelow, Layer.maxDepth]
  have hmisspelt : Layer.IsMisspelt [("analyser", .text "a")] :=
    .inl ⟨"analyser", List.mem_cons_self, by decide⟩
  have h := holding_ofOwn hread
  exact ⟨h, ((load_rejects h).2 hshallow).1 (.inr hmisspelt)⟩

end Loaded

/-! ## 3. A tower of tables -/

namespace Toml

theorem unifyNewlines_of_notMem {s : List Char} (h : '\r' ∉ s) : unifyNewlines s = s := by
  induction s with
  | nil => rfl
  | cons c rest ih =>
    obtain ⟨hc, hrest⟩ : '\r' ≠ c ∧ '\r' ∉ rest := by simpa using h
    have hcons : unifyNewlines (c :: rest) = c :: unifyNewlines rest := by
      rw [unifyNewlines]
      rintro rest' rfl
      exact absurd rfl hc
    rw [hcons, ih hrest]

/-- The characters of a key of `n + 1` parts. -/
def dotted : Nat → List Char
  | 0 => ['a']
  | n + 1 => 'a' :: '.' :: dotted n

/-- So many tables, one inside the other. -/
def tower : Nat → Entries Value
  | 0 => []
  | n + 1 => [("a", .table (tower n))]

/-- The header of a table under a key of `n + 1` parts. -/
def towerHeader (n : Nat) : String := String.ofList ('[' :: dotted n ++ [']'])

theorem mem_dotted {n : Nat} {c : Char} (h : c ∈ dotted n) : c = 'a' ∨ c = '.' := by
  induction n with
  | zero => exact .inl (List.mem_singleton.1 h)
  | succ n ih =>
    rw [dotted, List.mem_cons, List.mem_cons] at h
    rcases h with h | h | h
    · exact .inl h
    · exact .inr h
    · exact ih h

theorem length_dotted (n : Nat) : (dotted n).length = 2 * n + 1 := by
  induction n with
  | zero => rfl
  | succ n ih =>
    rw [dotted, List.length_cons, List.length_cons, ih]
    omega

theorem key_dotted {fuel n : Nat} (h : n < fuel) :
    key fuel (dotted n ++ [']']) = .ok (List.replicate (n + 1) "a", [']']) := by
  induction n generalizing fuel with
  | zero =>
    obtain ⟨fuel, rfl⟩ := Nat.exists_eq_succ_of_ne_zero (Nat.ne_of_gt h)
    rfl
  | succ n ih =>
    obtain ⟨fuel, rfl⟩ := Nat.exists_eq_succ_of_ne_zero (Nat.ne_of_gt (Nat.zero_lt_of_lt h))
    have hrest := ih (Nat.lt_of_succ_lt_succ h)
    have hskip : skipSpaces (dotted n ++ [']']) = dotted n ++ [']'] := by cases n <;> rfl
    have hkey : key (fuel + 1) (dotted (n + 1) ++ [']']) =
        (key fuel (skipSpaces (dotted n ++ [']']))).map fun p => ("a" :: p.1, p.2) := rfl
    rw [hkey, hskip, hrest]
    rfl

theorem within_replicate (n : Nat) :
    within true .ok (List.replicate n "a") [] = .ok (tower n) := by
  induction n with
  | zero => rfl
  | succ n ih =>
    rw [List.replicate_succ, within]
    dsimp only [Entries.find?]
    rw [ih]
    rfl

/-- The document after the header. -/
def towerDocument (n : Nat) : Document where
  data := tower (n + 1)
  declared := [List.replicate (n + 1) "a"]

theorem header_dotted (n : Nat) :
    header {} (dotted n ++ [']']) =
      .ok ((towerDocument n, List.replicate (n + 1) "a"), []) := by
  have hkey : key ((dotted n ++ [']']).length + 1) (dotted n ++ [']']) =
      .ok (List.replicate (n + 1) "a", [']']) := by
    apply key_dotted
    rw [List.length_append, length_dotted]
    omega
  have hskip : skipSpaces (dotted n ++ [']']) = dotted n ++ [']'] := by cases n <;> rfl
  have hdeclare : Document.declare {} (List.replicate (n + 1) "a") = .ok (towerDocument n) := by
    have hfrozen : Document.isFrozen [] (List.replicate (n + 1) "a") = false := by
      simp [Document.isFrozen]
    rw [Document.declare, hfrozen, within_replicate]
    rfl
  unfold header
  split
  · rename_i rest heq
    cases n <;> cases heq
  · rw [hskip, hkey]
    dsimp only
    rw [hdeclare]
    rfl

/-- The table that is opened by a header has as many tables in it as its key has parts. -/
theorem read_towerHeader (n : Nat) : read (towerHeader n) = .ok (tower (n + 1)) := by
  have hplain : unifyNewlines ('[' :: dotted n ++ [']']) = '[' :: dotted n ++ [']'] := by
    apply unifyNewlines_of_notMem
    intro hmem
    rw [List.mem_append, List.mem_cons] at hmem
    rcases hmem with (hmem | hmem) | hmem
    · exact absurd hmem (by decide)
    · rcases mem_dotted hmem with h | h <;> exact absurd h (by decide)
    · exact absurd hmem (by decide)
  rw [read, towerHeader, String.toList_ofList, hplain]
  have hstep : statements (('[' :: dotted n ++ [']']).length + 1) {} [] ('[' :: dotted n ++ [']']) =
      .ok (towerDocument n) := by
    have hskip : skipSpaces ('[' :: dotted n ++ [']']) = '[' :: (dotted n ++ [']']) := rfl
    have hstatement : statement {} [] ('[' :: (dotted n ++ [']'])) =
        .ok ((towerDocument n, List.replicate (n + 1) "a"), []) := header_dotted n
    rw [statements, hskip]
    split
    · rename_i heq
      cases heq
    · rename_i rest heq
      exact absurd (List.head_eq_of_cons_eq heq) (by decide)
    · rw [hstatement]
      rfl
  rw [hstep]
  rfl

end Toml

namespace Layer

theorem depthBelow_tower (n : Nat) : depthBelow (Toml.tower n) = n := by
  induction n with
  | zero => rfl
  | succ n ih => rw [Toml.tower, depthBelow, depth, ih, depthBelow, Nat.max_eq_left (Nat.zero_le _)]

end Layer

namespace Loaded

/-- A file that opens more than a thousand tables under a name that is no setting: the loading ends
by a fault, and nobody is told of the name. -/
theorem load_tower : ∃ entries,
    Holding (ofOwn (Toml.towerHeader 1099).toUTF8) "." none [] entries ∧
    Layer.IsMisspelt entries ∧
    load (ofOwn (Toml.towerHeader 1099).toUTF8) "." none = .error (.fault .tablesTooDeep) := by
  have h := holding_ofOwn (Toml.read_towerHeader 1099)
  have hdeep : IsTooDeep [] (Toml.tower 1100) := by
    refine .inr ?_
    rw [Layer.depth, Layer.depthBelow_tower]
    decide
  exact ⟨Toml.tower 1100, h, .inl ⟨"a", List.mem_cons_self, by decide⟩, load_of_isTooDeep h hdeep⟩

end Loaded

end LintFront
