import LintFront.Proofs.Settings.Reading
import Mathlib
/-!
# Every fault is told once

A table is read to its end whatever is wrong with it, so that the user gets to know all that has to
be mended. A reading *tells of* faults when it complains of each of them, of nothing else, of no
place twice, and when it does not fail without a complaint. Readings that are made of others tell of
the faults of these; it has to be seen that the parts have no place in common, and this is so
because a part adds its own name to the places below it.

## Main statements

`Settings.tellsOf_ofEntries`: of what the reading of a table of settings complains.
`Settings.isAcceptable_iff`: what a table is like that gives no reason to complain.
-/

namespace LintFront

variable {α β : Type}

/-! ## 1. Readings and their parts -/

namespace Checked

/-- A reading complains of the faults, of each of them once, and does not fail without one. -/
structure TellsOf (reading : Checked α) (faults : Complaint → Prop) : Prop where
  once : (reading.complaints.map Complaint.location).Nodup
  about : ∀ c, c ∈ reading.complaints ↔ faults c
  speaks : reading ≠ .error []

variable {reading : Checked α} {faults : Complaint → Prop}

theorem TellsOf.congr {faults' : Complaint → Prop} (h : reading.TellsOf faults)
    (hiff : ∀ c, faults c ↔ faults' c) : reading.TellsOf faults' :=
  ⟨h.once, fun c => (h.about c).trans (hiff c), h.speaks⟩

/-- Something is read exactly when there is no fault. -/
theorem TellsOf.exists_ok_iff (h : reading.TellsOf faults) :
    (∃ x, reading = .ok x) ↔ ∀ c, ¬ faults c := by
  cases reading with
  | ok x =>
    refine ⟨fun _ c hc => ?_, fun _ => ⟨x, rfl⟩⟩
    have hmem : c ∈ ([] : List Complaint) := (h.about c).2 hc
    cases hmem
  | error complaints =>
    refine ⟨fun ⟨x, hx⟩ => (nomatch hx), fun hnone => ?_⟩
    -- Without a fault there is no complaint, and a reading that fails is not silent.
    have hnil : complaints = [] :=
      List.eq_nil_iff_forall_not_mem.2 fun c hc => hnone c ((h.about c).1 hc)
    exact absurd (congrArg Except.error hnil) h.speaks

theorem tellsOf_ok (x : α) : TellsOf (.ok x : Checked α) fun _ => False :=
  ⟨List.nodup_nil, fun _ => ⟨fun h => (List.not_mem_nil h).elim, False.elim⟩, fun h => nomatch h⟩

/-- The reading of a value without parts succeeds or complains of the value. -/
def IsSingle (reading : Checked α) : Prop :=
  (∃ x, reading = .ok x) ∨ ∃ kind, reading = .fail kind

theorem IsSingle.tellsOf (h : reading.IsSingle) :
    reading.TellsOf fun c => reading = .fail c.kind ∧ c.location = [] := by
  rcases h with ⟨x, rfl⟩ | ⟨kind, rfl⟩
  · exact (tellsOf_ok x).congr fun c => ⟨False.elim, fun h => nomatch h.1⟩
  · refine ⟨List.nodup_singleton _, fun c => ?_, fun h => nomatch h⟩
    obtain ⟨location, kind'⟩ := c
    simp [complaints, fail, and_comm, eq_comm]

theorem IsSingle.exists_ok_iff (h : reading.IsSingle) :
    (∃ x, reading = .ok x) ↔ ∀ kind, reading ≠ .fail kind := by
  rw [h.tellsOf.exists_ok_iff]
  exact ⟨fun hnone kind hfail => hnone ⟨[], kind⟩ ⟨hfail, rfl⟩,
    fun hnone c hfault => hnone c.kind hfault.1⟩

theorem TellsOf.map (f : α → β) (h : reading.TellsOf faults) :
    TellsOf (reading.map f) faults := by
  cases reading with
  | ok x => exact ⟨h.once, h.about, fun heq => nomatch heq⟩
  | error complaints => exact ⟨h.once, h.about, fun heq => h.speaks (by cases heq; rfl)⟩

/-- Two readings tell of the faults of both if these have no place in common. -/
theorem TellsOf.zip {other : Checked β} {faults' : Complaint → Prop} (h : reading.TellsOf faults)
    (h' : other.TellsOf faults')
    (hapart : ∀ c c', faults c → faults' c' → c.location ≠ c'.location) :
    (reading.zip other).TellsOf fun c => faults c ∨ faults' c := by
  constructor
  case once =>
    rw [complaints_zip, List.map_append, List.nodup_append]
    -- Neither part names a place twice, so only a place of both could come twice.
    refine ⟨h.once, h'.once, ?_⟩
    intro location hlocation location' hlocation'
    obtain ⟨c, hc, rfl⟩ := List.mem_map.1 hlocation
    obtain ⟨c', hc', rfl⟩ := List.mem_map.1 hlocation'
    exact hapart c c' ((h.about c).1 hc) ((h'.about c').1 hc')
  case about =>
    intro c
    rw [complaints_zip, List.mem_append, h.about, h'.about]
  case speaks =>
    cases reading <;> cases other <;> simp only [Checked.zip, ne_eq, reduceCtorEq,
      not_false_eq_true, Except.error.injEq, List.append_eq_nil_iff]
    · exact fun hnil => h.speaks (congrArg Except.error hnil.1)
    · exact fun hnil => h.speaks (congrArg Except.error hnil)
    · exact fun hnil => h'.speaks (congrArg Except.error hnil)

/-- The faults of a part that goes by a name. -/
def Below (name : String) (faults : Complaint → Prop) (c : Complaint) : Prop :=
  ∃ location, c.location = name :: location ∧ faults ⟨location, c.kind⟩

theorem complaints_under (name : String) (reading : Checked α) :
    (reading.under name).complaints =
      reading.complaints.map fun c => { c with location := name :: c.location } := by
  cases reading <;> rfl

theorem TellsOf.under (name : String) (h : reading.TellsOf faults) :
    (reading.under name).TellsOf (Below name faults) := by
  constructor
  case once =>
    rw [complaints_under, List.map_map]
    have hmap : Complaint.location ∘ (fun c => { c with location := name :: c.location }) =
        List.cons name ∘ Complaint.location := rfl
    rw [hmap, ← List.map_map]
    exact h.once.map List.cons_injective
  case about =>
    rintro ⟨location, kind⟩
    rw [complaints_under, List.mem_map]
    constructor
    · rintro ⟨c, hc, heq⟩
      obtain ⟨rfl, rfl⟩ := Complaint.mk.inj heq
      exact ⟨c.location, rfl, (h.about c).1 hc⟩
    · rintro ⟨rest, rfl, hfault⟩
      exact ⟨⟨rest, kind⟩, (h.about _).2 hfault, rfl⟩
  case speaks =>
    cases reading with
    | ok x => exact fun heq => nomatch heq
    | error complaints =>
      intro heq
      exact h.speaks (congrArg Except.error (List.map_eq_nil_iff.1 (Except.error.inj heq)))

theorem ne_of_below {name : String} {c c' : Complaint}
    (h : Below name faults c) (h' : c'.location.head? ≠ some name) : c.location ≠ c'.location := by
  obtain ⟨location, hlocation, -⟩ := h
  intro heq
  rw [← heq, hlocation] at h'
  exact h' rfl

theorem below_single (name : String) (fault : ComplaintKind → Prop) {c : Complaint} :
    Below name (fun c => fault c.kind ∧ c.location = []) c ↔
      fault c.kind ∧ c.location = [name] := by
  constructor
  · rintro ⟨location, hlocation, hfault, rfl⟩
    exact ⟨hfault, hlocation⟩
  · rintro ⟨hfault, hlocation⟩
    exact ⟨[], hlocation, hfault, rfl⟩

/-- A field tells of the faults of its value. -/
theorem tellsOf_field (entries : Entries Value) (name : String) (absent : α)
    {read : Value → Checked α} {faultsOf : Value → Complaint → Prop}
    (h : ∀ v, entries.find? name = some v → (read v).TellsOf (faultsOf v)) :
    (entries.field name absent read).TellsOf fun c =>
      ∃ v, entries.find? name = some v ∧ Below name (faultsOf v) c := by
  unfold Entries.field
  cases hfound : entries.find? name with
  | none => exact (tellsOf_ok absent).congr fun c => ⟨False.elim, fun ⟨v, hv, _⟩ => nomatch hv⟩
  | some v => exact ((h v hfound).under name).congr fun c => by simp

theorem tellsOf_singleField (entries : Entries Value) (name : String) (absent : α)
    {read : Value → Checked α} (h : ∀ v, (read v).IsSingle) :
    (entries.field name absent read).TellsOf fun c =>
      ∃ v, entries.find? name = some v ∧ read v = .fail c.kind ∧ c.location = [name] := by
  refine (tellsOf_field entries name absent fun v _ => (h v).tellsOf).congr ?_
  intro c
  refine exists_congr fun v => and_congr_right fun _ => ?_
  exact below_single name fun kind => read v = .fail kind

/-- Every name that is not known is complained of. -/
theorem tellsOf_onlyKnown {entries : Entries Value} (h : entries.names.Nodup)
    (known : List String) :
    (entries.onlyKnown known).TellsOf fun c =>
      ∃ name ∈ entries.names, name ∉ known ∧ c = ⟨[name], .unknownName⟩ := by
  have hcomplaints : (entries.onlyKnown known).complaints =
      (entries.names.filter fun name => !known.contains name).map fun name =>
        ⟨[name], .unknownName⟩ := by
    unfold Entries.onlyKnown
    cases entries.names.filter fun name => !known.contains name <;> rfl
  constructor
  case once =>
    rw [hcomplaints, List.map_map]
    exact (h.filter _).map fun name other heq => List.head_eq_of_cons_eq heq
  case about =>
    intro c
    rw [hcomplaints, List.mem_map]
    constructor
    · rintro ⟨name, hname, rfl⟩
      obtain ⟨hmem, hunknown⟩ := List.mem_filter.1 hname
      exact ⟨name, hmem, by simpa using hunknown, rfl⟩
    · rintro ⟨name, hmem, hunknown, rfl⟩
      exact ⟨name, List.mem_filter.2 ⟨hmem, by simpa using hunknown⟩, rfl⟩
  case speaks =>
    intro heq
    unfold Entries.onlyKnown at heq
    split at heq
    · cases heq
    · rename_i hunknown
      exact hunknown (List.map_eq_nil_iff.1 (Except.error.inj heq))

end Checked

/-! ## 2. Values -/

theorem isSingle_asFlag (v : Value) : v.asFlag.IsSingle := by
  -- Every branch of the reading ends in a flag or in one complaint that has no place.
  fun_cases Value.asFlag v
  all_goals first
    | exact .inl ⟨_, rfl⟩
    | exact .inr ⟨_, rfl⟩

theorem isSingle_asText (v : Value) : v.asText.IsSingle := by
  cases v <;> first | exact .inl ⟨_, rfl⟩ | exact .inr ⟨_, rfl⟩

theorem isSingle_asReal (v : Value) : v.asReal.IsSingle := by
  fun_cases Value.asReal v
  all_goals first
    | exact .inl ⟨_, rfl⟩
    | exact .inr ⟨_, rfl⟩

theorem isSingle_withinUnit (x : Double) : (Value.withinUnit x).IsSingle := by
  fun_cases Value.withinUnit x
  all_goals first
    | exact .inl ⟨_, rfl⟩
    | exact .inr ⟨_, rfl⟩

theorem isSingle_asThreshold (v : Value) : (Settings.asThreshold v).IsSingle := by
  unfold Settings.asThreshold Value.asConfidence
  -- The bounds are looked at only when a number was read, so there is never more to complain of
  -- than one thing.
  rcases isSingle_asReal v with ⟨x, hx⟩ | ⟨kind, hkind⟩
  · rw [hx]
    dsimp only
    rcases isSingle_withinUnit x with ⟨y, hy⟩ | ⟨kind, hkind⟩
    · exact .inl ⟨.real y, by rw [hy]; rfl⟩
    · exact .inr ⟨kind, by rw [hkind]; rfl⟩
  · exact .inr ⟨kind, by rw [hkind]; rfl⟩

/-- A list of texts tells of the items that are no texts. -/
theorem tellsOf_textsFrom (index : Nat) (items : List Value) :
    (Value.textsFrom index items).TellsOf fun c => ∃ i item, items[i]? = some item ∧
      item.asText = .fail c.kind ∧ c.location = [toString (index + i)] := by
  induction items generalizing index with
  | nil => exact (Checked.tellsOf_ok []).congr fun c => by simp
  | cons first rest ih =>
    rw [Value.textsFrom]
    -- The induction runs for every `index`: the rest is counted on from the next one, so the place
    -- of the first item is none of its places.
    have hfirst := (isSingle_asText first).tellsOf.under (toString index)
    refine ((hfirst.zip (ih (index + 1)) ?_).map _).congr ?_
    · rintro c c' hc ⟨i, item, -, -, hlocation⟩
      refine Checked.ne_of_below hc ?_
      rw [hlocation, List.head?_cons, ne_eq, Option.some.injEq]
      exact fun heq => absurd (Nat.repr_inj.1 heq) (by omega)
    · intro c
      rw [Checked.below_single _ fun kind => first.asText = .fail kind]
      constructor
      · rintro (⟨hfault, hlocation⟩ | ⟨i, item, hitem, hfault, hlocation⟩)
        · exact ⟨0, first, rfl, hfault, hlocation⟩
        · refine ⟨i + 1, item, hitem, hfault, ?_⟩
          rw [hlocation, Nat.add_right_comm, Nat.add_assoc]
      · rintro ⟨i, item, hitem, hfault, hlocation⟩
        cases i with
        | zero =>
          obtain rfl := Option.some.inj hitem
          exact .inl ⟨hfault, hlocation⟩
        | succ i =>
          refine .inr ⟨i, item, hitem, hfault, ?_⟩
          rw [hlocation, Nat.add_right_comm, Nat.add_assoc]

/-- What is wrong with a value that is to be a list of texts. -/
inductive TextsFault (v : Value) : Complaint → Prop where
  | notList (h : ∀ items, v ≠ .list items) : TextsFault v ⟨[], .notList⟩
  | item {items : List Value} {i : Nat} {item : Value} {kind : ComplaintKind}
      (h : v = .list items) (hitem : items[i]? = some item) (fails : item.asText = .fail kind) :
      TextsFault v ⟨[toString i], kind⟩

theorem tellsOf_asTexts (v : Value) : v.asTexts.TellsOf (TextsFault v) := by
  cases v with
  | list items =>
    refine (tellsOf_textsFrom 0 items).congr ?_
    rintro ⟨location, kind⟩
    constructor
    · rintro ⟨i, item, hitem, hfault, rfl⟩
      rw [Nat.zero_add]
      exact .item rfl hitem hfault
    · intro h
      cases h with
      | notList h => exact absurd rfl (h items)
      | item h hitem fails =>
        cases h
        exact ⟨_, _, hitem, fails, by rw [Nat.zero_add]⟩
  | _ =>
    refine (Checked.IsSingle.tellsOf (.inr ⟨.notList, rfl⟩)).congr ?_
    rintro ⟨location, kind⟩
    constructor
    · rintro ⟨hfault, rfl⟩
      cases hfault
      exact .notList fun items h => nomatch h
    · intro h
      cases h with
      | notList h => exact ⟨rfl, rfl⟩
      | item h hitem fails => cases h

/-- Nothing is wrong with a value that is to be a list of texts exactly when it is one. -/
theorem exists_texts_iff {v : Value} :
    (∃ items, v = .list items ∧ ∀ item ∈ items, ∃ text, item.asText = .ok text) ↔
      ∀ c, ¬TextsFault v c := by
  constructor
  · rintro ⟨items, rfl, htexts⟩ c hfault
    cases hfault with
    | notList h => exact h items rfl
    | item heq hitem fails =>
      cases heq
      exact (isSingle_asText _).exists_ok_iff.1 (htexts _ (List.mem_of_getElem? hitem)) _ fails
  · intro h
    by_cases hlist : ∃ items, v = .list items
    · obtain ⟨items, rfl⟩ := hlist
      refine ⟨items, rfl, fun item hitem => ?_⟩
      obtain ⟨i, hi⟩ := List.mem_iff_getElem?.1 hitem
      exact (isSingle_asText item).exists_ok_iff.2 fun kind fails => h _ (.item rfl hi fails)
    · exact absurd (.notList fun items heq => hlist ⟨items, heq⟩) (h _)

namespace RuleSelection

/-- What is wrong with a table that is to be a table of rules. -/
inductive Fault (entries : Entries Value) : Complaint → Prop where
  | rule {category : RuleCategory} {v : Value} {kind : ComplaintKind}
      (given : entries.find? category.key = some v) (fails : v.asFlag = .fail kind) :
      Fault entries ⟨[category.key], kind⟩
  | unknown {name : String} (given : name ∈ entries.names)
      (h : name ∉ RuleCategory.all.map RuleCategory.key) : Fault entries ⟨[name], .unknownName⟩

theorem tellsOf_fieldOf (entries : Entries Value) (category : RuleCategory) :
    (fieldOf entries category).TellsOf fun c => ∃ v, entries.find? category.key = some v ∧
      v.asFlag = .fail c.kind ∧ c.location = [category.key] :=
  Checked.tellsOf_singleField entries category.key true isSingle_asFlag

theorem key_injective : Function.Injective RuleCategory.key := by
  intro category category' h
  have hofKey := congrArg RuleCategory.ofKey? h
  simpa using hofKey

/-- What a table of rules tells of the rules that are given no flag. -/
theorem mem_ruleComplaints (entries : Entries Value) (c : Complaint) :
    c ∈ RuleCategory.all.flatMap (fun category => (fieldOf entries category).complaints) ↔
      ∃ (category : RuleCategory) (v : Value), entries.find? category.key = some v ∧
        v.asFlag = .fail c.kind ∧ c.location = [category.key] := by
  simp only [List.mem_flatMap, (tellsOf_fieldOf entries _).about, RuleCategory.mem_all, true_and]

/-- It tells of each place once, as the categories have different names. -/
theorem nodup_ruleComplaints (entries : Entries Value) :
    ((RuleCategory.all.flatMap fun category => (fieldOf entries category).complaints).map
      Complaint.location).Nodup := by
  rw [List.map_flatMap, List.nodup_flatMap]
  refine ⟨fun category _ => (tellsOf_fieldOf entries category).once, ?_⟩
  refine RuleCategory.nodup_all.imp ?_
  intro category category' hne location hlocation hlocation'
  obtain ⟨c, hc, rfl⟩ := List.mem_map.1 hlocation
  obtain ⟨c', hc', heq⟩ := List.mem_map.1 hlocation'
  obtain ⟨v, -, -, hplace⟩ := ((tellsOf_fieldOf entries category).about c).1 hc
  obtain ⟨v', -, -, hplace'⟩ := ((tellsOf_fieldOf entries category').about c').1 hc'
  rw [hplace, hplace', List.cons.injEq] at heq
  exact hne (key_injective heq.1).symm

/-- A table of rules tells of the rules that are given no flag and of the names that are no rule. -/
theorem tellsOf_ofEntries {entries : Entries Value} (h : entries.names.Nodup) :
    (ofEntries entries).TellsOf (Fault entries) := by
  have hunknown := Checked.tellsOf_onlyKnown h (RuleCategory.all.map RuleCategory.key)
  have hcomplaints : (ofEntries entries).complaints = complaintsAbout entries := by
    unfold ofEntries
    cases complaintsAbout entries <;> rfl
  constructor
  case once =>
    rw [hcomplaints, complaintsAbout, List.map_append, List.nodup_append]
    refine ⟨nodup_ruleComplaints entries, hunknown.once, ?_⟩
    -- The one part speaks of categories, the other of names that no category has.
    intro location hlocation location' hlocation' heq
    obtain ⟨c, hc, rfl⟩ := List.mem_map.1 hlocation
    obtain ⟨c', hc', rfl⟩ := List.mem_map.1 hlocation'
    obtain ⟨category, v, -, -, hplace⟩ := (mem_ruleComplaints entries c).1 hc
    obtain ⟨name, -, hnew, rfl⟩ := (hunknown.about c').1 hc'
    rw [hplace, List.cons.injEq] at heq
    exact hnew (List.mem_map.2 ⟨category, category.mem_all, heq.1⟩)
  case about =>
    rintro ⟨location, kind⟩
    rw [hcomplaints, complaintsAbout, List.mem_append, mem_ruleComplaints, hunknown.about]
    constructor
    · rintro (⟨category, v, hv, hfails, rfl⟩ | ⟨name, hname, hnew, heq⟩)
      · exact .rule hv hfails
      · cases heq
        exact .unknown hname hnew
    · intro hfault
      cases hfault with
      | rule given fails => exact .inl ⟨_, _, given, fails, rfl⟩
      | unknown given h => exact .inr ⟨_, given, h, rfl⟩
  case speaks =>
    unfold ofEntries
    cases complaintsAbout entries <;> simp

/-- What is wrong with a value that is to be a selection of rules. -/
inductive ValueFault (v : Value) : Complaint → Prop where
  | notTable (h : v.table? = none) : ValueFault v ⟨[], .notTable "RuleSelection"⟩
  | inside {entries : Entries Value} {c : Complaint} (h : v = .table entries)
      (fault : Fault entries c) : ValueFault v c

theorem tellsOf_ofValue {v : Value}
    (h : ∀ entries : Entries Value, v = .table entries → entries.names.Nodup) :
    (ofValue v).TellsOf (ValueFault v) := by
  cases v with
  | table entries =>
    refine (tellsOf_ofEntries (h entries rfl)).congr ?_
    intro c
    refine ⟨.inside rfl, fun hfault => ?_⟩
    cases hfault with
    | notTable h => cases h
    | inside h fault =>
      cases h
      exact fault
  | _ =>
    refine (Checked.IsSingle.tellsOf (.inr ⟨.notTable "RuleSelection", rfl⟩)).congr ?_
    rintro ⟨location, kind⟩
    constructor
    · rintro ⟨hfault, rfl⟩
      cases hfault
      exact .notTable rfl
    · intro hfault
      cases hfault with
      | notTable h => exact ⟨rfl, rfl⟩
      | inside h fault => cases h

/-- Nothing is wrong with a value that is to be a selection of rules exactly when it is a table of
flags, as long as all names in it are known. -/
theorem exists_flags_iff {v : Value} (hknown : ∀ rules : Entries Value, v = .table rules →
    ∀ name ∈ rules.names, name ∈ RuleCategory.all.map RuleCategory.key) :
    (∃ rules : Entries Value, v = .table rules ∧ ∀ (category : RuleCategory) w,
        rules.find? category.key = some w → ∃ on, w.asFlag = .ok on) ↔
      ∀ c, ¬ValueFault v c := by
  constructor
  · rintro ⟨rules, rfl, hflags⟩ c hfault
    cases hfault with
    | notTable h => cases h
    | inside heq fault =>
      cases heq
      cases fault with
      | rule given fails => exact (isSingle_asFlag _).exists_ok_iff.1 (hflags _ _ given) _ fails
      | unknown given hnew => exact hnew (hknown rules rfl _ given)
  · intro h
    cases htable : v.table? with
    | none => exact absurd (.notTable htable) (h _)
    | some rules =>
      obtain rfl := Value.eq_table_of_table? htable
      refine ⟨rules, rfl, fun category w given => ?_⟩
      exact (isSingle_asFlag w).exists_ok_iff.2 fun kind fails =>
        h _ (.inside rfl (.rule given fails))

end RuleSelection

namespace Settings

/-- What is wrong with a table that is to be a table of settings. -/
inductive Fault (entries : Entries Value) : Complaint → Prop where
  | minConfidence {v : Value} {kind : ComplaintKind}
      (given : entries.find? "min_confidence" = some v) (fails : asThreshold v = .fail kind) :
      Fault entries ⟨["min_confidence"], kind⟩
  | setExitStatus {v : Value} {kind : ComplaintKind}
      (given : entries.find? "set_exit_status" = some v) (fails : v.asFlag = .fail kind) :
      Fault entries ⟨["set_exit_status"], kind⟩
  | analyzer {v : Value} {kind : ComplaintKind}
      (given : entries.find? "analyzer" = some v) (fails : v.asText = .fail kind) :
      Fault entries ⟨["analyzer"], kind⟩
  | rules {v : Value} {location : List String} {kind : ComplaintKind}
      (given : entries.find? "rules" = some v)
      (fault : RuleSelection.ValueFault v ⟨location, kind⟩) :
      Fault entries ⟨"rules" :: location, kind⟩
  | excludes {v : Value} {location : List String} {kind : ComplaintKind}
      (given : entries.find? "excludes" = some v) (fault : TextsFault v ⟨location, kind⟩) :
      Fault entries ⟨"excludes" :: location, kind⟩
  | unknown {name : String} (given : name ∈ entries.names) (h : name ∉ names) :
      Fault entries ⟨[name], .unknownName⟩

/-- A table of settings tells of the values that do not suit their settings and of the names that
are no settings. -/
theorem tellsOf_ofEntries {entries : Entries Value} (h : entries.names.Nodup)
    (hrules : ∀ rules : Entries Value, entries.find? "rules" = some (.table rules) →
      rules.names.Nodup) : (ofEntries entries).TellsOf (Fault entries) := by
  have hconfidence := Checked.tellsOf_singleField entries "min_confidence" default.minConfidence
    isSingle_asThreshold
  have hstatus := Checked.tellsOf_singleField entries "set_exit_status" default.setExitStatus
    isSingle_asFlag
  have hanalyzer := Checked.tellsOf_singleField entries "analyzer" default.analyzer isSingle_asText
  have hselection := Checked.tellsOf_field entries "rules" default.rules fun v hv =>
    RuleSelection.tellsOf_ofValue fun rules heq => hrules rules (heq ▸ hv)
  have hexcludes := Checked.tellsOf_field entries "excludes" default.excludes fun v _ =>
    tellsOf_asTexts v
  have hunknown := Checked.tellsOf_onlyKnown h names
  refine ((hconfidence.zip (hstatus.zip (hanalyzer.zip (hselection.zip (hexcludes.zip hunknown
    ?_) ?_) ?_) ?_) ?_).map _).congr ?same
  case same =>
    rintro ⟨location, kind⟩
    constructor
    · rintro (⟨v, hv, hfails, rfl⟩ | ⟨v, hv, hfails, rfl⟩ | ⟨v, hv, hfails, rfl⟩ |
        ⟨v, hv, rest, rfl, hfault⟩ | ⟨v, hv, rest, rfl, hfault⟩ | ⟨name, hname, hnew, heq⟩)
      · exact .minConfidence hv hfails
      · exact .setExitStatus hv hfails
      · exact .analyzer hv hfails
      · exact .rules hv hfault
      · exact .excludes hv hfault
      · cases heq
        exact .unknown hname hnew
    · intro hfault
      cases hfault with
      | minConfidence given fails => exact .inl ⟨_, given, fails, rfl⟩
      | setExitStatus given fails => exact .inr (.inl ⟨_, given, fails, rfl⟩)
      | analyzer given fails => exact .inr (.inr (.inl ⟨_, given, fails, rfl⟩))
      | rules given fault => exact .inr (.inr (.inr (.inl ⟨_, given, _, rfl, fault⟩)))
      | excludes given fault => exact .inr (.inr (.inr (.inr (.inl ⟨_, given, _, rfl, fault⟩))))
      | unknown given h => exact .inr (.inr (.inr (.inr (.inr ⟨_, given, h, rfl⟩))))
  -- The places of a field begin with its name, which is none of the other fields and is known.
  all_goals grind [Checked.Below, names]

/-- In a table each value that stands under the name of a setting suits it. -/
structure IsAcceptable (entries : Entries Value) : Prop where
  minConfidence : ∀ v, entries.find? "min_confidence" = some v → ∃ x, asThreshold v = .ok x
  setExitStatus : ∀ v, entries.find? "set_exit_status" = some v → ∃ on, v.asFlag = .ok on
  analyzer : ∀ v, entries.find? "analyzer" = some v → ∃ text, v.asText = .ok text
  rules : ∀ v, entries.find? "rules" = some v → ∃ rules : Entries Value, v = .table rules ∧
    ∀ (category : RuleCategory) w, rules.find? category.key = some w → ∃ on, w.asFlag = .ok on
  excludes : ∀ v, entries.find? "excludes" = some v → ∃ items, v = .list items ∧
    ∀ item ∈ items, ∃ text, item.asText = .ok text

/-- In a table whose names are all known, nothing is wrong exactly when all values suit. -/
theorem isAcceptable_iff {entries : Entries Value} (hknown : ∀ name ∈ entries.names, name ∈ names)
    (hrules : ∀ rules : Entries Value, entries.find? "rules" = some (.table rules) →
      ∀ name ∈ rules.names, name ∈ RuleCategory.all.map RuleCategory.key) :
    IsAcceptable entries ↔ ∀ c, ¬ Fault entries c := by
  have hflags {v : Value} (given : entries.find? "rules" = some v) :=
    RuleSelection.exists_flags_iff fun rules (heq : v = .table rules) => hrules rules (heq ▸ given)
  -- Setting by setting: a fault there is a value that is not read, and an unknown name is excluded.
  constructor
  · rintro h c hfault
    cases hfault with
    | minConfidence given fails =>
      exact (isSingle_asThreshold _).exists_ok_iff.1 (h.minConfidence _ given) _ fails
    | setExitStatus given fails =>
      exact (isSingle_asFlag _).exists_ok_iff.1 (h.setExitStatus _ given) _ fails
    | analyzer given fails =>
      exact (isSingle_asText _).exists_ok_iff.1 (h.analyzer _ given) _ fails
    | rules given fault => exact (hflags given).1 (h.rules _ given) _ fault
    | excludes given fault => exact exists_texts_iff.1 (h.excludes _ given) _ fault
    | unknown given hnew => exact hnew (hknown _ given)
  · intro h
    constructor
    case minConfidence =>
      exact fun v given => (isSingle_asThreshold v).exists_ok_iff.2 fun kind fails =>
        h _ (.minConfidence given fails)
    case setExitStatus =>
      exact fun v given => (isSingle_asFlag v).exists_ok_iff.2 fun kind fails =>
        h _ (.setExitStatus given fails)
    case analyzer =>
      exact fun v given => (isSingle_asText v).exists_ok_iff.2 fun kind fails =>
        h _ (.analyzer given fails)
    case rules => exact fun v given => (hflags given).2 fun _ fault => h _ (.rules given fault)
    case excludes =>
      exact fun v given => exists_texts_iff.2 fun _ fault => h _ (.excludes given fault)

end Settings

end LintFront
