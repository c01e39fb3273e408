import LintFront.Proofs.Run.Repetition
import LintFront.Proofs.Run.Trace
/-!
# Targets that yield no unit

A target that yields no unit is no business of the others. Over directories it is a directory
without source files, of which nothing is heard at all; over packages it is one that is not found,
or holds no sources, of which at most a report is heard. The other targets are linted as if it were
not there.

There are two reasons why this needs an argument. The target may be named a second time, by itself
or by the expansion of another, and then it takes the place of the first of the two; so the others
have to be compared with the target taken out of both lists. And the place of the report differs:
what cannot be expanded is reported before any unit is linted, and what cannot be resolved is
reported between two units. In either case the report is *added* at one place, or it was there
already and is *moved* to another.

## Main statements

`Linter.run_undisturbed`: a target that yields no unit does not disturb a run.
-/

namespace LintFront

/-! ## 1. Lists with one element more -/

/-- The second list is the first one with `x` at a place where it was not: it is added, or taken
out at one place and put in at another. -/
def AddedOrMoved {α : Type} (x : α) (l l' : List α) : Prop :=
  ∃ a b, l' = a ++ x :: b ∧ (l = a ++ b ∨ ∃ c d, l = c ++ x :: d ∧ c ++ d = a ++ b)

theorem exists_eq_append_cons {α : Type} [DecidableEq α] {x : α} {l : List α} (hnodup : l.Nodup)
    (hx : x ∈ l) : ∃ a b, l = a ++ x :: b ∧ l.filter (· ≠ x) = a ++ b := by
  obtain ⟨a, b, rfl⟩ := List.append_of_mem hx
  obtain ⟨-, hrest, hdisjoint⟩ := List.nodup_append'.1 hnodup
  have ha : ∀ y ∈ a, y ≠ x := by
    rintro y hy rfl
    exact hdisjoint hy List.mem_cons_self
  have hb : ∀ y ∈ b, y ≠ x := by
    rintro y hy rfl
    exact (List.nodup_cons.1 hrest).1 hy
  refine ⟨a, b, rfl, ?_⟩
  rw [List.filter_append, List.filter_cons_of_neg (by simp),
    List.filter_eq_self.2 (by simpa using ha), List.filter_eq_self.2 (by simpa using hb)]

namespace AddedOrMoved

variable {α β : Type} {x : α} {l l' : List α}

/-- Lists in which nothing comes twice differ by one element at most when they agree without it. -/
theorem of_filter_eq [DecidableEq α] (hl : l.Nodup) (hl' : l'.Nodup) (hx : x ∈ l')
    (h : l'.filter (· ≠ x) = l.filter (· ≠ x)) : AddedOrMoved x l l' := by
  obtain ⟨a, b, hsplit', hfilter'⟩ := exists_eq_append_cons hl' hx
  refine ⟨a, b, hsplit', ?_⟩
  -- Where `x` was before, if it was there at all, is the place that it is moved from.
  by_cases hmem : x ∈ l
  · obtain ⟨c, d, hsplit, hfilter⟩ := exists_eq_append_cons hl hmem
    exact .inr ⟨c, d, hsplit, by rw [← hfilter, ← h, hfilter']⟩
  · left
    rw [← hfilter', h, List.filter_eq_self.2]
    intro y hy
    have hne : y ≠ x := fun heq => hmem (heq ▸ hy)
    simpa using hne

theorem flatMap {f : α → List β} {y : β} (hf : f x = [y]) (h : AddedOrMoved x l l') :
    AddedOrMoved y (l.flatMap f) (l'.flatMap f) := by
  obtain ⟨a, b, rfl, rfl | ⟨c, d, rfl, hsame⟩⟩ := h
  · refine ⟨a.flatMap f, b.flatMap f, ?_, .inl List.flatMap_append⟩
    rw [List.flatMap_append, List.flatMap_cons, hf]
    rfl
  · refine ⟨a.flatMap f, b.flatMap f, ?_, .inr ⟨c.flatMap f, d.flatMap f, ?_, ?_⟩⟩
    · rw [List.flatMap_append, List.flatMap_cons, hf]
      rfl
    · rw [List.flatMap_append, List.flatMap_cons, hf]
      rfl
    · rw [← List.flatMap_append, hsame, List.flatMap_append]

theorem append_left (first : List α) (h : AddedOrMoved x l l') :
    AddedOrMoved x (first ++ l) (first ++ l') := by
  obtain ⟨a, b, rfl, rfl | ⟨c, d, rfl, hsame⟩⟩ := h
  · exact ⟨first ++ a, b, (List.append_assoc _ _ _).symm, .inl (List.append_assoc _ _ _).symm⟩
  · refine ⟨first ++ a, b, (List.append_assoc _ _ _).symm,
      .inr ⟨first ++ c, d, (List.append_assoc _ _ _).symm, ?_⟩⟩
    rw [List.append_assoc, List.append_assoc, hsame]

theorem filter {p : α → Bool} (hp : p x = true) (h : AddedOrMoved x l l') :
    AddedOrMoved x (l.filter p) (l'.filter p) := by
  obtain ⟨a, b, rfl, rfl | ⟨c, d, rfl, hsame⟩⟩ := h
  · refine ⟨a.filter p, b.filter p, ?_, .inl (List.filter_append _ _)⟩
    rw [List.filter_append, List.filter_cons_of_pos hp]
  · refine ⟨a.filter p, b.filter p, ?_, .inr ⟨c.filter p, d.filter p, ?_, ?_⟩⟩
    · rw [List.filter_append, List.filter_cons_of_pos hp]
    · rw [List.filter_append, List.filter_cons_of_pos hp]
    · rw [← List.filter_append, hsame, List.filter_append]

/-- What does not look at `x` does not tell the lists apart. -/
theorem filterMap_eq {f : α → Option β} (hf : f x = none) (h : AddedOrMoved x l l') :
    l'.filterMap f = l.filterMap f := by
  obtain ⟨a, b, rfl, rfl | ⟨c, d, rfl, hsame⟩⟩ := h
  · rw [List.filterMap_append, List.filterMap_cons_none hf, ← List.filterMap_append]
  · rw [List.filterMap_append, List.filterMap_cons_none hf, ← List.filterMap_append, ← hsame,
      List.filterMap_append, List.filterMap_append, List.filterMap_cons_none hf]

theorem filter_eq {p : α → Bool} (hp : ¬p x = true) (h : AddedOrMoved x l l') :
    l'.filter p = l.filter p := by
  obtain ⟨a, b, rfl, rfl | ⟨c, d, rfl, hsame⟩⟩ := h
  · rw [List.filter_append, List.filter_cons_of_neg hp, ← List.filter_append]
  · rw [List.filter_append, List.filter_cons_of_neg hp, ← List.filter_append, ← hsame,
      List.filter_append, List.filter_append, List.filter_cons_of_neg hp]

end AddedOrMoved

/-! ## 2. What is heard of a script -/

/-- The script without its messages for debugging. -/
def Script.heard (script : Script) : Script :=
  { script with moves := script.moves.filter Move.isLoud }

namespace Script

theorem heard_andThen (a b : Script) : (a.andThen b).heard = a.heard.andThen b.heard := by
  obtain ⟨moves, ending⟩ := a
  cases ending with
  | none => simp only [andThen, heard, List.filter_append]
  | some fault => rfl

/-- What makes no sound may be left out. -/
theorem heard_all_of_silent {f : String → Script} {x : String} (hsilent : (f x).heard = {})
    (l : List String) :
    (all (l.map f)).heard = (all ((l.filter (· ≠ x)).map f)).heard := by
  induction l with
  | nil => rfl
  | cons y l ih =>
    rw [List.map_cons, all, heard_andThen, ih]
    by_cases hy : y = x
    · rw [List.filter_cons_of_neg (by simpa using hy), hy, hsilent]
      rfl
    · rw [List.filter_cons_of_pos (by simpa using hy), List.map_cons, all, heard_andThen]

end Script

/-- The second trace is the first one with a report at some place, unless both end early. -/
def Trace.HasReport (message : String) (without reported : Trace) : Prop :=
  ∃ first second result, without = ⟨first ++ second, result⟩ ∧ reported.outcome = result ∧
    (result = .ok () → reported.events = first ++ .failed message :: second)

theorem Trace.HasReport.after {message : String} {without reported : Trace}
    (h : HasReport message without reported) (events : List Event) :
    HasReport message (without.after events) (reported.after events) := by
  obtain ⟨first, second, result, rfl, houtcome, hreport⟩ := h
  refine ⟨events ++ first, second, result, ?_, houtcome, fun hok => ?_⟩
  · rw [Trace.after, List.append_assoc]
  · rw [Trace.after, hreport hok, List.append_assoc]

namespace Reporter

variable (reporter : Reporter)

/-- What is heard of following a script is the trace of what is heard of the script. -/
theorem heard_trace (turn : Nat) (script : Script) :
    (reporter.trace turn script).heard = reporter.trace turn script.heard :=
  reporter.heard_traceFrom _ _ _

/-- A report among the moves is a report among the events, unless the engine crashes before. -/
theorem hasReport_traceFrom (outcome : Except RunFault Unit) (message : String) (turn : Nat)
    (a b : List Move) :
    Trace.HasReport message (reporter.traceFrom outcome turn (a ++ b))
      (reporter.traceFrom outcome turn (a ++ .fail message :: b)) := by
  induction a generalizing turn with
  | nil => exact ⟨[], _, _, rfl, rfl, fun _ => rfl⟩
  | cons move a ih =>
    cases move with
    | note other => exact (ih turn).after [.noted other]
    | fail other => exact (ih turn).after [.failed other]
    | give files =>
      rw [List.cons_append, List.cons_append, traceFrom, traceFrom]
      cases reporter.answer (reporter.engine.inspect turn files reporter.rules) with
      | ok n => exact (ih (turn + 1)).after _
      | error fault =>
        -- The trace stops here, with or without the report.
        refine ⟨_, [], .error fault, by rw [List.append_nil], rfl, ?_⟩
        intro hended
        cases hended

/-- A report that is added to the moves or moved among them is so among the events. -/
theorem addedOrMoved_traceFrom {outcome : Except RunFault Unit} {message : String} {turn : Nat}
    {moves moves' : List Move} (h : AddedOrMoved (.fail message) moves moves')
    (hends : (reporter.traceFrom outcome turn moves).outcome = .ok ()) :
    (reporter.traceFrom outcome turn moves').outcome = .ok () ∧
      AddedOrMoved (.failed message) (reporter.traceFrom outcome turn moves).events
        (reporter.traceFrom outcome turn moves').events := by
  obtain ⟨a, b, rfl, hmoves⟩ := h
  obtain ⟨first, second, result, hwithout, houtcome, hwith⟩ :=
    reporter.hasReport_traceFrom outcome message turn a b
  rcases hmoves with rfl | ⟨c, d, rfl, hsame⟩
  · rw [hwithout] at hends ⊢
    exact ⟨houtcome.trans hends, first, second, hwith hends, .inl rfl⟩
  · -- Both lists have the report, and the traces are compared with the one without it.
    obtain ⟨first', second', result', hwithout', houtcome', hwith'⟩ :=
      reporter.hasReport_traceFrom outcome message turn c d
    rw [hsame, hwithout] at hwithout'
    obtain ⟨hevents, rfl⟩ := Trace.mk.inj hwithout'
    have hok : result = .ok () := houtcome'.symm.trans hends
    exact ⟨houtcome.trans hok, first, second, hwith hok,
      .inr ⟨first', second', hwith' hok, hevents.symm⟩⟩

end Reporter

/-! ## 3. What is heard of a journal -/

/-- What is heard of the events of a journal. -/
def Journal.heard (journal : Journal) : List Event := journal.events.filter Event.isLoud

theorem Journal.heard_extended (journal : Journal) (events : List Event) :
    (journal.extended events).heard = journal.heard ++ events.filter Event.isLoud :=
  List.filter_append _ _

/-- Two journals tell of the same work: the engine was given the same in the same order, the
counters are the same, and so is what was printed. -/
structure Journal.SameWork (first second : Journal) : Prop where
  calls : second.calls = first.calls
  tally : second.tally = first.tally
  printed : ∀ console : Console,
    (console.transcript second.events).out = (console.transcript first.events).out

/-- Events with the same calls and the same findings tell of the same work. -/
theorem Journal.sameWork_extended (journal : Journal) {first second : List Event}
    (hcalls : second.filterMap Event.call? = first.filterMap Event.call?)
    (hfindings : second.filterMap Event.finding? = first.filterMap Event.finding?) :
    (journal.extended first).SameWork (journal.extended second) := by
  constructor
  case calls => rw [calls_extended, calls_extended, hcalls]
  case tally => simp only [extended, hcalls, hfindings]
  case printed =>
    intro console
    have hall : (journal.extended second).events.filterMap Event.finding? =
        (journal.extended first).events.filterMap Event.finding? := by
      simp only [extended, List.filterMap_append, hfindings]
    rw [Console.out_transcript, Console.out_transcript, hall]

namespace Linter

variable {linter : Linter} {disk : Disk}

/-! ## 4. Directories without source files -/

/-- A directory without source files makes no sound. -/
theorem heard_scriptOfUnit_of_isEmpty {d : String} {entries : Entries Node}
    (hlist : disk.list d = .ok entries) (hnone : ¬∃ name, Directory.IsSource disk d entries name) :
    (scriptOfUnit disk (Directory.unit disk d)).heard = {} := by
  have hempty : (Directory.eligible disk d entries).isEmpty = true := by
    rw [← Directory.isEmpty_eligible_eq_false_iff] at hnone
    simpa using hnone
  rw [Directory.unit_of_isEmpty hlist hempty]
  rfl

/-- A target that is not recursive stands for one directory, and the others stand for the same
directories with it and without it. -/
theorem expandDirectories_insert {excludes : List String} {extra : Target}
    (hplain : extra.recursive = false) (before after : List Target) :
    (∃ fault, expandDirectories disk excludes (before ++ after) = .error fault ∧
      expandDirectories disk excludes (before ++ extra :: after) = .error fault) ∨
    ∃ directories directories',
      expandDirectories disk excludes (before ++ after) = .ok directories ∧
      expandDirectories disk excludes (before ++ extra :: after) = .ok directories' ∧
      directories'.filter (· ≠ Path.normal extra.path) =
        directories.filter (· ≠ Path.normal extra.path) := by
  have hextra : directoriesOf disk excludes extra = .ok [extra.path] := by
    rw [directoriesOf, if_neg (by simp [hplain])]
  unfold expandDirectories
  rw [List.mapM_append, List.mapM_append, List.mapM_cons, hextra]
  -- The targets are expanded one after the other; the fault of one ends both lists alike, as
  -- `extra` itself has none.
  cases before.mapM (directoriesOf disk excludes) with
  | error fault => exact .inl ⟨fault, rfl, rfl⟩
  | ok first =>
    cases after.mapM (directoriesOf disk excludes) with
    | error fault => exact .inl ⟨fault, rfl, rfl⟩
    | ok second =>
      refine .inr ⟨_, _, rfl, rfl, ?_⟩
      simp only [List.flatten_append, List.flatten_cons, List.map_append, List.map_cons,
        List.singleton_append]
      exact filter_eraseDups_insert _ _ _

/-- Nothing is heard of a directory without source files. -/
theorem heard_scriptOfDirectories_insert (linter : Linter) {extra : Target} {entries : Entries Node}
    (hplain : extra.recursive = false) (hlist : disk.list (Path.normal extra.path) = .ok entries)
    (hnone : ¬∃ name, Directory.IsSource disk (Path.normal extra.path) entries name)
    (before after : List Target) :
    (linter.scriptOfDirectories disk (before ++ extra :: after)).heard =
      (linter.scriptOfDirectories disk (before ++ after)).heard := by
  have hsilent := heard_scriptOfUnit_of_isEmpty hlist hnone
  unfold scriptOfDirectories
  rcases expandDirectories_insert hplain before after with
    ⟨fault, hwithout, hwith⟩ | ⟨directories, directories', hwithout, hwith, hsame⟩
  · rw [hwithout, hwith]
  · rw [hwithout, hwith]
    dsimp only
    rw [Script.heard_all_of_silent
        (f := fun d => scriptOfUnit disk (Directory.unit disk d)) hsilent,
      hsame, ← Script.heard_all_of_silent
        (f := fun d => scriptOfUnit disk (Directory.unit disk d)) hsilent]

/-! ## 5. Packages that are not found -/

/-- The argument yields no unit: it cannot be expanded, or it stands for itself and cannot be
resolved. -/
inductive YieldsNothing (linter : Linter) (disk : Disk) (arg : String) (error : UnitError) :
    Prop where
  | unexpanded (expansion : Package.expand disk linter.search linter.excludes arg "." =
      .error (.noUnit error))
  | unresolved (unmarked : hasMarker arg = false)
      (resolution : Package.unit disk linter.search arg "." = .error (.noUnit error))

/-- The moves of a package run that comes to its end: the reports on arguments that cannot be
expanded, and then what comes of the specifiers. -/
def packageMoves (linter : Linter) (disk : Disk) (args : List String) : List Move :=
  args.flatMap (linter.expansionReport disk) ++
    (linter.specifiers disk args).flatMap fun s =>
      contribution disk (Package.unit disk linter.search s ".")

theorem flatMap_insert_of_eq_nil {α β : Type} {f : α → List β} {x : α} (hx : f x = [])
    (before after : List α) : (before ++ x :: after).flatMap f = (before ++ after).flatMap f := by
  rw [List.flatMap_append, List.flatMap_cons, hx, List.nil_append, ← List.flatMap_append]

/-- The report on an argument that cannot be expanded stands among those on the arguments, and the
specifiers are the same without it. -/
theorem addedOrMoved_of_unexpanded {extra : String} {error : UnitError}
    (expansion : Package.expand disk linter.search linter.excludes extra "." =
      .error (.noUnit error)) (before after : List String) :
    AddedOrMoved (.fail error.message) (linter.packageMoves disk (before ++ after))
      (linter.packageMoves disk (before ++ extra :: after)) := by
  have hreport : linter.expansionReport disk extra = [.fail error.message] := by
    rw [expansionReport, expansion]
  have hspecifiers : linter.specifiers disk (before ++ extra :: after) =
      linter.specifiers disk (before ++ after) := by
    have hnone : linter.specifiersOf disk extra = [] := by rw [specifiersOf, expansion]
    rw [specifiers, specifiers, flatMap_insert_of_eq_nil hnone]
  unfold packageMoves
  rw [hspecifiers]
  generalize (linter.specifiers disk (before ++ after)).flatMap _ = units
  refine ⟨before.flatMap (linter.expansionReport disk),
    after.flatMap (linter.expansionReport disk) ++ units, ?_, .inl ?_⟩
  · rw [List.flatMap_append, List.flatMap_cons, hreport, List.append_assoc]
    rfl
  · rw [List.flatMap_append, List.append_assoc]

/-- Nothing is said of an argument without the marker when it is expanded. It is one of the
specifiers, perhaps at another place than the one that it had without being named once more. -/
theorem addedOrMoved_of_unresolved {extra : String} {error : UnitError}
    (unmarked : hasMarker extra = false)
    (resolution : Package.unit disk linter.search extra "." = .error (.noUnit error))
    (before after : List String) :
    AddedOrMoved (.ofUnitError error) (linter.packageMoves disk (before ++ after))
      (linter.packageMoves disk (before ++ extra :: after)) := by
  have hmarker : ¬hasMarker extra = true := by simp [unmarked]
  have hself : linter.specifiersOf disk extra = [extra] := specifiersOf_of_not_hasMarker hmarker
  have hsilent : linter.expansionReport disk extra = [] := by
    rw [expansionReport, Package.expand, if_neg hmarker]
  have hspecifiers : AddedOrMoved extra (linter.specifiers disk (before ++ after))
      (linter.specifiers disk (before ++ extra :: after)) := by
    apply AddedOrMoved.of_filter_eq (nodup_specifiers _ _ _) (nodup_specifiers _ _ _)
    · exact mem_specifiers.2 ⟨extra, by simp, by rw [hself]; exact List.mem_singleton_self _⟩
    · rw [specifiers, specifiers, List.flatMap_append, List.flatMap_cons, hself,
        List.flatMap_append]
      exact filter_eraseDups_insert _ _ _
  rw [packageMoves, packageMoves, flatMap_insert_of_eq_nil hsilent]
  exact (hspecifiers.flatMap (by rw [resolution]; rfl)).append_left _

namespace YieldsNothing

variable {extra : String} {error : UnitError} (h : linter.YieldsNothing disk extra error)

include h

/-- It is no fault, neither in the expansion nor in what is made of the specifiers. -/
theorem ending_eq : (linter.scriptOfExpansion disk extra).ending = none ∧
    ∀ s ∈ linter.specifiersOf disk extra,
      (scriptOfUnit disk (Package.unit disk linter.search s ".")).ending = none := by
  cases h with
  | unexpanded expansion =>
    rw [scriptOfExpansion, specifiersOf, expansion]
    exact ⟨rfl, List.forall_mem_nil _⟩
  | unresolved unmarked resolution =>
    have hmarker : ¬hasMarker extra = true := by simp [unmarked]
    rw [specifiersOf_of_not_hasMarker hmarker, scriptOfExpansion, Package.expand, if_neg hmarker]
    refine ⟨rfl, fun s hs => ?_⟩
    rw [List.mem_singleton.1 hs, resolution]
    rfl

/-- A package run that comes to its end does so with the argument as well. -/
theorem ending_scriptOfPackages {before after : List String}
    (hends : (linter.scriptOfPackages disk (before ++ after)).ending = none) :
    (linter.scriptOfPackages disk (before ++ extra :: after)).ending = none := by
  obtain ⟨hexpansion, hunits⟩ := h.ending_eq
  rw [scriptOfPackages, Script.ending_andThen_eq_none_iff, Script.ending_all_eq_none_iff,
    Script.ending_all_eq_none_iff, List.forall_mem_map, List.forall_mem_map] at hends ⊢
  have hmem : ∀ arg, arg ∈ before ++ extra :: after → arg = extra ∨ arg ∈ before ++ after := by
    intro arg harg
    simp only [List.mem_append, List.mem_cons] at harg ⊢
    tauto
  -- First no argument may end the run, then no specifier that an argument stands for.
  constructor
  · intro arg harg
    rcases hmem arg harg with rfl | hother
    · exact hexpansion
    · exact hends.1 arg hother
  · intro s hs
    obtain ⟨arg, harg, hof⟩ := mem_specifiers.1 hs
    rcases hmem arg harg with rfl | hother
    · exact hunits s hof
    · exact hends.2 s (mem_specifiers.2 ⟨arg, hother, hof⟩)

/-- Of the argument at most one report is heard, which is added or moved. -/
theorem heard_packageMoves (before after : List String) :
    (linter.packageMoves disk (before ++ extra :: after)).filter Move.isLoud =
      (linter.packageMoves disk (before ++ after)).filter Move.isLoud ∨
    AddedOrMoved (.fail error.message)
      ((linter.packageMoves disk (before ++ after)).filter Move.isLoud)
      ((linter.packageMoves disk (before ++ extra :: after)).filter Move.isLoud) := by
  cases h with
  | unexpanded expansion =>
    exact .inr ((addedOrMoved_of_unexpanded expansion before after).filter rfl)
  | unresolved unmarked resolution =>
    have hmoves := addedOrMoved_of_unresolved unmarked resolution before after
    -- Without source files it is passed over, and otherwise it is reported.
    cases error with
    | noSources place => exact .inl (hmoves.filter_eq (by simp [Move.ofUnitError, Move.isLoud]))
    | _ => exact .inr (hmoves.filter rfl)

end YieldsNothing

/-! ## 6. Runs -/

theorem targetsOf_of_ne_nil {args : List String} (h : args ≠ []) :
    targetsOf disk args = args.map (Target.classify disk) := by
  rw [targetsOf, if_neg (by simpa using h)]

theorem textsOf_of_ne_nil {args : List String} (h : args ≠ []) : textsOf disk args = args := by
  rw [textsOf, targetsOf_of_ne_nil h, List.map_map]
  conv_rhs => rw [← List.map_id args]
  exact List.map_congr_left fun arg _ => Target.raw_classify disk arg

/-- What is heard of a run over targets of one kind is what is heard of its plan. -/
theorem heard_script {args : List String} {kind : TargetKind}
    (h : ∀ target ∈ targetsOf disk args, target.kind = kind) :
    (linter.script disk args).heard =
      (linter.scriptOfPlan disk ⟨kind, targetsOf disk args⟩).heard := by
  rw [script_eq linter h, Script.heard_andThen]
  rfl

/-- What is heard of a package run that comes to its end. -/
theorem heard_script_packages {args : List String} (hne : args ≠ [])
    (h : ∀ target ∈ targetsOf disk args, target.kind = .package)
    (hends : (linter.scriptOfPackages disk args).ending = none) :
    (linter.script disk args).heard =
      { moves := (linter.packageMoves disk args).filter Move.isLoud } := by
  have harguments : Plan.arguments ⟨.package, targetsOf disk args⟩ = args := textsOf_of_ne_nil hne
  have hending : (linter.scriptOfPlan disk ⟨.package, targetsOf disk args⟩).ending = none := by
    rw [scriptOfPlan, harguments]
    exact hends
  have hmoves := moves_scriptOfPlan hending
  rw [contributions, harguments, List.flatten_append] at hmoves
  rw [heard_script h, Script.heard, hmoves, hending]
  rfl

theorem runOn_run (linter : Linter) (disk : Disk) (args : List String) (journal : Journal) :
    (linter.run disk args).runOn journal =
      ((linter.reporter.trace journal.tally.units (linter.script disk args)).outcome,
        journal.extended
          (linter.reporter.trace journal.tally.units (linter.script disk args)).events) := by
  rw [run_eq_play, Reporter.runOn_play]

/-- The script of a package run that comes to its end is not cut short. -/
theorem ending_of_runOn_eq_ok {args : List String} {journal later : Journal}
    (h : ∀ target ∈ targetsOf disk args, target.kind = .package) (hne : args ≠ [])
    (hrun : (linter.run disk args).runOn journal = (.ok (), later)) :
    (linter.scriptOfPackages disk args).ending = none := by
  rw [runOn_run] at hrun
  have hending := Script.outcome_eq_ok_iff.1
    (Reporter.eq_ok_of_outcome_traceFrom (congrArg Prod.fst hrun))
  rw [script_eq linter h, Script.ending_andThen_eq_none_iff, scriptOfPlan] at hending
  have harguments : Plan.arguments ⟨.package, targetsOf disk args⟩ = args := textsOf_of_ne_nil hne
  rw [← harguments]
  exact hending.2

/-- Traces of which the same is heard, up to one report, tell of the same work. -/
theorem sameWork_of_heard {trace trace' : Trace} (message : String) (journal : Journal)
    (h : trace'.heard.events = trace.heard.events ∨
      AddedOrMoved (.failed message) trace.heard.events trace'.heard.events) :
    (journal.extended trace.events).SameWork (journal.extended trace'.events) := by
  -- Calls and findings are all loud, so they are told by what is heard, and a report is neither.
  have heq : ∀ {β : Type} (f : Event → Option β), f (.failed message) = none →
      (∀ message, f (.noted message) = none) →
      trace'.events.filterMap f = trace.events.filterMap f := by
    intro β f hfailed hnoted
    rw [← Event.filterMap_isLoud f hnoted trace.events,
      ← Event.filterMap_isLoud f hnoted trace'.events]
    rcases h with hsame | hreport
    · exact congrArg (List.filterMap f) hsame
    · exact hreport.filterMap_eq hfailed
  exact journal.sameWork_extended (heq Event.call? rfl fun _ => rfl)
    (heq Event.finding? rfl fun _ => rfl)

/-- What is heard of package runs of which one has an argument more that yields no unit. -/
theorem heard_trace_insert_package {extra : String} {error : UnitError} {before after : List String}
    {turn : Nat} (hne : before ++ after ≠ [])
    (hkind : ∀ target ∈ targetsOf disk (before ++ after), target.kind = .package)
    (hkind' : ∀ target ∈ targetsOf disk (before ++ extra :: after), target.kind = .package)
    (hnothing : linter.YieldsNothing disk extra error)
    (hending : (linter.scriptOfPackages disk (before ++ after)).ending = none)
    (hok : (linter.reporter.trace turn (linter.script disk (before ++ after))).outcome = .ok ()) :
    (linter.reporter.trace turn (linter.script disk (before ++ extra :: after))).outcome = .ok () ∧
      ((linter.reporter.trace turn (linter.script disk (before ++ extra :: after))).heard.events =
          (linter.reporter.trace turn (linter.script disk (before ++ after))).heard.events ∨
        AddedOrMoved (.failed error.message)
          (linter.reporter.trace turn (linter.script disk (before ++ after))).heard.events
          (linter.reporter.trace turn
            (linter.script disk (before ++ extra :: after))).heard.events) := by
  have hheard := heard_script_packages hne hkind hending
  have hheard' := heard_script_packages (by simp) hkind' (hnothing.ending_scriptOfPackages hending)
  -- The ending of a trace is heard, so both endings are read off what is heard.
  have hok' : (linter.reporter.trace turn (linter.script disk (before ++ after))).heard.outcome =
    .ok () := hok
  suffices h : (linter.reporter.trace turn
      (linter.script disk (before ++ extra :: after))).heard.outcome = .ok () ∧ _ from h
  rw [Reporter.heard_trace, hheard] at hok'
  rw [Reporter.heard_trace, Reporter.heard_trace, hheard, hheard']
  rcases hnothing.heard_packageMoves before after with hsame | hreport
  · rw [hsame]
    exact ⟨hok', .inl rfl⟩
  · have hmoved := linter.reporter.addedOrMoved_traceFrom hreport hok'
    exact ⟨hmoved.1, .inr hmoved.2⟩

/-- What is heard of directory runs of which one has a directory without source files more. -/
theorem heard_trace_insert_directory (linter : Linter) {extra : String} {entries : Entries Node}
    {before after : List String} (turn : Nat) (hne : before ++ after ≠ [])
    (hkind : ∀ target ∈ targetsOf disk (before ++ after), target.kind = .directory)
    (hkind' : ∀ target ∈ targetsOf disk (before ++ extra :: after), target.kind = .directory)
    (hextra : Target.classify disk extra = ⟨extra, .directory, false⟩)
    (hlist : disk.list (Path.normal extra) = .ok entries)
    (hnone : ¬∃ name, Directory.IsSource disk (Path.normal extra) entries name) :
    (linter.reporter.trace turn (linter.script disk (before ++ extra :: after))).heard =
      (linter.reporter.trace turn (linter.script disk (before ++ after))).heard := by
  rw [Reporter.heard_trace, Reporter.heard_trace, heard_script hkind, heard_script hkind',
    targetsOf_of_ne_nil hne, targetsOf_of_ne_nil (by simp), List.map_append, List.map_append,
    List.map_cons, hextra]
  have hplain : Target.recursive ⟨extra, .directory, false⟩ = false := rfl
  rw [scriptOfPlan, scriptOfPlan, linter.heard_scriptOfDirectories_insert hplain hlist hnone]

theorem kind_insert {before after : List String} {extra : String} {kind : TargetKind}
    (hne : before ++ after ≠ [])
    (hothers : ∀ arg ∈ before ++ after, (Target.classify disk arg).kind = kind)
    (hextra : (Target.classify disk extra).kind = kind) :
    (∀ target ∈ targetsOf disk (before ++ after), target.kind = kind) ∧
      ∀ target ∈ targetsOf disk (before ++ extra :: after), target.kind = kind := by
  rw [targetsOf_of_ne_nil hne, targetsOf_of_ne_nil (by simp), List.forall_mem_map,
    List.forall_mem_map]
  refine ⟨hothers, fun arg harg => ?_⟩
  rcases List.mem_append.1 harg with hbefore | hafter
  · exact hothers arg (List.mem_append_left _ hbefore)
  · rcases List.mem_cons.1 hafter with rfl | hafter
    · exact hextra
    · exact hothers arg (List.mem_append_right _ hafter)

/-- A target that yields no unit does not disturb a run. Over packages it is one that cannot be
expanded, or is without the marker and cannot be resolved: wherever it is named, the run comes to
its end as it does without it, the engine is given the same in the same order, and on the error
stream at most one report is added or moved. Over directories it is a directory without source
files: the run ends as it does without it, and nothing is heard of it at all. -/
theorem run_undisturbed (linter : Linter) (disk : Disk) (journal : Journal)
    {before after : List String} (extra : String) (hne : before ++ after ≠ []) :
    (∀ error later, (∀ arg ∈ before ++ after, (Target.classify disk arg).kind = .package) →
      (Target.classify disk extra).kind = .package → linter.YieldsNothing disk extra error →
      (linter.run disk (before ++ after)).runOn journal = (.ok (), later) →
      ∃ later' heard heard',
        (linter.run disk (before ++ extra :: after)).runOn journal = (.ok (), later') ∧
        later.SameWork later' ∧
        later.heard = journal.heard ++ heard ∧ later'.heard = journal.heard ++ heard' ∧
        (heard' = heard ∨ AddedOrMoved (.failed error.message) heard heard') ∧
        ∀ console : Console, console.debug = false →
          console.transcript later.events = console.transcript later.heard ∧
          console.transcript later'.events = console.transcript later'.heard) ∧
    (∀ entries, (∀ arg ∈ before ++ after, (Target.classify disk arg).kind = .directory) →
      Target.classify disk extra = ⟨extra, .directory, false⟩ →
      disk.list (Path.normal extra) = .ok entries →
      (¬∃ name, Directory.IsSource disk (Path.normal extra) entries name) →
      ∃ result later later',
        (linter.run disk (before ++ after)).runOn journal = (result, later) ∧
        (linter.run disk (before ++ extra :: after)).runOn journal = (result, later') ∧
        later.SameWork later' ∧ later'.heard = later.heard ∧
        ∀ console : Console, console.debug = false →
          console.transcript later'.events = console.transcript later.events) := by
  constructor
  · intro error later hothers hextra hnothing hrun
    obtain ⟨hkind, hkind'⟩ := kind_insert hne hothers hextra
    have hending := ending_of_runOn_eq_ok hkind hne hrun
    rw [runOn_run] at hrun ⊢
    obtain ⟨hok, rfl⟩ := Prod.mk.inj hrun
    obtain ⟨hok', hheard⟩ := heard_trace_insert_package hne hkind hkind' hnothing hending hok
    refine ⟨_, _, _, by rw [hok'], sameWork_of_heard _ journal hheard,
      journal.heard_extended _, journal.heard_extended _, hheard, fun console hdebug => ?_⟩
    exact ⟨(Console.transcript_filter_isLoud hdebug _).symm,
      (Console.transcript_filter_isLoud hdebug _).symm⟩
  · intro entries hothers hextra hlist hnone
    obtain ⟨hkind, hkind'⟩ := kind_insert hne hothers (congrArg Target.kind hextra)
    have hheard := heard_trace_insert_directory linter journal.tally.units hne hkind hkind' hextra
      hlist hnone
    have hevents := congrArg Trace.events hheard
    rw [runOn_run, runOn_run]
    have hsame : (journal.extended (linter.reporter.trace journal.tally.units
          (linter.script disk (before ++ extra :: after))).events).heard =
        (journal.extended (linter.reporter.trace journal.tally.units
          (linter.script disk (before ++ after))).events).heard := by
      rw [Journal.heard_extended, Journal.heard_extended]
      exact congrArg (journal.heard ++ ·) hevents
    refine ⟨_, _, _, rfl, ?_, sameWork_of_heard "" journal (.inl hevents), hsame, ?_⟩
    · have houtcome := congrArg Trace.outcome hheard
      exact congrArg (·, _) houtcome
    · intro console hdebug
      rw [← Console.transcript_filter_isLoud hdebug,
        ← Console.transcript_filter_isLoud hdebug (Journal.events _)]
      exact congrArg console.transcript hsame

/-- A disk with a directory that is empty and one that is not. -/
def besideEmpty : Disk where
  root := .directory [("bare", .directory []), ("pkg", .directory [("a.py", .file .empty)])]
  here := []

/-- Between two packages a text is named that is no specifier, and beside a directory an empty
one. -/
theorem undisturbed_withModule :
    (∃ later, (quiet.run withModule ["pkg.sub", "no-package", "pkg/sub"]).runOn {} =
        (.ok (), later) ∧
      later.calls.map Call.paths = [["/pkg/sub.py"], ["/pkg/sub.py"]]) ∧
    ∃ result later later',
      (quiet.run besideEmpty ["pkg"]).runOn {} = (result, later) ∧
      (quiet.run besideEmpty ["pkg", "bare"]).runOn {} = (result, later') ∧
      later'.calls = later.calls := by
  constructor
  · have hothers : ∀ arg ∈ ["pkg.sub"] ++ ["pkg/sub"],
        (Target.classify withModule arg).kind = .package := by
      intro arg harg
      apply kind_bothSpellings
      exact List.mem_map_of_mem harg
    have hmissing : withModule.node "no-package" = .error .missing :=
      Disk.node_of_spellsOut_of_find?_eq_none rfl
        (show Disk.SpellsOut _ ([] ++ "no-package" :: []) by decide) rfl (by decide)
    have hextra : (Target.classify withModule "no-package").kind = .package := by
      rw [classify_of_node_eq_error (by decide) hmissing]
    have hnothing : quiet.YieldsNothing withModule "no-package" (.badSpecifier "no-package") :=
      .unresolved (by decide) (Package.unit_of_parse?_eq_none (by decide))
    obtain ⟨later, hrun, hcalls⟩ := runOn_bothSpellings
    obtain ⟨later', -, -, hrun', hsame, -⟩ :=
      (run_undisturbed quiet withModule {} "no-package" (by decide)).1 _ later hothers hextra
        hnothing hrun
    exact ⟨later', hrun', by rw [hsame.calls, hcalls]⟩
  · have hnode : besideEmpty.node "pkg" = .ok (.directory [("a.py", .file .empty)]) :=
      Disk.node_of_spellsOut rfl (show Disk.SpellsOut _ ["pkg"] by decide) rfl
        (Node.directory_ne_link _)
    have hbare : besideEmpty.node "bare" = .ok (.directory []) :=
      Disk.node_of_spellsOut rfl (show Disk.SpellsOut _ ["bare"] by decide) rfl
        (Node.directory_ne_link _)
    have hothers : ∀ arg ∈ ["pkg"] ++ [],
        (Target.classify besideEmpty arg).kind = .directory := by
      intro arg harg
      rw [List.mem_singleton.1 harg, classify_of_node_eq_directory (by decide) hnode]
    have hlist : besideEmpty.list (Path.normal "bare") = .ok [] := by
      rw [show Path.normal "bare" = "bare" by decide, Disk.list, hbare]
    have hnone : ¬∃ name, Directory.IsSource besideEmpty (Path.normal "bare") [] name := by
      rintro ⟨name, hname⟩
      exact absurd hname.listed List.not_mem_nil
    obtain ⟨result, later, later', hrun, hrun', hsame, -⟩ :=
      (run_undisturbed quiet besideEmpty {} "bare" (by decide)).2 [] hothers
        (classify_of_node_eq_directory (by decide) hbare) hlist hnone
    exact ⟨result, later, later', hrun, hrun', hsame.calls⟩

end Linter

end LintFront
