import LintFront.Proofs.Run.Coverage
import LintFront.Proofs.Run.Insertion
/-!
# The order of the arguments

A run goes through its units in the order in which the arguments first name them. With other
arguments of the same kind that are the same as a set, the order of the units is another one, and a
unit may be contributed by another argument, since recursive targets overlap with what lies below
them. But the units are the same. An engine that answers each unit by itself then has the same to
say about each of them.

That each argument counts once, however often it is named, is due to the lists of directories and of
specifiers, in which nothing comes twice: two such lists with the same members are the same up to
order.

## Main statements

`Linter.run_unordered`: arguments that are the same as a set lead to the same calls and the same
findings, up to order.
-/

namespace LintFront

/-- The answer of the engine hangs on the files and the rules alone, and not on the turn. -/
def Engine.IsSteady (engine : Engine) : Prop :=
  ∀ turn turn' files rules, engine.inspect turn files rules = engine.inspect turn' files rules

/-! ## 1. Lists with the same members -/

theorem mem_flatMap_congr {α β : Type} {l l' : List α} (f : α → List β)
    (h : ∀ a, a ∈ l ↔ a ∈ l') (b : β) : b ∈ l.flatMap f ↔ b ∈ l'.flatMap f := by
  simp only [List.mem_flatMap, h]

/-! ## 2. Engines that answer each unit by itself -/

namespace Reporter

variable {reporter : Reporter} (steady : reporter.engine.IsSteady)

/-- The verdict on files, in whichever turn they are given to a steady engine. -/
def verdictFor (reporter : Reporter) (files : Sources) : Verdict :=
  reporter.engine.inspect 0 files reporter.rules

include steady

/-- What is due for calls of a steady engine is due for each of them by itself. -/
theorem due_of_isSteady (turn : Nat) (given : List Sources) :
    reporter.due turn (given.map reporter.callOn) =
      given.flatMap fun files => reporter.shown (reporter.verdictFor files) := by
  induction given generalizing turn with
  | nil => rfl
  | cons files given ih =>
    have hverdict : (reporter.callOn files).engine.inspect turn (reporter.callOn files).files
        (reporter.callOn files).rules = reporter.verdictFor files := steady turn 0 files _
    rw [List.map_cons, due, ih, hverdict, List.flatMap_cons]

/-- With a steady engine, moves come to their end when the engine crashes on no files of them. -/
theorem outcome_traceFrom_eq_ok_iff (turn : Nat) {outcome : Except RunFault Unit}
    {moves : List Move} :
    (reporter.traceFrom outcome turn moves).outcome = .ok () ↔ outcome = .ok () ∧
      ∀ files ∈ moves.filterMap Move.given?, ∃ n,
        reporter.answer (reporter.verdictFor files) = .ok n := by
  -- The induction goes through all turns, since files that are given are a turn of their own.
  induction moves generalizing turn with
  | nil => simp [traceFrom]
  | cons move moves ih =>
    cases move with
    | note message => exact ih turn
    | fail message => exact ih turn
    | give files =>
      have hverdict : reporter.engine.inspect turn files reporter.rules =
        reporter.verdictFor files := steady turn 0 files _
      rw [List.filterMap_cons_some (show (Move.give files).given? = some files from rfl),
        List.forall_mem_cons, traceFrom, hverdict]
      cases reporter.answer (reporter.verdictFor files) with
      | error fault => simp
      | ok n =>
        dsimp only
        rw [Trace.outcome_after, ih]
        simp

end Reporter

/-! ## 3. What runs over the same targets give -/

namespace Linter

variable {linter : Linter} {disk : Disk} {args args' : List String}

/-- Targets that are the same as a set stand for the same directories up to order. -/
theorem perm_expandDirectories {excludes : List String} {targets targets' : List Target}
    (h : ∀ target, target ∈ targets ↔ target ∈ targets') {directories : List String}
    (hexpand : expandDirectories disk excludes targets = .ok directories) :
    ∃ directories', expandDirectories disk excludes targets' = .ok directories' ∧
      directories.Perm directories' := by
  have heach : ∀ target ∈ targets, ∃ paths,
      directoriesOf disk excludes target = .ok paths := by
    unfold expandDirectories at hexpand
    cases hmap : targets.mapM (directoriesOf disk excludes) with
    | error fault =>
      rw [hmap] at hexpand
      cases hexpand
    | ok expanded => exact exists_mapM_eq_ok_iff.1 ⟨expanded, hmap⟩
  obtain ⟨found, hfound, hnodup, hmem⟩ := exists_expandDirectories_eq_ok heach
  obtain rfl := Except.ok.inj (hexpand.symm.trans hfound)
  obtain ⟨found', hfound', hnodup', hmem'⟩ :=
    exists_expandDirectories_eq_ok fun target htarget => heach target ((h target).2 htarget)
  -- Neither list has anything twice, so it is enough that they have the same members.
  refine ⟨found', hfound', (List.perm_ext_iff_of_nodup hnodup hnodup').2 fun d => ?_⟩
  simp only [hmem, hmem', h]

/-- Units one after the other come to their end in every order, and give the same up to order. -/
theorem perm_given_units {resolve : String → Except Trouble SourceUnit} {items items' : List String}
    (h : items.Perm items')
    (hends : (Script.all (items.map fun i => scriptOfUnit disk (resolve i))).ending = none) :
    (Script.all (items'.map fun i => scriptOfUnit disk (resolve i))).ending = none ∧
      (Script.all (items.map fun i => scriptOfUnit disk (resolve i))).given.Perm
        (Script.all (items'.map fun i => scriptOfUnit disk (resolve i))).given := by
  have hends' : (Script.all (items'.map fun i => scriptOfUnit disk (resolve i))).ending = none := by
    rw [Script.ending_all_eq_none_iff, List.forall_mem_map] at hends ⊢
    exact fun i hi => hends i (h.mem_iff.2 hi)
  refine ⟨hends', ?_⟩
  rw [Script.ending_all_eq_none_iff] at hends hends'
  rw [Script.given_all hends, Script.given_all hends', List.flatMap_map, List.flatMap_map]
  exact h.flatMap_right _

theorem perm_scriptOfDirectories {targets targets' : List Target}
    (h : ∀ target, target ∈ targets ↔ target ∈ targets')
    (hends : (linter.scriptOfDirectories disk targets).ending = none) :
    (linter.scriptOfDirectories disk targets').ending = none ∧
      (linter.scriptOfDirectories disk targets).given.Perm
        (linter.scriptOfDirectories disk targets').given := by
  unfold scriptOfDirectories at hends ⊢
  cases hexpand : expandDirectories disk linter.excludes targets with
  | error fault =>
    rw [hexpand] at hends
    cases hends
  | ok directories =>
    obtain ⟨directories', hexpand', hperm⟩ := perm_expandDirectories h hexpand
    rw [hexpand] at hends
    rw [hexpand']
    exact perm_given_units hperm hends

theorem perm_scriptOfPackages {texts texts' : List String}
    (h : ∀ text, text ∈ texts ↔ text ∈ texts')
    (hends : (linter.scriptOfPackages disk texts).ending = none) :
    (linter.scriptOfPackages disk texts').ending = none ∧
      (linter.scriptOfPackages disk texts).given.Perm
        (linter.scriptOfPackages disk texts').given := by
  have hexpansions : ∀ {texts : List String},
      (Script.all (texts.map (linter.scriptOfExpansion disk))).ending = none →
      (Script.all (texts.map (linter.scriptOfExpansion disk))).given = [] := by
    intro texts hending
    rw [Script.ending_all_eq_none_iff] at hending
    rw [Script.given_all hending, List.flatMap_map, List.flatMap_eq_nil_iff]
    exact fun text _ => linter.given_scriptOfExpansion disk text
  -- Each specifier is asked for once, however many of the texts stand for it.
  have hspecifiers : (linter.specifiers disk texts).Perm (linter.specifiers disk texts') :=
    perm_eraseDups (mem_flatMap_congr _ h)
  rw [scriptOfPackages, Script.ending_andThen_eq_none_iff] at hends
  have hends' : (Script.all (texts'.map (linter.scriptOfExpansion disk))).ending = none := by
    have hfirst := hends.1
    rw [Script.ending_all_eq_none_iff, List.forall_mem_map] at hfirst ⊢
    exact fun text htext => hfirst text ((h text).2 htext)
  obtain ⟨hunits, hperm⟩ := perm_given_units hspecifiers hends.2
  rw [scriptOfPackages, scriptOfPackages, Script.ending_andThen_eq_none_iff,
    Script.given_andThen hends.1, Script.given_andThen hends', hexpansions hends.1,
    hexpansions hends']
  exact ⟨⟨hends', hunits⟩, hperm⟩

/-- Arguments that are the same as a set come to their end together, and give the same up to
order. -/
theorem perm_script {kind : TargetKind} (hfile : kind ≠ .file) (hne : args ≠ [])
    (hkind : ∀ arg ∈ args, (Target.classify disk arg).kind = kind)
    (hsame : ∀ arg, arg ∈ args ↔ arg ∈ args') (hends : (linter.script disk args).ending = none) :
    (linter.script disk args').ending = none ∧
      (linter.script disk args).given.Perm (linter.script disk args').given := by
  have hne' : args' ≠ [] := by
    obtain ⟨arg, harg⟩ := List.exists_mem_of_ne_nil args hne
    exact List.ne_nil_of_mem ((hsame arg).1 harg)
  have hkinds : ∀ target ∈ targetsOf disk args, target.kind = kind := by
    rw [targetsOf_of_ne_nil hne]
    exact List.forall_mem_map.2 hkind
  have hkinds' : ∀ target ∈ targetsOf disk args', target.kind = kind := by
    rw [targetsOf_of_ne_nil hne']
    exact List.forall_mem_map.2 fun arg harg => hkind arg ((hsame arg).2 harg)
  rw [script_eq linter hkinds, Script.ending_andThen_eq_none_iff] at hends
  rw [script_eq linter hkinds, script_eq linter hkinds', Script.ending_andThen_eq_none_iff,
    Script.given_andThen rfl, Script.given_andThen rfl]
  have hplan : (linter.scriptOfPlan disk ⟨kind, targetsOf disk args'⟩).ending = none ∧
      (linter.scriptOfPlan disk ⟨kind, targetsOf disk args⟩).given.Perm
        (linter.scriptOfPlan disk ⟨kind, targetsOf disk args'⟩).given := by
    cases kind with
    | file => exact absurd rfl hfile
    | directory =>
      apply perm_scriptOfDirectories _ hends.2
      intro target
      rw [targetsOf_of_ne_nil hne, targetsOf_of_ne_nil hne']
      simp only [List.mem_map, hsame]
    | package =>
      apply perm_scriptOfPackages _ hends.2
      intro text
      show text ∈ textsOf disk args ↔ text ∈ textsOf disk args'
      rw [textsOf_of_ne_nil hne, textsOf_of_ne_nil hne', hsame]
  exact ⟨⟨rfl, hplan.1⟩, hplan.2⟩

/-! ## 4. Runs -/

/-- With a steady engine, a run that comes to its end gives what its script gives, prints what is
shown of it, and counts both. -/
theorem extended_of_isSteady (steady : linter.reporter.engine.IsSteady) {journal later : Journal}
    (hrun : (linter.run disk args).runOn journal = (.ok (), later)) :
    ∃ events, later = journal.extended events ∧
      events.filterMap Event.call? =
        (linter.script disk args).given.map linter.reporter.callOn ∧
      events.filterMap Event.finding? = (linter.script disk args).given.flatMap fun files =>
        linter.reporter.shown (linter.reporter.verdictFor files) := by
  rw [runOn_run] at hrun
  obtain ⟨hok, rfl⟩ := Prod.mk.inj hrun
  obtain ⟨hcalls, hfindings⟩ := Reporter.accounts_of_outcome_eq_ok hok
  rw [Reporter.due_of_isSteady steady] at hfindings
  exact ⟨_, rfl, hcalls, hfindings⟩

/-- Where a script comes to its end, so does a run with a steady engine that crashes on nothing that
is given. -/
theorem exists_runOn_eq_ok_iff (steady : linter.reporter.engine.IsSteady) {journal : Journal} :
    (∃ later, (linter.run disk args).runOn journal = (.ok (), later)) ↔
      (linter.script disk args).ending = none ∧
      ∀ files ∈ (linter.script disk args).given, ∃ n,
        linter.reporter.answer (linter.reporter.verdictFor files) = .ok n := by
  rw [← Script.outcome_eq_ok_iff, runOn_run, Script.given, Reporter.trace,
    ← Reporter.outcome_traceFrom_eq_ok_iff steady journal.tally.units]
  constructor
  · rintro ⟨later, hrun⟩
    exact congrArg Prod.fst hrun
  · intro hok
    exact ⟨_, by rw [hok]⟩

/-- With an engine whose answer hangs on the files and the rules alone, only the set of arguments
matters, up to order: a run over directories or packages that comes to its end does so for all
arguments that are the same as a set. The engine is then given the same, the same is printed, both
up to order, and the counters grow by the same amounts; so the exit status is the same as well. Over
directories every run comes to its end with an engine that keeps its promise. -/
theorem run_unordered {kind : TargetKind} (steady : linter.reporter.engine.IsSteady)
    (hfile : kind ≠ .file) (hne : args ≠ [])
    (hkind : ∀ arg ∈ args, (Target.classify disk arg).kind = kind)
    (hsame : ∀ arg, arg ∈ args ↔ arg ∈ args') (journal journal' : Journal) :
    (kind = .directory → disk.root.WellFormed → linter.reporter.engine.IsFaithful →
      ∃ later, (linter.run disk args).runOn journal = (.ok (), later)) ∧
    ∀ later, (linter.run disk args).runOn journal = (.ok (), later) →
      ∃ later' calls calls' findings findings',
        (linter.run disk args').runOn journal' = (.ok (), later') ∧
        later.calls = journal.calls ++ calls ∧ later'.calls = journal'.calls ++ calls' ∧
        calls.Perm calls' ∧
        later.findings = journal.findings ++ findings ∧
        later'.findings = journal'.findings ++ findings' ∧ findings.Perm findings' ∧
        later.tally.units = journal.tally.units + calls.length ∧
        later'.tally.units = journal'.tally.units + calls.length ∧
        later.tally.suggestions = journal.tally.suggestions + findings.length ∧
        later'.tally.suggestions = journal'.tally.suggestions + findings.length ∧
        (journal.tally = journal'.tally → ∀ setExitStatus,
          exitStatus setExitStatus later.tally.suggestions =
            exitStatus setExitStatus later'.tally.suggestions) := by
  constructor
  · rintro rfl hroot faithful
    have hkinds : ∀ target ∈ targetsOf disk args, target.kind = .directory := by
      rw [targetsOf_of_ne_nil hne]
      exact List.forall_mem_map.2 hkind
    have hends : (linter.script disk args).outcome = .ok () := by
      rw [Script.outcome_eq_ok_iff, script_eq linter hkinds, Script.ending_andThen_eq_none_iff]
      exact ⟨rfl, linter.ending_scriptOfDirectories hroot
        (nullFree_path_of_kind_eq_directory hkinds)⟩
    have hfst := Reporter.fst_play faithful (linter.script disk args) journal
    rw [← run_eq_play, hends] at hfst
    exact ⟨_, Prod.ext hfst rfl⟩
  · intro later hrun
    obtain ⟨hends, hanswers⟩ := (exists_runOn_eq_ok_iff steady).1 ⟨later, hrun⟩
    obtain ⟨hends', hperm⟩ := perm_script hfile hne hkind hsame hends
    -- The engine crashes on nothing that is given, in whichever order it is given.
    obtain ⟨later', hrun'⟩ : ∃ later', (linter.run disk args').runOn journal' = (.ok (), later') :=
      (exists_runOn_eq_ok_iff steady).2
        ⟨hends', fun files hfiles => hanswers files (hperm.mem_iff.2 hfiles)⟩
    obtain ⟨events, rfl, hcalls, hfindings⟩ := extended_of_isSteady steady hrun
    obtain ⟨events', rfl, hcalls', hfindings'⟩ := extended_of_isSteady steady hrun'
    have hpermCalls : (events.filterMap Event.call?).Perm (events'.filterMap Event.call?) := by
      rw [hcalls, hcalls']
      exact hperm.map _
    have hpermFindings :
        (events.filterMap Event.finding?).Perm (events'.filterMap Event.finding?) := by
      rw [hfindings, hfindings']
      exact hperm.flatMap_right _
    refine ⟨_, _, _, _, _, hrun', journal.calls_extended events, journal'.calls_extended events',
      hpermCalls, journal.findings_extended events, journal'.findings_extended events',
      hpermFindings, rfl, ?_, rfl, ?_, ?_⟩
    · rw [hpermCalls.length_eq]
      rfl
    · rw [hpermFindings.length_eq]
      rfl
    · intro htally setExitStatus
      simp only [Journal.extended, htally, hpermFindings.length_eq]

/-- A disk with one package of one file. -/
def onePackage : Disk where
  root := .directory [("pkg", .directory [("a.py", .file .empty)])]
  here := []

theorem node_onePackage :
    onePackage.node "pkg" = .ok (.directory [("a.py", .file .empty)]) :=
  Disk.node_of_spellsOut rfl (show Disk.SpellsOut _ ["pkg"] by decide) rfl
    (Node.directory_ne_link _)

/-- A directory is named by itself and with all below it, in this order and in another. -/
theorem unordered_onePackage : ∃ later later',
    (quiet.run onePackage ["pkg/...", "pkg"]).runOn {} = (.ok (), later) ∧
    (quiet.run onePackage ["pkg", "pkg/...", "pkg"]).runOn {} = (.ok (), later') ∧
    later.calls.Perm later'.calls := by
  have hplain : Target.classify onePackage "pkg" = ⟨"pkg", .directory, false⟩ :=
    classify_of_node_eq_directory (by decide) node_onePackage
  have hstem : stripMarker "pkg/..." = "pkg" := by decide
  have hmarked : Target.classify onePackage "pkg/..." = ⟨"pkg/...", .directory, true⟩ :=
    classify_of_hasMarker (by decide) (hstem ▸ node_onePackage)
  have hkind : ∀ arg ∈ ["pkg/...", "pkg"],
      (Target.classify onePackage arg).kind = .directory := by
    simp [hplain, hmarked]
  have hsame : ∀ arg, arg ∈ ["pkg/...", "pkg"] ↔ arg ∈ ["pkg", "pkg/...", "pkg"] := by
    intro arg
    simp only [List.mem_cons, List.not_mem_nil, or_false]
    tauto
  have steady : quiet.reporter.engine.IsSteady := fun _ _ _ _ => rfl
  obtain ⟨hcompletes, hunordered⟩ := run_unordered steady (by decide) (List.cons_ne_nil _ _) hkind
    hsame {} {}
  obtain ⟨later, hrun⟩ := hcompletes rfl (by decide) isFaithful_quiet
  obtain ⟨later', calls, calls', -, -, hrun', hcalls, hcalls', hperm, -⟩ := hunordered later hrun
  exact ⟨later, later', hrun, hrun', hcalls ▸ hcalls' ▸ hperm⟩

end Linter

end LintFront
