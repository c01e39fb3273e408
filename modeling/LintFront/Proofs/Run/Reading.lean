import LintFront.Proofs.Distinct
import LintFront.Proofs.FileTree.Access
import LintFront.Run.Reading
/-!
# What becomes of the paths of a unit

Paths are read one after the other, and each of them leaves its trace among the files that were read
or among the failures. A path that comes again is passed over if it was read before, and only then:
one that could not be read is tried again and leaves a second trace. So what has been read is told
by the paths without their repetitions, and what has failed is told by the paths with them.

How the two lists come about is shown once, path by path, and all that is known about them follows
from what they are.

## Main statements

`Reading.ofPaths_eq`: what reading paths comes to. `Reading.ofPaths_accounts_iff`: when each path is
accounted for exactly once, and what holds of the account in any case.
`Reading.gone_accounted_twice`: a missing file that is reported twice.
-/

namespace LintFront.Reading

variable {disk : Disk} {paths : List String} {path : String}

/-! ## 1. What a path leaves -/

/-- Can the path be read? -/
def isReadable (disk : Disk) (path : String) : Bool := (disk.read path).isOk

/-- What a path adds to the files that were read. -/
def source? (disk : Disk) (path : String) : Option (String × ByteArray) :=
  match disk.read path with
  | .ok content => some (path, content)
  | .error _ => none

/-- What a path adds to the failures. -/
def failure? (disk : Disk) (path : String) : Option (String × AccessError) :=
  match disk.read path with
  | .ok _ => none
  | .error cause => some (path, cause)

theorem source?_eq_some_iff {file : String × ByteArray} :
    source? disk path = some file ↔ file.1 = path ∧ disk.read path = .ok file.2 := by
  obtain ⟨name, content⟩ := file
  unfold source?
  cases disk.read path <;> simp [eq_comm]

theorem failure?_eq_some_iff {failure : String × AccessError} :
    failure? disk path = some failure ↔
      failure.1 = path ∧ disk.read path = .error failure.2 := by
  obtain ⟨name, cause⟩ := failure
  unfold failure?
  cases disk.read path <;> simp [eq_comm]

theorem isReadable_iff : isReadable disk path = true ↔ ∃ content, disk.read path = .ok content := by
  unfold isReadable
  cases disk.read path <;> simp [Except.isOk, Except.toBool]

theorem isSome_source? : (source? disk path).isSome = isReadable disk path := by
  rw [source?, isReadable]
  cases disk.read path <;> rfl

theorem isSome_failure? : (failure? disk path).isSome = !isReadable disk path := by
  rw [failure?, isReadable]
  cases disk.read path <;> rfl

section

variable {β : Type} {f : String → Option (String × β)} (hf : ∀ p x, f p = some x → x.1 = p)

include hf

/-- Things that are made of paths and named by them have the names of those of which there is
something to make. -/
theorem map_fst_filterMap (paths : List String) :
    (paths.filterMap f).map (·.1) = paths.filter fun p => (f p).isSome := by
  induction paths with
  | nil => rfl
  | cons path paths ih =>
    rw [List.filterMap_cons, List.filter_cons]
    cases hpath : f path with
    | none => exact ih
    | some x =>
      obtain rfl := hf path x hpath
      exact congrArg (x.1 :: ·) ih

/-- To leave out paths is to leave out what is named by them. -/
theorem filterMap_filter (keep : String → Bool) (paths : List String) :
    (paths.filter keep).filterMap f = (paths.filterMap f).filter fun x => keep x.1 := by
  induction paths with
  | nil => rfl
  | cons path paths ih =>
    rw [List.filter_cons, List.filterMap_cons]
    cases hpath : f path with
    | none =>
      dsimp only
      rw [← ih]
      split
      · exact List.filterMap_cons_none hpath
      · rfl
    | some x =>
      obtain rfl := hf path x hpath
      dsimp only
      rw [List.filter_cons, ← ih]
      split
      · exact List.filterMap_cons_some hpath
      · rfl

end

/-! ## 2. What all paths leave -/

/-- What reading paths comes to, if none of them holds a null character: those that can be read once
each, and those that cannot as often as they come. -/
def account (disk : Disk) (paths : List String) : Reading where
  sources := paths.eraseDups.filterMap (source? disk)
  failures := paths.filterMap (failure? disk)

theorem mem_sources_account {file : String × ByteArray} :
    file ∈ (account disk paths).sources ↔ file.1 ∈ paths ∧ disk.read file.1 = .ok file.2 := by
  simp only [account, List.mem_filterMap, List.mem_eraseDups, source?_eq_some_iff]
  constructor
  · rintro ⟨_, hmem, rfl, hread⟩
    exact ⟨hmem, hread⟩
  · rintro ⟨hmem, hread⟩
    exact ⟨_, hmem, rfl, hread⟩

theorem mem_failures_account {failure : String × AccessError} :
    failure ∈ (account disk paths).failures ↔
      failure.1 ∈ paths ∧ disk.read failure.1 = .error failure.2 := by
  simp only [account, List.mem_filterMap, failure?_eq_some_iff]
  constructor
  · rintro ⟨_, hmem, rfl, hread⟩
    exact ⟨hmem, hread⟩
  · rintro ⟨hmem, hread⟩
    exact ⟨_, hmem, rfl, hread⟩

/-- The files that were read are named by the paths that can be read, each once. -/
theorem paths_sources_account (disk : Disk) (paths : List String) :
    (account disk paths).sources.map (·.1) = paths.eraseDups.filter (isReadable disk) := by
  rw [account, map_fst_filterMap fun p x h => (source?_eq_some_iff.1 h).1]
  exact List.filter_congr fun _ _ => isSome_source?

/-- The failures are named by the paths that cannot be read, as often as they come. -/
theorem paths_failures_account (disk : Disk) (paths : List String) :
    (account disk paths).failures.map (·.1) = paths.filter (!isReadable disk ·) := by
  rw [account, map_fst_filterMap fun p x h => (failure?_eq_some_iff.1 h).1]
  exact List.filter_congr fun _ _ => isSome_failure?

theorem has_account :
    (account disk paths).has path = true ↔ path ∈ paths ∧ isReadable disk path = true := by
  rw [has, List.any_eq_true, isReadable_iff]
  constructor
  · rintro ⟨file, hfile, hpath⟩
    obtain rfl := of_decide_eq_true hpath
    obtain ⟨hmem, hread⟩ := mem_sources_account.1 hfile
    exact ⟨hmem, _, hread⟩
  · rintro ⟨hmem, content, hread⟩
    exact ⟨(path, content), mem_sources_account.2 ⟨hmem, hread⟩, decide_eq_true rfl⟩

theorem not_has_account {cause : AccessError} (h : disk.read path = .error cause) :
    ¬(account disk paths).has path = true := by
  intro hhas
  obtain ⟨content, hcontent⟩ := isReadable_iff.1 (has_account.1 hhas).2
  rw [h] at hcontent
  cases hcontent

/-- One path more adds what it leaves, but to the files only if it is new. -/
theorem account_concat (disk : Disk) (paths : List String) (path : String) :
    account disk (paths ++ [path]) =
      { sources := (account disk paths).sources ++
          if path ∈ paths then [] else (source? disk path).toList
        failures := (account disk paths).failures ++ (failure? disk path).toList } := by
  have hlast : ∀ {β : Type} (f : String → Option β), [path].filterMap f = (f path).toList := by
    intro β f
    cases hf : f path <;> simp [hf]
  rw [account, account, eraseDups_concat, List.filterMap_append, hlast]
  split
  · rw [List.append_nil]
  · rw [List.filterMap_append, hlast]

/-- One path more is passed over if it was read before, and else it is read or fails. -/
theorem readNext_account (hnull : Path.NullFree path) :
    readNext disk (account disk paths) path = .ok (account disk (paths ++ [path])) := by
  rw [account_concat]
  cases hread : disk.read path with
  | ok content =>
    have hreadable : isReadable disk path = true := isReadable_iff.2 ⟨content, hread⟩
    rw [source?, failure?, hread]
    -- A path that can be read was read where it came first, and then it is passed over.
    by_cases hmem : path ∈ paths
    · rw [readNext, if_pos (has_account.2 ⟨hmem, hreadable⟩), if_pos hmem]
      simp
    · rw [readNext, if_neg fun hhas => hmem (has_account.1 hhas).1, hread, if_neg hmem]
      simp
  | error cause =>
    have hcause : cause ≠ .embeddedNull := by
      rintro rfl
      exact Disk.read_eq_embeddedNull_iff.1 hread hnull
    rw [readNext, if_neg (not_has_account hread), source?, failure?, hread]
    cases cause with
    | embeddedNull => exact absurd rfl hcause
    | missing | notDirectory | isDirectory | nameTooLong | linkLoop => simp

/-- A path with a null character was not read before, and it cannot be read now. -/
theorem readNext_account_of_null (hnull : ¬Path.NullFree path) :
    readNext disk (account disk paths) path = .error .embeddedNull := by
  have hread : disk.read path = .error .embeddedNull := Disk.read_eq_embeddedNull_iff.2 hnull
  rw [readNext, if_neg (not_has_account hread), hread]

/-- Reading paths is reading all but the last, and then the last. -/
theorem ofPaths_concat (disk : Disk) (paths : List String) (path : String) :
    ofPaths disk (paths ++ [path]) =
      (ofPaths disk paths).bind fun reading => readNext disk reading path := by
  rw [ofPaths, readAll_append]
  refine congrArg (Except.bind _) (funext fun reading => ?_)
  rw [readAll]
  cases readNext disk reading path <;> rfl

/-- Paths are read and accounted for, unless one of them holds a null character. -/
theorem ofPaths_eq (disk : Disk) (paths : List String) :
    ofPaths disk paths =
      if ∀ path ∈ paths, Path.NullFree path then .ok (account disk paths)
      else .error .embeddedNull := by
  -- The induction is from the end, since what a path leaves hangs on all paths before it.
  induction paths using List.reverseRecOn with
  | nil => rfl
  | append_singleton paths path ih =>
    have hall : (∀ p ∈ paths ++ [path], Path.NullFree p) ↔
        (∀ p ∈ paths, Path.NullFree p) ∧ Path.NullFree path := by
      rw [List.forall_mem_append, List.forall_mem_singleton]
    rw [ofPaths_concat, ih]
    by_cases hpaths : ∀ p ∈ paths, Path.NullFree p
    · rw [if_pos hpaths, Except.bind]
      by_cases hpath : Path.NullFree path
      · rw [if_pos (hall.2 ⟨hpaths, hpath⟩), readNext_account hpath]
      · rw [if_neg fun h => hpath (hall.1 h).2, readNext_account_of_null hpath]
    · rw [if_neg hpaths, if_neg fun h => hpaths (hall.1 h).1]
      rfl

/-- Paths without repetitions give the files of those that can be read. -/
theorem paths_of_ofPaths {reading : Reading} (hnodup : paths.Nodup)
    (h : ofPaths disk paths = .ok reading) :
    reading.sources.map (·.1) = paths.filter (isReadable disk) := by
  rw [ofPaths_eq] at h
  split at h
  · obtain rfl := Except.ok.inj h
    rw [paths_sources_account, eraseDups_of_nodup hnodup]
  · cases h

/-- Paths without repetitions that can all be read give their files, and nothing fails. -/
theorem exists_ofPaths_of_readable (hnodup : paths.Nodup)
    (hread : ∀ path ∈ paths, ∃ content, disk.read path = .ok content) :
    ∃ sources : Sources, ofPaths disk paths = .ok { sources } ∧
      sources.map (·.1) = paths ∧ ∀ file ∈ sources, disk.read file.1 = .ok file.2 := by
  have hnull : ∀ path ∈ paths, Path.NullFree path := by
    intro path hpath
    obtain ⟨content, hcontent⟩ := hread path hpath
    by_contra hnull
    rw [Disk.read_eq_embeddedNull_iff.2 hnull] at hcontent
    cases hcontent
  have hnone : (account disk paths).failures = [] := by
    rw [List.eq_nil_iff_forall_not_mem]
    intro failure hfailure
    obtain ⟨hmem, hcause⟩ := mem_failures_account.1 hfailure
    obtain ⟨content, hcontent⟩ := hread _ hmem
    rw [hcause] at hcontent
    cases hcontent
  refine ⟨(account disk paths).sources, ?_, ?_, fun file hfile => (mem_sources_account.1 hfile).2⟩
  · rw [ofPaths_eq, if_pos hnull, ← hnone]
  · rw [paths_sources_account, eraseDups_of_nodup hnodup, List.filter_eq_self]
    exact fun path hpath => isReadable_iff.2 (hread path hpath)

/-! ## 3. Each path once

The files come out as they should whatever the paths are: no file is read twice, and none is kept
from being read by another one. Of the failures this is so only as long as no path fails twice. -/

/-- Do the files and failures tell what becomes of the paths? A path that can be read stands among
the files with its contents, and one that cannot among the failures with the cause; nothing else
stands there. The files are in the order in which their paths first come. Since this order is
strict, no file stands there twice. -/
structure IsAccount (disk : Disk) (paths : List String) (reading : Reading) : Prop where
  mem_sources : ∀ file, file ∈ reading.sources ↔ file.1 ∈ paths ∧ disk.read file.1 = .ok file.2
  mem_failures : ∀ failure, failure ∈ reading.failures ↔
    failure.1 ∈ paths ∧ disk.read failure.1 = .error failure.2
  sources_ordered :
    (reading.sources.map (·.1)).Pairwise fun a b => paths.idxOf a < paths.idxOf b

/-- Are the failures in the order in which their paths first come as well, and so each path there
once? -/
def FailsOnce (paths : List String) (reading : Reading) : Prop :=
  (reading.failures.map (·.1)).Pairwise fun a b => paths.idxOf a < paths.idxOf b

/-- What is left without the traces of a path. -/
def without (reading : Reading) (path : String) : Reading where
  sources := reading.sources.filter (·.1 ≠ path)
  failures := reading.failures.filter (·.1 ≠ path)

/-- What was read and what failed, with more of both after it. -/
def append (reading more : Reading) : Reading where
  sources := reading.sources ++ more.sources
  failures := reading.failures ++ more.failures

theorem isAccount_account (disk : Disk) (paths : List String) :
    IsAccount disk paths (account disk paths) where
  mem_sources _ := mem_sources_account
  mem_failures _ := mem_failures_account
  sources_ordered := by
    rw [paths_sources_account]
    exact (isFirstsOf_eraseDups paths).ordered.filter _

/-- A path fails once if it comes once. -/
theorem failsOnce_account_iff :
    FailsOnce paths (account disk paths) ↔ (paths.filter (!isReadable disk ·)).Nodup := by
  rw [FailsOnce, paths_failures_account]
  constructor
  · intro hordered
    refine hordered.imp ?_
    rintro a b hlt rfl
    exact Nat.lt_irrefl _ hlt
  · intro hnodup
    rw [← eraseDups_of_nodup hnodup, ← filter_eraseDups]
    exact (isFirstsOf_eraseDups paths).ordered.filter _

/-- A path that is left out takes its own traces away and no others. -/
theorem account_filter_ne (disk : Disk) (paths : List String) (path : String) :
    account disk (paths.filter (· ≠ path)) = (account disk paths).without path := by
  rw [account, account, without, ← filter_eraseDups,
    filterMap_filter fun p x h => (source?_eq_some_iff.1 h).1,
    filterMap_filter fun p x h => (failure?_eq_some_iff.1 h).1]

/-- Of more paths those that are new are read, and all that cannot be read fail. -/
theorem account_append (disk : Disk) (paths more : List String) :
    account disk (paths ++ more) =
      { sources := (account disk paths).sources ++
          (account disk (more.filter (· ∉ paths))).sources
        failures := (account disk paths).failures ++ (account disk more).failures } := by
  have hnew : more.removeAll paths = more.filter (· ∉ paths) := by
    rw [List.removeAll]
    exact List.filter_congr fun p _ => by simp
  simp only [account, List.eraseDups_append, List.filterMap_append, hnew]

/-- More paths add what the new ones among them come to alone, if none of them fails again. -/
theorem account_append_eq_append_iff {more : List String} :
    account disk (paths ++ more) =
        (account disk paths).append (account disk (more.filter (· ∉ paths))) ↔
      ∀ path ∈ more, path ∈ paths → isReadable disk path = true := by
  rw [account_append, append, Reading.mk.injEq, and_iff_right rfl, List.append_cancel_left_eq]
  constructor
  · intro hsame path hmore hpath
    by_contra hnot
    have hpaths := congrArg (List.map (·.1)) hsame
    rw [paths_failures_account, paths_failures_account] at hpaths
    have hfails : path ∈ more.filter (!isReadable disk ·) :=
      List.mem_filter.2 ⟨hmore, by simpa using hnot⟩
    rw [hpaths, List.mem_filter, List.mem_filter] at hfails
    exact absurd hpath (by simpa using hfails.1.2)
  · intro hold
    rw [account, account, filterMap_filter fun p x h => (failure?_eq_some_iff.1 h).1, eq_comm,
      List.filter_eq_self]
    intro failure hfailure
    obtain ⟨path, hmore, htrace⟩ := List.mem_filterMap.1 hfailure
    obtain ⟨rfl, hread⟩ := failure?_eq_some_iff.1 htrace
    have hnew : failure.1 ∉ paths := fun hpath => by
      obtain ⟨content, hcontent⟩ := isReadable_iff.1 (hold _ hmore hpath)
      rw [hread] at hcontent
      cases hcontent
    simpa using hnew

/-- Each path is accounted for exactly once when none holds a null character and none that cannot be
read comes again. A null character ends the reading. In all other cases the files are right, and
each path has failed as often as it came; a path that is left out takes nothing but its own traces
away; and more paths add what the new ones among them come to alone, as far as none of the others
fails again. -/
theorem ofPaths_accounts_iff (disk : Disk) (paths : List String) :
    ((∃ reading, ofPaths disk paths = .ok reading ∧ IsAccount disk paths reading ∧
        FailsOnce paths reading) ↔
      (∀ path ∈ paths, Path.NullFree path) ∧ (paths.filter (!isReadable disk ·)).Nodup) ∧
    (∀ fault, ofPaths disk paths = .error fault ↔
      fault = .embeddedNull ∧ ∃ path ∈ paths, ¬Path.NullFree path) ∧
    ∀ reading, ofPaths disk paths = .ok reading →
      IsAccount disk paths reading ∧
      reading.failures.map (·.1) = paths.filter (!isReadable disk ·) ∧
      (∀ path, ofPaths disk (paths.filter (· ≠ path)) = .ok (reading.without path)) ∧
      ∀ more, (∀ path ∈ more, Path.NullFree path) → ∃ new later,
        ofPaths disk (more.filter (· ∉ paths)) = .ok new ∧
        ofPaths disk (paths ++ more) = .ok later ∧
        later.sources = reading.sources ++ new.sources ∧
        (later = reading.append new ↔
          ∀ path ∈ more, path ∈ paths → isReadable disk path = true) := by
  rw [ofPaths_eq]
  by_cases hpaths : ∀ path ∈ paths, Path.NullFree path
  · rw [if_pos hpaths]
    have hnone : ¬∃ path ∈ paths, ¬Path.NullFree path := by simpa using hpaths
    refine ⟨?_, fun fault => ?_, fun reading hreading => ?_⟩
    · constructor
      · rintro ⟨reading, hreading, -, honce⟩
        obtain rfl := Except.ok.inj hreading
        exact ⟨hpaths, failsOnce_account_iff.1 honce⟩
      · rintro ⟨-, hnodup⟩
        exact ⟨_, rfl, isAccount_account disk paths, failsOnce_account_iff.2 hnodup⟩
    · constructor
      · intro herror
        cases herror
      · exact fun h => absurd h.2 hnone
    · obtain rfl := Except.ok.inj hreading
      have hread : ∀ {others : List String}, (∀ path ∈ others, Path.NullFree path) →
          ofPaths disk others = .ok (account disk others) := by
        intro others hothers
        rw [ofPaths_eq, if_pos hothers]
      refine ⟨isAccount_account disk paths, paths_failures_account disk paths, fun path => ?_,
        fun more hmore => ?_⟩
      · rw [← account_filter_ne]
        exact hread fun p hp => hpaths p (List.mem_of_mem_filter hp)
      · refine ⟨_, _, hread fun p hp => hmore p (List.mem_of_mem_filter hp),
          hread (List.forall_mem_append.2 ⟨hpaths, hmore⟩), ?_, account_append_eq_append_iff⟩
        rw [account_append]
  · rw [if_neg hpaths]
    have hsome : ∃ path ∈ paths, ¬Path.NullFree path := by simpa using hpaths
    refine ⟨?_, fun fault => ?_, fun reading hreading => nomatch hreading⟩
    · constructor
      · rintro ⟨reading, hreading, -⟩
        cases hreading
      · exact fun h => absurd h.1 hpaths
    · constructor
      · exact fun h => ⟨(Except.error.inj h).symm, hsome⟩
      · exact fun h => congrArg Except.error h.1.symm

/-- A disk on which there is nothing. -/
def bare : Disk := ⟨.emptyDirectory, []⟩

/-- A missing file whose path comes twice is reported twice. -/
theorem gone_accounted_twice :
    ofPaths bare ["gone.py", "gone.py"] =
        .ok { failures := [("gone.py", .missing), ("gone.py", .missing)] } ∧
      ¬∃ reading, ofPaths bare ["gone.py", "gone.py"] = .ok reading ∧
        IsAccount bare ["gone.py", "gone.py"] reading ∧
        FailsOnce ["gone.py", "gone.py"] reading := by
  have hread : bare.read "gone.py" = .error .missing := by
    have hnode : bare.node "gone.py" = .error .missing :=
      Disk.node_of_spellsOut_of_find?_eq_none rfl
        (show Disk.SpellsOut _ ([] ++ "gone.py" :: []) by decide) rfl rfl
    rw [Disk.read, show Path.tidy "gone.py" = "gone.py" by decide, hnode]
  have hboth : ofPaths bare ["gone.py", "gone.py"] =
      .ok { failures := [("gone.py", .missing), ("gone.py", .missing)] } := by
    simp [ofPaths, readAll, readNext, has, hread]
  refine ⟨hboth, ?_⟩
  rintro ⟨reading, hreading, -, honce⟩
  obtain rfl := Except.ok.inj (hboth.symm.trans hreading)
  exact absurd honce (by simp [FailsOnce])

end LintFront.Reading
