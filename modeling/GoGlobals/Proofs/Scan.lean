import GoGlobals.Proofs.Walk
import GoGlobals.Scan

/-!
# A scan stops at the first failure

A scan is defined in two stages: a walk that collects what it meets, and a pass over what was met.
It has to behave as if there were only one, in which directories are listed and files are checked as
they come up, and nothing is done after a failure.

That single stage is `ScanRun`: a list of steps to do, of which the first is performed.  Listing a
directory puts the steps for its entries, in the order of their names, in front of all others, which
makes the run go depth first.  A failing step ends the run.  `performs_walk` says that a walk with
the pass over it is a run, and what is wanted of scans is read off runs: all results or the error of
the first failing step, and no influence of anything behind it (`scan_stops_at_first_failure`).
-/

set_option autoImplicit false

namespace GoGlobals

/-! ## Steps -/

/-- A step of a scan. -/
inductive ScanStep where
  /-- Finds out what is at the root. -/
  | find
  | list (directory : String)
  | check (path : String)
deriving DecidableEq, Repr

/-- A file that was checked, and what was found in it. -/
abbrev CheckedFile := String × List Diagnostic

/-- The steps for the entries of a directory. -/
def stepsOf (s : Selection) (root directory : String) (entries : Entries) : List ScanStep :=
  entries.flatMap fun (name, entry) =>
    let path := entryPath directory name
    if entry.isDirectory then if s.enters root path then [.list path] else []
    else if s.selects path then [.check path] else []

/-- Performs a step.  It fails, or it gives steps that have to be done next and a file that was
checked. -/
def ScanStep.perform (fs : FileSystem) (s : Selection) (root : String) :
    ScanStep → Except ScanError (List ScanStep × List CheckedFile)
  | find =>
    if fs.isDirectory root then .ok ([.list root], [])
    else if !fs.pathExists root then .error (.walk (.noRoot root))
    else .ok (if s.selects root then [.check root] else [], [])
  | list directory =>
    match fs.list directory with
    | .error fault => .error (.walk (.unlisted fault directory))
    | .ok entries => .ok (stepsOf s root directory entries.sorted, [])
  | check path =>
    match (checkFile fs path).value with
    | .error e => .error e
    | .ok found => .ok ([], [(path, found)])

/-- The file that a step checks. -/
def ScanStep.path? : ScanStep → Option String
  | find => none
  | list _ => none
  | check path => some path

/-- A step that succeeds gives the file that it checks, with what is found in it. -/
theorem ScanStep.perform_checked {fs : FileSystem} {s : Selection} {root : String}
    {step : ScanStep} {new : List ScanStep} {checked : List CheckedFile}
    (h : step.perform fs s root = .ok (new, checked)) :
    checked.map (·.1) = step.path?.toList ∧
      ∀ c ∈ checked, (checkFile fs c.1).value = .ok c.2 := by
  have hnone : checked = [] → step.path? = none → checked.map (·.1) = step.path?.toList ∧
      ∀ c ∈ checked, (checkFile fs c.1).value = .ok c.2 := by
    rintro rfl hpath
    rw [hpath]
    exact ⟨rfl, fun _ hc => absurd hc List.not_mem_nil⟩
  cases step with
  | find =>
    rw [perform] at h
    split at h
    · exact hnone (Prod.mk.inj (Except.ok.inj h)).2.symm rfl
    split at h
    · exact absurd h (by simp)
    · exact hnone (Prod.mk.inj (Except.ok.inj h)).2.symm rfl
  | list directory =>
    rw [perform] at h
    split at h
    · exact absurd h (by simp)
    · exact hnone (Prod.mk.inj (Except.ok.inj h)).2.symm rfl
  | check path =>
    rw [perform] at h
    split at h
    · exact absurd h (by simp)
    · rename_i found hfound
      obtain ⟨-, rfl⟩ := Prod.mk.inj (Except.ok.inj h)
      refine ⟨rfl, fun c hc => ?_⟩
      obtain rfl := List.mem_singleton.1 hc
      exact hfound

/-- Performs steps one after the other until one fails: what is to be done, what was done, and the
outcome. -/
inductive ScanRun (fs : FileSystem) (s : Selection) (root : String) :
    List ScanStep → List ScanStep → Except ScanError (List CheckedFile) → Prop
  | done : ScanRun fs s root [] [] (.ok [])
  | failed {step : ScanStep} {rest : List ScanStep} {e : ScanError}
      (h : step.perform fs s root = .error e) : ScanRun fs s root (step :: rest) [step] (.error e)
  | next {step : ScanStep} {rest new done : List ScanStep} {checked : List CheckedFile}
      {outcome : Except ScanError (List CheckedFile)}
      (h : step.perform fs s root = .ok (new, checked))
      (hrest : ScanRun fs s root (new ++ rest) done outcome) :
      ScanRun fs s root (step :: rest) (step :: done) (outcome.map (checked ++ ·))

namespace ScanRun

variable {fs : FileSystem} {s : Selection} {root : String} {todo done : List ScanStep}
  {outcome : Except ScanError (List CheckedFile)}

/-- A run is determined by what is to be done. -/
theorem unique (h : ScanRun fs s root todo done outcome) {done' : List ScanStep}
    {outcome' : Except ScanError (List CheckedFile)} (h' : ScanRun fs s root todo done' outcome') :
    done = done' ∧ outcome = outcome' := by
  induction h generalizing done' outcome' with
  | done =>
    cases h'
    exact ⟨rfl, rfl⟩
  | failed h =>
    cases h' with
    | failed h' =>
      obtain rfl := Except.error.inj (h.symm.trans h')
      exact ⟨rfl, rfl⟩
    | next h' _ => exact absurd (h.symm.trans h') (by simp)
  | next h _ ih =>
    cases h' with
    | failed h' => exact absurd (h.symm.trans h') (by simp)
    | next h' hrest' =>
      obtain ⟨rfl, rfl⟩ := Prod.mk.inj (Except.ok.inj (h.symm.trans h'))
      obtain ⟨rfl, rfl⟩ := ih hrest'
      exact ⟨rfl, rfl⟩

/-- A run depends only on the steps that are done in it. -/
theorem congr (h : ScanRun fs s root todo done outcome) {fs' : FileSystem}
    (hfs : ∀ step ∈ done, step.perform fs' s root = step.perform fs s root) :
    ScanRun fs' s root todo done outcome := by
  induction h with
  | done => exact .done
  | failed h => exact .failed ((hfs _ List.mem_cons_self).trans h)
  | next h _ ih =>
    exact .next ((hfs _ List.mem_cons_self).trans h)
      (ih fun step hstep => hfs step (List.mem_cons_of_mem _ hstep))

/-- A run that ends well has performed all its steps, and its files are those it has checked. -/
theorem of_ok {checked : List CheckedFile} (h : ScanRun fs s root todo done (.ok checked)) :
    (∀ step ∈ done, (step.perform fs s root).isOk = true) ∧
      checked.map (·.1) = done.filterMap ScanStep.path? ∧
      ∀ c ∈ checked, (checkFile fs c.1).value = .ok c.2 := by
  generalize hout : (Except.ok checked : Except ScanError (List CheckedFile)) = out at h
  induction h generalizing checked with
  | done =>
    obtain rfl := Except.ok.inj hout
    exact ⟨fun _ hs => absurd hs List.not_mem_nil, rfl, fun _ hc => absurd hc List.not_mem_nil⟩
  | failed h => exact absurd hout (by simp)
  | @next step rest new done first outcome h _ ih =>
    cases outcome with
    | error e => exact absurd hout (by simp [Except.map])
    | ok others =>
      obtain rfl : checked = first ++ others := Except.ok.inj hout
      obtain ⟨hdone, hpaths, hfound⟩ := ih rfl
      obtain ⟨hpath, hfirst⟩ := ScanStep.perform_checked h
      refine ⟨fun t ht => ?_, ?_, fun c hc => ?_⟩
      · rcases List.mem_cons.1 ht with rfl | ht
        · rw [h]; rfl
        · exact hdone t ht
      · rw [List.map_append, hpath, hpaths]
        cases hstep : step.path? with
        | none => rw [List.filterMap_cons_none hstep]; rfl
        | some path => rw [List.filterMap_cons_some hstep]; rfl
      · rcases List.mem_append.1 hc with hc | hc
        · exact hfirst c hc
        · exact hfound c hc

/-- A run that fails has failed at its last step. -/
theorem of_error {e : ScanError} (h : ScanRun fs s root todo done (.error e)) :
    ∃ before last, done = before ++ [last] ∧
      (∀ step ∈ before, (step.perform fs s root).isOk = true) ∧
      last.perform fs s root = .error e := by
  generalize hout : (Except.error e : Except ScanError (List CheckedFile)) = out at h
  induction h with
  | done => exact absurd hout (by simp)
  | failed h =>
    obtain rfl := Except.error.inj hout
    exact ⟨[], _, rfl, fun _ hs => absurd hs List.not_mem_nil, h⟩
  | @next step rest new done checked outcome h _ ih =>
    have houtcome : Except.error e = outcome := by
      cases outcome with
      | error e' => exact congrArg Except.error (Except.error.inj hout)
      | ok c => exact absurd hout (by simp [Except.map])
    obtain ⟨before, last, rfl, hbefore, hlast⟩ := ih houtcome
    refine ⟨step :: before, last, rfl, fun t ht => ?_, hlast⟩
    rcases List.mem_cons.1 ht with rfl | ht
    · rw [h]; rfl
    · exact hbefore t ht

end ScanRun

/-! ## The outcome of a walk -/

/-- Checks what a walk met, from the first visit on; at the end the walk's own error counts. -/
def visitsOutcome (fs : FileSystem) (error : Option WalkError) :
    List Visit → Except ScanError (List CheckedFile)
  | [] =>
    match error with
    | some e => .error (.walk e)
    | none => .ok []
  | .passedBy _ :: rest => visitsOutcome fs error rest
  | .file path :: rest =>
    match (checkFile fs path).value with
    | .error e => .error e
    | .ok found => (visitsOutcome fs error rest).map ((path, found) :: ·)

/-- Checks what a walk met. -/
def Walk.outcome (fs : FileSystem) (w : Walk) : Except ScanError (List CheckedFile) :=
  visitsOutcome fs w.error w.visits

/-- The result of a scan with these files. -/
def ScanResult.ofChecked (checked : List CheckedFile) : ScanResult :=
  ⟨checked.length, checked.flatMap (·.2)⟩

theorem scanVisits_value (fs : FileSystem) (error : Option WalkError) (visits : List Visit)
    (result : ScanResult) :
    (scanVisits fs error visits result).value =
      (visitsOutcome fs error visits).map fun checked =>
        ⟨result.files + checked.length, result.diagnostics ++ checked.flatMap (·.2)⟩ := by
  induction visits generalizing result with
  | nil =>
    cases error with
    | some e => rfl
    | none => simp [scanVisits, visitsOutcome, pure, Except.map]
  | cons visit rest ih =>
    cases visit with
    | passedBy path => exact ih result
    | file path =>
      rw [scanVisits, visitsOutcome]
      cases hcheck : (checkFile fs path).value with
      | error e => rfl
      | ok found =>
        simp only [Logged.after, ih]
        cases visitsOutcome fs error rest with
        | error e => rfl
        | ok checked =>
          simp [Except.map, Nat.add_assoc, Nat.add_comm 1]

theorem scan_value (fs : FileSystem) (endings : Path.Endings) (path : String)
    (includeTests : Bool) :
    (scan fs endings path includeTests).value =
      ((walk fs (selectionOf path endings includeTests).2
        (selectionOf path endings includeTests).1).outcome fs).map ScanResult.ofChecked := by
  have hvalue := scanVisits_value fs
    (walk fs (selectionOf path endings includeTests).2
      (selectionOf path endings includeTests).1).error
    (walk fs (selectionOf path endings includeTests).2
      (selectionOf path endings includeTests).1).visits {}
  rw [scan]
  simp only [bind, Logged.after, hvalue, Walk.outcome]
  cases visitsOutcome fs _ _ with
  | error e => rfl
  | ok checked => simp [Except.map, ScanResult.ofChecked]

section

variable {fs : FileSystem} {endings : Path.Endings} {path root : String} {includeTests : Bool}
  {s : Selection}

/-- A scan succeeds if its walk does, with the files that are checked in it. -/
theorem scan_eq_ok_iff (hselection : selectionOf path endings includeTests = (root, s))
    {result : ScanResult} :
    (scan fs endings path includeTests).value = .ok result ↔
      ∃ checked, (walk fs s root).outcome fs = .ok checked ∧ .ofChecked checked = result := by
  rw [scan_value, hselection]
  cases (walk fs s root).outcome fs with
  | error e => simp [Except.map]
  | ok checked => simp [Except.map]

/-- A scan fails if its walk does, with the same error. -/
theorem scan_eq_error_iff (hselection : selectionOf path endings includeTests = (root, s))
    {e : ScanError} :
    (scan fs endings path includeTests).value = .error e ↔
      (walk fs s root).outcome fs = .error e := by
  rw [scan_value, hselection]
  cases (walk fs s root).outcome fs with
  | error e => simp [Except.map]
  | ok checked => simp [Except.map]

end

/-! ## Walks are runs -/

/-- Doing these steps has the outcome of the walk. -/
def Performs (fs : FileSystem) (s : Selection) (root : String) (todo : List ScanStep)
    (w : Walk) : Prop :=
  ∃ done, ScanRun fs s root todo done (w.outcome fs)

section

variable {fs : FileSystem} {s : Selection} {root : String}

theorem performs_nil : Performs fs s root [] {} :=
  ⟨[], .done⟩

/-- Checking a file is meeting it. -/
theorem Performs.check {todo : List ScanStep} {w : Walk} (h : Performs fs s root todo w)
    (path : String) : Performs fs s root (.check path :: todo) (w.cons (.file path)) := by
  obtain ⟨done, hrun⟩ := h
  cases hcheck : (checkFile fs path).value with
  | error e =>
    have houtcome : (w.cons (.file path)).outcome fs = .error e := by
      rw [Walk.outcome, Walk.cons, visitsOutcome, hcheck]
    have hperform : (ScanStep.check path).perform fs s root = .error e := by
      rw [ScanStep.perform, hcheck]
    exact ⟨[.check path], houtcome ▸ .failed hperform⟩
  | ok found =>
    have houtcome : (w.cons (.file path)).outcome fs =
        (w.outcome fs).map ([(path, found)] ++ ·) := by
      rw [Walk.outcome, Walk.cons, visitsOutcome, hcheck]
      rfl
    have hperform : (ScanStep.check path).perform fs s root = .ok ([], [(path, found)]) := by
      rw [ScanStep.perform, hcheck]
    exact ⟨.check path :: done, houtcome ▸ .next hperform hrun⟩

/-- A directory that cannot be listed ends the walk. -/
theorem performs_unlisted {directory : String} {fault : PathFault}
    (h : fs.list directory = .error fault) (todo : List ScanStep) :
    Performs fs s root (.list directory :: todo)
      { error := some (.unlisted fault directory) } := by
  refine ⟨[.list directory], .failed ?_⟩
  rw [ScanStep.perform, h]

/-- Listing a directory is going through its entries. -/
theorem Performs.list {directory : String} {entries : Entries} {todo : List ScanStep} {w : Walk}
    (hlist : fs.list directory = .ok entries)
    (h : Performs fs s root (stepsOf s root directory entries.sorted ++ todo) w) :
    Performs fs s root (.list directory :: todo) w := by
  obtain ⟨done, hrun⟩ := h
  have hperform : (ScanStep.list directory).perform fs s root =
      .ok (stepsOf s root directory entries.sorted, []) := by
    rw [ScanStep.perform, hlist]
  have hmap : w.outcome fs = (w.outcome fs).map ([] ++ ·) := by
    cases w.outcome fs with
    | error e => rfl
    | ok checked => rfl
  exact ⟨.list directory :: done, hmap ▸ .next hperform hrun⟩

theorem performs_entries {enter : String → Walk} {directory : String} {entries : Entries}
    (henter : ∀ e ∈ entries, ∀ {todo w}, Performs fs s root todo w →
      Performs fs s root (.list (entryPath directory e.1) :: todo)
        ((enter (entryPath directory e.1)).append w))
    {todo : List ScanStep} {w : Walk} (h : Performs fs s root todo w) :
    Performs fs s root (stepsOf s root directory entries ++ todo)
      ((walkEntries s root enter directory entries).append w) := by
  induction entries with
  | nil => exact h
  | cons e rest ih =>
    obtain ⟨name, entry⟩ := e
    have hrest := ih fun e he => henter e (List.mem_cons_of_mem _ he)
    rw [stepsOf, List.flatMap_cons, ← stepsOf, List.append_assoc, walkEntries]
    simp only []
    split
    · split
      · -- a directory that is entered comes before the rest of the entries
        rw [Walk.append_assoc]
        exact henter (name, entry) List.mem_cons_self hrest
      · rw [Walk.cons_append]
        exact hrest
    · split
      · rw [Walk.cons_append]
        exact hrest.check _
      · exact hrest

/-- Walking a directory is listing it and doing what that asks for. -/
theorem performs_directory (hfs : fs.Valid) (levels : Nat) :
    ∀ {directory : String} {todo : List ScanStep} {w : Walk}, Deep levels directory →
      Performs fs s root todo w →
      Performs fs s root (.list directory :: todo)
        ((walkDirectory fs s root levels directory).append w) := by
  induction levels with
  | zero =>
    intro directory todo w hdeep _
    exact performs_unlisted (list_of_deep hdeep fs) todo
  | succ levels ih =>
    intro directory todo w hdeep h
    rw [walkDirectory]
    split
    · rename_i fault hlist
      exact performs_unlisted hlist todo
    · rename_i entries hlist
      refine Performs.list hlist (performs_entries (fun e he {_ _} hrest => ?_) h)
      have hmem : e ∈ entries := List.mem_mergeSort.1 he
      exact ih (hdeep.entry ((FileSystem.list_valid hfs hlist).proper e hmem)) hrest

end

/-- **A walk is a run** from finding out what is at the root. -/
theorem performs_walk {fs : FileSystem} (hfs : fs.Valid) (s : Selection) (root : String) :
    Performs fs s root [.find] (walk fs s root) := by
  have hfind : ∀ {new : List ScanStep} {w : Walk},
      ScanStep.find.perform fs s root = .ok (new, []) → Performs fs s root new w →
      Performs fs s root [.find] w := by
    rintro new w hperform ⟨done, hrun⟩
    have hmap : w.outcome fs = (w.outcome fs).map ([] ++ ·) := by
      cases w.outcome fs with
      | error e => rfl
      | ok checked => rfl
    exact ⟨.find :: done, hmap ▸ .next hperform (by rwa [List.append_nil])⟩
  rw [walk]
  split
  · rename_i hdirectory
    have hperform : ScanStep.find.perform fs s root = .ok ([.list root], []) := by
      rw [ScanStep.perform, if_pos hdirectory]
    refine hfind hperform ?_
    rw [← Walk.append_nil (walkDirectory fs s root pathBytesLimit root)]
    exact performs_directory hfs pathBytesLimit (deep_root hdirectory) performs_nil
  rename_i hdirectory
  split
  · rename_i hmissing
    refine ⟨[.find], .failed ?_⟩
    rw [ScanStep.perform, if_neg hdirectory, if_pos hmissing]
  · rename_i hexists
    refine hfind (by rw [ScanStep.perform, if_neg hdirectory, if_neg hexists]) ?_
    split
    · exact performs_nil.check root
    · exact performs_nil

/-! ## Scans -/

/-- **What is found in the end**: every file of a walk that ends well, with what is found in it. -/
theorem Walk.outcome_eq_ok_iff {fs : FileSystem} {w : Walk} {checked : List CheckedFile} :
    w.outcome fs = .ok checked ↔ w.error = none ∧ checked.map (·.1) = w.files ∧
      ∀ c ∈ checked, (checkFile fs c.1).value = .ok c.2 := by
  obtain ⟨visits, error⟩ := w
  rw [Walk.outcome]
  simp only []
  induction visits generalizing checked with
  | nil =>
    cases error with
    | some e => simp [visitsOutcome]
    | none =>
      simp only [visitsOutcome, Except.ok.injEq, Walk.files, List.filterMap_nil,
        List.map_eq_nil_iff, true_and]
      constructor
      · rintro rfl
        exact ⟨rfl, fun c hc => absurd hc List.not_mem_nil⟩
      · exact fun h => h.1.symm
  | cons visit rest ih =>
    cases visit with
    | passedBy path => exact ih
    | file path =>
      have hvisit : Walk.files ⟨.file path :: rest, error⟩ = path :: Walk.files ⟨rest, error⟩ := rfl
      rw [visitsOutcome, hvisit]
      constructor
      · intro h
        split at h
        · exact absurd h (by simp)
        rename_i found hfound
        cases hrest : visitsOutcome fs error rest with
        | error e =>
          rw [hrest] at h
          exact absurd h (by simp [Except.map])
        | ok others =>
          rw [hrest] at h
          obtain rfl : (path, found) :: others = checked := Except.ok.inj h
          obtain ⟨herror, hfiles, hothers⟩ := ih.1 hrest
          exact ⟨herror, by rw [List.map_cons, hfiles], List.forall_mem_cons.2 ⟨hfound, hothers⟩⟩
      · rintro ⟨herror, hfiles, hchecked⟩
        obtain ⟨⟨path', found⟩, others, rfl, rfl, hothers⟩ := List.map_eq_cons_iff.1 hfiles
        obtain ⟨hfound, hchecked⟩ := List.forall_mem_cons.1 hchecked
        rw [hfound, ih.2 ⟨herror, hothers, hchecked⟩]
        rfl

theorem Walk.files_of_outcome {fs : FileSystem} {w : Walk} {checked : List CheckedFile}
    (h : w.outcome fs = .ok checked) : checked.map (·.1) = w.files :=
  (Walk.outcome_eq_ok_iff.1 h).2.1

/-- A file that is refused is named in the error. -/
theorem checkFile_refused {fs : FileSystem} {path : String} {e : ParseError}
    (h : (checkFile fs path).value = .error (.refused e)) : e.file = path := by
  rw [checkFile] at h
  cases hread : fs.read path with
  | error fault =>
    rw [hread] at h
    exact absurd (Except.error.inj h) (by simp)
  | ok source =>
    rw [hread] at h
    cases hsource : SourceFile.read source path with
    | error refusal =>
      have hvalue : readSource source path =
          ⟨refusal.records path, .error (.refused (refusal.error path))⟩ := by
        delta readSource
        rw [hsource]
      simp only [hvalue, bind, pure, Logged.after] at h
      obtain rfl := ScanError.refused.inj (Except.error.inj h)
      rfl
    | ok file =>
      have hvalue : readSource source path = ⟨[], .ok file⟩ := by
        delta readSource
        rw [hsource]
      simp only [hvalue, bind, Logged.after, checkDeclarations] at h
      cases hcheck : check file with
      | error e' =>
        rw [hcheck] at h
        exact absurd (Except.error.inj h) (by simp)
      | ok ds =>
        rw [hcheck] at h
        exact absurd h (by simp [Except.mapError])

theorem ScanStep.perform_refused {fs : FileSystem} {s : Selection} {root : String}
    {step : ScanStep} {e : ParseError} (h : step.perform fs s root = .error (.refused e)) :
    step = .check e.file := by
  cases step with
  | find =>
    rw [perform] at h
    split at h
    · exact absurd h (by simp)
    split at h
    · exact absurd (Except.error.inj h) (by simp)
    · exact absurd h (by simp)
  | list directory =>
    rw [perform] at h
    split at h
    · exact absurd (Except.error.inj h) (by simp)
    · exact absurd h (by simp)
  | check path =>
    rw [perform] at h
    split at h
    · rename_i e' hcheck
      rw [Except.error.inj h] at hcheck
      rw [checkFile_refused hcheck]
    · exact absurd h (by simp)

/-- A scan did these steps, in this order, and gave what came of them. -/
structure Scanned (fs : FileSystem) (s : Selection) (root : String) (done : List ScanStep)
    (result : Except ScanError ScanResult) : Prop where
  /-- The steps were performed one after the other, each when it came up. -/
  run : ∃ outcome, ScanRun fs s root [.find] done outcome ∧
    result = outcome.map ScanResult.ofChecked
  /-- If there is a result, every step succeeded, and the result puts together what was found in
  the files of the walk, in its order. -/
  all : ∀ r, result = .ok r →
    (∀ step ∈ done, (step.perform fs s root).isOk = true) ∧
      (walk fs s root).files = done.filterMap ScanStep.path? ∧
      ∃ found : List (List Diagnostic),
        (walk fs s root).files.map (fun path => (checkFile fs path).value) = found.map .ok ∧
        r = ⟨(walk fs s root).files.length, found.flatten⟩
  /-- If there is an error, it is that of the last step, and every step before succeeded.  The error
  about a refused file names the file that the step checked. -/
  first : ∀ e, result = .error e →
    ∃ before last, done = before ++ [last] ∧
      (∀ step ∈ before, (step.perform fs s root).isOk = true) ∧
      last.perform fs s root = .error e ∧
      ∀ refused, e = .refused refused → last = .check refused.file

theorem scanned_of_run {fs : FileSystem} {s : Selection} {root : String} {done : List ScanStep}
    (h : ScanRun fs s root [.find] done ((walk fs s root).outcome fs)) :
    Scanned fs s root done (((walk fs s root).outcome fs).map ScanResult.ofChecked) := by
  refine ⟨⟨_, h, rfl⟩, fun r hr => ?_, fun e he => ?_⟩
  · cases houtcome : (walk fs s root).outcome fs with
    | error e =>
      rw [houtcome] at hr
      exact absurd hr (by simp [Except.map])
    | ok checked =>
      rw [houtcome] at h hr
      obtain ⟨hdone, hpaths, hfound⟩ := h.of_ok
      have hfiles := Walk.files_of_outcome houtcome
      refine ⟨hdone, hfiles ▸ hpaths, checked.map (·.2), ?_, ?_⟩
      · rw [← hfiles, List.map_map, List.map_map]
        exact List.map_congr_left hfound
      · rw [← Except.ok.inj hr, ← hfiles, ScanResult.ofChecked, List.length_map, List.flatMap]
  · cases houtcome : (walk fs s root).outcome fs with
    | error e' =>
      rw [houtcome] at h he
      obtain rfl := Except.error.inj he
      obtain ⟨before, last, rfl, hbefore, hlast⟩ := h.of_error
      refine ⟨before, last, rfl, hbefore, hlast, fun refused hrefused => ?_⟩
      subst hrefused
      exact ScanStep.perform_refused hlast
    | ok checked =>
      rw [houtcome] at he
      exact absurd he (by simp [Except.map])

/-- **A scan gives all results or the error of the first step that fails**, and file systems that
answer the steps up to there in the same way are scanned with the same result. -/
theorem scan_stops_at_first_failure {fs : FileSystem} (hfs : fs.Valid) (endings : Path.Endings)
    (path : String) (includeTests : Bool) :
    let (root, s) := selectionOf path endings includeTests
    ∃ done, Scanned fs s root done (scan fs endings path includeTests).value ∧
      ∀ fs' : FileSystem, fs'.Valid →
        (∀ step ∈ done, step.perform fs' s root = step.perform fs s root) →
        (scan fs' endings path includeTests).value = (scan fs endings path includeTests).value := by
  simp only []
  obtain ⟨done, hrun⟩ := performs_walk hfs (selectionOf path endings includeTests).2
    (selectionOf path endings includeTests).1
  refine ⟨done, ?_, fun fs' hfs' hsteps => ?_⟩
  · rw [scan_value]
    exact scanned_of_run hrun
  · obtain ⟨done', hrun'⟩ := performs_walk hfs' (selectionOf path endings includeTests).2
      (selectionOf path endings includeTests).1
    rw [scan_value, scan_value, ((hrun.congr hsteps).unique hrun').2]

theorem scan_sampleSystem :
    ∃ done, Scanned sampleSystem ⟨{}, false, true⟩ "." done
        (scan sampleSystem {} "./..." false).value ∧
      ∀ fs' : FileSystem, fs'.Valid →
        (∀ step ∈ done, step.perform fs' ⟨{}, false, true⟩ "." =
          step.perform sampleSystem ⟨{}, false, true⟩ ".") →
        (scan fs' {} "./..." false).value = (scan sampleSystem {} "./..." false).value :=
  scan_stops_at_first_failure sampleSystem_valid {} "./..." false

end GoGlobals
