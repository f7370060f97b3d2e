import GoGlobals.CommandLine
import GoGlobals.Proofs.Failure

/-!
# The command is all or nothing

The command scans several paths and prints what it found only when all of them are done.  So the
outcome of a run is decided by its leftmost path that fails: nothing of what was found before it is
printed, and nothing behind it is scanned.

That nothing is scanned cannot be seen in what is printed.  But every scan leaves records, and those
of a run are exactly the records of the scans up to the path that fails.

## What is here

* `scanAll_of_failure` and `scanAll_of_ok` say what a run over the paths comes to, by induction on
  the paths that succeed.
* `FirstFailure` is the leftmost path that fails, and `exists_firstFailure` finds it.
* `run_all_or_nothing` is the theorem.
-/

set_option autoImplicit false

namespace GoGlobals.CommandLine

/-- The scan of one of the paths. -/
def scanOf (fs : FileSystem) (settings : Settings) (arguments : Arguments) (path : String) :
    Logged (Except ScanError ScanResult) :=
  scan fs settings.endings path (arguments.tests || settings.includeTests)

/-- The scan of the path succeeds. -/
def Passes (fs : FileSystem) (settings : Settings) (arguments : Arguments) (path : String) : Prop :=
  ∃ result, (scanOf fs settings arguments path).value = .ok result

/-- The leftmost of the paths whose scan fails, for this reason. -/
structure FirstFailure (fs : FileSystem) (settings : Settings) (arguments : Arguments)
    (before : List String) (path : String) (e : ScanError) : Prop where
  split : ∃ after, arguments.paths = before ++ path :: after
  passes : ∀ p ∈ before, Passes fs settings arguments p
  fails : (scanOf fs settings arguments path).value = .error e

/-- The records of the scans of some of the paths. -/
def recordsOf (fs : FileSystem) (settings : Settings) (arguments : Arguments)
    (paths : List String) : List Record :=
  paths.flatMap fun p => (scanOf fs settings arguments p).records

section

variable {fs : FileSystem} {settings : Settings} {arguments : Arguments}

/-! ## Scanning the paths -/

-- Both sides scan the same path, so the scan itself is not looked into.
attribute [local irreducible] scan in
theorem scanAll_cons (path : String) (rest : List String) :
    scanAll fs settings (arguments.tests || settings.includeTests) (path :: rest) =
      (do
        match ← scanOf fs settings arguments path with
        | .error e => return .error (path, e)
        | .ok result =>
          match ← scanAll fs settings (arguments.tests || settings.includeTests) rest with
          | .error e => return .error e
          | .ok messages => return .ok (result.messages ++ messages)) := rfl

theorem scanAll_cons_of_error {path : String} {rest : List String} {e : ScanError}
    (h : (scanOf fs settings arguments path).value = .error e) :
    scanAll fs settings (arguments.tests || settings.includeTests) (path :: rest) =
      ⟨(scanOf fs settings arguments path).records, .error (path, e)⟩ := by
  rw [scanAll_cons]
  simp only [bind, pure, Logged.after, h, List.append_nil]

theorem scanAll_cons_of_ok {path : String} {rest : List String} {result : ScanResult}
    (h : (scanOf fs settings arguments path).value = .ok result) :
    scanAll fs settings (arguments.tests || settings.includeTests) (path :: rest) =
      ⟨(scanOf fs settings arguments path).records ++
          (scanAll fs settings (arguments.tests || settings.includeTests) rest).records,
        (scanAll fs settings (arguments.tests || settings.includeTests) rest).value.map
          (result.messages ++ ·)⟩ := by
  rw [scanAll_cons]
  simp only [bind, pure, Logged.after, h]
  cases (scanAll fs settings (arguments.tests || settings.includeTests) rest).value with
  | error e => simp [Except.map]
  | ok messages => simp [Except.map]

/-- The paths behind one that fails make no difference. -/
theorem scanAll_of_failure {before after : List String} {path : String} {e : ScanError}
    (hbefore : ∀ p ∈ before, Passes fs settings arguments p)
    (h : (scanOf fs settings arguments path).value = .error e) :
    scanAll fs settings (arguments.tests || settings.includeTests) (before ++ path :: after) =
      ⟨recordsOf fs settings arguments (before ++ [path]), .error (path, e)⟩ := by
  induction before with
  | nil =>
    rw [List.nil_append, scanAll_cons_of_error h]
    simp [recordsOf]
  | cons first before ih =>
    obtain ⟨⟨result, hfirst⟩, hbefore⟩ := List.forall_mem_cons.1 hbefore
    rw [List.cons_append, scanAll_cons_of_ok hfirst, ih hbefore]
    rfl

theorem scanAll_of_ok {paths : List String} {results : List ScanResult}
    (h : paths.map (fun p => (scanOf fs settings arguments p).value) = results.map .ok) :
    scanAll fs settings (arguments.tests || settings.includeTests) paths =
      ⟨recordsOf fs settings arguments paths, .ok (results.flatMap (·.messages))⟩ := by
  induction paths generalizing results with
  | nil =>
    obtain rfl : results = [] := List.map_eq_nil_iff.1 h.symm
    rfl
  | cons path paths ih =>
    obtain ⟨result, results, rfl, hfirst, hrest⟩ := List.map_eq_cons_iff.1 h.symm
    rw [scanAll_cons_of_ok hfirst.symm, ih hrest.symm]
    rfl

/-! ## The leftmost failure -/

/-- If not all paths pass there is a leftmost one that fails. -/
theorem exists_failure_of_mem {paths : List String}
    (h : ¬ ∀ p ∈ paths, Passes fs settings arguments p) :
    ∃ before path after e, paths = before ++ path :: after ∧
      (∀ p ∈ before, Passes fs settings arguments p) ∧
      (scanOf fs settings arguments path).value = .error e := by
  induction paths with
  | nil => exact absurd (fun p hp => absurd hp List.not_mem_nil) h
  | cons first rest ih =>
    cases hfirst : (scanOf fs settings arguments first).value with
    | error e =>
      exact ⟨[], first, rest, e, rfl, fun p hp => absurd hp List.not_mem_nil, hfirst⟩
    | ok result =>
      have hpasses : Passes fs settings arguments first := ⟨result, hfirst⟩
      have hrest : ¬ ∀ p ∈ rest, Passes fs settings arguments p :=
        fun hall => h (List.forall_mem_cons.2 ⟨hpasses, hall⟩)
      obtain ⟨before, path, after, e, rfl, hbefore, hfails⟩ := ih hrest
      exact ⟨first :: before, path, after, e, rfl, List.forall_mem_cons.2 ⟨hpasses, hbefore⟩,
        hfails⟩

theorem exists_firstFailure {path : String} {e : ScanError} (hmem : path ∈ arguments.paths)
    (h : (scanOf fs settings arguments path).value = .error e) :
    ∃ before path e, FirstFailure fs settings arguments before path e := by
  have hnot : ¬ ∀ p ∈ arguments.paths, Passes fs settings arguments p := by
    intro hall
    obtain ⟨result, hresult⟩ := hall path hmem
    exact absurd (h.symm.trans hresult) (by simp)
  obtain ⟨before, path, after, e, hpaths, hbefore, hfails⟩ := exists_failure_of_mem hnot
  exact ⟨before, path, e, ⟨after, hpaths⟩, hbefore, hfails⟩

/-- If all paths pass there are results for all of them. -/
theorem exists_results {paths : List String} (h : ∀ p ∈ paths, Passes fs settings arguments p) :
    ∃ results : List ScanResult,
      paths.map (fun p => (scanOf fs settings arguments p).value) = results.map .ok := by
  induction paths with
  | nil => exact ⟨[], rfl⟩
  | cons path paths ih =>
    obtain ⟨⟨result, hresult⟩, hrest⟩ := List.forall_mem_cons.1 h
    obtain ⟨results, hresults⟩ := ih hrest
    exact ⟨result :: results, by rw [List.map_cons, List.map_cons, hresult, hresults]⟩

/-! ## Runs -/

/-- The record about a path whose scan failed. -/
def failedRecord (path : String) : Record :=
  ⟨.error, .commandLine, "Scan of " ++ path ++ " failed"⟩

theorem FirstFailure.execute_eq {before : List String} {path : String} {e : ScanError}
    (h : FirstFailure fs settings arguments before path e) :
    execute fs settings arguments =
      ⟨recordsOf fs settings arguments (before ++ [path]) ++ [failedRecord path],
        { status := 2, stderr := e.message ++ "\n" }⟩ := by
  obtain ⟨after, hpaths⟩ := h.split
  rw [execute, hpaths, scanAll_of_failure h.passes h.fails]
  simp [bind, pure, Logged.after, Logged.tell, failedRecord]

theorem execute_of_ok {results : List ScanResult}
    (h : arguments.paths.map (fun p => (scanOf fs settings arguments p).value) =
      results.map .ok) :
    execute fs settings arguments =
      ⟨recordsOf fs settings arguments arguments.paths,
        { status := if results.flatMap (·.messages) = [] then 0 else 1
          stdout := report (results.flatMap (·.messages)) }⟩ := by
  rw [execute, scanAll_of_ok h]
  simp [bind, pure, Logged.after]

theorem report_eq_empty_iff {messages : List String} : report messages = "" ↔ messages = [] := by
  refine ⟨fun h => ?_, fun h => by rw [h]; rfl⟩
  cases messages with
  | nil => rfl
  | cons message messages =>
    have htext := congrArg String.toList h
    simp [report] at htext

end

theorem run_of_parse {arguments : List String} {parsed : Arguments}
    (h : parse arguments = .ok parsed) (fs : FileSystem) (settings : Settings) :
    run fs settings arguments = execute fs settings parsed := by
  rw [run, h]

/-- **The command is all or nothing.**  If the scan of some path fails, the run tells the error of
the leftmost one and nothing else, and its records are those of the scans up to there.  If all scans
succeed, the run prints a line for each variable, in the order of the paths and of what was found in
each, and the status tells whether there is one.  So something is printed exactly if the status
is 1. -/
theorem run_all_or_nothing {fs : FileSystem} (hfs : fs.Valid) (settings : Settings)
    {arguments : List String} {parsed : Arguments} (hparse : parse arguments = .ok parsed) :
    ((∃ path ∈ parsed.paths, ∃ e, (scanOf fs settings parsed path).value = .error e) →
        ∃ before path e, FirstFailure fs settings parsed before path e ∧ e.IsForeseen ∧
          run fs settings arguments =
            ⟨recordsOf fs settings parsed (before ++ [path]) ++ [failedRecord path],
              { status := 2, stdout := "", stderr := e.message ++ "\n" }⟩) ∧
      ((∀ path ∈ parsed.paths, ∃ r, (scanOf fs settings parsed path).value = .ok r) →
        ∃ results : List ScanResult,
          parsed.paths.map (fun p => (scanOf fs settings parsed p).value) = results.map .ok ∧
          run fs settings arguments =
            ⟨recordsOf fs settings parsed parsed.paths,
              { status := if results.flatMap (·.messages) = [] then 0 else 1
                stdout := String.join ((results.flatMap (·.messages)).map (· ++ "\n"))
                stderr := "" }⟩) ∧
      ((run fs settings arguments).value.stdout ≠ "" ↔
        (run fs settings arguments).value.status = 1) := by
  rw [run_of_parse hparse]
  refine ⟨?_, fun hall => ?_, ?_⟩
  · rintro ⟨path, hmem, e, hfails⟩
    obtain ⟨before, first, e, hfirst⟩ := exists_firstFailure hmem hfails
    exact ⟨before, first, e, hfirst, scan_isForeseen hfs hfirst.fails, hfirst.execute_eq⟩
  · obtain ⟨results, hresults⟩ := exists_results hall
    exact ⟨results, hresults, execute_of_ok hresults⟩
  · by_cases hall : ∀ p ∈ parsed.paths, Passes fs settings parsed p
    · obtain ⟨results, hresults⟩ := exists_results hall
      rw [execute_of_ok hresults, Ne, report_eq_empty_iff]
      split <;> simp [*]
    · obtain ⟨before, path, after, e, hpaths, hbefore, hfails⟩ := exists_failure_of_mem hall
      have hfirst : FirstFailure fs settings parsed before path e :=
        ⟨⟨after, hpaths⟩, hbefore, hfails⟩
      rw [hfirst.execute_eq]
      simp

/-- An empty directory, a path where nothing is, and a path that is not scanned any more. -/
def sampleArguments : Arguments := ⟨true, ["a/x", "nowhere", "z.go"]⟩

theorem scanOf_empty_directory :
    (scanOf sampleSystem {} sampleArguments "a/x").value = .ok {} := by
  have hwalk : walk sampleSystem ⟨{}, true, false⟩ "a/x" = {} := by with_unfolding_all decide
  rw [scanOf, scan_value]
  change ((walk sampleSystem ⟨{}, true, false⟩ "a/x").outcome sampleSystem).map _ = _
  rw [hwalk]
  rfl

theorem scanOf_nowhere :
    (scanOf sampleSystem {} sampleArguments "nowhere").value =
      .error (.walk (.noRoot "nowhere")) := by
  have hwalk : walk sampleSystem ⟨{}, true, false⟩ "nowhere" =
      { error := some (.noRoot "nowhere") } := by with_unfolding_all decide
  rw [scanOf, scan_value]
  change ((walk sampleSystem ⟨{}, true, false⟩ "nowhere").outcome sampleSystem).map _ = _
  rw [hwalk]
  rfl

theorem run_sampleSystem :
    parse ["-t", "a/x", "nowhere", "z.go"] = .ok sampleArguments ∧
      (run sampleSystem {} ["-t", "a/x", "nowhere", "z.go"]).value =
        { status := 2, stdout := "", stderr := "no such file or directory: nowhere\n" } := by
  have hparse : parse ["-t", "a/x", "nowhere", "z.go"] = .ok sampleArguments := rfl
  obtain ⟨hfailure, -, -⟩ := run_all_or_nothing sampleSystem_valid {} hparse
  obtain ⟨before, path, e, hfirst, -, hrun⟩ :=
    hfailure ⟨"nowhere", by decide, _, scanOf_nowhere⟩
  refine ⟨hparse, ?_⟩
  rw [hrun]
  obtain ⟨after, hpaths⟩ := hfirst.split
  have hfails := hfirst.fails
  rw [sampleArguments] at hpaths
  cases before with
  | nil =>
    obtain ⟨rfl, -⟩ := List.cons.inj hpaths
    exact absurd (hfails.symm.trans scanOf_empty_directory) (by simp)
  | cons first before =>
    obtain ⟨rfl, hrest⟩ := List.cons.inj hpaths
    cases before with
    | nil =>
      obtain ⟨rfl, -⟩ := List.cons.inj hrest
      obtain rfl := Except.error.inj (hfails.symm.trans scanOf_nowhere)
      decide
    | cons second before =>
      obtain ⟨rfl, -⟩ := List.cons.inj hrest
      obtain ⟨result, hresult⟩ := hfirst.passes "nowhere" (by simp)
      exact absurd (scanOf_nowhere.symm.trans hresult) (by simp)

end GoGlobals.CommandLine
