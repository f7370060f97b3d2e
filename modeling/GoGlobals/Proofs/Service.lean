import GoGlobals.Proofs.Opening
import GoGlobals.Service
import Mathlib

/-!
# When a path is not found

A request to scan a path is answered with the status 404 when something that the scan looks for is
missing.  That is the path itself if nothing is there.  But a scan opens much more than the path,
and it does not tell the one from the other: an entry that it meets on the way and cannot find is
answered as if the path were missing.

An entry that was listed a moment ago is always found again, as `GoGlobals.Proofs.Opening` shows,
unless it is a link.  So the links that lead nowhere are all that can turn the answer about a path
that exists, and one of them does so if all files before it can be checked.

## What is here

* `StopsAt` is the first file that cannot be checked, and `Walk.outcome_eq_error_iff` says that it
  decides how the scan of a walk fails.
* `isMissing_checkFile`: a file counts as missing if its path leads nowhere.
* `Request.AsksScan` is a valid request to scan a path.
* `not_found_iff_missing_or_dangling` is the theorem, and `respond_danglingSystem` shows a path
  that exists and is answered as missing.
-/

set_option autoImplicit false

namespace GoGlobals

/-! ## The first failure -/

/-- The file can be checked. -/
def Checks (fs : FileSystem) (path : String) : Prop :=
  ∃ ds, (checkFile fs path).value = .ok ds

/-- The path is the first among the files that cannot be checked, for this reason. -/
def StopsAt (fs : FileSystem) (files : List String) (path : String) (e : ScanError) : Prop :=
  ∃ before after, files = before ++ path :: after ∧ (∀ p ∈ before, Checks fs p) ∧
    (checkFile fs path).value = .error e

section

variable {fs : FileSystem} {files : List String} {first path : String} {e : ScanError}

theorem StopsAt.mem (h : StopsAt fs files path e) : path ∈ files := by
  obtain ⟨before, after, rfl, -, -⟩ := h
  exact List.mem_append_right before List.mem_cons_self

theorem StopsAt.value (h : StopsAt fs files path e) : (checkFile fs path).value = .error e := by
  obtain ⟨-, -, -, -, herror⟩ := h
  exact herror

theorem not_stopsAt_nil : ¬ StopsAt fs [] path e :=
  fun h => absurd h.mem List.not_mem_nil

theorem stopsAt_cons_of_error {e' : ScanError} (hfirst : (checkFile fs first).value = .error e') :
    StopsAt fs (first :: files) path e ↔ path = first ∧ e' = e := by
  constructor
  · rintro ⟨before, after, hfiles, hbefore, herror⟩
    cases before with
    | nil =>
      obtain ⟨rfl, -⟩ := List.cons.inj hfiles
      exact ⟨rfl, Except.error.inj (hfirst.symm.trans herror)⟩
    | cons p before =>
      obtain ⟨rfl, -⟩ := List.cons.inj hfiles
      obtain ⟨ds, hds⟩ := hbefore first List.mem_cons_self
      exact absurd (hfirst.symm.trans hds) (by simp)
  · rintro ⟨rfl, rfl⟩
    exact ⟨[], files, rfl, fun p hp => absurd hp List.not_mem_nil, hfirst⟩

theorem stopsAt_cons_of_checks (hfirst : Checks fs first) :
    StopsAt fs (first :: files) path e ↔ StopsAt fs files path e := by
  constructor
  · rintro ⟨before, after, hfiles, hbefore, herror⟩
    cases before with
    | nil =>
      obtain ⟨rfl, -⟩ := List.cons.inj hfiles
      obtain ⟨ds, hds⟩ := hfirst
      exact absurd (hds.symm.trans herror) (by simp)
    | cons p before =>
      obtain ⟨rfl, rfl⟩ := List.cons.inj hfiles
      exact ⟨before, after, rfl, fun p hp => hbefore p (List.mem_cons_of_mem _ hp), herror⟩
  · rintro ⟨before, after, rfl, hbefore, herror⟩
    refine ⟨first :: before, after, rfl, fun p hp => ?_, herror⟩
    rcases List.mem_cons.1 hp with rfl | hp
    · exact hfirst
    · exact hbefore p hp

end

/-- **How a scan of a walk fails**: by the first file that cannot be checked, and if there is none
by the early end of the walk itself. -/
theorem Walk.outcome_eq_error_iff {fs : FileSystem} {w : Walk} {e : ScanError} :
    w.outcome fs = .error e ↔
      (∃ path, StopsAt fs w.files path e) ∨
        (∀ path ∈ w.files, Checks fs path) ∧ ∃ error, w.error = some error ∧ e = .walk error := by
  obtain ⟨visits, error⟩ := w
  rw [Walk.outcome]
  induction visits with
  | nil =>
    simp only [Walk.files, List.filterMap_nil, not_stopsAt_nil, exists_false, false_or,
      visitsOutcome]
    cases error with
    | none => simp
    | some error => simp [eq_comm]
  | cons visit rest ih =>
    cases visit with
    | passedBy path => exact ih
    | file path =>
      have hfiles : Walk.files ⟨.file path :: rest, error⟩ = path :: Walk.files ⟨rest, error⟩ := rfl
      rw [visitsOutcome, hfiles]
      cases hcheck : (checkFile fs path).value with
      | error e' =>
        have hfails : ¬ Checks fs path := by
          rintro ⟨ds, hds⟩
          exact absurd (hcheck.symm.trans hds) (by simp)
        simp [stopsAt_cons_of_error hcheck, hfails]
      | ok ds =>
        have hchecks : Checks fs path := ⟨ds, hcheck⟩
        simp only [stopsAt_cons_of_checks hchecks, List.forall_mem_cons, hchecks, true_and]
        rw [← ih]
        cases visitsOutcome fs error rest with
        | error e' => simp [Except.map]
        | ok checked => simp [Except.map]

/-! ## Missing files -/

namespace Service

/-- A text is refused, or its declarations cannot be checked; nothing is missing then. -/
theorem isMissing_checkSource {content : Text.Source} {path : String} {e : ScanError}
    (h : (checkSource content path).value = .error e) : isMissing e = false := by
  cases hread : SourceFile.read content path with
  | error refusal =>
    have hvalue : readSource content path =
        ⟨refusal.records path, .error (.refused (refusal.error path))⟩ := by
      delta readSource
      rw [hread]
    simp only [checkSource, hvalue, bind, pure, Logged.after] at h
    obtain rfl := Except.error.inj h
    rfl
  | ok file =>
    have hvalue : readSource content path = ⟨[], .ok file⟩ := by
      delta readSource
      rw [hread]
    simp only [checkSource, hvalue, bind, Logged.after, checkDeclarations] at h
    cases hcheck : check file with
    | error e' =>
      rw [hcheck] at h
      obtain rfl := Except.error.inj h
      rfl
    | ok ds =>
      rw [hcheck] at h
      exact absurd h (by simp [Except.mapError])

/-- A file counts as missing if its path leads nowhere. -/
theorem isMissing_checkFile {fs : FileSystem} {path : String} {e : ScanError}
    (h : (checkFile fs path).value = .error e) :
    isMissing e = true ↔ fs.read path = .error .missing := by
  cases hread : fs.read path with
  | error fault =>
    rw [checkFile, hread] at h
    obtain rfl := Except.error.inj h
    cases fault <;> simp [isMissing]
  | ok content =>
    rw [checkFile_value hread] at h
    simp [isMissing_checkSource h]

/-! ## Requests -/

/-- The request is valid and asks to scan a path. -/
structure Request.AsksScan (request : Request) (r : ScanRequest) : Prop where
  method : request.method = "POST"
  route : route? request.url = some .scan
  body : ∃ value, readBody request.body = .ok value ∧ readScanRequest value = .ok r

theorem Request.AsksScan.handle_eq {request : Request} {r : ScanRequest} (h : request.AsksScan r)
    (fs : FileSystem) (settings : Settings) :
    handle fs settings request = scanPath fs settings r := by
  obtain ⟨value, hbody, hread⟩ := h.body
  rw [handle, h.route]
  simp only [h.method, Route.method, beq_self_eq_true, if_true, answer, withBody, hbody, hread]

theorem respond_of_asksScan {request : Request} {r : ScanRequest} (h : request.AsksScan r)
    (fs : FileSystem) (settings : Settings) (elapsed : Json) :
    (respond fs settings elapsed request).value =
      (scanPath fs settings r).value.response elapsed := by
  have hhead : (request.method == "HEAD") = false := by rw [h.method]; rfl
  simp only [respond, bind, pure, Logged.after, h.handle_eq, hhead, Bool.false_eq_true, if_false]

/-! ## The answer to a scan -/

/-- The answer that a path is not found. -/
def notFound (path : String) : Response :=
  ⟨404, .json (.object [("detail", .ofText ("Path not found: " ++ path))])⟩

theorem send_status_ne {status : Nat} (h : status ≠ 404) (value : Json) :
    (send status value).status ≠ 404 := by
  rw [send]
  split
  · exact h
  · exact fun h => absurd h (by decide)

theorem scanPath_of_missing {fs : FileSystem} {settings : Settings} {r : ScanRequest}
    {e : ScanError}
    (h : (scan fs settings.endings r.path (r.includeTests.getD settings.includeTests)).value =
      .error e) (hmissing : isMissing e = true) (elapsed : Json) :
    (scanPath fs settings r).value.response elapsed = notFound r.path := by
  rw [scanPath]
  simp only [bind, Logged.after, h]
  cases e with
  | refused e => exact absurd hmissing (by simp [isMissing])
  | check e => exact absurd hmissing (by simp [isMissing])
  | unread fault path =>
    simp only [hmissing, if_true, pure]
    rfl
  | walk e =>
    simp only [hmissing, if_true, pure]
    rfl

/-- Only what is missing is answered with 404. -/
theorem scanPath_status_ne {fs : FileSystem} {settings : Settings} {r : ScanRequest}
    (h : ∀ e, (scan fs settings.endings r.path (r.includeTests.getD settings.includeTests)).value =
      .error e → isMissing e = false) (elapsed : Json) :
    ((scanPath fs settings r).value.response elapsed).status ≠ 404 := by
  rw [scanPath]
  simp only [bind, Logged.after]
  cases hscan : (scan fs settings.endings r.path
      (r.includeTests.getD settings.includeTests)).value with
  | ok result => exact send_status_ne (by decide) _
  | error e =>
    have hmissing := h e hscan
    cases e with
    | refused e => exact send_status_ne (by decide) _
    | check e => exact fun h => absurd (show 500 = 404 from h) (by decide)
    | unread fault path =>
      simp only [hmissing, Bool.false_eq_true, if_false]
      exact send_status_ne (by decide) _
    | walk e =>
      simp only [hmissing, Bool.false_eq_true, if_false]
      exact send_status_ne (by decide) _

/-- The root that a request asks for: its path without the marker of a recursive scan. -/
def ScanRequest.root (r : ScanRequest) : String :=
  (Path.splitRecursive r.path).1

/-- The files that a request asks for. -/
def ScanRequest.selection (r : ScanRequest) (settings : Settings) : Selection :=
  ⟨settings.endings, r.includeTests.getD settings.includeTests, (Path.splitRecursive r.path).2⟩

theorem scan_eq_error_iff {fs : FileSystem} {settings : Settings} {r : ScanRequest}
    {e : ScanError} :
    (scan fs settings.endings r.path (r.includeTests.getD settings.includeTests)).value = .error e ↔
      (walk fs (r.selection settings) r.root).outcome fs = .error e := by
  exact GoGlobals.scan_eq_error_iff rfl

/-- The status is 404 if the scan fails since something is missing, and then it is told that the
path is. -/
theorem respond_status_iff {request : Request} {r : ScanRequest} (h : request.AsksScan r)
    (fs : FileSystem) (settings : Settings) (elapsed : Json) :
    ((respond fs settings elapsed request).value.status = 404 ↔
        ∃ e, (walk fs (r.selection settings) r.root).outcome fs = .error e ∧ isMissing e = true) ∧
      ((respond fs settings elapsed request).value.status = 404 →
        (respond fs settings elapsed request).value = notFound r.path) := by
  rw [respond_of_asksScan h]
  simp only [← scan_eq_error_iff]
  by_cases hscan : ∃ e, (scan fs settings.endings r.path
      (r.includeTests.getD settings.includeTests)).value = .error e ∧ isMissing e = true
  · obtain ⟨e, he, hmissing⟩ := hscan
    have hresponse := scanPath_of_missing he hmissing elapsed
    exact ⟨⟨fun _ => ⟨e, he, hmissing⟩, fun _ => by rw [hresponse]; rfl⟩, fun _ => hresponse⟩
  · have hstatus := scanPath_status_ne (fun e he => by
      cases hmissing : isMissing e with
      | false => rfl
      | true => exact absurd ⟨e, he, hmissing⟩ hscan) elapsed
    exact ⟨⟨fun h => absurd h hstatus, fun h => absurd h hscan⟩, fun h => absurd h hstatus⟩

end Service

/-! ## What can be missing -/

theorem FileSystem.pathExists_of_isDirectory {fs : FileSystem} {path : String}
    (h : fs.isDirectory path = true) : fs.pathExists path = true := by
  rw [isDirectory] at h
  rw [pathExists]
  cases hresolve : fs.resolve path with
  | error fault =>
    rw [hresolve] at h
    exact absurd h (by simp)
  | ok target => rfl

theorem FileSystem.read_ne_missing {fs : FileSystem} {path : String}
    (h : fs.pathExists path = true) : fs.read path ≠ .error .missing := by
  rw [pathExists] at h
  rw [read]
  cases hresolve : fs.resolve path with
  | error fault =>
    rw [hresolve] at h
    exact absurd h (by simp [Except.isOk, Except.toBool])
  | ok target =>
    obtain ⟨entry, location⟩ := target
    cases entry with
    | file content => simp
    | directory inner => simp
    | link path => simp

namespace Selection

variable {fs : FileSystem} {s : Selection} {root : String}

/-- What is listed under a path is not missing there, unless it is a link. -/
theorem Meets.isLink_of_missing (hfs : fs.Valid) (hroot : fs.CleansInPlace root) {path : String}
    {found : Target} (h : s.Meets fs root path found) (hread : fs.read path = .error .missing) :
    ∃ target, found.entry = .link target := by
  by_contra hlink
  rcases h.pointsAt hfs hroot with hlong | hpoints
  · rw [FileSystem.read, hlong true] at hread
    exact absurd hread (by simp)
  · have hresolve := hpoints true (.inr fun target htarget => hlink ⟨target, htarget⟩)
    exact FileSystem.read_ne_missing (by rw [FileSystem.pathExists, hresolve]; rfl) hread

/-- A directory that is listed is there. -/
theorem Lists.list_ne_missing (hfs : fs.Valid) (hdirectory : fs.isDirectory root = true)
    (hroot : fs.CleansInPlace root) {directory : String} (h : s.Lists fs root directory) :
    fs.list directory ≠ .error .missing := by
  cases h with
  | root =>
    obtain ⟨es, hes⟩ := FileSystem.isDirectory_iff.1 hdirectory
    rw [hes]
    exact fun h => absurd h (by simp)
  | @inside directory name es inner h hlist hmem henters =>
    obtain ⟨location, hresolve⟩ := FileSystem.list_eq_ok hlist
    have hmeets : s.Meets fs root (entryPath directory name)
        ⟨.directory inner, location ++ [name]⟩ :=
      ⟨directory, es, location, name, h, hresolve, hmem, rfl, rfl⟩
    rcases hmeets.pointsAt hfs hroot with hlong | hpoints
    · rw [FileSystem.list, hlong true]
      exact fun h => absurd h (by simp)
    · rw [hpoints.opens.directory inner rfl]
      exact fun h => absurd h (by simp)

end Selection

namespace Service

/-- A scan from a directory misses something if the first file that cannot be checked is a link that
leads nowhere. -/
theorem missing_below_iff {fs : FileSystem} (hfs : fs.Valid) (s : Selection) {root : String}
    (hdirectory : fs.isDirectory root = true) (hclean : fs.CleansInPlace root) :
    (∃ e, (walk fs s root).outcome fs = .error e ∧ isMissing e = true) ↔
      ∃ path target location e, s.Meets fs root path ⟨.link target, location⟩ ∧
        fs.read path = .error .missing ∧ StopsAt fs (walk fs s root).files path e := by
  have hexplains := explains_walk hfs s hdirectory
  constructor
  · rintro ⟨e, houtcome, hmissing⟩
    rcases Walk.outcome_eq_error_iff.1 houtcome with ⟨path, hstops⟩ | ⟨-, error, herror, rfl⟩
    · have hread := (isMissing_checkFile hstops.value).1 hmissing
      obtain ⟨⟨entry, location⟩, hmeets, -⟩ := hexplains.files path hstops.mem
      obtain ⟨target, rfl⟩ := hmeets.isLink_of_missing hfs hclean hread
      exact ⟨path, target, location, e, hmeets, hread, hstops⟩
    · obtain ⟨fault, directory, rfl, hlists, hlist⟩ := hexplains.error error herror
      have hfault : fault ≠ .missing := by
        rintro rfl
        exact hlists.list_ne_missing hfs hdirectory hclean hlist
      cases fault <;> simp_all [isMissing]
  · rintro ⟨path, target, location, e, -, hread, hstops⟩
    exact ⟨e, Walk.outcome_eq_error_iff.2 (.inl ⟨path, hstops⟩),
      (isMissing_checkFile hstops.value).2 hread⟩

/-- A scan of a file that is there misses nothing. -/
theorem not_missing_of_file {fs : FileSystem} (s : Selection) {root : String}
    (hdirectory : fs.isDirectory root = false) (hexists : fs.pathExists root = true) :
    ¬ ∃ e, (walk fs s root).outcome fs = .error e ∧ isMissing e = true := by
  rintro ⟨e, houtcome, hmissing⟩
  have hwalk : (walk fs s root).error = none ∧ ∀ path ∈ (walk fs s root).files, path = root := by
    rw [walk, if_neg (by simp [hdirectory]), if_neg (by simp [hexists])]
    split
    · exact ⟨rfl, fun path hpath => List.mem_singleton.1 hpath⟩
    · exact ⟨rfl, fun path hpath => absurd hpath List.not_mem_nil⟩
  rcases Walk.outcome_eq_error_iff.1 houtcome with ⟨path, hstops⟩ | ⟨-, error, herror, -⟩
  · obtain rfl := hwalk.2 path hstops.mem
    exact FileSystem.read_ne_missing hexists ((isMissing_checkFile hstops.value).1 hmissing)
  · exact absurd (hwalk.1.symm.trans herror) (by simp)

/-- A scan misses something if nothing is at its root, or if it misses something below it. -/
theorem missing_iff {fs : FileSystem} (hfs : fs.Valid) (s : Selection) {root : String}
    (hclean : fs.isDirectory root = true → fs.CleansInPlace root) :
    (∃ e, (walk fs s root).outcome fs = .error e ∧ isMissing e = true) ↔
      fs.pathExists root = false ∨ fs.isDirectory root = true ∧
        ∃ path target location e, s.Meets fs root path ⟨.link target, location⟩ ∧
          fs.read path = .error .missing ∧ StopsAt fs (walk fs s root).files path e := by
  cases hexists : fs.pathExists root with
  | false =>
    have hdirectory : fs.isDirectory root = false := by
      rw [Bool.eq_false_iff]
      intro hdirectory
      exact absurd (FileSystem.pathExists_of_isDirectory hdirectory) (by simp [hexists])
    have houtcome : (walk fs s root).outcome fs = .error (.walk (.noRoot root)) := by
      rw [walk, if_neg (by simp [hdirectory]), if_pos (by simp [hexists])]
      rfl
    exact ⟨fun _ => .inl rfl, fun _ => ⟨_, houtcome, rfl⟩⟩
  | true =>
    cases hdirectory : fs.isDirectory root with
    | false => simp [not_missing_of_file s hdirectory hexists]
    | true => simp [missing_below_iff hfs s hdirectory (hclean hdirectory)]

/-- **A path is not found** if nothing is there, or if it is a directory and the first file below it
that cannot be checked is a link that leads nowhere.  No other entry below a path that exists can
change the answer. -/
theorem not_found_iff_missing_or_dangling {fs : FileSystem} (hfs : fs.Valid) (settings : Settings)
    (elapsed : Json) {request : Request} {r : ScanRequest} (hasks : request.AsksScan r)
    (hclean : fs.isDirectory r.root = true → fs.CleansInPlace r.root) :
    ((respond fs settings elapsed request).value.status = 404 ↔
        fs.pathExists r.root = false ∨ fs.isDirectory r.root = true ∧
          ∃ path target location e,
            (r.selection settings).Meets fs r.root path ⟨.link target, location⟩ ∧
              fs.read path = .error .missing ∧
              StopsAt fs (walk fs (r.selection settings) r.root).files path e) ∧
      ((respond fs settings elapsed request).value.status = 404 →
        (respond fs settings elapsed request).value = notFound r.path) := by
  obtain ⟨hstatus, htold⟩ := respond_status_iff hasks fs settings elapsed
  exact ⟨hstatus.trans (missing_iff hfs (r.selection settings) hclean), htold⟩

/-- A directory that holds nothing but a link that leads nowhere. -/
def danglingSystem : FileSystem where
  top := [("d", .directory [("l.go", .link "nowhere")])]

theorem danglingSystem_valid : danglingSystem.Valid := by
  refine .cons .nil (by decide) (by decide) fun inner h => ?_
  obtain rfl := Entry.directory.inj h
  exact .cons .nil (by decide) (by decide) fun inner h => absurd h (by simp)

/-- A request to scan the directory. -/
def danglingRequest : Request where
  url := "/scan"
  body := Text.bytesOf "\x7b\"path\": \"d\"\x7d"

theorem danglingRequest_asks : danglingRequest.AsksScan ⟨"d", none⟩ := by
  refine ⟨rfl, by with_unfolding_all decide, ?_⟩
  exact ⟨.object [("path", .ofText "d")], by cbv, by cbv⟩

theorem danglingSystem_stopsAt :
    danglingSystem.read "d/l.go" = .error .missing ∧
      StopsAt danglingSystem (walk danglingSystem {} "d").files "d/l.go"
        (.unread .missing "d/l.go") := by
  have hread : danglingSystem.read "d/l.go" = .error .missing := by with_unfolding_all rfl
  have hfiles : (walk danglingSystem {} "d").files = ["d/l.go"] := by
    have hlist : danglingSystem.list "d" = .ok [("l.go", .link "nowhere")] := by
      with_unfolding_all rfl
    have hsorted : Entries.sorted [("l.go", .link "nowhere")] = [("l.go", .link "nowhere")] :=
      List.mergeSort_singleton _
    rw [walk, if_pos (FileSystem.isDirectory_iff.2 ⟨_, hlist⟩), pathBytesLimit, walkDirectory, hlist]
    simp only [hsorted]
    with_unfolding_all decide
  refine ⟨hread, [], [], hfiles, fun p hp => absurd hp List.not_mem_nil, ?_⟩
  rw [checkFile, hread]
  rfl

theorem danglingSystem_not_found :
    danglingSystem.isDirectory "d" = true ∧ ".." ∉ Path.components "d" ∧
      danglingSystem.read "d/l.go" = .error .missing ∧
      (respond danglingSystem {} (.int 0) danglingRequest).value = notFound "d" := by
  have hroot : danglingSystem.isDirectory "d" = true := by with_unfolding_all decide
  have hdots : ".." ∉ Path.components "d" := by with_unfolding_all decide
  obtain ⟨hread, hstops⟩ := danglingSystem_stopsAt
  obtain ⟨hstatus, htold⟩ := not_found_iff_missing_or_dangling danglingSystem_valid {} (.int 0)
    danglingRequest_asks fun _ => .inl hdots
  have hresolve : danglingSystem.resolve "d" =
      .ok ⟨.directory [("l.go", .link "nowhere")], ["d"]⟩ := by
    with_unfolding_all rfl
  refine ⟨hroot, hdots, hread, htold (hstatus.2 (.inr ⟨hroot, ?_⟩))⟩
  exact ⟨"d/l.go", "nowhere", ["d", "l.go"], _,
    ⟨"d", _, _, "l.go", .root, hresolve, List.mem_cons_self, by with_unfolding_all decide, rfl⟩, hread,
    hstops⟩

/-- The directory exists, and the answer is that it is not found. -/
theorem respond_danglingSystem :
    danglingRequest.AsksScan ⟨"d", none⟩ ∧ danglingSystem.pathExists "d" = true ∧
      (respond danglingSystem {} (.int 0) danglingRequest).value = notFound "d" := by
  obtain ⟨hread, hstops⟩ := danglingSystem_stopsAt
  obtain ⟨hstatus, htold⟩ :=
    respond_status_iff danglingRequest_asks danglingSystem {} (.int 0)
  have houtcome := Walk.outcome_eq_error_iff.2 (.inl ⟨_, hstops⟩)
  exact ⟨danglingRequest_asks, by with_unfolding_all decide, htold (hstatus.2 ⟨_, houtcome, rfl⟩)⟩

end Service

end GoGlobals
