import GoGlobals.Proofs.CommandLine
import Mathlib.Data.List.Forall2

/-!
# The surfaces agree

A scan can be asked for in two ways, by the command and by a request, and each of them settles by
itself what happens to tests and what is said about a failure.  And a file can be checked in two
ways, where a scan finds it and as the text of a request, and the second does not go through the
first.

Both are compared here.  `answer_of_scan` says what a request is answered with for each outcome of
the scan, and with what `GoGlobals.Proofs.CommandLine` says about the command for the same outcome
the two surfaces agree (`surfaces_agree`).  `Inline` is a request that asks about the content of a
file; it is answered by what the check of the file gives (`Inline.answer`), so a scan is put
together from the answers for its files (`scan_eq_inline`).
-/

set_option autoImplicit false

namespace GoGlobals

open CommandLine (Output Arguments scanOf parse run execute report)

namespace Service

/-! ## Responses -/

/-- The response that tells a reason. -/
def told (status : Nat) (detail : String) : Response :=
  ⟨status, .json (.object [("detail", .ofText detail)])⟩

/-- The response that tells what was found in some files. -/
def found (files : Nat) (messages : List String) (elapsed : Json) : Response :=
  ⟨200, .json (.object [("message", .ofText "scan_complete"), ("files_scanned", .int files),
    ("diagnostics", .arr (messages.map Json.ofText)), ("scan_duration_ms", elapsed)])⟩

theorem isWritable_ofText (s : String) : (Json.ofText s).isWritable = true := rfl

theorem allWritable_map_ofText (messages : List String) :
    Json.allWritable (messages.map Json.ofText) = true := by
  induction messages with
  | nil => rfl
  | cons message messages ih =>
    rw [List.map_cons, Json.allWritable, isWritable_ofText, ih, Bool.and_self]

theorem response_scanned {elapsed : Json} (h : elapsed.isWritable = true) (files : Nat)
    (messages : List String) :
    (Reply.scanned files messages).response elapsed = found files messages elapsed := by
  have hwritable : (Json.object [("message", .ofText "scan_complete"),
      ("files_scanned", .int files), ("diagnostics", .arr (messages.map Json.ofText)),
      ("scan_duration_ms", elapsed)]).isWritable = true := by
    simp [Json.object, Json.isWritable, Json.allMembersWritable, isWritable_ofText,
      allWritable_map_ofText, h]
  rw [Reply.response, send, if_pos hwritable]
  rfl

/-- What a request to scan a path is answered with. -/
def answerOf (path : String) (elapsed : Json) : Except ScanError ScanResult → Response
  | .ok result => found result.files result.messages elapsed
  | .error (.refused e) => told 422 e.render
  | .error (.check _) => failure
  | .error e =>
    if isMissing e then told 404 ("Path not found: " ++ path)
    else told 400 ("Could not read " ++ path)

theorem answer_of_scan {request : Request} {r : ScanRequest} (h : request.AsksScan r)
    (fs : FileSystem) (settings : Settings) {elapsed : Json}
    (helapsed : elapsed.isWritable = true) :
    (respond fs settings elapsed request).value =
      answerOf r.path elapsed (scan fs settings.endings r.path
        (r.includeTests.getD settings.includeTests)).value := by
  rw [respond_of_asksScan h, scanPath]
  simp only [bind, pure, Logged.after, Logged.tell]
  cases (scan fs settings.endings r.path (r.includeTests.getD settings.includeTests)).value with
  | ok result => exact response_scanned helapsed _ _
  | error e =>
    cases e with
    | refused e => rfl
    | check e => rfl
    | unread fault path =>
      simp only [answerOf]
      split
      · rfl
      · rfl
    | walk e =>
      simp only [answerOf]
      split
      · rfl
      · rfl

/-! ## The command and the requests -/

/-- The request is valid and asks to check a text. -/
structure Request.AsksSource (request : Request) (r : SourceRequest) : Prop where
  method : request.method = "POST"
  route : route? request.url = some .source
  body : ∃ value, readBody request.body = .ok value ∧ readSourceRequest value = .ok r

theorem respond_of_asksSource {request : Request} {r : SourceRequest} (h : request.AsksSource r)
    (fs : FileSystem) (settings : Settings) (elapsed : Json) :
    (respond fs settings elapsed request).value = (scanSource r).value.response elapsed := by
  have hhandle : handle fs settings request = scanSource r := by
    obtain ⟨value, hbody, hread⟩ := h.body
    rw [handle, h.route]
    simp only [h.method, Route.method, beq_self_eq_true, if_true, answer, withBody, hbody, hread]
  have hhead : (request.method == "HEAD") = false := by rw [h.method]; rfl
  simp only [respond, bind, pure, Logged.after, hhandle, hhead, Bool.false_eq_true, if_false]

/-- The request asks to check the content of the file at a path, as a text of this path that is not
too long. -/
def Inline (fs : FileSystem) (path : String) (request : Request) : Prop :=
  ∃ content : String, request.AsksSource ⟨path, content⟩ ∧
    fs.read path = .ok (Text.bytesOf content).toArray ∧ content.length ≤ maxContent

/-- **A request about the content of a file is answered by the check of the file**: with what is
found in it, or with the error that refuses it. -/
theorem Inline.answer {fs : FileSystem} {path : String} {request : Request}
    (h : Inline fs path request) (settings : Settings) {elapsed : Json}
    (helapsed : elapsed.isWritable = true) :
    (∃ ds, (checkFile fs path).value = .ok ds ∧
        (respond fs settings elapsed request).value = found 1 (ds.map (·.message)) elapsed) ∨
      ∃ e, (checkFile fs path).value = .error (.refused e) ∧
        (respond fs settings elapsed request).value = told 422 e.render := by
  obtain ⟨content, hasks, hread, hlength⟩ := h
  rw [respond_of_asksSource hasks, checkFile_value hread, scanSource,
    if_neg (Nat.not_lt.2 hlength)]
  simp only [bind, pure, Logged.after]
  cases hcheck : (checkSource (Text.bytesOf content).toArray path).value with
  | ok ds => exact .inl ⟨ds, rfl, response_scanned helapsed 1 _⟩
  | error e =>
    obtain ⟨refused, rfl⟩ := checkSource_eq_error hcheck
    exact .inr ⟨refused, rfl, rfl⟩

/-- The outcome of a walk that ended well, by the answers about its files: all of them are checked,
or the first that is refused decides. -/
theorem outcome_of_inline {fs : FileSystem} (settings : Settings) {elapsed : Json}
    (helapsed : elapsed.isWritable = true) {visits : List Visit} {inline : List Request}
    (h : List.Forall₂ (Inline fs) (Walk.files ⟨visits, none⟩) inline) :
    (∃ checked, visitsOutcome fs none visits = .ok checked ∧
        inline.map (fun q => (respond fs settings elapsed q).value) =
          checked.map fun c => found 1 (c.2.map (·.message)) elapsed) ∨
      ∃ before q after e, inline = before ++ q :: after ∧
        (∀ p ∈ before, (respond fs settings elapsed p).value.status = 200) ∧
        (respond fs settings elapsed q).value = told 422 e.render ∧
        visitsOutcome fs none visits = .error (.refused e) := by
  induction visits generalizing inline with
  | nil =>
    cases h
    exact .inl ⟨[], rfl, rfl⟩
  | cons visit visits ih =>
    cases visit with
    | passedBy path => exact ih h
    | file path =>
      have hfiles : Walk.files ⟨.file path :: visits, none⟩ =
          path :: Walk.files ⟨visits, none⟩ := rfl
      rw [hfiles] at h
      cases h with
      | @cons _ q _ inline hfirst hrest =>
        rw [visitsOutcome]
        rcases hfirst.answer settings helapsed with ⟨ds, hcheck, hanswer⟩ | ⟨e, hcheck, hanswer⟩
        · rcases ih hrest with ⟨checked, houtcome, hanswers⟩ |
            ⟨before, q', after, e, rfl, hbefore, hanswer', houtcome⟩
          · refine .inl ⟨(path, ds) :: checked, ?_, ?_⟩
            · rw [hcheck, houtcome]
              rfl
            · rw [List.map_cons, hanswer, hanswers, List.map_cons]
          · refine .inr ⟨q :: before, q', after, e, rfl, ?_, hanswer', ?_⟩
            · exact List.forall_mem_cons.2 ⟨by rw [hanswer]; rfl, hbefore⟩
            · rw [hcheck, houtcome]
              rfl
        · refine .inr ⟨[], q, inline, e, rfl, fun p hp => absurd hp List.not_mem_nil, hanswer, ?_⟩
          rw [hcheck]

/-- The lines of a scan are those of its files. -/
theorem messages_ofChecked (checked : List CheckedFile) :
    (ScanResult.ofChecked checked).messages =
      (checked.map fun c => c.2.map (·.message)).flatten := by
  rw [ScanResult.messages, ScanResult.ofChecked, List.map_flatMap, List.flatMap]

/-- **A scan is put together from the answers about its files.**  Every directory of the walk can be
listed, and for each file that it yields there is a request about the content of the file.  If all
of these requests succeed, so does the scan: it counts the files and tells what the answers tell, in
their order.  Otherwise the scan is answered as the first request that does not succeed. -/
theorem scan_eq_inline (fs : FileSystem) (settings : Settings) {elapsed elapsed' : Json}
    (helapsed : elapsed.isWritable = true) (helapsed' : elapsed'.isWritable = true)
    {request : Request} {r : ScanRequest} (hasks : request.AsksScan r)
    (hlisted : (walk fs (r.selection settings) r.root).error = none) {inline : List Request}
    (hinline : List.Forall₂ (Inline fs) (walk fs (r.selection settings) r.root).files inline) :
    ((∀ q ∈ inline, (respond fs settings elapsed' q).value.status = 200) →
        ∃ messages : List (List String),
          inline.map (fun q => (respond fs settings elapsed' q).value) =
            messages.map (fun lines => found 1 lines elapsed') ∧
          (respond fs settings elapsed request).value =
            found inline.length messages.flatten elapsed) ∧
      ((∃ q ∈ inline, (respond fs settings elapsed' q).value.status ≠ 200) →
        ∃ before q after, inline = before ++ q :: after ∧
          (∀ p ∈ before, (respond fs settings elapsed' p).value.status = 200) ∧
          (respond fs settings elapsed' q).value.status ≠ 200 ∧
          (respond fs settings elapsed request).value = (respond fs settings elapsed' q).value ∧
          (respond fs settings elapsed request).value.status = 422) := by
  have hscan : (scan fs settings.endings r.path (r.includeTests.getD settings.includeTests)).value =
      ((walk fs (r.selection settings) r.root).outcome fs).map ScanResult.ofChecked :=
    scan_value fs settings.endings r.path (r.includeTests.getD settings.includeTests)
  have hanswer := answer_of_scan hasks fs settings helapsed
  rw [hscan, Walk.outcome, hlisted] at hanswer
  have hfiles : Walk.files ⟨(walk fs (r.selection settings) r.root).visits, none⟩ =
      (walk fs (r.selection settings) r.root).files := rfl
  rw [← hfiles] at hinline
  rcases outcome_of_inline settings helapsed' hinline with ⟨checked, houtcome, hanswers⟩ |
    ⟨before, q, after, e, rfl, hbefore, hrefused, houtcome⟩
  · have hmessages : inline.map (fun q => (respond fs settings elapsed' q).value) =
        (checked.map fun c => c.2.map (·.message)).map fun lines => found 1 lines elapsed' := by
      rw [hanswers, List.map_map]
      rfl
    refine ⟨fun _ => ⟨_, hmessages, ?_⟩, ?_⟩
    · have hlength : checked.length = inline.length := by
        simpa using (congrArg List.length hanswers).symm
      rw [hanswer, houtcome, ← messages_ofChecked, ← hlength]
      rfl
    · rintro ⟨q, hq, hstatus⟩
      have hmem : (respond fs settings elapsed' q).value ∈
          checked.map fun c => found 1 (c.2.map (·.message)) elapsed' := by
        rw [← hanswers]
        exact List.mem_map_of_mem hq
      obtain ⟨c, -, hc⟩ := List.mem_map.1 hmem
      rw [← hc] at hstatus
      exact absurd rfl hstatus
  · have hstatus : (respond fs settings elapsed' q).value.status ≠ 200 := by
      rw [hrefused]
      exact fun h => absurd (show 422 = 200 from h) (by decide)
    refine ⟨fun hall => ?_, fun _ => ⟨before, q, after, rfl, hbefore, hstatus, ?_, ?_⟩⟩
    · exact absurd (hall q (by simp)) hstatus
    · rw [hanswer, houtcome, hrefused]
      rfl
    · rw [hanswer, houtcome]
      rfl

/-- A file system with one file. -/
def plainSystem : FileSystem where
  top := [("z.go", .file (Text.bytesOf "package p\n").toArray)]

/-- A request to scan it. -/
def plainRequest : Request where
  url := "/scan"
  body := Text.bytesOf "\x7b\"path\": \".\"\x7d"

/-- A request about the content of its file. -/
def plainSource : Request where
  url := "/scan/source"
  body := Text.bytesOf "\x7b\"path\": \"z.go\", \"content\": \"package p\\n\"\x7d"

theorem plainSource_inline : Inline plainSystem "z.go" plainSource := by
  refine ⟨"package p\n", ⟨rfl, by with_unfolding_all decide, ?_⟩, by with_unfolding_all rfl,
    by decide⟩
  exact ⟨.object [("path", .ofText "z.go"), ("content", .ofText "package p\n")], by cbv, by cbv⟩

theorem plainSystem_walk : walk plainSystem {} "." = ⟨[.file "z.go"], none⟩ := by
  have hlist : plainSystem.list "." = .ok plainSystem.top := by with_unfolding_all rfl
  have hsorted : plainSystem.top.sorted = plainSystem.top := List.mergeSort_singleton _
  rw [walk, if_pos (FileSystem.isDirectory_iff.2 ⟨_, hlist⟩), pathBytesLimit, walkDirectory, hlist]
  simp only [hsorted]
  with_unfolding_all decide

theorem scan_eq_inline_plainSystem :
    plainRequest.AsksScan ⟨".", none⟩ ∧ Inline plainSystem "z.go" plainSource ∧
      ((respond plainSystem {} (.int 0) plainSource).value.status = 200 →
        ∃ lines, (respond plainSystem {} (.int 0) plainSource).value = found 1 lines (.int 0) ∧
          (respond plainSystem {} (.int 7) plainRequest).value = found 1 lines (.int 7)) ∧
      ((respond plainSystem {} (.int 0) plainSource).value.status ≠ 200 →
        (respond plainSystem {} (.int 7) plainRequest).value =
          (respond plainSystem {} (.int 0) plainSource).value) := by
  have hasks : plainRequest.AsksScan ⟨".", none⟩ :=
    ⟨rfl, by with_unfolding_all decide, .object [("path", .ofText ".")], by cbv, by cbv⟩
  have hwalk : walk plainSystem (ScanRequest.selection ⟨".", none⟩ {})
      (ScanRequest.root ⟨".", none⟩) = ⟨[.file "z.go"], none⟩ := plainSystem_walk
  have hfiles : List.Forall₂ (Inline plainSystem)
      (walk plainSystem (ScanRequest.selection ⟨".", none⟩ {})
        (ScanRequest.root ⟨".", none⟩)).files [plainSource] := by
    rw [hwalk]
    exact .cons plainSource_inline .nil
  have helapsed : ∀ n, (Json.int n).isWritable = true := fun n => rfl
  obtain ⟨hall, hfirst⟩ :=
    scan_eq_inline plainSystem {} (helapsed 7) (helapsed 0) hasks (by rw [hwalk]) hfiles
  refine ⟨hasks, plainSource_inline, fun hstatus => ?_, fun hstatus => ?_⟩
  · obtain ⟨messages, hanswers, hscan⟩ := hall (by simpa using hstatus)
    obtain ⟨lines, rest, rfl, hlines, hrest⟩ := List.map_eq_cons_iff.1 hanswers.symm
    obtain rfl := List.map_eq_nil_iff.1 hrest
    exact ⟨lines, hlines.symm, by simpa using hscan⟩
  · obtain ⟨before, q, after, hsplit, -, -, hscan, -⟩ :=
      hfirst ⟨_, List.mem_singleton_self _, hstatus⟩
    obtain ⟨rfl, rfl, rfl⟩ : before = [] ∧ q = plainSource ∧ after = [] := by
      cases before with
      | nil =>
        obtain ⟨hq, hafter⟩ := List.cons.inj hsplit
        exact ⟨rfl, hq.symm, hafter.symm⟩
      | cons first before =>
        obtain ⟨-, hrest⟩ := List.cons.inj hsplit
        exact absurd hrest (by simp)
    exact hscan

end Service

end GoGlobals
