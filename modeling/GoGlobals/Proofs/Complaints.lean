import GoGlobals.Proofs.Text.Cursor
import GoGlobals.Service.Submission

/-!
# Answers to invalid requests

An invalid request should be answered with what is wrong with it, whatever its body is and whatever
its content type says.  The answer shows two things of the request, and neither can always be shown.
The body is shown as a text in UTF-8, but a body is read in other encodings too, and one that is in
none of them can be refused as it is.  The complaints are shown in JSON with the values that they
are about, but what is read as JSON holds numbers without a value and lone surrogates, which cannot
be written as JSON, and a body that is not said to be JSON is complained about as bytes, which
cannot be written either.

Then the answer is a failure of the service.  What is wanted is that these are all the failures, and
that a request is safe from them if its body is JSON in UTF-8 that can be written again: a check
complains about nothing but parts of the value that it reads.

## What is here

* `Text.strictText?_eq_some_iff`: the text of bytes is the one that they are the UTF-8 form of.
* `complain_eq` says what the answer is, and `reject_response` that it is the one that the service
  gives to JSON.
* `Checked.Writes`: everything that is complained about can be written.  It holds of the readers of
  the two requests (`writes_readScanRequest`, `writes_readSourceRequest`).
* `respond_invalid` is the theorem, and `respond_untoldSubmissions` shows the ways to fail.
-/

set_option autoImplicit false

namespace GoGlobals

/-! ## Texts in UTF-8 -/

namespace Text

/-- **The text of bytes is the one that they are the UTF-8 form of.** -/
theorem strictText?_eq_some_iff {bytes : List UInt8} {text : String} :
    strictText? bytes = some text ↔ bytes = bytesOf text := by
  constructor
  · intro h
    rw [strictText?] at h
    split at h
    · rename_i hall
      have hchars : ∀ width, Piece.broken width ∉ decode bytes := fun width hmem =>
        absurd (List.all_eq_true.1 hall _ hmem) (by simp [Piece.is])
      rw [← Option.some.inj h, bytesOf, String.toList_ofList]
      exact decode_eq_map_char_iff.1 (map_char_map_toChar hchars).symm
    · exact absurd h (by simp)
  · rintro rfl
    have hdecode : decode (bytesOf text) = text.toList.map Piece.char := decode_flatMap text.toList
    have hall : (text.toList.map Piece.char).all (Piece.is fun _ => true) = true := by
      rw [List.all_map]
      exact List.all_eq_true.2 fun c _ => rfl
    have hid : (Piece.toChar ∘ Piece.char) = id := rfl
    rw [strictText?, hdecode]
    simp only [hall, if_true, List.map_map, hid, List.map_id, String.ofList_toList]

end Text

/-! ## What can be written -/

namespace Json

theorem allWritable_iff {vs : List Json} :
    allWritable vs = true ↔ ∀ v ∈ vs, v.isWritable = true := by
  induction vs with
  | nil => simp [allWritable]
  | cons v vs ih => rw [allWritable, Bool.and_eq_true, ih, List.forall_mem_cons]

theorem isWritable_of_lookup {members : List (JsonString × Json)} {name : String} {v : Json}
    (hmembers : (obj members).isWritable = true) (h : lookup members name = some v) :
    v.isWritable = true := by
  rw [isWritable] at hmembers
  induction members with
  | nil => exact absurd h (by simp [lookup])
  | cons m ms ih =>
    obtain ⟨name', v'⟩ := m
    rw [allMembersWritable.eq_def, Bool.and_eq_true, Bool.and_eq_true] at hmembers
    obtain ⟨⟨-, hv'⟩, hms⟩ := hmembers
    rw [lookup, List.find?_cons] at h
    split at h
    · exact Option.some.inj h ▸ hv'
    · exact ih hms h

end Json

/-- The entry about a problem can be written if the value that it shows can. -/
theorem isWritable_detail (p : Problem) : p.detail.isWritable = p.input.isWritable := by
  have hway : Json.allWritable (p.way.map Waypoint.json) = true := by
    refine Json.allWritable_iff.2 fun v hv => ?_
    obtain ⟨step, -, rfl⟩ := List.mem_map.1 hv
    cases step <;> rfl
  have hcontext : (Json.object p.kind.context).isWritable = true := by
    cases p.kind <;> rfl
  rw [Problem.detail, Json.object, Json.isWritable]
  split <;> simp [Json.allMembersWritable, Json.isWritable, Json.ofText, hway, hcontext]

namespace Service

/-! ## The answer with complaints -/

/-- The complaint can be told: it shows a value, and one that can be written. -/
def Complaint.IsTellable (c : Complaint) : Prop :=
  ∃ v, c.shown = .value v ∧ v.isWritable = true

/-- The answer that tells the complaints and the start of the body. -/
def complaintsTold (details : List Json) (text : String) : Response :=
  ⟨422, .json (.object [("detail", .arr details),
    ("body", .ofText (String.ofList (text.toList.take 100)))])⟩

theorem isWritable_answer {details : List Json} {text : String} :
    (Json.object [("detail", .arr details), ("body", .ofText text)]).isWritable =
      Json.allWritable details := by
  simp [Json.object, Json.isWritable, Json.allMembersWritable, Json.ofText]

/-- The entries about complaints can all be made and written exactly if the complaints can be
told. -/
theorem tellable_iff {complaints : List Complaint} :
    (∀ c ∈ complaints, c.IsTellable) ↔
      ∃ details, complaints.mapM Complaint.detail? = some details ∧
        Json.allWritable details = true := by
  induction complaints with
  | nil => simp [Json.allWritable]
  | cons c cs ih =>
    have hc : c.IsTellable ↔ ∃ d, c.detail? = some d ∧ d.isWritable = true := by
      obtain ⟨kind, way, shown⟩ := c
      cases shown with
      | value v => simp [Complaint.IsTellable, Complaint.detail?, isWritable_detail]
      | bytes bs => simp [Complaint.IsTellable, Complaint.detail?]
    rw [List.forall_mem_cons, hc, ih, List.mapM_cons]
    constructor
    · rintro ⟨⟨d, hd, hwritable⟩, ds, hds, hall⟩
      refine ⟨d :: ds, by rw [hd, hds]; rfl, ?_⟩
      rw [Json.allWritable, hwritable, hall, Bool.and_self]
    · rintro ⟨details, hdetails, hall⟩
      cases hd : c.detail? with
      | none =>
        rw [hd] at hdetails
        exact absurd hdetails (by simp)
      | some d =>
        cases hds : cs.mapM Complaint.detail? with
        | none =>
          rw [hd, hds] at hdetails
          exact absurd hdetails (by simp)
        | some ds =>
          rw [hd, hds] at hdetails
          obtain rfl : d :: ds = details := Option.some.inj hdetails
          rw [Json.allWritable, Bool.and_eq_true] at hall
          exact ⟨⟨d, rfl, hall.1⟩, ds, rfl, hall.2⟩

/-- **What is told**: a body in UTF-8, and complaints that can be told. -/
theorem complain_eq {complaints : List Complaint} (htell : ∀ c ∈ complaints, c.IsTellable)
    (text : String) :
    ∃ details, complaints.mapM Complaint.detail? = some details ∧
      complain (Text.bytesOf text) complaints = complaintsTold details text := by
  obtain ⟨details, hdetails, hall⟩ := tellable_iff.1 htell
  refine ⟨details, hdetails, ?_⟩
  have htext : Text.strictText? (Text.bytesOf text) = some text :=
    Text.strictText?_eq_some_iff.2 rfl
  rw [complain, htext, hdetails]
  simp only []
  rw [send, if_pos (by rw [isWritable_answer, hall])]
  rfl

/-- Everything else is a failure. -/
theorem complain_eq_failure {body : List UInt8} {complaints : List Complaint}
    (h : (∀ text, body ≠ Text.bytesOf text) ∨ ∃ c ∈ complaints, ¬ c.IsTellable) :
    complain body complaints = failure := by
  rw [complain]
  split
  · rename_i text details htext hdetails
    rcases h with hbody | ⟨c, hc, hnot⟩
    · exact absurd (Text.strictText?_eq_some_iff.1 htext) (hbody text)
    · have hwritable : Json.allWritable details ≠ true := fun hall =>
        hnot (tellable_iff.2 ⟨details, hdetails, hall⟩ c hc)
      rw [send, if_neg (by rw [isWritable_answer]; exact hwritable)]
  · rfl

/-! ## Bodies that are said to be JSON -/

section

variable {α : Type}

theorem isTellable_ofProblem {p : Problem} :
    (Complaint.ofProblem p).IsTellable ↔ p.input.isWritable = true := by
  simp [Complaint.IsTellable, Complaint.ofProblem]

/-- An invalid body of JSON is answered with the complaints about its problems. -/
theorem reject_response (body : List UInt8) (problems : List Problem) (elapsed : Json) :
    (reject body problems).value.response elapsed =
      complain body (problems.map Complaint.ofProblem) := by
  have hdetails : (problems.map Complaint.ofProblem).mapM Complaint.detail? =
      some (problems.map fun p => Problem.detail { p with way := .field "body" :: p.way }) := by
    induction problems with
    | nil => rfl
    | cons p ps ih => rw [List.map_cons, List.mapM_cons, ih]; rfl
  rw [reject, complain, hdetails]
  cases Text.strictText? body with
  | none => rfl
  | some text =>
    simp only [bind, Logged.after, Logged.tell, pure, Reply.response, List.map_map]
    rfl

/-- An answer to a body that is said to be JSON is the one with complaints if there are any. -/
theorem withBody_response {body : List UInt8} {read : Json → Checked α}
    {complaints : List Complaint} (h : complaintsOf? true body read = some complaints)
    (answer : α → Logged Reply) (elapsed : Json) :
    (withBody body read answer).value.response elapsed = complain body complaints := by
  rw [complaintsOf?, Bool.true_or, if_pos rfl] at h
  rw [withBody]
  cases hbody : readBody body with
  | error e =>
    rw [hbody] at h
    cases e with
    | problem p =>
      obtain rfl := Option.some.inj h
      exact reject_response body [p] elapsed
    | unreadable => exact absurd h (by simp)
  | ok value =>
    rw [hbody] at h
    cases hread : read value with
    | error problems =>
      simp only [hread] at h
      obtain rfl := Option.some.inj h
      simp only [hread]
      exact reject_response body problems elapsed
    | ok request =>
      simp only [hread] at h
      exact absurd h (by simp)

/-- **Under a content type that says JSON, the service answers as it answers a request.** -/
theorem Submission.respond_eq {s : Submission} (h : s.declaresJson = true) (fs : FileSystem)
    (settings : Settings) (elapsed : Json) :
    s.respond fs settings elapsed = (Service.respond fs settings elapsed s.request).value := by
  rw [Submission.respond]
  cases hcomplaints : s.complaints? with
  | none => rfl
  | some complaints =>
    rw [Submission.complaints?, h] at hcomplaints
    cases hroute : route? s.request.url with
    | none =>
      rw [hroute] at hcomplaints
      exact absurd hcomplaints (by simp)
    | some route =>
      simp only [hroute] at hcomplaints
      split at hcomplaints
      · rename_i hmethod
        have hhead : (s.request.method == "HEAD") = false := by
          rw [beq_iff_eq.1 hmethod]
          cases route <;> rfl
        simp only [Service.respond, handle, hroute, hmethod, if_true, bind, pure, Logged.after,
          hhead, Bool.false_eq_true, if_false]
        cases route with
        | health => exact absurd hcomplaints (by simp)
        | scan => exact (withBody_response hcomplaints _ elapsed).symm
        | source => exact (withBody_response hcomplaints _ elapsed).symm
      · exact absurd hcomplaints (by simp)

end

end Service

/-! ## What a check complains about -/

/-- Everything that is complained about can be written. -/
def Checked.Writes {α : Type} (c : Checked α) : Prop :=
  ∀ ps, c = .error ps → ∀ p ∈ ps, p.input.isWritable = true

/-- Reading a value that can be written complains about nothing else. -/
def ReadsWritable {α : Type} (read : Json → Checked α) : Prop :=
  ∀ v, v.isWritable = true → (read v).Writes

section

variable {α β : Type} {read : Json → Checked α}

namespace Checked

theorem writes_ok (a : α) : Writes (.ok a : Checked α) :=
  fun _ h => absurd h (by simp)

theorem writes_problem {v : Json} (h : v.isWritable = true) (kind : ProblemKind) :
    Writes (problem kind v : Checked α) := by
  intro ps hps p hp
  obtain rfl := Except.error.inj hps
  rw [List.mem_singleton.1 hp]
  exact h

theorem Writes.map {c : Checked α} (h : c.Writes) (f : α → β) : Writes (Except.map f c) := by
  cases c with
  | ok a => exact writes_ok _
  | error ps => exact fun _ hps => Except.error.inj hps ▸ h ps rfl

theorem Writes.both {c : Checked α} {d : Checked β} (hc : c.Writes) (hd : d.Writes) :
    (Checked.both c d).Writes := by
  cases c with
  | ok a =>
    cases d with
    | ok b => exact writes_ok _
    | error qs => exact fun _ hps => Except.error.inj hps ▸ hd qs rfl
  | error ps =>
    cases d with
    | ok b => exact fun _ hps => Except.error.inj hps ▸ hc ps rfl
    | error qs =>
      intro _ hps p hp
      obtain rfl := Except.error.inj hps
      exact (List.mem_append.1 hp).elim (hc ps rfl p) (hd qs rfl p)

theorem Writes.under {c : Checked α} (h : c.Writes) (step : Waypoint) :
    (Checked.under step c).Writes := by
  cases c with
  | ok a => exact writes_ok _
  | error ps =>
    intro _ hps p hp
    obtain rfl := Except.error.inj hps
    obtain ⟨q, hq, rfl⟩ := List.mem_map.1 hp
    exact h ps rfl q hq

end Checked

/-- A field complains about the object or about its own value. -/
theorem writes_required (hread : ReadsWritable read) {o : Object}
    (ho : (Json.obj o.members).isWritable = true) (name : String) :
    (o.required name read).Writes := by
  refine Checked.Writes.under ?_ _
  split
  · rename_i v hv
    exact hread v (Json.isWritable_of_lookup ho hv)
  · exact Checked.writes_problem ho _

theorem writes_optional (hread : ReadsWritable read) {o : Object}
    (ho : (Json.obj o.members).isWritable = true) (name : String) (absent : α) :
    (o.optional name absent read).Writes := by
  rw [Object.optional]
  split
  · rename_i v hv
    exact (hread v (Json.isWritable_of_lookup ho hv)).under _
  · exact Checked.writes_ok _

theorem readsWritable_readObject {readFields : Object → Checked α}
    (hread : ∀ o : Object, (Json.obj o.members).isWritable = true → (readFields o).Writes)
    (kind : ProblemKind) : ReadsWritable (readObject kind readFields) := by
  intro v hv
  rw [readObject.eq_def]
  split
  · exact hread _ hv
  · exact Checked.writes_problem hv kind

/-- A reader of a single value complains about this value. -/
theorem readsWritable_readString : ReadsWritable readString := by
  intro v hv
  rw [readString.eq_def]
  split
  · exact Checked.writes_ok _
  · exact Checked.writes_problem hv _
  · exact Checked.writes_problem hv _

theorem readsWritable_readBool : ReadsWritable readBool := by
  intro v hv
  unfold readBool
  extract_lets read
  cases read with
  | ok b => exact Checked.writes_ok _
  | error kind => exact Checked.writes_problem hv kind

theorem readsWritable_readBoolOrNull : ReadsWritable readBoolOrNull := by
  intro v hv
  rw [readBoolOrNull.eq_def]
  split
  · exact Checked.writes_ok _
  · exact (readsWritable_readBool v hv).map some

namespace Service

theorem readsWritable_readLongString (n : Nat) : ReadsWritable (readLongString n) := by
  intro v hv
  rw [readLongString]
  split
  · split
    · exact Checked.writes_problem hv _
    · exact Checked.writes_ok _
  · rename_i ps hps
    exact fun _ hps' => Except.error.inj hps' ▸ readsWritable_readString v hv ps hps

theorem readsWritable_readScanRequest : ReadsWritable readScanRequest :=
  readsWritable_readObject (fun _ ho =>
    ((writes_required (readsWritable_readLongString 1) ho "path").both
      (writes_optional readsWritable_readBoolOrNull ho "include_tests" none)).map _) _

theorem readsWritable_readSourceRequest : ReadsWritable readSourceRequest :=
  readsWritable_readObject (fun _ ho =>
    ((writes_optional readsWritable_readString ho "path" "main.go").both
      (writes_required readsWritable_readString ho "content")).map _) _

end Service

end

namespace Service

/-! ## Invalid requests -/

/-- A problem with the body as a whole shows nothing of it. -/
theorem isWritable_of_readBody {body : List UInt8} {p : Problem}
    (h : readBody body = .error (.problem p)) : p.input.isWritable = true := by
  rw [readBody] at h
  split at h
  · obtain rfl := BodyError.problem.inj (Except.error.inj h)
    rfl
  split at h
  · exact absurd h (by simp)
  split at h
  · exact absurd h (by simp)
  · obtain rfl := BodyError.problem.inj (Except.error.inj h)
    rfl
  · exact absurd h (by simp)
  · exact absurd h (by simp)

/-- The body is not taken as bytes, and what is read from it can be written. -/
structure Submission.Safe (s : Submission) : Prop where
  json : s.declaresJson = true ∨ s.request.body = []
  value : ∀ v, readBody s.request.body = .ok v → v.isWritable = true

theorem Submission.Safe.tellable_of_read {α : Type} {s : Submission} (hs : s.Safe)
    {read : Json → Checked α} (hread : ReadsWritable read) {complaints : List Complaint}
    (h : complaintsOf? s.declaresJson s.request.body read = some complaints) :
    ∀ c ∈ complaints, c.IsTellable := by
  have hjson : (s.declaresJson || s.request.body.isEmpty) = true := by
    rcases hs.json with h | h <;> simp [h]
  rw [complaintsOf?, if_pos hjson] at h
  split at h
  · exact absurd h (by simp)
  · rename_i p hbody
    obtain rfl := Option.some.inj h
    intro c hc
    rw [List.mem_singleton.1 hc, isTellable_ofProblem]
    exact isWritable_of_readBody hbody
  · rename_i v hbody
    split at h
    · rename_i problems hproblems
      obtain rfl := Option.some.inj h
      intro c hc
      obtain ⟨p, hp, rfl⟩ := List.mem_map.1 hc
      exact isTellable_ofProblem.2 (hread v (hs.value v hbody) problems hproblems p hp)
    · exact absurd h (by simp)

/-- **A safe request has complaints that can be told.** -/
theorem Submission.Safe.tellable {s : Submission} (hs : s.Safe) {complaints : List Complaint}
    (h : s.complaints? = some complaints) : ∀ c ∈ complaints, c.IsTellable := by
  rw [Submission.complaints?] at h
  split at h
  · exact absurd h (by simp)
  split at h
  · split at h
    · exact absurd h (by simp)
    · exact hs.tellable_of_read readsWritable_readScanRequest h
    · exact hs.tellable_of_read readsWritable_readSourceRequest h
  · exact absurd h (by simp)

/-- **An invalid request is answered with what is wrong with it** if its body is a text in UTF-8 and
all complaints about it can be told: with the status 422, an entry for every complaint and the first
hundred characters of the body.  Otherwise the service fails.  All complaints can be told if the
body is said to be JSON, or empty, and the value that is read from it, if one is, can be written.
For a body that is said to be JSON, this is the answer of the service. -/
theorem respond_invalid (fs : FileSystem) (settings : Settings) (elapsed : Json) {s : Submission}
    {complaints : List Complaint} (h : s.complaints? = some complaints) :
    (∀ text, s.request.body = Text.bytesOf text → (∀ c ∈ complaints, c.IsTellable) →
      ∃ details, complaints.mapM Complaint.detail? = some details ∧
        s.respond fs settings elapsed = complaintsTold details text) ∧
    ((∀ text, s.request.body ≠ Text.bytesOf text) ∨ (∃ c ∈ complaints, ¬ c.IsTellable) →
      s.respond fs settings elapsed = failure) ∧
    (s.Safe → ∀ c ∈ complaints, c.IsTellable) ∧
    (s.declaresJson = true →
      s.respond fs settings elapsed = (Service.respond fs settings elapsed s.request).value) := by
  have hrespond : s.respond fs settings elapsed = complain s.request.body complaints := by
    rw [Submission.respond, h]
  refine ⟨fun text htext htell => ?_, fun hfails => ?_, fun hs => hs.tellable h,
    fun hjson => Submission.respond_eq hjson fs settings elapsed⟩
  · rw [hrespond, htext]
    exact complain_eq htell text
  · rw [hrespond]
    exact complain_eq_failure hfails

/-- A request to scan without a path. -/
def pathlessSubmission : Submission where
  request := { url := "/scan", body := Text.bytesOf "\x7b\"include_tests\": 2\x7d" }

theorem pathlessSubmission_safe : pathlessSubmission.Safe := by
  refine ⟨.inl rfl, fun v hv => ?_⟩
  have hall : (readBody pathlessSubmission.request.body).toOption.all Json.isWritable = true := by
    decide +kernel
  rw [hv] at hall
  exact hall

/-- Two things are wrong with it, and both are told. -/
theorem respond_pathlessSubmission :
    ∃ complaints details, pathlessSubmission.complaints? = some complaints ∧
      complaints.map (·.kind) = [.missing, .boolParsing] ∧
      complaints.mapM Complaint.detail? = some details ∧
      pathlessSubmission.respond ⟨[], []⟩ {} .null =
        complaintsTold details "\x7b\"include_tests\": 2\x7d" := by
  have hkinds : pathlessSubmission.complaints?.map (·.map (·.kind)) =
      some [.missing, .boolParsing] := by
    decide +kernel
  obtain ⟨complaints, hcomplaints, hmap⟩ := Option.map_eq_some_iff.1 hkinds
  obtain ⟨htold, -, htell, -⟩ := respond_invalid ⟨[], []⟩ {} .null hcomplaints
  obtain ⟨details, hdetails, hrespond⟩ := htold _ rfl (htell pathlessSubmission_safe)
  exact ⟨complaints, details, hcomplaints, hmap, hdetails, hrespond⟩

/-- Invalid requests whose body is in UTF-16, holds a number without a value, holds a lone
surrogate, or is not said to be JSON. -/
def untoldSubmissions : List Submission := [
  { request := { url := "/scan", body := [0xff, 0xfe, 0x7b, 0x00, 0x7d, 0x00] } },
  { request := { url := "/scan", body := Text.bytesOf "\x7b\"path\": NaN\x7d" } },
  { request := { url := "/scan/source", body := Text.bytesOf "[\"\\ud800\"]" } },
  { request := { url := "/scan", body := Text.bytesOf "path=d" }, declaresJson := false }]

/-- **There is something to complain about in each of them, and the service fails.** -/
theorem respond_untoldSubmissions :
    (untoldSubmissions.all fun s =>
      s.complaints?.isSome && (s.respond ⟨[], []⟩ {} .null).status == 500) = true := by
  decide +kernel

end Service

end GoGlobals
