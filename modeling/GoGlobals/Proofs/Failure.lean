import GoGlobals.Proofs.Service

/-!
# How a scan can fail

Not every error that can be written down comes up.  A scan of a valid file system fails for one of
two reasons: a file is refused, or a path cannot be followed and the system has a number for that.
Those are the errors that the callers of a scan are prepared for.

The others are out of reach.  A group with values and no names is never read from a text, so the
verdict on a text that was read does not fail (`checkSource_eq_error`).  A path with a NUL character
cannot be followed for a reason that has no number, but neither the root, which has to be there, nor
a name below it has such a character (`Selection.Lists.no_nul`, `Selection.Meets.no_nul`).
-/

set_option autoImplicit false

namespace GoGlobals

open Text (Source)

/-! ## Texts and files -/

/-- A text that cannot be checked is refused. -/
theorem checkSource_eq_error {content : Source} {path : String} {e : ScanError}
    (h : (checkSource content path).value = .error e) : ∃ refused, e = .refused refused := by
  cases hread : SourceFile.read content path with
  | error refusal =>
    have hvalue : readSource content path =
        ⟨refusal.records path, .error (.refused (refusal.error path))⟩ := by
      delta readSource
      rw [hread]
    simp only [checkSource, hvalue, bind, pure, Logged.after] at h
    exact ⟨_, (Except.error.inj h).symm⟩
  | ok file =>
    have hvalue : readSource content path = ⟨[], .ok file⟩ := by
      delta readSource
      rw [hread]
    obtain ⟨root, hparse, rfl⟩ := SourceFile.exists_root_of_read hread
    obtain ⟨-, -, ds, hcheck, -⟩ := (Go.root_of_parse? hparse).placed_extract path
    simp only [checkSource, hvalue, bind, Logged.after, checkDeclarations, hcheck] at h
    exact absurd h (by simp [Except.mapError])

/-- A file that cannot be checked cannot be read, or it is refused. -/
theorem checkFile_eq_error {fs : FileSystem} {path : String} {e : ScanError}
    (h : (checkFile fs path).value = .error e) :
    (∃ fault, fs.read path = .error fault ∧ e = .unread fault path) ∨
      ∃ refused, e = .refused refused := by
  cases hread : fs.read path with
  | error fault =>
    rw [checkFile, hread] at h
    exact .inl ⟨fault, rfl, (Except.error.inj h).symm⟩
  | ok content =>
    rw [checkFile_value hread] at h
    exact .inr (checkSource_eq_error h)

/-! ## Paths without NUL -/

theorem resolveFrom_ne_nul {follows : Bool} {n : Nat} {t : Trail} {cs : List String} :
    resolveFrom follows n t cs ≠ .error .nul := by
  induction n, t, cs using components_induction with
  | nil n t => simp [resolveFrom_nil]
  | blank n t c cs hblank ih => rwa [resolveFrom_of_blank hblank]
  | up n t cs ih => rwa [resolveFrom_of_dots]
  | long n t c cs hblank hdots hlong => simp [resolveFrom_of_long hblank hdots hlong]
  | name n t c cs hname ihdown ihlink =>
    rw [hname.resolveFrom]
    cases hget : t.entries.get? c with
    | none => simp
    | some e =>
      cases e with
      | file content => cases cs <;> simp
      | directory inner => exact ihdown inner hget
      | link path =>
        by_cases hlast : (cs.isEmpty && !follows) = true
        · simp [hlast]
        · cases n with
          | zero => simp [hlast]
          | succ n => simpa [hlast] using ihlink path n rfl hget

namespace FileSystem

variable {fs : FileSystem} {path : String}

/-- Only a path with a NUL character is at fault for it. -/
theorem resolve_ne_nul (h : '\x00' ∉ path.toList) : fs.resolve path ≠ .error .nul := by
  rw [resolve, pathFault?, if_neg (by simpa using h)]
  split
  · rename_i fault hfault
    split at hfault
    · simp [← Option.some.inj hfault]
    · split at hfault
      · simp [← Option.some.inj hfault]
      · exact absurd hfault (by simp)
  · exact resolveFrom_ne_nul

theorem read_ne_nul (h : '\x00' ∉ path.toList) : fs.read path ≠ .error .nul := by
  have hresolve := fs.resolve_ne_nul h
  rw [read]
  split
  · rename_i fault hfault
    intro heq
    rw [Except.error.inj heq] at hfault
    exact hresolve hfault
  · simp
  · simp
  · simp

theorem list_ne_nul (h : '\x00' ∉ path.toList) : fs.list path ≠ .error .nul := by
  have hresolve := fs.resolve_ne_nul h
  rw [list]
  split
  · rename_i fault hfault
    intro heq
    rw [Except.error.inj heq] at hfault
    exact hresolve hfault
  · simp
  · simp
  · simp

theorem no_nul_of_pathExists (h : fs.pathExists path = true) : '\x00' ∉ path.toList := by
  intro hnul
  rw [pathExists, resolve, pathFault?, if_pos (by simpa using hnul)] at h
  exact absurd h (by simp [Except.isOk, Except.toBool])

end FileSystem

namespace Selection

variable {s : Selection} {fs : FileSystem} {root : String}

theorem Lists.no_nul (hfs : fs.Valid) (hroot : fs.isDirectory root = true) {directory : String}
    (h : s.Lists fs root directory) : '\x00' ∉ directory.toList := by
  induction h with
  | root => exact FileSystem.no_nul_of_isDirectory hroot
  | inside _ hlist hmem _ ih =>
    exact Path.no_nul_normalize_join ((FileSystem.list_valid hfs hlist).proper _ hmem) ih

theorem Meets.no_nul (hfs : fs.Valid) (hroot : fs.isDirectory root = true) {path : String}
    {found : Target} (h : s.Meets fs root path found) : '\x00' ∉ path.toList := by
  obtain ⟨directory, es, location, name, hlists, hresolve, hmem, hpath, -⟩ := h
  have hes := FileSystem.list_valid hfs (FileSystem.list_of_resolve hresolve)
  rw [hpath]
  exact Path.no_nul_normalize_join (hes.proper _ hmem) (hlists.no_nul hfs hroot)

end Selection

/-! ## The errors of a scan -/

/-- The error is one of those that the callers of a scan are prepared for: a file is refused, or the
system has a number for what is wrong with a path. -/
def ScanError.IsForeseen : ScanError → Prop
  | refused _ => True
  | unread fault _ => fault.system?.isSome = true
  | walk (.noRoot _) => True
  | walk (.unlisted fault _) => fault.system?.isSome = true
  | check _ => False

theorem PathFault.system?_isSome {fault : PathFault} (h : fault ≠ .nul) :
    fault.system?.isSome = true := by
  cases fault with
  | nul => exact absurd rfl h
  | _ => rfl

theorem isForeseen_checkFile {fs : FileSystem} {path : String} {e : ScanError}
    (hnul : '\x00' ∉ path.toList) (h : (checkFile fs path).value = .error e) : e.IsForeseen := by
  rcases checkFile_eq_error h with ⟨fault, hread, rfl⟩ | ⟨refused, rfl⟩
  · refine PathFault.system?_isSome ?_
    rintro rfl
    exact FileSystem.read_ne_nul hnul hread
  · trivial

/-- What ends a walk early is foreseen, and none of the paths of its files has a NUL character. -/
theorem walk_isForeseen {fs : FileSystem} (hfs : fs.Valid) (s : Selection) (root : String) :
    (∀ path ∈ (walk fs s root).files, '\x00' ∉ path.toList) ∧
      ∀ error, (walk fs s root).error = some error → (ScanError.walk error).IsForeseen := by
  cases hroot : fs.isDirectory root with
  | true =>
    have hexplains := explains_walk hfs s hroot
    refine ⟨fun path hpath => ?_, fun error herror => ?_⟩
    · obtain ⟨found, hmeets, -⟩ := hexplains.files path hpath
      exact hmeets.no_nul hfs hroot
    · obtain ⟨fault, directory, rfl, hlists, hlist⟩ := hexplains.error error herror
      refine PathFault.system?_isSome ?_
      rintro rfl
      exact FileSystem.list_ne_nul (hlists.no_nul hfs hroot) hlist
  | false =>
    rw [walk, if_neg (by simp [hroot])]
    split
    · refine ⟨fun path hpath => absurd hpath List.not_mem_nil, fun error herror => ?_⟩
      obtain rfl := Option.some.inj herror
      trivial
    · rename_i hexists
      have hnul := fs.no_nul_of_pathExists (by simpa using hexists)
      split
      · refine ⟨fun path hpath => ?_, fun error herror => absurd herror (by simp)⟩
        rwa [List.mem_singleton.1 hpath]
      · exact ⟨fun path hpath => absurd hpath List.not_mem_nil,
          fun error herror => absurd herror (by simp)⟩

/-- **A scan fails only in ways that are foreseen.** -/
theorem scan_isForeseen {fs : FileSystem} (hfs : fs.Valid) {endings : Path.Endings} {path : String}
    {includeTests : Bool} {e : ScanError}
    (h : (scan fs endings path includeTests).value = .error e) : e.IsForeseen := by
  obtain ⟨hfiles, herror⟩ := walk_isForeseen hfs (selectionOf path endings includeTests).2
    (selectionOf path endings includeTests).1
  rcases Walk.outcome_eq_error_iff.1 ((scan_eq_error_iff rfl).1 h) with
    ⟨path, hstops⟩ | ⟨-, error, hearly, rfl⟩
  · exact isForeseen_checkFile (hfiles path hstops.mem) hstops.value
  · exact herror error hearly

end GoGlobals
