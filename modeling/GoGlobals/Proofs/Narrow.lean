import GoGlobals.Proofs.Order

/-!
# Narrower scans

A scan can be asked for less: without the tests, or without the directories below its root.  What it
then finds is what the wider scan found, less what belongs to the files that were left out, in the
same order.  The two scans walk the same directories with different selections, and so the wide walk
may meet files, and whole directories of files, between two that both meet.

Only one direction can hold.  The wide scan may fail at a file that the narrow one leaves out, so
what is wanted is about a wide scan that succeeds.  The narrow scan by itself depends on nothing
that it leaves out.

## What is here

* `Path.liesIn`: does a path lie in a directory itself?
* `Walk.Narrows`: if a walk ends well, another does, and meets those of its files that are kept.
  It is put together entry by entry (`narrows_entries`), for leaving out tests (`narrows_tests`) and
  for leaving out directories (`narrows_flat`).
* `walk_of_flat`: a walk that enters no directories looks at the entries of its root only.
* `scan_narrowed` is the theorem.
-/

set_option autoImplicit false

namespace GoGlobals

open GoGlobals.Path (ProperName cleanComponents)

namespace Path

/-! ## Paths in a directory -/

/-- Does a path lie in a directory itself, and not deeper?  Then its clean form is that of the
directory with one more name. -/
def liesIn (path directory : String) : Bool :=
  leadingSlashes path.toList == leadingSlashes directory.toList &&
    (cleanComponents path).getLast?.any fun name =>
      name != ".." && cleanComponents path == cleanComponents directory ++ [name]

theorem liesIn_iff {path directory : String} : liesIn path directory = true ↔
    leadingSlashes path.toList = leadingSlashes directory.toList ∧
      ∃ name, name ≠ ".." ∧ cleanComponents path = cleanComponents directory ++ [name] := by
  rw [liesIn, Bool.and_eq_true, beq_iff_eq]
  refine and_congr_right fun _ => ⟨fun h => ?_, ?_⟩
  · cases hlast : (cleanComponents path).getLast? with
    | none =>
      rw [hlast] at h
      exact absurd h (by simp)
    | some name =>
      rw [hlast] at h
      exact ⟨name, by simpa using h⟩
  · rintro ⟨name, hname, hclean⟩
    rw [hclean, List.getLast?_concat]
    simpa using hname

/-! ## Roots with and without the marker -/

theorem splitRecursive_marker (root : String) :
    splitRecursive (root ++ recursiveMarker) = (root, true) := by
  have hends : endsWith (root ++ recursiveMarker) recursiveMarker = true := by
    rw [endsWith, String.toList_append]
    exact List.isSuffixOf_iff_suffix.2 (List.suffix_append _ _)
  rw [splitRecursive, if_pos hends, String.toList_append, List.length_append,
    Nat.add_sub_cancel, List.take_left, String.ofList_toList]

end Path

theorem selectionOf_marker (root : String) (endings : Path.Endings) (includeTests : Bool) :
    selectionOf (root ++ Path.recursiveMarker) endings includeTests =
      (root, ⟨endings, includeTests, true⟩) := by
  rw [selectionOf, Path.splitRecursive_marker]

theorem selectionOf_of_no_marker {root : String}
    (h : Path.endsWith root Path.recursiveMarker = false) (endings : Path.Endings)
    (includeTests : Bool) :
    selectionOf root endings includeTests = (root, ⟨endings, includeTests, false⟩) := by
  rw [selectionOf, Path.splitRecursive, if_neg (by simp [h])]

/-! ## Narrower walks -/

/-- If the wide walk ends well, so does the narrow one, and it meets those files of the wide one
that are kept. -/
def Walk.Narrows (keep : String → Bool) (narrow wide : Walk) : Prop :=
  wide.error = none → narrow.error = none ∧ narrow.files = wide.files.filter keep

theorem Walk.Narrows.append {keep : String → Bool} {narrow wide next next' : Walk}
    (h : narrow.Narrows keep wide) (hnext : next.Narrows keep next') :
    (narrow.append next).Narrows keep (wide.append next') := by
  intro herror
  obtain ⟨hwide, hnext'⟩ := Walk.error_append_eq_none.1 herror
  obtain ⟨hnarrow, hfiles⟩ := h hwide
  obtain ⟨hdone, hrest⟩ := hnext hnext'
  refine ⟨Walk.error_append_eq_none.2 ⟨hnarrow, hdone⟩, ?_⟩
  rw [Walk.files_append hnarrow, Walk.files_append hwide, List.filter_append, hfiles, hrest]

section

variable {fs : FileSystem} {narrow wide : Selection} {root directory : String}
  {enter enter' : String → Walk} {keep : String → Bool}

/-- A walk through entries is narrower if it is so at every entry. -/
theorem narrows_entries {es : Entries}
    (h : ∀ name e, (name, e) ∈ es →
      (walkEntry narrow root enter (entryPath directory name) e.isDirectory).Narrows keep
        (walkEntry wide root enter' (entryPath directory name) e.isDirectory)) :
    (walkEntries narrow root enter directory es).Narrows keep
      (walkEntries wide root enter' directory es) := by
  induction es with
  | nil => exact fun _ => ⟨rfl, rfl⟩
  | cons entry es ih =>
    obtain ⟨name, e⟩ := entry
    rw [walkEntries_cons, walkEntries_cons]
    exact (h name e List.mem_cons_self).append
      (ih fun name e he => h name e (List.mem_cons_of_mem _ he))

end

/-! ### Without tests -/

section

variable {endings : Path.Endings} {recursive : Bool} {root : String}

theorem narrows_tests_entry {enter enter' : String → Walk}
    (henter : ∀ path, (enter path).Narrows (!Path.endsWith · endings.test) (enter' path))
    (path : String) (isDirectory : Bool) :
    (walkEntry ⟨endings, false, recursive⟩ root enter path isDirectory).Narrows
      (!Path.endsWith · endings.test)
      (walkEntry ⟨endings, true, recursive⟩ root enter' path isDirectory) := by
  rw [walkEntry, walkEntry]
  split
  · -- whether a directory is entered does not depend on the tests
    rw [Selection.enters, Selection.enters]
    split
    · exact henter path
    · exact fun _ => ⟨rfl, rfl⟩
  · rw [Selection.selects, Selection.selects, Path.shouldParse, Path.shouldParse, Bool.false_or,
      Bool.true_or, Bool.and_true]
    intro _
    cases hsource : Path.endsWith path endings.source with
    | false => exact ⟨rfl, rfl⟩
    | true =>
      cases htest : Path.endsWith path endings.test with
      | false => simp [Walk.files, htest]
      | true => simp [Walk.files, htest]

theorem narrows_tests_directory (fs : FileSystem) (levels : Nat) (directory : String) :
    (walkDirectory fs ⟨endings, false, recursive⟩ root levels directory).Narrows
      (!Path.endsWith · endings.test)
      (walkDirectory fs ⟨endings, true, recursive⟩ root levels directory) := by
  induction levels generalizing directory with
  | zero => exact fun herror => absurd herror (by simp [walkDirectory])
  | succ levels ih =>
    rw [walkDirectory, walkDirectory]
    split
    · exact fun herror => absurd herror (by simp)
    · exact narrows_entries fun name e _ => narrows_tests_entry ih _ _

/-- Leaving out tests leaves out their files. -/
theorem narrows_tests {fs : FileSystem} (hroot : fs.isDirectory root = true) :
    (walk fs ⟨endings, false, recursive⟩ root).Narrows (!Path.endsWith · endings.test)
      (walk fs ⟨endings, true, recursive⟩ root) := by
  rw [walk, walk, if_pos hroot, if_pos hroot]
  exact narrows_tests_directory fs pathBytesLimit root

end

/-! ### Without directories -/

section

variable {fs : FileSystem} {s : Selection} {root name : String} {es : Entries}

theorem enters_eq_false (hs : s.recursive = false) (hname : ProperName name) :
    s.enters root (entryPath root name) = false := by
  have hne : entryPath root name ≠ root := Path.normalize_join_ne hname root
  rw [Selection.enters, Path.shouldDescend, hs, Bool.false_or]
  simpa using hne

/-- A walk that enters no directories does not depend on what is in them. -/
theorem walkEntry_of_flat (hs : s.recursive = false) (hname : ProperName name)
    (enter enter' : String → Walk) (isDirectory : Bool) :
    walkEntry s root enter (entryPath root name) isDirectory =
      walkEntry s root enter' (entryPath root name) isDirectory := by
  rw [walkEntry, walkEntry, enters_eq_false hs hname, if_neg Bool.false_ne_true,
    if_neg Bool.false_ne_true]

theorem walkEntries_of_flat (hs : s.recursive = false) (hproper : ∀ e ∈ es, ProperName e.1)
    (enter enter' : String → Walk) :
    walkEntries s root enter root es = walkEntries s root enter' root es :=
  walkEntries_eq fun _ e he => walkEntry_of_flat hs (hproper _ he) enter enter' e.isDirectory

/-- What is met inside a directory does not lie in the directory that holds it. -/
theorem filter_liesIn_of_ascends {w : Walk} {firsts : List String} (hname : ProperName name)
    (h : w.Ascends firsts (entryPath root name)) : w.files.filter (Path.liesIn · root) = [] := by
  obtain ⟨found, hfiles, -, hfound⟩ := h
  refine List.filter_eq_nil_iff.2 fun path hpath hlies => ?_
  rw [hfiles] at hpath
  obtain ⟨names, hnames, rfl⟩ := List.mem_map.1 hpath
  obtain ⟨hproper, first, -, rest, rfl⟩ := hfound names hnames
  obtain ⟨-, last, -, hclean⟩ := Path.liesIn_iff.1 hlies
  have hlength := congrArg List.length hclean
  rw [cleanComponents_foldl_entryPath hproper, cleanComponents_entryPath hname] at hlength
  simp only [List.length_append, List.length_cons, List.length_nil] at hlength
  omega

theorem liesIn_entryPath (hname : ProperName name) (directory : String) :
    Path.liesIn (entryPath directory name) directory = true := by
  refine Path.liesIn_iff.2 ⟨?_, name, hname.ne_dots, cleanComponents_entryPath hname directory⟩
  rw [entryPath, Path.leadingSlashes_normalize, Path.leadingSlashes_join hname]

theorem narrows_flat_entry (hfs : fs.Valid) {endings : Path.Endings} {includeTests : Bool}
    (hname : ProperName name) (enter : String → Walk) (levels : Nat) (isDirectory : Bool) :
    (walkEntry ⟨endings, includeTests, false⟩ root enter (entryPath root name)
        isDirectory).Narrows (Path.liesIn · root)
      (walkEntry ⟨endings, includeTests, true⟩ root
        (walkDirectory fs ⟨endings, includeTests, true⟩ root levels) (entryPath root name)
        isDirectory) := by
  rw [walkEntry, walkEntry, enters_eq_false rfl hname, if_neg Bool.false_ne_true]
  split
  · obtain ⟨firsts, hascends⟩ := ascends_directory hfs ⟨endings, includeTests, true⟩ root levels
      (entryPath root name)
    exact fun _ => ⟨rfl, (filter_liesIn_of_ascends hname hascends).symm⟩
  · rw [Selection.selects, Selection.selects]
    split
    · refine fun _ => ⟨rfl, ?_⟩
      rw [Walk.files_file, List.filter_singleton, liesIn_entryPath hname]
      rfl
    · exact fun _ => ⟨rfl, rfl⟩

/-- Leaving out the directories below the root leaves out the files in them. -/
theorem narrows_flat (hfs : fs.Valid) (hroot : fs.isDirectory root = true)
    (endings : Path.Endings) (includeTests : Bool) :
    (walk fs ⟨endings, includeTests, false⟩ root).Narrows (Path.liesIn · root)
      (walk fs ⟨endings, includeTests, true⟩ root) := by
  obtain ⟨es, hlist⟩ := FileSystem.isDirectory_iff.1 hroot
  have hes := (FileSystem.list_valid hfs hlist).perm es.sorted_perm
  rw [walk_of_list hlist, walk_of_list hlist]
  exact narrows_entries fun name e he => narrows_flat_entry hfs (hes.proper _ he) _ _ _

/-! ## What a scan without directories depends on -/

theorem error_walkEntry {enter : String → Walk} (henter : ∀ path, (enter path).error = none)
    (s : Selection) (root path : String) (isDirectory : Bool) :
    (walkEntry s root enter path isDirectory).error = none := by
  rw [walkEntry]
  split
  · split
    · exact henter _
    · rfl
  · split
    · rfl
    · rfl

theorem error_walkEntries {enter : String → Walk} (henter : ∀ path, (enter path).error = none)
    (s : Selection) (root directory : String) (es : Entries) :
    (walkEntries s root enter directory es).error = none := by
  induction es with
  | nil => rfl
  | cons entry es ih =>
    obtain ⟨name, e⟩ := entry
    rw [walkEntries_cons, Walk.error_append_eq_none]
    exact ⟨error_walkEntry henter s root _ _, ih⟩

/-- What is met where no directory is entered are the entries that are selected. -/
theorem mem_files_walkEntries {directory path : String} :
    path ∈ (walkEntries s root (fun _ => {}) directory es).files ↔
      ∃ name e, (name, e) ∈ es ∧ e.isDirectory = false ∧
        s.selects (entryPath directory name) = true ∧ path = entryPath directory name := by
  induction es with
  | nil => simp [walkEntries, Walk.files]
  | cons entry es ih =>
    obtain ⟨name, e⟩ := entry
    have hentry : path ∈ (walkEntry s root (fun _ => {}) (entryPath directory name)
        e.isDirectory).files ↔ e.isDirectory = false ∧
          s.selects (entryPath directory name) = true ∧ path = entryPath directory name := by
      rw [walkEntry]
      split
      · rename_i hdirectory
        split <;> simp [Walk.files, hdirectory]
      · rename_i hfile
        split
        · rename_i hselects
          simp [Walk.files, hfile, hselects]
        · rename_i hselects
          simp [Walk.files, hselects]
    rw [walkEntries_cons, Walk.files_append (error_walkEntry (fun _ => rfl) s root _ _),
      List.mem_append, hentry, ih]
    simp only [List.mem_cons, Prod.mk.injEq]
    constructor
    · rintro (h | ⟨name', e', hmem, h⟩)
      · exact ⟨name, e, .inl ⟨rfl, rfl⟩, h⟩
      · exact ⟨name', e', .inr hmem, h⟩
    · rintro ⟨name', e', ⟨rfl, rfl⟩ | hmem, h⟩
      · exact .inl h
      · exact .inr ⟨name', e', hmem, h⟩

/-- A walk that enters no directories looks at the entries of its root only. -/
theorem walk_of_flat (hs : s.recursive = false) (hfs : fs.Valid) (hlist : fs.list root = .ok es) :
    walk fs s root = walkEntries s root (fun _ => {}) root es.sorted := by
  have hes := (FileSystem.list_valid hfs hlist).perm es.sorted_perm
  rw [walk_of_list hlist, walkEntries_of_flat hs hes.proper]

/-- The walk without directories is the same if the entries of its root have the same names and
kinds. -/
theorem walk_congr_of_flat {fs' : FileSystem} {es' : Entries} (hs : s.recursive = false)
    (hfs : fs.Valid) (hfs' : fs'.Valid) (hlist : fs.list root = .ok es)
    (hlist' : fs'.list root = .ok es') (hkinds : ∀ k, k ∈ es.kinds ↔ k ∈ es'.kinds) :
    walk fs' s root = walk fs s root := by
  rw [walk_of_flat hs hfs hlist, walk_of_flat hs hfs' hlist']
  refine walkEntries_congr (fun _ _ => rfl) ?_ (error_walkEntries (fun _ => rfl) s root root _)
  exact Entries.kinds_sorted_eq (FileSystem.list_valid hfs hlist)
    (FileSystem.list_valid hfs' hlist') hkinds

end

/-- A scan depends on what its walk meets, and on what the files are that it meets. -/
theorem scanVisits_congr {fs fs' : FileSystem} {error : Option WalkError} {visits : List Visit}
    (h : ∀ path, .file path ∈ visits → fs'.read path = fs.read path) (result : ScanResult) :
    scanVisits fs' error visits result = scanVisits fs error visits result := by
  induction visits generalizing result with
  | nil => rfl
  | cons visit rest ih =>
    have hrest := ih fun path hpath => h path (List.mem_cons_of_mem _ hpath)
    cases visit with
    | passedBy path => rw [scanVisits, scanVisits, hrest]
    | file path =>
      have hcheck : checkFile fs' path = checkFile fs path := by
        rw [checkFile, checkFile, h path List.mem_cons_self]
      rw [scanVisits, scanVisits, hcheck]
      simp only [hrest]

theorem Walk.mem_files_iff {w : Walk} {path : String} : path ∈ w.files ↔ .file path ∈ w.visits := by
  rw [Walk.files, List.mem_filterMap]
  constructor
  · rintro ⟨visit, hvisit, hpath⟩
    cases visit with
    | file path' => exact Option.some.inj hpath ▸ hvisit
    | passedBy path' => exact absurd hpath (by simp)
  · exact fun h => ⟨.file path, h, rfl⟩

/-! ## Narrower scans -/

/-- Checking the files of a narrower walk finds less, in the same order. -/
theorem Walk.Narrows.outcome {fs : FileSystem} {keep : String → Bool} {narrow wide : Walk}
    (h : narrow.Narrows keep wide) {checked : List CheckedFile}
    (hwide : wide.outcome fs = .ok checked) :
    narrow.outcome fs = .ok (checked.filter fun c => keep c.1) := by
  obtain ⟨herror, hfiles, hchecked⟩ := Walk.outcome_eq_ok_iff.1 hwide
  obtain ⟨hdone, hkept⟩ := h herror
  refine Walk.outcome_eq_ok_iff.2 ⟨hdone, ?_, fun c hc => hchecked c (List.mem_filter.1 hc).1⟩
  rw [hkept, ← hfiles, List.filter_map]
  rfl

/-- What is found in the files that are kept is what is found and tells of a file that is kept. -/
theorem flatMap_filter_checked {fs : FileSystem} {checked : List CheckedFile}
    (h : ∀ c ∈ checked, (checkFile fs c.1).value = .ok c.2) (keep : String → Bool) :
    (checked.filter fun c => keep c.1).flatMap (·.2) =
      (checked.flatMap (·.2)).filter fun d => keep d.file := by
  induction checked with
  | nil => rfl
  | cons c checked ih =>
    obtain ⟨hc, hchecked⟩ := List.forall_mem_cons.1 h
    have hfile := (checkFile_sorted hc).1
    rw [List.flatMap_cons, List.filter_append, ← ih hchecked]
    cases hkeep : keep c.1 with
    | true =>
      have hall : c.2.filter (fun d => keep d.file) = c.2 :=
        List.filter_eq_self.2 fun d hd => by rw [hfile d hd, hkeep]
      rw [List.filter_cons_of_pos (by simpa using hkeep), List.flatMap_cons, hall]
    | false =>
      have hnone : c.2.filter (fun d => keep d.file) = [] :=
        List.filter_eq_nil_iff.2 fun d hd => by simp [hfile d hd, hkeep]
      rw [List.filter_cons_of_neg (by simp [hkeep]), hnone, List.nil_append]

/-- A scan with a narrower walk succeeds if the wide one does, and finds what is told of the files
that are kept. -/
theorem scan_of_narrows {fs : FileSystem} {endings : Path.Endings} {path path' root : String}
    {includeTests includeTests' : Bool} {narrow wide : Selection} {keep : String → Bool}
    (hwide : selectionOf path endings includeTests = (root, wide))
    (hnarrow : selectionOf path' endings includeTests' = (root, narrow))
    (h : (walk fs narrow root).Narrows keep (walk fs wide root)) {r : ScanResult}
    (hscan : (scan fs endings path includeTests).value = .ok r) :
    ∃ r', (scan fs endings path' includeTests').value = .ok r' ∧
      r'.diagnostics = r.diagnostics.filter (fun d => keep d.file) ∧ r'.files ≤ r.files := by
  obtain ⟨checked, houtcome, rfl⟩ := (scan_eq_ok_iff hwide).1 hscan
  refine ⟨_, (scan_eq_ok_iff hnarrow).2 ⟨_, h.outcome houtcome, rfl⟩, ?_,
    List.length_filter_le _ _⟩
  exact flatMap_filter_checked (Walk.outcome_eq_ok_iff.1 houtcome).2.2 keep

/-- **Narrowing a scan removes diagnostics and does nothing else.**  Let a scan of a directory
succeed, of its own files only or of all below it.  Without the tests it succeeds as well, and finds
exactly what is not about tests, in the same order; without the directories below, it succeeds as
well, and finds exactly what is about files in the directory itself.  The files checked become no
more.  And a scan without the directories below depends only on the names and kinds of the entries
of its root and on what opening those gives that it selects, however broken all else is. -/
theorem scan_narrowed {fs : FileSystem} (hfs : fs.Valid) {root : String}
    (hroot : fs.isDirectory root = true)
    (hmarker : Path.endsWith root Path.recursiveMarker = false) (endings : Path.Endings) :
    (∀ path, path = root ∨ path = root ++ Path.recursiveMarker → ∀ r,
      (scan fs endings path true).value = .ok r →
      ∃ r', (scan fs endings path false).value = .ok r' ∧
        r'.diagnostics = r.diagnostics.filter (fun d => !Path.endsWith d.file endings.test) ∧
        r'.files ≤ r.files) ∧
    (∀ includeTests r,
      (scan fs endings (root ++ Path.recursiveMarker) includeTests).value = .ok r →
      ∃ r', (scan fs endings root includeTests).value = .ok r' ∧
        r'.diagnostics = r.diagnostics.filter (fun d => Path.liesIn d.file root) ∧
        r'.files ≤ r.files) ∧
    ∀ (includeTests : Bool) (fs' : FileSystem) (es es' : Entries), fs'.Valid →
      fs.list root = .ok es → fs'.list root = .ok es' →
      (∀ k, k ∈ es.kinds ↔ k ∈ es'.kinds) →
      (∀ name, (name, false) ∈ es.kinds →
        Path.shouldParse (entryPath root name) includeTests endings = true →
        fs'.read (entryPath root name) = fs.read (entryPath root name)) →
      scan fs' endings root includeTests = scan fs endings root includeTests := by
  have hwide := selectionOf_marker root endings
  have hflat := selectionOf_of_no_marker hmarker endings
  refine ⟨?_, fun includeTests r => ?_, ?_⟩
  · rintro path (rfl | rfl) r
    · exact scan_of_narrows (hflat true) (hflat false) (narrows_tests hroot)
    · exact scan_of_narrows (hwide true) (hwide false) (narrows_tests hroot)
  · exact scan_of_narrows (hwide includeTests) (hflat includeTests)
      (narrows_flat hfs hroot endings includeTests)
  · intro includeTests fs' es es' hfs' hlist hlist' hkinds hread
    rw [scan, scan, hflat]
    simp only [walk_congr_of_flat (s := ⟨endings, includeTests, false⟩) rfl hfs hfs' hlist hlist'
      hkinds]
    rw [scanVisits_congr fun path hpath => ?_]
    rw [← Walk.mem_files_iff, walk_of_flat rfl hfs hlist] at hpath
    obtain ⟨name, e, hmem, hfile, hselects, rfl⟩ := mem_files_walkEntries.1 hpath
    exact hread name (List.mem_map.2 ⟨_, es.sorted_perm.subset hmem, by rw [hfile]⟩) hselects

/-- The same with an inner directory whose source cannot be opened. -/
def brokenSystem : FileSystem where
  top := ("a", .directory [("z.go", .link "z.go")]) :: layeredSystem.top.tail

theorem brokenSystem_valid : brokenSystem.Valid := by
  have hinner : Entries.Valid [("z.go", .link "z.go")] :=
    .cons .nil (by decide) (by decide) fun es h => absurd h (by simp)
  have hrest : Entries.Valid layeredSystem.top.tail := Entries.Valid.tail layeredSystem.valid
  refine .cons hrest (by decide) (by decide) fun es h => ?_
  exact Entry.directory.inj h ▸ hinner

/-- Without the test or without the inner directory, what is left is found in the same order, and
then the inner directory may be broken. -/
theorem scan_layeredSystem_narrowed :
    layeredSystem.isDirectory "." = true ∧
      (∃ r, (scan layeredSystem {} "./..." false).value = .ok r ∧
        r.diagnostics = [⟨"a/z.go", 2, "x"⟩, ⟨"a.go", 2, "v"⟩, ⟨"a.go", 3, "u"⟩]) ∧
      (∃ r, (scan layeredSystem {} "." true).value = .ok r ∧
        r.diagnostics = [⟨"a.go", 2, "v"⟩, ⟨"a.go", 3, "u"⟩, ⟨"a_test.go", 2, "t"⟩]) ∧
      scan brokenSystem {} "." true = scan layeredSystem {} "." true := by
  have hroot : layeredSystem.isDirectory "." = true :=
    FileSystem.isDirectory_iff.2 ⟨_, layeredSystem.list_top⟩
  have hlist : brokenSystem.list "." = .ok brokenSystem.top :=
    FileSystem.list_eq_ok_iff.2 ⟨by decide, maxLinks, ⟨brokenSystem.top, []⟩,
      .blank (by decide) (.here ..), rfl⟩
  obtain ⟨htests, hflat, hignores⟩ :=
    scan_narrowed layeredSystem.valid hroot (by with_unfolding_all decide) {}
  refine ⟨hroot, ?_, ?_, ?_⟩
  · obtain ⟨r, hscan, hfound, -⟩ :=
      htests "./..." (.inr (by with_unfolding_all decide)) _ layeredSystem.scan_eq
    exact ⟨r, hscan, hfound.trans (by with_unfolding_all decide)⟩
  · obtain ⟨r, hscan, hfound, -⟩ := hflat true _ layeredSystem.scan_eq
    exact ⟨r, hscan, hfound.trans (by with_unfolding_all decide)⟩
  · refine hignores true brokenSystem _ _ brokenSystem_valid layeredSystem.list_top hlist
      (fun k => Iff.rfl) fun name hname _ => ?_
    obtain rfl | rfl : name = "a.go" ∨ name = "a_test.go" := by
      simpa [layeredSystem, Entries.kinds, Entry.isDirectory] using hname
    · with_unfolding_all rfl
    · with_unfolding_all rfl

end GoGlobals
