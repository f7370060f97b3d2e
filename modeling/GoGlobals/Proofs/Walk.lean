import GoGlobals.Proofs.FileSystem
import GoGlobals.Walk

/-!
# What a walk finds

The files of a walk are described without one.  `Entry.at?` goes down from an entry through
directories by their names, and `Selection.Takes` says which lists of names lead to a file that is
to be found.  `walk_finds` says that a walk gives the paths of exactly these, in the order of the
lists of names, if every directory on its way can be listed.

## What is here

* `pathBelow`, the path of what is some names below a directory, and that names can be read off it.
* `Deep`: the bound on the depth of a walk is out of reach, as a directory that deep has a path that
  is too long to be listed.
* `Finds`, what is wanted of a walk, for one entry (`finds_entry`), for the entries of a directory
  (`finds_entries`) and for what a path lists (`finds_directory`).
* `walkDirectory_congr`: the order in which directories hold their entries does not matter.
-/

set_option autoImplicit false

namespace GoGlobals

open GoGlobals.Path (ProperName squeeze cleanComponents)

/-! ## Paths below a directory -/

/-- The path of what is some names below a directory. -/
def pathBelow (directory : String) (names : List String) : String :=
  Path.normalize (names.foldl Path.join directory)

section EntryPath

variable {name : String} (hname : ProperName name)
include hname

theorem cleanComponents_entryPath (directory : String) :
    cleanComponents (entryPath directory name) = cleanComponents directory ++ [name] := by
  rw [entryPath, Path.cleanComponents_normalize, Path.cleanComponents_join hname]

theorem isAbsolute_entryPath (directory : String) :
    Path.isAbsolute (entryPath directory name) = Path.isAbsolute directory := by
  rw [entryPath, Path.isAbsolute_normalize, Path.isAbsolute_join hname]

theorem squeeze_components_entryPath {directory : String}
    (hdots : ".." ∉ Path.components directory) :
    squeeze (Path.components (entryPath directory name)) =
      squeeze (Path.components directory) ++ [name] := by
  rw [entryPath, Path.squeeze_components_normalize, Path.cleanComponents_join hname,
    Path.cleanComponents_of_no_dots hdots]

theorem no_dots_entryPath {directory : String} (hdots : ".." ∉ Path.components directory) :
    ".." ∉ Path.components (entryPath directory name) := by
  intro hmem
  have hsqueeze : ".." ∈ squeeze (Path.components (entryPath directory name)) :=
    List.mem_filter.2 ⟨hmem, by decide⟩
  rw [squeeze_components_entryPath hname hdots] at hsqueeze
  rcases List.mem_append.1 hsqueeze with hin | hlast
  · exact hdots (List.mem_filter.1 hin).1
  · exact hname.ne_dots (List.mem_singleton.1 hlast).symm

end EntryPath

/-- A path is cleaned at every name, which is the same as cleaning it at the end. -/
theorem foldl_entryPath {names : List String} (hnames : ∀ n ∈ names, ProperName n)
    (directory : String) :
    names.foldl entryPath (Path.normalize directory) = pathBelow directory names := by
  induction names generalizing directory with
  | nil => rw [pathBelow, List.foldl_nil, List.foldl_nil]
  | cons name names ih =>
    obtain ⟨hname, hnames⟩ := List.forall_mem_cons.1 hnames
    rw [List.foldl_cons, entryPath, Path.normalize_join_normalize hname, ih hnames, pathBelow,
      pathBelow, List.foldl_cons]

theorem foldl_entryPath_cons {name : String} {names : List String}
    (hnames : ∀ n ∈ name :: names, ProperName n) (directory : String) :
    (name :: names).foldl entryPath directory = pathBelow directory (name :: names) := by
  obtain ⟨-, hrest⟩ := List.forall_mem_cons.1 hnames
  rw [List.foldl_cons, entryPath, foldl_entryPath hrest, pathBelow, pathBelow, List.foldl_cons]

theorem cleanComponents_foldl_entryPath {names : List String} (hnames : ∀ n ∈ names, ProperName n)
    (directory : String) :
    cleanComponents (names.foldl entryPath directory) = cleanComponents directory ++ names := by
  induction names generalizing directory with
  | nil => rw [List.foldl_nil, List.append_nil]
  | cons name names ih =>
    obtain ⟨hname, hnames⟩ := List.forall_mem_cons.1 hnames
    rw [List.foldl_cons, ih hnames, cleanComponents_entryPath hname, List.append_assoc,
      List.singleton_append]

/-- Different names lead to different paths. -/
theorem foldl_entryPath_injective {directory : String} {names names' : List String}
    (hnames : ∀ n ∈ names, ProperName n) (hnames' : ∀ n ∈ names', ProperName n)
    (h : names.foldl entryPath directory = names'.foldl entryPath directory) :
    names = names' := by
  have hclean := congrArg cleanComponents h
  rw [cleanComponents_foldl_entryPath hnames, cleanComponents_foldl_entryPath hnames'] at hclean
  exact List.append_cancel_left hclean

/-! ## The depth of a walk -/

/-- The path is so deep that the levels left are more than can be entered below it. -/
structure Deep (levels : Nat) (directory : String) : Prop where
  no_nul : '\x00' ∉ directory.toList
  long : pathBytesLimit ≤ levels + (cleanComponents directory).length

theorem Deep.entry {levels : Nat} {directory name : String} (h : Deep (levels + 1) directory)
    (hname : ProperName name) : Deep levels (entryPath directory name) := by
  refine ⟨Path.no_nul_normalize_join hname h.no_nul, ?_⟩
  have hlong := h.long
  rw [cleanComponents_entryPath hname, List.length_append, List.length_singleton]
  omega

/-- When no levels are left the path is too long. -/
theorem list_of_deep {directory : String} (h : Deep 0 directory) (fs : FileSystem) :
    fs.list directory = .error .tooLong := by
  have hbytes : pathBytesLimit ≤ directory.utf8ByteSize := by
    have hlong := h.long
    have hle := Path.length_cleanComponents_le directory
    omega
  have hne : directory.isEmpty = false := by
    rw [Bool.eq_false_iff]
    intro hempty
    rw [String.isEmpty_iff.1 hempty] at hbytes
    exact absurd hbytes (by decide)
  have hfault : FileSystem.pathFault? directory = some .tooLong := by
    rw [FileSystem.pathFault?, if_neg (by simpa using h.no_nul), hne,
      if_neg Bool.false_ne_true, if_pos hbytes]
  rw [FileSystem.list, FileSystem.resolve, hfault]

theorem FileSystem.no_nul_of_isDirectory {fs : FileSystem} {path : String}
    (h : fs.isDirectory path = true) : '\x00' ∉ path.toList := by
  intro hnul
  have hfault : pathFault? path = some .nul := by
    rw [pathFault?, if_pos (by simpa using hnul)]
  rw [isDirectory, resolve, hfault] at h
  exact absurd h (by simp)

theorem deep_root {fs : FileSystem} {root : String} (h : fs.isDirectory root = true) :
    Deep pathBytesLimit root :=
  ⟨FileSystem.no_nul_of_isDirectory h, Nat.le_add_right _ _⟩

/-! ## What is to be found -/

/-- What is some names below an entry, through directories that are no links. -/
def Entry.at? : Entry → List String → Option Entry
  | e, [] => some e
  | .directory es, name :: names => (Entries.get? es name).bind fun e => e.at? names
  | .file _, _ :: _ => none
  | .link _, _ :: _ => none

/-- The names lead from a directory to a file that is to be found: it is no directory, its own name
has the endings that are asked for, and it is in the directory itself unless the walk enters
directories. -/
def Selection.Takes (s : Selection) (es : Entries) (names : List String) : Prop :=
  ∃ name entry, names.getLast? = some name ∧ (Entry.directory es).at? names = some entry ∧
    entry.isDirectory = false ∧ Path.endsWith name s.endings.source = true ∧
    (s.includeTests = true ∨ Path.endsWith name s.endings.test = false) ∧
    (s.recursive = true ∨ names.length = 1)

/-- Every directory that the walk has to list can be listed. -/
def Selection.Listable (s : Selection) (fs : FileSystem) (directory : String) (es : Entries) :
    Prop :=
  ∀ names inner, (Entry.directory es).at? names = some (.directory inner) →
    names = [] ∨ s.recursive = true → ∃ found, fs.list (names.foldl entryPath directory) = .ok found

theorem Entry.at?_cons {es : Entries} {name : String} {names : List String} {e : Entry}
    (h : es.get? name = some e) : (Entry.directory es).at? (name :: names) = e.at? names := by
  rw [Entry.at?, h, Option.bind_some]

theorem Entry.at?_directory_cons_eq_some {es : Entries} {name : String} {names : List String}
    {e : Entry} (h : (Entry.directory es).at? (name :: names) = some e) :
    ∃ e', es.get? name = some e' ∧ e'.at? names = some e :=
  Option.bind_eq_some_iff.1 h

namespace Selection

variable {s : Selection} {es : Entries} {name : String} {names : List String}

theorem selects_iff {path : String} : s.selects path = true ↔
    Path.endsWith path s.endings.source = true ∧
      (s.includeTests = true ∨ Path.endsWith path s.endings.test = false) := by
  rw [selects, Path.shouldParse, Bool.and_eq_true, Bool.or_eq_true, Bool.not_eq_true']

theorem not_takes_nil : ¬ s.Takes es [] := by
  rintro ⟨name, -, hlast, -⟩
  exact absurd hlast (by simp)

theorem not_takes_of_nil : ¬ s.Takes [] names := by
  rintro ⟨name, entry, hlast, hat, -⟩
  cases names with
  | nil => exact absurd hlast (by simp)
  | cons name names => exact absurd hat (by simp [Entry.at?, Entries.get?])

/-- What one entry has to be for names below it to lead to a file that is to be found. -/
def TakesIn (s : Selection) (name : String) (e : Entry) (names : List String) : Prop :=
  (names = [] ∧ e.isDirectory = false ∧ s.selects name = true) ∨
    ∃ inner, e = .directory inner ∧ s.recursive = true ∧ s.Takes inner names

theorem takesIn_directory_iff {inner : Entries} :
    s.TakesIn name (.directory inner) names ↔ s.recursive = true ∧ s.Takes inner names := by
  simp [TakesIn, Entry.isDirectory]

theorem takesIn_file_iff {e : Entry} (h : e.isDirectory = false) :
    s.TakesIn name e names ↔ names = [] ∧ s.selects name = true := by
  refine ⟨?_, fun ⟨hnil, hselects⟩ => .inl ⟨hnil, h, hselects⟩⟩
  rintro (⟨hnil, -, hselects⟩ | ⟨inner, rfl, -⟩)
  · exact ⟨hnil, hselects⟩
  · exact absurd h (by simp [Entry.isDirectory])

theorem takes_cons_iff :
    s.Takes es (name :: names) ↔ ∃ e, es.get? name = some e ∧ s.TakesIn name e names := by
  constructor
  · rintro ⟨last, entry, hlast, hat, hfile, hsource, htest, hdepth⟩
    obtain ⟨e, hget, hat⟩ := Entry.at?_directory_cons_eq_some hat
    refine ⟨e, hget, ?_⟩
    cases names with
    | nil =>
      obtain rfl : name = last := by simpa using hlast
      obtain rfl : e = entry := by simpa [Entry.at?] using hat
      exact .inl ⟨rfl, hfile, selects_iff.2 ⟨hsource, htest⟩⟩
    | cons next names =>
      have hrecursive : s.recursive = true := by simpa using hdepth
      rw [List.getLast?_cons_cons] at hlast
      cases e with
      | file content => exact absurd hat (by simp [Entry.at?])
      | link target => exact absurd hat (by simp [Entry.at?])
      | directory inner =>
        exact .inr ⟨inner, rfl, hrecursive, last, entry, hlast, hat, hfile, hsource, htest,
          .inl hrecursive⟩
  · rintro ⟨e, hget, ⟨rfl, hfile, hselects⟩ | ⟨inner, rfl, hrecursive, htakes⟩⟩
    · obtain ⟨hsource, htest⟩ := selects_iff.1 hselects
      refine ⟨name, e, rfl, ?_, hfile, hsource, htest, .inr rfl⟩
      rw [Entry.at?_cons hget, Entry.at?]
    · have hnil := htakes
      obtain ⟨last, entry, hlast, hat, hfile, hsource, htest, -⟩ := htakes
      refine ⟨last, entry, ?_, (Entry.at?_cons hget).trans hat, hfile, hsource, htest,
        .inl hrecursive⟩
      cases names with
      | nil => exact absurd hnil not_takes_nil
      | cons next names => rw [List.getLast?_cons_cons, hlast]

/-- The names that lead to a file in a valid directory are proper. -/
theorem Takes.proper (h : s.Takes es names) (hes : es.Valid) : ∀ n ∈ names, ProperName n := by
  induction names generalizing es with
  | nil => exact absurd h not_takes_nil
  | cons name names ih =>
    obtain ⟨e, hget, hin⟩ := takes_cons_iff.1 h
    have hmem := Entries.mem_of_get? hget
    refine List.forall_mem_cons.2 ⟨hes.proper _ hmem, ?_⟩
    rcases hin with ⟨rfl, -, -⟩ | ⟨inner, rfl, -, htakes⟩
    · exact fun n hn => absurd hn List.not_mem_nil
    · exact ih htakes (hes.inside hmem)

/-- The name of a file decides whether its path is selected. -/
theorem selects_entryPath (hsource : '/' ∉ s.endings.source.toList)
    (htest : '/' ∉ s.endings.test.toList) (hname : ProperName name) (directory : String) :
    s.selects (entryPath directory name) = s.selects name := by
  rw [selects, selects, Path.shouldParse, Path.shouldParse, entryPath,
    Path.endsWith_normalize_join hname directory hsource,
    Path.endsWith_normalize_join hname directory htest]

/-- What is taken depends on what is found under the names. -/
theorem takes_congr {es' : Entries} (h : ∀ name, es.get? name = es'.get? name) :
    s.Takes es names ↔ s.Takes es' names := by
  cases names with
  | nil => exact iff_of_false not_takes_nil not_takes_nil
  | cons name names => rw [takes_cons_iff, takes_cons_iff, h]

/-- A directory can be walked if it can be listed and the directories in it can be walked. -/
theorem Listable.intro {fs : FileSystem} {directory : String}
    (hlist : ∃ found, fs.list directory = .ok found)
    (hinside : ∀ name inner, (name, .directory inner) ∈ es →
      s.Listable fs (entryPath directory name) inner) : s.Listable fs directory es := by
  intro names inner hat hdepth
  cases names with
  | nil => rwa [List.foldl_nil]
  | cons name names =>
    rw [List.foldl_cons]
    obtain ⟨e, hget, hat⟩ := Entry.at?_directory_cons_eq_some hat
    have hrecursive : s.recursive = true := by simpa using hdepth
    have hmem := Entries.mem_of_get? hget
    cases e with
    | file content => exact absurd hat (by cases names <;> simp [Entry.at?])
    | link target => exact absurd hat (by cases names <;> simp [Entry.at?])
    | directory inside =>
      exact hinside name inside hmem names inner hat (.inr hrecursive)

/-- Below a directory that can be walked, every directory can be walked. -/
theorem Listable.entry {fs : FileSystem} {directory : String} {inner : Entries}
    (h : s.Listable fs directory es) (hrecursive : s.recursive = true)
    (hget : es.get? name = some (.directory inner)) :
    s.Listable fs (entryPath directory name) inner := by
  intro names inside hat _
  have hlisted := h (name :: names) inside ((Entry.at?_cons hget).trans hat) (.inr hrecursive)
  rwa [List.foldl_cons] at hlisted

end Selection

theorem sampleSystem_listable :
    (⟨{}, false, true⟩ : Selection).Listable sampleSystem "." sampleSystem.top := by
  refine .intro (FileSystem.isDirectory_iff.1 (by with_unfolding_all decide))
    fun name inner hmem => ?_
  obtain ⟨rfl, rfl⟩ : name = "a" ∧ inner = [("y.go", .link "../z.go"), ("x", .directory [])] := by
    simpa [sampleSystem] using hmem
  refine .intro (FileSystem.isDirectory_iff.1 (by with_unfolding_all decide))
    fun name inner hmem => ?_
  obtain ⟨rfl, rfl⟩ : name = "x" ∧ inner = [] := by simpa using hmem
  exact .intro (FileSystem.isDirectory_iff.1 (by with_unfolding_all decide)) fun _ _ hmem =>
    absurd hmem List.not_mem_nil

/-! ## Entries in the order of their names -/

namespace Entries

variable {es : Entries}

theorem sorted_perm (es : Entries) : es.sorted.Perm es :=
  List.mergeSort_perm es _

theorem get?_cons_self (name : String) (e : Entry) (es : Entries) :
    get? ((name, e) :: es) name = some e := by
  rw [get?, List.find?_cons_of_pos (by simp), Option.map_some]

theorem get?_cons_of_ne {name name' : String} (h : name ≠ name') (e : Entry) (es : Entries) :
    get? ((name, e) :: es) name' = es.get? name' := by
  rw [get?, List.find?_cons_of_neg (by simp [h]), ← get?]

/-- The names in a sorted directory are increasing. -/
theorem sorted_pairwise (h : es.Valid) : es.sorted.Pairwise fun a b => a.1 < b.1 := by
  have hle : es.sorted.Pairwise fun a b => a.1 ≤ b.1 := by
    have hsorted : es.sorted.Pairwise fun a b => decide (a.1 ≤ b.1) = true := by
      refine List.pairwise_mergeSort (fun a b c hab hbc => ?_) (fun a b => ?_) es
      · rw [decide_eq_true_eq] at hab hbc ⊢
        exact String.le_trans hab hbc
      · rw [Bool.or_eq_true, decide_eq_true_eq, decide_eq_true_eq]
        exact String.le_total a.1 b.1
    exact hsorted.imp fun hab => of_decide_eq_true hab
  have hne : es.sorted.Pairwise fun a b => a.1 ≠ b.1 :=
    List.pairwise_map.1 (h.perm (sorted_perm es)).distinct
  refine (hle.and hne).imp fun hab => ?_
  exact Std.lt_of_le_of_ne hab.1 hab.2

end Entries

/-! ## Walks entry by entry -/

namespace Walk

theorem append_nil (w : Walk) : w.append {} = w := by
  rw [append]
  split
  · rfl
  · rename_i h
    rw [List.append_nil, ← h]

theorem cons_append (v : Visit) (w next : Walk) :
    (w.cons v).append next = (w.append next).cons v := by
  rw [append, append, cons]
  cases h : w.error with
  | some e => rw [cons, h]
  | none => rfl

theorem append_assoc (w next last : Walk) :
    (w.append next).append last = w.append (next.append last) := by
  cases h : w.error with
  | some e => simp only [append, h]
  | none =>
    cases h' : next.error with
    | some e => simp only [append, h, h']
    | none => simp only [append, h, h', List.append_assoc]

theorem append_eq {w : Walk} (h : w.error = none) (next : Walk) :
    w.append next = ⟨w.visits ++ next.visits, next.error⟩ := by
  rw [append, h]

theorem files_append {w : Walk} (h : w.error = none) (next : Walk) :
    (w.append next).files = w.files ++ next.files := by
  rw [append_eq h, files, files, files, List.filterMap_append]

theorem error_append {w : Walk} (h : w.error = none) (next : Walk) :
    (w.append next).error = next.error := by
  rw [append_eq h]

theorem error_append_eq_none {w next : Walk} :
    (w.append next).error = none ↔ w.error = none ∧ next.error = none := by
  cases h : w.error with
  | none => simp [append, h]
  | some e => simp [append, h]

theorem files_file (path : String) : files ⟨[.file path], none⟩ = [path] := rfl

end Walk

/-- The walk of one entry. -/
def walkEntry (s : Selection) (root : String) (enter : String → Walk) (path : String)
    (isDirectory : Bool) : Walk :=
  if isDirectory then if s.enters root path then enter path else ⟨[.passedBy path], none⟩
  else if s.selects path then ⟨[.file path], none⟩ else {}

theorem walkEntries_cons (s : Selection) (root : String) (enter : String → Walk)
    (directory name : String) (e : Entry) (es : Entries) :
    walkEntries s root enter directory ((name, e) :: es) =
      (walkEntry s root enter (entryPath directory name) e.isDirectory).append
        (walkEntries s root enter directory es) := by
  rw [walkEntries, walkEntry]
  split
  · split
    · rfl
    · rfl
  · split
    · rfl
    · rfl

/-- Walks through the same entries are the same if they are so at every entry. -/
theorem walkEntries_eq {s : Selection} {root root' directory directory' : String}
    {enter enter' : String → Walk} {es : Entries}
    (h : ∀ name e, (name, e) ∈ es →
      walkEntry s root enter (entryPath directory name) e.isDirectory =
        walkEntry s root' enter' (entryPath directory' name) e.isDirectory) :
    walkEntries s root enter directory es = walkEntries s root' enter' directory' es := by
  induction es with
  | nil => rfl
  | cons entry es ih =>
    obtain ⟨name, e⟩ := entry
    rw [walkEntries_cons, walkEntries_cons, h name e List.mem_cons_self,
      ih fun name e he => h name e (List.mem_cons_of_mem _ he)]

/-! ## The files of a walk -/

/-- The walk met one file for every list of names that leads to one from here, in the order of these
lists, and ended well. -/
structure Finds (takes : List String → Prop) (here : String) (w : Walk) : Prop where
  complete : w.error = none
  exact : ∃ found : List (List String),
    w.files = found.map (fun names => names.foldl entryPath here) ∧
      found.Pairwise (· < ·) ∧ ∀ names, names ∈ found ↔ takes names

namespace Finds

variable {takes : List String → Prop} {here : String} {w : Walk}

theorem congr {takes' : List String → Prop} (h : Finds takes here w)
    (hsame : ∀ names, takes names ↔ takes' names) : Finds takes' here w := by
  obtain ⟨found, hfiles, hsorted, htakes⟩ := h.exact
  exact ⟨h.complete, found, hfiles, hsorted, fun names => (htakes names).trans (hsame names)⟩

theorem nothing (hcomplete : w.error = none) (hfiles : w.files = [])
    (htakes : ∀ names, ¬ takes names) : Finds takes here w :=
  ⟨hcomplete, [], hfiles, .nil, fun names =>
    iff_of_false List.not_mem_nil (htakes names)⟩

theorem file (htakes : ∀ names, takes names ↔ names = []) :
    Finds takes here ⟨[.file here], none⟩ := by
  refine ⟨rfl, [[]], ?_, List.pairwise_singleton _ _, fun names => ?_⟩
  · rw [Walk.files_file, List.map_singleton, List.foldl_nil]
  · rw [htakes, List.mem_singleton]

end Finds

/-- What is taken from entries is below the first of them or below the others. -/
theorem Selection.takes_entries_cons_iff {s : Selection} {name : String} {e : Entry} {es : Entries}
    {names : List String} (hnew : ∀ e' ∈ es, name < e'.1) :
    s.Takes ((name, e) :: es) names ↔
      (∃ rest, names = name :: rest ∧ s.TakesIn name e rest) ∨ s.Takes es names := by
  cases names with
  | nil => simp [not_takes_nil]
  | cons name' rest =>
    rw [takes_cons_iff, takes_cons_iff]
    by_cases hname : name = name'
    · subst hname
      have hnone : es.get? name = none := by
        cases hget : es.get? name with
        | none => rfl
        | some e' => exact absurd (hnew _ (Entries.mem_of_get? hget)) Std.lt_irrefl
      rw [Entries.get?_cons_self, hnone]
      simp
    · have hne : ¬ name' = name := fun h => hname h.symm
      rw [Entries.get?_cons_of_ne hname]
      simp [hne]

section

variable {s : Selection} {root directory : String}

/-- A walk through one entry and a walk through those behind it make a walk through all. -/
theorem Finds.cons {name : String} {e : Entry} {es : Entries} {w next : Walk}
    (hbefore : ∀ e' ∈ es, name < e'.1) (h : Finds (s.TakesIn name e) (entryPath directory name) w)
    (hnext : Finds (s.Takes es) directory next) :
    Finds (s.Takes ((name, e) :: es)) directory (w.append next) := by
  obtain ⟨found, hfiles, hsorted, hfound⟩ := h.exact
  obtain ⟨others, hothers, hsorted', htakes⟩ := hnext.exact
  refine ⟨(Walk.error_append h.complete next).trans hnext.complete,
    found.map (name :: ·) ++ others, ?_, ?_, fun names => ?_⟩
  · rw [Walk.files_append h.complete, hfiles, hothers, List.map_append, List.map_map]
    simp only [Function.comp_def, List.foldl_cons]
  · refine List.pairwise_append.2 ⟨?_, hsorted', ?_⟩
    · exact List.pairwise_map.2 (hsorted.imp fun h => List.cons_lt_cons_iff.2 (.inr ⟨rfl, h⟩))
    · -- The names behind are larger already in the first place.
      intro names hnames names' hnames'
      obtain ⟨rest, -, rfl⟩ := List.mem_map.1 hnames
      have htake := (htakes names').1 hnames'
      cases names' with
      | nil => exact absurd htake Selection.not_takes_nil
      | cons name' rest' =>
        obtain ⟨e', hget, -⟩ := Selection.takes_cons_iff.1 htake
        exact List.cons_lt_cons_iff.2 (.inl (hbefore _ (Entries.mem_of_get? hget)))
  · rw [List.mem_append, htakes, Selection.takes_entries_cons_iff hbefore, List.mem_map]
    simp only [hfound, and_comm, eq_comm]

/-- A walk of an entry finds what is to be found in it if it is no directory or the walk of that
directory does. -/
theorem finds_entry {enter : String → Walk} {name : String} {e : Entry} (hname : ProperName name)
    (hsource : '/' ∉ s.endings.source.toList) (htest : '/' ∉ s.endings.test.toList)
    (hroot : s.recursive = true ∨ directory = root)
    (henter : s.recursive = true → ∀ inner, e = .directory inner →
      Finds (s.Takes inner) (entryPath directory name) (enter (entryPath directory name))) :
    Finds (s.TakesIn name e) (entryPath directory name)
      (walkEntry s root enter (entryPath directory name) e.isDirectory) := by
  rw [walkEntry]
  cases hdirectory : e.isDirectory with
  | true =>
    obtain ⟨inner, rfl⟩ := Entry.isDirectory_iff.1 hdirectory
    rw [if_pos rfl]
    cases hrecursive : s.recursive with
    | true =>
      rw [Selection.enters, Path.shouldDescend, hrecursive, Bool.true_or, if_pos rfl]
      refine (henter hrecursive inner rfl).congr fun names => ?_
      rw [Selection.takesIn_directory_iff, and_iff_right hrecursive]
    | false =>
      -- The path of an entry is never the root itself, however the root is spelled.
      have hne : entryPath directory name ≠ root := by
        obtain rfl : directory = root := by simpa [hrecursive] using hroot
        exact Path.normalize_join_ne hname directory
      rw [Selection.enters, Path.shouldDescend, hrecursive, Bool.false_or,
        if_neg (by simpa using hne)]
      exact .nothing rfl rfl (by simp [Selection.takesIn_directory_iff, hrecursive])
  | false =>
    rw [if_neg Bool.false_ne_true, Selection.selects_entryPath hsource htest hname]
    cases hselects : s.selects name with
    | true =>
      rw [if_pos rfl]
      exact .file (by simp [Selection.takesIn_file_iff hdirectory, hselects])
    | false =>
      rw [if_neg Bool.false_ne_true]
      exact .nothing rfl rfl (by simp [Selection.takesIn_file_iff hdirectory, hselects])

/-- **A walk through sorted entries finds what is to be found in them** if the walks of the
directories among them do. -/
theorem finds_entries {enter : String → Walk} {es : Entries} (hes : es.Valid)
    (hsorted : es.Pairwise fun a b => a.1 < b.1)
    (hsource : '/' ∉ s.endings.source.toList) (htest : '/' ∉ s.endings.test.toList)
    (hroot : s.recursive = true ∨ directory = root)
    (henter : s.recursive = true → ∀ name inner, (name, .directory inner) ∈ es →
      Finds (s.Takes inner) (entryPath directory name) (enter (entryPath directory name))) :
    Finds (s.Takes es) directory (walkEntries s root enter directory es) := by
  induction es with
  | nil => exact .nothing rfl rfl fun names => Selection.not_takes_of_nil
  | cons entry es ih =>
    obtain ⟨name, e⟩ := entry
    obtain ⟨hbefore, hrest⟩ := List.pairwise_cons.1 hsorted
    rw [walkEntries_cons]
    refine .cons hbefore (finds_entry (hes.proper _ List.mem_cons_self) hsource htest hroot ?_)
      (ih hes.tail hrest ?_)
    · rintro hrecursive inner rfl
      exact henter hrecursive name inner List.mem_cons_self
    · intro hrecursive name inner hmem
      exact henter hrecursive name inner (List.mem_cons_of_mem _ hmem)

/-- **A walk of a directory finds what is to be found in it.** -/
theorem finds_directory {fs : FileSystem} (hfs : fs.Valid)
    (hsource : '/' ∉ s.endings.source.toList) (htest : '/' ∉ s.endings.test.toList)
    (levels : Nat) :
    ∀ {directory : String} {es : Entries}, Deep levels directory →
      ".." ∉ Path.components directory → s.recursive = true ∨ directory = root →
      fs.list directory = .ok es → s.Listable fs directory es →
      Finds (s.Takes es) directory (walkDirectory fs s root levels directory) := by
  induction levels with
  | zero =>
    intro directory es hdeep _ _ hlist
    rw [list_of_deep hdeep] at hlist
    exact absurd hlist (by simp)
  | succ levels ih =>
    intro directory es hdeep hdots hroot hlist hlistable
    have hes := FileSystem.list_valid hfs hlist
    have hsorted := hes.perm es.sorted_perm
    rw [walkDirectory, hlist]
    refine (finds_entries hsorted (Entries.sorted_pairwise hes) hsource htest hroot ?_).congr
      fun names => Selection.takes_congr (Entries.get?_perm hes es.sorted_perm)
    intro hrecursive name inner hmem
    have hname := hsorted.proper _ hmem
    have hget : es.get? name = some (.directory inner) := by
      rw [Entries.get?_eq_some_iff hes]
      exact es.sorted_perm.subset hmem
    have hinner := hlistable.entry hrecursive hget
    obtain ⟨inner', hlist'⟩ := hinner [] inner rfl (.inl rfl)
    rw [List.foldl_nil] at hlist'
    have hsame := FileSystem.list_below hlist hname hget (isAbsolute_entryPath hname directory)
      (squeeze_components_entryPath hname hdots) hlist'
    rw [hsame] at hlist'
    exact ih (hdeep.entry hname) (no_dots_entryPath hname hdots) (.inl hrecursive) hlist' hinner

end

/-! ## The order of the entries does not matter -/

namespace Entries

/-- What a walk looks at: the names, and which of them are of directories. -/
def kinds (es : Entries) : List (String × Bool) :=
  es.map fun e => (e.1, e.2.isDirectory)

theorem mem_kinds {es : Entries} (hes : es.Valid) {name : String} {kind : Bool} :
    (name, kind) ∈ es.kinds ↔ ∃ e, es.get? name = some e ∧ e.isDirectory = kind := by
  rw [kinds, List.mem_map]
  constructor
  · rintro ⟨⟨name', e⟩, hmem, heq⟩
    obtain ⟨rfl, rfl⟩ := Prod.mk.inj heq
    exact ⟨e, (get?_eq_some_iff hes).2 hmem, rfl⟩
  · rintro ⟨e, hget, rfl⟩
    exact ⟨(name, e), mem_of_get? hget, rfl⟩

theorem Alike.mem_kinds {es es' : Entries} (h : es.Alike es') (hes : es.Valid) (hes' : es'.Valid)
    {k : String × Bool} (hk : k ∈ es.kinds) : k ∈ es'.kinds := by
  obtain ⟨name, kind⟩ := k
  obtain ⟨e, hget, rfl⟩ := (Entries.mem_kinds hes).1 hk
  obtain ⟨e', hget', halike⟩ := h.get? hget
  exact (Entries.mem_kinds hes').2 ⟨e', hget', halike.isDirectory_eq.symm⟩

theorem kinds_sorted_pairwise {es : Entries} (hes : es.Valid) :
    es.sorted.kinds.Pairwise fun a b => a.1 < b.1 :=
  List.pairwise_map.2 (sorted_pairwise hes)

theorem kinds_sorted_nodup {es : Entries} (hes : es.Valid) : es.sorted.kinds.Nodup := by
  refine (kinds_sorted_pairwise hes).imp ?_
  rintro a b hlt rfl
  exact Std.lt_irrefl hlt

theorem mem_kinds_sorted {es : Entries} {k : String × Bool} :
    k ∈ es.sorted.kinds ↔ k ∈ es.kinds :=
  ((sorted_perm es).map _).mem_iff

/-- Directories with the same names and kinds are the same to a walk once they are sorted. -/
theorem kinds_sorted_eq {es es' : Entries} (hes : es.Valid) (hes' : es'.Valid)
    (h : ∀ k, k ∈ es.kinds ↔ k ∈ es'.kinds) : es.sorted.kinds = es'.sorted.kinds := by
  have hmem : ∀ k, k ∈ es.sorted.kinds ↔ k ∈ es'.sorted.kinds := fun k => by
    rw [mem_kinds_sorted, mem_kinds_sorted, h]
  have hperm := (List.perm_ext_iff_of_nodup (kinds_sorted_nodup hes)
    (kinds_sorted_nodup hes')).2 hmem
  exact hperm.eq_of_pairwise (fun a b _ _ hab hba => absurd hba (Std.not_lt.2 (Std.le_of_lt hab)))
    (kinds_sorted_pairwise hes) (kinds_sorted_pairwise hes')

/-- Directories that differ only in order are the same to a walk once they are sorted. -/
theorem Alike.kinds_sorted {es es' : Entries} (h : es.Alike es') (hes : es.Valid)
    (hes' : es'.Valid) : es.sorted.kinds = es'.sorted.kinds :=
  kinds_sorted_eq hes hes' fun _ => ⟨h.mem_kinds hes hes', h.symm.mem_kinds hes' hes⟩

end Entries

theorem walkEntry_congr {s : Selection} {root path : String} {enter enter' : String → Walk}
    (henter : ∀ path, (enter path).error = none → enter' path = enter path) {kind : Bool}
    (herror : (walkEntry s root enter path kind).error = none) :
    walkEntry s root enter' path kind = walkEntry s root enter path kind := by
  cases kind with
  | false => rfl
  | true =>
    rw [walkEntry, if_pos rfl] at herror
    rw [walkEntry, walkEntry, if_pos rfl, if_pos rfl]
    split
    · rename_i henters
      rw [if_pos henters] at herror
      exact henter path herror
    · rfl

/-- Walks through entries of the same kinds are the same if the first ended well. -/
theorem walkEntries_congr {s : Selection} {root directory : String} {enter enter' : String → Walk}
    (henter : ∀ path, (enter path).error = none → enter' path = enter path) :
    ∀ {es es' : Entries}, es.kinds = es'.kinds →
      (walkEntries s root enter directory es).error = none →
      walkEntries s root enter' directory es' = walkEntries s root enter directory es := by
  intro es
  induction es with
  | nil =>
    intro es' hkinds _
    obtain rfl : es' = [] := List.map_eq_nil_iff.1 hkinds.symm
    rfl
  | cons entry es ih =>
    intro es' hkinds herror
    obtain ⟨name, e⟩ := entry
    obtain ⟨⟨name', e'⟩, es', rfl, hfirst, hrest⟩ := List.map_eq_cons_iff.1 hkinds.symm
    obtain ⟨rfl, hkind⟩ : name' = name ∧ e'.isDirectory = e.isDirectory := Prod.mk.inj hfirst
    rw [walkEntries_cons, Walk.error_append_eq_none] at herror
    rw [walkEntries_cons, walkEntries_cons, ih hrest.symm herror.2, hkind,
      walkEntry_congr henter herror.1]

theorem walkDirectory_congr {fs fs' : FileSystem} (h : fs.Alike fs') (hfs : fs.Valid)
    (hfs' : fs'.Valid) {s : Selection} {root : String} (levels : Nat) :
    ∀ {directory : String}, (walkDirectory fs s root levels directory).error = none →
      walkDirectory fs' s root levels directory = walkDirectory fs s root levels directory := by
  induction levels with
  | zero => exact fun _ => rfl
  | succ levels ih =>
    intro directory herror
    rw [walkDirectory] at herror
    rw [walkDirectory, walkDirectory]
    cases hlist : fs.list directory with
    | error fault =>
      rw [hlist] at herror
      exact absurd herror (by simp)
    | ok es =>
      obtain ⟨es', hlist', halike⟩ := h.list hlist
      rw [hlist] at herror
      rw [hlist']
      exact walkEntries_congr (fun path => ih)
        (halike.kinds_sorted (FileSystem.list_valid hfs hlist) (FileSystem.list_valid hfs' hlist'))
        herror

/-! ## Walks from a directory -/

theorem walk_of_list {fs : FileSystem} {root : String} {es : Entries}
    (hlist : fs.list root = .ok es) (s : Selection) :
    walk fs s root =
      walkEntries s root (walkDirectory fs s root (pathBytesLimit - 1)) root es.sorted := by
  have hlevels : pathBytesLimit = pathBytesLimit - 1 + 1 := rfl
  rw [walk, if_pos (FileSystem.isDirectory_iff.2 ⟨es, hlist⟩)]
  rw [hlevels, walkDirectory, hlist, Nat.add_sub_cancel]

/-- **A walk from a directory finds exactly the files that are to be found**, once each and in
order.  Every directory on the way can be listed, and none of the components of the root leads up.
Then the walk ends well; its files are the paths of what is taken below the root, in the order of
the lists of names; no path comes twice; and file systems that differ only in the order in which
directories hold their entries are walked in the same way. -/
theorem walk_finds {fs : FileSystem} (hfs : fs.Valid) {s : Selection} {root : String}
    {es : Entries} (hroot : fs.list root = .ok es) (hdots : ".." ∉ Path.components root)
    (hsource : '/' ∉ s.endings.source.toList) (htest : '/' ∉ s.endings.test.toList)
    (hlistable : s.Listable fs root es) :
    (walk fs s root).error = none ∧
      (∃ found : List (List String),
        (walk fs s root).files = found.map (pathBelow root) ∧
          found.Pairwise (· < ·) ∧ ∀ names, names ∈ found ↔ s.Takes es names) ∧
      (walk fs s root).files.Nodup ∧
      ∀ fs' : FileSystem, fs'.Valid → fs.Alike fs' → walk fs' s root = walk fs s root := by
  have hdirectory := FileSystem.isDirectory_iff.2 ⟨es, hroot⟩
  have hes := FileSystem.list_valid hfs hroot
  have hwalk : walk fs s root = walkDirectory fs s root pathBytesLimit root := by
    rw [walk, if_pos hdirectory]
  have hfinds := finds_directory hfs hsource htest pathBytesLimit (deep_root hdirectory) hdots
    (.inr rfl) hroot hlistable
  rw [← hwalk] at hfinds
  obtain ⟨found, hfiles, hsorted, htakes⟩ := hfinds.exact
  have hproper : ∀ names ∈ found, ∀ n ∈ names, ProperName n := fun names hnames =>
    ((htakes names).1 hnames).proper hes
  refine ⟨hfinds.complete, ⟨found, ?_, hsorted, htakes⟩, ?_, fun fs' hfs' halike => ?_⟩
  · rw [hfiles]
    refine List.map_congr_left fun names hnames => ?_
    cases names with
    | nil => exact absurd ((htakes []).1 hnames) Selection.not_takes_nil
    | cons name names => exact foldl_entryPath_cons (hproper _ hnames) root
  · rw [hfiles]
    refine List.pairwise_map.2 (hsorted.imp_of_mem fun hnames hnames' hlt heq => ?_)
    rw [foldl_entryPath_injective (hproper _ hnames) (hproper _ hnames') heq] at hlt
    exact List.lt_irrefl _ hlt
  · obtain ⟨es', hroot', -⟩ := halike.list hroot
    have hcomplete := hfinds.complete
    rw [hwalk] at hcomplete ⊢
    rw [walk, if_pos (FileSystem.isDirectory_iff.2 ⟨es', hroot'⟩)]
    exact walkDirectory_congr halike hfs hfs' pathBytesLimit hcomplete

theorem walk_sampleSystem :
    (walk sampleSystem ⟨{}, false, true⟩ ".").error = none ∧
      "a/y.go" ∈ (walk sampleSystem ⟨{}, false, true⟩ ".").files ∧
      (walk sampleSystem ⟨{}, false, true⟩ ".").files.Nodup ∧
      walk { sampleSystem with top := sampleSystem.top.reverse } ⟨{}, false, true⟩ "." =
        walk sampleSystem ⟨{}, false, true⟩ "." := by
  obtain ⟨herror, ⟨found, hfiles, -, htakes⟩, hnodup, horder⟩ :=
    walk_finds sampleSystem_valid sampleSystem_list (by decide) (by decide) (by decide)
      sampleSystem_listable
  have htake : (⟨{}, false, true⟩ : Selection).Takes sampleSystem.top ["a", "y.go"] :=
    ⟨"y.go", .link "../z.go", rfl, rfl, rfl, by decide, .inr (by decide), .inl rfl⟩
  have hpath : pathBelow "." ["a", "y.go"] = "a/y.go" := by with_unfolding_all decide
  have hperm := List.reverse_perm sampleSystem.top
  refine ⟨herror, ?_, hnodup, ?_⟩
  · rw [hfiles, ← hpath]
    exact List.mem_map_of_mem ((htakes _).2 htake)
  · exact horder _ (sampleSystem_valid.perm hperm) ⟨.of_perm sampleSystem_valid hperm, rfl⟩

end GoGlobals
