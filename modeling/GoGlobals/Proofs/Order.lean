import GoGlobals.Proofs.Go.Files
import GoGlobals.Proofs.Opening
import GoGlobals.Proofs.Tree.Preorder

/-!
# The order of what is found

What a scan finds comes sorted: by the components of the path of its file, and within a file by its
line.  Three orders have to come together for that.  A walk meets the entries of a directory in the
order of their names and goes into a directory where it meets it, which is the order of the lists of
components and not that of the paths as texts.  A scan tells what it found in one file before it
goes to the next.  And within a file, declarations, specifications and names come in the order of
the text.

## What is here

* `Walk.Ascends`: the files of a walk, whether it ended early or not, have increasing lists of
  names.  `ascends_directory` says so of every walk, whichever files it selects.
* `lines_of_check`: the lines of what is found in a tree do not decrease if the rows of its nodes do
  not decrease in preorder.
* `scan_sorted` is the theorem.
-/

set_option autoImplicit false

namespace GoGlobals

open GoGlobals.Path (ProperName cleanComponents)
open Text (Source)

-- What the path of an entry is made of is known from its lemmas.  Looking into it by computation
-- would clean a path that is not known.
attribute [local irreducible] entryPath

/-! ## The components of paths below a directory -/

theorem leadingSlashes_foldl_entryPath {names : List String} (hnames : ∀ n ∈ names, ProperName n)
    (directory : String) :
    Path.leadingSlashes (names.foldl entryPath directory).toList =
      Path.leadingSlashes directory.toList := by
  induction names generalizing directory with
  | nil => rfl
  | cons name names ih =>
    obtain ⟨hname, hnames⟩ := List.forall_mem_cons.1 hnames
    rw [List.foldl_cons, ih hnames, entryPath, Path.leadingSlashes_normalize,
      Path.leadingSlashes_join hname]

theorem legible_append {directory : String} {names : List String}
    (hnames : ∀ n ∈ names, ProperName n) : Path.Legible (cleanComponents directory ++ names) := by
  intro c hc
  rcases List.mem_append.1 hc with hc | hc
  · exact Path.legible_cleanComponents directory c hc
  · refine ⟨?_, (hnames c hc).no_slash⟩
    rintro rfl
    exact (hnames "" hc).toList_ne_nil rfl

/-- The components of what is below a directory are those of the directory and then the names. -/
theorem components_foldl_entryPath {directory name : String} {names : List String}
    (hnames : ∀ n ∈ name :: names, ProperName n) :
    Path.components ((name :: names).foldl entryPath directory) =
      (List.replicate (Path.leadingSlashes directory.toList) "" ++ cleanComponents directory) ++
        name :: names := by
  have hclean := cleanComponents_foldl_entryPath hnames directory
  have hslashes := leadingSlashes_foldl_entryPath hnames directory
  have hrender : (name :: names).foldl entryPath directory =
      Path.render (Path.leadingSlashes directory.toList)
        (cleanComponents directory ++ name :: names) := by
    rw [← hclean, ← hslashes, ← Path.normalize_eq_render, foldl_entryPath_cons hnames, pathBelow]
    exact (Path.normalize_normalize _).symm
  rw [hrender, Path.components_render _ (legible_append hnames) (by simp), List.append_assoc]

/-! ## Walks -/

/-- The files of the walk are reached from here by lists of names that increase and begin with these
names. -/
def Walk.Ascends (w : Walk) (firsts : List String) (here : String) : Prop :=
  ∃ found : List (List String),
    w.files = found.map (fun names => names.foldl entryPath here) ∧ found.Pairwise (· < ·) ∧
      ∀ names ∈ found, (∀ n ∈ names, ProperName n) ∧ ∃ first ∈ firsts, ∃ rest, names = first :: rest

namespace Walk.Ascends

variable {w next : Walk} {firsts firsts' : List String} {directory name : String}

theorem nothing (hfiles : w.files = []) : w.Ascends firsts directory :=
  ⟨[], hfiles, .nil, fun _ hnames => absurd hnames List.not_mem_nil⟩

theorem file (hname : ProperName name) :
    Ascends ⟨[.file (entryPath directory name)], none⟩ [name] directory := by
  refine ⟨[[name]], ?_, List.pairwise_singleton _ _, fun names hnames => ?_⟩
  · rw [Walk.files_file, List.map_singleton, List.foldl_cons, List.foldl_nil]
  obtain rfl := List.mem_singleton.1 hnames
  exact ⟨fun n hn => List.mem_singleton.1 hn ▸ hname, name, List.mem_singleton_self _, [], rfl⟩

/-- What is below an entry is below its directory. -/
theorem enter (h : w.Ascends firsts (entryPath directory name)) (hname : ProperName name) :
    w.Ascends [name] directory := by
  obtain ⟨found, hfiles, hsorted, hfound⟩ := h
  refine ⟨found.map (name :: ·), ?_, ?_, fun names hnames => ?_⟩
  · rw [hfiles, List.map_map]
    rfl
  · exact List.pairwise_map.2 (hsorted.imp fun hlt => List.cons_lt_cons_iff.2 (.inr ⟨rfl, hlt⟩))
  · obtain ⟨rest, hrest, rfl⟩ := List.mem_map.1 hnames
    exact ⟨List.forall_mem_cons.2 ⟨hname, (hfound rest hrest).1⟩, name,
      List.mem_singleton_self _, rest, rfl⟩

theorem append (h : w.Ascends firsts directory) (hnext : next.Ascends firsts' directory)
    (hlt : ∀ a ∈ firsts, ∀ b ∈ firsts', a < b) :
    (w.append next).Ascends (firsts ++ firsts') directory := by
  obtain ⟨found, hfiles, hsorted, hfound⟩ := h
  obtain ⟨others, hothers, hsorted', hfound'⟩ := hnext
  cases herror : w.error with
  | some e =>
    -- the walk ended early, so that nothing comes behind it
    have hfirst : w.append next = w := by rw [Walk.append, herror]
    rw [hfirst]
    refine ⟨found, hfiles, hsorted, fun names hnames => ?_⟩
    obtain ⟨hproper, first, hfirst, rest, rfl⟩ := hfound names hnames
    exact ⟨hproper, first, List.mem_append_left _ hfirst, rest, rfl⟩
  | none =>
    refine ⟨found ++ others, ?_, List.pairwise_append.2 ⟨hsorted, hsorted', ?_⟩, ?_⟩
    · rw [Walk.files_append herror, hfiles, hothers, List.map_append]
    · intro names hnames names' hnames'
      obtain ⟨-, first, hfirst, rest, rfl⟩ := hfound names hnames
      obtain ⟨-, first', hfirst', rest', rfl⟩ := hfound' names' hnames'
      exact List.cons_lt_cons_iff.2 (.inl (hlt first hfirst first' hfirst'))
    · intro names hnames
      rcases List.mem_append.1 hnames with hnames | hnames
      · obtain ⟨hproper, first, hfirst, rest, rfl⟩ := hfound names hnames
        exact ⟨hproper, first, List.mem_append_left _ hfirst, rest, rfl⟩
      · obtain ⟨hproper, first, hfirst, rest, rfl⟩ := hfound' names hnames
        exact ⟨hproper, first, List.mem_append_right _ hfirst, rest, rfl⟩

end Walk.Ascends

section

variable {s : Selection} {root directory : String} {enter : String → Walk}

theorem ascends_entry (henter : ∀ path, ∃ firsts, (enter path).Ascends firsts path) {name : String}
    (hname : ProperName name) (isDirectory : Bool) :
    (walkEntry s root enter (entryPath directory name) isDirectory).Ascends [name] directory := by
  rw [walkEntry]
  split
  · split
    · obtain ⟨firsts, h⟩ := henter (entryPath directory name)
      exact h.enter hname
    · exact .nothing rfl
  · split
    · exact .file hname
    · exact .nothing rfl

theorem ascends_entries (henter : ∀ path, ∃ firsts, (enter path).Ascends firsts path)
    {es : Entries} (hproper : ∀ e ∈ es, ProperName e.1)
    (hsorted : es.Pairwise fun a b => a.1 < b.1) :
    (walkEntries s root enter directory es).Ascends (es.map (·.1)) directory := by
  induction es with
  | nil => exact .nothing rfl
  | cons e es ih =>
    obtain ⟨name, e⟩ := e
    obtain ⟨hname, hproper⟩ := List.forall_mem_cons.1 hproper
    obtain ⟨hbefore, hsorted⟩ := List.pairwise_cons.1 hsorted
    rw [walkEntries_cons]
    refine (ascends_entry henter hname e.isDirectory).append (ih hproper hsorted) ?_
    intro a ha b hb
    obtain ⟨e', he', rfl⟩ := List.mem_map.1 hb
    exact List.mem_singleton.1 ha ▸ hbefore e' he'

/-- **A walk of a directory goes through lists of names that increase**, as far as it comes. -/
theorem ascends_directory {fs : FileSystem} (hfs : fs.Valid) (s : Selection) (root : String)
    (levels : Nat) (directory : String) :
    ∃ firsts, (walkDirectory fs s root levels directory).Ascends firsts directory := by
  induction levels generalizing directory with
  | zero => exact ⟨[], .nothing rfl⟩
  | succ levels ih =>
    rw [walkDirectory]
    split
    · exact ⟨[], .nothing rfl⟩
    · rename_i es hlist
      have hes := FileSystem.list_valid hfs hlist
      exact ⟨_, ascends_entries ih (hes.perm es.sorted_perm).proper (Entries.sorted_pairwise hes)⟩

end

/-- The files of a walk have increasing lists of components. -/
theorem Walk.Ascends.components {w : Walk} {firsts : List String} {here : String}
    (h : w.Ascends firsts here) : (w.files.map Path.components).Pairwise (· < ·) := by
  obtain ⟨found, hfiles, hsorted, hfound⟩ := h
  rw [hfiles, List.map_map]
  refine List.pairwise_map.2 (hsorted.imp_of_mem fun {names names'} hnames hnames' hlt => ?_)
  obtain ⟨hproper, first, -, rest, rfl⟩ := hfound names hnames
  obtain ⟨hproper', first', -, rest', rfl⟩ := hfound names' hnames'
  rw [Function.comp_apply, Function.comp_apply, components_foldl_entryPath hproper,
    components_foldl_entryPath hproper']
  exact List.append_left_lt hlt

theorem walk_components_increase {fs : FileSystem} (hfs : fs.Valid) (s : Selection)
    (root : String) : ((walk fs s root).files.map Path.components).Pairwise (· < ·) := by
  rw [walk]
  split
  · obtain ⟨firsts, h⟩ := ascends_directory hfs s root pathBytesLimit root
    exact h.components
  split
  · exact .nil
  split
  · exact List.pairwise_singleton _ _
  · exact .nil

/-! ## Lines -/

/-- The lines of what is found in a tree do not decrease if the rows of its nodes do not decrease in
preorder. -/
theorem lines_of_check {root : Node} (hrows : (root.preorder.map (·.row)).Pairwise (· ≤ ·))
    {source : Source} {file : String} {ds : List Diagnostic}
    (h : check (root.extract source file) = .ok ds) : (ds.map (·.line)).Pairwise (· ≤ ·) := by
  have hlines : (root.preorder.map (·.line)).Pairwise (· ≤ ·) := by
    refine List.pairwise_map.2 ((List.pairwise_map.1 hrows).imp fun hle => ?_)
    rw [Node.line, Node.line]
    omega
  have hsub := (findings_sublist (root.extract source file).groups).map (·.line)
  rw [Go.Root.lines_extract, ← check_eq_ok h] at hsub
  exact hlines.sublist (hsub.trans (root.nameNodes_sublist.map _))

/-- What is found in a file is told under its path, with lines that do not decrease. -/
theorem checkFile_sorted {fs : FileSystem} {path : String} {ds : List Diagnostic}
    (h : (checkFile fs path).value = .ok ds) :
    (∀ d ∈ ds, d.file = path) ∧ (ds.map (·.line)).Pairwise (· ≤ ·) := by
  obtain ⟨content, root, hparse, hcheck⟩ := exists_root_of_checkFile h
  obtain ⟨found, hfound, -, hlines⟩ :=
    ((Go.root_of_parse? hparse).placed_extract path).verdict
  obtain rfl := Except.ok.inj (hcheck.symm.trans hfound)
  exact ⟨files_of_check hcheck, hlines⟩

/-! ## Scans -/

/-- The diagnostic comes before the other: by its path, or in the same file by its line. -/
def Diagnostic.Before (d d' : Diagnostic) : Prop :=
  Path.components d.file < Path.components d'.file ∨ d.file = d'.file ∧ d.line ≤ d'.line

/-- What is found in files one after the other is sorted if the files are. -/
theorem pairwise_before {blocks : List CheckedFile}
    (hfiles : ((blocks.map (·.1)).map Path.components).Pairwise (· < ·))
    (hblocks : ∀ b ∈ blocks,
      (∀ d ∈ b.2, d.file = b.1) ∧ (b.2.map (·.line)).Pairwise (· ≤ ·)) :
    (blocks.flatMap (·.2)).Pairwise Diagnostic.Before := by
  rw [List.map_map] at hfiles
  refine List.pairwise_flatMap.2 ⟨fun b hb => ?_, ?_⟩
  · obtain ⟨hfile, hlines⟩ := hblocks b hb
    refine (List.pairwise_map.1 hlines).imp_of_mem fun hd hd' hle => .inr ⟨?_, hle⟩
    rw [hfile _ hd, hfile _ hd']
  · refine (List.pairwise_map.1 hfiles).imp_of_mem fun hb hb' hlt d hd d' hd' => .inl ?_
    rw [(hblocks _ hb).1 d hd, (hblocks _ hb').1 d' hd']
    exact hlt

/-- **What a scan finds is sorted.**  It comes in one block for each file of the walk, in the order
of the walk; each block is about its file only, and the lines in it do not decrease; the files have
increasing lists of components.  So all of it is sorted by the components of the paths and then by
line.  Within a file the order is that of the tree: of any tree whose nodes are in rows that do not
decrease in preorder, what is found has lines that do not decrease. -/
theorem scan_sorted {fs : FileSystem} (hfs : fs.Valid) (endings : Path.Endings) (path : String)
    (includeTests : Bool) {r : ScanResult}
    (h : (scan fs endings path includeTests).value = .ok r) :
    let (root, s) := selectionOf path endings includeTests
    (∃ blocks : List CheckedFile,
        r.diagnostics = blocks.flatMap (·.2) ∧ blocks.map (·.1) = (walk fs s root).files ∧
          ∀ b ∈ blocks, (∀ d ∈ b.2, d.file = b.1) ∧ (b.2.map (·.line)).Pairwise (· ≤ ·)) ∧
      ((walk fs s root).files.map Path.components).Pairwise (· < ·) ∧
      r.diagnostics.Pairwise (fun d d' =>
        Path.components d.file < Path.components d'.file ∨ d.file = d'.file ∧ d.line ≤ d'.line) ∧
      ∀ (tree : Node) (source : Source) (file : String) (ds : List Diagnostic),
        (tree.preorder.map (·.row)).Pairwise (· ≤ ·) →
        check (tree.extract source file) = .ok ds →
        (∀ d ∈ ds, d.file = file) ∧ (ds.map (·.line)).Pairwise (· ≤ ·) := by
  have hincrease := walk_components_increase hfs (selectionOf path endings includeTests).2
    (selectionOf path endings includeTests).1
  rw [scan_value] at h
  cases houtcome : (walk fs (selectionOf path endings includeTests).2
      (selectionOf path endings includeTests).1).outcome fs with
  | error e =>
    rw [houtcome] at h
    exact absurd h (by simp [Except.map])
  | ok blocks =>
    rw [houtcome] at h
    obtain rfl := Except.ok.inj h
    obtain ⟨-, hfiles, hchecked⟩ := Walk.outcome_eq_ok_iff.1 houtcome
    have hblocks : ∀ b ∈ blocks,
        (∀ d ∈ b.2, d.file = b.1) ∧ (b.2.map (·.line)).Pairwise (· ≤ ·) := fun b hb =>
      checkFile_sorted (hchecked b hb)
    refine ⟨⟨blocks, rfl, hfiles, hblocks⟩, hincrease, ?_, ?_⟩
    · exact pairwise_before (by rw [hfiles]; exact hincrease) hblocks
    · exact fun tree source file ds hrows hcheck =>
        ⟨files_of_check hcheck, lines_of_check hrows hcheck⟩

/-! ## An example -/

/-- A source that declares variables, one on each line. -/
def sourceWith (names : List Go.Name) : Source :=
  (Text.bytesOf (Go.printLines ⟨"p", rfl⟩
    (names.map fun n => ⟨n, [], [.integer ⟨"1", rfl⟩]⟩))).toArray

/-- What is found in a source that declares variables. -/
theorem checkFile_sourceWith {fs : FileSystem} {path : String} {names : List Go.Name}
    (hread : fs.read path = .ok (sourceWith names)) {ds : List Diagnostic}
    (hcheck : check ⟨path, "p", Go.groupsFrom path 2
      (names.map fun n => ⟨n, [], [.integer ⟨"1", rfl⟩]⟩)⟩ = .ok ds) :
    (checkFile fs path).value = .ok ds :=
  (checkFile_value hread).trans
    (checkSource_eq_ok_iff.2 ⟨_, Go.read_printLines _ _ path, hcheck⟩)

/-- A directory with a source of two variables, a test, and a directory with one more source. -/
def layeredSystem : FileSystem where
  top := [
    ("a", .directory [("z.go", .file (sourceWith [⟨"x", rfl⟩]))]),
    ("a.go", .file (sourceWith [⟨"v", rfl⟩, ⟨"u", rfl⟩])),
    ("a_test.go", .file (sourceWith [⟨"t", rfl⟩]))]

namespace layeredSystem

theorem valid : layeredSystem.Valid := by
  have hinner : Entries.Valid [("z.go", .file (sourceWith [⟨"x", rfl⟩]))] :=
    .cons .nil (by decide) (by decide) fun es h => absurd h (by simp)
  refine .cons (.cons (.cons .nil (by decide) (by decide) fun es h => ?_) (by decide) (by decide)
    fun es h => ?_) (by decide) (by decide) fun es h => ?_
  · exact absurd h (by simp)
  · exact absurd h (by simp)
  · exact Entry.directory.inj h ▸ hinner

theorem list_top : layeredSystem.list "." = .ok layeredSystem.top :=
  FileSystem.list_eq_ok_iff.2 ⟨by decide, maxLinks, ⟨layeredSystem.top, []⟩,
    .blank (by decide) (.here ..), rfl⟩

theorem list_inner :
    layeredSystem.list "a" = .ok [("z.go", .file (sourceWith [⟨"x", rfl⟩]))] := by
  with_unfolding_all rfl

theorem walk_eq : walk layeredSystem ⟨{}, true, true⟩ "." =
    ⟨[.file "a/z.go", .file "a.go", .file "a_test.go"], none⟩ := by
  have hsorted : layeredSystem.top.sorted = layeredSystem.top :=
    List.mergeSort_of_pairwise (by decide)
  have hpath : entryPath "." "a" = "a" := by with_unfolding_all decide
  have hinner : walkDirectory layeredSystem ⟨{}, true, true⟩ "." (4094 + 1) "a" =
      ⟨[.file "a/z.go"], none⟩ := by
    rw [walkDirectory, list_inner]
    simp only [Entries.sorted, List.mergeSort_singleton]
    with_unfolding_all decide
  have hfirst : walkEntry ⟨{}, true, true⟩ "."
      (walkDirectory layeredSystem ⟨{}, true, true⟩ "." (pathBytesLimit - 1)) (entryPath "." "a")
      true = ⟨[.file "a/z.go"], none⟩ := by
    rw [hpath]
    exact hinner
  rw [walk_of_list list_top, hsorted]
  refine (walkEntries_cons ..).trans ((congrArg (Walk.append · _) hfirst).trans ?_)
  with_unfolding_all decide

theorem selectionOf_eq : selectionOf "./..." {} true = (".", ⟨{}, true, true⟩) := by
  with_unfolding_all decide

/-- What is found in all its files. -/
def found : List Diagnostic :=
  [⟨"a/z.go", 2, "x"⟩, ⟨"a.go", 2, "v"⟩, ⟨"a.go", 3, "u"⟩, ⟨"a_test.go", 2, "t"⟩]

theorem scan_eq : (scan layeredSystem {} "./..." true).value = .ok ⟨3, found⟩ := by
  have hz : layeredSystem.read "a/z.go" = .ok (sourceWith [⟨"x", rfl⟩]) := by
    with_unfolding_all rfl
  have ha : layeredSystem.read "a.go" = .ok (sourceWith [⟨"v", rfl⟩, ⟨"u", rfl⟩]) := by
    with_unfolding_all rfl
  have htest : layeredSystem.read "a_test.go" = .ok (sourceWith [⟨"t", rfl⟩]) := by
    with_unfolding_all rfl
  have houtcome : (walk layeredSystem ⟨{}, true, true⟩ ".").outcome layeredSystem =
      .ok [("a/z.go", [⟨"a/z.go", 2, "x"⟩]), ("a.go", [⟨"a.go", 2, "v"⟩, ⟨"a.go", 3, "u"⟩]),
        ("a_test.go", [⟨"a_test.go", 2, "t"⟩])] := by
    rw [walk_eq]
    refine Walk.outcome_eq_ok_iff.2 ⟨rfl, rfl, ?_⟩
    simp only [List.forall_mem_cons]
    exact ⟨checkFile_sourceWith hz rfl, checkFile_sourceWith ha rfl,
      checkFile_sourceWith htest rfl, fun _ h => absurd h List.not_mem_nil⟩
  rw [scan_value, selectionOf_eq, houtcome]
  rfl

end layeredSystem

/-- The source in the inner directory comes first, although its path is the larger text. -/
theorem scan_layeredSystem_sorted :
    "a.go" < "a/z.go" ∧ (scan layeredSystem {} "./..." true).value = .ok ⟨3, layeredSystem.found⟩ ∧
      [["a", "z.go"], ["a.go"], ["a_test.go"]].Pairwise (· < ·) ∧
      layeredSystem.found.Pairwise (fun d d' =>
        Path.components d.file < Path.components d'.file ∨
          d.file = d'.file ∧ d.line ≤ d'.line) := by
  have hsorted := scan_sorted layeredSystem.valid {} "./..." true layeredSystem.scan_eq
  rw [layeredSystem.selectionOf_eq] at hsorted
  obtain ⟨-, hfiles, hdiagnostics, -⟩ := hsorted
  have hcomponents : (walk layeredSystem ⟨{}, true, true⟩ ".").files.map Path.components =
      [["a", "z.go"], ["a.go"], ["a_test.go"]] := by
    rw [layeredSystem.walk_eq]
    with_unfolding_all decide
  rw [hcomponents] at hfiles
  exact ⟨by with_unfolding_all decide, layeredSystem.scan_eq, hfiles, hdiagnostics⟩

end GoGlobals
