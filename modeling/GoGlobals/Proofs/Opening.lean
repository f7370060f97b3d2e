import GoGlobals.Proofs.Go.Names
import GoGlobals.Proofs.Scan

/-!
# What a walk opens

A walk lists a directory and then opens what it has listed under paths of its own making: the name
of an entry behind the path of its directory, cleaned.  Cleaning takes a component back against the
`..` behind it, while following a path goes through the component first, and if that is a link the
two part ways.  Then the path leads to another entry than the one that was listed, or to none.

`Selection.Meets` says which entries a walk lists, with the place where each of them is and the path
that the walk makes for it.  All files of a walk are found in this way (`explains_walk`).  Their
paths lead back to the entries if cleaning the root does not change where it leads
(`Selection.Meets.pointsAt`); it is only for the root that cleaning can make a difference, since
every other path is clean when it is listed.

## What is here

* `Leads.resolveFrom_name`: a name is looked up in the directory that the components before it lead
  to, whether a link behind the name is followed or not.
* `FileSystem.pointsAt_entryPath`: the path of an entry leads to the entry, for a directory whose
  path cleans in place.
* `checkSource_file`: what is found in a text is told under the path of the text.
* `walk_opens_listed` is the theorem, and `walk_crossedSystem` shows what happens otherwise.
-/

set_option autoImplicit false

namespace GoGlobals

open GoGlobals.Path (ProperName squeeze isBlank cleanComponents)
open Text (Source)

/-! ## Names behind components -/

section

variable {follows : Bool} {n m : Nat} {t t' : Trail} {c : String}

theorem advance_of_name (hname : IsName c) (cs : List String) :
    advance follows t (c :: cs) =
      match t.entries.get? c with
      | none => .lost .missing
      | some (.directory inner) => advance follows (t.down c inner) cs
      | some (.file content) =>
        if cs.isEmpty then .arrived ⟨.file content, t.names ++ [c]⟩ else .lost .notDirectory
      | some (.link path) =>
        if cs.isEmpty && !follows then .arrived ⟨.link path, t.names ++ [c]⟩
        else .detour path t cs := by
  rewrite [advance_cons, if_neg (by simp [hname.not_blank]), if_neg hname.ne_dots,
    if_neg (Nat.not_lt.2 hname.le_maxNameBytes)]
  rfl

/-- A name is looked up, and what it leads to is followed on. -/
theorem IsName.resolveFrom (hname : IsName c) (n : Nat) (t : Trail) (cs : List String) :
    resolveFrom follows n t (c :: cs) =
      match t.entries.get? c with
      | none => .error .missing
      | some (.directory inner) => GoGlobals.resolveFrom follows n (t.down c inner) cs
      | some (.file content) =>
        if cs.isEmpty then .ok ⟨.file content, t.names ++ [c]⟩ else .error .notDirectory
      | some (.link path) =>
        if cs.isEmpty && !follows then .ok ⟨.link path, t.names ++ [c]⟩
        else match n with
          | 0 => .error .tooManyLinks
          | n + 1 =>
            GoGlobals.resolveFrom follows n (t.start path) (Path.components path ++ cs) := by
  rw [resolveFrom.eq_def, advance_of_name hname]
  cases t.entries.get? c with
  | none => rfl
  | some e =>
    cases e with
    | file content => cases cs <;> rfl
    | directory inner => exact (resolveFrom.eq_def ..).symm
    | link path =>
      by_cases hlast : (cs.isEmpty && !follows) = true
      · simp only [if_pos hlast]
      · cases n <;> simp only [if_neg hlast]

/-- What stands last is looked up in the directory that the components before it lead to. -/
theorem Leads.resolveFrom_name {cs : List String} (h : Leads n t cs m t') (name : String) :
    resolveFrom follows n t (cs ++ [name]) = resolveFrom follows m t' [name] := by
  induction h with
  | here n t => rfl
  | blank hblank _ ih => rw [← ih, List.cons_append, resolveFrom_of_blank hblank]
  | up _ ih => rw [← ih, List.cons_append, resolveFrom_of_dots]
  | down hname hget _ ih => rw [← ih, List.cons_append, hname.resolveFrom, hget]
  | link hname hget _ ih =>
    have hmore : ∀ cs : List String, (cs ++ [name]).isEmpty = false := by simp
    rw [← ih, List.cons_append, hname.resolveFrom, hget]
    simp only [hmore, Bool.false_and, Bool.false_eq_true, if_false, List.append_assoc]

/-- Looking up the name of an entry finds the entry; only a link at the end can lead further. -/
theorem resolveFrom_entry {name : String} (hname : IsName name) {e : Entry}
    (hget : t.entries.get? name = some e) (hlink : follows = false ∨ ∀ path, e ≠ .link path) :
    resolveFrom follows n t [name] = .ok ⟨e, t.names ++ [name]⟩ := by
  rw [hname.resolveFrom, hget]
  cases e with
  | file content => rfl
  | directory inner =>
    simp only [resolveFrom_nil, Trail.names_down]
    rfl
  | link path =>
    rcases hlink with rfl | hlink
    · rfl
    · exact absurd rfl (hlink path)

end

/-! ## Paths of directories -/

/-- Components that lead from the start of a path to a directory with these entries at this
location. -/
def FileSystem.LeadsTo (fs : FileSystem) (path : String) (cs : List String) (es : Entries)
    (location : List String) : Prop :=
  ∃ m t, Leads maxLinks (fs.here.start path) cs m t ∧ t.entries = es ∧ t.names = location

theorem FileSystem.leadsTo_of_resolve {fs : FileSystem} {path : String} {es : Entries}
    {location : List String} (h : fs.resolve path = .ok ⟨.directory es, location⟩) :
    FileSystem.pathFault? path = none ∧ fs.LeadsTo path (Path.components path) es location := by
  rw [resolve] at h
  cases hfault : pathFault? path with
  | some fault =>
    rw [hfault] at h
    exact absurd h (by simp)
  | none =>
    rw [hfault] at h
    obtain ⟨m, t, hleads, hes⟩ := exists_leads maxLinks h
    have harrived := hleads.resolveFrom_append []
    rw [List.append_nil, resolveFrom_nil] at harrived
    obtain ⟨-, hlocation⟩ := Target.mk.inj (Except.ok.inj (harrived.symm.trans h))
    exact ⟨rfl, m, t, hleads, hes, hlocation⟩

/-- Only the components that lead somewhere, and whether the path is absolute, matter. -/
theorem FileSystem.LeadsTo.congr {fs : FileSystem} {path path' : String} {cs cs' : List String}
    {es : Entries} {location : List String} (h : fs.LeadsTo path cs es location)
    (habs : Path.isAbsolute path' = Path.isAbsolute path) (hcs : squeeze cs' = squeeze cs) :
    fs.LeadsTo path' cs' es location := by
  obtain ⟨m, t, hleads, hes, hlocation⟩ := h
  have hstart : fs.here.start path' = fs.here.start path := by
    rw [Trail.start, Trail.start, habs]
  exact ⟨m, t, hstart ▸ hleads.of_squeeze hcs, hes, hlocation⟩

theorem FileSystem.list_eq_ok {fs : FileSystem} {path : String} {es : Entries}
    (h : fs.list path = .ok es) : ∃ location, fs.resolve path = .ok ⟨.directory es, location⟩ := by
  rw [list] at h
  cases hresolve : fs.resolve path with
  | error fault =>
    rw [hresolve] at h
    exact absurd h (by simp)
  | ok target =>
    obtain ⟨entry, location⟩ := target
    rw [hresolve] at h
    cases entry with
    | file content => exact absurd h (by simp)
    | link target => exact absurd h (by simp)
    | directory inner =>
      obtain rfl : inner = es := Except.ok.inj h
      exact ⟨location, rfl⟩

theorem FileSystem.list_of_resolve {fs : FileSystem} {path : String} {es : Entries}
    {location : List String} (h : fs.resolve path = .ok ⟨.directory es, location⟩) :
    fs.list path = .ok es := by
  rw [list, h]

/-- Cleaning the path does not change where it leads: no component of it leads up, or the clean
path leads there too. -/
def FileSystem.CleansInPlace (fs : FileSystem) (path : String) : Prop :=
  ".." ∉ Path.components path ∨ fs.resolve (Path.normalize path) = fs.resolve path

/-- The clean components of such a path lead to its directory. -/
theorem FileSystem.CleansInPlace.leadsTo {fs : FileSystem} {path : String}
    (h : fs.CleansInPlace path) {es : Entries} {location : List String}
    (hresolve : fs.resolve path = .ok ⟨.directory es, location⟩) :
    fs.LeadsTo path (cleanComponents path) es location := by
  rcases h with hdots | hclean
  · obtain ⟨-, hleads⟩ := leadsTo_of_resolve hresolve
    refine hleads.congr rfl ?_
    rw [Path.squeeze_cleanComponents, Path.cleanComponents_of_no_dots hdots]
  · obtain ⟨-, hleads⟩ := leadsTo_of_resolve (hclean.trans hresolve)
    refine hleads.congr (Path.isAbsolute_normalize path).symm ?_
    rw [Path.squeeze_cleanComponents, Path.squeeze_components_normalize]

/-- A clean path is left as it is. -/
theorem FileSystem.cleansInPlace_normalize (fs : FileSystem) (path : String) :
    fs.CleansInPlace (Path.normalize path) :=
  .inr (congrArg (fs.resolve ·) (Path.normalize_normalize path))

/-- The path of an entry ends with the name of the entry, behind components that clean up to those
of the directory. -/
theorem exists_components_entryPath {name : String} (hname : ProperName name)
    (directory : String) :
    ∃ before, Path.components (entryPath directory name) = before ++ [name] ∧
      squeeze before = cleanComponents directory := by
  have hcomponents : ∃ before, Path.components (entryPath directory name) = before ++ [name] := by
    obtain ⟨before, htext, hbefore⟩ := Path.toList_normalize_join hname directory
    rcases hbefore with rfl | hlast
    · have hpath : entryPath directory name = name := String.toList_injective htext
      exact ⟨[], by rw [hpath, Path.components_of_no_slash hname.no_slash]; rfl⟩
    · obtain ⟨start, rfl⟩ := List.getLast?_eq_some_iff.1 hlast
      have hpath : entryPath directory name = String.ofList start ++ "/" ++ name := by
        apply String.toList_injective
        rw [entryPath, htext]
        simp
      refine ⟨Path.components (String.ofList start), ?_⟩
      rw [hpath, Path.components_slash, Path.components_of_no_slash hname.no_slash]
  obtain ⟨before, hbefore⟩ := hcomponents
  refine ⟨before, hbefore, ?_⟩
  have hlast : squeeze [name] = [name] := by
    rw [Path.squeeze_cons_of_not_blank hname.not_blank]
    rfl
  have hsqueeze : squeeze (Path.components (entryPath directory name)) =
      cleanComponents directory ++ [name] := by
    rw [entryPath, Path.squeeze_components_normalize, Path.cleanComponents_join hname]
  rw [hbefore, Path.squeeze_append, hlast] at hsqueeze
  exact List.append_cancel_right hsqueeze

theorem pathFault?_entryPath {name : String} (hname : ProperName name) {directory : String}
    (hnul : '\x00' ∉ directory.toList) :
    FileSystem.pathFault? (entryPath directory name) = none ∨
      FileSystem.pathFault? (entryPath directory name) = some .tooLong := by
  have hnul' : '\x00' ∉ (entryPath directory name).toList :=
    Path.no_nul_normalize_join hname hnul
  have hne : (entryPath directory name).isEmpty = false := by
    rw [Bool.eq_false_iff]
    intro hempty
    obtain ⟨before, htext, -⟩ := Path.toList_normalize_join hname directory
    rw [← entryPath, String.isEmpty_iff.1 hempty] at htext
    exact hname.toList_ne_nil (List.append_eq_nil_iff.1 htext.symm).2
  rw [FileSystem.pathFault?, if_neg (by simpa using hnul'), hne, if_neg Bool.false_ne_true]
  split
  · exact .inr rfl
  · exact .inl rfl

/-- The path leads to the entry.  If the entry is a link, that is where the path leads without
following it. -/
def FileSystem.PointsAt (fs : FileSystem) (path : String) (found : Target) : Prop :=
  ∀ follows, (follows = false ∨ ∀ target, found.entry ≠ .link target) →
    fs.resolve path follows = .ok found

/-- The path cannot be followed since it is too long, or a name in it is. -/
def FileSystem.TooLong (fs : FileSystem) (path : String) : Prop :=
  ∀ follows, fs.resolve path follows = .error .tooLong

/-- **The path of an entry leads to the entry** if the clean form of the path of its directory leads
to the directory. -/
theorem FileSystem.pointsAt_entryPath {fs : FileSystem} {directory name : String} {es : Entries}
    {location : List String} (hes : es.Valid)
    (hresolve : fs.resolve directory = .ok ⟨.directory es, location⟩)
    (hclean : fs.CleansInPlace directory) {e : Entry} (hmem : (name, e) ∈ es) :
    fs.TooLong (entryPath directory name) ∨
      fs.PointsAt (entryPath directory name) ⟨e, location ++ [name]⟩ := by
  have hname := hes.proper _ hmem
  have hnul : '\x00' ∉ directory.toList :=
    no_nul_of_isDirectory (by rw [isDirectory, hresolve]; rfl)
  rcases pathFault?_entryPath hname hnul with hfault | hfault
  · obtain ⟨before, hcomponents, hbefore⟩ := exists_components_entryPath hname directory
    obtain ⟨m, t, hleads, rfl, rfl⟩ := (hclean.leadsTo hresolve).congr
      (isAbsolute_entryPath hname directory)
      (hbefore.trans (Path.squeeze_cleanComponents directory).symm)
    have hlast : ∀ follows, fs.resolve (entryPath directory name) follows =
        resolveFrom follows m t [name] := by
      intro follows
      rw [FileSystem.resolve, hfault, hcomponents]
      exact hleads.resolveFrom_name name
    rcases Nat.lt_or_ge maxNameBytes name.utf8ByteSize with hlong | hshort
    · exact .inl fun follows => (hlast follows).trans
        (resolveFrom_of_long hname.not_blank hname.ne_dots hlong m [])
    · have hget := (Entries.get?_eq_some_iff hes).2 hmem
      exact .inr fun follows hlink => (hlast follows).trans
        (resolveFrom_entry ⟨hname.not_blank, hname.ne_dots, hshort⟩ hget hlink)
  · exact .inl fun follows => by rw [FileSystem.resolve, hfault]

/-! ## Entries that a walk lists -/

namespace Selection

/-- The walk lists what is at the path: it is the root, or a directory in one that is listed holds a
directory under this path, and the walk enters it. -/
inductive Lists (s : Selection) (fs : FileSystem) (root : String) : String → Prop
  | root : Lists s fs root root
  | inside {directory name : String} {es inner : Entries} (h : Lists s fs root directory)
      (hlist : fs.list directory = .ok es) (hmem : (name, .directory inner) ∈ es)
      (henters : s.enters root (entryPath directory name) = true) :
      Lists s fs root (entryPath directory name)

/-- The walk meets an entry, at its location, under a path: it lists the directory that holds the
entry and puts the name of the entry behind the path of that directory. -/
def Meets (s : Selection) (fs : FileSystem) (root path : String) (found : Target) : Prop :=
  ∃ directory es location name, s.Lists fs root directory ∧
    fs.resolve directory = .ok ⟨.directory es, location⟩ ∧ (name, found.entry) ∈ es ∧
    path = entryPath directory name ∧ found.location = location ++ [name]

variable {s : Selection} {fs : FileSystem} {root : String}

theorem Lists.cleansInPlace (hroot : fs.CleansInPlace root) {directory : String}
    (h : s.Lists fs root directory) : fs.CleansInPlace directory := by
  cases h with
  | root => exact hroot
  | inside _ _ _ _ => exact fs.cleansInPlace_normalize _

/-- What the walk meets is what its path leads to. -/
theorem Meets.pointsAt (hfs : fs.Valid) (hroot : fs.CleansInPlace root) {path : String}
    {found : Target} (h : s.Meets fs root path found) :
    fs.TooLong path ∨ fs.PointsAt path found := by
  obtain ⟨directory, es, location, name, hlists, hresolve, hmem, hpath, hlocation⟩ := h
  obtain ⟨entry, location'⟩ := found
  obtain rfl : location' = location ++ [name] := hlocation
  rw [hpath]
  exact FileSystem.pointsAt_entryPath
    (FileSystem.list_valid hfs (FileSystem.list_of_resolve hresolve)) hresolve
    (hlists.cleansInPlace hroot) hmem

end Selection

/-! ## The paths of a walk -/

/-- The files of the walk are under paths of entries that it meets, and if it ended early, a
directory that it had to list could not be listed. -/
structure Selection.Explains (s : Selection) (fs : FileSystem) (root : String) (w : Walk) :
    Prop where
  files : ∀ path ∈ w.files, ∃ found, s.Meets fs root path found ∧ found.entry.isDirectory = false
  error : ∀ e, w.error = some e → ∃ fault directory, e = .unlisted fault directory ∧
    s.Lists fs root directory ∧ fs.list directory = .error fault

namespace Selection

variable {s : Selection} {fs : FileSystem} {root : String}

theorem explains_of_nothing {w : Walk} (hfiles : w.files = []) (herror : w.error = none) :
    s.Explains fs root w := by
  refine ⟨fun path hpath => ?_, fun e he => ?_⟩
  · rw [hfiles] at hpath
    exact absurd hpath List.not_mem_nil
  · rw [herror] at he
    exact absurd he (by simp)

theorem Explains.append {w next : Walk} (h : s.Explains fs root w)
    (hnext : s.Explains fs root next) : s.Explains fs root (w.append next) := by
  cases herror : w.error with
  | some e =>
    rw [Walk.append, herror]
    exact h
  | none =>
    refine ⟨fun path hpath => ?_, fun e he => ?_⟩
    · rw [Walk.files_append herror, List.mem_append] at hpath
      exact hpath.elim (h.files path) (hnext.files path)
    · rw [Walk.error_append herror] at he
      exact hnext.error e he

/-- The walk of one entry: a file is met, and a directory that is entered is listed. -/
theorem explains_entry {enter : String → Walk} {directory name : String} {es : Entries} {e : Entry}
    (hlists : s.Lists fs root directory) (hlist : fs.list directory = .ok es)
    (hmem : (name, e) ∈ es)
    (henter : s.Lists fs root (entryPath directory name) →
      s.Explains fs root (enter (entryPath directory name))) :
    s.Explains fs root (walkEntry s root enter (entryPath directory name) e.isDirectory) := by
  rw [walkEntry]
  split
  · rename_i hdirectory
    obtain ⟨inner, rfl⟩ := Entry.isDirectory_iff.1 hdirectory
    split
    · rename_i henters
      exact henter (.inside hlists hlist hmem henters)
    · exact explains_of_nothing rfl rfl
  · rename_i hfile
    split
    · obtain ⟨location, hresolve⟩ := FileSystem.list_eq_ok hlist
      refine ⟨fun path hpath => ?_, fun e he => absurd he (by simp)⟩
      exact ⟨⟨e, location ++ [name]⟩,
        ⟨directory, es, location, name, hlists, hresolve, hmem, List.mem_singleton.1 hpath, rfl⟩,
        by simpa using hfile⟩
    · exact explains_of_nothing rfl rfl

theorem explains_entries {enter : String → Walk} {directory : String} {es : Entries}
    (hlists : s.Lists fs root directory) (hlist : fs.list directory = .ok es)
    (henter : ∀ name e, (name, e) ∈ es → s.Lists fs root (entryPath directory name) →
      s.Explains fs root (enter (entryPath directory name))) {part : Entries}
    (hpart : ∀ e ∈ part, e ∈ es) :
    s.Explains fs root (walkEntries s root enter directory part) := by
  induction part with
  | nil => exact explains_of_nothing rfl rfl
  | cons first part ih =>
    obtain ⟨name, e⟩ := first
    obtain ⟨hmem, hpart⟩ := List.forall_mem_cons.1 hpart
    rw [walkEntries_cons]
    exact (explains_entry hlists hlist hmem (henter name e hmem)).append (ih hpart)

theorem explains_directory (hfs : fs.Valid) (levels : Nat) :
    ∀ {directory : String}, Deep levels directory → s.Lists fs root directory →
      s.Explains fs root (walkDirectory fs s root levels directory) := by
  have hunlisted : ∀ {directory : String} {fault : PathFault}, s.Lists fs root directory →
      fs.list directory = .error fault →
      s.Explains fs root { error := some (.unlisted fault directory) } := by
    intro directory fault hlists hlist
    refine ⟨fun path hpath => absurd hpath List.not_mem_nil, fun e he => ?_⟩
    exact ⟨fault, directory, (Option.some.inj he).symm, hlists, hlist⟩
  induction levels with
  | zero =>
    intro directory hdeep hlists
    exact hunlisted hlists (list_of_deep hdeep fs)
  | succ levels ih =>
    intro directory hdeep hlists
    rw [walkDirectory]
    split
    · rename_i fault hlist
      exact hunlisted hlists hlist
    · rename_i es hlist
      have hproper := (FileSystem.list_valid hfs hlist).proper
      exact explains_entries hlists hlist
        (fun name e he => ih (hdeep.entry (hproper (name, e) he)))
        fun e he => es.sorted_perm.subset he

end Selection

/-- A walk from a directory is explained by what it lists. -/
theorem explains_walk {fs : FileSystem} (hfs : fs.Valid) (s : Selection) {root : String}
    (hroot : fs.isDirectory root = true) : s.Explains fs root (walk fs s root) := by
  rw [walk, if_pos hroot]
  exact Selection.explains_directory hfs pathBytesLimit (deep_root hroot) .root

/-! ## Reading what was listed -/

/-- Checking a file is checking its content. -/
theorem checkFile_value {fs : FileSystem} {path : String} {content : Source}
    (hread : fs.read path = .ok content) :
    (checkFile fs path).value = (checkSource content path).value := by
  rw [checkFile, hread, checkSource]
  simp only [bind, Logged.after]
  cases (readSource content path).value with
  | error e => rfl
  | ok file => rfl

/-- What is found in a file is found in one of its groups. -/
theorem exists_group_of_check {f : SourceFile} {ds : List Diagnostic} (h : check f = .ok ds) :
    ∀ d ∈ ds, ∃ g ∈ f.groups, d.file = g.file := by
  intro d hd
  rw [check_eq_ok h] at hd
  obtain ⟨g, hg, hd⟩ := List.mem_flatMap.1 hd
  obtain ⟨i, -, rfl⟩ := List.mem_map.1 (g.findings_sublist.subset hd)
  exact ⟨g, hg, rfl⟩

theorem files_of_check {root : Node} {source : Source} {file : String} {ds : List Diagnostic}
    (h : check (root.extract source file) = .ok ds) : ∀ d ∈ ds, d.file = file := by
  intro d hd
  obtain ⟨g, hg, hfile⟩ := exists_group_of_check h d hd
  obtain ⟨spec, -, rfl⟩ := List.mem_map.1 hg
  exact hfile

/-- A text is checked by reading its declarations and checking these. -/
theorem checkSource_eq_ok_iff {content : Source} {path : String} {ds : List Diagnostic} :
    (checkSource content path).value = .ok ds ↔
      ∃ f, SourceFile.read content path = .ok f ∧ check f = .ok ds := by
  cases hread : SourceFile.read content path with
  | error refusal =>
    have hvalue : readSource content path =
        ⟨refusal.records path, .error (.refused (refusal.error path))⟩ := by
      delta readSource
      rw [hread]
    rw [checkSource]
    simp [hvalue, bind, pure, Logged.after]
  | ok f =>
    have hvalue : readSource content path = ⟨[], .ok f⟩ := by
      delta readSource
      rw [hread]
    rw [checkSource]
    simp only [hvalue, bind, Logged.after, checkDeclarations]
    cases hcheck : check f with
    | error e => simp [Except.mapError, hcheck]
    | ok found => simp [Except.mapError, hcheck]

/-- What is found in a text is found in its tree. -/
theorem exists_root_of_checkSource {content : Source} {path : String} {ds : List Diagnostic}
    (h : (checkSource content path).value = .ok ds) :
    ∃ root, Go.parse? content = some root ∧ check (root.extract content path) = .ok ds := by
  obtain ⟨f, hread, hcheck⟩ := checkSource_eq_ok_iff.1 h
  obtain ⟨root, hparse, rfl⟩ := SourceFile.exists_root_of_read hread
  exact ⟨root, hparse, hcheck⟩

/-- What is found in a file is found in the tree of its content. -/
theorem exists_root_of_checkFile {fs : FileSystem} {path : String} {ds : List Diagnostic}
    (h : (checkFile fs path).value = .ok ds) :
    ∃ content root, Go.parse? content = some root ∧ check (root.extract content path) = .ok ds := by
  cases hread : fs.read path with
  | error fault =>
    rw [checkFile, hread] at h
    exact absurd h (by simp [pure])
  | ok content =>
    rw [checkFile_value hread] at h
    exact ⟨content, exists_root_of_checkSource h⟩

/-- **A diagnostic names the path under which its text was checked.** -/
theorem checkSource_file {content : Source} {path : String} {ds : List Diagnostic}
    (h : (checkSource content path).value = .ok ds) : ∀ d ∈ ds, d.file = path := by
  obtain ⟨root, -, hcheck⟩ := exists_root_of_checkSource h
  exact files_of_check hcheck

/-! ## Opening what was listed -/

/-- What is listed under the path is opened under it: the path leads to the entry itself, a
directory is the one that is then listed, and of a file it is the content that is then checked.
Whatever is found there is told under this path. -/
structure FileSystem.Opens (fs : FileSystem) (path : String) (found : Target) : Prop where
  entry : fs.resolve path false = .ok found
  directory : ∀ inner, found.entry = .directory inner → fs.list path = .ok inner
  file : ∀ content, found.entry = .file content →
    fs.read path = .ok content ∧
      (checkFile fs path).value = (checkSource content path).value ∧
      ∀ ds, (checkFile fs path).value = .ok ds → ∀ d ∈ ds, d.file = path

theorem FileSystem.PointsAt.opens {fs : FileSystem} {path : String} {found : Target}
    (h : fs.PointsAt path found) : fs.Opens path found := by
  refine ⟨h false (.inl rfl), fun inner hinner => ?_, fun content hcontent => ?_⟩
  · have hresolve := h true (.inr fun target htarget => by simp [hinner] at htarget)
    rw [list, hresolve]
    obtain ⟨entry, location⟩ := found
    obtain rfl : entry = .directory inner := hinner
    rfl
  · have hresolve := h true (.inr fun target htarget => by simp [hcontent] at htarget)
    have hread : fs.read path = .ok content := by
      rw [read, hresolve]
      obtain ⟨entry, location⟩ := found
      obtain rfl : entry = .file content := hcontent
      rfl
    have hcheck := checkFile_value hread
    exact ⟨hread, hcheck, fun ds hds => checkSource_file (hcheck.symm.trans hds)⟩

/-- **A walk opens what it listed** if cleaning its root does not change where the root leads.  Each
of its files is under the path of an entry that it met, and every entry that it met, a file or a
directory, is opened under its path, unless the path is too long for anything to be opened. -/
theorem walk_opens_listed {fs : FileSystem} (hfs : fs.Valid) (s : Selection) {root : String}
    (hroot : fs.isDirectory root = true) (hclean : fs.CleansInPlace root) :
    (∀ path ∈ (walk fs s root).files,
        ∃ found, s.Meets fs root path found ∧ found.entry.isDirectory = false) ∧
      ∀ path found, s.Meets fs root path found → fs.TooLong path ∨ fs.Opens path found := by
  refine ⟨(explains_walk hfs s hroot).files, fun path found hmeets => ?_⟩
  exact (hmeets.pointsAt hfs hclean).imp id FileSystem.PointsAt.opens

theorem walk_sampleSystem_opens :
    sampleSystem.isDirectory "./a/.." = true ∧
      sampleSystem.resolve (Path.normalize "./a/..") = sampleSystem.resolve "./a/.." ∧
      (∀ path ∈ (walk sampleSystem ⟨{}, false, true⟩ "./a/..").files, ∃ found,
        (⟨{}, false, true⟩ : Selection).Meets sampleSystem "./a/.." path found ∧
          found.entry.isDirectory = false) ∧
      sampleSystem.Opens "z.go" ⟨.file #[], ["z.go"]⟩ := by
  have hroot : sampleSystem.isDirectory "./a/.." = true := by with_unfolding_all decide
  have hresolve : sampleSystem.resolve "./a/.." = .ok ⟨.directory sampleSystem.top, []⟩ := by
    with_unfolding_all rfl
  have hclean : sampleSystem.resolve (Path.normalize "./a/..") =
      sampleSystem.resolve "./a/.." := by
    with_unfolding_all rfl
  obtain ⟨hfiles, hopens⟩ :=
    walk_opens_listed sampleSystem_valid ⟨{}, false, true⟩ hroot (.inr hclean)
  refine ⟨hroot, hclean, hfiles, (hopens "z.go" _ ?_).resolve_left fun hlong => ?_⟩
  · exact ⟨"./a/..", _, _, "z.go", .root, hresolve, List.mem_cons_self,
      by with_unfolding_all decide, rfl⟩
  · have hfound : (sampleSystem.resolve "z.go" false).isOk = true := by with_unfolding_all decide
    rw [hlong false] at hfound
    exact absurd hfound (by simp [Except.isOk, Except.toBool])

/-- A link into a directory, and two files of one name: beside the link, and in the directory that
holds the one it leads to. -/
def crossedSystem : FileSystem where
  top := [("link", .link "x/y"), ("a.go", .file #[1]),
    ("x", .directory [("a.go", .file #[2]), ("y", .directory [])])]

/-- What is listed behind the link is opened beside it. -/
theorem walk_crossedSystem :
    crossedSystem.isDirectory "link/.." = true ∧
      (walk crossedSystem {} "link/..").files = ["a.go"] ∧
      ({} : Selection).Meets crossedSystem "link/.." "a.go" ⟨.file #[2], ["x", "a.go"]⟩ ∧
      ¬ crossedSystem.TooLong "a.go" ∧
      ¬ crossedSystem.Opens "a.go" ⟨.file #[2], ["x", "a.go"]⟩ ∧
      crossedSystem.read "a.go" = .ok #[1] := by
  have hroot : crossedSystem.isDirectory "link/.." = true := by with_unfolding_all decide
  have hresolve : crossedSystem.resolve "link/.." =
      .ok ⟨.directory [("a.go", .file #[2]), ("y", .directory [])], ["x"]⟩ := by
    with_unfolding_all rfl
  have hopened : crossedSystem.resolve "a.go" false = .ok ⟨.file #[1], ["a.go"]⟩ := by
    with_unfolding_all rfl
  refine ⟨hroot, ?_, ?_, fun hlong => ?_, fun hopens => ?_, ?_⟩
  · have hlist := FileSystem.list_of_resolve hresolve
    have hsorted : Entries.sorted [("a.go", .file #[2]), ("y", .directory [])] =
        [("a.go", .file #[2]), ("y", .directory [])] :=
      List.mergeSort_of_pairwise (by decide)
    rw [walk, if_pos hroot, pathBytesLimit, walkDirectory, hlist]
    simp only [hsorted]
    with_unfolding_all decide
  · exact ⟨"link/..", _, _, "a.go", .root, hresolve, List.mem_cons_self,
      by with_unfolding_all decide, rfl⟩
  · exact absurd ((hlong false).symm.trans hopened) (by simp)
  · obtain ⟨-, hlocation⟩ :=
      Target.mk.inj (Except.ok.inj (hopens.entry.symm.trans hopened))
    exact absurd hlocation (by decide)
  · with_unfolding_all rfl

end GoGlobals
