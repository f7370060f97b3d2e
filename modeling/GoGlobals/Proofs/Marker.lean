import GoGlobals.Proofs.Failure
import GoGlobals.Proofs.Spelling

/-!
# Scans of all that is below a directory

To ask for all subdirectories of a directory, the marker `/...` is put behind its path, and where
the path ends with a slash already, the dots are enough.  The scan takes the marker off again, and
with it the slash that it shares with the path.  What is left should be another name of the same
directory, so that the scan meets everything that a scan of the directory alone would meet.

It is, for every directory but one.  The slash that is taken off the path `/` is all of it, and what
is left names nothing: there is no path for everything below the top.

The paths of what is met can differ as well.  Exactly two slashes in front of a path are kept and
any other number is one slash, so that the paths below `//` and `///` start differently when a slash
is taken off.  They lead to the same entries, but an ending with a slash in it could tell them
apart.

## What is here

* `Path.withMarker` puts the marker behind a path.
* `FileSystem.resolve_slash`: a directory has the same name without a slash at its end.
* `Selection.Revisits`: what one walk meets is met by another, under a path that may differ.
* `scan_withMarker` is the theorem, and `scan_top_withMarker` the directory that is left out.
-/

set_option autoImplicit false

namespace GoGlobals

open GoGlobals.Path (ProperName squeeze)

-- What the path of an entry is made of is known from its lemmas.  Looking into it by computation
-- would clean a path that is not known.
attribute [local irreducible] entryPath

/-! ## Paths with the marker -/

namespace Path

/-- The path that asks for all that is below a directory: its slash is not put there twice. -/
def withMarker (root : String) : String :=
  if endsWith root "/" then root ++ "..." else root ++ recursiveMarker

theorem endsWith_slash_iff {root : String} : endsWith root "/" = true ↔ ∃ d, root = d ++ "/" := by
  rw [endsWith, List.isSuffixOf_iff_suffix]
  constructor
  · rintro ⟨cs, hcs⟩
    refine ⟨String.ofList cs, String.toList_injective ?_⟩
    rw [String.toList_append, String.toList_ofList, hcs]
  · rintro ⟨d, rfl⟩
    rw [String.toList_append]
    exact List.suffix_append _ _

theorem withMarker_slash (d : String) : withMarker (d ++ "/") = d ++ recursiveMarker := by
  rw [withMarker, if_pos (endsWith_slash_iff.2 ⟨d, rfl⟩), String.append_assoc]
  rfl

theorem withMarker_of_no_slash {root : String} (h : endsWith root "/" = false) :
    withMarker root = root ++ recursiveMarker := by
  rw [withMarker, if_neg (by simp [h])]

theorem squeeze_components_slash (d : String) :
    squeeze (components (d ++ "/")) = squeeze (components d) := by
  have hslash := components_slash d ""
  have hblank : squeeze (components "") = [] := by decide
  rw [String.append_empty] at hslash
  rw [hslash, squeeze_append, hblank, List.append_nil]

theorem isAbsolute_slash {d : String} (hd : d ≠ "") : isAbsolute (d ++ "/") = isAbsolute d := by
  rw [isAbsolute, isAbsolute, String.toList_append]
  cases hcs : d.toList with
  | nil => exact absurd (String.toList_eq_nil_iff.1 hcs) hd
  | cons c cs => rfl

/-- A slash at the end counts as one in front only behind one slash or two. -/
theorem leadingSlashes_slash {cs : List Char} (hnone : cs ≠ []) (hone : cs ≠ ['/'])
    (htwo : cs ≠ ['/', '/']) : leadingSlashes (cs ++ ['/']) = leadingSlashes cs := by
  by_cases hhead : cs.head? = some '/'
  · obtain ⟨rest, rfl⟩ := List.head?_eq_some_iff.1 hhead
    -- what counts is in the next two characters, and they are not both missing or slashes
    match rest with
    | [] => exact absurd rfl hone
    | [b] => exact leadingSlashes_append hnone (.inl (by simpa using htwo))
    | b :: c :: rest =>
      by_cases hb : b = '/'
      · subst hb
        by_cases hc : c = '/'
        · subst hc
          rfl
        · rw [List.cons_append, List.cons_append, leadingSlashes_two (by simpa using hc),
            leadingSlashes_two (by simpa using hc)]
      · rw [List.cons_append, leadingSlashes_one (by simpa using hb),
          leadingSlashes_one (by simpa using hb)]
  · cases cs with
    | nil => exact absurd rfl hnone
    | cons a cs => rw [leadingSlashes_of_head hhead, leadingSlashes_of_head (by simpa using hhead)]

/-- A slash at the end makes no difference to the clean path, except behind one slash or two. -/
theorem normalize_slash {d : String} (hnone : d ≠ "") (hone : d ≠ "/") (htwo : d ≠ "//") :
    normalize (d ++ "/") = normalize d := by
  have hslashes : leadingSlashes (d ++ "/").toList = leadingSlashes d.toList := by
    rw [String.toList_append]
    exact leadingSlashes_slash (fun h => hnone (String.toList_injective h))
      (fun h => hone (String.toList_injective h)) (fun h => htwo (String.toList_injective h))
  rw [normalize_eq_render, normalize_eq_render, hslashes, cleanComponents_eq, cleanComponents_eq,
    squeeze_components_slash, isAbsolute_slash hnone]

end Path

/-! ## Roots that lead to the same directory -/

namespace FileSystem

variable {fs : FileSystem}

theorem resolve_of_leadsTo {path : String} {es : Entries} {location : List String}
    (hfault : pathFault? path = none)
    (h : fs.LeadsTo path (Path.components path) es location) :
    fs.resolve path = .ok ⟨.directory es, location⟩ := by
  obtain ⟨m, t, hleads, rfl, rfl⟩ := h
  have harrived := hleads.resolveFrom_append []
  rw [List.append_nil, resolveFrom_nil] at harrived
  rw [resolve, hfault]
  exact harrived

theorem pathFault?_of_slash {d : String} (hd : d ≠ "") (h : pathFault? (d ++ "/") = none) :
    pathFault? d = none := by
  rw [pathFault?] at h ⊢
  split at h
  · exact absurd h (by simp)
  rename_i hnul
  split at h
  · exact absurd h (by simp)
  split at h
  · exact absurd h (by simp)
  rename_i hshort
  have hbytes : (d ++ "/").utf8ByteSize = d.utf8ByteSize + 1 := String.utf8ByteSize_append
  have hnul' : '\x00' ∉ d.toList := fun hmem => hnul (by simp [hmem])
  rw [if_neg (by simpa using hnul'), if_neg (by simpa using hd), if_neg (by omega)]

/-- **A directory has the same name without a slash at its end**, if that leaves a name. -/
theorem resolve_slash {d : String} (hd : d ≠ "") (h : fs.isDirectory (d ++ "/") = true) :
    fs.resolve d = fs.resolve (d ++ "/") := by
  obtain ⟨es, hlist⟩ := isDirectory_iff.1 h
  obtain ⟨location, hresolve⟩ := list_eq_ok hlist
  obtain ⟨hfault, hleads⟩ := leadsTo_of_resolve hresolve
  rw [hresolve]
  exact resolve_of_leadsTo (pathFault?_of_slash hd hfault)
    (hleads.congr (Path.isAbsolute_slash hd).symm (Path.squeeze_components_slash d).symm)

end FileSystem

/-- There is nothing at the root without a name. -/
theorem walk_empty (fs : FileSystem) (s : Selection) :
    walk fs s "" = { error := some (.noRoot "") } := by
  have hresolve : fs.resolve "" = .error .missing := rfl
  rw [walk, FileSystem.isDirectory, FileSystem.pathExists, hresolve]
  rfl

/-! ## What is met again -/

/-- The endings cannot tell apart what the paths of entries below the two roots end with: the roots
have the same clean form, or there is no slash in an ending. -/
def Path.Endings.Agree (endings : Path.Endings) (root root' : String) : Prop :=
  Path.normalize root = Path.normalize root' ∨
    '/' ∉ endings.source.toList ∧ '/' ∉ endings.test.toList

theorem selects_of_agree {s : Selection} {root root' name : String}
    (h : s.endings.Agree root root') (hname : ProperName name) :
    s.selects (entryPath root name) = s.selects (entryPath root' name) := by
  rcases h with hsame | ⟨hsource, htest⟩
  · rw [entryPath_respelled hsame hname]
  · rw [Selection.selects_entryPath hsource htest hname,
      Selection.selects_entryPath hsource htest hname]

/-- What the walk from the root meets as files is met by the wide walk from the other root: the same
entry at the same place, as a file again.  Its path is the same too if the roots have the same clean
form. -/
def Selection.Revisits (wide flat : Selection) (fs : FileSystem) (root root' : String) : Prop :=
  ∀ path ∈ (walk fs flat root).files, ∃ found path',
    flat.Meets fs root path found ∧ wide.Meets fs root' path' found ∧
      path' ∈ (walk fs wide root').files ∧
      (Path.normalize root = Path.normalize root' → path' = path)

section

variable {fs : FileSystem} {root root' : String} {endings : Path.Endings}

/-- **A walk that enters directories meets what one meets that does not**, from any root that leads
to the same directory, if it ends well. -/
theorem revisits_of_resolve (hfs : fs.Valid) (hroot : fs.isDirectory root = true)
    (hresolve : fs.resolve root' = fs.resolve root) (hagree : endings.Agree root root')
    (includeTests : Bool)
    (hdone : (walk fs ⟨endings, includeTests, true⟩ root').error = none) :
    Selection.Revisits ⟨endings, includeTests, true⟩ ⟨endings, includeTests, false⟩ fs root
      root' := by
  obtain ⟨es, hlist⟩ := FileSystem.isDirectory_iff.1 hroot
  obtain ⟨location, htarget⟩ := FileSystem.list_eq_ok hlist
  have htarget' := hresolve.trans htarget
  have hlist' := FileSystem.list_of_resolve htarget'
  have hroot' := FileSystem.isDirectory_iff.2 ⟨es, hlist'⟩
  intro path hpath
  rw [walk_of_flat rfl hfs hlist] at hpath
  obtain ⟨name, e, hsorted, hfile, hselects, rfl⟩ := mem_files_walkEntries.1 hpath
  have hmem : (name, e) ∈ es := es.sorted_perm.subset hsorted
  have hname : ProperName name := (FileSystem.list_valid hfs hlist).proper _ hmem
  rw [selects_of_agree hagree hname] at hselects
  refine ⟨⟨e, location ++ [name]⟩, entryPath root' name, ?_, ?_, ?_, fun hsame => ?_⟩
  · exact ⟨root, es, location, name, .root, htarget, hmem, rfl, rfl⟩
  · exact ⟨root', es, location, name, .root, htarget', hmem, rfl, rfl⟩
  · -- the walk without directories meets it from the other root as well
    have hflat : entryPath root' name ∈ (walk fs ⟨endings, includeTests, false⟩ root').files := by
      rw [walk_of_flat rfl hfs hlist']
      exact mem_files_walkEntries.2 ⟨name, e, hsorted, hfile, hselects, rfl⟩
    rw [(narrows_flat hfs hroot' endings includeTests hdone).2] at hflat
    exact (List.mem_filter.1 hflat).1
  · rw [entryPath_respelled hsame hname]

end

/-! ## Scans with the marker -/

/-- A scan from a directory does not miss its root. -/
theorem scan_ne_noRoot {fs : FileSystem} (hfs : fs.Valid) {endings : Path.Endings}
    {path root : String} {includeTests : Bool} {s : Selection}
    (hselection : selectionOf path endings includeTests = (root, s))
    (hroot : fs.isDirectory root = true) (missing : String) :
    (scan fs endings path includeTests).value ≠ .error (.walk (.noRoot missing)) := by
  intro h
  rcases Walk.outcome_eq_error_iff.1 ((scan_eq_error_iff hselection).1 h) with
    ⟨path, hstops⟩ | ⟨-, error, hearly, herror⟩
  · rcases checkFile_eq_error hstops.value with ⟨fault, -, herror⟩ | ⟨refused, herror⟩
    · exact absurd herror (by simp)
    · exact absurd herror (by simp)
  · obtain rfl := ScanError.walk.inj herror
    obtain ⟨fault, directory, herror, -⟩ := (explains_walk hfs s hroot).error _ hearly
    exact absurd herror (by simp)

/-- The files that a scan has checked when it succeeds are those of its walk. -/
theorem exists_checked_of_scan {fs : FileSystem} {endings : Path.Endings} {path root : String}
    {includeTests : Bool} {s : Selection}
    (hselection : selectionOf path endings includeTests = (root, s)) {result : ScanResult}
    (h : (scan fs endings path includeTests).value = .ok result) :
    (walk fs s root).error = none ∧
      ∃ checked, result = .ofChecked checked ∧ checked.map (·.1) = (walk fs s root).files := by
  obtain ⟨checked, houtcome, hresult⟩ := (scan_eq_ok_iff hselection).1 h
  obtain ⟨hdone, hfiles, -⟩ := Walk.outcome_eq_ok_iff.1 houtcome
  exact ⟨hdone, checked, hresult.symm, hfiles⟩

/-- The scan of a path is one of all that is below the root, which is called by another name in
it. -/
structure ScansBelow (fs : FileSystem) (endings : Path.Endings) (includeTests : Bool)
    (path root root' : String) : Prop where
  /-- The other name leads to the same directory. -/
  resolve : fs.resolve root' = fs.resolve root
  found : ∀ missing,
    (scan fs endings path includeTests).value ≠ .error (.walk (.noRoot missing))
  /-- Its walk ends early only at a directory that cannot be listed. -/
  early : ∀ error, (walk fs ⟨endings, includeTests, true⟩ root').error = some error →
    ∃ fault directory, error = .unlisted fault directory ∧ fs.list directory = .error fault
  /-- A walk that does not end early meets all that is met in the directory alone. -/
  revisits : endings.Agree root root' →
    (walk fs ⟨endings, includeTests, true⟩ root').error = none →
    Selection.Revisits ⟨endings, includeTests, true⟩ ⟨endings, includeTests, false⟩ fs root root'
  /-- A scan that succeeds has had such a walk, and has checked what it met. -/
  checked : ∀ result, (scan fs endings path includeTests).value = .ok result →
    (walk fs ⟨endings, includeTests, true⟩ root').error = none ∧
      ∃ checked, result = .ofChecked checked ∧
        checked.map (·.1) = (walk fs ⟨endings, includeTests, true⟩ root').files

theorem scansBelow_of_resolve {fs : FileSystem} (hfs : fs.Valid) {root root' : String}
    (hroot : fs.isDirectory root = true) (hresolve : fs.resolve root' = fs.resolve root)
    (endings : Path.Endings) (includeTests : Bool) :
    ScansBelow fs endings includeTests (root' ++ Path.recursiveMarker) root root' := by
  have hroot' : fs.isDirectory root' = true := by
    rw [FileSystem.isDirectory, hresolve]
    exact hroot
  have hselection := selectionOf_marker root' endings includeTests
  refine ⟨hresolve, scan_ne_noRoot hfs hselection hroot', fun error herror => ?_, ?_, ?_⟩
  · obtain ⟨fault, directory, heq, -, hlist⟩ :=
      (explains_walk hfs ⟨endings, includeTests, true⟩ hroot').error error herror
    exact ⟨fault, directory, heq, hlist⟩
  · exact fun hagree => revisits_of_resolve hfs hroot hresolve hagree includeTests
  · exact fun result => exists_checked_of_scan hselection

/-- **Every directory but the top can be scanned with all that is below it.**  The marker behind the
path of a directory is taken off again, and what is left is another name of the directory, with the
same clean form unless the path was `//` or `///`.  So the scan does not miss its root and meets all
that is in the directory.  Of the path `/` nothing is left, and the scan fails since there is
nothing at its root. -/
theorem scan_withMarker {fs : FileSystem} (hfs : fs.Valid) {root : String}
    (hroot : fs.isDirectory root = true) (endings : Path.Endings) (includeTests : Bool) :
    ∃ root', Path.splitRecursive (Path.withMarker root) = (root', true) ∧
      (root ≠ "/" →
        ScansBelow fs endings includeTests (Path.withMarker root) root root' ∧
        (root ≠ "//" → root ≠ "///" → Path.normalize root = Path.normalize root')) ∧
      (root = "/" → root' = "" ∧
        (scan fs endings (Path.withMarker root) includeTests).value =
          .error (.walk (.noRoot ""))) := by
  cases hslash : Path.endsWith root "/" with
  | false =>
    rw [Path.withMarker_of_no_slash hslash]
    refine ⟨root, Path.splitRecursive_marker root, fun _ => ?_, ?_⟩
    · exact ⟨scansBelow_of_resolve hfs hroot rfl endings includeTests, fun _ _ => rfl⟩
    · rintro rfl
      exact absurd hslash (by decide)
  | true =>
    obtain ⟨root', rfl⟩ := Path.endsWith_slash_iff.1 hslash
    rw [Path.withMarker_slash]
    refine ⟨root', Path.splitRecursive_marker root', fun hne => ?_, fun htop => ?_⟩
    · have hnamed : root' ≠ "" := by
        rintro rfl
        exact hne (by decide)
      have hresolve := FileSystem.resolve_slash hnamed hroot
      refine ⟨scansBelow_of_resolve hfs hroot hresolve endings includeTests, fun htwo hthree => ?_⟩
      refine Path.normalize_slash hnamed ?_ ?_
      · rintro rfl
        exact htwo (by decide)
      · rintro rfl
        exact hthree (by decide)
    · obtain rfl : root' = "" := (String.append_left_inj "/").1 htop
      refine ⟨rfl, ?_⟩
      rw [scan_value, selectionOf_marker, walk_empty]
      rfl

/-- A directory whose path ends with a slash. -/
theorem scan_layeredSystem_withMarker :
    layeredSystem.isDirectory ".//" = true ∧
      Path.splitRecursive (Path.withMarker ".//") = ("./", true) ∧
      ScansBelow layeredSystem {} true (Path.withMarker ".//") ".//" "./" := by
  have hroot : layeredSystem.isDirectory ".//" = true := by with_unfolding_all decide
  obtain ⟨root', hsplit, hbelow, -⟩ := scan_withMarker layeredSystem.valid hroot {} true
  obtain rfl : "./" = root' :=
    (Prod.mk.inj ((by decide : ("./", true) = Path.splitRecursive (Path.withMarker ".//")).trans
      hsplit)).1
  exact ⟨hroot, hsplit, (hbelow (by decide)).1⟩

/-- The top is a directory with a file in it, but behind the marker it has no name. -/
theorem scan_top_withMarker :
    sampleSystem.isDirectory "/" = true ∧ "/z.go" ∈ (walk sampleSystem {} "/").files ∧
      Path.withMarker "/" = "/..." ∧ Path.splitRecursive "/..." = ("", true) ∧
      sampleSystem.isDirectory "" = false ∧
      (scan sampleSystem {} "/...").value = .error (.walk (.noRoot "")) := by
  have hlist : sampleSystem.list "/" = .ok sampleSystem.top := by with_unfolding_all rfl
  refine ⟨FileSystem.isDirectory_iff.2 ⟨_, hlist⟩, ?_, by decide, by decide, by decide, ?_⟩
  · rw [walk_of_flat rfl sampleSystem_valid hlist]
    exact mem_files_walkEntries.2 ⟨"z.go", .file #[],
      sampleSystem.top.sorted_perm.mem_iff.2 List.mem_cons_self, rfl, by with_unfolding_all decide,
      by with_unfolding_all decide⟩
  · have hselection : selectionOf "/..." {} false = ("", ⟨{}, false, true⟩) := by decide
    rw [scan_value, hselection, walk_empty]
    rfl

end GoGlobals
