import GoGlobals.Proofs.Narrow

/-!
# Spellings of a root

A directory can be named in many ways: `d`, `d/`, `./d` and `d//.` have the same clean form.  A scan
uses the root as it is spelled in three places.  It lists the root under this spelling, it puts the
names of the entries behind it, and it compares it with the paths of directories to tell the root
from what is below.  The spelling makes no difference in any of them: what is listed depends on the
components that lead somewhere, a path that is made from the root is cleaned before it is used, and
the path of an entry is that of the root in no spelling.

Only cleaning a `..` could lead elsewhere, so roots without one are asked for.

## What is here

* `FileSystem.list_respelled` and `entryPath_respelled`: another spelling lists the same entries and
  makes the same paths for them.
* `walkDirectory_of_recursive`: a walk that enters every directory does not look at its root.
* `scan_respelled` is the theorem.
-/

set_option autoImplicit false

namespace GoGlobals

open GoGlobals.Path (ProperName squeeze cleanComponents)

/-! ## What the spelling is used for -/

namespace Path

variable {p q : String}

theorem isAbsolute_respelled (h : normalize p = normalize q) : isAbsolute p = isAbsolute q := by
  rw [← isAbsolute_normalize p, h, isAbsolute_normalize]

theorem squeeze_components_respelled (h : normalize p = normalize q)
    (hp : ".." ∉ components p) (hq : ".." ∉ components q) :
    squeeze (components p) = squeeze (components q) := by
  rw [← cleanComponents_of_no_dots hp, ← cleanComponents_normalize p, h,
    cleanComponents_normalize, cleanComponents_of_no_dots hq]

end Path

theorem entryPath_respelled {p q name : String} (h : Path.normalize p = Path.normalize q)
    (hname : ProperName name) : entryPath p name = entryPath q name := by
  rw [entryPath, ← Path.normalize_join_normalize hname, h, Path.normalize_join_normalize hname,
    ← entryPath]

/-- A directory that can be listed under two spellings has the same entries under both. -/
theorem FileSystem.list_respelled {fs : FileSystem} {p q : String} {es : Entries}
    (h : Path.normalize p = Path.normalize q) (hp : ".." ∉ Path.components p)
    (hq : ".." ∉ Path.components q) (hlist : fs.list p = .ok es) (hroot : fs.isDirectory q = true) :
    fs.list q = .ok es := by
  obtain ⟨es', hlist'⟩ := isDirectory_iff.1 hroot
  obtain ⟨hfault, -⟩ := list_eq_ok_iff.1 hlist'
  obtain ⟨-, m, t, hleads, hes⟩ := list_eq_ok_iff.1 hlist
  have hstart : fs.here.start p = fs.here.start q := by
    rw [Trail.start, Trail.start, Path.isAbsolute_respelled h]
  rw [hstart] at hleads
  exact list_eq_ok_iff.2
    ⟨hfault, m, t, hleads.of_squeeze (Path.squeeze_components_respelled h hp hq).symm, hes⟩

/-! ## Walks from another spelling -/

section

variable {s : Selection} {root root' name : String}

/-- An entry of the root is entered if directories are: it is never taken for the root. -/
theorem enters_entry (hname : ProperName name) :
    s.enters root (entryPath root name) = s.recursive := by
  cases hs : s.recursive with
  | true => rw [Selection.enters, Path.shouldDescend, hs, Bool.true_or]
  | false => exact enters_eq_false hs hname

/-- A walk that enters every directory does not ask which of them is the root. -/
theorem walkDirectory_of_recursive (hs : s.recursive = true) (fs : FileSystem)
    (root root' : String) (levels : Nat) (directory : String) :
    walkDirectory fs s root levels directory = walkDirectory fs s root' levels directory := by
  have henters : ∀ path, s.enters root path = s.enters root' path := fun path => by
    rw [Selection.enters, Selection.enters, Path.shouldDescend, Path.shouldDescend, hs,
      Bool.true_or, Bool.true_or]
  induction levels generalizing directory with
  | zero => rfl
  | succ levels ih =>
    rw [walkDirectory, walkDirectory]
    split
    · rfl
    · exact walkEntries_eq fun name e _ => by rw [walkEntry, walkEntry, henters, ih]

/-- **A walk is the same from every spelling of its root.** -/
theorem walk_respelled {fs : FileSystem} (hfs : fs.Valid)
    (hsame : Path.normalize root = Path.normalize root') (hdots : ".." ∉ Path.components root)
    (hdots' : ".." ∉ Path.components root') (hroot : fs.isDirectory root = true)
    (hroot' : fs.isDirectory root' = true) : walk fs s root = walk fs s root' := by
  obtain ⟨es, hlist⟩ := FileSystem.isDirectory_iff.1 hroot
  have hes := (FileSystem.list_valid hfs hlist).perm es.sorted_perm
  rw [walk_of_list hlist,
    walk_of_list (FileSystem.list_respelled hsame hdots hdots' hlist hroot')]
  refine walkEntries_eq fun name e he => ?_
  have hname := hes.proper _ he
  rw [walkEntry, walkEntry, enters_entry hname, enters_entry hname,
    entryPath_respelled hsame hname]
  split
  · split
    · rename_i hs
      exact walkDirectory_of_recursive hs fs root root' _ _
    · rfl
  · rfl

end

/-- **The spelling of the root does not matter to a scan.**  Let two roots name directories and have
the same clean form, none of their components lead up, and neither end with the marker for all
subdirectories.  Then scans of them have the same outcome, with and without that marker behind them:
the same diagnostics under the same paths, or the same error. -/
theorem scan_respelled {fs : FileSystem} (hfs : fs.Valid) {root root' : String}
    (hroot : fs.isDirectory root = true) (hroot' : fs.isDirectory root' = true)
    (hdots : ".." ∉ Path.components root) (hdots' : ".." ∉ Path.components root')
    (hmarker : Path.endsWith root Path.recursiveMarker = false)
    (hmarker' : Path.endsWith root' Path.recursiveMarker = false)
    (hsame : Path.normalize root = Path.normalize root') (endings : Path.Endings)
    (includeTests : Bool) :
    (scan fs endings root includeTests).value = (scan fs endings root' includeTests).value ∧
      (scan fs endings (root ++ Path.recursiveMarker) includeTests).value =
        (scan fs endings (root' ++ Path.recursiveMarker) includeTests).value := by
  constructor
  · rw [scan_value, scan_value, selectionOf_of_no_marker hmarker, selectionOf_of_no_marker hmarker',
      walk_respelled hfs hsame hdots hdots' hroot hroot']
  · rw [scan_value, scan_value, selectionOf_marker, selectionOf_marker,
      walk_respelled hfs hsame hdots hdots' hroot hroot']

/-- A root with blanks around it. -/
theorem scan_layeredSystem_respelled :
    (scan layeredSystem {} ".//.//..." true).value = .ok ⟨3, layeredSystem.found⟩ := by
  have hroot : layeredSystem.isDirectory "." = true :=
    FileSystem.isDirectory_iff.2 ⟨_, layeredSystem.list_top⟩
  have hscan := (@scan_respelled layeredSystem layeredSystem.valid "." ".//./" hroot
    (by with_unfolding_all decide) (by decide) (by decide) (by decide) (by decide)
    (by with_unfolding_all decide) {} true).2
  exact hscan.symm.trans layeredSystem.scan_eq

end GoGlobals
