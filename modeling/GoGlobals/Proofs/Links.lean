import GoGlobals.Proofs.Failure

/-!
# Scanning without links to directories

A walk does not enter a link, wherever it leads.  So links to directories should make no difference
to a scan, and a file system that lacks them should be scanned with the same outcome.  Almost: the
walk looks only at what an entry is by itself, and to it a link is no directory, so that a link to a
directory whose name has the right ending is opened as a file is, which fails.

`FileSystem.withoutLinks` takes links away, and `scan_withoutLinks_iff` says what that does to a
scan whose other paths do not go through these links: the outcome is the same exactly if the scan
comes to open none of them.

## What is here

* `Entries.withoutLinks`, and that listing, sorting and looking up names agree with it.
* `Crosses`: which links a path goes through.  A path that goes through a link that is gone leads
  nowhere (`Crosses.resolveFrom_withoutLinks`), and any other leads where it led
  (`resolveFrom_withoutLinks`).
* `ScanRun.withoutLinks`: the run of a scan, step by step, when the links are gone.
-/

set_option autoImplicit false

namespace GoGlobals

open GoGlobals.Path (isBlank)

/-! ## Taking links away -/

/-- Is the entry itself a link? -/
def Entry.isLink : Entry → Bool
  | link _ => true
  | file _ | directory _ => false

mutual

/-- The entry without the links inside at the locations that are `gone`, counted from the entry. -/
def Entry.withoutLinks (gone : List String → Bool) : Entry → Entry
  | .file content => .file content
  | .link target => .link target
  | .directory es => .directory (Entries.withoutLinks gone es)

/-- The entries without the links at the locations that are `gone`. -/
def Entries.withoutLinks (gone : List String → Bool) : Entries → Entries
  | [] => []
  | e :: es => (Entry.spared? gone e).toList ++ Entries.withoutLinks gone es

/-- What is left of a named entry, unless it is a link that is gone itself. -/
def Entry.spared? (gone : List String → Bool) : String × Entry → Option (String × Entry)
  | (name, e) =>
    if e.isLink && gone [name] then none
    else some (name, e.withoutLinks fun names => gone (name :: names))

end

namespace Entries

variable {es : Entries} {gone : List String → Bool}

theorem withoutLinks_eq (gone : List String → Bool) (es : Entries) :
    es.withoutLinks gone = es.filterMap (Entry.spared? gone) := by
  induction es with
  | nil => rfl
  | cons e es ih =>
    rw [withoutLinks, ih]
    cases h : Entry.spared? gone e with
    | none => rw [List.filterMap_cons_none h, Option.toList_none, List.nil_append]
    | some e' => rw [List.filterMap_cons_some h, Option.toList_some, List.singleton_append]

theorem mem_withoutLinks {name : String} {e' : Entry} :
    (name, e') ∈ es.withoutLinks gone ↔ ∃ e, (name, e) ∈ es ∧
      (e.isLink && gone [name]) = false ∧
      e' = e.withoutLinks fun names => gone (name :: names) := by
  rw [withoutLinks_eq, List.mem_filterMap]
  constructor
  · rintro ⟨⟨name', e⟩, hmem, hspared⟩
    rw [Entry.spared?] at hspared
    split at hspared
    · exact absurd hspared (by simp)
    · rename_i hkept
      obtain ⟨rfl, rfl⟩ := Prod.mk.inj (Option.some.inj hspared)
      exact ⟨e, hmem, by simpa using hkept, rfl⟩
  · rintro ⟨e, hmem, hkept, rfl⟩
    exact ⟨(name, e), hmem, by rw [Entry.spared?, if_neg (by simp [hkept])]⟩

theorem map_fst_withoutLinks_sublist (gone : List String → Bool) (es : Entries) :
    ((es.withoutLinks gone).map (·.1)).Sublist (es.map (·.1)) := by
  induction es with
  | nil => exact .slnil
  | cons e es ih =>
    obtain ⟨name, e⟩ := e
    rw [withoutLinks, Entry.spared?]
    split
    · exact ih.cons name
    · exact ih.cons_cons name

theorem Valid.withoutLinks (h : es.Valid) (gone : List String → Bool) :
    (es.withoutLinks gone).Valid := by
  induction h generalizing gone with
  | @intro es proper distinct _ ih =>
    refine .intro ?_ (distinct.sublist (map_fst_withoutLinks_sublist gone es)) ?_
    · rintro ⟨name, e'⟩ hmem
      obtain ⟨e, he, -, -⟩ := mem_withoutLinks.1 hmem
      exact proper (name, e) he
    · rintro ⟨name, e'⟩ hmem inner rfl
      obtain ⟨e, he, -, heq⟩ := mem_withoutLinks.1 hmem
      cases e with
      | file content => exact absurd heq (by simp [Entry.withoutLinks])
      | link target => exact absurd heq (by simp [Entry.withoutLinks])
      | directory inner' =>
        rw [Entry.withoutLinks] at heq
        obtain rfl := Entry.directory.inj heq
        exact ih _ he inner' rfl _

/-- A name is looked up as before, unless it is that of a link that is gone. -/
theorem get?_withoutLinks (h : es.Valid) (gone : List String → Bool) (name : String) :
    (es.withoutLinks gone).get? name = (es.get? name).bind fun e =>
      if e.isLink && gone [name] then none
      else some (e.withoutLinks fun names => gone (name :: names)) := by
  ext e'
  rw [get?_eq_some_iff (h.withoutLinks gone), mem_withoutLinks, Option.bind_eq_some_iff]
  refine exists_congr fun e => ?_
  rw [get?_eq_some_iff h]
  refine and_congr_right fun _ => ?_
  cases hgone : e.isLink && gone [name] with
  | true => simp
  | false => simp [eq_comm]

/-- Sorting what is left is taking links away from what is sorted. -/
theorem sorted_withoutLinks (h : es.Valid) (gone : List String → Bool) :
    (es.withoutLinks gone).sorted = es.sorted.withoutLinks gone := by
  have hperm : ((es.withoutLinks gone).sorted).Perm (es.sorted.withoutLinks gone) := by
    refine (sorted_perm _).trans ?_
    rw [withoutLinks_eq, withoutLinks_eq]
    exact (sorted_perm es).symm.filterMap _
  refine hperm.eq_of_pairwise
    (fun a b _ _ hab hba => absurd hba (Std.not_lt.2 (Std.le_of_lt hab)))
    (sorted_pairwise (h.withoutLinks gone)) ?_
  have hsorted : (es.sorted.map (·.1)).Pairwise (· < ·) := List.pairwise_map.2 (sorted_pairwise h)
  exact List.pairwise_map.1 (hsorted.sublist (map_fst_withoutLinks_sublist gone es.sorted))

end Entries

@[simp] theorem Entry.isDirectory_withoutLinks (gone : List String → Bool) (e : Entry) :
    (e.withoutLinks gone).isDirectory = e.isDirectory := by
  cases e <;> rfl

/-! ## Ways through directories -/

/-- What is found at a location, without the links inside that are gone. -/
def Target.withoutLinks (gone : List String → Bool) (found : Target) : Target :=
  ⟨found.entry.withoutLinks fun names => gone (found.location ++ names), found.location⟩

/-- The directories of a way without the links that are gone. -/
def Frame.withoutLinks (gone : List String → Bool) : List Frame → List Frame
  | [] => []
  | f :: outer =>
    ⟨f.name, f.entries.withoutLinks fun names => gone ((f :: outer).reverse.map (·.name) ++ names)⟩
      :: withoutLinks gone outer

namespace Trail

variable {t : Trail}

/-- The same way without the links that are gone. -/
def withoutLinks (gone : List String → Bool) (t : Trail) : Trail :=
  ⟨t.top.withoutLinks gone, Frame.withoutLinks gone t.frames⟩

variable (gone : List String → Bool)

@[simp] theorem names_withoutLinks (t : Trail) : (t.withoutLinks gone).names = t.names := by
  obtain ⟨top, frames⟩ := t
  simp only [names, withoutLinks, List.map_reverse]
  congr 1
  induction frames with
  | nil => rfl
  | cons f outer ih => rw [Frame.withoutLinks, List.map_cons, List.map_cons, ih]

theorem entries_withoutLinks (t : Trail) :
    (t.withoutLinks gone).entries =
      t.entries.withoutLinks fun names => gone (t.names ++ names) := by
  obtain ⟨top, _ | ⟨f, outer⟩⟩ := t <;> rfl

theorem up_withoutLinks (t : Trail) : (t.withoutLinks gone).up = t.up.withoutLinks gone := by
  obtain ⟨top, _ | ⟨f, outer⟩⟩ := t <;> rfl

theorem start_withoutLinks (t : Trail) (path : String) :
    (t.withoutLinks gone).start path = (t.start path).withoutLinks gone := by
  rw [start, start]
  split <;> rfl

theorem down_withoutLinks (t : Trail) (name : String) (es : Entries) :
    (t.withoutLinks gone).down name
        (es.withoutLinks fun names => gone (t.names ++ name :: names)) =
      (t.down name es).withoutLinks gone := by
  have hnames := names_down t name es
  rw [names, down] at hnames
  simp only [withoutLinks, down, Frame.withoutLinks, hnames, List.append_assoc,
    List.singleton_append]

/-- What a name is looked up as in the directory at the end of the way. -/
theorem get?_withoutLinks (h : t.Valid) (name : String) :
    (t.withoutLinks gone).entries.get? name = (t.entries.get? name).bind fun e =>
      if e.isLink && gone (t.names ++ [name]) then none
      else some (e.withoutLinks fun names => gone (t.names ++ name :: names)) := by
  rw [entries_withoutLinks, Entries.get?_withoutLinks h.entries]

theorem descend_withoutLinks (h : t.Valid) (names : List String) :
    (t.withoutLinks gone).descend names = (t.descend names).withoutLinks gone := by
  induction names generalizing t with
  | nil => rfl
  | cons name names ih =>
    rw [descend, descend, get?_withoutLinks gone h]
    cases hget : t.entries.get? name with
    | none => rfl
    | some e =>
      cases e with
      | file content => rfl
      | link target =>
        rw [Option.bind_some]
        split
        · rename_i hdirectory
          split at hdirectory
          · exact absurd hdirectory (by simp)
          · exact absurd hdirectory (by simp [Entry.withoutLinks])
        · rfl
      | directory inner =>
        simp only [Option.bind_some, Entry.isLink, Bool.false_and, Bool.false_eq_true, if_false,
          Entry.withoutLinks, down_withoutLinks]
        exact ih (h.down_get? hget)

end Trail

/-- The file system without the links at the locations that are `gone`. -/
def FileSystem.withoutLinks (gone : List String → Bool) (fs : FileSystem) : FileSystem :=
  { fs with top := fs.top.withoutLinks gone }

theorem FileSystem.Valid.withoutLinks {fs : FileSystem} (h : fs.Valid)
    (gone : List String → Bool) : (fs.withoutLinks gone).Valid :=
  Entries.Valid.withoutLinks h gone

theorem FileSystem.here_withoutLinks {fs : FileSystem} (h : fs.Valid)
    (gone : List String → Bool) : (fs.withoutLinks gone).here = fs.here.withoutLinks gone :=
  Trail.descend_withoutLinks gone (t := ⟨fs.top, []⟩) ⟨h, fun _ hf => absurd hf List.not_mem_nil⟩
    fs.current

/-! ## Paths that go through links -/

/-- Following the components from a directory comes to the link at this location. -/
inductive Crosses : Nat → Trail → List String → List String → Prop
  | blank {n : Nat} {t : Trail} {c : String} {cs location : List String} (hblank : isBlank c = true)
      (h : Crosses n t cs location) : Crosses n t (c :: cs) location
  | up {n : Nat} {t : Trail} {cs location : List String} (h : Crosses n t.up cs location) :
      Crosses n t (".." :: cs) location
  | down {n : Nat} {t : Trail} {c : String} {cs location : List String} {inner : Entries}
      (hname : IsName c) (hget : t.entries.get? c = some (.directory inner))
      (h : Crosses n (t.down c inner) cs location) : Crosses n t (c :: cs) location
  | here {n : Nat} {t : Trail} {c path : String} {cs : List String} (hname : IsName c)
      (hget : t.entries.get? c = some (.link path)) : Crosses n t (c :: cs) (t.names ++ [c])
  | link {n : Nat} {t : Trail} {c path : String} {cs location : List String} (hname : IsName c)
      (hget : t.entries.get? c = some (.link path))
      (h : Crosses n (t.start path) (Path.components path ++ cs) location) :
      Crosses (n + 1) t (c :: cs) location

section

variable {gone : List String → Bool} {n : Nat} {t : Trail} {cs location : List String}

theorem not_crosses_nil : ¬ Crosses n t [] location := by
  rintro ⟨⟩

/-- A name leads into the directory of the name, or it is that of a link. -/
theorem Crosses.of_name {c : String} (hname : IsName c) (h : Crosses n t (c :: cs) location) :
    (∃ inner, t.entries.get? c = some (.directory inner) ∧
        Crosses n (t.down c inner) cs location) ∨
      ∃ path, t.entries.get? c = some (.link path) ∧ (location = t.names ++ [c] ∨
        ∃ m, n = m + 1 ∧ Crosses m (t.start path) (Path.components path ++ cs) location) := by
  generalize hds : c :: cs = ds at h
  cases h with
  | blank hblank _ =>
    obtain ⟨rfl, -⟩ := List.cons.inj hds
    exact absurd hblank (by simp [hname.not_blank])
  | up _ => exact absurd (List.cons.inj hds).1 hname.ne_dots
  | down _ hget h =>
    obtain ⟨rfl, rfl⟩ := List.cons.inj hds
    exact .inl ⟨_, hget, h⟩
  | here _ hget =>
    obtain ⟨rfl, rfl⟩ := List.cons.inj hds
    exact .inr ⟨_, hget, .inl rfl⟩
  | link _ hget h =>
    obtain ⟨rfl, rfl⟩ := List.cons.inj hds
    exact .inr ⟨_, hget, .inr ⟨_, rfl, h⟩⟩

/-- **A path through a link that is gone leads nowhere.** -/
theorem Crosses.resolveFrom_withoutLinks (h : Crosses n t cs location) (ht : t.Valid)
    (hgone : gone location = true) :
    resolveFrom true n (t.withoutLinks gone) cs = .error .missing := by
  induction h with
  | blank hblank _ ih => rw [resolveFrom_of_blank hblank, ih ht hgone]
  | up _ ih => rw [resolveFrom_of_dots, Trail.up_withoutLinks, ih ht.up hgone]
  | down hname hget _ ih =>
    rw [hname.resolveFrom, Trail.get?_withoutLinks gone ht, hget]
    simp only [Option.bind_some, Entry.isLink, Bool.false_and, Bool.false_eq_true, if_false,
      Entry.withoutLinks, Trail.down_withoutLinks]
    exact ih (ht.down_get? hget) hgone
  | here hname hget =>
    rw [hname.resolveFrom, Trail.get?_withoutLinks gone ht, hget]
    simp only [Option.bind_some, Entry.isLink, hgone, Bool.and_self, if_true]
  | @link n t c path cs location hname hget _ ih =>
    rw [hname.resolveFrom, Trail.get?_withoutLinks gone ht, hget, Option.bind_some]
    -- a link on the way may be gone as well
    cases hself : gone (t.names ++ [c]) with
    | true => rfl
    | false =>
      simp only [Bool.and_false, Bool.false_eq_true, if_false, Entry.withoutLinks, Bool.not_true,
        Trail.start_withoutLinks]
      exact ih (ht.start path) hgone

/-- **A path that goes through no link that is gone leads where it led.** -/
theorem resolveFrom_withoutLinks (gone : List String → Bool) (n : Nat) (t : Trail)
    (cs : List String) (ht : t.Valid)
    (havoids : ∀ location, Crosses n t cs location → gone location = false) :
    resolveFrom true n (t.withoutLinks gone) cs =
      (resolveFrom true n t cs).map (Target.withoutLinks gone) := by
  induction n, t, cs using components_induction with
  | nil n t =>
    rw [resolveFrom_nil, resolveFrom_nil, Trail.entries_withoutLinks, Trail.names_withoutLinks]
    rfl
  | blank n t c cs hblank ih =>
    rw [resolveFrom_of_blank hblank, resolveFrom_of_blank hblank]
    exact ih ht fun location h => havoids location (.blank hblank h)
  | up n t cs ih =>
    rw [resolveFrom_of_dots, resolveFrom_of_dots, Trail.up_withoutLinks]
    exact ih ht.up fun location h => havoids location (.up h)
  | long n t c cs hblank hdots hlong =>
    rw [resolveFrom_of_long hblank hdots hlong, resolveFrom_of_long hblank hdots hlong]
    rfl
  | name n t c cs hname ihdown ihlink =>
    rw [hname.resolveFrom, hname.resolveFrom, Trail.get?_withoutLinks gone ht]
    cases hget : t.entries.get? c with
    | none => rfl
    | some e =>
      rw [Option.bind_some]
      cases e with
      | file content =>
        cases cs <;>
          simp [Entry.isLink, Entry.withoutLinks, Except.map, Target.withoutLinks]
      | directory inner =>
        simp only [Entry.isLink, Bool.false_and, Bool.false_eq_true, if_false,
          Entry.withoutLinks, Trail.down_withoutLinks]
        exact ihdown inner hget (ht.down_get? hget) fun location h =>
          havoids location (.down hname hget h)
      | link path =>
        rw [havoids _ (.here hname hget)]
        simp only [Bool.and_false, Bool.false_eq_true, if_false, Entry.withoutLinks, Bool.not_true,
          Trail.start_withoutLinks]
        cases n with
        | zero => rfl
        | succ n =>
          exact ihlink path n rfl hget (ht.start path) fun location h =>
            havoids location (.link hname hget h)

/-- A path to a link goes through the link when it is followed. -/
theorem crosses_of_resolveFrom {target : String}
    (h : resolveFrom false n t cs = .ok ⟨.link target, location⟩) : Crosses n t cs location := by
  induction n, t, cs using components_induction with
  | nil n t =>
    rw [resolveFrom_nil] at h
    exact absurd h (by simp)
  | blank n t c cs hblank ih =>
    rw [resolveFrom_of_blank hblank] at h
    exact .blank hblank (ih h)
  | up n t cs ih =>
    rw [resolveFrom_of_dots] at h
    exact .up (ih h)
  | long n t c cs hblank hdots hlong =>
    rw [resolveFrom_of_long hblank hdots hlong] at h
    exact absurd h (by simp)
  | name n t c cs hname ihdown ihlink =>
    rw [hname.resolveFrom] at h
    cases hget : t.entries.get? c with
    | none =>
      rw [hget] at h
      exact absurd h (by simp)
    | some e =>
      rw [hget] at h
      cases e with
      | file content => cases cs <;> exact absurd h (by simp)
      | directory inner => exact .down hname hget (ihdown inner hget h)
      | link path =>
        simp only [] at h
        split at h
        · obtain ⟨-, rfl⟩ := Target.mk.inj (Except.ok.inj h)
          exact .here hname hget
        · cases n with
          | zero => exact absurd h (by simp)
          | succ n => exact .link hname hget (ihlink path n rfl hget h)

end

namespace FileSystem

variable {fs : FileSystem} {gone : List String → Bool} {path : String}

/-- Following the path comes to the link at this location. -/
def Crosses (fs : FileSystem) (path : String) (location : List String) : Prop :=
  pathFault? path = none ∧
    GoGlobals.Crosses maxLinks (fs.here.start path) (Path.components path) location

/-- The path does not go through a link that is gone. -/
def Avoids (fs : FileSystem) (gone : List String → Bool) (path : String) : Prop :=
  ∀ location, fs.Crosses path location → gone location = false

/-- The path is that of a link that is gone. -/
def Drops (fs : FileSystem) (gone : List String → Bool) (path : String) : Prop :=
  ∃ target location, fs.resolve path false = .ok ⟨.link target, location⟩ ∧ gone location = true

theorem Avoids.resolve_withoutLinks (h : fs.Avoids gone path) (hfs : fs.Valid) :
    (fs.withoutLinks gone).resolve path = (fs.resolve path).map (Target.withoutLinks gone) := by
  rw [resolve, resolve, here_withoutLinks hfs]
  cases hfault : pathFault? path with
  | some fault => rfl
  | none =>
    simp only [Trail.start_withoutLinks]
    exact resolveFrom_withoutLinks gone _ _ _ (hfs.here.start path) fun location hcrosses =>
      h location ⟨hfault, hcrosses⟩

theorem Drops.resolve_withoutLinks (h : fs.Drops gone path) (hfs : fs.Valid) :
    (fs.withoutLinks gone).resolve path = .error .missing := by
  obtain ⟨target, location, hresolve, hgone⟩ := h
  rw [resolve] at hresolve
  rw [resolve, here_withoutLinks hfs]
  cases hfault : pathFault? path with
  | some fault =>
    rw [hfault] at hresolve
    exact absurd hresolve (by simp)
  | none =>
    rw [hfault] at hresolve
    simp only [Trail.start_withoutLinks]
    exact (crosses_of_resolveFrom hresolve).resolveFrom_withoutLinks (hfs.here.start path) hgone

theorem Avoids.isDirectory_withoutLinks (h : fs.Avoids gone path) (hfs : fs.Valid) :
    (fs.withoutLinks gone).isDirectory path = fs.isDirectory path := by
  rw [isDirectory, isDirectory, h.resolve_withoutLinks hfs]
  cases fs.resolve path with
  | error fault => rfl
  | ok found => exact Entry.isDirectory_withoutLinks _ found.entry

theorem Avoids.pathExists_withoutLinks (h : fs.Avoids gone path) (hfs : fs.Valid) :
    (fs.withoutLinks gone).pathExists path = fs.pathExists path := by
  rw [pathExists, pathExists, h.resolve_withoutLinks hfs]
  cases fs.resolve path <;> rfl

theorem Avoids.read_withoutLinks (h : fs.Avoids gone path) (hfs : fs.Valid) :
    (fs.withoutLinks gone).read path = fs.read path := by
  rw [read, read, h.resolve_withoutLinks hfs]
  cases fs.resolve path with
  | error fault => rfl
  | ok found =>
    obtain ⟨entry, location⟩ := found
    cases entry <;> rfl

theorem Avoids.checkFile_withoutLinks (h : fs.Avoids gone path) (hfs : fs.Valid) :
    checkFile (fs.withoutLinks gone) path = checkFile fs path := by
  rw [checkFile, checkFile, h.read_withoutLinks hfs]

theorem Avoids.list_withoutLinks (h : fs.Avoids gone path) (hfs : fs.Valid) {es : Entries}
    {location : List String} (hresolve : fs.resolve path = .ok ⟨.directory es, location⟩) :
    (fs.withoutLinks gone).list path =
      .ok (es.withoutLinks fun names => gone (location ++ names)) := by
  rw [list, h.resolve_withoutLinks hfs, hresolve]
  rfl

theorem Avoids.list_withoutLinks_error (h : fs.Avoids gone path) (hfs : fs.Valid)
    {fault : PathFault} (hlist : fs.list path = .error fault) :
    (fs.withoutLinks gone).list path = .error fault := by
  rw [list] at hlist
  rw [list, h.resolve_withoutLinks hfs]
  cases hresolve : fs.resolve path with
  | error fault' =>
    rw [hresolve] at hlist
    exact hlist
  | ok found =>
    rw [hresolve] at hlist
    obtain ⟨entry, location⟩ := found
    cases entry with
    | file content => exact hlist
    | link target => exact hlist
    | directory es => exact absurd hlist (by simp)

/-- Opening a directory for reading fails. -/
theorem read_of_isDirectory (h : fs.isDirectory path = true) :
    fs.read path = .error .isDirectory := by
  rw [isDirectory] at h
  rw [read]
  cases hresolve : fs.resolve path with
  | error fault =>
    rw [hresolve] at h
    exact absurd h (by simp)
  | ok found =>
    obtain ⟨entry, location⟩ := found
    rw [hresolve] at h
    obtain ⟨inner, rfl⟩ := Entry.isDirectory_iff.1 h
    rfl

end FileSystem

/-! ## Steps of a scan when links are gone -/

/-- The step goes through no link that is gone, except that it may be such a link that it opens. -/
def ScanStep.Spares (fs : FileSystem) (gone : List String → Bool) (root : String) :
    ScanStep → Prop
  | find => fs.Avoids gone root
  | list directory => fs.Avoids gone directory
  | check path => fs.Drops gone path ∨ fs.Avoids gone path

/-- The same steps, except that some that open a dropped path are missing. -/
inductive Thinned (drops : String → Prop) : List ScanStep → List ScanStep → Prop
  | nil : Thinned drops [] []
  | keep {todo todo' : List ScanStep} (step : ScanStep) (h : Thinned drops todo todo') :
      Thinned drops (step :: todo) (step :: todo')
  | drop {todo todo' : List ScanStep} {path : String} (hdrops : drops path)
      (h : Thinned drops todo todo') : Thinned drops (.check path :: todo) todo'

namespace Thinned

variable {drops : String → Prop} {todo todo' rest rest' : List ScanStep}

theorem refl (todo : List ScanStep) : Thinned drops todo todo := by
  induction todo with
  | nil => exact .nil
  | cons step todo ih => exact .keep step ih

theorem append (h : Thinned drops todo todo') (hrest : Thinned drops rest rest') :
    Thinned drops (todo ++ rest) (todo' ++ rest') := by
  induction h with
  | nil => exact hrest
  | keep step _ ih => exact .keep step ih
  | drop hdrops _ ih => exact .drop hdrops ih

end Thinned

theorem stepsOf_cons (s : Selection) (root directory : String) (e : String × Entry) (es : Entries) :
    stepsOf s root directory (e :: es) =
      stepsOf s root directory [e] ++ stepsOf s root directory es := by
  simp only [stepsOf, List.flatMap_cons, List.flatMap_nil, List.append_nil]

/-- The links that are gone, as far as the walk meets them, lead to directories. -/
def Selection.DropsDirectories (s : Selection) (fs : FileSystem) (root : String)
    (gone : List String → Bool) : Prop :=
  ∀ path found, s.Meets fs root path found → found.entry.isLink = true →
    gone found.location = true → fs.isDirectory path = true

section

variable {fs : FileSystem} {s : Selection} {root : String} {gone : List String → Bool}

/-- A link that is gone and that the walk meets is at its path. -/
theorem Selection.DropsDirectories.drops (h : s.DropsDirectories fs root gone) (hfs : fs.Valid)
    (hclean : fs.CleansInPlace root) {path target : String} {location : List String}
    (hmeets : s.Meets fs root path ⟨.link target, location⟩) (hgone : gone location = true) :
    fs.Drops gone path := by
  have hdirectory := h path _ hmeets rfl hgone
  refine ⟨target, location, ?_, hgone⟩
  rcases hmeets.pointsAt hfs hclean with hlong | hpoints
  · rw [FileSystem.isDirectory, hlong true] at hdirectory
    exact absurd hdirectory (by simp)
  · exact hpoints false (.inl rfl)

/-- Of the entries of a directory, those that are gone are not opened any more. -/
theorem thinned_stepsOf (hdrops : s.DropsDirectories fs root gone) (hfs : fs.Valid)
    (hclean : fs.CleansInPlace root) {directory : String} {es : Entries} {location : List String}
    (hlists : s.Lists fs root directory)
    (hresolve : fs.resolve directory = .ok ⟨.directory es, location⟩) {part : Entries}
    (hpart : ∀ e ∈ part, e ∈ es) :
    Thinned (fs.Drops gone) (stepsOf s root directory part)
      (stepsOf s root directory (part.withoutLinks fun names => gone (location ++ names))) := by
  induction part with
  | nil => exact .nil
  | cons e part ih =>
    obtain ⟨name, e⟩ := e
    obtain ⟨hmem, hrest⟩ := List.forall_mem_cons.1 hpart
    rw [stepsOf_cons, Entries.withoutLinks, Entry.spared?]
    cases hgone : e.isLink && gone (location ++ [name]) with
    | true =>
      obtain ⟨hlink, hgone⟩ := Bool.and_eq_true_iff.1 hgone
      rw [if_pos rfl]
      cases e with
      | file content => exact absurd hlink (by simp [Entry.isLink])
      | directory inner => exact absurd hlink (by simp [Entry.isLink])
      | link target =>
        have hmeets : s.Meets fs root (entryPath directory name)
            ⟨.link target, location ++ [name]⟩ :=
          ⟨directory, es, location, name, hlists, hresolve, hmem, rfl, rfl⟩
        have hone : Thinned (fs.Drops gone)
            (stepsOf s root directory [(name, .link target)]) [] := by
          simp only [stepsOf, List.flatMap_cons, List.flatMap_nil, List.append_nil,
            Entry.isDirectory, Bool.false_eq_true, if_false]
          split
          · exact .drop (hdrops.drops hfs hclean hmeets hgone) .nil
          · exact .nil
        exact hone.append (ih hrest)
    | false =>
      rw [if_neg Bool.false_ne_true, Option.toList_some, List.singleton_append,
        stepsOf_cons s root directory (name, _) (Entries.withoutLinks _ part)]
      have hone : stepsOf s root directory [(name, e)] = stepsOf s root directory
          [(name, e.withoutLinks fun names => gone (location ++ name :: names))] := by
        simp only [stepsOf, List.flatMap_cons, List.flatMap_nil, List.append_nil,
          Entry.isDirectory_withoutLinks]
      rw [hone]
      exact (Thinned.refl _).append (ih hrest)

/-- The step is one that the walk from a directory asks for. -/
def ScanStep.Foreseen (fs : FileSystem) (s : Selection) (root : String) : ScanStep → Prop
  | find => True
  | list directory => s.Lists fs root directory
  | check path => s.selects path = true ∧ ∃ found, s.Meets fs root path found

/-- What a step asks to do next is foreseen. -/
theorem ScanStep.perform_foreseen (hroot : fs.isDirectory root = true) {step : ScanStep}
    {new : List ScanStep} {checked : List CheckedFile}
    (h : step.perform fs s root = .ok (new, checked)) (hstep : step.Foreseen fs s root) :
    ∀ next ∈ new, next.Foreseen fs s root := by
  intro next hnext
  cases step with
  | find =>
    rw [perform, if_pos hroot] at h
    obtain ⟨rfl, -⟩ := Prod.mk.inj (Except.ok.inj h)
    obtain rfl := List.mem_singleton.1 hnext
    exact .root
  | list directory =>
    rw [perform] at h
    split at h
    · exact absurd h (by simp)
    rename_i es hlist
    obtain ⟨rfl, -⟩ := Prod.mk.inj (Except.ok.inj h)
    obtain ⟨⟨name, e⟩, he, hnext⟩ := List.mem_flatMap.1 hnext
    have hmem : (name, e) ∈ es := es.sorted_perm.subset he
    simp only [] at hnext
    split at hnext
    · rename_i hdirectory
      obtain ⟨inner, rfl⟩ := Entry.isDirectory_iff.1 hdirectory
      split at hnext
      · rename_i henters
        obtain rfl := List.mem_singleton.1 hnext
        exact .inside hstep hlist hmem henters
      · exact absurd hnext List.not_mem_nil
    · split at hnext
      · rename_i hselects
        obtain rfl := List.mem_singleton.1 hnext
        obtain ⟨location, hresolve⟩ := FileSystem.list_eq_ok hlist
        exact ⟨hselects, ⟨e, location ++ [name]⟩,
          directory, es, location, name, hstep, hresolve, hmem, rfl, rfl⟩
      · exact absurd hnext List.not_mem_nil
  | check path =>
    rw [perform] at h
    split at h
    · exact absurd h (by simp)
    · obtain ⟨rfl, -⟩ := Prod.mk.inj (Except.ok.inj h)
      exact absurd hnext List.not_mem_nil

theorem ScanRun.foreseen (hroot : fs.isDirectory root = true) {todo done : List ScanStep}
    {outcome : Except ScanError (List CheckedFile)} (h : ScanRun fs s root todo done outcome)
    (htodo : ∀ step ∈ todo, step.Foreseen fs s root) :
    ∀ step ∈ done, step.Foreseen fs s root := by
  induction h with
  | done => exact htodo
  | @failed step rest e _ =>
    intro t ht
    obtain rfl := List.mem_singleton.1 ht
    exact htodo t List.mem_cons_self
  | @next step rest new done checked outcome h _ ih =>
    obtain ⟨hstep, hrest⟩ := List.forall_mem_cons.1 htodo
    refine List.forall_mem_cons.2 ⟨hstep, ih fun t ht => ?_⟩
    rcases List.mem_append.1 ht with ht | ht
    · exact ScanStep.perform_foreseen hroot h hstep t ht
    · exact hrest t ht

/-- **One step.**  What a step does is the same when the links are gone, but for the dropped paths
among those that it asks to open next. -/
theorem ScanStep.perform_withoutLinks (hdrops : s.DropsDirectories fs root gone) (hfs : fs.Valid)
    (hclean : fs.CleansInPlace root) {step : ScanStep} (hforeseen : step.Foreseen fs s root)
    (hspares : step.Spares fs gone root)
    (hkept : ∀ path, step = .check path → ¬ fs.Drops gone path) :
    (∀ e, step.perform fs s root = .error e →
        step.perform (fs.withoutLinks gone) s root = .error e) ∧
      ∀ new checked, step.perform fs s root = .ok (new, checked) →
        ∃ new', step.perform (fs.withoutLinks gone) s root = .ok (new', checked) ∧
          Thinned (fs.Drops gone) new new' := by
  have hsame : step.perform (fs.withoutLinks gone) s root = step.perform fs s root →
      (∀ e, step.perform fs s root = .error e →
          step.perform (fs.withoutLinks gone) s root = .error e) ∧
        ∀ new checked, step.perform fs s root = .ok (new, checked) →
          ∃ new', step.perform (fs.withoutLinks gone) s root = .ok (new', checked) ∧
            Thinned (fs.Drops gone) new new' := by
    intro hsame
    rw [hsame]
    exact ⟨fun _ h => h, fun new checked h => ⟨new, h, .refl new⟩⟩
  cases step with
  | find =>
    have havoids : fs.Avoids gone root := hspares
    apply hsame
    rw [perform, perform, havoids.isDirectory_withoutLinks hfs,
      havoids.pathExists_withoutLinks hfs]
  | check path =>
    have havoids : fs.Avoids gone path := hspares.resolve_left (hkept path rfl)
    apply hsame
    rw [perform, perform, havoids.checkFile_withoutLinks hfs]
  | list directory =>
    have havoids : fs.Avoids gone directory := hspares
    cases hlist : fs.list directory with
    | error fault =>
      apply hsame
      rw [perform, perform, hlist, havoids.list_withoutLinks_error hfs hlist]
    | ok es =>
      obtain ⟨location, hresolve⟩ := FileSystem.list_eq_ok hlist
      have hes := FileSystem.list_valid hfs hlist
      refine ⟨fun e h => ?_, fun new checked h => ?_⟩
      · rw [perform, hlist] at h
        exact absurd h (by simp)
      · rw [perform, hlist] at h
        obtain ⟨rfl, rfl⟩ := Prod.mk.inj (Except.ok.inj h)
        rw [perform, havoids.list_withoutLinks hfs hresolve]
        refine ⟨_, rfl, ?_⟩
        rw [Entries.sorted_withoutLinks hes]
        exact thinned_stepsOf hdrops hfs hclean hforeseen hresolve
          fun e he => es.sorted_perm.subset he

/-- **A whole run** does the same steps when the links are gone, if it comes to open none of
them. -/
theorem ScanRun.withoutLinks (hdrops : s.DropsDirectories fs root gone) (hfs : fs.Valid)
    (hclean : fs.CleansInPlace root) {todo done : List ScanStep}
    {outcome : Except ScanError (List CheckedFile)} (h : ScanRun fs s root todo done outcome)
    (hforeseen : ∀ step ∈ done, step.Foreseen fs s root)
    (hspares : ∀ step ∈ done, step.Spares fs gone root)
    (hkept : ∀ path, .check path ∈ done → ¬ fs.Drops gone path) {todo' : List ScanStep}
    (hthinned : Thinned (fs.Drops gone) todo todo') :
    ScanRun (fs.withoutLinks gone) s root todo' done outcome := by
  induction h generalizing todo' with
  | done =>
    cases hthinned
    exact .done
  | @failed step rest e h =>
    cases hthinned with
    | drop hdropped _ => exact absurd hdropped (hkept _ List.mem_cons_self)
    | keep _ _ =>
      obtain ⟨herror, -⟩ := step.perform_withoutLinks hdrops hfs hclean
        (hforeseen step List.mem_cons_self) (hspares step List.mem_cons_self)
        fun path heq => hkept path (heq ▸ List.mem_cons_self)
      exact .failed (herror e h)
  | @next step rest new done checked outcome h _ ih =>
    cases hthinned with
    | drop hdropped _ => exact absurd hdropped (hkept _ List.mem_cons_self)
    | @keep _ rest' _ hrest =>
      obtain ⟨-, hok⟩ := step.perform_withoutLinks hdrops hfs hclean
        (hforeseen step List.mem_cons_self) (hspares step List.mem_cons_self)
        fun path heq => hkept path (heq ▸ List.mem_cons_self)
      obtain ⟨new', hperform, hnew⟩ := hok new checked h
      exact .next hperform (ih (fun t ht => hforeseen t (List.mem_cons_of_mem step ht))
        (fun t ht => hspares t (List.mem_cons_of_mem step ht))
        (fun path ht => hkept path (List.mem_cons_of_mem step ht)) (hnew.append hrest))

/-- A run that opens a directory ends there. -/
theorem ScanRun.outcome_of_isDirectory {todo done : List ScanStep}
    {outcome : Except ScanError (List CheckedFile)} (h : ScanRun fs s root todo done outcome)
    {path : String} (hmem : .check path ∈ done) (hdirectory : fs.isDirectory path = true) :
    outcome = .error (.unread .isDirectory path) := by
  have hperform : (ScanStep.check path).perform fs s root =
      .error (.unread .isDirectory path) := by
    rw [ScanStep.perform, checkFile, FileSystem.read_of_isDirectory hdirectory]
    rfl
  have hnot : ((ScanStep.check path).perform fs s root).isOk ≠ true := by
    simp [hperform, Except.isOk, Except.toBool]
  cases outcome with
  | ok checked => exact absurd (h.of_ok.1 _ hmem) hnot
  | error e =>
    obtain ⟨before, last, rfl, hbefore, hlast⟩ := h.of_error
    rcases List.mem_append.1 hmem with hmem | hmem
    · exact absurd (hbefore _ hmem) hnot
    · obtain rfl := List.mem_singleton.1 hmem
      rw [Except.error.inj (hlast.symm.trans hperform)]

theorem ScanStep.perform_unread {step : ScanStep} {fault : PathFault} {path : String}
    (h : step.perform fs s root = .error (.unread fault path)) : fs.read path = .error fault := by
  cases step with
  | find =>
    rw [perform] at h
    split at h
    · exact absurd h (by simp)
    split at h
    · exact absurd (Except.error.inj h) (by simp)
    · exact absurd h (by simp)
  | list directory =>
    rw [perform] at h
    split at h
    · exact absurd (Except.error.inj h) (by simp)
    · exact absurd h (by simp)
  | check opened =>
    rw [perform] at h
    split at h
    · rename_i e hcheck
      rw [Except.error.inj h] at hcheck
      rcases checkFile_eq_error hcheck with ⟨fault', hread, heq⟩ | ⟨refused, heq⟩
      · obtain ⟨rfl, rfl⟩ := ScanError.unread.inj heq
        exact hread
      · exact absurd heq (by simp)
    · exact absurd h (by simp)

end

/-! ## Scans -/

section

variable {fs : FileSystem} {s : Selection} {root : String} {gone : List String → Bool}

theorem scan_value_of_run (hfs : fs.Valid) {endings : Path.Endings} {path : String}
    {includeTests : Bool} (hselection : selectionOf path endings includeTests = (root, s))
    {done : List ScanStep} {outcome : Except ScanError (List CheckedFile)}
    (hrun : ScanRun fs s root [.find] done outcome) :
    (scan fs endings path includeTests).value = outcome.map ScanResult.ofChecked := by
  obtain ⟨done', hwalk⟩ := performs_walk hfs s root
  rw [scan_value, hselection, (hrun.unique hwalk).2]

/-- A file system without a link does not fail to open the link for being a directory. -/
theorem FileSystem.Drops.scan_value_ne (hfs : fs.Valid) {path : String} (h : fs.Drops gone path)
    (endings : Path.Endings) (start : String) (includeTests : Bool) :
    (scan (fs.withoutLinks gone) endings start includeTests).value ≠
      .error (.unread .isDirectory path) := by
  intro hvalue
  obtain ⟨done, hrun⟩ := performs_walk (hfs.withoutLinks gone)
    (selectionOf start endings includeTests).2 (selectionOf start endings includeTests).1
  rw [scan_value_of_run (hfs.withoutLinks gone) rfl hrun] at hvalue
  cases houtcome : (walk (fs.withoutLinks gone) (selectionOf start endings includeTests).2
      (selectionOf start endings includeTests).1).outcome (fs.withoutLinks gone) with
  | ok checked =>
    rw [houtcome] at hvalue
    exact absurd hvalue (by simp [Except.map])
  | error e =>
    rw [houtcome] at hvalue hrun
    obtain ⟨before, last, -, -, hlast⟩ := hrun.of_error
    rw [Except.error.inj hvalue] at hlast
    have hread := ScanStep.perform_unread hlast
    rw [read, h.resolve_withoutLinks hfs] at hread
    exact absurd (Except.error.inj hread) (by simp)

/-- **Links to directories make no difference to a scan that comes to open none of them.**  Let
links be taken away that lead to directories, as far as the scan meets them, and let no step of the
scan go through one of them, except that it may be the link itself that is opened.  Then the outcome
is the same exactly if no such link is opened, and it is opened only if its name is selected.  A
scan that opens one fails, since what it opens is a directory. -/
theorem scan_withoutLinks_iff (hfs : fs.Valid) {endings : Path.Endings} {path : String}
    {includeTests : Bool} (hselection : selectionOf path endings includeTests = (root, s))
    (hroot : fs.isDirectory root = true) (hclean : fs.CleansInPlace root)
    (hdrops : s.DropsDirectories fs root gone) {done : List ScanStep}
    {outcome : Except ScanError (List CheckedFile)} (hrun : ScanRun fs s root [.find] done outcome)
    (hspares : ∀ step ∈ done, step.Spares fs gone root) :
    ((scan (fs.withoutLinks gone) endings path includeTests).value =
        (scan fs endings path includeTests).value ↔
      ∀ opened, .check opened ∈ done → ¬ fs.Drops gone opened) ∧
      ∀ opened, .check opened ∈ done → fs.Drops gone opened →
        s.selects opened = true ∧
          (scan fs endings path includeTests).value = .error (.unread .isDirectory opened) := by
  have hforeseen := hrun.foreseen hroot fun step hstep => by
    obtain rfl := List.mem_singleton.1 hstep
    exact True.intro
  have hfails : ∀ opened, .check opened ∈ done → fs.Drops gone opened →
      s.selects opened = true ∧
        (scan fs endings path includeTests).value = .error (.unread .isDirectory opened) := by
    rintro opened hopened ⟨target, location, hresolve, hgone⟩
    obtain ⟨hselects, found, hmeets⟩ := hforeseen _ hopened
    refine ⟨hselects, ?_⟩
    have hpoints : fs.PointsAt opened found := by
      refine (hmeets.pointsAt hfs hclean).resolve_left fun hlong => ?_
      exact absurd ((hlong false).symm.trans hresolve) (by simp)
    obtain rfl := Except.ok.inj ((hpoints false (.inl rfl)).symm.trans hresolve)
    have hdirectory := hdrops opened _ hmeets rfl hgone
    rw [scan_value_of_run hfs hselection hrun, hrun.outcome_of_isDirectory hopened hdirectory]
    rfl
  refine ⟨⟨fun hsame opened hopened hdropped => ?_, fun hkept => ?_⟩, hfails⟩
  · exact hdropped.scan_value_ne hfs endings path includeTests
      (hsame.trans (hfails opened hopened hdropped).2)
  · have hrun' := hrun.withoutLinks hdrops hfs hclean hforeseen hspares hkept (.refl _)
    rw [scan_value_of_run (hfs.withoutLinks gone) hselection hrun',
      scan_value_of_run hfs hselection hrun]

end

/-! ## An example -/

/-- A directory with two links to a directory inside, one of them with the name of a source. -/
def linkedSystem : FileSystem where
  top := [("d", .directory [("l.go", .link "sub"), ("m", .link "sub"), ("sub", .directory [])])]

namespace linkedSystem

/-- The entries of its directory. -/
def inner : Entries :=
  [("l.go", .link "sub"), ("m", .link "sub"), ("sub", .directory [])]

theorem valid : linkedSystem.Valid := by
  have hinner : inner.Valid := by
    refine .cons (.cons (.cons .nil (by decide) (by decide) fun es h => ?_) (by decide) (by decide)
      fun es h => ?_) (by decide) (by decide) fun es h => ?_
    · exact Entry.directory.inj h ▸ .nil
    · exact absurd h (by simp)
    · exact absurd h (by simp)
  refine .cons .nil (by decide) (by decide) fun es h => ?_
  exact Entry.directory.inj h ▸ hinner

theorem resolve_d : linkedSystem.resolve "d" = .ok ⟨.directory inner, ["d"]⟩ := by
  with_unfolding_all rfl

theorem resolve_l :
    linkedSystem.resolve "d/l.go" false = .ok ⟨.link "sub", ["d", "l.go"]⟩ := by
  with_unfolding_all rfl

theorem isDirectory_l : linkedSystem.isDirectory "d/l.go" = true := by with_unfolding_all decide

theorem isDirectory_m : linkedSystem.isDirectory "d/m" = true := by with_unfolding_all decide

/-- The steps of its scan: the link with the name of a source is opened. -/
theorem run : ScanRun linkedSystem {} "d" [.find] [.find, .list "d", .check "d/l.go"]
    (.error (.unread .isDirectory "d/l.go")) := by
  have hroot : linkedSystem.isDirectory "d" = true := by with_unfolding_all decide
  have hsorted : inner.sorted = inner := List.mergeSort_of_pairwise (by decide)
  have hsteps : stepsOf {} "d" "d" inner = [.check "d/l.go"] := by with_unfolding_all decide
  have hfind : ScanStep.find.perform linkedSystem {} "d" = .ok ([.list "d"], []) := by
    rw [ScanStep.perform, if_pos hroot]
  have hlist : (ScanStep.list "d").perform linkedSystem {} "d" = .ok ([.check "d/l.go"], []) := by
    rw [ScanStep.perform, FileSystem.list_of_resolve resolve_d, ← hsteps]
    simp only [hsorted]
  have hcheck : (ScanStep.check "d/l.go").perform linkedSystem {} "d" =
      .error (.unread .isDirectory "d/l.go") := by
    rw [ScanStep.perform, checkFile, FileSystem.read_of_isDirectory isDirectory_l]
    rfl
  exact .next hfind (.next hlist (.failed hcheck))

/-- Both links lead to directories, whichever of them are taken away. -/
theorem dropsDirectories (gone : List String → Bool) :
    Selection.DropsDirectories {} linkedSystem "d" gone := by
  rintro path ⟨e, location⟩ ⟨directory, es, outer, name, hlists, hresolve, hmem, hpath, -⟩ hlink -
  -- not recursive: only the root is listed
  have hdirectory : directory = "d" := by
    clear hresolve hpath
    induction hlists with
    | root => rfl
    | inside _ _ _ henters ih =>
      rw [ih, Selection.enters, Path.shouldDescend, Bool.false_or, beq_iff_eq] at henters
      rw [ih, henters]
  subst hdirectory
  rw [resolve_d] at hresolve
  obtain ⟨hes, -⟩ := Target.mk.inj (Except.ok.inj hresolve)
  obtain rfl := Entry.directory.inj hes
  have hname : name = "l.go" ∨ name = "m" := by
    simp only [inner, List.mem_cons, Prod.mk.injEq, List.not_mem_nil, or_false] at hmem
    rcases hmem with ⟨rfl, -⟩ | ⟨rfl, -⟩ | ⟨-, rfl⟩
    · exact .inl rfl
    · exact .inr rfl
    · exact absurd hlink (by simp [Entry.isLink])
  rcases hname with rfl | rfl
  · have hentry : entryPath "d" "l.go" = "d/l.go" := by with_unfolding_all decide
    rw [hpath, hentry, isDirectory_l]
  · have hentry : entryPath "d" "m" = "d/m" := by with_unfolding_all decide
    rw [hpath, hentry, isDirectory_m]

theorem not_crosses_d (location : List String) : ¬ linkedSystem.Crosses "d" location := by
  rintro ⟨-, h⟩
  have hcomponents : Path.components "d" = ["d"] := by with_unfolding_all decide
  have hget : (linkedSystem.here.start "d").entries.get? "d" = some (.directory inner) := by
    with_unfolding_all rfl
  rw [hcomponents] at h
  rcases h.of_name ⟨by decide, by decide, by decide⟩ with ⟨es, -, h⟩ | ⟨path, hlink, -⟩
  · exact not_crosses_nil h
  · exact absurd (hget.symm.trans hlink) (by simp)

/-- The path of the link goes through this link only. -/
theorem crosses_l {location : List String} (h : linkedSystem.Crosses "d/l.go" location) :
    location = ["d", "l.go"] := by
  obtain ⟨-, h⟩ := h
  have hcomponents : Path.components "d/l.go" = ["d", "l.go"] := by with_unfolding_all decide
  have hsub : Path.components "sub" ++ [] = ["sub"] := by with_unfolding_all decide
  have hget : (linkedSystem.here.start "d/l.go").entries.get? "d" = some (.directory inner) := by
    with_unfolding_all rfl
  have hget' : ((linkedSystem.here.start "d/l.go").down "d" inner).entries.get? "l.go" =
      some (.link "sub") := by
    with_unfolding_all rfl
  have hget'' : (((linkedSystem.here.start "d/l.go").down "d" inner).start "sub").entries.get?
      "sub" = some (.directory []) := by
    with_unfolding_all rfl
  rw [hcomponents] at h
  rcases h.of_name ⟨by decide, by decide, by decide⟩ with ⟨es, hes, h⟩ | ⟨path, hlink, -⟩
  · obtain rfl := Entry.directory.inj (Option.some.inj (hget.symm.trans hes))
    rcases h.of_name ⟨by decide, by decide, by decide⟩ with ⟨es, hes, -⟩ | ⟨path, hlink, h⟩
    · exact absurd (hget'.symm.trans hes) (by simp)
    obtain rfl := Entry.link.inj (Option.some.inj (hget'.symm.trans hlink))
    rcases h with rfl | ⟨m, -, h⟩
    · with_unfolding_all rfl
    rw [hsub] at h
    rcases h.of_name ⟨by decide, by decide, by decide⟩ with ⟨es, -, h⟩ | ⟨path, hlink, -⟩
    · exact absurd h not_crosses_nil
    · exact absurd (hget''.symm.trans hlink) (by simp)
  · exact absurd (hget.symm.trans hlink) (by simp)

/-- The steps of the scan go through no link other than the one that is opened. -/
theorem spares {gone : List String → Bool}
    (h : linkedSystem.Drops gone "d/l.go" ∨ gone ["d", "l.go"] = false) :
    ∀ step ∈ [ScanStep.find, .list "d", .check "d/l.go"], step.Spares linkedSystem gone "d" := by
  have hd : linkedSystem.Avoids gone "d" := fun location hcrosses =>
    absurd hcrosses (not_crosses_d location)
  simp only [List.forall_mem_cons, List.not_mem_nil, false_implies, implies_true, and_true]
  refine ⟨hd, hd, h.imp id fun hkept location hcrosses => ?_⟩
  rw [crosses_l hcrosses, hkept]

end linkedSystem

/-- Taking away the link with the other name makes no difference. -/
theorem scan_linkedSystem_withoutLinks :
    (scan (linkedSystem.withoutLinks (· == ["d", "m"])) {} "d").value =
      (scan linkedSystem {} "d").value := by
  have hselection : selectionOf "d" {} false = ("d", {}) := by with_unfolding_all decide
  have hroot : linkedSystem.isDirectory "d" = true := by with_unfolding_all decide
  have hdots : ".." ∉ Path.components "d" := by with_unfolding_all decide
  refine (scan_withoutLinks_iff linkedSystem.valid hselection hroot (.inl hdots)
    (linkedSystem.dropsDirectories _) linkedSystem.run
    (linkedSystem.spares (.inr (by decide)))).1.2 fun opened hopened => ?_
  obtain rfl : opened = "d/l.go" := by simpa using hopened
  rintro ⟨target, location, hresolve, hgone⟩
  obtain ⟨-, rfl⟩ := Target.mk.inj (Except.ok.inj (linkedSystem.resolve_l.symm.trans hresolve))
  exact absurd hgone (by decide)

/-- **A link to a directory is not ignored** if it has the name of a source: the scan fails, and
without the link it does not.  Nothing else that the scan does goes through the link. -/
theorem scan_linkedSystem :
    linkedSystem.Valid ∧ linkedSystem.isDirectory "d" = true ∧ ".." ∉ Path.components "d" ∧
      linkedSystem.isDirectory "d/l.go" = true ∧
      (∃ done outcome, ScanRun linkedSystem {} "d" [.find] done outcome ∧
        ∀ step ∈ done, step.Spares linkedSystem (· == ["d", "l.go"]) "d") ∧
      (scan linkedSystem {} "d").value = .error (.unread .isDirectory "d/l.go") ∧
      (scan (linkedSystem.withoutLinks (· == ["d", "l.go"])) {} "d").value = .ok {} := by
  have hroot : linkedSystem.isDirectory "d" = true := by with_unfolding_all decide
  have hselection : selectionOf "d" {} false = ("d", {}) := by with_unfolding_all decide
  have hdropped : linkedSystem.Drops (· == ["d", "l.go"]) "d/l.go" :=
    ⟨_, _, linkedSystem.resolve_l, by decide⟩
  refine ⟨linkedSystem.valid, hroot, by with_unfolding_all decide, linkedSystem.isDirectory_l,
    ⟨_, _, linkedSystem.run, linkedSystem.spares (.inl hdropped)⟩, ?_, ?_⟩
  · rw [scan_value_of_run linkedSystem.valid hselection linkedSystem.run]
    rfl
  · have hroot' : (linkedSystem.withoutLinks (· == ["d", "l.go"])).isDirectory "d" = true := by
      with_unfolding_all decide
    have hlist : (linkedSystem.withoutLinks (· == ["d", "l.go"])).list "d" =
        .ok [("m", .link "sub"), ("sub", .directory [])] := by
      with_unfolding_all rfl
    have hsorted : Entries.sorted [("m", .link "sub"), ("sub", .directory [])] =
        [("m", .link "sub"), ("sub", .directory [])] :=
      List.mergeSort_of_pairwise (by decide)
    have hsteps : stepsOf {} "d" "d" [("m", .link "sub"), ("sub", .directory [])] = [] := by
      with_unfolding_all decide
    have hfind : ScanStep.find.perform (linkedSystem.withoutLinks (· == ["d", "l.go"])) {} "d" =
        .ok ([.list "d"], []) := by
      rw [ScanStep.perform, if_pos hroot']
    have hnothing : (ScanStep.list "d").perform
        (linkedSystem.withoutLinks (· == ["d", "l.go"])) {} "d" = .ok ([], []) := by
      rw [ScanStep.perform, hlist, ← hsteps]
      simp only [hsorted]
    rw [scan_value_of_run (linkedSystem.valid.withoutLinks _) hselection
      (.next hfind (.next hnothing .done))]
    rfl

end GoGlobals
