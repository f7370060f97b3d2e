import GoGlobals.FileSystem.Basic
import GoGlobals.Proofs.Path
import Mathlib.Data.List.Forall2

/-!
# What paths lead to

A file system is *valid* when the names in each of its directories are proper and distinct.

`Leads` says by rules how components lead from one directory to another, and resolving finds a
directory exactly if they do (`Leads.resolveFrom_append`, `exists_leads`).  That is shown along the
components one by one (`components_induction`), since a link puts more of them in the place of one.
What is known about paths that can be listed then comes by induction on the rules:

* they lead to valid directories (`FileSystem.list_valid`);
* components that lead nowhere make no difference on the way (`Leads.of_squeeze`), so a name behind
  the path of a directory lists what is in that directory under the name, however the path is
  spelled (`FileSystem.list_below`);
* the order in which directories hold their entries makes no difference
  (`FileSystem.Alike.list`).
-/

set_option autoImplicit false

namespace GoGlobals

open GoGlobals.Path (ProperName squeeze isBlank)

/-! ## Valid file systems -/

/-- The names in the directory and in those within it are proper and distinct. -/
inductive Entries.Valid : Entries → Prop
  | intro {es : Entries} (proper : ∀ e ∈ es, ProperName e.1) (distinct : (es.map (·.1)).Nodup)
      (inside : ∀ e ∈ es, ∀ inner, e.2 = .directory inner → Entries.Valid inner) :
      Entries.Valid es

namespace Entries

variable {es : Entries}

theorem Valid.proper (h : es.Valid) : ∀ e ∈ es, ProperName e.1 := by
  cases h with
  | intro proper _ _ => exact proper

theorem Valid.distinct (h : es.Valid) : (es.map (·.1)).Nodup := by
  cases h with
  | intro _ distinct _ => exact distinct

theorem Valid.inside (h : es.Valid) {name : String} {inner : Entries}
    (hmem : (name, Entry.directory inner) ∈ es) : Valid inner := by
  cases h with
  | intro _ _ inside => exact inside _ hmem inner rfl

theorem Valid.nil : Valid [] :=
  .intro (fun _ he => absurd he List.not_mem_nil) .nil fun _ he => absurd he List.not_mem_nil

theorem Valid.cons {name : String} {entry : Entry} (h : es.Valid) (hname : ProperName name)
    (hnew : name ∉ es.map (·.1)) (hentry : ∀ inner, entry = .directory inner → Valid inner) :
    Valid ((name, entry) :: es) := by
  refine .intro (fun e he => ?_) (List.nodup_cons.2 ⟨hnew, h.distinct⟩) fun e he inner hin => ?_
  · rcases List.mem_cons.1 he with rfl | he
    · exact hname
    · exact h.proper e he
  · rcases List.mem_cons.1 he with rfl | he
    · exact hentry inner hin
    · obtain ⟨name', entry'⟩ := e
      obtain rfl : entry' = .directory inner := hin
      exact h.inside he

theorem Valid.of_subset (h : es.Valid) {es' : Entries} (hsub : ∀ e ∈ es', e ∈ es)
    (hdistinct : (es'.map (·.1)).Nodup) : es'.Valid := by
  refine .intro (fun e he => h.proper e (hsub e he)) hdistinct ?_
  rintro ⟨name, entry⟩ he inner rfl
  exact h.inside (hsub _ he)

theorem Valid.tail {e : String × Entry} (h : Valid (e :: es)) : es.Valid :=
  h.of_subset (fun _ he => List.mem_cons_of_mem _ he) (List.nodup_cons.1 h.distinct).2

theorem Valid.perm (h : es.Valid) {es' : Entries} (hperm : es'.Perm es) : es'.Valid :=
  h.of_subset (fun _ he => hperm.subset he) ((hperm.map _).nodup_iff.2 h.distinct)

theorem mem_of_get? {name : String} {entry : Entry} (h : es.get? name = some entry) :
    (name, entry) ∈ es := by
  obtain ⟨e, he, rfl⟩ := Option.map_eq_some_iff.1 h
  have hname := List.find?_some he
  rw [beq_iff_eq] at hname
  rw [← hname]
  exact List.mem_of_find?_eq_some he

/-- In a directory with distinct names the entry of a name is the one that is there. -/
theorem get?_eq_some_iff (h : es.Valid) {name : String} {entry : Entry} :
    es.get? name = some entry ↔ (name, entry) ∈ es := by
  refine ⟨mem_of_get?, fun hmem => ?_⟩
  have hdistinct := h.distinct
  clear h
  induction es with
  | nil => exact absurd hmem List.not_mem_nil
  | cons e es ih =>
    rw [List.map_cons, List.nodup_cons] at hdistinct
    rw [get?, List.find?_cons]
    rcases List.mem_cons.1 hmem with rfl | hmem
    · simp
    · have hne : (e.1 == name) = false := by
        rw [beq_eq_false_iff_ne]
        rintro rfl
        exact hdistinct.1 (List.mem_map.2 ⟨_, hmem, rfl⟩)
      rw [hne]
      exact ih hmem hdistinct.2

theorem get?_perm (h : es.Valid) {es' : Entries} (hperm : es'.Perm es) (name : String) :
    es'.get? name = es.get? name := by
  ext entry
  rw [get?_eq_some_iff h, get?_eq_some_iff (h.perm hperm), hperm.mem_iff]

end Entries

/-- The names of all entries are proper and distinct. -/
def FileSystem.Valid (fs : FileSystem) : Prop :=
  fs.top.Valid

/-- All directories on the way are valid. -/
structure Trail.Valid (t : Trail) : Prop where
  top : t.top.Valid
  frames : ∀ f ∈ t.frames, f.entries.Valid

namespace Trail

variable {t : Trail}

theorem names_down (t : Trail) (name : String) (es : Entries) :
    (t.down name es).names = t.names ++ [name] := by
  simp [names, down]

theorem Valid.entries (h : t.Valid) : t.entries.Valid := by
  rw [Trail.entries]
  split
  · exact h.top
  · rename_i f _ hf
    exact h.frames f (by rw [hf]; exact List.mem_cons_self)

theorem Valid.up (h : t.Valid) : t.up.Valid :=
  ⟨h.top, fun f hf => h.frames f (List.mem_of_mem_tail hf)⟩

theorem Valid.down (h : t.Valid) {name : String} {inner : Entries} (hinner : inner.Valid) :
    (t.down name inner).Valid := by
  refine ⟨h.top, fun f hf => ?_⟩
  rcases List.mem_cons.1 hf with rfl | hf
  · exact hinner
  · exact h.frames f hf

theorem Valid.start (h : t.Valid) (path : String) : (t.start path).Valid := by
  rw [Trail.start]
  split
  · exact ⟨h.top, fun _ hf => absurd hf List.not_mem_nil⟩
  · exact h

theorem Valid.down_get? (h : t.Valid) {name : String} {inner : Entries}
    (hget : t.entries.get? name = some (.directory inner)) : (t.down name inner).Valid :=
  h.down (h.entries.inside (Entries.mem_of_get? hget))

theorem Valid.descend (h : t.Valid) (names : List String) : (t.descend names).Valid := by
  induction names generalizing t with
  | nil => exact h
  | cons name names ih =>
    rw [Trail.descend]
    split
    · rename_i inner hget
      exact ih (h.down_get? hget)
    · exact h

end Trail

theorem FileSystem.Valid.here {fs : FileSystem} (h : fs.Valid) : fs.here.Valid :=
  Trail.Valid.descend (t := ⟨fs.top, []⟩) ⟨h, fun _ hf => absurd hf List.not_mem_nil⟩ _

/-! ## Following components to a directory -/

/-- A component that is looked up in a directory. -/
structure IsName (c : String) : Prop where
  not_blank : isBlank c = false
  ne_dots : c ≠ ".."
  le_maxNameBytes : c.utf8ByteSize ≤ maxNameBytes

/-- From one directory, the components lead to another, and of the links that may be followed so
many are left. -/
inductive Leads : Nat → Trail → List String → Nat → Trail → Prop
  | here (n : Nat) (t : Trail) : Leads n t [] n t
  | blank {n m : Nat} {t t' : Trail} {c : String} {cs : List String} (hblank : isBlank c = true)
      (h : Leads n t cs m t') : Leads n t (c :: cs) m t'
  | up {n m : Nat} {t t' : Trail} {cs : List String} (h : Leads n t.up cs m t') :
      Leads n t (".." :: cs) m t'
  | down {n m : Nat} {t t' : Trail} {c : String} {cs : List String} {inner : Entries}
      (hname : IsName c) (hget : t.entries.get? c = some (.directory inner))
      (h : Leads n (t.down c inner) cs m t') : Leads n t (c :: cs) m t'
  | link {n m : Nat} {t t' : Trail} {c path : String} {cs : List String}
      (hname : IsName c) (hget : t.entries.get? c = some (.link path))
      (h : Leads n (t.start path) (Path.components path ++ cs) m t') :
      Leads (n + 1) t (c :: cs) m t'

section Components

variable {follows : Bool} {n : Nat} {t : Trail} {c : String}

/-- A component of a path is passed over, leads up, is too long for a name, or is looked up. -/
theorem advance_cons (t : Trail) (c : String) (cs : List String) :
    advance follows t (c :: cs) =
      if isBlank c then advance follows t cs
      else if c = ".." then advance follows t.up cs
      else if maxNameBytes < c.utf8ByteSize then .lost .tooLong
      else match t.entries.get? c with
        | none => .lost .missing
        | some (.directory inner) => advance follows (t.down c inner) cs
        | some (.file content) =>
          if cs.isEmpty then .arrived ⟨.file content, t.names ++ [c]⟩ else .lost .notDirectory
        | some (.link path) =>
          if cs.isEmpty && !follows then .arrived ⟨.link path, t.names ++ [c]⟩
          else .detour path t cs := by
  simp only [advance, isBlank, beq_iff_eq]
  rfl

/-- Components that lead equally far without a link resolve to the same. -/
theorem resolveFrom_congr {u : Trail} {cs ds : List String}
    (h : advance follows t cs = advance follows u ds) (n : Nat) :
    resolveFrom follows n t cs = resolveFrom follows n u ds := by
  rw [resolveFrom.eq_def, h, ← resolveFrom.eq_def]

theorem resolveFrom_nil (n : Nat) (t : Trail) :
    resolveFrom follows n t [] = .ok ⟨.directory t.entries, t.names⟩ := by
  rw [resolveFrom.eq_def, advance]

theorem resolveFrom_of_blank (hblank : isBlank c = true) (n : Nat) (cs : List String) :
    resolveFrom follows n t (c :: cs) = resolveFrom follows n t cs :=
  resolveFrom_congr (by rw [advance_cons, if_pos hblank]) n

theorem resolveFrom_of_dots (n : Nat) (cs : List String) :
    resolveFrom follows n t (".." :: cs) = resolveFrom follows n t.up cs :=
  resolveFrom_congr (by rw [advance_cons, if_neg (by decide), if_pos rfl]) n

theorem resolveFrom_of_long (hblank : isBlank c = false) (hdots : c ≠ "..")
    (hlong : maxNameBytes < c.utf8ByteSize) (n : Nat) (cs : List String) :
    resolveFrom follows n t (c :: cs) = .error .tooLong := by
  rw [resolveFrom.eq_def, advance_cons, if_neg (by simp [hblank]), if_neg hdots, if_pos hlong]

/-- Where it goes on with a name that is looked up in a directory. -/
def Trail.lookUp (t : Trail) (name : String) (rest : List String) : Step :=
  match t.entries.get? name with
  | none => .lost .missing
  | some (.directory inner) => advance true (t.down name inner) rest
  | some (.file content) =>
    if rest.isEmpty then .arrived ⟨.file content, t.names ++ [name]⟩ else .lost .notDirectory
  | some (.link target) => .detour target t rest

theorem IsName.advance (hname : IsName c) (cs : List String) :
    advance true t (c :: cs) = t.lookUp c cs := by
  rw [advance_cons, if_neg (by simp [hname.not_blank]), if_neg hname.ne_dots,
    if_neg (Nat.not_lt.2 hname.le_maxNameBytes)]
  simp only [Bool.not_true, Bool.and_false, Bool.false_eq_true, if_false]
  rfl

/-- To follow components is to follow them one by one: a name goes on in the directory of the name,
or with the path of the link, for which there has to be a link left. -/
@[elab_as_elim]
theorem components_induction {motive : Nat → Trail → List String → Prop}
    (nil : ∀ n t, motive n t [])
    (blank : ∀ n t c cs, isBlank c = true → motive n t cs → motive n t (c :: cs))
    (up : ∀ n t cs, motive n t.up cs → motive n t (".." :: cs))
    (long : ∀ n t c cs, isBlank c = false → c ≠ ".." → maxNameBytes < c.utf8ByteSize →
      motive n t (c :: cs))
    (name : ∀ n t c cs, IsName c →
      (∀ inner, t.entries.get? c = some (.directory inner) → motive n (t.down c inner) cs) →
      (∀ path m, n = m + 1 → t.entries.get? c = some (.link path) →
        motive m (t.start path) (Path.components path ++ cs)) → motive n t (c :: cs))
    (n : Nat) (t : Trail) (cs : List String) : motive n t cs := by
  -- A link needs the statement for one link fewer but for more components.
  induction n using Nat.strongRecOn generalizing t cs with
  | ind n ihn =>
    induction cs generalizing t with
    | nil => exact nil n t
    | cons c cs ih =>
      cases hblank : isBlank c with
      | true => exact blank n t c cs hblank (ih t)
      | false =>
        by_cases hdots : c = ".."
        · exact hdots ▸ up n t cs (ih t.up)
        rcases Nat.lt_or_ge maxNameBytes c.utf8ByteSize with hlong | hshort
        · exact long n t c cs hblank hdots hlong
        · refine name n t c cs ⟨hblank, hdots, hshort⟩ (fun inner _ => ih _) ?_
          rintro path m rfl -
          exact ihn m (Nat.lt_succ_self m) _ _

end Components

/-- What comes behind components that lead to a directory is followed from there. -/
theorem Leads.resolveFrom_append {n m : Nat} {t t' : Trail} {cs : List String}
    (h : Leads n t cs m t') (rest : List String) :
    resolveFrom true n t (cs ++ rest) = resolveFrom true m t' rest := by
  induction h with
  | here n t => rfl
  | blank hblank _ ih => rw [← ih, List.cons_append, resolveFrom_of_blank hblank]
  | up _ ih => rw [← ih, List.cons_append, resolveFrom_of_dots]
  | down hname hget _ ih =>
    rw [← ih, List.cons_append, resolveFrom.eq_def, hname.advance, Trail.lookUp, hget]
    exact (resolveFrom.eq_def ..).symm
  | link hname hget _ ih =>
    rw [← ih, List.cons_append, resolveFrom.eq_def, hname.advance, Trail.lookUp, hget,
      List.append_assoc]

/-- Components that resolve to a directory lead there. -/
theorem exists_leads {es : Entries} {location : List String} (n : Nat) {t : Trail}
    {cs : List String} (h : resolveFrom true n t cs = .ok ⟨.directory es, location⟩) :
    ∃ m t', Leads n t cs m t' ∧ t'.entries = es := by
  induction n, t, cs using components_induction with
  | nil n t =>
    rw [resolveFrom_nil] at h
    obtain ⟨hentry, -⟩ := Target.mk.inj (Except.ok.inj h)
    exact ⟨n, t, .here n t, Entry.directory.inj hentry⟩
  | blank n t c cs hblank ih =>
    rw [resolveFrom_of_blank hblank] at h
    obtain ⟨m, t', hleads, hes⟩ := ih h
    exact ⟨m, t', .blank hblank hleads, hes⟩
  | up n t cs ih =>
    rw [resolveFrom_of_dots] at h
    obtain ⟨m, t', hleads, hes⟩ := ih h
    exact ⟨m, t', .up hleads, hes⟩
  | long n t c cs hblank hdots hlong =>
    rw [resolveFrom_of_long hblank hdots hlong] at h
    exact absurd h (by simp)
  | name n t c cs hname ihdown ihlink =>
    rw [resolveFrom.eq_def, hname.advance, Trail.lookUp] at h
    cases hget : t.entries.get? c with
    | none =>
      rw [hget] at h
      exact absurd h (by simp)
    | some entry =>
      rw [hget] at h
      cases entry with
      | file content => cases cs <;> exact absurd h (by simp)
      | directory inner =>
        obtain ⟨m, t', hleads, hes⟩ := ihdown inner hget ((resolveFrom.eq_def ..).trans h)
        exact ⟨m, t', .down hname hget hleads, hes⟩
      | link path =>
        cases n with
        | zero => exact absurd h (by simp)
        | succ n =>
          obtain ⟨m, t', hleads, hes⟩ := ihlink path n rfl hget h
          exact ⟨m, t', .link hname hget hleads, hes⟩

/-- Listing a directory succeeds exactly if there is nothing wrong with its path and the components
of the path lead to it. -/
theorem FileSystem.list_eq_ok_iff {fs : FileSystem} {path : String} {es : Entries} :
    fs.list path = .ok es ↔ pathFault? path = none ∧
      ∃ m t', Leads maxLinks (fs.here.start path) (Path.components path) m t' ∧
        t'.entries = es := by
  rw [list, resolve]
  cases hfault : pathFault? path with
  | some fault => simp
  | none =>
    refine ⟨fun h => ⟨rfl, ?_⟩, ?_⟩
    · cases hresolve : resolveFrom true maxLinks (fs.here.start path) (Path.components path) with
      | error fault =>
        rw [hresolve] at h
        exact absurd h (by simp)
      | ok target =>
        obtain ⟨entry, location⟩ := target
        rw [hresolve] at h
        cases entry with
        | file content => exact absurd h (by simp)
        | link target => exact absurd h (by simp)
        | directory inner =>
          obtain rfl : inner = es := Except.ok.inj h
          exact exists_leads maxLinks hresolve
    · rintro ⟨-, m, t', hleads, rfl⟩
      have hresolve := hleads.resolveFrom_append []
      rw [List.append_nil, resolveFrom_nil] at hresolve
      simp only [hresolve]

theorem FileSystem.isDirectory_iff {fs : FileSystem} {path : String} :
    fs.isDirectory path = true ↔ ∃ es, fs.list path = .ok es := by
  rw [isDirectory, list]
  cases fs.resolve path with
  | error fault => simp
  | ok target =>
    obtain ⟨entry, location⟩ := target
    cases entry with
    | file content => simp [Entry.isDirectory]
    | link target => simp [Entry.isDirectory]
    | directory inner => simp [Entry.isDirectory]

/-- Components lead from valid directories to valid directories. -/
theorem Leads.valid {n m : Nat} {t t' : Trail} {cs : List String} (h : Leads n t cs m t')
    (ht : t.Valid) : t'.Valid := by
  induction h with
  | here n t => exact ht
  | blank _ _ ih => exact ih ht
  | up _ ih => exact ih ht.up
  | down _ hget _ ih => exact ih (ht.down_get? hget)
  | link _ _ _ ih => exact ih (ht.start _)

/-- What is listed in a valid file system is a valid directory. -/
theorem FileSystem.list_valid {fs : FileSystem} (h : fs.Valid) {path : String} {es : Entries}
    (hlist : fs.list path = .ok es) : es.Valid := by
  obtain ⟨-, m, t', hleads, rfl⟩ := list_eq_ok_iff.1 hlist
  exact (hleads.valid (h.here.start path)).entries

/-! ## Going down by a name -/

theorem Leads.blanks {n m : Nat} {t t' : Trail} {before cs : List String}
    (hbefore : ∀ c ∈ before, isBlank c = true) (h : Leads n t cs m t') :
    Leads n t (before ++ cs) m t' := by
  induction before with
  | nil => exact h
  | cons c before ih =>
    obtain ⟨hc, hbefore⟩ := List.forall_mem_cons.1 hbefore
    exact .blank hc (ih hbefore)

/-- Where a component stands among those that lead somewhere, it stands behind blanks. -/
theorem squeeze_eq_cons {cs ds : List String} {c : String} (h : squeeze cs = c :: ds) :
    ∃ before rest, cs = before ++ c :: rest ∧ (∀ b ∈ before, isBlank b = true) ∧
      squeeze rest = ds := by
  obtain ⟨before, rest, rfl, hbefore, -, hrest⟩ := List.filter_eq_cons_iff.1 h
  exact ⟨before, rest, rfl, fun b hb => by simpa using hbefore b hb, hrest⟩

/-- Only the components that lead somewhere matter on the way to a directory. -/
theorem Leads.of_squeeze {n m : Nat} {t t' : Trail} {cs : List String} (h : Leads n t cs m t') :
    ∀ {ds : List String}, squeeze ds = squeeze cs → Leads n t ds m t' := by
  induction h with
  | here n t =>
    intro ds hds
    have hblank := List.filter_eq_nil_iff.1 hds
    rw [← List.append_nil ds]
    exact .blanks (fun c hc => by simpa using hblank c hc) (.here n t)
  | blank hblank _ ih =>
    intro ds hds
    rw [Path.squeeze_cons_of_blank hblank] at hds
    exact ih hds
  | up _ ih =>
    intro ds hds
    rw [Path.squeeze_cons_of_not_blank (by decide)] at hds
    obtain ⟨before, rest, rfl, hbefore, hrest⟩ := squeeze_eq_cons hds
    exact .blanks hbefore (.up (ih hrest))
  | down hname hget _ ih =>
    intro ds hds
    rw [Path.squeeze_cons_of_not_blank hname.not_blank] at hds
    obtain ⟨before, rest, rfl, hbefore, hrest⟩ := squeeze_eq_cons hds
    exact .blanks hbefore (.down hname hget (ih hrest))
  | link hname hget _ ih =>
    intro ds hds
    rw [Path.squeeze_cons_of_not_blank hname.not_blank] at hds
    obtain ⟨before, rest, rfl, hbefore, hrest⟩ := squeeze_eq_cons hds
    refine .blanks hbefore (.link hname hget (ih ?_))
    rw [Path.squeeze_append, Path.squeeze_append, hrest]

/-- **What is listed below a directory is what is in it.**  The name of a directory within another,
behind any path that leads as the path of the other does, lists the one within. -/
theorem FileSystem.list_below {fs : FileSystem} {directory path name : String}
    {es inner inner' : Entries} (hlist : fs.list directory = .ok es) (hname : ProperName name)
    (hget : es.get? name = some (.directory inner))
    (habs : Path.isAbsolute path = Path.isAbsolute directory)
    (hpath : squeeze (Path.components path) = squeeze (Path.components directory) ++ [name])
    (hbelow : fs.list path = .ok inner') : inner' = inner := by
  obtain ⟨-, m, t, hleads, rfl⟩ := list_eq_ok_iff.1 hlist
  obtain ⟨-, m', t', hleads', rfl⟩ := list_eq_ok_iff.1 hbelow
  have hstart : fs.here.start path = fs.here.start directory := by
    rw [Trail.start, Trail.start, habs]
  have hlast : squeeze [name] = [name] := by
    rw [Path.squeeze_cons_of_not_blank hname.not_blank]
    rfl
  -- The path leads where the name leads from the directory, which is one directory down.
  have hjoined : Leads maxLinks (fs.here.start directory) (Path.components directory ++ [name])
      m' t' := by
    rw [← hstart]
    exact hleads'.of_squeeze (by rw [Path.squeeze_append, hpath, hlast])
  have hresolve := hjoined.resolveFrom_append []
  rw [List.append_nil, hleads.resolveFrom_append, resolveFrom_nil] at hresolve
  rcases Nat.lt_or_ge maxNameBytes name.utf8ByteSize with hlong | hshort
  · rw [resolveFrom_of_long hname.not_blank hname.ne_dots hlong] at hresolve
    exact absurd hresolve (by simp)
  · have hisname : IsName name := ⟨hname.not_blank, hname.ne_dots, hshort⟩
    rw [resolveFrom.eq_def, hisname.advance, Trail.lookUp, hget] at hresolve
    obtain ⟨hentry, -⟩ := Target.mk.inj (Except.ok.inj hresolve)
    exact (Entry.directory.inj hentry).symm

/-! ## The order of the entries -/

/-- Two entries that differ only in the order in which directories hold their entries. -/
inductive Entry.Alike : Entry → Entry → Prop
  | file (content : Text.Source) : Alike (.file content) (.file content)
  | link (target : String) : Alike (.link target) (.link target)
  | directory {es es' : Entries} (same : ∀ name, (es.get? name).isSome = (es'.get? name).isSome)
      (inside : ∀ name e e', es.get? name = some e → es'.get? name = some e' → Alike e e') :
      Alike (.directory es) (.directory es')

/-- Two directories that differ only in the order of the entries, of their own and within. -/
def Entries.Alike (es es' : Entries) : Prop :=
  Entry.Alike (.directory es) (.directory es')

/-- Two file systems that differ only in the order in which directories hold their entries. -/
structure FileSystem.Alike (fs fs' : FileSystem) : Prop where
  top : fs.top.Alike fs'.top
  current : fs.current = fs'.current

theorem Entries.Alike.get? {es es' : Entries} (h : es.Alike es') {name : String} {e : Entry}
    (he : es.get? name = some e) : ∃ e', es'.get? name = some e' ∧ e.Alike e' := by
  cases h with
  | directory same inside =>
    have hsome := same name
    rw [he, Option.isSome_some] at hsome
    obtain ⟨e', he'⟩ := Option.isSome_iff_exists.1 hsome.symm
    exact ⟨e', he', inside name e e' he he'⟩

theorem Entries.Alike.get?_eq_none {es es' : Entries} (h : es.Alike es') {name : String}
    (hnone : es.get? name = none) : es'.get? name = none := by
  cases h with
  | directory same _ =>
    have hsome := same name
    rw [hnone, Option.isSome_none] at hsome
    exact Option.isNone_iff_eq_none.1 (Option.isSome_eq_false_iff.1 hsome.symm)

theorem Entry.Alike.symm {e e' : Entry} (h : e.Alike e') : e'.Alike e := by
  induction h with
  | file content => exact .file content
  | link target => exact .link target
  | directory same _ ih =>
    exact .directory (fun name => (same name).symm) fun name e e' he he' => ih name e' e he' he

theorem Entries.Alike.symm {es es' : Entries} (h : es.Alike es') : es'.Alike es :=
  Entry.Alike.symm h

theorem Entry.Alike.refl : (e : Entry) → e.Alike e
  | .file content => .file content
  | .link target => .link target
  | .directory es => .directory (fun _ => rfl) fun name e e' he he' => by
    obtain rfl : e = e' := Option.some.inj (he.symm.trans he')
    have hsize := List.sizeOf_lt_of_mem (Entries.mem_of_get? he)
    exact Entry.Alike.refl e
termination_by e => sizeOf e
decreasing_by
  simp only [Prod.mk.sizeOf_spec] at hsize
  simp only [Entry.directory.sizeOf_spec]
  omega

/-- A directory and the same entries in another order. -/
theorem Entries.Alike.of_perm {es es' : Entries} (hes : es.Valid) (h : es'.Perm es) :
    es.Alike es' := by
  refine .directory (fun name => by rw [get?_perm hes h]) fun name e e' he he' => ?_
  rw [get?_perm hes h, he] at he'
  obtain rfl := Option.some.inj he'
  exact .refl e

theorem Entry.isDirectory_iff {e : Entry} :
    e.isDirectory = true ↔ ∃ inner, e = .directory inner := by
  cases e with
  | file content => simp [Entry.isDirectory]
  | link target => simp [Entry.isDirectory]
  | directory inner => simp [Entry.isDirectory]

theorem Entry.Alike.isDirectory_eq {e e' : Entry} (h : e.Alike e') :
    e.isDirectory = e'.isDirectory := by
  cases h <;> rfl

/-- Two ways through directories that differ only in the order of their entries. -/
structure Trail.Alike (t u : Trail) : Prop where
  top : t.top.Alike u.top
  frames : List.Forall₂ (fun f g => Entries.Alike f.entries g.entries) t.frames u.frames

namespace Trail

variable {t u : Trail}

theorem Alike.entries (h : t.Alike u) : t.entries.Alike u.entries := by
  obtain ⟨top, frames⟩ := t
  obtain ⟨top', frames'⟩ := u
  cases h.frames with
  | nil => exact h.top
  | cons hframe _ => exact hframe

theorem Alike.up (h : t.Alike u) : t.up.Alike u.up := by
  obtain ⟨top, frames⟩ := t
  obtain ⟨top', frames'⟩ := u
  cases h.frames with
  | nil => exact ⟨h.top, .nil⟩
  | cons _ hframes => exact ⟨h.top, hframes⟩

theorem Alike.down (h : t.Alike u) (name : String) {es es' : Entries} (hes : es.Alike es') :
    (t.down name es).Alike (u.down name es') :=
  ⟨h.top, .cons hes h.frames⟩

theorem Alike.start (h : t.Alike u) (path : String) : (t.start path).Alike (u.start path) := by
  rw [Trail.start, Trail.start]
  split
  · exact ⟨h.top, .nil⟩
  · exact h

theorem Alike.down_get? (h : t.Alike u) {name : String} {inner : Entries}
    (hget : t.entries.get? name = some (.directory inner)) :
    ∃ inner', u.entries.get? name = some (.directory inner') ∧
      (t.down name inner).Alike (u.down name inner') := by
  obtain ⟨e', he', halike⟩ := h.entries.get? hget
  cases halike with
  | @directory _ es' same inside => exact ⟨es', he', h.down name (.directory same inside)⟩

theorem Alike.descend (h : t.Alike u) (names : List String) :
    (t.descend names).Alike (u.descend names) := by
  induction names generalizing t u with
  | nil => exact h
  | cons name names ih =>
    rw [Trail.descend, Trail.descend]
    cases hget : t.entries.get? name with
    | none =>
      rw [h.entries.get?_eq_none hget]
      exact h
    | some e =>
      obtain ⟨e', hget', halike⟩ := h.entries.get? hget
      rw [hget']
      cases halike with
      | file content => exact h
      | link target => exact h
      | directory same inside => exact ih (h.down name (.directory same inside))

end Trail

theorem FileSystem.Alike.here {fs fs' : FileSystem} (h : fs.Alike fs') :
    fs.here.Alike fs'.here := by
  rw [FileSystem.here, FileSystem.here, ← h.current]
  exact Trail.Alike.descend (t := ⟨fs.top, []⟩) ⟨h.top, .nil⟩ _

/-- The same components lead to directories that differ only in order. -/
theorem Leads.of_alike {n m : Nat} {t t' u : Trail} {cs : List String} (h : Leads n t cs m t')
    (htu : t.Alike u) : ∃ u', Leads n u cs m u' ∧ t'.Alike u' := by
  induction h generalizing u with
  | here n t => exact ⟨u, .here n u, htu⟩
  | blank hblank _ ih =>
    obtain ⟨u', hleads, halike⟩ := ih htu
    exact ⟨u', .blank hblank hleads, halike⟩
  | up _ ih =>
    obtain ⟨u', hleads, halike⟩ := ih htu.up
    exact ⟨u', .up hleads, halike⟩
  | down hname hget _ ih =>
    obtain ⟨inner', hget', hdown⟩ := htu.down_get? hget
    obtain ⟨u', hleads, halike⟩ := ih hdown
    exact ⟨u', .down hname hget' hleads, halike⟩
  | link hname hget _ ih =>
    obtain ⟨e', hget', hlink⟩ := htu.entries.get? hget
    cases hlink with
    | link =>
      obtain ⟨u', hleads, halike⟩ := ih (htu.start _)
      exact ⟨u', .link hname hget' hleads, halike⟩

/-- **The order of the entries does not matter to a path.**  A path that can be listed leads to the
same directory in the other order. -/
theorem FileSystem.Alike.list {fs fs' : FileSystem} (h : fs.Alike fs') {path : String}
    {es : Entries} (hlist : fs.list path = .ok es) :
    ∃ es', fs'.list path = .ok es' ∧ es.Alike es' := by
  obtain ⟨hfault, m, t, hleads, rfl⟩ := list_eq_ok_iff.1 hlist
  obtain ⟨u, hleads', halike⟩ := hleads.of_alike (h.here.start path)
  exact ⟨u.entries, list_eq_ok_iff.2 ⟨hfault, m, u, hleads', rfl⟩, halike.entries⟩

/-! ## An example -/

/-- A small file system, with a file and a link of one directory at its top. -/
def sampleSystem : FileSystem where
  top := [("z.go", .file #[]), ("a", .directory [("y.go", .link "../z.go"), ("x", .directory [])])]

theorem sampleSystem_valid : sampleSystem.Valid := by
  have hinner : Entries.Valid [("y.go", .link "../z.go"), ("x", .directory [])] := by
    refine .cons (.cons .nil (by decide) (by decide) fun inner h => ?_) (by decide) (by decide)
      fun inner h => ?_
    · exact Entry.directory.inj h ▸ .nil
    · exact absurd h (by simp)
  refine .cons (.cons .nil (by decide) (by decide) fun inner h => ?_) (by decide) (by decide)
    fun inner h => ?_
  · exact Entry.directory.inj h ▸ hinner
  · exact absurd h (by simp)

theorem sampleSystem_list : sampleSystem.list "." = .ok sampleSystem.top :=
  FileSystem.list_eq_ok_iff.2 ⟨by decide, maxLinks, ⟨sampleSystem.top, []⟩,
    .blank (by decide) (.here ..), rfl⟩

end GoGlobals
