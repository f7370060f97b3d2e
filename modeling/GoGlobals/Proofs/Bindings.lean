import GoGlobals.Proofs.Verdict
import Mathlib.Data.List.Forall2

/-!
# Every name is accounted for

A check may lose a name in three places.  It may pair names with values that are not theirs, or drop
those at the end that have no partner; it may report a group under a first name that does not exist;
and it may stop before it comes to a group.  What is wanted is that only a group with values and no
name stops it, that it stops for nothing else, and that it otherwise says of every name what has to
be said, in order.

The groups fall into four kinds: names and values are paired; their numbers differ and there is a
first name to report; there are values and no name; there is neither.  The last kind is paired, and
nothing is found in it.

`check` asks for the bindings of every group and takes the first name where there are none.  It may
as well be done in steps that ask first which of the two to take and can each fail by themselves
(`SourceFile.checkInSteps`).  Then the bindings are asked for only where they exist, which is why a
check never fails for want of them.

## What is here

* `Group.Accounts` says what has to be said of the names of a group, by their places in it, and
  `Group.accounts_iff` that the findings of a group say so.
* `check_append`: a check goes through the groups one after the other.
* `checkInSteps_eq`: doing it in steps makes no difference.
* `check_accounts` is the theorem.
-/

set_option autoImplicit false

namespace GoGlobals

/-! ## What has to be said of a group -/

namespace Group

/-- Is the value in the place of a name not allowed for it? -/
def reports (g : Group) (h : g.names.length = g.values.length) (i : Fin g.names.length) : Bool :=
  !isAllowed (g.names.get i).name (g.values.get (i.cast h))

/-- The diagnostics account for the names of a group.  If the numbers of names and values differ,
there is a first name, and it is reported once.  Otherwise a name is reported for every place where
it stands with a value that is not allowed for it, in the order of the places. -/
structure Accounts (g : Group) (ds : List Diagnostic) : Prop where
  unpaired : g.names.length ≠ g.values.length →
    ∃ first rest, g.names = first :: rest ∧ ds = [first.diagnostic g.file]
  paired : ∀ h : g.names.length = g.values.length,
    ds = ((List.finRange g.names.length).filter (g.reports h)).map
      fun i => (g.names.get i).diagnostic g.file

theorem zip_eq_map_finRange {α β : Type} {xs : List α} {ys : List β} (h : xs.length = ys.length) :
    xs.zip ys = (List.finRange xs.length).map fun i => (xs.get i, ys.get (i.cast h)) := by
  refine List.ext_getElem (by simp [h]) fun i hi hi' => ?_
  simp

theorem findings_of_paired {g : Group} (h : g.names.length = g.values.length) :
    g.findings = ((List.finRange g.names.length).filter (g.reports h)).map
      fun i => (g.names.get i).diagnostic g.file := by
  rw [findings, if_pos h, zip_eq_map_finRange h, List.filter_map, List.map_map]
  rfl

/-- The findings of a group account for its names, nothing else does, and a nameless group cannot be
accounted for. -/
theorem accounts_iff {g : Group} {ds : List Diagnostic} :
    g.Accounts ds ↔ ¬ g.IsNameless ∧ ds = g.findings := by
  by_cases hlength : g.names.length = g.values.length
  · have hnamed : ¬ g.IsNameless := by
      rintro ⟨hnames, hvalues⟩
      rw [hnames] at hlength
      exact hvalues (List.length_eq_zero_iff.1 hlength.symm)
    rw [findings_of_paired hlength]
    exact ⟨fun h => ⟨hnamed, h.paired hlength⟩,
      fun h => ⟨fun hne => absurd hlength hne, fun _ => h.2⟩⟩
  · rw [findings, if_neg hlength]
    constructor
    · intro h
      obtain ⟨first, rest, hnames, rfl⟩ := h.unpaired hlength
      rw [IsNameless, hnames]
      exact ⟨fun hnil => absurd hnil.1 (List.cons_ne_nil first rest), rfl⟩
    · rintro ⟨hnamed, rfl⟩
      refine ⟨fun _ => ?_, fun h => absurd h hlength⟩
      cases hnames : g.names with
      | nil =>
        refine absurd ⟨hnames, fun hvalues => hlength ?_⟩ hnamed
        rw [hnames, hvalues]
        rfl
      | cons first rest => exact ⟨first, rest, rfl, rfl⟩

end Group

/-! ## One group after the other -/

/-- **A check goes through the groups one after the other.**  The diagnostics of more groups stand
behind those of the groups before them, and the check fails if it does so on either part. -/
theorem check_append {f : SourceFile} {before after : List Group}
    (h : f.groups = before ++ after) :
    check f = do
      let first ← check { f with groups := before }
      let second ← check { f with groups := after }
      return first ++ second := by
  simp only [check, h, List.mapM_append]
  cases before.mapM checkGroup with
  | error e => rfl
  | ok found =>
    cases after.mapM checkGroup with
    | error e => rfl
    | ok others => exact congrArg Except.ok List.flatten_append

/-- The answer about a file accounts for each of its groups. -/
theorem check_eq_ok_iff {f : SourceFile} {ds : List Diagnostic} :
    check f = .ok ds ↔
      ∃ found, List.Forall₂ Group.Accounts f.groups found ∧ ds = found.flatten := by
  have hall : ∀ {gs : List Group} {found : List (List Diagnostic)},
      List.Forall₂ Group.Accounts gs found ↔
        (∀ g ∈ gs, ¬ g.IsNameless) ∧ found = gs.map Group.findings := by
    intro gs
    induction gs with
    | nil => simp
    | cons g gs ih =>
      intro found
      simp only [List.forall₂_cons_left_iff, Group.accounts_iff, ih, List.forall_mem_cons,
        List.map_cons]
      constructor
      · rintro ⟨ds, rest, ⟨hg, rfl⟩, ⟨hgs, rfl⟩, rfl⟩
        exact ⟨⟨hg, hgs⟩, rfl⟩
      · rintro ⟨⟨hg, hgs⟩, rfl⟩
        exact ⟨_, _, ⟨hg, rfl⟩, ⟨hgs, rfl⟩, rfl⟩
  simp only [hall]
  constructor
  · intro h
    refine ⟨_, ⟨fun g hg hnameless => ?_, rfl⟩, (check_eq_ok h).trans List.flatMap_def⟩
    exact absurd (h.symm.trans (check_of_nameless ⟨g, hg, hnameless⟩)) (by simp)
  · rintro ⟨_, ⟨hnamed, rfl⟩, rfl⟩
    rw [check_of_not_nameless hnamed, List.flatMap_def]

/-- A check fails exactly on the files that have a nameless group. -/
theorem check_eq_error_iff {f : SourceFile} :
    check f = .error .nameless ↔ ∃ g ∈ f.groups, g.IsNameless := by
  refine ⟨fun h => ?_, check_of_nameless⟩
  by_contra hnone
  have hall : ∀ g ∈ f.groups, ¬ g.IsNameless := fun g hg hnameless => hnone ⟨g, hg, hnameless⟩
  exact absurd (h.symm.trans (check_of_not_nameless hall)) (by simp)

/-! ## Checking in steps -/

/-- Why a step of a check fails. -/
inductive StepError where
  /-- A group that is to be reported has no first name. -/
  | noFirstName
  /-- The bindings of a group are asked for that has none. -/
  | unpaired (mismatch : CountMismatch)
deriving DecidableEq, Repr

/-- Reports on a group in steps.  A malformed group is reported under its first name, and the
bindings of any other are looked through. -/
def Group.reportInSteps (g : Group) : Except StepError (List Diagnostic) :=
  if g.isMalformed then
    match g.names with
    | [] => .error .noFirstName
    | first :: _ => .ok [first.diagnostic g.file]
  else
    match g.bindings with
    | .error mismatch => .error (.unpaired mismatch)
    | .ok bindings =>
      .ok ((bindings.filter fun b => !isAllowed b.name b.value).map fun b =>
        ⟨g.file, b.line, b.name⟩)

/-- Checks a file in steps. -/
def SourceFile.checkInSteps (f : SourceFile) : Except StepError (List Diagnostic) :=
  (f.groups.mapM Group.reportInSteps).map List.flatten

/-- Bindings are missing exactly where a group is malformed. -/
theorem Group.bindings_eq_error_iff {g : Group} {mismatch : CountMismatch} :
    g.bindings = .error mismatch ↔
      g.isMalformed = true ∧ mismatch = ⟨g.file, g.line, g.names.length, g.values.length⟩ := by
  rw [bindings]
  split
  · rename_i h
    simp [h, eq_comm]
  · rename_i h
    simp [h]

theorem Group.reportInSteps_eq (g : Group) :
    g.reportInSteps = (checkGroup g).mapError fun _ => .noFirstName := by
  rw [reportInSteps, checkGroup]
  split
  · rename_i h
    rw [bindings_eq_error_iff.2 ⟨h, rfl⟩]
    cases g.names with
    | nil => rfl
    | cons first rest => rfl
  · rename_i h
    cases hbindings : g.bindings with
    | error mismatch => exact absurd (bindings_eq_error_iff.1 hbindings).1 h
    | ok bindings => rfl

/-- **Doing it in steps makes no difference**, and bindings are never asked for in vain. -/
theorem checkInSteps_eq (f : SourceFile) :
    f.checkInSteps = (check f).mapError fun _ => .noFirstName := by
  have hmap : ∀ gs : List Group, gs.mapM Group.reportInSteps =
      (gs.mapM checkGroup).mapError fun _ => .noFirstName := by
    intro gs
    induction gs with
    | nil => rfl
    | cons g gs ih =>
      rw [List.mapM_cons, List.mapM_cons, ih, Group.reportInSteps_eq]
      cases checkGroup g with
      | error e => rfl
      | ok first =>
        cases gs.mapM checkGroup with
        | error e => rfl
        | ok rest => rfl
  rw [SourceFile.checkInSteps, check, hmap]
  cases f.groups.mapM checkGroup with
  | error e => rfl
  | ok found => rfl

/-! ## The theorem -/

/-- **A check fails exactly on nameless groups and otherwise accounts for every name.**  It fails if
some group has no names and at least one value, wherever that stands.  Any answer accounts for each
group, one after the other, and nothing else is an answer.  The check of more groups is the check of
those in front and then of those behind.  The bindings of a group are missing exactly if it is
malformed, and as a check in steps fails only where a first name is wanted, it never asks for
bindings that are missing. -/
theorem check_accounts (f : SourceFile) :
    (check f = .error .nameless ↔ ∃ g ∈ f.groups, g.names = [] ∧ g.values ≠ []) ∧
      (∀ ds, check f = .ok ds ↔
        ∃ found, List.Forall₂ Group.Accounts f.groups found ∧ ds = found.flatten) ∧
      (∀ before after, f.groups = before ++ after →
        check f = do
          let first ← check { f with groups := before }
          let second ← check { f with groups := after }
          return first ++ second) ∧
      (∀ g : Group, (∃ mismatch, g.bindings = .error mismatch) ↔
        g.names.length ≠ g.values.length) ∧
      f.checkInSteps = (check f).mapError (fun _ => .noFirstName) ∧
      ∀ mismatch, f.checkInSteps ≠ .error (.unpaired mismatch) := by
  refine ⟨check_eq_error_iff, fun ds => check_eq_ok_iff, fun before after => check_append,
    fun g => ?_, checkInSteps_eq f, fun mismatch => ?_⟩
  · rw [← Group.isMalformed_iff]
    simp [Group.bindings_eq_error_iff]
  · rw [checkInSteps_eq]
    cases check f with
    | error e => simp [Except.mapError]
    | ok ds => simp [Except.mapError]

/-- A file with a malformed group, an empty one, and one that binds a name twice. -/
def mixedFile : SourceFile where
  path := "a.go"
  groups := [
    ⟨"a.go", 1, [⟨"a", 1⟩, ⟨"b", 1⟩], [.literal "1"]⟩,
    ⟨"a.go", 2, [], []⟩,
    ⟨"a.go", 3, [⟨"x", 3⟩, ⟨"errNo", 3⟩, ⟨"x", 3⟩, ⟨"_", 4⟩],
      [.literal "1", .call "errors" "New", .other "identifier", .literal "2"]⟩]

/-- The name that is bound twice is reported twice, and a nameless group behind all this leaves
nothing of it. -/
theorem check_mixedFile :
    check mixedFile = .ok [⟨"a.go", 1, "a"⟩, ⟨"a.go", 3, "x"⟩, ⟨"a.go", 3, "x"⟩] ∧
      check { mixedFile with groups := mixedFile.groups ++ [⟨"a.go", 5, [], [.literal "3"]⟩] } =
        .error .nameless := by
  constructor
  · refine ((check_accounts mixedFile).2.1 _).2
      ⟨[[⟨"a.go", 1, "a"⟩], [], [⟨"a.go", 3, "x"⟩, ⟨"a.go", 3, "x"⟩]], ?_, rfl⟩
    refine .cons ?_ (.cons ?_ (.cons ?_ .nil))
    · exact Group.accounts_iff.2 ⟨fun h => absurd h.1 (by simp), rfl⟩
    · exact Group.accounts_iff.2 ⟨fun h => h.2 rfl, rfl⟩
    · exact Group.accounts_iff.2 ⟨fun h => absurd h.1 (by simp), by with_unfolding_all decide⟩
  · exact (check_accounts _).1.2
      ⟨⟨"a.go", 5, [], [.literal "3"]⟩, List.mem_append_right _ List.mem_cons_self, rfl, by simp⟩

end GoGlobals
