import GoGlobals.Verdict

/-!
# The diagnostics of a file, group by group

`check` goes through the groups of a file and can fail on the way.  It fails only on a group that
has values and no name, so on every other file its answer is a list that can be written down group
by group: `Group.findings`.  What is found are some of the names, in their order
(`findings_sublist`).
-/

set_option autoImplicit false

namespace GoGlobals

/-- The diagnostic of a name in a file. -/
def Identifier.diagnostic (i : Identifier) (file : String) : Diagnostic :=
  ⟨file, i.line, i.name⟩

/-- What is found in a group: its first name if the names and the values cannot be paired, and
otherwise every name whose value is not allowed. -/
def Group.findings (g : Group) : List Diagnostic :=
  if g.names.length = g.values.length then
    ((g.names.zip g.values).filter fun b => !isAllowed b.1.name b.2).map (·.1.diagnostic g.file)
  else (g.names.take 1).map (·.diagnostic g.file)

theorem checkGroup_of_paired {g : Group} (h : g.names.length = g.values.length) :
    checkGroup g = .ok g.findings := by
  have hpairs : g.pairs = (g.names.zip g.values).map fun b => ⟨b.1.name, b.1.line, b.2⟩ := by
    rw [Group.pairs, List.zip, List.map_zipWith]
  have hbind : g.bindings = .ok g.pairs := by
    rw [Group.bindings, if_neg (by simp [Group.isMalformed, h])]
  simp only [checkGroup, hbind, Group.findings, if_pos h, hpairs, List.filter_map, List.map_map]
  rfl

theorem checkGroup_of_unpaired {g : Group} (h : g.names.length ≠ g.values.length)
    (hnames : g.names ≠ []) : checkGroup g = .ok g.findings := by
  have hbind : g.bindings = .error ⟨g.file, g.line, g.names.length, g.values.length⟩ := by
    rw [Group.bindings, if_pos (by simp [Group.isMalformed, h])]
  rw [checkGroup, hbind, Group.findings, if_neg h]
  cases hn : g.names with
  | nil => exact absurd hn hnames
  | cons first rest => rfl

/-! ## Groups without a name -/

/-- The group has values and no name to report it under. -/
def Group.IsNameless (g : Group) : Prop :=
  g.names = [] ∧ g.values ≠ []

theorem checkGroup_of_nameless {g : Group} (h : g.IsNameless) : checkGroup g = .error .nameless := by
  have hunpaired : g.isMalformed = true := by
    rw [Group.isMalformed_iff, h.1]
    exact fun hlength => h.2 (List.length_eq_zero_iff.1 hlength.symm)
  rw [checkGroup, Group.bindings, if_pos hunpaired, h.1]

/-- Any other group has an answer. -/
theorem checkGroup_of_not_nameless {g : Group} (h : ¬ g.IsNameless) :
    checkGroup g = .ok g.findings := by
  by_cases hpaired : g.names.length = g.values.length
  · exact checkGroup_of_paired hpaired
  · refine checkGroup_of_unpaired hpaired fun hnames => h ⟨hnames, fun hvalues => hpaired ?_⟩
    rw [hnames, hvalues]
    rfl

/-- **A file without nameless groups is checked without failure**, and what is found in it is what
is found in its groups, in their order. -/
theorem check_of_not_nameless {f : SourceFile} (h : ∀ g ∈ f.groups, ¬ g.IsNameless) :
    check f = .ok (f.groups.flatMap Group.findings) := by
  have hmap : ∀ gs : List Group, (∀ g ∈ gs, ¬ g.IsNameless) →
      gs.mapM checkGroup = .ok (gs.map Group.findings) := by
    intro gs hgs
    induction gs with
    | nil => rfl
    | cons g gs ih =>
      obtain ⟨hg, hgs⟩ := List.forall_mem_cons.1 hgs
      rw [List.mapM_cons, checkGroup_of_not_nameless hg, ih hgs]
      rfl
  rw [check, hmap f.groups h, List.flatMap]
  rfl

/-- A nameless group makes the check of its file fail, wherever it stands. -/
theorem check_of_nameless {f : SourceFile} (h : ∃ g ∈ f.groups, g.IsNameless) :
    check f = .error .nameless := by
  have hmap : ∀ gs : List Group, (∃ g ∈ gs, g.IsNameless) →
      gs.mapM checkGroup = .error .nameless := by
    intro gs hgs
    induction gs with
    | nil =>
      obtain ⟨g, hg, -⟩ := hgs
      exact absurd hg List.not_mem_nil
    | cons g gs ih =>
      rw [List.mapM_cons]
      by_cases hg : g.IsNameless
      · rw [checkGroup_of_nameless hg]
        rfl
      · have hrest : ∃ g ∈ gs, g.IsNameless := by simpa [hg] using hgs
        rw [checkGroup_of_not_nameless hg, ih hrest]
        rfl
  rw [check, hmap f.groups h]
  rfl

/-- A file whose groups all have names is checked without failure. -/
theorem check_of_named {f : SourceFile} (hnames : ∀ g ∈ f.groups, g.names ≠ []) :
    check f = .ok (f.groups.flatMap Group.findings) :=
  check_of_not_nameless fun g hg h => hnames g hg h.1

/-- An answer about a file is what is found in its groups. -/
theorem check_eq_ok {f : SourceFile} {ds : List Diagnostic} (h : check f = .ok ds) :
    ds = f.groups.flatMap Group.findings := by
  by_cases hnameless : ∃ g ∈ f.groups, g.IsNameless
  · exact absurd (h.symm.trans (check_of_nameless hnameless)) (by simp)
  · have hall : ∀ g ∈ f.groups, ¬ g.IsNameless := fun g hg hname => hnameless ⟨g, hg, hname⟩
    exact Except.ok.inj (h.symm.trans (check_of_not_nameless hall))

/-! ## Findings are names -/

/-- The names of a group that are found are in the order of the names. -/
theorem Group.findings_sublist (g : Group) :
    g.findings.Sublist (g.names.map (·.diagnostic g.file)) := by
  rw [Group.findings]
  split
  · rename_i h
    have hnames : g.names.map (·.diagnostic g.file) =
        (g.names.zip g.values).map (·.1.diagnostic g.file) := by
      conv => lhs; rw [← List.map_fst_zip (Nat.le_of_eq h), List.map_map]
      rfl
    rw [hnames]
    exact List.filter_sublist.map _
  · exact (List.take_sublist 1 g.names).map _

theorem findings_sublist (gs : List Group) :
    (gs.flatMap Group.findings).Sublist
      (gs.flatMap fun g => g.names.map (·.diagnostic g.file)) := by
  induction gs with
  | nil => exact .slnil
  | cons g gs ih =>
    rw [List.flatMap_cons, List.flatMap_cons]
    exact g.findings_sublist.append ih

end GoGlobals
