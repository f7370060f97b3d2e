import GoGlobals.Path

/-!
# Clean paths

A clean path is determined by two things: the number of slashes in front and the list of its
components.  `render` puts a path together from them, cleaning a path reads them off and renders
them, and reading them off the clean path gives the same again (`cleanComponents_normalize`).

So a path can be followed down through names without looking at its spelling: putting a proper name
behind a path puts it behind the components (`cleanComponents_join`), however the path was written,
and cleaning it on the way makes no difference (`normalize_join_normalize`).

## What is here

* `ProperName` says which names an entry of a directory can have.
* `squeeze` drops the components that lead nowhere, and nothing else about a path depends on them.
* `endsWith_normalize_join` relates the end of a path to the end of its last name.
-/

set_option autoImplicit false

namespace GoGlobals.Path

/-- A name that an entry of a directory can have. -/
structure ProperName (name : String) : Prop where
  ne_empty : name ≠ ""
  ne_dot : name ≠ "."
  ne_dots : name ≠ ".."
  no_slash : '/' ∉ name.toList
  no_nul : '\x00' ∉ name.toList

instance (name : String) : Decidable (ProperName name) :=
  decidable_of_iff
    (name ≠ "" ∧ name ≠ "." ∧ name ≠ ".." ∧ '/' ∉ name.toList ∧ '\x00' ∉ name.toList)
    ⟨fun ⟨h1, h2, h3, h4, h5⟩ => ⟨h1, h2, h3, h4, h5⟩,
      fun h => ⟨h.ne_empty, h.ne_dot, h.ne_dots, h.no_slash, h.no_nul⟩⟩

theorem ProperName.toList_ne_nil {name : String} (h : ProperName name) : name.toList ≠ [] :=
  fun hnil => h.ne_empty (String.toList_eq_nil_iff.1 hnil)

/-! ## Components -/

theorem splitOnSlash_eq (cs : List Char) : splitOnSlash cs = cs.splitOn '/' := by
  induction cs with
  | nil => rfl
  | cons c cs ih =>
    rw [splitOnSlash, List.splitOn_cons_eq_if_modifyHead, ih]
    split
    · rfl
    · cases h : cs.splitOn '/' with
      | nil => exact absurd h (List.splitOn_ne_nil _ _)
      | cons part parts => rfl

theorem components_slash (d name : String) :
    components (d ++ "/" ++ name) = components d ++ components name := by
  rw [components, String.toList_append, String.toList_append, splitOnSlash_eq]
  have hslash : d.toList ++ "/".toList ++ name.toList = d.toList ++ '/' :: name.toList := by simp
  rw [hslash, List.splitOn_append_cons_self, List.map_append, ← splitOnSlash_eq,
    ← splitOnSlash_eq, components, components]

theorem components_of_no_slash {s : String} (h : '/' ∉ s.toList) : components s = [s] := by
  rw [components, splitOnSlash_eq, List.splitOn_eq_singleton h, List.map_singleton,
    String.ofList_toList]

theorem components_empty : components "" = [""] := rfl

/-- A path is its components with slashes in between. -/
theorem intercalate_components (p : String) : "/".intercalate (components p) = p := by
  apply String.toList_injective
  rw [String.toList_intercalate, components, List.map_map, splitOnSlash_eq]
  have hid : String.toList ∘ String.ofList = id := funext fun cs => String.toList_ofList
  rw [hid, List.map_id]
  exact List.intercalate_splitOn '/'

theorem components_intercalate {cs : List String} (hne : cs ≠ [])
    (h : ∀ c ∈ cs, '/' ∉ c.toList) : components ("/".intercalate cs) = cs := by
  have hslash : ∀ l ∈ cs.map String.toList, '/' ∉ l := by
    intro l hl
    obtain ⟨c, hc, rfl⟩ := List.mem_map.1 hl
    exact h c hc
  rw [components, String.toList_intercalate, splitOnSlash_eq]
  have hsplit := List.splitOn_intercalate '/' hslash (by simpa using hne)
  have hid : String.ofList ∘ String.toList = id := funext fun s => String.ofList_toList
  show (List.splitOn '/' (['/'].intercalate (cs.map String.toList))).map String.ofList = cs
  rw [hsplit, List.map_map, hid, List.map_id]

theorem no_slash_of_mem_components {p c : String} (h : c ∈ components p) : '/' ∉ c.toList := by
  obtain ⟨part, hpart, rfl⟩ := List.mem_map.1 h
  rw [String.toList_ofList]
  have hsplit : ∀ cs : List Char, ∀ part ∈ splitOnSlash cs, '/' ∉ part := by
    intro cs
    induction cs with
    | nil => intro part hpart; rw [List.mem_singleton.1 hpart]; simp
    | cons c cs ih =>
      intro part hpart
      rw [splitOnSlash] at hpart
      split at hpart
      · rcases List.mem_cons.1 hpart with rfl | hpart
        · simp
        · exact ih part hpart
      · rename_i hc
        cases hcs : splitOnSlash cs with
        | nil =>
          rw [hcs] at hpart
          rw [List.mem_singleton.1 hpart]
          simpa using fun heq => hc (beq_iff_eq.2 heq.symm)
        | cons first parts =>
          rw [hcs] at hpart ih
          rcases List.mem_cons.1 hpart with rfl | hpart
          · intro hmem
            rcases List.mem_cons.1 hmem with heq | hmem
            · exact hc (beq_iff_eq.2 heq.symm)
            · exact ih first List.mem_cons_self hmem
          · exact ih part (List.mem_cons_of_mem _ hpart)
  exact hsplit _ part hpart

/-! ## Components that lead nowhere -/

/-- Is the component one that leads nowhere? -/
def isBlank (c : String) : Bool :=
  c == "" || c == "."

/-- The components that lead somewhere. -/
def squeeze (cs : List String) : List String :=
  cs.filter (!isBlank ·)

theorem squeeze_append (cs ds : List String) : squeeze (cs ++ ds) = squeeze cs ++ squeeze ds :=
  List.filter_append ..

theorem squeeze_cons_of_blank {c : String} (h : isBlank c = true) (cs : List String) :
    squeeze (c :: cs) = squeeze cs := by
  rw [squeeze, List.filter_cons_of_neg (by simp [h]), ← squeeze]

theorem squeeze_cons_of_not_blank {c : String} (h : isBlank c = false) (cs : List String) :
    squeeze (c :: cs) = c :: squeeze cs := by
  rw [squeeze, List.filter_cons_of_pos (by simp [h]), ← squeeze]

theorem ProperName.not_blank {name : String} (h : ProperName name) : isBlank name = false := by
  simp [isBlank, h.ne_empty, h.ne_dot]

theorem squeeze_of_proper {names : List String} (h : ∀ n ∈ names, ProperName n) :
    squeeze names = names :=
  List.filter_eq_self.2 fun n hn => by simp [(h n hn).not_blank]

theorem push_of_blank {c : String} (h : isBlank c = true) (absolute : Bool)
    (stack : List String) : push absolute stack c = stack := by
  rw [isBlank] at h
  rw [push.eq_def, if_pos h]

theorem push_of_proper {c : String} (h : ProperName c) (absolute : Bool)
    (stack : List String) : push absolute stack c = c :: stack := by
  rw [push.eq_def, if_neg (by simp [h.ne_empty, h.ne_dot]), if_neg (by simp [h.ne_dots])]

theorem foldl_push_squeeze (absolute : Bool) (cs stack : List String) :
    (squeeze cs).foldl (push absolute) stack = cs.foldl (push absolute) stack := by
  induction cs generalizing stack with
  | nil => rfl
  | cons c cs ih =>
    cases h : isBlank c with
    | true => rw [squeeze_cons_of_blank h, ih, List.foldl_cons, push_of_blank h]
    | false => rw [squeeze_cons_of_not_blank h, List.foldl_cons, ih, List.foldl_cons]

/-- The components that lead somewhere say what the clean ones are. -/
theorem cleanComponents_eq (p : String) :
    cleanComponents p = ((squeeze (components p)).foldl (push (isAbsolute p)) []).reverse := by
  rw [cleanComponents, foldl_push_squeeze]

/-! ## Clean lists of components -/

/-- No component is taken back or dropped when the list is read again, last component first. -/
def Stable (absolute : Bool) : List String → Prop
  | [] => True
  | c :: stack => push absolute stack c = c :: stack ∧ Stable absolute stack

theorem stable_cons {absolute : Bool} {c : String} {stack : List String} :
    Stable absolute (c :: stack) ↔ push absolute stack c = c :: stack ∧ Stable absolute stack :=
  Iff.rfl

theorem Stable.push {absolute : Bool} {stack : List String} (h : Stable absolute stack)
    (c : String) : Stable absolute (push absolute stack c) := by
  rw [push.eq_def]
  split
  · exact h
  rename_i hblank
  split
  · rename_i hdots
    obtain rfl := beq_iff_eq.1 hdots
    cases stack with
    | nil =>
      cases absolute with
      | true => exact h
      | false => exact stable_cons.2 ⟨rfl, trivial⟩
    | cons top rest =>
      simp only []
      split
      · rename_i htop
        refine stable_cons.2 ⟨?_, h⟩
        rw [push.eq_def, if_neg hblank, if_pos hdots]
        simp only [htop, if_true]
      · exact h.2
  · rename_i hdots
    refine stable_cons.2 ⟨?_, h⟩
    rw [push.eq_def, if_neg hblank, if_neg hdots]

theorem stable_foldl_push {absolute : Bool} {cs stack : List String}
    (h : Stable absolute stack) : Stable absolute (cs.foldl (push absolute) stack) := by
  induction cs generalizing stack with
  | nil => exact h
  | cons c cs ih => exact ih (h.push c)

theorem Stable.foldl_reverse {absolute : Bool} {stack : List String} (h : Stable absolute stack) :
    stack.reverse.foldl (Path.push absolute) [] = stack := by
  induction stack with
  | nil => rfl
  | cons c stack ih =>
    rw [List.reverse_cons, List.foldl_append, ih h.2]
    exact h.1

theorem Stable.not_blank {absolute : Bool} {stack : List String} (h : Stable absolute stack) :
    ∀ c ∈ stack, isBlank c = false := by
  induction stack with
  | nil => intro c hc; exact absurd hc List.not_mem_nil
  | cons d stack ih =>
    intro c hc
    rcases List.mem_cons.1 hc with rfl | hc
    · cases hblank : isBlank c with
      | false => rfl
      | true =>
        have hpush := h.1
        rw [push_of_blank hblank] at hpush
        exact absurd hpush.symm (List.cons_ne_self _ _)
    · exact ih h.2 c hc

theorem stable_cleanComponents (p : String) :
    Stable (isAbsolute p) (cleanComponents p).reverse := by
  rw [cleanComponents, List.reverse_reverse]
  exact stable_foldl_push trivial

theorem not_blank_of_mem_cleanComponents {p c : String} (h : c ∈ cleanComponents p) :
    isBlank c = false :=
  (stable_cleanComponents p).not_blank c (List.mem_reverse.2 h)

theorem squeeze_cleanComponents (p : String) : squeeze (cleanComponents p) = cleanComponents p :=
  List.filter_eq_self.2 fun c hc => by simp [not_blank_of_mem_cleanComponents hc]

/-- A clean component is one of the components, or leads up. -/
theorem mem_cleanComponents {p c : String} (h : c ∈ cleanComponents p) :
    c ∈ components p ∨ c = ".." := by
  have hpush : ∀ {cs stack : List String} {absolute : Bool},
      c ∈ cs.foldl (push absolute) stack → c ∈ cs ∨ c ∈ stack ∨ c = ".." := by
    intro cs
    induction cs with
    | nil => intro stack absolute hc; exact .inr (.inl hc)
    | cons d cs ih =>
      intro stack absolute hc
      rcases ih hc with hc | hc | hc
      · exact .inl (List.mem_cons_of_mem _ hc)
      · rw [push.eq_def] at hc
        split at hc
        · exact .inr (.inl hc)
        split at hc
        · cases stack with
          | nil =>
            simp only [] at hc
            split at hc
            · exact absurd hc List.not_mem_nil
            · exact .inr (.inr (List.mem_singleton.1 hc))
          | cons top rest =>
            simp only [] at hc
            split at hc
            · rcases List.mem_cons.1 hc with hc | hc
              · exact .inr (.inr hc)
              · exact .inr (.inl hc)
            · exact .inr (.inl (List.mem_cons_of_mem _ hc))
        · rcases List.mem_cons.1 hc with rfl | hc
          · exact .inl List.mem_cons_self
          · exact .inr (.inl hc)
      · exact .inr (.inr hc)
  rw [cleanComponents, List.mem_reverse] at h
  rcases hpush h with h | h | h
  · exact .inl h
  · exact absurd h List.not_mem_nil
  · exact .inr h

theorem no_slash_of_mem_cleanComponents {p c : String} (h : c ∈ cleanComponents p) :
    '/' ∉ c.toList := by
  rcases mem_cleanComponents h with h | rfl
  · exact no_slash_of_mem_components h
  · decide

/-! ## Slashes in front -/

/-- There is no slash in front, or there is one, or there are two, or more of them. -/
theorem leadingSlashes_cases (cs : List Char) :
    (cs.head? ≠ some '/' ∧ leadingSlashes cs = 0) ∨
      (∃ rest, cs = '/' :: rest ∧ rest.head? ≠ some '/' ∧ leadingSlashes cs = 1) ∨
      (∃ rest, cs = '/' :: '/' :: rest ∧ rest.head? ≠ some '/' ∧ leadingSlashes cs = 2) ∨
      ∃ rest, cs = '/' :: '/' :: '/' :: rest ∧ leadingSlashes cs = 1 := by
  rw [leadingSlashes.eq_def]
  split
  · exact .inr (.inr (.inr ⟨_, rfl, rfl⟩))
  · rename_i rest hmore
    refine .inr (.inr (.inl ⟨rest, rfl, fun hhead => ?_, rfl⟩))
    obtain ⟨more, rfl⟩ := List.head?_eq_some_iff.1 hhead
    exact hmore more rfl
  · rename_i rest _ hmore
    refine .inr (.inl ⟨rest, rfl, fun hhead => ?_, rfl⟩)
    obtain ⟨more, rfl⟩ := List.head?_eq_some_iff.1 hhead
    exact hmore more rfl
  · rename_i hnone
    refine .inl ⟨fun hhead => ?_, rfl⟩
    obtain ⟨rest, rfl⟩ := List.head?_eq_some_iff.1 hhead
    exact hnone rest rfl

theorem leadingSlashes_le (cs : List Char) : leadingSlashes cs ≤ 2 := by
  rcases leadingSlashes_cases cs with ⟨-, h⟩ | ⟨_, -, -, h⟩ | ⟨_, -, -, h⟩ | ⟨_, -, h⟩ <;> omega

theorem leadingSlashes_pos_iff (cs : List Char) :
    0 < leadingSlashes cs ↔ cs.head? = some '/' := by
  rcases leadingSlashes_cases cs with
    ⟨hhead, h⟩ | ⟨_, rfl, -, h⟩ | ⟨_, rfl, -, h⟩ | ⟨_, rfl, h⟩
  · simp [h, hhead]
  · simp [h]
  · simp [h]
  · simp [h]

theorem isAbsolute_iff (p : String) : isAbsolute p = true ↔ 0 < leadingSlashes p.toList := by
  rw [isAbsolute, beq_iff_eq, leadingSlashes_pos_iff]

theorem leadingSlashes_of_head {cs : List Char} (h : cs.head? ≠ some '/') :
    leadingSlashes cs = 0 :=
  Nat.eq_zero_of_not_pos fun hpos => h ((leadingSlashes_pos_iff cs).1 hpos)

theorem leadingSlashes_one {cs : List Char} (h : cs.head? ≠ some '/') :
    leadingSlashes ('/' :: cs) = 1 := by
  rcases leadingSlashes_cases ('/' :: cs) with
    ⟨hhead, -⟩ | ⟨_, -, -, hone⟩ | ⟨_, htwo, -⟩ | ⟨_, -, hone⟩
  · exact absurd rfl hhead
  · exact hone
  · obtain ⟨-, rfl⟩ := List.cons.inj htwo
    exact absurd rfl h
  · exact hone

theorem leadingSlashes_two {cs : List Char} (h : cs.head? ≠ some '/') :
    leadingSlashes ('/' :: '/' :: cs) = 2 := by
  rcases leadingSlashes_cases ('/' :: '/' :: cs) with
    ⟨hhead, -⟩ | ⟨_, hone, hrest, -⟩ | ⟨_, -, -, htwo⟩ | ⟨_, hmore, -⟩
  · exact absurd rfl hhead
  · obtain ⟨-, rfl⟩ := List.cons.inj hone
    exact absurd rfl hrest
  · exact htwo
  · obtain ⟨-, hmore⟩ := List.cons.inj hmore
    obtain ⟨-, rfl⟩ := List.cons.inj hmore
    exact absurd rfl h

/-- What comes behind does not change the number of slashes in front, unless slashes come behind
slashes. -/
theorem leadingSlashes_append {cs ds : List Char} (hne : cs ≠ [])
    (h : cs.getLast? ≠ some '/' ∨ ds.head? ≠ some '/') :
    leadingSlashes (cs ++ ds) = leadingSlashes cs := by
  cases cs with
  | nil => exact absurd rfl hne
  | cons a cs =>
    by_cases ha : a = '/'
    · subst ha
      cases cs with
      | nil =>
        have hds := h.resolve_left (by simp)
        rw [List.cons_append, List.nil_append, leadingSlashes_one hds]
        rfl
      | cons b cs =>
        by_cases hb : b = '/'
        · subst hb
          cases cs with
          | nil =>
            have hds := h.resolve_left (by simp)
            rw [List.cons_append, List.cons_append, List.nil_append, leadingSlashes_two hds]
            rfl
          | cons c cs =>
            by_cases hc : c = '/'
            · subst hc
              rfl
            · rw [List.cons_append, List.cons_append, leadingSlashes_two (by simpa using hc),
                leadingSlashes_two (by simpa using hc)]
        · rw [List.cons_append, leadingSlashes_one (by simpa using hb),
            leadingSlashes_one (by simpa using hb)]
    · rw [leadingSlashes_of_head (by simpa using ha), leadingSlashes_of_head (by simpa using ha)]

/-! ## Putting a clean path together -/

/-- The path with slashes in front and these components. -/
def render (slashes : Nat) (cs : List String) : String :=
  let body := String.ofList (List.replicate slashes '/') ++ "/".intercalate cs
  if body.isEmpty then "." else body

theorem normalize_eq_render (p : String) :
    normalize p = render (leadingSlashes p.toList) (cleanComponents p) := rfl

/-- Either nothing is left of a path, or its text is what it should be. -/
theorem render_cases (slashes : Nat) (cs : List String) :
    (slashes = 0 ∧ "/".intercalate cs = "" ∧ render slashes cs = ".") ∨
      (render slashes cs).toList =
        List.replicate slashes '/' ++ ("/".intercalate cs).toList := by
  rw [render]
  split
  · rename_i h
    have hnil := congrArg String.toList (String.isEmpty_iff.1 h)
    rw [String.toList_append, String.toList_ofList] at hnil
    obtain ⟨hslashes, hbody⟩ := List.append_eq_nil_iff.1 hnil
    exact .inl ⟨(List.replicate_eq_nil_iff _).1 hslashes, String.toList_eq_nil_iff.1 hbody, rfl⟩
  · exact .inr (by rw [String.toList_append, String.toList_ofList])

/-- A list of components that can be read back. -/
def Legible (cs : List String) : Prop :=
  ∀ c ∈ cs, c ≠ "" ∧ '/' ∉ c.toList

theorem legible_cleanComponents (p : String) : Legible (cleanComponents p) := by
  intro c hc
  have hblank := not_blank_of_mem_cleanComponents hc
  refine ⟨?_, no_slash_of_mem_cleanComponents hc⟩
  rintro rfl
  exact absurd hblank (by decide)

theorem Legible.head_intercalate {cs : List String} (h : Legible cs) :
    ("/".intercalate cs).toList.head? ≠ some '/' := by
  cases cs with
  | nil => simp
  | cons c cs =>
    obtain ⟨hne, hslash⟩ := h c List.mem_cons_self
    have hc : c.toList ≠ [] := fun hnil => hne (String.toList_eq_nil_iff.1 hnil)
    obtain ⟨a, as, ha⟩ := List.exists_cons_of_ne_nil hc
    rw [ha] at hslash
    have hhead : ("/".intercalate (c :: cs)).toList.head? = some a := by
      cases cs with
      | nil => simp [ha]
      | cons d ds => simp [ha]
    rw [hhead]
    intro heq
    exact hslash (by rw [Option.some.inj heq]; exact List.mem_cons_self)

theorem leadingSlashes_render {slashes : Nat} {cs : List String} (hle : slashes ≤ 2)
    (h : Legible cs) : leadingSlashes (render slashes cs).toList = slashes := by
  rcases render_cases slashes cs with ⟨rfl, -, hdot⟩ | htext
  · rw [hdot]
    decide
  · rw [htext]
    have hhead := h.head_intercalate
    have hcases : slashes = 0 ∨ slashes = 1 ∨ slashes = 2 := by omega
    rcases hcases with rfl | rfl | rfl
    · exact leadingSlashes_of_head hhead
    · exact leadingSlashes_one hhead
    · exact leadingSlashes_two hhead

theorem isAbsolute_congr {p q : String}
    (h : leadingSlashes p.toList = leadingSlashes q.toList) : isAbsolute p = isAbsolute q := by
  rw [Bool.eq_iff_iff, isAbsolute_iff, isAbsolute_iff, h]

theorem components_replicate (slashes : Nat) (s : String) :
    components (String.ofList (List.replicate slashes '/') ++ s) =
      List.replicate slashes "" ++ components s := by
  induction slashes with
  | zero => simp
  | succ n ih =>
    have hcons : String.ofList (List.replicate (n + 1) '/') ++ s =
        "" ++ "/" ++ (String.ofList (List.replicate n '/') ++ s) := by
      apply String.toList_injective
      simp [List.replicate_succ]
    rw [hcons, components_slash, ih, components_of_no_slash (by simp), List.replicate_succ]
    rfl

/-- A clean path has one component for each of its slashes in front, and then its own. -/
theorem components_render (slashes : Nat) {cs : List String} (h : Legible cs) (hne : cs ≠ []) :
    components (render slashes cs) = List.replicate slashes "" ++ cs := by
  have hbody : components ("/".intercalate cs) = cs :=
    components_intercalate hne fun c hc => (h c hc).2
  rcases render_cases slashes cs with ⟨-, hempty, -⟩ | htext
  · rw [hempty, components_empty] at hbody
    exact absurd rfl (h "" (hbody ▸ List.mem_cons_self)).1
  · have hrender : render slashes cs =
        String.ofList (List.replicate slashes '/') ++ "/".intercalate cs := by
      apply String.toList_injective
      rw [htext, String.toList_append, String.toList_ofList]
    rw [hrender, components_replicate, hbody]

/-- The components of a path can be read off it again. -/
theorem squeeze_components_render {slashes : Nat} {cs : List String} (h : Legible cs) :
    squeeze (components (render slashes cs)) = squeeze cs := by
  have hblank : squeeze (List.replicate slashes "") = [] := by
    refine List.filter_eq_nil_iff.2 fun c hc => ?_
    rw [List.eq_of_mem_replicate hc]
    decide
  have hbody : squeeze (components ("/".intercalate cs)) = squeeze cs := by
    by_cases hnil : cs = []
    · subst hnil
      decide
    · rw [components_intercalate hnil fun c hc => (h c hc).2]
  rcases render_cases slashes cs with ⟨-, hempty, hdot⟩ | htext
  · rw [hdot, ← hbody, hempty]
    decide
  · have hrender : render slashes cs =
        String.ofList (List.replicate slashes '/') ++ "/".intercalate cs := by
      apply String.toList_injective
      rw [htext, String.toList_append, String.toList_ofList]
    rw [hrender, components_replicate, squeeze_append, hblank, List.nil_append, hbody]

theorem leadingSlashes_normalize (p : String) :
    leadingSlashes (normalize p).toList = leadingSlashes p.toList := by
  rw [normalize_eq_render]
  exact leadingSlashes_render (leadingSlashes_le _) (legible_cleanComponents p)

theorem isAbsolute_normalize (p : String) : isAbsolute (normalize p) = isAbsolute p :=
  isAbsolute_congr (leadingSlashes_normalize p)

theorem squeeze_components_normalize (p : String) :
    squeeze (components (normalize p)) = cleanComponents p := by
  rw [normalize_eq_render, squeeze_components_render (legible_cleanComponents p),
    squeeze_cleanComponents]

/-- **A clean path has the components it was made from.** -/
theorem cleanComponents_normalize (p : String) :
    cleanComponents (normalize p) = cleanComponents p := by
  have hstable := (stable_cleanComponents p).foldl_reverse
  rw [List.reverse_reverse] at hstable
  rw [cleanComponents_eq, isAbsolute_normalize, squeeze_components_normalize, hstable,
    List.reverse_reverse]

theorem normalize_normalize (p : String) : normalize (normalize p) = normalize p := by
  rw [normalize_eq_render (normalize p), cleanComponents_normalize, leadingSlashes_normalize,
    ← normalize_eq_render]

/-! ## Names behind a path -/

section

variable {name : String} (hname : ProperName name)

include hname

theorem ProperName.head_ne : name.toList.head? ≠ some '/' := by
  intro h
  exact hname.no_slash (List.mem_of_head? h)

/-- A name is put behind a path with one slash in between, unless the path is empty or has one at
its end already. -/
theorem join_cases (d : String) :
    (d = "" ∧ join d name = name) ∨ (∃ e, d = e ++ "/" ∧ join d name = e ++ "/" ++ name) ∨
      (d ≠ "" ∧ d.toList.getLast? ≠ some '/' ∧ join d name = d ++ "/" ++ name) := by
  have habs : isAbsolute name = false := by
    rw [isAbsolute, beq_eq_false_iff_ne]
    exact hname.head_ne
  rw [join, habs, if_neg Bool.false_ne_true]
  split
  · rename_i h
    rw [Bool.or_eq_true, String.isEmpty_iff, beq_iff_eq] at h
    rcases h with rfl | hlast
    · exact .inl ⟨rfl, String.empty_append⟩
    · obtain ⟨e, he⟩ := List.getLast?_eq_some_iff.1 hlast
      have hd : d = String.ofList e ++ "/" := by
        apply String.toList_injective
        simpa using he
      exact .inr (.inl ⟨String.ofList e, hd, by rw [hd]⟩)
  · rename_i h
    rw [Bool.or_eq_true, String.isEmpty_iff, beq_iff_eq, not_or] at h
    exact .inr (.inr ⟨h.1, h.2, rfl⟩)

theorem leadingSlashes_join (d : String) :
    leadingSlashes (join d name).toList = leadingSlashes d.toList := by
  rcases join_cases hname d with ⟨rfl, hjoin⟩ | ⟨e, rfl, hjoin⟩ | ⟨hne, hlast, hjoin⟩
  · rw [hjoin, leadingSlashes_of_head hname.head_ne]
    rfl
  · rw [hjoin, String.toList_append]
    exact leadingSlashes_append (by simp) (.inr hname.head_ne)
  · rw [hjoin, String.append_assoc, String.toList_append]
    exact leadingSlashes_append (fun hnil => hne (String.toList_eq_nil_iff.1 hnil)) (.inl hlast)

theorem isAbsolute_join (d : String) : isAbsolute (join d name) = isAbsolute d :=
  isAbsolute_congr (leadingSlashes_join hname d)

theorem squeeze_components_join (d : String) :
    squeeze (components (join d name)) = squeeze (components d) ++ [name] := by
  have hlast : squeeze (components name) = [name] := by
    rw [components_of_no_slash hname.no_slash]
    exact squeeze_of_proper fun n hn => List.mem_singleton.1 hn ▸ hname
  rcases join_cases hname d with ⟨rfl, hjoin⟩ | ⟨e, rfl, hjoin⟩ | ⟨-, -, hjoin⟩
  · rw [hjoin, hlast]
    rfl
  · have hslash : components (e ++ "/") = components e ++ [""] := by
      have := components_slash e ""
      rwa [String.append_empty, components_empty] at this
    have hempty : squeeze [""] = [] := by decide
    rw [hjoin, components_slash, squeeze_append, hlast, hslash, squeeze_append, hempty,
      List.append_nil]
  · rw [hjoin, components_slash, squeeze_append, hlast]

/-- **A name behind a path is one more component.** -/
theorem cleanComponents_join (d : String) :
    cleanComponents (join d name) = cleanComponents d ++ [name] := by
  rw [cleanComponents_eq, isAbsolute_join hname, squeeze_components_join hname, List.foldl_append,
    List.foldl_cons, List.foldl_nil, push_of_proper hname, List.reverse_cons, ← cleanComponents_eq]

theorem normalize_join (d : String) :
    normalize (join d name) = render (leadingSlashes d.toList) (cleanComponents d ++ [name]) := by
  rw [normalize_eq_render, leadingSlashes_join hname, cleanComponents_join hname]

/-- Cleaning a path before a name is put behind it makes no difference. -/
theorem normalize_join_normalize (d : String) :
    normalize (join (normalize d) name) = normalize (join d name) := by
  rw [normalize_join hname, normalize_join hname, leadingSlashes_normalize,
    cleanComponents_normalize]

/-- The path of an entry is not that of its directory. -/
theorem normalize_join_ne (d : String) : normalize (join d name) ≠ d := by
  intro h
  have hlength := congrArg (fun p => (cleanComponents p).length) h
  simp only [cleanComponents_normalize, cleanComponents_join hname, List.length_append,
    List.length_singleton] at hlength
  omega

/-! ### The end of a path -/

/-- A path ends with its last name, and a slash stands before it if anything does. -/
theorem toList_normalize_join (d : String) :
    ∃ before, (normalize (join d name)).toList = before ++ name.toList ∧
      (before = [] ∨ before.getLast? = some '/') := by
  rw [normalize_join hname]
  generalize leadingSlashes d.toList = slashes
  generalize cleanComponents d = cs
  have hbody : ∃ before, ("/".intercalate (cs ++ [name])).toList = before ++ name.toList ∧
      (before = [] ∨ before.getLast? = some '/') := by
    by_cases hnil : cs = []
    · subst hnil
      exact ⟨[], by simp, .inl rfl⟩
    · refine ⟨("/".intercalate cs).toList ++ ['/'], ?_, .inr (by simp)⟩
      rw [String.intercalate_append_of_ne_nil hnil (by simp)]
      simp
  obtain ⟨before, htext, hbefore⟩ := hbody
  rcases render_cases slashes (cs ++ [name]) with ⟨-, hempty, -⟩ | hrender
  · rw [hempty] at htext
    exact absurd (List.append_eq_nil_iff.1 htext.symm).2 hname.toList_ne_nil
  · refine ⟨List.replicate slashes '/' ++ before, by rw [hrender, htext, List.append_assoc], ?_⟩
    rcases hbefore with rfl | hbefore
    · cases slashes with
      | zero => exact .inl rfl
      | succ n => exact .inr (by simp [List.getLast?_replicate])
    · exact .inr (by rw [List.getLast?_append, hbefore]; rfl)

end

theorem suffix_append_iff {before ending name : List Char}
    (hbefore : before = [] ∨ before.getLast? = some '/') (hending : '/' ∉ ending) :
    ending <:+ before ++ name ↔ ending <:+ name := by
  constructor
  · rintro ⟨rest, hrest⟩
    rcases List.append_eq_append_iff.1 hrest with ⟨a, ha, hname⟩ | ⟨a, -, hname⟩
    · -- the ending would reach back over the slash
      cases a with
      | nil => exact hname ▸ List.suffix_rfl
      | cons c cs =>
        have hlast := hbefore.resolve_left (by rw [ha]; simp)
        rw [ha, List.getLast?_append, List.getLast?_cons, Option.some_or,
          ← List.getLast?_cons] at hlast
        rw [hname] at hending
        exact absurd (List.mem_append_left _ (List.mem_of_getLast? hlast)) hending
    · exact ⟨a, hname.symm⟩
  · intro h
    exact h.trans (List.suffix_append _ _)

/-- **A path ends in a text without slashes exactly if its last name does.** -/
theorem endsWith_normalize_join {name : String} (hname : ProperName name) (d : String)
    {ending : String} (hending : '/' ∉ ending.toList) :
    endsWith (normalize (join d name)) ending = endsWith name ending := by
  obtain ⟨before, htext, hbefore⟩ := toList_normalize_join hname d
  rw [endsWith, endsWith, htext, Bool.eq_iff_iff, List.isSuffixOf_iff_suffix,
    List.isSuffixOf_iff_suffix]
  exact suffix_append_iff hbefore hending

/-! ## Characters and length -/

theorem mem_intercalate {cs : List String} {a : Char} (h : a ∈ ("/".intercalate cs).toList) :
    a = '/' ∨ ∃ c ∈ cs, a ∈ c.toList := by
  induction cs with
  | nil => exact absurd h (by simp)
  | cons c cs ih =>
    by_cases hnil : cs = []
    · subst hnil
      exact .inr ⟨c, List.mem_cons_self, by simpa using h⟩
    · rw [String.intercalate_cons_of_ne_nil hnil, String.toList_append, String.toList_append,
        List.mem_append, List.mem_append] at h
      rcases h with (h | h) | h
      · exact .inr ⟨c, List.mem_cons_self, h⟩
      · exact .inl (by simpa using h)
      · exact (ih h).imp_right fun ⟨d, hd, ha⟩ => ⟨d, List.mem_cons_of_mem _ hd, ha⟩

theorem mem_of_mem_components {p c : String} (h : c ∈ components p) {a : Char}
    (ha : a ∈ c.toList) : a ∈ p.toList := by
  rw [← intercalate_components p]
  generalize components p = cs at h
  induction cs with
  | nil => exact absurd h List.not_mem_nil
  | cons d cs ih =>
    by_cases hnil : cs = []
    · subst hnil
      rw [List.mem_singleton.1 h] at ha
      simpa using ha
    · rw [String.intercalate_cons_of_ne_nil hnil, String.toList_append, String.toList_append,
        List.mem_append, List.mem_append]
      rcases List.mem_cons.1 h with rfl | h
      · exact .inl (.inl ha)
      · exact .inr (ih h)

/-- Cleaning a path brings no other characters in than slashes and dots. -/
theorem mem_normalize {p : String} {a : Char} (h : a ∈ (normalize p).toList) :
    a = '/' ∨ a = '.' ∨ a ∈ p.toList := by
  rw [normalize_eq_render] at h
  rcases render_cases (leadingSlashes p.toList) (cleanComponents p) with ⟨-, -, hdot⟩ | htext
  · rw [hdot] at h
    exact .inr (.inl (by simpa using h))
  · rw [htext, List.mem_append] at h
    rcases h with h | h
    · exact .inl (List.eq_of_mem_replicate h)
    · rcases mem_intercalate h with h | ⟨c, hc, ha⟩
      · exact .inl h
      · rcases mem_cleanComponents hc with hc | rfl
        · exact .inr (.inr (mem_of_mem_components hc ha))
        · exact .inr (.inl (by simpa using ha))

theorem no_nul_normalize_join {name : String} (hname : ProperName name) {d : String}
    (hd : '\x00' ∉ d.toList) : '\x00' ∉ (normalize (join d name)).toList := by
  intro h
  rcases mem_normalize h with h | h | h
  · exact absurd h (by decide)
  · exact absurd h (by decide)
  · rcases join_cases hname d with ⟨-, hjoin⟩ | ⟨e, rfl, hjoin⟩ | ⟨-, -, hjoin⟩
    · rw [hjoin] at h
      exact hname.no_nul h
    · rw [hjoin, String.toList_append, List.mem_append] at h
      exact h.elim hd hname.no_nul
    · rw [hjoin, String.toList_append, String.toList_append, List.mem_append,
        List.mem_append] at h
      rcases h with (h | h) | h
      · exact hd h
      · exact absurd h (by decide)
      · exact hname.no_nul h

theorem length_toList_le (s : String) : s.toList.length ≤ s.utf8ByteSize := by
  have hlist : ∀ cs : List Char, cs.length ≤ (String.ofList cs).utf8ByteSize := by
    intro cs
    induction cs with
    | nil => exact Nat.zero_le _
    | cons c cs ih =>
      have hcons : String.ofList (c :: cs) = String.singleton c ++ String.ofList cs := by
        apply String.toList_injective
        simp
      have hpos := c.utf8Size_pos
      rw [hcons, String.utf8ByteSize_append, String.utf8ByteSize_singleton, List.length_cons]
      omega
  have h := hlist s.toList
  rwa [String.ofList_toList] at h

theorem length_squeeze_cons_le (c : String) (cs : List String) :
    (squeeze (c :: cs)).length ≤ (squeeze cs).length + 1 ∧
      (squeeze cs).length ≤ (squeeze (c :: cs)).length := by
  rw [squeeze, List.filter_cons, ← squeeze]
  split
  · rw [List.length_cons]; omega
  · omega

theorem length_squeeze_components_le (p : String) :
    (squeeze (components p)).length ≤ p.toList.length := by
  rw [components]
  generalize p.toList = cs
  induction cs with
  | nil => exact Nat.le_refl _
  | cons c cs ih =>
    rw [splitOnSlash, List.length_cons]
    split
    · exact Nat.le_succ_of_le ih
    · cases hcs : splitOnSlash cs with
      | nil =>
        have := length_squeeze_cons_le (String.ofList [c]) []
        have hnil : (squeeze []).length = 0 := rfl
        simp only [List.map_cons, List.map_nil]
        omega
      | cons part parts =>
        rw [hcs, List.map_cons] at ih
        have h1 := length_squeeze_cons_le (String.ofList part) (parts.map String.ofList)
        have h2 := length_squeeze_cons_le (String.ofList (c :: part)) (parts.map String.ofList)
        simp only [List.map_cons]
        omega

theorem length_push_le (absolute : Bool) (stack : List String) (c : String) :
    (push absolute stack c).length ≤ stack.length + 1 := by
  rw [push.eq_def]
  split
  · omega
  split
  · cases stack with
    | nil => simp only []; split <;> simp
    | cons top rest => simp only []; split <;> simp; omega
  · simp

theorem length_foldl_push_le (absolute : Bool) (cs stack : List String) :
    (cs.foldl (push absolute) stack).length ≤ stack.length + cs.length := by
  induction cs generalizing stack with
  | nil => exact Nat.le_refl _
  | cons c cs ih =>
    have hpush := length_push_le absolute stack c
    have hrest := ih (push absolute stack c)
    rw [List.foldl_cons, List.length_cons]
    omega

/-- A path has at least as many bytes as clean components. -/
theorem length_cleanComponents_le (p : String) :
    (cleanComponents p).length ≤ p.utf8ByteSize := by
  have hfold := length_foldl_push_le (isAbsolute p) (squeeze (components p)) []
  rw [List.length_nil, Nat.zero_add] at hfold
  rw [cleanComponents_eq, List.length_reverse]
  exact Nat.le_trans hfold
    (Nat.le_trans (length_squeeze_components_le p) (length_toList_le p))

/-- Without components that lead up, cleaning only squeezes. -/
theorem cleanComponents_of_no_dots {p : String} (h : ".." ∉ components p) :
    cleanComponents p = squeeze (components p) := by
  have hfold : ∀ (absolute : Bool) (cs stack : List String),
      (∀ c ∈ cs, isBlank c = false ∧ c ≠ "..") →
      cs.foldl (push absolute) stack = cs.reverse ++ stack := by
    intro absolute cs
    induction cs with
    | nil => intro stack _; rfl
    | cons c cs ih =>
      intro stack hcs
      obtain ⟨hblank, hdots⟩ := hcs c List.mem_cons_self
      have hpush : push absolute stack c = c :: stack := by
        rw [isBlank] at hblank
        rw [push.eq_def, hblank, if_neg Bool.false_ne_true, if_neg (by simpa using hdots)]
      rw [List.foldl_cons, hpush, ih _ fun d hd => hcs d (List.mem_cons_of_mem _ hd)]
      simp
  rw [cleanComponents_eq, hfold, List.append_nil, List.reverse_reverse]
  intro c hc
  obtain ⟨hmem, hblank⟩ := List.mem_filter.1 hc
  exact ⟨by simpa using hblank, fun heq => h (heq ▸ hmem)⟩

end GoGlobals.Path
