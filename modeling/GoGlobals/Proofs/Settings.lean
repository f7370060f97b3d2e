import GoGlobals.Settings.Load
import Mathlib.Data.List.Induction
import Mathlib.Data.List.Nodup

/-!
# Settings from two sources

The environment and a file of assignments say what the settings are, and the environment wins.  One
would like to know the settings from what is in effect for each of them: the value that the
environment has, or else the value that the file gives.  Everything else should make no difference,
least of all a value in the file that the environment overrides.

It does make a difference in four ways.  A name in the file that is no setting is refused.  The list
of origins is read out of its text in either source before the sources are put together, so that a
text in the file that is no JSON is an error even if the environment overrides it, and a `null` in
the environment overrides nothing.  And the file is read into a table under the names as they are
spelled, which keeps a name in its first place and may take its value away again, before the cases
of the letters are dropped.

## What is here

* `Sources.effective` is the value in effect for a setting.
* `lastValue?_lowerNames`: dropping the cases keeps the last value of a name.
* `sourceValues_eq_ok` and `sourceValues_eq_error` say what a source gives, and `load_eq` what
  becomes of it.
* `load_sameOutcome` is the theorem: the values in effect decide, together with the names that are
  refused and whether a text is hidden that is no JSON.
* `load_not_sameOutcome` shows that all of this is needed.
-/

set_option autoImplicit false

namespace GoGlobals

/-! ## Last values -/

namespace DotEnv

variable {α : Type} {pairs : List (String × α)} {name : String} {value : α}

theorem lastValue?_concat (pairs : List (String × α)) (p : String × α) (key : String) :
    lastValue? (pairs ++ [p]) key = if p.1 == key then some p.2 else lastValue? pairs key := by
  rw [lastValue?, List.reverse_append, List.reverse_singleton, List.singleton_append,
    List.find?_cons]
  split <;> simp_all [lastValue?]

/-- In a list of distinct names, a name has the value that stands with it. -/
theorem lastValue?_eq_some_iff (hdistinct : (pairs.map (·.1)).Nodup) :
    lastValue? pairs name = some value ↔ (name, value) ∈ pairs := by
  induction pairs using List.reverseRecOn with
  | nil => simp [lastValue?]
  | append_singleton pairs p ih =>
    obtain ⟨other, v⟩ := p
    rw [List.map_append, List.nodup_append] at hdistinct
    obtain ⟨hpairs, -, hnew⟩ := hdistinct
    rw [lastValue?_concat, List.mem_append, List.mem_singleton]
    by_cases hname : other = name
    · subst hname
      have hnot : (other, value) ∉ pairs := fun hmem =>
        hnew other (List.mem_map.2 ⟨_, hmem, rfl⟩) other (by simp) rfl
      simp [hnot, eq_comm]
    · rw [if_neg (by simpa using hname), ih hpairs]
      simp [Ne.symm hname]

theorem mem_map_assign {key : String} :
    key ∈ (assign name value pairs).map (·.1) ↔ key = name ∨ key ∈ pairs.map (·.1) := by
  induction pairs with
  | nil => simp [assign]
  | cons p ps ih =>
    rw [assign]
    split
    · rename_i hname
      obtain rfl := beq_iff_eq.1 hname
      simp
    · rw [List.map_cons, List.mem_cons, ih, List.map_cons, List.mem_cons]
      exact or_left_comm

theorem nodup_assign (hdistinct : (pairs.map (·.1)).Nodup) (name : String) (value : α) :
    ((assign name value pairs).map (·.1)).Nodup := by
  induction pairs with
  | nil => simp [assign]
  | cons p ps ih =>
    obtain ⟨hnew, hrest⟩ := List.nodup_cons.1 hdistinct
    rw [assign]
    split
    · rename_i hname
      obtain rfl := beq_iff_eq.1 hname
      exact List.nodup_cons.2 ⟨hnew, hrest⟩
    · rename_i hname
      refine List.nodup_cons.2 ⟨fun hmem => ?_, ih hrest⟩
      rcases mem_map_assign.1 hmem with heq | hmem
      · exact hname (beq_iff_eq.2 heq)
      · exact hnew hmem

/-- Assigning changes the value of one name. -/
theorem mem_assign (hdistinct : (pairs.map (·.1)).Nodup) {p : String × α} :
    p ∈ assign name value pairs ↔ p = (name, value) ∨ p ∈ pairs ∧ p.1 ≠ name := by
  induction pairs with
  | nil => simp [assign]
  | cons q qs ih =>
    obtain ⟨hnew, hrest⟩ := List.nodup_cons.1 hdistinct
    rw [assign]
    split
    · rename_i hname
      obtain rfl := beq_iff_eq.1 hname
      have hothers : p ∈ qs → p.1 ≠ q.1 := fun hmem heq =>
        hnew (List.mem_map.2 ⟨p, hmem, heq⟩)
      simp only [List.mem_cons]
      constructor
      · rintro (h | h)
        · exact .inl h
        · exact .inr ⟨.inr h, hothers h⟩
      · rintro (h | ⟨rfl | h, hne⟩)
        · exact .inl h
        · exact absurd rfl hne
        · exact .inr h
    · rename_i hname
      have hne : q.1 ≠ name := by simpa using hname
      rw [List.mem_cons, ih hrest, List.mem_cons]
      constructor
      · rintro (rfl | h | ⟨h, hp⟩)
        · exact .inr ⟨.inl rfl, hne⟩
        · exact .inl h
        · exact .inr ⟨.inr h, hp⟩
      · rintro (h | ⟨rfl | h, hp⟩)
        · exact .inr (.inl h)
        · exact .inl rfl
        · exact .inr (.inr ⟨h, hp⟩)

theorem lastValue?_assign (hdistinct : (pairs.map (·.1)).Nodup) (name : String) (value : α)
    (key : String) :
    lastValue? (assign name value pairs) key =
      if name == key then some value else lastValue? pairs key := by
  ext v
  rw [lastValue?_eq_some_iff (nodup_assign hdistinct name value), mem_assign hdistinct]
  by_cases hname : name = key
  · subst hname
    simp [eq_comm]
  · rw [if_neg (by simpa using hname), lastValue?_eq_some_iff hdistinct]
    simp [Ne.symm hname]

end DotEnv

namespace Settings

open DotEnv (lastValue?)

/-- The names in lower case, none of them dropped. -/
def lowered {α : Type} (pairs : List (String × α)) : List (String × α) :=
  pairs.map fun p => (Text.lower p.1, p.2)

theorem nodup_lowerNames {α : Type} (pairs : List (String × α)) :
    ((lowerNames pairs).map (·.1)).Nodup := by
  induction pairs using List.reverseRecOn with
  | nil => exact List.nodup_nil
  | append_singleton pairs p ih =>
    rw [lowerNames, List.foldl_append]
    exact DotEnv.nodup_assign ih _ _

/-- **Dropping the cases keeps the last value of a name.** -/
theorem lastValue?_lowerNames {α : Type} (pairs : List (String × α)) (key : String) :
    lastValue? (lowerNames pairs) key = lastValue? (lowered pairs) key := by
  induction pairs using List.reverseRecOn with
  | nil => rfl
  | append_singleton pairs p ih =>
    have hconcat : lowered (pairs ++ [p]) = lowered pairs ++ [(Text.lower p.1, p.2)] :=
      List.map_append
    rw [lowerNames, List.foldl_append, List.foldl_cons, List.foldl_nil, ← lowerNames,
      DotEnv.lastValue?_assign (nodup_lowerNames pairs), ih, hconcat, DotEnv.lastValue?_concat]

/-! ## What the sources say -/

/-- Is the text one that a setting cannot be read from at all? -/
def isBroken (field text : String) : Bool :=
  field == jsonField && (jsonValue? text).isNone

/-- The value that a text has for a setting; `null` is no value. -/
def textValue? (field text : String) : Option Json :=
  if field == jsonField then
    match jsonValue? text with
    | some .null => none
    | value => value
  else some (.ofText text)

/-- An environment, and the text of a file if there is one. -/
structure Sources where
  environment : List (String × String)
  file : Option String := none

namespace Sources

variable (s : Sources)

/-- The text that the environment has for a name. -/
def given (name : String) : Option String :=
  lastValue? (lowered s.environment) name

/-- The text that the file has for a name.  The file holds one text for every spelling; of the
spellings of the name, that counts which comes last when they are put in the order in which they
first appear. -/
def written (name : String) : Option String :=
  (lastValue? (lowered (DotEnv.read s.environment (s.file.getD ""))) name).join

/-- The text that the environment sets a setting to.  A text that stands for no value sets
nothing. -/
def set? (field : String) : Option String :=
  (s.given field).filter fun text => isBroken field text || (textValue? field text).isSome

/-- The text in effect for a setting: that of the environment if it sets one, or else that of the
file. -/
def effective (field : String) : Option String :=
  (s.set? field).or (s.written field)

/-- The names in the file that are no settings and have a value. -/
def foreign : List String :=
  ((lowered (DotEnv.read s.environment (s.file.getD ""))).map (·.1)).filter fun name =>
    !fieldNames.contains name && (s.written name).any (!·.isEmpty)

/-- Does the environment override a text in the file that cannot be read? -/
def hidesBroken : Bool :=
  (s.set? jsonField).isSome && (s.written jsonField).any (isBroken jsonField)

end Sources

/-- Loads the settings from both sources. -/
def Sources.load (s : Sources) : Except LoadError Settings :=
  Settings.load s.environment s.file

/-- The names that an error is about. -/
def LoadError.names : LoadError → List String
  | notJson field _ => [field]
  | invalid problems => problems.filterMap fun p =>
    match p.way with
    | .field name :: _ => some name
    | _ => none

/-- The same settings, or errors about the same names. -/
inductive SameOutcome : Except LoadError Settings → Except LoadError Settings → Prop
  | loaded (settings : Settings) : SameOutcome (.ok settings) (.ok settings)
  | failed {e e' : LoadError} (h : ∀ name, name ∈ e.names ↔ name ∈ e'.names) :
      SameOutcome (.error e) (.error e')

/-! ## What one source gives -/

section

variable {origin : Origin} {pairs : List (String × Option String)} {field : String}

theorem fieldValue_eq (origin : Origin) (pairs : List (String × Option String))
    (field : String) :
    fieldValue origin pairs field =
      if ((lastValue? pairs field).join).any (isBroken field) then .error (.notJson field origin)
      else .ok ((lastValue? pairs field).join.bind (textValue? field)) := by
  rw [fieldValue]
  cases (lastValue? pairs field).join with
  | none => rfl
  | some text =>
    rw [Option.any_some, isBroken, Option.bind_some, textValue?]
    cases hfield : field == jsonField with
    | false => rfl
    | true =>
      cases hvalue : jsonValue? text with
      | none => simp [hvalue]
      | some value => cases value <;> simp [hvalue]

theorem lookup_append (first second : List (JsonString × Json)) (name : String) :
    Json.lookup (first ++ second) name =
      (Json.lookup first name).or (Json.lookup second name) := by
  rw [Json.lookup, List.find?_append, Option.map_or]
  rfl

/-- In a list of optional members with distinct names, a name has the member made for it. -/
theorem lookup_filterMap {names : List String} (hdistinct : names.Nodup)
    (value? : String → Option Json) (hmem : field ∈ names) :
    Json.lookup ((names.map fun name => (value? name).map (JsonString.text name, ·)).filterMap id)
      field = value? field := by
  induction names with
  | nil => exact absurd hmem List.not_mem_nil
  | cons name names ih =>
    obtain ⟨hnew, hrest⟩ := List.nodup_cons.1 hdistinct
    have hother : ∀ {names : List String}, field ∉ names →
        Json.lookup ((names.map fun name =>
          (value? name).map (JsonString.text name, ·)).filterMap id) field = none := by
      intro names hnot
      rw [Json.lookup, Option.map_eq_none_iff, List.find?_eq_none]
      intro m hm
      obtain ⟨member, hmember, hid⟩ := List.mem_filterMap.1 hm
      obtain ⟨other, hother, rfl⟩ := List.mem_map.1 hmember
      obtain ⟨v, -, rfl⟩ := Option.map_eq_some_iff.1 hid
      simpa using fun heq : other = field => hnot (heq ▸ hother)
    by_cases hname : name = field
    · subst hname
      cases hvalue : value? name with
      | none => rw [List.map_cons, hvalue]; exact hother hnew
      | some v => rw [List.map_cons, hvalue]; simp [Json.lookup]
    · have hmem' : field ∈ names := (List.mem_cons.1 hmem).resolve_left (Ne.symm hname)
      rw [← ih hrest hmem', List.map_cons]
      cases hvalue : value? name with
      | none => rfl
      | some v => simp [Json.lookup, hname]

theorem mapM_eq_ok {α β ε : Type} {f : α → Except ε β} {g : α → β} {xs : List α}
    (h : ∀ x ∈ xs, f x = .ok (g x)) : xs.mapM f = .ok (xs.map g) := by
  induction xs with
  | nil => rfl
  | cons x xs ih =>
    obtain ⟨hx, hxs⟩ := List.forall_mem_cons.1 h
    rw [List.mapM_cons, hx, ih hxs]
    rfl

/-- The member of a setting among the values of a source. -/
def memberOf (pairs : List (String × Option String)) (field : String) :
    Option (JsonString × Json) :=
  ((lastValue? pairs field).join.bind (textValue? field)).map (JsonString.text field, ·)

/-- Only the setting that is written in JSON can be broken. -/
theorem fieldValue_of_ne (hfield : field ≠ jsonField) (origin : Origin)
    (pairs : List (String × Option String)) :
    fieldValue origin pairs field =
      .ok ((lastValue? pairs field).join.bind (textValue? field)) := by
  rw [fieldValue_eq, if_neg]
  cases (lastValue? pairs field).join <;> simp [isBroken, hfield]

theorem sourceValues_eq_ok
    (h : ((lastValue? pairs jsonField).join).any (isBroken jsonField) = false) :
    sourceValues origin pairs = .ok ((fieldNames.map (memberOf pairs)).filterMap id) := by
  rw [sourceValues, mapM_eq_ok (g := memberOf pairs)]
  · rfl
  intro field _
  by_cases hfield : field = jsonField
  · rw [hfield, fieldValue_eq, if_neg (by simp [h])]
    rfl
  · rw [fieldValue_of_ne hfield]
    rfl

theorem sourceValues_eq_error
    (h : ((lastValue? pairs jsonField).join).any (isBroken jsonField) = true) :
    sourceValues origin pairs = .error (.notJson jsonField origin) := by
  have hnames : fieldNames = fieldNames.dropLast ++ [jsonField] := by decide
  rw [sourceValues, hnames, List.mapM_append, mapM_eq_ok (g := memberOf pairs)]
  · rw [List.mapM_cons, fieldValue_eq, if_pos h]
    rfl
  · intro field hmem
    have hfield : field ≠ jsonField := by
      rintro rfl
      exact absurd hmem (by decide)
    rw [fieldValue_of_ne hfield]
    rfl

end

/-! ## What becomes of it -/

theorem optional_congr {α : Type} {o o' : Object} {name : String}
    (h : Json.lookup o.members name = Json.lookup o'.members name) (absent : α)
    (read : Json → Checked α) : o.optional name absent read = o'.optional name absent read := by
  rw [Object.optional, Object.optional, h]

/-- Only the members of the settings are read. -/
theorem readFields_congr {o o' : Object}
    (h : ∀ field ∈ fieldNames, Json.lookup o.members field = Json.lookup o'.members field) :
    readFields o = readFields o' := by
  simp only [fieldNames, List.forall_mem_cons] at h
  obtain ⟨hsource, htest, htests, hlevel, hport, hhost, horigins, -⟩ := h
  simp only [readFields, optional_congr hsource, optional_congr htest, optional_congr htests,
    optional_congr hlevel, optional_congr hport, optional_congr hhost, optional_congr horigins]

namespace Sources

variable {s : Sources} {field name : String}

theorem lastValue?_given (s : Sources) (name : String) :
    (lastValue? (lowerNames (s.environment.map fun p => (p.1, some p.2))) name).join =
      s.given name := by
  rw [lastValue?_lowerNames, given, lowered, lowered, lastValue?, lastValue?, List.map_map,
    ← List.map_reverse, ← List.map_reverse, List.find?_map, List.find?_map, Option.map_map,
    Option.map_map]
  have hpred : ((fun p : String × Option String => p.1 == name) ∘
      (fun p => (Text.lower p.1, p.2)) ∘ fun p : String × String => (p.1, some p.2)) =
      (fun p : String × String => p.1 == name) ∘ fun p => (Text.lower p.1, p.2) := rfl
  rw [hpred]
  cases s.environment.reverse.find? _ <;> rfl

/-- The table that is made of the file. -/
def table (s : Sources) : List (String × Option String) :=
  lowerNames (DotEnv.read s.environment (s.file.getD ""))

theorem lastValue?_table (s : Sources) (name : String) :
    (lastValue? s.table name).join = s.written name := by
  rw [table, lastValue?_lowerNames, written]

/-- Is there a text for a setting that it cannot be read from, in effect or not? -/
def hasBroken (s : Sources) : Bool :=
  (s.effective jsonField).any (Settings.isBroken jsonField) || s.hidesBroken

theorem hasBroken_iff :
    s.hasBroken = true ↔ (s.given jsonField).any (Settings.isBroken jsonField) = true ∨
      (s.written jsonField).any (Settings.isBroken jsonField) = true := by
  rw [hasBroken, hidesBroken, effective, set?]
  cases s.given jsonField with
  | none => simp
  | some text =>
    cases hbroken : Settings.isBroken jsonField text with
    | true => simp [Option.filter_some, hbroken]
    | false =>
      cases hvalue : textValue? jsonField text with
      | none => simp [Option.filter_some, hbroken, hvalue]
      | some value =>
        simp only [Option.filter_some, hbroken, hvalue, Option.isSome_some, Bool.or_true, if_true,
          Option.some_or, Option.any_some, Bool.false_or, Bool.true_and, false_or,
          Bool.false_eq_true]

/-- The members that are read: those of the texts in effect. -/
def members (s : Sources) : List (JsonString × Json) :=
  (fieldNames.map fun field =>
    ((s.effective field).bind (textValue? field)).map (JsonString.text field, ·)).filterMap id

/-- Where nothing is broken, the values of the two sources are those of the texts in effect. -/
theorem or_bind_textValue?
    (h : (s.given field).any (Settings.isBroken field) = false) :
    ((s.given field).bind (textValue? field)).or ((s.written field).bind (textValue? field)) =
      (s.effective field).bind (textValue? field) := by
  rw [effective, set?]
  cases hgiven : s.given field with
  | none => simp
  | some text =>
    rw [hgiven, Option.any_some] at h
    cases hvalue : textValue? field text with
    | none => simp [Option.filter_some, h, hvalue]
    | some value => simp [Option.filter_some, hvalue]

theorem any_isBroken_of_ne (hfield : field ≠ jsonField) (text? : Option String) :
    text?.any (Settings.isBroken field) = false := by
  cases text? <;> simp [Settings.isBroken, hfield]

/-- A broken text is the outcome, whatever else there is. -/
theorem load_eq_of_broken (h : s.hasBroken = true) :
    ∃ origin, s.load = .error (.notJson jsonField origin) := by
  have hgiven := s.lastValue?_given jsonField
  have hwritten := s.lastValue?_table jsonField
  rw [load, Settings.load]
  cases hfirst : (s.given jsonField).any (Settings.isBroken jsonField) with
  | true =>
    rw [sourceValues_eq_error (by rw [hgiven, hfirst])]
    exact ⟨.environment, rfl⟩
  | false =>
    have hsecond := (hasBroken_iff.1 h).resolve_left (by simp [hfirst])
    rw [sourceValues_eq_ok (by rw [hgiven, hfirst]), ← table,
      sourceValues_eq_error (by rw [hwritten, hsecond])]
    exact ⟨.file, rfl⟩

/-- **Where nothing is broken, the texts in effect are read** and the names of the file that are no
settings are refused. -/
theorem load_eq (h : s.hasBroken = false) :
    s.load =
      match readFields ⟨s.members⟩ with
      | .error problems => .error (.invalid (problems ++ (strangers s.table).map strangerProblem))
      | .ok settings =>
        if ((strangers s.table).map strangerProblem).isEmpty then .ok settings
        else .error (.invalid ((strangers s.table).map strangerProblem)) := by
  obtain ⟨hfirst, hsecond⟩ :
      (s.given jsonField).any (Settings.isBroken jsonField) = false ∧
        (s.written jsonField).any (Settings.isBroken jsonField) = false := by
    rw [← Bool.not_eq_true, hasBroken_iff, not_or, Bool.not_eq_true, Bool.not_eq_true] at h
    exact h
  have hread : ∀ field ∈ fieldNames, Json.lookup
      ((fieldNames.map (memberOf (lowerNames
        (s.environment.map fun p => (p.1, some p.2))))).filterMap id ++
          (fieldNames.map (memberOf s.table)).filterMap id) field =
      Json.lookup s.members field := by
    intro field hmem
    have hgiven : (s.given field).any (Settings.isBroken field) = false := by
      by_cases hfield : field = jsonField
      · rw [hfield, hfirst]
      · exact any_isBroken_of_ne hfield _
    have hdistinct : fieldNames.Nodup := by decide
    rw [members, lookup_filterMap hdistinct (fun field => (s.effective field).bind _) hmem,
      ← or_bind_textValue? hgiven, lookup_append, ← s.lastValue?_given, ← s.lastValue?_table]
    exact congrArg₂ Option.or (lookup_filterMap hdistinct (fun field => Option.bind _ _) hmem)
      (lookup_filterMap hdistinct (fun field => Option.bind _ _) hmem)
  have hfields : readFields ⟨_ ++ _⟩ = readFields ⟨s.members⟩ := readFields_congr hread
  rw [load, Settings.load, sourceValues_eq_ok (by rw [s.lastValue?_given, hfirst]), ← table,
    sourceValues_eq_ok (by rw [s.lastValue?_table, hsecond])]
  simp only [bind, Except.bind, hfields]
  cases readFields ⟨s.members⟩ with
  | error problems => rfl
  | ok settings => rfl

/-! ## Names that are refused -/

theorem mem_foreign_iff :
    name ∈ s.foreign ↔ name ∉ fieldNames ∧ ∃ text, text ≠ "" ∧ s.written name = some text := by
  have hpresent : ∀ {text : String}, s.written name = some text →
      name ∈ (lowered (DotEnv.read s.environment (s.file.getD ""))).map (·.1) := by
    intro text h
    obtain ⟨p, hfind, -⟩ := Option.map_eq_some_iff.1 (Option.join_eq_some_iff.1 h)
    refine List.mem_map.2 ⟨p, List.mem_reverse.1 (List.mem_of_find?_eq_some hfind), ?_⟩
    simpa using List.find?_some hfind
  rw [foreign, List.mem_filter]
  cases hwritten : s.written name with
  | none => simp
  | some text => simp [hpresent hwritten]

/-- The names that are refused are those of the file that are no settings. -/
theorem mem_strangers_iff : name ∈ (strangers s.table).map (·.1) ↔ name ∈ s.foreign := by
  have htable : ∀ text, (name, some text) ∈ s.table ↔ s.written name = some text := by
    intro text
    rw [← lastValue?_table, Option.join_eq_some_iff, table,
      DotEnv.lastValue?_eq_some_iff (nodup_lowerNames _)]
  have hstranger : ∀ text, (name, text) ∈ strangers s.table ↔
      (name, some text) ∈ s.table ∧ text ≠ "" ∧ name ∉ fieldNames := by
    intro text
    rw [strangers, List.mem_filterMap]
    constructor
    · rintro ⟨⟨name', value⟩, hmem, hsome⟩
      cases value with
      | none => exact absurd hsome (by simp)
      | some text' =>
        simp only [] at hsome
        split at hsome
        · exact absurd hsome (by simp)
        · rename_i hkept
          obtain ⟨rfl, rfl⟩ := Prod.mk.inj (Option.some.inj hsome)
          exact ⟨hmem, by simpa using hkept⟩
    · rintro ⟨hmem, htext, hname⟩
      exact ⟨_, hmem, if_neg (by simpa using ⟨htext, hname⟩)⟩
  rw [mem_foreign_iff, List.mem_map]
  constructor
  · rintro ⟨⟨name', text⟩, hmem, rfl⟩
    obtain ⟨hmem, htext, hname⟩ := (hstranger text).1 hmem
    exact ⟨hname, text, htext, (htable text).1 hmem⟩
  · rintro ⟨hname, text, htext, hwritten⟩
    exact ⟨(name, text), (hstranger text).2 ⟨(htable text).2 hwritten, htext, hname⟩, rfl⟩

theorem mem_names_iff (s : Sources) (problems : List Problem) (name : String) :
    name ∈ (LoadError.invalid (problems ++ (strangers s.table).map strangerProblem)).names ↔
      name ∈ (LoadError.invalid problems).names ∨ name ∈ s.foreign := by
  have hstrangers : ((strangers s.table).map strangerProblem).filterMap (fun p =>
      match p.way with
      | .field name :: _ => some name
      | _ => none) = (strangers s.table).map (·.1) := by
    rw [List.filterMap_map, ← List.filterMap_eq_map]
    rfl
  rw [LoadError.names, List.filterMap_append, List.mem_append, hstrangers, mem_strangers_iff,
    LoadError.names]

end Sources

/-! ## Two loads -/

/-- **The texts in effect decide what settings are loaded.**  Let two pairs of sources have the same
text in effect for every setting, the same names in the file that are no settings and have a value,
and both or neither a text for the origins in the file that is overridden and is no JSON.  Then the
same settings are loaded from both, or neither gives settings and the errors are about the same
names. -/
theorem load_sameOutcome {a b : Sources}
    (heffective : ∀ field ∈ fieldNames, a.effective field = b.effective field)
    (hforeign : ∀ name, name ∈ a.foreign ↔ name ∈ b.foreign)
    (hhides : a.hidesBroken = b.hidesBroken) : SameOutcome a.load b.load := by
  have hbroken : a.hasBroken = b.hasBroken := by
    rw [Sources.hasBroken, Sources.hasBroken, heffective jsonField (by decide), hhides]
  cases hb : b.hasBroken with
  | true =>
    obtain ⟨origin, hload⟩ := Sources.load_eq_of_broken (hbroken.trans hb)
    obtain ⟨origin', hload'⟩ := Sources.load_eq_of_broken hb
    rw [hload, hload']
    exact .failed fun name => Iff.rfl
  | false =>
    have hmembers : a.members = b.members := by
      rw [Sources.members, Sources.members]
      refine congrArg (List.filterMap id) (List.map_congr_left fun field hmem => ?_)
      rw [heffective field hmem]
    rw [Sources.load_eq (hbroken.trans hb), Sources.load_eq hb, hmembers]
    cases readFields ⟨b.members⟩ with
    | error problems =>
      refine .failed fun name => ?_
      rw [Sources.mem_names_iff, Sources.mem_names_iff, hforeign]
    | ok settings =>
      have hempty : ∀ s : Sources, ((strangers s.table).map strangerProblem).isEmpty = true ↔
          ∀ name, name ∉ s.foreign := by
        intro s
        simp only [← Sources.mem_strangers_iff, ← List.eq_nil_iff_forall_not_mem,
          List.isEmpty_iff, List.map_eq_nil_iff]
      have hsame : ((strangers a.table).map strangerProblem).isEmpty =
          ((strangers b.table).map strangerProblem).isEmpty := by
        rw [Bool.eq_iff_iff, hempty, hempty]
        simp only [hforeign]
      simp only [hsame]
      split
      · exact .loaded settings
      · refine .failed fun name => ?_
        exact (a.mem_names_iff [] name).trans
          ((or_congr_right (hforeign name)).trans (b.mem_names_iff [] name).symm)

/-- An environment with a name that is no setting, and a file with a port that is overridden. -/
def overriddenSources : Sources where
  environment := [("PORT", "8080"), ("FOO", "x")]
  file := some "HOST=h\nport=none\n"

/-- What is left of that, in other spellings. -/
def plainSources : Sources where
  environment := [("port", "8080")]
  file := some "Host='h'\n"

theorem load_overriddenSources :
    overriddenSources.written "port" = some "none" ∧
      overriddenSources.effective "port" = some "8080" ∧
      fieldNames.map overriddenSources.effective = fieldNames.map plainSources.effective ∧
      overriddenSources.foreign = plainSources.foreign ∧
      overriddenSources.hidesBroken = plainSources.hidesBroken ∧
      SameOutcome overriddenSources.load plainSources.load := by
  have heffective : ∀ field ∈ fieldNames,
      overriddenSources.effective field = plainSources.effective field := by
    decide +kernel
  have hforeign : overriddenSources.foreign = plainSources.foreign := by decide +kernel
  have hhides : overriddenSources.hidesBroken = plainSources.hidesBroken := by decide +kernel
  refine ⟨by decide +kernel, by decide +kernel, List.map_congr_left heffective, hforeign, hhides,
    ?_⟩
  exact load_sameOutcome heffective (fun name => by rw [hforeign]) hhides

/-! ## What else makes a difference -/

/-- The last text that the lines of a file have for a name, if they do not refer to other names. -/
def lastText? (file name : String) : Option String :=
  ((DotEnv.assignments file).filterMap fun a =>
    if Text.lower a.name == name then a.value else none).getLast?

/-- The text that seems to be in effect: that of the environment, or else the last of the file. -/
def Sources.apparent (s : Sources) (field : String) : Option String :=
  (s.given field).or (lastText? (s.file.getD "") field)

/-- The same seems to be in effect, and the outcomes differ. -/
def Sources.Mislead (a b : Sources) : Prop :=
  (∀ field ∈ fieldNames, a.apparent field = b.apparent field) ∧ ¬ SameOutcome a.load b.load

/-- Outcomes are not the same if one has settings that the other has not. -/
theorem not_sameOutcome {x y : Except LoadError Settings} (h : x.toOption ≠ y.toOption) :
    ¬ SameOutcome x y := by
  intro hsame
  cases hsame with
  | loaded settings => exact h rfl
  | failed _ => exact h rfl

/-- **What seems to be in effect does not decide what settings are loaded.**  A name in the file may
be no setting; a text that is overridden may be no JSON; a `null` may stand in the environment; a
name may come in several spellings; and its text may be taken away again. -/
theorem load_not_sameOutcome :
    Sources.Mislead ⟨[], some "FOO=1\n"⟩ ⟨[], none⟩ ∧
      Sources.Mislead ⟨[("CORS_ORIGINS", "[]")], some "CORS_ORIGINS=x\n"⟩
        ⟨[("CORS_ORIGINS", "[]")], none⟩ ∧
      Sources.Mislead ⟨[("CORS_ORIGINS", "null")], some "CORS_ORIGINS=[]\n"⟩
        ⟨[("CORS_ORIGINS", "null")], none⟩ ∧
      Sources.Mislead ⟨[], some "PORT=1\nport=2\nPORT=3\n"⟩ ⟨[], some "PORT=3\n"⟩ ∧
      Sources.Mislead ⟨[], some "PORT=1\nPORT\n"⟩ ⟨[], some "PORT=1\n"⟩ := by
  refine ⟨⟨by decide +kernel, ?_⟩, ⟨by decide +kernel, ?_⟩, ⟨by decide +kernel, ?_⟩,
    ⟨by decide +kernel, ?_⟩, by decide +kernel, ?_⟩
  all_goals exact not_sameOutcome (by decide +kernel)

end Settings

end GoGlobals
