import GoGlobals.Proofs.Grammar.Thread

/-!
# Rounds of single stacks

In a round every stack takes a token, and so do the stacks that branch off on the way.  After it the
stacks that are stuck are dropped, and the others are joined where they agree and put in order.  If
none of them agree and they are in order already (`Ranked`), they stay as they are.

A run is told from its end: `Succeeds` says that stacks at a place lead to a reading of the whole
text, and there is one rule for a round (`Succeeds.round`), one for a single stack that shifts
(`Succeeds.shift`), and one for a single stack that accepts (`Succeeds.accept`).
-/

set_option autoImplicit false

namespace GoGlobals.Grammar

open Text (Cursor)

variable {σ : Type}

/-! ## A round of single stacks -/

/-- The most steps in which a stack is asked to take a token. -/
def stepLimit : Nat := 64

/-- What becomes of a stack in a round, and the stacks that branch off from it. -/
inductive Advances (l : Language σ) (others : List (Thread σ)) (t : Thread σ) :
    Status × Thread σ → List (Thread σ) → Prop
  | takes {token : Token} {out : Status × Thread σ} {branches : List (Thread σ)}
      (htoken : l.token? (l.expects t.state) t.cursor = some token) (hextra : token.extra = false)
      (h : Takes l token stepLimit others t out branches) : Advances l others t out branches
  | stuck (htoken : l.token? (l.expects t.state) t.cursor = none) :
      Advances l others t (.stuck, t) []

/-- The stacks of a queue advance one after the other from one offset to another, behind those that
have done so; what branches off joins the queue. -/
inductive Sweeps (l : Language σ) (start stop : Nat) : (done : List (Status × Thread σ)) →
    (queue : List (Thread σ)) → (result : List (Status × Thread σ)) → Prop
  | nil {done : List (Status × Thread σ)} : Sweeps l start stop done [] done
  | cons {done result : List (Status × Thread σ)} {t : Thread σ} {queue branches : List (Thread σ)}
      {out : Status × Thread σ} (h : Advances l (Parser.actives done ++ queue) t out branches)
      (hplace : out.1 = .active ∧ out.2.cursor.offset = stop ∨
        out.1 = .stuck ∧ out.2.cursor.offset = start)
      (hrest : Sweeps l start stop (done ++ [out]) (queue ++ branches) result) :
      Sweeps l start stop done (t :: queue) result

theorem Sweeps.length_le {l : Language σ} {start stop : Nat} {done result : List (Status × Thread σ)}
    {queue : List (Thread σ)} (h : Sweeps l start stop done queue result) :
    done.length + queue.length ≤ result.length := by
  induction h with
  | nil => exact Nat.le_refl _
  | cons _ _ _ ih =>
    simp only [List.length_append, List.length_cons] at ih ⊢
    omega

/-- Stacks that are kept as they are between rounds: no two of them are joined, they are in the
order of their weights, and there are not too many. -/
structure Ranked (ts : List (Thread σ)) : Prop where
  apart : ts.Pairwise Thread.Apart
  sorted : ts.Pairwise fun t u => u.weight ≤ t.weight
  few : ts.length ≤ headLimit

namespace Parser

variable [BEq σ] [LawfulBEq σ]

/-! ## Advancing -/

omit [LawfulBEq σ] in
/-- A head looks for the token that its state expects at its place. -/
theorem HeadOf.advance_eq {l : Language σ} {p : Parser σ} {pre post : List (Status × Thread σ)}
    {t : Status × Thread σ} {hpre hpost : List Head} {h : Head}
    (hh : HeadOf p pre t post hpre h hpost) (size : Nat) :
    p.advance l size pre.length =
      match l.token? (l.expects t.2.state) t.2.cursor with
      | none => p.mark pre.length .stuck
      | some token => p.take l pre.length size token := by
  obtain ⟨v, hv, hstate, hcursor⟩ := hh.top?
  rw [Parser.advance, hv]
  simp only [hstate, hcursor]
  rfl

theorem Shows.advance {l : Language σ} {p : Parser σ} {pre : List (Status × Thread σ)}
    {t : Thread σ} {queue branches : List (Thread σ)} {out : Status × Thread σ}
    (hp : p.Shows (pre ++ (.active, t) :: queue.map (.active, ·)))
    (h : Advances l (actives pre ++ queue) t out branches)
    (hlen : pre.length + queue.length + branches.length < headLimit + headOverflow) {size : Nat}
    (hsize : stepLimit ≤ size) :
    (p.advance l size pre.length).Shows (pre ++ out :: (queue ++ branches).map (.active, ·)) ∧
      (p.advance l size pre.length).finished = p.finished := by
  obtain ⟨hpre, h', hpost, hh⟩ := hp.headOf
  have hothers : actives pre ++ queue = actives (pre ++ queue.map (.active, ·)) := by
    simp
  rw [hh.advance_eq]
  cases h with
  | @takes token _ _ htoken hextra h =>
    simp only [htoken, List.map_append]
    refine hp.take hextra h hothers ?_ hsize
    rwa [List.length_append, List.length_map]
  | stuck htoken =>
    simp only [htoken, List.append_nil]
    exact ⟨(hh.mark .stuck).shows, rfl⟩

/-- A sweep goes from a head to the one behind it: after the head has advanced it is as far as the
others, or it is stuck and is passed over. -/
theorem Shows.sweep_cons {l : Language σ} {start stop : Nat} (hlt : start < stop) {size : Nat}
    (hsize : stepLimit ≤ size) {p : Parser σ} {done : List (Status × Thread σ)} {t : Thread σ}
    {queue branches : List (Thread σ)} {out : Status × Thread σ}
    (hp : p.Shows (done ++ (.active, t) :: queue.map (.active, ·)))
    (h : Advances l (actives done ++ queue) t out branches)
    (hplace : out.1 = .active ∧ out.2.cursor.offset = stop ∨
      out.1 = .stuck ∧ out.2.cursor.offset = start)
    (hlen : done.length + queue.length + branches.length < headLimit + headOverflow) {last : Nat}
    (hlast : last ≤ stop) (hfirst : done = [] → last ≤ start) (fuel : Nat) :
    ∃ p' now fuel', Shows p' (done ++ [out] ++ (queue ++ branches).map (.active, ·)) ∧
      p'.finished = p.finished ∧ now ≤ stop ∧ fuel ≤ fuel' ∧
      Parser.sweep l size (fuel + 2) done.length last p =
        Parser.sweep l size fuel' (done.length + 1) now p' := by
  obtain ⟨hpre, h', hpost, hh⟩ := hp.headOf
  obtain ⟨hshows, hfinished⟩ := hp.advance h hlen hsize
  obtain ⟨hpre', k, hpost', hk⟩ := hshows.headOf
  obtain ⟨v, hv, -, hcursor⟩ := hk.top?
  have hoffset : (p.advance l size done.length).offset done.length = out.2.cursor.offset := by
    rw [Parser.offset, hv]
    exact congrArg Cursor.offset hcursor
  have hstep : Parser.sweep l size (fuel + 2) done.length last p =
      if last < out.2.cursor.offset || (0 < done.length && last == out.2.cursor.offset) then
        Parser.sweep l size (fuel + 1) (done.length + 1) out.2.cursor.offset
          (p.advance l size done.length)
      else Parser.sweep l size (fuel + 1) done.length last (p.advance l size done.length) := by
    rw [Parser.sweep, hh.get]
    simp only [hh.top.1, hoffset]
    rfl
  rw [List.append_cons] at hshows
  rw [hstep]
  split
  · exact ⟨_, _, _, hshows, hfinished, by omega, by omega, rfl⟩
  · rename_i hstay
    have hstuck : out.1 = .stuck := by
      rcases hplace with ⟨-, hat⟩ | ⟨hstuck, -⟩
      · exfalso
        apply hstay
        rw [hat]
        cases hdone : done with
        | nil => simp [Nat.lt_of_le_of_lt (hfirst hdone) hlt]
        | cons d ds =>
          rcases Nat.lt_or_eq_of_le hlast with hl | rfl
          · simp [hl]
          · simp
      · exact hstuck
    have hpass : Parser.sweep l size (fuel + 1) done.length last (p.advance l size done.length) =
        Parser.sweep l size fuel (done.length + 1) last (p.advance l size done.length) := by
      rw [Parser.sweep, hk.get]
      simp only [hk.top.1, hstuck]
      rfl
    exact ⟨_, _, _, hshows, hfinished, hlast, Nat.le_refl _, hpass⟩

/-- **A sweep over the heads is a sweep over their stacks.** -/
theorem Shows.sweep {l : Language σ} {start stop : Nat} (hlt : start < stop) {size : Nat}
    (hsize : stepLimit ≤ size) {done result : List (Status × Thread σ)}
    {queue : List (Thread σ)} (h : Sweeps l start stop done queue result)
    (hfew : result.length ≤ headLimit + headOverflow) :
    ∀ {p : Parser σ} {last fuel : Nat}, p.Shows (done ++ queue.map (.active, ·)) →
      last ≤ stop → (done = [] → last ≤ start) →
      2 * (result.length - done.length) < fuel →
      ∃ last' p', Parser.sweep l size fuel done.length last p = (last', p') ∧ last' ≤ stop ∧
        p'.Shows result ∧ p'.finished = p.finished := by
  induction h with
  | @nil done =>
    intro p last fuel hp hlast hfirst hfuel
    obtain ⟨fuel, rfl⟩ : ∃ k, fuel = k + 1 := ⟨fuel - 1, by omega⟩
    rw [List.map_nil, List.append_nil] at hp
    refine ⟨last, p, ?_, hlast, hp, rfl⟩
    rw [Parser.sweep, Array.getElem?_eq_none (Nat.le_of_eq hp.length_eq)]
  | @cons done result t queue branches out h hplace hrest ih =>
    intro p last fuel hp hlast hfirst hfuel
    have hlength := hrest.length_le
    simp only [List.length_append, List.length_singleton] at hlength
    -- a head that is stuck is looked at twice
    obtain ⟨fuel, rfl⟩ : ∃ k, fuel = k + 2 := ⟨fuel - 2, by omega⟩
    obtain ⟨p', now, fuel', hshows, hfinished, hnow, hfuel', hstep⟩ :=
      Shows.sweep_cons hlt hsize hp h hplace (by omega) hlast hfirst fuel
    have hfuel'' : 2 * (result.length - (done ++ [out]).length) < fuel' := by
      simp only [List.length_append, List.length_singleton]
      omega
    obtain ⟨last', p'', hsweep, hlast', hresult, hkept⟩ := ih hfew hshows hnow (by simp) hfuel''
    rw [List.length_append, List.length_singleton] at hsweep
    exact ⟨last', p'', hstep.trans hsweep, hlast', hresult, hkept.trans hfinished⟩

/-! ## Between rounds -/

/-- A head that is apart from those in order and weighs no more goes behind them. -/
theorem settleAmong_eq {p : Parser σ} {h : Head} {t : Thread σ} (ht : p.stack.Holds h.vertex t) :
    ∀ {ahead : List Head} {ts : List (Thread σ)} (done : List Head),
      List.Forall₂ (Tops p.stack) ahead (ts.map (.active, ·)) → (∀ u ∈ ts, u.Apart t) →
      (∀ u ∈ ts, t.weight ≤ u.weight) →
      settleAmong t.weight ahead done h p = (done.reverse ++ ahead ++ [h], p) := by
  intro ahead
  induction ahead with
  | nil =>
    intro ts done _ _ _
    simp [settleAmong]
  | cons other rest ih =>
    intro ts done hts hapart hweight
    cases ts with
    | nil => cases hts
    | cons u us =>
      cases hts with
      | cons hu hus =>
        have hagree := hu.2.agree_eq_false ht (hapart u List.mem_cons_self)
        have hle := hweight u List.mem_cons_self
        rw [settleAmong, hagree, hu.2.weight, if_neg (by simp), if_neg (by simp; omega),
          ih (other :: done) hus (fun v hv => hapart v (List.mem_cons_of_mem _ hv))
            fun v hv => hweight v (List.mem_cons_of_mem _ hv)]
        simp

theorem foldl_settleAmong {p : Parser σ} {ahead hs : List Head} {ts us : List (Thread σ)}
    (hts : List.Forall₂ (Tops p.stack) ahead (ts.map (.active, ·)))
    (hus : List.Forall₂ (Tops p.stack) hs (us.map (.active, ·)))
    (hapart : (ts ++ us).Pairwise Thread.Apart)
    (hsorted : (ts ++ us).Pairwise fun t u => u.weight ≤ t.weight) :
    hs.foldl (fun (heads, p) h => settleAmong (p.stack.weight h.vertex) heads [] h p) (ahead, p) =
      (ahead ++ hs, p) := by
  induction hs generalizing ahead ts us with
  | nil => simp
  | cons h hs ih =>
    cases us with
    | nil => cases hus
    | cons u us =>
      cases hus with
      | cons hu hus =>
        have hapart' : ∀ v ∈ ts, v.Apart u := fun v hv =>
          (List.pairwise_append.1 hapart).2.2 v hv u List.mem_cons_self
        have hweight : ∀ v ∈ ts, u.weight ≤ v.weight := fun v hv =>
          (List.pairwise_append.1 hsorted).2.2 v hv u List.mem_cons_self
        have hstep : settleAmong (p.stack.weight h.vertex) ahead [] h p = (ahead ++ [h], p) := by
          rw [hu.2.weight, settleAmong_eq hu.2 [] hts hapart' hweight]
          simp
        simp only [List.foldl_cons, hstep]
        have hts' : List.Forall₂ (Tops p.stack) (ahead ++ [h]) ((ts ++ [u]).map (.active, ·)) := by
          rw [List.map_append]
          exact List.rel_append hts (.cons hu .nil)
        rw [ih hts' hus (by simpa using hapart) (by simpa using hsorted)]
        simp

/-- **Stacks that are ranked are kept** with the heads that are still active. -/
theorem Shows.condense {p : Parser σ} {ts : List (Status × Thread σ)} (hp : p.Shows ts)
    (hranked : Ranked (actives ts)) :
    p.condense.Shows ((actives ts).map (.active, ·)) ∧ p.condense.finished = p.finished := by
  have hactive := forall₂_filter_active hp
  have hnone : List.Forall₂ (Tops p.stack) [] (([] : List (Thread σ)).map (.active, ·)) := .nil
  have hfold := foldl_settleAmong (p := { p with heads := #[] }) hnone hactive hranked.apart
    hranked.sorted
  have hlength : (p.heads.toList.filter (·.status == .active)).length ≤ headLimit := by
    rw [hactive.length_eq, List.length_map]
    exact hranked.few
  have hcondense : p.condense =
      { p with heads := (p.heads.toList.filter (·.status == .active)).toArray } := by
    rw [Parser.condense, hfold]
    simp [List.take_of_length_le hlength]
  rw [hcondense]
  exact ⟨by simpa [Shows] using hactive, rfl⟩

end Parser

/-! ## Runs -/

section

variable [BEq σ] [LawfulBEq σ]

/-- A parser whose heads are the tops of these stacks at a place finds a reading of the whole text,
if it is given a round for each piece of text that is left. -/
def Succeeds (l : Language σ) (size : Nat) (c : Cursor) (ts : List (Thread σ)) (whole : Reading) :
    Prop :=
  ∀ (p : Parser σ) (last fuel : Nat), p.Shows (ts.map (.active, ·)) → p.finished = none →
    last ≤ c.offset → c.rest.length + 2 ≤ fuel → Parser.run l size fuel last p = some whole

variable {l : Language σ} {size : Nat} {c d : Cursor} {whole : Reading}

/-- One round. -/
theorem Succeeds.round {ts : List (Thread σ)} {result : List (Status × Thread σ)}
    (hsize : stepLimit ≤ size) (h : Sweeps l c.offset d.offset [] ts result)
    (hlt : c.offset < d.offset) (hrest : d.rest.length < c.rest.length)
    (hfew : result.length ≤ headLimit + headOverflow)
    (hranked : Ranked (Parser.actives result)) (hne : Parser.actives result ≠ [])
    (hnext : Succeeds l size d (Parser.actives result) whole) :
    Succeeds l size c ts whole := by
  intro p last fuel hp hfinished hlast hfuel
  obtain ⟨fuel, rfl⟩ : ∃ k, fuel = k + 1 := ⟨fuel - 1, by omega⟩
  obtain ⟨last', p', hsweep, hlast', hresult, hkept⟩ :=
    Parser.Shows.sweep hlt hsize h hfew (p := p) hp (show last ≤ d.offset by omega)
      (fun _ => hlast) (show 2 * (result.length - 0) < size by
        simp only [headLimit, headOverflow, stepLimit] at *
        omega)
  obtain ⟨hshows, hfinished'⟩ := hresult.condense hranked
  have hheads : p'.condense.heads.isEmpty = false := by
    have hlength := hshows.length_eq
    rw [List.length_map] at hlength
    have hpos := List.length_pos_iff.2 hne
    rw [Array.isEmpty, decide_eq_false_iff_not]
    omega
  rw [Parser.run]
  simp only [List.length_nil] at hsweep
  simp only [hsweep, hheads]
  exact hnext _ _ _ hshows (hfinished'.trans (hkept.trans hfinished)) hlast' (by omega)

/-! ### Single stacks -/

/-- The second cursor is further on in the text. -/
structure Further (c d : Cursor) : Prop where
  offset : c.offset < d.offset
  rest : d.rest.length < c.rest.length

variable {t u : Thread σ} {token : Token} {steps : Nat}

/-- A single stack reduces and shifts a token. -/
theorem Succeeds.shift {next : σ} (hsize : stepLimit ≤ size)
    (htoken : l.token? (l.expects t.state) c = some token) (hextra : token.extra = false)
    (hc : t.cursor = c) (hcloses : Closes l token.symbol steps t u) (hsteps : steps < stepLimit)
    (hshift : l.automaton.actions u.state token.symbol = [.shift next])
    (hfurther : Further c token.stop)
    (hnext : Succeeds l size token.stop [u.shift l token next] whole) :
    Succeeds l size c [t] whole := by
  have htakes : Takes l token stepLimit [] t (.active, u.shift l token next) [] :=
    (Takes.of_closes hcloses (Takes.shift hshift : Takes l token (0 + 1) [] u _ [])).mono hsteps
  have hsweeps : Sweeps l c.offset token.stop.offset [] [t]
      [(.active, u.shift l token next)] :=
    .cons (.takes (hc ▸ htoken) hextra htakes) (.inl ⟨rfl, rfl⟩) .nil
  exact .round hsize hsweeps hfurther.offset hfurther.rest (by simp [headLimit, headOverflow])
    ⟨by simp, by simp, by simp [headLimit]⟩ (by simp) hnext

/-- A parser with a single stack that reduces and accepts. -/
theorem Parser.Shows.take_closes {p : Parser σ} (hextra : token.extra = false)
    (hp : p.Shows [(.active, t)]) (h : Closes l token.symbol steps t u) {fuel : Nat}
    (hfuel : steps < fuel) :
    ∃ p' fuel', Parser.Shows p' [(.active, u)] ∧ p'.finished = p.finished ∧
      p.take l 0 fuel token = p'.take l 0 (fuel' + 1) token := by
  induction h generalizing p fuel with
  | refl => exact ⟨p, fuel - 1, hp, rfl, by rw [Nat.sub_add_cancel (by omega)]⟩
  | step h hreduces _ ih =>
    obtain ⟨fuel, rfl⟩ : ∃ k, fuel = k + 1 := ⟨fuel - 1, by omega⟩
    obtain ⟨p', hp', hfinished, htake⟩ :=
      Shows.take_reduce hextra (show p.Shows ([] ++ _ :: []) from hp) h hreduces (by simp)
        (by simp [headLimit, headOverflow]) fuel
    obtain ⟨q, fuel', hq, hkept, htake'⟩ := ih hp' (Nat.lt_of_succ_lt_succ hfuel)
    exact ⟨q, fuel', hq, hkept.trans hfinished, htake.trans htake'⟩

omit [LawfulBEq σ] in
/-- A head that accepts is done and gives the reading of the whole text. -/
theorem Parser.Shows.take_accept {p : Parser σ} (hextra : token.extra = false)
    (hp : p.Shows [(.active, u)]) (hfinished : p.finished = none)
    (haccept : l.automaton.actions u.state token.symbol = [.accept])
    (hwhole : Parser.wholeOf? (u.readings []) = some whole) (fuel : Nat) :
    (p.take l 0 (fuel + 1) token).Shows [(.done, u)] ∧
      (p.take l 0 (fuel + 1) token).finished = some whole := by
  obtain ⟨hpre, h, hpost, hh⟩ := Shows.headOf (show p.Shows ([] ++ _ :: []) from hp)
  obtain ⟨v, hv, hstate, -⟩ := hh.top?
  obtain ⟨m, hways⟩ := hh.top.2.pop_all
  rw [List.length_nil] at hv
  have htake : p.take l 0 (fuel + 1) token =
      Parser.mark { p with finished := some whole } 0 .done := by
    rw [Parser.take, hv]
    simp only [hextra, hstate, haccept, Parser.reduceAll, List.getLast?_singleton, Parser.accept]
    have htop : p.topNumber 0 = h.vertex := hh.topNumber
    rw [htop, hways, List.foldl_cons, List.foldl_nil, hfinished, hwhole]
    rfl
  rw [htake]
  exact ⟨(Parser.HeadOf.mark (p := { p with finished := some whole })
    ⟨hh.heads, hh.length, hh.before, hh.top, hh.behind⟩ .done).shows, rfl⟩

omit [LawfulBEq σ] in
/-- A sweep is over when the only head is done. -/
theorem Parser.Shows.sweep_done {p q : Parser σ} (hp : p.Shows [(.active, t)])
    (hadvance : p.advance l size 0 = q) (hq : q.Shows [(.done, u)]) (fuel last : Nat) :
    ∃ last', p.sweep l size (fuel + 3) 0 last = (last', q) := by
  obtain ⟨_, h, _, hh⟩ := Shows.headOf (show p.Shows ([] ++ _ :: []) from hp)
  obtain ⟨_, k, _, hk⟩ := Shows.headOf (show q.Shows ([] ++ _ :: []) from hq)
  have hget : p.heads[0]? = some h := hh.get
  have hget' : q.heads[0]? = some k := hk.get
  have hend : q.heads[1]? = none := Array.getElem?_eq_none (Nat.le_of_eq hq.length_eq)
  have hstop : ∀ last' fuel', q.sweep l size (fuel' + 1) 1 last' = (last', q) := by
    intro last' fuel'
    rw [Parser.sweep, hend]
  have hstep : p.sweep l size (fuel + 3) 0 last =
      if last < q.offset 0 || (0 < 0 && last == q.offset 0) then
        q.sweep l size (fuel + 2) 1 (q.offset 0)
      else q.sweep l size (fuel + 2) 0 last := by
    rw [Parser.sweep, hget]
    simp only [hh.top.1, hadvance]
    rfl
  have hpass : q.sweep l size (fuel + 2) 0 last = q.sweep l size (fuel + 1) 1 last := by
    rw [Parser.sweep, hget']
    simp only [hk.top.1]
    rfl
  rw [hstep]
  split
  · exact ⟨_, hstop _ _⟩
  · exact ⟨_, hpass.trans (hstop _ _)⟩

/-- A single stack reduces and accepts. -/
theorem Succeeds.accept (hsize : stepLimit ≤ size)
    (htoken : l.token? (l.expects t.state) c = some token) (hextra : token.extra = false)
    (hc : t.cursor = c) (hcloses : Closes l token.symbol steps t u) (hsteps : steps < stepLimit)
    (haccept : l.automaton.actions u.state token.symbol = [.accept])
    (hwhole : Parser.wholeOf? (u.readings []) = some whole) : Succeeds l size c [t] whole := by
  intro p last fuel hp hfinished hlast hfuel
  obtain ⟨fuel, rfl⟩ : ∃ k, fuel = k + 1 := ⟨fuel - 1, by omega⟩
  obtain ⟨size, rfl⟩ : ∃ k, size = k + 3 := ⟨size - 3, by simp only [stepLimit] at hsize; omega⟩
  obtain ⟨p', fuel', hp', hkept, htake⟩ :=
    Parser.Shows.take_closes hextra hp hcloses (show steps < size + 3 by omega)
  obtain ⟨hdone, hwhole'⟩ :=
    hp'.take_accept hextra (hkept.trans hfinished) haccept hwhole fuel'
  rw [← htake] at hdone hwhole'
  obtain ⟨_, _, _, hh⟩ := Parser.Shows.headOf (show p.Shows ([] ++ _ :: []) from hp)
  have hadvance : p.advance l (size + 3) 0 = p.take l 0 (size + 3) token := by
    have heq := hh.advance_eq (l := l) (size + 3)
    simpa only [hc, htoken, List.length_nil] using heq
  obtain ⟨last', hsweep⟩ := Parser.Shows.sweep_done hp hadvance hdone size last
  obtain ⟨hempty, hkept'⟩ := hdone.condense ⟨.nil, .nil, Nat.zero_le _⟩
  have hheads : (p.take l 0 (size + 3) token).condense.heads.isEmpty = true := by
    rw [Array.isEmpty, hempty.length_eq]
    rfl
  rw [Parser.run]
  simp only [hsweep, hheads]
  exact hkept'.trans hwhole'

omit [LawfulBEq σ] in
/-- **A text has a reading if a single stack at its start succeeds.** -/
theorem Language.parse?_of_succeeds (l : Language σ) {text : Cursor}
    (h : Succeeds l (64 * (text.rest.length + 4)) text [.bottom l.automaton.start text] whole) :
    l.parse? text = some whole := by
  refine h _ _ _ (.cons ⟨rfl, .bottom ?_⟩ .nil) rfl (Nat.zero_le _) (by omega)
  rfl

end

end GoGlobals.Grammar
