import CacosPds.Lib.Run
import CacosPds.Lib.Seen
import CacosPds.Lib.Table
/-!
# The DPoP replay store (`oauth_store.rs:736-835`)

| here | there |
| --- | --- |
| `DpopReplay`    | the table `dpop_replay`: `expires_at` under the `jti` |
| `consume`       | `DbBackedReplayStore::consume`: `INSERT … ON CONFLICT (jti) DO NOTHING` in a thread of its own |
| `pruneExpired`  | `DbBackedReplayStore::prune_expired`: `DELETE … WHERE expires_at < ?1` |
| `step`          | the callers, and `schedule_dpop_replay_prune` (`cacos-pds-oauth/src/mod.rs:175-199`) |

A call reads the clock when it begins, and its statement runs at some later time. `consume` does
not look at the time it is given: a row that is past its expiry refuses its `jti` until a prune has
taken it away (`expired_row_refuses`), which is how the repository's test has it. What holds is
`Protects` (`protects_of_run`).
-/
namespace CacosPds.Account.Replay

open Sql Runs

/-! ## The statements -/

abbrev DpopReplay := Table String Int

/-- `secs as i64`. -/
def asI64 (secs : Nat) : Int := (BitVec.ofNat 64 secs).toInt

theorem asI64_eq {secs : Nat} (h : secs < 2 ^ 63) : asI64 secs = secs := by
  rw [asI64, BitVec.toInt_ofNat']
  exact Int.bmod_eq_of_le (by omega) (by omega)

/-- What goes wrong with a statement: the database, or the thread that waits for it. -/
inductive Fault where
  | db (message : String)
  | thread
  deriving DecidableEq

/-- The time is not looked at. -/
def consume (fault : Option Fault) (jti : String) (exp _now : Nat) (rows : DpopReplay) :
    Bool × DpopReplay :=
  match fault with
  | some _ => (false, rows)
  | none => (decide (jti ∉ rows), rows.insertIgnore jti (asI64 exp))

def pruneExpired (fault : Option Fault) (now : Nat) (rows : DpopReplay) :
    Except Fault Nat × DpopReplay :=
  let expired := fun (_ : String) expiresAt => decide (expiresAt < asI64 now)
  match fault with
  | some fault => (.error fault, rows)
  | none => (.ok (Multiset.card (rows.select expired fun jti _ => jti)), rows.deleteWhere expired)

/-! ## Calls -/

/-- A call whose statement has not run yet. -/
inductive Pending where
  | consume (jti : String) (exp now : Nat)
  | prune (now : Nat)
  deriving DecidableEq

def Pending.now : Pending → Nat
  | .consume _ _ now | .prune now => now

/-- A `consume` whose statement has run at `time`. -/
structure Consumed where
  jti : String
  exp : Nat
  time : Nat
  fault : Option Fault
  answer : Bool
  deriving DecidableEq

inductive Entry where
  | consumed (c : Consumed)
  | pruned (now : Nat) (result : Except Fault Nat)
  deriving DecidableEq

structure Store where
  clock : Nat
  rows : DpopReplay
  pending : List Pending
  /-- In the order in which the database runs them. -/
  log : List Entry

inductive Act where
  | wait (time : Nat)
  | consume (jti : String) (exp : Nat)
  | prune
  | run (i : Nat) (fault : Option Fault)

def perform (s : Store) (fault : Option Fault) : Pending → Store
  | .consume jti exp now =>
    let result := consume fault jti exp now s.rows
    { s with rows := result.2, log := s.log ++ [.consumed ⟨jti, exp, s.clock, fault, result.1⟩] }
  | .prune now =>
    let result := pruneExpired fault now s.rows
    { s with rows := result.2, log := s.log ++ [.pruned now result.1] }

/-- The clock does not go back; it and the expiries stay below `2 ^ 63`. -/
def step (s : Store) : Act → Option Store
  | .wait time => if s.clock ≤ time ∧ time < 2 ^ 63 then some { s with clock := time } else none
  | .consume jti exp =>
    if exp < 2 ^ 63 then some { s with pending := s.pending ++ [.consume jti exp s.clock] }
    else none
  | .prune => some { s with pending := s.pending ++ [.prune s.clock] }
  | .run i fault => s.pending[i]?.map fun call =>
      { perform s fault call with pending := s.pending.eraseIdx i }

def start (rows : DpopReplay) : Store := ⟨0, rows, [], []⟩

/-! ## What the store owes -/

def Entry.accepts (jti : String) : Entry → Bool
  | .consumed c => decide (c.jti = jti) && c.answer
  | .pruned .. => false

/-- Some `consume` of the `jti` gets through to the database. -/
def Arrives (jti : String) (log : List Entry) : Prop :=
  ∃ c, .consumed c ∈ log ∧ c.jti = jti ∧ c.fault = none

/-- No prune is later than an expiry that the `consume`s of the `jti` come with. -/
def NoneOutlived (jti : String) (log : List Entry) : Prop :=
  ∀ now n, .pruned now (.ok n) ∈ log →
    ∀ c, .consumed c ∈ log → c.jti = jti → c.fault = none → now ≤ c.exp

/-- What holds from one state of a run to a later one; `during` is what has run between. -/
structure Protects (s t : Store) (during : List Entry) : Prop where
  log : t.log = s.log ++ during
  /-- A `jti` accepted with an expiry is not accepted again up to it. -/
  once : ∀ before mid after c c', t.log = before ++ .consumed c :: (mid ++ .consumed c' :: after) →
    c'.jti = c.jti → c.answer = true → c'.time ≤ c.exp → c'.answer = false
  /-- Of those who come with a fresh `jti` exactly one is accepted. -/
  oneOf : ∀ jti, s.rows.lookup jti = none → Arrives jti during → NoneOutlived jti during →
    during.countP (Entry.accepts jti) = 1
  /-- After a prune that finds its row expired, a `jti` is accepted. -/
  again : ∀ now n mid c after expiresAt,
    during = .pruned now (.ok n) :: (mid ++ .consumed c :: after) →
    s.rows.lookup c.jti = some expiresAt → expiresAt < now →
    (∀ e ∈ mid, e.accepts c.jti = false) → c.fault = none → c.answer = true
  failure : ∀ c, .consumed c ∈ t.log → c.fault ≠ none → c.answer = false

/-! ## The rows are the memory of what has run -/

/-- A statement that fails leaves no trace. -/
def Entry.event : Entry → Option (Seen.Event String Int)
  | .consumed c =>
    match c.fault with
    | none => some (.see c.jti (asI64 c.exp) c.time c.answer)
    | some _ => none
  | .pruned now (.ok _) => some (.sweep (asI64 now))
  | .pruned _ (.error _) => none

def history (log : List Entry) : List (Seen.Event String Int) := log.filterMap Entry.event

theorem history_append (log log' : List Entry) :
    history (log ++ log') = history log ++ history log' := List.filterMap_append

theorem event_consumed {c : Consumed} (h : c.fault = none) :
    (Entry.consumed c).event = some (.see c.jti (asI64 c.exp) c.time c.answer) := by
  simp only [Entry.event, h]

theorem event_failed {c : Consumed} (h : c.fault ≠ none) : (Entry.consumed c).event = none := by
  obtain ⟨fault, hfault⟩ := Option.ne_none_iff_exists'.1 h
  simp only [Entry.event, hfault]

theorem history_consumed {c : Consumed} (h : c.fault = none) (log : List Entry) :
    history (.consumed c :: log) = .see c.jti (asI64 c.exp) c.time c.answer :: history log :=
  List.filterMap_cons_some (event_consumed h)

theorem mem_history {log : List Entry} {e : Seen.Event String Int} (h : e ∈ history log) :
    (∃ c, .consumed c ∈ log ∧ c.fault = none ∧ e = .see c.jti (asI64 c.exp) c.time c.answer) ∨
      ∃ now n, .pruned now (.ok n) ∈ log ∧ e = .sweep (asI64 now) := by
  obtain ⟨entry, hentry, he⟩ := List.mem_filterMap.1 h
  cases entry with
  | consumed c =>
    by_cases hfault : c.fault = none
    · rw [event_consumed hfault] at he
      exact .inl ⟨c, hentry, hfault, (Option.some.inj he).symm⟩
    · rw [event_failed hfault] at he
      cases he
  | pruned now result =>
    cases result with
    | error fault => cases he
    | ok n => exact .inr ⟨now, n, hentry, (Option.some.inj he).symm⟩

/-- What the table keeps. -/
def kept (rows : DpopReplay) : Seen.Memory String Int := fun jti => rows.lookup jti

/-- A `consume` sees its `jti`. -/
theorem kept_consume (jti : String) (exp now : Nat) (rows : DpopReplay) (time : Int)
    (fresh : Bool) :
    kept (consume none jti exp now rows).2 =
      Seen.after (kept rows) (.see jti (asI64 exp) time fresh) := by
  have hlookup : ∀ j, kept (consume none jti exp now rows).2 j =
      if j = jti then some ((kept rows jti).getD (asI64 exp)) else kept rows j :=
    fun j => Table.lookup_insertIgnore rows jti j (asI64 exp)
  funext j
  rw [hlookup]
  dsimp only [Seen.after]
  cases hrow : kept rows jti with
  | some row =>
    rw [Option.isSome_some, if_pos rfl]
    by_cases hj : j = jti
    · rw [if_pos hj, hj, hrow]
      rfl
    · rw [if_neg hj]
  | none =>
    rw [Option.isSome_none, if_neg Bool.false_ne_true]
    by_cases hj : j = jti
    · rw [if_pos hj, hj, Function.update_self]
      rfl
    · rw [if_neg hj, Function.update_of_ne hj]

theorem answer_consume (jti : String) (exp now : Nat) (rows : DpopReplay) :
    (consume none jti exp now rows).1 = (kept rows jti).isNone := by
  show decide (jti ∉ rows) = (rows.lookup jti).isNone
  cases hrow : rows.lookup jti with
  | none => exact decide_eq_true (Finmap.lookup_eq_none.1 hrow)
  | some row => exact decide_eq_false (not_not.2 (Finmap.mem_iff.2 ⟨row, hrow⟩))

/-- A prune sweeps. -/
theorem kept_pruneExpired (now : Nat) (rows : DpopReplay) :
    kept (pruneExpired none now rows).2 = Seen.after (kept rows) (.sweep (asI64 now)) := by
  funext j
  show (rows.deleteWhere _).lookup j = (rows.lookup j).filter _
  cases hrow : rows.lookup j with
  | none =>
    rw [Table.lookup_deleteWhere_eq_none.2 fun r hr => by cases hrow.symm.trans hr]
    rfl
  | some expiresAt =>
    by_cases hlt : expiresAt < asI64 now
    · rw [Option.filter_some_neg (by simpa using hlt), Table.lookup_deleteWhere_eq_none]
      intro r hr
      obtain rfl := Option.some.inj (hrow.symm.trans hr)
      exact decide_eq_true hlt
    · rw [Option.filter_some_pos (by simpa using hlt), Table.lookup_deleteWhere_eq_some]
      exact ⟨hrow, decide_eq_false hlt⟩

/-! ## The invariant -/

structure Entry.Bounded (clock : Nat) (e : Entry) : Prop where
  consumed : ∀ c, e = .consumed c → c.exp < 2 ^ 63 ∧ c.time ≤ clock ∧
    (c.fault ≠ none → c.answer = false)
  pruned : ∀ now result, e = .pruned now result → now ≤ clock

/-- The table started from these rows. -/
structure Good (given : DpopReplay) (s : Store) : Prop where
  rows : kept s.rows = Seen.memory (kept given) (history s.log)
  legal : Seen.Legal (kept given) (history s.log)
  timely : Seen.Timely (history s.log)
  clock : s.clock < 2 ^ 63
  pending : ∀ call ∈ s.pending, call.now ≤ s.clock ∧ ∀ jti exp now, call = .consume jti exp now →
    exp < 2 ^ 63
  log : ∀ e ∈ s.log, e.Bounded s.clock

theorem good_start (given : DpopReplay) : Good given (start given) where
  rows := rfl
  legal := Seen.legal_nil _
  timely := List.Pairwise.nil
  clock := Nat.two_pow_pos 63
  pending := nofun
  log := nofun

theorem Entry.Bounded.mono {clock clock' : Nat} {e : Entry} (h : e.Bounded clock)
    (hle : clock ≤ clock') : e.Bounded clock' where
  consumed c hc := by
    obtain ⟨hexp, htime, hfault⟩ := h.consumed c hc
    exact ⟨hexp, htime.trans hle, hfault⟩
  pruned now result he := (h.pruned now result he).trans hle

/-- The sweeps so far are behind the clock. -/
theorem Good.sweep_le {given : DpopReplay} {s : Store} (h : Good given s) {n : Int}
    (hn : .sweep n ∈ history s.log) : n ≤ s.clock := by
  rcases mem_history hn with ⟨c, -, -, hc⟩ | ⟨now, m, hmem, hsweep⟩
  · cases hc
  · cases hsweep
    have hle := (h.log _ hmem).pruned now _ rfl
    rw [asI64_eq (lt_of_le_of_lt hle h.clock)]
    exact_mod_cast hle

theorem Good.concat {given : DpopReplay} {s t : Store} {entry : Entry} (h : Good given s)
    (hclock : t.clock = s.clock) (hlog : t.log = s.log ++ [entry])
    (hpending : ∀ call ∈ t.pending, call ∈ s.pending) (hbounded : entry.Bounded s.clock)
    (hfails : entry.event = none → t.rows = s.rows)
    (hruns : ∀ e, entry.event = some e →
      kept t.rows = Seen.after (kept s.rows) e ∧ Seen.Answers (kept s.rows) e ∧
        ∀ k till now fresh, e = .see k till now fresh → now = s.clock) :
    Good given t where
  rows := by
    rw [hlog, history_append]
    cases hevent : entry.event with
    | none =>
      rw [hfails hevent, h.rows]
      simp [history, hevent]
    | some e =>
      have hsingle : history [entry] = [e] := by simp [history, hevent]
      rw [hsingle, Seen.memory_append, ← h.rows, (hruns e hevent).1]
      rfl
  legal := by
    rw [hlog, history_append]
    cases hevent : entry.event with
    | none =>
      have hempty : history [entry] = [] := by simp [history, hevent]
      rw [hempty, List.append_nil]
      exact h.legal
    | some e =>
      have hsingle : history [entry] = [e] := by simp [history, hevent]
      rw [hsingle]
      refine h.legal.concat ?_
      rw [← h.rows]
      exact (hruns e hevent).2.1
  timely := by
    rw [hlog, history_append, Seen.Timely, List.pairwise_append]
    refine ⟨h.timely, by cases hevent : entry.event <;> simp [history, hevent], ?_⟩
    rintro _ hsweep e he n rfl k till now fresh rfl
    have hevent : entry.event = some (.see k till now fresh) := by
      obtain ⟨entry', hmem, hevent⟩ := List.mem_filterMap.1 he
      rwa [List.mem_singleton.1 hmem] at hevent
    rw [(hruns _ hevent).2.2 k till now fresh rfl]
    exact h.sweep_le hsweep
  clock := by
    rw [hclock]
    exact h.clock
  pending call hcall := by
    rw [hclock]
    exact h.pending call (hpending call hcall)
  log e he := by
    rw [hclock]
    rw [hlog, List.mem_append, List.mem_singleton] at he
    rcases he with he | rfl
    · exact h.log e he
    · exact hbounded

theorem Good.run {given : DpopReplay} {s : Store} (h : Good given s) {i : Nat} {call : Pending}
    (hcall : s.pending[i]? = some call) (fault : Option Fault) :
    Good given { perform s fault call with pending := s.pending.eraseIdx i } := by
  have hmem : call ∈ s.pending := List.mem_of_getElem? hcall
  have hsub : ∀ c ∈ s.pending.eraseIdx i, c ∈ s.pending := fun c hc => List.mem_of_mem_eraseIdx hc
  obtain ⟨hnow, hexp⟩ := h.pending call hmem
  cases call with
  | consume jti exp now =>
    refine h.concat rfl rfl hsub ⟨?_, nofun⟩ ?_ ?_
    · intro c hc
      cases hc
      refine ⟨hexp jti exp now rfl, le_rfl, fun hfault => ?_⟩
      cases fault with
      | none => exact absurd rfl hfault
      | some fault => rfl
    · intro hevent
      cases fault with
      | none => cases hevent
      | some fault => rfl
    · intro e hevent
      cases fault with
      | some fault => cases hevent
      | none =>
        cases hevent
        refine ⟨kept_consume jti exp now s.rows _ _, answer_consume jti exp now s.rows, ?_⟩
        rintro _ _ _ _ h
        cases h
        rfl
  | prune now =>
    refine h.concat rfl rfl hsub ⟨nofun, ?_⟩ ?_ ?_
    · intro now' result hresult
      cases hresult
      exact hnow
    · intro hevent
      cases fault with
      | none => cases hevent
      | some fault => rfl
    · intro e hevent
      cases fault with
      | some fault => cases hevent
      | none =>
        cases hevent
        exact ⟨kept_pruneExpired now s.rows, trivial, nofun⟩

theorem good_step {given : DpopReplay} {s t : Store} {a : Act} (h : Good given s)
    (hstep : step s a = some t) : Good given t := by
  cases a with
  | wait time =>
    obtain ⟨htime, hsame⟩ := Option.ite_none_right_eq_some.1 hstep
    cases hsame
    refine { h with clock := htime.2, pending := fun call hcall => ?_, log := fun e he => ?_ }
    · exact ⟨(h.pending call hcall).1.trans htime.1, (h.pending call hcall).2⟩
    · exact (h.log e he).mono htime.1
  | consume jti exp =>
    obtain ⟨hexp, hsame⟩ := Option.ite_none_right_eq_some.1 hstep
    cases hsame
    refine { h with pending := fun call hcall => ?_ }
    rcases List.mem_append.1 hcall with hcall | hcall
    · exact h.pending call hcall
    · obtain rfl := List.mem_singleton.1 hcall
      refine ⟨le_rfl, fun _ _ _ hsame => ?_⟩
      cases hsame
      exact hexp
  | prune =>
    cases hstep
    refine { h with pending := fun call hcall => ?_ }
    rcases List.mem_append.1 hcall with hcall | hcall
    · exact h.pending call hcall
    · obtain rfl := List.mem_singleton.1 hcall
      exact ⟨le_rfl, nofun⟩
  | run i fault =>
    obtain ⟨call, hcall, rfl⟩ := Option.map_eq_some_iff.1 hstep
    exact h.run hcall fault

/-! ## The law -/

theorem log_of_step {s t : Store} {a : Act} (h : step s a = some t) :
    ∃ during, t.log = s.log ++ during := by
  cases a with
  | wait time =>
    obtain ⟨-, hsame⟩ := Option.ite_none_right_eq_some.1 h
    cases hsame
    exact ⟨[], (List.append_nil _).symm⟩
  | consume jti exp =>
    obtain ⟨-, hsame⟩ := Option.ite_none_right_eq_some.1 h
    cases hsame
    exact ⟨[], (List.append_nil _).symm⟩
  | prune =>
    cases h
    exact ⟨[], (List.append_nil _).symm⟩
  | run i fault =>
    obtain ⟨call, -, rfl⟩ := Option.map_eq_some_iff.1 h
    cases call with
    | consume jti exp now => exact ⟨_, rfl⟩
    | prune now => exact ⟨_, rfl⟩

theorem log_of_run {s t : Store} {as : List Act} (h : run step s as = some t) :
    ∃ during, t.log = s.log ++ during := by
  induction as generalizing s with
  | nil =>
    cases h
    exact ⟨[], (List.append_nil _).symm⟩
  | cons a as ih =>
    obtain ⟨u, hu, hrest⟩ := run_cons_some h
    obtain ⟨first, hfirst⟩ := log_of_step hu
    obtain ⟨rest, hlog⟩ := ih hrest
    exact ⟨first ++ rest, by rw [hlog, hfirst, List.append_assoc]⟩

theorem Good.once {given : DpopReplay} {t : Store} (h : Good given t)
    {before mid after : List Entry} {c c' : Consumed}
    (hlog : t.log = before ++ .consumed c :: (mid ++ .consumed c' :: after))
    (hjti : c'.jti = c.jti) (hanswer : c.answer = true) (htime : c'.time ≤ c.exp) :
    c'.answer = false := by
  have hc := (h.log (.consumed c) (by simp [hlog])).consumed c rfl
  have hc' := (h.log (.consumed c') (by simp [hlog])).consumed c' rfl
  by_cases hfault' : c'.fault = none
  swap
  · exact hc'.2.2 hfault'
  have hfault : c.fault = none := by
    by_contra hfault
    rw [hc.2.2 hfault] at hanswer
    cases hanswer
  have hhistory : history t.log = history before ++ .see c.jti (asI64 c.exp) c.time true ::
      (history mid ++ .see c.jti (asI64 c'.exp) c'.time c'.answer :: history after) := by
    rw [hlog, history_append, history_consumed hfault, history_append, history_consumed hfault',
      hanswer, hjti]
  have hlegal := h.legal
  have htimely := h.timely
  rw [hhistory] at hlegal htimely
  refine hlegal.once htimely ?_
  rw [asI64_eq hc.1]
  exact_mod_cast htime

/-- Fresh answers are those that are accepted. -/
theorem countP_history {jti : String} {clock : Nat} {log : List Entry}
    (h : ∀ e ∈ log, e.Bounded clock) :
    (history log).countP (Seen.Event.IsFresh jti) = log.countP (Entry.accepts jti) := by
  induction log with
  | nil => rfl
  | cons e log ih =>
    have hrest := ih fun e he => h e (List.mem_cons_of_mem _ he)
    cases e with
    | consumed c =>
      by_cases hfault : c.fault = none
      · rw [history_consumed hfault, List.countP_cons, List.countP_cons, hrest]
        rfl
      · have hanswer := ((h _ List.mem_cons_self).consumed c rfl).2.2 hfault
        have hgone : history (.consumed c :: log) = history log :=
          List.filterMap_cons_none (event_failed hfault)
        rw [hgone, hrest, List.countP_cons_of_neg]
        simp [Entry.accepts, hanswer]
    | pruned now result =>
      rw [List.countP_cons_of_neg (by simp [Entry.accepts]), ← hrest]
      cases result with
      | error fault => rfl
      | ok n =>
        have hsweep : history (.pruned now (.ok n) :: log) = .sweep (asI64 now) :: history log :=
          rfl
        rw [hsweep, List.countP_cons_of_neg (by simp [Seen.Event.IsFresh])]

section

variable {given : DpopReplay} {s t : Store} {during : List Entry}

/-- What is between two states, as a history after that of the first. -/
theorem Good.legal_during (ht : Good given t) (hlog : t.log = s.log ++ during) :
    Seen.Legal (kept given) (history s.log ++ (history during ++ [])) := by
  have hlegal := ht.legal
  rw [hlog, history_append] at hlegal
  rwa [List.append_nil]

theorem Good.oneOf (hs : Good given s) (ht : Good given t) (hlog : t.log = s.log ++ during)
    {jti : String} (hfresh : s.rows.lookup jti = none) (harrives : Arrives jti during)
    (hout : NoneOutlived jti during) : during.countP (Entry.accepts jti) = 1 := by
  have hbounded : ∀ e ∈ during, e.Bounded t.clock := fun e he => ht.log e (by simp [hlog, he])
  rw [← countP_history hbounded]
  refine (ht.legal_during hlog).exactly_one ?_ ?_ ?_
  · rw [← hs.rows]
    exact hfresh
  · obtain ⟨c, hc, hjti, hfault⟩ := harrives
    refine ⟨.see c.jti (asI64 c.exp) c.time c.answer, ?_, decide_eq_true hjti⟩
    exact List.mem_filterMap.2 ⟨_, hc, event_consumed hfault⟩
  · intro n hn till now fresh hsee
    rcases mem_history hn with ⟨c, -, -, hc⟩ | ⟨time, m, hpruned, hsweep⟩
    · cases hc
    rcases mem_history hsee with ⟨c, hc, hfault, hsame⟩ | ⟨_, _, -, h⟩
    · cases hsweep
      cases hsame
      have hle := hout time m hpruned c hc rfl hfault
      have hclock := (hbounded _ hpruned).pruned time _ rfl
      rw [asI64_eq (lt_of_le_of_lt hclock ht.clock), asI64_eq ((hbounded _ hc).consumed c rfl).1]
      exact_mod_cast hle
    · cases h

theorem Good.again (hs : Good given s) (ht : Good given t) (hlog : t.log = s.log ++ during)
    {now n : Nat} {mid after : List Entry} {c : Consumed} {expiresAt : Int}
    (hduring : during = .pruned now (.ok n) :: (mid ++ .consumed c :: after))
    (hrow : s.rows.lookup c.jti = some expiresAt) (hover : expiresAt < now)
    (hno : ∀ e ∈ mid, e.accepts c.jti = false) (hfault : c.fault = none) : c.answer = true := by
  have hbounded : ∀ e ∈ during, e.Bounded t.clock := fun e he => ht.log e (by simp [hlog, he])
  have hnow : asI64 now = now := by
    have hle := (hbounded (.pruned now (.ok n)) (by simp [hduring])).pruned now _ rfl
    exact asI64_eq (lt_of_le_of_lt hle ht.clock)
  have hhistory : history during = .sweep (asI64 now) ::
      (history mid ++ .see c.jti (asI64 c.exp) c.time c.answer :: history after) := by
    rw [hduring, ← history_consumed hfault, ← history_append]
    rfl
  have hlegal := ht.legal_during hlog
  rw [hhistory, List.append_nil] at hlegal
  refine hlegal.again (by rw [← hs.rows]; exact hrow) (by rwa [hnow]) fun e he => ?_
  rcases mem_history he with ⟨c', hc', -, rfl⟩ | ⟨_, _, -, rfl⟩
  · exact hno _ hc'
  · rfl

end

/-- **Whatever the order of the calls, of their statements and of the prunes, and whatever fails:
the store protects.** -/
theorem protects_of_run (given : DpopReplay) (as bs : List Act) (s t : Store)
    (hs : run step (start given) as = some s) (ht : run step s bs = some t) :
    ∃ during, Protects s t during := by
  obtain ⟨during, hlog⟩ := log_of_run ht
  have hgood : Good given s :=
    (always_of_keep (fun _ _ _ => good_step) (good_start given) as).last hs
  have hgood' : Good given t := (always_of_keep (fun _ _ _ => good_step) hgood bs).last ht
  refine ⟨during, hlog, ?_, ?_, ?_, ?_⟩
  · intro before mid after c c' hsplit hjti hanswer htime
    exact hgood'.once hsplit hjti hanswer htime
  · intro jti hfresh harrives hout
    exact hgood.oneOf hgood' hlog hfresh harrives hout
  · intro now n mid c after expiresAt hduring hrow hover hno hfault
    exact hgood.again hgood' hlog hduring hrow hover hno hfault
  · intro c hc hfault
    exact ((hgood'.log _ hc).consumed c rfl).2.2 hfault

/-! ## Three runs -/

def after (acts : List Act) : Store := (run step (start ∅) acts).getD (start ∅)

/-- The expired row is swept, and its `jti` comes again. -/
theorem protects_swept : ∃ during, Protects
    (after [.wait 100, .consume "j" 200, .run 0 none, .wait 250, .prune, .consume "j" 300])
    (after [.wait 100, .consume "j" 200, .run 0 none, .wait 250, .prune, .consume "j" 300,
      .run 0 none, .run 0 none]) during :=
  protects_of_run ∅ [.wait 100, .consume "j" 200, .run 0 none, .wait 250, .prune, .consume "j" 300]
    [.run 0 none, .run 0 none] _ _ rfl rfl

/-- A `jti` whose row has expired is accepted. -/
def ExpiredAccepted (s t : Store) : Prop :=
  ∀ c rest expiresAt, t.log = s.log ++ .consumed c :: rest → s.rows.lookup c.jti = some expiresAt →
    expiresAt < c.time → c.fault = none → c.answer = true

/-- Of the calls that are under way, and all run, exactly one is accepted. -/
def OneOfPending (s : Store) (bs : List Act) (t : Store) : Prop :=
  (∀ a ∈ bs, ∃ i fault, a = .run i fault) → ∀ during jti, t.log = s.log ++ during →
    s.rows.lookup jti = none → Arrives jti during → during.countP (Entry.accepts jti) = 1

/-- Without a prune the expired row refuses; and where the calls come with an expiry that is over, a
prune between two of them has both accepted. -/
theorem expired_row_refuses :
    ¬ (∀ given as bs s t, run step (start given) as = some s → run step s bs = some t →
        ExpiredAccepted s t) ∧
      ¬ ∀ given as bs s t, run step (start given) as = some s → run step s bs = some t →
        OneOfPending s bs t := by
  constructor
  · intro h
    have haccepted := h ∅ [.wait 100, .consume "j" 200, .run 0 none, .wait 250, .consume "j" 300]
      [.run 0 none] _ _ rfl rfl ⟨"j", 300, 250, none, false⟩ [] 200 (by decide +kernel)
      (by decide +kernel) (by decide) rfl
    cases haccepted
  · intro h
    have hone := h ∅ [.wait 100, .consume "j" 50, .prune, .consume "j" 50]
      [.run 0 none, .run 0 none, .run 0 none] _ _ rfl rfl (by simp)
      [.consumed ⟨"j", 50, 100, none, true⟩, .pruned 100 (.ok 1),
        .consumed ⟨"j", 50, 100, none, true⟩] "j" (by decide +kernel) (by decide +kernel)
      ⟨⟨"j", 50, 100, none, true⟩, by simp, rfl, rfl⟩
    exact absurd hone (by decide +kernel)

end CacosPds.Account.Replay
