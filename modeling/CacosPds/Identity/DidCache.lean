import CacosPds.Lib.Run
import CacosPds.Lib.Table
/-!
# The DID document cache (`cacos-pds-identity/src/did_cache.rs`)

| here | there |
| --- | --- |
| `Row`           | a row of `did_doc`; the document as JSON, `resolved` (a ghost) when it was resolved |
| `Phase`         | where a call of `cache_did`, `clear_entry` or a job of `refresh_cache` is |
| `Event`         | its steps: the queue's permit, `get_doc`, `now_micros`, each statement |
| `checkCache`    | `check_cache`, one statement |
| `State`         | the table, the calls, the queue's permits (`cacos-pds-core/src/background.rs:59`) |

`cache_did` inserts, and where that fails updates whatever row is there; the row's `updated_at` is
the clock's when the call began, not when its document was resolved. What a call has resolved may be
older than what another has written by the time it writes.
-/
namespace CacosPds.Identity.DidCache

open Runs Sql

structure Row where
  doc : String
  /-- In microseconds. -/
  updatedAt : Nat
  resolved : Nat
  deriving DecidableEq

inductive Phase where
  /-- A job that waits for a permit. -/
  | queued
  /-- In `get_doc`. -/
  | resolving
  /-- In `cache_did`, with a document and when it was resolved. -/
  | caching (doc : String) (resolved : Nat)
  | inserting (row : Row)
  /-- The insert has failed. -/
  | updating (row : Row)
  /-- In `clear_entry`. -/
  | clearing
  | done
  deriving DecidableEq

structure Call where
  did : String
  /-- It holds one of the queue's permits. -/
  permit : Bool
  phase : Phase
  deriving DecidableEq

/-- What `get_doc` answers. -/
inductive Resolution where
  | found (doc : String)
  | notFound
  | failed

inductive Event where
  | acquire
  | resolve (answer : Resolution)
  /-- `serde_json::to_string` fails. -/
  | unserializable
  /-- `now_micros`, whatever the clock says. -/
  | stamp (now : Nat)
  /-- One statement; the database may fail. -/
  | statement (failed : Bool)

structure State where
  table : Table String Row
  calls : List Call
  permits : Nat
  destroyed : Bool
  time : Nat
  /-- Every row that has been written (a ghost). -/
  written : List (String × Row)

def State.start (permits : Nat) : State := ⟨∅, [], permits, false, 0, []⟩

/-- What a statement does to the table. -/
inductive Effect where
  | nothing
  | write (row : Row)
  | remove
  deriving DecidableEq

def Effect.apply (did : String) (s : State) : Effect → State
  | .nothing => s
  | .write row => { s with
      table := s.table.insert did row
      written := s.written ++ [(did, row)] }
  | .remove => { s with table := s.table.erase did }

/-- The statement that a call is at. -/
def statementOf (s : State) (c : Call) (failed : Bool) : Option (Phase × Effect) :=
  match c.phase with
  | .inserting row =>
    if failed || c.did ∈ s.table then some (.updating row, .nothing) else some (.done, .write row)
  | .updating row =>
    if failed || c.did ∉ s.table then some (.done, .nothing) else some (.done, .write row)
  | .clearing => some (.done, if failed then .nothing else .remove)
  | _ => none

def advance (s : State) (c : Call) : Event → Option (Call × Effect)
  | .acquire =>
    match c.phase with
    | .queued => if 0 < s.permits then some (⟨c.did, true, .resolving⟩, .nothing) else none
    | _ => none
  | .resolve answer =>
    match c.phase, answer with
    | .resolving, .found doc => some ({ c with phase := .caching doc s.time }, .nothing)
    | .resolving, .notFound => some ({ c with phase := .clearing }, .nothing)
    | .resolving, .failed => some ({ c with phase := .done }, .nothing)
    | _, _ => none
  | .unserializable =>
    match c.phase with
    | .caching _ _ => some ({ c with phase := .done }, .nothing)
    | _ => none
  | .stamp now =>
    match c.phase with
    | .caching doc resolved =>
      some ({ c with phase := .inserting ⟨doc, now, resolved⟩ }, .nothing)
    | _ => none
  | .statement failed =>
    (statementOf s c failed).map fun p => ({ c with phase := p.1 }, p.2)

/-- A permit is taken when a job starts and is free again when it has returned. -/
def permitsAfter (s : State) (c d : Call) : Nat :=
  if d.permit then if d.phase = .done then s.permits + 1
    else if c.permit then s.permits else s.permits - 1
  else s.permits

inductive Act where
  | tick
  /-- `BackgroundQueue::destroy`. -/
  | destroy
  /-- The process ends and starts again; the table stays. -/
  | restart (permits : Nat)
  | cacheDid (did doc : String) (resolved : Nat)
  | clearEntry (did : String)
  | refreshCache (did : String)
  | advance (i : Nat) (e : Event)

def State.add (s : State) (did : String) (phase : Phase) : State :=
  { s with calls := s.calls ++ [⟨did, false, phase⟩] }

def step (s : State) : Act → Option State
  | .tick => some { s with time := s.time + 1 }
  | .destroy => some { s with destroyed := true }
  | .restart permits => some { s with calls := [], permits, destroyed := false }
  | .cacheDid did doc resolved =>
    if resolved ≤ s.time then some (s.add did (.caching doc resolved)) else none
  | .clearEntry did => some (s.add did .clearing)
  | .refreshCache did => some (if s.destroyed then s else s.add did .queued)
  | .advance i e =>
    (s.calls[i]?).bind fun c => (advance s c e).map fun p =>
      p.2.apply c.did { s with calls := s.calls.set i p.1, permits := permitsAfter s c p.1 }

structure Config where
  staleTtl : Nat
  maxTtl : Nat

structure CacheResult where
  did : String
  doc : String
  updatedAt : Nat
  stale : Bool
  expired : Bool
  /-- A ghost: when the document was resolved. -/
  resolved : Nat
  deriving DecidableEq

def checkCache (C : Config) (s : State) (did : String) (now : Nat) : Option CacheResult :=
  (s.table.lookup did).map fun row =>
    ⟨did, row.doc, row.updatedAt, row.updatedAt + C.staleTtl < now,
      row.updatedAt + C.maxTtl < now, row.resolved⟩

/-! ## The property and its condition -/

/-- Of what `check_cache` returns at any moments of a run: nothing older than what has been written,
and a larger `updated_at` only for what is not older. -/
structure NeverOlder (C : Config) (s₀ : State) (as : List Act) : Prop where
  written : ∀ n s did now r, run step s₀ (as.take n) = some s →
    checkCache C s did now = some r → ∀ row, (did, row) ∈ s.written → row.resolved ≤ r.resolved
  updatedAt : ∀ m n s t did now now' q r, run step s₀ (as.take m) = some s →
    run step s₀ (as.take n) = some t → checkCache C s did now = some q →
    checkCache C t did now' = some r → q.updatedAt < r.updatedAt → q.resolved ≤ r.resolved

/-- The row that a step writes. -/
def landing (s : State) : Act → Option (String × Row)
  | .advance i (.statement failed) =>
    (s.calls[i]?).bind fun c => (statementOf s c failed).bind fun p =>
      match p.2 with
      | .write row => some (c.did, row)
      | _ => none
  | _ => none

/-- A row that is written is not older than one that was written for the DID before, and if it is
stamped earlier it is not newer either. -/
def Timely (s : State) (a : Act) : Prop :=
  ∀ did row, landing s a = some (did, row) → ∀ old, (did, old) ∈ s.written →
    old.resolved ≤ row.resolved ∧ (row.updatedAt < old.updatedAt → row.resolved ≤ old.resolved)

instance (s : State) (a : Act) : Decidable (Timely s a) :=
  decidable_of_iff (∀ new ∈ landing s a, ∀ old ∈ s.written, old.1 = new.1 →
    old.2.resolved ≤ new.2.resolved ∧
      (new.2.updatedAt < old.2.updatedAt → new.2.resolved ≤ old.2.resolved)) <| by
    constructor
    · intro h did row hland old hold
      exact h (did, row) hland (did, old) hold rfl
    · rintro h ⟨did, row⟩ hland ⟨did', old⟩ hold rfl
      exact h did' row hland old hold

/-! ## What a step does -/

variable {C : Config} {s t s₀ : State} {as : List Act}

/-- The row that an effect writes. -/
def Effect.row : Effect → Option Row
  | .write row => some row
  | _ => none

/-- Only a statement has an effect. -/
theorem landing_advance {i : Nat} {e : Event} {c d : Call} {effect : Effect}
    (hc : s.calls[i]? = some c) (h : advance s c e = some (d, effect)) :
    landing s (.advance i e) = effect.row.map (c.did, ·) := by
  have hnone : effect = .nothing → landing s (.advance i e) = none →
      landing s (.advance i e) = effect.row.map (c.did, ·) := by
    rintro rfl hl
    exact hl
  cases e with
  | statement failed =>
    obtain ⟨p, hp, heq⟩ := Option.map_eq_some_iff.1 h
    cases heq
    simp only [landing, hc, Option.bind_some, hp]
    cases p.2 <;> rfl
  | acquire =>
    refine hnone ?_ rfl
    simp only [advance] at h
    split at h
    · exact (Prod.ext_iff.1 (Option.some.inj (Option.ite_none_right_eq_some.1 h).2)).2.symm
    · cases h
  | resolve answer =>
    refine hnone ?_ rfl
    simp only [advance] at h
    split at h <;> cases h <;> rfl
  | unserializable =>
    refine hnone ?_ rfl
    simp only [advance] at h
    split at h <;> cases h
    rfl
  | stamp now =>
    refine hnone ?_ rfl
    simp only [advance] at h
    split at h <;> cases h
    rfl

/-- A step writes the row that lands; else nothing gets into the table. -/
theorem step_cases {a : Act} (h : step s a = some t) :
    (∃ did row, landing s a = some (did, row) ∧ t.table = s.table.insert did row ∧
      t.written = s.written ++ [(did, row)]) ∨
    landing s a = none ∧ t.written = s.written ∧
      ∀ did row, t.table.lookup did = some row → s.table.lookup did = some row := by
  cases a with
  | tick =>
    cases h
    exact .inr ⟨rfl, rfl, fun _ _ hrow => hrow⟩
  | destroy =>
    cases h
    exact .inr ⟨rfl, rfl, fun _ _ hrow => hrow⟩
  | restart permits =>
    cases h
    exact .inr ⟨rfl, rfl, fun _ _ hrow => hrow⟩
  | cacheDid did doc resolved =>
    obtain ⟨-, h⟩ := Option.ite_none_right_eq_some.1 h
    cases h
    exact .inr ⟨rfl, rfl, fun _ _ hrow => hrow⟩
  | clearEntry did =>
    cases h
    exact .inr ⟨rfl, rfl, fun _ _ hrow => hrow⟩
  | refreshCache did =>
    cases h
    split
    · exact .inr ⟨rfl, rfl, fun _ _ hrow => hrow⟩
    · exact .inr ⟨rfl, rfl, fun _ _ hrow => hrow⟩
  | advance i e =>
    obtain ⟨c, hc, h⟩ := Option.bind_eq_some_iff.1 h
    obtain ⟨⟨d, effect⟩, hadv, rfl⟩ := Option.map_eq_some_iff.1 h
    rw [landing_advance hc hadv]
    cases effect with
    | nothing => exact .inr ⟨rfl, rfl, fun _ _ hrow => hrow⟩
    | write row => exact .inl ⟨c.did, row, rfl, rfl, rfl⟩
    | remove =>
      refine .inr ⟨rfl, rfl, fun did row hrow => ?_⟩
      have herased : (s.table.erase c.did).lookup did = some row := hrow
      rw [Table.lookup_erase_eq] at herased
      split at herased
      · cases herased
      · exact herased

/-! ## Timely writes -/

/-- What a row in the table owes, and the rows that have been written owe each other. -/
structure Inv (s : State) : Prop where
  mem : ∀ did row, s.table.lookup did = some row → (did, row) ∈ s.written
  latest : ∀ did row old, s.table.lookup did = some row → (did, old) ∈ s.written →
    old.resolved ≤ row.resolved
  ordered : ∀ did row row', (did, row) ∈ s.written → (did, row') ∈ s.written →
    row.updatedAt < row'.updatedAt → row.resolved ≤ row'.resolved

theorem inv_start (permits : Nat) : Inv (State.start permits) := by
  constructor
  · intro did row h
    cases h
  · intro did row old h
    cases h
  · intro did row row' h
    cases h

theorem inv_step (s : State) (a : Act) (t : State) (h : Inv s) (htimely : Timely s a)
    (hstep : step s a = some t) : Inv t := by
  rcases step_cases hstep with ⟨did, new, hland, htable, hwritten⟩ | ⟨-, hwritten, hrows⟩
  · have hnew := htimely did new hland
    constructor
    · intro did' row hrow
      rw [htable, Table.lookup_insert_eq] at hrow
      rw [hwritten, List.mem_append, List.mem_singleton]
      split at hrow
      · rename_i hdid
        cases hrow
        exact .inr (Prod.ext hdid rfl)
      · exact .inl (h.mem did' row hrow)
    · intro did' row old hrow hold
      rw [htable, Table.lookup_insert_eq] at hrow
      rw [hwritten, List.mem_append, List.mem_singleton] at hold
      split at hrow
      · rename_i hdid
        cases hrow
        subst hdid
        rcases hold with hold | hold
        · exact (hnew old hold).1
        · cases hold
          exact le_rfl
      · rename_i hdid
        rcases hold with hold | hold
        · exact h.latest did' row old hrow hold
        · cases hold
          exact absurd rfl hdid
    · intro did' row row' hrow hrow' hlt
      rw [hwritten, List.mem_append, List.mem_singleton] at hrow hrow'
      rcases hrow with hrow | hrow <;> rcases hrow' with hrow' | hrow'
      · exact h.ordered did' row row' hrow hrow' hlt
      · cases hrow'
        exact (hnew row hrow).1
      · cases hrow
        exact (hnew row' hrow').2 hlt
      · cases hrow
        cases hrow'
        exact le_rfl
  · constructor
    · intro did row hrow
      rw [hwritten]
      exact h.mem did row (hrows did row hrow)
    · intro did row old hrow hold
      rw [hwritten] at hold
      exact h.latest did row old (hrows did row hrow) hold
    · intro did row row' hrow hrow'
      rw [hwritten] at hrow hrow'
      exact h.ordered did row row' hrow hrow'

theorem checkCache_eq_some {did : String} {now : Nat} {r : CacheResult}
    (h : checkCache C s did now = some r) : ∃ row, s.table.lookup did = some row ∧
      row.updatedAt = r.updatedAt ∧ row.resolved = r.resolved := by
  obtain ⟨row, hrow, rfl⟩ := Option.map_eq_some_iff.1 h
  exact ⟨row, hrow, rfl, rfl⟩

theorem exists_checkCache {did : String} {row : Row} (h : s.table.lookup did = some row) :
    ∃ r, checkCache C s did 0 = some r ∧ r.updatedAt = row.updatedAt ∧
      r.resolved = row.resolved :=
  ⟨_, Option.map_eq_some_iff.2 ⟨row, h, rfl⟩, rfl, rfl⟩

/-- What has been written stays so. -/
theorem written_of_run {bs : List Act} (h : run step s bs = some t) :
    ∀ w ∈ s.written, w ∈ t.written := by
  induction bs generalizing s with
  | nil =>
    cases h
    exact fun w hw => hw
  | cons a bs ih =>
    obtain ⟨u, hu, hr⟩ := run_cons_some h
    intro w hw
    refine ih hr w ?_
    rcases step_cases hu with ⟨did, row, -, -, hwritten⟩ | ⟨-, hwritten, -⟩
    · rw [hwritten]
      exact List.mem_append_left _ hw
    · rw [hwritten]
      exact hw

/-- Whatever has been written was in the table then. -/
theorem shown_of_written {bs : List Act} {did : String} {row : Row} (h : run step s bs = some t)
    (hw : (did, row) ∈ t.written) : (did, row) ∈ s.written ∨
      ∃ m u, run step s (bs.take m) = some u ∧ u.table.lookup did = some row := by
  induction bs generalizing s with
  | nil =>
    cases h
    exact .inl hw
  | cons a bs ih =>
    obtain ⟨u, hu, hr⟩ := run_cons_some h
    have hnext : ∀ m, run step s ((a :: bs).take (m + 1)) = run step u (bs.take m) := by
      intro m
      rw [List.take_succ_cons, run_cons, hu, Option.bind_some]
    rcases ih hr with hold | ⟨m, v, hv, hrow⟩
    · rcases step_cases hu with ⟨did', row', -, htable, hwritten⟩ | ⟨-, hwritten, -⟩
      · rw [hwritten, List.mem_append, List.mem_singleton] at hold
        rcases hold with hold | hold
        · exact .inl hold
        · cases hold
          refine .inr ⟨1, u, (hnext 0).trans rfl, ?_⟩
          rw [htable, Table.lookup_insert_eq, if_pos rfl]
      · rw [hwritten] at hold
        exact .inl hold
    · exact .inr ⟨m + 1, v, (hnext m).trans hv, hrow⟩

theorem neverOlder_of_timely (C : Config) (permits : Nat) (as : List Act)
    (h : Along step Timely (State.start permits) as) : NeverOlder C (State.start permits) as := by
  have hinv := (always_iff_take _ as).1 (always_of_along inv_step (inv_start permits) as h)
  constructor
  · intro n s did now r hs hr row hrow
    obtain ⟨current, hcurrent, -, hres⟩ := checkCache_eq_some hr
    rw [← hres]
    exact (hinv n s hs).latest did current row hcurrent hrow
  · intro m n s t did now now' q r hs ht hq hr hlt
    obtain ⟨row, hrow, hupd, hres⟩ := checkCache_eq_some hq
    obtain ⟨row', hrow', hupd', hres'⟩ := checkCache_eq_some hr
    have hmem := (hinv m s hs).mem did row hrow
    have hmem' := (hinv n t ht).mem did row' hrow'
    rw [← hupd, ← hupd'] at hlt
    rw [← hres, ← hres']
    -- Both rows have been written where the longer of the two runs ends.
    rcases Nat.le_total m n with hmn | hnm
    · have hsplit : run step s ((as.take n).drop m) = some t := by
        have happ := ht
        rw [← List.take_append_drop m (as.take n), List.take_take, Nat.min_eq_left hmn,
          run_append, hs] at happ
        exact happ
      exact (hinv n t ht).ordered did row row' (written_of_run hsplit _ hmem) hmem' hlt
    · have hsplit : run step t ((as.take m).drop n) = some s := by
        have happ := hs
        rw [← List.take_append_drop n (as.take m), List.take_take, Nat.min_eq_left hnm,
          run_append, ht] at happ
        exact happ
      exact (hinv m s hs).ordered did row row' hmem (written_of_run hsplit _ hmem') hlt

theorem timely_of_neverOlder (C : Config) (permits : Nat) (as : List Act)
    (h : NeverOlder C (State.start permits) as) : Along step Timely (State.start permits) as := by
  rw [along_iff_take]
  intro n s a t hs ha ht did row hland old hold
  have hnext : run step (State.start permits) (as.take (n + 1)) = some t := by
    rw [List.take_add_one, ha]
    exact run_trans hs (by rw [Option.toList_some, run_cons, ht]; rfl)
  rcases step_cases ht with ⟨did', row', hland', htable, hwritten⟩ | ⟨hnone, -, -⟩
  · rw [hland] at hland'
    cases hland'
    have hrow : t.table.lookup did = some row := by
      rw [htable, Table.lookup_insert_eq, if_pos rfl]
    obtain ⟨r, hr, hupd, hres⟩ := exists_checkCache (C := C) hrow
    constructor
    · rw [← hres]
      refine h.written (n + 1) t did 0 r hnext hr old ?_
      rw [hwritten]
      exact List.mem_append_left _ hold
    · intro hlt
      rcases shown_of_written hs hold with hnil | ⟨m, u, hu, hshown⟩
      · cases hnil
      · obtain ⟨q, hq, hupd', hres'⟩ := exists_checkCache (C := C) hshown
        have hprefix : run step (State.start permits) (as.take (min m n)) = some u := by
          rw [← List.take_take]
          exact hu
        rw [← hupd, ← hupd'] at hlt
        rw [← hres, ← hres']
        exact h.updatedAt (n + 1) (min m n) t u did 0 0 r q hnext hprefix hr hq hlt
  · rw [hland] at hnone
    cases hnone

/-- **Exactly the runs whose writes are all timely.** -/
theorem neverOlder_iff (C : Config) (permits : Nat) (as : List Act) :
    NeverOlder C (State.start permits) as ↔ Along step Timely (State.start permits) as :=
  ⟨timely_of_neverOlder C permits as, neverOlder_of_timely C permits as⟩

/-! ### A slow refresh -/

/-- The job that resolves first writes last. -/
def slowRefresh : List Act :=
  [.refreshCache "did:plc:alice", .refreshCache "did:plc:alice", .advance 0 .acquire,
    .advance 1 .acquire, .advance 0 (.resolve (.found "old")), .tick,
    .advance 1 (.resolve (.found "new")), .advance 1 (.stamp 10), .advance 1 (.statement false),
    .advance 0 (.stamp 20), .advance 0 (.statement false), .advance 0 (.statement false)]

theorem old_document_returned : ¬ ∀ (C : Config) (permits : Nat) (as : List Act),
    NeverOlder C (State.start permits) as := by
  intro hall
  exact absurd (timely_of_neverOlder ⟨0, 0⟩ 5 slowRefresh (hall _ _ _)) (by decide)

end CacosPds.Identity.DidCache
