import CacosPds.Sequencer.Worker
/-!
# The assembled application (`xrpc/types.rs:34-102`, `xrpc/mod.rs:61-142`)

| here | there |
| --- | --- |
| `Assembly`     | the parts that an event passes on its way to the outboxes, as they are put together |
| `sharedStateFromEnv`, `buildAppWithState` | `SharedStateFromEnv::from_env`, `build_app_with_state` |
| `appStep`      | requests that sequence events, connections of `subscribeRepos`, and the worker if there is one |
| `Carried`      | every event sequenced under a connection is published there, or can be without a request |

`sequence_evt` leaves a job only if the sequencer has a pool, and only a worker publishes. `from_env`
gives the sequencer no pool, and nothing spawns a worker.
-/
namespace CacosPds.Server

open Sequencer

structure Assembly where
  /-- `job_pool` of the shared sequencer, by its database. -/
  jobPool : Option Nat
  /-- The channel of `shared_broadcast`, to which the outboxes subscribe. -/
  sharedBroadcast : Nat
  /-- The channel that the worker spawned on a pool publishes on. -/
  worker : Nat → Option Nat

/-- `Sequencer::new(.., None, None)` and a new broadcast. -/
def sharedStateFromEnv (channel : Nat) : Assembly := ⟨none, channel, fun _ => none⟩

/-- The state is handed to the routes; nothing is spawned. -/
def buildAppWithState (state : Assembly) : Assembly := state

/-- The table with the calls in flight, the calls that have inserted and are to push their job, the
pool's jobs with the worker, and the connections; the rows inserted under a connection are history. -/
structure App where
  seq : SeqState
  pushing : List SeqEventJob
  queue : QueueState
  connections : Nat
  watched : List RepoSeqRow

def App.start : App := ⟨.start, [], .start, 0, []⟩

inductive AppStep where
  | connect
  | disconnect
  /-- A request's `sequence_evt`: the id, the insert, or its end. -/
  | seq (a : SeqStep)
  /-- A call pushes its job, or fails to. -/
  | push (i : Nat) (ok : Bool)
  | work (a : QueueStep)

/-- No request takes it. -/
def AppStep.isComponent : AppStep → Bool
  | .push _ _ | .work _ => true
  | _ => false

section

variable (K : Codecs) (G : UlidGenerator) (A : Assembly)

/-- The job of a row, `typed_seq_evt` and the envelope included. -/
def jobOf (row : RepoSeqRow) : Except String SeqEventJob :=
  (repoSeqFromRow K row).bind (seqEventJob K)

/-- After an insert: the call goes on to push a job only if there is a pool. -/
def App.inserted (s : App) (row : RepoSeqRow) : App :=
  { s with
    pushing := s.pushing ++
      if A.jobPool.isSome then (jobOf K row).toOption.toList else []
    watched := if 0 < s.connections then s.watched ++ [row] else s.watched }

def appStep (s : App) : AppStep → Option App
  | .connect => some { s with connections := s.connections + 1 }
  | .disconnect => if 0 < s.connections then some { s with connections := s.connections - 1 } else none
  | .seq .restart => none
  | .seq (.store i) =>
    (seqStep K G s.seq (.store i)).map fun seq =>
      match s.seq.inflight[i]? with
      | some row =>
        if (s.seq.table.insert row).isSome then { s with seq }.inserted K A row else { s with seq }
      | none => { s with seq }
  | .seq a => (seqStep K G s.seq a).map fun seq => { s with seq }
  | .push i ok =>
    s.pushing[i]?.bind fun job =>
      if ok then
        (queueStep s.queue (.enqueue job)).map fun queue =>
          { s with queue, pushing := s.pushing.eraseIdx i }
      else some { s with pushing := s.pushing.eraseIdx i }
  | .work a =>
    if a.isWorker ∧ (A.jobPool.bind A.worker).isSome then
      (queueStep s.queue a).map fun queue => { s with queue }
    else none

/-- The jobs published on the channel of the outboxes. -/
def published (s : App) : List SeqEventJob :=
  if A.jobPool.bind A.worker = some A.sharedBroadcast then s.queue.published else []

/-- Published already, or after some steps that wait for no request. -/
def Carried (s : App) : Prop :=
  ∀ row ∈ s.watched, ∃ ws t, (∀ a ∈ ws, AppStep.isComponent a = true) ∧
    Runs.run (appStep K G A) s ws = some t ∧ ∃ job, jobOf K row = .ok job ∧ job ∈ published A t

end

/-- The step inserts an event while a connection is open. -/
def insertsWatched (s : App) : AppStep → Bool
  | .seq (.store i) =>
    0 < s.connections && s.seq.inflight[i]?.any fun row => (s.seq.table.insert row).isSome
  | _ => false

variable {K : Codecs} {G : UlidGenerator} {A : Assembly} {s t : App}

/-- Only such a step adds to the history. -/
theorem watched_appStep {a : AppStep} (h : appStep K G A s a = some t) :
    if insertsWatched s a then ∃ row, t.watched = s.watched ++ [row] else t.watched = s.watched := by
  cases a with
  | connect =>
    cases h
    rfl
  | disconnect =>
    simp only [appStep, Option.ite_none_right_eq_some, Option.some.injEq] at h
    obtain ⟨-, rfl⟩ := h
    rfl
  | seq a =>
    cases a with
    | store i =>
      simp only [appStep, seqStep, Option.map_map] at h
      obtain ⟨row, hrow, rfl⟩ := Option.map_eq_some_iff.1 h
      simp only [Function.comp_apply, insertsWatched, hrow, Option.any_some]
      by_cases hins : (s.seq.table.insert row).isSome = true
      · by_cases hopen : 0 < s.connections
        · simp [hins, hopen, App.inserted]
        · simp [hins, hopen, App.inserted]
      · simp [hins]
    | restart => cases h
    | draw now rnd evt =>
      obtain ⟨seq, -, rfl⟩ := Option.map_eq_some_iff.1 h
      rfl
    | abandon i =>
      obtain ⟨seq, -, rfl⟩ := Option.map_eq_some_iff.1 h
      rfl
    | otherId now rnd =>
      obtain ⟨seq, -, rfl⟩ := Option.map_eq_some_iff.1 h
      rfl
  | push i ok =>
    obtain ⟨job, -, h⟩ := Option.bind_eq_some_iff.1 h
    cases ok with
    | true =>
      rw [if_pos rfl] at h
      obtain ⟨queue, -, rfl⟩ := Option.map_eq_some_iff.1 h
      rfl
    | false =>
      cases h
      rfl
  | work a =>
    simp only [appStep, Option.ite_none_right_eq_some] at h
    obtain ⟨queue, -, rfl⟩ := Option.map_eq_some_iff.1 h.2
    rfl

/-- Nothing reaches the channel of the outboxes. -/
theorem published_fromEnv (channel : Nat) (s : App) :
    published (buildAppWithState (sharedStateFromEnv channel)) s = [] :=
  if_neg (by simp [buildAppWithState, sharedStateFromEnv])

theorem carried_fromEnv_iff (channel : Nat) :
    Carried K G (buildAppWithState (sharedStateFromEnv channel)) s ↔ s.watched = [] := by
  constructor
  · intro h
    refine List.eq_nil_iff_forall_not_mem.2 fun row hrow => ?_
    obtain ⟨ws, t, -, -, job, -, hjob⟩ := h row hrow
    rw [published_fromEnv] at hjob
    cases hjob
  · intro h row hrow
    rw [h] at hrow
    cases hrow

/-- **In the application that `from_env` and `build_app_with_state` assemble, events are carried to the
connections as long as none is sequenced while one is open.** -/
theorem carried_iff_noneWatched (K : Codecs) (G : UlidGenerator) (channel : Nat)
    (acts : List AppStep) :
    Runs.Always (appStep K G (buildAppWithState (sharedStateFromEnv channel)))
        (Carried K G (buildAppWithState (sharedStateFromEnv channel))) .start acts ↔
      Runs.Along (appStep K G (buildAppWithState (sharedStateFromEnv channel)))
        (fun s a => insertsWatched s a = false) .start acts := by
  refine Runs.always_iff_along (I := fun s => s.watched = [])
    (fun s hs => (carried_fromEnv_iff channel).2 hs) ?_ ?_ rfl acts
  · intro s a t hs hquiet hstep
    have hwatched := watched_appStep hstep
    rw [hquiet] at hwatched
    exact hwatched.trans hs
  · intro s a t _ hinserts hstep hcarried
    have hwatched := watched_appStep hstep
    rw [Bool.eq_true_of_not_eq_false hinserts] at hwatched
    obtain ⟨row, hrow⟩ := hwatched
    rw [(carried_fromEnv_iff channel).1 hcarried] at hrow
    simp at hrow

/-- A client connects, and an event is sequenced. -/
def connectThenSequence : List AppStep := [.connect, .seq (sampleDraw 5), .seq (.store 0)]

theorem uncarried_connectThenSequence :
    ¬ Runs.Always (appStep sampleCodecs ulidReference (buildAppWithState (sharedStateFromEnv 0)))
      (Carried sampleCodecs ulidReference (buildAppWithState (sharedStateFromEnv 0))) .start
      connectThenSequence := by
  intro hall
  obtain ⟨s, hs, hwatched⟩ : ∃ s ∈ Runs.run (appStep sampleCodecs ulidReference
      (buildAppWithState (sharedStateFromEnv 0))) .start connectThenSequence, s.watched ≠ [] := by
    decide +kernel
  exact hwatched ((carried_fromEnv_iff 0).1 (hall.last hs))

end CacosPds.Server
