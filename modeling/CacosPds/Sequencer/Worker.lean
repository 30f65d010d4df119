import CacosPds.Lib.Run
import CacosPds.Lib.Table
import CacosPds.Sequencer.SequenceEvt
/-!
# The job queue and its worker (`cacos-pds-sequencer/src/apalis_worker.rs:83-164`)

| here | there |
| --- | --- |
| `JobRow`               | an `apalis_seq_jobs` row; `job_type`, `attempts`, `max_attempts` are constants nobody reads |
| `enqueueSeqEventJob`   | `enqueue_seq_event_job` (`apalis_worker.rs:104`) |
| `QueueStep.select`     | the worker's `SELECT … LIMIT 1` (`:129-140`), with any choice among equal `run_at` |
| `QueueStep.mark`       | its `UPDATE … SET status = 'Done'` (`:141-144`) |
| `QueueStep.publish`    | its call of `run_seq_event_job` (`:145-156`) |

The worker reads a row, marks it by id and publishes what it read: three steps, and jobs may arrive
between any two of them. A worker that finds nothing sleeps and reads again; that is no step here.
-/
namespace CacosPds.Sequencer

inductive JobStatus where
  | pending
  | done
  deriving DecidableEq, Repr

structure JobRow where
  status : JobStatus
  runAt : Int
  payload : String
  deriving DecidableEq, Repr

abbrev Jobs := Sql.Table String JobRow

/-- `format!("seq-{}", job.seq)`. -/
def jobId (seq : Int) : String := "seq-" ++ seq.repr

/-- `INSERT OR REPLACE INTO apalis_seq_jobs`. -/
def enqueueSeqEventJob (jobs : Jobs) (job : SeqEventJob) : Jobs :=
  jobs.insert (jobId job.seq) ⟨.pending, job.seq, job.envelope⟩

/-- `UPDATE apalis_seq_jobs SET status = 'Done' WHERE id = ?1`. -/
def markDone (jobs : Jobs) (id : String) : Jobs :=
  match jobs.lookup id with
  | some row => jobs.insert id { row with status := .done }
  | none => jobs

/-- Where the worker stands in its loop, with what it holds. -/
inductive Worker where
  | idle
  | selected (id : String) (job : SeqEventJob)
  | marked (job : SeqEventJob)

/-- The queue, and all the jobs enqueued and published so far. -/
structure QueueState where
  jobs : Jobs
  worker : Worker
  enqueued : List SeqEventJob
  published : List SeqEventJob

inductive QueueStep where
  | enqueue (job : SeqEventJob)
  | select (id : String)
  | mark
  | publish

def QueueStep.isWorker : QueueStep → Bool
  | .enqueue _ => false
  | _ => true

/-- No pending row runs before `seq`. -/
def minimalRunAt (jobs : Jobs) (seq : Int) : Bool :=
  decide (∀ e ∈ jobs.entries, e.2.status = .pending → seq ≤ e.2.runAt)

def queueStep (s : QueueState) : QueueStep → Option QueueState
  | .enqueue job =>
    some { s with jobs := enqueueSeqEventJob s.jobs job, enqueued := s.enqueued ++ [job] }
  | .select id =>
    match s.worker, s.jobs.lookup id with
    | .idle, some ⟨.pending, runAt, payload⟩ =>
      if minimalRunAt s.jobs runAt then some { s with worker := .selected id ⟨runAt, payload⟩ } else none
    | _, _ => none
  | .mark =>
    match s.worker with
    | .selected id job => some { s with jobs := markDone s.jobs id, worker := .marked job }
    | _ => none
  | .publish =>
    match s.worker with
    | .marked job => some { s with worker := .idle, published := s.published ++ [job] }
    | _ => none

def QueueState.start : QueueState := ⟨∅, .idle, [], []⟩

/-- What the queue is for: the worker publishes every job enqueued once, and in seq order if they
came in seq order. -/
structure ExactlyOnce (s : QueueState) : Prop where
  noneTwice : (s.published : Multiset SeqEventJob) ≤ s.enqueued
  allPublished : ∃ ws t, (∀ a ∈ ws, a.isWorker) ∧ Runs.run queueStep s ws = some t ∧
    (t.published : Multiset SeqEventJob) = s.enqueued
  inOrder : s.enqueued.Pairwise (fun a b => a.seq ≤ b.seq) →
    s.published.Pairwise (fun a b => a.seq ≤ b.seq)

/-- The condition on an enqueue: no unpublished job has the new one's seq, that is, its row id. -/
def FreshId (s : QueueState) : QueueStep → Prop
  | .enqueue job => ∀ row ∈ s.jobs.lookup (jobId job.seq), row.status ≠ .pending
  | _ => True

/-! ## The jobs on their way -/

/-- The jobs of the pending rows. -/
def pendingJobs (jobs : Jobs) : Multiset SeqEventJob :=
  Sql.Table.select (fun _ row => row.status = .pending) (fun _ row => ⟨row.runAt, row.payload⟩) jobs

/-- The jobs not yet published: the worker's, and the pending rows other than the worker's own. -/
def QueueState.inflight (s : QueueState) : Multiset SeqEventJob :=
  match s.worker with
  | .idle => pendingJobs s.jobs
  | .selected id job => job ::ₘ pendingJobs (s.jobs.erase id)
  | .marked job => job ::ₘ pendingJobs s.jobs

theorem pendingJobs_insert_pending (jobs : Jobs) (id : String) (seq : Int) (payload : String) :
    pendingJobs (jobs.insert id ⟨.pending, seq, payload⟩) =
      ⟨seq, payload⟩ ::ₘ pendingJobs (jobs.erase id) := by
  simp [pendingJobs, Sql.Table.select_insert, Sql.Table.selectRow]

theorem pendingJobs_of_pending {jobs : Jobs} {id : String} {seq : Int} {payload : String}
    (h : jobs.lookup id = some ⟨.pending, seq, payload⟩) :
    pendingJobs jobs = ⟨seq, payload⟩ ::ₘ pendingJobs (jobs.erase id) := by
  rw [pendingJobs, Sql.Table.select_of_lookup _ _ h]
  simp [pendingJobs, Sql.Table.selectRow]

theorem pendingJobs_erase {jobs : Jobs} {id : String}
    (h : ∀ row ∈ jobs.lookup id, row.status ≠ .pending) :
    pendingJobs (jobs.erase id) = pendingJobs jobs := by
  cases hl : jobs.lookup id with
  | none => rw [Sql.Table.erase_of_lookup_none hl]
  | some row =>
    have hp := h row (by simp [hl])
    rw [pendingJobs, pendingJobs, Sql.Table.select_of_lookup _ _ hl]
    simp [Sql.Table.selectRow, hp]

theorem pendingJobs_markDone (jobs : Jobs) (id : String) :
    pendingJobs (markDone jobs id) = pendingJobs (jobs.erase id) := by
  unfold markDone
  split
  · simp [pendingJobs, Sql.Table.select_insert, Sql.Table.selectRow]
  · rw [Sql.Table.erase_of_lookup_none ‹_›]

theorem mem_pendingJobs {jobs : Jobs} {job : SeqEventJob} :
    job ∈ pendingJobs jobs ↔ ∃ id, jobs.lookup id = some ⟨.pending, job.seq, job.envelope⟩ := by
  rw [pendingJobs, Sql.Table.mem_select]
  constructor
  · rintro ⟨id, ⟨status, runAt, payload⟩, hl, hp, rfl⟩
    simp only [decide_eq_true_eq] at hp
    exact ⟨id, hp ▸ hl⟩
  · rintro ⟨id, hl⟩
    exact ⟨id, _, hl, by simp, rfl⟩

/-- All jobs, published or on their way: what no step of the worker changes. -/
def QueueState.total (s : QueueState) : Multiset SeqEventJob := s.published + s.inflight

theorem total_worker {s t : QueueState} {a : QueueStep} (ha : a.isWorker)
    (hs : queueStep s a = some t) : t.total = s.total := by
  cases a with
  | enqueue job => cases ha
  | select id =>
    simp only [queueStep] at hs
    split at hs
    · rename_i seq payload hw hl
      split at hs
      · cases hs
        simp [QueueState.total, QueueState.inflight, hw, pendingJobs_of_pending hl]
      · cases hs
    · cases hs
  | mark =>
    simp only [queueStep] at hs
    split at hs
    · rename_i id job hw
      cases hs
      simp [QueueState.total, QueueState.inflight, hw, pendingJobs_markDone]
    · cases hs
  | publish =>
    simp only [queueStep] at hs
    split at hs
    · rename_i job hw
      cases hs
      simp only [QueueState.total, QueueState.inflight, hw, ← Multiset.coe_add,
        Multiset.coe_singleton, ← Multiset.singleton_add]
      abel
    · cases hs

theorem total_run {s t : QueueState} {ws : List QueueStep} (hw : ∀ a ∈ ws, a.isWorker)
    (hr : Runs.run queueStep s ws = some t) : t.total = s.total := by
  induction ws generalizing s with
  | nil => cases hr; rfl
  | cons a ws ih =>
    obtain ⟨u, hu, hr⟩ := Runs.run_cons_some hr
    rw [ih (fun b hb => hw b (List.mem_cons_of_mem a hb)) hr, total_worker (hw a List.mem_cons_self) hu]

/-! ## The worker left alone -/

theorem exists_minimal {jobs : Jobs} (h : pendingJobs jobs ≠ 0) :
    ∃ id seq payload, jobs.lookup id = some ⟨.pending, seq, payload⟩ ∧ minimalRunAt jobs seq := by
  obtain ⟨job, hjob⟩ := Multiset.exists_mem_of_ne_zero h
  obtain ⟨id, hid⟩ := mem_pendingJobs.1 hjob
  obtain ⟨m, hm, hmin⟩ := Finset.exists_min_image (pendingJobs jobs).toFinset SeqEventJob.seq
    ⟨job, Multiset.mem_toFinset.2 hjob⟩
  obtain ⟨mid, hmid⟩ := mem_pendingJobs.1 (Multiset.mem_toFinset.1 hm)
  refine ⟨mid, m.seq, m.envelope, hmid, decide_eq_true fun e he hp => ?_⟩
  obtain ⟨eid, status, runAt, payload⟩ := e
  have hmem : (⟨runAt, payload⟩ : SeqEventJob) ∈ pendingJobs jobs := by
    refine mem_pendingJobs.2 ⟨eid, ?_⟩
    simp only at hp
    rw [← hp]
    exact Finmap.lookup_eq_some_iff.2 he
  exact hmin _ (Multiset.mem_toFinset.2 hmem)

/-- One iteration: an idle worker with a pending row publishes one job. -/
theorem worker_iteration {s : QueueState} (hidle : s.worker = .idle) (h : s.inflight ≠ 0) :
    ∃ ws t, (∀ a ∈ ws, a.isWorker) ∧ Runs.run queueStep s ws = some t ∧ t.worker = .idle ∧
      t.inflight.card + 1 = s.inflight.card := by
  have hpend : pendingJobs s.jobs ≠ 0 := by simpa [QueueState.inflight, hidle] using h
  obtain ⟨id, seq, payload, hl, hmin⟩ := exists_minimal hpend
  have hsel : queueStep s (.select id) = some { s with worker := .selected id ⟨seq, payload⟩ } := by
    simp [queueStep, hidle, hl, hmin]
  refine ⟨[.select id, .mark, .publish], ⟨markDone s.jobs id, .idle, s.enqueued,
    s.published ++ [⟨seq, payload⟩]⟩, by simp [QueueStep.isWorker], ?_, rfl, ?_⟩
  · rw [Runs.run_cons, hsel]
    rfl
  · simp [QueueState.inflight, hidle, pendingJobs_markDone, pendingJobs_of_pending hl]

/-- The worker alone brings the queue to rest. -/
theorem drain_idle (s : QueueState) (hidle : s.worker = .idle) :
    ∃ ws t, (∀ a ∈ ws, a.isWorker) ∧ Runs.run queueStep s ws = some t ∧ t.inflight = 0 := by
  induction hn : s.inflight.card generalizing s with
  | zero => exact ⟨[], s, by simp, rfl, Multiset.card_eq_zero.1 hn⟩
  | succ n ih =>
    have hne : s.inflight ≠ 0 := fun h0 => by simp [h0] at hn
    obtain ⟨ws, t, hws, hr, ht, hcard⟩ := worker_iteration hidle hne
    obtain ⟨ws', u, hws', hr', hu⟩ := ih t ht (by omega)
    refine ⟨ws ++ ws', u, fun a ha => ?_, Runs.run_trans hr hr', hu⟩
    rcases List.mem_append.1 ha with ha | ha
    · exact hws a ha
    · exact hws' a ha

theorem drain (s : QueueState) :
    ∃ ws t, (∀ a ∈ ws, a.isWorker) ∧ Runs.run queueStep s ws = some t ∧ t.inflight = 0 := by
  cases hw : s.worker with
  | idle => exact drain_idle s hw
  | selected id job =>
    obtain ⟨ws, t, hws, hr, ht⟩ := drain_idle
      ⟨markDone s.jobs id, .idle, s.enqueued, s.published ++ [job]⟩ rfl
    refine ⟨.mark :: .publish :: ws, t, ?_, ?_, ht⟩
    · simpa [QueueStep.isWorker] using hws
    · simp only [Runs.run_cons, queueStep, hw, Option.bind_some]
      exact hr
  | marked job =>
    obtain ⟨ws, t, hws, hr, ht⟩ := drain_idle
      ⟨s.jobs, .idle, s.enqueued, s.published ++ [job]⟩ rfl
    refine ⟨.publish :: ws, t, ?_, ?_, ht⟩
    · simpa [QueueStep.isWorker] using hws
    · simp only [Runs.run_cons, queueStep, hw, Option.bind_some]
      exact hr

/-! ## The invariant -/

/-- The job the worker holds. -/
def Worker.job : Worker → Option SeqEventJob
  | .idle => none
  | .selected _ job => some job
  | .marked job => some job

structure QueueInv (s : QueueState) : Prop where
  accounted : (s.enqueued : Multiset SeqEventJob) = s.total
  /-- The row a worker has read stays as it read it until it marks it. -/
  held : ∀ id job, s.worker = .selected id job →
    s.jobs.lookup id = some ⟨.pending, job.seq, job.envelope⟩
  sorted : s.enqueued.Pairwise (fun a b => a.seq ≤ b.seq) →
    s.published.Pairwise (fun a b => a.seq ≤ b.seq) ∧
    (∀ p ∈ s.published, ∀ j ∈ s.inflight, p.seq ≤ j.seq) ∧
    ∀ job ∈ s.worker.job, ∀ j ∈ s.inflight, job.seq ≤ j.seq

theorem queueInv_start : QueueInv .start where
  accounted := rfl
  held _ _ h := by cases h
  sorted _ := ⟨.nil, by simp [QueueState.start], by simp [QueueState.start, Worker.job]⟩

theorem QueueInv.exactlyOnce {s : QueueState} (h : QueueInv s) : ExactlyOnce s where
  noneTwice := h.accounted ▸ Multiset.le_add_right _ _
  allPublished := by
    obtain ⟨ws, t, hws, hr, ht⟩ := drain s
    refine ⟨ws, t, hws, hr, ?_⟩
    have htot := total_run hws hr
    rw [QueueState.total, ht, add_zero] at htot
    rw [htot, h.accounted]
  inOrder hs := (h.sorted hs).1

/-- Under a fresh id an enqueue adds its job to those on their way. -/
theorem inflight_enqueue_fresh {s : QueueState} {job : SeqEventJob} (h : QueueInv s)
    (hC : ∀ row ∈ s.jobs.lookup (jobId job.seq), row.status ≠ .pending) :
    QueueState.inflight { s with jobs := enqueueSeqEventJob s.jobs job, enqueued := s.enqueued ++ [job] } =
      job ::ₘ s.inflight := by
  have hins : ∀ jobs : Jobs, (∀ row ∈ jobs.lookup (jobId job.seq), row.status ≠ .pending) →
      pendingJobs (enqueueSeqEventJob jobs job) = job ::ₘ pendingJobs jobs := fun jobs hj => by
    rw [enqueueSeqEventJob, pendingJobs_insert_pending, pendingJobs_erase hj]
  cases hw : s.worker with
  | idle => simp only [QueueState.inflight, hw, hins _ hC]
  | marked held => simp only [QueueState.inflight, hw, hins _ hC, Multiset.cons_swap]
  | selected id held =>
    -- the worker's own row is pending, so the new id is another one
    have hne : id ≠ jobId job.seq := by
      rintro rfl
      exact hC _ (h.held _ _ hw) rfl
    have her : ∀ row ∈ (s.jobs.erase id).lookup (jobId job.seq), row.status ≠ .pending := by
      rw [Sql.Table.lookup_erase_eq, if_neg (Ne.symm hne)]
      exact hC
    simp only [QueueState.inflight, hw]
    rw [enqueueSeqEventJob, Sql.Table.erase_insert_of_ne _ hne, Multiset.cons_swap, ← hins _ her]
    rfl

/-- Under the id of a pending row an enqueue replaces a job: none is added. -/
theorem card_inflight_enqueue_taken {s : QueueState} {job : SeqEventJob} {row : JobRow}
    (hl : s.jobs.lookup (jobId job.seq) = some row) (hp : row.status = .pending) :
    (QueueState.inflight
      { s with jobs := enqueueSeqEventJob s.jobs job, enqueued := s.enqueued ++ [job] }).card =
      s.inflight.card := by
  obtain ⟨status, runAt, payload⟩ := row
  subst hp
  have hins : ∀ jobs : Jobs, jobs.lookup (jobId job.seq) = some ⟨.pending, runAt, payload⟩ →
      (pendingJobs (enqueueSeqEventJob jobs job)).card = (pendingJobs jobs).card := fun jobs hj => by
    rw [enqueueSeqEventJob, pendingJobs_insert_pending, pendingJobs_of_pending hj, Multiset.card_cons,
      Multiset.card_cons]
  cases hw : s.worker with
  | idle => simp only [QueueState.inflight, hw, hins _ hl]
  | marked held => simp only [QueueState.inflight, hw, Multiset.card_cons, hins _ hl]
  | selected id held =>
    simp only [QueueState.inflight, hw, Multiset.card_cons]
    by_cases hid : id = jobId job.seq
    · rw [hid, enqueueSeqEventJob, Sql.Table.erase_insert_self]
    · have hl' : (s.jobs.erase id).lookup (jobId job.seq) = some ⟨.pending, runAt, payload⟩ := by
        rw [Sql.Table.lookup_erase_eq, if_neg (Ne.symm hid)]
        exact hl
      rw [← hins _ hl', enqueueSeqEventJob, Sql.Table.erase_insert_of_ne _ hid]
      rfl

theorem queueInv_enqueue {s t : QueueState} {job : SeqEventJob} (h : QueueInv s)
    (hC : FreshId s (.enqueue job)) (hs : queueStep s (.enqueue job) = some t) : QueueInv t := by
  cases hs
  have hinf := inflight_enqueue_fresh h hC
  refine ⟨?_, ?_, ?_⟩
  · rw [QueueState.total, hinf]
    simp only [← Multiset.coe_add, h.accounted, QueueState.total]
    rw [← Multiset.singleton_add, Multiset.coe_singleton]
    abel
  · intro id held hw
    have hl := h.held id held hw
    have hne : id ≠ jobId job.seq := by
      rintro rfl
      exact hC _ hl rfl
    rw [enqueueSeqEventJob, Sql.Table.lookup_insert_eq, if_neg hne]
    exact hl
  · intro hsort
    obtain ⟨hold, -, hlast⟩ := List.pairwise_append.1 hsort
    obtain ⟨hpub, hle, hheld⟩ := h.sorted hold
    -- every job so far was enqueued before this one
    have hmem : ∀ j, j ∈ s.total → j.seq ≤ job.seq := fun j hj =>
      hlast j (by rw [← h.accounted] at hj; exact hj) job (List.mem_singleton_self job)
    refine ⟨hpub, fun p hp j hj => ?_, fun held hw j hj => ?_⟩
    · rw [hinf] at hj
      rcases Multiset.mem_cons.1 hj with rfl | hj
      · exact hmem p (Multiset.mem_add.2 (.inl hp))
      · exact hle p hp j hj
    · rw [hinf] at hj
      rcases Multiset.mem_cons.1 hj with rfl | hj
      · refine hmem held (Multiset.mem_add.2 (.inr ?_))
        cases hworker : s.worker with
        | idle => rw [hworker] at hw; cases hw
        | selected id k =>
          rw [hworker] at hw
          cases hw
          simp [QueueState.inflight, hworker]
        | marked k =>
          rw [hworker] at hw
          cases hw
          simp [QueueState.inflight, hworker]
      · exact hheld held hw j hj

/-- A step of the worker that publishes nothing keeps the jobs on their way. -/
theorem inflight_of_total {s t : QueueState} (htot : t.total = s.total)
    (hp : t.published = s.published) : t.inflight = s.inflight := by
  rw [QueueState.total, QueueState.total, hp] at htot
  exact add_left_cancel htot

theorem queueInv_select {s t : QueueState} {id : String} (h : QueueInv s)
    (hs : queueStep s (.select id) = some t) : QueueInv t := by
  have htot := total_worker rfl hs
  simp only [queueStep] at hs
  split at hs
  · rename_i seq payload hw hl
    split at hs
    · rename_i hmin
      cases hs
      have hinf := inflight_of_total htot rfl
      refine ⟨h.accounted.trans htot.symm, ?_, fun hsort => ?_⟩
      · rintro _ _ ⟨⟩
        exact hl
      · obtain ⟨hpub, hle, -⟩ := h.sorted hsort
        refine ⟨hpub, hinf ▸ hle, ?_⟩
        rintro _ ⟨⟩ j hj
        rw [hinf, QueueState.inflight, hw] at hj
        obtain ⟨jid, hj⟩ := mem_pendingJobs.1 hj
        exact of_decide_eq_true hmin ⟨jid, _⟩ (Finmap.lookup_eq_some_iff.1 hj) rfl
    · cases hs
  · cases hs

theorem queueInv_mark {s t : QueueState} (h : QueueInv s) (hs : queueStep s .mark = some t) :
    QueueInv t := by
  have htot := total_worker rfl hs
  simp only [queueStep] at hs
  split at hs
  · rename_i id job hw
    cases hs
    have hinf := inflight_of_total htot rfl
    refine ⟨h.accounted.trans htot.symm, by rintro _ _ ⟨⟩, fun hsort => ?_⟩
    obtain ⟨hpub, hle, hheld⟩ := h.sorted hsort
    refine ⟨hpub, hinf ▸ hle, ?_⟩
    rintro _ ⟨⟩ j hj
    rw [hinf] at hj
    exact hheld job (by rw [hw]; rfl) j hj
  · cases hs

theorem queueInv_publish {s t : QueueState} (h : QueueInv s) (hs : queueStep s .publish = some t) :
    QueueInv t := by
  have htot := total_worker rfl hs
  simp only [queueStep] at hs
  split at hs
  · rename_i job hw
    cases hs
    have hinf : s.inflight = job ::ₘ pendingJobs s.jobs := by rw [QueueState.inflight, hw]
    refine ⟨h.accounted.trans htot.symm, by rintro _ _ ⟨⟩, fun hsort => ?_⟩
    obtain ⟨hpub, hle, hheld⟩ := h.sorted hsort
    rw [hinf] at hle
    refine ⟨List.pairwise_append.2 ⟨hpub, List.pairwise_singleton _ _, fun p hp j hj => ?_⟩,
      fun p hp j hj => ?_, by rintro _ ⟨⟩⟩
    · exact List.mem_singleton.1 hj ▸ hle p hp job (Multiset.mem_cons_self _ _)
    · have hj' : j ∈ s.inflight := hinf ▸ Multiset.mem_cons_of_mem hj
      rcases List.mem_append.1 hp with hp | hp
      · exact hle p hp j (Multiset.mem_cons_of_mem hj)
      · rw [List.mem_singleton.1 hp]
        exact hheld job (by rw [hw]; rfl) j hj'
  · cases hs

theorem queueInv_step (s : QueueState) (a : QueueStep) (t : QueueState) (h : QueueInv s)
    (hC : FreshId s a) (hs : queueStep s a = some t) : QueueInv t := by
  cases a with
  | enqueue job => exact queueInv_enqueue h hC hs
  | select id => exact queueInv_select h hs
  | mark => exact queueInv_mark h hs
  | publish => exact queueInv_publish h hs

/-- An enqueue that replaces an unpublished job loses it for good. -/
theorem not_exactlyOnce_of_taken (s : QueueState) (a : QueueStep) (t : QueueState) (h : QueueInv s)
    (hC : ¬ FreshId s a) (hs : queueStep s a = some t) : ¬ ExactlyOnce t := by
  cases a with
  | select id => exact absurd trivial hC
  | mark => exact absurd trivial hC
  | publish => exact absurd trivial hC
  | enqueue job =>
    intro honce
    simp only [FreshId, not_forall, not_not] at hC
    obtain ⟨row, hl, hp⟩ := hC
    cases hs
    have hcard := card_inflight_enqueue_taken hl hp
    obtain ⟨ws, u, hws, hr, hu⟩ := honce.allPublished
    have htot := congrArg Multiset.card (total_run hws hr)
    have hacc := congrArg Multiset.card h.accounted
    have hpub := congrArg Multiset.card hu
    simp only [QueueState.total, Multiset.card_add, Multiset.coe_card, List.length_append,
      List.length_singleton] at htot hacc hpub hcard
    omega

/-- **The worker publishes every job exactly once, in any interleaving, exactly if no job is
enqueued under the seq of one that is still pending.** -/
theorem exactlyOnce_iff_freshId (as : List QueueStep) :
    Runs.Always queueStep ExactlyOnce .start as ↔ Runs.Along queueStep FreshId .start as :=
  Runs.always_iff_along (fun _ h => h.exactlyOnce) queueInv_step not_exactlyOnce_of_taken
    queueInv_start as

/-! ## Two jobs of one millisecond -/

/-- The job of a sample event with this id. -/
def sampleJob (seq : DbId) : SeqEventJob :=
  ⟨seq.timestampMs, sampleCodecs.toJson (sampleEvt seq)⟩

/-- It is the one `sequence_evt` enqueues. -/
theorem seqEventJob_sample (seq : DbId) :
    seqEventJob sampleCodecs ⟨seq, "did:plc:a", "identity", sampleBody, some 0, 0⟩ =
      .ok (sampleJob seq) := by
  simp [seqEventJob, typedSeqEvt, typedArm, sampleCodecs, sampleJob, sampleEvt, sampleTyped]

/-- An account event sequenced in the millisecond 5. -/
def sampleAccountJob : SeqEventJob :=
  ⟨5, "\x7b\"type\":\"account\",\"seq\":5,\"time\":\"2026-01-01T00:00:00.000Z\",\"evt\":\x7b" ++
    "\"did\":\"did:plc:a\",\"active\":true\x7d\x7d"⟩

/-- An identity and an account event of the millisecond 5, both enqueued before the worker gets to
the first: the second job takes the first one's row. -/
theorem exactlyOnce_fails_within_millisecond :
    ¬ Runs.Always queueStep ExactlyOnce .start
      [.enqueue (sampleJob (.ofParts 5 0)), .enqueue sampleAccountJob] := by
  intro h
  have hfirst : FreshId .start (.enqueue (sampleJob (.ofParts 5 0))) := by
    intro row hrow
    simp [QueueState.start] at hrow
  have hinv := queueInv_step _ _ _ queueInv_start hfirst rfl
  refine not_exactlyOnce_of_taken _ (.enqueue sampleAccountJob) _ hinv ?_ rfl (h.last rfl)
  intro hC
  exact hC _ (Finmap.lookup_insert _) rfl

end CacosPds.Sequencer
