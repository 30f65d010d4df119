import CacosPds.ActorStore.BlockReads
import CacosPds.ActorStore.ProcessWrites
import CacosPds.Lib.Run
/-!
# The block cache under concurrent calls (`repo/sql_repo.rs:58-164`, `:266-456`, `:684-712`)

Clones of a `SqlRepoReader` share the cache and the database. A call is a sequence of steps, one for
each `await` on the database or on the cache lock, and the steps of several calls may come in any
order.

| here | there |
| --- | --- |
| `CacheTask.reading`, `.setting`      | `get_bytes_impl` behind a miss (`sql_repo.rs:69-86`) |
| `CacheTask.readingBlocks`, `.merging` | `get_blocks_inner` behind a miss (`:117-149`) |
| `CacheTask.readingRev`               | `cache_rev` (`:684`) |
| `CacheTask.putting`                  | `put_block_impl` (`:293`) |
| `CacheTask.puttingMany`              | `put_many_inner` (`:327`) |
| `CacheTask.deleting`                 | `delete_many` (`:266`) |
| `CacheTask.committing`, `.evicting`  | `apply_commit_impl` (`:420`), which evicts twice |

A transaction is one step: other calls see all of it or nothing.
-/
namespace CacosPds.ActorStore

/-- What a call has left to do. -/
inductive CacheTask where
  /-- `find_by_id` is next. -/
  | reading (cid : Cid)
  /-- One query for each batch, then the merge. -/
  | readingBlocks (batches : List (List Cid)) (blocks : BlockMap)
  | readingRev (rev : String)
  /-- `cache_guard.set` of the rows is next. -/
  | setting (rows : List (Cid × Bytes))
  /-- `cache_guard.add_map` is next. -/
  | merging (blocks : BlockMap)
  /-- The insert is next, then the `set`. -/
  | putting (cid : Cid) (bytes : Bytes) (rev : String)
  | puttingMany (entries : List (Cid × Bytes)) (rev : String)
  /-- One statement for each batch, then the eviction of all of them. -/
  | deleting (batches : List (List Cid)) (cids : List Cid)
  /-- The transaction is next. -/
  | committing (commit : CommitData)
  | evicting (cids : List Cid) (again : Bool)

/-- The CIDs a call takes out of the cache, unless it fails. -/
def CacheTask.evicts : CacheTask → List Cid
  | .deleting _ cids | .evicting cids _ => cids
  | .committing commit => commit.removedCids
  | _ => []

/-- The next step is a database access, which may fail. -/
def CacheTask.accesses : CacheTask → Bool
  | .reading _ | .readingBlocks (_ :: _) _ | .readingRev _ | .putting _ _ _
  | .puttingMany (_ :: _) _ | .deleting (_ :: _) _ | .committing _ => true
  | _ => false

structure CacheState where
  db : Sql.Table Cid BlockRow
  cache : BlockMap
  tasks : Sql.Table Nat CacheTask

/-- `SqlRepoReader::new` over a database. -/
def CacheState.fresh (db : Sql.Table Cid BlockRow) : CacheState := ⟨db, ∅, ∅⟩

inductive CacheStep where
  /-- `get_bytes` or `has`. -/
  | getBytes (task : Nat) (cid : Cid)
  | getBlocks (task : Nat) (cids : List Cid)
  | cacheRev (task : Nat) (rev : String)
  | putBlock (task : Nat) (cid : Cid) (bytes : Bytes) (rev : String)
  | putMany (task : Nat) (toPut : List (Cid × Bytes)) (rev : String)
  | deleteMany (task : Nat) (cids : List Cid)
  | applyCommit (task : Nat) (commit : CommitData)
  /-- A call goes one step on. -/
  | go (task : Nat)
  /-- The database access of a call fails. -/
  | fail (task : Nat)

/-- `LIMIT 15` of `cache_rev`. -/
def cacheRevLimit : Nat := 15

def rowsOfRev (db : Sql.Table Cid BlockRow) (rev : String) : List (Cid × Bytes) :=
  ((db.selectBy (fun _ row => row.repoRev = rev) (fun cid _ => cid.text) Cid.mk).take
    cacheRevLimit).map fun row => (row.1, row.2.content)

def insertBlock (db : Sql.Table Cid BlockRow) (cid : Cid) (bytes : Bytes) (rev : String) :
    Sql.Table Cid BlockRow :=
  db.insertIgnore cid ⟨rev, bytes.length, bytes⟩

/-- The block statements of `apply_commit`'s transaction. -/
def commitBlocks (db : Sql.Table Cid BlockRow) (commit : CommitData) : Sql.Table Cid BlockRow :=
  (db.insertAllIgnore (blockRows commit)).deleteInBatches batchSize commit.removedCids

/-- `cache_guard.set`, row after row. -/
def setAll (cache : BlockMap) (rows : List (Cid × Bytes)) : BlockMap :=
  rows.foldl (fun cache row => cache.insert row.1 row.2) cache

variable (U : BlockLib)

/-- One step of a call: the database, the cache, and what is left of the call. -/
def CacheTask.next (db : Sql.Table Cid BlockRow) (cache : BlockMap) :
    CacheTask → Sql.Table Cid BlockRow × BlockMap × Option CacheTask
  | .reading cid =>
    match db.lookup cid with
    | none => (db, cache, none)
    | some row => (db, cache, some (.setting [(cid, row.content)]))
  | .readingBlocks [] blocks => (db, cache, some (.merging blocks))
  | .readingBlocks (batch :: batches) blocks =>
    (db, cache, some (.readingBlocks batches ((blocksIn db batch).foldl takeRow (blocks, ∅)).1))
  | .readingRev rev => (db, cache, some (.setting (rowsOfRev db rev)))
  | .setting rows => (db, setAll cache rows, none)
  | .merging blocks =>
    match U.addMap cache blocks with
    | .error _ => (db, cache, none)
    | .ok cache => (db, cache, none)
  | .putting cid bytes rev => (insertBlock db cid bytes rev, cache, some (.setting [(cid, bytes)]))
  | .puttingMany [] _ => (db, cache, none)
  | .puttingMany ((cid, bytes) :: entries) rev =>
    (insertBlock db cid bytes rev, cache, some (.puttingMany entries rev))
  | .deleting [] cids => (db, cache.deleteIn cids, none)
  | .deleting (batch :: batches) cids => (db.deleteIn batch, cache, some (.deleting batches cids))
  | .committing commit => (commitBlocks db commit, cache, some (.evicting commit.removedCids true))
  | .evicting cids again =>
    (db, cache.deleteIn cids, if again then some (.evicting cids false) else none)

/-- A new call, up to its first `await` on the database. -/
def CacheState.start (s : CacheState) (task : Nat) (t : CacheTask) : Option CacheState :=
  if task ∈ s.tasks then none else some { s with tasks := s.tasks.insert task t }

def cacheStep (s : CacheState) : CacheStep → Option CacheState
  | .getBytes task cid =>
    match s.cache.lookup cid with
    | some _ => some s
    | none => s.start task (.reading cid)
  | .getBlocks task cids =>
    match U.getMany s.cache cids with
    | .error _ => some s
    | .ok cached =>
      if cached.missing = [] then some s
      else s.start task (.readingBlocks (cached.missing.toChunks batchSize) ∅)
  | .cacheRev task rev => s.start task (.readingRev rev)
  | .putBlock task cid bytes rev => s.start task (.putting cid bytes rev)
  | .putMany task toPut rev => s.start task (.puttingMany toPut rev)
  | .deleteMany task cids =>
    if cids = [] then some s else s.start task (.deleting (cids.toChunks batchSize) cids)
  | .applyCommit task commit => s.start task (.committing commit)
  | .go task =>
    match s.tasks.lookup task with
    | none => none
    | some t =>
      let (db, cache, left) := t.next U s.db s.cache
      some ⟨db, cache, left.elim (s.tasks.erase task) (s.tasks.insert task ·)⟩
  | .fail task =>
    match s.tasks.lookup task with
    | none => none
    | some t => if t.accesses then some { s with tasks := s.tasks.erase task } else none

/-! ## Coherence -/

/-- With no call in progress the cache agrees with the database, and `get_bytes` reports a block
exactly when the database has it. -/
def CoherentAtRest (s : CacheState) : Prop :=
  s.tasks = ∅ → CacheAgrees s.db s.cache ∧
    ∀ cid, (getBytes none s.db s.cache cid).1 = .ok (content s.db cid)

/-- A call in progress takes the CID out of the cache, unless it fails. -/
def CacheState.evictsLater (s : CacheState) (cid : Cid) : Bool :=
  s.tasks.anyRow fun _ t => cid ∈ t.evicts

/-- The pair may be in the cache: it is the database's, or it goes. -/
def CacheState.admits (s : CacheState) (cid : Cid) (bytes : Bytes) : Bool :=
  content s.db cid = some bytes || s.evictsLater cid

/-- What a step must not do for the cache to stay coherent: put in a pair that is not the database's
any more, or give up on an eviction that such a pair waits for. -/
def fillsRight (s : CacheState) : CacheStep → Bool
  | .go task =>
    match s.tasks.lookup task with
    | some (.setting rows) => rows.all fun row => s.admits row.1 row.2
    | some (.merging blocks) => !(blocks.anyRow fun cid bytes => !s.admits cid bytes)
    | _ => true
  | .fail task =>
    match s.tasks.lookup task with
    | some t =>
      t.evicts.all fun cid => (s.cache.lookup cid).all fun bytes =>
        CacheState.admits { s with tasks := s.tasks.erase task } cid bytes
    | none => true
  | _ => true

/-- Every cached pair is the database's or about to go, and a `delete_many` deletes what it evicts. -/
structure CacheInv (s : CacheState) : Prop where
  admitted : ∀ cid bytes, s.cache.lookup cid = some bytes → s.admits cid bytes = true
  within : ∀ task batches cids, s.tasks.lookup task = some (.deleting batches cids) →
    ∀ cid ∈ batches.flatten, cid ∈ cids

/-! ### Who evicts -/

variable {s t : CacheState} {cid : Cid} {bytes : Bytes}

theorem evictsLater_iff : s.evictsLater cid = true ↔
    ∃ j u, s.tasks.lookup j = some u ∧ cid ∈ u.evicts := by
  simp only [CacheState.evictsLater, Sql.Table.anyRow_iff, decide_eq_true_eq]

theorem admits_iff : s.admits cid bytes = true ↔
    content s.db cid = some bytes ∨ ∃ j u, s.tasks.lookup j = some u ∧ cid ∈ u.evicts := by
  rw [CacheState.admits, Bool.or_eq_true, decide_eq_true_eq, evictsLater_iff]

/-- Another call than `task` evicts the CID. -/
def CacheState.othersEvict (s : CacheState) (task : Nat) (cid : Cid) : Prop :=
  ∃ j u, j ≠ task ∧ s.tasks.lookup j = some u ∧ cid ∈ u.evicts

/-- Of the calls in progress, one is `task` and the others are the others. -/
theorem admits_split {task : Nat} {u : CacheTask} (hu : s.tasks.lookup task = some u) :
    s.admits cid bytes = true ↔
      content s.db cid = some bytes ∨ s.othersEvict task cid ∨ cid ∈ u.evicts := by
  rw [admits_iff]
  refine or_congr_right ⟨?_, ?_⟩
  · rintro ⟨j, v, hv, hmem⟩
    by_cases hj : j = task
    · subst hj
      rw [hu, Option.some.injEq] at hv
      exact .inr (hv ▸ hmem)
    · exact .inl ⟨j, v, hj, hv, hmem⟩
  · rintro (⟨j, v, -, hv, hmem⟩ | hmem)
    · exact ⟨j, v, hv, hmem⟩
    · exact ⟨task, u, hu, hmem⟩

/-! ### What one step of a call does -/

theorem content_insertIgnore {db : Sql.Table Cid BlockRow} (c : Cid) (row : BlockRow)
    (h : content db cid = some bytes) : content (db.insertIgnore c row) cid = some bytes := by
  obtain ⟨old, hold, rfl⟩ := Option.map_eq_some_iff.1 h
  rw [content, Sql.Table.lookup_insertIgnore]
  by_cases hc : cid = c
  · subst hc
    rw [if_pos rfl, hold]
    rfl
  · rw [if_neg hc, hold]
    rfl

theorem content_insertAllIgnore {db : Sql.Table Cid BlockRow} (rows : List (Cid × BlockRow))
    (h : content db cid = some bytes) : content (db.insertAllIgnore rows) cid = some bytes := by
  induction rows generalizing db with
  | nil => exact h
  | cons row rows ih => exact ih (content_insertIgnore row.1 row.2 h)

theorem content_deleteIn {db : Sql.Table Cid BlockRow} {cids : List Cid} (hcid : cid ∉ cids) :
    content (db.deleteIn cids) cid = content db cid := by
  rw [content, Sql.Table.lookup_deleteIn, if_neg hcid, content]

theorem content_commitBlocks {db : Sql.Table Cid BlockRow} {commit : CommitData}
    (hcid : cid ∉ commit.removedCids) (h : content db cid = some bytes) :
    content (commitBlocks db commit) cid = some bytes := by
  rw [commitBlocks, Sql.Table.deleteInBatches_eq, content_deleteIn hcid]
  exact content_insertAllIgnore _ h

/-- A cached pair was put in, or was there. -/
theorem lookup_setAll {cache : BlockMap} {rows : List (Cid × Bytes)}
    (h : (setAll cache rows).lookup cid = some bytes) :
    (cid, bytes) ∈ rows ∨ cache.lookup cid = some bytes := by
  induction rows generalizing cache with
  | nil => exact .inr h
  | cons row rows ih =>
    rcases ih h with hmem | hlook
    · exact .inl (List.mem_cons_of_mem _ hmem)
    · rw [Sql.Table.lookup_insert_eq] at hlook
      split at hlook
      · rename_i hc
        cases hlook
        exact .inl (hc ▸ List.mem_cons_self)
      · exact .inr hlook

/-- What is left in the cache after an eviction was not evicted. -/
theorem lookup_evicted {cache : BlockMap} {cids : List Cid}
    (h : (cache.deleteIn cids).lookup cid = some bytes) :
    cid ∉ cids ∧ cache.lookup cid = some bytes := by
  rw [Sql.Table.lookup_deleteIn] at h
  split at h
  · cases h
  · exact ⟨‹_›, h⟩

variable {U}

/-- **One step of a call leaves every cached pair the database's, or one that another call or the rest
of this one evicts.** -/
theorem next_admits (hU : U.Lawful) (hinv : CacheInv s) {task : Nat} {u : CacheTask}
    (hu : s.tasks.lookup task = some u) (hfill : fillsRight s (.go task) = true)
    (h : (u.next U s.db s.cache).2.1.lookup cid = some bytes) :
    content (u.next U s.db s.cache).1 cid = some bytes ∨ s.othersEvict task cid ∨
      ∃ v, (u.next U s.db s.cache).2.2 = some v ∧ cid ∈ v.evicts := by
  have hcached : s.cache.lookup cid = some bytes →
      content s.db cid = some bytes ∨ s.othersEvict task cid ∨ cid ∈ u.evicts := fun hl =>
    (admits_split hu).1 (hinv.admitted cid bytes hl)
  -- a call that evicts nothing, and leaves the database's pairs alone
  have hplain : ∀ {db' : Sql.Table Cid BlockRow} {left : Option CacheTask}, u.evicts = [] →
      (content s.db cid = some bytes → content db' cid = some bytes) →
      content s.db cid = some bytes ∨ s.othersEvict task cid ∨ cid ∈ u.evicts →
      content db' cid = some bytes ∨ s.othersEvict task cid ∨
        ∃ v, left = some v ∧ cid ∈ v.evicts := by
    intro db' left hnil hdb hold
    rw [hnil] at hold
    rcases hold with hrow | hother | hmem
    · exact .inl (hdb hrow)
    · exact .inr (.inl hother)
    · exact absurd hmem List.not_mem_nil
  simp only [fillsRight, hu] at hfill
  cases u with
  | reading c =>
    simp only [CacheTask.next] at h ⊢
    cases hrow : s.db.lookup c <;> simp only [hrow] at h ⊢ <;> exact hplain rfl id (hcached h)
  | readingBlocks batches blocks =>
    cases batches <;> exact hplain rfl id (hcached h)
  | readingRev rev => exact hplain rfl id (hcached h)
  | setting rows =>
    rcases lookup_setAll h with hmem | hl
    · exact hplain rfl id ((admits_split hu).1 (List.all_eq_true.1 hfill _ hmem))
    · exact hplain rfl id (hcached hl)
  | merging blocks =>
    obtain ⟨m, hm, hlook⟩ := hU.addMap s.cache blocks
    simp only [CacheTask.next, hm] at h ⊢
    rw [hlook] at h
    cases hb : blocks.lookup cid with
    | none =>
      rw [hb, Option.none_or] at h
      exact hplain rfl id (hcached h)
    | some b =>
      rw [hb, Option.some_or, Option.some.injEq] at h
      subst h
      rw [Bool.not_eq_true', Sql.Table.anyRow_eq_false] at hfill
      have hadmit := hfill _ _ hb
      rw [Bool.not_eq_false'] at hadmit
      exact hplain rfl id ((admits_split hu).1 hadmit)
  | putting c b rev => exact hplain rfl (content_insertIgnore c _) (hcached h)
  | puttingMany entries rev =>
    cases entries with
    | nil => exact hplain rfl id (hcached h)
    | cons entry entries => exact hplain rfl (content_insertIgnore entry.1 _) (hcached h)
  | deleting batches cids =>
    cases batches with
    | nil =>
      obtain ⟨hnot, hl⟩ := lookup_evicted h
      rcases hcached hl with hrow | hother | hmem
      · exact .inl hrow
      · exact .inr (.inl hother)
      · exact absurd hmem hnot
    | cons batch batches =>
      by_cases hin : cid ∈ batch
      · have hwithin : cid ∈ cids :=
          hinv.within task _ _ hu cid (by rw [List.flatten_cons]; exact List.mem_append_left _ hin)
        exact .inr (.inr ⟨_, rfl, hwithin⟩)
      · rcases hcached h with hrow | hother | hmem
        · exact .inl ((content_deleteIn hin).trans hrow)
        · exact .inr (.inl hother)
        · exact .inr (.inr ⟨_, rfl, hmem⟩)
  | committing commit =>
    by_cases hin : cid ∈ commit.removedCids
    · exact .inr (.inr ⟨_, rfl, hin⟩)
    · rcases hcached h with hrow | hother | hmem
      · exact .inl (content_commitBlocks hin hrow)
      · exact .inr (.inl hother)
      · exact absurd hmem hin
  | evicting cids again =>
    obtain ⟨hnot, hl⟩ := lookup_evicted h
    rcases hcached hl with hrow | hother | hmem
    · exact .inl hrow
    · exact .inr (.inl hother)
    · exact absurd hmem hnot

/-! ### Every step keeps the invariant -/

/-- The remaining batches of a deleting call are among those it had. -/
theorem next_within {u : CacheTask} {batches : List (List Cid)} {cids : List Cid}
    (h : (u.next U s.db s.cache).2.2 = some (.deleting batches cids)) :
    ∃ batch, u = .deleting (batch :: batches) cids := by
  cases u with
  | reading c => cases hrow : s.db.lookup c <;> simp [CacheTask.next, hrow] at h
  | readingBlocks batches blocks => cases batches <;> simp [CacheTask.next] at h
  | merging blocks => cases hm : U.addMap s.cache blocks <;> simp [CacheTask.next, hm] at h
  | puttingMany entries rev => cases entries <;> simp [CacheTask.next] at h
  | deleting batches' cids' =>
    cases batches' with
    | nil => simp [CacheTask.next] at h
    | cons batch batches' =>
      cases h
      exact ⟨batch, rfl⟩
  | evicting cids again => cases again <;> simp [CacheTask.next] at h
  | _ => simp [CacheTask.next] at h

theorem cacheInv_go (hU : U.Lawful) (hinv : CacheInv s) {task : Nat}
    (hfill : fillsRight s (.go task) = true) (hstep : cacheStep U s (.go task) = some t) :
    CacheInv t := by
  simp only [cacheStep] at hstep
  cases hu : s.tasks.lookup task with
  | none => simp [hu] at hstep
  | some u =>
    rw [hu] at hstep
    simp only [Option.some.injEq] at hstep
    subst hstep
    have htasks : ∀ j v, (Option.elim (u.next U s.db s.cache).2.2 (s.tasks.erase task)
        (s.tasks.insert task ·)).lookup j = some v ↔
          (j ≠ task ∧ s.tasks.lookup j = some v) ∨
            (j = task ∧ (u.next U s.db s.cache).2.2 = some v) := by
      intro j v
      cases (u.next U s.db s.cache).2.2 with
      | none =>
        rw [Option.elim_none, Sql.Table.lookup_erase_eq]
        by_cases hj : j = task <;> simp [hj]
      | some w =>
        rw [Option.elim_some, Sql.Table.lookup_insert_eq]
        by_cases hj : j = task <;> simp [hj]
    refine ⟨fun cid bytes hl => ?_, fun j batches cids hj => ?_⟩
    · refine admits_iff.2 ((next_admits hU hinv hu hfill hl).imp_right ?_)
      rintro (⟨j, v, hj, hv, hmem⟩ | ⟨v, hv, hmem⟩)
      · exact ⟨j, v, (htasks j v).2 (.inl ⟨hj, hv⟩), hmem⟩
      · exact ⟨task, v, (htasks task v).2 (.inr ⟨rfl, hv⟩), hmem⟩
    · rcases (htasks j _).1 hj with ⟨-, hold⟩ | ⟨-, hleft⟩
      · exact hinv.within j batches cids hold
      · obtain ⟨batch, rfl⟩ := next_within hleft
        intro cid hmem
        exact hinv.within task _ cids hu cid (by
          rw [List.flatten_cons]
          exact List.mem_append_right _ hmem)

/-- A call that fails gives up its evictions, so they must not have been needed. -/
theorem cacheInv_fail (hinv : CacheInv s) {task : Nat} (hfill : fillsRight s (.fail task) = true)
    (hstep : cacheStep U s (.fail task) = some t) : CacheInv t := by
  simp only [cacheStep] at hstep
  cases hu : s.tasks.lookup task with
  | none => simp [hu] at hstep
  | some u =>
    rw [hu] at hstep
    simp only [Option.ite_none_right_eq_some, Option.some.injEq] at hstep
    obtain ⟨-, rfl⟩ := hstep
    have hleft : ∀ j v, (s.tasks.erase task).lookup j = some v ↔
        j ≠ task ∧ s.tasks.lookup j = some v := by
      intro j v
      rw [Sql.Table.lookup_erase_eq]
      by_cases hj : j = task <;> simp [hj]
    refine ⟨fun cid bytes hl => ?_, fun j batches cids hj => hinv.within j batches cids ((hleft j _).1 hj).2⟩
    rcases (admits_split hu).1 (hinv.admitted cid bytes hl) with hrow | ⟨j, v, hj, hv, hmem⟩ | hmem
    · exact admits_iff.2 (.inl hrow)
    · exact admits_iff.2 (.inr ⟨j, v, (hleft j v).2 ⟨hj, hv⟩, hmem⟩)
    · simp only [fillsRight, hu] at hfill
      have hpair := List.all_eq_true.1 hfill cid hmem
      rwa [show s.cache.lookup cid = some bytes from hl, Option.all_some] at hpair

/-- A new call takes nothing from the others. -/
theorem cacheInv_start (hinv : CacheInv s) {task : Nat} {u : CacheTask}
    (hwithin : ∀ batches cids, u = .deleting batches cids → ∀ cid ∈ batches.flatten, cid ∈ cids)
    (hstart : s.start task u = some t) : CacheInv t := by
  unfold CacheState.start at hstart
  split at hstart
  · cases hstart
  · rename_i hnew
    cases hstart
    have hkept : ∀ j v, s.tasks.lookup j = some v → (s.tasks.insert task u).lookup j = some v := by
      intro j v hv
      rw [Sql.Table.lookup_insert_eq, if_neg, hv]
      rintro rfl
      exact hnew (Finmap.mem_iff.2 ⟨v, hv⟩)
    refine ⟨fun cid bytes hl => ?_, fun j batches cids hj => ?_⟩
    · refine admits_iff.2 ((admits_iff.1 (hinv.admitted cid bytes hl)).imp_right ?_)
      rintro ⟨j, v, hv, hmem⟩
      exact ⟨j, v, hkept j v hv, hmem⟩
    · simp only [Sql.Table.lookup_insert_eq] at hj
      split at hj
      · exact hwithin batches cids (Option.some.inj hj)
      · exact hinv.within j batches cids hj

theorem cacheInv_step (hU : U.Lawful) {a : CacheStep} (hinv : CacheInv s)
    (hfill : fillsRight s a = true) (hstep : cacheStep U s a = some t) : CacheInv t := by
  cases a with
  | getBytes task cid =>
    simp only [cacheStep] at hstep
    split at hstep
    · cases hstep
      exact hinv
    · exact cacheInv_start hinv (by rintro _ _ ⟨⟩) hstep
  | getBlocks task cids =>
    simp only [cacheStep] at hstep
    split at hstep
    · cases hstep
      exact hinv
    · split at hstep
      · cases hstep
        exact hinv
      · exact cacheInv_start hinv (by rintro _ _ ⟨⟩) hstep
  | cacheRev task rev => exact cacheInv_start hinv (by rintro _ _ ⟨⟩) hstep
  | putBlock task cid bytes rev => exact cacheInv_start hinv (by rintro _ _ ⟨⟩) hstep
  | putMany task toPut rev => exact cacheInv_start hinv (by rintro _ _ ⟨⟩) hstep
  | deleteMany task cids =>
    simp only [cacheStep] at hstep
    split at hstep
    · cases hstep
      exact hinv
    · refine cacheInv_start hinv ?_ hstep
      rintro _ _ ⟨⟩ cid hmem
      rwa [Sql.Table.flatten_toChunks] at hmem
  | applyCommit task commit => exact cacheInv_start hinv (by rintro _ _ ⟨⟩) hstep
  | go task => exact cacheInv_go hU hinv hfill hstep
  | fail task => exact cacheInv_fail hinv hfill hstep

theorem cacheInv_fresh (db : Sql.Table Cid BlockRow) : CacheInv (.fresh db) where
  admitted cid bytes h := by cases h
  within task batches cids h := by cases h

theorem CacheInv.coherentAtRest (hinv : CacheInv s) : CoherentAtRest s := by
  intro hrest
  have hagrees : CacheAgrees s.db s.cache := by
    intro cid bytes hl
    rcases admits_iff.1 (hinv.admitted cid bytes hl) with hrow | ⟨j, u, hu, -⟩
    · exact hrow
    · rw [hrest] at hu
      cases hu
  exact ⟨hagrees, getBytes_of_agrees hagrees⟩

/-- **In every run that fills the cache with the database's pairs only, the cache is coherent whenever
no call is in progress.** -/
theorem coherent_of_fillsRight (hU : U.Lawful) (db : Sql.Table Cid BlockRow)
    (acts : List CacheStep)
    (h : Runs.Along (cacheStep U) (fun s a => fillsRight s a = true) (.fresh db) acts) :
    Runs.Always (cacheStep U) CoherentAtRest (.fresh db) acts :=
  (Runs.always_of_along (fun _ _ _ hinv hfill hstep => cacheInv_step hU hinv hfill hstep)
    (cacheInv_fresh db) acts h).mono fun _ hinv => hinv.coherentAtRest

/-! ### Two runs -/

/-- A read fills the cache, and then the block is deleted. -/
def readThenDelete : List CacheStep :=
  [.getBytes 1 (sampleCid 0), .go 1, .go 1, .deleteMany 2 [sampleCid 0], .go 2, .go 2]

theorem coherent_readThenDelete :
    Runs.Always (cacheStep mapLib) CoherentAtRest (.fresh (sampleBlocks 1)) readThenDelete :=
  coherent_of_fillsRight lawful_mapLib (sampleBlocks 1) readThenDelete (by decide +kernel)

/-- The block is deleted and evicted between the two steps of a read. -/
def deleteWithinRead : List CacheStep :=
  [.getBytes 1 (sampleCid 0), .go 1, .deleteMany 2 [sampleCid 0], .go 2, .go 2, .go 1]

/-- The deleted block stays in the cache, and `get_bytes` reports it. -/
theorem stale_after_deleteWithinRead : ¬ ∀ db acts,
    Runs.Always (cacheStep mapLib) CoherentAtRest (.fresh db) acts := by
  intro hall
  obtain ⟨s, hs, hrest, hcached, hgone⟩ : ∃ s ∈ Runs.run (cacheStep mapLib)
      (.fresh (sampleBlocks 1)) deleteWithinRead, s.tasks.keys = ∅ ∧
        s.cache.lookup (sampleCid 0) = some [0] ∧ content s.db (sampleCid 0) = none := by
    decide +kernel
  have hrest : s.tasks = ∅ := Finmap.ext_lookup fun task => by
    rw [Finmap.lookup_empty, Finmap.lookup_eq_none, ← Finmap.mem_keys, hrest]
    exact Finset.notMem_empty task
  have hagrees := ((hall (sampleBlocks 1) deleteWithinRead).last hs hrest).1 _ _ hcached
  rw [hgone] at hagrees
  cases hagrees

end CacosPds.ActorStore
