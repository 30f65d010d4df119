import CacosPds.ActorStore.Tables
/-!
# `format_commit` (`mod.rs:768-873`)

| here | there |
| --- | --- |
| `checkRecordSwap`  | `check_record_swap` (`mod.rs:71`) with `FormatCommitError` (`mod.rs:46`) |
| `writeToOp`        | `rsky_repo::types::write_to_op` |
| `RepoLib`          | `rsky_repo::repo::Repo::format_commit`, a parameter |
| `formatOp`         | the loop over the writes (`mod.rs:799-837`) |
| `getDuplicateRecordCids` | `get_duplicate_record_cids` (`mod.rs:914`) |
| `formatCommit`     | `format_commit` (`mod.rs:768`); it reads the database and writes nothing to it |

`Accepts` says on the inputs when `formatCommit` answers, and `formatCommit_ok` with what.
-/
namespace CacosPds.ActorStore

open Stages

/-! ## Swap checks -/

/-- The `Debug` text of an `Option<Cid>`. -/
def debugCid : Option Cid → String
  | none => "None"
  | some cid => "Some(Cid(" ++ cid.text ++ "))"

inductive FormatCommitError where
  | badRecordSwap (record : String)
  | recordSwapMismatch (record : String)
  deriving DecidableEq

/-- The `Display` text; the record's text is shown as a quoted string. -/
def FormatCommitError.display : FormatCommitError → String
  | .badRecordSwap record => "BadRecordSwapError: `" ++ debugStr record ++ "`"
  | .recordSwapMismatch record =>
    "BadRecordSwapError: current record is `" ++ debugStr record ++ "`"

def checkRecordSwap (action : WriteOpAction) (currentRecord swapCid : Option Cid) :
    Except FormatCommitError Unit :=
  match swapCid with
  | none => .ok ()
  | some swapCid =>
    if action = .create then .error (.badRecordSwap (debugCid currentRecord))
    else match currentRecord with
      | some current =>
        if current = swapCid then .ok () else .error (.recordSwapMismatch (debugCid currentRecord))
      | none => .error (.recordSwapMismatch (debugCid currentRecord))

/-- A swap check passes where none is asked for, and on an update or delete of the named record. -/
theorem checkRecordSwap_ok {action : WriteOpAction} {current swapCid : Option Cid} :
    checkRecordSwap action current swapCid = .ok () ↔
      ∀ c, swapCid = some c → action ≠ .create ∧ current = some c := by
  unfold checkRecordSwap
  cases swapCid with
  | none => simp
  | some c =>
    by_cases ha : action = .create
    · simp [ha]
    cases current with
    | none => simp [ha]
    | some d => by_cases hd : d = c <;> simp [ha, hd]

/-! ## The upstream repo -/

/-- A write as the repo takes it. -/
inductive RecordWriteOp where
  | create (collection rkey : String) (cid : Cid) (record : Bytes)
  | update (collection rkey : String) (cid : Cid) (record : Bytes)
  | delete (collection rkey : String)

def writeToOp : PreparedWrite → RecordWriteOp
  | .create w => .create w.uri.collection w.uri.rkey w.cid w.record
  | .update w => .update w.uri.collection w.uri.rkey w.cid w.record
  | .delete w => .delete w.uri.collection w.uri.rkey

/-- `Repo::format_commit`: the signed commit of a list of writes, or an error. -/
structure RepoLib where
  formatCommit : Repo → List RecordWriteOp → Except String CommitData

/-- `Repo::load` of the stored root, then `Repo::format_commit`. -/
def RepoLib.commit (U : RepoLib) (F : Faults) (s : Store) (writes : List PreparedWrite) :
    Except PdsError CommitData :=
  match F .loadRepo with
  | some e => .error (.ofAnyhow e)
  | none =>
    match U.formatCommit s.repo (writes.map writeToOp) with
    | .error e => .error (.ofAnyhow e)
    | .ok commit => .ok commit

/-! ## The stages of `format_commit` -/

def getRoot (F : Faults) (s : Store) : Except PdsError RootRow :=
  match s.repoRoot, F .getRootDetailed with
  | some root, none => .ok root
  | _, _ => .error (.internal "ActorStoreTransactor::format_commit: no repo root"
      ("No repo root found for `" ++ s.did ++ "`"))

def checkSwapCommit (root : RootRow) (swapCommit : Option Cid) : Except PdsError Unit :=
  if swapCommit.any (root.cid ≠ ·) then
    .error (.internal "ActorStoreTransactor::format_commit: swap commit mismatch"
      ("BadCommitSwapError: current root is `" ++ root.cid.text ++ "`"))
  else .ok ()

/-- A read that only fills a cache. -/
def cacheRev (F : Faults) : Except PdsError Unit :=
  match F .cacheRev with
  | some e => .error (.internal "SqlRepoReader::cache_rev: find failed" e)
  | none => .ok ()

/-- The op of a write: `prev` is what the record index has for its URI. -/
def commitOp (s : Store) (w : PreparedWrite) : CommitOp :=
  { action := w.action, path := w.uri.dataKey, cid := w.newCid, prev := s.indexed w.uri }

def formatOp (F : Faults) (s : Store) (wk : PreparedWrite × Nat) : Except PdsError CommitOp :=
  match F (.getRecord wk.2) with
  | some e => .error (.internal "RecordReader::get_record: find_by_id failed" e)
  | none =>
    match checkRecordSwap wk.1.action (s.indexed wk.1.uri) wk.1.swapCid with
    | .error e => .error (.internal "swap check failed" e.display)
    | .ok () => .ok (commitOp s wk.1)

/-- The rows of `SELECT cid FROM record WHERE cid IN (…) AND uri NOT IN (…)`, or nothing asked. -/
def duplicateRecordCids (s : Store) (cids : List Cid) (touched : List AtUri) : Multiset Cid :=
  if touched = [] ∨ cids = [] then 0
  else s.record.select (fun uri row => row.cid ∈ cids ∧ uri ∉ touched) (fun _ row => row.cid)

def getDuplicateRecordCids (F : Faults) (s : Store) (cids : List Cid) (touched : List AtUri) :
    Except PdsError (Multiset Cid) :=
  match F .duplicateCids with
  | some e => if touched = [] ∨ cids = [] then .ok 0 else .error (.database e)
  | none => .ok (duplicateRecordCids s cids touched)

/-- The CIDs of the new records whose blocks the diff left out. -/
def missingBlocks (writes : List PreparedWrite) (commit : CommitData) : List Cid :=
  (writes.filterMap PreparedWrite.newCid).filter (· ∉ commit.relevantBlocks.map Prod.fst)

/-- The commit with their blocks, as far as the store has them. -/
def withMissingBlocks (s : Store) (writes : List PreparedWrite) (commit : CommitData) : CommitData :=
  { commit with relevantBlocks := commit.relevantBlocks ++
      (missingBlocks writes commit).filterMap fun cid =>
        (s.repoBlock.lookup cid).map fun row => (cid, row.content) }

def addMissingBlocks (F : Faults) (s : Store) (writes : List PreparedWrite) (commit : CommitData) :
    Except PdsError CommitData :=
  match F .getBlocks with
  | some e => if missingBlocks writes commit = [] then .ok commit else .error (.ofAnyhow e)
  | none => .ok (withMissingBlocks s writes commit)

def formatCommit (U : RepoLib) (F : Faults) (s : Store) (writes : List PreparedWrite)
    (swapCommit : Option Cid) : Except PdsError CommitDataWithOps := do
  let currentRoot ← getRoot F s
  checkSwapCommit currentRoot swapCommit
  cacheRev F
  let commitOps ← writes.zipIdx.mapM (formatOp F s)
  let commit ← U.commit F s writes
  let duplicates ← getDuplicateRecordCids F s commit.removedCids (touchedUris writes)
  let commit ← addMissingBlocks F s writes
    { commit with removedCids := commit.removedCids.filter (· ∉ duplicates) }
  return { commitData := commit, ops := commitOps, prevData := some s.repo.data }

/-! ## What `format_commit` accepts, and answers -/

theorem getRoot_ok {F : Faults} {s : Store} {root : RootRow} :
    getRoot F s = .ok root ↔ s.repoRoot = some root ∧ F .getRootDetailed = none := by
  unfold getRoot
  split
  · rename_i h₁ h₂
    simp [h₁, h₂]
  · rename_i h
    simp only [reduceCtorEq, false_iff]
    rintro ⟨h₁, h₂⟩
    exact h root h₁ h₂

theorem checkSwapCommit_ok {root : RootRow} {swapCommit : Option Cid} {a : Unit} :
    checkSwapCommit root swapCommit = .ok a ↔ ∀ c, swapCommit = some c → root.cid = c := by
  unfold checkSwapCommit
  cases swapCommit with
  | none => simp
  | some c => by_cases h : root.cid = c <;> simp [h]

theorem cacheRev_ok {F : Faults} {a : Unit} : cacheRev F = .ok a ↔ F .cacheRev = none := by
  unfold cacheRev
  split <;> simp [*]

theorem formatOp_ok {F : Faults} {s : Store} (wk : PreparedWrite × Nat) (op : CommitOp) :
    formatOp F s wk = .ok op ↔ (F (.getRecord wk.2) = none ∧
      checkRecordSwap wk.1.action (s.indexed wk.1.uri) wk.1.swapCid = .ok ()) ∧
      op = commitOp s wk.1 := by
  unfold formatOp
  split
  · simp [*]
  · split <;> simp [*, eq_comm]

theorem formatOps_ok {F : Faults} {s : Store} {writes : List PreparedWrite} {ops : List CommitOp} :
    writes.zipIdx.mapM (formatOp F s) = .ok ops ↔
      ((∀ n w, writes[n]? = some w → F (.getRecord n) = none) ∧
        ∀ w ∈ writes, checkRecordSwap w.action (s.indexed w.uri) w.swapCid = .ok ()) ∧
        ops = writes.map (commitOp s) := by
  have hzip : (writes.zipIdx.map fun wk => commitOp s wk.1) = writes.map (commitOp s) := by
    show writes.zipIdx.map (commitOp s ∘ Prod.fst) = _
    rw [← List.map_map, List.zipIdx_map_fst]
  rw [mapM_ok formatOp_ok, hzip]
  refine and_congr_left fun _ => ⟨fun h => ⟨fun n w hn => ?_, fun w hw => ?_⟩, ?_⟩
  · exact (h (w, n) (List.mk_mem_zipIdx_iff_getElem?.2 hn)).1
  · obtain ⟨n, hn⟩ := List.mem_iff_getElem?.1 hw
    exact (h (w, n) (List.mk_mem_zipIdx_iff_getElem?.2 hn)).2
  · rintro ⟨hget, hswap⟩ ⟨w, n⟩ hwk
    have hn := List.mk_mem_zipIdx_iff_getElem?.1 hwk
    exact ⟨hget n w hn, hswap w (List.mem_of_getElem? hn)⟩

theorem RepoLib.commit_ok {U : RepoLib} {F : Faults} {s : Store} {writes : List PreparedWrite}
    {commit : CommitData} : U.commit F s writes = .ok commit ↔
      F .loadRepo = none ∧ U.formatCommit s.repo (writes.map writeToOp) = .ok commit := by
  unfold RepoLib.commit
  split
  · simp [*]
  · split <;> simp [*]

theorem getDuplicateRecordCids_ok {F : Faults} {s : Store} {cids : List Cid} {touched : List AtUri}
    {dups : Multiset Cid} : getDuplicateRecordCids F s cids touched = .ok dups ↔
      (touched ≠ [] → cids ≠ [] → F .duplicateCids = none) ∧
        dups = duplicateRecordCids s cids touched := by
  unfold getDuplicateRecordCids duplicateRecordCids
  by_cases h : touched = [] ∨ cids = []
  · have hno : (touched ≠ [] → cids ≠ [] → F .duplicateCids = none) ↔ True :=
      iff_true_intro fun ht hc => absurd h (not_or.2 ⟨ht, hc⟩)
    rw [hno]
    split <;> simp [h, eq_comm]
  · have hask : (touched ≠ [] → cids ≠ [] → F .duplicateCids = none) ↔ F .duplicateCids = none := by
      obtain ⟨ht, hc⟩ := not_or.1 h
      exact ⟨fun hf => hf ht hc, fun hf _ _ => hf⟩
    rw [hask]
    split <;> simp [*, eq_comm]

theorem addMissingBlocks_ok {F : Faults} {s : Store} {writes : List PreparedWrite}
    {commit commit' : CommitData} : addMissingBlocks F s writes commit = .ok commit' ↔
      (missingBlocks writes commit ≠ [] → F .getBlocks = none) ∧
        commit' = withMissingBlocks s writes commit := by
  unfold addMissingBlocks
  by_cases h : missingBlocks writes commit = []
  · have hsame : withMissingBlocks s writes commit = commit := by simp [withMissingBlocks, h]
    split <;> simp [h, hsame, eq_comm]
  · split <;> rename_i hf <;> simp [h, hf, eq_comm]

/-- What `formatCommit` checks, on its inputs: the root row, the swap checks, the accesses it makes,
and that upstream formats the batch. -/
structure Accepts (U : RepoLib) (F : Faults) (s : Store) (writes : List PreparedWrite)
    (swapCommit : Option Cid) (root : RootRow) (commit : CommitData) : Prop where
  hasRoot : s.repoRoot = some root
  getRoot : F .getRootDetailed = none
  swapCommit : ∀ c, swapCommit = some c → root.cid = c
  cacheRev : F .cacheRev = none
  getRecord : ∀ n w, writes[n]? = some w → F (.getRecord n) = none
  swapCid : ∀ w ∈ writes, checkRecordSwap w.action (s.indexed w.uri) w.swapCid = .ok ()
  loadRepo : F .loadRepo = none
  formatted : U.formatCommit s.repo (writes.map writeToOp) = .ok commit
  duplicateCids : touchedUris writes ≠ [] → commit.removedCids ≠ [] → F .duplicateCids = none
  getBlocks : missingBlocks writes commit ≠ [] → F .getBlocks = none

/-- What `formatCommit` makes of upstream's commit. -/
def keepDuplicates (s : Store) (writes : List PreparedWrite) (commit : CommitData) : CommitData :=
  let duplicates := duplicateRecordCids s commit.removedCids (touchedUris writes)
  { commit with removedCids := commit.removedCids.filter (· ∉ duplicates) }

def answer (s : Store) (writes : List PreparedWrite) (commit : CommitData) : CommitDataWithOps :=
  { commitData := withMissingBlocks s writes (keepDuplicates s writes commit)
    ops := writes.map (commitOp s)
    prevData := some s.repo.data }

/-- **`formatCommit` answers exactly the accepted batches.** -/
theorem formatCommit_ok {U : RepoLib} {F : Faults} {s : Store} {writes : List PreparedWrite}
    {swapCommit : Option Cid} {r : CommitDataWithOps} :
    formatCommit U F s writes swapCommit = .ok r ↔
      ∃ root commit, Accepts U F s writes swapCommit root commit ∧ r = answer s writes commit := by
  unfold formatCommit
  simp only [except_bind_ok, getRoot_ok, checkSwapCommit_ok, cacheRev_ok, formatOps_ok,
    RepoLib.commit_ok, getDuplicateRecordCids_ok, addMissingBlocks_ok, pure, Except.pure,
    Except.ok.injEq]
  constructor
  · rintro ⟨root, ⟨h₁, h₂⟩, -, h₃, -, h₄, ops, ⟨⟨h₅, h₆⟩, rfl⟩, commit, ⟨h₇, h₈⟩, dups, ⟨h₉, rfl⟩, _,
      ⟨h₁₀, rfl⟩, rfl⟩
    exact ⟨root, commit, ⟨h₁, h₂, h₃, h₄, h₅, h₆, h₇, h₈, h₉, h₁₀⟩, rfl⟩
  · rintro ⟨root, commit, h, rfl⟩
    exact ⟨root, ⟨h.hasRoot, h.getRoot⟩, (), h.swapCommit, (), h.cacheRev, _,
      ⟨⟨h.getRecord, h.swapCid⟩, rfl⟩, commit, ⟨h.loadRepo, h.formatted⟩, _, ⟨h.duplicateCids, rfl⟩,
      _, ⟨h.getBlocks, rfl⟩, rfl⟩

end CacosPds.ActorStore
