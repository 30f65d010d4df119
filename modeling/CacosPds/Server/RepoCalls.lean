import CacosPds.Server.RecordSwap
/-!
# The four repo requests, and the commits they apply

| here | there |
| --- | --- |
| `dispatchAction`, `prepareApplyWrites` | `dispatch_action` (`apply_writes.rs:38`), and `inner_apply_writes` up to `transact` |
| `RepoCall`      | a `createRecord`, `putRecord`, `deleteRecord` or `applyWrites`, with the failures it meets in `process_writes` |
| `appliedCommit` | the commit that `process_writes` applies, whether or not it then returns |

A call that returns has applied its commit, and one that applies a commit returns unless it fails at the
blobs: `failsAfterCommit_iff`.
-/
namespace CacosPds.Server

open Stages
open ActorStore (RepoLib Store PreparedWrite Accepts IndexRuns BlobsPass CommitDataWithOps)
open Sequencer (Codecs Encoders)

/-! ## Requests -/

inductive ApplyWritesInputRefWrite where
  | create (collection : String) (rkey : Option String) (value : JsonValue)
  | update (collection rkey : String) (value : JsonValue)
  | delete (collection rkey : String)

/-- `repo` is left out, the handler does not read it. -/
structure ApplyWritesInput where
  validate : Option Bool
  writes : List ApplyWritesInputRefWrite
  swapCommit : Option String

structure PreparedBatch where
  did : String
  writes : List PreparedWrite
  swapCid : Option Cid

def dispatchAction (L : RecordLib) (nextRkey did : String) (validate : Bool) :
    ApplyWritesInputRefWrite → Except ApiError PreparedWrite
  | .create collection rkey value => do
    let record ← (L.recordOfJson value).mapError fun e => .invalidRequest ("create record: " ++ e)
    let prepared ← (prepareCreate L nextRkey
      ⟨did, collection, rkey, none, record, some validate⟩).mapError fun e =>
        .invalidRequest ("prepare_create: " ++ e)
    return .create prepared
  | .update collection rkey value => do
    let record ← (L.recordOfJson value).mapError fun e => .invalidRequest ("update record: " ++ e)
    let prepared ← (prepareUpdate L
      ⟨did, collection, rkey, none, record, some validate⟩).mapError fun e =>
        .invalidRequest ("prepare_update: " ++ e)
    return .update prepared
  | .delete collection rkey => do
    let prepared ← (prepareDelete L ⟨did, collection, rkey, none⟩).mapError fun e =>
      .invalidRequest ("prepare_delete: " ++ e)
    return .delete prepared

def prepareApplyWrites (L : RecordLib) (nextRkey : Nat → String) (did : Option String)
    (body : ApplyWritesInput) : Except ApiError PreparedBatch := do
  let did ← requesterDid did
  let swapCid ← parseSwap L body.swapCommit
  let writes ← body.writes.zipIdx.mapM fun action =>
    dispatchAction L (nextRkey action.2) did (body.validate.getD true) action.1
  return ⟨did, writes, swapCid⟩

/-- The code that is not the repository's. -/
structure Foreign where
  repo : RepoLib
  records : RecordLib
  encoders : Encoders
  codecs : Codecs
  ulids : UlidGenerator

inductive RepoRequest where
  | record (req : RecordRequest)
  | applyWrites (body : ApplyWritesInput)

structure RepoCall where
  requester : Option String
  request : RepoRequest
  /-- The ticker's answers, one after another. -/
  nextRkey : Nat → String
  faults : ActorStore.Faults
  clock : ActorStore.Clock

/-- What the record handlers prepare a write with; its later failures are steps of their own here. -/
def RepoCall.env (X : Foreign) (call : RepoCall) : WriteEnv where
  repo := X.repo
  records := X.records
  encoders := X.encoders
  faults := call.faults
  transact := none
  insertEvt := none
  clock := call.clock
  now := 0
  nextRkey := call.nextRkey 0

def RepoCall.prepare (X : Foreign) (call : RepoCall) : Except ApiError PreparedBatch :=
  match call.request with
  | .record req =>
    (req.prepare (call.env X) call.requester).map fun p => ⟨p.did, [p.write], p.swapCid⟩
  | .applyWrites body => prepareApplyWrites X.records call.nextRkey call.requester body

/-! ## What a call applies -/

instance (F : ActorStore.Faults) (writes : List PreparedWrite) : Decidable (IndexRuns F writes) :=
  inferInstanceAs (Decidable (∀ n < writes.length, F (.indexWrite n) = none))

def appliedCommit (U : RepoLib) (F : ActorStore.Faults) (s : Store) (writes : List PreparedWrite)
    (swapCommit : Option Cid) : Option CommitDataWithOps :=
  match ActorStore.formatCommit U F s writes swapCommit with
  | .ok r => if IndexRuns F writes ∧ F .applyCommit = none then some r else none
  | .error _ => none

/-- The commit is applied, and then a blob or a statement about blobs stops the call. -/
structure FailsAfterCommit (U : RepoLib) (F : ActorStore.Faults) (s : Store)
    (writes : List PreparedWrite) (swapCommit : Option Cid) : Prop where
  accepted : ∃ root commit, Accepts U F s writes swapCommit root commit
  indexed : IndexRuns F writes
  applied : F .applyCommit = none
  blobs : ¬ BlobsPass F s writes

section

variable {U : RepoLib} {F : ActorStore.Faults} {now : ActorStore.Clock} {s : Store}
  {writes : List PreparedWrite} {swapCommit : Option Cid} {r : CommitDataWithOps}

theorem appliedCommit_eq_some : appliedCommit U F s writes swapCommit = some r ↔
    ActorStore.formatCommit U F s writes swapCommit = .ok r ∧ IndexRuns F writes ∧
      F .applyCommit = none := by
  unfold appliedCommit
  cases ActorStore.formatCommit U F s writes swapCommit with
  | error e => simp
  | ok r' =>
    simp only [Option.ite_none_right_eq_some, Option.some.injEq, Except.ok.injEq]
    exact and_comm

variable (now) in
/-- The root after a call that applies a commit is that commit … -/
theorem root_of_applied (h : appliedCommit U F s writes swapCommit = some r) :
    ((ActorStore.processWrites U F now writes swapCommit).exec s).2.repoRoot =
        some ⟨r.commitData.cid, r.commitData.rev, now.reader⟩ ∧
      ((ActorStore.processWrites U F now writes swapCommit).exec s).2.repo = r.commitData.repo := by
  obtain ⟨hf, hi, ha⟩ := appliedCommit_eq_some.1 h
  have hrepo := ActorStore.processWrites_sameRepo now hf hi ha
  exact ⟨hrepo.repoRoot, hrepo.repo⟩

variable (now) in
/-- … and else as it was; and then the call fails. -/
theorem root_of_unapplied (h : appliedCommit U F s writes swapCommit = none) :
    ∃ e t, (ActorStore.processWrites U F now writes swapCommit).exec s = (.error e, t) ∧
      t.repoRoot = s.repoRoot ∧ t.repo = s.repo := by
  have hnot : ∀ r, ActorStore.formatCommit U F s writes swapCommit = .ok r → IndexRuns F writes →
      F .applyCommit ≠ none := by
    intro r hf hi ha
    rw [appliedCommit_eq_some.2 ⟨hf, hi, ha⟩] at h
    cases h
  rcases hx : (ActorStore.processWrites U F now writes swapCommit).exec s with ⟨e | r, t⟩
  · refine ⟨e, t, rfl, ?_⟩
    rcases ActorStore.processWrites_error hx with
      ⟨-, rfl⟩ | ⟨r, hf, ⟨n, -, -, -, rfl⟩ | ⟨-, -, rfl⟩ | ⟨hi, ha, -⟩⟩
    · exact ⟨rfl, rfl⟩
    · rw [ActorStore.indexAll_eq]
      exact ⟨rfl, rfl⟩
    · rw [ActorStore.indexAll_eq]
      exact ⟨rfl, rfl⟩
    · exact absurd ha (hnot r hf hi)
  · obtain ⟨hf, hi, ha, -⟩ := ActorStore.processWrites_ok.1 hx
    exact absurd ha (hnot r hf hi)

/-- A call that returns has applied what it returns. -/
theorem applied_of_ok {t : Store}
    (h : (ActorStore.processWrites U F now writes swapCommit).exec s = (.ok r, t)) :
    appliedCommit U F s writes swapCommit = some r := by
  obtain ⟨hf, hi, ha, -⟩ := ActorStore.processWrites_ok.1 h
  exact appliedCommit_eq_some.2 ⟨hf, hi, ha⟩

/-- A call that fails after its commit has applied it. -/
theorem FailsAfterCommit.commit (h : FailsAfterCommit U F s writes swapCommit) :
    ∃ r, appliedCommit U F s writes swapCommit = some r := by
  obtain ⟨root, commit, hacc⟩ := h.accepted
  exact ⟨_, appliedCommit_eq_some.2
    ⟨ActorStore.formatCommit_ok.2 ⟨root, commit, hacc, rfl⟩, h.indexed, h.applied⟩⟩

variable (now) in
/-- One that has applied a commit and fails does so at the blobs. -/
theorem failsAfterCommit_iff (h : appliedCommit U F s writes swapCommit = some r) :
    FailsAfterCommit U F s writes swapCommit ↔
      ∃ e t, (ActorStore.processWrites U F now writes swapCommit).exec s = (.error e, t) := by
  obtain ⟨hf, hi, ha⟩ := appliedCommit_eq_some.1 h
  constructor
  · intro hfails
    rcases hx : (ActorStore.processWrites U F now writes swapCommit).exec s with ⟨e | r', t⟩
    · exact ⟨e, t, rfl⟩
    · obtain ⟨hf', -, -, hb⟩ := ActorStore.processWrites_ok.1 hx
      exact absurd ((ActorStore.blobsPass_iff now).1 ⟨t, hb⟩) hfails.blobs
  · rintro ⟨e, t, hx⟩
    obtain ⟨root, commit, hacc, -⟩ := ActorStore.formatCommit_ok.1 hf
    refine ⟨⟨root, commit, hacc⟩, hi, ha, fun hpass => ?_⟩
    obtain ⟨t', hb⟩ := (ActorStore.blobsPass_iff (r := r) now).2 hpass
    rw [ActorStore.processWrites_ok.2 ⟨hf, hi, ha, hb⟩] at hx
    cases hx

end

end CacosPds.Server
