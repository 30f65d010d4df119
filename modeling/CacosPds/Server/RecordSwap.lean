import CacosPds.ActorStore.Atomicity
import CacosPds.ActorStore.RecordBlobs
import CacosPds.ActorStore.RecordBlocks
import CacosPds.Sequencer.Formatters
import CacosPds.Server.CreateAccount
import CacosPds.Server.Prepare
/-!
# Compare-and-swap in the single-record handlers (`xrpc/com/atproto/repo/{create,put,delete}_record.rs`)

| here | there |
| --- | --- |
| `CreateRecordInput` … `DeleteRecordInput` | the bodies; `repo` is left out, no handler reads it |
| `requesterDid`  | `requester_did`, by the DID on the access token |
| `prepareCreateRecord` … `prepareDeleteRecord` | the handlers up to the `PreparedWrite` |
| `writeRecord`   | what follows, the same in all three: `transact`, `process_writes`, `sequence_commit` |
| `Names`         | a swap value's text names the current value |

The body's `swapCommit` becomes both `swap_commit`, compared with the root, and the write's
`swap_cid`, compared with the record; the body's `swapRecord` becomes nothing. A put is an `Update`,
which upstream's tree refuses where no record is.
-/
namespace CacosPds.Server

open Stages
open ActorStore (RepoLib Store PreparedWrite Accepts BlobsPass Takes IndexRuns AtUri)
open Sequencer (RepoSeqNew)

structure CreateRecordInput where
  collection : String
  rkey : Option String
  validate : Option Bool
  record : JsonValue
  swapCommit : Option String

structure PutRecordInput where
  collection : String
  rkey : String
  validate : Option Bool
  record : JsonValue
  swapRecord : Option String
  swapCommit : Option String

structure DeleteRecordInput where
  collection : String
  rkey : String
  swapRecord : Option String
  swapCommit : Option String

structure WriteEnv where
  repo : RepoLib
  records : RecordLib
  encoders : Sequencer.Encoders
  /-- The failing accesses of `process_writes`, and the failures before and after it. -/
  faults : ActorStore.Faults
  transact : Option PdsError
  insertEvt : Option String
  clock : ActorStore.Clock
  now : Sequencer.Instant
  /-- `Ticker::new().next(None)`. -/
  nextRkey : String

/-- The actor's database, and the events sequenced so far. -/
structure RepoState where
  store : Store
  sequenced : List RepoSeqNew

abbrev RecordCall := Stages.Call RepoState ApiError

/-! ## The handlers -/

def requesterDid (did : Option String) : Except ApiError String :=
  match did with
  | some did => .ok did
  | none => .error (.invalidRequest "Missing did on access token")

def parseSwap (L : RecordLib) (swapCommit : Option String) : Except ApiError (Option Cid) :=
  match swapCommit with
  | none => .ok none
  | some text => ((L.parseCid text).mapError .invalidRequest).map some

/-- The record of a body, with its collection's name. -/
def recordOf (L : RecordLib) (collection : String) (record : JsonValue) (validate : Bool) :
    Except ApiError RepoRecord := do
  let record ← (L.recordOfJson record).mapError fun e =>
    .invalidRequest ("Record did not deserialize: " ++ e)
  (setCollectionName collection record validate).mapError .invalidRequest

/-- What a handler has prepared: the requester, the write, and `process_writes`' swap commit. -/
structure Prepared where
  did : String
  write : PreparedWrite
  swapCid : Option Cid

def prepareCreateRecord (E : WriteEnv) (did : Option String) (body : CreateRecordInput) :
    Except ApiError Prepared := do
  let did ← requesterDid did
  let validate := body.validate.getD true
  let record ← recordOf E.records body.collection body.record validate
  (if validate then assertValidRecord record else .ok ()).mapError .invalidRequest
  let swapCid ← parseSwap E.records body.swapCommit
  -- it answers with a create, so the match on the action has one arm
  let prepared ← (prepareCreate E.records E.nextRkey
    ⟨did, body.collection, body.rkey, swapCid, record, some validate⟩).mapError fun e =>
      .invalidRequest ("prepare_create: " ++ e)
  return ⟨did, .create prepared, swapCid⟩

def preparePutRecord (E : WriteEnv) (did : Option String) (body : PutRecordInput) :
    Except ApiError Prepared := do
  let did ← requesterDid did
  let validate := body.validate.getD true
  let record ← recordOf E.records body.collection body.record validate
  let swapCid ← parseSwap E.records body.swapCommit
  let prepared ← (prepareUpdate E.records
    ⟨did, body.collection, body.rkey, swapCid, record, some validate⟩).mapError fun e =>
      .invalidRequest ("prepare_update: " ++ e)
  return ⟨did, .update prepared, swapCid⟩

def prepareDeleteRecord (E : WriteEnv) (did : Option String) (body : DeleteRecordInput) :
    Except ApiError Prepared := do
  let did ← requesterDid did
  let swapCid ← parseSwap E.records body.swapCommit
  let prepared ← (prepareDelete E.records
    ⟨did, body.collection, body.rkey, swapCid⟩).mapError fun e =>
      .invalidRequest ("prepare_delete: " ++ e)
  return ⟨did, .delete prepared, swapCid⟩

def sequenceCommit (E : WriteEnv) (did : String) (commit : ActorStore.CommitDataWithOps) :
    Stages.Call RepoState String Unit := do
  let evt ← ofExcept (Sequencer.formatSeqCommit E.encoders did commit E.now)
  attempt E.insertEvt
  modify fun s => { s with sequenced := s.sequenced ++ [evt] }

/-- The call on the actor's database. -/
def processOne (E : WriteEnv) (write : PreparedWrite) (swapCid : Option Cid) :
    Stages.Call RepoState PdsError ActorStore.CommitDataWithOps :=
  zoom RepoState.store (fun store s => { s with store }) <|
    ActorStore.processWrites E.repo E.faults E.clock [write] swapCid

def writeRecord (E : WriteEnv) (p : Prepared) : RecordCall Unit := do
  attempt (E.transact.map fun _ => .runtimeError)
  let commit ← mapError (fun _ => .runtimeError) (processOne E p.write p.swapCid)
  mapError (fun _ => .runtimeError) (sequenceCommit E p.did commit)

/-- The answer to a create or put: the record's CID and URI. -/
def recordOutput : PreparedWrite → Option (Cid × AtUri)
  | .create w | .update w => some (w.cid, w.uri)
  | .delete _ => none

def respond (E : WriteEnv) (prepared : Except ApiError Prepared) :
    RecordCall (Option (Cid × AtUri)) := do
  let p ← ofExcept prepared
  writeRecord E p
  return recordOutput p.write

def innerCreateRecord (E : WriteEnv) (body : CreateRecordInput) (did : Option String) :
    RecordCall (Option (Cid × AtUri)) :=
  respond E (prepareCreateRecord E did body)

def innerPutRecord (E : WriteEnv) (body : PutRecordInput) (did : Option String) :
    RecordCall (Option (Cid × AtUri)) :=
  respond E (preparePutRecord E did body)

def innerDeleteRecord (E : WriteEnv) (body : DeleteRecordInput) (did : Option String) :
    RecordCall (Option (Cid × AtUri)) :=
  respond E (prepareDeleteRecord E did body)

/-! ## Requests -/

inductive RecordRequest where
  | create (body : CreateRecordInput)
  | put (body : PutRecordInput)
  | delete (body : DeleteRecordInput)

namespace RecordRequest

def handle (E : WriteEnv) (did : Option String) :
    RecordRequest → RecordCall (Option (Cid × AtUri))
  | .create body => innerCreateRecord E body did
  | .put body => innerPutRecord E body did
  | .delete body => innerDeleteRecord E body did

def prepare (E : WriteEnv) (did : Option String) : RecordRequest → Except ApiError Prepared
  | .create body => prepareCreateRecord E did body
  | .put body => preparePutRecord E did body
  | .delete body => prepareDeleteRecord E did body

/-- The collection and the rkey that the request is about. -/
def names (E : WriteEnv) : RecordRequest → String × String
  | .create body => (body.collection, body.rkey.getD E.nextRkey)
  | .put body => (body.collection, body.rkey)
  | .delete body => (body.collection, body.rkey)

/-- The path of the URI that they make. -/
def path (E : WriteEnv) (did : Option String) (req : RecordRequest) : String :=
  match E.records.makeUri (did.getD "") (req.names E).1 (req.names E).2 with
  | .ok uri => uri.dataKey
  | .error _ => ActorStore.formatDataKey (req.names E).1 (req.names E).2

/-- It is made of the two, where each is one segment. -/
theorem path_of_segments {E : WriteEnv} {did : Option String} {req : RecordRequest}
    (hcollection : IsSegment (req.names E).1) (hrkey : IsSegment (req.names E).2) :
    req.path E did = ActorStore.formatDataKey (req.names E).1 (req.names E).2 := by
  unfold path
  split
  · next uri hu =>
    obtain ⟨hc, hr⟩ := E.records.makeUri_ok hcollection hrkey hu
    rw [AtUri.dataKey, hc, hr]
  · rfl

theorem path_of_makeUri {E : WriteEnv} {did : String} {req : RecordRequest} {uri : AtUri}
    (h : E.records.makeUri did (req.names E).1 (req.names E).2 = .ok uri) :
    uri.dataKey = req.path E (some did) := by
  rw [path, Option.getD_some, h]

def isCreate : RecordRequest → Bool
  | .create _ => true
  | _ => false

def swapCommit : RecordRequest → Option String
  | .create body => body.swapCommit
  | .put body => body.swapCommit
  | .delete body => body.swapCommit

/-- A create has none. -/
def swapRecord : RecordRequest → Option String
  | .create _ => none
  | .put body => body.swapRecord
  | .delete body => body.swapRecord

/-- The request without its swap values. -/
def unconditional : RecordRequest → RecordRequest
  | .create body => .create { body with swapCommit := none }
  | .put body => .put { body with swapCommit := none, swapRecord := none }
  | .delete body => .delete { body with swapCommit := none, swapRecord := none }

end RecordRequest

/-! ## Compare-and-swap -/

/-- The text names the current value. -/
def Names (L : RecordLib) (current : Option Cid) (text : String) : Prop :=
  ∃ c, L.parseCid text = .ok c ∧ current = some c

def RepoState.root (s : RepoState) : Option Cid := s.store.repoRoot.map ActorStore.RootRow.cid

/-- The record that the repo has at the request's path. -/
def RecordRequest.current (E : WriteEnv) (did : Option String) (s : RepoState)
    (req : RecordRequest) : Option Cid :=
  s.store.repo.tree.lookup (req.path E did)

/-- The swap values given are the current ones. -/
structure Matches (E : WriteEnv) (did : Option String) (s : RepoState) (req : RecordRequest) :
    Prop where
  swapCommit : ∀ text, req.swapCommit = some text → Names E.records s.root text
  swapRecord : ∀ text, req.swapRecord = some text → Names E.records (req.current E did s) text

/-- Nothing but the swap values and the tree can stand in the request's way: it is well formed, its
blobs are there, and storage, encoders and sequencer work. -/
structure InOrder (E : WriteEnv) (did : Option String) (s : RepoState) (req : RecordRequest)
    (p : Prepared) : Prop where
  prepared : req.unconditional.prepare E did = .ok p
  transact : E.transact = none
  storage : ∀ a, E.faults a = none
  blobs : BlobsPass E.faults s.store [p.write]
  encodes : ∀ did r, ∃ evt, Sequencer.formatSeqCommit E.encoders did r E.now = .ok evt
  insertEvt : E.insertEvt = none

/-- The write is applied, and sequenced. -/
structure Applied (s t : RepoState) (w : PreparedWrite) : Prop where
  tree : t.store.repo.tree = ActorStore.applyWrite s.store.repo.tree w
  index : t.store.IndexAgrees
  sequenced : ∃ evt, t.sequenced = s.sequenced ++ [evt]

/-- A request in order whose swap values match is applied; one with a swap value that does not match
fails and changes nothing. -/
structure HonoursSwap (E : WriteEnv) (did : Option String) (s : RepoState) (req : RecordRequest) :
    Prop where
  applies : ∀ p, InOrder E did s req p → Matches E did s req →
    ∃ answer t, (req.handle E did).exec s = (.ok answer, t) ∧ Applied s t p.write
  refuses : ¬ Matches E did s req → ∃ e, (req.handle E did).exec s = (.error e, s)

/-- The request gets as far as the record index. -/
structure Lands (E : WriteEnv) (did : Option String) (s : RepoState) (req : RecordRequest)
    (p : Prepared) : Prop where
  prepared : req.prepare E did = .ok p
  transact : E.transact = none
  accepted : ∃ root commit, Accepts E.repo E.faults s.store [p.write] p.swapCid root commit
  indexed : E.faults (.indexWrite 0) = none

/-- Where the values match, none is given for the commit unless the record has the root's CID, and
the tree takes the write as it is prepared. Where the record's does not, something else stops the
request. -/
structure Conforms (E : WriteEnv) (did : Option String) (s : RepoState) (req : RecordRequest) :
    Prop where
  rootIsRecord : ∀ p, InOrder E did s req p → Matches E did s req → req.swapCommit ≠ none →
    req.isCreate = false ∧ req.current E did s = s.root
  taken : ∀ p, InOrder E did s req p → Matches E did s req → Takes s.store.repo.tree p.write
  stopped : ∀ text, req.swapRecord = some text → ¬ Names E.records (req.current E did s) text →
    ∀ p, ¬ Lands E did s req p

/-- Upstream formats the write lists that its tree takes. -/
def FormatsTaken (U : RepoLib) : Prop :=
  ∀ repo ops tree, ops.foldlM ActorStore.RecordWriteOp.apply repo.tree = some tree →
    ∃ commit, U.formatCommit repo ops = .ok commit

/-! ## The swap values on their way -/

def withSwapCid (swapCid : Option Cid) : PreparedWrite → PreparedWrite
  | .create w => .create { w with swapCid }
  | .update w => .update { w with swapCid }
  | .delete w => .delete { w with swapCid }

section

variable (swapCid : Option Cid) (w : PreparedWrite)

@[simp] theorem swapCid_withSwapCid : (withSwapCid swapCid w).swapCid = swapCid := by
  cases w <;> rfl

@[simp] theorem uri_withSwapCid : (withSwapCid swapCid w).uri = w.uri := by
  cases w <;> rfl

@[simp] theorem action_withSwapCid : (withSwapCid swapCid w).action = w.action := by
  cases w <;> rfl

@[simp] theorem newCid_withSwapCid : (withSwapCid swapCid w).newCid = w.newCid := by
  cases w <;> rfl

/-- The swap CID is nothing to the tree … -/
theorem writeToOp_withSwapCid :
    ActorStore.writeToOp (withSwapCid swapCid w) = ActorStore.writeToOp w := by
  cases w <;> rfl

/-- … nor to the blobs. -/
theorem blobsPass_withSwapCid {F : ActorStore.Faults} {s : Store} (h : BlobsPass F s [w]) :
    BlobsPass F s [withSwapCid swapCid w] := by
  cases w <;>
    exact ⟨⟨h.dereferences.delete, h.dereferences.duplicates, h.dereferences.blobs⟩, h.selectBlob,
      h.associateBlob, h.verified, h.promoted⟩

end

def Prepared.withSwapCid (swapCid : Option Cid) (p : Prepared) : Prepared :=
  { p with write := Server.withSwapCid swapCid p.write, swapCid }

/-- The body's `swapCommit` goes to both places, and nothing else does. -/
theorem prepare_ok {E : WriteEnv} {did : Option String} {req : RecordRequest} {p : Prepared} :
    req.prepare E did = .ok p ↔ ∃ c q, parseSwap E.records req.swapCommit = .ok c ∧
      req.unconditional.prepare E did = .ok q ∧ p = q.withSwapCid c := by
  cases req with
  | create body =>
    show prepareCreateRecord E did body = .ok p ↔ ∃ c q, parseSwap E.records body.swapCommit = _ ∧
      prepareCreateRecord E did { body with swapCommit := none } = .ok q ∧ _
    unfold prepareCreateRecord prepareCreate
    simp only [except_bind_ok, except_mapError_ok, pure, Except.pure, Except.ok.injEq]
    constructor
    · rintro ⟨d, hd, record, hr, _, hv, c, hc, w, hw, rfl⟩
      obtain ⟨v, hprep, rfl⟩ := prepareRecord_swap.1 hw
      exact ⟨c, _, hc, ⟨d, hd, record, hr, _, hv, none, rfl, v, hprep, rfl⟩, rfl⟩
    · rintro ⟨c, q, hc, ⟨d, hd, record, hr, _, hv, _, ⟨⟩, v, hprep, rfl⟩, rfl⟩
      exact ⟨d, hd, record, hr, _, hv, c, hc, _, prepareRecord_swap.2 ⟨v, hprep, rfl⟩, rfl⟩
  | put body =>
    show preparePutRecord E did body = .ok p ↔ ∃ c q, parseSwap E.records body.swapCommit = _ ∧
      preparePutRecord E did { body with swapCommit := none, swapRecord := none } = .ok q ∧ _
    unfold preparePutRecord prepareUpdate
    simp only [except_bind_ok, except_mapError_ok, pure, Except.pure, Except.ok.injEq]
    constructor
    · rintro ⟨d, hd, record, hr, c, hc, w, hw, rfl⟩
      obtain ⟨v, hprep, rfl⟩ := prepareRecord_swap.1 hw
      exact ⟨c, _, hc, ⟨d, hd, record, hr, none, rfl, v, hprep, rfl⟩, rfl⟩
    · rintro ⟨c, q, hc, ⟨d, hd, record, hr, _, ⟨⟩, v, hprep, rfl⟩, rfl⟩
      exact ⟨d, hd, record, hr, c, hc, _, prepareRecord_swap.2 ⟨v, hprep, rfl⟩, rfl⟩
  | delete body =>
    show prepareDeleteRecord E did body = .ok p ↔ ∃ c q, parseSwap E.records body.swapCommit = _ ∧
      prepareDeleteRecord E did { body with swapCommit := none, swapRecord := none } = .ok q ∧ _
    unfold prepareDeleteRecord prepareDelete
    simp only [except_bind_ok, except_mapError_ok, pure, Except.pure, Except.ok.injEq]
    constructor
    · rintro ⟨d, hd, c, hc, _, ⟨uri, hu, rfl⟩, rfl⟩
      exact ⟨c, _, hc, ⟨d, hd, none, rfl, _, ⟨uri, hu, rfl⟩, rfl⟩, rfl⟩
    · rintro ⟨c, q, hc, ⟨d, hd, _, ⟨⟩, _, ⟨uri, hu, rfl⟩, rfl⟩, rfl⟩
      exact ⟨d, hd, c, hc, _, ⟨uri, hu, rfl⟩, rfl⟩

theorem did_of_requesterDid {did : Option String} {d : String} (h : requesterDid did = .ok d) :
    did = some d := by
  cases did with
  | none => cases h
  | some did =>
    cases h
    rfl

/-- The prepared write is the request's: its path, and whether it is a create. -/
theorem write_of_prepare {E : WriteEnv} {did : Option String} {req : RecordRequest} {p : Prepared}
    (h : req.prepare E did = .ok p) :
    p.write.uri.dataKey = req.path E did ∧ (p.write.action = .create ↔ req.isCreate = true) := by
  cases req with
  | create body =>
    replace h : prepareCreateRecord E did body = .ok p := h
    unfold prepareCreateRecord prepareCreate at h
    simp only [except_bind_ok, except_mapError_ok, pure, Except.pure, Except.ok.injEq] at h
    obtain ⟨d, hd, record, -, _, -, c, -, w, hw, rfl⟩ := h
    obtain rfl := did_of_requesterDid hd
    exact ⟨RecordRequest.path_of_makeUri (uri_of_prepareRecord hw), iff_of_true rfl rfl⟩
  | put body =>
    replace h : preparePutRecord E did body = .ok p := h
    unfold preparePutRecord prepareUpdate at h
    simp only [except_bind_ok, except_mapError_ok, pure, Except.pure, Except.ok.injEq] at h
    obtain ⟨d, hd, record, -, c, -, w, hw, rfl⟩ := h
    obtain rfl := did_of_requesterDid hd
    exact ⟨RecordRequest.path_of_makeUri (uri_of_prepareRecord hw),
      iff_of_false (fun h => by cases h) fun h => by cases h⟩
  | delete body =>
    replace h : prepareDeleteRecord E did body = .ok p := h
    unfold prepareDeleteRecord prepareDelete at h
    simp only [except_bind_ok, except_mapError_ok, pure, Except.pure, Except.ok.injEq] at h
    obtain ⟨d, hd, c, -, _, ⟨uri, hu, rfl⟩, rfl⟩ := h
    obtain rfl := did_of_requesterDid hd
    exact ⟨RecordRequest.path_of_makeUri hu,
      iff_of_false (fun h => by cases h) fun h => by cases h⟩

/-- A swap commit that the parser lets through names the root or does not. -/
theorem parseSwap_ok {L : RecordLib} {swapCommit : Option String} {c : Option Cid} :
    parseSwap L swapCommit = .ok c ↔
      (swapCommit = none ∧ c = none) ∨
        ∃ text cid, swapCommit = some text ∧ L.parseCid text = .ok cid ∧ c = some cid := by
  unfold parseSwap
  cases swapCommit with
  | none => simp [eq_comm]
  | some text => cases h : L.parseCid text <;> simp [h, Except.map, Except.mapError, eq_comm]

/-! ## The call on the actor's database -/

section

variable {E : WriteEnv} {did : Option String} {s t : RepoState} {req : RecordRequest} {p : Prepared}

theorem handle_eq (E : WriteEnv) (did : Option String) (req : RecordRequest) :
    req.handle E did = respond E (req.prepare E did) := by
  cases req <;> rfl

theorem handle_ok {answer : Option (Cid × AtUri)} :
    (req.handle E did).exec s = (.ok answer, t) ↔ ∃ p, req.prepare E did = .ok p ∧
      (writeRecord E p).exec s = (.ok (), t) ∧ answer = recordOutput p.write := by
  rw [handle_eq, respond, exec_bind, exec_ofExcept]
  cases req.prepare E did with
  | error e => simp
  | ok p =>
    dsimp only
    rw [exec_bind_ok]
    constructor
    · rintro ⟨⟨⟩, u, hw, he⟩
      cases he
      exact ⟨p, rfl, hw, rfl⟩
    · rintro ⟨_, ⟨⟩, hw, rfl⟩
      exact ⟨(), t, hw, rfl⟩

theorem indexRuns_one {F : ActorStore.Faults} {w : PreparedWrite} :
    IndexRuns F [w] ↔ F (.indexWrite 0) = none := by
  constructor
  · exact fun h => h 0 (by simp)
  · intro h n hn
    obtain rfl : n = 0 := by simpa using hn
    exact h

/-! ## From `transact` to `sequence_commit` -/

/-- The call on the actor's database, for any number of writes. -/
def processAll (E : WriteEnv) (writes : List PreparedWrite) (swapCid : Option Cid) :
    Stages.Call RepoState PdsError ActorStore.CommitDataWithOps :=
  zoom RepoState.store (fun store s => { s with store }) <|
    ActorStore.processWrites E.repo E.faults E.clock writes swapCid

def writeAll (E : WriteEnv) (did : String) (writes : List PreparedWrite) (swapCid : Option Cid) :
    RecordCall Unit := do
  attempt (E.transact.map fun _ => .runtimeError)
  let commit ← mapError (fun _ => .runtimeError) (processAll E writes swapCid)
  mapError (fun _ => .runtimeError) (sequenceCommit E did commit)

theorem writeRecord_eq (E : WriteEnv) (p : Prepared) :
    writeRecord E p = writeAll E p.did [p.write] p.swapCid := rfl

section

variable {writes : List PreparedWrite} {swapCid : Option Cid} {author : String}

/-- The actor's database after a request is as `process_writes` left it. -/
theorem store_writeAll (htransact : E.transact = none) :
    ((writeAll E author writes swapCid).exec s).2.store =
      ((ActorStore.processWrites E.repo E.faults E.clock writes swapCid).exec s.store).2 := by
  rw [writeAll, htransact, exec_bind, Option.map_none, exec_attempt]
  dsimp only [Option.elim_none]
  rw [exec_bind, exec_mapError, processAll, exec_zoom]
  rcases (ActorStore.processWrites E.repo E.faults E.clock writes swapCid).exec s.store with
    ⟨e | r, store⟩
  · rfl
  show ((mapError _ (sequenceCommit E author r)).exec { s with store }).2.store = store
  rw [exec_mapError, sequenceCommit, exec_bind, exec_ofExcept]
  cases Sequencer.formatSeqCommit E.encoders author r E.now with
  | error e => rfl
  | ok evt => cases h : E.insertEvt <;> simp [exec_bind]

theorem writeAll_ok : (writeAll E author writes swapCid).exec s = (.ok (), t) ↔
    E.transact = none ∧ ∃ r store evt,
      (ActorStore.processWrites E.repo E.faults E.clock writes swapCid).exec s.store =
        (.ok r, store) ∧
      Sequencer.formatSeqCommit E.encoders author r E.now = .ok evt ∧ E.insertEvt = none ∧
      t = ⟨store, s.sequenced ++ [evt]⟩ := by
  rw [writeAll, exec_bind, exec_attempt]
  cases E.transact with
  | some e => simp
  | none =>
    dsimp only [Option.map_none, Option.elim_none]
    rw [exec_bind, exec_mapError, processAll, exec_zoom]
    rcases (ActorStore.processWrites E.repo E.faults E.clock writes swapCid).exec s.store with
      ⟨e | r, store⟩
    · simp [Except.mapError]
    show (mapError _ (sequenceCommit E author r)).exec { s with store } = _ ↔ _
    rw [exec_mapError, sequenceCommit, exec_bind, exec_ofExcept]
    cases hevt : Sequencer.formatSeqCommit E.encoders author r E.now with
    | error e => simp [Except.mapError, hevt]
    | ok evt => cases E.insertEvt <;> simp [exec_bind, Except.mapError, hevt, eq_comm]

end

theorem store_writeRecord (htransact : E.transact = none) :
    ((writeRecord E p).exec s).2.store =
      ((ActorStore.processWrites E.repo E.faults E.clock [p.write] p.swapCid).exec s.store).2 :=
  store_writeAll htransact

theorem writeRecord_ok : (writeRecord E p).exec s = (.ok (), t) ↔
    E.transact = none ∧ ∃ r store evt,
      (ActorStore.processWrites E.repo E.faults E.clock [p.write] p.swapCid).exec s.store =
        (.ok r, store) ∧
      Sequencer.formatSeqCommit E.encoders p.did r E.now = .ok evt ∧ E.insertEvt = none ∧
      t = ⟨store, s.sequenced ++ [evt]⟩ :=
  writeAll_ok

/-- A write that the tree takes does not undo itself. -/
theorem not_netsOut_of_takes {store : Store} {w : PreparedWrite} (hindex : store.IndexAgrees)
    (h : Takes store.repo.tree w) : ¬ ActorStore.NetsOut store [w] := by
  intro hnet
  have hlast : ActorStore.lastWrite [w] w.uri = some w := by
    simp [ActorStore.lastWrite, KeyedFold.at_]
  obtain ⟨hdel, hrow⟩ := hnet w.uri w hlast
  have hnot : w.action ≠ .create := by
    cases w with
    | create w => cases hdel
    | update w => cases hdel
    | delete w => exact fun h => by cases h
  refine hnot (h.2 ?_)
  rw [← Finmap.lookup_eq_none, ← hindex w.uri]
  exact ActorStore.Store.lookup_eq_none.1 hrow

/-- A call on the actor's database that gets to the record index leaves it changed, also when it
fails. -/
theorem processWrites_changes {U : RepoLib} {F : ActorStore.Faults} {now : ActorStore.Clock}
    {store : Store} {w : PreparedWrite} {swapCid : Option Cid} {root : ActorStore.RootRow}
    {commit : ActorStore.CommitData} (hU : U.AppliesInOrder) (hrev : U.FreshRev store)
    (hindex : store.IndexAgrees) (hacc : Accepts U F store [w] swapCid root commit)
    (hi : F (.indexWrite 0) = none) :
    ((ActorStore.processWrites U F now [w] swapCid).exec store).2 ≠ store := by
  intro hsame
  have htables : ActorStore.SameTables store store := ⟨rfl, rfl, rfl, rfl, rfl⟩
  have hf := ActorStore.formatCommit_ok.2 ⟨root, commit, hacc, rfl⟩
  rcases hx : (ActorStore.processWrites U F now [w] swapCid).exec store with ⟨e | r, t⟩
  · -- it fails: what `FailsClean` lists cannot be
    rw [hx] at hsame
    subst hsame
    have hall : ActorStore.AllOrNothing U F now t [w] swapCid := by
      intro e' t' hx'
      rw [hx] at hx'
      cases hx'
      exact htables
    cases ActorStore.failsClean_of_allOrNothing hrev hall with
    | refused h => exact h ⟨root, commit, hacc⟩
    | index n hn hfail =>
      obtain rfl : n = 0 := by simpa using hn
      exact hfail hi
    | commit _ _ hnet =>
      obtain ⟨htakes, -⟩ := ActorStore.takesAll_cons.1 (hU.tree hacc.formatted).1
      exact not_netsOut_of_takes hindex htakes hnet
    | blobs hi ha hpass =>
      obtain ⟨t', ht'⟩ := (ActorStore.blobsPass_iff now).2 hpass
      rw [ActorStore.processWrites_ok.2 ⟨hf, hi, ha, ht'⟩] at hx
      cases hx
  · obtain ⟨hf', hi', ha, -⟩ := ActorStore.processWrites_ok.1 hx
    have hrepo := ActorStore.processWrites_sameRepo now hf' hi' ha
    rw [hsame] at hrepo
    exact ActorStore.not_sameTables_of_committed hrev hf' hrepo htables

/-- A request is refused, with nothing changed, unless it gets to the record index. -/
theorem refused_iff (hU : E.repo.AppliesInOrder) (hrev : E.repo.FreshRev s.store)
    (hindex : s.store.IndexAgrees) :
    (∃ e, (req.handle E did).exec s = (.error e, s)) ↔ ∀ p, ¬ Lands E did s req p := by
  rw [handle_eq, respond, exec_bind, exec_ofExcept]
  cases hprep : req.prepare E did with
  | error e => exact iff_of_true ⟨e, rfl⟩ fun p h => by rw [h.prepared] at hprep; cases hprep
  | ok p =>
    have hlands : (∀ q, ¬ Lands E did s req q) ↔ ¬ Lands E did s req p := by
      refine ⟨fun h => h p, fun h q hq => ?_⟩
      have hpq := hq.prepared
      rw [hprep] at hpq
      cases hpq
      exact h hq
    rw [hlands]
    dsimp only
    constructor
    · rintro ⟨e, hexec⟩ h
      obtain ⟨root, commit, hacc⟩ := h.accepted
      have hstore := store_writeRecord (s := s) (p := p) h.transact
      rcases exec_bind_error.1 hexec with hw | ⟨_, _, _, hw⟩
      · rw [hw] at hstore
        exact processWrites_changes hU hrev hindex hacc h.indexed hstore.symm
      · cases hw
    · intro h
      rw [exec_bind, writeRecord, exec_bind, exec_attempt]
      cases htransact : E.transact with
      | some e => exact ⟨_, rfl⟩
      | none =>
        dsimp only [Option.map_none, Option.elim_none]
        rw [exec_bind, exec_mapError, processOne, exec_zoom]
        rcases hx : (ActorStore.processWrites E.repo E.faults E.clock [p.write] p.swapCid).exec
          s.store with ⟨e | r, t⟩
        · have ht : t = s.store := by
            rcases ActorStore.processWrites_error hx with ⟨-, rfl⟩ | ⟨r, hf, hstage⟩
            · rfl
            obtain ⟨root, commit, hacc, -⟩ := ActorStore.formatCommit_ok.1 hf
            have hi : ¬ IndexRuns E.faults [p.write] := fun hi =>
              h ⟨hprep, htransact, ⟨root, commit, hacc⟩, indexRuns_one.1 hi⟩
            rcases hstage with ⟨n, hn, -, -, rfl⟩ | ⟨hi', -⟩ | ⟨hi', -⟩
            · obtain rfl : n = 0 := by simpa using hn
              rfl
            · exact absurd hi' hi
            · exact absurd hi' hi
          subst ht
          exact ⟨_, rfl⟩
        · obtain ⟨hf, hi, -⟩ := ActorStore.processWrites_ok.1 hx
          obtain ⟨root, commit, hacc, -⟩ := ActorStore.formatCommit_ok.1 hf
          exact absurd ⟨hprep, htransact, ⟨root, commit, hacc⟩, indexRuns_one.1 hi⟩ h

/-- A swap commit that matches is parsed, and is the root. -/
theorem Matches.parseSwap (h : Matches E did s req) : ∃ c, parseSwap E.records req.swapCommit = .ok c ∧
    (c ≠ none ↔ req.swapCommit ≠ none) ∧ ∀ cid, c = some cid → s.root = some cid := by
  cases hswap : req.swapCommit with
  | none => exact ⟨none, rfl, by simp, fun c hc => by cases hc⟩
  | some text =>
    obtain ⟨cid, hparse, hroot⟩ := h.swapCommit text hswap
    refine ⟨some cid, parseSwap_ok.2 (.inr ⟨text, cid, rfl, hparse, rfl⟩), by simp, ?_⟩
    rintro _ ⟨⟩
    exact hroot

/-- `format_commit` takes a write in order whose swap CID is absent or names root and record. -/
theorem accepts_of_taken (hF : FormatsTaken E.repo) {root : ActorStore.RootRow}
    (hroot : s.store.repoRoot = some root) (hstorage : ∀ a, E.faults a = none) {w : PreparedWrite}
    {swapCid : Option Cid} (htakes : Takes s.store.repo.tree w)
    (hswap : ∀ c, swapCid = some c →
      root.cid = c ∧ w.action ≠ .create ∧ s.store.indexed w.uri = some c) :
    ∃ commit, Accepts E.repo E.faults s.store [withSwapCid swapCid w] swapCid root commit := by
  have hfold : [ActorStore.writeToOp w].foldlM ActorStore.RecordWriteOp.apply s.store.repo.tree =
      some (ActorStore.applyWrite s.store.repo.tree w) := by
    have happly := ActorStore.apply_writeToOp.2 ⟨htakes, rfl⟩
    simp [List.foldlM_cons, happly]
  obtain ⟨commit, hcommit⟩ := hF _ _ _ hfold
  refine ⟨commit, hroot, hstorage _, fun c hc => (hswap c hc).1, hstorage _,
    fun _ _ _ => hstorage _, ?_, hstorage _, ?_, fun _ _ => hstorage _, fun _ => hstorage _⟩
  · intro v hv
    obtain rfl := List.mem_singleton.1 hv
    refine ActorStore.checkRecordSwap_ok.2 fun c hc => ?_
    rw [swapCid_withSwapCid] at hc
    rw [action_withSwapCid, uri_withSwapCid]
    exact (hswap c hc).2
  · rw [List.map_singleton, writeToOp_withSwapCid]
    exact hcommit

/-- A request in order is applied if the tree takes it and its swap CID is absent or names root and
record. -/
theorem applied_of_swap (hU : E.repo.AppliesInOrder) (hF : FormatsTaken E.repo)
    {root : ActorStore.RootRow} (hroot : s.store.repoRoot = some root)
    (hindex : s.store.IndexAgrees) (hq : InOrder E did s req p) {swapCid : Option Cid}
    (hparse : parseSwap E.records req.swapCommit = .ok swapCid)
    (htakes : Takes s.store.repo.tree p.write)
    (hswap : ∀ c, swapCid = some c →
      root.cid = c ∧ p.write.action ≠ .create ∧ s.store.indexed p.write.uri = some c) :
    ∃ answer t, (req.handle E did).exec s = (.ok answer, t) ∧ Applied s t p.write := by
  obtain ⟨commit, hacc⟩ := accepts_of_taken hF hroot hq.storage htakes hswap
  have hf := ActorStore.formatCommit_ok.2 ⟨root, commit, hacc, rfl⟩
  obtain ⟨store, hblobs⟩ :=
    (ActorStore.blobsPass_iff E.clock).2 (blobsPass_withSwapCid swapCid p.write hq.blobs)
  have hx := ActorStore.processWrites_ok.2
    ⟨hf, indexRuns_one.2 (hq.storage _), hq.storage _, hblobs⟩
  obtain ⟨evt, hevt⟩ :=
    hq.encodes p.did (ActorStore.answer s.store [withSwapCid swapCid p.write] commit)
  have hw : (writeRecord E (p.withSwapCid swapCid)).exec s =
      (.ok (), ⟨store, s.sequenced ++ [evt]⟩) :=
    writeRecord_ok.2 ⟨hq.transact, _, store, evt, hx, hevt, hq.insertEvt, rfl⟩
  refine ⟨_, _, handle_ok.2 ⟨_, prepare_ok.2 ⟨_, p, hparse, hq.prepared, rfl⟩, hw, rfl⟩, ?_⟩
  have hret := ActorStore.returned_of_ok hU hx
  refine ⟨?_, hret.indexAgrees hindex, evt, rfl⟩
  rw [hret.tree, List.foldl_cons, List.foldl_nil, ActorStore.applyWrite, uri_withSwapCid,
    newCid_withSwapCid, ActorStore.applyWrite]

/-- **A single-record request honours its swap values if and only if a swap commit that is right is
either absent or names the record too, the tree takes the write as it is prepared, and a swap record
that is wrong comes with something else that stops the request.** -/
theorem honoursSwap_iff (hU : E.repo.AppliesInOrder) (hF : FormatsTaken E.repo)
    (hrev : E.repo.FreshRev s.store) {root : ActorStore.RootRow}
    (hroot : s.store.repoRoot = some root) (hindex : s.store.IndexAgrees) :
    HonoursSwap E did s req ↔ Conforms E did s req := by
  have hsroot : s.root = some root.cid := by rw [RepoState.root, hroot]; rfl
  have hcurrent : ∀ {p : Prepared}, req.prepare E did = .ok p →
      s.store.indexed p.write.uri = req.current E did s := by
    intro p hp
    rw [hindex, (write_of_prepare hp).1]
    rfl
  constructor
  · intro h
    have haccepted : ∀ q, InOrder E did s req q → Matches E did s req → ∃ c root commit,
        (c ≠ none ↔ req.swapCommit ≠ none) ∧ req.prepare E did = .ok (q.withSwapCid c) ∧
        Accepts E.repo E.faults s.store [withSwapCid c q.write] c root commit := by
      intro q hq hm
      obtain ⟨answer, t, hexec, -⟩ := h.applies q hq hm
      obtain ⟨c, hparse, hnone, -⟩ := hm.parseSwap
      have hprep := prepare_ok.2 ⟨c, q, hparse, hq.prepared, rfl⟩
      obtain ⟨p, hp, hw, -⟩ := handle_ok.1 hexec
      rw [hprep] at hp
      cases hp
      obtain ⟨-, r, store, evt, hx, -⟩ := writeRecord_ok.1 hw
      obtain ⟨hf, -⟩ := ActorStore.processWrites_ok.1 hx
      obtain ⟨root, commit, hacc, -⟩ := ActorStore.formatCommit_ok.1 hf
      exact ⟨c, root, commit, hnone, hprep, hacc⟩
    refine ⟨fun q hq hm hgiven => ?_, fun q hq hm => ?_, fun text htext hwrong => ?_⟩
    · obtain ⟨c, root', commit, hnone, hprep, hacc⟩ := haccepted q hq hm
      obtain ⟨cid, rfl⟩ := Option.ne_none_iff_exists'.1 (hnone.2 hgiven)
      have hcheck := ActorStore.checkRecordSwap_ok.1 (hacc.swapCid _ List.mem_cons_self)
      obtain ⟨hact, hidx⟩ := hcheck cid (by simp)
      refine ⟨Bool.eq_false_iff.2 fun hc => hact ((write_of_prepare hprep).2.2 hc), ?_⟩
      have hroot' := hacc.hasRoot
      rw [hroot] at hroot'
      cases hroot'
      rw [← hcurrent hprep, hsroot, hacc.swapCommit cid rfl]
      exact hidx
    · obtain ⟨c, root', commit, -, -, hacc⟩ := haccepted q hq hm
      obtain ⟨htakes, -⟩ := ActorStore.takesAll_cons.1 (hU.tree hacc.formatted).1
      unfold Takes at htakes ⊢
      rwa [action_withSwapCid, uri_withSwapCid] at htakes
    · exact (refused_iff hU hrev hindex).1 (h.refuses fun hm => hwrong (hm.swapRecord text htext))
  · intro h
    refine ⟨fun q hq hm => ?_, fun hm => (refused_iff hU hrev hindex).2 fun p hp => ?_⟩
    · obtain ⟨c, hparse, hnone, hcroot⟩ := hm.parseSwap
      have hprep := prepare_ok.2 ⟨c, q, hparse, hq.prepared, rfl⟩
      have htakes := h.taken q hq hm
      have hswap : ∀ cid, c = some cid →
          root.cid = cid ∧ q.write.action ≠ .create ∧ s.store.indexed q.write.uri = some cid := by
        rintro cid rfl
        obtain ⟨hcreate, hcur⟩ := h.rootIsRecord q hq hm (hnone.1 (by simp))
        have hcid := hcroot cid rfl
        have hwrite := write_of_prepare hprep
        have hidx := hcurrent hprep
        simp only [Prepared.withSwapCid, action_withSwapCid, uri_withSwapCid] at hwrite hidx
        refine ⟨?_, fun ha => ?_, ?_⟩
        · rw [hsroot] at hcid
          exact Option.some.inj hcid
        · rw [hwrite.2.1 ha] at hcreate
          cases hcreate
        · rw [hidx, hcur, hcid]
      exact applied_of_swap hU hF hroot hindex hq hparse htakes hswap
    · -- what does not match is the swap commit, which the request would not get past, or the record
      refine hm ⟨fun text htext => ?_, fun text htext => ?_⟩
      · obtain ⟨c, q, hparse, -, rfl⟩ := prepare_ok.1 hp.prepared
        obtain ⟨root', commit, hacc⟩ := hp.accepted
        rcases parseSwap_ok.1 hparse with ⟨hnone, -⟩ | ⟨text', cid, htext', hcid, rfl⟩
        · rw [htext] at hnone
          cases hnone
        · rw [htext] at htext'
          cases htext'
          refine ⟨cid, hcid, ?_⟩
          have hroot' := hacc.hasRoot
          rw [hroot] at hroot'
          cases hroot'
          rw [hsroot, hacc.swapCommit cid rfl]
      · by_contra hwrong
        exact h.stopped text htext hwrong p hp

end

/-! ## On concrete repos -/

/-- Upstream's codecs on records whose values are texts. -/
def textRecords : RecordLib where
  recordOfJson
    | .object map => .ok (map.map fun
      | (key, .string text) => (key, .ipld (.string text))
      | (key, json) => (key, .ipld (.json json)))
    | _ => .error "invalid type: expected a map"
  blobOfJson _ := .error "data did not match any variant of untagged enum JsonBlobRef"
  jsonOfMap _ := .error "not a text"
  cidForSafeRecord _ := .ok (⟨"record"⟩, [])
  makeUri _ collection rkey :=
    if h : '/' ∉ collection.toList then .ok ⟨collection, rkey, h⟩ else .error "invalid collection"
  makeUri_ok _ _ h := by
    split at h
    · cases h
      exact ⟨rfl, rfl⟩
    · cases h
  parseCid text := .ok ⟨text⟩

/-- A body as its rev, a CAR file as its root. -/
def revEncoders : Sequencer.Encoders where
  commit evt := .ok evt.rev.toUTF8.data.toList
  handle evt := .ok evt.handle.toUTF8.data.toList
  identity evt := .ok evt.did.toUTF8.data.toList
  account evt := .ok evt.did.toUTF8.data.toList
  sync evt := .ok evt.rev.toUTF8.data.toList
  blocksToCarFile root _ := .ok (root.elim [] fun cid => cid.text.toUTF8.data.toList)

def textEnv : WriteEnv where
  repo := .inOrder
  records := textRecords
  encoders := revEncoders
  faults _ := none
  transact := none
  insertEvt := none
  clock := ⟨"2026-01-02", fun _ => "2026-01-02"⟩
  now := 0
  nextRkey := "3kaaaaaaaaaaa"

def textPost : JsonValue :=
  .object [("$type", .string "app.bsky.feed.post"), ("text", .string "hello")]

/-- A new record, with no swap values. -/
def newPost : RecordRequest := .create ⟨"app.bsky.feed.post", some "a", none, textPost, none⟩

/-- A record without blobs is in nobody's way where everything works. -/
theorem inOrder_textEnv {did : Option String} {s : RepoState} {req : RecordRequest} {p : Prepared}
    (hprep : req.unconditional.prepare textEnv did = .ok p) (hblobs : p.write.blobs = []) :
    InOrder textEnv did s req p := by
  have hrefs : ActorStore.blobRefs [p.write] = [] := by simp [ActorStore.blobRefs, hblobs]
  refine ⟨hprep, rfl, fun _ => rfl, ⟨⟨fun _ => rfl, fun _ => rfl, fun _ => rfl⟩, fun _ _ => rfl,
    fun _ _ => rfl, fun r hr => ?_, fun _ _ _ _ _ _ => ⟨rfl, rfl⟩⟩, fun _ _ => ⟨_, rfl⟩, rfl⟩
  rw [hrefs] at hr
  cases hr

theorem formatsTaken_inOrder : FormatsTaken .inOrder := by
  intro repo ops tree h
  simp only [RepoLib.inOrder, h]
  exact ⟨_, rfl⟩

theorem freshRev_twins : RepoLib.inOrder.FreshRev .twins := by
  intro ops commit h
  simp only [RepoLib.inOrder] at h
  split at h
  · cases h
  · cases h
    refine ⟨fun root hroot => ?_, fun u row hrow => ?_⟩
    · cases hroot
      exact (by decide : "r" ≠ "r" ++ "+")
    · rw [Store.twins_rev hrow]
      exact (by decide : "r" ≠ "r" ++ "+")

/-- The delete of a record with its CID as the swap record, and a put with a swap commit that is not
the root. -/
theorem honoursSwap_twins :
    HonoursSwap textEnv (some "did:plc:a") ⟨.twins, []⟩
        (.delete ⟨"app.bsky.feed.post", "a", some "x", none⟩) ∧
      HonoursSwap textEnv (some "did:plc:a") ⟨.twins, []⟩
        (.put ⟨"app.bsky.feed.post", "a", none, textPost, some "x", some "commit q"⟩) := by
  have hiff : ∀ req, HonoursSwap textEnv (some "did:plc:a") ⟨.twins, []⟩ req ↔
      Conforms textEnv (some "did:plc:a") ⟨.twins, []⟩ req := fun req =>
    honoursSwap_iff ActorStore.RepoLib.appliesInOrder_inOrder formatsTaken_inOrder freshRev_twins rfl
      Store.twins_indexAgrees
  have hthere : ∀ text, some "x" = some text → Names textEnv.records (some ⟨"x"⟩) text := by
    rintro text ⟨⟩
    exact ⟨⟨"x"⟩, rfl, rfl⟩
  have hother : ¬ Names textEnv.records (some ⟨"commit r"⟩) "commit q" := by
    rintro ⟨c, ⟨⟩, hc⟩
    exact absurd hc (by decide)
  refine ⟨(hiff _).2 ⟨fun _ _ _ h => absurd rfl h, fun p hp _ => ?_, fun text ht hwrong => ?_⟩,
    (hiff _).2 ⟨fun _ _ hm => absurd (hm.swapCommit _ rfl) hother,
      fun _ _ hm => absurd (hm.swapCommit _ rfl) hother, fun text ht hwrong => ?_⟩⟩
  · cases hp.prepared
    exact iff_of_false (fun h => by cases h) (by decide)
  · exact absurd (hthere text ht) hwrong
  · exact absurd (hthere text ht) hwrong

/-- A put of a record with the right swap values, a put where no record is, and a put with the wrong
swap record. -/
theorem put_breaks_swap :
    ¬ HonoursSwap textEnv (some "did:plc:a") ⟨.twins, []⟩
        (.put ⟨"app.bsky.feed.post", "a", none, textPost, some "x", some "commit r"⟩) ∧
      ¬ HonoursSwap textEnv (some "did:plc:a") ⟨.twins, []⟩
        (.put ⟨"app.bsky.feed.post", "c", none, textPost, none, none⟩) ∧
      ¬ HonoursSwap textEnv (some "did:plc:a") ⟨.twins, []⟩
        (.put ⟨"app.bsky.feed.post", "a", none, textPost, some "y", none⟩) := by
  refine ⟨fun h => ?_, fun h => ?_, fun h => ?_⟩
  · have hm : Matches textEnv (some "did:plc:a") ⟨.twins, []⟩ (.put ⟨"app.bsky.feed.post", "a", none, textPost,
        some "x", some "commit r"⟩) := by
      refine ⟨fun text ht => ?_, fun text ht => ?_⟩
      · cases ht
        exact ⟨⟨"commit r"⟩, rfl, rfl⟩
      · cases ht
        exact ⟨⟨"x"⟩, rfl, by decide⟩
    obtain ⟨answer, t, hexec, -⟩ := h.applies
      ⟨"did:plc:a", .update ⟨ActorStore.feedPost "a", ⟨"record"⟩, none, [], []⟩, none⟩
      (inOrder_textEnv rfl rfl) hm
    exact absurd (congrArg Prod.fst hexec) fun h => by cases h
  · obtain ⟨answer, t, hexec, -⟩ := h.applies
      ⟨"did:plc:a", .update ⟨ActorStore.feedPost "c", ⟨"record"⟩, none, [], []⟩, none⟩
      (inOrder_textEnv rfl rfl) ⟨fun _ h => (by cases h), fun _ h => (by cases h)⟩
    exact absurd (congrArg Prod.fst hexec) fun h => by cases h
  · obtain ⟨e, hexec⟩ := h.refuses fun hm => by
      obtain ⟨c, ⟨⟩, hc⟩ := hm.swapRecord "y" rfl
      exact absurd hc (by decide)
    exact absurd (congrArg Prod.fst hexec) fun h => by cases h

end CacosPds.Server
