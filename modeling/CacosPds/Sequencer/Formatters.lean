import CacosPds.ActorStore.Tables
import CacosPds.Sequencer.SequenceEvt
/-!
# The formatters and the decoders of `repo_seq` rows (`cacos-pds-sequencer/src/events.rs:204-412`)

| here | there |
| --- | --- |
| `Encoders`            | `serde_ipld_dagcbor::to_vec` at the five bodies, and `rsky_repo::car::blocks_to_car_file` |
| `formatSeqCommit` … `formatSeqSyncEvt` | `format_seq_commit` … `format_seq_sync_evt` (`events.rs:250-344`) |
| `seqEvtToEnvelope`    | `seq_evt_to_envelope` (`events.rs:207`) |
| `envelopeFromRepoRow` | `envelope_from_repo_row` (`events.rs:364`), the second decoder beside `typedSeqEvt` |
| `FormatterCall`       | a call of one of the five formatters |
| `RepoSeqNew.inserted` | the row once stored: the id filled in, `sequencedAt` as the driver reads it back |

`HandleEvt` has no `SeqEvt` of its own, and both decoders reject its tag.
-/
namespace CacosPds.Sequencer

open ActorStore (CommitDataWithOps WriteOpAction CommitOp)

structure HandleEvt where
  did : String
  handle : String
  deriving DecidableEq, Repr

abbrev BlockMap := Sql.Table Cid Bytes

structure Encoders where
  commit : CommitEvt → Except String Bytes
  handle : HandleEvt → Except String Bytes
  identity : IdentityEvt → Except String Bytes
  account : AccountEvt → Except String Bytes
  sync : SyncEvt → Except String Bytes
  blocksToCarFile : Option Cid → BlockMap → Except String Bytes

/-- What DAG-CBOR encodes it decodes again. -/
structure RoundTrips (K : Codecs) (N : Encoders) : Prop where
  commit : ∀ evt b, N.commit evt = .ok b → K.commit b = .ok evt
  identity : ∀ evt b, N.identity evt = .ok b → K.identity b = .ok evt
  account : ∀ evt b, N.account evt = .ok b → K.account b = .ok evt
  sync : ∀ evt b, N.sync evt = .ok b → K.sync b = .ok evt

variable (K : Codecs) (N : Encoders)

/-! ## Formatters -/

/-- Encode a body into a new row. -/
def newEvt {β : Type} (encode : β → Except String Bytes) (did eventType : String) (evt : β)
    (now : Instant) : Except String RepoSeqNew :=
  (encode evt).map fun event => ⟨did, eventType, event, now⟩

/-- `BlockMap::add_map`. -/
def BlockMap.addMap (bm : BlockMap) (blocks : List (Cid × Bytes)) : BlockMap :=
  blocks.foldl (fun bm cb => bm.insert cb.1 cb.2) bm

def commitAction : WriteOpAction → CommitEvtOpAction
  | .create => .create
  | .update => .update
  | .delete => .delete

def commitEvtOp (op : CommitOp) : CommitEvtOp :=
  ⟨commitAction op.action, op.path, op.cid, op.prev⟩

/-- The body of `format_seq_commit`. -/
def commitEvt (did : String) (commitData : CommitDataWithOps) : Except String CommitEvt :=
  let blocksToSend := (BlockMap.addMap ∅ commitData.commitData.newBlocks).addMap
    commitData.commitData.relevantBlocks
  (N.blocksToCarFile (some commitData.commitData.cid) blocksToSend).map fun carSlice =>
    { rebase := false
      tooBig := false
      repo := did
      commit := commitData.commitData.cid
      prev := none
      rev := commitData.commitData.rev
      since := commitData.commitData.since
      blocks := carSlice
      ops := commitData.ops.map commitEvtOp
      blobs := []
      prevData := commitData.prevData }

def formatSeqCommit (did : String) (commitData : CommitDataWithOps) (now : Instant) :
    Except String RepoSeqNew := do
  let evt ← commitEvt N did commitData
  newEvt N.commit did "append" evt now

def formatSeqHandleUpdate (did handle : String) (now : Instant) : Except String RepoSeqNew :=
  newEvt N.handle did "handle" ⟨did, handle⟩ now

def formatSeqIdentityEvt (did : String) (handle : Option String) (now : Instant) :
    Except String RepoSeqNew :=
  newEvt N.identity did "identity" ⟨did, handle⟩ now

def formatSeqAccountEvt (did : String) (active : Bool) (status : Option AccountStatus)
    (now : Instant) : Except String RepoSeqNew :=
  newEvt N.account did "account" ⟨did, active, status⟩ now

/-- The body of `format_seq_sync_evt`; its CAR file has no root. -/
def syncEvt (did rev : String) (blocks : BlockMap) : Except String SyncEvt :=
  (N.blocksToCarFile none blocks).map fun carSlice => ⟨did, carSlice, rev⟩

def formatSeqSyncEvt (did rev : String) (blocks : BlockMap) (now : Instant) :
    Except String RepoSeqNew := do
  let evt ← syncEvt N did rev blocks
  newEvt N.sync did "sync" evt now

def seqEvtToEnvelope (now : Instant) : SeqEvt → Except String RepoSeqNew
  | .typedCommitEvt e => newEvt N.commit e.evt.repo "append" e.evt now
  | .typedIdentityEvt e => newEvt N.identity e.evt.did "identity" e.evt now
  | .typedAccountEvt e => newEvt N.account e.evt.did "account" e.evt now
  | .typedSyncEvt e => newEvt N.sync e.evt.did "sync" e.evt now

/-! ## Calls, and what they format -/

inductive FormatterCall where
  | commit (did : String) (commitData : CommitDataWithOps)
  | handleUpdate (did handle : String)
  | identity (did : String) (handle : Option String)
  | account (did : String) (active : Bool) (status : Option AccountStatus)
  | sync (did rev : String) (blocks : BlockMap)

def FormatterCall.format (now : Instant) : FormatterCall → Except String RepoSeqNew
  | .commit did commitData => formatSeqCommit N did commitData now
  | .handleUpdate did handle => formatSeqHandleUpdate N did handle now
  | .identity did handle => formatSeqIdentityEvt N did handle now
  | .account did active status => formatSeqAccountEvt N did active status now
  | .sync did rev blocks => formatSeqSyncEvt N did rev blocks now

/-- The body of an event, with its kind. -/
inductive EvtBody where
  | commit (evt : CommitEvt)
  | handle (evt : HandleEvt)
  | identity (evt : IdentityEvt)
  | account (evt : AccountEvt)
  | sync (evt : SyncEvt)

/-- What a call puts into its row. -/
def FormatterCall.body : FormatterCall → Except String EvtBody
  | .commit did commitData => (commitEvt N did commitData).map .commit
  | .handleUpdate did handle => .ok (.handle ⟨did, handle⟩)
  | .identity did handle => .ok (.identity ⟨did, handle⟩)
  | .account did active status => .ok (.account ⟨did, active, status⟩)
  | .sync did rev blocks => (syncEvt N did rev blocks).map .sync

/-- A body in the envelope of its kind. -/
def EvtBody.typed (seq : Int) (time : String) : EvtBody → Option SeqEvt
  | .commit evt => some (.typedCommitEvt ⟨"commit", seq, time, evt⟩)
  | .handle _ => none
  | .identity evt => some (.typedIdentityEvt ⟨"identity", seq, time, evt⟩)
  | .account evt => some (.typedAccountEvt ⟨"account", seq, time, evt⟩)
  | .sync evt => some (.typedSyncEvt ⟨"sync", seq, time, evt⟩)

def FormatterCall.isHandleUpdate : FormatterCall → Bool
  | .handleUpdate _ _ => true
  | _ => false

/-! ## Decoders -/

def RepoSeqNew.inserted (evt : RepoSeqNew) (seq : DbId) (sequencedAt : Instant) : RepoSeqModel :=
  ⟨seq, evt.did, evt.eventType, evt.event, some 0, sequencedAt⟩

def envelopeFromRepoRow (row : RepoSeqModel) : Except String SeqEvt :=
  let seq : Int := row.seq.timestampMs
  let time := K.formatTime row.sequencedAt
  if row.eventType = "append" ∨ row.eventType = "rebase" then
    (K.commit row.event).map fun evt => .typedCommitEvt ⟨"commit", seq, time, evt⟩
  else if row.eventType = "sync" then
    (K.sync row.event).map fun evt => .typedSyncEvt ⟨"sync", seq, time, evt⟩
  else if row.eventType = "identity" then
    (K.identity row.event).map fun evt => .typedIdentityEvt ⟨"identity", seq, time, evt⟩
  else if row.eventType = "account" then
    (K.account row.event).map fun evt => .typedAccountEvt ⟨"account", seq, time, evt⟩
  else .error ("invalid event type: " ++ row.eventType)

/-- The `type` field of an event. -/
def SeqEvt.type : SeqEvt → String
  | .typedCommitEvt e => e.type
  | .typedIdentityEvt e => e.type
  | .typedAccountEvt e => e.type
  | .typedSyncEvt e => e.type

/-- The `type` that an event of its kind has on the wire. -/
def SeqEvt.tag : SeqEvt → String
  | .typedCommitEvt _ => "commit"
  | .typedIdentityEvt _ => "identity"
  | .typedAccountEvt _ => "account"
  | .typedSyncEvt _ => "sync"

/-- The event under another seq and time. -/
def SeqEvt.stamp (seq : Int) (time : String) : SeqEvt → SeqEvt
  | .typedCommitEvt e => .typedCommitEvt { e with seq, time }
  | .typedIdentityEvt e => .typedIdentityEvt { e with seq, time }
  | .typedAccountEvt e => .typedAccountEvt { e with seq, time }
  | .typedSyncEvt e => .typedSyncEvt { e with seq, time }

/-! ## Decoding what was formatted -/

variable {K N}

theorem typedArm_ok {β : Type} {decode : Bytes → Except String β} {reason type time : String}
    {seq : Int} {event : Bytes} {wrap : Typed β → SeqEvt} {e : SeqEvt} :
    typedArm decode reason type seq time event wrap = .ok e ↔
      (decode event).map (fun evt => wrap ⟨type, seq, time, evt⟩) = .ok e := by
  unfold typedArm
  cases decode event <;> simp [Except.map]

/-- The two decoders accept the same rows, with the same events. -/
theorem decoders_agree (m : RepoSeqModel) (e : SeqEvt) :
    envelopeFromRepoRow K m = .ok e ↔ typedSeqEvt K m = .ok e := by
  simp only [envelopeFromRepoRow, typedSeqEvt]
  split
  · rw [typedArm_ok]
  split
  · rw [typedArm_ok]
  split
  · rw [typedArm_ok]
  split
  · rw [typedArm_ok]
  · rfl

theorem newEvt_ok {β : Type} {encode : β → Except String Bytes} {did eventType : String} {evt : β}
    {now : Instant} {new : RepoSeqNew} :
    newEvt encode did eventType evt now = .ok new ↔
      ∃ event, encode evt = .ok event ∧ new = ⟨did, eventType, event, now⟩ := by
  unfold newEvt
  cases encode evt <;> simp [Except.map, eq_comm]

section

variable {did : String} {now at_ : Instant} {new : RepoSeqNew} {seq : DbId}

theorem typedSeqEvt_commit (hK : RoundTrips K N) {evt : CommitEvt}
    (h : newEvt N.commit did "append" evt now = .ok new) :
    typedSeqEvt K (new.inserted seq at_) =
      .ok (.typedCommitEvt ⟨"commit", seq.timestampMs, K.formatTime at_, evt⟩) := by
  obtain ⟨event, he, rfl⟩ := newEvt_ok.1 h
  simp [typedSeqEvt, RepoSeqNew.inserted, typedArm, hK.commit _ _ he]

theorem typedSeqEvt_identity (hK : RoundTrips K N) {evt : IdentityEvt}
    (h : newEvt N.identity did "identity" evt now = .ok new) :
    typedSeqEvt K (new.inserted seq at_) =
      .ok (.typedIdentityEvt ⟨"identity", seq.timestampMs, K.formatTime at_, evt⟩) := by
  obtain ⟨event, he, rfl⟩ := newEvt_ok.1 h
  simp [typedSeqEvt, RepoSeqNew.inserted, typedArm, hK.identity _ _ he]

theorem typedSeqEvt_account (hK : RoundTrips K N) {evt : AccountEvt}
    (h : newEvt N.account did "account" evt now = .ok new) :
    typedSeqEvt K (new.inserted seq at_) =
      .ok (.typedAccountEvt ⟨"account", seq.timestampMs, K.formatTime at_, evt⟩) := by
  obtain ⟨event, he, rfl⟩ := newEvt_ok.1 h
  simp [typedSeqEvt, RepoSeqNew.inserted, typedArm, hK.account _ _ he]

theorem typedSeqEvt_sync (hK : RoundTrips K N) {evt : SyncEvt}
    (h : newEvt N.sync did "sync" evt now = .ok new) :
    typedSeqEvt K (new.inserted seq at_) =
      .ok (.typedSyncEvt ⟨"sync", seq.timestampMs, K.formatTime at_, evt⟩) := by
  obtain ⟨event, he, rfl⟩ := newEvt_ok.1 h
  simp [typedSeqEvt, RepoSeqNew.inserted, typedArm, hK.sync _ _ he]

end

/-- No row that is tagged as a handle update decodes. -/
theorem typedSeqEvt_handle {did handle : String} {now at_ : Instant} {new : RepoSeqNew} {seq : DbId}
    (h : formatSeqHandleUpdate N did handle now = .ok new) :
    typedSeqEvt K (new.inserted seq at_) = .error "invalid event type: handle" := by
  obtain ⟨event, -, rfl⟩ := newEvt_ok.1 h
  simp [typedSeqEvt, RepoSeqNew.inserted]

/-- Both decoders succeed on the row, agree, and return what was formatted. -/
def DecodesTo (K : Codecs) (N : Encoders) (call : FormatterCall) (new : RepoSeqNew) : Prop :=
  ∀ seq sequencedAt, ∃ body e, call.body N = .ok body ∧
    body.typed seq.timestampMs (K.formatTime sequencedAt) = some e ∧
    typedSeqEvt K (new.inserted seq sequencedAt) = .ok e ∧
    envelopeFromRepoRow K (new.inserted seq sequencedAt) = .ok e

theorem DecodesTo.mk {call : FormatterCall} {new : RepoSeqNew}
    (h : ∃ body, call.body N = .ok body ∧ ∀ (seq : DbId) sequencedAt, ∃ e,
      body.typed seq.timestampMs (K.formatTime sequencedAt) = some e ∧
        typedSeqEvt K (new.inserted seq sequencedAt) = .ok e) : DecodesTo K N call new := by
  obtain ⟨body, hbody, hall⟩ := h
  intro seq sequencedAt
  obtain ⟨e, htyped, hdec⟩ := hall seq sequencedAt
  exact ⟨body, e, hbody, htyped, hdec, (decoders_agree _ _).2 hdec⟩

/-- A row decodes to what was formatted exactly when it is no handle update. -/
theorem decodesTo_iff (hK : RoundTrips K N) {call : FormatterCall} {now : Instant}
    {new : RepoSeqNew} (h : call.format N now = .ok new) :
    DecodesTo K N call new ↔ call.isHandleUpdate = false := by
  cases call with
  | commit did commitData =>
    refine iff_of_true (.mk ?_) rfl
    obtain ⟨evt, hevt, h⟩ := Stages.except_bind_ok.1 h
    exact ⟨.commit evt, by rw [FormatterCall.body, hevt]; rfl,
      fun seq at_ => ⟨_, rfl, typedSeqEvt_commit hK h⟩⟩
  | handleUpdate did handle =>
    refine iff_of_false (fun hdec => ?_) (by simp [FormatterCall.isHandleUpdate])
    obtain ⟨_, e, -, -, hok, -⟩ := hdec ⟨0, by decide⟩ 0
    rw [typedSeqEvt_handle h] at hok
    cases hok
  | identity did handle =>
    exact iff_of_true (.mk ⟨_, rfl, fun seq at_ => ⟨_, rfl, typedSeqEvt_identity hK h⟩⟩) rfl
  | account did active status =>
    exact iff_of_true (.mk ⟨_, rfl, fun seq at_ => ⟨_, rfl, typedSeqEvt_account hK h⟩⟩) rfl
  | sync did rev blocks =>
    refine iff_of_true (.mk ?_) rfl
    obtain ⟨evt, hevt, h⟩ := Stages.except_bind_ok.1 h
    exact ⟨.sync evt, by rw [FormatterCall.body, hevt]; rfl,
      fun seq at_ => ⟨_, rfl, typedSeqEvt_sync hK h⟩⟩

/-- The row of an envelope returns the event exactly when its `type` is that of its kind. -/
theorem envelope_returns_iff (hK : RoundTrips K N) {e : SeqEvt} {now : Instant} {new : RepoSeqNew}
    (h : seqEvtToEnvelope N now e = .ok new) :
    (∀ (seq : DbId) sequencedAt, envelopeFromRepoRow K (new.inserted seq sequencedAt) =
      .ok (e.stamp seq.timestampMs (K.formatTime sequencedAt))) ↔ e.type = e.tag := by
  simp only [decoders_agree]
  cases e with
  | typedCommitEvt e =>
    simp only [typedSeqEvt_commit hK h, SeqEvt.stamp, SeqEvt.type, SeqEvt.tag, Except.ok.injEq,
      SeqEvt.typedCommitEvt.injEq, Typed.mk.injEq, and_true]
    exact ⟨fun hall => (hall ⟨0, by decide⟩ 0).symm, fun he _ _ => he.symm⟩
  | typedIdentityEvt e =>
    simp only [typedSeqEvt_identity hK h, SeqEvt.stamp, SeqEvt.type, SeqEvt.tag, Except.ok.injEq,
      SeqEvt.typedIdentityEvt.injEq, Typed.mk.injEq, and_true]
    exact ⟨fun hall => (hall ⟨0, by decide⟩ 0).symm, fun he _ _ => he.symm⟩
  | typedAccountEvt e =>
    simp only [typedSeqEvt_account hK h, SeqEvt.stamp, SeqEvt.type, SeqEvt.tag, Except.ok.injEq,
      SeqEvt.typedAccountEvt.injEq, Typed.mk.injEq, and_true]
    exact ⟨fun hall => (hall ⟨0, by decide⟩ 0).symm, fun he _ _ => he.symm⟩
  | typedSyncEvt e =>
    simp only [typedSeqEvt_sync hK h, SeqEvt.stamp, SeqEvt.type, SeqEvt.tag, Except.ok.injEq,
      SeqEvt.typedSyncEvt.injEq, Typed.mk.injEq, and_true]
    exact ⟨fun hall => (hall ⟨0, by decide⟩ 0).symm, fun he _ _ => he.symm⟩

/-- **Every formatted row decodes to what was formatted, except those of handle updates; and the row
of an envelope returns the event when the event's `type` is that of its kind.** -/
theorem formatted_returns_iff (hK : RoundTrips K N) :
    (∀ call now new, FormatterCall.format N now call = .ok new →
      (DecodesTo K N call new ↔ call.isHandleUpdate = false)) ∧
    ∀ e now new, seqEvtToEnvelope N now e = .ok new →
      ((∀ (seq : DbId) sequencedAt, envelopeFromRepoRow K (new.inserted seq sequencedAt) =
        .ok (e.stamp seq.timestampMs (K.formatTime sequencedAt))) ↔ e.type = e.tag) :=
  ⟨fun _ _ _ h => decodesTo_iff hK h, fun _ _ _ h => envelope_returns_iff hK h⟩

/-- DAG-CBOR of `{"did": "did:plc:a", "handle": "a.test"}`. -/
def sampleHandleBody : Bytes :=
  [0xa2, 0x63, 0x64, 0x69, 0x64, 0x69, 0x64, 0x69, 0x64, 0x3a, 0x70, 0x6c, 0x63, 0x3a, 0x61,
    0x66, 0x68, 0x61, 0x6e, 0x64, 0x6c, 0x65, 0x66, 0x61, 0x2e, 0x74, 0x65, 0x73, 0x74]

/-- The encoders on the sample identity event and on one handle update. -/
def sampleEncoders : Encoders where
  commit _ := .error "unknown body"
  handle evt := if evt = ⟨"did:plc:a", "a.test"⟩ then .ok sampleHandleBody else .error "unknown body"
  identity evt := if evt = ⟨"did:plc:a", none⟩ then .ok sampleBody else .error "unknown body"
  account _ := .error "unknown body"
  sync _ := .error "unknown body"
  blocksToCarFile _ _ := .error "unknown blocks"

theorem roundTrips_sampleEncoders : RoundTrips sampleCodecs sampleEncoders where
  commit _ _ h := by cases h
  identity evt b h := by
    simp only [sampleEncoders] at h
    split at h
    · rename_i he
      cases h
      simp [sampleCodecs, he]
    · cases h
  account _ _ h := by cases h
  sync _ _ h := by cases h

theorem formatted_returns_sample :
    DecodesTo sampleCodecs sampleEncoders (.identity "did:plc:a" none)
      ⟨"did:plc:a", "identity", sampleBody, 0⟩ ∧
    ∀ (seq : DbId) sequencedAt, envelopeFromRepoRow sampleCodecs
      (RepoSeqNew.inserted ⟨"did:plc:a", "identity", sampleBody, 0⟩ seq sequencedAt) =
        .ok ((sampleTyped 5).stamp seq.timestampMs sampleTime) :=
  ⟨((formatted_returns_iff roundTrips_sampleEncoders).1 (.identity "did:plc:a" none) 0 _ rfl).2 rfl,
    ((formatted_returns_iff roundTrips_sampleEncoders).2 (sampleTyped 5) 0 _ rfl).2 rfl⟩

/-- The row of a handle update is written, and then neither decoder takes it. -/
theorem formatted_handle_update_rejected :
    ¬ ∀ new, FormatterCall.format sampleEncoders 0 (.handleUpdate "did:plc:a" "a.test") = .ok new →
      DecodesTo sampleCodecs sampleEncoders (.handleUpdate "did:plc:a" "a.test") new := by
  intro hall
  have hformat : FormatterCall.format sampleEncoders 0 (.handleUpdate "did:plc:a" "a.test") =
      .ok ⟨"did:plc:a", "handle", sampleHandleBody, 0⟩ := rfl
  cases (decodesTo_iff roundTrips_sampleEncoders hformat).1 (hall _ hformat)

end CacosPds.Sequencer
