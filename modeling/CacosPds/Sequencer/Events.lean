import Mathlib
import CacosPds.Types.DbId
/-!
# Sequencer events (`cacos-pds-sequencer/src/events.rs`, `mod.rs:274-360`)

| here | there |
| --- | --- |
| `CommitEvt` … `SyncEvt`   | the DAG-CBOR bodies in `repo_seq.event` (`events.rs:57-117`) |
| `SeqEvt`, `SeqEvt.seq`    | the typed envelope and its wire seq (`events.rs:156-203`) |
| `RepoSeqRow`              | a `repo_seq` row as stored: `sequencedAt` is text |
| `repoSeqFromRow`          | `repo_seq_from_row` (`mod.rs:323`) |
| `typedSeqEvt`             | `typed_seq_evt` (`mod.rs:274`) |

DAG-CBOR and the `time` crate are foreign; they enter as `Codecs`. The wire seq of a row is the
timestamp of its id, not the id: `typedSeqEvt_seq`.
-/
namespace CacosPds.Sequencer

/-- `CommitEvtOpAction` (`events.rs:41`). -/
inductive CommitEvtOpAction where
  | create
  | update
  | delete
  deriving DecidableEq, Repr

structure CommitEvtOp where
  action : CommitEvtOpAction
  path : String
  cid : Option Cid
  prev : Option Cid
  deriving DecidableEq, Repr

structure CommitEvt where
  rebase : Bool
  tooBig : Bool
  repo : String
  commit : Cid
  prev : Option Cid
  rev : String
  since : Option String
  blocks : Bytes
  ops : List CommitEvtOp
  blobs : List Cid
  prevData : Option Cid
  deriving DecidableEq, Repr

structure IdentityEvt where
  did : String
  handle : Option String
  deriving DecidableEq, Repr

/-- `AccountStatus` of the lexicon crate. -/
inductive AccountStatus where
  | takendown
  | suspended
  | deleted
  | deactivated
  | desynchronized
  | throttled
  deriving DecidableEq, Repr

structure AccountEvt where
  did : String
  active : Bool
  status : Option AccountStatus
  deriving DecidableEq, Repr

structure SyncEvt where
  did : String
  blocks : Bytes
  rev : String
  deriving DecidableEq, Repr

/-- `TypedCommitEvt` … `TypedSyncEvt` (`events.rs:119-154`): one shape, four bodies. -/
structure Typed (β : Type) where
  type : String
  seq : Int
  time : String
  evt : β
  deriving DecidableEq, Repr

/-- `SeqEvt` (`events.rs:159`). -/
inductive SeqEvt where
  | typedCommitEvt (e : Typed CommitEvt)
  | typedIdentityEvt (e : Typed IdentityEvt)
  | typedAccountEvt (e : Typed AccountEvt)
  | typedSyncEvt (e : Typed SyncEvt)
  deriving DecidableEq, Repr

/-- `SeqEvt::seq` (`events.rs:196`). -/
def SeqEvt.seq : SeqEvt → Int
  | .typedCommitEvt e => e.seq
  | .typedIdentityEvt e => e.seq
  | .typedAccountEvt e => e.seq
  | .typedSyncEvt e => e.seq

/-! ## Rows -/

/-- `time::OffsetDateTime`, in nanoseconds since the epoch. -/
abbrev Instant := Int

/-- The foreign codecs: `serde_ipld_dagcbor::from_slice` at the four body types, the formats
`repo_seq_from_row` and `format_offset_datetime` use for `sequencedAt`, the text the driver stores
an instant as, and `serde_json` at `SeqEvt`. -/
structure Codecs where
  commit : Bytes → Except String CommitEvt
  sync : Bytes → Except String SyncEvt
  identity : Bytes → Except String IdentityEvt
  account : Bytes → Except String AccountEvt
  parseTime : String → Except String Instant
  formatTime : Instant → String
  storeTime : Instant → String
  toJson : SeqEvt → String
  fromJson : String → Option SeqEvt

/-- A `repo_seq` row as SQLite returns it. -/
structure RepoSeqRow where
  seq : DbId
  did : String
  eventType : String
  event : Bytes
  invalidated : Option Int
  sequencedAt : String
  deriving DecidableEq

/-- `repo_seq::Model`. -/
structure RepoSeqModel where
  seq : DbId
  did : String
  eventType : String
  event : Bytes
  invalidated : Option Int
  sequencedAt : Instant

variable (K : Codecs)

/-- `repo_seq_from_row` (`mod.rs:323-360`); the id column always has its 16 bytes. -/
def repoSeqFromRow (row : RepoSeqRow) : Except String RepoSeqModel :=
  match K.parseTime row.sequencedAt with
  | .ok sequencedAt => .ok ⟨row.seq, row.did, row.eventType, row.event, row.invalidated, sequencedAt⟩
  | .error _ => .error "sequencer parse OffsetDateTime"

/-- One arm of `typed_seq_evt`: decode the body, wrap it in its envelope. -/
def typedArm {β : Type} (decode : Bytes → Except String β) (reason type : String) (seq : Int)
    (time : String) (event : Bytes) (wrap : Typed β → SeqEvt) : Except String SeqEvt :=
  match decode event with
  | .ok evt => .ok (wrap ⟨type, seq, time, evt⟩)
  | .error _ => .error reason

/-- `typed_seq_evt` (`mod.rs:274-321`). -/
def typedSeqEvt (row : RepoSeqModel) : Except String SeqEvt :=
  let seq : Int := row.seq.timestampMs
  let time := K.formatTime row.sequencedAt
  if row.eventType = "append" ∨ row.eventType = "rebase" then
    typedArm K.commit "dagcbor decode commit" "commit" seq time row.event .typedCommitEvt
  else if row.eventType = "sync" then
    typedArm K.sync "dagcbor decode sync" "sync" seq time row.event .typedSyncEvt
  else if row.eventType = "identity" then
    typedArm K.identity "dagcbor decode identity" "identity" seq time row.event .typedIdentityEvt
  else if row.eventType = "account" then
    typedArm K.account "dagcbor decode account" "account" seq time row.event .typedAccountEvt
  else .error ("invalid event type: " ++ row.eventType)

variable {K}

theorem repoSeqFromRow_seq {row : RepoSeqRow} {m : RepoSeqModel}
    (h : repoSeqFromRow K row = .ok m) : m.seq = row.seq := by
  unfold repoSeqFromRow at h
  split at h
  · cases h; rfl
  · cases h

theorem typedArm_seq {β : Type} {decode : Bytes → Except String β} {reason type : String} {seq : Int}
    {time : String} {event : Bytes} {wrap : Typed β → SeqEvt} {e : SeqEvt}
    (hw : ∀ t, (wrap t).seq = t.seq)
    (h : typedArm decode reason type seq time event wrap = .ok e) : e.seq = seq := by
  unfold typedArm at h
  split at h
  · cases h; exact hw _
  · cases h

/-- Whatever its kind, an event carries the millisecond timestamp of its row's id. -/
theorem typedSeqEvt_seq {m : RepoSeqModel} {e : SeqEvt} (h : typedSeqEvt K m = .ok e) :
    e.seq = m.seq.timestampMs := by
  simp only [typedSeqEvt] at h
  split at h
  · exact typedArm_seq (fun _ => rfl) h
  split at h
  · exact typedArm_seq (fun _ => rfl) h
  split at h
  · exact typedArm_seq (fun _ => rfl) h
  split at h
  · exact typedArm_seq (fun _ => rfl) h
  · cases h

/-- The typed event of a stored row; `none`: the row does not decode. -/
def typedOfRow (K : Codecs) (row : RepoSeqRow) : Option SeqEvt :=
  match repoSeqFromRow K row with
  | .ok m => (typedSeqEvt K m).toOption
  | .error _ => none

theorem typedOfRow_seq {row : RepoSeqRow} {e : SeqEvt} (h : typedOfRow K row = some e) :
    e.seq = row.seq.timestampMs := by
  unfold typedOfRow at h
  cases hm : repoSeqFromRow K row with
  | error _ => rw [hm] at h; cases h
  | ok m =>
    rw [hm] at h
    cases he : typedSeqEvt K m with
    | error _ => simp [he, Except.toOption] at h
    | ok e' =>
      simp only [he, Except.toOption, Option.some.injEq] at h
      rw [← h, typedSeqEvt_seq he, repoSeqFromRow_seq hm]

/-! ## A sample event, for runs on fixed inputs -/

/-- DAG-CBOR of `{"did": "did:plc:a"}`. -/
def sampleBody : Bytes :=
  [0xa1, 0x63, 0x64, 0x69, 0x64, 0x69, 0x64, 0x69, 0x64, 0x3a, 0x70, 0x6c, 0x63, 0x3a, 0x61]

def sampleTime : String := "2026-01-01T00:00:00.000Z"

def sampleTyped (seq : Int) : SeqEvt :=
  .typedIdentityEvt ⟨"identity", seq, sampleTime, ⟨"did:plc:a", none⟩⟩

@[simp] theorem seq_sampleTyped (seq : Int) : (sampleTyped seq).seq = seq := rfl

def sampleJsonHead : String := "\x7b\"type\":\"identity\",\"seq\":"

def sampleJsonTail : String :=
  ",\"time\":\"2026-01-01T00:00:00.000Z\",\"evt\":\x7b\"did\":\"did:plc:a\"\x7d\x7d"

/-- The codecs on this body, this instant and the JSON of this event. -/
def sampleCodecs : Codecs where
  commit _ := .error "missing field"
  sync _ := .error "missing field"
  account _ := .error "missing field"
  identity b := if b = sampleBody then .ok ⟨"did:plc:a", none⟩ else .error "unknown body"
  parseTime s := if s = sampleTime then .ok 1767225600000000000 else .error "unknown text"
  formatTime _ := sampleTime
  storeTime _ := sampleTime
  toJson e := sampleJsonHead ++ e.seq.repr ++ sampleJsonTail
  fromJson s :=
    (String.ofList ((s.toList.drop sampleJsonHead.length).rdrop sampleJsonTail.length)).toInt?.map
      sampleTyped

/-- A row with the sample event, and its typed event. -/
def sampleRow (seq : DbId) : RepoSeqRow :=
  ⟨seq, "did:plc:a", "identity", sampleBody, some 0, sampleTime⟩

def sampleEvt (seq : DbId) : SeqEvt := sampleTyped seq.timestampMs

theorem typedOfRow_sampleRow (seq : DbId) :
    typedOfRow sampleCodecs (sampleRow seq) = some (sampleEvt seq) := by
  simp [typedOfRow, repoSeqFromRow, typedSeqEvt, typedArm, sampleCodecs, sampleRow, sampleEvt,
    sampleTyped, Except.toOption]

theorem fromJson_toJson_sampleTyped (seq : Int) :
    sampleCodecs.fromJson (sampleCodecs.toJson (sampleTyped seq)) = some (sampleTyped seq) := by
  have h : (sampleJsonHead ++ seq.repr ++ sampleJsonTail).toList =
      sampleJsonHead.toList ++ (seq.repr.toList ++ sampleJsonTail.toList) := by simp
  simp only [sampleCodecs, sampleTyped, SeqEvt.seq]
  rw [h, ← String.length_toList, List.drop_left, ← String.length_toList, List.rdrop_append_length,
    String.ofList_toList, Int.toInt?_repr]
  rfl

/-- These codecs know no other event. -/
theorem typedOfRow_sampleCodecs {row : RepoSeqRow} {e : SeqEvt}
    (h : typedOfRow sampleCodecs row = some e) : ∃ seq, e = sampleTyped seq := by
  unfold typedOfRow at h
  split at h
  · rename_i m _
    cases he : typedSeqEvt sampleCodecs m with
    | error _ => simp [he, Except.toOption] at h
    | ok e' =>
      simp only [he, Except.toOption, Option.some.injEq] at h
      subst h
      simp only [typedSeqEvt, typedArm, sampleCodecs] at he
      split at he
      · cases he
      split at he
      · cases he
      split at he
      · by_cases hb : m.event = sampleBody
        · simp only [hb, if_true, Except.ok.injEq] at he
          exact ⟨_, he.symm⟩
        · simp [hb] at he
      · split at he <;> cases he
  · cases h

theorem sampleCodecs_json (row : RepoSeqRow) (e : SeqEvt) (h : typedOfRow sampleCodecs row = some e) :
    sampleCodecs.fromJson (sampleCodecs.toJson e) = some e := by
  obtain ⟨seq, rfl⟩ := typedOfRow_sampleCodecs h
  exact fromJson_toJson_sampleTyped seq

end CacosPds.Sequencer
