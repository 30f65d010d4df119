import CacosPds.Lib.DagCbor
import CacosPds.Lib.Stages
import CacosPds.Sequencer.Events
/-!
# The frames of the firehose (`cacos-pds-sequencer/src/ws_frames.rs`)

| here | there |
| --- | --- |
| `FrameType`, `FrameType.repr` | `FrameType` and its `repr(i8)` |
| `MessageFrameHeader` … `InfoFrameBody` | the structs of the same names; `toValue` is what their `Serialize` gives |
| `MessageFrame`, `ErrorFrame` | the two kinds of frames, `toBytes` of each |
| `Dagcbor`        | `serde_ipld_dagcbor::to_vec`, `rsky_common::struct_to_cbor`, and a consumer's decoder |
| `readFrame`      | what a consumer reads in a binary message: two items and nothing behind them |

Nothing stands between header and body. A consumer finds the body because the header's own bytes say
where the header ends (`readFrame_message`, `readFrame_error`).
-/
namespace CacosPds.Sequencer

open DagCbor (Value Ordered)

inductive FrameType where
  | message
  | error
  deriving DecidableEq

def FrameType.repr : FrameType → Int
  | .message => 1
  | .error => -1

structure MessageFrameHeader where
  op : FrameType
  t : Option String

structure ErrorFrameHeader where
  op : FrameType

structure ErrorFrameBody where
  error : String
  message : Option String

/-- The body of `#info`. -/
structure InfoFrameBody where
  name : String
  message : Option String

/-- A field under `skip_serializing_if = "Option::is_none"`. -/
def optional (key : String) (value : Option String) : List (String × Value) :=
  (value.map fun s => (key, .string s)).toList

/-! A serialized struct is a map, which DAG-CBOR sorts: `t` comes before `op`. -/

def MessageFrameHeader.toValue (header : MessageFrameHeader) : Value :=
  .map (optional "t" header.t ++ [("op", .int header.op.repr)])

def ErrorFrameHeader.toValue (header : ErrorFrameHeader) : Value :=
  .map [("op", .int header.op.repr)]

def ErrorFrameBody.toValue (body : ErrorFrameBody) : Value :=
  .map (("error", .string body.error) :: optional "message" body.message)

def InfoFrameBody.toValue (body : InfoFrameBody) : Value :=
  .map (("name", .string body.name) :: optional "message" body.message)

structure MessageFrame (β : Type) where
  header : MessageFrameHeader
  body : β

/-- `MessageFrame::new` with the type of its options. -/
def MessageFrame.new {β : Type} (body : β) (type : Option String) : MessageFrame β :=
  ⟨⟨.message, type⟩, body⟩

structure ErrorFrame where
  header : ErrorFrameHeader
  body : ErrorFrameBody

def ErrorFrame.new (body : ErrorFrameBody) : ErrorFrame := ⟨⟨.error⟩, body⟩

structure Dagcbor where
  toVec : Value → Except String Bytes
  structToCbor : Value → Except String Bytes
  /-- The first item of some bytes, and what follows it. -/
  next : Bytes → Option (Value × Bytes)
  /-- An item says where it ends. -/
  next_toVec : ∀ {v bytes}, Ordered v → toVec v = .ok bytes →
    ∀ rest, next (bytes ++ rest) = some (v, rest)
  next_structToCbor : ∀ {v bytes}, Ordered v → structToCbor v = .ok bytes →
    ∀ rest, next (bytes ++ rest) = some (v, rest)

variable (D : Dagcbor)

/-- `serialize` is the `Serialize` of the body. -/
def MessageFrame.toBytes {β : Type} (serialize : β → Except String Value) (frame : MessageFrame β) :
    Except String Bytes := do
  let header ← D.structToCbor frame.header.toValue
  let value ← serialize frame.body
  let body ← D.toVec value
  return header ++ body

def ErrorFrame.toBytes (frame : ErrorFrame) : Except String Bytes := do
  let header ← D.toVec frame.header.toValue
  let body ← D.toVec frame.body.toValue
  return header ++ body

/-- Header and body of a frame. -/
def readFrame (bytes : Bytes) : Option (Value × Value) :=
  match D.next bytes with
  | none => none
  | some (header, rest) =>
    match D.next rest with
    | some (body, []) => some (header, body)
    | _ => none

/-! ## Frames are read back -/

theorem ordered_fields {fields : List (String × Value)}
    (hkeys : fields.Pairwise fun a b => DagCbor.KeyLt a.1 b.1)
    (hatoms : ∀ e ∈ fields, (∃ s, e.2 = .string s) ∨ ∃ n, e.2 = .int n) : Ordered (.map fields) := by
  refine .map hkeys fun e he => ?_
  rcases hatoms e he with ⟨s, hs⟩ | ⟨n, hn⟩
  · rw [hs]
    exact .string s
  · rw [hn]
    exact .int n

theorem keyLt_t_op : DagCbor.KeyLt "t" "op" := .inl (by decide)

theorem MessageFrameHeader.ordered (header : MessageFrameHeader) : Ordered header.toValue := by
  unfold toValue
  cases header.t with
  | none => exact ordered_fields (List.pairwise_singleton _ _) (by simp [optional])
  | some t =>
    refine ordered_fields (List.pairwise_pair.2 keyLt_t_op) ?_
    simp [optional]

theorem ErrorFrameHeader.ordered (header : ErrorFrameHeader) : Ordered header.toValue :=
  ordered_fields (List.pairwise_singleton _ _) (by simp)

/-- A text and, behind it, a longer key that may be missing. -/
theorem ordered_optional {key key' : String} (h : DagCbor.KeyLt key key') (s : String)
    (value : Option String) : Ordered (.map ((key, .string s) :: optional key' value)) := by
  cases value with
  | none => exact ordered_fields (List.pairwise_singleton _ _) (by simp [optional])
  | some t => exact ordered_fields (List.pairwise_pair.2 h) (by simp [optional])

theorem ErrorFrameBody.ordered (body : ErrorFrameBody) : Ordered body.toValue :=
  ordered_optional (.inl (by decide)) _ _

theorem InfoFrameBody.ordered (body : InfoFrameBody) : Ordered body.toValue :=
  ordered_optional (.inl (by decide)) _ _

variable {D}

theorem readFrame_append {header body : Value} {h b : Bytes}
    (hheader : ∀ rest, D.next (h ++ rest) = some (header, rest))
    (hbody : ∀ rest, D.next (b ++ rest) = some (body, rest)) :
    readFrame D (h ++ b) = some (header, body) := by
  have hb := hbody []
  rw [List.append_nil] at hb
  rw [readFrame, hheader]
  dsimp only
  rw [hb]

/-- A message frame is read as its header and the value of its body. -/
theorem readFrame_message {β : Type} {serialize : β → Except String Value} {frame : MessageFrame β}
    {bytes : Bytes} (h : frame.toBytes D serialize = .ok bytes)
    (hordered : ∀ value, serialize frame.body = .ok value → Ordered value) :
    ∃ value, serialize frame.body = .ok value ∧
      readFrame D bytes = some (frame.header.toValue, value) := by
  obtain ⟨header, hheader, h⟩ := Stages.except_bind_ok.1 h
  obtain ⟨value, hvalue, h⟩ := Stages.except_bind_ok.1 h
  obtain ⟨body, hbody, h⟩ := Stages.except_bind_ok.1 h
  cases h
  refine ⟨value, hvalue, readFrame_append ?_ ?_⟩
  · exact D.next_structToCbor frame.header.ordered hheader
  · exact D.next_toVec (hordered value hvalue) hbody

theorem readFrame_error {frame : ErrorFrame} {bytes : Bytes} (h : frame.toBytes D = .ok bytes) :
    readFrame D bytes = some (frame.header.toValue, frame.body.toValue) := by
  obtain ⟨header, hheader, h⟩ := Stages.except_bind_ok.1 h
  obtain ⟨body, hbody, h⟩ := Stages.except_bind_ok.1 h
  cases h
  refine readFrame_append ?_ ?_
  · exact D.next_toVec frame.header.ordered hheader
  · exact D.next_toVec frame.body.ordered hbody

end CacosPds.Sequencer
