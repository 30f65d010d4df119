import CacosPds.Sequencer.CursorCheck
import CacosPds.Sequencer.LiveStream
import CacosPds.Sequencer.WsFrames
import CacosPds.Server.Prepare
/-!
# A subscriber's socket (`xrpc/com/atproto/sync/subscribe_repos.rs:56-303`)

| here | there |
| --- | --- |
| `SubscribeReposCommit` … `SubscribeReposSync` | the lexicon's messages, which the handler fills in |
| `typedEventToFrameBytes` | `typed_event_to_frame_bytes` (`:190`) |
| `subscribeRepos` | the handler up to its loop (`:62-135`) |
| `turn`, `socketStep` | the loop (`:137-186`): `select!` takes what is ready in any order |
| `Message`        | what the socket has accepted |

The handler returns after the first message that is not accepted, after an event that does not serialize
(with one more message that says so), when the stream ends, and when the client closes or breaks the
connection. The stream's items are never errors (`outbox.rs:196-218`), so that branch of the loop is left
out.
-/
namespace CacosPds.Server

open Sequencer
open DagCbor (Value Ordered)

/-! ## Messages -/

structure SubscribeReposCommitOperation where
  path : String
  cid : Option Cid
  prev : Option Cid
  action : String

structure SubscribeReposCommit where
  seq : Int
  time : Instant
  rebase : Bool
  tooBig : Bool
  repo : String
  commit : Cid
  prev : Option Cid
  rev : String
  since : Option String
  blocks : Bytes
  ops : List SubscribeReposCommitOperation
  blobs : List String
  prevData : Option Cid

structure SubscribeReposIdentity where
  did : String
  seq : Int
  handle : Option String
  time : Instant

structure SubscribeReposAccount where
  seq : Int
  did : String
  status : Option Sequencer.AccountStatus
  active : Bool
  time : Instant

structure SubscribeReposSync where
  seq : Int
  did : String
  blocks : Bytes
  rev : String
  time : Instant

/-- The lexicon crate's `Serialize`, `chrono`'s reader of times, and `serde_json`. -/
structure Lexicon where
  commit : SubscribeReposCommit → Except String Value
  identity : SubscribeReposIdentity → Except String Value
  account : SubscribeReposAccount → Except String Value
  sync : SubscribeReposSync → Except String Value
  parseFromRfc3339 : String → Option Instant
  jsonToString : JsonValue → String
  /-- The maps of DAG-CBOR are sorted. -/
  commit_ordered : ∀ {evt value}, commit evt = .ok value → Ordered value
  identity_ordered : ∀ {evt value}, identity evt = .ok value → Ordered value
  account_ordered : ∀ {evt value}, account evt = .ok value → Ordered value
  sync_ordered : ∀ {evt value}, sync evt = .ok value → Ordered value

def actionText : CommitEvtOpAction → String
  | .create => "create"
  | .update => "update"
  | .delete => "delete"

variable (D : Dagcbor) (X : Lexicon)

/-- A time that cannot be read becomes the present. -/
def parseTime (now : Instant) (time : String) : Instant := (X.parseFromRfc3339 time).getD now

def commitBody (now : Instant) (e : Typed CommitEvt) : SubscribeReposCommit where
  seq := e.seq
  time := parseTime X now e.time
  rebase := e.evt.rebase
  tooBig := e.evt.tooBig
  repo := e.evt.repo
  commit := e.evt.commit
  prev := e.evt.prev
  rev := e.evt.rev
  since := e.evt.since
  blocks := e.evt.blocks
  ops := e.evt.ops.map fun op => ⟨op.path, op.cid, op.prev, actionText op.action⟩
  blobs := e.evt.blobs.map Cid.text
  prevData := e.evt.prevData

def identityBody (now : Instant) (e : Typed IdentityEvt) : SubscribeReposIdentity where
  did := e.evt.did
  seq := e.seq
  handle := e.evt.handle
  time := parseTime X now e.time

def accountBody (now : Instant) (e : Typed AccountEvt) : SubscribeReposAccount where
  seq := e.seq
  did := e.evt.did
  status := e.evt.status
  active := e.evt.active
  time := parseTime X now e.time

def syncBody (now : Instant) (e : Typed SyncEvt) : SubscribeReposSync where
  seq := e.seq
  did := e.evt.did
  blocks := e.evt.blocks
  rev := e.evt.rev
  time := parseTime X now e.time

def typedEventToFrameBytes (now : Instant) : SeqEvt → Except String Bytes
  | .typedCommitEvt e =>
    (MessageFrame.new (commitBody X now e) (some ("#" ++ e.type))).toBytes D X.commit
  | .typedIdentityEvt e =>
    (MessageFrame.new (identityBody X now e) (some ("#" ++ e.type))).toBytes D X.identity
  | .typedAccountEvt e =>
    (MessageFrame.new (accountBody X now e) (some ("#" ++ e.type))).toBytes D X.account
  | .typedSyncEvt e =>
    (MessageFrame.new (syncBody X now e) (some ("#" ++ e.type))).toBytes D X.sync

inductive Message where
  | text (text : String)
  | binary (bytes : Bytes)
  | ping

/-- `unwrap_or_default`. -/
def orEmpty (bytes : Except String Bytes) : Bytes := bytes.toOption.getD []

def errorMessage (error message : String) : Message :=
  .binary (orEmpty ((ErrorFrame.new ⟨error, some message⟩).toBytes D))

def outdatedCursor : MessageFrame InfoFrameBody :=
  .new ⟨"OutdatedCursor", some "Requested cursor exceeded limit. Possibly missing events"⟩ (some "#info")

def infoMessage : Message :=
  .binary (orEmpty (outdatedCursor.toBytes D fun body => .ok body.toValue))

def currError (err : String) : Message :=
  .text (X.jsonToString (.object
    [("$type", .string "#error"), ("message", .string err), ("name", .string "CurrError")]))

/-- What is sent if the socket accepts it. -/
def sending (accepted : Bool) (message : Message) : List Message :=
  if accepted then [message] else []

/-! ## The handler -/

/-- What is sent before the first event, and the stream, if there is one. `t` is the log when the cursor
is looked at, `backfill` when the outbox reads it; `curr` is the error of `curr()`. -/
def subscribeRepos (K : Codecs) (O : OrderByTime) (t backfill : RepoSeq) (curr : Option String)
    (limit : Int) (cursor : Option Int) (accepted : Bool) : List Message × Option Live :=
  match cursor, curr with
  | some _, some err => (sending accepted (currError X err), none)
  | cursor, _ =>
    match openStream K O t limit cursor with
    | .futureCursor =>
      (sending accepted (errorMessage D "FutureCursor" "Cursor in the future."), none)
    | .streams outdated outboxCursor =>
      (if outdated then sending accepted (infoMessage D) else [],
        some (Outbox.new.events K backfill outboxCursor).1)

structure Socket where
  live : Live
  sent : List Message
  /-- The handler has returned. -/
  returned : Bool

/-- What `socket.next()` comes to. -/
inductive Incoming where
  | close
  | other
  | error
  | over
  deriving DecidableEq

inductive SocketStep where
  /-- The publishers and the task behind the stream. -/
  | behind (a : LiveStep)
  | event (now : Instant) (accepted : Bool)
  | incoming (msg : Incoming)
  | tick (accepted : Bool)

/-- The branch of an item of the stream. -/
def sendEvent (now : Instant) (accepted : Bool) (s : Socket) (live : Live) : Socket :=
  match live.delivered[s.live.delivered.length]? with
  | none => ⟨live, s.sent, true⟩
  | some evt =>
    match typedEventToFrameBytes D X now evt with
    | .ok bytes => ⟨live, s.sent ++ sending accepted (.binary bytes), !accepted⟩
    | .error err =>
      ⟨live, s.sent ++ sending accepted (errorMessage D "SerializationError" err), true⟩

/-- One turn of the loop. -/
def turn (cap : Nat) (decode : String → Option SeqEvt) (s : Socket) : SocketStep → Option Socket
  | .behind .poll | .behind .drop => none
  | .behind a => (liveStep cap decode s.live a).map fun live => { s with live }
  | .event now accepted => (liveStep cap decode s.live .poll).map (sendEvent D X now accepted s)
  | .incoming msg => some { s with returned := msg ≠ .other }
  | .tick accepted => some { s with sent := s.sent ++ sending accepted .ping, returned := !accepted }

def socketStep (cap : Nat) (decode : String → Option SeqEvt) (s : Socket) (a : SocketStep) :
    Option Socket :=
  if s.returned then none else turn D X cap decode s a

/-! ## What a consumer reads -/

def eventHeader : SeqEvt → MessageFrameHeader
  | .typedCommitEvt e => ⟨.message, some ("#" ++ e.type)⟩
  | .typedIdentityEvt e => ⟨.message, some ("#" ++ e.type)⟩
  | .typedAccountEvt e => ⟨.message, some ("#" ++ e.type)⟩
  | .typedSyncEvt e => ⟨.message, some ("#" ++ e.type)⟩

def eventBody (now : Instant) : SeqEvt → Except String Value
  | .typedCommitEvt e => X.commit (commitBody X now e)
  | .typedIdentityEvt e => X.identity (identityBody X now e)
  | .typedAccountEvt e => X.account (accountBody X now e)
  | .typedSyncEvt e => X.sync (syncBody X now e)

/-- The message is read as the event: its type in the header, all its data in the body. -/
def Carries (evt : SeqEvt) (message : Message) : Prop :=
  ∃ now bytes body, message = .binary bytes ∧ eventBody X now evt = .ok body ∧
    readFrame D bytes = some ((eventHeader evt).toValue, body)

/-- The message is read as this frame, or is empty where the frame did not serialize. -/
def ReadsAs (header body : Value) (message : Message) : Prop :=
  ∃ bytes, message = .binary bytes ∧ (bytes = [] ∨ readFrame D bytes = some (header, body))

/-- The message names the error and says the text. -/
def SaysError (error text : String) (message : Message) : Prop :=
  ReadsAs D (ErrorFrameHeader.mk .error).toValue (ErrorFrameBody.mk error (some text)).toValue message

/-- What a cursor before the window gets to read. -/
def SaysOutdated (message : Message) : Prop :=
  ReadsAs D outdatedCursor.header.toValue outdatedCursor.body.toValue message

def Message.isData : Message → Bool
  | .ping => false
  | _ => true

/-- What the socket has accepted, less the pings. -/
def Socket.data (s : Socket) : List Message := s.sent.filter Message.isData

/-- The events that the stream owes, of those it is past. -/
def owed (decode : String → Option SeqEvt) (backfill : List SeqEvt) (start : Int) (live : Live) :
    List SeqEvt :=
  backfill ++ wantedOf decode start (live.sent.take live.next)

/-- Behind the opening come the events that the stream has handed out, each as one frame and in their
order. Only the last one may be missing, and only when the handler has returned; a frame that says why
may then come instead. -/
def OnWire (opening : List Message) (s : Socket) : Prop :=
  ∃ n frames err, s.data = opening ++ frames ++ err ∧
    List.Forall₂ (Carries D X) (s.live.delivered.take n) frames ∧
    s.live.delivered.length ≤ n + 1 ∧
    (err = [] ∨ ∃ e message, err = [message] ∧ message = errorMessage D "SerializationError" e ∧
      SaysError D "SerializationError" e message) ∧
    (s.returned = false → s.live.delivered.length ≤ n ∧ err = [])

/-- The events of a socket are the first ones of those that the stream owes. -/
def FromTheFirst (decode : String → Option SeqEvt) (backfill : List SeqEvt) (start : Int) (s : Socket) :
    Prop :=
  s.live.delivered <+: owed decode backfill start s.live

/-- What the task must not do is as for the stream alone. -/
def BehindInOrder (cap : Nat) (decode : String → Option SeqEvt) (start : Int) (s : Socket) :
    SocketStep → Prop
  | .behind a => InSeqOrder cap decode start s.live a
  | _ => True

variable {D X} {cap : Nat} {decode : String → Option SeqEvt} {opening : List Message}
  {backfill : List SeqEvt} {start : Int} {s t : Socket} {a : SocketStep}

theorem readFrame_event {now : Instant} {evt : SeqEvt} {bytes : Bytes}
    (h : typedEventToFrameBytes D X now evt = .ok bytes) :
    ∃ body, eventBody X now evt = .ok body ∧
      readFrame D bytes = some ((eventHeader evt).toValue, body) := by
  cases evt with
  | typedCommitEvt e => exact readFrame_message h fun _ => X.commit_ordered
  | typedIdentityEvt e => exact readFrame_message h fun _ => X.identity_ordered
  | typedAccountEvt e => exact readFrame_message h fun _ => X.account_ordered
  | typedSyncEvt e => exact readFrame_message h fun _ => X.sync_ordered

theorem errorMessage_says (D : Dagcbor) (error text : String) :
    SaysError D error text (errorMessage D error text) := by
  refine ⟨_, rfl, ?_⟩
  cases h : (ErrorFrame.new ⟨error, some text⟩).toBytes D with
  | error e => exact .inl rfl
  | ok bytes => exact .inr (readFrame_error h)

theorem infoMessage_says (D : Dagcbor) : SaysOutdated D (infoMessage D) := by
  refine ⟨_, rfl, ?_⟩
  cases h : outdatedCursor.toBytes D fun body => .ok body.toValue with
  | error e => exact .inl rfl
  | ok bytes =>
    have hordered : ∀ value, Except.ok outdatedCursor.body.toValue = (.ok value : Except String Value) →
        Ordered value := by
      rintro value ⟨⟩
      exact outdatedCursor.body.ordered
    obtain ⟨value, hvalue, hread⟩ := readFrame_message h hordered
    cases hvalue
    exact .inr hread

/-! ## One turn -/

theorem socketStep_some (h : socketStep D X cap decode s a = some t) :
    s.returned = false ∧ turn D X cap decode s a = some t := by
  unfold socketStep at h
  split at h
  · cases h
  · exact ⟨Bool.eq_false_iff.2 ‹_›, h⟩

/-- The publishers and the task hand nothing out and end nothing. -/
theorem behind_frame {live live' : Live} {a : LiveStep} (hpoll : a ≠ .poll) (hdrop : a ≠ .drop)
    (h : liveStep cap decode live a = some live') :
    live'.delivered = live.delivered ∧ live'.ended = live.ended := by
  cases a with
  | poll => exact absurd rfl hpoll
  | drop => exact absurd rfl hdrop
  | publish envelope =>
    simp only [liveStep] at h
    split at h <;> cases h
    exact ⟨rfl, rfl⟩
  | close =>
    cases h
    exact ⟨rfl, rfl⟩
  | recv =>
    simp only [liveStep] at h
    repeat' split at h
    all_goals cases h
    all_goals exact ⟨rfl, rfl⟩
  | check =>
    simp only [liveStep] at h
    repeat' split at h
    all_goals cases h
    all_goals exact ⟨rfl, rfl⟩
  | send =>
    simp only [liveStep] at h
    repeat' split at h
    all_goals cases h
    all_goals exact ⟨rfl, rfl⟩

/-- A poll that is ready hands out one event or ends the stream. -/
theorem poll_hands {live live' : Live} (h : liveStep cap decode live .poll = some live') :
    (∃ evt, live'.delivered = live.delivered ++ [evt] ∧ live'.ended = live.ended) ∨
      live'.delivered = live.delivered ∧ live'.ended = true := by
  rcases poll_step_cases h with ⟨evt, iter, -, rfl⟩ | ⟨evt, channel, -, -, rfl⟩ | rfl
  · exact .inl ⟨evt, rfl, rfl⟩
  · exact .inl ⟨evt, rfl, rfl⟩
  · exact .inr ⟨rfl, rfl⟩

theorem owed_poll {live live' : Live} (h : liveStep cap decode live .poll = some live') :
    owed decode backfill start live' = owed decode backfill start live := by
  rcases poll_step_cases h with ⟨evt, iter, -, rfl⟩ | ⟨evt, channel, -, -, rfl⟩ | rfl <;> rfl

theorem turn_behind {b : LiveStep} (h : turn D X cap decode s (.behind b) = some t) :
    b ≠ .poll ∧ b ≠ .drop ∧ ∃ live, liveStep cap decode s.live b = some live ∧ t = { s with live } := by
  have hmap : b ≠ .poll → b ≠ .drop → turn D X cap decode s (.behind b) =
      (liveStep cap decode s.live b).map fun live => { s with live } := by
    intro hpoll hdrop
    cases b with
    | poll => exact absurd rfl hpoll
    | drop => exact absurd rfl hdrop
    | publish | close | recv | check | send => rfl
  have hpoll : b ≠ .poll := by
    rintro rfl
    cases h
  have hdrop : b ≠ .drop := by
    rintro rfl
    cases h
  obtain ⟨live, hl, rfl⟩ := Option.map_eq_some_iff.1 ((hmap hpoll hdrop).symm.trans h)
  exact ⟨hpoll, hdrop, live, hl, rfl⟩

theorem data_append (live : Live) (sent more : List Message) (returned : Bool) :
    Socket.data ⟨live, sent ++ more, returned⟩ =
      sent.filter Message.isData ++ more.filter Message.isData :=
  List.filter_append ..

/-- A turn that sends no data and hands out no event. -/
theorem OnWire.keep (h : OnWire D X opening s) (hopen : s.returned = false)
    (hdelivered : t.live.delivered = s.live.delivered) (hdata : t.data = s.data) :
    OnWire D X opening t := by
  obtain ⟨n, frames, err, hd, hframes, hle, herr, hlast⟩ := h
  refine ⟨n, frames, err, hdata.trans hd, ?_, ?_, herr, fun _ => ?_⟩
  · rwa [hdelivered]
  · rwa [hdelivered]
  · rw [hdelivered]
    exact hlast hopen

theorem onWire_event (h : OnWire D X opening s) (hopen : s.returned = false) {now : Instant}
    {accepted : Bool} {live : Live} (hpoll : liveStep cap decode s.live .poll = some live) :
    OnWire D X opening (sendEvent D X now accepted s live) := by
  obtain ⟨n, frames, err, hdata, hframes, -, -, hlast⟩ := h
  obtain ⟨hn, rfl⟩ := hlast hopen
  rw [List.take_of_length_le hn] at hframes
  rw [List.append_nil] at hdata
  rcases poll_hands hpoll with ⟨evt, hevt, -⟩ | ⟨hnone, -⟩
  · have hnext : live.delivered[s.live.delivered.length]? = some evt := by
      rw [hevt]
      exact List.getElem?_concat_length
    have hfront : live.delivered.take s.live.delivered.length = s.live.delivered := by
      rw [hevt]
      exact List.take_left
    have hlen : live.delivered.length = s.live.delivered.length + 1 := by
      rw [hevt, List.length_append]
      rfl
    unfold sendEvent
    rw [hnext]
    dsimp only
    cases hbytes : typedEventToFrameBytes D X now evt with
    | ok bytes =>
      cases accepted with
      | true =>
        obtain ⟨body, hbody, hread⟩ := readFrame_event hbytes
        refine ⟨live.delivered.length, frames ++ [.binary bytes], [], ?_, ?_, Nat.le_succ _, .inl rfl,
          fun _ => ⟨Nat.le_refl _, rfl⟩⟩
        · rw [data_append, List.append_nil, ← List.append_assoc, ← hdata]
          rfl
        · rw [List.take_length, hevt]
          exact List.rel_append hframes (.cons ⟨now, bytes, body, rfl, hbody, hread⟩ .nil)
      | false =>
        refine ⟨s.live.delivered.length, frames, [], ?_, hfront.symm ▸ hframes, hlen.le, .inl rfl,
          fun h => Bool.noConfusion h⟩
        rw [data_append, List.append_nil, ← hdata]
        exact List.append_nil _
    | error e =>
      refine ⟨s.live.delivered.length, frames, sending accepted (errorMessage D "SerializationError" e),
        ?_, hfront.symm ▸ hframes, hlen.le, ?_, fun h => Bool.noConfusion h⟩
      · rw [data_append, ← hdata]
        cases accepted <;> rfl
      · cases accepted with
        | true => exact .inr ⟨e, _, rfl, rfl, errorMessage_says D "SerializationError" e⟩
        | false => exact .inl rfl
  · have hnext : live.delivered[s.live.delivered.length]? = none := by
      rw [hnone]
      exact List.getElem?_eq_none (Nat.le_refl _)
    unfold sendEvent
    rw [hnext]
    refine ⟨s.live.delivered.length, frames, [], hdata.trans (List.append_nil _).symm, ?_, ?_, .inl rfl,
      fun h => Bool.noConfusion h⟩
    · rwa [hnone, List.take_length]
    · rw [hnone]
      exact Nat.le_succ _

theorem onWire_step (h : OnWire D X opening s) (hstep : socketStep D X cap decode s a = some t) :
    OnWire D X opening t := by
  obtain ⟨hopen, hturn⟩ := socketStep_some hstep
  cases a with
  | behind b =>
    obtain ⟨hpoll, hdrop, live, hb, rfl⟩ := turn_behind hturn
    exact h.keep hopen (behind_frame hpoll hdrop hb).1 rfl
  | event now accepted =>
    obtain ⟨live, hpoll, rfl⟩ := Option.map_eq_some_iff.1 hturn
    exact onWire_event h hopen hpoll
  | incoming msg =>
    cases hturn
    exact h.keep hopen rfl rfl
  | tick accepted =>
    cases hturn
    refine h.keep hopen rfl ?_
    have hping : (sending accepted .ping).filter Message.isData = [] := by cases accepted <;> rfl
    rw [data_append, hping, List.append_nil]
    rfl

/-- The stream of an open socket keeps its invariant; what it has handed out stays. -/
def FirstInv (decode : String → Option SeqEvt) (backfill : List SeqEvt) (start : Int) (s : Socket) :
    Prop :=
  FromTheFirst decode backfill start s ∧
    (s.returned = false → s.live.ended = false ∧ LiveInv decode backfill start s.live)

theorem delivered_first {live : Live} (h : LiveInv decode backfill start live) :
    live.delivered <+: owed decode backfill start live := by
  rw [owed, ← h.inPipeline, Live.pipeline, List.append_assoc, List.append_assoc]
  exact List.prefix_append _ _

theorem sendEvent_live (now : Instant) (accepted : Bool) (s : Socket) (live : Live) :
    (sendEvent D X now accepted s live).live = live := by
  unfold sendEvent
  split
  · rfl
  · split <;> rfl

theorem sendEvent_ended {now : Instant} {accepted : Bool} {live : Live}
    (h : live.delivered = s.live.delivered) :
    (sendEvent D X now accepted s live).returned = true := by
  unfold sendEvent
  rw [h, List.getElem?_eq_none (Nat.le_refl _)]

theorem firstInv_step (h : FirstInv decode backfill start s)
    (hC : BehindInOrder cap decode start s a) (hstep : socketStep D X cap decode s a = some t) :
    FirstInv decode backfill start t := by
  obtain ⟨hopen, hturn⟩ := socketStep_some hstep
  obtain ⟨hended, hlive⟩ := h.2 hopen
  cases a with
  | behind b =>
    obtain ⟨hpoll, hdrop, live, hb, rfl⟩ := turn_behind hturn
    have hends := (behind_frame hpoll hdrop hb).2.trans hended
    have hlive' := liveInv_step (fun _ => hlive) hC hb hends
    exact ⟨delivered_first hlive', fun _ => ⟨hends, hlive'⟩⟩
  | event now accepted =>
    obtain ⟨live, hpoll, rfl⟩ := Option.map_eq_some_iff.1 hturn
    have hC' : InSeqOrder cap decode start s.live .poll := trivial
    have hinv := liveInv_step (fun _ => hlive) hC' hpoll
    unfold FirstInv FromTheFirst
    rw [sendEvent_live]
    rcases poll_hands hpoll with ⟨evt, -, hends⟩ | ⟨hnone, -⟩
    · have hlive' := hinv (hends.trans hended)
      exact ⟨delivered_first hlive', fun _ => ⟨hends.trans hended, hlive'⟩⟩
    · refine ⟨?_, fun hr => ?_⟩
      · rw [hnone, owed_poll hpoll]
        exact h.1
      · rw [sendEvent_ended hnone] at hr
        cases hr
  | incoming msg =>
    cases hturn
    exact ⟨h.1, fun _ => ⟨hended, hlive⟩⟩
  | tick accepted =>
    cases hturn
    exact ⟨h.1, fun _ => ⟨hended, hlive⟩⟩

/-! ## The subscription -/

theorem subscribeRepos_some {K : Codecs} {O : OrderByTime} {t backfill : RepoSeq} {curr : Option String}
    {limit : Int} {cursor : Option Int} {accepted : Bool} {live : Live}
    (h : subscribeRepos D X K O t backfill curr limit cursor accepted = (opening, some live)) :
    (opening = [] ∨ opening = [infoMessage D] ∧ SaysOutdated D (infoMessage D)) ∧
      ∃ c, live = (Outbox.new.events K backfill c).1 := by
  unfold subscribeRepos at h
  split at h
  · cases h
  · split at h
    · cases h
    · cases h
      refine ⟨?_, _, rfl⟩
      split
      · cases accepted
        · exact .inl rfl
        · exact .inr ⟨rfl, infoMessage_says D⟩
      · exact .inl rfl

/-- **From the log to the wire.** Whatever a subscriber sends, whichever of its messages are not accepted
and in whatever order the publishers, the task, the ping and the connection step, it reads the events
that the stream hands out, one frame each and in order, behind at most one notice. If the task's steps
are in order, these are the first of the backfill and of what is published later. -/
theorem subscriber_reads (D : Dagcbor) (X : Lexicon) (K : Codecs) (O : OrderByTime)
    (t backfill : RepoSeq) (curr : Option String) (limit : Int) (cursor : Option Int) (accepted : Bool)
    {opening : List Message} {live : Live}
    (h : subscribeRepos D X K O t backfill curr limit cursor accepted = (opening, some live))
    (cap : Nat) (steps : List SocketStep) :
    (opening = [] ∨ opening = [infoMessage D] ∧ SaysOutdated D (infoMessage D)) ∧
      Runs.Always (socketStep D X cap K.fromJson) (OnWire D X opening) ⟨live, opening, false⟩ steps ∧
      (Runs.Along (socketStep D X cap K.fromJson) (BehindInOrder cap K.fromJson live.lastSeen)
          ⟨live, opening, false⟩ steps →
        Runs.Always (socketStep D X cap K.fromJson)
          (FromTheFirst K.fromJson live.iter live.lastSeen) ⟨live, opening, false⟩ steps) := by
  obtain ⟨hopening, c, rfl⟩ := subscribeRepos_some h
  have hdata : opening.filter Message.isData = opening := by
    rcases hopening with rfl | ⟨rfl, -⟩ <;> rfl
  have hlive := openInv_subscribe K.fromJson (events_iter_le K backfill .new c)
  rw [← events_eq_subscribe] at hlive
  have hempty : (Outbox.new.events K backfill c).1.delivered = [] := rfl
  refine ⟨hopening, Runs.always_of_keep (fun _ _ _ h hs => onWire_step h hs) ?_ steps, fun hC => ?_⟩
  · refine ⟨0, [], [], ?_, .nil, Nat.zero_le _, .inl rfl, fun _ => ⟨Nat.le_refl _, rfl⟩⟩
    rw [List.append_nil, List.append_nil]
    exact hdata
  · have hfirst : FirstInv K.fromJson (Outbox.new.events K backfill c).1.iter
        (Outbox.new.events K backfill c).1.lastSeen
        ⟨(Outbox.new.events K backfill c).1, opening, false⟩ := by
      refine ⟨?_, fun _ => ⟨rfl, hlive rfl⟩⟩
      unfold FromTheFirst
      rw [hempty]
      exact List.nil_prefix
    exact (Runs.always_of_along (fun _ _ _ h hC hs => firstInv_step h hC hs) hfirst steps hC).mono
      fun _ h => h.1

/-! ### One subscriber -/

def dagcbor : Dagcbor where
  toVec := DagCbor.toVec
  structToCbor := DagCbor.toVec
  next := DagCbor.next
  next_toVec _ h := DagCbor.next_toVec h
  next_structToCbor _ h := DagCbor.next_toVec h

/-- The sample event's message. -/
def sampleIdentity (e : SubscribeReposIdentity) : Except String Value :=
  if e.time = 1767225600000000000 ∧ e.handle = none then
    .ok (.map [("did", .string e.did), ("seq", .int e.seq), ("time", .string "2026-01-01T00:00:00Z")])
  else .error "another message"

theorem sampleIdentity_ordered {e : SubscribeReposIdentity} {value : Value}
    (h : sampleIdentity e = .ok value) : Ordered value := by
  unfold sampleIdentity at h
  split at h
  · cases h
    have hseq : DagCbor.KeyLt "did" "seq" := .inr ⟨by decide, by decide⟩
    have htime : DagCbor.KeyLt "did" "time" := .inl (by decide)
    have htime' : DagCbor.KeyLt "seq" "time" := .inl (by decide)
    refine ordered_fields ?_ (by simp)
    simp [hseq, htime, htime']
  · cases h

def sampleLexicon : Lexicon where
  commit _ := .error "another message"
  identity := sampleIdentity
  account _ := .error "another message"
  sync _ := .error "another message"
  parseFromRfc3339 s := if s = sampleTime then some 1767225600000000000 else none
  jsonToString _ := ""
  commit_ordered h := by cases h
  identity_ordered h := sampleIdentity_ordered h
  account_ordered h := by cases h
  sync_ordered h := by cases h

/-- An event is published, delivered and sent; then the client goes away. -/
def sampleSteps : List SocketStep :=
  [.behind (.publish (sampleCodecs.toJson (sampleTyped 5))), .behind .recv, .tick true, .behind .check,
    .behind .send, .event 0 true, .incoming .close]

theorem subscriber_reads_sample :
    let live := (Outbox.new.events sampleCodecs .empty none).1
    ((([] : List Message) = [] ∨
        [] = [infoMessage dagcbor] ∧ SaysOutdated dagcbor (infoMessage dagcbor)) ∧
      Runs.Always (socketStep dagcbor sampleLexicon 1024 sampleCodecs.fromJson)
        (OnWire dagcbor sampleLexicon []) ⟨live, [], false⟩ sampleSteps ∧
      (Runs.Along (socketStep dagcbor sampleLexicon 1024 sampleCodecs.fromJson)
          (BehindInOrder 1024 sampleCodecs.fromJson live.lastSeen) ⟨live, [], false⟩ sampleSteps →
        Runs.Always (socketStep dagcbor sampleLexicon 1024 sampleCodecs.fromJson)
          (FromTheFirst sampleCodecs.fromJson live.iter live.lastSeen) ⟨live, [], false⟩ sampleSteps)) :=
  subscriber_reads dagcbor sampleLexicon sampleCodecs inIdOrder .empty .empty none 0 none true rfl 1024
    sampleSteps

end CacosPds.Server
