import CacosPds.Lib.Broadcast
import CacosPds.Lib.Run
import CacosPds.Sequencer.Backfill
/-!
# The live half of an outbox stream (`cacos-pds-sequencer/src/outbox.rs:80-219`)

| here | there |
| --- | --- |
| `Outbox.events`      | `Outbox::events` up to the spawn (`outbox.rs:80-116`): backfill, then subscribe |
| `LiveStep.recv`      | `bcast_rx.recv()` and the decoding of the envelope (`:119-121`, `:136-137`) |
| `LiveStep.check`     | the high-water-mark test under the lock (`:122-131`) |
| `LiveStep.send`      | `tx.send(evt)` on the channel of 64 (`:131`) |
| `LiveStep.poll`      | `OutboxStream::poll_next` (`:196-218`), when it is ready |

The spawned task, the consumer and the publishers step in any order. A task that lagged carries on
with the oldest envelope the ring still has (`:136`); the comment in `publish`
(`apalis_worker.rs:48`) has such a subscriber dropped.
-/
namespace CacosPds.Sequencer

/-- The capacity of the channel between the task and the stream (`outbox.rs:112`). -/
def CHANNEL_SIZE : Nat := 64

/-- Where the spawned task stands. -/
inductive Task where
  | waiting
  | got (evt : SeqEvt)
  | sending (evt : SeqEvt)
  | stopped

/-- A subscription: the broadcast log since it began and the receiver's position, the task, and the
two ends of the stream. `ended`: the stream returned `None` or was dropped. -/
structure Live where
  sent : List String
  closed : Bool
  next : Nat
  lastSeen : Int
  task : Task
  channel : List SeqEvt
  iter : List SeqEvt
  delivered : List SeqEvt
  ended : Bool

def Live.subscribe (backfill : List SeqEvt) (lastSeen : Int) : Live :=
  ⟨[], false, 0, lastSeen, .waiting, [], backfill, [], false⟩

/-- `Outbox::events` (`outbox.rs:80-147`). -/
def Outbox.events (K : Codecs) (t : RepoSeq) (o : Outbox) (backfillCursor : Option Int) :
    Live × Outbox :=
  let (evts, o) := match backfillCursor with
    | some cursor => getBackfill K t { o with backfillCursor := some cursor } cursor
    | none => ([], o)
  let o := evts.foldl (fun o e => (o.observeMax e.seq).1) o
  (.subscribe evts o.lastSeen, { o with caughtUp := true })

inductive LiveStep where
  /-- Somebody publishes an envelope. -/
  | publish (envelope : String)
  /-- The last sender goes away. -/
  | close
  | recv
  | check
  | send
  | poll
  /-- The consumer drops the stream. -/
  | drop

variable (cap : Nat) (decode : String → Option SeqEvt)

def liveStep (s : Live) : LiveStep → Option Live
  | .publish envelope => if s.closed then none else some { s with sent := s.sent ++ [envelope] }
  | .close => some { s with closed := true }
  | .recv =>
    match s.task with
    | .waiting =>
      match Broadcast.recv cap s.sent s.next with
      | (.ok envelope, next) =>
        match decode envelope with
        | some evt => some { s with next := next, task := .got evt }
        | none => some { s with next := next }
      | (.lagged _, next) => some { s with next := next }
      | (.pending, _) => if s.closed then some { s with task := .stopped } else none
    | _ => none
  | .check =>
    match s.task with
    | .got evt =>
      if s.lastSeen < evt.seq then some { s with lastSeen := evt.seq, task := .sending evt }
      else some { s with task := .waiting }
    | _ => none
  | .send =>
    match s.task with
    | .sending evt =>
      if s.ended then some { s with task := .stopped }
      else if s.channel.length < CHANNEL_SIZE then
        some { s with channel := s.channel ++ [evt], task := .waiting }
      else none
    | _ => none
  | .poll =>
    if s.ended then none
    else match s.iter, s.channel, s.task with
      | evt :: iter, _, _ =>
        some { s with iter := iter, lastSeen := max s.lastSeen evt.seq, delivered := s.delivered ++ [evt] }
      | [], evt :: channel, _ =>
        some { s with channel := channel, delivered := s.delivered ++ [evt] }
      | [], [], .stopped => some { s with ended := true }
      | [], [], _ => none
  | .drop => some { s with ended := true }

/-! ## What the stream owes its consumer -/

/-- The events of some envelopes; one that does not decode is none. -/
def decoded (envelopes : List String) : List SeqEvt := envelopes.filterMap decode

/-- The events the consumer wants of some envelopes: those after the stream's starting point. -/
def wantedOf (start : Int) (envelopes : List String) : List SeqEvt :=
  (decoded decode envelopes).filter fun e => start < e.seq

/-- What the task holds for the consumer. -/
def Task.held (start : Int) : Task → List SeqEvt
  | .got evt => if start < evt.seq then [evt] else []
  | .sending evt => [evt]
  | _ => []

/-- What the consumer got and what is on its way to it. -/
def Live.pipeline (start : Int) (s : Live) : List SeqEvt :=
  s.delivered ++ s.iter ++ s.channel ++ s.task.held start

/-- Of the backfill and the envelopes the receiver is past, each wanted event is delivered or on its
way once — or the stream has ended. -/
def DeliversOnce (backfill : List SeqEvt) (start : Int) (s : Live) : Prop :=
  s.ended = false →
    (s.pipeline start).Perm (backfill ++ wantedOf decode start (s.sent.take s.next))

/-- The condition on the task's steps: an overrun of the ring takes no wanted event, and a wanted
event comes with a higher seq than all events before it. -/
def InSeqOrder (start : Int) (s : Live) : LiveStep → Prop
  | .recv => s.ended = false → cap < s.sent.length - s.next →
      wantedOf decode start (Broadcast.passed cap s.sent s.next) = []
  | .check => s.ended = false → ∀ evt, s.task = .got evt → start < evt.seq →
      ∀ e ∈ decoded decode (s.sent.take (s.next - 1)), e.seq < evt.seq
  | _ => True

/-- The task and a polling consumer alone bring the stream to where all that it has received and wants
is delivered. -/
def Delivers (backfill : List SeqEvt) (start : Int) (s : Live) : Prop :=
  ∃ ws t, (∀ a ∈ ws, a = .check ∨ a = .send ∨ a = .poll) ∧
    Runs.run (liveStep cap decode) s ws = some t ∧
    t.delivered = backfill ++ wantedOf decode start (s.sent.take s.next)

variable {cap decode} {start : Int} {backfill : List SeqEvt}

theorem decoded_append (xs ys : List String) :
    decoded decode (xs ++ ys) = decoded decode xs ++ decoded decode ys := by
  simp [decoded]

theorem wantedOf_append (xs ys : List String) :
    wantedOf decode start (xs ++ ys) = wantedOf decode start xs ++ wantedOf decode start ys := by
  simp [wantedOf, decoded]

/-- The stream's high-water mark once the events `evts` came by. -/
def highWater (start : Int) (evts : List SeqEvt) : Int := evts.foldl (fun m e => max m e.seq) start

theorem highWater_append (start : Int) (xs : List SeqEvt) (e : SeqEvt) :
    highWater start (xs ++ [e]) = max (highWater start xs) e.seq := by
  simp [highWater]

theorem highWater_lt {x : Int} {evts : List SeqEvt} :
    highWater start evts < x ↔ start < x ∧ ∀ e ∈ evts, e.seq < x := by
  unfold highWater
  induction evts generalizing start with
  | nil => simp
  | cons e evts ih => rw [List.foldl_cons, ih, List.forall_mem_cons, max_lt_iff, and_assoc]

theorem le_highWater (start : Int) (evts : List SeqEvt) : start ≤ highWater start evts :=
  Int.not_lt.1 fun h => absurd (highWater_lt.1 h).1 (Int.lt_irrefl _)

theorem highWater_append_of_le {evts more : List SeqEvt} (h : ∀ e ∈ more, e.seq ≤ start) :
    highWater start (evts ++ more) = highWater start evts := by
  unfold highWater
  rw [List.foldl_append]
  generalize hm : evts.foldl (fun m e => max m e.seq) start = m
  have hstart : start ≤ m := hm ▸ le_highWater start evts
  induction more with
  | nil => rfl
  | cons e more ih =>
    have := h e List.mem_cons_self
    rw [List.foldl_cons, max_eq_left (by omega)]
    exact ih fun x hx => h x (List.mem_cons_of_mem e hx)

/-! ## The invariant -/

/-- The events that went into the high-water mark: all the receiver is past, but for the one in the
task's hand. -/
def Live.counted (decode : String → Option SeqEvt) (s : Live) : List SeqEvt :=
  match s.task with
  | .got _ => decoded decode (s.sent.take (s.next - 1))
  | _ => decoded decode (s.sent.take s.next)

structure LiveInv (decode : String → Option SeqEvt) (backfill : List SeqEvt) (start : Int)
    (s : Live) : Prop where
  inPipeline : s.pipeline start = backfill ++ wantedOf decode start (s.sent.take s.next)
  mark : s.lastSeen = highWater start (s.counted decode)
  hand : ∀ evt, s.task = .got evt →
    decoded decode (s.sent.take s.next) = decoded decode (s.sent.take (s.next - 1)) ++ [evt]
  iter_le : ∀ e ∈ s.iter, e.seq ≤ start
  next_le : s.next ≤ s.sent.length

/-- The invariant of the open stream; nothing is owed on one that has ended. -/
def OpenInv (decode : String → Option SeqEvt) (backfill : List SeqEvt) (start : Int) (s : Live) :
    Prop := s.ended = false → LiveInv decode backfill start s

theorem openInv_subscribe (decode : String → Option SeqEvt) (h : ∀ e ∈ backfill, e.seq ≤ start) :
    OpenInv decode backfill start (.subscribe backfill start) := fun _ =>
  { inPipeline := by simp [Live.pipeline, Live.subscribe, Task.held, wantedOf, decoded]
    mark := rfl
    hand := by rintro evt ⟨⟩
    iter_le := h
    next_le := Nat.le_refl _ }

theorem OpenInv.deliversOnce {s : Live} (h : OpenInv decode backfill start s) :
    DeliversOnce decode backfill start s := fun hopen => by rw [(h hopen).inPipeline]

theorem open_of_step {s t : Live} {a : LiveStep} (hs : liveStep cap decode s a = some t)
    (ht : t.ended = false) : s.ended = false := by
  cases a with
  | publish envelope =>
    simp only [liveStep] at hs
    split at hs
    · cases hs
    · cases hs; exact ht
  | close => cases hs; exact ht
  | recv =>
    simp only [liveStep] at hs
    split at hs
    · split at hs
      · split at hs <;> cases hs <;> exact ht
      · cases hs; exact ht
      · split at hs
        · cases hs; exact ht
        · cases hs
    · cases hs
  | check =>
    simp only [liveStep] at hs
    split at hs
    · split at hs <;> cases hs <;> exact ht
    · cases hs
  | send =>
    simp only [liveStep] at hs
    split at hs
    · split at hs
      · cases hs; exact ht
      · split at hs
        · cases hs; exact ht
        · cases hs
    · cases hs
  | poll =>
    simp only [liveStep] at hs
    split at hs
    · cases hs
    · exact Bool.not_eq_true _ ▸ ‹_›
  | drop => cases hs; cases ht

/-! ### The task's steps -/

/-- What a `recv` of the waiting task does: it overruns, takes an event into its hand, passes an
envelope that does not decode, or stops. -/
theorem recv_step_cases {s t : Live} (hs : liveStep cap decode s .recv = some t) :
    s.task = .waiting ∧
    ((cap < s.sent.length - s.next ∧ t = { s with next := (Broadcast.recv cap s.sent s.next).2 }) ∨
     (∃ envelope, s.sent[s.next]? = some envelope ∧
        ((∃ evt, decode envelope = some evt ∧ t = { s with next := s.next + 1, task := .got evt }) ∨
         (decode envelope = none ∧ t = { s with next := s.next + 1 }))) ∨
     (s.sent.length ≤ s.next ∧ t = { s with task := .stopped })) := by
  simp only [liveStep] at hs
  split at hs
  case h_2 => cases hs
  rename_i hw
  refine ⟨hw, ?_⟩
  rcases Broadcast.recv_cases cap s.sent s.next with ⟨hlag, e⟩ | ⟨envelope, hm, e⟩ | ⟨hle, e⟩
  · rw [e] at hs
    cases hs
    exact .inl ⟨hlag, by rw [e]⟩
  · rw [e] at hs
    refine .inr (.inl ⟨envelope, hm, ?_⟩)
    simp only at hs
    split at hs
    · cases hs; exact .inl ⟨_, ‹_›, rfl⟩
    · cases hs; exact .inr ⟨‹_›, rfl⟩
  · rw [e] at hs
    simp only at hs
    split at hs
    · cases hs; exact .inr (.inr ⟨hle, rfl⟩)
    · cases hs

theorem take_succ_of_getElem? {α : Type} {xs : List α} {n : Nat} {x : α} (h : xs[n]? = some x) :
    xs.take (n + 1) = xs.take n ++ [x] := by
  rw [List.take_add_one, h]
  rfl

theorem liveInv_recv {s t : Live} (h : LiveInv decode backfill start s) (hopen : s.ended = false)
    (hC : InSeqOrder cap decode start s .recv) (hs : liveStep cap decode s .recv = some t) :
    LiveInv decode backfill start t := by
  obtain ⟨hw, hcase⟩ := recv_step_cases hs
  have hpipe := h.inPipeline
  have hmark := h.mark
  simp only [Live.pipeline, hw, Task.held, List.append_nil, Live.counted] at hpipe hmark
  rcases hcase with ⟨hlag, rfl⟩ | ⟨envelope, hm, ⟨evt, hd, rfl⟩ | ⟨hd, rfl⟩⟩ | ⟨hle, rfl⟩
  · -- an overrun: what it passes over does not count
    have hnone := hC hopen hlag
    refine ⟨?_, ?_, by simp [hw], h.iter_le, Broadcast.recv_le cap s.sent s.next h.next_le⟩
    · simp only [Live.pipeline, hw, Task.held, List.append_nil]
      rw [hpipe, Broadcast.take_recv, wantedOf_append, hnone, List.append_nil]
    · simp only [Live.counted, hw]
      rw [hmark, Broadcast.take_recv, decoded_append]
      refine (highWater_append_of_le fun e he => ?_).symm
      have := List.filter_eq_nil_iff.1 hnone e he
      simpa using this
  · have htake := take_succ_of_getElem? hm
    have hdec : decoded decode (s.sent.take (s.next + 1)) = decoded decode (s.sent.take s.next) ++ [evt] := by
      simp [htake, decoded, hd]
    refine ⟨?_, by simpa [Live.counted] using hmark, ?_, h.iter_le, ?_⟩
    · simp only [Live.pipeline, Task.held, htake, wantedOf_append]
      rw [hpipe, List.append_assoc]
      congr 2
      simp [wantedOf, decoded, hd, List.filter_cons]
    · rintro _ ⟨⟩
      simpa using hdec
    · have := (List.getElem?_eq_some_iff.1 hm).1
      simpa using this
  · have htake := take_succ_of_getElem? hm
    refine ⟨?_, ?_, by simp [hw], h.iter_le, ?_⟩
    · simp only [Live.pipeline, hw, Task.held, List.append_nil, htake, wantedOf_append]
      rw [hpipe]
      simp [wantedOf, decoded, hd]
    · simp only [Live.counted, hw, htake]
      rw [hmark]
      simp [decoded, hd]
    · have := (List.getElem?_eq_some_iff.1 hm).1
      simpa using this
  · exact ⟨by simpa [Live.pipeline, Task.held] using hpipe, by simpa [Live.counted] using hmark,
      by rintro _ ⟨⟩, h.iter_le, h.next_le⟩

theorem check_step_cases {s t : Live} (hs : liveStep cap decode s .check = some t) :
    ∃ evt, s.task = .got evt ∧
      ((s.lastSeen < evt.seq ∧ t = { s with lastSeen := evt.seq, task := .sending evt }) ∨
       (evt.seq ≤ s.lastSeen ∧ t = { s with task := .waiting })) := by
  simp only [liveStep] at hs
  split at hs
  case h_2 => cases hs
  rename_i evt hw
  refine ⟨evt, hw, ?_⟩
  split at hs
  · cases hs; exact .inl ⟨‹_›, rfl⟩
  · cases hs; exact .inr ⟨Int.not_lt.1 ‹_›, rfl⟩

theorem send_step_cases {s t : Live} (hopen : s.ended = false)
    (hs : liveStep cap decode s .send = some t) :
    ∃ evt, s.task = .sending evt ∧ t = { s with channel := s.channel ++ [evt], task := .waiting } := by
  simp only [liveStep] at hs
  split at hs
  case h_2 => cases hs
  rename_i evt hw
  rw [if_neg (by simp [hopen])] at hs
  split at hs
  · cases hs; exact ⟨evt, hw, rfl⟩
  · cases hs

theorem poll_step_cases {s t : Live} (hs : liveStep cap decode s .poll = some t) :
    (∃ evt iter, s.iter = evt :: iter ∧ t = { s with
      iter := iter, lastSeen := max s.lastSeen evt.seq, delivered := s.delivered ++ [evt] }) ∨
    (∃ evt channel, s.iter = [] ∧ s.channel = evt :: channel ∧ t = { s with
      channel := channel, delivered := s.delivered ++ [evt] }) ∨
    t = { s with ended := true } := by
  simp only [liveStep] at hs
  split at hs
  · cases hs
  split at hs
  · cases hs; exact .inl ⟨_, _, ‹_›, rfl⟩
  · cases hs; exact .inr (.inl ⟨_, _, ‹_›, ‹_›, rfl⟩)
  · cases hs; exact .inr (.inr rfl)
  · cases hs

theorem liveInv_check {s t : Live} (h : LiveInv decode backfill start s) (hopen : s.ended = false)
    (hC : InSeqOrder cap decode start s .check) (hs : liveStep cap decode s .check = some t) :
    LiveInv decode backfill start t := by
  obtain ⟨evt, hw, hcase⟩ := check_step_cases hs
  have hpipe := h.inPipeline
  have hmark := h.mark
  have hhand := h.hand evt hw
  simp only [Live.pipeline, hw, Task.held, Live.counted] at hpipe hmark
  have hstart := le_highWater start (decoded decode (s.sent.take (s.next - 1)))
  rw [← hmark] at hstart
  rcases hcase with ⟨hlt, rfl⟩ | ⟨hle, rfl⟩
  · refine ⟨?_, ?_, by rintro _ ⟨⟩, h.iter_le, h.next_le⟩
    · simp only [Live.pipeline, Task.held]
      rw [← hpipe, if_pos (Int.lt_of_le_of_lt hstart hlt)]
    · simp only [Live.counted]
      rw [hhand, highWater_append, ← hmark, max_eq_right (Int.le_of_lt hlt)]
  · -- a wanted event would be above the mark
    have hunwanted : ¬ start < evt.seq := fun hstartlt => by
      have := highWater_lt.2 ⟨hstartlt, hC hopen evt hw hstartlt⟩
      omega
    refine ⟨?_, ?_, by rintro _ ⟨⟩, h.iter_le, h.next_le⟩
    · simp only [Live.pipeline, Task.held]
      rw [← hpipe, if_neg hunwanted]
    · simp only [Live.counted]
      rw [hhand, highWater_append, ← hmark, max_eq_left hle]

theorem liveInv_step {s t : Live} {a : LiveStep} (h : OpenInv decode backfill start s)
    (hC : InSeqOrder cap decode start s a) (hs : liveStep cap decode s a = some t) :
    OpenInv decode backfill start t := by
  intro ht
  have hopen := open_of_step hs ht
  have h := h hopen
  cases a with
  | recv => exact liveInv_recv h hopen hC hs
  | check => exact liveInv_check h hopen hC hs
  | publish envelope =>
    simp only [liveStep] at hs
    split at hs
    · cases hs
    cases hs
    have htake : ∀ n ≤ s.next, (s.sent ++ [envelope]).take n = s.sent.take n := fun n hn =>
      List.take_append_of_le_length (Nat.le_trans hn h.next_le)
    refine ⟨?_, ?_, ?_, h.iter_le, by simp only [List.length_append]; have := h.next_le; omega⟩
    · simpa only [Live.pipeline, htake _ (Nat.le_refl _)] using h.inPipeline
    · simpa only [Live.counted, htake _ (Nat.le_refl _), htake _ (Nat.sub_le _ 1)] using h.mark
    · simpa only [htake _ (Nat.le_refl _), htake _ (Nat.sub_le _ 1)] using h.hand
  | close => cases hs; exact ⟨h.inPipeline, h.mark, h.hand, h.iter_le, h.next_le⟩
  | send =>
    obtain ⟨evt, hw, rfl⟩ := send_step_cases hopen hs
    have hpipe := h.inPipeline
    have hmark := h.mark
    simp only [Live.pipeline, hw, Task.held, Live.counted] at hpipe hmark
    exact ⟨by simpa [Live.pipeline, Task.held] using hpipe, hmark, by rintro _ ⟨⟩, h.iter_le, h.next_le⟩
  | poll =>
    have hpipe := h.inPipeline
    simp only [Live.pipeline] at hpipe
    rcases poll_step_cases hs with ⟨evt, iter, hiter, rfl⟩ | ⟨evt, channel, hiter, hchan, rfl⟩ | rfl
    · have hle : evt.seq ≤ s.lastSeen := by
        have := h.iter_le evt (by simp [hiter])
        have := le_highWater start (s.counted decode)
        rw [← h.mark] at this
        omega
      refine ⟨?_, ?_, h.hand, fun e he => h.iter_le e (by simp [hiter, he]), h.next_le⟩
      · simpa [Live.pipeline, hiter] using hpipe
      · exact (max_eq_left hle).trans h.mark
    · refine ⟨?_, h.mark, h.hand, h.iter_le, h.next_le⟩
      simpa [Live.pipeline, hiter, hchan] using hpipe
    · cases ht
  | drop => cases hs; cases ht

/-! ### What breaks it -/

theorem not_deliversOnce_of_step {s t : Live} {a : LiveStep} (h : OpenInv decode backfill start s)
    (hC : ¬ InSeqOrder cap decode start s a) (hs : liveStep cap decode s a = some t) :
    ¬ DeliversOnce decode backfill start t := by
  cases a with
  | publish envelope => exact absurd trivial hC
  | close => exact absurd trivial hC
  | send => exact absurd trivial hC
  | poll => exact absurd trivial hC
  | drop => exact absurd trivial hC
  | recv =>
    -- the overrun passes wanted events, the pipeline stays as it is
    simp only [InSeqOrder, Classical.not_imp] at hC
    obtain ⟨hopen, hlag, hne⟩ := hC
    obtain ⟨hw, -⟩ := recv_step_cases hs
    simp only [liveStep, hw, Broadcast.recv_lagged hlag] at hs
    cases hs
    have hpipe := congrArg List.length (h hopen).inPipeline
    have hpos := List.length_pos_iff.2 hne
    have htake := Broadcast.take_recv cap s.sent s.next
    rw [Broadcast.recv_lagged hlag] at htake
    intro hd
    have hlen := (hd hopen).length_eq
    simp only [htake, wantedOf_append, List.length_append, Live.pipeline, hw] at hlen hpipe
    omega
  | check =>
    simp only [InSeqOrder, Classical.not_imp, not_forall] at hC
    obtain ⟨hopen, evt, hw, hstart, e, he, hle⟩ := hC
    obtain ⟨evt', hw', hcase⟩ := check_step_cases hs
    obtain rfl : evt = evt' := by
      rw [hw] at hw'
      cases hw'
      rfl
    have hpipe := congrArg List.length (h hopen).inPipeline
    have hmark := (h hopen).mark
    simp only [Live.counted, hw] at hmark
    rcases hcase with ⟨hlt, -⟩ | ⟨-, rfl⟩
    · rw [hmark] at hlt
      exact absurd ((highWater_lt.1 hlt).2 e he) hle
    · intro hd
      have hlen := (hd hopen).length_eq
      simp only [Live.pipeline, Task.held, hw, List.length_append, if_pos hstart, List.length_nil,
        List.length_singleton] at hlen hpipe
      omega

/-! ## Delivery -/

theorem poll_iter {s : Live} {evt : SeqEvt} {iter : List SeqEvt} (hopen : s.ended = false)
    (h : s.iter = evt :: iter) : liveStep cap decode s .poll =
      some { s with iter := iter, lastSeen := max s.lastSeen evt.seq, delivered := s.delivered ++ [evt] } := by
  simp [liveStep, hopen, h]

theorem poll_channel {s : Live} {evt : SeqEvt} {channel : List SeqEvt} (hopen : s.ended = false)
    (hiter : s.iter = []) (h : s.channel = evt :: channel) : liveStep cap decode s .poll =
      some { s with channel := channel, delivered := s.delivered ++ [evt] } := by
  simp [liveStep, hopen, hiter, h]

/-- Polling hands out the backfill and the channel, in this order. -/
theorem polls_deliver (cap : Nat) (decode : String → Option SeqEvt) (s : Live) (hopen : s.ended = false) :
    ∃ ws t, (∀ a ∈ ws, a = .poll) ∧ Runs.run (liveStep cap decode) s ws = some t ∧
      t.delivered = s.delivered ++ s.iter ++ s.channel ∧ t.iter = [] ∧ t.channel = [] ∧
      t.task = s.task ∧ t.ended = false := by
  induction hn : s.iter.length + s.channel.length generalizing s with
  | zero =>
    have hiter : s.iter = [] := List.length_eq_zero_iff.1 (by omega)
    have hchan : s.channel = [] := List.length_eq_zero_iff.1 (by omega)
    exact ⟨[], s, by simp, rfl, by simp [hiter, hchan], hiter, hchan, rfl, hopen⟩
  | succ n ih =>
    obtain ⟨u, hu, hlen, hdel, htask, huopen⟩ : ∃ u, liveStep cap decode s .poll = some u ∧
        u.iter.length + u.channel.length = n ∧
        u.delivered ++ u.iter ++ u.channel = s.delivered ++ s.iter ++ s.channel ∧
        u.task = s.task ∧ u.ended = false := by
      cases hiter : s.iter with
      | cons evt iter =>
        rw [hiter, List.length_cons] at hn
        exact ⟨_, poll_iter hopen hiter, by simp only; omega, by simp, rfl, hopen⟩
      | nil =>
        cases hchan : s.channel with
        | nil => simp [hiter, hchan] at hn
        | cons evt channel =>
          rw [hiter, hchan, List.length_cons, List.length_nil] at hn
          exact ⟨_, poll_channel hopen hiter hchan, by simp only [hiter, List.length_nil]; omega,
            by simp [hiter], rfl, hopen⟩
    obtain ⟨ws, t, hws, hr, htdel, ht⟩ := ih u huopen hlen
    refine ⟨.poll :: ws, t, by simpa using hws, ?_, htdel.trans hdel, ht.1, ht.2.1, htask ▸ ht.2.2⟩
    rw [Runs.run_cons, hu]
    exact hr

/-- The task and a polling consumer alone hand out all that is on its way, unless an event is still to
be checked. -/
theorem pipeline_handed {s : Live} (hopen : s.ended = false) (hgot : ∀ evt, s.task ≠ .got evt) :
    ∃ ws t, (∀ a ∈ ws, a = .check ∨ a = .send ∨ a = .poll) ∧
      Runs.run (liveStep cap decode) s ws = some t ∧ t.delivered = s.pipeline start := by
  obtain ⟨ws, t, hws, hr, hdel, hiter, hchan, htask, htopen⟩ := polls_deliver cap decode s hopen
  cases hs : s.task with
  | got evt => exact absurd hs (hgot evt)
  | waiting =>
    exact ⟨ws, t, fun a ha => .inr (.inr (hws a ha)), hr, by simp [hdel, Live.pipeline, hs, Task.held]⟩
  | stopped =>
    exact ⟨ws, t, fun a ha => .inr (.inr (hws a ha)), hr, by simp [hdel, Live.pipeline, hs, Task.held]⟩
  | sending evt =>
    have hsend : liveStep cap decode t .send =
        some { t with channel := [evt], task := .waiting } := by
      simp [liveStep, htask, hs, htopen, hchan, CHANNEL_SIZE]
    have hpoll : liveStep cap decode { t with channel := [evt], task := .waiting } .poll =
        some { t with channel := [], task := .waiting, delivered := t.delivered ++ [evt] } := by
      simp [liveStep, htopen, hiter]
    have hends : Runs.run (liveStep cap decode) t [.send, .poll] =
        some { t with channel := [], task := .waiting, delivered := t.delivered ++ [evt] } := by
      rw [Runs.run_cons, hsend, Option.bind_some, Runs.run_cons, hpoll]
      rfl
    refine ⟨ws ++ [.send, .poll], _, ?_, Runs.run_trans hr hends, ?_⟩
    · intro a ha
      rcases List.mem_append.1 ha with ha | ha
      · exact .inr (.inr (hws a ha))
      · simp only [List.mem_cons, List.not_mem_nil, or_false] at ha
        exact .inr ha
    · simp [hdel, Live.pipeline, hs, Task.held]

/-- They deliver all that was received and is wanted, if the event in the task's hand passes its
check. -/
theorem pipeline_delivered {s : Live} (h : LiveInv decode backfill start s) (hopen : s.ended = false)
    (hC : InSeqOrder cap decode start s .check) : Delivers cap decode backfill start s := by
  by_cases hgot : ∃ evt, s.task = .got evt
  · -- the check first: it keeps the invariant and so the pipeline
    obtain ⟨evt, hs⟩ := hgot
    obtain ⟨u, hstep⟩ : ∃ u, liveStep cap decode s .check = some u := by
      simp only [liveStep, hs]
      split <;> exact ⟨_, rfl⟩
    obtain ⟨evt', -, hcase⟩ := check_step_cases hstep
    have huopen : u.ended = false := by rcases hcase with ⟨-, rfl⟩ | ⟨-, rfl⟩ <;> exact hopen
    have hugot : ∀ evt, u.task ≠ .got evt := by
      rcases hcase with ⟨-, rfl⟩ | ⟨-, rfl⟩ <;> rintro evt ⟨⟩
    have hsent : u.sent = s.sent ∧ u.next = s.next := by
      rcases hcase with ⟨-, rfl⟩ | ⟨-, rfl⟩ <;> exact ⟨rfl, rfl⟩
    have hinv := liveInv_check h hopen hC hstep
    obtain ⟨ws, t, hws, hr, hdel⟩ := pipeline_handed huopen hugot
    refine ⟨.check :: ws, t, by simpa using hws, by rw [Runs.run_cons, hstep]; exact hr, ?_⟩
    rw [hdel, hinv.inPipeline, hsent.1, hsent.2]
  · obtain ⟨ws, t, hws, hr, hdel⟩ := pipeline_handed hopen (not_exists.1 hgot)
    exact ⟨ws, t, hws, hr, hdel.trans h.inPipeline⟩

/-! ## Streams that `events` returns -/

theorem lastSeen_foldl_observeMax (evts : List SeqEvt) (o : Outbox) :
    (evts.foldl (fun o e => (o.observeMax e.seq).1) o).lastSeen = o.lastSeen := by
  induction evts generalizing o with
  | nil => rfl
  | cons e evts ih =>
    rw [List.foldl_cons, ih, Outbox.observeMax]
    simp only
    split <;> rfl

theorem events_eq_subscribe (K : Codecs) (t : RepoSeq) (o : Outbox) (cursor : Option Int) :
    (o.events K t cursor).1 =
      .subscribe (o.events K t cursor).1.iter (o.events K t cursor).1.lastSeen := rfl

theorem events_iter_le (K : Codecs) (t : RepoSeq) (o : Outbox) (cursor : Option Int) :
    ∀ e ∈ (o.events K t cursor).1.iter, e.seq ≤ (o.events K t cursor).1.lastSeen := by
  cases cursor with
  | none => simp [Outbox.events, Live.subscribe]
  | some c =>
    simp only [Outbox.events, Live.subscribe, lastSeen_foldl_observeMax]
    exact getBackfill_le_lastSeen t _ c

/-- **A stream delivers every event after its starting point exactly once, whatever is published and
however its receiver lags, exactly if no overrun takes a wanted event and wanted events arrive in
strictly ascending seq order**; and then what is on its way arrives, once the one in the task's hand
passes its check. -/
theorem deliversOnce_iff_inSeqOrder (K : Codecs) (cap : Nat) (t : RepoSeq) (o : Outbox)
    (cursor : Option Int) (as : List LiveStep) :
    let s := (o.events K t cursor).1
    (Runs.Always (liveStep cap K.fromJson) (DeliversOnce K.fromJson s.iter s.lastSeen) s as ↔
      Runs.Along (liveStep cap K.fromJson) (InSeqOrder cap K.fromJson s.lastSeen) s as) ∧
    (Runs.Along (liveStep cap K.fromJson) (InSeqOrder cap K.fromJson s.lastSeen) s as →
      ∀ u, Runs.run (liveStep cap K.fromJson) s as = some u → u.ended = false →
        InSeqOrder cap K.fromJson s.lastSeen u .check →
          Delivers cap K.fromJson s.iter s.lastSeen u) := by
  intro s
  have hinv : OpenInv K.fromJson s.iter s.lastSeen s := by
    have h := openInv_subscribe K.fromJson (events_iter_le K t o cursor)
    rwa [← events_eq_subscribe] at h
  constructor
  · exact Runs.always_iff_along (fun _ h => h.deliversOnce)
      (fun _ _ _ h hC hs => liveInv_step h hC hs)
      (fun _ _ _ h hC hs => not_deliversOnce_of_step h hC hs) hinv as
  · intro halong u hr huopen hcheck
    have hopen := (Runs.always_of_along (fun _ _ _ h hC hs => liveInv_step h hC hs) hinv as halong).last hr
    exact pipeline_delivered (hopen huopen) huopen hcheck

/-- A live stream from the beginning, on the ring of 1024 that the server has. Of two events
published in the order 6, 5 the second never comes. -/
theorem deliversOnce_fails_out_of_order :
    ¬ Runs.Always (liveStep 1024 sampleCodecs.fromJson) (DeliversOnce sampleCodecs.fromJson [] (-1))
      (Outbox.new.events sampleCodecs .empty none).1
      [.publish (sampleCodecs.toJson (sampleTyped 6)), .publish (sampleCodecs.toJson (sampleTyped 5)),
        .recv, .check, .send, .recv, .check] := by
  intro h
  have hr : Runs.run (liveStep 1024 sampleCodecs.fromJson) (Outbox.new.events sampleCodecs .empty none).1
      [.publish (sampleCodecs.toJson (sampleTyped 6)), .publish (sampleCodecs.toJson (sampleTyped 5)),
        .recv, .check, .send, .recv, .check] =
      some ⟨[sampleCodecs.toJson (sampleTyped 6), sampleCodecs.toJson (sampleTyped 5)], false, 2, 6,
        .waiting, [sampleTyped 6], [], [], false⟩ := by
    simp [Runs.run, liveStep, Broadcast.recv, fromJson_toJson_sampleTyped, Outbox.events, Outbox.new,
      Live.subscribe, CHANNEL_SIZE]
  have hlen := (h.last hr rfl).length_eq
  simp [Live.pipeline, Task.held, wantedOf, decoded, fromJson_toJson_sampleTyped] at hlen

end CacosPds.Sequencer
