import Mathlib.Data.Nat.Basic
import Mathlib.Order.Basic
import CacosPds.Lib.Run
/-!
# Telling the relays (`cacos-pds-sequencer/src/crawlers.rs`, `shared_sequencer.rs`)

| here | there |
| --- | --- |
| `Crawlers`      | the struct; every `Sequencer` holds one |
| `notifyOfUpdate` | `Crawlers::notify_of_update`: the requests it makes, or `none` within the window |
| `Site.shared`   | the `Sequencer` in the `RwLock` of `SharedSequencer` |
| `Handler`       | the handlers that sequence events, each with a clone of it (`….read()….clone()`) |
| `sequenceEvt`   | `Sequencer::sequence_evt` up to the notification |

`last_notified` belongs to the clone and goes with it: nothing is written through the lock, so the
next handler starts from `0` again. Two batches are 20 minutes apart exactly as long as only the
handler that sent the last one sequences events (`onePerWindow_iff`). Every relay answers.
-/
namespace CacosPds.Sequencer.Relays

open Runs

/-- 20 minutes in milliseconds. -/
def NOTIFY_THRESHOLD : Nat := 20 * 60 * 1000

structure Crawlers where
  hostname : String
  crawlers : List String
  lastNotified : Nat
  deriving DecidableEq

structure CrawlerRequest where
  hostname : String
  deriving DecidableEq

def Crawlers.new (hostname : String) (crawlers : List String) : Crawlers := ⟨hostname, crawlers, 0⟩

def Crawlers.crawlRequest (c : Crawlers) : CrawlerRequest := ⟨c.hostname⟩

/-- The URLs and bodies, one after the other. -/
def notifyOfUpdate (now : Nat) (c : Crawlers) : Option (List (String × CrawlerRequest)) :=
  if now - c.lastNotified < NOTIFY_THRESHOLD then none
  else some (c.crawlers.map fun service =>
    (service ++ "/xrpc/com.atproto.sync.requestCrawl", c.crawlRequest))

/-! ## The handlers -/

inductive Evt where
  | commit | identity | account | sync
  deriving DecidableEq

inductive Handler where
  | createRecord | applyWrites | putRecord | deleteRecord
  | createAccount | remoteCreateAccount | activateAccount | deleteAccount
  deriving DecidableEq

def Handler.events : Handler → List Evt
  | .createRecord | .applyWrites | .putRecord | .deleteRecord => [.commit]
  | .createAccount | .remoteCreateAccount => [.identity, .account, .commit, .sync]
  | .activateAccount => [.account, .identity, .sync]
  | .deleteAccount => [.account]

/-- The new account's events are best effort. -/
def Handler.goesOn : Handler → Bool
  | .createAccount | .remoteCreateAccount => true
  | _ => false

structure Request where
  handler : Handler
  /-- The clone's. -/
  crawlers : Crawlers
  left : List Evt
  /-- It waits for the relays; the time it has read. -/
  sending : Option Nat
  deriving DecidableEq

/-- What one call of `notify_of_update` has sent. -/
structure Batch where
  request : Nat
  time : Nat
  posts : List (String × CrawlerRequest)
  deriving DecidableEq

structure Site where
  clock : Nat
  shared : Crawlers
  requests : List Request
  sent : List Batch
  deriving DecidableEq

inductive Act where
  | wait (time : Nat)
  | handle (handler : Handler)
  | sequence (request : Nat) (inserted : Bool)
  | answered (request : Nat)

/-- The next event of the `i`-th request, with the batch that goes out. -/
def sequenceEvt (now i : Nat) (r : Request) (rest : List Evt) (inserted : Bool) :
    Request × List Batch :=
  if inserted then
    match notifyOfUpdate now r.crawlers with
    | none => ({ r with left := rest }, [])
    | some [] => ({ r with left := rest, sending := some now }, [])
    | some posts => ({ r with left := rest, sending := some now }, [⟨i, now, posts⟩])
  else ({ r with left := if r.handler.goesOn then rest else [] }, [])

def sequence (s : Site) (i : Nat) (inserted : Bool) : Option Site :=
  match s.requests[i]? with
  | some r =>
    match r.sending, r.left with
    | none, _ :: rest =>
      let next := sequenceEvt s.clock i r rest inserted
      some { s with requests := s.requests.set i next.1, sent := s.sent ++ next.2 }
    | _, _ => none
  | none => none

/-- The relays have answered: the clone's time is set. -/
def answered (s : Site) (i : Nat) : Option Site :=
  match s.requests[i]? with
  | some r => r.sending.map fun now =>
      let crawlers := { r.crawlers with lastNotified := now }
      { s with requests := s.requests.set i { r with crawlers, sending := none } }
  | none => none

def step (s : Site) : Act → Option Site
  | .wait time => if s.clock ≤ time then some { s with clock := time } else none
  | .handle handler =>
    some { s with requests := s.requests ++ [⟨handler, s.shared, handler.events, none⟩] }
  | .sequence i inserted => sequence s i inserted
  | .answered i => answered s i

def start (clock : Nat) (hostname : String) (crawlers : List String) : Site :=
  ⟨clock, .new hostname crawlers, [], []⟩

/-! ## The limit -/

def inWindow (w : Nat) (b : Batch) : Bool := decide (w ≤ b.time ∧ b.time < w + NOTIFY_THRESHOLD)

/-- At most one batch in any 20 minutes. -/
def OnePerWindow (s : Site) : Prop := ∀ w, (s.sent.filter (inWindow w)).length ≤ 1

/-- In the 20 minutes after a batch only the request that sent it sequences events. -/
def KeptByOne (s : Site) : Act → Prop
  | .sequence i true => ∀ b ∈ s.sent, s.clock < b.time + NOTIFY_THRESHOLD → b.request = i
  | .sequence _ false | .wait _ | .handle _ | .answered _ => True

def Spaced (sent : List Batch) : Prop :=
  sent.Pairwise fun a b => a.time + NOTIFY_THRESHOLD ≤ b.time

theorem onePerWindow_of_spaced {s : Site} (h : Spaced s.sent) : OnePerWindow s := by
  intro w
  have hfilter : Spaced (s.sent.filter (inWindow w)) := List.Pairwise.filter _ h
  match hsent : s.sent.filter (inWindow w) with
  | [] => exact Nat.zero_le 1
  | [_] => exact le_rfl
  | a :: b :: rest =>
    have ha : inWindow w a = true := (List.mem_filter.1 (hsent ▸ List.mem_cons_self)).2
    have hb : inWindow w b = true :=
      (List.mem_filter.1 (hsent ▸ List.mem_cons_of_mem _ List.mem_cons_self)).2
    rw [hsent] at hfilter
    have hab := (List.pairwise_cons.1 hfilter).1 b List.mem_cons_self
    simp only [inWindow, decide_eq_true_eq] at ha hb
    omega

theorem Spaced.apart {sent : List Batch} (h : Spaced sent) {a b : Batch} (ha : a ∈ sent)
    (hb : b ∈ sent) (hne : a ≠ b) :
    a.time + NOTIFY_THRESHOLD ≤ b.time ∨ b.time + NOTIFY_THRESHOLD ≤ a.time := by
  induction sent with
  | nil => cases ha
  | cons c sent ih =>
    obtain ⟨hfirst, hrest⟩ := List.pairwise_cons.1 h
    rcases List.mem_cons.1 ha with rfl | ha'
    · rcases List.mem_cons.1 hb with rfl | hb'
      · exact absurd rfl hne
      · exact .inl (hfirst b hb')
    · rcases List.mem_cons.1 hb with rfl | hb'
      · exact .inr (hfirst a ha')
      · exact ih hrest ha' hb'

/-- Two batches less than 20 minutes apart. -/
theorem not_onePerWindow {s : Site} {before : List Batch} {a b : Batch}
    (hsent : s.sent = before ++ [b]) (ha : a ∈ before) (hle : a.time ≤ b.time)
    (hnear : b.time < a.time + NOTIFY_THRESHOLD) : ¬ OnePerWindow s := by
  intro h
  have hone := h a.time
  have hpos : 0 < NOTIFY_THRESHOLD := by decide
  have hfirst : a ∈ before.filter (inWindow a.time) :=
    List.mem_filter.2 ⟨ha, decide_eq_true ⟨le_rfl, by omega⟩⟩
  have hlast : [b].filter (inWindow a.time) = [b] :=
    List.filter_cons_of_pos (decide_eq_true ⟨hle, hnear⟩)
  rw [hsent, List.filter_append, hlast, List.length_append, List.length_singleton] at hone
  have hnil := List.length_pos_of_mem hfirst
  omega

/-! ## What a clone knows -/

/-- The time the request read last. -/
def Request.last (r : Request) : Nat := r.sending.getD r.crawlers.lastNotified

/-- The request knows its own batches, and no others. -/
structure Request.Own (shared : Crawlers) (sent : List Batch) (i : Nat) (r : Request) : Prop where
  crawlers : r.crawlers.crawlers = shared.crawlers
  last : shared.crawlers ≠ [] → r.last = 0 ∨ ∃ b ∈ sent, b.request = i ∧ b.time = r.last
  knows : ∀ b ∈ sent, b.request = i → b.time ≤ r.last

structure Inv (s : Site) : Prop where
  spaced : Spaced s.sent
  times : ∀ b ∈ s.sent, NOTIFY_THRESHOLD ≤ b.time ∧ b.time ≤ s.clock
  senders : ∀ b ∈ s.sent, b.request < s.requests.length
  relays : s.sent ≠ [] → s.shared.crawlers ≠ []
  shared : s.shared.lastNotified = 0
  own : ∀ i, ∀ r : Request, s.requests[i]? = some r → r.Own s.shared s.sent i

theorem inv_start (clock : Nat) (hostname : String) (crawlers : List String) :
    Inv (start clock hostname crawlers) where
  spaced := List.Pairwise.nil
  times := nofun
  senders := nofun
  relays h := absurd rfl h
  shared := rfl
  own _ _ h := by cases h

theorem notifyOfUpdate_eq_none {now : Nat} {c : Crawlers} :
    notifyOfUpdate now c = none ↔ now - c.lastNotified < NOTIFY_THRESHOLD := by
  unfold notifyOfUpdate
  split <;> simp_all

theorem notifyOfUpdate_eq_some {now : Nat} {c : Crawlers} {posts : List (String × CrawlerRequest)}
    (h : notifyOfUpdate now c = some posts) :
    NOTIFY_THRESHOLD ≤ now - c.lastNotified ∧ (posts = [] ↔ c.crawlers = []) := by
  unfold notifyOfUpdate at h
  split at h
  · cases h
  · rename_i hnot
    cases h
    exact ⟨not_lt.1 hnot, List.map_eq_nil_iff⟩

/-- What sequencing an event does. -/
theorem sequenceEvt_cases (now i : Nat) (r : Request) (rest : List Evt) (inserted : Bool) :
    (∃ left, sequenceEvt now i r rest inserted = ({ r with left := left }, []) ∧
      (inserted = true → now - r.crawlers.lastNotified < NOTIFY_THRESHOLD)) ∨
    (inserted = true ∧ NOTIFY_THRESHOLD ≤ now - r.crawlers.lastNotified ∧
      ∃ sent, sequenceEvt now i r rest inserted =
        ({ r with left := rest, sending := some now }, sent) ∧
        (r.crawlers.crawlers = [] ∧ sent = [] ∨
          r.crawlers.crawlers ≠ [] ∧ ∃ posts, sent = [⟨i, now, posts⟩])) := by
  cases inserted with
  | false => exact .inl ⟨_, rfl, nofun⟩
  | true =>
    unfold sequenceEvt
    rw [if_pos rfl]
    match hnotify : notifyOfUpdate now r.crawlers with
    | none => exact .inl ⟨rest, rfl, fun _ => notifyOfUpdate_eq_none.1 hnotify⟩
    | some [] =>
      obtain ⟨hlong, hnil⟩ := notifyOfUpdate_eq_some hnotify
      exact .inr ⟨rfl, hlong, [], rfl, .inl ⟨hnil.1 rfl, rfl⟩⟩
    | some (post :: posts) =>
      obtain ⟨hlong, hnil⟩ := notifyOfUpdate_eq_some hnotify
      exact .inr ⟨rfl, hlong, _, rfl, .inr ⟨fun h => List.cons_ne_nil _ _ (hnil.2 h), _, rfl⟩⟩

/-- Which step a sequencing is. -/
theorem sequence_cases {s t : Site} {i : Nat} {inserted : Bool}
    (h : sequence s i inserted = some t) :
    ∃ r rest, s.requests[i]? = some r ∧ r.sending = none ∧
      t = { s with requests := s.requests.set i (sequenceEvt s.clock i r rest inserted).1
                   sent := s.sent ++ (sequenceEvt s.clock i r rest inserted).2 } := by
  unfold sequence at h
  split at h
  · rename_i r hr
    split at h
    · rename_i first rest hidle hleft
      exact ⟨r, rest, hr, hidle, (Option.some.inj h).symm⟩
    · cases h
  · cases h

/-- A request that changes what it has left only. -/
theorem Inv.set_left {s : Site} {i : Nat} {r : Request} (h : Inv s) (hr : s.requests[i]? = some r)
    (left : List Evt) :
    Inv { s with requests := s.requests.set i { r with left := left }, sent := s.sent ++ [] } where
  spaced := by
    rw [List.append_nil]
    exact h.spaced
  times := by
    rw [List.append_nil]
    exact h.times
  senders b hb := by
    rw [List.append_nil] at hb
    rw [List.length_set]
    exact h.senders b hb
  relays hne := h.relays (by rwa [List.append_nil] at hne)
  shared := h.shared
  own j x hx := by
    rw [List.append_nil]
    rcases getElem?_set_eq_some hx with ⟨rfl, rfl⟩ | ⟨-, hx⟩
    · exact ⟨(h.own i r hr).crawlers, (h.own i r hr).last, (h.own i r hr).knows⟩
    · exact h.own j x hx

/-- A request whose clone lets it send: all batches of the last 20 minutes are its own, so there are
none. -/
theorem Inv.send {s : Site} {i : Nat} {r : Request} (h : Inv s) (hr : s.requests[i]? = some r)
    (hidle : r.sending = none) (hlong : NOTIFY_THRESHOLD ≤ s.clock - r.crawlers.lastNotified)
    (hkept : ∀ b ∈ s.sent, s.clock < b.time + NOTIFY_THRESHOLD → b.request = i) (rest : List Evt)
    {sent : List Batch} (hsent : r.crawlers.crawlers = [] ∧ sent = [] ∨
      r.crawlers.crawlers ≠ [] ∧ ∃ posts, sent = [⟨i, s.clock, posts⟩]) :
    Inv { s with requests := s.requests.set i { r with left := rest, sending := some s.clock }
                 sent := s.sent ++ sent } := by
  have hown := h.own i r hr
  have hlast : r.last = r.crawlers.lastNotified := by rw [Request.last, hidle]; rfl
  have hi : i < s.requests.length := (List.getElem?_eq_some_iff.1 hr).1
  have hnew : ∀ b ∈ sent, b.request = i ∧ b.time = s.clock ∧ s.shared.crawlers ≠ [] := by
    intro b hb
    rcases hsent with ⟨-, rfl⟩ | ⟨hne, posts, rfl⟩
    · cases hb
    · obtain rfl := List.mem_singleton.1 hb
      exact ⟨rfl, rfl, hown.crawlers ▸ hne⟩
  have hold : ∀ b ∈ s.sent, b.time + NOTIFY_THRESHOLD ≤ s.clock := by
    intro b hb
    by_contra hnear
    have hpos : 0 < NOTIFY_THRESHOLD := by decide
    have hle := hown.knows b hb (hkept b hb (not_le.1 hnear))
    rw [hlast] at hle
    omega
  constructor
  · refine List.pairwise_append.2 ⟨h.spaced, ?_, fun a ha b hb => ?_⟩
    · rcases hsent with ⟨-, rfl⟩ | ⟨-, posts, rfl⟩
      · exact List.Pairwise.nil
      · exact List.pairwise_singleton _ _
    · rw [(hnew b hb).2.1]
      exact hold a ha
  · intro b hb
    rcases List.mem_append.1 hb with hb | hb
    · exact h.times b hb
    · rw [(hnew b hb).2.1]
      exact ⟨hlong.trans (Nat.sub_le _ _), le_rfl⟩
  · intro b hb
    rw [List.length_set]
    rcases List.mem_append.1 hb with hb | hb
    · exact h.senders b hb
    · rw [(hnew b hb).1]
      exact hi
  · intro hne
    obtain ⟨b, hb⟩ := List.exists_mem_of_ne_nil _ hne
    rcases List.mem_append.1 hb with hb | hb
    · exact h.relays (List.ne_nil_of_mem hb)
    · exact (hnew b hb).2.2
  · exact h.shared
  · intro j x hx
    rcases getElem?_set_eq_some hx with ⟨rfl, rfl⟩ | ⟨hne, hx⟩
    · refine ⟨hown.crawlers, fun hrelays => .inr ?_, fun b hb _ => ?_⟩
      · rcases hsent with ⟨hnone, -⟩ | ⟨-, posts, rfl⟩
        · exact absurd (hown.crawlers ▸ hnone) hrelays
        · exact ⟨_, List.mem_append_right _ List.mem_cons_self, rfl, rfl⟩
      · rcases List.mem_append.1 hb with hb | hb
        · exact (h.times b hb).2
        · exact (hnew b hb).2.1.le
    · obtain ⟨hcrawlers, hlast, hknows⟩ := h.own j x hx
      refine ⟨hcrawlers, fun hrelays => ?_, fun b hb hbj => ?_⟩
      · rcases hlast hrelays with hzero | ⟨b, hb, hown⟩
        · exact .inl hzero
        · exact .inr ⟨b, List.mem_append_left _ hb, hown⟩
      · rcases List.mem_append.1 hb with hb | hb
        · exact hknows b hb hbj
        · exact absurd ((hnew b hb).1.symm.trans hbj) hne

theorem inv_step {s t : Site} {a : Act} (h : Inv s) (hC : KeptByOne s a)
    (hstep : step s a = some t) : Inv t := by
  cases a with
  | wait time =>
    obtain ⟨hle, hsame⟩ := Option.ite_none_right_eq_some.1 hstep
    cases hsame
    exact { h with times := fun b hb => ⟨(h.times b hb).1, (h.times b hb).2.trans hle⟩ }
  | handle handler =>
    cases hstep
    refine { h with senders := fun b hb => ?_, own := fun i r hr => ?_ }
    · rw [List.length_append]
      exact Nat.lt_add_right _ (h.senders b hb)
    · by_cases hi : i < s.requests.length
      · rw [List.getElem?_append_left hi] at hr
        exact h.own i r hr
      · rcases getElem?_concat_eq_some hr with rfl | hr
        · refine ⟨rfl, fun _ => .inl h.shared, fun b hb hbi => ?_⟩
          exact absurd (hbi ▸ h.senders b hb) hi
        · exact h.own i r hr
  | sequence i inserted =>
    obtain ⟨r, rest, hr, hidle, rfl⟩ := sequence_cases hstep
    rcases sequenceEvt_cases s.clock i r rest inserted with
      ⟨left, heq, -⟩ | ⟨rfl, hlong, sent, heq, hsent⟩
    · rw [heq]
      exact h.set_left hr left
    · rw [heq]
      exact h.send hr hidle hlong hC rest hsent
  | answered i =>
    change answered s i = some t at hstep
    unfold answered at hstep
    split at hstep
    · rename_i r hr
      obtain ⟨now, hnow, rfl⟩ := Option.map_eq_some_iff.1 hstep
      have hown := h.own i r hr
      have hlast : r.last = now := by rw [Request.last, hnow]; rfl
      refine { h with senders := fun b hb => ?_, own := fun j x hx => ?_ }
      · rw [List.length_set]
        exact h.senders b hb
      · rcases getElem?_set_eq_some hx with ⟨rfl, rfl⟩ | ⟨-, hx⟩
        · exact ⟨hown.crawlers, hlast ▸ hown.last, hlast ▸ hown.knows⟩
        · exact h.own j x hx
    · cases hstep

/-- Another request's clone does not know of the last batch. -/
theorem breaks_step {s t : Site} {a : Act} (h : Inv s) (hC : ¬ KeptByOne s a)
    (hstep : step s a = some t) : ¬ OnePerWindow t := by
  cases a with
  | sequence i inserted =>
    cases inserted with
    | false => exact absurd trivial hC
    | true =>
      simp only [KeptByOne, not_forall] at hC
      obtain ⟨b, hb, hnear, hother⟩ := hC
      obtain ⟨r, rest, hr, hidle, rfl⟩ := sequence_cases hstep
      have hown := h.own i r hr
      have hrelays := h.relays (List.ne_nil_of_mem hb)
      have hlast : r.last = r.crawlers.lastNotified := by rw [Request.last, hidle]; rfl
      have htimes := h.times b hb
      -- its own last batch is not within the 20 minutes
      have hfar : NOTIFY_THRESHOLD ≤ s.clock - r.crawlers.lastNotified := by
        rcases hown.last hrelays with hzero | ⟨b', hb', hi, htime⟩
        · omega
        · have hne : b' ≠ b := by
            rintro rfl
            exact hother hi
          have htimes' := h.times b' hb'
          rcases h.spaced.apart hb' hb hne with hbefore | hafter
          · omega
          · omega
      rcases sequenceEvt_cases s.clock i r rest true with ⟨_, -, hshort⟩ | ⟨-, -, sent, heq, hsent⟩
      · exact absurd (hshort rfl) (not_lt.2 hfar)
      · rcases hsent with ⟨hnone, -⟩ | ⟨-, posts, rfl⟩
        · exact absurd (hown.crawlers ▸ hnone) hrelays
        · rw [heq]
          exact not_onePerWindow rfl hb htimes.2 hnear
  | wait time => exact absurd trivial hC
  | handle handler => exact absurd trivial hC
  | answered i => exact absurd trivial hC

/-- **At most one batch goes out in any 20 minutes if and only if, in the 20 minutes after each,
only the request that sent it sequences events.** -/
theorem onePerWindow_iff (clock : Nat) (hostname : String) (crawlers : List String)
    (as : List Act) :
    Always step OnePerWindow (start clock hostname crawlers) as ↔
      Along step KeptByOne (start clock hostname crawlers) as :=
  always_iff_along (fun _ h => onePerWindow_of_spaced h.spaced) (fun _ _ _ => inv_step)
    (fun _ _ _ => breaks_step) (inv_start clock hostname crawlers) as

/-- Two records, a second apart. -/
def twoRecords : List Act :=
  [.handle .createRecord, .sequence 0 true, .answered 0, .wait 1700000001000, .handle .createRecord,
    .sequence 1 true]

theorem each_record_notifies : ¬ ∀ clock hostname crawlers as,
    Always step OnePerWindow (start clock hostname crawlers) as := by
  intro h
  have hlast := (h 1700000000000 "pds.example.com" ["https://relay1.example"] twoRecords).last rfl
  exact absurd (hlast 1700000000000) (by decide +kernel)

end CacosPds.Sequencer.Relays
