import Mathlib.Data.Bool.Basic
import Mathlib.Data.Nat.Basic
import Mathlib.Order.Basic
import CacosPds.Lib.Run
/-!
# The background queue (`cacos-pds-core/src/background.rs`)

| here | there |
| --- | --- |
| `Queue`         | `QueueState`: the two atomics, the semaphore's free permits, how often `notify_waiters` has been called |
| `Add`           | a call of `BackgroundQueue::add`: the load of `destroyed`, then `fetch_add`, then `tokio::spawn` |
| `Phase`         | the future that `add` spawns, from its `fetch_add` on |
| `Drain`         | a call of `process_all`, alone or at the end of `destroy` |

Every step is one atomic step of the source, and they interleave freely. `Notify::notified` is woken
by every `notify_waiters` after its creation. A task counts as finished from its `fetch_sub` on, or
once it has panicked.

A panic unwinds past `fetch_sub` and `notify_waiters`, and a call of `add` that has seen `destroyed`
unset spawns its task however late; nothing else breaks what a queue owes (`orderly_iff`).
-/
namespace CacosPds.Core

open Runs

inductive Phase where
  /-- Behind `fetch_add`, not yet spawned. -/
  | counted
  /-- Waits for a permit. -/
  | spawned
  | running
  | returned (result : Except String Unit)
  /-- The permit is dropped. -/
  | released
  /-- Behind `fetch_sub`. -/
  | subtracted
  | done
  | panicked
  deriving DecidableEq

inductive Add where
  | called | checked | returned
  deriving DecidableEq

inductive Loop where
  /-- `destroy` before its swap. -/
  | swapping
  | looping
  /-- Behind `notified()`, with the calls of `notify_waiters` until then. -/
  | loading (seen : Nat)
  | awaiting (seen : Nat)
  | returned
  deriving DecidableEq

structure Drain where
  destroys : Bool
  /-- How many tasks had been accepted when `process_all` was called. -/
  since : Nat
  loop : Loop
  deriving DecidableEq

structure Queue where
  pending : Nat
  destroyed : Bool
  notified : Nat
  permits : Nat
  /-- In the order of their `fetch_add`. -/
  tasks : List Phase
  adds : List Add
  drains : List Drain
  deriving DecidableEq

def Queue.new (concurrency : Nat) : Queue := ⟨0, false, 0, concurrency, [], [], []⟩

/-! ## Steps -/

inductive TaskStep where
  | spawn | acquire
  | finish (result : Except String Unit)
  | panic | release | subtract | notify

inductive DrainStep where
  | swap | listen | load | resume

inductive Act where
  | add
  | check (i : Nat)
  | count (i : Nat)
  | task (k : Nat) (what : TaskStep)
  | processAll
  | destroy
  | drain (j : Nat) (what : DrainStep)

def Phase.next : Phase → TaskStep → Option Phase
  | .counted, .spawn => some .spawned
  | .spawned, .acquire => some .running
  | .running, .finish result => some (.returned result)
  | .running, .panic => some .panicked
  | .returned _, .release => some .released
  | .released, .subtract => some .subtracted
  | .subtracted, .notify => some .done
  | _, _ => none

/-- What a task's step does to the queue. Unwinding drops the permit. -/
def Queue.after (s : Queue) : TaskStep → Option Queue
  | .spawn | .finish _ => some s
  | .acquire => if 0 < s.permits then some { s with permits := s.permits - 1 } else none
  | .panic | .release => some { s with permits := s.permits + 1 }
  | .subtract => some { s with pending := s.pending - 1 }
  | .notify => some { s with notified := s.notified + 1 }

def taskStep (s : Queue) (k : Nat) (what : TaskStep) : Option Queue :=
  match s.tasks[k]? with
  | some phase =>
    match phase.next what with
    | some phase' => (s.after what).map fun t => { t with tasks := s.tasks.set k phase' }
    | none => none
  | none => none

def Drain.next (s : Queue) (d : Drain) : DrainStep → Option Drain
  | .swap =>
    if d.loop = .swapping then some { d with since := s.tasks.length, loop := .looping } else none
  | .listen => if d.loop = .looping then some { d with loop := .loading s.notified } else none
  | .load =>
    match d.loop with
    | .loading seen => some { d with loop := if s.pending = 0 then .returned else .awaiting seen }
    | _ => none
  | .resume =>
    match d.loop with
    | .awaiting seen => if s.notified ≠ seen then some { d with loop := .looping } else none
    | _ => none

def drainStep (s : Queue) (j : Nat) (what : DrainStep) : Option Queue :=
  match s.drains[j]? with
  | some d => (d.next s what).map fun d' =>
      { s with drains := s.drains.set j d'
               destroyed := s.destroyed || match what with | .swap => true | _ => false }
  | none => none

def step (s : Queue) : Act → Option Queue
  | .add => some { s with adds := s.adds ++ [.called] }
  | .check i =>
    if s.adds[i]? = some .called then
      some { s with adds := s.adds.set i (if s.destroyed then .returned else .checked) }
    else none
  | .count i =>
    if s.adds[i]? = some .checked then
      some { s with adds := s.adds.set i .returned, pending := s.pending + 1
                    tasks := s.tasks ++ [.counted] }
    else none
  | .task k what => taskStep s k what
  | .processAll => some { s with drains := s.drains ++ [⟨false, s.tasks.length, .looping⟩] }
  | .destroy => some { s with drains := s.drains ++ [⟨true, 0, .swapping⟩] }
  | .drain j what => drainStep s j what

/-! ## What the queue owes -/

def Phase.finished : Phase → Bool
  | .subtracted | .done | .panicked => true
  | .counted | .spawned | .running | .returned _ | .released => false

/-- Spawned and not finished. -/
def Phase.live : Phase → Bool
  | .spawned | .running | .returned _ | .released => true
  | .counted | .subtracted | .done | .panicked => false

/-- It waits, and has not been woken. -/
def Drain.Waits (s : Queue) (d : Drain) : Prop := d.loop = .awaiting s.notified

structure Orderly (s : Queue) : Prop where
  pending : s.pending = s.tasks.countP fun t => !t.finished
  /-- `process_all` has waited for every task accepted before its call. -/
  drained : ∀ d ∈ s.drains, d.loop = .returned → ∀ k < d.since, ∀ t, s.tasks[k]? = some t →
    t.finished = true
  /-- Who waits waits for a task, or for the last one's `notify_waiters`. -/
  notLeft : ∀ d ∈ s.drains, d.Waits s → ∃ t ∈ s.tasks, t.finished = false ∨ t = .subtracted
  /-- After `destroy` nothing runs or is started. -/
  quiet : ∀ d ∈ s.drains, d.destroys = true → d.loop = .returned → ∀ t ∈ s.tasks, t.live = false

def destroyReturned (s : Queue) : Bool :=
  s.drains.any fun d => d.destroys && decide (d.loop = .returned)

/-- No task panics, and none is spawned after a `destroy` has returned. -/
def Behaves (s : Queue) : Act → Prop
  | .task _ .panic => False
  | .task _ .spawn => destroyReturned s = false
  | _ => True

/-! ## The invariant -/

/-- It is in `pending`. -/
def Phase.counts : Phase → Bool
  | .counted | .spawned | .running | .returned _ | .released | .panicked => true
  | .subtracted | .done => false

/-- Its `notify_waiters` has not come yet. -/
def Phase.holdsUp (t : Phase) : Bool := t.counts || decide (t = .subtracted)

structure Good (s : Queue) : Prop where
  pending : s.pending = s.tasks.countP Phase.counts
  drained : ∀ d ∈ s.drains, d.loop = .returned → ∀ k < d.since, ∀ t, s.tasks[k]? = some t →
    t.counts = false
  seen : ∀ d ∈ s.drains, ∀ n, d.loop = .loading n ∨ d.loop = .awaiting n → n ≤ s.notified
  since : ∀ d ∈ s.drains, d.since ≤ s.tasks.length
  waits : ∀ d ∈ s.drains, d.Waits s →
    ∃ k : Nat, ∃ t : Phase, s.tasks[k]? = some t ∧ t.holdsUp = true

/-- The part of it that a panic or a late spawn breaks. -/
structure Calm (s : Queue) : Prop where
  noPanic : ∀ t ∈ s.tasks, t ≠ .panicked
  quiet : destroyReturned s = true → ∀ t ∈ s.tasks, t.live = false

structure Inv (s : Queue) : Prop extends Good s, Calm s

theorem good_new (concurrency : Nat) : Good (Queue.new concurrency) :=
  ⟨rfl, nofun, nofun, nofun, nofun⟩

theorem calm_new (concurrency : Nat) : Calm (Queue.new concurrency) := ⟨nofun, nofun⟩

theorem counts_eq {t : Phase} (h : t ≠ .panicked) : t.counts = !t.finished := by
  cases t <;> first | rfl | exact absurd rfl h

theorem orderly_of_inv {s : Queue} (h : Inv s) : Orderly s where
  pending := by
    rw [h.pending]
    exact List.countP_congr fun t ht => by rw [counts_eq (h.noPanic t ht)]
  drained d hd hloop k hk t ht := by
    have hcounts := h.drained d hd hloop k hk t ht
    rw [counts_eq (h.noPanic t (List.mem_of_getElem? ht))] at hcounts
    simpa using hcounts
  notLeft d hd hwaits := by
    obtain ⟨k, t, ht, hup⟩ := h.waits d hd hwaits
    have hmem := List.mem_of_getElem? ht
    refine ⟨t, hmem, ?_⟩
    rw [Phase.holdsUp, counts_eq (h.noPanic t hmem)] at hup
    simpa using hup
  quiet d hd hdestroys hloop := by
    refine h.quiet (List.any_eq_true.2 ⟨d, hd, ?_⟩)
    rw [hdestroys, hloop]
    rfl

/-! ## The tasks -/

/-- What a task's step does. -/
theorem taskStep_cases {s t : Queue} {k : Nat} {what : TaskStep} (h : taskStep s k what = some t) :
    ∃ p p' u, s.tasks[k]? = some p ∧ p.next what = some p' ∧ s.after what = some u ∧
      t = { u with tasks := s.tasks.set k p' } := by
  unfold taskStep at h
  split at h
  · rename_i p hp
    split at h
    · rename_i p' hnext
      obtain ⟨u, hu, rfl⟩ := Option.map_eq_some_iff.1 h
      exact ⟨p, p', u, hp, hnext, hu, rfl⟩
    · cases h
  · cases h

/-- Only the counters change. -/
structure SameCalls (s u : Queue) : Prop where
  drains : u.drains = s.drains
  destroyed : u.destroyed = s.destroyed
  notified : s.notified ≤ u.notified

theorem sameCalls_after {s u : Queue} {what : TaskStep} (h : s.after what = some u) :
    SameCalls s u := by
  cases what with
  | acquire =>
    obtain ⟨-, hsame⟩ := Option.ite_none_right_eq_some.1 h
    cases hsame
    exact ⟨rfl, rfl, Nat.le_refl _⟩
  | notify =>
    cases h
    exact ⟨rfl, rfl, Nat.le_succ _⟩
  | spawn | finish _ | panic | release | subtract =>
    cases h
    exact ⟨rfl, rfl, Nat.le_refl _⟩

/-- The count goes down with the task. -/
theorem pending_after {s u : Queue} {p p' : Phase} {what : TaskStep} (hnext : p.next what = some p')
    (hu : s.after what = some u) (hpos : p.counts = true → 0 < s.pending) :
    u.pending + p.counts.toNat = s.pending + p'.counts.toNat := by
  cases what with
  | acquire =>
    obtain ⟨-, hsame⟩ := Option.ite_none_right_eq_some.1 hu
    cases hsame
    cases p <;> cases hnext
    rfl
  | subtract =>
    cases hu
    cases p <;> cases hnext
    have hpending := hpos rfl
    show s.pending - 1 + 1 = s.pending + 0
    omega
  | spawn | finish _ | panic | release | notify =>
    cases hu
    cases p <;> cases hnext
    rfl

/-- A task that does not count any more does not come back. -/
theorem counts_next {p p' : Phase} {what : TaskStep} (hnext : p.next what = some p')
    (h : p.counts = false) : p'.counts = false := by
  cases p with
  | subtracted =>
    cases what <;> cases hnext
    rfl
  | done => cases what <;> cases hnext
  | counted | spawned | running | returned _ | released | panicked => cases h

/-- Without a `notify_waiters` a task that holds up goes on holding up. -/
theorem holdsUp_next {s u : Queue} {p p' : Phase} {what : TaskStep} (hnext : p.next what = some p')
    (hu : s.after what = some u) (hsame : u.notified = s.notified) : p'.holdsUp = true := by
  cases what with
  | notify =>
    cases hu
    exact absurd hsame (Nat.succ_ne_self _)
  | spawn | acquire | finish _ | panic | release | subtract =>
    cases p <;> cases hnext
    rfl

theorem good_task {s t : Queue} {k : Nat} {what : TaskStep} (h : Good s)
    (hstep : taskStep s k what = some t) : Good t := by
  obtain ⟨p, p', u, hp, hnext, hu, rfl⟩ := taskStep_cases hstep
  obtain ⟨hdrains, -, hle⟩ := sameCalls_after hu
  have hcount := countP_set_add (b := p') Phase.counts hp
  constructor
  · have hpos : p.counts = true → 0 < s.pending := by
      intro hcounts
      rw [h.pending]
      exact List.countP_pos_iff.2 ⟨p, List.mem_of_getElem? hp, hcounts⟩
    have hpending := pending_after hnext hu hpos
    rw [h.pending] at hpending
    show u.pending = (s.tasks.set k p').countP Phase.counts
    omega
  · intro d hd hloop i hi x hx
    rw [hdrains] at hd
    rcases getElem?_set_eq_some hx with ⟨rfl, rfl⟩ | ⟨-, hx⟩
    · exact counts_next hnext (h.drained d hd hloop k hi p hp)
    · exact h.drained d hd hloop i hi x hx
  · intro d hd n hn
    rw [hdrains] at hd
    exact (h.seen d hd n hn).trans hle
  · intro d hd
    rw [hdrains] at hd
    rw [List.length_set]
    exact h.since d hd
  · intro d hd hwaits
    rw [hdrains] at hd
    have hseen := h.seen d hd u.notified (.inr hwaits)
    have hsame : u.notified = s.notified := Nat.le_antisymm hseen hle
    have hwas : d.Waits s := hwaits.trans (by rw [hsame])
    obtain ⟨i, x, hx, hup⟩ := h.waits d hd hwas
    by_cases hik : k = i
    · subst hik
      have hlt : k < s.tasks.length := (List.getElem?_eq_some_iff.1 hp).1
      exact ⟨k, p', List.getElem?_set_self hlt, holdsUp_next hnext hu hsame⟩
    · exact ⟨i, x, (List.getElem?_set_ne hik).trans hx, hup⟩

/-! ## The calls -/

theorem drainStep_cases {s t : Queue} {j : Nat} {what : DrainStep}
    (h : drainStep s j what = some t) :
    ∃ d d' destroyed, s.drains[j]? = some d ∧ d.next s what = some d' ∧
      t = { s with drains := s.drains.set j d', destroyed } := by
  unfold drainStep at h
  split at h
  · rename_i d hd
    obtain ⟨d', hd', rfl⟩ := Option.map_eq_some_iff.1 h
    exact ⟨d, d', _, hd, hd', rfl⟩
  · cases h

/-- What a call's step finds. -/
structure Stepped (s : Queue) (d d' : Drain) : Prop where
  destroys : d'.destroys = d.destroys
  returned : d'.loop = .returned → s.pending = 0
  seen : ∀ n, d'.loop = .loading n ∨ d'.loop = .awaiting n → n = s.notified ∨ d.loop = .loading n
  since : d'.since = d.since ∨ d'.since = s.tasks.length
  waits : ∀ n, d'.loop = .awaiting n → s.pending ≠ 0

theorem stepped_next {s : Queue} {d d' : Drain} {what : DrainStep} (h : d.next s what = some d') :
    Stepped s d d' := by
  cases what with
  | swap =>
    simp only [Drain.next, Option.ite_none_right_eq_some, Option.some.injEq] at h
    obtain ⟨-, rfl⟩ := h
    exact ⟨rfl, nofun, fun n hn => hn.elim nofun nofun, .inr rfl, nofun⟩
  | listen =>
    simp only [Drain.next, Option.ite_none_right_eq_some, Option.some.injEq] at h
    obtain ⟨-, rfl⟩ := h
    refine ⟨rfl, nofun, fun n hn => .inl ?_, .inl rfl, nofun⟩
    rcases hn with hn | hn <;> cases hn
    rfl
  | load =>
    unfold Drain.next at h
    dsimp only at h
    split at h
    · rename_i seen hloop
      cases h
      by_cases hzero : s.pending = 0
      · rw [if_pos hzero]
        exact ⟨rfl, fun _ => hzero, fun n hn => hn.elim nofun nofun, .inl rfl, nofun⟩
      · rw [if_neg hzero]
        refine ⟨rfl, nofun, fun n hn => .inr ?_, .inl rfl, fun _ _ => hzero⟩
        rcases hn with hn | hn <;> cases hn
        exact hloop
    · cases h
  | resume =>
    unfold Drain.next at h
    dsimp only at h
    split at h
    · obtain ⟨-, hsame⟩ := Option.ite_none_right_eq_some.1 h
      cases hsame
      exact ⟨rfl, nofun, fun n hn => hn.elim nofun nofun, .inl rfl, nofun⟩
    · cases h

/-- With nothing pending no task counts. -/
theorem Good.none_counts {s : Queue} (h : Good s) (hzero : s.pending = 0) :
    ∀ t ∈ s.tasks, t.counts = false := by
  intro t ht
  have hcount := h.pending
  rw [hzero, eq_comm, List.countP_eq_zero] at hcount
  simpa using hcount t ht

theorem good_drain {s t : Queue} {j : Nat} {what : DrainStep} (h : Good s)
    (hstep : drainStep s j what = some t) : Good t := by
  obtain ⟨d, d', destroyed, hd, hnext, rfl⟩ := drainStep_cases hstep
  obtain ⟨-, hreturned, hseen, hsince, hwaits⟩ := stepped_next hnext
  have hmem : d ∈ s.drains := List.mem_of_getElem? hd
  constructor
  · exact h.pending
  · refine forall_mem_set (fun hloop k _ x hx => ?_) h.drained
    exact h.none_counts (hreturned hloop) x (List.mem_of_getElem? hx)
  · refine forall_mem_set (fun n hn => ?_) h.seen
    rcases hseen n hn with rfl | hold
    · exact Nat.le_refl _
    · exact h.seen d hmem n (.inl hold)
  · refine forall_mem_set ?_ h.since
    rcases hsince with hsame | hnow
    · exact hsame ▸ h.since d hmem
    · exact hnow.le
  · refine forall_mem_set (fun hwait => ?_) h.waits
    obtain ⟨x, hx, hcounts⟩ := List.countP_pos_iff.1
      (h.pending ▸ Nat.pos_of_ne_zero (hwaits _ hwait))
    obtain ⟨k, hk⟩ := List.mem_iff_getElem?.1 hx
    exact ⟨k, x, hk, by rw [Phase.holdsUp, hcounts]; rfl⟩

/-- A call that begins. -/
theorem Good.begin {s : Queue} (h : Good s) {d : Drain} (hsince : d.since ≤ s.tasks.length)
    (hloop : d.loop = .swapping ∨ d.loop = .looping) :
    Good { s with drains := s.drains ++ [d] } := by
  have hnot : d.loop ≠ .returned ∧ ∀ n, d.loop ≠ .loading n ∧ d.loop ≠ .awaiting n := by
    rcases hloop with hloop | hloop <;> rw [hloop] <;> exact ⟨nofun, fun _ => ⟨nofun, nofun⟩⟩
  have hall : ∀ {P : Drain → Prop}, (∀ x ∈ s.drains, P x) → P d → ∀ x ∈ s.drains ++ [d], P x := by
    intro P hold hnew x hx
    rcases List.mem_append.1 hx with hx | hx
    · exact hold x hx
    · exact List.mem_singleton.1 hx ▸ hnew
  constructor
  · exact h.pending
  · exact hall h.drained fun hreturned => absurd hreturned hnot.1
  · exact hall h.seen fun n hn => (hn.elim (hnot.2 n).1 (hnot.2 n).2).elim
  · exact hall h.since hsince
  · exact hall h.waits fun hwaits => absurd hwaits (hnot.2 _).2

/-- A task that is accepted: no `process_all` has been called after it. -/
theorem Good.accept {s : Queue} (h : Good s) (adds : List Add) :
    Good { s with adds, pending := s.pending + 1, tasks := s.tasks ++ [.counted] } := by
  constructor
  · show s.pending + 1 = (s.tasks ++ [Phase.counted]).countP Phase.counts
    rw [List.countP_append, h.pending]
    rfl
  · intro d hd hloop k hk x hx
    have hlt : k < s.tasks.length := lt_of_lt_of_le hk (h.since d hd)
    exact h.drained d hd hloop k hk x ((List.getElem?_append_left hlt).symm.trans hx)
  · exact h.seen
  · intro d hd
    rw [List.length_append]
    exact (h.since d hd).trans (Nat.le_add_right _ _)
  · intro d hd hwaits
    obtain ⟨k, x, hx, hup⟩ := h.waits d hd hwaits
    have hlt : k < s.tasks.length := (List.getElem?_eq_some_iff.1 hx).1
    exact ⟨k, x, (List.getElem?_append_left hlt).trans hx, hup⟩

theorem good_step {s t : Queue} {a : Act} (h : Good s) (hstep : step s a = some t) : Good t := by
  cases a with
  | add =>
    cases hstep
    exact ⟨h.pending, h.drained, h.seen, h.since, h.waits⟩
  | check i =>
    obtain ⟨-, hsame⟩ := Option.ite_none_right_eq_some.1 hstep
    cases hsame
    exact ⟨h.pending, h.drained, h.seen, h.since, h.waits⟩
  | count i =>
    obtain ⟨-, hsame⟩ := Option.ite_none_right_eq_some.1 hstep
    cases hsame
    exact h.accept _
  | task k what => exact good_task h hstep
  | processAll =>
    cases hstep
    exact h.begin (Nat.le_refl _) (.inr rfl)
  | destroy =>
    cases hstep
    exact h.begin (Nat.zero_le _) (.inl rfl)
  | drain j what => exact good_drain h hstep

/-! ## Panics and late spawns -/

/-- A task comes to life in one way. -/
theorem live_next {p p' : Phase} {what : TaskStep} (hnext : p.next what = some p')
    (h : p'.live = true) : p.live = true ∨ what = .spawn := by
  cases p <;> cases what <;> cases hnext <;> first | exact .inl rfl | exact .inr rfl | cases h

theorem not_panicked_next {p p' : Phase} {what : TaskStep} (hnext : p.next what = some p')
    (h : p' = .panicked) : what = .panic := by
  subst h
  cases p <;> cases what <;> cases hnext
  rfl

theorem calm_task {s t : Queue} {k : Nat} {what : TaskStep} (h : Calm s)
    (hC : Behaves s (.task k what)) (hstep : taskStep s k what = some t) : Calm t := by
  obtain ⟨p, p', u, hp, hnext, hu, rfl⟩ := taskStep_cases hstep
  have hmem := List.mem_of_getElem? hp
  constructor
  · refine forall_mem_set (fun hpanic => ?_) h.noPanic
    obtain rfl := not_panicked_next hnext hpanic
    exact hC
  · intro hdestroyed
    have hwas : destroyReturned s = true := by
      rw [destroyReturned, ← (sameCalls_after hu).drains]
      exact hdestroyed
    refine forall_mem_set (Bool.eq_false_of_not_eq_true fun hlive => ?_) (h.quiet hwas)
    rcases live_next hnext hlive with hold | rfl
    · rw [h.quiet hwas p hmem] at hold
      cases hold
    · exact Bool.false_ne_true (hC.symm.trans hwas)

theorem calm_step {s t : Queue} {a : Act} (hgood : Good s) (h : Calm s) (hC : Behaves s a)
    (hstep : step s a = some t) : Calm t := by
  cases a with
  | add =>
    cases hstep
    exact ⟨h.noPanic, h.quiet⟩
  | check i =>
    obtain ⟨-, hsame⟩ := Option.ite_none_right_eq_some.1 hstep
    cases hsame
    exact ⟨h.noPanic, h.quiet⟩
  | count i =>
    obtain ⟨-, hsame⟩ := Option.ite_none_right_eq_some.1 hstep
    cases hsame
    constructor
    · intro x hx
      rcases List.mem_append.1 hx with hx | hx
      · exact h.noPanic x hx
      · rw [List.mem_singleton.1 hx]
        exact nofun
    · intro hdestroyed x hx
      rcases List.mem_append.1 hx with hx | hx
      · exact h.quiet hdestroyed x hx
      · rw [List.mem_singleton.1 hx]
        rfl
  | task k what => exact calm_task h hC hstep
  | processAll =>
    cases hstep
    refine ⟨h.noPanic, fun hdestroyed => h.quiet ?_⟩
    simpa [destroyReturned] using hdestroyed
  | destroy =>
    cases hstep
    refine ⟨h.noPanic, fun hdestroyed => h.quiet ?_⟩
    simpa [destroyReturned] using hdestroyed
  | drain j what =>
    obtain ⟨d, d', destroyed, hd, hnext, rfl⟩ := drainStep_cases hstep
    refine ⟨h.noPanic, fun hdestroyed x hx => ?_⟩
    by_cases hreturned : d'.loop = .returned
    · -- a return finds nothing pending
      have hcounts := hgood.none_counts ((stepped_next hnext).returned hreturned) x hx
      cases x <;> first | rfl | cases hcounts
    · refine h.quiet ?_ x hx
      obtain ⟨y, hy, hdone⟩ := List.any_eq_true.1 hdestroyed
      rcases List.mem_or_eq_of_mem_set hy with hy | rfl
      · exact List.any_eq_true.2 ⟨y, hy, hdone⟩
      · rw [decide_eq_false hreturned, Bool.and_false] at hdone
        cases hdone

/-- A panic leaves the task in the count; a late spawn leaves it alive. -/
theorem breaks_step {s t : Queue} {a : Act} (h : Inv s) (hC : ¬ Behaves s a)
    (hstep : step s a = some t) : ¬ Orderly t := by
  intro horderly
  cases a with
  | task k what =>
    obtain ⟨p, p', u, hp, hnext, hu, rfl⟩ := taskStep_cases hstep
    cases what with
    | panic =>
      cases hu
      cases p <;> cases hnext
      have hcount := countP_set_add (b := Phase.panicked) (fun t : Phase => !t.finished) hp
      have hbefore := (orderly_of_inv h).pending
      have hafter : s.pending = (s.tasks.set k .panicked).countP fun t => !t.finished :=
        horderly.pending
      rw [← hbefore, ← hafter] at hcount
      exact absurd hcount (Nat.succ_ne_self _)
    | spawn =>
      cases hu
      cases p <;> cases hnext
      have hreturned : destroyReturned s = true := by
        by_contra hnot
        exact hC (Bool.eq_false_of_not_eq_true hnot)
      obtain ⟨d, hd, hdone⟩ := List.any_eq_true.1 hreturned
      rw [Bool.and_eq_true, decide_eq_true_eq] at hdone
      have hlt : k < s.tasks.length := (List.getElem?_eq_some_iff.1 hp).1
      have hquiet := horderly.quiet d hd hdone.1 hdone.2 .spawned
        (List.mem_of_getElem? (List.getElem?_set_self hlt))
      cases hquiet
    | acquire | finish _ | release | subtract | notify => exact hC trivial
  | add | check i | count i | processAll | destroy | drain j what => exact hC trivial

/-- **A queue is orderly all along a run if and only if no task panics in it and none is spawned
after a `destroy` has returned.** -/
theorem orderly_iff (concurrency : Nat) (as : List Act) :
    Always step Orderly (Queue.new concurrency) as ↔
      Along step Behaves (Queue.new concurrency) as := by
  have hinv : Inv (Queue.new concurrency) := ⟨good_new concurrency, calm_new concurrency⟩
  refine always_iff_along (fun _ => orderly_of_inv) (fun s a t h hC hstep => ?_)
    (fun _ _ _ => breaks_step) hinv as
  exact ⟨good_step h.toGood hstep, calm_step h.toGood h.toCalm hC hstep⟩

/-- Whatever panics and whenever tasks are spawned: `process_all` has waited for those before it. -/
theorem drained_always (concurrency : Nat) (as : List Act) :
    Always step (fun s => ∀ d ∈ s.drains, d.loop = .returned → ∀ k < d.since, ∀ t,
      s.tasks[k]? = some t → t.counts = false) (Queue.new concurrency) as :=
  (always_of_keep (fun _ _ _ => good_step) (good_new concurrency) as).mono fun _ h => h.drained

/-! ## Two runs -/

/-- One task, which panics. -/
def panicking : List Act :=
  [.add, .check 0, .count 0, .task 0 .spawn, .task 0 .acquire, .task 0 .panic]

/-- `destroy` comes between the two halves of `add`. -/
def lateSpawn : List Act :=
  [.add, .check 0, .destroy, .drain 0 .swap, .drain 0 .listen, .drain 0 .load, .count 0,
    .task 0 .spawn]

theorem not_always_orderly : ¬ Always step Orderly (Queue.new 5) panicking ∧
    ¬ Always step Orderly (Queue.new 5) lateSpawn := by
  constructor
  · intro h
    have hpending := (h.last rfl).pending
    exact absurd hpending (by decide)
  · intro h
    have hquiet := (h.last rfl).quiet ⟨true, 0, .returned⟩ (by decide) rfl rfl .spawned (by decide)
    cases hquiet

end CacosPds.Core
