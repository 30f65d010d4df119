import Mathlib.Data.List.Basic
/-!
# A bounded broadcast channel

A sender appends to a shared log of which only the newest `cap` messages are kept; a receiver has
a position `next` in that log, counted from its subscription. A receiver that is more than `cap`
messages behind is told how many it missed and continues with the oldest message kept. The whole
log is in the model; that only its tail is kept shows in `recv`.
-/
namespace Broadcast

variable {μ : Type*}

/-- What one `recv` returns. -/
inductive Recv (μ : Type*) where
  /-- Nothing to read yet. -/
  | pending
  /-- The receiver fell behind: `missed` messages were overwritten before it read them. -/
  | lagged (missed : Nat)
  /-- The next message. -/
  | ok (msg : μ)
  deriving DecidableEq, Repr

/-- One `recv` of a receiver at position `next`: the answer and the new position. -/
def recv (cap : Nat) (sent : List μ) (next : Nat) : Recv μ × Nat :=
  if cap < sent.length - next then (.lagged (sent.length - cap - next), sent.length - cap)
  else match sent[next]? with
    | some m => (.ok m, next + 1)
    | none => (.pending, next)

/-- The messages a `recv` passes over: none while it waits, the overwritten ones when it lags,
the one it returns otherwise. -/
def passed (cap : Nat) (sent : List μ) (next : Nat) : List μ :=
  (sent.take (recv cap sent next).2).drop next

theorem recv_cases (cap : Nat) (sent : List μ) (next : Nat) :
    (cap < sent.length - next ∧
      recv cap sent next = (.lagged (sent.length - cap - next), sent.length - cap)) ∨
    (∃ m, sent[next]? = some m ∧ recv cap sent next = (.ok m, next + 1)) ∨
    (sent.length ≤ next ∧ recv cap sent next = (.pending, next)) := by
  unfold recv
  split
  · exact .inl ⟨‹_›, rfl⟩
  · cases hm : sent[next]? with
    | some m => exact .inr (.inl ⟨m, rfl, rfl⟩)
    | none => exact .inr (.inr ⟨List.getElem?_eq_none_iff.1 hm, rfl⟩)

theorem recv_lagged {cap : Nat} {sent : List μ} {next : Nat} (h : cap < sent.length - next) :
    recv cap sent next = (.lagged (sent.length - cap - next), sent.length - cap) := if_pos h

theorem le_recv (cap : Nat) (sent : List μ) (next : Nat) : next ≤ (recv cap sent next).2 := by
  rcases recv_cases cap sent next with ⟨h, e⟩ | ⟨m, _, e⟩ | ⟨_, e⟩ <;>
    have hnext := congrArg Prod.snd e <;> dsimp only at hnext <;> omega

theorem recv_le (cap : Nat) (sent : List μ) (next : Nat) (h : next ≤ sent.length) :
    (recv cap sent next).2 ≤ sent.length := by
  rcases recv_cases cap sent next with ⟨_, e⟩ | ⟨m, hm, e⟩ | ⟨_, e⟩ <;> rw [e] <;> simp only
  · omega
  · have := (List.getElem?_eq_some_iff.1 hm).1; omega
  · exact h

/-- What a receiver has left behind after a `recv`: what it had before, and what it passed over. -/
theorem take_recv (cap : Nat) (sent : List μ) (next : Nat) :
    sent.take (recv cap sent next).2 = sent.take next ++ passed cap sent next := by
  have h := List.take_append_drop next (sent.take (recv cap sent next).2)
  rw [List.take_take, Nat.min_eq_left (le_recv cap sent next)] at h
  exact h.symm

/-- The unread part of the log loses exactly what a `recv` passes over. -/
theorem drop_recv (cap : Nat) (sent : List μ) (next : Nat) (h : next ≤ sent.length) :
    sent.drop next = passed cap sent next ++ sent.drop (recv cap sent next).2 := by
  have h1 := List.take_append_drop (recv cap sent next).2 sent
  rw [take_recv, List.append_assoc] at h1
  have h2 := List.take_append_drop next sent
  rw [← h1] at h2
  have hl : (sent.take next).length = next := List.length_take_of_le h
  rw [h1] at h2
  exact (List.append_cancel_left (h1.trans h2.symm)).symm

end Broadcast
