import Mathlib.Algebra.Order.Ring.Int
import CacosPds.Lib.Run
/-!
# The login lockout

| here | there |
| --- | --- |
| `Row`         | `account.failedLoginCount`, `account.lockedUntil` of one account |
| `getAccountLockoutState`, `incrementFailedLoginCount` | `helpers/account.rs:418-449`; a count that is no `i32` reads as 0 |
| `isAccountLocked` | `is_account_locked` (`account/mod.rs:456`, `oauth_store.rs:132`) |
| `advance`, `Endpoint.createSession` | `inner_create_session` (`create_session.rs:39-106`) with `record_failed_login_with_lockout`, `create_session` (`account/mod.rs:284`) |
| `advance`, `Endpoint.authenticateAccount` | `authenticate_account` (`oauth_store.rs:468-510`) |

Every step is one statement or one verification. The lock is read before the password is verified, the
count is read after it is written, and the lock is stamped last, so attempts that overlap are all
verified under the lock that the first one found (`six_guesses`). Where no attempt is verified beside
an unrecorded guess, and no lock is stamped behind an attempt's check, five guesses are the limit
(`lockedOut_of_contained`).
-/
namespace CacosPds.Account.Lockout

open Runs

structure Row where
  failedLoginCount : Int
  lockedUntil : Option Int
  deriving DecidableEq

/-- A column as an `i32`. -/
def toI32 (n : Int) : Option Int := if -2147483648 ≤ n ∧ n ≤ 2147483647 then some n else none

def getAccountLockoutState (row : Row) : Int × Option Int :=
  ((toI32 row.failedLoginCount).getD 0, row.lockedUntil)

/-- The new row, and the new value if it can be returned. -/
def incrementFailedLoginCount (row : Row) : Row × Option Int :=
  let row := { row with failedLoginCount := row.failedLoginCount + 1 }
  (row, toI32 row.failedLoginCount)

def setAccountLockedUntil (untilUnix : Int) (row : Row) : Row :=
  { row with lockedUntil := some untilUnix }

def clearAccountLockout (_ : Row) : Row := ⟨0, none⟩

/-- An expired lockout is treated as unlocked. -/
def isAccountLocked (now : Int) (row : Row) : Bool :=
  match (getAccountLockoutState row).2 with
  | none => false
  | some lockedUntil => now < lockedUntil

/-! ## One attempt -/

inductive Endpoint where
  | createSession | authenticateAccount
  deriving DecidableEq

/-- What an attempt is to do next. -/
inductive Pc where
  | check
  | verifyAccount
  /-- `createSession` only. -/
  | verifyApp
  | increment
  | readCount
  /-- The deadline is known. -/
  | stamp (lockedUntil : Int)
  | clear
  /-- `create_session` of the account manager, which reads the lock again. -/
  | sign
  | ended
  deriving DecidableEq

/-- The lock is checked, and a password is still to be verified. -/
def Pc.checked : Pc → Bool
  | .verifyAccount | .verifyApp => true
  | _ => false

/-- A wrong password is verified, and not yet recorded in full. -/
def Pc.recording : Pc → Bool
  | .increment | .readCount | .stamp _ => true
  | _ => false

structure Attempt where
  endpoint : Endpoint
  pc : Pc
  deriving DecidableEq

structure World where
  row : Row
  /-- `unix_now_secs()`. -/
  now : Int
  attempts : List Attempt
  /-- The wrong guesses verified since the last reset. -/
  guesses : Nat
  /-- A password has been verified while the account was locked. -/
  verifiedLocked : Bool

structure Choice where
  fault : Bool
  /-- The password is right. -/
  right : Bool

def World.set (W : World) (i : Nat) (a : Attempt) (pc : Pc) : World :=
  { W with attempts := W.attempts.set i { a with pc } }

/-- The verification of a password, which finds it right or goes on with the rest. -/
def verify (W : World) (i : Nat) (a : Attempt) (right : Bool) (wrong : World → World) : World :=
  let W := { W with verifiedLocked := W.verifiedLocked || isAccountLocked W.now W.row }
  if right then W.set i a .clear else wrong W

def advance (W : World) (i : Nat) (a : Attempt) (c : Choice) : Option World :=
  match a.pc with
  | .check =>
    some (W.set i a (if c.fault || isAccountLocked W.now W.row then .ended else .verifyAccount))
  | .verifyAccount =>
    if c.fault then some (W.set i a .ended)
    else some (verify W i a c.right fun W =>
      match a.endpoint with
      | .createSession => W.set i a .verifyApp
      | .authenticateAccount => { W with guesses := W.guesses + 1 }.set i a .increment)
  | .verifyApp =>
    if c.fault then some ({ W with guesses := W.guesses + 1 }.set i a .ended)
    else some (verify W i a c.right fun W =>
      { W with guesses := W.guesses + 1 }.set i a .increment)
  | .increment =>
    if c.fault then some (W.set i a .ended)
    else
      match incrementFailedLoginCount W.row with
      | (row, some _) => some ({ W with row }.set i a .readCount)
      | (row, none) => some ({ W with row }.set i a .ended)
  | .readCount =>
    if c.fault then some (W.set i a .ended)
    else if 5 ≤ (getAccountLockoutState W.row).1 then some (W.set i a (.stamp (W.now + 900)))
    else some (W.set i a .ended)
  | .stamp lockedUntil =>
    if c.fault then some (W.set i a .ended)
    else some ({ W with row := setAccountLockedUntil lockedUntil W.row }.set i a .ended)
  | .clear =>
    if c.fault then some (W.set i a .ended)
    else some ({ W with row := clearAccountLockout W.row, guesses := 0 }.set i a
      (match a.endpoint with
      | .createSession => .sign
      | .authenticateAccount => .ended))
  | .sign => some (W.set i a .ended)
  | .ended => none

/-! ## Any number of attempts -/

inductive Action where
  | start (endpoint : Endpoint)
  | advance (i : Nat) (c : Choice)
  /-- The request is given up. -/
  | drop (i : Nat)
  | tick (now : Int)

/-- A lock ends with the passing of the time. -/
def expires (row : Row) (now now' : Int) : Bool :=
  row.lockedUntil.any fun lockedUntil => now < lockedUntil && decide (lockedUntil ≤ now')

def step (W : World) : Action → Option World
  | .start endpoint => some { W with attempts := W.attempts ++ [⟨endpoint, .check⟩] }
  | .advance i c => W.attempts[i]?.bind fun a => advance W i a c
  | .drop i => W.attempts[i]?.bind fun a =>
    -- a password that the account does not have counts as a guess, with the app passwords unread
    let guesses := if a.pc = .verifyApp then W.guesses + 1 else W.guesses
    some ({ W with guesses }.set i a .ended)
  | .tick now =>
    if W.now ≤ now then
      some { W with now, guesses := if expires W.row W.now now then 0 else W.guesses }
    else none

/-- What the lockout promises. -/
structure LockedOut (W : World) : Prop where
  five : W.guesses ≤ 5
  unlocked : W.verifiedLocked = false

/-- No attempt has been made since the last reset. -/
structure Initial (W : World) : Prop where
  attempts : W.attempts = []
  guesses : W.guesses = 0
  verifiedLocked : W.verifiedLocked = false
  range : 0 ≤ W.row.failedLoginCount ∧ W.row.failedLoginCount ≤ 2147483647

/-! ## The condition -/

/-- No attempt has an unrecorded guess. -/
def World.Recorded (W : World) : Prop := ∀ a ∈ W.attempts, a.pc.recording = false

/-- No attempt is behind its check of the lock with a password to verify. -/
def World.Settled (W : World) : Prop := ∀ a ∈ W.attempts, a.pc.checked = false

/-- The condition on a step of an attempt. -/
def Attempt.Contained (W : World) (c : Choice) (a : Attempt) : Prop :=
  match a.pc with
  | .verifyAccount => W.Recorded
  | .verifyApp => c.fault = false ∧ W.Recorded
  | .increment => c.fault = false ∧ W.row.failedLoginCount < 2147483647
  | .readCount => c.fault = false
  | .stamp lockedUntil => c.fault = false ∧ W.now < lockedUntil ∧ W.Settled
  | .check | .clear | .sign | .ended => True

def Contained (W : World) : Action → Prop
  | .advance i c => ∀ a ∈ W.attempts[i]?, a.Contained W c
  | .drop i => ∀ a ∈ W.attempts[i]?, a.pc.recording = false ∧ a.pc ≠ .verifyApp
  | .start _ | .tick _ => True

instance (W : World) (c : Choice) (a : Attempt) : Decidable (a.Contained W c) := by
  unfold Attempt.Contained World.Recorded World.Settled
  split <;> infer_instance

instance (W : World) (action : Action) : Decidable (Contained W action) := by
  cases action <;> unfold Contained <;> infer_instance

/-! ## Between two resets -/

/-- Every guess is counted, but for the one that is being recorded; the fifth locks. -/
structure Safe (W : World) : Prop where
  verifiedLocked : W.verifiedLocked = false
  checked : ∀ a ∈ W.attempts, a.pc.checked = true → isAccountLocked W.now W.row = false
  range : 0 ≤ W.row.failedLoginCount ∧ W.row.failedLoginCount ≤ 2147483647
  alone : ∀ (i j : Nat) (a b : Attempt), W.attempts[i]? = some a → W.attempts[j]? = some b →
    a.pc.recording = true → b.pc.recording = true → i = j
  counted : (W.guesses : Int) ≤ W.row.failedLoginCount ∨
    (∃ a ∈ W.attempts, a.pc = .increment) ∧ (W.guesses : Int) ≤ W.row.failedLoginCount + 1
  five : W.guesses ≤ 5
  locks : W.guesses ≤ 4 ∨ isAccountLocked W.now W.row = true ∨
    ∃ a ∈ W.attempts, a.pc.recording = true

theorem Safe.lockedOut {W : World} (S : Safe W) : LockedOut W := ⟨S.five, S.verifiedLocked⟩

section

variable {W V : World} {i : Nat} {a : Attempt} {c : Choice}

/-- The lock is a matter of the deadline. -/
theorem isAccountLocked_congr {now : Int} {row row' : Row} (h : row.lockedUntil = row'.lockedUntil) :
    isAccountLocked now row = isAccountLocked now row' := by
  unfold isAccountLocked getAccountLockoutState
  dsimp only
  rw [h]

/-- Time unlocks, and locks nothing. -/
theorem isAccountLocked_mono {now now' : Int} {row : Row} (hle : now ≤ now')
    (h : isAccountLocked now row = false) : isAccountLocked now' row = false := by
  unfold isAccountLocked at h ⊢
  cases hl : (getAccountLockoutState row).2 with
  | none => rfl
  | some lockedUntil =>
    rw [hl] at h
    have := of_decide_eq_false h
    exact decide_eq_false (by omega)

theorem locked_of_not_expires {now now' : Int} {row : Row} (h : isAccountLocked now row = true)
    (hexp : ¬ expires row now now' = true) : isAccountLocked now' row = true := by
  unfold isAccountLocked getAccountLockoutState at h ⊢
  unfold expires at hexp
  cases hl : row.lockedUntil with
  | none =>
    rw [hl] at h
    cases h
  | some lockedUntil =>
    rw [hl] at h hexp
    have hlt := of_decide_eq_true h
    refine decide_eq_true (Int.not_le.1 fun hle => hexp ?_)
    simp [hlt, hle]

/-- Another attempt than the one that moves is still there. -/
theorem mem_set_of_ne {b x : Attempt} (hi : W.attempts[i]? = some a) (hx : x ∈ W.attempts)
    (hne : x ≠ a) : x ∈ W.attempts.set i b := by
  obtain ⟨j, hj⟩ := List.mem_iff_getElem?.1 hx
  refine List.mem_iff_getElem?.2 ⟨j, ?_⟩
  rw [List.getElem?_set_ne, hj]
  rintro rfl
  exact hne (Option.some.inj (hj.symm.trans hi))

/-- The one that moves is there too. -/
theorem mem_set_self {b : Attempt} (hi : W.attempts[i]? = some a) : b ∈ W.attempts.set i b := by
  obtain ⟨hlt, -⟩ := List.getElem?_eq_some_iff.1 hi
  exact List.mem_iff_getElem?.2 ⟨i, List.getElem?_set_self hlt⟩

/-- One recording at most, if it is the one that moves or none is. -/
theorem Safe.alone_set (S : Safe W) {b : Attempt} (hb : ∀ (j : Nat) (x : Attempt), i ≠ j →
    W.attempts[j]? = some x → b.pc.recording = true → ¬ x.pc.recording = true) (j k : Nat)
    (x y : Attempt) (hj : (W.attempts.set i b)[j]? = some x)
    (hk : (W.attempts.set i b)[k]? = some y) (hx : x.pc.recording = true)
    (hy : y.pc.recording = true) : j = k := by
  let R (x y : Attempt) : Prop := x.pc.recording = true ∧ y.pc.recording = true
  refine eq_of_set (R := R) (fun _ _ hR => ⟨hR.2, hR.1⟩)
    (fun j k x y hx hy hR => S.alone j k x y hx hy hR.1 hR.2) ?_ hj hk ⟨hx, hy⟩
  exact fun m z him hz hR => hb m z him hz hR.1 hR.2

/-- A move that is no part of a recording. -/
theorem Safe.set (S : Safe W) (hi : W.attempts[i]? = some a) {pc : Pc}
    (hold : a.pc.recording = false) (hnew : pc.recording = false)
    (hchecked : pc.checked = true → isAccountLocked W.now W.row = false) : Safe (W.set i a pc) := by
  have hkeep : ∀ x ∈ W.attempts, x.pc.recording = true → x ∈ W.attempts.set i { a with pc } := by
    intro x hx hrec
    refine mem_set_of_ne hi hx ?_
    rintro rfl
    rw [hold] at hrec
    cases hrec
  refine ⟨S.verifiedLocked, forall_mem_set hchecked S.checked, S.range, ?_, ?_, S.five, ?_⟩
  · refine S.alone_set fun _ _ _ _ hrec => ?_
    rw [hnew] at hrec
    cases hrec
  · rcases S.counted with hle | ⟨⟨x, hx, hpc⟩, hle⟩
    · exact .inl hle
    · exact .inr ⟨⟨x, hkeep x hx (by rw [hpc]; rfl), hpc⟩, hle⟩
  · rcases S.locks with hle | hlocked | ⟨x, hx, hrec⟩
    · exact .inl hle
    · exact .inr (.inl hlocked)
    · exact .inr (.inr ⟨x, hkeep x hx hrec, hrec⟩)

/-- A wrong guess, with none unrecorded. -/
theorem Safe.guess (S : Safe W) (hi : W.attempts[i]? = some a) (hchecked : a.pc.checked = true)
    (hrec : W.Recorded) : Safe ({ W with guesses := W.guesses + 1 }.set i a .increment) := by
  have hunlocked := S.checked a (List.mem_of_getElem? hi) hchecked
  have hcounted : (W.guesses : Int) ≤ W.row.failedLoginCount := by
    rcases S.counted with hle | ⟨⟨x, hx, hpc⟩, -⟩
    · exact hle
    · have := hrec x hx
      rw [hpc] at this
      cases this
  have hfour : W.guesses ≤ 4 := by
    rcases S.locks with hle | hlocked | ⟨x, hx, hxrec⟩
    · exact hle
    · rw [hunlocked] at hlocked
      cases hlocked
    · rw [hrec x hx] at hxrec
      cases hxrec
  have hmem : (show Attempt from { a with pc := .increment }) ∈
      W.attempts.set i { a with pc := .increment } := mem_set_self hi
  refine ⟨S.verifiedLocked, forall_mem_set nofun S.checked, S.range, ?_, ?_, ?_, ?_⟩
  · refine S.alone_set fun j x _ hx _ hxrec => ?_
    rw [hrec x (List.mem_of_getElem? hx)] at hxrec
    cases hxrec
  · refine .inr ⟨⟨_, hmem, rfl⟩, ?_⟩
    show ((W.guesses + 1 : Nat) : Int) ≤ W.row.failedLoginCount + 1
    omega
  · show W.guesses + 1 ≤ 5
    omega
  · exact .inr (.inr ⟨_, hmem, rfl⟩)

/-- The one recording goes on, or ends where the account is locked or the count below five. -/
theorem Safe.record (S : Safe W) (hi : W.attempts[i]? = some a) (hrec : a.pc.recording = true)
    {row : Row} {pc : Pc}
    (hrange : 0 ≤ row.failedLoginCount ∧ row.failedLoginCount ≤ 2147483647)
    (hnew : pc.checked = false)
    (hcounted : (W.guesses : Int) ≤ row.failedLoginCount)
    (hchecked : W.Settled ∨ row.lockedUntil = W.row.lockedUntil)
    (hlocks : pc.recording = true ∨ W.guesses ≤ 4 ∨ isAccountLocked W.now row = true) :
    Safe ({ W with row }.set i a pc) := by
  refine ⟨S.verifiedLocked, ?_, hrange, ?_, .inl hcounted, S.five, ?_⟩
  · refine forall_mem_set (fun h => ?_) fun x hx h => ?_
    · rw [hnew] at h
      cases h
    · rcases hchecked with hsettled | hsame
      · rw [hsettled x hx] at h
        cases h
      · exact (isAccountLocked_congr hsame).trans (S.checked x hx h)
  · exact S.alone_set fun m x him hx _ hxrec => him (S.alone i m a x hi hx hrec hxrec)
  · rcases hlocks with hrec' | hle | hlocked
    · exact .inr (.inr ⟨_, mem_set_self hi, hrec'⟩)
    · exact .inl hle
    · exact .inr (.inl hlocked)

/-- A recording that has incremented the count has its guess counted. -/
theorem Safe.counted_of_ne (S : Safe W) (hi : W.attempts[i]? = some a)
    (hrec : a.pc.recording = true) (hne : a.pc ≠ .increment) :
    (W.guesses : Int) ≤ W.row.failedLoginCount := by
  rcases S.counted with hle | ⟨⟨x, hx, hpc⟩, -⟩
  · exact hle
  · obtain ⟨j, hj⟩ := List.mem_iff_getElem?.1 hx
    obtain rfl := S.alone i j a x hi hj hrec (by rw [hpc]; rfl)
    obtain rfl := Option.some.inj (hi.symm.trans hj)
    exact absurd hpc hne

/-- A new window. -/
theorem Safe.reset (S : Safe W) (row : Row) {now : Int}
    (hrange : 0 ≤ row.failedLoginCount ∧ row.failedLoginCount ≤ 2147483647)
    (hchecked : ∀ a ∈ W.attempts, a.pc.checked = true → isAccountLocked now row = false) :
    Safe { W with row, now, guesses := 0 } :=
  ⟨S.verifiedLocked, hchecked, hrange, S.alone, .inl hrange.1, Nat.zero_le _,
    .inl (Nat.zero_le _)⟩

theorem toI32_eq {n : Int} (h : -2147483648 ≤ n ∧ n ≤ 2147483647) : toI32 n = some n := if_pos h

/-- Where the account is not locked a verification is one without consequences of its own. -/
theorem verify_eq {right : Bool} {wrong : World → World} (S : Safe W)
    (hi : W.attempts[i]? = some a) (hchecked : a.pc.checked = true) :
    verify W i a right wrong = if right then W.set i a .clear else wrong W := by
  have hsame : { W with verifiedLocked := W.verifiedLocked || isAccountLocked W.now W.row } = W := by
    rw [S.checked a (List.mem_of_getElem? hi) hchecked, Bool.or_false]
  unfold verify
  rw [hsame]

/-- **A step of an attempt that meets the condition keeps the limit.** -/
theorem safe_advance (S : Safe W) (hi : W.attempts[i]? = some a) (hC : a.Contained W c)
    (hadv : advance W i a c = some V) : Safe V := by
  unfold advance at hadv
  unfold Attempt.Contained at hC
  cases hpc : a.pc with
  | check =>
    rw [hpc] at hadv
    cases hadv
    have hold : a.pc.recording = false := by rw [hpc]; rfl
    by_cases hgo : (c.fault || isAccountLocked W.now W.row) = true
    · rw [if_pos hgo]
      exact S.set hi hold rfl nofun
    · rw [if_neg hgo]
      refine S.set hi hold rfl fun _ => ?_
      simp only [Bool.or_eq_true, not_or, Bool.not_eq_true] at hgo
      exact hgo.2
  | verifyAccount =>
    have hchecked : a.pc.checked = true := by rw [hpc]; rfl
    have hold : a.pc.recording = false := by rw [hpc]; rfl
    rw [hpc] at hadv hC
    dsimp only at hadv hC
    split at hadv
    · cases hadv
      exact S.set hi hold rfl nofun
    · rw [verify_eq S hi hchecked] at hadv
      cases hright : c.right with
      | true =>
        rw [hright] at hadv
        cases hadv
        exact S.set hi hold rfl nofun
      | false =>
        rw [hright] at hadv
        cases hend : a.endpoint with
        | createSession =>
          rw [hend] at hadv
          cases hadv
          exact S.set hi hold rfl fun _ => S.checked a (List.mem_of_getElem? hi) hchecked
        | authenticateAccount =>
          rw [hend] at hadv
          cases hadv
          exact S.guess hi hchecked hC
  | verifyApp =>
    have hchecked : a.pc.checked = true := by rw [hpc]; rfl
    rw [hpc] at hadv hC
    dsimp only at hadv hC
    rw [hC.1, verify_eq S hi hchecked] at hadv
    cases hright : c.right with
    | true =>
      rw [hright] at hadv
      cases hadv
      exact S.set hi (by rw [hpc]; rfl) rfl nofun
    | false =>
      rw [hright] at hadv
      cases hadv
      exact S.guess hi hchecked hC.2
  | increment =>
    have hrec : a.pc.recording = true := by rw [hpc]; rfl
    rw [hpc] at hadv hC
    dsimp only at hadv hC
    obtain ⟨hfault, hlt⟩ := hC
    have hfits : incrementFailedLoginCount W.row =
        ({ W.row with failedLoginCount := W.row.failedLoginCount + 1 },
          some (W.row.failedLoginCount + 1)) := by
      have hrange := S.range
      have hfits : toI32 (W.row.failedLoginCount + 1) = some (W.row.failedLoginCount + 1) :=
        toI32_eq ⟨by omega, by omega⟩
      exact Prod.ext rfl hfits
    rw [hfault, hfits] at hadv
    cases hadv
    have hcounted : (W.guesses : Int) ≤ W.row.failedLoginCount + 1 := by
      rcases S.counted with hle | ⟨-, hle⟩
      · exact Int.le_add_one hle
      · exact hle
    exact S.record hi hrec ⟨Int.le_add_one S.range.1, by show W.row.failedLoginCount + 1 ≤ _; omega⟩
      rfl hcounted (.inr rfl) (.inl rfl)
  | readCount =>
    have hrec : a.pc.recording = true := by rw [hpc]; rfl
    have hcounted := S.counted_of_ne hi hrec (by rw [hpc]; nofun)
    rw [hpc] at hadv hC
    dsimp only at hadv hC
    have hread : (getAccountLockoutState W.row).1 = W.row.failedLoginCount := by
      unfold getAccountLockoutState
      rw [toI32_eq ⟨by have := S.range.1; omega, S.range.2⟩]
      rfl
    rw [hC, hread] at hadv
    by_cases hfive : 5 ≤ W.row.failedLoginCount
    · rw [if_pos hfive] at hadv
      cases hadv
      exact S.record hi hrec S.range rfl hcounted (.inr rfl) (.inl rfl)
    · rw [if_neg hfive] at hadv
      cases hadv
      exact S.record hi hrec S.range rfl hcounted (.inr rfl) (.inr (.inl (by omega)))
  | stamp lockedUntil =>
    have hrec : a.pc.recording = true := by rw [hpc]; rfl
    have hcounted := S.counted_of_ne hi hrec (by rw [hpc]; nofun)
    rw [hpc] at hadv hC
    dsimp only at hadv hC
    obtain ⟨hfault, hlt, hsettled⟩ := hC
    rw [hfault] at hadv
    cases hadv
    exact S.record hi hrec S.range rfl hcounted (.inl hsettled) (.inr (.inr (decide_eq_true hlt)))
  | clear =>
    have hold : a.pc.recording = false := by rw [hpc]; rfl
    rw [hpc] at hadv
    dsimp only at hadv
    split at hadv
    · cases hadv
      exact S.set hi hold rfl nofun
    · cases hadv
      refine (S.set hi hold ?_ ?_).reset ⟨0, none⟩ ⟨le_rfl, by decide⟩ fun _ _ _ => rfl
      · cases a.endpoint <;> rfl
      · cases a.endpoint <;> exact nofun
  | sign =>
    rw [hpc] at hadv
    cases hadv
    exact S.set hi (by rw [hpc]; rfl) rfl nofun
  | ended =>
    rw [hpc] at hadv
    cases hadv

/-- **So does every step.** -/
theorem safe_step {action : Action} (S : Safe W) (hC : Contained W action)
    (hstep : step W action = some V) : Safe V := by
  cases action with
  | start endpoint =>
    cases hstep
    have hmem : ∀ x ∈ W.attempts, x ∈ W.attempts ++ [⟨endpoint, .check⟩] := fun x hx =>
      List.mem_append_left _ hx
    refine ⟨S.verifiedLocked, fun x hx h => ?_, S.range, fun j k x y hj hk hx hy => ?_, ?_, S.five, ?_⟩
    · rcases List.mem_append.1 hx with hx | hx
      · exact S.checked x hx h
      · obtain rfl := List.mem_singleton.1 hx
        cases h
    · rcases getElem?_concat_eq_some hj with rfl | hj
      · cases hx
      · rcases getElem?_concat_eq_some hk with rfl | hk
        · cases hy
        · exact S.alone j k x y hj hk hx hy
    · rcases S.counted with hle | ⟨⟨x, hx, hpc⟩, hle⟩
      · exact .inl hle
      · exact .inr ⟨⟨x, hmem x hx, hpc⟩, hle⟩
    · rcases S.locks with hle | hlocked | ⟨x, hx, hrec⟩
      · exact .inl hle
      · exact .inr (.inl hlocked)
      · exact .inr (.inr ⟨x, hmem x hx, hrec⟩)
  | advance i c =>
    obtain ⟨a, hi, hadv⟩ := Option.bind_eq_some_iff.1 hstep
    exact safe_advance S hi (hC a hi) hadv
  | drop i =>
    obtain ⟨a, hi, hdrop⟩ := Option.bind_eq_some_iff.1 hstep
    obtain ⟨hrec, hne⟩ := hC a hi
    rw [if_neg hne] at hdrop
    cases hdrop
    exact S.set hi hrec rfl nofun
  | tick now =>
    dsimp only [step] at hstep
    split at hstep
    · rename_i hle
      cases hstep
      have hchecked : ∀ a ∈ W.attempts, a.pc.checked = true → isAccountLocked now W.row = false :=
        fun a ha h => isAccountLocked_mono hle (S.checked a ha h)
      by_cases hexp : expires W.row W.now now = true
      · rw [if_pos hexp]
        exact S.reset W.row S.range hchecked
      · rw [if_neg hexp]
        refine ⟨S.verifiedLocked, hchecked, S.range, S.alone, S.counted, S.five, ?_⟩
        rcases S.locks with hle | hlocked | hrec
        · exact .inl hle
        · exact .inr (.inl (locked_of_not_expires hlocked hexp))
        · exact .inr (.inr hrec)
    · cases hstep

/-- **The lockout holds along every run whose steps meet the condition.** -/
theorem lockedOut_of_contained {W : World} (hI : Initial W) (as : List Action)
    (hC : Along step Contained W as) : Always step LockedOut W as := by
  have hinit : Safe W := by
    obtain ⟨hattempts, hguesses, hlocked, hrange⟩ := hI
    refine ⟨hlocked, ?_, hrange, ?_, .inl ?_, ?_, .inl ?_⟩
    · rw [hattempts]
      exact nofun
    · rw [hattempts]
      exact fun i j a b hi => by cases hi
    · rw [hguesses]
      exact hrange.1
    · rw [hguesses]
      exact Nat.zero_le _
    · rw [hguesses]
      exact Nat.zero_le _
  exact (always_of_along (fun W action V S hC hstep => safe_step S hC hstep) hinit as hC).mono
    fun _ S => S.lockedOut

end

/-! ## Six guesses -/

def freshAccount : World where
  row := ⟨0, none⟩
  now := 1785844800
  attempts := []
  guesses := 0
  verifiedLocked := false

theorem initial_freshAccount : Initial freshAccount := ⟨rfl, rfl, rfl, by decide⟩

def wrong : Choice := ⟨false, false⟩

/-- Five wrong passwords one after the other, by both endpoints, and the right one after them. -/
def oneByOne : List Action :=
  (List.range 4).flatMap (fun i => .start .authenticateAccount :: List.replicate 4 (.advance i wrong)) ++
    .start .createSession :: List.replicate 6 (.advance 4 wrong) ++
    [.start .createSession, .advance 5 ⟨false, true⟩]

/-- The fifth guess locks, and the sixth attempt ends at its check. -/
theorem lockedOut_oneByOne :
    (∃ W ∈ run step freshAccount oneByOne, W.guesses = 5 ∧
        W.row.lockedUntil = some (freshAccount.now + 900) ∧
        W.attempts[5]? = some ⟨.createSession, .ended⟩) ∧
      Always step LockedOut freshAccount oneByOne :=
  ⟨by decide +kernel,
    lockedOut_of_contained initial_freshAccount oneByOne (by decide +kernel)⟩

/-- Six sign-ins at once: each reads the lock, then each is verified. -/
def sixAtOnce : List Action :=
  List.replicate 6 (.start .createSession) ++ (List.range 6).map (.advance · wrong) ++
    (List.range 6).map (.advance · wrong) ++ (List.range 6).map (.advance · wrong)

/-- All six are verified. -/
theorem six_guesses : ¬ ∀ W as, Initial W → Always step LockedOut W as := by
  intro h
  have hend : ∃ W ∈ run step freshAccount sixAtOnce, W.guesses = 6 := by decide +kernel
  obtain ⟨W, hW, hsix⟩ := hend
  have hfive := ((h freshAccount sixAtOnce initial_freshAccount).last hW).five
  omega

end CacosPds.Account.Lockout
