import CacosPds.Lib.Run
/-!
# Transactions on snapshots, one writer at a time

A transaction is its body, a partial function on the database: `none` is a rollback. It begins
with a read, which fixes the snapshot it sees; with its first write it takes the writer's lock,
which it is only given while the snapshot is still the latest version (otherwise it ends as busy);
its commit publishes the new version and gives the lock back. Any number of transactions are under
way, and each of these steps may come between any two of another's.

What they leave is what the bodies leave that have been committed, one after another
(`serial_of_run`). So a relation that every body keeps is kept by every run (`related_of_run`).
-/
namespace Snapshots

open Runs

variable {σ β : Type*}

inductive Phase (σ β : Type*) where
  | called (b : β)
  /-- It has read a version of the database. -/
  | read (b : β) (version : Nat) (snapshot : σ)
  /-- It holds the lock, with what it has written. -/
  | written (b : β) (new : σ)
  | committed
  | failed

structure Pool (σ β : Type*) where
  db : σ
  /-- How many commits there have been. -/
  version : Nat
  /-- Who holds the lock. -/
  writer : Option Nat
  calls : List (Phase σ β)

/-- Nobody is at work yet. -/
def Pool.start (db : σ) : Pool σ β := ⟨db, 0, none, []⟩

inductive Act (β : Type*) where
  | call (b : β)
  | read (i : Nat)
  | write (i : Nat)
  | commit (i : Nat)
  /-- A statement fails, or the call is given up: the transaction is rolled back. -/
  | fail (i : Nat)

def Phase.underWay : Phase σ β → Bool
  | .called _ | .read .. | .written .. => true
  | .committed | .failed => false

def Pool.goto (s : Pool σ β) (i : Nat) (p : Phase σ β) : Pool σ β :=
  { s with calls := s.calls.set i p }

def step (body : β → σ → Option σ) (s : Pool σ β) : Act β → Option (Pool σ β)
  | .call b => some { s with calls := s.calls ++ [.called b] }
  | .read i =>
    match s.calls[i]? with
    | some (.called b) => some (s.goto i (.read b s.version s.db))
    | _ => none
  | .write i =>
    match s.calls[i]? with
    | some (.read b version snapshot) =>
      match body b snapshot with
      | none => some (s.goto i .failed)
      | some new =>
        if s.writer = none ∧ version = s.version then
          some ({ s with writer := some i }.goto i (.written b new))
        else some (s.goto i .failed)
    | _ => none
  | .commit i =>
    match s.calls[i]? with
    | some (.written _ new) =>
      some ({ s with db := new, version := s.version + 1, writer := none }.goto i .committed)
    | _ => none
  | .fail i =>
    match s.calls[i]? with
    | some p =>
      if p.underWay then
        some ({ s with writer := if s.writer = some i then none else s.writer }.goto i .failed)
      else none
    | none => none

/-- A snapshot of the latest version is the database; the lock's holder has written to it. -/
structure Inv (body : β → σ → Option σ) (s : Pool σ β) : Prop where
  read : ∀ (i : Nat) b version snapshot, s.calls[i]? = some (.read b version snapshot) →
    version ≤ s.version ∧ (version = s.version → snapshot = s.db)
  written : ∀ (i : Nat) b new, s.calls[i]? = some (.written b new) →
    s.writer = some i ∧ body b s.db = some new

variable {body : β → σ → Option σ} {s t : Pool σ β} {a : Act β}

theorem inv_start (db : σ) : Inv body (Pool.start db) := by
  constructor
  · intro i b version snapshot h
    simp [Pool.start] at h
  · intro i b new h
    simp [Pool.start] at h

/-- A call goes on without the lock, or one that holds it comes to its end. -/
theorem Inv.goto (h : Inv body s) {i : Nat} {p : Phase σ β} {writer : Option Nat}
    (hread : ∀ b version snapshot, p = .read b version snapshot →
      version ≤ s.version ∧ (version = s.version → snapshot = s.db))
    (hwritten : ∀ b new, p = .written b new → writer = some i ∧ body b s.db = some new)
    (hwriter : ∀ j, j ≠ i → s.writer = some j → writer = some j) :
    Inv body ({ s with writer }.goto i p) := by
  constructor
  · intro j b version snapshot hj
    rcases getElem?_set_eq_some hj with ⟨rfl, hp⟩ | ⟨-, hj⟩
    · exact hread b version snapshot hp.symm
    · exact h.read j b version snapshot hj
  · intro j b new hj
    rcases getElem?_set_eq_some hj with ⟨rfl, hp⟩ | ⟨hne, hj⟩
    · exact hwritten b new hp.symm
    · obtain ⟨hlock, hbody⟩ := h.written j b new hj
      exact ⟨hwriter j (Ne.symm hne) hlock, hbody⟩

/-- The lock's holder commits: every snapshot is then an old one. -/
theorem Inv.commit (h : Inv body s) {i : Nat} {b : β} {new : σ}
    (hi : s.calls[i]? = some (.written b new)) :
    Inv body
      ({ s with db := new, version := s.version + 1, writer := none }.goto i .committed) := by
  constructor
  · intro j b' version snapshot hj
    rcases getElem?_set_eq_some hj with ⟨-, hp⟩ | ⟨-, hj⟩
    · cases hp
    · obtain ⟨hle, -⟩ := h.read j b' version snapshot hj
      dsimp only [Pool.goto]
      omega
  · intro j b' new' hj
    rcases getElem?_set_eq_some hj with ⟨-, hp⟩ | ⟨hne, hj⟩
    · cases hp
    · have hlock := (h.written i b new hi).1.symm.trans (h.written j b' new' hj).1
      exact absurd (Option.some.inj hlock) hne

/-- What a step does: it leaves the database, or commits a body on it. -/
theorem step_cases (h : Inv body s) (hstep : step body s a = some t) :
    Inv body t ∧ (t.db = s.db ∨ ∃ i b, a = .commit i ∧ body b s.db = some t.db) := by
  cases a with
  | call b =>
    cases hstep
    refine ⟨⟨?_, ?_⟩, .inl rfl⟩
    · intro i b' version snapshot hi
      rcases getElem?_concat_eq_some hi with hp | hi
      · cases hp
      · exact h.read i b' version snapshot hi
    · intro i b' new hi
      rcases getElem?_concat_eq_some hi with hp | hi
      · cases hp
      · exact h.written i b' new hi
  | read i =>
    simp only [step] at hstep
    split at hstep
    · cases hstep
      refine ⟨h.goto ?_ (fun _ _ => nofun) fun _ _ => id, .inl rfl⟩
      intro b version snapshot hp
      cases hp
      exact ⟨Nat.le_refl _, fun _ => rfl⟩
    · cases hstep
  | write i =>
    simp only [step] at hstep
    split at hstep
    · rename_i b version snapshot hi
      split at hstep
      · cases hstep
        exact ⟨h.goto (fun _ _ _ => nofun) (fun _ _ => nofun) fun _ _ => id, .inl rfl⟩
      · rename_i new hbody
        by_cases hfree : s.writer = none ∧ version = s.version
        · rw [if_pos hfree] at hstep
          cases hstep
          refine ⟨h.goto (fun _ _ _ => nofun) ?_ ?_, .inl rfl⟩
          · intro b' new' hp
            cases hp
            rw [← (h.read i b version snapshot hi).2 hfree.2]
            exact ⟨rfl, hbody⟩
          · intro j _ hj
            rw [hfree.1] at hj
            cases hj
        · rw [if_neg hfree] at hstep
          cases hstep
          exact ⟨h.goto (fun _ _ _ => nofun) (fun _ _ => nofun) fun _ _ => id, .inl rfl⟩
    · cases hstep
  | commit i =>
    simp only [step] at hstep
    split at hstep
    · rename_i b new hi
      cases hstep
      exact ⟨h.commit hi, .inr ⟨i, b, rfl, (h.written i b new hi).2⟩⟩
    · cases hstep
  | fail i =>
    simp only [step] at hstep
    split at hstep
    · split at hstep
      · cases hstep
        refine ⟨h.goto (fun _ _ _ => nofun) (fun _ _ => nofun) ?_, .inl rfl⟩
        intro j hne hj
        rw [if_neg]
        · exact hj
        · intro hi
          exact hne (Option.some.inj (hj.symm.trans hi))
      · cases hstep
    · cases hstep

theorem inv_of_run (h : Inv body s) {as : List (Act β)} (hr : run (step body) s as = some t) :
    Inv body t :=
  (always_of_keep (fun _ _ _ hs hstep => (step_cases hs hstep).1) h as).last hr

/-- The bodies that a run has committed, one after another on the database, give its database. -/
theorem serial_of_run (h : Inv body s) {as : List (Act β)} (hr : run (step body) s as = some t) :
    ∃ bs, run (fun db b => body b db) s.db bs = some t.db := by
  induction as generalizing s with
  | nil =>
    cases hr
    exact ⟨[], rfl⟩
  | cons a as ih =>
    obtain ⟨u, hu, hr⟩ := run_cons_some hr
    obtain ⟨hinv, hdb⟩ := step_cases h hu
    obtain ⟨bs, hbs⟩ := ih hinv hr
    rcases hdb with hdb | ⟨-, b, -, hb⟩
    · exact ⟨bs, hdb ▸ hbs⟩
    · refine ⟨b :: bs, ?_⟩
      rw [run_cons, hb]
      exact hbs

theorem related_of_run {R : σ → σ → Prop} (refl : ∀ d, R d d)
    (trans : ∀ d e f, R d e → R e f → R d f) (hbody : ∀ b d e, body b d = some e → R d e)
    (h : Inv body s) {as : List (Act β)} (hr : run (step body) s as = some t) : R s.db t.db := by
  obtain ⟨bs, hbs⟩ := serial_of_run h hr
  exact related_of_steps refl trans (fun d b e => hbody b d e) hbs

end Snapshots
