import Mathlib.Data.Finset.Basic
import CacosPds.Lib.Run
import CacosPds.Lib.Table
/-!
# Per-DID write locks (`cacos-pds-actor-store/src/mod.rs:301-491`)

| here | there |
| --- | --- |
| `didLock`                     | `did_lock` (`mod.rs:301`); a mutex is its number |
| `LockStep.transact` … `keypair` | `transact` (`mod.rs:388`) with `open_db` (`:309`), one step per `await` |
| `LockStep.release`            | the guard goes: transactor dropped, call failed or cancelled |
| `LockStep.create`             | `create` (`mod.rs:406`) |
| `LockStep.destroy` … `removeDir` | `destroy` (`mod.rs:452-491`) |

`destroy` takes the DID's entry out of the locks map without taking the lock (`mod.rs:461-464`). A
guard or a waiter on the old mutex stays where it is, and the next `transact` makes a new mutex.
-/
namespace CacosPds.ActorStore

/-- Where a task stands in `transact` or `destroy`, and the mutex it got from the map. -/
inductive LockTask where
  /-- Queued at `lock_owned`. -/
  | waiting (did : String) (mutex : Nat)
  /-- Has the guard; `open_db` is next. -/
  | locked (did : String) (mutex : Nat)
  /-- `open_db` found the file and opens it. -/
  | opening (did : String) (mutex : Nat)
  /-- The database is open; the key is next. -/
  | opened (did : String) (mutex : Nat)
  /-- An `ActorStoreTransactor` with its `_guard`. -/
  | holding (did : String) (mutex : Nat)
  /-- `destroy`, its cache entry gone. -/
  | destroying (did : String)
  /-- `destroy`, the lock entry gone as well. -/
  | wiping (did : String)
  deriving DecidableEq, Repr

/-- The DID and the mutex a task waits for or holds. -/
def LockTask.wants : LockTask → Option (String × Nat)
  | .waiting did mutex | .locked did mutex | .opening did mutex | .opened did mutex
  | .holding did mutex => some (did, mutex)
  | _ => none

/-- The mutex whose guard a task has. -/
def LockTask.guards : LockTask → Option Nat
  | .locked _ mutex | .opening _ mutex | .opened _ mutex | .holding _ mutex => some mutex
  | _ => none

/-- An `ActorStore`: its locks map, the handles in its cache, the actors on disk, and the tasks. -/
structure LockState where
  locks : Sql.Table String Nat
  nextMutex : Nat
  cache : Finset String
  files : Finset String
  tasks : Sql.Table Nat LockTask

/-- `did_lock`: the DID's mutex, a new one if the map has none. -/
def didLock (s : LockState) (did : String) : Nat × LockState :=
  match s.locks.lookup did with
  | some mutex => (mutex, s)
  | none => (s.nextMutex,
      { s with locks := s.locks.insert did s.nextMutex, nextMutex := s.nextMutex + 1 })

/-- Nobody has the mutex's guard. -/
def LockState.free (s : LockState) (mutex : Nat) : Bool :=
  decide (∀ e ∈ s.tasks.entries, e.2.guards ≠ some mutex)

theorem LockState.free_iff {s : LockState} {mutex : Nat} :
    s.free mutex ↔ ∀ k pc, s.tasks.lookup k = some pc → pc.guards ≠ some mutex := by
  rw [LockState.free, decide_eq_true_iff]
  constructor
  · exact fun h k pc hk => h ⟨k, pc⟩ (Finmap.lookup_eq_some_iff.1 hk)
  · exact fun h e he => h e.1 e.2 (Finmap.lookup_eq_some_iff.2 he)

inductive LockStep where
  | transact (task : Nat) (did : String)
  | acquire (task : Nat)
  | openDb (task : Nat)
  | cachePut (task : Nat)
  | keypair (task : Nat)
  | release (task : Nat)
  | create (did : String)
  | destroy (task : Nat) (did : String)
  | removeLock (task : Nat)
  | removeDir (task : Nat)
  /-- The LRU cache drops a handle. -/
  | evict (did : String)

/-- The task goes on to `pc`. -/
def LockState.goto (s : LockState) (task : Nat) (pc : LockTask) : LockState :=
  { s with tasks := s.tasks.insert task pc }

def lockStep (s : LockState) : LockStep → Option LockState
  | .transact task did =>
    if s.tasks.lookup task = none then
      some ((didLock s did).2.goto task (.waiting did (didLock s did).1))
    else none
  | .acquire task =>
    match s.tasks.lookup task with
    | some (.waiting did mutex) => if s.free mutex then some (s.goto task (.locked did mutex)) else none
    | _ => none
  | .openDb task =>
    match s.tasks.lookup task with
    | some (.locked did mutex) =>
      if did ∈ s.cache then some (s.goto task (.opened did mutex))
      else if did ∈ s.files then some (s.goto task (.opening did mutex))
      else none
    | _ => none
  | .cachePut task =>
    match s.tasks.lookup task with
    | some (.opening did mutex) =>
      some ({ s with cache := insert did s.cache }.goto task (.opened did mutex))
    | _ => none
  | .keypair task =>
    match s.tasks.lookup task with
    | some (.opened did mutex) =>
      if did ∈ s.files then some (s.goto task (.holding did mutex)) else none
    | _ => none
  | .release task => some { s with tasks := s.tasks.erase task }
  | .create did =>
    if did ∈ s.files then none
    else some { s with files := insert did s.files, cache := insert did s.cache }
  | .destroy task did =>
    if s.tasks.lookup task = none then
      some ({ s with cache := s.cache.erase did }.goto task (.destroying did))
    else none
  | .removeLock task =>
    match s.tasks.lookup task with
    | some (.destroying did) => some ({ s with locks := s.locks.erase did }.goto task (.wiping did))
    | _ => none
  | .removeDir task =>
    match s.tasks.lookup task with
    | some (.wiping did) => some { s with files := s.files.erase did, tasks := s.tasks.erase task }
    | _ => none
  | .evict did => some { s with cache := s.cache.erase did }

/-- A new `ActorStore` over the actors on disk. -/
def LockState.start (files : Finset String) : LockState := ⟨∅, 0, ∅, files, ∅⟩

/-- At most one transactor per DID. -/
def OneTransactor (s : LockState) : Prop :=
  ∀ t₁ t₂ did m₁ m₂, s.tasks.lookup t₁ = some (.holding did m₁) →
    s.tasks.lookup t₂ = some (.holding did m₂) → t₁ = t₂

/-- The condition on `transact`: it makes a new mutex for a DID only when no task waits for or holds
an older one of that DID. -/
def NoStaleLock (s : LockState) : LockStep → Prop
  | .transact _ did => s.locks.lookup did = none →
      ∀ t pc, s.tasks.lookup t = some pc → ∀ m, pc.wants ≠ some (did, m)
  | _ => True

/-! ## The invariant -/

structure LockInv (s : LockState) : Prop where
  oneGuard : ∀ t₁ t₂ pc₁ pc₂ m, s.tasks.lookup t₁ = some pc₁ → s.tasks.lookup t₂ = some pc₂ →
    pc₁.guards = some m → pc₂.guards = some m → t₁ = t₂
  /-- All tasks at one DID are at one mutex. -/
  oneMutex : ∀ t₁ t₂ pc₁ pc₂ did m₁ m₂, s.tasks.lookup t₁ = some pc₁ →
    s.tasks.lookup t₂ = some pc₂ → pc₁.wants = some (did, m₁) → pc₂.wants = some (did, m₂) → m₁ = m₂
  /-- It is the one in the map, if the map has one. -/
  current : ∀ t pc did m m', s.tasks.lookup t = some pc → pc.wants = some (did, m) →
    s.locks.lookup did = some m' → m' = m

theorem lockInv_start (files : Finset String) : LockInv (.start files) := by
  refine ⟨?_, ?_, ?_⟩ <;> intro t <;> intros <;> simp_all [LockState.start]

theorem LockInv.oneTransactor {s : LockState} (h : LockInv s) : OneTransactor s := by
  intro t₁ t₂ did m₁ m₂ h₁ h₂
  have hm := h.oneMutex t₁ t₂ _ _ did m₁ m₂ h₁ h₂ rfl rfl
  exact h.oneGuard t₁ t₂ _ _ m₁ h₁ h₂ rfl (by rw [hm]; rfl)

/-- A step by which no task comes to want or guard anything new, and no mutex gets into the map. -/
theorem LockInv.mono {s t : LockState} (h : LockInv s)
    (hw : ∀ k pc w, t.tasks.lookup k = some pc → pc.wants = some w →
      ∃ pc₀, s.tasks.lookup k = some pc₀ ∧ pc₀.wants = some w)
    (hg : ∀ k pc m, t.tasks.lookup k = some pc → pc.guards = some m →
      ∃ pc₀, s.tasks.lookup k = some pc₀ ∧ pc₀.guards = some m)
    (hl : ∀ did m, t.locks.lookup did = some m → s.locks.lookup did = some m) : LockInv t where
  oneGuard t₁ t₂ pc₁ pc₂ m h₁ h₂ g₁ g₂ := by
    obtain ⟨q₁, hq₁, g₁⟩ := hg t₁ pc₁ m h₁ g₁
    obtain ⟨q₂, hq₂, g₂⟩ := hg t₂ pc₂ m h₂ g₂
    exact h.oneGuard t₁ t₂ q₁ q₂ m hq₁ hq₂ g₁ g₂
  oneMutex t₁ t₂ pc₁ pc₂ did m₁ m₂ h₁ h₂ w₁ w₂ := by
    obtain ⟨q₁, hq₁, w₁⟩ := hw t₁ pc₁ _ h₁ w₁
    obtain ⟨q₂, hq₂, w₂⟩ := hw t₂ pc₂ _ h₂ w₂
    exact h.oneMutex t₁ t₂ q₁ q₂ did m₁ m₂ hq₁ hq₂ w₁ w₂
  current t pc did m m' ht w hm' := by
    obtain ⟨q, hq, w⟩ := hw t pc _ ht w
    exact h.current t q did m m' hq w (hl did m' hm')

/-- The same for one task that moves from `pc₀` to `pc`. -/
theorem LockInv.move {s t : LockState} {task : Nat} {pc₀ pc : LockTask} (h : LockInv s)
    (h₀ : s.tasks.lookup task = some pc₀) (ht : t.tasks = s.tasks.insert task pc)
    (hl : t.locks = s.locks) (hw : pc.wants = pc₀.wants) (hg : pc.guards = pc₀.guards) :
    LockInv t := by
  refine h.mono (fun k q w hk hq => ?_) (fun k q m hk hq => ?_) (fun did m hm => hl ▸ hm)
  · rw [ht] at hk
    rcases Sql.Table.lookup_insert_eq_some.1 hk with ⟨rfl, rfl⟩ | ⟨-, hk⟩
    · exact ⟨pc₀, h₀, hw ▸ hq⟩
    · exact ⟨q, hk, hq⟩
  · rw [ht] at hk
    rcases Sql.Table.lookup_insert_eq_some.1 hk with ⟨rfl, rfl⟩ | ⟨-, hk⟩
    · exact ⟨pc₀, h₀, hg ▸ hq⟩
    · exact ⟨q, hk, hq⟩

/-- The same for a task that turns to something without a lock. -/
theorem LockInv.idle {s t : LockState} {task : Nat} {pc : LockTask} (h : LockInv s)
    (ht : t.tasks = s.tasks.insert task pc) (hw : pc.wants = none) (hg : pc.guards = none)
    (hl : ∀ did m, t.locks.lookup did = some m → s.locks.lookup did = some m) : LockInv t := by
  refine h.mono (fun k q w hk hq => ?_) (fun k q m hk hq => ?_) hl
  · rw [ht] at hk
    rcases Sql.Table.lookup_insert_eq_some.1 hk with ⟨-, rfl⟩ | ⟨-, hk⟩
    · rw [hw] at hq; cases hq
    · exact ⟨q, hk, hq⟩
  · rw [ht] at hk
    rcases Sql.Table.lookup_insert_eq_some.1 hk with ⟨-, rfl⟩ | ⟨-, hk⟩
    · rw [hg] at hq; cases hq
    · exact ⟨q, hk, hq⟩

theorem LockInv.forget {s t : LockState} {task : Nat} (h : LockInv s)
    (ht : t.tasks = s.tasks.erase task) (hl : t.locks = s.locks) : LockInv t := by
  have hk : ∀ k pc, t.tasks.lookup k = some pc → s.tasks.lookup k = some pc := by
    intro k pc hk
    rw [ht] at hk
    exact (Sql.Table.lookup_erase_eq_some.1 hk).2
  exact h.mono (fun k q w hq hw => ⟨q, hk k q hq, hw⟩) (fun k q m hq hg => ⟨q, hk k q hq, hg⟩)
    (fun did m hm => hl ▸ hm)

theorem lockInv_acquire {s t : LockState} {task : Nat} (h : LockInv s)
    (hs : lockStep s (.acquire task) = some t) : LockInv t := by
  simp only [lockStep] at hs
  split at hs
  case h_2 => cases hs
  rename_i did mutex h₀
  split at hs
  case isFalse => cases hs
  rename_i hfree
  cases hs
  have hothers := LockState.free_iff.1 hfree
  have hk : ∀ k pc, (s.goto task (.locked did mutex)).tasks.lookup k = some pc →
      (k = task ∧ pc = .locked did mutex) ∨ (k ≠ task ∧ s.tasks.lookup k = some pc) := by
    intro k pc hk
    exact (Sql.Table.lookup_insert_eq_some.1 hk).imp_left fun h => ⟨h.1, h.2.symm⟩
  refine ⟨fun t₁ t₂ pc₁ pc₂ m h₁ h₂ g₁ g₂ => ?_, fun t₁ t₂ pc₁ pc₂ d m₁ m₂ h₁ h₂ w₁ w₂ => ?_,
    fun k pc d m m' hk' w hm' => ?_⟩
  · rcases hk t₁ pc₁ h₁ with ⟨e₁, rfl⟩ | ⟨-, k₁⟩ <;> rcases hk t₂ pc₂ h₂ with ⟨e₂, rfl⟩ | ⟨-, k₂⟩
    · rw [e₁, e₂]
    · cases g₁; exact absurd g₂ (hothers t₂ pc₂ k₂)
    · cases g₂; exact absurd g₁ (hothers t₁ pc₁ k₁)
    · exact h.oneGuard t₁ t₂ pc₁ pc₂ m k₁ k₂ g₁ g₂
  · -- the task wants what it wanted before
    have hw : ∀ k pc, (s.goto task (.locked did mutex)).tasks.lookup k = some pc →
        ∃ pc₀, s.tasks.lookup k = some pc₀ ∧ pc₀.wants = pc.wants := fun k pc hk' => by
      rcases hk k pc hk' with ⟨rfl, rfl⟩ | ⟨-, hk'⟩
      · exact ⟨_, h₀, rfl⟩
      · exact ⟨pc, hk', rfl⟩
    obtain ⟨q₁, hq₁, e₁⟩ := hw t₁ pc₁ h₁
    obtain ⟨q₂, hq₂, e₂⟩ := hw t₂ pc₂ h₂
    exact h.oneMutex t₁ t₂ q₁ q₂ d m₁ m₂ hq₁ hq₂ (e₁ ▸ w₁) (e₂ ▸ w₂)
  · rcases hk k pc hk' with ⟨rfl, rfl⟩ | ⟨-, hk'⟩
    · exact h.current k _ d m m' h₀ w hm'
    · exact h.current k pc d m m' hk' w hm'

/-- What `did_lock` hands out: the mutex of the map, or one of its own. -/
theorem didLock_cases (s : LockState) (did : String) :
    (∃ mutex, s.locks.lookup did = some mutex ∧ didLock s did = (mutex, s)) ∨
    (s.locks.lookup did = none ∧ didLock s did = (s.nextMutex,
      { s with locks := s.locks.insert did s.nextMutex, nextMutex := s.nextMutex + 1 })) := by
  unfold didLock
  cases hl : s.locks.lookup did with
  | some mutex => exact .inl ⟨mutex, rfl, rfl⟩
  | none => exact .inr ⟨rfl, rfl⟩

theorem lockInv_transact {s t : LockState} {task : Nat} {did : String} (h : LockInv s)
    (hC : NoStaleLock s (.transact task did)) (hs : lockStep s (.transact task did) = some t) :
    LockInv t := by
  simp only [lockStep] at hs
  split at hs
  case isFalse => cases hs
  cases hs
  -- the mutex the task gets is that of every other task at the DID
  obtain ⟨mutex, s', hd, htasks, hmap, hrest, hsame⟩ : ∃ mutex s', didLock s did = (mutex, s') ∧
      s'.tasks = s.tasks ∧ s'.locks.lookup did = some mutex ∧
      (∀ d ≠ did, s'.locks.lookup d = s.locks.lookup d) ∧
      (∀ k pc m, s.tasks.lookup k = some pc → pc.wants = some (did, m) → m = mutex) := by
    rcases didLock_cases s did with ⟨mutex, hl, hd⟩ | ⟨hl, hd⟩
    · exact ⟨mutex, s, hd, rfl, hl, fun _ _ => rfl,
        fun k pc m hk hw => (h.current k pc did m mutex hk hw hl).symm⟩
    · refine ⟨_, _, hd, rfl, Finmap.lookup_insert _, fun d hne => ?_,
        fun k pc m hk hw => absurd hw (hC hl k pc hk m)⟩
      rw [Sql.Table.lookup_insert_eq, if_neg hne]
  rw [hd]
  have hk : ∀ k pc, (s'.goto task (.waiting did mutex)).tasks.lookup k = some pc →
      pc = .waiting did mutex ∨ s.tasks.lookup k = some pc := by
    intro k pc hk
    rw [LockState.goto, htasks] at hk
    exact (Sql.Table.lookup_insert_eq_some.1 hk).imp (fun h => h.2.symm) And.right
  refine ⟨fun t₁ t₂ pc₁ pc₂ m h₁ h₂ g₁ g₂ => ?_, fun t₁ t₂ pc₁ pc₂ d m₁ m₂ h₁ h₂ w₁ w₂ => ?_,
    fun k pc d m m' hpc w hm' => ?_⟩
  · rcases hk t₁ pc₁ h₁ with rfl | k₁
    · cases g₁
    rcases hk t₂ pc₂ h₂ with rfl | k₂
    · cases g₂
    exact h.oneGuard t₁ t₂ pc₁ pc₂ m k₁ k₂ g₁ g₂
  · rcases hk t₁ pc₁ h₁ with rfl | k₁ <;> rcases hk t₂ pc₂ h₂ with rfl | k₂
    · cases w₁; cases w₂; rfl
    · cases w₁; exact (hsame t₂ pc₂ m₂ k₂ w₂).symm
    · cases w₂; exact hsame t₁ pc₁ m₁ k₁ w₁
    · exact h.oneMutex t₁ t₂ pc₁ pc₂ d m₁ m₂ k₁ k₂ w₁ w₂
  · change s'.locks.lookup d = some m' at hm'
    by_cases hd' : d = did
    · subst hd'
      rw [hmap] at hm'
      cases hm'
      rcases hk k pc hpc with rfl | k₁
      · cases w; rfl
      · exact (hsame k pc m k₁ w).symm
    · rcases hk k pc hpc with rfl | k₁
      · cases w; exact absurd rfl hd'
      · exact h.current k pc d m m' k₁ w (hrest d hd' ▸ hm')

theorem lockInv_step (s : LockState) (a : LockStep) (t : LockState) (h : LockInv s)
    (hC : NoStaleLock s a) (hs : lockStep s a = some t) : LockInv t := by
  cases a with
  | transact task did => exact lockInv_transact h hC hs
  | acquire task => exact lockInv_acquire h hs
  | openDb task =>
    simp only [lockStep] at hs
    split at hs
    case h_2 => cases hs
    rename_i did mutex h₀
    split at hs
    · cases hs; exact h.move h₀ rfl rfl rfl rfl
    split at hs
    · cases hs; exact h.move h₀ rfl rfl rfl rfl
    · cases hs
  | cachePut task =>
    simp only [lockStep] at hs
    split at hs
    case h_2 => cases hs
    rename_i did mutex h₀
    cases hs
    exact h.move h₀ rfl rfl rfl rfl
  | keypair task =>
    simp only [lockStep] at hs
    split at hs
    case h_2 => cases hs
    rename_i did mutex h₀
    split at hs
    · cases hs; exact h.move h₀ rfl rfl rfl rfl
    · cases hs
  | release task => cases hs; exact h.forget rfl rfl
  | create did =>
    simp only [lockStep] at hs
    split at hs
    · cases hs
    · cases hs; exact ⟨h.oneGuard, h.oneMutex, h.current⟩
  | destroy task did =>
    simp only [lockStep] at hs
    split at hs
    · cases hs; exact h.idle rfl rfl rfl fun _ _ hm => hm
    · cases hs
  | removeLock task =>
    simp only [lockStep] at hs
    split at hs
    case h_2 => cases hs
    rename_i did h₀
    cases hs
    refine h.idle rfl rfl rfl fun d m hm => ?_
    exact (Sql.Table.lookup_erase_eq_some.1 hm).2
  | removeDir task =>
    simp only [lockStep] at hs
    split at hs
    · cases hs; exact h.forget rfl rfl
    · cases hs
  | evict did => cases hs; exact ⟨h.oneGuard, h.oneMutex, h.current⟩

/-- **At most one transactor per DID holds a guard, in every run in which no `transact` gets a new
mutex while an older one of its DID is still in use.** -/
theorem oneTransactor_of_noStaleLock (files : Finset String) (as : List LockStep)
    (h : Runs.Along lockStep NoStaleLock (.start files) as) :
    Runs.Always lockStep OneTransactor (.start files) as := by
  have hall := Runs.always_of_along lockInv_step (lockInv_start files) as h
  exact hall.mono fun _ hs => hs.oneTransactor

instance (s : LockState) : ∀ a, Decidable (NoStaleLock s a)
  | .transact _ did => decidable_of_iff
      (s.locks.lookup did = none → ∀ e ∈ s.tasks.entries, e.2.wants.map Prod.fst ≠ some did) <| by
    refine imp_congr_right fun _ => ⟨fun h t pc ht m hw => ?_, fun h e he hw => ?_⟩
    · exact h ⟨t, pc⟩ (Finmap.lookup_eq_some_iff.1 ht) (by simp [hw])
    · obtain ⟨⟨d, m⟩, hdm, rfl⟩ := Option.map_eq_some_iff.1 hw
      exact h e.1 e.2 (Finmap.lookup_eq_some_iff.2 he) m hdm
  | .acquire _ | .openDb _ | .cachePut _ | .keypair _ | .release _ | .create _ | .destroy .. |
    .removeLock _ | .removeDir _ | .evict _ => isTrue trivial

/-- Two tasks in turn, and a destroy after them. -/
theorem oneTransactor_in_turn :
    Runs.Always lockStep OneTransactor (.start {"did:plc:a"})
      [.transact 1 "did:plc:a", .acquire 1, .openDb 1, .cachePut 1, .keypair 1,
        .transact 3 "did:plc:a", .release 1, .acquire 3, .openDb 3, .keypair 3, .release 3,
        .destroy 2 "did:plc:a", .removeLock 2, .removeDir 2] :=
  oneTransactor_of_noStaleLock _ _ (by decide)

/-! ## Without a destroy -/

/-- A step on the way to a transactor, or the cache's own. -/
def LockStep.isTransact : LockStep → Bool
  | .transact .. | .acquire _ | .openDb _ | .cachePut _ | .keypair _ | .evict _ => true
  | _ => false

/-- What such a step does to the tasks and the map. -/
inductive TransactStep (s t : LockState) : Prop
  | queue (task : Nat) (did : String) (mutex : Nat) (hnew : s.tasks.lookup task = none)
      (ht : t.tasks = s.tasks.insert task (.waiting did mutex)) (hdid : t.locks.lookup did ≠ none)
      (hrest : ∀ d, s.locks.lookup d ≠ none → t.locks.lookup d ≠ none)
  | move (task : Nat) (pc₀ pc : LockTask) (h₀ : s.tasks.lookup task = some pc₀)
      (hbusy : ∀ did m, pc₀ ≠ .holding did m) (ht : t.tasks = s.tasks.insert task pc)
      (hw : pc.wants = pc₀.wants) (hl : t.locks = s.locks)
  | idle (ht : t.tasks = s.tasks) (hl : t.locks = s.locks)

theorem transactStep_of_lockStep {s t : LockState} {a : LockStep} (ha : a.isTransact = true)
    (hs : lockStep s a = some t) : TransactStep s t := by
  cases a with
  | transact task did =>
    simp only [lockStep, Option.ite_none_right_eq_some, Option.some.injEq] at hs
    obtain ⟨hnew, rfl⟩ := hs
    obtain ⟨mutex, hl, hd⟩ | ⟨hl, hd⟩ := didLock_cases s did
    · refine .queue task did mutex hnew (by rw [hd]; rfl) ?_ fun d h => ?_
      · simp [hd, LockState.goto, hl]
      · simpa [hd, LockState.goto] using h
    · refine .queue task did s.nextMutex hnew (by rw [hd]; rfl) ?_ fun d h => ?_
      · simp [hd, LockState.goto]
      · simp only [hd, LockState.goto, Sql.Table.lookup_insert_eq]
        split
        · exact Option.some_ne_none _
        · exact h
  | acquire task =>
    simp only [lockStep] at hs
    split at hs
    case h_2 => cases hs
    rename_i did mutex h₀
    split at hs
    · cases hs; exact .move task _ _ h₀ nofun rfl rfl rfl
    · cases hs
  | openDb task =>
    simp only [lockStep] at hs
    split at hs
    case h_2 => cases hs
    rename_i did mutex h₀
    split at hs
    · cases hs; exact .move task _ _ h₀ nofun rfl rfl rfl
    split at hs
    · cases hs; exact .move task _ _ h₀ nofun rfl rfl rfl
    · cases hs
  | cachePut task =>
    simp only [lockStep] at hs
    split at hs
    case h_2 => cases hs
    rename_i did mutex h₀
    cases hs
    exact .move task _ _ h₀ nofun rfl rfl rfl
  | keypair task =>
    simp only [lockStep] at hs
    split at hs
    case h_2 => cases hs
    rename_i did mutex h₀
    split at hs
    · cases hs; exact .move task _ _ h₀ nofun rfl rfl rfl
    · cases hs
  | evict did => cases hs; exact .idle rfl rfl
  | _ => cases ha

/-- The locks while nothing is destroyed: every mutex that a task wants is in the map. -/
structure Guarded (s : LockState) : Prop where
  inv : LockInv s
  mapped : ∀ k pc did m, s.tasks.lookup k = some pc → pc.wants = some (did, m) →
    s.locks.lookup did ≠ none

theorem guarded_start (files : Finset String) : Guarded (.start files) :=
  ⟨lockInv_start files, fun _ _ _ _ hk => by cases hk⟩

/-- `transact` never finds the entry gone while somebody is at the mutex. -/
theorem Guarded.noStaleLock {s : LockState} (h : Guarded s) (a : LockStep) : NoStaleLock s a := by
  cases a with
  | transact task did => exact fun hl k pc hk m hw => h.mapped k pc did m hk hw hl
  | _ => trivial

theorem guarded_lockStep {s t : LockState} {a : LockStep} (h : Guarded s) (ha : a.isTransact = true)
    (hs : lockStep s a = some t) : Guarded t := by
  refine ⟨lockInv_step s a t h.inv (h.noStaleLock a) hs, fun k pc did m hk hw => ?_⟩
  cases transactStep_of_lockStep ha hs with
  | queue task d mutex hnew ht hdid hrest =>
    rw [ht] at hk
    rcases Sql.Table.lookup_insert_eq_some.1 hk with ⟨-, rfl⟩ | ⟨-, hk⟩
    · cases hw
      exact hdid
    · exact hrest did (h.mapped k pc did m hk hw)
  | move task pc₀ pc' h₀ hbusy ht hw' hl =>
    rw [hl]
    rw [ht] at hk
    rcases Sql.Table.lookup_insert_eq_some.1 hk with ⟨-, rfl⟩ | ⟨-, hk⟩
    · exact h.mapped task pc₀ did m h₀ (hw' ▸ hw)
    · exact h.mapped k pc did m hk hw
  | idle ht hl =>
    rw [hl]
    exact h.mapped k pc did m (ht ▸ hk) hw

theorem Guarded.release {s : LockState} (h : Guarded s) (task : Nat) :
    Guarded { s with tasks := s.tasks.erase task } := by
  refine ⟨h.inv.forget rfl rfl, fun k q did m hk hq => ?_⟩
  exact h.mapped k q did m (Sql.Table.lookup_erase_eq_some.1 hk).2 hq

/-- Whoever has a transactor keeps it through the steps of the others. -/
theorem holding_lockStep {s t : LockState} {a : LockStep} (ha : a.isTransact = true)
    (hs : lockStep s a = some t) {k m : Nat} {did : String}
    (h : s.tasks.lookup k = some (.holding did m)) : t.tasks.lookup k = some (.holding did m) := by
  cases transactStep_of_lockStep ha hs with
  | queue task d mutex hnew ht hdid hrest =>
    rw [ht, Sql.Table.lookup_insert_eq, if_neg, h]
    rintro rfl
    rw [h] at hnew
    cases hnew
  | move task pc₀ pc h₀ hbusy ht hw hl =>
    rw [ht, Sql.Table.lookup_insert_eq, if_neg, h]
    rintro rfl
    rw [h] at h₀
    cases h₀
    exact hbusy did m rfl
  | idle ht hl => rw [ht, h]

/-! ## A destroy under a transaction -/

/-- A transactor that holds an old mutex does not keep a second one out: once its DID has no entry in
the map and the files are still there, the next `transact` goes through. -/
theorem transact_past_holder {s : LockState} {t₁ t₂ m₁ : Nat} {did : String}
    (hhold : s.tasks.lookup t₁ = some (.holding did m₁)) (hfresh : s.tasks.lookup t₂ = none)
    (hlock : s.locks.lookup did = none) (hmutex : s.free s.nextMutex) (hcache : did ∉ s.cache)
    (hfile : did ∈ s.files) :
    ∃ t, Runs.run lockStep s
        [.transact t₂ did, .acquire t₂, .openDb t₂, .cachePut t₂, .keypair t₂] = some t ∧
      ¬ OneTransactor t := by
  have hne : t₁ ≠ t₂ := by
    rintro rfl
    rw [hfresh] at hhold
    cases hhold
  obtain ⟨s₁, h₁, hs₁, hc₁, hf₁, hfree₁⟩ : ∃ s₁, lockStep s (.transact t₂ did) = some s₁ ∧
      s₁.tasks = s.tasks.insert t₂ (.waiting did s.nextMutex) ∧ s₁.cache = s.cache ∧
      s₁.files = s.files ∧ s₁.free s.nextMutex := by
    refine ⟨_, by simp only [lockStep, hfresh, if_true]; rfl, ?_, ?_, ?_, ?_⟩
    · simp [LockState.goto, didLock, hlock]
    · simp [LockState.goto, didLock, hlock]
    · simp [LockState.goto, didLock, hlock]
    · refine LockState.free_iff.2 fun k pc hk => ?_
      simp only [LockState.goto, didLock, hlock, Sql.Table.lookup_insert_eq] at hk
      split at hk
      · cases hk; rintro ⟨⟩
      · exact LockState.free_iff.1 hmutex k pc hk
  have h₂ : lockStep s₁ (.acquire t₂) = some (s₁.goto t₂ (.locked did s.nextMutex)) := by
    simp [lockStep, hs₁, hfree₁]
  have h₃ : lockStep (s₁.goto t₂ (.locked did s.nextMutex)) (.openDb t₂) =
      some ((s₁.goto t₂ (.locked did s.nextMutex)).goto t₂ (.opening did s.nextMutex)) := by
    simp [lockStep, LockState.goto, hc₁, hf₁, hcache, hfile]
  refine ⟨_, by
    rw [Runs.run_cons, h₁, Option.bind_some, Runs.run_cons, h₂, Option.bind_some, Runs.run_cons, h₃]
    simp [Runs.run, lockStep, LockState.goto, hf₁, hfile]
    rfl, fun hone => hne ?_⟩
  refine hone t₁ t₂ did m₁ s.nextMutex ?_ ?_
  · simp [hs₁, Finmap.lookup_insert_of_ne _ hne, hhold]
  · simp

/-- One actor on disk: a task has its transactor, `destroy` takes the lock entry away, and a second
task gets a transactor before the files go. -/
theorem oneTransactor_fails_under_destroy :
    ¬ Runs.Always lockStep OneTransactor (.start {"did:plc:a"})
      [.transact 1 "did:plc:a", .acquire 1, .openDb 1, .cachePut 1, .keypair 1,
        .destroy 2 "did:plc:a", .removeLock 2,
        .transact 3 "did:plc:a", .acquire 3, .openDb 3, .cachePut 3, .keypair 3] := by
  intro h
  obtain ⟨s, hs, h₁, h₃⟩ : ∃ s, Runs.run lockStep (.start {"did:plc:a"})
      [.transact 1 "did:plc:a", .acquire 1, .openDb 1, .cachePut 1, .keypair 1,
        .destroy 2 "did:plc:a", .removeLock 2,
        .transact 3 "did:plc:a", .acquire 3, .openDb 3, .cachePut 3, .keypair 3] = some s ∧
      s.tasks.lookup 1 = some (.holding "did:plc:a" 0) ∧
      s.tasks.lookup 3 = some (.holding "did:plc:a" 1) := ⟨_, rfl, by decide, by decide⟩
  exact absurd (h.last hs 1 3 _ 0 1 h₁ h₃) (by decide)

end CacosPds.ActorStore
