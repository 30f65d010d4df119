import CacosPds.Lib.Run
import CacosPds.Lib.Table
import CacosPds.Types.Basic
/-!
# Open handles of one DID (`cacos-pds-actor-store/src/mod.rs:309-491`)

| here | there |
| --- | --- |
| `HandleTask.entering` … `opened` | `open_db` (`mod.rs:309`), for `read`, `get_repo_root` and `transact` |
| `HandleTask.keying`              | `reader.keypair()` of `transact` (`mod.rs:398`) |
| `HandleTask.creating` … `created` | `create` (`mod.rs:406`) |
| `HandleTask.popped`, `removing`  | `destroy` (`mod.rs:452`) |

`open_db` looks at the cache, at the file, and puts a handle into the cache in separate steps, and none
of them is under the DID's lock in `destroy`. A database is opened with `mode=rwc`, which makes the
file where the directory is there (`db/mod.rs:43`). One cache entry and one directory are the DID's.
-/
namespace CacosPds.ActorStore

/-- Where a call stands; `transacts` is `transact`, and `late` a call that started after a `destroy`
had returned, with no `create` since. -/
inductive HandleTask where
  /-- `transact` waits for the lock; the look at the cache is next. -/
  | entering (transacts late : Bool)
  /-- No cached handle; `try_exists` is next. -/
  | checking (transacts late : Bool)
  /-- The file was there; opening it is next. -/
  | opening (transacts late : Bool)
  /-- `cache.put` is next. -/
  | opened (transacts late : Bool)
  /-- `transact` has its handle; the key is next. -/
  | keying (late : Bool)
  /-- The directory is made; `try_exists` is next. -/
  | creating
  /-- The key file is next. -/
  | writingKey
  /-- The database is next. -/
  | creatingDb
  /-- `cache.put` is next. -/
  | created
  /-- The cache entry is gone; `try_exists` of the directory is next. -/
  | popped
  /-- `remove_dir_all` is next. -/
  | removing
  deriving DecidableEq

def HandleTask.late : HandleTask → Bool
  | .entering _ late | .checking _ late | .opening _ late | .opened _ late | .keying late => late
  | _ => false

/-- The call counts as one that a `create` came after. -/
def HandleTask.notLate : HandleTask → HandleTask
  | .entering transacts _ => .entering transacts false
  | .checking transacts _ => .checking transacts false
  | .opening transacts _ => .opening transacts false
  | .opened transacts _ => .opened transacts false
  | .keying _ => .keying false
  | t => t

/-- `destroy`, past its `cache.pop`. -/
def HandleTask.destroys (t : HandleTask) : Bool := t = .popped || t = .removing

/-- A step of the call can fail, other than by what it looks at. -/
def HandleTask.mayFail : HandleTask → Bool
  | .opening _ _ | .creating | .writingKey | .creatingDb | .popped | .removing => true
  | _ => false

structure HandleState where
  /-- The actor's directory, its `store.sqlite` and its `key`. -/
  dir : Bool
  disk : Bool
  key : Bool
  /-- The LRU cache has a handle of the DID. -/
  cache : Bool
  /-- A `destroy` has returned, and no `create` has started since. -/
  destroyed : Bool
  tasks : Sql.Table Nat HandleTask
  /-- What `read` and `transact` calls got, with whether they were late. -/
  answers : List (Bool × Except PdsError Unit)

/-- A new `ActorStore`, the DID's files as they are. -/
def HandleState.start (onDisk : Bool) : HandleState := ⟨onDisk, onDisk, onDisk, false, false, ∅, []⟩

inductive HandleStep where
  /-- `read` or `get_repo_root`. -/
  | read (task : Nat)
  | transact (task : Nat)
  | create (task : Nat)
  | destroy (task : Nat)
  /-- A call goes one step on. -/
  | go (task : Nat)
  /-- A call fails. -/
  | fail (task : Nat)
  /-- The LRU cache drops the handle. -/
  | evict

variable (did : String)

def HandleState.goto (s : HandleState) (task : Nat) (t : HandleTask) : HandleState :=
  { s with tasks := s.tasks.insert task t }

def HandleState.finish (s : HandleState) (task : Nat) : HandleState :=
  { s with tasks := s.tasks.erase task }

/-- The call ends with an answer. -/
def HandleState.answer (s : HandleState) (task : Nat) (late : Bool) (r : Except PdsError Unit) :
    HandleState :=
  { s with tasks := s.tasks.erase task, answers := s.answers ++ [(late, r)] }

/-- `open_db` has a handle: `read` is done, `transact` goes on to its key. -/
def HandleState.gotHandle (s : HandleState) (task : Nat) (transacts late : Bool) : HandleState :=
  if transacts then s.goto task (.keying late) else s.answer task late (.ok ())

/-- One step of a call. -/
def HandleTask.next (s : HandleState) (task : Nat) : HandleTask → HandleState
  | .entering transacts late =>
    if s.cache then s.gotHandle task transacts late else s.goto task (.checking transacts late)
  | .checking transacts late =>
    if s.disk then s.goto task (.opening transacts late)
    else s.answer task late (.error (.notFound ("Repo not found: " ++ did)))
  | .opening transacts late =>
    if s.dir then { s with disk := true }.goto task (.opened transacts late)
    else s.answer task late (.error (.database "unable to open database file"))
  | .opened transacts late => { s with cache := true }.gotHandle task transacts late
  | .keying late =>
    s.answer task late (if s.key then .ok () else .error (.notFound ("keypair for " ++ did)))
  | .creating => if s.disk then s.finish task else s.goto task .writingKey
  | .writingKey => if s.dir then { s with key := true }.goto task .creatingDb else s.finish task
  | .creatingDb => if s.dir then { s with disk := true }.goto task .created else s.finish task
  | .created => { s with cache := true }.finish task
  | .popped => if s.dir then s.goto task .removing else { s with destroyed := true }.finish task
  | .removing => { s with dir := false, disk := false, key := false, destroyed := true }.finish task

def handleStep (s : HandleState) : HandleStep → Option HandleState
  | .read task =>
    if task ∈ s.tasks then none else some (s.goto task (.entering false s.destroyed))
  | .transact task =>
    if task ∈ s.tasks then none else some (s.goto task (.entering true s.destroyed))
  | .create task =>
    if task ∈ s.tasks then none
    else some ({ s with dir := true, destroyed := false,
                        tasks := s.tasks.updateRows HandleTask.notLate }.goto task .creating)
  | .destroy task =>
    if task ∈ s.tasks then none else some ({ s with cache := false }.goto task .popped)
  | .go task => (s.tasks.lookup task).map fun t => t.next did s task
  | .fail task =>
    match s.tasks.lookup task with
    | some t => if t.mayFail then some (s.finish task) else none
    | none => none
  | .evict => some { s with cache := false }

/-- Every late call got `NotFound`, and between a `destroy` and the next `create` the cache has no
handle. -/
def StaysDestroyed (s : HandleState) : Prop :=
  (∀ a ∈ s.answers, a.1 = true → ∃ what, a.2 = .error (.notFound what)) ∧
    (s.destroyed = true → s.cache = false)

/-- No `destroy` of the DID is past its `cache.pop`, and none has returned without a `create` since. -/
def HandleState.settled (s : HandleState) : Bool :=
  !s.destroyed && !s.tasks.anyRow fun _ t => t.destroys

/-- The condition on a step that puts a handle into the cache. -/
def putsSettled (s : HandleState) : HandleStep → Bool
  | .go task =>
    match s.tasks.lookup task with
    | some (.opened _ _) | some .created => s.settled
    | _ => true
  | _ => true

structure HandleInv (s : HandleState) : Prop where
  answered : ∀ a ∈ s.answers, a.1 = true → ∃ what, a.2 = .error (.notFound what)
  gone : s.destroyed = true → s.cache = false ∧ s.dir = false
  onDisk : s.disk = true → s.dir = true
  unCached : ∀ task t, s.tasks.lookup task = some t → t.destroys = true → s.cache = false
  /-- A late call has no handle and has seen no file. -/
  late : ∀ task t, s.tasks.lookup task = some t → t.late = true →
    s.destroyed = true ∧ ∃ transacts, t = .entering transacts true ∨ t = .checking transacts true

/-! ### The parts of a step -/

variable {did} {s t : HandleState} {task : Nat}

theorem handleInv_start (onDisk : Bool) : HandleInv (.start onDisk) where
  answered a ha := absurd ha List.not_mem_nil
  gone h := by cases h
  onDisk h := h
  unCached task t ht := by cases ht
  late task t ht := by cases ht

theorem HandleInv.goto (h : HandleInv s) {u : HandleTask} (hd : u.destroys = true → s.cache = false)
    (hl : u.late = true → s.destroyed = true ∧
      ∃ transacts, u = .entering transacts true ∨ u = .checking transacts true) :
    HandleInv (s.goto task u) := by
  refine ⟨h.answered, h.gone, h.onDisk, fun j v hv hdv => ?_, fun j v hv hlv => ?_⟩
  · rcases Sql.Table.lookup_insert_eq_some.1 hv with ⟨-, rfl⟩ | ⟨-, hv⟩
    · exact hd hdv
    · exact h.unCached j v hv hdv
  · rcases Sql.Table.lookup_insert_eq_some.1 hv with ⟨-, rfl⟩ | ⟨-, hv⟩
    · exact hl hlv
    · exact h.late j v hv hlv

theorem HandleInv.finish (h : HandleInv s) : HandleInv (s.finish task) := by
  have hold : ∀ j v, (s.tasks.erase task).lookup j = some v → s.tasks.lookup j = some v := by
    intro j v hv
    exact (Sql.Table.lookup_erase_eq_some.1 hv).2
  exact ⟨h.answered, h.gone, h.onDisk, fun j v hv => h.unCached j v (hold j v hv),
    fun j v hv => h.late j v (hold j v hv)⟩

theorem HandleInv.answer (h : HandleInv s) {late : Bool} {r : Except PdsError Unit}
    (hr : late = true → ∃ what, r = .error (.notFound what)) : HandleInv (s.answer task late r) := by
  have hfin : HandleInv (s.finish task) := h.finish
  refine ⟨fun a ha hla => ?_, hfin.gone, hfin.onDisk, hfin.unCached, hfin.late⟩
  rcases List.mem_append.1 ha with ha | ha
  · exact h.answered a ha hla
  · rw [List.mem_singleton] at ha
    subst ha
    exact hr hla

/-- A handle is handed to calls only that were not late. -/
theorem HandleInv.gotHandle (h : HandleInv s) (transacts : Bool) :
    HandleInv (s.gotHandle task transacts false) := by
  cases transacts
  · exact h.answer (by rintro ⟨⟩)
  · exact h.goto (by rintro ⟨⟩) (by rintro ⟨⟩)

theorem HandleInv.withDisk (h : HandleInv s) (hdir : s.dir = true) :
    HandleInv { s with disk := true } :=
  ⟨h.answered, h.gone, fun _ => hdir, h.unCached, h.late⟩

theorem HandleInv.withKey (h : HandleInv s) : HandleInv { s with key := true } :=
  ⟨h.answered, h.gone, h.onDisk, h.unCached, h.late⟩

theorem HandleInv.unCache (h : HandleInv s) : HandleInv { s with cache := false } :=
  ⟨h.answered, fun hd => ⟨rfl, (h.gone hd).2⟩, h.onDisk, fun _ _ _ _ => rfl, h.late⟩

/-- A handle may go into the cache when no `destroy` is about. -/
theorem HandleInv.withCache (h : HandleInv s) (hset : s.settled = true) :
    HandleInv { s with cache := true } := by
  rw [HandleState.settled, Bool.and_eq_true, Bool.not_eq_true', Bool.not_eq_true',
    Sql.Table.anyRow_eq_false] at hset
  obtain ⟨hlive, hnone⟩ := hset
  refine ⟨h.answered, fun hd => ?_, h.onDisk, fun j v hv hdv => ?_, h.late⟩
  · rw [hlive] at hd
    cases hd
  · rw [hnone j v hv] at hdv
    cases hdv

theorem HandleInv.destroy (h : HandleInv s) (hc : s.cache = false) {dir disk key : Bool}
    (hdir : dir = false) (hdisk : disk = true → dir = true) :
    HandleInv { s with dir := dir, disk := disk, key := key, destroyed := true } :=
  ⟨h.answered, fun _ => ⟨hc, hdir⟩, hdisk, h.unCached, fun j v hv hl => ⟨rfl, (h.late j v hv hl).2⟩⟩

theorem notLate_destroys (u : HandleTask) : u.notLate.destroys = u.destroys := by
  cases u <;> rfl

theorem late_notLate (u : HandleTask) : u.notLate.late = false := by
  cases u <;> rfl

theorem HandleInv.create (h : HandleInv s) :
    HandleInv { s with dir := true, destroyed := false,
                       tasks := s.tasks.updateRows HandleTask.notLate } := by
  have hold : ∀ j v, (s.tasks.updateRows HandleTask.notLate).lookup j = some v →
      ∃ u, s.tasks.lookup j = some u ∧ u.notLate = v := by
    intro j v hv
    rw [Sql.Table.lookup_updateRows] at hv
    exact Option.map_eq_some_iff.1 hv
  refine ⟨h.answered, by rintro ⟨⟩, fun _ => rfl, fun j v hv hdv => ?_, fun j v hv hlv => ?_⟩
  · obtain ⟨u, hu, rfl⟩ := hold j v hv
    exact h.unCached j u hu (notLate_destroys u ▸ hdv)
  · obtain ⟨u, hu, rfl⟩ := hold j v hv
    rw [late_notLate] at hlv
    cases hlv

/-! ### The steps -/

/-- A late call finds no handle and no file, and gets `NotFound`. -/
theorem handleInv_go (h : HandleInv s) {u : HandleTask} (hu : s.tasks.lookup task = some u)
    (hput : putsSettled s (.go task) = true) : HandleInv (u.next did s task) := by
  have hlate := h.late task u hu
  have hun := h.unCached task u hu
  simp only [putsSettled, hu] at hput
  cases u with
  | entering transacts late =>
    simp only [HandleTask.next]
    by_cases hc : s.cache = true
    · rw [if_pos hc]
      cases late with
      | false => exact h.gotHandle transacts
      | true =>
        have := (h.gone (hlate rfl).1).1
        rw [hc] at this
        cases this
    · rw [if_neg hc]
      refine h.goto (by rintro ⟨⟩) fun hl => ⟨(hlate hl).1, transacts, .inr ?_⟩
      exact congrArg (HandleTask.checking transacts) hl
  | checking transacts late =>
    simp only [HandleTask.next]
    by_cases hd : s.disk = true
    · rw [if_pos hd]
      refine h.goto (by rintro ⟨⟩) fun hl => ?_
      have := (h.gone (hlate hl).1).2
      rw [h.onDisk hd] at this
      cases this
    · rw [if_neg hd]
      exact h.answer fun _ => ⟨_, rfl⟩
  | opening transacts late =>
    have hnot : late = false := by
      by_contra hl
      obtain ⟨-, b, hb | hb⟩ := hlate (Bool.eq_true_of_not_eq_false hl) <;> cases hb
    subst hnot
    simp only [HandleTask.next]
    split
    · exact (h.withDisk ‹_›).goto (by rintro ⟨⟩) (by rintro ⟨⟩)
    · exact h.answer (by rintro ⟨⟩)
  | opened transacts late =>
    have hnot : late = false := by
      by_contra hl
      obtain ⟨-, b, hb | hb⟩ := hlate (Bool.eq_true_of_not_eq_false hl) <;> cases hb
    subst hnot
    exact (h.withCache hput).gotHandle transacts
  | keying late =>
    have hnot : late = false := by
      by_contra hl
      obtain ⟨-, b, hb | hb⟩ := hlate (Bool.eq_true_of_not_eq_false hl) <;> cases hb
    subst hnot
    exact h.answer (by rintro ⟨⟩)
  | creating =>
    simp only [HandleTask.next]
    split
    · exact h.finish
    · exact h.goto (by rintro ⟨⟩) (by rintro ⟨⟩)
  | writingKey =>
    simp only [HandleTask.next]
    split
    · exact h.withKey.goto (by rintro ⟨⟩) (by rintro ⟨⟩)
    · exact h.finish
  | creatingDb =>
    simp only [HandleTask.next]
    split
    · exact (h.withDisk ‹_›).goto (by rintro ⟨⟩) (by rintro ⟨⟩)
    · exact h.finish
  | created => exact (h.withCache hput).finish
  | popped =>
    simp only [HandleTask.next]
    by_cases hdir : s.dir = true
    · rw [if_pos hdir]
      exact h.goto (fun _ => hun rfl) (by rintro ⟨⟩)
    · rw [if_neg hdir]
      exact (h.destroy (hun rfl) (Bool.eq_false_of_not_eq_true hdir) h.onDisk).finish
  | removing => exact (h.destroy (hun rfl) rfl (by rintro ⟨⟩)).finish

theorem handleInv_step (did : String) {a : HandleStep} (h : HandleInv s)
    (hput : putsSettled s a = true) (hstep : handleStep did s a = some t) : HandleInv t := by
  cases a with
  | read task =>
    simp only [handleStep, Option.ite_none_left_eq_some, Option.some.injEq] at hstep
    obtain ⟨-, rfl⟩ := hstep
    refine h.goto (by rintro ⟨⟩) fun hl => ⟨hl, false, .inl ?_⟩
    exact congrArg (HandleTask.entering false) hl
  | transact task =>
    simp only [handleStep, Option.ite_none_left_eq_some, Option.some.injEq] at hstep
    obtain ⟨-, rfl⟩ := hstep
    refine h.goto (by rintro ⟨⟩) fun hl => ⟨hl, true, .inl ?_⟩
    exact congrArg (HandleTask.entering true) hl
  | create task =>
    simp only [handleStep, Option.ite_none_left_eq_some, Option.some.injEq] at hstep
    obtain ⟨-, rfl⟩ := hstep
    exact h.create.goto (by rintro ⟨⟩) (by rintro ⟨⟩)
  | destroy task =>
    simp only [handleStep, Option.ite_none_left_eq_some, Option.some.injEq] at hstep
    obtain ⟨-, rfl⟩ := hstep
    exact h.unCache.goto (fun _ => rfl) (by rintro ⟨⟩)
  | go task =>
    obtain ⟨u, hu, rfl⟩ := Option.map_eq_some_iff.1 hstep
    exact handleInv_go h hu hput
  | fail task =>
    simp only [handleStep] at hstep
    split at hstep
    · simp only [Option.ite_none_right_eq_some, Option.some.injEq] at hstep
      obtain ⟨-, rfl⟩ := hstep
      exact h.finish
    · cases hstep
  | evict =>
    cases hstep
    exact h.unCache

/-- **In every run that puts handles into the cache only while no `destroy` is about, a destroyed DID
stays destroyed**: calls that start after the `destroy` get `NotFound`, and no handle is in the
cache. -/
theorem staysDestroyed_of_putsSettled (did : String) (onDisk : Bool) (acts : List HandleStep)
    (h : Runs.Along (handleStep did) (fun s a => putsSettled s a = true) (.start onDisk) acts) :
    Runs.Always (handleStep did) StaysDestroyed (.start onDisk) acts :=
  (Runs.always_of_along (fun _ _ _ hs hput hstep => handleInv_step did hs hput hstep)
    (handleInv_start onDisk) acts h).mono fun _ hs => ⟨hs.answered, fun hd => (hs.gone hd).1⟩

/-! ### Two runs -/

/-- A read, a `destroy`, and a read. -/
def readDestroyRead : List HandleStep :=
  [.read 1, .go 1, .go 1, .go 1, .go 1, .destroy 2, .go 2, .go 2, .read 3, .go 3, .go 3]

theorem staysDestroyed_readDestroyRead :
    Runs.Always (handleStep "did:plc:alice") StaysDestroyed (.start true) readDestroyRead :=
  staysDestroyed_of_putsSettled "did:plc:alice" true readDestroyRead (by decide +kernel)

/-- The `destroy` comes between a read's opening of the file and its `cache.put`. -/
def destroyWithinOpen : List HandleStep :=
  [.read 1, .go 1, .go 1, .go 1, .destroy 2, .go 2, .go 2, .go 1, .read 3, .go 3]

/-- The second read starts after the `destroy` and gets the stale handle. -/
theorem stale_handle_after_destroy : ¬ ∀ did onDisk acts,
    Runs.Always (handleStep did) StaysDestroyed (.start onDisk) acts := by
  intro hall
  obtain ⟨s, hs, hgone, hcached⟩ : ∃ s ∈ Runs.run (handleStep "did:plc:alice") (.start true)
      destroyWithinOpen, s.destroyed = true ∧ s.cache = true := by
    decide +kernel
  have hclear := ((hall "did:plc:alice" true destroyWithinOpen).last hs).2 hgone
  rw [hcached] at hclear
  cases hclear

end CacosPds.ActorStore
