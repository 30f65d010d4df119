import CacosPds.ActorStore.Locks
import CacosPds.Sequencer.CommitRows
import CacosPds.Server.BlobRefs
import CacosPds.Server.RepoCalls
/-!
# The actor stores' commits in the event log (`create_record.rs:71-102` and its siblings)

| here | there |
| --- | --- |
| `Phase`         | where a handler stands once its commit is applied |
| `logStep`       | any number of requests under the per-DID locks, one step per `await` |
| `LogAgrees`     | a DID's `#commit` rows are the end of its store's chain of commits |
| `Drops`         | a request of a DID with rows ends, its commit applied and without a row |

`process_writes` applies the commit and then passes over the blobs; `sequence_commit` comes after it.
An error in between, or a client that hangs up, leaves a commit that no row tells of. The transactor
lives to the end of the handler, so the next commit of the DID comes after the row, if there is one.
-/
namespace CacosPds.Server

open Stages
open ActorStore (RepoLib Store PreparedWrite LockState LockStep Guarded lockStep CommitDataWithOps)
open Sequencer (RepoSeq RepoSeqNew RepoSeqRow LogEntry Codecs commitRows commitEntry
  commitLogEntry formatSeqCommit)

/-! ## Requests in flight -/

inductive Phase where
  /-- `process_writes` has returned the commit. -/
  | applied (commit : CommitDataWithOps)
  /-- `format_seq_commit` has made the event of it. -/
  | formatted (evt : RepoSeqNew)
  /-- The event has its id; the insert is next. -/
  | drawn (row : RepoSeqRow)

structure Writing where
  did : String
  phase : Phase

structure LogState where
  locks : LockState
  stores : String → Store
  /-- The commits that each store has applied. -/
  applied : String → List LogEntry
  /-- The tasks whose commit is applied and has no row yet. -/
  writing : Sql.Table Nat Writing
  previous : DbId
  table : RepoSeq

inductive LogStep where
  | lock (a : LockStep)
  | processWrites (task : Nat) (call : RepoCall)
  | format (task : Nat) (now : Sequencer.Instant)
  | draw (task now rnd : Nat)
  | insert (task : Nat) (err : Option String)
  /-- The request is cancelled, or could not be opened. -/
  | cancel (task : Nat)
  /-- `DbId::new` for a row of another table. -/
  | otherId (now rnd : Nat)

/-- The handler is over, and its transactor with the guard. -/
def LogState.over (task : Nat) (s : LogState) : LogState :=
  { s with
    locks := { s.locks with tasks := s.locks.tasks.erase task }
    writing := s.writing.erase task }

/-- `process_writes` is over, and the handler too if it failed. -/
def LogState.wrote (X : Foreign) (task : Nat) (call : RepoCall) (p : PreparedBatch) (s : LogState) :
    LogState :=
  let x := (ActorStore.processWrites X.repo call.faults call.clock p.writes p.swapCid).exec
    (s.stores p.did)
  let commit := appliedCommit X.repo call.faults (s.stores p.did) p.writes p.swapCid
  let t := { s with
    stores := Function.update s.stores p.did x.2
    applied := Function.update s.applied p.did <|
      s.applied p.did ++ commit.toList.map fun r : CommitDataWithOps => commitLogEntry r.commitData }
  match x.1 with
  | .ok r => { t with writing := t.writing.insert task ⟨p.did, .applied r⟩ }
  | .error _ => t.over task

def LogState.goto (task : Nat) (did : String) (phase : Phase) (s : LogState) : LogState :=
  { s with writing := s.writing.insert task ⟨did, phase⟩ }

def logStep (X : Foreign) (s : LogState) : LogStep → Option LogState
  | .lock a =>
    if a.isTransact then (lockStep s.locks a).map fun locks => { s with locks } else none
  | .processWrites task call =>
    match s.locks.tasks.lookup task, s.writing.lookup task, call.prepare X with
    | some (.holding did _), none, .ok p =>
      if p.did = did then some (s.wrote X task call p) else none
    | _, _, _ => none
  | .format task now =>
    match s.writing.lookup task with
    | some ⟨did, .applied r⟩ =>
      match formatSeqCommit X.encoders did r now with
      | .ok evt => some (s.goto task did (.formatted evt))
      | .error _ => some (s.over task)
    | _ => none
  | .draw task now rnd =>
    match s.writing.lookup task with
    | some ⟨did, .formatted evt⟩ =>
      if s.previous.val + 1 < 2 ^ 128 ∧ now < 2 ^ 48 then
        let seq := DbId.new X.ulids s.previous now rnd
        let row := Sequencer.newRow X.codecs evt seq
        some ({ s with previous := seq }.goto task did (.drawn row))
      else none
    | _ => none
  | .insert task err =>
    match s.writing.lookup task with
    | some ⟨_, .drawn row⟩ =>
      match err, s.table.insert row with
      | none, some table => some ({ s with table }.over task)
      | _, _ => some (s.over task)
    | _ => none
  | .cancel task => some (s.over task)
  | .otherId now rnd =>
    if s.previous.val + 1 < 2 ^ 128 ∧ now < 2 ^ 48 then
      some { s with previous := DbId.new X.ulids s.previous now rnd }
    else none

/-! ## Agreement -/

/-- From the first sequenced one on the rows are the applied commits. -/
structure LogAgrees (rows applied : List LogEntry) (s : Store) : Prop where
  complete : rows <:+ applied
  increasing : rows.Pairwise fun a b => a.rev < b.rev
  since : rows.IsChain fun a b => b.since = some a.rev
  last : ∀ e, rows.getLast? = some e → ∃ indexedAt, s.repoRoot = some ⟨e.commit, e.rev, indexedAt⟩

/-- No request of the DID is between its commit and its row. -/
def LogState.AtRest (s : LogState) (did : String) : Prop :=
  ∀ task w, s.writing.lookup task = some w → w.did ≠ did

def LogState.rows (X : Foreign) (s : LogState) (did : String) : List LogEntry :=
  commitRows X.codecs s.table did

def Consistent (X : Foreign) (s : LogState) : Prop :=
  ∀ did, s.AtRest did → LogAgrees (s.rows X did) (s.applied did) (s.stores did)

/-- The step ends a request of a DID that has rows, with its commit applied and without a row: the
blobs stop it, the event cannot be encoded or inserted, or it is cancelled. -/
def Drops (X : Foreign) (s : LogState) : LogStep → Prop
  | .processWrites _ call => ∃ p, call.prepare X = .ok p ∧ s.rows X p.did ≠ [] ∧
      FailsAfterCommit X.repo call.faults (s.stores p.did) p.writes p.swapCid
  | .format task now => ∃ did r, s.writing.lookup task = some ⟨did, .applied r⟩ ∧
      s.rows X did ≠ [] ∧ ∀ evt, formatSeqCommit X.encoders did r now ≠ .ok evt
  | .insert task err => ∃ did row, s.writing.lookup task = some ⟨did, .drawn row⟩ ∧
      s.rows X did ≠ [] ∧ err ≠ none
  | .cancel task => ∃ w, s.writing.lookup task = some w ∧ s.rows X w.did ≠ []
  | .lock _ | .draw .. | .otherId .. => False

/-- The step ends a request of the DID with its commit applied and without a row. -/
def Loses (X : Foreign) (s : LogState) (did : String) : LogStep → Prop
  | .processWrites _ call => ∃ p, call.prepare X = .ok p ∧ p.did = did ∧
      FailsAfterCommit X.repo call.faults (s.stores did) p.writes p.swapCid
  | .format task now => ∃ r, s.writing.lookup task = some ⟨did, .applied r⟩ ∧
      ∀ evt, formatSeqCommit X.encoders did r now ≠ .ok evt
  | .insert task err => ∃ row, s.writing.lookup task = some ⟨did, .drawn row⟩ ∧ err ≠ none
  | .cancel task => ∃ phase, s.writing.lookup task = some ⟨did, phase⟩
  | .lock _ | .draw .. | .otherId .. => False

/-- Upstream's `format_commit` sets `since` to the rev of the commit it has loaded, picks a larger
one, and encodes it. -/
def ChainsRevs (U : RepoLib) : Prop :=
  ∀ repo ops commit, U.formatCommit repo ops = .ok commit →
    commit.since = some repo.rev ∧ repo.rev < commit.rev ∧ commit.repo.rev = commit.rev

/-! ## The invariant -/

/-- The chain of a store's commits, with the root at its end. -/
structure History (applied : List LogEntry) (s : Store) : Prop where
  chain : applied.IsChain LogEntry.Follows
  last : ∀ e, applied.getLast? = some e →
    s.repo.rev = e.rev ∧ ∃ indexedAt, s.repoRoot = some ⟨e.commit, e.rev, indexedAt⟩

/-- The commit that a request is to put into the table. -/
def Writing.Carries (K : Codecs) (w : Writing) (e : LogEntry) : Prop :=
  match w.phase with
  | .applied r => commitLogEntry r.commitData = e
  | .formatted evt =>
    ∀ seq b, commitEntry K b (Sequencer.newRow K evt seq) = if w.did = b then some e else none
  | .drawn row => ∀ b, commitEntry K b row = if w.did = b then some e else none

structure LogInv (X : Foreign) (s : LogState) : Prop where
  guarded : Guarded s.locks
  holds : ∀ task w, s.writing.lookup task = some w →
    ∃ m, s.locks.tasks.lookup task = some (.holding w.did m)
  history : ∀ did, History (s.applied did) (s.stores did)
  atRest : ∀ did, s.AtRest did → s.rows X did <:+ s.applied did
  /-- The last commit is the one on its way; the rows end before it. -/
  onItsWay : ∀ task w, s.writing.lookup task = some w → ∃ before e,
    s.applied w.did = before ++ [e] ∧ s.rows X w.did <:+ before ∧ w.Carries X.codecs e
  known : ∀ row ∈ s.table.rows, row.seq ≤ s.previous
  drawn : ∀ task did row, s.writing.lookup task = some ⟨did, .drawn row⟩ →
    row.seq ≤ s.previous ∧ (∀ x ∈ s.table.rows, x.seq ≠ row.seq) ∧
      ∀ x ∈ s.table.rows, (commitEntry X.codecs did x).isSome → x.seq < row.seq
  apart : ∀ t₁ t₂ d₁ d₂ r₁ r₂, s.writing.lookup t₁ = some ⟨d₁, .drawn r₁⟩ →
    s.writing.lookup t₂ = some ⟨d₂, .drawn r₂⟩ → t₁ ≠ t₂ → r₁.seq ≠ r₂.seq

theorem History.agrees {rows applied : List LogEntry} {s : Store} (h : History applied s)
    (hrows : rows <:+ applied) : LogAgrees rows applied s := by
  have hchain : rows.IsChain LogEntry.Follows := h.chain.suffix hrows
  refine ⟨hrows, ?_, hchain.imp fun _ _ hab => hab.2, fun e he => ?_⟩
  · have htrans : IsTrans LogEntry fun a b => a.rev < b.rev := ⟨fun _ _ _ => lt_trans⟩
    exact List.isChain_iff_pairwise.1 (hchain.imp fun _ _ hab => hab.1)
  · have hne : rows ≠ [] := by
      rintro rfl
      cases he
    obtain ⟨before, rfl⟩ := hrows
    exact (h.last e (by rw [List.getLast?_append_of_ne_nil _ hne, he])).2

theorem ChainsRevs.applied {U : RepoLib} (hU : ChainsRevs U) {F : ActorStore.Faults} {s : Store}
    {writes : List PreparedWrite} {swapCommit : Option Cid} {r : CommitDataWithOps}
    (h : appliedCommit U F s writes swapCommit = some r) :
    r.commitData.since = some s.repo.rev ∧ s.repo.rev < r.commitData.rev ∧
      r.commitData.repo.rev = r.commitData.rev := by
  obtain ⟨root, commit, hacc, rfl⟩ := ActorStore.formatCommit_ok.1 (appliedCommit_eq_some.1 h).1
  exact hU s.repo _ commit hacc.formatted

/-- A commit on top of the loaded one goes on with the chain. -/
theorem History.extend {U : RepoLib} (hU : ChainsRevs U) {F : ActorStore.Faults} {s t : Store}
    {writes : List PreparedWrite} {swapCommit : Option Cid} {r : CommitDataWithOps}
    {applied : List LogEntry} {indexedAt : String} (h : History applied s)
    (hcommit : appliedCommit U F s writes swapCommit = some r)
    (hroot : t.repoRoot = some ⟨r.commitData.cid, r.commitData.rev, indexedAt⟩)
    (hrepo : t.repo = r.commitData.repo) : History (applied ++ [commitLogEntry r.commitData]) t := by
  obtain ⟨hsince, hlt, hrev⟩ := hU.applied hcommit
  constructor
  · refine List.isChain_append.2 ⟨h.chain, List.isChain_singleton _, fun a ha b hb => ?_⟩
    obtain rfl := Option.some.inj hb
    obtain ⟨hlast, -⟩ := h.last a ha
    exact ⟨hlast ▸ hlt, hlast ▸ hsince⟩
  · intro e he
    rw [List.getLast?_concat] at he
    obtain rfl := Option.some.inj he
    exact ⟨hrepo ▸ hrev, indexedAt, hroot⟩

section

variable {X : Foreign} {s t : LogState} {task : Nat}

theorem LogInv.consistent (h : LogInv X s) : Consistent X s :=
  fun did hrest => (h.history did).agrees (h.atRest did hrest)

/-- The guard keeps the requests of a DID apart. -/
theorem LogInv.alone (h : LogInv X s) {t₁ t₂ : Nat} {w₁ w₂ : Writing}
    (h₁ : s.writing.lookup t₁ = some w₁) (h₂ : s.writing.lookup t₂ = some w₂)
    (hdid : w₁.did = w₂.did) : t₁ = t₂ := by
  obtain ⟨m₁, hm₁⟩ := h.holds t₁ w₁ h₁
  obtain ⟨m₂, hm₂⟩ := h.holds t₂ w₂ h₂
  exact h.guarded.inv.oneTransactor t₁ t₂ w₂.did m₁ m₂ (hdid ▸ hm₁) hm₂

theorem lookup_over {k : Nat} {w : Writing} (h : (s.over task).writing.lookup k = some w) :
    k ≠ task ∧ s.writing.lookup k = some w :=
  Sql.Table.lookup_erase_eq_some.1 h

/-- A DID at rest after a task's step was so before, unless the task was at work for it. -/
theorem LogState.AtRest.before {did : String} (h : t.AtRest did)
    (hothers : ∀ k ≠ task, t.writing.lookup k = s.writing.lookup k)
    (hmine : ∀ w, s.writing.lookup task = some w → w.did ≠ did) : s.AtRest did := by
  intro k w hk
  by_cases hkt : k = task
  · subst hkt
    exact hmine w hk
  · rw [← hothers k hkt] at hk
    exact h k w hk

theorem writing_over {k : Nat} (hk : k ≠ task) :
    (s.over task).writing.lookup k = s.writing.lookup k := by
  rw [LogState.over, Sql.Table.lookup_erase_eq, if_neg hk]

theorem writing_goto {did : String} {phase : Phase} {k : Nat} (hk : k ≠ task) :
    (s.goto task did phase).writing.lookup k = s.writing.lookup k := by
  rw [LogState.goto, Sql.Table.lookup_insert_eq, if_neg hk]

/-- A request that ends with nothing on its way, or with nothing in the table yet. -/
theorem LogInv.over (h : LogInv X s)
    (hrows : ∀ w, s.writing.lookup task = some w → s.rows X w.did <:+ s.applied w.did) :
    LogInv X (s.over task) where
  guarded := h.guarded.release task
  holds k w hk := by
    obtain ⟨hne, hk⟩ := lookup_over hk
    obtain ⟨m, hm⟩ := h.holds k w hk
    exact ⟨m, by rw [LogState.over, Sql.Table.lookup_erase_eq, if_neg hne, hm]⟩
  history := h.history
  atRest did hrest := by
    by_cases hmine : ∃ w, s.writing.lookup task = some w ∧ w.did = did
    · obtain ⟨w, hw, rfl⟩ := hmine
      exact hrows w hw
    · exact h.atRest did (hrest.before (fun k => writing_over) fun w hw hdid => hmine ⟨w, hw, hdid⟩)
  onItsWay k w hk := h.onItsWay k w (lookup_over hk).2
  known := h.known
  drawn k did row hk := h.drawn k did row (lookup_over hk).2
  apart t₁ t₂ d₁ d₂ r₁ r₂ h₁ h₂ := h.apart t₁ t₂ d₁ d₂ r₁ r₂ (lookup_over h₁).2 (lookup_over h₂).2

theorem LogInv.over_of_unsequenced (h : LogInv X s)
    (hnil : ∀ w, s.writing.lookup task = some w → s.rows X w.did = []) : LogInv X (s.over task) := by
  refine h.over fun w hw => ?_
  rw [hnil w hw]
  exact List.nil_suffix

/-- A request goes on with its commit; an id it draws is above all before. -/
theorem LogInv.goto (h : LogInv X s) {did : String} {phase phase' : Phase} (previous : DbId)
    (hw : s.writing.lookup task = some ⟨did, phase⟩)
    (hcarries : ∀ e, Writing.Carries X.codecs ⟨did, phase⟩ e → Writing.Carries X.codecs ⟨did, phase'⟩ e)
    (hprevious : s.previous ≤ previous)
    (hdrawn : ∀ row, phase' = .drawn row → s.previous < row.seq ∧ row.seq ≤ previous) :
    LogInv X ({ s with previous }.goto task did phase') := by
  have hlookup : ∀ {k w}, ({ s with previous }.goto task did phase').writing.lookup k = some w →
      (k = task ∧ w = ⟨did, phase'⟩) ∨ (k ≠ task ∧ s.writing.lookup k = some w) := by
    intro k w hk
    exact (Sql.Table.lookup_insert_eq_some.1 hk).imp_left fun h => ⟨h.1, h.2.symm⟩
  have hbelow : ∀ {k d row}, s.writing.lookup k = some ⟨d, .drawn row⟩ → row.seq ≤ s.previous :=
    fun hk => (h.drawn _ _ _ hk).1
  refine ⟨h.guarded, fun k w hk => ?_, h.history, fun d hrest => ?_, fun k w hk => ?_,
    fun x hx => (h.known x hx).trans hprevious, fun k d row hk => ?_,
    fun t₁ t₂ d₁ d₂ r₁ r₂ h₁ h₂ hne => ?_⟩
  · rcases hlookup hk with ⟨rfl, rfl⟩ | ⟨-, hk⟩
    · obtain ⟨m, hm⟩ := h.holds _ _ hw
      exact ⟨m, hm⟩
    · exact h.holds k w hk
  · have hd : did ≠ d := hrest task ⟨did, phase'⟩ (Finmap.lookup_insert _)
    refine h.atRest d (hrest.before (fun k => writing_goto) fun w hw' => ?_)
    rw [hw] at hw'
    cases hw'
    exact hd
  · rcases hlookup hk with ⟨rfl, rfl⟩ | ⟨-, hk⟩
    · obtain ⟨before, e, happ, hrows, hcarry⟩ := h.onItsWay _ _ hw
      exact ⟨before, e, happ, hrows, hcarries e hcarry⟩
    · exact h.onItsWay k w hk
  · rcases hlookup hk with ⟨rfl, he⟩ | ⟨-, hk⟩
    · cases he
      obtain ⟨hlt, hle⟩ := hdrawn row rfl
      exact ⟨hle, fun x hx hxr => absurd (h.known x hx) (not_le.2 (hxr ▸ hlt)),
        fun x hx _ => lt_of_le_of_lt (h.known x hx) hlt⟩
    · obtain ⟨hle, hrest⟩ := h.drawn k d row hk
      exact ⟨hle.trans hprevious, hrest⟩
  · rcases hlookup h₁ with ⟨rfl, he₁⟩ | ⟨-, k₁⟩ <;> rcases hlookup h₂ with ⟨rfl, he₂⟩ | ⟨-, k₂⟩
    · exact absurd rfl hne
    · cases he₁
      exact (lt_of_le_of_lt (hbelow k₂) (hdrawn r₁ rfl).1).ne'
    · cases he₂
      exact (lt_of_le_of_lt (hbelow k₁) (hdrawn r₂ rfl).1).ne
    · exact h.apart t₁ t₂ d₁ d₂ r₁ r₂ k₁ k₂ hne

/-- The row goes in behind the DID's other rows, whatever the others have inserted meanwhile. -/
theorem LogInv.insert (h : LogInv X s) {did : String} {row : RepoSeqRow} {table : RepoSeq}
    (hw : s.writing.lookup task = some ⟨did, .drawn row⟩) (hins : s.table.insert row = some table) :
    LogInv X ({ s with table }.over task) := by
  obtain ⟨before, e, happ, hrows, hcarries⟩ := h.onItsWay task _ hw
  have hentry : ∀ b, commitEntry X.codecs b row = if did = b then some e else none := hcarries
  obtain ⟨hle, -, habove⟩ := h.drawn task did row hw
  have hmine : LogState.rows X ({ s with table }.over task) did = s.rows X did ++ [e] :=
    Sequencer.commitRows_append hins (by rw [hentry, if_pos rfl]) habove
  have hothers : ∀ d ≠ did, LogState.rows X ({ s with table }.over task) d = s.rows X d :=
    fun d hd => Sequencer.commitRows_other hins (by rw [hentry, if_neg hd.symm])
  have hlookup : ∀ {k w}, ({ s with table }.over task).writing.lookup k = some w →
      k ≠ task ∧ s.writing.lookup k = some w ∧ w.did ≠ did := by
    intro k w hk
    obtain ⟨hne, hk⟩ := lookup_over hk
    exact ⟨hne, hk, fun hd => hne (h.alone hk hw hd)⟩
  refine ⟨h.guarded.release task, fun k w hk => ?_, h.history, fun d hrest => ?_, fun k w hk => ?_,
    fun x hx => ?_, fun k d r hk => ?_, fun t₁ t₂ d₁ d₂ r₁ r₂ h₁ h₂ => ?_⟩
  · obtain ⟨hne, hk, -⟩ := hlookup hk
    obtain ⟨m, hm⟩ := h.holds k w hk
    exact ⟨m, by rw [LogState.over, Sql.Table.lookup_erase_eq, if_neg hne, hm]⟩
  · by_cases hd : d = did
    · subst hd
      rw [hmine]
      show _ <:+ s.applied d
      rw [happ]
      obtain ⟨first, rfl⟩ := hrows
      exact ⟨first, by rw [List.append_assoc]⟩
    · rw [hothers d hd]
      refine h.atRest d (hrest.before (fun k => writing_over) fun w hw' => ?_)
      rw [hw] at hw'
      cases hw'
      exact Ne.symm hd
  · obtain ⟨-, hk, hd⟩ := hlookup hk
    rw [hothers _ hd]
    exact h.onItsWay k w hk
  · rcases (RepoSeq.mem_insert hins).1 hx with rfl | hx
    · exact hle
    · exact h.known x hx
  · obtain ⟨hne, hk, hd⟩ := hlookup hk
    obtain ⟨hr, hfree, hlt⟩ := h.drawn k d r hk
    refine ⟨hr, fun x hx => ?_, fun x hx hsome => ?_⟩
    · rcases (RepoSeq.mem_insert hins).1 hx with rfl | hx
      · exact h.apart task k did d x r hw hk hne.symm
      · exact hfree x hx
    · rcases (RepoSeq.mem_insert hins).1 hx with rfl | hx
      · rw [hentry, if_neg (Ne.symm hd)] at hsome
        cases hsome
      · exact hlt x hx hsome
  · exact h.apart t₁ t₂ d₁ d₂ r₁ r₂ (hlookup h₁).2.1 (hlookup h₂).2.1

/-! ## `process_writes` -/

section

variable {did : String} {store : Store} {applied : List LogEntry}

/-- A call on the store of a DID at rest, as far as the other DIDs see. -/
theorem LogInv.history_update (h : LogInv X s) (hstore : History applied store) (d : String) :
    History (Function.update s.applied did applied d) (Function.update s.stores did store d) := by
  by_cases hd : d = did
  · subst hd
    rw [Function.update_self, Function.update_self]
    exact hstore
  · rw [Function.update_of_ne hd, Function.update_of_ne hd]
    exact h.history d

theorem LogInv.onItsWay_update (h : LogInv X s) (hrest : s.AtRest did) {k : Nat} {w : Writing}
    (hk : s.writing.lookup k = some w) :
    ∃ before e, Function.update s.applied did applied w.did = before ++ [e] ∧
      s.rows X w.did <:+ before ∧ w.Carries X.codecs e := by
  rw [Function.update_of_ne (hrest k w hk)]
  exact h.onItsWay k w hk

/-- The call leaves no request behind. -/
theorem LogInv.update (h : LogInv X s) (hrest : s.AtRest did) (hstore : History applied store)
    (hrows : s.rows X did <:+ applied) :
    LogInv X { s with
      stores := Function.update s.stores did store
      applied := Function.update s.applied did applied } := by
  refine ⟨h.guarded, h.holds, h.history_update hstore, fun d hd => ?_,
    fun k w hk => h.onItsWay_update hrest hk, h.known, h.drawn, h.apart⟩
  dsimp only
  by_cases hdid : d = did
  · subst hdid
    rw [Function.update_self]
    exact hrows
  · rw [Function.update_of_ne hdid]
    exact h.atRest d hd

/-- The call returns a commit, and the request goes on to the table. -/
theorem LogInv.begin (h : LogInv X s) (hrest : s.AtRest did) {m : Nat} {r : CommitDataWithOps}
    (hholds : s.locks.tasks.lookup task = some (.holding did m))
    (hstore : History (s.applied did ++ [commitLogEntry r.commitData]) store) :
    LogInv X ({ s with
      stores := Function.update s.stores did store
      applied := Function.update s.applied did
        (s.applied did ++ [commitLogEntry r.commitData]) }.goto task did (.applied r)) := by
  have hlookup : ∀ {k w}, (s.writing.insert task ⟨did, .applied r⟩).lookup k = some w →
      (k = task ∧ w = ⟨did, .applied r⟩) ∨ s.writing.lookup k = some w := by
    intro k w hk
    exact (Sql.Table.lookup_insert_eq_some.1 hk).imp (fun h => ⟨h.1, h.2.symm⟩) And.right
  have hdrawn : ∀ {k d row}, (s.writing.insert task ⟨did, .applied r⟩).lookup k =
      some ⟨d, .drawn row⟩ → s.writing.lookup k = some ⟨d, .drawn row⟩ := by
    intro k d row hk
    rcases hlookup hk with ⟨-, he⟩ | hk
    · cases he
    · exact hk
  refine ⟨h.guarded, fun k w hk => ?_, h.history_update hstore, fun d hd => ?_, fun k w hk => ?_,
    h.known, fun k d row hk => h.drawn k d row (hdrawn hk),
    fun t₁ t₂ d₁ d₂ r₁ r₂ h₁ h₂ => h.apart t₁ t₂ d₁ d₂ r₁ r₂ (hdrawn h₁) (hdrawn h₂)⟩
  · rcases hlookup hk with ⟨rfl, rfl⟩ | hk
    · exact ⟨m, hholds⟩
    · exact h.holds k w hk
  · have hne : d ≠ did := by
      rintro rfl
      exact hd task ⟨d, .applied r⟩ (Finmap.lookup_insert _) rfl
    show _ <:+ Function.update s.applied did _ d
    rw [Function.update_of_ne hne]
    refine h.atRest d (hd.before (fun k => writing_goto) fun w hw => ?_)
    obtain ⟨m', hm'⟩ := h.holds task w hw
    rw [hholds] at hm'
    cases hm'
    exact Ne.symm hne
  · rcases hlookup hk with ⟨rfl, rfl⟩ | hk
    · exact ⟨s.applied did, _, Function.update_self .., h.atRest did hrest, rfl⟩
    · exact h.onItsWay_update hrest hk

end

/-- Nobody else is at work for the DID whose transactor a task has. -/
theorem LogInv.atRest_of_holding (h : LogInv X s) {did : String} {m : Nat}
    (hholds : s.locks.tasks.lookup task = some (.holding did m))
    (hnone : s.writing.lookup task = none) : s.AtRest did := by
  rintro k w hk rfl
  obtain ⟨m', hm'⟩ := h.holds k w hk
  have hkt := h.guarded.inv.oneTransactor k task _ _ _ hm' hholds
  rw [hkt, hnone] at hk
  cases hk

/-- What `process_writes` does, by what it applies and whether it returns. -/
theorem LogInv.wrote (hU : ChainsRevs X.repo) (h : LogInv X s) {call : RepoCall} {p : PreparedBatch}
    {m : Nat} (hholds : s.locks.tasks.lookup task = some (.holding p.did m))
    (hnone : s.writing.lookup task = none)
    (hkept : FailsAfterCommit X.repo call.faults (s.stores p.did) p.writes p.swapCid →
      s.rows X p.did = []) : LogInv X (s.wrote X task call p) := by
  have hrest := h.atRest_of_holding hholds hnone
  unfold LogState.wrote
  cases hcommit : appliedCommit X.repo call.faults (s.stores p.did) p.writes p.swapCid with
  | none =>
    obtain ⟨e, store, hx, hroot, hrepo⟩ := root_of_unapplied call.clock hcommit
    simp only [hx, Option.toList_none, List.map_nil, List.append_nil]
    refine (h.update hrest ?_ (h.atRest _ hrest)).over fun w hw => ?_
    · obtain ⟨hchain, hlast⟩ := h.history p.did
      exact ⟨hchain, by rwa [hroot, hrepo]⟩
    · rw [hnone] at hw
      cases hw
  | some r =>
    obtain ⟨hroot, hrepo⟩ := root_of_applied call.clock hcommit
    have hstore := (h.history p.did).extend hU hcommit hroot hrepo
    rcases hx : (ActorStore.processWrites X.repo call.faults call.clock p.writes p.swapCid).exec
      (s.stores p.did) with ⟨e | r', store⟩
    · rw [hx] at hstore
      simp only [Option.toList_some, List.map_cons, List.map_nil]
      have hnil := hkept ((failsAfterCommit_iff call.clock hcommit).2 ⟨e, store, hx⟩)
      refine (h.update hrest hstore ?_).over fun w hw => ?_
      · rw [hnil]
        exact List.nil_suffix
      · rw [hnone] at hw
        cases hw
    · rw [hx] at hstore
      simp only [Option.toList_some, List.map_cons, List.map_nil]
      obtain rfl := Option.some.inj (hcommit.symm.trans (applied_of_ok hx))
      exact h.begin hrest hholds hstore

/-! ## Runs -/

/-- A request that ends with its commit on its way leaves the log behind. -/
theorem not_consistent_of_lost {did : String} {before : List LogEntry} {e : LogEntry}
    (hrest : t.AtRest did) (happ : t.applied did = before ++ [e])
    (hchain : (before ++ [e]).IsChain LogEntry.Follows) (hrows : t.rows X did <:+ before)
    (hne : t.rows X did ≠ []) : ¬ Consistent X t := by
  intro hcons
  have hcomplete := (hcons did hrest).complete
  rw [happ] at hcomplete
  exact Sequencer.not_suffix_concat hne hrows hchain hcomplete

theorem LogInv.not_consistent_over (h : LogInv X s) {w : Writing}
    (hw : s.writing.lookup task = some w) (hne : s.rows X w.did ≠ []) :
    ¬ Consistent X (s.over task) := by
  obtain ⟨before, e, happ, hrows, -⟩ := h.onItsWay task w hw
  refine not_consistent_of_lost (fun k v hk hdid => ?_) happ (happ ▸ (h.history w.did).chain) hrows
    hne
  obtain ⟨hkt, hk⟩ := lookup_over hk
  exact hkt (h.alone hk hw hdid)

theorem LogInv.not_consistent_wrote (hU : ChainsRevs X.repo) (h : LogInv X s) {call : RepoCall}
    {p : PreparedBatch} {m : Nat} (hholds : s.locks.tasks.lookup task = some (.holding p.did m))
    (hnone : s.writing.lookup task = none)
    (hfails : FailsAfterCommit X.repo call.faults (s.stores p.did) p.writes p.swapCid)
    (hne : s.rows X p.did ≠ []) : ¬ Consistent X (s.wrote X task call p) := by
  have hrest := h.atRest_of_holding hholds hnone
  obtain ⟨r, hcommit⟩ := hfails.commit
  obtain ⟨hroot, hrepo⟩ := root_of_applied call.clock hcommit
  have hstore := (h.history p.did).extend hU hcommit hroot hrepo
  obtain ⟨e, store, hx⟩ := (failsAfterCommit_iff call.clock hcommit).1 hfails
  unfold LogState.wrote
  simp only [hx, hcommit, Option.toList_some, List.map_cons, List.map_nil]
  refine not_consistent_of_lost (fun k w hk => ?_) (Function.update_self ..) hstore.chain
    (h.atRest _ hrest) hne
  exact hrest k w (lookup_over hk).2

/-- What a step of `process_writes` starts from. -/
theorem logStep_processWrites {call : RepoCall}
    (h : logStep X s (.processWrites task call) = some t) :
    ∃ p m, call.prepare X = .ok p ∧ s.locks.tasks.lookup task = some (.holding p.did m) ∧
      s.writing.lookup task = none ∧ t = s.wrote X task call p := by
  simp only [logStep] at h
  split at h
  case h_2 => cases h
  rename_i did m p hholds hnone hprepare
  simp only [Option.ite_none_right_eq_some, Option.some.injEq] at h
  obtain ⟨rfl, rfl⟩ := h
  exact ⟨p, m, hprepare, hholds, hnone, rfl⟩

theorem logInv_step (hU : ChainsRevs X.repo) (hK : Sequencer.RoundTrips X.codecs X.encoders)
    {a : LogStep} (h : LogInv X s) (hkept : ¬ Drops X s a) (hstep : logStep X s a = some t) :
    LogInv X t := by
  cases a with
  | lock a =>
    simp only [logStep, Option.ite_none_right_eq_some] at hstep
    obtain ⟨ha, hstep⟩ := hstep
    obtain ⟨locks, hlocks, rfl⟩ := Option.map_eq_some_iff.1 hstep
    refine { h with
      guarded := ActorStore.guarded_lockStep h.guarded ha hlocks
      holds := fun k w hk => ?_ }
    obtain ⟨m, hm⟩ := h.holds k w hk
    exact ⟨m, ActorStore.holding_lockStep ha hlocks hm⟩
  | processWrites task call =>
    obtain ⟨p, m, hprepare, hholds, hnone, rfl⟩ := logStep_processWrites hstep
    refine h.wrote hU hholds hnone fun hfails => ?_
    by_contra hne
    exact hkept ⟨p, hprepare, hne, hfails⟩
  | format task now =>
    simp only [logStep] at hstep
    split at hstep
    case h_2 => cases hstep
    rename_i did r hw
    split at hstep
    · rename_i evt hevt
      cases hstep
      refine h.goto s.previous hw (fun e he seq b => ?_) le_rfl fun row hrow => by cases hrow
      have he : commitLogEntry r.commitData = e := he
      rw [Sequencer.commitEntry_formatted hK hevt, he]
    · rename_i err hevt
      cases hstep
      refine h.over_of_unsequenced fun w hw' => ?_
      rw [hw] at hw'
      cases hw'
      by_contra hne
      exact hkept ⟨did, r, hw, hne, fun evt hok => by rw [hevt] at hok; cases hok⟩
  | draw task now rnd =>
    simp only [logStep] at hstep
    split at hstep
    case h_2 => cases hstep
    rename_i did evt hw
    simp only [Option.ite_none_right_eq_some, Option.some.injEq] at hstep
    obtain ⟨⟨hroom, hclock⟩, rfl⟩ := hstep
    have hlt := DbId.lt_new X.ulids hroom hclock rnd
    refine h.goto _ hw (fun e he b => he _ b) hlt.le ?_
    rintro row ⟨⟩
    exact ⟨hlt, le_rfl⟩
  | insert task err =>
    simp only [logStep] at hstep
    split at hstep
    case h_2 => cases hstep
    rename_i did row hw
    split at hstep
    · rename_i table hins
      cases hstep
      exact h.insert hw hins
    · rename_i hfail
      cases hstep
      refine h.over_of_unsequenced fun w hw' => ?_
      rw [hw] at hw'
      cases hw'
      by_contra hne
      -- no id is taken, so the statement itself has failed
      obtain ⟨-, hfree, -⟩ := h.drawn task did row hw
      exact hkept ⟨did, row, hw, hne, fun herr => hfail _ herr (dif_pos hfree)⟩
  | cancel task =>
    cases hstep
    refine h.over_of_unsequenced fun w hw => ?_
    by_contra hne
    exact hkept ⟨w, hw, hne⟩
  | otherId now rnd =>
    simp only [logStep, Option.ite_none_right_eq_some, Option.some.injEq] at hstep
    obtain ⟨⟨hroom, hclock⟩, rfl⟩ := hstep
    have hle := (DbId.lt_new X.ulids hroom hclock rnd).le
    refine { h with known := fun x hx => (h.known x hx).trans hle, drawn := fun k d row hk => ?_ }
    obtain ⟨hrow, hrest⟩ := h.drawn k d row hk
    exact ⟨hrow.trans hle, hrest⟩

/-- A step that drops a commit shows at once. -/
theorem not_consistent_of_drops (hU : ChainsRevs X.repo) {a : LogStep} (h : LogInv X s)
    (hdrops : Drops X s a) (hstep : logStep X s a = some t) : ¬ Consistent X t := by
  cases a with
  | processWrites task call =>
    obtain ⟨p, m, hprepare, hholds, hnone, rfl⟩ := logStep_processWrites hstep
    obtain ⟨q, hq, hne, hfails⟩ := hdrops
    rw [hprepare] at hq
    cases hq
    exact h.not_consistent_wrote hU hholds hnone hfails hne
  | format task now =>
    obtain ⟨did, r, hw, hne, hfails⟩ := hdrops
    simp only [logStep, hw] at hstep
    split at hstep
    · exact absurd ‹_› (hfails _)
    · cases hstep
      exact h.not_consistent_over hw hne
  | insert task err =>
    obtain ⟨did, row, hw, hne, herr⟩ := hdrops
    obtain ⟨e, rfl⟩ := Option.ne_none_iff_exists'.1 herr
    simp only [logStep, hw, Option.some.injEq] at hstep
    subst hstep
    exact h.not_consistent_over hw hne
  | cancel task =>
    obtain ⟨w, hw, hne⟩ := hdrops
    cases hstep
    exact h.not_consistent_over hw hne
  | lock _ => exact absurd hdrops id
  | draw _ _ _ => exact absurd hdrops id
  | otherId _ _ => exact absurd hdrops id

/-- A server that has come up: nobody at work, and the log agreeing with the stores so far. -/
structure Begins (X : Foreign) (s : LogState) : Prop where
  locks : ∃ files, s.locks = .start files
  idle : s.writing = ∅
  history : ∀ did, History (s.applied did) (s.stores did)
  rows : ∀ did, s.rows X did <:+ s.applied did
  known : ∀ row ∈ s.table.rows, row.seq ≤ s.previous

theorem Begins.logInv (h : Begins X s) : LogInv X s := by
  have hidle : ∀ {k : Nat} {w : Writing}, s.writing.lookup k ≠ some w := by
    intro k w hk
    rw [h.idle] at hk
    cases hk
  obtain ⟨files, hfiles⟩ := h.locks
  exact ⟨hfiles ▸ ActorStore.guarded_start files, fun _ _ hk => absurd hk hidle, h.history,
    fun did _ => h.rows did, fun _ _ hk => absurd hk hidle, h.known,
    fun _ _ _ hk => absurd hk hidle, fun _ _ _ _ _ _ hk => absurd hk hidle⟩

/-- **The log agrees with the actor stores in every state of a run if and only if no request of a DID
with rows ends with its commit applied and no row.** -/
theorem consistent_iff_noneDropped (hU : ChainsRevs X.repo)
    (hK : Sequencer.RoundTrips X.codecs X.encoders) (hs : Begins X s) (acts : List LogStep) :
    Runs.Always (logStep X) (Consistent X) s acts ↔
      Runs.Along (logStep X) (fun s a => ¬ Drops X s a) s acts := by
  refine Runs.always_iff_along (fun _ h => h.consistent) ?_ ?_ hs.logInv acts
  · exact fun _ _ _ h hkept hstep => logInv_step hU hK h hkept hstep
  · exact fun _ _ _ h hdrops hstep => not_consistent_of_drops hU h (not_not.1 hdrops) hstep

end

/-! ## Two posts, and another with an image -/

/-- No error stops the step, and it is no cancellation. -/
def endsWell (X : Foreign) (s : LogState) : LogStep → Bool
  | .processWrites _ call =>
    match call.prepare X with
    | .ok p => ((ActorStore.processWrites X.repo call.faults call.clock p.writes p.swapCid).exec
        (s.stores p.did)).1.isOk
    | .error _ => false
  | .format task now =>
    match s.writing.lookup task with
    | some ⟨did, .applied r⟩ => (formatSeqCommit X.encoders did r now).isOk
    | _ => false
  | .insert _ err => err.isNone
  | .cancel _ => false
  | .lock _ | .draw .. | .otherId .. => true

theorem Loses.not_endsWell {X : Foreign} {s : LogState} {did : String} {a : LogStep}
    (h : Loses X s did a) :
    endsWell X s a = false := by
  cases a with
  | processWrites task call =>
    obtain ⟨p, hprepare, rfl, hfails⟩ := h
    obtain ⟨r, hcommit⟩ := hfails.commit
    obtain ⟨e, store, hx⟩ := (failsAfterCommit_iff call.clock hcommit).1 hfails
    simp only [endsWell, hprepare, hx]
    rfl
  | format task now =>
    obtain ⟨r, hw, hfails⟩ := h
    simp only [endsWell, hw]
    cases hevt : formatSeqCommit X.encoders did r now with
    | ok evt => exact absurd hevt (hfails evt)
    | error e => rfl
  | insert task err =>
    obtain ⟨-, -, herr⟩ := h
    obtain ⟨e, rfl⟩ := Option.ne_none_iff_exists'.1 herr
    rfl
  | cancel task => rfl
  | lock _ => exact absurd h id
  | draw _ _ _ => exact absurd h id
  | otherId _ _ => exact absurd h id

theorem Drops.loses {X : Foreign} {s : LogState} {a : LogStep} (h : Drops X s a) :
    ∃ did, Loses X s did a := by
  cases a with
  | processWrites task call =>
    obtain ⟨p, hprepare, -, hfails⟩ := h
    exact ⟨p.did, p, hprepare, rfl, hfails⟩
  | format task now =>
    obtain ⟨did, r, hw, -, hfails⟩ := h
    exact ⟨did, r, hw, hfails⟩
  | insert task err =>
    obtain ⟨did, row, hw, -, herr⟩ := h
    exact ⟨did, row, hw, herr⟩
  | cancel task =>
    obtain ⟨w, hw, -⟩ := h
    exact ⟨w.did, w.phase, hw⟩
  | lock _ => exact absurd h id
  | draw _ _ _ => exact absurd h id
  | otherId _ _ => exact absurd h id

theorem chainsRevs_inOrder : ChainsRevs .inOrder := by
  intro repo ops commit h
  simp only [RepoLib.inOrder] at h
  split at h
  · cases h
  · cases h
    refine ⟨rfl, String.lt_iff_toList_lt.2 ?_, rfl⟩
    rw [String.toList_append]
    generalize repo.rev.toList = rev
    induction rev with
    | nil => exact .nil
    | cons c rev ih => exact .cons ih

/-- The commit of a post, on top of a rev. -/
def postCommit (rev rkey : String) : Sequencer.CommitEvt where
  rebase := false
  tooBig := false
  repo := "did:plc:a"
  commit := ⟨"commit " ++ rev ++ "+"⟩
  prev := none
  rev := rev ++ "+"
  since := some rev
  blocks := ("commit " ++ rev ++ "+").toUTF8.data.toList
  ops := [⟨.create, "app.bsky.feed.post/" ++ rkey, some ⟨"record"⟩, none⟩]
  blobs := []
  prevData := some ⟨"tree " ++ rev⟩

/-- DAG-CBOR of these bodies, by their revs. -/
def plainForeign : Foreign where
  repo := .inOrder
  records := wireRecords
  encoders := {
    commit := fun evt =>
      if evt = postCommit "r" "a" then .ok [0x62, 0x72, 0x2b]
      else if evt = postCommit "r+" "b" then .ok [0x63, 0x72, 0x2b, 0x2b]
      else .error "unknown body"
    handle := fun _ => .error "unknown body"
    identity := fun _ => .error "unknown body"
    account := fun _ => .error "unknown body"
    sync := fun _ => .error "unknown body"
    blocksToCarFile := revEncoders.blocksToCarFile }
  codecs := { Sequencer.sampleCodecs with
    commit := fun b =>
      if b = [0x62, 0x72, 0x2b] then .ok (postCommit "r" "a")
      else if b = [0x63, 0x72, 0x2b, 0x2b] then .ok (postCommit "r+" "b")
      else .error "unknown body" }
  ulids := ulidReference

theorem roundTrips_plainForeign :
    Sequencer.RoundTrips plainForeign.codecs plainForeign.encoders where
  commit evt b h := by
    simp only [plainForeign] at h ⊢
    split at h
    · cases h
      rw [if_pos rfl, ‹evt = postCommit "r" "a"›]
    split at h
    · cases h
      rw [if_neg (by decide), if_pos rfl, ‹evt = postCommit "r+" "b"›]
    · cases h
  identity _ _ h := by cases h
  account _ _ h := by cases h
  sync _ _ h := by cases h

def freshLog : LogState where
  locks := .start {"did:plc:a"}
  stores _ := .fresh
  applied _ := []
  writing := ∅
  previous := ⟨0, DbId.zero_isLt⟩
  table := .empty

theorem begins_freshLog : Begins plainForeign freshLog where
  locks := ⟨_, rfl⟩
  idle := rfl
  history _ := ⟨.nil, fun e he => by cases he⟩
  rows _ := List.nil_suffix
  known _ hx := by cases hx

def callOf (request : RecordRequest) : RepoCall where
  requester := some "did:plc:a"
  request := .record request
  nextRkey _ := "3kaaaaaaaaaaa"
  faults _ := none
  clock := ⟨"2026-01-02", fun _ => "2026-01-02"⟩

/-- A post, under the lock of its DID, and its row. -/
def postSteps : List LogStep :=
  [.lock (.transact 1 "did:plc:a"), .lock (.acquire 1), .lock (.openDb 1), .lock (.cachePut 1),
    .lock (.keypair 1), .processWrites 1 (callOf newPost), .format 1 0, .draw 1 5 0, .insert 1 none]

def nextPostSteps : List LogStep :=
  [.lock (.transact 3 "did:plc:a"), .lock (.acquire 3), .lock (.openDb 3), .lock (.keypair 3),
    .processWrites 3 (callOf (.create ⟨"app.bsky.feed.post", some "b", none, textPost, none⟩)),
    .format 3 0, .draw 3 6 0, .insert 3 none]

/-- A post with an image that has no row. -/
def imagePostSteps : List LogStep :=
  [.lock (.transact 2 "did:plc:a"), .lock (.acquire 2), .lock (.openDb 2), .lock (.keypair 2),
    .processWrites 2 (callOf (.create ⟨"app.bsky.feed.post", some "b", none,
      .object [("$type", .string "app.bsky.feed.post"), ("image", wireForms.blob pngRef)], none⟩))]

/-- Two posts, with the rows of both. -/
theorem consistent_twoPosts :
    Runs.Always (logStep plainForeign) (Consistent plainForeign) freshLog
        (postSteps ++ nextPostSteps) ∧
      ∃ s ∈ Runs.run (logStep plainForeign) freshLog (postSteps ++ nextPostSteps),
        s.rows plainForeign "did:plc:a" =
          [⟨"r+", some "r", ⟨"commit r+"⟩⟩, ⟨"r++", some "r+", ⟨"commit r++"⟩⟩] := by
  have hwell : Runs.Along (logStep plainForeign) (fun s a => endsWell plainForeign s a = true)
      freshLog (postSteps ++ nextPostSteps) := by
    decide +kernel
  refine ⟨(consistent_iff_noneDropped chainsRevs_inOrder roundTrips_plainForeign begins_freshLog
    _).2 (hwell.mono fun s a hs hdrops => ?_), by decide +kernel⟩
  obtain ⟨did, hloses⟩ := hdrops.loses
  rw [hloses.not_endsWell] at hs
  cases hs

/-- The second post fails, and its commit stays in the store without a row. -/
theorem imagePost_unsequenced :
    ¬ Runs.Always (logStep plainForeign) (Consistent plainForeign) freshLog
      (postSteps ++ imagePostSteps) := by
  intro hall
  obtain ⟨s, hs, hidle, happlied, hrows⟩ : ∃ s ∈ Runs.run (logStep plainForeign) freshLog
      (postSteps ++ imagePostSteps), s.writing.keys = ∅ ∧
        s.applied "did:plc:a" = [⟨"r+", some "r", ⟨"commit r+"⟩⟩, ⟨"r++", some "r+", ⟨"commit r++"⟩⟩] ∧
        s.rows plainForeign "did:plc:a" = [⟨"r+", some "r", ⟨"commit r+"⟩⟩] := by
    decide +kernel
  have hrest : s.AtRest "did:plc:a" := by
    intro k w hk
    have hmem : k ∈ s.writing.keys := Finmap.mem_keys.2 (Finmap.mem_iff.2 ⟨w, hk⟩)
    rw [hidle] at hmem
    cases hmem
  have hcomplete := (hall.last hs _ hrest).complete
  rw [happlied, hrows] at hcomplete
  exact absurd hcomplete (by decide)

end CacosPds.Server
