import CacosPds.Lib.Replica
import CacosPds.Server.CommitLog
/-!
# Copies of a repo that follow the firehose

| here | there |
| --- | --- |
| `commitDelta`   | what a `#commit` row tells: rev, `since` and ops (`events.rs:250-290`) |
| `copyOf`        | what `getRepo` hands out: the repo's rev and its records |
| `LogState.deltas` | a DID's `#commit` rows, in the order of their ids |
| `Misses`        | a commit that a copy does not have ends without a row |

A consumer copies a repo at any moment, also while a commit is on its way to the table, and then goes
through the DID's rows: what its copy has already it passes over. It has the repo whenever no request
of the DID is in flight, as long as each commit applied after the copy gets its row
(`copies_current_iff`). What was lost before the copy was taken does not matter to it.

Both halves of a run, up to the copy and from it on, keep an invariant of one shape (`Kept`): one
relation for a DID at rest and another for one with a commit on its way.
-/
namespace CacosPds.Server

open Replica (Delta Copy)
open ActorStore (RepoLib Store Tree PreparedWrite Guarded lockStep CommitDataWithOps CommitOp)
open Sequencer (RepoSeq RepoSeqNew RepoSeqRow Codecs CommitEvt CommitEvtOp commitEvtOp
  formatSeqCommit)

abbrev RepoDelta := Delta String CommitEvtOp

/-- A repo's rev, and its records by their paths. -/
abbrev RepoCopy := Copy String Tree

def setOp (t : Tree) (op : CommitEvtOp) : Tree := t.set op.path op.cid

def eventDelta (evt : CommitEvt) : RepoDelta := ⟨evt.rev, evt.since, evt.ops⟩

def dataDelta (r : CommitDataWithOps) : RepoDelta :=
  ⟨r.commitData.rev, r.commitData.since, r.ops.map commitEvtOp⟩

/-- What a row tells of the DID's repo, if it is a commit of it. -/
def commitDelta (K : Codecs) (did : String) (row : RepoSeqRow) : Option RepoDelta :=
  if row.did = did ∧ row.eventType = "append" then
    (K.commit row.event).toOption.map eventDelta
  else none

def copyOf (s : Store) : RepoCopy := ⟨s.repo.rev, s.repo.tree⟩

def LogState.deltas (X : Foreign) (s : LogState) (did : String) : List RepoDelta :=
  s.table.rows.filterMap (commitDelta X.codecs did)

/-- Copies of the DIDs' repos have followed the table to where the stores are. -/
def Current (X : Foreign) (copies : String → RepoCopy) (s : LogState) : Prop :=
  ∀ did, s.AtRest did → (copies did).takeAll setOp (s.deltas X did) = some (copyOf (s.stores did))

/-- The step loses a commit that the copy does not have: one that it applies itself, or one applied
since the copy was taken. -/
def Misses (X : Foreign) (copies : String → RepoCopy) (s : LogState) (a : LogStep) : Prop :=
  ∃ did, Loses X s did a ∧ (s.AtRest did ∨ (s.stores did).repo.rev ≠ (copies did).version)

/-- The change that a request is to put into the table. -/
def Writing.Bears (K : Codecs) (w : Writing) (d : RepoDelta) : Prop :=
  match w.phase with
  | .applied r => dataDelta r = d
  | .formatted evt =>
    ∀ seq b, commitDelta K b (Sequencer.newRow K evt seq) = if w.did = b then some d else none
  | .drawn row => ∀ b, commitDelta K b row = if w.did = b then some d else none

/-- A server that has come up, with what is in its table told of commits its stores have. -/
structure ComesUp (X : Foreign) (s : LogState) : Prop where
  locks : ∃ files, s.locks = .start files
  idle : s.writing = ∅
  rows : ∀ did, ∀ d ∈ s.deltas X did, d.version ≤ (s.stores did).repo.rev
  known : ∀ row ∈ s.table.rows, row.seq ≤ s.previous

/-! ## The deltas -/

theorem commitDelta_formatted {K : Codecs} {N : Sequencer.Encoders} (hK : Sequencer.RoundTrips K N)
    {did : String} {r : CommitDataWithOps} {now : Sequencer.Instant} {evt : RepoSeqNew}
    (h : formatSeqCommit N did r now = .ok evt) (seq : DbId) (b : String) :
    commitDelta K b (Sequencer.newRow K evt seq) = if did = b then some (dataDelta r) else none := by
  obtain ⟨body, hbody, h⟩ := Stages.except_bind_ok.1 h
  obtain ⟨event, hevent, rfl⟩ := Sequencer.newEvt_ok.1 h
  have hdelta : eventDelta body = dataDelta r := by
    simp only [Sequencer.commitEvt, Except.map] at hbody
    split at hbody
    · cases hbody
    · cases hbody
      rfl
  simp [commitDelta, Sequencer.newRow, hK.commit _ _ hevent, Except.toOption, hdelta]

/-- The ops of an applied commit lead from the store's copy to the new one. -/
theorem copyOf_applied {U : RepoLib} (hU : ChainsRevs U) (hO : U.AppliesInOrder)
    {F : ActorStore.Faults} {s : Store} {writes : List PreparedWrite} {swapCommit : Option Cid}
    {r : CommitDataWithOps} (h : appliedCommit U F s writes swapCommit = some r) :
    (copyOf s).version < (dataDelta r).version ∧
      (dataDelta r).since = some (copyOf s).version ∧
      (⟨r.commitData.repo.rev, r.commitData.repo.tree⟩ : RepoCopy) =
        ⟨(dataDelta r).version, (dataDelta r).changes.foldl setOp (copyOf s).data⟩ := by
  obtain ⟨hsince, hlt, hrev⟩ := hU.applied h
  refine ⟨hlt, hsince, Copy.ext hrev ?_⟩
  obtain ⟨root, commit, hacc, rfl⟩ := ActorStore.formatCommit_ok.1 (appliedCommit_eq_some.1 h).1
  show commit.repo.tree = ((writes.map (ActorStore.commitOp s)).map commitEvtOp).foldl setOp s.repo.tree
  rw [(hO.tree hacc.formatted).2, List.map_map, List.foldl_map]
  rfl

/-! ## Requests and their rows -/

/-- The requests in flight hold their locks, and the rows on their way go behind those of their DID. -/
structure Queue (X : Foreign) (s : LogState) : Prop where
  guarded : Guarded s.locks
  holds : ∀ task w, s.writing.lookup task = some w →
    ∃ m, s.locks.tasks.lookup task = some (.holding w.did m)
  known : ∀ row ∈ s.table.rows, row.seq ≤ s.previous
  drawn : ∀ task did row, s.writing.lookup task = some ⟨did, .drawn row⟩ →
    row.seq ≤ s.previous ∧ (∀ x ∈ s.table.rows, x.seq ≠ row.seq) ∧
      ∀ x ∈ s.table.rows, (commitDelta X.codecs did x).isSome → x.seq < row.seq
  apart : ∀ t₁ t₂ d₁ d₂ r₁ r₂, s.writing.lookup t₁ = some ⟨d₁, .drawn r₁⟩ →
    s.writing.lookup t₂ = some ⟨d₂, .drawn r₂⟩ → t₁ ≠ t₂ → r₁.seq ≠ r₂.seq

section

variable {X : Foreign} {s t : LogState} {task : Nat} {did : String}

theorem Queue.alone (h : Queue X s) {t₁ t₂ : Nat} {w₁ w₂ : Writing}
    (h₁ : s.writing.lookup t₁ = some w₁) (h₂ : s.writing.lookup t₂ = some w₂)
    (hdid : w₁.did = w₂.did) : t₁ = t₂ := by
  obtain ⟨m₁, hm₁⟩ := h.holds t₁ w₁ h₁
  obtain ⟨m₂, hm₂⟩ := h.holds t₂ w₂ h₂
  exact h.guarded.inv.oneTransactor t₁ t₂ w₂.did m₁ m₂ (hdid ▸ hm₁) hm₂

/-- Nobody is at work for the DID of a transactor whose request has applied nothing yet. -/
theorem Queue.atRest_of_holding (h : Queue X s) {m : Nat}
    (hholds : s.locks.tasks.lookup task = some (.holding did m))
    (hnone : s.writing.lookup task = none) : s.AtRest did := by
  rintro k w hk rfl
  obtain ⟨m', hm'⟩ := h.holds k w hk
  have hkt := h.guarded.inv.oneTransactor k task _ _ _ hm' hholds
  rw [hkt, hnone] at hk
  cases hk

/-- A request in flight is the only one of its DID. -/
theorem Queue.atRest_over (h : Queue X s) {w : Writing} (hw : s.writing.lookup task = some w) :
    (s.over task).AtRest w.did := by
  intro k v hk hdid
  obtain ⟨hkt, hk⟩ := lookup_over hk
  exact hkt (h.alone hk hw hdid)

theorem Queue.over (h : Queue X s) (task : Nat) : Queue X (s.over task) where
  guarded := h.guarded.release task
  holds k w hk := by
    obtain ⟨hne, hk⟩ := lookup_over hk
    obtain ⟨m, hm⟩ := h.holds k w hk
    exact ⟨m, by rw [LogState.over, Sql.Table.lookup_erase_eq, if_neg hne, hm]⟩
  known := h.known
  drawn k d row hk := h.drawn k d row (lookup_over hk).2
  apart t₁ t₂ d₁ d₂ r₁ r₂ h₁ h₂ := h.apart t₁ t₂ d₁ d₂ r₁ r₂ (lookup_over h₁).2 (lookup_over h₂).2

theorem lookup_goto {s : LogState} {phase : Phase} {k : Nat} {w : Writing}
    (h : (s.goto task did phase).writing.lookup k = some w) :
    (k = task ∧ w = ⟨did, phase⟩) ∨ (k ≠ task ∧ s.writing.lookup k = some w) :=
  (Sql.Table.lookup_insert_eq_some.1 h).imp_left fun h => ⟨h.1, h.2.symm⟩

/-- A request comes into a phase; an id it has drawn there is above all before. -/
theorem Queue.goto (h : Queue X s) {phase : Phase} {m : Nat} (previous : DbId)
    (hholds : s.locks.tasks.lookup task = some (.holding did m)) (hprevious : s.previous ≤ previous)
    (hdrawn : ∀ row, phase = .drawn row → s.previous < row.seq ∧ row.seq ≤ previous) :
    Queue X ({ s with previous }.goto task did phase) := by
  have hbelow : ∀ {k d row}, s.writing.lookup k = some ⟨d, .drawn row⟩ → row.seq ≤ s.previous :=
    fun hk => (h.drawn _ _ _ hk).1
  refine ⟨h.guarded, fun k w hk => ?_, fun x hx => (h.known x hx).trans hprevious,
    fun k d row hk => ?_, fun t₁ t₂ d₁ d₂ r₁ r₂ h₁ h₂ hne => ?_⟩
  · rcases lookup_goto hk with ⟨rfl, rfl⟩ | ⟨-, hk⟩
    · exact ⟨m, hholds⟩
    · exact h.holds k w hk
  · rcases lookup_goto hk with ⟨rfl, he⟩ | ⟨-, hk⟩
    · cases he
      obtain ⟨hlt, hle⟩ := hdrawn row rfl
      exact ⟨hle, fun x hx hxr => absurd (h.known x hx) (not_le.2 (hxr ▸ hlt)),
        fun x hx _ => lt_of_le_of_lt (h.known x hx) hlt⟩
    · obtain ⟨hle, hrest⟩ := h.drawn k d row hk
      exact ⟨hle.trans hprevious, hrest⟩
  · rcases lookup_goto h₁ with ⟨rfl, he₁⟩ | ⟨-, k₁⟩ <;> rcases lookup_goto h₂ with ⟨rfl, he₂⟩ | ⟨-, k₂⟩
    · exact absurd rfl hne
    · cases he₁
      exact (lt_of_le_of_lt (hbelow k₂) (hdrawn r₁ rfl).1).ne'
    · cases he₂
      exact (lt_of_le_of_lt (hbelow k₁) (hdrawn r₂ rfl).1).ne
    · exact h.apart t₁ t₂ d₁ d₂ r₁ r₂ k₁ k₂ hne

/-- A row that is no commit of another DID goes into the table. -/
theorem Queue.insert (h : Queue X s) {row : RepoSeqRow} {table : RepoSeq}
    (hw : s.writing.lookup task = some ⟨did, .drawn row⟩) (hins : s.table.insert row = some table)
    (hothers : ∀ d ≠ did, commitDelta X.codecs d row = none) :
    Queue X ({ s with table }.over task) := by
  obtain ⟨hle, -, -⟩ := h.drawn task did row hw
  refine ⟨h.guarded.release task, (h.over task).holds, fun x hx => ?_, fun k d r hk => ?_,
    (h.over task).apart⟩
  · rcases (RepoSeq.mem_insert hins).1 hx with rfl | hx
    · exact hle
    · exact h.known x hx
  · obtain ⟨hne, hk⟩ := lookup_over hk
    obtain ⟨hr, hfree, hlt⟩ := h.drawn k d r hk
    have hd : d ≠ did := fun hd => hne (h.alone hk hw hd)
    refine ⟨hr, fun x hx => ?_, fun x hx hsome => ?_⟩
    · rcases (RepoSeq.mem_insert hins).1 hx with rfl | hx
      · exact h.apart task k did d x r hw hk hne.symm
      · exact hfree x hx
    · rcases (RepoSeq.mem_insert hins).1 hx with rfl | hx
      · rw [hothers d hd] at hsome
        cases hsome
      · exact hlt x hx hsome

end

/-! ## What holds at rest, and while a commit is on its way -/

variable {R : String → List RepoDelta → RepoCopy → Prop}
  {Q : String → List RepoDelta → RepoCopy → RepoDelta → Prop}

structure Kept (X : Foreign) (R : String → List RepoDelta → RepoCopy → Prop)
    (Q : String → List RepoDelta → RepoCopy → RepoDelta → Prop) (s : LogState) : Prop where
  queue : Queue X s
  atRest : ∀ did, s.AtRest did → R did (s.deltas X did) (copyOf (s.stores did))
  onItsWay : ∀ task w, s.writing.lookup task = some w → ∃ d, w.Bears X.codecs d ∧
    Q w.did (s.deltas X w.did) (copyOf (s.stores w.did)) d

/-- A commit on top of the store leads from the one to the other, and its row back. -/
structure Rules (R : String → List RepoDelta → RepoCopy → Prop)
    (Q : String → List RepoDelta → RepoCopy → RepoDelta → Prop) : Prop where
  commit : ∀ did ds c d, R did ds c → c.version < d.version → d.since = some c.version →
    Q did ds ⟨d.version, d.changes.foldl setOp c.data⟩ d
  row : ∀ did ds c d, Q did ds c d → R did (ds ++ [d]) c

section

variable {X : Foreign} {s t : LogState} {task : Nat} {did : String}

theorem Kept.over (h : Kept X R Q s) (hlost : ∀ w, s.writing.lookup task = some w → ∀ d,
      Q w.did (s.deltas X w.did) (copyOf (s.stores w.did)) d →
        R w.did (s.deltas X w.did) (copyOf (s.stores w.did))) : Kept X R Q (s.over task) where
  queue := h.queue.over task
  atRest did hrest := by
    by_cases hmine : ∃ w, s.writing.lookup task = some w ∧ w.did = did
    · obtain ⟨w, hw, rfl⟩ := hmine
      obtain ⟨d, -, hd⟩ := h.onItsWay task w hw
      exact hlost w hw d hd
    · exact h.atRest did (hrest.before (fun k => writing_over) fun w hw hdid => hmine ⟨w, hw, hdid⟩)
  onItsWay k w hk := h.onItsWay k w (lookup_over hk).2

theorem Kept.goto (h : Kept X R Q s) {phase phase' : Phase} (previous : DbId)
    (hw : s.writing.lookup task = some ⟨did, phase⟩)
    (hbears : ∀ d, Writing.Bears X.codecs ⟨did, phase⟩ d → Writing.Bears X.codecs ⟨did, phase'⟩ d)
    (hprevious : s.previous ≤ previous)
    (hdrawn : ∀ row, phase' = .drawn row → s.previous < row.seq ∧ row.seq ≤ previous) :
    Kept X R Q ({ s with previous }.goto task did phase') := by
  obtain ⟨m, hholds⟩ := h.queue.holds task _ hw
  refine ⟨h.queue.goto previous hholds hprevious hdrawn, fun d hrest => ?_, fun k w hk => ?_⟩
  · refine h.atRest d (hrest.before (fun k => writing_goto) fun w hw' => ?_)
    rw [hw] at hw'
    cases hw'
    exact hrest task ⟨did, phase'⟩ (Finmap.lookup_insert _)
  · rcases lookup_goto hk with ⟨rfl, rfl⟩ | ⟨-, hk⟩
    · obtain ⟨d, hd, hq⟩ := h.onItsWay k _ hw
      exact ⟨d, hbears d hd, hq⟩
    · exact h.onItsWay k w hk

/-- The row of a commit comes last among those of its DID. -/
theorem Kept.insert (hrules : Rules R Q) (h : Kept X R Q s) {row : RepoSeqRow} {table : RepoSeq}
    (hw : s.writing.lookup task = some ⟨did, .drawn row⟩) (hins : s.table.insert row = some table) :
    Kept X R Q ({ s with table }.over task) := by
  obtain ⟨e, hbears, hq⟩ := h.onItsWay task _ hw
  have hdelta : ∀ b, commitDelta X.codecs b row = if did = b then some e else none := hbears
  obtain ⟨-, -, habove⟩ := h.queue.drawn task did row hw
  have hmine : LogState.deltas X ({ s with table }.over task) did = s.deltas X did ++ [e] := by
    show table.rows.filterMap _ = _
    rw [RepoSeq.insert_rows hins, Sequencer.filterMap_insertRow (by rw [hdelta, if_pos rfl])
      s.table.sorted habove]
    rfl
  have hnone : ∀ d ≠ did, commitDelta X.codecs d row = none := by
    intro d hd
    rw [hdelta, if_neg hd.symm]
  have hothers : ∀ d ≠ did, LogState.deltas X ({ s with table }.over task) d = s.deltas X d := by
    intro d hd
    show table.rows.filterMap _ = _
    rw [RepoSeq.insert_rows hins, Sequencer.filterMap_insertRow_none (hnone d hd)]
    rfl
  refine ⟨h.queue.insert hw hins hnone, fun d hrest => ?_, fun k w hk => ?_⟩
  · by_cases hd : d = did
    · subst hd
      rw [hmine]
      exact hrules.row _ _ _ _ hq
    · rw [hothers d hd]
      refine h.atRest d (hrest.before (fun k => writing_over) fun w hw' => ?_)
      rw [hw] at hw'
      cases hw'
      exact Ne.symm hd
  · obtain ⟨hne, hk⟩ := lookup_over hk
    rw [hothers _ fun hd => hne (h.queue.alone hk hw hd)]
    exact h.onItsWay k w hk

/-- Another store for a DID at rest. -/
theorem Kept.update (h : Kept X R Q s) (hrest : s.AtRest did) {store : Store}
    (hstore : R did (s.deltas X did) (copyOf store)) (applied : String → List Sequencer.LogEntry) :
    Kept X R Q { s with stores := Function.update s.stores did store, applied } := by
  refine ⟨⟨h.queue.guarded, h.queue.holds, h.queue.known, h.queue.drawn, h.queue.apart⟩,
    fun d hd => ?_, fun k w hk => ?_⟩
  · dsimp only
    by_cases hdid : d = did
    · subst hdid
      rw [Function.update_self]
      exact hstore
    · rw [Function.update_of_ne hdid]
      exact h.atRest d hd
  · dsimp only
    rw [Function.update_of_ne (hrest k w hk)]
    exact h.onItsWay k w hk

/-- `process_writes` has returned a commit, which is then on its way. -/
theorem Kept.begin (h : Kept X R Q s) (hrest : s.AtRest did) {m : Nat} {r : CommitDataWithOps}
    {store : Store} (hholds : s.locks.tasks.lookup task = some (.holding did m))
    (hstore : Q did (s.deltas X did) (copyOf store) (dataDelta r))
    (applied : String → List Sequencer.LogEntry) :
    Kept X R Q ({ s with stores := Function.update s.stores did store, applied }.goto task did
      (.applied r)) := by
  have hqueue : Queue X (s.goto task did (.applied r)) :=
    h.queue.goto s.previous hholds le_rfl fun row he => by cases he
  refine ⟨⟨hqueue.guarded, hqueue.holds, hqueue.known, hqueue.drawn, hqueue.apart⟩, fun d hd => ?_,
    fun k w hk => ?_⟩
  · have hne : d ≠ did := by
      rintro rfl
      exact hd task ⟨d, .applied r⟩ (Finmap.lookup_insert _) rfl
    show R d _ (copyOf (Function.update s.stores did store d))
    rw [Function.update_of_ne hne]
    refine h.atRest d (hd.before (fun k => writing_goto) fun w hw => ?_)
    obtain ⟨m', hm'⟩ := h.queue.holds task w hw
    rw [hholds] at hm'
    cases hm'
    exact Ne.symm hne
  · show ∃ d, w.Bears X.codecs d ∧ Q w.did _ (copyOf (Function.update s.stores did store w.did)) d
    rcases lookup_goto hk with ⟨rfl, rfl⟩ | ⟨-, hk⟩
    · rw [Function.update_self]
      exact ⟨_, rfl, hstore⟩
    · rw [Function.update_of_ne (hrest k w hk)]
      exact h.onItsWay k w hk

/-- The store after the call, whether or not it returns. -/
theorem stores_wrote (X : Foreign) (task : Nat) (call : RepoCall) (p : PreparedBatch)
    (s : LogState) : (s.wrote X task call p).stores = Function.update s.stores p.did
      ((ActorStore.processWrites X.repo call.faults call.clock p.writes p.swapCid).exec
        (s.stores p.did)).2 := by
  unfold LogState.wrote
  rcases (ActorStore.processWrites X.repo call.faults call.clock p.writes p.swapCid).exec
    (s.stores p.did) with ⟨_ | _, store⟩ <;> rfl

/-- A call that applies a commit: the store's copy goes on by what the commit tells. -/
theorem copyOf_wrote (hU : ChainsRevs X.repo) (hO : X.repo.AppliesInOrder) (task : Nat)
    (call : RepoCall) {p : PreparedBatch} {r : CommitDataWithOps}
    (hcommit : appliedCommit X.repo call.faults (s.stores p.did) p.writes p.swapCid = some r) :
    copyOf ((s.wrote X task call p).stores p.did) =
      ⟨(dataDelta r).version, (dataDelta r).changes.foldl setOp (copyOf (s.stores p.did)).data⟩ := by
  obtain ⟨-, hrepo⟩ := root_of_applied call.clock hcommit
  obtain ⟨-, -, hcopy⟩ := copyOf_applied hU hO hcommit
  rw [← hcopy, stores_wrote, Function.update_self, copyOf, hrepo]

theorem Kept.wrote (hrules : Rules R Q) (hU : ChainsRevs X.repo) (hO : X.repo.AppliesInOrder)
    (h : Kept X R Q s) {call : RepoCall} {p : PreparedBatch} {m : Nat}
    (hholds : s.locks.tasks.lookup task = some (.holding p.did m))
    (hnone : s.writing.lookup task = none)
    (hlost : FailsAfterCommit X.repo call.faults (s.stores p.did) p.writes p.swapCid → ∀ d,
      Q p.did (s.deltas X p.did) (copyOf ((s.wrote X task call p).stores p.did)) d →
        R p.did (s.deltas X p.did) (copyOf ((s.wrote X task call p).stores p.did))) :
    Kept X R Q (s.wrote X task call p) := by
  have hrest := h.queue.atRest_of_holding hholds hnone
  have hover : ∀ {u : LogState}, u.writing = s.writing → Kept X R Q u → Kept X R Q (u.over task) := by
    intro u hwriting hu
    refine hu.over fun w hw => ?_
    rw [hwriting, hnone] at hw
    cases hw
  cases hcommit : appliedCommit X.repo call.faults (s.stores p.did) p.writes p.swapCid with
  | none =>
    obtain ⟨e, store, hx, -, hrepo⟩ := root_of_unapplied call.clock hcommit
    unfold LogState.wrote
    simp only [hx]
    refine hover rfl (h.update hrest ?_ _)
    rw [copyOf, hrepo]
    exact h.atRest _ hrest
  | some r =>
    obtain ⟨hlt, hsince, -⟩ := copyOf_applied hU hO hcommit
    have hnext := hrules.commit _ _ _ _ (h.atRest _ hrest) hlt hsince
    rw [← copyOf_wrote hU hO task call hcommit] at hnext
    have hstores := congrFun (stores_wrote X task call p s) p.did
    rw [Function.update_self] at hstores
    rcases hx : (ActorStore.processWrites X.repo call.faults call.clock p.writes p.swapCid).exec
      (s.stores p.did) with ⟨e | r', store⟩
    · have hfails := (failsAfterCommit_iff call.clock hcommit).2 ⟨e, store, hx⟩
      have hstore := hlost hfails _ hnext
      rw [hstores, hx] at hstore
      unfold LogState.wrote
      simp only [hx]
      exact hover rfl (h.update hrest hstore _)
    · obtain rfl := Option.some.inj (hcommit.symm.trans (applied_of_ok hx))
      rw [hstores, hx] at hnext
      unfold LogState.wrote
      simp only [hx]
      exact h.begin hrest hholds hnext _

/-- A step keeps the invariant if what it loses may be lost. -/
theorem kept_step (hrules : Rules R Q) (hU : ChainsRevs X.repo) (hO : X.repo.AppliesInOrder)
    (hK : Sequencer.RoundTrips X.codecs X.encoders) {a : LogStep} (h : Kept X R Q s)
    (hstep : logStep X s a = some t)
    (hlost : ∀ did, Loses X s did a → ∀ d, Q did (s.deltas X did) (copyOf (t.stores did)) d →
      R did (s.deltas X did) (copyOf (t.stores did))) : Kept X R Q t := by
  cases a with
  | lock a =>
    simp only [logStep, Option.ite_none_right_eq_some] at hstep
    obtain ⟨ha, hstep⟩ := hstep
    obtain ⟨locks, hlocks, rfl⟩ := Option.map_eq_some_iff.1 hstep
    refine ⟨{ h.queue with
      guarded := ActorStore.guarded_lockStep h.queue.guarded ha hlocks
      holds := fun k w hk => ?_ }, h.atRest, h.onItsWay⟩
    obtain ⟨m, hm⟩ := h.queue.holds k w hk
    exact ⟨m, ActorStore.holding_lockStep ha hlocks hm⟩
  | processWrites task call =>
    obtain ⟨p, m, hprepare, hholds, hnone, rfl⟩ := logStep_processWrites hstep
    exact h.wrote hrules hU hO hholds hnone fun hfails => hlost p.did ⟨p, hprepare, rfl, hfails⟩
  | format task now =>
    simp only [logStep] at hstep
    split at hstep
    case h_2 => cases hstep
    rename_i did r hw
    split at hstep
    · rename_i evt hevt
      cases hstep
      refine h.goto s.previous hw (fun d hd seq b => ?_) le_rfl fun row hrow => by cases hrow
      have hd : dataDelta r = d := hd
      rw [commitDelta_formatted hK hevt, hd]
    · rename_i err hevt
      cases hstep
      refine h.over fun w hw' => ?_
      rw [hw] at hw'
      cases hw'
      exact hlost did ⟨r, hw, fun evt hok => by rw [hevt] at hok; cases hok⟩
  | draw task now rnd =>
    simp only [logStep] at hstep
    split at hstep
    case h_2 => cases hstep
    rename_i did evt hw
    simp only [Option.ite_none_right_eq_some, Option.some.injEq] at hstep
    obtain ⟨⟨hroom, hclock⟩, rfl⟩ := hstep
    have hlt := DbId.lt_new X.ulids hroom hclock rnd
    refine h.goto _ hw (fun d hd b => hd _ b) hlt.le ?_
    rintro row ⟨⟩
    exact ⟨hlt, le_rfl⟩
  | insert task err =>
    simp only [logStep] at hstep
    split at hstep
    case h_2 => cases hstep
    rename_i did row hw
    split at hstep
    · rename_i table hins
      cases hstep
      exact h.insert hrules hw hins
    · rename_i hfail
      cases hstep
      refine h.over fun w hw' => ?_
      rw [hw] at hw'
      cases hw'
      -- no id is taken, so the statement itself has failed
      obtain ⟨-, hfree, -⟩ := h.queue.drawn task did row hw
      exact hlost did ⟨row, hw, fun herr => hfail _ herr (dif_pos hfree)⟩
  | cancel task =>
    cases hstep
    exact h.over fun w hw => hlost w.did ⟨w.phase, hw⟩
  | otherId now rnd =>
    simp only [logStep, Option.ite_none_right_eq_some, Option.some.injEq] at hstep
    obtain ⟨⟨hroom, hclock⟩, rfl⟩ := hstep
    have hle := (DbId.lt_new X.ulids hroom hclock rnd).le
    refine ⟨{ h.queue with
      known := fun x hx => (h.queue.known x hx).trans hle
      drawn := fun k d row hk => ?_ }, h.atRest, h.onItsWay⟩
    obtain ⟨hrow, hrest⟩ := h.queue.drawn k d row hk
    exact ⟨hrow.trans hle, hrest⟩

/-- A step that loses a commit leaves the DID at rest and its rows as they are. The commit was on its
way, or comes with the step. -/
theorem Kept.lost (hrules : Rules R Q) (hU : ChainsRevs X.repo) (hO : X.repo.AppliesInOrder)
    {a : LogStep} (h : Kept X R Q s) (hloses : Loses X s did a) (hstep : logStep X s a = some t) :
    t.AtRest did ∧ t.deltas X did = s.deltas X did ∧
      (∃ d, Q did (s.deltas X did) (copyOf (t.stores did)) d) ∧
      (¬ s.AtRest did ∧ t.stores did = s.stores did ∨
        s.AtRest did ∧ (copyOf (s.stores did)).version < (copyOf (t.stores did)).version) := by
  have hover : ∀ {task : Nat} {phase : Phase}, s.writing.lookup task = some ⟨did, phase⟩ →
      (s.over task).AtRest did ∧ (∃ d, Q did (s.deltas X did) (copyOf (s.stores did)) d) ∧
        ¬ s.AtRest did := by
    intro task phase hw
    obtain ⟨d, -, hd⟩ := h.onItsWay task _ hw
    exact ⟨h.queue.atRest_over hw, ⟨d, hd⟩, fun hrest => hrest task _ hw rfl⟩
  cases a with
  | processWrites task call =>
    obtain ⟨p, m, hprepare, hholds, hnone, rfl⟩ := logStep_processWrites hstep
    obtain ⟨q, hq, rfl, hfails⟩ := hloses
    rw [hprepare] at hq
    cases hq
    have hrest := h.queue.atRest_of_holding hholds hnone
    obtain ⟨r, hcommit⟩ := hfails.commit
    obtain ⟨hlt, hsince, -⟩ := copyOf_applied hU hO hcommit
    obtain ⟨e, store, hx⟩ := (failsAfterCommit_iff call.clock hcommit).1 hfails
    have hcopy := copyOf_wrote hU hO task call hcommit
    refine ⟨?_, ?_, ⟨_, hcopy ▸ hrules.commit _ _ _ _ (h.atRest _ hrest) hlt hsince⟩,
      .inr ⟨hrest, hcopy ▸ hlt⟩⟩
    · unfold LogState.wrote
      simp only [hx]
      exact fun k w hk => hrest k w (lookup_over hk).2
    · unfold LogState.wrote
      simp only [hx]
      rfl
  | format task now =>
    obtain ⟨r, hw, hfails⟩ := hloses
    simp only [logStep, hw] at hstep
    split at hstep
    · exact absurd ‹_› (hfails _)
    · cases hstep
      obtain ⟨hrest, hd, hbusy⟩ := hover hw
      exact ⟨hrest, rfl, hd, .inl ⟨hbusy, rfl⟩⟩
  | insert task err =>
    obtain ⟨row, hw, herr⟩ := hloses
    obtain ⟨e, rfl⟩ := Option.ne_none_iff_exists'.1 herr
    simp only [logStep, hw, Option.some.injEq] at hstep
    subst hstep
    obtain ⟨hrest, hd, hbusy⟩ := hover hw
    exact ⟨hrest, rfl, hd, .inl ⟨hbusy, rfl⟩⟩
  | cancel task =>
    obtain ⟨phase, hw⟩ := hloses
    cases hstep
    obtain ⟨hrest, hd, hbusy⟩ := hover hw
    exact ⟨hrest, rfl, hd, .inl ⟨hbusy, rfl⟩⟩
  | lock _ => exact absurd hloses id
  | draw _ _ _ => exact absurd hloses id
  | otherId _ _ => exact absurd hloses id

end

/-! ## Taking a copy -/

/-- The rows tell of nothing that the store does not have, nor does the change on its way. -/
def Told (_ : String) (ds : List RepoDelta) (c : RepoCopy) : Prop := ∀ d ∈ ds, d.version ≤ c.version

def Tells (did : String) (ds : List RepoDelta) (c : RepoCopy) (d : RepoDelta) : Prop :=
  Told did ds c ∧ d.version ≤ c.version

theorem rules_told : Rules Told Tells where
  commit _ _ _ _ hall hlt _ := ⟨fun e he => (hall e he).trans hlt.le, le_rfl⟩
  row _ ds c d h e he := by
    rcases List.mem_append.1 he with he | he
    · exact h.1 e he
    · obtain rfl := List.mem_singleton.1 he
      exact h.2

/-! ## Following the table -/

variable (copies : String → RepoCopy)

/-- The copy of a DID has followed the rows to the store. -/
def Follows (did : String) (ds : List RepoDelta) (c : RepoCopy) : Prop :=
  (copies did).takeAll setOp ds = some c

/-- It is one change behind, or it had that change from the start. -/
def Waits (did : String) (ds : List RepoDelta) (c : RepoCopy) (d : RepoDelta) : Prop :=
  ∃ b, (copies did).takeAll setOp ds = some b ∧ b.take setOp d = some c ∧
    (b.version < c.version ∨ c.version = (copies did).version)

theorem rules_follows : Rules (Follows copies) (Waits copies) where
  commit _ _ _ _ h hlt hsince := ⟨_, h, Replica.take_next hlt hsince, .inl hlt⟩
  row _ _ _ _ h := by
    obtain ⟨b, hb, htake, -⟩ := h
    rw [Follows, Replica.takeAll_concat, hb]
    exact htake

variable {copies} {X : Foreign} {s t : LogState}

/-- A change that the copy had from the start may be lost. -/
theorem Waits.follows {did : String} {ds : List RepoDelta} {c : RepoCopy} {d : RepoDelta}
    (h : Waits copies did ds c d) (hc : c.version = (copies did).version) :
    Follows copies did ds c := by
  obtain ⟨b, hb, htake, -⟩ := h
  have hmax := Replica.version_of_take htake
  have hle : d.version ≤ b.version :=
    calc d.version ≤ c.version := hmax ▸ le_max_right _ _
      _ = (copies did).version := hc
      _ ≤ b.version := Replica.version_le_of_takeAll hb
  rw [Replica.take_of_le hle] at htake
  exact hb.trans htake

theorem Kept.current (h : Kept X (Follows copies) (Waits copies) s) : Current X copies s := h.atRest

/-- Copies taken of the stores as they are, with all that is in the table passed over. -/
theorem Kept.take (h : Kept X Told Tells s) (hcopies : ∀ did, copies did = copyOf (s.stores did)) :
    Kept X (Follows copies) (Waits copies) s where
  queue := h.queue
  atRest did hrest := by
    rw [Follows, hcopies]
    exact Replica.takeAll_of_le (h.atRest did hrest)
  onItsWay task w hw := by
    obtain ⟨d, hbears, htold, hle⟩ := h.onItsWay task w hw
    refine ⟨d, hbears, copyOf (s.stores w.did), ?_, Replica.take_of_le hle, .inr ?_⟩
    · rw [hcopies]
      exact Replica.takeAll_of_le htold
    · rw [hcopies]

theorem Kept.not_current (hU : ChainsRevs X.repo) (hO : X.repo.AppliesInOrder) {a : LogStep}
    (h : Kept X (Follows copies) (Waits copies) s) (hmisses : Misses X copies s a)
    (hstep : logStep X s a = some t) : ¬ Current X copies t := by
  obtain ⟨did, hloses, hnew⟩ := hmisses
  obtain ⟨hrest, hdeltas, ⟨d, b, hb, -, hlt⟩, hway⟩ :=
    h.lost (rules_follows copies) hU hO hloses hstep
  intro hcurrent
  have hcopy := hcurrent did hrest
  rw [hdeltas, hb, Option.some.injEq] at hcopy
  subst hcopy
  have hsame := hlt.resolve_left (lt_irrefl _)
  rcases hway with ⟨hbusy, hstores⟩ | ⟨hbefore, hgrows⟩
  · rw [hstores] at hsame
    exact hnew.elim hbusy fun hne => hne hsame
  · have hle := Replica.version_le_of_takeAll (h.atRest did hbefore)
    exact absurd (hsame ▸ hgrows) (not_lt.2 hle)

theorem ComesUp.kept (h : ComesUp X s) : Kept X Told Tells s := by
  have hidle : ∀ {k : Nat} {w : Writing}, s.writing.lookup k ≠ some w := by
    intro k w hk
    rw [h.idle] at hk
    cases hk
  obtain ⟨files, hfiles⟩ := h.locks
  exact ⟨⟨hfiles ▸ ActorStore.guarded_start files, fun _ _ hk => absurd hk hidle, h.known,
    fun _ _ _ hk => absurd hk hidle, fun _ _ _ _ _ _ hk => absurd hk hidle⟩,
    fun did _ => h.rows did, fun _ _ hk => absurd hk hidle⟩

/-- **Copies taken at any moment of a run have each repo whenever no request of its DID is in flight,
if and only if no commit that they do not have ends without a row.** -/
theorem copies_current_iff (hU : ChainsRevs X.repo) (hO : X.repo.AppliesInOrder)
    (hK : Sequencer.RoundTrips X.codecs X.encoders) (hs : ComesUp X s) {before : List LogStep}
    (hr : Runs.run (logStep X) s before = some t) (after : List LogStep) :
    Runs.Always (logStep X) (Current X fun did => copyOf (t.stores did)) t after ↔
      Runs.Along (logStep X) (fun u a => ¬ Misses X (fun did => copyOf (t.stores did)) u a) t
        after := by
  have ht : Kept X Told Tells t := (Runs.always_of_keep (fun _ _ _ h hstep =>
    kept_step rules_told hU hO hK h hstep fun _ _ _ hd => hd.1) hs.kept before).last hr
  refine Runs.always_iff_along (fun _ h => h.current) ?_ ?_ (ht.take fun _ => rfl) after
  · intro u a v h hkept hstep
    refine kept_step (rules_follows _) hU hO hK h hstep fun did hloses d hd => ?_
    by_contra hbehind
    obtain ⟨-, -, -, hway⟩ := h.lost (rules_follows _) hU hO hloses hstep
    refine hkept ⟨did, hloses, hway.symm.imp And.left fun hw hsame => hbehind (hd.follows ?_)⟩
    rw [hw.2]
    exact hsame
  · exact fun _ _ _ h hmisses hstep => h.not_current hU hO (not_not.1 hmisses) hstep

/-! ## Posts that a copy follows -/

theorem comesUp_freshLog : ComesUp plainForeign freshLog where
  locks := ⟨_, rfl⟩
  idle := rfl
  rows _ _ hd := by cases hd
  known _ hx := by cases hx

/-- Copies of the repos before the posts. -/
theorem copies_current_post :
    Runs.Always (logStep plainForeign) (Current plainForeign fun did => copyOf (freshLog.stores did))
      freshLog (postSteps ++ nextPostSteps) := by
  have hwell : Runs.Along (logStep plainForeign) (fun s a => endsWell plainForeign s a = true)
      freshLog (postSteps ++ nextPostSteps) := by
    decide +kernel
  refine (copies_current_iff chainsRevs_inOrder ActorStore.RepoLib.appliesInOrder_inOrder
    roundTrips_plainForeign comesUp_freshLog (Runs.run_nil freshLog) _).2 (hwell.mono ?_)
  rintro s a hs ⟨did, hloses, -⟩
  rw [hloses.not_endsWell] at hs
  cases hs

end CacosPds.Server
