import CacosPds.ActorStore.WriteBlobs
/-!
# `process_writes` (`mod.rs:747-766`)

| here | there |
| --- | --- |
| `indexRecord`   | `index_record`, `delete_record` (`record/mod.rs:309`, `:354`) |
| `indexWrites`   | `index_writes` (`mod.rs:875`); each statement is committed on its own |
| `applyCommit`   | `apply_commit_inner` (`sql_repo.rs:458`), one transaction |
| `processWrites` | `process_writes` (`mod.rs:747`): four stages, no transaction around them |
-/
namespace CacosPds.ActorStore

open Stages

/-- The clock: when the storage reader was made, and when each write is indexed. -/
structure Clock where
  reader : String
  indexed : Nat → String

/-! ## The record index -/

/-- One write on the `record` table. The upsert leaves a row's `takedownRef` alone. -/
def indexRow (rev indexedAt : String) (w : PreparedWrite) (t : Sql.Table AtUri RecordRow) :
    Sql.Table AtUri RecordRow :=
  match w.newCid with
  | some cid => t.upsert w.uri ⟨cid, rev, indexedAt, none⟩ fun row =>
      { row with cid := cid, repoRev := rev, indexedAt := indexedAt }
  | none => t.erase w.uri

def indexRecord (rev indexedAt : String) (w : PreparedWrite) (s : Store) : Store :=
  { s with record := indexRow rev indexedAt w s.record }

def indexError (w : PreparedWrite) : String :=
  match w.action with
  | .delete => "RecordReader::delete_record: delete_by_id failed"
  | _ => "RecordReader::index_record: insert failed"

def indexWrite (F : Faults) (now : Clock) (rev : String) (wn : PreparedWrite × Nat) : Call Unit := do
  access (F (.indexWrite wn.2)) (.internal (indexError wn.1))
  modify (indexRecord rev (now.indexed wn.2) wn.1)

def indexWrites (F : Faults) (now : Clock) (writes : List PreparedWrite) (rev : String) : Call Unit :=
  forM writes.zipIdx (indexWrite F now rev)

/-! ## The commit -/

/-- The rows of a commit's new blocks. -/
def blockRows (commit : CommitData) : List (Cid × BlockRow) :=
  commit.newBlocks.map fun b => (b.1, ⟨commit.rev, b.2.length, b.2⟩)

/-- What the transaction writes: the root row, the new blocks, then the deletes, 500 a statement. -/
def putCommit (reader : String) (commit : CommitData) (s : Store) : Store :=
  { s with
    repoRoot := some ⟨commit.cid, commit.rev, reader⟩
    repoBlock := (s.repoBlock.insertAllIgnore (blockRows commit)).deleteInBatches 500 commit.removedCids
    repo := commit.repo }

def applyCommit (F : Faults) (now : Clock) (commit : CommitData) (isCreate : Bool) : Call Unit := do
  access (F .applyCommit) .ofAnyhow
  let s ← get
  if s.repoRoot.isSome = isCreate then
    throw (.ofAnyhow (if isCreate then "apply_commit: root insert (create) failed"
      else "apply_commit: root update failed"))
  else modify (putCommit now.reader commit)

def processWrites (U : RepoLib) (F : Faults) (now : Clock) (writes : List PreparedWrite)
    (swapCommit : Option Cid) : Call CommitDataWithOps := do
  let s ← get
  let commit ← ofExcept (formatCommit U F s writes swapCommit)
  indexWrites F now writes commit.commitData.rev
  applyCommit F now commit.commitData false
  processWriteBlobs F writes
  return commit

/-! ## What the stages do -/

/-- The writes of a batch on the record index, one after another. -/
def indexAll (now : Clock) (rev : String) (wns : List (PreparedWrite × Nat)) (s : Store) : Store :=
  wns.foldl (fun s wn => indexRecord rev (now.indexed wn.2) wn.1 s) s

theorem does_indexWrite (F : Faults) (now : Clock) (rev : String) (wn : PreparedWrite × Nat) :
    Does (indexWrite F now rev wn) (fun _ => F (.indexWrite wn.2) = none)
      (indexRecord rev (now.indexed wn.2) wn.1) :=
  does_access_modify _ _ _

theorem does_indexWrites (F : Faults) (now : Clock) (rev : String) (writes : List PreparedWrite) :
    Does (indexWrites F now writes rev)
      (fun _ => ∀ n w, writes[n]? = some w → F (.indexWrite n) = none)
      (indexAll now rev writes.zipIdx) :=
  does_forM_zipIdx (g := fun s wn => indexRecord rev (now.indexed wn.2) wn.1 s)
    (does_indexWrite F now rev) writes

theorem indexAll_eq (now : Clock) (rev : String) (wns : List (PreparedWrite × Nat)) (s : Store) :
    indexAll now rev wns s = { s with
      record := wns.foldl (fun t wn => indexRow rev (now.indexed wn.2) wn.1 t) s.record } := by
  induction wns generalizing s with
  | nil => rfl
  | cons wn wns ih =>
    show indexAll now rev wns (indexRecord rev (now.indexed wn.2) wn.1 s) = _
    rw [ih]
    rfl

/-- What a write makes of the row at its URI. -/
def rowAfter (rev indexedAt : String) (w : PreparedWrite) (row : Option RecordRow) :
    Option RecordRow :=
  w.newCid.map fun cid => row.elim ⟨cid, rev, indexedAt, none⟩ fun row =>
    { row with cid := cid, repoRev := rev, indexedAt := indexedAt }

theorem lookup_indexRow (rev indexedAt : String) (w : PreparedWrite) (t : Sql.Table AtUri RecordRow)
    (u : AtUri) : (indexRow rev indexedAt w t).lookup u =
      if u = w.uri then rowAfter rev indexedAt w (t.lookup u) else t.lookup u := by
  unfold indexRow rowAfter
  split
  · rename_i cid hc
    rw [Sql.Table.lookup_upsert]
    split
    · subst_vars; rw [hc]; rfl
    · rfl
  · rename_i hc
    rw [Sql.Table.lookup_erase_eq, hc]
    rfl

/-- A URI that no write is about keeps its row. -/
theorem lookup_indexAll_other {now : Clock} {rev : String} {wns : List (PreparedWrite × Nat)}
    {s : Store} {u : AtUri} (h : lastWrite (wns.map Prod.fst) u = none) :
    (indexAll now rev wns s).record.lookup u = s.record.lookup u := by
  have hlocal : KeyedFold.Local (fun (t : Sql.Table AtUri RecordRow) u => t.lookup u)
      (fun t (wn : PreparedWrite × Nat) => indexRow rev (now.indexed wn.2) wn.1 t)
      (fun wn => wn.1.uri) (fun wn => rowAfter rev (now.indexed wn.2) wn.1) :=
    fun t wn u => lookup_indexRow rev (now.indexed wn.2) wn.1 t u
  have hnone : KeyedFold.at_ (fun wn : PreparedWrite × Nat => wn.1.uri) u wns = [] := by
    refine KeyedFold.at_eq_nil.2 fun wn hwn => ?_
    exact lastWrite_eq_none.1 h wn.1 (List.mem_map_of_mem hwn)
  rw [indexAll_eq, KeyedFold.get_foldl hlocal, hnone]
  rfl

/-- The CID and the rev of a row after the writes: those of the last write to its URI. -/
theorem cidRev_indexAll (now : Clock) (rev : String) (wns : List (PreparedWrite × Nat)) (s : Store)
    (u : AtUri) :
    ((indexAll now rev wns s).record.lookup u).map (fun row => (row.cid, row.repoRev)) =
      ((lastWrite (wns.map Prod.fst) u).map fun w => w.newCid.map (·, rev)).getD
        ((s.record.lookup u).map fun row => (row.cid, row.repoRev)) := by
  have hlocal : KeyedFold.Local
      (fun (t : Sql.Table AtUri RecordRow) u => (t.lookup u).map fun row => (row.cid, row.repoRev))
      (fun t (wn : PreparedWrite × Nat) => indexRow rev (now.indexed wn.2) wn.1 t)
      (fun wn => wn.1.uri) (fun wn _ => wn.1.newCid.map (·, rev)) := by
    intro t wn u
    show ((indexRow rev (now.indexed wn.2) wn.1 t).lookup u).map _ = _
    rw [lookup_indexRow]
    split
    · rw [rowAfter, Option.map_map]
      congr 1
      funext cid
      cases t.lookup u <;> rfl
    · rfl
  have hlast : lastWrite (wns.map Prod.fst) u =
      ((KeyedFold.at_ (fun wn : PreparedWrite × Nat => wn.1.uri) u wns).getLast?).map Prod.fst := by
    rw [lastWrite, ← KeyedFold.map_at, List.getLast?_map]
  rw [indexAll_eq, KeyedFold.get_foldl_last hlocal, hlast, Option.map_map]
  rfl

/-- The record index after the writes. -/
theorem indexed_indexAll (now : Clock) (rev : String) (wns : List (PreparedWrite × Nat)) (s : Store)
    (u : AtUri) : (indexAll now rev wns s).indexed u =
      ((lastWrite (wns.map Prod.fst) u).map PreparedWrite.newCid).getD (s.indexed u) := by
  have h := congrArg (Option.map Prod.fst) (cidRev_indexAll now rev wns s u)
  rw [Option.map_map] at h
  refine h.trans ?_
  cases lastWrite (wns.map Prod.fst) u with
  | none => simp [Store.indexed, Function.comp_def]
  | some w => simp [Function.comp_def]

/-- A failing index pass stops at its first failing write. -/
theorem indexWrites_error {F : Faults} {now : Clock} {rev : String} {writes : List PreparedWrite}
    {s t : Store} {e : PdsError} (h : (indexWrites F now writes rev).exec s = (.error e, t)) :
    ∃ n < writes.length, F (.indexWrite n) ≠ none ∧ (∀ m < n, F (.indexWrite m) = none) ∧
      t = indexAll now rev (writes.zipIdx.take n) s := by
  obtain ⟨n, ⟨w, k⟩, hn, hbefore, hfail, ht⟩ :=
    forM_error (g := fun s wn => indexRecord rev (now.indexed wn.2) wn.1 s)
      (does_indexWrite F now rev) (fun wn => (clean_access _ _).bind_modify _) h
  obtain ⟨hw, rfl⟩ := getElem?_zipIdx_eq_some.1 hn
  obtain ⟨hlt, -⟩ := List.getElem?_eq_some_iff.1 hw
  refine ⟨_, hlt, hfail, fun m hm => ?_, ht⟩
  have hlt' : m < writes.length := by omega
  exact hbefore m (writes[m], m) hm
    (getElem?_zipIdx_eq_some.2 ⟨List.getElem?_eq_getElem hlt', rfl⟩)

/-- The transaction, once it can begin: refused without a root row. -/
theorem exec_applyCommit (F : Faults) (now : Clock) (commit : CommitData) (s : Store) :
    (applyCommit F now commit false).exec s = match F .applyCommit, s.repoRoot with
      | some e, _ => (.error (.ofAnyhow e), s)
      | none, none => (.error (.ofAnyhow "apply_commit: root update failed"), s)
      | none, some _ => (.ok (), putCommit now.reader commit s) := by
  unfold applyCommit access
  rw [exec_bind]
  cases F .applyCommit with
  | some e => rfl
  | none => cases hs : s.repoRoot <;> simp [exec_bind, hs]

theorem does_applyCommit (F : Faults) (now : Clock) (commit : CommitData) :
    Does (applyCommit F now commit false) (fun s => F .applyCommit = none ∧ s.repoRoot ≠ none)
      (putCommit now.reader commit) := by
  intro s t
  rw [exec_applyCommit]
  split <;> simp [*, eq_comm]

theorem clean_applyCommit (F : Faults) (now : Clock) (commit : CommitData) :
    Clean (applyCommit F now commit false) := by
  intro s e t h
  rw [exec_applyCommit] at h
  split at h <;> cases h <;> rfl

/-! ## The whole call -/

/-- The store once the commit of an answer is applied. -/
def committed (now : Clock) (writes : List PreparedWrite) (r : CommitDataWithOps) (s : Store) : Store :=
  putCommit now.reader r.commitData (indexAll now r.commitData.rev writes.zipIdx s)

theorem committed_blob (now : Clock) (writes : List PreparedWrite) (r : CommitDataWithOps)
    (s : Store) : (committed now writes r s).blob = s.blob := by
  rw [committed, putCommit, indexAll_eq]

theorem committed_recordBlob (now : Clock) (writes : List PreparedWrite) (r : CommitDataWithOps)
    (s : Store) : (committed now writes r s).recordBlob = s.recordBlob := by
  rw [committed, putCommit, indexAll_eq]

theorem committed_repoBlock (now : Clock) (writes : List PreparedWrite) (r : CommitDataWithOps)
    (s : Store) : (committed now writes r s).repoBlock =
      (s.repoBlock.insertAllIgnore (blockRows r.commitData)).deleteIn r.commitData.removedCids := by
  rw [committed, putCommit, indexAll_eq, Sql.Table.deleteInBatches_eq]

/-- No index statement fails. -/
def IndexRuns (F : Faults) (writes : List PreparedWrite) : Prop :=
  ∀ n < writes.length, F (.indexWrite n) = none

theorem indexRuns_iff {F : Faults} {writes : List PreparedWrite} :
    IndexRuns F writes ↔ ∀ n w, writes[n]? = some w → F (.indexWrite n) = none := by
  constructor
  · exact fun h n w hn => h n (List.getElem?_eq_some_iff.1 hn).1
  · exact fun h n hn => h n _ (List.getElem?_eq_getElem hn)

section

variable {U : RepoLib} {F : Faults} {now : Clock} {writes : List PreparedWrite}
  {swapCommit : Option Cid} {s t : Store}

/-- The stages of a call that returns. -/
theorem processWrites_ok {r : CommitDataWithOps} :
    (processWrites U F now writes swapCommit).exec s = (.ok r, t) ↔
      formatCommit U F s writes swapCommit = .ok r ∧ IndexRuns F writes ∧ F .applyCommit = none ∧
        (processWriteBlobs F writes).exec (committed now writes r s) = (.ok (), t) := by
  unfold processWrites
  rw [exec_bind, exec_get]
  simp only [exec_bind_ok, exec_ofExcept, Prod.mk.injEq, does_indexWrites F now _ writes _ _,
    does_applyCommit F now _ _ _, exec_pure, Except.ok.injEq, ← indexRuns_iff]
  constructor
  · rintro ⟨r', _, ⟨hf, rfl⟩, _, _, ⟨hi, rfl⟩, _, _, ⟨⟨ha, -⟩, rfl⟩, _, _, hb, rfl, rfl⟩
    exact ⟨hf, hi, ha, hb⟩
  · rintro ⟨hf, hi, ha, hb⟩
    obtain ⟨root, commit, hacc, -⟩ := formatCommit_ok.1 hf
    have hroot : (indexAll now r.commitData.rev writes.zipIdx s).repoRoot ≠ none := by
      rw [indexAll_eq]
      simp [hacc.hasRoot]
    exact ⟨r, s, ⟨hf, rfl⟩, (), _, ⟨hi, rfl⟩, (), _, ⟨⟨ha, hroot⟩, rfl⟩, (), t, hb, rfl, rfl⟩

/-- Where a call that fails has got to. -/
theorem processWrites_error {e : PdsError}
    (h : (processWrites U F now writes swapCommit).exec s = (.error e, t)) :
    (formatCommit U F s writes swapCommit = .error e ∧ t = s) ∨
    ∃ r, formatCommit U F s writes swapCommit = .ok r ∧
      ((∃ n < writes.length, F (.indexWrite n) ≠ none ∧ (∀ m < n, F (.indexWrite m) = none) ∧
          t = indexAll now r.commitData.rev (writes.zipIdx.take n) s) ∨
        (IndexRuns F writes ∧ F .applyCommit ≠ none ∧
          t = indexAll now r.commitData.rev writes.zipIdx s) ∨
        (IndexRuns F writes ∧ F .applyCommit = none ∧
          (processWriteBlobs F writes).exec (committed now writes r s) = (.error e, t))) := by
  unfold processWrites at h
  rw [exec_bind, exec_get] at h
  rcases exec_bind_error.1 h with h | ⟨r, u, hr, h⟩
  · rw [exec_ofExcept, Prod.mk.injEq] at h
    exact .inl ⟨h.1, h.2.symm⟩
  rw [exec_ofExcept, Prod.mk.injEq] at hr
  obtain ⟨hf, rfl⟩ := hr
  refine .inr ⟨r, hf, ?_⟩
  rcases exec_bind_error.1 h with h | ⟨_, u, hindex, h⟩
  · exact .inl (indexWrites_error h)
  obtain ⟨hi, rfl⟩ := (does_indexWrites F now _ writes s u).1 hindex
  rcases exec_bind_error.1 h with h | ⟨_, u, happly, h⟩
  · refine .inr (.inl ⟨indexRuns_iff.2 hi, fun hF => ?_, clean_applyCommit F now _ _ _ _ h⟩)
    obtain ⟨root, commit, hacc, -⟩ := formatCommit_ok.1 hf
    rw [exec_applyCommit, hF, indexAll_eq] at h
    simp [hacc.hasRoot] at h
  obtain ⟨⟨ha, -⟩, rfl⟩ := (does_applyCommit F now _ _ u).1 happly
  rcases exec_bind_error.1 h with h | ⟨_, _, _, h⟩
  · exact .inr (.inr ⟨indexRuns_iff.2 hi, ha, h⟩)
  · cases h

variable (now) in
/-- Once the commit is applied the repo stays as it is, also when the blob pass fails. -/
theorem processWrites_sameRepo {r : CommitDataWithOps}
    (hf : formatCommit U F s writes swapCommit = .ok r) (hi : IndexRuns F writes)
    (ha : F .applyCommit = none) :
    SameRepo (committed now writes r s) ((processWrites U F now writes swapCommit).exec s).2 := by
  have hkeep := keeps_processWriteBlobs F writes (committed now writes r s)
  rcases hx : (processWrites U F now writes swapCommit).exec s with ⟨e | r', t⟩
  · rcases processWrites_error hx with ⟨hf', -⟩ | ⟨r', hf', ⟨n, hn, hfail, -⟩ | ⟨-, hfail, -⟩ | ⟨-, -, hb⟩⟩
    · rw [hf] at hf'; cases hf'
    · exact absurd (hi n hn) hfail
    · exact absurd ha hfail
    · rw [hf] at hf'
      cases hf'
      rwa [hb] at hkeep
  · obtain ⟨hf', -, -, hb⟩ := processWrites_ok.1 hx
    rw [hf] at hf'
    cases hf'
    rwa [hb] at hkeep

end

/-! ## The calls on the blobstore -/

/-- A call that a write batch may make. -/
def BlobCall.OfBatch : BlobCall → Prop
  | .makePermanent _ _ | .deleteMany _ => True
  | _ => False

/-- The later state's calls are the earlier one's and some of a batch. -/
def CallsAdded (s t : Store) : Prop :=
  ∃ calls, t.blobCalls = s.blobCalls ++ calls ∧ ∀ c ∈ calls, c.OfBatch

theorem CallsAdded.of_eq {s t : Store} (h : t.blobCalls = s.blobCalls) : CallsAdded s t :=
  ⟨[], by rw [h, List.append_nil], by simp⟩

theorem CallsAdded.refl (s : Store) : CallsAdded s s := .of_eq rfl

theorem CallsAdded.trans (s t u : Store) (h : CallsAdded s t) (k : CallsAdded t u) :
    CallsAdded s u := by
  obtain ⟨cs, hcs, hall⟩ := h
  obtain ⟨ds, hds, hall'⟩ := k
  refine ⟨cs ++ ds, by rw [hds, hcs, List.append_assoc], fun c hc => ?_⟩
  exact (List.mem_append.1 hc).elim (hall c) (hall' c)

theorem callsAdded_processWrites (U : RepoLib) (F : Faults) (now : Clock)
    (writes : List PreparedWrite) (swapCommit : Option Cid) :
    Keeps (processWrites U F now writes swapCommit) CallsAdded := by
  refine keeps_get_bind fun s => ?_
  refine Keeps.bind CallsAdded.trans (fun s => ?_) (fun r => ?_) s
  · rw [exec_ofExcept]
    exact .refl s
  refine Keeps.bind CallsAdded.trans (Keeps.forM CallsAdded.refl CallsAdded.trans fun wn _ =>
    keeps_access_modify CallsAdded.refl CallsAdded.trans _ _ fun _ => .of_eq rfl) fun _ => ?_
  refine Keeps.bind CallsAdded.trans (fun s => ?_) fun _ => ?_
  · rw [exec_applyCommit]
    split
    · exact .refl s
    · exact .refl s
    · exact .of_eq rfl
  refine Keeps.bind CallsAdded.trans ?_ fun _ => keeps_pure CallsAdded.refl _
  exact keeps_blobPass CallsAdded.refl CallsAdded.trans
    (fun tempKey cid _ => ⟨[.makePermanent tempKey cid], rfl, by simp [BlobCall.OfBatch]⟩)
    (fun _ _ => .of_eq rfl) (fun _ _ _ => .of_eq rfl) (fun _ _ => .of_eq rfl)
    (fun cids _ => ⟨[.deleteMany cids], rfl, by simp [BlobCall.OfBatch]⟩) F writes

end CacosPds.ActorStore
