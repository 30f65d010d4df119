import CacosPds.ActorStore.ProcessWrites
import CacosPds.Lib.Run
/-!
# Blob references over runs of `process_writes`

The blob pass of a batch first drops the `record_blob` rows of every URI that the batch updates or
deletes (`deleteDereferencedBlobs`) and then adds a row for every blob that any write of the batch
lists (`processBlob`), those of writes that a later one of the batch replaces or undoes among them.
-/
namespace CacosPds.ActorStore

open Stages

/-- An actor's store, and for each URI the blobs that its latest write listed. -/
structure BlobState where
  store : Store
  latest : AtUri → List Cid

structure WriteCall where
  faults : Faults
  now : Clock
  writes : List PreparedWrite
  swapCommit : Option Cid

def PreparedWrite.blobCids (w : PreparedWrite) : List Cid := w.blobs.map PreparedBlobRef.cid

/-- The listed blobs of the latest writes, after a batch. -/
def latestAfter (writes : List PreparedWrite) (latest : AtUri → List Cid) (u : AtUri) : List Cid :=
  ((lastWrite writes u).map PreparedWrite.blobCids).getD (latest u)

/-- A call of `process_writes` that returns. -/
def blobStep (U : RepoLib) (x : BlobState) (call : WriteCall) : Option BlobState :=
  match (processWrites U call.faults call.now call.writes call.swapCommit).exec x.store with
  | (.ok _, t) => some ⟨t, latestAfter call.writes x.latest⟩
  | (.error _, _) => none

/-- `record_blob` has exactly the blobs of the live records. -/
def BlobsMatch (x : BlobState) : Prop :=
  ∀ c u, (c, u) ∈ x.store.recordBlob ↔ x.store.record.lookup u ≠ none ∧ c ∈ x.latest u

/-- The condition on a batch: what any of its writes lists, the last write to that URI lists. -/
def ListsKept (writes : List PreparedWrite) : Prop :=
  ∀ w ∈ writes, ∀ v, lastWrite writes w.uri = some v → ∀ c ∈ w.blobCids, c ∈ v.blobCids

/-- One write per URI is enough. -/
theorem listsKept_of_nodup {writes : List PreparedWrite}
    (h : (writes.map PreparedWrite.uri).Nodup) : ListsKept writes := by
  intro w hw v hlast c hc
  obtain ⟨hv, huri⟩ := lastWrite_mem hlast
  rwa [List.inj_on_of_nodup_map h hv hw huri]

/-! ## What a batch does to `record_blob` -/

theorem recordBlob_promote (blob : PreparedBlobRef) (s : Store) :
    (promote blob s).recordBlob = s.recordBlob := by
  unfold promote
  split <;> rfl

theorem mem_recordBlob_blobsAll {rns : List ((AtUri × PreparedBlobRef) × Nat)} {s : Store} {c : Cid}
    {u : AtUri} : (c, u) ∈ (blobsAll rns s).recordBlob ↔
      (c, u) ∈ s.recordBlob ∨ ∃ rn ∈ rns, rn.1.1 = u ∧ rn.1.2.cid = c := by
  induction rns generalizing s with
  | nil => simp [blobsAll]
  | cons rn rns ih =>
    show (c, u) ∈ (blobsAll rns (associate rn.1.2.cid rn.1.1 (promote rn.1.2 s))).recordBlob ↔ _
    rw [ih, List.exists_mem_cons_iff, ← or_assoc]
    refine or_congr_left ?_
    show (c, u) ∈ insert (rn.1.2.cid, rn.1.1) (promote rn.1.2 s).recordBlob ↔ _
    rw [recordBlob_promote, Finset.mem_insert, Prod.mk.injEq, or_comm]
    exact or_congr_right ⟨fun h => ⟨h.2.symm, h.1.symm⟩, fun h => ⟨h.2.symm, h.1.symm⟩⟩

theorem mem_recordBlob_dereference {writes : List PreparedWrite} {s : Store} {c : Cid} {u : AtUri} :
    (c, u) ∈ (dereference writes s).recordBlob ↔ (c, u) ∈ s.recordBlob ∧ u ∉ touchedUris writes := by
  have hrows : (dereference writes s).recordBlob =
      (deleteRecordBlobs (touchedUris writes) s).recordBlob := by
    unfold dereference
    split <;> rfl
  rw [hrows]
  exact Finset.mem_filter

theorem mem_blobRefs {writes : List PreparedWrite} {c : Cid} {u : AtUri} :
    (∃ rn ∈ (blobRefs writes).zipIdx, rn.1.1 = u ∧ rn.1.2.cid = c) ↔
      ∃ w ∈ writes, w.uri = u ∧ c ∈ w.blobCids := by
  constructor
  · rintro ⟨⟨r, n⟩, hrn, rfl, rfl⟩
    have hr := List.mem_of_getElem? (List.mk_mem_zipIdx_iff_getElem?.1 hrn)
    obtain ⟨w, hw, hrw⟩ := List.mem_flatMap.1 hr
    obtain ⟨b, hb, rfl⟩ := List.mem_map.1 hrw
    exact ⟨w, hw, rfl, List.mem_map_of_mem hb⟩
  · rintro ⟨w, hw, rfl, hc⟩
    obtain ⟨b, hb, rfl⟩ := List.mem_map.1 hc
    have hr : (w.uri, b) ∈ blobRefs writes :=
      List.mem_flatMap.2 ⟨w, hw, List.mem_map_of_mem hb⟩
    obtain ⟨n, hn⟩ := List.mem_iff_getElem?.1 hr
    exact ⟨((w.uri, b), n), List.mk_mem_zipIdx_iff_getElem?.2 hn, rfl, rfl⟩

/-- What a call that returns leaves in the store. -/
structure Returned (s t : Store) (writes : List PreparedWrite) : Prop where
  takes : TakesAll s.repo.tree writes
  tree : t.repo.tree = writes.foldl applyWrite s.repo.tree
  indexed : ∀ u, t.indexed u = ((lastWrite writes u).map PreparedWrite.newCid).getD (s.indexed u)
  recordBlob : ∀ c u, (c, u) ∈ t.recordBlob ↔
    ((c, u) ∈ s.recordBlob ∧ u ∉ touchedUris writes) ∨ ∃ w ∈ writes, w.uri = u ∧ c ∈ w.blobCids

theorem returned_of_ok {U : RepoLib} (hU : U.AppliesInOrder) {F : Faults} {now : Clock}
    {writes : List PreparedWrite} {swapCommit : Option Cid} {s t : Store} {r : CommitDataWithOps}
    (h : (processWrites U F now writes swapCommit).exec s = (.ok r, t)) : Returned s t writes := by
  obtain ⟨hf, hi, ha, hb⟩ := processWrites_ok.1 h
  have hsame := processWrites_sameRepo now hf hi ha
  rw [h] at hsame
  obtain ⟨-, rfl⟩ := (does_processWriteBlobs F writes _ _).1 hb
  obtain ⟨root, commit, hacc, rfl⟩ := formatCommit_ok.1 hf
  obtain ⟨htakes, htree⟩ := hU.tree hacc.formatted
  refine ⟨htakes, ?_, fun u => ?_, fun c u => ?_⟩
  · rw [hsame.repo]
    exact htree
  · rw [Store.indexed, hsame.record]
    have hindex := indexed_indexAll now (answer s writes commit).commitData.rev writes.zipIdx s u
    rw [List.zipIdx_map_fst] at hindex
    exact hindex
  · rw [mem_recordBlob_blobsAll, mem_recordBlob_dereference, committed_recordBlob, mem_blobRefs]

theorem Returned.indexAgrees {s t : Store} {writes : List PreparedWrite} (h : Returned s t writes)
    (hs : s.IndexAgrees) : t.IndexAgrees := by
  intro u
  rw [h.indexed, h.tree, lookup_foldl_applyWrite, hs u]

theorem Store.lookup_eq_none {s : Store} {u : AtUri} :
    s.record.lookup u = none ↔ s.indexed u = none := Option.map_eq_none_iff.symm

/-- The invariant: the index holds what the tree holds, and `record_blob` the live blobs. -/
structure BlobInv (x : BlobState) : Prop where
  index : x.store.IndexAgrees
  blobs : BlobsMatch x

theorem Returned.blobsMatch {x : BlobState} {t : Store} {writes : List PreparedWrite}
    (h : Returned x.store t writes) (hx : BlobInv x) (hkept : ListsKept writes) :
    BlobsMatch ⟨t, latestAfter writes x.latest⟩ := by
  intro c u
  show (c, u) ∈ t.recordBlob ↔ t.record.lookup u ≠ none ∧ c ∈ latestAfter writes x.latest u
  rw [h.recordBlob, ne_eq, Store.lookup_eq_none, h.indexed, latestAfter]
  cases hlast : lastWrite writes u with
  | none =>
    -- the batch is not about this URI
    have hother := lastWrite_eq_none.1 hlast
    have hu : u ∉ touchedUris writes := by
      intro hmem
      obtain ⟨w, hw, -, hwu⟩ := mem_touchedUris.1 hmem
      exact hother w hw hwu
    have hno : ¬ ∃ w ∈ writes, w.uri = u ∧ c ∈ w.blobCids := by
      rintro ⟨w, hw, hwu, -⟩
      exact hother w hw hwu
    rw [or_iff_left hno, and_iff_left hu, hx.blobs, ne_eq, Store.lookup_eq_none]
    rfl
  | some v =>
    obtain ⟨hv, hvu⟩ := lastWrite_mem hlast
    have hold : ¬ ((c, u) ∈ x.store.recordBlob ∧ u ∉ touchedUris writes) := by
      rintro ⟨hrow, hu⟩
      have hfree := lookup_of_creates h.takes hu ⟨v, hv, hvu⟩
      rw [← hx.index u] at hfree
      exact ((hx.blobs c u).1 hrow).1 (Store.lookup_eq_none.2 hfree)
    have hlisted : (∃ w ∈ writes, w.uri = u ∧ c ∈ w.blobCids) ↔ c ∈ v.blobCids := by
      constructor
      · rintro ⟨w, hw, rfl, hc⟩
        exact hkept w hw v hlast c hc
      · exact fun hc => ⟨v, hv, hvu, hc⟩
    rw [or_iff_right hold, hlisted]
    cases v with
    | create v => exact (and_iff_right (Option.some_ne_none _)).symm
    | update v => exact (and_iff_right (Option.some_ne_none _)).symm
    | delete v => simp [PreparedWrite.blobCids, PreparedWrite.blobs]

theorem Returned.listsKept {x : BlobState} {t : Store} {writes : List PreparedWrite}
    (h : Returned x.store t writes) (hmatch : BlobsMatch ⟨t, latestAfter writes x.latest⟩) :
    ListsKept writes := by
  intro w hw v hlast c hc
  have hrow := (h.recordBlob c w.uri).2 (.inr ⟨w, hw, rfl, hc⟩)
  have hlatest : c ∈ latestAfter writes x.latest w.uri := ((hmatch c w.uri).1 hrow).2
  rwa [latestAfter, hlast] at hlatest

theorem blobStep_some {U : RepoLib} {x y : BlobState} {call : WriteCall}
    (h : blobStep U x call = some y) :
    ∃ r t, (processWrites U call.faults call.now call.writes call.swapCommit).exec x.store =
      (.ok r, t) ∧ y = ⟨t, latestAfter call.writes x.latest⟩ := by
  unfold blobStep at h
  split at h
  · rename_i r t hr
    cases h
    exact ⟨r, t, hr, rfl⟩
  · cases h

/-- **In a run of successful `process_writes` calls, `record_blob` is after each call exactly the
blobs of the live records' latest writes, if and only if no batch of the run lists a blob that the
last write of the batch to the same URI does not list.** -/
theorem blobsMatch_iff_listsKept {U : RepoLib} (hU : U.AppliesInOrder) {x : BlobState}
    (hx : BlobInv x) (calls : List WriteCall) :
    Runs.Always (blobStep U) BlobsMatch x calls ↔
      Runs.Along (blobStep U) (fun _ call => ListsKept call.writes) x calls := by
  refine Runs.always_iff_along (I := BlobInv) (fun _ h => h.blobs) ?_ ?_ hx calls
  · intro y call z hy hkept hstep
    obtain ⟨r, t, hr, rfl⟩ := blobStep_some hstep
    have hret := returned_of_ok hU hr
    exact ⟨hret.indexAgrees hy.index, hret.blobsMatch hy hkept⟩
  · intro y call z hy hkept hstep hmatch
    obtain ⟨r, t, hr, rfl⟩ := blobStep_some hstep
    exact hkept ((returned_of_ok hU hr).listsKept hmatch)

/-! ## A record replaced in the batch that creates it -/

/-- Two uploads wait, and there is no record yet. -/
def BlobState.uploaded : BlobState where
  store := { Store.fresh with
    blob := (Finmap.singleton ⟨"b1"⟩ ⟨"image/png", 1, some "t1", none⟩).insert ⟨"b2"⟩
      ⟨"image/png", 1, some "t2", none⟩ }
  latest _ := []

theorem BlobState.uploaded_inv : BlobInv uploaded := by
  constructor
  · exact fun u => rfl
  · intro c u
    simp [uploaded, Store.fresh]

/-- One record with a blob in one batch, another blob for it in the next. -/
theorem blobsMatch_update_in_next_batch :
    Runs.Always (blobStep .inOrder) BlobsMatch .uploaded
      [⟨fun _ => none, ⟨"2026-01-02", fun _ => "2026-01-02"⟩,
          [.create ⟨feedPost "a", ⟨"x"⟩, none, [], [⟨⟨"b1"⟩, "image/png", none, none⟩]⟩], none⟩,
        ⟨fun _ => none, ⟨"2026-01-02", fun _ => "2026-01-02"⟩,
          [.update ⟨feedPost "a", ⟨"y"⟩, none, [], [⟨⟨"b2"⟩, "image/png", none, none⟩]⟩], none⟩] := by
  refine (blobsMatch_iff_listsKept RepoLib.appliesInOrder_inOrder BlobState.uploaded_inv _).2 ?_
  exact fun y _ => ⟨listsKept_of_nodup (by decide), fun z _ =>
    ⟨listsKept_of_nodup (by decide), trivial⟩⟩

/-- Both in one batch: the replaced record's blob stays in `record_blob`. -/
theorem blobsMatch_fails_create_then_update :
    ¬ Runs.Always (blobStep .inOrder) BlobsMatch .uploaded
      [⟨fun _ => none, ⟨"2026-01-02", fun _ => "2026-01-02"⟩,
        [.create ⟨feedPost "a", ⟨"x"⟩, none, [], [⟨⟨"b1"⟩, "image/png", none, none⟩]⟩,
          .update ⟨feedPost "a", ⟨"y"⟩, none, [], [⟨⟨"b2"⟩, "image/png", none, none⟩]⟩], none⟩] := by
  intro h
  have hmatch := h.2 _ rfl
  exact absurd ((hmatch ⟨"b1"⟩ (feedPost "a")).1 (by decide)).2 (by decide)

end CacosPds.ActorStore
