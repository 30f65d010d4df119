import CacosPds.ActorStore.Listings
import CacosPds.ActorStore.RecordBlobs
import CacosPds.ActorStore.Takedown
import Mathlib.Data.Finset.Card
/-!
# Missing and untethered blobs (`blob/read.rs:43-123`)

| here | there |
| --- | --- |
| `getRecordsForBlob`, `getBlobCids` | `get_records_for_blob`, `get_blob_cids` (`read.rs:43`, `:80`) |
| `blobCount`, `recordBlobCount` | `blob_count`, `record_blob_count` (`read.rs:56`, `:68`) |
| `StoreCall`  | what a run does to the blob tables: uploads, `process_writes`, takedowns, each failing or not |
| `untethered` | the rows that no record refers to: uploads in waiting, and what a failed batch left |

A blob is missing when a record refers to it and it has no row (`Store.Missing`). The blob pass refers
to a blob after it has found its row, and deletes a row after the last reference: no call makes a blob
missing (`missing_of_run`).
-/
namespace CacosPds.ActorStore

open Stages

/-! ## The readers -/

/-- The rows of a query come in no particular order. -/
def getRecordsForBlob (err : Option String) (s : Store) (cid : Cid) :
    Except String (Multiset AtUri) :=
  match err with
  | some e => .error e
  | none => .ok ((s.recordBlob.filter fun row => row.1 = cid).val.map Prod.snd)

def getBlobCids (err : Option String) (s : Store) : Except String (Multiset Cid) :=
  match err with
  | some e => .error e
  | none => .ok (s.blob.select (fun _ _ => true) fun cid _ => cid)

def blobCount (err : Option String) (s : Store) : Except String Int :=
  match err with
  | some e => .error e
  | none => .ok s.blob.keys.card

/-- `SELECT count(DISTINCT "blobCid") FROM record_blob`. -/
def recordBlobCount (err : Option String) (s : Store) : Except String Int :=
  match err with
  | some e => .error e
  | none => .ok (s.recordBlob.image Prod.fst).card

/-! ## Runs -/

inductive StoreCall where
  | upload (F : UploadFaults) (tempKey mime : String) (bytes : Bytes)
  | processWrites (call : WriteCall)
  | updateBlobTakedownStatus (err : Option String) (now : String) (blob : Cid)
      (takedown : StatusAttr)

/-- What a call leaves, whether it returns or fails. -/
def storeStep (U : RepoLib) (cidOf : Bytes → Cid) (s : Store) : StoreCall → Option Store
  | .upload F tempKey mime bytes => some ((uploadBlob cidOf F tempKey mime bytes).exec s).2
  | .processWrites c => some ((processWrites U c.faults c.now c.writes c.swapCommit).exec s).2
  | .updateBlobTakedownStatus err now blob takedown =>
    some ((updateBlobTakedownStatus err now blob takedown).exec s).2

/-- No blob has become missing. -/
def NoneLost (s t : Store) : Prop := ∀ cid, t.Missing cid → s.Missing cid

theorem NoneLost.refl (s : Store) : NoneLost s s := fun _ h => h

theorem NoneLost.trans (s t u : Store) (h : NoneLost s t) (k : NoneLost t u) : NoneLost s u :=
  fun cid hm => h cid (k cid hm)

/-- Only the references and the rows' CIDs are looked at. -/
theorem noneLost_of_rows {s t : Store} (hrefs : t.recordBlob ⊆ s.recordBlob)
    (hrows : ∀ cid, s.blob.lookup cid ≠ none → t.blob.lookup cid ≠ none) : NoneLost s t := by
  rintro cid ⟨⟨u, hu⟩, hrow⟩
  exact ⟨⟨u, hrefs hu⟩, by_contra fun hne => hrows cid hne hrow⟩

/-- The same references, and every row that was there. -/
structure KeepsRows (s t : Store) : Prop where
  recordBlob : t.recordBlob = s.recordBlob
  rows : ∀ cid, s.blob.lookup cid ≠ none → t.blob.lookup cid ≠ none

theorem KeepsRows.refl (s : Store) : KeepsRows s s := ⟨rfl, fun _ h => h⟩

theorem KeepsRows.trans (s t u : Store) (h : KeepsRows s t) (k : KeepsRows t u) : KeepsRows s u :=
  ⟨k.recordBlob.trans h.recordBlob, fun cid hne => k.rows cid (h.rows cid hne)⟩

theorem KeepsRows.noneLost {s t : Store} (h : KeepsRows s t) : NoneLost s t :=
  noneLost_of_rows (h.recordBlob ▸ Finset.Subset.refl _) h.rows

theorem keepsRows_makePermanent (tempKey : String) (cid : Cid) (s : Store) :
    KeepsRows s (makePermanent tempKey cid s) := ⟨rfl, fun _ h => h⟩

theorem keepsRows_clearTempKey (tempKey : String) (s : Store) :
    KeepsRows s (clearTempKey tempKey s) := by
  refine ⟨rfl, fun cid hne => ?_⟩
  rw [clearTempKey, Sql.Table.lookup_updateRows, ne_eq, Option.map_eq_none_iff]
  exact hne

theorem keepsRows_upsertBlob (m : BlobMetadata) (s : Store) : KeepsRows s (upsertBlob m s) := by
  refine ⟨rfl, fun cid hne => ?_⟩
  rw [upsertBlob, Sql.Table.lookup_upsert]
  split
  · exact Option.some_ne_none _
  · exact hne

theorem keepsRows_takedown (err : Option String) (now : String) (blob : Cid)
    (takedown : StatusAttr) : Keeps (updateBlobTakedownStatus err now blob takedown) KeepsRows := by
  intro s
  rw [exec_updateBlobTakedownStatus]
  cases err with
  | some e => exact .refl s
  | none =>
    show KeepsRows s
      (quarantineBlob blob takedown (setTakedownRef blob (takedown.takedownRef now) s))
    unfold setTakedownRef
    split
    · refine ⟨rfl, fun cid hne => ?_⟩
      show (Finmap.insert blob _ s.blob).lookup cid ≠ none
      rw [Sql.Table.lookup_insert_eq]
      split
      · exact Option.some_ne_none _
      · exact hne
    · exact ⟨rfl, fun _ h => h⟩

theorem keepsRows_uploadBlob (cidOf : Bytes → Cid) (F : UploadFaults) (tempKey mime : String)
    (bytes : Bytes) : Keeps (uploadBlob cidOf F tempKey mime bytes) KeepsRows := by
  refine Keeps.bind KeepsRows.trans ?_ fun m => ?_
  · refine (keeps_access KeepsRows.refl _ _).bind KeepsRows.trans fun _ => ?_
    refine (keeps_modify fun _ => ⟨rfl, fun _ h => h⟩).bind KeepsRows.trans fun _ => ?_
    exact (keeps_access KeepsRows.refl _ _).bind KeepsRows.trans fun _ =>
      keeps_pure KeepsRows.refl _
  · refine (keeps_access KeepsRows.refl _ _).bind KeepsRows.trans fun _ => ?_
    refine (keeps_get KeepsRows.refl).bind KeepsRows.trans fun s => ?_
    refine Keeps.bind KeepsRows.trans ?_ fun _ => ?_
    · unfold refuseTakendown
      split
      · exact keeps_throw KeepsRows.refl _
      · exact keeps_pure KeepsRows.refl _
    refine (keeps_access KeepsRows.refl _ _).bind KeepsRows.trans fun _ => ?_
    exact (keeps_modify (keepsRows_upsertBlob m)).bind KeepsRows.trans fun _ =>
      keeps_pure KeepsRows.refl _

/-! ### The blob pass -/

theorem noneLost_deleteRecordBlobs (uris : List AtUri) (s : Store) :
    NoneLost s (deleteRecordBlobs uris s) :=
  noneLost_of_rows (Finset.filter_subset _ _) fun _ h => h

/-- A row that goes has lost its last reference with the batch's. -/
theorem noneLost_deleteBlobs (writes : List PreparedWrite) (s : Store) :
    NoneLost s (deleteBlobs (cidsToDelete s writes) (deleteRecordBlobs (touchedUris writes) s)) := by
  rintro cid ⟨⟨u, hu⟩, hrow⟩
  obtain ⟨hu, hother⟩ := Finset.mem_filter.1 hu
  refine ⟨⟨u, hu⟩, ?_⟩
  have hkeep : cid ∉ cidsToDelete s writes := by
    intro hcid
    exact hother ((Finset.mem_filter.1 hcid).2.1 (cid, u) hu rfl)
  have hlookup : (s.blob.deleteSet (cidsToDelete s writes)).lookup cid = none := hrow
  rwa [Sql.Table.lookup_deleteSet, if_neg hkeep] at hlookup

theorem noneLost_deleteDereferencedBlobs (F : Faults) (writes : List PreparedWrite) :
    Keeps (deleteDereferencedBlobs F writes) NoneLost := by
  intro s
  unfold deleteDereferencedBlobs
  by_cases huris : touchedUris writes = []
  · simp [huris, NoneLost.refl]
  cases hdel : F .deleteRecordBlobs with
  | some e => simp [huris, access, NoneLost.refl]
  | none =>
    by_cases hderef : dereferenced s (touchedUris writes) = ∅
    · simp [huris, hderef, access, exec_bind, noneLost_deleteRecordBlobs]
    cases hsel : F .selectDuplicates with
    | some e => simp [huris, hderef, access, exec_bind, noneLost_deleteRecordBlobs]
    | none =>
      by_cases hcids : cidsToDelete s writes = ∅
      · simp [huris, hderef, hcids, access, exec_bind, noneLost_deleteRecordBlobs]
      cases hrows : F .deleteBlobs with
      | some e => simp [huris, hderef, hcids, access, exec_bind, noneLost_deleteRecordBlobs]
      | none => simp [huris, hderef, hcids, access, exec_bind, noneLost_deleteBlobs]

/-- A blob is referred to once its row is found. -/
theorem noneLost_processBlob (F : Faults) (rn : (AtUri × PreparedBlobRef) × Nat) :
    Keeps (processBlob F rn) NoneLost := by
  intro s
  have hverify := keeps_verifyBlobAndMakePermanent KeepsRows.refl KeepsRows.trans
    keepsRows_makePermanent keepsRows_clearTempKey F rn.2 rn.1.2 s
  rw [processBlob, exec_bind]
  rcases hx : (verifyBlobAndMakePermanent F rn.2 rn.1.2).exec s with ⟨e | a, t⟩ <;>
    rw [hx] at hverify
  · exact hverify.noneLost
  obtain ⟨⟨-, found, hfound, -⟩, -⟩ := (does_verifyBlobAndMakePermanent F rn.2 rn.1.2 s t).1 hx
  have hrow : t.blob.lookup rn.1.2.cid ≠ none := by
    refine hverify.rows _ fun hnone => ?_
    rw [findBlob, hnone] at hfound
    cases hfound
  show NoneLost s ((associateBlob F rn.2 rn.1.2 rn.1.1).exec t).2
  refine hverify.noneLost.trans s t _ ?_
  rw [associateBlob, exec_bind, exec_access]
  cases F (.associateBlob rn.2) with
  | some e => exact .refl t
  | none =>
    rintro cid ⟨⟨u, hu⟩, hnone⟩
    rcases Finset.mem_insert.1 hu with he | hu
    · cases he
      exact absurd hnone hrow
    · exact ⟨⟨u, hu⟩, hnone⟩

theorem noneLost_processWriteBlobs (F : Faults) (writes : List PreparedWrite) :
    Keeps (processWriteBlobs F writes) NoneLost :=
  (noneLost_deleteDereferencedBlobs F writes).bind NoneLost.trans fun _ =>
    Keeps.forM NoneLost.refl NoneLost.trans fun rn _ => noneLost_processBlob F rn

/-- The blob tables as they were. -/
theorem noneLost_of_tables {s t : Store} (hrefs : t.recordBlob = s.recordBlob)
    (hblob : t.blob = s.blob) : NoneLost s t :=
  noneLost_of_rows (hrefs ▸ Finset.Subset.refl _) fun _ h => hblob ▸ h

theorem noneLost_indexAll (now : Clock) (rev : String) (wns : List (PreparedWrite × Nat))
    (s : Store) : NoneLost s (indexAll now rev wns s) := by
  rw [indexAll_eq]
  exact noneLost_of_tables rfl rfl

theorem noneLost_committed (now : Clock) (writes : List PreparedWrite) (r : CommitDataWithOps)
    (s : Store) : NoneLost s (committed now writes r s) :=
  noneLost_of_tables (committed_recordBlob now writes r s) (committed_blob now writes r s)

theorem noneLost_processWrites (U : RepoLib) (F : Faults) (now : Clock)
    (writes : List PreparedWrite) (swapCommit : Option Cid) :
    Keeps (processWrites U F now writes swapCommit) NoneLost := by
  intro s
  have hpass : ∀ r, NoneLost s ((processWriteBlobs F writes).exec (committed now writes r s)).2 :=
    fun r => (noneLost_committed now writes r s).trans _ _ _ (noneLost_processWriteBlobs F writes _)
  rcases hx : (processWrites U F now writes swapCommit).exec s with ⟨e | r, t⟩
  · rcases processWrites_error hx with
      ⟨-, rfl⟩ | ⟨r, -, ⟨n, -, -, -, rfl⟩ | ⟨-, -, rfl⟩ | ⟨-, -, hb⟩⟩
    · exact .refl t
    · exact noneLost_indexAll now r.commitData.rev _ s
    · exact noneLost_indexAll now r.commitData.rev _ s
    · have hr := hpass r
      rwa [hb] at hr
  · obtain ⟨-, -, -, hb⟩ := processWrites_ok.1 hx
    have hr := hpass r
    rwa [hb] at hr

theorem noneLost_storeStep {U : RepoLib} {cidOf : Bytes → Cid} {s t : Store} {call : StoreCall}
    (h : storeStep U cidOf s call = some t) : NoneLost s t := by
  cases call with
  | upload F tempKey mime bytes =>
    cases h
    exact (keepsRows_uploadBlob cidOf F tempKey mime bytes s).noneLost
  | processWrites c =>
    cases h
    exact noneLost_processWrites U c.faults c.now c.writes c.swapCommit s
  | updateBlobTakedownStatus err now blob takedown =>
    cases h
    exact (keepsRows_takedown err now blob takedown s).noneLost

/-- No run makes a blob missing. -/
theorem missing_of_run {U : RepoLib} {cidOf : Bytes → Cid} {s t : Store} {calls : List StoreCall}
    (h : Runs.run (storeStep U cidOf) s calls = some t) : NoneLost s t :=
  Runs.related_of_steps NoneLost.refl NoneLost.trans (fun _ _ _ => noneLost_storeStep) h

/-! ## Counts -/

def referenced (s : Store) : Finset Cid := s.recordBlob.image Prod.fst

/-- The rows that no record refers to. -/
def untethered (s : Store) : Finset Cid := s.blob.keys \ referenced s

theorem mem_referenced {s : Store} {cid : Cid} :
    cid ∈ referenced s ↔ ∃ u, (cid, u) ∈ s.recordBlob := by
  rw [referenced, Finset.mem_image]
  constructor
  · rintro ⟨⟨c, u⟩, hmem, rfl⟩
    exact ⟨u, hmem⟩
  · rintro ⟨u, hmem⟩
    exact ⟨(cid, u), hmem, rfl⟩

theorem mem_missing_iff {s : Store} {cid : Cid} :
    cid ∈ referenced s \ s.blob.keys ↔ s.Missing cid := by
  rw [Finset.mem_sdiff, mem_referenced, Finmap.mem_keys, ← Finmap.lookup_eq_none]
  rfl

/-- The CIDs of a walk over the missing blobs are those of the missing blobs. -/
theorem card_missing (s : Store) : s.missing.card = (referenced s \ s.blob.keys).card := by
  have himage : s.missing = (referenced s \ s.blob.keys).image Cid.text := by
    ext text
    rw [Finset.mem_image, Store.missing, cidTexts, Finset.mem_image]
    constructor
    · rintro ⟨⟨cid, u⟩, hrow, rfl⟩
      obtain ⟨hmem, hnone⟩ := Finset.mem_filter.1 hrow
      exact ⟨cid, mem_missing_iff.2 ⟨⟨u, hmem⟩, hnone⟩, rfl⟩
    · rintro ⟨cid, hcid, rfl⟩
      obtain ⟨⟨u, hmem⟩, hnone⟩ := mem_missing_iff.1 hcid
      exact ⟨(cid, u), Finset.mem_filter.2 ⟨hmem, hnone⟩, rfl⟩
  rw [himage, Finset.card_image_of_injective _ fun _ _ h => Cid.ext h]

theorem walkMissing_eq (B : BareColumn) (s : Store) {limit : Nat} (hpos : 1 ≤ limit)
    (hmax : limit ≤ 1000) {n : Nat} (hn : s.recordBlob.card < n) :
    walkMissing B s limit n none =
      some (.ok (s.missing.sort.map fun cid => ⟨cid, B.pick (s.urisOf cid)⟩)) := by
  refine (keyset_missing B s hmax).walk_all hpos (fun _ _ => rfl) ?_
  rw [List.length_map, Finset.length_sort]
  exact (card_cidTexts_filter _ _).trans_lt hn

theorem NoneLost.missing_subset {s t : Store} (h : NoneLost s t) : t.missing ⊆ s.missing := by
  intro text htext
  obtain ⟨⟨cid, u⟩, hrow, rfl⟩ := Finset.mem_image.1 htext
  obtain ⟨hmem, hnone⟩ := Finset.mem_filter.1 hrow
  exact mem_missing.2 (h cid ⟨⟨u, hmem⟩, of_decide_eq_true (decide_eq_true hnone)⟩)

/-- References and rows are counted apart; each count with what only the other one has is the same. -/
theorem card_referenced_add_untethered (s : Store) :
    (referenced s).card + (untethered s).card = s.blob.keys.card + s.missing.card := by
  have hrows := Finset.card_sdiff_add_card s.blob.keys (referenced s)
  have hrefs := Finset.card_sdiff_add_card (referenced s) s.blob.keys
  rw [Finset.union_comm] at hrefs
  rw [card_missing, untethered]
  omega

theorem mem_untethered {s : Store} {cid : Cid} : cid ∈ untethered s ↔
    (∃ cids, getBlobCids none s = .ok cids ∧ cid ∈ cids) ∧ getRecordsForBlob none s cid = .ok 0 := by
  rw [untethered, Finset.mem_sdiff, mem_referenced, Finmap.mem_keys]
  refine and_congr ?_ ?_
  · simp [getBlobCids, Sql.Table.mem_select, ← Finmap.lookup_isSome, Option.isSome_iff_exists]
  · rw [getRecordsForBlob, Except.ok.injEq, Multiset.map_eq_zero, Finset.val_eq_zero,
      Finset.filter_eq_empty_iff]
    constructor
    · rintro hno ⟨c, u⟩ hrow rfl
      exact hno ⟨u, hrow⟩
    · rintro hall ⟨u, hrow⟩
      exact hall hrow rfl

end CacosPds.ActorStore
