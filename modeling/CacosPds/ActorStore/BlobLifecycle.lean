import CacosPds.ActorStore.WriteBlobs
import CacosPds.Blobstore.OpenDal
import CacosPds.Lib.Run
/-!
# Blob rows and blob bytes

| here | there |
| --- | --- |
| `Upload`   | `upload_blob_and_get_metadata` after its `put_temp`, then `track_untethered_blob` (`write.rs:68-129`) |
| `Batch`    | a `process_write_blobs` call before its next statement or object access (`write.rs:131-281`, `opendal.rs:215`) |
| `Lifecycle.jobs` | the `delete_many` jobs in the background queue, each with the CIDs it has still to delete |
| `lifeStep` | one statement of one upload, batch or job; calls fail or are dropped between any two |

The statements are those of the sequential model. Rows go at once and bytes go later, by CID: a job
may delete the bytes of a blob that was uploaded again since (`bytesThere_fails_reupload`). A
temporary key is random, so no two uploads share one.
-/
namespace CacosPds.ActorStore

open Blobstore (Objects Handle)

structure Upload where
  cid : Cid
  size : Int
  mimeType : String
  /-- The `SELECT` of `track_untethered_blob` found no takedown. -/
  checked : Bool

def Upload.metadata (u : Upload) (tempKey : String) : BlobMetadata :=
  ⟨tempKey, u.size, u.cid, u.mimeType⟩

/-- What a promotion does next: the accesses of `make_permanent`, then the `UPDATE`. -/
inductive PromotionStage where
  | stat | rename | dropTemp | clear
  deriving DecidableEq

inductive Batch where
  | deleteRefs (writes : List PreparedWrite)
  | selectDuplicates (writes : List PreparedWrite) (deleted : Finset Cid)
  | deleteRows (writes : List PreparedWrite) (cids : Finset Cid)
  | nextBlob (refs : List (AtUri × PreparedBlobRef))
  | promote (stage : PromotionStage) (tempKey : String) (uri : AtUri) (blob : PreparedBlobRef)
      (refs : List (AtUri × PreparedBlobRef))
  | associate (uri : AtUri) (blob : PreparedBlobRef) (refs : List (AtUri × PreparedBlobRef))

structure Lifecycle where
  store : Store
  objects : Objects
  /-- The CID that each temporary key was made for. -/
  keys : String → Option Cid
  uploads : Sql.Table String Upload
  batches : List Batch
  jobs : List (Finset Cid)

/-! ## Steps -/

/-- The CIDs to delete: no row lists them by now, and no write of the batch. -/
def unlisted (s : Store) (writes : List PreparedWrite) (deleted : Finset Cid) : Finset Cid :=
  deleted.filter fun cid => (∀ row ∈ s.recordBlob, row.1 ≠ cid) ∧ cid ∉ newBlobCids writes

/-- Without another call in between these are the CIDs of the sequential model. -/
theorem unlisted_deleteRecordBlobs (s : Store) (writes : List PreparedWrite) :
    unlisted (deleteRecordBlobs (touchedUris writes) s) writes
      (dereferenced s (touchedUris writes)) = cidsToDelete s writes := by
  ext cid
  rw [unlisted, cidsToDelete, Finset.mem_filter, Finset.mem_filter]
  refine and_congr_right fun _ => and_congr_left fun _ => ?_
  simp only [deleteRecordBlobs, Finset.mem_filter]
  constructor
  · intro h row hrow hcid
    by_contra hn
    exact h row ⟨hrow, hn⟩ hcid
  · rintro h row ⟨hrow, hn⟩ hcid
    exact hn (h row hrow hcid)

/-- The next blob's `SELECT` and checks; `none`: the call is over, or fails. -/
def selectNext (s : Store) : List (AtUri × PreparedBlobRef) → Option Batch
  | [] => none
  | (uri, blob) :: refs =>
    match findBlob s blob.cid with
    | none => none
    | some found =>
      match verifyBlob blob found with
      | .error _ => none
      | .ok () =>
        match found.tempKey with
        | none => some (.associate uri blob refs)
        | some tempKey => some (.promote .stat tempKey uri blob refs)

/-- The `rename` of a temp object, and how the batch goes on where it works. -/
def Lifecycle.moveTemp (h : Handle) (s : Lifecycle) (tempKey : String) (cid : Cid) (next : Batch) :
    Lifecycle × Option Batch :=
  match s.objects.rename (h.tmpPath tempKey) (h.storedPath cid) with
  | none => (s, none)
  | some objects => ({ s with objects }, some next)

/-- A batch takes its next step; `none`: it is over, or fails. -/
def Lifecycle.advance (h : Handle) (s : Lifecycle) : Batch → Lifecycle × Option Batch
  | .deleteRefs writes =>
    let uris := touchedUris writes
    let deleted := dereferenced s.store uris
    ({ s with store := deleteRecordBlobs uris s.store },
      some (if deleted = ∅ then .nextBlob (blobRefs writes) else .selectDuplicates writes deleted))
  | .selectDuplicates writes deleted =>
    let cids := unlisted s.store writes deleted
    (s, some (if cids = ∅ then .nextBlob (blobRefs writes) else .deleteRows writes cids))
  | .deleteRows writes cids =>
    ({ s with store := deleteBlobs cids s.store, jobs := s.jobs ++ [cids] },
      some (.nextBlob (blobRefs writes)))
  | .nextBlob refs => (s, selectNext s.store refs)
  | .promote .stat tempKey uri blob refs =>
    ({ s with store := makePermanent tempKey blob.cid s.store },
      some (.promote (if h.storedPath blob.cid ∈ s.objects then .dropTemp else .rename)
        tempKey uri blob refs))
  | .promote .rename tempKey uri blob refs =>
    s.moveTemp h tempKey blob.cid (.promote .dropTemp tempKey uri blob refs)
  | .promote .dropTemp tempKey uri blob refs =>
    ({ s with objects := s.objects.erase (h.tmpPath tempKey) },
      some (.promote .clear tempKey uri blob refs))
  | .promote .clear tempKey uri blob refs =>
    ({ s with store := clearTempKey tempKey s.store }, some (.associate uri blob refs))
  | .associate uri blob refs =>
    ({ s with store := associate blob.cid uri s.store }, some (.nextBlob refs))

/-- Where a batch goes whose next step fails: a temp object that stays is only logged. -/
def Batch.failed : Batch → Option Batch
  | .promote .dropTemp tempKey uri blob refs => some (.promote .clear tempKey uri blob refs)
  | _ => none

/-- Batch `i` goes on as `b`, or is over. -/
def Lifecycle.setBatch (i : Nat) (b : Option Batch) (s : Lifecycle) : Lifecycle :=
  { s with batches := b.elim (s.batches.eraseIdx i) (s.batches.set i) }

inductive LifeStep where
  /-- `put_temp`, under a key not used before. -/
  | putTemp (tempKey mime : String) (bytes : Bytes)
  /-- The upload's `SELECT`. -/
  | checkUpload (tempKey : String)
  /-- The upload's `INSERT`. -/
  | insertUpload (tempKey : String)
  | dropUpload (tempKey : String)
  | startBatch (writes : List PreparedWrite)
  | advance (i : Nat)
  | fail (i : Nat)
  | dropBatch (i : Nat)
  /-- Job `j` deletes the bytes of one of its CIDs, -/
  | deleteBytes (j : Nat) (cid : Cid)
  /-- or cannot. -/
  | skipBytes (j : Nat) (cid : Cid)
  | dropJob (j : Nat)

def Lifecycle.putTemp (h : Handle) (cidOf : Bytes → Cid) (tempKey mime : String) (bytes : Bytes)
    (s : Lifecycle) : Lifecycle :=
  { s with
    store := ActorStore.putTemp tempKey bytes s.store
    objects := s.objects.insert (h.tmpPath tempKey) bytes
    keys := fun k => if k = tempKey then some (cidOf bytes) else s.keys k
    uploads := s.uploads.insert tempKey ⟨cidOf bytes, bytes.length, mime, false⟩ }

def Lifecycle.checkUpload (tempKey : String) (u : Upload) (s : Lifecycle) : Lifecycle :=
  { s with uploads :=
      if ((takedownMark s.store u.cid).getD none).isSome then s.uploads.erase tempKey
      else s.uploads.insert tempKey { u with checked := true } }

def Lifecycle.insertUpload (tempKey : String) (u : Upload) (s : Lifecycle) : Lifecycle :=
  { s with
    store := upsertBlob (u.metadata tempKey) s.store
    uploads := s.uploads.erase tempKey }

def lifeStep (h : Handle) (cidOf : Bytes → Cid) (s : Lifecycle) : LifeStep → Option Lifecycle
  | .putTemp tempKey mime bytes =>
    if s.keys tempKey = none then some (s.putTemp h cidOf tempKey mime bytes) else none
  | .checkUpload tempKey =>
    ((s.uploads.lookup tempKey).filter (!·.checked)).map (s.checkUpload tempKey)
  | .insertUpload tempKey =>
    ((s.uploads.lookup tempKey).filter (·.checked)).map (s.insertUpload tempKey)
  | .dropUpload tempKey => some { s with uploads := s.uploads.erase tempKey }
  | .startBatch writes => some { s with batches := s.batches ++ [.deleteRefs writes] }
  | .advance i => s.batches[i]?.map fun b => (s.advance h b).1.setBatch i (s.advance h b).2
  | .fail i => s.batches[i]?.map fun b => s.setBatch i b.failed
  | .dropBatch i => some (s.setBatch i none)
  | .deleteBytes j cid =>
    (s.jobs[j]?.filter (cid ∈ ·)).map fun cids =>
      { s with objects := s.objects.erase (h.storedPath cid), jobs := s.jobs.set j (cids.erase cid) }
  | .skipBytes j cid => s.jobs[j]?.map fun cids => { s with jobs := s.jobs.set j (cids.erase cid) }
  | .dropJob j => some { s with jobs := s.jobs.eraseIdx j }

/-! ## The property and its invariant -/

/-- The bytes of a CID are at a key. -/
def HasBytes (cidOf : Bytes → Cid) (objects : Objects) (key : String) (cid : Cid) : Prop :=
  ∃ bytes, objects.lookup key = some bytes ∧ cidOf bytes = cid

/-- Every blob row that is not taken down has its bytes: promoted, or still waiting. -/
structure BytesThere (h : Handle) (cidOf : Bytes → Cid) (s : Lifecycle) : Prop where
  promoted : ∀ cid row, findBlob s.store cid = some row → row.tempKey = none →
    HasBytes cidOf s.objects (h.storedPath cid) cid
  waiting : ∀ cid row tempKey, findBlob s.store cid = some row → row.tempKey = some tempKey →
    HasBytes cidOf s.objects (h.tmpPath tempKey) cid ∨
      HasBytes cidOf s.objects (h.storedPath cid) cid

/-- What a batch is promoting: the stage, the temporary key and the CID. -/
def Batch.promotion : Batch → Option (PromotionStage × String × Cid)
  | .promote stage tempKey _ blob _ => some (stage, tempKey, blob.cid)
  | _ => none

/-- The promotion takes the blob for stored: it will not move the temp object any more. -/
def PromotionStage.sealed (stage : PromotionStage) : Bool := stage = .dropTemp || stage = .clear

/-- The condition on a delete: the CID has no row that is not taken down, or the row's temp object
is there and no promotion has already passed it over. -/
def Unused (h : Handle) (s : Lifecycle) (cid : Cid) : Prop :=
  ∀ row ∈ findBlob s.store cid, ∃ tempKey ∈ row.tempKey, h.tmpPath tempKey ∈ s.objects ∧
    ∀ b ∈ s.batches, ∀ p ∈ b.promotion, p.2 = (tempKey, cid) → p.1.sealed = false

instance (h : Handle) (s : Lifecycle) (cid : Cid) : Decidable (Unused h s cid) := by
  unfold Unused
  infer_instance

def DeletesUnused (h : Handle) (s : Lifecycle) : LifeStep → Prop
  | .deleteBytes _ cid => Unused h s cid
  | _ => True

instance (h : Handle) (s : Lifecycle) (a : LifeStep) : Decidable (DeletesUnused h s a) := by
  cases a <;> simp only [DeletesUnused] <;> infer_instance

/-- A batch knows its key, and where it takes the blob for stored it is. -/
structure BatchInv (h : Handle) (s : Lifecycle) (b : Batch) : Prop where
  key : ∀ stage tempKey cid, b.promotion = some (stage, tempKey, cid) →
    s.keys tempKey = some cid ∧ tempKey ∉ s.uploads
  stored : ∀ stage tempKey cid, b.promotion = some (stage, tempKey, cid) → stage.sealed = true →
    ∀ row, findBlob s.store cid = some row → row.tempKey = some tempKey →
      h.storedPath cid ∈ s.objects

structure LifeInv (h : Handle) (cidOf : Bytes → Cid) (s : Lifecycle) : Prop where
  storedBytes : ∀ cid bytes, s.objects.lookup (h.storedPath cid) = some bytes → cidOf bytes = cid
  tmpBytes : ∀ tempKey cid bytes, s.keys tempKey = some cid →
    s.objects.lookup (h.tmpPath tempKey) = some bytes → cidOf bytes = cid
  upload : ∀ tempKey u, s.uploads.lookup tempKey = some u →
    s.keys tempKey = some u.cid ∧ h.tmpPath tempKey ∈ s.objects
  rowKey : ∀ cid row tempKey, s.store.blob.lookup cid = some row → row.tempKey = some tempKey →
    s.keys tempKey = some cid ∧ tempKey ∉ s.uploads
  promoted : ∀ cid row, findBlob s.store cid = some row → row.tempKey = none →
    h.storedPath cid ∈ s.objects
  waiting : ∀ cid row tempKey, findBlob s.store cid = some row → row.tempKey = some tempKey →
    h.tmpPath tempKey ∈ s.objects ∨ h.storedPath cid ∈ s.objects
  batch : ∀ b ∈ s.batches, BatchInv h s b

/-! ## Reading tables and keys -/

theorem findBlob_eq_some {s : Store} {cid : Cid} {row : BlobRow} :
    findBlob s cid = some row ↔ s.blob.lookup cid = some row ∧ row.takedownRef = none := by
  simp [findBlob, Option.filter_eq_some_iff]

theorem lookup_of_findBlob {s : Store} {cid : Cid} {row : BlobRow} (h : findBlob s cid = some row) :
    s.blob.lookup cid = some row := (findBlob_eq_some.1 h).1

theorem mem_objects_insert {objects : Objects} {k j : String} {bytes : Bytes} :
    j ∈ objects.insert k bytes ↔ j = k ∨ j ∈ objects := Finmap.mem_insert

theorem mem_objects_erase {objects : Objects} {k j : String} :
    j ∈ objects.erase k ↔ j ≠ k ∧ j ∈ objects := Finmap.mem_erase

theorem lookup_of_erase {objects : Objects} {j k : String} {bytes : Bytes}
    (h : (objects.erase j).lookup k = some bytes) : objects.lookup k = some bytes := by
  rw [Sql.Table.lookup_erase_eq] at h
  split at h
  · cases h
  · exact h

theorem hasBytes_of_mem {cidOf : Bytes → Cid} {objects : Objects} {key : String} {cid : Cid}
    (hmem : key ∈ objects) (h : ∀ bytes, objects.lookup key = some bytes → cidOf bytes = cid) :
    HasBytes cidOf objects key cid := by
  obtain ⟨bytes, hb⟩ := Finmap.mem_iff.1 hmem
  exact ⟨bytes, hb, h bytes hb⟩

theorem LifeInv.bytesThere {h : Handle} {cidOf : Bytes → Cid} {s : Lifecycle}
    (hs : LifeInv h cidOf s) : BytesThere h cidOf s where
  promoted cid row hrow hkey :=
    hasBytes_of_mem (hs.promoted cid row hrow hkey) (hs.storedBytes cid)
  waiting cid row tempKey hrow hkey := by
    have hown := (hs.rowKey cid row tempKey (lookup_of_findBlob hrow) hkey).1
    rcases hs.waiting cid row tempKey hrow hkey with hmem | hmem
    · exact .inl (hasBytes_of_mem hmem (hs.tmpBytes tempKey cid · hown))
    · exact .inr (hasBytes_of_mem hmem (hs.storedBytes cid))

/-! ## Steps keep the invariant -/

section

variable {h : Handle} {cidOf : Bytes → Cid} {s : Lifecycle}

/-- The batches may change to ones that know what they are promoting. -/
theorem LifeInv.setBatches (hs : LifeInv h cidOf s) {batches : List Batch}
    (hb : ∀ b ∈ batches, BatchInv h s b) : LifeInv h cidOf { s with batches } :=
  { hs with batch := fun b hmem => ⟨(hb b hmem).key, (hb b hmem).stored⟩ }

theorem LifeInv.setBatch (hs : LifeInv h cidOf s) {i : Nat} {b : Option Batch}
    (hb : ∀ b' ∈ b, BatchInv h s b') : LifeInv h cidOf (s.setBatch i b) := by
  refine hs.setBatches fun b' hmem => ?_
  cases b with
  | none => exact hs.batch b' (List.mem_of_mem_eraseIdx hmem)
  | some b =>
    rcases List.mem_or_eq_of_mem_set hmem with hold | rfl
    · exact hs.batch b' hold
    · exact hb b' rfl

theorem LifeInv.setJobs (hs : LifeInv h cidOf s) (jobs : List (Finset Cid)) :
    LifeInv h cidOf { s with jobs } :=
  { hs with batch := fun b hb => ⟨(hs.batch b hb).key, (hs.batch b hb).stored⟩ }

/-- A batch that promotes nothing owes nothing. -/
theorem BatchInv.of_idle {b : Batch} (hb : b.promotion = none) : BatchInv h s b where
  key _ _ _ h := by rw [hb] at h; cases h
  stored _ _ _ h := by rw [hb] at h; cases h

theorem LifeInv.putTemp (hs : LifeInv h cidOf s) {tempKey mime : String} {bytes : Bytes}
    (hfresh : s.keys tempKey = none) :
    LifeInv h cidOf (s.putTemp h cidOf tempKey mime bytes) := by
  have hother : ∀ k cid, s.keys k = some cid → k ≠ tempKey := by
    rintro k cid hk rfl
    rw [hfresh] at hk
    cases hk
  have hkeys : ∀ k cid, s.keys k = some cid →
      (s.putTemp h cidOf tempKey mime bytes).keys k = some cid := by
    intro k cid hk
    exact (if_neg (hother k cid hk)).trans hk
  have hfree : ∀ k cid, s.keys k = some cid → k ∉ s.uploads →
      k ∉ (s.putTemp h cidOf tempKey mime bytes).uploads := by
    intro k cid hk hn hmem
    rcases Finmap.mem_insert.1 hmem with he | hmem
    · exact hother k cid hk he
    · exact hn hmem
  have hmore : ∀ k, k ∈ s.objects → k ∈ (s.putTemp h cidOf tempKey mime bytes).objects :=
    fun k hk => mem_objects_insert.2 (.inr hk)
  constructor
  case storedBytes =>
    intro cid b hb
    rw [Lifecycle.putTemp, Sql.Table.lookup_insert_eq, if_neg (by simp)] at hb
    exact hs.storedBytes cid b hb
  case tmpBytes =>
    intro k cid b hk hb
    simp only [Lifecycle.putTemp, Sql.Table.lookup_insert_eq, Handle.tmpPath_inj] at hk hb
    by_cases he : k = tempKey
    · rw [if_pos he, Option.some.injEq] at hk hb
      rw [← hb, hk]
    · rw [if_neg he] at hk hb
      exact hs.tmpBytes k cid b hk hb
  case upload =>
    intro k u hu
    simp only [Lifecycle.putTemp, Sql.Table.lookup_insert_eq] at hu ⊢
    by_cases he : k = tempKey
    · rw [if_pos he, Option.some.injEq] at hu
      subst hu he
      exact ⟨if_pos rfl, mem_objects_insert.2 (.inl rfl)⟩
    · rw [if_neg he] at hu
      obtain ⟨hk, hmem⟩ := hs.upload k u hu
      exact ⟨hkeys k u.cid hk, hmore _ hmem⟩
  case rowKey =>
    intro cid row k hrow hk
    obtain ⟨hown, hn⟩ := hs.rowKey cid row k hrow hk
    exact ⟨hkeys k cid hown, hfree k cid hown hn⟩
  case promoted => exact fun cid row hrow hk => hmore _ (hs.promoted cid row hrow hk)
  case waiting => exact fun cid row k hrow hk => (hs.waiting cid row k hrow hk).imp (hmore _) (hmore _)
  case batch =>
    intro b hmem
    refine ⟨fun stage k cid hp => ?_, fun stage k cid hp hst row hrow hk => ?_⟩
    · obtain ⟨hown, hn⟩ := (hs.batch b hmem).key stage k cid hp
      exact ⟨hkeys k cid hown, hfree k cid hown hn⟩
    · exact hmore _ ((hs.batch b hmem).stored stage k cid hp hst row hrow hk)

/-- Uploads in flight may be checked, or go. -/
theorem LifeInv.setUploads (hs : LifeInv h cidOf s) {uploads : Sql.Table String Upload}
    (hu : ∀ k u, uploads.lookup k = some u → ∃ v, s.uploads.lookup k = some v ∧ v.cid = u.cid) :
    LifeInv h cidOf { s with uploads } := by
  have hfree : ∀ k, k ∉ s.uploads → k ∉ uploads := by
    intro k hn hmem
    obtain ⟨u, hk⟩ := Finmap.mem_iff.1 hmem
    obtain ⟨v, hv, -⟩ := hu k u hk
    exact hn (Finmap.mem_iff.2 ⟨v, hv⟩)
  constructor
  case storedBytes => exact hs.storedBytes
  case tmpBytes => exact hs.tmpBytes
  case upload =>
    intro k u hk
    obtain ⟨v, hv, hcid⟩ := hu k u hk
    rw [← hcid]
    exact hs.upload k v hv
  case rowKey =>
    intro cid row k hrow hk
    obtain ⟨hown, hn⟩ := hs.rowKey cid row k hrow hk
    exact ⟨hown, hfree k hn⟩
  case promoted => exact hs.promoted
  case waiting => exact hs.waiting
  case batch =>
    intro b hmem
    refine ⟨fun stage k cid hp => ?_, (hs.batch b hmem).stored⟩
    obtain ⟨hown, hn⟩ := (hs.batch b hmem).key stage k cid hp
    exact ⟨hown, hfree k hn⟩

/-- Blob rows may go, and the other tables change. -/
theorem LifeInv.setStore (hs : LifeInv h cidOf s) {store : Store}
    (hrows : ∀ cid row, store.blob.lookup cid = some row → s.store.blob.lookup cid = some row) :
    LifeInv h cidOf { s with store } := by
  have hlive : ∀ cid row, findBlob store cid = some row → findBlob s.store cid = some row := by
    intro cid row hrow
    obtain ⟨hl, ht⟩ := findBlob_eq_some.1 hrow
    exact findBlob_eq_some.2 ⟨hrows cid row hl, ht⟩
  constructor
  case storedBytes => exact hs.storedBytes
  case tmpBytes => exact hs.tmpBytes
  case upload => exact hs.upload
  case rowKey => exact fun cid row k hrow => hs.rowKey cid row k (hrows cid row hrow)
  case promoted => exact fun cid row hrow => hs.promoted cid row (hlive cid row hrow)
  case waiting => exact fun cid row k hrow => hs.waiting cid row k (hlive cid row hrow)
  case batch =>
    intro b hmem
    refine ⟨(hs.batch b hmem).key, fun stage k cid hp hst row hrow => ?_⟩
    exact (hs.batch b hmem).stored stage k cid hp hst row (hlive cid row hrow)

/-- The row of a CID after its upsert. -/
theorem lookup_upsertBlob (m : BlobMetadata) (t : Store) (cid : Cid) :
    (upsertBlob m t).blob.lookup cid = if cid = m.cid then
      some ((t.blob.lookup m.cid).elim ⟨m.mimeType, m.size, some m.tempKey, none⟩ fun row =>
        if row.tempKey.isSome then { row with tempKey := some m.tempKey } else row)
      else t.blob.lookup cid :=
  Sql.Table.lookup_upsert _ _ _ _ _

/-- A row after an upsert: as it was, or waiting under the new key. -/
theorem upsertBlob_row {m : BlobMetadata} {t : Store} {cid : Cid} {row : BlobRow}
    (hrow : (upsertBlob m t).blob.lookup cid = some row) :
    t.blob.lookup cid = some row ∨ cid = m.cid ∧ row.tempKey = some m.tempKey := by
  rw [lookup_upsertBlob] at hrow
  by_cases hcid : cid = m.cid
  · rw [if_pos hcid, ← hcid, Option.some.injEq] at hrow
    cases hold : t.blob.lookup cid with
    | none =>
      rw [hold] at hrow
      exact .inr ⟨hcid, by rw [← hrow]; rfl⟩
    | some old =>
      rw [hold, Option.elim_some] at hrow
      split at hrow
      · exact .inr ⟨hcid, by rw [← hrow]⟩
      · exact .inl (congrArg some hrow)
  · rw [if_neg hcid] at hrow
    exact .inl hrow

theorem LifeInv.insertUpload (hs : LifeInv h cidOf s) {tempKey : String} {u : Upload}
    (hu : s.uploads.lookup tempKey = some u) :
    LifeInv h cidOf (s.insertUpload tempKey u) := by
  obtain ⟨hown, hthere⟩ := hs.upload tempKey u hu
  have hmem : tempKey ∈ s.uploads := Finmap.mem_iff.2 ⟨u, hu⟩
  have hfree : ∀ k, k ∉ s.uploads → k ∉ (s.insertUpload tempKey u).uploads :=
    fun k hn hk => hn (Finmap.mem_erase.1 hk).2
  have hrow : ∀ cid row, (s.insertUpload tempKey u).store.blob.lookup cid = some row →
      s.store.blob.lookup cid = some row ∨ cid = u.cid ∧ row.tempKey = some tempKey :=
    fun cid row => upsertBlob_row
  have hlive : ∀ cid row, findBlob (s.insertUpload tempKey u).store cid = some row →
      findBlob s.store cid = some row ∨ cid = u.cid ∧ row.tempKey = some tempKey := by
    intro cid row hfind
    obtain ⟨hl, ht⟩ := findBlob_eq_some.1 hfind
    exact (hrow cid row hl).imp_left fun hl => findBlob_eq_some.2 ⟨hl, ht⟩
  constructor
  case storedBytes => exact hs.storedBytes
  case tmpBytes => exact hs.tmpBytes
  case upload =>
    intro k v hk
    rw [Lifecycle.insertUpload, Sql.Table.lookup_erase_eq] at hk
    split at hk
    · cases hk
    · exact hs.upload k v hk
  case rowKey =>
    intro cid row k hl hk
    rcases hrow cid row hl with hl | ⟨rfl, hkey⟩
    · obtain ⟨hk', hn⟩ := hs.rowKey cid row k hl hk
      exact ⟨hk', hfree k hn⟩
    · rw [hkey, Option.some.injEq] at hk
      subst hk
      exact ⟨hown, Finmap.notMem_erase_self⟩
  case promoted =>
    intro cid row hfind hk
    rcases hlive cid row hfind with hfind | ⟨-, hkey⟩
    · exact hs.promoted cid row hfind hk
    · rw [hk] at hkey
      cases hkey
  case waiting =>
    intro cid row k hfind hk
    rcases hlive cid row hfind with hfind | ⟨-, hkey⟩
    · exact hs.waiting cid row k hfind hk
    · rw [hkey, Option.some.injEq] at hk
      subst hk
      exact .inl hthere
  case batch =>
    intro b hb
    refine ⟨fun stage k cid hp => ?_, fun stage k cid hp hst row hfind hk => ?_⟩
    · obtain ⟨hk, hn⟩ := (hs.batch b hb).key stage k cid hp
      exact ⟨hk, hfree k hn⟩
    · rcases hlive cid row hfind with hfind | ⟨-, hkey⟩
      · exact (hs.batch b hb).stored stage k cid hp hst row hfind hk
      · -- the key of a promotion is not that of an upload in flight
        rw [hkey, Option.some.injEq] at hk
        subst hk
        exact absurd hmem ((hs.batch b hb).key stage tempKey cid hp).2

/-- The temp object of a key may leave its place, if the bytes of the row that waits under the key are
stored. -/
theorem LifeInv.leaveTemp (hs : LifeInv h cidOf s) {tempKey : String} {cid : Cid} {objects : Objects}
    (hkey : s.keys tempKey = some cid) (hfree : tempKey ∉ s.uploads)
    (hstoredBytes : ∀ c b, objects.lookup (h.storedPath c) = some b → cidOf b = c)
    (htmpBytes : ∀ k b, objects.lookup (h.tmpPath k) = some b →
      s.objects.lookup (h.tmpPath k) = some b)
    (hmem : ∀ k, k ≠ h.tmpPath tempKey → k ∈ s.objects → k ∈ objects)
    (hstored : ∀ row, findBlob s.store cid = some row → row.tempKey = some tempKey →
      h.storedPath cid ∈ objects) :
    LifeInv h cidOf { s with objects } := by
  constructor
  case storedBytes => exact hstoredBytes
  case tmpBytes => exact fun k c b hk hb => hs.tmpBytes k c b hk (htmpBytes k b hb)
  case upload =>
    intro k u hu
    obtain ⟨hk, hin⟩ := hs.upload k u hu
    refine ⟨hk, hmem _ ?_ hin⟩
    rw [Ne, Handle.tmpPath_inj]
    rintro rfl
    exact hfree (Finmap.mem_iff.2 ⟨u, hu⟩)
  case rowKey => exact hs.rowKey
  case promoted => exact fun c row hfind hk => hmem _ (by simp) (hs.promoted c row hfind hk)
  case waiting =>
    intro c row k hfind hk
    by_cases he : k = tempKey
    · -- only the row of this CID waits under this key
      have hc := (hs.rowKey c row k (lookup_of_findBlob hfind) hk).1
      rw [he, hkey, Option.some.injEq] at hc
      subst hc
      exact .inr (hstored row hfind (he ▸ hk))
    · exact (hs.waiting c row k hfind hk).imp (hmem _ (by simpa using he)) (hmem _ (by simp))
  case batch =>
    intro b hb
    refine ⟨(hs.batch b hb).key, fun stage k c hp hst row hfind hk => hmem _ (by simp) ?_⟩
    exact (hs.batch b hb).stored stage k c hp hst row hfind hk

/-- The temp object of a key may move to its CID's place. -/
theorem LifeInv.rename (hs : LifeInv h cidOf s) {tempKey : String} {cid : Cid} {objects : Objects}
    (hkey : s.keys tempKey = some cid) (hfree : tempKey ∉ s.uploads)
    (hr : s.objects.rename (h.tmpPath tempKey) (h.storedPath cid) = some objects) :
    LifeInv h cidOf { s with objects } ∧ h.storedPath cid ∈ objects := by
  obtain ⟨bytes, hbytes, rfl⟩ := Option.map_eq_some_iff.1 hr
  have hlookup : ∀ k, ((s.objects.erase (h.tmpPath tempKey)).insert (h.storedPath cid) bytes).lookup k
      = if k = h.storedPath cid then some bytes
        else if k = h.tmpPath tempKey then none else s.objects.lookup k := by
    intro k
    rw [Sql.Table.lookup_insert_eq, Sql.Table.lookup_erase_eq]
  have hthere : h.storedPath cid ∈
      (s.objects.erase (h.tmpPath tempKey)).insert (h.storedPath cid) bytes :=
    mem_objects_insert.2 (.inl rfl)
  refine ⟨hs.leaveTemp hkey hfree (fun c b hb => ?_) (fun k b hb => ?_) (fun k hne hk => ?_)
    fun _ _ _ => hthere, hthere⟩
  · rw [hlookup] at hb
    by_cases hc : c = cid
    · rw [if_pos (by rw [hc]), Option.some.injEq] at hb
      rw [← hb, hc]
      exact hs.tmpBytes tempKey cid bytes hkey hbytes
    · rw [if_neg (by simpa using hc), if_neg (by simp)] at hb
      exact hs.storedBytes c b hb
  · rw [hlookup, if_neg (by simp)] at hb
    split at hb
    · cases hb
    · exact hb
  · exact mem_objects_insert.2 (.inr (mem_objects_erase.2 ⟨hne, hk⟩))

/-- A temp object may go once the row that waits under its key has its bytes stored. -/
theorem LifeInv.dropTemp (hs : LifeInv h cidOf s) {tempKey : String} {cid : Cid}
    (hkey : s.keys tempKey = some cid) (hfree : tempKey ∉ s.uploads)
    (hstored : ∀ row, findBlob s.store cid = some row → row.tempKey = some tempKey →
      h.storedPath cid ∈ s.objects) :
    LifeInv h cidOf { s with objects := s.objects.erase (h.tmpPath tempKey) } := by
  have hmem : ∀ k, k ≠ h.tmpPath tempKey → k ∈ s.objects →
      k ∈ s.objects.erase (h.tmpPath tempKey) := fun k hne hk => mem_objects_erase.2 ⟨hne, hk⟩
  exact hs.leaveTemp hkey hfree (fun c b hb => hs.storedBytes c b (lookup_of_erase hb))
    (fun _ _ => lookup_of_erase) hmem fun row hfind hk => hmem _ (by simp) (hstored row hfind hk)

theorem lookup_clearTempKey (tempKey : String) (t : Store) (cid : Cid) :
    (clearTempKey tempKey t).blob.lookup cid = (t.blob.lookup cid).map fun row =>
      if row.tempKey = some tempKey then { row with tempKey := none } else row :=
  Sql.Table.lookup_updateRows _ _ _

/-- A row after the `UPDATE`: as it was, or no longer waiting under the key. -/
theorem clearTempKey_row {tempKey : String} {t : Store} {cid : Cid} {row : BlobRow}
    (hrow : (clearTempKey tempKey t).blob.lookup cid = some row) :
    (t.blob.lookup cid = some row ∧ row.tempKey ≠ some tempKey) ∨
      ∃ old, t.blob.lookup cid = some old ∧ old.tempKey = some tempKey ∧
        row = { old with tempKey := none } := by
  rw [lookup_clearTempKey] at hrow
  obtain ⟨old, hold, he⟩ := Option.map_eq_some_iff.1 hrow
  split at he
  · rename_i hkey
    exact .inr ⟨old, hold, hkey, he.symm⟩
  · rename_i hkey
    subst he
    exact .inl ⟨hold, hkey⟩

/-- The row that waits under a key may stop waiting once its bytes are stored. -/
theorem LifeInv.clear (hs : LifeInv h cidOf s) {tempKey : String} {cid : Cid}
    (hkey : s.keys tempKey = some cid)
    (hstored : ∀ row, findBlob s.store cid = some row → row.tempKey = some tempKey →
      h.storedPath cid ∈ s.objects) :
    LifeInv h cidOf { s with store := clearTempKey tempKey s.store } := by
  have hwaits : ∀ c row k, findBlob (clearTempKey tempKey s.store) c = some row →
      row.tempKey = some k → findBlob s.store c = some row := by
    intro c row k hfind hk
    obtain ⟨hl, ht⟩ := findBlob_eq_some.1 hfind
    rcases clearTempKey_row hl with ⟨hl, -⟩ | ⟨old, -, -, rfl⟩
    · exact findBlob_eq_some.2 ⟨hl, ht⟩
    · cases hk
  constructor
  case storedBytes => exact hs.storedBytes
  case tmpBytes => exact hs.tmpBytes
  case upload => exact hs.upload
  case rowKey =>
    intro c row k hl hk
    rcases clearTempKey_row hl with ⟨hl, -⟩ | ⟨old, -, -, rfl⟩
    · exact hs.rowKey c row k hl hk
    · cases hk
  case promoted =>
    intro c row hfind hk
    obtain ⟨hl, ht⟩ := findBlob_eq_some.1 hfind
    rcases clearTempKey_row hl with ⟨hl, -⟩ | ⟨old, hold, hoks, rfl⟩
    · exact hs.promoted c row (findBlob_eq_some.2 ⟨hl, ht⟩) hk
    · have hc := (hs.rowKey c old tempKey hold hoks).1
      rw [hkey, Option.some.injEq] at hc
      subst hc
      exact hstored old (findBlob_eq_some.2 ⟨hold, ht⟩) hoks
  case waiting => exact fun c row k hfind hk => hs.waiting c row k (hwaits c row k hfind hk) hk
  case batch =>
    intro b hb
    refine ⟨(hs.batch b hb).key, fun stage k c hp hst row hfind hk => ?_⟩
    exact (hs.batch b hb).stored stage k c hp hst row (hwaits c row k hfind hk) hk

/-- The bytes of a CID that nothing needs may go. -/
theorem LifeInv.deleteBytes (hs : LifeInv h cidOf s) {cid : Cid} (hC : Unused h s cid)
    (jobs : List (Finset Cid)) :
    LifeInv h cidOf { s with objects := s.objects.erase (h.storedPath cid), jobs } := by
  have hmem : ∀ k, k ≠ h.storedPath cid → k ∈ s.objects → k ∈ s.objects.erase (h.storedPath cid) :=
    fun k hne hk => mem_objects_erase.2 ⟨hne, hk⟩
  constructor
  case storedBytes => exact fun c b hb => hs.storedBytes c b (lookup_of_erase hb)
  case tmpBytes => exact fun k c b hk hb => hs.tmpBytes k c b hk (lookup_of_erase hb)
  case upload =>
    intro k u hu
    obtain ⟨hk, hin⟩ := hs.upload k u hu
    exact ⟨hk, hmem _ (by simp) hin⟩
  case rowKey => exact hs.rowKey
  case promoted =>
    intro c row hfind hk
    by_cases hc : c = cid
    · subst hc
      obtain ⟨tempKey, hkey, -⟩ := hC row hfind
      rw [hk] at hkey
      cases hkey
    · exact hmem _ (by simpa using hc) (hs.promoted c row hfind hk)
  case waiting =>
    intro c row k hfind hk
    by_cases hc : c = cid
    · subst hc
      obtain ⟨tempKey, hkey, hthere, -⟩ := hC row hfind
      rw [hk, Option.mem_some_iff] at hkey
      subst hkey
      exact .inl (hmem _ (by simp) hthere)
    · exact (hs.waiting c row k hfind hk).imp (hmem _ (by simp)) (hmem _ (by simpa using hc))
  case batch =>
    intro b hb
    refine ⟨(hs.batch b hb).key, fun stage k c hp hst row hfind hk => ?_⟩
    by_cases hc : c = cid
    · subst hc
      obtain ⟨tempKey, hkey, -, hsealed⟩ := hC row hfind
      rw [hk, Option.mem_some_iff] at hkey
      subst hkey
      rw [hsealed b hb _ hp rfl] at hst
      cases hst
    · exact hmem _ (by simpa using hc) ((hs.batch b hb).stored stage k c hp hst row hfind hk)

/-! ## Batches and runs -/

theorem selectNext_promotion {t : Store} {refs : List (AtUri × PreparedBlobRef)} {b : Batch}
    (hb : selectNext t refs = some b) {stage : PromotionStage} {tempKey : String} {cid : Cid}
    (hp : b.promotion = some (stage, tempKey, cid)) :
    stage = .stat ∧ ∃ row, t.blob.lookup cid = some row ∧ row.tempKey = some tempKey := by
  cases refs with
  | nil => cases hb
  | cons ref refs =>
    obtain ⟨uri, blob⟩ := ref
    simp only [selectNext] at hb
    split at hb
    · cases hb
    rename_i found hfind
    split at hb
    · cases hb
    split at hb
    · cases hb
      cases hp
    · rename_i hkey
      cases hb
      cases hp
      exact ⟨rfl, found, lookup_of_findBlob hfind, hkey⟩

theorem LifeInv.moveTemp (hs : LifeInv h cidOf s) {tempKey : String} {cid : Cid} {next : Batch}
    (hkey : s.keys tempKey = some cid) (hfree : tempKey ∉ s.uploads)
    (hnext : next.promotion = some (.dropTemp, tempKey, cid)) :
    LifeInv h cidOf (s.moveTemp h tempKey cid next).1 ∧
      ∀ b ∈ (s.moveTemp h tempKey cid next).2,
        BatchInv h (s.moveTemp h tempKey cid next).1 b := by
  unfold Lifecycle.moveTemp
  split
  · exact ⟨hs, fun b hb => by cases hb⟩
  · rename_i objects hr
    obtain ⟨hinv, hthere⟩ := hs.rename hkey hfree hr
    refine ⟨hinv, ?_⟩
    rintro b ⟨⟩
    refine ⟨fun stage k c hp => ?_, fun stage k c hp _ row _ _ => ?_⟩
    · rw [hnext] at hp
      cases hp
      exact ⟨hkey, hfree⟩
    · rw [hnext] at hp
      cases hp
      exact hthere

/-- What the step of a batch leaves, and how it goes on. -/
theorem LifeInv.advance (hs : LifeInv h cidOf s) {b : Batch} (hb : b ∈ s.batches) :
    LifeInv h cidOf (s.advance h b).1 ∧
      ∀ b' ∈ (s.advance h b).2, BatchInv h (s.advance h b).1 b' := by
  cases b with
  | deleteRefs writes =>
    refine ⟨hs.setStore fun _ _ hrow => hrow, ?_⟩
    rintro b' ⟨⟩
    refine .of_idle ?_
    show Batch.promotion (if _ then _ else _) = none
    split <;> rfl
  | selectDuplicates writes deleted =>
    refine ⟨hs, ?_⟩
    rintro b' ⟨⟩
    refine .of_idle ?_
    show Batch.promotion (if _ then _ else _) = none
    split <;> rfl
  | deleteRows writes cids =>
    have hrows : ∀ cid row, (deleteBlobs cids s.store).blob.lookup cid = some row →
        s.store.blob.lookup cid = some row := by
      intro cid row hrow
      rw [deleteBlobs, Sql.Table.lookup_deleteSet] at hrow
      split at hrow
      · cases hrow
      · exact hrow
    refine ⟨(hs.setStore hrows).setJobs _, ?_⟩
    rintro b' ⟨⟩
    exact .of_idle rfl
  | nextBlob refs =>
    refine ⟨hs, fun b' hb' => ⟨fun stage k cid hp => ?_, fun stage k cid hp hst => ?_⟩⟩
    · obtain ⟨-, row, hrow, hk⟩ := selectNext_promotion hb' hp
      exact hs.rowKey cid row k hrow hk
    · obtain ⟨rfl, -⟩ := selectNext_promotion hb' hp
      cases hst
  | associate uri blob refs =>
    refine ⟨hs.setStore fun _ _ hrow => hrow, ?_⟩
    rintro b' ⟨⟩
    exact .of_idle rfl
  | promote stage tempKey uri blob refs =>
    obtain ⟨hown, hfree⟩ := (hs.batch _ hb).key stage tempKey blob.cid rfl
    have hstored := (hs.batch _ hb).stored stage tempKey blob.cid rfl
    cases stage with
    | stat =>
      refine ⟨hs.setStore fun _ _ hrow => hrow, ?_⟩
      rintro b' ⟨⟩
      refine ⟨?_, ?_⟩
      · rintro stage k cid ⟨⟩
        exact ⟨hown, hfree⟩
      · rintro stage k cid ⟨⟩ hst row - -
        split at hst
        · assumption
        · cases hst
    | rename => exact hs.moveTemp hown hfree rfl
    | dropTemp =>
      refine ⟨hs.dropTemp hown hfree (hstored rfl), ?_⟩
      rintro b' ⟨⟩
      refine ⟨?_, ?_⟩
      · rintro stage k cid ⟨⟩
        exact ⟨hown, hfree⟩
      · rintro stage k cid ⟨⟩ - row hfind hk
        exact mem_objects_erase.2 ⟨by simp, hstored rfl row hfind hk⟩
    | clear =>
      refine ⟨hs.clear hown (hstored rfl), ?_⟩
      rintro b' ⟨⟩
      exact .of_idle rfl

/-- A batch that goes on after a failure knows what it knew. -/
theorem LifeInv.failed (hs : LifeInv h cidOf s) {b : Batch} (hb : b ∈ s.batches) :
    ∀ b' ∈ b.failed, BatchInv h s b' := by
  intro b' hb'
  cases b with
  | promote stage tempKey uri blob refs =>
    cases stage with
    | dropTemp =>
      cases hb'
      have hold := hs.batch _ hb
      refine ⟨?_, ?_⟩
      · rintro stage k cid ⟨⟩
        exact hold.key .dropTemp tempKey blob.cid rfl
      · rintro stage k cid ⟨⟩ -
        exact hold.stored .dropTemp tempKey blob.cid rfl rfl
    | stat => cases hb'
    | rename => cases hb'
    | clear => cases hb'
  | _ => cases hb'

/-- **A step keeps the invariant, if what it deletes is unused.** -/
theorem LifeInv.step (hs : LifeInv h cidOf s) {a : LifeStep} {t : Lifecycle}
    (hC : DeletesUnused h s a) (hstep : lifeStep h cidOf s a = some t) : LifeInv h cidOf t := by
  cases a with
  | putTemp tempKey mime bytes =>
    simp only [lifeStep] at hstep
    split at hstep
    · rename_i hfresh
      cases hstep
      exact hs.putTemp hfresh
    · cases hstep
  | checkUpload tempKey =>
    obtain ⟨u, hu, rfl⟩ := Option.map_eq_some_iff.1 hstep
    have hu := (Option.filter_eq_some_iff.1 hu).1
    refine hs.setUploads fun k v hv => ?_
    split at hv
    · exact ⟨v, (Sql.Table.lookup_erase_eq_some.1 hv).2, rfl⟩
    · rcases Sql.Table.lookup_insert_eq_some.1 hv with ⟨hk, rfl⟩ | ⟨-, hv⟩
      · exact ⟨u, hk ▸ hu, rfl⟩
      · exact ⟨v, hv, rfl⟩
  | insertUpload tempKey =>
    obtain ⟨u, hu, rfl⟩ := Option.map_eq_some_iff.1 hstep
    exact hs.insertUpload (Option.filter_eq_some_iff.1 hu).1
  | dropUpload tempKey =>
    cases hstep
    refine hs.setUploads fun k v hv => ?_
    exact ⟨v, (Sql.Table.lookup_erase_eq_some.1 hv).2, rfl⟩
  | startBatch writes =>
    cases hstep
    refine hs.setBatches fun b hb => ?_
    rcases List.mem_append.1 hb with hb | hb
    · exact hs.batch b hb
    · rw [List.mem_singleton.1 hb]
      exact .of_idle rfl
  | advance i =>
    obtain ⟨b, hb, rfl⟩ := Option.map_eq_some_iff.1 hstep
    obtain ⟨hinv, hnext⟩ := hs.advance (List.mem_of_getElem? hb)
    exact hinv.setBatch hnext
  | fail i =>
    obtain ⟨b, hb, rfl⟩ := Option.map_eq_some_iff.1 hstep
    exact hs.setBatch (hs.failed (List.mem_of_getElem? hb))
  | dropBatch i =>
    cases hstep
    exact hs.setBatch fun b hb => by cases hb
  | deleteBytes j cid =>
    obtain ⟨cids, -, rfl⟩ := Option.map_eq_some_iff.1 hstep
    exact hs.deleteBytes hC _
  | skipBytes j cid =>
    obtain ⟨cids, -, rfl⟩ := Option.map_eq_some_iff.1 hstep
    exact hs.setJobs _
  | dropJob j =>
    cases hstep
    exact hs.setJobs _

end

/-- **In every run whose jobs delete only unused bytes, every blob row has its bytes.** -/
theorem bytesThere_of_deletesUnused {h : Handle} {cidOf : Bytes → Cid} {s : Lifecycle}
    (hs : LifeInv h cidOf s) (steps : List LifeStep)
    (hC : Runs.Along (lifeStep h cidOf) (DeletesUnused h) s steps) :
    Runs.Always (lifeStep h cidOf) (BytesThere h cidOf) s steps :=
  (Runs.always_of_along (fun _ _ _ hs hC hstep => hs.step hC hstep) hs steps hC).mono
    fun _ hs => hs.bytesThere

theorem not_hasBytes_erase {cidOf : Bytes → Cid} {objects : Objects} {key : String} {cid : Cid} :
    ¬ HasBytes cidOf (objects.erase key) key cid := by
  rintro ⟨bytes, hb, -⟩
  rw [Finmap.lookup_erase] at hb
  cases hb

theorem HasBytes.of_erase {cidOf : Bytes → Cid} {objects : Objects} {key other : String} {cid : Cid}
    (h : HasBytes cidOf (objects.erase other) key cid) : HasBytes cidOf objects key cid := by
  obtain ⟨bytes, hb, hcid⟩ := h
  exact ⟨bytes, lookup_of_erase hb, hcid⟩

theorem findBlob_clearTempKey {tempKey : String} {t : Store} {cid : Cid} {row : BlobRow}
    (hfind : findBlob t cid = some row) (hkey : row.tempKey = some tempKey) :
    findBlob (clearTempKey tempKey t) cid = some { row with tempKey := none } := by
  obtain ⟨hl, ht⟩ := findBlob_eq_some.1 hfind
  refine findBlob_eq_some.2 ⟨?_, ht⟩
  rw [lookup_clearTempKey, hl, Option.map_some, if_pos hkey]

/-- Where the bytes of a used CID are deleted, a row loses its bytes: at once, or as soon as the
promotion that has passed its temp object over takes its next step. -/
theorem deleteBytes_breaks {h : Handle} {cidOf : Bytes → Cid} {s t : Lifecycle} {j : Nat} {cid : Cid}
    (hused : ¬ Unused h s cid) (hstep : lifeStep h cidOf s (.deleteBytes j cid) = some t) :
    ¬ BytesThere h cidOf t ∨
      ∃ i u, lifeStep h cidOf t (.advance i) = some u ∧ ¬ BytesThere h cidOf u := by
  obtain ⟨cids, -, rfl⟩ := Option.map_eq_some_iff.1 hstep
  simp only [Unused, not_forall] at hused
  obtain ⟨row, hfind, hused⟩ := hused
  cases hkey : row.tempKey with
  | none => exact .inl fun hthere => not_hasBytes_erase (hthere.promoted cid row hfind hkey)
  | some tempKey =>
    by_cases htmp : h.tmpPath tempKey ∈ s.objects
    · have hsealed : ∃ b ∈ s.batches, ∃ stage, b.promotion = some (stage, tempKey, cid) ∧
          stage.sealed = true := by
        by_contra hn
        refine hused ⟨tempKey, hkey, htmp, fun b hb p hp he => ?_⟩
        by_contra hst
        exact hn ⟨b, hb, p.1, by rw [← he]; exact hp, by simpa using hst⟩
      obtain ⟨b, hb, stage, hp, hst⟩ := hsealed
      obtain ⟨i, hi⟩ := List.getElem?_of_mem hb
      refine .inr ⟨i, _, Option.map_eq_some_iff.2 ⟨b, hi, rfl⟩, fun hthere => ?_⟩
      cases b with
      | promote stage' k uri blob refs =>
        cases hp
        cases stage with
        | dropTemp =>
          have hwait : HasBytes cidOf ((s.objects.erase (h.storedPath blob.cid)).erase
              (h.tmpPath tempKey)) (h.tmpPath tempKey) blob.cid ∨
              HasBytes cidOf ((s.objects.erase (h.storedPath blob.cid)).erase
                (h.tmpPath tempKey)) (h.storedPath blob.cid) blob.cid :=
            hthere.waiting blob.cid row tempKey hfind hkey
          rcases hwait with htemp | hstored
          · exact not_hasBytes_erase htemp
          · exact not_hasBytes_erase hstored.of_erase
        | clear =>
          have hstored : HasBytes cidOf (s.objects.erase (h.storedPath blob.cid))
              (h.storedPath blob.cid) blob.cid :=
            hthere.promoted blob.cid _ (findBlob_clearTempKey hfind hkey) rfl
          exact not_hasBytes_erase hstored
        | stat => cases hst
        | rename => cases hst
      | _ => cases hp
    · refine .inl fun hthere => ?_
      rcases hthere.waiting cid row tempKey hfind hkey with ⟨bytes, hbytes, -⟩ | hstored
      · exact htmp (Finmap.mem_iff.2 ⟨bytes, lookup_of_erase hbytes⟩)
      · exact not_hasBytes_erase hstored

/-! ## A blob uploaded twice -/

def Lifecycle.start : Lifecycle := ⟨.fresh, ∅, fun _ => none, ∅, [], []⟩

/-- An actor without blobs is in order. -/
theorem lifeInv_start (h : Handle) (cidOf : Bytes → Cid) : LifeInv h cidOf .start where
  storedBytes _ _ hb := by cases hb
  tmpBytes _ _ _ hk := by cases hk
  upload _ _ hu := by cases hu
  rowKey _ _ _ hrow := by cases hrow
  promoted _ _ hrow := by cases hrow
  waiting _ _ _ hrow := by cases hrow
  batch _ hb := by cases hb

def sampleHandle : Handle := ⟨"did:plc:a", by decide⟩

def uploadSteps (tempKey : String) : List LifeStep :=
  [.putTemp tempKey "image/png" [0], .checkUpload tempKey, .insertUpload tempKey]

/-- A record that lists the blob; a promotion that finds it stored takes one step less. -/
def createSteps (rkey : String) (steps : Nat) : List LifeStep :=
  .startBatch [.create ⟨feedPost rkey, ⟨"x"⟩, none, [], [⟨⟨"b"⟩, "image/png", none, none⟩]⟩] ::
    List.replicate steps (.advance 0)

def deleteSteps (rkey : String) : List LifeStep :=
  .startBatch [.delete ⟨feedPost rkey, none⟩] :: List.replicate 4 (.advance 0)

/-- The bytes go before the blob is uploaded again. -/
theorem bytesThere_delete_before_reupload :
    Runs.Always (lifeStep sampleHandle fun _ => ⟨"b"⟩) (BytesThere sampleHandle fun _ => ⟨"b"⟩) .start
      (uploadSteps "t1" ++ createSteps "a" 8 ++ deleteSteps "a" ++ [.deleteBytes 0 ⟨"b"⟩] ++
        uploadSteps "t2" ++ createSteps "c" 8) :=
  bytesThere_of_deletesUnused (lifeInv_start _ _) _ (by decide)

/-- They go after: the promotion has found the old bytes and dropped the new ones. -/
theorem bytesThere_fails_reupload :
    ¬ Runs.Always (lifeStep sampleHandle fun _ => ⟨"b"⟩) (BytesThere sampleHandle fun _ => ⟨"b"⟩)
      .start (uploadSteps "t1" ++ createSteps "a" 8 ++ deleteSteps "a" ++ uploadSteps "t2" ++
        createSteps "c" 7 ++ [.deleteBytes 0 ⟨"b"⟩]) := by
  intro hall
  obtain ⟨t, hrun, hrow, hgone⟩ : ∃ t, Runs.run (lifeStep sampleHandle fun _ => ⟨"b"⟩) .start
      (uploadSteps "t1" ++ createSteps "a" 8 ++ deleteSteps "a" ++ uploadSteps "t2" ++
        createSteps "c" 7 ++ [.deleteBytes 0 ⟨"b"⟩]) = some t ∧
      findBlob t.store ⟨"b"⟩ = some ⟨"image/png", 1, none, none⟩ ∧
        t.objects.lookup (sampleHandle.storedPath ⟨"b"⟩) = none :=
    ⟨_, rfl, by decide, by decide⟩
  obtain ⟨bytes, hbytes, -⟩ := (hall.last hrun).promoted _ _ hrow rfl
  rw [hgone] at hbytes
  cases hbytes

end CacosPds.ActorStore
