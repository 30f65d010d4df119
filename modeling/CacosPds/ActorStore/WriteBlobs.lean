import CacosPds.ActorStore.Batch
/-!
# Uploads and the blobs of a write batch (`blob/write.rs`)

| here | there |
| --- | --- |
| `uploadBlobAndGetMetadata` | `upload_blob_and_get_metadata` (`write.rs:68`); the hash is `cidOf` |
| `trackUntetheredBlob` | `track_untethered_blob` (`write.rs:89`) |
| `acceptedMime`     | `accepted_mime` (`write.rs:14`) |
| `verifyBlob`       | `verify_blob` (`write.rs:27`) |
| `verifyBlobAndMakePermanent` | `verify_blob_and_make_permanent` (`write.rs:131`) |
| `associateBlob`    | `associate_blob` (`write.rs:162`) |
| `deleteDereferencedBlobs` | `delete_dereferenced_blobs` (`write.rs:189`) |
| `processWriteBlobs` | `process_write_blobs` (`write.rs:173`); its two loops are one over `blobRefs` |

Each statement is committed on its own. Errors are `anyhow`, wrapped by the `?` of the caller.
-/
namespace CacosPds.ActorStore

open Stages

/-! ## Uploads -/

structure BlobMetadata where
  tempKey : String
  size : Int
  cid : Cid
  mimeType : String

/-- `rsky_lexicon`'s `BlobRef`, of a blob with a CID. -/
structure BlobRef where
  cid : Cid
  mimeType : String
  size : Int

/-- The errors of the accesses of an upload. -/
structure UploadFaults where
  putTemp : Option String
  hash : Option String
  selectBlob : Option String
  insertBlob : Option String

def putTemp (tempKey : String) (bytes : Bytes) (s : Store) : Store :=
  { s with blobCalls := s.blobCalls ++ [.putTemp tempKey bytes] }

def uploadBlobAndGetMetadata (cidOf : Bytes → Cid) (F : UploadFaults)
    (tempKey userSuggestedMime : String) (bytes : Bytes) : Call BlobMetadata := do
  access F.putTemp .ofAnyhow
  modify (putTemp tempKey bytes)
  access F.hash .ofAnyhow
  return ⟨tempKey, bytes.length, cidOf bytes, userSuggestedMime⟩

/-- The row's mark, if there is a row: its `takedownRef`. -/
def takedownMark (s : Store) (cid : Cid) : Option (Option String) :=
  (s.blob.lookup cid).map BlobRow.takedownRef

def refuseTakendown (s : Store) (cid : Cid) : Call Unit :=
  if ((takedownMark s cid).getD none).isSome then
    throw (.ofAnyhow "Blob has been takendown, cannot re-upload")
  else pure ()

/-- `INSERT INTO blob … ON CONFLICT (cid) DO UPDATE SET "tempKey" = excluded."tempKey" WHERE
blob."tempKey" IS NOT NULL`. -/
def upsertBlob (m : BlobMetadata) (s : Store) : Store :=
  { s with blob := s.blob.upsert m.cid ⟨m.mimeType, m.size, some m.tempKey, none⟩ fun row =>
      if row.tempKey.isSome then { row with tempKey := some m.tempKey } else row }

def trackUntetheredBlob (F : UploadFaults) (m : BlobMetadata) : Call BlobRef := do
  access F.selectBlob .ofAnyhow
  let s ← get
  refuseTakendown s m.cid
  access F.insertBlob .ofAnyhow
  modify (upsertBlob m)
  return ⟨m.cid, m.mimeType, m.size⟩

/-! ## Constraints -/

/-- `accepted_mime`; a string is looked at by its characters. -/
def acceptedMime (mime : String) (accepted : List String) : Bool :=
  accepted.contains "*/*" ||
  accepted.any (fun a => "/*".toList.isSuffixOf a.toList && a.toList.dropLast.isPrefixOf mime.toList) ||
  accepted.contains mime

/-- The `Debug` text of a list of strings. -/
def debugStrings (l : List String) : String := "[" ++ ", ".intercalate (l.map debugStr) ++ "]"

/-- `size as usize`. -/
def asUsize (size : Int) : Nat := (size % 2 ^ 64).toNat

def verifyBlob (blob : PreparedBlobRef) (found : BlobRow) : Except String Unit :=
  if blob.maxSize.any (· < asUsize found.size) then
    .error ("BlobTooLarge: This file is too large. It is " ++ toString found.size ++
      " but the maximum size is " ++ toString (blob.maxSize.getD 0))
  else if blob.mimeType ≠ found.mimeType then
    .error ("InvalidMimeType: Referenced MimeType does not match stored blob. Expected: " ++
      debugStr found.mimeType ++ ", Got: " ++ debugStr blob.mimeType)
  else if blob.accept.any (!acceptedMime blob.mimeType ·) then
    .error ("Wrong type of file. It is " ++ debugStr blob.mimeType ++ " but it must match " ++
      debugStrings (blob.accept.getD []) ++ ".")
  else .ok ()

/-! ## Promotion and association -/

/-- `SELECT … WHERE cid = ? AND "takedownRef" IS NULL`. -/
def findBlob (s : Store) (cid : Cid) : Option BlobRow :=
  (s.blob.lookup cid).filter (·.takedownRef.isNone)

/-- `UPDATE blob SET "tempKey" = NULL WHERE "tempKey" = ?`. -/
def clearTempKey (tempKey : String) (s : Store) : Store :=
  { s with blob := s.blob.updateRows fun row =>
      if row.tempKey = some tempKey then { row with tempKey := none } else row }

/-- `blobstore.make_permanent`. -/
def makePermanent (tempKey : String) (cid : Cid) (s : Store) : Store :=
  { s with blobCalls := s.blobCalls ++ [.makePermanent tempKey cid] }

/-- The promotion of a blob that waits under a temporary key (`write.rs:144-155`). -/
def promoteBlob (F : Faults) (n : Nat) (tempKey : String) (cid : Cid) : Call Unit := do
  access (F (.makePermanent n)) .ofAnyhow
  modify (makePermanent tempKey cid)
  access (F (.clearTempKey n)) .ofAnyhow
  modify (clearTempKey tempKey)

def verifyBlobAndMakePermanent (F : Faults) (n : Nat) (blob : PreparedBlobRef) : Call Unit := do
  access (F (.selectBlob n)) .ofAnyhow
  let s ← get
  match findBlob s blob.cid with
  | none => throw (.ofAnyhow ("Could not find blob: " ++ debugStr blob.cid.text))
  | some found =>
    match verifyBlob blob found with
    | .error e => throw (.ofAnyhow e)
    | .ok () =>
      match found.tempKey with
      | none => pure ()
      | some tempKey => promoteBlob F n tempKey blob.cid

/-- `INSERT INTO record_blob … ON CONFLICT DO NOTHING`. -/
def associate (cid : Cid) (uri : AtUri) (s : Store) : Store :=
  { s with recordBlob := insert (cid, uri) s.recordBlob }

def associateBlob (F : Faults) (n : Nat) (blob : PreparedBlobRef) (uri : AtUri) : Call Unit := do
  access (F (.associateBlob n)) .ofAnyhow
  modify (associate blob.cid uri)

/-! ## Dereferenced blobs -/

/-- `DELETE FROM record_blob WHERE "recordUri" IN (…) RETURNING "blobCid"`. -/
def dereferenced (s : Store) (uris : List AtUri) : Finset Cid :=
  (s.recordBlob.filter fun row => row.2 ∈ uris).image Prod.fst

def deleteRecordBlobs (uris : List AtUri) (s : Store) : Store :=
  { s with recordBlob := s.recordBlob.filter fun row => row.2 ∉ uris }

/-- The CIDs that the batch itself lists (`write.rs:239-246`). -/
def newBlobCids (writes : List PreparedWrite) : List Cid :=
  writes.flatMap fun w => w.blobs.map PreparedBlobRef.cid

/-- The dereferenced CIDs that no other row and no write of the batch lists. -/
def cidsToDelete (s : Store) (writes : List PreparedWrite) : Finset Cid :=
  (dereferenced s (touchedUris writes)).filter fun cid =>
    (∀ row ∈ s.recordBlob, row.1 = cid → row.2 ∈ touchedUris writes) ∧ cid ∉ newBlobCids writes

theorem cidsToDelete_of_untouched {s : Store} {writes : List PreparedWrite}
    (h : touchedUris writes = []) : cidsToDelete s writes = ∅ := by
  simp [cidsToDelete, dereferenced, h]

/-- `DELETE FROM blob WHERE cid IN (…)`, and the background job. -/
def deleteBlobs (cids : Finset Cid) (s : Store) : Store :=
  { s with blob := s.blob.deleteSet cids, blobCalls := s.blobCalls ++ [.deleteMany cids] }

def deleteDereferencedBlobs (F : Faults) (writes : List PreparedWrite) : Call Unit := do
  let uris := touchedUris writes
  if uris = [] then return
  access (F .deleteRecordBlobs) .ofAnyhow
  let s ← get
  modify (deleteRecordBlobs uris)
  if dereferenced s uris = ∅ then return
  access (F .selectDuplicates) .ofAnyhow
  let cids := cidsToDelete s writes
  if cids = ∅ then return
  access (F .deleteBlobs) .ofAnyhow
  modify (deleteBlobs cids)

/-- The blobs the batch lists, each with the URI it is listed for. -/
def blobRefs (writes : List PreparedWrite) : List (AtUri × PreparedBlobRef) :=
  writes.flatMap fun w => w.blobs.map (w.uri, ·)

def processBlob (F : Faults) (rn : (AtUri × PreparedBlobRef) × Nat) : Call Unit := do
  verifyBlobAndMakePermanent F rn.2 rn.1.2
  associateBlob F rn.2 rn.1.2 rn.1.1

def processWriteBlobs (F : Faults) (writes : List PreparedWrite) : Call Unit := do
  deleteDereferencedBlobs F writes
  forM (blobRefs writes).zipIdx (processBlob F)

/-! ## Where the blob pass succeeds, and what it then does -/

/-- The blob's row is there, not taken down and of the right kind, and a promotion it needs works. -/
def Verifies (F : Faults) (n : Nat) (blob : PreparedBlobRef) (s : Store) : Prop :=
  F (.selectBlob n) = none ∧ ∃ found, findBlob s blob.cid = some found ∧
    verifyBlob blob found = .ok () ∧
      (found.tempKey ≠ none → F (.makePermanent n) = none ∧ F (.clearTempKey n) = none)

/-- The key under which a blob waits for its promotion. -/
def waitingKey (s : Store) (cid : Cid) : Option String := (findBlob s cid).bind BlobRow.tempKey

def promote (blob : PreparedBlobRef) (s : Store) : Store :=
  match waitingKey s blob.cid with
  | some tempKey => clearTempKey tempKey (makePermanent tempKey blob.cid s)
  | none => s

theorem does_promoteBlob (F : Faults) (n : Nat) (tempKey : String) (cid : Cid) :
    Does (promoteBlob F n tempKey cid)
      (fun _ => F (.makePermanent n) = none ∧ F (.clearTempKey n) = none)
      (fun s => clearTempKey tempKey (makePermanent tempKey cid s)) := by
  have hclear := does_access_modify (F (.clearTempKey n)) .ofAnyhow (clearTempKey tempKey)
  refine ((does_access (F (.makePermanent n)) .ofAnyhow).bind
    ((does_modify (makePermanent tempKey cid)).bind hclear)).congr (fun s => ?_) fun _ _ => rfl
  exact and_congr_right fun _ => and_iff_right trivial

theorem does_verifyBlobAndMakePermanent (F : Faults) (n : Nat) (blob : PreparedBlobRef) :
    Does (verifyBlobAndMakePermanent F n blob) (Verifies F n blob) (promote blob) := by
  intro s t
  unfold verifyBlobAndMakePermanent Verifies promote waitingKey
  rw [exec_bind_ok]
  simp only [does_access _ _ _ _, id, exec_bind, exec_get]
  constructor
  · rintro ⟨_, u, ⟨hsel, rfl⟩, h⟩
    cases hfind : findBlob u blob.cid with
    | none => rw [hfind] at h; cases h
    | some found =>
      simp only [hfind] at h
      cases hver : verifyBlob blob found with
      | error e => rw [hver] at h; cases h
      | ok =>
        simp only [hver] at h
        cases hkey : found.tempKey with
        | none =>
          simp only [hkey] at h
          cases h
          exact ⟨⟨hsel, found, rfl, hver, fun hne => absurd hkey hne⟩, by simp [hkey]⟩
        | some tempKey =>
          simp only [hkey] at h
          obtain ⟨hF, rfl⟩ := (does_promoteBlob F n tempKey blob.cid u t).1 h
          exact ⟨⟨hsel, found, rfl, hver, fun _ => hF⟩, by simp [hkey]⟩
  · rintro ⟨⟨hsel, found, hfind, hver, hF⟩, rfl⟩
    refine ⟨(), s, ⟨hsel, rfl⟩, ?_⟩
    simp only [hfind, hver]
    cases hkey : found.tempKey with
    | none => simp [hkey]
    | some tempKey =>
      simp only [hkey, Option.bind_some]
      exact (does_promoteBlob F n tempKey blob.cid s _).2 ⟨hF (by simp [hkey]), rfl⟩

theorem does_processBlob (F : Faults) (rn : (AtUri × PreparedBlobRef) × Nat) :
    Does (processBlob F rn)
      (fun s => Verifies F rn.2 rn.1.2 s ∧ F (.associateBlob rn.2) = none)
      (fun s => associate rn.1.2.cid rn.1.1 (promote rn.1.2 s)) :=
  (does_verifyBlobAndMakePermanent F rn.2 rn.1.2).bind (does_access_modify _ _ _)

/-- The statements of the dereferencing pass that are reached all work. -/
structure Dereferences (F : Faults) (s : Store) (writes : List PreparedWrite) : Prop where
  delete : touchedUris writes ≠ [] → F .deleteRecordBlobs = none
  duplicates : dereferenced s (touchedUris writes) ≠ ∅ → F .selectDuplicates = none
  blobs : cidsToDelete s writes ≠ ∅ → F .deleteBlobs = none

def dereference (writes : List PreparedWrite) (s : Store) : Store :=
  if cidsToDelete s writes = ∅ then deleteRecordBlobs (touchedUris writes) s
  else deleteBlobs (cidsToDelete s writes) (deleteRecordBlobs (touchedUris writes) s)

theorem deleteRecordBlobs_nil (s : Store) : deleteRecordBlobs [] s = s := by
  simp [deleteRecordBlobs]

theorem does_deleteDereferencedBlobs (F : Faults) (writes : List PreparedWrite) :
    Does (deleteDereferencedBlobs F writes) (fun s => Dereferences F s writes)
      (dereference writes) := by
  intro s t
  show _ ↔ Dereferences F s writes ∧ t = dereference writes s
  rw [@eq_comm _ t]
  unfold deleteDereferencedBlobs
  by_cases huris : touchedUris writes = []
  · have hcids : cidsToDelete s writes = ∅ := cidsToDelete_of_untouched huris
    have hderef : dereferenced s (touchedUris writes) = ∅ := by simp [dereferenced, huris]
    have hok : Dereferences F s writes := ⟨fun h => absurd huris h, fun h => absurd hderef h,
      fun h => absurd hcids h⟩
    simp [huris, hok, dereference, hcids, deleteRecordBlobs_nil]
  by_cases hderef : dereferenced s (touchedUris writes) = ∅
  · have hcids : cidsToDelete s writes = ∅ := by simp [cidsToDelete, hderef]
    have hok : Dereferences F s writes ↔ F .deleteRecordBlobs = none :=
      ⟨fun h => h.delete huris, fun h => ⟨fun _ => h, fun h => absurd hderef h,
        fun h => absurd hcids h⟩⟩
    rw [hok]
    cases F .deleteRecordBlobs <;>
      simp [huris, hderef, hcids, access, exec_bind, dereference]
  by_cases hcids : cidsToDelete s writes = ∅
  · have hok : Dereferences F s writes ↔ F .deleteRecordBlobs = none ∧ F .selectDuplicates = none :=
      ⟨fun h => ⟨h.delete huris, h.duplicates hderef⟩, fun h => ⟨fun _ => h.1, fun _ => h.2,
        fun h => absurd hcids h⟩⟩
    rw [hok]
    cases F .deleteRecordBlobs <;> cases F .selectDuplicates <;>
      simp [huris, hderef, hcids, access, exec_bind, dereference]
  · have hok : Dereferences F s writes ↔ F .deleteRecordBlobs = none ∧
        F .selectDuplicates = none ∧ F .deleteBlobs = none :=
      ⟨fun h => ⟨h.delete huris, h.duplicates hderef, h.blobs hcids⟩, fun h => ⟨fun _ => h.1,
        fun _ => h.2.1, fun _ => h.2.2⟩⟩
    rw [hok]
    cases F .deleteRecordBlobs <;> cases F .selectDuplicates <;> cases F .deleteBlobs <;>
      simp [huris, hderef, hcids, access, exec_bind, dereference]

/-- The blob pass: the dereferencing, then blob after blob. -/
def blobsAll (rns : List ((AtUri × PreparedBlobRef) × Nat)) (s : Store) : Store :=
  rns.foldl (fun s rn => associate rn.1.2.cid rn.1.1 (promote rn.1.2 s)) s

theorem does_processWriteBlobs (F : Faults) (writes : List PreparedWrite) :
    Does (processWriteBlobs F writes)
      (fun s => Dereferences F s writes ∧ ∀ n r, (blobRefs writes)[n]? = some r →
        Verifies F n r.2 (blobsAll ((blobRefs writes).zipIdx.take n) (dereference writes s)) ∧
          F (.associateBlob n) = none)
      (fun s => blobsAll (blobRefs writes).zipIdx (dereference writes s)) := by
  have hloop := does_forM_zipIdx
    (g := fun s rn => associate rn.1.2.cid rn.1.1 (promote rn.1.2 s))
    (does_processBlob F) (blobRefs writes)
  exact (does_deleteDereferencedBlobs F writes).bind hloop

/-! ## What the blob pass leaves alone -/

/-- The repo is as it was: root, blocks, records. -/
structure SameRepo (s t : Store) : Prop where
  repoRoot : t.repoRoot = s.repoRoot
  repoBlock : t.repoBlock = s.repoBlock
  record : t.record = s.record
  repo : t.repo = s.repo

theorem SameRepo.refl (s : Store) : SameRepo s s := ⟨rfl, rfl, rfl, rfl⟩

theorem SameRepo.trans (s t u : Store) (h : SameRepo s t) (k : SameRepo t u) : SameRepo s u :=
  ⟨k.repoRoot.trans h.repoRoot, k.repoBlock.trans h.repoBlock, k.record.trans h.record,
    k.repo.trans h.repo⟩

section

variable {R : Store → Store → Prop} (refl : ∀ s, R s s) (trans : ∀ s t u, R s t → R t u → R s u)
  (hperm : ∀ tempKey cid s, R s (makePermanent tempKey cid s))
  (hclear : ∀ tempKey s, R s (clearTempKey tempKey s))

include refl trans hperm hclear

theorem keeps_promoteBlob (F : Faults) (n : Nat) (tempKey : String) (cid : Cid) :
    Keeps (promoteBlob F n tempKey cid) R := by
  refine (keeps_access refl _ _).bind trans fun _ => ?_
  refine (keeps_modify (hperm tempKey cid)).bind trans fun _ => ?_
  exact keeps_access_modify refl trans _ _ (hclear tempKey)

theorem keeps_verifyBlobAndMakePermanent (F : Faults) (n : Nat) (blob : PreparedBlobRef) :
    Keeps (verifyBlobAndMakePermanent F n blob) R := by
  refine (keeps_access refl _ _).bind trans fun _ => ?_
  refine (keeps_get refl).bind trans fun s => ?_
  split
  · exact keeps_throw refl _
  split
  · exact keeps_throw refl _
  split
  · exact keeps_pure refl _
  · exact keeps_promoteBlob refl trans hperm hclear F n _ _

/-- What promotions and associations leave alone the loop over the blobs does. -/
theorem keeps_processBlobs (hassoc : ∀ cid uri s, R s (associate cid uri s)) (F : Faults)
    (rns : List ((AtUri × PreparedBlobRef) × Nat)) : Keeps (forM rns (processBlob F)) R := by
  refine Keeps.forM refl trans fun rn _ => ?_
  refine (keeps_verifyBlobAndMakePermanent refl trans hperm hclear F rn.2 rn.1.2).bind trans
    fun _ => ?_
  exact keeps_access_modify refl trans _ _ (hassoc _ _)

omit hperm hclear in
theorem keeps_deleteDereferencedBlobs (hrefs : ∀ uris s, R s (deleteRecordBlobs uris s))
    (hblobs : ∀ cids s, R s (deleteBlobs cids s)) (F : Faults) (writes : List PreparedWrite) :
    Keeps (deleteDereferencedBlobs F writes) R := by
  show Keeps (if touchedUris writes = [] then _ else _) R
  split
  · exact keeps_pure refl _
  refine (keeps_access refl _ _).bind trans fun _ => ?_
  refine (keeps_get refl).bind trans fun s => ?_
  refine (keeps_modify (hrefs _)).bind trans fun _ => ?_
  split
  · exact keeps_pure refl _
  refine (keeps_access refl _ _).bind trans fun _ => ?_
  show Keeps (if cidsToDelete s writes = ∅ then _ else _) R
  split
  · exact keeps_pure refl _
  · exact keeps_access_modify refl trans _ _ (hblobs _)

theorem keeps_blobPass (hassoc : ∀ cid uri s, R s (associate cid uri s))
    (hrefs : ∀ uris s, R s (deleteRecordBlobs uris s))
    (hblobs : ∀ cids s, R s (deleteBlobs cids s)) (F : Faults) (writes : List PreparedWrite) :
    Keeps (processWriteBlobs F writes) R :=
  (keeps_deleteDereferencedBlobs refl trans hrefs hblobs F writes).bind trans fun _ =>
    keeps_processBlobs refl trans hperm hclear hassoc F _

end

theorem keeps_processWriteBlobs (F : Faults) (writes : List PreparedWrite) :
    Keeps (processWriteBlobs F writes) SameRepo :=
  keeps_blobPass SameRepo.refl SameRepo.trans (fun _ _ _ => ⟨rfl, rfl, rfl, rfl⟩)
    (fun _ _ => ⟨rfl, rfl, rfl, rfl⟩) (fun _ _ _ => ⟨rfl, rfl, rfl, rfl⟩)
    (fun _ _ => ⟨rfl, rfl, rfl, rfl⟩) (fun _ _ => ⟨rfl, rfl, rfl, rfl⟩) F writes

end CacosPds.ActorStore
