import CacosPds.ActorStore.WriteBlobs
import CacosPds.Lib.Run
/-!
# Blob takedowns (`blob/takedown.rs`, `blob/read.rs:11-41`)

| here | there |
| --- | --- |
| `updateBlobTakedownStatus` | `update_blob_takedown_status` (`takedown.rs:37`) |
| `getBlob`       | `get_blob` with `get_blob_metadata` (`read.rs:11`, `:32`) |
| `LaterCall`     | what a run does after a takedown: uploads, write batches, takedowns of any blob |
| `Barred`        | the CID is neither served, nor promoted, nor taken again as an upload |

The mark is a column of the blob row, so it lasts as long as the row: `barred_iff_takenDown`. A
batch that drops the last reference deletes the row with the mark (`takedownMark_processWriteBlobs`).
-/
namespace CacosPds.ActorStore

open Stages

structure StatusAttr where
  applied : Bool
  ref : Option String
  deriving DecidableEq

/-- The `takedownRef` that a status writes. -/
def StatusAttr.takedownRef (now : String) (takedown : StatusAttr) : Option String :=
  if takedown.applied then some (takedown.ref.getD now) else none

/-- `UPDATE blob SET "takedownRef" = ? WHERE cid = ?`. -/
def setTakedownRef (cid : Cid) (takedownRef : Option String) (s : Store) : Store :=
  match s.blob.lookup cid with
  | some row => { s with blob := s.blob.insert cid { row with takedownRef } }
  | none => s

/-- The move in the blobstore; that it failed is only logged. -/
def quarantineBlob (blob : Cid) (takedown : StatusAttr) (s : Store) : Store :=
  { s with blobCalls :=
      s.blobCalls ++ [if takedown.applied then .quarantine blob else .unquarantine blob] }

def updateBlobTakedownStatus (err : Option String) (now : String) (blob : Cid)
    (takedown : StatusAttr) : Call Unit := do
  access err .ofAnyhow
  modify (setTakedownRef blob (takedown.takedownRef now))
  modify (quarantineBlob blob takedown)

structure GetBlobMetadataOutput where
  size : Int
  mimeType : Option String

structure GetBlobOutput where
  size : Int
  mimeType : Option String
  stream : Bytes

def getBlobMetadata (err : Option String) (cid : Cid) : Call GetBlobMetadataOutput := do
  access err .ofAnyhow
  let s ← get
  match findBlob s cid with
  | none => throw (.ofAnyhow "Blob not found")
  | some found => return ⟨found.size, some found.mimeType⟩

/-- `getStream` answers for the blobstore. -/
def getBlob (err : Option String) (getStream : Cid → Except PdsError Bytes) (cid : Cid) :
    Call GetBlobOutput := do
  let metadata ← getBlobMetadata err cid
  let stream ← ofExcept (getStream cid)
  return ⟨metadata.size, metadata.mimeType, stream⟩

/-! ## The run after a takedown -/

inductive LaterCall where
  | upload (F : UploadFaults) (tempKey mime : String) (bytes : Bytes)
  | processWriteBlobs (F : Faults) (writes : List PreparedWrite)
  | updateBlobTakedownStatus (err : Option String) (now : String) (blob : Cid)
      (takedown : StatusAttr)

/-- An upload and its tracking. -/
def uploadBlob (cidOf : Bytes → Cid) (F : UploadFaults) (tempKey mime : String) (bytes : Bytes) :
    Call BlobRef := do
  let metadata ← uploadBlobAndGetMetadata cidOf F tempKey mime bytes
  trackUntetheredBlob F metadata

/-- The call takes the takedown of the CID back. -/
def LaterCall.reverses (cid : Cid) : LaterCall → Bool
  | .updateBlobTakedownStatus _ _ blob takedown => blob = cid && !takedown.applied
  | _ => false

/-- What a call leaves, whether it returns or fails. -/
def afterCall (cidOf : Bytes → Cid) (s : Store) : LaterCall → Store
  | .upload F tempKey mime bytes => ((uploadBlob cidOf F tempKey mime bytes).exec s).2
  | .processWriteBlobs F writes => ((processWriteBlobs F writes).exec s).2
  | .updateBlobTakedownStatus err now blob takedown =>
    ((updateBlobTakedownStatus err now blob takedown).exec s).2

/-- One call; runs in which the takedown is taken back are left out. -/
def laterStep (cidOf : Bytes → Cid) (cid : Cid) (s : Store) (call : LaterCall) : Option Store :=
  if call.reverses cid then none else some (afterCall cidOf s call)

/-- The call does not return. -/
def Fails {α : Type} (x : Call α) (s : Store) : Prop := ∃ e t, x.exec s = (.error e, t)

/-- `get_blob`, `verify_blob_and_make_permanent` and `track_untethered_blob` all fail for the CID. -/
structure Barred (cid : Cid) (s : Store) : Prop where
  getBlob : ∀ err getStream, Fails (getBlob err getStream cid) s
  verify : ∀ F n blob, blob.cid = cid → Fails (verifyBlobAndMakePermanent F n blob) s
  track : ∀ F m, m.cid = cid → Fails (trackUntetheredBlob F m) s

/-- The row of the CID is there and carries a mark. -/
def TakenDown (cid : Cid) (s : Store) : Prop := ∃ ref, takedownMark s cid = some (some ref)

/-- The statements of the dereferencing pass work up to the deletion of the rows. -/
def DeletesRows (F : Faults) : Prop :=
  F .deleteRecordBlobs = none ∧ F .selectDuplicates = none ∧ F .deleteBlobs = none

instance (F : Faults) : Decidable (DeletesRows F) := by
  unfold DeletesRows
  infer_instance

/-- The batch drops the last references to the CID: its row is deleted. -/
def DropsRow (cid : Cid) (s : Store) : LaterCall → Prop
  | .processWriteBlobs F writes => DeletesRows F ∧ cid ∈ cidsToDelete s writes
  | _ => False

/-- A batch of creates deletes no row. -/
theorem not_dropsRow_creates {cid : Cid} {s : Store} {F : Faults} {writes : List PreparedWrite}
    (h : touchedUris writes = []) : ¬ DropsRow cid s (.processWriteBlobs F writes) := by
  rintro ⟨-, hcid⟩
  rw [cidsToDelete_of_untouched h] at hcid
  cases hcid

/-! ## The mark bars the CID -/

theorem fails_access_bind {α : Type} (err : Option String) (wrap : String → PdsError)
    {f : Call α} {s : Store} (h : Fails f s) : Fails (access err wrap >>= fun _ => f) s := by
  cases err with
  | some e => exact ⟨_, _, rfl⟩
  | none =>
    obtain ⟨e, t, h⟩ := h
    exact ⟨e, t, by rw [exec_bind, exec_access]; exact h⟩

theorem findBlob_of_takenDown {cid : Cid} {s : Store} (h : TakenDown cid s) :
    findBlob s cid = none := by
  obtain ⟨ref, h⟩ := h
  obtain ⟨row, hrow, href⟩ := Option.map_eq_some_iff.1 h
  simp [findBlob, hrow, href]

theorem exec_refuseTakendown (s : Store) (cid : Cid) (t : Store) :
    (refuseTakendown s cid).exec t = (if ((takedownMark s cid).getD none).isSome then
      .error (.ofAnyhow "Blob has been takendown, cannot re-upload") else .ok (), t) := by
  unfold refuseTakendown
  split <;> rfl

theorem barred_of_takenDown {cid : Cid} {s : Store} (h : TakenDown cid s) : Barred cid s where
  getBlob err getStream := by
    have hmeta : Fails (getBlobMetadata err cid) s := by
      refine fails_access_bind _ _ ⟨.ofAnyhow "Blob not found", s, ?_⟩
      rw [exec_bind, exec_get]
      simp [findBlob_of_takenDown h]
    obtain ⟨e, t, hmeta⟩ := hmeta
    exact ⟨e, t, by rw [getBlob, exec_bind, hmeta]⟩
  verify F n blob hcid := by
    refine fails_access_bind _ _ ⟨.ofAnyhow ("Could not find blob: " ++ debugStr blob.cid.text), s, ?_⟩
    rw [exec_bind, exec_get]
    simp [hcid, findBlob_of_takenDown h]
  track F m hcid := by
    obtain ⟨ref, h⟩ := h
    refine fails_access_bind _ _
      ⟨.ofAnyhow "Blob has been takendown, cannot re-upload", s, ?_⟩
    rw [exec_bind, exec_get]
    simp only [hcid]
    rw [exec_bind, exec_refuseTakendown, h]
    rfl

/-- Without a mark the next upload of the CID is taken. -/
theorem takenDown_of_track_fails {cid : Cid} {s : Store}
    (h : ∀ F m, m.cid = cid → Fails (trackUntetheredBlob F m) s) : TakenDown cid s := by
  obtain ⟨e, t, h⟩ := h ⟨none, none, none, none⟩ ⟨"", 0, cid, ""⟩ rfl
  rw [trackUntetheredBlob, exec_bind, exec_access] at h
  simp only [Option.elim_none] at h
  rw [exec_bind, exec_get] at h
  dsimp only at h
  rw [exec_bind, exec_refuseTakendown] at h
  cases hm : takedownMark s cid with
  | none => rw [hm] at h; cases h
  | some mark =>
    cases mark with
    | none => rw [hm] at h; cases h
    | some ref => exact ⟨ref, hm⟩

theorem barred_iff_takenDown {cid : Cid} {s : Store} : Barred cid s ↔ TakenDown cid s :=
  ⟨fun h => takenDown_of_track_fails h.track, barred_of_takenDown⟩

/-! ## Who keeps the mark -/

/-- Rows that are there stay, with their marks. -/
def KeepsMarks (s t : Store) : Prop :=
  ∀ cid mark, takedownMark s cid = some mark → takedownMark t cid = some mark

theorem KeepsMarks.refl (s : Store) : KeepsMarks s s := fun _ _ h => h

theorem KeepsMarks.trans (s t u : Store) (h : KeepsMarks s t) (k : KeepsMarks t u) :
    KeepsMarks s u := fun cid mark hm => k cid mark (h cid mark hm)

theorem KeepsMarks.takenDown {s t : Store} (h : KeepsMarks s t) {cid : Cid}
    (hs : TakenDown cid s) : TakenDown cid t := by
  obtain ⟨ref, hs⟩ := hs
  exact ⟨ref, h cid _ hs⟩

theorem keepsMarks_upsertBlob (m : BlobMetadata) (s : Store) : KeepsMarks s (upsertBlob m s) := by
  intro cid mark h
  obtain ⟨row, hrow, rfl⟩ := Option.map_eq_some_iff.1 h
  simp only [takedownMark, upsertBlob, Sql.Table.lookup_upsert]
  split
  · subst_vars
    rw [hrow]
    simp only [Option.elim_some, Option.map_some]
    split <;> rfl
  · rw [hrow]
    rfl

theorem keeps_uploadBlob (cidOf : Bytes → Cid) (F : UploadFaults) (tempKey mime : String)
    (bytes : Bytes) : Keeps (uploadBlob cidOf F tempKey mime bytes) KeepsMarks := by
  refine Keeps.bind KeepsMarks.trans ?_ fun m => ?_
  · refine (keeps_access KeepsMarks.refl _ _).bind KeepsMarks.trans fun _ => ?_
    refine (keeps_modify fun _ _ _ h => h).bind KeepsMarks.trans fun _ => ?_
    exact (keeps_access KeepsMarks.refl _ _).bind KeepsMarks.trans fun _ =>
      keeps_pure KeepsMarks.refl _
  · refine (keeps_access KeepsMarks.refl _ _).bind KeepsMarks.trans fun _ => ?_
    refine (keeps_get KeepsMarks.refl).bind KeepsMarks.trans fun s => ?_
    refine Keeps.bind KeepsMarks.trans ?_ fun _ => ?_
    · unfold refuseTakendown
      split
      · exact keeps_throw KeepsMarks.refl _
      · exact keeps_pure KeepsMarks.refl _
    refine (keeps_access KeepsMarks.refl _ _).bind KeepsMarks.trans fun _ => ?_
    exact (keeps_modify (keepsMarks_upsertBlob m)).bind KeepsMarks.trans fun _ =>
      keeps_pure KeepsMarks.refl _

theorem blob_deleteDereferencedBlobs (F : Faults) (writes : List PreparedWrite) (s : Store) :
    ((deleteDereferencedBlobs F writes).exec s).2.blob =
      if DeletesRows F then s.blob.deleteSet (cidsToDelete s writes) else s.blob := by
  have hempty : s.blob.deleteSet ∅ = s.blob := Finmap.ext_lookup fun c => by
    rw [Sql.Table.lookup_deleteSet]
    rfl
  split
  · rename_i hF
    obtain ⟨hdel, hsel, hrows⟩ := hF
    have hok : Dereferences F s writes := ⟨fun _ => hdel, fun _ => hsel, fun _ => hrows⟩
    rw [((does_deleteDereferencedBlobs F writes) s _).2 ⟨hok, rfl⟩, dereference]
    by_cases hcids : cidsToDelete s writes = ∅
    · rw [if_pos hcids, hcids, hempty]
      rfl
    · rw [if_neg hcids]
      rfl
  · rename_i hF
    unfold deleteDereferencedBlobs
    by_cases huris : touchedUris writes = []
    · simp [huris]
    cases hdel : F .deleteRecordBlobs with
    | some e => simp [huris, access]
    | none =>
      by_cases hderef : dereferenced s (touchedUris writes) = ∅
      · simp [huris, hderef, access, exec_bind, deleteRecordBlobs]
      cases hsel : F .selectDuplicates with
      | some e => simp [huris, hderef, access, exec_bind, deleteRecordBlobs]
      | none =>
        by_cases hcids : cidsToDelete s writes = ∅
        · simp [huris, hderef, hcids, access, exec_bind, deleteRecordBlobs]
        cases hrows : F .deleteBlobs with
        | some e => simp [huris, hderef, hcids, access, exec_bind, deleteRecordBlobs]
        | none => exact absurd ⟨hdel, hsel, hrows⟩ hF

theorem takedownMark_deleteSet {s t : Store} {cids : Finset Cid} (h : t.blob = s.blob.deleteSet cids)
    (cid : Cid) : takedownMark t cid = if cid ∈ cids then none else takedownMark s cid := by
  rw [takedownMark, h, Sql.Table.lookup_deleteSet]
  split <;> rfl

/-- The loop over the listed blobs neither makes nor deletes rows, and leaves their marks. -/
def SameMarks (s t : Store) : Prop := ∀ cid, takedownMark t cid = takedownMark s cid

theorem sameMarks_clearTempKey (tempKey : String) (s : Store) :
    SameMarks s (clearTempKey tempKey s) := by
  intro cid
  rw [takedownMark, clearTempKey, Sql.Table.lookup_updateRows, Option.map_map, takedownMark]
  congr 1
  funext row
  rw [Function.comp_apply]
  split <;> rfl

/-- **A batch takes a mark away exactly when it deletes the row.** -/
theorem takedownMark_processWriteBlobs (F : Faults) (writes : List PreparedWrite) (s : Store)
    (cid : Cid) : takedownMark ((processWriteBlobs F writes).exec s).2 cid =
      if DeletesRows F ∧ cid ∈ cidsToDelete s writes then none else takedownMark s cid := by
  have hmarks : ∀ t : Store, t.blob = (if DeletesRows F then
      s.blob.deleteSet (cidsToDelete s writes) else s.blob) → takedownMark t cid =
        if DeletesRows F ∧ cid ∈ cidsToDelete s writes then none else takedownMark s cid := by
    intro t ht
    by_cases hF : DeletesRows F
    · rw [if_pos hF] at ht
      simp only [hF, true_and]
      exact takedownMark_deleteSet ht cid
    · rw [if_neg hF] at ht
      simp only [hF, false_and, if_false, takedownMark, ht]
  have hloop : Keeps (forM (blobRefs writes).zipIdx (processBlob F)) SameMarks :=
    keeps_processBlobs (fun _ _ => rfl) (fun _ _ _ h k cid => (k cid).trans (h cid))
      (fun _ _ _ _ => rfl) sameMarks_clearTempKey (fun _ _ _ _ => rfl) F _
  have hblob := blob_deleteDereferencedBlobs F writes s
  rw [processWriteBlobs, exec_bind]
  rcases hx : (deleteDereferencedBlobs F writes).exec s with ⟨e | a, t⟩ <;> rw [hx] at hblob
  · exact hmarks t hblob
  · exact (hloop t cid).trans (hmarks t hblob)

theorem takedownMark_setTakedownRef (s : Store) (blob : Cid) (ref : Option String) (cid : Cid) :
    takedownMark (setTakedownRef blob ref s) cid =
      if cid = blob then (takedownMark s cid).map fun _ => ref else takedownMark s cid := by
  unfold takedownMark setTakedownRef
  split
  · rename_i row hrow
    rw [Sql.Table.lookup_insert_eq]
    split
    · subst_vars
      rw [hrow]
      rfl
    · rfl
  · rename_i hrow
    split
    · subst_vars
      rw [hrow]
      rfl
    · rfl

theorem exec_updateBlobTakedownStatus (err : Option String) (now : String) (blob : Cid)
    (takedown : StatusAttr) (s : Store) :
    (updateBlobTakedownStatus err now blob takedown).exec s = match err with
      | some e => (.error (.ofAnyhow e), s)
      | none => (.ok (),
        quarantineBlob blob takedown (setTakedownRef blob (takedown.takedownRef now) s)) := by
  rw [updateBlobTakedownStatus, exec_bind, exec_access]
  cases err <;> rfl

/-- A step keeps the CID taken down exactly when it does not delete its row. -/
theorem laterStep_takenDown_iff {cidOf : Bytes → Cid} {cid : Cid} {s t : Store} {call : LaterCall}
    (hs : TakenDown cid s) (h : laterStep cidOf cid s call = some t) :
    TakenDown cid t ↔ ¬ DropsRow cid s call := by
  unfold laterStep at h
  split at h
  · cases h
  rename_i hrev
  cases call with
  | upload F tempKey mime bytes =>
    cases h
    exact iff_of_true ((keeps_uploadBlob cidOf F tempKey mime bytes s).takenDown hs) id
  | processWriteBlobs F writes =>
    cases h
    have hmark : takedownMark (afterCall cidOf s (.processWriteBlobs F writes)) cid = _ :=
      takedownMark_processWriteBlobs F writes s cid
    by_cases hdrop : DeletesRows F ∧ cid ∈ cidsToDelete s writes
    · rw [if_pos hdrop] at hmark
      refine iff_of_false ?_ (not_not_intro hdrop)
      rintro ⟨ref, href⟩
      rw [hmark] at href
      cases href
    · rw [if_neg hdrop] at hmark
      obtain ⟨ref, href⟩ := hs
      exact iff_of_true ⟨ref, hmark.trans href⟩ hdrop
  | updateBlobTakedownStatus err now blob takedown =>
    cases h
    refine iff_of_true ?_ id
    obtain ⟨ref, href⟩ := hs
    rw [afterCall, exec_updateBlobTakedownStatus]
    cases err with
    | some e => exact ⟨ref, href⟩
    | none =>
      have hmark := takedownMark_setTakedownRef s blob (takedown.takedownRef now) cid
      by_cases hcid : cid = blob
      · have happlied : takedown.applied = true := by
          simpa [LaterCall.reverses, hcid] using hrev
        rw [if_pos hcid, href, Option.map_some] at hmark
        exact ⟨takedown.ref.getD now, hmark.trans (by rw [StatusAttr.takedownRef, if_pos happlied])⟩
      · rw [if_neg hcid, href] at hmark
        exact ⟨ref, hmark⟩

/-- **After a takedown the CID stays barred through a run exactly when no batch of the run deletes
its row.** -/
theorem barred_iff_rowStays (cidOf : Bytes → Cid) {s t : Store} {cid : Cid} {err ref : Option String}
    {now : String} (hrow : cid ∈ s.blob)
    (h : (updateBlobTakedownStatus err now cid ⟨true, ref⟩).exec s = (.ok (), t))
    (calls : List LaterCall) :
    Runs.Always (laterStep cidOf cid) (Barred cid) t calls ↔
      Runs.Along (laterStep cidOf cid) (fun u call => ¬ DropsRow cid u call) t calls := by
  have htaken : TakenDown cid t := by
    rw [exec_updateBlobTakedownStatus] at h
    cases err with
    | some e => cases h
    | none =>
      cases h
      obtain ⟨row, hrow⟩ := Finmap.mem_iff.1 hrow
      have hmark := takedownMark_setTakedownRef s cid (some (ref.getD now)) cid
      have hsome : takedownMark s cid = some row.takedownRef := by rw [takedownMark, hrow]; rfl
      rw [if_pos rfl, hsome] at hmark
      exact ⟨_, hmark⟩
  refine Runs.always_iff_along (I := TakenDown cid) (fun _ => barred_of_takenDown) ?_ ?_ htaken calls
  · intro u call v hu hC hstep
    exact (laterStep_takenDown_iff hu hstep).2 hC
  · intro u call v hu hC hstep hbarred
    exact hC ((laterStep_takenDown_iff hu hstep).1 (barred_iff_takenDown.1 hbarred))

/-- A blob of one record. -/
def Store.posted : Store :=
  { Store.fresh with
    blob := Finmap.singleton ⟨"b"⟩ ⟨"image/png", 1, none, none⟩
    recordBlob := {(⟨"b"⟩, feedPost "a")} }

/-- The same after its takedown. -/
def Store.postedTakendown : Store :=
  quarantineBlob ⟨"b"⟩ ⟨true, some "ref"⟩ (setTakedownRef ⟨"b"⟩ (some "ref") .posted)

theorem barred_after_reupload :
    Runs.Always (laterStep (fun _ => ⟨"b"⟩) ⟨"b"⟩) (Barred ⟨"b"⟩) .postedTakendown
      [.upload ⟨none, none, none, none⟩ "t" "image/png" [0],
        .processWriteBlobs (fun _ => none)
          [.create ⟨feedPost "c", ⟨"x"⟩, none, [], [⟨⟨"b"⟩, "image/png", none, none⟩]⟩]] := by
  have htakedown : (updateBlobTakedownStatus none "2026-01-01" ⟨"b"⟩ ⟨true, some "ref"⟩).exec
      .posted = (.ok (), .postedTakendown) := rfl
  refine (barred_iff_rowStays _ (by decide) htakedown _).2 ?_
  exact fun _ _ => ⟨id, fun _ _ => ⟨not_dropsRow_creates rfl, trivial⟩⟩

/-- The record goes, the row with its mark goes, and the bytes can be uploaded again. -/
theorem barred_fails_after_record_delete :
    ¬ Runs.Always (laterStep (fun _ => ⟨"b"⟩) ⟨"b"⟩) (Barred ⟨"b"⟩) .postedTakendown
      [.processWriteBlobs (fun _ => none) [.delete ⟨feedPost "a", none⟩]] := by
  intro h
  have hbarred := (h.2 _ rfl).head
  obtain ⟨ref, href⟩ := barred_iff_takenDown.1 hbarred
  have hmark := takedownMark_processWriteBlobs (fun _ => none) [.delete ⟨feedPost "a", none⟩]
    .postedTakendown ⟨"b"⟩
  rw [if_pos (by decide)] at hmark
  cases hmark.symm.trans href

end CacosPds.ActorStore
