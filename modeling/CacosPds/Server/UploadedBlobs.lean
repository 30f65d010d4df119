import CacosPds.ActorStore.Takedown
import CacosPds.Server.BlobRefs
import CacosPds.Server.RecordSwap
import CacosPds.Server.Tenants
/-!
# From an upload to the record that refers to it (`upload_blob.rs`, `blob/write.rs:89-187`)

| here | there |
| --- | --- |
| `createRepo`    | `create_repo` (`mod.rs:658`), on the empty list that both sign-ups give it |
| `sourceContent` | a server whose databases are those that `create_repo` leaves |
| `Refers`        | `find_blob_refs` finds the CID in the request's record |
| `RoundTrips`    | the request goes through, and `get_blob` then has the bytes |

A blob is found by its row in `blob`. Only `track_untethered_blob` inserts one, and only tests call it:
`upload_blob` stores the bytes and is done. So the table is empty in every account's database, whatever
its history (`untracked_step`), and the write pipeline and `get_blob` both end where they read it.
-/
namespace CacosPds.ActorStore

open Stages

/-- The tables after the migrations. -/
def emptyStore (did : String) : Store := ⟨did, none, ∅, ∅, ∅, ∅, ⟨⟨""⟩, ⟨""⟩, "", ∅⟩, []⟩

/-- `init` is upstream's `format_init_commit`. -/
def createRepo (F : Faults) (now : Clock) (init : CommitData) : Call Unit := do
  applyCommit F now init true
  indexWrites F now [] init.rev
  processWriteBlobs F []

/-! ## The table of the blobs -/

/-- No blob has a row. -/
def Untracked (s : Store) : Prop := s.blob = ∅

/-- A statement that adds no row, where there is none. -/
def StaysUntracked (s t : Store) : Prop := Untracked s → Untracked t

theorem staysUntracked_refl (s : Store) : StaysUntracked s s := id

theorem staysUntracked_trans (s t u : Store) (h : StaysUntracked s t) (k : StaysUntracked t u) :
    StaysUntracked s u :=
  fun hs => k (h hs)

theorem untracked_iff {s : Store} : Untracked s ↔ ∀ cid, s.blob.lookup cid = none := by
  constructor
  · intro h cid
    rw [h, Finmap.lookup_empty]
  · intro h
    refine Finmap.ext_lookup fun cid => ?_
    rw [h cid, Finmap.lookup_empty]

theorem Untracked.findBlob {s : Store} (h : Untracked s) (cid : Cid) : findBlob s cid = none := by
  rw [ActorStore.findBlob, untracked_iff.1 h cid]
  rfl

/-- Neither an update nor a delete adds a row. -/
theorem staysUntracked_of_lookup {s t : Store}
    (h : ∀ cid, s.blob.lookup cid = none → t.blob.lookup cid = none) : StaysUntracked s t :=
  fun hs => untracked_iff.2 fun cid => h cid (untracked_iff.1 hs cid)

theorem staysUntracked_clearTempKey (tempKey : String) (s : Store) :
    StaysUntracked s (clearTempKey tempKey s) :=
  staysUntracked_of_lookup fun cid h => by
    rw [clearTempKey, Sql.Table.lookup_updateRows, h]
    rfl

theorem staysUntracked_deleteBlobs (cids : Finset Cid) (s : Store) :
    StaysUntracked s (deleteBlobs cids s) :=
  staysUntracked_of_lookup fun cid h => by
    rw [deleteBlobs, Sql.Table.lookup_deleteSet, h]
    exact ite_self none

theorem keeps_processWriteBlobs_untracked (F : Faults) (writes : List PreparedWrite) :
    Keeps (processWriteBlobs F writes) StaysUntracked :=
  keeps_blobPass staysUntracked_refl staysUntracked_trans (fun _ _ _ => id)
    staysUntracked_clearTempKey (fun _ _ _ => id) (fun _ _ => id) staysUntracked_deleteBlobs F writes

theorem keeps_indexWrites_untracked (F : Faults) (now : Clock) (writes : List PreparedWrite)
    (rev : String) : Keeps (indexWrites F now writes rev) StaysUntracked :=
  Keeps.forM staysUntracked_refl staysUntracked_trans fun _ _ =>
    keeps_access_modify staysUntracked_refl staysUntracked_trans _ _ fun _ => id

theorem keeps_applyCommit_untracked (F : Faults) (now : Clock) (commit : CommitData)
    (isCreate : Bool) : Keeps (applyCommit F now commit isCreate) StaysUntracked := by
  refine (keeps_access staysUntracked_refl _ _).bind staysUntracked_trans fun _ => ?_
  refine (keeps_get staysUntracked_refl).bind staysUntracked_trans fun s => ?_
  split
  · exact keeps_throw staysUntracked_refl _
  · exact keeps_modify fun _ => id

theorem untracked_createRepo (F : Faults) (now : Clock) (init : CommitData) (did : String) :
    Untracked ((createRepo F now init).exec (emptyStore did)).2 := by
  have hkeeps : Keeps (createRepo F now init) StaysUntracked :=
    (keeps_applyCommit_untracked F now init true).bind staysUntracked_trans fun _ =>
      (keeps_indexWrites_untracked F now [] init.rev).bind staysUntracked_trans fun _ =>
        keeps_processWriteBlobs_untracked F []
  exact hkeeps _ rfl

theorem untracked_processWrites (U : RepoLib) (F : Faults) (now : Clock)
    (writes : List PreparedWrite) (swapCommit : Option Cid) {s : Store} (h : Untracked s) :
    Untracked ((processWrites U F now writes swapCommit).exec s).2 := by
  have hkeeps : Keeps (processWrites U F now writes swapCommit) StaysUntracked := by
    refine (keeps_get staysUntracked_refl).bind staysUntracked_trans fun s => ?_
    refine Keeps.bind staysUntracked_trans (fun _ => ?_) fun commit => ?_
    · rw [exec_ofExcept]
      exact staysUntracked_refl _
    refine (keeps_indexWrites_untracked F now writes _).bind staysUntracked_trans fun _ => ?_
    refine (keeps_applyCommit_untracked F now _ false).bind staysUntracked_trans fun _ => ?_
    exact (keeps_processWriteBlobs_untracked F writes).bind staysUntracked_trans fun _ =>
      keeps_pure staysUntracked_refl _
  exact hkeeps s h

/-- The blob pass wants a row for every blob that a write lists. -/
theorem processWrites_refused {U : RepoLib} {F : Faults} {now : Clock} {w : PreparedWrite}
    {swapCommit : Option Cid} {s : Store} (h : Untracked s) (hlists : w.blobs ≠ [])
    (r : CommitDataWithOps) (t : Store) :
    (processWrites U F now [w] swapCommit).exec s ≠ (.ok r, t) := by
  intro hx
  obtain ⟨-, -, -, hb⟩ := processWrites_ok.1 hx
  obtain ⟨blob, hblob⟩ := List.exists_mem_of_ne_nil _ hlists
  have hmem : (w.uri, blob) ∈ blobRefs [w] := by simpa [blobRefs] using hblob
  obtain ⟨found, hfound, -⟩ := ((blobsPass_iff now).1 ⟨t, hb⟩).verified _ hmem
  rw [h.findBlob] at hfound
  cases hfound

theorem getBlob_fails {s : Store} (h : Untracked s) (err : Option String)
    (getStream : Cid → Except PdsError Bytes) (cid : Cid) (out : GetBlobOutput) (t : Store) :
    (getBlob err getStream cid).exec s ≠ (.ok out, t) := by
  intro hx
  obtain ⟨metadata, u, hm, -⟩ := exec_bind_ok.1 hx
  obtain ⟨_, v, ha, hfind⟩ := exec_bind_ok.1 hm
  obtain ⟨-, rfl⟩ := (does_access _ _ _ _).1 ha
  rw [exec_bind, exec_get] at hfind
  simp only [h.findBlob cid] at hfind
  cases hfind

end CacosPds.ActorStore

namespace CacosPds.Server

open Stages
open ActorStore (Store RepoLib Untracked)
open Sequencer (RepoSeqNew)

/-! ## Histories of an account -/

/-- `init` is the first commit of each DID's repo. -/
def sourceContent (U : RepoLib) (cidOf : Bytes → Cid) (blobsOf : Cid → List Cid)
    (now : ActorStore.Clock) (init : String → Commit → ActorStore.CommitData) : Content where
  repo := U
  cidOf := cidOf
  blobsOf := blobsOf
  initialStore did commit :=
    ((ActorStore.createRepo (fun _ => none) now (init did commit)).exec
      (ActorStore.emptyStore did)).2

def World.start : World := ⟨.empty, ActorStore.emptyStore, [], []⟩

def Refers (E : WriteEnv) (did : String) (req : RecordRequest) (cid : Cid) : Prop :=
  ∃ p, req.prepare E (some did) = .ok p ∧ ∃ blob ∈ p.write.blobs, blob.cid = cid

/-- `getStream` is the blobstore's. -/
def RoundTrips (E : WriteEnv) (did : String) (req : RecordRequest)
    (getStream : Cid → Except PdsError Bytes) (cid : Cid) (bytes : Bytes) (s : RepoState) : Prop :=
  ∃ answer t out u, (req.handle E (some did)).exec s = (.ok answer, t) ∧
    (ActorStore.getBlob none getStream cid).exec t.store = (.ok out, u) ∧ out.stream = bytes

section

variable {E : WriteEnv} {did : String} {req : RecordRequest} {cid : Cid} {s t : RepoState}

theorem refused_of_refers (hs : Untracked s.store) (h : Refers E did req cid) :
    ∃ e t, (req.handle E (some did)).exec s = (.error e, t) := by
  obtain ⟨p, hp, blob, hblob, -⟩ := h
  rcases hx : (req.handle E (some did)).exec s with ⟨e | answer, t⟩
  · exact ⟨e, t, rfl⟩
  · obtain ⟨q, hq, hw, -⟩ := handle_ok.1 hx
    rw [hp] at hq
    cases hq
    obtain ⟨-, r, store, evt, hwrites, -⟩ := writeRecord_ok.1 hw
    exact absurd hwrites
      (ActorStore.processWrites_refused hs (List.ne_nil_of_mem hblob) r store)

/-- A request adds no row either. -/
theorem untracked_handle {answer : Option (Cid × ActorStore.AtUri)} (hs : Untracked s.store)
    (h : (req.handle E (some did)).exec s = (.ok answer, t)) : Untracked t.store := by
  obtain ⟨p, -, hw, -⟩ := handle_ok.1 h
  obtain ⟨-, r, store, evt, hwrites, -, -, rfl⟩ := writeRecord_ok.1 hw
  have hstore := ActorStore.untracked_processWrites E.repo E.faults E.clock [p.write] p.swapCid hs
  rwa [hwrites] at hstore

theorem not_roundTrips (hs : Untracked s.store) (getStream : Cid → Except PdsError Bytes)
    (bytes : Bytes) : ¬ RoundTrips E did req getStream cid bytes s := by
  rintro ⟨answer, t, out, u, hx, hget, -⟩
  exact ActorStore.getBlob_fails (untracked_handle hs hx) none getStream cid out u hget

end

section

variable {U : RepoLib} {cidOf : Bytes → Cid} {blobsOf : Cid → List Cid} {now : ActorStore.Clock}
  {init : String → Commit → ActorStore.CommitData} {s t : World}

theorem untracked_signedUp (h : ∀ did, Untracked (s.stores did)) (did : String) (commit : Commit) :
    ∀ b, Untracked (signedUp (sourceContent U cidOf blobsOf now init) did commit s b) := by
  unfold signedUp
  split
  · exact h
  · have hnew := ActorStore.untracked_createRepo (fun _ => none) now (init did commit) did
    exact (Function.forall_update_iff _ fun _ => Untracked).2 ⟨hnew, fun b _ => h b⟩

/-- One case for each kind of request; only batches and sign-ups get to a database. -/
theorem untracked_step {a : Step}
    (hstep : step (sourceContent U cidOf blobsOf now init) s a = some t)
    (h : ∀ did, Untracked (s.stores did)) : ∀ did, Untracked (t.stores did) := by
  cases a with
  | uploadBlob F did bytes =>
    simp only [step] at hstep
    split at hstep <;> (cases hstep; exact h)
  | repoWrite F promotions did call =>
    simp only [step, repoWrite] at hstep
    split at hstep
    · obtain ⟨objects, -, rfl⟩ := Option.map_eq_some_iff.1 hstep
      refine (Function.forall_update_iff _ fun _ => Untracked).2 ⟨?_, fun b _ => h b⟩
      exact ActorStore.untracked_processWrites _ _ _ _ _ (h did)
    · cases hstep
      exact h
  | createAccount E requester checked =>
    cases hstep
    dsimp only
    cases handlerDid E requester checked with
    | none => exact h
    | some did => exact untracked_signedUp h did E.commit
  | oauthCreateAccount E input =>
    cases hstep
    dsimp only
    cases oauthDid E input with
    | none => exact h
    | some did => exact untracked_signedUp h did E.commit
  | deleteAccount F did checks =>
    cases hstep
    exact h
  | deleteBlob F job cid =>
    simp only [step] at hstep
    split at hstep
    · cases hstep
    · split at hstep
      · cases hstep
        exact h
      · cases hstep

end

/-- **After any history, of any account, no upload makes the round trip**: a create or put that refers to
it is refused, and whatever request goes through, `get_blob` does not have the bytes then. -/
theorem uploads_lost (U : RepoLib) (cidOf : Bytes → Cid) (blobsOf : Cid → List Cid)
    (now : ActorStore.Clock) (init : String → Commit → ActorStore.CommitData) (acts : List Step) :
    Runs.Always (step (sourceContent U cidOf blobsOf now init))
      (fun s => ∀ upload ∈ s.uploads, ∀ E req events getStream,
        (Refers E upload.1 req (cidOf upload.2) →
          ∃ e t, (req.handle E (some upload.1)).exec ⟨s.stores upload.1, events⟩ = (.error e, t)) ∧
        ¬ RoundTrips E upload.1 req getStream (cidOf upload.2) upload.2
          ⟨s.stores upload.1, events⟩) .start acts := by
  have huntracked : Runs.Always (step (sourceContent U cidOf blobsOf now init))
      (fun s => ∀ did, Untracked (s.stores did)) .start acts :=
    Runs.always_of_keep (fun _ _ _ h hstep => untracked_step hstep h)
      (fun did => show Untracked (ActorStore.emptyStore did) from rfl) acts
  exact huntracked.mono fun s hs upload _ E req events getStream =>
    ⟨refused_of_refers (s := ⟨s.stores upload.1, events⟩) (hs _), not_roundTrips (hs _) _ _⟩

/-! ## An image -/

/-- The CID of the byte 7. -/
def imageCid : Cid := ⟨"bafkreigkgwdvr5wspzwpiutssn4xpj2i7wedshnwphhnu7ohx4pqaxxipe"⟩

/-- One blob; a repo begins without records. -/
def imageContent : Content :=
  sourceContent .inOrder (fun _ => imageCid) (fun _ => []) ⟨"2026-01-02", fun _ => "2026-01-02"⟩
    fun _ commit => ⟨commit.cid, commit.rev, none, none, [], [], [],
      ⟨commit.cid, ⟨"tree"⟩, commit.rev, ∅⟩⟩

/-- Bob signs up, and uploads an image. -/
def bobUploads : List Step :=
  [.createAccount workingEnv none (.ok bobsBody), .uploadBlob workingFaults "did:plc:bob" [7]]

def imageEnv : WriteEnv := { textEnv with records := wireRecords }

/-- He posts it. -/
def postImage : RecordRequest :=
  .create ⟨"app.bsky.feed.post", some "a", none,
    .object [("$type", .string "app.bsky.feed.post"),
      ("image", wireForms.blob (.typed imageCid "image/png" 1))], none⟩

/-- The row that `track_untethered_blob` would have inserted. -/
def trackedImage (s : Store) : Store :=
  ActorStore.upsertBlob ⟨"tmpkey", 1, imageCid, "image/png"⟩ s

/-- With a row for the image the post would go through, and the image would be found. -/
theorem post_refused_untracked :
    ∃ s, Runs.run (step imageContent) .start bobUploads = some s ∧
      s.uploads = [("did:plc:bob", [7])] ∧
      Refers imageEnv "did:plc:bob" postImage (imageContent.cidOf [7]) ∧
      (¬ RoundTrips imageEnv "did:plc:bob" postImage (fun _ => .ok [7]) (imageContent.cidOf [7]) [7]
        ⟨s.stores "did:plc:bob", []⟩) ∧
      RoundTrips imageEnv "did:plc:bob" postImage (fun _ => .ok [7]) (imageContent.cidOf [7]) [7]
        ⟨trackedImage (s.stores "did:plc:bob"), []⟩ := by
  refine ⟨_, rfl, rfl, ⟨_, rfl, _, List.mem_singleton.2 rfl, rfl⟩, ?_, ?_⟩
  · rintro ⟨answer, t, out, u, hx, -⟩
    exact absurd (congrArg Prod.fst hx) nofun
  · exact ⟨_, _, _, _, rfl, rfl, rfl⟩

end CacosPds.Server
