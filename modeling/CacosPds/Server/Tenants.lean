import CacosPds.ActorStore.RecordBlobs
import CacosPds.Server.Rollback
/-!
# Many accounts on one handle

| here | there |
| --- | --- |
| `World`      | the server, each account's database, the jobs in the background queue, and who has uploaded what |
| `Step`       | a request, with its checks known by their answer, or one delete of a `delete_many` job |
| `performCall`, `queued` | what a write batch tells the blobstore: at once, or in the background |
| `Lists`      | a record of the account's repo has the blob |
| `Owns`       | the account has uploaded the bytes, still lists them, and they are stored |

`SharedStateFromEnv` bakes one name into the handle (`xrpc/types.rs:70-80`), so every account's blobs
lie under `blocks/shared`. `destroy` wipes that subtree, and a `delete_many` job deletes by CID there.
-/
namespace CacosPds.Server

open Stages Sql
open ActorStore (Store WriteCall)
open Blobstore (Objects Handle BackendFaults)

/-- What comes from the repo library and from the content of blobs and records. -/
structure Content where
  repo : ActorStore.RepoLib
  /-- The CID of a blob, by its hash. -/
  cidOf : Bytes → Cid
  /-- `find_blob_refs` of the record with a CID. -/
  blobsOf : Cid → List Cid
  /-- The database that `create_repo` leaves. -/
  initialStore : String → Commit → Store

structure World where
  server : State
  stores : String → Store
  jobs : List (String × Finset Cid)
  uploads : List (String × Bytes)

/-- The bytes at the place of a permanent blob. -/
def World.stored (s : World) (cid : Cid) : Option Bytes :=
  s.server.objects.lookup (shared.storedPath cid)

def Lists (L : Content) (s : World) (did : String) (cid : Cid) : Prop :=
  hasDb did s.server = true ∧
    ∃ path record, (s.stores did).repo.tree.lookup path = some record ∧ cid ∈ L.blobsOf record

def Owns (L : Content) (s : World) (did : String) (bytes : Bytes) : Prop :=
  (did, bytes) ∈ s.uploads ∧ Lists L s did (L.cidOf bytes) ∧ s.stored (L.cidOf bytes) = some bytes

/-! ## Steps -/

inductive Step where
  | uploadBlob (F : Faults) (did : String) (bytes : Bytes)
  /-- `createRecord`, `putRecord`, `deleteRecord` or `applyWrites`; `promotions` is about the
  backend's calls for the batch's n-th call on the blobstore. -/
  | repoWrite (F : Faults) (promotions : Nat → BackendFaults) (did : String) (call : WriteCall)
  | createAccount (E : Env) (requester : Option String) (checked : Except ApiError CheckedInput)
  | oauthCreateAccount (E : Env) (input : CreateAccountInput)
  | deleteAccount (F : Faults) (did : String) (checks : Except ApiError Unit)
  /-- The next delete of a job. -/
  | deleteBlob (F : BackendFaults) (job : Nat) (cid : Cid)

/-- A call of a batch; it is made where the batch goes on, so one that fails is none of its calls. -/
def performCall (F : BackendFaults) (objects : Objects) : ActorStore.BlobCall → Option Objects
  | .putTemp key bytes => succeed (shared.putTemp F key bytes) objects
  | .makePermanent key cid => succeed (shared.makePermanent F key cid) objects
  | .quarantine cid => succeed (shared.quarantine F cid) objects
  | .unquarantine cid => succeed (shared.unquarantine F cid) objects
  -- it waits in the queue
  | .deleteMany _ => some objects
where
  succeed (x : Blobstore.Call Unit) (objects : Objects) : Option Objects :=
    match x.exec objects with
    | (.ok _, t) => some t
    | (.error _, _) => none

def performCalls (F : Nat → BackendFaults) (calls : List ActorStore.BlobCall) (objects : Objects) :
    Option Objects :=
  calls.zipIdx.foldlM (fun objects cn => performCall (F cn.2) objects cn.1) objects

/-- The jobs that a batch of the account puts into the queue. -/
def queued (did : String) (calls : List ActorStore.BlobCall) : List (String × Finset Cid) :=
  calls.filterMap fun
    | .deleteMany cids => some (did, cids)
    | _ => none

/-- The event of a write that returns. -/
def sequenceWrite (F : Faults) (did : String)
    (r : Except PdsError ActorStore.CommitDataWithOps) (s : State) : State :=
  match r, F.access .commitEvt with
  | .ok r, none =>
    { s with sequenced := s.sequenced ++ [.commit did ⟨r.commitData.cid, r.commitData.rev⟩] }
  | _, _ => s

/-- A batch is over, with its answer and its database; `none` where the promotions do not go as the
batch says. -/
def writeDone (F : Faults) (promotions : Nat → BackendFaults) (did : String) (s : World)
    (done : Except PdsError ActorStore.CommitDataWithOps × Store) : Option World :=
  (performCalls promotions done.2.blobCalls s.server.objects).map fun objects =>
    { s with
      server := sequenceWrite F did done.1 { s.server with objects }
      stores := Function.update s.stores did done.2
      jobs := s.jobs ++ queued did done.2.blobCalls }

def repoWrite (L : Content) (F : Faults) (promotions : Nat → BackendFaults) (did : String)
    (call : WriteCall) (s : World) : Option World :=
  if hasDb did s.server = true ∧ F.access .transact = none then
    writeDone F promotions did s <|
      (ActorStore.processWrites L.repo call.faults call.now call.writes call.swapCommit).exec
        { s.stores did with blobCalls := [] }
  else some s

/-- The databases after a sign-up: a new one for a DID without one. -/
def signedUp (L : Content) (did : String) (commit : Commit) (s : World) : String → Store :=
  if hasDb did s.server then s.stores
  else Function.update s.stores did (L.initialStore did commit)

/-- The account that a sign-up is for, if its input is good. -/
def handlerDid (E : Env) (requester : Option String) (checked : Except ApiError CheckedInput) :
    Option String :=
  (checked >>= validateDid E requester).toOption.map ValidatedCreateAccount.did

def oauthDid (E : Env) (input : CreateAccountInput) : Option String :=
  (remoteGenesis E input).toOption.map Prod.fst

def step (L : Content) (s : World) : Step → Option World
  | .uploadBlob F did bytes =>
    match (uploadBlob F L.cidOf bytes).exec s.server with
    | (.ok _, server) => some { s with server, uploads := s.uploads ++ [(did, bytes)] }
    | (.error _, server) => some { s with server }
  | .repoWrite F promotions did call => repoWrite L F promotions did call s
  | .createAccount E requester checked =>
    some { s with
      server := ((innerCreateAccount E requester checked).exec s.server).2
      stores := (handlerDid E requester checked).elim s.stores fun did =>
        signedUp L did E.commit s }
  | .oauthCreateAccount E input =>
    some { s with
      server := ((remoteCreateAccount E input).exec s.server).2
      stores := (oauthDid E input).elim s.stores fun did => signedUp L did E.commit s }
  | .deleteAccount F did checks =>
    some { s with server := ((deleteAccount F did checks).exec s.server).2 }
  | .deleteBlob F job cid =>
    match s.jobs[job]? with
    | none => none
    | some (did, cids) =>
      if cid ∈ cids then
        some { s with
          server :=
            { s.server with objects := ((shared.delete F 0 cid).exec s.server.objects).2 }
          jobs := s.jobs.set job (did, cids.erase cid) }
      else none

/-- The account that a step acts for. -/
def actsFor (s : World) : Step → Option String
  | .uploadBlob _ did _ | .repoWrite _ _ did _ | .deleteAccount _ did _ => some did
  | .createAccount E requester checked => handlerDid E requester checked
  | .oauthCreateAccount E input => oauthDid E input
  | .deleteBlob _ job _ => s.jobs[job]?.map Prod.fst

/-- The step leaves every other account's bytes where they are. -/
def KeepsOthers (L : Content) (s : World) (e : Step) : Prop :=
  ∀ t, step L s e = some t → ∀ did bytes, actsFor s e ≠ some did → Owns L s did bytes →
    t.stored (L.cidOf bytes) = some bytes

/-- No other account has a stored blob. -/
def NoOtherOwner (L : Content) (s : World) (e : Step) : Prop :=
  ∀ did bytes, actsFor s e ≠ some did → ¬ Owns L s did bytes

/-- An upload does not collide with another account's blob; no `destroy` gets to the blobs while
another account has one; no job deletes the CID of one. -/
def Harmless (L : Content) (s : World) (e : Step) : Prop :=
  match e with
  | .uploadBlob F _ bytes => F.backend .write = none → ∀ did other, actsFor s e ≠ some did →
      Owns L s did other → L.cidOf other = L.cidOf bytes → other = bytes
  | .repoWrite _ _ _ _ => True
  | .createAccount E requester checked =>
    HandlerRollsBack E requester checked s.server → Wipes E.faults → NoOtherOwner L s e
  | .oauthCreateAccount E input =>
    OauthRollsBack E input s.server → Wipes E.faults → NoOtherOwner L s e
  | .deleteAccount F _ checks => checks = .ok () → Wipes F → NoOtherOwner L s e
  | .deleteBlob F _ cid => F (.delete 0) = none → ∀ did bytes, actsFor s e ≠ some did →
      Owns L s did bytes → L.cidOf bytes ≠ cid

/-! ## What a step does to the permanent blobs -/

section

variable {L : Content} {s t : World} {e : Step}

theorem keepsOthers_of_step (h : step L s e = some t) :
    KeepsOthers L s e ↔ ∀ did bytes, actsFor s e ≠ some did → Owns L s did bytes →
      t.stored (L.cidOf bytes) = some bytes := by
  constructor
  · exact fun hk => hk t h
  · intro hk u hu
    cases h.symm.trans hu
    exact hk

/-- A step that wipes, or leaves all blobs. -/
theorem keepsOthers_of_wipedIf {p : Prop} (h : step L s e = some t)
    (hw : WipedIf p s.server t.server) : KeepsOthers L s e ↔ (p → NoOtherOwner L s e) := by
  rw [keepsOthers_of_step h]
  constructor
  · intro hk hp did bytes hother howns
    have hgone : t.stored (L.cidOf bytes) = none := hw.gone hp _
    cases hgone.symm.trans (hk did bytes hother howns)
  · intro hno did bytes hother howns
    by_cases hp : p
    · exact absurd howns (hno hp did bytes hother)
    · exact (hw.same hp _).trans howns.2.2

theorem exec_uploadBlob (F : Faults) (cidOf : Bytes → Cid) (bytes : Bytes) (s : State) :
    (uploadBlob F cidOf bytes).exec s = match F.backend .write with
      | some _ => (.error .runtimeError, s)
      | none => (.ok (cidOf bytes),
          { s with objects := s.objects.insert (shared.storedPath (cidOf bytes)) bytes }) := by
  rw [uploadBlob, exec_bind, exec_mapError, exec_zoom, Handle.putPermanent, exec_bind,
    Blobstore.backend, exec_attempt]
  cases F.backend .write <;> rfl

theorem keepsOthers_uploadBlob (F : Faults) (did : String) (bytes : Bytes) :
    KeepsOthers L s (.uploadBlob F did bytes) ↔ Harmless L s (.uploadBlob F did bytes) := by
  show _ ↔ (F.backend .write = none → ∀ b other, actsFor s (.uploadBlob F did bytes) ≠ some b →
    Owns L s b other → L.cidOf other = L.cidOf bytes → other = bytes)
  cases hf : F.backend .write with
  | some err =>
    have hstep : step L s (.uploadBlob F did bytes) = some { s with server := s.server } := by
      rw [step, exec_uploadBlob, hf]
    rw [keepsOthers_of_step hstep]
    refine iff_of_true (fun b other _ howns => ?_) fun h => by cases h
    exact howns.2.2
  | none =>
    have hstep : step L s (.uploadBlob F did bytes) = some { s with
        server := { s.server with
          objects := s.server.objects.insert (shared.storedPath (L.cidOf bytes)) bytes }
        uploads := s.uploads ++ [(did, bytes)] } := by
      rw [step, exec_uploadBlob, hf]
    rw [keepsOthers_of_step hstep, forall_prop_of_true rfl]
    refine forall_congr' fun b => forall_congr' fun other => imp_congr_right fun _ =>
      imp_congr_right fun howns => ?_
    rw [World.stored, Table.lookup_insert_eq]
    by_cases hcid : L.cidOf other = L.cidOf bytes
    · rw [if_pos (congrArg _ hcid), Option.some.injEq, eq_comm]
      exact ⟨fun h _ => h, fun h => h hcid⟩
    · rw [if_neg (mt Handle.storedPath_inj.1 hcid)]
      exact iff_of_true howns.2.2 fun h => absurd h hcid

/-- The calls of a batch leave permanent blobs where they are. -/
theorem keepsStored_performCalls {F : Nat → BackendFaults} {calls : List ActorStore.BlobCall}
    (hcalls : ∀ c ∈ calls, c.OfBatch) {objects objects' : Objects}
    (h : performCalls F calls objects = some objects') : shared.KeepsStored objects objects' := by
  have hcall : ∀ {c : ActorStore.BlobCall} {n : Nat} {o o' : Objects}, c.OfBatch →
      performCall (F n) o c = some o' → shared.KeepsStored o o' := by
    intro c n o o' hc h
    cases c with
    | makePermanent key cid =>
      have hk := Blobstore.keepsStored_makePermanent shared (F n) key cid o
      rw [performCall, performCall.succeed] at h
      rcases hexec : (shared.makePermanent (F n) key cid).exec o with ⟨_ | _, o''⟩
      · rw [hexec] at h; cases h
      · rw [hexec] at h hk
        cases h
        exact hk
    | deleteMany cids =>
      cases h
      exact fun _ _ hs => hs
    | putTemp key bytes => exact hc.elim
    | quarantine cid => exact hc.elim
    | unquarantine cid => exact hc.elim
  have hall : ∀ (cns : List (ActorStore.BlobCall × Nat)) (o : Objects),
      (∀ cn ∈ cns, cn.1.OfBatch) →
      cns.foldlM (fun o cn => performCall (F cn.2) o cn.1) o = some objects' →
      shared.KeepsStored o objects' := by
    intro cns
    induction cns with
    | nil =>
      intro o _ ho
      cases ho
      exact fun _ _ hs => hs
    | cons cn cns ih =>
      intro o hcns ho
      obtain ⟨hc, hcns⟩ := List.forall_mem_cons.1 hcns
      rw [List.foldlM_cons] at ho
      obtain ⟨o₁, h₁, h₂⟩ := Option.bind_eq_some_iff.1 ho
      exact fun c bytes hs => ih o₁ hcns h₂ c bytes (hcall hc h₁ c bytes hs)
  refine hall _ objects (fun cn hcn => hcalls cn.1 ?_) h
  exact List.mem_of_getElem? (List.mk_mem_zipIdx_iff_getElem?.1 hcn)

theorem objects_sequenceWrite (F : Faults) (did : String)
    (r : Except PdsError ActorStore.CommitDataWithOps) (s : State) :
    (sequenceWrite F did r s).objects = s.objects := by
  unfold sequenceWrite
  split <;> rfl

theorem keepsOthers_repoWrite (F : Faults) (promotions : Nat → BackendFaults) (did : String)
    (call : WriteCall) : KeepsOthers L s (.repoWrite F promotions did call) := by
  intro t ht b bytes _ howns
  rw [step, repoWrite] at ht
  split at ht
  · rw [writeDone] at ht
    obtain ⟨calls, hcalls, hbatch⟩ := ActorStore.callsAdded_processWrites L.repo call.faults
      call.now call.writes call.swapCommit { s.stores did with blobCalls := [] }
    obtain ⟨objects, hperform, rfl⟩ := Option.map_eq_some_iff.1 ht
    rw [hcalls, List.nil_append] at hperform
    have hkept := keepsStored_performCalls hbatch hperform _ _ howns.2.2
    rw [World.stored, objects_sequenceWrite]
    exact hkept
  · cases ht
    exact howns.2.2

theorem keepsOthers_deleteBlob (F : BackendFaults) (job : Nat) (cid : Cid)
    (h : step L s (.deleteBlob F job cid) = some t) :
    KeepsOthers L s (.deleteBlob F job cid) ↔ Harmless L s (.deleteBlob F job cid) := by
  rw [keepsOthers_of_step h]
  show _ ↔ (F (.delete 0) = none → ∀ did bytes, actsFor s (.deleteBlob F job cid) ≠ some did →
    Owns L s did bytes → L.cidOf bytes ≠ cid)
  have hobjects : t.server.objects = ((shared.delete F 0 cid).exec s.server.objects).2 := by
    rw [step] at h
    split at h
    · cases h
    · split at h
      · cases h; rfl
      · cases h
  have hstored : ∀ c, t.stored c = if F (.delete 0) = none ∧ c = cid then none else s.stored c := by
    intro c
    rw [World.stored, hobjects, Handle.delete, exec_bind, Blobstore.backend, exec_attempt]
    cases F (.delete 0) with
    | some e => simp [World.stored]
    | none => simp [World.stored, Table.lookup_erase_eq]
  constructor
  · rintro hk hf did bytes hother howns rfl
    have hgone := hstored (L.cidOf bytes)
    rw [if_pos ⟨hf, rfl⟩] at hgone
    cases hgone.symm.trans (hk did bytes hother howns)
  · intro hh did bytes hother howns
    rw [hstored, if_neg fun hd => hh hd.1 did bytes hother howns hd.2]
    exact howns.2.2

/-- A step leaves the others' bytes alone exactly if it is harmless. -/
theorem keepsOthers_iff (h : step L s e = some t) : KeepsOthers L s e ↔ Harmless L s e := by
  cases e with
  | uploadBlob F did bytes => exact keepsOthers_uploadBlob F did bytes
  | repoWrite F promotions did call =>
    exact iff_of_true (keepsOthers_repoWrite F promotions did call) trivial
  | createAccount E requester checked =>
    have ht : t.server = ((innerCreateAccount E requester checked).exec s.server).2 := by
      cases h; rfl
    have hwiped := wipedIf_innerCreateAccount E requester checked s.server
    rw [← ht] at hwiped
    exact (keepsOthers_of_wipedIf h hwiped).trans and_imp
  | oauthCreateAccount E input =>
    have ht : t.server = ((remoteCreateAccount E input).exec s.server).2 := by
      cases h; rfl
    have hwiped := wipedIf_remoteCreateAccount E input s.server
    rw [← ht] at hwiped
    exact (keepsOthers_of_wipedIf h hwiped).trans and_imp
  | deleteAccount F did checks =>
    have ht : t.server = ((deleteAccount F did checks).exec s.server).2 := by
      cases h; rfl
    have hwiped := wipedIf_deleteAccount F did checks s.server
    rw [← ht] at hwiped
    exact (keepsOthers_of_wipedIf h hwiped).trans and_imp
  | deleteBlob F job cid => exact keepsOthers_deleteBlob F job cid h

/-- Along every run, from every state, the accounts' bytes are safe from each other exactly as long
as the steps are harmless. -/
theorem tenants_isolated_iff (L : Content) (s : World) (es : List Step) :
    Runs.Along (step L) (KeepsOthers L) s es ↔ Runs.Along (step L) (Harmless L) s es :=
  Runs.along_congr (fun _ _ _ h => keepsOthers_iff h) s es

end

/-- One record, `bafyrecord`, and the blob it has. -/
def oneImage : Content where
  repo := ⟨fun _ _ => .error "not asked"⟩
  cidOf _ := ⟨"bafkimage"⟩
  blobsOf record := if record = ⟨"bafyrecord"⟩ then [⟨"bafkimage"⟩] else []
  initialStore did _ := { ActorStore.Store.fresh with did }

def bobsStore : Store :=
  { ActorStore.Store.fresh with
    did := "did:plc:bob"
    repo :=
      { ActorStore.Store.fresh.repo with
        tree := Finmap.singleton "app.bsky.feed.post/1" ⟨"bafyrecord"⟩ } }

/-- Alice and Bob have their directories, and Bob a post with an image. -/
def aliceAndBob : World where
  server :=
    { State.empty with
      dirs := (Finmap.singleton "did:plc:alice" ⟨some ⟨[1]⟩, some ⟨[2]⟩, true⟩).insert
        "did:plc:bob" ⟨some ⟨[1]⟩, some ⟨[3]⟩, true⟩ }
  stores did :=
    if did = "did:plc:bob" then bobsStore else { ActorStore.Store.fresh with did }
  jobs := []
  uploads := []

/-- Bob uploads his image, and Alice deletes her account. -/
def aliceLeaves : List Step :=
  [.uploadBlob workingFaults "did:plc:bob" [7],
    .deleteAccount workingFaults "did:plc:alice" (.ok ())]

/-- Bob's image is gone. -/
theorem deleteAccount_wipes_others :
    ¬ ∀ L s es, Runs.Along (step L) (KeepsOthers L) s es := by
  intro h
  have hkeeps := (h oneImage aliceAndBob aliceLeaves _ rfl).2 _ rfl
  have hstored := hkeeps.1 _ rfl "did:plc:bob" [7] (by decide)
    ⟨by decide, ⟨by decide, "app.bsky.feed.post/1", ⟨"bafyrecord"⟩, rfl, by decide⟩, rfl⟩
  exact absurd hstored (by decide)

end CacosPds.Server
