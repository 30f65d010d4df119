import CacosPds.Account.Lifecycle
import CacosPds.ActorStore.MissingBlobs
import CacosPds.ActorStore.RecordReads
import CacosPds.Server.CreateAccount
/-!
# `checkAccountStatus` (`xrpc/com/atproto/server/check_account_status.rs`)

| here | there |
| --- | --- |
| `innerCheckAccountStatus` | `inner_check_account_status` (`:7`) |
| `checkAccountStatus` | the handler (`:101`): every error is a `RuntimeError` |
| `isAccountActivated` | `AccountManager::is_account_activated` (`account/mod.rs:118`) |
| `StatusEnv.validDid` | `is_valid_did_doc_for_service`, which has no error of its own |

A client that moves an account waits for `importedBlobs` to reach `expectedBlobs`. The one counts
rows, the other distinct references; `status_counts` says what lies between them.
-/
namespace CacosPds.Server

open ActorStore (Store RootRow)

structure StatusEnv where
  /-- `ActorStore::read`. -/
  read : String → Except PdsError Store
  root : Option String
  countBlocks : Option String
  recordCount : Option String
  blobCount : Option String
  recordBlobCount : Option String
  getAccount : Option String
  accounts : Account.Db
  validDid : Bool

structure CheckAccountStatusOutput where
  activated : Bool
  validDid : Bool
  repoCommit : String
  repoRev : String
  repoBlocks : Int
  indexedRecords : Int
  privateStateValues : Int
  expectedBlobs : Int
  importedBlobs : Int
  deriving DecidableEq

/-- `get_root_detailed`. -/
def getRootDetailed (err : Option String) (s : Store) : Except PdsError RootRow :=
  match err, s.repoRoot with
  | some e, _ => .error (.internal "SqlRepoReader::get_root_detailed: find().one failed" e)
  | none, none => .error (.notFound "repo root")
  | none, some root => .ok root

def countBlocks (err : Option String) (s : Store) : Except PdsError Nat :=
  match err with
  | some e => .error (.internal "SqlRepoReader::count_blocks: find().count failed" e)
  | none => .ok s.repoBlock.keys.card

def isAccountActivated (err : Option String) (did : String) (accounts : Account.Db) :
    Except String Bool :=
  match err, Account.findAccount did (some ⟨none, some true⟩) accounts with
  | some e, _ => .error e
  | none, some account => .ok account.deactivatedAt.isNone
  | none, none => .ok false

/-- `.map_err(|_| ApiError::RuntimeError)`. -/
def orRuntime {ε α : Type} (x : Except ε α) : Except ApiError α := x.mapError fun _ => .runtimeError

/-- `Option::ok_or`. -/
def okOr {α : Type} (o : Option α) (e : ApiError) : Except ApiError α :=
  match o with
  | some a => .ok a
  | none => .error e

/-- `credentials` is what the token carries, with the DID among it. -/
def innerCheckAccountStatus (E : StatusEnv) (credentials : Option (Option String)) :
    Except ApiError CheckAccountStatusOutput := do
  let did ← okOr credentials (.invalidRequest "Missing credentials on access token")
  let requester ← okOr did (.invalidRequest "Missing did on access token")
  let actorStore ← orRuntime (E.read requester)
  let repoRoot ← orRuntime (getRootDetailed E.root actorStore)
  let repoBlocks ← orRuntime (countBlocks E.countBlocks actorStore)
  let indexedRecords ← orRuntime (ActorStore.recordCount E.recordCount actorStore)
  let importedBlobs ← orRuntime (ActorStore.blobCount E.blobCount actorStore)
  let expectedBlobs ← orRuntime (ActorStore.recordBlobCount E.recordBlobCount actorStore)
  let activated ← orRuntime (isAccountActivated E.getAccount requester E.accounts)
  return {
    activated
    validDid := E.validDid
    repoCommit := repoRoot.cid.text
    repoRev := repoRoot.rev
    repoBlocks
    indexedRecords
    privateStateValues := 0
    expectedBlobs
    importedBlobs }

def checkAccountStatus (E : StatusEnv) (credentials : Option (Option String)) :
    Except ApiError CheckAccountStatusOutput :=
  match innerCheckAccountStatus E credentials with
  | .ok res => .ok res
  | .error _ => .error .runtimeError

theorem orRuntime_ok {ε α : Type} {x : Except ε α} {a : α} : orRuntime x = .ok a ↔ x = .ok a := by
  cases x <;> simp [orRuntime, Except.mapError]

/-- The counts of an answer are those of the requester's store. -/
theorem counts_of_ok {E : StatusEnv} {did : String} {s : Store} {out : CheckAccountStatusOutput}
    (hread : E.read did = .ok s) (h : checkAccountStatus E (some (some did)) = .ok out) :
    out.expectedBlobs = (ActorStore.referenced s).card ∧ out.importedBlobs = s.blob.keys.card := by
  unfold checkAccountStatus at h
  split at h
  · rename_i res hinner
    cases h
    simp only [innerCheckAccountStatus, okOr, Stages.except_bind_ok, orRuntime_ok, Except.ok.injEq,
      exists_eq_left'] at hinner
    obtain ⟨t, ht, root, -, blocks, -, records, -, imported, himp, expected, hexp, _, -, hout⟩ :=
      hinner
    obtain rfl := Except.ok.inj (hread.symm.trans ht)
    cases hout
    unfold ActorStore.blobCount at himp
    unfold ActorStore.recordBlobCount at hexp
    split at himp
    · cases himp
    split at hexp
    · cases hexp
    cases himp
    cases hexp
    exact ⟨rfl, rfl⟩
  · cases h

/-- **After any run of uploads, write batches and takedowns, failing or not, what
`checkAccountStatus` counts and what `listMissingBlobs` lists fit together: the expected blobs and
the rows that no record refers to are as many as the imported and the missing blobs. And no blob is
missing that was not missing before the run.** -/
theorem status_counts (U : ActorStore.RepoLib) (cidOf : Bytes → Cid)
    (B : ActorStore.BareColumn) {s t : Store} {calls : List ActorStore.StoreCall}
    (hrun : Runs.run (ActorStore.storeStep U cidOf) s calls = some t) {E : StatusEnv} {did : String}
    {out : CheckAccountStatusOutput} (hread : E.read did = .ok t)
    (h : checkAccountStatus E (some (some did)) = .ok out) {limit : Nat} (hpos : 1 ≤ limit)
    (hmax : limit ≤ 1000) :
    ∃ untethered : Finset Cid,
      (∀ cid, cid ∈ untethered ↔
        (∃ cids, ActorStore.getBlobCids none t = .ok cids ∧ cid ∈ cids) ∧
          ActorStore.getRecordsForBlob none t cid = .ok 0) ∧
      ∃ before after, (∀ n, s.recordBlob.card < n →
          ActorStore.walkMissing B s limit n none = some (.ok before)) ∧
        (∀ n, t.recordBlob.card < n →
          ActorStore.walkMissing B t limit n none = some (.ok after)) ∧
        (∀ row ∈ after, row.cid ∈ before.map (·.cid)) ∧
        out.expectedBlobs + untethered.card = out.importedBlobs + after.length := by
  refine ⟨ActorStore.untethered t, fun cid => ActorStore.mem_untethered, _, _,
    fun n hn => ActorStore.walkMissing_eq B s hpos hmax hn,
    fun n hn => ActorStore.walkMissing_eq B t hpos hmax hn, fun row hrow => ?_, ?_⟩
  · obtain ⟨cid, hcid, rfl⟩ := List.mem_map.1 hrow
    rw [List.map_map, List.mem_map]
    have hlost := (ActorStore.missing_of_run hrun).missing_subset
    exact ⟨cid, (Finset.mem_sort _).2 (hlost ((Finset.mem_sort _).1 hcid)), rfl⟩
  · obtain ⟨hexpected, himported⟩ := counts_of_ok hread h
    have hcards := ActorStore.card_referenced_add_untethered t
    rw [hexpected, himported, List.length_map, Finset.length_sort]
    omega

/-- One of two missing blobs is uploaded. -/
def uploadOne : List ActorStore.StoreCall := [.upload ⟨none, none, none, none⟩ "t" "image/png" [0]]

/-- Two missing blobs, after an upload of the first. -/
def storeUploaded : Store :=
  ((ActorStore.uploadBlob (fun _ => ⟨"bafkreia"⟩) ⟨none, none, none, none⟩ "t" "image/png"
    [0]).exec ActorStore.Store.sharedBlob).2

def statusEnv : StatusEnv :=
  ⟨fun _ => .ok storeUploaded, none, none, none, none, none, none, Account.Db.empty, true⟩

theorem status_counts_uploaded :
    ∃ untethered : Finset Cid,
      (∀ cid, cid ∈ untethered ↔
        (∃ cids, ActorStore.getBlobCids none storeUploaded = .ok cids ∧ cid ∈ cids) ∧
          ActorStore.getRecordsForBlob none storeUploaded cid = .ok 0) ∧
      ∃ before after, (∀ n, ActorStore.Store.sharedBlob.recordBlob.card < n →
          ActorStore.walkMissing ActorStore.firstUri ActorStore.Store.sharedBlob 500 n none =
            some (.ok before)) ∧
        (∀ n, storeUploaded.recordBlob.card < n →
          ActorStore.walkMissing ActorStore.firstUri storeUploaded 500 n none = some (.ok after)) ∧
        (∀ row ∈ after, row.cid ∈ before.map (·.cid)) ∧
        2 + (untethered.card : Int) = 1 + after.length := by
  have hrun : Runs.run (ActorStore.storeStep .inOrder fun _ => ⟨"bafkreia"⟩)
      ActorStore.Store.sharedBlob uploadOne = some storeUploaded := rfl
  have h : checkAccountStatus statusEnv (some (some "did:plc:a")) =
      .ok ⟨false, true, "commit r", "r", 0, 0, 0, 2, 1⟩ := by decide
  exact status_counts .inOrder (fun _ => ⟨"bafkreia"⟩) ActorStore.firstUri hrun rfl h (by decide)
    (by decide)

end CacosPds.Server
