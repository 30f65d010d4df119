import Mathlib.Data.Finset.Basic
import CacosPds.Lib.Stages
import CacosPds.Lib.Table
import CacosPds.Types.Basic
/-!
# The actor database and prepared writes

| here | there |
| --- | --- |
| `AtUri`         | `rsky_syntax::aturi::AtUri`; the host is the actor's own DID (`prepare.rs:208`, `:234`, `:253`) |
| `formatDataKey` | `rsky_repo::util::format_data_key` |
| `RootRow` … `BlobRow` | the rows of `repo_root`, `repo_block`, `record`, `blob` (`migration/src/entities/`); `record_blob` is a set of pairs |
| `Repo`          | what `Repo::load` reads from the root's blocks |
| `Store`         | one actor's database, and what its blobstore was told to do |
| `PreparedWrite` | `rsky_repo::types::PreparedWrite`; a record comes with its CID (`prepare.rs:212`) |
| `Faults`        | which storage accesses fail, and with what error |

The MST and its codec are upstream's: a repo is held as the map from data keys to record CIDs that
its tree encodes.
-/
namespace CacosPds.ActorStore

open Stages

structure AtUri where
  collection : String
  rkey : String
  /-- A collection is one segment of the URI's path. -/
  noSlash : '/' ∉ collection.toList
  deriving DecidableEq

def formatDataKey (collection rkey : String) : String := collection ++ "/" ++ rkey

/-- The path of a record in its repo. -/
def AtUri.dataKey (u : AtUri) : String := formatDataKey u.collection u.rkey

/-- The collection is what stands before the first slash. -/
theorem AtUri.takeWhile_dataKey (u : AtUri) :
    u.dataKey.toList.takeWhile (· ≠ '/') = u.collection.toList := by
  have hall : ∀ c ∈ u.collection.toList, decide (c ≠ '/') = true := by
    intro c hc
    exact decide_eq_true fun he => u.noSlash (he ▸ hc)
  simp only [dataKey, formatDataKey, String.toList_append, List.append_assoc]
  rw [List.takeWhile_append_of_pos hall]
  simp

theorem AtUri.dataKey_injective {u v : AtUri} (h : u.dataKey = v.dataKey) : u = v := by
  have hc : u.collection = v.collection := by
    rw [← String.toList_inj, ← u.takeWhile_dataKey, ← v.takeWhile_dataKey, h]
  have hr : u.rkey = v.rkey := by
    have hl := congrArg String.toList h
    simp only [dataKey, formatDataKey, String.toList_append, hc] at hl
    exact String.toList_inj.1 (List.append_cancel_left hl)
  cases u
  cases v
  subst hc hr
  rfl

@[simp] theorem AtUri.dataKey_inj {u v : AtUri} : u.dataKey = v.dataKey ↔ u = v :=
  ⟨AtUri.dataKey_injective, fun h => h ▸ rfl⟩

/-! ## Rows -/

structure RootRow where
  cid : Cid
  rev : String
  indexedAt : String
  deriving DecidableEq

structure BlockRow where
  repoRev : String
  size : Nat
  content : Bytes
  deriving DecidableEq

structure RecordRow where
  cid : Cid
  repoRev : String
  indexedAt : String
  takedownRef : Option String
  deriving DecidableEq

structure BlobRow where
  mimeType : String
  size : Int
  tempKey : Option String
  takedownRef : Option String
  deriving DecidableEq

/-- Data keys to record CIDs. -/
abbrev Tree := Sql.Table String Cid

structure Repo where
  /-- The CID of the commit. -/
  cid : Cid
  /-- `commit.data`, the CID of the tree. -/
  data : Cid
  rev : String
  tree : Tree

/-- A call on the blobstore; a `deleteMany` waits in the background queue. -/
inductive BlobCall where
  | putTemp (tempKey : String) (bytes : Bytes)
  | makePermanent (tempKey : String) (cid : Cid)
  | quarantine (cid : Cid)
  | unquarantine (cid : Cid)
  | deleteMany (cids : Finset Cid)

structure Store where
  did : String
  repoRoot : Option RootRow
  repoBlock : Sql.Table Cid BlockRow
  record : Sql.Table AtUri RecordRow
  recordBlob : Finset (Cid × AtUri)
  blob : Sql.Table Cid BlobRow
  /-- The repo that the blocks under the last applied commit encode. -/
  repo : Repo
  blobCalls : List BlobCall

/-- The record index: the CID the `record` table has for a URI. -/
def Store.indexed (s : Store) (u : AtUri) : Option Cid := (s.record.lookup u).map RecordRow.cid

/-- The record index holds what the tree holds. -/
def Store.IndexAgrees (s : Store) : Prop := ∀ u : AtUri, s.indexed u = s.repo.tree.lookup u.dataKey

/-! ## Prepared writes -/

structure PreparedBlobRef where
  cid : Cid
  mimeType : String
  /-- `constraints.max_size`. -/
  maxSize : Option Nat
  /-- `constraints.accept`. -/
  accept : Option (List String)
  deriving DecidableEq

structure PreparedCreateOrUpdate where
  uri : AtUri
  cid : Cid
  swapCid : Option Cid
  /-- The record, encoded. -/
  record : Bytes
  blobs : List PreparedBlobRef
  deriving DecidableEq

structure PreparedDelete where
  uri : AtUri
  swapCid : Option Cid
  deriving DecidableEq

inductive PreparedWrite where
  | create (w : PreparedCreateOrUpdate)
  | update (w : PreparedCreateOrUpdate)
  | delete (w : PreparedDelete)
  deriving DecidableEq

/-- `WriteOpAction`, and `CommitAction` with it (`From`). -/
inductive WriteOpAction where
  | create | update | delete
  deriving DecidableEq

namespace PreparedWrite

def uri : PreparedWrite → AtUri
  | .create w | .update w => w.uri
  | .delete w => w.uri

def action : PreparedWrite → WriteOpAction
  | .create _ => .create
  | .update _ => .update
  | .delete _ => .delete

def swapCid : PreparedWrite → Option Cid
  | .create w | .update w => w.swapCid
  | .delete w => w.swapCid

/-- The record CID a write leaves at its URI. -/
def newCid : PreparedWrite → Option Cid
  | .create w | .update w => some w.cid
  | .delete _ => none

/-- The blobs of the record a write leaves. -/
def blobs : PreparedWrite → List PreparedBlobRef
  | .create w | .update w => w.blobs
  | .delete _ => []

/-- Updates and deletes: the writes that replace what is there. -/
def replaces (w : PreparedWrite) : Bool := w.action ≠ .create

end PreparedWrite

/-- The URIs that the batch updates or deletes (`delete_and_update_uris`, `mod.rs:796-813`; `uris`,
`write.rs:190-197`). -/
def touchedUris (writes : List PreparedWrite) : List AtUri :=
  (writes.filter PreparedWrite.replaces).map PreparedWrite.uri

theorem mem_touchedUris {writes : List PreparedWrite} {u : AtUri} :
    u ∈ touchedUris writes ↔ ∃ w ∈ writes, w.replaces = true ∧ w.uri = u := by
  simp [touchedUris, and_assoc]

theorem notMem_touchedUris_cons {w : PreparedWrite} {writes : List PreparedWrite} {u : AtUri} :
    u ∉ touchedUris (w :: writes) ↔ (w.uri = u → w.action = .create) ∧ u ∉ touchedUris writes := by
  simp only [mem_touchedUris, List.exists_mem_cons_iff, PreparedWrite.replaces, decide_eq_true_eq,
    not_or]
  refine and_congr_left fun _ => ?_
  tauto

/-! ## Commits -/

structure CommitOp where
  action : WriteOpAction
  path : String
  cid : Option Cid
  prev : Option Cid
  deriving DecidableEq

structure CommitData where
  cid : Cid
  rev : String
  since : Option String
  prev : Option Cid
  newBlocks : List (Cid × Bytes)
  relevantBlocks : List (Cid × Bytes)
  removedCids : List Cid
  /-- What the new blocks encode. -/
  repo : Repo

structure CommitDataWithOps where
  commitData : CommitData
  ops : List CommitOp
  prevData : Option Cid

/-! ## Failing storage -/

/-- The storage accesses of `process_writes`; a position counts the writes, or the blobs they list. -/
inductive Access where
  | getRootDetailed
  | cacheRev
  | getRecord (write : Nat)
  | loadRepo
  | duplicateCids
  | getBlocks
  | indexWrite (write : Nat)
  | applyCommit
  | deleteRecordBlobs
  | selectDuplicates
  | deleteBlobs
  | selectBlob (blob : Nat)
  | makePermanent (blob : Nat)
  | clearTempKey (blob : Nat)
  | associateBlob (blob : Nat)

/-- The error an access fails with, if it does. -/
abbrev Faults := Access → Option String

/-- A stage of a call on the actor store. -/
abbrev Call := Stages.Call Store PdsError

/-- Perform a storage access: fail with its error, or go on. -/
def access (err : Option String) (wrap : String → PdsError) : Call Unit :=
  match err with
  | some e => throw (wrap e)
  | none => pure ()

theorem does_access (err : Option String) (wrap : String → PdsError) :
    Does (access err wrap) (fun _ => err = none) id := by
  intro s t
  cases err with
  | none =>
    constructor
    · rintro ⟨⟩; exact ⟨rfl, rfl⟩
    · rintro ⟨-, rfl⟩; rfl
  | some e =>
    constructor
    · rintro ⟨⟩
    · rintro ⟨⟨⟩, -⟩

theorem exec_access (err : Option String) (wrap : String → PdsError) (s : Store) :
    (access err wrap).exec s = (err.elim (.ok ()) fun e => .error (wrap e), s) := by
  cases err <;> rfl

theorem access_snd (err : Option String) (wrap : String → PdsError) (s : Store) :
    ((access err wrap).exec s).2 = s := by
  rw [exec_access]

theorem clean_access (err : Option String) (wrap : String → PdsError) :
    Clean (access err wrap) := by
  intro s e t h
  rw [← access_snd err wrap s, h]

/-- An access, and then what it does. -/
theorem does_access_modify (err : Option String) (wrap : String → PdsError) (f : Store → Store) :
    Does (access err wrap >>= fun _ => modify f) (fun _ => err = none) f :=
  ((does_access err wrap).bind (does_modify f)).congr (fun _ => and_iff_left trivial)
    fun _ _ => rfl

theorem keeps_access {R : Store → Store → Prop} (refl : ∀ s, R s s) (err : Option String)
    (wrap : String → PdsError) : Keeps (access err wrap) R := by
  intro s
  rw [access_snd]
  exact refl s

theorem keeps_access_modify {R : Store → Store → Prop} (refl : ∀ s, R s s)
    (trans : ∀ s t u, R s t → R t u → R s u) (err : Option String) (wrap : String → PdsError)
    {f : Store → Store} (h : ∀ s, R s (f s)) : Keeps (access err wrap >>= fun _ => modify f) R :=
  (keeps_access refl err wrap).bind trans fun _ => keeps_modify h

end CacosPds.ActorStore
