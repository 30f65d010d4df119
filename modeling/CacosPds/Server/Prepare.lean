import CacosPds.ActorStore.Tables
/-!
# Preparing a write (`xrpc/com/atproto/repo/prepare.rs`)

| here | there |
| --- | --- |
| `JsonValue`, `Ipld`, `Lex`, `RepoRecord` | `serde_json::Value`, and `Ipld`, `Lex`, `RepoRecord` of `rsky_repo`; a map is the list of its entries in key order |
| `JsonBlobRef`   | `rsky_lexicon::blob_refs::JsonBlobRef`; `JsonBlobRef.getCid` is `BlobRef::get_cid` |
| `RecordLib`     | the codecs of `rsky_repo` and `serde`, `AtUri::make` and `str::parse::<Cid>`, parameters |
| `findBlobRefs`  | `find_blob_refs` (`prepare.rs:76`); its `layer` counts down here |
| `prepareCreate`, `prepareUpdate`, `prepareDelete` | `prepare_create` … `prepare_delete` (`prepare.rs:187-259`) |

The lexicon's blob constraints are not ported: `constraints` is empty in every prepared reference.
-/
namespace CacosPds.Server

open ActorStore (AtUri PreparedBlobRef PreparedCreateOrUpdate PreparedDelete)

inductive JsonValue where
  | null
  | bool (b : Bool)
  | number (text : String)
  | string (s : String)
  | array (list : List JsonValue)
  | object (map : List (String × JsonValue))

inductive Ipld where
  | link (cid : Cid)
  | bytes (b : Bytes)
  | list (list : List Ipld)
  | map (map : List (String × Ipld))
  | string (s : String)
  | json (json : JsonValue)

inductive JsonBlobRef where
  /-- Its `$type` is `blob`. -/
  | typed (ref : Cid) (mimeType : String) (size : Int64)
  /-- The legacy form, with any text for a CID. -/
  | untyped (cid mimeType : String)

inductive Lex where
  | ipld (ipld : Ipld)
  | blob (ref : JsonBlobRef)
  | list (list : List Lex)
  | map (map : List (String × Lex))

abbrev RepoRecord := List (String × Lex)

namespace RepoRecord

def get (record : RepoRecord) (key : String) : Option Lex := record.lookup key

/-- Insert a key that is not there. -/
def insert (record : RepoRecord) (key : String) (value : Lex) : RepoRecord :=
  record.takeWhile (·.1 < key) ++ (key, value) :: record.dropWhile (·.1 < key)

end RepoRecord

namespace JsonBlobRef

/-- `matches!(…, JsonBlobRef::Untyped(_))`. -/
def isUntyped : JsonBlobRef → Bool
  | .typed _ _ _ => false
  | .untyped _ _ => true

/-- `get_mime_type`. -/
def mimeType : JsonBlobRef → String
  | .typed _ mimeType _ => mimeType
  | .untyped _ mimeType => mimeType

end JsonBlobRef

/-- One segment of a URI's path. -/
def IsSegment (s : String) : Prop := s ≠ "" ∧ ∀ c ∈ s.toList, c ∉ ['/', '?', '#']

structure RecordLib where
  /-- `serde_json::from_value::<RepoRecord>`. -/
  recordOfJson : JsonValue → Except String RepoRecord
  /-- `serde_json::from_value::<JsonBlobRef>`. -/
  blobOfJson : JsonValue → Except String JsonBlobRef
  /-- `serde_json::to_value` of an `Ipld::Map`. -/
  jsonOfMap : List (String × Ipld) → Except String JsonValue
  /-- `cid_for_safe_record`, with the block it hashes: DAG-CBOR there and back again. -/
  cidForSafeRecord : RepoRecord → Except String (Cid × Bytes)
  /-- `AtUri::make`, by the DID, the collection and the rkey. It joins the three to one text, and parses
  that. -/
  makeUri : String → String → String → Except String AtUri
  makeUri_ok : ∀ {did collection rkey uri}, IsSegment collection → IsSegment rkey →
    makeUri did collection rkey = .ok uri → uri.collection = collection ∧ uri.rkey = rkey
  /-- `Cid::from_str`. -/
  parseCid : String → Except String Cid

structure FoundBlobRef where
  ref : JsonBlobRef
  path : List String

variable (L : RecordLib)

/-! ## Blob references -/

def findBlobRefs : (layers : Nat) → Lex → (path : List String) → List FoundBlobRef
  | 0, _, _ => []
  | layers + 1, val, path =>
    match val with
    | .list list => list.flatMap fun item => findBlobRefs layers item path
    | .blob blob => [⟨blob, path⟩]
    | .ipld (.json (.array list)) => list.flatMap fun item =>
      match L.recordOfJson item with
      | .ok item => findBlobRefs layers (.map item) path
      | .error _ => []
    | .ipld (.json json) =>
      match L.blobOfJson json with
      | .ok blob => [⟨blob, path⟩]
      | .error _ =>
        match L.recordOfJson json with
        | .ok record => record.flatMap fun e => findBlobRefs layers e.2 (path ++ [e.1])
        | .error _ => []
    | .ipld (.map map) =>
      match (L.jsonOfMap map).toOption.bind fun json => (L.blobOfJson json).toOption with
      | some blob => [⟨blob, path⟩]
      | none => map.flatMap fun e => findBlobRefs layers (.ipld e.2) (path ++ [e.1])
    | .ipld (.list list) => list.flatMap fun item => findBlobRefs layers (.ipld item) path
    | .ipld _ => []
    | .map map => map.flatMap fun e => findBlobRefs layers e.2 (path ++ [e.1])

/-- Layers 0 to 32. -/
def maxLayers : Nat := 33

def JsonBlobRef.getCid : JsonBlobRef → Except String Cid
  | .typed ref _ _ => .ok ref
  | .untyped cid _ => L.parseCid cid

def preparedBlobRef (found : FoundBlobRef) : Except String PreparedBlobRef := do
  let cid ← found.ref.getCid L
  return { cid, mimeType := found.ref.mimeType, maxSize := none, accept := none }

def blobsForWrite (record : RepoRecord) : Except String (List PreparedBlobRef) :=
  let refs := findBlobRefs L maxLayers (.map record) []
  match refs.find? (·.ref.isUntyped) with
  | some found => .error ("Legacy blob ref at `" ++ "/".intercalate found.path ++ "`")
  | none => refs.mapM (preparedBlobRef L)

/-! ## The `$type` of a record -/

def assertValidRecord (record : RepoRecord) : Except String Unit :=
  match record.get "$type" with
  | some (.ipld (.string _)) => .ok ()
  | _ => .error "No $type provided"

def setCollectionName (collection : String) (record : RepoRecord) (validate : Bool) :
    Except String RepoRecord :=
  let record :=
    if (record.get "$type").isSome then record
    else record.insert "$type" (.ipld (.json (.string collection)))
  match record.get "$type" with
  | some (.ipld (.json (.string recordType))) =>
    if validate ∧ recordType ≠ collection then
      .error ("Invalid $type: expected " ++ collection ++ ", got " ++ recordType)
    else .ok record
  | _ => .ok record

/-! ## Prepared writes -/

structure PrepareCreateOpts where
  did : String
  collection : String
  rkey : Option String
  swapCid : Option Cid
  record : RepoRecord
  validate : Option Bool

structure PrepareUpdateOpts where
  did : String
  collection : String
  rkey : String
  swapCid : Option Cid
  record : RepoRecord
  validate : Option Bool

structure PrepareDeleteOpts where
  did : String
  collection : String
  rkey : String
  swapCid : Option Cid

/-- The checks that `prepare_create` and `prepare_update` begin with. -/
def checkRecord (collection : String) (record : RepoRecord) (validate : Bool) :
    Except String RepoRecord := do
  let record ← setCollectionName collection record validate
  if validate then
    assertValidRecord record
    return record
  else return record

/-- What they share: all but the rkey. -/
def prepareRecord (did collection rkey : String) (swapCid : Option Cid) (record : RepoRecord)
    (validate : Bool) : Except String PreparedCreateOrUpdate := do
  let record ← checkRecord collection record validate
  let uri ← L.makeUri did collection rkey
  let safe ← L.cidForSafeRecord record
  let blobs ← blobsForWrite L record
  return { uri, cid := safe.1, swapCid, record := safe.2, blobs }

/-- `nextRkey` is the ticker's. -/
def prepareCreate (nextRkey : String) (opts : PrepareCreateOpts) :
    Except String PreparedCreateOrUpdate :=
  prepareRecord L opts.did opts.collection (opts.rkey.getD nextRkey) opts.swapCid opts.record
    (opts.validate.getD true)

def prepareUpdate (opts : PrepareUpdateOpts) : Except String PreparedCreateOrUpdate :=
  prepareRecord L opts.did opts.collection opts.rkey opts.swapCid opts.record
    (opts.validate.getD true)

def prepareDelete (opts : PrepareDeleteOpts) : Except String PreparedDelete := do
  let uri ← L.makeUri opts.did opts.collection opts.rkey
  return { uri, swapCid := opts.swapCid }

variable {L}

section

variable {did collection rkey : String} {swapCid : Option Cid} {record : RepoRecord}
  {validate : Bool} {w : PreparedCreateOrUpdate}

theorem prepareRecord_ok :
    prepareRecord L did collection rkey swapCid record validate = .ok w ↔
      ∃ checked uri safe blobs, checkRecord collection record validate = .ok checked ∧
        L.makeUri did collection rkey = .ok uri ∧ L.cidForSafeRecord checked = .ok safe ∧
        blobsForWrite L checked = .ok blobs ∧
        w = { uri, cid := safe.1, swapCid, record := safe.2, blobs } := by
  unfold prepareRecord
  simp only [Stages.except_bind_ok, pure, Except.pure, Except.ok.injEq]
  constructor
  · rintro ⟨checked, hc, uri, hu, safe, hs, blobs, hb, rfl⟩
    exact ⟨checked, uri, safe, blobs, hc, hu, hs, hb, rfl⟩
  · rintro ⟨checked, uri, safe, blobs, hc, hu, hs, hb, rfl⟩
    exact ⟨checked, hc, uri, hu, safe, hs, blobs, hb, rfl⟩

/-- Preparing passes the swap CID through. -/
theorem prepareRecord_swap :
    prepareRecord L did collection rkey swapCid record validate = .ok w ↔
      ∃ v, prepareRecord L did collection rkey none record validate = .ok v ∧
        w = { v with swapCid } := by
  simp only [prepareRecord_ok]
  constructor
  · rintro ⟨checked, uri, safe, blobs, hc, hu, hs, hb, rfl⟩
    exact ⟨_, ⟨checked, uri, safe, blobs, hc, hu, hs, hb, rfl⟩, rfl⟩
  · rintro ⟨_, ⟨checked, uri, safe, blobs, hc, hu, hs, hb, rfl⟩, rfl⟩
    exact ⟨checked, uri, safe, blobs, hc, hu, hs, hb, rfl⟩

theorem uri_of_prepareRecord
    (h : prepareRecord L did collection rkey swapCid record validate = .ok w) :
    L.makeUri did collection rkey = .ok w.uri := by
  obtain ⟨_, uri, _, _, -, hu, -, -, rfl⟩ := prepareRecord_ok.1 h
  exact hu

end

end CacosPds.Server
