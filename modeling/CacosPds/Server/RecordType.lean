import CacosPds.Server.RecordSwap
/-!
# The `$type` of a record (`xrpc/com/atproto/repo/prepare.rs`, `create_record.rs`, `put_record.rs`)

| here | there |
| --- | --- |
| `Lex.text`      | the string a value stands for, in either of its two forms |
| `checkNamed`    | `set_collection_name` of a handler, and again with `assert_valid_record` in `prepare_*` |
| `createNamed`, `updateNamed` | a handler's call of it, and `prepare_create`, `prepare_update` |
| `TypeKept`      | what the two owe to the collection |

A string is `Ipld::String` after it is read and `Ipld::Json` where `set_collection_name` inserts it.
The comparison with the collection looks at the second form, the check that there is a `$type` at the
first; so no inserted name passes, and no other name is refused (`typeKept_iff`).
-/
namespace CacosPds.Server

open Stages
open ActorStore (PreparedCreateOrUpdate)

/-- The string that a value is. -/
def Lex.text : Lex → Option String
  | .ipld (.string s) => some s
  | .ipld (.json (.string s)) => some s
  | _ => none

def RepoRecord.type (record : RepoRecord) : Option String := (record.get "$type").bind Lex.text

/-- The handler's `set_collection_name`, and the checks of `prepare_*`. -/
def checkNamed (collection : String) (record : RepoRecord) : Except String RepoRecord := do
  let record ← setCollectionName collection record true
  checkRecord collection record true

def createNamed (L : RecordLib) (nextRkey : String) (opts : PrepareCreateOpts) :
    Except String PreparedCreateOrUpdate := do
  let record ← setCollectionName opts.collection opts.record (opts.validate.getD true)
  prepareCreate L nextRkey { opts with record }

def updateNamed (L : RecordLib) (opts : PrepareUpdateOpts) : Except String PreparedCreateOrUpdate := do
  let record ← setCollectionName opts.collection opts.record (opts.validate.getD true)
  prepareUpdate L { opts with record }

/-- What is prepared has the collection for its type; a record without one is given it. -/
structure TypeKept (collection : String) (record : RepoRecord)
    (prepared : Except String PreparedCreateOrUpdate) : Prop where
  only : ∀ checked w, checkNamed collection record = .ok checked → prepared = .ok w →
    checked.type = some collection
  accepts : record.get "$type" = none →
    ∃ checked, checkNamed collection record = .ok checked ∧ checked.type = some collection

/-- Nothing but its type is in the record's way. -/
structure Storable (L : RecordLib) (did collection rkey : String) (record : RepoRecord) : Prop where
  uri : ∃ uri, L.makeUri did collection rkey = .ok uri
  safe : ∃ safe, L.cidForSafeRecord record = .ok safe
  blobs : ∃ blobs, blobsForWrite L record = .ok blobs

/-- The record has a type, and if that is read as a string and nothing else is in the record's way, it
is the collection. -/
def NamesCollection (L : RecordLib) (did collection rkey : String) (record : RepoRecord) : Prop :=
  ∃ value, record.get "$type" = some value ∧
    ∀ type, value = .ipld (.string type) → Storable L did collection rkey record → type = collection

section

variable {L : RecordLib} {did collection rkey : String} {swapCid : Option Cid}
  {record checked : RepoRecord} {w : PreparedCreateOrUpdate}

theorem get_insert {key : String} (h : record.get key = none) (value : Lex) :
    (record.insert key value).get key = some value := by
  have hbefore : (record.takeWhile (·.1 < key)).lookup key = none := by
    rw [List.lookup_eq_none_iff]
    intro e he
    exact List.lookup_eq_none_iff.1 h e ((List.takeWhile_prefix _).subset he)
  rw [RepoRecord.get, RepoRecord.insert, List.lookup_append, hbefore, List.lookup_cons_self]
  rfl

/-- The name that is inserted is no `$type` to `assert_valid_record`, and the name that is there is no
`$type` to the comparison. -/
theorem checkNamed_ok : checkNamed collection record = .ok checked ↔
    checked = record ∧ ∃ type, record.get "$type" = some (.ipld (.string type)) := by
  have hassert : ∀ r : RepoRecord, assertValidRecord r = .ok () ↔
      ∃ type, r.get "$type" = some (.ipld (.string type)) := by
    intro r
    unfold assertValidRecord
    split
    · rename_i type htype
      exact iff_of_true rfl ⟨type, htype⟩
    · rename_i hnot
      exact iff_of_false (fun h => by cases h) fun ⟨type, htype⟩ => hnot type htype
  have hcheck : ∀ r : RepoRecord, setCollectionName collection r true = .ok r →
      (checkRecord collection r true = .ok checked ↔ checked = r ∧
        ∃ type, r.get "$type" = some (.ipld (.string type))) := by
    intro r hr
    simp only [checkRecord, hr, bind, Except.bind, if_true, ← hassert]
    cases assertValidRecord r with
    | error e => simp
    | ok _ => simp [pure, Except.pure, eq_comm]
  unfold checkNamed
  cases hget : record.get "$type" with
  | none =>
    -- the collection is inserted, and found again
    have hinsert := get_insert hget (.ipld (.json (.string collection)))
    have hset : setCollectionName collection record true =
        .ok (record.insert "$type" (.ipld (.json (.string collection)))) := by
      simp [setCollectionName, hget, hinsert]
    have hset' : setCollectionName collection
        (record.insert "$type" (.ipld (.json (.string collection)))) true =
        .ok (record.insert "$type" (.ipld (.json (.string collection)))) := by
      simp [setCollectionName, hinsert]
    rw [hset]
    refine (hcheck _ hset').trans (iff_of_false ?_ ?_)
    · rintro ⟨-, type, htype⟩
      rw [hinsert] at htype
      cases htype
    · rintro ⟨-, type, htype⟩
      cases htype
  | some value =>
    rw [← hget]
    by_cases hjson : ∃ type, value = .ipld (.json (.string type)) ∧ type ≠ collection
    · obtain ⟨type, rfl, hne⟩ := hjson
      have hset : ∃ e, setCollectionName collection record true = .error e := by
        simp [setCollectionName, hget, hne]
      obtain ⟨e, hset⟩ := hset
      rw [hset, hget]
      refine iff_of_false (fun h => by cases h) ?_
      rintro ⟨-, ipldType, htype⟩
      cases htype
    · have hset : setCollectionName collection record true = .ok record := by
        unfold setCollectionName
        simp only [hget, Option.isSome_some, if_true]
        split
        · rename_i type htype
          cases htype
          rw [if_neg]
          rintro ⟨-, hne⟩
          exact hjson ⟨type, rfl, hne⟩
        · rfl
      rw [hset]
      exact hcheck record hset

theorem named_ok : (setCollectionName collection record true >>= fun record =>
      prepareRecord L did collection rkey swapCid record true) = .ok w ↔
    ∃ uri safe blobs, checkNamed collection record = .ok record ∧
      L.makeUri did collection rkey = .ok uri ∧ L.cidForSafeRecord record = .ok safe ∧
      blobsForWrite L record = .ok blobs ∧
      w = { uri, cid := safe.1, swapCid, record := safe.2, blobs } := by
  simp only [except_bind_ok, prepareRecord_ok]
  constructor
  · rintro ⟨named, hn, checked, uri, safe, blobs, hc, hu, hs, hb, rfl⟩
    have hchecked : checkNamed collection record = .ok checked := by
      rw [checkNamed, hn]
      exact hc
    obtain ⟨rfl, -⟩ := checkNamed_ok.1 hchecked
    exact ⟨uri, safe, blobs, hchecked, hu, hs, hb, rfl⟩
  · rintro ⟨uri, safe, blobs, hchecked, hu, hs, hb, rfl⟩
    obtain ⟨named, hn, hc⟩ := except_bind_ok.1 hchecked
    exact ⟨named, hn, record, uri, safe, blobs, hc, hu, hs, hb, rfl⟩

/-- What holds of both, by what they share. -/
theorem typeKept_named_iff : TypeKept collection record
      (setCollectionName collection record true >>= fun record =>
        prepareRecord L did collection rkey swapCid record true) ↔
    NamesCollection L did collection rkey record := by
  constructor
  · intro h
    cases hget : record.get "$type" with
    | none =>
      obtain ⟨checked, hchecked, -⟩ := h.accepts hget
      obtain ⟨-, type, htype⟩ := checkNamed_ok.1 hchecked
      rw [hget] at htype
      cases htype
    | some value =>
      refine ⟨value, hget, ?_⟩
      rintro type rfl ⟨⟨uri, hu⟩, ⟨safe, hs⟩, ⟨blobs, hb⟩⟩
      have hchecked : checkNamed collection record = .ok record := checkNamed_ok.2 ⟨rfl, type, hget⟩
      have htype := h.only record _ hchecked (named_ok.2 ⟨uri, safe, blobs, hchecked, hu, hs, hb, rfl⟩)
      rw [RepoRecord.type, hget] at htype
      exact Option.some.inj htype
  · rintro ⟨value, hget, hnames⟩
    refine ⟨fun checked w hchecked hw => ?_, fun hnone => by rw [hget] at hnone; cases hnone⟩
    obtain ⟨rfl, type, htype⟩ := checkNamed_ok.1 hchecked
    obtain ⟨uri, safe, blobs, -, hu, hs, hb, -⟩ := named_ok.1 hw
    have heq := hnames type (Option.some.inj (hget.symm.trans htype)) ⟨⟨uri, hu⟩, ⟨safe, hs⟩, ⟨blobs, hb⟩⟩
    rw [RepoRecord.type, htype, heq]
    rfl

end

/-- **With validation on, a create or an update keeps its record's type if and only if the record names
the collection already.** -/
theorem typeKept_iff (L : RecordLib) (nextRkey : String) (create : PrepareCreateOpts)
    (update : PrepareUpdateOpts) (hcreate : create.validate ≠ some false)
    (hupdate : update.validate ≠ some false) :
    (TypeKept create.collection create.record (createNamed L nextRkey create) ↔
      NamesCollection L create.did create.collection (create.rkey.getD nextRkey) create.record) ∧
    (TypeKept update.collection update.record (updateNamed L update) ↔
      NamesCollection L update.did update.collection update.rkey update.record) := by
  have hvalidate : ∀ v : Option Bool, v ≠ some false → v.getD true = true := by
    rintro (_ | _ | _) h
    · rfl
    · exact absurd rfl h
    · rfl
  have hc : createNamed L nextRkey create =
      (setCollectionName create.collection create.record true >>= fun record =>
        prepareRecord L create.did create.collection (create.rkey.getD nextRkey) create.swapCid record
          true) := by
    simp only [createNamed, prepareCreate, hvalidate _ hcreate]
  have hu : updateNamed L update =
      (setCollectionName update.collection update.record true >>= fun record =>
        prepareRecord L update.did update.collection update.rkey update.swapCid record true) := by
    simp only [updateNamed, prepareUpdate, hvalidate _ hupdate]
  rw [hc, hu]
  exact ⟨typeKept_named_iff, typeKept_named_iff⟩

/-- A record with this type, or with none, for the collection of posts. -/
def createOfType (type : Option String) : PrepareCreateOpts where
  did := "did:plc:a"
  collection := "app.bsky.feed.post"
  rkey := some "a"
  swapCid := none
  record := type.toList.map fun type => ("$type", .ipld (.string type))
  validate := none

def updateOfType (type : Option String) : PrepareUpdateOpts where
  did := "did:plc:a"
  collection := "app.bsky.feed.post"
  rkey := "a"
  swapCid := none
  record := type.toList.map fun type => ("$type", .ipld (.string type))
  validate := some true

theorem typeKept_of_post :
    TypeKept "app.bsky.feed.post" (createOfType (some "app.bsky.feed.post")).record
        (createNamed textRecords "3k" (createOfType (some "app.bsky.feed.post"))) ∧
      TypeKept "app.bsky.feed.post" (updateOfType (some "app.bsky.feed.post")).record
        (updateNamed textRecords (updateOfType (some "app.bsky.feed.post"))) := by
  have hiff := typeKept_iff textRecords "3k" (createOfType (some "app.bsky.feed.post"))
    (updateOfType (some "app.bsky.feed.post")) (fun h => by cases h) fun h => by cases h
  exact ⟨hiff.1.2 ⟨_, rfl, fun type h _ => by cases h; rfl⟩,
    hiff.2.2 ⟨_, rfl, fun type h _ => by cases h; rfl⟩⟩

/-- A like is stored among the posts, and a post without a type is refused. -/
theorem type_not_kept :
    ¬ (∀ opts, opts.validate ≠ some false →
        TypeKept opts.collection opts.record (createNamed textRecords "3k" opts)) ∧
      (createNamed textRecords "3k" (createOfType (some "app.bsky.feed.like"))).isOk = true ∧
      (createNamed textRecords "3k" (createOfType none)).isOk = false := by
  refine ⟨fun h => ?_, rfl, rfl⟩
  have htype := (h (createOfType (some "app.bsky.feed.like")) (fun h => by cases h)).only _ _ rfl rfl
  exact absurd htype (by decide)

end CacosPds.Server
