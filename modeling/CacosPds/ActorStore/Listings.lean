import Mathlib.Data.Finset.Sort
import Mathlib.Data.String.Basic
import CacosPds.ActorStore.Batch
import CacosPds.ActorStore.CarStream
import CacosPds.Lib.Paging
/-!
# Paged listings of an actor store (`repo/sql_repo.rs:623-668`, `blob/read.rs:92-151`)

| here | there |
| --- | --- |
| `walkBlocks`        | a caller that passes rev and cid of a page's last row to `get_block_range` |
| `listBlobs`         | `BlobReader::list_blobs` (`read.rs:125`) |
| `listMissingBlobs`  | `BlobReader::list_missing_blobs` (`read.rs:92`) |
| `walkListBlobs`, `walkMissing` | a caller that passes the last CID of a page as the next cursor |

Every walk is `Paging.walk`, which stops at the first empty page.
-/
namespace CacosPds.ActorStore

/-! ## Blocks -/

/-- The cursor behind a row: its rev, and its rev and cid. -/
def nextBlock (row : Cid × BlockRow) : Option String × Option CidAndRev :=
  (some row.2.repoRev, some ⟨row.1, row.2.repoRev⟩)

/-- `get_block_range`, page after page, with at most `n` reads. -/
def walkBlocks (t : Sql.Table Cid BlockRow) (n : Nat) (cursor : Option String × Option CidAndRev) :
    Option (Except PdsError (List (Cid × BlockRow))) :=
  Paging.walk (fun c => getBlockRange none t c.1 c.2) nextBlock n cursor

/-- Newest rev first, and within a rev the greatest cid first. -/
def NewerBlock (a b : Cid × BlockRow) : Prop :=
  b.2.repoRev < a.2.repoRev ∨ (b.2.repoRev = a.2.repoRev ∧ b.1.text < a.1.text)

theorem newerBlock_iff {a b : Cid × BlockRow} :
    NewerBlock a b ↔ blockOrder a.1 a.2 < blockOrder b.1 b.2 := by
  rw [blockOrder, blockOrder, OrderDual.toDual_lt_toDual, Prod.Lex.toLex_lt_toLex]
  rfl

theorem afterCursor_nextBlock (a b : Cid × BlockRow) :
    afterCursor (nextBlock a).1 (nextBlock a).2 b.1 b.2 = true ↔ NewerBlock a b := by
  simp [afterCursor, nextBlock, NewerBlock]

theorem keyset_blocks (t : Sql.Table Cid BlockRow) :
    Paging.Keyset NewerBlock (fun c => getBlockRange none t c.1 c.2) nextBlock
      (fun c row => afterCursor c.1 c.2 row.1 row.2) pageSize (exportOrder t) where
  sorted := (Sql.Table.pairwise_selectBy cid_blockOrder t).imp newerBlock_iff.2
  irrefl a h := lt_irrefl _ (newerBlock_iff.1 h)
  asymm a b hab hba := lt_asymm (newerBlock_iff.1 hab) (newerBlock_iff.1 hba)
  page_eq c := by
    have hrows : blocksAfter c.1 c.2 t =
        (exportOrder t).filter fun row => afterCursor c.1 c.2 row.1 row.2 :=
      Sql.Table.selectBy_eq_filter cid_blockOrder t
    rw [getBlockRange, hrows]
  behind_next := afterCursor_nextBlock

/-- The rows of the table, each once, newest first. -/
structure VisitsBlocks (t : Sql.Table Cid BlockRow) (rows : List (Cid × BlockRow)) : Prop where
  mem_iff : ∀ cid row, (cid, row) ∈ rows ↔ t.lookup cid = some row
  once : (rows.map Prod.fst).Nodup
  descending : rows.Pairwise NewerBlock

/-- **Any walk from `(None, None)` with more reads than the table has rows ends, and has visited every
row once in descending order.** -/
theorem walkBlocks_visits (t : Sql.Table Cid BlockRow) :
    ∃ rows, VisitsBlocks t rows ∧
      ∀ n, t.keys.card < n → walkBlocks t n (none, none) = some (.ok rows) := by
  refine ⟨exportOrder t, ⟨fun _ _ => mem_exportOrder, nodup_exportOrder t,
    (keyset_blocks t).sorted⟩, ?_⟩
  intro n hn
  refine (keyset_blocks t).walk_all (by decide) (fun _ _ => rfl) ?_
  rwa [length_exportOrder]

/-! ## Blobs -/

structure ListBlobsOpts where
  since : Option String
  cursor : Option String
  limit : Nat

structure ListMissingBlobsOpts where
  cursor : Option String
  limit : Nat

structure ListMissingBlobsRefRecordBlob where
  cid : String
  recordUri : AtUri
  deriving DecidableEq

/-- What a `GROUP BY` gives for a column it does not group by: the value of some row. -/
structure BareColumn where
  pick : Finset AtUri → AtUri
  pick_mem : ∀ uris : Finset AtUri, uris.Nonempty → pick uris ∈ uris

/-- The join with `record` and its `"repoRev" > ?`; without `since`, `1 = 1`. -/
def Store.writtenSince (s : Store) (since : Option String) (uri : AtUri) : Bool :=
  match since with
  | none => true
  | some since => (s.record.lookup uri).any fun row => since < row.repoRev

/-- `SELECT DISTINCT "blobCid" FROM record_blob … ORDER BY "blobCid" ASC LIMIT ?`. -/
def listBlobs (err : Option String) (s : Store) (opts : ListBlobsOpts) :
    Except String (List String) :=
  match err with
  | some e => .error e
  | none =>
    let rows := s.recordBlob.filter fun r =>
      s.writtenSince opts.since r.2 = true ∧ Paging.above opts.cursor r.1.text = true
    .ok ((rows.image fun r => r.1.text).sort.take opts.limit)

/-- The record URIs of a CID's group; the `WHERE` clause only looks at the CID. -/
def Store.urisOf (s : Store) (cid : String) : Finset AtUri :=
  (s.recordBlob.filter fun r => r.1.text = cid).image Prod.snd

/-- `SELECT "blobCid", "recordUri" FROM record_blob WHERE NOT EXISTS … GROUP BY "blobCid" ORDER BY
"blobCid" ASC LIMIT ?`. -/
def listMissingBlobs (B : BareColumn) (err : Option String) (s : Store)
    (opts : ListMissingBlobsOpts) : Except String (List ListMissingBlobsRefRecordBlob) :=
  if 1000 < opts.limit then .error "Limit too high. Max: 1000."
  else
    match err with
    | some e => .error e
    | none =>
      let rows := s.recordBlob.filter fun r =>
        s.blob.lookup r.1 = none ∧ Paging.above opts.cursor r.1.text = true
      .ok (((rows.image fun r => r.1.text).sort.take opts.limit).map fun cid =>
        ⟨cid, B.pick (s.urisOf cid)⟩)

def walkListBlobs (s : Store) (since : Option String) (limit n : Nat) (cursor : Option String) :
    Option (Except String (List String)) :=
  Paging.walk (fun c => listBlobs none s ⟨since, c, limit⟩) some n cursor

def walkMissing (B : BareColumn) (s : Store) (limit n : Nat) (cursor : Option String) :
    Option (Except String (List ListMissingBlobsRefRecordBlob)) :=
  Paging.walk (fun c => listMissingBlobs B none s ⟨c, limit⟩) (fun row => some row.cid) n cursor

/-- Some record of the table refers to the blob, and with `since` one of a later rev. -/
def Store.Referenced (s : Store) (since : Option String) (cid : Cid) : Prop :=
  ∃ uri, (cid, uri) ∈ s.recordBlob ∧
    ∀ rev, since = some rev → ∃ row, s.record.lookup uri = some row ∧ rev < row.repoRev

/-- Some record refers to the blob, and it has no row. -/
def Store.Missing (s : Store) (cid : Cid) : Prop :=
  (∃ uri, (cid, uri) ∈ s.recordBlob) ∧ s.blob.lookup cid = none

/-- The CIDs with the property, each once, in ascending order. -/
structure ListsOnce (wanted : Cid → Prop) (cids : List String) : Prop where
  mem_iff : ∀ cid : Cid, cid.text ∈ cids ↔ wanted cid
  once : cids.Nodup
  ascending : cids.Pairwise (· < ·)

/-! ### The keys of a walk -/

/-- The distinct CIDs of some `record_blob` rows. -/
def cidTexts (rows : Finset (Cid × AtUri)) : Finset String := rows.image fun r => r.1.text

theorem mem_cidTexts {rows : Finset (Cid × AtUri)} {cid : Cid} :
    cid.text ∈ cidTexts rows ↔ ∃ uri, (cid, uri) ∈ rows := by
  simp only [cidTexts, Finset.mem_image]
  constructor
  · rintro ⟨⟨c, uri⟩, hmem, htext⟩
    obtain rfl : c = cid := Cid.ext htext
    exact ⟨uri, hmem⟩
  · rintro ⟨uri, hmem⟩
    exact ⟨(cid, uri), hmem, rfl⟩

theorem card_cidTexts_filter (rows : Finset (Cid × AtUri)) (p : Cid × AtUri → Prop)
    [DecidablePred p] : (cidTexts (rows.filter p)).card ≤ rows.card :=
  Finset.card_image_le.trans (Finset.card_filter_le _ _)

/-- A cursor only looks at the CID, so it may come after the `DISTINCT`. -/
theorem cidTexts_above (rows : Finset (Cid × AtUri)) (p : Cid × AtUri → Prop) [DecidablePred p]
    (c : Option String) :
    cidTexts (rows.filter fun r => p r ∧ Paging.above c r.1.text = true) =
      (cidTexts (rows.filter p)).filter fun cid => Paging.above c cid = true := by
  rw [cidTexts, cidTexts, Finset.filter_image, Finset.filter_filter]

theorem writtenSince_iff {s : Store} {since : Option String} {uri : AtUri} :
    s.writtenSince since uri = true ↔
      ∀ rev, since = some rev → ∃ row, s.record.lookup uri = some row ∧ rev < row.repoRev := by
  cases since with
  | none => simp [Store.writtenSince]
  | some rev =>
    simp only [Store.writtenSince, Option.any_eq_true, decide_eq_true_eq, Option.some.injEq]
    constructor
    · rintro h _ rfl
      exact h
    · intro h
      exact h rev rfl

/-- The CIDs `list_blobs` walks over. -/
def Store.listed (s : Store) (since : Option String) : Finset String :=
  cidTexts (s.recordBlob.filter fun r => s.writtenSince since r.2 = true)

theorem mem_listed {s : Store} {since : Option String} {cid : Cid} :
    cid.text ∈ s.listed since ↔ s.Referenced since cid := by
  rw [Store.listed, mem_cidTexts]
  simp only [Finset.mem_filter, writtenSince_iff, Store.Referenced]

/-- The CIDs `list_missing_blobs` walks over. -/
def Store.missing (s : Store) : Finset String :=
  cidTexts (s.recordBlob.filter fun r => s.blob.lookup r.1 = none)

theorem mem_missing {s : Store} {cid : Cid} : cid.text ∈ s.missing ↔ s.Missing cid := by
  rw [Store.missing, mem_cidTexts]
  simp only [Finset.mem_filter, exists_and_right, Store.Missing]

theorem listsOnce_sort {wanted : Cid → Prop} {cids : Finset String}
    (h : ∀ cid : Cid, cid.text ∈ cids ↔ wanted cid) : ListsOnce wanted cids.sort where
  mem_iff cid := by rw [Finset.mem_sort, h]
  once := Finset.sort_nodup _ _
  ascending := (Finset.sortedLT_sort cids).pairwise

/-! ### The walks -/

theorem keyset_listBlobs (s : Store) (since : Option String) (limit : Nat) :
    Paging.Keyset (· < ·) (fun c => listBlobs none s ⟨since, c, limit⟩) some Paging.above limit
      (s.listed since).sort := by
  have hpage : ∀ c, listBlobs none s ⟨since, c, limit⟩ = .ok
      ((((s.listed since).filter fun cid => Paging.above c cid = true).sort.take limit).map id) := by
    intro c
    simp only [listBlobs, Store.listed, List.map_id, ← cidTexts_above]
    rfl
  have h := Paging.keyset_sort (s.listed since) id id (fun _ => rfl) hpage
  rwa [List.map_id] at h

theorem keyset_missing (B : BareColumn) (s : Store) {limit : Nat} (hlimit : limit ≤ 1000) :
    Paging.Keyset (fun a b => a.cid < b.cid) (fun c => listMissingBlobs B none s ⟨c, limit⟩)
      (fun row => some row.cid) (fun c row => Paging.above c row.cid) limit
      (s.missing.sort.map fun cid => ⟨cid, B.pick (s.urisOf cid)⟩) :=
  Paging.keyset_sort s.missing (fun cid => (⟨cid, B.pick (s.urisOf cid)⟩ :
    ListMissingBlobsRefRecordBlob)) (·.cid) (fun _ => rfl) fun c => by
      simp only [listMissingBlobs, if_neg (Nat.not_lt.2 hlimit), Store.missing, ← cidTexts_above]
      rfl

/-- A row of the list names a record that refers to the missing blob. -/
theorem pick_urisOf (B : BareColumn) {s : Store} {cid : Cid} (h : s.Missing cid) :
    (cid, B.pick (s.urisOf cid.text)) ∈ s.recordBlob := by
  obtain ⟨⟨uri, huri⟩, -⟩ := h
  have hne : (s.urisOf cid.text).Nonempty :=
    ⟨uri, Finset.mem_image.2 ⟨(cid, uri), Finset.mem_filter.2 ⟨huri, rfl⟩, rfl⟩⟩
  obtain ⟨⟨c, u⟩, hgroup, hu⟩ := Finset.mem_image.1 (B.pick_mem _ hne)
  obtain ⟨hmem, htext⟩ := Finset.mem_filter.1 hgroup
  have hpick : u = B.pick (s.urisOf cid.text) := hu
  have hcid : c = cid := Cid.ext htext
  rwa [hpick, hcid] at hmem

/-- **Both walks end, and list each matching CID once in ascending order**, for every page size the
endpoints take. -/
theorem blobWalks_list (B : BareColumn) (s : Store) (since : Option String) {limit : Nat}
    (hpos : 1 ≤ limit) (hmax : limit ≤ 1000) :
    (∃ cids, ListsOnce (s.Referenced since) cids ∧
      ∀ n, s.recordBlob.card < n → walkListBlobs s since limit n none = some (.ok cids)) ∧
    ∃ rows, ListsOnce s.Missing (rows.map (·.cid)) ∧
      ∀ n, s.recordBlob.card < n → walkMissing B s limit n none = some (.ok rows) := by
  constructor
  · refine ⟨_, listsOnce_sort fun cid => mem_listed, ?_⟩
    intro n hn
    refine (keyset_listBlobs s since limit).walk_all hpos (fun _ _ => rfl) ?_
    rw [Finset.length_sort]
    exact (card_cidTexts_filter _ _).trans_lt hn
  · refine ⟨s.missing.sort.map fun cid => ⟨cid, B.pick (s.urisOf cid)⟩, ?_, ?_⟩
    · rw [List.map_map]
      exact (List.map_id _).symm ▸ listsOnce_sort fun cid => mem_missing
    · intro n hn
      refine (keyset_missing B s hmax).walk_all hpos (fun _ _ => rfl) ?_
      rw [List.length_map, Finset.length_sort]
      exact (card_cidTexts_filter _ _).trans_lt hn

instance : LinearOrder AtUri := LinearOrder.lift' AtUri.dataKey fun _ _ => AtUri.dataKey_injective

/-- The bare column read in the order of the group's URIs. -/
def firstUri : BareColumn where
  pick uris := if h : uris.Nonempty then uris.min' h else feedPost "0"
  pick_mem uris h := by rw [dif_pos h]; exact uris.min'_mem h

/-- Two records share the first of two blobs, and neither has a row. -/
def Store.sharedBlob : Store := { Store.fresh with
  recordBlob := {(⟨"bafkreia"⟩, feedPost "1"), (⟨"bafkreia"⟩, feedPost "2"),
    (⟨"bafkreib"⟩, feedPost "2")} }

theorem blobWalks_list_sharedBlob :
    (∃ cids, ListsOnce (Store.sharedBlob.Referenced none) cids ∧
      ∀ n, Store.sharedBlob.recordBlob.card < n →
        walkListBlobs Store.sharedBlob none 1 n none = some (.ok cids)) ∧
    ∃ rows, ListsOnce Store.sharedBlob.Missing (rows.map (·.cid)) ∧
      ∀ n, Store.sharedBlob.recordBlob.card < n →
        walkMissing firstUri Store.sharedBlob 1 n none = some (.ok rows) :=
  blobWalks_list firstUri Store.sharedBlob none (by decide) (by decide)

end CacosPds.ActorStore
