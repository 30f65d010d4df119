import Mathlib.Data.Finset.Sort
import CacosPds.ActorStore.CarStream
/-!
# Block reads through the cache (`repo/sql_repo.rs:58-164`)

| here | there |
| --- | --- |
| `BlocksAndMissing` | `rsky_repo::block_map::BlocksAndMissing` |
| `BlockLib`         | `BlockMap::get_many`, `BlockMap::add_map`, `CidSet::to_list` of `rsky_repo` |
| `getBytes`         | `get_bytes_impl` (`sql_repo.rs:58`), which `get_bytes` and `has` run |
| `blocksIn`, `takeRow`, `readBatches` | the batch query and the loop around it (`:117-139`) |
| `getBlocks`        | `get_blocks_inner` (`sql_repo.rs:99`) |

A `CidSet` is a `Finset`. Both functions return what they answer and the cache they leave.
-/
namespace CacosPds.ActorStore

structure BlocksAndMissing where
  blocks : BlockMap
  missing : List Cid

/-- The operations on block maps and CID sets that the reader calls. -/
structure BlockLib where
  getMany : BlockMap → List Cid → Except String BlocksAndMissing
  addMap : BlockMap → BlockMap → Except String BlockMap
  toList : Finset Cid → List Cid

/-- `get_many` splits a list by what the map has, `add_map` overwrites, `to_list` lists. -/
structure BlockLib.Lawful (U : BlockLib) : Prop where
  getMany : ∀ m cids, ∃ r, U.getMany m cids = .ok r ∧
    (∀ cid, r.blocks.lookup cid = if cid ∈ cids then m.lookup cid else none) ∧
    r.missing = cids.filter fun cid => m.lookup cid = none
  addMap : ∀ m m', ∃ r, U.addMap m m' = .ok r ∧
    ∀ cid, r.lookup cid = (m'.lookup cid).or (m.lookup cid)
  mem_toList : ∀ cids cid, cid ∈ U.toList cids ↔ cid ∈ cids

/-- `get_bytes_impl`; a row that was read goes into the cache. -/
def getBytes (err : Option String) (db : Sql.Table Cid BlockRow) (cache : BlockMap) (cid : Cid) :
    Except PdsError (Option Bytes) × BlockMap :=
  match cache.lookup cid with
  | some bytes => (.ok (some bytes), cache)
  | none =>
    match err with
    | some e => (.error (.internal "SqlRepoReader::get_bytes_impl: find_by_id failed" e), cache)
    | none =>
      match db.lookup cid with
      | none => (.ok none, cache)
      | some row => (.ok (some row.content), cache.insert cid row.content)

/-- `SELECT … FROM repo_block WHERE cid IN (…)`. -/
def blocksIn (db : Sql.Table Cid BlockRow) (batch : List Cid) : List (Cid × BlockRow) :=
  db.selectBy (fun cid _ => cid ∈ batch) (fun cid _ => cid.text) Cid.mk

/-- `blocks.set(cid, model.content); missing.delete(cid)`. -/
def takeRow (s : BlockMap × Finset Cid) (row : Cid × BlockRow) : BlockMap × Finset Cid :=
  (s.1.insert row.1 row.2.content, s.2.erase row.1)

/-- The loop over the batches; `err n` is the error of the `n`-th query, if it fails. -/
def readBatches (err : Nat → Option String) (db : Sql.Table Cid BlockRow) :
    Nat → List (List Cid) → BlockMap × Finset Cid → Except PdsError (BlockMap × Finset Cid)
  | _, [], s => .ok s
  | n, batch :: batches, s =>
    match err n with
    | some e => .error (.internal "SqlRepoReader::get_blocks_impl: find().is_in failed" e)
    | none => readBatches err db (n + 1) batches ((blocksIn db batch).foldl takeRow s)

variable (U : BlockLib)

/-- `missing_strings.chunks(500)`. -/
def batchSize : Nat := 500

/-- `get_blocks_inner`. -/
def getBlocks (err : Nat → Option String) (db : Sql.Table Cid BlockRow) (cache : BlockMap)
    (cids : List Cid) : Except PdsError BlocksAndMissing × BlockMap :=
  match U.getMany cache cids with
  | .error e => (.error (.internal "SqlRepoReader::get_blocks_impl: BlockMap::get_many failed" e), cache)
  | .ok cached =>
    if cached.missing = [] then (.ok cached, cache)
    else
      match readBatches err db 0 (cached.missing.toChunks batchSize)
          (∅, cached.missing.toFinset) with
      | .error e => (.error e, cache)
      | .ok (blocks, missing) =>
        match U.addMap cache blocks with
        | .error e =>
          (.error (.internal "SqlRepoReader::get_blocks_impl: BlockMap::add_map failed" e), cache)
        | .ok cache' =>
          match U.addMap blocks cached.blocks with
          | .error e =>
            (.error (.internal
              "SqlRepoReader::get_blocks_impl: BlockMap::add_map(cached) failed" e), cache')
          | .ok blocks => (.ok ⟨blocks, U.toList missing⟩, cache')

/-! ## One batch, and all of them -/

/-- What the database has for a CID. -/
def content (db : Sql.Table Cid BlockRow) (cid : Cid) : Option Bytes :=
  (db.lookup cid).map BlockRow.content

variable {db : Sql.Table Cid BlockRow}

theorem mem_blocksIn {batch : List Cid} {cid : Cid} {row : BlockRow} :
    (cid, row) ∈ blocksIn db batch ↔ db.lookup cid = some row ∧ cid ∈ batch := by
  rw [blocksIn, Sql.Table.mem_selectBy fun _ _ => rfl, decide_eq_true_eq]

/-- After some rows a CID has the content of its last row, and is missing when it had none. -/
theorem foldl_takeRow (rows : List (Cid × BlockRow)) (s : BlockMap × Finset Cid) (cid : Cid)
    (hrows : ∀ row, (cid, row) ∈ rows → content db cid = some row.content) :
    (rows.foldl takeRow s).1.lookup cid =
        (if cid ∈ rows.map Prod.fst then content db cid else s.1.lookup cid) ∧
      (cid ∈ (rows.foldl takeRow s).2 ↔ cid ∈ s.2 ∧ cid ∉ rows.map Prod.fst) := by
  induction rows generalizing s with
  | nil => simp
  | cons row rows ih =>
    obtain ⟨c, row⟩ := row
    obtain ⟨hblocks, hmissing⟩ := ih (takeRow s (c, row)) fun r hr =>
      hrows r (List.mem_cons_of_mem _ hr)
    rw [List.foldl_cons, hblocks, hmissing]
    simp only [takeRow, List.map_cons, List.mem_cons, Finset.mem_erase, Sql.Table.lookup_insert_eq]
    by_cases hc : cid = c
    · subst hc
      have hrow := hrows row List.mem_cons_self
      simp [hrow]
    · by_cases hin : cid ∈ rows.map Prod.fst <;> simp [hc, hin]

/-- The CIDs of a batch that the database has. -/
theorem mem_fst_blocksIn {batch : List Cid} {cid : Cid} :
    cid ∈ (blocksIn db batch).map Prod.fst ↔ cid ∈ batch ∧ content db cid ≠ none := by
  rw [List.mem_map]
  constructor
  · rintro ⟨⟨c, row⟩, hmem, rfl⟩
    obtain ⟨hl, hb⟩ := mem_blocksIn.1 hmem
    exact ⟨hb, by simp [content, hl]⟩
  · rintro ⟨hb, hne⟩
    have hrow : db.lookup cid ≠ none := fun h => hne (by rw [content, h]; rfl)
    obtain ⟨row, hl⟩ := Option.ne_none_iff_exists'.1 hrow
    exact ⟨(cid, row), mem_blocksIn.2 ⟨hl, hb⟩, rfl⟩

/-- **The loop, whatever the number of batches**: a CID of some batch that the database has is found,
and the others stay missing. -/
theorem readBatches_ok {err : Nat → Option String} (batches : List (List Cid)) :
    ∀ {n : Nat} {s t : BlockMap × Finset Cid}, readBatches err db n batches s = .ok t →
      ∀ cid, t.1.lookup cid =
          (if cid ∈ batches.flatten ∧ content db cid ≠ none then content db cid else s.1.lookup cid) ∧
        (cid ∈ t.2 ↔ cid ∈ s.2 ∧ ¬ (cid ∈ batches.flatten ∧ content db cid ≠ none)) := by
  induction batches with
  | nil =>
    rintro n s t ⟨⟩ cid
    simp
  | cons batch batches ih =>
    intro n s t h cid
    simp only [readBatches] at h
    cases herr : err n with
    | some e => simp [herr] at h
    | none =>
      rw [herr] at h
      obtain ⟨hblocks, hmissing⟩ := ih h cid
      have hrows : ∀ row, (cid, row) ∈ blocksIn db batch → content db cid = some row.content := by
        intro row hrow
        rw [content, (mem_blocksIn.1 hrow).1]
        rfl
      obtain ⟨hb, hm⟩ := foldl_takeRow (blocksIn db batch) s cid hrows
      rw [hblocks, hmissing, hb, hm]
      simp only [mem_fst_blocksIn, List.flatten_cons, List.mem_append]
      by_cases hc : content db cid = none
      · simp [hc]
      · by_cases hin : cid ∈ batches.flatten <;> by_cases hin' : cid ∈ batch <;> simp [hc, hin, hin']

theorem readBatches_total (db : Sql.Table Cid BlockRow) (batches : List (List Cid)) :
    ∀ (n : Nat) (s : BlockMap × Finset Cid),
      ∃ t, readBatches (fun _ => none) db n batches s = .ok t := by
  induction batches with
  | nil => exact fun _ s => ⟨s, rfl⟩
  | cons batch batches ih => exact fun n s => ih (n + 1) _

/-! ## The two ways to read -/

/-- Every cached pair is a row of the database. -/
def CacheAgrees (db : Sql.Table Cid BlockRow) (cache : BlockMap) : Prop :=
  ∀ cid bytes, cache.lookup cid = some bytes → content db cid = some bytes

/-- With a cache that agrees, `get_bytes` answers what the database has. -/
theorem getBytes_of_agrees {cache : BlockMap} (h : CacheAgrees db cache) (cid : Cid) :
    (getBytes none db cache cid).1 = .ok (content db cid) := by
  unfold getBytes
  cases hc : cache.lookup cid with
  | some bytes => simp only [h cid bytes hc]
  | none =>
    cases hl : db.lookup cid with
    | none => simp [content, hl]
    | some row => simp [content, hl]

/-- The requested CIDs that `get_bytes` finds, with its bytes, and the others. -/
structure ReadsAlike (db : Sql.Table Cid BlockRow) (cache : BlockMap) (cids : List Cid)
    (r : BlocksAndMissing) : Prop where
  blocks : ∀ cid bytes, r.blocks.lookup cid = some bytes ↔
    cid ∈ cids ∧ (getBytes none db cache cid).1 = .ok (some bytes)
  missing : ∀ cid, cid ∈ r.missing ↔ cid ∈ cids ∧ (getBytes none db cache cid).1 = .ok none

variable {U}

theorem ReadsAlike.of_content {cache : BlockMap} (hcache : CacheAgrees db cache) {cids : List Cid}
    {r : BlocksAndMissing}
    (hblocks : ∀ cid, r.blocks.lookup cid = if cid ∈ cids then content db cid else none)
    (hmissing : ∀ cid, cid ∈ r.missing ↔ cid ∈ cids ∧ content db cid = none) :
    ReadsAlike db cache cids r where
  blocks cid bytes := by
    rw [hblocks, getBytes_of_agrees hcache, Except.ok.injEq, ite_eq_iff]
    simp
  missing cid := by rw [hmissing, getBytes_of_agrees hcache, Except.ok.injEq]

/-- The early return: the cache has every requested CID. -/
theorem readsAlike_cached {cache : BlockMap} (hcache : CacheAgrees db cache) {cids : List Cid}
    {cached : BlocksAndMissing}
    (hblocks : ∀ cid, cached.blocks.lookup cid = if cid ∈ cids then cache.lookup cid else none)
    (hmissing : cached.missing = cids.filter fun cid => cache.lookup cid = none)
    (hall : cached.missing = []) : ReadsAlike db cache cids cached := by
  have hhit : ∀ cid ∈ cids, cache.lookup cid = content db cid := by
    intro cid hcid
    cases hl : cache.lookup cid with
    | some bytes => exact (hcache cid bytes hl).symm
    | none =>
      have hmem : cid ∈ cached.missing := by
        rw [hmissing, List.mem_filter, decide_eq_true_eq]
        exact ⟨hcid, hl⟩
      rw [hall] at hmem
      exact absurd hmem List.not_mem_nil
  refine .of_content hcache (fun cid => ?_) fun cid => ?_
  · rw [hblocks]
    by_cases hcid : cid ∈ cids
    · rw [if_pos hcid, if_pos hcid, hhit cid hcid]
    · rw [if_neg hcid, if_neg hcid]
  · have hempty : cids.filter (fun cid => cache.lookup cid = none) = [] := hmissing ▸ hall
    rw [hall]
    constructor
    · exact fun h => absurd h List.not_mem_nil
    · rintro ⟨hcid, hnone⟩
      have := List.filter_eq_nil_iff.1 hempty cid hcid
      rw [hhit cid hcid] at this
      exact absurd (decide_eq_true hnone) this

/-- The batched path: what the queries found, under what the cache had. -/
theorem readsAlike_batched (hU : U.Lawful) {cache : BlockMap} (hcache : CacheAgrees db cache)
    {cids : List Cid} {cached : BlocksAndMissing} {err : Nat → Option String}
    {t : BlockMap × Finset Cid} {blocks : BlockMap}
    (hblocks : ∀ cid, cached.blocks.lookup cid = if cid ∈ cids then cache.lookup cid else none)
    (hmissing : cached.missing = cids.filter fun cid => cache.lookup cid = none)
    (hread : readBatches err db 0 (cached.missing.toChunks batchSize)
      (∅, cached.missing.toFinset) = .ok t)
    (hadd : ∀ cid, blocks.lookup cid = (cached.blocks.lookup cid).or (t.1.lookup cid)) :
    ReadsAlike db cache cids ⟨blocks, U.toList t.2⟩ := by
  have hmem : ∀ cid, cid ∈ cached.missing ↔ cid ∈ cids ∧ cache.lookup cid = none := by
    intro cid
    rw [hmissing, List.mem_filter, decide_eq_true_eq]
  have hloop : ∀ cid, t.1.lookup cid =
        (if cid ∈ cached.missing ∧ content db cid ≠ none then content db cid else none) ∧
      (cid ∈ t.2 ↔ cid ∈ cached.missing ∧ content db cid = none) := by
    intro cid
    obtain ⟨hb, hm⟩ := readBatches_ok _ hread cid
    rw [Sql.Table.flatten_toChunks] at hb hm
    refine ⟨by rw [hb, Finmap.lookup_empty], ?_⟩
    rw [hm, List.mem_toFinset]
    tauto
  refine .of_content hcache (fun cid => ?_) fun cid => ?_
  · rw [hadd, hblocks, (hloop cid).1]
    by_cases hcid : cid ∈ cids
    · cases hl : cache.lookup cid with
      | some bytes => simp only [if_pos hcid, Option.some_or, hcache cid bytes hl]
      | none =>
        cases hc : content db cid with
        | none => simp
        | some bytes => simp [hcid, hmem, hl]
    · simp [hcid, hmem]
  · rw [hU.mem_toList, (hloop cid).2, hmem]
    constructor
    · exact fun ⟨⟨hcid, _⟩, hnone⟩ => ⟨hcid, hnone⟩
    · rintro ⟨hcid, hnone⟩
      refine ⟨⟨hcid, ?_⟩, hnone⟩
      cases hl : cache.lookup cid with
      | none => rfl
      | some bytes =>
        rw [hcache cid bytes hl] at hnone
        cases hnone

/-- **`get_blocks` answers as `get_bytes` does on every element**, for every list and every cache that
agrees with the database, and without a failing query it does answer. -/
theorem getBlocks_readsAlike (hU : U.Lawful) {cache : BlockMap} (hcache : CacheAgrees db cache)
    (cids : List Cid) :
    (∀ err r cache', getBlocks U err db cache cids = (.ok r, cache') → ReadsAlike db cache cids r) ∧
      ∃ r cache', getBlocks U (fun _ => none) db cache cids = (.ok r, cache') := by
  obtain ⟨cached, hcached, hblocks, hmissing⟩ := hU.getMany cache cids
  constructor
  · intro err r cache' h
    simp only [getBlocks, hcached] at h
    split at h
    · rename_i hall
      cases h
      exact readsAlike_cached hcache hblocks hmissing hall
    · split at h
      · cases h
      · rename_i blocks missing hread
        obtain ⟨c, hc, -⟩ := hU.addMap cache blocks
        obtain ⟨b, hb, hadd⟩ := hU.addMap blocks cached.blocks
        simp only [hc, hb] at h
        cases h
        exact readsAlike_batched hU hcache hblocks hmissing hread hadd
  · obtain ⟨⟨blocks, missing⟩, hread⟩ := readBatches_total db
      (cached.missing.toChunks batchSize) 0 (∅, cached.missing.toFinset)
    obtain ⟨c, hc, -⟩ := hU.addMap cache blocks
    obtain ⟨b, hb, -⟩ := hU.addMap blocks cached.blocks
    simp only [getBlocks, hcached, hread, hc, hb]
    split <;> exact ⟨_, _, rfl⟩

/-! ## Reference block maps, and one read -/

/-- Maps and sets as they are. -/
def mapLib : BlockLib where
  getMany m cids := .ok
    ⟨m.deleteWhere fun cid _ => cid ∉ cids, cids.filter fun cid => m.lookup cid = none⟩
  addMap m m' := .ok (m' ∪ m)
  toList cids := (cids.image Cid.text).sort.map Cid.mk

theorem lawful_mapLib : mapLib.Lawful where
  getMany m cids := by
    refine ⟨_, rfl, fun cid => Option.ext fun bytes => ?_, rfl⟩
    rw [Sql.Table.lookup_deleteWhere_eq_some]
    by_cases hcid : cid ∈ cids <;> simp [hcid]
  addMap m m' := by
    refine ⟨_, rfl, fun cid => ?_⟩
    by_cases hcid : cid ∈ m'
    · obtain ⟨bytes, hb⟩ := Finmap.mem_iff.1 hcid
      rw [Finmap.lookup_union_left hcid, hb, Option.some_or]
    · rw [Finmap.lookup_union_right hcid, Finmap.lookup_eq_none.2 hcid, Option.none_or]
  mem_toList cids cid := by
    simp only [mapLib, List.mem_map, Finset.mem_sort, Finset.mem_image]
    constructor
    · rintro ⟨_, ⟨c, hmem, rfl⟩, rfl⟩
      exact hmem
    · exact fun hmem => ⟨cid.text, ⟨cid, hmem, rfl⟩, rfl⟩

/-- The first of two blocks is cached. -/
def sampleCache : BlockMap := (∅ : BlockMap).insert (sampleCid 0) [0]

theorem cacheAgrees_sampleCache : CacheAgrees (sampleBlocks 2) sampleCache := by
  intro cid bytes h
  rw [sampleCache, Sql.Table.lookup_insert_eq] at h
  split at h
  · rename_i hcid
    cases h
    rw [hcid]
    rfl
  · cases h

/-- A list with a cached block, a block that is not cached, a repetition, and one that is nowhere. -/
theorem getBlocks_readsAlike_sample :
    (∀ err r cache', getBlocks mapLib err (sampleBlocks 2) sampleCache
        [sampleCid 0, sampleCid 1, sampleCid 0, sampleCid 9] = (.ok r, cache') →
      ReadsAlike (sampleBlocks 2) sampleCache
        [sampleCid 0, sampleCid 1, sampleCid 0, sampleCid 9] r) ∧
      ∃ r cache', getBlocks mapLib (fun _ => none) (sampleBlocks 2) sampleCache
        [sampleCid 0, sampleCid 1, sampleCid 0, sampleCid 9] = (.ok r, cache') :=
  getBlocks_readsAlike lawful_mapLib cacheAgrees_sampleCache _

end CacosPds.ActorStore
