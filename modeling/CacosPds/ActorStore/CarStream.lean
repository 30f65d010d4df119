import Mathlib.Data.Prod.Lex
import Mathlib.Data.String.Basic
import CacosPds.ActorStore.Tables
import CacosPds.Lib.KeyedFold
/-!
# The CAR export (`repo/sql_repo.rs:592-668`)

| here | there |
| --- | --- |
| `blockPage`     | the query of `get_block_range`: keyset filter, `ORDER BY "repoRev" DESC, cid DESC`, `LIMIT 500` |
| `getBlockRange` | `SqlRepoReader::get_block_range` (`sql_repo.rs:625`) |
| `BlockMap`      | `rsky_repo::block_map::BlockMap` |
| `CarLib`        | `rsky_repo::car::blocks_to_car_file` |
| `getCarStream`  | `SqlRepoReader::get_car_stream` (`sql_repo.rs:598`) |

SQLite orders text by its UTF-8 bytes, which is the order of `String`.
-/
namespace CacosPds.ActorStore

/-- `rsky_repo::storage::CidAndRev`. -/
structure CidAndRev where
  cid : Cid
  rev : String

/-- What `ORDER BY "repoRev" DESC, cid DESC` compares. -/
abbrev BlockOrder := (String ×ₗ String)ᵒᵈ

def blockOrder (cid : Cid) (row : BlockRow) : BlockOrder :=
  OrderDual.toDual (toLex (row.repoRev, cid.text))

def BlockOrder.cid (o : BlockOrder) : Cid := ⟨(ofLex (OrderDual.ofDual o)).2⟩

@[simp] theorem cid_blockOrder (cid : Cid) (row : BlockRow) : (blockOrder cid row).cid = cid := rfl

/-- The `WHERE` clause: `("repoRev", cid) < (after_rev, after_cid)`, or `"repoRev" < after_rev`. -/
def afterCursor (afterRev : Option String) (afterCid : Option CidAndRev) (cid : Cid)
    (row : BlockRow) : Bool :=
  match afterRev, afterCid with
  | none, _ => true
  | some rev, some cr => row.repoRev < rev || (row.repoRev = rev && cid.text < cr.cid.text)
  | some rev, none => row.repoRev < rev

/-- The rows behind a cursor, in the order of the query. -/
def blocksAfter (afterRev : Option String) (afterCid : Option CidAndRev)
    (t : Sql.Table Cid BlockRow) : List (Cid × BlockRow) :=
  t.selectBy (afterCursor afterRev afterCid) blockOrder BlockOrder.cid

/-- `LIMIT 500`. -/
def pageSize : Nat := 500

def getBlockRange (err : Option String) (t : Sql.Table Cid BlockRow) (afterRev : Option String)
    (afterCid : Option CidAndRev) : Except PdsError (List (Cid × BlockRow)) :=
  match err with
  | some e => .error (.internal "SqlRepoReader::get_block_range: find failed" e)
  | none => .ok ((blocksAfter afterRev afterCid t).take pageSize)

/-! ## The CAR file -/

abbrev BlockMap := Sql.Table Cid Bytes

/-- The loop of `bm.set`. -/
def blockMap (rows : List (Cid × BlockRow)) : BlockMap :=
  rows.foldl (fun bm row => bm.insert row.1 row.2.content) ∅

/-- A CAR file by its header and its sections, in file order. -/
structure Car where
  roots : List Cid
  sections : List (Cid × Bytes)

/-- The file has every block of the table, and has it once. -/
def Car.HasAll (car : Car) (t : Sql.Table Cid BlockRow) : Prop :=
  ∀ cid row, t.lookup cid = some row → car.sections.filter (·.1 = cid) = [(cid, row.content)]

structure CarLib where
  blocksToCarFile : Option Cid → BlockMap → Except String Car

/-- It encodes the whole block map: a CID's sections are the one block the map has for it. -/
def CarLib.EncodesWhole (L : CarLib) : Prop :=
  ∀ root bm car, L.blocksToCarFile root bm = .ok car →
    ∀ cid, (car.sections.filter (·.1 = cid)) = ((bm.lookup cid).map (cid, ·)).toList

def getCarStream (L : CarLib) (err : Option String) (t : Sql.Table Cid BlockRow)
    (rootCid : Option Cid) : Except PdsError Car := do
  let blocks ← getBlockRange err t none none
  match L.blocksToCarFile rootCid (blockMap blocks) with
  | .ok car => .ok car
  | .error e => .error (.internal "SqlRepoReader::get_car_stream: blocks_to_car_file failed" e)

/-! ## What the export has -/

/-- The rows of the table, in export order. -/
def exportOrder (t : Sql.Table Cid BlockRow) : List (Cid × BlockRow) := blocksAfter none none t

theorem mem_exportOrder {t : Sql.Table Cid BlockRow} {cid : Cid} {row : BlockRow} :
    (cid, row) ∈ exportOrder t ↔ t.lookup cid = some row := by
  rw [exportOrder, blocksAfter, Sql.Table.mem_selectBy cid_blockOrder]
  exact and_iff_left rfl

theorem nodup_exportOrder (t : Sql.Table Cid BlockRow) : ((exportOrder t).map Prod.fst).Nodup :=
  Sql.Table.nodup_keys_selectBy cid_blockOrder t

theorem length_exportOrder (t : Sql.Table Cid BlockRow) :
    (exportOrder t).length = t.keys.card :=
  Sql.Table.length_selectBy_true cid_blockOrder t

/-- A block map has the content of the last row with the CID. -/
theorem lookup_blockMap (rows : List (Cid × BlockRow)) (cid : Cid) :
    (blockMap rows).lookup cid =
      ((KeyedFold.at_ Prod.fst cid rows).getLast?.map fun row => row.2.content) := by
  have hlocal : KeyedFold.Local (fun (bm : BlockMap) cid => bm.lookup cid)
      (fun bm (row : Cid × BlockRow) => bm.insert row.1 row.2.content) Prod.fst
      (fun row _ => some row.2.content) := by
    intro bm row k
    exact Sql.Table.lookup_insert_eq bm row.1 k row.2.content
  have hget := KeyedFold.get_foldl_last hlocal rows ∅ cid
  rw [Finmap.lookup_empty] at hget
  rw [blockMap, hget]
  cases (KeyedFold.at_ Prod.fst cid rows).getLast? <;> rfl

/-- With CIDs all different, a block map has exactly the rows. -/
theorem lookup_blockMap_eq_some {rows : List (Cid × BlockRow)} (hnd : (rows.map Prod.fst).Nodup)
    {cid : Cid} {b : Bytes} :
    (blockMap rows).lookup cid = some b ↔ ∃ row, (cid, row) ∈ rows ∧ row.content = b := by
  rw [lookup_blockMap, Option.map_eq_some_iff]
  constructor
  · rintro ⟨⟨c, row⟩, hlast, hb⟩
    obtain ⟨hmem, rfl⟩ := KeyedFold.mem_at.1 (List.mem_of_getLast? hlast)
    exact ⟨row, hmem, hb⟩
  · rintro ⟨row, hmem, hb⟩
    have hat : (cid, row) ∈ KeyedFold.at_ Prod.fst cid rows := KeyedFold.mem_at.2 ⟨hmem, rfl⟩
    have hone : ∀ r ∈ KeyedFold.at_ Prod.fst cid rows, r = (cid, row) := by
      intro r hr
      obtain ⟨hr, hk⟩ := KeyedFold.mem_at.1 hr
      exact List.inj_on_of_nodup_map hnd hr hmem hk
    refine ⟨_, List.getLast?_eq_some_getLast (List.ne_nil_of_mem hat), ?_⟩
    rw [hone _ (List.getLast_mem _), hb]

theorem getCarStream_ok {L : CarLib} {err : Option String} {t : Sql.Table Cid BlockRow}
    {root : Option Cid} {car : Car} : getCarStream L err t root = .ok car ↔
      err = none ∧ L.blocksToCarFile root (blockMap ((exportOrder t).take pageSize)) = .ok car := by
  unfold getCarStream getBlockRange
  cases err with
  | some e => simp [bind, Except.bind]
  | none =>
    simp only [bind, Except.bind, true_and, exportOrder]
    split <;> simp [*]

/-- The sections of a CID: the row's block, if the row is in the first page. -/
theorem sections_getCarStream {L : CarLib} (hL : L.EncodesWhole) {err : Option String}
    {t : Sql.Table Cid BlockRow} {root : Option Cid} {car : Car}
    (h : getCarStream L err t root = .ok car) {cid : Cid} {row : BlockRow}
    (hrow : t.lookup cid = some row) :
    car.sections.filter (·.1 = cid) = [(cid, row.content)] ↔
      (cid, row) ∈ (exportOrder t).take pageSize := by
  have hnd : (((exportOrder t).take pageSize).map Prod.fst).Nodup := by
    rw [List.map_take]
    exact (nodup_exportOrder t).sublist (List.take_sublist _ _)
  rw [hL _ _ _ (getCarStream_ok.1 h).2 cid]
  constructor
  · intro hs
    cases hl : (blockMap ((exportOrder t).take pageSize)).lookup cid with
    | none => simp [hl] at hs
    | some b =>
      obtain ⟨row', hmem, -⟩ := (lookup_blockMap_eq_some hnd).1 hl
      have hsame : t.lookup cid = some row' := mem_exportOrder.1 (List.mem_of_mem_take hmem)
      rw [hrow, Option.some.injEq] at hsame
      rwa [hsame]
  · intro hmem
    rw [(lookup_blockMap_eq_some hnd).2 ⟨row, hmem, rfl⟩]
    rfl

theorem forall_mem_take_iff {α : Type} {l : List α} (hnd : l.Nodup) (n : Nat) :
    (∀ a ∈ l, a ∈ l.take n) ↔ l.length ≤ n := by
  constructor
  · intro h
    by_contra hn
    have hlt : n < l.length := Nat.lt_of_not_le hn
    obtain ⟨m, hm, he⟩ := List.mem_take_iff_getElem.1 (h l[n] (List.getElem_mem hlt))
    have hmn := (List.Nodup.getElem_inj_iff hnd).1 he
    omega
  · intro h a ha
    rwa [List.take_of_length_le h]

/-- **An export has every block of the table exactly once exactly when the table has at most 500
rows.** -/
theorem getCarStream_complete_iff {L : CarLib} (hL : L.EncodesWhole) {err : Option String}
    {t : Sql.Table Cid BlockRow} {root : Option Cid} {car : Car}
    (h : getCarStream L err t root = .ok car) : car.HasAll t ↔ t.keys.card ≤ pageSize := by
  rw [← length_exportOrder, ← forall_mem_take_iff (nodup_exportOrder t).of_map pageSize]
  constructor
  · rintro hall ⟨cid, row⟩ hmem
    have hrow := mem_exportOrder.1 hmem
    exact (sections_getCarStream hL h hrow).1 (hall cid row hrow)
  · intro hall cid row hrow
    exact (sections_getCarStream hL h hrow).2 (hall _ (mem_exportOrder.2 hrow))

/-! ## A reference encoder, and two tables -/

theorem filter_fst_of_nodup {α β : Type} [DecidableEq α] {l : List (α × β)}
    (hnd : (l.map Prod.fst).Nodup) {a : α} {o : Option β} (ho : ∀ b, (a, b) ∈ l ↔ o = some b) :
    l.filter (·.1 = a) = (o.map (a, ·)).toList := by
  have hmem : ∀ x, x ∈ l.filter (·.1 = a) ↔ x ∈ (o.map (a, ·)).toList := by
    rintro ⟨c, b⟩
    simp only [List.mem_filter, decide_eq_true_eq, Option.mem_toList,
      Option.map_eq_some_iff, Prod.mk.injEq]
    constructor
    · rintro ⟨hm, rfl⟩
      exact ⟨b, (ho b).1 hm, rfl, rfl⟩
    · rintro ⟨b', hb', rfl, rfl⟩
      exact ⟨(ho b').2 hb', rfl⟩
  have hperm := (List.perm_ext_iff_of_nodup ((List.Nodup.of_map _ hnd).filter _)
    (by cases o <;> simp)).2 hmem
  cases o with
  | none => exact List.perm_nil.1 hperm
  | some b => exact List.perm_singleton.1 hperm

/-- Sections in the order of the block map: by CID text. -/
def orderedCar : CarLib where
  blocksToCarFile root bm :=
    .ok ⟨root.toList, bm.selectBy (fun _ _ => true) (fun cid _ => cid.text) Cid.mk⟩

theorem encodesWhole_orderedCar : orderedCar.EncodesWhole := by
  rintro root bm _ ⟨⟩ cid
  refine filter_fst_of_nodup (Sql.Table.nodup_keys_selectBy (fun _ _ => rfl) bm) fun b => ?_
  rw [Sql.Table.mem_selectBy fun _ _ => rfl]
  exact and_iff_left rfl

def base32 (d : Nat) : Char := "abcdefghijklmnopqrstuvwxyz234567".toList.getD d 'a'

theorem base32_inj : ∀ a < 32, ∀ b < 32, base32 a = base32 b → a = b := by decide

/-- A raw SHA-256 CID whose digest ends in the two digits of `n`. -/
def sampleCid (n : Nat) : Cid :=
  ⟨String.ofList
    ("bafkrei".toList ++ List.replicate 49 'a' ++ [base32 (n / 32), base32 (n % 32), 'a'])⟩

theorem sampleCid_inj {m n : Nat} (hm : m < 501) (hn : n < 501) (h : sampleCid m = sampleCid n) :
    m = n := by
  have htail := List.append_cancel_left (String.ofList_inj.1 (Cid.mk.inj h))
  simp only [List.cons.injEq, and_true] at htail
  have hdiv := base32_inj (m / 32) (by omega) (n / 32) (by omega) htail.1
  have hmod := base32_inj (m % 32) (by omega) (n % 32) (by omega) htail.2
  omega

/-- `n` blocks of one byte, all of one commit. -/
def sampleBlocks (n : Nat) : Sql.Table Cid BlockRow :=
  Sql.Table.insertAllIgnore ((List.range n).map fun k => (sampleCid k, ⟨"3kaaaaaaaaa2a", 1, [0]⟩)) ∅

theorem card_sampleBlocks {n : Nat} (hn : n ≤ 501) : (sampleBlocks n).keys.card = n := by
  have hkeys : (sampleBlocks n).keys = (Finset.range n).image sampleCid := by
    ext cid
    rw [Finmap.mem_keys, sampleBlocks, Sql.Table.mem_insertAllIgnore]
    simp [Finmap.notMem_empty]
  rw [hkeys, Finset.card_image_of_injOn, Finset.card_range]
  intro i hi j hj
  simp only [Finset.coe_range, Set.mem_Iio] at hi hj
  exact sampleCid_inj (Nat.lt_of_lt_of_le hi hn) (Nat.lt_of_lt_of_le hj hn)

theorem getCarStream_complete_two : ∃ car,
    getCarStream orderedCar none (sampleBlocks 2) (some (sampleCid 0)) = .ok car ∧
      car.HasAll (sampleBlocks 2) := by
  obtain ⟨car, hcar⟩ : ∃ car, getCarStream orderedCar none (sampleBlocks 2)
      (some (sampleCid 0)) = .ok car := ⟨_, rfl⟩
  refine ⟨car, hcar, (getCarStream_complete_iff encodesWhole_orderedCar hcar).2 ?_⟩
  exact (card_sampleBlocks (by decide)).trans_le (by decide)

/-- A repo of 501 blocks loses one. -/
theorem getCarStream_loses_block_501 : ¬ ∀ car,
    getCarStream orderedCar none (sampleBlocks 501) (some (sampleCid 0)) = .ok car →
      car.HasAll (sampleBlocks 501) := by
  intro hall
  obtain ⟨car, hcar⟩ : ∃ car, getCarStream orderedCar none (sampleBlocks 501)
      (some (sampleCid 0)) = .ok car := ⟨_, rfl⟩
  have hpage : ∀ a ∈ exportOrder (sampleBlocks 501),
      a ∈ (exportOrder (sampleBlocks 501)).take pageSize := by
    rintro ⟨cid, row⟩ hmem
    have hrow := mem_exportOrder.1 hmem
    exact (sections_getCarStream encodesWhole_orderedCar hcar hrow).1 (hall car hcar cid row hrow)
  rw [forall_mem_take_iff (nodup_exportOrder _).of_map, length_exportOrder,
    card_sampleBlocks (Nat.le_refl _)] at hpage
  exact absurd hpage (by decide)

end CacosPds.ActorStore
