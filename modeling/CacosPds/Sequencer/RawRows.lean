import CacosPds.Lib.Machine
import CacosPds.Sequencer.CursorCheck
import CacosPds.Types.DbIdText
/-!
# `repo_seq` as SQLite has it (`cacos-pds-sequencer/src/mod.rs:79-219, 323-360`)

| here | there |
| --- | --- |
| `RawRow`             | a row with its key as a BLOB; the rows lie in any order |
| `rawRepoSeqFromRow`  | `repo_seq_from_row` (`mod.rs:323`), the length check included |
| `rawCurr` … `rawRequestSeqRange` | the statements of `curr`, `next_seq`, `request_seq_range_inner` |
| `Holds`              | the raw rows are those of a `RepoSeq` |

A statement compares BLOBs and sorts by them. On a table that holds ids it answers what the queries on
`RepoSeq` answer, through every sequence of inserts and queries (`callRows_answers`).
-/
namespace CacosPds.Sequencer

structure RawRow where
  seq : Bytes
  did : String
  eventType : String
  event : Bytes
  invalidated : Option Int
  sequencedAt : String
  deriving DecidableEq

def RepoSeqRow.raw (row : RepoSeqRow) : RawRow :=
  ⟨row.seq.toBytes.toList, row.did, row.eventType, row.event, row.invalidated, row.sequencedAt⟩

variable (K : Codecs)

/-! ## The statements -/

/-- `arr.copy_from_slice(&bytes)` and `DbId::from_bytes`, where there are 16 bytes. -/
def idOfBytes (bytes : Bytes) : Option DbId :=
  if h : bytes.length = 16 then some (.fromBytes ⟨bytes, h⟩) else none

def rawRepoSeqFromRow (row : RawRow) : Except String RepoSeqModel :=
  match idOfBytes row.seq with
  | none => .error "invalid seq bytes"
  | some seq =>
    match K.parseTime row.sequencedAt with
    | .ok sequencedAt => .ok ⟨seq, row.did, row.eventType, row.event, row.invalidated, sequencedAt⟩
    | .error _ => .error "sequencer parse OffsetDateTime"

/-- `ORDER BY seq ASC`. -/
def orderBySeq (rows : List RawRow) : List RawRow := rows.mergeSort fun a b => a.seq ≤ b.seq

/-- `SELECT seq FROM repo_seq ORDER BY seq DESC LIMIT 1`. -/
def rawCurr (rows : List RawRow) : Option DbId :=
  ((rows.mergeSort fun a b => b.seq ≤ a.seq).head?).bind fun row => idOfBytes row.seq

/-- `.. WHERE seq > ?1 ORDER BY seq ASC LIMIT 1`. -/
def rawNextSeq (rows : List RawRow) (cursor : DbId) : Except String (Option RepoSeqModel) :=
  match (orderBySeq (rows.filter fun row => cursor.toBytes.toList < row.seq)).head? with
  | none => .ok none
  | some row => (rawRepoSeqFromRow K row).map some

/-- The `WHERE` clause of the range query. -/
def rawInRange (opts : RequestSeqRangeOpts) (row : RawRow) : Bool :=
  row.invalidated = some 0 &&
    (opts.earliestSeq.all fun earliestSeq => earliestSeq.toBytes.toList < row.seq) &&
    (opts.latestSeq.all fun latestSeq => row.seq ≤ latestSeq.toBytes.toList) &&
    (opts.earliestTime.all fun earliestTime => K.formatTime earliestTime ≤ row.sequencedAt)

def rawRequestSeqRange (rows : List RawRow) (opts : RequestSeqRangeOpts) :
    Except String (List RepoSeqModel) :=
  (applyLimit opts.limit (orderBySeq (rows.filter (rawInRange K opts)))).mapM (rawRepoSeqFromRow K)

/-- `INSERT`, with the primary key on the BLOB. -/
def rawInsert (rows : List RawRow) (row : RawRow) : Option (List RawRow) :=
  if ∀ x ∈ rows, x.seq ≠ row.seq then some (rows ++ [row]) else none

/-! ## Rows that hold ids -/

def Holds (rows : List RawRow) (t : RepoSeq) : Prop := rows.Perm (t.rows.map RepoSeqRow.raw)

variable {K} {rows : List RawRow} {t : RepoSeq}

theorem idOfBytes_toBytes (d : DbId) : idOfBytes d.toBytes.toList = some d := by
  rw [idOfBytes, dif_pos d.toBytes.toList_length]
  exact congrArg some (DbId.fromBytes_toBytes d)

theorem rawRepoSeqFromRow_raw (row : RepoSeqRow) :
    rawRepoSeqFromRow K row.raw = repoSeqFromRow K row := by
  rw [rawRepoSeqFromRow, RepoSeqRow.raw, idOfBytes_toBytes]
  rfl

theorem raw_seq_lt {d : DbId} {row : RepoSeqRow} :
    d.toBytes.toList < row.raw.seq ↔ d < row.seq :=
  DbId.toBytes_lt

theorem raw_seq_le {d : DbId} {row : RepoSeqRow} :
    row.raw.seq ≤ d.toBytes.toList ↔ row.seq ≤ d := by
  rw [← not_lt, ← raw_seq_lt]
  exact Iff.rfl

theorem toBytes_inj {d e : DbId} : d.toBytes.toList = e.toBytes.toList ↔ d = e := by
  constructor
  · intro h
    have hid := idOfBytes_toBytes d
    rw [h, idOfBytes_toBytes] at hid
    exact (Option.some.inj hid).symm
  · exact fun h => h ▸ rfl

theorem rawInRange_raw (opts : RequestSeqRangeOpts) (row : RepoSeqRow) :
    rawInRange K opts row.raw = inRange K opts row := by
  simp only [rawInRange, inRange, raw_seq_lt, raw_seq_le]
  rfl

/-- The raw rows of a table, in the order of their keys. -/
theorem pairwise_raw (t : RepoSeq) : (t.rows.map RepoSeqRow.raw).Pairwise fun a b => a.seq < b.seq :=
  List.pairwise_map.2 (t.sorted.imp fun {_ _} h => DbId.toBytes_lt.2 h)

/-- Sorting brings back the order of a list that is strictly sorted. -/
theorem mergeSort_of_perm {α : Type} {le : α → α → Bool}
    (trans : ∀ a b c, le a b = true → le b c = true → le a c = true)
    (total : ∀ a b, (le a b || le b a) = true) {l l' : List α} (h : l.Perm l')
    (hs : l'.Pairwise fun a b => le b a = false) : l.mergeSort le = l' := by
  -- two rows of the list that are each below the other are one row
  have hpair : ∀ {a b}, le b a = false → le a b = true → le b a = true → a = b := by
    intro a b hba _ hba'
    rw [hba] at hba'
    cases hba'
  have hanti : ∀ ⦃a⦄, a ∈ l' → ∀ ⦃b⦄, b ∈ l' → le a b = true → le b a = true → a = b :=
    List.Pairwise.forall_of_forall_of_flip (R := fun a b => le a b = true → le b a = true → a = b)
      (fun _ _ _ _ => rfl) (hs.imp hpair) (hs.imp fun h hba hab => (hpair h hab hba).symm)
  have hsorted : l'.Pairwise fun a b => le a b = true := by
    refine hs.imp fun {a b} hba => ?_
    have htotal := total a b
    rwa [hba, Bool.or_false] at htotal
  refine List.Perm.eq_of_pairwise (fun a b ha hb => ?_) (List.pairwise_mergeSort trans total l)
    hsorted ((List.mergeSort_perm l le).trans h)
  exact hanti (h.mem_iff.1 (List.mem_mergeSort.1 ha)) hb

theorem orderBySeq_perm {l l' : List RawRow} (h : l.Perm l')
    (hs : l'.Pairwise fun a b => a.seq < b.seq) : orderBySeq l = l' := by
  refine mergeSort_of_perm (fun a b c hab hbc => ?_) (fun a b => ?_) h
    (hs.imp fun {_ _} hab => decide_eq_false fun hba => hba hab)
  · exact decide_eq_true (List.le_trans (of_decide_eq_true hab) (of_decide_eq_true hbc))
  · rw [Bool.or_eq_true, decide_eq_true_eq, decide_eq_true_eq]
    exact List.le_total a.seq b.seq

theorem orderBySeqDesc_perm {l l' : List RawRow} (h : l.Perm l')
    (hs : l'.Pairwise fun a b => a.seq < b.seq) :
    (l.mergeSort fun a b => b.seq ≤ a.seq) = l'.reverse := by
  refine mergeSort_of_perm (fun a b c hab hbc => ?_) (fun a b => ?_)
    (h.trans (List.reverse_perm l').symm)
    (List.pairwise_reverse.2 (hs.imp fun {_ _} hab => decide_eq_false fun hba => hba hab))
  · exact decide_eq_true (List.le_trans (of_decide_eq_true hbc) (of_decide_eq_true hab))
  · rw [Bool.or_eq_true, decide_eq_true_eq, decide_eq_true_eq]
    exact List.le_total b.seq a.seq

theorem Holds.orderBySeq (h : Holds rows t) (p : RawRow → Bool) :
    orderBySeq (rows.filter p) = (t.rows.filter fun row => p row.raw).map RepoSeqRow.raw := by
  rw [orderBySeq_perm (h.filter p) ((pairwise_raw t).filter p), List.filter_map]
  rfl

/-! ## The statements answer what the queries answer -/

theorem Holds.curr (h : Holds rows t) : rawCurr rows = t.curr := by
  rw [rawCurr, orderBySeqDesc_perm h (pairwise_raw t), List.head?_reverse, List.getLast?_map,
    RepoSeq.curr]
  cases t.rows.getLast? with
  | none => rfl
  | some row => exact idOfBytes_toBytes row.seq

theorem Holds.nextSeq (h : Holds rows t) (cursor : DbId) :
    rawNextSeq K rows cursor = nextSeq K t cursor := by
  have hfind : ((t.rows.filter fun row => decide (cursor.toBytes.toList < row.raw.seq)).map
      RepoSeqRow.raw).head? = (t.rows.find? fun row => cursor < row.seq).map RepoSeqRow.raw := by
    rw [List.head?_map, List.head?_filter]
    simp only [raw_seq_lt]
  rw [rawNextSeq, h.orderBySeq, hfind, Sequencer.nextSeq]
  cases t.rows.find? fun row => cursor < row.seq with
  | none => rfl
  | some row =>
    show (rawRepoSeqFromRow K row.raw).map some = _
    rw [rawRepoSeqFromRow_raw]

theorem applyLimit_map {α β : Type} (limit : Option Int) (f : α → β) (xs : List α) :
    applyLimit limit (xs.map f) = (applyLimit limit xs).map f := by
  unfold applyLimit
  split
  · exact List.map_take.symm
  · rfl

theorem Holds.requestSeqRange (h : Holds rows t) (opts : RequestSeqRangeOpts) :
    rawRequestSeqRange K rows opts = requestSeqRange K t opts := by
  have hwhere : (fun row : RepoSeqRow => rawInRange K opts row.raw) = inRange K opts :=
    funext (rawInRange_raw opts)
  have hmodel : rawRepoSeqFromRow K ∘ RepoSeqRow.raw = repoSeqFromRow K :=
    funext rawRepoSeqFromRow_raw
  rw [rawRequestSeqRange, h.orderBySeq, hwhere, applyLimit_map, List.mapM_map, hmodel,
    Sequencer.requestSeqRange]

/-- An id is taken in the one where it is in the other. -/
theorem Holds.insert (h : Holds rows t) (row : RepoSeqRow) :
    (rawInsert rows row.raw = none ∧ t.insert row = none) ∨
      ∃ rows' t', rawInsert rows row.raw = some rows' ∧ t.insert row = some t' ∧ Holds rows' t' := by
  have hfree : (∀ x ∈ rows, x.seq ≠ row.raw.seq) ↔ ∀ x ∈ t.rows, x.seq ≠ row.seq := by
    have hmem : ∀ x, x ∈ rows ↔ ∃ y ∈ t.rows, y.raw = x := fun x => by
      rw [h.mem_iff, List.mem_map]
    constructor
    · exact fun hall y hy he => hall y.raw ((hmem _).2 ⟨y, hy, rfl⟩) (toBytes_inj.2 he)
    · rintro hall x hx he
      obtain ⟨y, hy, rfl⟩ := (hmem x).1 hx
      exact hall y hy (toBytes_inj.1 he)
  by_cases hnew : ∀ x ∈ t.rows, x.seq ≠ row.seq
  · have hperm := (insertRow_perm row t.rows).map RepoSeqRow.raw
    rw [List.map_cons] at hperm
    have hraw : rawInsert rows row.raw = some (rows ++ [row.raw]) := if_pos (hfree.2 hnew)
    have hid : t.insert row = some ⟨insertRow row t.rows, insertRow_sorted t.sorted hnew⟩ :=
      dif_pos hnew
    refine .inr ⟨_, _, hraw, hid, ?_⟩
    exact (List.perm_append_singleton row.raw rows).trans ((h.cons row.raw).trans hperm.symm)
  · exact .inl ⟨if_neg (mt hfree.1 hnew), dif_neg hnew⟩

/-! ## Sequences of statements -/

inductive SeqCall where
  | insert (row : RepoSeqRow)
  | curr
  | nextSeq (cursor : DbId)
  | requestSeqRange (opts : RequestSeqRangeOpts)

inductive SeqAnswer where
  | insert (done : Bool)
  | curr (seq : Option DbId)
  | nextSeq (row : Except String (Option RepoSeqModel))
  | requestSeqRange (rows : Except String (List RepoSeqModel))

variable (K) in
/-- A call on the rows as SQLite has them. -/
def callRows (rows : List RawRow) : SeqCall → SeqAnswer × List RawRow
  | .insert row => (.insert (rawInsert rows row.raw).isSome, (rawInsert rows row.raw).getD rows)
  | .curr => (.curr (rawCurr rows), rows)
  | .nextSeq cursor => (.nextSeq (rawNextSeq K rows cursor), rows)
  | .requestSeqRange opts => (.requestSeqRange (rawRequestSeqRange K rows opts), rows)

variable (K) in
/-- A call on the table of ids. -/
def callTable (t : RepoSeq) : SeqCall → SeqAnswer × RepoSeq
  | .insert row => (.insert (t.insert row).isSome, (t.insert row).getD t)
  | .curr => (.curr t.curr, t)
  | .nextSeq cursor => (.nextSeq (nextSeq K t cursor), t)
  | .requestSeqRange opts => (.requestSeqRange (requestSeqRange K t opts), t)

theorem refines_callRows : Machine.Refines Holds (callRows K) (callTable K) := by
  intro rows t call h
  cases call with
  | insert row =>
    rcases h.insert row with ⟨hraw, hid⟩ | ⟨rows', t', hraw, hid, h'⟩
    · simp only [callRows, callTable, hraw, hid]
      exact ⟨rfl, h⟩
    · simp only [callRows, callTable, hraw, hid]
      exact ⟨rfl, h'⟩
  | curr => exact ⟨congrArg SeqAnswer.curr h.curr, h⟩
  | nextSeq cursor => exact ⟨congrArg SeqAnswer.nextSeq (h.nextSeq cursor), h⟩
  | requestSeqRange opts => exact ⟨congrArg SeqAnswer.requestSeqRange (h.requestSeqRange opts), h⟩

/-- **Whatever order its rows lie in, a table of BLOB keys answers every sequence of inserts and queries
as the table of ids.** -/
theorem callRows_answers (K : Codecs) {rows : List RawRow} {t : RepoSeq} (h : Holds rows t)
    (calls : List SeqCall) :
    Machine.answers (callRows K) rows calls = Machine.answers (callTable K) t calls :=
  refines_callRows.answers_eq h calls

def zeroRow : RepoSeqRow := ⟨⟨0, DbId.zero_isLt⟩, "did:plc:a", "append", [], some 0, "t"⟩

def oneRow : RepoSeqRow := ⟨⟨1, DbId.one_isLt⟩, "did:plc:b", "append", [], some 0, "t"⟩

theorem pairwise_zeroOne : [zeroRow, oneRow].Pairwise fun a b => a.seq < b.seq := by decide

/-- The later row comes first. -/
theorem callRows_answers_two :
    Machine.answers (callRows sampleCodecs) [oneRow.raw, zeroRow.raw] [.curr, .insert oneRow] =
      Machine.answers (callTable sampleCodecs) ⟨[zeroRow, oneRow], pairwise_zeroOne⟩
        [.curr, .insert oneRow] :=
  callRows_answers sampleCodecs (t := ⟨[zeroRow, oneRow], pairwise_zeroOne⟩) (List.Perm.swap _ _ _) _

end CacosPds.Sequencer
