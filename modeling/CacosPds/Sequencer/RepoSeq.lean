import CacosPds.Sequencer.Events
/-!
# The `repo_seq` table (`cacos-pds-sequencer/src/mod.rs:144-219`)

| here | there |
| --- | --- |
| `RepoSeq`         | the `repo_seq` table, its primary key `seq` as an invariant: rows in strict id order |
| `RepoSeq.insert`  | `repo_seq::Entity::insert(..)`; `none` is a primary key conflict |
| `requestSeqRange` | `request_seq_range_inner` (`mod.rs:144`) |

SQLite compares the ids' big-endian bytes and the UTF-8 text of `sequencedAt`; both are the order of
the values here. One row that `repo_seq_from_row` rejects fails the whole query (`mod.rs:184-186`).
-/
namespace CacosPds.Sequencer

/-- Rows in the order of the primary key. -/
structure RepoSeq where
  rows : List RepoSeqRow
  sorted : rows.Pairwise fun a b => a.seq < b.seq

/-- Put a row at its place in the key order. -/
def insertRow (r : RepoSeqRow) : List RepoSeqRow → List RepoSeqRow
  | [] => [r]
  | x :: xs => if r.seq < x.seq then r :: x :: xs else x :: insertRow r xs

theorem insertRow_perm (r : RepoSeqRow) (xs : List RepoSeqRow) : (insertRow r xs).Perm (r :: xs) := by
  induction xs with
  | nil => exact .refl _
  | cons x xs ih =>
    rw [insertRow]
    split
    · exact .refl _
    · exact (ih.cons x).trans (.swap r x xs)

theorem mem_insertRow {r x : RepoSeqRow} {xs : List RepoSeqRow} :
    x ∈ insertRow r xs ↔ x = r ∨ x ∈ xs := by
  rw [(insertRow_perm r xs).mem_iff, List.mem_cons]

theorem insertRow_sorted {r : RepoSeqRow} {xs : List RepoSeqRow}
    (hs : xs.Pairwise fun a b => a.seq < b.seq) (hr : ∀ x ∈ xs, x.seq ≠ r.seq) :
    (insertRow r xs).Pairwise fun a b => a.seq < b.seq := by
  induction xs with
  | nil => simp [insertRow]
  | cons x xs ih =>
    obtain ⟨hx, hxs⟩ := List.pairwise_cons.1 hs
    rw [insertRow]
    split
    · rename_i hlt
      refine List.pairwise_cons.2 ⟨fun y hy => ?_, hs⟩
      rcases List.mem_cons.1 hy with rfl | hy
      · exact hlt
      · exact Nat.lt_trans hlt (hx y hy)
    · rename_i hlt
      refine List.pairwise_cons.2 ⟨fun y hy => ?_, ih hxs fun y hy => hr y (List.mem_cons_of_mem x hy)⟩
      rcases mem_insertRow.1 hy with rfl | hy
      · have hne : x.seq.val ≠ y.seq.val := fun h =>
          hr x List.mem_cons_self (by cases hx' : x.seq; cases hy' : y.seq; simp_all)
        have := Nat.le_of_not_lt hlt
        rw [DbId.lt_def]
        omega
      · exact hx y hy

namespace RepoSeq

def empty : RepoSeq := ⟨[], .nil⟩

/-- `INSERT INTO repo_seq`; `none`: the id is taken. -/
def insert (t : RepoSeq) (r : RepoSeqRow) : Option RepoSeq :=
  if h : ∀ x ∈ t.rows, x.seq ≠ r.seq then some ⟨insertRow r t.rows, insertRow_sorted t.sorted h⟩
  else none

theorem insert_rows {t t' : RepoSeq} {r : RepoSeqRow} (h : t.insert r = some t') :
    t'.rows = insertRow r t.rows := by
  unfold insert at h
  split at h
  · cases h; rfl
  · cases h

theorem mem_insert {t t' : RepoSeq} {r x : RepoSeqRow} (h : t.insert r = some t') :
    x ∈ t'.rows ↔ x = r ∨ x ∈ t.rows := by
  rw [insert_rows h, mem_insertRow]

/-- An id above all of the table's is free. -/
theorem insert_of_lt {t : RepoSeq} {r : RepoSeqRow} (h : ∀ x ∈ t.rows, x.seq < r.seq) :
    ∃ t', t.insert r = some t' := by
  refine ⟨_, dif_pos fun x hx hxr => ?_⟩
  have := h x hx
  rw [hxr, DbId.lt_def] at this
  omega

end RepoSeq

/-! ## The range query -/

/-- `RequestSeqRangeOpts` (`mod.rs:39`). -/
structure RequestSeqRangeOpts where
  earliestSeq : Option DbId := none
  latestSeq : Option DbId := none
  earliestTime : Option Instant := none
  limit : Option Int := none

/-- The `WHERE` clause (`mod.rs:156-177`). -/
def inRange (K : Codecs) (opts : RequestSeqRangeOpts) (row : RepoSeqRow) : Bool :=
  row.invalidated = some 0 &&
    (opts.earliestSeq.all fun earliestSeq => earliestSeq < row.seq) &&
    (opts.latestSeq.all fun latestSeq => row.seq ≤ latestSeq) &&
    (opts.earliestTime.all fun earliestTime => K.formatTime earliestTime ≤ row.sequencedAt)

/-- `LIMIT ?`: a negative limit is no limit. -/
def applyLimit {α : Type} (limit : Option Int) (xs : List α) : List α :=
  match limit with
  | some (.ofNat n) => xs.take n
  | _ => xs

/-- `request_seq_range` (`mod.rs:134-188`). -/
def requestSeqRange (K : Codecs) (t : RepoSeq) (opts : RequestSeqRangeOpts) :
    Except String (List RepoSeqModel) :=
  (applyLimit opts.limit (t.rows.filter (inRange K opts))).mapM (repoSeqFromRow K)

variable {K : Codecs}

/-- The row passes `repo_seq_from_row`. -/
def Parses (K : Codecs) (row : RepoSeqRow) : Prop := ∃ m, repoSeqFromRow K row = .ok m

/-- A query whose rows all parse returns their models in order; one that does not parse fails it. -/
theorem mapM_repoSeqFromRow (rows : List RepoSeqRow) :
    ((∀ row ∈ rows, Parses K row) ∧ ∃ ms, rows.mapM (repoSeqFromRow K) = .ok ms ∧
      List.Forall₂ (fun row m => repoSeqFromRow K row = .ok m) rows ms) ∨
    ((∃ row ∈ rows, ¬ Parses K row) ∧ ∃ e, rows.mapM (repoSeqFromRow K) = .error e) := by
  induction rows with
  | nil => exact .inl ⟨by simp, [], rfl, .nil⟩
  | cons row rows ih =>
    simp only [List.mapM_cons]
    cases hrow : repoSeqFromRow K row with
    | error e =>
      have hbad : ¬ Parses K row := by
        rintro ⟨m, hm⟩
        rw [hrow] at hm
        cases hm
      exact .inr ⟨⟨row, List.mem_cons_self, hbad⟩, e, rfl⟩
    | ok m =>
      rcases ih with ⟨hp, ms, hms, hall⟩ | ⟨⟨bad, hmem, hbad⟩, e, herr⟩
      · refine .inl ⟨?_, m :: ms, by rw [hms]; rfl, .cons hrow hall⟩
        intro r hr
        rcases List.mem_cons.1 hr with rfl | hr
        · exact ⟨m, hrow⟩
        · exact hp r hr
      · exact .inr ⟨⟨bad, List.mem_cons_of_mem row hmem, hbad⟩, e, by rw [herr]; rfl⟩

end CacosPds.Sequencer
