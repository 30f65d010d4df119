import Mathlib.Data.List.TakeWhile
import CacosPds.ActorStore.Listings
import CacosPds.ActorStore.RecordBlobs
import CacosPds.Lib.UniqueIndex
/-!
# Record readers (`cacos-pds-actor-store/src/record/mod.rs:141-480`)

| here | there |
| --- | --- |
| `recordCount`, `listCollections` | `record_count`, `list_collections` (`:141`, `:151`) |
| `getRecord`, `hasRecord` | `get_record`, `has_record` (`:168`, `:195`); `_rev` and `_include_dead` are not read |
| `getCurrentRecordCid` | `get_current_record_cid` (`:215`); the CID column is held parsed |
| `getRecordTakedownStatus`, `updateRecordTakedownStatus` | `:365`, `:381` |
| `listRecordsForCollection` | `list_records_for_collection` (`:403`) |
| `RecordCall` | what a run does to the table: `process_writes`, failing or not, and takedowns |

The readers look at the `record` table, the repo is in the blocks. `answersRepo_iff_whole` says when
the one answers for the other, `takedown_kept_iff` how long a takedown lasts.
-/
namespace CacosPds.ActorStore

open Stages

/-! ## The readers -/

structure GetRecord where
  uri : AtUri
  cid : Cid
  collection : String
  rkey : String
  repoRev : String
  indexedAt : String
  takedownRef : Option String
  value : Option Bytes
  deriving DecidableEq

/-- The row of a URI as the readers give it; the value is never read. -/
def GetRecord.ofRow (uri : AtUri) (m : RecordRow) : GetRecord where
  uri := uri
  cid := m.cid
  collection := uri.collection
  rkey := uri.rkey
  repoRev := m.repoRev
  indexedAt := m.indexedAt
  takedownRef := m.takedownRef
  value := none

/-- A query: its error, or what it reads. -/
def query {α : Type} (err : Option String) (context : String) (found : α) : Except PdsError α :=
  match err with
  | some e => .error (.internal context e)
  | none => .ok found

def recordCount (err : Option String) (s : Store) : Except PdsError Nat :=
  query err "RecordReader::record_count: find().count failed" s.record.keys.card

/-- `SELECT DISTINCT collection FROM record ORDER BY collection`. -/
def listCollections (err : Option String) (s : Store) : Except PdsError (List String) :=
  query err "RecordReader::list_collections: query_all_raw failed"
    (s.record.keys.image AtUri.collection).sort

def getRecord (err : Option String) (s : Store) (uri : AtUri) :
    Except PdsError (Option GetRecord) :=
  query err "RecordReader::get_record: find_by_id failed"
    ((s.record.lookup uri).map (GetRecord.ofRow uri))

/-- `WHERE collection = ? AND rkey = ?`. -/
def named (collection rkey : String) (uri : AtUri) (_ : RecordRow) : Bool :=
  uri.collection = collection ∧ uri.rkey = rkey

def hasRecord (err : Option String) (s : Store) (collection rkey : String) : Except PdsError Bool :=
  query err "RecordReader::has_record: count failed"
    (decide (0 < (s.record.rows (named collection rkey)).length))

def getCurrentRecordCid (err : Option String) (s : Store) (collection rkey : String) :
    Except PdsError (Option Cid) :=
  query err "RecordReader::get_current_record_cid: find failed"
    ((s.record.one (named collection rkey)).map fun m => m.2.cid)

/-- `WHERE collection = ? ORDER BY rkey`, descending if `reverse`. -/
def recordsOf (s : Store) (collection : String) (reverse : Bool) : List (AtUri × RecordRow) :=
  if reverse then
    s.record.selectBy (fun uri _ => uri.collection = collection)
      (fun uri _ => toLex (OrderDual.toDual uri.rkey, uri)) fun o => (ofLex o).2
  else
    s.record.selectBy (fun uri _ => uri.collection = collection)
      (fun uri _ => toLex (uri.rkey, uri)) fun o => (ofLex o).2

def listRecordsForCollection (err : Option String) (s : Store) (collection : String)
    (limit : Option Nat) (reverse : Option Bool) : Except PdsError (List GetRecord) :=
  let rows := recordsOf s collection (reverse.getD false)
  query err "RecordReader::list_records_for_collection: find failed"
    ((limit.elim rows rows.take).map fun m => GetRecord.ofRow m.1 m.2)

def getRecordTakedownStatus (err : Option String) (s : Store) (uri : AtUri) :
    Except PdsError (Option String) :=
  query err "RecordReader::get_record_takedown_status: find_by_id failed"
    ((s.record.lookup uri).bind RecordRow.takedownRef)

/-- `UPDATE record SET "takedownRef" = ? WHERE uri = ?`, refused when it updates no row. -/
def updateRecordTakedownStatus (err : Option String) (uri : AtUri) (takedownRef : Option String) :
    Call Unit :=
  let failed := PdsError.internal "RecordReader::update_record_takedown_status: update failed"
  do
    access err failed
    let s ← get
    match s.record.lookup uri with
    | none => throw (failed "None of the records are updated")
    | some row => set { s with record := s.record.insert uri { row with takedownRef } }

/-! ## Runs -/

/-- A call that writes the `record` table. -/
inductive RecordCall where
  | processWrites (call : WriteCall)
  | updateRecordTakedownStatus (err : Option String) (uri : AtUri) (takedownRef : Option String)

/-- What a call leaves, whether it returns or fails. -/
def recordStep (U : RepoLib) (s : Store) : RecordCall → Option Store
  | .processWrites c => some ((processWrites U c.faults c.now c.writes c.swapCommit).exec s).2
  | .updateRecordTakedownStatus err uri takedownRef =>
    some ((updateRecordTakedownStatus err uri takedownRef).exec s).2

/-- The writes that the index pass gets to before its first failing statement. -/
def indexedPart (F : Faults) (writes : List PreparedWrite) : List (PreparedWrite × Nat) :=
  writes.zipIdx.takeWhile fun wn => F (.indexWrite wn.2) = none

theorem indexedPart_of_runs {F : Faults} {writes : List PreparedWrite} (h : IndexRuns F writes) :
    indexedPart F writes = writes.zipIdx := by
  rw [indexedPart, List.takeWhile_eq_self_iff]
  intro wn hwn
  obtain ⟨n, hn⟩ := List.mem_iff_getElem?.1 hwn
  obtain ⟨hw, rfl⟩ := getElem?_zipIdx_eq_some.1 hn
  exact decide_eq_true (indexRuns_iff.1 h _ _ hw)

theorem indexedPart_of_fails {F : Faults} {writes : List PreparedWrite} {n : Nat}
    (hn : n < writes.length) (hfail : F (.indexWrite n) ≠ none)
    (hbefore : ∀ m < n, F (.indexWrite m) = none) :
    indexedPart F writes = writes.zipIdx.take n := by
  have hlen : n < writes.zipIdx.length := by rwa [List.length_zipIdx]
  have hat : writes.zipIdx[n] = (writes[n], n) := by simp
  have hsplit : writes.zipIdx =
      writes.zipIdx.take n ++ (writes[n], n) :: writes.zipIdx.drop (n + 1) := by
    rw [← hat, ← List.drop_eq_getElem_cons hlen, List.take_append_drop]
  calc indexedPart F writes
      = (writes.zipIdx.take n ++ (writes[n], n) :: writes.zipIdx.drop (n + 1)).takeWhile
          fun wn => F (.indexWrite wn.2) = none := by rw [← hsplit, indexedPart]
    _ = writes.zipIdx.take n := ?_
  rw [List.takeWhile_append_of_pos, List.takeWhile_cons_of_neg, List.append_nil]
  · simpa using hfail
  · intro wn hwn
    obtain ⟨m, hm⟩ := List.mem_iff_getElem?.1 hwn
    rw [List.getElem?_take] at hm
    split at hm
    · obtain ⟨-, rfl⟩ := getElem?_zipIdx_eq_some.1 hm
      exact decide_eq_true (hbefore _ ‹_›)
    · cases hm

/-- The index pass and the commit both work. -/
def Commits (F : Faults) (writes : List PreparedWrite) : Prop :=
  IndexRuns F writes ∧ F .applyCommit = none

/-- A batch that `format_commit` takes has indexed the writes it got to, and moved the repo only if
it got through. -/
structure Left (c : WriteCall) (r : CommitDataWithOps) (s t : Store) : Prop where
  record : t.record = (indexAll c.now r.commitData.rev (indexedPart c.faults c.writes) s).record
  moved : Commits c.faults c.writes → t.repo = r.commitData.repo
  stayed : ¬ Commits c.faults c.writes → t.repo = s.repo

theorem left_of_committed {c : WriteCall} {r : CommitDataWithOps} {s t : Store}
    (hc : Commits c.faults c.writes) (h : SameRepo (committed c.now c.writes r s) t) :
    Left c r s t where
  record := by rw [h.record, indexedPart_of_runs hc.1]; rfl
  moved _ := h.repo
  stayed hn := absurd hc hn

theorem left_of_stopped {c : WriteCall} {r : CommitDataWithOps} {s t : Store}
    (hn : ¬ Commits c.faults c.writes)
    (h : t = indexAll c.now r.commitData.rev (indexedPart c.faults c.writes) s) : Left c r s t where
  record := by rw [h]
  moved hc := absurd hc hn
  stayed _ := by rw [h, indexAll_eq]

/-- A call is refused before it writes, or leaves what `Left` says. -/
theorem processWrites_leaves (U : RepoLib) (c : WriteCall) {s t : Store}
    (h : recordStep U s (.processWrites c) = some t) :
    (∃ e, formatCommit U c.faults s c.writes c.swapCommit = .error e ∧ t = s) ∨
      ∃ r, formatCommit U c.faults s c.writes c.swapCommit = .ok r ∧ Left c r s t := by
  obtain rfl := Option.some.inj h
  rcases hx : (processWrites U c.faults c.now c.writes c.swapCommit).exec s with ⟨e | r, t⟩
  · rcases processWrites_error hx with ⟨hf, rfl⟩ | ⟨r, hf, hstage⟩
    · exact .inl ⟨e, hf, rfl⟩
    refine .inr ⟨r, hf, ?_⟩
    rcases hstage with ⟨n, hn, hfail, hbefore, rfl⟩ | ⟨hi, hfail, rfl⟩ | ⟨hi, ha, -⟩
    · refine left_of_stopped (fun hc => hfail (hc.1 n hn)) ?_
      rw [indexedPart_of_fails hn hfail hbefore]
    · refine left_of_stopped (fun hc => hfail hc.2) ?_
      rw [indexedPart_of_runs hi]
    · have hsame := processWrites_sameRepo c.now hf hi ha
      rw [hx] at hsame
      exact left_of_committed ⟨hi, ha⟩ hsame
  · obtain ⟨hf, hi, ha, -⟩ := processWrites_ok.1 hx
    have hsame := processWrites_sameRepo c.now hf hi ha
    rw [hx] at hsame
    exact .inr ⟨r, hf, left_of_committed ⟨hi, ha⟩ hsame⟩

/-- A takedown writes the mark of one row, or nothing where it fails. -/
theorem takedown_leaves {U : RepoLib} {err : Option String} {uri : AtUri}
    {takedownRef : Option String} {s t : Store}
    (h : recordStep U s (.updateRecordTakedownStatus err uri takedownRef) = some t) :
    t = s ∨ ∃ row, err = none ∧ s.record.lookup uri = some row ∧
      t = { s with record := s.record.insert uri { row with takedownRef } } := by
  obtain rfl := Option.some.inj h
  unfold updateRecordTakedownStatus
  rw [exec_bind, exec_access]
  cases err with
  | some e => exact .inl rfl
  | none =>
    dsimp only [Option.elim_none]
    rw [exec_bind, exec_get]
    cases hrow : s.record.lookup uri with
    | none => left; simp only [hrow]; rfl
    | some row => right; refine ⟨row, rfl, rfl, ?_⟩; simp only [hrow]; rfl

/-! ## The index and the repo -/

/-- The tree has paths of records only. -/
def Store.PathsAreRecords (s : Store) : Prop := ∀ p ∈ s.repo.tree, ∃ u : AtUri, u.dataKey = p

/-- The record index holds what the repo's tree holds, and the tree nothing else. -/
structure Agrees (s : Store) : Prop where
  index : s.IndexAgrees
  paths : s.PathsAreRecords

/-- The writes of an index pass on the CIDs: the last one to each URI leaves what was there. -/
def NoTrace (s : Store) (writes : List PreparedWrite) : Prop :=
  ∀ u w, lastWrite writes u = some w → w.newCid = s.indexed u

/-- A batch that is taken gets through to its commit, or stops where what it has indexed shows in no
CID. -/
def Whole (U : RepoLib) (s : Store) : RecordCall → Prop
  | .processWrites c => (∃ r, formatCommit U c.faults s c.writes c.swapCommit = .ok r) →
      Commits c.faults c.writes ∨ NoTrace s ((indexedPart c.faults c.writes).map Prod.fst)
  | .updateRecordTakedownStatus .. => True

theorem indexed_left {c : WriteCall} {r : CommitDataWithOps} {s t : Store} (h : Left c r s t)
    (u : AtUri) : t.indexed u =
      ((lastWrite ((indexedPart c.faults c.writes).map Prod.fst) u).map PreparedWrite.newCid).getD
        (s.indexed u) := by
  rw [Store.indexed, h.record]
  exact indexed_indexAll c.now r.commitData.rev (indexedPart c.faults c.writes) s u

theorem indexed_eq_iff_noTrace {c : WriteCall} {r : CommitDataWithOps} {s t : Store}
    (h : Left c r s t) : (∀ u, t.indexed u = s.indexed u) ↔
      NoTrace s ((indexedPart c.faults c.writes).map Prod.fst) := by
  simp only [indexed_left h]
  constructor
  · intro hsame u w hw
    have hu := hsame u
    rwa [hw, Option.map_some, Option.getD_some] at hu
  · intro hno u
    cases hw : lastWrite ((indexedPart c.faults c.writes).map Prod.fst) u with
    | none => rfl
    | some w => exact hno u w hw

/-- The paths of a written tree are old ones or those of the batch. -/
theorem mem_foldl_applyWrite {writes : List PreparedWrite} {t : Tree} {p : String}
    (h : p ∈ writes.foldl applyWrite t) : p ∈ t ∨ ∃ w ∈ writes, w.uri.dataKey = p := by
  by_cases hw : ∃ w ∈ writes, w.uri.dataKey = p
  · exact .inr hw
  · left
    rw [← Finmap.lookup_isSome] at h ⊢
    rwa [lookup_foldl_other fun w hmem he => hw ⟨w, hmem, he⟩] at h

section

variable {U : RepoLib} {s t : Store} {call : RecordCall}

/-- A takedown changes no CID and no path. -/
theorem agrees_of_takedown {err : Option String} {uri : AtUri} {takedownRef : Option String}
    (h : recordStep U s (.updateRecordTakedownStatus err uri takedownRef) = some t)
    (hs : Agrees s) : Agrees t := by
  rcases takedown_leaves h with rfl | ⟨row, -, hrow, rfl⟩
  · exact hs
  refine ⟨fun u => ?_, hs.paths⟩
  rw [Store.indexed, Sql.Table.lookup_insert_eq]
  split
  · subst u
    exact (congrArg (Option.map RecordRow.cid) hrow).symm.trans (hs.index uri)
  · exact hs.index u

/-- The repo of a batch that gets through is the old one with the writes. -/
theorem tree_of_left (hU : U.AppliesInOrder) {c : WriteCall} {r : CommitDataWithOps}
    (hf : formatCommit U c.faults s c.writes c.swapCommit = .ok r) (h : Left c r s t)
    (hc : Commits c.faults c.writes) : t.repo.tree = c.writes.foldl applyWrite s.repo.tree := by
  obtain ⟨root, commit, hacc, rfl⟩ := formatCommit_ok.1 hf
  rw [h.moved hc]
  exact (hU.tree hacc.formatted).2

theorem paths_of_left (hU : U.AppliesInOrder) {c : WriteCall} {r : CommitDataWithOps}
    (hf : formatCommit U c.faults s c.writes c.swapCommit = .ok r) (h : Left c r s t)
    (hs : s.PathsAreRecords) : t.PathsAreRecords := by
  by_cases hc : Commits c.faults c.writes
  · intro p hp
    rw [tree_of_left hU hf h hc] at hp
    rcases mem_foldl_applyWrite hp with hp | ⟨w, -, hw⟩
    · exact hs p hp
    · exact ⟨w.uri, hw⟩
  · intro p hp
    exact hs p (h.stayed hc ▸ hp)

/-- No call brings a path that is not a record's. -/
theorem paths_recordStep (hU : U.AppliesInOrder) (h : recordStep U s call = some t)
    (hs : s.PathsAreRecords) : t.PathsAreRecords := by
  cases call with
  | updateRecordTakedownStatus err uri takedownRef =>
    rcases takedown_leaves h with rfl | ⟨row, -, -, rfl⟩
    · exact hs
    · exact hs
  | processWrites c =>
    rcases processWrites_leaves U c h with ⟨e, hf, rfl⟩ | ⟨r, hf, hleft⟩
    · exact hs
    · exact paths_of_left hU hf hleft hs

theorem agrees_of_left (hU : U.AppliesInOrder) {c : WriteCall} {r : CommitDataWithOps}
    (hf : formatCommit U c.faults s c.writes c.swapCommit = .ok r) (h : Left c r s t)
    (hs : Agrees s) : Agrees t ↔
      Commits c.faults c.writes ∨ NoTrace s ((indexedPart c.faults c.writes).map Prod.fst) := by
  by_cases hc : Commits c.faults c.writes
  · -- the repo moves with the index
    refine iff_of_true ⟨fun u => ?_, paths_of_left hU hf h hs.paths⟩ (.inl hc)
    rw [indexed_left h, indexedPart_of_runs hc.1, List.zipIdx_map_fst,
      tree_of_left hU hf h hc, lookup_foldl_applyWrite, hs.index u]
  · -- the repo stays, so the index has to
    have hrepo := h.stayed hc
    rw [or_iff_right hc, ← indexed_eq_iff_noTrace h]
    constructor
    · intro ht u
      rw [ht.index u, hs.index u, hrepo]
    · intro hsame
      exact ⟨fun u => by rw [hsame u, hs.index u, hrepo], paths_of_left hU hf h hs.paths⟩

theorem agrees_iff_whole (hU : U.AppliesInOrder) (h : recordStep U s call = some t)
    (hs : Agrees s) : Agrees t ↔ Whole U s call := by
  cases call with
  | updateRecordTakedownStatus err uri takedownRef =>
    exact iff_of_true (agrees_of_takedown h hs) trivial
  | processWrites c =>
    rcases processWrites_leaves U c h with ⟨e, hf, rfl⟩ | ⟨r, hf, hleft⟩
    · refine iff_of_true hs ?_
      rintro ⟨r, hr⟩
      rw [hf] at hr
      cases hr
    · rw [agrees_of_left hU hf hleft hs]
      exact ⟨fun hw _ => hw, fun hw => hw ⟨r, hf⟩⟩

end

/-! ## What the readers answer -/

/-- The records of a collection in the tree: rkeys ascending, with their CIDs. -/
structure ListsCollection (tree : Tree) (collection : String) (rows : List (String × Cid)) :
    Prop where
  mem_iff : ∀ rkey cid, (rkey, cid) ∈ rows ↔
    tree.lookup (formatDataKey collection rkey) = some cid
  ascending : rows.Pairwise fun a b => a.1 < b.1

/-- The readers answer for the repo's tree. -/
structure AnswersRepo (s : Store) : Prop where
  recordCount : recordCount none s = .ok s.repo.tree.keys.card
  listCollections : ∃ cs, listCollections none s = .ok cs ∧ cs.Pairwise (· < ·) ∧
    ∀ c, c ∈ cs ↔ ∃ u : AtUri, u.collection = c ∧ u.dataKey ∈ s.repo.tree
  getRecord : ∀ u : AtUri, (getRecord none s u).map (Option.map GetRecord.cid) =
    .ok (s.repo.tree.lookup u.dataKey)
  hasRecord : ∀ u : AtUri, hasRecord none s u.collection u.rkey =
    .ok (decide (u.dataKey ∈ s.repo.tree))
  getCurrentRecordCid : ∀ u : AtUri, getCurrentRecordCid none s u.collection u.rkey =
    .ok (s.repo.tree.lookup u.dataKey)
  /-- Every listing is the front of one list of the collection's records, or of its reverse. -/
  listRecords : ∀ c, '/' ∉ c.toList → ∃ rows, ListsCollection s.repo.tree c rows ∧
    ∀ limit reverse, (listRecordsForCollection none s c limit reverse).map
        (List.map fun m => (m.rkey, m.cid)) =
      .ok (let listed := if reverse.getD false then rows.reverse else rows
        limit.elim listed listed.take)

theorem mem_record_iff {s : Store} (hs : s.IndexAgrees) (u : AtUri) :
    u ∈ s.record ↔ u.dataKey ∈ s.repo.tree := by
  rw [← Finmap.lookup_isSome, ← Finmap.lookup_isSome, ← hs u, Store.indexed, Option.isSome_map]

/-- The paths of the tree are those of the rows. -/
theorem Agrees.keys {s : Store} (hs : Agrees s) :
    s.repo.tree.keys = s.record.keys.image AtUri.dataKey := by
  ext p
  rw [Finmap.mem_keys, Finset.mem_image]
  constructor
  · intro hp
    obtain ⟨u, rfl⟩ := hs.paths p hp
    exact ⟨u, Finmap.mem_keys.2 ((mem_record_iff hs.index u).2 hp), rfl⟩
  · rintro ⟨u, hu, rfl⟩
    exact (mem_record_iff hs.index u).1 (Finmap.mem_keys.1 hu)

theorem named_iff {u v : AtUri} {row : RecordRow} :
    named u.collection u.rkey v row = true ↔ v = u := by
  rw [named, decide_eq_true_eq]
  constructor
  · rintro ⟨hc, hr⟩
    exact AtUri.dataKey_injective (by rw [AtUri.dataKey, AtUri.dataKey, hc, hr])
  · rintro rfl
    exact ⟨rfl, rfl⟩

/-- Collection and rkey select the row of their URI. -/
theorem one_named (s : Store) (u : AtUri) :
    s.record.one (named u.collection u.rkey) = (s.record.lookup u).map (u, ·) := by
  cases hrow : s.record.lookup u with
  | none =>
    refine Sql.Table.one_eq_none.2 fun v row hv => Bool.eq_false_iff.2 fun hn => ?_
    rw [named_iff.1 hn, hrow] at hv
    cases hv
  | some row =>
    exact Sql.Table.one_eq_some_of_unique hrow (named_iff.2 rfl) fun v row' _ hn => named_iff.1 hn

theorem rows_named_pos (s : Store) (u : AtUri) :
    0 < (s.record.rows (named u.collection u.rkey)).length ↔ u ∈ s.record := by
  rw [List.length_pos_iff, ne_eq, ← List.head?_eq_none_iff]
  show ¬ s.record.one (named u.collection u.rkey) = none ↔ _
  rw [one_named, Option.map_eq_none_iff, Finmap.lookup_eq_none, not_not]

/-! ### Listings -/

theorem mem_recordsOf {s : Store} {c : String} {reverse : Bool} {u : AtUri} {row : RecordRow} :
    (u, row) ∈ recordsOf s c reverse ↔ s.record.lookup u = some row ∧ u.collection = c := by
  unfold recordsOf
  split
  · rw [Sql.Table.mem_selectBy fun _ _ => rfl, decide_eq_true_eq]
  · rw [Sql.Table.mem_selectBy fun _ _ => rfl, decide_eq_true_eq]

/-- Two URIs of a collection with one rkey are one. -/
theorem eq_of_rkey {s : Store} {c : String} (reverse : Bool) {a b : AtUri × RecordRow}
    (ha : a ∈ recordsOf s c reverse) (hb : b ∈ recordsOf s c reverse) (h : a.1.rkey = b.1.rkey) :
    a.1 = b.1 := by
  have hc := (mem_recordsOf.1 ha).2.trans (mem_recordsOf.1 hb).2.symm
  exact AtUri.dataKey_injective (by rw [AtUri.dataKey, AtUri.dataKey, hc, h])

theorem pairwise_recordsOf (s : Store) (c : String) :
    (recordsOf s c false).Pairwise fun a b => a.1.rkey < b.1.rkey := by
  refine List.Pairwise.imp_of_mem ?_ (Sql.Table.pairwise_selectBy (fun _ _ => rfl) s.record)
  intro a b ha hb hab
  rcases Prod.Lex.toLex_lt_toLex.1 hab with hlt | ⟨he, hlt⟩
  · exact hlt
  · exact absurd (eq_of_rkey false ha hb he) hlt.ne

theorem pairwise_recordsOf_reverse (s : Store) (c : String) :
    (recordsOf s c true).Pairwise fun a b => b.1.rkey < a.1.rkey := by
  refine List.Pairwise.imp_of_mem ?_ (Sql.Table.pairwise_selectBy (fun _ _ => rfl) s.record)
  intro a b ha hb hab
  rcases Prod.Lex.toLex_lt_toLex.1 hab with hlt | ⟨he, hlt⟩
  · exact OrderDual.toDual_lt_toDual.1 hlt
  · exact absurd (eq_of_rkey true ha hb (OrderDual.toDual.injective he)) hlt.ne

/-- `ORDER BY rkey DESC` is the ascending order backwards: no two rkeys of a collection are one. -/
theorem recordsOf_reverse (s : Store) (c : String) :
    recordsOf s c true = (recordsOf s c false).reverse := by
  have hcoe : (recordsOf s c true : Multiset (AtUri × RecordRow)) = recordsOf s c false :=
    (Sql.Table.selectBy_coe (fun _ _ => rfl) s.record).trans
      (Sql.Table.selectBy_coe (fun _ _ => rfl) s.record).symm
  have hperm : (recordsOf s c true).Perm (recordsOf s c false).reverse :=
    (Multiset.coe_eq_coe.1 hcoe).trans (List.reverse_perm _).symm
  refine List.Perm.eq_of_pairwise ?_ (pairwise_recordsOf_reverse s c)
    (List.pairwise_reverse.2 (pairwise_recordsOf s c)) hperm
  intro a b _ _ hab hba
  exact absurd hba (lt_asymm hab)

theorem Agrees.listsCollection {s : Store} (hs : Agrees s) {c : String} (hc : '/' ∉ c.toList) :
    ListsCollection s.repo.tree c ((recordsOf s c false).map fun m => (m.1.rkey, m.2.cid)) where
  mem_iff rkey cid := by
    have hcid := hs.index ⟨c, rkey, hc⟩
    rw [List.mem_map, show formatDataKey c rkey = (AtUri.mk c rkey hc).dataKey from rfl, ← hcid,
      Store.indexed, Option.map_eq_some_iff]
    constructor
    · rintro ⟨⟨u, row⟩, hm, he⟩
      cases he
      obtain ⟨hrow, rfl⟩ := mem_recordsOf.1 hm
      exact ⟨row, hrow, rfl⟩
    · rintro ⟨row, hrow, rfl⟩
      exact ⟨(⟨c, rkey, hc⟩, row), mem_recordsOf.2 ⟨hrow, rfl⟩, rfl⟩
  ascending := List.pairwise_map.2 (pairwise_recordsOf s c)

theorem answersRepo_iff {s : Store} (hpaths : s.PathsAreRecords) : AnswersRepo s ↔ Agrees s := by
  constructor
  · intro h
    refine ⟨fun u => ?_, hpaths⟩
    have hu := h.getRecord u
    simp only [getRecord, query, Except.map, Option.map_map, Except.ok.injEq] at hu
    exact hu
  intro hs
  refine ⟨?_, ⟨_, rfl, ?_, fun c => ?_⟩, fun u => ?_, fun u => ?_, fun u => ?_, fun c hc => ?_⟩
  · have hcard := Finset.card_image_of_injective s.record.keys
      fun u v (h : u.dataKey = v.dataKey) => AtUri.dataKey_injective h
    rw [recordCount, query, hs.keys, hcard]
  · exact (Finset.sortedLT_sort _).pairwise
  · rw [Finset.mem_sort, Finset.mem_image]
    refine exists_congr fun u => ?_
    rw [Finmap.mem_keys, mem_record_iff hs.index, and_comm]
  · simp only [getRecord, query, Except.map, Option.map_map]
    exact congrArg Except.ok (hs.index u)
  · rw [hasRecord, query]
    refine congrArg Except.ok (decide_eq_decide.2 ?_)
    rw [rows_named_pos, mem_record_iff hs.index]
  · rw [getCurrentRecordCid, query, one_named, Option.map_map]
    exact congrArg Except.ok (hs.index u)
  · refine ⟨_, hs.listsCollection hc, fun limit reverse => ?_⟩
    have hrows : (recordsOf s c (reverse.getD false)).map (fun m => (m.1.rkey, m.2.cid)) =
        if reverse.getD false then ((recordsOf s c false).map fun m => (m.1.rkey, m.2.cid)).reverse
        else (recordsOf s c false).map fun m => (m.1.rkey, m.2.cid) := by
      cases reverse.getD false with
      | false => rfl
      | true => rw [recordsOf_reverse, List.map_reverse]; rfl
    rw [← hrows, listRecordsForCollection]
    cases limit with
    | none => simp only [query, Except.map, Option.elim_none, List.map_map]; rfl
    | some n => simp only [query, Except.map, Option.elim_some, List.map_map, List.map_take]; rfl

/-- **In every state of a run of write batches and takedowns, failing or not, the record readers
answer for the repo's tree, if and only if every batch that is taken gets through to its commit, or
stops where what it has indexed shows in no CID.** -/
theorem answersRepo_iff_whole {U : RepoLib} (hU : U.AppliesInOrder) {s : Store} (hs : AnswersRepo s)
    (hpaths : s.PathsAreRecords) (calls : List RecordCall) :
    Runs.Always (recordStep U) AnswersRepo s calls ↔
      Runs.Along (recordStep U) (Whole U) s calls := by
  refine Runs.always_iff_along (I := Agrees) (fun t ht => (answersRepo_iff ht.paths).2 ht) ?_ ?_
    ((answersRepo_iff hpaths).1 hs) calls
  · exact fun t call u ht hwhole hstep => (agrees_iff_whole hU hstep ht).2 hwhole
  · intro t call u ht hnot hstep hanswers
    have hu := (answersRepo_iff (paths_recordStep hU hstep ht.paths)).1 hanswers
    exact hnot ((agrees_iff_whole hU hstep ht).1 hu)

/-- A record is created, taken down and updated; then the second write of a batch is not indexed. -/
def batchCutOff : List RecordCall :=
  [.processWrites ⟨fun _ => none, ⟨"2026-01-02", fun _ => "2026-01-02"⟩,
      [.create ⟨feedPost "a", ⟨"x"⟩, none, [], []⟩], none⟩,
    .updateRecordTakedownStatus none (feedPost "a") (some "mod"),
    .processWrites ⟨fun | .indexWrite 1 => some "disk I/O error" | _ => none,
      ⟨"2026-01-03", fun _ => "2026-01-03"⟩,
      [.create ⟨feedPost "b", ⟨"y"⟩, none, [], []⟩, .create ⟨feedPost "c", ⟨"z"⟩, none, [], []⟩],
      none⟩]

theorem Store.fresh_paths : Store.fresh.PathsAreRecords := by
  intro p hp
  exact absurd hp (Finmap.notMem_empty)

theorem answersRepo_iff_whole_cut_off :
    Runs.Always (recordStep .inOrder) AnswersRepo .fresh batchCutOff ↔
      Runs.Along (recordStep .inOrder) (Whole .inOrder) .fresh batchCutOff :=
  answersRepo_iff_whole RepoLib.appliesInOrder_inOrder
    ((answersRepo_iff Store.fresh_paths).2 ⟨fun _ => rfl, Store.fresh_paths⟩) Store.fresh_paths
    batchCutOff

/-! ## Takedowns -/

/-- The call sets or clears the mark of the record: its statement works, and finds the row. -/
def Marks (u : AtUri) (s : Store) : RecordCall → Prop
  | .processWrites _ => False
  | .updateRecordTakedownStatus err uri _ => err = none ∧ uri = u ∧ u ∈ s.record

/-- The index pass of the call gets to a delete of the record. -/
def DropsRecord (U : RepoLib) (u : AtUri) (s : Store) : RecordCall → Prop
  | .processWrites c => (∃ r, formatCommit U c.faults s c.writes c.swapCommit = .ok r) ∧
      ∃ wn ∈ indexedPart c.faults c.writes, wn.1.uri = u ∧ wn.1.newCid = none
  | .updateRecordTakedownStatus .. => False

/-- The mark of the record, where there is one. -/
def Store.markOf (s : Store) (u : AtUri) : Option String :=
  (s.record.lookup u).bind RecordRow.takedownRef

/-- One write on the mark at its URI. -/
def markAfter (w : PreparedWrite) (mark : Option String) : Option String :=
  if w.newCid = none then none else mark

theorem bind_rowAfter (rev indexedAt : String) (w : PreparedWrite) (row : Option RecordRow) :
    (rowAfter rev indexedAt w row).bind RecordRow.takedownRef =
      markAfter w (row.bind RecordRow.takedownRef) := by
  unfold rowAfter markAfter
  cases w.newCid with
  | none => rfl
  | some cid => cases row <;> rfl

/-- The writes at a URI clear its mark if one of them is a delete, and leave it otherwise. -/
theorem foldl_markAfter (wns : List (PreparedWrite × Nat)) (mark : Option String) :
    wns.foldl (fun m wn => markAfter wn.1 m) mark =
      if ∃ wn ∈ wns, wn.1.newCid = none then none else mark := by
  induction wns generalizing mark with
  | nil => simp
  | cons wn wns ih =>
    rw [List.foldl_cons, ih, markAfter]
    simp only [List.exists_mem_cons_iff]
    by_cases hdel : wn.1.newCid = none
    · simp [hdel]
    · simp only [hdel, if_false, false_or]

theorem markOf_indexAll (now : Clock) (rev : String) (wns : List (PreparedWrite × Nat)) (s : Store)
    (u : AtUri) : (indexAll now rev wns s).markOf u =
      if ∃ wn ∈ wns, wn.1.uri = u ∧ wn.1.newCid = none then none else s.markOf u := by
  have hlocal : KeyedFold.Local
      (fun (t : Sql.Table AtUri RecordRow) u => (t.lookup u).bind RecordRow.takedownRef)
      (fun t (wn : PreparedWrite × Nat) => indexRow rev (now.indexed wn.2) wn.1 t)
      (fun wn => wn.1.uri) (fun wn => markAfter wn.1) := by
    intro t wn u
    show ((indexRow rev (now.indexed wn.2) wn.1 t).lookup u).bind _ = _
    rw [lookup_indexRow]
    split
    · exact bind_rowAfter rev (now.indexed wn.2) wn.1 (t.lookup u)
    · rfl
  rw [Store.markOf, indexAll_eq, KeyedFold.get_foldl hlocal, foldl_markAfter]
  simp only [KeyedFold.mem_at, and_assoc]
  rfl

/-- What a call leaves of a mark that it does not set. -/
theorem markOf_recordStep {U : RepoLib} {u : AtUri} {s t : Store} {call : RecordCall}
    (h : recordStep U s call = some t) (hmark : ¬ Marks u s call) :
    (DropsRecord U u s call → t.markOf u = none) ∧
      (¬ DropsRecord U u s call → t.markOf u = s.markOf u) := by
  cases call with
  | updateRecordTakedownStatus err uri takedownRef =>
    refine ⟨False.elim, fun _ => ?_⟩
    rcases takedown_leaves h with rfl | ⟨row, herr, hrow, rfl⟩
    · rfl
    · have hother : u ≠ uri := by
        rintro rfl
        exact hmark ⟨herr, rfl, Finmap.mem_of_lookup_eq_some hrow⟩
      rw [Store.markOf, Sql.Table.lookup_insert_eq, if_neg hother]
      rfl
  | processWrites c =>
    rcases processWrites_leaves U c h with ⟨e, hf, rfl⟩ | ⟨r, hf, hleft⟩
    · refine ⟨?_, fun _ => rfl⟩
      rintro ⟨⟨r, hr⟩, -⟩
      rw [hf] at hr
      cases hr
    · have hmarks : t.markOf u = _ :=
        (congrArg (fun t : Sql.Table AtUri RecordRow => (t.lookup u).bind RecordRow.takedownRef)
          hleft.record).trans (markOf_indexAll c.now r.commitData.rev _ s u)
      constructor
      · rintro ⟨-, hdel⟩
        rw [hmarks, if_pos hdel]
      · intro hnot
        rw [hmarks, if_neg fun hdel => hnot ⟨⟨r, hf⟩, hdel⟩]

/-- A record without a mark gets none from write batches. -/
theorem markOf_run_none {U : RepoLib} {u : AtUri} {calls : List RecordCall} {s t : Store}
    (hmarks : Runs.Along (recordStep U) (fun s call => ¬ Marks u s call) s calls)
    (hs : s.markOf u = none) (h : Runs.run (recordStep U) s calls = some t) : t.markOf u = none := by
  induction calls generalizing s with
  | nil =>
    cases h
    exact hs
  | cons call calls ih =>
    obtain ⟨v, hv, h⟩ := Runs.run_cons_some h
    obtain ⟨hcall, hrest⟩ := hmarks v hv
    refine ih hrest ?_ h
    obtain ⟨hdrop, hkeep⟩ := markOf_recordStep hv hcall
    by_cases hd : DropsRecord U u s call
    · exact hdrop hd
    · rw [hkeep hd, hs]

/-- **A record's takedown outlives every create and update, in calls that return and in calls that
fail: at the end of a run that does not set the mark anew it stands, if and only if no index pass of
the run has got to a delete of the record.** -/
theorem takedown_kept_iff {U : RepoLib} {u : AtUri} {ref : String} {calls : List RecordCall}
    {s t : Store} (hs : getRecordTakedownStatus none s u = .ok (some ref))
    (hmarks : Runs.Along (recordStep U) (fun s call => ¬ Marks u s call) s calls)
    (h : Runs.run (recordStep U) s calls = some t) :
    getRecordTakedownStatus none t u = .ok (some ref) ↔
      Runs.Along (recordStep U) (fun s call => ¬ DropsRecord U u s call) s calls := by
  have hmark : ∀ s : Store, getRecordTakedownStatus none s u = .ok (some ref) ↔
      s.markOf u = some ref := by
    intro s
    rw [getRecordTakedownStatus, query, Except.ok.injEq]
    rfl
  rw [hmark] at hs ⊢
  induction calls generalizing s with
  | nil =>
    cases h
    exact iff_of_true hs trivial
  | cons call calls ih =>
    obtain ⟨v, hv, h⟩ := Runs.run_cons_some h
    obtain ⟨hcall, hrest⟩ := hmarks v hv
    obtain ⟨hdrop, hkeep⟩ := markOf_recordStep hv hcall
    rw [Runs.along_cons_of_some hv]
    by_cases hd : DropsRecord U u s call
    · have hnone := markOf_run_none hrest (hdrop hd) h
      refine iff_of_false (fun he => ?_) fun hall => hall.1 hd
      rw [hnone] at he
      cases he
    · rw [and_iff_right hd]
      exact ih ((hkeep hd).trans hs) hrest h

/-- A record that a moderator has taken down. -/
def Store.takenDown : Store := { Store.fresh with
  record := Finmap.insert (feedPost "a") ⟨⟨"x"⟩, "r", "2026-01-01", some "mod"⟩ ∅
  repo := ⟨⟨"commit r"⟩, ⟨"tree r"⟩, "r", Finmap.insert (feedPost "a").dataKey ⟨"x"⟩ ∅⟩ }

/-- The takedown is not lifted, for the database fails; then the author deletes the record and creates
it again in one batch. -/
def deleteAndCreate : List RecordCall :=
  [.updateRecordTakedownStatus (some "disk I/O error") (feedPost "a") none,
    .processWrites ⟨fun _ => none, ⟨"2026-01-02", fun _ => "2026-01-02"⟩,
    [.delete ⟨feedPost "a", none⟩, .create ⟨feedPost "a", ⟨"x"⟩, none, [], []⟩], none⟩]

theorem takedown_kept_iff_delete_and_create :
    ∃ t, Runs.run (recordStep .inOrder) Store.takenDown deleteAndCreate = some t ∧
      (getRecordTakedownStatus none t (feedPost "a") = .ok (some "mod") ↔
        Runs.Along (recordStep .inOrder)
          (fun s call => ¬ DropsRecord .inOrder (feedPost "a") s call) Store.takenDown deleteAndCreate) := by
  have hs : getRecordTakedownStatus none Store.takenDown (feedPost "a") = .ok (some "mod") := by
    simp [getRecordTakedownStatus, query, Store.takenDown]
  have hmarks : Runs.Along (recordStep .inOrder) (fun s call => ¬ Marks (feedPost "a") s call)
      Store.takenDown deleteAndCreate := by
    refine fun s hs => ⟨?_, fun t ht => ⟨id, trivial⟩⟩
    rintro ⟨herr, -⟩
    cases herr
  exact ⟨_, rfl, takedown_kept_iff hs hmarks rfl⟩

end CacosPds.ActorStore
