import CacosPds.Sequencer.RepoSeq
import Mathlib.Data.List.Pairwise
/-!
# The cursor of a subscription (`xrpc/com/atproto/sync/subscribe_repos.rs:74-138, 305-325`)

| here | there |
| --- | --- |
| `RepoSeq.curr`, `nextSeq`, `earliestAfterTime` | `curr`, `next_seq`, `earliest_after_time` (`sequencer/src/mod.rs:79-132`) |
| `getBackfillLimit` | `get_backfill_limit`, read back by `parse_backfill_time` and `backfill_time_date` |
| `openStream`   | what `subscribe_repos` decides before the first event |
| `ServesCursor` | the notice goes to the clients that miss an old event, and none in the window is skipped |

The age that is looked at is the one of the first row above the least id of the cursor's millisecond.
That may be a row the client has; where there is none, the cursor itself counts as its time.
-/
namespace CacosPds.Sequencer

variable (K : Codecs)

/-! ## The queries -/

/-- `SELECT seq FROM repo_seq ORDER BY seq DESC LIMIT 1`. -/
def RepoSeq.curr (t : RepoSeq) : Option DbId := t.rows.getLast?.map (·.seq)

/-- `SELECT .. WHERE seq > ?1 ORDER BY seq ASC LIMIT 1`. -/
def nextSeq (t : RepoSeq) (cursor : DbId) : Except String (Option RepoSeqModel) :=
  match t.rows.find? fun row => cursor < row.seq with
  | none => .ok none
  | some row => (repoSeqFromRow K row).map some

/-- `ORDER BY "sequencedAt" ASC LIMIT 1`; which of two rows with one text comes first is SQLite's. -/
structure OrderByTime where
  first : List RepoSeqRow → Option RepoSeqRow
  first_isSome : ∀ rows, rows ≠ [] → (first rows).isSome
  first_least : ∀ {rows row}, first rows = some row →
    row ∈ rows ∧ ∀ r ∈ rows, row.sequencedAt ≤ r.sequencedAt

def earliestAfterTime (O : OrderByTime) (t : RepoSeq) (time : Instant) :
    Except String (Option RepoSeqModel) :=
  match O.first (t.rows.filter fun row => K.formatTime time ≤ row.sequencedAt) with
  | none => .ok none
  | some row => (repoSeqFromRow K row).map some

/-! ## The decision -/

/-- `repo_backfill_limit_ms` of `RepoBackfillConfig::default`. -/
def repoBackfillLimitMs : Int := 24 * 60 * 60 * 1000

/-- The start of the window in milliseconds: its text has three digits of the second. -/
def getBackfillLimit (now : Instant) : Int := now / 1000000 - repoBackfillLimitMs

/-- `unix_timestamp_nanos() as i64 / 1_000_000`. -/
def unixMillis (i : Instant) : Int := (BitVec.ofInt 64 i).toInt.tdiv 1000000

/-- `ulid_for_ts`. -/
def ulidForTs (ts : Int) : DbId := DbId.ofParts (max ts 0).toNat 0

inductive Opening where
  | futureCursor
  /-- With the notice or without, and the cursor that the outbox is given. -/
  | streams (outdated : Bool) (outboxCursor : Option Int)
  deriving DecidableEq

/-- The time that is held against the limit. -/
def nextTs (t : RepoSeq) (cursor : Int) : Int :=
  match nextSeq K t (ulidForTs cursor) with
  | .ok (some n) => unixMillis n.sequencedAt
  | _ => cursor

def openStream (O : OrderByTime) (t : RepoSeq) (limit : Int) : Option Int → Opening
  | none => .streams false none
  | some cursor =>
    if (t.curr.map fun seq => (seq.timestampMs : Int)).getD 0 < cursor then .futureCursor
    else if nextTs K t cursor < limit then
      match earliestAfterTime K O t (limit * 1000000) with
      | .ok (some earliest) => .streams true (some ((earliest.seq.timestampMs : Int) - 1))
      | _ => .streams true none
    else .streams false (some cursor)

/-! ## What it should decide -/

/-- The client has seen nothing from this millisecond on. -/
def Undelivered (cursor : Int) (row : RepoSeqRow) : Prop := cursor < row.seq.timestampMs

/-- Sequenced before the window. -/
def Old (limit : Int) (row : RepoSeqRow) : Prop :=
  ∃ m, repoSeqFromRow K row = .ok m ∧ m.sequencedAt < limit * 1000000

def InWindow (limit : Int) (row : RepoSeqRow) : Prop :=
  ∃ m, repoSeqFromRow K row = .ok m ∧ limit * 1000000 ≤ m.sequencedAt

structure ServesCursor (O : OrderByTime) (t : RepoSeq) (limit cursor : Int) : Prop where
  notice : (∃ start, openStream K O t limit (some cursor) = .streams true start) ↔
    ∃ row ∈ t.rows, Undelivered cursor row ∧ Old K limit row
  resumes : ∀ start, openStream K O t limit (some cursor) = .streams false start →
    start = some cursor
  skipsNone : ∀ start, openStream K O t limit (some cursor) = .streams true start →
    ∀ row ∈ t.rows, Undelivered cursor row → InWindow K limit row →
      ∃ c, start = some c ∧ c < row.seq.timestampMs
  atHead : ∀ head, t.curr = some head → (head.timestampMs : Int) = cursor →
    ∀ start, openStream K O t limit (some cursor) ≠ .streams true start

/-- The first row above the least id of the cursor's millisecond. -/
structure FirstAbove (t : RepoSeq) (cursor : Int) (row : RepoSeqRow) : Prop where
  mem : row ∈ t.rows
  above : ulidForTs cursor < row.seq
  least : ∀ r ∈ t.rows, ulidForTs cursor < r.seq → row.seq ≤ r.seq

/-- The milliseconds of a row's time, before the limit or not. -/
def LooksOld (limit : Int) (row : RepoSeqRow) : Prop :=
  ∃ m, repoSeqFromRow K row = .ok m ∧ unixMillis m.sequencedAt < limit

def LooksRecent (limit : Int) (row : RepoSeqRow) : Prop :=
  ∃ m, repoSeqFromRow K row = .ok m ∧ limit ≤ unixMillis m.sequencedAt

def MissesOld (t : RepoSeq) (limit cursor : Int) : Prop :=
  ∃ row ∈ t.rows, Undelivered cursor row ∧ Old K limit row

/-- Where a cursor that is not ahead of the table is served as it should be. -/
structure AgesAgree (O : OrderByTime) (t : RepoSeq) (limit cursor : Int) : Prop where
  /-- With no row above, the cursor itself has to be in the window. -/
  quiet : (∀ row ∈ t.rows, ¬ ulidForTs cursor < row.seq) →
    (cursor < limit ↔ MissesOld K t limit cursor)
  looksOld : ∀ row, FirstAbove t cursor row → LooksOld K limit row → MissesOld K t limit cursor
  looksRecent : ∀ row, FirstAbove t cursor row → LooksRecent K limit row →
    ¬ MissesOld K t limit cursor
  unread : ∀ row, FirstAbove t cursor row → ¬ Parses K row →
    (cursor < limit ↔ MissesOld K t limit cursor)
  /-- The row that comes first in the window is not after one that the client needs. -/
  window : MissesOld K t limit cursor → ∀ row ∈ t.rows, Undelivered cursor row →
    InWindow K limit row → ∃ e,
      O.first (t.rows.filter fun r => K.formatTime (limit * 1000000) ≤ r.sequencedAt) = some e ∧
        Parses K e ∧ e.seq.timestampMs ≤ row.seq.timestampMs

variable {K} {O : OrderByTime} {t : RepoSeq} {limit cursor : Int}

/-! ### The head and the row above -/

theorem seq_le_curr {row : RepoSeqRow} (hrow : row ∈ t.rows) :
    ∃ head, t.curr = some head ∧ row.seq ≤ head := by
  obtain ⟨last, hlast⟩ := Option.isSome_iff_exists.1
    (List.getLast?_isSome.2 (List.ne_nil_of_mem hrow))
  refine ⟨last.seq, by simp [RepoSeq.curr, hlast], ?_⟩
  have hsorted := t.sorted
  obtain ⟨front, hfront⟩ := List.getLast?_eq_some_iff.1 hlast
  rw [hfront] at hrow hsorted
  rcases List.mem_append.1 hrow with hmem | hmem
  · exact le_of_lt ((List.pairwise_append.1 hsorted).2.2 row hmem last (List.mem_singleton_self _))
  · rw [List.mem_singleton.1 hmem]

/-- A cursor ahead of the table has been sent everything. -/
theorem not_undelivered_of_future
    (h : (t.curr.map fun seq => (seq.timestampMs : Int)).getD 0 < cursor) {row : RepoSeqRow}
    (hrow : row ∈ t.rows) : ¬ Undelivered cursor row := by
  obtain ⟨head, hhead, hle⟩ := seq_le_curr hrow
  have hms := DbId.timestampMs_mono hle
  simp only [hhead, Option.map_some, Option.getD_some] at h
  unfold Undelivered
  omega

theorem find?_firstAbove {row : RepoSeqRow}
    (h : t.rows.find? (fun row => ulidForTs cursor < row.seq) = some row) :
    FirstAbove t cursor row := by
  obtain ⟨habove, front, rest, hrows, hfront⟩ := List.find?_eq_some_iff_append.1 h
  refine ⟨hrows ▸ by simp, by simpa using habove, fun r hr hlt => ?_⟩
  have hsorted := t.sorted
  rw [hrows] at hr hsorted
  rcases List.mem_append.1 hr with hmem | hmem
  · simpa [hlt] using hfront r hmem
  · rcases List.mem_cons.1 hmem with rfl | hmem
    · exact le_refl _
    · exact le_of_lt ((List.pairwise_cons.1 (List.pairwise_append.1 hsorted).2.1).1 r hmem)

theorem FirstAbove.unique {row row' : RepoSeqRow} (h : FirstAbove t cursor row)
    (h' : FirstAbove t cursor row') : row = row' := by
  have hseq : row.seq = row'.seq :=
    le_antisymm (h.least row' h'.mem h'.above) (h'.least row h.mem h.above)
  by_contra hne
  have hdistinct : t.rows.Pairwise fun a b => a.seq ≠ b.seq := t.sorted.imp fun h => ne_of_lt h
  have : Std.Symm fun a b : RepoSeqRow => a.seq ≠ b.seq := ⟨fun _ _ h => h.symm⟩
  exact hdistinct.forall h.mem h'.mem hne hseq

/-- The time that is held against the limit: of the row above, or the cursor's own. -/
theorem nextTs_cases (K : Codecs) (t : RepoSeq) (cursor : Int) :
    (∃ row m, FirstAbove t cursor row ∧ repoSeqFromRow K row = .ok m ∧
      nextTs K t cursor = unixMillis m.sequencedAt) ∨
    (∃ row, FirstAbove t cursor row ∧ ¬ Parses K row ∧ nextTs K t cursor = cursor) ∨
    ((∀ row ∈ t.rows, ¬ ulidForTs cursor < row.seq) ∧ nextTs K t cursor = cursor) := by
  unfold nextTs nextSeq
  cases hfind : t.rows.find? fun row => ulidForTs cursor < row.seq with
  | none =>
    refine .inr (.inr ⟨fun row hrow => ?_, rfl⟩)
    simpa using List.find?_eq_none.1 hfind row hrow
  | some row =>
    have hfirst := find?_firstAbove hfind
    cases hrow : repoSeqFromRow K row with
    | ok m => exact .inl ⟨row, m, hfirst, hrow, by simp [hrow, Except.map]⟩
    | error e =>
      refine .inr (.inl ⟨row, hfirst, ?_, by simp [hrow, Except.map]⟩)
      rintro ⟨m, hm⟩
      cases hrow.symm.trans hm

/-- The times agree on who is told. -/
theorem nextTs_lt_iff : (nextTs K t cursor < limit ↔ MissesOld K t limit cursor) ↔
    ((∀ row ∈ t.rows, ¬ ulidForTs cursor < row.seq) →
      (cursor < limit ↔ MissesOld K t limit cursor)) ∧
    (∀ row, FirstAbove t cursor row → LooksOld K limit row → MissesOld K t limit cursor) ∧
    (∀ row, FirstAbove t cursor row → LooksRecent K limit row → ¬ MissesOld K t limit cursor) ∧
    (∀ row, FirstAbove t cursor row → ¬ Parses K row →
      (cursor < limit ↔ MissesOld K t limit cursor)) := by
  rcases nextTs_cases K t cursor with ⟨row, m, hfirst, hm, hts⟩ | ⟨row, hfirst, hparses, hts⟩ |
    ⟨hnone, hts⟩
  · have hread : ∀ row', FirstAbove t cursor row' → repoSeqFromRow K row' = .ok m :=
      fun row' h => hfirst.unique h ▸ hm
    rw [hts]
    constructor
    · intro h
      refine ⟨fun hnone => absurd hfirst.above (hnone row hfirst.mem), ?_, ?_, ?_⟩
      · rintro row' hrow' ⟨m', hm', hlt⟩
        cases (hread row' hrow').symm.trans hm'
        exact h.1 hlt
      · rintro row' hrow' ⟨m', hm', hle⟩ hmisses
        cases (hread row' hrow').symm.trans hm'
        have := h.2 hmisses
        omega
      · intro row' hrow' hparses
        exact absurd ⟨m, hread row' hrow'⟩ hparses
    · rintro ⟨-, hold, hrecent, -⟩
      refine ⟨fun hlt => hold row hfirst ⟨m, hm, hlt⟩, fun hmisses => ?_⟩
      by_contra hle
      exact hrecent row hfirst ⟨m, hm, Int.not_lt.1 hle⟩ hmisses
  · rw [hts]
    have hunread : ∀ row', FirstAbove t cursor row' → ∀ m, repoSeqFromRow K row' ≠ .ok m :=
      fun row' h m hm => hparses ⟨m, hfirst.unique h ▸ hm⟩
    constructor
    · intro h
      refine ⟨fun hnone => absurd hfirst.above (hnone row hfirst.mem), ?_, ?_, fun _ _ _ => h⟩
      · rintro row' hrow' ⟨m, hm, -⟩
        exact absurd hm (hunread row' hrow' m)
      · rintro row' hrow' ⟨m, hm, -⟩
        exact absurd hm (hunread row' hrow' m)
    · rintro ⟨-, -, -, h⟩
      exact h row hfirst hparses
  · rw [hts]
    have habove : ∀ row', ¬ FirstAbove t cursor row' := fun row' h => hnone row' h.mem h.above
    constructor
    · intro h
      exact ⟨fun _ => h, fun row' h' => absurd h' (habove row'), fun row' h' => absurd h' (habove row'),
        fun row' h' => absurd h' (habove row')⟩
    · rintro ⟨h, -⟩
      exact h hnone

/-! ### The stream -/

/-- The cursor that an outdated client starts from. -/
def earliestStart (K : Codecs) (O : OrderByTime) (t : RepoSeq) (limit : Int) : Option Int :=
  match earliestAfterTime K O t (limit * 1000000) with
  | .ok (some earliest) => some ((earliest.seq.timestampMs : Int) - 1)
  | _ => none

theorem openStream_some
    (h : ¬ (t.curr.map fun seq => (seq.timestampMs : Int)).getD 0 < cursor) :
    openStream K O t limit (some cursor) =
      if nextTs K t cursor < limit then .streams true (earliestStart K O t limit)
      else .streams false (some cursor) := by
  unfold openStream earliestStart
  simp only [if_neg h]
  split_ifs
  · split <;> rfl
  · rfl

theorem earliestStart_eq {start : Int} : earliestStart K O t limit = some start ↔ ∃ e,
    O.first (t.rows.filter fun r => K.formatTime (limit * 1000000) ≤ r.sequencedAt) = some e ∧
      Parses K e ∧ start = e.seq.timestampMs - 1 := by
  unfold earliestStart earliestAfterTime
  cases hfirst : O.first (t.rows.filter fun r => K.formatTime (limit * 1000000) ≤ r.sequencedAt) with
  | none => simp
  | some e =>
    cases hread : repoSeqFromRow K e with
    | error err => simp [Parses, hread, Except.map]
    | ok m =>
      have hseq : m.seq = e.seq := by
        unfold repoSeqFromRow at hread
        split at hread
        · cases hread
          rfl
        · cases hread
      simp [Parses, hread, Except.map, hseq, eq_comm]

theorem servesCursor_iff (K : Codecs) (O : OrderByTime) (t : RepoSeq) (limit cursor : Int) :
    ServesCursor K O t limit cursor ↔
      (t.curr.map fun seq => (seq.timestampMs : Int)).getD 0 < cursor ∨
        AgesAgree K O t limit cursor := by
  by_cases hfuture : (t.curr.map fun seq => (seq.timestampMs : Int)).getD 0 < cursor
  · have hopen : openStream K O t limit (some cursor) = .futureCursor := by
      simp [openStream, hfuture]
    refine iff_of_true ⟨?_, ?_, ?_, ?_⟩ (.inl hfuture)
    · rw [hopen]
      constructor
      · rintro ⟨start, h⟩
        cases h
      · rintro ⟨row, hrow, hund, -⟩
        exact absurd hund (not_undelivered_of_future hfuture hrow)
    · intro start h
      cases hopen.symm.trans h
    · intro start h
      cases hopen.symm.trans h
    · intro head _ _ start h
      cases hopen.symm.trans h
  · rw [or_iff_right hfuture]
    have hopen : openStream K O t limit (some cursor) = _ := openStream_some hfuture
    have hnotice : (∃ start, openStream K O t limit (some cursor) = .streams true start) ↔
        nextTs K t cursor < limit := by
      rw [hopen]
      split_ifs with hlt
      · exact iff_of_true ⟨_, rfl⟩ hlt
      · exact iff_of_false (by rintro ⟨_, h⟩; cases h) hlt
    constructor
    · intro h
      have hagree : nextTs K t cursor < limit ↔ MissesOld K t limit cursor :=
        hnotice.symm.trans h.notice
      obtain ⟨hquiet, hold, hrecent, hunread⟩ := nextTs_lt_iff.1 hagree
      refine ⟨hquiet, hold, hrecent, hunread, fun hmisses row hrow hund hwindow => ?_⟩
      rw [if_pos (hagree.2 hmisses)] at hopen
      obtain ⟨c, hstart, hlt⟩ := h.skipsNone _ hopen row hrow hund hwindow
      obtain ⟨e, hfirst, hparses, rfl⟩ := earliestStart_eq.1 hstart
      exact ⟨e, hfirst, hparses, by omega⟩
    · intro h
      have hagree : nextTs K t cursor < limit ↔ MissesOld K t limit cursor :=
        nextTs_lt_iff.2 ⟨h.quiet, h.looksOld, h.looksRecent, h.unread⟩
      refine ⟨hnotice.trans hagree, ?_, ?_, ?_⟩
      · intro start hstart
        rw [hopen] at hstart
        split_ifs at hstart with hlt
        · cases hstart
        · injection hstart with _ hstart
          exact hstart.symm
      · intro start hstart row hrow hund hwindow
        have hlt := hnotice.1 ⟨start, hstart⟩
        obtain ⟨e, hfirst, hparses, hle⟩ := h.window (hagree.1 hlt) row hrow hund hwindow
        rw [hopen, if_pos hlt] at hstart
        cases hstart
        exact ⟨_, earliestStart_eq.2 ⟨e, hfirst, hparses, rfl⟩, by omega⟩
      · intro head hhead hms start hstart
        obtain ⟨row, hrow, hund, -⟩ := hagree.1 (hnotice.1 ⟨start, hstart⟩)
        obtain ⟨head', hhead', hle⟩ := seq_le_curr hrow
        obtain rfl := Option.some.inj (hhead.symm.trans hhead')
        have := DbId.timestampMs_mono hle
        unfold Undelivered at hund
        omega

/-- The first of the least texts. -/
def leastByTime : List RepoSeqRow → Option RepoSeqRow
  | [] => none
  | row :: rows =>
    match leastByTime rows with
    | none => some row
    | some r => if row.sequencedAt ≤ r.sequencedAt then some row else some r

theorem leastByTime_spec (row : RepoSeqRow) (rows : List RepoSeqRow) : ∃ e,
    leastByTime (row :: rows) = some e ∧ e ∈ row :: rows ∧
      ∀ r ∈ row :: rows, e.sequencedAt ≤ r.sequencedAt := by
  induction rows generalizing row with
  | nil => exact ⟨row, rfl, by simp⟩
  | cons next rows ih =>
    obtain ⟨e, he, hmem, hleast⟩ := ih next
    unfold leastByTime
    rw [he]
    by_cases hle : row.sequencedAt ≤ e.sequencedAt
    · refine ⟨row, if_pos hle, List.mem_cons_self, fun r hr => ?_⟩
      rcases List.mem_cons.1 hr with rfl | hr
      · exact le_refl _
      · exact le_trans hle (hleast r hr)
    · refine ⟨e, if_neg hle, List.mem_cons_of_mem _ hmem, fun r hr => ?_⟩
      rcases List.mem_cons.1 hr with rfl | hr
      · exact le_of_lt (lt_of_not_ge hle)
      · exact hleast r hr

def inIdOrder : OrderByTime where
  first := leastByTime
  first_isSome
    | [], h => absurd rfl h
    | row :: rows, _ => by
      obtain ⟨e, he, -⟩ := leastByTime_spec row rows
      rw [he]
      rfl
  first_least {rows row} h := by
    cases rows with
    | nil => cases h
    | cons r rows =>
      obtain ⟨e, he, hspec⟩ := leastByTime_spec r rows
      cases he.symm.trans h
      exact hspec

/-- One event of the first of January, looked at on the fourth. -/
def quietLog : RepoSeq := ⟨[sampleRow (.ofParts 1767225600000 7)], by simp⟩

def onTheFourth : Int := getBackfillLimit 1767484800000000000

def quietCodecs : Codecs :=
  { sampleCodecs with
    formatTime i := if i = onTheFourth * 1000000 then "2026-01-03T00:00:00.000Z" else sampleTime }

/-- The client has the last event, and is told that it is outdated. -/
theorem told_at_head :
    openStream quietCodecs inIdOrder quietLog onTheFourth (some 1767225600000) =
        .streams true none ∧
      ¬ ServesCursor quietCodecs inIdOrder quietLog onTheFourth 1767225600000 := by
  have hopen : openStream quietCodecs inIdOrder quietLog onTheFourth (some 1767225600000) =
      .streams true none := by decide +kernel
  exact ⟨hopen, fun h => h.atHead (.ofParts 1767225600000 7) rfl (by decide +kernel) none hopen⟩

/-! ### Tables in order -/

/-- The rows are read, with times that fit `i64`; the times are in the order of the ids, and their texts
tell the window and that order. -/
structure InOrder (K : Codecs) (t : RepoSeq) (limit : Int) : Prop where
  reads : ∀ row ∈ t.rows, ∃ m, repoSeqFromRow K row = .ok m ∧ 0 ≤ m.sequencedAt ∧
    m.sequencedAt < 2 ^ 63
  times : ∀ a ∈ t.rows, ∀ b ∈ t.rows, a.seq ≤ b.seq → ∀ m m', repoSeqFromRow K a = .ok m →
    repoSeqFromRow K b = .ok m' → m.sequencedAt ≤ m'.sequencedAt
  texts : ∀ row ∈ t.rows, K.formatTime (limit * 1000000) ≤ row.sequencedAt ↔ InWindow K limit row
  textOrder : ∀ a ∈ t.rows, ∀ b ∈ t.rows, a.sequencedAt ≤ b.sequencedAt →
    a.seq.timestampMs ≤ b.seq.timestampMs

theorem unixMillis_lt {i : Int} (hpos : 0 ≤ i) (hlt : i < 2 ^ 63) :
    unixMillis i < limit ↔ i < limit * 1000000 := by
  have hi64 : (BitVec.ofInt 64 i).toInt = i := by
    rw [BitVec.toInt_ofInt]
    exact Int.bmod_eq_of_le (by omega) (by omega)
  rw [unixMillis, hi64, Int.tdiv_eq_ediv_of_nonneg hpos]
  omega

theorem looksOld_iff (h : InOrder K t limit) {row : RepoSeqRow} (hrow : row ∈ t.rows) :
    LooksOld K limit row ↔ Old K limit row := by
  obtain ⟨m, hm, hpos, hlt⟩ := h.reads row hrow
  unfold LooksOld Old
  simp only [hm, Except.ok.injEq, exists_eq_left', unixMillis_lt hpos hlt]

theorem above_of_undelivered (hcursor : 0 ≤ cursor) {row : RepoSeqRow} (h : Undelivered cursor row) :
    ulidForTs cursor < row.seq := by
  unfold Undelivered DbId.timestampMs at h
  rw [DbId.lt_def]
  simp only [ulidForTs, DbId.ofParts]
  omega

theorem cursor_le_of_above (hcursor : 0 ≤ cursor) (hbits : cursor < 2 ^ 48) {row : RepoSeqRow}
    (h : ulidForTs cursor < row.seq) : cursor ≤ row.seq.timestampMs := by
  rw [DbId.lt_def] at h
  simp only [ulidForTs, DbId.ofParts] at h
  unfold DbId.timestampMs
  omega

/-- On a table in order two kinds of cursors are served wrongly: one before the window with no row
above it, and one whose own row is old while the client misses nothing old. -/
theorem agesAgree_iff_of_inOrder (h : InOrder K t limit) (hcursor : 0 ≤ cursor)
    (hbits : cursor < 2 ^ 48) : AgesAgree K O t limit cursor ↔
      ((∀ row ∈ t.rows, ¬ ulidForTs cursor < row.seq) → limit ≤ cursor) ∧
      ∀ row, FirstAbove t cursor row → row.seq.timestampMs = cursor → Old K limit row →
        MissesOld K t limit cursor := by
  have hquiet : (∀ row ∈ t.rows, ¬ ulidForTs cursor < row.seq) → ¬ MissesOld K t limit cursor := by
    rintro hnone ⟨row, hrow, hund, -⟩
    exact hnone row hrow (above_of_undelivered hcursor hund)
  constructor
  · intro hagree
    refine ⟨fun hnone => ?_, fun row hfirst _ hold => ?_⟩
    · have := mt (hagree.quiet hnone).1 (hquiet hnone)
      omega
    · exact hagree.looksOld row hfirst ((looksOld_iff h hfirst.mem).2 hold)
  · rintro ⟨hlimit, hown⟩
    refine ⟨fun hnone => ?_, fun row hfirst hlooks => ?_, ?_, ?_, ?_⟩
    · have := hlimit hnone
      exact iff_of_false (by omega) (hquiet hnone)
    · have hold := (looksOld_iff h hfirst.mem).1 hlooks
      by_cases hms : (row.seq.timestampMs : Int) = cursor
      · exact hown row hfirst hms hold
      · have := cursor_le_of_above hcursor hbits hfirst.above
        exact ⟨row, hfirst.mem, by unfold Undelivered; omega, hold⟩
    · rintro row hfirst ⟨m, hm, hrecent⟩ ⟨r, hr, hund, m', hm', hold⟩
      obtain ⟨_, hread, hpos, hlt⟩ := h.reads row hfirst.mem
      cases hm.symm.trans hread
      have htimes := h.times row hfirst.mem r hr
        (hfirst.least r hr (above_of_undelivered hcursor hund)) m m' hm hm'
      have hwindow : ¬ m.sequencedAt < limit * 1000000 :=
        mt (unixMillis_lt hpos hlt).2 (Int.not_lt.2 hrecent)
      exact hwindow (lt_of_le_of_lt htimes hold)
    · intro row hfirst hparses
      obtain ⟨m, hm, -⟩ := h.reads row hfirst.mem
      exact absurd ⟨m, hm⟩ hparses
    · intro _ row hrow _ hwindow
      have hmem : row ∈ t.rows.filter fun r => K.formatTime (limit * 1000000) ≤ r.sequencedAt := by
        simpa using ⟨hrow, (h.texts row hrow).2 hwindow⟩
      obtain ⟨e, he⟩ := Option.isSome_iff_exists.1 (O.first_isSome _ (List.ne_nil_of_mem hmem))
      obtain ⟨hemem, hleast⟩ := O.first_least he
      have herow := (List.mem_filter.1 hemem).1
      obtain ⟨m, hm, -⟩ := h.reads e herow
      exact ⟨e, he, ⟨m, hm⟩, h.textOrder e herow row hrow (hleast row hmem)⟩

end CacosPds.Sequencer
