import CacosPds.Lib.Rfc3339
import CacosPds.Sequencer.CursorCheck
/-!
# Rows by time (`cacos-pds-sequencer/src/mod.rs:115-188`, `events.rs:23-31`)

| here | there |
| --- | --- |
| `OffsetDateTime.format` | `format_offset_datetime`: milliseconds, cut off, and a literal `Z` |
| `Stamped`     | every `sequencedAt` is an RFC 3339 text and `repo_seq_from_row` reads its instant |
| `ServesTime`  | what `earliest_after_time` and `request_seq_range` are to answer |
| `TextsInOrder` | when they do |

`format_offset_datetime` takes the column to hold its own format. The driver writes RFC 3339 with as
many digits as the second needs, so that a row of the millisecond of `time` is below its text when it
has a fourth digit, and above it when it has fewer than three.
-/
namespace CacosPds.Sequencer

open Rfc3339

/-- The texts of the table and how they are read. -/
structure Stamped (K : Codecs) (t : RepoSeq) (stamp : RepoSeqRow → Stamp) : Prop where
  text : ∀ row ∈ t.rows, row.sequencedAt = (stamp row).text
  year : ∀ row ∈ t.rows, 0 ≤ (stamp row).clock.year
  reads : ∀ row ∈ t.rows, K.parseTime row.sequencedAt = .ok (stamp row).instant

/-- A chronologically first row of those at or after the time, if there is one. -/
def IsEarliest (K : Codecs) (t : RepoSeq) (time : Instant) : Option RepoSeqModel → Prop
  | none => ∀ row ∈ t.rows, ∀ m, repoSeqFromRow K row = .ok m → m.sequencedAt < time
  | some m => (∃ row ∈ t.rows, repoSeqFromRow K row = .ok m) ∧ time ≤ m.sequencedAt ∧
      ∀ row ∈ t.rows, ∀ m', repoSeqFromRow K row = .ok m' → time ≤ m'.sequencedAt →
        m.sequencedAt ≤ m'.sequencedAt

/-- The row's instant is at or after the time. -/
def isAfter (K : Codecs) (time : Instant) (row : RepoSeqRow) : Bool :=
  match repoSeqFromRow K row with
  | .ok m => time ≤ m.sequencedAt
  | .error _ => false

structure ServesTime (K : Codecs) (O : OrderByTime) (t : RepoSeq) (time : Instant) : Prop where
  compares : ∀ row ∈ t.rows, K.formatTime time ≤ row.sequencedAt ↔ isAfter K time row
  earliest : ∃ found, earliestAfterTime K O t time = .ok found ∧ IsEarliest K t time found
  range : ∀ opts : RequestSeqRangeOpts, opts.earliestTime = some time →
    requestSeqRange K t opts = (applyLimit opts.limit (t.rows.filter fun row =>
      inRange K { opts with earliestTime := none } row && isAfter K time row)).mapM (repoSeqFromRow K)

/-- When the place of a row's text is that of its instant. -/
structure Placed (time : OffsetDateTime) (s : Stamp) : Prop where
  /-- In the second of the time, with digits that run along its milliseconds: at most three digits and
  `Z` count as at or after the time, anything else as before it. -/
  abuts : time.Abuts s → (s.digits.length ≤ 3 ∧ s.zone.isLetter ↔ time.instant ≤ s.instant)
  /-- Elsewhere the two clocks are compared: the offsets must not carry the row across the time. -/
  apart : s.sep = 'T' → ¬ time.Abuts s → (time.nanos ≤ s.nanos ↔ time.instant ≤ s.instant)
  /-- With another separator than `T` all rows of a day are on one side. -/
  sep : s.sep ≠ 'T' → (time.clock.date < s.clock.date ∨
    time.clock.date = s.clock.date ∧ 'T' < s.sep ↔ time.instant ≤ s.instant)

/-- Every row is placed, and one that sorts first in the window is no later than the others. -/
structure TextsInOrder (t : RepoSeq) (stamp : RepoSeqRow → Stamp) (time : OffsetDateTime) : Prop where
  placed : ∀ row ∈ t.rows, Placed time (stamp row)
  first : ∀ e ∈ t.rows, time.instant ≤ (stamp e).instant →
    (∀ row ∈ t.rows, time.instant ≤ (stamp row).instant → ¬ (stamp row).Sorts (stamp e)) →
    ∀ row ∈ t.rows, time.instant ≤ (stamp row).instant → (stamp e).instant ≤ (stamp row).instant

variable {K : Codecs} {O : OrderByTime} {t : RepoSeq} {stamp : RepoSeqRow → Stamp}
  {time : OffsetDateTime} {row : RepoSeqRow}

theorem Stamped.fromRow (h : Stamped K t stamp) (hrow : row ∈ t.rows) : ∃ m,
    repoSeqFromRow K row = .ok m ∧ m.sequencedAt = (stamp row).instant := by
  unfold repoSeqFromRow
  rw [h.reads row hrow]
  exact ⟨_, rfl, rfl⟩

theorem Stamped.isAfter_iff (h : Stamped K t stamp) (hrow : row ∈ t.rows) (i : Instant) :
    isAfter K i row ↔ i ≤ (stamp row).instant := by
  obtain ⟨m, hm, hinst⟩ := h.fromRow hrow
  unfold isAfter
  rw [hm, ← hinst]
  exact decide_eq_true_iff

theorem Stamped.text_lt_iff (h : Stamped K t stamp) {a b : RepoSeqRow} (ha : a ∈ t.rows)
    (hb : b ∈ t.rows) : a.sequencedAt < b.sequencedAt ↔ (stamp a).Sorts (stamp b) := by
  rw [h.text a ha, h.text b hb, Stamp.text_lt_iff (.inl (h.year a ha))]

/-- Two rows with one text have one instant. -/
theorem Stamped.instant_eq (h : Stamped K t stamp) {a b : RepoSeqRow} (ha : a ∈ t.rows)
    (hb : b ∈ t.rows) (heq : a.sequencedAt = b.sequencedAt) :
    (stamp a).instant = (stamp b).instant := by
  have hread := h.reads a ha
  rw [heq, h.reads b hb] at hread
  exact (Except.ok.inj hread).symm

theorem Stamped.le_iff (h : Stamped K t stamp) (hfmt : K.formatTime time.instant = time.format)
    (hrow : row ∈ t.rows) :
    K.formatTime time.instant ≤ row.sequencedAt ↔ ¬ (stamp row).Sorts time.shown := by
  rw [hfmt, h.text row hrow, OffsetDateTime.format_le_iff (h.year row hrow)]

theorem placed_iff {s : Stamp} :
    Placed time s ↔ (¬ s.Sorts time.shown ↔ time.instant ≤ s.instant) := by
  by_cases hsep : s.sep = 'T'
  · by_cases habuts : time.Abuts s
    · rw [OffsetDateTime.not_sorts_of_abuts habuts]
      exact ⟨fun h => h.abuts habuts, fun h => ⟨fun _ => h, fun _ hno => absurd habuts hno,
        fun hno => absurd hsep hno⟩⟩
    · rw [OffsetDateTime.not_sorts_of_apart hsep habuts]
      exact ⟨fun h => h.apart hsep habuts, fun h => ⟨fun hyes => absurd hyes habuts, fun _ _ => h,
        fun hno => absurd hsep hno⟩⟩
  · rw [OffsetDateTime.not_sorts_of_sep hsep]
    exact ⟨fun h => h.sep hsep, fun h => ⟨fun hyes => absurd hyes.sep hsep,
      fun hyes => absurd hyes hsep, fun _ => h⟩⟩

/-- The range query keeps what the texts keep. -/
theorem inRange_time (opts : RequestSeqRangeOpts) {i : Instant} (hopts : opts.earliestTime = some i)
    (row : RepoSeqRow) : inRange K opts row =
      (inRange K { opts with earliestTime := none } row && K.formatTime i ≤ row.sequencedAt) := by
  simp only [inRange, hopts, Option.all_some, Option.all_none, Bool.and_true]

theorem range_of_compares {i : Instant}
    (h : ∀ row ∈ t.rows, K.formatTime i ≤ row.sequencedAt ↔ isAfter K i row)
    (opts : RequestSeqRangeOpts) (hopts : opts.earliestTime = some i) :
    requestSeqRange K t opts = (applyLimit opts.limit (t.rows.filter fun row =>
      inRange K { opts with earliestTime := none } row && isAfter K i row)).mapM
        (repoSeqFromRow K) := by
  have hfilter : t.rows.filter (inRange K opts) = t.rows.filter fun row =>
      inRange K { opts with earliestTime := none } row && isAfter K i row := by
    refine List.filter_congr fun row hrow => ?_
    rw [inRange_time opts hopts]
    congr 1
    exact Bool.eq_iff_iff.2 (decide_eq_true_iff.trans (h row hrow))
  rw [requestSeqRange, hfilter]

/-- What the query for the earliest row finds: nothing, or a row of the least text of those that are
taken for at or after the time. -/
theorem earliestAfterTime_cases (h : Stamped K t stamp) (i : Instant) :
    (earliestAfterTime K O t i = .ok none ∧ ∀ row ∈ t.rows, ¬ K.formatTime i ≤ row.sequencedAt) ∨
    ∃ e ∈ t.rows, K.formatTime i ≤ e.sequencedAt ∧
      (∀ row ∈ t.rows, K.formatTime i ≤ row.sequencedAt → e.sequencedAt ≤ row.sequencedAt) ∧
      ∃ m, repoSeqFromRow K e = .ok m ∧ m.sequencedAt = (stamp e).instant ∧
        earliestAfterTime K O t i = .ok (some m) := by
  unfold earliestAfterTime
  cases hfirst : O.first (t.rows.filter fun row => K.formatTime i ≤ row.sequencedAt) with
  | none =>
    refine .inl ⟨rfl, fun row hrow hle => ?_⟩
    have hsome := O.first_isSome (t.rows.filter fun row => K.formatTime i ≤ row.sequencedAt)
      (List.ne_nil_of_mem (List.mem_filter.2 ⟨hrow, decide_eq_true hle⟩))
    rw [hfirst] at hsome
    cases hsome
  | some e =>
    obtain ⟨hmem, hleast⟩ := O.first_least hfirst
    obtain ⟨he, hle⟩ := List.mem_filter.1 hmem
    obtain ⟨m, hm, hinst⟩ := h.fromRow he
    refine .inr ⟨e, he, of_decide_eq_true hle, fun row hrow hrle => ?_, m, hm, hinst, ?_⟩
    · exact hleast row (List.mem_filter.2 ⟨hrow, decide_eq_true hrle⟩)
    · simp only [hm]
      rfl

/-- **The comparison of texts serves the time exactly where the texts are in order.** -/
theorem servesTime_iff (O : OrderByTime) (h : Stamped K t stamp)
    (hfmt : K.formatTime time.instant = time.format) :
    ServesTime K O t time.instant ↔ TextsInOrder t stamp time := by
  have hcompare : ∀ row ∈ t.rows, (K.formatTime time.instant ≤ row.sequencedAt ↔
      isAfter K time.instant row) ↔ Placed time (stamp row) := by
    intro row hrow
    rw [placed_iff, h.le_iff hfmt hrow, h.isAfter_iff hrow]
  constructor
  · intro hserves
    refine ⟨fun row hrow => (hcompare row hrow).1 (hserves.compares row hrow), ?_⟩
    intro e he hafter hfirst row hrow hrow'
    have hkept : ∀ r ∈ t.rows, K.formatTime time.instant ≤ r.sequencedAt ↔
        time.instant ≤ (stamp r).instant := fun r hr =>
      (hserves.compares r hr).trans (h.isAfter_iff hr _)
    obtain ⟨found, hfound, hearliest⟩ := hserves.earliest
    rcases earliestAfterTime_cases (O := O) h time.instant with
      ⟨-, hnone⟩ | ⟨r, hr, hrle, hleast, m, hm, hinst, hres⟩
    · exact absurd ((hkept e he).2 hafter) (hnone e he)
    · obtain rfl := Except.ok.inj (hfound.symm.trans hres)
      -- the row found and `e` have the least text, and so one instant
      have hsame : r.sequencedAt = e.sequencedAt := le_antisymm (hleast e he ((hkept e he).2 hafter))
        (not_lt.1 (mt (h.text_lt_iff hr he).1 (hfirst r hr ((hkept r hr).1 hrle))))
      obtain ⟨m', hm', hinst'⟩ := h.fromRow hrow
      have hle := hearliest.2.2 row hrow m' hm' (by rw [hinst']; exact hrow')
      rw [hinst, hinst', h.instant_eq hr he hsame] at hle
      exact hle
  · intro horder
    have hcompares : ∀ row ∈ t.rows, K.formatTime time.instant ≤ row.sequencedAt ↔
        isAfter K time.instant row := fun row hrow => (hcompare row hrow).2 (horder.placed row hrow)
    refine ⟨hcompares, ?_, range_of_compares hcompares⟩
    have hkept : ∀ r ∈ t.rows, K.formatTime time.instant ≤ r.sequencedAt ↔
        time.instant ≤ (stamp r).instant := fun r hr => (hcompares r hr).trans (h.isAfter_iff hr _)
    rcases earliestAfterTime_cases (O := O) h time.instant with
      ⟨hres, hnone⟩ | ⟨e, he, hle, hleast, m, hm, hinst, hres⟩
    · refine ⟨none, hres, fun row hrow m hm => ?_⟩
      obtain ⟨m', hm', hinst⟩ := h.fromRow hrow
      obtain rfl := Except.ok.inj (hm.symm.trans hm')
      rw [hinst]
      exact not_le.1 (mt (hkept row hrow).2 (hnone row hrow))
    · refine ⟨some m, hres, ⟨e, he, hm⟩, ?_, fun row hrow m' hm' hafter => ?_⟩
      · rw [hinst]
        exact (hkept e he).1 hle
      · obtain ⟨m'', hm'', hinst'⟩ := h.fromRow hrow
        obtain rfl := Except.ok.inj (hm'.symm.trans hm'')
        rw [hinst'] at hafter
        rw [hinst, hinst']
        refine horder.first e he ((hkept e he).1 hle) (fun r hr hr' hsorts => ?_) row hrow hafter
        have hlt := (h.text_lt_iff hr he).2 hsorts
        exact not_le.2 hlt (hleast r hr ((hkept r hr).2 hr'))

/-! ### A row later in the millisecond -/

def newYear : Clock :=
  ⟨2026, 1, 1, 0, 0, 0, by decide, by decide, by decide, by decide, by decide, by decide⟩

def midnight : OffsetDateTime := ⟨newYear, by decide, 0, by decide, 0⟩

/-- 123456 nanoseconds after midnight, as the driver writes it. -/
def lateStamp : Stamp := ⟨newYear, 'T', [0, 0, 0, 1, 2, 3, 4, 5, 6], .letter false⟩

def lateRow : RepoSeqRow :=
  { sampleRow (.ofParts 1767225600000 7) with sequencedAt := "2026-01-01T00:00:00.000123456Z" }

def lateLog : RepoSeq := ⟨[lateRow], by simp⟩

def lateCodecs : Codecs :=
  { sampleCodecs with
    parseTime s :=
      if s = "2026-01-01T00:00:00.000123456Z" then .ok 1767225600000123456
      else sampleCodecs.parseTime s }

theorem stamped_lateLog : Stamped lateCodecs lateLog fun _ => lateStamp := by
  refine ⟨?_, ?_, ?_⟩ <;> intro row hrow <;> obtain rfl := List.mem_singleton.1 hrow
  · decide +kernel
  · decide
  · exact congrArg Except.ok (show (1767225600000123456 : Int) = lateStamp.instant by decide +kernel)

/-- The only row is after the time, and the query for the first such row finds none. -/
theorem late_row_not_found :
    earliestAfterTime lateCodecs inIdOrder lateLog midnight.instant = .ok none ∧
    ¬ ∀ (K : Codecs) (O : OrderByTime) (t : RepoSeq) (stamp : RepoSeqRow → Stamp)
      (time : OffsetDateTime), Stamped K t stamp → K.formatTime time.instant = time.format →
        ServesTime K O t time.instant := by
  have hnone : earliestAfterTime lateCodecs inIdOrder lateLog midnight.instant = .ok none := by
    unfold earliestAfterTime
    have hfirst : inIdOrder.first (lateLog.rows.filter fun row =>
        lateCodecs.formatTime midnight.instant ≤ row.sequencedAt) = none := by decide +kernel
    rw [hfirst]
  refine ⟨hnone, fun hall => ?_⟩
  obtain ⟨found, hfound, hearliest⟩ :=
    (hall lateCodecs inIdOrder lateLog _ midnight stamped_lateLog (by decide +kernel)).earliest
  obtain rfl := Except.ok.inj (hnone.symm.trans hfound)
  obtain ⟨m, hm, hinst⟩ := stamped_lateLog.fromRow (List.mem_singleton_self lateRow)
  have hlt := hearliest lateRow (List.mem_singleton_self lateRow) m hm
  rw [hinst] at hlt
  exact absurd hlt (by decide +kernel)

/-! ### Tables in UTC -/

/-- With `Z` throughout only the rows of one second matter: those that run along the milliseconds of
the time, and those whose digits another row of the window continues. -/
theorem textsInOrder_iff_of_plain (h : Stamped K t stamp)
    (hplain : ∀ row ∈ t.rows, (stamp row).Plain) (hutc : time.offset = 0) :
    TextsInOrder t stamp time ↔
      (∀ row ∈ t.rows, time.Abuts (stamp row) →
        ((stamp row).digits.length ≤ 3 ↔ time.instant ≤ (stamp row).instant)) ∧
      ∀ e ∈ t.rows, time.instant ≤ (stamp e).instant →
        (∀ row ∈ t.rows, time.instant ≤ (stamp row).instant → ¬ (stamp row).Sorts (stamp e)) →
        ∀ row ∈ t.rows, time.instant ≤ (stamp row).instant →
          (stamp e).clock.seconds = (stamp row).clock.seconds →
          (stamp row).digits <+: (stamp e).digits → (stamp e).instant ≤ (stamp row).instant := by
  constructor
  · intro horder
    refine ⟨fun row hrow habuts => ?_, fun e he hafter hfirst row hrow hrow' _ _ =>
      horder.first e he hafter hfirst row hrow hrow'⟩
    rw [← (horder.placed row hrow).abuts habuts]
    simp only [(hplain row hrow).zone, and_true]
  · rintro ⟨hplaced, hfirst⟩
    refine ⟨fun row hrow => ⟨fun habuts => ?_, fun hsep habuts => ?_, fun hsep => ?_⟩, ?_⟩
    · rw [← hplaced row hrow habuts]
      simp only [(hplain row hrow).zone, and_true]
    · have hsec := (hplain row hrow).second
      rw [OffsetDateTime.instant, hutc, (hplain row hrow).instant, Stamp.nanos, if_neg (by omega)]
      simp
    · exact absurd (hplain row hrow).sep hsep
    · intro e he hafter hleast row hrow hrow'
      rcases lt_or_ge e.sequencedAt row.sequencedAt with hlt | hge
      · have hsorts := (h.text_lt_iff he hrow).1 hlt
        rcases Stamp.sorts_plain (hplain e he) (hplain row hrow) hsorts with hle | ⟨hsec, hpre⟩
        · exact hle
        · exact hfirst e he hafter hleast row hrow hrow' hsec hpre
      · have hle := not_lt.1 (mt (h.text_lt_iff hrow he).1 (hleast row hrow hrow'))
        exact (h.instant_eq he hrow (le_antisymm hle hge)).le

theorem fraction_millis (time : OffsetDateTime) :
    fraction 9 time.millis = time.nanosecond / 1000000 * 1000000 := by
  have hns := time.nanosecond_lt
  simp only [OffsetDateTime.millis, fraction, Fin.ofNat]
  omega

/-- Had the column the format that the comment gives it, whole milliseconds would be served. -/
theorem textsInOrder_of_millis (h : Stamped K t stamp)
    (hplain : ∀ row ∈ t.rows, (stamp row).Plain ∧ (stamp row).digits.length = 3)
    (hutc : time.offset = 0) (hms : time.nanosecond % 1000000 = 0) : TextsInOrder t stamp time := by
  refine (textsInOrder_iff_of_plain h (fun row hrow => (hplain row hrow).1) hutc).2 ⟨?_, ?_⟩
  · intro row hrow habuts
    obtain ⟨hp, hlen⟩ := hplain row hrow
    have heq : (stamp row).digits = time.millis := by
      rcases habuts.digits with hpre | hpre
      · exact hpre.eq_of_length hlen
      · exact (hpre.eq_of_length hlen.symm).symm
    obtain ⟨hh, hm, hs⟩ := Clock.time_eq_iff.1 habuts.time
    have hsec : (stamp row).clock.seconds = time.clock.seconds := by
      unfold Clock.seconds
      rw [habuts.date, hh, hm, hs]
    rw [hp.instant, heq, fraction_millis, hsec, OffsetDateTime.instant, OffsetDateTime.nanos, hutc]
    refine iff_of_true (show time.millis.length ≤ 3 from le_refl 3) ?_
    omega
  · intro e he _ _ row hrow _ hsec hpre
    obtain ⟨hpe, hlen⟩ := hplain e he
    obtain ⟨hprow, hlen'⟩ := hplain row hrow
    rw [hpe.instant, hprow.instant, hsec, hpre.eq_of_length (hlen'.trans hlen.symm)]

theorem stamped_quietLog :
    Stamped sampleCodecs quietLog fun _ => ⟨newYear, 'T', [0, 0, 0], .letter false⟩ := by
  refine ⟨?_, ?_, ?_⟩ <;> intro row hrow <;> obtain rfl := List.mem_singleton.1 hrow
  · decide +kernel
  · decide
  · decide +kernel

/-- One row at midnight, in the format of the comment. -/
theorem serves_midnight : ServesTime sampleCodecs inIdOrder quietLog midnight.instant :=
  (servesTime_iff inIdOrder stamped_quietLog (by decide +kernel)).2
    (textsInOrder_of_millis stamped_quietLog (fun _ _ => ⟨⟨rfl, rfl, by decide⟩, rfl⟩) rfl rfl)

end CacosPds.Sequencer
