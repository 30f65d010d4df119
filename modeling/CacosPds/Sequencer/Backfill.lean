import CacosPds.Sequencer.RepoSeq
/-!
# The backfill of an outbox (`cacos-pds-sequencer/src/outbox.rs:22-184`)

| here | there |
| --- | --- |
| `Outbox`, `Outbox.new`  | the outbox's own fields (`outbox.rs:37-66`) |
| `observeMax`            | `observe_max` (`outbox.rs:72`), its gauge as a value |
| `getBackfill`           | `get_backfill` (`outbox.rs:157`) |

`get_backfill` asks for one page from the start of the table, `LIMIT 500` with no `earliest_seq`, and
applies the cursor to what comes back (`outbox.rs:164-178`). What it should return is `wanted`;
`getBackfill_exact_iff` says for which tables and cursors it does.
-/
namespace CacosPds.Sequencer

/-- `PAGE_SIZE` (`outbox.rs:22`). -/
def PAGE_SIZE : Nat := 500

structure Outbox where
  caughtUp : Bool
  lastSeen : Int
  cutoverBuffer : List SeqEvt
  backfillCursor : Option Int
  maxObserved : Int

/-- `Outbox::new` (`outbox.rs:52`). -/
def Outbox.new : Outbox := ⟨false, -1, [], none, -1⟩

/-- `observe_max` (`outbox.rs:72`): the outbox and the lag it reports. -/
def Outbox.observeMax (o : Outbox) (seq : Int) : Outbox × Int :=
  let o := if o.maxObserved < seq then { o with maxObserved := seq } else o
  (o, max 0 (o.maxObserved - o.lastSeen))

variable (K : Codecs)

/-- One row of the loop in `get_backfill` (`outbox.rs:173-181`). -/
def backfillRow (start : Int) (s : List SeqEvt × Outbox) (row : RepoSeqModel) :
    List SeqEvt × Outbox :=
  match typedSeqEvt K row with
  | .ok typed =>
    if start < typed.seq then (s.1 ++ [typed], { s.2 with lastSeen := typed.seq }) else s
  | .error _ => s

/-- `get_backfill` (`outbox.rs:157-184`). -/
def getBackfill (t : RepoSeq) (o : Outbox) (backfillCursor : Int) : List SeqEvt × Outbox :=
  let start := max o.lastSeen backfillCursor
  match requestSeqRange K t { limit := some (PAGE_SIZE : Int) } with
  | .ok rows => rows.foldl (backfillRow K start) ([], o)
  | .error _ => ([], o)

/-! ## What the backfill should be -/

/-- The rows that were not invalidated. -/
def RepoSeq.live (t : RepoSeq) : List RepoSeqRow := t.rows.filter fun row => row.invalidated = some 0

/-- The typed events of some rows that lie after the cursor. -/
def eventsAfter (c : Int) (rows : List RepoSeqRow) : List SeqEvt :=
  (rows.filterMap (typedOfRow K)).filter fun e => c < e.seq

/-- The events a consumer at cursor `c` still needs. -/
def wanted (t : RepoSeq) (c : Int) : List SeqEvt := eventsAfter K c t.live

/-- Ascending, and each wanted event once. -/
def BackfillExact (t : RepoSeq) (c : Int) (evts : List SeqEvt) : Prop :=
  evts.Pairwise (fun a b => a.seq ≤ b.seq) ∧ evts.Perm (wanted K t c)

/-- The row's event is one the consumer at `c` needs. -/
def WantedRow (c : Int) (row : RepoSeqRow) : Prop := ∃ e, typedOfRow K row = some e ∧ c < e.seq

variable {K} {t : RepoSeq} {c : Int}

theorem eventsAfter_append (rows rows' : List RepoSeqRow) :
    eventsAfter K c (rows ++ rows') = eventsAfter K c rows ++ eventsAfter K c rows' := by
  simp [eventsAfter]

theorem eventsAfter_eq_nil {rows : List RepoSeqRow} :
    eventsAfter K c rows = [] ↔ ∀ row ∈ rows, ¬ WantedRow K c row := by
  simp only [eventsAfter, List.filter_eq_nil_iff, List.mem_filterMap, decide_eq_true_eq, WantedRow]
  constructor
  · rintro h row hrow ⟨e, he, hc⟩
    exact h e ⟨row, hrow, he⟩ hc
  · rintro h e ⟨row, hrow, he⟩ hc
    exact h row hrow ⟨e, he, hc⟩

theorem mem_eventsAfter {rows : List RepoSeqRow} {e : SeqEvt} :
    e ∈ eventsAfter K c rows ↔ (∃ row ∈ rows, typedOfRow K row = some e) ∧ c < e.seq := by
  simp [eventsAfter]

/-- Rows in id order give events in seq order: the projection to milliseconds is monotone. -/
theorem eventsAfter_ascending {rows : List RepoSeqRow}
    (hs : rows.Pairwise fun a b => a.seq < b.seq) :
    (eventsAfter K c rows).Pairwise fun a b => a.seq ≤ b.seq := by
  refine List.Pairwise.filter _ (List.pairwise_filterMap.2 (hs.imp ?_))
  intro a b hab e he e' he'
  rw [typedOfRow_seq he, typedOfRow_seq he']
  exact Int.ofNat_le.2 (DbId.timestampMs_mono (Nat.le_of_lt hab))

/-! ## The loop -/

/-- A row is kept when it decodes and lies after the start. -/
theorem backfillRow_eventsAfter {row : RepoSeqRow} {m : RepoSeqModel}
    (h : repoSeqFromRow K row = .ok m) (start : Int) (s : List SeqEvt × Outbox) :
    (backfillRow K start s m).1 = s.1 ++ eventsAfter K start [row] := by
  unfold backfillRow eventsAfter
  cases he : typedSeqEvt K m with
  | error e => simp [typedOfRow, h, he, Except.toOption]
  | ok e =>
    by_cases hc : start < e.seq <;> simp [typedOfRow, h, he, Except.toOption, hc]

theorem foldl_backfillRow {rows : List RepoSeqRow} {ms : List RepoSeqModel}
    (h : List.Forall₂ (fun row m => repoSeqFromRow K row = .ok m) rows ms) (start : Int)
    (s : List SeqEvt × Outbox) :
    (ms.foldl (backfillRow K start) s).1 = s.1 ++ eventsAfter K start rows := by
  induction h generalizing s with
  | nil => simp [eventsAfter]
  | cons hrow _ ih =>
    rename_i row m rows ms
    rw [List.foldl_cons, ih, backfillRow_eventsAfter hrow, List.append_assoc, ← eventsAfter_append,
      List.singleton_append]

theorem page_eq (t : RepoSeq) :
    applyLimit (some (PAGE_SIZE : Int)) (t.rows.filter (inRange K { limit := some (PAGE_SIZE : Int) })) =
      t.live.take PAGE_SIZE := by
  have h : inRange K { limit := some (PAGE_SIZE : Int) } =
      fun row : RepoSeqRow => row.invalidated = some 0 := by
    funext row
    simp [inRange]
  rw [h]
  rfl

/-- The page decides: the events after the cursor among its rows when all of them parse, and
nothing at all when one does not. -/
theorem getBackfill_cases (t : RepoSeq) (o : Outbox) (c : Int) :
    ((∀ row ∈ t.live.take PAGE_SIZE, Parses K row) ∧
      (getBackfill K t o c).1 = eventsAfter K (max o.lastSeen c) (t.live.take PAGE_SIZE)) ∨
    ((∃ row ∈ t.live.take PAGE_SIZE, ¬ Parses K row) ∧ getBackfill K t o c = ([], o)) := by
  unfold getBackfill requestSeqRange
  simp only [page_eq]
  rcases mapM_repoSeqFromRow (K := K) (t.live.take PAGE_SIZE) with ⟨hp, ms, hms, hall⟩ | ⟨hp, e, he⟩
  · refine .inl ⟨hp, ?_⟩
    rw [hms]
    exact (foldl_backfillRow hall _ _).trans (List.nil_append _)
  · exact .inr ⟨hp, by rw [he]⟩

/-- No event has a negative seq, so starting at `max (-1) c` is starting at `c`. -/
theorem eventsAfter_max (c : Int) (rows : List RepoSeqRow) :
    eventsAfter K (max (-1) c) rows = eventsAfter K c rows := by
  refine List.filter_congr fun e he => ?_
  obtain ⟨row, _, hr⟩ := List.mem_filterMap.1 he
  have := typedOfRow_seq hr
  simp only [decide_eq_decide]
  omega

theorem wanted_split (t : RepoSeq) (c : Int) :
    wanted K t c = eventsAfter K c (t.live.take PAGE_SIZE) ++ eventsAfter K c (t.live.drop PAGE_SIZE) := by
  rw [← eventsAfter_append, List.take_append_drop, wanted]

theorem live_sorted (t : RepoSeq) : t.live.Pairwise fun a b => a.seq < b.seq := t.sorted.filter _

/-- **A backfill is complete exactly when one page holds it**: every row of the first page parses
and no row behind the page is wanted — or a row of the page does not parse and nothing was wanted. -/
theorem getBackfill_exact_iff (K : Codecs) (t : RepoSeq) (c : Int) :
    BackfillExact K t c (getBackfill K t .new c).1 ↔
      ((∀ row ∈ t.live.take PAGE_SIZE, Parses K row) ∧
        ∀ row ∈ t.live.drop PAGE_SIZE, ¬ WantedRow K c row) ∨
      ((∃ row ∈ t.live.take PAGE_SIZE, ¬ Parses K row) ∧ ∀ row ∈ t.live, ¬ WantedRow K c row) := by
  rcases getBackfill_cases t .new c with ⟨hp, he⟩ | ⟨hp, he⟩
  · have hnot : ¬ ∃ row ∈ t.live.take PAGE_SIZE, ¬ Parses K row := fun ⟨row, hr, hn⟩ => hn (hp row hr)
    rw [he, Outbox.new, eventsAfter_max, BackfillExact, wanted_split]
    simp only [hnot, false_and, or_false, ← eventsAfter_eq_nil]
    constructor
    · rintro ⟨-, hperm⟩
      have := hperm.length_eq
      rw [List.length_append] at this
      exact ⟨hp, List.length_eq_zero_iff.1 (by omega)⟩
    · rintro ⟨-, hnil⟩
      refine ⟨eventsAfter_ascending ((live_sorted t).sublist (List.take_sublist _ _)), ?_⟩
      rw [hnil, List.append_nil]
  · have hnot : ¬ ∀ row ∈ t.live.take PAGE_SIZE, Parses K row := fun h =>
      let ⟨row, hr, hn⟩ := hp; hn (h row hr)
    rw [he, BackfillExact]
    simp only [hnot, false_and, false_or, ← eventsAfter_eq_nil]
    constructor
    · rintro ⟨-, hperm⟩
      exact ⟨hp, List.nil_perm.1 hperm⟩
    · rintro ⟨-, hnil⟩
      exact ⟨.nil, by rw [wanted, hnil]⟩

theorem getBackfill_length_le (t : RepoSeq) (c : Int) :
    (getBackfill K t .new c).1.length ≤ PAGE_SIZE := by
  rcases getBackfill_cases t .new c with ⟨-, he⟩ | ⟨-, he⟩ <;> rw [he]
  · calc (eventsAfter K _ (t.live.take PAGE_SIZE)).length
        ≤ (t.live.take PAGE_SIZE).length :=
          Nat.le_trans (List.length_filter_le _ _) (List.length_filterMap_le _ _)
      _ ≤ PAGE_SIZE := List.length_take_le _ _
  · exact Nat.zero_le _

/-- A backfill leaves the outbox at the seq of its last event or later. -/
theorem foldl_backfillRow_le (start : Int) (ms : List RepoSeqModel)
    (hs : ms.Pairwise fun a b => a.seq < b.seq) (s : List SeqEvt × Outbox)
    (h : ∀ e ∈ s.1, e.seq ≤ s.2.lastSeen)
    (hms : s.1 ≠ [] → ∀ m ∈ ms, s.2.lastSeen ≤ m.seq.timestampMs) :
    ∀ e ∈ (ms.foldl (backfillRow K start) s).1,
      e.seq ≤ (ms.foldl (backfillRow K start) s).2.lastSeen := by
  induction ms generalizing s with
  | nil => exact h
  | cons m ms ih =>
    obtain ⟨hm, hs⟩ := List.pairwise_cons.1 hs
    rw [List.foldl_cons]
    cases hrow : typedSeqEvt K m with
    | error _ =>
      simp only [backfillRow, hrow]
      exact ih hs s h fun hne x hx => hms hne x (List.mem_cons_of_mem m hx)
    | ok e =>
      simp only [backfillRow, hrow]
      split
      · refine ih hs _ ?_ ?_
        · intro x hx
          rcases List.mem_append.1 hx with hx | hx
          · have hne : s.1 ≠ [] := List.ne_nil_of_mem hx
            have := hms hne m List.mem_cons_self
            have := h x hx
            rw [typedSeqEvt_seq hrow]
            simp only
            omega
          · rw [List.mem_singleton.1 hx]
        · intro _ x hx
          rw [typedSeqEvt_seq hrow]
          exact Int.ofNat_le.2 (DbId.timestampMs_mono (Nat.le_of_lt (hm x hx)))
      · exact ih hs s h fun hne x hx => hms hne x (List.mem_cons_of_mem m hx)

theorem mapM_repoSeqFromRow_seq {rows : List RepoSeqRow} {ms : List RepoSeqModel}
    (h : List.Forall₂ (fun row m => repoSeqFromRow K row = .ok m) rows ms) :
    ms.map (·.seq) = rows.map (·.seq) := by
  induction h with
  | nil => rfl
  | cons hrow _ ih => rw [List.map_cons, List.map_cons, ih, repoSeqFromRow_seq hrow]

/-- The events of a backfill lie at or below the `last_seen` it leaves behind. -/
theorem getBackfill_le_lastSeen (t : RepoSeq) (o : Outbox) (cursor : Int) :
    ∀ e ∈ (getBackfill K t o cursor).1, e.seq ≤ (getBackfill K t o cursor).2.lastSeen := by
  unfold getBackfill requestSeqRange
  simp only [page_eq]
  rcases mapM_repoSeqFromRow (K := K) (t.live.take PAGE_SIZE) with ⟨-, ms, hms, hall⟩ | ⟨-, e, he⟩
  · rw [hms]
    have hsorted : (ms.map (·.seq)).Pairwise (· < ·) := by
      rw [mapM_repoSeqFromRow_seq hall]
      exact List.pairwise_map.2 ((live_sorted t).sublist (List.take_sublist _ _))
    exact foldl_backfillRow_le _ ms (List.pairwise_map.1 hsorted) _ (by simp) (by simp)
  · rw [he]
    simp

/-- The loop leaves `last_seen` where it was or at an event it kept. -/
theorem foldl_backfillRow_lastSeen (start : Int) (ms : List RepoSeqModel)
    (s : List SeqEvt × Outbox) :
    (ms.foldl (backfillRow K start) s).2.lastSeen = s.2.lastSeen ∨
      ∃ e ∈ (ms.foldl (backfillRow K start) s).1,
        (ms.foldl (backfillRow K start) s).2.lastSeen = e.seq := by
  have hkeep : ∀ (ms : List RepoSeqModel) (s : List SeqEvt × Outbox), ∀ e ∈ s.1,
      e ∈ (ms.foldl (backfillRow K start) s).1 := by
    intro ms
    induction ms with
    | nil => exact fun _ _ he => he
    | cons m ms ih =>
      intro s e he
      refine ih _ e ?_
      unfold backfillRow
      split
      · split
        · exact List.mem_append_left _ he
        · exact he
      · exact he
  induction ms generalizing s with
  | nil => exact .inl rfl
  | cons m ms ih =>
    rw [List.foldl_cons]
    rcases ih (backfillRow K start s m) with h | h
    · rw [h]
      simp only [backfillRow]
      split
      · rename_i e _
        split
        · exact .inr ⟨e, hkeep ms _ e (List.mem_append_right _ (List.mem_singleton_self e)), rfl⟩
        · exact .inl rfl
      · exact .inl rfl
    · exact .inr h

theorem getBackfill_lastSeen (t : RepoSeq) (o : Outbox) (cursor : Int) :
    (getBackfill K t o cursor).2.lastSeen = o.lastSeen ∨
      ∃ e ∈ (getBackfill K t o cursor).1, (getBackfill K t o cursor).2.lastSeen = e.seq := by
  unfold getBackfill
  simp only
  split
  · exact foldl_backfillRow_lastSeen _ _ _
  · exact .inl rfl

/-- A table of `n` sample events, one a millisecond. -/
def sampleTable (n : Nat) (hn : n ≤ 2 ^ 40) : RepoSeq where
  rows := (List.range n).map fun i => sampleRow (.ofParts (i + 1) 0)
  sorted := by
    refine List.pairwise_map.2 (List.pairwise_lt_range.imp_of_mem ?_)
    intro a b ha hb hab
    have := List.mem_range.1 ha
    have := List.mem_range.1 hb
    simp only [sampleRow, DbId.lt_def, DbId.ofParts]
    omega

theorem wanted_sampleTable (n : Nat) (hn : n ≤ 2 ^ 40) :
    wanted sampleCodecs (sampleTable n hn) 0 =
      (List.range n).map fun i => sampleEvt (.ofParts (i + 1) 0) := by
  have hlive : (sampleTable n hn).live = (sampleTable n hn).rows :=
    List.filter_eq_self.2 fun row hrow => by
      obtain ⟨i, -, rfl⟩ := List.mem_map.1 hrow
      rfl
  have htyped : ((sampleTable n hn).rows.filterMap (typedOfRow sampleCodecs)) =
      (List.range n).map fun i => sampleEvt (.ofParts (i + 1) 0) := by
    simp [sampleTable, List.filterMap_map, typedOfRow_sampleRow]
  rw [wanted, hlive, eventsAfter, htyped]
  refine List.filter_eq_self.2 fun e he => ?_
  obtain ⟨i, hi, rfl⟩ := List.mem_map.1 he
  have hi := List.mem_range.1 hi
  have := DbId.timestampMs_ofParts (show i + 1 < 2 ^ 48 by omega) 0
  simp only [sampleEvt, sampleTyped, SeqEvt.seq, this, decide_eq_true_eq]
  omega

/-- 501 events and a consumer that starts at 0: the last one never comes. -/
theorem getBackfill_misses_row_501 :
    ¬ BackfillExact sampleCodecs (sampleTable 501 (by decide)) 0
      (getBackfill sampleCodecs (sampleTable 501 (by decide)) .new 0).1 := by
  rintro ⟨-, hperm⟩
  have hle := getBackfill_length_le (K := sampleCodecs) (sampleTable 501 (by decide)) 0
  rw [hperm.length_eq, wanted_sampleTable, List.length_map, List.length_range, PAGE_SIZE] at hle
  omega

end CacosPds.Sequencer
