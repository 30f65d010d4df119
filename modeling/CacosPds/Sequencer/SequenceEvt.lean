import CacosPds.Lib.Run
import CacosPds.Sequencer.Backfill
/-!
# `sequence_evt` (`cacos-pds-sequencer/src/mod.rs:190-219`)

| here | there |
| --- | --- |
| `RepoSeqNew`, `newRow` | `RepoSeqNew` and its `ActiveModel` (`events.rs:416-455`) with the id filled in |
| `SeqEventJob`          | `SeqEventJob` (`apalis_worker.rs:23`), its pool handle left out |
| `seqEventJob`          | the job `sequence_evt` builds from the inserted row (`mod.rs:205-212`) |
| `SeqState`, `seqStep`  | any number of `sequence_evt` calls in flight on one table |

A call draws its id and inserts its row in two steps; calls run on clones of the sequencer, so other
calls come in between. The id generator is the whole process's: other tables draw from it too, and a
restart starts it over.

The wire seq is the id's millisecond. Rows have distinct ids but only `WireOrdered` tables have
distinct wire seqs, and two calls in one millisecond break that (`draw_store_collides`).
-/
namespace CacosPds.Sequencer

structure RepoSeqNew where
  did : String
  eventType : String
  event : Bytes
  sequencedAt : Instant

/-- The row `sequence_evt` inserts; a new event is not invalidated (`events.rs:451`). -/
def newRow (K : Codecs) (evt : RepoSeqNew) (seq : DbId) : RepoSeqRow :=
  ⟨seq, evt.did, evt.eventType, evt.event, some 0, K.storeTime evt.sequencedAt⟩

structure SeqEventJob where
  seq : Int
  envelope : String
  deriving DecidableEq, Repr

/-- The job of an inserted row; an event `typed_seq_evt` rejects gets none and the call fails. -/
def seqEventJob (K : Codecs) (row : RepoSeqModel) : Except String SeqEventJob := do
  let typed ← typedSeqEvt K row
  return ⟨row.seq.timestampMs, K.toJson typed⟩

/-- The ids handed out, the table, and the rows whose insert is still to come. -/
structure SeqState where
  previous : DbId
  table : RepoSeq
  inflight : List RepoSeqRow

inductive SeqStep where
  /-- A `sequence_evt` call draws its id. -/
  | draw (now rnd : Nat) (evt : RepoSeqNew)
  /-- The insert of the `i`-th call in flight. -/
  | store (i : Nat)
  /-- That call is cancelled, or its insert fails. -/
  | abandon (i : Nat)
  /-- `DbId::new` for a row of another table. -/
  | otherId (now rnd : Nat)
  /-- The process stops and starts again. -/
  | restart

variable (K : Codecs) (G : UlidGenerator)

/-- One step. Drawing stops when the 128 bits or the clock's 48 are used up. -/
def seqStep (s : SeqState) : SeqStep → Option SeqState
  | .draw now rnd evt =>
    if s.previous.val + 1 < 2 ^ 128 ∧ now < 2 ^ 48 then
      let seq := DbId.new G s.previous now rnd
      some { s with previous := seq, inflight := s.inflight ++ [newRow K evt seq] }
    else none
  | .store i =>
    s.inflight[i]?.map fun row =>
      { s with table := (s.table.insert row).getD s.table, inflight := s.inflight.eraseIdx i }
  | .abandon i => s.inflight[i]?.map fun _ => { s with inflight := s.inflight.eraseIdx i }
  | .otherId now rnd =>
    if s.previous.val + 1 < 2 ^ 128 ∧ now < 2 ^ 48 then
      some { s with previous := DbId.new G s.previous now rnd }
    else none
  | .restart => some { s with previous := ⟨0, by decide⟩, inflight := [] }

/-- The first start of a server. -/
def SeqState.start : SeqState := ⟨⟨0, by decide⟩, .empty, []⟩

/-- Wire seqs follow the row order strictly, so a consumer that resumes at the last seq it saw gets
every later row that is not invalidated. -/
structure WireOrdered (t : RepoSeq) : Prop where
  increasing : ∀ a ∈ t.rows, ∀ b ∈ t.rows, a.seq < b.seq →
    ∀ ea eb, typedOfRow K a = some ea → typedOfRow K b = some eb → ea.seq < eb.seq
  resume : ∀ a ∈ t.rows, ∀ b ∈ t.live, a.seq < b.seq →
    ∀ ea eb, typedOfRow K a = some ea → typedOfRow K b = some eb → eb ∈ wanted K t ea.seq

/-- The condition on a draw: the generator's millisecond is over for every event sequenced so far,
stored or in flight (events that do not decode have no wire seq and do not count). -/
def FreshMillisecond (s : SeqState) : SeqStep → Prop
  | .draw now _ evt => (typedOfRow K (newRow K evt s.previous)).isSome →
      ∀ row ∈ s.table.rows ++ s.inflight, (typedOfRow K row).isSome →
        row.seq.timestampMs ≠ DbId.generatorMs s.previous now
  | _ => True

variable {K G}

theorem WireOrdered.of_increasing {t : RepoSeq}
    (h : ∀ a ∈ t.rows, ∀ b ∈ t.rows, a.seq < b.seq →
      ∀ ea eb, typedOfRow K a = some ea → typedOfRow K b = some eb → ea.seq < eb.seq) :
    WireOrdered K t where
  increasing := h
  resume a ha b hb hab ea eb hea heb :=
    mem_eventsAfter.2 ⟨⟨b, hb, heb⟩, h a ha b (List.mem_of_mem_filter hb) hab ea eb hea heb⟩

/-- Whether a row decodes does not depend on its id. -/
theorem typedOfRow_isSome_newRow (evt : RepoSeqNew) (a b : DbId) :
    (typedOfRow K (newRow K evt a)).isSome = (typedOfRow K (newRow K evt b)).isSome := by
  simp only [typedOfRow, repoSeqFromRow, newRow]
  cases K.parseTime (K.storeTime evt.sequencedAt) with
  | error _ => rfl
  | ok at_ =>
    simp only [typedSeqEvt, typedArm]
    split
    · cases K.commit evt.event <;> rfl
    split
    · cases K.sync evt.event <;> rfl
    split
    · cases K.identity evt.event <;> rfl
    split
    · cases K.account evt.event <;> rfl
    · rfl

/-! ## Runs -/

/-- Two rows that both decode are of different milliseconds. -/
def Apart (K : Codecs) (a b : RepoSeqRow) : Prop :=
  (typedOfRow K a).isSome → (typedOfRow K b).isSome → a.seq.timestampMs ≠ b.seq.timestampMs

theorem Apart.symm {a b : RepoSeqRow} (h : Apart K a b) : Apart K b a :=
  fun hb ha => (h ha hb).symm

/-- The invariant: all events sequenced, stored or in flight, are of different milliseconds. -/
def SeqState.Spread (K : Codecs) (s : SeqState) : Prop :=
  (s.table.rows ++ s.inflight).Pairwise (Apart K)

theorem SeqState.Spread.wireOrdered {s : SeqState} (h : s.Spread K) : WireOrdered K s.table := by
  refine .of_increasing fun a ha b hb hab ea eb hea heb => ?_
  have hrows : s.table.rows.Pairwise (Apart K) := (List.pairwise_append.1 h).1
  have hne : a ≠ b := by
    rintro rfl
    exact Nat.lt_irrefl _ hab
  have happ : Apart K a b := by
    have : Std.Symm (Apart K) := ⟨fun _ _ => Apart.symm⟩
    exact hrows.forall ha hb hne
  have hms := happ (by rw [hea]; rfl) (by rw [heb]; rfl)
  have hle := DbId.timestampMs_mono (Nat.le_of_lt hab)
  rw [typedOfRow_seq hea, typedOfRow_seq heb]
  omega

theorem spread_draw {s t : SeqState} {now rnd : Nat} {evt : RepoSeqNew} (h : s.Spread K)
    (hC : FreshMillisecond K s (.draw now rnd evt)) (hs : seqStep K G s (.draw now rnd evt) = some t) :
    t.Spread K := by
  simp only [seqStep] at hs
  split at hs
  · rename_i hok
    cases hs
    unfold SeqState.Spread
    rw [← List.append_assoc]
    refine List.pairwise_append.2 ⟨h, List.pairwise_singleton _ _, ?_⟩
    intro a ha b hb haS hbS
    rw [List.mem_singleton.1 hb] at hbS ⊢
    rw [typedOfRow_isSome_newRow evt _ s.previous] at hbS
    have hms : (newRow K evt (DbId.new G s.previous now rnd)).seq.timestampMs =
        DbId.generatorMs s.previous now := DbId.timestampMs_new G hok.1 hok.2 rnd
    rw [hms]
    exact hC hbS a ha haS
  · cases hs

theorem perm_eraseIdx {α : Type} {xs : List α} {i : Nat} {x : α} (h : xs[i]? = some x) :
    xs.Perm (x :: xs.eraseIdx i) := by
  obtain ⟨hi, rfl⟩ := List.getElem?_eq_some_iff.1 h
  exact (List.getElem_cons_eraseIdx_perm hi).symm

theorem spread_store {s t : SeqState} {i : Nat} (h : s.Spread K)
    (hs : seqStep K G s (.store i) = some t) : t.Spread K := by
  obtain ⟨row, hrow, rfl⟩ := Option.map_eq_some_iff.1 hs
  have : Std.Symm (Apart K) := ⟨fun _ _ => Apart.symm⟩
  have hperm : (s.table.rows ++ s.inflight).Perm ((row :: s.table.rows) ++ s.inflight.eraseIdx i) :=
    ((perm_eraseIdx hrow).append_left _).trans List.perm_middle
  have hall := (hperm.pairwise_iff Apart.symm).1 h
  unfold SeqState.Spread
  cases hins : s.table.insert row with
  | some t' =>
    simp only [Option.getD_some, RepoSeq.insert_rows hins]
    exact (((insertRow_perm row s.table.rows).append_right _).pairwise_iff Apart.symm).2 hall
  | none => exact (List.pairwise_cons.1 hall).2

theorem spread_step {s t : SeqState} {a : SeqStep} (h : s.Spread K) (hC : FreshMillisecond K s a)
    (hs : seqStep K G s a = some t) : t.Spread K := by
  cases a with
  | draw now rnd evt => exact spread_draw h hC hs
  | store i => exact spread_store h hs
  | abandon i =>
    obtain ⟨row, -, rfl⟩ := Option.map_eq_some_iff.1 hs
    exact h.sublist ((List.Sublist.refl _).append (List.eraseIdx_sublist _ _))
  | otherId now rnd =>
    simp only [seqStep] at hs
    split at hs
    · cases hs; exact h
    · cases hs
  | restart =>
    cases hs
    unfold SeqState.Spread
    rw [List.append_nil]
    exact (List.pairwise_append.1 h).1

theorem spread_start (K : Codecs) : SeqState.start.Spread K := by
  simp [SeqState.Spread, SeqState.start, RepoSeq.empty]

/-- **Wire seqs are strictly increasing in every run that draws each id in a millisecond of its
own.** -/
theorem wireOrdered_of_freshMillisecond (K : Codecs) (G : UlidGenerator) (as : List SeqStep)
    (h : Runs.Along (seqStep K G) (FreshMillisecond K) .start as) :
    Runs.Always (seqStep K G) (fun s => WireOrdered K s.table) .start as := by
  have hall := Runs.always_of_along (fun _ _ _ hs hC ht => spread_step hs hC ht) (spread_start K) as h
  exact hall.mono fun _ hs => hs.wireOrdered

instance (s : SeqState) : ∀ a, Decidable (FreshMillisecond K s a)
  | .draw now _ evt => inferInstanceAs (Decidable ((typedOfRow K (newRow K evt s.previous)).isSome →
      ∀ row ∈ s.table.rows ++ s.inflight, (typedOfRow K row).isSome →
        row.seq.timestampMs ≠ DbId.generatorMs s.previous now))
  | .store _ | .abandon _ | .otherId .. | .restart => isTrue trivial

/-- A sample event sequenced at `now`. -/
def sampleDraw (now : Nat) : SeqStep := .draw now 0 ⟨"did:plc:a", "identity", sampleBody, 0⟩

theorem wireOrdered_two_milliseconds :
    Runs.Always (seqStep sampleCodecs ulidReference) (fun s => WireOrdered sampleCodecs s.table)
      .start [sampleDraw 5, .store 0, sampleDraw 6, .store 0] :=
  wireOrdered_of_freshMillisecond sampleCodecs ulidReference _ (by decide)

/-! ## Two calls in one millisecond -/

/-- A draw in the millisecond of a stored event puts two rows with one wire seq into the table as
soon as its own row is stored: the condition on draws cannot be weakened. -/
theorem draw_store_collides {s t u : SeqState} {now rnd : Nat} {evt : RepoSeqNew} {row : RepoSeqRow}
    (hrow : row ∈ s.table.rows) (hdec : (typedOfRow K row).isSome)
    (hnew : (typedOfRow K (newRow K evt s.previous)).isSome)
    (hms : row.seq.timestampMs = DbId.generatorMs s.previous now)
    (hold : ∀ x ∈ s.table.rows, x.seq ≤ s.previous)
    (hdraw : seqStep K G s (.draw now rnd evt) = some t)
    (hstore : seqStep K G t (.store s.inflight.length) = some u) : ¬ WireOrdered K u.table := by
  simp only [seqStep] at hdraw
  split at hdraw
  case isFalse => cases hdraw
  rename_i hok
  cases hdraw
  simp only [seqStep, List.getElem?_concat_length, Option.map_some, Option.some.injEq] at hstore
  subst hstore
  -- the new id is above every id of the table, so the insert succeeds behind `row`
  have hlt : ∀ x ∈ s.table.rows, x.seq < DbId.new G s.previous now rnd := fun x hx =>
    Nat.lt_of_le_of_lt (hold x hx) (DbId.lt_new G hok.1 hok.2 rnd)
  obtain ⟨t', ht'⟩ := RepoSeq.insert_of_lt (r := newRow K evt (DbId.new G s.previous now rnd)) hlt
  simp only [ht', Option.getD_some]
  intro hw
  obtain ⟨ea, hea⟩ := Option.isSome_iff_exists.1 hdec
  rw [typedOfRow_isSome_newRow evt _ (DbId.new G s.previous now rnd)] at hnew
  obtain ⟨eb, heb⟩ := Option.isSome_iff_exists.1 hnew
  have := hw.increasing row ((RepoSeq.mem_insert ht').2 (.inr hrow)) _
    ((RepoSeq.mem_insert ht').2 (.inl rfl)) (hlt row hrow) ea eb hea heb
  have hnms := DbId.timestampMs_new G hok.1 hok.2 rnd
  rw [typedOfRow_seq hea, typedOfRow_seq heb, hms] at this
  simp only [newRow, hnms, Int.lt_irrefl] at this

/-- Two events sequenced in the millisecond 5. -/
theorem wireOrdered_fails_within_millisecond :
    ¬ Runs.Always (seqStep sampleCodecs ulidReference) (fun s => WireOrdered sampleCodecs s.table)
      .start [sampleDraw 5, .store 0, sampleDraw 5, .store 0] := by
  intro h
  obtain ⟨s, hs, hrows⟩ : ∃ s, Runs.run (seqStep sampleCodecs ulidReference) .start
      [sampleDraw 5, .store 0, sampleDraw 5, .store 0] = some s ∧
      s.table.rows = [sampleRow (.ofParts 5 0), sampleRow (.ofParts 5 1)] := ⟨_, rfl, rfl⟩
  have hw := h.last hs
  have hlt := hw.increasing (sampleRow (.ofParts 5 0)) (by simp [hrows])
    (sampleRow (.ofParts 5 1)) (by simp [hrows]) (by decide) _ _ (typedOfRow_sampleRow _)
    (typedOfRow_sampleRow _)
  exact absurd hlt (by decide)

end CacosPds.Sequencer
