import CacosPds.Sequencer.LiveStream
import CacosPds.Sequencer.SequenceEvt
/-!
# From backfill to live (`cacos-pds-sequencer/src/outbox.rs:80-147`)

One call of `Outbox::events(Some(c))` next to the sequencer and the worker. The call reads its
backfill (`CutoverStep.snapshot`) and subscribes afterwards (`CutoverStep.subscribe`); rows are
inserted and their envelopes published before, between and after. An inserted event waits in
`unpublished` until the worker publishes it, in any order; while nobody is subscribed a published
envelope reaches no one. `events_eq_cutover`: with nothing in between, the two steps are
`Outbox.events`.

The outbox has a `cutover_buffer` and a `caught_up` flag for the time in between
(`outbox.rs:38-40`); nothing fills the one or reads the other.

Inserts keep to tables of fewer than `PAGE_SIZE` rows with distinct wire seqs, so that neither the
page (`getBackfill_exact_iff`) nor the millisecond (`wireOrdered_of_freshMillisecond`) is to blame.
-/
namespace CacosPds.Sequencer

inductive CutoverPhase where
  | before
  | snapshot (backfill : List SeqEvt) (lastSeen : Int)
  /-- The stream, and the backfill it began with. -/
  | streaming (backfill : List SeqEvt) (live : Live)

structure Cutover where
  table : RepoSeq
  unpublished : List SeqEvt
  phase : CutoverPhase

inductive CutoverStep where
  | insert (evt : RepoSeqNew) (seq : DbId)
  | publish (i : Nat)
  | snapshot
  | subscribe
  /-- A step of the stream's task or consumer. -/
  | stream (a : LiveStep)

/-- The typed events of a table. -/
def typedEvents (K : Codecs) (t : RepoSeq) : List SeqEvt := t.rows.filterMap (typedOfRow K)

/-- A wire seq no event of the table has. -/
def freshWireSeq (K : Codecs) (t : RepoSeq) (row : RepoSeqRow) : Bool :=
  (typedOfRow K row).all fun e => (typedEvents K t).all fun e' => e'.seq ≠ e.seq

/-- The steps that are the stream's own. -/
def LiveStep.isOwn : LiveStep → Bool
  | .publish _ | .close => false
  | _ => true

variable (K : Codecs) (cap : Nat) (c : Int)

def cutoverStep (s : Cutover) : CutoverStep → Option Cutover
  | .insert evt seq =>
    let row := newRow K evt seq
    if s.table.rows.length + 1 < PAGE_SIZE ∧ freshWireSeq K s.table row then
      (s.table.insert row).map fun table =>
        { s with table := table, unpublished := s.unpublished ++ (typedOfRow K row).toList }
    else none
  | .publish i =>
    (s.unpublished[i]?).map fun e =>
      { s with
        unpublished := s.unpublished.eraseIdx i
        phase := match s.phase with
          | .streaming backfill live =>
            .streaming backfill { live with sent := live.sent ++ [K.toJson e] }
          | phase => phase }
  | .snapshot =>
    match s.phase with
    | .before =>
      let r := getBackfill K s.table { Outbox.new with backfillCursor := some c } c
      some { s with phase := .snapshot r.1 r.2.lastSeen }
    | _ => none
  | .subscribe =>
    match s.phase with
    | .snapshot backfill lastSeen =>
      some { s with phase := .streaming backfill (.subscribe backfill lastSeen) }
    | _ => none
  | .stream a =>
    match s.phase with
    | .streaming backfill live =>
      if a.isOwn then
        (liveStep cap K.fromJson live a).map fun live => { s with phase := .streaming backfill live }
      else none
    | _ => none

def Cutover.start : Cutover := ⟨.empty, [], .before⟩

/-- Snapshot and subscription in one go are `Outbox.events`. -/
theorem events_eq_cutover (t : RepoSeq) (unpublished : List SeqEvt) :
    Runs.run (cutoverStep K cap c) ⟨t, unpublished, .before⟩ [.snapshot, .subscribe] =
      some ⟨t, unpublished, .streaming (Outbox.new.events K t (some c)).1.iter
        (Outbox.new.events K t (some c)).1⟩ := by
  simp [Runs.run, cutoverStep, Outbox.events, Live.subscribe, lastSeen_foldl_observeMax]

/-! ## What the consumer is owed -/

/-- What the task has sent on but not delivered. -/
def Task.outgoing : Task → List SeqEvt
  | .sending evt => [evt]
  | _ => []

/-- The event in the task's hand. -/
def Task.inHand : Task → List SeqEvt
  | .got evt => [evt]
  | _ => []

/-- What a stream has delivered or will deliver. -/
def Live.accepted (s : Live) : List SeqEvt := s.delivered ++ s.iter ++ s.channel ++ s.task.outgoing

/-- What a stream has still to look at. -/
def Live.ahead (decode : String → Option SeqEvt) (s : Live) : List SeqEvt :=
  s.task.inHand ++ decoded decode (s.sent.drop s.next)

/-- From the snapshot on: every event after the cursor is taken into the stream at most once, and
until it is, it is still to come. -/
def CutoverOnce (s : Cutover) : Prop :=
  match s.phase with
  | .before => True
  | .snapshot backfill _ => ∀ e ∈ wanted K s.table c,
      backfill.count e ≤ 1 ∧ (e ∈ backfill ∨ e ∈ s.unpublished)
  | .streaming _ live => live.ended = false → ∀ e ∈ wanted K s.table c,
      live.accepted.count e ≤ 1 ∧
        (e ∈ live.accepted ∨ e ∈ live.ahead K.fromJson ∨ e ∈ s.unpublished)

/-- The condition on the steps. Between snapshot and subscription only events of the backfill are
published; an overrun takes only events of the backfill; every other event reaches the task with a
higher seq than the backfill and all events before it. Events up to the cursor do not count. -/
def NoGap (s : Cutover) : CutoverStep → Prop
  | .publish i => ∀ backfill lastSeen, s.phase = .snapshot backfill lastSeen →
      ∀ e, s.unpublished[i]? = some e → c < e.seq → e ∈ backfill
  | .stream .recv => ∀ backfill live, s.phase = .streaming backfill live → live.ended = false →
      cap < live.sent.length - live.next →
      ∀ e ∈ decoded K.fromJson (Broadcast.passed cap live.sent live.next), c < e.seq → e ∈ backfill
  | .stream .check => ∀ backfill live, s.phase = .streaming backfill live → live.ended = false →
      ∀ evt, live.task = .got evt → c < evt.seq → evt ∉ backfill →
      ∀ e ∈ backfill ++ decoded K.fromJson (live.sent.take (live.next - 1)), e.seq < evt.seq
  | _ => True

/-! ## The invariant -/

/-- What the snapshot fixes: the backfill is in seq order, and `last_seen` is at its end. -/
structure BackfillInv (c : Int) (backfill : List SeqEvt) (lastSeen : Int) : Prop where
  sorted : backfill.Pairwise fun a b => a.seq < b.seq
  le : ∀ e ∈ backfill, e.seq ≤ lastSeen
  mark : ∀ x, c < x → 0 ≤ x → (lastSeen < x ↔ ∀ e ∈ backfill, e.seq < x)

structure StreamInv (K : Codecs) (c : Int) (backfill : List SeqEvt) (live : Live) : Prop where
  sorted : live.accepted.Pairwise fun a b => a.seq < b.seq
  le : ∀ e ∈ live.accepted, e.seq ≤ live.lastSeen
  keeps : ∀ e ∈ backfill, e ∈ live.accepted
  source : ∀ e ∈ live.accepted, e ∈ backfill ∨ e ∈ live.counted K.fromJson
  mark : ∀ x, c < x → 0 ≤ x → (live.lastSeen < x ↔
    (∀ e ∈ backfill, e.seq < x) ∧ ∀ e ∈ live.counted K.fromJson, e.seq < x)
  hand : ∀ evt, live.task = .got evt → decoded K.fromJson (live.sent.take live.next) =
    decoded K.fromJson (live.sent.take (live.next - 1)) ++ [evt]
  next_le : live.next ≤ live.sent.length

/-- The events broadcast to the stream. -/
def Cutover.heard (K : Codecs) (s : Cutover) : List SeqEvt :=
  match s.phase with
  | .streaming _ live => decoded K.fromJson live.sent
  | _ => []

/-- The table side: every row is live and parses, and an event is broadcast to the stream or waits
for publication at most once. -/
structure TableInv (K : Codecs) (s : Cutover) : Prop where
  live : ∀ row ∈ s.table.rows, row.invalidated = some 0
  parses : ∀ row ∈ s.table.rows, Parses K row
  small : s.table.rows.length < PAGE_SIZE
  distinct : (typedEvents K s.table).Pairwise fun a b => a.seq ≠ b.seq
  source : ∀ e ∈ s.heard K ++ s.unpublished, e ∈ typedEvents K s.table
  once : (s.heard K ++ s.unpublished).Pairwise fun a b => a.seq ≠ b.seq

/-- Every event after the cursor is taken, or still to come. -/
def Covered (K : Codecs) (c : Int) (s : Cutover) (taken ahead : List SeqEvt) : Prop :=
  ∀ e ∈ wanted K s.table c, e ∈ taken ∨ e ∈ ahead ∨ e ∈ s.unpublished

structure CutoverInv (K : Codecs) (c : Int) (s : Cutover) : Prop where
  table : TableInv K s
  snapshot : ∀ backfill lastSeen, s.phase = .snapshot backfill lastSeen →
    BackfillInv c backfill lastSeen ∧ Covered K c s backfill []
  streaming : ∀ backfill live, s.phase = .streaming backfill live → live.ended = false →
    StreamInv K c backfill live ∧ Covered K c s live.accepted (live.ahead K.fromJson)

variable {K cap c}

theorem count_le_one_of_sorted {evts : List SeqEvt} (h : evts.Pairwise fun a b => a.seq < b.seq)
    (e : SeqEvt) : evts.count e ≤ 1 := by
  refine List.nodup_iff_count_le_one.1 (h.imp ?_) e
  rintro a b hab rfl
  exact Int.lt_irrefl _ hab

theorem CutoverInv.cutoverOnce {s : Cutover} (h : CutoverInv K c s) : CutoverOnce K c s := by
  unfold CutoverOnce
  split
  · trivial
  · rename_i hp
    obtain ⟨hb, hcov⟩ := h.snapshot _ _ hp
    intro e he
    refine ⟨count_le_one_of_sorted hb.sorted e, ?_⟩
    rcases hcov e he with h | h | h
    · exact .inl h
    · cases h
    · exact .inr h
  · rename_i hp
    intro hopen e he
    obtain ⟨hst, hcov⟩ := h.streaming _ _ hp hopen
    exact ⟨count_le_one_of_sorted hst.sorted e, hcov e he⟩

theorem cutoverInv_start : CutoverInv K c .start where
  table :=
    { live := by simp [Cutover.start, RepoSeq.empty]
      parses := by simp [Cutover.start, RepoSeq.empty]
      small := by simp [Cutover.start, RepoSeq.empty, PAGE_SIZE]
      distinct := by simp [Cutover.start, RepoSeq.empty, typedEvents]
      source := by simp [Cutover.start, Cutover.heard]
      once := by simp [Cutover.start, Cutover.heard] }
  snapshot := by rintro _ _ ⟨⟩
  streaming := by rintro _ _ ⟨⟩

theorem mem_typedEvents {t : RepoSeq} {e : SeqEvt} :
    e ∈ typedEvents K t ↔ ∃ row ∈ t.rows, typedOfRow K row = some e := List.mem_filterMap

theorem TableInv.wanted_iff {s : Cutover} (h : TableInv K s) {e : SeqEvt} :
    e ∈ wanted K s.table c ↔ e ∈ typedEvents K s.table ∧ c < e.seq := by
  have hlive : s.table.live = s.table.rows :=
    List.filter_eq_self.2 fun row hrow => decide_eq_true (h.live row hrow)
  rw [wanted, mem_eventsAfter, hlive, mem_typedEvents]

/-- Steps of the call itself leave the table side alone. -/
theorem TableInv.of_phase {s : Cutover} (h : TableInv K s) (phase : CutoverPhase)
    (hh : Cutover.heard K { s with phase := phase } = s.heard K) :
    TableInv K { s with phase := phase } :=
  ⟨h.live, h.parses, h.small, h.distinct, by rw [hh]; exact h.source, by rw [hh]; exact h.once⟩

theorem typedEvents_nonneg {t : RepoSeq} {e : SeqEvt} (h : e ∈ typedEvents K t) : 0 ≤ e.seq := by
  obtain ⟨row, -, hrow⟩ := mem_typedEvents.1 h
  rw [typedOfRow_seq hrow]
  exact Int.natCast_nonneg _

/-! ### Inserts -/

theorem typedEvents_insert {t t' : RepoSeq} {row : RepoSeqRow} (h : t.insert row = some t') :
    (typedEvents K t').Perm ((typedOfRow K row).toList ++ typedEvents K t) := by
  have hperm := (insertRow_perm row t.rows).filterMap (typedOfRow K)
  rw [typedEvents, RepoSeq.insert_rows h]
  refine hperm.trans ?_
  rw [List.filterMap_cons]
  cases typedOfRow K row <;> exact .refl _

theorem parses_newRow (hstore : ∀ t, ∃ i, K.parseTime (K.storeTime t) = .ok i) (evt : RepoSeqNew)
    (seq : DbId) : Parses K (newRow K evt seq) := by
  obtain ⟨i, hi⟩ := hstore evt.sequencedAt
  exact ⟨⟨seq, evt.did, evt.eventType, evt.event, some 0, i⟩, by simp only [repoSeqFromRow, newRow, hi]⟩

theorem insert_step_cases {s t : Cutover} {evt : RepoSeqNew} {seq : DbId}
    (hs : cutoverStep K cap c s (.insert evt seq) = some t) :
    s.table.rows.length + 1 < PAGE_SIZE ∧
    (∀ e ∈ typedOfRow K (newRow K evt seq), ∀ e' ∈ typedEvents K s.table, e'.seq ≠ e.seq) ∧
    ∃ table, s.table.insert (newRow K evt seq) = some table ∧
      t = { s with table := table, unpublished := s.unpublished ++ (typedOfRow K (newRow K evt seq)).toList } := by
  simp only [cutoverStep] at hs
  split at hs
  case isFalse => cases hs
  rename_i hok
  obtain ⟨table, htable, rfl⟩ := Option.map_eq_some_iff.1 hs
  refine ⟨hok.1, fun e he e' he' => ?_, table, htable, rfl⟩
  have hfresh := hok.2
  rw [freshWireSeq, Option.mem_def.1 he] at hfresh
  simpa using List.all_eq_true.1 hfresh e' he'

theorem tableInv_insert (hstore : ∀ t, ∃ i, K.parseTime (K.storeTime t) = .ok i) {s t : Cutover}
    {evt : RepoSeqNew} {seq : DbId} (h : TableInv K s)
    (hs : cutoverStep K cap c s (.insert evt seq) = some t) : TableInv K t := by
  obtain ⟨hsmall, hfresh, table, htable, rfl⟩ := insert_step_cases hs
  have hperm := typedEvents_insert (K := K) htable
  have hrows : ∀ row, row ∈ table.rows ↔ row = newRow K evt seq ∨ row ∈ s.table.rows :=
    fun row => RepoSeq.mem_insert htable
  refine ⟨?_, ?_, ?_, ?_, ?_, ?_⟩
  · intro row hrow
    rcases (hrows row).1 hrow with rfl | hrow
    · rfl
    · exact h.live row hrow
  · intro row hrow
    rcases (hrows row).1 hrow with rfl | hrow
    · exact parses_newRow hstore evt seq
    · exact h.parses row hrow
  · rw [RepoSeq.insert_rows htable, (insertRow_perm _ _).length_eq]
    exact hsmall
  · refine (hperm.pairwise_iff fun hab => hab.symm).2 (List.pairwise_append.2 ⟨?_, h.distinct, ?_⟩)
    · cases typedOfRow K (newRow K evt seq) <;> simp
    · exact fun e he e' he' => (hfresh e (Option.mem_toList.1 he) e' he').symm
  · intro e he
    rw [hperm.mem_iff, List.mem_append]
    rw [← List.append_assoc, List.mem_append] at he
    rcases he with he | he
    · exact .inr (h.source e he)
    · exact .inl he
  · rw [← List.append_assoc]
    refine List.pairwise_append.2 ⟨h.once, ?_, ?_⟩
    · cases typedOfRow K (newRow K evt seq) <;> simp
    · exact fun e' he' e he => hfresh e (Option.mem_toList.1 he) e' (h.source e' he')

/-- A new event is covered: it waits for publication. -/
theorem covered_insert {s t : Cutover} {evt : RepoSeqNew} {seq : DbId} {taken ahead : List SeqEvt}
    (h : TableInv K s) (ht : TableInv K t) (hcov : Covered K c s taken ahead)
    (hs : cutoverStep K cap c s (.insert evt seq) = some t) : Covered K c t taken ahead := by
  obtain ⟨-, -, table, htable, rfl⟩ := insert_step_cases hs
  intro e he
  obtain ⟨htyped, hc⟩ := ht.wanted_iff.1 he
  rw [(typedEvents_insert htable).mem_iff, List.mem_append] at htyped
  rcases htyped with hnew | hold
  · exact .inr (.inr (List.mem_append_right _ hnew))
  · rcases hcov e (h.wanted_iff.2 ⟨hold, hc⟩) with h | h | h
    · exact .inl h
    · exact .inr (.inl h)
    · exact .inr (.inr (List.mem_append_left _ h))

theorem cutoverInv_insert (hstore : ∀ t, ∃ i, K.parseTime (K.storeTime t) = .ok i) {s t : Cutover}
    {evt : RepoSeqNew} {seq : DbId} (h : CutoverInv K c s)
    (hs : cutoverStep K cap c s (.insert evt seq) = some t) : CutoverInv K c t := by
  have ht := tableInv_insert hstore h.table hs
  have hphase : t.phase = s.phase := by
    obtain ⟨-, -, table, -, rfl⟩ := insert_step_cases hs
    rfl
  refine ⟨ht, fun backfill lastSeen hp => ?_, fun backfill live hp hopen => ?_⟩
  · obtain ⟨hb, hcov⟩ := h.snapshot backfill lastSeen (hphase ▸ hp)
    exact ⟨hb, covered_insert h.table ht hcov hs⟩
  · obtain ⟨hst, hcov⟩ := h.streaming backfill live (hphase ▸ hp) hopen
    exact ⟨hst, covered_insert h.table ht hcov hs⟩

/-! ### Publications -/

/-- The envelope of an event of the table decodes to it. -/
theorem fromJson_toJson (hjson : ∀ row e, typedOfRow K row = some e → K.fromJson (K.toJson e) = some e)
    {t : RepoSeq} {e : SeqEvt} (he : e ∈ typedEvents K t) : K.fromJson (K.toJson e) = some e := by
  obtain ⟨row, -, hrow⟩ := mem_typedEvents.1 he
  exact hjson row e hrow

/-- Appending to the log touches nothing the stream has looked at. -/
theorem streamInv_publish {backfill : List SeqEvt} {live : Live} (h : StreamInv K c backfill live)
    (envelope : String) : StreamInv K c backfill { live with sent := live.sent ++ [envelope] } := by
  have htake : ∀ n ≤ live.next, (live.sent ++ [envelope]).take n = live.sent.take n := fun n hn =>
    List.take_append_of_le_length (Nat.le_trans hn h.next_le)
  have hcount : Live.counted K.fromJson { live with sent := live.sent ++ [envelope] } =
      live.counted K.fromJson := by
    simp only [Live.counted, htake _ (Nat.le_refl _), htake _ (Nat.sub_le _ 1)]
  refine ⟨h.sorted, h.le, h.keeps, ?_, ?_, ?_, ?_⟩
  · rw [hcount]; exact h.source
  · rw [hcount]; exact h.mark
  · simp only [htake _ (Nat.le_refl _), htake _ (Nat.sub_le _ 1)]
    exact h.hand
  · simp only [List.length_append]
    exact Nat.le_add_right_of_le h.next_le

theorem tableInv_publish
    (hjson : ∀ row e, typedOfRow K row = some e → K.fromJson (K.toJson e) = some e) {s t : Cutover}
    {i : Nat} (h : TableInv K s) (hs : cutoverStep K cap c s (.publish i) = some t) : TableInv K t := by
  obtain ⟨e, he, rfl⟩ := Option.map_eq_some_iff.1 hs
  have hperm := perm_eraseIdx he
  have hmem : e ∈ typedEvents K s.table :=
    h.source e (List.mem_append_right _ (List.mem_of_getElem? he))
  refine ⟨h.live, h.parses, h.small, h.distinct, ?_, ?_⟩
  · intro x hx
    cases hp : s.phase with
    | streaming backfill live =>
      have hsrc := h.source x
      simp only [Cutover.heard, hp, decoded_append, List.mem_append] at hx hsrc
      rcases hx with (hx | hx) | hx
      · exact hsrc (.inl hx)
      · simp only [decoded, List.filterMap_cons, fromJson_toJson hjson hmem, List.filterMap_nil,
          List.mem_singleton] at hx
        exact hx ▸ hmem
      · exact hsrc (.inr (List.mem_of_mem_eraseIdx hx))
    | before =>
      simp only [Cutover.heard, hp, List.nil_append] at hx
      exact h.source x (List.mem_append_right _ (List.mem_of_mem_eraseIdx hx))
    | snapshot backfill lastSeen =>
      simp only [Cutover.heard, hp, List.nil_append] at hx
      exact h.source x (List.mem_append_right _ (List.mem_of_mem_eraseIdx hx))
  · have honce := h.once
    cases hp : s.phase with
    | streaming backfill live =>
      simp only [Cutover.heard, hp] at honce ⊢
      have hdec : decoded K.fromJson [K.toJson e] = [e] := by
        simp [decoded, fromJson_toJson hjson hmem]
      rw [decoded_append, hdec, List.append_assoc]
      exact ((hperm.append_left _).pairwise_iff fun hab => hab.symm).1 honce
    | before =>
      simp only [Cutover.heard, hp, List.nil_append] at honce ⊢
      exact honce.sublist (List.eraseIdx_sublist _ _)
    | snapshot backfill lastSeen =>
      simp only [Cutover.heard, hp, List.nil_append] at honce ⊢
      exact honce.sublist (List.eraseIdx_sublist _ _)

theorem cutoverInv_publish
    (hjson : ∀ row e, typedOfRow K row = some e → K.fromJson (K.toJson e) = some e) {s t : Cutover}
    {i : Nat} (h : CutoverInv K c s) (hC : NoGap K cap c s (.publish i))
    (hs : cutoverStep K cap c s (.publish i) = some t) : CutoverInv K c t := by
  have ht := tableInv_publish hjson h.table hs
  obtain ⟨e, he, rfl⟩ := Option.map_eq_some_iff.1 hs
  have hperm := perm_eraseIdx he
  have hmem : e ∈ typedEvents K s.table :=
    h.table.source e (List.mem_append_right _ (List.mem_of_getElem? he))
  refine ⟨ht, fun backfill lastSeen hp => ?_, fun backfill live hp hopen => ?_⟩
  · cases hps : s.phase with
    | before => rw [hps] at hp; cases hp
    | streaming _ _ => rw [hps] at hp; cases hp
    | snapshot b l =>
      rw [hps] at hp
      cases hp
      obtain ⟨hb, hcov⟩ := h.snapshot backfill lastSeen hps
      refine ⟨hb, fun x hx => ?_⟩
      rcases hcov x hx with h' | h' | h'
      · exact .inl h'
      · cases h'
      · rcases List.mem_cons.1 (hperm.mem_iff.1 h') with rfl | h'
        · exact .inl (hC backfill lastSeen hps x he (h.table.wanted_iff.1 hx).2)
        · exact .inr (.inr h')
  · cases hps : s.phase with
    | before => rw [hps] at hp; cases hp
    | snapshot _ _ => rw [hps] at hp; cases hp
    | streaming b l =>
      rw [hps] at hp
      cases hp
      obtain ⟨hst, hcov⟩ := h.streaming backfill l hps hopen
      refine ⟨streamInv_publish hst _, fun x hx => ?_⟩
      have hdrop : (l.sent ++ [K.toJson e]).drop l.next = l.sent.drop l.next ++ [K.toJson e] :=
        List.drop_append_of_le_length hst.next_le
      have hahead : ∀ y, y ∈ Live.ahead K.fromJson { l with sent := l.sent ++ [K.toJson e] } ↔
          y ∈ l.ahead K.fromJson ∨ y = e := fun y => by
        simp only [Live.ahead, hdrop, decoded_append, List.mem_append, or_assoc]
        simp [decoded, fromJson_toJson hjson hmem]
      rcases hcov x hx with h' | h' | h'
      · exact .inl h'
      · exact .inr (.inl ((hahead x).2 (.inl h')))
      · rcases List.mem_cons.1 (hperm.mem_iff.1 h') with rfl | h'
        · exact .inr (.inl ((hahead x).2 (.inr rfl)))
        · exact .inr (.inr h')

/-! ### Snapshot and subscription -/

/-- On a table within one page the backfill is everything after the cursor. -/
theorem getBackfill_eq_wanted {s : Cutover} (h : TableInv K s) (o : Outbox) (ho : o.lastSeen = -1) :
    (getBackfill K s.table o c).1 = wanted K s.table c := by
  have hlen : s.table.live.length ≤ PAGE_SIZE :=
    Nat.le_trans (List.length_filter_le _ _) (Nat.le_of_lt h.small)
  have htake : s.table.live.take PAGE_SIZE = s.table.live := List.take_of_length_le hlen
  rcases getBackfill_cases (K := K) s.table o c with ⟨-, he⟩ | ⟨⟨row, hrow, hbad⟩, -⟩
  · rw [he, htake, ho, eventsAfter_max, wanted]
  · exact absurd (h.parses row (List.mem_of_mem_filter (List.mem_of_mem_take hrow))) hbad

/-- Distinct wire seqs make the backfill strictly ascending. -/
theorem wanted_sorted {s : Cutover} (h : TableInv K s) :
    (wanted K s.table c).Pairwise fun a b => a.seq < b.seq := by
  have hle : (wanted K s.table c).Pairwise fun a b => a.seq ≤ b.seq :=
    eventsAfter_ascending (live_sorted s.table)
  have hne : (wanted K s.table c).Pairwise fun a b => a.seq ≠ b.seq := by
    refine h.distinct.sublist ?_
    exact (List.filter_sublist).trans (List.Sublist.filterMap _ (List.filter_sublist))
  exact (hle.and hne).imp fun hab => lt_of_le_of_ne hab.1 hab.2

theorem cutoverInv_snapshot {s t : Cutover} (h : CutoverInv K c s)
    (hs : cutoverStep K cap c s .snapshot = some t) : CutoverInv K c t := by
  simp only [cutoverStep] at hs
  split at hs
  case h_2 => cases hs
  rename_i hps
  cases hs
  have heq := getBackfill_eq_wanted (c := c) h.table { Outbox.new with backfillCursor := some c } rfl
  have hle := getBackfill_le_lastSeen (K := K) s.table { Outbox.new with backfillCursor := some c } c
  have hlast := getBackfill_lastSeen (K := K) s.table { Outbox.new with backfillCursor := some c } c
  refine ⟨?_, ?_, by rintro _ _ ⟨⟩⟩
  · exact h.table.of_phase _ (by simp [Cutover.heard, hps])
  · rintro _ _ ⟨⟩
    refine ⟨⟨by rw [heq]; exact wanted_sorted h.table, hle, fun x hcx hx => ⟨?_, ?_⟩⟩, ?_⟩
    · exact fun hlt e he => Int.lt_of_le_of_lt (hle e he) hlt
    · intro hall
      rcases hlast with hl | ⟨e, he, hl⟩
      · rw [hl]
        simp only [Outbox.new]
        omega
      · rw [hl]
        exact hall e he
    · intro e he
      exact .inl (heq ▸ he)

theorem cutoverInv_subscribe {s t : Cutover} (h : CutoverInv K c s)
    (hs : cutoverStep K cap c s .subscribe = some t) : CutoverInv K c t := by
  simp only [cutoverStep] at hs
  split at hs
  case h_2 => cases hs
  rename_i backfill lastSeen hps
  cases hs
  obtain ⟨hb, hcov⟩ := h.snapshot backfill lastSeen hps
  have hacc : (Live.subscribe backfill lastSeen).accepted = backfill := by
    simp [Live.accepted, Live.subscribe, Task.outgoing]
  have hcount : (Live.subscribe backfill lastSeen).counted K.fromJson = [] := by
    simp [Live.counted, Live.subscribe, decoded]
  refine ⟨?_, by rintro _ _ ⟨⟩, ?_⟩
  · exact h.table.of_phase _ (by simp [Cutover.heard, hps, Live.subscribe, decoded])
  · rintro _ _ ⟨⟩ -
    refine ⟨⟨?_, ?_, ?_, ?_, ?_, by rintro _ ⟨⟩, Nat.le_refl _⟩, fun e he => ?_⟩
    · rw [hacc]; exact hb.sorted
    · rw [hacc]; exact hb.le
    · rw [hacc]; exact fun e he => he
    · rw [hacc]; exact fun e he => .inl he
    · intro x hcx hx
      rw [hcount]
      simpa [Live.subscribe] using hb.mark x hcx hx
    · rw [hacc]
      rcases hcov e he with h' | h' | h'
      · exact .inl h'
      · cases h'
      · exact .inr (.inr h')

/-! ### The stream's own steps -/

section
variable {backfill : List SeqEvt} {l m : Live}

/-- A step of the stream keeps the invariant of the stream and covers what was covered. -/
def StreamKept (K : Codecs) (c : Int) (backfill : List SeqEvt) (l m : Live) : Prop :=
  StreamInv K c backfill m ∧ ∀ e, c < e.seq → e ∈ l.accepted ∨ e ∈ l.ahead K.fromJson →
    e ∈ m.accepted ∨ e ∈ m.ahead K.fromJson

theorem stream_recv (h : StreamInv K c backfill l)
    (hC : cap < l.sent.length - l.next →
      ∀ e ∈ decoded K.fromJson (Broadcast.passed cap l.sent l.next), c < e.seq → e ∈ backfill)
    (hs : liveStep cap K.fromJson l .recv = some m) : StreamKept K c backfill l m := by
  obtain ⟨hw, hcase⟩ := recv_step_cases hs
  have hmark := h.mark
  have hsource := h.source
  simp only [Live.counted, hw] at hmark hsource
  rcases hcase with ⟨hlag, rfl⟩ | ⟨envelope, hm, ⟨evt, hd, rfl⟩ | ⟨hd, rfl⟩⟩ | ⟨hle, rfl⟩
  · -- an overrun: what it passes over is in the backfill or not wanted
    have hC := hC hlag
    have htake := Broadcast.take_recv cap l.sent l.next
    refine ⟨⟨h.sorted, h.le, h.keeps, fun e he => ?_, fun x hcx hx => ?_, by simp [hw],
      Broadcast.recv_le cap l.sent l.next h.next_le⟩, fun e hce he => ?_⟩
    · simp only [Live.counted, hw, htake, decoded_append, List.mem_append]
      exact (hsource e he).imp_right .inl
    · simp only [Live.counted, hw, htake, decoded_append, List.mem_append]
      rw [hmark x hcx hx]
      constructor
      · rintro ⟨hb, hcount⟩
        refine ⟨hb, fun e he => he.elim (hcount e) fun he => ?_⟩
        by_cases hce : c < e.seq
        · exact hb e (hC e he hce)
        · omega
      · rintro ⟨hb, hcount⟩
        exact ⟨hb, fun e he => hcount e (.inl he)⟩
    · rcases he with he | he
      · exact .inl he
      · simp only [Live.ahead, hw, Task.inHand, List.nil_append] at he ⊢
        rw [Broadcast.drop_recv cap l.sent l.next h.next_le, decoded_append, List.mem_append] at he
        rcases he with he | he
        · exact .inl (by simpa only [Live.accepted, hw] using h.keeps e (hC e he hce))
        · exact .inr he
  · have htake := take_succ_of_getElem? hm
    have hdec : decoded K.fromJson (l.sent.take (l.next + 1)) =
        decoded K.fromJson (l.sent.take l.next) ++ [evt] := by
      simp [htake, decoded, hd]
    obtain ⟨hlt, rfl⟩ := List.getElem?_eq_some_iff.1 hm
    have hdrop : decoded K.fromJson (l.sent.drop l.next) =
        evt :: decoded K.fromJson (l.sent.drop (l.next + 1)) := by
      rw [List.drop_eq_getElem_cons hlt, decoded, List.filterMap_cons, hd]
      rfl
    refine ⟨⟨?_, ?_, ?_, ?_, ?_, ?_, hlt⟩, fun e _ he => ?_⟩
    · simpa [Live.accepted, hw, Task.outgoing] using h.sorted
    · simpa [Live.accepted, hw, Task.outgoing] using h.le
    · simpa [Live.accepted, hw, Task.outgoing] using h.keeps
    · simpa [Live.accepted, Live.counted, hw, Task.outgoing] using hsource
    · simpa [Live.counted] using hmark
    · rintro _ ⟨⟩
      simpa using hdec
    · simpa [Live.accepted, Live.ahead, hw, Task.outgoing, Task.inHand, hdrop] using he
  · have htake := take_succ_of_getElem? hm
    have hdec : decoded K.fromJson (l.sent.take (l.next + 1)) = decoded K.fromJson (l.sent.take l.next) := by
      simp [htake, decoded, hd]
    obtain ⟨hlt, rfl⟩ := List.getElem?_eq_some_iff.1 hm
    have hdrop : decoded K.fromJson (l.sent.drop l.next) =
        decoded K.fromJson (l.sent.drop (l.next + 1)) := by
      rw [List.drop_eq_getElem_cons hlt, decoded, List.filterMap_cons, hd]
      rfl
    refine ⟨⟨h.sorted, h.le, h.keeps, ?_, ?_, by simp [hw], hlt⟩, fun e _ he => ?_⟩
    · simpa only [Live.accepted, Live.counted, hw, hdec] using hsource
    · simpa only [Live.counted, hw, hdec] using hmark
    · simpa only [Live.accepted, Live.ahead, hw, hdrop] using he
  · refine ⟨⟨?_, ?_, ?_, ?_, ?_, by rintro _ ⟨⟩, h.next_le⟩, fun e _ he => ?_⟩
    · simpa [Live.accepted, hw, Task.outgoing] using h.sorted
    · simpa [Live.accepted, hw, Task.outgoing] using h.le
    · simpa [Live.accepted, hw, Task.outgoing] using h.keeps
    · simpa [Live.accepted, Live.counted, hw, Task.outgoing] using hsource
    · simpa [Live.counted] using hmark
    · simpa [Live.accepted, Live.ahead, hw, Task.outgoing, Task.inHand] using he

theorem stream_check (h : StreamInv K c backfill l) (hpos : ∀ e ∈ decoded K.fromJson l.sent, 0 ≤ e.seq)
    (hC : ∀ evt, l.task = .got evt → c < evt.seq → evt ∉ backfill →
      ∀ e ∈ backfill ++ decoded K.fromJson (l.sent.take (l.next - 1)), e.seq < evt.seq)
    (hs : liveStep cap K.fromJson l .check = some m) : StreamKept K c backfill l m := by
  obtain ⟨evt, hw, hcase⟩ := check_step_cases hs
  have hhand := h.hand evt hw
  have hmark := h.mark
  have hsource := h.source
  have hsorted := h.sorted
  have hle := h.le
  have hkeeps := h.keeps
  simp only [Live.accepted, Live.counted, hw, Task.outgoing, List.append_nil] at hmark hsource hsorted hle hkeeps
  rcases hcase with ⟨hlt, rfl⟩ | ⟨hge, rfl⟩
  · refine ⟨⟨?_, ?_, ?_, ?_, ?_, by rintro _ ⟨⟩, h.next_le⟩, fun e _ he => ?_⟩
    · simp only [Live.accepted, Task.outgoing]
      refine List.pairwise_append.2 ⟨hsorted, List.pairwise_singleton _ _, fun a ha b hb => ?_⟩
      rw [List.mem_singleton.1 hb]
      exact Int.lt_of_le_of_lt (hle a ha) hlt
    · simp only [Live.accepted, Task.outgoing]
      intro e he
      rcases List.mem_append.1 he with he | he
      · exact Int.le_trans (hle e he) (Int.le_of_lt hlt)
      · rw [List.mem_singleton.1 he]
    · simp only [Live.accepted, Task.outgoing]
      exact fun e he => List.mem_append_left _ (hkeeps e he)
    · simp only [Live.accepted, Task.outgoing, Live.counted, hhand]
      intro e he
      rcases List.mem_append.1 he with he | he
      · exact (hsource e he).imp_right (List.mem_append_left _)
      · exact .inr (List.mem_append_right _ he)
    · intro x hcx hx
      simp only [Live.counted, hhand, List.forall_mem_append, List.mem_singleton, forall_eq]
      constructor
      · intro hx'
        have := (hmark x hcx hx).1 (Int.lt_trans hlt hx')
        exact ⟨this.1, this.2, hx'⟩
      · exact fun hall => hall.2.2
    · simp only [Live.accepted, Live.ahead, hw, Task.outgoing, Task.inHand, List.append_nil,
        List.nil_append, List.mem_append, List.mem_singleton] at he ⊢
      tauto
  · refine ⟨⟨?_, ?_, ?_, ?_, ?_, by rintro _ ⟨⟩, h.next_le⟩, fun e hce he => ?_⟩
    · simpa only [Live.accepted, Task.outgoing, List.append_nil] using hsorted
    · simpa only [Live.accepted, Task.outgoing, List.append_nil] using hle
    · simpa only [Live.accepted, Task.outgoing, List.append_nil] using hkeeps
    · simp only [Live.accepted, Task.outgoing, Live.counted, hhand, List.append_nil]
      exact fun e he => (hsource e he).imp_right (List.mem_append_left _)
    · intro x hcx hx
      simp only [Live.counted, hhand, List.forall_mem_append, List.mem_singleton, forall_eq]
      rw [hmark x hcx hx]
      constructor
      · intro hall
        have := (hmark x hcx hx).2 hall
        exact ⟨hall.1, hall.2, Int.lt_of_le_of_lt hge this⟩
      · exact fun hall => ⟨hall.1, hall.2.1⟩
    · simp only [Live.accepted, Live.ahead, hw, Task.outgoing, Task.inHand, List.append_nil,
        List.nil_append, List.mem_append, List.mem_singleton] at he ⊢
      rcases he with he | rfl | he
      · exact .inl he
      · -- dropped: by the condition it is in the backfill
        left
        by_cases hb : e ∈ backfill
        · exact List.mem_append.1 (hkeeps e hb) |>.imp_left List.mem_append.1
        · have hall := List.forall_mem_append.1 (hC e hw hce hb)
          have hmem : e ∈ decoded K.fromJson (l.sent.take l.next) := by
            rw [hhand]
            exact List.mem_append_right _ (List.mem_singleton_self e)
          have hnn := hpos e (by
            have := List.mem_append_left (decoded K.fromJson (l.sent.drop l.next)) hmem
            rwa [← decoded_append, List.take_append_drop] at this)
          have := (hmark e.seq hce hnn).2 hall
          omega
      · exact .inr he

theorem stream_send (h : StreamInv K c backfill l) (hopen : l.ended = false)
    (hs : liveStep cap K.fromJson l .send = some m) : StreamKept K c backfill l m := by
  obtain ⟨evt, hw, rfl⟩ := send_step_cases hopen hs
  have hacc : Live.accepted { l with channel := l.channel ++ [evt], task := .waiting } = l.accepted := by
    simp [Live.accepted, hw, Task.outgoing]
  have hcount : Live.counted K.fromJson { l with channel := l.channel ++ [evt], task := .waiting } =
      l.counted K.fromJson := by
    simp [Live.counted, hw]
  refine ⟨⟨?_, ?_, ?_, ?_, ?_, by rintro _ ⟨⟩, h.next_le⟩, fun e _ he => ?_⟩
  · rw [hacc]; exact h.sorted
  · rw [hacc]; exact h.le
  · rw [hacc]; exact h.keeps
  · rw [hacc, hcount]; exact h.source
  · rw [hcount]; exact h.mark
  · rw [hacc]
    simpa [Live.ahead, hw, Task.inHand] using he

theorem stream_poll (h : StreamInv K c backfill l) (hopen : m.ended = false)
    (hs : liveStep cap K.fromJson l .poll = some m) : StreamKept K c backfill l m := by
  -- handing out an event moves it within what is accepted, and leaves the high-water mark
  have hkept : ∀ lastSeen iter channel delivered,
      Live.accepted { l with lastSeen := lastSeen, iter := iter, channel := channel, delivered := delivered } =
        l.accepted → lastSeen = l.lastSeen →
      StreamKept K c backfill l
        { l with lastSeen := lastSeen, iter := iter, channel := channel, delivered := delivered } := by
    rintro _ iter channel delivered hacc rfl
    refine ⟨⟨?_, ?_, ?_, ?_, h.mark, h.hand, h.next_le⟩, fun e _ he => ?_⟩
    · rw [hacc]; exact h.sorted
    · rw [hacc]; exact h.le
    · rw [hacc]; exact h.keeps
    · rw [hacc]; exact h.source
    · rw [hacc]; exact he
  rcases poll_step_cases hs with ⟨evt, iter, hiter, rfl⟩ | ⟨evt, channel, hiter, hchan, rfl⟩ | rfl
  · refine hkept _ iter _ (l.delivered ++ [evt]) (by simp [Live.accepted, hiter]) (max_eq_left ?_)
    exact h.le evt (by simp [Live.accepted, hiter])
  · exact hkept _ _ channel (l.delivered ++ [evt]) (by simp [Live.accepted, hiter, hchan]) rfl
  · cases hopen

end

theorem sent_of_own {l m : Live} {a : LiveStep} (ha : a.isOwn)
    (hs : liveStep cap K.fromJson l a = some m) : m.sent = l.sent := by
  cases a with
  | publish envelope => cases ha
  | close => cases ha
  | drop => cases hs; rfl
  | recv =>
    obtain ⟨-, ⟨-, rfl⟩ | ⟨_, -, ⟨_, -, rfl⟩ | ⟨-, rfl⟩⟩ | ⟨-, rfl⟩⟩ := recv_step_cases hs <;> rfl
  | check =>
    obtain ⟨_, -, ⟨-, rfl⟩ | ⟨-, rfl⟩⟩ := check_step_cases hs <;> rfl
  | send =>
    simp only [liveStep] at hs
    split at hs
    · split at hs
      · cases hs; rfl
      · split at hs
        · cases hs; rfl
        · cases hs
    · cases hs
  | poll =>
    obtain ⟨_, _, -, rfl⟩ | ⟨_, _, -, -, rfl⟩ | rfl := poll_step_cases hs <;> rfl

theorem stream_step_cases {s t : Cutover} {a : LiveStep}
    (hs : cutoverStep K cap c s (.stream a) = some t) :
    ∃ backfill l m, s.phase = .streaming backfill l ∧ a.isOwn ∧
      liveStep cap K.fromJson l a = some m ∧ t = { s with phase := .streaming backfill m } := by
  simp only [cutoverStep] at hs
  split at hs
  case h_2 => cases hs
  rename_i backfill l hp
  split at hs
  case isFalse => cases hs
  obtain ⟨m, hm, rfl⟩ := Option.map_eq_some_iff.1 hs
  exact ⟨backfill, l, m, hp, ‹_›, hm, rfl⟩

theorem cutoverInv_stream {s t : Cutover} {a : LiveStep} (h : CutoverInv K c s)
    (hC : NoGap K cap c s (.stream a)) (hs : cutoverStep K cap c s (.stream a) = some t) :
    CutoverInv K c t := by
  obtain ⟨backfill, l, m, hp, ha, hm, rfl⟩ := stream_step_cases hs
  have hsent := sent_of_own ha hm
  refine ⟨h.table.of_phase _ (by simp [Cutover.heard, hp, hsent]), by rintro _ _ ⟨⟩, ?_⟩
  rintro _ _ ⟨⟩ hopen
  have hl := open_of_step hm hopen
  obtain ⟨hst, hcov⟩ := h.streaming backfill l hp hl
  have hkept : StreamKept K c backfill l m := by
    cases a with
    | publish envelope => cases ha
    | close => cases ha
    | recv => exact stream_recv hst (hC backfill l hp hl) hm
    | check =>
      refine stream_check hst (fun e he => ?_) (hC backfill l hp hl) hm
      refine typedEvents_nonneg (h.table.source e (List.mem_append_left _ ?_))
      rw [Cutover.heard, hp]
      exact he
    | send => exact stream_send hst hl hm
    | poll => exact stream_poll hst hopen hm
    | drop => cases hm; cases hopen
  refine ⟨hkept.1, fun e he => ?_⟩
  have hce := (h.table.wanted_iff.1 he).2
  rcases hcov e he with h' | h' | h'
  · exact (hkept.2 e hce (.inl h')).imp_right .inl
  · exact (hkept.2 e hce (.inr h')).imp_right .inl
  · exact .inr (.inr h')

theorem cutoverInv_step (hjson : ∀ row e, typedOfRow K row = some e → K.fromJson (K.toJson e) = some e)
    (hstore : ∀ t, ∃ i, K.parseTime (K.storeTime t) = .ok i) (s : Cutover) (a : CutoverStep)
    (t : Cutover) (h : CutoverInv K c s) (hC : NoGap K cap c s a)
    (hs : cutoverStep K cap c s a = some t) : CutoverInv K c t := by
  cases a with
  | insert evt seq => exact cutoverInv_insert hstore h hs
  | publish i => exact cutoverInv_publish hjson h hC hs
  | snapshot => exact cutoverInv_snapshot h hs
  | subscribe => exact cutoverInv_subscribe h hs
  | stream a => exact cutoverInv_stream h hC hs

/-! ## What breaks it -/

/-- An event that occurs once is in no other part of the list. -/
theorem notMem_of_once {A B D : List SeqEvt} {e : SeqEvt}
    (h : (A ++ (B ++ D)).Pairwise fun a b => a.seq ≠ b.seq) (he : e ∈ B) : e ∉ A ∧ e ∉ D := by
  obtain ⟨-, hBD, hA⟩ := List.pairwise_append.1 h
  obtain ⟨-, -, hD⟩ := List.pairwise_append.1 hBD
  exact ⟨fun h' => hA e h' e (List.mem_append_left _ he) rfl, fun h' => hD e he e h' rfl⟩

/-- Published between snapshot and subscription, an event outside the backfill is gone. -/
theorem not_cutoverOnce_publish {s t : Cutover} {i : Nat} (h : CutoverInv K c s)
    (hC : ¬ NoGap K cap c s (.publish i)) (hs : cutoverStep K cap c s (.publish i) = some t) :
    ¬ CutoverOnce K c t := by
  simp only [NoGap, not_forall] at hC
  obtain ⟨backfill, lastSeen, hp, e, he, hce, hnot⟩ := hC
  have hstep : cutoverStep K cap c s (.publish i) =
      some { s with unpublished := s.unpublished.eraseIdx i } := by
    simp only [cutoverStep, he, Option.map_some, hp]
  rw [hstep] at hs
  cases hs
  have hmem : e ∈ wanted K s.table c := h.table.wanted_iff.2
    ⟨h.table.source e (List.mem_append_right _ (List.mem_of_getElem? he)), hce⟩
  have honce := (((perm_eraseIdx he).append_left _).pairwise_iff fun hab => hab.symm).1 h.table.once
  have hgone := (notMem_of_once (B := [e]) honce (List.mem_singleton_self e)).2
  intro honce
  simp only [CutoverOnce, hp] at honce
  rcases (honce e hmem).2 with h' | h'
  · exact hnot h'
  · exact hgone h'

/-- An event outside the backfill that an overrun takes is gone. -/
theorem not_cutoverOnce_recv {s t : Cutover} (h : CutoverInv K c s)
    (hC : ¬ NoGap K cap c s (.stream .recv)) (hs : cutoverStep K cap c s (.stream .recv) = some t) :
    ¬ CutoverOnce K c t := by
  simp only [NoGap, not_forall] at hC
  obtain ⟨backfill, l, hp, hopen, hlag, e, he, hce, hnot⟩ := hC
  obtain ⟨backfill', l', m, hp', -, hm, rfl⟩ := stream_step_cases hs
  rw [hp] at hp'
  cases hp'
  obtain ⟨hw, -⟩ := recv_step_cases hm
  simp only [liveStep, hw, Broadcast.recv_lagged hlag] at hm
  cases hm
  obtain ⟨hst, -⟩ := h.streaming backfill l hp hopen
  have hsplit : decoded K.fromJson l.sent ++ s.unpublished = decoded K.fromJson (l.sent.take l.next) ++
      (decoded K.fromJson (Broadcast.passed cap l.sent l.next) ++
        (decoded K.fromJson (l.sent.drop (l.sent.length - cap)) ++ s.unpublished)) := by
    have hdrop := Broadcast.drop_recv cap l.sent l.next hst.next_le
    rw [Broadcast.recv_lagged hlag] at hdrop
    rw [← List.append_assoc (decoded K.fromJson (Broadcast.passed cap l.sent l.next)), ← decoded_append,
      ← hdrop, ← List.append_assoc, ← decoded_append, List.take_append_drop]
  have honce := h.table.once
  have hsource := h.table.source
  simp only [Cutover.heard, hp, hsplit] at honce hsource
  have hmem : e ∈ wanted K s.table c := h.table.wanted_iff.2 ⟨hsource e (by simp [he]), hce⟩
  obtain ⟨hpast, hfuture⟩ := notMem_of_once honce he
  intro hd
  rcases (hd hopen e hmem).2 with h' | h' | h'
  · have hacc := hst.source e (by simpa only [Live.accepted, hw] using h')
    simp only [Live.counted, hw] at hacc
    exact hacc.elim hnot hpast
  · simp only [Live.ahead, Task.inHand, List.nil_append] at h'
    exact hfuture (List.mem_append_left _ h')
  · exact hfuture (List.mem_append_right _ h')

/-- An event outside the backfill that fails the check is gone. -/
theorem not_cutoverOnce_check {s t : Cutover} (h : CutoverInv K c s)
    (hC : ¬ NoGap K cap c s (.stream .check)) (hs : cutoverStep K cap c s (.stream .check) = some t) :
    ¬ CutoverOnce K c t := by
  simp only [NoGap, not_forall] at hC
  obtain ⟨backfill, l, hp, hopen, evt, hw, hce, hnot, e, he, hlt⟩ := hC
  obtain ⟨backfill', l', m, hp', -, hm, rfl⟩ := stream_step_cases hs
  rw [hp] at hp'
  cases hp'
  obtain ⟨hst, -⟩ := h.streaming backfill l hp hopen
  have hhand := hst.hand evt hw
  have hsplit : decoded K.fromJson l.sent ++ s.unpublished =
      decoded K.fromJson (l.sent.take (l.next - 1)) ++
      ([evt] ++ (decoded K.fromJson (l.sent.drop l.next) ++ s.unpublished)) := by
    rw [← List.append_assoc [evt], ← List.append_assoc, ← List.append_assoc, ← hhand, ← decoded_append,
      List.take_append_drop]
  have honce := h.table.once
  have hsource := h.table.source
  simp only [Cutover.heard, hp, hsplit] at honce hsource
  have htyped := hsource evt (by simp)
  have hmem : evt ∈ wanted K s.table c := h.table.wanted_iff.2 ⟨htyped, hce⟩
  obtain ⟨hpast, hfuture⟩ := notMem_of_once (B := [evt]) honce (List.mem_singleton_self evt)
  have hmark := hst.mark evt.seq hce (typedEvents_nonneg htyped)
  simp only [Live.counted, hw] at hmark
  obtain ⟨evt', hw', hcase⟩ := check_step_cases hm
  obtain rfl : evt = evt' := by
    rw [hw] at hw'
    cases hw'
    rfl
  rcases hcase with ⟨hover, -⟩ | ⟨-, rfl⟩
  · exact absurd (List.forall_mem_append.2 (hmark.1 hover) e he) hlt
  · intro hd
    rcases (hd hopen evt hmem).2 with h' | h' | h'
    · have hacc := hst.source evt (by simpa only [Live.accepted, hw, Task.outgoing] using h')
      simp only [Live.counted, hw] at hacc
      exact hacc.elim hnot hpast
    · simp only [Live.ahead, Task.inHand, List.nil_append] at h'
      exact hfuture (List.mem_append_left _ h')
    · exact hfuture (List.mem_append_right _ h')

theorem not_cutoverOnce_of_step (s : Cutover) (a : CutoverStep) (t : Cutover) (h : CutoverInv K c s)
    (hC : ¬ NoGap K cap c s a) (hs : cutoverStep K cap c s a = some t) : ¬ CutoverOnce K c t := by
  cases a with
  | insert evt seq => exact absurd trivial hC
  | publish i => exact not_cutoverOnce_publish h hC hs
  | snapshot => exact absurd trivial hC
  | subscribe => exact absurd trivial hC
  | stream a =>
    cases a with
    | recv => exact not_cutoverOnce_recv h hC hs
    | check => exact not_cutoverOnce_check h hC hs
    | publish envelope => exact absurd trivial hC
    | close => exact absurd trivial hC
    | send => exact absurd trivial hC
    | poll => exact absurd trivial hC
    | drop => exact absurd trivial hC

/-- **Every event after the cursor is delivered exactly once across the cutover, in any interleaving,
exactly if nothing new is published between snapshot and subscription and the live half overruns
and reorders no event it needs.** -/
theorem cutoverOnce_iff_noGap (K : Codecs)
    (hjson : ∀ row e, typedOfRow K row = some e → K.fromJson (K.toJson e) = some e)
    (hstore : ∀ t, ∃ i, K.parseTime (K.storeTime t) = .ok i) (cap : Nat) (c : Int)
    (as : List CutoverStep) :
    Runs.Always (cutoverStep K cap c) (CutoverOnce K c) .start as ↔
      Runs.Along (cutoverStep K cap c) (NoGap K cap c) .start as :=
  Runs.always_iff_along (fun _ h => h.cutoverOnce) (cutoverInv_step hjson hstore)
    not_cutoverOnce_of_step cutoverInv_start as

/-- The sample codecs obey both laws; a run with an insert and a publication on either side. -/
theorem cutoverOnce_sample :
    Runs.Always (cutoverStep sampleCodecs 1024 0) (CutoverOnce sampleCodecs 0) .start
        [.insert ⟨"did:plc:a", "identity", sampleBody, 0⟩ (.ofParts 5 0), .publish 0, .snapshot,
          .subscribe, .insert ⟨"did:plc:a", "identity", sampleBody, 0⟩ (.ofParts 6 0), .publish 0] ↔
      Runs.Along (cutoverStep sampleCodecs 1024 0) (NoGap sampleCodecs 1024 0) .start
        [.insert ⟨"did:plc:a", "identity", sampleBody, 0⟩ (.ofParts 5 0), .publish 0, .snapshot,
          .subscribe, .insert ⟨"did:plc:a", "identity", sampleBody, 0⟩ (.ofParts 6 0), .publish 0] :=
  cutoverOnce_iff_noGap sampleCodecs
    sampleCodecs_json
    (fun _ => ⟨1767225600000000000, rfl⟩) 1024 0 _

/-- An event inserted and published between the snapshot and the subscription is in neither. -/
theorem cutoverOnce_fails_between :
    ¬ Runs.Always (cutoverStep sampleCodecs 1024 0) (CutoverOnce sampleCodecs 0) .start
      [.snapshot, .insert ⟨"did:plc:a", "identity", sampleBody, 0⟩ (.ofParts 5 0), .publish 0,
        .subscribe] := by
  intro h
  obtain ⟨s, hs, hphase, hun, hrows⟩ : ∃ s, Runs.run (cutoverStep sampleCodecs 1024 0) .start
      [.snapshot, .insert ⟨"did:plc:a", "identity", sampleBody, 0⟩ (.ofParts 5 0), .publish 0,
        .subscribe] = some s ∧ s.phase = .streaming [] (.subscribe [] (-1)) ∧ s.unpublished = [] ∧
      s.table.rows = [sampleRow (.ofParts 5 0)] := ⟨_, rfl, rfl, rfl, rfl⟩
  have honce := h.last hs
  simp only [CutoverOnce, hphase] at honce
  have hmem : sampleEvt (.ofParts 5 0) ∈ wanted sampleCodecs s.table 0 := by
    refine mem_eventsAfter.2 ⟨⟨sampleRow (.ofParts 5 0), ?_, typedOfRow_sampleRow _⟩, by decide⟩
    simp [RepoSeq.live, hrows, sampleRow]
  have hcome := (honce rfl _ hmem).2
  simp [Live.accepted, Live.ahead, Live.subscribe, Task.outgoing, Task.inHand, decoded, hun] at hcome

end CacosPds.Sequencer
