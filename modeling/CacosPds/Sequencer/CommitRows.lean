import CacosPds.Sequencer.Formatters
/-!
# The `#commit` rows of a DID

| here | there |
| --- | --- |
| `LogEntry`   | what a commit's row says of its place: rev, `since` and CID (`events.rs:262-276`) |
| `commitEntry`, `commitRows` | the `append` rows of a DID, in the order of their ids |
| `LogEntry.Follows` | a commit on top of another one |

A DID's rows are a list that grows at its end as long as each row's id is above those before it
(`commitRows_append`); the other DIDs' rows may lie anywhere in between.
-/
namespace CacosPds.Sequencer

open ActorStore (CommitDataWithOps CommitData)

structure LogEntry where
  rev : String
  since : Option String
  commit : Cid
  deriving DecidableEq

def CommitEvt.entry (evt : CommitEvt) : LogEntry := ⟨evt.rev, evt.since, evt.commit⟩

/-- The entry that `format_seq_commit` makes of a commit. -/
def commitLogEntry (commit : CommitData) : LogEntry := ⟨commit.rev, commit.since, commit.cid⟩

def LogEntry.Follows (a b : LogEntry) : Prop := a.rev < b.rev ∧ b.since = some a.rev

instance (a b : LogEntry) : Decidable (a.Follows b) := inferInstanceAs (Decidable (_ ∧ _))

/-- The entry of a row, if it is a commit of the DID. -/
def commitEntry (K : Codecs) (did : String) (row : RepoSeqRow) : Option LogEntry :=
  if row.did = did ∧ row.eventType = "append" then
    (K.commit row.event).toOption.map CommitEvt.entry
  else none

def commitRows (K : Codecs) (t : RepoSeq) (did : String) : List LogEntry :=
  t.rows.filterMap (commitEntry K did)

variable {K : Codecs} {N : Encoders}

/-! ## Growing -/

theorem filterMap_insertRow_none {α : Type} {f : RepoSeqRow → Option α} {row : RepoSeqRow}
    (h : f row = none) (rows : List RepoSeqRow) :
    (insertRow row rows).filterMap f = rows.filterMap f := by
  induction rows with
  | nil => simp [insertRow, h]
  | cons x xs ih =>
    rw [insertRow]
    split
    · simp [h]
    · rw [List.filterMap_cons, List.filterMap_cons, ih]

/-- A row above all that `f` takes comes last among them. -/
theorem filterMap_insertRow {α : Type} {f : RepoSeqRow → Option α} {row : RepoSeqRow} {e : α}
    (h : f row = some e) {rows : List RepoSeqRow} (hs : rows.Pairwise fun a b => a.seq < b.seq)
    (habove : ∀ x ∈ rows, (f x).isSome → x.seq < row.seq) :
    (insertRow row rows).filterMap f = rows.filterMap f ++ [e] := by
  induction rows with
  | nil => simp [insertRow, h]
  | cons x xs ih =>
    obtain ⟨hx, hxs⟩ := List.pairwise_cons.1 hs
    rw [insertRow]
    split
    · rename_i hlt
      -- all of the list lies above the row
      have hnone : ∀ y ∈ x :: xs, f y = none := by
        intro y hy
        by_contra hsome
        have hbelow := habove y hy (Option.isSome_iff_ne_none.2 hsome)
        rcases List.mem_cons.1 hy with rfl | hmem
        · exact lt_asymm hlt hbelow
        · exact lt_asymm (lt_trans hlt (hx y hmem)) hbelow
      have hnil : (x :: xs).filterMap f = [] := List.filterMap_eq_nil_iff.2 hnone
      rw [List.filterMap_cons, h, hnil]
      rfl
    · rw [List.filterMap_cons, List.filterMap_cons,
        ih hxs fun y hy => habove y (List.mem_cons_of_mem x hy)]
      cases f x <;> rfl

variable {t t' : RepoSeq} {row : RepoSeqRow} {did : String}

theorem commitRows_append {e : LogEntry} (hins : t.insert row = some t')
    (he : commitEntry K did row = some e)
    (habove : ∀ x ∈ t.rows, (commitEntry K did x).isSome → x.seq < row.seq) :
    commitRows K t' did = commitRows K t did ++ [e] := by
  rw [commitRows, RepoSeq.insert_rows hins, filterMap_insertRow he t.sorted habove]
  rfl

theorem commitRows_other (hins : t.insert row = some t') (he : commitEntry K did row = none) :
    commitRows K t' did = commitRows K t did := by
  rw [commitRows, RepoSeq.insert_rows hins, filterMap_insertRow_none he]
  rfl

/-- The row of a formatted commit. -/
theorem commitEntry_formatted (hK : RoundTrips K N) {r : CommitDataWithOps} {now : Instant}
    {evt : RepoSeqNew} (h : formatSeqCommit N did r now = .ok evt) (seq : DbId) (b : String) :
    commitEntry K b (newRow K evt seq) =
      if did = b then some (commitLogEntry r.commitData) else none := by
  obtain ⟨body, hbody, h⟩ := Stages.except_bind_ok.1 h
  obtain ⟨event, hevent, rfl⟩ := newEvt_ok.1 h
  have hentry : body.entry = commitLogEntry r.commitData := by
    simp only [commitEvt, Except.map] at hbody
    split at hbody
    · cases hbody
    · cases hbody
      rfl
  simp [commitEntry, newRow, hK.commit _ _ hevent, Except.toOption, hentry]

/-! ## A chain and its end -/

/-- The end of a chain does not stay one when the chain goes on. -/
theorem not_suffix_concat {rows applied : List LogEntry} {e : LogEntry} (hrows : rows ≠ [])
    (hsuffix : rows <:+ applied) (hchain : (applied ++ [e]).IsChain LogEntry.Follows) :
    ¬ rows <:+ applied ++ [e] := by
  intro h
  have hlast : ∀ {l : List LogEntry}, rows <:+ l → rows.getLast? = l.getLast? := by
    intro l hl
    obtain ⟨before, rfl⟩ := hl
    rw [List.getLast?_append_of_ne_nil _ hrows]
  obtain ⟨last, hl⟩ := Option.ne_none_iff_exists'.1 (mt List.getLast?_eq_none_iff.1 hrows)
  have hend : last = e := by
    have h₁ := hlast h
    rw [hl, List.getLast?_concat] at h₁
    exact Option.some.inj h₁
  have hmem : last ∈ applied.getLast? := by rw [← hlast hsuffix, hl]; rfl
  have hfollows := (List.isChain_append.1 hchain).2.2 last hmem e rfl
  rw [hend] at hfollows
  exact lt_irrefl _ hfollows.1

end CacosPds.Sequencer
