import CacosPds.ActorStore.ProcessWrites
/-!
# Record blocks that survive a commit (`mod.rs:850-857`, `:914-945`)

A commit deletes the blocks in `removed_cids`. `get_duplicate_record_cids` takes back those that
another record has, by the record index of before the batch and leaving out every URI the batch
touches. A record that the batch updates to what it was is touched, and still has its block.
-/
namespace CacosPds.ActorStore

open Stages

/-- The upstream diff, on the record CIDs of the new tree. -/
structure RepoLib.Diffs (U : RepoLib) : Prop where
  /-- A CID is removed when a path has lost it and no path has gained it. -/
  removed : ∀ repo ops commit, U.formatCommit repo ops = .ok commit →
    ∀ p c, commit.repo.tree.lookup p = some c → (c ∈ commit.removedCids ↔
      (∃ q, repo.tree.lookup q = some c ∧ commit.repo.tree.lookup q ≠ some c) ∧
        ∀ q, commit.repo.tree.lookup q = some c → repo.tree.lookup q = some c)
  /-- The block of a CID that a path gains is among the new ones, unless a record had it. -/
  blocks : ∀ repo ops commit, U.formatCommit repo ops = .ok commit →
    ∀ p c, commit.repo.tree.lookup p = some c → repo.tree.lookup p ≠ some c →
      c ∈ commit.newBlocks.map Prod.fst ∨ ∃ q, repo.tree.lookup q = some c

/-- Every record of the tree has its block. -/
def Store.HasBlocks (s : Store) (t : Tree) : Prop := ∀ p c, t.lookup p = some c → c ∈ s.repoBlock

/-- The condition: some CID is lost at one path and kept at another, no path gains it, and the index
has it for URIs that the batch updates or deletes only. -/
def LosesBlock (s : Store) (writes : List PreparedWrite) : Prop :=
  ∃ c, (∃ p, s.repo.tree.lookup p = some c ∧
      (writes.foldl applyWrite s.repo.tree).lookup p ≠ some c) ∧
    (∃ p, (writes.foldl applyWrite s.repo.tree).lookup p = some c) ∧
    (∀ p, (writes.foldl applyWrite s.repo.tree).lookup p = some c → s.repo.tree.lookup p = some c) ∧
    ∀ u row, s.record.lookup u = some row → row.cid = c → u ∈ touchedUris writes

theorem mem_duplicateRecordCids {s : Store} {cids : List Cid} {touched : List AtUri} {c : Cid} :
    c ∈ duplicateRecordCids s cids touched ↔ touched ≠ [] ∧ c ∈ cids ∧
      ∃ u row, s.record.lookup u = some row ∧ row.cid = c ∧ u ∉ touched := by
  unfold duplicateRecordCids
  split
  · rename_i h
    simp only [Multiset.notMem_zero, false_iff]
    rintro ⟨ht, hc, -⟩
    rcases h with h | h
    · exact ht h
    · rw [h] at hc; cases hc
  · rename_i h
    rw [Sql.Table.mem_select]
    simp only [decide_eq_true_eq]
    constructor
    · rintro ⟨u, row, hrow, ⟨hc, hu⟩, rfl⟩
      exact ⟨fun ht => h (.inl ht), hc, u, row, hrow, rfl, hu⟩
    · rintro ⟨-, hc, u, row, hrow, rfl, hu⟩
      exact ⟨u, row, hrow, ⟨hc, hu⟩, rfl⟩

section

variable {U : RepoLib} {F : Faults} {now : Clock} {s : Store} {writes : List PreparedWrite}
  {swapCommit : Option Cid}

/-- A record CID of the new tree has its block after the commit unless it stays in `removedCids`. -/
theorem mem_committed_repoBlock {root : RootRow} {commit : CommitData} (hD : U.Diffs)
    (hB : s.HasBlocks s.repo.tree) (h : Accepts U F s writes swapCommit root commit) {p : String}
    {c : Cid} (hp : commit.repo.tree.lookup p = some c) :
    c ∈ (committed now writes (answer s writes commit) s).repoBlock ↔
      c ∈ commit.removedCids →
        c ∈ duplicateRecordCids s commit.removedCids (touchedUris writes) := by
  have hthere : c ∈ (blockRows (answer s writes commit).commitData).map Prod.fst ∨ c ∈ s.repoBlock := by
    by_cases hold : s.repo.tree.lookup p = some c
    · exact .inr (hB p c hold)
    · rcases hD.blocks _ _ _ h.formatted p c hp hold with hnew | ⟨q, hq⟩
      · left
        simpa [blockRows, answer, withMissingBlocks, keepDuplicates] using hnew
      · exact .inr (hB q c hq)
  have hremoved : c ∈ (answer s writes commit).commitData.removedCids ↔ c ∈ commit.removedCids ∧
      c ∉ duplicateRecordCids s commit.removedCids (touchedUris writes) := by
    show c ∈ commit.removedCids.filter _ ↔ _
    rw [List.mem_filter, decide_eq_true_eq]
  rw [committed_repoBlock, Sql.Table.mem_deleteIn, Sql.Table.mem_insertAllIgnore, and_iff_left hthere,
    hremoved, not_and, not_not]

variable (now) in
theorem committed_hasBlocks_iff {root : RootRow} {commit : CommitData} (hU : U.AppliesInOrder)
    (hD : U.Diffs) (hB : s.HasBlocks s.repo.tree)
    (h : Accepts U F s writes swapCommit root commit) :
    (committed now writes (answer s writes commit) s).HasBlocks commit.repo.tree ↔
      ¬ LosesBlock s writes := by
  obtain ⟨htakes, htree⟩ := hU.tree h.formatted
  have hdiff : ∀ p c, (writes.foldl applyWrite s.repo.tree).lookup p = some c →
      (c ∈ commit.removedCids ↔ _) := fun p c hp =>
    hD.removed _ _ _ h.formatted p c (htree ▸ hp)
  rw [htree] at hdiff
  constructor
  · rintro hall ⟨c, ⟨q, hold, hlost⟩, ⟨p, hp⟩, hgain, hidx⟩
    have hmem := hall p c (htree ▸ hp)
    rw [mem_committed_repoBlock hD hB h (htree ▸ hp)] at hmem
    have hdup := hmem ((hdiff p c hp).2 ⟨⟨q, hold, hlost⟩, hgain⟩)
    obtain ⟨-, -, u, row, hrow, hc, hu⟩ := mem_duplicateRecordCids.1 hdup
    exact hu (hidx u row hrow hc)
  · intro hno p c hp
    rw [mem_committed_repoBlock hD hB h hp]
    intro hrem
    by_contra hdup
    rw [htree] at hp
    obtain ⟨⟨q, hold, hlost⟩, hgain⟩ := (hdiff p c hp).1 hrem
    have htouched : touchedUris writes ≠ [] := fun hnil =>
      hlost (lookup_foldl_of_creates htakes hnil hold)
    refine hno ⟨c, ⟨q, hold, hlost⟩, ⟨p, hp⟩, hgain, fun u row hrow hc => ?_⟩
    by_contra hu
    exact hdup (mem_duplicateRecordCids.2 ⟨htouched, hrem, u, row, hrow, hc, hu⟩)

/-- **After an accepted batch is applied, every record of the new tree has its block exactly when the
batch does not lose one that a record it touches keeps.** Whatever the blob pass then does. -/
theorem processWrites_hasBlocks_iff (hU : U.AppliesInOrder) (hD : U.Diffs)
    (hB : s.HasBlocks s.repo.tree) {r : CommitDataWithOps}
    (hf : formatCommit U F s writes swapCommit = .ok r) (hi : IndexRuns F writes)
    (ha : F .applyCommit = none) :
    ((processWrites U F now writes swapCommit).exec s).2.HasBlocks r.commitData.repo.tree ↔
      ¬ LosesBlock s writes := by
  have hsame := processWrites_sameRepo now hf hi ha
  obtain ⟨root, commit, hacc, rfl⟩ := formatCommit_ok.1 hf
  have hiff := committed_hasBlocks_iff now hU hD hB hacc
  unfold Store.HasBlocks at hiff ⊢
  rw [hsame.repoBlock]
  exact hiff

end

/-! ## The reference repo diffs -/

theorem RecordWriteOp.apply_eq {t u : Tree} {op : RecordWriteOp} (h : op.apply t = some u) :
    u = t.set op.path (op.block.map Prod.fst) := by
  cases op <;> simp only [apply] at h <;> split at h <;> cases h <;> rfl

/-- A path whose value changes is that of an op, and a new value comes with a block. -/
theorem foldlM_apply_changes {ops : List RecordWriteOp} {t u : Tree}
    (h : ops.foldlM RecordWriteOp.apply t = some u) {p : String} (hne : u.lookup p ≠ t.lookup p) :
    p ∈ ops.map RecordWriteOp.path ∧
      ∀ c, u.lookup p = some c → c ∈ (ops.filterMap RecordWriteOp.block).map Prod.fst := by
  induction ops generalizing t with
  | nil =>
    cases h
    exact absurd rfl hne
  | cons op ops ih =>
    rw [List.foldlM_cons, Option.bind_eq_bind, Option.bind_eq_some_iff] at h
    obtain ⟨v, hv, hrest⟩ := h
    have hset := RecordWriteOp.apply_eq hv
    by_cases hlater : u.lookup p = v.lookup p
    · -- no later op changes the path, so this one does
      rw [hlater, hset, Tree.lookup_set] at hne
      split at hne
      case isFalse => exact absurd rfl hne
      rename_i hp
      refine ⟨hp ▸ List.mem_cons_self, fun c hc => ?_⟩
      rw [hlater, hset, Tree.lookup_set, if_pos hp] at hc
      obtain ⟨b, hb, rfl⟩ := Option.map_eq_some_iff.1 hc
      rw [List.filterMap_cons, hb]
      exact List.mem_cons_self
    · obtain ⟨hp, hc⟩ := ih hrest hlater
      refine ⟨List.mem_cons_of_mem _ hp, fun c huc => ?_⟩
      obtain ⟨b, hb, rfl⟩ := List.mem_map.1 (hc c huc)
      refine List.mem_map_of_mem ?_
      rw [List.mem_filterMap] at hb ⊢
      obtain ⟨op', hop', hblock⟩ := hb
      exact ⟨op', List.mem_cons_of_mem op hop', hblock⟩

theorem Tree.lost_eq_some {t u : Tree} {p : String} {c : Cid} :
    t.lost u p = some c ↔ t.lookup p = some c ∧ u.lookup p ≠ some c := by
  unfold Tree.lost
  split
  · rename_i h
    simp only [reduceCtorEq, false_iff, not_and, not_not]
    exact fun hc => h ▸ hc
  · rename_i h
    exact ⟨fun hc => ⟨hc, fun hu => h (hc.trans hu.symm)⟩, And.left⟩

theorem RepoLib.diffs_inOrder : RepoLib.inOrder.Diffs := by
  have hfold : ∀ repo ops commit, RepoLib.inOrder.formatCommit repo ops = .ok commit →
      ops.foldlM RecordWriteOp.apply repo.tree = some commit.repo.tree ∧
        commit.newBlocks = ops.filterMap RecordWriteOp.block ∧
        commit.removedCids =
          repo.tree.removedCids commit.repo.tree (ops.map RecordWriteOp.path) := by
    intro repo ops commit h
    simp only [inOrder] at h
    split at h
    · cases h
    · rename_i tree htree
      cases h
      exact ⟨htree, rfl, rfl⟩
  constructor
  · intro repo ops commit h p c _
    obtain ⟨htree, -, hrem⟩ := hfold repo ops commit h
    have hpath : ∀ (t u : Tree), (∀ q, u.lookup q ≠ t.lookup q → q ∈ ops.map RecordWriteOp.path) →
        (c ∈ (ops.map RecordWriteOp.path).filterMap (t.lost u) ↔
          ∃ q, t.lookup q = some c ∧ u.lookup q ≠ some c) := by
      intro t u hmem
      rw [List.mem_filterMap]
      constructor
      · rintro ⟨q, -, hq⟩
        exact ⟨q, Tree.lost_eq_some.1 hq⟩
      · rintro ⟨q, hq, hne⟩
        exact ⟨q, hmem q fun he => hne (he.trans hq), Tree.lost_eq_some.2 ⟨hq, hne⟩⟩
    rw [hrem, Tree.removedCids, List.mem_filter, decide_eq_true_eq,
      hpath _ _ fun q hq => (foldlM_apply_changes htree hq).1,
      hpath _ _ fun q hq => (foldlM_apply_changes htree hq.symm).1]
    simp only [not_exists, not_and, not_not]
  · intro repo ops commit h p c hp hne
    obtain ⟨htree, hblocks, -⟩ := hfold repo ops commit h
    left
    rw [hblocks]
    exact (foldlM_apply_changes htree fun he => hne (he ▸ hp)).2 c hp

/-! ## Twin records -/

/-- Two records with the same content. -/
def Store.twins : Store := { Store.fresh with
  repoBlock := Finmap.singleton ⟨"x"⟩ ⟨"r", 0, []⟩
  record := (Finmap.singleton (feedPost "a") ⟨⟨"x"⟩, "r", "2026-01-01", none⟩).insert (feedPost "b")
    ⟨⟨"x"⟩, "r", "2026-01-01", none⟩
  repo := { Store.fresh.repo with
    tree := (Tree.set ∅ (feedPost "a").dataKey (some ⟨"x"⟩)).set (feedPost "b").dataKey
      (some ⟨"x"⟩) } }

theorem Store.twins_value {p : String} {c : Cid} (h : twins.repo.tree.lookup p = some c) :
    c = ⟨"x"⟩ := by
  simp only [twins, Tree.lookup_set] at h
  split at h
  · cases h; rfl
  split at h
  · cases h; rfl
  · cases h

theorem Store.twins_hasBlocks : twins.HasBlocks twins.repo.tree := by
  intro p c h
  rw [twins_value h]
  decide

theorem Store.twins_indexAgrees : twins.IndexAgrees := by
  intro u
  simp only [indexed, twins, Tree.lookup_set, AtUri.dataKey_inj, Sql.Table.lookup_insert_eq]
  by_cases hb : u = feedPost "b"
  · simp [hb]
  by_cases ha : u = feedPost "a"
  · subst ha
    simp [hb, Finmap.lookup_singleton_eq]
  · simp [hb, ha, Finmap.lookup_eq_none]

theorem Store.twins_rev {u : AtUri} {row : RecordRow} (h : twins.record.lookup u = some row) :
    row.repoRev = "r" := by
  simp only [twins, Sql.Table.lookup_insert_eq] at h
  split at h
  · cases h
    rfl
  · by_cases ha : u = feedPost "a"
    · subst ha
      rw [Finmap.lookup_singleton_eq] at h
      cases h
      rfl
    · rw [Finmap.lookup_eq_none.2 (by simpa using ha)] at h
      cases h

/-- One of the twins goes. -/
theorem processWrites_hasBlocks_twin_deleted :
    ∃ r, formatCommit .inOrder (fun _ => none) .twins [.delete ⟨feedPost "b", none⟩] none = .ok r ∧
      ((processWrites .inOrder (fun _ => none) ⟨"2026-01-02", fun _ => "2026-01-02"⟩
        [.delete ⟨feedPost "b", none⟩] none).exec .twins).2.HasBlocks r.commitData.repo.tree := by
  refine ⟨_, rfl, (processWrites_hasBlocks_iff RepoLib.appliesInOrder_inOrder RepoLib.diffs_inOrder
    Store.twins_hasBlocks rfl (fun _ _ => rfl) rfl).2 ?_⟩
  rintro ⟨c, ⟨q, hold, -⟩, -, -, hidx⟩
  rw [Store.twins_value hold] at hidx
  exact absurd (hidx (feedPost "a") ⟨⟨"x"⟩, "r", "2026-01-01", none⟩ (by decide) rfl) (by decide)

/-- One of the twins is updated to what it is and the other one goes: the block is deleted. -/
theorem processWrites_block_lost_under_twin :
    Store.twins.IndexAgrees ∧ Store.twins.HasBlocks Store.twins.repo.tree ∧
      ∃ r, formatCommit .inOrder (fun _ => none) .twins
        [.update ⟨feedPost "a", ⟨"x"⟩, none, [], []⟩, .delete ⟨feedPost "b", none⟩] none = .ok r ∧
      ¬ ((processWrites .inOrder (fun _ => none) ⟨"2026-01-02", fun _ => "2026-01-02"⟩
        [.update ⟨feedPost "a", ⟨"x"⟩, none, [], []⟩, .delete ⟨feedPost "b", none⟩] none).exec
          .twins).2.HasBlocks r.commitData.repo.tree := by
  refine ⟨Store.twins_indexAgrees, Store.twins_hasBlocks, _, rfl, fun h => ?_⟩
  exact absurd (h (feedPost "a").dataKey ⟨"x"⟩ (by decide)) (by decide)

end CacosPds.ActorStore
