import CacosPds.ActorStore.Batch
/-!
# Replaying the ops of a commit (`mod.rs:795-837`)

A firehose consumer goes through `CommitDataWithOps.ops` over the tree before the commit. `prev` is
read from the record index as it is before the batch (`commitOp`), while the tree takes one write
after another (`RepoLib.AppliesInOrder`): the two agree when no write of the batch meets what an
earlier one has changed.
-/
namespace CacosPds.ActorStore

/-- The ops lead from the tree `t` to `final`: each op's `prev` is what its path holds at that
moment, the swap check of its write passes on that value, and `cid` is then put there. -/
def Replays (final : Tree) : Tree → List PreparedWrite → List CommitOp → Prop
  | t, [], [] => t = final
  | t, w :: writes, op :: ops =>
    op.prev = t.lookup op.path ∧
      checkRecordSwap op.action (t.lookup op.path) w.swapCid = .ok () ∧
      Replays final (t.set op.path op.cid) writes ops
  | _, _, _ => False

/-- The condition on the batch and the store. -/
structure PrevCurrent (s : Store) (writes : List PreparedWrite) : Prop where
  /-- The record index has what the tree has, at every URI of the batch. -/
  index : ∀ w ∈ writes, s.indexed w.uri = s.repo.tree.lookup w.uri.dataKey
  /-- A write after another one of the batch to its URI finds there what was there before the batch. -/
  unchanged : ∀ pre w post v, writes = pre ++ w :: post → lastWrite pre w.uri = some v →
    v.newCid = s.indexed w.uri

/-- With an index that holds what the tree holds, one write per URI is enough. -/
theorem prevCurrent_of_nodup {s : Store} {writes : List PreparedWrite} (hs : s.IndexAgrees)
    (h : (writes.map PreparedWrite.uri).Nodup) : PrevCurrent s writes := by
  refine ⟨fun w _ => hs w.uri, ?_⟩
  rintro pre w post v rfl hv
  obtain ⟨hmem, huri⟩ := lastWrite_mem hv
  simp only [List.map_append, List.map_cons, List.nodup_append] at h
  exact absurd huri (h.2.2 v.uri (List.mem_map_of_mem hmem) w.uri List.mem_cons_self)

/-- Write by write: the index has what the path holds when the write's turn comes. -/
theorem prevCurrent_iff {s : Store} {writes : List PreparedWrite} : PrevCurrent s writes ↔
    ∀ pre w post, writes = pre ++ w :: post → s.indexed w.uri =
      ((lastWrite pre w.uri).map PreparedWrite.newCid).getD (s.repo.tree.lookup w.uri.dataKey) := by
  constructor
  · intro h pre w post he
    cases hl : lastWrite pre w.uri with
    | none => exact h.index w (he ▸ List.mem_append_right pre List.mem_cons_self)
    | some v => exact (h.unchanged pre w post v he hl).symm
  · intro h
    -- back along the earlier writes to the URI, to the first one
    have hfirst : ∀ n pre w post, pre.length = n → writes = pre ++ w :: post →
        s.indexed w.uri = s.repo.tree.lookup w.uri.dataKey := by
      intro n
      induction n using Nat.strongRecOn with
      | ind n ih =>
        intro pre w post hn he
        cases hl : lastWrite pre w.uri with
        | none => rw [h pre w post he, hl]; rfl
        | some v =>
          obtain ⟨hmem, huri⟩ := lastWrite_mem hl
          obtain ⟨pre', mid, rfl⟩ := List.append_of_mem hmem
          have hlt : pre'.length < n := by
            simp only [List.length_append, List.length_cons] at hn
            omega
          have hv := ih pre'.length hlt pre' v (mid ++ w :: post) rfl (by rw [he]; simp)
          rwa [huri] at hv
    refine ⟨fun w hw => ?_, fun pre w post v he hl => ?_⟩
    · obtain ⟨pre, post, he⟩ := List.append_of_mem hw
      exact hfirst _ pre w post rfl he
    · rw [h pre w post he, hl]
      rfl

/-- The ops of a batch replay when every swap check passes on the index, the index is current for
every write, and the writes end in `final`. -/
theorem replays_map_commitOp {s : Store} {writes : List PreparedWrite} (t : Tree)
    (hswap : ∀ w ∈ writes, checkRecordSwap w.action (s.indexed w.uri) w.swapCid = .ok ()) :
    Replays (writes.foldl applyWrite t) t writes (writes.map (commitOp s)) ↔
      ∀ pre w post, writes = pre ++ w :: post →
        s.indexed w.uri = (pre.foldl applyWrite t).lookup w.uri.dataKey := by
  induction writes generalizing t with
  | nil => simp [Replays]
  | cons w writes ih =>
    obtain ⟨hw, hrest⟩ := List.forall_mem_cons.1 hswap
    show s.indexed w.uri = t.lookup w.uri.dataKey ∧
      checkRecordSwap w.action (t.lookup w.uri.dataKey) w.swapCid = .ok () ∧
      Replays (writes.foldl applyWrite (applyWrite t w)) (applyWrite t w) writes _ ↔ _
    rw [ih (applyWrite t w) hrest]
    constructor
    · rintro ⟨hprev, -, hall⟩ pre v post he
      cases pre with
      | nil => cases he; exact hprev
      | cons w' pre => cases he; exact hall pre v post rfl
    · intro hall
      have hprev : s.indexed w.uri = t.lookup w.uri.dataKey := hall [] w writes rfl
      exact ⟨hprev, hprev ▸ hw, fun pre v post he => hall (w :: pre) v post (by rw [he]; rfl)⟩

theorem Accepts.replays_iff {U : RepoLib} (hU : U.AppliesInOrder) {F : Faults} {s : Store}
    {writes : List PreparedWrite} {swapCommit : Option Cid} {root : RootRow} {commit : CommitData}
    (h : Accepts U F s writes swapCommit root commit) :
    Replays commit.repo.tree s.repo.tree writes (writes.map (commitOp s)) ↔
      PrevCurrent s writes := by
  rw [(hU.tree h.formatted).2, replays_map_commitOp _ h.swapCid, prevCurrent_iff]
  simp only [lookup_foldl_applyWrite]

/-- **The ops of an accepted batch replay over the tree before the commit exactly when the record
index is current for every write of the batch.** -/
theorem formatCommit_replays_iff {U : RepoLib} (hU : U.AppliesInOrder) {F : Faults} {s : Store}
    {writes : List PreparedWrite} {swapCommit : Option Cid} {r : CommitDataWithOps}
    (h : formatCommit U F s writes swapCommit = .ok r) :
    Replays r.commitData.repo.tree s.repo.tree writes r.ops ↔ PrevCurrent s writes := by
  obtain ⟨root, commit, hacc, rfl⟩ := formatCommit_ok.1 h
  exact hacc.replays_iff hU

/-- A batch over two records. -/
theorem formatCommit_replays_two_creates :
    ∃ r, formatCommit .inOrder (fun _ => none) .fresh
        [.create ⟨feedPost "a", ⟨"x"⟩, none, [], []⟩, .create ⟨feedPost "b", ⟨"x"⟩, none, [], []⟩]
        none = .ok r ∧
      Replays r.commitData.repo.tree Store.fresh.repo.tree
        [.create ⟨feedPost "a", ⟨"x"⟩, none, [], []⟩, .create ⟨feedPost "b", ⟨"x"⟩, none, [], []⟩]
        r.ops := by
  refine ⟨_, rfl, (formatCommit_replays_iff (F := fun _ => none) RepoLib.appliesInOrder_inOrder
    (show formatCommit _ _ _ _ none = _ from rfl)).2 ?_⟩
  exact prevCurrent_of_nodup (fun _ => rfl) (by decide)

/-- A record created and then updated in one batch: the update's `prev` is `none`. -/
theorem formatCommit_prev_stale_after_create :
    ∃ r, formatCommit .inOrder (fun _ => none) .fresh
        [.create ⟨feedPost "a", ⟨"x"⟩, none, [], []⟩, .update ⟨feedPost "a", ⟨"y"⟩, none, [], []⟩]
        none = .ok r ∧
      ¬ Replays r.commitData.repo.tree Store.fresh.repo.tree
        [.create ⟨feedPost "a", ⟨"x"⟩, none, [], []⟩, .update ⟨feedPost "a", ⟨"y"⟩, none, [], []⟩]
        r.ops := by
  refine ⟨_, rfl, fun h => ?_⟩
  have hprev : (none : Option Cid) = some ⟨"x"⟩ := h.2.2.1
  cases hprev

end CacosPds.ActorStore
