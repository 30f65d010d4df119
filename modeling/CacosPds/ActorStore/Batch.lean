import CacosPds.ActorStore.FormatCommit
import CacosPds.Lib.KeyedFold
/-!
# Batches of writes on a tree

The upstream repo applies a list of writes one after another and refuses the list if a create meets
a record or an update or delete meets none (`RecordWriteOp.apply`, `RepoLib.AppliesInOrder`). Read
at one URI, a batch leaves what its last write there leaves (`lastWrite`).
-/
namespace CacosPds.ActorStore

/-- Put a record CID at a path, or take the path away. -/
def Tree.set (t : Tree) (path : String) : Option Cid → Tree
  | some cid => t.insert path cid
  | none => t.erase path

@[simp] theorem Tree.lookup_set (t : Tree) (path p : String) (v : Option Cid) :
    (t.set path v).lookup p = if p = path then v else t.lookup p := by
  cases v with
  | some cid => exact Sql.Table.lookup_insert_eq t path p cid
  | none => exact Sql.Table.lookup_erase_eq t path p

/-- One write on the tree, in upstream's `MST`: `add`, `update`, `delete`. -/
def RecordWriteOp.apply (t : Tree) : RecordWriteOp → Option Tree
  | .create collection rkey cid _ =>
    if formatDataKey collection rkey ∈ t then none
    else some (t.set (formatDataKey collection rkey) (some cid))
  | .update collection rkey cid _ =>
    if formatDataKey collection rkey ∈ t then some (t.set (formatDataKey collection rkey) (some cid))
    else none
  | .delete collection rkey =>
    if formatDataKey collection rkey ∈ t then some (t.set (formatDataKey collection rkey) none)
    else none

/-- Upstream applies the write list in order. -/
def RepoLib.AppliesInOrder (U : RepoLib) : Prop :=
  ∀ repo ops commit, U.formatCommit repo ops = .ok commit →
    ops.foldlM RecordWriteOp.apply repo.tree = some commit.repo.tree

/-- What a write leaves of a tree that takes it. -/
def applyWrite (t : Tree) (w : PreparedWrite) : Tree := t.set w.uri.dataKey w.newCid

/-- The tree takes a write: nothing is there for a create, something for an update or delete. -/
def Takes (t : Tree) (w : PreparedWrite) : Prop := w.action = .create ↔ w.uri.dataKey ∉ t

theorem apply_writeToOp {t u : Tree} {w : PreparedWrite} :
    (writeToOp w).apply t = some u ↔ Takes t w ∧ applyWrite t w = u := by
  cases w with
  | create w =>
    show (if w.uri.dataKey ∈ t then none else some (t.set w.uri.dataKey (some w.cid))) = some u ↔ _
    by_cases h : w.uri.dataKey ∈ t <;>
      simp [h, Takes, applyWrite, PreparedWrite.action, PreparedWrite.uri, PreparedWrite.newCid]
  | update w =>
    show (if w.uri.dataKey ∈ t then some (t.set w.uri.dataKey (some w.cid)) else none) = some u ↔ _
    by_cases h : w.uri.dataKey ∈ t <;>
      simp [h, Takes, applyWrite, PreparedWrite.action, PreparedWrite.uri, PreparedWrite.newCid]
  | delete w =>
    show (if w.uri.dataKey ∈ t then some (t.set w.uri.dataKey none) else none) = some u ↔ _
    by_cases h : w.uri.dataKey ∈ t <;>
      simp [h, Takes, applyWrite, PreparedWrite.action, PreparedWrite.uri, PreparedWrite.newCid]

/-- A batch is taken when each write is, by the tree that the writes before it leave. -/
def TakesAll (t : Tree) (writes : List PreparedWrite) : Prop :=
  ∀ pre w post, writes = pre ++ w :: post → Takes (pre.foldl applyWrite t) w

theorem takesAll_cons {t : Tree} {w : PreparedWrite} {writes : List PreparedWrite} :
    TakesAll t (w :: writes) ↔ Takes t w ∧ TakesAll (applyWrite t w) writes := by
  constructor
  · intro h
    exact ⟨h [] w writes rfl, fun pre v post hw => h (w :: pre) v post (by rw [hw]; rfl)⟩
  · rintro ⟨hw, hrest⟩ pre v post he
    cases pre with
    | nil => cases he; exact hw
    | cons w' pre => cases he; exact hrest pre v post rfl

theorem foldlM_apply {t u : Tree} {writes : List PreparedWrite} :
    (writes.map writeToOp).foldlM RecordWriteOp.apply t = some u ↔
      TakesAll t writes ∧ writes.foldl applyWrite t = u := by
  induction writes generalizing t with
  | nil => simp [TakesAll]
  | cons w writes ih =>
    rw [List.map_cons, List.foldlM_cons, Option.bind_eq_bind, Option.bind_eq_some_iff, takesAll_cons]
    simp only [apply_writeToOp, ih, List.foldl_cons]
    constructor
    · rintro ⟨_, ⟨hw, rfl⟩, hrest, hu⟩
      exact ⟨⟨hw, hrest⟩, hu⟩
    · rintro ⟨⟨hw, hrest⟩, hu⟩
      exact ⟨_, ⟨hw, rfl⟩, hrest, hu⟩

/-- What upstream's law says of a prepared batch. -/
theorem RepoLib.AppliesInOrder.tree {U : RepoLib} (hU : U.AppliesInOrder) {repo : Repo}
    {writes : List PreparedWrite} {commit : CommitData}
    (h : U.formatCommit repo (writes.map writeToOp) = .ok commit) :
    TakesAll repo.tree writes ∧ commit.repo.tree = writes.foldl applyWrite repo.tree := by
  obtain ⟨htakes, htree⟩ := foldlM_apply.1 (hU repo _ commit h)
  exact ⟨htakes, htree.symm⟩

/-! ## The last write to a URI -/

def lastWrite (writes : List PreparedWrite) (u : AtUri) : Option PreparedWrite :=
  (KeyedFold.at_ PreparedWrite.uri u writes).getLast?

theorem lastWrite_eq_none {writes : List PreparedWrite} {u : AtUri} :
    lastWrite writes u = none ↔ ∀ w ∈ writes, w.uri ≠ u := by
  rw [lastWrite, List.getLast?_eq_none_iff, KeyedFold.at_eq_nil]

theorem lastWrite_mem {writes : List PreparedWrite} {u : AtUri} {w : PreparedWrite}
    (h : lastWrite writes u = some w) : w ∈ writes ∧ w.uri = u :=
  KeyedFold.mem_at.1 (List.mem_of_getLast? h)

theorem at_dataKey (u : AtUri) (writes : List PreparedWrite) :
    KeyedFold.at_ (fun w : PreparedWrite => w.uri.dataKey) u.dataKey writes =
      KeyedFold.at_ PreparedWrite.uri u writes := by
  simp [KeyedFold.at_]

theorem local_applyWrite : KeyedFold.Local (fun (t : Tree) p => t.lookup p) applyWrite
    (fun w => w.uri.dataKey) (fun w _ => w.newCid) :=
  fun t w p => Tree.lookup_set t w.uri.dataKey p w.newCid

/-- Read a written tree at a URI. -/
theorem lookup_foldl_applyWrite (writes : List PreparedWrite) (t : Tree) (u : AtUri) :
    (writes.foldl applyWrite t).lookup u.dataKey =
      ((lastWrite writes u).map PreparedWrite.newCid).getD (t.lookup u.dataKey) := by
  rw [KeyedFold.get_foldl_last local_applyWrite, at_dataKey]
  rfl

/-- A path that no write is about keeps its record. -/
theorem lookup_foldl_other {writes : List PreparedWrite} {t : Tree} {p : String}
    (h : ∀ w ∈ writes, w.uri.dataKey ≠ p) : (writes.foldl applyWrite t).lookup p = t.lookup p := by
  rw [KeyedFold.get_foldl local_applyWrite, KeyedFold.at_eq_nil.2 h]
  rfl

/-- A URI that the batch only creates was free before. -/
theorem lookup_of_creates {writes : List PreparedWrite} {t : Tree} {u : AtUri}
    (htakes : TakesAll t writes) (hu : u ∉ touchedUris writes) (hw : ∃ w ∈ writes, w.uri = u) :
    t.lookup u.dataKey = none := by
  induction writes generalizing t with
  | nil =>
    obtain ⟨w, hw, -⟩ := hw
    cases hw
  | cons w writes ih =>
    obtain ⟨htake, hrest⟩ := takesAll_cons.1 htakes
    obtain ⟨hcreate, hlater⟩ := notMem_touchedUris_cons.1 hu
    by_cases hwu : w.uri = u
    · rw [← hwu]
      exact Finmap.lookup_eq_none.2 (htake.1 (hcreate hwu))
    · obtain ⟨v, hv, hvu⟩ := hw
      have hv' : v ∈ writes := by
        rcases List.mem_cons.1 hv with rfl | hv
        · exact absurd hvu hwu
        · exact hv
      have hnone := ih hrest hlater ⟨v, hv', hvu⟩
      rwa [applyWrite, Tree.lookup_set, if_neg fun he => hwu (AtUri.dataKey_injective he).symm]
        at hnone

/-- A batch that touches no record only adds to the tree. -/
theorem lookup_foldl_of_creates {writes : List PreparedWrite} {t : Tree} {p : String} {c : Cid}
    (htakes : TakesAll t writes) (h : touchedUris writes = []) (hp : t.lookup p = some c) :
    (writes.foldl applyWrite t).lookup p = some c := by
  have hother : ∀ w ∈ writes, w.uri.dataKey ≠ p := by
    rintro w hw rfl
    have hu : w.uri ∉ touchedUris writes := by simp [h]
    have hfree := lookup_of_creates htakes hu ⟨w, hw, rfl⟩
    rw [hp] at hfree
    cases hfree
  rw [lookup_foldl_other hother, hp]

/-! ## A reference repo

`RepoLib.inOrder` meets every law that this development asks of upstream. It names a commit by its
rev and hashes nothing. -/

def RecordWriteOp.path : RecordWriteOp → String
  | .create collection rkey .. | .update collection rkey .. | .delete collection rkey =>
    formatDataKey collection rkey

def RecordWriteOp.block : RecordWriteOp → Option (Cid × Bytes)
  | .create _ _ cid record | .update _ _ cid record => some (cid, record)
  | .delete .. => none

/-- The value at a path is there in `t` and another one, or none, in `u`. -/
def Tree.lost (t u : Tree) (path : String) : Option Cid :=
  if t.lookup path = u.lookup path then none else t.lookup path

/-- What `t` has at the changed paths, less what `u` has there. -/
def Tree.removedCids (t u : Tree) (paths : List String) : List Cid :=
  (paths.filterMap (t.lost u)).filter (· ∉ paths.filterMap (u.lost t))

def RepoLib.inOrder : RepoLib where
  formatCommit repo ops :=
    match ops.foldlM RecordWriteOp.apply repo.tree with
    | none => .error "write list refused"
    | some tree =>
      let rev := repo.rev ++ "+"
      .ok {
        cid := ⟨"commit " ++ rev⟩
        rev := rev
        since := some repo.rev
        prev := none
        newBlocks := ops.filterMap RecordWriteOp.block
        relevantBlocks := ops.filterMap RecordWriteOp.block
        removedCids := repo.tree.removedCids tree (ops.map RecordWriteOp.path)
        repo := ⟨⟨"commit " ++ rev⟩, ⟨"tree " ++ rev⟩, rev, tree⟩ }

theorem RepoLib.appliesInOrder_inOrder : RepoLib.inOrder.AppliesInOrder := by
  intro repo ops commit h
  simp only [inOrder] at h
  split at h
  · cases h
  · rename_i tree htree
    cases h
    exact htree

/-- An actor whose repo has no record yet. -/
def Store.fresh : Store where
  did := "did:plc:a"
  repoRoot := some ⟨⟨"commit r"⟩, "r", "2026-01-01"⟩
  repoBlock := ∅
  record := ∅
  recordBlob := ∅
  blob := ∅
  repo := ⟨⟨"commit r"⟩, ⟨"tree r"⟩, "r", ∅⟩
  blobCalls := []

def feedPost (rkey : String) : AtUri := ⟨"app.bsky.feed.post", rkey, by decide⟩

end CacosPds.ActorStore
