import CacosPds.ActorStore.ProcessWrites
/-!
# What a failing `process_writes` leaves behind (`mod.rs:747-766`)

Only `apply_commit` runs in a transaction. The index statements before it and the statements of the
blob pass after it stay when a later one fails. `FailsClean` says on the inputs when a call that
fails has changed no table; `processWrites_failsClean_iff` is that this is exact.
-/
namespace CacosPds.ActorStore

open Stages

/-- The five tables are as they were. -/
structure SameTables (s t : Store) : Prop where
  repoRoot : t.repoRoot = s.repoRoot
  repoBlock : t.repoBlock = s.repoBlock
  record : t.record = s.record
  recordBlob : t.recordBlob = s.recordBlob
  blob : t.blob = s.blob

/-- Upstream's revs come from a ticker that gives none out twice: no row has the next commit's. -/
def RepoLib.FreshRev (U : RepoLib) (s : Store) : Prop :=
  ∀ ops commit, U.formatCommit s.repo ops = .ok commit →
    (∀ root, s.repoRoot = some root → root.rev ≠ commit.rev) ∧
      ∀ u row, s.record.lookup u = some row → row.repoRev ≠ commit.rev

/-- A call that fails has changed nothing. -/
def AllOrNothing (U : RepoLib) (F : Faults) (now : Clock) (s : Store) (writes : List PreparedWrite)
    (swapCommit : Option Cid) : Prop :=
  ∀ e t, (processWrites U F now writes swapCommit).exec s = (.error e, t) → SameTables s t

/-! ## The record table -/

/-- The writes undo themselves: the last one to each URI is a delete, and there was no row. -/
def NetsOut (s : Store) (writes : List PreparedWrite) : Prop :=
  ∀ u w, lastWrite writes u = some w → w.newCid = none ∧ s.record.lookup u = none

theorem record_indexAll_iff (now : Clock) {rev : String} {wns : List (PreparedWrite × Nat)}
    {s : Store} (hrev : ∀ u row, s.record.lookup u = some row → row.repoRev ≠ rev) :
    (indexAll now rev wns s).record = s.record ↔ NetsOut s (wns.map Prod.fst) := by
  constructor
  · intro h u w hw
    have hrow := cidRev_indexAll now rev wns s u
    rw [h, hw, Option.map_some, Option.getD_some] at hrow
    cases hc : w.newCid with
    | none =>
      rw [hc] at hrow
      exact ⟨rfl, Option.map_eq_none_iff.1 hrow⟩
    | some cid =>
      rw [hc, Option.map_some] at hrow
      obtain ⟨row, hlookup, he⟩ := Option.map_eq_some_iff.1 hrow
      exact absurd (congrArg Prod.snd he) (hrev u row hlookup)
  · intro h
    refine Finmap.ext_lookup fun u => ?_
    cases hw : lastWrite (wns.map Prod.fst) u with
    | none => exact lookup_indexAll_other hw
    | some w =>
      obtain ⟨hdel, hnone⟩ := h u w hw
      have hrow := cidRev_indexAll now rev wns s u
      rw [hw, Option.map_some, Option.getD_some, hdel] at hrow
      rw [hnone]
      exact Option.map_eq_none_iff.1 hrow

/-! ## The blob table during the blob pass -/

/-- A blob row, once the rows that wait under these keys are cleared. -/
def cleared (keys : List String) (row : BlobRow) : BlobRow :=
  { row with tempKey := row.tempKey.filter (· ∉ keys) }

theorem tempKey_cleared {keys : List String} {row : BlobRow} {k : String} :
    (cleared keys row).tempKey = some k ↔ row.tempKey = some k ∧ k ∉ keys := by
  simp [cleared, Option.filter_eq_some_iff]

/-- Clear one more key. -/
theorem cleared_snoc (keys : List String) (k : String) (row : BlobRow) :
    (if (cleared keys row).tempKey = some k then { cleared keys row with tempKey := none }
      else cleared keys row) = cleared (keys ++ [k]) row := by
  obtain ⟨mimeType, size, tempKey, takedownRef⟩ := row
  cases tempKey with
  | none => rfl
  | some j =>
    by_cases hj : j ∈ keys
    · simp [cleared, Option.filter, hj]
    · by_cases hk : j = k <;> simp [cleared, Option.filter, hj, hk]

theorem findBlob_of_cleared {s t : Store} {keys : List String} {c : Cid}
    (h : t.blob.lookup c = (s.blob.lookup c).map (cleared keys)) :
    findBlob t c = (findBlob s c).map (cleared keys) := by
  rw [findBlob, h, findBlob]
  cases s.blob.lookup c with
  | none => rfl
  | some row => by_cases hr : row.takedownRef.isNone <;> simp [Option.filter, cleared, hr]

/-- The blobs under way have the keys cleared under which they and those before them waited. -/
theorem lookup_blobsAll (rns : List ((AtUri × PreparedBlobRef) × Nat)) (s : Store) (c : Cid) :
    (blobsAll rns s).blob.lookup c =
      (s.blob.lookup c).map (cleared (rns.filterMap fun rn => waitingKey s rn.1.2.cid)) := by
  induction rns using List.reverseRecOn generalizing c with
  | nil =>
    have hid : cleared [] = id := by
      funext row
      obtain ⟨mimeType, size, tempKey, takedownRef⟩ := row
      cases tempKey <;> rfl
    simp [blobsAll, hid]
  | append_singleton rns rn ih =>
    have hkey : waitingKey (blobsAll rns s) rn.1.2.cid = (waitingKey s rn.1.2.cid).filter
        (· ∉ rns.filterMap fun rn => waitingKey s rn.1.2.cid) := by
      rw [waitingKey, findBlob_of_cleared (ih rn.1.2.cid), waitingKey]
      cases findBlob s rn.1.2.cid with
      | none => rfl
      | some row =>
        ext k
        show (cleared _ row).tempKey = some k ↔ row.tempKey.filter _ = some k
        rw [tempKey_cleared, Option.filter_eq_some_iff, decide_eq_true_eq]
    have hstep : (blobsAll (rns ++ [rn]) s).blob = (promote rn.1.2 (blobsAll rns s)).blob := by
      simp [blobsAll, associate]
    rw [hstep, promote, hkey, List.filterMap_append]
    cases hwait : waitingKey s rn.1.2.cid with
    | none => simp [ih, hwait]
    | some k =>
      by_cases hk : k ∈ rns.filterMap fun rn => waitingKey s rn.1.2.cid
      · have hsame : cleared ((rns.filterMap fun rn => waitingKey s rn.1.2.cid) ++ [k]) =
            cleared (rns.filterMap fun rn => waitingKey s rn.1.2.cid) := by
          funext row
          rw [← cleared_snoc, if_neg fun h => (tempKey_cleared.1 h).2 hk]
        simp [ih, hwait, hk, Option.filter, hsame]
      · have hclear : (clearTempKey k (makePermanent k rn.1.2.cid (blobsAll rns s))).blob.lookup c =
            ((blobsAll rns s).blob.lookup c).map _ := Sql.Table.lookup_updateRows _ _ c
        simp only [Option.filter, hk, not_false_eq_true, decide_true, if_true, hclear, ih,
          Option.map_map]
        rw [List.filterMap_cons, hwait]
        congr 1
        funext row
        exact cleared_snoc _ k row

/-- A blob's check after those before it: its row is there and of the right kind, and if it waits under
a key that no blob before it waits under, the promotion works. -/
theorem verifies_blobsAll {F : Faults} {n : Nat} {blob : PreparedBlobRef}
    {rns : List ((AtUri × PreparedBlobRef) × Nat)} {s : Store} :
    Verifies F n blob (blobsAll rns s) ↔ F (.selectBlob n) = none ∧
      ∃ found, findBlob s blob.cid = some found ∧ verifyBlob blob found = .ok () ∧
        ∀ k, found.tempKey = some k → (∀ rn ∈ rns, waitingKey s rn.1.2.cid ≠ some k) →
          F (.makePermanent n) = none ∧ F (.clearTempKey n) = none := by
  rw [Verifies, findBlob_of_cleared (lookup_blobsAll rns s blob.cid)]
  refine and_congr_right fun _ => ?_
  simp only [Option.map_eq_some_iff]
  constructor
  · rintro ⟨_, ⟨found, hfound, rfl⟩, hver, hF⟩
    refine ⟨found, hfound, hver, fun k hk hnew => hF ?_⟩
    have hkey : (cleared (rns.filterMap fun rn => waitingKey s rn.1.2.cid) found).tempKey = some k := by
      refine tempKey_cleared.2 ⟨hk, fun hmem => ?_⟩
      obtain ⟨rn, hrn, hwait⟩ := List.mem_filterMap.1 hmem
      exact hnew rn hrn hwait
    rw [hkey]
    exact Option.some_ne_none k
  · rintro ⟨found, hfound, hver, hF⟩
    refine ⟨_, ⟨found, hfound, rfl⟩, hver, fun hne => ?_⟩
    obtain ⟨k, hk⟩ := Option.ne_none_iff_exists'.1 hne
    obtain ⟨hkey, hnew⟩ := tempKey_cleared.1 hk
    exact hF k hkey fun rn hrn hwait => hnew (List.mem_filterMap.2 ⟨rn, hrn, hwait⟩)

/-- The dereferencing pass leaves the rows of the blobs that the batch lists. -/
theorem findBlob_dereference {writes : List PreparedWrite} {s : Store} {c : Cid}
    (hc : c ∈ newBlobCids writes) : findBlob (dereference writes s) c = findBlob s c := by
  unfold dereference
  split
  · rfl
  · have hkeep : c ∉ cidsToDelete s writes := by
      intro h
      exact (Finset.mem_filter.1 h).2.2 hc
    have hrow : (deleteBlobs (cidsToDelete s writes) (deleteRecordBlobs (touchedUris writes)
        s)).blob.lookup c = s.blob.lookup c := by
      show (s.blob.deleteSet (cidsToDelete s writes)).lookup c = _
      rw [Sql.Table.lookup_deleteSet, if_neg hkeep]
    rw [findBlob, hrow, findBlob]

/-! ## When a failing call has changed nothing -/

/-- The blob pass works: every statement it reaches does, and every blob the batch lists is there, not
taken down and of the right kind. A promotion is reached by the first blob that waits under its
key. -/
structure BlobsPass (F : Faults) (s : Store) (writes : List PreparedWrite) : Prop where
  dereferences : Dereferences F s writes
  selectBlob : ∀ n < (blobRefs writes).length, F (.selectBlob n) = none
  associateBlob : ∀ n < (blobRefs writes).length, F (.associateBlob n) = none
  verified : ∀ r ∈ blobRefs writes, ∃ found, findBlob s r.2.cid = some found ∧
    verifyBlob r.2 found = .ok ()
  promoted : ∀ n r k, (blobRefs writes)[n]? = some r → waitingKey s r.2.cid = some k →
    (∀ r' ∈ (blobRefs writes).take n, waitingKey s r'.2.cid ≠ some k) →
    F (.makePermanent n) = none ∧ F (.clearTempKey n) = none

/-- The condition on the call: the batch is refused at once, or an index statement or the commit fails
when the writes indexed so far undo themselves, or the blob pass does not fail. -/
inductive FailsClean (U : RepoLib) (F : Faults) (s : Store) (writes : List PreparedWrite)
    (swapCommit : Option Cid) : Prop
  | refused (h : ¬ ∃ root commit, Accepts U F s writes swapCommit root commit)
  | index (n : Nat) (hn : n < writes.length) (hfail : F (.indexWrite n) ≠ none)
      (hbefore : ∀ m < n, F (.indexWrite m) = none) (hnet : NetsOut s (writes.take n))
  | commit (hi : IndexRuns F writes) (hfail : F .applyCommit ≠ none) (hnet : NetsOut s writes)
  | blobs (hi : IndexRuns F writes) (ha : F .applyCommit = none) (hb : BlobsPass F s writes)

theorem mem_newBlobCids {writes : List PreparedWrite} {r : AtUri × PreparedBlobRef}
    (h : r ∈ blobRefs writes) : r.2.cid ∈ newBlobCids writes := by
  obtain ⟨w, hw, hr⟩ := List.mem_flatMap.1 h
  obtain ⟨b, hb, rfl⟩ := List.mem_map.1 hr
  exact List.mem_flatMap.2 ⟨w, hw, List.mem_map_of_mem hb⟩

section

variable {U : RepoLib} {F : Faults} {now : Clock} {writes : List PreparedWrite}
  {swapCommit : Option Cid} {s : Store}

/-- For the blobs of the batch, the pass starts from the rows before the call. -/
theorem findBlob_start {r : CommitDataWithOps} {ref : AtUri × PreparedBlobRef}
    (h : ref ∈ blobRefs writes) :
    findBlob (dereference writes (committed now writes r s)) ref.2.cid = findBlob s ref.2.cid := by
  rw [findBlob_dereference (mem_newBlobCids h), findBlob, committed_blob]
  rfl

theorem dereferences_committed {r : CommitDataWithOps} :
    Dereferences F (committed now writes r s) writes ↔ Dereferences F s writes := by
  have hderef : dereferenced (committed now writes r s) (touchedUris writes) =
      dereferenced s (touchedUris writes) := by
    rw [dereferenced, committed_recordBlob]
    rfl
  have hcids : cidsToDelete (committed now writes r s) writes = cidsToDelete s writes := by
    rw [cidsToDelete, hderef, committed_recordBlob]
    rfl
  constructor
  · exact fun h => ⟨h.delete, hderef ▸ h.duplicates, hcids ▸ h.blobs⟩
  · exact fun h => ⟨h.delete, hderef ▸ h.duplicates, hcids ▸ h.blobs⟩

/-- One blob of the pass, on the store before the call. -/
theorem verifies_start {r : CommitDataWithOps} {n : Nat} {ref : AtUri × PreparedBlobRef}
    (h : (blobRefs writes)[n]? = some ref) :
    Verifies F n ref.2 (blobsAll ((blobRefs writes).zipIdx.take n)
        (dereference writes (committed now writes r s))) ↔
      F (.selectBlob n) = none ∧ ∃ found, findBlob s ref.2.cid = some found ∧
        verifyBlob ref.2 found = .ok () ∧
          ∀ k, found.tempKey = some k →
            (∀ r' ∈ (blobRefs writes).take n, waitingKey s r'.2.cid ≠ some k) →
            F (.makePermanent n) = none ∧ F (.clearTempKey n) = none := by
  have hbefore : ∀ k, (∀ rn ∈ (blobRefs writes).zipIdx.take n,
      waitingKey (dereference writes (committed now writes r s)) rn.1.2.cid ≠ some k) ↔
      ∀ r' ∈ (blobRefs writes).take n, waitingKey s r'.2.cid ≠ some k := by
    intro k
    have hmap : (blobRefs writes).take n = ((blobRefs writes).zipIdx.take n).map Prod.fst := by
      rw [List.map_take, List.zipIdx_map_fst]
    rw [hmap, List.forall_mem_map]
    refine forall₂_congr fun rn hrn => ?_
    have hmem : rn.1 ∈ blobRefs writes := by
      have hin : rn.1 ∈ ((blobRefs writes).zipIdx).map Prod.fst :=
        List.mem_map_of_mem (List.mem_of_mem_take hrn)
      rwa [List.zipIdx_map_fst] at hin
    rw [waitingKey, findBlob_start hmem]
    rfl
  rw [verifies_blobsAll, findBlob_start (List.mem_of_getElem? h)]
  simp only [hbefore]

variable (now) in
theorem blobsPass_iff {r : CommitDataWithOps} :
    (∃ t, (processWriteBlobs F writes).exec (committed now writes r s) = (.ok (), t)) ↔
      BlobsPass F s writes := by
  refine ((does_processWriteBlobs F writes).exists_iff _).trans ?_
  show Dereferences F _ writes ∧ _ ↔ _
  rw [dereferences_committed]
  constructor
  · rintro ⟨hderef, hall⟩
    refine ⟨hderef, fun n hn => ?_, fun n hn => ?_, fun ref href => ?_, fun n ref k hn hk hnew => ?_⟩
    · have hn' := List.getElem?_eq_getElem hn
      exact ((verifies_start hn').1 (hall n _ hn').1).1
    · exact (hall n _ (List.getElem?_eq_getElem hn)).2
    · obtain ⟨n, hn⟩ := List.mem_iff_getElem?.1 href
      obtain ⟨-, found, hfound, hver, -⟩ := (verifies_start hn).1 (hall n ref hn).1
      exact ⟨found, hfound, hver⟩
    · obtain ⟨-, found, hfound, -, hF⟩ := (verifies_start hn).1 (hall n ref hn).1
      rw [waitingKey, hfound] at hk
      exact hF k hk hnew
  · intro h
    refine ⟨h.dereferences, fun n ref hn => ?_⟩
    have hlt := (List.getElem?_eq_some_iff.1 hn).1
    refine ⟨(verifies_start hn).2 ⟨h.selectBlob n hlt, ?_⟩, h.associateBlob n hlt⟩
    obtain ⟨found, hfound, hver⟩ := h.verified ref (List.mem_of_getElem? hn)
    refine ⟨found, hfound, hver, fun k hk hnew => h.promoted n ref k hn ?_ hnew⟩
    rw [waitingKey, hfound]
    exact hk

/-! ## Atomicity -/

theorem indexAll_sameTables_iff {rev : String} {wns : List (PreparedWrite × Nat)}
    (hrev : ∀ u row, s.record.lookup u = some row → row.repoRev ≠ rev) :
    SameTables s (indexAll now rev wns s) ↔ NetsOut s (wns.map Prod.fst) := by
  rw [← record_indexAll_iff now hrev]
  constructor
  · exact fun h => h.record
  · intro h
    rw [indexAll_eq] at h ⊢
    exact ⟨rfl, rfl, h, rfl, rfl⟩

/-- A commit that is applied shows in the root row, whatever the blob pass does. -/
theorem not_sameTables_of_committed (hU : U.FreshRev s) {r : CommitDataWithOps} {t : Store}
    (hf : formatCommit U F s writes swapCommit = .ok r)
    (hsame : SameRepo (committed now writes r s) t) : ¬ SameTables s t := by
  intro h
  obtain ⟨root, commit, hacc, rfl⟩ := formatCommit_ok.1 hf
  have hroot := h.repoRoot
  rw [hsame.repoRoot, hacc.hasRoot] at hroot
  cases hroot
  exact (hU _ _ hacc.formatted).1 _ hacc.hasRoot rfl

/-- Where it fails with the tables as they were … -/
theorem failsClean_of_allOrNothing (hU : U.FreshRev s)
    (hall : AllOrNothing U F now s writes swapCommit) : FailsClean U F s writes swapCommit := by
  rcases hx : (processWrites U F now writes swapCommit).exec s with ⟨e | r, t⟩
  · have hsame := hall e t hx
    rcases processWrites_error hx with ⟨hf, -⟩ | ⟨r, hf, hstage⟩
    · refine .refused fun ⟨root, commit, hacc⟩ => ?_
      rw [formatCommit_ok.2 ⟨root, commit, hacc, rfl⟩] at hf
      cases hf
    obtain ⟨root, commit, hacc, rfl⟩ := formatCommit_ok.1 hf
    have hrev := (hU _ _ hacc.formatted).2
    rcases hstage with ⟨n, hn, hfail, hbefore, rfl⟩ | ⟨hi, hfail, rfl⟩ | ⟨hi, ha, hb⟩
    · have hnet := (indexAll_sameTables_iff hrev).1 hsame
      rw [List.map_take, List.zipIdx_map_fst] at hnet
      exact .index n hn hfail hbefore hnet
    · have hnet := (indexAll_sameTables_iff hrev).1 hsame
      rw [List.zipIdx_map_fst] at hnet
      exact .commit hi hfail hnet
    · have hkeep := keeps_processWriteBlobs F writes (committed now writes (answer s writes commit) s)
      rw [hb] at hkeep
      exact absurd hsame (not_sameTables_of_committed hU hf hkeep)
  · obtain ⟨-, hi, ha, hb⟩ := processWrites_ok.1 hx
    exact .blobs hi ha ((blobsPass_iff now).1 ⟨t, hb⟩)

/-- … and where it has to. -/
theorem allOrNothing_of_failsClean (hU : U.FreshRev s)
    (hclean : FailsClean U F s writes swapCommit) : AllOrNothing U F now s writes swapCommit := by
  intro e t hx
  rcases processWrites_error hx with ⟨-, rfl⟩ | ⟨r, hf, hstage⟩
  · exact ⟨rfl, rfl, rfl, rfl, rfl⟩
  obtain ⟨root, commit, hacc, rfl⟩ := formatCommit_ok.1 hf
  have hrev := (hU _ _ hacc.formatted).2
  rcases hstage with ⟨n, hn, hfail, hbefore, rfl⟩ | ⟨hi, hfail, rfl⟩ | ⟨hi, ha, hb⟩
  · refine (indexAll_sameTables_iff hrev).2 ?_
    rw [List.map_take, List.zipIdx_map_fst]
    cases hclean with
    | refused h => exact absurd ⟨root, commit, hacc⟩ h
    | index m hm hfail' hbefore' hnet =>
      rcases Nat.lt_trichotomy n m with hlt | rfl | hlt
      · exact absurd (hbefore' n hlt) hfail
      · exact hnet
      · exact absurd (hbefore m hlt) hfail'
    | commit hi => exact absurd (hi n hn) hfail
    | blobs hi => exact absurd (hi n hn) hfail
  · refine (indexAll_sameTables_iff hrev).2 ?_
    rw [List.zipIdx_map_fst]
    cases hclean with
    | refused h => exact absurd ⟨root, commit, hacc⟩ h
    | index m hm hfail' => exact absurd (hi m hm) hfail'
    | commit _ _ hnet => exact hnet
    | blobs _ ha => exact absurd ha hfail
  · cases hclean with
    | refused h => exact absurd ⟨root, commit, hacc⟩ h
    | index m hm hfail' => exact absurd (hi m hm) hfail'
    | commit _ hfail => exact absurd ha hfail
    | blobs _ _ hpass =>
      obtain ⟨t', ht'⟩ := (blobsPass_iff now).2 hpass
      rw [ht'] at hb
      cases hb

/-- **A call of `process_writes` that fails has changed none of the five tables if and only if the
batch is refused at once, or the failing index statement or commit finds the writes indexed so far
undone by themselves, or the blob pass does not fail.** -/
theorem processWrites_failsClean_iff (hU : U.FreshRev s) :
    AllOrNothing U F now s writes swapCommit ↔ FailsClean U F s writes swapCommit :=
  ⟨failsClean_of_allOrNothing hU, allOrNothing_of_failsClean hU⟩

end

theorem RepoLib.freshRev_inOrder : RepoLib.inOrder.FreshRev .fresh := by
  intro ops commit h
  simp only [inOrder] at h
  split at h
  · cases h
  · cases h
    refine ⟨fun root hroot => ?_, fun u row hrow => by cases hrow⟩
    cases hroot
    exact (by decide : "r" ≠ "r" ++ "+")

/-- A record comes and goes; the index statement of the next fails, and finds nothing to undo. -/
theorem processWrites_failsClean_undone :
    AllOrNothing .inOrder (fun | .indexWrite 2 => some "disk I/O error" | _ => none)
      ⟨"2026-01-02", fun _ => "2026-01-02"⟩ .fresh
      [.create ⟨feedPost "a", ⟨"x"⟩, none, [], []⟩, .delete ⟨feedPost "a", none⟩,
        .create ⟨feedPost "b", ⟨"y"⟩, none, [], []⟩] none := by
  refine (processWrites_failsClean_iff RepoLib.freshRev_inOrder).2 (.index 2 ?_ ?_ ?_ ?_)
  · decide
  · decide
  · decide
  · intro u w hw
    have hu : u = feedPost "a" := by
      obtain ⟨hmem, rfl⟩ := lastWrite_mem hw
      rcases List.mem_cons.1 hmem with rfl | hmem
      · rfl
      · rw [List.mem_singleton.1 hmem]
        rfl
    subst hu
    -- the last of the two is the delete
    obtain rfl := Option.some.inj hw
    exact ⟨rfl, rfl⟩

/-- A record lists a blob that was never uploaded: the call fails, and the record is committed. -/
theorem processWrites_keeps_commit_on_missing_blob :
    ¬ AllOrNothing .inOrder (fun _ => none) ⟨"2026-01-02", fun _ => "2026-01-02"⟩ .fresh
      [.create ⟨feedPost "a", ⟨"x"⟩, none, [], [⟨⟨"b"⟩, "image/png", none, none⟩]⟩] none := by
  intro h
  have hroot := (h _ _ rfl).repoRoot
  exact absurd (congrArg (Option.map RootRow.rev) hroot) (by decide)

end CacosPds.ActorStore
