import Mathlib.Data.Finmap
import Mathlib.Data.Multiset.Sort
import Mathlib.Data.String.Basic
/-!
# Keyed tables

A table with a primary key is a finite map from keys to rows; two tables are equal exactly when
they hold the same rows. The operations are the statements a storage layer issues: `INSERT … ON
CONFLICT DO NOTHING` (`insertIgnore`), `INSERT … ON CONFLICT DO UPDATE` (`upsert`), `DELETE … WHERE
key IN (…)` (`deleteIn`), `DELETE … WHERE` (`deleteWhere`), `UPDATE` of every row (`updateRows`) or of some (`updateWhere`), a
`SELECT` without `ORDER BY` (`select`, a multiset) and one with it (`selectBy`, a list), `EXISTS`
(`anyRow`) and the row of a `LEFT JOIN` (`lookupLeftJoin`). Each comes with its `lookup` lemma, so that callers reason by key.
-/
namespace Sql

/-- A table with primary key `κ` and rows `ρ`. -/
abbrev Table (κ ρ : Type) := Finmap fun _ : κ => ρ

namespace Table

variable {κ ρ β : Type} [DecidableEq κ]

/-- `INSERT … ON CONFLICT DO NOTHING`. -/
def insertIgnore (k : κ) (r : ρ) (t : Table κ ρ) : Table κ ρ :=
  if k ∈ t then t else t.insert k r

/-- `INSERT … ON CONFLICT (key) DO UPDATE`: `fresh` if the key is new, else `merge` of the old row. -/
def upsert (k : κ) (fresh : ρ) (merge : ρ → ρ) (t : Table κ ρ) : Table κ ρ :=
  match t.lookup k with
  | none => t.insert k fresh
  | some old => t.insert k (merge old)

/-- `DELETE … WHERE key IN (ks)`. -/
def deleteIn (ks : List κ) (t : Table κ ρ) : Table κ ρ :=
  ks.foldl (fun t k => t.erase k) t

/-- The same in statements of at most `n` keys. -/
def deleteInBatches (n : Nat) (ks : List κ) (t : Table κ ρ) : Table κ ρ :=
  (ks.toChunks n).foldl (fun t batch => t.deleteIn batch) t

/-- `DELETE … WHERE key IN (ks)`, the keys as a set. -/
def deleteSet (ks : Finset κ) (t : Table κ ρ) : Table κ ρ :=
  ⟨t.entries.filter fun e => e.1 ∉ ks, by
    exact Multiset.nodup_keys.1 <| Multiset.nodup_of_le
      (Multiset.map_le_map (Multiset.filter_le _ _)) (Multiset.nodup_keys.2 t.nodupKeys)⟩

/-- `DELETE … WHERE p`. -/
def deleteWhere (p : κ → ρ → Bool) (t : Table κ ρ) : Table κ ρ :=
  ⟨t.entries.filter fun e => ¬ p e.1 e.2, by
    exact Multiset.nodup_keys.1 <| Multiset.nodup_of_le
      (Multiset.map_le_map (Multiset.filter_le _ _)) (Multiset.nodup_keys.2 t.nodupKeys)⟩

/-- `UPDATE … SET …` of every row. -/
def updateRows (f : ρ → ρ) (t : Table κ ρ) : Table κ ρ :=
  ⟨t.entries.map fun e => ⟨e.1, f e.2⟩, by
    have h : Multiset.keys (t.entries.map fun e => (⟨e.1, f e.2⟩ : Sigma fun _ : κ => ρ)) =
        t.entries.keys := by
      simp [Multiset.keys, Multiset.map_map]
    rw [← Multiset.nodup_keys, h]
    exact Multiset.nodup_keys.2 t.nodupKeys⟩

/-- `UPDATE … SET … WHERE p`. -/
def updateWhere (p : κ → ρ → Bool) (f : ρ → ρ) (t : Table κ ρ) : Table κ ρ :=
  ⟨t.entries.map fun e => ⟨e.1, if p e.1 e.2 then f e.2 else e.2⟩, by
    have h : Multiset.keys (t.entries.map fun e =>
        (⟨e.1, if p e.1 e.2 then f e.2 else e.2⟩ : Sigma fun _ : κ => ρ)) = t.entries.keys := by
      simp [Multiset.keys, Multiset.map_map]
    rw [← Multiset.nodup_keys, h]
    exact Multiset.nodup_keys.2 t.nodupKeys⟩

/-- `SELECT f FROM … WHERE p`: the rows come in no particular order. -/
def select (p : κ → ρ → Bool) (f : κ → ρ → β) (t : Table κ ρ) : Multiset β :=
  (t.entries.filter fun e => p e.1 e.2).map fun e => f e.1 e.2

theorem lookup_insert_eq (t : Table κ ρ) (k j : κ) (r : ρ) :
    (t.insert k r).lookup j = if j = k then some r else t.lookup j := by
  by_cases h : j = k
  · subst h; simp
  · simp [h, Finmap.lookup_insert_of_ne]

theorem lookup_erase_eq (t : Table κ ρ) (k j : κ) :
    (t.erase k).lookup j = if j = k then none else t.lookup j := by
  by_cases h : j = k
  · subst h; simp
  · simp [h, Finmap.lookup_erase_ne]

/-- What is found after an insert: the new row, or another one that was there. -/
theorem lookup_insert_eq_some {t : Table κ ρ} {k j : κ} {r r' : ρ} :
    (t.insert k r).lookup j = some r' ↔ j = k ∧ r = r' ∨ j ≠ k ∧ t.lookup j = some r' := by
  rw [lookup_insert_eq]
  by_cases h : j = k
  · simp [h]
  · simp [h]

theorem lookup_erase_eq_some {t : Table κ ρ} {k j : κ} {r : ρ} :
    (t.erase k).lookup j = some r ↔ j ≠ k ∧ t.lookup j = some r := by
  rw [lookup_erase_eq]
  by_cases h : j = k
  · simp [h]
  · simp [h]

theorem lookup_insertIgnore (t : Table κ ρ) (k j : κ) (r : ρ) :
    (t.insertIgnore k r).lookup j =
      if j = k then some ((t.lookup k).getD r) else t.lookup j := by
  unfold insertIgnore
  split
  · rename_i hk
    obtain ⟨b, hb⟩ := Finmap.mem_iff.1 hk
    by_cases h : j = k
    · subst h; simp [hb]
    · simp [h]
  · rename_i hk
    rw [lookup_insert_eq, Finmap.lookup_eq_none.2 hk]
    rfl

theorem mem_insertIgnore (t : Table κ ρ) (k j : κ) (r : ρ) :
    j ∈ t.insertIgnore k r ↔ j = k ∨ j ∈ t := by
  rw [← Finmap.lookup_isSome, lookup_insertIgnore, ← Finmap.lookup_isSome]
  by_cases h : j = k <;> simp [h]

theorem lookup_upsert (t : Table κ ρ) (k j : κ) (fresh : ρ) (merge : ρ → ρ) :
    (t.upsert k fresh merge).lookup j =
      if j = k then some ((t.lookup k).elim fresh merge) else t.lookup j := by
  unfold upsert
  split <;> rename_i hk <;> rw [lookup_insert_eq, hk] <;> rfl

theorem lookup_deleteIn (t : Table κ ρ) (ks : List κ) (j : κ) :
    (t.deleteIn ks).lookup j = if j ∈ ks then none else t.lookup j := by
  unfold deleteIn
  induction ks generalizing t with
  | nil => simp
  | cons k ks ih =>
    rw [List.foldl_cons, ih, lookup_erase_eq]
    by_cases hj : j ∈ ks
    · simp [hj]
    · by_cases hk : j = k <;> simp [hj, hk]

theorem mem_deleteIn (t : Table κ ρ) (ks : List κ) (j : κ) :
    j ∈ t.deleteIn ks ↔ j ∉ ks ∧ j ∈ t := by
  rw [← Finmap.lookup_isSome, lookup_deleteIn, ← Finmap.lookup_isSome]
  by_cases h : j ∈ ks <;> simp [h]

omit [DecidableEq κ] in
theorem flatten_toChunks (n : Nat) (ks : List κ) : (ks.toChunks n).flatten = ks := by
  have hgo : ∀ (ls : List κ) (acc₁ : Array κ) (acc₂ : Array (List κ)),
      (List.toChunks.go n ls acc₁ acc₂).flatten = acc₂.toList.flatten ++ acc₁.toList ++ ls := by
    intro ls
    induction ls with
    | nil => intro acc₁ acc₂; simp [List.toChunks.go]
    | cons l ls ih =>
      intro acc₁ acc₂
      rw [List.toChunks.go]
      split <;> rw [ih] <;> simp
  unfold List.toChunks
  split
  · rfl
  · simp
  · rw [hgo]
    simp

/-- How the keys are split over the statements makes no difference. -/
theorem deleteInBatches_eq (n : Nat) (ks : List κ) (t : Table κ ρ) :
    t.deleteInBatches n ks = t.deleteIn ks := by
  have hfold : ∀ (batches : List (List κ)) (t : Table κ ρ),
      batches.foldl (fun t batch => t.deleteIn batch) t = t.deleteIn batches.flatten := by
    intro batches
    induction batches with
    | nil => intro t; rfl
    | cons batch batches ih =>
      intro t
      rw [List.foldl_cons, ih, List.flatten_cons, deleteIn, deleteIn, deleteIn, List.foldl_append]
  rw [deleteInBatches, hfold, flatten_toChunks]

theorem lookup_deleteSet (t : Table κ ρ) (ks : Finset κ) (j : κ) :
    (t.deleteSet ks).lookup j = if j ∈ ks then none else t.lookup j := by
  ext r
  rw [← Option.mem_def, Finmap.mem_lookup_iff]
  simp only [deleteSet, Multiset.mem_filter]
  rw [← Finmap.mem_lookup_iff, Option.mem_def]
  by_cases h : j ∈ ks <;> simp [h]

theorem lookup_deleteWhere_eq_some {p : κ → ρ → Bool} {t : Table κ ρ} {j : κ} {r : ρ} :
    (t.deleteWhere p).lookup j = some r ↔ t.lookup j = some r ∧ p j r = false := by
  rw [← Option.mem_def, Finmap.mem_lookup_iff]
  simp only [deleteWhere, Multiset.mem_filter]
  rw [← Finmap.mem_lookup_iff, Option.mem_def, Bool.not_eq_true]

theorem lookup_deleteWhere_eq_none {p : κ → ρ → Bool} {t : Table κ ρ} {j : κ} :
    (t.deleteWhere p).lookup j = none ↔ ∀ r, t.lookup j = some r → p j r = true := by
  rw [Option.eq_none_iff_forall_ne_some]
  simp only [ne_eq, lookup_deleteWhere_eq_some, not_and, Bool.not_eq_false]

theorem deleteWhere_eq_self {p : κ → ρ → Bool} {t : Table κ ρ}
    (h : ∀ k r, t.lookup k = some r → p k r = false) : t.deleteWhere p = t :=
  Finmap.ext_lookup fun j => Option.ext fun r => by
    rw [lookup_deleteWhere_eq_some]
    exact ⟨And.left, fun hl => ⟨hl, h j r hl⟩⟩

theorem mem_entries_updateRows (f : ρ → ρ) (t : Table κ ρ) (k : κ) (r : ρ) :
    r ∈ (t.updateRows f).lookup k ↔ ∃ r₀ ∈ t.lookup k, f r₀ = r := by
  rw [Finmap.mem_lookup_iff]
  simp only [updateRows, Multiset.mem_map, Sigma.mk.injEq, heq_eq_eq]
  constructor
  · rintro ⟨⟨j, r₀⟩, hm, rfl, hr⟩
    exact ⟨r₀, Finmap.mem_lookup_iff.2 hm, hr⟩
  · rintro ⟨r₀, hm, hr⟩
    exact ⟨⟨k, r₀⟩, Finmap.mem_lookup_iff.1 hm, rfl, hr⟩

theorem lookup_updateRows (f : ρ → ρ) (t : Table κ ρ) (k : κ) :
    (t.updateRows f).lookup k = (t.lookup k).map f := by
  ext r
  rw [← Option.mem_def, mem_entries_updateRows]
  simp

theorem lookup_updateWhere (p : κ → ρ → Bool) (f : ρ → ρ) (t : Table κ ρ) (k : κ) :
    (t.updateWhere p f).lookup k = (t.lookup k).map fun r => if p k r then f r else r := by
  ext r
  rw [← Option.mem_def, Finmap.mem_lookup_iff]
  simp only [updateWhere, Multiset.mem_map, Sigma.mk.injEq, heq_eq_eq, Option.map_eq_some_iff]
  constructor
  · rintro ⟨⟨j, r₀⟩, hm, rfl, hr⟩
    exact ⟨r₀, Finmap.mem_lookup_iff.2 hm, hr⟩
  · rintro ⟨r₀, hm, hr⟩
    exact ⟨⟨k, r₀⟩, Finmap.mem_lookup_iff.1 hm, rfl, hr⟩

theorem mem_select {p : κ → ρ → Bool} {f : κ → ρ → β} {t : Table κ ρ} {b : β} :
    b ∈ t.select p f ↔ ∃ k r, t.lookup k = some r ∧ p k r = true ∧ f k r = b := by
  simp only [select, Multiset.mem_map, Multiset.mem_filter]
  constructor
  · rintro ⟨⟨k, r⟩, ⟨hm, hp⟩, hb⟩
    exact ⟨k, r, Finmap.lookup_eq_some_iff.2 hm, hp, hb⟩
  · rintro ⟨k, r, hm, hp, hb⟩
    exact ⟨⟨k, r⟩, ⟨Finmap.lookup_eq_some_iff.1 hm, hp⟩, hb⟩

/-- `EXISTS (SELECT … WHERE p)`. -/
def anyRow (p : κ → ρ → Bool) (t : Table κ ρ) : Bool :=
  decide (() ∈ t.select p fun _ _ => ())

theorem anyRow_iff {p : κ → ρ → Bool} {t : Table κ ρ} :
    t.anyRow p = true ↔ ∃ k r, t.lookup k = some r ∧ p k r = true := by
  rw [anyRow, decide_eq_true_iff, mem_select]
  simp only [and_true]

theorem anyRow_eq_false {p : κ → ρ → Bool} {t : Table κ ρ} :
    t.anyRow p = false ↔ ∀ k r, t.lookup k = some r → p k r = false := by
  rw [← Bool.not_eq_true, anyRow_iff]
  push Not
  simp only [ne_eq, Bool.not_eq_true]

/-- The row under `k` in `t LEFT JOIN u ON on = u.key AND cond`, with what it is joined to. -/
def lookupLeftJoin {κ' ρ' : Type} [DecidableEq κ'] (on : ρ → κ') (cond : ρ' → Bool)
    (t : Table κ ρ) (u : Table κ' ρ') (k : κ) : Option (ρ × Option ρ') :=
  (t.lookup k).map fun r => (r, (u.lookup (on r)).filter cond)

/-- A left join filters nothing out, whatever stands in its `ON` clause. -/
theorem map_fst_lookupLeftJoin {κ' ρ' : Type} [DecidableEq κ'] (on : ρ → κ') (cond : ρ' → Bool)
    (t : Table κ ρ) (u : Table κ' ρ') (k : κ) :
    (lookupLeftJoin on cond t u k).map Prod.fst = t.lookup k := by
  rw [lookupLeftJoin, Option.map_map]
  exact congrFun Option.map_id _

theorem insert_erase (t : Table κ ρ) (k : κ) (r : ρ) : (t.erase k).insert k r = t.insert k r :=
  Finmap.ext_lookup fun j => by
    rw [lookup_insert_eq, lookup_insert_eq, lookup_erase_eq]
    split <;> rfl

theorem erase_insert_self (t : Table κ ρ) (k : κ) (r : ρ) : (t.insert k r).erase k = t.erase k :=
  Finmap.ext_lookup fun j => by
    rw [lookup_erase_eq, lookup_erase_eq, lookup_insert_eq]
    split <;> rfl

theorem erase_insert_of_ne (t : Table κ ρ) {j k : κ} (h : j ≠ k) (r : ρ) :
    (t.insert k r).erase j = (t.erase j).insert k r :=
  Finmap.ext_lookup fun i => by
    rw [lookup_erase_eq, lookup_insert_eq, lookup_insert_eq, lookup_erase_eq]
    by_cases hi : i = j
    · subst hi; simp [h]
    · simp [hi]

/-- The part of a `select` that one row gives. -/
def selectRow (p : κ → ρ → Bool) (f : κ → ρ → β) (k : κ) (r : ρ) : Multiset β :=
  if p k r then {f k r} else 0

theorem select_insert_new {p : κ → ρ → Bool} {f : κ → ρ → β} {t : Table κ ρ} {k : κ} (h : k ∉ t)
    (r : ρ) : select p f (t.insert k r) = selectRow p f k r + t.select p f := by
  unfold select selectRow
  rw [Finmap.entries_insert_of_notMem h, Multiset.filter_cons]
  split <;> simp

/-- A `select` over an inserted or replaced row: the new row, and the rows of the other keys. -/
theorem select_insert (p : κ → ρ → Bool) (f : κ → ρ → β) (t : Table κ ρ) (k : κ) (r : ρ) :
    select p f (t.insert k r) = selectRow p f k r + select p f (t.erase k) := by
  rw [← insert_erase, select_insert_new Finmap.notMem_erase_self]

/-- A `select` row by row. -/
theorem select_of_lookup (p : κ → ρ → Bool) (f : κ → ρ → β) {t : Table κ ρ} {k : κ} {r : ρ}
    (h : t.lookup k = some r) : t.select p f = selectRow p f k r + select p f (t.erase k) := by
  have ht : t.insert k r = t := Finmap.ext_lookup fun j => by
    rw [lookup_insert_eq]
    split
    · subst_vars; exact h.symm
    · rfl
  rw [← select_insert, ht]

theorem erase_of_lookup_none {t : Table κ ρ} {k : κ} (h : t.lookup k = none) : t.erase k = t :=
  Finmap.ext_lookup fun j => by
    rw [lookup_erase_eq]
    split
    · subst_vars; exact h.symm
    · rfl

/-! Text is sorted in its own order. -/

instance : IsTrans String fun a b => a ≤ b := inferInstance
instance : Std.Antisymm fun a b : String => a ≤ b := inferInstance

/-- `SELECT … WHERE p ORDER BY f`: the sort key of a row determines the row's key, by `g`. -/
def selectBy {δ : Type} [LinearOrder δ] (p : κ → ρ → Bool) (f : κ → ρ → δ) (g : δ → κ)
    (t : Table κ ρ) : List (κ × ρ) :=
  ((t.select p f).sort (· ≤ ·)).filterMap fun d => (t.lookup (g d)).map (g d, ·)

section

variable {δ : Type} [LinearOrder δ] {p : κ → ρ → Bool} {f : κ → ρ → δ} {g : δ → κ}

theorem selectBy_coe (hg : ∀ k r, g (f k r) = k) (t : Table κ ρ) :
    (t.selectBy p f g : Multiset (κ × ρ)) = t.select p Prod.mk := by
  have hrow : ∀ e ∈ t.entries.filter fun e => p e.1 e.2,
      (t.lookup (g (f e.1 e.2))).map (g (f e.1 e.2), ·) = some (e.1, e.2) := by
    intro e he
    rw [hg, Finmap.lookup_eq_some_iff.2 (Multiset.mem_of_mem_filter he)]
    rfl
  rw [selectBy, ← Multiset.filterMap_coe, Multiset.sort_eq, select, select, Multiset.filterMap_map]
  generalize (t.entries.filter fun e => p e.1 e.2) = es at hrow ⊢
  induction es using Quotient.inductionOn with
  | h es => exact congrArg _ (List.filterMap_eq_map_iff_forall_eq_some.2 hrow)

theorem mem_selectBy (hg : ∀ k r, g (f k r) = k) {t : Table κ ρ} {k : κ} {r : ρ} :
    (k, r) ∈ t.selectBy p f g ↔ t.lookup k = some r ∧ p k r = true := by
  rw [← Multiset.mem_coe, selectBy_coe hg, mem_select]
  constructor
  · rintro ⟨k', r', hl, hp, he⟩
    cases he
    exact ⟨hl, hp⟩
  · exact fun ⟨hl, hp⟩ => ⟨k, r, hl, hp, rfl⟩

/-- No key comes twice. -/
theorem nodup_keys_selectBy (hg : ∀ k r, g (f k r) = k) (t : Table κ ρ) :
    ((t.selectBy p f g).map Prod.fst).Nodup := by
  rw [← Multiset.coe_nodup, ← Multiset.map_coe, selectBy_coe hg, select, Multiset.map_map]
  exact Multiset.nodup_of_le (Multiset.map_le_map (Multiset.filter_le _ _))
    (Multiset.nodup_keys.2 t.nodupKeys)

/-- The rows stand in the order of their sort keys. -/
theorem map_selectBy (hg : ∀ k r, g (f k r) = k) (t : Table κ ρ) :
    (t.selectBy p f g).map (fun e => f e.1 e.2) = (t.select p f).sort (· ≤ ·) := by
  rw [selectBy, List.map_filterMap]
  refine (List.filterMap_congr ?_).trans List.filterMap_some
  intro d hd
  obtain ⟨k, r, hl, -, rfl⟩ := mem_select.1 ((Multiset.mem_sort _).1 hd)
  have hrow : t.lookup (g (f k r)) = some r := by rw [hg, hl]
  rw [hrow, hg]
  rfl

theorem pairwise_selectBy (hg : ∀ k r, g (f k r) = k) (t : Table κ ρ) :
    (t.selectBy p f g).Pairwise fun a b => f a.1 a.2 < f b.1 b.2 := by
  have hle : ((t.selectBy p f g).map fun e => f e.1 e.2).Pairwise (· ≤ ·) := by
    rw [map_selectBy hg]
    exact Multiset.pairwise_sort _ _
  have hne : (t.selectBy p f g).Pairwise fun a b => a.1 ≠ b.1 :=
    List.pairwise_map.1 (nodup_keys_selectBy hg t)
  refine ((List.pairwise_map.1 hle).and hne).imp ?_
  rintro ⟨k, r⟩ ⟨k', r'⟩ ⟨hle, hne⟩
  refine lt_of_le_of_ne hle fun he => hne ?_
  calc k = g (f k r) := (hg k r).symm
    _ = g (f k' r') := congrArg g he
    _ = k' := hg k' r'

/-- A `WHERE` clause leaves rows out and keeps the order. -/
theorem selectBy_eq_filter (hg : ∀ k r, g (f k r) = k) (t : Table κ ρ) :
    t.selectBy p f g = (t.selectBy (fun _ _ => true) f g).filter fun e => p e.1 e.2 := by
  have hmem : ∀ e : κ × ρ, e ∈ t.selectBy p f g ↔
      e ∈ (t.selectBy (fun _ _ => true) f g).filter fun e => p e.1 e.2 := by
    rintro ⟨k, r⟩
    rw [List.mem_filter, mem_selectBy hg, mem_selectBy hg]
    simp only [and_true]
  have hperm := (List.perm_ext_iff_of_nodup (List.Nodup.of_map _ (nodup_keys_selectBy hg t))
    ((List.Nodup.of_map _ (nodup_keys_selectBy hg t)).filter _)).2 hmem
  have hanti : ∀ a b, a ∈ t.selectBy p f g →
      b ∈ (t.selectBy (fun _ _ => true) f g).filter (fun e => p e.1 e.2) →
      f a.1 a.2 < f b.1 b.2 → f b.1 b.2 < f a.1 a.2 → a = b := by
    intro a b _ _ hab hba
    exact absurd hba (lt_asymm hab)
  exact List.Perm.eq_of_pairwise hanti (pairwise_selectBy hg t) ((pairwise_selectBy hg t).filter _)
    hperm

theorem length_selectBy_true (hg : ∀ k r, g (f k r) = k) (t : Table κ ρ) :
    (t.selectBy (fun _ _ => true) f g).length = t.keys.card := by
  rw [← Multiset.coe_card, selectBy_coe hg, select, Multiset.card_map,
    Multiset.filter_eq_self.2 fun _ _ => rfl]
  exact (Multiset.card_map _ _).symm

end

/-- Insert a list of rows with `ON CONFLICT DO NOTHING`, one statement after another. -/
def insertAllIgnore (rows : List (κ × ρ)) (t : Table κ ρ) : Table κ ρ :=
  rows.foldl (fun t kr => t.insertIgnore kr.1 kr.2) t

theorem mem_insertAllIgnore (rows : List (κ × ρ)) (t : Table κ ρ) (j : κ) :
    j ∈ t.insertAllIgnore rows ↔ j ∈ rows.map Prod.fst ∨ j ∈ t := by
  unfold insertAllIgnore
  induction rows generalizing t with
  | nil => simp
  | cons kr rows ih =>
    rw [List.foldl_cons, ih, mem_insertIgnore, List.map_cons, List.mem_cons]
    tauto

end Table

end Sql
