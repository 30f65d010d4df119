import CacosPds.Lib.Table
/-!
# Unique indexes

A table may have unique indexes beside its primary key, on columns that may be null: no two rows hold
one value there (`Indexed`). `one` is `SELECT … WHERE … LIMIT 1`; by an indexed column it is the row
that holds the value (`one_eq_some_iff`). A statement keeps the index if the value it writes is not
`taken` by another row.
-/
namespace Sql.Table

variable {κ ρ γ : Type} [DecidableEq κ] [DecidableEq γ]

/-- `SELECT … WHERE p`, in the order of the primary key. -/
def rows [LinearOrder κ] (p : κ → ρ → Bool) (t : Table κ ρ) : List (κ × ρ) :=
  t.selectBy p (fun k _ => k) id

/-- `SELECT … WHERE p LIMIT 1`. -/
def one [LinearOrder κ] (p : κ → ρ → Bool) (t : Table κ ρ) : Option (κ × ρ) := (t.rows p).head?

/-- No two rows have one value in the column. -/
def Indexed (col : ρ → Option γ) (t : Table κ ρ) : Prop :=
  ∀ k k' r r' v, t.lookup k = some r → t.lookup k' = some r' → col r = some v →
    col r' = some v → k = k'

/-- A row other than that of `k` has the value. -/
def taken (col : ρ → Option γ) (k : κ) (v : Option γ) (t : Table κ ρ) : Bool :=
  t.anyRow fun j r => j ≠ k ∧ v.isSome ∧ col r = v

variable {col : ρ → Option γ} {t : Table κ ρ} {k : κ} {r : ρ} {v : γ}

theorem taken_eq_false {o : Option γ} :
    t.taken col k o = false ↔
      ∀ j r v, t.lookup j = some r → o = some v → col r = some v → j = k := by
  rw [taken, anyRow_eq_false]
  constructor
  · intro h j r v hl ho hv
    by_contra hne
    exact of_decide_eq_false (h j r hl) ⟨hne, by rw [ho]; rfl, by rw [ho, hv]⟩
  · rintro h j r hl
    refine decide_eq_false ?_
    rintro ⟨hne, hsome, hv⟩
    obtain ⟨v, rfl⟩ := Option.isSome_iff_exists.1 hsome
    exact hne (h j r v hl rfl hv)

omit [DecidableEq γ] in
theorem mem_rows [LinearOrder κ] {p : κ → ρ → Bool} :
    (k, r) ∈ t.rows p ↔ t.lookup k = some r ∧ p k r = true :=
  mem_selectBy fun _ _ => rfl

omit [DecidableEq γ] in
theorem mem_of_one [LinearOrder κ] {p : κ → ρ → Bool} (h : t.one p = some (k, r)) :
    t.lookup k = some r ∧ p k r = true :=
  mem_rows.1 (List.mem_of_mem_head? h)

omit [DecidableEq γ] in
theorem rows_eq_nil [LinearOrder κ] {p : κ → ρ → Bool} :
    t.rows p = [] ↔ ∀ k r, t.lookup k = some r → p k r = false := by
  rw [List.eq_nil_iff_forall_not_mem]
  constructor
  · exact fun h k r hl => eq_false_of_ne_true fun hp => h (k, r) (mem_rows.2 ⟨hl, hp⟩)
  · rintro h ⟨k, r⟩ hm
    obtain ⟨hl, hp⟩ := mem_rows.1 hm
    rw [h k r hl] at hp
    cases hp

omit [DecidableEq γ] in
theorem one_eq_none [LinearOrder κ] {p : κ → ρ → Bool} :
    t.one p = none ↔ ∀ k r, t.lookup k = some r → p k r = false :=
  List.head?_eq_none_iff.trans rows_eq_nil

omit [DecidableEq γ] in
/-- The only row that a condition admits is the one that is found. -/
theorem one_eq_some_of_unique [LinearOrder κ] {p : κ → ρ → Bool} (hl : t.lookup k = some r)
    (hp : p k r = true) (huniq : ∀ j r', t.lookup j = some r' → p j r' = true → j = k) :
    t.one p = some (k, r) := by
  cases hone : t.one p with
  | none =>
    have hmiss := one_eq_none.1 hone k r hl
    rw [hp] at hmiss
    cases hmiss
  | some kr =>
    obtain ⟨hl', hpr⟩ := mem_of_one hone
    obtain rfl := huniq _ _ hl' hpr
    obtain rfl := Option.some.inj (hl.symm.trans hl')
    rfl

omit [DecidableEq γ] in
/-- By an indexed column, `one` finds the row that has the value. -/
theorem one_eq_some_iff [LinearOrder κ] {p : κ → ρ → Bool} (h : t.Indexed col)
    (hp : ∀ k r, p k r = true ↔ col r = some v) :
    t.one p = some (k, r) ↔ t.lookup k = some r ∧ col r = some v := by
  constructor
  · intro hone
    obtain ⟨hl, hpr⟩ := mem_of_one hone
    exact ⟨hl, (hp k r).1 hpr⟩
  · rintro ⟨hl, hv⟩
    refine one_eq_some_of_unique hl ((hp k r).2 hv) fun j r' hl' hpr => ?_
    exact h _ _ _ _ v hl' hl ((hp j r').1 hpr) hv

omit [DecidableEq γ] in
theorem indexed_empty : Indexed col (∅ : Table κ ρ) := by
  intro _ _ _ _ _ h
  cases h

theorem Indexed.insert (h : t.Indexed col) (hfree : t.taken col k (col r) = false) :
    Indexed col (Finmap.insert k r t) := by
  have hother : ∀ j r' v, t.lookup j = some r' → col r = some v → col r' = some v → j = k :=
    fun j r' v hl hv hv' => taken_eq_false.1 hfree j r' v hl hv hv'
  intro i j r₁ r₂ v h₁ h₂ hv₁ hv₂
  rw [lookup_insert_eq] at h₁ h₂
  split at h₁ <;> split at h₂
  · subst_vars
    rfl
  · cases h₁
    subst_vars
    exact (hother j r₂ v h₂ hv₁ hv₂).symm
  · cases h₂
    subst_vars
    exact hother i r₁ v h₁ hv₂ hv₁
  · exact h i j r₁ r₂ v h₁ h₂ hv₁ hv₂

omit [DecidableEq γ] in
theorem Indexed.deleteWhere (h : t.Indexed col) (p : κ → ρ → Bool) :
    Indexed col (t.deleteWhere p) := by
  intro i j r₁ r₂ v h₁ h₂ hv₁ hv₂
  exact h i j r₁ r₂ v (lookup_deleteWhere_eq_some.1 h₁).1 (lookup_deleteWhere_eq_some.1 h₂).1 hv₁ hv₂

omit [DecidableEq γ] in
theorem one_congr [LinearOrder κ] {p : κ → ρ → Bool} {t' : Table κ ρ} (h : t.Indexed col)
    (h' : t'.Indexed col) (hp : ∀ k r, p k r = true ↔ col r = some v)
    (hsame : ∀ k r, col r = some v → (t.lookup k = some r ↔ t'.lookup k = some r)) :
    t.one p = t'.one p := by
  refine Option.ext fun kr => ?_
  obtain ⟨k, r⟩ := kr
  rw [one_eq_some_iff h hp, one_eq_some_iff h' hp]
  exact and_congr_left (hsame k r)

/-- By an indexed column, a new row is found by its own value and hides no other one. -/
theorem one_insert [LinearOrder κ] {p : κ → ρ → Bool} (h : t.Indexed col)
    (hp : ∀ k r, p k r = true ↔ col r = some v) (hnew : t.lookup k = none)
    (hfree : t.taken col k (col r) = false) :
    one p (Finmap.insert k r t) = if col r = some v then some (k, r) else t.one p := by
  have hindexed := h.insert hfree
  split
  · exact (one_eq_some_iff hindexed hp).2 ⟨Finmap.lookup_insert t, ‹_›⟩
  · refine one_congr hindexed h hp fun j r' hv => ?_
    rw [lookup_insert_eq]
    split
    · subst_vars
      rw [hnew]
      refine ⟨fun heq => ?_, fun heq => ?_⟩
      · cases heq
        exact absurd hv ‹_›
      · cases heq
    · exact Iff.rfl

/-- `UPDATE … WHERE key = k`. -/
def update (k : κ) (f : ρ → ρ) (t : Table κ ρ) : Table κ ρ := t.updateWhere (fun j _ => j = k) f

theorem lookup_update (k j : κ) (f : ρ → ρ) (t : Table κ ρ) :
    (t.update k f).lookup j = if j = k then (t.lookup j).map f else t.lookup j := by
  rw [update, lookup_updateWhere]
  by_cases hj : j = k
  · simp only [hj, decide_true, if_true]
  · simp only [hj, decide_false, if_false, Bool.false_eq_true, Option.map_id']

omit [DecidableEq γ] in
theorem lookup_update_eq_some {j : κ} {f : ρ → ρ} {r' : ρ} :
    (t.update k f).lookup j = some r' ↔
      ∃ r, t.lookup j = some r ∧ (if j = k then f r else r) = r' := by
  rw [lookup_update]
  split
  · exact Option.map_eq_some_iff
  · simp only [exists_eq_right]

omit [DecidableEq γ] in
/-- An update that leaves the column alone changes what is found where it stands. -/
theorem one_update [LinearOrder κ] {p : κ → ρ → Bool} (h : t.Indexed col)
    (hp : ∀ k r, p k r = true ↔ col r = some v) {f : ρ → ρ} (hcol : ∀ r, col (f r) = col r) :
    (t.update k f).one p = (t.one p).map fun jr => (jr.1, if jr.1 = k then f jr.2 else jr.2) := by
  have hsame : ∀ (j : κ) (r : ρ), col (if j = k then f r else r) = col r := by
    intro j r
    split
    · exact hcol r
    · rfl
  have hindexed : (t.update k f).Indexed col := by
    intro i j r₁ r₂ w h₁ h₂ hv₁ hv₂
    obtain ⟨r₁, hl₁, rfl⟩ := lookup_update_eq_some.1 h₁
    obtain ⟨r₂, hl₂, rfl⟩ := lookup_update_eq_some.1 h₂
    rw [hsame] at hv₁ hv₂
    exact h i j r₁ r₂ w hl₁ hl₂ hv₁ hv₂
  refine Option.ext fun jr => ?_
  obtain ⟨j, r'⟩ := jr
  rw [one_eq_some_iff hindexed hp, lookup_update_eq_some, Option.map_eq_some_iff]
  constructor
  · rintro ⟨⟨r, hl, rfl⟩, hv⟩
    rw [hsame] at hv
    exact ⟨(j, r), (one_eq_some_iff h hp).2 ⟨hl, hv⟩, rfl⟩
  · rintro ⟨⟨i, r⟩, hone, heq⟩
    cases heq
    obtain ⟨hl, hv⟩ := (one_eq_some_iff h hp).1 hone
    exact ⟨⟨r, hl, rfl⟩, (hsame i r).trans hv⟩

omit [DecidableEq γ] in
/-- An update of a row that is not there. -/
theorem update_of_notMem {f : ρ → ρ} (h : k ∉ t) : t.update k f = t := by
  refine Finmap.ext_lookup fun j => ?_
  rw [lookup_update]
  split
  · subst_vars
    rw [Finmap.lookup_eq_none.2 h]
    rfl
  · rfl

theorem mem_update {k j : κ} {f : ρ → ρ} {t : Table κ ρ} : j ∈ t.update k f ↔ j ∈ t := by
  simp only [Finmap.mem_iff]
  rw [lookup_update]
  by_cases hj : j = k <;> simp [hj]

theorem Indexed.update (h : t.Indexed col) {f : ρ → ρ}
    (hfree : ∀ r, t.lookup k = some r → t.taken col k (col (f r)) = false) :
    Indexed col (t.update k f) := by
  have hother : ∀ j r r' v, t.lookup k = some r → t.lookup j = some r' → col (f r) = some v →
      col r' = some v → j = k :=
    fun j r r' v hk hl hv hv' => taken_eq_false.1 (hfree r hk) j r' v hl hv hv'
  intro i j r₁ r₂ v h₁ h₂ hv₁ hv₂
  rw [lookup_update] at h₁ h₂
  split at h₁ <;> split at h₂
  · subst_vars
    rfl
  · obtain ⟨r, hr, rfl⟩ := Option.map_eq_some_iff.1 h₁
    subst_vars
    exact (hother j r r₂ v hr h₂ hv₁ hv₂).symm
  · obtain ⟨r, hr, rfl⟩ := Option.map_eq_some_iff.1 h₂
    subst_vars
    exact hother i r r₁ v hr h₁ hv₂ hv₁
  · exact h i j r₁ r₂ v h₁ h₂ hv₁ hv₂

end Sql.Table
