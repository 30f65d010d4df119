import CacosPds.Lib.Table
/-!
# Foreign keys

A column of one table may name rows of another (`References`). With `ON DELETE CASCADE` the rows
that name a deleted row go with it (`cascade`); what they leave behind names rows that are still
there (`References.cascade`), and no row goes that names one of those (`lookup_cascade`).
-/
namespace Sql.Table

variable {κ ρ κ' ρ' : Type} [DecidableEq κ] [DecidableEq κ']

/-- Every row of `child` names a row of `parent` in the column `col`. -/
def References (col : κ → ρ → κ') (child : Table κ ρ) (parent : Table κ' ρ') : Prop :=
  ∀ k r, child.lookup k = some r → col k r ∈ parent

/-- `ON DELETE CASCADE`, where `parent` has become `parent'`. -/
def cascade (col : κ → ρ → κ') (child : Table κ ρ) (parent parent' : Table κ' ρ') : Table κ ρ :=
  child.deleteWhere fun k r => col k r ∈ parent ∧ col k r ∉ parent'

variable {col : κ → ρ → κ'} {child : Table κ ρ} {parent parent' : Table κ' ρ'}

theorem lookup_cascade (h : child.References col parent) {k : κ} {r : ρ} :
    (child.cascade col parent parent').lookup k = some r ↔
      child.lookup k = some r ∧ col k r ∈ parent' := by
  rw [cascade, lookup_deleteWhere_eq_some]
  refine and_congr_right fun hl => ?_
  rw [decide_eq_false_iff_not, not_and_not_right]
  exact ⟨fun himp => himp (h k r hl), fun hm _ => hm⟩

theorem References.cascade (h : child.References col parent) :
    (child.cascade col parent parent').References col parent' := by
  intro k r hl
  exact ((lookup_cascade h).1 hl).2

end Sql.Table
