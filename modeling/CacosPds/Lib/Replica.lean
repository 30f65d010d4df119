import Mathlib.Data.List.Basic
import Mathlib.Order.Lattice
/-!
# Copies kept up by changes

An original goes from version to version, and each time tells its copies what it has changed
(`Delta`). A copy may be taken at any moment; the changes that are in it already come again, so a
copy passes over what is not above its own version, takes what follows on it, and is lost at a gap
(`Copy.take`). `takeAll_of_le` is about a copy that is ahead of a list of deltas, `takeAll_concat`
adds one delta to a list, and `version_le_of_takeAll` says that a copy never goes back.
-/
namespace Replica

variable {V T C : Type*} [LinearOrder V]

structure Delta (V C : Type*) where
  version : V
  /-- The version before. -/
  since : Option V
  changes : List C
  deriving DecidableEq

@[ext] structure Copy (V T : Type*) where
  version : V
  data : T

/-- Take a delta, by the way one change is applied. -/
def Copy.take (apply : T → C → T) (c : Copy V T) (d : Delta V C) : Option (Copy V T) :=
  if d.version ≤ c.version then some c
  else if d.since = some c.version then some ⟨d.version, d.changes.foldl apply c.data⟩
  else none

def Copy.takeAll (apply : T → C → T) (c : Copy V T) (ds : List (Delta V C)) : Option (Copy V T) :=
  ds.foldlM (Copy.take apply) c

variable {apply : T → C → T} {c c' : Copy V T} {d : Delta V C} {ds : List (Delta V C)}

theorem take_of_le (h : d.version ≤ c.version) : c.take apply d = some c := if_pos h

theorem take_next (hlt : c.version < d.version) (hsince : d.since = some c.version) :
    c.take apply d = some ⟨d.version, d.changes.foldl apply c.data⟩ := by
  rw [Copy.take, if_neg (not_le.2 hlt), if_pos hsince]

/-- A copy that takes a delta is at the delta's version, or was ahead of it. -/
theorem version_of_take (h : c.take apply d = some c') : c'.version = max c.version d.version := by
  unfold Copy.take at h
  split at h
  · rename_i hle
    cases h
    exact (max_eq_left hle).symm
  · rename_i hlt
    simp only [Option.ite_none_right_eq_some, Option.some.injEq] at h
    obtain ⟨-, rfl⟩ := h
    exact (max_eq_right (not_le.1 hlt).le).symm

theorem version_le_of_takeAll (h : c.takeAll apply ds = some c') : c.version ≤ c'.version := by
  induction ds generalizing c with
  | nil =>
    cases h
    exact le_rfl
  | cons d ds ih =>
    rw [Copy.takeAll, List.foldlM_cons, Option.bind_eq_bind, Option.bind_eq_some_iff] at h
    obtain ⟨b, hb, h⟩ := h
    exact (version_of_take hb ▸ le_max_left _ _).trans (ih h)

/-- What a copy has already leaves it as it is. -/
theorem takeAll_of_le (h : ∀ d ∈ ds, d.version ≤ c.version) : c.takeAll apply ds = some c := by
  induction ds with
  | nil => rfl
  | cons d ds ih =>
    obtain ⟨hd, hds⟩ := List.forall_mem_cons.1 h
    rw [Copy.takeAll, List.foldlM_cons, take_of_le hd]
    exact ih hds

theorem takeAll_concat (d : Delta V C) :
    c.takeAll apply (ds ++ [d]) = (c.takeAll apply ds).bind (Copy.take apply · d) := by
  simp only [Copy.takeAll, List.foldlM_append, List.foldlM_cons, List.foldlM_nil,
    Option.bind_eq_bind, Option.pure_def, Option.bind_fun_some]

end Replica
