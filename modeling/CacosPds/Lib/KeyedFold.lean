import Mathlib.Data.List.Basic
/-!
# Folds of keyed steps

A fold whose steps each touch one key of the accumulator (`Local`), read back at one key: only the
steps of that key matter (`get_foldl`). Where a step overwrites what was there, only the last step
of the key matters (`get_foldl_last`). The accumulator is arbitrary: a finite map, a table, a
function; `get` reads it.
-/
namespace KeyedFold

variable {τ κ ν α : Type*} [DecidableEq κ] {get : τ → κ → ν} {step : τ → α → τ}
  {key : α → κ} {f : α → ν → ν}

/-- A step changes only its own key, by `f`. -/
def Local (get : τ → κ → ν) (step : τ → α → τ) (key : α → κ) (f : α → ν → ν) : Prop :=
  ∀ t a k, get (step t a) k = if k = key a then f a (get t k) else get t k

/-- The steps of one key, in order. -/
def at_ (key : α → κ) (k : κ) (as : List α) : List α := as.filter fun a => key a = k

theorem at_cons (k : κ) (a : α) (as : List α) :
    at_ key k (a :: as) = if key a = k then a :: at_ key k as else at_ key k as := by
  by_cases h : key a = k <;> simp [at_, h]

theorem map_at {β : Type*} (g : β → α) (k : κ) (bs : List β) :
    (at_ (fun b => key (g b)) k bs).map g = at_ key k (bs.map g) := by
  simp [at_, List.filter_map, Function.comp_def]

theorem mem_at {k : κ} {a : α} {as : List α} : a ∈ at_ key k as ↔ a ∈ as ∧ key a = k := by
  simp [at_]

theorem at_eq_nil {k : κ} {as : List α} : at_ key k as = [] ↔ ∀ a ∈ as, key a ≠ k := by
  simp [at_]

/-- Read a fold at one key: fold the steps of that key over the value there. -/
theorem get_foldl (h : Local get step key f) (as : List α) (t : τ) (k : κ) :
    get (as.foldl step t) k = (at_ key k as).foldl (fun v a => f a v) (get t k) := by
  induction as generalizing t with
  | nil => rfl
  | cons a as ih =>
    rw [List.foldl_cons, ih, h, at_cons]
    by_cases hk : key a = k
    · simp [hk]
    · simp [hk, Ne.symm hk]

theorem foldl_const (g : α → ν) (as : List α) (v : ν) :
    as.foldl (fun _ a => g a) v = (as.getLast?.map g).getD v := by
  induction as generalizing v with
  | nil => rfl
  | cons a as ih =>
    rw [List.foldl_cons, ih]
    cases as with
    | nil => rfl
    | cons b bs => simp [List.getLast?_cons]

/-- Where steps overwrite, a key holds what its last step wrote, or what was there. -/
theorem get_foldl_last {g : α → ν} (h : Local get step key fun a _ => g a) (as : List α) (t : τ)
    (k : κ) : get (as.foldl step t) k = ((at_ key k as).getLast?.map g).getD (get t k) := by
  rw [get_foldl h, foldl_const]

end KeyedFold
