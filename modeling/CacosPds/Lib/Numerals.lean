import Mathlib.Data.List.Lex
import Mathlib.Data.Fin.Basic
import Mathlib.Order.Fin.Basic
import Mathlib.Algebra.Order.Ring.Nat
import Mathlib.Tactic.Ring
import Mathlib.Tactic.Linarith
/-!
# Big-endian numerals of a fixed length

The numerals of `k` digits to a base `b` are the numbers below `b ^ k` (`digits_value`,
`value_digits`), and they come in the order of their numbers: digit lists of one length compare, digit
by digit from the left, as what they stand for (`lt_iff_value_lt`).
-/
namespace Numerals

variable {b : Nat}

def value : List (Fin b) → Nat
  | [] => 0
  | d :: ds => d * b ^ ds.length + value ds

/-- The `k` last digits of a number. -/
def digits (hb : 0 < b) : Nat → Nat → List (Fin b)
  | 0, _ => []
  | k + 1, n => ⟨n / b ^ k % b, Nat.mod_lt _ hb⟩ :: digits hb k n

@[simp] theorem length_digits (hb : 0 < b) (k n : Nat) : (digits hb k n).length = k := by
  induction k with
  | zero => rfl
  | succ k ih => rw [digits, List.length_cons, ih]

theorem value_lt (ds : List (Fin b)) : value ds < b ^ ds.length := by
  induction ds with
  | nil => exact Nat.one_pos
  | cons d ds ih =>
    have hd : (d : Nat) + 1 ≤ b := d.isLt
    calc value (d :: ds) < d * b ^ ds.length + b ^ ds.length := Nat.add_lt_add_left ih _
      _ = (d + 1) * b ^ ds.length := by ring
      _ ≤ b * b ^ ds.length := Nat.mul_le_mul_right _ hd
      _ = b ^ (d :: ds).length := by rw [List.length_cons, pow_succ']

theorem value_digits (hb : 0 < b) (k n : Nat) : value (digits hb k n) = n % b ^ k := by
  induction k with
  | zero => rw [pow_zero, Nat.mod_one]; rfl
  | succ k ih =>
    rw [digits, value, length_digits, ih]
    show n / b ^ k % b * b ^ k + n % b ^ k = n % b ^ (k + 1)
    rw [pow_succ, Nat.mod_mul]
    ring

/-- Digit lists of one length compare as their numbers. -/
theorem lt_iff_value_lt {ds es : List (Fin b)} (h : ds.length = es.length) :
    ds < es ↔ value ds < value es := by
  induction ds generalizing es with
  | nil =>
    obtain rfl := List.length_eq_zero_iff.1 h.symm
    simp
  | cons d ds ih =>
    cases es with
    | nil => cases h
    | cons e es =>
      have hlen : ds.length = es.length := Nat.succ.inj h
      have hds := value_lt ds
      have hes := value_lt es
      rw [List.cons_lt_cons_iff, ih hlen]
      simp only [value, hlen] at hds ⊢
      rcases lt_trichotomy d e with hlt | rfl | hgt
      · have hstep : ((d : Nat) + 1) * b ^ es.length ≤ e * b ^ es.length :=
          Nat.mul_le_mul_right _ hlt
        exact iff_of_true (.inl hlt) (by linarith)
      · simp
      · have hstep : ((e : Nat) + 1) * b ^ es.length ≤ d * b ^ es.length :=
          Nat.mul_le_mul_right _ hgt
        refine iff_of_false ?_ (by linarith)
        rintro (hlt | ⟨rfl, -⟩)
        · exact lt_asymm hlt hgt
        · exact lt_irrefl _ hgt

theorem value_inj {ds es : List (Fin b)} (h : ds.length = es.length) (hv : value ds = value es) :
    ds = es := by
  rcases lt_trichotomy ds es with hlt | heq | hgt
  · exact absurd hv ((lt_iff_value_lt h).1 hlt).ne
  · exact heq
  · exact absurd hv ((lt_iff_value_lt h.symm).1 hgt).ne'

theorem digits_value (hb : 0 < b) (ds : List (Fin b)) : digits hb ds.length (value ds) = ds := by
  refine value_inj (length_digits hb _ _) ?_
  rw [value_digits, Nat.mod_eq_of_lt (value_lt ds)]

end Numerals
