import Mathlib.Data.String.Basic
import Mathlib.Data.List.Infix
import Mathlib.Tactic.IntervalCases
/-!
# Timestamps as text

An RFC 3339 text has a clock's fields at fixed places, a fraction of any length or none, and a zone.
Sorted as text, two of them compare field by field (`Stamp.text_lt_iff`). That is the order of the
instants only for one offset, and inside one second only where the fractions are equally long: the
text that ends first continues with its zone, and a letter sorts above every digit
(`Stamp.sorts_plain`).
-/
namespace Rfc3339

/-! ## Digits -/

def digit (n : Nat) : Char := Char.ofNat (48 + n % 10)

theorem digit_lt_digit (m n : Nat) : digit m < digit n ↔ m % 10 < n % 10 := by
  have key : ∀ a < 10, ∀ b < 10, (Char.ofNat (48 + a) < Char.ofNat (48 + b) ↔ a < b) := by decide
  exact key _ (Nat.mod_lt m (by decide)) _ (Nat.mod_lt n (by decide))

theorem digit_inj (m n : Nat) : digit m = digit n ↔ m % 10 = n % 10 := by
  have key : ∀ a < 10, ∀ b < 10, (Char.ofNat (48 + a) = Char.ofNat (48 + b) ↔ a = b) := by decide
  exact key _ (Nat.mod_lt m (by decide)) _ (Nat.mod_lt n (by decide))

/-- A character that sorts below, or above, every digit. -/
theorem lt_digit {c : Char} (h : c < '0') (n : Nat) : c < digit n := by
  have key : ∀ a < 10, '0' ≤ Char.ofNat (48 + a) := by decide
  exact lt_of_lt_of_le h (key _ (Nat.mod_lt n (by decide)))

theorem digit_lt {c : Char} (h : '9' < c) (n : Nat) : digit n < c := by
  have key : ∀ a < 10, Char.ofNat (48 + a) ≤ '9' := by decide
  exact lt_of_le_of_lt (key _ (Nat.mod_lt n (by decide))) h

def two (n : Nat) : List Char := [digit (n / 10), digit n]

def four (n : Nat) : List Char := two (n / 100) ++ two (n % 100)

variable {a b : Nat} {x y : List Char}

/-- Numbers of one width sort as they count. -/
theorem two_append_lt (ha : a < 100) (hb : b < 100) :
    two a ++ x < two b ++ y ↔ a < b ∨ a = b ∧ x < y := by
  simp only [two, List.cons_append, List.nil_append, List.cons_lt_cons_iff, digit_lt_digit,
    digit_inj]
  by_cases hxy : x < y
  · simp only [hxy, and_true]
    omega
  · simp only [hxy, and_false, or_false]
    omega

theorem four_append_lt (ha : a < 10000) (hb : b < 10000) :
    four a ++ x < four b ++ y ↔ a < b ∨ a = b ∧ x < y := by
  rw [four, four, List.append_assoc, List.append_assoc, two_append_lt (by omega) (by omega),
    two_append_lt (Nat.mod_lt a (by decide)) (Nat.mod_lt b (by decide))]
  by_cases hxy : x < y
  · simp only [hxy, and_true]
    omega
  · simp only [hxy, and_false, or_false]
    omega

theorem cons_lt_cons (c : Char) : c :: x < c :: y ↔ x < y := by
  rw [List.cons_lt_cons_iff]
  exact ⟨fun h => h.elim (fun hc => absurd hc (lt_irrefl c)) And.right, fun h => .inr ⟨rfl, h⟩⟩

theorem cons_lt_of_lt {c d : Char} (h : c < d) : c :: x < d :: y :=
  List.cons_lt_cons_iff.2 (.inl h)

theorem not_cons_lt_of_lt {c d : Char} (h : d < c) : ¬ c :: x < d :: y := by
  rw [List.cons_lt_cons_iff]
  rintro (hlt | ⟨heq, -⟩)
  · exact lt_asymm hlt h
  · exact h.ne' heq

/-! ## The calendar -/

def IsLeap (year : Int) : Prop := year % 4 = 0 ∧ (year % 100 ≠ 0 ∨ year % 400 = 0)

instance (year : Int) : Decidable (IsLeap year) := inferInstanceAs (Decidable (_ ∧ _))

def leapDay (year : Int) : Nat := if IsLeap year then 1 else 0

/-- Days of a year before the month, with `leap` days in February. -/
def daysBefore (leap : Nat) : Nat → Nat
  | 1 => 0
  | 2 => 31
  | 3 => 59 + leap
  | 4 => 90 + leap
  | 5 => 120 + leap
  | 6 => 151 + leap
  | 7 => 181 + leap
  | 8 => 212 + leap
  | 9 => 243 + leap
  | 10 => 273 + leap
  | 11 => 304 + leap
  | 12 => 334 + leap
  | _ => 365 + leap

/-- Days before the year, from the first of January of year 1. -/
def daysBeforeYear (year : Int) : Int :=
  365 * (year - 1) + (year - 1) / 4 - (year - 1) / 100 + (year - 1) / 400

theorem daysBeforeYear_succ (year : Int) :
    daysBeforeYear (year + 1) = daysBeforeYear year + 365 + leapDay year := by
  by_cases h : IsLeap year
  · have hleap : leapDay year = 1 := if_pos h
    rw [hleap]
    unfold IsLeap at h
    unfold daysBeforeYear
    omega
  · have hleap : leapDay year = 0 := if_neg h
    rw [hleap]
    unfold IsLeap at h
    unfold daysBeforeYear
    omega

theorem daysBeforeYear_mono {year year' : Int} (h : year ≤ year') :
    daysBeforeYear year ≤ daysBeforeYear year' := by
  unfold daysBeforeYear
  omega

/-- What a clock shows. A second of 60 is a leap second. -/
structure Clock where
  year : Int
  month : Nat
  day : Nat
  hour : Nat
  minute : Nat
  second : Nat
  year_range : -9999 ≤ year ∧ year ≤ 9999
  month_range : 1 ≤ month ∧ month ≤ 12
  day_range : 1 ≤ day ∧ day ≤ daysBefore (leapDay year) (month + 1) - daysBefore (leapDay year) month
  hour_lt : hour < 24
  minute_lt : minute < 60
  second_le : second ≤ 60

namespace Clock

/-- Days since 1970-01-01. -/
def date (c : Clock) : Int :=
  daysBeforeYear c.year + daysBefore (leapDay c.year) c.month + c.day - 719163

/-- `hhmmss`, read as a number. -/
def time (c : Clock) : Nat := (c.hour * 100 + c.minute) * 100 + c.second

def seconds (c : Clock) : Int := c.date * 86400 + (c.hour * 60 + c.minute) * 60 + c.second

variable {c d : Clock}

theorem leapDay_le (year : Int) : leapDay year ≤ 1 := by
  unfold leapDay
  split <;> decide

theorem daysBefore_mono {leap m n : Nat} (hm : 1 ≤ m) (h : m ≤ n) :
    daysBefore leap m ≤ daysBefore leap n := by
  obtain hn | hn := Nat.lt_or_ge 12 n
  · have hlast : daysBefore leap n = 365 + leap := by
      unfold daysBefore
      split <;> omega
    rw [hlast]
    unfold daysBefore
    split <;> omega
  · interval_cases n <;> interval_cases m <;> simp only [daysBefore] <;> omega

/-- The days of a year stay in the year. -/
theorem day_le (c : Clock) : daysBefore (leapDay c.year) c.month + c.day ≤ 365 + leapDay c.year := by
  have hday := c.day_range
  have hmono : daysBefore (leapDay c.year) c.month ≤ daysBefore (leapDay c.year) (c.month + 1) :=
    daysBefore_mono c.month_range.1 (Nat.le_succ c.month)
  have hlast : daysBefore (leapDay c.year) (c.month + 1) ≤ daysBefore (leapDay c.year) 13 :=
    daysBefore_mono (by omega) (by have := c.month_range; omega)
  have hyear : daysBefore (leapDay c.year) 13 = 365 + leapDay c.year := rfl
  omega

theorem date_lt_of_year (h : c.year < d.year) : c.date < d.date := by
  have hc := c.day_le
  have hd := d.day_range
  have hnext := daysBeforeYear_succ c.year
  have hmono := daysBeforeYear_mono (show c.year + 1 ≤ d.year by omega)
  unfold date
  omega

theorem date_lt_of_month (hy : c.year = d.year) (h : c.month < d.month) : c.date < d.date := by
  have hc := c.day_range
  have hd := d.day_range
  have hmono : daysBefore (leapDay c.year) (c.month + 1) ≤ daysBefore (leapDay c.year) d.month :=
    daysBefore_mono (by omega) h
  have hup : daysBefore (leapDay c.year) c.month ≤ daysBefore (leapDay c.year) (c.month + 1) :=
    daysBefore_mono c.month_range.1 (Nat.le_succ c.month)
  unfold date
  rw [← hy]
  omega

theorem date_lt_of_day (hy : c.year = d.year) (hm : c.month = d.month) (h : c.day < d.day) :
    c.date < d.date := by
  unfold date
  rw [← hy, ← hm]
  omega

/-- Dates count as they are written. -/
theorem date_lt_iff : c.date < d.date ↔
    c.year < d.year ∨ c.year = d.year ∧ (c.month < d.month ∨ c.month = d.month ∧ c.day < d.day) := by
  constructor
  · intro h
    by_contra hno
    rcases lt_trichotomy c.year d.year with hy | hy | hy
    · exact hno (.inl hy)
    · rcases lt_trichotomy c.month d.month with hm | hm | hm
      · exact hno (.inr ⟨hy, .inl hm⟩)
      · rcases lt_trichotomy c.day d.day with hd | hd | hd
        · exact hno (.inr ⟨hy, .inr ⟨hm, hd⟩⟩)
        · have heq : c.date = d.date := by unfold date; rw [hy, hm, hd]
          omega
        · have := date_lt_of_day hy.symm hm.symm hd
          omega
      · have := date_lt_of_month hy.symm hm
        omega
    · have := date_lt_of_year hy
      omega
  · rintro (hy | ⟨hy, hm | ⟨hm, hd⟩⟩)
    · exact date_lt_of_year hy
    · exact date_lt_of_month hy hm
    · exact date_lt_of_day hy hm hd

theorem date_eq_iff : c.date = d.date ↔ c.year = d.year ∧ c.month = d.month ∧ c.day = d.day := by
  have hcd := date_lt_iff (c := c) (d := d)
  have hdc := date_lt_iff (c := d) (d := c)
  omega

theorem time_lt_iff : c.time < d.time ↔ c.hour < d.hour ∨ c.hour = d.hour ∧
    (c.minute < d.minute ∨ c.minute = d.minute ∧ c.second < d.second) := by
  have hc := c.minute_lt
  have hd := d.minute_lt
  have hcs := c.second_le
  have hds := d.second_le
  unfold time
  omega

theorem time_eq_iff : c.time = d.time ↔
    c.hour = d.hour ∧ c.minute = d.minute ∧ c.second = d.second := by
  have hcd := time_lt_iff (c := c) (d := d)
  have hdc := time_lt_iff (c := d) (d := c)
  omega

/-! ## The text of a clock -/

def yearText (year : Int) : List Char :=
  if year < 0 then '-' :: four year.natAbs else four year.natAbs

def text (c : Clock) (sep : Char) : List Char :=
  yearText c.year ++ '-' :: (two c.month ++ '-' :: (two c.day ++ sep ::
    (two c.hour ++ ':' :: (two c.minute ++ ':' :: two c.second))))

variable {x y : List Char}

/-- The date, then the separator, then the time of day decide. -/
def Precedes (c d : Clock) (sep sep' : Char) (rest : Prop) : Prop :=
  c.date < d.date ∨ c.date = d.date ∧
    (sep < sep' ∨ sep = sep' ∧ (c.time < d.time ∨ c.time = d.time ∧ rest))

theorem day_lt_hundred (c : Clock) : c.day < 100 := by
  have key : ∀ leap < 2, ∀ m < 13, 1 ≤ m → daysBefore leap (m + 1) - daysBefore leap m ≤ 31 := by
    decide
  have hleap := leapDay_le c.year
  have := key (leapDay c.year) (by omega) c.month (by have := c.month_range; omega) c.month_range.1
  have := c.day_range
  omega

theorem timeText_lt (sep sep' : Char) :
    sep :: (two c.hour ++ ':' :: (two c.minute ++ ':' :: (two c.second ++ x))) <
      sep' :: (two d.hour ++ ':' :: (two d.minute ++ ':' :: (two d.second ++ y))) ↔
    sep < sep' ∨ sep = sep' ∧ (c.time < d.time ∨ c.time = d.time ∧ x < y) := by
  have hc := c.hour_lt
  have hd := d.hour_lt
  have hcm := c.minute_lt
  have hdm := d.minute_lt
  have hcs := c.second_le
  have hds := d.second_le
  rw [List.cons_lt_cons_iff, two_append_lt (by omega) (by omega), cons_lt_cons,
    two_append_lt (by omega) (by omega), cons_lt_cons, two_append_lt (by omega) (by omega),
    time_lt_iff, time_eq_iff]
  tauto

theorem text_append (c : Clock) (sep : Char) (x : List Char) :
    c.text sep ++ x = yearText c.year ++ '-' :: (two c.month ++ '-' :: (two c.day ++ sep ::
      (two c.hour ++ ':' :: (two c.minute ++ ':' :: (two c.second ++ x))))) := by
  simp only [text, List.append_assoc, List.cons_append]

/-- From year 0 on; before it the years would count backwards. -/
theorem text_append_lt_of_nonneg (hc : 0 ≤ c.year) (hd : 0 ≤ d.year) (sep sep' : Char) :
    c.text sep ++ x < d.text sep' ++ y ↔ Precedes c d sep sep' (x < y) := by
  have hcy := c.year_range
  have hdy := d.year_range
  have hcm := c.month_range
  have hdm := d.month_range
  have hyear : c.year.natAbs < d.year.natAbs ↔ c.year < d.year := by omega
  have hyear' : c.year.natAbs = d.year.natAbs ↔ c.year = d.year := by omega
  rw [text_append, text_append, yearText, yearText, if_neg (by omega), if_neg (by omega),
    four_append_lt (by omega) (by omega), cons_lt_cons, two_append_lt (by omega) (by omega),
    cons_lt_cons, two_append_lt c.day_lt_hundred d.day_lt_hundred, timeText_lt, hyear, hyear',
    Precedes, date_lt_iff, date_eq_iff]
  tauto

theorem four_append (n : Nat) (x : List Char) : ∃ rest, four n ++ x = digit (n / 1000) :: rest := by
  simp only [four, two, List.cons_append, Nat.div_div_eq_div_mul]
  exact ⟨_, rfl⟩

theorem text_append_lt (h : 0 ≤ c.year ∨ 0 ≤ d.year) (sep sep' : Char) :
    c.text sep ++ x < d.text sep' ++ y ↔ Precedes c d sep sep' (x < y) := by
  by_cases hc : 0 ≤ c.year
  · by_cases hd : 0 ≤ d.year
    · exact text_append_lt_of_nonneg hc hd sep sep'
    · have hdate := date_lt_of_year (show d.year < c.year by omega)
      obtain ⟨rest, hrest⟩ := four_append c.year.natAbs ('-' :: (two c.month ++ '-' ::
        (two c.day ++ sep :: (two c.hour ++ ':' :: (two c.minute ++ ':' :: (two c.second ++ x))))))
      rw [text_append, text_append, yearText, yearText, if_neg (by omega), if_pos (by omega), hrest,
        List.cons_append]
      have hsign := lt_digit (show '-' < '0' by decide) (c.year.natAbs / 1000)
      refine iff_of_false (not_cons_lt_of_lt hsign) ?_
      rintro (hlt | ⟨heq, -⟩) <;> omega
  · have hdate := date_lt_of_year (show c.year < d.year by omega)
    obtain ⟨rest, hrest⟩ := four_append d.year.natAbs ('-' :: (two d.month ++ '-' ::
      (two d.day ++ sep' :: (two d.hour ++ ':' :: (two d.minute ++ ':' :: (two d.second ++ y))))))
    rw [text_append, text_append, yearText, yearText, if_pos (by omega), if_neg (by omega), hrest,
      List.cons_append]
    have hsign := lt_digit (show '-' < '0' by decide) (d.year.natAbs / 1000)
    exact iff_of_true (cons_lt_of_lt hsign) (.inl hdate)

end Clock

/-! ## Fractions and zones -/

instance neZero_ten : NeZero 10 := ⟨by decide⟩

/-- The first `k` digits, as a number with `k` places. -/
def fraction : Nat → List (Fin 10) → Nat
  | 0, _ => 0
  | _, [] => 0
  | k + 1, d :: ds => d * 10 ^ k + fraction k ds

theorem fraction_lt (k : Nat) (ds : List (Fin 10)) : fraction k ds < 10 ^ k := by
  induction k generalizing ds with
  | zero => simp [fraction]
  | succ k ih =>
    cases ds with
    | nil => simp [fraction]
    | cons d ds =>
      have hd : (d : Nat) * 10 ^ k ≤ 9 * 10 ^ k := Nat.mul_le_mul_right _ (by omega)
      have := ih ds
      rw [fraction, pow_succ]
      omega

inductive Zone where
  /-- `Z`, or `z`. -/
  | letter (lower : Bool)
  | offset (negative : Bool) (hours : Fin 24) (minutes : Fin 60)
  deriving DecidableEq

namespace Zone

def isLetter : Zone → Bool
  | letter _ => true
  | offset .. => false

def text : Zone → List Char
  | letter lower => [if lower then 'z' else 'Z']
  | offset negative hours minutes =>
    (if negative then '-' else '+') :: (two hours ++ ':' :: two minutes)

/-- The offset in seconds. -/
def seconds : Zone → Int
  | letter _ => 0
  | offset negative hours minutes =>
    (if negative then -1 else 1) * ((hours : Nat) * 3600 + (minutes : Nat) * 60 : Int)

/-- A sign sorts below the point and the digits, a letter above them. -/
theorem text_split (z : Zone) : ∃ c rest, z.text = c :: rest ∧
    (if z.isLetter then '9' < c else c < '.') := by
  cases z with
  | letter lower => cases lower <;> exact ⟨_, _, rfl, by decide⟩
  | offset negative hours minutes =>
    cases negative
    · exact ⟨'+', _, rfl, show '+' < '.' by decide⟩
    · exact ⟨'-', _, rfl, show '-' < '.' by decide⟩

end Zone

/-- The point and the digits, if any, and the zone. -/
def digitsText (ds : List (Fin 10)) (z : Zone) : List Char := ds.map (digit ·.val) ++ z.text

def tail (ds : List (Fin 10)) (z : Zone) : List Char :=
  if ds = [] then z.text else '.' :: digitsText ds z

/-- Which of two tails sorts first. -/
def TailLt : List (Fin 10) → Zone → List (Fin 10) → Zone → Prop
  | [], z, [], z' => z.text < z'.text
  | [], z, _ :: _, _ => ¬ z.isLetter
  | _ :: _, _, [], z' => z'.isLetter
  | d :: ds, z, e :: es, z' => d < e ∨ d = e ∧ TailLt ds z es z'

theorem digitsText_lt (ds es : List (Fin 10)) (z z' : Zone) :
    digitsText ds z < digitsText es z' ↔ TailLt ds z es z' := by
  induction ds generalizing es with
  | nil =>
    cases es with
    | nil => simp [digitsText, TailLt]
    | cons e es =>
      obtain ⟨c, rest, htext, hc⟩ := z.text_split
      simp only [digitsText, List.map_nil, List.nil_append, htext, List.map_cons, List.cons_append,
        TailLt]
      split at hc
      · rename_i hletter
        exact iff_of_false (not_cons_lt_of_lt (digit_lt hc _)) (not_not.2 hletter)
      · rename_i hletter
        exact iff_of_true (cons_lt_of_lt (lt_digit (lt_trans hc (by decide)) _)) hletter
  | cons d ds ih =>
    cases es with
    | nil =>
      obtain ⟨c, rest, htext, hc⟩ := z'.text_split
      simp only [digitsText, List.map_nil, List.nil_append, htext, List.map_cons, List.cons_append,
        TailLt]
      split at hc
      · rename_i hletter
        exact iff_of_true (cons_lt_of_lt (digit_lt hc _)) hletter
      · rename_i hletter
        exact iff_of_false (not_cons_lt_of_lt (lt_digit (lt_trans hc (by decide)) _)) hletter
    | cons e es =>
      have hd := Nat.mod_eq_of_lt d.isLt
      have he := Nat.mod_eq_of_lt e.isLt
      have ih := ih es
      simp only [digitsText] at ih
      simp only [digitsText, List.map_cons, List.cons_append, List.cons_lt_cons_iff, digit_lt_digit,
        digit_inj, hd, he, TailLt, ih, Fin.lt_def, Fin.ext_iff]

theorem tail_lt (ds es : List (Fin 10)) (z z' : Zone) : tail ds z < tail es z' ↔ TailLt ds z es z' := by
  have hpoint : '.' < '9' := by decide
  cases ds with
  | nil =>
    cases es with
    | nil => simp [tail, TailLt]
    | cons e es =>
      obtain ⟨c, rest, htext, hc⟩ := z.text_split
      rw [tail, if_pos rfl, tail, if_neg (List.cons_ne_nil e es), htext, TailLt]
      split at hc
      · rename_i hletter
        exact iff_of_false (not_cons_lt_of_lt (lt_trans hpoint hc)) (not_not.2 hletter)
      · rename_i hletter
        exact iff_of_true (cons_lt_of_lt hc) hletter
  | cons d ds =>
    cases es with
    | nil =>
      obtain ⟨c, rest, htext, hc⟩ := z'.text_split
      rw [tail, if_neg (List.cons_ne_nil d ds), tail, if_pos rfl, htext, TailLt]
      split at hc
      · rename_i hletter
        exact iff_of_true (cons_lt_of_lt (lt_trans hpoint hc)) hletter
      · rename_i hletter
        exact iff_of_false (not_cons_lt_of_lt hc) hletter
    | cons e es =>
      rw [tail, if_neg (List.cons_ne_nil d ds), tail, if_neg (List.cons_ne_nil e es), cons_lt_cons,
        digitsText_lt]

/-- Where letters end both, only a text that stops inside the other's digits sorts out of order. -/
theorem fraction_le_of_tailLt {ds es : List (Fin 10)} {z z' : Zone} (hz : z.isLetter)
    (h : TailLt ds z es z') (k : Nat) : fraction k ds ≤ fraction k es ∨ es <+: ds := by
  induction ds generalizing es k with
  | nil =>
    cases es with
    | nil => exact .inr List.prefix_rfl
    | cons e es => exact absurd hz h
  | cons d ds ih =>
    cases es with
    | nil => exact .inr List.nil_prefix
    | cons e es =>
      cases k with
      | zero => exact .inl (by rw [fraction, fraction])
      | succ k =>
        rcases h with hlt | ⟨rfl, hrest⟩
        · left
          have hds := fraction_lt k ds
          have hstep : (d : Nat) * 10 ^ k + 10 ^ k ≤ e * 10 ^ k := by
            rw [← Nat.succ_mul]
            exact Nat.mul_le_mul_right _ hlt
          rw [fraction, fraction]
          omega
        · rcases ih hrest k with hle | hpre
          · left
            rw [fraction, fraction]
            omega
          · exact .inr (List.prefix_cons_inj d |>.2 hpre)

/-! ## Stamps -/

/-- The fields of an RFC 3339 text. -/
structure Stamp where
  clock : Clock
  sep : Char
  digits : List (Fin 10)
  zone : Zone

def billion : Int := 1000000000

namespace Stamp

def text (s : Stamp) : String := String.ofList (s.clock.text s.sep ++ tail s.digits s.zone)

/-- Nanoseconds on the stamp's own clock; a leap second is the last instant before the minute. -/
def nanos (s : Stamp) : Int :=
  if s.clock.second = 60 then s.clock.seconds * billion - 1
  else s.clock.seconds * billion + fraction 9 s.digits

def instant (s : Stamp) : Int := s.nanos - s.zone.seconds * billion

/-- The order of the texts. -/
def Sorts (a b : Stamp) : Prop :=
  a.clock.Precedes b.clock a.sep b.sep (TailLt a.digits a.zone b.digits b.zone)

theorem text_lt_iff {a b : Stamp} (h : 0 ≤ a.clock.year ∨ 0 ≤ b.clock.year) :
    a.text < b.text ↔ a.Sorts b := by
  rw [String.lt_iff, text, text, String.toList_ofList, String.toList_ofList,
    Clock.text_append_lt h, tail_lt, Sorts]

/-- `T`, `Z` and no leap second. -/
structure Plain (s : Stamp) : Prop where
  sep : s.sep = 'T'
  zone : s.zone.isLetter
  second : s.clock.second < 60

theorem Plain.instant {s : Stamp} (h : s.Plain) :
    s.instant = s.clock.seconds * billion + fraction 9 s.digits := by
  have hsec := h.second
  have hzone : s.zone.seconds = 0 := by
    have := h.zone
    cases hz : s.zone with
    | letter lower => rfl
    | offset negative hours minutes => simp [hz, Zone.isLetter] at this
  rw [Stamp.instant, nanos, if_neg (by omega), hzone]
  omega

theorem seconds_lt_of_time {c d : Clock} (hdate : c.date = d.date) (hc : c.second < 60)
    (h : c.time < d.time) : c.seconds < d.seconds := by
  have := c.minute_lt
  have := d.minute_lt
  have := d.second_le
  unfold Clock.time at h
  unfold Clock.seconds
  omega

theorem seconds_lt_of_date {c d : Clock} (h : c.date < d.date) (hc : c.second < 60) :
    c.seconds < d.seconds := by
  have := c.hour_lt
  have := c.minute_lt
  unfold Clock.seconds
  omega

theorem seconds_le_of_time {c d : Clock} (hdate : c.date = d.date) (h : c.time < d.time) :
    c.seconds ≤ d.seconds := by
  have := c.minute_lt
  have := c.second_le
  have := d.minute_lt
  have := d.second_le
  unfold Clock.time at h
  unfold Clock.seconds
  omega

theorem seconds_le_of_date {c d : Clock} (h : c.date < d.date) : c.seconds ≤ d.seconds := by
  have := c.hour_lt
  have := c.minute_lt
  have := c.second_le
  unfold Clock.seconds
  omega

/-- Of two plain stamps the one that sorts first is not the later one, unless it continues the
digits of the other. -/
theorem sorts_plain {a b : Stamp} (ha : a.Plain) (hb : b.Plain) (h : a.Sorts b) :
    a.instant ≤ b.instant ∨ a.clock.seconds = b.clock.seconds ∧ b.digits <+: a.digits := by
  have hfa := fraction_lt 9 a.digits
  rw [ha.instant, hb.instant]
  unfold billion
  rcases h with hdate | ⟨hdate, hsep | ⟨-, htime | ⟨htime, htail⟩⟩⟩
  · have := seconds_lt_of_date hdate ha.second
    exact .inl (by omega)
  · rw [ha.sep, hb.sep] at hsep
    exact absurd hsep (lt_irrefl _)
  · have := seconds_lt_of_time hdate ha.second htime
    exact .inl (by omega)
  · obtain ⟨hh, hm, hs⟩ := Clock.time_eq_iff.1 htime
    have hsec : a.clock.seconds = b.clock.seconds := by
      unfold Clock.seconds
      rw [hdate, hh, hm, hs]
    rcases fraction_le_of_tailLt ha.zone htail 9 with hle | hpre
    · exact .inl (by omega)
    · exact .inr ⟨hsec, hpre⟩

end Stamp

/-! ## Milliseconds and `Z` -/

/-- A date and time with its offset in seconds. -/
structure OffsetDateTime where
  clock : Clock
  second_lt : clock.second < 60
  nanosecond : Nat
  nanosecond_lt : nanosecond < 1000000000
  offset : Int

namespace OffsetDateTime

def nanos (t : OffsetDateTime) : Int := t.clock.seconds * billion + t.nanosecond

def instant (t : OffsetDateTime) : Int := t.nanos - t.offset * billion

/-- The three digits of the milliseconds; what is below them is cut off. -/
def millis (t : OffsetDateTime) : List (Fin 10) :=
  [Fin.ofNat 10 (t.nanosecond / 100000000), Fin.ofNat 10 (t.nanosecond / 10000000),
    Fin.ofNat 10 (t.nanosecond / 1000000)]

/-- The fields with the literal `Z`, whatever the offset. -/
def shown (t : OffsetDateTime) : Stamp := ⟨t.clock, 'T', t.millis, .letter false⟩

variable {t : OffsetDateTime} {s : Stamp} {ds : List (Fin 10)} {z : Zone}

/-- The stamp is in this second, and its digits and the milliseconds agree as far as both go. -/
structure Abuts (t : OffsetDateTime) (s : Stamp) : Prop where
  sep : s.sep = 'T'
  date : s.clock.date = t.clock.date
  time : s.clock.time = t.clock.time
  digits : s.digits <+: t.millis ∨ t.millis <+: s.digits

theorem letter_le (z : Zone) : Zone.text (.letter false) ≤ z.text ↔ z.isLetter := by
  rw [← not_lt]
  cases z with
  | letter lower => cases lower <;> decide
  | offset negative hours minutes =>
    refine iff_of_false (not_not.2 ?_) Bool.false_ne_true
    cases negative
    · exact cons_lt_of_lt (show '+' < 'Z' by decide)
    · exact cons_lt_of_lt (show '-' < 'Z' by decide)

/-- Digits that run along the milliseconds: the zone decides, or the fourth digit. -/
theorem not_tailLt_of_prefix (h : ds <+: t.millis ∨ t.millis <+: ds) :
    ¬ TailLt ds z t.millis (.letter false) ↔ ds.length ≤ 3 ∧ z.isLetter := by
  unfold millis at h ⊢
  match ds with
  | [] => simp [TailLt]
  | [a] => simp_all [TailLt]
  | [a, b] => simp_all [TailLt]
  | [a, b, c] =>
    have habc : a = Fin.ofNat 10 (t.nanosecond / 100000000) ∧
        b = Fin.ofNat 10 (t.nanosecond / 10000000) ∧ c = Fin.ofNat 10 (t.nanosecond / 1000000) := by
      simp_all [eq_comm]
    obtain ⟨rfl, rfl, rfl⟩ := habc
    simp [TailLt, letter_le]
  | a :: b :: c :: d :: rest =>
    have habc : a = Fin.ofNat 10 (t.nanosecond / 100000000) ∧
        b = Fin.ofNat 10 (t.nanosecond / 10000000) ∧ c = Fin.ofNat 10 (t.nanosecond / 1000000) := by
      simp_all [eq_comm]
    obtain ⟨rfl, rfl, rfl⟩ := habc
    simp [TailLt, Zone.isLetter]

/-- Digits that leave the milliseconds: the fractions decide. -/
theorem not_tailLt_of_not_prefix (h : ¬ (ds <+: t.millis ∨ t.millis <+: ds)) :
    ¬ TailLt ds z t.millis (.letter false) ↔ t.nanosecond ≤ fraction 9 ds := by
  have hns := t.nanosecond_lt
  unfold millis at h ⊢
  match ds with
  | [] => simp at h
  | [a] =>
    simp only [TailLt, fraction, Fin.lt_def, Fin.ext_iff, Fin.ofNat, List.cons_prefix_cons] at h ⊢
    simp at h ⊢
    omega
  | [a, b] =>
    simp only [TailLt, fraction, Fin.lt_def, Fin.ext_iff, Fin.ofNat, List.cons_prefix_cons] at h ⊢
    simp at h ⊢
    omega
  | a :: b :: c :: rest =>
    have hrest := fraction_lt 6 rest
    simp only [TailLt, fraction, Fin.lt_def, Fin.ext_iff, Fin.ofNat, List.cons_prefix_cons] at h ⊢
    simp at h ⊢
    omega

def format (t : OffsetDateTime) : String := t.shown.text

/-- With two separators alike the earlier clock precedes. -/
theorem precedes_of_apart {c d : Clock} {sep : Char} {p : Prop}
    (h : ¬ (c.date = d.date ∧ c.time = d.time)) :
    c.Precedes d sep sep p ↔ c.date < d.date ∨ c.date = d.date ∧ c.time < d.time := by
  constructor
  · rintro (hdate | ⟨hdate, hsep | ⟨-, htime | ⟨htime, -⟩⟩⟩)
    · exact .inl hdate
    · exact absurd hsep (lt_irrefl sep)
    · exact .inr ⟨hdate, htime⟩
    · exact absurd ⟨hdate, htime⟩ h
  · rintro (hdate | ⟨hdate, htime⟩)
    · exact .inl hdate
    · exact .inr ⟨hdate, .inr ⟨rfl, .inl htime⟩⟩

theorem nanos_lt_of_before (h : s.clock.date < t.clock.date ∨
    s.clock.date = t.clock.date ∧ s.clock.time < t.clock.time) : s.nanos < t.nanos := by
  have hfr := fraction_lt 9 s.digits
  have hsec := s.clock.second_le
  unfold nanos Stamp.nanos billion
  split
  · have hle : s.clock.seconds ≤ t.clock.seconds := by
      rcases h with hdate | ⟨hdate, htime⟩
      · exact Stamp.seconds_le_of_date hdate
      · exact Stamp.seconds_le_of_time hdate htime
    omega
  · have hlt : s.clock.seconds < t.clock.seconds := by
      rcases h with hdate | ⟨hdate, htime⟩
      · exact Stamp.seconds_lt_of_date hdate (by omega)
      · exact Stamp.seconds_lt_of_time hdate (by omega) htime
    omega

theorem nanos_le_of_after (h : t.clock.date < s.clock.date ∨
    t.clock.date = s.clock.date ∧ t.clock.time < s.clock.time) : t.nanos ≤ s.nanos := by
  have hns := t.nanosecond_lt
  have hlt : t.clock.seconds < s.clock.seconds := by
    rcases h with hdate | ⟨hdate, htime⟩
    · exact Stamp.seconds_lt_of_date hdate t.second_lt
    · exact Stamp.seconds_lt_of_time hdate t.second_lt htime
  unfold nanos Stamp.nanos billion
  split <;> omega

/-- Where a stamp does not abut, the clocks decide. -/
theorem not_sorts_of_apart (hsep : s.sep = 'T') (h : ¬ t.Abuts s) :
    ¬ s.Sorts t.shown ↔ t.nanos ≤ s.nanos := by
  have hirr : ¬ ('T' < 'T') := lt_irrefl _
  simp only [Stamp.Sorts, shown, hsep]
  by_cases hsame : s.clock.date = t.clock.date ∧ s.clock.time = t.clock.time
  · obtain ⟨hh, hm, hs⟩ := Clock.time_eq_iff.1 hsame.2
    have hsec := t.second_lt
    have hpre : ¬ (s.digits <+: t.millis ∨ t.millis <+: s.digits) := fun hd =>
      h ⟨hsep, hsame.1, hsame.2, hd⟩
    have hseconds : s.clock.seconds = t.clock.seconds := by
      unfold Clock.seconds
      rw [hsame.1, hh, hm, hs]
    have htail := not_tailLt_of_not_prefix (z := s.zone) hpre
    simp only [Clock.Precedes, hsame, hirr, lt_irrefl, true_and, false_or, htail]
    unfold nanos Stamp.nanos billion
    rw [hseconds, if_neg (by omega)]
    omega
  · rw [precedes_of_apart hsame]
    constructor
    · intro hno
      exact nanos_le_of_after (by omega)
    · intro hle hbefore
      exact absurd (nanos_lt_of_before hbefore) (not_lt.2 hle)

/-- Where it does, the zone decides, or that it has a fourth digit. -/
theorem not_sorts_of_abuts (h : t.Abuts s) :
    ¬ s.Sorts t.shown ↔ s.digits.length ≤ 3 ∧ s.zone.isLetter := by
  have hirr : ¬ ('T' < 'T') := lt_irrefl _
  have htail := not_tailLt_of_prefix (z := s.zone) h.digits
  simp only [Stamp.Sorts, shown, h.sep, Clock.Precedes, h.date, h.time, hirr, lt_irrefl, true_and,
    false_or, htail]

/-- With another separator the time of day is not looked at. -/
theorem not_sorts_of_sep (hsep : s.sep ≠ 'T') : ¬ s.Sorts t.shown ↔
    t.clock.date < s.clock.date ∨ t.clock.date = s.clock.date ∧ 'T' < s.sep := by
  simp only [Stamp.Sorts, shown, Clock.Precedes, hsep, false_and, or_false]
  have hord : ¬ s.sep < 'T' ↔ 'T' < s.sep := ⟨fun h => lt_of_le_of_ne (not_lt.1 h) hsep.symm, lt_asymm⟩
  rw [← hord]
  constructor
  · intro h
    rcases lt_trichotomy s.clock.date t.clock.date with hd | hd | hd
    · exact absurd (.inl hd) h
    · exact .inr ⟨hd.symm, fun hlt => h (.inr ⟨hd, hlt⟩)⟩
    · exact .inl hd
  · rintro (hd | ⟨hd, hnot⟩) (hd' | ⟨hd', hlt⟩)
    · omega
    · omega
    · omega
    · exact hnot hlt

theorem format_le_iff (hs : 0 ≤ s.clock.year) : t.format ≤ s.text ↔ ¬ s.Sorts t.shown := by
  rw [← not_lt, format, Stamp.text_lt_iff (.inl hs)]

end OffsetDateTime

end Rfc3339
