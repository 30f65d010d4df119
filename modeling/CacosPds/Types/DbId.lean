import CacosPds.Types.Basic
import Mathlib.Algebra.Group.Nat.Defs
import Mathlib.Order.Defs.LinearOrder
/-!
# Row ids: `DbId` (`migration/src/types/db_id.rs`)

A `DbId` is a ULID: 128 bits, the upper 48 of them a Unix timestamp in milliseconds. Ids are
compared as numbers, which is also how SQLite compares the 16 big-endian bytes of the column. Ids
come from one process-wide monotonic `ulid::Generator` behind a mutex (`db_id.rs:27-43`); the
generator is a foreign crate and enters as `UlidGenerator`, with the documented behaviour of a
monotonic ULID generator as its laws.

`timestampMs` keeps the order of ids (`timestampMs_mono`) but is not injective: ids drawn in one
millisecond share it (`new_same_ms`).
-/
namespace CacosPds

/-- `DbId(Ulid)`: 48 bits of milliseconds above 80 random bits. -/
structure DbId where
  val : Nat
  isLt : val < 2 ^ 128
  deriving DecidableEq

namespace DbId

instance : LT DbId := ⟨fun a b => a.val < b.val⟩
instance : LE DbId := ⟨fun a b => a.val ≤ b.val⟩
instance (a b : DbId) : Decidable (a < b) := inferInstanceAs (Decidable (a.val < b.val))
instance (a b : DbId) : Decidable (a ≤ b) := inferInstanceAs (Decidable (a.val ≤ b.val))

theorem lt_def {a b : DbId} : a < b ↔ a.val < b.val := Iff.rfl
theorem le_def {a b : DbId} : a ≤ b ↔ a.val ≤ b.val := Iff.rfl

theorem zero_isLt : 0 < 2 ^ 128 := by decide
theorem one_isLt : 1 < 2 ^ 128 := by decide

theorem val_inj {a b : DbId} (h : a.val = b.val) : a = b := by
  cases a
  cases b
  cases h
  rfl

instance : LinearOrder DbId where
  le_refl a := Nat.le_refl a.val
  le_trans _ _ _ hab hbc := Nat.le_trans hab hbc
  lt_iff_le_not_ge _ _ := Nat.lt_iff_le_and_not_ge
  le_antisymm _ _ hab hba := val_inj (Nat.le_antisymm hab hba)
  le_total a b := Nat.le_total a.val b.val
  toDecidableLE a b := inferInstanceAs (Decidable (a.val ≤ b.val))
  toDecidableEq := inferInstance

/-- `DbId::timestamp_ms` (`db_id.rs:67`). -/
def timestampMs (d : DbId) : Nat := d.val / 2 ^ 80

theorem timestampMs_mono {a b : DbId} (h : a ≤ b) : a.timestampMs ≤ b.timestampMs :=
  Nat.div_le_div_right h

theorem lt_of_timestampMs_lt {a b : DbId} (h : a.timestampMs < b.timestampMs) : a < b :=
  Nat.lt_of_not_le fun hle => absurd (timestampMs_mono (le_def.2 hle)) (Nat.not_le.2 h)

/-- The id with timestamp `ms` and random part `rnd` (`Ulid::from_parts`). -/
def ofParts (ms rnd : Nat) : DbId :=
  ⟨(ms % 2 ^ 48) * 2 ^ 80 + rnd % 2 ^ 80, by omega⟩

theorem timestampMs_ofParts {ms : Nat} (h : ms < 2 ^ 48) (rnd : Nat) :
    (ofParts ms rnd).timestampMs = ms := by
  simp only [timestampMs, ofParts]
  omega

end DbId

/-- `ulid::Generator` as `DbId::new` uses it. `generate previous now rnd` is the id after
`previous` when the clock shows `now` ms (`none`: the random bits of the millisecond are used up),
`commitOverflowIncrement` the id the overflow error commits to instead. -/
structure UlidGenerator where
  generate : DbId → Nat → Nat → Option DbId
  commitOverflowIncrement : DbId → DbId
  /-- A later millisecond starts afresh with the clock's timestamp. -/
  generate_later : ∀ p now rnd, p.timestampMs < now → now < 2 ^ 48 →
    ∃ id, generate p now rnd = some id ∧ id.timestampMs = now
  /-- The same millisecond, or a clock that went back: increment. -/
  generate_same : ∀ p now rnd id, now ≤ p.timestampMs → generate p now rnd = some id →
    id.val = p.val + 1
  /-- The increment carries into the timestamp. -/
  commit_next : ∀ p : DbId, p.val + 1 < 2 ^ 128 → (commitOverflowIncrement p).val = p.val + 1

/-- `DbId::new` (`db_id.rs:36-42`) with the generator at `previous`. -/
def DbId.new (G : UlidGenerator) (previous : DbId) (now rnd : Nat) : DbId :=
  (G.generate previous now rnd).getD (G.commitOverflowIncrement previous)

section
variable (G : UlidGenerator) {p : DbId} {now : Nat}

theorem DbId.new_later (h : p.timestampMs < now) (hn : now < 2 ^ 48) (rnd : Nat) :
    (DbId.new G p now rnd).timestampMs = now := by
  obtain ⟨id, hid, ht⟩ := G.generate_later p now rnd h hn
  rw [DbId.new, hid]
  exact ht

theorem DbId.new_same (h : now ≤ p.timestampMs) (hp : p.val + 1 < 2 ^ 128) (rnd : Nat) :
    (DbId.new G p now rnd).val = p.val + 1 := by
  unfold DbId.new
  cases hg : G.generate p now rnd with
  | some id => exact G.generate_same p now rnd id h hg
  | none => exact G.commit_next p hp

/-- The millisecond the generator stands at when the clock shows `now`: the clock's, unless the
last id's is not yet over. -/
def DbId.generatorMs (previous : DbId) (now : Nat) : Nat :=
  if previous.timestampMs < now then now else (previous.val + 1) / 2 ^ 80

theorem DbId.timestampMs_new (hp : p.val + 1 < 2 ^ 128) (hn : now < 2 ^ 48) (rnd : Nat) :
    (DbId.new G p now rnd).timestampMs = generatorMs p now := by
  unfold generatorMs
  split
  · exact new_later G ‹_› hn rnd
  · rw [timestampMs, new_same G (Nat.le_of_not_lt ‹_›) hp rnd]

/-- Successive ids strictly increase, as long as the 128 bits last. -/
theorem DbId.lt_new (hp : p.val + 1 < 2 ^ 128) (hn : now < 2 ^ 48) (rnd : Nat) :
    p < DbId.new G p now rnd := by
  by_cases h : p.timestampMs < now
  · exact lt_of_timestampMs_lt (by rw [new_later G h hn]; exact h)
  · have := new_same G (Nat.le_of_not_lt h) hp rnd
    rw [lt_def]; omega

/-- A second id in one millisecond has the first one's timestamp, unless the random bits overflow. -/
theorem DbId.new_same_ms (h : now ≤ p.timestampMs) (hp : p.val + 1 < 2 ^ 128)
    (hr : p.val % 2 ^ 80 + 1 < 2 ^ 80) (rnd : Nat) :
    (DbId.new G p now rnd).timestampMs = p.timestampMs := by
  have hv := new_same G h hp rnd
  unfold timestampMs
  rw [hv]
  omega

end

/-- A generator with these laws: `Ulid::from_parts` in a new millisecond, else increment. -/
def ulidReference : UlidGenerator where
  generate p now rnd :=
    if p.timestampMs < now then some (.ofParts now rnd)
    else if h : p.val + 1 < 2 ^ 128 then some ⟨p.val + 1, h⟩ else none
  commitOverflowIncrement p := if h : p.val + 1 < 2 ^ 128 then ⟨p.val + 1, h⟩ else p
  generate_later p now rnd h hn := ⟨.ofParts now rnd, by simp [h], DbId.timestampMs_ofParts hn rnd⟩
  generate_same p now rnd id h hg := by
    rw [if_neg (Nat.not_lt.2 h)] at hg
    split at hg
    · cases hg; rfl
    · cases hg
  commit_next p h := by rw [dif_pos h]

end CacosPds
