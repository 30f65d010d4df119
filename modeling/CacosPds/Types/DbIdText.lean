import CacosPds.Lib.Ascii
import CacosPds.Lib.Numerals
import CacosPds.Types.DbId
import Mathlib.Data.String.Basic
import Mathlib.Data.Vector.Basic
/-!
# The written forms of a `DbId` (`migration/src/types/db_id.rs:45-232`)

| here | there |
| --- | --- |
| `DbId.toBytes`, `DbId.fromBytes` | `to_bytes`, `from_bytes`: 128 bits, big-endian |
| `DbId.toHex`, `DbId.fromHex`     | `to_hex`, `from_hex` with `hex_to_bytes` and `from_hex_digit` |
| `UlidText`        | the text form of the `ulid` crate: 26 characters, read back by `from_str` |
| `DbId.tryGetBy`   | `TryGetable::try_get_by` (`db_id.rs:188`), given what the driver makes of the column |

SQLite compares two BLOBs byte by byte. That is the order of the ids (`toBytes_lt`), and the order of
their hex texts too (`toHex_lt`). A column that is no id is quoted in the error, cut to 64 bytes; the cut
panics where a character goes across it.
-/
namespace CacosPds

/-- `[u8; 16]`. -/
abbrev IdBytes := List.Vector UInt8 16

theorem pos_256 : 0 < 256 := by decide

/-- The digits that bytes are. -/
def byteDigits (bytes : Bytes) : List (Fin 256) := bytes.map UInt8.toFin

namespace DbId

theorem length_digitBytes (n : Nat) :
    ((Numerals.digits pos_256 16 n).map UInt8.ofFin).length = 16 := by
  rw [List.length_map, Numerals.length_digits]

def toBytes (d : DbId) : IdBytes :=
  ⟨(Numerals.digits pos_256 16 d.val).map UInt8.ofFin, length_digitBytes d.val⟩

theorem value_byteDigits_lt (bytes : IdBytes) :
    Numerals.value (byteDigits bytes.toList) < 2 ^ 128 := by
  have h := Numerals.value_lt (byteDigits bytes.toList)
  rwa [byteDigits, List.length_map, List.Vector.toList_length] at h

def fromBytes (bytes : IdBytes) : DbId :=
  ⟨Numerals.value (byteDigits bytes.toList), value_byteDigits_lt bytes⟩

theorem byteDigits_toBytes (d : DbId) :
    byteDigits d.toBytes.toList = Numerals.digits pos_256 16 d.val := by
  show ((Numerals.digits pos_256 16 d.val).map UInt8.ofFin).map UInt8.toFin = _
  rw [List.map_map]
  exact List.map_id _

theorem fromBytes_toBytes (d : DbId) : fromBytes d.toBytes = d := by
  refine val_inj ?_
  show Numerals.value (byteDigits d.toBytes.toList) = d.val
  rw [byteDigits_toBytes, Numerals.value_digits]
  exact Nat.mod_eq_of_lt d.isLt

theorem toBytes_fromBytes (bytes : IdBytes) : (fromBytes bytes).toBytes = bytes := by
  have hlen : (byteDigits bytes.toList).length = 16 := by
    rw [byteDigits, List.length_map, List.Vector.toList_length]
  have hdigits := Numerals.digits_value pos_256 (byteDigits bytes.toList)
  rw [hlen] at hdigits
  refine Subtype.ext ?_
  show (Numerals.digits pos_256 16 (Numerals.value (byteDigits bytes.toList))).map UInt8.ofFin = _
  rw [hdigits, byteDigits, List.map_map]
  exact List.map_id _

theorem byteDigits_lt {xs ys : Bytes} : byteDigits xs < byteDigits ys ↔ xs < ys := by
  induction xs generalizing ys with
  | nil => cases ys <;> simp [byteDigits]
  | cons x xs ih =>
    cases ys with
    | nil => simp [byteDigits]
    | cons y ys =>
      show x.toFin :: byteDigits xs < y.toFin :: byteDigits ys ↔ _
      rw [List.cons_lt_cons_iff, List.cons_lt_cons_iff, ih]
      exact or_congr Iff.rfl (and_congr_left' UInt8.toFin_inj)

/-- The bytes of ids compare as the ids. -/
theorem toBytes_lt {d e : DbId} : d.toBytes.toList < e.toBytes.toList ↔ d < e := by
  rw [← byteDigits_lt, byteDigits_toBytes, byteDigits_toBytes, Numerals.lt_iff_value_lt
    (by rw [Numerals.length_digits, Numerals.length_digits]), Numerals.value_digits,
    Numerals.value_digits, Nat.mod_eq_of_lt (show d.val < 256 ^ 16 from d.isLt),
    Nat.mod_eq_of_lt (show e.val < 256 ^ 16 from e.isLt), lt_def]

/-! ## Hex -/

/-- The two characters of a byte. -/
def hexPair (b : UInt8) : List Char :=
  [Nat.digitChar (b >>> 4).toNat, Nat.digitChar (b &&& 0x0f).toNat]

def toHex (d : DbId) : String := String.ofList (d.toBytes.toList.flatMap hexPair)

def fromHexDigit (c : UInt8) : Option UInt8 :=
  if 48 ≤ c ∧ c ≤ 57 then some (c - 48)
  else if 97 ≤ c ∧ c ≤ 102 then some (c - 97 + 10)
  else if 65 ≤ c ∧ c ≤ 70 then some (c - 65 + 10)
  else none

/-- The loop of `hex_to_bytes`. -/
def readPairs : (n : Nat) → Bytes → Option (List.Vector UInt8 n)
  | 0, _ => some .nil
  | n + 1, hi :: lo :: src => do
    let hi ← fromHexDigit hi
    let lo ← fromHexDigit lo
    let bytes ← readPairs n src
    return ((hi <<< 4) ||| lo) ::ᵥ bytes
  | _ + 1, _ => none

def hexToBytes (s : String) : Option IdBytes :=
  if s.utf8ByteSize ≠ 32 then none else readPairs 16 (Ascii.bytes s)

/-- The error of `from_hex`, `HexError::FromHex`; the others are for other ways to parse. -/
structure HexError where
  fromHex : String
  deriving DecidableEq

def fromHex (s : String) : Except HexError DbId :=
  match hexToBytes s with
  | some bytes => .ok (fromBytes bytes)
  | none => .error ⟨s⟩

/-- The lower-case character of a byte. -/
def lowerChar (c : UInt8) : Char := (Char.ofNat c.toNat).toLower

theorem fromHexDigit_table : ∀ n < 256,
    (fromHexDigit (.ofNat n)).all (fun x => n < 128 ∧ x.toNat < 16 ∧
      lowerChar (.ofNat n) = Nat.digitChar x.toNat) ∧
    ∀ m < 16, lowerChar (.ofNat n) = Nat.digitChar m → n < 128 →
      fromHexDigit (.ofNat n) = some (.ofNat m) := by
  decide +kernel

theorem nibbles_table : ∀ n < 256, (UInt8.ofNat n >>> 4).toNat < 16 ∧
    (UInt8.ofNat n &&& 0x0f).toNat < 16 ∧
    ((UInt8.ofNat n >>> 4) <<< 4) ||| (UInt8.ofNat n &&& 0x0f) = UInt8.ofNat n := by
  decide +kernel

theorem hexPair_table : ∀ x < 16, ∀ y < 16,
    hexPair ((UInt8.ofNat x <<< 4) ||| UInt8.ofNat y) = [Nat.digitChar x, Nat.digitChar y] := by
  decide +kernel

/-- A hex digit is a character that is one in lower case. -/
theorem fromHexDigit_eq_some {c x : UInt8} : fromHexDigit c = some x ↔
    c.toNat < 128 ∧ x.toNat < 16 ∧ lowerChar c = Nat.digitChar x.toNat := by
  have hrow := fromHexDigit_table c.toNat c.toNat_lt
  rw [UInt8.ofNat_toNat] at hrow
  constructor
  · intro h
    simpa [h] using hrow.1
  · rintro ⟨hc, hx, hlower⟩
    have hread := hrow.2 x.toNat hx hlower hc
    rwa [UInt8.ofNat_toNat] at hread

theorem nibbles (b : UInt8) : (b >>> 4).toNat < 16 ∧ (b &&& 0x0f).toNat < 16 ∧
    ((b >>> 4) <<< 4) ||| (b &&& 0x0f) = b := by
  have hrow := nibbles_table b.toNat b.toNat_lt
  rwa [UInt8.ofNat_toNat] at hrow

theorem hexPair_nibbles {x y : UInt8} (hx : x.toNat < 16) (hy : y.toNat < 16) :
    hexPair ((x <<< 4) ||| y) = [Nat.digitChar x.toNat, Nat.digitChar y.toNat] := by
  have hrow := hexPair_table x.toNat hx y.toNat hy
  rwa [UInt8.ofNat_toNat, UInt8.ofNat_toNat] at hrow

theorem readPairs_eq_some {n : Nat} {src : Bytes} (hlen : src.length = 2 * n)
    (v : List.Vector UInt8 n) : readPairs n src = some v ↔
      (∀ b ∈ src, b.toNat < 128) ∧ src.map lowerChar = v.toList.flatMap hexPair := by
  induction n generalizing src with
  | zero =>
    obtain rfl := List.length_eq_zero_iff.1 hlen
    obtain rfl := List.Vector.eq_nil v
    simp [readPairs]
  | succ n ih =>
    obtain ⟨hi, lo, src, rfl⟩ : ∃ hi lo rest, src = hi :: lo :: rest := by
      rcases src with _ | ⟨hi, _ | ⟨lo, rest⟩⟩
      · exact absurd hlen (by simp)
      · exact absurd hlen (by simp; omega)
      · exact ⟨hi, lo, rest, rfl⟩
    have hrest : src.length = 2 * n := by
      simp only [List.length_cons] at hlen
      omega
    obtain ⟨b, w, rfl⟩ : ∃ b w, v = b ::ᵥ w := ⟨v.head, v.tail, (v.cons_head_tail).symm⟩
    simp only [readPairs, Option.bind_eq_bind, Option.bind_eq_some_iff, Option.pure_def,
      Option.some.injEq, ih hrest, fromHexDigit_eq_some, List.Vector.toList_cons,
      List.flatMap_cons, List.forall_mem_cons, List.map_cons]
    constructor
    · rintro ⟨x, ⟨hi128, hx, hxl⟩, y, ⟨lo128, hy, hyl⟩, u, ⟨hall, hmap⟩, hv⟩
      have hhead := congrArg List.Vector.head hv
      have htail := congrArg List.Vector.tail hv
      simp only [List.Vector.head_cons, List.Vector.tail_cons] at hhead htail
      subst hhead htail
      rw [hexPair_nibbles hx hy, hxl, hyl, hmap]
      exact ⟨⟨hi128, lo128, hall⟩, rfl⟩
    · rintro ⟨⟨hi128, lo128, hall⟩, hmap⟩
      obtain ⟨hhi, hlo, hb⟩ := nibbles b
      simp only [hexPair, List.cons_append, List.nil_append, List.cons.injEq] at hmap
      exact ⟨_, ⟨hi128, hhi, hmap.1⟩, _, ⟨lo128, hlo, hmap.2.1⟩, w, ⟨hall, hmap.2.2⟩, by rw [hb]⟩

theorem toNat_digitChar_lt : ∀ n < 16, (Nat.digitChar n).toNat < 128 := by decide

/-- The characters of an id are ASCII. -/
theorem ascii_toHex (d : DbId) : ∀ c ∈ d.toHex.toList, c.toNat < 128 := by
  intro c hc
  rw [toHex, String.toList_ofList, List.mem_flatMap] at hc
  obtain ⟨b, -, hc⟩ := hc
  obtain ⟨hhi, hlo, -⟩ := nibbles b
  rcases List.mem_cons.1 hc with rfl | hc
  · exact toNat_digitChar_lt _ hhi
  · obtain rfl := List.mem_singleton.1 hc
    exact toNat_digitChar_lt _ hlo

theorem length_toHex (d : DbId) : d.toHex.toList.length = 32 := by
  have hpair : ∀ bytes : Bytes, (bytes.flatMap hexPair).length = 2 * bytes.length := by
    intro bytes
    induction bytes with
    | nil => rfl
    | cons b bytes ih =>
      rw [List.flatMap_cons, List.length_append, ih, List.length_cons]
      show 2 + _ = _
      omega
  rw [toHex, String.toList_ofList, hpair, List.Vector.toList_length]

/-- A character that is ASCII in lower case is ASCII. -/
theorem ascii_of_toLower {c : Char} (h : c.toLower.toNat < 128) : c.toNat < 128 := by
  unfold Char.toLower at h
  split at h
  · rename_i hc
    have hle : c.val.toNat ≤ 90 := hc.2
    show c.val.toNat < 128
    omega
  · exact h

theorem map_lowerChar {s : String} (h : ∀ c ∈ s.toList, c.toNat < 128) :
    (Ascii.bytes s).map lowerChar = s.toList.map Char.toLower := by
  rw [Ascii.bytes_of_ascii h, List.map_map]
  refine List.map_congr_left fun c hc => ?_
  have hbyte : (UInt8.ofNat c.toNat).toNat = c.toNat :=
    UInt8.toNat_ofNat_of_lt' (show c.toNat < 256 from (h c hc).trans (by decide))
  show (Char.ofNat (UInt8.ofNat c.toNat).toNat).toLower = c.toLower
  rw [hbyte, Char.ofNat_toNat]

/-- The texts that are read as an id are its hex text, in any case. -/
theorem hexToBytes_eq_some {s : String} {bytes : IdBytes} :
    hexToBytes s = some bytes ↔ s.toList.map Char.toLower = (fromBytes bytes).toHex.toList := by
  have hhex : (fromBytes bytes).toHex.toList = bytes.toList.flatMap hexPair := by
    rw [toHex, toBytes_fromBytes, String.toList_ofList]
  unfold hexToBytes
  rw [ite_not]
  constructor
  · intro h
    obtain ⟨hsize, h⟩ := Option.ite_none_right_eq_some.1 h
    have hlen : (Ascii.bytes s).length = 2 * 16 := hsize
    obtain ⟨hascii, hmap⟩ := (readPairs_eq_some hlen bytes).1 h
    rw [hhex, ← hmap, map_lowerChar (Ascii.ascii_of_bytes hascii)]
  · intro h
    have hascii : ∀ c ∈ s.toList, c.toNat < 128 := by
      intro c hc
      refine ascii_of_toLower (ascii_toHex (fromBytes bytes) _ ?_)
      rw [← h]
      exact List.mem_map_of_mem hc
    have hsize : s.utf8ByteSize = 32 := by
      rw [← Ascii.length_bytes, Ascii.bytes_of_ascii hascii, List.length_map,
        ← List.length_map (f := Char.toLower), h, length_toHex]
    have hlen : (Ascii.bytes s).length = 2 * 16 := hsize
    rw [if_pos hsize]
    refine (readPairs_eq_some hlen bytes).2 ⟨fun b hb => ?_, ?_⟩
    · rw [Ascii.bytes_of_ascii hascii] at hb
      obtain ⟨c, hc, rfl⟩ := List.mem_map.1 hb
      have hlt := hascii c hc
      rw [UInt8.toNat_ofNat_of_lt' (show c.toNat < 256 by omega)]
      exact hlt
    · rw [map_lowerChar hascii, h, hhex]

theorem digitChar_table : ∀ x < 16, ∀ y < 16,
    (Nat.digitChar x < Nat.digitChar y ↔ x < y) ∧ (Nat.digitChar x = Nat.digitChar y ↔ x = y) := by
  decide

theorem nibbles_toNat (b : UInt8) :
    (b >>> 4).toNat = b.toNat / 16 ∧ (b &&& 0x0f).toNat = b.toNat % 16 := by
  constructor
  · rw [UInt8.toNat_shiftRight, Nat.shiftRight_eq_div_pow]
    rfl
  · rw [UInt8.toNat_and]
    exact Nat.and_two_pow_sub_one_eq_mod b.toNat 4

/-- Bytes compare as their characters. -/
theorem flatMap_hexPair_lt {xs ys : Bytes} : xs.flatMap hexPair < ys.flatMap hexPair ↔ xs < ys := by
  induction xs generalizing ys with
  | nil => cases ys <;> simp [hexPair]
  | cons a xs ih =>
    cases ys with
    | nil => simp
    | cons b ys =>
      have ha := a.toNat_lt
      have hb := b.toNat_lt
      obtain ⟨hilt, hieq⟩ := digitChar_table (a.toNat / 16) (by omega) (b.toNat / 16) (by omega)
      obtain ⟨lolt, loeq⟩ := digitChar_table (a.toNat % 16) (by omega) (b.toNat % 16) (by omega)
      simp only [List.flatMap_cons, hexPair, List.cons_append, List.nil_append,
        List.cons_lt_cons_iff, ih, hilt, hieq, lolt, loeq, (nibbles_toNat a).1, (nibbles_toNat a).2,
        (nibbles_toNat b).1, (nibbles_toNat b).2, UInt8.lt_iff_toNat_lt, ← UInt8.toNat_inj]
      by_cases h : xs < ys
      · simp only [h, and_true]
        omega
      · simp only [h, and_false, or_false]
        omega

theorem toHex_lt {d e : DbId} : d.toHex < e.toHex ↔ d < e := by
  rw [String.lt_iff_toList_lt, toHex, toHex, String.toList_ofList, String.toList_ofList,
    flatMap_hexPair_lt, toBytes_lt]

theorem fromHex_eq_ok {s : String} {d : DbId} :
    fromHex s = .ok d ↔ s.toList.map Char.toLower = d.toHex.toList := by
  have hbytes : hexToBytes s = some d.toBytes ↔ _ := hexToBytes_eq_some
  rw [fromBytes_toBytes] at hbytes
  rw [← hbytes, fromHex]
  cases hexToBytes s with
  | none => exact iff_of_false (fun h => by cases h) fun h => by cases h
  | some bytes =>
    constructor
    · rintro ⟨⟩
      rw [toBytes_fromBytes]
    · rintro ⟨⟩
      exact congrArg Except.ok (fromBytes_toBytes d)

/-! ## Columns -/

end DbId

/-- `Ulid::to_string` and `Ulid::from_str`. -/
structure UlidText where
  display : DbId → String
  fromStr : String → Option DbId
  fromStr_display : ∀ d, fromStr (display d) = some d
  /-- Other lengths are `DecodeError::InvalidLength`. -/
  size : ∀ s d, fromStr s = some d → s.utf8ByteSize = 26

/-- `&s[..n]`, which panics inside a character or behind the end. -/
def sliceTo : List Char → Nat → Option (List Char)
  | _, 0 => some []
  | [], _ + 1 => none
  | c :: cs, n + 1 =>
    if c.utf8Size ≤ n + 1 then (sliceTo cs (n + 1 - c.utf8Size)).map (c :: ·) else none

inductive Got where
  | id (d : DbId)
  /-- `DbErr::Custom`. -/
  | custom (text : String)
  /-- The driver's error. -/
  | driver (err : String)
  | panics
  deriving DecidableEq

namespace DbId

/-- The column as the driver reads it, as bytes and as text. -/
def tryGetBy (U : UlidText) (asBytes : Option Bytes) (asText : Except String String) : Got :=
  match asBytes with
  | some v =>
    if h : v.length = 16 then .id (fromBytes ⟨v, h⟩)
    else .custom ("Invalid DbId: expected 16 bytes, got " ++ toString v.length ++ " bytes")
  | none =>
    match asText with
    | .error e => .driver e
    | .ok s =>
      match U.fromStr s with
      | some d => .id d
      | none =>
        match hexToBytes s with
        | some bytes => .id (fromBytes bytes)
        | none =>
          match sliceTo s.toList (min s.utf8ByteSize 64) with
          | some shown => .custom ("Invalid DbId: string value " ++ debugStr (String.ofList shown) ++
              " is not a ULID or hex string")
          | none => .panics

/-- The column holds the id in one of its forms. -/
def Written (U : UlidText) (d : DbId) (asBytes : Option Bytes) (asText : Except String String) :
    Prop :=
  asBytes = some d.toBytes.toList ∨ asBytes = none ∧ ∃ s, asText = .ok s ∧
    (U.fromStr s = some d ∨ s.toList.map Char.toLower = d.toHex.toList)

/-- A text that is no id, with a character across its 64th byte. -/
def Splits (U : UlidText) (asBytes : Option Bytes) (asText : Except String String) : Prop :=
  asBytes = none ∧ ∃ s, asText = .ok s ∧ U.fromStr s = none ∧ hexToBytes s = none ∧
    64 < s.utf8ByteSize ∧ ∀ cs, cs <+: s.toList → (String.ofList cs).utf8ByteSize ≠ 64

variable {U : UlidText} {asBytes : Option Bytes} {asText : Except String String} {d : DbId}

/-- The prefix of the size asked for, if there is one. -/
theorem sliceTo_eq_some {cs out : List Char} {n : Nat} :
    sliceTo cs n = some out ↔ out <+: cs ∧ (String.ofList out).utf8ByteSize = n := by
  have hpos : ∀ (c : Char) (cs : List Char), (String.ofList (c :: cs)).utf8ByteSize ≠ 0 := by
    intro c cs
    rw [Ascii.size_cons]
    have := c.utf8Size_pos
    omega
  induction cs generalizing n out with
  | nil =>
    cases n with
    | zero =>
      rw [sliceTo, Option.some.injEq, List.prefix_nil]
      exact ⟨fun h => by subst h; exact ⟨rfl, rfl⟩, fun h => h.1.symm⟩
    | succ n =>
      refine iff_of_false (fun h => by cases h) ?_
      rintro ⟨hout, hn⟩
      obtain rfl := List.prefix_nil.1 hout
      cases hn
  | cons c cs ih =>
    cases n with
    | zero =>
      rw [sliceTo, Option.some.injEq]
      constructor
      · rintro rfl
        exact ⟨List.nil_prefix, rfl⟩
      · rintro ⟨-, hn⟩
        cases out with
        | nil => rfl
        | cons d out => exact absurd hn (hpos d out)
    | succ n =>
      rw [sliceTo]
      cases out with
      | nil =>
        refine iff_of_false (fun h => ?_) fun h => by cases h.2
        obtain ⟨-, h⟩ := Option.ite_none_right_eq_some.1 h
        obtain ⟨_, -, h⟩ := Option.map_eq_some_iff.1 h
        cases h
      | cons d out =>
        rw [Option.ite_none_right_eq_some, List.cons_prefix_cons, Ascii.size_cons]
        simp only [Option.map_eq_some_iff, List.cons.injEq, ih]
        constructor
        · rintro ⟨hle, _, ⟨hpre, hsize⟩, rfl, rfl⟩
          exact ⟨⟨rfl, hpre⟩, by omega⟩
        · rintro ⟨⟨rfl, hpre⟩, hsize⟩
          exact ⟨by omega, out, ⟨hpre, by omega⟩, rfl, rfl⟩

/-- The cut to 64 bytes fails. -/
theorem sliceTo_min_eq_none {s : String} : sliceTo s.toList (min s.utf8ByteSize 64) = none ↔
    64 < s.utf8ByteSize ∧ ∀ cs, cs <+: s.toList → (String.ofList cs).utf8ByteSize ≠ 64 := by
  constructor
  · intro h
    have hno : ∀ cs, cs <+: s.toList → (String.ofList cs).utf8ByteSize ≠ min s.utf8ByteSize 64 := by
      intro cs hcs hsize
      rw [sliceTo_eq_some.2 ⟨hcs, hsize⟩] at h
      cases h
    have hlong : 64 < s.utf8ByteSize := by
      by_contra hle
      refine hno s.toList List.prefix_rfl ?_
      rw [String.ofList_toList]
      omega
    rw [min_eq_right hlong.le] at hno
    exact ⟨hlong, hno⟩
  · rintro ⟨hlong, hno⟩
    rw [min_eq_right hlong.le]
    by_contra hne
    obtain ⟨out, hout⟩ := Option.ne_none_iff_exists'.1 hne
    obtain ⟨hpre, hsize⟩ := sliceTo_eq_some.1 hout
    exact hno out hpre hsize

/-- A text of the length of a ULID is no hex text. -/
theorem not_hex_of_ulid {s : String} {e : DbId} (h : U.fromStr s = some e) :
    s.toList.map Char.toLower ≠ d.toHex.toList := by
  intro hhex
  have hbytes := fromHex_eq_ok.2 hhex
  have hsize := U.size s e h
  simp only [fromHex, hexToBytes, hsize] at hbytes
  cases hbytes

theorem tryGetBy_bytes {v : Bytes} :
    tryGetBy U (some v) asText = .id d ↔ v = d.toBytes.toList := by
  rw [tryGetBy]
  constructor
  · intro h
    split at h
    · rename_i hlen
      cases h
      exact (congrArg List.Vector.toList (toBytes_fromBytes ⟨v, hlen⟩)).symm
    · cases h
  · rintro rfl
    rw [dif_pos d.toBytes.toList_length]
    exact congrArg Got.id (fromBytes_toBytes d)

theorem tryGetBy_text {s : String} : tryGetBy U none (.ok s) = .id d ↔
    U.fromStr s = some d ∨ s.toList.map Char.toLower = d.toHex.toList := by
  rw [← fromHex_eq_ok, fromHex, tryGetBy]
  cases hulid : U.fromStr s with
  | some e =>
    have hhex := not_hex_of_ulid (d := d) hulid
    rw [ne_eq, ← fromHex_eq_ok, fromHex] at hhex
    simp [hhex]
  | none =>
    cases hexToBytes s with
    | some bytes => simp
    | none =>
      simp only [reduceCtorEq, or_self, iff_false]
      split <;> simp

theorem tryGetBy_panics {s : String} : tryGetBy U none (.ok s) = .panics ↔
    U.fromStr s = none ∧ hexToBytes s = none ∧ 64 < s.utf8ByteSize ∧
      ∀ cs, cs <+: s.toList → (String.ofList cs).utf8ByteSize ≠ 64 := by
  rw [tryGetBy, ← sliceTo_min_eq_none]
  cases U.fromStr s with
  | some e => simp
  | none =>
    cases hexToBytes s with
    | some bytes => simp
    | none => cases sliceTo s.toList (min s.utf8ByteSize 64) <;> simp

/-- **A column is read as an id exactly where it holds that id as bytes, as ULID text or as hex text in
any case, and the reading panics exactly where it quotes a text with a character across byte 64.** -/
theorem tryGetBy_iff (U : UlidText) (asBytes : Option Bytes) (asText : Except String String) :
    (∀ d, tryGetBy U asBytes asText = .id d ↔ Written U d asBytes asText) ∧
      (tryGetBy U asBytes asText = .panics ↔ Splits U asBytes asText) := by
  cases asBytes with
  | some v =>
    refine ⟨fun d => tryGetBy_bytes.trans ?_, iff_of_false ?_ ?_⟩
    · simp [Written]
    · rw [tryGetBy]
      split <;> simp
    · simp [Splits]
  | none =>
    cases asText with
    | error e => simp [tryGetBy, Written, Splits]
    | ok s =>
      refine ⟨fun d => tryGetBy_text.trans ?_, tryGetBy_panics.trans ?_⟩
      · simp [Written]
      · simp [Splits]

end DbId

/-! ## A text form with these laws

Crockford's base 32 in 26 digits, read back in upper case. -/

theorem pos_32 : 0 < 32 := by decide

def base32Char (n : Fin 32) : Char := "0123456789ABCDEFGHJKMNPQRSTVWXYZ".toList.getD n '0'

def base32Digit (c : Char) : Option (Fin 32) := (List.finRange 32).find? fun n => base32Char n = c

theorem base32Digit_char : ∀ n, base32Digit (base32Char n) = some n := by decide

theorem utf8Size_base32Char : ∀ n, (base32Char n).utf8Size = 1 := by decide

theorem mapM_base32Digit (ds : List (Fin 32)) : (ds.map base32Char).mapM base32Digit = some ds := by
  induction ds with
  | nil => rfl
  | cons d ds ih => simp [base32Digit_char, ih]

theorem size_base32 (ds : List (Fin 32)) :
    (String.ofList (ds.map base32Char)).utf8ByteSize = ds.length := by
  induction ds with
  | nil => rfl
  | cons d ds ih => rw [List.map_cons, Ascii.size_cons, utf8Size_base32Char, ih, List.length_cons,
      Nat.add_comm]

def base32Text (d : DbId) : String := String.ofList ((Numerals.digits pos_32 26 d.val).map base32Char)

def base32Read (s : String) : Option DbId :=
  if s.utf8ByteSize ≠ 26 then none
  else (s.toList.mapM base32Digit).bind fun ds =>
    if h : Numerals.value ds < 2 ^ 128 then some ⟨Numerals.value ds, h⟩ else none

theorem ids_lt_base32 : 2 ^ 128 < 32 ^ 26 := by decide

theorem base32Read_text (d : DbId) : base32Read (base32Text d) = some d := by
  have hsize : (base32Text d).utf8ByteSize = 26 := by
    rw [base32Text, size_base32, Numerals.length_digits]
  have hvalue : Numerals.value (Numerals.digits pos_32 26 d.val) = d.val := by
    rw [Numerals.value_digits]
    exact Nat.mod_eq_of_lt (Nat.lt_trans d.isLt ids_lt_base32)
  have hlt : Numerals.value (Numerals.digits pos_32 26 d.val) < 2 ^ 128 := by
    rw [hvalue]
    exact d.isLt
  rw [base32Read, ite_not, if_pos hsize, base32Text, String.toList_ofList, mapM_base32Digit,
    Option.bind_some, dif_pos hlt]
  exact congrArg some (DbId.val_inj hvalue)

theorem size_of_base32Read (s : String) (d : DbId) (h : base32Read s = some d) :
    s.utf8ByteSize = 26 := by
  rw [base32Read, ite_not] at h
  exact (Option.ite_none_right_eq_some.1 h).1

def ulidBase32 : UlidText where
  display := base32Text
  fromStr := base32Read
  fromStr_display := base32Read_text
  size := size_of_base32Read

end CacosPds
