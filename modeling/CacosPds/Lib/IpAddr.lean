import Mathlib.Data.List.Basic
import Mathlib.Tactic.Positivity
/-!
# IP addresses (`std::net`)

The two kinds of addresses by their octets and segments, with the tests, the texts and the parser
of the standard library. `In` is what the tests are about: the block of the addresses that share
their first bits with a given one.
-/
namespace Net

structure Ipv4Addr where
  a : UInt8
  b : UInt8
  c : UInt8
  d : UInt8
  deriving DecidableEq

/-- The eight segments. -/
structure Ipv6Addr where
  s₀ : UInt16
  s₁ : UInt16
  s₂ : UInt16
  s₃ : UInt16
  s₄ : UInt16
  s₅ : UInt16
  s₆ : UInt16
  s₇ : UInt16
  deriving DecidableEq

inductive IpAddr where
  | v4 (addr : Ipv4Addr)
  | v6 (addr : Ipv6Addr)
  deriving DecidableEq

namespace Ipv4Addr

def toNat (x : Ipv4Addr) : Nat :=
  ((x.a.toNat * 256 + x.b.toNat) * 256 + x.c.toNat) * 256 + x.d.toNat

/-- `net/len`. -/
def In (x net : Ipv4Addr) (len : Nat) : Prop := x.toNat / 2 ^ (32 - len) = net.toNat / 2 ^ (32 - len)

def isLoopback (x : Ipv4Addr) : Bool := x.a = 127

def isPrivate (x : Ipv4Addr) : Bool :=
  x.a = 10 ∨ x.a = 172 ∧ 16 ≤ x.b ∧ x.b ≤ 31 ∨ x.a = 192 ∧ x.b = 168

def isLinkLocal (x : Ipv4Addr) : Bool := x.a = 169 ∧ x.b = 254

def isUnspecified (x : Ipv4Addr) : Bool := x = ⟨0, 0, 0, 0⟩

def isBroadcast (x : Ipv4Addr) : Bool := x = ⟨255, 255, 255, 255⟩

end Ipv4Addr

namespace Ipv6Addr

def segments (x : Ipv6Addr) : List UInt16 := [x.s₀, x.s₁, x.s₂, x.s₃, x.s₄, x.s₅, x.s₆, x.s₇]

def toNat (x : Ipv6Addr) : Nat := x.segments.foldl (fun n s => n * 65536 + s.toNat) 0

/-- `net/len`. -/
def In (x net : Ipv6Addr) (len : Nat) : Prop :=
  x.toNat / 2 ^ (128 - len) = net.toNat / 2 ^ (128 - len)

def isLoopback (x : Ipv6Addr) : Bool := x = ⟨0, 0, 0, 0, 0, 0, 0, 1⟩

def isUnspecified (x : Ipv6Addr) : Bool := x = ⟨0, 0, 0, 0, 0, 0, 0, 0⟩

/-- The IPv4 address `x:y`. -/
def low (x y : UInt16) : Ipv4Addr :=
  ⟨(x / 256).toUInt8, (x % 256).toUInt8, (y / 256).toUInt8, (y % 256).toUInt8⟩

/-- `::ffff:a.b.c.d`. -/
def toIpv4Mapped (x : Ipv6Addr) : Option Ipv4Addr :=
  if x.segments.take 6 = [0, 0, 0, 0, 0, 0xffff] then some (low x.s₆ x.s₇) else none

end Ipv6Addr

/-! ### The tests as blocks -/

section

variable (x : Ipv4Addr)

theorem Ipv4Addr.isLoopback_iff : x.isLoopback = true ↔ x.In ⟨127, 0, 0, 0⟩ 8 := by
  have hb := x.b.toNat_lt
  have hc := x.c.toNat_lt
  have hd := x.d.toNat_lt
  simp only [isLoopback, decide_eq_true_eq, In, toNat, ← UInt8.toNat_inj, UInt8.reduceToNat]
  omega

theorem Ipv4Addr.isPrivate_iff : x.isPrivate = true ↔
    x.In ⟨10, 0, 0, 0⟩ 8 ∨ x.In ⟨172, 16, 0, 0⟩ 12 ∨ x.In ⟨192, 168, 0, 0⟩ 16 := by
  have hb := x.b.toNat_lt
  have hc := x.c.toNat_lt
  have hd := x.d.toNat_lt
  simp only [isPrivate, decide_eq_true_eq, In, toNat, ← UInt8.toNat_inj, UInt8.le_iff_toNat_le,
    UInt8.reduceToNat]
  omega

theorem Ipv4Addr.isLinkLocal_iff : x.isLinkLocal = true ↔ x.In ⟨169, 254, 0, 0⟩ 16 := by
  have hb := x.b.toNat_lt
  have hc := x.c.toNat_lt
  have hd := x.d.toNat_lt
  simp only [isLinkLocal, decide_eq_true_eq, In, toNat, ← UInt8.toNat_inj, UInt8.reduceToNat]
  omega

end

/-- A mask of `n` ones, moved up by `k`. -/
theorem and_ones_shiftLeft (x n k : Nat) :
    x &&& ((2 ^ n - 1) <<< k) = ((x >>> k) % 2 ^ n) <<< k := by
  refine Nat.eq_of_testBit_eq fun i => ?_
  rw [Nat.testBit_and, Nat.testBit_shiftLeft, Nat.testBit_shiftLeft, Nat.testBit_two_pow_sub_one,
    Nat.testBit_mod_two_pow, Nat.testBit_shiftRight]
  by_cases hi : k ≤ i
  · rw [Nat.add_sub_cancel' hi, Bool.and_comm, Bool.and_assoc]
  · simp [hi]

/-- The first `n` bits of a segment. -/
theorem toNat_and_mask {s mask : UInt16} {n k : Nat} (hnk : n + k = 16)
    (hmask : mask.toNat = (2 ^ n - 1) <<< k) : (s &&& mask).toNat = s.toNat / 2 ^ k * 2 ^ k := by
  have hlt : s.toNat / 2 ^ k < 2 ^ n := by
    rw [Nat.div_lt_iff_lt_mul (by positivity), ← pow_add, hnk]
    exact s.toNat_lt
  rw [UInt16.toNat_and, hmask, and_ones_shiftLeft, Nat.shiftRight_eq_div_pow, Nat.shiftLeft_eq,
    Nat.mod_eq_of_lt hlt]

theorem Ipv6Addr.toNat_div (x : Ipv6Addr) : x.toNat / 2 ^ 112 = x.s₀.toNat := by
  have h₁ := x.s₁.toNat_lt
  have h₂ := x.s₂.toNat_lt
  have h₃ := x.s₃.toNat_lt
  have h₄ := x.s₄.toNat_lt
  have h₅ := x.s₅.toNat_lt
  have h₆ := x.s₆.toNat_lt
  have h₇ := x.s₇.toNat_lt
  simp only [toNat, segments, List.foldl_cons, List.foldl_nil]
  omega

/-- A block of IPv6 addresses that the first segment decides. -/
theorem Ipv6Addr.in_iff_mask (x : Ipv6Addr) {s m : UInt16} {n k : Nat} (hnk : n + k = 16)
    (hmask : m.toNat = (2 ^ n - 1) <<< k) (hs : s.toNat / 2 ^ k * 2 ^ k = s.toNat) :
    x.s₀ &&& m = s ↔ x.In ⟨s, 0, 0, 0, 0, 0, 0, 0⟩ n := by
  have hlen : 128 - n = 112 + k := by omega
  rw [In, hlen, pow_add, ← Nat.div_div_eq_div_mul, ← Nat.div_div_eq_div_mul, toNat_div, toNat_div,
    ← UInt16.toNat_inj, toNat_and_mask hnk hmask]
  constructor
  · intro h
    rw [← h, Nat.mul_div_cancel _ (by positivity)]
  · intro h
    rw [h, hs]

/-! ## Texts -/

def Ipv4Addr.display (x : Ipv4Addr) : String :=
  ".".intercalate ([x.a, x.b, x.c, x.d].map fun o => Nat.repr o.toNat)

def hex (s : UInt16) : String := String.ofList (Nat.toDigits 16 s.toNat)

/-- How many segments from here on are zero. -/
def zeros (segments : List UInt16) : Nat := (segments.takeWhile (· = 0)).length

/-- The first of the longest runs of zeros. -/
def longestZeros (segments : List UInt16) : Nat :=
  (List.range segments.length).foldl
    (fun best i => if zeros (segments.drop best) < zeros (segments.drop i) then i else best) 0

def Ipv6Addr.display (x : Ipv6Addr) : String :=
  match x.toIpv4Mapped with
  | some low => "::ffff:" ++ low.display
  | none =>
    let start := longestZeros x.segments
    let len := zeros (x.segments.drop start)
    if len > 1 then
      ":".intercalate ((x.segments.take start).map hex) ++ "::" ++
        ":".intercalate ((x.segments.drop (start + len)).map hex)
    else ":".intercalate (x.segments.map hex)

def IpAddr.display : IpAddr → String
  | .v4 x => x.display
  | .v6 x => x.display

/-- Up to three digits, without a zero in front. -/
def parseOctet (text : List Char) : Option UInt8 :=
  if text = [] ∨ 3 < text.length ∨ ¬ text.all Char.isDigit ∨ text.head? = some '0' ∧ 1 < text.length then
    none
  else
    let n := text.foldl (fun n c => n * 10 + (c.toNat - '0'.toNat)) 0
    if n < 256 then some (UInt8.ofNat n) else none

def parseV4 (text : List Char) : Option Ipv4Addr :=
  match text.splitOn '.' with
  | [a, b, c, d] => do return ⟨← parseOctet a, ← parseOctet b, ← parseOctet c, ← parseOctet d⟩
  | _ => none

def hexDigit (c : Char) : Option Nat :=
  if c.isDigit then some (c.toNat - '0'.toNat)
  else if 'a' ≤ c ∧ c ≤ 'f' then some (c.toNat - 'a'.toNat + 10)
  else if 'A' ≤ c ∧ c ≤ 'F' then some (c.toNat - 'A'.toNat + 10)
  else none

def parseSegment (text : List Char) : Option UInt16 := do
  let digits ← text.mapM hexDigit
  if digits = [] ∨ 4 < digits.length then none
  else return UInt16.ofNat (digits.foldl (fun n d => n * 16 + d) 0)

/-- Segments between colons; the last may be an IPv4 address, where that is allowed. -/
def parseSegments (ipv4 : Bool) : List (List Char) → Option (List UInt16)
  | [] => some []
  | [last] =>
    match if ipv4 then parseV4 last else none with
    | some x => some
        [x.a.toUInt16 * 256 + x.b.toUInt16, x.c.toUInt16 * 256 + x.d.toUInt16]
    | none => (parseSegment last).map ([·])
  | part :: parts => do return (← parseSegment part) :: (← parseSegments ipv4 parts)

def parseGroups (ipv4 : Bool) (text : List Char) : Option (List UInt16) :=
  if text = [] then some [] else parseSegments ipv4 (text.splitOn ':')

/-- The parts in front of the first `::` and behind it. -/
def splitColons : List Char → Option (List Char × List Char)
  | ':' :: ':' :: rest => some ([], rest)
  | c :: rest => (splitColons rest).map fun p => (c :: p.1, p.2)
  | [] => none

def ofSegments : List UInt16 → Option Ipv6Addr
  | [s₀, s₁, s₂, s₃, s₄, s₅, s₆, s₇] => some ⟨s₀, s₁, s₂, s₃, s₄, s₅, s₆, s₇⟩
  | _ => none

def parseV6 (text : List Char) : Option Ipv6Addr := do
  match splitColons text with
  | none => ofSegments (← parseGroups true text)
  | some (front, back) =>
    let head ← parseGroups false front
    let tail ← parseGroups true back
    -- `::` stands for one segment or more
    if 7 < head.length + tail.length then none
    else ofSegments (head ++ List.replicate (8 - (head.length + tail.length)) 0 ++ tail)

/-- `IpAddr::from_str`. -/
def parseIpAddr (text : String) : Option IpAddr :=
  ((parseV4 text.toList).map .v4).or ((parseV6 text.toList).map .v6)

example : parseIpAddr "::ffff:7f00:1" = parseIpAddr "::ffff:127.0.0.1" := by decide +kernel

end Net
