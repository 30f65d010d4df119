import Mathlib.Data.List.Basic
/-!
# Text as bytes

The UTF-8 bytes of a text are those of its characters, one after another (`bytes_eq_flatMap`). Bytes
below 128 are characters of their own: a text whose bytes all are has only such characters
(`ascii_of_bytes`), and is then read byte for byte (`bytes_of_ascii`).
-/
namespace Ascii

/-- `str::as_bytes`. -/
def bytes (s : String) : List UInt8 := s.toUTF8.data.toList

theorem bytes_eq_flatMap (s : String) : bytes s = s.toList.flatMap String.utf8EncodeChar := by
  rw [bytes, String.toUTF8_eq_toByteArray, ← String.utf8Encode_toList, List.utf8Encode,
    List.data_toByteArray, List.toList_toArray]

theorem length_bytes (s : String) : (bytes s).length = s.utf8ByteSize := rfl

theorem size_cons (c : Char) (cs : List Char) :
    (String.ofList (c :: cs)).utf8ByteSize = c.utf8Size + (String.ofList cs).utf8ByteSize := by
  rw [← length_bytes, ← length_bytes, bytes_eq_flatMap, bytes_eq_flatMap, String.toList_ofList,
    String.toList_ofList, List.flatMap_cons, List.length_append, String.length_utf8EncodeChar]

theorem encode_of_ascii {c : Char} (h : c.toNat < 128) :
    String.utf8EncodeChar c = [UInt8.ofNat c.toNat] := by
  have hsize : c.utf8Size = 1 := by
    refine Char.utf8Size_eq_one_iff.2 (UInt32.le_iff_toNat_le.2 ?_)
    show c.toNat ≤ 127
    omega
  rw [String.utf8EncodeChar_eq_singleton hsize]
  rfl

/-- The first byte of a longer character is 192 or more. -/
theorem ascii_of_encode {c : Char} (h : ∀ b ∈ String.utf8EncodeChar c, b.toNat < 128) :
    c.toNat < 128 := by
  by_contra hc
  have hbig : ¬ c.val.toNat ≤ 127 := fun hle => hc (Nat.lt_succ_of_le hle)
  unfold String.utf8EncodeChar at h
  simp only [hbig, if_false] at h
  split at h
  · have hb := h _ List.mem_cons_self
    simp at hb
    omega
  · split at h
    · have hb := h _ List.mem_cons_self
      simp at hb
      omega
    · have hb := h _ List.mem_cons_self
      simp at hb
      omega

theorem ascii_of_bytes {s : String} (h : ∀ b ∈ bytes s, b.toNat < 128) :
    ∀ c ∈ s.toList, c.toNat < 128 := by
  rw [bytes_eq_flatMap] at h
  exact fun c hc => ascii_of_encode fun b hb => h b (List.mem_flatMap.2 ⟨c, hc, hb⟩)

theorem bytes_of_ascii {s : String} (h : ∀ c ∈ s.toList, c.toNat < 128) :
    bytes s = s.toList.map fun c => UInt8.ofNat c.toNat := by
  rw [bytes_eq_flatMap, List.map_eq_flatMap]
  exact List.flatMap_congr fun c hc => encode_of_ascii (h c hc)

end Ascii
