import CacosPds.Lib.Numerals
import Mathlib.Data.List.Basic
/-!
# DAG-CBOR

The part of CBOR that the IPLD data model uses, without floats: every item has one form, with the
shortest head and with definite lengths, and links are tag 42 around the bytes of a CID. A reader takes
one item off the front of a byte list. It reads what `encode` writes, whatever follows
(`next_encode`), so items may stand one behind the other.

Maps are lists of entries and keep their order; writers that sort the keys have to be given sorted
entries.
-/
namespace DagCbor

/-- A reader of a prefix. -/
abbrev Reader (α : Type) := List UInt8 → Option (α × List UInt8)

/-! ## Fixed lengths -/

def take (n : Nat) : Reader (List UInt8) := fun bs =>
  if n ≤ bs.length then some (bs.take n, bs.drop n) else none

theorem take_append {n : Nat} {bs : List UInt8} (h : bs.length = n) (rest : List UInt8) :
    take n (bs ++ rest) = some (bs, rest) := by
  subst h
  rw [take, if_pos (by rw [List.length_append]; exact Nat.le_add_right _ _), List.take_left,
    List.drop_left]

theorem pos_256 : 0 < 256 := by decide

/-- A number in `k` bytes. -/
def bigEndian (k n : Nat) : List UInt8 := (Numerals.digits pos_256 k n).map UInt8.ofFin

def number (bs : List UInt8) : Nat := Numerals.value (bs.map UInt8.toFin)

theorem length_bigEndian (k n : Nat) : (bigEndian k n).length = k := by
  rw [bigEndian, List.length_map, Numerals.length_digits]

theorem number_bigEndian {k n : Nat} (h : n < 256 ^ k) : number (bigEndian k n) = n := by
  have hsame : ((Numerals.digits pos_256 k n).map UInt8.ofFin).map UInt8.toFin =
      Numerals.digits pos_256 k n := by
    rw [List.map_map]
    exact List.map_id _
  rw [number, bigEndian, hsame, Numerals.value_digits, Nat.mod_eq_of_lt h]

/-! ## Heads -/

/-- The first byte of an item: its major type and five bits of information. -/
def lead (major info : Nat) : UInt8 := UInt8.ofNat (major * 32 + info)

theorem lead_div {major info : Nat} (hm : major < 8) (hi : info < 32) :
    (lead major info).toNat / 32 = major ∧ (lead major info).toNat % 32 = info := by
  have hlt : major * 32 + info < 256 := by omega
  rw [lead, UInt8.toNat_ofNat', Nat.mod_eq_of_lt hlt]
  omega

/-- The forms of a longer head: its information, the bytes of its argument, and the least argument that
has this form. -/
inductive Long : Nat → Nat → Nat → Prop where
  | one : Long 24 1 24
  | two : Long 25 2 (2 ^ 8)
  | four : Long 26 4 (2 ^ 16)
  | eight : Long 27 8 (2 ^ 32)

/-- The bytes of the argument, and the least one. -/
def long (info : Nat) : Option (Nat × Nat) :=
  if info = 24 then some (1, 24)
  else if info = 25 then some (2, 2 ^ 8)
  else if info = 26 then some (4, 2 ^ 16)
  else if info = 27 then some (8, 2 ^ 32)
  else none

def head (major arg : Nat) : List UInt8 :=
  if arg < 24 then [lead major arg]
  else if arg < 2 ^ 8 then lead major 24 :: bigEndian 1 arg
  else if arg < 2 ^ 16 then lead major 25 :: bigEndian 2 arg
  else if arg < 2 ^ 32 then lead major 26 :: bigEndian 4 arg
  else lead major 27 :: bigEndian 8 arg

def readHead : Reader (Nat × Nat)
  | [] => none
  | b :: bs =>
    if b.toNat % 32 < 24 then some ((b.toNat / 32, b.toNat % 32), bs)
    else
      match long (b.toNat % 32) with
      | none => none
      | some (k, least) =>
        match take k bs with
        | none => none
        | some (arg, rest) =>
          if least ≤ number arg then some ((b.toNat / 32, number arg), rest) else none

theorem long_of_long {info k least : Nat} (h : Long info k least) : long info = some (k, least) := by
  cases h <;> rfl

theorem Long.info_lt {info k least : Nat} (h : Long info k least) : info < 32 ∧ 24 ≤ info := by
  cases h <;> decide

theorem head_long {info k least major arg : Nat} (h : Long info k least) (hleast : least ≤ arg)
    (hlt : arg < 256 ^ k) : head major arg = lead major info :: bigEndian k arg := by
  unfold head
  cases h with
  | one => rw [if_neg (by omega), if_pos (by omega)]
  | two => rw [if_neg (by omega), if_neg (by omega), if_pos (by omega)]
  | four => rw [if_neg (by omega), if_neg (by omega), if_neg (by omega), if_pos (by omega)]
  | eight => rw [if_neg (by omega), if_neg (by omega), if_neg (by omega), if_neg (by omega)]

/-- Every argument of 64 bits is short, or has one of the longer forms. -/
theorem short_or_long {arg : Nat} (h : arg < 2 ^ 64) :
    arg < 24 ∨ ∃ info k least, Long info k least ∧ least ≤ arg ∧ arg < 256 ^ k := by
  by_cases h24 : arg < 24
  · exact .inl h24
  by_cases h8 : arg < 2 ^ 8
  · exact .inr ⟨_, _, _, .one, by omega, by omega⟩
  by_cases h16 : arg < 2 ^ 16
  · exact .inr ⟨_, _, _, .two, by omega, by omega⟩
  by_cases h32 : arg < 2 ^ 32
  · exact .inr ⟨_, _, _, .four, by omega, by omega⟩
  · exact .inr ⟨_, _, _, .eight, by omega, by omega⟩

theorem readHead_head {major arg : Nat} (hm : major < 8) (harg : arg < 2 ^ 64) (rest : List UInt8) :
    readHead (head major arg ++ rest) = some ((major, arg), rest) := by
  rcases short_or_long harg with hshort | ⟨info, k, least, hlong, hleast, hlt⟩
  · obtain ⟨hdiv, hmod⟩ := lead_div hm (Nat.lt_trans hshort (by decide))
    rw [head, if_pos hshort, List.singleton_append, readHead, hdiv, hmod, if_pos hshort]
  · obtain ⟨hinfo, hge⟩ := hlong.info_lt
    obtain ⟨hdiv, hmod⟩ := lead_div hm hinfo
    rw [head_long hlong hleast hlt, List.cons_append, readHead, hdiv, hmod,
      if_neg (Nat.not_lt.2 hge), long_of_long hlong]
    dsimp only
    rw [take_append (length_bigEndian k arg)]
    dsimp only
    rw [number_bigEndian hlt, if_pos hleast]

/-! ## Texts -/

def utf8 (s : String) : List UInt8 := s.toByteArray.data.toList

def readUtf8 (bs : List UInt8) : Option String := String.fromUTF8? ⟨bs.toArray⟩

theorem readUtf8_utf8 (s : String) : readUtf8 (utf8 s) = some s := by
  rw [readUtf8, utf8, Array.toArray_toList, String.fromUTF8?, dif_pos s.isValidUTF8]
  rfl

/-! ## Repetition -/

/-- `n` items in a row. -/
def many {α : Type} (p : Reader α) : Nat → Reader (List α)
  | 0, bs => some ([], bs)
  | n + 1, bs =>
    match p bs with
    | none => none
    | some (a, rest) => (many p n rest).map fun r => (a :: r.1, r.2)

theorem many_flatMap {α : Type} {p : Reader α} {e : α → List UInt8} {as : List α}
    (h : ∀ a ∈ as, ∀ rest, p (e a ++ rest) = some (a, rest)) (rest : List UInt8) :
    many p as.length (as.flatMap e ++ rest) = some (as, rest) := by
  induction as with
  | nil => rfl
  | cons a as ih =>
    obtain ⟨ha, has⟩ := List.forall_mem_cons.1 h
    rw [List.flatMap_cons, List.append_assoc, List.length_cons, many, ha]
    dsimp only
    rw [ih has]
    rfl

/-! ## Items -/

inductive Value where
  | null
  | bool (b : Bool)
  | int (n : Int)
  | bytes (bs : List UInt8)
  | string (s : String)
  | link (cid : List UInt8)
  | list (l : List Value)
  | map (entries : List (String × Value))

def encodeString (s : String) : List UInt8 := head 3 (utf8 s).length ++ utf8 s

mutual

def encode : Value → List UInt8
  | .null => head 7 22
  | .bool b => head 7 (if b then 21 else 20)
  | .int (.ofNat n) => head 0 n
  | .int (.negSucc n) => head 1 n
  | .bytes bs => head 2 bs.length ++ bs
  | .string s => encodeString s
  | .link cid => head 6 42 ++ (head 2 (cid.length + 1) ++ 0 :: cid)
  | .list l => head 4 l.length ++ encodeAll l
  | .map entries => head 5 entries.length ++ encodeEntries entries

def encodeAll : List Value → List UInt8
  | [] => []
  | v :: vs => encode v ++ encodeAll vs

def encodeEntries : List (String × Value) → List UInt8
  | [] => []
  | (key, v) :: entries => encodeString key ++ encode v ++ encodeEntries entries

end

/-- The text of a string whose head has been read. -/
def textBody (n : Nat) : Reader String := fun bs =>
  match take n bs with
  | none => none
  | some (text, rest) => (readUtf8 text).map (·, rest)

def readString : Reader String := fun bs =>
  match readHead bs with
  | none => none
  | some ((major, n), rest) => if major = 3 then textBody n rest else none

/-- The bytes of a CID behind its tag. -/
def readLink : Reader (List UInt8) := fun bs =>
  match readHead bs with
  | none => none
  | some ((major, n), rest) =>
    if major = 2 then
      match take n rest with
      | some (0 :: cid, rest) => some (cid, rest)
      | _ => none
    else none

def simple : Nat → Option Value
  | 20 => some (.bool false)
  | 21 => some (.bool true)
  | 22 => some .null
  | _ => none

def entry (p : Reader Value) : Reader (String × Value) := fun bs =>
  match readString bs with
  | none => none
  | some (key, rest) => (p rest).map fun r => ((key, r.1), r.2)

/-- What follows a head. -/
def body (p : Reader Value) (major n : Nat) : Reader Value := fun bs =>
  match major with
  | 0 => some (.int n, bs)
  | 1 => some (.int (Int.negSucc n), bs)
  | 2 => (take n bs).map fun r => (.bytes r.1, r.2)
  | 3 => (textBody n bs).map fun r => (.string r.1, r.2)
  | 4 => (many p n bs).map fun r => (.list r.1, r.2)
  | 5 => (many (entry p) n bs).map fun r => (.map r.1, r.2)
  | 6 => if n = 42 then (readLink bs).map fun r => (.link r.1, r.2) else none
  | 7 => (simple n).map (·, bs)
  | _ => none

/-- One item, of at most the given depth. -/
def item : Nat → Reader Value
  | 0, _ => none
  | depth + 1, bs =>
    match readHead bs with
    | none => none
    | some ((major, n), rest) => body (item depth) major n rest

/-- What the heads can count. -/
inductive Fits : Value → Prop where
  | null : Fits .null
  | bool (b : Bool) : Fits (.bool b)
  | nat {n : Nat} (h : n < 2 ^ 64) : Fits (.int n)
  | neg {n : Nat} (h : n < 2 ^ 64) : Fits (.int (Int.negSucc n))
  | bytes {bs : List UInt8} (h : bs.length < 2 ^ 64) : Fits (.bytes bs)
  | string {s : String} (h : (utf8 s).length < 2 ^ 64) : Fits (.string s)
  | link {cid : List UInt8} (h : cid.length + 1 < 2 ^ 64) : Fits (.link cid)
  | list {l : List Value} (h : l.length < 2 ^ 64) (hall : ∀ v ∈ l, Fits v) : Fits (.list l)
  | map {entries : List (String × Value)} (h : entries.length < 2 ^ 64)
      (hkeys : ∀ e ∈ entries, (utf8 e.1).length < 2 ^ 64) (hall : ∀ e ∈ entries, Fits e.2) :
      Fits (.map entries)

theorem encodeAll_eq (l : List Value) : encodeAll l = l.flatMap encode := by
  induction l with
  | nil => rfl
  | cons v vs ih => rw [encodeAll, ih, List.flatMap_cons]

def encodeEntry (e : String × Value) : List UInt8 := encodeString e.1 ++ encode e.2

theorem encodeEntries_eq (entries : List (String × Value)) :
    encodeEntries entries = entries.flatMap encodeEntry := by
  induction entries with
  | nil => rfl
  | cons e entries ih =>
    obtain ⟨key, v⟩ := e
    rw [encodeEntries, ih, List.flatMap_cons]
    rfl

/-! ## Round trips -/

theorem textBody_utf8 (s : String) (rest : List UInt8) :
    textBody (utf8 s).length (utf8 s ++ rest) = some (s, rest) := by
  rw [textBody, take_append rfl]
  dsimp only
  rw [readUtf8_utf8]
  rfl

theorem readString_encodeString {s : String} (h : (utf8 s).length < 2 ^ 64) (rest : List UInt8) :
    readString (encodeString s ++ rest) = some (s, rest) := by
  rw [readString, encodeString, List.append_assoc, readHead_head (by decide) h]
  exact textBody_utf8 s rest

theorem entry_encodeEntry {p : Reader Value} {e : String × Value} (hkey : (utf8 e.1).length < 2 ^ 64)
    (h : ∀ rest, p (encode e.2 ++ rest) = some (e.2, rest)) (rest : List UInt8) :
    entry p (encodeEntry e ++ rest) = some (e, rest) := by
  rw [entry, encodeEntry, List.append_assoc, readString_encodeString hkey]
  dsimp only
  rw [h]
  rfl

theorem readLink_encode {cid : List UInt8} (h : cid.length + 1 < 2 ^ 64) (rest : List UInt8) :
    readLink (head 2 (cid.length + 1) ++ 0 :: cid ++ rest) = some (cid, rest) := by
  rw [readLink, List.append_assoc, readHead_head (by decide) h]
  dsimp only
  rw [if_pos rfl, take_append (List.length_cons ..)]
  rfl

theorem length_le_flatMap {α : Type} {e : α → List UInt8} {a : α} {as : List α} (h : a ∈ as) :
    (e a).length ≤ (as.flatMap e).length := by
  obtain ⟨front, back, rfl⟩ := List.append_of_mem h
  rw [List.flatMap_append, List.flatMap_cons, List.length_append, List.length_append]
  omega

theorem head_ne_nil (major arg : Nat) : 1 ≤ (head major arg).length := by
  unfold head
  repeat' split
  all_goals exact Nat.succ_le_succ (Nat.zero_le _)

theorem item_of_head {depth major n : Nat} {tail : List UInt8} (hm : major < 8) (hn : n < 2 ^ 64) :
    item (depth + 1) (head major n ++ tail) = body (item depth) major n tail := by
  rw [item, readHead_head hm hn]

/-- One item, if the reader of smaller items reads those. -/
theorem item_step {depth : Nat} {v : Value} (h : Fits v)
    (hsub : ∀ w, Fits w → (encode w).length < (encode v).length →
      ∀ rest, item depth (encode w ++ rest) = some (w, rest)) (rest : List UInt8) :
    item (depth + 1) (encode v ++ rest) = some (v, rest) := by
  cases h with
  | null => exact item_of_head (by decide) (by decide)
  | bool b => cases b <;> exact item_of_head (by decide) (by decide)
  | nat h => exact item_of_head (by decide) h
  | neg h => exact item_of_head (by decide) h
  | bytes h =>
    rw [encode, List.append_assoc, item_of_head (by decide) h, body, take_append rfl]
    rfl
  | string h =>
    rw [encode, encodeString, List.append_assoc, item_of_head (by decide) h, body, textBody_utf8]
    rfl
  | link h =>
    rw [encode, List.append_assoc, item_of_head (by decide) (by decide), body, if_pos rfl,
      readLink_encode h]
    rfl
  | @list l h hall =>
    have hitems : ∀ w ∈ l, ∀ rest, item depth (encode w ++ rest) = some (w, rest) := by
      intro w hw
      refine hsub w (hall w hw) ?_
      have hle := length_le_flatMap (e := encode) hw
      have hhead := head_ne_nil 4 l.length
      rw [encode, List.length_append, encodeAll_eq]
      omega
    rw [encode, List.append_assoc, item_of_head (by decide) h, encodeAll_eq, body,
      many_flatMap hitems]
    rfl
  | @map entries h hkeys hall =>
    have hitems : ∀ e ∈ entries, ∀ rest,
        entry (item depth) (encodeEntry e ++ rest) = some (e, rest) := by
      intro e he
      refine entry_encodeEntry (hkeys e he) (hsub e.2 (hall e he) ?_)
      have hle := length_le_flatMap (e := encodeEntry) he
      have hhead := head_ne_nil 5 entries.length
      rw [encodeEntry, List.length_append] at hle
      rw [encode, List.length_append, encodeEntries_eq]
      omega
    rw [encode, List.append_assoc, item_of_head (by decide) h, encodeEntries_eq, body,
      many_flatMap hitems]
    rfl

theorem encode_ne_nil (v : Value) : 1 ≤ (encode v).length := by
  have hfront : ∀ major n tail, 1 ≤ (head major n ++ tail).length := by
    intro major n tail
    have hhead := head_ne_nil major n
    rw [List.length_append]
    omega
  cases v with
  | null => exact head_ne_nil _ _
  | bool b => exact head_ne_nil _ _
  | int n => cases n <;> exact head_ne_nil _ _
  | bytes bs => exact hfront _ _ _
  | string s => exact hfront _ _ _
  | link cid => exact hfront _ _ _
  | list l => exact hfront _ _ _
  | map entries => exact hfront _ _ _

/-- **An item is read back, whatever follows it.** -/
theorem item_encode {v : Value} (h : Fits v) {depth : Nat} (hdepth : (encode v).length ≤ depth)
    (rest : List UInt8) : item depth (encode v ++ rest) = some (v, rest) := by
  induction depth generalizing v rest with
  | zero => exact absurd hdepth (Nat.not_le.2 (encode_ne_nil v))
  | succ d ih =>
    refine item_step h (fun w hw hlt rest => ih hw ?_ rest) rest
    omega

/-- An item and what follows it. -/
def next : Reader Value := fun bs => item bs.length bs

theorem next_encode {v : Value} (h : Fits v) (rest : List UInt8) :
    next (encode v ++ rest) = some (v, rest) := by
  refine item_encode h ?_ rest
  rw [List.length_append]
  omega

/-! ## What can be written -/

mutual

/-- `Fits`, to be computed. -/
def fits : Value → Bool
  | .null | .bool _ => true
  | .int (.ofNat n) | .int (.negSucc n) => n < 2 ^ 64
  | .bytes bs => bs.length < 2 ^ 64
  | .string s => (utf8 s).length < 2 ^ 64
  | .link cid => cid.length + 1 < 2 ^ 64
  | .list l => l.length < 2 ^ 64 && fitsAll l
  | .map entries => entries.length < 2 ^ 64 && fitsEntries entries

def fitsAll : List Value → Bool
  | [] => true
  | v :: vs => fits v && fitsAll vs

def fitsEntries : List (String × Value) → Bool
  | [] => true
  | (key, v) :: entries => (utf8 key).length < 2 ^ 64 && fits v && fitsEntries entries

end

mutual

theorem fits_of_fits : ∀ v, fits v = true → Fits v
  | .null, _ => .null
  | .bool b, _ => .bool b
  | .int (.ofNat _), h => .nat (of_decide_eq_true h)
  | .int (.negSucc _), h => .neg (of_decide_eq_true h)
  | .bytes _, h => .bytes (of_decide_eq_true h)
  | .string _, h => .string (of_decide_eq_true h)
  | .link _, h => .link (of_decide_eq_true h)
  | .list l, h =>
    have hand := (Bool.and_eq_true_iff ..).1 h
    .list (of_decide_eq_true hand.1) (fits_of_fitsAll l hand.2)
  | .map entries, h =>
    have hand := (Bool.and_eq_true_iff ..).1 h
    have hall := fits_of_fitsEntries entries hand.2
    .map (of_decide_eq_true hand.1) (fun e he => (hall e he).1) fun e he => (hall e he).2

theorem fits_of_fitsAll : ∀ l, fitsAll l = true → ∀ v ∈ l, Fits v
  | [], _ => List.forall_mem_nil _
  | v :: vs, h =>
    have hand := (Bool.and_eq_true_iff ..).1 h
    List.forall_mem_cons.2 ⟨fits_of_fits v hand.1, fits_of_fitsAll vs hand.2⟩

theorem fits_of_fitsEntries : ∀ entries, fitsEntries entries = true →
    ∀ e ∈ entries, (utf8 e.1).length < 2 ^ 64 ∧ Fits e.2
  | [], _ => List.forall_mem_nil _
  | (_, v) :: entries, h =>
    have hand := (Bool.and_eq_true_iff ..).1 h
    have hhead := (Bool.and_eq_true_iff ..).1 hand.1
    List.forall_mem_cons.2
      ⟨⟨of_decide_eq_true hhead.1, fits_of_fits v hhead.2⟩, fits_of_fitsEntries entries hand.2⟩

end

/-- A writer that refuses what does not fit. -/
def toVec (v : Value) : Except String (List UInt8) :=
  if fits v then .ok (encode v) else .error "out of range"

theorem next_toVec {v : Value} {bytes : List UInt8} (h : toVec v = .ok bytes) (rest : List UInt8) :
    next (bytes ++ rest) = some (v, rest) := by
  unfold toVec at h
  split at h
  · cases h
    exact next_encode (fits_of_fits v ‹_›) rest
  · cases h

/-! ## Sorted maps -/

/-- The order of keys: the shorter first, then byte by byte. -/
def KeyLt (a b : String) : Prop :=
  (utf8 a).length < (utf8 b).length ∨ (utf8 a).length = (utf8 b).length ∧ utf8 a < utf8 b

/-- The keys of every map are sorted and none comes twice. -/
inductive Ordered : Value → Prop where
  | null : Ordered .null
  | bool (b : Bool) : Ordered (.bool b)
  | int (n : Int) : Ordered (.int n)
  | bytes (bs : List UInt8) : Ordered (.bytes bs)
  | string (s : String) : Ordered (.string s)
  | link (cid : List UInt8) : Ordered (.link cid)
  | list {l : List Value} (hall : ∀ v ∈ l, Ordered v) : Ordered (.list l)
  | map {entries : List (String × Value)} (hkeys : entries.Pairwise fun a b => KeyLt a.1 b.1)
      (hall : ∀ e ∈ entries, Ordered e.2) : Ordered (.map entries)

end DagCbor
