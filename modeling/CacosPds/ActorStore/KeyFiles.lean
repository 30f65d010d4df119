import CacosPds.Lib.Run
/-!
# Key files (`cacos-pds-actor-store/src/mod.rs:104-124, 206-248, 493-524`)

| here | there |
| --- | --- |
| `Keys`     | secp256k1 and `encode_did_key`; `importKeypair` is `import_keypair` |
| `loadKey`  | `load_key`: no file, a key, or bytes that are none |
| `Phase`    | where a call of `create_rotation_keypair(did)` or `reserve_keypair(Some(did))` is |
| `Act`      | its file-system steps: the read, `create_dir_all`, `File::create`, each `write` of `write_all` |

Both operations read one file, generate a key if there is none, and write the file; the calls for one
`did` share it and nothing else. `tokio::fs::write` truncates what is there: a call that has found no
file writes over the key another call has handed out since.
-/
namespace CacosPds.ActorStore.KeyFiles

open Runs

variable {κ : Type}

structure Keys (κ : Type) where
  importKeypair : List UInt8 → Option κ
  secretBytes : κ → List UInt8
  encodeDidKey : κ → String
  /-- `SecretKey::from_slice` takes 32 bytes. -/
  length_of_import : ∀ {bytes k}, importKeypair bytes = some k → bytes.length = 32
  length_secretBytes : ∀ k, (secretBytes k).length = 32
  import_secretBytes : ∀ k, importKeypair (secretBytes k) = some k

inductive Operation where
  | createRotationKeypair
  | reserveKeypair

/-- What the operation returns for a key. -/
inductive Answer (κ : Type) where
  | keypair (k : κ)
  | didKey (s : String)
  deriving DecidableEq

def Operation.answer (K : Keys κ) : Operation → κ → Answer κ
  | .createRotationKeypair, k => .keypair k
  | .reserveKeypair, k => .didKey (K.encodeDidKey k)

inductive Loaded (κ : Type) where
  | notFound
  | key (k : κ)
  | invalid

def loadKey (K : Keys κ) : Option (List UInt8) → Loaded κ
  | none => .notFound
  | some bytes =>
    match K.importKeypair bytes with
    | some k => .key k
    | none => .invalid

inductive Phase (κ : Type) where
  | called
  /-- `load_key` has found no file. -/
  | missed
  | generated (k : κ)
  /-- Behind `create_dir_all`. -/
  | ready (k : κ)
  /-- Behind `File::create`, with so many bytes written. -/
  | writing (k : κ) (written : Nat)
  | done (k : κ)
  | failed
  deriving DecidableEq

/-- The file at the operation's path, and the calls. -/
structure Store (κ : Type) where
  file : Option (List UInt8)
  calls : List (Phase κ)
  deriving DecidableEq

def Store.start (file : Option (List UInt8)) (calls : Nat) : Store κ :=
  ⟨file, List.replicate calls .called⟩

inductive Act (κ : Type) where
  | load (i : Nat)
  | generate (i : Nat) (k : κ)
  | createDir (i : Nat)
  | createFile (i : Nat)
  /-- One `write` of at most `n` bytes. -/
  | write (i : Nat) (n : Nat)
  /-- The file-system step the call is at fails. -/
  | fail (i : Nat)

/-- What the file holds after a write at an offset; a gap is filled with zeros. -/
def overwrite (content : List UInt8) (offset : Nat) (chunk : List UInt8) : List UInt8 :=
  content.take offset ++ List.replicate (offset - content.length) 0 ++ chunk ++
    content.drop (offset + chunk.length)

/-- What `load_key` makes of the call. -/
def Loaded.phase : Loaded κ → Phase κ
  | .notFound => .missed
  | .key k => .done k
  | .invalid => .failed

/-- Whether the call is at a file-system step, which may fail. -/
def Phase.canFail : Phase κ → Bool
  | .called | .generated _ | .ready _ | .writing .. => true
  | _ => false

def step (K : Keys κ) (s : Store κ) : Act κ → Option (Store κ)
  | .load i =>
    match s.calls[i]? with
    | some .called => some { s with calls := s.calls.set i (loadKey K s.file).phase }
    | _ => none
  | .generate i k =>
    match s.calls[i]? with
    | some .missed => some { s with calls := s.calls.set i (.generated k) }
    | _ => none
  | .createDir i =>
    match s.calls[i]? with
    | some (.generated k) => some { s with calls := s.calls.set i (.ready k) }
    | _ => none
  | .createFile i =>
    match s.calls[i]? with
    | some (.ready k) => some ⟨some [], s.calls.set i (.writing k 0)⟩
    | _ => none
  | .write i n =>
    match s.calls[i]? with
    | some (.writing k written) =>
      let chunk := ((K.secretBytes k).drop written).take n
      if chunk = [] then none
      else some ⟨some (overwrite (s.file.getD []) written chunk), s.calls.set i
        (if written + chunk.length = 32 then .done k else .writing k (written + chunk.length))⟩
    | _ => none
  | .fail i =>
    match s.calls[i]? with
    | some p => if p.canFail then some { s with calls := s.calls.set i .failed } else none
    | none => none

def Phase.returned : Phase κ → Bool
  | .done _ | .failed => true
  | _ => false

/-- The calls that have succeeded agree, and once all have returned the file holds what they agree on. -/
structure Idempotent (K : Keys κ) (op : Operation) (s : Store κ) : Prop where
  agree : ∀ (i j : Nat) (k k' : κ), s.calls[i]? = some (.done k) → s.calls[j]? = some (.done k') →
    op.answer K k = op.answer K k'
  stored : (∀ p ∈ s.calls, p.returned) → ∀ (i : Nat) (k : κ), s.calls[i]? = some (.done k) →
    ∃ k', loadKey K s.file = .key k' ∧ op.answer K k' = op.answer K k

/-- No call creates the file when another has done so since its read. -/
def CreatesNew (s : Store κ) : Act κ → Prop
  | .createFile _ => s.file = none
  | _ => True

instance (s : Store κ) (a : Act κ) : Decidable (CreatesNew s a) := by
  unfold CreatesNew
  split <;> infer_instance

/-! ## One writer -/

/-- The file is the key of every call that has succeeded, or what the one writer has written. -/
structure Inv (K : Keys κ) (s : Store κ) : Prop where
  done : ∀ (i : Nat) (k : κ), s.calls[i]? = some (.done k) → loadKey K s.file = .key k
  writing : ∀ (i : Nat) (k : κ) (n : Nat), s.calls[i]? = some (.writing k n) →
    n < 32 ∧ s.file = some ((K.secretBytes k).take n)
  one : ∀ (i j : Nat) (k k' : κ) (n n' : Nat), s.calls[i]? = some (.writing k n) →
    s.calls[j]? = some (.writing k' n') → i = j

variable {K : Keys κ} {s t : Store κ} {i : Nat}

theorem inv_start (K : Keys κ) (file : Option (List UInt8)) (calls : Nat) :
    Inv K (Store.start file calls) := by
  have hcalled : ∀ (i : Nat) (p : Phase κ),
      (List.replicate calls Phase.called)[i]? = some p → p = .called := by
    intro i p h
    exact List.eq_of_mem_replicate (List.mem_of_getElem? h)
  constructor
  · intro i k h
    cases hcalled i _ h
  · intro i k n h
    cases hcalled i _ h
  · intro i j k k' n n' h
    cases hcalled i _ h

/-- Fewer than 32 bytes are no key. -/
theorem loadKey_of_short {bytes : List UInt8} (h : bytes.length ≠ 32) (k : κ) :
    loadKey K (some bytes) ≠ .key k := by
  cases himp : K.importKeypair bytes with
  | none => simp [loadKey, himp]
  | some k' => exact absurd (K.length_of_import himp) h

theorem Inv.not_writing (h : Inv K s) {k : κ} {n : Nat} (hi : s.calls[i]? = some (.writing k n))
    (j : Nat) (k' : κ) : s.calls[j]? ≠ some (.done k') := by
  intro hj
  obtain ⟨hn, hfile⟩ := h.writing i k n hi
  have hshort : ((K.secretBytes k).take n).length ≠ 32 := by
    rw [List.length_take, K.length_secretBytes]
    omega
  exact loadKey_of_short hshort k' (hfile ▸ h.done j k' hj)

theorem overwrite_take {bytes : List UInt8} {n m : Nat} (hn : n ≤ bytes.length) :
    overwrite (bytes.take n) n ((bytes.drop n).take m) = bytes.take (n + m) := by
  have hlen : (bytes.take n).length = n := by
    rw [List.length_take]
    omega
  have hrest : (bytes.take n).drop (n + ((bytes.drop n).take m).length) = [] :=
    List.drop_eq_nil_of_le (by omega)
  unfold overwrite
  rw [hrest, hlen, Nat.sub_self, List.replicate_zero, List.append_nil, List.append_nil,
    List.take_take, Nat.min_self, List.take_add]

/-- A call that is neither writing nor done takes nothing from the invariant. -/
theorem Inv.set (h : Inv K s) {p : Phase κ} (hd : ∀ k, p = .done k → loadKey K s.file = .key k)
    (hw : ∀ k n, p ≠ .writing k n) : Inv K { s with calls := s.calls.set i p } := by
  constructor
  · intro j k hj
    rcases getElem?_set_eq_some hj with ⟨-, hp⟩ | ⟨-, hj'⟩
    · exact hd k hp.symm
    · exact h.done j k hj'
  · intro j k n hj
    rcases getElem?_set_eq_some hj with ⟨-, hp⟩ | ⟨-, hj'⟩
    · exact absurd hp.symm (hw k n)
    · exact h.writing j k n hj'
  · intro j j' k k' n n' hj hj'
    rcases getElem?_set_eq_some hj with ⟨-, hp⟩ | ⟨-, hj⟩
    · exact absurd hp.symm (hw k n)
    · rcases getElem?_set_eq_some hj' with ⟨-, hp⟩ | ⟨-, hj'⟩
      · exact absurd hp.symm (hw k' n')
      · exact h.one j j' k k' n n' hj hj'

/-- With no file there is neither a writer nor a success. -/
theorem Inv.create (h : Inv K s) (hfile : s.file = none) (k : κ) :
    Inv K ⟨some [], s.calls.set i (.writing k 0)⟩ := by
  have hdone : ∀ (j : Nat) (k : κ), s.calls[j]? ≠ some (.done k) := by
    intro j k hj
    have := h.done j k hj
    rw [hfile] at this
    cases this
  have hwriting : ∀ (j : Nat) (k : κ) (n : Nat), s.calls[j]? ≠ some (.writing k n) := by
    intro j k n hj
    have := (h.writing j k n hj).2
    rw [hfile] at this
    cases this
  constructor
  · intro j k' hj
    rcases getElem?_set_eq_some hj with ⟨-, hp⟩ | ⟨-, hj⟩
    · cases hp
    · exact absurd hj (hdone j k')
  · intro j k' n hj
    rcases getElem?_set_eq_some hj with ⟨-, hp⟩ | ⟨-, hj⟩
    · cases hp
      exact ⟨by decide, rfl⟩
    · exact absurd hj (hwriting j k' n)
  · intro j j' k₁ k₂ n n' hj hj'
    rcases getElem?_set_eq_some hj with ⟨hij, -⟩ | ⟨-, hj⟩
    · rcases getElem?_set_eq_some hj' with ⟨hij', -⟩ | ⟨-, hj'⟩
      · exact hij.symm.trans hij'
      · exact absurd hj' (hwriting j' k₂ n')
    · exact absurd hj (hwriting j k₁ n)

/-- The writer goes on, or has written all and is done. -/
theorem Inv.write (h : Inv K s) {k : κ} {written : Nat}
    (hi : s.calls[i]? = some (.writing k written)) (n : Nat) :
    Inv K ⟨some (overwrite (s.file.getD []) written (((K.secretBytes k).drop written).take n)),
      s.calls.set i (if written + (((K.secretBytes k).drop written).take n).length = 32 then .done k
        else .writing k (written + (((K.secretBytes k).drop written).take n).length))⟩ := by
  obtain ⟨hlt, hfile⟩ := h.writing i k written hi
  have hbytes := K.length_secretBytes k
  have hchunk : (((K.secretBytes k).drop written).take n).length = min n (32 - written) := by
    rw [List.length_take, List.length_drop, hbytes]
  have hover : overwrite (s.file.getD []) written (((K.secretBytes k).drop written).take n) =
      (K.secretBytes k).take (written + min n (32 - written)) := by
    have hmin : ((K.secretBytes k).drop written).take n =
        ((K.secretBytes k).drop written).take (min n (32 - written)) := by
      rw [← hchunk, List.length_take, ← List.take_take, List.take_length]
    rw [hfile, Option.getD_some, hmin, overwrite_take (by omega)]
  rw [hover, hchunk]
  split
  · rename_i hall
    have hload : loadKey K (some ((K.secretBytes k).take (written + min n (32 - written)))) =
        .key k := by
      have hwhole : (K.secretBytes k).take (written + min n (32 - written)) = K.secretBytes k :=
        List.take_of_length_le (by omega)
      simp only [loadKey, hwhole, K.import_secretBytes]
    constructor
    · intro j k' hj
      rcases getElem?_set_eq_some hj with ⟨-, hp⟩ | ⟨-, hj⟩
      · cases hp
        exact hload
      · exact absurd hj (h.not_writing hi j k')
    · intro j k' m hj
      rcases getElem?_set_eq_some hj with ⟨-, hp⟩ | ⟨hij, hj⟩
      · cases hp
      · exact absurd (h.one i j k k' written m hi hj) hij
    · intro j j' k₁ k₂ m m' hj hj'
      rcases getElem?_set_eq_some hj with ⟨-, hp⟩ | ⟨hij, hj⟩
      · cases hp
      · exact absurd (h.one i j k k₁ written m hi hj) hij
  · constructor
    · intro j k' hj
      rcases getElem?_set_eq_some hj with ⟨-, hp⟩ | ⟨-, hj⟩
      · cases hp
      · exact absurd hj (h.not_writing hi j k')
    · intro j k' m hj
      rcases getElem?_set_eq_some hj with ⟨-, hp⟩ | ⟨hij, hj⟩
      · cases hp
        exact ⟨by omega, rfl⟩
      · exact absurd (h.one i j k k' written m hi hj) hij
    · intro j j' k₁ k₂ m m' hj hj'
      rcases getElem?_set_eq_some hj with ⟨hij, -⟩ | ⟨hij, hj⟩
      · rcases getElem?_set_eq_some hj' with ⟨hij', -⟩ | ⟨hij', hj'⟩
        · exact hij.symm.trans hij'
        · exact absurd (h.one i j' k k₂ written m' hi hj') hij'
      · exact absurd (h.one i j k k₁ written m hi hj) hij

theorem inv_step (s : Store κ) (a : Act κ) (t : Store κ) (h : Inv K s) (hnew : CreatesNew s a)
    (hstep : step K s a = some t) : Inv K t := by
  cases a with
  | load i =>
    simp only [step] at hstep
    split at hstep
    · cases hstep
      refine h.set (fun k hk => ?_) fun k n => ?_
      · cases hload : loadKey K s.file <;> rw [hload] at hk <;> cases hk
        rfl
      · cases loadKey K s.file <;> simp [Loaded.phase]
    · cases hstep
  | generate i k =>
    simp only [step] at hstep
    split at hstep
    · cases hstep
      exact h.set (fun k hk => by cases hk) fun k n => by simp
    · cases hstep
  | createDir i =>
    simp only [step] at hstep
    split at hstep
    · cases hstep
      exact h.set (fun k hk => by cases hk) fun k n => by simp
    · cases hstep
  | createFile i =>
    simp only [step] at hstep
    split at hstep
    · cases hstep
      exact h.create hnew _
    · cases hstep
  | write i n =>
    simp only [step] at hstep
    split at hstep
    · rename_i hi
      split at hstep
      · cases hstep
      · cases hstep
        exact h.write hi n
    · cases hstep
  | fail i =>
    simp only [step] at hstep
    split at hstep
    · split at hstep
      · cases hstep
        exact h.set (fun k hk => by cases hk) fun k n => by simp
      · cases hstep
    · cases hstep

theorem idempotent_of_inv (op : Operation) (h : Inv K s) : Idempotent K op s := by
  constructor
  · intro i j k k' hi hj
    have hk := h.done i k hi
    rw [h.done j k' hj] at hk
    cases hk
    rfl
  · exact fun _ i k hi => ⟨k, h.done i k hi, rfl⟩

/-- **Where no call creates a file that another has created since, all calls agree.** -/
theorem idempotent_of_createsNew (K : Keys κ) (op : Operation) (file : Option (List UInt8))
    (calls : Nat) (as : List (Act κ)) (h : Along (step K) CreatesNew (Store.start file calls) as) :
    Always (step K) (Idempotent K op) (Store.start file calls) as :=
  (always_of_along inv_step (inv_start K file calls) as h).mono fun _ => idempotent_of_inv op

/-- And where one does, after a success with another key, the write that follows breaks it. -/
theorem not_idempotent_of_overwrite {op : Operation} {j : Nat} {k k' : κ}
    (hi : s.calls[i]? = some (.ready k)) (hj : s.calls[j]? = some (.done k'))
    (hne : op.answer K k ≠ op.answer K k') :
    ∃ t, run (step K) s [.createFile i, .write i 32] = some t ∧ ¬ Idempotent K op t := by
  have hlt : i < s.calls.length := (List.getElem?_eq_some_iff.1 hi).1
  have hij : i ≠ j := by
    rintro rfl
    rw [hi] at hj
    cases hj
  have hbytes := K.length_secretBytes k
  have hfull : ((K.secretBytes k).drop 0).take 32 = K.secretBytes k := by
    rw [List.drop_zero, List.take_of_length_le (by omega)]
  have hne' : K.secretBytes k ≠ [] := by
    intro hnil
    rw [hnil] at hbytes
    cases hbytes
  have hrun : run (step K) s [.createFile i, .write i 32] =
      some ⟨some (overwrite [] 0 (K.secretBytes k)), (s.calls.set i (.writing k 0)).set i (.done k)⟩ := by
    have hget : (s.calls.set i (.writing k 0))[i]? = some (.writing k 0) :=
      List.getElem?_set_self hlt
    simp only [run, step, hi, hget, hfull, hne', if_false, Option.bind_some, Option.getD_some,
      hbytes, Nat.zero_add, if_true]
  refine ⟨_, hrun, fun h => hne (h.agree i j k k' ?_ ?_)⟩
  · rw [List.set_set]
    exact List.getElem?_set_self hlt
  · rw [List.set_set, List.getElem?_set_ne hij]
    exact hj

/-! ### Two calls -/

/-- Two keys, as the bytes they repeat. -/
def twoKeys : Keys (Fin 2) where
  importKeypair bytes :=
    if bytes = List.replicate 32 1 then some 0 else if bytes = List.replicate 32 2 then some 1 else none
  secretBytes k := List.replicate 32 (if k = 0 then 1 else 2)
  encodeDidKey k := if k = 0 then "did:key:zQ3shA" else "did:key:zQ3shB"
  length_of_import := by
    intro bytes k h
    split at h
    · rename_i heq
      rw [heq, List.length_replicate]
    · split at h
      · rename_i heq
        rw [heq, List.length_replicate]
      · cases h
  length_secretBytes _ := List.length_replicate
  import_secretBytes := by decide

/-- Both calls find no file; each writes its key and returns it. -/
def bothMiss : List (Act (Fin 2)) :=
  [.load 0, .load 1, .generate 0 0, .generate 1 1, .createDir 0, .createDir 1, .createFile 0,
    .write 0 32, .createFile 1, .write 1 32]

theorem not_idempotent_bothMiss (op : Operation) :
    ¬ Always (step twoKeys) (Idempotent twoKeys op) (Store.start none 2) bothMiss := by
  intro hall
  have hrun : run (step twoKeys) (Store.start none 2) bothMiss =
      some ⟨some (List.replicate 32 2), [.done 0, .done 1]⟩ := by decide
  have hsame := (hall.last hrun).agree 0 1 0 1 rfl rfl
  cases op with
  | createRotationKeypair => exact absurd hsame (by decide)
  | reserveKeypair => exact absurd hsame (by decide)

/-- Neither operation is idempotent. -/
theorem two_keys_handed_out :
    (¬ ∀ (κ : Type) (K : Keys κ) (file : Option (List UInt8)) (calls : Nat) (as : List (Act κ)),
      Always (step K) (Idempotent K .createRotationKeypair) (Store.start file calls) as) ∧
    ¬ ∀ (κ : Type) (K : Keys κ) (file : Option (List UInt8)) (calls : Nat) (as : List (Act κ)),
      Always (step K) (Idempotent K .reserveKeypair) (Store.start file calls) as := by
  constructor
  · intro hall
    exact not_idempotent_bothMiss .createRotationKeypair (hall _ twoKeys none 2 bothMiss)
  · intro hall
    exact not_idempotent_bothMiss .reserveKeypair (hall _ twoKeys none 2 bothMiss)

/-- One call after the other: the second finds the key of the first. -/
theorem second_finds_first : Always (step twoKeys) (Idempotent twoKeys .createRotationKeypair)
    (Store.start none 2) [.load 0, .generate 0 0, .createDir 0, .createFile 0, .write 0 32, .load 1] :=
  idempotent_of_createsNew twoKeys .createRotationKeypair none 2 _ (by decide)

end CacosPds.ActorStore.KeyFiles
