import CacosPds.ActorStore.KeyFiles
import CacosPds.Lib.FileTree
import CacosPds.Lib.Sha2
import CacosPds.Server.Destroy
/-!
# Where an actor's files are (`cacos-pds-actor-store/src/mod.rs:92-171, 228-248, 452-565`)

| here | there |
| --- | --- |
| `Sha256`          | the digest of the `sha2` crate; `hexEncode` is `hex::encode` |
| `ActorStore.new`  | `ActorStore::new`: the two directories |
| `getLocation`     | `get_location`: `{directory}/{two digits of the hash}/{did}` |
| `destroy`, `storeRotationKeypair` | the operations on an actor's directory |
| `reserveKeypair`, `getReservedKeypair`, `clearReservedKeypair` | those on a reserved key |
| `State`           | the file tree, the cached and locked DIDs, and the objects of the blobstore |

A DID comes from a request. `assert_safe_path_part` makes it a single name, so it leads one step
down from wherever it is joined; and the part of a hash above it has two characters, `reserved_keys`
more. The blobstore's objects are not in this tree.
-/
namespace CacosPds.Server.Locations

open Stages Files
open ActorStore.KeyFiles (Keys)
open Blobstore (Objects)

structure Sha256 where
  digest : Bytes → Bytes
  length_digest : ∀ b, (digest b).length = 32

def sha256 : Sha256 := ⟨Sha2.digest, Sha2.length_digest⟩

/-- Two digits a byte, in lower case. -/
def hexEncode (b : Bytes) : List Char :=
  b.flatMap fun x => [Nat.digitChar (x.toNat / 16), Nat.digitChar (x.toNat % 16)]

def didHash (H : Sha256) (did : String) : List Char := hexEncode (H.digest did.toUTF8.toList)

/-- `&did_hash[0..2]`. -/
def hashPart (H : Sha256) (did : String) : String := String.ofList ((didHash H did).take 2)

structure ActorLocation where
  directory : String
  dbLocation : String
  keyLocation : String
  rotationKeyLocation : String

structure ActorStore where
  directory : String
  reservedKeyDir : String

def ActorStore.new (directory : String) : ActorStore :=
  ⟨directory, join directory "reserved_keys"⟩

def assertSafePathPart (part : String) : Except PdsError Unit :=
  if safePathPart part then .ok () else .error (.invalidInput ("unsafe path part: " ++ part))

def getLocation (H : Sha256) (S : ActorStore) (did : String) : Except PdsError ActorLocation := do
  assertSafePathPart did
  let directory := join (join S.directory (hashPart H did)) did
  pure ⟨directory, join directory "store.sqlite", join directory "key",
    join directory "rotation_key"⟩

structure State where
  tree : Files.Tree Bytes
  cache : List String
  locks : List String
  objects : Objects

abbrev Call := Stages.Call State PdsError

def onTree {α : Type} (reason : String) (x : Op Bytes α) : Call α :=
  zoom State.tree (fun tree s => { s with tree }) (mapError (PdsError.internal reason) x)

/-- What fails of an operation, and how far it gets. -/
structure Faults where
  existsDir : Option String
  removeDirAll : Option Files.PartialRemoval
  createDirAll : Path → Option String
  readKey : Option String
  writeKey : Option (WriteFault Bytes)
  existsKey : Option String
  removeKey : Option String
  existsDid : Option String
  removeDid : Option String

section

variable {κ : Type} (H : Sha256) (K : Keys κ) (S : ActorStore) (cwd : Path) (F : Faults)

/-- The blobstore's `delete_all`, if it has one. -/
def wipeBlobs (deleteAll : Option (Stages.Call Objects PdsError Unit)) : Call Unit :=
  match deleteAll with
  | some wipe => zoom State.objects (fun objects s => { s with objects }) wipe
  | none => pure ()

def destroy (deleteAll : Option (Stages.Call Objects PdsError Unit)) (did : String) :
    Call Unit := do
  modify fun s => { s with cache := s.cache.filter (· ≠ did) }
  modify fun s => { s with locks := s.locks.filter (· ≠ did) }
  wipeBlobs deleteAll
  let location ← ofExcept (getLocation H S did)
  let found ← onTree "ActorStore::destroy: try_exists failed"
    (tryExists F.existsDir (resolve cwd location.directory))
  if found then
    onTree "ActorStore::destroy: remove_dir_all failed"
      (Files.removeDirAll F.removeDirAll (resolve cwd location.directory))
  else pure ()

def storeRotationKeypair (did : String) (keypair : κ) : Call Unit := do
  let location ← ofExcept (getLocation H S did)
  onTree "ActorStore::store_rotation_keypair: create_dir_all failed"
    (createDirAll F.createDirAll (resolve cwd location.directory))
  onTree "ActorStore::store_rotation_keypair: write failed"
    (write F.writeKey (resolve cwd location.rotationKeyLocation) (K.secretBytes keypair))

/-- `import_keypair` of what `load_key` has read. -/
def importKeypair (bytes : Bytes) : Except PdsError κ :=
  match K.importKeypair bytes with
  | some k => .ok k
  | none => .error (.internal "import_keypair: SecretKey::from_slice failed"
      "malformed or out-of-range secret key")

def loadKey (location : String) : Call (Option κ) := do
  let found ← onTree "load_key: tokio::fs::read failed"
    (Files.read F.readKey (resolve cwd location))
  match found with
  | some bytes => do
    let k ← ofExcept (importKeypair K bytes)
    pure (some k)
  | none => pure none

def reservedKeyLocation (part : String) : String := join S.reservedKeyDir part

/-- A key is written where none was found. -/
def writeReserved (location : String) (fresh : κ) : Call String := do
  onTree "ActorStore::reserve_keypair: create_dir_all failed"
    (createDirAll F.createDirAll (resolve cwd S.reservedKeyDir))
  onTree "ActorStore::reserve_keypair: write failed"
    (write F.writeKey (resolve cwd location) (K.secretBytes fresh))
  pure (K.encodeDidKey fresh)

/-- `fresh` is the key that it generates if it has to. -/
def reserveKeypair (did : Option String) (fresh : κ) : Call String :=
  match did with
  | some did => do
    ofExcept (assertSafePathPart did)
    let found ← loadKey K cwd F (reservedKeyLocation S did)
    match found with
    | some k => pure (K.encodeDidKey k)
    | none => writeReserved K S cwd F (reservedKeyLocation S did) fresh
  | none => writeReserved K S cwd F (reservedKeyLocation S (K.encodeDidKey fresh)) fresh

def getReservedKeypair (signingKeyOrDid : String) : Call (Option κ) := do
  ofExcept (assertSafePathPart signingKeyOrDid)
  loadKey K cwd F (reservedKeyLocation S signingKeyOrDid)

/-- One file of `clear_reserved_keypair`; `which` is in the texts of its errors. -/
def clearReserved (existsFault removeFault : Option String) (which part : String) : Call Unit := do
  ofExcept (assertSafePathPart part)
  let found ← onTree ("ActorStore::clear_reserved_keypair: try_exists(" ++ which ++ ") failed")
    (tryExists existsFault (resolve cwd (reservedKeyLocation S part)))
  if found then
    onTree ("ActorStore::clear_reserved_keypair: remove_file(" ++ which ++ ") failed")
      (removeFile removeFault (resolve cwd (reservedKeyLocation S part)))
  else pure ()

def clearReservedKeypair (keyDid : String) (did : Option String) : Call Unit := do
  clearReserved S cwd F.existsKey F.removeKey "key" keyDid
  match did with
  | some did => clearReserved S cwd F.existsDid F.removeDid "did" did
  | none => pure ()

end

/-! ## One name a step -/

variable {κ : Type} {H : Sha256} {K : Keys κ} {S : ActorStore} {cwd : Path} {F : Faults}
  {did : String} {location : ActorLocation}

theorem isName_of_safePathPart {part : String} (h : safePathPart part = true) : IsName part := by
  obtain ⟨hne, hdot, hslash, -, -⟩ := of_decide_eq_true h
  refine ⟨hne, hslash, fun he => hdot ?_, fun he => hdot ?_⟩
  · rw [he]
    rfl
  · rw [he]
    rfl

theorem length_hexEncode (b : Bytes) : (hexEncode b).length = 2 * b.length := by
  induction b with
  | nil => rfl
  | cons x b ih =>
    have hcons : hexEncode (x :: b) =
        Nat.digitChar (x.toNat / 16) :: Nat.digitChar (x.toNat % 16) :: hexEncode b := rfl
    rw [hcons, List.length_cons, List.length_cons, List.length_cons, ih]
    omega

theorem digitChar_ne : ∀ n < 16, Nat.digitChar n ≠ '/' ∧ Nat.digitChar n ≠ '.' := by decide

theorem hexEncode_ne {b : Bytes} {c : Char} (h : c ∈ hexEncode b) : c ≠ '/' ∧ c ≠ '.' := by
  obtain ⟨x, -, hc⟩ := List.mem_flatMap.1 h
  have hlt := x.toNat_lt
  rcases List.mem_pair.1 hc with rfl | rfl
  · exact digitChar_ne _ (by omega)
  · exact digitChar_ne _ (by omega)

theorem length_hashPart (H : Sha256) (did : String) : (hashPart H did).toList.length = 2 := by
  rw [hashPart, String.toList_ofList, List.length_take, didHash, length_hexEncode, H.length_digest]
  rfl

theorem isName_hashPart (H : Sha256) (did : String) : IsName (hashPart H did) := by
  have hmem : ∀ c ∈ (hashPart H did).toList, c ≠ '/' ∧ c ≠ '.' := by
    intro c hc
    rw [hashPart, String.toList_ofList] at hc
    exact hexEncode_ne (List.mem_of_mem_take hc)
  have hlen := length_hashPart H did
  refine ⟨fun he => ?_, fun hslash => (hmem _ hslash).1 rfl, fun he => ?_, fun he => ?_⟩
  · rw [he] at hlen
    cases hlen
  · exact (hmem '.' (by rw [he]; exact List.mem_cons_self)).2 rfl
  · exact (hmem '.' (by rw [he]; exact List.mem_cons_self)).2 rfl

theorem hashPart_ne_reservedKeys (H : Sha256) (did : String) :
    hashPart H did ≠ "reserved_keys" := by
  intro he
  have hlen := length_hashPart H did
  rw [he] at hlen
  exact absurd hlen (by decide)

theorem getLocation_ok : getLocation H S did = .ok location ↔ safePathPart did = true ∧
    location = ⟨join (join S.directory (hashPart H did)) did,
      join (join (join S.directory (hashPart H did)) did) "store.sqlite",
      join (join (join S.directory (hashPart H did)) did) "key",
      join (join (join S.directory (hashPart H did)) did) "rotation_key"⟩ := by
  unfold getLocation assertSafePathPart
  by_cases h : safePathPart did = true
  · rw [if_pos h]
    simp [bind, Except.bind, pure, Except.pure, h, eq_comm]
  · rw [if_neg h]
    simp [bind, Except.bind, h]

/-- **Two steps down from the store root.** -/
theorem resolve_directory (h : getLocation H S did = .ok location) :
    resolve cwd location.directory = resolve cwd S.directory ++ [hashPart H did, did] := by
  obtain ⟨hsafe, rfl⟩ := getLocation_ok.1 h
  dsimp only
  rw [resolve_join _ _ (isName_of_safePathPart hsafe), resolve_join _ _ (isName_hashPart H did),
    List.append_assoc]
  rfl

theorem resolve_rotationKeyLocation (h : getLocation H S did = .ok location) :
    resolve cwd location.rotationKeyLocation =
      resolve cwd location.directory ++ ["rotation_key"] := by
  obtain ⟨-, rfl⟩ := getLocation_ok.1 h
  exact resolve_join _ _ (by decide)

theorem resolve_reservedKeyDir (root : String) :
    resolve cwd (ActorStore.new root).reservedKeyDir = resolve cwd root ++ ["reserved_keys"] :=
  resolve_join _ _ (by decide)

theorem resolve_reservedKeyLocation {part : String} (h : safePathPart part = true) :
    resolve cwd (reservedKeyLocation S part) = resolve cwd S.reservedKeyDir ++ [part] :=
  resolve_join _ _ (isName_of_safePathPart h)

/-! ## What an operation touches -/

/-- Outside `touched` the tree keeps what it has; the rest of the state is free. -/
def Spares (touched : Path → Prop) (s t : State) : Prop := Preserves touched s.tree t.tree

theorem spares_refl (touched : Path → Prop) (s : State) : Spares touched s s :=
  preserves_refl touched s.tree

theorem spares_trans (touched : Path → Prop) (s t u : State) (h : Spares touched s t)
    (k : Spares touched t u) : Spares touched s u :=
  preserves_trans touched s.tree t.tree u.tree h k

variable {touched : Path → Prop}

theorem spares_onTree {α : Type} (reason : String) {x : Op Bytes α}
    (h : Keeps x (Preserves touched)) : Keeps (onTree reason x) (Spares touched) :=
  (h.mapError _).zoom fun _ _ ht => ht

theorem spares_tryExists (reason : String) (fault : Option String) (p : Path) :
    Keeps (onTree reason (tryExists fault p)) (Spares touched) :=
  spares_onTree reason ((reads_tryExists fault p).keeps (preserves_refl touched))

theorem spares_createDirAll (reason : String) (faults : Path → Option String) (p : Path) :
    Keeps (onTree reason (createDirAll faults p)) (Spares touched) :=
  spares_onTree reason ((addsDirs_createDirAll faults p).mono fun _ _ h => h.preserves touched)

theorem spares_write (reason : String) (fault : Option (WriteFault Bytes)) {p : Path}
    (content : Bytes) (hp : touched p) :
    Keeps (onTree reason (write fault p content)) (Spares touched) :=
  spares_onTree reason ((changes_write fault p content).mono fun _ _ h =>
    h.preserves fun _ hq => hq ▸ hp)

theorem spares_wipeBlobs (deleteAll : Option (Stages.Call Objects PdsError Unit)) :
    Keeps (wipeBlobs deleteAll) (Spares touched) := by
  cases deleteAll with
  | none => exact keeps_pure (spares_refl touched) ()
  | some wipe => exact keeps_zoom wipe fun s _ => preserves_refl touched s.tree

/-- `destroy` touches what is in the directory of its DID. -/
theorem spares_destroy (deleteAll : Option (Stages.Call Objects PdsError Unit)) (did : String) :
    Keeps (destroy H S cwd F deleteAll did) (Spares fun q =>
      ∃ location, getLocation H S did = .ok location ∧ resolve cwd location.directory <+: q) := by
  refine Keeps.bind (spares_trans _) (keeps_modify fun s => preserves_refl _ s.tree) fun _ =>
    Keeps.bind (spares_trans _) (keeps_modify fun s => preserves_refl _ s.tree) fun _ =>
    (spares_wipeBlobs deleteAll).bind (spares_trans _) fun _ =>
    keeps_ofExcept_bind (spares_refl _) fun location hloc =>
    Keeps.bind (spares_trans _) (spares_tryExists _ _ _) fun found => ?_
  cases found with
  | false => exact keeps_pure (spares_refl _) ()
  | true =>
    exact spares_onTree _ ((changes_removeDirAll _ _).mono fun _ _ h =>
      h.preserves fun _ hq => ⟨location, hloc, hq⟩)

/-- `store_rotation_keypair` touches one file there. -/
theorem spares_storeRotationKeypair (did : String) (keypair : κ) :
    Keeps (storeRotationKeypair H K S cwd F did keypair) (Spares fun q =>
      ∃ location, getLocation H S did = .ok location ∧
        q = resolve cwd location.rotationKeyLocation) :=
  keeps_ofExcept_bind (spares_refl _) fun location hloc =>
    (spares_createDirAll _ _ _).bind (spares_trans _) fun _ =>
      spares_write _ _ _ ⟨location, hloc, rfl⟩

/-- A reserved key that has a name. -/
def IsReserved (S : ActorStore) (cwd : Path) (names : List String) (q : Path) : Prop :=
  ∃ part ∈ names, safePathPart part = true ∧ q = resolve cwd (reservedKeyLocation S part)

theorem safe_of_assert {part : String} (h : assertSafePathPart part = .ok ()) :
    safePathPart part = true := by
  by_contra hnot
  rw [assertSafePathPart, if_neg hnot] at h
  cases h

theorem spares_clearReserved (existsFault removeFault : Option String) (which : String)
    {part : String} {names : List String} (hmem : part ∈ names) :
    Keeps (clearReserved S cwd existsFault removeFault which part)
      (Spares (IsReserved S cwd names)) := by
  refine keeps_ofExcept_bind (spares_refl _) fun _ hsafe =>
    (spares_tryExists _ _ _).bind (spares_trans _) fun found => ?_
  cases found with
  | false => exact keeps_pure (spares_refl _) ()
  | true =>
    exact spares_onTree _ ((changes_removeFile _ _).mono fun _ _ h =>
      h.preserves fun _ hq => ⟨part, hmem, safe_of_assert hsafe, hq⟩)

/-- `clear_reserved_keypair` touches the keys it is called for. -/
theorem spares_clearReservedKeypair (keyDid : String) (did : Option String) :
    Keeps (clearReservedKeypair S cwd F keyDid did)
      (Spares (IsReserved S cwd (keyDid :: did.toList))) := by
  refine (spares_clearReserved _ _ _ List.mem_cons_self).bind (spares_trans _) fun _ => ?_
  cases did with
  | none => exact keeps_pure (spares_refl _) ()
  | some did =>
    exact spares_clearReserved _ _ _ (List.mem_cons_of_mem _ (List.mem_singleton_self did))

theorem spares_loadKey (location : String) : Keeps (loadKey K cwd F location) (Spares touched) := by
  refine (spares_onTree _ ((reads_read _ _).keeps (preserves_refl touched))).bind
    (spares_trans touched) fun found => ?_
  cases found with
  | none => exact keeps_pure (spares_refl touched) none
  | some bytes =>
    exact keeps_ofExcept_bind (spares_refl touched) fun k _ => keeps_pure (spares_refl touched) _

/-- A look at a reserved key touches nothing. -/
theorem spares_getReservedKeypair (signingKeyOrDid : String) :
    Keeps (getReservedKeypair K S cwd F signingKeyOrDid) (Spares fun _ => False) :=
  keeps_ofExcept_bind (spares_refl _) fun _ _ => spares_loadKey _

theorem spares_writeReserved {location : String} (fresh : κ) (h : touched (resolve cwd location)) :
    Keeps (writeReserved K S cwd F location fresh) (Spares touched) :=
  (spares_createDirAll _ _ _).bind (spares_trans touched) fun _ =>
    (spares_write _ _ _ h).bind (spares_trans touched) fun _ => keeps_pure (spares_refl touched) _

/-- `reserve_keypair(Some(did))` touches the key of that name. -/
theorem spares_reserveKeypair (did : String) (fresh : κ) :
    Keeps (reserveKeypair K S cwd F (some did) fresh) (Spares (IsReserved S cwd [did])) := by
  refine keeps_ofExcept_bind (spares_refl _) fun _ hsafe =>
    (spares_loadKey _).bind (spares_trans _) fun found => ?_
  cases found with
  | some k => exact keeps_pure (spares_refl _) _
  | none =>
    exact spares_writeReserved fresh ⟨did, List.mem_singleton_self did, safe_of_assert hsafe, rfl⟩

/-! ## The store of a root directory -/

/-- A file of another actor, the store root, or a reserved key that is not named. -/
def IsForeign (H : Sha256) (S : ActorStore) (cwd : Path) (owner : Option String)
    (names : List String) (q : Path) : Prop :=
  (∃ did location, some did ≠ owner ∧ getLocation H S did = .ok location ∧
    resolve cwd location.directory <+: q) ∨
  q = resolve cwd S.directory ∨
  ∃ part, part ∉ names ∧ safePathPart part = true ∧
    q = resolve cwd (reservedKeyLocation S part)

/-- What is there and foreign stays, and stays what it is. -/
def LeavesForeign (H : Sha256) (S : ActorStore) (cwd : Path) (owner : Option String)
    (names : List String) (s t : State) : Prop :=
  ∀ q n, IsForeign H S cwd owner names q → s.tree q = some n → t.tree q = some n

structure Confined (H : Sha256) (K : Keys κ) (S : ActorStore) (cwd : Path) : Prop where
  inside : ∀ did, safePathPart did = true → ∃ location, getLocation H S did = .ok location ∧
    StrictlyInside (resolve cwd S.directory) (resolve cwd location.directory) ∧
    Apart (resolve cwd S.reservedKeyDir) (resolve cwd location.directory)
  disjoint : ∀ d e location location', d ≠ e → getLocation H S d = .ok location →
    getLocation H S e = .ok location' →
    Apart (resolve cwd location.directory) (resolve cwd location'.directory)
  reserved : ∀ part, safePathPart part = true →
    StrictlyInside (resolve cwd S.reservedKeyDir) (resolve cwd (reservedKeyLocation S part))
  destroy : ∀ F deleteAll did,
    Keeps (destroy H S cwd F deleteAll did) (LeavesForeign H S cwd (some did) [])
  storeRotationKeypair : ∀ F did (keypair : κ),
    Keeps (storeRotationKeypair H K S cwd F did keypair) (LeavesForeign H S cwd (some did) [])
  clearReservedKeypair : ∀ F keyDid did,
    Keeps (clearReservedKeypair S cwd F keyDid did)
      (LeavesForeign H S cwd none (keyDid :: did.toList))

theorem leavesForeign_of_spares {owner : Option String} {names : List String} {s t : State}
    (h : Spares touched s t) (hnot : ∀ q, IsForeign H S cwd owner names q → ¬ touched q) :
    LeavesForeign H S cwd owner names s t :=
  fun q n hq => h q n (hnot q hq)

section

variable {root : String}

theorem strictlyInside_directory (h : getLocation H (.new root) did = .ok location) :
    StrictlyInside (resolve cwd root) (resolve cwd location.directory) := by
  rw [resolve_directory h]
  exact strictlyInside_append _ (List.cons_ne_nil _ _)

/-- The hash has two digits, `reserved_keys` has more. -/
theorem apart_reservedKeyDir (h : getLocation H (.new root) did = .ok location) (names : Path) :
    Apart (resolve cwd (ActorStore.new root).reservedKeyDir ++ names)
      (resolve cwd location.directory) := by
  rw [resolve_directory h, resolve_reservedKeyDir, List.append_assoc]
  exact apart_of_name (hashPart_ne_reservedKeys H did).symm

theorem apart_directory {did' : String} {location' : ActorLocation} (hne : did ≠ did')
    (h : getLocation H (.new root) did = .ok location)
    (h' : getLocation H (.new root) did' = .ok location') :
    Apart (resolve cwd location.directory) (resolve cwd location'.directory) := by
  rw [resolve_directory h, resolve_directory h']
  refine apart_of_length ?_ fun he => hne ?_
  · rw [List.length_append, List.length_append]
    rfl
  · have hlast := List.append_cancel_left he
    rw [List.cons.injEq, List.cons.injEq] at hlast
    exact hlast.2.1

/-- Nothing foreign is in the DID's own directory. -/
theorem IsForeign.not_inside {names : List String} {q : Path}
    (hq : IsForeign H (.new root) cwd (some did) names q)
    (h : getLocation H (.new root) did = .ok location) :
    ¬ resolve cwd location.directory <+: q := by
  rcases hq with ⟨other, location', hne, h', hin⟩ | rfl | ⟨part, -, hsafe, rfl⟩
  · have hdid : did ≠ other := fun he => hne (congrArg some he.symm)
    exact (apart_directory hdid h h').not_inside hin
  · intro hin
    obtain ⟨hroot, hne⟩ : StrictlyInside (resolve cwd root) (resolve cwd location.directory) :=
      strictlyInside_directory h
    exact hne (hin.eq_of_length_le hroot.length_le)
  · rw [resolve_reservedKeyLocation hsafe]
    exact (apart_reservedKeyDir h [part]).2

/-- Nor is it a reserved key that is named. -/
theorem IsForeign.not_isReserved {names : List String} {q : Path}
    (hq : IsForeign H (.new root) cwd none names q) : ¬ IsReserved (.new root) cwd names q := by
  rintro ⟨part, hmem, hsafe, hpart⟩
  rw [resolve_reservedKeyLocation hsafe] at hpart
  rcases hq with ⟨other, location, -, h, hin⟩ | hroot | ⟨part', hnot, hsafe', hpart'⟩
  · rw [hpart] at hin
    exact (apart_reservedKeyDir h [part]).2 hin
  · rw [hroot, resolve_reservedKeyDir, List.append_assoc] at hpart
    exact List.cons_ne_nil _ _ (List.append_right_eq_self.1 hpart.symm)
  · rw [hpart, resolve_reservedKeyLocation hsafe'] at hpart'
    obtain rfl := List.head_eq_of_cons_eq (List.append_cancel_left hpart')
    exact hnot hmem

/-- **Each operation stays with the DID and the keys it is called for.** -/
theorem confined (H : Sha256) (K : Keys κ) (root : String) (cwd : Path) :
    Confined H K (.new root) cwd := by
  constructor
  · intro did hsafe
    obtain ⟨location, h⟩ : ∃ location, getLocation H (.new root) did = .ok location :=
      ⟨_, getLocation_ok.2 ⟨hsafe, rfl⟩⟩
    refine ⟨location, h, strictlyInside_directory h, ?_⟩
    rw [← List.append_nil (resolve cwd _)]
    exact apart_reservedKeyDir h []
  · exact fun d e location location' hne h h' => apart_directory hne h h'
  · intro part hsafe
    rw [resolve_reservedKeyLocation hsafe]
    exact strictlyInside_append _ (List.cons_ne_nil _ _)
  · intro F deleteAll did
    refine (spares_destroy deleteAll did).mono fun s t h => leavesForeign_of_spares h ?_
    rintro q hq ⟨location, hloc, hin⟩
    exact hq.not_inside hloc hin
  · intro F did keypair
    refine (spares_storeRotationKeypair did keypair).mono fun s t h =>
      leavesForeign_of_spares h ?_
    rintro q hq ⟨location, hloc, rfl⟩
    refine hq.not_inside hloc ?_
    rw [resolve_rotationKeyLocation hloc]
    exact List.prefix_append _ _
  · intro F keyDid did
    exact (spares_clearReservedKeypair keyDid did).mono fun _ _ h =>
      leavesForeign_of_spares h fun _ hq => hq.not_isReserved

theorem confined_aliceAndBob :
    ∃ alice bob, getLocation sha256 (.new "/data/actors") "did:plc:alice" = .ok alice ∧
      getLocation sha256 (.new "/data/actors") "did:plc:bob" = .ok bob ∧
      alice.directory = "/data/actors/a3/did:plc:alice" ∧
      bob.directory = "/data/actors/53/did:plc:bob" ∧
      Apart (resolve [] alice.directory) (resolve [] bob.directory) := by
  have hconfined := confined sha256 ActorStore.KeyFiles.twoKeys "/data/actors" []
  obtain ⟨alice, halice, -⟩ := hconfined.inside "did:plc:alice" (by decide +kernel)
  obtain ⟨bob, hbob, -⟩ := hconfined.inside "did:plc:bob" (by decide +kernel)
  have hapart := hconfined.disjoint _ _ alice bob (by decide) halice hbob
  refine ⟨alice, bob, halice, hbob, ?_, ?_, hapart⟩
  · obtain ⟨-, rfl⟩ := getLocation_ok.1 halice
    decide +kernel
  · obtain ⟨-, rfl⟩ := getLocation_ok.1 hbob
    decide +kernel

/-- A new reserved key takes no other one's place. -/
theorem reserveKeypair_leavesForeign (H : Sha256) (K : Keys κ) (root : String) (cwd : Path)
    (F : Faults) (did : String) (fresh : κ) :
    Keeps (reserveKeypair K (.new root) cwd F (some did) fresh)
      (LeavesForeign H (.new root) cwd none [did]) :=
  (spares_reserveKeypair did fresh).mono fun _ _ h =>
    leavesForeign_of_spares h fun _ hq => hq.not_isReserved

end

end CacosPds.Server.Locations
