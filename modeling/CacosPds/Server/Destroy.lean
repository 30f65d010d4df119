import CacosPds.Account.Tables
import CacosPds.Blobstore.OpenDal
/-!
# The server's state, and the actor directories (`cacos-pds-actor-store/src/mod.rs:100-491`)

| here | there |
| --- | --- |
| `ActorDir`   | the files at an `ActorLocation` (`mod.rs:127`) |
| `State`      | what `SharedState` gives access to: the actor directories, the blobstore, the account database, the PLC directory, the sequencer |
| `shared`     | the one blobstore handle that `SharedStateFromEnv` builds (`xrpc/types.rs:70-80`) |
| `actorCreate`, `storeRotationKeypair`, `createRotationKeypair` | `create`, `store_rotation_keypair`, `create_rotation_keypair` |
| `destroy`    | `ActorStore::destroy` (`mod.rs:452`) |
| `Faults`     | which accesses to the file system and the network fail |

`destroy` wipes the handle it is given, which is `shared` for every actor, and then removes the
actor's directory, the rotation key with it.
-/
namespace CacosPds.Server

open Stages Sql
open Blobstore (Objects Handle BlobError BackendFaults)

structure Keypair where
  secret : Bytes
  deriving DecidableEq

structure ActorDir where
  key : Option Keypair
  rotationKey : Option Keypair
  /-- `store.sqlite` is there. -/
  db : Bool
  deriving DecidableEq

def ActorDir.empty : ActorDir := ⟨none, none, false⟩

structure Service where
  type : String
  endpoint : String
  deriving DecidableEq

/-- A PLC operation. -/
structure Operation where
  type : String
  rotationKeys : List String
  verificationMethods : List (String × String)
  alsoKnownAs : List String
  services : List (String × Service)
  prev : Option String
  sig : Option String
  deriving DecidableEq

/-- The commit of a new repo. -/
structure Commit where
  cid : Cid
  rev : String
  deriving DecidableEq

inductive SeqEvent where
  | identity (did handle : String)
  | account (did : String) (active : Bool) (status : Option String)
  | commit (did : String) (commit : Commit)
  | sync (did : String) (commit : Commit)
  deriving DecidableEq

def SeqEvent.did : SeqEvent → String
  | .identity did _ | .account did _ _ | .commit did _ | .sync did _ => did

structure State where
  dirs : Table String ActorDir
  objects : Objects
  account : Account.Db
  /-- The operations that the PLC directory has accepted. -/
  accepted : List (String × Operation)
  sequenced : List SeqEvent

def State.empty : State := ⟨∅, ∅, .empty, [], []⟩

/-- The rotation key file of a DID. -/
def rotationKeyOf (did : String) (s : State) : Option Keypair :=
  (s.dirs.lookup did).bind ActorDir.rotationKey

/-- The handle that every request gets. -/
def shared : Handle := ⟨"shared", by decide⟩

inductive Access where
  | createDir | existsDb | writeKey | openDb
  | createRotationDir | writeRotationKey | loadRotationKey
  | transact | createRepo | sendOperation | existsDir
  | syncData | identityEvt | accountEvt | commitEvt | syncEvt | updateRoot | didDoc
  | deleteAccount | deleteEvents
  deriving DecidableEq

/-- A `remove_dir_all` that fails, and the files it has removed by then. -/
structure PartialRemoval where
  err : String
  key : Bool
  rotationKey : Bool
  db : Bool

structure Faults where
  access : Access → Option String
  backend : BackendFaults
  removeDirAll : Option PartialRemoval

abbrev Call (ε α : Type) := Stages.Call State ε α

/-- An access that fails with `PdsError::internal(reason, ..)`. -/
def Faults.check (F : Faults) (a : Access) (reason : String) : Call PdsError Unit :=
  attempt ((F.access a).map (.internal reason))

/-- `assert_safe_path_part`. -/
def safePathPart (part : String) : Bool :=
  part.toList ≠ [] ∧ part.toList.head? ≠ some '.' ∧ '/' ∉ part.toList ∧ '\\' ∉ part.toList ∧
    ¬ ['.', '.'] <:+: part.toList

/-- `get_location`; the location itself is the DID's entry in `dirs`. -/
def getLocation (did : String) : Call PdsError Unit :=
  if safePathPart did then pure () else throw (.invalidInput ("unsafe path part: " ++ did))

/-- `create_dir_all`. -/
def makeDir (did : String) (s : State) : State := { s with dirs := s.dirs.insertIgnore did .empty }

/-- A file in the DID's directory changes. -/
def writeDir (did : String) (f : ActorDir → ActorDir) (s : State) : State :=
  { s with dirs := s.dirs.upsert did (f .empty) f }

def hasDb (did : String) (s : State) : Bool := ((s.dirs.lookup did).map ActorDir.db).getD false

def checkNoDb (did : String) : Call PdsError Unit := do
  let s ← get
  if hasDb did s then throw (.invalidInput ("Repo already exists: " ++ did)) else pure ()

def actorCreate (F : Faults) (did : String) (keypair : Keypair) : Call PdsError Unit := do
  getLocation did
  F.check .createDir "ActorStore::create: create_dir_all failed"
  modify (makeDir did)
  F.check .existsDb "ActorStore::create: try_exists failed"
  checkNoDb did
  F.check .writeKey "ActorStore::create: write key failed"
  modify (writeDir did fun d => { d with key := some keypair })
  F.check .openDb "ActorStore::create: open failed"
  modify (writeDir did fun d => { d with db := true })

def storeRotationKeypair (F : Faults) (did : String) (keypair : Keypair) : Call PdsError Unit := do
  getLocation did
  F.check .createRotationDir "ActorStore::store_rotation_keypair: create_dir_all failed"
  modify (makeDir did)
  F.check .writeRotationKey "ActorStore::store_rotation_keypair: write failed"
  modify (writeDir did fun d => { d with rotationKey := some keypair })

/-- `fresh` is the keypair that it generates if there is none. -/
def createRotationKeypair (F : Faults) (did : String) (fresh : Keypair) : Call PdsError Unit := do
  getLocation did
  F.check .loadRotationKey "load_key: tokio::fs::read failed"
  let s ← get
  match rotationKeyOf did s with
  | some _ => pure ()
  | none => storeRotationKeypair F did fresh

/-! ## `destroy` -/

def BlobError.toPdsError : BlobError → PdsError
  | .notFound => .ofAnyhow "blob not found"
  | .other err => .ofAnyhow err

/-- `delete_all` of the shared handle. -/
def wipeShared (F : Faults) : Call PdsError Unit :=
  zoom State.objects (fun objects s => { s with objects })
    (mapError BlobError.toPdsError (shared.deleteAll F.backend))

def removeDirAll (F : Faults) (did : String) : Call PdsError Unit :=
  match F.removeDirAll with
  | none => modify fun s => { s with dirs := s.dirs.erase did }
  | some r => do
    modify (writeDir did fun d =>
      ⟨if r.key then none else d.key, if r.rotationKey then none else d.rotationKey,
        d.db && !r.db⟩)
    throw (.internal "ActorStore::destroy: remove_dir_all failed" r.err)

/-- Only a directory that is there is removed. -/
def removeDir (F : Faults) (did : String) (s : State) : Call PdsError Unit :=
  if did ∈ s.dirs then removeDirAll F did else pure ()

def destroy (F : Faults) (did : String) : Call PdsError Unit := do
  wipeShared F
  getLocation did
  F.check .existsDir "ActorStore::destroy: try_exists failed"
  let s ← get
  removeDir F did s

/-- `destroy` gets to the rotation key, and removes it. -/
def DestroyRemovesKey (F : Faults) (did : String) : Prop :=
  (∀ n < 3, F.backend (.deleteAll n) = none) ∧ safePathPart did = true ∧
    F.access .existsDir = none ∧ ∀ r, F.removeDirAll = some r → r.rotationKey = true

instance (F : Faults) (did : String) : Decidable (DestroyRemovesKey F did) :=
  inferInstanceAs (Decidable (_ ∧ _ ∧ _ ∧ ∀ r ∈ F.removeDirAll, r.rotationKey = true))

section

variable (F : Faults) (did : String) (s : State)

theorem exec_check (a : Access) (reason : String) : (F.check a reason).exec s =
    ((F.access a).elim (.ok ()) fun e => .error (.internal reason e), s) := by
  rw [Faults.check, exec_attempt]
  cases F.access a <;> rfl

theorem exec_getLocation : (getLocation did).exec s =
    (if safePathPart did then .ok () else .error (.invalidInput ("unsafe path part: " ++ did)), s) := by
  unfold getLocation
  split <;> rfl

theorem does_check (a : Access) (reason : String) :
    Does (F.check a reason) (fun _ => F.access a = none) id := by
  intro s t
  rw [exec_check]
  cases F.access a <;> simp [eq_comm]

theorem does_getLocation : Does (getLocation did) (fun _ => safePathPart did = true) id := by
  intro s t
  rw [exec_getLocation]
  by_cases h : safePathPart did = true <;> simp [h, eq_comm]

theorem does_checkNoDb : Does (checkNoDb did) (fun s => hasDb did s = false) id := by
  intro s t
  rw [checkNoDb, exec_bind, exec_get]
  dsimp only
  cases hasDb did s <;> simp [eq_comm]

theorem rotationKeyOf_writeDir (f : ActorDir → ActorDir) :
    rotationKeyOf did (writeDir did f s) =
      (f ((s.dirs.lookup did).getD .empty)).rotationKey := by
  simp only [rotationKeyOf, writeDir, Table.lookup_upsert, if_true]
  cases s.dirs.lookup did <;> rfl

theorem rotationKey_getD : ((s.dirs.lookup did).getD .empty).rotationKey = rotationKeyOf did s := by
  unfold rotationKeyOf
  cases s.dirs.lookup did <;> rfl

theorem rotationKeyOf_of_notMem (h : did ∉ s.dirs) : rotationKeyOf did s = none := by
  unfold rotationKeyOf
  rw [Finmap.lookup_eq_none.2 h]
  rfl

theorem rotationKeyOf_removeDirAll :
    rotationKeyOf did ((removeDirAll F did).exec s).2 =
      if ∀ r, F.removeDirAll = some r → r.rotationKey = true then none else rotationKeyOf did s := by
  unfold removeDirAll
  cases h : F.removeDirAll with
  | none =>
    rw [exec_modify, if_pos (by simp)]
    simp only [rotationKeyOf, Table.lookup_erase_eq, if_true]
    rfl
  | some r =>
    rw [exec_bind, exec_modify]
    simp only [exec_throw, Option.some.injEq, forall_eq']
    rw [rotationKeyOf_writeDir]
    dsimp only
    rw [rotationKey_getD]

theorem rotationKeyOf_removeDir :
    rotationKeyOf did ((removeDir F did s).exec s).2 =
      if ∀ r, F.removeDirAll = some r → r.rotationKey = true then none else rotationKeyOf did s := by
  unfold removeDir
  split
  · exact rotationKeyOf_removeDirAll F did s
  · rw [exec_pure, rotationKeyOf_of_notMem did s ‹_›, ite_self]

/-- The blobs after a `destroy`, whatever fails in it. -/
def wipedObjects (objects : Objects) : Objects := ((shared.deleteAll F.backend).exec objects).2

/-- The wipe does not touch the directories; where it fails they stay. -/
theorem exec_wipeShared : ∃ r,
    (wipeShared F).exec s = (r, { s with objects := wipedObjects F s.objects }) ∧
    (r = .ok () ↔ ∀ n < 3, F.backend (.deleteAll n) = none) := by
  refine ⟨((mapError BlobError.toPdsError (shared.deleteAll F.backend)).exec s.objects).1, ?_, ?_⟩
  · rw [wipeShared, exec_zoom, exec_mapError]
    rfl
  · rw [exec_mapError]
    exact except_mapError_ok.trans
      ((Blobstore.does_deleteAll shared F.backend).fst_eq_ok_iff s.objects)

/-- The key is gone after a `destroy` exactly if it got there. -/
theorem rotationKeyOf_destroy :
    rotationKeyOf did ((destroy F did).exec s).2 =
      if DestroyRemovesKey F did then none else rotationKeyOf did s := by
  obtain ⟨r, hwipe, hr⟩ := exec_wipeShared F s
  have hkey : rotationKeyOf did { s with objects := wipedObjects F s.objects } =
      rotationKeyOf did s := rfl
  rw [destroy, exec_bind, hwipe]
  cases r with
  | error e =>
    have hnot : ¬ DestroyRemovesKey F did := fun h => by cases hr.2 h.1
    rw [if_neg hnot]
    exact hkey
  | ok u =>
    have hall := hr.1 rfl
    dsimp only
    rw [exec_bind, exec_getLocation]
    by_cases hsafe : safePathPart did = true
    · rw [if_pos hsafe]
      dsimp only
      rw [exec_bind, exec_check]
      cases hdir : F.access .existsDir with
      | some e =>
        have hnot : ¬ DestroyRemovesKey F did := fun h => by cases hdir.symm.trans h.2.2.1
        rw [if_neg hnot]
        exact hkey
      | none =>
        simp only [Option.elim, exec_bind, exec_get, rotationKeyOf_removeDir, hkey]
        by_cases hrem : ∀ r, F.removeDirAll = some r → r.rotationKey = true
        · have hremoves : DestroyRemovesKey F did := ⟨hall, hsafe, hdir, hrem⟩
          rw [if_pos hrem, if_pos hremoves]
        · have hnot : ¬ DestroyRemovesKey F did := fun h => hrem h.2.2.2
          rw [if_neg hrem, if_neg hnot]
    · have hnot : ¬ DestroyRemovesKey F did := fun h => hsafe h.2.1
      rw [if_neg hsafe, if_neg hnot]
      exact hkey

end

/-! ## A new actor's directory -/

section

variable (F : Faults) (did : String) (keypair : Keypair)

/-- What `create` leaves. -/
def created (s : State) : State :=
  writeDir did (fun d => { d with db := true })
    (writeDir did (fun d => { d with key := some keypair }) (makeDir did s))

/-- What `store_rotation_keypair` leaves. -/
def keyStored (s : State) : State :=
  writeDir did (fun d => { d with rotationKey := some keypair }) (makeDir did s)

theorem lookup_makeDir (s : State) :
    (makeDir did s).dirs.lookup did = some ((s.dirs.lookup did).getD .empty) := by
  rw [makeDir, Table.lookup_insertIgnore, if_pos rfl]

theorem hasDb_makeDir (s : State) : hasDb did (makeDir did s) = hasDb did s := by
  rw [hasDb, lookup_makeDir, hasDb]
  cases s.dirs.lookup did <;> rfl

theorem rotationKeyOf_keyStored (s : State) :
    rotationKeyOf did (keyStored did keypair s) = some keypair :=
  rotationKeyOf_writeDir did _ _

theorem does_actorCreate :
    Does (actorCreate F did keypair)
      (fun s => safePathPart did = true ∧ hasDb did s = false ∧
        ∀ a ∈ [Access.createDir, .existsDb, .writeKey, .openDb], F.access a = none)
      (created did keypair) := by
  refine ((does_getLocation did).bind <| (does_check _ _ _).bind <| (does_modify _).bind <|
    (does_check _ _ _).bind <| (does_checkNoDb did).bind <| (does_check _ _ _).bind <|
    (does_modify _).bind <| (does_check _ _ _).bind (does_modify _)).congr (fun s => ?_) fun _ _ => rfl
  simp only [id, hasDb_makeDir, List.forall_mem_cons, List.not_mem_nil, false_implies,
    implies_true, and_true, true_and]
  tauto

theorem does_storeRotationKeypair :
    Does (storeRotationKeypair F did keypair)
      (fun _ => safePathPart did = true ∧
        ∀ a ∈ [Access.createRotationDir, .writeRotationKey], F.access a = none)
      (keyStored did keypair) := by
  refine ((does_getLocation did).bind <| (does_check _ _ _).bind <| (does_modify _).bind <|
    (does_check _ _ _).bind (does_modify _)).congr (fun s => ?_) fun _ _ => rfl
  simp only [List.forall_mem_cons, List.not_mem_nil, false_implies, implies_true, and_true,
    true_and]

/-! ## Frames -/

/-- Only the directories differ. -/
def OnlyDirs (s t : State) : Prop := ∃ dirs, t = { s with dirs }

theorem onlyDirs_refl (s : State) : OnlyDirs s s := ⟨s.dirs, rfl⟩

theorem onlyDirs_trans (s t u : State) (h : OnlyDirs s t) (k : OnlyDirs t u) : OnlyDirs s u := by
  obtain ⟨_, rfl⟩ := h
  obtain ⟨dirs, rfl⟩ := k
  exact ⟨dirs, rfl⟩

/-- Only the DID's own directory differs. -/
structure OwnDir (s t : State) : Prop where
  only : OnlyDirs s t
  others : ∀ d, d ≠ did → t.dirs.lookup d = s.dirs.lookup d

/-- And a database in it stays. -/
structure FillsDir (s t : State) : Prop where
  own : OwnDir did s t
  db : hasDb did s = true → hasDb did t = true

theorem ownDir_refl (s : State) : OwnDir did s s := ⟨onlyDirs_refl s, fun _ _ => rfl⟩

theorem ownDir_trans (s t u : State) (h : OwnDir did s t) (k : OwnDir did t u) : OwnDir did s u :=
  ⟨onlyDirs_trans s t u h.only k.only, fun d hd => (k.others d hd).trans (h.others d hd)⟩

theorem fillsDir_refl (s : State) : FillsDir did s s := ⟨ownDir_refl did s, id⟩

theorem fillsDir_trans (s t u : State) (h : FillsDir did s t) (k : FillsDir did t u) :
    FillsDir did s u :=
  ⟨ownDir_trans did s t u h.own k.own, fun hs => k.db (h.db hs)⟩

theorem FillsDir.onlyDirs (s t : State) (h : FillsDir did s t) : OnlyDirs s t := h.own.only

theorem hasDb_writeDir (f : ActorDir → ActorDir) (s : State) :
    hasDb did (writeDir did f s) = (f ((s.dirs.lookup did).getD .empty)).db := by
  simp only [hasDb, writeDir, Table.lookup_upsert, if_true]
  cases s.dirs.lookup did <;> rfl

theorem ownDir_writeDir (f : ActorDir → ActorDir) (s : State) :
    OwnDir did s (writeDir did f s) := by
  refine ⟨⟨_, rfl⟩, fun d hd => ?_⟩
  rw [writeDir, Table.lookup_upsert, if_neg hd]

theorem fillsDir_makeDir (s : State) : FillsDir did s (makeDir did s) := by
  refine ⟨⟨⟨_, rfl⟩, fun d hd => ?_⟩, fun h => ?_⟩
  · rw [makeDir, Table.lookup_insertIgnore, if_neg hd]
  · rw [hasDb_makeDir]
    exact h

theorem fillsDir_writeDir (f : ActorDir → ActorDir) (hf : ∀ d, d.db = true → (f d).db = true)
    (s : State) : FillsDir did s (writeDir did f s) := by
  refine ⟨ownDir_writeDir did f s, fun h => ?_⟩
  rw [hasDb_writeDir]
  refine hf _ ?_
  rw [hasDb] at h
  cases hd : s.dirs.lookup did with
  | none => simp [hd] at h
  | some dir => simpa [hd] using h

theorem reads_check (a : Access) (reason : String) : Reads (F.check a reason) := reads_attempt _

theorem reads_getLocation : Reads (getLocation did) := by
  intro s
  rw [exec_getLocation]

theorem reads_checkNoDb : Reads (checkNoDb did) :=
  keeps_get_bind fun s => by
    split <;> rfl

theorem fillsDir_actorCreate : Keeps (actorCreate F did keypair) (FillsDir did) := by
  have hcheck (a : Access) (reason : String) : Keeps (F.check a reason) (FillsDir did) :=
    (reads_check F a reason).keeps (fillsDir_refl did)
  have hkey (s : State) : FillsDir did s (writeDir did (fun d => { d with key := some keypair }) s) := by
    refine fillsDir_writeDir did _ (fun _ h => ?_) s
    exact h
  have hdb (s : State) : FillsDir did s (writeDir did (fun d => { d with db := true }) s) :=
    fillsDir_writeDir did _ (fun _ _ => rfl) s
  exact ((reads_getLocation did).keeps (fillsDir_refl did)).bind (fillsDir_trans did) fun _ =>
    (hcheck _ _).bind (fillsDir_trans did) fun _ =>
    (keeps_modify (fillsDir_makeDir did)).bind (fillsDir_trans did) fun _ =>
    (hcheck _ _).bind (fillsDir_trans did) fun _ =>
    ((reads_checkNoDb did).keeps (fillsDir_refl did)).bind (fillsDir_trans did) fun _ =>
    (hcheck _ _).bind (fillsDir_trans did) fun _ =>
    (keeps_modify hkey).bind (fillsDir_trans did) fun _ =>
    (hcheck _ _).bind (fillsDir_trans did) fun _ => keeps_modify hdb

theorem fillsDir_storeRotationKeypair :
    Keeps (storeRotationKeypair F did keypair) (FillsDir did) := by
  have hcheck (a : Access) (reason : String) : Keeps (F.check a reason) (FillsDir did) :=
    (reads_check F a reason).keeps (fillsDir_refl did)
  have hkey (s : State) :
      FillsDir did s (writeDir did (fun d => { d with rotationKey := some keypair }) s) := by
    refine fillsDir_writeDir did _ (fun _ h => ?_) s
    exact h
  exact ((reads_getLocation did).keeps (fillsDir_refl did)).bind (fillsDir_trans did) fun _ =>
    (hcheck _ _).bind (fillsDir_trans did) fun _ =>
    (keeps_modify (fillsDir_makeDir did)).bind (fillsDir_trans did) fun _ =>
    (hcheck _ _).bind (fillsDir_trans did) fun _ => keeps_modify hkey

theorem fillsDir_createRotationKeypair :
    Keeps (createRotationKeypair F did keypair) (FillsDir did) :=
  ((reads_getLocation did).keeps (fillsDir_refl did)).bind (fillsDir_trans did) fun _ =>
    ((reads_check F _ _).keeps (fillsDir_refl did)).bind (fillsDir_trans did) fun _ =>
    keeps_get_bind fun s => by
      split
      · exact fillsDir_refl did s
      · exact fillsDir_storeRotationKeypair F did keypair s

theorem onlyDirs_actorCreate : Keeps (actorCreate F did keypair) OnlyDirs :=
  (fillsDir_actorCreate F did keypair).mono (FillsDir.onlyDirs did)

theorem onlyDirs_storeRotationKeypair : Keeps (storeRotationKeypair F did keypair) OnlyDirs :=
  (fillsDir_storeRotationKeypair F did keypair).mono (FillsDir.onlyDirs did)

theorem onlyDirs_createRotationKeypair : Keeps (createRotationKeypair F did keypair) OnlyDirs :=
  (fillsDir_createRotationKeypair F did keypair).mono (FillsDir.onlyDirs did)

theorem ownDir_removeDir (s : State) : Keeps (removeDir F did s) (OwnDir did) := by
  unfold removeDir
  split
  · unfold removeDirAll
    split
    · refine keeps_modify fun s => ⟨⟨_, rfl⟩, fun d hd => ?_⟩
      rw [Table.lookup_erase_eq, if_neg hd]
    · exact (keeps_modify (ownDir_writeDir did _)).bind (ownDir_trans did) fun _ =>
        keeps_throw (ownDir_refl did) _
  · exact keeps_pure (ownDir_refl did) _

/-- `destroy` is about blobs and the DID's directory. -/
theorem ownDir_destroy (s : State) :
    OwnDir did { s with objects := wipedObjects F s.objects } ((destroy F did).exec s).2 := by
  obtain ⟨r, hwipe, -⟩ := exec_wipeShared F s
  have hrest : Keeps (do
      getLocation did
      F.check .existsDir "ActorStore::destroy: try_exists failed"
      let s ← get
      removeDir F did s) (OwnDir did) :=
    ((reads_getLocation did).keeps (ownDir_refl did)).bind (ownDir_trans did) fun _ =>
      ((reads_check F _ _).keeps (ownDir_refl did)).bind (ownDir_trans did) fun _ =>
      keeps_get_bind fun s => ownDir_removeDir F did s s
  rw [destroy, exec_bind, hwipe]
  cases r with
  | ok _ => exact hrest _
  | error e => exact ownDir_refl did _

theorem exec_destroy (s : State) :
    OnlyDirs { s with objects := wipedObjects F s.objects } ((destroy F did).exec s).2 :=
  (ownDir_destroy F did s).only

end

end CacosPds.Server
