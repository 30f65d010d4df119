import CacosPds.Account.CreateAccount
import CacosPds.Server.Destroy
/-!
# Two ways to sign up (`xrpc/com/atproto/server/create_account.rs`, `cacos-pds-oauth/src/remote_create_account.rs`)

| here | there |
| --- | --- |
| `createOp`, `genesisOp` | `create_op` (`cacos-pds-plc/src/operations.rs:30`); `format_did_and_plc_op` and `build_did_and_plc_op` |
| `validateDid`   | the end of `validate_inputs_for_local_pds`; the checks before it are known by their answer |
| `innerCreateAccount`, `remoteCreateAccount` | `inner_create_account`; `ActorStoreRemoteCreateAccount::create_account` |
| `Flow`          | what differs between the two: the error of an exit, and what a failed `destroy` does |
| `orDestroy`     | `match x.await { Err(_) => { destroy(..).await; return Err(..) }, .. }` |
| `Env`           | keys, signatures, the commit of the new repo, and which accesses fail |

`transact` and `create_repo` work inside the actor's database and are known by their outcome.
`safe_resolve_did_doc` answers `Ok(None)` where the resolution fails (`server/mod.rs:77-84`), so the
exit behind it is never taken.
-/
namespace CacosPds.Server

open Stages Sql

structure Env where
  faults : Faults
  account : Account.Env
  /-- `PDS_REPO_SIGNING_KEYPAIR`. -/
  signingKey : Keypair
  /-- The rotation keypair that is generated. -/
  rotationKeypair : Keypair
  /-- `encode_did_key` of the public key. -/
  didKey : Keypair → String
  sign : Operation → Keypair → String
  /-- The DID that a signed genesis operation hashes to. -/
  didOf : Operation → Except String String
  /-- `EmailAddress::is_valid`. -/
  emailIsValid : String → Bool
  /-- `char::is_whitespace`. -/
  isWhitespace : Char → Bool
  hostname : String
  serviceDid : String
  /-- The commit that `create_repo` makes. -/
  commit : Commit
  /-- The resolved DID document, as JSON. -/
  didDoc : Option String
  updateRootNow : String

/-! ## The genesis operation -/

def ensureHttpPrefix (str : String) : String :=
  if "http://".toList.isPrefixOf str.toList || "https://".toList.isPrefixOf str.toList then str
  else "https://" ++ str

def ensureAtprotoPrefix (str : String) : String :=
  if "at://".toList.isPrefixOf str.toList then str
  else "at://" ++ (str.replace "http://" "").replace "https://" ""

def createOp (E : Env) (signingKey handle pds : String) (rotationKeys : List String)
    (secretKey : Keypair) : Except String (String × Operation) := do
  let op : Operation :=
    { type := "plc_operation"
      rotationKeys
      verificationMethods := [("atproto", signingKey)]
      alsoKnownAs := [ensureAtprotoPrefix handle]
      services := [("atproto_pds", ⟨"AtprotoPersonalDataServer", ensureHttpPrefix pds⟩)]
      prev := none
      sig := none }
  let signed := { op with sig := some (E.sign op secretKey) }
  let did ← E.didOf signed
  return (did, signed)

/-- The operation names the generated key, after a recovery key if there is one. -/
def genesisOp (E : Env) (recoveryKey : Option String) (handle : String) :
    Except String (String × Operation) :=
  createOp E (E.didKey E.signingKey) handle ("https://" ++ E.hostname)
    (recoveryKey.toList ++ [E.didKey E.rotationKeypair]) E.rotationKeypair

theorem didKey_mem_genesisOp {E : Env} {recoveryKey : Option String} {handle did : String}
    {op : Operation} (h : genesisOp E recoveryKey handle = .ok (did, op)) :
    E.didKey E.rotationKeypair ∈ op.rotationKeys := by
  obtain ⟨did', -, h⟩ := except_bind_ok.1 h
  cases h
  simp

/-! ## Errors -/

inductive ApiError where
  | runtimeError
  | invalidRequest (what : String)
  | invalidHandle
  | invalidEmail
  | invalidPassword
  | invalidInviteCode
  | handleNotAvailable
  | emailNotAvailable
  | unsupportedDomain
  | authRequiredError (what : String)
  | invalidLogin
  | accountNotFound
  deriving DecidableEq

/-- The exits after the validation, each with the error that leads to it. -/
inductive Exit where
  | createActor (e : PdsError)
  | storeRotationKey (e : PdsError)
  | openActor (e : PdsError)
  | createRepo (e : PdsError)
  | sendOperation (e : String)
  | createAccount (e : Account.AccountError)
  | syncData (e : String)
  | updateRoot (e : Account.AccountError)

/-- What the second flow says of an exit, before the error's own text. -/
def Exit.what : Exit → String
  | .createActor _ => "failed to create actor store"
  | .storeRotationKey _ => "failed to persist per-DID PLC rotation key"
  | .openActor _ => "failed to open actor store"
  | .createRepo _ => "failed to create repo"
  | .sendOperation _ => "failed to send PLC operation"
  | .createAccount _ => "failed to create account row"
  | .syncData _ => "failed to build sync event data"
  | .updateRoot _ => "failed to update repo root"

inductive CreateAccountError where
  | invalidInput (what : String)
  /-- The operation could not be built. -/
  | internal (err : String)
  | internalAt (exit : Exit)

structure Flow (ε : Type) where
  exit : Exit → ε
  rollback : Call PdsError Unit → Call ε Unit
  /-- An error of the rollback does not undo what it did. -/
  state_rollback : ∀ x s, ((rollback x).exec s).2 = (x.exec s).2

/-- `destroy(..).await.map_err(|_| RuntimeError)?`. -/
def handlerFlow : Flow ApiError where
  exit _ := .runtimeError
  rollback := mapError fun _ => .runtimeError
  state_rollback x s := by rw [exec_mapError]

/-- `destroy(..).await.ok()`. -/
def oauthFlow : Flow CreateAccountError where
  exit := .internalAt
  rollback := ignore
  state_rollback x s := by rw [exec_ignore]

/-! ## The steps -/

section

variable {ε : Type} (E : Env) (φ : Flow ε)

def orDestroy {δ α : Type} (did : String) (exit : δ → Exit) (x : Call δ α) : Call ε α :=
  rescue x fun e => do
    φ.rollback (destroy E.faults did)
    throw (φ.exit (exit e))

/-- For an imported DID the key is best effort. -/
def persistRotationKey (did : String) : Option Keypair → Call ε Unit
  | some keypair =>
    orDestroy E φ did .storeRotationKey (storeRotationKeypair E.faults did keypair)
  | none => ignore (createRotationKeypair E.faults did E.rotationKeypair)

def transact : Call PdsError Unit := E.faults.check .transact "ActorStore::transact failed"

def createRepo : Call PdsError Commit := do
  E.faults.check .createRepo "create_repo failed"
  return E.commit

/-- Everything up to the new repo's first commit. -/
def openRepo (did : String) (plcRotationKey : Option Keypair) : Call ε Commit := do
  mapError (fun e => φ.exit (.createActor e)) (actorCreate E.faults did E.signingKey)
  persistRotationKey E φ did plcRotationKey
  orDestroy E φ did .openActor (transact E)
  orDestroy E φ did .createRepo (createRepo E)

def sendOperation (did : String) (op : Operation) : Call String Unit := do
  attempt (E.faults.access .sendOperation)
  modify fun s => { s with accepted := s.accepted ++ [(did, op)] }

def submitOperation (did : String) : Option Operation → Call ε Unit
  | none => pure ()
  | some op => orDestroy E φ did .sendOperation (sendOperation E did op)

/-- A call of the account manager. -/
def onAccount {δ α : Type} (x : Stages.Call Account.Db δ α) : Call δ α :=
  zoom State.account (fun account s => { s with account }) x

def registerAccount (opts : Account.CreateAccountOpts) : Call ε (String × String) :=
  orDestroy E φ opts.did .createAccount (onAccount (Account.createAccount E.account opts))

/-- An event that cannot be sequenced is only logged. -/
def sequenceEvt (a : Access) (e : SeqEvent) : Call ε Unit :=
  ignore (do
    attempt (E.faults.access a)
    modify fun s => { s with sequenced := s.sequenced ++ [e] } : Call String Unit)

def announce (did handle : String) (commit : Commit) : Call ε Unit := do
  attempt ((E.faults.access .syncData).map fun e => φ.exit (.syncData e))
  sequenceEvt E .identityEvt (.identity did handle)
  sequenceEvt E .accountEvt (.account did true none)
  sequenceEvt E .commitEvt (.commit did commit)
  sequenceEvt E .syncEvt (.sync did commit)

def updateRepoRoot (did : String) (commit : Commit) : Call ε Unit :=
  mapError (fun e => φ.exit (.updateRoot e)) <| onAccount <|
    Account.updateRoot (E.faults.access .updateRoot) E.updateRootNow did commit.cid commit.rev

end

/-! ## The handler -/

/-- A body that has passed the checks. -/
structure CheckedInput where
  email : String
  /-- The handle as given, which goes into the operation. -/
  givenHandle : String
  /-- The normalized handle. -/
  handle : String
  inviteCode : Option String
  password : String
  did : Option String
  recoveryKey : Option String

structure ValidatedCreateAccount (E : Env) where
  email : String
  handle : String
  did : String
  inviteCode : Option String
  password : String
  plcOp : Option Operation
  deactivated : Bool
  plcRotationKey : Option Keypair
  /-- The key belongs to the operation. -/
  named : ∀ op, plcOp = some op →
    ∃ keypair, plcRotationKey = some keypair ∧ E.didKey keypair ∈ op.rotationKeys

def validateDid (E : Env) (requester : Option String) (input : CheckedInput) :
    Except ApiError (ValidatedCreateAccount E) :=
  match input.did with
  | some did =>
    if some did = requester then
      .error (.authRequiredError ("Missing auth to create account with did: " ++ did))
    else
      .ok { input with did, plcOp := none, deactivated := true, plcRotationKey := none
                       named := fun _ h => by cases h }
  | none =>
    match h : genesisOp E input.recoveryKey input.givenHandle with
    | .error _ => .error .runtimeError
    | .ok (did, op) =>
      .ok { input with did, plcOp := some op, deactivated := false
                       plcRotationKey := some E.rotationKeypair
                       named := fun op' hop => ⟨_, rfl, by
                         cases hop
                         exact didKey_mem_genesisOp h⟩ }

def ValidatedCreateAccount.opts {E : Env} (v : ValidatedCreateAccount E) (commit : Commit) :
    Account.CreateAccountOpts where
  did := v.did
  handle := v.handle
  email := some v.email
  password := some v.password
  repoCid := commit.cid
  repoRev := commit.rev
  inviteCode := v.inviteCode
  deactivated := some v.deactivated
  serviceDid := E.serviceDid

structure CreateAccountOutput where
  accessJwt : String
  refreshJwt : String
  handle : String
  did : String
  didDoc : Option String

def announceUnless (E : Env) (deactivated : Bool) (did handle : String) (commit : Commit) :
    Call ApiError Unit :=
  if deactivated then pure () else announce E handlerFlow did handle commit

/-- `serde_json::to_value`. -/
def convertDidDoc (E : Env) : Option String → Call ApiError (Option String)
  | none => pure none
  | some doc => do
    attempt ((E.faults.access .didDoc).map fun _ => .runtimeError)
    return some doc

/-- What comes after the account manager's answer. -/
def finishValidated (E : Env) (v : ValidatedCreateAccount E) (commit : Commit)
    (tokens : String × String) : Call ApiError CreateAccountOutput := do
  announceUnless E v.deactivated v.did v.handle commit
  updateRepoRoot E handlerFlow v.did commit
  let didDoc ← convertDidDoc E E.didDoc
  return ⟨tokens.1, tokens.2, v.handle, v.did, didDoc⟩

def createValidated (E : Env) (v : ValidatedCreateAccount E) : Call ApiError CreateAccountOutput := do
  let commit ← openRepo E handlerFlow v.did v.plcRotationKey
  submitOperation E handlerFlow v.did v.plcOp
  let tokens ← registerAccount E handlerFlow (v.opts commit)
  finishValidated E v commit tokens

def innerCreateAccount (E : Env) (requester : Option String)
    (checked : Except ApiError CheckedInput) : Call ApiError CreateAccountOutput := do
  let v ← ofExcept (checked >>= validateDid E requester)
  createValidated E v

/-! ## The other flow -/

structure CreateAccountInput where
  handle : String
  email : String
  password : String
  inviteCode : Option String

/-- `s.trim().is_empty()`. -/
def isBlank (E : Env) (s : String) : Bool := s.toList.all E.isWhitespace

def checkInput (E : Env) (input : CreateAccountInput) : Except CreateAccountError Unit :=
  if isBlank E input.handle then .error (.invalidInput "handle must not be empty")
  else if '@' ∈ input.handle.toList then .error (.invalidInput "handle must not contain '@'")
  else if isBlank E input.email || !E.emailIsValid input.email then
    .error (.invalidInput "email is invalid")
  else if input.password.toList.isEmpty then .error (.invalidInput "password must not be empty")
  else .ok ()

def CreateAccountInput.opts (E : Env) (input : CreateAccountInput) (did : String)
    (commit : Commit) : Account.CreateAccountOpts where
  did := did
  handle := input.handle
  email := some input.email
  password := some input.password
  repoCid := commit.cid
  repoRev := commit.rev
  inviteCode := input.inviteCode
  deactivated := some false
  serviceDid := E.serviceDid

/-- The checks and `build_did_and_plc_op`. -/
def remoteGenesis (E : Env) (input : CreateAccountInput) :
    Except CreateAccountError (String × Operation) := do
  checkInput E input
  (genesisOp E none input.handle).mapError .internal

def finishRemote (E : Env) (did handle : String) (commit : Commit) :
    Call CreateAccountError String := do
  announce E oauthFlow did handle commit
  updateRepoRoot E oauthFlow did commit
  return did

def remoteCreateAccount (E : Env) (input : CreateAccountInput) :
    Call CreateAccountError String := do
  let genesis ← ofExcept (remoteGenesis E input)
  let commit ← openRepo E oauthFlow genesis.1 (some E.rotationKeypair)
  submitOperation E oauthFlow genesis.1 (some genesis.2)
  let _ ← registerAccount E oauthFlow (input.opts E genesis.1 commit)
  finishRemote E genesis.1 input.handle commit

/-! ## Up to the first commit -/

section

variable {ε : Type} (E : Env) (φ : Flow ε) (did : String) (keypair : Keypair)

/-- A step that is rolled back succeeds exactly as it does alone. -/
theorem orDestroy_ok {δ α : Type} (exit : δ → Exit) {x : Call δ α} {s t : State} {a : α} :
    (orDestroy E φ did exit x).exec s = (.ok a, t) ↔ x.exec s = (.ok a, t) := by
  rw [orDestroy, exec_rescue]
  rcases x.exec s with ⟨_ | _, u⟩
  · dsimp only
    rw [exec_bind]
    split <;> simp
  · simp

/-- Where it fails, the error comes after what `destroy` does. -/
theorem orDestroy_error {δ α : Type} (exit : δ → Exit) {x : Call δ α} {s t : State} {e : δ}
    (h : x.exec s = (.error e, t)) :
    ∃ err, (orDestroy E φ did exit x).exec s = (.error err, ((destroy E.faults did).exec t).2) := by
  rw [orDestroy, exec_rescue, h, ← φ.state_rollback]
  dsimp only
  rw [exec_bind]
  rcases (φ.rollback (destroy E.faults did)).exec t with ⟨_ | _, u⟩
  · exact ⟨_, rfl⟩
  · exact ⟨_, rfl⟩

/-- The accesses that it takes. -/
def openAccesses : List Access :=
  [.createDir, .existsDb, .writeKey, .openDb, .createRotationDir, .writeRotationKey, .transact,
    .createRepo]

/-- The DID is a file name without a store yet, and no access fails. -/
structure OpensRepo (s : State) : Prop where
  safe : safePathPart did = true
  newDid : hasDb did s = false
  works : ∀ a ∈ openAccesses, E.faults.access a = none

theorem createRepo_ok {s t : State} {c : Commit} : (createRepo E).exec s = (.ok c, t) ↔
    E.faults.access .createRepo = none ∧ c = E.commit ∧ t = s := by
  rw [createRepo, exec_bind_ok]
  simp only [does_check _ _ _ _ _, exec_pure, Prod.mk.injEq, Except.ok.injEq, id]
  constructor
  · rintro ⟨_, u, ⟨hf, rfl⟩, rfl, rfl⟩
    exact ⟨hf, rfl, rfl⟩
  · rintro ⟨hf, rfl, rfl⟩
    exact ⟨(), _, ⟨hf, rfl⟩, rfl, rfl⟩

theorem openRepo_ok {s t : State} {c : Commit} :
    (openRepo E φ did (some keypair)).exec s = (.ok c, t) ↔
      OpensRepo E did s ∧ c = E.commit ∧ t = keyStored did keypair (created did E.signingKey s) := by
  have hcreate : ∀ u, (mapError (fun e => φ.exit (.createActor e))
      (actorCreate E.faults did E.signingKey)).exec s = (.ok (), u) ↔
      (actorCreate E.faults did E.signingKey).exec s = (.ok (), u) := by
    intro u
    rw [exec_mapError, Prod.mk.injEq, except_mapError_ok, Prod.ext_iff]
  simp only [openRepo, exec_bind_ok, hcreate, persistRotationKey, orDestroy_ok,
    does_actorCreate E.faults did E.signingKey _ _,
    does_storeRotationKeypair E.faults did keypair _ _, transact,
    does_check _ _ _ _ _, createRepo_ok, id]
  constructor
  · rintro ⟨_, u, ⟨⟨hsafe, hnew, hcreate⟩, rfl⟩, _, v, ⟨⟨-, hstore⟩, rfl⟩, _, w, ⟨htransact, rfl⟩,
      hrepo, rfl, rfl⟩
    refine ⟨⟨hsafe, hnew, ?_⟩, rfl, rfl⟩
    have hlast : ∀ a ∈ [Access.transact, .createRepo], E.faults.access a = none := by
      simp [htransact, hrepo]
    exact List.forall_mem_append.2 ⟨hcreate, List.forall_mem_append.2 ⟨hstore, hlast⟩⟩
  · rintro ⟨⟨hsafe, hnew, hworks⟩, rfl, rfl⟩
    obtain ⟨hcreate, hrest⟩ := List.forall_mem_append.1 (show ∀ a ∈ [Access.createDir, .existsDb,
      .writeKey, .openDb] ++ ([.createRotationDir, .writeRotationKey] ++ [.transact, .createRepo]),
      E.faults.access a = none from hworks)
    obtain ⟨hstore, hlast⟩ := List.forall_mem_append.1 hrest
    exact ⟨(), _, ⟨⟨hsafe, hnew, hcreate⟩, rfl⟩, (), _, ⟨⟨hsafe, hstore⟩, rfl⟩, (), _,
      ⟨hlast _ (by simp), rfl⟩, hlast _ (by simp), rfl, rfl⟩

/-- Up to there only directories and blobs differ, failing or not. -/
def OnlyFiles (s t : State) : Prop := ∃ dirs objects, t = { s with dirs, objects }

theorem onlyFiles_refl (s : State) : OnlyFiles s s := ⟨s.dirs, s.objects, rfl⟩

theorem onlyFiles_trans (s t u : State) (h : OnlyFiles s t) (k : OnlyFiles t u) :
    OnlyFiles s u := by
  obtain ⟨_, _, rfl⟩ := h
  obtain ⟨dirs, objects, rfl⟩ := k
  exact ⟨dirs, objects, rfl⟩

theorem OnlyDirs.onlyFiles (s t : State) (h : OnlyDirs s t) : OnlyFiles s t := by
  obtain ⟨dirs, rfl⟩ := h
  exact ⟨dirs, s.objects, rfl⟩

/-- It does not matter to the relation what becomes of the DID's own directory and of the blobs. -/
structure AllowsFiles (R : State → State → Prop) : Prop where
  refl : ∀ s, R s s
  trans : ∀ s t u, R s t → R t u → R s u
  dir : ∀ s t, OwnDir did s t → R s t
  objects : ∀ (s : State) objects, R s { s with objects }

section

variable {E φ did} {R : State → State → Prop}

theorem AllowsFiles.destroy (hR : AllowsFiles did R) : Keeps (destroy E.faults did) R := fun s =>
  hR.trans _ _ _ (hR.objects s _) (hR.dir _ _ (ownDir_destroy E.faults did s))

theorem AllowsFiles.orDestroy (hR : AllowsFiles did R) {δ α : Type} (exit : δ → Exit)
    {x : Call δ α} (h : Keeps x R) : Keeps (orDestroy E φ did exit x) R :=
  h.rescue hR.trans fun _ => Keeps.bind hR.trans
    (fun s => by rw [φ.state_rollback]; exact hR.destroy s)
    fun _ => keeps_throw hR.refl _

theorem AllowsFiles.persistRotationKey (hR : AllowsFiles did R) (plcRotationKey : Option Keypair) :
    Keeps (persistRotationKey E φ did plcRotationKey) R := by
  have hfills : ∀ s t, FillsDir did s t → R s t := fun s t h => hR.dir s t h.own
  cases plcRotationKey with
  | some keypair =>
    exact hR.orDestroy .storeRotationKey
      ((fillsDir_storeRotationKeypair E.faults did keypair).mono hfills)
  | none =>
    exact Keeps.ignore
      ((fillsDir_createRotationKeypair E.faults did E.rotationKeypair).mono hfills)

theorem AllowsFiles.openRepo (hR : AllowsFiles did R) (plcRotationKey : Option Keypair) :
    Keeps (openRepo E φ did plcRotationKey) R :=
  (((fillsDir_actorCreate E.faults did E.signingKey).mono fun s t h => hR.dir s t h.own).mapError
      _).bind hR.trans fun _ =>
    (hR.persistRotationKey plcRotationKey).bind hR.trans fun _ =>
    (hR.orDestroy .openActor (keeps_attempt hR.refl _)).bind hR.trans fun _ =>
    hR.orDestroy .createRepo
      ((keeps_attempt hR.refl _).bind hR.trans fun _ => keeps_pure hR.refl _)

end

theorem allowsFiles_onlyFiles : AllowsFiles did OnlyFiles where
  refl := onlyFiles_refl
  trans := onlyFiles_trans
  dir s t h := OnlyDirs.onlyFiles s t h.only
  objects s objects := ⟨s.dirs, objects, rfl⟩

theorem onlyFiles_destroy : Keeps (destroy E.faults did) OnlyFiles :=
  (allowsFiles_onlyFiles did).destroy

theorem onlyFiles_orDestroy {δ α : Type} (exit : δ → Exit) {x : Call δ α}
    (h : Keeps x OnlyFiles) : Keeps (orDestroy E φ did exit x) OnlyFiles :=
  (allowsFiles_onlyFiles did).orDestroy exit h

theorem onlyFiles_openRepo (plcRotationKey : Option Keypair) :
    Keeps (openRepo E φ did plcRotationKey) OnlyFiles :=
  (allowsFiles_onlyFiles did).openRepo plcRotationKey

end

/-! ## The rotation key of an accepted operation -/

/-- The run from `s` to `t` leaves, for the operation it got accepted, a rotation key that the
operation names. -/
def KeptWhenAccepted (E : Env) (s t : State) : Prop :=
  ∀ did op, t.accepted = s.accepted ++ [(did, op)] →
    ∃ keypair, rotationKeyOf did t = some keypair ∧ E.didKey keypair ∈ op.rotationKeys

theorem keptWhenAccepted_of_none {E : Env} {s t : State} (h : t.accepted = s.accepted) :
    KeptWhenAccepted E s t := by
  intro did op hacc
  simp [h] at hacc

theorem keptWhenAccepted_of_some {E : Env} {did : String} {op : Operation} {keypair : Keypair}
    {s t : State} (h : t.accepted = s.accepted ++ [(did, op)])
    (hkey : rotationKeyOf did t = some keypair) (hop : E.didKey keypair ∈ op.rotationKeys) :
    KeptWhenAccepted E s t := by
  intro did' op' heq
  obtain ⟨rfl, rfl⟩ : did = did' ∧ op = op' := by simpa [h] using heq
  exact ⟨keypair, hkey, hop⟩

/-- The operation for the DID gets accepted. -/
structure Submits (E : Env) (did : String) (s : State) : Prop where
  opens : OpensRepo E did s
  sends : E.faults.access .sendOperation = none

/-- The account manager takes the new account. -/
structure AccountCreated (E : Env) (opts : Account.CreateAccountOpts) (s : State) : Prop where
  registers : Account.RegistersActor E.account opts s.account
  completes : ∀ p, Account.prepare E.account opts = .ok p →
    Account.Completes E.account opts p s.account

/-- What the steps after that leave alone. -/
structure SameKeys (s t : State) : Prop where
  dirs : t.dirs = s.dirs
  objects : t.objects = s.objects
  accepted : t.accepted = s.accepted

theorem sameKeys_refl (s : State) : SameKeys s s := ⟨rfl, rfl, rfl⟩

theorem sameKeys_trans (s t u : State) (h : SameKeys s t) (k : SameKeys t u) : SameKeys s u :=
  ⟨k.dirs.trans h.dirs, k.objects.trans h.objects, k.accepted.trans h.accepted⟩

/-- Only the log and the repos' roots differ. -/
def OnlyAnnounces (s t : State) : Prop :=
  ∃ sequenced repoRoot, t = { s with sequenced, account := { s.account with repoRoot } }

theorem onlyAnnounces_refl (s : State) : OnlyAnnounces s s := ⟨s.sequenced, s.account.repoRoot, rfl⟩

theorem onlyAnnounces_trans (s t u : State) (h : OnlyAnnounces s t) (k : OnlyAnnounces t u) :
    OnlyAnnounces s u := by
  obtain ⟨_, _, rfl⟩ := h
  obtain ⟨_, _, rfl⟩ := k
  exact ⟨_, _, rfl⟩

theorem OnlyAnnounces.sameKeys (s t : State) (h : OnlyAnnounces s t) : SameKeys s t := by
  obtain ⟨_, _, rfl⟩ := h
  exact ⟨rfl, rfl, rfl⟩

section

variable {ε : Type} (E : Env) (φ : Flow ε) (did : String)

theorem onlyAnnounces_sequenceEvt (a : Access) (e : SeqEvent) :
    Keeps (sequenceEvt E a e : Call ε Unit) OnlyAnnounces :=
  Keeps.ignore <| (keeps_attempt onlyAnnounces_refl _).bind onlyAnnounces_trans fun _ =>
    keeps_modify fun s => ⟨_, s.account.repoRoot, rfl⟩

theorem onlyAnnounces_announce (handle : String) (commit : Commit) :
    Keeps (announce E φ did handle commit) OnlyAnnounces :=
  (keeps_attempt onlyAnnounces_refl _).bind onlyAnnounces_trans fun _ =>
    (onlyAnnounces_sequenceEvt E _ _).bind onlyAnnounces_trans fun _ =>
    (onlyAnnounces_sequenceEvt E _ _).bind onlyAnnounces_trans fun _ =>
    (onlyAnnounces_sequenceEvt E _ _).bind onlyAnnounces_trans fun _ =>
    onlyAnnounces_sequenceEvt E _ _

theorem onlyAnnounces_updateRepoRoot (commit : Commit) :
    Keeps (updateRepoRoot E φ did commit) OnlyAnnounces := by
  have hroot : Keeps (Account.updateRoot (E.faults.access .updateRoot) E.updateRootNow did commit.cid
      commit.rev) fun a b => ∃ repoRoot, b = { a with repoRoot } := by
    unfold Account.updateRoot
    exact Account.keeps_execute (fun a => ⟨a.repoRoot, rfl⟩) _ _ fun a => ⟨_, rfl⟩
  refine (Keeps.zoom hroot fun s a h => ?_).mapError _
  obtain ⟨repoRoot, rfl⟩ := h
  exact ⟨s.sequenced, repoRoot, rfl⟩

/-- The state with the operation accepted. -/
def submitted (keypair : Keypair) (op : Operation) (s : State) : State :=
  let t := keyStored did keypair (created did E.signingKey s)
  { t with accepted := t.accepted ++ [(did, op)] }

theorem does_sendOperation (op : Operation) :
    Does (sendOperation E did op) (fun _ => E.faults.access .sendOperation = none)
      (fun s => { s with accepted := s.accepted ++ [(did, op)] }) :=
  does_attempt_modify _ _

/-- An operation that is not accepted is rolled back. -/
theorem submitOperation_error (op : Operation) (h : E.faults.access .sendOperation ≠ none)
    (s : State) :
    ∃ e t, (submitOperation E φ did (some op)).exec s = (.error e, t) ∧ OnlyFiles s t := by
  have hsend : Keeps (sendOperation E did op) OnlyFiles := by
    obtain ⟨e, he⟩ := Option.ne_none_iff_exists'.1 h
    rw [sendOperation, he]
    exact onlyFiles_refl
  have hstep := onlyFiles_orDestroy E φ did .sendOperation hsend s
  cases hexec : (submitOperation E φ did (some op)).exec s with
  | mk r t =>
    rw [submitOperation] at hexec
    rw [hexec] at hstep
    cases r with
    | error e => exact ⟨e, t, rfl, hstep⟩
    | ok _ => exact absurd ((does_sendOperation E did op s t).1 ((orDestroy_ok E φ did .sendOperation).1 hexec)).1 h

/-- The account manager's answer, on the state as it stands by then. -/
theorem exec_onAccount_createAccount (opts : Account.CreateAccountOpts) (s : State) :
    ∃ r account, (onAccount (Account.createAccount E.account opts)).exec s =
      (r, { s with account }) ∧ ((∃ tokens, r = .ok tokens) ↔ AccountCreated E opts s) := by
  refine ⟨_, _, exec_zoom _ _ _ _, ?_⟩
  have hiff := Account.createAccount_ok_iff E.account opts s.account
  constructor
  · rintro ⟨tokens, h⟩
    obtain ⟨hreg, hall⟩ := hiff.1 ⟨tokens, _, Prod.ext h rfl⟩
    exact ⟨hreg, hall⟩
  · intro h
    obtain ⟨tokens, t, ht⟩ := hiff.2 ⟨h.registers, h.completes⟩
    exact ⟨tokens, by rw [ht]⟩

/-- A run that does not get the operation accepted. -/
theorem accepted_of_not_submits {α : Type} {keypair : Keypair} {op : Operation} {s : State}
    (h : ¬ Submits E did s) (next : Commit → Call ε α) :
    ((do
      let commit ← openRepo E φ did (some keypair)
      submitOperation E φ did (some op)
      next commit).exec s).2.accepted = s.accepted := by
  have hbooks : ∀ t, OnlyFiles s t → t.accepted = s.accepted := by
    rintro _ ⟨_, _, rfl⟩
    rfl
  have hopens := onlyFiles_openRepo E φ did (some keypair) s
  rw [exec_bind]
  cases hexec : (openRepo E φ did (some keypair)).exec s with
  | mk r t =>
    rw [hexec] at hopens
    cases r with
    | error e => exact hbooks t hopens
    | ok commit =>
      -- it opened, so it is the submission that fails
      have hsend : E.faults.access .sendOperation ≠ none := fun hsend =>
        h ⟨((openRepo_ok E φ did keypair).1 hexec).1, hsend⟩
      obtain ⟨e, u, hsubmit, hu⟩ := submitOperation_error E φ did op hsend t
      dsimp only
      rw [exec_bind, hsubmit]
      exact hbooks u (onlyFiles_trans _ _ _ hopens hu)

/-- A run that does: all of it comes down to the rest of the run from there. -/
theorem exec_of_submits {α : Type} {keypair : Keypair} {op : Operation} {s : State}
    (h : Submits E did s) (next : Commit → Call ε α) :
    (do
      let commit ← openRepo E φ did (some keypair)
      submitOperation E φ did (some op)
      next commit).exec s = (next E.commit).exec (submitted E did keypair op s) := by
  have hopen := (openRepo_ok E φ did keypair).2 ⟨h.opens, rfl, rfl⟩
  have hsubmit := (orDestroy_ok E φ did .sendOperation).2
    ((does_sendOperation E did op (keyStored did keypair (created did E.signingKey s)) _).2
      ⟨h.sends, rfl⟩)
  rw [exec_bind, hopen]
  dsimp only
  rw [exec_bind, submitOperation, hsubmit]
  rfl

/-- Behind the submission, an account that is created stays with its key. -/
theorem sameKeys_of_created {α : Type} {opts : Account.CreateAccountOpts} {s : State}
    (h : AccountCreated E opts s) {rest : String × String → Call ε α}
    (hrest : ∀ tokens, Keeps (rest tokens) SameKeys) :
    SameKeys s ((registerAccount E φ opts >>= rest).exec s).2 := by
  obtain ⟨r, account, hexec, hr⟩ := exec_onAccount_createAccount E opts s
  obtain ⟨tokens, rfl⟩ := hr.2 h
  rw [exec_bind, registerAccount, (orDestroy_ok E φ opts.did .createAccount).2 hexec]
  have hkeys := hrest tokens { s with account }
  exact ⟨hkeys.dirs, hkeys.objects, hkeys.accepted⟩

/-- An account that is refused is destroyed. -/
theorem rotationKeyOf_of_refused {α : Type} {opts : Account.CreateAccountOpts} {s : State}
    (h : ¬ AccountCreated E opts s) (rest : String × String → Call ε α) :
    ((registerAccount E φ opts >>= rest).exec s).2.accepted = s.accepted ∧
      rotationKeyOf opts.did ((registerAccount E φ opts >>= rest).exec s).2 =
        if DestroyRemovesKey E.faults opts.did then none else rotationKeyOf opts.did s := by
  obtain ⟨r, account, hexec, hr⟩ := exec_onAccount_createAccount E opts s
  cases r with
  | ok tokens => exact absurd (hr.1 ⟨tokens, rfl⟩) h
  | error e =>
    obtain ⟨err, hregister⟩ := orDestroy_error E φ opts.did .createAccount hexec
    rw [exec_bind, registerAccount, hregister]
    obtain ⟨dirs, objects, hdestroy⟩ := onlyFiles_destroy E opts.did { s with account }
    refine ⟨?_, rotationKeyOf_destroy E.faults opts.did { s with account }⟩
    dsimp only
    rw [hdestroy]

/-- The account manager's refusal is the one exit behind the submission that destroys. -/
theorem keptWhenAccepted_iff {α : Type} {keypair : Keypair} {op : Operation}
    (hop : E.didKey keypair ∈ op.rotationKeys) (opts : Commit → Account.CreateAccountOpts)
    (hopts : (opts E.commit).did = did) (rest : Commit → String × String → Call ε α)
    (hrest : ∀ tokens, Keeps (rest E.commit tokens) SameKeys) (s : State) :
    KeptWhenAccepted E s ((do
      let commit ← openRepo E φ did (some keypair)
      submitOperation E φ did (some op)
      let tokens ← registerAccount E φ (opts commit)
      rest commit tokens).exec s).2 ↔
    (Submits E did s → AccountCreated E (opts E.commit) s ∨ ¬ DestroyRemovesKey E.faults did) := by
  subst hopts
  by_cases hsub : Submits E (opts E.commit).did s
  swap
  · refine iff_of_true (keptWhenAccepted_of_none ?_) fun h => absurd h hsub
    exact accepted_of_not_submits E φ _ hsub _
  rw [exec_of_submits E φ _ hsub]
  have hkey : rotationKeyOf (opts E.commit).did (submitted E (opts E.commit).did keypair op s) =
      some keypair :=
    rotationKeyOf_keyStored _ keypair (created _ E.signingKey s)
  have hsame : AccountCreated E (opts E.commit) (submitted E (opts E.commit).did keypair op s) ↔
      AccountCreated E (opts E.commit) s :=
    ⟨fun h => ⟨h.registers, h.completes⟩, fun h => ⟨h.registers, h.completes⟩⟩
  by_cases hacc : AccountCreated E (opts E.commit) s
  · have hkeys := sameKeys_of_created E φ (hsame.2 hacc) hrest
    refine iff_of_true (keptWhenAccepted_of_some hkeys.accepted ?_ hop) fun _ => .inl hacc
    rw [rotationKeyOf, hkeys.dirs]
    exact hkey
  · obtain ⟨hbooks, hafter⟩ := rotationKeyOf_of_refused E φ (mt hsame.1 hacc) (rest E.commit)
    rw [hkey] at hafter
    by_cases hremoves : DestroyRemovesKey E.faults (opts E.commit).did
    · rw [if_pos hremoves] at hafter
      refine iff_of_false (fun h => ?_) fun h => (h hsub).elim hacc fun h => h hremoves
      obtain ⟨key, hstored, -⟩ := h _ op hbooks
      cases hstored.symm.trans hafter
    · rw [if_neg hremoves] at hafter
      exact iff_of_true (keptWhenAccepted_of_some hbooks hafter hop) fun _ => .inr hremoves

end

/-! ## The two flows -/

theorem onlyAnnounces_announceUnless (E : Env) (deactivated : Bool) (did handle : String)
    (commit : Commit) : Keeps (announceUnless E deactivated did handle commit) OnlyAnnounces := by
  unfold announceUnless
  split
  · exact keeps_pure onlyAnnounces_refl _
  · exact onlyAnnounces_announce E handlerFlow did handle commit

theorem onlyAnnounces_convertDidDoc (E : Env) (didDoc : Option String) :
    Keeps (convertDidDoc E didDoc) OnlyAnnounces := by
  unfold convertDidDoc
  split
  · exact keeps_pure onlyAnnounces_refl _
  · exact (keeps_attempt onlyAnnounces_refl _).bind onlyAnnounces_trans fun _ =>
      keeps_pure onlyAnnounces_refl _

theorem onlyAnnounces_finishValidated (E : Env) (v : ValidatedCreateAccount E) (commit : Commit)
    (tokens : String × String) : Keeps (finishValidated E v commit tokens) OnlyAnnounces :=
  (onlyAnnounces_announceUnless E _ _ _ _).bind onlyAnnounces_trans fun _ =>
    (onlyAnnounces_updateRepoRoot E _ _ _).bind onlyAnnounces_trans fun _ =>
    (onlyAnnounces_convertDidDoc E _).bind onlyAnnounces_trans fun _ =>
    keeps_pure onlyAnnounces_refl _

theorem onlyAnnounces_finishRemote (E : Env) (did handle : String) (commit : Commit) :
    Keeps (finishRemote E did handle commit) OnlyAnnounces :=
  (onlyAnnounces_announce E _ _ _ _).bind onlyAnnounces_trans fun _ =>
    (onlyAnnounces_updateRepoRoot E _ _ _).bind onlyAnnounces_trans fun _ =>
    keeps_pure onlyAnnounces_refl _

theorem sameKeys_finishValidated (E : Env) (v : ValidatedCreateAccount E) (commit : Commit)
    (tokens : String × String) : Keeps (finishValidated E v commit tokens) SameKeys :=
  (onlyAnnounces_finishValidated E v commit tokens).mono OnlyAnnounces.sameKeys

theorem sameKeys_finishRemote (E : Env) (did handle : String) (commit : Commit) :
    Keeps (finishRemote E did handle commit) SameKeys :=
  (onlyAnnounces_finishRemote E did handle commit).mono OnlyAnnounces.sameKeys

/-- An imported DID comes without an operation. -/
theorem accepted_of_imported {E : Env} {v : ValidatedCreateAccount E} (h : v.plcOp = none) :
    Keeps (createValidated E v) fun s t => t.accepted = s.accepted := by
  have trans : ∀ s t u : State, t.accepted = s.accepted → u.accepted = t.accepted →
      u.accepted = s.accepted := fun _ _ _ h k => k.trans h
  have hfiles : ∀ s t, OnlyFiles s t → t.accepted = s.accepted := by
    rintro s _ ⟨_, _, rfl⟩
    rfl
  rw [createValidated, h]
  refine ((onlyFiles_openRepo E _ _ _).mono hfiles).bind trans fun commit =>
    Keeps.bind trans (fun _ => rfl) fun _ => Keeps.bind trans ?_ fun tokens =>
    (sameKeys_finishValidated E v commit tokens).mono fun _ _ h => h.accepted
  exact Keeps.rescue trans (keeps_zoom _ fun _ _ => rfl) fun _ =>
    Keeps.bind trans (((onlyFiles_destroy E _).mono hfiles).mapError _) fun _ => fun _ => rfl

theorem keptWhenAccepted_createValidated (E : Env) (v : ValidatedCreateAccount E) (s : State) :
    KeptWhenAccepted E s ((createValidated E v).exec s).2 ↔
      (v.plcOp.isSome → Submits E v.did s →
        AccountCreated E (v.opts E.commit) s ∨ ¬ DestroyRemovesKey E.faults v.did) := by
  cases hop : v.plcOp with
  | none =>
    exact iff_of_true (keptWhenAccepted_of_none (accepted_of_imported hop s)) fun h => by cases h
  | some op =>
    obtain ⟨keypair, hkey, hnamed⟩ := v.named op hop
    rw [createValidated, hop, hkey]
    exact (keptWhenAccepted_iff E handlerFlow v.did hnamed v.opts rfl (finishValidated E v)
      (sameKeys_finishValidated E v E.commit) s).trans (by simp)

/-- Both ways to sign up keep the rotation key of an accepted operation exactly when the account
manager takes the account, or the rollback does not get as far as the key. -/
theorem rotationKey_kept_iff (E : Env) (s : State) :
    (∀ requester checked,
      KeptWhenAccepted E s ((innerCreateAccount E requester checked).exec s).2 ↔
        ∀ v, (checked >>= validateDid E requester) = .ok v → v.plcOp.isSome → Submits E v.did s →
          AccountCreated E (v.opts E.commit) s ∨ ¬ DestroyRemovesKey E.faults v.did) ∧
    ∀ input, KeptWhenAccepted E s ((remoteCreateAccount E input).exec s).2 ↔
      ∀ did op, remoteGenesis E input = .ok (did, op) → Submits E did s →
        AccountCreated E (input.opts E did E.commit) s ∨ ¬ DestroyRemovesKey E.faults did := by
  constructor
  · intro requester checked
    rw [innerCreateAccount, exec_bind, exec_ofExcept]
    cases checked >>= validateDid E requester with
    | error e => simp [keptWhenAccepted_of_none]
    | ok v => simpa using keptWhenAccepted_createValidated E v s
  · intro input
    rw [remoteCreateAccount, exec_bind, exec_ofExcept]
    cases hgenesis : remoteGenesis E input with
    | error e => simp [keptWhenAccepted_of_none]
    | ok genesis =>
      obtain ⟨did, op⟩ := genesis
      obtain ⟨_, -, hop⟩ := except_bind_ok.1 hgenesis
      have hnamed := didKey_mem_genesisOp (except_mapError_ok.1 hop)
      exact (keptWhenAccepted_iff E oauthFlow did hnamed (input.opts E did) rfl
        (fun commit _ => finishRemote E did input.handle commit)
        (fun _ => sameKeys_finishRemote E did input.handle E.commit) s).trans (by simp)

/-- Every access works. -/
def workingFaults : Faults := ⟨fun _ => none, fun _ => none, none⟩

def workingEnv : Env where
  faults := workingFaults
  account := Account.workingEnv
  signingKey := ⟨[1]⟩
  rotationKeypair := ⟨[2]⟩
  didKey _ := "did:key:rotation"
  sign _ _ := "sig"
  didOf _ := .ok "did:plc:bob"
  emailIsValid _ := true
  isWhitespace c := c = ' '
  hostname := "x.test"
  serviceDid := "did:web:x.test"
  commit := ⟨⟨"bafyroot"⟩, "3l"⟩
  didDoc := none
  updateRootNow := "2026-08-01T00:00:00.000Z"

/-- The address is the one of an account that is taken down, so the checks let it through. -/
def bobsBody : CheckedInput := ⟨"a@x.test", "bob.test", "bob.test", none, "secret", none, none⟩

def bobsInput : CreateAccountInput := ⟨"bob.test", "a@x.test", "secret", none⟩

def aliceTakenDown : State := { State.empty with account := Account.aliceOnly }

/-- Bob's operation is accepted, his account is refused, and his rotation key is gone. -/
theorem rotationKey_destroyed :
    (¬ ∀ E s requester checked,
      KeptWhenAccepted E s ((innerCreateAccount E requester checked).exec s).2) ∧
    ¬ ∀ E s input, KeptWhenAccepted E s ((remoteCreateAccount E input).exec s).2 := by
  constructor
  · intro h
    obtain ⟨_, hkey, -⟩ := h workingEnv aliceTakenDown none (.ok bobsBody) "did:plc:bob" _ rfl
    cases hkey
  · intro h
    obtain ⟨_, hkey, -⟩ := h workingEnv aliceTakenDown bobsInput "did:plc:bob" _ rfl
    cases hkey

end CacosPds.Server
