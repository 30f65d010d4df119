import CacosPds.Account.Lifecycle
import CacosPds.Server.CreateAccount
/-!
# Is the DID document still ours? (`xrpc/com/atproto/server/{mod,activate_account,deactivate_account}.rs`)

| here | there |
| --- | --- |
| `ServiceConfig` | `service.public_url`, and the shared rotation key if the environment has one |
| `documentData`  | `PlcClient::get_document_data`: the data of the last operation accepted for the DID |
| `assertValidDocContents`, `assertValidDidDocumentsForService` | `assert_valid_doc_contents` (`mod.rs:172`), `assert_valid_did_documents_for_service` with and without the store (`mod.rs:124`, `:135`) |
| `isValidDidDocForService` | `is_valid_did_doc_for_service` (`mod.rs:113`), `valid_did` of `checkAccountStatus` |
| `innerActivateAccount`, `innerDeactivateAccount` | the handlers |

The genesis operation lists the DID's own rotation key (`genesisOp`). The handlers call the check
without the store, which does not know that key: the document counts as ours by the shared key only.
-/
namespace CacosPds.Server

open Stages Sql

structure ServiceConfig where
  publicUrl : String
  globalRotationKey : Option Keypair

structure AssertionContents where
  signingKey : Option String
  pdsEndpoint : Option String
  rotationKeys : Option (List String)
  perDidRotationKey : Option String

def globalPlcRotationKeyDid (E : Env) (cfg : ServiceConfig) : Option String :=
  cfg.globalRotationKey.map E.didKey

/-- The PDS holds one of the keys. -/
def holdsKey (E : Env) (cfg : ServiceConfig) (perDidRotationKey : Option String)
    (rotationKeys : List String) : Bool :=
  perDidRotationKey.any (· ∈ rotationKeys) || (globalPlcRotationKeyDid E cfg).any (· ∈ rotationKeys)

def assertValidDocContents (E : Env) (cfg : ServiceConfig) (contents : AssertionContents) :
    Except String Unit :=
  if contents.rotationKeys.any fun keys => !holdsKey E cfg contents.perDidRotationKey keys then
    .error "No rotation key controlled by this PDS is included in PLC DID data"
  else if contents.pdsEndpoint ≠ some cfg.publicUrl then
    .error "DID document atproto_pds service endpoint does not match PDS public url"
  else if contents.signingKey ≠ some (E.didKey E.signingKey) then
    .error "DID document verification method does not match expected signing key"
  else .ok ()

def documentData (did : String) (s : State) : Option Operation :=
  ((s.accepted.filter (·.1 = did)).getLast?).map Prod.snd

def docContents (op : Operation) (perDidRotationKey : Option String) : AssertionContents where
  signingKey := op.verificationMethods.lookup "atproto"
  pdsEndpoint := (op.services.lookup "atproto_pds").map Service.endpoint
  rotationKeys := some op.rotationKeys
  perDidRotationKey := perDidRotationKey

def isPlcDid (did : String) : Bool := "did:plc".toList.isPrefixOf did.toList

/-- `perDid` finds the DID's own rotation key, in the actor store if there is one at hand. -/
def assertValidDidDocuments (E : Env) (cfg : ServiceConfig) (fault : Option String)
    (perDid : State → Option Keypair) (did : String) (s : State) : Except String Unit :=
  if isPlcDid did then
    match fault, documentData did s with
    | some e, _ => .error e
    | none, none => .error "DID not registered"
    | none, some op => assertValidDocContents E cfg (docContents op ((perDid s).map E.didKey))
  else .error "Not yet supporting did:web"

def assertValidDidDocumentsForService (E : Env) (cfg : ServiceConfig) (fault : Option String)
    (did : String) : State → Except String Unit :=
  assertValidDidDocuments E cfg fault (fun _ => none) did

def assertValidDidDocumentsForServiceWithStore (E : Env) (cfg : ServiceConfig)
    (fault : Option String) (did : String) : State → Except String Unit :=
  assertValidDidDocuments E cfg fault (rotationKeyOf did) did

def isValidDidDocForService (E : Env) (cfg : ServiceConfig) (fault : Option String) (did : String)
    (s : State) : Bool :=
  (assertValidDidDocumentsForService E cfg fault did s).isOk

/-! ## The handlers -/

inductive ActivateAccess where
  | getDocument | getAccount | activate | openDb | syncData | getStatus
  | accountEvt | identityEvt | syncEvt | deactivate
  deriving DecidableEq

structure ActivateEnv where
  access : ActivateAccess → Option String
  /-- The root of the repo, from `get_sync_event_data`. -/
  syncData : Commit

def ActivateEnv.Works (A : ActivateEnv) : Prop := ∀ a, A.access a = none

/-- `.map_err(|_| ApiError::RuntimeError)`. -/
def runtime {δ α : Type} (x : Call δ α) : Call ApiError α := mapError (fun _ => .runtimeError) x

/-- The DID on the access token. -/
def tokenDid (did : Option String) : Except ApiError String :=
  match did with
  | some did => .ok did
  | none => .error (.invalidRequest "Missing did on access token")

def innerDeactivateAccount (A : ActivateEnv) (now : String) (did : Option String)
    (deleteAfter : Option String) : Call ApiError Unit := do
  let did ← ofExcept (tokenDid did)
  runtime (onAccount (Account.deactivateAccount (A.access .deactivate) now did deleteAfter))

/-- `ActorStore::read`. -/
def readActor (A : ActivateEnv) (did : String) : Call PdsError Unit := do
  attempt ((A.access .openDb).map (.internal "ActorStore::open_db: open failed"))
  let s ← get
  if hasDb did s then getLocation did else throw (.notFound ("Repo not found: " ++ did))

/-- `sequence_account_evt` and the like, where a failure ends the request. -/
def sequenceOrFail (fault : Option String) (e : SeqEvent) : Call ApiError Unit := do
  attempt (fault.map fun _ => .runtimeError)
  modify fun s => { s with sequenced := s.sequenced ++ [e] }

/-- The events after an activation. -/
def announceActivation (A : ActivateEnv) (did : String) (handle : Option String)
    (status : Account.AccountStatus) : Call ApiError Unit := do
  sequenceOrFail (A.access .accountEvt) (.account did status.lex.1 status.lex.2)
  sequenceOrFail (A.access .identityEvt) (.identity did (handle.getD "handle.invalid"))
  sequenceOrFail (A.access .syncEvt) (.sync did A.syncData)

def activateFound (A : ActivateEnv) (did : String) (account : Account.ActorAccount) :
    Call ApiError Unit := do
  runtime (onAccount (Account.activateAccount (A.access .activate) did))
  runtime (readActor A did)
  attempt ((A.access .syncData).map fun _ => .runtimeError)
  let status ← runtime (onAccount (Account.getAccountStatus (A.access .getStatus) did))
  announceActivation A did account.handle status

def assertDocument (E : Env) (cfg : ServiceConfig) (A : ActivateEnv) (did : String) :
    Call ApiError Unit := do
  let s ← get
  ofExcept ((assertValidDidDocumentsForService E cfg (A.access .getDocument) did s).mapError
    fun _ => .runtimeError)

def innerActivateAccount (E : Env) (cfg : ServiceConfig) (A : ActivateEnv) (did : Option String) :
    Call ApiError Unit := do
  let did ← ofExcept (tokenDid did)
  assertDocument E cfg A did
  let account ← runtime (onAccount
    (Account.getAccount (A.access .getAccount) did (some ⟨none, some true⟩)))
  match account with
  | some account => activateFound A did account
  | none => throw .runtimeError

/-! ## The document of a new account -/

theorem ensureHttpPrefix_https (host : String) :
    ensureHttpPrefix ("https://" ++ host) = "https://" ++ host := by
  have hprefix : "https://".toList.isPrefixOf ("https://" ++ host).toList = true := by
    rw [String.toList_append]
    exact List.isPrefixOf_iff_prefix.2 (List.prefix_append _ _)
  rw [ensureHttpPrefix, hprefix, Bool.or_true, if_pos rfl]

/-- What the generator puts where the checker looks. -/
theorem docContents_genesisOp {E : Env} {recoveryKey : Option String} {handle did : String}
    {op : Operation} (h : genesisOp E recoveryKey handle = .ok (did, op))
    (perDidRotationKey : Option String) : docContents op perDidRotationKey =
      { signingKey := some (E.didKey E.signingKey)
        pdsEndpoint := some ("https://" ++ E.hostname)
        rotationKeys := some (recoveryKey.toList ++ [E.didKey E.rotationKeypair])
        perDidRotationKey } := by
  obtain ⟨did', -, h⟩ := except_bind_ok.1 h
  cases h
  simp [docContents, ensureHttpPrefix_https]

/-- The document of a new account is ours: its endpoint is the public URL, and a key it lists is one
that the check knows. -/
def OursBy (E : Env) (cfg : ServiceConfig) (recoveryKey known : Option String) : Prop :=
  cfg.publicUrl = "https://" ++ E.hostname ∧
    ∃ key, (known = some key ∨ globalPlcRotationKeyDid E cfg = some key) ∧
      (recoveryKey = some key ∨ key = E.didKey E.rotationKeypair)

theorem assertValidDocContents_genesisOp {E : Env} {cfg : ServiceConfig}
    {recoveryKey known : Option String} {handle did : String} {op : Operation}
    (h : genesisOp E recoveryKey handle = .ok (did, op)) :
    assertValidDocContents E cfg (docContents op known) = .ok () ↔ OursBy E cfg recoveryKey known := by
  have hholds : holdsKey E cfg known (recoveryKey.toList ++ [E.didKey E.rotationKeypair]) = true ↔
      ∃ key, (known = some key ∨ globalPlcRotationKeyDid E cfg = some key) ∧
        (recoveryKey = some key ∨ key = E.didKey E.rotationKeypair) := by
    simp only [holdsKey, Bool.or_eq_true, Option.any_eq_true, decide_eq_true_eq, List.mem_append,
      Option.mem_toList, List.mem_singleton]
    constructor
    · rintro (⟨key, hk, hmem⟩ | ⟨key, hk, hmem⟩)
      · exact ⟨key, .inl hk, hmem⟩
      · exact ⟨key, .inr hk, hmem⟩
    · rintro ⟨key, hk | hk, hmem⟩
      · exact .inl ⟨key, hk, hmem⟩
      · exact .inr ⟨key, hk, hmem⟩
  rw [docContents_genesisOp h, assertValidDocContents, OursBy, ← hholds]
  by_cases hurl : cfg.publicUrl = "https://" ++ E.hostname
  · cases hk : holdsKey E cfg known (recoveryKey.toList ++ [E.didKey E.rotationKeypair]) <;>
      simp [hurl, hk]
  · have hne : some ("https://" ++ E.hostname) ≠ some cfg.publicUrl := by
      simpa using Ne.symm hurl
    cases hk : holdsKey E cfg known (recoveryKey.toList ++ [E.didKey E.rotationKeypair]) <;>
      simp [hurl, hk, hne]

/-! ## A request that creates an account -/

/-- The request mints a DID and creates its account, also where a later step fails. -/
structure Mints (E : Env) (requester : Option String) (input : CheckedInput)
    (v : ValidatedCreateAccount E) (s : State) : Prop where
  noDid : input.did = none
  validated : validateDid E requester input = .ok v
  submits : Submits E v.did s
  created : AccountCreated E (v.opts E.commit) s

theorem validateDid_minted {E : Env} {requester : Option String} {input : CheckedInput}
    {v : ValidatedCreateAccount E} (hno : input.did = none)
    (h : validateDid E requester input = .ok v) :
    ∃ op, genesisOp E input.recoveryKey input.givenHandle = .ok (v.did, op) ∧
      v.plcOp = some op ∧ v.plcRotationKey = some E.rotationKeypair ∧ v.deactivated = false := by
  unfold validateDid at h
  rw [hno] at h
  dsimp only at h
  split at h
  · cases h
  · rename_i did op hgenesis
    cases h
    exact ⟨op, hgenesis, rfl, rfl, rfl⟩

/-- A request that answers has created its account. -/
theorem mints_of_ok {E : Env} {requester : Option String} {input : CheckedInput} {s t : State}
    {out : CreateAccountOutput} (hno : input.did = none)
    (h : (innerCreateAccount E requester (.ok input)).exec s = (.ok out, t)) :
    ∃ v, Mints E requester input v s ∧ v.did = out.did := by
  obtain ⟨v, _, hv, h⟩ := exec_bind_ok.1 h
  rw [exec_ofExcept, Prod.mk.injEq] at hv
  obtain ⟨hv, rfl⟩ := hv
  replace hv : validateDid E requester input = .ok v := hv
  obtain ⟨op, -, hop, hkey, -⟩ := validateDid_minted hno hv
  rw [createValidated, hop, hkey] at h
  obtain ⟨_, _, hopen, h⟩ := exec_bind_ok.1 h
  obtain ⟨hopens, rfl, rfl⟩ := (openRepo_ok E handlerFlow v.did E.rotationKeypair).1 hopen
  obtain ⟨_, u, hsend, h⟩ := exec_bind_ok.1 h
  obtain ⟨hsends, rfl⟩ := (does_sendOperation E v.did op _ u).1 <|
    (orDestroy_ok E handlerFlow v.did .sendOperation).1 hsend
  obtain ⟨tokens, w, hreg, h⟩ := exec_bind_ok.1 h
  have hcreate := (orDestroy_ok E handlerFlow v.did .createAccount).1 hreg
  obtain ⟨r, account, hexec, hr⟩ := exec_onAccount_createAccount E (v.opts E.commit)
    { keyStored v.did E.rotationKeypair (created v.did E.signingKey s) with
      accepted := (keyStored v.did E.rotationKeypair (created v.did E.signingKey s)).accepted ++
        [(v.did, op)] }
  have hcreated := hr.1 ⟨tokens, congrArg Prod.fst (hexec.symm.trans hcreate)⟩
  refine ⟨v, ⟨hno, hv, ⟨hopens, hsends⟩, ⟨hcreated.registers, hcreated.completes⟩⟩, ?_⟩
  obtain ⟨_, _, -, h⟩ := exec_bind_ok.1 h
  obtain ⟨_, _, -, h⟩ := exec_bind_ok.1 h
  obtain ⟨_, _, -, h⟩ := exec_bind_ok.1 h
  cases h
  rfl

def SameActors (s t : State) : Prop := t.account.actor = s.account.actor

theorem sameActors_refl (s : State) : SameActors s s := rfl

theorem sameActors_trans (s t u : State) (h : SameActors s t) (k : SameActors t u) :
    SameActors s u := Eq.trans k h

theorem OnlyAnnounces.sameActors (s t : State) (h : OnlyAnnounces s t) : SameActors s t := by
  obtain ⟨_, _, rfl⟩ := h
  rfl

theorem sameActors_finishValidated (E : Env) (v : ValidatedCreateAccount E) (commit : Commit)
    (tokens : String × String) : Keeps (finishValidated E v commit tokens) SameActors :=
  (onlyAnnounces_finishValidated E v commit tokens).mono OnlyAnnounces.sameActors

/-- What the account's creation leaves, for its DID. -/
structure Minted (E : Env) (v : ValidatedCreateAccount E) (op : Operation) (t : State) : Prop where
  document : documentData v.did t = some op
  hasDb : hasDb v.did t = true
  safe : safePathPart v.did = true
  rotationKey : rotationKeyOf v.did t = some E.rotationKeypair
  actor : t.account.actor.lookup v.did =
    some (Account.newActor (E.account.now .registerActor) v.handle (some false))

theorem documentData_append (did : String) (op : Operation) (s : State) :
    documentData did { s with accepted := s.accepted ++ [(did, op)] } = some op := by
  simp [documentData, List.filter_append]

/-- A rotation key is stored beside the database. -/
theorem hasDb_keyStored (did : String) (keypair signingKey : Keypair) (s : State) :
    hasDb did (keyStored did keypair (created did signingKey s)) = true := by
  have hmade : (((makeDir did (created did signingKey s)).dirs.lookup did).getD .empty).db =
      hasDb did (makeDir did (created did signingKey s)) := by
    rw [hasDb]
    cases (makeDir did (created did signingKey s)).dirs.lookup did <;> rfl
  rw [keyStored, hasDb_writeDir]
  dsimp only
  rw [hmade, hasDb_makeDir, created, hasDb_writeDir]

theorem minted_of_mints {E : Env} {requester : Option String} {input : CheckedInput}
    {v : ValidatedCreateAccount E} {s : State} (h : Mints E requester input v s) :
    ∃ op, genesisOp E input.recoveryKey input.givenHandle = .ok (v.did, op) ∧
      Minted E v op ((innerCreateAccount E requester (.ok input)).exec s).2 := by
  obtain ⟨op, hgenesis, hop, hkey, hdeact⟩ := validateDid_minted h.noDid h.validated
  refine ⟨op, hgenesis, ?_⟩
  have hvalidated : (Except.ok input >>= validateDid E requester) = .ok v := h.validated
  rw [innerCreateAccount, hvalidated, exec_bind, exec_ofExcept]
  dsimp only
  rw [createValidated, hop, hkey, exec_of_submits E handlerFlow v.did h.submits]
  -- the account manager takes the account
  have hcreated : AccountCreated E (v.opts E.commit) (submitted E v.did E.rotationKeypair op s) :=
    ⟨h.created.registers, h.created.completes⟩
  obtain ⟨tokens, account, hexec⟩ :=
    (Account.createAccount_ok_iff E.account (v.opts E.commit) _).2 ⟨hcreated.1, hcreated.2⟩
  have hactor := Account.actor_of_createAccount hexec
  have hzoom : (onAccount (Account.createAccount E.account (v.opts E.commit))).exec
      (submitted E v.did E.rotationKeypair op s) =
      (.ok tokens, { submitted E v.did E.rotationKeypair op s with account }) := by
    rw [onAccount, exec_zoom, hexec]
  rw [exec_bind, registerAccount, (orDestroy_ok E handlerFlow _ .createAccount).2 hzoom]
  dsimp only
  -- and the rest keeps it
  have hkeys := sameKeys_finishValidated E v E.commit tokens
    { submitted E v.did E.rotationKeypair op s with account }
  have hrows := sameActors_finishValidated E v E.commit tokens
    { submitted E v.did E.rotationKeypair op s with account }
  refine ⟨?_, ?_, h.submits.opens.safe, ?_, ?_⟩
  · rw [documentData, hkeys.accepted]
    exact documentData_append v.did op _
  · rw [hasDb, hkeys.dirs]
    exact hasDb_keyStored v.did E.rotationKeypair E.signingKey s
  · rw [rotationKeyOf, hkeys.dirs]
    exact rotationKeyOf_keyStored v.did E.rotationKeypair (created v.did E.signingKey s)
  · rw [show _ = account.actor from hrows, hactor, Account.withActor, Table.lookup_insert_eq]
    show (if v.did = v.did then some (Account.newActor _ v.handle (some v.deactivated)) else _) = _
    rw [if_pos rfl, hdeact]

/-! ## Deactivated and activated again -/

theorem isDid_of_isPlcDid {did : String} (h : isPlcDid did = true) : Account.isDid did = true := by
  have hshort : "did:".toList <+: "did:plc".toList := by decide
  exact List.isPrefixOf_iff_prefix.2 (hshort.trans (List.isPrefixOf_iff_prefix.1 h))

section

variable {E : Env} {cfg : ServiceConfig} {A : ActivateEnv} {did : String} {s t : State}

theorem exec_runtime {δ α : Type} (x : Call δ α) (s : State) :
    (runtime x).exec s = ((x.exec s).1.mapError fun _ => .runtimeError, (x.exec s).2) :=
  exec_mapError _ _ _

theorem exec_sequenceOrFail (fault : Option String) (e : SeqEvent) (s : State) :
    (sequenceOrFail fault e).exec s = match fault with
      | some _ => (.error .runtimeError, s)
      | none => (.ok (), { s with sequenced := s.sequenced ++ [e] }) := by
  rw [sequenceOrFail, exec_bind, exec_attempt]
  cases fault <;> rfl

/-- The actor's row is updated. -/
def withActorRow (did : String) (f : Account.ActorRow → Account.ActorRow) (s : State) : State :=
  { s with account := { s.account with actor := s.account.actor.update did f } }

theorem exec_updateActor (fault : Option String) (did : String)
    (f : Account.ActorRow → Account.ActorRow) (s : State) :
    (runtime (onAccount (Account.updateActor fault did f))).exec s = match fault with
      | some _ => (.error .runtimeError, s)
      | none => (.ok (), withActorRow did f s) := by
  rw [exec_runtime, onAccount, exec_zoom, Account.updateActor, Account.execute, exec_statement]
  cases fault <;> rfl

/-- `activate_account`'s change of the row. -/
def activated (did : String) : State → State :=
  withActorRow did fun r => { r with deactivatedAt := none, deleteAfter := none }

/-- What stands between the activation and its events. -/
structure ReadsRepo (A : ActivateEnv) (did : String) (s : State) : Prop where
  openDb : A.access .openDb = none
  hasDb : hasDb did s = true
  safe : safePathPart did = true
  syncData : A.access .syncData = none
  getStatus : A.access .getStatus = none

theorem does_readActor (A : ActivateEnv) (did : String) : Does (readActor A did)
    (fun s => A.access .openDb = none ∧ hasDb did s = true ∧ safePathPart did = true) id := by
  intro s t
  rw [readActor, exec_bind, exec_attempt]
  cases A.access .openDb with
  | some e => simp
  | none =>
    dsimp only [Option.map_none, Option.elim_none]
    rw [exec_bind, exec_get]
    dsimp only
    by_cases hdb : hasDb did s = true
    · rw [if_pos hdb, exec_getLocation]
      by_cases hsafe : safePathPart did = true <;> simp [hdb, hsafe, eq_comm]
    · simp [hdb]

theorem reads_readActor (A : ActivateEnv) (did : String) : Reads (readActor A did) := by
  intro s
  rw [readActor, exec_bind, exec_attempt]
  cases A.access .openDb with
  | some e => rfl
  | none =>
    dsimp only [Option.map_none, Option.elim_none]
    rw [exec_bind, exec_get]
    dsimp only
    split
    · rw [exec_getLocation]
    · rfl

/-- The events' answer once the row is updated, or an error with the row updated. -/
theorem exec_activateFound {account : Account.ActorAccount} (h : A.access .activate = none) :
    (ReadsRepo A did s ∧ (activateFound A did account).exec s =
      (announceActivation A did account.handle
        (Account.statusOf did (activated did s).account)).exec (activated did s)) ∨
    (¬ ReadsRepo A did s ∧ ∃ e, (activateFound A did account).exec s = (.error e, activated did s)) := by
  have hactivate : (runtime (onAccount (Account.activateAccount (A.access .activate) did))).exec s =
      (.ok (), activated did s) := by
    rw [Account.activateAccount, exec_updateActor, h]
    rfl
  have hread_iff := Does.fst_eq_ok_iff (does_readActor A did) (activated did s)
  rw [activateFound, exec_bind, hactivate]
  dsimp only
  rw [exec_bind, exec_runtime, (reads_readActor A did) (activated did s)]
  cases hread : ((readActor A did).exec (activated did s)).1 with
  | error e =>
    refine .inr ⟨fun hr => ?_, _, rfl⟩
    have hok := hread_iff.2 ⟨hr.openDb, hr.hasDb, hr.safe⟩
    rw [hread] at hok
    cases hok
  | ok _ =>
    obtain ⟨hopen, hdb, hsafe⟩ := hread_iff.1 hread
    dsimp only [Except.mapError]
    rw [exec_bind, exec_attempt]
    cases hsync : A.access .syncData with
    | some e => exact .inr ⟨fun hr => by simp [hr.syncData] at hsync, _, rfl⟩
    | none =>
      dsimp only [Option.map_none, Option.elim_none]
      rw [exec_bind, exec_runtime, onAccount, exec_zoom, Account.getAccountStatus,
        Account.exec_query]
      cases hstatus : A.access .getStatus with
      | some e => exact .inr ⟨fun hr => by simp [hr.getStatus] at hstatus, _, rfl⟩
      | none => exact .inl ⟨⟨hopen, hdb, hsafe, hsync, hstatus⟩, rfl⟩

theorem exec_announceActivation_works (hA : A.Works) (handle : Option String)
    (status : Account.AccountStatus) (s : State) :
    ((announceActivation A did handle status).exec s).1 = .ok () := by
  simp only [announceActivation, exec_bind, exec_sequenceOrFail, hA _]

/-- An account that is there, not taken down, with its repo and a document that is ours, is
activated. -/
theorem innerActivateAccount_ok (hA : A.Works) (hdid : Account.isDid did = true)
    (hdoc : assertValidDidDocumentsForService E cfg none did s = .ok ()) (hdb : hasDb did s = true)
    (hsafe : safePathPart did = true) {r : Account.ActorRow}
    (hrow : s.account.actor.lookup did = some r) (htaken : r.takedownRef = none) :
    ∃ t, (innerActivateAccount E cfg A (some did)).exec s = (.ok (), t) := by
  have hfound : Account.findAccount did (some ⟨none, some true⟩) s.account =
      some (Account.actorAccount s.account did r) := by
    rw [Account.findAccount_did hdid, hrow]
    simp [Account.AvailabilityFlags.admits, htaken]
  have hassert : (assertDocument E cfg A did).exec s = (.ok (), s) := by
    rw [assertDocument, exec_bind, exec_get, hA]
    dsimp only
    rw [exec_ofExcept, hdoc]
    rfl
  have hget : (runtime (onAccount (Account.getAccount (A.access .getAccount) did
      (some ⟨none, some true⟩)))).exec s = (.ok (some (Account.actorAccount s.account did r)), s) := by
    rw [exec_runtime, onAccount, exec_zoom, Account.getAccount, Account.exec_query, hA, hfound]
    rfl
  rw [innerActivateAccount, tokenDid, exec_bind, exec_ofExcept]
  dsimp only
  rw [exec_bind, hassert]
  dsimp only
  rw [exec_bind, hget]
  dsimp only
  rcases @exec_activateFound A did s (Account.actorAccount s.account did r) (hA .activate) with ⟨-, hexec⟩ | ⟨hr, -⟩
  · exact ⟨_, Prod.ext (hexec ▸ exec_announceActivation_works hA _ _ _) rfl⟩
  · exact absurd ⟨hA _, hdb, hsafe, hA _, hA _⟩ hr

/-- The check that `checkAccountStatus` reports on passes, and after a deactivation the account can be
activated. -/
structure Activatable (E : Env) (cfg : ServiceConfig) (did : String) (s : State) : Prop where
  valid : isValidDidDocForService E cfg none did s = true
  reactivates : ∀ A now deleteAfter, A.Works →
    ∃ t, (innerDeactivateAccount A now (some did) deleteAfter >>= fun _ =>
      innerActivateAccount E cfg A (some did)).exec s = (.ok (), t)

theorem isValidDidDocForService_iff (fault : Option String) :
    isValidDidDocForService E cfg fault did s = true ↔
      assertValidDidDocumentsForService E cfg fault did s = .ok () := by
  unfold isValidDidDocForService
  cases assertValidDidDocumentsForService E cfg fault did s <;> simp [Except.isOk, Except.toBool]

/-- The document of a new account, before the check with some of its own keys at hand. -/
theorem Minted.assertValid {v : ValidatedCreateAccount E} {op : Operation} (h : Minted E v op s)
    (hplc : isPlcDid v.did = true) {recoveryKey : Option String} {handle : String}
    (hgenesis : genesisOp E recoveryKey handle = .ok (v.did, op)) (perDid : State → Option Keypair) :
    assertValidDidDocuments E cfg none perDid v.did s = .ok () ↔
      OursBy E cfg recoveryKey ((perDid s).map E.didKey) := by
  unfold assertValidDidDocuments
  rw [if_pos hplc, h.document]
  exact assertValidDocContents_genesisOp hgenesis

theorem isPlcDid_of_genesisOp (hplc : ∀ op did, E.didOf op = .ok did → isPlcDid did = true)
    {recoveryKey : Option String} {handle : String} {op : Operation}
    (h : genesisOp E recoveryKey handle = .ok (did, op)) : isPlcDid did = true := by
  obtain ⟨did', hof, heq⟩ := except_bind_ok.1 h
  cases heq
  exact hplc _ _ hof

/-- **An account that was created under a minted DID stays activatable if and only if its
operation's endpoint is the public URL and the shared rotation key is configured and listed: as the
recovery key, or as the generated one.** -/
theorem activatable_iff {requester : Option String} {input : CheckedInput}
    {v : ValidatedCreateAccount E} (hplc : ∀ op did, E.didOf op = .ok did → isPlcDid did = true)
    (h : Mints E requester input v s) :
    Activatable E cfg v.did ((innerCreateAccount E requester (.ok input)).exec s).2 ↔
      OursBy E cfg input.recoveryKey none := by
  obtain ⟨op, hgenesis, hminted⟩ := minted_of_mints h
  have hdid := isPlcDid_of_genesisOp hplc hgenesis
  have hvalid := @Minted.assertValid E cfg _ _ _ hminted hdid _ _ hgenesis fun _ => none
  constructor
  · exact fun ha => hvalid.1 ((isValidDidDocForService_iff none).1 ha.valid)
  · intro hours
    refine ⟨(isValidDidDocForService_iff none).2 (hvalid.2 hours), fun A now deleteAfter hA => ?_⟩
    rw [innerDeactivateAccount, tokenDid, exec_bind, exec_bind, exec_ofExcept]
    dsimp only
    rw [Account.deactivateAccount, exec_updateActor, hA .deactivate]
    dsimp only
    refine innerActivateAccount_ok hA (isDid_of_isPlcDid hdid) (hvalid.2 hours) hminted.hasDb
      hminted.safe (r := { Account.newActor (E.account.now .registerActor) v.handle (some false) with
        deactivatedAt := some now, deleteAfter }) ?_ rfl
    rw [withActorRow, Table.lookup_update, if_pos rfl, hminted.actor]
    rfl

/-- With the store at hand the check knows the generated key, and the endpoint alone decides. -/
theorem validWithStore_iff {requester : Option String} {input : CheckedInput}
    {v : ValidatedCreateAccount E} (hplc : ∀ op did, E.didOf op = .ok did → isPlcDid did = true)
    (h : Mints E requester input v s) :
    assertValidDidDocumentsForServiceWithStore E cfg none v.did
        ((innerCreateAccount E requester (.ok input)).exec s).2 = .ok () ↔
      cfg.publicUrl = "https://" ++ E.hostname := by
  obtain ⟨op, hgenesis, hminted⟩ := minted_of_mints h
  refine (hminted.assertValid (isPlcDid_of_genesisOp hplc hgenesis) hgenesis _).trans ?_
  refine ⟨fun hours => hours.1, fun hurl => ⟨hurl, E.didKey E.rotationKeypair, .inl ?_, .inr rfl⟩⟩
  rw [hminted.rotationKey]
  rfl

end

/-! ## One server -/

/-- Every keypair has its own key text. -/
def keyedEnv : Env := { workingEnv with
  didKey := fun keypair => "did:key:z" ++ String.ofList (keypair.secret.map fun b =>
    Char.ofNat (64 + b.toNat)) }

/-- The endpoint is the public URL, and a shared rotation key is configured. -/
def sharedKeyConfig : ServiceConfig := ⟨"https://x.test", some ⟨[3]⟩⟩

def carolsBody : CheckedInput :=
  ⟨"carol@x.test", "carol.test", "carol.test", none, "secret", none, none⟩

theorem keyedEnv_mints (recoveryKey : Option String) : ∃ v,
    Mints keyedEnv none { carolsBody with recoveryKey } v .empty ∧ v.did = "did:plc:bob" := by
  have hsafe : safePathPart "did:plc:bob" = true := by decide
  refine ⟨_, ⟨rfl, rfl, ⟨⟨hsafe, rfl, fun _ _ => rfl⟩, rfl⟩, ⟨⟨_, rfl⟩, nofun, rfl, ?_, ?_⟩,
    fun p hp => ?_⟩, rfl⟩
  · exact Finmap.notMem_empty
  · rfl
  · cases hp
    refine ⟨fun email password he hp => ?_, nofun, ⟨rfl, rfl⟩, rfl, nofun⟩
    exact ⟨rfl, Finmap.notMem_empty, rfl⟩

theorem isPlcDid_keyedEnv (op : Operation) (did : String) (h : keyedEnv.didOf op = .ok did) :
    isPlcDid did = true := by
  cases h
  decide

/-- The shared key is the account's recovery key. -/
theorem activatable_shared_recovery_key :
    Activatable keyedEnv sharedKeyConfig "did:plc:bob"
      ((innerCreateAccount keyedEnv none
        (.ok { carolsBody with recoveryKey := some "did:key:zC" })).exec .empty).2 := by
  have hours : OursBy keyedEnv sharedKeyConfig (some "did:key:zC") none :=
    ⟨rfl, "did:key:zC", .inr (by decide), .inl rfl⟩
  obtain ⟨v, hv, hdid⟩ := keyedEnv_mints (some "did:key:zC")
  rw [← hdid]
  exact (activatable_iff isPlcDid_keyedEnv hv).2 hours

/-- An account without a recovery key is created, and its document is not recognized. -/
theorem new_account_not_activatable : ∃ v : ValidatedCreateAccount keyedEnv,
    Mints keyedEnv none carolsBody v .empty ∧ ¬ Activatable keyedEnv sharedKeyConfig v.did
      ((innerCreateAccount keyedEnv none (.ok carolsBody)).exec .empty).2 := by
  obtain ⟨v, hv, hdid⟩ := keyedEnv_mints none
  refine ⟨v, hv, fun h => ?_⟩
  have hvalid := h.valid
  rw [hdid] at hvalid
  exact absurd hvalid (by decide)

end CacosPds.Server
