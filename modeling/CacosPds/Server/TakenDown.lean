import CacosPds.Lib.Programs
import CacosPds.Account.Invites
import CacosPds.Server.AppPasswords
import CacosPds.Server.Emails
import Mathlib.Logic.Function.Basic
/-!
# Requests of an account that is taken down (`xrpc/auth_extractors.rs`, `auth/verifier/{bearer,admin}.rs`)

| here | there |
| --- | --- |
| `validateAccessToken` | `validate_access_token_inner` with `validate_dpop_access_token`; `Header` holds what the signature check of the token says |
| `Extractor`     | the `FromRequest` impls of `auth_extractors.rs` (`:82-173`), by their scopes and options |
| `Request`       | the endpoints of `xrpc/mod.rs` and `oauth_routes` that take a credential of an account; `Request.program` is the handler, statement by statement |
| `takedownAccount` | `takedown_account` (`account/mod.rs:227-233`) |
| `World.down`    | a takedown has completed and no `not applied` has begun since |
| `Env.grants`    | **external boundary**: whether `provider.token` answers a grant, given the account that the store has for it |
| `Choice`        | faults, clocks and random texts; `answer` and `write` stand for what a handler reads or writes that has no part in this: mails, email confirmations, the DID document, the contents of a repo |

A handler asks for the status of the account in its extractor (`AccessStandardIncludeChecks`), or by the
flags of a lookup (`notTakenDown`), or by the row that it found (`createSession`, `refreshSession`).
`Request.Unguarded` are the six that do none of these.
-/
namespace CacosPds.Server.TakenDown

open Stages Programs Programs.Prog Runs Sql

/-! ## Access tokens -/

inductive AuthScope where
  | access
  | refresh
  | appPass
  | appPassPrivileged
  | signupQueued
  deriving DecidableEq

inductive AuthError where
  | expiredToken
  | badJwt (what : String)
  | authRequired (what : String)
  | accountNotFound (what : String)
  | accountTakedown (what : String)
  | accountDeactivated (what : String)

def AuthError.display : AuthError → String
  | .expiredToken => "ExpiredToken: `Token is expired`"
  | .badJwt what => "BadJwt: `" ++ what ++ "`"
  | .authRequired what => "AuthRequired: `" ++ what ++ "`"
  | .accountNotFound what => "AccountNotFound: `" ++ what ++ "`"
  | .accountTakedown what => "AccountTakedown: `" ++ what ++ "`"
  | .accountDeactivated what => "AccountDeactivated: `" ++ what ++ "`"

/-- The errors of `CreateAccount`, and three more. -/
inductive Refusal where
  | api (e : ApiError)
  | expiredToken
  | accountTakendown
  | rateLimitExceeded

def authErrorToApiError : AuthError → Refusal
  | .expiredToken => .expiredToken
  | .authRequired message => .api (.authRequiredError message)
  | e => .api (.invalidRequest e.display)

/-- The `Authorization` header. A bearer JWT comes with its subject and scope, a DPoP token with the
DID and the scopes that the provider has for it. -/
inductive Header where
  | missing
  | bearer (verified : Except AuthError (String × AuthScope))
  | dpop (verified : Except AuthError (String × List String))

structure ValidateAccessTokenOpts where
  checkTakedown : Option Bool
  checkDeactivated : Option Bool

structure Extractor where
  scopes : List AuthScope
  opts : Option ValidateAccessTokenOpts

def accessStandard : Extractor := ⟨[.access, .appPass, .appPassPrivileged], none⟩

def accessFull : Extractor := ⟨[.access], none⟩

def accessStandardIncludeChecks : Extractor :=
  ⟨[.access, .appPass, .appPassPrivileged], some ⟨some true, some true⟩⟩

def oauthScopesToAuthScope (scopes : List String) : Except AuthError AuthScope :=
  if "atproto" ∉ scopes then .error (.badJwt "Bad token scope")
  else if "transition:chat.bsky" ∈ scopes then .ok .appPassPrivileged
  else if "transition:generic" ∈ scopes then .ok .appPass
  else .error (.badJwt "Bad token scope")

def checkScope (scopes : List AuthScope) (scope : AuthScope) : Except AuthError Unit :=
  Account.ensure (scopes.isEmpty || scope ∈ scopes) (.badJwt "Bad token scope")

/-- The DID of a token, as far as the token alone decides: `validate_bearer_token`, and the part of
`validate_dpop_access_token` before the status. -/
def Header.verify (scopes : List AuthScope) : Header → Except AuthError String
  | .missing => .error (.authRequired "AuthMissing")
  | .bearer verified => do
    let (did, scope) ← verified
    Account.ensure (Account.isDid did) (.badJwt "Malformed token")
    checkScope scopes scope
    return did
  | .dpop verified => do
    let (did, granted) ← verified
    let scope ← oauthScopesToAuthScope granted
    checkScope scopes scope
    return did

def checkAccountStatus (account : Option Account.ActorAccount) (checkTakedown checkDeactivated : Bool) :
    Except AuthError Unit :=
  if !checkTakedown && !checkDeactivated then .ok ()
  else match account with
    | none => .error (.accountNotFound "Account not found")
    | some account =>
      if checkTakedown && account.takedownRef.isSome then
        .error (.accountTakedown "Account has been taken down")
      else if checkDeactivated && account.deactivatedAt.isSome then
        .error (.accountDeactivated "Account is deactivated")
      else .ok ()

/-! ## The state -/

/-- `ρ` is the repo of a DID. The blob store is one for all. -/
structure State (ρ β : Type) where
  tables : Account.Tables
  /-- The DIDs that JWTs were signed for; nothing stores the JWTs. -/
  signed : List String
  repo : String → ρ
  blobs : β

structure Choice (ρ β : Type) where
  fault : Option String
  now : String
  nowMicros : Int
  /-- A random text. -/
  fresh : String
  /-- Random invite codes. -/
  codes : List String
  answer : Bool
  write : ρ → ρ
  put : β → β
  /-- What the provider writes, and what it revokes. -/
  oauth : Account.Oauth.Db → Account.Oauth.Db
  revoke : DbId → Account.Oauth.TokenRow → Bool

structure Grant where
  did : String
  refreshToken : String

structure Env where
  lowercase : Account.Lowercase
  passwords : Account.Library
  tokens : Account.Refresh.Library
  serviceDid : String
  grants : Option Account.ActorAccount → Grant → Bool

variable {ρ β : Type}

abbrev Flow (ρ β α : Type) := Prog (Choice ρ β) (State ρ β) Refusal α

/-- A statement on the tables. -/
def onTables {ε α : Type} (x : Stages.Call Account.Tables ε α) : Stages.Call (State ρ β) ε α :=
  zoom State.tables (fun tables s => { s with tables }) x

def onAccounts {ε α : Type} (x : Stages.Call Account.Db ε α) : Stages.Call Account.Tables ε α :=
  zoom Account.Tables.account (fun account s => { s with account }) x

/-- `.map_err(|_| ApiError::RuntimeError)`. -/
def runtimeError {ε : Type} (_ : ε) : Refusal := .api .runtimeError

/-- A statement on the tables of `Account.Db`. -/
def account {α : Type} (x : Choice ρ β → Account.Call α) : Flow ρ β α :=
  stmt fun c => mapError runtimeError (onTables (onAccounts (x c)))

/-- What is left open. -/
def answer : Flow ρ β Bool := stmt fun c => pure c.answer

def ensure (p : Bool) (e : Refusal) : Flow ρ β Unit := .done (Account.ensure p e)

/-- A query on the tables, and what is made of its rows. -/
def ask {α : Type} (x : Account.Tables → Except String α) : Flow ρ β α :=
  stmt fun c => do
    attempt (c.fault.map runtimeError)
    let s ← get
    ofExcept ((x s.tables).mapError runtimeError)

def getAccount (did : String) (flags : Option Account.AvailabilityFlags) :
    Flow ρ β (Option Account.ActorAccount) :=
  account fun c => Account.getAccount c.fault did flags

/-! ## The extractors -/

/-- Whatever goes wrong, the account is not found. -/
def fetchAccountStatus (did : String) :
    Prog (Choice ρ β) (State ρ β) AuthError Account.ActorAccount := do
  let account ← stmt fun c => mapError (fun _ => .accountNotFound "Account not found")
    (onTables (onAccounts (Account.getAccount c.fault did Account.everyAccount)))
  match account with
  | some found => return found
  | none => fail (.accountNotFound "Account not found")

def checkStatus (did : String) (opts : Option ValidateAccessTokenOpts) :
    Prog (Choice ρ β) (State ρ β) AuthError Unit := do
  let opts := opts.getD ⟨some false, some false⟩
  let takedown := opts.checkTakedown.getD false
  let deactivated := opts.checkDeactivated.getD false
  if takedown || deactivated then
    let account ← fetchAccountStatus did
    .done (checkAccountStatus (some account) takedown deactivated)
  else .done (checkAccountStatus none takedown deactivated)

def validateAccessToken (header : Header) (x : Extractor) :
    Prog (Choice ρ β) (State ρ β) AuthError String := do
  let did ← .done (header.verify x.scopes)
  checkStatus did x.opts
  return did

/-- The extractor in front of a handler. -/
def extract (header : Header) (x : Extractor) : Flow ρ β String :=
  (validateAccessToken header x).mapError authErrorToApiError

/-! ## Sessions -/

/-- `create_tokens` and `decode_refresh_token`. -/
def signTokens (E : Env) (did : String) (scope : Account.Refresh.AuthScope) (jti : String) :
    Stages.Call (State ρ β) Refusal Account.RefreshToken := do
  let (_, refreshJwt) ← ofExcept
    ((E.tokens.createTokens did E.serviceDid scope jti).mapError runtimeError)
  let payload ← ofExcept ((E.tokens.decodeRefreshToken refreshJwt).mapError runtimeError)
  modify fun s => { s with signed := s.signed ++ [did] }
  return payload

/-- `create_session` of the account manager; the lockout by its answer. -/
def openSession (E : Env) (did : String) (appPasswordName : Option String) : Flow ρ β Unit := do
  ensure (!(← answer)) .rateLimitExceeded
  let scope := if appPasswordName.isNone then .access else .appPass
  let payload ← stmt fun c => signTokens E did scope c.fresh
  account fun c => Account.storeRefreshToken c.fault E.tokens.formatMillis payload appPasswordName

/-- The password of the account, or else the name of the app password. -/
def verifyPasswords (E : Env) (did password : String) : Flow ρ β (Option String) := do
  if ← ask fun s => Account.verifyAccountPassword E.passwords did password s.account then
    return none
  let name ← ask fun s => Account.verifyAppPassword E.passwords did password s.appPassword
  ensure name.isSome (.api .invalidLogin)
  return name

/-- The user that a log-in names; what fails is an unknown user. -/
def loginUser (E : Env) (identifier : String) : Flow ρ β Account.ActorAccount := do
  let user ← stmt fun c => mapError (fun _ => .api .invalidLogin)
    (onTables (onAccounts (sessionUser c.fault E.lowercase identifier)))
  match user with
  | some user => return user
  | none => fail (.api .invalidLogin)

def createSession (E : Env) (identifier password : String) : Flow ρ β Unit := do
  let user ← loginUser E identifier
  ensure (!(← answer)) .rateLimitExceeded
  let name ← verifyPasswords E user.did password
  ensure user.takedownRef.isNone .accountTakendown
  openSession E user.did name

/-- `true` for a `ConcurrentRefresh`. -/
def addGrace (next : Account.Refresh.Successor) (id : String) : Flow ρ β Bool :=
  account fun c => rescue
    (do
      Account.Refresh.addRefreshGracePeriod c.fault id next.expiresAt next.nextId
      return false)
    fun e => if e = .concurrentRefresh then return true else throw e

def storeToken (E : Env) (next : Account.Refresh.Successor) (row : Account.RefreshTokenRow) :
    Flow ρ β Unit :=
  account fun c =>
    Account.storeRefreshToken c.fault E.tokens.formatMillis next.payload row.appPasswordName

/-- `rotate_refresh_token`; `rounds` bounds how often another rotation gets in between. -/
def rotateRefreshToken (E : Env) (id : String) : Nat → Flow ρ β Unit
  | 0 => fail (.api .runtimeError)
  | rounds + 1 => do
    match ← account fun c => Account.Refresh.getRefreshToken c.fault id with
    | none => fail .expiredToken
    | some row =>
      account fun c => Account.Refresh.deleteExpiredRefreshTokens c.fault row.did c.now
      let next ← stmt fun c => do
        let next ← ofExcept
          ((Account.Refresh.prepareSuccessor E.tokens E.serviceDid row c.nowMicros c.fresh).mapError
            runtimeError)
        if next.isSome then modify fun s => { s with signed := s.signed ++ [row.did] }
        return next
      match next with
      | none => fail .expiredToken
      | some next =>
        -- the two statements of the `try_join!`, in either order
        if ← answer then
          storeToken E next row
          if ← addGrace next id then rotateRefreshToken E id rounds
        else if ← addGrace next id then rotateRefreshToken E id rounds
        else storeToken E next row

/-- A refresh token, verified: its subject, and its `jti` if it has one. -/
abbrev RefreshHeader := Except AuthError (String × Option String)

def refreshSession (E : Env) (header : RefreshHeader) (rounds : Nat) : Flow ρ β Unit := do
  let (did, tokenId) ← .done (header.mapError authErrorToApiError)
  match tokenId with
  | none => fail (.api (.invalidRequest "Missing token id on refresh token"))
  | some tokenId =>
    match ← getAccount did Account.everyAccount with
    | none => fail (.api .accountNotFound)
    | some user =>
      ensure user.takedownRef.isNone .accountTakendown
      rotateRefreshToken E tokenId rounds

def deleteSession (header : RefreshHeader) : Flow ρ β Unit := do
  let (_, tokenId) ← .done (header.mapError authErrorToApiError)
  match tokenId with
  | none => fail (.api (.invalidRequest "Unexpected missing refresh token id"))
  | some tokenId => account fun c => Account.Refresh.revokeRefreshToken c.fault tokenId

/-! ## App passwords -/

def createAppPassword (E : Env) (header : Header) (name : String) : Flow ρ β Unit := do
  let did ← extract header accessStandard
  stmt fun c => do
    attempt (c.fault.map runtimeError)
    let hash ← ofExcept ((E.passwords.hashAppPassword did c.fresh).mapError runtimeError)
    onTables <| statement
      (fun s => if (did, name) ∈ s.appPassword then some (.api .runtimeError) else none)
      (AppPasswords.insertAppPassword c.now did name hash)

def revokeAppPassword (header : Header) (name : String) : Flow ρ β Unit := do
  let did ← extract header accessStandard
  both Choice.answer
    (fun c => mapError runtimeError
      (onTables (statement (fun _ => c.fault) (AppPasswords.deleteAppPassword did name))))
    fun c => mapError runtimeError
      (onTables (onAccounts (Account.Refresh.revokeAppPasswordRefreshToken c.fault did name)))

/-! ## The account -/

/-- The document by its answer; the events after it are not part of the state. -/
def activateAccount (header : Header) : Flow ρ β Unit := do
  let did ← extract header accessFull
  ensure (← answer) (.api .runtimeError)
  match ← getAccount did notTakenDown with
  | some _ => account fun c => Account.activateAccount c.fault did
  | none => fail (.api .runtimeError)

def deactivateAccount (header : Header) (deleteAfter : Option String) : Flow ρ β Unit := do
  let did ← extract header accessFull
  account fun c => Account.deactivateAccount c.fault c.now did deleteAfter

def deleteEmailTokens (p : Account.EmailTokenPurpose × String → Bool) (fault : Option String) :
    Stages.Call Account.Tables String Unit :=
  statement (fun _ => fault) fun s =>
    { s with emailToken := s.emailToken.deleteWhere fun k _ => p k }

def assertValidToken (E : Env) (did : String) (purpose : Account.EmailTokenPurpose) (token : String) :
    Flow ρ β Unit :=
  ask fun s => Account.assertValidToken E.passwords did purpose token s.emailToken

/-- Beside the deletion of the token, `emailConfirmedAt` is set. -/
def confirmEmail (E : Env) (header : Header) (email token : String) : Flow ρ β Unit := do
  let did ← extract header accessFull
  match ← getAccount did notTakenDown with
  | none => fail (.api .accountNotFound)
  | some user =>
    match user.email with
    | none => fail (.api (.invalidRequest "Missing Email"))
    | some userEmail =>
      ensure (userEmail = E.lowercase.toLowercase email) (.api .invalidEmail)
      assertValidToken E did .confirmEmail token
      both Choice.answer
        (fun c => mapError runtimeError
          (onTables (deleteEmailTokens (· = (.confirmEmail, did)) c.fault)))
        fun c => attempt (c.fault.map runtimeError)

/-- `account.email_confirmed_at.is_some()` by its answer. -/
def updateEmail (E : Env) (header : Header) (email : String) (token : Option String) :
    Flow ρ β Unit := do
  let did ← extract header accessFull
  ensure (!email.toList.isEmpty) (.api .runtimeError)
  match ← getAccount did notTakenDown with
  | none => fail (.api .runtimeError)
  | some _ =>
    if ← answer then
      match token with
      | some token => assertValidToken E did .updateEmail token
      | none => fail (.api .runtimeError)
    both Choice.answer
      (fun c => mapError runtimeError
        (onTables (onAccounts (Account.updateEmail c.fault none E.lowercase did email))))
      fun c => mapError runtimeError (onTables (deleteEmailTokens (·.2 = did) c.fault))

def createEmailToken (did : String) (purpose : Account.EmailTokenPurpose) (c : Choice ρ β) :
    Stages.Call (State ρ β) Refusal Unit :=
  mapError runtimeError <| onTables <| statement (fun _ => c.fault) fun s =>
    { s with emailToken := s.emailToken.insert (purpose, did) ⟨c.fresh, c.now⟩ }

/-- `requestEmailConfirmation`, `requestEmailUpdate` and `requestAccountDelete`: a token is mailed, by
the second only if the address is confirmed. -/
def requestEmailToken (header : Header) (purpose : Account.EmailTokenPurpose) : Flow ρ β Unit := do
  let did ← extract header accessFull
  match ← getAccount did Account.everyAccount with
  | none => fail (.api .runtimeError)
  | some account =>
    ensure account.email.isSome (.api .runtimeError)
    if purpose ≠ .updateEmail || (← answer) then
      stmt (createEmailToken did purpose)
      ensure (← answer) (.api .runtimeError)

/-- The codes that are due, each for one use. -/
def createAccountInviteCodes (did : String) (codes : List String) (disabled : Bool) (s : Account.Db) :
    Account.Db :=
  let row : Account.InviteCode := ⟨1, if disabled then 1 else 0, did⟩
  { s with inviteCode := codes.foldl (·.insert · row) s.inviteCode }

/-- How many codes are due, and whether the account's are disabled, by `Choice`. -/
def getAccountInviteCodes (header : Header) (createAvailable : Bool) : Flow ρ β Unit := do
  let did ← extract header accessFull
  let account ← getAccount did none
  ensure account.isSome (.api .runtimeError)
  if createAvailable then
    stmt fun c => mapError runtimeError <| onTables <| onAccounts <| statement
      (fun s => if c.codes.any (· ∈ s.inviteCode) then some "UNIQUE" else c.fault)
      (createAccountInviteCodes did c.codes c.answer)

/-- The checks of `exp` and `lxm` by their answer. -/
def getServiceAuth (header : Header) : Flow ρ β Unit := do
  let did ← extract header accessFull
  ensure (← answer) (.api .runtimeError)
  stmt fun _ => modify fun s => { s with signed := s.signed ++ [did] }

/-! ## The repo -/

/-- `createRecord`, `putRecord`, `deleteRecord` and `applyWrites`. -/
def writeRepo (header : Header) : Flow ρ β Unit := do
  let did ← extract header accessStandardIncludeChecks
  stmt fun c => do
    attempt (c.fault.map runtimeError)
    modify fun s =>
      { s with repo := Function.update s.repo did (c.write (s.repo did)), blobs := c.put s.blobs }

def uploadBlob (header : Header) : Flow ρ β Unit := do
  let _ ← extract header accessStandardIncludeChecks
  stmt fun c => do
    attempt (c.fault.map runtimeError)
    modify fun s => { s with blobs := c.put s.blobs }

/-! ## OAuth -/

/-- `/oauth/token`: the provider asks the store for the account. -/
def oauthToken (E : Env) (grant : Grant) : Flow ρ β Unit := do
  let account ← getAccount grant.did notTakenDown
  ensure (E.grants account grant) (.api .runtimeError)
  stmt fun c => modify fun s =>
    { s with
      tables := { s.tables with oauth := c.oauth s.tables.oauth }, signed := s.signed ++ [grant.did] }

/-- `/oauth/revoke`. -/
def oauthRevoke : Flow ρ β Unit :=
  stmt fun c => mapError runtimeError <| onTables <| statement (fun _ => c.fault) fun s =>
    { s with oauth := { s.oauth with token := s.oauth.token.deleteWhere c.revoke } }

/-! ## The requests -/

inductive Request where
  | createSession (identifier password : String)
  | refreshSession (header : RefreshHeader) (rounds : Nat)
  | deleteSession (header : RefreshHeader)
  /-- `getSession`, `listAppPasswords`. -/
  | readStandard (header : Header)
  /-- `checkAccountStatus`. -/
  | readFull (header : Header)
  | createAppPassword (header : Header) (name : String)
  | revokeAppPassword (header : Header) (name : String)
  | activateAccount (header : Header)
  | deactivateAccount (header : Header) (deleteAfter : Option String)
  | confirmEmail (header : Header) (email token : String)
  | updateEmail (header : Header) (email : String) (token : Option String)
  | requestEmailToken (header : Header) (purpose : Account.EmailTokenPurpose)
  | getAccountInviteCodes (header : Header) (createAvailable : Bool)
  | getServiceAuth (header : Header)
  | writeRepo (header : Header)
  | uploadBlob (header : Header)
  | oauthToken (grant : Grant)
  | oauthRevoke

def Request.program (E : Env) : Request → Flow ρ β Unit
  | .createSession identifier password => TakenDown.createSession E identifier password
  | .refreshSession header rounds => TakenDown.refreshSession E header rounds
  | .deleteSession header => TakenDown.deleteSession header
  | .readStandard header => do let _ ← extract header accessStandard
  | .readFull header => do let _ ← extract header accessFull
  | .createAppPassword header name => TakenDown.createAppPassword E header name
  | .revokeAppPassword header name => TakenDown.revokeAppPassword header name
  | .activateAccount header => TakenDown.activateAccount header
  | .deactivateAccount header deleteAfter => TakenDown.deactivateAccount header deleteAfter
  | .confirmEmail header email token => TakenDown.confirmEmail E header email token
  | .updateEmail header email token => TakenDown.updateEmail E header email token
  | .requestEmailToken header purpose => TakenDown.requestEmailToken header purpose
  | .getAccountInviteCodes header createAvailable =>
    TakenDown.getAccountInviteCodes header createAvailable
  | .getServiceAuth header => TakenDown.getServiceAuth header
  | .writeRepo header => TakenDown.writeRepo header
  | .uploadBlob header => TakenDown.uploadBlob header
  | .oauthToken grant => TakenDown.oauthToken E grant
  | .oauthRevoke => TakenDown.oauthRevoke

/-- The DID of a token whose signature verifies. -/
def Header.subject : Header → Option String
  | .bearer (.ok (did, _)) | .dpop (.ok (did, _)) => some did
  | _ => none

/-- The request may bear a credential that was issued to the DID. Whose password a log-in has, only
its lookup shows. -/
def Request.bears (did : String) : Request → Bool
  | .createSession _ _ | .oauthRevoke => true
  | .refreshSession header _ | .deleteSession header => header.toOption.any (·.1 = did)
  | .oauthToken grant => grant.did = did
  | .readStandard header | .readFull header | .createAppPassword header _
  | .revokeAppPassword header _ | .activateAccount header | .deactivateAccount header _
  | .confirmEmail header _ _ | .updateEmail header _ _ | .requestEmailToken header _
  | .getAccountInviteCodes header _ | .getServiceAuth header | .writeRepo header
  | .uploadBlob header => header.subject = some did

/-! ## The system -/

/-- A call of `takedown_account`, with the statements of its `try_join!` that it has made. -/
structure TakedownCall where
  applied : Bool
  ref : Option String
  updated : Bool
  revoked : Bool
  deriving DecidableEq

def TakedownCall.takedownRef (call : TakedownCall) (now : String) : Option String :=
  if call.applied then some (call.ref.getD now) else none

structure Task (ρ β : Type) where
  program : Flow ρ β Unit
  /-- It bears a credential of the account, and started when that was taken down. -/
  late : Bool

structure World (ρ β : Type) where
  state : State ρ β
  tasks : List (Task ρ β)
  call : Option TakedownCall
  down : Bool

inductive Action (ρ β : Type) where
  | start (r : Request)
  | advance (i : Nat) (c : Choice ρ β)
  | drop (i : Nat)
  /-- `takedown_account`, applied or not. -/
  | takedown (applied : Bool) (ref : Option String)
  /-- Its next statement, which is the update of the actor or the deletion of the tokens. -/
  | advanceTakedown (update : Bool) (c : Choice ρ β)
  /-- Whatever else writes the tables, short of lifting the takedown. -/
  | other (f : State ρ β → State ρ β)

/-- The DID's actor, if there is one, is taken down. -/
def takenDown (did : String) (s : State ρ β) : Bool :=
  (s.tables.account.actor.lookup did).all (·.takedownRef.isSome)

section

variable (E : Env) (did : String)

/-- A call that does not apply ends the takedown as it begins. -/
def beginTakedown (applied : Bool) (ref : Option String) (W : World ρ β) : World ρ β :=
  { W with
    call := some ⟨applied, ref, false, false⟩
    down := W.down && applied
    tasks := if applied then W.tasks else W.tasks.map fun t => { t with late := false } }

def TakedownCall.statement (call : TakedownCall) (update : Bool) (c : Choice ρ β) :
    Account.Call Unit :=
  if update then Account.updateAccountTakedownStatus c.fault did (call.takedownRef c.now)
  else Account.Refresh.revokeRefreshTokensByDid c.fault did

def TakedownCall.hasMade (call : TakedownCall) (update : Bool) : Bool :=
  if update then call.updated else call.revoked

def TakedownCall.made (call : TakedownCall) (update : Bool) : TakedownCall :=
  if update then { call with updated := true } else { call with revoked := true }

def advanceTakedown (call : TakedownCall) (update : Bool) (c : Choice ρ β) (W : World ρ β) :
    World ρ β :=
  match (onTables (onAccounts (call.statement did update c))).exec W.state with
  | (.error _, state) => { W with state, call := none }
  | (.ok _, state) =>
    if (call.made update).updated && (call.made update).revoked then
      { W with state, call := none, down := W.down || call.applied }
    else { W with state, call := some (call.made update) }

def step (W : World ρ β) : Action ρ β → Option (World ρ β)
  | .start r => some
      { W with tasks := W.tasks ++ [⟨r.program E, W.down && r.bears did⟩] }
  | .advance i c => do
    let t ← W.tasks[i]?
    let (state, program) ← t.program.step c W.state
    return { W with state, tasks := W.tasks.set i { t with program } }
  | .drop i => some { W with tasks := W.tasks.eraseIdx i }
  | .takedown applied ref => if W.call.isSome then none else some (beginTakedown applied ref W)
  | .advanceTakedown update c => do
    let call ← W.call
    if call.hasMade update then none
    else return advanceTakedown did call update c W
  | .other f =>
    if takenDown did W.state && !takenDown did (f W.state) then none
    else some { W with state := f W.state }

def World.start (state : State ρ β) : World ρ β := ⟨state, [], none, false⟩

/-! ## The claim -/

/-- Nothing was created for the DID, and nothing of its account has changed. -/
structure Unharmed (s t : State ρ β) : Prop where
  session : ∀ id row, t.tables.account.refreshToken.lookup id = some row → row.did = did →
    ∃ row', s.tables.account.refreshToken.lookup id = some row' ∧ row'.did = did
  appPassword : ∀ name, (did, name) ∈ t.tables.appPassword → (did, name) ∈ s.tables.appPassword
  signed : t.signed.count did = s.signed.count did
  oauthToken : ∀ pk row, t.tables.oauth.token.lookup pk = some row → row.did = did →
    s.tables.oauth.token.lookup pk = some row
  emailToken : ∀ purpose row, t.tables.emailToken.lookup (purpose, did) = some row →
    s.tables.emailToken.lookup (purpose, did) = some row
  inviteCode : ∀ code row, t.tables.account.inviteCode.lookup code = some row →
    row.forAccount = did → s.tables.account.inviteCode.lookup code = some row
  repo : t.repo did = s.repo did
  blobs : t.blobs = s.blobs
  /-- The handle and the status. -/
  actor : t.tables.account.actor.lookup did = s.tables.account.actor.lookup did
  email : (t.tables.account.account.lookup did).map Account.AccountRow.email =
    (s.tables.account.account.lookup did).map Account.AccountRow.email

/-- What a request does that started under the takedown. -/
def Contained (W : World ρ β) : Action ρ β → Prop
  | .advance i c => ∀ t, W.tasks[i]? = some t → t.late = true →
      ∀ W', step E did W (.advance i c) = some W' → Unharmed did W.state W'.state
  | _ => True

/-- The handler writes without a look at the takedown. -/
def Request.unguarded : Request → Bool
  | .createAppPassword header _ => (header.verify accessStandard.scopes).isOk
  | .deactivateAccount header _ | .requestEmailToken header _ | .getServiceAuth header =>
    (header.verify accessFull.scopes).isOk
  | .oauthToken grant => E.grants none grant
  | _ => false

/-- No such request starts under the takedown. -/
def Guarded (W : World ρ β) : Action ρ β → Prop
  | .start r => W.down = true → r.bears did = true → r.unguarded E = false
  | _ => True

instance (W : World ρ β) : ∀ a : Action ρ β, Decidable (Guarded E did W a)
  | .start r => inferInstanceAs
      (Decidable (W.down = true → r.bears did = true → r.unguarded E = false))
  | .advance _ _ | .drop _ | .takedown _ _ | .advanceTakedown _ _ | .other _ => isTrue trivial

end

/-! ## What the lookups find under a takedown -/

section

variable {did : String} {s : State ρ β} {a : Account.ActorAccount}

theorem isSome_takedownRef (hs : takenDown did s = true) {r : Account.ActorRow}
    (hr : s.tables.account.actor.lookup did = some r) : r.takedownRef.isSome = true := by
  rw [takenDown, hr] at hs
  exact hs

theorem takedownRef_of_findAccount (hdid : Account.isDid did = true) (hs : takenDown did s = true)
    {flags : Option Account.AvailabilityFlags}
    (h : Account.findAccount did flags s.tables.account = some a) : a.takedownRef.isSome = true := by
  rw [Account.findAccount_did hdid] at h
  obtain ⟨r, hr, rfl⟩ := Option.map_eq_some_iff.1 h
  exact isSome_takedownRef hs (Option.mem_filter_iff.1 hr).1

/-- Flags that leave the taken down out do not find it. -/
theorem findAccount_takenDown (hdid : Account.isDid did = true) (hs : takenDown did s = true)
    {flags : Option Account.AvailabilityFlags}
    (hflags : (flags.getD ⟨some false, some false⟩).includeTakenDown.getD false = false) :
    Account.findAccount did flags s.tables.account = none := by
  rw [Account.findAccount_did hdid, Option.map_eq_none_iff, Option.filter_eq_none_iff]
  intro r hr
  have hsome := isSome_takedownRef hs hr
  rw [Account.AvailabilityFlags.admits, hflags, Bool.false_or, Option.isNone_eq_false_iff.2 hsome,
    Bool.false_and]
  exact Bool.false_ne_true

/-- An account that is looked up comes with the row of its DID. -/
theorem row_of_findAccount {handleOrDid : String} {flags : Option Account.AvailabilityFlags}
    {db : Account.Db} (h : Account.findAccount handleOrDid flags db = some a) :
    ∃ r, db.actor.lookup a.did = some r ∧ a.takedownRef = r.takedownRef := by
  obtain ⟨⟨k, r⟩, hrow, rfl⟩ := Option.map_eq_some_iff.1 h
  refine ⟨r, ?_, rfl⟩
  split at hrow
  · obtain ⟨r', hr', he⟩ := Option.map_eq_some_iff.1 hrow
    cases he
    exact (Option.mem_filter_iff.1 hr').1
  · exact (Table.mem_of_one hrow).1

theorem row_of_findAccountByEmail {toLowercase : String → String} {email : String}
    {flags : Option Account.AvailabilityFlags} {db : Account.Db}
    (h : Account.findAccountByEmail toLowercase email flags db = some a) :
    ∃ r, db.actor.lookup a.did = some r ∧ a.takedownRef = r.takedownRef := by
  obtain ⟨⟨k, r⟩, hrow, rfl⟩ := Option.map_eq_some_iff.1 h
  exact ⟨r, (Table.mem_of_one hrow).1, rfl⟩

theorem exec_query_ok {α : Type} {fault : Option String} {f : Account.Db → α} {db t : Account.Db}
    {x : α} (h : (Account.query fault f).exec db = (.ok x, t)) : x = f db := by
  rw [Account.exec_query] at h
  cases fault with
  | none =>
    cases h
    rfl
  | some e => cases h

/-- The user of a log-in comes with the row of its DID. -/
theorem takedownRef_of_sessionUser (hs : takenDown did s = true) {fault : Option String}
    {L : Account.Lowercase} {identifier : String} {t : Account.Db}
    (h : (sessionUser fault L identifier).exec s.tables.account = (.ok (some a), t))
    (ha : a.did = did) : a.takedownRef.isSome = true := by
  have hrow : ∃ r, s.tables.account.actor.lookup a.did = some r ∧ a.takedownRef = r.takedownRef := by
    unfold sessionUser Account.lookUpIdentifier at h
    split at h
    · exact row_of_findAccountByEmail (exec_query_ok h).symm
    · exact row_of_findAccount (exec_query_ok h).symm
  obtain ⟨r, hr, href⟩ := hrow
  rw [href]
  exact isSome_takedownRef hs (ha ▸ hr)

theorem reads_sessionUser (fault : Option String) (L : Account.Lowercase) (identifier : String) :
    Reads (sessionUser fault L identifier) := by
  unfold sessionUser Account.lookUpIdentifier
  split
  · exact Account.reads_query _ _
  · exact Account.reads_query _ _

end

/-! ## Statements that only read -/

theorem exec_onTables_onAccounts {ε ε' α : Type} (f : ε → ε') (x : Stages.Call Account.Db ε α)
    (s : State ρ β) : (mapError f (onTables (onAccounts x))).exec s =
      ((x.exec s.tables.account).1.mapError f,
        { s with tables := { s.tables with account := (x.exec s.tables.account).2 } }) := by
  rw [exec_mapError]
  rfl

section

variable {I : State ρ β → Prop} {R : State ρ β → State ρ β → Prop}

theorem meets_answer (refl : ∀ s, R s s) : Meets I R (fun _ => True) (answer : Flow ρ β Bool) :=
  meets_reads refl fun _ => reads_pure _

theorem meets_ensure {p : Bool} {e : Refusal} :
    Meets I R (fun _ => p = true) (ensure p e : Flow ρ β Unit) :=
  meets_done fun _ h => Account.ensure_ok.1 h

/-- A query answers from a state that the program relies on. -/
theorem meets_query (refl : ∀ s, R s s) {ε ε' α : Type} (f : ε → ε')
    {x : Choice ρ β → Stages.Call Account.Db ε α} (hx : ∀ c, Reads (x c)) :
    Meets I R (fun a => ∃ c s t, I s ∧ (x c).exec s.tables.account = (.ok a, t))
      (stmt fun c => mapError f (onTables (onAccounts (x c)))) := by
  refine meets_stmt (fun c s _ => ?_) fun c s a t hs h => ⟨c, s, s.tables.account, hs, ?_⟩
  · rw [exec_onTables_onAccounts, show ((x c).exec s.tables.account).2 = _ from hx c _]
    exact refl s
  · rw [exec_onTables_onAccounts] at h
    exact Prod.ext (except_mapError_ok.1 (congrArg Prod.fst h)) (hx c _)

/-- A lookup of an account: what it answers, it finds. -/
theorem meets_getAccount (refl : ∀ s, R s s) (did : String)
    (flags : Option Account.AvailabilityFlags) :
    Meets I R (fun a => ∃ s, I s ∧ Account.findAccount did flags s.tables.account = a)
      (getAccount did flags : Flow ρ β _) := by
  refine (meets_query refl _ fun _ => Account.reads_query _ _).mono (fun _ h => h)
    (fun _ _ _ h => h) ?_
  rintro a ⟨c, s, t, hs, h⟩
  exact ⟨s, hs, (exec_query_ok h).symm⟩

theorem meets_fetchAccountStatus (refl : ∀ s, R s s) (did : String) :
    Meets I R
      (fun a => ∃ s, I s ∧ Account.findAccount did Account.everyAccount s.tables.account = some a)
      (fetchAccountStatus did : Prog (Choice ρ β) _ _ _) := by
  refine Meets.bind (meets_query refl _ fun _ => Account.reads_query _ _) fun a ha => ?_
  obtain ⟨c, s, t, hs, h⟩ := ha
  split
  · exact meets_pure ⟨s, hs, (exec_query_ok h).symm⟩
  · exact meets_fail _

/-- What the status of an account says, if it is asked for. -/
theorem meets_checkStatus (refl : ∀ s, R s s) (did : String) (opts : Option ValidateAccessTokenOpts) :
    Meets I R
      (fun _ => (opts.getD ⟨some false, some false⟩).checkTakedown = some true → ∃ s a, I s ∧
        Account.findAccount did Account.everyAccount s.tables.account = some a ∧
        a.takedownRef.isSome = false)
      (checkStatus did opts : Prog (Choice ρ β) _ _ _) := by
  unfold checkStatus
  generalize opts.getD ⟨some false, some false⟩ = opts
  dsimp only
  split
  · refine Meets.bind (meets_fetchAccountStatus refl did) fun a ha => meets_done fun _ h htakedown => ?_
    obtain ⟨s, hs, ha⟩ := ha
    refine ⟨s, a, hs, ha, ?_⟩
    rw [htakedown] at h
    cases href : a.takedownRef.isSome with
    | false => rfl
    | true => simp [checkAccountStatus, href] at h
  · rename_i hneither
    exact meets_done fun _ _ htakedown => by simp [htakedown] at hneither

/-- An extractor answers with the DID of the token. -/
theorem meets_extract (refl : ∀ s, R s s) (header : Header) (x : Extractor) :
    Meets I R
      (fun did => header.verify x.scopes = .ok did ∧
        ((x.opts.getD ⟨some false, some false⟩).checkTakedown = some true → ∃ s a, I s ∧
          Account.findAccount did Account.everyAccount s.tables.account = some a ∧
          a.takedownRef.isSome = false))
      (extract header x : Flow ρ β String) :=
  Meets.mapError (Meets.bind (meets_done fun _ h => h) fun did hdid =>
    Meets.bind (meets_checkStatus refl did x.opts) fun _ hstatus => meets_pure ⟨hdid, hstatus⟩) _

end

/-! ## No request lifts a takedown -/

section

variable {did : String}

/-- The taken down stays so. -/
def KeepsDown (did : String) (s t : State ρ β) : Prop :=
  takenDown did s = true → takenDown did t = true

theorem keepsDown_refl (s : State ρ β) : KeepsDown did s s := id

theorem keepsDown_of_actor {s t : State ρ β}
    (h : t.tables.account.actor = s.tables.account.actor) : KeepsDown did s t := by
  unfold KeepsDown takenDown
  rw [h]
  exact id

/-- A statement that leaves the actors alone. -/
def SameActors (s t : State ρ β) : Prop := t.tables.account.actor = s.tables.account.actor

theorem sameActors_refl (s : State ρ β) : SameActors s s := rfl

theorem sameActors_trans (s t u : State ρ β) (h : SameActors s t) (k : SameActors t u) :
    SameActors s u := Eq.trans k h

variable {I : State ρ β → Prop} {α : Type}

theorem keepsDown_stmt {x : Choice ρ β → Stages.Call (State ρ β) Refusal α}
    (h : ∀ c, Keeps (x c) SameActors) : Meets I (KeepsDown did) (fun _ => True) (stmt x) :=
  meets_stmt_any fun c s _ => keepsDown_of_actor (h c s)

theorem keeps_onTables {ε : Type} {x : Stages.Call Account.Tables ε α}
    (h : Keeps x fun s t => t.account.actor = s.account.actor) :
    Keeps (onTables x : Stages.Call (State ρ β) ε α) SameActors :=
  Keeps.zoom h fun _ _ hst => hst

theorem keeps_onAccounts {ε : Type} {x : Stages.Call Account.Db ε α}
    (h : Keeps x Account.SameActors) :
    Keeps (onAccounts x) fun s t => t.account.actor = s.account.actor :=
  Keeps.zoom h fun _ _ hst => hst

theorem keepsDown_account {x : Choice ρ β → Account.Call α}
    (h : ∀ c, Keeps (x c) Account.SameActors) :
    Meets I (KeepsDown did) (fun _ => True) (account x) :=
  keepsDown_stmt fun c => (keeps_onTables (keeps_onAccounts (h c))).mapError _

/-- An update of an actor that leaves the takedown alone. -/
theorem keeps_updateActor (fault : Option String) (did' : String)
    {f : Account.ActorRow → Account.ActorRow} (hf : ∀ r, (f r).takedownRef = r.takedownRef) :
    Keeps (Account.updateActor fault did' f) fun a b =>
      (a.actor.lookup did).all (·.takedownRef.isSome) = true →
        (b.actor.lookup did).all (·.takedownRef.isSome) = true := by
  refine Account.keeps_execute (fun _ => id) _ _ fun a ha => ?_
  rw [Table.lookup_update]
  split
  · rw [Option.all_map]
    simpa only [Function.comp_def, hf] using ha
  · exact ha

theorem keepsDown_actor {x : Choice ρ β → Account.Call Unit}
    (h : ∀ c, Keeps (x c) fun a b => (a.actor.lookup did).all (·.takedownRef.isSome) = true →
      (b.actor.lookup did).all (·.takedownRef.isSome) = true) :
    Meets I (KeepsDown did) (fun _ => True) (account x) := by
  refine meets_stmt_any fun c s _ => ?_
  rw [exec_onTables_onAccounts]
  exact h c s.tables.account

theorem sameActors_ofExcept (r : Except Refusal α) :
    Keeps (ofExcept r : Stages.Call (State ρ β) Refusal α) SameActors :=
  (reads_ofExcept r).keeps sameActors_refl

theorem sameActors_attempt (e : Option Refusal) :
    Keeps (attempt e : Stages.Call (State ρ β) Refusal Unit) SameActors :=
  keeps_attempt sameActors_refl e

theorem sameActors_bind {δ : Type} {x : Stages.Call (State ρ β) Refusal α}
    {f : α → Stages.Call (State ρ β) Refusal δ} (hx : Keeps x SameActors)
    (hf : ∀ a, Keeps (f a) SameActors) : Keeps (x >>= f) SameActors :=
  hx.bind sameActors_trans hf

theorem keeps_signTokens (E : Env) (did' : String) (scope : Account.Refresh.AuthScope)
    (jti : String) :
    Keeps (signTokens E did' scope jti : Stages.Call (State ρ β) Refusal _) SameActors :=
  sameActors_bind (sameActors_ofExcept _) fun _ =>
    sameActors_bind (sameActors_ofExcept _) fun _ =>
      sameActors_bind (keeps_modify fun _ => rfl) fun _ => keeps_pure sameActors_refl _

/-- A check between two statements. -/
theorem keepsDown_ensure {p : Bool} {e : Refusal} :
    Meets I (KeepsDown did) (fun _ => True) (ensure p e : Flow ρ β Unit) :=
  meets_ensure.any

theorem keepsDown_answer : Meets I (KeepsDown did) (fun _ => True) (answer : Flow ρ β Bool) :=
  meets_answer keepsDown_refl

theorem keepsDown_extract (header : Header) (x : Extractor) :
    Meets I (KeepsDown did) (fun _ => True) (extract header x : Flow ρ β String) :=
  (meets_extract keepsDown_refl header x).any

theorem keepsDown_getAccount (did' : String) (flags : Option Account.AvailabilityFlags) :
    Meets I (KeepsDown did) (fun _ => True) (getAccount did' flags : Flow ρ β _) :=
  (meets_getAccount keepsDown_refl did' flags).any

theorem meets_ask {R : State ρ β → State ρ β → Prop} (refl : ∀ s, R s s)
    (x : Account.Tables → Except String α) : Meets I R (fun _ => True) (ask x : Flow ρ β α) := by
  refine meets_reads refl fun c => Reads.bind (keeps_attempt (R := fun s t => t = s) (fun _ => rfl) _) fun _ =>
    keeps_get_bind fun s => ?_
  rw [exec_ofExcept]

theorem keepsDown_ask (x : Account.Tables → Except String α) :
    Meets I (KeepsDown did) (fun _ => True) (ask x : Flow ρ β α) :=
  meets_ask keepsDown_refl x

theorem keeps_deleteTokens (fault : Option String) (p : String → Account.RefreshTokenRow → Bool) :
    Keeps (Account.Refresh.deleteTokens fault p) Account.SameActors :=
  Account.sameActors_execute _ _ fun _ => rfl

theorem keeps_storeRefreshToken (fault : Option String) (formatMillis : Nat → Option String)
    (payload : Account.RefreshToken) (name : Option String) :
    Keeps (Account.storeRefreshToken fault formatMillis payload name) Account.SameActors := by
  unfold Account.storeRefreshToken
  split
  · exact keeps_throw Account.sameActors_refl _
  · exact Account.sameActors_execute _ _ fun _ => rfl

theorem keepsDown_openSession (E : Env) (did' : String) (name : Option String) :
    Meets I (KeepsDown did) (fun _ => True) (openSession E did' name : Flow ρ β Unit) :=
  Meets.bind keepsDown_answer fun _ _ =>
    Meets.bind keepsDown_ensure fun _ _ =>
      Meets.bind (keepsDown_stmt fun _ => keeps_signTokens E did' _ _) fun _ _ =>
        keepsDown_account fun _ => keeps_storeRefreshToken _ _ _ _

theorem meets_verifyPasswords {R : State ρ β → State ρ β → Prop} (refl : ∀ s, R s s) (E : Env)
    (did' password : String) :
    Meets I R (fun _ => True) (verifyPasswords E did' password : Flow ρ β _) := by
  refine Meets.bind (meets_ask refl _) fun valid _ => ?_
  cases valid with
  | true => exact meets_pure trivial
  | false =>
    exact Meets.bind (meets_ask refl _) fun _ _ =>
      Meets.bind meets_ensure fun _ _ => meets_pure trivial

theorem keepsDown_loginUser (E : Env) (identifier : String) :
    Meets I (KeepsDown did) (fun _ => True) (loginUser E identifier : Flow ρ β _) := by
  refine Meets.bind (meets_query keepsDown_refl _ fun _ => reads_sessionUser _ _ _) fun user _ => ?_
  cases user with
  | some user => exact meets_pure trivial
  | none => exact meets_fail _

theorem keepsDown_createSession (E : Env) (identifier password : String) :
    Meets I (KeepsDown did) (fun _ => True) (createSession E identifier password : Flow ρ β Unit) :=
  Meets.bind (keepsDown_loginUser E identifier) fun _ _ =>
    Meets.bind keepsDown_answer fun _ _ =>
      Meets.bind keepsDown_ensure fun _ _ =>
        Meets.bind (meets_verifyPasswords keepsDown_refl E _ password) fun _ _ =>
          Meets.bind keepsDown_ensure fun _ _ => keepsDown_openSession E _ _

theorem keepsDown_addGrace (next : Account.Refresh.Successor) (id : String) :
    Meets I (KeepsDown did) (fun _ => True) (addGrace next id : Flow ρ β Bool) := by
  refine keepsDown_account fun c => Keeps.rescue Account.sameActors_trans
    (Keeps.bind Account.sameActors_trans (Account.sameActors_execute _ _ fun _ => rfl) fun _ =>
      keeps_pure Account.sameActors_refl _) fun e => ?_
  split
  · exact keeps_pure Account.sameActors_refl _
  · exact keeps_throw Account.sameActors_refl _

theorem keepsDown_storeToken (E : Env) (next : Account.Refresh.Successor)
    (row : Account.RefreshTokenRow) :
    Meets I (KeepsDown did) (fun _ => True) (storeToken E next row : Flow ρ β Unit) :=
  keepsDown_account fun _ => keeps_storeRefreshToken _ _ _ _

theorem keepsDown_rotateRefreshToken (E : Env) (id : String) (rounds : Nat) :
    Meets I (KeepsDown did) (fun _ => True) (rotateRefreshToken E id rounds : Flow ρ β Unit) := by
  induction rounds with
  | zero => exact meets_fail _
  | succ rounds ih =>
    refine Meets.bind (keepsDown_account fun c =>
      (Account.reads_query _ _).keeps Account.sameActors_refl) fun row _ => ?_
    cases row with
    | none => exact meets_fail _
    | some row =>
      refine Meets.bind (keepsDown_account fun c => keeps_deleteTokens _ _)
        fun _ _ => Meets.bind (keepsDown_stmt fun c => sameActors_bind (sameActors_ofExcept _)
          fun next => ?_) fun next _ => ?_
      · dsimp only
        split
        · exact sameActors_bind (keeps_modify fun _ => rfl) fun _ => keeps_pure sameActors_refl _
        · exact keeps_pure sameActors_refl _
      cases next with
      | none => exact meets_fail _
      | some next =>
        refine Meets.bind keepsDown_answer fun first _ => ?_
        have hagain : ∀ (concurrent : Bool) (q : Flow ρ β Unit),
            Meets I (KeepsDown did) (fun _ => True) q →
            Meets I (KeepsDown did) (fun _ => True)
              (if concurrent = true then rotateRefreshToken E id rounds else q) := by
          intro concurrent q hq
          cases concurrent with
          | true => exact ih
          | false => exact hq
        cases first with
        | true =>
          exact Meets.bind (keepsDown_storeToken E next row) fun _ _ =>
            Meets.bind (keepsDown_addGrace next id) fun concurrent _ =>
              hagain concurrent _ (meets_pure trivial)
        | false =>
          exact Meets.bind (keepsDown_addGrace next id) fun concurrent _ =>
            hagain concurrent _ (keepsDown_storeToken E next row)

theorem keepsDown_both {x y : Choice ρ β → Stages.Call (State ρ β) Refusal Unit}
    (hx : ∀ c, Keeps (x c) SameActors) (hy : ∀ c, Keeps (y c) SameActors) :
    Meets I (KeepsDown did) (fun _ => True) (both Choice.answer x y) :=
  meets_both keepsDown_refl _ (fun c s _ => keepsDown_of_actor (hx c s))
    fun c s _ => keepsDown_of_actor (hy c s)

/-- A statement on the tables that leaves the actors alone. -/
theorem sameActors_tables {ε : Type} (refuse : Account.Tables → Option ε)
    {f : Account.Tables → Account.Tables} (h : ∀ s, (f s).account.actor = s.account.actor) :
    Keeps (onTables (statement refuse f) : Stages.Call (State ρ β) ε Unit) SameActors :=
  keeps_onTables (keeps_statement
    (R := fun s t : Account.Tables => t.account.actor = s.account.actor) (fun _ => rfl) _
    fun s _ => h s)

theorem sameActors_deleteEmailTokens (p : Account.EmailTokenPurpose × String → Bool)
    (fault : Option String) :
    Keeps (onTables (deleteEmailTokens p fault) : Stages.Call (State ρ β) _ Unit) SameActors :=
  sameActors_tables _ fun _ => rfl

theorem keepsDown_refreshSession (E : Env) (header : RefreshHeader) (rounds : Nat) :
    Meets I (KeepsDown did) (fun _ => True) (refreshSession E header rounds : Flow ρ β Unit) := by
  refine Meets.bind (meets_done (Q := fun _ => True) fun _ _ => trivial) fun token _ => ?_
  rcases token with ⟨did', _ | tokenId⟩
  · exact meets_fail _
  refine Meets.bind (keepsDown_getAccount _ _) fun user _ => ?_
  cases user with
  | none => exact meets_fail _
  | some user =>
    exact Meets.bind keepsDown_ensure fun _ _ => keepsDown_rotateRefreshToken E tokenId rounds

theorem keepsDown_deleteSession (header : RefreshHeader) :
    Meets I (KeepsDown did) (fun _ => True) (deleteSession header : Flow ρ β Unit) := by
  refine Meets.bind (meets_done (Q := fun _ => True) fun _ _ => trivial) fun token _ => ?_
  rcases token with ⟨did', _ | tokenId⟩
  · exact meets_fail _
  · exact keepsDown_account fun _ => keeps_deleteTokens _ _

theorem keepsDown_createAppPassword (E : Env) (header : Header) (name : String) :
    Meets I (KeepsDown did) (fun _ => True) (createAppPassword E header name : Flow ρ β Unit) :=
  Meets.bind (keepsDown_extract _ _) fun _ _ => keepsDown_stmt fun _ =>
    sameActors_bind (sameActors_attempt _) fun _ =>
      sameActors_bind (sameActors_ofExcept _) fun _ => sameActors_tables _ fun _ => rfl

theorem keepsDown_revokeAppPassword (header : Header) (name : String) :
    Meets I (KeepsDown did) (fun _ => True) (revokeAppPassword header name : Flow ρ β Unit) := by
  refine Meets.bind (keepsDown_extract _ _) fun did' _ => keepsDown_both (fun c => ?_) fun c => ?_
  · exact Keeps.mapError (sameActors_tables _ fun s => by
      dsimp only [AppPasswords.deleteAppPassword]) _
  · exact Keeps.mapError (keeps_onTables (keeps_onAccounts (keeps_deleteTokens _ _))) _

theorem keepsDown_activateAccount (header : Header) :
    Meets I (KeepsDown did) (fun _ => True) (activateAccount header : Flow ρ β Unit) := by
  refine Meets.bind (keepsDown_extract _ _) fun did' _ => Meets.bind keepsDown_answer fun _ _ =>
    Meets.bind keepsDown_ensure fun _ _ => Meets.bind (keepsDown_getAccount _ _) fun account _ => ?_
  cases account with
  | none => exact meets_fail _
  | some account => exact keepsDown_actor fun _ => keeps_updateActor _ _ fun _ => rfl

theorem keepsDown_deactivateAccount (header : Header) (deleteAfter : Option String) :
    Meets I (KeepsDown did) (fun _ => True) (deactivateAccount header deleteAfter : Flow ρ β Unit) := by
  refine Meets.bind (keepsDown_extract _ _) fun did' _ => keepsDown_actor fun c => ?_
  exact keeps_updateActor _ _ fun _ => rfl

theorem keepsDown_confirmEmail (E : Env) (header : Header) (email token : String) :
    Meets I (KeepsDown did) (fun _ => True) (confirmEmail E header email token : Flow ρ β Unit) := by
  refine Meets.bind (keepsDown_extract _ _) fun did' _ =>
    Meets.bind (keepsDown_getAccount _ _) fun user _ => ?_
  cases user with
  | none => exact meets_fail _
  | some user =>
    dsimp only
    split
    · exact meets_fail _
    · exact Meets.bind keepsDown_ensure fun _ _ => Meets.bind (keepsDown_ask _) fun _ _ =>
        keepsDown_both (fun _ => (sameActors_deleteEmailTokens _ _).mapError _)
          fun _ => sameActors_attempt _

theorem keepsDown_updateEmail (E : Env) (header : Header) (email : String) (token : Option String) :
    Meets I (KeepsDown did) (fun _ => True) (updateEmail E header email token : Flow ρ β Unit) := by
  refine Meets.bind (keepsDown_extract _ _) fun did' _ => Meets.bind keepsDown_ensure fun _ _ =>
    Meets.bind (keepsDown_getAccount _ _) fun account _ => ?_
  cases account with
  | none => exact meets_fail _
  | some account =>
    have hwrites : Meets I (KeepsDown did) (fun _ => True)
        (both Choice.answer
          (fun c => mapError runtimeError
            (onTables (onAccounts (Account.updateEmail c.fault none E.lowercase did' email))))
          fun c => mapError runtimeError (onTables (deleteEmailTokens (·.2 = did') c.fault)) :
          Flow ρ β Unit) := by
      refine keepsDown_both (fun c => ?_) fun c => ?_
      · refine Keeps.mapError (keeps_onTables (keeps_onAccounts ?_)) _
        exact Keeps.bind Account.sameActors_trans (Account.sameActors_execute _ _ fun _ => rfl)
          fun _ => keeps_attempt Account.sameActors_refl _
      · exact Keeps.mapError (sameActors_deleteEmailTokens _ _) _
    refine Meets.bind keepsDown_answer fun confirmed _ => ?_
    cases confirmed with
    | false => exact hwrites
    | true =>
      cases token with
      | none => exact meets_fail _
      | some token => exact Meets.bind (keepsDown_ask _) fun _ _ => hwrites

theorem keepsDown_requestEmailToken (header : Header) (purpose : Account.EmailTokenPurpose) :
    Meets I (KeepsDown did) (fun _ => True) (requestEmailToken header purpose : Flow ρ β Unit) := by
  refine Meets.bind (keepsDown_extract _ _) fun did' _ =>
    Meets.bind (keepsDown_getAccount _ _) fun account _ => ?_
  cases account with
  | none => exact meets_fail _
  | some account =>
    refine Meets.bind keepsDown_ensure fun _ _ => Meets.bind keepsDown_answer fun confirmed _ => ?_
    split
    · refine Meets.bind (keepsDown_stmt fun c => Keeps.mapError (sameActors_tables _ fun s => ?_) _)
        fun _ _ => Meets.bind keepsDown_answer fun _ _ => keepsDown_ensure
      dsimp only
    · exact meets_pure trivial

theorem keepsDown_getAccountInviteCodes (header : Header) (createAvailable : Bool) :
    Meets I (KeepsDown did) (fun _ => True)
      (getAccountInviteCodes header createAvailable : Flow ρ β Unit) := by
  refine Meets.bind (keepsDown_extract _ _) fun did' _ =>
    Meets.bind (keepsDown_getAccount _ _) fun account _ => Meets.bind keepsDown_ensure fun _ _ => ?_
  split
  · refine keepsDown_stmt fun c => Keeps.mapError (keeps_onTables (keeps_onAccounts ?_)) _
    exact keeps_statement Account.sameActors_refl _ fun s _ => rfl
  · exact meets_pure trivial

/-- No request lifts the takedown of an account, its own or another's. -/
theorem keepsDown_program (E : Env) (r : Request) :
    Meets I (KeepsDown did) (fun _ => True) (r.program E : Flow ρ β Unit) := by
  cases r with
  | createSession identifier password => exact keepsDown_createSession E identifier password
  | refreshSession header rounds => exact keepsDown_refreshSession E header rounds
  | deleteSession header => exact keepsDown_deleteSession header
  | readStandard header => exact Meets.bind (keepsDown_extract _ _) fun _ _ => meets_pure trivial
  | readFull header => exact Meets.bind (keepsDown_extract _ _) fun _ _ => meets_pure trivial
  | createAppPassword header name => exact keepsDown_createAppPassword E header name
  | revokeAppPassword header name => exact keepsDown_revokeAppPassword header name
  | activateAccount header => exact keepsDown_activateAccount header
  | deactivateAccount header deleteAfter => exact keepsDown_deactivateAccount header deleteAfter
  | confirmEmail header email token => exact keepsDown_confirmEmail E header email token
  | updateEmail header email token => exact keepsDown_updateEmail E header email token
  | requestEmailToken header purpose => exact keepsDown_requestEmailToken header purpose
  | getAccountInviteCodes header createAvailable =>
    exact keepsDown_getAccountInviteCodes header createAvailable
  | getServiceAuth header =>
    exact Meets.bind (keepsDown_extract _ _) fun _ _ => Meets.bind keepsDown_answer fun _ _ =>
      Meets.bind keepsDown_ensure fun _ _ => keepsDown_stmt fun _ => keeps_modify fun _ => rfl
  | writeRepo header =>
    exact Meets.bind (keepsDown_extract _ _) fun _ _ => keepsDown_stmt fun _ =>
      sameActors_bind (sameActors_attempt _) fun _ => keeps_modify fun _ => rfl
  | uploadBlob header =>
    exact Meets.bind (keepsDown_extract _ _) fun _ _ => keepsDown_stmt fun _ =>
      sameActors_bind (sameActors_attempt _) fun _ => keeps_modify fun _ => rfl
  | oauthToken grant =>
    exact Meets.bind (keepsDown_getAccount _ _) fun _ _ => Meets.bind keepsDown_ensure fun _ _ =>
      keepsDown_stmt fun _ => keeps_modify fun _ => rfl
  | oauthRevoke =>
    refine keepsDown_stmt fun c => Keeps.mapError (sameActors_tables _ fun s => ?_) _
    dsimp only

end

/-! ## What a guarded request does under a takedown -/

section

variable {did : String}

theorem unharmed_refl (s : State ρ β) : Unharmed did s s where
  session _ row h hdid := ⟨row, h, hdid⟩
  appPassword _ h := h
  signed := rfl
  oauthToken _ _ h _ := h
  emailToken _ _ h := h
  inviteCode _ _ h _ := h
  repo := rfl
  blobs := rfl
  actor := rfl
  email := rfl

/-- The account tables but for the refresh tokens, none of which is a new one of the DID. -/
structure AddsNoSession (did : String) (a b : Account.Db) : Prop where
  same : b = { a with refreshToken := b.refreshToken }
  session : ∀ id row, b.refreshToken.lookup id = some row → row.did = did →
    ∃ row', a.refreshToken.lookup id = some row' ∧ row'.did = did

theorem addsNoSession_refl (a : Account.Db) : AddsNoSession did a a :=
  ⟨rfl, fun _ row h hdid => ⟨row, h, hdid⟩⟩

theorem AddsNoSession.unharmed {s : State ρ β} {b : Account.Db}
    (h : AddsNoSession did s.tables.account b) :
    Unharmed did s { s with tables := { s.tables with account := b } } where
  session := h.session
  appPassword _ h := h
  signed := rfl
  oauthToken _ _ h _ := h
  emailToken _ _ h := h
  inviteCode code row hrow _ := by
    rw [h.same] at hrow
    exact hrow
  repo := rfl
  blobs := rfl
  actor := by
    dsimp only
    rw [h.same]
  email := by
    dsimp only
    rw [h.same]

theorem addsNoSession_deleteTokens (fault : Option String)
    (p : String → Account.RefreshTokenRow → Bool) :
    Keeps (Account.Refresh.deleteTokens fault p) (AddsNoSession did) := by
  refine Account.keeps_execute addsNoSession_refl _ _ fun a => ⟨rfl, fun id row hrow hdid => ?_⟩
  exact ⟨row, (Table.lookup_deleteWhere_eq_some.1 hrow).1, hdid⟩

theorem addsNoSession_storeRefreshToken (fault : Option String)
    (formatMillis : Nat → Option String) {payload : Account.RefreshToken} (name : Option String)
    (hsub : payload.sub ≠ did) :
    Keeps (Account.storeRefreshToken fault formatMillis payload name) (AddsNoSession did) := by
  unfold Account.storeRefreshToken
  split
  · exact keeps_throw addsNoSession_refl _
  · refine Account.keeps_execute addsNoSession_refl _ _ fun a => ⟨rfl, fun id row hrow hdid => ?_⟩
    dsimp only at hrow
    rw [Table.lookup_insertIgnore] at hrow
    split at hrow
    · rename_i hid
      subst hid
      cases hold : a.refreshToken.lookup payload.jti with
      | some old =>
        rw [hold] at hrow
        cases hrow
        exact ⟨_, rfl, hdid⟩
      | none =>
        rw [hold] at hrow
        cases hrow
        exact absurd hdid hsub
    · exact ⟨row, hrow, hdid⟩

variable {I : State ρ β → Prop}

theorem unharmed_account {x : Choice ρ β → Account.Call Unit}
    (h : ∀ c, Keeps (x c) (AddsNoSession did)) :
    Meets I (Unharmed did) (fun _ => True) (account x) := by
  refine meets_stmt_any fun c s _ => ?_
  rw [exec_onTables_onAccounts]
  exact (h c s.tables.account).unharmed

/-- Tokens for another DID. -/
theorem unharmed_sign {did' : String} (hne : did' ≠ did) (s : State ρ β) :
    Unharmed did s { s with signed := s.signed ++ [did'] } where
  session _ row h hdid := ⟨row, h, hdid⟩
  appPassword _ h := h
  signed := by
    rw [List.count_append, List.count_singleton, if_neg (by simpa using hne), Nat.add_zero]
  oauthToken _ _ h _ := h
  emailToken _ _ h := h
  inviteCode _ _ h _ := h
  repo := rfl
  blobs := rfl
  actor := rfl
  email := rfl

theorem exec_signTokens (E : Env) (did' : String) (scope : Account.Refresh.AuthScope) (jti : String)
    (s : State ρ β) :
    ((signTokens E did' scope jti).exec s).2 = s ∨
      ((signTokens E did' scope jti).exec s).2 = { s with signed := s.signed ++ [did'] } := by
  unfold signTokens
  simp only [exec_bind, exec_ofExcept]
  cases E.tokens.createTokens did' E.serviceDid scope jti with
  | error e => exact .inl rfl
  | ok tokens =>
    dsimp only [Except.mapError]
    cases E.tokens.decodeRefreshToken tokens.2 with
    | error e => exact .inl rfl
    | ok payload => exact .inr rfl

/-- The subject of the tokens is the DID that they were signed for. -/
theorem sub_of_signTokens {E : Env} {did' jti : String} {scope : Account.Refresh.AuthScope}
    {s t : State ρ β} {payload : Account.RefreshToken}
    (h : (signTokens E did' scope jti).exec s = (.ok payload, t)) : payload.sub = did' := by
  obtain ⟨⟨access, refresh⟩, _, htokens, h⟩ := exec_bind_ok.1 h
  obtain ⟨payload', _, hpayload, h⟩ := exec_bind_ok.1 h
  obtain ⟨_, _, -, h⟩ := exec_bind_ok.1 h
  cases h
  rw [exec_ofExcept, Prod.mk.injEq, except_mapError_ok] at htokens hpayload
  exact (E.tokens.decode_createTokens htokens.1 hpayload.1).1

theorem unharmed_openSession (E : Env) {did' : String} (hne : did' ≠ did) (name : Option String) :
    Meets I (Unharmed did) (fun _ => True) (openSession E did' name : Flow ρ β Unit) := by
  refine Meets.bind (meets_answer unharmed_refl) fun _ _ => Meets.bind meets_ensure fun _ _ => ?_
  refine Meets.bind (Q := fun payload : Account.RefreshToken => payload.sub = did')
    (meets_stmt (fun c s _ => ?_) fun c s payload t _ h => sub_of_signTokens h) fun payload hsub => ?_
  · rcases exec_signTokens E did' _ c.fresh s with h | h
    · rw [h]
      exact unharmed_refl s
    · rw [h]
      exact unharmed_sign hne s
  · exact unharmed_account fun c => addsNoSession_storeRefreshToken _ _ name (hsub ▸ hne)

/-! The requests, in the state of a takedown. -/

/-- What a program may rely on while the takedown stands. -/
abbrev Down (did : String) (s : State ρ β) : Prop := takenDown did s = true

theorem unharmed_loginUser (E : Env) (identifier : String) :
    Meets (Down did) (Unharmed did) (fun user => user.did = did → user.takedownRef.isSome = true)
      (loginUser E identifier : Flow ρ β _) := by
  refine Meets.bind (meets_query unharmed_refl _ fun _ => reads_sessionUser _ _ _) fun user h => ?_
  obtain ⟨c, s, t, hs, h⟩ := h
  cases user with
  | some user => exact meets_pure fun hdid => takedownRef_of_sessionUser hs h hdid
  | none => exact meets_fail _

theorem unharmed_createSession (E : Env) (identifier password : String) :
    Meets (Down did) (Unharmed did) (fun _ => True)
      (createSession E identifier password : Flow ρ β Unit) := by
  refine Meets.bind (unharmed_loginUser E identifier) fun user huser =>
    Meets.bind (meets_answer unharmed_refl) fun _ _ => Meets.bind meets_ensure fun _ _ =>
      Meets.bind (meets_verifyPasswords unharmed_refl E user.did password) fun name _ =>
        Meets.bind meets_ensure fun _ hnone => unharmed_openSession E (fun hdid => ?_) name
  have hsome := huser hdid
  rw [Option.isNone_iff_eq_none.1 hnone] at hsome
  cases hsome

theorem subject_of_verify {header : Header} {scopes : List AuthScope} {did' : String}
    (h : header.verify scopes = .ok did') : header.subject = some did' := by
  cases header with
  | missing => cases h
  | bearer verified =>
    obtain ⟨⟨d, scope⟩, rfl, h₁⟩ := except_bind_ok.1 h
    obtain ⟨_, -, h₂⟩ := except_bind_ok.1 h₁
    obtain ⟨_, -, h₃⟩ := except_bind_ok.1 h₂
    cases h₃
    rfl
  | dpop verified =>
    obtain ⟨⟨d, granted⟩, rfl, h₁⟩ := except_bind_ok.1 h
    obtain ⟨_, -, h₂⟩ := except_bind_ok.1 h₁
    obtain ⟨_, -, h₃⟩ := except_bind_ok.1 h₂
    cases h₃
    rfl

/-- A token of the DID gives the DID. -/
theorem unharmed_extract {header : Header} (hbears : header.subject = some did) (x : Extractor) :
    Meets I (Unharmed did) (fun did' => did' = did) (extract header x : Flow ρ β String) := by
  refine (meets_extract unharmed_refl header x).mono (fun _ h => h) (fun _ _ _ h => h) ?_
  rintro did' ⟨hverify, -⟩
  exact Option.some.inj ((subject_of_verify hverify).symm.trans hbears)

/-- An extractor that the token does not pass. -/
theorem unharmed_refused {header : Header} {x : Extractor} {α : Type}
    (h : (header.verify x.scopes).isOk = false) (k : String → Flow ρ β α) :
    Meets I (Unharmed did) (fun _ => True) (extract header x >>= k) := by
  refine Meets.bind (meets_extract unharmed_refl header x) fun did' hdid => ?_
  rw [hdid.1] at h
  cases h

/-- An extractor that checks the takedown. -/
theorem unharmed_checked (hdid : Account.isDid did = true) {header : Header}
    (hbears : header.subject = some did) {α : Type} (k : String → Flow ρ β α) :
    Meets (Down did) (Unharmed did) (fun _ => True)
      (extract header accessStandardIncludeChecks >>= k) := by
  refine Meets.bind (meets_extract unharmed_refl header _) fun did' h => ?_
  obtain ⟨hverify, hstatus⟩ := h
  obtain ⟨s, a, hs, hfind, hnone⟩ := hstatus rfl
  obtain rfl := Option.some.inj ((subject_of_verify hverify).symm.trans hbears)
  rw [takedownRef_of_findAccount hdid hs hfind] at hnone
  cases hnone

/-- A lookup that leaves the taken down out. -/
theorem unharmed_getAccount (hdid : Account.isDid did = true)
    {flags : Option Account.AvailabilityFlags}
    (hflags : (flags.getD ⟨some false, some false⟩).includeTakenDown.getD false = false) :
    Meets (Down did) (Unharmed did) (fun a => a = none) (getAccount did flags : Flow ρ β _) := by
  refine (meets_getAccount unharmed_refl did flags).mono (fun _ h => h) (fun _ _ _ h => h) ?_
  rintro a ⟨s, hs, rfl⟩
  exact findAccount_takenDown hdid hs hflags

theorem unharmed_refreshSession (hdid : Account.isDid did = true) (E : Env) {header : RefreshHeader}
    (hbears : header.toOption.any (·.1 = did) = true) (rounds : Nat) :
    Meets (Down did) (Unharmed did) (fun _ => True)
      (refreshSession E header rounds : Flow ρ β Unit) := by
  cases header with
  | error e => exact meets_fail _
  | ok token =>
    obtain ⟨did', tokenId⟩ := token
    obtain rfl : did' = did := of_decide_eq_true hbears
    refine Meets.bind (Q := fun token => token = (did', tokenId)) (meets_done fun _ h => by cases h; rfl)
      fun _ htoken => ?_
    subst htoken
    cases tokenId with
    | none => exact meets_fail _
    | some tokenId =>
      refine Meets.bind (meets_getAccount unharmed_refl did' _) fun user h => ?_
      obtain ⟨s, hs, hfind⟩ := h
      cases user with
      | none => exact meets_fail _
      | some user =>
        refine Meets.bind meets_ensure fun _ hnone => ?_
        have hsome := takedownRef_of_findAccount hdid hs hfind
        rw [Option.isNone_iff_eq_none.1 hnone] at hsome
        cases hsome

theorem unharmed_deleteSession (header : RefreshHeader) :
    Meets I (Unharmed did) (fun _ => True) (deleteSession header : Flow ρ β Unit) := by
  refine Meets.bind (meets_done (Q := fun _ => True) fun _ _ => trivial) fun token _ => ?_
  rcases token with ⟨did', _ | tokenId⟩
  · exact meets_fail _
  · exact unharmed_account fun _ => addsNoSession_deleteTokens _ _

/-- App passwords and OAuth tokens may go. -/
theorem unharmed_tables {s : State ρ β} {t : Account.Tables} (haccount : t.account = s.tables.account)
    (hemail : t.emailToken = s.tables.emailToken)
    (happ : ∀ name, (did, name) ∈ t.appPassword → (did, name) ∈ s.tables.appPassword)
    (hoauth : ∀ pk row, t.oauth.token.lookup pk = some row → s.tables.oauth.token.lookup pk = some row) :
    Unharmed did s { s with tables := t } where
  session _ row h hdid := ⟨row, haccount ▸ h, hdid⟩
  appPassword := happ
  signed := rfl
  oauthToken pk row h _ := hoauth pk row h
  emailToken _ _ h := hemail ▸ h
  inviteCode _ _ h _ := haccount ▸ h
  repo := rfl
  blobs := rfl
  actor := by
    dsimp only
    rw [haccount]
  email := by
    dsimp only
    rw [haccount]

theorem unharmed_statement {ε : Type} {f : Account.Tables → Account.Tables}
    (refuse : Account.Tables → Option ε) (g : ε → Refusal)
    (h : ∀ s : State ρ β, Unharmed did s { s with tables := f s.tables }) :
    Keeps (mapError g (onTables (statement refuse f)) : Stages.Call (State ρ β) _ Unit)
      (Unharmed did) := by
  refine Keeps.mapError (fun s => ?_) _
  rw [onTables, exec_zoom, exec_statement]
  cases refuse s.tables with
  | none => exact h s
  | some e => exact unharmed_refl s

theorem unharmed_revokeAppPassword {header : Header} (name : String) :
    Meets I (Unharmed did) (fun _ => True) (revokeAppPassword header name : Flow ρ β Unit) := by
  refine Meets.bind (meets_extract unharmed_refl header _) fun did' _ =>
    meets_both unharmed_refl _ (fun c s _ => ?_) fun c s _ => ?_
  · refine unharmed_statement _ _ (fun s => unharmed_tables ?_ ?_ (fun other h => ?_) ?_) s
    · dsimp only [AppPasswords.deleteAppPassword]
    · dsimp only [AppPasswords.deleteAppPassword]
    · exact (Finmap.mem_erase.1 h).2
    · exact fun _ _ h => h
  · rw [exec_onTables_onAccounts]
    exact (addsNoSession_deleteTokens c.fault _ s.tables.account).unharmed

theorem unharmed_oauthRevoke :
    Meets I (Unharmed did) (fun _ => True) (oauthRevoke : Flow ρ β Unit) := by
  refine meets_stmt_any fun c s _ => unharmed_statement _ _ (fun s => ?_) s
  refine unharmed_tables ?_ ?_ (fun _ h => h) fun _ _ h => (Table.lookup_deleteWhere_eq_some.1 h).1
  · dsimp only
  · dsimp only

/-- A request that is guarded does no harm while the takedown stands. -/
theorem unharmed_program (hdid : Account.isDid did = true) (E : Env) {r : Request}
    (hbears : r.bears did = true) (hguarded : r.unguarded E = false) :
    Meets (Down did) (Unharmed did) (fun _ => True) (r.program E : Flow ρ β Unit) := by
  cases r with
  | createSession identifier password => exact unharmed_createSession E identifier password
  | refreshSession header rounds => exact unharmed_refreshSession hdid E hbears rounds
  | deleteSession header => exact unharmed_deleteSession header
  | readStandard header =>
    exact Meets.bind (unharmed_extract (of_decide_eq_true hbears) _) fun _ _ => meets_pure trivial
  | readFull header =>
    exact Meets.bind (unharmed_extract (of_decide_eq_true hbears) _) fun _ _ => meets_pure trivial
  | createAppPassword header name => exact unharmed_refused hguarded _
  | revokeAppPassword header name => exact unharmed_revokeAppPassword name
  | activateAccount header =>
    refine Meets.bind (unharmed_extract (of_decide_eq_true hbears) _) fun did' h => ?_
    subst h
    refine Meets.bind (meets_answer unharmed_refl) fun _ _ => Meets.bind meets_ensure fun _ _ =>
      Meets.bind (unharmed_getAccount hdid rfl) fun a ha => ?_
    subst ha
    exact meets_fail _
  | deactivateAccount header deleteAfter => exact unharmed_refused hguarded _
  | confirmEmail header email token =>
    refine Meets.bind (unharmed_extract (of_decide_eq_true hbears) _) fun did' h => ?_
    subst h
    refine Meets.bind (unharmed_getAccount hdid rfl) fun a ha => ?_
    subst ha
    exact meets_fail _
  | updateEmail header email token =>
    refine Meets.bind (unharmed_extract (of_decide_eq_true hbears) _) fun did' h => ?_
    subst h
    refine Meets.bind meets_ensure fun _ _ => Meets.bind (unharmed_getAccount hdid rfl) fun a ha => ?_
    subst ha
    exact meets_fail _
  | requestEmailToken header purpose => exact unharmed_refused hguarded _
  | getAccountInviteCodes header createAvailable =>
    refine Meets.bind (unharmed_extract (of_decide_eq_true hbears) _) fun did' h => ?_
    subst h
    refine Meets.bind (unharmed_getAccount hdid rfl) fun a ha => ?_
    subst ha
    exact Meets.bind meets_ensure fun _ h => by cases h
  | getServiceAuth header => exact unharmed_refused hguarded _
  | writeRepo header => exact unharmed_checked hdid (of_decide_eq_true hbears) _
  | uploadBlob header => exact unharmed_checked hdid (of_decide_eq_true hbears) _
  | oauthToken grant =>
    obtain rfl : grant.did = did := of_decide_eq_true hbears
    refine Meets.bind (unharmed_getAccount hdid rfl) fun a ha => ?_
    subst ha
    refine Meets.bind meets_ensure fun _ h => ?_
    rw [show E.grants none grant = false from hguarded] at h
    cases h
  | oauthRevoke => exact unharmed_oauthRevoke

end

/-! ## Runs -/

section

variable {E : Env} {did : String} {W W' : World ρ β}

/-- What holds in every state of a run whose requests are guarded. -/
structure Enforced (did : String) (W : World ρ β) : Prop where
  down : W.down = true → takenDown did W.state = true
  /-- A call has taken the account down once its update is made. -/
  updated : ∀ call, W.call = some call → call.applied = true → call.updated = true →
    takenDown did W.state = true
  applies : W.down = true → ∀ call, W.call = some call → call.applied = true
  keeps : ∀ t ∈ W.tasks, Meets (fun _ => True) (KeepsDown did) (fun _ => True) t.program
  late : ∀ t ∈ W.tasks, t.late = true →
    W.down = true ∧ Meets (Down did) (Unharmed did) (fun _ => True) t.program

theorem enforced_start (s : State ρ β) : Enforced did (World.start s) where
  down h := by cases h
  updated _ h := by cases h
  applies _ _ h := by cases h
  keeps _ h := by cases h
  late _ h := by cases h

theorem advance_cases {i : Nat} {c : Choice ρ β} (h : step E did W (.advance i c) = some W') :
    ∃ t s p, W.tasks[i]? = some t ∧ t.program.step c W.state = some (s, p) ∧
      W' = { W with state := s, tasks := W.tasks.set i { t with program := p } } := by
  obtain ⟨t, ht, h⟩ := Option.bind_eq_some_iff.1 h
  obtain ⟨⟨s, p⟩, hp, h⟩ := Option.bind_eq_some_iff.1 h
  cases h
  exact ⟨t, s, p, ht, hp, rfl⟩

/-- A request goes on: the takedown stays, and what the rest of the request meets. -/
theorem Enforced.advance (hW : Enforced did W) {i : Nat} {c : Choice ρ β}
    (h : step E did W (.advance i c) = some W') : Enforced did W' := by
  obtain ⟨t, s, p, ht, hp, rfl⟩ := advance_cases h
  have hmem := List.mem_of_getElem? ht
  obtain ⟨hstep, hnext⟩ := (hW.keeps t hmem).step trivial hp
  refine ⟨fun hd => hstep (hW.down hd), fun call hc ha hu => hstep (hW.updated call hc ha hu),
    hW.applies, forall_mem_set hnext hW.keeps, forall_mem_set (fun hl => ?_) hW.late⟩
  obtain ⟨hd, hmeets⟩ := hW.late t hmem hl
  exact ⟨hd, (hmeets.step (hW.down hd) hp).2⟩

theorem Enforced.start (hW : Enforced did W) (hdid : Account.isDid did = true) {r : Request}
    (hguard : Guarded E did W (.start r)) :
    Enforced did { W with tasks := W.tasks ++ [⟨r.program E, W.down && r.bears did⟩] } := by
  refine ⟨hW.down, hW.updated, hW.applies, fun t ht => ?_, fun t ht hl => ?_⟩
  · rcases List.mem_append.1 ht with ht | ht
    · exact hW.keeps t ht
    · obtain rfl := List.mem_singleton.1 ht
      exact keepsDown_program E r
  · rcases List.mem_append.1 ht with ht | ht
    · exact hW.late t ht hl
    · obtain rfl := List.mem_singleton.1 ht
      obtain ⟨hd, hbears⟩ := Bool.and_eq_true_iff.1 hl
      exact ⟨hd, unharmed_program hdid E hbears (hguard hd hbears)⟩

theorem Enforced.beginTakedown (hW : Enforced did W) (applied : Bool) (ref : Option String) :
    Enforced did (beginTakedown applied ref W) := by
  cases applied with
  | true =>
    refine ⟨fun hd => hW.down (Bool.and_eq_true_iff.1 hd).1, ?_, ?_, hW.keeps, ?_⟩
    · rintro call ⟨⟩ - ⟨⟩
    · rintro - call ⟨⟩
      rfl
    · intro t ht hl
      obtain ⟨hd, hmeets⟩ := hW.late t ht hl
      exact ⟨Bool.and_eq_true_iff.2 ⟨hd, rfl⟩, hmeets⟩
  | false =>
    refine ⟨fun hd => ?_, ?_, fun hd => ?_, fun t ht => ?_, fun t ht hl => ?_⟩
    · exact absurd hd (by simp [TakenDown.beginTakedown])
    · rintro call ⟨⟩ ⟨⟩
    · exact absurd hd (by simp [TakenDown.beginTakedown])
    · obtain ⟨u, hu, rfl⟩ := List.mem_map.1 ht
      exact hW.keeps u hu
    · obtain ⟨u, hu, rfl⟩ := List.mem_map.1 ht
      cases hl

theorem all_updateWhere (actor : Table String Account.ActorRow) (ref : String) :
    ((actor.updateWhere (fun k _ => k = did) fun r => { r with takedownRef := some ref }).lookup
      did).all (·.takedownRef.isSome) = true := by
  rw [Table.lookup_updateWhere]
  cases actor.lookup did with
  | none => rfl
  | some r => simp

/-- The statements of a call that applies keep the account down. -/
theorem keepsDown_statement {call : TakedownCall} (happlied : call.applied = true) (update : Bool)
    (c : Choice ρ β) (s : State ρ β) :
    KeepsDown did s ((onTables (onAccounts (call.statement did update c))).exec s).2 := by
  cases update with
  | true =>
    refine Account.keeps_execute
      (R := fun a b => (a.actor.lookup did).all (·.takedownRef.isSome) = true →
        (b.actor.lookup did).all (·.takedownRef.isSome) = true)
      (fun _ => id) _ _ (fun a _ => ?_) s.tables.account
    rw [TakedownCall.takedownRef, if_pos happlied]
    exact all_updateWhere a.actor _
  | false => exact keepsDown_of_actor (keeps_deleteTokens c.fault _ s.tables.account)

/-- Its update takes the account down. -/
theorem takenDown_update {call : TakedownCall} (happlied : call.applied = true) {c : Choice ρ β}
    {s t : State ρ β}
    (h : (onTables (onAccounts (call.statement did true c))).exec s = (.ok (), t)) :
    takenDown did t = true := by
  have hok : ((call.statement did true c).exec s.tables.account).1 = .ok () := by
    have hfst := congrArg Prod.fst h
    exact hfst
  have ht : ((call.statement did true c).exec s.tables.account).2 = t.tables.account := by
    have hsnd := congrArg (fun r => r.2.tables.account) h
    exact hsnd
  have hdb : (call.statement did true c).exec s.tables.account = (.ok (), t.tables.account) :=
    Prod.ext hok ht
  obtain ⟨-, ht⟩ := (Account.does_execute _ _ _ _ _).1 hdb
  rw [takenDown, ht, TakedownCall.takedownRef, if_pos happlied]
  exact all_updateWhere _ _

theorem Enforced.advanceTakedown (hW : Enforced did W) {call : TakedownCall}
    (hcall : W.call = some call) (update : Bool) (c : Choice ρ β) :
    Enforced did (advanceTakedown did call update c W) := by
  have happlies : W.down = true → call.applied = true := fun hd => hW.applies hd call hcall
  have hkeeps : W.down = true → takenDown did
      ((onTables (onAccounts (call.statement did update c))).exec W.state).2 = true :=
    fun hd => keepsDown_statement (happlies hd) update c W.state (hW.down hd)
  unfold TakenDown.advanceTakedown
  cases hexec : (onTables (onAccounts (call.statement did update c))).exec W.state with
  | mk r s =>
    rw [hexec] at hkeeps
    have hupdated : r = .ok () → call.applied = true → (call.made update).updated = true →
        takenDown did s = true := by
      rintro rfl happlied hmade
      cases update with
      | true => exact takenDown_update happlied hexec
      | false =>
        have hs := keepsDown_statement happlied false c W.state
          (hW.updated call hcall happlied hmade)
        rw [hexec] at hs
        exact hs
    have hmade : (call.made update).applied = call.applied := by cases update <;> rfl
    cases r with
    | error e =>
      exact ⟨hkeeps, fun _ h => (by cases h), fun _ _ h => (by cases h), hW.keeps, hW.late⟩
    | ok u =>
      dsimp only
      split
      · rename_i hdone
        refine ⟨fun hd => ?_, fun _ h => (by cases h), fun _ _ h => (by cases h), hW.keeps,
          fun t ht hl => ⟨?_, (hW.late t ht hl).2⟩⟩
        · rcases Bool.or_eq_true_iff.1 hd with hd | happlied
          · exact hkeeps hd
          · exact hupdated rfl happlied (Bool.and_eq_true_iff.1 hdone).1
        · exact Bool.or_eq_true_iff.2 (.inl (hW.late t ht hl).1)
      · refine ⟨hkeeps, ?_, ?_, hW.keeps, hW.late⟩
        · rintro _ ⟨⟩ happlied hu
          exact hupdated rfl (hmade ▸ happlied) hu
        · rintro hd _ ⟨⟩
          exact hmade ▸ happlies hd

theorem Enforced.step (hdid : Account.isDid did = true) (W : World ρ β) (a : Action ρ β)
    (W' : World ρ β) (hW : Enforced did W) (hguard : Guarded E did W a)
    (h : step E did W a = some W') : Enforced did W' := by
  cases a with
  | start r =>
    cases h
    exact hW.start hdid hguard
  | advance i c => exact hW.advance h
  | drop i =>
    cases h
    exact ⟨hW.down, hW.updated, hW.applies, fun t ht => hW.keeps t (List.mem_of_mem_eraseIdx ht),
      fun t ht => hW.late t (List.mem_of_mem_eraseIdx ht)⟩
  | takedown applied ref =>
    dsimp only [TakenDown.step] at h
    split at h
    · cases h
    · cases h
      exact hW.beginTakedown applied ref
  | advanceTakedown update c =>
    obtain ⟨call, hcall, h⟩ := Option.bind_eq_some_iff.1 h
    split at h
    · cases h
    · cases h
      exact hW.advanceTakedown hcall update c
  | other f =>
    dsimp only [TakenDown.step] at h
    split at h
    · cases h
    · rename_i hlift
      cases h
      have hf : KeepsDown did W.state (f W.state) := by
        intro hs
        by_contra hne
        exact hlift (by simp [hs, hne])
      exact ⟨fun hd => hf (hW.down hd), fun call hc ha hu => hf (hW.updated call hc ha hu),
        hW.applies, hW.keeps, hW.late⟩

theorem Enforced.contained (hW : Enforced did W) (a : Action ρ β) : Contained E did W a := by
  cases a with
  | advance i c =>
    intro t ht hl W' h
    obtain ⟨u, s, p, hu, hp, rfl⟩ := advance_cases h
    obtain rfl := Option.some.inj (ht.symm.trans hu)
    obtain ⟨hd, hmeets⟩ := hW.late t (List.mem_of_getElem? ht) hl
    exact (hmeets.step (hW.down hd) hp).1
  | _ => trivial

end

/-- Under a takedown, nothing is created for the account and nothing of it is changed by a request
that bears its credentials, as long as none starts that writes unguarded. -/
theorem contained_of_guarded {E : Env} {did : String} (hdid : Account.isDid did = true)
    (s : State ρ β) (as : List (Action ρ β))
    (hguard : Along (step E did) (Guarded E did) (World.start s) as) :
    Along (step E did) (Contained E did) (World.start s) as :=
  along_of_along (Enforced.step hdid) (fun _ a hW _ => hW.contained a) (enforced_start s) as hguard

/-! A takedown of alice, and her app on the phone. -/

def plainEnv : Env where
  lowercase := Account.asciiLowercase
  passwords := Account.plainLibrary
  tokens := Account.Refresh.alicesLibrary
  serviceDid := "did:web:pds.test"
  grants account _ := account.isSome

def alice : State Unit Unit where
  tables := { Account.Tables.empty with
    account := { Account.Db.empty with
      actor := (∅ : Table _ _).insert "did:plc:alice" ⟨some "alice.test", "t0", none, none, none⟩
      account := (∅ : Table _ _).insert "did:plc:alice" ⟨"alice@mail.test", none, "pw", "t0"⟩ } }
  signed := []
  repo _ := ()
  blobs := ()

def works (now fresh : String) : Choice Unit Unit where
  fault := none
  now := now
  nowMicros := 0
  fresh := fresh
  codes := []
  answer := true
  write := id
  put := id
  oauth := id
  revoke _ _ := false

def takesDown : List (Action Unit Unit) :=
  [.takedown true none, .advanceTakedown true (works "t1" ""), .advanceTakedown false (works "t1" "")]

def alicesToken : Header := .bearer (.ok ("did:plc:alice", .access))

/-- Her access token still makes an app password. -/
theorem app_password_after_takedown :
    ¬ Along (step plainEnv "did:plc:alice") (Contained plainEnv "did:plc:alice") (World.start alice)
      (takesDown ++ [.start (.createAppPassword alicesToken "phone")] ++
        [.advance 0 (works "t2" "abcd")]) := by
  have hrun : ∃ W ∈ run (step plainEnv "did:plc:alice") (World.start alice)
        (takesDown ++ [.start (.createAppPassword alicesToken "phone")]),
      ∃ t ∈ W.tasks[0]?, t.late = true ∧
        ∃ W' ∈ step plainEnv "did:plc:alice" W (.advance 0 (works "t2" "abcd")),
          ("did:plc:alice", "phone") ∈ W'.state.tables.appPassword ∧
            ("did:plc:alice", "phone") ∉ W.state.tables.appPassword := by
    decide +kernel
  obtain ⟨W, hW, t, ht, hlate, W', hstep, hafter, hbefore⟩ := hrun
  intro h
  exact hbefore ((h.last hW hstep t ht hlate W' hstep).appPassword "phone" hafter)

/-- A record is refused, and so is a log-in with the password. -/
theorem contained_alice :
    Along (step plainEnv "did:plc:alice") (Contained plainEnv "did:plc:alice") (World.start alice)
      (takesDown ++ [.start (.writeRepo alicesToken), .start (.createSession "alice.test" "pw"),
        .advance 0 (works "t2" ""), .advance 1 (works "t2" "")]) :=
  contained_of_guarded (by decide) alice _ (by decide +kernel)

end CacosPds.Server.TakenDown
