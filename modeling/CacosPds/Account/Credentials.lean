import CacosPds.Lib.ForeignKeys
import CacosPds.Account.CreateAccount
import CacosPds.Account.Lifecycle
import CacosPds.Account.OauthRequests
import CacosPds.Account.OauthTokens
/-!
# What a DID may present (`helpers/{password,email_token,account}.rs`, `oauth_store.rs`)

| here | there |
| --- | --- |
| `Tables`           | the account database: the tables of `Account.Db` and `Oauth.Db`, `app_password`, `email_token`, `account_device`, `authorized_client` |
| `Database`         | the same with its foreign keys kept; none of them is on `app_password`, `token` or `authorization_request` |
| `Grants`           | each credential followed to the lookup that accepts it |
| `deleteAccount`    | `delete_account` (`helpers/account.rs:271-300`), one transaction |
| `Row`, `HasRow`    | a row of a DID, in any of the nine tables; a used refresh token is of the DID of its token |

The account's deletion names five tables and takes two more with it through their foreign keys.
App passwords, OAuth tokens with the refresh tokens used up, and authorization requests stay
(`hasRow_accountDeleted`). An app password's hash is salted with the DID alone, so that a row left
behind verifies again for whoever holds the DID next.
-/
namespace CacosPds.Account

open Stages Sql

inductive EmailTokenPurpose where
  | confirmEmail
  | updateEmail
  | resetPassword
  | deleteAccount
  | plcOperation
  deriving DecidableEq

structure AppPasswordRow where
  password : String
  createdAt : String
  deriving DecidableEq

structure EmailTokenRow where
  token : String
  requestedAt : String
  deriving DecidableEq

@[ext] structure Tables where
  account : Db
  oauth : Oauth.Db
  /-- Under `(did, name)`. -/
  appPassword : Table (String × String) AppPasswordRow
  emailToken : Table (EmailTokenPurpose × String) EmailTokenRow
  /-- The keys `(deviceId, did)`; nothing reads the two times of a row. -/
  accountDevice : Table (DbId × String) Unit
  /-- `(did, clientId)` to `data`. -/
  authorizedClient : Table (String × String) String

def Tables.empty : Tables := ⟨.empty, .empty, ∅, ∅, ∅, ∅⟩

/-- The three foreign keys that lead to a DID. -/
structure Tables.Keyed (s : Tables) : Prop where
  accountDevice : s.accountDevice.References (fun k _ => k.2) s.account.account
  authorizedClient : s.authorizedClient.References (fun k _ => k.1) s.account.account
  usedRefreshToken : s.oauth.usedRefreshToken.References (fun _ pk => pk) s.oauth.token

structure Database extends Tables where
  keyed : toTables.Keyed

/-! ## The lookups -/

structure Library where
  /-- `argon2`: a password against a stored hash. -/
  verify : String → String → Except String Bool
  /-- `hash_with_salt`, with the DID's salt. -/
  hashAppPassword : String → String → Except String String
  toUppercase : String → String
  /-- `from_str_to_utc` and `less_than_ago_s`, of a time and a number of seconds. -/
  lessThanAgo : String → Nat → Except String Bool

def verifyAccountPassword (L : Library) (did password : String) (s : Db) : Except String Bool :=
  match s.account.lookup did with
  | some row => L.verify password row.password
  | none => .ok false

/-- The names under which the DID has the password, least first. -/
def appPasswordNames (did passwordEncrypted : String)
    (t : Table (String × String) AppPasswordRow) : List String :=
  (t.select (fun k r => k.1 = did ∧ r.password = passwordEncrypted) fun k _ => k.2).sort (· ≤ ·)

def verifyAppPassword (L : Library) (did password : String)
    (t : Table (String × String) AppPasswordRow) : Except String (Option String) := do
  let passwordEncrypted ← L.hashAppPassword did password
  return (appPasswordNames did passwordEncrypted t).head?

/-- `rsky_common::time::MINUTE`, in milliseconds. -/
def MINUTE : Nat := 60 * 1000

/-- `assert_valid_token`, with the `MINUTE * 15` it has unless told otherwise. -/
def assertValidToken (L : Library) (did : String) (purpose : EmailTokenPurpose) (token : String)
    (t : Table (EmailTokenPurpose × String) EmailTokenRow) : Except String Unit :=
  match (t.lookup (purpose, did)).filter fun r => r.token = L.toUppercase token with
  | none => .error "Token is invalid"
  | some row => do
    if ← L.lessThanAgo row.requestedAt (MINUTE * 15) then return () else .error "Token is expired"

variable {Auth Params : Type} (K : Oauth.Codec Auth Params)

def readToken (tokenId : String) (s : Oauth.Db) :
    Except Oauth.StoreError (Option (Oauth.Tokens.TokenInfo Auth Params)) :=
  match s.token.one fun _ r => r.tokenId = tokenId with
  | none => .ok none
  | some (_, row) => (Oauth.Tokens.rowToTokenInfo K row).map some

/-- `get_account` of the store. -/
def storeAccount (did : String) (s : Db) : Option ActorAccount :=
  findAccount did (some ⟨none, some true⟩) s

def getDeviceAccount (deviceId did : String) (s : Tables) : Option ActorAccount := do
  let (deviceDbId, _) ← s.oauth.device.one fun _ id => id = deviceId
  let _ ← s.accountDevice.lookup (deviceDbId, did)
  storeAccount did s.account

inductive Credential where
  | password (password : String)
  | appPassword (password : String)
  | refreshToken (id : String)
  | emailToken (purpose : EmailTokenPurpose) (token : String)
  | oauthToken (tokenId : String)
  | oauthRefreshToken (refreshToken : String)
  | authorizationCode (code : String)
  /-- A device that signed in, which may pick the account without a password. -/
  | device (deviceId : String)
  /-- A client that was consented to, which is not asked about again. -/
  | client (clientId : String)

/-- The credential is accepted for the DID: its lookup, working, answers with the DID's own row. -/
def Grants (L : Library) (s : Tables) (did : String) : Credential → Prop
  | .password password => verifyAccountPassword L did password s.account = .ok true
  | .appPassword password =>
      ∃ name, verifyAppPassword L did password s.appPassword = .ok (some name)
  | .refreshToken id => ∃ row, s.account.refreshToken.lookup id = some row ∧ row.did = did
  | .emailToken purpose token => assertValidToken L did purpose token s.emailToken = .ok ()
  | .oauthToken tokenId =>
      ∃ info, readToken K tokenId s.oauth = .ok (some info) ∧ info.data.did = did
  | .oauthRefreshToken refreshToken => ∃ info t,
      (Oauth.Tokens.findTokenByRefreshToken K none none refreshToken).exec s.oauth =
        (.ok (some info), t) ∧ info.data.did = did
  | .authorizationCode code => ∃ id data t,
      (Oauth.consumeRequestCode K none code).exec s.oauth = (.ok (some (id, data)), t) ∧
        data.did = some did
  | .device deviceId => (getDeviceAccount deviceId did s).isSome
  | .client clientId => (did, clientId) ∈ s.authorizedClient

/-! ## The deletion -/

inductive DeleteStatement where
  | begin
  | repoRoot
  | emailToken
  | refreshToken
  | account
  | actor
  | commit
  deriving DecidableEq

def deleteRepoRoot (did : String) (s : Tables) : Tables :=
  { s with account := { s.account with repoRoot := s.account.repoRoot.erase did } }

def deleteAllEmailTokens (did : String) (s : Tables) : Tables :=
  { s with emailToken := s.emailToken.deleteWhere fun k _ => k.2 = did }

def deleteRefreshTokens (did : String) (s : Tables) : Tables :=
  { s with account := { s.account with
      refreshToken := s.account.refreshToken.deleteWhere fun _ r => r.did = did } }

/-- Devices and clients reference the account's row. -/
def deleteAccountRow (did : String) (s : Tables) : Tables :=
  let account := s.account.account.erase did
  { s with
    account := { s.account with account }
    accountDevice := s.accountDevice.cascade (fun k _ => k.2) s.account.account account
    authorizedClient := s.authorizedClient.cascade (fun k _ => k.1) s.account.account account }

def deleteActor (did : String) (s : Tables) : Tables :=
  { s with account := { s.account with actor := s.account.actor.erase did } }

/-- One statement of the transaction. -/
def delete (fault : Option String) (f : Tables → Tables) : Stages.Call Tables AccountError Unit :=
  statement (fun _ => fault.map .db) f

def deleteAccount (fault : DeleteStatement → Option String) (did : String) :
    Stages.Call Tables AccountError Unit :=
  atomically do
    delete (fault .begin) id
    delete (fault .repoRoot) (deleteRepoRoot did)
    delete (fault .emailToken) (deleteAllEmailTokens did)
    delete (fault .refreshToken) (deleteRefreshTokens did)
    delete (fault .account) (deleteAccountRow did)
    delete (fault .actor) (deleteActor did)
    delete (fault .commit) id

/-- The five statements. -/
def accountDeleted (did : String) (s : Tables) : Tables :=
  deleteActor did (deleteAccountRow did (deleteRefreshTokens did (deleteAllEmailTokens did
    (deleteRepoRoot did s))))

theorem does_delete (fault : Option String) (f : Tables → Tables) :
    Does (delete fault f) (fun _ => fault = none) f :=
  (does_statement _ f).congr (fun s => by cases fault <;> simp) fun _ _ => rfl

theorem deleteAccount_ok {fault : DeleteStatement → Option String} {did : String} {s t : Tables} :
    (deleteAccount fault did).exec s = (.ok (), t) ↔
      (∀ statement, fault statement = none) ∧ t = accountDeleted did s := by
  have hall := (does_delete (fault .begin) id).bind <|
    (does_delete (fault .repoRoot) (deleteRepoRoot did)).bind <|
    (does_delete (fault .emailToken) (deleteAllEmailTokens did)).bind <|
    (does_delete (fault .refreshToken) (deleteRefreshTokens did)).bind <|
    (does_delete (fault .account) (deleteAccountRow did)).bind <|
    (does_delete (fault .actor) (deleteActor did)).bind <| does_delete (fault .commit) id
  rw [deleteAccount, atomically_ok, hall s t]
  refine and_congr_left fun _ => ⟨?_, fun h => ?_⟩
  · rintro ⟨hb, hr, he, ht, ha, hc, hm⟩ statement
    cases statement <;> assumption
  · exact ⟨h _, h _, h _, h _, h _, h _, h _⟩

/-! ## The rows of a DID -/

/-- The row, without the DID. -/
inductive Row where
  | account (row : AccountRow)
  | appPassword (name : String) (row : AppPasswordRow)
  | refreshToken (id : String) (row : RefreshTokenRow)
  | emailToken (purpose : EmailTokenPurpose) (row : EmailTokenRow)
  | token (pk : DbId) (row : Oauth.TokenRow)
  | usedRefreshToken (refreshToken : String) (pk : DbId)
  | authorizationRequest (pk : DbId) (row : Oauth.AuthorizationRequestRow)
  | accountDevice (deviceId : DbId)
  | authorizedClient (clientId data : String)

def HasRow (s : Tables) (did : String) : Row → Prop
  | .account row => s.account.account.lookup did = some row
  | .appPassword name row => s.appPassword.lookup (did, name) = some row
  | .refreshToken id row => s.account.refreshToken.lookup id = some row ∧ row.did = did
  | .emailToken purpose row => s.emailToken.lookup (purpose, did) = some row
  | .token pk row => s.oauth.token.lookup pk = some row ∧ row.did = did
  | .usedRefreshToken refreshToken pk => s.oauth.usedRefreshToken.lookup refreshToken = some pk ∧
      ∃ row, s.oauth.token.lookup pk = some row ∧ row.did = did
  | .authorizationRequest pk row =>
      s.oauth.authorizationRequest.lookup pk = some row ∧ row.did = some did
  | .accountDevice deviceId => (deviceId, did) ∈ s.accountDevice
  | .authorizedClient clientId data => s.authorizedClient.lookup (did, clientId) = some data

/-- No statement of the deletion is about the row's table, and no foreign key leads there. -/
def Row.leftBehind : Row → Bool
  | .appPassword _ _ | .token _ _ | .usedRefreshToken _ _ | .authorizationRequest _ _ => true
  | .account _ | .refreshToken _ _ | .emailToken _ _ => false
  | .accountDevice _ | .authorizedClient _ _ => false

/-- Exactly these rows are still there. -/
theorem hasRow_accountDeleted (s : Database) (did : String) (row : Row) :
    HasRow (accountDeleted did s.toTables) did row ↔
      HasRow s.toTables did row ∧ row.leftBehind = true := by
  have hgone : did ∉ s.account.account.erase did := Finmap.notMem_erase_self
  cases row with
  | appPassword | token | usedRefreshToken | authorizationRequest => exact (and_iff_left rfl).symm
  | account row =>
    refine iff_of_false (fun h => ?_) fun h => nomatch h.2
    exact hgone (Finmap.mem_iff.2 ⟨row, h⟩)
  | refreshToken id row =>
    refine iff_of_false ?_ fun h => nomatch h.2
    rintro ⟨hl, hd⟩
    exact of_decide_eq_false (Table.lookup_deleteWhere_eq_some.1 hl).2 hd
  | emailToken purpose row =>
    refine iff_of_false (fun hl => ?_) fun h => nomatch h.2
    exact of_decide_eq_false (Table.lookup_deleteWhere_eq_some.1 hl).2 rfl
  | accountDevice deviceId =>
    refine iff_of_false (fun hm => ?_) fun h => nomatch h.2
    obtain ⟨row, hl⟩ := Finmap.mem_iff.1 hm
    exact hgone ((Table.lookup_cascade s.keyed.accountDevice).1 hl).2
  | authorizedClient clientId data =>
    refine iff_of_false (fun hl => ?_) fun h => nomatch h.2
    exact hgone ((Table.lookup_cascade s.keyed.authorizedClient).1 hl).2

/-- The foreign keys hold after the deletion too. -/
theorem keyed_accountDeleted (s : Database) (did : String) :
    (accountDeleted did s.toTables).Keyed where
  accountDevice := s.keyed.accountDevice.cascade
  authorizedClient := s.keyed.authorizedClient.cascade
  usedRefreshToken := s.keyed.usedRefreshToken

/-! ## The rows behind a credential -/

/-- A row by which the credential may be accepted. -/
def Row.Backs (L : Library) : Row → Credential → Prop
  | .account row, .password password => L.verify password row.password = .ok true
  | .appPassword _ _, .appPassword _ => True
  | .refreshToken id _, .refreshToken id' => id = id'
  | .emailToken purpose _, .emailToken purpose' _ => purpose = purpose'
  | .token _ _, .oauthToken _ => True
  | .token _ _, .oauthRefreshToken _ => True
  | .authorizationRequest _ _, .authorizationCode _ => True
  | .accountDevice _, .device _ => True
  | .authorizedClient clientId _, .client clientId' => clientId = clientId'
  | _, _ => False

section

variable {K} {L : Library} {s : Tables} {did : String}

theorem rowToTokenInfo_did {row : Oauth.TokenRow} {info : Oauth.Tokens.TokenInfo Auth Params}
    (h : Oauth.Tokens.rowToTokenInfo K row = .ok info) : info.data.did = row.did := by
  simp only [Oauth.Tokens.rowToTokenInfo, Oauth.Tokens.rowToTokenData, except_bind_ok, pure,
    Except.pure, Except.ok.injEq] at h
  obtain ⟨data, ⟨clientAuth, -, parameters, -, rfl⟩, rfl⟩ := h
  rfl

theorem rowToRequestData_did {row : Oauth.AuthorizationRequestRow}
    {data : Oauth.RequestData Auth Params} (h : Oauth.rowToRequestData K row = .ok data) :
    data.did = row.did := by
  simp only [Oauth.rowToRequestData, except_bind_ok, pure, Except.pure, Except.ok.injEq] at h
  obtain ⟨clientAuth, -, parameters, -, rfl⟩ := h
  rfl

theorem verifyAppPassword_some {t : Table (String × String) AppPasswordRow} {password name : String}
    (h : verifyAppPassword L did password t = .ok (some name)) :
    ∃ row, t.lookup (did, name) = some row ∧ L.hashAppPassword did password = .ok row.password := by
  obtain ⟨hash, hhash, hfirst⟩ := except_bind_ok.1 h
  have hmem := List.mem_of_mem_head? (Except.ok.inj hfirst)
  rw [appPasswordNames, Multiset.mem_sort, Table.mem_select] at hmem
  obtain ⟨⟨did', name'⟩, row, hl, hp, rfl⟩ := hmem
  obtain ⟨rfl, hpassword⟩ := of_decide_eq_true hp
  exact ⟨row, hl, hhash.trans (congrArg _ hpassword.symm)⟩

theorem row_of_refreshToken {refreshToken : String} {info : Oauth.Tokens.TokenInfo Auth Params}
    {t : Oauth.Db}
    (h : (Oauth.Tokens.findTokenByRefreshToken K none none refreshToken).exec s.oauth =
      (.ok (some info), t)) :
    ∃ pk row, s.oauth.token.lookup pk = some row ∧ row.did = info.data.did := by
  rw [Oauth.Tokens.findTokenByRefreshToken, exec_bind_ok] at h
  obtain ⟨usedPk, u, hused, h⟩ := h
  obtain ⟨-, rfl, rfl⟩ := Oauth.query_ok.1 hused
  obtain ⟨row, v, hrow, h⟩ := exec_bind_ok.1 h
  obtain ⟨-, rfl, rfl⟩ := Oauth.query_ok.1 hrow
  have hfrom : ∀ {row}, (∃ info' v, (ofExcept (Oauth.Tokens.rowToTokenInfo K row) :
      Oauth.Call _).exec s.oauth = (.ok info', v) ∧
        (pure (some info') : Oauth.Call _).exec v = (.ok (some info), t)) →
      row.did = info.data.did := by
    rintro row ⟨info', v, hinfo, hpure⟩
    rw [exec_ofExcept, Prod.mk.injEq] at hinfo
    rw [exec_pure, Prod.mk.injEq, Except.ok.injEq, Option.some.injEq] at hpure
    exact hpure.1 ▸ (rowToTokenInfo_did hinfo.1).symm
  cases hpk : s.oauth.usedRefreshToken.lookup refreshToken with
  | some pk =>
    rw [hpk] at h
    dsimp only at h
    cases hl : s.oauth.token.lookup pk with
    | none => rw [hl] at h; cases h
    | some row =>
      rw [hl] at h
      exact ⟨pk, row, hl, hfrom (exec_bind_ok.1 h)⟩
  | none =>
    rw [hpk] at h
    dsimp only at h
    cases hone : s.oauth.token.one fun _ r => r.currentRefreshToken = some refreshToken with
    | none => rw [hone] at h; cases h
    | some kr =>
      rw [hone] at h
      exact ⟨kr.1, kr.2, (Table.mem_of_one hone).1, hfrom (exec_bind_ok.1 h)⟩

theorem row_of_code {code id : String} {data : Oauth.RequestData Auth Params} {t : Oauth.Db}
    (h : (Oauth.consumeRequestCode K none code).exec s.oauth = (.ok (some (id, data)), t)) :
    ∃ pk row, s.oauth.authorizationRequest.lookup pk = some row ∧ data.did = row.did := by
  rw [Oauth.consumeRequestCode, exec_bind, Oauth.exec_deleteRequests] at h
  cases hrows : s.oauth.authorizationRequest.rows fun _ r => r.code = some code with
  | nil =>
    simp only [Option.elim, hrows, List.head?_nil] at h
    cases h
  | cons found rest =>
    simp only [Option.elim, hrows, List.head?_cons, exec_bind, exec_ofExcept] at h
    have hmem : found ∈ s.oauth.authorizationRequest.rows fun _ r => r.code = some code := by
      rw [hrows]
      exact List.mem_cons_self
    cases hrow : Oauth.rowToRequestData K found.2 with
    | error e =>
      rw [hrow] at h
      cases h
    | ok data' =>
      rw [hrow] at h
      cases h
      exact ⟨found.1, found.2, (Table.mem_rows.1 hmem).1, rowToRequestData_did hrow⟩

/-- Nothing is accepted without a row of the DID. -/
theorem exists_row_of_grants {c : Credential} (h : Grants K L s did c) :
    ∃ row, HasRow s did row ∧ row.Backs L c := by
  cases c with
  | password password =>
    rw [Grants, verifyAccountPassword] at h
    cases hl : s.account.account.lookup did with
    | none => rw [hl] at h; cases h
    | some row =>
      rw [hl] at h
      exact ⟨.account row, hl, h⟩
  | appPassword password =>
    obtain ⟨name, hname⟩ := h
    obtain ⟨row, hl, -⟩ := verifyAppPassword_some hname
    exact ⟨.appPassword name row, hl, trivial⟩
  | refreshToken id =>
    obtain ⟨row, hl, hd⟩ := h
    exact ⟨.refreshToken id row, ⟨hl, hd⟩, rfl⟩
  | emailToken purpose token =>
    rw [Grants, assertValidToken] at h
    cases hl : s.emailToken.lookup (purpose, did) with
    | none => rw [hl] at h; cases h
    | some row => exact ⟨.emailToken purpose row, hl, rfl⟩
  | oauthToken tokenId =>
    obtain ⟨info, hinfo, hd⟩ := h
    rw [readToken] at hinfo
    cases hone : s.oauth.token.one fun _ r => r.tokenId = tokenId with
    | none => rw [hone] at hinfo; cases hinfo
    | some kr =>
      rw [hone] at hinfo
      dsimp only at hinfo
      cases hrow : Oauth.Tokens.rowToTokenInfo K kr.2 with
      | error e => rw [hrow] at hinfo; cases hinfo
      | ok info' =>
        rw [hrow] at hinfo
        cases hinfo
        have hdid := (rowToTokenInfo_did hrow).symm.trans hd
        exact ⟨.token kr.1 kr.2, ⟨(Table.mem_of_one hone).1, hdid⟩, trivial⟩
  | oauthRefreshToken refreshToken =>
    obtain ⟨info, t, hfind, hd⟩ := h
    obtain ⟨pk, row, hl, hrow⟩ := row_of_refreshToken hfind
    exact ⟨.token pk row, ⟨hl, hrow.trans hd⟩, trivial⟩
  | authorizationCode code =>
    obtain ⟨id, data, t, hconsume, hd⟩ := h
    obtain ⟨pk, row, hl, hrow⟩ := row_of_code hconsume
    exact ⟨.authorizationRequest pk row, ⟨hl, hrow.symm.trans hd⟩, trivial⟩
  | device deviceId =>
    rw [Grants, getDeviceAccount] at h
    cases hone : s.oauth.device.one fun _ id => id = deviceId with
    | none => rw [hone] at h; cases h
    | some kr =>
      rw [hone] at h
      cases hl : s.accountDevice.lookup (kr.1, did) with
      | none => simp [hl] at h
      | some _ => exact ⟨.accountDevice kr.1, Finmap.mem_iff.2 ⟨_, hl⟩, trivial⟩
  | client clientId =>
    obtain ⟨data, hl⟩ := Finmap.mem_iff.1 h
    exact ⟨.authorizedClient clientId data, hl, rfl⟩

end

/-! ## The next account under the DID -/

/-- Every row of the DID was there before. -/
def AddsNone (did : String) (s t : Tables) : Prop := ∀ row, HasRow t did row → HasRow s did row

/-- `create_account` on the whole database. -/
def createAgain (E : Env) (opts : CreateAccountOpts) :
    Stages.Call Tables AccountError (String × String) :=
  zoom Tables.account (fun account s => { s with account }) (createAccount E opts)

/-- What an account is created with: its password, and its first refresh token. -/
def Issues (L : Library) (E : Env) (opts : CreateAccountOpts) : Credential → Prop
  | .password password => ∃ p passwordEncrypted, prepare E opts = .ok p ∧
      p.passwordEncrypted = some passwordEncrypted ∧ L.verify password passwordEncrypted = .ok true
  | .refreshToken id => ∃ p, prepare E opts = .ok p ∧ p.payload.jti = id
  | _ => False

/-- Rows that are new in the two tables, if any, are those of the call. -/
structure Adds (E : Env) (opts : CreateAccountOpts) (s t : Db) : Prop where
  account : ∀ did row, t.account.lookup did = some row → s.account.lookup did = some row ∨
    ∃ p, prepare E opts = .ok p ∧ p.passwordEncrypted = some row.password
  refreshToken : ∀ id row, t.refreshToken.lookup id = some row →
    s.refreshToken.lookup id = some row ∨ ∃ p, prepare E opts = .ok p ∧ p.payload.jti = id

section

variable {E : Env} {opts : CreateAccountOpts}

theorem adds_refl (s : Db) : Adds E opts s s := ⟨fun _ _ => .inl, fun _ _ => .inl⟩

theorem adds_trans (s t u : Db) (h : Adds E opts s t) (k : Adds E opts t u) : Adds E opts s u where
  account did row hl := (k.account did row hl).elim (h.account did row) .inr
  refreshToken id row hl := (k.refreshToken id row hl).elim (h.refreshToken id row) .inr

theorem adds_createAccount : Keeps (createAccount E opts) (Adds E opts) := by
  intro s
  rw [createAccount, exec_bind, exec_ofExcept]
  cases hp : prepare E opts with
  | error e => exact adds_refl s
  | ok p =>
    dsimp only
    have hsame {f : Db → Db}
        (h : ∀ s, (f s).account = s.account ∧ (f s).refreshToken = s.refreshToken) (s : Db) :
        Adds E opts s (f s) := by
      constructor
      · intro did row hl
        exact .inl ((h s).1 ▸ hl)
      · intro id row hl
        exact .inl ((h s).2 ▸ hl)
    have hactor : Keeps (registerActor (E.fault .registerActor) (E.now .registerActor) opts.did
        opts.handle opts.deactivated) (Adds E opts) :=
      keeps_execute adds_refl _ _ (hsame fun _ => ⟨rfl, rfl⟩)
    have haccount : Keeps (registerAccountIfGiven E opts.did opts.email p.passwordEncrypted)
        (Adds E opts) := by
      unfold registerAccountIfGiven
      split
      · rename_i email password hpassword
        refine keeps_execute adds_refl _ _ fun s => ⟨fun did row hl => ?_, fun _ _ => .inl⟩
        rcases Table.lookup_insert_eq_some.1 hl with ⟨-, rfl⟩ | ⟨-, hl⟩
        · exact .inr ⟨p, hp, hpassword⟩
        · exact .inl hl
      · exact keeps_pure adds_refl _
    have huse : Keeps (recordInviteUse (E.fault .recordInviteUse) (E.now .recordInviteUse) opts.did
        opts.inviteCode) (Adds E opts) := by
      unfold recordInviteUse
      split
      · exact keeps_pure adds_refl _
      · exact keeps_execute adds_refl _ _ (hsame fun _ => ⟨rfl, rfl⟩)
    have htoken : Keeps (storeRefreshToken (E.fault .storeRefreshToken) E.formatMillis p.payload
        none) (Adds E opts) := by
      unfold storeRefreshToken
      split
      · exact keeps_throw adds_refl _
      · refine keeps_execute adds_refl _ _ fun s => ⟨fun _ _ => .inl, fun id row hl => ?_⟩
        rw [Table.lookup_insertIgnore] at hl
        split at hl
        · rename_i hid
          exact .inr ⟨p, hp, hid.symm⟩
        · exact .inl hl
    have hroot : Keeps (updateRoot (E.fault .updateRoot) (E.now .updateRoot) opts.did opts.repoCid
        opts.repoRev) (Adds E opts) :=
      keeps_execute adds_refl _ _ (hsame fun _ => ⟨rfl, rfl⟩)
    have hcomplete : Keeps (completeAccount E opts p) (Adds E opts) :=
      haccount.bind adds_trans fun _ => huse.bind adds_trans fun _ =>
        htoken.bind adds_trans fun _ => hroot
    exact ((reads_ensureInvite E opts.inviteCode).keeps adds_refl).bind adds_trans
      (fun _ => hactor.bind adds_trans fun _ => hcomplete.bind adds_trans fun _ =>
        keeps_pure adds_refl _) s

/-- Under a DID without rows, what is accepted is what the account was created with. -/
theorem issues_of_grants {L : Library} {s : Tables} {did : String}
    (h : ∀ row, ¬ HasRow s did row) {c : Credential}
    (hc : Grants K L ((createAgain E opts).exec s).2 did c) : Issues L E opts c := by
  obtain ⟨row, hrow, hback⟩ := exists_row_of_grants hc
  have hadds := @adds_createAccount E opts s.account
  -- no other table has changed
  cases row with
  | account row =>
    cases c with
    | password password =>
      obtain hold | ⟨p, hp, hpassword⟩ := hadds.account did row hrow
      · exact (h (.account row) hold).elim
      · exact ⟨p, row.password, hp, hpassword, hback⟩
    | _ => exact hback.elim
  | refreshToken id row =>
    cases c with
    | refreshToken id' =>
      obtain hold | ⟨p, hp, hid⟩ := hadds.refreshToken id row hrow.1
      · exact (h (.refreshToken id row) ⟨hold, hrow.2⟩).elim
      · exact ⟨p, hp, hid.trans hback⟩
    | _ => exact hback.elim
  | appPassword name row => exact (h (.appPassword name row) hrow).elim
  | emailToken purpose row => exact (h (.emailToken purpose row) hrow).elim
  | token pk row => exact (h (.token pk row) hrow).elim
  | usedRefreshToken refreshToken pk => exact (h (.usedRefreshToken refreshToken pk) hrow).elim
  | authorizationRequest pk row => exact (h (.authorizationRequest pk row) hrow).elim
  | accountDevice deviceId => exact (h (.accountDevice deviceId) hrow).elim
  | authorizedClient clientId data => exact (h (.authorizedClient clientId data) hrow).elim

end

/-- Once the account is deleted no row of the DID is left, and a later account with the DID accepts
nothing but what it was itself created with, whatever is done in between that adds no row of the
DID. -/
def ForgetsCredentials (L : Library) (s : Database) (did : String) : Prop :=
  ∀ fault t, (deleteAccount fault did).exec s.toTables = (.ok (), t) →
    (∀ row, ¬ HasRow t did row) ∧
    ∀ u, AddsNone did t u → ∀ E opts, opts.did = did →
      ∀ c, Grants K L ((createAgain E opts).exec u).2 did c → Issues L E opts c

/-- The tables that the deletion passes by hold nothing of the DID. -/
structure NothingOutside (s : Database) (did : String) : Prop where
  appPassword : ∀ name, (did, name) ∉ s.appPassword
  token : ∀ pk row, s.oauth.token.lookup pk = some row → row.did ≠ did
  authorizationRequest : ∀ pk row, s.oauth.authorizationRequest.lookup pk = some row →
    row.did ≠ some did

theorem nothingOutside_iff {s : Database} {did : String} :
    NothingOutside s did ↔ ∀ row, HasRow s.toTables did row → row.leftBehind = false := by
  constructor
  · rintro h (_ | _ | _ | _ | _ | _ | _ | _ | _) hrow
    case appPassword name row =>
      have hm : (did, name) ∈ s.appPassword := Finmap.mem_iff.2 ⟨row, hrow⟩
      exact absurd hm (h.appPassword name)
    case token pk row => exact absurd hrow.2 (h.token pk row hrow.1)
    case usedRefreshToken refreshToken pk =>
      obtain ⟨-, row, hl, hd⟩ := hrow
      exact absurd hd (h.token pk row hl)
    case authorizationRequest pk row => exact absurd hrow.2 (h.authorizationRequest pk row hrow.1)
    all_goals rfl
  · intro h
    constructor
    · intro name hm
      obtain ⟨row, hl⟩ := Finmap.mem_iff.1 hm
      exact nomatch h (.appPassword name row) hl
    · intro pk row hl hd
      exact nomatch h (.token pk row) ⟨hl, hd⟩
    · intro pk row hl hd
      exact nomatch h (.authorizationRequest pk row) ⟨hl, hd⟩

theorem forgetsCredentials_iff (L : Library) (s : Database) (did : String) :
    ForgetsCredentials K L s did ↔ NothingOutside s did := by
  rw [nothingOutside_iff]
  constructor
  · intro h row hrow
    by_contra hleft
    obtain ⟨hnone, -⟩ := h (fun _ => none) _ (deleteAccount_ok.2 ⟨fun _ => rfl, rfl⟩)
    refine hnone row ((hasRow_accountDeleted s did row).2 ⟨hrow, ?_⟩)
    rwa [Bool.not_eq_false] at hleft
  · intro h fault t ht
    obtain ⟨-, rfl⟩ := deleteAccount_ok.1 ht
    have hnone : ∀ row, ¬ HasRow (accountDeleted did s.toTables) did row := by
      intro row hrow
      obtain ⟨hold, hleft⟩ := (hasRow_accountDeleted s did row).1 hrow
      rw [h row hold] at hleft
      cases hleft
    refine ⟨hnone, fun u hu E opts _ c hc => issues_of_grants K (fun row hrow => ?_) hc⟩
    exact hnone row (hu row hrow)

/-- A hash that can be read. -/
def plainLibrary : Library where
  verify password hash := .ok (hash = "$argon2id$" ++ password)
  hashAppPassword did password := .ok (did ++ "$" ++ password)
  toUppercase := id
  lessThanAgo _ _ := .ok true

/-- Bob's phone signs in with an app password. -/
def bobsPhone : Database where
  account := { Db.empty with
    actor := Db.empty.actor.insert "did:plc:bob"
      ⟨some "bob.test", "2026-07-01T00:00:00.000Z", none, none, none⟩
    account := Db.empty.account.insert "did:plc:bob"
      ⟨"b@x.test", none, "$argon2id$old", "2026-07-01T00:00:00.000Z"⟩ }
  oauth := .empty
  appPassword := Tables.empty.appPassword.insert ("did:plc:bob", "phone")
    ⟨"did:plc:bob$abcd-efgh-ijkl-mnop", "2026-07-01T00:00:00.000Z"⟩
  emailToken := ∅
  accountDevice := ∅
  authorizedClient := ∅
  keyed := ⟨nofun, nofun, nofun⟩

/-- Bob's account is deleted and made again; his old password is refused, and the phone signs in as
before. -/
theorem appPassword_outlives_account :
    let deleted := (deleteAccount (fun _ => none) "did:plc:bob").exec bobsPhone.toTables
    let again := (createAgain workingEnv bobsOpts).exec deleted.2
    deleted.1 = .ok () ∧ again.1 = .ok ("access did:plc:bob", "refresh did:plc:bob") ∧
      ¬ Grants Oauth.plainCodec plainLibrary again.2 "did:plc:bob" (.password "old") ∧
      Grants Oauth.plainCodec plainLibrary again.2 "did:plc:bob"
        (.appPassword "abcd-efgh-ijkl-mnop") ∧
      ¬ ForgetsCredentials Oauth.plainCodec plainLibrary bobsPhone "did:plc:bob" := by
  have hphone : Grants Oauth.plainCodec plainLibrary
      ((createAgain workingEnv bobsOpts).exec
        ((deleteAccount (fun _ => none) "did:plc:bob").exec bobsPhone.toTables).2).2
      "did:plc:bob" (.appPassword "abcd-efgh-ijkl-mnop") := ⟨"phone", by decide +kernel⟩
  refine ⟨by decide +kernel, by decide +kernel, ?_, hphone, fun h => ?_⟩
  · intro h
    revert h
    unfold Grants
    decide +kernel
  · -- the new account did not issue it
    exact (h (fun _ => none) _ rfl).2 _ (fun _ => id) workingEnv bobsOpts rfl _ hphone

end CacosPds.Account
