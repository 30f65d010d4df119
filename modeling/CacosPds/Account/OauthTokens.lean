import CacosPds.Account.OauthTables
import CacosPds.Lib.Run
/-!
# Tokens (`account/oauth_store.rs:287-466`)

| here | there |
| --- | --- |
| `createToken`, `findTokenByRefreshToken`, `rotateToken`, `deleteToken` | the methods of `PdsOAuthStore` |
| `transaction` | `self.db.begin()` … `tx.commit()`; what is dropped before is rolled back |
| `Ledger`      | which refresh tokens were issued for which token, and which were rotated out |
| `Resolves`    | what the ledger says of the rows |

A refresh token is the current one of its token's row and after a rotation a row of
`used_refresh_token`, which references the token and goes with it (`ON DELETE CASCADE`).
`create_token` and `rotate_token` look a new one up among the used; the unique index refuses it among
the current ones. After the token is deleted neither knows it any more
(`rotatedOut_current_again`).
-/
namespace CacosPds.Account.Oauth.Tokens

open Stages Runs Sql

variable {Auth Params : Type} (K : Codec Auth Params)

/-- The statements' faults. -/
structure Faults where
  begin : Option String
  select : Option String
  insertUsed : Option String
  countUsed : Option String
  device : Option String
  write : Option String
  commit : Option String

def transaction (F : Faults) (x : Call Unit) : Call Unit :=
  atomically do
    attempt (F.begin.map .database)
    x
    attempt (F.commit.map .database)

/-- `row_to_token_data`. -/
def rowToTokenData (row : TokenRow) : Except StoreError (TokenData Auth Params) := do
  let clientAuth ← fromJson (K.authFromJson row.clientAuth)
  let parameters ← fromJson (K.paramsFromJson row.parameters)
  return {
    createdAt := offsetToSecs row.createdAt
    updatedAt := offsetToSecs row.updatedAt
    expiresAt := offsetToSecs row.expiresAt
    clientId := row.clientId
    clientAuth
    deviceId := row.externalDeviceId
    did := row.did
    parameters
    code := row.code }

structure TokenInfo (Auth Params : Type) where
  tokenId : String
  data : TokenData Auth Params
  currentRefreshToken : Option String

def rowToTokenInfo (row : TokenRow) : Except StoreError (TokenInfo Auth Params) := do
  let data ← rowToTokenData K row
  return ⟨row.tokenId, data, row.currentRefreshToken⟩

/-- The row that `create_token` inserts. -/
def tokenRow (tokenId : String) (data : TokenData Auth Params) (deviceId : Option DbId)
    (refreshToken : Option String) : Except StoreError TokenRow := do
  let createdAt ← offset data.createdAt
  let updatedAt ← offset data.updatedAt
  let expiresAt ← offset data.expiresAt
  let clientAuth ← toJson (K.authToJson data.clientAuth)
  let parameters ← toJson (K.paramsToJson data.parameters)
  return {
    did := data.did
    tokenId
    createdAt
    updatedAt
    expiresAt
    clientId := data.clientId
    clientAuth
    deviceId
    externalDeviceId := data.deviceId
    parameters
    details := none
    code := data.code
    currentRefreshToken := refreshToken
    scope := some (K.scope data.parameters) }

/-- Why a row under `id` would violate a unique index. -/
def refuseToken (s : Db) (id : DbId) (row : TokenRow) : Option StoreError :=
  if s.token.taken (fun r => some r.tokenId) id (some row.tokenId) then
    some (.unique "uq_token_token_id")
  else if s.token.taken (·.currentRefreshToken) id row.currentRefreshToken then
    some (.unique "uq_token_current_refresh_token")
  else if s.token.taken (·.code) id row.code then some (.unique "token_code_idx")
  else none

def insertToken (fault : Option String) (id : DbId) (row : TokenRow) : Call Unit :=
  execute fault
    (fun s => if id ∈ s.token then some (.unique "token.id") else refuseToken s id row)
    fun s => { s with token := s.token.insert id row }

/-- `SELECT count(*) … WHERE "refreshToken" = ?`, and the error if there is one. -/
def refuseUsed (fault : Option String) (refreshToken err : String) : Call Unit := do
  let used ← query fault fun s => decide (refreshToken ∈ s.usedRefreshToken)
  if used then throw (.serverError err)

def refuseUsedIfGiven (fault : Option String) : Option String → Call Unit
  | some refreshToken => refuseUsed fault refreshToken "refresh token already in use"
  | none => pure ()

/-- `newId` is `DbId::new()`. -/
def createToken (F : Faults) (newId : DbId) (tokenId : String) (data : TokenData Auth Params)
    (refreshToken : Option String) : Call Unit :=
  transaction F do
    refuseUsedIfGiven F.countUsed refreshToken
    let deviceId ← deviceDbId F.device data.deviceId
    let row ← ofExcept (tokenRow K tokenId data deviceId refreshToken)
    insertToken F.write newId row

/-- Among the used ones first, then among the current ones. -/
def findTokenByRefreshToken (byUsed byToken : Option String) (refreshToken : String) :
    Call (Option (TokenInfo Auth Params)) := do
  let usedPk ← query byUsed fun s => s.usedRefreshToken.lookup refreshToken
  let row ← query byToken fun s =>
    match usedPk with
    | some pk => s.token.lookup pk
    | none =>
      (s.token.one fun _ r => r.currentRefreshToken = some refreshToken).map Prod.snd
  match row with
  | none => return none
  | some row =>
    let info ← ofExcept (rowToTokenInfo K row)
    return some info

/-- What `rotate_token` sets. -/
def setToken (newTokenId newRefreshToken : String) (updatedAt expiresAt : Int) (row : TokenRow) :
    TokenRow :=
  { row with
    tokenId := newTokenId
    currentRefreshToken := some newRefreshToken
    updatedAt
    expiresAt }

/-- The current refresh token becomes a used one. -/
def useRefreshToken (fault : Option String) (pk : DbId) : Option String → Call Unit
  | some current =>
    execute fault
      (fun s =>
        if current ∈ s.usedRefreshToken then some (.unique "used_refresh_token.refreshToken")
        else none)
      fun s => { s with usedRefreshToken := s.usedRefreshToken.insert current pk }
  | none => pure ()

def rotateToken (F : Faults) (tokenId newTokenId newRefreshToken : String)
    (updatedAt expiresAt : UInt64) : Call Unit :=
  transaction F do
    let row ← query F.select fun s => s.token.one fun _ r => r.tokenId = tokenId
    match row with
    | none => throw (.serverError ("unknown token: " ++ tokenId))
    | some (pk, row) =>
      useRefreshToken F.insertUsed pk row.currentRefreshToken
      refuseUsed F.countUsed newRefreshToken "new refresh token already in use"
      let updatedAt ← ofExcept (offset updatedAt)
      let expiresAt ← ofExcept (offset expiresAt)
      let set := setToken newTokenId newRefreshToken updatedAt expiresAt
      execute F.write (refuseToken · pk (set row)) fun s => { s with token := s.token.update pk set }

/-- `DELETE FROM token WHERE "tokenId" = ?`, with the used refresh tokens that reference the row. -/
def deleteToken (fault : Option String) (tokenId : String) : Call Unit := do
  let rows ← query fault fun s => s.token.rows fun _ r => r.tokenId = tokenId
  modify fun s => { s with
    token := s.token.deleteWhere fun _ r => r.tokenId = tokenId
    usedRefreshToken := s.usedRefreshToken.deleteWhere fun _ pk => pk ∈ rows.map Prod.fst }
  if rows.isEmpty then throw (.serverError ("unknown token: " ++ tokenId))

/-! ## The ledger -/

/-- Nothing of this is stored. A token is known by the key of its row. -/
structure Ledger where
  issued : Finset (String × DbId)
  rotatedOut : Finset (String × DbId)
  /-- The keys ever drawn. -/
  drawn : Finset DbId

structure World where
  db : Db
  ledger : Ledger

inductive Action (Auth Params : Type) where
  | create (F : Faults) (newId : DbId) (tokenId : String) (data : TokenData Auth Params)
      (refreshToken : Option String)
  | rotate (F : Faults) (tokenId newTokenId newRefreshToken : String) (updatedAt expiresAt : UInt64)
  | delete (fault : Option String) (tokenId : String)

def perform : Action Auth Params → Call Unit
  | .create F newId tokenId data refreshToken => createToken K F newId tokenId data refreshToken
  | .rotate F tokenId newTokenId newRefreshToken updatedAt expiresAt =>
    rotateToken F tokenId newTokenId newRefreshToken updatedAt expiresAt
  | .delete fault tokenId => deleteToken fault tokenId

/-- The ledger after a call that has succeeded on `s`. -/
def Ledger.after (H : Ledger) (s : Db) : Action Auth Params → Ledger
  | .create _ newId _ _ refreshToken =>
    { H with
      issued := refreshToken.elim H.issued fun v => insert (v, newId) H.issued
      drawn := insert newId H.drawn }
  | .rotate _ tokenId _ newRefreshToken _ _ =>
    match s.token.one fun _ r => r.tokenId = tokenId with
    | none => H
    | some (pk, row) =>
      { H with
        issued := insert (newRefreshToken, pk) H.issued
        rotatedOut := row.currentRefreshToken.elim H.rotatedOut fun v =>
          insert (v, pk) H.rotatedOut }
  | .delete _ _ => H

/-- Keys are drawn once. -/
def Action.fresh (H : Ledger) : Action Auth Params → Bool
  | .create _ newId _ _ _ => newId ∉ H.drawn
  | _ => true

def step (W : World) (a : Action Auth Params) : Option World :=
  if a.fresh W.ledger then
    match (perform K a).exec W.db with
    | (.ok _, db) => some ⟨db, W.ledger.after W.db a⟩
    | (.error _, db) => some { W with db }
  else none

/-- A database without tokens yet. -/
def World.start (db : Db) : World := ⟨{ db with token := ∅, usedRefreshToken := ∅ }, ⟨∅, ∅, ∅⟩⟩

/-- Every refresh token issued for a token that exists leads to it, it is the current one of one token
at most, and once it is rotated out it is no token's current one while its token exists. -/
structure Resolves (W : World) : Prop where
  find : ∀ v pk row, (v, pk) ∈ W.ledger.issued → W.db.token.lookup pk = some row →
    ∃ info, rowToTokenInfo K row = .ok info ∧
      ((findTokenByRefreshToken K none none v).exec W.db).1 = .ok (some info)
  only : ∀ v pk pk' row, (v, pk) ∈ W.ledger.issued → W.db.token.lookup pk = some row →
    (v, pk') ∈ W.ledger.issued → pk' ∈ W.db.token → pk' = pk
  current : ∀ v pk pk' row row', W.db.token.lookup pk = some row →
    W.db.token.lookup pk' = some row' → row.currentRefreshToken = some v →
    row'.currentRefreshToken = some v → pk = pk'
  rotatedOut : ∀ v pk, (v, pk) ∈ W.ledger.rotatedOut → pk ∈ W.db.token →
    ∀ pk' row, W.db.token.lookup pk' = some row → row.currentRefreshToken ≠ some v

/-- A call that fails changes nothing. -/
def FailsClean (W : World) (a : Action Auth Params) : Prop :=
  ∀ e db, (perform K a).exec W.db = (.error e, db) → db = W.db

/-! ## What the methods do -/

section

variable {K} {s t : Db}

theorem transaction_ok {F : Faults} {x : Call Unit} (h : (transaction F x).exec s = (.ok (), t)) :
    x.exec s = (.ok (), t) := by
  have h := atomically_ok.1 h
  simp only [exec_bind_ok, exec_attempt] at h
  obtain ⟨_, u, hbegin, _, v, hx, hcommit⟩ := h
  cases hu : F.begin <;> rw [hu] at hbegin <;> cases hbegin
  cases hv : F.commit <;> rw [hv] at hcommit <;> cases hcommit
  exact hx

theorem refuseUsed_ok {fault : Option String} {refreshToken err : String}
    (h : (refuseUsed fault refreshToken err).exec s = (.ok (), t)) :
    refreshToken ∉ s.usedRefreshToken ∧ t = s := by
  obtain ⟨used, u, hused, h⟩ := exec_bind_ok.1 h
  obtain ⟨-, rfl, rfl⟩ := query_ok.1 hused
  by_cases hmem : refreshToken ∈ u.usedRefreshToken
  · simp only [hmem, decide_true, if_true] at h
    cases h
  · simp only [hmem, decide_false, Bool.false_eq_true, if_false] at h
    cases h
    exact ⟨hmem, rfl⟩

theorem refuseToken_eq_none {id : DbId} {row : TokenRow} : refuseToken s id row = none ↔
    s.token.taken (fun r => some r.tokenId) id (some row.tokenId) = false ∧
      s.token.taken (·.currentRefreshToken) id row.currentRefreshToken = false ∧
      s.token.taken (·.code) id row.code = false := by
  unfold refuseToken
  split
  · simp [*]
  split
  · simp [*]
  split <;> simp [*]

/-- The row of a new token can be read. -/
theorem tokenRow_ok {tokenId : String} {data : TokenData Auth Params} {deviceId : Option DbId}
    {refreshToken : Option String} {row : TokenRow}
    (h : tokenRow K tokenId data deviceId refreshToken = .ok row) :
    row.currentRefreshToken = refreshToken ∧ ∃ info, rowToTokenInfo K row = .ok info := by
  obtain ⟨createdAt, -, h⟩ := except_bind_ok.1 h
  obtain ⟨updatedAt, -, h⟩ := except_bind_ok.1 h
  obtain ⟨expiresAt, -, h⟩ := except_bind_ok.1 h
  obtain ⟨auth, hauth, h⟩ := except_bind_ok.1 h
  obtain ⟨params, hparams, h⟩ := except_bind_ok.1 h
  cases h
  have hauth := K.auth_round (except_mapError_ok.1 hauth)
  have hparams := K.params_round (except_mapError_ok.1 hparams)
  refine ⟨rfl, ?_⟩
  simp only [rowToTokenInfo, rowToTokenData, fromJson, hauth, hparams]
  exact ⟨_, rfl⟩

theorem createToken_ok {F : Faults} {newId : DbId} {tokenId : String} {data : TokenData Auth Params}
    {refreshToken : Option String}
    (h : (createToken K F newId tokenId data refreshToken).exec s = (.ok (), t)) :
    ∃ row, row.currentRefreshToken = refreshToken ∧ (∃ info, rowToTokenInfo K row = .ok info) ∧
      (∀ v, refreshToken = some v → v ∉ s.usedRefreshToken) ∧ newId ∉ s.token ∧
      refuseToken s newId row = none ∧ t = { s with token := s.token.insert newId row } := by
  have h := transaction_ok h
  simp only [exec_bind_ok, exec_ofExcept, Prod.mk.injEq] at h
  obtain ⟨_, u, hused, deviceId, v, hdevice, row, w, ⟨hrow, rfl⟩, hinsert⟩ := h
  have hnew : (∀ v, refreshToken = some v → v ∉ s.usedRefreshToken) ∧ u = s := by
    cases refreshToken with
    | none =>
      cases hused
      exact ⟨nofun, rfl⟩
    | some v =>
      obtain ⟨hv, rfl⟩ := refuseUsed_ok hused
      refine ⟨fun w hw => ?_, rfl⟩
      cases hw
      exact hv
  obtain ⟨hnew, rfl⟩ := hnew
  obtain rfl := (reads_deviceDbId _ _).eq hdevice
  obtain ⟨⟨-, hrefuse⟩, rfl⟩ := (does_execute _ _ _ _ _).1 hinsert
  obtain ⟨hcurrent, hinfo⟩ := tokenRow_ok hrow
  split at hrefuse
  · cases hrefuse
  · exact ⟨row, hcurrent, hinfo, hnew, ‹_›, hrefuse, rfl⟩

/-- `used_refresh_token` with a token's current refresh token. -/
def withUsed (s : Db) (pk : DbId) (current : Option String) : Table String DbId :=
  current.elim s.usedRefreshToken (s.usedRefreshToken.insert · pk)

theorem useRefreshToken_ok {fault current : Option String} {pk : DbId}
    (h : (useRefreshToken fault pk current).exec s = (.ok (), t)) :
    (∀ v, current = some v → v ∉ s.usedRefreshToken) ∧
      t = { s with usedRefreshToken := withUsed s pk current } := by
  cases current with
  | none =>
    cases h
    exact ⟨nofun, rfl⟩
  | some v =>
    obtain ⟨⟨-, hrefuse⟩, rfl⟩ := (does_execute _ _ _ _ _).1 h
    split at hrefuse
    · cases hrefuse
    · refine ⟨fun w hw => ?_, rfl⟩
      cases hw
      assumption

theorem rotateToken_ok {F : Faults} {tokenId newTokenId newRefreshToken : String}
    {updatedAt expiresAt : UInt64}
    (h : (rotateToken F tokenId newTokenId newRefreshToken updatedAt expiresAt).exec s = (.ok (), t)) :
    ∃ pk row updated expires, s.token.one (fun _ r => r.tokenId = tokenId) = some (pk, row) ∧
      (∀ v, row.currentRefreshToken = some v → v ∉ s.usedRefreshToken) ∧
      newRefreshToken ∉ withUsed s pk row.currentRefreshToken ∧
      refuseToken s pk (setToken newTokenId newRefreshToken updated expires row) = none ∧
      t = { s with
        token := s.token.update pk (setToken newTokenId newRefreshToken updated expires)
        usedRefreshToken := withUsed s pk row.currentRefreshToken } := by
  obtain ⟨found, u, hquery, h⟩ := exec_bind_ok.1 (transaction_ok h)
  obtain ⟨-, rfl, rfl⟩ := query_ok.1 hquery
  cases hone : u.token.one fun _ r => r.tokenId = tokenId with
  | none =>
    rw [hone] at h
    cases h
  | some found =>
    obtain ⟨pk, row⟩ := found
    rw [hone] at h
    simp only [exec_bind_ok, exec_ofExcept, Prod.mk.injEq] at h
    obtain ⟨_, v, huse, _, w, hunused, updated, x, ⟨-, rfl⟩, expires, y, ⟨-, rfl⟩, hupdate⟩ := h
    obtain ⟨hcurrent, rfl⟩ := useRefreshToken_ok huse
    obtain ⟨hnew, rfl⟩ := refuseUsed_ok hunused
    obtain ⟨⟨-, hrefuse⟩, rfl⟩ := (does_execute _ _ _ _ _).1 hupdate
    exact ⟨pk, row, updated, expires, rfl, hcurrent, hnew, hrefuse, rfl⟩

/-- The tokens that a `delete_token` deletes. -/
def deleted (s : Db) (tokenId : String) (pk : DbId) : Bool :=
  pk ∈ (s.token.rows fun _ r => r.tokenId = tokenId).map Prod.fst

theorem deleted_iff {tokenId : String} {pk : DbId} {row : TokenRow}
    (h : s.token.lookup pk = some row) : deleted s tokenId pk = true ↔ row.tokenId = tokenId := by
  rw [deleted, decide_eq_true_eq, List.mem_map]
  constructor
  · rintro ⟨⟨pk', row'⟩, hm, rfl⟩
    obtain ⟨hl, hid⟩ := Table.mem_rows.1 hm
    obtain rfl := Option.some.inj (h.symm.trans hl)
    exact of_decide_eq_true hid
  · exact fun hid => ⟨(pk, row), Table.mem_rows.2 ⟨h, decide_eq_true hid⟩, rfl⟩

theorem deleteToken_ok {fault : Option String} {tokenId : String}
    (h : (deleteToken fault tokenId).exec s = (.ok (), t)) :
    t = { s with
      token := s.token.deleteWhere fun _ r => r.tokenId = tokenId
      usedRefreshToken := s.usedRefreshToken.deleteWhere fun _ pk => deleted s tokenId pk } := by
  obtain ⟨rows, u, hrows, h⟩ := exec_bind_ok.1 h
  obtain ⟨-, rfl, rfl⟩ := query_ok.1 hrows
  obtain ⟨_, v, hv, h⟩ := exec_bind_ok.1 h
  cases hv
  split at h <;> cases h
  rfl

theorem clean_deleteToken (fault : Option String) (tokenId : String) :
    Clean (deleteToken fault tokenId) := by
  intro s e t h
  rcases exec_bind_error.1 h with hfail | ⟨rows, u, hrows, h⟩
  · exact (reads_query _ _).eq hfail
  obtain ⟨-, rfl, rfl⟩ := query_ok.1 hrows
  rcases exec_bind_error.1 h with hfail | ⟨_, v, hv, h⟩
  · cases hfail
  cases hv
  cases hnil : u.token.rows fun _ r => r.tokenId = tokenId with
  | nil =>
    rw [hnil] at h
    cases h
    simp only [List.map_nil, List.not_mem_nil, decide_false]
    rw [Table.deleteWhere_eq_self (Table.rows_eq_nil.1 hnil),
      Table.deleteWhere_eq_self fun _ _ _ => rfl]
  | cons found rest =>
    rw [hnil] at h
    cases h

theorem clean_perform (a : Action Auth Params) : Clean (perform K a) := by
  cases a with
  | create => exact clean_atomically _
  | rotate => exact clean_atomically _
  | delete fault tokenId => exact clean_deleteToken fault tokenId

end

/-! ## The invariant -/

structure LedgerInv (W : World) : Prop where
  byTokenId : W.db.token.Indexed fun r => some r.tokenId
  byCurrent : W.db.token.Indexed (·.currentRefreshToken)
  read : ∀ pk row, W.db.token.lookup pk = some row → ∃ info, rowToTokenInfo K row = .ok info
  drawn : ∀ v pk, (v, pk) ∈ W.ledger.issued → pk ∈ W.ledger.drawn
  known : ∀ pk ∈ W.db.token, pk ∈ W.ledger.drawn
  used : ∀ v pk, W.db.usedRefreshToken.lookup v = some pk → pk ∈ W.db.token ∧
    ∀ pk' row, W.db.token.lookup pk' = some row → row.currentRefreshToken ≠ some v
  issued : ∀ v pk row, (v, pk) ∈ W.ledger.issued → W.db.token.lookup pk = some row →
    row.currentRefreshToken = some v ∨ W.db.usedRefreshToken.lookup v = some pk
  rotatedOut : ∀ v pk, (v, pk) ∈ W.ledger.rotatedOut → pk ∈ W.ledger.drawn ∧
    (pk ∈ W.db.token → W.db.usedRefreshToken.lookup v = some pk)

section

variable {K} {W : World}

theorem LedgerInv.find (h : LedgerInv K W) {v : String} {pk : DbId} {row : TokenRow}
    (hv : (v, pk) ∈ W.ledger.issued) (hl : W.db.token.lookup pk = some row) :
    ∃ info, rowToTokenInfo K row = .ok info ∧
      ((findTokenByRefreshToken K none none v).exec W.db).1 = .ok (some info) := by
  obtain ⟨info, hinfo⟩ := h.read pk row hl
  refine ⟨info, hinfo, ?_⟩
  have hfound : (match W.db.usedRefreshToken.lookup v with
      | some pk => W.db.token.lookup pk
      | none => (W.db.token.one fun _ r => r.currentRefreshToken = some v).map Prod.snd) =
      some row := by
    rcases h.issued v pk row hv hl with hcurrent | hused
    · cases hl' : W.db.usedRefreshToken.lookup v with
      | some pk' => exact absurd hcurrent ((h.used v pk' hl').2 pk row hl)
      | none =>
        rw [(Table.one_eq_some_iff h.byCurrent fun _ r => decide_eq_true_iff).2 ⟨hl, hcurrent⟩]
        rfl
    · rw [hused]
      exact hl
  simp only [findTokenByRefreshToken, exec_bind, exec_query, Option.elim, hfound, exec_ofExcept,
    hinfo]
  rfl

theorem LedgerInv.resolves (h : LedgerInv K W) : Resolves K W where
  find v pk row hv hl := h.find hv hl
  only v pk pk' row hv hl hv' hmem := by
    obtain ⟨row', hl'⟩ := Finmap.mem_iff.1 hmem
    rcases h.issued v pk row hv hl with hc | hu <;> rcases h.issued v pk' row' hv' hl' with hc' | hu'
    · exact h.byCurrent pk' pk row' row v hl' hl hc' hc
    · exact absurd hc ((h.used v pk' hu').2 pk row hl)
    · exact absurd hc' ((h.used v pk hu).2 pk' row' hl')
    · exact Option.some.inj (hu'.symm.trans hu)
  current v pk pk' row row' hl hl' hc hc' := h.byCurrent pk pk' row row' v hl hl' hc hc'
  rotatedOut v pk hv hmem := (h.used v pk ((h.rotatedOut v pk hv).2 hmem)).2

theorem LedgerInv.create (h : LedgerInv K W) {newId : DbId} {row : TokenRow}
    (hinfo : ∃ info, rowToTokenInfo K row = .ok info)
    (hunused : ∀ v, row.currentRefreshToken = some v → v ∉ W.db.usedRefreshToken)
    (hfresh : newId ∉ W.ledger.drawn) (hrefuse : refuseToken W.db newId row = none) :
    LedgerInv K ⟨{ W.db with token := W.db.token.insert newId row },
      { W.ledger with
        issued := row.currentRefreshToken.elim W.ledger.issued fun v =>
          insert (v, newId) W.ledger.issued
        drawn := insert newId W.ledger.drawn }⟩ := by
  obtain ⟨hid, hcurrent, -⟩ := refuseToken_eq_none.1 hrefuse
  have hother : ∀ pk ∈ W.ledger.drawn, pk ≠ newId := fun pk hpk he => hfresh (he ▸ hpk)
  have hkeep : ∀ pk ∈ W.ledger.drawn, (W.db.token.insert newId row).lookup pk = W.db.token.lookup pk :=
    fun pk hpk => (Table.lookup_insert_eq _ _ _ _).trans (if_neg (hother pk hpk))
  have hissued : ∀ v pk, (v, pk) ∈ (row.currentRefreshToken.elim W.ledger.issued fun v =>
      insert (v, newId) W.ledger.issued) →
      (v, pk) ∈ W.ledger.issued ∨ row.currentRefreshToken = some v ∧ pk = newId := by
    intro v pk hv
    cases hc : row.currentRefreshToken with
    | none =>
      rw [hc] at hv
      exact .inl hv
    | some w =>
      rw [hc] at hv
      rcases Finset.mem_insert.1 hv with he | hv
      · cases he
        exact .inr ⟨rfl, rfl⟩
      · exact .inl hv
  refine ⟨h.byTokenId.insert hid, h.byCurrent.insert hcurrent, fun pk r hl => ?_, fun v pk hv => ?_,
    fun pk hpk => ?_, fun v pk hv => ?_, fun v pk r hv hl => ?_, fun v pk hv => ?_⟩
  · rcases Table.lookup_insert_eq_some.1 hl with ⟨-, rfl⟩ | ⟨-, hl⟩
    · exact hinfo
    · exact h.read pk r hl
  · rcases hissued v pk hv with hv | ⟨-, rfl⟩
    · exact Finset.mem_insert_of_mem (h.drawn v pk hv)
    · exact Finset.mem_insert_self _ _
  · rcases Finmap.mem_insert.1 hpk with rfl | hpk
    · exact Finset.mem_insert_self _ _
    · exact Finset.mem_insert_of_mem (h.known pk hpk)
  · obtain ⟨hmem, hnot⟩ := h.used v pk hv
    refine ⟨Finmap.mem_insert.2 (.inr hmem), fun pk' r hl => ?_⟩
    rcases Table.lookup_insert_eq_some.1 hl with ⟨-, rfl⟩ | ⟨-, hl⟩
    · exact fun hc => hunused v hc (Finmap.mem_of_lookup_eq_some hv)
    · exact hnot pk' r hl
  · rcases hissued v pk hv with hv | ⟨hc, rfl⟩
    · rw [hkeep pk (h.drawn v pk hv)] at hl
      exact h.issued v pk r hv hl
    · rw [Table.lookup_insert_eq, if_pos rfl] at hl
      cases hl
      exact .inl hc
  · obtain ⟨hdrawn, hused⟩ := h.rotatedOut v pk hv
    refine ⟨Finset.mem_insert_of_mem hdrawn, fun hmem => hused ?_⟩
    exact (Finmap.mem_insert.1 hmem).resolve_left (hother pk hdrawn)

theorem LedgerInv.rotate (h : LedgerInv K W) {pk : DbId} {row : TokenRow}
    {newTokenId newRefreshToken : String} {updated expires : Int}
    (hl : W.db.token.lookup pk = some row)
    (hunused : ∀ v, row.currentRefreshToken = some v → v ∉ W.db.usedRefreshToken)
    (hnew : newRefreshToken ∉ withUsed W.db pk row.currentRefreshToken)
    (hrefuse : refuseToken W.db pk (setToken newTokenId newRefreshToken updated expires row) = none) :
    LedgerInv K ⟨{ W.db with
        token := W.db.token.update pk (setToken newTokenId newRefreshToken updated expires)
        usedRefreshToken := withUsed W.db pk row.currentRefreshToken },
      { W.ledger with
        issued := insert (newRefreshToken, pk) W.ledger.issued
        rotatedOut := row.currentRefreshToken.elim W.ledger.rotatedOut fun v =>
          insert (v, pk) W.ledger.rotatedOut }⟩ := by
  obtain ⟨hid, hcurrent, -⟩ := refuseToken_eq_none.1 hrefuse
  have hself : ∀ r, W.db.token.lookup pk = some r → r = row :=
    fun r hr => (Option.some.inj (hl.symm.trans hr)).symm
  -- what has become used
  have hused : ∀ v pk', (withUsed W.db pk row.currentRefreshToken).lookup v = some pk' ↔
      row.currentRefreshToken = some v ∧ pk' = pk ∨ W.db.usedRefreshToken.lookup v = some pk' := by
    intro v pk'
    cases hc : row.currentRefreshToken with
    | none => simp [withUsed]
    | some w =>
      have hw := Finmap.lookup_eq_none.2 (hunused w hc)
      simp only [withUsed, Option.elim, Table.lookup_insert_eq, Option.some.injEq]
      split
      · subst_vars
        simp [hw, eq_comm]
      · simp [Ne.symm ‹_›]
  have hlookup : ∀ j, (W.db.token.update pk (setToken newTokenId newRefreshToken updated expires)).lookup
      j = if j = pk then some (setToken newTokenId newRefreshToken updated expires row)
        else W.db.token.lookup j := by
    intro j
    rw [Table.lookup_update]
    split
    · subst_vars
      rw [hl]
      rfl
    · rfl
  have hmem : ∀ j, j ∈ W.db.token.update pk (setToken newTokenId newRefreshToken updated expires) ↔
      j ∈ W.db.token := by
    intro j
    rw [← Finmap.lookup_isSome, hlookup, ← Finmap.lookup_isSome]
    split
    · subst_vars
      rw [hl]
      rfl
    · rfl
  refine ⟨h.byTokenId.update fun r hr => ?_, h.byCurrent.update fun r hr => ?_, fun j r hj => ?_,
    fun v j hv => ?_, fun j hj => h.known j ((hmem j).1 hj), fun v j hv => ?_, fun v j r hv hj => ?_,
    fun v j hv => ?_⟩
  · rw [hself r hr]
    exact hid
  · rw [hself r hr]
    exact hcurrent
  · rw [hlookup] at hj
    split at hj
    · cases hj
      obtain ⟨info, hinfo⟩ := h.read pk row hl
      obtain ⟨data, hdata, -⟩ := except_bind_ok.1 hinfo
      obtain ⟨auth, hauth, hdata⟩ := except_bind_ok.1 hdata
      obtain ⟨params, hparams, -⟩ := except_bind_ok.1 hdata
      simp only [rowToTokenInfo, rowToTokenData, setToken, hauth, hparams]
      exact ⟨_, rfl⟩
    · exact h.read j r hj
  · rcases Finset.mem_insert.1 hv with he | hv
    · cases he
      exact h.known pk (Finmap.mem_of_lookup_eq_some hl)
    · exact h.drawn v j hv
  · have hvnew : v ≠ newRefreshToken := fun he => hnew (he ▸ Finmap.mem_of_lookup_eq_some hv)
    have hothers : j ∈ W.db.token ∧ ∀ j' r, j' ≠ pk → W.db.token.lookup j' = some r →
        r.currentRefreshToken ≠ some v := by
      rcases (hused v j).1 hv with ⟨hc, rfl⟩ | hv
      · refine ⟨Finmap.mem_of_lookup_eq_some hl, fun j' r hne hj' hr => hne ?_⟩
        exact h.byCurrent j' j r row v hj' hl hr hc
      · exact ⟨(h.used v j hv).1, fun j' r _ hj' => (h.used v j hv).2 j' r hj'⟩
    refine ⟨(hmem j).2 hothers.1, fun j' r hj' => ?_⟩
    rw [hlookup] at hj'
    split at hj'
    · cases hj'
      exact fun hc => hvnew (Option.some.inj hc).symm
    · exact hothers.2 j' r ‹_› hj'
  · rcases Finset.mem_insert.1 hv with he | hold
    · cases he
      rw [hlookup, if_pos rfl] at hj
      cases hj
      exact .inl rfl
    · rw [hlookup] at hj
      split at hj
      · rename_i hjk
        rw [hjk] at hold ⊢
        refine .inr ((hused v pk).2 ?_)
        exact (h.issued v pk row hold hl).imp_left fun hc => ⟨hc, rfl⟩
      · exact (h.issued v j r hold hj).imp_right fun hu => (hused v j).2 (.inr hu)
  · have hcase : (v, j) ∈ W.ledger.rotatedOut ∨ row.currentRefreshToken = some v ∧ j = pk := by
      cases hc : row.currentRefreshToken with
      | none =>
        rw [hc] at hv
        exact .inl hv
      | some w =>
        rw [hc] at hv
        rcases Finset.mem_insert.1 hv with he | hv
        · cases he
          exact .inr ⟨rfl, rfl⟩
        · exact .inl hv
    rcases hcase with hv | ⟨hc, rfl⟩
    · obtain ⟨hdrawn, hout⟩ := h.rotatedOut v j hv
      exact ⟨hdrawn, fun hj => (hused v j).2 (.inr (hout ((hmem j).1 hj)))⟩
    · exact ⟨h.known j (Finmap.mem_of_lookup_eq_some hl), fun _ => (hused v j).2 (.inl ⟨hc, rfl⟩)⟩

theorem LedgerInv.delete (h : LedgerInv K W) (tokenId : String) :
    LedgerInv K { W with db := { W.db with
      token := W.db.token.deleteWhere fun _ r => r.tokenId = tokenId
      usedRefreshToken := W.db.usedRefreshToken.deleteWhere fun _ pk => deleted W.db tokenId pk } } := by
  have hrow : ∀ pk r, (W.db.token.deleteWhere fun _ r => r.tokenId = tokenId).lookup pk = some r →
      W.db.token.lookup pk = some r ∧ deleted W.db tokenId pk = false := by
    intro pk r hl
    obtain ⟨hl, hstays⟩ := Table.lookup_deleteWhere_eq_some.1 hl
    refine ⟨hl, eq_false_of_ne_true fun hd => ?_⟩
    exact of_decide_eq_false hstays ((deleted_iff hl).1 hd)
  have hstays : ∀ v pk, pk ∈ (W.db.token.deleteWhere fun _ r => r.tokenId = tokenId) →
      W.db.usedRefreshToken.lookup v = some pk →
      (W.db.usedRefreshToken.deleteWhere fun _ pk => deleted W.db tokenId pk).lookup v = some pk := by
    intro v pk hmem hu
    obtain ⟨r, hl⟩ := Finmap.mem_iff.1 hmem
    exact Table.lookup_deleteWhere_eq_some.2 ⟨hu, (hrow pk r hl).2⟩
  have hmem : ∀ pk ∈ (W.db.token.deleteWhere fun _ r => r.tokenId = tokenId), pk ∈ W.db.token := by
    intro pk hpk
    obtain ⟨r, hl⟩ := Finmap.mem_iff.1 hpk
    exact Finmap.mem_of_lookup_eq_some (hrow pk r hl).1
  refine ⟨h.byTokenId.deleteWhere _, h.byCurrent.deleteWhere _, fun pk r hl => h.read pk r (hrow pk r hl).1,
    h.drawn, fun pk hpk => h.known pk (hmem pk hpk), fun v pk hv => ?_, fun v pk r hv hl => ?_,
    fun v pk hv => ?_⟩
  · obtain ⟨hu, hd⟩ := Table.lookup_deleteWhere_eq_some.1 hv
    obtain ⟨hpk, hnot⟩ := h.used v pk hu
    obtain ⟨r, hl⟩ := Finmap.mem_iff.1 hpk
    refine ⟨Finmap.mem_of_lookup_eq_some (Table.lookup_deleteWhere_eq_some.2 ⟨hl, ?_⟩),
      fun pk' r' hl' => hnot pk' r' (hrow pk' r' hl').1⟩
    refine decide_eq_false fun hid => ?_
    rw [(deleted_iff hl).2 hid] at hd
    cases hd
  · refine (h.issued v pk r hv (hrow pk r hl).1).imp_right fun hu => ?_
    exact hstays v pk (Finmap.mem_of_lookup_eq_some hl) hu
  · obtain ⟨hdrawn, hout⟩ := h.rotatedOut v pk hv
    exact ⟨hdrawn, fun hpk => hstays v pk hpk (hout (hmem pk hpk))⟩

end

theorem ledgerInv_step (W : World) (a : Action Auth Params) (W' : World) (h : LedgerInv K W)
    (hstep : step K W a = some W') : LedgerInv K W' := by
  unfold step at hstep
  split at hstep
  · rename_i hfresh
    split at hstep <;> cases hstep
    · rename_i db hx
      cases a with
      | create F newId tokenId data refreshToken =>
        obtain ⟨row, rfl, hinfo, hunused, -, hrefuse, rfl⟩ := createToken_ok hx
        exact h.create hinfo hunused (of_decide_eq_true hfresh) hrefuse
      | rotate F tokenId newTokenId newRefreshToken updatedAt expiresAt =>
        obtain ⟨pk, row, updated, expires, hone, hunused, hnew, hrefuse, rfl⟩ := rotateToken_ok hx
        have hl := (Table.mem_of_one hone).1
        simp only [Ledger.after, hone]
        exact h.rotate hl hunused hnew hrefuse
      | delete fault tokenId =>
        obtain rfl := deleteToken_ok hx
        exact h.delete tokenId
    · rename_i e db hx
      obtain rfl := clean_perform a _ _ _ hx
      exact h
  · cases hstep

theorem ledgerInv_start (db : Db) : LedgerInv K (World.start db) where
  byTokenId := Table.indexed_empty
  byCurrent := Table.indexed_empty
  read _ _ h := by cases h
  drawn _ _ h := absurd h (Finset.notMem_empty _)
  known _ h := by cases h
  used _ _ h := by cases h
  issued _ _ _ h := absurd h (Finset.notMem_empty _)
  rotatedOut _ _ h := absurd h (Finset.notMem_empty _)

/-- In every run the refresh tokens resolve, and what fails changes nothing. -/
theorem refreshTokens_resolve (db : Db) (as : List (Action Auth Params)) :
    Always (step K) (Resolves K) (World.start db) as ∧
      Along (step K) (FailsClean K) (World.start db) as := by
  have hinv : Always (step K) (LedgerInv K) (World.start db) as :=
    always_of_keep (ledgerInv_step K) (ledgerInv_start K db) as
  have hclean : ∀ W a, FailsClean K W a := fun W a e db hx => clean_perform a _ _ _ hx
  exact ⟨hinv.mono fun W h => h.resolves, along_of_forall hclean _ as⟩

/-- A refresh token that has been rotated out is no token's current one. -/
def NeverAgain (W : World) : Prop :=
  ∀ v pk, (v, pk) ∈ W.ledger.rotatedOut → ∀ pk' row, W.db.token.lookup pk' = some row →
    row.currentRefreshToken ≠ some v

def noFaults : Faults := ⟨none, none, none, none, none, none, none⟩

def aliceToken : TokenData String String :=
  ⟨1790000000, 1790000000, 1790003600, "https://a.test", "none", none, "did:plc:alice", "atproto",
    none⟩

/-- A token is rotated and deleted; its first refresh token is then given to another token. -/
theorem rotatedOut_current_again :
    ¬ ∀ (K : Codec String String) db as, Always (step K) NeverAgain (World.start db) as := by
  intro h
  have hrun : (run (step plainCodec) (World.start Db.empty)
      [.create noFaults ⟨1, by decide⟩ "tok-1" aliceToken (some "ref-1"),
        .rotate noFaults "tok-1" "tok-2" "ref-2" 1790000100 1790003700, .delete none "tok-2",
        .create noFaults ⟨2, by decide⟩ "tok-3" aliceToken (some "ref-1")]).map
      (fun W => (decide (("ref-1", ⟨1, by decide⟩) ∈ W.ledger.rotatedOut),
        (W.db.token.lookup ⟨2, by decide⟩).map TokenRow.currentRefreshToken)) =
      some (true, some (some "ref-1")) := by decide +kernel
  obtain ⟨W, hW, hlast⟩ := Option.map_eq_some_iff.1 hrun
  obtain ⟨hout, hcurrent⟩ := Prod.mk.inj hlast
  obtain ⟨row, hl, hcurrent⟩ := Option.map_eq_some_iff.1 hcurrent
  exact (h _ _ _).last hW _ _ (of_decide_eq_true hout) _ row hl hcurrent

end CacosPds.Account.Oauth.Tokens
