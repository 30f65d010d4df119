import CacosPds.Account.OauthRequests
import CacosPds.Oauth.ConsentState
/-!
# The remote handlers and the request they work on (`cacos-pds-oauth/src/remote.rs`)

| here | there |
| --- | --- |
| `Action.authorize` | `oauth_authorize` (`routes.rs:326-367`), once it has a URL and a request id |
| `Handler`, `advance` | `request`, `sign_in`, `select_account`, `accept`, `reject`, `create_account` (`remote.rs:307-529`), statement by statement |
| `checkRequest`   | `read_request_data` (`:178-211`) between its two accesses |
| `Pc.select`, `Pc.update` | `update_request` (`oauth_store.rs:234-255`): the row's key is read first |
| `Pc.provide`     | the calls of the provider and of `RemoteCreateAccount`; what they write of the request is `Action.provide` |
| `Action.par`, `Action.consume` | `create_request` for a pushed request, which names no device; `consume_request_code` |
| `Library`        | **external boundary**: `is_authorized`, `is_expired` and the timeout of `rsky_oauth` |

Nothing but the nonce guards the request between the two accesses of `read_request_data`. A handler
that has rotated it is the only one to know it until it answers (`Keyed`), and a handler that has seen
the row bound to its device finds it so (`Bound`).
-/
namespace CacosPds.Oauth

open Stages Runs Sql ConsentState
open Account.Oauth (RequestData AuthorizationRequestRow Db Codec rowToRequestData requestColumns
  setRequest insertRequest consumeRequestCode deviceDbId)

structure Library (Auth Params : Type) where
  codec : Codec Auth Params
  clock : Clock
  isAuthorized : RequestData Auth Params → Bool
  isExpired : RequestData Auth Params → UInt64 → Bool
  /-- `AUTHORIZATION_INACTIVITY_TIMEOUT`. -/
  inactivityTimeout : UInt64

inductive Endpoint where
  | request | signIn | selectAccount | accept | reject | createAccount
  deriving DecidableEq

/-- The two that answer with a redirect, and delete the nonce before. -/
def Endpoint.redirects : Endpoint → Bool
  | .accept | .reject => true
  | .request | .signIn | .selectAccount | .createAccount => false

/-- What a handler is to do next. -/
inductive Pc (Auth Params : Type) where
  | rotate
  | read
  /-- No row has the id, and the id is the text of a surrogate key. -/
  | readByKey (dbid : DbId)
  | select (data : RequestData Auth Params)
  | update (data : RequestData Auth Params) (pk : DbId)
  | provide
  | delete
  /-- A page with the fresh nonce, or an error. -/
  | answer (page : Bool)
  /-- The nonce is not accepted. -/
  | refuse
  /-- The nonce is deleted. -/
  | redirect
  | answered

structure Handler (Auth Params : Type) where
  endpoint : Endpoint
  rqid : String
  /-- The nonce that comes with the call. -/
  state : String
  deviceId : String
  /-- `now_secs()`. -/
  now : UInt64
  /-- What `rotate` returns. -/
  fresh : String
  pc : Pc Auth Params

structure World (Auth Params : Type) where
  consentState : Rows
  requests : Db
  handlers : List (Handler Auth Params)
  /-- The nonces in the answers so far. -/
  handed : List String
  /-- What `create`, `rotate` and `delete` have done. -/
  log : List ConsentState.Event
  /-- The surrogate keys drawn so far. -/
  drawn : Finset DbId

/-- What is drawn, read off the clock or failed in a step. -/
structure Choice where
  fault : Option String
  device : Option String
  now : String
  fresh : String
  /-- The provider's call goes through. -/
  ok : Bool

inductive Action (Auth Params : Type) where
  | authorize (requestId now nonce : String) (fault : Option String)
  | start (endpoint : Endpoint) (rqid state deviceId : String) (now : UInt64)
  | advance (i : Nat) (c : Choice)
  /-- The provider updates the handler's request. -/
  | provide (i : Nat) (pk : DbId) (row : AuthorizationRequestRow)
  | provideDelete (i : Nat)
  | par (newId : DbId) (row : AuthorizationRequestRow) (fault : Option String)
  | consume (code : String) (fault : Option String)
  /-- The other tables change. -/
  | other (device : Table DbId String) (token : Table DbId Account.Oauth.TokenRow)
      (usedRefreshToken : Table String DbId)

variable {Auth Params : Type}

/-! ## One handler -/

inductive OAuthError where
  | invalidRequest (what : String)
  | invalidGrant (what : String)
  | store (e : Account.Oauth.StoreError)

def bindDevice (deviceId : String) (data : RequestData Auth Params) :
    Except OAuthError (RequestData Auth Params) :=
  match data.deviceId with
  | none => .ok { data with deviceId := some deviceId }
  | some bound => if bound ≠ deviceId then .error (.invalidGrant "another device") else .ok data

section

variable (L : Library Auth Params)

def checkRequest (deviceId : String) (now : UInt64) :
    Option AuthorizationRequestRow → Except OAuthError (RequestData Auth Params)
  | none => .error (.invalidRequest "unknown request_uri")
  | some row => do
    let data ← (rowToRequestData L.codec row).mapError .store
    if L.isAuthorized data then .error (.invalidGrant "already authorized")
    else if L.isExpired data now then .error (.invalidGrant "expired")
    else do
      let data ← bindDevice deviceId data
      return { data with expiresAt := now + L.inactivityTimeout }

/-- The end of `update_request`, on the row that it has selected. -/
def updateRow (device fault : Option String) (pk : DbId) (data : RequestData Auth Params) :
    Account.Oauth.Call Unit := do
  let deviceId ← deviceDbId device data.deviceId
  let columns ← ofExcept (requestColumns L.codec data)
  Account.Oauth.execute fault
    (fun s =>
      if pk ∉ s.authorizationRequest then some (.database "None of the records are updated")
      else if s.authorizationRequest.taken (·.code) pk data.code then
        some (.unique "authorization_request_code_idx")
      else none)
    fun s => { s with
      authorizationRequest := s.authorizationRequest.update pk (setRequest data deviceId columns) }

/-- What comes after the row is read. -/
def Handler.afterRead (h : Handler Auth Params) (row : Option AuthorizationRequestRow) :
    Pc Auth Params :=
  match checkRequest L h.deviceId h.now row with
  | .ok data => .select data
  | .error _ => .answer false

/-- `SELECT … WHERE requestId = …`. -/
def byRequestId (rqid : String) (s : Db) : Option (DbId × AuthorizationRequestRow) :=
  s.authorizationRequest.one fun _ r => r.requestId = rqid

def World.set (W : World Auth Params) (i : Nat) (h : Handler Auth Params) : World Auth Params :=
  { W with handlers := W.handlers.set i h }

def advance (W : World Auth Params) (i : Nat) (h : Handler Auth Params) (c : Choice) :
    Option (World Auth Params) :=
  match h.pc with
  | .rotate =>
    match (rotate L.clock c.fault c.now c.fresh h.rqid h.state).exec W.consentState with
    | (.ok fresh, rows) =>
      some ({ W with
        consentState := rows
        log := W.log ++ [OneTime.Event.spend h.rqid h.state c.fresh c.now] }.set i
          { h with fresh, pc := .read })
    | (.error _, rows) => some ({ W with consentState := rows }.set i { h with pc := .refuse })
  | .read =>
    match c.fault, byRequestId h.rqid W.requests, L.codec.fromStr h.rqid with
    | some _, _, _ => some (W.set i { h with pc := .answer false })
    | none, some (_, row), _ => some (W.set i { h with pc := h.afterRead L (some row) })
    | none, none, some dbid => some (W.set i { h with pc := .readByKey dbid })
    | none, none, none => some (W.set i { h with pc := h.afterRead L none })
  | .readByKey dbid =>
    match c.fault with
    | some _ => some (W.set i { h with pc := .answer false })
    | none =>
      some (W.set i { h with pc := h.afterRead L (W.requests.authorizationRequest.lookup dbid) })
  | .select data =>
    match c.fault, byRequestId h.rqid W.requests with
    | none, some (pk, _) => some (W.set i { h with pc := .update data pk })
    | _, _ => some (W.set i { h with pc := .answer false })
  | .update data pk =>
    match (updateRow L c.device c.fault pk data).exec W.requests with
    | (.ok _, requests) => some ({ W with requests }.set i { h with pc := .provide })
    | (.error _, requests) => some ({ W with requests }.set i { h with pc := .answer false })
  | .provide =>
    if c.ok then
      some (W.set i { h with pc := if h.endpoint.redirects then .delete else .answer true })
    else some (W.set i { h with pc := .answer false })
  | .delete =>
    -- an error of the deletion is ignored: the nonce is left, and nobody gets it
    match (delete c.fault h.rqid).exec W.consentState with
    | (.ok _, rows) =>
      some ({ W with consentState := rows, log := W.log ++ [OneTime.Event.drop h.rqid] }.set i
        { h with pc := .redirect })
    | (.error _, rows) => some ({ W with consentState := rows }.set i { h with pc := .answer false })
  | .answer page =>
    some ({ W with handed := W.handed ++ if page then [h.fresh] else [] }.set i
      { h with pc := .answered })
  | .refuse | .redirect => some (W.set i { h with pc := .answered })
  | .answered => none

/-! ## The system -/

def step (W : World Auth Params) : Action Auth Params → Option (World Auth Params)
  | .authorize requestId now nonce fault =>
    match (create L.clock fault now nonce requestId).exec W.consentState with
    | (.ok state, rows) =>
      some { W with
        consentState := rows
        log := W.log ++ [.create requestId nonce now]
        handed := W.handed ++ [state] }
    | (.error _, rows) => some { W with consentState := rows }
  | .start endpoint rqid state deviceId now =>
    some { W with handlers := W.handlers ++ [⟨endpoint, rqid, state, deviceId, now, "", .rotate⟩] }
  | .advance i c => W.handlers[i]?.bind fun h => advance L W i h c
  | .provide i pk row =>
    match W.handlers[i]?, W.requests.authorizationRequest.lookup pk with
    | some ⟨_, rqid, _, _, _, _, .provide⟩, some old =>
      if old.requestId = rqid ∧ row.requestId = rqid then
        some { W with requests := { W.requests with
          authorizationRequest := W.requests.authorizationRequest.insert pk row } }
      else none
    | _, _ => none
  | .provideDelete i =>
    match W.handlers[i]? with
    | some ⟨_, rqid, _, _, _, _, .provide⟩ =>
      some { W with requests := { W.requests with
        authorizationRequest :=
          W.requests.authorizationRequest.deleteWhere fun _ r => r.requestId = rqid } }
    | _ => none
  | .par newId row fault =>
    some { W with
      requests := ((insertRequest fault newId
        { row with deviceId := none, externalDeviceId := none }).exec W.requests).2
      drawn := insert newId W.drawn }
  | .consume code fault =>
    some { W with requests := ((consumeRequestCode L.codec fault code).exec W.requests).2 }
  | .other device token usedRefreshToken =>
    some { W with requests := { W.requests with device, token, usedRefreshToken } }

end

/-! ## The law -/

/-- The handler that an action is a step of. -/
def Action.handler (W : World Auth Params) : Action Auth Params → Option (Handler Auth Params)
  | .advance i _ | .provide i _ _ | .provideDelete i => W.handlers[i]?
  | _ => none

/-- Between its rotation and its answer, with the nonce not deleted: the nonce is the handler's. -/
def Handler.holding (h : Handler Auth Params) : Option String :=
  match h.pc with
  | .rotate | .refuse | .redirect | .answered => none
  | _ => some h.fresh

/-- What is promised of the nonces and the handlers. -/
structure Lawful (C : Clock) (W : World Auth Params) : Prop where
  /-- A nonce is accepted once. -/
  once : (OneTime.spent W.log).Nodup
  /-- It has been issued for that request, less than 300 s ago. -/
  own : ∀ es fs rqid n m t, W.log = es ++ .spend rqid n m t :: fs →
    ∃ e ∈ es, e.key = rqid ∧ ∃ t₀, e.issue = some (n, t₀) ∧ Within C t₀ t
  /-- The rotations of a request are a chain, up to a deletion. -/
  chain : ∀ es fs gs rqid n m t n' m' t',
    W.log = es ++ .spend rqid n m t :: (fs ++ .spend rqid n' m' t' :: gs) →
      (∀ e ∈ fs, ¬ e.Ends rqid) → n' = m
  /-- One handler at most holds the nonce of a request. -/
  alone : ∀ (i j : Nat) (h k : Handler Auth Params), W.handlers[i]? = some h → W.handlers[j]? = some k →
    h.holding.isSome → k.holding.isSome → h.rqid = k.rqid → i = j

/-- The step leaves a request that is bound to a device with it, and as it is unless the step is of a
handler that names the device. -/
def OwnDevice (L : Library Auth Params) (W : World Auth Params) (a : Action Auth Params) : Prop :=
  ∀ V, step L W a = some V → ∀ pk row d, W.requests.authorizationRequest.lookup pk = some row →
    row.externalDeviceId = some d →
      (∀ h, a.handler W = some h → V.requests.authorizationRequest.lookup pk ≠ some row →
        h.deviceId = d) ∧
      ∀ row', V.requests.authorizationRequest.lookup pk = some row' → row'.externalDeviceId = some d

/-- Nothing has happened yet. -/
structure Initial (W : World Auth Params) : Prop where
  consentState : W.consentState = ∅
  handlers : W.handlers = []
  handed : W.handed = []
  log : W.log = []
  unique : W.requests.authorizationRequest.Indexed fun r => some r.requestId
  drawn : ∀ pk ∈ W.requests.authorizationRequest, pk ∈ W.drawn

/-- What the steps may rely on: no nonce and no surrogate key is drawn twice, the times are of the
clock, callers send only nonces they have been handed, and the provider writes the device that it is
given. -/
def Assumed (times : Set String) (W : World Auth Params) : Action Auth Params → Prop
  | .authorize _ now nonce _ => now ∈ times ∧ nonce ∉ OneTime.issued W.log
  | .start _ _ state _ _ => state ∈ W.handed
  | .advance _ c => c.now ∈ times ∧ c.fresh ∉ OneTime.issued W.log
  | .provide i _ row => ∀ h ∈ W.handlers[i]?, row.externalDeviceId = some h.deviceId
  | .par newId _ _ => newId ∉ W.drawn
  | .provideDelete _ | .consume _ _ | .other _ _ _ => True

/-! ## What a handler does -/

section

variable {L : Library Auth Params} {W V : World Auth Params} {i : Nat} {h h' : Handler Auth Params}
  {c : Choice}

/-- The steps of a handler: what becomes of it, and of the world without the handlers. -/
inductive Effect (L : Library Auth Params) (W : World Auth Params) (h : Handler Auth Params)
    (c : Choice) : Handler Auth Params → World Auth Params → Prop where
  | rotated {fresh rows} : h.pc = .rotate →
      (rotate L.clock c.fault c.now c.fresh h.rqid h.state).exec W.consentState = (.ok fresh, rows) →
      Effect L W h c { h with fresh, pc := .read } { W with
        consentState := rows
        log := W.log ++ [OneTime.Event.spend h.rqid h.state c.fresh c.now] }
  | refused : h.pc = .rotate → Effect L W h c { h with pc := .refuse } W
  | found {pk row} : h.pc = .read → byRequestId h.rqid W.requests = some (pk, row) →
      Effect L W h c { h with pc := h.afterRead L (some row) } W
  | missed {dbid} : h.pc = .read → byRequestId h.rqid W.requests = none →
      Effect L W h c { h with pc := .readByKey dbid } W
  | readByKey {dbid row} : h.pc = .readByKey dbid →
      Effect L W h c { h with pc := h.afterRead L row } W
  | selected {data pk row} : h.pc = .select data → byRequestId h.rqid W.requests = some (pk, row) →
      Effect L W h c { h with pc := .update data pk } W
  | updated {data pk requests} : h.pc = .update data pk →
      (updateRow L c.device c.fault pk data).exec W.requests = (.ok (), requests) →
      Effect L W h c { h with pc := .provide } { W with requests }
  /-- The end comes into sight. -/
  | ends {pc} : h.holding.isSome → pc = .delete ∨ (∃ page, pc = .answer page) →
      Effect L W h c { h with pc } W
  | deleted {rows} : h.pc = .delete →
      (delete c.fault h.rqid).exec W.consentState = (.ok (), rows) →
      Effect L W h c { h with pc := .redirect }
        { W with consentState := rows, log := W.log ++ [OneTime.Event.drop h.rqid] }
  | answered {page} : h.pc = .answer page →
      Effect L W h c { h with pc := .answered }
        { W with handed := W.handed ++ if page then [h.fresh] else [] }
  | redirected : h.pc = .refuse ∨ h.pc = .redirect → Effect L W h c { h with pc := .answered } W

/-- An error of these statements leaves the rows as they are. -/
theorem clean_updateRow (L : Library Auth Params) (device fault : Option String) (pk : DbId)
    (data : RequestData Auth Params) : Clean (updateRow L device fault pk data) :=
  (Account.Oauth.reads_deviceDbId _ _).bind_clean fun _ =>
    (reads_ofExcept _).bind_clean fun _ => Account.Oauth.clean_execute _ _ _

/-- **What a step of a handler can do.** -/
theorem effect_of_advance (hadv : advance L W i h c = some V) :
    ∃ h' U, Effect L W h c h' U ∧ V = U.set i h' ∧ U.handlers = W.handlers := by
  have hends : ∀ pc, h.holding.isSome → pc = .delete ∨ (∃ page, pc = .answer page) →
      ∃ h' U, Effect L W h c h' U ∧ W.set i { h with pc } = U.set i h' ∧ U.handlers = W.handlers :=
    fun pc hh hpc => ⟨_, W, .ends hh hpc, rfl, rfl⟩
  have hfails : h.holding.isSome → W.set i { h with pc := .answer false } = V →
      ∃ h' U, Effect L W h c h' U ∧ V = U.set i h' ∧ U.handlers = W.handlers := by
    rintro hh rfl
    exact hends _ hh (.inr ⟨false, rfl⟩)
  unfold advance at hadv
  cases hpc : h.pc with
  | rotate =>
    rw [hpc] at hadv
    dsimp only at hadv
    split at hadv
    · rename_i fresh rows hrotate
      cases hadv
      exact ⟨_, _, .rotated hpc hrotate, rfl, rfl⟩
    · rename_i e rows hrotate
      obtain rfl := rotate_error hrotate
      cases hadv
      exact ⟨_, W, .refused hpc, rfl, rfl⟩
  | read =>
    rw [hpc] at hadv
    dsimp only at hadv
    have hh : h.holding.isSome := by rw [Handler.holding, hpc]; rfl
    split at hadv
    · exact hfails hh (Option.some.inj hadv)
    · rename_i pk row _ hone
      cases hadv
      exact ⟨_, W, .found hpc hone, rfl, rfl⟩
    · rename_i dbid _ hone _
      cases hadv
      exact ⟨_, W, .missed hpc hone, rfl, rfl⟩
    · exact hfails hh (Option.some.inj hadv)
  | readByKey dbid =>
    rw [hpc] at hadv
    dsimp only at hadv
    have hh : h.holding.isSome := by rw [Handler.holding, hpc]; rfl
    split at hadv
    · exact hfails hh (Option.some.inj hadv)
    · cases hadv
      exact ⟨_, W, .readByKey hpc, rfl, rfl⟩
  | select data =>
    rw [hpc] at hadv
    dsimp only at hadv
    have hh : h.holding.isSome := by rw [Handler.holding, hpc]; rfl
    split at hadv
    · rename_i pk row _ hone
      cases hadv
      exact ⟨_, W, .selected hpc hone, rfl, rfl⟩
    · exact hfails hh (Option.some.inj hadv)
  | update data pk =>
    rw [hpc] at hadv
    dsimp only at hadv
    have hh : h.holding.isSome := by rw [Handler.holding, hpc]; rfl
    split at hadv
    · rename_i requests hupdate
      cases hadv
      exact ⟨_, _, .updated hpc hupdate, rfl, rfl⟩
    · rename_i e requests hupdate
      obtain rfl := clean_updateRow L _ _ _ _ _ _ _ hupdate
      exact hfails hh (Option.some.inj hadv)
  | provide =>
    rw [hpc] at hadv
    dsimp only at hadv
    have hh : h.holding.isSome := by rw [Handler.holding, hpc]; rfl
    split at hadv
    · cases hadv
      refine hends _ hh ?_
      cases h.endpoint.redirects with
      | true => exact .inl rfl
      | false => exact .inr ⟨true, rfl⟩
    · exact hfails hh (Option.some.inj hadv)
  | delete =>
    rw [hpc] at hadv
    dsimp only at hadv
    have hh : h.holding.isSome := by rw [Handler.holding, hpc]; rfl
    split at hadv
    · rename_i rows hdelete
      cases hadv
      exact ⟨_, _, .deleted hpc hdelete, rfl, rfl⟩
    · rename_i e rows hdelete
      obtain rfl := clean_statement _ _ _ _ _ hdelete
      exact hfails hh (Option.some.inj hadv)
  | answer page =>
    rw [hpc] at hadv
    cases hadv
    exact ⟨_, _, .answered hpc, rfl, rfl⟩
  | refuse =>
    rw [hpc] at hadv
    cases hadv
    exact ⟨_, W, .redirected (.inl hpc), rfl, rfl⟩
  | redirect =>
    rw [hpc] at hadv
    cases hadv
    exact ⟨_, W, .redirected (.inr hpc), rfl, rfl⟩
  | answered =>
    rw [hpc] at hadv
    cases hadv

end

/-! ## Who knows the nonce -/

/-- The nonce of a request is in its row, and with the one handler that holds it or in an answer. -/
structure Keyed (C : Clock) (W : World Auth Params) : Prop where
  recorded : Recorded C W.log W.consentState
  distinct : (OneTime.issued W.log).Nodup
  handed : ∀ n ∈ W.handed, n ∈ OneTime.issued W.log
  supplied : ∀ h ∈ W.handlers, h.pc = .rotate → h.state ∈ W.handed
  holds : ∀ (i : Nat) (h : Handler Auth Params) f, W.handlers[i]? = some h → h.holding = some f →
    f ∉ W.handed ∧ ∃ row, W.consentState.lookup h.rqid = some row ∧ row.state = f
  alone : ∀ (i j : Nat) (h k : Handler Auth Params), W.handlers[i]? = some h →
    W.handlers[j]? = some k → h.holding.isSome → k.holding.isSome → h.rqid = k.rqid → i = j

section

variable {L : Library Auth Params} {C : Clock} {W U : World Auth Params} {i : Nat}
  {h h' : Handler Auth Params} {c : Choice}

theorem holding_eq {f : String} (hf : h.holding = some f) : f = h.fresh := by
  unfold Handler.holding at hf
  split at hf <;> cases hf
  rfl

/-- A handler that goes on, on which the nonces do not depend. -/
theorem Keyed.set_pc (K : Keyed C W) (hi : W.handlers[i]? = some h) (pc : Pc Auth Params)
    (hrot : pc ≠ .rotate) (hhold : h.holding.isSome ∨ (show Handler Auth Params from
      { h with pc }).holding = none) (requests : Db) :
    Keyed C ({ W with requests }.set i { h with pc }) := by
  have hsame : ∀ f, (show Handler Auth Params from { h with pc }).holding = some f →
      h.holding = some f := by
    intro f hf
    rcases hhold with hh | hnone
    · obtain ⟨f', hf'⟩ := Option.isSome_iff_exists.1 hh
      rw [hf', holding_eq hf', holding_eq hf]
    · rw [hnone] at hf
      cases hf
  refine ⟨K.recorded, K.distinct, K.handed, ?_, ?_, ?_⟩
  · exact forall_mem_set (fun hp => absurd hp hrot) K.supplied
  · intro j k f hj hf
    rcases getElem?_set_eq_some hj with ⟨-, rfl⟩ | ⟨-, hj⟩
    · exact K.holds i h f hi (hsame f hf)
    · exact K.holds j k f hj hf
  · have hold : ∀ (j : Nat) (k : Handler Auth Params),
        (W.handlers.set i { h with pc })[j]? = some k → k.holding.isSome →
          ∃ k', W.handlers[j]? = some k' ∧ k'.rqid = k.rqid ∧ k'.holding.isSome := by
      intro j k hj hk
      rcases getElem?_set_eq_some hj with ⟨rfl, rfl⟩ | ⟨-, hj⟩
      · obtain ⟨f, hf⟩ := Option.isSome_iff_exists.1 hk
        exact ⟨h, hi, rfl, by rw [hsame f hf]; rfl⟩
      · exact ⟨k, hj, rfl, hk⟩
    intro j j' k k' hj hj' hk hk' heq
    obtain ⟨m, hm, hmr, hmh⟩ := hold j k hj hk
    obtain ⟨m', hm', hmr', hmh'⟩ := hold j' k' hj' hk'
    exact K.alone j j' m m' hm hm' hmh hmh' (hmr.trans (heq.trans hmr'.symm))

/-- A handler whose nonce has been handed out, or is not known to it yet, is not alone with it. -/
theorem Keyed.rqid_ne (K : Keyed C W) {row : Row} {rqid : String}
    (hrow : W.consentState.lookup rqid = some row) (hhanded : row.state ∈ W.handed) (j : Nat)
    (k : Handler Auth Params) (hj : W.handlers[j]? = some k) (hk : k.holding.isSome) :
    k.rqid ≠ rqid := by
  rintro rfl
  obtain ⟨f, hf⟩ := Option.isSome_iff_exists.1 hk
  obtain ⟨hnot, row', hrow', rfl⟩ := K.holds j k f hj hf
  obtain rfl := Option.some.inj (hrow.symm.trans hrow')
  exact hnot hhanded

/-- The handler that holds the nonce gives it up. -/
theorem Keyed.release (K : Keyed C W) (hi : W.handlers[i]? = some h) (hh : h.holding.isSome)
    {k' : Handler Auth Params} (hnone : k'.holding = none) {j : Nat} {k : Handler Auth Params}
    (hj : (W.handlers.set i k')[j]? = some k) (hk : k.holding.isSome) :
    W.handlers[j]? = some k ∧ k.rqid ≠ h.rqid := by
  rcases getElem?_set_eq_some hj with ⟨-, rfl⟩ | ⟨hne, hj⟩
  · rw [hnone] at hk
    cases hk
  · exact ⟨hj, fun heq => hne (K.alone i j h k hi hj hh hk heq.symm)⟩

theorem Keyed.rotated (K : Keyed C W) (hi : W.handlers[i]? = some h) (hpc : h.pc = .rotate)
    {fault : Option String} {now fresh n : String} {rows : Rows}
    (hrotate : (rotate C fault now fresh h.rqid h.state).exec W.consentState = (.ok n, rows))
    (hfresh : fresh ∉ OneTime.issued W.log) :
    Keyed C ({ W with
      consentState := rows
      log := W.log ++ [OneTime.Event.spend h.rqid h.state fresh now] }.set i
        { h with fresh := n, pc := .read }) := by
  obtain ⟨rfl, ⟨row, hrow, hstate, -⟩, hrows⟩ := rotate_ok hrotate
  -- whoever holds a nonce holds that of another request
  have hold : ∀ (j : Nat) (k : Handler Auth Params),
      (W.handlers.set i { h with fresh := n, pc := .read })[j]? = some k → k.holding.isSome →
        i = j ∧ k = { h with fresh := n, pc := .read } ∨
          W.handlers[j]? = some k ∧ k.rqid ≠ h.rqid := by
    intro j k hj hk
    rcases getElem?_set_eq_some hj with hself | ⟨-, hj⟩
    · exact .inl hself
    · exact .inr ⟨hj, K.rqid_ne hrow
        (hstate ▸ K.supplied h (List.mem_of_getElem? hi) hpc) j k hj hk⟩
  refine ⟨K.recorded.rotate hrotate, ?_, fun m hm => ?_, ?_, fun j k f hj hf => ?_, ?_⟩
  · refine OneTime.nodup_issued_concat K.distinct fun m t hissue => ?_
    cases hissue
    exact hfresh
  · exact OneTime.mem_issued_concat.2 (.inl (K.handed m hm))
  · exact forall_mem_set (fun hp => by cases hp) K.supplied
  · rcases hold j k hj (by rw [hf]; rfl) with ⟨-, rfl⟩ | ⟨hj, hne⟩
    · cases hf
      exact ⟨fun hm => hfresh (K.handed n hm), _, (hrows _).trans (if_pos rfl), rfl⟩
    · obtain ⟨hnot, row', hrow', hf'⟩ := K.holds j k f hj hf
      exact ⟨hnot, row', (hrows _).trans ((if_neg hne).trans hrow'), hf'⟩
  · intro j j' k k' hj hj' hk hk' heq
    rcases hold j k hj hk with ⟨hij, rfl⟩ | ⟨hj, hne⟩ <;>
      rcases hold j' k' hj' hk' with ⟨hij', rfl⟩ | ⟨hj', hne'⟩
    · exact hij.symm.trans hij'
    · exact absurd heq.symm hne'
    · exact absurd heq hne
    · exact K.alone j j' k k' hj hj' hk hk' heq

theorem Keyed.deleted (K : Keyed C W) (hi : W.handlers[i]? = some h) (hh : h.holding.isSome)
    {fault : Option String} {rows : Rows}
    (hdelete : (delete fault h.rqid).exec W.consentState = (.ok (), rows)) :
    Keyed C ({ W with
      consentState := rows
      log := W.log ++ [OneTime.Event.drop h.rqid] }.set i { h with pc := .redirect }) := by
  have hrows := delete_ok hdelete
  refine ⟨K.recorded.delete hdelete, ?_, fun m hm => ?_, ?_, fun j k f hj hf => ?_, ?_⟩
  · exact OneTime.nodup_issued_concat K.distinct fun n t ht => by cases ht
  · exact OneTime.mem_issued_concat.2 (.inl (K.handed m hm))
  · exact forall_mem_set (fun hp => by cases hp) K.supplied
  · obtain ⟨hj, hne⟩ := K.release hi hh rfl hj (by rw [hf]; rfl)
    obtain ⟨hnot, row, hrow, hstate⟩ := K.holds j k f hj hf
    exact ⟨hnot, row, (hrows _).trans ((if_neg hne).trans hrow), hstate⟩
  · intro j j' k k' hj hj' hk hk' heq
    exact K.alone j j' k k' (K.release hi hh rfl hj hk).1 (K.release hi hh rfl hj' hk').1 hk hk' heq

theorem Keyed.answered (K : Keyed C W) (hi : W.handlers[i]? = some h) (hh : h.holding.isSome)
    (page : Bool) :
    Keyed C ({ W with handed := W.handed ++ if page then [h.fresh] else [] }.set i
      { h with pc := .answered }) := by
  obtain ⟨f, hf⟩ := Option.isSome_iff_exists.1 hh
  obtain rfl := holding_eq hf
  obtain ⟨-, row, hrow, hstate⟩ := K.holds i h _ hi hf
  have hnew : ∀ n, n ∈ W.handed ++ (if page then [h.fresh] else []) → n ∈ W.handed ∨ n = h.fresh := by
    intro n hn
    cases page with
    | false => exact .inl (by simpa using hn)
    | true => simpa using hn
  refine ⟨K.recorded, K.distinct, fun n hn => ?_, ?_, fun j k f hj hf => ?_, ?_⟩
  · rcases hnew n hn with hn | rfl
    · exact K.handed n hn
    · exact hstate ▸ K.recorded.issued_of_lookup hrow
  · exact forall_mem_set (fun hp => by cases hp) fun k hk hp =>
      List.mem_append_left _ (K.supplied k hk hp)
  · obtain ⟨hj, hne⟩ := K.release hi hh rfl hj (by rw [hf]; rfl)
    obtain ⟨hnot, row', hrow', hstate'⟩ := K.holds j k f hj hf
    refine ⟨fun hf' => ?_, row', hrow', hstate'⟩
    rcases hnew f hf' with hf' | rfl
    · exact hnot hf'
    · exact hne (K.recorded.eq_of_state_eq K.distinct hrow' hrow (hstate'.trans hstate.symm))
  · intro j j' k k' hj hj' hk hk' heq
    exact K.alone j j' k k' (K.release hi hh rfl hj hk).1 (K.release hi hh rfl hj' hk').1 hk hk' heq

/-- **The steps of a handler keep the nonces where they are.** -/
theorem keyed_effect (K : Keyed L.clock W) (hi : W.handlers[i]? = some h)
    (hfresh : c.fresh ∉ OneTime.issued W.log) (he : Effect L W h c h' U) :
    Keyed L.clock (U.set i h') := by
  have hholds : ∀ {pc}, h.pc = pc → (show Handler Auth Params from { h with pc }).holding.isSome →
      h.holding.isSome := by
    rintro _ rfl hk
    exact hk
  have hafter : ∀ row, h.afterRead L row ≠ .rotate := by
    intro row
    unfold Handler.afterRead
    split <;> exact fun hp => by cases hp
  cases he with
  | rotated hpc hrotate => exact K.rotated hi hpc hrotate hfresh
  | refused hpc => exact K.set_pc hi _ (fun hp => by cases hp) (.inr rfl) _
  | found hpc hone => exact K.set_pc hi _ (hafter _) (.inl (hholds hpc rfl)) _
  | missed hpc hone => exact K.set_pc hi _ (fun hp => by cases hp) (.inl (hholds hpc rfl)) _
  | readByKey hpc => exact K.set_pc hi _ (hafter _) (.inl (hholds hpc rfl)) _
  | selected hpc hone => exact K.set_pc hi _ (fun hp => by cases hp) (.inl (hholds hpc rfl)) _
  | updated hpc hupdate => exact K.set_pc hi _ (fun hp => by cases hp) (.inl (hholds hpc rfl)) _
  | ends hh hpc =>
    refine K.set_pc hi _ ?_ (.inl hh) _
    rcases hpc with rfl | ⟨page, rfl⟩ <;> exact fun hp => by cases hp
  | deleted hpc hdelete => exact K.deleted hi (hholds hpc rfl) hdelete
  | answered hpc => exact K.answered hi (hholds hpc rfl) _
  | redirected hpc => exact K.set_pc hi _ (fun hp => by cases hp) (.inr rfl) _

/-- **So does every step.** -/
theorem keyed_step {times : Set String} {a : Action Auth Params} (K : Keyed L.clock W)
    (hC : Assumed times W a) (hstep : step L W a = some U) : Keyed L.clock U := by
  -- where only the requests change, nothing here does
  have hrequests : ∀ requests, Keyed L.clock { W with requests } := fun _ =>
    ⟨K.recorded, K.distinct, K.handed, K.supplied, K.holds, K.alone⟩
  cases a with
  | authorize requestId now nonce fault =>
    dsimp only [step] at hstep
    split at hstep
    · rename_i state rows hcreate
      cases hstep
      obtain ⟨rfl, hnew, hrows⟩ := create_ok hcreate
      refine ⟨K.recorded.create hcreate, ?_, fun n hn => ?_, fun k hk hp => ?_, fun j k f hj hf => ?_,
        K.alone⟩
      · refine OneTime.nodup_issued_concat K.distinct fun n t hissue => ?_
        cases hissue
        exact hC.2
      · rcases List.mem_append.1 hn with hn | hn
        · exact OneTime.mem_issued_concat.2 (.inl (K.handed n hn))
        · obtain rfl := List.mem_singleton.1 hn
          exact OneTime.mem_issued_concat.2 (.inr ⟨now, rfl⟩)
      · exact List.mem_append_left _ (K.supplied k hk hp)
      · obtain ⟨hnot, row, hrow, rfl⟩ := K.holds j k f hj hf
        refine ⟨fun hn => ?_, row, ?_, rfl⟩
        · rcases List.mem_append.1 hn with hn | hn
          · exact hnot hn
          · rw [← List.mem_singleton.1 hn] at hC
            exact hC.2 (K.recorded.issued_of_lookup hrow)
        · have hne : k.rqid ≠ requestId := by
            rintro rfl
            exact hnew (Finmap.mem_of_lookup_eq_some hrow)
          rw [hrows, Table.lookup_insert_eq, if_neg hne]
          exact hrow
    · rename_i e rows hcreate
      obtain rfl := clean_create _ _ _ _ _ _ _ _ hcreate
      cases hstep
      exact K
  | start endpoint rqid state deviceId now =>
    cases hstep
    have hold : ∀ (j : Nat) (k : Handler Auth Params),
        (W.handlers ++ [⟨endpoint, rqid, state, deviceId, now, "", .rotate⟩])[j]? = some k →
          k.holding.isSome → W.handlers[j]? = some k := by
      intro j k hj hk
      rcases getElem?_concat_eq_some hj with rfl | hj
      · cases hk
      · exact hj
    refine ⟨K.recorded, K.distinct, K.handed, fun k hk hp => ?_, fun j k f hj hf => ?_, ?_⟩
    · rcases List.mem_append.1 hk with hk | hk
      · exact K.supplied k hk hp
      · obtain rfl := List.mem_singleton.1 hk
        exact hC
    · exact K.holds j k f (hold j k hj (by rw [hf]; rfl)) hf
    · intro j j' k k' hj hj' hk hk' heq
      exact K.alone j j' k k' (hold j k hj hk) (hold j' k' hj' hk') hk hk' heq
  | advance i c =>
    obtain ⟨h, hi, hadv⟩ := Option.bind_eq_some_iff.1 hstep
    obtain ⟨h', V, heffect, rfl, -⟩ := effect_of_advance hadv
    exact keyed_effect K hi hC.2 heffect
  | provide i pk row =>
    dsimp only [step] at hstep
    split at hstep
    · split at hstep
      · cases hstep
        exact hrequests _
      · cases hstep
    · cases hstep
  | provideDelete i =>
    dsimp only [step] at hstep
    split at hstep
    · cases hstep
      exact hrequests _
    · cases hstep
  | par newId row fault =>
    cases hstep
    exact ⟨K.recorded, K.distinct, K.handed, K.supplied, K.holds, K.alone⟩
  | consume code fault =>
    cases hstep
    exact hrequests _
  | other device token usedRefreshToken =>
    cases hstep
    exact hrequests _

end

/-! ## Who writes the request -/

/-- The handler has seen its request free, or bound to its device. -/
def Handler.seen (h : Handler Auth Params) : Bool :=
  match h.pc with
  | .readByKey _ | .select _ | .update _ _ | .provide => true
  | _ => false

def Pc.data : Pc Auth Params → Option (RequestData Auth Params)
  | .select data | .update data _ => some data
  | _ => none

/-- What a handler knows of the rows. -/
structure Handler.Knows (t : Table DbId AuthorizationRequestRow) (drawn : Finset DbId)
    (h : Handler Auth Params) : Prop where
  rows : h.seen = true → ∀ pk r, t.lookup pk = some r → r.requestId = h.rqid →
    r.externalDeviceId = none ∨ r.externalDeviceId = some h.deviceId
  data : ∀ data, h.pc.data = some data → data.deviceId = some h.deviceId
  key : ∀ data pk, h.pc = .update data pk →
    pk ∈ drawn ∧ ∀ r, t.lookup pk = some r → r.requestId = h.rqid

structure Bound (W : World Auth Params) : Prop where
  unique : W.requests.authorizationRequest.Indexed fun r => some r.requestId
  drawn : ∀ pk ∈ W.requests.authorizationRequest, pk ∈ W.drawn
  knows : ∀ h ∈ W.handlers, h.Knows W.requests.authorizationRequest W.drawn

/-- The rows come from other rows of the same requests: as they were, or bound to the device of the
handler that writes them. -/
structure Rewrites (t t' : Table DbId AuthorizationRequestRow) (who : Option (Handler Auth Params)) :
    Prop where
  source : ∀ pk r', t'.lookup pk = some r' → ∃ r, t.lookup pk = some r ∧
    r'.requestId = r.requestId ∧ (r' = r ∨ ∃ h ∈ who, h.seen = true ∧ r.requestId = h.rqid ∧
      r'.externalDeviceId = some h.deviceId)
  gone : ∀ pk r, t.lookup pk = some r → t'.lookup pk = none → ∀ h ∈ who, h.seen = true ∧
    r.requestId = h.rqid

section

variable {L : Library Auth Params} {C : Clock} {W U : World Auth Params} {i : Nat}
  {h h' : Handler Auth Params} {c : Choice} {t t' : Table DbId AuthorizationRequestRow}
  {drawn : Finset DbId}

theorem rewrites_refl (t : Table DbId AuthorizationRequestRow) (who : Option (Handler Auth Params)) :
    Rewrites t t who :=
  ⟨fun _ r h => ⟨r, h, rfl, .inl rfl⟩, fun _ _ h hnone => by rw [h] at hnone; cases hnone⟩

theorem holding_of_seen (hs : h.seen = true) : h.holding.isSome := by
  unfold Handler.seen at hs
  unfold Handler.holding
  split at hs <;> simp_all

/-- What has passed the checks is bound to the device, and the row was free or bound to it. -/
theorem checkRequest_ok {deviceId : String} {now : UInt64} {row : Option AuthorizationRequestRow}
    {data : RequestData Auth Params} (hok : checkRequest L deviceId now row = .ok data) :
    data.deviceId = some deviceId ∧ ∃ r, row = some r ∧
      (r.externalDeviceId = none ∨ r.externalDeviceId = some deviceId) := by
  cases row with
  | none => cases hok
  | some row =>
    obtain ⟨read, hread, hok⟩ := except_bind_ok.1 hok
    have hdevice : read.deviceId = row.externalDeviceId := by
      rw [except_mapError_ok] at hread
      obtain ⟨clientAuth, -, hread⟩ := except_bind_ok.1 hread
      obtain ⟨parameters, -, hread⟩ := except_bind_ok.1 hread
      cases hread
      rfl
    split at hok
    · cases hok
    split at hok
    · cases hok
    obtain ⟨bound, hbind, hok⟩ := except_bind_ok.1 hok
    cases hok
    unfold bindDevice at hbind
    rw [hdevice] at hbind
    cases hrow : row.externalDeviceId with
    | none =>
      rw [hrow] at hbind
      cases hbind
      exact ⟨rfl, row, rfl, .inl hrow⟩
    | some d =>
      rw [hrow] at hbind
      dsimp only at hbind
      split at hbind
      · cases hbind
      · rename_i heq
        cases hbind
        obtain rfl := Decidable.not_not.1 heq
        exact ⟨hdevice.trans hrow, row, rfl, .inr hrow⟩

theorem Keyed.eq_of_rqid (K : Keyed C W) {k : Handler Auth Params} (hh : h ∈ W.handlers)
    (hk : k ∈ W.handlers) (hhs : h.holding.isSome) (hks : k.holding.isSome)
    (heq : h.rqid = k.rqid) : h = k := by
  obtain ⟨i, hi⟩ := List.mem_iff_getElem?.1 hh
  obtain ⟨j, hj⟩ := List.mem_iff_getElem?.1 hk
  obtain rfl := K.alone i j h k hi hj hhs hks heq
  exact Option.some.inj (hi.symm.trans hj)

/-- Such a change of the rows leaves every handler what it knows. -/
theorem Bound.rewrite (K : Keyed C W) (B : Bound W) {who : Option (Handler Auth Params)}
    (hwho : ∀ h ∈ who, h ∈ W.handlers) (requests : Db)
    (hrows : Rewrites W.requests.authorizationRequest requests.authorizationRequest who) :
    Bound { W with requests } := by
  refine ⟨?_, ?_, fun k hk => ⟨?_, (B.knows k hk).data, ?_⟩⟩
  · intro pk pk' r r' v hr hr' hv hv'
    obtain ⟨r₀, hr₀, hid, -⟩ := hrows.source pk r hr
    obtain ⟨r₀', hr₀', hid', -⟩ := hrows.source pk' r' hr'
    exact B.unique pk pk' r₀ r₀' v hr₀ hr₀'
      ((congrArg some hid).symm.trans hv) ((congrArg some hid').symm.trans hv')
  · intro pk hpk
    obtain ⟨r, hr⟩ := Finmap.mem_iff.1 hpk
    obtain ⟨r₀, hr₀, -⟩ := hrows.source pk r hr
    exact B.drawn pk (Finmap.mem_of_lookup_eq_some hr₀)
  · intro hs pk r hr hid
    obtain ⟨r₀, hr₀, hid₀, rfl | ⟨h, hh, hseen, hidh, hdevice⟩⟩ := hrows.source pk r hr
    · exact (B.knows k hk).rows hs pk r hr₀ hid
    · obtain rfl := K.eq_of_rqid (hwho h hh) hk (holding_of_seen hseen) (holding_of_seen hs)
        (hidh.symm.trans (hid₀.symm.trans hid))
      exact .inr hdevice
  · intro data pk hpc
    obtain ⟨hdrawn, hid⟩ := (B.knows k hk).key data pk hpc
    refine ⟨hdrawn, fun r hr => ?_⟩
    obtain ⟨r₀, hr₀, hid₀, -⟩ := hrows.source pk r hr
    exact hid₀.trans (hid r₀ hr₀)

theorem Bound.set (B : Bound W)
    (hknows : h.Knows W.requests.authorizationRequest W.drawn) : Bound (W.set i h) :=
  ⟨B.unique, B.drawn, forall_mem_set hknows B.knows⟩

/-- A handler that is to do nothing with the row has nothing to know. -/
theorem knows_of_idle (hseen : h.seen = false) (hdata : h.pc.data = none) : h.Knows t drawn := by
  refine ⟨fun hs => ?_, fun data hd => ?_, fun data pk hpc => ?_⟩
  · rw [hseen] at hs
    cases hs
  · rw [hdata] at hd
    cases hd
  · rw [hpc] at hdata
    cases hdata

theorem knows_afterRead {row : Option AuthorizationRequestRow}
    (hrows : ∀ r, row = some r → (r.externalDeviceId = none ∨ r.externalDeviceId = some h.deviceId) →
      ∀ pk r, t.lookup pk = some r → r.requestId = h.rqid →
        r.externalDeviceId = none ∨ r.externalDeviceId = some h.deviceId) :
    (show Handler Auth Params from { h with pc := h.afterRead L row }).Knows t drawn := by
  rw [Handler.afterRead]
  cases hcheck : checkRequest L h.deviceId h.now row with
  | error e => exact knows_of_idle rfl rfl
  | ok data =>
    obtain ⟨hdevice, r, hr, hfree⟩ := checkRequest_ok hcheck
    refine ⟨fun _ => hrows r hr hfree, fun data' hdata => ?_, fun _ _ hpc => by cases hpc⟩
    cases hdata
    exact hdevice

theorem updateRow_ok {device fault : Option String} {pk : DbId} {data : RequestData Auth Params}
    {db db' : Db} (hok : (updateRow L device fault pk data).exec db = (.ok (), db')) :
    ∃ deviceId columns, db' = { db with
      authorizationRequest := db.authorizationRequest.update pk (setRequest data deviceId columns) } := by
  obtain ⟨deviceId, s, hdevice, hrest⟩ := exec_bind_ok.1 hok
  obtain rfl := (Account.Oauth.reads_deviceDbId _ _).eq hdevice
  obtain ⟨columns, u, hcolumns, hupdate⟩ := exec_bind_ok.1 hrest
  obtain rfl := (reads_ofExcept _).eq hcolumns
  obtain ⟨-, rfl⟩ := (Account.Oauth.does_execute _ _ _ _ _).1 hupdate
  exact ⟨deviceId, columns, rfl⟩

/-- Before a write, the handler knows which request the row belongs to. -/
theorem rewrites_updateRow (hk : h.Knows t drawn) {data : RequestData Auth Params} {pk : DbId}
    (hpc : h.pc = .update data pk) (deviceId : Option DbId)
    (columns : Account.Oauth.RequestColumns) :
    Rewrites t (t.update pk (setRequest data deviceId columns)) (some h) := by
  have hseen : h.seen = true := by rw [Handler.seen, hpc]
  constructor
  · intro pk' r' hr'
    rw [Table.lookup_update] at hr'
    split at hr'
    · rename_i heq
      subst heq
      obtain ⟨r, hr, rfl⟩ := Option.map_eq_some_iff.1 hr'
      exact ⟨r, hr, rfl, .inr ⟨h, rfl, hseen, (hk.key data pk' hpc).2 r hr,
        hk.data data (by rw [hpc]; rfl)⟩⟩
    · exact ⟨r', hr', rfl, .inl rfl⟩
  · intro pk' r hr hnone
    rw [Table.lookup_update, hr] at hnone
    split at hnone <;> cases hnone

/-- **The steps of a handler leave every handler what it knows, and write its own request only.** -/
theorem bound_effect (K : Keyed C W) (B : Bound W) (hi : W.handlers[i]? = some h)
    (he : Effect L W h c h' U) : Bound (U.set i h') ∧
      Rewrites W.requests.authorizationRequest U.requests.authorizationRequest (some h) := by
  have hmem := List.mem_of_getElem? hi
  have hknows := B.knows h hmem
  have hread : ∀ {pk row}, byRequestId h.rqid W.requests = some (pk, row) →
      W.requests.authorizationRequest.lookup pk = some row ∧ row.requestId = h.rqid := by
    intro pk row hone
    obtain ⟨hl, hp⟩ := Table.mem_of_one hone
    exact ⟨hl, of_decide_eq_true hp⟩
  cases he with
  | @rotated fresh rows hpc hrotate =>
    have B' := B.set (i := i) (knows_of_idle (h := { h with fresh, pc := .read }) rfl rfl)
    exact ⟨⟨B'.unique, B'.drawn, B'.knows⟩, rewrites_refl _ _⟩
  | refused hpc => exact ⟨B.set (knows_of_idle rfl rfl), rewrites_refl _ _⟩
  | found hpc hone =>
    refine ⟨B.set (knows_afterRead fun r hr hfree pk r' hr' hid => ?_), rewrites_refl _ _⟩
    cases hr
    -- it is the only row of the request
    obtain ⟨hl, hid'⟩ := hread hone
    obtain rfl := B.unique _ _ _ _ _ hl hr' (congrArg some hid') (congrArg some hid)
    obtain rfl := Option.some.inj (hl.symm.trans hr')
    exact hfree
  | missed hpc hone =>
    refine ⟨B.set ⟨fun _ pk r hr hid => ?_, fun _ hd => (by cases hd), fun _ _ hp => by cases hp⟩,
      rewrites_refl _ _⟩
    exact absurd hid (of_decide_eq_false (Table.one_eq_none.1 hone pk r hr))
  | readByKey hpc =>
    refine ⟨B.set (knows_afterRead fun _ _ _ => hknows.rows ?_), rewrites_refl _ _⟩
    rw [Handler.seen, hpc]
  | selected hpc hone =>
    have hseen : h.seen = true := by rw [Handler.seen, hpc]
    obtain ⟨hl, hid⟩ := hread hone
    refine ⟨B.set ⟨fun _ => hknows.rows hseen, fun data hd => ?_, fun data pk hp => ?_⟩,
      rewrites_refl _ _⟩
    · cases hd
      exact hknows.data _ (by rw [hpc]; rfl)
    · cases hp
      refine ⟨B.drawn _ (Finmap.mem_of_lookup_eq_some hl), fun r hr => ?_⟩
      obtain rfl := Option.some.inj (hl.symm.trans hr)
      exact hid
  | updated hpc hupdate =>
    have hseen : h.seen = true := by rw [Handler.seen, hpc]
    obtain ⟨deviceId, columns, rfl⟩ := updateRow_ok hupdate
    have hrows := rewrites_updateRow hknows hpc deviceId columns
    have B' := B.rewrite K (fun k hk => by cases hk; exact hmem) { W.requests with
      authorizationRequest := W.requests.authorizationRequest.update _
        (setRequest _ deviceId columns) } hrows
    exact ⟨B'.set ⟨fun _ => (B'.knows h hmem).rows hseen, fun _ hd => (by cases hd),
      fun _ _ hp => by cases hp⟩, hrows⟩
  | ends hh hpc =>
    refine ⟨B.set ?_, rewrites_refl _ _⟩
    rcases hpc with rfl | ⟨page, rfl⟩ <;> exact knows_of_idle rfl rfl
  | deleted hpc hdelete =>
    have B' := B.set (i := i) (knows_of_idle (h := { h with pc := .redirect }) rfl rfl)
    exact ⟨⟨B'.unique, B'.drawn, B'.knows⟩, rewrites_refl _ _⟩
  | answered hpc =>
    have B' := B.set (i := i) (knows_of_idle (h := { h with pc := .answered }) rfl rfl)
    exact ⟨⟨B'.unique, B'.drawn, B'.knows⟩, rewrites_refl _ _⟩
  | redirected hpc => exact ⟨B.set (knows_of_idle rfl rfl), rewrites_refl _ _⟩

theorem rows_consumeRequestCode (K : Codec Auth Params) (fault : Option String) (code : String) :
    Keeps (consumeRequestCode K fault code) fun s u : Db => ∀ pk r,
      u.authorizationRequest.lookup pk = some r → s.authorizationRequest.lookup pk = some r := by
  refine Keeps.bind (fun _ _ _ h k pk r hr => h pk r (k pk r hr)) ?_ fun deleted => ?_
  · refine Keeps.bind (fun _ _ _ h k pk r hr => h pk r (k pk r hr))
      ((Account.Oauth.reads_query _ _).keeps fun _ _ _ hr => hr) fun _ =>
        Keeps.bind (fun _ _ _ h k pk r hr => h pk r (k pk r hr)) (keeps_modify fun s pk r hr => ?_)
          fun _ => keeps_pure (fun _ _ _ hr => hr) _
    exact (Table.lookup_deleteWhere_eq_some.1 hr).1
  · cases deleted.head? with
    | none => exact keeps_pure (fun _ _ _ hr => hr) _
    | some row =>
      exact Keeps.bind (fun _ _ _ h k pk r hr => h pk r (k pk r hr))
        ((reads_ofExcept _).keeps fun _ _ _ hr => hr) fun _ => keeps_pure (fun _ _ _ hr => hr) _

/-- Every step but a new request rewrites the rows, in this sense. -/
theorem rewrites_step {times : Set String} {a : Action Auth Params} (K : Keyed C W) (B : Bound W)
    (hC : Assumed times W a) (hstep : step L W a = some U) (hpar : ∀ newId row f, a ≠ .par newId row f) :
    Bound U ∧ Rewrites W.requests.authorizationRequest U.requests.authorizationRequest
      (a.handler W) := by
  have hwho : ∀ h ∈ a.handler W, h ∈ W.handlers := by
    intro h hh
    cases a with
    | advance i c | provide i pk row | provideDelete i => exact List.mem_of_getElem? hh
    | authorize | start | par | consume | other => cases hh
  cases a with
  | authorize requestId now nonce fault =>
    dsimp only [step] at hstep
    split at hstep <;> cases hstep <;> exact ⟨⟨B.unique, B.drawn, B.knows⟩, rewrites_refl _ _⟩
  | start endpoint rqid state deviceId now =>
    cases hstep
    refine ⟨⟨B.unique, B.drawn, fun k hk => ?_⟩, rewrites_refl _ _⟩
    rcases List.mem_append.1 hk with hk | hk
    · exact B.knows k hk
    · obtain rfl := List.mem_singleton.1 hk
      exact knows_of_idle rfl rfl
  | advance i c =>
    obtain ⟨h, hi, hadv⟩ := Option.bind_eq_some_iff.1 hstep
    obtain ⟨h', V, heffect, rfl, -⟩ := effect_of_advance hadv
    rw [Action.handler, hi]
    exact bound_effect K B hi heffect
  | provide i pk row =>
    dsimp only [step] at hstep
    split at hstep
    · rename_i endpoint rqid state deviceId now fresh old hi hold
      split at hstep
      · rename_i hids
        cases hstep
        have hrows : Rewrites W.requests.authorizationRequest
            (W.requests.authorizationRequest.insert pk row)
            (Action.handler W (.provide i pk row)) := by
          rw [Action.handler, hi]
          constructor
          · intro pk' r' hr'
            rw [Table.lookup_insert_eq] at hr'
            split at hr'
            · rename_i heq
              subst heq
              cases hr'
              refine ⟨old, hold, hids.2.trans hids.1.symm, .inr ⟨_, rfl, rfl, hids.1, ?_⟩⟩
              exact hC _ hi
            · exact ⟨r', hr', rfl, .inl rfl⟩
          · intro pk' r hr hnone
            rw [Table.lookup_insert_eq] at hnone
            split at hnone
            · cases hnone
            · rw [hr] at hnone
              cases hnone
        exact ⟨B.rewrite K hwho _ hrows, hrows⟩
      · cases hstep
    · cases hstep
  | provideDelete i =>
    dsimp only [step] at hstep
    split at hstep
    · rename_i endpoint rqid state deviceId now fresh hi
      cases hstep
      have hrows : Rewrites W.requests.authorizationRequest
          (W.requests.authorizationRequest.deleteWhere fun _ r => r.requestId = rqid)
          (Action.handler W (.provideDelete i)) := by
        rw [Action.handler, hi]
        constructor
        · intro pk r hr
          exact ⟨r, (Table.lookup_deleteWhere_eq_some.1 hr).1, rfl, .inl rfl⟩
        · intro pk r hr hnone h hh
          cases hh
          exact ⟨rfl, of_decide_eq_true (Table.lookup_deleteWhere_eq_none.1 hnone r hr)⟩
      exact ⟨B.rewrite K hwho _ hrows, hrows⟩
    · cases hstep
  | par newId row fault => exact absurd rfl (hpar newId row fault)
  | consume code fault =>
    cases hstep
    have hrows : Rewrites W.requests.authorizationRequest
        ((consumeRequestCode L.codec fault code).exec W.requests).2.authorizationRequest
        (Action.handler W (.consume code fault)) :=
      ⟨fun pk r hr => ⟨r, rows_consumeRequestCode L.codec fault code _ pk r hr, rfl, .inl rfl⟩,
        fun _ _ _ _ _ hh => by cases hh⟩
    exact ⟨B.rewrite K hwho _ hrows, hrows⟩
  | other device token usedRefreshToken =>
    cases hstep
    exact ⟨⟨B.unique, B.drawn, B.knows⟩, rewrites_refl _ _⟩

/-- A new request is bound to no device. -/
theorem bound_par {times : Set String} {newId : DbId} {row : AuthorizationRequestRow}
    {fault : Option String} (B : Bound W) (hC : Assumed times W (.par newId row fault))
    (hstep : step L W (.par newId row fault) = some U) : Bound U ∧
      ∀ pk r, W.requests.authorizationRequest.lookup pk = some r →
        U.requests.authorizationRequest.lookup pk = some r := by
  cases hstep
  have hnew : newId ∉ W.requests.authorizationRequest := fun hmem => hC (B.drawn newId hmem)
  have hgrown : ∀ {k : Handler Auth Params}, k.Knows W.requests.authorizationRequest W.drawn →
      k.Knows W.requests.authorizationRequest (insert newId W.drawn) := fun hk =>
    ⟨hk.rows, hk.data, fun data pk hpc => ⟨Finset.mem_insert_of_mem (hk.key data pk hpc).1,
      (hk.key data pk hpc).2⟩⟩
  cases hexec : (insertRequest fault newId
      { row with deviceId := none, externalDeviceId := none }).exec W.requests with
  | mk r db =>
    cases r with
    | error e =>
      obtain rfl := Account.Oauth.clean_execute _ _ _ _ _ _ hexec
      exact ⟨⟨B.unique, fun pk hpk => Finset.mem_insert_of_mem (B.drawn pk hpk),
        fun k hk => hgrown (B.knows k hk)⟩, fun _ _ hr => hr⟩
    | ok _ =>
      obtain ⟨⟨-, hrefuse⟩, rfl⟩ := (Account.Oauth.does_execute _ _ _ _ _).1 hexec
      have hfree : W.requests.authorizationRequest.taken (fun r => some r.requestId) newId
          (some row.requestId) = false := by
        unfold Account.Oauth.refuseRequest at hrefuse
        rw [if_neg hnew] at hrefuse
        split at hrefuse
        · cases hrefuse
        · exact Bool.eq_false_of_not_eq_true ‹_›
      refine ⟨⟨B.unique.insert hfree, fun pk hpk => ?_, fun k hk => ⟨?_, (B.knows k hk).data, ?_⟩⟩,
        fun pk r hr => ?_⟩
      · rcases Finmap.mem_insert.1 hpk with rfl | hpk
        · exact Finset.mem_insert_self _ _
        · exact Finset.mem_insert_of_mem (B.drawn pk hpk)
      · intro hs pk r hr hid
        rcases Table.lookup_insert_eq_some.1 hr with ⟨-, rfl⟩ | ⟨-, hr⟩
        · exact .inl rfl
        · exact (B.knows k hk).rows hs pk r hr hid
      · intro data pk hpc
        obtain ⟨hdrawn, hid⟩ := (B.knows k hk).key data pk hpc
        refine ⟨Finset.mem_insert_of_mem hdrawn, fun r hr => hid r ?_⟩
        rwa [Table.lookup_insert_eq, if_neg (by rintro rfl; exact hC hdrawn)] at hr
      · rw [Table.lookup_insert_eq, if_neg (by rintro rfl; exact hnew (Finmap.mem_of_lookup_eq_some hr))]
        exact hr

/-- **A bound request is rewritten by its device's handlers only.** -/
theorem ownDevice_step {times : Set String} {a : Action Auth Params} (K : Keyed C W) (B : Bound W)
    (hC : Assumed times W a) : OwnDevice L W a := by
  intro U hstep pk row d hrow hd
  by_cases hpar : ∃ newId row f, a = .par newId row f
  · obtain ⟨newId, row', f, rfl⟩ := hpar
    have hsame := (bound_par B hC hstep).2 pk row hrow
    rw [hsame]
    exact ⟨fun _ _ hmoved => absurd rfl hmoved, fun _ h => Option.some.inj h ▸ hd⟩
  obtain ⟨-, hrows⟩ := rewrites_step K B hC hstep fun newId row f h => hpar ⟨newId, row, f, h⟩
  -- the handler that writes the row knows what it is bound to
  have hown : ∀ h ∈ a.handler W, h.seen = true → row.requestId = h.rqid → h.deviceId = d := by
    intro h hh hseen hid
    have hmem : h ∈ W.handlers := by
      cases a with
      | advance i c | provide i pk row | provideDelete i => exact List.mem_of_getElem? hh
      | authorize | start | par | consume | other => cases hh
    rcases (B.knows h hmem).rows hseen pk row hrow hid with hnone | hsome
    · rw [hd] at hnone
      cases hnone
    · exact Option.some.inj (hsome.symm.trans hd)
  refine ⟨fun h hh hne => ?_, fun row' hrow' => ?_⟩
  · cases hafter : U.requests.authorizationRequest.lookup pk with
    | none =>
      obtain ⟨hseen, hid⟩ := hrows.gone pk row hrow hafter h hh
      exact hown h hh hseen hid
    | some row' =>
      obtain ⟨r, hr, -, hsame | ⟨k, hk, hseen, hid, -⟩⟩ := hrows.source pk row' hafter
      · obtain rfl := Option.some.inj (hrow.symm.trans hr)
        exact absurd (hafter.trans (congrArg some hsame)) hne
      · obtain rfl := Option.some.inj (hrow.symm.trans hr)
        obtain rfl := Option.some.inj ((show a.handler W = some h from hh).symm.trans hk)
        exact hown h hk hseen hid
  · obtain ⟨r, hr, -, rfl | ⟨k, hk, hseen, hid, hdevice⟩⟩ := hrows.source pk row' hrow'
    · obtain rfl := Option.some.inj (hrow.symm.trans hr)
      exact hd
    · obtain rfl := Option.some.inj (hrow.symm.trans hr)
      rw [hdevice, hown k hk hseen hid]

/-! ## Runs -/

/-- The times of the history are the clock's. -/
def Timed (times : Set String) (W : World Auth Params) : Prop :=
  ∀ e ∈ W.log, ∀ n t, e.issue = some (n, t) → t ∈ times

theorem timed_step {times : Set String} {a : Action Auth Params} (hT : Timed times W)
    (hC : Assumed times W a) (hstep : step L W a = some U) : Timed times U := by
  have hconcat : ∀ e : ConsentState.Event, (∀ n t, e.issue = some (n, t) → t ∈ times) →
      ∀ e' ∈ W.log ++ [e], ∀ n t, e'.issue = some (n, t) → t ∈ times := by
    intro e he e' he' n t hissue
    rcases List.mem_append.1 he' with he' | he'
    · exact hT e' he' n t hissue
    · obtain rfl := List.mem_singleton.1 he'
      exact he n t hissue
  cases a with
  | authorize requestId now nonce fault =>
    dsimp only [step] at hstep
    split at hstep
    · cases hstep
      refine hconcat _ fun n t hissue => ?_
      cases hissue
      exact hC.1
    · cases hstep
      exact hT
  | advance i c =>
    obtain ⟨h, hi, hadv⟩ := Option.bind_eq_some_iff.1 hstep
    obtain ⟨h', V, heffect, rfl, -⟩ := effect_of_advance hadv
    cases heffect with
    | rotated hpc hrotate =>
      refine hconcat _ fun n t hissue => ?_
      cases hissue
      exact hC.1
    | deleted hpc hdelete => exact hconcat _ fun n t ht => by cases ht
    | refused | found | missed | readByKey | selected | updated | ends | answered | redirected =>
      exact hT
  | provide i pk row =>
    dsimp only [step] at hstep
    split at hstep
    · split at hstep
      · cases hstep
        exact hT
      · cases hstep
    · cases hstep
  | provideDelete i =>
    dsimp only [step] at hstep
    split at hstep
    · cases hstep
      exact hT
    · cases hstep
  | start | par | consume | other =>
    cases hstep
    exact hT

theorem lawful_of_keyed (K : Keyed C W) {times : Set String} (hclock : FixedWidth C times)
    (hT : Timed times W) : Lawful C W := by
  obtain ⟨current, hlegal, -⟩ := K.recorded
  refine ⟨hlegal.nodup_spent K.distinct, fun es fs rqid n m t hlog => ?_,
    fun es fs gs rqid n m t n' m' t' hlog hno => ?_, K.alone⟩
  · rw [hlog] at hlegal
    obtain ⟨e, he, hkey, t₀, hissue, hlive⟩ := hlegal.issued_before
    refine ⟨e, he, hkey, t₀, hissue, (live_iff_within hclock ?_ ?_).1 hlive⟩
    · exact hT e (by rw [hlog]; exact List.mem_append_left _ he) n t₀ hissue
    · exact hT (.spend rqid n m t) (by rw [hlog]; simp) m t rfl
  · rw [hlog] at hlegal
    exact hlegal.chain hno

theorem keyed_of_initial (hI : Initial W) (C : Clock) : Keyed C W := by
  obtain ⟨hrows, hhandlers, hhanded, hlog, -, -⟩ := hI
  refine ⟨?_, ?_, ?_, ?_, ?_, ?_⟩
  · rw [hrows, hlog]
    exact recorded_nil C
  · rw [hlog]
    exact List.nodup_nil
  · rw [hhanded]
    exact fun n hn => by cases hn
  · rw [hhandlers]
    exact fun h hh => by cases hh
  · rw [hhandlers]
    exact fun i h f hi => by cases hi
  · rw [hhandlers]
    exact fun i j h k hi => by cases hi

theorem bound_of_initial (hI : Initial W) : Bound W := by
  refine ⟨hI.unique, hI.drawn, ?_⟩
  rw [hI.handlers]
  exact fun h hh => by cases hh

/-- **In every run the nonces and the handlers are as promised, and no step moves a request that is
bound to one device for another.** -/
theorem remote_lawful (L : Library Auth Params) {times : Set String}
    (hclock : FixedWidth L.clock times) {W : World Auth Params} (hI : Initial W)
    (as : List (Action Auth Params)) (hC : Along (step L) (Assumed times) W as) :
    Always (step L) (Lawful L.clock) W as ∧ Along (step L) (OwnDevice L) W as := by
  have keep : ∀ W a U, (Keyed L.clock W ∧ Bound W ∧ Timed times W) → Assumed times W a →
      step L W a = some U → Keyed L.clock U ∧ Bound U ∧ Timed times U := by
    rintro W a U ⟨K, B, T⟩ hC hstep
    refine ⟨keyed_step K hC hstep, ?_, timed_step T hC hstep⟩
    by_cases hpar : ∃ newId row f, a = .par newId row f
    · obtain ⟨newId, row, f, rfl⟩ := hpar
      exact (bound_par B hC hstep).1
    · exact (rewrites_step K B hC hstep fun newId row f h => hpar ⟨newId, row, f, h⟩).1
  have hinit : Keyed L.clock W ∧ Bound W ∧ Timed times W := by
    refine ⟨keyed_of_initial hI L.clock, bound_of_initial hI, ?_⟩
    rw [Timed, hI.log]
    exact fun e he => by cases he
  constructor
  · exact (always_of_along keep hinit as hC).mono fun W hW => lawful_of_keyed hW.1 hclock hW.2.2
  · exact along_of_along keep (fun W a hW => ownDevice_step hW.1 hW.2.1) hinit as hC

end

/-! ## One request -/

instance (times : Set String) [DecidablePred (· ∈ times)] (W : World Auth Params)
    (a : Action Auth Params) : Decidable (Assumed times W a) := by
  cases a <;> unfold Assumed <;> infer_instance

def noon : String := "2026-08-04T12:00:00.000Z"

def tenPastNoon : String := "2026-08-04T12:00:10.000Z"

def noonTimes : Set String := {now | now = noon ∨ now = tenPastNoon}

instance : DecidablePred (· ∈ noonTimes) := fun now =>
  inferInstanceAs (Decidable (now = noon ∨ now = tenPastNoon))

def noonClock : Clock where
  fromStrToMicros now :=
    if now = noon then .ok 1785844800000000
    else if now = tenPastNoon then .ok 1785844810000000
    else .error "no time"
  fromMicrosToStr micros :=
    if micros = 1785844800000000 + nonceTtlMicros then "2026-08-04T12:05:00.000Z"
    else "2026-08-04T12:05:10.000Z"

def remoteLibrary : Library String String where
  codec := Account.Oauth.plainCodec
  clock := noonClock
  isAuthorized data := data.code.isSome
  isExpired data now := data.expiresAt < now
  inactivityTimeout := 300

/-- A request that has been pushed. -/
def onePushed : World String String where
  consentState := ∅
  requests := { Account.Oauth.Db.empty with
    authorizationRequest := Finmap.insert ⟨1, DbId.one_isLt⟩
      ⟨"req-1", none, none, none, "client", "auth", "params", 1785845100, none⟩ ∅ }
  handlers := []
  handed := []
  log := []
  drawn := {⟨1, DbId.one_isLt⟩}

def drawing (fresh : String) : Choice := ⟨none, none, tenPastNoon, fresh, true⟩

/-- A phone gets the page, and asks for it again. -/
def phoneRun : List (Action String String) :=
  [.authorize "req-1" noon "n0" none, .start .request "req-1" "n0" "phone" 1785844810,
    .advance 0 (drawing "n1"), .advance 0 (drawing "-"), .advance 0 (drawing "-"),
    .advance 0 (drawing "-"), .advance 0 (drawing "-"), .advance 0 (drawing "-"),
    .start .request "req-1" "n1" "phone" 1785844810, .advance 1 (drawing "n2"),
    .advance 1 (drawing "-")]

/-- The phone accepts, and before it gets the answer the request is opened again. -/
def reopenedRun : List (Action String String) :=
  [.authorize "req-1" noon "n0" none, .start .accept "req-1" "n0" "phone" 1785844810,
    .advance 0 (drawing "n1"), .advance 0 (drawing "-"), .advance 0 (drawing "-"),
    .advance 0 (drawing "-"), .advance 0 (drawing "-"), .advance 0 (drawing "-"),
    .authorize "req-1" tenPastNoon "n2" none, .start .request "req-1" "n2" "laptop" 1785844810,
    .advance 1 (drawing "n3")]

theorem fixedWidth_noon : FixedWidth noonClock noonTimes := by
  constructor
  · rintro now (rfl | rfl)
    · exact ⟨_, rfl⟩
    · exact ⟨_, rfl⟩
  · rintro issued (rfl | rfl) now (rfl | rfl) m₀ m h₀ h <;> cases h₀ <;> cases h <;> decide +kernel

theorem initial_onePushed : Initial onePushed := by
  refine ⟨rfl, rfl, rfl, rfl, Table.indexed_empty.insert (by decide +kernel), fun pk hpk => ?_⟩
  rcases Finmap.mem_insert.1 hpk with rfl | hpk
  · exact Finset.mem_singleton_self _
  · exact absurd hpk (Finmap.notMem_empty)

theorem remote_lawful_phone :
    (run (step remoteLibrary) onePushed phoneRun).isSome ∧
      Always (step remoteLibrary) (Lawful remoteLibrary.clock) onePushed phoneRun ∧
      Along (step remoteLibrary) (OwnDevice remoteLibrary) onePushed phoneRun :=
  ⟨by decide +kernel, remote_lawful remoteLibrary fixedWidth_noon initial_onePushed phoneRun
    (by decide +kernel)⟩

/-- The rotations of a request are one chain, deletions or not. -/
def SingleChain (W : World Auth Params) : Prop :=
  ∀ es fs gs rqid n m t n' m' t',
    W.log = es ++ .spend rqid n m t :: (fs ++ .spend rqid n' m' t' :: gs) →
      (∀ e ∈ fs, e.key = rqid → e.spends = none) → n' = m

/-- The handler has rotated the nonce and not answered yet. -/
def Handler.inFlight (h : Handler Auth Params) : Bool :=
  match h.pc with
  | .rotate | .refuse | .answered => false
  | _ => true

def OneInFlight (W : World Auth Params) : Prop :=
  ∀ (i j : Nat) (h k : Handler Auth Params), W.handlers[i]? = some h → W.handlers[j]? = some k →
    h.inFlight = true → k.inFlight = true → h.rqid = k.rqid → i = j

/-- A deletion starts a new chain, before the handler that deletes has answered. -/
theorem reopened_in_flight :
    ¬ ∀ (L : Library String String) (times : Set String) W as, FixedWidth L.clock times →
      Initial W → Along (step L) (Assumed times) W as →
        Always (step L) (fun W => SingleChain W ∧ OneInFlight W) W as := by
  intro h
  have hall := h remoteLibrary noonTimes onePushed reopenedRun fixedWidth_noon initial_onePushed
    (by decide +kernel)
  have hend : ∃ W ∈ run (step remoteLibrary) onePushed reopenedRun, ∃ h ∈ W.handlers[0]?,
      ∃ k ∈ W.handlers[1]?, h.inFlight = true ∧ k.inFlight = true ∧ h.rqid = k.rqid := by
    decide +kernel
  obtain ⟨W, hW, h, hh, k, hk, hhf, hkf, hrqid⟩ := hend
  have hone := (hall.last hW).2 0 1 h k hh hk hhf hkf hrqid
  cases hone

end CacosPds.Oauth
