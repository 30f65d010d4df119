import CacosPds.Lib.Stages
import CacosPds.Lib.UniqueIndex
import CacosPds.Types.DbId
/-!
# The OAuth tables (`migration/src/m20260801_000001_account.rs:331-660`)

| here | there |
| --- | --- |
| `AuthorizationRequestRow`, `TokenRow` | the rows of `authorization_request` and `token`, each under its surrogate `DbId` |
| `Db`         | these two tables, `device` (its `deviceId` only) and `used_refresh_token` |
| `StoreError` | what `oauth_store.rs` turns into `OAuthError::ServerError`, and its panics |
| `Codec`      | `serde_json` on the two foreign types a row holds, `Ulid::from_str` |
| `RequestData`, `TokenData` | the trait's data (`rsky_oauth`) |

Times are stored in whole seconds. `secs_to_offset` casts a `u64` to an `i64` before it checks the
range: what `offset_to_secs` gives back is the same number below `2 ^ 63` only
(`offsetToSecs_eq_iff`).
-/
namespace CacosPds.Account.Oauth

open Stages Sql

structure AuthorizationRequestRow where
  requestId : String
  did : Option String
  deviceId : Option DbId
  externalDeviceId : Option String
  clientId : String
  clientAuth : String
  parameters : String
  expiresAt : Int
  code : Option String
  deriving DecidableEq

structure TokenRow where
  did : String
  tokenId : String
  createdAt : Int
  updatedAt : Int
  expiresAt : Int
  clientId : String
  clientAuth : String
  deviceId : Option DbId
  externalDeviceId : Option String
  parameters : String
  details : Option String
  code : Option String
  currentRefreshToken : Option String
  scope : Option String
  deriving DecidableEq

@[ext] structure Db where
  device : Table DbId String
  authorizationRequest : Table DbId AuthorizationRequestRow
  token : Table DbId TokenRow
  /-- `refreshToken` to `tokenId`, which references `token.id`, on delete cascade. -/
  usedRefreshToken : Table String DbId

def Db.empty : Db := ⟨∅, ∅, ∅, ∅⟩

inductive StoreError where
  /-- A text of the source's own. -/
  | serverError (err : String)
  /-- A database error, by its text. -/
  | database (err : String)
  /-- A row that would violate the named unique index. -/
  | unique (index : String)
  /-- A `serde_json` error, by its text. -/
  | json (err : String)
  /-- `expect`. -/
  | panic (expected : String)
  deriving DecidableEq

abbrev Call (α : Type) := Stages.Call Db StoreError α

/-- A statement: the database fails it, a constraint refuses it, or it is applied. -/
def execute (fault : Option String) (refuse : Db → Option StoreError) (f : Db → Db) : Call Unit :=
  statement (fun s => (fault.map .database).or (refuse s)) f

theorem does_execute (fault : Option String) (refuse : Db → Option StoreError) (f : Db → Db) :
    Does (execute fault refuse f) (fun s => fault = none ∧ refuse s = none) f :=
  (does_statement _ f).congr (fun s => by cases fault <;> simp) fun _ _ => rfl

theorem clean_execute (fault : Option String) (refuse : Db → Option StoreError) (f : Db → Db) :
    Clean (execute fault refuse f) :=
  clean_statement _ f

/-- A query. -/
def query {α : Type} (fault : Option String) (f : Db → α) : Call α := do
  attempt (fault.map .database)
  let s ← get
  return f s

theorem exec_query {α : Type} (fault : Option String) (f : Db → α) (s : Db) :
    (query fault f).exec s = (fault.elim (.ok (f s)) fun e => .error (.database e), s) := by
  rw [query, exec_bind, exec_attempt]
  cases fault <;> rfl

theorem query_ok {α : Type} {fault : Option String} {f : Db → α} {s t : Db} {a : α} :
    (query fault f).exec s = (.ok a, t) ↔ fault = none ∧ a = f s ∧ t = s := by
  rw [exec_query]
  cases fault <;> simp [eq_comm]

theorem reads_query {α : Type} (fault : Option String) (f : Db → α) : Reads (query fault f) := by
  intro s
  rw [exec_query]

/-! ## Values -/

/-- `OffsetDateTime::from_unix_timestamp(secs as i64)`, in the years -9999 to 9999. -/
def secsToOffset (secs : UInt64) : Option Int :=
  let i := secs.toBitVec.toInt
  if -377705116800 ≤ i ∧ i ≤ 253402300799 then some i else none

/-- `unix_timestamp().max(0) as u64`. -/
def offsetToSecs (o : Int) : UInt64 := UInt64.ofNat o.toNat

theorem offsetToSecs_eq_iff {secs : UInt64} {o : Int} (h : secsToOffset secs = some o) :
    offsetToSecs o = secs ↔ secs.toNat < 2 ^ 63 := by
  dsimp only [secsToOffset] at h
  split at h
  · cases h
    have hlt := secs.toNat_lt
    have hsame : secs.toBitVec.toNat = secs.toNat := rfl
    rw [offsetToSecs, ← UInt64.toNat_inj, UInt64.toNat_ofNat', BitVec.toInt_eq_toNat_cond, hsame]
    split <;> omega
  · cases h

structure Codec (Auth Params : Type) where
  authToJson : Auth → Except String String
  authFromJson : String → Except String Auth
  paramsToJson : Params → Except String String
  paramsFromJson : String → Except String Params
  fromStr : String → Option DbId
  scope : Params → String
  /-- What is written as JSON is read back as it was. -/
  auth_round : ∀ {auth json}, authToJson auth = .ok json → authFromJson json = .ok auth
  params_round : ∀ {params json}, paramsToJson params = .ok json → paramsFromJson json = .ok params

variable {Auth Params : Type}

structure RequestData (Auth Params : Type) where
  clientId : String
  clientAuth : Auth
  parameters : Params
  expiresAt : UInt64
  deviceId : Option String
  did : Option String
  code : Option String

structure TokenData (Auth Params : Type) where
  createdAt : UInt64
  updatedAt : UInt64
  expiresAt : UInt64
  clientId : String
  clientAuth : Auth
  deviceId : Option String
  did : String
  parameters : Params
  code : Option String

def toJson (json : Except String String) : Except StoreError String := json.mapError .json

def fromJson {α : Type} (value : Except String α) : Except StoreError α := value.mapError .json

def offset (secs : UInt64) : Except StoreError Int :=
  match secsToOffset secs with
  | some o => .ok o
  | none => .error (.panic "unix seconds within time range")

theorem offset_ok {secs : UInt64} {o : Int} : offset secs = .ok o ↔ secsToOffset secs = some o := by
  unfold offset
  cases secsToOffset secs <;> simp

/-- `device_id_from_external`. -/
def deviceIdFromExternal (fault : Option String) (deviceId : String) : Call (Option DbId) :=
  query fault fun s => (s.device.one fun _ id => id = deviceId).map Prod.fst

/-- The `match &data.device_id` of the writers. -/
def deviceDbId (fault : Option String) : Option String → Call (Option DbId)
  | some external => deviceIdFromExternal fault external
  | none => pure none

theorem deviceDbId_ok {fault external : Option String} {s t : Db} {deviceId : Option DbId} :
    (deviceDbId fault external).exec s = (.ok deviceId, t) ↔
      (external = none ∨ fault = none) ∧
        deviceId = external.bind (fun d => (s.device.one fun _ id => id = d).map Prod.fst) ∧ t = s := by
  cases external with
  | none => simp [deviceDbId, eq_comm]
  | some d =>
    rw [deviceDbId, deviceIdFromExternal, query_ok]
    simp

theorem reads_deviceDbId (fault external : Option String) : Reads (deviceDbId fault external) := by
  intro s
  cases external with
  | none => rfl
  | some d => rw [deviceDbId, deviceIdFromExternal, exec_query]

theorem exists_deviceDbId {fault external : Option String} (h : external = none ∨ fault = none)
    (s : Db) : ∃ deviceId, (deviceDbId fault external).exec s = (.ok deviceId, s) :=
  ⟨_, deviceDbId_ok.2 ⟨h, rfl, rfl⟩⟩

/-- Texts that are their own JSON; one of them is a surrogate key's. -/
def plainCodec : Codec String String where
  authToJson := .ok
  authFromJson := .ok
  paramsToJson := .ok
  paramsFromJson := .ok
  fromStr text := if text = "00000000000000000000000001" then some ⟨1, DbId.one_isLt⟩ else none
  scope := id
  auth_round h := h.symm ▸ rfl
  params_round h := h.symm ▸ rfl

end CacosPds.Account.Oauth
