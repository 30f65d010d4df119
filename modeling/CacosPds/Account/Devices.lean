import CacosPds.Account.Lifecycle
import CacosPds.Account.OauthTables
import CacosPds.Lib.ForeignKeys
import CacosPds.Server.Prepare
import Mathlib.Data.Prod.Lex
/-!
# Devices and consents (`account/oauth_store.rs:510-732`)

| here | there |
| --- | --- |
| `DeviceRow`, `AccountDeviceRow`, `AuthorizedClientRow` | the rows of `device`, `account_device`, `authorized_client` (`m20260801_000001_account.rs:398-545`) |
| `DeviceDb`   | these tables beside those of the accounts, which two of them reference |
| `DeviceStore` | the database, and the id that `DbId::new` drew last |
| `createDevice` … `getAuthorizedClientScope` | the methods of `PdsOAuthStore`, with the error of each of their statements |
| `DeviceCall.accounts` | any other statement, on `actor` and `account`; rows that reference a deleted account go with it |
| `JsonText`   | `serde_json` on the one object that `authorized_client.data` holds |

`device` has a surrogate key, by which `account_device` names the device; the methods take the text that
the browser knows. An insert that fails is taken for a conflict: `upsert_device_account` and
`set_authorized_client` go on with an `UPDATE`, whatever the error was.
-/
namespace CacosPds.Account.Devices

open Stages Sql
open Server (JsonValue)
open CacosPds.Account.Oauth (StoreError offset offsetToSecs fromJson)

/-! ## Tables -/

structure DeviceRow where
  deviceId : String
  sessionId : String
  userAgent : Option String
  ipAddress : String
  lastSeenAt : Int
  deriving DecidableEq

structure AccountDeviceRow where
  createdAt : Int
  updatedAt : Int

structure AuthorizedClientRow where
  createdAt : Int
  updatedAt : Int
  data : String

@[ext] structure DeviceDb where
  accounts : Account.Db
  device : Table DbId DeviceRow
  /-- By `(deviceId, did)`. -/
  accountDevice : Table (DbId × String) AccountDeviceRow
  /-- By `(did, clientId)`. -/
  authorizedClient : Table (String × String) AuthorizedClientRow

abbrev Call (α : Type) := Stages.Call DeviceDb StoreError α

def execute (fault : Option String) (refuse : DeviceDb → Option StoreError)
    (f : DeviceDb → DeviceDb) : Call Unit :=
  statement (fun s => (fault.map .database).or (refuse s)) f

def query {α : Type} (fault : Option String) (f : DeviceDb → α) : Call α := do
  attempt (fault.map .database)
  let s ← get
  return f s

/-- The accounts become others; `ON DELETE CASCADE`. -/
def DeviceDb.withAccounts (accounts : Account.Db) (s : DeviceDb) : DeviceDb where
  accounts := accounts
  device := s.device
  accountDevice := s.accountDevice.cascade (fun k _ => k.2) s.accounts.account accounts.account
  authorizedClient := s.authorizedClient.cascade (fun k _ => k.1) s.accounts.account accounts.account

/-! ## Data -/

structure DeviceData where
  sessionId : String
  userAgent : Option String
  ipAddress : String
  lastSeenAt : UInt64
  deriving DecidableEq

structure AccountInfo where
  did : String
  handle : Option String
  email : Option String
  deactivated : Bool
  deriving DecidableEq

def actorToAccountInfo (actor : ActorAccount) : AccountInfo where
  did := actor.did
  handle := actor.handle
  email := actor.email
  deactivated := actor.deactivatedAt.isSome

def rowToDeviceData (row : DeviceRow) : DeviceData where
  sessionId := row.sessionId
  userAgent := row.userAgent
  ipAddress := row.ipAddress
  lastSeenAt := offsetToSecs row.lastSeenAt

def isAsciiWhitespace (c : Char) : Bool :=
  c = ' ' || c = '\t' || c = '\n' || c = '\x0C' || c = '\r'

def splitAsciiWhitespace (s : String) : List String :=
  ((s.toList.splitOnP isAsciiWhitespace).filter (· ≠ [])).map String.ofList

def index (key : String) : JsonValue → JsonValue
  | .object map => (map.lookup key).getD .null
  | _ => .null

def asArray : JsonValue → Option (List JsonValue)
  | .array list => some list
  | _ => none

def asStr : JsonValue → Option String
  | .string s => some s
  | _ => none

/-- `json!({ "authorizedScopes": authorized_scopes })`. -/
def authorizedScopes (scopes : List String) : JsonValue :=
  .object [("authorizedScopes", .array (scopes.map .string))]

/-- The scopes of a parsed object, joined by blanks. -/
def joinedScopes (parsed : JsonValue) : String :=
  ((asArray (index "authorizedScopes" parsed)).map fun arr =>
    " ".intercalate (arr.filterMap asStr)).getD ""

structure JsonText where
  toString : JsonValue → String
  fromStr : String → Except String JsonValue
  /-- What is written is read back. -/
  fromStr_toString : ∀ scopes : List String,
    fromStr (toString (authorizedScopes scopes)) = .ok (authorizedScopes scopes)

/-! ## Devices -/

/-- `get_account`: deactivated accounts are found as well. -/
def storeAccount (did : String) (accounts : Account.Db) : Option AccountInfo :=
  (findAccount did (some ⟨none, some true⟩) accounts).map actorToAccountInfo

def getAccountInfo (fault : Option String) (did : String) : Call (Option AccountInfo) :=
  query fault fun s => storeAccount did s.accounts

/-- The `SELECT` by `deviceId`. -/
def findDevice (deviceId : String) (s : DeviceDb) : Option (DbId × DeviceRow) :=
  s.device.one fun _ r => r.deviceId = deviceId

/-- `device_id_from_external`. -/
def deviceKey (fault : Option String) (deviceId : String) : Call (Option DbId) :=
  query fault fun s => (findDevice deviceId s).map Prod.fst

/-- Why a row of `device` would violate a unique index. -/
def refuseDevice (s : DeviceDb) (id : DbId) (deviceId sessionId : String) : Option StoreError :=
  if s.device.taken (fun r => some r.deviceId) id (some deviceId) then
    some (.unique "uq_device_device_id")
  else if s.device.taken (fun r => some r.sessionId) id (some sessionId) then
    some (.unique "uq_device_session_id")
  else none

/-- `newId` is `DbId::new()`. -/
def createDevice (fault : Option String) (newId : DbId) (deviceId : String) (data : DeviceData) :
    Call Unit := do
  let lastSeenAt ← ofExcept (offset data.lastSeenAt)
  execute fault
    (fun s =>
      if newId ∈ s.device then some (.unique "device.id")
      else refuseDevice s newId deviceId data.sessionId)
    fun s => { s with
      device := s.device.insert newId
        ⟨deviceId, data.sessionId, data.userAgent, data.ipAddress, lastSeenAt⟩ }

def readDevice (fault : Option String) (deviceId : String) : Call (Option DeviceData) :=
  query fault fun s => (findDevice deviceId s).map fun kr => rowToDeviceData kr.2

/-- The columns that `update_device` sets. -/
def setDevice (data : DeviceData) (lastSeenAt : Int) (row : DeviceRow) : DeviceRow where
  deviceId := row.deviceId
  sessionId := data.sessionId
  userAgent := data.userAgent
  ipAddress := data.ipAddress
  lastSeenAt := lastSeenAt

def updateDevice (select update : Option String) (deviceId : String) (data : DeviceData) :
    Call Unit := do
  let row ← query select (findDevice deviceId)
  match row with
  | none => throw (.serverError ("unknown device: " ++ deviceId))
  | some (id, _) =>
    let lastSeenAt ← ofExcept (offset data.lastSeenAt)
    execute update (fun s => refuseDevice s id deviceId data.sessionId) fun s =>
      { s with device := s.device.update id (setDevice data lastSeenAt) }

/-! ## The accounts of a device -/

/-- Why a row of `account_device` would be refused. -/
def refuseLink (s : DeviceDb) (id : DbId) (did : String) : Option StoreError :=
  if (id, did) ∈ s.accountDevice then some (.unique "pk_account_device")
  else if did ∉ s.accounts.account then some (.database "FOREIGN KEY constraint failed")
  else if id ∉ s.device then some (.database "FOREIGN KEY constraint failed")
  else none

def insertLink (fault : Option String) (id : DbId) (did : String) (now : Int) : Call Unit :=
  execute fault (refuseLink · id did) fun s =>
    { s with accountDevice := s.accountDevice.insert (id, did) ⟨now, now⟩ }

def upsertDeviceAccount (device insert update : Option String) (now : Int) (deviceId did : String) :
    Call Unit := do
  let id ← deviceKey device deviceId
  match id with
  | none => throw (.serverError ("unknown device: " ++ deviceId))
  | some id =>
    let insert ← outcome (insertLink insert id did now)
    if !insert.isOk then
      execute update (fun _ => none) fun s => { s with
        accountDevice := s.accountDevice.update (id, did) fun r => { r with updatedAt := now } }

def getDeviceAccount (device link account : Option String) (deviceId did : String) :
    Call (Option AccountInfo) := do
  let id ← deviceKey device deviceId
  match id with
  | none => return none
  | some id =>
    let row ← query link fun s => s.accountDevice.lookup (id, did)
    match row with
    | some _ => getAccountInfo account did
    | none => return none

/-- The accounts that rows of one device name, in the order of the primary key. -/
def linkedDids (id : DbId) (s : DeviceDb) : List String :=
  (s.accountDevice.selectBy (fun k _ => k.1 = id) (fun k _ => toLex k) ofLex).map fun kr => kr.1.2

def listDeviceAccounts (device links : Option String) (account : String → Option String)
    (deviceId : String) : Call (List AccountInfo) := do
  let id ← deviceKey device deviceId
  match id with
  | none => return []
  | some id =>
    let dids ← query links (linkedDids id)
    let found ← dids.mapM fun did => getAccountInfo (account did) did
    return found.filterMap fun account => account

def removeDeviceAccount (device delete : Option String) (deviceId did : String) : Call Unit := do
  let id ← deviceKey device deviceId
  match id with
  | none => return ()
  | some id =>
    execute delete (fun _ => none) fun s =>
      { s with accountDevice := s.accountDevice.erase (id, did) }

/-! ## Consents -/

def setAuthorizedClient (J : JsonText) (insert update : Option String) (now : Int)
    (did clientId scope : String) : Call Unit := do
  let data := J.toString (authorizedScopes (splitAsciiWhitespace scope))
  let insertRes ← outcome <| execute insert
    (fun s =>
      if did ∈ s.accounts.account then none
      else some (.database "FOREIGN KEY constraint failed"))
    fun s => { s with
      authorizedClient := s.authorizedClient.upsert (did, clientId) ⟨now, now, data⟩
        fun r => { r with updatedAt := now, data } }
  if !insertRes.isOk then
    execute update (fun _ => none) fun s => { s with
      authorizedClient := s.authorizedClient.update (did, clientId)
        fun r => { r with updatedAt := now, data } }

def getAuthorizedClientScope (J : JsonText) (fault : Option String) (did clientId : String) :
    Call (Option String) := do
  let row ← query fault fun s => s.authorizedClient.lookup (did, clientId)
  match row with
  | none => return none
  | some row =>
    let parsed ← ofExcept (fromJson (J.fromStr row.data))
    return some (joinedScopes parsed)

/-! ## Calls -/

structure DeviceStore where
  db : DeviceDb
  /-- What the generator behind `DbId::new` drew last. -/
  lastId : DbId

inductive DeviceCall where
  | createDevice (fault : Option String) (now rnd : Nat) (deviceId : String) (data : DeviceData)
  | readDevice (fault : Option String) (deviceId : String)
  | updateDevice (select update : Option String) (deviceId : String) (data : DeviceData)
  | upsertDeviceAccount (device insert update : Option String) (now : Int) (deviceId did : String)
  | getDeviceAccount (device link account : Option String) (deviceId did : String)
  | listDeviceAccounts (device links : Option String) (account : String → Option String)
      (deviceId : String)
  | removeDeviceAccount (device delete : Option String) (deviceId did : String)
  | setAuthorizedClient (insert update : Option String) (now : Int) (did clientId scope : String)
  | getAuthorizedClientScope (fault : Option String) (did clientId : String)
  | getAccount (fault : Option String) (did : String)
  /-- The accounts become others. -/
  | accounts (accounts : Account.Db)
  /-- An id for another table is drawn. -/
  | draw (now rnd : Nat)

inductive DeviceAnswer where
  | unit (r : Except StoreError Unit)
  | device (r : Except StoreError (Option DeviceData))
  | account (r : Except StoreError (Option AccountInfo))
  | accounts (r : Except StoreError (List AccountInfo))
  | scope (r : Except StoreError (Option String))

/-- A call on a store of any kind. -/
def answer {σ α : Type} (wrap : Except StoreError α → DeviceAnswer) (x : Stages.Call σ StoreError α)
    (s : σ) : DeviceAnswer × σ :=
  (wrap (x.exec s).1, (x.exec s).2)

/-- What a call does to the database; `newId` is the id it would draw. -/
def callDb (J : JsonText) (newId : DbId) (s : DeviceDb) : DeviceCall → DeviceAnswer × DeviceDb
  | .createDevice fault _ _ deviceId data => answer .unit (createDevice fault newId deviceId data) s
  | .readDevice fault deviceId => answer .device (readDevice fault deviceId) s
  | .updateDevice select update deviceId data =>
    answer .unit (updateDevice select update deviceId data) s
  | .upsertDeviceAccount device insert update now deviceId did =>
    answer .unit (upsertDeviceAccount device insert update now deviceId did) s
  | .getDeviceAccount device link account deviceId did =>
    answer .account (getDeviceAccount device link account deviceId did) s
  | .listDeviceAccounts device links account deviceId =>
    answer .accounts (listDeviceAccounts device links account deviceId) s
  | .removeDeviceAccount device delete deviceId did =>
    answer .unit (removeDeviceAccount device delete deviceId did) s
  | .setAuthorizedClient insert update now did clientId scope =>
    answer .unit (setAuthorizedClient J insert update now did clientId scope) s
  | .getAuthorizedClientScope fault did clientId =>
    answer .scope (getAuthorizedClientScope J fault did clientId) s
  | .getAccount fault did => answer .account (getAccountInfo fault did) s
  | .accounts accounts => (.unit (.ok ()), s.withAccounts accounts)
  | .draw _ _ => (.unit (.ok ()), s)

/-- The id that is drawn last when the call is over. -/
def drawn (G : UlidGenerator) (last : DbId) : DeviceCall → DbId
  | .createDevice _ now rnd _ _ | .draw now rnd => DbId.new G last now rnd
  | _ => last

def callStore (G : UlidGenerator) (J : JsonText) (s : DeviceStore) (call : DeviceCall) :
    DeviceAnswer × DeviceStore :=
  let out := callDb J (drawn G s.lastId call) s.db call
  (out.1, ⟨out.2, drawn G s.lastId call⟩)

end CacosPds.Account.Devices
