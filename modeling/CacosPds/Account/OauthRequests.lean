import CacosPds.Account.OauthTables
import CacosPds.Lib.Run
/-!
# Authorization requests (`account/oauth_store.rs:191-285`)

| here | there |
| --- | --- |
| `createRequest`, `readRequest`, `updateRequest`, `deleteRequest`, `consumeRequestCode` | the methods of `PdsOAuthStore` |
| `Spec`     | what they stand for: a finite map of requests, and the codes that have been consumed |
| `Conforms` | a call answers as the map does, and leaves a store that reads as the map |
| `Meets`    | when it does |

The rows have two keys, the request's own id and a surrogate. All methods go by the first one, but
`read_request` tries the second where the first is not found. `update_request` sets every column but
`clientId`.
-/
namespace CacosPds.Account.Oauth

open Stages Runs Sql

variable {Auth Params : Type} (K : Codec Auth Params)

/-- `row_to_request_data`. -/
def rowToRequestData (row : AuthorizationRequestRow) :
    Except StoreError (RequestData Auth Params) := do
  let clientAuth ← fromJson (K.authFromJson row.clientAuth)
  let parameters ← fromJson (K.paramsFromJson row.parameters)
  return {
    clientId := row.clientId
    clientAuth
    parameters
    expiresAt := offsetToSecs row.expiresAt
    deviceId := row.externalDeviceId
    did := row.did
    code := row.code }

/-- The columns whose values have to be made first. -/
structure RequestColumns where
  clientAuth : String
  parameters : String
  expiresAt : Int

def requestColumns (data : RequestData Auth Params) : Except StoreError RequestColumns := do
  let clientAuth ← toJson (K.authToJson data.clientAuth)
  let parameters ← toJson (K.paramsToJson data.parameters)
  let expiresAt ← offset data.expiresAt
  return ⟨clientAuth, parameters, expiresAt⟩

/-- Why a new row would violate the primary key or a unique index. -/
def refuseRequest (s : Db) (newId : DbId) (id : String) (code : Option String) : Option StoreError :=
  if newId ∈ s.authorizationRequest then some (.unique "authorization_request.id")
  else if s.authorizationRequest.taken (fun r => some r.requestId) newId (some id) then
    some (.unique "uq_authorization_request_request_id")
  else if s.authorizationRequest.taken (·.code) newId code then
    some (.unique "authorization_request_code_idx")
  else none

def insertRequest (fault : Option String) (newId : DbId) (row : AuthorizationRequestRow) :
    Call Unit :=
  execute fault (refuseRequest · newId row.requestId row.code) fun s =>
    { s with authorizationRequest := s.authorizationRequest.insert newId row }

/-- The row that `create_request` inserts. -/
def requestRow (id : String) (data : RequestData Auth Params) (deviceId : Option DbId)
    (columns : RequestColumns) : AuthorizationRequestRow where
  requestId := id
  did := data.did
  deviceId := deviceId
  externalDeviceId := data.deviceId
  clientId := data.clientId
  clientAuth := columns.clientAuth
  parameters := columns.parameters
  expiresAt := columns.expiresAt
  code := data.code

/-- `newId` is `DbId::new()`. -/
def createRequest (device insert : Option String) (newId : DbId) (id : String)
    (data : RequestData Auth Params) : Call Unit := do
  let deviceId ← deviceDbId device data.deviceId
  let columns ← ofExcept (requestColumns K data)
  insertRequest insert newId (requestRow id data deviceId columns)

/-- By the request's id, else by the surrogate that the id is the text of. -/
def readRequest (byId byKey : Option String) (id : String) :
    Call (Option (RequestData Auth Params)) := do
  let row ← query byId fun s => s.authorizationRequest.one fun _ r => r.requestId = id
  let row ← match row with
    | some (_, r) => pure (some r)
    | none =>
      match K.fromStr id with
      | some dbid => query byKey fun s => s.authorizationRequest.lookup dbid
      | none => pure none
  match row with
  | none => return none
  | some r =>
    let data ← ofExcept (rowToRequestData K r)
    return some data

/-- The columns that `update_request` sets. -/
def setRequest (data : RequestData Auth Params) (deviceId : Option DbId) (columns : RequestColumns)
    (row : AuthorizationRequestRow) : AuthorizationRequestRow :=
  { row with
    did := data.did
    deviceId
    externalDeviceId := data.deviceId
    clientAuth := columns.clientAuth
    parameters := columns.parameters
    expiresAt := columns.expiresAt
    code := data.code }

def updateRequest (select device update : Option String) (id : String)
    (data : RequestData Auth Params) : Call Unit := do
  let row ← query select fun s => s.authorizationRequest.one fun _ r => r.requestId = id
  match row with
  | none => throw (.serverError ("unknown request id: " ++ id))
  | some (pk, _) =>
    let deviceId ← deviceDbId device data.deviceId
    let columns ← ofExcept (requestColumns K data)
    execute update
      (fun s =>
        if s.authorizationRequest.taken (·.code) pk data.code then
          some (.unique "authorization_request_code_idx")
        else none)
      fun s => { s with
        authorizationRequest := s.authorizationRequest.update pk (setRequest data deviceId columns) }

/-- `DELETE … WHERE p RETURNING *`. -/
def deleteRequests (fault : Option String) (p : DbId → AuthorizationRequestRow → Bool) :
    Call (List (DbId × AuthorizationRequestRow)) := do
  let rows ← query fault fun s => s.authorizationRequest.rows p
  modify fun s => { s with authorizationRequest := s.authorizationRequest.deleteWhere p }
  return rows

def deleteRequest (fault : Option String) (id : String) : Call Unit := do
  let rows ← deleteRequests fault fun _ r => r.requestId = id
  if rows.isEmpty then throw (.serverError ("unknown request id: " ++ id))

def consumeRequestCode (fault : Option String) (code : String) :
    Call (Option (String × RequestData Auth Params)) := do
  let deleted ← deleteRequests fault fun _ r => r.code = some code
  match deleted.head? with
  | none => return none
  | some (_, row) =>
    let data ← ofExcept (rowToRequestData K row)
    return some (row.requestId, data)

/-! ## The finite map -/

/-- The requests that have been created under an id and not deleted or consumed since, each as it was
last written, and the codes that have been consumed. -/
structure Spec (Auth Params : Type) where
  requests : Table String (RequestData Auth Params)
  consumed : Finset String

structure World (Auth Params : Type) where
  db : Db
  spec : Spec Auth Params

inductive Action (Auth Params : Type) where
  | create (device insert : Option String) (newId : DbId) (id : String)
      (data : RequestData Auth Params)
  | read (byId byKey : Option String) (id : String)
  | update (select device update : Option String) (id : String) (data : RequestData Auth Params)
  | delete (fault : Option String) (id : String)
  | consume (fault : Option String) (code : String)

inductive Answer (Auth Params : Type) where
  | done
  | read (found : Option (RequestData Auth Params))
  | consumed (found : Option (String × RequestData Auth Params))

def perform : Action Auth Params → Call (Answer Auth Params)
  | .create device insert newId id data => do
    createRequest K device insert newId id data
    return .done
  | .read byId byKey id => do
    let found ← readRequest K byId byKey id
    return .read found
  | .update select device update id data => do
    updateRequest K select device update id data
    return .done
  | .delete fault id => do
    deleteRequest fault id
    return .done
  | .consume fault code => do
    let found ← consumeRequestCode K fault code
    return .consumed found

/-- The map after a call that has succeeded. -/
def Spec.after (S : Spec Auth Params) : Action Auth Params → Answer Auth Params → Spec Auth Params
  | .create _ _ _ id data, _ | .update _ _ _ id data, _ =>
    { S with requests := S.requests.insert id data }
  | .delete _ id, _ => { S with requests := S.requests.erase id }
  | .consume _ code, .consumed (some (id, _)) =>
    ⟨S.requests.erase id, insert code S.consumed⟩
  | _, _ => S

/-- A call that fails changes nothing of the map. -/
def step (W : World Auth Params) (a : Action Auth Params) : Option (World Auth Params) :=
  match (perform K a).exec W.db with
  | (.ok answer, db) => some ⟨db, W.spec.after a answer⟩
  | (.error _, db) => some ⟨db, W.spec⟩

/-- A database without requests yet. -/
def World.start (db : Db) : World Auth Params := ⟨{ db with authorizationRequest := ∅ }, ⟨∅, ∅⟩⟩

/-- The answer is the map's. -/
def Spec.Answers (S : Spec Auth Params) : Action Auth Params → Answer Auth Params → Prop
  | .create _ _ _ id _, .done => id ∉ S.requests
  | .read _ _ id, .read found => found = S.requests.lookup id
  | .update _ _ _ id _, .done | .delete _ id, .done => id ∈ S.requests
  | .consume _ code, .consumed none =>
    ∀ id data, S.requests.lookup id = some data → data.code ≠ some code
  | .consume _ code, .consumed (some (id, data)) =>
    S.requests.lookup id = some data ∧ data.code = some code ∧ code ∉ S.consumed
  | _, _ => False

/-- The store reads as the map, and hands out no code a second time. -/
structure ReadsAs (W : World Auth Params) : Prop where
  read : ∀ id data, W.spec.requests.lookup id = some data →
    ((readRequest K none none id).exec W.db).1 = .ok (some data)
  once : ∀ code ∈ W.spec.consumed, ((consumeRequestCode K none code).exec W.db).1 = .ok none

def Conforms (W : World Auth Params) (a : Action Auth Params) : Prop :=
  (∀ answer db, (perform K a).exec W.db = (.ok answer, db) → W.spec.Answers a answer) ∧
    ∀ W', step K W a = some W' → ReadsAs K W'

/-! ## The condition -/

/-- Data that a row can keep, and whose code has not been consumed. -/
def Durable (S : Spec Auth Params) (data : RequestData Auth Params) : Prop :=
  data.expiresAt.toNat < 2 ^ 63 ∧ ∀ code, data.code = some code → code ∉ S.consumed

/-- A `create_request` that goes through. -/
def Creates (s : Db) (device insert : Option String) (newId : DbId) (id : String)
    (data : RequestData Auth Params) : Prop :=
  (data.deviceId = none ∨ device = none) ∧ (∃ columns, requestColumns K data = .ok columns) ∧
    insert = none ∧ refuseRequest s newId id data.code = none

/-- An `update_request` that goes through to the row of `pk`. -/
def Updates (s : Db) (select device update : Option String) (id : String)
    (data : RequestData Auth Params) (pk : DbId) (row : AuthorizationRequestRow) : Prop :=
  select = none ∧ s.authorizationRequest.lookup pk = some row ∧ row.requestId = id ∧
    (data.deviceId = none ∨ device = none) ∧ (∃ columns, requestColumns K data = .ok columns) ∧
    update = none ∧ s.authorizationRequest.taken (·.code) pk data.code = false

/-- The condition on a call. -/
def Meets (W : World Auth Params) : Action Auth Params → Prop
  | .create device insert newId id data =>
    Creates K W.db device insert newId id data → Durable W.spec data
  | .update select device update id data =>
    ∀ pk row, Updates K W.db select device update id data pk row →
      row.clientId = data.clientId ∧ Durable W.spec data
  | .read byId byKey id => byId = none → byKey = none → id ∉ W.spec.requests →
      ∀ pk, K.fromStr id = some pk → pk ∉ W.db.authorizationRequest
  | .delete _ _ | .consume _ _ => True

/-! ## What the methods do -/

section

variable {K}

theorem createRequest_ok {device insert : Option String} {newId : DbId} {id : String}
    {data : RequestData Auth Params} {s t : Db} :
    (createRequest K device insert newId id data).exec s = (.ok (), t) ↔
      ∃ deviceId columns, (deviceDbId device data.deviceId).exec s = (.ok deviceId, s) ∧
        requestColumns K data = .ok columns ∧ insert = none ∧
        refuseRequest s newId id data.code = none ∧
        t = { s with authorizationRequest :=
          s.authorizationRequest.insert newId (requestRow id data deviceId columns) } := by
  simp only [createRequest, exec_bind_ok, exec_ofExcept, Prod.mk.injEq]
  constructor
  · rintro ⟨deviceId, u, hdevice, columns, v, ⟨hcolumns, rfl⟩, hinsert⟩
    obtain rfl := (reads_deviceDbId _ _).eq hdevice
    obtain ⟨⟨hfault, hrefuse⟩, rfl⟩ := (does_execute _ _ _ _ _).1 hinsert
    exact ⟨deviceId, columns, hdevice, hcolumns, hfault, hrefuse, rfl⟩
  · rintro ⟨deviceId, columns, hdevice, hcolumns, hfault, hrefuse, rfl⟩
    exact ⟨deviceId, s, hdevice, columns, s, ⟨hcolumns, rfl⟩,
      (does_execute _ _ _ _ _).2 ⟨⟨hfault, hrefuse⟩, rfl⟩⟩

theorem clean_createRequest (device insert : Option String) (newId : DbId) (id : String)
    (data : RequestData Auth Params) : Clean (createRequest K device insert newId id data) :=
  (reads_deviceDbId _ _).bind_clean fun _ => (reads_ofExcept _).bind_clean fun _ =>
    clean_execute _ _ _

theorem updateRequest_ok {select device update : Option String} {id : String}
    {data : RequestData Auth Params} {s t : Db} :
    (updateRequest K select device update id data).exec s = (.ok (), t) ↔
      ∃ pk row deviceId columns, select = none ∧
        s.authorizationRequest.one (fun _ r => r.requestId = id) = some (pk, row) ∧
        (deviceDbId device data.deviceId).exec s = (.ok deviceId, s) ∧
        requestColumns K data = .ok columns ∧ update = none ∧
        s.authorizationRequest.taken (·.code) pk data.code = false ∧
        t = { s with authorizationRequest :=
          s.authorizationRequest.update pk (setRequest data deviceId columns) } := by
  rw [updateRequest, exec_bind_ok]
  constructor
  · rintro ⟨found, u, hquery, h⟩
    obtain ⟨hselect, rfl, rfl⟩ := query_ok.1 hquery
    cases hone : u.authorizationRequest.one fun _ r => r.requestId = id with
    | none =>
      rw [hone] at h
      cases h
    | some found =>
      obtain ⟨pk, row⟩ := found
      rw [hone] at h
      simp only [exec_bind_ok, exec_ofExcept, Prod.mk.injEq] at h
      obtain ⟨deviceId, v, hdevice, columns, w, ⟨hcolumns, rfl⟩, hupdate⟩ := h
      obtain rfl := (reads_deviceDbId _ _).eq hdevice
      obtain ⟨⟨hfault, hrefuse⟩, rfl⟩ := (does_execute _ _ _ _ _).1 hupdate
      refine ⟨pk, row, deviceId, columns, hselect, rfl, hdevice, hcolumns, hfault, ?_, rfl⟩
      split at hrefuse
      · cases hrefuse
      · exact eq_false_of_ne_true ‹_›
  · rintro ⟨pk, row, deviceId, columns, hselect, hone, hdevice, hcolumns, hfault, hfree, rfl⟩
    refine ⟨_, s, query_ok.2 ⟨hselect, rfl, rfl⟩, ?_⟩
    rw [hone]
    simp only [exec_bind_ok, exec_ofExcept, Prod.mk.injEq]
    refine ⟨deviceId, s, hdevice, columns, s, ⟨hcolumns, rfl⟩, (does_execute _ _ _ _ _).2 ⟨⟨hfault, ?_⟩, rfl⟩⟩
    rw [hfree]
    rfl

theorem clean_updateRequest (select device update : Option String) (id : String)
    (data : RequestData Auth Params) : Clean (updateRequest K select device update id data) := by
  refine (reads_query _ _).bind_clean fun found => ?_
  cases found with
  | none => exact (reads_throw _).clean
  | some found =>
    exact (reads_deviceDbId _ _).bind_clean fun _ => (reads_ofExcept _).bind_clean fun _ =>
      clean_execute _ _ _

theorem exec_deleteRequests (fault : Option String) (p : DbId → AuthorizationRequestRow → Bool)
    (s : Db) : (deleteRequests fault p).exec s =
      fault.elim (.ok (s.authorizationRequest.rows p),
        { s with authorizationRequest := s.authorizationRequest.deleteWhere p })
        fun e => (.error (.database e), s) := by
  rw [deleteRequests, exec_bind, exec_query]
  cases fault <;> rfl

theorem deleteRequest_ok {fault : Option String} {id : String} {s t : Db} :
    (deleteRequest fault id).exec s = (.ok (), t) ↔ fault = none ∧
      (∃ pk row, s.authorizationRequest.lookup pk = some row ∧ row.requestId = id) ∧
      t = { s with authorizationRequest :=
        s.authorizationRequest.deleteWhere fun _ r => r.requestId = id } := by
  rw [deleteRequest, exec_bind, exec_deleteRequests]
  cases fault with
  | some e => simp
  | none =>
    dsimp only [Option.elim]
    cases hrows : s.authorizationRequest.rows fun _ r => r.requestId = id with
    | nil =>
      refine iff_of_false (fun h => by cases h) ?_
      rintro ⟨-, ⟨pk, row, hl, hid⟩, -⟩
      exact of_decide_eq_false (Table.rows_eq_nil.1 hrows pk row hl) hid
    | cons found rest =>
      obtain ⟨hl, hid⟩ := Table.mem_rows.1 (hrows ▸ List.mem_cons_self : found ∈ _)
      have hfound : ∃ pk row, s.authorizationRequest.lookup pk = some row ∧ row.requestId = id :=
        ⟨found.1, found.2, hl, of_decide_eq_true hid⟩
      constructor
      · intro h
        cases h
        exact ⟨rfl, hfound, rfl⟩
      · rintro ⟨-, -, rfl⟩
        rfl

theorem clean_deleteRequest (fault : Option String) (id : String) :
    Clean (deleteRequest fault id) := by
  intro s e t h
  rw [deleteRequest, exec_bind, exec_deleteRequests] at h
  cases fault with
  | some e =>
    cases h
    rfl
  | none =>
    dsimp only [Option.elim] at h
    cases hrows : s.authorizationRequest.rows fun _ r => r.requestId = id with
    | nil =>
      rw [hrows] at h
      cases h
      rw [Table.deleteWhere_eq_self (Table.rows_eq_nil.1 hrows)]
    | cons found rest =>
      rw [hrows] at h
      cases h

theorem refuseRequest_eq_none {s : Db} {newId : DbId} {id : String} {code : Option String} :
    refuseRequest s newId id code = none ↔ newId ∉ s.authorizationRequest ∧
      s.authorizationRequest.taken (fun r => some r.requestId) newId (some id) = false ∧
      s.authorizationRequest.taken (·.code) newId code = false := by
  unfold refuseRequest
  split
  · simp [*]
  split
  · simp [*]
  split <;> simp [*]

theorem requestColumns_ok {data : RequestData Auth Params} {columns : RequestColumns}
    (h : requestColumns K data = .ok columns) :
    K.authFromJson columns.clientAuth = .ok data.clientAuth ∧
      K.paramsFromJson columns.parameters = .ok data.parameters ∧
      secsToOffset data.expiresAt = some columns.expiresAt := by
  obtain ⟨auth, hauth, h⟩ := except_bind_ok.1 h
  obtain ⟨params, hparams, h⟩ := except_bind_ok.1 h
  obtain ⟨expires, hexpires, h⟩ := except_bind_ok.1 h
  cases h
  exact ⟨K.auth_round (except_mapError_ok.1 hauth), K.params_round (except_mapError_ok.1 hparams),
    offset_ok.1 hexpires⟩

/-- Of a row that has been written, the columns that were set read as the data. -/
theorem rowToRequestData_setRequest {data : RequestData Auth Params} {columns : RequestColumns}
    (h : requestColumns K data = .ok columns) (deviceId : Option DbId)
    (row : AuthorizationRequestRow) :
    rowToRequestData K (setRequest data deviceId columns row) =
      .ok { data with clientId := row.clientId, expiresAt := offsetToSecs columns.expiresAt } := by
  obtain ⟨hauth, hparams, -⟩ := requestColumns_ok h
  simp only [rowToRequestData, setRequest, fromJson, hauth, hparams]
  rfl

theorem setRequest_reads_iff {data : RequestData Auth Params} {columns : RequestColumns}
    (h : requestColumns K data = .ok columns) (deviceId : Option DbId)
    (row : AuthorizationRequestRow) :
    rowToRequestData K (setRequest data deviceId columns row) = .ok data ↔
      row.clientId = data.clientId ∧ data.expiresAt.toNat < 2 ^ 63 := by
  obtain ⟨-, -, hexpires⟩ := requestColumns_ok h
  rw [rowToRequestData_setRequest h, ← offsetToSecs_eq_iff hexpires, Except.ok.injEq]
  constructor
  · intro he
    exact ⟨congrArg RequestData.clientId he, congrArg RequestData.expiresAt he⟩
  · rintro ⟨hclient, hexpires⟩
    rw [hclient, hexpires]

end

/-! ## The invariant -/

/-- The unique indexes. -/
structure Keyed (s : Db) : Prop where
  byRequestId : s.authorizationRequest.Indexed fun r => some r.requestId
  byCode : s.authorizationRequest.Indexed (·.code)

/-- The rows are the map's entries. -/
structure Agrees (W : World Auth Params) : Prop where
  keyed : Keyed W.db
  row : ∀ pk row, W.db.authorizationRequest.lookup pk = some row →
    ∃ data, W.spec.requests.lookup row.requestId = some data ∧ rowToRequestData K row = .ok data
  stored : ∀ id ∈ W.spec.requests,
    ∃ pk row, W.db.authorizationRequest.lookup pk = some row ∧ row.requestId = id
  once : ∀ pk row code, W.db.authorizationRequest.lookup pk = some row → row.code = some code →
    code ∉ W.spec.consumed

section

variable {K} {W : World Auth Params} {s : Db} {pk : DbId} {row : AuthorizationRequestRow} {id : String}

theorem rowToRequestData_code {data : RequestData Auth Params} (h : rowToRequestData K row = .ok data) :
    data.code = row.code := by
  obtain ⟨_, -, h⟩ := except_bind_ok.1 h
  obtain ⟨_, -, h⟩ := except_bind_ok.1 h
  cases h
  rfl

theorem Keyed.find (h : Keyed s) :
    s.authorizationRequest.one (fun _ r => r.requestId = id) = some (pk, row) ↔
      s.authorizationRequest.lookup pk = some row ∧ row.requestId = id := by
  rw [Table.one_eq_some_iff h.byRequestId fun _ r => by rw [decide_eq_true_eq, Option.some.injEq],
    Option.some.injEq]

theorem readRequest_found (h : Keyed s) (hl : s.authorizationRequest.lookup pk = some row)
    (hid : row.requestId = id) (byKey : Option String) :
    (readRequest K none byKey id).exec s = ((rowToRequestData K row).map some, s) := by
  rw [readRequest, exec_bind, exec_query, h.find.2 ⟨hl, hid⟩]
  simp only [Option.elim, exec_bind, exec_pure, exec_ofExcept]
  cases rowToRequestData K row <;> rfl

theorem readRequest_missing (h : ∀ pk row, s.authorizationRequest.lookup pk = some row →
    row.requestId ≠ id) (byKey : Option String) :
    (readRequest K none byKey id).exec s = match K.fromStr id with
      | none => (.ok none, s)
      | some dbid => (byKey.elim ((s.authorizationRequest.lookup dbid).elim (.ok none) fun row =>
          (rowToRequestData K row).map some) fun e => .error (.database e), s) := by
  have hone : s.authorizationRequest.one (fun _ r => r.requestId = id) = none :=
    Table.one_eq_none.2 fun pk row hl => decide_eq_false (h pk row hl)
  rw [readRequest, exec_bind, exec_query, hone]
  simp only [Option.elim]
  cases K.fromStr id with
  | none => rfl
  | some dbid =>
    simp only [exec_bind, exec_query]
    cases byKey with
    | some e => rfl
    | none =>
      simp only [Option.elim]
      cases s.authorizationRequest.lookup dbid with
      | none => rfl
      | some row =>
        simp only [exec_bind, exec_ofExcept]
        cases rowToRequestData K row <;> rfl

theorem Agrees.lookup_none (h : Agrees K W) (hid : id ∉ W.spec.requests) :
    ∀ pk row, W.db.authorizationRequest.lookup pk = some row → row.requestId ≠ id := by
  rintro pk row hl rfl
  obtain ⟨data, hdata, -⟩ := h.row pk row hl
  exact hid (Finmap.mem_of_lookup_eq_some hdata)

theorem Agrees.readsAs (h : Agrees K W) : ReadsAs K W where
  read id data hdata := by
    obtain ⟨pk, row, hl, hid⟩ := h.stored id (Finmap.mem_of_lookup_eq_some hdata)
    obtain ⟨data', hdata', hrow⟩ := h.row pk row hl
    obtain rfl : data = data' := by
      rw [hid] at hdata'
      exact Option.some.inj (hdata.symm.trans hdata')
    rw [readRequest_found h.keyed hl hid, hrow]
    rfl
  once code hcode := by
    have hrows : W.db.authorizationRequest.rows (fun _ r => r.code = some code) = [] :=
      Table.rows_eq_nil.2 fun pk row hl =>
        decide_eq_false fun hc => h.once pk row code hl hc hcode
    rw [consumeRequestCode, exec_bind, exec_deleteRequests]
    simp only [Option.elim, hrows]
    rfl

/-- A row is written under its request's id. -/
theorem Agrees.write (h : Agrees K W) {db : Db} {data : RequestData Auth Params} (hk : Keyed db)
    (hl : ∀ j, db.authorizationRequest.lookup j =
      if j = pk then some row else W.db.authorizationRequest.lookup j)
    (hid : row.requestId = id)
    (hold : ∀ r, W.db.authorizationRequest.lookup pk = some r → r.requestId = id)
    (hdata : rowToRequestData K row = .ok data)
    (hcode : ∀ code, row.code = some code → code ∉ W.spec.consumed) :
    Agrees K ⟨db, { W.spec with requests := W.spec.requests.insert id data }⟩ where
  keyed := hk
  row j r hj := by
    have hself : db.authorizationRequest.lookup pk = some row := (hl pk).trans (if_pos rfl)
    by_cases hjk : j = pk
    · subst hjk
      obtain rfl : row = r := Option.some.inj (hself.symm.trans hj)
      refine ⟨data, ?_, hdata⟩
      rw [hid, Table.lookup_insert_eq, if_pos rfl]
    · have hne : r.requestId ≠ id := fun he =>
        hjk (hk.byRequestId j pk r row id hj hself (congrArg some he) (congrArg some hid))
      rw [hl, if_neg hjk] at hj
      obtain ⟨data', hdata', hrow⟩ := h.row j r hj
      exact ⟨data', by rw [Table.lookup_insert_eq, if_neg hne]; exact hdata', hrow⟩
  stored id' hid' := by
    rcases Finmap.mem_insert.1 hid' with rfl | hid'
    · exact ⟨pk, row, (hl pk).trans (if_pos rfl), hid⟩
    · obtain ⟨j, r, hj, hr⟩ := h.stored id' hid'
      by_cases hjk : j = pk
      · subst hjk
        obtain rfl : id' = id := hr.symm.trans (hold r hj)
        exact ⟨j, row, (hl j).trans (if_pos rfl), hid⟩
      · exact ⟨j, r, (hl j).trans ((if_neg hjk).trans hj), hr⟩
  once j r code hj hc := by
    rw [hl] at hj
    split at hj
    · cases hj
      exact hcode code hc
    · exact h.once j r code hj hc

/-- The row of a request is deleted. -/
theorem Agrees.remove (h : Agrees K W) {db : Db} (hk : Keyed db)
    (hl : ∀ j r, db.authorizationRequest.lookup j = some r ↔
      W.db.authorizationRequest.lookup j = some r ∧ r.requestId ≠ id) {consumed : Finset String}
    (honce : ∀ j r code, db.authorizationRequest.lookup j = some r → r.code = some code →
      code ∉ consumed) : Agrees K ⟨db, ⟨W.spec.requests.erase id, consumed⟩⟩ where
  keyed := hk
  row j r hj := by
    obtain ⟨hj, hne⟩ := (hl j r).1 hj
    obtain ⟨data, hdata, hrow⟩ := h.row j r hj
    exact ⟨data, by rw [Table.lookup_erase_eq, if_neg hne]; exact hdata, hrow⟩
  stored id' hid' := by
    obtain ⟨hne, hid'⟩ := Finmap.mem_erase.1 hid'
    obtain ⟨j, r, hj, rfl⟩ := h.stored id' hid'
    exact ⟨j, r, (hl j r).2 ⟨hj, hne⟩, rfl⟩
  once := honce

/-! ## One call -/

theorem keyed_insert (h : Keyed s) (hfree : refuseRequest s pk row.requestId row.code = none) :
    Keyed { s with authorizationRequest := s.authorizationRequest.insert pk row } := by
  obtain ⟨-, hid, hcode⟩ := refuseRequest_eq_none.1 hfree
  exact ⟨h.byRequestId.insert hid, h.byCode.insert hcode⟩

theorem keyed_update {data : RequestData Auth Params} {deviceId : Option DbId}
    {columns : RequestColumns} (h : Keyed s)
    (hfree : s.authorizationRequest.taken (·.code) pk data.code = false) :
    Keyed { s with authorizationRequest :=
      s.authorizationRequest.update pk (setRequest data deviceId columns) } := by
  refine ⟨h.byRequestId.update fun r hr => ?_, h.byCode.update fun r _ => hfree⟩
  -- the request's id stays
  refine Table.taken_eq_false.2 fun j r' v hj hv hv' => ?_
  exact h.byRequestId j pk r' r v hj hr hv' hv

/-- What remains to be said of a call: its answers, and what it leaves when it fails. -/
theorem Agrees.conforms {a : Action Auth Params} (h : Agrees K W)
    (hok : ∀ answer db, (perform K a).exec W.db = (.ok answer, db) →
      W.spec.Answers a answer ∧ Agrees K ⟨db, W.spec.after a answer⟩)
    (herr : ∀ e db, (perform K a).exec W.db = (.error e, db) → db = W.db) :
    Conforms K W a ∧ ∀ W', step K W a = some W' → Agrees K W' := by
  have hstep : ∀ W', step K W a = some W' → Agrees K W' := by
    intro W' hW'
    unfold step at hW'
    split at hW' <;> cases hW'
    · exact (hok _ _ ‹_›).2
    · obtain rfl := herr _ _ ‹_›
      exact h
  exact ⟨⟨fun answer db hx => (hok answer db hx).1, fun W' hW' => (hstep W' hW').readsAs⟩, hstep⟩

theorem Agrees.create (h : Agrees K W) {device insert : Option String} {newId : DbId}
    {data : RequestData Auth Params} (ha : Meets K W (.create device insert newId id data)) :
    Conforms K W (.create device insert newId id data) ∧
      ∀ W', step K W (.create device insert newId id data) = some W' → Agrees K W' := by
  refine h.conforms (fun answer db hx => ?_) fun e db hx => (clean_createRequest _ _ _ _ _).bind_pure _ _ _ _ hx
  obtain ⟨_, hcall, rfl⟩ := exec_bind_pure_ok.1 hx
  obtain ⟨deviceId, columns, hdevice, hcolumns, rfl, hfree, rfl⟩ := createRequest_ok.1 hcall
  obtain ⟨hnew, hid, hcode⟩ := refuseRequest_eq_none.1 hfree
  obtain ⟨hexpires, honce⟩ := ha ⟨(deviceDbId_ok.1 hdevice).1, ⟨columns, hcolumns⟩, rfl, hfree⟩
  refine ⟨fun hmem => ?_, ?_⟩
  · obtain ⟨pk, row, hl, hrow⟩ := h.stored id hmem
    have hpk := Table.taken_eq_false.1 hid pk row id hl rfl (congrArg some hrow)
    exact hnew (hpk ▸ Finmap.mem_of_lookup_eq_some hl)
  · refine h.write (keyed_insert h.keyed hfree) (fun j => Table.lookup_insert_eq _ _ _ _) rfl
      (fun r hr => absurd (Finmap.mem_of_lookup_eq_some hr) hnew) ?_ honce
    exact (setRequest_reads_iff hcolumns deviceId (requestRow id data deviceId columns)).2
      ⟨rfl, hexpires⟩

theorem Agrees.update (h : Agrees K W) {select device update : Option String}
    {data : RequestData Auth Params} (ha : Meets K W (.update select device update id data)) :
    Conforms K W (.update select device update id data) ∧
      ∀ W', step K W (.update select device update id data) = some W' → Agrees K W' := by
  refine h.conforms (fun answer db hx => ?_) fun e db hx => (clean_updateRequest _ _ _ _ _).bind_pure _ _ _ _ hx
  obtain ⟨_, hcall, rfl⟩ := exec_bind_pure_ok.1 hx
  obtain ⟨pk, row, deviceId, columns, hselect, hone, hdevice, hcolumns, hfault, hfree, rfl⟩ :=
    updateRequest_ok.1 hcall
  obtain ⟨hl, rfl⟩ := h.keyed.find.1 hone
  obtain ⟨hclient, hexpires, honce⟩ := ha pk row
    ⟨hselect, hl, rfl, (deviceDbId_ok.1 hdevice).1, ⟨columns, hcolumns⟩, hfault, hfree⟩
  obtain ⟨data', hdata', -⟩ := h.row pk row hl
  refine ⟨Finmap.mem_of_lookup_eq_some hdata', ?_⟩
  refine h.write (keyed_update h.keyed hfree) (fun j => ?_)
    (show (setRequest data deviceId columns row).requestId = row.requestId from rfl)
    (fun r hr => by rw [Option.some.inj (hl.symm.trans hr)])
    ((setRequest_reads_iff hcolumns deviceId row).2 ⟨hclient, hexpires⟩) honce
  rw [Table.lookup_update]
  split
  · subst_vars
    rw [hl]
    rfl
  · rfl

theorem Agrees.delete (h : Agrees K W) (fault : Option String) (id : String) :
    Conforms K W (.delete fault id) ∧ ∀ W', step K W (.delete fault id) = some W' → Agrees K W' := by
  refine h.conforms (fun answer db hx => ?_) fun e db hx => (clean_deleteRequest _ _).bind_pure _ _ _ _ hx
  obtain ⟨_, hcall, rfl⟩ := exec_bind_pure_ok.1 hx
  obtain ⟨-, ⟨pk, row, hl, rfl⟩, rfl⟩ := deleteRequest_ok.1 hcall
  obtain ⟨data, hdata, -⟩ := h.row pk row hl
  refine ⟨Finmap.mem_of_lookup_eq_some hdata,
    h.remove ⟨h.keyed.byRequestId.deleteWhere _, h.keyed.byCode.deleteWhere _⟩ (fun j r => ?_)
      fun j r code hj => ?_⟩
  · rw [Table.lookup_deleteWhere_eq_some, decide_eq_false_iff_not]
  · exact h.once j r code (Table.lookup_deleteWhere_eq_some.1 hj).1

theorem Agrees.read (h : Agrees K W) {byId byKey : Option String}
    (ha : Meets K W (.read byId byKey id)) :
    Conforms K W (.read byId byKey id) ∧
      ∀ W', step K W (.read byId byKey id) = some W' → Agrees K W' := by
  have hread : ∀ r db, (readRequest K byId byKey id).exec W.db = (r, db) →
      db = W.db ∧ ∀ found, r = .ok found → found = W.spec.requests.lookup id := by
    intro r db hx
    cases byId with
    | some e =>
      rw [readRequest, exec_bind, exec_query] at hx
      cases hx
      exact ⟨rfl, nofun⟩
    | none =>
      by_cases hid : id ∈ W.spec.requests
      · obtain ⟨pk, row, hl, rfl⟩ := h.stored id hid
        obtain ⟨data, hdata, hrow⟩ := h.row pk row hl
        rw [readRequest_found h.keyed hl rfl, hrow] at hx
        cases hx
        refine ⟨rfl, fun found hfound => ?_⟩
        cases hfound
        exact hdata.symm
      · rw [readRequest_missing (h.lookup_none hid)] at hx
        rw [Finmap.lookup_eq_none.2 hid]
        cases hstr : K.fromStr id with
        | none =>
          rw [hstr] at hx
          cases hx
          exact ⟨rfl, fun found hfound => (Except.ok.inj hfound).symm⟩
        | some dbid =>
          rw [hstr] at hx
          cases byKey with
          | some e =>
            cases hx
            exact ⟨rfl, nofun⟩
          | none =>
            simp only [Option.elim, Finmap.lookup_eq_none.2 (ha rfl rfl hid dbid hstr)] at hx
            cases hx
            exact ⟨rfl, fun found hfound => (Except.ok.inj hfound).symm⟩
  refine h.conforms (fun answer db hx => ?_) fun e db hx => ?_
  · obtain ⟨found, hcall, rfl⟩ := exec_bind_pure_ok.1 hx
    obtain ⟨rfl, hfound⟩ := hread _ _ hcall
    exact ⟨hfound found rfl, h⟩
  · rcases exec_bind_error.1 hx with hcall | ⟨_, _, -, hcall⟩
    · exact (hread _ _ hcall).1
    · cases hcall

theorem Agrees.consume (h : Agrees K W) (fault : Option String) (code : String) :
    Conforms K W (.consume fault code) ∧
      ∀ W', step K W (.consume fault code) = some W' → Agrees K W' := by
  cases fault with
  | some e =>
    have hfail : (consumeRequestCode K (some e) code).exec W.db = (.error (.database e), W.db) := by
      rw [consumeRequestCode, exec_bind, exec_deleteRequests]
      rfl
    refine h.conforms (fun answer db hx => ?_) fun e' db hx => ?_
    · obtain ⟨found, hcall, -⟩ := exec_bind_pure_ok.1 hx
      rw [hfail] at hcall
      cases hcall
    · rcases exec_bind_error.1 hx with hcall | ⟨_, _, hcall, -⟩ <;> rw [hfail] at hcall <;> cases hcall
      rfl
  | none =>
    cases hrows : W.db.authorizationRequest.rows fun _ r => r.code = some code with
    | nil =>
      have hno := Table.rows_eq_nil.1 hrows
      have hnone : (consumeRequestCode K none code).exec W.db = (.ok none, W.db) := by
        rw [consumeRequestCode, exec_bind, exec_deleteRequests]
        simp only [Option.elim, hrows, Table.deleteWhere_eq_self hno]
        rfl
      refine h.conforms (fun answer db hx => ?_) fun e' db hx => ?_
      · obtain ⟨found, hcall, rfl⟩ := exec_bind_pure_ok.1 hx
        rw [hnone] at hcall
        cases hcall
        refine ⟨fun id data hdata hcode => ?_, h⟩
        obtain ⟨pk, row, hl, rfl⟩ := h.stored id (Finmap.mem_of_lookup_eq_some hdata)
        obtain ⟨data', hdata', hrow⟩ := h.row pk row hl
        obtain rfl := Option.some.inj (hdata.symm.trans hdata')
        rw [rowToRequestData_code hrow] at hcode
        exact of_decide_eq_false (hno pk row hl) hcode
      · rcases exec_bind_error.1 hx with hcall | ⟨_, _, hcall, hdone⟩
        · rw [hnone] at hcall
          cases hcall
        · cases hdone
    | cons found rest =>
      obtain ⟨pk, row⟩ := found
      obtain ⟨hl, hcode⟩ := Table.mem_rows.1 (hrows ▸ List.mem_cons_self : (pk, row) ∈ _)
      have hcode := of_decide_eq_true hcode
      obtain ⟨data, hdata, hrow⟩ := h.row pk row hl
      have hsome : (consumeRequestCode K none code).exec W.db = (.ok (some (row.requestId, data)),
          { W.db with authorizationRequest :=
            W.db.authorizationRequest.deleteWhere fun _ r => r.code = some code }) := by
        rw [consumeRequestCode, exec_bind, exec_deleteRequests]
        simp only [Option.elim, hrows, List.head?_cons, exec_bind, exec_ofExcept, hrow]
        rfl
      refine h.conforms (fun answer db hx => ?_) fun e' db hx => ?_
      · obtain ⟨found, hcall, rfl⟩ := exec_bind_pure_ok.1 hx
        rw [hsome] at hcall
        cases hcall
        refine ⟨⟨hdata, (rowToRequestData_code hrow).trans hcode, h.once pk row code hl hcode⟩,
          h.remove ⟨h.keyed.byRequestId.deleteWhere _, h.keyed.byCode.deleteWhere _⟩ (fun j r => ?_)
            fun j r c hj hc hmem => ?_⟩
        · -- the row of the code is the row of the request
          rw [Table.lookup_deleteWhere_eq_some, decide_eq_false_iff_not]
          refine and_congr_right fun hj => not_congr ⟨fun hc => ?_, fun hid => ?_⟩
          · obtain rfl := h.keyed.byCode j pk r row code hj hl hc hcode
            rw [Option.some.inj (hj.symm.trans hl)]
          · obtain rfl := h.keyed.byRequestId j pk r row _ hj hl (congrArg some hid) rfl
            rw [Option.some.inj (hj.symm.trans hl)]
            exact hcode
        · obtain ⟨hj, hstays⟩ := Table.lookup_deleteWhere_eq_some.1 hj
          rcases Finset.mem_insert.1 hmem with rfl | hmem
          · exact of_decide_eq_false hstays hc
          · exact h.once j r c hj hc hmem
      · rcases exec_bind_error.1 hx with hcall | ⟨_, _, hcall, hdone⟩
        · rw [hsome] at hcall
          cases hcall
        · cases hdone

theorem agrees_step {a : Action Auth Params} (h : Agrees K W) (ha : Meets K W a) :
    Conforms K W a ∧ ∀ W', step K W a = some W' → Agrees K W' := by
  cases a with
  | create device insert newId id data => exact h.create ha
  | read byId byKey id => exact h.read ha
  | update select device update id data => exact h.update ha
  | delete fault id => exact h.delete fault id
  | consume fault code => exact h.consume fault code

/-! ## The condition is needed -/

theorem consumeRequestCode_none {code : String}
    (h : ((consumeRequestCode K none code).exec s).1 = .ok none) :
    ∀ pk row, s.authorizationRequest.lookup pk = some row → row.code ≠ some code := by
  intro pk row hl hc
  rw [consumeRequestCode, exec_bind, exec_deleteRequests] at h
  cases hrows : s.authorizationRequest.rows fun _ r => r.code = some code with
  | nil => exact of_decide_eq_false (Table.rows_eq_nil.1 hrows pk row hl) hc
  | cons found rest =>
    simp only [Option.elim, hrows, List.head?_cons, exec_bind, exec_ofExcept] at h
    cases hrow : rowToRequestData K found.2 with
    | error e =>
      rw [hrow] at h
      cases h
    | ok data =>
      rw [hrow] at h
      cases h

/-- A row that has been written, where the store then reads as the map. -/
theorem durable_of_readsAs {S : Spec Auth Params} {data : RequestData Auth Params}
    {deviceId : Option DbId} {columns : RequestColumns} (hk : Keyed s)
    (hcolumns : requestColumns K data = .ok columns)
    (hl : s.authorizationRequest.lookup pk = some (setRequest data deviceId columns row))
    (hid : row.requestId = id)
    (h : ReadsAs K ⟨s, { S with requests := S.requests.insert id data }⟩) :
    row.clientId = data.clientId ∧ Durable S data := by
  have hread := h.read id data (by rw [Table.lookup_insert_eq, if_pos rfl])
  rw [readRequest_found hk hl hid] at hread
  have hrow : rowToRequestData K (setRequest data deviceId columns row) = .ok data := by
    cases hx : rowToRequestData K (setRequest data deviceId columns row) with
    | error e =>
      rw [hx] at hread
      cases hread
    | ok data' =>
      rw [hx] at hread
      cases hread
      rfl
  obtain ⟨hclient, hexpires⟩ := (setRequest_reads_iff hcolumns deviceId row).1 hrow
  exact ⟨hclient, hexpires, fun code hc hmem => consumeRequestCode_none (h.once code hmem) pk _ hl hc⟩

theorem Agrees.meets (h : Agrees K W) {a : Action Auth Params} (ha : Conforms K W a) :
    Meets K W a := by
  obtain ⟨hanswer, hreads⟩ := ha
  cases a with
  | create device insert newId id data =>
    rintro ⟨hdevice, ⟨columns, hcolumns⟩, hinsert, hfree⟩
    obtain ⟨deviceId, hdevice⟩ := exists_deviceDbId hdevice W.db
    have hx : (perform K (.create device insert newId id data)).exec W.db = (.ok .done, _) :=
      exec_bind_pure_ok.2 ⟨(), createRequest_ok.2
        ⟨deviceId, columns, hdevice, hcolumns, hinsert, hfree, rfl⟩, rfl⟩
    have hW := hreads _ (by rw [step, hx])
    have hk : Keyed { W.db with authorizationRequest :=
        W.db.authorizationRequest.insert newId (requestRow id data deviceId columns) } :=
      keyed_insert h.keyed hfree
    exact (durable_of_readsAs hk hcolumns
      ((Table.lookup_insert_eq _ _ _ _).trans (if_pos rfl) : _ =
        some (setRequest data deviceId columns (requestRow id data deviceId columns))) rfl hW).2
  | update select device update id data =>
    rintro pk row ⟨hselect, hl, hid, hdevice, ⟨columns, hcolumns⟩, hfault, hfree⟩
    obtain ⟨deviceId, hdevice⟩ := exists_deviceDbId hdevice W.db
    have hx : (perform K (.update select device update id data)).exec W.db = (.ok .done, _) :=
      exec_bind_pure_ok.2 ⟨(), updateRequest_ok.2 ⟨pk, row, deviceId, columns, hselect,
        h.keyed.find.2 ⟨hl, hid⟩, hdevice, hcolumns, hfault, hfree, rfl⟩, rfl⟩
    have hW := hreads _ (by rw [step, hx])
    have hrow : (W.db.authorizationRequest.update pk (setRequest data deviceId columns)).lookup pk =
        some (setRequest data deviceId columns row) := by
      rw [Table.lookup_update, if_pos rfl, hl]
      rfl
    exact durable_of_readsAs (keyed_update h.keyed hfree) hcolumns hrow hid hW
  | read byId byKey id =>
    rintro rfl rfl hid pk hstr hmem
    obtain ⟨row, hl⟩ := Finmap.mem_iff.1 hmem
    obtain ⟨data, -, hrow⟩ := h.row pk row hl
    have hx : (readRequest K none none id).exec W.db = (.ok (some data), W.db) := by
      rw [readRequest_missing (h.lookup_none hid), hstr]
      simp only [Option.elim, hl, hrow]
      rfl
    have hfound : some data = W.spec.requests.lookup id :=
      hanswer _ _ (exec_bind_pure_ok.2 ⟨some data, hx, rfl⟩)
    rw [Finmap.lookup_eq_none.2 hid] at hfound
    cases hfound
  | delete fault id => trivial
  | consume fault code => trivial

end

/-! ## Runs -/

theorem agrees_start (db : Db) : Agrees K (World.start db) where
  keyed := ⟨Table.indexed_empty, Table.indexed_empty⟩
  row _ _ h := by cases h
  stored _ h := by cases h
  once _ _ _ h := by cases h

/-- The store conforms to the finite map along a run exactly when all of the run's calls meet the
condition. -/
theorem conforms_iff_meets (db : Db) (as : List (Action Auth Params)) :
    Along (step K) (Conforms K) (World.start db) as ↔
      Along (step K) (Meets K) (World.start db) as :=
  along_iff_along (fun _ _ _ hW ha hstep => (agrees_step hW ha).2 _ hstep)
    (fun _ _ hW => ⟨fun ha => hW.meets ha, fun ha => (agrees_step hW ha).1⟩) (agrees_start K db) as

def aliceRequests (clientId : String) : RequestData String String :=
  ⟨clientId, "none", "atproto", 1790000000, none, none, some "cod-abc"⟩

def aliceCreates : Action String String :=
  .create none none ⟨1, DbId.one_isLt⟩ "req-1" (aliceRequests "https://a.test")

def aliceUpdates : Action String String :=
  .update none none none "req-1" (aliceRequests "https://b.test")

/-- An update to another client keeps the client of the create. -/
theorem update_keeps_client :
    ¬ ∀ (K : Codec String String) db as, Along (step K) (Conforms K) (World.start db) as := by
  intro h
  have hrun : (run (step plainCodec) (World.start Db.empty) [aliceCreates, aliceUpdates]).map
      (fun W => ((W.spec.requests.lookup "req-1").map RequestData.clientId,
        ((readRequest plainCodec none none "req-1").exec W.db).1.toOption.map
          (Option.map RequestData.clientId))) =
      some (some "https://b.test", some (some "https://a.test")) := by decide +kernel
  obtain ⟨W, hW, hread⟩ := Option.map_eq_some_iff.1 hrun
  obtain ⟨U, hU, hW⟩ := run_cons_some hW
  obtain ⟨V, hV, hW⟩ := run_cons_some hW
  cases hW
  obtain ⟨hspec, hread⟩ := Prod.mk.inj hread
  obtain ⟨data, hdata, hclient⟩ := Option.map_eq_some_iff.1 hspec
  obtain ⟨-, hall⟩ := (along_cons_of_some hU).1 (h plainCodec Db.empty [aliceCreates, aliceUpdates])
  obtain ⟨⟨-, hreads⟩, -⟩ := (along_cons_of_some hV).1 hall
  rw [(hreads W hV).read "req-1" data hdata] at hread
  simp only [Except.toOption, Option.map_some, Option.some.injEq, hclient] at hread
  exact absurd hread (by decide)

/-- A request is read by the text of its surrogate key, under which it was not created. -/
example : ((run (step plainCodec) (World.start Db.empty) [aliceCreates]).map fun W =>
      (("00000000000000000000000001" ∈ W.spec.requests : Bool),
        ((readRequest plainCodec none none "00000000000000000000000001").exec W.db).1.toOption.map
          Option.isSome)) = some (false, some true) := by decide +kernel

end CacosPds.Account.Oauth
