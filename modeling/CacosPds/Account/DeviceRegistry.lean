import CacosPds.Account.Devices
import CacosPds.Lib.Machine
import Mathlib.Data.Finset.Sort
/-!
# The devices as a registry

What the device half of `PdsOAuthStore` is for: a registry of devices by the text that the browser knows,
of the accounts each one has signed in with, and of the scopes each account has granted to each client.
A link and a consent last as long as the account; there is none for an account that is not there, and to
ask for one is no error. `registry_answers`: through any sequence of calls, whichever of their statements
fail and however the accounts change in between, the store answers as the registry does. The surrogate
keys never show.
-/
namespace CacosPds.Account.Devices

open Stages Sql
open CacosPds.Account.Oauth (StoreError offset offsetToSecs fromJson)

structure Registry where
  accounts : Account.Db
  device : Table String DeviceData
  /-- Of a device and an account. -/
  linked : Finset (String × String)
  /-- What an account has granted to a client. -/
  consent : Table (String × String) (List String)

namespace Registry

abbrev Call (α : Type) := Stages.Call Registry StoreError α

def unknownDevice (deviceId : String) : StoreError :=
  .serverError ("unknown device: " ++ deviceId)

/-- The data as it is read back, where its time is in range. -/
def seen (data : DeviceData) : Except StoreError DeviceData := do
  let lastSeenAt ← offset data.lastSeenAt
  return { data with lastSeenAt := offsetToSecs lastSeenAt }

def sessionTaken (deviceId sessionId : String) (r : Registry) : Bool :=
  r.device.taken (fun d => some d.sessionId) deviceId (some sessionId)

def createDevice (fault : Option String) (deviceId : String) (data : DeviceData) : Call Unit := do
  let data ← ofExcept (seen data)
  statement
    (fun r =>
      (fault.map .database).or <|
        if deviceId ∈ r.device then some (.unique "uq_device_device_id")
        else if sessionTaken deviceId data.sessionId r then some (.unique "uq_device_session_id")
        else none)
    fun r => { r with device := r.device.insert deviceId data }

def readDevice (fault : Option String) (deviceId : String) : Call (Option DeviceData) := do
  attempt (fault.map .database)
  let r ← get
  return r.device.lookup deviceId

def updateDevice (select update : Option String) (deviceId : String) (data : DeviceData) :
    Call Unit := do
  attempt (select.map .database)
  let r ← get
  attempt (if deviceId ∈ r.device then none else some (unknownDevice deviceId))
  let data ← ofExcept (seen data)
  statement
    (fun r =>
      (update.map .database).or <|
        if sessionTaken deviceId data.sessionId r then some (.unique "uq_device_session_id") else none)
    fun r => { r with device := r.device.insert deviceId data }

def upsertDeviceAccount (device insert update : Option String) (deviceId did : String) :
    Call Unit := do
  attempt (device.map .database)
  let r ← get
  attempt (if deviceId ∈ r.device then none else some (unknownDevice deviceId))
  if insert = none ∧ (deviceId, did) ∉ r.linked ∧ did ∈ r.accounts.account then
    modify fun r => { r with linked := Insert.insert (deviceId, did) r.linked }
  else attempt (update.map .database)

def getAccount (fault : Option String) (did : String) : Call (Option AccountInfo) := do
  attempt (fault.map .database)
  let r ← get
  return storeAccount did r.accounts

def getDeviceAccount (device link account : Option String) (deviceId did : String) :
    Call (Option AccountInfo) := do
  attempt (device.map .database)
  let r ← get
  if deviceId ∈ r.device then
    attempt (link.map .database)
    if (deviceId, did) ∈ r.linked then getAccount account did else return none
  else return none

/-- The accounts of a device, in order. -/
def linkedTo (deviceId : String) (r : Registry) : List String :=
  (r.linked.filter fun p => p.1 = deviceId).image Prod.snd |>.sort (· ≤ ·)

def listDeviceAccounts (device links : Option String) (account : String → Option String)
    (deviceId : String) : Call (List AccountInfo) := do
  attempt (device.map .database)
  let r ← get
  if deviceId ∈ r.device then
    attempt (links.map .database)
    let found ← (linkedTo deviceId r).mapM fun did => getAccount (account did) did
    return found.filterMap fun account => account
  else return []

def removeDeviceAccount (device delete : Option String) (deviceId did : String) : Call Unit := do
  attempt (device.map .database)
  let r ← get
  if deviceId ∈ r.device then
    attempt (delete.map .database)
    modify fun r => { r with linked := r.linked.erase (deviceId, did) }

/-- If only the insert fails, an older consent is replaced all the same, and a new one is lost. -/
def setAuthorizedClient (insert update : Option String) (did clientId scope : String) :
    Call Unit := do
  let r ← get
  let grant : Call Unit := modify fun r =>
    { r with consent := r.consent.insert (did, clientId) (splitAsciiWhitespace scope) }
  if insert = none ∧ did ∈ r.accounts.account then grant
  else
    attempt (update.map .database)
    if (did, clientId) ∈ r.consent then grant

def getAuthorizedClientScope (fault : Option String) (did clientId : String) :
    Call (Option String) := do
  attempt (fault.map .database)
  let r ← get
  return (r.consent.lookup (did, clientId)).map (" ".intercalate ·)

/-- What belongs to an account that is gone goes with it. -/
def withAccounts (accounts : Account.Db) (r : Registry) : Registry where
  accounts := accounts
  device := r.device
  linked := r.linked.filter fun p => p.2 ∈ accounts.account
  consent := r.consent.deleteWhere fun k _ => k.1 ∉ accounts.account

end Registry

def callRegistry (r : Registry) : DeviceCall → DeviceAnswer × Registry
  | .createDevice fault _ _ deviceId data => answer .unit (Registry.createDevice fault deviceId data) r
  | .readDevice fault deviceId => answer .device (Registry.readDevice fault deviceId) r
  | .updateDevice select update deviceId data =>
    answer .unit (Registry.updateDevice select update deviceId data) r
  | .upsertDeviceAccount device insert update _ deviceId did =>
    answer .unit (Registry.upsertDeviceAccount device insert update deviceId did) r
  | .getDeviceAccount device link account deviceId did =>
    answer .account (Registry.getDeviceAccount device link account deviceId did) r
  | .listDeviceAccounts device links account deviceId =>
    answer .accounts (Registry.listDeviceAccounts device links account deviceId) r
  | .removeDeviceAccount device delete deviceId did =>
    answer .unit (Registry.removeDeviceAccount device delete deviceId did) r
  | .setAuthorizedClient insert update _ did clientId scope =>
    answer .unit (Registry.setAuthorizedClient insert update did clientId scope) r
  | .getAuthorizedClientScope fault did clientId =>
    answer .scope (Registry.getAuthorizedClientScope fault did clientId) r
  | .getAccount fault did => answer .account (Registry.getAccount fault did) r
  | .accounts accounts => (.unit (.ok ()), r.withAccounts accounts)
  | .draw _ _ => (.unit (.ok ()), r)

/-! ## What the store and the registry share -/

/-- The ids of the store's devices have been drawn. -/
structure Mirrors (J : JsonText) (last : DbId) (s : DeviceDb) (r : Registry) : Prop where
  accounts : r.accounts = s.accounts
  indexed : s.device.Indexed fun row => some row.deviceId
  drawn : ∀ id ∈ s.device, id ≤ last
  device : ∀ deviceId,
    r.device.lookup deviceId = (findDevice deviceId s).map fun kr => rowToDeviceData kr.2
  ofDevice : s.accountDevice.References (fun k _ => k.1) s.device
  ofAccount : s.accountDevice.References (fun k _ => k.2) s.accounts.account
  linked : ∀ deviceId did, (deviceId, did) ∈ r.linked ↔
    ∃ id row, findDevice deviceId s = some (id, row) ∧ (id, did) ∈ s.accountDevice
  byAccount : s.authorizedClient.References (fun k _ => k.1) s.accounts.account
  consent : ∀ k, (s.authorizedClient.lookup k).map AuthorizedClientRow.data =
    (r.consent.lookup k).map fun scopes => J.toString (authorizedScopes scopes)

/-- A call on both: one answer, and states that go on mirroring each other. -/
def Agree {α : Type} (J : JsonText) (last : DbId) (x : Call α) (y : Registry.Call α) (s : DeviceDb)
    (r : Registry) : Prop :=
  (x.exec s).1 = (y.exec r).1 ∧ Mirrors J last (x.exec s).2 (y.exec r).2

variable {J : JsonText} {last : DbId} {s : DeviceDb} {r : Registry} {deviceId did : String}

theorem decide_eq_some {a b : String} : decide (a = b) = true ↔ some a = some b := by
  rw [decide_eq_true_iff, Option.some.injEq]

theorem findDevice_iff (h : s.device.Indexed fun row => some row.deviceId) {id : DbId}
    {row : DeviceRow} :
    findDevice deviceId s = some (id, row) ↔
      s.device.lookup id = some row ∧ row.deviceId = deviceId := by
  rw [findDevice, Table.one_eq_some_iff h fun _ _ => decide_eq_some, Option.some.injEq]

namespace Mirrors

theorem mem_device (h : Mirrors J last s r) :
    deviceId ∈ r.device ↔ ∃ id row, findDevice deviceId s = some (id, row) := by
  rw [← Finmap.lookup_isSome, h.device, Option.isSome_map, Option.isSome_iff_exists, Prod.exists]

theorem notMem_device (h : Mirrors J last s r) (hnone : findDevice deviceId s = none) :
    deviceId ∉ r.device := by
  rw [h.mem_device, hnone]
  rintro ⟨id, row, hsome⟩
  cases hsome

/-- The rows of one device are its links. -/
theorem mem_linked (h : Mirrors J last s r) {id : DbId} {row : DeviceRow}
    (hfind : findDevice deviceId s = some (id, row)) :
    (deviceId, did) ∈ r.linked ↔ (id, did) ∈ s.accountDevice := by
  rw [h.linked, hfind]
  constructor
  · rintro ⟨i, w, heq, hm⟩
    cases heq
    exact hm
  · exact fun hm => ⟨id, row, rfl, hm⟩

theorem later (h : Mirrors J last s r) {last' : DbId} (hle : last ≤ last') : Mirrors J last' s r :=
  { h with drawn := fun id hid => le_trans (h.drawn id hid) hle }

end Mirrors

/-! ## One statement on both -/

namespace Mirrors

/-- A session id is taken in the store as it is in the registry; `id` is the device's own key. -/
theorem taken_session (h : Mirrors J last s r) {id : DbId} {sessionId : String}
    (hkey : ∀ j row, s.device.lookup j = some row → (j ≠ id ↔ row.deviceId ≠ deviceId)) :
    s.device.taken (fun row => some row.sessionId) id (some sessionId) =
      r.sessionTaken deviceId sessionId := by
  rw [Bool.eq_iff_iff, Registry.sessionTaken, Table.taken, Table.taken, Table.anyRow_iff,
    Table.anyRow_iff]
  simp only [decide_eq_true_iff, Option.isSome_some, true_and, Option.some.injEq]
  constructor
  · rintro ⟨j, row, hl, hne, rfl⟩
    refine ⟨row.deviceId, rowToDeviceData row, ?_, (hkey j row hl).1 hne, rfl⟩
    rw [h.device, (findDevice_iff h.indexed).2 ⟨hl, rfl⟩]
    rfl
  · rintro ⟨d, data, hl, hne, rfl⟩
    rw [h.device] at hl
    obtain ⟨⟨j, row⟩, hfind, rfl⟩ := Option.map_eq_some_iff.1 hl
    obtain ⟨hj, rfl⟩ := (findDevice_iff h.indexed).1 hfind
    exact ⟨j, row, hj, (hkey j row hj).2 hne, rfl⟩

theorem insertDevice (h : Mirrors J last s r) {newId : DbId} (hnew : last < newId) {row : DeviceRow}
    (hnone : findDevice row.deviceId s = none) :
    Mirrors J newId { s with device := s.device.insert newId row }
      { r with device := r.device.insert row.deviceId (rowToDeviceData row) } := by
  have hfresh : newId ∉ s.device := fun hm => absurd (h.drawn _ hm) (not_le.2 hnew)
  have hmiss : s.device.lookup newId = none := Finmap.lookup_eq_none.2 hfresh
  have hfree : s.device.taken (fun w => some w.deviceId) newId (some row.deviceId) = false := by
    refine Table.taken_eq_false.2 fun j w v hl hv hw => ?_
    cases hv
    have hsome := (findDevice_iff h.indexed).2 ⟨hl, Option.some.inj hw⟩
    rw [hnone] at hsome
    cases hsome
  have hfind : ∀ d, findDevice d { s with device := s.device.insert newId row } =
      if row.deviceId = d then some (newId, row) else findDevice d s := by
    intro d
    rw [findDevice, Table.one_insert h.indexed (fun _ _ => decide_eq_some) hmiss hfree]
    simp only [Option.some.injEq]
    rfl
  have hstays : ∀ id ∈ s.device, id ∈ s.device.insert newId row :=
    fun id hm => Finmap.mem_insert.2 (.inr hm)
  refine ⟨h.accounts, h.indexed.insert hfree, ?_, ?_, ?_, h.ofAccount, ?_, h.byAccount, h.consent⟩
  · intro id hm
    rcases Finmap.mem_insert.1 hm with rfl | hm
    · exact le_rfl
    · exact le_trans (h.drawn id hm) hnew.le
  · intro d
    rw [hfind, Table.lookup_insert_eq, h.device]
    by_cases hd : row.deviceId = d
    · rw [if_pos hd, if_pos hd.symm]
      rfl
    · rw [if_neg hd, if_neg (Ne.symm hd)]
  · exact fun k w hl => hstays _ (h.ofDevice k w hl)
  · intro d did
    rw [h.linked, hfind]
    split
    · subst_vars
      rw [hnone]
      constructor
      · rintro ⟨id, w, heq, -⟩
        cases heq
      · rintro ⟨id, w, heq, hm⟩
        cases heq
        -- A new key has no link yet.
        obtain ⟨w', hl⟩ := Finmap.mem_iff.1 hm
        exact absurd (h.ofDevice _ _ hl) hfresh
    · exact Iff.rfl

theorem updateDevice (h : Mirrors J last s r) {id : DbId} {row : DeviceRow}
    (hfound : findDevice deviceId s = some (id, row)) {f : DeviceRow → DeviceRow}
    (hf : ∀ w, (f w).deviceId = w.deviceId) :
    Mirrors J last { s with device := s.device.update id f }
      { r with device := r.device.insert deviceId (rowToDeviceData (f row)) } := by
  have hfind : ∀ d, findDevice d { s with device := s.device.update id f } =
      (findDevice d s).map fun jr => (jr.1, if jr.1 = id then f jr.2 else jr.2) := by
    intro d
    exact Table.one_update h.indexed (fun _ _ => decide_eq_some) fun w => congrArg some (hf w)
  obtain ⟨hrow, hid⟩ := (findDevice_iff h.indexed).1 hfound
  refine ⟨h.accounts, h.indexed.update ?_, ?_, ?_, ?_, h.ofAccount, ?_, h.byAccount, h.consent⟩
  · intro w hl
    refine Table.taken_eq_false.2 fun j w' v hl' hv hw' => ?_
    rw [hf] at hv
    exact h.indexed _ _ _ _ v hl' hl hw' hv
  · exact fun j hm => h.drawn j (Table.mem_update.1 hm)
  · intro d
    rw [hfind, Table.lookup_insert_eq, h.device, Option.map_map]
    split
    · subst_vars
      rw [hfound, Option.map_some, Function.comp_apply]
      dsimp only
      rw [if_pos rfl]
    · rename_i hd
      refine Option.map_congr fun jr hjr => ?_
      have hne : jr.1 ≠ id := by
        obtain ⟨j, w⟩ := jr
        obtain ⟨hl, rfl⟩ := (findDevice_iff h.indexed).1 hjr
        rintro rfl
        rw [hl] at hrow
        cases hrow
        exact hd hid
      rw [Function.comp_apply, if_neg hne]
  · exact fun k w hl => Table.mem_update.2 (h.ofDevice k w hl)
  · intro d did
    rw [h.linked, hfind]
    constructor
    · rintro ⟨j, w, heq, hm⟩
      exact ⟨j, _, by rw [heq]; rfl, hm⟩
    · rintro ⟨j, w, heq, hm⟩
      obtain ⟨⟨j', w'⟩, heq', hjw⟩ := Option.map_eq_some_iff.1 heq
      cases hjw
      exact ⟨_, w', heq', hm⟩

/-- Rows of `account_device` that are written or deleted, by what becomes of their keys. -/
theorem setLinks (h : Mirrors J last s r) {links : Table (DbId × String) AccountDeviceRow}
    {linked : Finset (String × String)}
    (hsub : ∀ k, k ∈ links → k.1 ∈ s.device ∧ k.2 ∈ s.accounts.account)
    (hlinked : ∀ d did, (d, did) ∈ linked ↔
      ∃ id row, findDevice d s = some (id, row) ∧ (id, did) ∈ links) :
    Mirrors J last { s with accountDevice := links } { r with linked } :=
  { h with
    ofDevice := fun k _ hl => (hsub k (Finmap.mem_of_lookup_eq_some hl)).1
    ofAccount := fun k _ hl => (hsub k (Finmap.mem_of_lookup_eq_some hl)).2
    linked := hlinked }

theorem mem_of_link (h : Mirrors J last s r) {k : DbId × String} (hm : k ∈ s.accountDevice) :
    k.1 ∈ s.device ∧ k.2 ∈ s.accounts.account := by
  obtain ⟨w, hl⟩ := Finmap.mem_iff.1 hm
  exact ⟨h.ofDevice k w hl, h.ofAccount k w hl⟩

theorem findDevice_inj (h : Mirrors J last s r) {d d' : String} {id : DbId} {row row' : DeviceRow}
    (hd : findDevice d s = some (id, row)) (hd' : findDevice d' s = some (id, row')) : d = d' := by
  obtain ⟨hl, rfl⟩ := (findDevice_iff h.indexed).1 hd
  obtain ⟨hl', rfl⟩ := (findDevice_iff h.indexed).1 hd'
  rw [hl] at hl'
  cases hl'
  rfl

theorem link (h : Mirrors J last s r) {id : DbId} {row : DeviceRow} {w : AccountDeviceRow}
    (hfound : findDevice deviceId s = some (id, row)) (hdid : did ∈ s.accounts.account) :
    Mirrors J last { s with accountDevice := s.accountDevice.insert (id, did) w }
      { r with linked := insert (deviceId, did) r.linked } := by
  refine h.setLinks ?_ ?_
  · intro k hm
    rcases Finmap.mem_insert.1 hm with rfl | hm
    · exact ⟨Finmap.mem_of_lookup_eq_some ((findDevice_iff h.indexed).1 hfound).1, hdid⟩
    · exact h.mem_of_link hm
  · intro d did'
    rw [Finset.mem_insert, h.linked]
    constructor
    · rintro (heq | ⟨i, v, hi, hm⟩)
      · cases heq
        exact ⟨id, row, hfound, Finmap.mem_insert.2 (.inl rfl)⟩
      · exact ⟨i, v, hi, Finmap.mem_insert.2 (.inr hm)⟩
    · rintro ⟨i, v, hi, hm⟩
      rcases Finmap.mem_insert.1 hm with heq | hm
      · cases heq
        exact .inl (by rw [h.findDevice_inj hi hfound])
      · exact .inr ⟨i, v, hi, hm⟩

theorem touch (h : Mirrors J last s r) (k : DbId × String) (f : AccountDeviceRow → AccountDeviceRow) :
    Mirrors J last { s with accountDevice := s.accountDevice.update k f } r := by
  refine h.setLinks (fun j hm => h.mem_of_link (Table.mem_update.1 hm)) fun d did => ?_
  rw [h.linked]
  simp only [Table.mem_update]

theorem unlink (h : Mirrors J last s r) {id : DbId} {row : DeviceRow}
    (hfound : findDevice deviceId s = some (id, row)) :
    Mirrors J last { s with accountDevice := s.accountDevice.erase (id, did) }
      { r with linked := r.linked.erase (deviceId, did) } := by
  refine h.setLinks (fun k hm => h.mem_of_link (Finmap.mem_erase.1 hm).2) fun d did' => ?_
  rw [Finset.mem_erase, h.linked]
  constructor
  · rintro ⟨hne, i, v, hi, hm⟩
    refine ⟨i, v, hi, Finmap.mem_erase.2 ⟨fun heq => hne ?_, hm⟩⟩
    cases heq
    rw [h.findDevice_inj hi hfound]
  · rintro ⟨i, v, hi, hm⟩
    obtain ⟨hne, hm⟩ := Finmap.mem_erase.1 hm
    refine ⟨fun heq => hne ?_, i, v, hi, hm⟩
    cases heq
    rw [hfound] at hi
    cases hi
    rfl

/-- The row of a consent that is written. -/
theorem grant (h : Mirrors J last s r) {clientId : String} {scopes : List String}
    {clients : Table (String × String) AuthorizedClientRow} (hdid : did ∈ s.accounts.account)
    (hrow : ∃ w, clients.lookup (did, clientId) = some w ∧ w.data = J.toString (authorizedScopes scopes))
    (hrest : ∀ k, k ≠ (did, clientId) → clients.lookup k = s.authorizedClient.lookup k) :
    Mirrors J last { s with authorizedClient := clients }
      { r with consent := r.consent.insert (did, clientId) scopes } := by
  obtain ⟨w, hw, hdata⟩ := hrow
  refine { h with byAccount := ?_, consent := ?_ }
  · intro k v hl
    by_cases hk : k = (did, clientId)
    · rw [hk]
      exact hdid
    · exact h.byAccount k v ((hrest k hk).symm.trans hl)
  · intro k
    rw [Table.lookup_insert_eq]
    split
    · subst_vars
      rw [hw, Option.map_some, Option.map_some, hdata]
    · rw [hrest k ‹_›, h.consent]

theorem mem_consent (h : Mirrors J last s r) {k : String × String} :
    k ∈ r.consent ↔ k ∈ s.authorizedClient := by
  have hiff := congrArg Option.isSome (h.consent k)
  rw [Option.isSome_map, Option.isSome_map] at hiff
  rw [← Finmap.lookup_isSome, ← Finmap.lookup_isSome, hiff]

theorem withAccounts (h : Mirrors J last s r) (accounts : Account.Db) :
    Mirrors J last (s.withAccounts accounts) (r.withAccounts accounts) := by
  refine ⟨rfl, h.indexed, h.drawn, h.device, ?_, h.ofAccount.cascade, ?_, h.byAccount.cascade, ?_⟩
  · intro k w hl
    exact h.ofDevice k w ((Table.lookup_cascade h.ofAccount).1 hl).1
  · intro d did
    have hkept : ∀ id, (id, did) ∈ (s.withAccounts accounts).accountDevice ↔
        (id, did) ∈ s.accountDevice ∧ did ∈ accounts.account := by
      intro id
      rw [Finmap.mem_iff, Finmap.mem_iff]
      simp only [DeviceDb.withAccounts, Table.lookup_cascade h.ofAccount, exists_and_right]
    rw [Registry.withAccounts, Finset.mem_filter, h.linked]
    simp only [hkept]
    constructor
    · rintro ⟨⟨id, row, hfind, hm⟩, hdid⟩
      exact ⟨id, row, hfind, hm, hdid⟩
    · rintro ⟨id, row, hfind, hm, hdid⟩
      exact ⟨⟨id, row, hfind, hm⟩, hdid⟩
  · intro k
    have hcut : (s.withAccounts accounts).authorizedClient.lookup k =
        if k.1 ∈ accounts.account then s.authorizedClient.lookup k else none := by
      refine Option.ext fun w => ?_
      rw [DeviceDb.withAccounts, Table.lookup_cascade h.byAccount]
      split <;> simp [*]
    have hcut' : (r.withAccounts accounts).consent.lookup k =
        if k.1 ∈ accounts.account then r.consent.lookup k else none := by
      refine Option.ext fun w => ?_
      rw [Registry.withAccounts, Table.lookup_deleteWhere_eq_some]
      split <;> simp [*]
    rw [hcut, hcut']
    split
    · exact h.consent k
    · rfl

end Mirrors

/-! ## Calls that agree -/

section

variable {α β : Type} {x : Call α} {y : Registry.Call α}

theorem exec_query (fault : Option String) (f : DeviceDb → α) (s : DeviceDb) :
    (query fault f).exec s = (fault.elim (.ok (f s)) fun e => .error (.database e), s) := by
  rw [query, exec_bind, exec_attempt]
  cases fault <;> rfl

/-- A query of the store is a look at the registry. -/
theorem Agree.query (h : Mirrors J last s r) {fault : Option String} {f : DeviceDb → β}
    {k : β → Call α} (hk : Agree J last (k (f s)) y s r) :
    Agree J last (query fault f >>= k) (Stages.attempt (fault.map .database) >>= fun _ => y) s r := by
  unfold Agree
  rw [exec_bind, exec_bind, exec_attempt, exec_query]
  cases fault with
  | none => exact hk
  | some e => exact ⟨rfl, h⟩

theorem Agree.get {k : Registry → Registry.Call α} (hk : Agree J last x (k r) s r) :
    Agree J last x (get >>= k) s r := by
  unfold Agree
  rw [exec_bind]
  exact hk

theorem Agree.statement {refuse : DeviceDb → Option StoreError} {f : DeviceDb → DeviceDb}
    {refuse' : Registry → Option StoreError} {g : Registry → Registry} {last' : DbId}
    (h : Mirrors J last s r) (hle : last ≤ last')
    (hrefuse : refuse s = refuse' r) (hdone : refuse s = none → Mirrors J last' (f s) (g r)) :
    Agree J last' (statement refuse f) (Stages.statement refuse' g) s r := by
  unfold Agree
  rw [exec_statement, exec_statement, ← hrefuse]
  cases hr : refuse s with
  | none => exact ⟨rfl, hdone hr⟩
  | some e => exact ⟨rfl, h.later hle⟩

end

theorem offset_cases (data : DeviceData) :
    (∃ e, offset data.lastSeenAt = .error e ∧ Registry.seen data = .error e) ∨
      ∃ o, offset data.lastSeenAt = .ok o ∧
        Registry.seen data = .ok { data with lastSeenAt := offsetToSecs o } := by
  unfold Registry.seen
  cases offset data.lastSeenAt with
  | error e => exact .inl ⟨e, rfl, rfl⟩
  | ok o => exact .inr ⟨o, rfl, rfl⟩

/-- The time of a device is checked on both sides. -/
theorem Agree.seen {last' : DbId} (h : Mirrors J last s r) (hle : last ≤ last') {data : DeviceData}
    {α : Type} {k : Int → Call α} {k' : DeviceData → Registry.Call α}
    (hk : ∀ o, offset data.lastSeenAt = .ok o →
      Agree J last' (k o) (k' { data with lastSeenAt := offsetToSecs o }) s r) :
    Agree J last' (ofExcept (offset data.lastSeenAt) >>= k)
      (ofExcept (Registry.seen data) >>= k') s r := by
  unfold Agree
  rw [exec_bind, exec_bind, exec_ofExcept, exec_ofExcept]
  rcases offset_cases data with ⟨e, ho, hseen⟩ | ⟨o, ho, hseen⟩
  · rw [ho, hseen]
    exact ⟨rfl, h.later hle⟩
  · rw [ho, hseen]
    exact hk o ho

theorem agree_createDevice (h : Mirrors J last s r) {newId : DbId} (hnew : last < newId)
    (fault : Option String) (deviceId : String) (data : DeviceData) :
    Agree J newId (createDevice fault newId deviceId data)
      (Registry.createDevice fault deviceId data) s r := by
  refine Agree.seen h hnew.le fun o _ => ?_
  have hfresh : newId ∉ s.device := fun hm => absurd (h.drawn _ hm) (not_le.2 hnew)
  have hrefuse : (if newId ∈ s.device then some (StoreError.unique "device.id")
      else refuseDevice s newId deviceId data.sessionId) =
      if deviceId ∈ r.device then some (.unique "uq_device_device_id")
      else if r.sessionTaken deviceId data.sessionId then some (.unique "uq_device_session_id")
      else none := by
    have htaken : s.device.taken (fun w => some w.deviceId) newId (some deviceId) = true ↔
        deviceId ∈ r.device := by
      rw [h.mem_device, Table.taken, Table.anyRow_iff]
      simp only [decide_eq_true_iff, findDevice_iff h.indexed, Option.isSome_some, true_and,
        Option.some.injEq]
      constructor
      · rintro ⟨j, w, hl, -, hw⟩
        exact ⟨j, w, hl, hw⟩
      · rintro ⟨j, w, hl, hw⟩
        exact ⟨j, w, hl, fun heq => hfresh (heq ▸ Finmap.mem_of_lookup_eq_some hl), hw⟩
    rw [if_neg hfresh, refuseDevice]
    by_cases hd : deviceId ∈ r.device
    · rw [if_pos (htaken.2 hd), if_pos hd]
    · rw [if_neg (fun ht => hd (htaken.1 ht)), if_neg hd, h.taken_session]
      intro j row hl
      refine iff_of_true (fun heq => ?_) fun heq => ?_
      · exact hfresh (heq ▸ Finmap.mem_of_lookup_eq_some hl)
      · exact hd (h.mem_device.2 ⟨j, row, (findDevice_iff h.indexed).2 ⟨hl, heq⟩⟩)
  have hor := congrArg ((fault.map StoreError.database).or ·) hrefuse
  refine Agree.statement h hnew.le hor fun hnone => ?_
  have hdevice : deviceId ∉ r.device := by
    intro hd
    have hsome := hor.symm.trans hnone
    rw [if_pos hd] at hsome
    cases fault <;> cases hsome
  refine h.insertDevice hnew (?_ : findDevice deviceId s = none)
  cases hfind : findDevice deviceId s with
  | none => rfl
  | some kr => exact absurd (h.mem_device.2 ⟨_, _, hfind⟩) hdevice

theorem agree_readDevice (h : Mirrors J last s r) (fault : Option String) (deviceId : String) :
    Agree J last (readDevice fault deviceId) (Registry.readDevice fault deviceId) s r := by
  unfold Agree readDevice Registry.readDevice
  rw [exec_query, exec_bind, exec_attempt]
  cases fault with
  | none => exact ⟨congrArg Except.ok (h.device deviceId).symm, h⟩
  | some e => exact ⟨rfl, h⟩

theorem agree_updateDevice (h : Mirrors J last s r) (select update : Option String)
    (deviceId : String) (data : DeviceData) :
    Agree J last (updateDevice select update deviceId data)
      (Registry.updateDevice select update deviceId data) s r := by
  refine Agree.query h (Agree.get ?_)
  cases hfind : findDevice deviceId s with
  | none =>
    rw [if_neg (h.notMem_device hfind)]
    exact ⟨rfl, h⟩
  | some kr =>
    obtain ⟨id, row⟩ := kr
    rw [if_pos (h.mem_device.2 ⟨id, row, hfind⟩)]
    refine Agree.seen h le_rfl fun o _ => ?_
    obtain ⟨hrow, hid⟩ := (findDevice_iff h.indexed).1 hfind
    have hkey : ∀ j w, s.device.lookup j = some w → (j ≠ id ↔ w.deviceId ≠ deviceId) := by
      intro j w hl
      refine not_congr ⟨fun heq => ?_, fun heq => ?_⟩
      · rw [heq, hrow] at hl
        cases hl
        exact hid
      · exact h.indexed _ _ _ _ deviceId hl hrow (congrArg some heq) (congrArg some hid)
    have hown : s.device.taken (fun w => some w.deviceId) id (some deviceId) = false := by
      refine Table.taken_eq_false.2 fun j w v hl hv hw => ?_
      rw [← hw, Option.some.injEq] at hv
      by_contra hne
      exact (hkey j w hl).1 hne hv.symm
    have hrefuse : refuseDevice s id deviceId data.sessionId =
        if r.sessionTaken deviceId data.sessionId then some (.unique "uq_device_session_id")
        else none := by
      rw [refuseDevice, hown, h.taken_session hkey]
      rfl
    have hor := congrArg ((update.map StoreError.database).or ·) hrefuse
    exact Agree.statement h le_rfl hor fun _ => h.updateDevice hfind fun _ => rfl

theorem refuseLink_eq_none (h : Mirrors J last s r) (did : String) {id : DbId} {row : DeviceRow}
    (hfind : findDevice deviceId s = some (id, row)) :
    refuseLink s id did = none ↔ (deviceId, did) ∉ r.linked ∧ did ∈ r.accounts.account := by
  have hid := Finmap.mem_of_lookup_eq_some ((findDevice_iff h.indexed).1 hfind).1
  rw [h.mem_linked hfind, h.accounts, refuseLink]
  by_cases hlink : (id, did) ∈ s.accountDevice
  · simp [hlink]
  · by_cases hdid : did ∈ s.accounts.account <;> simp [hlink, hdid, hid]

theorem agree_upsertDeviceAccount (h : Mirrors J last s r) (device insert update : Option String)
    (now : Int) (deviceId did : String) :
    Agree J last (upsertDeviceAccount device insert update now deviceId did)
      (Registry.upsertDeviceAccount device insert update deviceId did) s r := by
  refine Agree.query h (Agree.get ?_)
  cases hfind : findDevice deviceId s with
  | none =>
    rw [if_neg (h.notMem_device hfind)]
    exact ⟨rfl, h⟩
  | some kr =>
    obtain ⟨id, row⟩ := kr
    rw [if_pos (h.mem_device.2 ⟨id, row, hfind⟩)]
    have hrefuse := refuseLink_eq_none h did hfind
    have hinsert : (insertLink insert id did now).exec s =
        ((insert.map StoreError.database).or (refuseLink s id did)).elim
          (.ok (), { s with accountDevice := s.accountDevice.insert (id, did) ⟨now, now⟩ })
          fun e => (.error e, s) := exec_statement _ _ s
    show Agree J last (outcome (insertLink insert id did now) >>= _) (ite _ _ _) s r
    unfold Agree
    rw [exec_bind, exec_outcome, hinsert]
    by_cases hok : insert = none ∧ (deviceId, did) ∉ r.linked ∧ did ∈ r.accounts.account
    · rw [if_pos hok, hok.1, hrefuse.2 hok.2]
      exact ⟨rfl, h.link hfind (h.accounts ▸ hok.2.2)⟩
    · rw [if_neg hok]
      cases ho : (insert.map StoreError.database).or (refuseLink s id did) with
      | none =>
        obtain ⟨hnone, hfree⟩ := Option.or_eq_none_iff.1 ho
        exact absurd ⟨Option.map_eq_none_iff.1 hnone, hrefuse.1 hfree⟩ hok
      | some e =>
        show Agree J last (execute update _ _) (attempt _) s r
        unfold Agree
        rw [execute, exec_statement, exec_attempt]
        cases update with
        | none => exact ⟨rfl, h.touch _ _⟩
        | some e => exact ⟨rfl, h⟩

theorem agree_getAccount (h : Mirrors J last s r) (fault : Option String) (did : String) :
    Agree J last (getAccountInfo fault did) (Registry.getAccount fault did) s r := by
  unfold Agree getAccountInfo Registry.getAccount
  rw [exec_query, exec_bind, exec_attempt]
  cases fault with
  | none => exact ⟨congrArg (fun a => Except.ok (storeAccount did a)) h.accounts.symm, h⟩
  | some e => exact ⟨rfl, h⟩

theorem agree_getDeviceAccount (h : Mirrors J last s r) (device link account : Option String)
    (deviceId did : String) :
    Agree J last (getDeviceAccount device link account deviceId did)
      (Registry.getDeviceAccount device link account deviceId did) s r := by
  refine Agree.query h (Agree.get ?_)
  cases hfind : findDevice deviceId s with
  | none =>
    rw [if_neg (h.notMem_device hfind)]
    exact ⟨rfl, h⟩
  | some kr =>
    obtain ⟨id, row⟩ := kr
    rw [if_pos (h.mem_device.2 ⟨id, row, hfind⟩)]
    refine Agree.query h ?_
    cases hl : s.accountDevice.lookup (id, did) with
    | none =>
      rw [if_neg fun hm => Finmap.lookup_eq_none.1 hl ((h.mem_linked hfind).1 hm)]
      exact ⟨rfl, h⟩
    | some w =>
      rw [if_pos ((h.mem_linked hfind).2 (Finmap.mem_of_lookup_eq_some hl))]
      exact agree_getAccount h account did

/-- The rows of one device come in the order of their accounts. -/
theorem linkedDids_eq (h : Mirrors J last s r) {id : DbId} {row : DeviceRow}
    (hfind : findDevice deviceId s = some (id, row)) :
    linkedDids id s = r.linkedTo deviceId := by
  have hkey : ∀ (k : DbId × String) (w : AccountDeviceRow), ofLex (toLex k) = k := fun _ _ => rfl
  have hmem : ∀ did, did ∈ linkedDids id s ↔ did ∈ r.linkedTo deviceId := by
    intro did
    rw [linkedDids, List.mem_map, Registry.linkedTo, Finset.mem_sort, Finset.mem_image]
    constructor
    · rintro ⟨⟨⟨i, d⟩, w⟩, hm, rfl⟩
      obtain ⟨hl, hi⟩ := (Table.mem_selectBy hkey).1 hm
      obtain rfl := of_decide_eq_true hi
      have hlink := (h.mem_linked hfind).2 (Finmap.mem_of_lookup_eq_some hl)
      exact ⟨(deviceId, d), Finset.mem_filter.2 ⟨hlink, rfl⟩, rfl⟩
    · rintro ⟨⟨d, d'⟩, hm, rfl⟩
      obtain ⟨hlink, rfl⟩ := Finset.mem_filter.1 hm
      obtain ⟨w, hl⟩ := Finmap.mem_iff.1 ((h.mem_linked hfind).1 hlink)
      exact ⟨((id, d'), w), (Table.mem_selectBy hkey).2 ⟨hl, decide_eq_true rfl⟩, rfl⟩
  have hlt : (linkedDids id s).Pairwise (· < ·) := by
    refine List.pairwise_map.2 ((Table.pairwise_selectBy hkey s.accountDevice).imp_of_mem ?_)
    rintro ⟨⟨i, d⟩, w⟩ ⟨⟨j, d'⟩, w'⟩ hm hm' hlt
    obtain rfl := of_decide_eq_true ((Table.mem_selectBy hkey).1 hm).2
    obtain rfl := of_decide_eq_true ((Table.mem_selectBy hkey).1 hm').2
    rcases (Prod.Lex.toLex_lt_toLex).1 hlt with hlt | ⟨-, hlt⟩
    · exact absurd hlt (lt_irrefl _)
    · exact hlt
  have hlt' : (r.linkedTo deviceId).Pairwise (· < ·) := (Finset.sortedLT_sort _).pairwise
  have hperm := (List.perm_ext_iff_of_nodup (hlt.imp ne_of_lt) (hlt'.imp ne_of_lt)).2 hmem
  exact hperm.eq_of_pairwise (fun a b _ _ hab hba => absurd hba (lt_asymm hab)) hlt hlt'

theorem agree_listDeviceAccounts (h : Mirrors J last s r) (device links : Option String)
    (account : String → Option String) (deviceId : String) :
    Agree J last (listDeviceAccounts device links account deviceId)
      (Registry.listDeviceAccounts device links account deviceId) s r := by
  refine Agree.query h (Agree.get ?_)
  cases hfind : findDevice deviceId s with
  | none =>
    rw [if_neg (h.notMem_device hfind)]
    exact ⟨rfl, h⟩
  | some kr =>
    obtain ⟨id, row⟩ := kr
    rw [if_pos (h.mem_device.2 ⟨id, row, hfind⟩)]
    refine Agree.query h ?_
    let found (did : String) : Except StoreError (Option AccountInfo) :=
      ((account did).map StoreError.database).elim (.ok (storeAccount did s.accounts)) .error
    have hstore : ∀ did, (getAccountInfo (account did) did).exec s = (found did, s) := by
      intro did
      rw [getAccountInfo, exec_query]
      dsimp only [found]
      cases account did <;> rfl
    have hregistry : ∀ did, (Registry.getAccount (account did) did).exec r = (found did, r) := by
      intro did
      rw [Registry.getAccount, exec_bind, exec_attempt]
      dsimp only [found]
      rw [← h.accounts]
      cases account did <;> rfl
    unfold Agree
    rw [exec_bind, exec_bind, linkedDids_eq h hfind, exec_mapM hstore, exec_mapM hregistry]
    cases (r.linkedTo deviceId).mapM found <;> exact ⟨rfl, h⟩

theorem agree_removeDeviceAccount (h : Mirrors J last s r) (device delete : Option String)
    (deviceId did : String) :
    Agree J last (removeDeviceAccount device delete deviceId did)
      (Registry.removeDeviceAccount device delete deviceId did) s r := by
  refine Agree.query h (Agree.get ?_)
  cases hfind : findDevice deviceId s with
  | none =>
    rw [if_neg (h.notMem_device hfind)]
    exact ⟨rfl, h⟩
  | some kr =>
    obtain ⟨id, row⟩ := kr
    rw [if_pos (h.mem_device.2 ⟨id, row, hfind⟩)]
    show Agree J last (execute delete _ _) _ s r
    unfold Agree
    rw [execute, exec_statement, exec_bind, exec_attempt]
    cases delete with
    | none => exact ⟨rfl, h.unlink hfind⟩
    | some e => exact ⟨rfl, h⟩

/-! ## Consents -/

theorem agree_setAuthorizedClient (h : Mirrors J last s r) (insert update : Option String)
    (now : Int) (did clientId scope : String) :
    Agree J last (setAuthorizedClient J insert update now did clientId scope)
      (Registry.setAuthorizedClient insert update did clientId scope) s r := by
  refine Agree.get ?_
  let data := J.toString (authorizedScopes (splitAsciiWhitespace scope))
  let written := s.authorizedClient.upsert (did, clientId) ⟨now, now, data⟩ fun w =>
    { w with updatedAt := now, data }
  have hinsert : ∀ refuse : DeviceDb → Option StoreError,
      (execute insert refuse fun s => { s with
        authorizedClient := s.authorizedClient.upsert (did, clientId) ⟨now, now, data⟩ fun w =>
          { w with updatedAt := now, data } }).exec s =
      ((insert.map StoreError.database).or (refuse s)).elim
        (.ok (), { s with authorizedClient := written }) fun e => (.error e, s) :=
    fun refuse => exec_statement _ _ s
  show Agree J last (outcome (execute insert _ _) >>= _) (ite _ _ _) s r
  unfold Agree
  rw [exec_bind, exec_outcome, hinsert]
  by_cases hok : insert = none ∧ did ∈ r.accounts.account
  · have hdid : did ∈ s.accounts.account := h.accounts ▸ hok.2
    rw [if_pos hok, hok.1, if_pos hdid]
    refine ⟨rfl, h.grant hdid ⟨_, Table.lookup_upsert .. |>.trans (if_pos rfl), ?_⟩ fun k hk => ?_⟩
    · cases s.authorizedClient.lookup (did, clientId) <;> rfl
    · exact (Table.lookup_upsert ..).trans (if_neg hk)
  · rw [if_neg hok]
    cases ho : (insert.map StoreError.database).or
        (if did ∈ s.accounts.account then none
          else some (StoreError.database "FOREIGN KEY constraint failed")) with
    | none =>
      obtain ⟨hnone, hdid⟩ := Option.or_eq_none_iff.1 ho
      have hdid' : did ∈ r.accounts.account := by
        rw [h.accounts]
        by_contra hno
        rw [if_neg hno] at hdid
        cases hdid
      exact absurd ⟨Option.map_eq_none_iff.1 hnone, hdid'⟩ hok
    | some e =>
      show Agree J last (execute update _ _) (attempt _ >>= fun _ => ite _ _ _) s r
      unfold Agree
      rw [execute, exec_statement, exec_bind, exec_attempt]
      cases update with
      | some e => exact ⟨rfl, h⟩
      | none =>
        -- The row is there or the update finds nothing.
        by_cases hm : (did, clientId) ∈ r.consent
        · obtain ⟨w, hl⟩ := Finmap.mem_iff.1 (h.mem_consent.1 hm)
          have hupdate : ∀ k, (s.authorizedClient.update (did, clientId) fun w =>
              { w with updatedAt := now, data }).lookup k =
              if k = (did, clientId) then (s.authorizedClient.lookup k).map fun w =>
                { w with updatedAt := now, data } else s.authorizedClient.lookup k :=
            fun k => Table.lookup_update ..
          rw [if_pos hm]
          refine ⟨rfl, h.grant (h.byAccount _ _ hl) ⟨{ w with updatedAt := now, data }, ?_, rfl⟩
            fun k hk => (hupdate k).trans (if_neg hk)⟩
          rw [hupdate, if_pos rfl, hl]
          rfl
        · rw [if_neg hm]
          refine ⟨rfl, ?_⟩
          show Mirrors J last { s with authorizedClient := s.authorizedClient.update _ _ } r
          rw [Table.update_of_notMem fun hm' => hm (h.mem_consent.2 hm')]
          exact h

theorem filterMap_asStr (scopes : List String) :
    (scopes.map Server.JsonValue.string).filterMap asStr = scopes := by
  rw [List.filterMap_map]
  exact List.filterMap_some

theorem agree_getAuthorizedClientScope (h : Mirrors J last s r) (fault : Option String)
    (did clientId : String) :
    Agree J last (getAuthorizedClientScope J fault did clientId)
      (Registry.getAuthorizedClientScope fault did clientId) s r := by
  refine Agree.query h (Agree.get ?_)
  have hrow := h.consent (did, clientId)
  cases hl : s.authorizedClient.lookup (did, clientId) with
  | none =>
    rw [hl] at hrow
    rw [Option.map_eq_none_iff.1 hrow.symm]
    exact ⟨rfl, h⟩
  | some w =>
    rw [hl] at hrow
    obtain ⟨scopes, hscopes, hdata⟩ := Option.map_eq_some_iff.1 hrow.symm
    have hjoined : joinedScopes (authorizedScopes scopes) = " ".intercalate scopes :=
      congrArg (" ".intercalate ·) (filterMap_asStr scopes)
    unfold Agree
    rw [exec_bind, exec_ofExcept, ← hdata, J.fromStr_toString, hscopes]
    exact ⟨congrArg (fun text => Except.ok (some text)) hjoined, h⟩

/-! ## Runs -/

/-- A call that draws an id finds the 128 bits not used up, and a clock that a ULID can hold. -/
def Draws (s : DeviceStore) : DeviceCall → Prop
  | .createDevice _ now _ _ _ | .draw now _ => s.lastId.val + 1 < 2 ^ 128 ∧ now < 2 ^ 48
  | _ => True

theorem Agree.answer {α : Type} {x : Call α} {y : Registry.Call α} (h : Agree J last x y s r)
    (wrap : Except StoreError α → DeviceAnswer) :
    (answer wrap x s).1 = (answer wrap y r).1 ∧
      Mirrors J last (answer wrap x s).2 (answer wrap y r).2 :=
  ⟨congrArg wrap h.1, h.2⟩

theorem refines_callStore (G : UlidGenerator) (J : JsonText) :
    Machine.RefinesOn Draws (fun s r => Mirrors J s.lastId s.db r) (callStore G J) callRegistry := by
  intro s r call h hdraws
  cases call with
  | createDevice fault now rnd deviceId data =>
    have hnew := DbId.lt_new G hdraws.1 hdraws.2 rnd
    exact (agree_createDevice h hnew fault deviceId data).answer .unit
  | readDevice fault deviceId => exact (agree_readDevice h fault deviceId).answer .device
  | updateDevice select update deviceId data =>
    exact (agree_updateDevice h select update deviceId data).answer .unit
  | upsertDeviceAccount device insert update now deviceId did =>
    exact (agree_upsertDeviceAccount h device insert update now deviceId did).answer .unit
  | getDeviceAccount device link account deviceId did =>
    exact (agree_getDeviceAccount h device link account deviceId did).answer .account
  | listDeviceAccounts device links account deviceId =>
    exact (agree_listDeviceAccounts h device links account deviceId).answer .accounts
  | removeDeviceAccount device delete deviceId did =>
    exact (agree_removeDeviceAccount h device delete deviceId did).answer .unit
  | setAuthorizedClient insert update now did clientId scope =>
    exact (agree_setAuthorizedClient h insert update now did clientId scope).answer .unit
  | getAuthorizedClientScope fault did clientId =>
    exact (agree_getAuthorizedClientScope h fault did clientId).answer .scope
  | getAccount fault did => exact (agree_getAccount h fault did).answer .account
  | accounts accounts => exact ⟨rfl, h.withAccounts accounts⟩
  | draw now rnd => exact ⟨rfl, h.later (DbId.lt_new G hdraws.1 hdraws.2 rnd).le⟩

/-- The store and the registry before the first device. -/
theorem mirrors_empty (J : JsonText) (last : DbId) (accounts : Account.Db) :
    Mirrors J last ⟨accounts, ∅, ∅, ∅⟩ ⟨accounts, ∅, ∅, ∅⟩ where
  accounts := rfl
  indexed := Table.indexed_empty
  drawn _ hm := absurd hm Finmap.notMem_empty
  device _ := by rw [findDevice, Table.one_eq_none.2 fun _ _ hl => by cases hl]; rfl
  ofDevice _ _ hl := by cases hl
  ofAccount _ _ hl := by cases hl
  linked _ _ := iff_of_false (Finset.notMem_empty _) (by rintro ⟨_, _, _, hm⟩; exact Finmap.notMem_empty hm)
  byAccount _ _ hl := by cases hl
  consent _ := rfl

/-- **The store is the registry.** From a database without devices, any sequence of calls, with any
statements failing and any changes of the accounts in between, is answered as the registry answers
it. -/
theorem registry_answers (G : UlidGenerator) (J : JsonText) (last : DbId) (accounts : Account.Db)
    (calls : List DeviceCall)
    (hdraws : Machine.Along Draws (callStore G J) ⟨⟨accounts, ∅, ∅, ∅⟩, last⟩ calls) :
    Machine.answers (callStore G J) ⟨⟨accounts, ∅, ∅, ∅⟩, last⟩ calls =
      Machine.answers callRegistry ⟨accounts, ∅, ∅, ∅⟩ calls :=
  (refines_callStore G J).answers_eq (mirrors_empty J last accounts) hdraws

/-! ### One browser -/

/-- The text of an array of strings, less its brackets. -/
def elems : List String → List Char
  | [] => []
  | [s] => '"' :: s.toList.flatMap escape ++ ['"']
  | s :: t :: rest => '"' :: s.toList.flatMap escape ++ '"' :: ',' :: elems (t :: rest)
where
  escape (c : Char) : List Char := if c = '"' ∨ c = '\\' then ['\\', c] else [c]

/-- Read it back; `inside` is what has been read of a string that is open. -/
def readElems : List Char → Option (List Char) → List String → Option (List String)
  | [], none, done => some done.reverse
  | ',' :: cs, none, done => readElems cs none done
  | '"' :: cs, none, done => readElems cs (some []) done
  | '"' :: cs, some inside, done => readElems cs none (String.ofList inside.reverse :: done)
  | '\\' :: c :: cs, some inside, done => readElems cs (some (c :: inside)) done
  | c :: cs, some inside, done => readElems cs (some (c :: inside)) done
  | _, _, _ => none

theorem readElems_string (s inside cs : List Char) (done : List String) :
    readElems (s.flatMap elems.escape ++ '"' :: cs) (some inside) done =
      readElems cs none (String.ofList (inside.reverse ++ s) :: done) := by
  induction s generalizing inside with
  | nil =>
    rw [List.append_nil]
    rfl
  | cons c s ih =>
    have hnext : readElems ((c :: s).flatMap elems.escape ++ '"' :: cs) (some inside) done =
        readElems (s.flatMap elems.escape ++ '"' :: cs) (some (c :: inside)) done := by
      rw [List.flatMap_cons, List.append_assoc, elems.escape]
      split
      · rfl
      · rename_i hc
        rw [not_or] at hc
        rw [List.singleton_append, readElems]
        · exact hc.1
        · exact fun c' _ heq _ => hc.2 heq
    rw [hnext, ih, List.reverse_cons, List.append_assoc, List.singleton_append]

theorem readElems_elems (scopes done : List String) :
    readElems (elems scopes) none done = some (done.reverse ++ scopes) := by
  induction scopes using elems.induct generalizing done with
  | case1 =>
    rw [List.append_nil]
    rfl
  | case2 s =>
    have hs := readElems_string s.toList [] [] done
    rw [List.reverse_nil, List.nil_append, String.ofList_toList] at hs
    rw [elems, List.cons_append, readElems, hs, readElems, List.reverse_cons]
  | case3 s t rest ih =>
    have hs := readElems_string s.toList [] (',' :: elems (t :: rest)) done
    rw [List.reverse_nil, List.nil_append, String.ofList_toList] at hs
    rw [elems, List.cons_append, readElems, hs, readElems, ih, List.reverse_cons, List.append_assoc]
    rfl

/-- The one object, as it is written. -/
def scopesText (scopes : List String) : String :=
  String.ofList (front ++ (elems scopes ++ [']', '\x7d']))
where
  front : List Char := "\x7b\"authorizedScopes\":[".toList

def jsonText : JsonText where
  toString v := scopesText (((asArray (index "authorizedScopes" v)).getD []).filterMap asStr)
  fromStr text :=
    match readElems ((text.toList.drop 21).dropLast.dropLast) none [] with
    | some scopes => .ok (authorizedScopes scopes)
    | none => .error "expected value"
  fromStr_toString scopes := by
    have hstrings : ((asArray (index "authorizedScopes" (authorizedScopes scopes))).getD []).filterMap
        asStr = scopes := filterMap_asStr scopes
    have helems : ((scopesText scopes).toList.drop 21).dropLast.dropLast = elems scopes := by
      have hfront : scopesText.front.length = 21 := by decide
      have hback : elems scopes ++ [']', '\x7d'] = (elems scopes ++ [']']) ++ ['\x7d'] := by
        rw [List.append_assoc, List.singleton_append]
      rw [scopesText, String.toList_ofList, List.drop_left' hfront, hback, List.dropLast_concat,
        List.dropLast_concat]
    rw [hstrings, helems, readElems_elems]
    rfl

def aliceOnly : Account.Db where
  actor := Finmap.singleton "did:plc:alice" ⟨some "alice.test", "t0", none, none, none⟩
  account := Finmap.singleton "did:plc:alice" ⟨"alice@test", none, "hash", "t0"⟩
  inviteCode := ∅
  inviteCodeUse := ∅
  refreshToken := ∅
  repoRoot := ∅

/-- A device signs in, grants two scopes, and is asked about before and after the account is deleted. -/
def aliceCalls : List DeviceCall :=
  [.createDevice none 5 0 "dev-1" ⟨"ses-1", none, "10.0.0.1", 5⟩,
    .upsertDeviceAccount none none none 6 "dev-1" "did:plc:alice",
    .setAuthorizedClient none none 6 "did:plc:alice" "client-1" "atproto  transition:generic",
    .listDeviceAccounts none none (fun _ => none) "dev-1",
    .getAuthorizedClientScope none "did:plc:alice" "client-1",
    .accounts Account.Db.empty,
    .listDeviceAccounts none none (fun _ => none) "dev-1"]

theorem registry_answers_alice :
    Machine.answers (callStore ulidReference jsonText) ⟨⟨aliceOnly, ∅, ∅, ∅⟩, ⟨0, DbId.zero_isLt⟩⟩
        aliceCalls =
      Machine.answers callRegistry ⟨aliceOnly, ∅, ∅, ∅⟩ aliceCalls :=
  registry_answers ulidReference jsonText ⟨0, DbId.zero_isLt⟩ aliceOnly aliceCalls
    ⟨⟨by decide, by decide⟩, trivial, trivial, trivial, trivial, trivial, trivial, trivial⟩

end CacosPds.Account.Devices
