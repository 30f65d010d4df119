import CacosPds.Account.Tables
import CacosPds.Lib.UniqueIndex
import Mathlib.Data.String.Basic
/-!
# Looking an account up, and its status (`account/helpers/account.rs`, `account/mod.rs`)

| here | there |
| --- | --- |
| `ActorAccount`, `actorAccount` | `ActorAccount` and the select over `actor LEFT JOIN account`, less the columns that nothing here reads |
| `AvailabilityFlags.admits` | `availability_conditions` |
| `getAccount`    | `get_account`, by DID or by handle |
| `activateAccount`, `deactivateAccount` | `activate_account`, `deactivate_account`, one `UPDATE` each |
| `formatAccountStatus`, `AccountStatus.lex` | `format_account_status`; `From<AccountStatus>` for the lexicon's pair |
| `getAccountStatus` | `get_account_status` of the account manager |
-/
namespace CacosPds.Account

open Stages Sql

structure AvailabilityFlags where
  includeTakenDown : Option Bool
  includeDeactivated : Option Bool

structure ActorAccount where
  did : String
  handle : Option String
  takedownRef : Option String
  deactivatedAt : Option String
  deleteAfter : Option String
  email : Option String
  deriving DecidableEq

def AvailabilityFlags.admits (flags : Option AvailabilityFlags) (r : ActorRow) : Bool :=
  let flags := flags.getD ⟨some false, some false⟩
  (flags.includeTakenDown.getD false || r.takedownRef.isNone) &&
    (flags.includeDeactivated.getD false || r.deactivatedAt.isNone)

/-- The row of an actor, with its account's if there is one. -/
def actorAccount (s : Db) (did : String) (r : ActorRow) : ActorAccount where
  did := did
  handle := r.handle
  takedownRef := r.takedownRef
  deactivatedAt := r.deactivatedAt
  deleteAfter := r.deleteAfter
  email := (s.account.lookup did).map AccountRow.email

def isDid (s : String) : Bool := "did:".toList.isPrefixOf s.toList

def findAccount (handleOrDid : String) (flags : Option AvailabilityFlags) (s : Db) :
    Option ActorAccount :=
  let row :=
    if isDid handleOrDid then
      ((s.actor.lookup handleOrDid).filter (AvailabilityFlags.admits flags ·)).map (handleOrDid, ·)
    else s.actor.one fun _ r => r.handle = some handleOrDid && AvailabilityFlags.admits flags r
  row.map fun kr => actorAccount s kr.1 kr.2

def getAccount (fault : Option String) (handleOrDid : String) (flags : Option AvailabilityFlags) :
    Call (Option ActorAccount) :=
  query fault (findAccount handleOrDid flags)

/-! ## Activation -/

def updateActor (fault : Option String) (did : String) (f : ActorRow → ActorRow) : Call Unit :=
  execute fault (fun _ => none) fun s => { s with actor := s.actor.update did f }

def deactivateAccount (fault : Option String) (now did : String) (deleteAfter : Option String) :
    Call Unit :=
  updateActor fault did fun r => { r with deactivatedAt := some now, deleteAfter }

def activateAccount (fault : Option String) (did : String) : Call Unit :=
  updateActor fault did fun r => { r with deactivatedAt := none, deleteAfter := none }

/-! ## Status -/

inductive AccountStatus where
  | active | takendown | suspended | deleted | deactivated | desynchronized | throttled
  deriving DecidableEq

/-- The flag, and the status by its lexicon text. -/
def AccountStatus.lex : AccountStatus → Bool × Option String
  | .active => (true, none)
  | .deactivated => (false, some "deactivated")
  | .takendown => (false, some "takendown")
  | .suspended => (false, some "suspended")
  | .deleted => (false, some "deleted")
  | .desynchronized => (false, none)
  | .throttled => (true, some "throttled")

structure FormattedAccountStatus where
  active : Bool
  status : Option AccountStatus

def formatAccountStatus : Option ActorAccount → FormattedAccountStatus
  | none => ⟨false, some .deleted⟩
  | some got =>
    if got.takedownRef.isSome then ⟨false, some .takendown⟩
    else if got.deactivatedAt.isSome then ⟨false, some .deactivated⟩
    else ⟨true, none⟩

/-- An inactive account's status is there; the call would panic on one without. -/
def FormattedAccountStatus.toStatus (res : FormattedAccountStatus) : Option AccountStatus :=
  if res.active then some .active else res.status

def everyAccount : Option AvailabilityFlags := some ⟨some true, some true⟩

/-- What `get_account_status` reports. -/
def statusOf (did : String) (s : Db) : AccountStatus :=
  (formatAccountStatus (findAccount did everyAccount s)).toStatus.getD .active

def getAccountStatus (fault : Option String) (did : String) : Call AccountStatus :=
  query fault (statusOf did)

theorem toStatus_formatAccountStatus (account : Option ActorAccount) :
    (formatAccountStatus account).toStatus.isSome := by
  unfold formatAccountStatus
  split
  · rfl
  · split
    · rfl
    · split <;> rfl

section

variable {did : String} {s : Db}

/-- A DID is looked up by the primary key. -/
theorem findAccount_did (h : isDid did = true) (flags : Option AvailabilityFlags) :
    findAccount did flags s =
      ((s.actor.lookup did).filter (AvailabilityFlags.admits flags ·)).map (actorAccount s did) := by
  unfold findAccount
  rw [if_pos h, Option.map_map]
  rfl

/-- The status of a DID, by its actor row. -/
def rowStatus : Option ActorRow → AccountStatus
  | none => .deleted
  | some r =>
    if r.takedownRef.isSome then .takendown
    else if r.deactivatedAt.isSome then .deactivated
    else .active

theorem statusOf_did (h : isDid did = true) : statusOf did s = rowStatus (s.actor.lookup did) := by
  rw [statusOf, findAccount_did h]
  cases s.actor.lookup did with
  | none => rfl
  | some r =>
    have hadmits : AvailabilityFlags.admits everyAccount r = true := rfl
    rw [Option.filter_some, if_pos hadmits]
    simp only [Option.map_some, formatAccountStatus, actorAccount, rowStatus]
    split
    · rfl
    · split <;> rfl

end

end CacosPds.Account
