import CacosPds.Lib.Stages
import CacosPds.Lib.Table
import CacosPds.Types.Basic
/-!
# The account database (`migration/src/m20260801_000001_account.rs`)

| here | there |
| --- | --- |
| `ActorRow` … `RefreshTokenRow` | the rows of `actor`, `account`, `invite_code`, `invite_code_use`, `refresh_token`, `repo_root`, each under its primary key |
| `handleTaken`, `emailTaken` | the unique indexes on `lower(handle)` and `lower(email)` |
| `AccountError` | the errors of `account/helpers/`; foreign ones by their text |
| `Db`           | the six tables; none of them has a foreign key |

Times are the texts that the columns hold. SQLite compares them, and Rust compares the `rev` of a
root, byte by byte, which is the order of Lean's strings.
-/
namespace CacosPds.Account

open Stages Sql

structure ActorRow where
  handle : Option String
  createdAt : String
  takedownRef : Option String
  deactivatedAt : Option String
  deleteAfter : Option String
  deriving DecidableEq

structure AccountRow where
  email : String
  recoveryKey : Option String
  password : String
  createdAt : String
  deriving DecidableEq

structure InviteCode where
  availableUses : Int
  disabled : Int
  forAccount : String
  deriving DecidableEq

structure RefreshTokenRow where
  did : String
  expiresAt : String
  nextId : Option String
  appPasswordName : Option String
  deriving DecidableEq

structure RepoRoot where
  cid : Cid
  rev : String
  indexedAt : String
  deriving DecidableEq

@[ext] structure Db where
  actor : Table String ActorRow
  account : Table String AccountRow
  inviteCode : Table String InviteCode
  /-- `(code, usedBy)` to `usedAt`. -/
  inviteCodeUse : Table (String × String) String
  refreshToken : Table String RefreshTokenRow
  repoRoot : Table String RepoRoot

/-- A fresh database. -/
def Db.empty : Db := ⟨∅, ∅, ∅, ∅, ∅, ∅⟩

/-- SQLite's `lower`: ASCII letters only. -/
def lower (s : String) : List Char := s.toList.map Char.toLower

/-- A second row with this handle would violate `actor_handle_lower_idx`. -/
def handleTaken (handle : String) (s : Db) : Bool :=
  s.actor.anyRow fun _ r => r.handle.map lower = some (lower handle)

/-- A second row with this address would violate `account_email_lower_idx`. -/
def emailTaken (email : String) (s : Db) : Bool :=
  s.account.anyRow fun _ r => lower r.email = lower email

/-- `SELECT count(*) FROM invite_code_use WHERE code = ?`. -/
def usesOf (code : String) (s : Db) : Nat :=
  (s.inviteCodeUse.select (fun k _ => k.1 = code) Prod.mk).card

inductive AccountError where
  | userAlreadyExists
  | inviteNoneOrDisabled (code : String)
  | inviteNotEnoughUses (code : String)
  | revRegression (existing attempted : String)
  | expiryOutOfRange
  | concurrentRefresh
  /-- A row that would violate the named unique index. -/
  | unique (index : String)
  /-- A database error, by its text. -/
  | db (err : String)
  /-- An error of the password hash, the JWT library or a time format, by its text. -/
  | foreign (err : String)
  deriving DecidableEq

/-- The `Display` text; `debug` is the `:?` of a string, `violation` the database's text for a
violated index. -/
def AccountError.display (debug violation : String → String) : AccountError → String
  | .userAlreadyExists => "UserAlreadyExistsError"
  | .inviteNoneOrDisabled code =>
    "InvalidInviteCode: None or disabled. Provided invite code not available `" ++ debug code ++ "`"
  | .inviteNotEnoughUses code =>
    "InvalidInviteCode: Not enough uses. Provided invite code not available `" ++ debug code ++ "`"
  | .revRegression existing attempted =>
    "RevRegression: attempted `" ++ attempted ++ "` rejected by existing `" ++ existing ++ "`"
  | .expiryOutOfRange => "token expiry out of range"
  | .concurrentRefresh => "ConcurrentRefreshError"
  | .unique index => violation index
  | .db err | .foreign err => err

abbrev Call (α : Type) := Stages.Call Db AccountError α

/-- A statement on the account database: the database fails it, a constraint refuses it, or it is
applied. -/
def execute (fault : Option String) (refuse : Db → Option AccountError) (f : Db → Db) : Call Unit :=
  statement (fun s => (fault.map .db).or (refuse s)) f

theorem does_execute (fault : Option String) (refuse : Db → Option AccountError) (f : Db → Db) :
    Does (execute fault refuse f) (fun s => fault = none ∧ refuse s = none) f :=
  (does_statement _ f).congr (fun s => by cases fault <;> simp) fun _ _ => rfl

theorem clean_execute (fault : Option String) (refuse : Db → Option AccountError) (f : Db → Db) :
    Clean (execute fault refuse f) :=
  clean_statement _ f

theorem keeps_execute {R : Db → Db → Prop} (refl : ∀ s, R s s) (fault : Option String)
    (refuse : Db → Option AccountError) {f : Db → Db} (h : ∀ s, R s (f s)) :
    Keeps (execute fault refuse f) R :=
  keeps_statement refl _ fun s _ => h s

/-- A query. -/
def query {α : Type} (fault : Option String) (f : Db → α) : Call α := do
  attempt (fault.map .db)
  let s ← get
  return f s

theorem exec_query {α : Type} (fault : Option String) (f : Db → α) (s : Db) :
    (query fault f).exec s = (fault.elim (.ok (f s)) fun e => .error (.db e), s) := by
  rw [query, exec_bind, exec_attempt]
  cases fault <;> rfl

theorem reads_query {α : Type} (fault : Option String) (f : Db → α) : Reads (query fault f) := by
  intro s
  rw [exec_query]

end CacosPds.Account
