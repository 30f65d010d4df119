import CacosPds.Account.CreateAccount
import CacosPds.Lib.Run
/-!
# Refresh token rotation (`account/mod.rs:313-386`, `helpers/auth.rs:268-402`)

| here | there |
| --- | --- |
| `getRefreshToken`, `deleteExpiredRefreshTokens`, `addRefreshGracePeriod` | the statements of `rotate_refresh_token` in `auth.rs`; `storeRefreshToken` is its last one |
| `graceExpiry`, `successor` | what it computes between the sweep and the `try_join!` |
| `Rotation`    | one `rotate_refresh_token` |
| `Insert`      | the `store_refresh_token` of a `try_join!`; the database may run it after its call has gone on |
| `Revocation`  | `revoke_refresh_tokens_by_did`, `revoke_app_password_refresh_token`, `revoke_refresh_token` |
| `Library`     | the JWT library and the time formats |
| `History`     | which session a token belongs to, and which tokens and sessions were handed out or revoked |

A revocation deletes the rows of a session's tokens. What it does not reach is an insert that has
still to run for a token the session's rows already name as a successor (`NoInsertPending`,
`NoReuseSelected`), and, when only one token is revoked, the session's other rows (`LastToken`).
-/
namespace CacosPds.Account.Refresh

open Stages Runs Sql

inductive AuthScope where
  | access
  | appPass
  deriving DecidableEq

structure Library where
  /-- The access and the refresh JWT for a DID, a service DID, a scope and a `jti`. -/
  createTokens : String → String → AuthScope → String → Except String (String × String)
  decodeRefreshToken : String → Except String RefreshToken
  formatMillis : Nat → Option String
  parseMicros : String → Except String Int
  formatMicros : Int → Except String String
  /-- A token just signed verifies with the claims it was given. -/
  decode_createTokens : ∀ {did serviceDid scope jti access refresh p},
    createTokens did serviceDid scope jti = .ok (access, refresh) →
    decodeRefreshToken refresh = .ok p → p.sub = did ∧ p.jti = jti

/-! ## The statements -/

def getRefreshToken (fault : Option String) (id : String) : Call (Option RefreshTokenRow) :=
  query fault fun s => s.refreshToken.lookup id

/-- `DELETE FROM refresh_token WHERE p`. -/
def deleteTokens (fault : Option String) (p : String → RefreshTokenRow → Bool) : Call Unit :=
  execute fault (fun _ => none) fun s => { s with refreshToken := s.refreshToken.deleteWhere p }

def deleteExpiredRefreshTokens (fault : Option String) (did now : String) : Call Unit :=
  deleteTokens fault fun _ row => row.did = did ∧ row.expiresAt ≤ now

def revokeRefreshTokensByDid (fault : Option String) (did : String) : Call Unit :=
  deleteTokens fault fun _ row => row.did = did

def revokeAppPasswordRefreshToken (fault : Option String) (did appPassName : String) : Call Unit :=
  deleteTokens fault fun _ row => row.did = did ∧ row.appPasswordName = some appPassName

def revokeRefreshToken (fault : Option String) (id : String) : Call Unit :=
  deleteTokens fault fun k _ => k = id

/-- `WHERE id = ? AND ("nextId" IS NULL OR "nextId" = ?)`. -/
def graceRow (id nextId k : String) (row : RefreshTokenRow) : Bool :=
  k = id ∧ (row.nextId = none ∨ row.nextId = some nextId)

/-- No row updated is a `ConcurrentRefresh`. -/
def addRefreshGracePeriod (fault : Option String) (id expiresAt nextId : String) : Call Unit :=
  execute fault
    (fun s =>
      if s.refreshToken.anyRow (graceRow id nextId) then none else some .concurrentRefresh)
    (fun s => { s with
      refreshToken := s.refreshToken.updateWhere (graceRow id nextId) fun row =>
        { row with expiresAt, nextId := some nextId } })

/-! ## Between the statements -/

/-- `REFRESH_GRACE_MS * 1000`. -/
def refreshGraceMicros : Int := 2 * 60 * 60 * 1000 * 1000

/-- When the token's grace period ends; `none` if that is over. -/
def graceExpiry (L : Library) (row : RefreshTokenRow) (now : Int) :
    Except AccountError (Option Int) := do
  let prevExpiresAt ← (L.parseMicros row.expiresAt).mapError .foreign
  let expiresAt := min (now + refreshGraceMicros) prevExpiresAt
  return if expiresAt ≤ now then none else some expiresAt

/-- What the two statements of the `try_join!` are given, and what the call returns after them. -/
structure Successor where
  expiresAt : String
  nextId : String
  accessJwt : String
  refreshJwt : String
  payload : RefreshToken

def successor (L : Library) (serviceDid : String) (row : RefreshTokenRow) (expiresAt : Int)
    (nextId : String) : Except AccountError Successor := do
  let scope := if row.appPasswordName.isNone then AuthScope.access else .appPass
  let (accessJwt, refreshJwt) ←
    (L.createTokens row.did serviceDid scope nextId).mapError .foreign
  let payload ← (L.decodeRefreshToken refreshJwt).mapError .foreign
  let expiresAt ← (L.formatMicros expiresAt).mapError .foreign
  return ⟨expiresAt, nextId, accessJwt, refreshJwt, payload⟩

/-- `fresh` is the random id for a token that has no successor yet. -/
def prepareSuccessor (L : Library) (serviceDid : String) (row : RefreshTokenRow) (now : Int)
    (fresh : String) : Except AccountError (Option Successor) := do
  match ← graceExpiry L row now with
  | none => return none
  | some expiresAt =>
    let next ← successor L serviceDid row expiresAt (row.nextId.getD fresh)
    return some next

/-! ## The system -/

/-- The tokens that descend from one `create_session`, whose own token is `root`. -/
structure Session where
  root : String
  did : String
  appPasswordName : Option String
  deriving DecidableEq

/-- Nothing of this is stored. -/
structure History where
  /-- The session of every id ever drawn. -/
  sessionOf : Table String Session
  /-- The tokens of new sessions, and those that some row has named as its `nextId`. -/
  granted : Finset String
  /-- The tokens in the hands of clients. -/
  handedOut : Finset String
  revoked : Finset Session

def History.start : History := ⟨∅, ∅, ∅, ∅⟩

inductive InsertState where
  | waiting
  | done
  | failed
  deriving DecidableEq

structure Insert where
  payload : RefreshToken
  appPasswordName : Option String
  state : InsertState

inductive Stage where
  | select
  /-- With the row that the `SELECT` found. -/
  | sweep (row : RefreshTokenRow)
  /-- In the `try_join!`; `insert` is the number of its insert, `updated` that the update is done. -/
  | join (next : Successor) (insert : Nat) (updated : Bool)
  /-- `Ok(Some(..))`. -/
  | accepted (accessJwt refreshJwt : String)
  /-- `Ok(None)`. -/
  | refused
  | failed

/-- The call has returned or is gone. -/
def Stage.ended : Stage → Bool
  | .accepted _ _ | .refused | .failed => true
  | _ => false

structure Rotation where
  id : String
  serviceDid : String
  stage : Stage
  /-- The token's session was revoked before the call. -/
  late : Bool

structure World where
  db : Db
  rotations : List Rotation
  inserts : List Insert
  hist : History

inductive Revocation where
  | byDid (did : String)
  | byAppPassword (did appPassName : String)
  | byId (id : String)

def Revocation.statement (fault : Option String) : Revocation → Call Unit
  | .byDid did => revokeRefreshTokensByDid fault did
  | .byAppPassword did appPassName => revokeAppPasswordRefreshToken fault did appPassName
  | .byId id => revokeRefreshToken fault id

/-- The sessions that a revocation is about: those that exist when it runs. -/
def Revocation.covers (hist : History) : Revocation → Session → Bool
  | .byDid did, S => S.did = did
  | .byAppPassword did appPassName, S => S.did = did ∧ S.appPasswordName = some appPassName
  | .byId id, S => hist.sessionOf.lookup id = some S

def Revocation.covered (hist : History) (r : Revocation) : Finset Session :=
  (hist.sessionOf.select (fun _ S => r.covers hist S) fun _ S => S).toFinset

inductive Action where
  /-- `create_session` or `create_account`: a new session. -/
  | createSession (fault : Option String) (payload : RefreshToken) (appPasswordName : Option String)
  | rotate (id serviceDid : String)
  | select (i : Nat) (fault : Option String)
  /-- `now` in text and in microseconds, and the random id. -/
  | sweep (i : Nat) (fault : Option String) (now : String) (nowMicros : Int) (fresh : String)
  | grace (i : Nat) (fault : Option String)
  | insert (k : Nat) (fault : Option String)
  /-- Both statements have answered `Ok`. -/
  | finish (i : Nat)
  /-- The call fails on its insert, or is dropped. -/
  | drop (i : Nat)
  | revoke (fault : Option String) (r : Revocation)

/-- A token's session is revoked. -/
def History.isRevoked (hist : History) (id : String) : Bool :=
  match hist.sessionOf.lookup id with
  | some S => S ∈ hist.revoked
  | none => false

/-- A session that starts with the token `payload.jti`. -/
def History.newSession (hist : History) (payload : RefreshToken) (appPasswordName : Option String) :
    History where
  sessionOf := hist.sessionOf.insert payload.jti ⟨payload.jti, payload.sub, appPasswordName⟩
  granted := insert payload.jti hist.granted
  handedOut := insert payload.jti hist.handedOut
  revoked := hist.revoked

/-- The next token of a session, drawn for the row of its token `id`. -/
def History.drawn (hist : History) (id nextId : String) : History :=
  match hist.sessionOf.lookup id with
  | some S => { hist with sessionOf := hist.sessionOf.insertIgnore nextId S }
  | none => hist

def World.setStage (W : World) (i : Nat) (R : Rotation) (stage : Stage) : World :=
  { W with rotations := W.rotations.set i { R with stage } }

/-- After the sweep, with the answer of `prepareSuccessor`. A random id has not been drawn before. -/
def afterSweep (W : World) (i : Nat) (R : Rotation) (row : RefreshTokenRow) :
    Except AccountError (Option Successor) → Option World
  | .error _ => some (W.setStage i R .failed)
  | .ok none => some (W.setStage i R .refused)
  | .ok (some next) =>
    if row.nextId = none ∧ next.nextId ∈ W.hist.sessionOf then none
    else some { W.setStage i R (.join next W.inserts.length false) with
      inserts := W.inserts ++ [⟨next.payload, row.appPasswordName, .waiting⟩]
      hist := W.hist.drawn R.id next.nextId }

/-- The step of rotation `i` if it stands at a stage that the action is about. -/
def stepRotation (L : Library) (W : World) (i : Nat) (R : Rotation) : Stage → Action → Option World
  | .select, .select _ fault =>
    match ((getRefreshToken fault R.id).exec W.db).1 with
    | .error _ => some (W.setStage i R .failed)
    | .ok none => some (W.setStage i R .refused)
    | .ok (some row) => some (W.setStage i R (.sweep row))
  | .sweep row, .sweep _ fault now nowMicros fresh =>
    match (deleteExpiredRefreshTokens fault row.did now).exec W.db with
    | (.error _, db) => some ({ W with db }.setStage i R .failed)
    | (.ok _, db) =>
      afterSweep { W with db } i R row (prepareSuccessor L R.serviceDid row nowMicros fresh)
  | .join next k false, .grace _ fault =>
    match (addRefreshGracePeriod fault R.id next.expiresAt next.nextId).exec W.db with
    | (.ok _, db) =>
      some { { W with db }.setStage i R (.join next k true) with
        hist := { W.hist with granted := insert next.nextId W.hist.granted } }
    | (.error .concurrentRefresh, db) => some ({ W with db }.setStage i R .select)
    | (.error _, db) => some ({ W with db }.setStage i R .failed)
  | .join next k true, .finish _ =>
    if W.inserts[k]?.map Insert.state = some .done then
      some { W.setStage i R (.accepted next.accessJwt next.refreshJwt) with
        hist := { W.hist with handedOut := insert next.nextId W.hist.handedOut } }
    else none
  | stage, .drop _ => if stage.ended then none else some (W.setStage i R .failed)
  | _, _ => none

def stepInsert (L : Library) (W : World) (k : Nat) (fault : Option String) (I : Insert) :
    Option World :=
  if I.state = .waiting then
    match (storeRefreshToken fault L.formatMillis I.payload I.appPasswordName).exec W.db with
    | (.ok _, db) => some { W with db, inserts := W.inserts.set k { I with state := .done } }
    | (.error _, db) => some { W with db, inserts := W.inserts.set k { I with state := .failed } }
  else none

def stepRevoke (W : World) (fault : Option String) (r : Revocation) : World :=
  match (r.statement fault).exec W.db with
  | (.ok _, db) =>
    { W with db, hist := { W.hist with revoked := W.hist.revoked ∪ r.covered W.hist } }
  | (.error _, db) => { W with db }

/-- Ids are random and do not repeat; a token that is presented was handed out. -/
def step (L : Library) (W : World) : Action → Option World
  | .createSession fault payload appPasswordName =>
    if payload.jti ∈ W.hist.sessionOf then none
    else
      match (storeRefreshToken fault L.formatMillis payload appPasswordName).exec W.db with
      | (.ok _, db) => some { W with db, hist := W.hist.newSession payload appPasswordName }
      | (.error _, db) => some { W with db }
  | .rotate id serviceDid =>
    if id ∈ W.hist.handedOut then
      some { W with rotations := W.rotations ++ [⟨id, serviceDid, .select, W.hist.isRevoked id⟩] }
    else none
  | .insert k fault => W.inserts[k]?.bind (stepInsert L W k fault)
  | .revoke fault r => some (stepRevoke W fault r)
  | .select i fault => W.rotations[i]?.bind fun R => stepRotation L W i R R.stage (.select i fault)
  | .sweep i fault now nowMicros fresh =>
    W.rotations[i]?.bind fun R =>
      stepRotation L W i R R.stage (.sweep i fault now nowMicros fresh)
  | .grace i fault => W.rotations[i]?.bind fun R => stepRotation L W i R R.stage (.grace i fault)
  | .finish i => W.rotations[i]?.bind fun R => stepRotation L W i R R.stage (.finish i)
  | .drop i => W.rotations[i]?.bind fun R => stepRotation L W i R R.stage (.drop i)

/-- A database without refresh tokens yet. -/
def World.start (db : Db) : World := ⟨{ db with refreshToken := ∅ }, [], [], .start⟩

/-- No rotation that starts with a token of a revoked session is accepted. -/
def RevokedStays (W : World) : Prop :=
  ∀ R ∈ W.rotations, R.late = true → ∀ accessJwt refreshJwt, R.stage ≠ .accepted accessJwt refreshJwt

/-! ## The condition -/

/-- The successor that the row a rotation has selected already names. -/
def Stage.selectedNext : Stage → Option String
  | .sweep row => row.nextId
  | _ => none

/-- No insert of the session is still to run for a token that a row names as successor. -/
def NoInsertPending (W : World) (S : Session) : Prop :=
  ∀ I ∈ W.inserts, I.state = .waiting → W.hist.sessionOf.lookup I.payload.jti = some S →
    I.payload.jti ∉ W.hist.granted

/-- No rotation of the session is about to insert such a token again. -/
def NoReuseSelected (W : World) (S : Session) : Prop :=
  ∀ R ∈ W.rotations, W.hist.sessionOf.lookup R.id = some S → R.stage.selectedNext = none

/-- Only the one token of the session has a row. -/
def LastToken (W : World) (S : Session) (id : String) : Prop :=
  W.db.refreshToken.anyRow (fun k _ =>
    k ≠ id ∧ k ∈ W.hist.granted ∧ W.hist.sessionOf.lookup k = some S) = false

/-- The revocation reaches all there is of the session. -/
def Reaches (W : World) (S : Session) : Revocation → Prop
  | .byId id => NoInsertPending W S ∧ NoReuseSelected W S ∧ LastToken W S id
  | .byDid _ | .byAppPassword _ _ => NoInsertPending W S ∧ NoReuseSelected W S

/-- The condition on a step. -/
def ReachesAll (W : World) : Action → Prop
  | .revoke fault r => fault = none → ∀ S ∈ r.covered W.hist, Reaches W S r
  | _ => True

instance (W : World) (S : Session) : Decidable (NoInsertPending W S) :=
  inferInstanceAs (Decidable (∀ I ∈ W.inserts, _ → _ → _))

instance (W : World) (S : Session) : Decidable (NoReuseSelected W S) :=
  inferInstanceAs (Decidable (∀ R ∈ W.rotations, _ → _))

instance (W : World) (S : Session) : ∀ r, Decidable (Reaches W S r)
  | .byId _ => inferInstanceAs (Decidable (_ ∧ _ ∧ (_ = _)))
  | .byDid _ | .byAppPassword _ _ => inferInstanceAs (Decidable (_ ∧ _))

instance (W : World) : ∀ a, Decidable (ReachesAll W a)
  | .revoke fault r =>
    inferInstanceAs (Decidable (fault = none → ∀ S ∈ r.covered W.hist, Reaches W S r))
  | .createSession _ _ _ | .rotate _ _ | .select _ _ | .sweep _ _ _ _ _ | .grace _ _ | .insert _ _
  | .finish _ | .drop _ => isTrue trivial

/-! ## The invariant -/

/-- A row carries its session's data, names a successor in the session, and is no token of a revoked
session that anyone may hold. -/
structure RowInv (H : History) (id : String) (row : RefreshTokenRow) (S : Session) : Prop where
  session : H.sessionOf.lookup id = some S
  did : row.did = S.did
  appPasswordName : row.appPasswordName = S.appPasswordName
  next : ∀ n, row.nextId = some n → n ∈ H.granted ∧ H.sessionOf.lookup n = some S
  revoked : S ∈ H.revoked → id ∉ H.granted

structure InsertInv (H : History) (I : Insert) (S : Session) : Prop where
  session : H.sessionOf.lookup I.payload.jti = some S
  did : I.payload.sub = S.did
  appPasswordName : I.appPasswordName = S.appPasswordName
  revoked : S ∈ H.revoked → I.state = .waiting → I.payload.jti ∉ H.granted

/-- What a rotation of a token of session `S` knows at a stage. -/
def StageInv (H : History) (S : Session) : Stage → Prop
  | .sweep row => row.did = S.did ∧ row.appPasswordName = S.appPasswordName ∧
      (∀ n, row.nextId = some n → n ∈ H.granted ∧ H.sessionOf.lookup n = some S) ∧
      (S ∈ H.revoked → row.nextId = none)
  | .join next _ updated => H.sessionOf.lookup next.nextId = some S ∧
      (updated = true → next.nextId ∈ H.granted)
  | _ => True

/-- The stages of a rotation that has got no row. -/
def Stage.empty : Stage → Bool
  | .select | .refused | .failed => true
  | _ => false

structure RotationInv (H : History) (R : Rotation) (S : Session) : Prop where
  session : H.sessionOf.lookup R.id = some S
  presented : R.id ∈ H.granted
  stage : StageInv H S R.stage
  late : R.late = true → R.stage.empty = true ∧ S ∈ H.revoked

structure HistoryInv (H : History) : Prop where
  granted : ∀ id ∈ H.granted, ∃ S, H.sessionOf.lookup id = some S
  handedOut : H.handedOut ⊆ H.granted
  root : ∀ id S, H.sessionOf.lookup id = some S → S.root ∈ H.sessionOf
  revoked : ∀ S ∈ H.revoked, ∃ id, H.sessionOf.lookup id = some S

structure TokenInv (W : World) : Prop where
  hist : HistoryInv W.hist
  row : ∀ id row, W.db.refreshToken.lookup id = some row → ∃ S, RowInv W.hist id row S
  inserts : ∀ I ∈ W.inserts, ∃ S, InsertInv W.hist I S
  rotation : ∀ R ∈ W.rotations, ∃ S, RotationInv W.hist R S

theorem TokenInv.revokedStays {W : World} (h : TokenInv W) : RevokedStays W := by
  intro R hR hlate accessJwt refreshJwt hstage
  obtain ⟨S, hinv⟩ := h.rotation R hR
  have := (hinv.late hlate).1
  rw [hstage] at this
  cases this

/-- The history grows, but not by a token of a revoked session. -/
structure Grows (H H' : History) : Prop where
  sessionOf : ∀ id S, H.sessionOf.lookup id = some S → H'.sessionOf.lookup id = some S
  granted : H.granted ⊆ H'.granted
  revoked : H'.revoked = H.revoked
  quiet : ∀ id S, id ∈ H'.granted → H'.sessionOf.lookup id = some S → S ∈ H.revoked →
    id ∈ H.granted

section

variable {H H' : History} {S : Session}

theorem RowInv.grows {id : String} {row : RefreshTokenRow} (h : RowInv H id row S)
    (hg : Grows H H') : RowInv H' id row S where
  session := hg.sessionOf _ _ h.session
  did := h.did
  appPasswordName := h.appPasswordName
  next n hn := ⟨hg.granted (h.next n hn).1, hg.sessionOf _ _ (h.next n hn).2⟩
  revoked hS hid := by
    rw [hg.revoked] at hS
    exact h.revoked hS (hg.quiet _ _ hid (hg.sessionOf _ _ h.session) hS)

theorem InsertInv.grows {I : Insert} (h : InsertInv H I S) (hg : Grows H H') :
    InsertInv H' I S where
  session := hg.sessionOf _ _ h.session
  did := h.did
  appPasswordName := h.appPasswordName
  revoked hS hw hid := by
    rw [hg.revoked] at hS
    exact h.revoked hS hw (hg.quiet _ _ hid (hg.sessionOf _ _ h.session) hS)

theorem StageInv.grows {stage : Stage} (h : StageInv H S stage) (hg : Grows H H') :
    StageInv H' S stage := by
  cases stage with
  | sweep row =>
    obtain ⟨hd, ha, hn, hr⟩ := h
    refine ⟨hd, ha, fun n hrow => ?_, fun hS => hr (hg.revoked ▸ hS)⟩
    exact ⟨hg.granted (hn n hrow).1, hg.sessionOf _ _ (hn n hrow).2⟩
  | join next k updated => exact ⟨hg.sessionOf _ _ h.1, fun hu => hg.granted (h.2 hu)⟩
  | _ => trivial

theorem RotationInv.grows {R : Rotation} (h : RotationInv H R S) (hg : Grows H H') :
    RotationInv H' R S where
  session := hg.sessionOf _ _ h.session
  presented := hg.granted h.presented
  stage := h.stage.grows hg
  late hl := ⟨(h.late hl).1, hg.revoked ▸ (h.late hl).2⟩

theorem Grows.refl (H : History) : Grows H H := ⟨fun _ _ h => h, fun _ h => h, rfl, fun _ _ h _ _ => h⟩

end

/-! ## What the statements do -/

theorem storeRefreshToken_ok {fault : Option String} {formatMillis : Nat → Option String}
    {payload : RefreshToken} {appPasswordName : Option String} {s t : Db}
    (h : (storeRefreshToken fault formatMillis payload appPasswordName).exec s = (.ok (), t))
    {id : String} {row : RefreshTokenRow} (hrow : t.refreshToken.lookup id = some row) :
    s.refreshToken.lookup id = some row ∨
      id = payload.jti ∧ ∃ expiresAt, formatMillis payload.exp = some expiresAt ∧
        row = ⟨payload.sub, expiresAt, none, appPasswordName⟩ := by
  obtain ⟨⟨hsome, -⟩, rfl⟩ := (does_storeRefreshToken _ _ _ _ _ _).1 h
  obtain ⟨expiresAt, he⟩ := Option.isSome_iff_exists.1 hsome
  simp only [he, Option.elim, Table.lookup_insertIgnore] at hrow
  split at hrow
  · rename_i hid
    cases hold : s.refreshToken.lookup payload.jti with
    | some old =>
      rw [hold] at hrow
      exact .inl (by rw [hid, hold]; exact hrow)
    | none =>
      rw [hold] at hrow
      cases hrow
      exact .inr ⟨hid, expiresAt, he, rfl⟩
  · exact .inl hrow

theorem clean_storeRefreshToken (fault : Option String) (formatMillis : Nat → Option String)
    (payload : RefreshToken) (appPasswordName : Option String) :
    Clean (storeRefreshToken fault formatMillis payload appPasswordName) := by
  unfold storeRefreshToken
  split
  · exact (reads_throw _).clean
  · exact clean_execute _ _ _

theorem deleteTokens_ok {fault : Option String} {p : String → RefreshTokenRow → Bool} {s t : Db}
    (h : (deleteTokens fault p).exec s = (.ok (), t)) {id : String} {row : RefreshTokenRow} :
    t.refreshToken.lookup id = some row ↔ s.refreshToken.lookup id = some row ∧ p id row = false := by
  obtain ⟨-, rfl⟩ := (does_execute _ _ _ _ _).1 h
  exact Table.lookup_deleteWhere_eq_some

theorem addRefreshGracePeriod_ok {fault : Option String} {id expiresAt nextId : String} {s t : Db}
    (h : (addRefreshGracePeriod fault id expiresAt nextId).exec s = (.ok (), t)) :
    (∃ row, s.refreshToken.lookup id = some row ∧
      (row.nextId = none ∨ row.nextId = some nextId)) ∧
      t = { s with refreshToken := s.refreshToken.updateWhere (graceRow id nextId) fun row =>
        { row with expiresAt, nextId := some nextId } } := by
  obtain ⟨⟨-, hrefuse⟩, rfl⟩ := (does_execute _ _ _ _ _).1 h
  refine ⟨?_, rfl⟩
  split at hrefuse
  · rename_i hany
    obtain ⟨k, row, hl, hp⟩ := Table.anyRow_iff.1 hany
    obtain ⟨rfl, hnext⟩ := of_decide_eq_true hp
    exact ⟨row, hl, hnext⟩
  · cases hrefuse

/-- The insert and the update are given the same id, and the insert the DID of the row. -/
theorem prepareSuccessor_some {L : Library} {serviceDid fresh : String} {row : RefreshTokenRow}
    {now : Int} {next : Successor}
    (h : prepareSuccessor L serviceDid row now fresh = .ok (some next)) :
    next.nextId = row.nextId.getD fresh ∧ next.payload.jti = next.nextId ∧
      next.payload.sub = row.did := by
  obtain ⟨expiry, -, h⟩ := except_bind_ok.1 h
  cases expiry with
  | none => cases h
  | some expiresAt =>
    obtain ⟨next', hnext, h⟩ := except_bind_ok.1 h
    cases h
    obtain ⟨⟨access, refresh⟩, htokens, hnext⟩ := except_bind_ok.1 hnext
    obtain ⟨payload, hdecode, hnext⟩ := except_bind_ok.1 hnext
    obtain ⟨text, -, hnext⟩ := except_bind_ok.1 hnext
    cases hnext
    obtain ⟨hsub, hjti⟩ :=
      L.decode_createTokens (except_mapError_ok.1 htokens) (except_mapError_ok.1 hdecode)
    exact ⟨rfl, hjti, hsub⟩

/-! ## The steps -/

section

variable {W : World} {i : Nat} {R : Rotation}

theorem TokenInv.setStage (h : TokenInv W) (hi : W.rotations[i]? = some R) {stage : Stage}
    (hstage : ∀ S, RotationInv W.hist R S →
      StageInv W.hist S stage ∧ (R.late = true → stage.empty = true)) :
    TokenInv (W.setStage i R stage) where
  hist := h.hist
  row := h.row
  inserts := h.inserts
  rotation := by
    obtain ⟨S, hR⟩ := h.rotation R (List.mem_of_getElem? hi)
    obtain ⟨hok, hempty⟩ := hstage S hR
    refine forall_mem_set ⟨S, ?_⟩ h.rotation
    exact ⟨hR.session, hR.presented, hok, fun hl => ⟨hempty hl, (hR.late hl).2⟩⟩

/-- A stage without a row suits any rotation. -/
theorem TokenInv.setStage_empty (h : TokenInv W) (hi : W.rotations[i]? = some R) {stage : Stage}
    (he : stage.empty = true) : TokenInv (W.setStage i R stage) := by
  refine h.setStage hi fun S _ => ⟨?_, fun _ => he⟩
  cases stage with
  | select | refused | failed => trivial
  | _ => cases he

theorem TokenInv.update (db : Db) {H : History} (h : TokenInv W) (hg : Grows W.hist H)
    (hH : HistoryInv H)
    (hrow : ∀ id row, db.refreshToken.lookup id = some row →
      W.db.refreshToken.lookup id = some row ∨ ∃ S, RowInv H id row S) :
    TokenInv { W with db, hist := H } where
  hist := hH
  row id row hl := by
    rcases hrow id row hl with hl | hinv
    · obtain ⟨S, hinv⟩ := h.row id row hl
      exact ⟨S, hinv.grows hg⟩
    · exact hinv
  inserts I hI := by
    obtain ⟨S, hinv⟩ := h.inserts I hI
    exact ⟨S, hinv.grows hg⟩
  rotation R hR := by
    obtain ⟨S, hinv⟩ := h.rotation R hR
    exact ⟨S, hinv.grows hg⟩

/-- A statement that only deletes rows, or none. -/
theorem TokenInv.shrink {db : Db} (h : TokenInv W)
    (hrow : ∀ id row, db.refreshToken.lookup id = some row →
      W.db.refreshToken.lookup id = some row) : TokenInv { W with db } :=
  h.update _ (.refl _) h.hist fun id row hl => .inl (hrow id row hl)

theorem TokenInv.addInsert (h : TokenInv W) {I : Insert} (hI : ∃ S, InsertInv W.hist I S) :
    TokenInv { W with inserts := W.inserts ++ [I] } where
  hist := h.hist
  row := h.row
  rotation := h.rotation
  inserts J hJ := by
    rcases List.mem_append.1 hJ with hJ | hJ
    · exact h.inserts J hJ
    · rw [List.mem_singleton.1 hJ]
      exact hI

/-- The row that an insert writes. -/
theorem InsertInv.row {H : History} {I : Insert} {S : Session} (h : InsertInv H I S)
    (hw : I.state = .waiting) (expiresAt : String) :
    RowInv H I.payload.jti ⟨I.payload.sub, expiresAt, none, I.appPasswordName⟩ S where
  session := h.session
  did := h.did
  appPasswordName := h.appPasswordName
  next _ hn := by cases hn
  revoked hS := h.revoked hS hw

/-! ### A new session -/

theorem HistoryInv.newSession {H : History} (h : HistoryInv H) {payload : RefreshToken}
    (hnew : payload.jti ∉ H.sessionOf) (appPasswordName : Option String) :
    HistoryInv (H.newSession payload appPasswordName) ∧
      Grows H (H.newSession payload appPasswordName) := by
  have hkeep : ∀ id S, H.sessionOf.lookup id = some S →
      (H.newSession payload appPasswordName).sessionOf.lookup id = some S := by
    intro id S hl
    simp only [History.newSession, Table.lookup_insert_eq]
    split
    · subst_vars
      exact absurd (Finmap.mem_of_lookup_eq_some hl) hnew
    · exact hl
  have hself : (H.newSession payload appPasswordName).sessionOf.lookup payload.jti =
      some ⟨payload.jti, payload.sub, appPasswordName⟩ := by
    simp only [History.newSession, Table.lookup_insert_eq, if_true]
  refine ⟨⟨?_, ?_, ?_, ?_⟩, ⟨hkeep, Finset.subset_insert _ _, rfl, ?_⟩⟩
  · intro id hid
    rcases Finset.mem_insert.1 hid with rfl | hid
    · exact ⟨_, hself⟩
    · obtain ⟨S, hl⟩ := h.granted id hid
      exact ⟨S, hkeep id S hl⟩
  · exact Finset.insert_subset_insert _ h.handedOut
  · intro id S hl
    refine Finmap.mem_insert.2 ?_
    rcases Table.lookup_insert_eq_some.1 hl with ⟨-, rfl⟩ | ⟨-, hl⟩
    · exact .inl rfl
    · exact .inr (h.root id S hl)
  · intro S hS
    obtain ⟨id, hl⟩ := h.revoked S hS
    exact ⟨id, hkeep id S hl⟩
  · intro id S hid hl hS
    rcases Finset.mem_insert.1 hid with rfl | hid
    · rw [hself, Option.some.injEq] at hl
      obtain ⟨id, hid⟩ := h.revoked S hS
      have hroot := h.root id S hid
      rw [← hl] at hroot
      exact absurd hroot hnew
    · exact hid

theorem TokenInv.createSession (h : TokenInv W) {db : Db} {fault : Option String}
    {formatMillis : Nat → Option String} {payload : RefreshToken} {appPasswordName : Option String}
    (hnew : payload.jti ∉ W.hist.sessionOf)
    (hx : (storeRefreshToken fault formatMillis payload appPasswordName).exec W.db = (.ok (), db)) :
    TokenInv { W with db, hist := W.hist.newSession payload appPasswordName } := by
  obtain ⟨hH, hg⟩ := h.hist.newSession hnew appPasswordName
  refine h.update _ hg hH fun id row hl => ?_
  refine (storeRefreshToken_ok hx hl).imp_right ?_
  rintro ⟨rfl, expiresAt, -, rfl⟩
  refine ⟨⟨payload.jti, payload.sub, appPasswordName⟩, ?_, rfl, rfl, (fun _ hn => by cases hn), ?_⟩
  · simp only [History.newSession, Table.lookup_insert_eq, if_true]
  · intro hS
    obtain ⟨id, hid⟩ := h.hist.revoked _ hS
    exact absurd (h.hist.root id _ hid) hnew

/-! ### A rotation -/

theorem TokenInv.select (h : TokenInv W) (hi : W.rotations[i]? = some R) {row : RefreshTokenRow}
    (hrow : W.db.refreshToken.lookup R.id = some row) : TokenInv (W.setStage i R (.sweep row)) := by
  refine h.setStage hi fun S hR => ?_
  obtain ⟨S', hinv⟩ := h.row R.id row hrow
  obtain rfl : S = S' := Option.some.inj (hR.session.symm.trans hinv.session)
  -- a revoked session has no row that can be presented
  have hlive : S ∉ W.hist.revoked := fun hS => hinv.revoked hS hR.presented
  exact ⟨⟨hinv.did, hinv.appPasswordName, hinv.next, fun hS => absurd hS hlive⟩,
    fun hl => absurd (hR.late hl).2 hlive⟩

theorem HistoryInv.drawn {H : History} (h : HistoryInv H) (id nextId : String) :
    HistoryInv (H.drawn id nextId) ∧ Grows H (H.drawn id nextId) := by
  unfold History.drawn
  cases hS : H.sessionOf.lookup id with
  | none => exact ⟨h, .refl H⟩
  | some S =>
    have hkeep : ∀ k T, H.sessionOf.lookup k = some T →
        (H.sessionOf.insertIgnore nextId S).lookup k = some T := by
      intro k T hl
      rw [Table.lookup_insertIgnore]
      split
      · subst_vars
        rw [hl]
        rfl
      · exact hl
    refine ⟨⟨fun k hk => ?_, h.handedOut, fun k T hl => ?_, fun T hT => ?_⟩,
      ⟨hkeep, fun _ hk => hk, rfl, fun _ _ hk _ _ => hk⟩⟩
    · obtain ⟨T, hl⟩ := h.granted k hk
      exact ⟨T, hkeep k T hl⟩
    · refine (Table.mem_insertIgnore _ _ _ _).2 (.inr ?_)
      rw [Table.lookup_insertIgnore] at hl
      split at hl
      · cases hold : H.sessionOf.lookup nextId with
        | some T' =>
          rw [hold] at hl
          cases hl
          exact h.root _ _ hold
        | none =>
          rw [hold] at hl
          cases hl
          exact h.root _ _ hS
      · exact h.root _ _ hl
    · obtain ⟨k, hl⟩ := h.revoked T hT
      exact ⟨k, hkeep k T hl⟩

/-- The session of the token drawn is that of the row's. -/
theorem History.lookup_drawn {H : History} {id nextId : String} {S : Session}
    (hS : H.sessionOf.lookup id = some S)
    (hnext : H.sessionOf.lookup nextId = none ∨ H.sessionOf.lookup nextId = some S) :
    (H.drawn id nextId).sessionOf.lookup nextId = some S := by
  unfold History.drawn
  rw [hS]
  simp only [Table.lookup_insertIgnore, if_true]
  rcases hnext with hn | hn <;> rw [hn] <;> rfl

theorem TokenInv.afterSweep {L : Library} {fresh : String} {now : Int} {row : RefreshTokenRow}
    {W' : World} (h : TokenInv W) (hi : W.rotations[i]? = some R) (hrow : R.stage = .sweep row)
    (hstep : afterSweep W i R row (prepareSuccessor L R.serviceDid row now fresh) = some W') :
    TokenInv W' := by
  cases hprep : prepareSuccessor L R.serviceDid row now fresh with
  | error e =>
    rw [hprep] at hstep
    cases hstep
    exact h.setStage_empty hi rfl
  | ok next? =>
    cases next? with
    | none =>
      rw [hprep] at hstep
      cases hstep
      exact h.setStage_empty hi rfl
    | some next =>
      rw [hprep] at hstep
      simp only [Refresh.afterSweep] at hstep
      split at hstep
      · cases hstep
      rename_i hfresh
      cases hstep
      obtain ⟨hid, hjti, hsub⟩ := prepareSuccessor_some hprep
      obtain ⟨S, hR⟩ := h.rotation R (List.mem_of_getElem? hi)
      have hstage := hR.stage
      rw [hrow] at hstage
      obtain ⟨hdid, happ, hnext, hreuse⟩ := hstage
      have hknown : W.hist.sessionOf.lookup next.nextId = none ∨
          W.hist.sessionOf.lookup next.nextId = some S := by
        cases hn : row.nextId with
        | none => exact .inl (Finmap.lookup_eq_none.2 fun hm => hfresh ⟨hn, hm⟩)
        | some n =>
          rw [hn] at hid
          exact .inr (by rw [hid]; exact (hnext n hn).2)
      have hsession := History.lookup_drawn hR.session hknown
      obtain ⟨hH, hg⟩ := h.hist.drawn R.id next.nextId
      have hW : TokenInv { W with hist := W.hist.drawn R.id next.nextId } :=
        h.update _ hg hH fun _ _ hl => .inl hl
      have hgranted : (W.hist.drawn R.id next.nextId).granted = W.hist.granted := by
        unfold History.drawn
        split <;> rfl
      have hinsert : TokenInv { W with
          hist := W.hist.drawn R.id next.nextId
          inserts := W.inserts ++ [⟨next.payload, row.appPasswordName, .waiting⟩] } := by
        refine hW.addInsert ⟨S, ?_, hsub.trans hdid, happ, fun hS _ hmem => ?_⟩
        · rw [show next.payload.jti = next.nextId from hjti]
          exact hsession
        · -- of a revoked session only fresh ids are drawn
          rw [hg.revoked] at hS
          rw [hgranted, show next.payload.jti = next.nextId from hjti] at hmem
          obtain ⟨T, hT⟩ := h.hist.granted _ hmem
          exact hfresh ⟨hreuse hS, Finmap.mem_of_lookup_eq_some hT⟩
      refine hinsert.setStage hi fun S' hR' => ?_
      obtain rfl : S = S' :=
        Option.some.inj ((hg.sessionOf _ _ hR.session).symm.trans hR'.session)
      refine ⟨⟨hsession, fun hu => by cases hu⟩, fun hl => ?_⟩
      have := (hR.late hl).1
      rw [hrow] at this
      cases this

/-- A rotation in its `try_join!` did not start late. -/
theorem RotationInv.not_late {H : History} {S : Session} {next : Successor} {k : Nat}
    {updated : Bool} (h : RotationInv H R S) (hs : R.stage = .join next k updated) :
    R.late ≠ true := by
  intro hl
  have := (h.late hl).1
  rw [hs] at this
  cases this

theorem TokenInv.grace {db : Db} {fault : Option String} {next : Successor} {k : Nat}
    (h : TokenInv W) (hi : W.rotations[i]? = some R) (hs : R.stage = .join next k false)
    (hx : (addRefreshGracePeriod fault R.id next.expiresAt next.nextId).exec W.db = (.ok (), db)) :
    TokenInv { { W with db }.setStage i R (.join next k true) with
      hist := { W.hist with granted := insert next.nextId W.hist.granted } } := by
  obtain ⟨⟨row, hrow, -⟩, rfl⟩ := addRefreshGracePeriod_ok hx
  obtain ⟨S, hR⟩ := h.rotation R (List.mem_of_getElem? hi)
  obtain ⟨S', hinv⟩ := h.row R.id row hrow
  obtain rfl : S = S' := Option.some.inj (hR.session.symm.trans hinv.session)
  have hlive : S ∉ W.hist.revoked := fun hS => hinv.revoked hS hR.presented
  have hnext : W.hist.sessionOf.lookup next.nextId = some S := by
    have hstage := hR.stage
    rw [hs] at hstage
    exact hstage.1
  have hg : Grows W.hist { W.hist with granted := insert next.nextId W.hist.granted } := by
    refine ⟨fun _ _ hl => hl, Finset.subset_insert _ _, rfl, fun id T hid hl hT => ?_⟩
    rcases Finset.mem_insert.1 hid with rfl | hid
    · obtain rfl : S = T := Option.some.inj (hnext.symm.trans hl)
      exact absurd hT hlive
    · exact hid
  have hH : HistoryInv { W.hist with granted := insert next.nextId W.hist.granted } := by
    refine ⟨fun id hid => ?_, h.hist.handedOut.trans (Finset.subset_insert _ _), h.hist.root,
      h.hist.revoked⟩
    rcases Finset.mem_insert.1 hid with rfl | hid
    · exact ⟨S, hnext⟩
    · exact h.hist.granted id hid
  have hW := h.update { W.db with
      refreshToken := W.db.refreshToken.updateWhere (graceRow R.id next.nextId) fun row =>
        { row with expiresAt := next.expiresAt, nextId := some next.nextId } } hg hH
    fun id row' hl => by
      simp only [Table.lookup_updateWhere, Option.map_eq_some_iff] at hl
      obtain ⟨row₀, hl, rfl⟩ := hl
      split
      · rename_i hgrace
        obtain ⟨rfl, -⟩ := of_decide_eq_true hgrace
        obtain ⟨T, hinv₀⟩ := h.row _ row₀ hl
        obtain rfl : S = T := Option.some.inj (hR.session.symm.trans hinv₀.session)
        refine .inr ⟨S, hinv₀.session, hinv₀.did, hinv₀.appPasswordName, fun n hn => ?_,
          fun hS => absurd hS hlive⟩
        cases hn
        exact ⟨Finset.mem_insert_self _ _, hnext⟩
      · exact .inl hl
  refine hW.setStage hi fun T hT => ?_
  obtain rfl : S = T := Option.some.inj (hR.session.symm.trans hT.session)
  exact ⟨⟨hnext, fun _ => Finset.mem_insert_self _ _⟩, fun hl => absurd hl (hR.not_late hs)⟩

theorem TokenInv.finish {next : Successor} {k : Nat} (h : TokenInv W)
    (hi : W.rotations[i]? = some R) (hs : R.stage = .join next k true) :
    TokenInv { W.setStage i R (.accepted next.accessJwt next.refreshJwt) with
      hist := { W.hist with handedOut := insert next.nextId W.hist.handedOut } } := by
  obtain ⟨S, hR⟩ := h.rotation R (List.mem_of_getElem? hi)
  have hgranted : next.nextId ∈ W.hist.granted := by
    have hstage := hR.stage
    rw [hs] at hstage
    exact hstage.2 rfl
  have hW : TokenInv
      { W with hist := { W.hist with handedOut := insert next.nextId W.hist.handedOut } } := by
    refine h.update W.db ⟨fun _ _ hl => hl, fun _ hk => hk, rfl, fun _ _ hk _ _ => hk⟩
      ⟨h.hist.granted, ?_, h.hist.root, h.hist.revoked⟩ fun _ _ hl => .inl hl
    exact Finset.insert_subset hgranted h.hist.handedOut
  exact hW.setStage hi fun T _ => ⟨trivial, fun hl => absurd hl (hR.not_late hs)⟩

theorem TokenInv.stepRotation {L : Library} {a : Action} {W' : World} (h : TokenInv W)
    (hi : W.rotations[i]? = some R) (hstep : stepRotation L W i R R.stage a = some W') :
    TokenInv W' := by
  generalize hs : R.stage = stage at hstep
  unfold Refresh.stepRotation at hstep
  split at hstep
  · rename_i fault
    split at hstep <;> cases hstep
    · exact h.setStage_empty hi rfl
    · exact h.setStage_empty hi rfl
    · rename_i row hx
      refine h.select hi ?_
      rw [getRefreshToken, exec_query] at hx
      cases fault with
      | some e => cases hx
      | none => exact Except.ok.inj hx
  · rename_i row _ fault now nowMicros fresh
    split at hstep
    · rename_i e db hx
      cases hstep
      have hdb := clean_execute _ _ _ _ _ _ hx
      subst hdb
      exact h.setStage_empty hi rfl
    · rename_i db hx
      have hW : TokenInv { W with db } := h.shrink fun id row hl => ((deleteTokens_ok hx).1 hl).1
      exact hW.afterSweep hi hs hstep
  · rename_i next k _ fault
    split at hstep <;> cases hstep
    · rename_i db hx
      exact h.grace hi hs hx
    · rename_i db hx
      have hdb := clean_execute _ _ _ _ _ _ hx
      subst hdb
      exact h.setStage_empty hi rfl
    · rename_i e db _ hx
      have hdb := clean_execute _ _ _ _ _ _ hx
      subst hdb
      exact h.setStage_empty hi rfl
  · split at hstep <;> cases hstep
    exact h.finish hi hs
  · split at hstep <;> cases hstep
    exact h.setStage_empty hi rfl
  · cases hstep

/-! ### The insert and the revocation -/

theorem TokenInv.stepInsert {L : Library} {fault : Option String} {k : Nat} {I : Insert}
    {W' : World} (h : TokenInv W) (hk : W.inserts[k]? = some I)
    (hstep : stepInsert L W k fault I = some W') : TokenInv W' := by
  unfold Refresh.stepInsert at hstep
  split at hstep
  · rename_i hw
    obtain ⟨S, hI⟩ := h.inserts I (List.mem_of_getElem? hk)
    have hset : ∀ {db : Db} {state : InsertState}, TokenInv { W with db } → state ≠ .waiting →
        TokenInv { W with db, inserts := W.inserts.set k { I with state } } := by
      intro db state hW hne
      refine ⟨hW.hist, hW.row, forall_mem_set ⟨S, ?_⟩ hW.inserts, hW.rotation⟩
      exact ⟨hI.session, hI.did, hI.appPasswordName, fun _ hwait => absurd hwait hne⟩
    split at hstep <;> cases hstep
    · rename_i db hx
      refine hset (h.update _ (.refl _) h.hist fun id row hl => ?_) (by decide)
      refine (storeRefreshToken_ok hx hl).imp_right ?_
      rintro ⟨rfl, expiresAt, -, rfl⟩
      exact ⟨S, hI.row hw expiresAt⟩
    · rename_i e db hx
      have hdb := clean_storeRefreshToken _ _ _ _ _ _ _ hx
      subst hdb
      exact hset h (by decide)
  · cases hstep

/-- The rows that a revocation deletes. -/
def Revocation.deletes : Revocation → String → RefreshTokenRow → Bool
  | .byDid did, _, row => row.did = did
  | .byAppPassword did appPassName, _, row =>
    row.did = did ∧ row.appPasswordName = some appPassName
  | .byId id, k, _ => k = id

theorem Revocation.statement_eq (fault : Option String) (r : Revocation) :
    r.statement fault = deleteTokens fault r.deletes := by
  cases r <;> rfl

theorem Revocation.mem_covered {H : History} {r : Revocation} {S : Session} :
    S ∈ r.covered H ↔ ∃ id, H.sessionOf.lookup id = some S ∧ r.covers H S = true := by
  rw [covered, Multiset.mem_toFinset, Table.mem_select]
  constructor
  · rintro ⟨id, T, hl, hc, rfl⟩
    exact ⟨id, hl, hc⟩
  · rintro ⟨id, hl, hc⟩
    exact ⟨id, S, hl, hc, rfl⟩

theorem Reaches.pending {S : Session} {r : Revocation} (h : Reaches W S r) :
    NoInsertPending W S ∧ NoReuseSelected W S := by
  cases r with
  | byDid did => exact h
  | byAppPassword did appPassName => exact h
  | byId id => exact ⟨h.1, h.2.1⟩

/-- Of a session that the revocation reaches, no granted token keeps its row. -/
theorem Reaches.row {S : Session} {r : Revocation} {id : String} {row : RefreshTokenRow}
    (h : Reaches W S r) (hcovers : r.covers W.hist S = true) (hinv : RowInv W.hist id row S)
    (hl : W.db.refreshToken.lookup id = some row) (hstays : r.deletes id row = false) :
    id ∉ W.hist.granted := by
  cases r with
  | byDid did =>
    have hdid : S.did = did := of_decide_eq_true hcovers
    exact absurd (hinv.did.trans hdid) (of_decide_eq_false hstays)
  | byAppPassword did appPassName =>
    obtain ⟨hdid, happ⟩ := of_decide_eq_true hcovers
    exact absurd ⟨hinv.did.trans hdid, hinv.appPasswordName.trans happ⟩ (of_decide_eq_false hstays)
  | byId id' =>
    intro hgranted
    have hlast := Table.anyRow_eq_false.1 h.2.2 id row hl
    exact of_decide_eq_false hlast ⟨of_decide_eq_false hstays, hgranted, hinv.session⟩

theorem TokenInv.stepRevoke {fault : Option String} {r : Revocation} (h : TokenInv W)
    (hreach : ReachesAll W (.revoke fault r)) : TokenInv (stepRevoke W fault r) := by
  unfold Refresh.stepRevoke
  split
  · rename_i db hx
    rw [r.statement_eq] at hx
    have hfault : fault = none := ((does_execute _ _ _ _ _).1 hx).1.1
    have hcase : ∀ S, S ∈ W.hist.revoked ∪ r.covered W.hist →
        S ∈ W.hist.revoked ∨ (Reaches W S r ∧ r.covers W.hist S = true) := by
      intro S hS
      refine (Finset.mem_union.1 hS).imp_right fun hc => ⟨hreach hfault S hc, ?_⟩
      obtain ⟨-, -, hcovers⟩ := Revocation.mem_covered.1 hc
      exact hcovers
    refine ⟨⟨h.hist.granted, h.hist.handedOut, h.hist.root, fun S hS => ?_⟩, fun id row hl => ?_,
      fun I hI => ?_, fun R hR => ?_⟩
    · rcases Finset.mem_union.1 hS with hS | hS
      · exact h.hist.revoked S hS
      · obtain ⟨id, hl, -⟩ := Revocation.mem_covered.1 hS
        exact ⟨id, hl⟩
    · obtain ⟨hl, hstays⟩ := (deleteTokens_ok hx).1 hl
      obtain ⟨S, hinv⟩ := h.row id row hl
      refine ⟨S, hinv.session, hinv.did, hinv.appPasswordName, hinv.next, fun hS => ?_⟩
      rcases hcase S hS with hS | ⟨hr, hcovers⟩
      · exact hinv.revoked hS
      · exact hr.row hcovers hinv hl hstays
    · obtain ⟨S, hinv⟩ := h.inserts I hI
      refine ⟨S, hinv.session, hinv.did, hinv.appPasswordName, fun hS hw => ?_⟩
      rcases hcase S hS with hS | ⟨hr, -⟩
      · exact hinv.revoked hS hw
      · exact hr.pending.1 I hI hw hinv.session
    · obtain ⟨S, hinv⟩ := h.rotation R hR
      refine ⟨S, hinv.session, hinv.presented, ?_, fun hl => ⟨(hinv.late hl).1,
        Finset.mem_union_left _ (hinv.late hl).2⟩⟩
      have hstage := hinv.stage
      cases hs : R.stage with
      | sweep row =>
        rw [hs] at hstage
        obtain ⟨hd, ha, hn, hreuse⟩ := hstage
        refine ⟨hd, ha, hn, fun hS => ?_⟩
        rcases hcase S hS with hS | ⟨hr, -⟩
        · exact hreuse hS
        · have := hr.pending.2 R hR hinv.session
          rwa [hs] at this
      | join next k updated => rw [hs] at hstage; exact hstage
      | _ => trivial
  · rename_i e db hx
    rw [r.statement_eq] at hx
    have hdb := clean_execute _ _ _ _ _ _ hx
    subst hdb
    exact h

end

/-! ## Runs -/

theorem TokenInv.rotate {W : World} (h : TokenInv W) {id serviceDid : String}
    (hid : id ∈ W.hist.handedOut) :
    TokenInv { W with
      rotations := W.rotations ++ [⟨id, serviceDid, .select, W.hist.isRevoked id⟩] } := by
  refine ⟨h.hist, h.row, h.inserts, fun R hR => ?_⟩
  rcases List.mem_append.1 hR with hR | hR
  · exact h.rotation R hR
  · rw [List.mem_singleton.1 hR]
    have hgranted := h.hist.handedOut hid
    obtain ⟨S, hS⟩ := h.hist.granted id hgranted
    refine ⟨S, hS, hgranted, trivial, fun hl => ⟨rfl, ?_⟩⟩
    simp only [History.isRevoked, hS, decide_eq_true_eq] at hl
    exact hl

/-- Every step keeps the invariant, if the revocations reach all of their sessions. -/
theorem tokenInv_step (L : Library) (W : World) (a : Action) (W' : World) (h : TokenInv W)
    (hreach : ReachesAll W a) (hstep : step L W a = some W') : TokenInv W' := by
  have hrotation : ∀ i b, W.rotations[i]?.bind (fun R => stepRotation L W i R R.stage b) = some W' →
      TokenInv W' := by
    intro i b hb
    obtain ⟨R, hi, hb⟩ := Option.bind_eq_some_iff.1 hb
    exact h.stepRotation hi hb
  cases a with
  | createSession fault payload appPasswordName =>
    simp only [step] at hstep
    split at hstep
    · cases hstep
    rename_i hnew
    split at hstep <;> cases hstep
    · exact h.createSession hnew ‹_›
    · have hdb := clean_storeRefreshToken _ _ _ _ _ _ _ ‹_›
      subst hdb
      exact h
  | rotate id serviceDid =>
    simp only [step] at hstep
    split at hstep <;> cases hstep
    exact h.rotate ‹_›
  | insert k fault =>
    obtain ⟨I, hk, hI⟩ := Option.bind_eq_some_iff.1 hstep
    exact h.stepInsert hk hI
  | revoke fault r =>
    cases hstep
    exact h.stepRevoke hreach
  | select i fault => exact hrotation i _ hstep
  | sweep i fault now nowMicros fresh => exact hrotation i _ hstep
  | grace i fault => exact hrotation i _ hstep
  | finish i => exact hrotation i _ hstep
  | drop i => exact hrotation i _ hstep

theorem tokenInv_start (db : Db) : TokenInv (World.start db) where
  hist := ⟨fun _ h => absurd h (Finset.notMem_empty _), Finset.Subset.refl _,
    (fun _ _ h => by cases h), fun _ h => absurd h (Finset.notMem_empty _)⟩
  row _ _ h := by cases h
  inserts _ h := by cases h
  rotation _ h := by cases h

/-- Along a run whose revocations reach all of their sessions, no token of a revoked session is
accepted. -/
theorem revokedStays_of_reachesAll (L : Library) (db : Db) (as : List Action)
    (h : Along (step L) ReachesAll (World.start db) as) :
    Always (step L) RevokedStays (World.start db) as :=
  (always_of_along (tokenInv_step L) (tokenInv_start db) as h).mono fun _ => TokenInv.revokedStays

/-- A library that signs for Alice: the token's text is its `jti`, its days are numbered in text. -/
def alicesLibrary : Library where
  createTokens did _ _ jti := if did = "did:plc:alice" then .ok ("access", jti) else .error "no key"
  decodeRefreshToken jti := .ok ⟨"did:plc:alice", 0, jti⟩
  formatMillis _ := some "2026-10-30T00:00:00.000Z"
  parseMicros _ := .ok (90 * 24 * 60 * 60 * 1000 * 1000)
  formatMicros _ := .ok "2026-08-01T02:00:00.000Z"
  decode_createTokens htokens hdecode := by
    split at htokens <;> cases htokens
    cases hdecode
    exact ⟨Eq.symm ‹_›, rfl⟩

/-- The statements of rotation `i`, whose insert is number `i` too. -/
def rotation (i : Nat) (fresh : String) : List Action :=
  [.select i none, .sweep i none "2026-08-01T00:00:00.000Z" 0 fresh, .grace i none, .insert i none,
    .finish i]

def aliceSignsIn : Action := .createSession none ⟨"did:plc:alice", 0, "t1"⟩ none

/-- A rotation, a password change, and then a client that tries the new token. -/
def passwordChange : List Action :=
  [aliceSignsIn, .rotate "t1" "did:web:x.test"] ++ rotation 0 "t2" ++
    [.revoke none (.byDid "did:plc:alice"), .rotate "t2" "did:web:x.test", .select 1 none]

theorem revokedStays_passwordChange :
    (∃ W, run (step alicesLibrary) (World.start Db.empty) passwordChange = some W ∧
        W.rotations.map (·.stage) = [.accepted "access" "t2", .refused]) ∧
      Always (step alicesLibrary) RevokedStays (World.start Db.empty) passwordChange :=
  ⟨⟨_, rfl, rfl⟩, revokedStays_of_reachesAll _ _ _ (by decide)⟩

/-- The password changes between the update and the insert of a rotation: the new token outlives the
change. -/
theorem rotation_outlives_revocation :
    ¬ ∀ L db as, Always (step L) RevokedStays (World.start db) as := by
  intro h
  have hrun : ∃ W, run (step alicesLibrary) (World.start Db.empty)
      ([aliceSignsIn, .rotate "t1" "did:web:x.test", .select 0 none,
        .sweep 0 none "2026-08-01T00:00:00.000Z" 0 "t2", .grace 0 none,
        .revoke none (.byDid "did:plc:alice"), .insert 0 none, .finish 0,
        .rotate "t2" "did:web:x.test"] ++ rotation 1 "t3") = some W ∧
      W.rotations[1]?.map (fun R => (R.late, R.stage)) = some (true, .accepted "access" "t3") :=
    ⟨_, rfl, rfl⟩
  obtain ⟨W, hW, hlast⟩ := hrun
  obtain ⟨R, hR, hlate⟩ := Option.map_eq_some_iff.1 hlast
  rw [Prod.mk.injEq] at hlate
  exact (h _ _ _).last hW R (List.mem_of_getElem? hR) hlate.1 _ _ hlate.2

/-- Signing out with the newest token leaves the one before it, which brings the newest back. -/
example : (run (step alicesLibrary) (World.start Db.empty)
    ([aliceSignsIn, .rotate "t1" "did:web:x.test"] ++ rotation 0 "t2" ++
      [.revoke none (.byId "t2"), .rotate "t1" "did:web:x.test"] ++ rotation 1 "t3")).map
      (fun W => W.rotations[1]?.map fun R => (R.late, R.stage)) =
    some (some (true, .accepted "access" "t2")) := rfl

end CacosPds.Account.Refresh
