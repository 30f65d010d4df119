import CacosPds.Account.EmailTokens
import CacosPds.Server.TakenDown
/-!
# Service tokens on request (`xrpc/com/atproto/server/get_service_auth.rs`, `helpers/auth.rs:199-243`)

| here | there |
| --- | --- |
| `PROTECTED_METHODS`, `PRIVILEGED_METHODS` | the two lists (`get_service_auth.rs:14-48`) |
| `checkExp`, `checkLxm` | the two guards of `inner_get_service_auth` (`:58-86`) |
| `innerGetServiceAuth`  | `inner_get_service_auth` (`:50`) |
| `createServiceJwt`     | `create_service_jwt` (`auth.rs:199`), up to the encoding of what it signs |
| `credentialsOf`        | the credentials of an access token, a bearer one (`verifier/bearer.rs:465-538`) or one bound by DPoP (`:376-454`) |
| `readExp`              | `from_micros_to_utc` of the requested `exp` |

`AccessFull` asks for the scope of a full session, so all who get to the handler may ask for a
privileged method. That they are privileged is in no credentials, and nobody is turned away for it.

An instant is in nanoseconds since the epoch, the clock of the guard and the one of the token are read
apart. A requested `exp` is in seconds; times 1000 it goes where microseconds are read, and the product
wraps at 64 bits.
-/
namespace CacosPds.Server.ServiceAuth

open TakenDown (AuthScope AuthError Header checkScope oauthScopesToAuthScope accessFull)
open Account (MINUTE)

def PROTECTED_METHODS : List String :=
  ["com.atproto.admin.sendEmail", "com.atproto.identity.requestPlcOperationSignature",
   "com.atproto.identity.signPlcOperation", "com.atproto.identity.updateHandle",
   "com.atproto.server.activateAccount", "com.atproto.server.confirmEmail",
   "com.atproto.server.createAppPassword", "com.atproto.server.deactivateAccount",
   "com.atproto.server.getAccountInviteCodes", "com.atproto.server.listAppPasswords",
   "com.atproto.server.requestAccountDelete", "com.atproto.server.requestEmailConfirmation",
   "com.atproto.server.requestEmailUpdate", "com.atproto.server.revokeAppPassword",
   "com.atproto.server.updateEmail"]

def PRIVILEGED_METHODS : List String :=
  ["chat.bsky.actor.deleteAccount", "chat.bsky.actor.exportAccountData",
   "chat.bsky.convo.deleteMessageForSelf", "chat.bsky.convo.getConvo",
   "chat.bsky.convo.getConvoForMembers", "chat.bsky.convo.getLog", "chat.bsky.convo.getMessages",
   "chat.bsky.convo.leaveConvo", "chat.bsky.convo.listConvos", "chat.bsky.convo.muteConvo",
   "chat.bsky.convo.sendMessage", "chat.bsky.convo.sendMessageBatch",
   "chat.bsky.convo.unmuteConvo", "chat.bsky.convo.updateRead",
   "com.atproto.server.createAccount"]

/-- `rsky_common::time::HOUR`, in milliseconds. -/
def HOUR : Nat := 60 * MINUTE

inductive Failure where
  | bail (text : String)
  /-- `from_micros_to_utc` of an instant that chrono cannot hold. -/
  | panics
  deriving DecidableEq

structure Credentials where
  did : String
  scope : AuthScope
  isPrivileged : Option Bool

/-- The credentials that an extractor takes from the header. -/
def credentialsOf (scopes : List AuthScope) : Header → Except AuthError Credentials
  | .missing => .error (.authRequired "AuthMissing")
  | .bearer verified => do
    let (did, scope) ← verified
    Account.ensure (Account.isDid did) (.badJwt "Malformed token")
    checkScope scopes scope
    return ⟨did, scope, none⟩
  | .dpop verified => do
    let (did, granted) ← verified
    let scope ← oauthScopesToAuthScope granted
    checkScope scopes scope
    return ⟨did, scope, none⟩

structure ServiceJwtParams where
  iss : String
  aud : String
  exp : Option Nat
  lxm : Option String
  jti : Option String

structure ServiceJwtPayload where
  iss : String
  aud : String
  exp : Option Nat
  lxm : Option String
  jti : Option String
  deriving DecidableEq

structure Request where
  aud : String
  exp : Option UInt64
  lxm : Option String

/-- What a call reads besides its request: the clock twice, and `get_random_str`. -/
structure Reads where
  now : Nat
  signedAt : Nat
  jti : String

/-- `chrono::Duration::num_milliseconds`, which drops what is left towards zero. -/
def numMilliseconds (d : Int) : Int := d.tdiv 1000000

section

-- `from_micros_to_utc`, which panics where chrono has no such instant.
variable (fromMicros : Int → Option Int)

/-- `from_micros_to_utc(exp as i64)` of `exp * 1000`. -/
def readExp (exp : UInt64) : Option Int := fromMicros (exp * 1000).toBitVec.toInt

def checkExp (now : Nat) (exp : Option UInt64) (lxm : Option String) : Except Failure Unit :=
  match exp with
  | none => .ok ()
  | some exp =>
    match readExp fromMicros exp with
    | none => .error .panics
    | some utc =>
      let diff := numMilliseconds (utc - now)
      if diff < 0 then .error (.bail "BadExpiration: expiration is in past")
      else if (HOUR : Int) < diff then
        .error (.bail "BadExpiration: cannot request a token with an expiration more than an hour in the future")
      else if lxm.isNone && (MINUTE : Int) < diff then
        .error (.bail "BadExpiration: cannot request a method-less token with an expiration more than a minute in the future")
      else .ok ()

def checkLxm (credentials : Credentials) : Option String → Except Failure Unit
  | none => .ok ()
  | some lxm =>
    if lxm ∈ PROTECTED_METHODS then
      .error (.bail
        ("cannot request a service auth token for the following protected method: " ++ lxm))
    else if credentials.isPrivileged.getD false && lxm ∈ PRIVILEGED_METHODS then
      .error (.bail
        ("insufficient access to request a service auth token for the following method: " ++ lxm))
    else .ok ()

def nowSecs (now : Nat) : Nat := now / 1000000000

/-- The payload that is encoded and signed. -/
def createServiceJwt (reads : Reads) (params : ServiceJwtParams) : ServiceJwtPayload :=
  ⟨params.iss, params.aud, some (params.exp.getD (nowSecs reads.signedAt + MINUTE / 1000)),
    params.lxm, some reads.jti⟩

def innerGetServiceAuth (reads : Reads) (credentials : Credentials) (req : Request) :
    Except Failure ServiceJwtPayload := do
  checkExp fromMicros reads.now req.exp req.lxm
  checkLxm credentials req.lxm
  return createServiceJwt reads ⟨credentials.did, req.aud, none, req.lxm, none⟩

end

/-! ## What it should do -/

/-- How far ahead an expiry may lie, in seconds. -/
def limitSecs (lxm : Option String) : Nat := if lxm.isNone then 60 else 60 * 60

/-- The requested `exp` lies at `now` or up to the limit after it. -/
def InWindow (now : Nat) (lxm : Option String) (exp : UInt64) : Prop :=
  now ≤ exp.toNat * 1000000000 ∧ exp.toNat * 1000000000 ≤ now + limitSecs lxm * 1000000000

instance (now : Nat) (lxm : Option String) (exp : UInt64) : Decidable (InWindow now lxm exp) := by
  unfold InWindow
  infer_instance

def Protected (lxm : Option String) : Prop := ∃ m ∈ PROTECTED_METHODS, lxm = some m

def Privileged (lxm : Option String) : Prop := ∃ m ∈ PRIVILEGED_METHODS, lxm = some m

/-- A full session or a privileged app password. -/
def PrivilegedScope (scope : AuthScope) : Prop := scope = .access ∨ scope = .appPassPrivileged

/-- What should be accepted. -/
def Acceptable (now : Nat) (scope : AuthScope) (req : Request) : Prop :=
  (∀ exp, req.exp = some exp → InWindow now req.lxm exp) ∧ ¬ Protected req.lxm ∧
    (Privileged req.lxm → PrivilegedScope scope)

/-- The requested expiry, or a minute after the token is made. -/
def expiry (signedAt : Nat) (exp : Option UInt64) : Nat :=
  (exp.map UInt64.toNat).getD (nowSecs signedAt + 60)

/-- The request is accepted if it should be, and the token expires as it should. -/
structure Conforms (fromMicros : Int → Option Int) (reads : Reads) (credentials : Credentials)
    (req : Request) : Prop where
  accepts : (∃ jwt, innerGetServiceAuth fromMicros reads credentials req = .ok jwt) ↔
    Acceptable reads.now credentials.scope req
  exp : ∀ jwt, innerGetServiceAuth fromMicros reads credentials req = .ok jwt →
    jwt.exp = some (expiry reads.signedAt req.exp)

/-- `exp * 1000`, modulo 2^64 and taken for microseconds, lies less than a millisecond before `now` or
less than one past the limit. -/
def ReadInWindow (fromMicros : Int → Option Int) (now : Nat) (lxm : Option String) (exp : UInt64) :
    Prop :=
  (readExp fromMicros exp).isSome ∧
    0 ≤ numMilliseconds ((exp * 1000).toBitVec.toInt * 1000 - now) ∧
    numMilliseconds ((exp * 1000).toBitVec.toInt * 1000 - now) ≤ limitSecs lxm * 1000

/-- No expiry is asked for, or one that is refused in any case, or one that is read as it is meant and
is what the token gets. -/
def Agrees (fromMicros : Int → Option Int) (reads : Reads) (req : Request) : Prop :=
  ∀ exp, req.exp = some exp → Protected req.lxm ∨
    (¬ InWindow reads.now req.lxm exp ∧ ¬ ReadInWindow fromMicros reads.now req.lxm exp) ∨
    (InWindow reads.now req.lxm exp ∧ ReadInWindow fromMicros reads.now req.lxm exp ∧
      exp.toNat = nowSecs reads.signedAt + 60)

/-! ### The credentials -/

theorem checkScope_ok {scopes : List AuthScope} (hne : scopes ≠ []) {scope : AuthScope} {u : Unit} :
    checkScope scopes scope = .ok u ↔ scope ∈ scopes := by
  rw [checkScope, Account.ensure_ok]
  simp [hne]

/-- The scope is one of those asked for, and nothing is said of privilege. -/
theorem credentialsOf_ok {scopes : List AuthScope} (hne : scopes ≠ []) {header : Header}
    {credentials : Credentials} (h : credentialsOf scopes header = .ok credentials) :
    credentials.scope ∈ scopes ∧ credentials.isPrivileged = none := by
  cases header with
  | missing => cases h
  | bearer verified =>
    simp only [credentialsOf, Stages.except_bind_ok] at h
    obtain ⟨token, -, _, -, _, hscope, hcred⟩ := h
    cases hcred
    exact ⟨(checkScope_ok hne).1 hscope, rfl⟩
  | dpop verified =>
    simp only [credentialsOf, Stages.except_bind_ok] at h
    obtain ⟨token, -, scope, -, _, hscope, hcred⟩ := h
    cases hcred
    exact ⟨(checkScope_ok hne).1 hscope, rfl⟩

/-- Those that `AccessFull` lets through are of a full session. -/
theorem credentialsOf_accessFull {header : Header} {credentials : Credentials}
    (h : credentialsOf accessFull.scopes header = .ok credentials) :
    credentials.scope = .access ∧ credentials.isPrivileged = none := by
  obtain ⟨hscope, hpriv⟩ := credentialsOf_ok (List.cons_ne_nil _ _) h
  exact ⟨List.mem_singleton.1 hscope, hpriv⟩

/-! ### The guards -/

variable {fromMicros : Int → Option Int} {reads : Reads} {credentials : Credentials} {req : Request}

/-- Without a word on privilege, the guard of the method turns away the protected ones only. -/
theorem checkLxm_ok (hpriv : credentials.isPrivileged = none) (lxm : Option String) :
    checkLxm credentials lxm = .ok () ↔ ¬ Protected lxm := by
  cases lxm with
  | none => simp [checkLxm, Protected]
  | some m =>
    simp only [checkLxm, Protected, Option.some.injEq, exists_eq_right', hpriv, Option.getD_none,
      Bool.false_and, Bool.false_eq_true, if_false]
    by_cases hp : m ∈ PROTECTED_METHODS <;> simp [hp]

/-- The guard of the expiry looks at the window that it reads. -/
theorem checkExp_ok (hmicros : ∀ m t, fromMicros m = some t → t = m * 1000) (now : Nat)
    (exp : UInt64) (lxm : Option String) :
    checkExp fromMicros now (some exp) lxm = .ok () ↔ ReadInWindow fromMicros now lxm exp := by
  cases hread : readExp fromMicros exp with
  | none => simp [checkExp, ReadInWindow, hread]
  | some utc =>
    obtain rfl := hmicros _ _ hread
    simp only [checkExp, ReadInWindow, hread, Option.isSome_some, true_and]
    generalize numMilliseconds ((exp * 1000).toBitVec.toInt * 1000 - now) = diff
    have hminute : ((MINUTE : Nat) : Int) = 60 * 1000 := rfl
    have hhour : ((HOUR : Nat) : Int) = 60 * 60 * 1000 := rfl
    rw [hminute, hhour]
    by_cases hpast : diff < 0
    · rw [if_pos hpast]
      simp only [reduceCtorEq, false_iff]
      omega
    by_cases hfar : 60 * 60 * 1000 < diff
    · rw [if_neg hpast, if_pos hfar]
      cases lxm <;> simp [limitSecs] <;> omega
    rw [if_neg hpast, if_neg hfar]
    cases lxm with
    | none =>
      simp [limitSecs]
      omega
    | some m =>
      simp [limitSecs]
      omega

theorem innerGetServiceAuth_ok (hmicros : ∀ m t, fromMicros m = some t → t = m * 1000)
    (hpriv : credentials.isPrivileged = none) :
    (∃ jwt, innerGetServiceAuth fromMicros reads credentials req = .ok jwt) ↔
      (∀ exp, req.exp = some exp → ReadInWindow fromMicros reads.now req.lxm exp) ∧
        ¬ Protected req.lxm := by
  have hexp : checkExp fromMicros reads.now req.exp req.lxm = .ok () ↔
      ∀ exp, req.exp = some exp → ReadInWindow fromMicros reads.now req.lxm exp := by
    cases hreq : req.exp with
    | none => simp [checkExp]
    | some exp => simp [checkExp_ok hmicros]
  rw [← hexp, ← checkLxm_ok hpriv]
  unfold innerGetServiceAuth
  cases checkExp fromMicros reads.now req.exp req.lxm with
  | error e => simp [bind, Except.bind]
  | ok _ =>
    cases checkLxm credentials req.lxm with
    | error e => simp [bind, Except.bind]
    | ok _ => simp [bind, Except.bind, pure, Except.pure]

/-- Whatever was asked for, the token expires a minute after it is made. -/
theorem exp_of_innerGetServiceAuth {jwt : ServiceJwtPayload}
    (h : innerGetServiceAuth fromMicros reads credentials req = .ok jwt) :
    jwt.exp = some (nowSecs reads.signedAt + 60) := by
  unfold innerGetServiceAuth at h
  cases hexp : checkExp fromMicros reads.now req.exp req.lxm with
  | error e => simp [hexp, bind, Except.bind] at h
  | ok _ =>
    cases hlxm : checkLxm credentials req.lxm with
    | error e => simp [hexp, hlxm, bind, Except.bind] at h
    | ok _ =>
      simp only [hexp, hlxm, bind, Except.bind, pure, Except.pure, Except.ok.injEq] at h
      subst h
      rfl

/-! ### Where the code conforms -/

/-- **For every token that `AccessFull` lets through: the handler conforms if and only if no expiry is
asked for, or the method is protected, or the expiry is outside both windows, or it is inside both and
the one that every token gets.** -/
theorem conforms_iff_agrees (hmicros : ∀ m t, fromMicros m = some t → t = m * 1000)
    (reads : Reads) {header : Header} {credentials : Credentials}
    (h : credentialsOf accessFull.scopes header = .ok credentials) (req : Request) :
    Conforms fromMicros reads credentials req ↔ Agrees fromMicros reads req := by
  obtain ⟨hscope, hpriv⟩ := credentialsOf_accessFull h
  have hok : (∃ jwt, innerGetServiceAuth fromMicros reads credentials req = .ok jwt) ↔ _ :=
    innerGetServiceAuth_ok hmicros hpriv
  have hexp : (∀ jwt, innerGetServiceAuth fromMicros reads credentials req = .ok jwt →
      jwt.exp = some (expiry reads.signedAt req.exp)) ↔
      ((∃ jwt, innerGetServiceAuth fromMicros reads credentials req = .ok jwt) →
        nowSecs reads.signedAt + 60 = expiry reads.signedAt req.exp) := by
    constructor
    · rintro h ⟨jwt, hjwt⟩
      simpa using (exp_of_innerGetServiceAuth hjwt).symm.trans (h jwt hjwt)
    · intro h jwt hjwt
      rw [exp_of_innerGetServiceAuth hjwt, h ⟨jwt, hjwt⟩]
  have hconf : Conforms fromMicros reads credentials req ↔ _ ∧ _ :=
    ⟨fun h => ⟨h.accepts, h.exp⟩, fun h => ⟨h.1, h.2⟩⟩
  -- a full session may ask for every privileged method
  have hfull : Privileged req.lxm → PrivilegedScope credentials.scope := fun _ => .inl hscope
  rw [hconf, hexp, hok, Acceptable, and_iff_left hfull, Agrees]
  generalize Protected req.lxm = prot
  cases req.exp with
  | none => simp [expiry]
  | some exp =>
    simp only [Option.some.injEq, forall_eq', expiry, Option.map_some, Option.getD_some]
    rw [eq_comm (a := nowSecs reads.signedAt + 60)]
    generalize InWindow reads.now req.lxm exp = wanted
    generalize ReadInWindow fromMicros reads.now req.lxm exp = seen
    by_cases hp : prot
    · simp [hp]
    · by_cases hw : wanted <;> by_cases hs : seen <;> simp [hp, hw, hs]

def october : Reads := ⟨1760000000250000000, 1760000000251000000, "q7wnhd5lmwzk2"⟩

def aliceToken : Header := .bearer (.ok ("did:plc:alice", .access))

def alice : Credentials := ⟨"did:plc:alice", .access, none⟩

theorem credentialsOf_aliceToken : credentialsOf accessFull.scopes aliceToken = .ok alice := rfl

/-- Her messages, the expiry left to the server. -/
theorem conforms_noExp : Conforms (fun m => some (m * 1000)) october alice
    ⟨"did:web:chat.example", none, some "chat.bsky.convo.getLog"⟩ := by
  refine (conforms_iff_agrees (by simp) october credentialsOf_aliceToken _).2 ?_
  rintro exp ⟨⟩

/-- An expiry half a minute ahead is taken for one in January 1970. -/
theorem soon_is_past : ¬ Conforms (fun m => some (m * 1000)) october alice
    ⟨"did:web:feed.example", some 1760000030, some "app.bsky.feed.getFeedSkeleton"⟩ := by
  intro h
  have hacc : Acceptable october.now alice.scope
      ⟨"did:web:feed.example", some 1760000030, some "app.bsky.feed.getFeedSkeleton"⟩ := by
    refine ⟨?_, ?_, fun _ => .inl rfl⟩
    · rintro exp ⟨⟩
      decide
    · rintro ⟨m, hm, ⟨⟩⟩
      exact absurd hm (by decide)
  obtain ⟨jwt, hjwt⟩ := h.accepts.2 hacc
  have hrefused : innerGetServiceAuth (fun m => some (m * 1000)) october alice
      ⟨"did:web:feed.example", some 1760000030, some "app.bsky.feed.getFeedSkeleton"⟩ =
      .error (.bail "BadExpiration: expiration is in past") := by
    decide
  rw [hrefused] at hjwt
  cases hjwt

end CacosPds.Server.ServiceAuth
