import CacosPds.Account.Emails
import CacosPds.Account.ServiceJwt
import CacosPds.Handle.Normalize
import CacosPds.Server.CreateAccount
/-!
# Who may sign up under a DID (`xrpc/com/atproto/server/create_account.rs`, `xrpc/auth_extractors.rs`)

| here | there |
| --- | --- |
| `authHeader`    | `auth_header`: the value as text, if it is visible ASCII |
| `userDidAuthOptional` | `UserDidAuthOptional::from_request` |
| `checkInputs`   | `validate_inputs_for_local_pds` up to the DID (`:296-371`) |
| `validateInputsForLocalPds` | the whole of it |
| `serverCreateAccount` | `server_create_account`, the handler and its extractor |

A request carries a verified token (`Presents`) or none; what sign-up under a DID owes to the DID's
owner is `OwnerOnly`. The comparison with the requester refuses the owner and lets everyone else pass,
so this holds exactly where the request is refused before it (`ownerOnly_iff`).
-/
namespace CacosPds.Server

open Stages Sql

/-! ## The extractor -/

/-- `HeaderValue::to_str`. -/
def authHeader (value : Option Bytes) : Option String :=
  value.bind fun bytes =>
    if bytes.all fun b => b = 9 || (32 ≤ b && b < 127) then
      some (String.ofList (bytes.map fun b => Char.ofNat b.toNat))
    else none

def authErrorToApiError : Account.AuthError → ApiError
  | .authRequired message => .authRequiredError message
  | other => .invalidRequest other.display

/-- A header with another scheme, or none, is no requester. -/
def userDidAuthOptional (V : Account.Verifier) (header : Option String) :
    Except ApiError (Option Account.AccessOutput) :=
  if header.any Account.isBearer then
    ((Account.verifyUserDidToken V header).map some).mapError authErrorToApiError
  else .ok none

def requesterOf (access : Option Account.AccessOutput) : Option String :=
  access.bind fun access => access.credentials.bind Account.Credentials.iss

/-! ## The validation -/

/-- The lexicon's body. -/
structure CreateAccountBody where
  email : Option String
  handle : String
  did : Option String
  inviteCode : Option String
  password : Option String
  recoveryKey : Option String
  /-- As JSON. -/
  plcOp : Option String

structure SignUpEnv where
  server : Env
  handles : Handle.Lib
  /-- `config.identity.service_handle_domains`. -/
  serviceHandleDomains : List String
  /-- `env_bool("PDS_INVITE_REQUIRED")`. -/
  inviteRequired : Option Bool
  toLowercase : String → String
  /-- The two lookups that the database fails. -/
  getAccount : Option String
  getAccountByEmail : Option String

/-- `ErrorKind` as an error of the API. -/
def handleError (e : Handle.Error) : ApiError :=
  match e.kind with
  | .invalidHandle => .invalidHandle
  | .handleNotAvailable => .handleNotAvailable
  | .unsupportedDomain => .unsupportedDomain
  | .internalError => .runtimeError

section

variable (E : SignUpEnv)

def checkEmail : Option String → Except ApiError String
  | none => .error .invalidEmail
  | some email => if E.server.emailIsValid email then .ok email else .error .invalidEmail

def checkHandle (handle : String) (requester : Option String) : Except ApiError String := do
  let handle ← (Handle.normalizeAndValidateHandle E.handles ⟨handle, requester, none⟩
    E.serviceHandleDomains).mapError handleError
  Account.ensure (Handle.validateHandle handle E.serviceHandleDomains) .invalidHandle
  return handle

/-- What is decided before the database is asked: the address and the handle. -/
def checkForm (requester : Option String) (input : CreateAccountBody) :
    Except ApiError (String × String) := do
  Account.ensure input.plcOp.isNone (.invalidRequest "Unsupported input: `plcOp`")
  Account.ensure (!(E.inviteRequired.getD false && input.inviteCode.isNone)) .invalidInviteCode
  let email ← checkEmail E input.email
  let handle ← checkHandle E input.handle requester
  return (email, handle)

/-- Both are looked up before either answer is used. -/
def lookUp (email handle : String) : Account.Call (Bool × Bool) := do
  let handleAccnt ← Account.getAccount E.getAccount handle none
  let emailAccnt ← Account.getAccountByEmail E.getAccountByEmail E.toLowercase email none
  return (handleAccnt.isSome, emailAccnt.isSome)

def checkFree (found : Bool × Bool) : Except ApiError Unit :=
  if found.1 then .error .handleNotAvailable
  else if found.2 then .error .emailNotAvailable
  else .ok ()

def checkPassword : Option String → Except ApiError String
  | none => .error .invalidPassword
  | some password => .ok password

def checkInputs (requester : Option String) (input : CreateAccountBody) :
    Call ApiError CheckedInput := do
  let form ← ofExcept (checkForm E requester input)
  let found ← mapError (fun _ => .runtimeError) (onAccount (lookUp E form.1 form.2))
  let _ ← ofExcept (checkFree found)
  let password ← ofExcept (checkPassword input.password)
  return { input with email := form.1, givenHandle := input.handle, handle := form.2, password }

def validateInputsForLocalPds (input : CreateAccountBody) (requester : Option String) :
    Call ApiError (ValidatedCreateAccount E.server) := do
  let checked ← checkInputs E requester input
  ofExcept (validateDid E.server requester checked)

def serverCreateAccount (V : Account.Verifier) (header : Option Bytes) (input : CreateAccountBody) :
    Call ApiError CreateAccountOutput := do
  let access ← ofExcept (userDidAuthOptional V (authHeader header))
  let v ← validateInputsForLocalPds E input (requesterOf access)
  createValidated E.server v

end

/-! ## What the checks ask for -/

/-- Nothing before the DID's comparison refuses the body. -/
structure PassesChecks (E : SignUpEnv) (input : CreateAccountBody) (s : State) : Prop where
  noPlcOp : input.plcOp = none
  invited : E.inviteRequired = some true → input.inviteCode ≠ none
  email : ∃ email, input.email = some email ∧ E.server.emailIsValid email = true ∧
    Account.findAccountByEmail E.toLowercase email none s.account = none
  handle : ∃ handle, Handle.normalizeAndValidateHandle E.handles ⟨input.handle, none, none⟩
      E.serviceHandleDomains = .ok handle ∧
    Handle.validateHandle handle E.serviceHandleDomains = true ∧
    Account.findAccount handle none s.account = none
  getAccount : E.getAccount = none
  getAccountByEmail : E.getAccountByEmail = none
  password : input.password ≠ none

/-- The requester presents a verified service token that the DID issued. -/
def Presents (V : Account.Verifier) (header : Option Bytes) (did : String) : Prop :=
  ∃ payload, Account.Verified V (authHeader header) payload ∧ payload.iss = did

/-- The extractor lets the header through. -/
def Admitted (V : Account.Verifier) (header : Option Bytes) : Prop :=
  (authHeader header).any Account.isBearer = true → ∃ did, Presents V header did

/-- Sign-up under a DID is the owner's: only a request with the owner's token passes the validation,
no other creates the account, and the owner's own is not refused for want of authorization. -/
structure OwnerOnly (E : SignUpEnv) (V : Account.Verifier) (header : Option Bytes)
    (input : CreateAccountBody) (did : String) (s : State) : Prop where
  validated : ∀ access v t, userDidAuthOptional V (authHeader header) = .ok access →
    (validateInputsForLocalPds E input (requesterOf access)).exec s = (.ok v, t) →
    Presents V header did
  noAccount : ¬ Presents V header did →
    ((serverCreateAccount E V header input).exec s).2.account = s.account
  authorized : Presents V header did → ∀ what t,
    (serverCreateAccount E V header input).exec s ≠ (.error (.authRequiredError what), t)

/-! ## The checks -/

/-- An error of authorization does not come from here. -/
def NeverAuth {α : Type} (x : Except ApiError α) : Prop := ∀ what, x ≠ .error (.authRequiredError what)

theorem neverAuth_ok {α : Type} (a : α) : NeverAuth (.ok a) := fun _ h => by cases h

theorem NeverAuth.bind {α β : Type} {x : Except ApiError α} {f : α → Except ApiError β}
    (hx : NeverAuth x) (hf : ∀ a, NeverAuth (f a)) : NeverAuth (x >>= f) := by
  cases x with
  | error e => exact fun what h => hx what (congrArg _ (Except.error.inj h))
  | ok a => exact hf a

theorem neverAuth_ensure {p : Bool} {e : ApiError} (h : ∀ what, e ≠ .authRequiredError what) :
    NeverAuth (Account.ensure p e) := by
  intro what he
  cases p with
  | true => cases he
  | false => exact h what (Except.error.inj he)

section

variable {E : SignUpEnv} {requester : Option String} {input : CreateAccountBody} {s t : State}

theorem checkEmail_ok {given : Option String} {email : String} :
    checkEmail E given = .ok email ↔ given = some email ∧ E.server.emailIsValid email = true := by
  cases given with
  | none => simp [checkEmail]
  | some given =>
    dsimp only [checkEmail]
    by_cases hv : E.server.emailIsValid given = true
    · rw [if_pos hv]
      constructor
      · intro h
        cases h
        exact ⟨rfl, hv⟩
      · rintro ⟨h, -⟩
        cases h
        rfl
    · rw [if_neg hv]
      refine ⟨nofun, ?_⟩
      rintro ⟨h, hv'⟩
      cases h
      exact absurd hv' hv

theorem checkHandle_ok {given handle : String} : checkHandle E given requester = .ok handle ↔
    Handle.normalizeAndValidateHandle E.handles ⟨given, none, none⟩ E.serviceHandleDomains =
      .ok handle ∧ Handle.validateHandle handle E.serviceHandleDomains = true := by
  have hdid := Handle.normalizeAndValidateHandle_did E.handles ⟨given, none, none⟩ requester
    E.serviceHandleDomains
  unfold checkHandle
  rw [hdid]
  simp only [except_bind_ok, except_mapError_ok, Account.ensure_ok, pure, Except.pure,
    Except.ok.injEq]
  constructor
  · rintro ⟨h, hn, _, hv, rfl⟩
    exact ⟨hn, hv⟩
  · rintro ⟨hn, hv⟩
    exact ⟨handle, hn, (), hv, rfl⟩

theorem checkForm_ok {form : String × String} : checkForm E requester input = .ok form ↔
    input.plcOp = none ∧ (E.inviteRequired = some true → input.inviteCode ≠ none) ∧
      checkEmail E input.email = .ok form.1 ∧ checkHandle E input.handle requester = .ok form.2 := by
  have hinvite : (!(E.inviteRequired.getD false && input.inviteCode.isNone)) = true ↔
      (E.inviteRequired = some true → input.inviteCode ≠ none) := by
    cases E.inviteRequired with
    | none => simp
    | some b => cases b <;> cases input.inviteCode <;> simp
  unfold checkForm
  simp only [except_bind_ok, Account.ensure_ok, Option.isNone_iff_eq_none, hinvite, pure, Except.pure,
    Except.ok.injEq]
  constructor
  · rintro ⟨_, hplc, _, hi, email, he, handle, hh, rfl⟩
    exact ⟨hplc, hi, he, hh⟩
  · rintro ⟨hplc, hi, he, hh⟩
    exact ⟨(), hplc, (), hi, _, he, _, hh, rfl⟩

theorem neverAuth_checkForm : NeverAuth (checkForm E requester input) := by
  have hemail : NeverAuth (checkEmail E input.email) := by
    unfold checkEmail
    split
    · exact fun _ h => by cases h
    · split
      · exact neverAuth_ok _
      · exact fun _ h => by cases h
  have hhandle : NeverAuth (checkHandle E input.handle requester) := by
    refine NeverAuth.bind (fun what h => ?_) fun handle =>
      (neverAuth_ensure fun _ h => by cases h).bind fun _ => neverAuth_ok _
    cases hn : Handle.normalizeAndValidateHandle E.handles ⟨input.handle, requester, none⟩
        E.serviceHandleDomains with
    | ok _ => rw [hn] at h; cases h
    | error e =>
      rw [hn] at h
      have herr : handleError e = .authRequiredError what := Except.error.inj h
      unfold handleError at herr
      split at herr <;> cases herr
  exact (neverAuth_ensure fun _ h => by cases h).bind fun _ =>
    (neverAuth_ensure fun _ h => by cases h).bind fun _ =>
      hemail.bind fun _ => hhandle.bind fun _ => neverAuth_ok _

theorem exec_lookUp (email handle : String) (a : Account.Db) :
    ((E.getAccount = none ∧ E.getAccountByEmail = none) ∧ (lookUp E email handle).exec a =
      (.ok ((Account.findAccount handle none a).isSome,
        (Account.findAccountByEmail E.toLowercase email none a).isSome), a)) ∨
    (¬ (E.getAccount = none ∧ E.getAccountByEmail = none) ∧
      ∃ e, (lookUp E email handle).exec a = (.error e, a)) := by
  rw [lookUp, exec_bind, Account.getAccount, Account.exec_query]
  cases E.getAccount with
  | some e => exact .inr ⟨fun h => by simp at h, .db e, rfl⟩
  | none =>
    dsimp only [Option.elim]
    rw [exec_bind, Account.getAccountByEmail, Account.exec_query]
    cases E.getAccountByEmail with
    | some e => exact .inr ⟨fun h => by simp at h, .db e, rfl⟩
    | none => exact .inl ⟨⟨rfl, rfl⟩, rfl⟩

/-- The checks pass, or refuse the body with an error that is not about authorization; they leave the
state as it is. -/
theorem exec_checkInputs (requester : Option String) (input : CreateAccountBody) (s : State) :
    (PassesChecks E input s ∧ ∃ c : CheckedInput, c.did = input.did ∧
      (checkInputs E requester input).exec s = (.ok c, s)) ∨
    (¬ PassesChecks E input s ∧ ∃ e, (∀ what, e ≠ .authRequiredError what) ∧
      (checkInputs E requester input).exec s = (.error e, s)) := by
  rw [checkInputs, exec_bind, exec_ofExcept]
  cases hform : checkForm E requester input with
  | error e =>
    refine .inr ⟨fun h => ?_, e, fun what he => neverAuth_checkForm what (he ▸ hform), rfl⟩
    obtain ⟨email, he, hv, -⟩ := h.email
    obtain ⟨handle, hn, hh, -⟩ := h.handle
    have hok : checkForm E requester input = .ok (email, handle) :=
      checkForm_ok.2 ⟨h.noPlcOp, h.invited, checkEmail_ok.2 ⟨he, hv⟩, checkHandle_ok.2 ⟨hn, hh⟩⟩
    rw [hform] at hok
    cases hok
  | ok form =>
    obtain ⟨hplc, hinvited, hemail, hhandle⟩ := checkForm_ok.1 hform
    obtain ⟨hgiven, hvalid⟩ := checkEmail_ok.1 hemail
    obtain ⟨hnormal, hvalidated⟩ := checkHandle_ok.1 hhandle
    dsimp only
    rw [exec_bind, exec_mapError, onAccount, exec_zoom]
    rcases exec_lookUp form.1 form.2 s.account with ⟨⟨hget, hgetEmail⟩, hlook⟩ | ⟨hnot, e, hlook⟩
    · rw [hlook]
      dsimp only [Except.mapError]
      rw [exec_bind, exec_ofExcept]
      -- what the lookups found decides the rest, and so do the checks
      cases hh : Account.findAccount form.2 none s.account with
      | some account =>
        refine .inr ⟨fun h => ?_, .handleNotAvailable, fun _ => nofun, rfl⟩
        obtain ⟨handle, hn, -, hfree⟩ := h.handle
        obtain rfl := Except.ok.inj (hnormal.symm.trans hn)
        rw [hh] at hfree
        cases hfree
      | none =>
        cases he : Account.findAccountByEmail E.toLowercase form.1 none s.account with
        | some account =>
          refine .inr ⟨fun h => ?_, .emailNotAvailable, fun _ => nofun, rfl⟩
          obtain ⟨email, hg, -, hfree⟩ := h.email
          obtain rfl := Option.some.inj (hgiven.symm.trans hg)
          rw [he] at hfree
          cases hfree
        | none =>
          cases hp : input.password with
          | none => exact .inr ⟨fun h => h.password hp, .invalidPassword, fun _ => nofun, rfl⟩
          | some password =>
            exact .inl ⟨⟨hplc, hinvited, ⟨_, hgiven, hvalid, he⟩, ⟨_, hnormal, hvalidated, hh⟩, hget,
              hgetEmail, by simp [hp]⟩, _, rfl, rfl⟩
    · rw [hlook]
      exact .inr ⟨fun h => hnot ⟨h.getAccount, h.getAccountByEmail⟩, .runtimeError,
        fun _ => nofun, rfl⟩

/-- With a DID in a body that passes them, the comparison decides. -/
theorem exec_validateInputs {did : String} (requester : Option String) (hdid : input.did = some did)
    (h : PassesChecks E input s) :
    (requester = some did ∧ ∃ what, (validateInputsForLocalPds E input requester).exec s =
      (.error (.authRequiredError what), s)) ∨
    (requester ≠ some did ∧ ∃ v, (validateInputsForLocalPds E input requester).exec s =
      (.ok v, s)) := by
  rcases exec_checkInputs requester input s with ⟨-, c, hc, hexec⟩ | ⟨hnot, -⟩
  · rw [validateInputsForLocalPds, exec_bind, hexec]
    dsimp only
    rw [exec_ofExcept, validateDid, hc, hdid]
    dsimp only
    by_cases hreq : some did = requester
    · rw [if_pos hreq]
      exact .inl ⟨hreq.symm, _, rfl⟩
    · rw [if_neg hreq]
      exact .inr ⟨fun h => hreq h.symm, _, rfl⟩
  · exact absurd h hnot

/-- A body that does not pass them gets an error that is not about authorization. -/
theorem validateInputs_of_not (requester : Option String) (h : ¬ PassesChecks E input s) :
    ∃ e, (∀ what, e ≠ .authRequiredError what) ∧
      (validateInputsForLocalPds E input requester).exec s = (.error e, s) := by
  rcases exec_checkInputs requester input s with ⟨hpass, -⟩ | ⟨-, e, he, hexec⟩
  · exact absurd hpass h
  · refine ⟨e, he, ?_⟩
    rw [validateInputsForLocalPds, exec_bind, hexec]

end

/-! ## The requester -/

section

variable {V : Account.Verifier} {header : Option Bytes}

/-- A header that is let through names a requester exactly if it presents that DID's token. -/
theorem requesterOf_eq_some {access : Option Account.AccessOutput} {did : String}
    (h : userDidAuthOptional V (authHeader header) = .ok access) :
    requesterOf access = some did ↔ Presents V header did := by
  unfold userDidAuthOptional at h
  split at h
  · obtain ⟨out, hout, rfl⟩ : ∃ out, Account.verifyUserDidToken V (authHeader header) = .ok out ∧
        some out = access := by
      rw [except_mapError_ok] at h
      cases hv : Account.verifyUserDidToken V (authHeader header) with
      | error e => rw [hv] at h; cases h
      | ok out =>
        rw [hv] at h
        exact ⟨out, rfl, Except.ok.inj h⟩
    obtain ⟨payload, hpayload, rfl⟩ := Account.verifyUserDidToken_ok.1 hout
    show some payload.iss = some did ↔ _
    rw [Option.some.injEq]
    constructor
    · exact fun hiss => ⟨payload, hpayload, hiss⟩
    · rintro ⟨payload', hpayload', rfl⟩
      rw [hpayload.unique hpayload']
  · rename_i hbearer
    cases h
    refine ⟨nofun, ?_⟩
    rintro ⟨payload, ⟨token, -, htoken, -⟩, -⟩
    cases hh : authHeader header with
    | none => rw [hh] at htoken; cases htoken
    | some text =>
      rw [hh] at htoken hbearer
      unfold Account.bearerTokenFromReq at htoken
      simp only [Option.any_some] at hbearer
      simp [hbearer] at htoken

theorem admitted_iff :
    Admitted V header ↔ ∃ access, userDidAuthOptional V (authHeader header) = .ok access := by
  constructor
  · intro h
    unfold userDidAuthOptional
    split
    · rename_i hbearer
      obtain ⟨_, payload, hpayload, -⟩ := h hbearer
      rw [Account.verifyUserDidToken_ok.2 ⟨payload, hpayload, rfl⟩]
      exact ⟨_, rfl⟩
    · exact ⟨_, rfl⟩
  · rintro ⟨access, haccess⟩ hbearer
    rw [userDidAuthOptional, if_pos hbearer, except_mapError_ok] at haccess
    cases hv : Account.verifyUserDidToken V (authHeader header) with
    | error e => rw [hv] at haccess; cases haccess
    | ok out =>
      obtain ⟨payload, hpayload, -⟩ := Account.verifyUserDidToken_ok.1 hv
      exact ⟨_, payload, hpayload, rfl⟩

end

/-- **Sign-up under a DID is the owner's if and only if the request does not get as far as the
comparison: the extractor refuses its header, or one of the checks its body.** -/
theorem ownerOnly_iff {E : SignUpEnv} {V : Account.Verifier} {header : Option Bytes}
    {input : CreateAccountBody} {did : String} {s : State} (hdid : input.did = some did) :
    OwnerOnly E V header input did s ↔ (Admitted V header → ¬ PassesChecks E input s) := by
  constructor
  · intro h hadmitted hpass
    obtain ⟨access, haccess⟩ := admitted_iff.1 hadmitted
    rcases exec_validateInputs (requesterOf access) hdid hpass with
      ⟨howner, what, hexec⟩ | ⟨hother, v, hexec⟩
    · -- the owner is refused
      refine h.authorized ((requesterOf_eq_some haccess).1 howner) what s ?_
      rw [serverCreateAccount, exec_bind, exec_ofExcept, haccess]
      dsimp only
      rw [exec_bind, hexec]
    · -- anyone else passes
      exact hother ((requesterOf_eq_some haccess).2 (h.validated access v s haccess hexec))
  · intro h
    have hrefused : ∃ e, (∀ what, Presents V header did → e ≠ .authRequiredError what) ∧
        (serverCreateAccount E V header input).exec s = (.error e, s) := by
      rw [serverCreateAccount, exec_bind, exec_ofExcept]
      cases haccess : userDidAuthOptional V (authHeader header) with
      | error e =>
        refine ⟨e, fun what hp => ?_, rfl⟩
        obtain ⟨access, hok⟩ := admitted_iff.1 (fun _ => ⟨did, hp⟩ : Admitted V header)
        rw [haccess] at hok
        cases hok
      | ok access =>
        obtain ⟨e, he, hexec⟩ := validateInputs_of_not (requesterOf access)
          (h (admitted_iff.2 ⟨access, haccess⟩))
        refine ⟨e, fun what _ => he what, ?_⟩
        dsimp only
        rw [exec_bind, hexec]
    obtain ⟨e, he, hexec⟩ := hrefused
    refine ⟨fun access v t haccess hv => ?_, fun _ => by rw [hexec], fun hp what t heq => ?_⟩
    · obtain ⟨e', -, hexec'⟩ := validateInputs_of_not (requesterOf access)
        (h (admitted_iff.2 ⟨access, haccess⟩))
      rw [hv] at hexec'
      cases hexec'
    · rw [hexec] at heq
      exact he what hp (Except.error.inj (congrArg Prod.fst heq))

/-! ## One server -/

/-- Every handle is a normal one, under one service domain. -/
def openSignUps : SignUpEnv where
  server := workingEnv
  handles := ⟨.ok, fun _ => true, fun _ => false⟩
  serviceHandleDomains := [".test"]
  inviteRequired := none
  toLowercase := fun email => String.ofList (email.toList.map Char.toLower)
  getAccount := none
  getAccountByEmail := none

/-- No signing key resolver is registered. -/
def noResolver : Account.Verifier where
  lib := ⟨0, fun _ => .error "", fun _ => .error "", id, fun _ _ _ => .ok false⟩
  resolver := none
  serviceDid := "did:web:x.test"

def malloryBody (password : Option String) : CreateAccountBody where
  email := some "m@x.test"
  handle := "mallory.test"
  did := some "did:plc:bob"
  inviteCode := none
  password
  recoveryKey := none
  plcOp := none

/-- Without a password the request is refused early, whoever sends it. -/
theorem ownerOnly_without_password :
    OwnerOnly openSignUps noResolver none (malloryBody none) "did:plc:bob" State.empty :=
  (ownerOnly_iff rfl).2 fun _ h => h.password rfl

/-- Mallory signs up under Bob's DID, without any header. -/
theorem anyone_signs_up :
    ¬ ∀ E V header input did s, input.did = some did → OwnerOnly E V header input did s := by
  intro h
  have hsame := (h openSignUps noResolver none (malloryBody (some "secret")) "did:plc:bob" State.empty
    rfl).noAccount (by rintro ⟨_, ⟨_, _, h, -⟩, -⟩; cases h)
  have hrow := congrArg (fun a : Account.Db => (a.account.lookup "did:plc:bob").isSome) hsame
  exact absurd hrow (by decide +kernel)

end CacosPds.Server
