import CacosPds.Account.Invites
import CacosPds.Server.AccountEvents
import CacosPds.Server.SignUp
/-!
# Email addresses from sign-up to log-in (`xrpc/com/atproto/server/{create_session,request_password_reset,confirm_email,update_email}.rs`)

| here | there |
| --- | --- |
| `sessionUser`, `resetUser` | the lookups of `inner_create_session` and `inner_request_password_reset` |
| `innerConfirmEmail` | `inner_confirm_email`; the token by its answer |
| `innerUpdateEmail`, `updateEmail` | `inner_update_email` and its handler; the row's `emailConfirmedAt` and the token by their answers |
| `EmailRequest`  | one call of a handler that writes accounts or actors |
| `FoundByEmail`  | what an account owes to the variants of its address |

Each path lowers the address that it is given, and `update_email` the one that it stores; a sign-up
stores it as it comes. So the accounts are found along a run exactly if every address that the run signs
up with is in lower case (`foundByEmail_iff`).
-/
namespace CacosPds.Server

open Stages Sql Runs

/-! ## The lookups -/

section

variable (fault : Option String) (L : Account.Lowercase)

def sessionUser (identifier : String) : Account.Call (Option Account.ActorAccount) :=
  Account.lookUpIdentifier fault L (L.toLowercase identifier) Account.everyAccount

def resetUser (email : String) : Account.Call (Option Account.ActorAccount) :=
  Account.getAccountByEmail fault L.toLowercase (L.toLowercase email) Account.everyAccount

/-- The flags of `confirmEmail` and `updateEmail`. -/
def notTakenDown : Option Account.AvailabilityFlags := some ⟨none, some true⟩

/-- `confirmed` is what `confirm_email` of the account manager answers. -/
def innerConfirmEmail (did email : String) (confirmed : Except String Unit) :
    Stages.Call Account.Db ApiError Unit := do
  let user ← mapError (fun _ => .runtimeError) (Account.getAccount fault did notTakenDown)
  match user with
  | none => throw .accountNotFound
  | some user =>
    match user.email with
    | none => throw (.invalidRequest "Missing Email")
    | some userEmail =>
      if userEmail ≠ L.toLowercase email then throw .invalidEmail
      else ofExcept (confirmed.mapError fun _ => .runtimeError)

end

structure UpdateEmailEnv where
  getAccount : Option String
  /-- `account.email_confirmed_at.is_some()`. -/
  confirmed : Bool
  /-- `assert_valid_email_token`, for a token that is given. -/
  emailToken : String → Except String Unit
  update : Option String
  deleteTokens : Option String

/-- A confirmed address is only changed with a token. -/
def UpdateEmailEnv.checkToken (U : UpdateEmailEnv) (token : Option String) : Except ApiError Unit :=
  if U.confirmed then
    match token with
    | some token => (U.emailToken token).mapError fun _ => .runtimeError
    | none => .error (.invalidRequest "Confirmation token required")
  else .ok ()

/-- `msg.contains("UserAlreadyExistsError")`. -/
def updateEmailError (e : Account.AccountError) : ApiError :=
  if "UserAlreadyExistsError".toList <:+: (e.display id id).toList then
    .invalidRequest "This email address is already in use, please use a different email."
  else .runtimeError

def innerUpdateEmail (U : UpdateEmailEnv) (L : Account.Lowercase) (did email : String)
    (token : Option String) : Call ApiError Unit := do
  ofExcept <| Account.ensure (!email.toList.isEmpty)
    (.invalidRequest "This email address is not supported, please use a different email.")
  let account ← runtime (onAccount (Account.getAccount U.getAccount did notTakenDown))
  match account with
  | none => throw (.invalidRequest "Account not found")
  | some _ =>
    ofExcept (U.checkToken token)
    mapError updateEmailError (onAccount (Account.updateEmail U.update U.deleteTokens L did email))

def updateEmail (U : UpdateEmailEnv) (L : Account.Lowercase) (did email : String)
    (token : Option String) : Call ApiError Unit :=
  mapError (fun _ => .runtimeError) (innerUpdateEmail U L did email token)

/-! ## The requests -/

inductive EmailRequest where
  | createAccount (E : SignUpEnv) (V : Account.Verifier) (header : Option Bytes)
      (input : CreateAccountBody)
  | remoteCreateAccount (E : Env) (input : CreateAccountInput)
  | updateEmail (U : UpdateEmailEnv) (did email : String) (token : Option String)
  | activateAccount (E : Env) (cfg : ServiceConfig) (A : ActivateEnv) (did : Option String)
  | deactivateAccount (A : ActivateEnv) (now : String) (did deleteAfter : Option String)
  | takedownAccount (fault : Option String) (did : String) (takedownRef : Option String)
  | deleteAccount (D : DeleteEnv) (did : String)

def EmailRequest.handle (L : Account.Lowercase) (s : State) : EmailRequest → State
  | .createAccount E V header input =>
    ((serverCreateAccount { E with toLowercase := L.toLowercase } V header input).exec s).2
  | .remoteCreateAccount E input => ((CacosPds.Server.remoteCreateAccount E input).exec s).2
  | .updateEmail U did email token => ((CacosPds.Server.updateEmail U L did email token).exec s).2
  | .activateAccount E cfg A did => ((innerActivateAccount E cfg A did).exec s).2
  | .deactivateAccount A now did deleteAfter =>
    ((innerDeactivateAccount A now did deleteAfter).exec s).2
  | .takedownAccount fault did takedownRef =>
    ((onAccount (Account.updateAccountTakedownStatus fault did takedownRef)).exec s).2
  | .deleteAccount D did => ((innerDeleteAccount D did).exec s).2

def EmailRequest.step (L : Account.Lowercase) (s : State) (r : EmailRequest) : Option State :=
  some (r.handle L s)

/-- An address with the same letters, up to case. -/
def Variant (L : Account.Lowercase) (email : String) (r : Account.AccountRow) : Prop :=
  L.toLowercase email = L.toLowercase r.email

/-- Every account is found by each variant of its address, wherever one looks, and no two have variants
of one address. -/
structure FoundByEmail (L : Account.Lowercase) (s : Account.Db) : Prop where
  login : ∀ did r email, s.account.lookup did = some r → Variant L email r → '@' ∈ email.toList →
    ∃ account, account.did = did ∧ (sessionUser none L email).exec s = (.ok (some account), s)
  reset : ∀ did r email, s.account.lookup did = some r → Variant L email r →
    ∃ account, account.did = did ∧ (resetUser none L email).exec s = (.ok (some account), s)
  /-- Unless the account is taken down, the answer is the token's. -/
  confirm : ∀ did r email confirmed, s.account.lookup did = some r → Variant L email r →
    Account.isDid did = true → (innerConfirmEmail none L did email confirmed).exec s =
      ((Account.accountOf did notTakenDown s).elim (.error .accountNotFound) fun _ =>
        confirmed.mapError fun _ => .runtimeError, s)
  oauth : ∀ did r email, s.account.lookup did = some r → Variant L email r → '@' ∈ email.toList →
    (Account.authenticateUser none L email).exec s = (.ok (Account.accountOf did notTakenDown s), s)
  unique : ∀ did did' r r', s.account.lookup did = some r → s.account.lookup did' = some r' →
    L.toLowercase r.email = L.toLowercase r'.email → did = did'

/-- A sign-up gets as far as the account manager, which inserts a row with this address. -/
def InsertsRow (E : Env) (did : String) (plcRotationKey : Option Keypair) (plcOp : Option Operation)
    (opts : Account.CreateAccountOpts) (email : String) (s : State) : Prop :=
  ReachesAccounts E did plcRotationKey plcOp s ∧
    Account.InsertsAccount E.account opts email s.account

/-- The request passes the extractor and the checks. -/
def Validates (L : Account.Lowercase) (E : SignUpEnv) (V : Account.Verifier) (header : Option Bytes)
    (input : CreateAccountBody) (v : ValidatedCreateAccount E.server) (s : State) : Prop :=
  ∃ access, userDidAuthOptional V (authHeader header) = .ok access ∧
    (validateInputsForLocalPds { E with toLowercase := L.toLowercase } input
      (requesterOf access)).exec s = (.ok v, s)

/-- A sign-up that registers an address has it in lower case. -/
def Lowered (L : Account.Lowercase) (s : State) : EmailRequest → Prop
  | .createAccount E V header input => ∀ v email, Validates L E V header input v s →
      InsertsRow E.server v.did v.plcRotationKey v.plcOp (v.opts E.server.commit) email s →
      L.toLowercase email = email
  | .remoteCreateAccount E input => ∀ genesis email, remoteGenesis E input = .ok genesis →
      InsertsRow E genesis.1 (some E.rotationKeypair) (some genesis.2)
        (input.opts E genesis.1 E.commit) email s →
      L.toLowercase email = email
  | _ => True

/-! ## The lookups of a lower-case address -/

section

variable {L : Account.Lowercase} {s : Account.Db} {did email : String} {r : Account.AccountRow}

theorem exec_getAccountByEmail (h : Account.Canonical L s) (hr : s.account.lookup did = some r)
    (hv : Variant L email r) (flags : Option Account.AvailabilityFlags) :
    (Account.getAccountByEmail none L.toLowercase email flags).exec s =
      (.ok (Account.accountOf did flags s), s) := by
  have he : L.toLowercase email = r.email := by rw [hv, h.lowercase did r hr]
  rw [Account.getAccountByEmail, Account.exec_query, Account.findAccountByEmail_eq h hr he]
  rfl

/-- Lowered once more, a variant stays one. -/
theorem Variant.toLowercase (h : Variant L email r) : Variant L (L.toLowercase email) r := by
  rw [Variant, L.idem]
  exact h

theorem Variant.toAsciiLowercase (h : Variant L email r) :
    Variant L (Account.toAsciiLowercase email) r := by
  rw [Variant, L.ascii]
  exact h

theorem mem_at_toAsciiLowercase (L : Account.Lowercase) :
    '@' ∈ (Account.toAsciiLowercase email).toList ↔ '@' ∈ email.toList := by
  rw [← L.mem_at, L.ascii, L.mem_at]

/-- `confirmEmail` compares the stored address, and leaves the rest to the token. -/
theorem exec_innerConfirmEmail (hr : s.account.lookup did = some r) (hdid : Account.isDid did = true)
    (he : r.email = L.toLowercase email) (confirmed : Except String Unit) :
    (innerConfirmEmail none L did email confirmed).exec s =
      ((Account.accountOf did notTakenDown s).elim (.error .accountNotFound) fun _ =>
        confirmed.mapError fun _ => .runtimeError, s) := by
  have hfind : Account.findAccount did notTakenDown s = Account.accountOf did notTakenDown s :=
    Account.findAccount_did hdid notTakenDown
  rw [innerConfirmEmail, exec_bind, exec_mapError, Account.getAccount, Account.exec_query, hfind]
  cases hof : Account.accountOf did notTakenDown s with
  | none => rfl
  | some account =>
    obtain ⟨a, -, rfl⟩ := Option.map_eq_some_iff.1 hof
    have hemail : (Account.actorAccount s did a).email = some r.email := by
      rw [Account.actorAccount, hr]
      rfl
    dsimp only [Option.elim, Except.mapError]
    rw [hemail]
    dsimp only
    rw [if_neg (not_not_intro he), exec_ofExcept]

/-- Where every address is in lower case, every account is found. -/
theorem foundByEmail_of_canonical (h : Account.Canonical L s) : FoundByEmail L s where
  login did r email hr hv hat := by
    obtain ⟨account, hof, hdid⟩ := Account.accountOf_everyAccount h hr
    refine ⟨account, hdid, ?_⟩
    rw [sessionUser, Account.lookUpIdentifier, if_pos ((L.mem_at email).2 hat),
      exec_getAccountByEmail h hr hv.toLowercase, hof]
  reset did r email hr hv := by
    obtain ⟨account, hof, hdid⟩ := Account.accountOf_everyAccount h hr
    refine ⟨account, hdid, ?_⟩
    rw [resetUser, exec_getAccountByEmail h hr hv.toLowercase, hof]
  confirm did r email confirmed hr hv hdid := by
    have he : r.email = L.toLowercase email := by rw [hv, h.lowercase did r hr]
    exact exec_innerConfirmEmail hr hdid he confirmed
  oauth did r email hr hv hat := by
    rw [Account.authenticateUser, Account.lookUpIdentifier, if_pos ((mem_at_toAsciiLowercase L).2 hat)]
    exact exec_getAccountByEmail h hr hv.toAsciiLowercase notTakenDown
  unique _ _ _ _ hr hr' he := h.unique hr hr' he

/-- An account whose address is stored otherwise cannot reset its password. -/
theorem not_foundByEmail (hr : s.account.lookup did = some r)
    (hcase : L.toLowercase r.email ≠ r.email) : ¬ FoundByEmail L s := by
  intro h
  obtain ⟨account, hdid, hexec⟩ := h.reset did r r.email hr rfl
  rw [resetUser, Account.getAccountByEmail, Account.exec_query] at hexec
  have hfound := Except.ok.inj (congrArg Prod.fst hexec)
  exact Account.findAccountByEmail_ne hr hcase (L.idem r.email) hfound hdid

end

/-! ## Sign-ups -/

section

variable {ε : Type} (E : Env) (φ : Flow ε)

/-- What the account manager leaves of actors and accounts is what the request leaves of them. -/
theorem sameRows_registerAccount {α : Type} (opts : Account.CreateAccountOpts)
    {next : String × String → Call ε α} (hnext : ∀ tokens, Keeps (next tokens) OnlyAnnounces)
    (s : State) :
    Account.SameRows ((Account.createAccount E.account opts).exec s.account).2
      ((registerAccount E φ opts >>= next).exec s).2.account := by
  cases hcreate : (Account.createAccount E.account opts).exec s.account with
  | mk r account =>
    have hzoom : (onAccount (Account.createAccount E.account opts)).exec s =
        (r, { s with account }) := by
      rw [onAccount, exec_zoom, hcreate]
    cases r with
    | ok tokens =>
      rw [exec_bind, registerAccount, (orDestroy_ok E φ opts.did .createAccount).2 hzoom]
      obtain ⟨_, _, hafter⟩ := hnext tokens { s with account }
      dsimp only
      rw [hafter]
      exact ⟨rfl, rfl⟩
    | error e =>
      obtain ⟨err, hregister⟩ := orDestroy_error E φ opts.did .createAccount hzoom
      rw [exec_bind, registerAccount, hregister]
      dsimp only
      rw [(sameAccounts_destroy E.faults opts.did { s with account }).account]
      exact ⟨rfl, rfl⟩

variable (did : String) (plcRotationKey : Option Keypair) (plcOp : Option Operation)

/-- The account database after a sign-up: the account manager's, if it gets there. -/
structure SignedUp (opts : Account.CreateAccountOpts) (s : State) (t : Account.Db) : Prop where
  rows : ReachesAccounts E did plcRotationKey plcOp s →
    Account.SameRows ((Account.createAccount E.account opts).exec s.account).2 t
  same : ¬ ReachesAccounts E did plcRotationKey plcOp s → t = s.account

theorem sameRows_signUp {α : Type} (opts : Account.CreateAccountOpts)
    {rest : String × String → Call ε α} (hrest : ∀ tokens, Keeps (rest tokens) OnlyAnnounces)
    (next : Commit → Call ε α) (hnext : next E.commit = registerAccount E φ opts >>= rest)
    (s : State) :
    SignedUp E did plcRotationKey plcOp opts s ((do
      let commit ← openRepo E φ did plcRotationKey
      submitOperation E φ did plcOp
      next commit).exec s).2.account := by
  rcases exec_signUp E φ did plcRotationKey plcOp next s with
    ⟨hreach, u, hu, hexec⟩ | ⟨hnot, e, u, hu, hexec⟩
  · have hrows := sameRows_registerAccount E φ opts hrest u
    rw [hu.account] at hrows
    rw [hexec, hnext]
    exact ⟨fun _ => hrows, fun hnot => absurd hreach hnot⟩
  · rw [hexec]
    exact ⟨fun hreach => absurd hreach hnot, fun _ => hu.account⟩

variable {L : Account.Lowercase} {E φ did plcRotationKey plcOp}
variable {opts : Account.CreateAccountOpts} {s : State} {t : Account.Db}

/-- A sign-up keeps the addresses in lower case if the one it inserts is. -/
theorem SignedUp.canonical (h : SignedUp E did plcRotationKey plcOp opts s t)
    (hs : Account.Canonical L s.account)
    (hlow : ∀ email, InsertsRow E did plcRotationKey plcOp opts email s → L.toLowercase email = email) :
    Account.Canonical L t := by
  by_cases hreach : ReachesAccounts E did plcRotationKey plcOp s
  · have hrows := h.rows hreach
    have hcreated := Account.canonical_createAccount hs fun email he => hlow email ⟨hreach, he⟩
    exact hcreated.of_eq hrows.account fun did hd => by rwa [hrows.actor]
  · rw [h.same hreach]
    exact hs

/-- The account behind an address that is not cannot be found. -/
theorem SignedUp.not_foundByEmail {email : String} (h : SignedUp E did plcRotationKey plcOp opts s t)
    (hins : InsertsRow E did plcRotationKey plcOp opts email s) (hcase : L.toLowercase email ≠ email) :
    ¬ FoundByEmail L t := by
  obtain ⟨password, haccount⟩ := Account.account_of_insertsAccount hins.2
  have hrow : t.account.lookup opts.did =
      some ⟨email, none, password, E.account.now .registerAccount⟩ := by
    rw [(h.rows hins.1).account, haccount, Finmap.lookup_insert]
  exact CacosPds.Server.not_foundByEmail hrow hcase

end

theorem signedUp_createValidated (E : Env) (v : ValidatedCreateAccount E) (s : State) :
    SignedUp E v.did v.plcRotationKey v.plcOp (v.opts E.commit) s
      ((createValidated E v).exec s).2.account :=
  sameRows_signUp E handlerFlow v.did v.plcRotationKey v.plcOp (v.opts E.commit)
    (onlyAnnounces_finishValidated E v E.commit)
    (fun commit => do
      let tokens ← registerAccount E handlerFlow (v.opts commit)
      finishValidated E v commit tokens) rfl s

theorem signedUp_remoteCreateAccount (E : Env) (input : CreateAccountInput)
    {genesis : String × Operation} (h : remoteGenesis E input = .ok genesis) (s : State) :
    SignedUp E genesis.1 (some E.rotationKeypair) (some genesis.2) (input.opts E genesis.1 E.commit) s
      ((remoteCreateAccount E input).exec s).2.account := by
  rw [remoteCreateAccount, exec_bind, exec_ofExcept, h]
  exact sameRows_signUp E oauthFlow genesis.1 (some E.rotationKeypair) (some genesis.2)
    (input.opts E genesis.1 E.commit)
    (fun _ => onlyAnnounces_finishRemote E genesis.1 input.handle E.commit)
    (fun commit => do
      let _ ← registerAccount E oauthFlow (input.opts E genesis.1 commit)
      finishRemote E genesis.1 input.handle commit) rfl s

theorem reads_validateInputs (E : SignUpEnv) (input : CreateAccountBody) (requester : Option String) :
    Reads (validateInputsForLocalPds E input requester) := by
  refine Reads.bind (fun s => ?_) fun checked => reads_ofExcept _
  rcases exec_checkInputs requester input s with ⟨-, c, -, hexec⟩ | ⟨-, e, -, hexec⟩
  · rw [hexec]
  · rw [hexec]

/-- The handler signs up with a body that passes the checks, and changes nothing otherwise. -/
theorem exec_serverCreateAccount (L : Account.Lowercase) (E : SignUpEnv) (V : Account.Verifier)
    (header : Option Bytes) (input : CreateAccountBody) (s : State) :
    (∃ v, Validates L E V header input v s ∧
      (serverCreateAccount { E with toLowercase := L.toLowercase } V header input).exec s =
        (createValidated E.server v).exec s) ∨
    ((∀ v, ¬ Validates L E V header input v s) ∧
      ((serverCreateAccount { E with toLowercase := L.toLowercase } V header input).exec s).2 = s) := by
  rw [serverCreateAccount, exec_bind, exec_ofExcept]
  cases haccess : userDidAuthOptional V (authHeader header) with
  | error e =>
    refine .inr ⟨?_, rfl⟩
    rintro v ⟨access, hok, -⟩
    cases haccess.symm.trans hok
  | ok access =>
    have hreads := reads_validateInputs { E with toLowercase := L.toLowercase } input
      (requesterOf access) s
    dsimp only
    rw [exec_bind]
    cases hvalidate : (validateInputsForLocalPds { E with toLowercase := L.toLowercase } input
        (requesterOf access)).exec s with
    | mk r t =>
      rw [hvalidate] at hreads
      obtain rfl : t = s := hreads
      cases r with
      | ok v => exact .inl ⟨v, ⟨access, haccess, hvalidate⟩, rfl⟩
      | error e =>
        refine .inr ⟨?_, rfl⟩
        rintro v ⟨access', hok, hv⟩
        obtain rfl := Except.ok.inj (haccess.symm.trans hok)
        cases hvalidate.symm.trans hv

/-! ## The other requests -/

/-- The accounts are the same, and every actor is still there. -/
structure KeepsRows (s t : State) : Prop where
  account : t.account.account = s.account.account
  actor : Account.KeepsActors s.account t.account

theorem keepsRows_refl (s : State) : KeepsRows s s := ⟨rfl, fun _ h => h⟩

theorem keepsRows_trans (s t u : State) (h : KeepsRows s t) (k : KeepsRows t u) : KeepsRows s u :=
  ⟨k.account.trans h.account, fun did hd => k.actor did (h.actor did hd)⟩

theorem keepsRows_updateActor (fault : Option String) (did : String)
    (f : Account.ActorRow → Account.ActorRow) :
    Keeps (onAccount (Account.updateActor fault did f)) KeepsRows := by
  have hupdate : Keeps (Account.updateActor fault did f) fun a b =>
      b.account = a.account ∧ Account.KeepsActors a b :=
    Account.keeps_execute (fun _ => ⟨rfl, fun _ h => h⟩) _ _
      fun _ => ⟨rfl, fun _ h => Table.mem_update.2 h⟩
  exact Keeps.zoom hupdate fun _ _ h => ⟨h.1, h.2⟩

theorem keepsRows_innerDeactivateAccount (A : ActivateEnv) (now : String)
    (did deleteAfter : Option String) :
    Keeps (innerDeactivateAccount A now did deleteAfter) KeepsRows :=
  ((reads_ofExcept _).keeps keepsRows_refl).bind keepsRows_trans fun did =>
    (keepsRows_updateActor _ did _).mapError _

theorem keepsRows_innerActivateAccount (E : Env) (cfg : ServiceConfig) (A : ActivateEnv)
    (did : Option String) : Keeps (innerActivateAccount E cfg A did) KeepsRows := by
  have hsequence : ∀ fault e, Keeps (sequenceOrFail fault e) KeepsRows := fun fault e =>
    (keeps_attempt keepsRows_refl _).bind keepsRows_trans fun _ =>
      keeps_modify fun _ => ⟨rfl, fun _ h => h⟩
  have hfound : ∀ did account, Keeps (activateFound A did account) KeepsRows := fun did account =>
    ((keepsRows_updateActor _ did _).mapError _).bind keepsRows_trans fun _ =>
    (((reads_readActor A did).keeps keepsRows_refl).mapError _).bind keepsRows_trans fun _ =>
    (keeps_attempt keepsRows_refl _).bind keepsRows_trans fun _ =>
    ((Keeps.zoom (Account.reads_query _ _) fun s t h => by
      rw [h]; exact keepsRows_refl s).mapError _).bind keepsRows_trans fun status =>
    (hsequence _ _).bind keepsRows_trans fun _ =>
    (hsequence _ _).bind keepsRows_trans fun _ => hsequence _ _
  refine ((reads_ofExcept _).keeps keepsRows_refl).bind keepsRows_trans fun did => ?_
  refine Keeps.bind keepsRows_trans (keeps_get_bind fun s => ?_) fun _ => ?_
  · rw [exec_ofExcept]
    exact keepsRows_refl s
  refine Keeps.bind keepsRows_trans ((Keeps.zoom (Account.reads_query _ _) fun s t h => by
    rw [h]; exact keepsRows_refl s).mapError _) fun account => ?_
  cases account with
  | none => exact keeps_throw keepsRows_refl _
  | some account => exact hfound did account

section

variable {L : Account.Lowercase} {s : State}

/-- A deletion takes the actor's row away together with the account's. -/
theorem canonical_innerDeleteAccount (D : DeleteEnv) (did : String)
    (h : Account.Canonical L s.account) :
    Account.Canonical L ((innerDeleteAccount D did).exec s).2.account := by
  by_cases hdel : DeletesRows D did s
  swap
  · obtain ⟨e, t, hexec, hsame⟩ := innerDeleteAccount_of_not hdel
    rw [hexec]
    dsimp only
    rw [hsame.account]
    exact h
  obtain ⟨u, haccount, -, hexec⟩ := exec_innerDeleteAccount hdel
  have hafter : ((innerDeleteAccount D did).exec s).2.account = (rowsDeleted did s).account := by
    rw [hexec]
    split <;> exact haccount
  rw [hafter, rowsDeleted]
  have hlookup : ∀ d r, (s.account.account.erase did).lookup d = some r →
      d ≠ did ∧ s.account.account.lookup d = some r := by
    intro d r hl
    have hne : d ≠ did := by
      rintro rfl
      rw [Finmap.lookup_erase] at hl
      cases hl
    rw [Finmap.lookup_erase_ne hne] at hl
    exact ⟨hne, hl⟩
  refine ⟨fun d r hl => h.lowercase d r (hlookup d r hl).2, ?_, fun d hd => ?_⟩
  · intro k k' r r' v hl hl'
    exact h.indexed k k' r r' v (hlookup k r hl).2 (hlookup k' r' hl').2
  · obtain ⟨hne, hd⟩ := Finmap.mem_erase.1 hd
    exact Finmap.mem_erase.2 ⟨hne, h.actor d hd⟩

theorem canonical_updateEmail_handler (U : UpdateEmailEnv) (did email : String)
    (token : Option String) (h : Account.Canonical L s.account) :
    Account.Canonical L ((updateEmail U L did email token).exec s).2.account := by
  have hrefl : ∀ s : State, Account.Canonical L s.account → Account.Canonical L s.account :=
    fun _ h => h
  have htrans : ∀ s t u : State, (Account.Canonical L s.account → Account.Canonical L t.account) →
      (Account.Canonical L t.account → Account.Canonical L u.account) →
      Account.Canonical L s.account → Account.Canonical L u.account := fun _ _ _ h k hs => k (h hs)
  have hhandler : Keeps (updateEmail U L did email token) fun s t =>
      Account.Canonical L s.account → Account.Canonical L t.account := by
    refine Keeps.mapError (Keeps.bind htrans ((reads_ofExcept _).keeps hrefl) fun _ => ?_) _
    refine Keeps.bind htrans ((Keeps.zoom (Account.reads_query _ _) fun s t ht => by
      rw [ht]; exact hrefl s).mapError _) fun account => ?_
    cases account with
    | none => exact keeps_throw hrefl _
    | some account =>
      exact Keeps.bind htrans ((reads_ofExcept _).keeps hrefl) fun _ =>
        (Keeps.zoom (Account.canonical_updateEmail _ _ _ _) fun _ _ ht => ht).mapError _
  exact hhandler s h

end

/-- The address that is registered is the body's, as it comes. -/
theorem Validates.email {L : Account.Lowercase} {E : SignUpEnv} {V : Account.Verifier}
    {header : Option Bytes} {input : CreateAccountBody} {v : ValidatedCreateAccount E.server} {s : State}
    (h : Validates L E V header input v s) : input.email = some v.email := by
  obtain ⟨access, -, hvalidate⟩ := h
  obtain ⟨checked, t, hchecked, hdid⟩ := exec_bind_ok.1 hvalidate
  obtain ⟨form, u, hform, hrest⟩ := exec_bind_ok.1 hchecked
  rw [exec_ofExcept] at hform hdid
  have hgiven := (checkEmail_ok.1 (checkForm_ok.1 (congrArg Prod.fst hform)).2.2.1).1
  have hemail : checked.email = form.1 := by
    obtain ⟨_, _, -, hrest⟩ := exec_bind_ok.1 hrest
    obtain ⟨_, _, -, hrest⟩ := exec_bind_ok.1 hrest
    obtain ⟨_, _, -, hrest⟩ := exec_bind_ok.1 hrest
    cases hrest
    rfl
  have hv : validateDid E.server (requesterOf access) checked = .ok v := congrArg Prod.fst hdid
  unfold validateDid at hv
  rw [hgiven, ← hemail]
  split at hv
  · split at hv
    · cases hv
    · cases hv
      rfl
  · split at hv
    · cases hv
    · cases hv
      rfl

/-! ## Runs -/

section

variable {L : Account.Lowercase} {s : State}

theorem canonical_handle (h : Account.Canonical L s.account) {r : EmailRequest}
    (hr : Lowered L s r) : Account.Canonical L (r.handle L s).account := by
  cases r with
  | createAccount E V header input =>
    rw [EmailRequest.handle]
    rcases exec_serverCreateAccount L E V header input s with ⟨v, hv, hexec⟩ | ⟨-, hexec⟩
    · rw [hexec]
      exact (signedUp_createValidated E.server v s).canonical h fun email => hr v email hv
    · rwa [hexec]
  | remoteCreateAccount E input =>
    rw [EmailRequest.handle]
    cases hgenesis : remoteGenesis E input with
    | error e => rwa [remoteCreateAccount, exec_bind, exec_ofExcept, hgenesis]
    | ok genesis =>
      exact (signedUp_remoteCreateAccount E input hgenesis s).canonical h
        fun email => hr genesis email hgenesis
  | updateEmail U did email token => exact canonical_updateEmail_handler U did email token h
  | activateAccount E cfg A did =>
    have hrows := keepsRows_innerActivateAccount E cfg A did s
    exact h.of_eq hrows.account hrows.actor
  | deactivateAccount A now did deleteAfter =>
    have hrows := keepsRows_innerDeactivateAccount A now did deleteAfter s
    exact h.of_eq hrows.account hrows.actor
  | takedownAccount fault did takedownRef =>
    have hrows := keepsRows_updateActor fault did (fun r => { r with takedownRef }) s
    exact h.of_eq hrows.account hrows.actor
  | deleteAccount D did => exact canonical_innerDeleteAccount D did h

theorem not_foundByEmail_handle {r : EmailRequest} (hr : ¬ Lowered L s r) :
    ¬ FoundByEmail L (r.handle L s).account := by
  cases r with
  | createAccount E V header input =>
    simp only [Lowered, not_forall] at hr
    obtain ⟨v, email, hv, hins, hcase⟩ := hr
    rw [EmailRequest.handle]
    rcases exec_serverCreateAccount L E V header input s with ⟨v', hv', hexec⟩ | ⟨hnot, -⟩
    · obtain ⟨access, haccess, hvalidate⟩ := hv
      obtain ⟨access', haccess', hvalidate'⟩ := hv'
      obtain rfl := Except.ok.inj (haccess.symm.trans haccess')
      obtain rfl := Except.ok.inj (congrArg Prod.fst (hvalidate.symm.trans hvalidate'))
      rw [hexec]
      exact (signedUp_createValidated E.server v s).not_foundByEmail hins hcase
    · exact absurd hv (hnot v)
  | remoteCreateAccount E input =>
    simp only [Lowered, not_forall] at hr
    obtain ⟨genesis, email, hgenesis, hins, hcase⟩ := hr
    exact (signedUp_remoteCreateAccount E input hgenesis s).not_foundByEmail hins hcase
  | _ => exact absurd trivial hr

end

/-- **Along a run every account is found by its address, in any case, if and only if each sign-up of
the run that registers an address gives it in lower case.** -/
theorem foundByEmail_iff {L : Account.Lowercase} {s : State} (hs : Account.Canonical L s.account)
    (rs : List EmailRequest) :
    Always (EmailRequest.step L) (fun s => FoundByEmail L s.account) s rs ↔
      Along (EmailRequest.step L) (Lowered L) s rs := by
  refine always_iff_along (I := fun s : State => Account.Canonical L s.account)
    (fun _ h => foundByEmail_of_canonical h) (fun _ r t h hr ht => ?_) (fun _ r t _ hr ht => ?_) hs rs
  · obtain rfl := Option.some.inj ht
    exact canonical_handle h hr
  · obtain rfl := Option.some.inj ht
    exact not_foundByEmail_handle hr

/-- Bob signs up, with a new DID. -/
def bobRegisters (email : String) : EmailRequest :=
  .createAccount openSignUps noResolver none
    { email := some email, handle := "bob.test", did := none, inviteCode := none,
      password := some "secret", recoveryKey := none, plcOp := none }

theorem canonical_empty (L : Account.Lowercase) : Account.Canonical L State.empty.account :=
  ⟨nofun, Table.indexed_empty, fun _ h => absurd h Finmap.notMem_empty⟩

/-- With an address in lower case he is found. -/
theorem foundByEmail_lower_case : Always (EmailRequest.step Account.asciiLowercase)
    (fun s => FoundByEmail Account.asciiLowercase s.account) State.empty
    [bobRegisters "bob@x.test"] := by
  refine (foundByEmail_iff (canonical_empty _) _).2 ?_
  rw [along_cons_of_some rfl]
  refine ⟨?_, trivial⟩
  rintro v email hv ⟨-, hins⟩
  obtain rfl : "bob@x.test" = email := Option.some.inj (hv.email.trans hins.given)
  decide

/-- With any other he is not: the address he has signed up with does not reset his password. -/
theorem mixed_case_is_lost : ¬ ∀ L rs, Always (EmailRequest.step L)
    (fun s => FoundByEmail L s.account) State.empty rs := by
  intro h
  have hfound := ((h Account.asciiLowercase [bobRegisters "Bob@x.test"]).2 _ rfl).head
  have hrow : (((bobRegisters "Bob@x.test").handle Account.asciiLowercase
      State.empty).account.account.lookup "did:plc:bob").map Account.AccountRow.email =
        some "Bob@x.test" := by
    decide +kernel
  obtain ⟨r, hr, hemail⟩ := Option.map_eq_some_iff.1 hrow
  obtain ⟨account, -, hexec⟩ := hfound.reset "did:plc:bob" r "Bob@x.test" hr (by rw [Variant, hemail])
  have hnone : (((resetUser none Account.asciiLowercase "Bob@x.test").exec
      ((bobRegisters "Bob@x.test").handle Account.asciiLowercase State.empty).account).1.toOption.join).isNone =
        true := by
    decide +kernel
  rw [hexec] at hnone
  cases hnone

end CacosPds.Server
