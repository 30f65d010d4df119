import CacosPds.Account.Tables
/-!
# `AccountManager::create_account` (`account/mod.rs:146-192`)

| here | there |
| --- | --- |
| `findInvite`, `checkUses` | the two queries of `ensure_invite_is_available` (`helpers/invite.rs:86`) |
| `registerActor`, `registerAccount` | `helpers/account.rs:197`, `:239` |
| `recordInviteUse` | `helpers/invite.rs:129` |
| `storeRefreshToken` | `helpers/auth.rs:268` |
| `updateRoot`      | `update_root` (`helpers/repo.rs:30`), one transaction |
| `Env`             | the clock, the password hash, the JWT library, and which statements the database fails |
| `RegistersActor`, `Completes` | what the statements up to `register_actor` and those after it need |

The statements run one after another without a transaction around them. A failure before
`register_actor` leaves the database as it was; a failure after it leaves the actor's row behind
(`createAccount_unchanged_iff`).
-/
namespace CacosPds.Account

open Stages Sql

structure CreateAccountOpts where
  did : String
  handle : String
  email : Option String
  password : Option String
  repoCid : Cid
  repoRev : String
  inviteCode : Option String
  deactivated : Option Bool
  serviceDid : String

/-- The claims of a decoded refresh JWT; `exp` in milliseconds. -/
structure RefreshToken where
  sub : String
  exp : Nat
  jti : String

inductive Statement where
  | selectInvite
  | countUses
  | registerActor
  | registerAccount
  | recordInviteUse
  | storeRefreshToken
  | updateRoot
  deriving DecidableEq

structure Env where
  fault : Statement → Option String
  /-- The clock's text as the statement's values are made. -/
  now : Statement → String
  genSaltAndHash : String → Except String String
  /-- The access and the refresh JWT for a DID and a service DID. -/
  createTokens : String → String → Except String (String × String)
  decodeRefreshToken : String → Except String RefreshToken
  /-- `DateTime::from_timestamp_millis` and its format. -/
  formatMillis : Nat → Option String

/-! ## The statements -/

/-- The invite code's row, through the left join on `actor`. -/
def selectInvite (code : String) (s : Db) : Option InviteCode :=
  (s.inviteCode.lookupLeftJoin InviteCode.forAccount (fun a : ActorRow => a.takedownRef.isNone)
    s.actor code).map Prod.fst

/-- The join's condition on `takedownRef` does not matter: a taken down `forAccount` is joined to
nothing, and the code's row is returned all the same. -/
theorem selectInvite_eq (code : String) (s : Db) : selectInvite code s = s.inviteCode.lookup code :=
  Table.map_fst_lookupLeftJoin _ _ _ _ _

/-- The first query of `ensure_invite_is_available`, and the check of its row. -/
def findInvite (fault : Option String) (code : String) : Call InviteCode := do
  match ← query fault (selectInvite code) with
  | none => throw (.inviteNoneOrDisabled code)
  | some invite => if 0 < invite.disabled then throw (.inviteNoneOrDisabled code) else return invite

/-- The second query, and the check of its count. -/
def checkUses (fault : Option String) (code : String) (invite : InviteCode) : Call Unit := do
  let uses ← query fault (usesOf code)
  if invite.availableUses ≤ uses then throw (.inviteNotEnoughUses code) else return ()

def ensureInviteIsAvailable (E : Env) (inviteCode : String) : Call Unit := do
  let invite ← findInvite (E.fault .selectInvite) inviteCode
  checkUses (E.fault .countUses) inviteCode invite

/-- The row of a new actor. -/
def newActor (now handle : String) (deactivated : Option Bool) : ActorRow where
  handle := some handle
  createdAt := now
  takedownRef := none
  deactivatedAt := if deactivated = some true then some now else none
  deleteAfter := none

/-- `ON CONFLICT (did) DO NOTHING RETURNING did`: no row comes back from a conflict on the DID, and
SQLite looks at that one first. -/
def registerActor (fault : Option String) (now did handle : String) (deactivated : Option Bool) :
    Call Unit :=
  execute fault
    (fun s =>
      if did ∈ s.actor then some .userAlreadyExists
      else if handleTaken handle s then some (.unique "actor_handle_lower_idx")
      else none)
    (fun s => { s with actor := s.actor.insert did (newActor now handle deactivated) })

def registerAccount (fault : Option String) (now did email password : String)
    (recoveryKey : Option String) : Call Unit :=
  execute fault
    (fun s =>
      if did ∈ s.account then some .userAlreadyExists
      else if emailTaken email s then some (.unique "account_email_lower_idx")
      else none)
    (fun s => { s with account := s.account.insert did ⟨email, recoveryKey, password, now⟩ })

def recordInviteUse (fault : Option String) (now did : String) (inviteCode : Option String) :
    Call Unit :=
  match inviteCode with
  | none => pure ()
  | some code =>
    execute fault
      (fun s => if (code, did) ∈ s.inviteCodeUse then some (.unique "pk_invite_code_use") else none)
      (fun s => { s with inviteCodeUse := s.inviteCodeUse.insert (code, did) now })

def storeRefreshToken (fault : Option String) (formatMillis : Nat → Option String)
    (payload : RefreshToken) (appPasswordName : Option String) : Call Unit :=
  match formatMillis payload.exp with
  | none => throw .expiryOutOfRange
  | some expiresAt =>
    execute fault (fun _ => none) fun s =>
      { s with
        refreshToken :=
          s.refreshToken.insertIgnore payload.jti ⟨payload.sub, expiresAt, none, appPasswordName⟩ }

/-- The row of the DID is inserted, or updated unless its `rev` is greater. -/
def updateRoot (fault : Option String) (now did : String) (cid : Cid) (rev : String) : Call Unit :=
  execute fault
    (fun s =>
      match s.repoRoot.lookup did with
      | none => none
      | some existing => if existing.rev ≤ rev then none else some (.revRegression existing.rev rev))
    (fun s => { s with repoRoot := s.repoRoot.insert did ⟨cid, rev, now⟩ })

/-! ## The call -/

/-- What comes before the first statement: the password's hash, the tokens, the refresh payload. -/
structure Prepared where
  passwordEncrypted : Option String
  accessJwt : String
  refreshJwt : String
  payload : RefreshToken

def hashPassword (E : Env) : Option String → Except AccountError (Option String)
  | none => .ok none
  | some password => ((E.genSaltAndHash password).mapError .foreign).map some

def prepare (E : Env) (opts : CreateAccountOpts) : Except AccountError Prepared := do
  let passwordEncrypted ← hashPassword E opts.password
  let (accessJwt, refreshJwt) ← (E.createTokens opts.did opts.serviceDid).mapError .foreign
  let payload ← (E.decodeRefreshToken refreshJwt).mapError .foreign
  return ⟨passwordEncrypted, accessJwt, refreshJwt, payload⟩

def ensureInvite (E : Env) : Option String → Call Unit
  | none => pure ()
  | some inviteCode => ensureInviteIsAvailable E inviteCode

/-- The account's row is for a call with an email address and a password. -/
def registerAccountIfGiven (E : Env) (did : String) (email passwordEncrypted : Option String) :
    Call Unit :=
  match email, passwordEncrypted with
  | some email, some password =>
    registerAccount (E.fault .registerAccount) (E.now .registerAccount) did email password none
  | _, _ => pure ()

/-- The statements after `register_actor`. -/
def completeAccount (E : Env) (opts : CreateAccountOpts) (p : Prepared) : Call Unit := do
  registerAccountIfGiven E opts.did opts.email p.passwordEncrypted
  recordInviteUse (E.fault .recordInviteUse) (E.now .recordInviteUse) opts.did opts.inviteCode
  storeRefreshToken (E.fault .storeRefreshToken) E.formatMillis p.payload none
  updateRoot (E.fault .updateRoot) (E.now .updateRoot) opts.did opts.repoCid opts.repoRev

def createAccount (E : Env) (opts : CreateAccountOpts) : Call (String × String) := do
  let p ← ofExcept (prepare E opts)
  ensureInvite E opts.inviteCode
  registerActor (E.fault .registerActor) (E.now .registerActor) opts.did opts.handle opts.deactivated
  completeAccount E opts p
  return (p.accessJwt, p.refreshJwt)

/-! ## What the statements need -/

/-- The two queries work and find the code enabled, with uses left. -/
structure InviteAvailable (E : Env) (code : String) (s : Db) : Prop where
  selects : E.fault .selectInvite = none
  counts : E.fault .countUses = none
  available : ∃ invite, s.inviteCode.lookup code = some invite ∧ invite.disabled ≤ 0 ∧
    usesOf code s < invite.availableUses

/-- The call gets as far as the actor's registration, and that goes through. -/
structure RegistersActor (E : Env) (opts : CreateAccountOpts) (s : Db) : Prop where
  prepared : ∃ p, prepare E opts = .ok p
  invite : ∀ code, opts.inviteCode = some code → InviteAvailable E code s
  works : E.fault .registerActor = none
  newDid : opts.did ∉ s.actor
  newHandle : handleTaken opts.handle s = false

/-- Every statement after that goes through. -/
structure Completes (E : Env) (opts : CreateAccountOpts) (p : Prepared) (s : Db) : Prop where
  account : ∀ email password, opts.email = some email → p.passwordEncrypted = some password →
    E.fault .registerAccount = none ∧ opts.did ∉ s.account ∧ emailTaken email s = false
  use : ∀ code, opts.inviteCode = some code →
    E.fault .recordInviteUse = none ∧ (code, opts.did) ∉ s.inviteCodeUse
  token : (E.formatMillis p.payload.exp).isSome ∧ E.fault .storeRefreshToken = none
  root : E.fault .updateRoot = none ∧
    ∀ existing, s.repoRoot.lookup opts.did = some existing → existing.rev ≤ opts.repoRev

theorem findInvite_ok {fault : Option String} {code : String} {invite : InviteCode} {s t : Db} :
    (findInvite fault code).exec s = (.ok invite, t) ↔
      fault = none ∧ s.inviteCode.lookup code = some invite ∧ invite.disabled ≤ 0 ∧ t = s := by
  rw [findInvite, exec_bind, exec_query, selectInvite_eq]
  cases fault with
  | some e => simp
  | none =>
    cases s.inviteCode.lookup code with
    | none => simp
    | some row =>
      by_cases hd : 0 < row.disabled
      · simp only [Option.elim, if_pos hd, exec_throw, Prod.mk.injEq, reduceCtorEq, false_and,
          Option.some.injEq, true_and, false_iff]
        rintro ⟨rfl, hle, -⟩
        exact absurd hd (Int.not_lt.2 hle)
      · simp only [Option.elim, if_neg hd, exec_pure, Prod.mk.injEq, Except.ok.injEq,
          Option.some.injEq, true_and]
        constructor
        · rintro ⟨rfl, rfl⟩
          exact ⟨rfl, Int.not_lt.1 hd, rfl⟩
        · rintro ⟨rfl, -, rfl⟩
          exact ⟨rfl, rfl⟩

theorem reads_findInvite (fault : Option String) (code : String) :
    Reads (findInvite fault code) := by
  refine (reads_query fault _).bind fun row => ?_
  cases row with
  | none => exact reads_throw _
  | some invite =>
    dsimp only
    split
    · exact reads_throw _
    · exact reads_pure _

theorem checkUses_ok {fault : Option String} {code : String} {invite : InviteCode} {s t : Db} :
    (checkUses fault code invite).exec s = (.ok (), t) ↔
      fault = none ∧ usesOf code s < invite.availableUses ∧ t = s := by
  rw [checkUses, exec_bind, exec_query]
  cases fault with
  | some e => simp
  | none =>
    dsimp only [Option.elim]
    split
    · rename_i hle
      simp only [exec_throw, Prod.mk.injEq, reduceCtorEq, false_and, true_and, false_iff]
      rintro ⟨hlt, -⟩
      exact absurd hlt (Int.not_lt.2 hle)
    · rename_i hlt
      rw [exec_pure, Prod.mk.injEq]
      exact ⟨fun h => ⟨rfl, Int.not_le.1 hlt, h.2.symm⟩, fun h => ⟨rfl, h.2.2.symm⟩⟩

theorem reads_checkUses (fault : Option String) (code : String) (invite : InviteCode) :
    Reads (checkUses fault code invite) := by
  refine (reads_query fault _).bind fun uses => ?_
  split
  · exact reads_throw _
  · exact reads_pure _

theorem does_ensureInviteIsAvailable (E : Env) (code : String) :
    Does (ensureInviteIsAvailable E code) (InviteAvailable E code) id := by
  intro s t
  rw [ensureInviteIsAvailable, exec_bind_ok]
  simp only [findInvite_ok, checkUses_ok, id]
  constructor
  · rintro ⟨invite, u, ⟨hf, hl, hd, rfl⟩, hc, hlt, rfl⟩
    exact ⟨⟨hf, hc, invite, hl, hd, hlt⟩, rfl⟩
  · rintro ⟨⟨hf, hc, invite, hl, hd, hlt⟩, rfl⟩
    exact ⟨invite, _, ⟨hf, hl, hd, rfl⟩, hc, hlt, rfl⟩

theorem reads_ensureInviteIsAvailable (E : Env) (code : String) :
    Reads (ensureInviteIsAvailable E code) :=
  (reads_findInvite _ code).bind fun invite => reads_checkUses _ code invite

theorem does_ensureInvite (E : Env) (inviteCode : Option String) :
    Does (ensureInvite E inviteCode)
      (fun s => ∀ code, inviteCode = some code → InviteAvailable E code s) id := by
  cases inviteCode with
  | none => exact does_pure.congr (fun s => by simp) fun _ _ => rfl
  | some code => exact (does_ensureInviteIsAvailable E code).congr (fun s => by simp) fun _ _ => rfl

theorem reads_ensureInvite (E : Env) (inviteCode : Option String) :
    Reads (ensureInvite E inviteCode) := by
  cases inviteCode with
  | none => exact reads_pure ()
  | some code => exact reads_ensureInviteIsAvailable E code

/-- The statement `register_actor` goes through exactly on a free DID and a free handle. -/
theorem does_registerActor (fault : Option String) (now did handle : String)
    (deactivated : Option Bool) :
    Does (registerActor fault now did handle deactivated)
      (fun s => fault = none ∧ did ∉ s.actor ∧ handleTaken handle s = false)
      (fun s => { s with actor := s.actor.insert did (newActor now handle deactivated) }) :=
  (does_execute fault _ _).congr (fun s => by
    by_cases hd : did ∈ s.actor <;> by_cases hh : handleTaken handle s = true <;> simp [hd, hh])
    fun _ _ => rfl

theorem does_registerAccount (fault : Option String) (now did email password : String)
    (recoveryKey : Option String) :
    Does (registerAccount fault now did email password recoveryKey)
      (fun s => fault = none ∧ did ∉ s.account ∧ emailTaken email s = false)
      (fun s => { s with account := s.account.insert did ⟨email, recoveryKey, password, now⟩ }) :=
  (does_execute fault _ _).congr (fun s => by
    by_cases hd : did ∈ s.account <;> by_cases hh : emailTaken email s = true <;> simp [hd, hh])
    fun _ _ => rfl

theorem does_recordInviteUse (fault : Option String) (now did : String)
    (inviteCode : Option String) :
    Does (recordInviteUse fault now did inviteCode)
      (fun s => ∀ code, inviteCode = some code → fault = none ∧ (code, did) ∉ s.inviteCodeUse)
      (fun s => { s with
        inviteCodeUse := inviteCode.elim s.inviteCodeUse fun code =>
          s.inviteCodeUse.insert (code, did) now }) := by
  cases inviteCode with
  | none => exact does_pure.congr (fun s => by simp) fun _ _ => rfl
  | some code =>
    refine (does_execute fault _ _).congr (fun s => ?_) fun _ _ => rfl
    by_cases h : (code, did) ∈ s.inviteCodeUse <;> simp [h]

theorem does_storeRefreshToken (fault : Option String) (formatMillis : Nat → Option String)
    (payload : RefreshToken) (appPasswordName : Option String) :
    Does (storeRefreshToken fault formatMillis payload appPasswordName)
      (fun _ => (formatMillis payload.exp).isSome ∧ fault = none)
      (fun s => { s with
        refreshToken := (formatMillis payload.exp).elim s.refreshToken fun expiresAt =>
          s.refreshToken.insertIgnore payload.jti
            ⟨payload.sub, expiresAt, none, appPasswordName⟩ }) := by
  unfold storeRefreshToken
  cases formatMillis payload.exp with
  | none => intro s t; simp
  | some expiresAt => exact (does_execute fault _ _).congr (fun s => by simp) fun _ _ => rfl

theorem does_updateRoot (fault : Option String) (now did : String) (cid : Cid) (rev : String) :
    Does (updateRoot fault now did cid rev)
      (fun s => fault = none ∧
        ∀ existing, s.repoRoot.lookup did = some existing → existing.rev ≤ rev)
      (fun s => { s with repoRoot := s.repoRoot.insert did ⟨cid, rev, now⟩ }) := by
  refine (does_execute fault _ _).congr (fun s => and_congr_right fun _ => ?_) fun _ _ => rfl
  cases s.repoRoot.lookup did with
  | none => simp
  | some existing =>
    simp only [Option.some.injEq, forall_eq']
    split
    · exact iff_of_true rfl ‹_›
    · exact iff_of_false (Option.some_ne_none _) ‹_›

theorem does_registerAccountIfGiven (E : Env) (did : String)
    (email passwordEncrypted : Option String) :
    Does (registerAccountIfGiven E did email passwordEncrypted)
      (fun s => ∀ e password, email = some e → passwordEncrypted = some password →
        E.fault .registerAccount = none ∧ did ∉ s.account ∧ emailTaken e s = false)
      (fun s => { s with
        account := email.elim s.account fun e => passwordEncrypted.elim s.account fun password =>
          s.account.insert did ⟨e, none, password, E.now .registerAccount⟩ }) := by
  unfold registerAccountIfGiven
  split
  · refine (does_registerAccount _ _ _ _ _ none).congr (fun s => ?_) fun _ _ => rfl
    simp
  · rename_i hnone
    refine does_pure.congr (fun s => ?_) fun s _ => ?_
    · simp only [true_iff]
      exact fun e password he hp => absurd hp (hnone e password he)
    · cases email with
      | none => rfl
      | some e =>
        cases passwordEncrypted with
        | none => rfl
        | some password => exact (hnone e password rfl rfl).elim

/-- The statements after `register_actor` go through exactly when each finds what it needs: none of
them changes what a later one looks at. -/
theorem completeAccount_ok (E : Env) (opts : CreateAccountOpts) (p : Prepared) (s : Db) :
    (∃ t, (completeAccount E opts p).exec s = (.ok (), t)) ↔ Completes E opts p s := by
  have hall := (does_registerAccountIfGiven E opts.did opts.email p.passwordEncrypted).bind <|
    (does_recordInviteUse (E.fault .recordInviteUse) (E.now .recordInviteUse) opts.did
      opts.inviteCode).bind <|
    (does_storeRefreshToken (E.fault .storeRefreshToken) E.formatMillis p.payload none).bind <|
    does_updateRoot (E.fault .updateRoot) (E.now .updateRoot) opts.did opts.repoCid opts.repoRev
  refine (hall.exists_iff s).trans ⟨fun h => ?_, fun h => ?_⟩
  · exact ⟨h.1, h.2.1, h.2.2.1, h.2.2.2⟩
  · exact ⟨h.account, h.use, h.token, h.root⟩

/-! ## A failed call -/

def SameActors (s t : Db) : Prop := t.actor = s.actor

theorem sameActors_refl (s : Db) : SameActors s s := rfl

theorem sameActors_trans (s t u : Db) (h : SameActors s t) (k : SameActors t u) :
    SameActors s u := Eq.trans k h

theorem sameActors_execute (fault : Option String) (refuse : Db → Option AccountError)
    {f : Db → Db} (h : ∀ s, SameActors s (f s)) : Keeps (execute fault refuse f) SameActors :=
  keeps_execute sameActors_refl _ _ h

/-- Actors and accounts are the same. -/
structure SameRows (s t : Db) : Prop where
  actor : t.actor = s.actor
  account : t.account = s.account

theorem sameRows_refl (s : Db) : SameRows s s := ⟨rfl, rfl⟩

theorem sameRows_trans (s t u : Db) (h : SameRows s t) (k : SameRows t u) : SameRows s u :=
  ⟨k.actor.trans h.actor, k.account.trans h.account⟩

/-- No statement after `register_account` is about either. -/
theorem sameRows_afterAccount (E : Env) (opts : CreateAccountOpts) (p : Prepared) :
    Keeps (do
      recordInviteUse (E.fault .recordInviteUse) (E.now .recordInviteUse) opts.did opts.inviteCode
      storeRefreshToken (E.fault .storeRefreshToken) E.formatMillis p.payload none
      updateRoot (E.fault .updateRoot) (E.now .updateRoot) opts.did opts.repoCid opts.repoRev)
      SameRows := by
  have huse : Keeps (recordInviteUse (E.fault .recordInviteUse) (E.now .recordInviteUse) opts.did
      opts.inviteCode) SameRows := by
    unfold recordInviteUse
    split
    · exact keeps_pure sameRows_refl _
    · exact keeps_execute sameRows_refl _ _ fun _ => ⟨rfl, rfl⟩
  have htoken : Keeps (storeRefreshToken (E.fault .storeRefreshToken) E.formatMillis p.payload none)
      SameRows := by
    unfold storeRefreshToken
    split
    · exact keeps_throw sameRows_refl _
    · exact keeps_execute sameRows_refl _ _ fun _ => ⟨rfl, rfl⟩
  exact huse.bind sameRows_trans fun _ => htoken.bind sameRows_trans fun _ =>
    keeps_execute sameRows_refl _ _ fun _ => ⟨rfl, rfl⟩

/-- No statement after `register_actor` is about the actors. -/
theorem sameActors_completeAccount (E : Env) (opts : CreateAccountOpts) (p : Prepared) :
    Keeps (completeAccount E opts p) SameActors := by
  have haccount : Keeps (registerAccountIfGiven E opts.did opts.email p.passwordEncrypted)
      SameActors := by
    unfold registerAccountIfGiven
    split
    · exact sameActors_execute _ _ fun _ => rfl
    · exact keeps_pure sameActors_refl _
  exact haccount.bind sameActors_trans fun _ =>
    (sameRows_afterAccount E opts p).mono fun _ _ h => h.actor

/-- Actor rows stay. -/
def KeepsActors (s t : Db) : Prop := ∀ did ∈ s.actor, did ∈ t.actor

theorem keepsActors_completeAccount (E : Env) (opts : CreateAccountOpts) (p : Prepared) :
    Keeps (completeAccount E opts p) KeepsActors :=
  (sameActors_completeAccount E opts p).mono fun s t h did hd => by rwa [show t.actor = _ from h]

/-- The state as `register_actor` leaves it. -/
def withActor (E : Env) (opts : CreateAccountOpts) (s : Db) : Db :=
  { s with actor :=
      s.actor.insert opts.did (newActor (E.now .registerActor) opts.handle opts.deactivated) }

/-- The call once the actor is registered. -/
theorem exec_createAccount_of_registersActor {E : Env} {opts : CreateAccountOpts} {s : Db}
    {p : Prepared} (h : RegistersActor E opts s) (hp : prepare E opts = .ok p) :
    (createAccount E opts).exec s = (do
      completeAccount E opts p
      return (p.accessJwt, p.refreshJwt) : Call _).exec (withActor E opts s) := by
  have hinvite := (does_ensureInvite E opts.inviteCode s s).2 ⟨h.invite, rfl⟩
  have hactor := (does_registerActor (E.fault .registerActor) (E.now .registerActor) opts.did
    opts.handle opts.deactivated s (withActor E opts s)).2 ⟨⟨h.works, h.newDid, h.newHandle⟩, rfl⟩
  rw [createAccount, hp, exec_bind, exec_ofExcept]
  dsimp only
  rw [exec_bind, hinvite]
  dsimp only
  rw [exec_bind, hactor]

/-- Without it the call fails where it stands. -/
theorem createAccount_of_not_registersActor {E : Env} {opts : CreateAccountOpts} {s t : Db}
    {e : AccountError} (h : ¬ RegistersActor E opts s)
    (he : (createAccount E opts).exec s = (.error e, t)) : t = s := by
  rw [createAccount, exec_bind, exec_ofExcept] at he
  cases hp : prepare E opts with
  | error e' => rw [hp] at he; cases he; rfl
  | ok p =>
    rw [hp] at he
    dsimp only at he
    rcases exec_bind_error.1 he with hinvite | ⟨_, u, hinvite, hrest⟩
    · exact (reads_ensureInvite E opts.inviteCode).eq hinvite
    obtain ⟨hi, rfl⟩ := (does_ensureInvite E opts.inviteCode _ _).1 hinvite
    rcases exec_bind_error.1 hrest with hactor | ⟨_, v, hactor, -⟩
    · exact clean_execute _ _ _ _ _ _ hactor
    · obtain ⟨⟨hf, hd, hh⟩, -⟩ := (does_registerActor _ _ _ _ _ _ _).1 hactor
      exact absurd ⟨⟨p, hp⟩, hi, hf, hd, hh⟩ h

theorem completes_withActor {E : Env} {opts : CreateAccountOpts} {p : Prepared} {s : Db} :
    Completes E opts p (withActor E opts s) ↔ Completes E opts p s :=
  ⟨fun h => ⟨h.account, h.use, h.token, h.root⟩, fun h => ⟨h.account, h.use, h.token, h.root⟩⟩

/-- Where the call succeeds. -/
theorem createAccount_ok_iff (E : Env) (opts : CreateAccountOpts) (s : Db) :
    (∃ tokens t, (createAccount E opts).exec s = (.ok tokens, t)) ↔
      RegistersActor E opts s ∧ ∀ p, prepare E opts = .ok p → Completes E opts p s := by
  constructor
  · rintro ⟨tokens, t, h⟩
    obtain ⟨p, u, hp, hfrom⟩ := exec_bind_ok.1 h
    rw [exec_ofExcept, Prod.mk.injEq] at hp
    obtain ⟨hp, rfl⟩ := hp
    obtain ⟨_, u, hinvite, hafter⟩ := exec_bind_ok.1 hfrom
    obtain ⟨hi, rfl⟩ := (does_ensureInvite E opts.inviteCode _ _).1 hinvite
    obtain ⟨_, v, hactor, hrest⟩ := exec_bind_ok.1 hafter
    obtain ⟨⟨hf, hd, hh⟩, rfl⟩ := (does_registerActor _ _ _ _ _ _ _).1 hactor
    obtain ⟨_, w, hcomplete, -⟩ := exec_bind_ok.1 hrest
    refine ⟨⟨⟨p, hp⟩, hi, hf, hd, hh⟩, fun p' hp' => ?_⟩
    obtain rfl : p = p' := Except.ok.inj (hp.symm.trans hp')
    exact completes_withActor.1 ((completeAccount_ok E opts p _).1 ⟨w, hcomplete⟩)
  · rintro ⟨hreg, hall⟩
    obtain ⟨p, hp⟩ := hreg.prepared
    obtain ⟨t, ht⟩ := (completeAccount_ok E opts p _).2 (completes_withActor.2 (hall p hp))
    refine ⟨(p.accessJwt, p.refreshJwt), t, ?_⟩
    rw [exec_createAccount_of_registersActor hreg hp, exec_bind, ht]
    rfl

/-- What a call that registers the actor leaves of the actors, whatever comes after it. -/
theorem actor_of_registersActor {E : Env} {opts : CreateAccountOpts} {s : Db}
    (h : RegistersActor E opts s) :
    ((createAccount E opts).exec s).2.actor = (withActor E opts s).actor := by
  obtain ⟨p, hp⟩ := h.prepared
  rw [exec_createAccount_of_registersActor h hp]
  exact (sameActors_completeAccount E opts p).bind sameActors_trans
    (fun _ => keeps_pure sameActors_refl _) (withActor E opts s)

theorem actor_of_createAccount {E : Env} {opts : CreateAccountOpts} {s t : Db}
    {tokens : String × String} (h : (createAccount E opts).exec s = (.ok tokens, t)) :
    t.actor = (withActor E opts s).actor := by
  have hreg := ((createAccount_ok_iff E opts s).1 ⟨tokens, t, h⟩).1
  rw [← actor_of_registersActor hreg, h]

/-! ## The roots -/

def SameRoots (s t : Db) : Prop := t.repoRoot = s.repoRoot

theorem sameRoots_refl (s : Db) : SameRoots s s := rfl

theorem sameRoots_execute (fault : Option String) (refuse : Db → Option AccountError)
    {f : Db → Db} (h : ∀ s, SameRoots s (f s)) : Keeps (execute fault refuse f) SameRoots :=
  keeps_execute sameRoots_refl _ _ h

theorem sameRoots_registerActor (fault : Option String) (now did handle : String)
    (deactivated : Option Bool) :
    Keeps (registerActor fault now did handle deactivated) SameRoots :=
  sameRoots_execute _ _ fun _ => rfl

theorem sameRoots_registerAccountIfGiven (E : Env) (did : String)
    (email passwordEncrypted : Option String) :
    Keeps (registerAccountIfGiven E did email passwordEncrypted) SameRoots := by
  unfold registerAccountIfGiven
  split
  · exact sameRoots_execute _ _ fun _ => rfl
  · exact keeps_pure sameRoots_refl _

theorem sameRoots_recordInviteUse (fault : Option String) (now did : String)
    (inviteCode : Option String) : Keeps (recordInviteUse fault now did inviteCode) SameRoots := by
  unfold recordInviteUse
  split
  · exact keeps_pure sameRoots_refl _
  · exact sameRoots_execute _ _ fun _ => rfl

theorem sameRoots_storeRefreshToken (fault : Option String) (formatMillis : Nat → Option String)
    (payload : RefreshToken) (appPasswordName : Option String) :
    Keeps (storeRefreshToken fault formatMillis payload appPasswordName) SameRoots := by
  unfold storeRefreshToken
  split
  · exact keeps_throw sameRoots_refl _
  · exact sameRoots_execute _ _ fun _ => rfl

theorem sets_updateRoot (fault : Option String) (now did : String) (cid : Cid) (rev : String) :
    Sets Db.repoRoot (fun roots => roots.insert did ⟨cid, rev, now⟩)
      (updateRoot fault now did cid rev) :=
  sets_statement _ fun _ => rfl

/-- Only the last statement is about the roots. -/
theorem sets_createAccount (E : Env) (opts : CreateAccountOpts) :
    Sets Db.repoRoot
      (fun roots => roots.insert opts.did ⟨opts.repoCid, opts.repoRev, E.now .updateRoot⟩)
      (createAccount E opts) := by
  refine ((reads_ofExcept _).keeps sameRoots_refl).sets.bind fun p => ?_
  refine ((reads_ensureInvite E opts.inviteCode).keeps sameRoots_refl).sets.bind fun _ => ?_
  refine (sameRoots_registerActor _ _ _ _ _).sets.bind fun _ => Sets.bind_pure ?_ _
  exact (sameRoots_registerAccountIfGiven E _ _ _).sets.bind fun _ =>
    (sameRoots_recordInviteUse _ _ _ _).sets.bind fun _ =>
    (sameRoots_storeRefreshToken _ _ _ _).sets.bind fun _ => sets_updateRoot _ _ _ _ _

/-- A call that succeeds stores the root. -/
theorem root_of_createAccount {E : Env} {opts : CreateAccountOpts} {s t : Db}
    {tokens : String × String} (h : (createAccount E opts).exec s = (.ok tokens, t)) :
    t.repoRoot.lookup opts.did = some ⟨opts.repoCid, opts.repoRev, E.now .updateRoot⟩ := by
  rw [(sets_createAccount E opts).ok h, Table.lookup_insert_eq, if_pos rfl]

/-! ## The account's row -/

/-- The call inserts a row for the account, with its address as it comes. -/
structure InsertsAccount (E : Env) (opts : CreateAccountOpts) (email : String) (s : Db) : Prop where
  registers : RegistersActor E opts s
  given : opts.email = some email
  password : ∀ p, prepare E opts = .ok p → p.passwordEncrypted ≠ none
  works : E.fault .registerAccount = none
  newDid : opts.did ∉ s.account
  newEmail : emailTaken email s = false

/-- What comes after it is about other tables. -/
theorem account_completeAccount (E : Env) (opts : CreateAccountOpts) (p : Prepared) (s : Db) :
    ((completeAccount E opts p).exec s).2.account =
      ((registerAccountIfGiven E opts.did opts.email p.passwordEncrypted).exec s).2.account := by
  rw [completeAccount, exec_bind]
  rcases (registerAccountIfGiven E opts.did opts.email p.passwordEncrypted).exec s with ⟨_ | _, t⟩
  · rfl
  · exact (sameRows_afterAccount E opts p t).account

theorem account_of_registersActor {E : Env} {opts : CreateAccountOpts} {s : Db} {p : Prepared}
    (h : RegistersActor E opts s) (hp : prepare E opts = .ok p) :
    ((createAccount E opts).exec s).2.account =
      ((registerAccountIfGiven E opts.did opts.email p.passwordEncrypted).exec
        (withActor E opts s)).2.account := by
  rw [exec_createAccount_of_registersActor h hp, exec_bind, ← account_completeAccount]
  rcases (completeAccount E opts p).exec (withActor E opts s) with ⟨_ | _, t⟩
  · rfl
  · rfl

/-- The accounts after a call that inserts one. -/
theorem account_of_insertsAccount {E : Env} {opts : CreateAccountOpts} {s : Db} {email : String}
    (h : InsertsAccount E opts email s) : ∃ password, ((createAccount E opts).exec s).2.account =
      s.account.insert opts.did ⟨email, none, password, E.now .registerAccount⟩ := by
  obtain ⟨p, hp⟩ := h.registers.prepared
  obtain ⟨password, hpassword⟩ := Option.ne_none_iff_exists'.1 (h.password p hp)
  have hregister := (does_registerAccount (E.fault .registerAccount) (E.now .registerAccount) opts.did
    email password none (withActor E opts s) _).2 ⟨⟨h.works, h.newDid, h.newEmail⟩, rfl⟩
  refine ⟨password, ?_⟩
  rw [account_of_registersActor h.registers hp, h.given, hpassword, registerAccountIfGiven, hregister]
  rfl

/-- Any other call leaves the accounts as they are. -/
theorem account_of_not_insertsAccount {E : Env} {opts : CreateAccountOpts} {s : Db}
    (h : ∀ email, ¬ InsertsAccount E opts email s) :
    ((createAccount E opts).exec s).2.account = s.account := by
  by_cases hreg : RegistersActor E opts s
  swap
  · cases hexec : (createAccount E opts).exec s with
    | mk r t =>
      cases r with
      | ok tokens => exact absurd ((createAccount_ok_iff E opts s).1 ⟨tokens, t, hexec⟩).1 hreg
      | error e => rw [createAccount_of_not_registersActor hreg hexec]
  obtain ⟨p, hp⟩ := hreg.prepared
  rw [account_of_registersActor hreg hp]
  cases hemail : opts.email with
  | none => rfl
  | some email =>
    cases hpassword : p.passwordEncrypted with
    | none => rfl
    | some password =>
      rw [registerAccountIfGiven]
      cases hexec : (registerAccount (E.fault .registerAccount) (E.now .registerAccount) opts.did email
          password none).exec (withActor E opts s) with
      | mk r t =>
        cases r with
        | error e => rw [clean_execute _ _ _ _ _ _ hexec]; rfl
        | ok _ =>
          obtain ⟨⟨hf, hd, he⟩, -⟩ := (does_registerAccount _ _ _ _ _ _ _ _).1 hexec
          refine absurd ⟨hreg, hemail, fun p' hp' => ?_, hf, hd, he⟩ (h email)
          obtain rfl := Except.ok.inj (hp.symm.trans hp')
          rw [hpassword]
          nofun

theorem keepsActors_createAccount (E : Env) (opts : CreateAccountOpts) :
    Keeps (createAccount E opts) KeepsActors := by
  intro s did hd
  by_cases hreg : RegistersActor E opts s
  · rw [actor_of_registersActor hreg]
    exact Finmap.mem_insert.2 (.inr hd)
  · cases hexec : (createAccount E opts).exec s with
    | mk r t =>
      cases r with
      | ok tokens => exact absurd ((createAccount_ok_iff E opts s).1 ⟨tokens, t, hexec⟩).1 hreg
      | error e => rwa [createAccount_of_not_registersActor hreg hexec]

/-- A failed call leaves the database as it was exactly when registering the actor means that
everything after it goes through too. -/
theorem createAccount_unchanged_iff (E : Env) (opts : CreateAccountOpts) (s : Db) :
    (∀ e t, (createAccount E opts).exec s = (.error e, t) → t = s) ↔
      (RegistersActor E opts s → ∀ p, prepare E opts = .ok p → Completes E opts p s) := by
  constructor
  · intro h hreg p hp
    rw [← completes_withActor, ← completeAccount_ok]
    cases hc : (completeAccount E opts p).exec (withActor E opts s) with
    | mk r t =>
      cases r with
      | ok _ => exact ⟨t, rfl⟩
      | error e =>
        -- the actor's row is there, and it was not before
        have hsame : t = s := h e t <| by
          rw [exec_createAccount_of_registersActor hreg hp, exec_bind, hc]
        have hthere := keepsActors_completeAccount E opts p (withActor E opts s) opts.did
          (Finmap.mem_insert.2 (.inl rfl))
        rw [hc, hsame] at hthere
        exact absurd hthere hreg.newDid
  · intro h e t he
    by_cases hreg : RegistersActor E opts s
    · obtain ⟨p, hp⟩ := hreg.prepared
      obtain ⟨u, hu⟩ := (completeAccount_ok E opts p _).2 (completes_withActor.2 (h hreg p hp))
      rw [exec_createAccount_of_registersActor hreg hp, exec_bind, hu] at he
      cases he
    · exact createAccount_of_not_registersActor hreg he

/-- Everything the call is given works. -/
def workingEnv : Env where
  fault _ := none
  now _ := "2026-08-01T00:00:00.000Z"
  genSaltAndHash password := .ok ("$argon2id$" ++ password)
  createTokens did _ := .ok ("access " ++ did, "refresh " ++ did)
  decodeRefreshToken _ := .ok ⟨"did:plc:bob", 1793318400000, "jti"⟩
  formatMillis _ := some "2026-10-30T00:00:00.000Z"

/-- Bob signs up with an address that Alice's account has already. -/
def bobsOpts : CreateAccountOpts where
  did := "did:plc:bob"
  handle := "bob.test"
  email := some "a@x.test"
  password := some "secret"
  repoCid := ⟨"bafyroot"⟩
  repoRev := "3l"
  inviteCode := none
  deactivated := none
  serviceDid := "did:web:x.test"

def aliceOnly : Db :=
  { Db.empty with
    actor := Db.empty.actor.insert "did:plc:alice"
      ⟨some "alice.test", "2026-07-01T00:00:00.000Z", some "mod-1", none, none⟩
    account := Db.empty.account.insert "did:plc:alice"
      ⟨"A@x.test", none, "$argon2id$", "2026-07-01T00:00:00.000Z"⟩ }

/-- Bob gets an error, and his actor row stays: the DID and the handle are used up. -/
theorem createAccount_leaves_actor :
    ¬ ∀ E opts s e t, (createAccount E opts).exec s = (.error e, t) → t = s := by
  intro h
  have hfails : (createAccount workingEnv bobsOpts).exec aliceOnly =
      (.error (.unique "account_email_lower_idx"), withActor workingEnv bobsOpts aliceOnly) := rfl
  have hsame := h _ _ _ _ _ hfails
  have hrow := congrArg (fun s => (s.actor.lookup "did:plc:bob").isSome) hsame
  exact absurd hrow (by decide)

end CacosPds.Account
