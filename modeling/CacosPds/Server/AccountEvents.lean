import CacosPds.Lib.Run
import CacosPds.Server.Activation
import CacosPds.Server.Rollback
/-!
# What the log says of an account (`xrpc/com/atproto/server/{create,activate,deactivate,delete}_account.rs`)

| here | there |
| --- | --- |
| `accountEvts`   | the `#account` rows of `repo_seq` of one DID, in the order of `seq`; a cursor leaves a suffix of the log |
| `DeleteEnv.checks` | the checks of `inner_delete_account` (`delete_account.rs:21-45`), which the admin header of `RequireAccountAdmin` gets a request to; the token's by its answer |
| `Request`       | one call of a handler, with what fails in it |
| `Reports`       | the last event that is seen says what `get_account_status` does |

The account's row and the log are two databases, and each handler writes them one after the other.
A deactivation writes no event; a deletion appends one and deletes it with all the others. So the log
is right along a run exactly if every request of the run is `Announced` (`reports_iff`).
-/
namespace CacosPds.Server

open Stages Sql Runs

/-! ## The log -/

/-- An `#account` event's flag and status. -/
abbrev LexStatus := Bool × Option String

def SeqEvent.accountOf (did : String) : SeqEvent → Option LexStatus
  | .account d active status => if d = did then some (active, status) else none
  | _ => none

def accountEvts (did : String) (log : List SeqEvent) : List LexStatus :=
  log.filterMap (SeqEvent.accountOf did)

def lastAccountEvt (did : String) (log : List SeqEvent) : Option LexStatus :=
  (accountEvts did log).getLast?

@[simp] theorem accountEvts_append (did : String) (log log' : List SeqEvent) :
    accountEvts did (log ++ log') = accountEvts did log ++ accountEvts did log' :=
  List.filterMap_append

@[simp] theorem accountEvts_singleton (did : String) (e : SeqEvent) :
    accountEvts did [e] = (e.accountOf did).toList := by
  cases h : e.accountOf did <;> simp [accountEvts, h]

/-- From an older cursor one sees the log's last event, if any. -/
theorem lastAccountEvt_drop {did : String} {log : List SeqEvent} {n : Nat} {e : LexStatus}
    (h : lastAccountEvt did (log.drop n) = some e) : lastAccountEvt did log = some e := by
  have hsplit : accountEvts did log = accountEvts did (log.take n) ++ accountEvts did (log.drop n) := by
    rw [← accountEvts_append, List.take_append_drop]
  rw [lastAccountEvt] at h
  rw [lastAccountEvt, hsplit, List.getLast?_append, h]
  rfl

theorem accountEvts_filter (did : String) (log : List SeqEvent) :
    accountEvts did (log.filter fun e => e.did ≠ did) = [] := by
  rw [accountEvts, List.filterMap_eq_nil_iff]
  intro e he
  have hne := (List.mem_filter.1 he).2
  cases e with
  | account d active status => exact if_neg (of_decide_eq_true hne)
  | _ => rfl

/-- Other events of the DID go with it, those of other DIDs stay. -/
theorem accountEvts_filter_of_ne {did d : String} (h : d ≠ did) (log : List SeqEvent) :
    accountEvts d (log.filter fun e => e.did ≠ did) = accountEvts d log := by
  rw [accountEvts, accountEvts, List.filterMap_filter]
  refine List.filterMap_congr fun e _ => ?_
  cases e with
  | account d' active status =>
    by_cases hd : d' = did
    · subst hd
      simp [SeqEvent.did, SeqEvent.accountOf, Ne.symm h]
    · simp [SeqEvent.did, hd]
  | _ => simp [SeqEvent.accountOf]

/-! ## The requests -/

structure DeleteEnv where
  faults : Faults
  getAccount : Option String
  /-- `verify_account_password` on the stored hash. -/
  verify : String → Except String Bool
  /-- `assert_valid_email_token`. -/
  emailToken : Except String Unit

/-- Without a row there is no password to verify. -/
def DeleteEnv.verifyAccountPassword (D : DeleteEnv) (did : String) (s : State) : Except ApiError Bool :=
  match s.account.account.lookup did with
  | none => .ok false
  | some r => (D.verify r.password).mapError fun _ => .runtimeError

def DeleteEnv.checks (D : DeleteEnv) (did : String) (s : State) : Except ApiError Unit :=
  match D.getAccount, Account.findAccount did Account.everyAccount s.account with
  | some _, _ | none, none => .error .runtimeError
  | none, some _ => do
    if ← D.verifyAccountPassword did s then D.emailToken.mapError fun _ => .runtimeError
    else .error .invalidLogin

def innerDeleteAccount (D : DeleteEnv) (did : String) : Call ApiError Unit := do
  let s ← get
  deleteAccount D.faults did (D.checks did s)

inductive Request where
  | createAccount (E : Env) (requester : Option String) (checked : Except ApiError CheckedInput)
  | activateAccount (E : Env) (cfg : ServiceConfig) (A : ActivateEnv) (did : Option String)
  | deactivateAccount (A : ActivateEnv) (now : String) (did deleteAfter : Option String)
  | deleteAccount (D : DeleteEnv) (did : String)

/-- The server, and what the last request has answered for: the DID it has deactivated or deleted. -/
structure Lifecycle where
  server : State
  done : Option (String × Account.AccountStatus)

def afterwards {α : Type} (r : Except ApiError α × State)
    (done : Option (String × Account.AccountStatus)) : Lifecycle :=
  ⟨r.2, if r.1.isOk then done else none⟩

@[simp] theorem afterwards_ok {α : Type} (a : α) (t : State)
    (done : Option (String × Account.AccountStatus)) : afterwards (.ok a, t) done = ⟨t, done⟩ := rfl

@[simp] theorem afterwards_error {α : Type} (e : ApiError) (t : State)
    (done : Option (String × Account.AccountStatus)) :
    afterwards ((.error e : Except ApiError α), t) done = ⟨t, none⟩ := rfl

def Lifecycle.handle (w : Lifecycle) : Request → Lifecycle
  | .createAccount E requester checked =>
    afterwards ((innerCreateAccount E requester checked).exec w.server) none
  | .activateAccount E cfg A did => afterwards ((innerActivateAccount E cfg A did).exec w.server) none
  | .deactivateAccount A now did deleteAfter =>
    afterwards ((innerDeactivateAccount A now did deleteAfter).exec w.server)
      (did.map (·, .deactivated))
  | .deleteAccount D did =>
    afterwards ((innerDeleteAccount D did).exec w.server) (some (did, .deleted))

def Lifecycle.step (w : Lifecycle) (r : Request) : Option Lifecycle := some (w.handle r)

/-- Whoever reads the log from any cursor sees, of each DID, what `get_account_status` reports; and a
DID that has just been deactivated or deleted, it sees so. -/
structure Reports (w : Lifecycle) : Prop where
  status : ∀ did n e, Account.isDid did = true →
    lastAccountEvt did (w.server.sequenced.drop n) = some e →
    e = (Account.statusOf did w.server.account).lex
  done : ∀ did status, Account.isDid did = true → w.done = some (did, status) →
    lastAccountEvt did w.server.sequenced = some status.lex

/-! ## When a request keeps the log right -/

/-- A sign-up gets as far as the account manager. -/
structure ReachesAccounts (E : Env) (did : String) (plcRotationKey : Option Keypair)
    (plcOp : Option Operation) (s : State) : Prop where
  createsDir : CreatesDir E.faults did s
  storesKey : plcRotationKey ≠ none →
    ∀ a ∈ [Access.createRotationDir, .writeRotationKey], E.faults.access a = none
  transacts : E.faults.access .transact = none
  createsRepo : E.faults.access .createRepo = none
  sends : plcOp ≠ none → E.faults.access .sendOperation = none

/-- … and registers the actor there. -/
structure RegistersRow (E : Env) (v : ValidatedCreateAccount E) (s : State) : Prop where
  reaches : ReachesAccounts E v.did v.plcRotationKey v.plcOp s
  registers : Account.RegistersActor E.account (v.opts E.commit) s.account

/-- A new account is announced: it is not an imported one, and nothing fails before the event. -/
structure AnnouncesNew (E : Env) (v : ValidatedCreateAccount E) (s : State) : Prop where
  created : AccountCreated E (v.opts E.commit) s
  active : v.deactivated = false
  syncData : E.faults.access .syncData = none
  accountEvt : E.faults.access .accountEvt = none

/-- The row of an account that is there, and not taken down, is activated. -/
structure UpdatesRow (E : Env) (cfg : ServiceConfig) (A : ActivateEnv) (did : String) (s : State) :
    Prop where
  document : assertValidDidDocumentsForService E cfg (A.access .getDocument) did s = .ok ()
  getAccount : A.access .getAccount = none
  found : (Account.findAccount did (some ⟨none, some true⟩) s.account).isSome
  activate : A.access .activate = none

/-- `destroy` goes through. -/
structure Destroys (F : Faults) (did : String) (s : State) : Prop where
  wipes : ∀ n < 3, F.backend (.deleteAll n) = none
  safe : safePathPart did = true
  existsDir : F.access .existsDir = none
  removes : did ∈ s.dirs → F.removeDirAll = none

/-- The rows of an account are deleted. -/
structure DeletesRows (D : DeleteEnv) (did : String) (s : State) : Prop where
  checks : D.checks did s = .ok ()
  destroys : Destroys D.faults did s
  deletes : D.faults.access .deleteAccount = none

/-- What a request changes in the accounts shows in the log: an account that is registered or
activated gets its event, or the log has nothing else to say of it; no deactivation succeeds, unless
the log says so already; a deletion that succeeds fails to purge the log. -/
def Announced (w : Lifecycle) : Request → Prop
  | .createAccount E requester checked => ∀ v, (checked >>= validateDid E requester) = .ok v →
      Account.isDid v.did = true → RegistersRow E v w.server →
      AnnouncesNew E v w.server ∨ lastAccountEvt v.did w.server.sequenced = none
  | .activateAccount E cfg A did => ∀ d, did = some d → Account.isDid d = true →
      UpdatesRow E cfg A d w.server →
      ReadsRepo A d w.server ∧ A.access .accountEvt = none ∨
        ∀ e, lastAccountEvt d w.server.sequenced = some e → e = Account.AccountStatus.active.lex
  | .deactivateAccount A _ did _ => ∀ d, did = some d → Account.isDid d = true →
      A.access .deactivate = none →
      lastAccountEvt d w.server.sequenced = some Account.AccountStatus.deactivated.lex
  | .deleteAccount D did => Account.isDid did = true → DeletesRows D did w.server →
      if D.faults.access .accountEvt = none then D.faults.access .deleteEvents ≠ none
      else lastAccountEvt did w.server.sequenced = none

/-! ## What a request leaves of both -/

/-- Actors and log are the same. -/
structure SameBooks (s t : State) : Prop where
  actor : t.account.actor = s.account.actor
  sequenced : t.sequenced = s.sequenced

theorem sameBooks_refl (s : State) : SameBooks s s := ⟨rfl, rfl⟩

/-- All of the account database and the log are the same. -/
structure SameAccounts (s t : State) : Prop where
  account : t.account = s.account
  sequenced : t.sequenced = s.sequenced

theorem sameAccounts_refl (s : State) : SameAccounts s s := ⟨rfl, rfl⟩

theorem sameAccounts_trans (s t u : State) (h : SameAccounts s t) (k : SameAccounts t u) :
    SameAccounts s u := ⟨k.account.trans h.account, k.sequenced.trans h.sequenced⟩

theorem SameAccounts.sameBooks {s t : State} (h : SameAccounts s t) : SameBooks s t :=
  ⟨congrArg Account.Db.actor h.account, h.sequenced⟩

theorem OnlyFiles.sameAccounts (s t : State) (h : OnlyFiles s t) : SameAccounts s t := by
  obtain ⟨_, _, rfl⟩ := h
  exact ⟨rfl, rfl⟩

theorem sameAccounts_destroy (F : Faults) (did : String) : Keeps (destroy F did) SameAccounts := by
  intro s
  obtain ⟨dirs, hafter⟩ := exec_destroy F did s
  rw [hafter]
  exact ⟨rfl, rfl⟩

/-- The DID's row is `row`, and the log has `evts` more of it; nothing else differs. -/
structure Books (did : String) (row : Option Account.ActorRow) (evts : List LexStatus)
    (s t : State) : Prop where
  row : t.account.actor.lookup did = row
  rows : ∀ d, d ≠ did → t.account.actor.lookup d = s.account.actor.lookup d
  evts : accountEvts did t.sequenced = evts
  others : ∀ d, d ≠ did → accountEvts d t.sequenced = accountEvts d s.sequenced

section

variable {s t u : State} {did : String} {row : Option Account.ActorRow} {evts : List LexStatus}

theorem SameBooks.books (h : SameBooks s t) (did : String) :
    Books did (s.account.actor.lookup did) (accountEvts did s.sequenced) s t :=
  ⟨by rw [h.actor], fun _ _ => by rw [h.actor], by rw [h.sequenced], fun _ _ => by rw [h.sequenced]⟩

theorem Books.trans {row' : Option Account.ActorRow} {evts' : List LexStatus}
    (h : Books did row evts s t) (k : Books did row' evts' t u) : Books did row' evts' s u :=
  ⟨k.row, fun d hd => (k.rows d hd).trans (h.rows d hd), k.evts,
    fun d hd => (k.others d hd).trans (h.others d hd)⟩

/-- Nothing of the log that is wrong comes from the other DIDs. -/
theorem reports_iff_of_books {w : Lifecycle} (w' : Lifecycle) (hw : Reports w)
    (h : Books did row evts w.server w'.server) :
    Reports w' ↔
      (Account.isDid did = true → ∀ e, evts.getLast? = some e → e = (Account.rowStatus row).lex) ∧
        ∀ d status, Account.isDid d = true → w'.done = some (d, status) →
          lastAccountEvt d w'.server.sequenced = some status.lex := by
  constructor
  · intro hr
    refine ⟨fun hdid e he => ?_, hr.done⟩
    have hlast := hr.status did 0 e hdid (by rwa [List.drop_zero, lastAccountEvt, h.evts])
    rwa [Account.statusOf_did hdid, h.row] at hlast
  · rintro ⟨hlast, hdone⟩
    refine ⟨fun d n e hd he => ?_, hdone⟩
    have he' := lastAccountEvt_drop he
    rw [Account.statusOf_did hd]
    by_cases heq : d = did
    · subst heq
      rw [lastAccountEvt, h.evts] at he'
      rw [h.row]
      exact hlast hd e he'
    · rw [lastAccountEvt, h.others d heq] at he'
      rw [h.rows d heq, ← Account.statusOf_did hd]
      exact hw.status d 0 e hd he'

/-- With no new status told, only the row and the log have to agree. -/
theorem reports_untold_iff_of_books {w : Lifecycle} (t : State) (hw : Reports w)
    (h : Books did row evts w.server t) :
    Reports ⟨t, none⟩ ↔ (Account.isDid did = true →
      ∀ e, evts.getLast? = some e → e = (Account.rowStatus row).lex) := by
  rw [reports_iff_of_books ⟨t, none⟩ hw h]
  refine and_iff_left fun d status _ htold => ?_
  cases htold

end

/-! ## Sign-ups -/

section

variable {ε : Type} (E : Env) (φ : Flow ε) (did : String)

theorem sameAccounts_submitOperation (plcOp : Option Operation) :
    Keeps (submitOperation E φ did plcOp) SameAccounts := by
  cases plcOp with
  | none => exact keeps_pure sameAccounts_refl _
  | some op =>
    have hsend : Keeps (sendOperation E did op) SameAccounts :=
      (keeps_attempt sameAccounts_refl _).bind sameAccounts_trans fun _ => keeps_modify fun _ => ⟨rfl, rfl⟩
    exact hsend.rescue sameAccounts_trans fun _ => Keeps.bind sameAccounts_trans
      (fun s => by
        rw [φ.state_rollback]
        exact sameAccounts_destroy E.faults did s)
      fun _ => keeps_throw sameAccounts_refl _

/-- Up to the account manager a sign-up leaves accounts and log alone, and it gets there as
`ReachesAccounts` says. -/
theorem exec_signUp {α : Type} (plcRotationKey : Option Keypair) (plcOp : Option Operation)
    (next : Commit → Call ε α) (s : State) :
    (ReachesAccounts E did plcRotationKey plcOp s ∧ ∃ u, SameAccounts s u ∧ (do
        let commit ← openRepo E φ did plcRotationKey
        submitOperation E φ did plcOp
        next commit).exec s = (next E.commit).exec u) ∨
    (¬ ReachesAccounts E did plcRotationKey plcOp s ∧ ∃ e u, SameAccounts s u ∧ (do
        let commit ← openRepo E φ did plcRotationKey
        submitOperation E φ did plcOp
        next commit).exec s = (.error e, u)) := by
  have hopens := (onlyFiles_openRepo E φ did plcRotationKey).mono OnlyFiles.sameAccounts s
  rw [exec_bind]
  by_cases hdir : CreatesDir E.faults did s
  swap
  · obtain ⟨e, u, hopen, -⟩ := openRepo_of_not_createsDir E φ did hdir plcRotationKey
    rw [hopen] at hopens ⊢
    exact .inr ⟨fun h => hdir h.createsDir, e, u, hopens, rfl⟩
  obtain ⟨v, -, hrest⟩ := openRepo_of_createsDir E φ did hdir plcRotationKey
  have hstage := (stage_persistRotationKey E φ did hdir.safe plcRotationKey).bind fun _ _ =>
    (stage_transact E φ did).bind fun _ _ => stage_createRepo E φ did
  by_cases hok : (plcRotationKey ≠ none →
      ∀ a ∈ [Access.createRotationDir, .writeRotationKey], E.faults.access a = none) ∧
      E.faults.access .transact = none ∧ E.faults.access .createRepo = none
  swap
  · obtain ⟨e, u, hopen, -⟩ := hstage.fails hok v
    rw [hrest, hopen] at hopens ⊢
    exact .inr ⟨fun h => hok ⟨h.storesKey, h.transacts, h.createsRepo⟩, e, u, hopens, rfl⟩
  obtain ⟨_, u, hopen, rfl, -⟩ := hstage.goes hok v
  rw [hrest, hopen] at hopens ⊢
  dsimp only
  have hsubmits := sameAccounts_trans _ _ _ hopens (sameAccounts_submitOperation E φ did plcOp u)
  rw [exec_bind]
  by_cases hsend : plcOp ≠ none → E.faults.access .sendOperation = none
  · obtain ⟨_, w, hsubmit, -⟩ := (stage_submitOperation E φ did plcOp).goes hsend u
    rw [hsubmit] at hsubmits ⊢
    exact .inl ⟨⟨hdir, hok.1, hok.2.1, hok.2.2, hsend⟩, w, hsubmits, rfl⟩
  · obtain ⟨e, w, hsubmit, -⟩ := (stage_submitOperation E φ did plcOp).fails hsend u
    rw [hsubmit] at hsubmits ⊢
    exact .inr ⟨fun h => hsend h.sends, e, w, hsubmits, rfl⟩

theorem exec_sequenceEvt (a : Access) (e : SeqEvent) (s : State) :
    (sequenceEvt E a e : Call ε Unit).exec s =
      (.ok (), if E.faults.access a = none then { s with sequenced := s.sequenced ++ [e] } else s) := by
  rw [sequenceEvt, exec_ignore, exec_bind, exec_attempt]
  cases E.faults.access a <;> rfl

/-- No `#account` event of the DID is written. -/
def SameEvts (d : String) (s t : State) : Prop :=
  accountEvts d t.sequenced = accountEvts d s.sequenced

theorem sameEvts_refl (d : String) (s : State) : SameEvts d s s := rfl

theorem sameEvts_trans (d : String) (s t u : State) (h : SameEvts d s t) (k : SameEvts d t u) :
    SameEvts d s u := Eq.trans k h

theorem sameEvts_sequenceEvt {d : String} (a : Access) {e : SeqEvent} (he : e.accountOf d = none) :
    Keeps (sequenceEvt E a e : Call ε Unit) (SameEvts d) := by
  intro s
  rw [exec_sequenceEvt]
  dsimp only
  split
  · simp [SameEvts, accountEvts, he]
  · rfl

theorem sameEvts_updateRepoRoot (d : String) (commit : Commit) :
    Keeps (updateRepoRoot E φ did commit) (SameEvts d) := by
  unfold updateRepoRoot onAccount
  refine Keeps.mapError (keeps_zoom _ fun s _ => ?_) _
  exact sameEvts_refl d s

theorem accountOf_account (d : String) (active : Bool) (status : Option String) :
    (SeqEvent.account did active status).accountOf d = if d = did then some (active, status) else none := by
  simp only [SeqEvent.accountOf, eq_comm]

/-- The only `#account` event of the four is the new account's. -/
theorem accountEvts_announce (handle : String) (commit : Commit) (s : State) (d : String) :
    accountEvts d ((announce E φ did handle commit).exec s).2.sequenced =
      accountEvts d s.sequenced ++
        if d = did ∧ E.faults.access .syncData = none ∧ E.faults.access .accountEvt = none then
          [(true, none)] else [] := by
  have htail : Keeps (do
      sequenceEvt E .commitEvt (.commit did commit)
      sequenceEvt E .syncEvt (.sync did commit) : Call ε Unit) (SameEvts d) :=
    (sameEvts_sequenceEvt E .commitEvt rfl).bind (sameEvts_trans d) fun _ =>
      sameEvts_sequenceEvt E .syncEvt rfl
  have hhead := sameEvts_sequenceEvt (ε := ε) E .identityEvt
    (rfl : (SeqEvent.identity did handle).accountOf d = none) s
  rw [announce, exec_bind, exec_attempt]
  cases hsync : E.faults.access .syncData with
  | some e => simp
  | none =>
    dsimp only [Option.map_none, Option.elim_none]
    rw [exec_bind]
    rw [exec_sequenceEvt] at hhead ⊢
    dsimp only at hhead ⊢
    rw [exec_bind, exec_sequenceEvt E .accountEvt]
    dsimp only
    rw [htail _, ← show _ = accountEvts d s.sequenced from hhead]
    by_cases hevt : E.faults.access .accountEvt = none
    · rw [if_pos hevt, accountEvts_append, accountEvts_singleton, accountOf_account]
      by_cases hd : d = did <;> simp [hd, hevt]
    · simp [hevt]

/-- The account manager registers the actor, or leaves its database as it was. -/
theorem exec_registerAccount {α : Type} (opts : Account.CreateAccountOpts)
    (next : String × String → Call ε α) (s : State) :
    (Account.RegistersActor E.account opts s.account ∧ ∃ u,
        u.account.actor = (Account.withActor E.account opts s.account).actor ∧
        u.sequenced = s.sequenced ∧
        ((AccountCreated E opts s ∧ ∃ tokens, (registerAccount E φ opts >>= next).exec s =
            (next tokens).exec u) ∨
          (¬ AccountCreated E opts s ∧ ∃ e, (registerAccount E φ opts >>= next).exec s =
            (.error e, u)))) ∨
    (¬ Account.RegistersActor E.account opts s.account ∧ ∃ e u, SameAccounts s u ∧
      (registerAccount E φ opts >>= next).exec s = (.error e, u)) := by
  obtain ⟨r, account, hexec, hr⟩ := exec_onAccount_createAccount E opts s
  have haccount : ((Account.createAccount E.account opts).exec s.account).2 = account := by
    rw [onAccount, exec_zoom] at hexec
    exact congrArg (fun p => p.2.account) hexec
  have hrow : Account.RegistersActor E.account opts s.account →
      account.actor = (Account.withActor E.account opts s.account).actor := fun hreg => by
    rw [← haccount, Account.actor_of_registersActor hreg]
  cases r with
  | ok tokens =>
    have hcreated := hr.1 ⟨tokens, rfl⟩
    refine .inl ⟨hcreated.registers, { s with account }, hrow hcreated.registers, rfl,
      .inl ⟨hcreated, tokens, ?_⟩⟩
    rw [exec_bind, registerAccount, (orDestroy_ok E φ opts.did .createAccount).2 hexec]
  | error e =>
    have hnot : ¬ AccountCreated E opts s := fun h => by
      obtain ⟨tokens, htokens⟩ := hr.2 h
      cases htokens
    obtain ⟨err, hregister⟩ := orDestroy_error E φ opts.did .createAccount hexec
    have hdestroy := sameAccounts_destroy E.faults opts.did { s with account }
    by_cases hreg : Account.RegistersActor E.account opts s.account
    · refine .inl ⟨hreg, _, ?_, hdestroy.sequenced, .inr ⟨hnot, err, ?_⟩⟩
      · rw [hdestroy.account]
        exact hrow hreg
      · rw [exec_bind, registerAccount, hregister]
    · refine .inr ⟨hreg, err, _, ⟨?_, hdestroy.sequenced⟩, ?_⟩
      · rw [hdestroy.account]
        rw [onAccount, exec_zoom] at hexec
        have hfst : ((Account.createAccount E.account opts).exec s.account).1 = .error e :=
          congrArg Prod.fst hexec
        exact Account.createAccount_of_not_registersActor hreg (Prod.ext hfst haccount)
      · rw [exec_bind, registerAccount, hregister]

end

section

variable {E : Env} {v : ValidatedCreateAccount E} {s : State}

/-- What comes after the account manager's answer writes the event of a new account that is not
imported. -/
theorem accountEvts_finishValidated (tokens : String × String) (s : State) (d : String) :
    accountEvts d ((finishValidated E v E.commit tokens).exec s).2.sequenced =
      accountEvts d s.sequenced ++
        if d = v.did ∧ v.deactivated = false ∧ E.faults.access .syncData = none ∧
          E.faults.access .accountEvt = none then [(true, none)] else [] := by
  have htail : Keeps (do
      updateRepoRoot E handlerFlow v.did E.commit
      let didDoc ← convertDidDoc E E.didDoc
      return ⟨tokens.1, tokens.2, v.handle, v.did, didDoc⟩ : Call ApiError CreateAccountOutput)
      (SameEvts d) := by
    have hconvert : Keeps (convertDidDoc E E.didDoc) (SameEvts d) := by
      unfold convertDidDoc
      split
      · exact keeps_pure (sameEvts_refl d) _
      · exact (keeps_attempt (sameEvts_refl d) _).bind (sameEvts_trans d) fun _ =>
          keeps_pure (sameEvts_refl d) _
    exact (sameEvts_updateRepoRoot E handlerFlow v.did d E.commit).bind (sameEvts_trans d) fun _ =>
      hconvert.bind (sameEvts_trans d) fun _ => keeps_pure (sameEvts_refl d) _
  have hannounce := accountEvts_announce E handlerFlow v.did v.handle E.commit s d
  have hafter : accountEvts d ((finishValidated E v E.commit tokens).exec s).2.sequenced =
      accountEvts d ((announceUnless E v.deactivated v.did v.handle E.commit).exec s).2.sequenced := by
    rw [finishValidated, exec_bind]
    rcases (announceUnless E v.deactivated v.did v.handle E.commit).exec s with ⟨_ | _, u⟩
    · rfl
    · exact htail u
  rw [hafter, announceUnless]
  cases v.deactivated with
  | true => simp
  | false =>
    rw [if_neg Bool.false_ne_true, hannounce]
    simp only [true_and]

/-- The row of the new account. -/
def newRow (E : Env) (v : ValidatedCreateAccount E) : Account.ActorRow :=
  Account.newActor (E.account.now .registerActor) v.handle (some v.deactivated)

theorem sameBooks_createValidated (h : ¬ RegistersRow E v s) :
    SameBooks s ((createValidated E v).exec s).2 := by
  rcases exec_signUp E handlerFlow v.did v.plcRotationKey v.plcOp (fun commit => do
    let tokens ← registerAccount E handlerFlow (v.opts commit)
    finishValidated E v commit tokens) s with ⟨hreach, u, hu, hexec⟩ | ⟨-, e, u, hu, hexec⟩
  · rw [createValidated, hexec]
    rcases exec_registerAccount E handlerFlow (v.opts E.commit) (finishValidated E v E.commit) u with
      ⟨hreg, -⟩ | ⟨-, e, w, hw, hexec'⟩
    · rw [hu.account] at hreg
      exact absurd ⟨hreach, hreg⟩ h
    · rw [hexec']
      exact (sameAccounts_trans _ _ _ hu hw).sameBooks
  · rw [createValidated, hexec]
    exact hu.sameBooks

/-- A new row, and the event if it is announced. -/
theorem books_createValidated (h : RegistersRow E v s) : ∃ evts,
    Books v.did (some (newRow E v)) evts s ((createValidated E v).exec s).2 ∧
    (AnnouncesNew E v s → evts = accountEvts v.did s.sequenced ++ [(true, none)]) ∧
    (¬ AnnouncesNew E v s → evts = accountEvts v.did s.sequenced) := by
  rcases exec_signUp E handlerFlow v.did v.plcRotationKey v.plcOp (fun commit => do
    let tokens ← registerAccount E handlerFlow (v.opts commit)
    finishValidated E v commit tokens) s with ⟨-, u, hu, hexec⟩ | ⟨hnot, -⟩
  swap
  · exact absurd h.reaches hnot
  have hcreated : AccountCreated E (v.opts E.commit) u ↔ AccountCreated E (v.opts E.commit) s :=
    accountCreated_congr E hu.account
  rcases exec_registerAccount E handlerFlow (v.opts E.commit) (finishValidated E v E.commit) u with
    ⟨-, w, hactor, hlog, hnext⟩ | ⟨hnot, -⟩
  swap
  · rw [hu.account] at hnot
    exact absurd h.registers hnot
  rw [hu.account] at hactor
  rw [hu.sequenced] at hlog
  -- the row, whichever way the request goes on
  have hbooks : ∀ t : State, SameActors w t →
      (∀ d, d ≠ v.did → accountEvts d t.sequenced = accountEvts d s.sequenced) →
      Books v.did (some (newRow E v)) (accountEvts v.did t.sequenced) s t := by
    intro t ht hothers
    replace ht : t.account.actor = _ := ht.trans hactor
    refine ⟨?_, fun d hd => ?_, rfl, hothers⟩
    · rw [ht, Account.withActor, Table.lookup_insert_eq]
      exact if_pos rfl
    · rw [ht, Account.withActor, Table.lookup_insert_eq]
      exact if_neg hd
  rcases hnext with ⟨hc, tokens, hexec'⟩ | ⟨hc, e, hexec'⟩
  · have hrows := sameActors_finishValidated E v E.commit tokens w
    have hevts := accountEvts_finishValidated (v := v) tokens w
    rw [createValidated, hexec, hexec']
    refine ⟨_, hbooks _ hrows fun d hd => ?_, fun ha => ?_, fun ha => ?_⟩
    · rw [hevts, hlog, if_neg fun h => hd h.1, List.append_nil]
    · rw [hevts, hlog, if_pos ⟨rfl, ha.active, ha.syncData, ha.accountEvt⟩]
    · rw [hevts, hlog, if_neg, List.append_nil]
      rintro ⟨-, hactive, hsync, hevt⟩
      exact ha ⟨hcreated.1 hc, hactive, hsync, hevt⟩
  · rw [createValidated, hexec, hexec']
    refine ⟨_, hbooks w rfl fun d _ => by rw [hlog], fun ha => ?_, fun _ => by rw [hlog]⟩
    exact absurd (hcreated.2 ha.created) hc

end

/-! ## Activation and deactivation -/

section

variable {E : Env} {cfg : ServiceConfig} {A : ActivateEnv} {did : String} {s : State}

theorem books_withActorRow (f : Account.ActorRow → Account.ActorRow) :
    Books did ((s.account.actor.lookup did).map f) (accountEvts did s.sequenced) s
      (withActorRow did f s) := by
  refine ⟨?_, fun d hd => ?_, rfl, fun _ _ => rfl⟩
  · rw [withActorRow, Table.lookup_update, if_pos rfl]
  · rw [withActorRow, Table.lookup_update, if_neg hd]

theorem exec_innerActivateAccount :
    (UpdatesRow E cfg A did s ∧ ∃ account, (innerActivateAccount E cfg A (some did)).exec s =
      (activateFound A did account).exec s) ∨
    (¬ UpdatesRow E cfg A did s ∧ ∃ e, (innerActivateAccount E cfg A (some did)).exec s =
      (.error e, s)) := by
  rw [innerActivateAccount, tokenDid, exec_bind, exec_ofExcept]
  dsimp only
  rw [exec_bind, assertDocument, exec_bind, exec_get]
  dsimp only
  rw [exec_ofExcept]
  cases hdoc : assertValidDidDocumentsForService E cfg (A.access .getDocument) did s with
  | error e => exact .inr ⟨fun h => (by cases hdoc.symm.trans h.document), _, rfl⟩
  | ok _ =>
    dsimp only [Except.mapError]
    rw [exec_bind, exec_runtime, onAccount, exec_zoom, Account.getAccount, Account.exec_query]
    cases hget : A.access .getAccount with
    | some e => exact .inr ⟨fun h => (by cases hget.symm.trans h.getAccount), _, rfl⟩
    | none =>
      cases hfound : Account.findAccount did (some ⟨none, some true⟩) s.account with
      | none =>
        refine .inr ⟨fun h => ?_, _, rfl⟩
        have := h.found
        rw [hfound] at this
        cases this
      | some account =>
        cases hactivate : A.access .activate with
        | none => exact .inl ⟨⟨hdoc, hget, by rw [hfound]; rfl, hactivate⟩, account, rfl⟩
        | some e =>
          refine .inr ⟨fun h => (by cases hactivate.symm.trans h.activate), .runtimeError, ?_⟩
          show (activateFound A did account).exec s = _
          rw [activateFound, exec_bind, Account.activateAccount, exec_updateActor, hactivate]

/-- The account that is found has a row, and is not taken down. -/
theorem UpdatesRow.row (h : UpdatesRow E cfg A did s) (hdid : Account.isDid did = true) :
    ∃ r, s.account.actor.lookup did = some r ∧ r.takedownRef = none := by
  have hfound := h.found
  rw [Account.findAccount_did hdid, Option.isSome_map] at hfound
  cases hrow : s.account.actor.lookup did with
  | none => simp [hrow] at hfound
  | some r =>
    refine ⟨r, rfl, ?_⟩
    rw [hrow, Option.isSome_filter] at hfound
    simpa [Account.AvailabilityFlags.admits] using hfound

/-- Of the three events one is an `#account` event. -/
theorem books_announceActivation (handle : Option String) (status : Account.AccountStatus) (s : State) :
    Books did (s.account.actor.lookup did)
      (accountEvts did s.sequenced ++ if A.access .accountEvt = none then [status.lex] else []) s
      ((announceActivation A did handle status).exec s).2 := by
  have hother : ∀ d fault (e : SeqEvent), e.accountOf d = none →
      Keeps (sequenceOrFail fault e) (SameEvts d) := by
    intro d fault e he s
    rw [exec_sequenceOrFail]
    cases fault with
    | some _ => rfl
    | none => simp [SameEvts, accountEvts, he]
  have hactors : ∀ fault (e : SeqEvent), Keeps (sequenceOrFail fault e) SameActors := by
    intro fault e s
    rw [exec_sequenceOrFail]
    cases fault <;> rfl
  rw [announceActivation, exec_bind, exec_sequenceOrFail]
  cases hevt : A.access .accountEvt with
  | some e => simpa using (sameBooks_refl s).books did
  | none =>
    dsimp only
    generalize hu : { s with sequenced := s.sequenced ++ [SeqEvent.account did status.lex.1 status.lex.2] } = u
    -- the two events after it are not about the account
    have hevts : ∀ d, accountEvts d u.sequenced =
        accountEvts d s.sequenced ++ if d = did then [status.lex] else [] := by
      intro d
      rw [← hu, accountEvts_append, accountEvts_singleton, accountOf_account]
      by_cases hd : d = did <;> simp [hd]
    have hactor : u.account.actor = s.account.actor := by rw [← hu]
    have htail : ∀ d, SameEvts d u _ := fun d =>
      ((hother d (A.access .identityEvt) (.identity did (handle.getD "handle.invalid")) rfl).bind
        (sameEvts_trans d) fun _ => hother d (A.access .syncEvt) (.sync did A.syncData) rfl) u
    have hrows := ((hactors (A.access .identityEvt) (.identity did (handle.getD "handle.invalid"))).bind
        sameActors_trans fun _ => hactors (A.access .syncEvt) (.sync did A.syncData)) u
    refine ⟨?_, fun d hd => ?_, ?_, fun d hd => ?_⟩
    · rw [hrows, hactor]
    · rw [hrows, hactor]
    · rw [htail, hevts, if_pos rfl, if_pos rfl]
    · rw [htail, hevts, if_neg hd, List.append_nil]

/-- `deactivate_account`'s change of a row. -/
def deactivateRow (now : String) (deleteAfter : Option String) (r : Account.ActorRow) :
    Account.ActorRow :=
  { r with deactivatedAt := some now, deleteAfter }

/-- `activate_account`'s change of a row. -/
def activateRow (r : Account.ActorRow) : Account.ActorRow :=
  { r with deactivatedAt := none, deleteAfter := none }

theorem UpdatesRow.rowStatus (h : UpdatesRow E cfg A did s) (hdid : Account.isDid did = true) :
    Account.rowStatus ((s.account.actor.lookup did).map activateRow) = .active := by
  obtain ⟨r, hrow, htaken⟩ := h.row hdid
  simp [hrow, Account.rowStatus, activateRow, htaken]

/-- The activated row, and the event if it is reached. -/
theorem books_innerActivateAccount (h : UpdatesRow E cfg A did s) : ∃ evts,
    Books did ((s.account.actor.lookup did).map activateRow) evts s
      ((innerActivateAccount E cfg A (some did)).exec s).2 ∧
    (ReadsRepo A did s ∧ A.access .accountEvt = none →
      evts = accountEvts did s.sequenced ++ [(Account.statusOf did (activated did s).account).lex]) ∧
    (¬ (ReadsRepo A did s ∧ A.access .accountEvt = none) → evts = accountEvts did s.sequenced) := by
  have hbooks : Books did ((s.account.actor.lookup did).map activateRow)
      (accountEvts did s.sequenced) s (activated did s) := books_withActorRow _
  rcases @exec_innerActivateAccount E cfg A did s with
    ⟨-, account, hexec⟩ | ⟨hnot, -⟩
  swap
  · exact absurd h hnot
  rw [hexec]
  rcases @exec_activateFound A did s account h.activate with ⟨hreads, hfound⟩ | ⟨hnot, e, hfound⟩
  swap
  · rw [hfound]
    exact ⟨_, hbooks, fun ha => absurd ha.1 hnot, fun _ => rfl⟩
  rw [hfound]
  have hannounce := @books_announceActivation A did account.handle
    (Account.statusOf did (activated did s).account) (activated did s)
  rw [hbooks.row, hbooks.evts] at hannounce
  refine ⟨_, hbooks.trans hannounce, fun ha => ?_, fun ha => ?_⟩
  · rw [if_pos ha.2]
  · rw [if_neg fun he => ha ⟨hreads, he⟩, List.append_nil]

end

/-! ## Deletion -/

section

variable {D : DeleteEnv} {did : String} {s : State}

theorem destroy_ok_iff (F : Faults) :
    ((destroy F did).exec s).1 = .ok () ↔ Destroys F did s := by
  obtain ⟨r, hwipe, hr⟩ := exec_wipeShared F s
  rw [destroy, exec_bind, hwipe]
  cases r with
  | error e =>
    refine iff_of_false (fun h => by cases h) fun h => ?_
    cases hr.2 h.wipes
  | ok _ =>
    have hall := hr.1 rfl
    dsimp only
    rw [exec_bind, exec_getLocation]
    by_cases hsafe : safePathPart did = true
    swap
    · rw [if_neg hsafe]
      exact iff_of_false (fun h => by cases h) fun h => hsafe h.safe
    rw [if_pos hsafe]
    dsimp only
    rw [exec_bind, exec_check]
    cases hdir : F.access .existsDir with
    | some e =>
      exact iff_of_false (fun h => by cases h) fun h => by cases hdir.symm.trans h.existsDir
    | none =>
      simp only [Option.elim, exec_bind, exec_get, removeDir]
      by_cases hmem : did ∈ s.dirs
      · rw [if_pos hmem, removeDirAll]
        cases hrem : F.removeDirAll with
        | none => exact ⟨fun _ => ⟨hall, hsafe, hdir, fun _ => hrem⟩, fun _ => rfl⟩
        | some r =>
          exact iff_of_false (fun h => by cases h) fun h => by cases hrem.symm.trans (h.removes hmem)
      · rw [if_neg hmem]
        exact ⟨fun _ => ⟨hall, hsafe, hdir, fun h => absurd h hmem⟩, fun _ => rfl⟩

/-- The rows of the account are gone. -/
def rowsDeleted (did : String) (s : State) : State :=
  { s with account := { s.account with
      repoRoot := s.account.repoRoot.erase did
      refreshToken := s.account.refreshToken.deleteWhere fun _ r => r.did = did
      account := s.account.account.erase did
      actor := s.account.actor.erase did } }

theorem exec_deleteAccountRows (fault : Option String) (did : String) (s : State) :
    (mapError (fun _ => .runtimeError) (onAccount (deleteAccountRows fault did)) :
      Call ApiError Unit).exec s = match fault with
        | some _ => (.error .runtimeError, s)
        | none => (.ok (), rowsDeleted did s) := by
  rw [exec_mapError, onAccount, exec_zoom, deleteAccountRows, Account.execute, exec_statement]
  cases fault <;> rfl

/-- Where it fails before the rows are deleted, accounts and log stay. -/
theorem innerDeleteAccount_of_not (h : ¬ DeletesRows D did s) :
    ∃ e t, (innerDeleteAccount D did).exec s = (.error e, t) ∧ SameAccounts s t := by
  rw [innerDeleteAccount, exec_bind, exec_get]
  dsimp only
  rw [deleteAccount, exec_bind, exec_ofExcept]
  cases hchecks : D.checks did s with
  | error e => exact ⟨e, s, rfl, sameAccounts_refl s⟩
  | ok _ =>
    dsimp only
    have hsame := sameAccounts_destroy D.faults did s
    have hiff := @destroy_ok_iff did s D.faults
    rw [exec_bind, exec_mapError]
    cases hdestroy : (destroy D.faults did).exec s with
    | mk r u =>
      rw [hdestroy] at hsame hiff
      cases r with
      | error e => exact ⟨_, u, rfl, hsame⟩
      | ok _ =>
        dsimp only [Except.mapError]
        rw [exec_bind, exec_deleteAccountRows]
        cases hdelete : D.faults.access .deleteAccount with
        | none => exact absurd ⟨hchecks, hiff.1 rfl, hdelete⟩ h
        | some e => exact ⟨_, u, rfl, hsame⟩

def deletedEvt (did : String) : SeqEvent := .account did false (some "deleted")

/-- Behind the rows come the event and the purge. -/
theorem exec_innerDeleteAccount (h : DeletesRows D did s) : ∃ u,
    u.account = (rowsDeleted did s).account ∧ u.sequenced = s.sequenced ∧
    (innerDeleteAccount D did).exec s =
      match D.faults.access .accountEvt, D.faults.access .deleteEvents with
      | some _, _ => (.error .runtimeError, u)
      | none, some _ => (.error .runtimeError, { u with sequenced := u.sequenced ++ [deletedEvt did] })
      | none, none => (.ok (), { u with
          sequenced := (u.sequenced ++ [deletedEvt did]).filter fun e => e.did ≠ did }) := by
  have hsame := sameAccounts_destroy D.faults did s
  have hok := (@destroy_ok_iff did s D.faults).2 h.destroys
  refine ⟨rowsDeleted did ((destroy D.faults did).exec s).2, ?_, hsame.sequenced, ?_⟩
  · rw [rowsDeleted, hsame.account]
    rfl
  rw [innerDeleteAccount, exec_bind, exec_get]
  dsimp only
  rw [deleteAccount, exec_bind, exec_ofExcept, h.checks]
  dsimp only
  rw [exec_bind, exec_mapError, hok]
  dsimp only [Except.mapError]
  rw [exec_bind, exec_deleteAccountRows, h.deletes]
  dsimp only
  rw [exec_bind, exec_attempt]
  cases D.faults.access .accountEvt with
  | some e => rfl
  | none =>
    dsimp only [Option.map_none, Option.elim_none]
    rw [exec_bind, exec_modify]
    dsimp only
    rw [exec_bind, exec_attempt]
    cases D.faults.access .deleteEvents <;> rfl

/-- The account had a row. -/
theorem DeletesRows.row (h : DeletesRows D did s) (hdid : Account.isDid did = true) :
    ∃ r, s.account.actor.lookup did = some r := by
  have hchecks := h.checks
  unfold DeleteEnv.checks at hchecks
  split at hchecks
  · cases hchecks
  · cases hchecks
  · rename_i account hfound
    rw [Account.findAccount_did hdid] at hfound
    cases hrow : s.account.actor.lookup did with
    | none => simp [hrow] at hfound
    | some r => exact ⟨r, rfl⟩

end

/-! ## One request -/

/-- The statuses that a row can have … -/
def rowStatuses : List Account.AccountStatus := [.deleted, .takendown, .deactivated, .active]

theorem rowStatus_mem (row : Option Account.ActorRow) : Account.rowStatus row ∈ rowStatuses := by
  unfold Account.rowStatus
  split
  · decide
  · split
    · decide
    · split <;> decide

/-- … are told apart by flag and text. -/
theorem rowStatus_of_lex {row row' : Option Account.ActorRow}
    (h : (Account.rowStatus row).lex = (Account.rowStatus row').lex) :
    Account.rowStatus row = Account.rowStatus row' := by
  have hinj : ∀ a ∈ rowStatuses, ∀ b ∈ rowStatuses, a.lex = b.lex → a = b := by decide
  exact hinj _ (rowStatus_mem row) _ (rowStatus_mem row') h

theorem rowStatus_some_ne (r : Account.ActorRow) :
    Account.rowStatus (some r) ≠ Account.rowStatus none := by
  unfold Account.rowStatus
  dsimp only
  split
  · rintro ⟨⟩
  · split <;> rintro ⟨⟩

section

variable {w : Lifecycle}

/-- The log's last event of a DID is the status of its row. -/
theorem Reports.last (hw : Reports w) {did : String} (hdid : Account.isDid did = true) {e : LexStatus}
    (he : lastAccountEvt did w.server.sequenced = some e) :
    e = (Account.rowStatus (w.server.account.actor.lookup did)).lex := by
  rw [← Account.statusOf_did hdid]
  exact hw.status did 0 e hdid he

theorem reports_of_sameBooks (hw : Reports w) {t : State} (h : SameBooks w.server t) :
    Reports ⟨t, none⟩ :=
  (reports_untold_iff_of_books t hw (h.books "")).2 fun hdid => by cases hdid

theorem reports_createAccount_iff (hw : Reports w) (E : Env) (requester : Option String)
    (checked : Except ApiError CheckedInput) :
    Reports (w.handle (.createAccount E requester checked)) ↔
      Announced w (.createAccount E requester checked) := by
  have hdone : w.handle (.createAccount E requester checked) =
      ⟨((innerCreateAccount E requester checked).exec w.server).2, none⟩ := by
    simp only [Lifecycle.handle, afterwards, ite_self]
  rw [hdone, innerCreateAccount, exec_bind, exec_ofExcept]
  cases hv : checked >>= validateDid E requester with
  | error e =>
    refine ⟨fun _ v h => ?_, fun _ => reports_of_sameBooks hw (sameBooks_refl _)⟩
    cases hv.symm.trans h
  | ok v =>
    dsimp only
    by_cases hreg : RegistersRow E v w.server
    swap
    · refine ⟨fun _ v' h _ hreg' => ?_, fun _ => reports_of_sameBooks hw (sameBooks_createValidated hreg)⟩
      obtain rfl := Except.ok.inj (hv.symm.trans h)
      exact absurd hreg' hreg
    have hnone : w.server.account.actor.lookup v.did = none :=
      Finmap.lookup_eq_none.2 hreg.registers.newDid
    obtain ⟨evts, hbooks, hann, hnot⟩ := books_createValidated hreg
    rw [reports_untold_iff_of_books _ hw hbooks]
    constructor
    · intro hlast v' h hdid _
      obtain rfl := Except.ok.inj (hv.symm.trans h)
      by_cases ha : AnnouncesNew E v w.server
      · exact .inl ha
      · right
        rw [Option.eq_none_iff_forall_not_mem]
        intro e he
        -- a row is there now, and it was not before
        have hnow := hlast hdid e (by rw [hnot ha]; exact he)
        have hbefore := hw.last hdid he
        rw [hnone] at hbefore
        exact rowStatus_some_ne _ (rowStatus_of_lex (hnow.symm.trans hbefore))
    · intro h hdid e he
      rcases h v hv hdid hreg with ha | hempty
      · rw [hann ha, List.getLast?_append] at he
        cases he
        simp [newRow, Account.newActor, Account.rowStatus, ha.active, Account.AccountStatus.lex]
      · by_cases ha : AnnouncesNew E v w.server
        · rw [hann ha, List.getLast?_append] at he
          cases he
          simp [newRow, Account.newActor, Account.rowStatus, ha.active, Account.AccountStatus.lex]
        · rw [hnot ha] at he
          cases hempty.symm.trans he

theorem reports_activateAccount_iff (hw : Reports w) (E : Env) (cfg : ServiceConfig)
    (A : ActivateEnv) (did : Option String) :
    Reports (w.handle (.activateAccount E cfg A did)) ↔
      Announced w (.activateAccount E cfg A did) := by
  have hdone : w.handle (.activateAccount E cfg A did) =
      ⟨((innerActivateAccount E cfg A did).exec w.server).2, none⟩ := by
    simp only [Lifecycle.handle, afterwards, ite_self]
  rw [hdone]
  cases did with
  | none =>
    refine ⟨fun _ d h => ?_, fun _ => reports_of_sameBooks hw (sameBooks_refl _)⟩
    cases h
  | some d =>
    by_cases hup : UpdatesRow E cfg A d w.server
    swap
    · refine ⟨fun _ d' h _ hup' => ?_, fun _ => ?_⟩
      · cases h
        exact absurd hup' hup
      · rcases exec_innerActivateAccount (E := E) (A := A) with ⟨hup', -⟩ | ⟨-, e, hexec⟩
        · exact absurd hup' hup
        · rw [hexec]
          exact reports_of_sameBooks hw (sameBooks_refl _)
    obtain ⟨evts, hbooks, hann, hnot⟩ := books_innerActivateAccount hup
    rw [reports_untold_iff_of_books _ hw hbooks]
    constructor
    · intro hlast d' h hdid _
      cases h
      by_cases ha : ReadsRepo A d w.server ∧ A.access .accountEvt = none
      · exact .inl ha
      · refine .inr fun e he => ?_
        rw [hlast hdid e (by rw [hnot ha]; exact he), hup.rowStatus hdid]
    · intro h hdid e he
      rw [hup.rowStatus hdid]
      by_cases ha : ReadsRepo A d w.server ∧ A.access .accountEvt = none
      · rw [hann ha, List.getLast?_append] at he
        cases he
        have hstatus : Account.statusOf d (activated d w.server).account = .active := by
          have hrow := (@books_withActorRow d w.server activateRow).row
          rw [Account.statusOf_did hdid, ← hup.rowStatus hdid, ← hrow]
          rfl
        exact congrArg Account.AccountStatus.lex hstatus
      · rcases h d rfl hdid hup with ha' | hsays
        · exact absurd ha' ha
        · rw [hnot ha] at he
          exact hsays e he

theorem reports_deactivateAccount_iff (hw : Reports w) (A : ActivateEnv) (now : String)
    (did deleteAfter : Option String) :
    Reports (w.handle (.deactivateAccount A now did deleteAfter)) ↔
      Announced w (.deactivateAccount A now did deleteAfter) := by
  cases did with
  | none =>
    refine ⟨fun _ d h => ?_, fun _ => reports_of_sameBooks hw (sameBooks_refl _)⟩
    cases h
  | some d =>
    have hexec : (innerDeactivateAccount A now (some d) deleteAfter).exec w.server =
        (runtime (onAccount (Account.updateActor (A.access .deactivate) d
          (deactivateRow now deleteAfter)))).exec w.server := by
      rw [innerDeactivateAccount, tokenDid, exec_bind, exec_ofExcept]
      rfl
    rw [Lifecycle.handle, hexec, exec_updateActor]
    cases hfault : A.access .deactivate with
    | some e =>
      refine ⟨fun _ d' h _ hf => ?_, fun _ => reports_of_sameBooks hw (sameBooks_refl _)⟩
      cases hfault.symm.trans hf
    | none =>
      have hbooks := @books_withActorRow d w.server (deactivateRow now deleteAfter)
      dsimp only
      rw [afterwards_ok, Option.map_some, reports_iff_of_books
        ⟨withActorRow d (deactivateRow now deleteAfter) w.server, some (d, .deactivated)⟩ hw hbooks]
      constructor
      · rintro ⟨-, hdone⟩ d' h hdid -
        cases h
        exact hdone d .deactivated hdid rfl
      · intro h
        refine ⟨fun hdid e he => ?_, fun d' status hdid h' => ?_⟩
        · -- the log says so already, so does the row
          have hsays := h d rfl hdid hfault
          obtain rfl : e = Account.AccountStatus.deactivated.lex :=
            Option.some.inj (he.symm.trans hsays)
          have hlex := hw.last hdid he
          cases hrow : w.server.account.actor.lookup d with
          | none => rw [hrow] at hlex; exact absurd hlex (by decide)
          | some r =>
            rw [hrow] at hlex
            cases ht : r.takedownRef with
            | none => simp [Account.rowStatus, deactivateRow, ht]
            | some ref =>
              simp [Account.rowStatus, ht, Account.AccountStatus.lex] at hlex
        · cases h'
          exact h d rfl hdid hfault

theorem reports_deleteAccount_iff (hw : Reports w) (D : DeleteEnv) (did : String) :
    Reports (w.handle (.deleteAccount D did)) ↔ Announced w (.deleteAccount D did) := by
  rw [Lifecycle.handle]
  by_cases hdel : DeletesRows D did w.server
  swap
  · obtain ⟨e, t, hexec, hsame⟩ := innerDeleteAccount_of_not hdel
    rw [hexec]
    exact ⟨fun _ _ h => absurd h hdel, fun _ => reports_of_sameBooks hw hsame.sameBooks⟩
  obtain ⟨u, haccount, hlog, hexec⟩ := exec_innerDeleteAccount hdel
  have hactor : u.account.actor = w.server.account.actor.erase did := by
    rw [haccount]
    rfl
  -- the row goes in any case, and what is left of the log decides
  have hbooks : ∀ log, (∀ d, d ≠ did → accountEvts d log = accountEvts d w.server.sequenced) →
      Books did none (accountEvts did log) w.server { u with sequenced := log } := by
    intro log hothers
    refine ⟨?_, fun d hd => ?_, rfl, hothers⟩
    · show u.account.actor.lookup did = none
      rw [hactor, Finmap.lookup_erase]
    · show u.account.actor.lookup d = _
      rw [hactor, Finmap.lookup_erase_ne hd]
  have happend : ∀ d, d ≠ did →
      accountEvts d (w.server.sequenced ++ [deletedEvt did]) = accountEvts d w.server.sequenced := by
    intro d hd
    rw [accountEvts_append, accountEvts_singleton, deletedEvt, accountOf_account, if_neg hd]
    exact List.append_nil _
  have hdeleted : accountEvts did (w.server.sequenced ++ [deletedEvt did]) =
      accountEvts did w.server.sequenced ++ [(false, some "deleted")] := by
    rw [accountEvts_append, accountEvts_singleton, deletedEvt, accountOf_account, if_pos rfl]
    rfl
  have hann : Announced w (.deleteAccount D did) ↔ (Account.isDid did = true →
      if D.faults.access .accountEvt = none then D.faults.access .deleteEvents ≠ none
      else lastAccountEvt did w.server.sequenced = none) :=
    ⟨fun h hdid => h hdid hdel, fun h hdid _ => h hdid⟩
  rw [hexec, hann]
  cases hevt : D.faults.access .accountEvt with
  | some e =>
    have hb := hbooks u.sequenced fun d _ => by rw [hlog]
    rw [show accountEvts did u.sequenced = accountEvts did w.server.sequenced by rw [hlog]] at hb
    dsimp only
    rw [if_neg (Option.some_ne_none e), afterwards_error, reports_untold_iff_of_books u hw hb]
    constructor
    · intro hlast hdid
      rw [Option.eq_none_iff_forall_not_mem]
      intro e he
      obtain ⟨r, hrow⟩ := hdel.row hdid
      have hbefore := hw.last hdid he
      rw [hrow] at hbefore
      exact rowStatus_some_ne r (rowStatus_of_lex (hbefore.symm.trans (hlast hdid e he)))
    · intro h hdid e he
      cases (h hdid).symm.trans he
  | none =>
    cases hpurge : D.faults.access .deleteEvents with
    | some e =>
      have hb := hbooks _ happend
      rw [hdeleted] at hb
      dsimp only
      rw [afterwards_error, hlog, reports_untold_iff_of_books _ hw hb, if_pos rfl]
      refine iff_of_true (fun _ e he => ?_) fun _ => Option.some_ne_none e
      rw [List.getLast?_append] at he
      cases he
      rfl
    | none =>
      have hpurged := accountEvts_filter did (w.server.sequenced ++ [deletedEvt did])
      have hb := hbooks _ fun d hd =>
        (accountEvts_filter_of_ne hd (w.server.sequenced ++ [deletedEvt did])).trans (happend d hd)
      rw [hpurged] at hb
      dsimp only
      rw [afterwards_ok, hlog, if_pos rfl]
      constructor
      · intro h hdid
        have hdone := h.done did .deleted hdid rfl
        rw [lastAccountEvt, hpurged] at hdone
        cases hdone
      · intro h
        refine (reports_iff_of_books ⟨_, some (did, .deleted)⟩ hw hb).2
          ⟨fun hdid => absurd rfl (h hdid), fun d status hdid hd => ?_⟩
        cases hd
        exact absurd rfl (h hdid)

end

/-! ## Runs -/

theorem reports_handle_iff {w : Lifecycle} (hw : Reports w) (r : Request) :
    Reports (w.handle r) ↔ Announced w r := by
  cases r with
  | createAccount E requester checked => exact reports_createAccount_iff hw E requester checked
  | activateAccount E cfg A did => exact reports_activateAccount_iff hw E cfg A did
  | deactivateAccount A now did deleteAfter =>
    exact reports_deactivateAccount_iff hw A now did deleteAfter
  | deleteAccount D did => exact reports_deleteAccount_iff hw D did

/-- **Along a run the log says of every DID what its account's status is, if and only if each request
of the run is announced.** -/
theorem reports_iff {w : Lifecycle} (hw : Reports w) (rs : List Request) :
    Always Lifecycle.step Reports w rs ↔ Along Lifecycle.step Announced w rs := by
  have hstep : ∀ w r w', Lifecycle.step w r = some w' → w' = w.handle r :=
    fun _ _ _ h => (Option.some.inj h).symm
  refine always_iff_along (fun _ h => h) (fun w r w' hw hr h => ?_) (fun w r w' hw hr h => ?_) hw rs
  · rw [hstep w r w' h]
    exact (reports_handle_iff hw r).2 hr
  · rw [hstep w r w' h]
    exact fun hr' => hr ((reports_handle_iff hw r).1 hr')

/-- Nobody has an account, and nothing is in the log. -/
def freshLifecycle : Lifecycle := ⟨State.empty, none⟩

theorem reports_freshLifecycle : Reports freshLifecycle := by
  refine ⟨fun did n e _ he => ?_, fun did status _ h => by cases h⟩
  rw [show freshLifecycle.server.sequenced = [] from rfl, List.drop_nil] at he
  cases he

def bobSignsUp : Request := .createAccount workingEnv none (.ok bobsBody)

def bobDeactivates (fault : Option String) : Request :=
  .deactivateAccount ⟨fun a => if a = .deactivate then fault else none, workingEnv.commit⟩
    "2026-08-02T00:00:00.000Z" (some "did:plc:bob") none

def bobDeletes : Request := .deleteAccount ⟨workingFaults, none, fun _ => .ok true, .ok ()⟩ "did:plc:bob"

/-- A sign-up, and a deactivation that the database fails. -/
theorem reports_failed_deactivation :
    Always Lifecycle.step Reports freshLifecycle [bobSignsUp, bobDeactivates (some "disk I/O error")] := by
  refine (reports_iff reports_freshLifecycle _).2 ?_
  rw [along_cons_of_some rfl, along_cons_of_some rfl]
  refine ⟨fun v _ _ _ => .inr rfl, fun d _ _ h => ?_, trivial⟩
  cases h

/-- A deactivated account is active in the log, and of a deleted one nothing is left there. -/
theorem log_misreports :
    ¬ Always Lifecycle.step Reports freshLifecycle [bobSignsUp, bobDeactivates none] ∧
      ¬ Always Lifecycle.step Reports freshLifecycle [bobSignsUp, bobDeletes] := by
  constructor
  · intro h
    have hseen := ((h.2 _ rfl).2 _ rfl).done "did:plc:bob" .deactivated (by decide) rfl
    exact absurd hseen (by decide +kernel)
  · intro h
    have hdone : ((freshLifecycle.handle bobSignsUp).handle bobDeletes).done =
        some ("did:plc:bob", .deleted) := by decide +kernel
    have hseen := ((h.2 _ rfl).2 _ rfl).done "did:plc:bob" .deleted (by decide) hdone
    exact absurd hseen (by decide +kernel)

end CacosPds.Server
