import CacosPds.Server.SignUp
/-!
# The two ways to sign up, compared

| here | there |
| --- | --- |
| `CreateAccountInput.body` | the body that `createAccount` would be sent for the same input |
| `WouldAccept`    | `validate_inputs_for_local_pds` on that body, with a database that answers |
| `FitsLocalPds`   | what its checks ask of the input |
| `ReachesDirectory` | `remote_create_account.rs:95-218`: up to the answer of the PLC directory |
| `PathsAgree`     | what the doc comment of `ActorStoreRemoteCreateAccount` promises: it mirrors the canonical flow |

The route's own checks are four (`checkInput`): no service domain, no reserved word, no invite, no
lookup of the handle or the address, and the handle is registered as it is given. Where the
directory takes the operation, the two ways agree exactly for input that would pass the other's
checks as well and whose handle is its own normal form (`pathsAgree_iff`).
-/
namespace CacosPds.Server

open Stages Sql

def CreateAccountInput.body (input : CreateAccountInput) : CreateAccountBody where
  email := some input.email
  handle := input.handle
  did := none
  inviteCode := input.inviteCode
  password := some input.password
  recoveryKey := none
  plcOp := none

/-- The lookups of the validation work. -/
def SignUpEnv.answering (E : SignUpEnv) : SignUpEnv :=
  { E with getAccount := none, getAccountByEmail := none }

/-- The validation of `createAccount` accepts the input, under this handle. -/
def WouldAccept (E : SignUpEnv) (input : CreateAccountInput) (s : State) (handle : String) : Prop :=
  ∃ v t, (validateInputsForLocalPds E.answering input.body none).exec s = (.ok v, t) ∧
    v.handle = handle

/-- The operation is submitted for nothing that `createAccount` would refuse, and an account that is
created has the handle that `createAccount` would give it. -/
structure PathsAgree (E : SignUpEnv) (input : CreateAccountInput) (s : State) : Prop where
  submits : ((remoteCreateAccount E.server input).exec s).2.accepted ≠ s.accepted →
    ∃ handle, WouldAccept E input s handle
  succeeds : ∀ did t, (remoteCreateAccount E.server input).exec s = (.ok did, t) →
    ∃ handle row, WouldAccept E input s handle ∧ t.account.actor.lookup did = some row ∧
      row.handle = some handle

/-! ## The condition -/

/-- The input passes the checks of `validate_inputs_for_local_pds`, under this handle. -/
structure FitsLocalPds (E : SignUpEnv) (input : CreateAccountInput) (s : State) (handle : String) :
    Prop where
  invited : E.inviteRequired = some true → input.inviteCode ≠ none
  email : E.server.emailIsValid input.email = true
  newEmail : Account.findAccountByEmail E.toLowercase input.email none s.account = none
  normal : Handle.normalizeAndValidateHandle E.handles ⟨input.handle, none, none⟩
    E.serviceHandleDomains = .ok handle
  valid : Handle.validateHandle handle E.serviceHandleDomains = true
  newHandle : Account.findAccount handle none s.account = none

/-- The four checks pass, the operation can be built, the store opens, and the directory takes the
operation. -/
def ReachesDirectory (E : Env) (input : CreateAccountInput) (s : State) : Prop :=
  ∃ did op, remoteGenesis E input = .ok (did, op) ∧ Submits E did s

/-- Everything behind the directory's answer goes through too. -/
structure Finishes (E : Env) (input : CreateAccountInput) (did : String) (s : State) : Prop where
  created : AccountCreated E (input.opts E did E.commit) s
  syncs : E.faults.access .syncData = none
  updatesRoot : E.faults.access .updateRoot = none

/-! ## The validation -/

section

variable {E : SignUpEnv} {input : CreateAccountInput} {s t : State} {handle : String}

/-- What the checks answer with. -/
theorem checkInputs_answer {requester : Option String} {body : CreateAccountBody} {c : CheckedInput}
    (h : (checkInputs E requester body).exec s = (.ok c, t)) :
    checkHandle E body.handle requester = .ok c.handle ∧ c.givenHandle = body.handle ∧
      c.recoveryKey = body.recoveryKey := by
  obtain ⟨form, u, hform, h⟩ := exec_bind_ok.1 h
  rw [exec_ofExcept, Prod.mk.injEq] at hform
  obtain ⟨found, v, -, h⟩ := exec_bind_ok.1 h
  obtain ⟨_, w, -, h⟩ := exec_bind_ok.1 h
  obtain ⟨password, x, -, h⟩ := exec_bind_ok.1 h
  cases h
  exact ⟨(checkForm_ok.1 hform.1).2.2.2, rfl, rfl⟩

theorem passesChecks_iff : PassesChecks E.answering input.body s ↔
    ∃ handle, FitsLocalPds E input s handle := by
  constructor
  · intro h
    obtain ⟨email, hemail, hvalid, hnew⟩ := h.email
    obtain ⟨handle, hnormal, hok, hfree⟩ := h.handle
    cases hemail
    exact ⟨handle, h.invited, hvalid, hnew, hnormal, hok, hfree⟩
  · rintro ⟨handle, h⟩
    exact
      { noPlcOp := rfl
        invited := h.invited
        email := ⟨_, rfl, h.email, h.newEmail⟩
        handle := ⟨handle, h.normal, h.valid, h.newHandle⟩
        getAccount := rfl
        getAccountByEmail := rfl
        password := fun h => by cases h }

/-- Besides the checks, the operation has to be built, as in the other flow. -/
theorem wouldAccept_iff : WouldAccept E input s handle ↔
    FitsLocalPds E input s handle ∧ ∃ genesis, genesisOp E.server none input.handle = .ok genesis := by
  rcases @exec_checkInputs E.answering none input.body s with ⟨hpass, c, hdid, hexec⟩ | ⟨hnot, e, -, hexec⟩
  swap
  · refine iff_of_false ?_ fun h => hnot (passesChecks_iff.2 ⟨handle, h.1⟩)
    rintro ⟨v, t, hv, -⟩
    rw [validateInputsForLocalPds, exec_bind, hexec] at hv
    cases hv
  obtain ⟨handle', hfits⟩ := passesChecks_iff.1 hpass
  obtain ⟨hanswer, hgiven, hrecovery⟩ := checkInputs_answer hexec
  obtain rfl : handle' = c.handle :=
    Except.ok.inj (hfits.normal.symm.trans (checkHandle_ok.1 hanswer).1)
  have hvalidate : (validateInputsForLocalPds E.answering input.body none).exec s =
      (validateDid E.answering.server none c, s) := by
    rw [validateInputsForLocalPds, exec_bind, hexec]
    exact exec_ofExcept _ _
  have hbranch : (∃ v, validateDid E.answering.server none c = .ok v ∧ v.handle = handle) ↔
      c.handle = handle ∧ ∃ genesis, genesisOp E.server none input.handle = .ok genesis := by
    unfold validateDid
    rw [hdid]
    dsimp only [CreateAccountInput.body]
    split
    · rename_i e hgenesis
      rw [hrecovery, hgiven] at hgenesis
      refine iff_of_false ?_ ?_
      · rintro ⟨v, hv, -⟩
        cases hv
      rintro ⟨-, genesis, hok⟩
      cases hgenesis.symm.trans hok
    · rename_i did op hgenesis
      rw [hrecovery, hgiven] at hgenesis
      constructor
      · rintro ⟨v, hv, rfl⟩
        cases hv
        exact ⟨rfl, _, hgenesis⟩
      · rintro ⟨rfl, -⟩
        exact ⟨_, rfl, rfl⟩
  constructor
  · rintro ⟨v, t, hv, hhandle⟩
    rw [hvalidate, Prod.mk.injEq] at hv
    obtain ⟨rfl, hgenesis⟩ := hbranch.1 ⟨v, hv.1, hhandle⟩
    exact ⟨hfits, hgenesis⟩
  · rintro ⟨h, hgenesis⟩
    obtain ⟨v, hv, hhandle⟩ :=
      hbranch.2 ⟨Except.ok.inj (hfits.normal.symm.trans h.normal), hgenesis⟩
    exact ⟨v, s, hvalidate.trans (by rw [hv]), hhandle⟩

end

/-! ## How far the other flow gets -/

section

variable {E : Env} {input : CreateAccountInput} {s t : State} {did did' handle : String}
  {commit : Commit}

/-- The four events are best effort; the account database is not touched. -/
theorem does_announce {ε : Type} (E : Env) (φ : Flow ε) (did handle : String) (commit : Commit) :
    ∃ g : State → State, (∀ s, (g s).account = s.account) ∧
      Does (announce E φ did handle commit) (fun _ => E.faults.access .syncData = none) g := by
  have hsync : Does (attempt ((E.faults.access .syncData).map fun e => φ.exit (.syncData e)))
      (fun _ : State => E.faults.access .syncData = none) id := by
    intro s t
    rw [exec_attempt]
    cases E.faults.access .syncData <;> simp [eq_comm]
  have hevent : ∀ a e, ∃ g : State → State, (∀ s, (g s).account = s.account) ∧
      Does (sequenceEvt E a e : Call ε Unit) (fun _ => True) g := by
    intro a e
    refine ⟨_, fun s => ?_, does_ignore _⟩
    rw [exec_bind, exec_attempt]
    cases E.faults.access a <;> rfl
  obtain ⟨g₁, h₁, hd₁⟩ := hevent .identityEvt (.identity did handle)
  obtain ⟨g₂, h₂, hd₂⟩ := hevent .accountEvt (.account did true none)
  obtain ⟨g₃, h₃, hd₃⟩ := hevent .commitEvt (.commit did commit)
  obtain ⟨g₄, h₄, hd₄⟩ := hevent .syncEvt (.sync did commit)
  refine ⟨fun s => g₄ (g₃ (g₂ (g₁ s))), fun s => ?_, ?_⟩
  · rw [h₄, h₃, h₂, h₁]
  · refine (hsync.bind (hd₁.bind (hd₂.bind (hd₃.bind hd₄)))).congr (fun s => ?_) fun _ _ => rfl
    simp

theorem finishRemote_ok (E : Env) (did handle : String) (commit : Commit) (s : State) :
    (∃ t, (finishRemote E did handle commit).exec s = (.ok did', t)) ↔
      did = did' ∧ E.faults.access .syncData = none ∧ E.faults.access .updateRoot = none ∧
        ∀ existing, s.account.repoRoot.lookup did = some existing → existing.rev ≤ commit.rev := by
  obtain ⟨g, hg, hannounce⟩ := does_announce E oauthFlow did handle commit
  have hroot : Does (updateRepoRoot E oauthFlow did commit)
      (fun s => E.faults.access .updateRoot = none ∧
        ∀ existing, s.account.repoRoot.lookup did = some existing → existing.rev ≤ commit.rev) _ :=
    (Account.does_updateRoot _ E.updateRootNow did commit.cid commit.rev).zoom.mapError _
  have hboth := hannounce.bind hroot
  have hstep := hboth.exists_iff s
  rw [hg] at hstep
  constructor
  · rintro ⟨t, h⟩
    obtain ⟨_, u, hevents, h⟩ := exec_bind_ok.1 h
    obtain ⟨_, v, hroot, h⟩ := exec_bind_ok.1 h
    cases h
    exact ⟨rfl, hstep.1 ⟨t, exec_bind_ok.2 ⟨(), u, hevents, hroot⟩⟩⟩
  · rintro ⟨rfl, h⟩
    obtain ⟨v, hv⟩ := hstep.2 h
    obtain ⟨_, u, hevents, hroot⟩ := exec_bind_ok.1 hv
    exact ⟨v, exec_bind_ok.2 ⟨(), u, hevents, exec_bind_ok.2 ⟨(), v, hroot, rfl⟩⟩⟩

/-- The operation is submitted exactly where the flow gets to the directory and it answers. -/
theorem submits_iff : ((remoteCreateAccount E input).exec s).2.accepted ≠ s.accepted ↔
    ReachesDirectory E input s := by
  rw [remoteCreateAccount, exec_bind, exec_ofExcept]
  cases hgenesis : remoteGenesis E input with
  | error e =>
    refine iff_of_false (fun h => h rfl) ?_
    rintro ⟨did, op, h, -⟩
    cases hgenesis.symm.trans h
  | ok genesis =>
    obtain ⟨did, op⟩ := genesis
    dsimp only
    by_cases hsub : Submits E did s
    · refine iff_of_true ?_ ⟨did, op, hgenesis, hsub⟩
      rw [exec_of_submits E oauthFlow did hsub]
      have hgrown : (submitted E did E.rotationKeypair op s).accepted ≠ s.accepted := by
        show s.accepted ++ [(did, op)] ≠ s.accepted
        simp
      refine fun h => hgrown (h ▸ ?_)
      by_cases hacc : AccountCreated E (input.opts E did E.commit)
          (submitted E did E.rotationKeypair op s)
      · exact (sameKeys_of_created E oauthFlow hacc fun _ =>
          sameKeys_finishRemote E did input.handle E.commit).accepted.symm
      · exact (rotationKeyOf_of_refused E oauthFlow hacc _).1.symm
    · refine iff_of_false (fun h => h ?_) ?_
      · exact accepted_of_not_submits E oauthFlow did hsub _
      · rintro ⟨did', op', h, hsub'⟩
        cases hgenesis.symm.trans h
        exact hsub hsub'

theorem registerAccount_then_ok {ε α : Type} {φ : Flow ε} {opts : Account.CreateAccountOpts}
    {rest : String × String → Call ε α} {a : α} :
    (registerAccount E φ opts >>= rest).exec s = (.ok a, t) ↔
      ∃ tokens account, (Account.createAccount E.account opts).exec s.account = (.ok tokens, account) ∧
        (rest tokens).exec { s with account } = (.ok a, t) := by
  rw [exec_bind_ok]
  constructor
  · rintro ⟨tokens, u, hregister, hrest⟩
    have hzoom := (orDestroy_ok E φ opts.did .createAccount).1 hregister
    rw [onAccount, exec_zoom, Prod.mk.injEq] at hzoom
    obtain ⟨hok, rfl⟩ := hzoom
    exact ⟨tokens, _, Prod.ext hok rfl, hrest⟩
  · rintro ⟨tokens, account, hexec, hrest⟩
    refine ⟨tokens, _, (orDestroy_ok E φ opts.did .createAccount).2 ?_, hrest⟩
    rw [onAccount, exec_zoom, hexec]

/-- The steps behind an answer. -/
theorem remoteCreateAccount_ok : (remoteCreateAccount E input).exec s = (.ok did, t) ↔
    ∃ op tokens account, remoteGenesis E input = .ok (did, op) ∧ Submits E did s ∧
      (Account.createAccount E.account (input.opts E did E.commit)).exec s.account =
        (.ok tokens, account) ∧
      (finishRemote E did input.handle E.commit).exec
        { submitted E did E.rotationKeypair op s with account } = (.ok did, t) := by
  constructor
  · intro h
    obtain ⟨⟨did', op⟩, u, hgenesis, h⟩ := exec_bind_ok.1 h
    rw [exec_ofExcept, Prod.mk.injEq] at hgenesis
    obtain ⟨hgenesis, rfl⟩ := hgenesis
    have hsub : Submits E did' s := by
      obtain ⟨_, v, hopen, hrest⟩ := exec_bind_ok.1 h
      obtain ⟨_, w, hsend, -⟩ := exec_bind_ok.1 hrest
      exact ⟨((openRepo_ok E oauthFlow did' E.rotationKeypair).1 hopen).1,
        ((does_sendOperation E did' op v w).1
          ((orDestroy_ok E oauthFlow did' .sendOperation).1 hsend)).1⟩
    rw [exec_of_submits E oauthFlow did' hsub] at h
    obtain ⟨tokens, account, hexec, hfinish⟩ := registerAccount_then_ok.1 h
    obtain ⟨rfl, -⟩ := (finishRemote_ok E did' input.handle E.commit _).1 ⟨t, hfinish⟩
    exact ⟨op, tokens, account, hgenesis, hsub, hexec, hfinish⟩
  · rintro ⟨op, tokens, account, hgenesis, hsub, hexec, hfinish⟩
    rw [remoteCreateAccount, exec_bind, exec_ofExcept, hgenesis]
    dsimp only
    rw [exec_of_submits E oauthFlow did hsub]
    exact registerAccount_then_ok.2 ⟨tokens, account, hexec, hfinish⟩

theorem remote_succeeds_iff :
    (∃ t, (remoteCreateAccount E input).exec s = (.ok did, t)) ↔
      ∃ op, remoteGenesis E input = .ok (did, op) ∧ Submits E did s ∧ Finishes E input did s := by
  simp only [remoteCreateAccount_ok]
  constructor
  · rintro ⟨t, op, tokens, account, hgenesis, hsub, hexec, hfinish⟩
    obtain ⟨hreg, hall⟩ := (Account.createAccount_ok_iff _ _ _).1 ⟨tokens, account, hexec⟩
    obtain ⟨-, hsync, hroot, -⟩ := (finishRemote_ok E did input.handle E.commit _).1 ⟨t, hfinish⟩
    exact ⟨op, hgenesis, hsub, ⟨hreg, hall⟩, hsync, hroot⟩
  · rintro ⟨op, hgenesis, hsub, ⟨hreg, hall⟩, hsync, hroot⟩
    obtain ⟨tokens, account, hexec⟩ := (Account.createAccount_ok_iff _ _ _).2 ⟨hreg, hall⟩
    -- the call has stored the root that the last step stores again
    obtain ⟨t, hfinish⟩ := (finishRemote_ok E did input.handle E.commit
      { submitted E did E.rotationKeypair op s with account }).2 ⟨rfl, hsync, hroot, fun existing h => by
        obtain rfl := Option.some.inj ((Account.root_of_createAccount hexec).symm.trans h)
        exact le_rfl⟩
    exact ⟨t, op, tokens, account, hgenesis, hsub, hexec, hfinish⟩

/-- The handle is registered as it is given. -/
theorem handle_of_remote_ok (h : (remoteCreateAccount E input).exec s = (.ok did, t)) :
    ∃ row, t.account.actor.lookup did = some row ∧ row.handle = some input.handle := by
  obtain ⟨op, tokens, account, -, -, hexec, hfinish⟩ := remoteCreateAccount_ok.1 h
  have hrest := onlyAnnounces_finishRemote E did input.handle E.commit
    { submitted E did E.rotationKeypair op s with account }
  rw [hfinish] at hrest
  obtain ⟨_, _, rfl⟩ := hrest
  refine ⟨Account.newActor (E.account.now .registerActor) input.handle (some false), ?_, rfl⟩
  show account.actor.lookup did = _
  rw [Account.actor_of_createAccount hexec, Account.withActor]
  exact (Table.lookup_insert_eq _ _ _ _).trans (if_pos rfl)

end

/-! ## The two compared -/

theorem genesis_of_remoteGenesis {E : Env} {input : CreateAccountInput} {did : String}
    {op : Operation} (h : remoteGenesis E input = .ok (did, op)) :
    genesisOp E none input.handle = .ok (did, op) := by
  obtain ⟨_, -, h⟩ := except_bind_ok.1 h
  exact except_mapError_ok.1 h

/-- **The two ways agree if and only if, wherever the directory takes the operation, the input passes
the checks of the other way too, and is its own normal form where an account comes of it.** -/
theorem pathsAgree_iff (E : SignUpEnv) (input : CreateAccountInput) (s : State) :
    PathsAgree E input s ↔ ∀ did op, remoteGenesis E.server input = .ok (did, op) →
      Submits E.server did s → ∃ handle, FitsLocalPds E input s handle ∧
        (Finishes E.server input did s → handle = input.handle) := by
  constructor
  · intro h did op hgenesis hsub
    obtain ⟨handle, haccept⟩ := h.submits (submits_iff.2 ⟨did, op, hgenesis, hsub⟩)
    have hfits := (wouldAccept_iff.1 haccept).1
    refine ⟨handle, hfits, fun hfinishes => ?_⟩
    obtain ⟨t, ht⟩ := remote_succeeds_iff.2 ⟨op, hgenesis, hsub, hfinishes⟩
    obtain ⟨handle', row, haccept', hrow, hhandle⟩ := h.succeeds did t ht
    obtain ⟨row', hrow', hgiven⟩ := handle_of_remote_ok ht
    obtain rfl := Option.some.inj (hrow.symm.trans hrow')
    obtain rfl : handle = handle' :=
      Except.ok.inj (hfits.normal.symm.trans (wouldAccept_iff.1 haccept').1.normal)
    exact Option.some.inj (hhandle.symm.trans hgiven)
  · intro h
    constructor
    · intro hgrown
      obtain ⟨did, op, hgenesis, hsub⟩ := submits_iff.1 hgrown
      obtain ⟨handle, hfits, -⟩ := h did op hgenesis hsub
      exact ⟨handle, wouldAccept_iff.2 ⟨hfits, _, genesis_of_remoteGenesis hgenesis⟩⟩
    · intro did t ht
      obtain ⟨op, hgenesis, hsub, hfinishes⟩ := remote_succeeds_iff.1 ⟨t, ht⟩
      obtain ⟨handle, hfits, hsame⟩ := h did op hgenesis hsub
      obtain rfl := hsame hfinishes
      obtain ⟨row, hrow, hhandle⟩ := handle_of_remote_ok ht
      exact ⟨_, row, wouldAccept_iff.2 ⟨hfits, _, genesis_of_remoteGenesis hgenesis⟩, hrow, hhandle⟩

/-! ## One sign-up -/

def reservedInput : CreateAccountInput := ⟨"admin.test", "a@x.test", "secret", none⟩

/-- A reserved handle: `createAccount` refuses it, and the other way registers it. -/
theorem reserved_handle_submitted : ¬ ∀ E input s, PathsAgree E input s := by
  intro h
  obtain ⟨handle, haccept⟩ := (h openSignUps reservedInput State.empty).submits
    (by decide +kernel)
  have hnormal := (wouldAccept_iff.1 haccept).1.normal
  have hreserved : Handle.normalizeAndValidateHandle openSignUps.handles
      ⟨reservedInput.handle, none, none⟩ openSignUps.serviceHandleDomains =
        .error ⟨.handleNotAvailable, "Reserved handle"⟩ := by decide +kernel
  cases hreserved.symm.trans hnormal

end CacosPds.Server
