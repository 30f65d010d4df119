import CacosPds.Account.CreateAccount
import CacosPds.Lib.Run
/-!
# Invite codes under concurrent sign-ups (`account/mod.rs:173-183`, `helpers/invite.rs`)

| here | there |
| --- | --- |
| `Stage`, `nextStage` | the statement that a `create_account` has to issue next, and what issuing it does |
| `SignUp`     | one `create_account`, from its first statement on |
| `disableCodes`, `disableForAccounts` | the two statements of `disable_invite_codes` (`invite.rs:359`) |
| `updateAccountTakedownStatus` | `helpers/account.rs:302`, the statement of `takedown_account` on the actor |
| `step`       | one statement of anyone; a sign-up may also be dropped between two statements |
| `RoomLeft`   | the availability check lets nobody through that the recorded uses do not account for |

The check counts the uses on record, and a use is recorded only after the account is registered: the
calls between the two are not counted (`two_signUps_one_use`). The takedown of `forAccount` stands in
the `ON` clause of a left join and is not checked at all (`selectInvite_eq`).
-/
namespace CacosPds.Account

open Stages Runs Sql

/-! ## The statements of one call -/

inductive Stage where
  | selectInvite (code : String)
  | countUses (code : String) (invite : InviteCode)
  | registerActor
  | registerAccount
  | recordInviteUse
  | storeRefreshToken
  | updateRoot
  | returned
  | failed
  deriving DecidableEq

/-- The first statement of a call. -/
def firstStage (opts : CreateAccountOpts) : Stage :=
  match opts.inviteCode with
  | some code => .selectInvite code
  | none => .registerActor

/-- One statement; the answer is the stage after it. -/
def nextStage (E : Env) (opts : CreateAccountOpts) (p : Prepared) : Stage → Call Stage
  | .selectInvite code => do
    let invite ← findInvite (E.fault .selectInvite) code
    return .countUses code invite
  | .countUses code invite => do
    checkUses (E.fault .countUses) code invite
    return .registerActor
  | .registerActor => do
    registerActor (E.fault .registerActor) (E.now .registerActor) opts.did opts.handle
      opts.deactivated
    return .registerAccount
  | .registerAccount => do
    registerAccountIfGiven E opts.did opts.email p.passwordEncrypted
    return .recordInviteUse
  | .recordInviteUse => do
    recordInviteUse (E.fault .recordInviteUse) (E.now .recordInviteUse) opts.did opts.inviteCode
    return .storeRefreshToken
  | .storeRefreshToken => do
    storeRefreshToken (E.fault .storeRefreshToken) E.formatMillis p.payload none
    return .updateRoot
  | .updateRoot => do
    updateRoot (E.fault .updateRoot) (E.now .updateRoot) opts.did opts.repoCid opts.repoRev
    return .returned
  | .returned => return .returned
  | .failed => return .failed

/-- `n` statements in a row. -/
def stagesFrom (E : Env) (opts : CreateAccountOpts) (p : Prepared) : Nat → Stage → Call Stage
  | 0, stage => return stage
  | n + 1, stage => do
    let stage ← nextStage E opts p stage
    stagesFrom E opts p n stage

/-- With nobody in between, the statements are `createAccount`. -/
theorem createAccount_eq_stagesFrom (E : Env) (opts : CreateAccountOpts) :
    createAccount E opts = do
      let p ← ofExcept (prepare E opts)
      let _ ← stagesFrom E opts p 7 (firstStage opts)
      return (p.accessJwt, p.refreshJwt) := by
  unfold createAccount
  refine bind_congr fun p => ?_
  unfold firstStage
  cases opts.inviteCode <;>
    simp [stagesFrom, nextStage, ensureInvite, ensureInviteIsAvailable, completeAccount]

/-! ## The system -/

/-- A call of `create_account`; the last four fields are history. -/
structure SignUp where
  env : Env
  opts : CreateAccountOpts
  prepared : Prepared
  stage : Stage
  /-- `register_actor` went through. -/
  registered : Bool
  /-- `record_invite_use` went through. -/
  recorded : Bool
  /-- The invite code was disabled when the call started. -/
  disabledBefore : Bool
  /-- The code's `forAccount` was taken down when the call started. -/
  takenDownBefore : Bool

structure World where
  db : Db
  signUps : List SignUp

inductive Action where
  | call (E : Env) (opts : CreateAccountOpts)
  | advance (i : Nat)
  /-- The call's future is dropped. -/
  | drop (i : Nat)
  | disableCodes (fault : Option String) (codes : List String)
  | disableForAccounts (fault : Option String) (accounts : List String)
  | updateAccountTakedownStatus (fault : Option String) (did : String) (takedownRef : Option String)

def codeDisabled (code : String) (s : Db) : Bool :=
  match s.inviteCode.lookup code with
  | some invite => 0 < invite.disabled
  | none => false

def forAccountTakenDown (code : String) (s : Db) : Bool :=
  match s.inviteCode.lookup code with
  | some invite =>
    match s.actor.lookup invite.forAccount with
    | some actor => actor.takedownRef.isSome
    | none => false
  | none => false

def disableCodes (fault : Option String) (codes : List String) : Call Unit :=
  execute fault (fun _ => none) fun s =>
    { s with
      inviteCode := s.inviteCode.updateWhere (fun code _ => codes.contains code)
        fun invite => { invite with disabled := 1 } }

def disableForAccounts (fault : Option String) (accounts : List String) : Call Unit :=
  execute fault (fun _ => none) fun s =>
    { s with
      inviteCode := s.inviteCode.updateWhere
        (fun _ invite => accounts.contains invite.forAccount)
        fun invite => { invite with disabled := 1 } }

def updateAccountTakedownStatus (fault : Option String) (did : String)
    (takedownRef : Option String) : Call Unit :=
  execute fault (fun _ => none) fun s =>
    { s with
      actor := s.actor.updateWhere (fun k _ => k = did) fun actor => { actor with takedownRef } }

/-- A call that has prepared its tokens. -/
def SignUp.enter (E : Env) (opts : CreateAccountOpts) (p : Prepared) (s : Db) : SignUp where
  env := E
  opts := opts
  prepared := p
  stage := firstStage opts
  registered := false
  recorded := false
  disabledBefore := opts.inviteCode.elim false fun code => codeDisabled code s
  takenDownBefore := opts.inviteCode.elim false fun code => forAccountTakenDown code s

namespace SignUp

variable (T : SignUp)

def ended : Bool := T.stage = .returned ∨ T.stage = .failed

def next : Call Stage := nextStage T.env T.opts T.prepared T.stage

/-- The call after its statement's answer. -/
def after : Except AccountError Stage → SignUp
  | .ok stage => { T with
      stage
      registered := T.registered || T.stage = .registerActor
      recorded := T.recorded || T.stage = .recordInviteUse }
  | .error _ => { T with stage := .failed }

def usesCode (code : String) : Bool := T.opts.inviteCode = some code

/-- The call has created its account, or is past the check and about to. -/
def claims : Bool := T.registered || T.stage = .registerActor

end SignUp

theorem SignUp.claims_after (T : SignUp) (stage : Stage) :
    (T.after (.ok stage)).claims = (T.claims || decide (stage = .registerActor)) := rfl

def step (W : World) : Action → Option World
  | .call E opts =>
    match prepare E opts with
    | .error _ => some W
    | .ok p => some { W with signUps := W.signUps ++ [.enter E opts p W.db] }
  | .advance i =>
    match W.signUps[i]? with
    | none => none
    | some T =>
      if T.ended then none
      else
        let (r, db) := T.next.exec W.db
        some ⟨db, W.signUps.set i (T.after r)⟩
  | .drop i =>
    match W.signUps[i]? with
    | none => none
    | some T => some { W with signUps := W.signUps.set i { T with stage := .failed } }
  | .disableCodes fault codes => some { W with db := ((disableCodes fault codes).exec W.db).2 }
  | .disableForAccounts fault accounts =>
    some { W with db := ((disableForAccounts fault accounts).exec W.db).2 }
  | .updateAccountTakedownStatus fault did takedownRef =>
    some { W with db := ((updateAccountTakedownStatus fault did takedownRef).exec W.db).2 }

/-- Any database, and no call under way. -/
def World.start (db : Db) : World := ⟨db, []⟩

/-- The accounts that the run's calls created with the code. -/
def accountsCreated (code : String) (W : World) : Nat :=
  W.signUps.countP fun T => T.usesCode code && T.registered

/-- With the `earlier` uses, no more accounts than `availableUses`; none of them with a code that
was disabled, or whose owner was taken down, before its call. -/
structure RespectsInvite (code : String) (earlier : Nat) (W : World) : Prop where
  bound : 0 < accountsCreated code W → ∃ invite, W.db.inviteCode.lookup code = some invite ∧
    ((earlier + accountsCreated code W : Nat) : Int) ≤ invite.availableUses
  before : ∀ T ∈ W.signUps, T.usesCode code = true → T.registered = true →
    T.disabledBefore = false ∧ T.takenDownBefore = false

/-- The calls that are past the check, or have created an account, without a use on record. -/
def unrecorded (code : String) (W : World) : Nat :=
  W.signUps.countP fun T => T.usesCode code && (T.claims && !T.recorded)

/-- If the check is the call's next statement and lets it through: there is room for it next to the
unrecorded calls, and the code's owner was not taken down when it started. -/
def RoomFor (code : String) (W : World) (T : SignUp) : Stage → Prop
  | .countUses c invite => c = code → T.env.fault .countUses = none →
      (usesOf code W.db : Int) < invite.availableUses →
      ((usesOf code W.db + unrecorded code W : Nat) : Int) < invite.availableUses ∧
        T.takenDownBefore = false
  | _ => True

/-- The condition on a step. -/
def RoomLeft (code : String) (W : World) : Action → Prop
  | .advance i => ∀ T ∈ W.signUps[i]?, RoomFor code W T T.stage
  | _ => True

instance (code : String) (W : World) (T : SignUp) : ∀ stage, Decidable (RoomFor code W T stage)
  | .countUses _ _ => inferInstanceAs (Decidable (_ → _ → _ → _ ∧ _))
  | .selectInvite _ | .registerActor | .registerAccount | .recordInviteUse | .storeRefreshToken
  | .updateRoot | .returned | .failed => isTrue trivial

instance (code : String) (W : World) : ∀ a, Decidable (RoomLeft code W a)
  | .advance i => inferInstanceAs (Decidable (∀ T ∈ W.signUps[i]?, RoomFor code W T T.stage))
  | .call _ _ | .drop _ | .disableCodes _ _ | .disableForAccounts _ _
  | .updateAccountTakedownStatus _ _ _ => isTrue trivial

/-! ## What a statement does to a code -/

/-- The code's row stays: same uses, and disabled if it was. -/
def KeepsCode (code : String) (s t : Db) : Prop :=
  ∀ invite, s.inviteCode.lookup code = some invite → ∃ invite',
    t.inviteCode.lookup code = some invite' ∧ invite'.availableUses = invite.availableUses ∧
    (0 < invite.disabled → 0 < invite'.disabled)

theorem KeepsCode.of_eq {code : String} {s t : Db} (h : t.inviteCode = s.inviteCode) :
    KeepsCode code s t :=
  fun invite hl => ⟨invite, h ▸ hl, rfl, id⟩

theorem KeepsCode.disabled {code : String} {s t : Db} (h : KeepsCode code s t)
    (hd : codeDisabled code s = true) : codeDisabled code t = true := by
  unfold codeDisabled at hd ⊢
  split at hd
  · rename_i invite hl
    obtain ⟨invite', hl', -, hmono⟩ := h invite hl
    rw [hl']
    exact decide_eq_true (hmono (of_decide_eq_true hd))
  · cases hd

/-- The statements of `disable_invite_codes`, `UPDATE invite_code SET disabled = 1 WHERE p`. -/
theorem keepsCode_disable (code : String) (p : String → InviteCode → Bool) (s : Db) :
    KeepsCode code s { s with
      inviteCode := s.inviteCode.updateWhere p fun invite => { invite with disabled := 1 } } := by
  intro invite hl
  refine ⟨if p code invite then { invite with disabled := 1 } else invite, ?_, ?_⟩
  · rw [Table.lookup_updateWhere, hl]
    rfl
  · split
    · exact ⟨rfl, fun _ => Int.one_pos⟩
    · exact ⟨rfl, id⟩

/-- A row under a new key, and the uses of a code. -/
theorem usesOf_insert {code code' did now : String} {s : Db} (h : (code', did) ∉ s.inviteCodeUse) :
    usesOf code { s with inviteCodeUse := s.inviteCodeUse.insert (code', did) now } =
      usesOf code s + if code' = code then 1 else 0 := by
  simp only [usesOf, Table.select_insert_new h, Multiset.card_add, Table.selectRow]
  by_cases hc : code' = code <;> simp [hc, Nat.add_comm]

/-- Every statement of a sign-up leaves the codes alone, and but for `record_invite_use` the uses. -/
def SameInvites (s t : Db) : Prop :=
  t.inviteCode = s.inviteCode ∧ t.inviteCodeUse = s.inviteCodeUse

theorem sameInvites_refl (s : Db) : SameInvites s s := ⟨rfl, rfl⟩

theorem sameInvites_nextStage (E : Env) (opts : CreateAccountOpts) (p : Prepared) {stage : Stage}
    (h : stage ≠ .recordInviteUse) : Keeps (nextStage E opts p stage) SameInvites := by
  have refl := sameInvites_refl
  have trans : ∀ s t u, SameInvites s t → SameInvites t u → SameInvites s u :=
    fun s t u h k => ⟨k.1.trans h.1, k.2.trans h.2⟩
  cases stage with
  | selectInvite code =>
    refine Keeps.bind trans ?_ fun _ => keeps_pure refl _
    exact Reads.keeps (reads_findInvite _ code) refl
  | countUses code invite =>
    refine Keeps.bind trans ?_ fun _ => keeps_pure refl _
    exact Reads.keeps (reads_checkUses _ code invite) refl
  | registerActor =>
    refine Keeps.bind trans ?_ fun _ => keeps_pure refl _
    exact keeps_execute refl _ _ fun _ => ⟨rfl, rfl⟩
  | registerAccount =>
    refine Keeps.bind trans ?_ fun _ => keeps_pure refl _
    unfold registerAccountIfGiven
    split
    · exact keeps_execute refl _ _ fun _ => ⟨rfl, rfl⟩
    · exact keeps_pure refl _
  | recordInviteUse => exact absurd rfl h
  | storeRefreshToken =>
    refine Keeps.bind trans ?_ fun _ => keeps_pure refl _
    unfold storeRefreshToken
    split
    · exact keeps_throw refl _
    · exact keeps_execute refl _ _ fun _ => ⟨rfl, rfl⟩
  | updateRoot =>
    refine Keeps.bind trans ?_ fun _ => keeps_pure refl _
    exact keeps_execute refl _ _ fun _ => ⟨rfl, rfl⟩
  | returned => exact keeps_pure refl _
  | failed => exact keeps_pure refl _

/-- What a statement answers, by stages. -/
inductive Advances (E : Env) (s : Db) : Stage → Stage → Prop where
  | found {code : String} {invite : InviteCode} (hl : s.inviteCode.lookup code = some invite)
      (hd : invite.disabled ≤ 0) : Advances E s (.selectInvite code) (.countUses code invite)
  | counted {code : String} {invite : InviteCode} (hf : E.fault .countUses = none)
      (hlt : (usesOf code s : Int) < invite.availableUses) :
      Advances E s (.countUses code invite) .registerActor
  | actor : Advances E s .registerActor .registerAccount
  | account : Advances E s .registerAccount .recordInviteUse
  | use : Advances E s .recordInviteUse .storeRefreshToken
  | token : Advances E s .storeRefreshToken .updateRoot
  | root : Advances E s .updateRoot .returned

theorem Advances.of_countUses {E : Env} {s : Db} {stage : Stage} {code : String}
    {invite : InviteCode} (h : Advances E s stage (.countUses code invite)) :
    stage = .selectInvite code ∧ s.inviteCode.lookup code = some invite ∧ invite.disabled ≤ 0 := by
  cases h with
  | found hl hd => exact ⟨rfl, hl, hd⟩

theorem Advances.of_registerActor {E : Env} {s : Db} {stage : Stage}
    (h : Advances E s stage .registerActor) : ∃ code invite, stage = .countUses code invite ∧
      E.fault .countUses = none ∧ (usesOf code s : Int) < invite.availableUses := by
  cases h with
  | counted hf hlt => exact ⟨_, _, rfl, hf, hlt⟩

/-- A statement whose answer is only the next stage. -/
theorem exec_then_ok {x : Call Unit} {stage stage' : Stage} {s t : Db}
    (h : (x >>= fun _ => (pure stage : Call Stage)).exec s = (.ok stage', t)) :
    stage' = stage ∧ x.exec s = (.ok (), t) := by
  obtain ⟨_, u, hx, hp⟩ := exec_bind_ok.1 h
  rw [exec_pure, Prod.mk.injEq, Except.ok.injEq] at hp
  obtain ⟨rfl, rfl⟩ := hp
  exact ⟨rfl, hx⟩

theorem advances_of_ok {T : SignUp} {s t : Db} {stage' : Stage} (hend : T.ended = false)
    (h : T.next.exec s = (.ok stage', t)) : Advances T.env s T.stage stage' := by
  simp only [SignUp.ended, decide_eq_false_iff_not, not_or] at hend
  unfold SignUp.next at h
  cases hs : T.stage with
  | selectInvite code =>
    rw [hs] at h
    obtain ⟨invite, u, hfind, hp⟩ := exec_bind_ok.1 h
    cases hp
    obtain ⟨-, hl, hd, -⟩ := findInvite_ok.1 hfind
    exact .found hl hd
  | countUses code invite =>
    rw [hs] at h
    obtain ⟨rfl, hx⟩ := exec_then_ok h
    obtain ⟨hf, hlt, -⟩ := checkUses_ok.1 hx
    exact .counted hf hlt
  | registerActor => rw [hs] at h; obtain ⟨rfl, -⟩ := exec_then_ok h; exact .actor
  | registerAccount => rw [hs] at h; obtain ⟨rfl, -⟩ := exec_then_ok h; exact .account
  | recordInviteUse => rw [hs] at h; obtain ⟨rfl, -⟩ := exec_then_ok h; exact .use
  | storeRefreshToken => rw [hs] at h; obtain ⟨rfl, -⟩ := exec_then_ok h; exact .token
  | updateRoot => rw [hs] at h; obtain ⟨rfl, -⟩ := exec_then_ok h; exact .root
  | returned => exact absurd hs hend.1
  | failed => exact absurd hs hend.2

theorem keepsCode_next (T : SignUp) (code : String) (s : Db) :
    KeepsCode code s (T.next.exec s).2 := by
  refine .of_eq ?_
  by_cases h : T.stage = .recordInviteUse
  · have hkeep : Keeps T.next fun s t => t.inviteCode = s.inviteCode := by
      unfold SignUp.next
      rw [h]
      have refl : ∀ s : Db, s.inviteCode = s.inviteCode := fun _ => rfl
      refine Keeps.bind (fun _ _ _ h k => k.trans h) ?_ fun _ => keeps_pure refl _
      unfold recordInviteUse
      split
      · exact keeps_pure refl _
      · exact keeps_execute refl _ _ fun _ => rfl
    exact hkeep s
  · exact (sameInvites_nextStage T.env T.opts T.prepared h s).1

/-- A statement that is refused, or is not `record_invite_use`, leaves the uses. -/
theorem usesOf_next {T : SignUp} {s t : Db} {r : Except AccountError Stage} (code : String)
    (h : T.next.exec s = (r, t)) (hr : T.stage ≠ .recordInviteUse ∨ ∃ e, r = .error e) :
    usesOf code t = usesOf code s := by
  by_cases hs : T.stage = .recordInviteUse
  · obtain ⟨e, rfl⟩ := hr.resolve_left fun hn => hn hs
    unfold SignUp.next at h
    rw [hs] at h
    rcases exec_bind_error.1 h with h | ⟨_, _, -, h⟩
    · unfold recordInviteUse at h
      split at h
      · cases h
      · rw [clean_execute _ _ _ s e t h]
    · cases h
  · have hsame := (sameInvites_nextStage T.env T.opts T.prepared hs s).2
    have ht : (T.next.exec s).2 = t := by rw [h]
    unfold SignUp.next at ht
    rw [ht] at hsame
    simp only [usesOf, hsame]

/-- `record_invite_use` adds one use of the call's code. -/
theorem usesOf_next_record {T : SignUp} {s t : Db} {stage : Stage} (code : String)
    (h : T.next.exec s = (.ok stage, t)) (hs : T.stage = .recordInviteUse) :
    usesOf code t = usesOf code s + (T.usesCode code).toNat := by
  unfold SignUp.next at h
  rw [hs] at h
  obtain ⟨-, hx⟩ := exec_then_ok h
  obtain ⟨hok, rfl⟩ := (does_recordInviteUse _ _ _ _ _ _).1 hx
  unfold SignUp.usesCode
  cases hcode : T.opts.inviteCode with
  | none => rfl
  | some c =>
    refine (usesOf_insert (hok c hcode).2).trans ?_
    by_cases hc : c = code <;> simp [hc]

/-! ## The invariant -/

/-- The stages after `register_actor`, and after `record_invite_use`. -/
def Stage.afterRegister : Stage → Bool
  | .registerAccount | .recordInviteUse | .storeRefreshToken | .updateRoot | .returned => true
  | _ => false

def Stage.afterRecord : Stage → Bool
  | .storeRefreshToken | .updateRoot | .returned => true
  | _ => false

/-- The history of a call is that of its stage. -/
structure SignUp.History (T : SignUp) : Prop where
  registered_of_recorded : T.recorded = true → T.registered = true
  stage : T.stage = .failed ∨
    (T.registered = T.stage.afterRegister ∧ T.recorded = T.stage.afterRecord)

/-- What holds of a call with the code. -/
structure CodeInv (code : String) (db : Db) (T : SignUp) : Prop where
  selects : ∀ c, T.stage = .selectInvite c → c = code
  counts : ∀ c invite, T.stage = .countUses c invite → c = code ∧
    ∃ row, db.inviteCode.lookup code = some row ∧ row.availableUses = invite.availableUses
  disabled : T.disabledBefore = true → codeDisabled code db = true ∧
    T.claims = false ∧ ∀ c invite, T.stage ≠ .countUses c invite
  takenDown : T.claims = true → T.takenDownBefore = false

theorem CodeInv.mono {code : String} {s t : Db} {T : SignUp} (h : CodeInv code s T)
    (hk : KeepsCode code s t) : CodeInv code t T where
  selects := h.selects
  counts c invite hs := by
    obtain ⟨hc, row, hl, hrow⟩ := h.counts c invite hs
    obtain ⟨row', hl', hrow', -⟩ := hk row hl
    exact ⟨hc, row', hl', hrow'.trans hrow⟩
  disabled hd := ⟨hk.disabled (h.disabled hd).1, (h.disabled hd).2⟩
  takenDown := h.takenDown

/-- The calls with the code that have created an account or are past the check. -/
def claimsOf (code : String) (W : World) : Nat :=
  W.signUps.countP fun T => T.usesCode code && T.claims

def recordedOf (code : String) (W : World) : Nat :=
  W.signUps.countP fun T => T.usesCode code && T.recorded

structure InviteInv (code : String) (earlier : Nat) (W : World) : Prop where
  history : ∀ T ∈ W.signUps, T.History
  ofCode : ∀ T ∈ W.signUps, T.usesCode code = true → CodeInv code W.db T
  uses : usesOf code W.db = earlier + recordedOf code W
  room : 0 < claimsOf code W → ∃ invite, W.db.inviteCode.lookup code = some invite ∧
    ((earlier + claimsOf code W : Nat) : Int) ≤ invite.availableUses

section

variable {code : String} {earlier : Nat} {W : World}

/-- The claims are those on record and those not. -/
theorem InviteInv.claimsOf_eq (h : InviteInv code earlier W) :
    earlier + claimsOf code W = usesOf code W.db + unrecorded code W := by
  have hsplit : claimsOf code W = recordedOf code W + unrecorded code W := by
    unfold claimsOf recordedOf unrecorded
    rw [countP_split (q := fun T => T.usesCode code && T.recorded)]
    · congr 2
      funext T
      cases T.usesCode code <;> simp
    · intro T hT hr
      simp only [Bool.and_eq_true] at hr ⊢
      refine ⟨hr.1, ?_⟩
      unfold SignUp.claims
      rw [(h.history T hT).registered_of_recorded hr.2]
      rfl
  rw [h.uses, hsplit, Nat.add_assoc]

/-- The invariant gives the property. -/
theorem InviteInv.respects (h : InviteInv code earlier W) : RespectsInvite code earlier W where
  bound hpos := by
    have hle : accountsCreated code W ≤ claimsOf code W := by
      refine List.countP_mono_left fun T _ hT => ?_
      simp only [Bool.and_eq_true, SignUp.claims, Bool.or_eq_true] at hT ⊢
      exact ⟨hT.1, .inl hT.2⟩
    obtain ⟨invite, hl, hroom⟩ := h.room (by omega)
    exact ⟨invite, hl, by omega⟩
  before T hT hcode hreg := by
    have hinv := h.ofCode T hT hcode
    have hclaims : T.claims = true := by
      unfold SignUp.claims
      rw [hreg]
      rfl
    refine ⟨?_, hinv.takenDown hclaims⟩
    cases hd : T.disabledBefore with
    | false => rfl
    | true =>
      rw [(hinv.disabled hd).2.1] at hclaims
      cases hclaims

/-- A step that changes one call. -/
theorem InviteInv.set {db : Db} {i : Nat} {T T' : SignUp} (h : InviteInv code earlier W)
    (hi : W.signUps[i]? = some T) (hkeep : KeepsCode code W.db db)
    (hsame : T'.usesCode code = T.usesCode code) (hhist : T'.History)
    (hcode : T.usesCode code = true → CodeInv code db T')
    (huses : usesOf code db + (T.usesCode code && T.recorded).toNat =
      usesOf code W.db + (T.usesCode code && T'.recorded).toNat)
    (hclaims : T.usesCode code = true → T'.claims = true → T.claims = true ∨
      ∃ invite, W.db.inviteCode.lookup code = some invite ∧
        ((usesOf code W.db + unrecorded code W : Nat) : Int) < invite.availableUses) :
    InviteInv code earlier ⟨db, W.signUps.set i T'⟩ where
  history := forall_mem_set hhist h.history
  ofCode := forall_mem_set (fun hu => hcode (hsame ▸ hu)) fun T hT hu =>
    (h.ofCode T hT hu).mono hkeep
  uses := by
    have hcount := countP_set_add (b := T') (fun T => T.usesCode code && T.recorded) hi
    have hold := h.uses
    simp only [hsame] at hcount
    simp only [recordedOf] at hold ⊢
    omega
  room hpos := by
    have hcount := countP_set_add (b := T') (fun T => T.usesCode code && T.claims) hi
    simp only [hsame] at hcount
    simp only [claimsOf] at hpos ⊢
    have heq := h.claimsOf_eq
    have hroom := h.room
    simp only [claimsOf] at heq hroom
    by_cases hmore : T.usesCode code = true ∧ T'.claims = true ∧ T.claims = false
    · obtain ⟨hu, hc', hc⟩ := hmore
      obtain ⟨invite, hl, hlt⟩ := (hclaims hu hc').resolve_left (by rw [hc]; decide)
      obtain ⟨invite', hl', hav, -⟩ := hkeep invite hl
      rw [hu, hc, hc'] at hcount
      simp only [Bool.and_self, Bool.and_false, Bool.toNat_true, Bool.toNat_false] at hcount
      exact ⟨invite', hl', by omega⟩
    · have hle : (T.usesCode code && T'.claims).toNat ≤ (T.usesCode code && T.claims).toNat := by
        cases hu : T.usesCode code <;> cases hc : T.claims <;> cases hc' : T'.claims <;>
          simp [hu, hc, hc'] at hmore ⊢
      obtain ⟨invite, hl, hle'⟩ := hroom (by omega)
      obtain ⟨invite', hl', hav, -⟩ := hkeep invite hl
      exact ⟨invite', hl', by omega⟩

/-- A step that changes the database only. -/
theorem InviteInv.db {db : Db} (h : InviteInv code earlier W) (hkeep : KeepsCode code W.db db)
    (huses : usesOf code db = usesOf code W.db) : InviteInv code earlier { W with db } where
  history := h.history
  ofCode T hT hu := (h.ofCode T hT hu).mono hkeep
  uses := huses.trans h.uses
  room hpos := by
    obtain ⟨invite, hl, hle⟩ := h.room hpos
    obtain ⟨invite', hl', hav, -⟩ := hkeep invite hl
    exact ⟨invite', hl', by rw [hav]; exact hle⟩

/-- A call that starts. -/
theorem InviteInv.enter (h : InviteInv code earlier W) (E : Env) (opts : CreateAccountOpts)
    (p : Prepared) :
    InviteInv code earlier { W with signUps := W.signUps ++ [.enter E opts p W.db] } := by
  have hstage : ∀ c invite, (SignUp.enter E opts p W.db).stage ≠ .countUses c invite := by
    intro c invite
    unfold SignUp.enter firstStage
    cases opts.inviteCode <;> simp
  have hclaims : (SignUp.enter E opts p W.db).usesCode code = true →
      (SignUp.enter E opts p W.db).claims = false := by
    unfold SignUp.usesCode SignUp.claims SignUp.enter firstStage
    cases opts.inviteCode <;> simp
  refine ⟨?_, ?_, ?_, ?_⟩
  · intro T hT
    rcases List.mem_append.1 hT with hT | hT
    · exact h.history T hT
    · rw [List.mem_singleton.1 hT]
      refine ⟨fun hr => absurd hr Bool.false_ne_true, .inr ?_⟩
      unfold SignUp.enter firstStage
      cases opts.inviteCode <;> exact ⟨rfl, rfl⟩
  · intro T hT hu
    rcases List.mem_append.1 hT with hT | hT
    · exact h.ofCode T hT hu
    · rw [List.mem_singleton.1 hT] at hu ⊢
      have hcode : opts.inviteCode = some code := of_decide_eq_true hu
      refine ⟨fun c hs => ?_, fun c invite hs => absurd hs (hstage c invite), fun hd => ?_,
        fun hc => by rw [hclaims hu] at hc; cases hc⟩
      · unfold SignUp.enter firstStage at hs
        rw [hcode] at hs
        cases hs
        rfl
      · refine ⟨?_, hclaims hu, hstage⟩
        unfold SignUp.enter at hd
        rw [hcode] at hd
        exact hd
  · have hrec : recordedOf code { W with signUps := W.signUps ++ [.enter E opts p W.db] } =
        recordedOf code W := by
      simp [recordedOf, List.countP_append, SignUp.enter]
    rw [hrec]
    exact h.uses
  · have hsame : claimsOf code { W with signUps := W.signUps ++ [.enter E opts p W.db] } =
        claimsOf code W := by
      unfold claimsOf
      rw [List.countP_append, List.countP_singleton]
      cases hu : (SignUp.enter E opts p W.db).usesCode code with
      | false => simp
      | true => simp [hclaims hu]
    rw [hsame]
    exact h.room

theorem SignUp.History.fail {T : SignUp} (h : T.History) :
    { T with stage := .failed : SignUp }.History :=
  ⟨h.registered_of_recorded, .inl rfl⟩

theorem CodeInv.fail {db : Db} {T : SignUp} (h : CodeInv code db T) :
    CodeInv code db { T with stage := .failed } where
  selects _ hs := by cases hs
  counts _ _ hs := by cases hs
  disabled hd := by
    obtain ⟨hdis, hclaims, -⟩ := h.disabled hd
    refine ⟨hdis, ?_, fun c invite hs => by cases hs⟩
    simp only [SignUp.claims, Bool.or_eq_false_iff] at hclaims ⊢
    exact ⟨hclaims.1, rfl⟩
  takenDown hc := by
    refine h.takenDown ?_
    simp only [SignUp.claims, Bool.or_eq_true, decide_eq_true_eq, reduceCtorEq, or_false] at hc ⊢
    exact .inl hc

/-- A call that fails, or is dropped. -/
theorem InviteInv.fail {db : Db} {i : Nat} {T : SignUp} (h : InviteInv code earlier W)
    (hi : W.signUps[i]? = some T) (hkeep : KeepsCode code W.db db)
    (huses : usesOf code db = usesOf code W.db) :
    InviteInv code earlier ⟨db, W.signUps.set i { T with stage := .failed }⟩ := by
  have hT := List.mem_of_getElem? hi
  refine h.set hi hkeep rfl (h.history T hT).fail
    (fun hu => ((h.ofCode T hT hu).mono hkeep).fail) (by rw [huses]) fun _ hc => .inl ?_
  simp only [SignUp.claims, Bool.or_eq_true, decide_eq_true_eq, reduceCtorEq, or_false] at hc ⊢
  exact .inl hc

/-- The history of a call that goes on. -/
theorem SignUp.History.advance {T : SignUp} {s : Db} {stage : Stage} (h : T.History)
    (ha : Advances T.env s T.stage stage) : (T.after (.ok stage)).History := by
  have hstage : T.registered = T.stage.afterRegister ∧ T.recorded = T.stage.afterRecord := by
    refine h.stage.resolve_left fun hf => ?_
    rw [hf] at ha
    cases ha
  obtain ⟨hreg, hrec⟩ := hstage
  unfold SignUp.after
  generalize T.stage = before at ha hreg hrec ⊢
  cases ha <;>
    refine ⟨?_, .inr ?_⟩ <;>
    simp [hreg, hrec, Stage.afterRegister, Stage.afterRecord]

/-- A call that goes on: the one step that adds a claim is a check that lets it through. -/
theorem InviteInv.advance {db : Db} {i : Nat} {T : SignUp} {stage : Stage}
    (h : InviteInv code earlier W) (hroom : RoomLeft code W (.advance i))
    (hi : W.signUps[i]? = some T) (hend : T.ended = false)
    (hx : T.next.exec W.db = (.ok stage, db)) :
    InviteInv code earlier ⟨db, W.signUps.set i (T.after (.ok stage))⟩ := by
  have hT := List.mem_of_getElem? hi
  have ha := advances_of_ok hend hx
  have hkeep : KeepsCode code W.db db := by
    have := keepsCode_next T code W.db
    rwa [hx] at this
  have hhist := (h.history T hT).advance ha
  have hinv := fun hu => h.ofCode T hT hu
  -- the statement's own effect on the uses
  have huses : usesOf code db + (T.usesCode code && T.recorded).toNat =
      usesOf code W.db + (T.usesCode code && (T.after (.ok stage)).recorded).toNat := by
    by_cases hs : T.stage = .recordInviteUse
    · have hrec : T.recorded = false := by
        have := ((h.history T hT).stage.resolve_left (by rw [hs]; decide)).2
        rwa [hs] at this
      rw [usesOf_next_record code hx hs]
      simp [SignUp.after, hs, hrec]
    · rw [usesOf_next code hx (.inl hs)]
      simp [SignUp.after, hs]
  -- past the check only through it
  have hpast : T.usesCode code = true → stage = .registerActor →
      ∃ invite, T.stage = .countUses code invite ∧ ∃ row,
        W.db.inviteCode.lookup code = some row ∧
        ((usesOf code W.db + unrecorded code W : Nat) : Int) < row.availableUses ∧
        T.takenDownBefore = false := by
    rintro hu rfl
    obtain ⟨c, invite, hs, hf, hlt⟩ := ha.of_registerActor
    obtain ⟨rfl, row, hl, hav⟩ := (hinv hu).counts c invite hs
    have hfor : RoomFor c W T T.stage := hroom T hi
    rw [hs] at hfor
    obtain ⟨hleft, htaken⟩ := hfor rfl hf hlt
    exact ⟨invite, hs, row, hl, by rw [hav]; exact hleft, htaken⟩
  refine h.set hi hkeep rfl hhist (fun hu => ⟨?_, ?_, fun hd => ?_, fun hc => ?_⟩) huses
    fun hu hc => ?_
  · intro c hs
    change stage = .selectInvite c at hs
    subst hs
    cases hbefore : T.stage <;> rw [hbefore] at ha <;> cases ha
  · intro c invite hs
    change stage = .countUses c invite at hs
    subst hs
    obtain ⟨hbefore, hl, -⟩ := ha.of_countUses
    obtain rfl := (hinv hu).selects c hbefore
    obtain ⟨row, hl', hav, -⟩ := hkeep invite hl
    exact ⟨rfl, row, hl', hav⟩
  · obtain ⟨hdis, hclaims, hcount⟩ := (hinv hu).disabled hd
    refine ⟨hkeep.disabled hdis, ?_, ?_⟩
    · rw [T.claims_after, hclaims, Bool.false_or, decide_eq_false_iff_not]
      intro hs
      obtain ⟨invite, hbefore, -⟩ := hpast hu hs
      exact hcount _ _ hbefore
    · intro c invite hs
      change stage = .countUses c invite at hs
      subst hs
      obtain ⟨hbefore, hl, hle⟩ := ha.of_countUses
      obtain rfl := (hinv hu).selects c hbefore
      unfold codeDisabled at hdis
      rw [hl] at hdis
      exact absurd (of_decide_eq_true hdis) (Int.not_lt.2 hle)
  · rw [T.claims_after, Bool.or_eq_true, decide_eq_true_eq] at hc
    rcases hc with hc | hs
    · exact (hinv hu).takenDown hc
    · obtain ⟨-, -, -, -, -, htaken⟩ := hpast hu hs
      exact htaken
  · rw [T.claims_after, Bool.or_eq_true, decide_eq_true_eq] at hc
    refine hc.imp_right fun hs => ?_
    obtain ⟨-, -, row, hl, hleft, -⟩ := hpast hu hs
    exact ⟨row, hl, hleft⟩

end

/-- A statement of somebody else. -/
def KeepsInvites (code : String) (s t : Db) : Prop :=
  KeepsCode code s t ∧ t.inviteCodeUse = s.inviteCodeUse

theorem keepsInvites_execute {code : String} (fault : Option String)
    (refuse : Db → Option AccountError) {f : Db → Db} (hf : ∀ s, KeepsCode code s (f s))
    (hu : ∀ s, (f s).inviteCodeUse = s.inviteCodeUse) :
    Keeps (execute fault refuse f) (KeepsInvites code) :=
  keeps_execute (fun _ => ⟨.of_eq rfl, rfl⟩) fault refuse fun s => ⟨hf s, hu s⟩

theorem InviteInv.other {code : String} {earlier : Nat} {W : World} {x : Call Unit}
    (h : InviteInv code earlier W) (hx : Keeps x (KeepsInvites code)) :
    InviteInv code earlier { W with db := (x.exec W.db).2 } := by
  obtain ⟨hkeep, huses⟩ := hx W.db
  exact h.db hkeep (by simp only [usesOf, huses])

/-- Every step that leaves room keeps the invariant. -/
theorem inviteInv_step {code : String} {earlier : Nat} (W : World) (a : Action) (W' : World)
    (h : InviteInv code earlier W) (hroom : RoomLeft code W a) (hstep : step W a = some W') :
    InviteInv code earlier W' := by
  cases a with
  | call E opts =>
    simp only [step] at hstep
    split at hstep <;> cases hstep
    · exact h
    · exact h.enter E opts _
  | advance i =>
    simp only [step] at hstep
    split at hstep
    · cases hstep
    rename_i T hi
    split at hstep
    · cases hstep
    rename_i hend
    cases hstep
    cases hx : T.next.exec W.db with
    | mk r db =>
      cases r with
      | ok stage => exact h.advance hroom hi (Bool.eq_false_iff.2 hend) hx
      | error e =>
        have hkeep := keepsCode_next T code W.db
        rw [hx] at hkeep
        exact h.fail hi hkeep (usesOf_next code hx (.inr ⟨e, rfl⟩))
  | drop i =>
    simp only [step] at hstep
    split at hstep <;> cases hstep
    exact h.fail ‹_› (.of_eq rfl) rfl
  | disableCodes fault codes =>
    cases hstep
    exact h.other (keepsInvites_execute fault _ (keepsCode_disable code _) fun _ => rfl)
  | disableForAccounts fault accounts =>
    cases hstep
    exact h.other (keepsInvites_execute fault _ (keepsCode_disable code _) fun _ => rfl)
  | updateAccountTakedownStatus fault did takedownRef =>
    cases hstep
    exact h.other (keepsInvites_execute fault _ (fun _ => .of_eq rfl) fun _ => rfl)

theorem inviteInv_start (code : String) (db : Db) :
    InviteInv code (usesOf code db) (World.start db) where
  history _ hT := by cases hT
  ofCode _ hT := by cases hT
  uses := rfl
  room hpos := absurd hpos (Nat.lt_irrefl 0)

/-- Along a run whose checks leave room, a code makes no more accounts than it has uses, and none
that it should not make. -/
theorem respectsInvite_of_roomLeft (code : String) (db : Db) (as : List Action)
    (h : Along step (RoomLeft code) (World.start db) as) :
    Always step (RespectsInvite code (usesOf code db)) (World.start db) as :=
  (always_of_along inviteInv_step (inviteInv_start code db) as h).mono fun _ => InviteInv.respects

/-- A code with one use, given to Alice. -/
def oneUse : InviteCode := ⟨1, 0, "did:plc:alice"⟩

def withOneUse (takedownRef : Option String) : Db :=
  { Db.empty with
    actor := Db.empty.actor.insert "did:plc:alice"
      ⟨some "alice.test", "2026-07-01T00:00:00.000Z", takedownRef, none, none⟩
    inviteCode := Db.empty.inviteCode.insert "x-test-code" oneUse }

def signsUp (did handle : String) : Action :=
  .call workingEnv { bobsOpts with did, handle, email := none, inviteCode := some "x-test-code" }

/-- Bob's sign-up runs to its end before Carol's starts, which the check then refuses. -/
def inTurn : List Action :=
  signsUp "did:plc:bob" "bob.test" :: List.replicate 7 (.advance 0) ++
    signsUp "did:plc:carol" "carol.test" :: List.replicate 2 (.advance 1)

theorem respectsInvite_inTurn :
    (∃ W, run step (World.start (withOneUse none)) inTurn = some W ∧
        accountsCreated "x-test-code" W = 1) ∧
      Always step (RespectsInvite "x-test-code" (usesOf "x-test-code" (withOneUse none)))
        (World.start (withOneUse none)) inTurn :=
  ⟨⟨_, rfl, rfl⟩, respectsInvite_of_roomLeft _ _ _ (by decide)⟩

/-- Both check before either records: one use makes two accounts. -/
theorem two_signUps_one_use :
    ¬ ∀ code db as, Always step (RespectsInvite code (usesOf code db)) (World.start db) as := by
  intro h
  have hrun : ∃ W, run step (World.start (withOneUse none))
      [signsUp "did:plc:bob" "bob.test", signsUp "did:plc:carol" "carol.test", .advance 0,
        .advance 1, .advance 0, .advance 1, .advance 0, .advance 1] = some W ∧
      accountsCreated "x-test-code" W = 2 ∧
      W.db.inviteCode.lookup "x-test-code" = some oneUse := ⟨_, rfl, rfl, rfl⟩
  obtain ⟨W, hW, htwo, hcode⟩ := hrun
  obtain ⟨invite, hl, hle⟩ :=
    ((h "x-test-code" _ _).last hW).bound (by rw [htwo]; exact Nat.two_pos)
  obtain rfl : oneUse = invite := Option.some.inj (hcode.symm.trans hl)
  rw [htwo] at hle
  exact absurd hle (by decide)

/-- The code of a taken down owner works as before. -/
example : ∃ W, run step (World.start (withOneUse (some "mod-1")))
    (signsUp "did:plc:bob" "bob.test" :: List.replicate 3 (.advance 0)) = some W ∧
    W.signUps.map (fun T => (T.registered, T.takenDownBefore)) = [(true, true)] :=
  ⟨_, rfl, rfl⟩

end CacosPds.Account
