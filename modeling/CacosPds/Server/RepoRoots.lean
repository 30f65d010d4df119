import CacosPds.Lib.Snapshots
import CacosPds.Server.CommitLog
import CacosPds.Server.SignUpPaths
import CacosPds.Server.UploadedBlobs
/-!
# A repo's root in two databases (`helpers/repo.rs:27`, `server/create_account.rs:252`)

| here | there |
| --- | --- |
| `innerApplyWrites` | `inner_apply_writes` (`repo/apply_writes.rs:89`) |
| `SignUp`        | a `createAccount`, with its call of `create_repo` |
| `RepoWrite`     | a `createRecord`, `putRecord`, `deleteRecord` or `applyWrites` |
| `AgreesAfter`   | a request that succeeds leaves the DID's `repo_root` row like the root of its actor store |
| `Transaction`   | a call of `update_root`, or one that is about other tables |

Only a sign-up calls `update_root`. A write moves the root of the actor store and returns, so the
row is behind from the first one on (`agreesAfter_iff`). The row itself never goes back:
`update_root` compares and writes in one transaction (`neverDecreases_of_run`).
-/
namespace CacosPds.Server.RepoRoots

open Stages Sql Runs
open ActorStore (Store CommitDataWithOps CommitData BlobsPass)
open Sequencer (RepoSeqNew formatSeqCommit)

/-! ## Requests -/

structure Databases where
  server : State
  /-- The actors' databases; a DID without one has no `store.sqlite`. -/
  stores : String → Store
  /-- What the writes have sequenced. -/
  sequenced : List RepoSeqNew

def Databases.start : Databases := ⟨.empty, ActorStore.emptyStore, []⟩

/-- `create_repo`, as a server's `env` knows it. -/
structure FirstCommit (E : Env) where
  /-- `Repo::format_init_commit`. -/
  formatInitCommit : Except PdsError CommitData
  faults : ActorStore.Faults
  clock : ActorStore.Clock
  /-- The blocks encode the commit. -/
  encodes : ∀ init, formatInitCommit = .ok init → init.repo.rev = init.rev
  commit : ∀ init, formatInitCommit = .ok init → E.commit = ⟨init.cid, init.rev⟩
  outcome : ∀ did, E.faults.access .createRepo = none ↔ ∃ init t, formatInitCommit = .ok init ∧
    (ActorStore.createRepo faults clock init).exec (ActorStore.emptyStore did) = (.ok (), t)

/-- The database that it leaves of a new one. -/
def FirstCommit.store {E : Env} (c : FirstCommit E) (did : String) : Store :=
  match c.formatInitCommit with
  | .ok init => ((ActorStore.createRepo c.faults c.clock init).exec (ActorStore.emptyStore did)).2
  | .error _ => ActorStore.emptyStore did

structure SignUp where
  env : Env
  requester : Option String
  checked : Except ApiError CheckedInput
  first : FirstCommit env

/-- `inner_create_account` up to `create_repo`. -/
def beforeRepo (E : Env) (did : String) (plcRotationKey : Option Keypair) : Call ApiError Unit := do
  mapError (fun e => handlerFlow.exit (.createActor e)) (actorCreate E.faults did E.signingKey)
  persistRotationKey E handlerFlow did plcRotationKey
  orDestroy E handlerFlow did .openActor (transact E)

/-- The databases after a sign-up: a new one for a DID without one, with a repo in it if the handler
gets there. -/
def SignUp.stores (r : SignUp) (D : Databases) : String → Store :=
  match r.checked >>= validateDid r.env r.requester with
  | .ok v =>
    if hasDb v.did D.server then D.stores
    else Function.update D.stores v.did <|
      match (beforeRepo r.env v.did v.plcRotationKey).exec D.server with
      | (.ok _, _) => r.first.store v.did
      | (.error _, _) => ActorStore.emptyStore v.did
  | .error _ => D.stores

structure RepoWrite where
  call : RepoCall
  /-- What `transact` fails with where the database is there. -/
  transact : Option PdsError
  insertEvt : Option String
  now : Sequencer.Instant

/-- `ActorStore::transact` opens the DID's database, and makes none. -/
def RepoWrite.env (X : Foreign) (q : RepoWrite) (did : String) (s : State) : WriteEnv :=
  { q.call.env X with
    transact :=
      if hasDb did s then q.transact else some (.notFound ("Repo not found: " ++ did))
    insertEvt := q.insertEvt
    now := q.now }

def innerApplyWrites (E : WriteEnv) (nextRkey : Nat → String) (body : ApplyWritesInput)
    (did : Option String) : RecordCall Unit := do
  let p ← ofExcept (prepareApplyWrites E.records nextRkey did body)
  writeAll E p.did p.writes p.swapCid

/-- The handler, without the body of its answer. -/
def handleRepo (E : WriteEnv) (call : RepoCall) : RecordCall Unit :=
  match call.request with
  | .record req => do
    let _ ← req.handle E call.requester
    return ()
  | .applyWrites body => innerApplyWrites E call.nextRkey body call.requester

inductive Request where
  | createAccount (r : SignUp)
  | repo (q : RepoWrite)

/-- The DID that a request succeeds for, and what it leaves. -/
def handle (X : Foreign) (D : Databases) : Request → Option String × Databases
  | .createAccount r =>
    let x := (innerCreateAccount r.env r.requester r.checked).exec D.server
    (x.1.toOption.map CreateAccountOutput.did, { D with server := x.2, stores := r.stores D })
  | .repo q =>
    match q.call.requester with
    -- `requester_did` refuses it
    | none => (none, D)
    | some did =>
      let x := (handleRepo (q.env X did D.server) q.call).exec ⟨D.stores did, D.sequenced⟩
      (x.1.toOption.map fun _ => did,
        { D with stores := Function.update D.stores did x.2.store, sequenced := x.2.sequenced })

def step (X : Foreign) (D : Databases) (r : Request) : Option Databases := some (handle X D r).2

/-- The row of the DID has the CID and the rev of its store's root. -/
def SameRoot (D : Databases) (did : String) : Prop :=
  ∃ row root, D.server.account.repoRoot.lookup did = some row ∧
    (D.stores did).repoRoot = some root ∧ row.cid = root.cid ∧ row.rev = root.rev

def AgreesAfter (X : Foreign) (D : Databases) (r : Request) : Prop :=
  ∀ did, (handle X D r).1 = some did → SameRoot (handle X D r).2 did

/-- The input is good, the DID has a database, and no access fails. -/
structure Succeeds (X : Foreign) (D : Databases) (q : RepoWrite) (did : String) (p : PreparedBatch)
    (r : CommitDataWithOps) : Prop where
  requester : q.call.requester = some did
  hasDb : hasDb did D.server = true
  transact : q.transact = none
  prepared : q.call.prepare X = .ok p
  applied : appliedCommit X.repo q.call.faults (D.stores did) p.writes p.swapCid = some r
  blobs : BlobsPass q.call.faults (D.stores did) p.writes
  event : ∃ evt, formatSeqCommit X.encoders did r q.now = .ok evt
  insertEvt : q.insertEvt = none

/-- The request is one of the four, and goes through. -/
def WritesThrough (X : Foreign) (D : Databases) : Request → Prop
  | .createAccount _ => False
  | .repo q => ∃ did p r, Succeeds X D q did p r

/-! ## `update_root` -/

/-- What a transaction on the account database does. -/
inductive Transaction where
  | updateRoot (now did : String) (cid : Cid) (rev : String)
  | elsewhere (f : Account.Db → Option Account.Db)
      (same : ∀ db new, f db = some new → new.repoRoot = db.repoRoot)

def Transaction.body : Transaction → Account.Db → Option Account.Db
  | .updateRoot now did cid rev, db =>
    match (Account.updateRoot none now did cid rev).exec db with
    | (.ok _, new) => some new
    | (.error _, _) => none
  | .elsewhere f _, db => f db

/-- Each row is still there, and its rev no smaller. -/
def NeverDecreases (s t : Account.Db) : Prop :=
  ∀ did row, s.repoRoot.lookup did = some row →
    ∃ row', t.repoRoot.lookup did = some row' ∧ row.rev ≤ row'.rev

structure RootsAgree (X : Foreign) (requests : List Request) : Prop where
  agrees : Along (step X) (AgreesAfter X) .start requests
  neverDecreases : ∀ db as bs s t,
    run (Snapshots.step Transaction.body) (.start db) as = some s →
    run (Snapshots.step Transaction.body) s bs = some t → NeverDecreases s.db t.db

theorem neverDecreases_refl (s : Account.Db) : NeverDecreases s s :=
  fun _ row h => ⟨row, h, le_rfl⟩

theorem neverDecreases_trans (s t u : Account.Db) (h : NeverDecreases s t)
    (k : NeverDecreases t u) : NeverDecreases s u := by
  intro did row hrow
  obtain ⟨row', hrow', hle⟩ := h did row hrow
  obtain ⟨row'', hrow'', hle'⟩ := k did row' hrow'
  exact ⟨row'', hrow'', hle.trans hle'⟩

/-- The comparison and the write see the same row. -/
theorem neverDecreases_body (a : Transaction) (s t : Account.Db) (h : a.body s = some t) :
    NeverDecreases s t := by
  cases a with
  | elsewhere f same =>
    intro did row hrow
    refine ⟨row, ?_, le_rfl⟩
    rw [same s t h]
    exact hrow
  | updateRoot now did cid rev =>
    simp only [Transaction.body] at h
    split at h
    · rename_i new hexec
      cases h
      obtain ⟨⟨-, hle⟩, rfl⟩ := (Account.does_updateRoot none now did cid rev s _).1 hexec
      intro d row hrow
      by_cases hd : d = did
      · subst hd
        refine ⟨⟨cid, rev, now⟩, ?_, hle row hrow⟩
        rw [Table.lookup_insert_eq, if_pos rfl]
      · refine ⟨row, ?_, le_rfl⟩
        rw [Table.lookup_insert_eq, if_neg hd]
        exact hrow
    · cases h

theorem neverDecreases_of_run {db : Account.Db} {as bs : List (Snapshots.Act Transaction)}
    {s t : Snapshots.Pool Account.Db Transaction}
    (hs : run (Snapshots.step Transaction.body) (.start db) as = some s)
    (ht : run (Snapshots.step Transaction.body) s bs = some t) : NeverDecreases s.db t.db :=
  Snapshots.related_of_run neverDecreases_refl neverDecreases_trans neverDecreases_body
    (Snapshots.inv_of_run (Snapshots.inv_start db) hs) ht

/-! ## A write -/

section

variable {X : Foreign} {D : Databases} {q : RepoWrite} {did : String} {p : PreparedBatch}

theorem requesterDid_ok {requester : Option String} :
    requesterDid requester = .ok did ↔ requester = some did := by
  cases requester with
  | none => simp [requesterDid]
  | some d => simp [requesterDid]

theorem requester_of_prepare {call : RepoCall} (h : call.prepare X = .ok p) :
    call.requester = some p.did := by
  unfold RepoCall.prepare at h
  split at h
  · rename_i req hreq
    cases hp : req.prepare (call.env X) call.requester with
    | error e =>
      rw [hp] at h
      cases h
    | ok one =>
      rw [hp] at h
      cases h
      show call.requester = some one.did
      cases req with
      | create body =>
        obtain ⟨d, hd, hp⟩ := except_bind_ok.1 hp
        simp only [except_bind_ok, pure, Except.pure, Except.ok.injEq] at hp
        obtain ⟨_, -, _, -, _, -, _, -, rfl⟩ := hp
        exact requesterDid_ok.1 hd
      | put body =>
        obtain ⟨d, hd, hp⟩ := except_bind_ok.1 hp
        simp only [except_bind_ok, pure, Except.pure, Except.ok.injEq] at hp
        obtain ⟨_, -, _, -, _, -, rfl⟩ := hp
        exact requesterDid_ok.1 hd
      | delete body =>
        obtain ⟨d, hd, hp⟩ := except_bind_ok.1 hp
        simp only [except_bind_ok, pure, Except.pure, Except.ok.injEq] at hp
        obtain ⟨_, -, _, -, rfl⟩ := hp
        exact requesterDid_ok.1 hd
  · rename_i body hreq
    obtain ⟨d, hd, hp⟩ := except_bind_ok.1 h
    simp only [except_bind_ok, pure, Except.pure, Except.ok.injEq] at hp
    obtain ⟨_, -, _, -, rfl⟩ := hp
    exact requesterDid_ok.1 hd

/-- What the four handlers have in common. -/
theorem exec_handleRepo (s : RepoState) (server : State) :
    (handleRepo (q.env X did server) q.call).exec s =
      match q.call.prepare X with
      | .ok p => (writeAll (q.env X did server) p.did p.writes p.swapCid).exec s
      | .error e => (.error e, s) := by
  unfold handleRepo RepoCall.prepare
  cases q.call.request with
  | record req =>
    have hprepare : req.prepare (q.env X did server) q.call.requester =
        req.prepare (q.call.env X) q.call.requester := by
      cases req <;> rfl
    dsimp only
    rw [exec_bind, handle_eq, respond, exec_bind, exec_ofExcept, hprepare]
    cases req.prepare (q.call.env X) q.call.requester with
    | error e => rfl
    | ok one =>
      dsimp only [Except.map]
      rw [exec_bind, writeRecord_eq]
      rcases (writeAll (q.env X did server) one.did [one.write] one.swapCid).exec s with ⟨e | _, t⟩
      · rfl
      · rfl
  | applyWrites body =>
    have hrecords : (q.env X did server).records = X.records := rfl
    dsimp only
    rw [innerApplyWrites, exec_bind, exec_ofExcept, hrecords]
    cases prepareApplyWrites X.records q.call.nextRkey q.call.requester body with
    | error e => rfl
    | ok p => rfl

theorem transact_env {server : State} : (q.env X did server).transact = none ↔
    hasDb did server = true ∧ q.transact = none := by
  rw [RepoWrite.env]
  by_cases hdb : hasDb did server = true
  · simp [hdb]
  · simp [hdb]

theorem handle_repo_eq (h : q.call.requester = some did) : handle X D (.repo q) =
    (((handleRepo (q.env X did D.server) q.call).exec ⟨D.stores did, D.sequenced⟩).1.toOption.map
      fun _ => did,
    { D with
      stores := Function.update D.stores did
        ((handleRepo (q.env X did D.server) q.call).exec ⟨D.stores did, D.sequenced⟩).2.store
      sequenced :=
        ((handleRepo (q.env X did D.server) q.call).exec ⟨D.stores did, D.sequenced⟩).2.sequenced })
    := by
  simp only [handle, h]

theorem succeeds_iff :
    (handle X D (.repo q)).1 = some did ↔ ∃ p r, Succeeds X D q did p r := by
  constructor
  · intro h
    have hreq : q.call.requester = some did := by
      cases hr : q.call.requester with
      | none => simp [handle, hr] at h
      | some d =>
        rw [handle_repo_eq hr] at h
        obtain ⟨-, -, rfl⟩ := Option.map_eq_some_iff.1 h
        rfl
    rw [handle_repo_eq hreq, exec_handleRepo] at h
    cases hp : q.call.prepare X with
    | error e => simp [hp, Except.toOption] at h
    | ok p =>
      rw [hp] at h
      dsimp only at h
      rcases hx : (writeAll (q.env X did D.server) p.did p.writes p.swapCid).exec
        ⟨D.stores did, D.sequenced⟩ with ⟨e | _, t⟩
      · rw [hx] at h
        cases h
      · obtain ⟨htransact, r, store, evt, hwrites, hevt, hinsert, -⟩ := writeAll_ok.1 hx
        obtain ⟨hdb, htransact⟩ := transact_env.1 htransact
        obtain ⟨-, -, -, hb⟩ := ActorStore.processWrites_ok.1 hwrites
        have hdid : p.did = did := Option.some.inj ((requester_of_prepare hp).symm.trans hreq)
        rw [hdid] at hevt
        exact ⟨p, r, hreq, hdb, htransact, hp, applied_of_ok hwrites,
          (ActorStore.blobsPass_iff q.call.clock).1 ⟨store, hb⟩, ⟨evt, hevt⟩, hinsert⟩
  · rintro ⟨p, r, h⟩
    obtain ⟨evt, hevt⟩ := h.event
    obtain ⟨hf, hi, ha⟩ := appliedCommit_eq_some.1 h.applied
    obtain ⟨store, hb⟩ := (ActorStore.blobsPass_iff (r := r) q.call.clock).2 h.blobs
    have hdid : p.did = did :=
      Option.some.inj ((requester_of_prepare h.prepared).symm.trans h.requester)
    have hwrites : (ActorStore.processWrites X.repo q.call.faults q.call.clock p.writes
        p.swapCid).exec (D.stores did) = (.ok r, store) :=
      ActorStore.processWrites_ok.2 ⟨hf, hi, ha, hb⟩
    have hx : (writeAll (q.env X did D.server) p.did p.writes p.swapCid).exec
        ⟨D.stores did, D.sequenced⟩ = (.ok (), ⟨store, D.sequenced ++ [evt]⟩) := by
      rw [hdid]
      exact writeAll_ok.2 ⟨transact_env.2 ⟨h.hasDb, h.transact⟩, r, store, evt, hwrites, hevt,
        h.insertEvt, rfl⟩
    rw [handle_repo_eq h.requester, exec_handleRepo, h.prepared]
    dsimp only
    rw [hx]
    rfl

theorem store_of_repo (h : q.call.requester = some did) :
    (handle X D (.repo q)).2.stores did =
      ((handleRepo (q.env X did D.server) q.call).exec ⟨D.stores did, D.sequenced⟩).2.store := by
  rw [handle_repo_eq h]
  exact Function.update_self _ _ _

/-- The commit is the root once it is applied, whatever comes after it. -/
theorem root_of_commit (h : q.call.requester = some did) (hp : q.call.prepare X = .ok p)
    (htransact : (q.env X did D.server).transact = none) {r : CommitDataWithOps}
    (happlied : appliedCommit X.repo q.call.faults (D.stores did) p.writes p.swapCid = some r) :
    ((handle X D (.repo q)).2.stores did).repoRoot =
        some ⟨r.commitData.cid, r.commitData.rev, q.call.clock.reader⟩ ∧
      ((handle X D (.repo q)).2.stores did).repo = r.commitData.repo := by
  rw [store_of_repo h, exec_handleRepo, hp]
  dsimp only
  rw [store_writeAll htransact]
  exact root_of_applied q.call.clock happlied

/-- The root of the store stays, or is a commit on top of it. -/
theorem root_of_repo (h : q.call.requester = some did) :
    (((handle X D (.repo q)).2.stores did).repoRoot = (D.stores did).repoRoot ∧
        ((handle X D (.repo q)).2.stores did).repo = (D.stores did).repo) ∨
      ∃ (p : PreparedBatch) (r : CommitDataWithOps),
        appliedCommit X.repo q.call.faults (D.stores did) p.writes p.swapCid = some r ∧
        ((handle X D (.repo q)).2.stores did).repoRoot =
          some ⟨r.commitData.cid, r.commitData.rev, q.call.clock.reader⟩ ∧
        ((handle X D (.repo q)).2.stores did).repo = r.commitData.repo := by
  cases hp : q.call.prepare X with
  | error e =>
    rw [store_of_repo h, exec_handleRepo, hp]
    exact .inl ⟨rfl, rfl⟩
  | ok p =>
    cases htransact : (q.env X did D.server).transact with
    | some e =>
      rw [store_of_repo h, exec_handleRepo, hp]
      dsimp only
      rw [writeAll, htransact, exec_bind, exec_attempt]
      exact .inl ⟨rfl, rfl⟩
    | none =>
      cases happlied : appliedCommit X.repo q.call.faults (D.stores did) p.writes p.swapCid with
      | none =>
        obtain ⟨e, u, hx, hroot, hrepo⟩ := root_of_unapplied q.call.clock happlied
        have hx : (ActorStore.processWrites (q.env X did D.server).repo
            (q.env X did D.server).faults (q.env X did D.server).clock p.writes p.swapCid).exec
              (D.stores did) = (.error e, u) := hx
        rw [store_of_repo h, exec_handleRepo, hp]
        dsimp only
        rw [store_writeAll htransact, hx]
        exact .inl ⟨hroot, hrepo⟩
      | some r => exact .inr ⟨p, r, happlied, root_of_commit h hp htransact happlied⟩

end

/-! ## A sign-up -/

/-- The other DIDs' databases and rows. -/
structure SameElsewhere (did : String) (s t : State) : Prop where
  db : ∀ d, d ≠ did → hasDb d t = hasDb d s
  row : ∀ d, d ≠ did → t.account.repoRoot.lookup d = s.account.repoRoot.lookup d

/-- The DID's row is stored anew with the commit, if it changes. -/
structure Stores (did : String) (commit : Commit) (s t : State) : Prop where
  dirs : t.dirs = s.dirs
  others : ∀ d, d ≠ did → t.account.repoRoot.lookup d = s.account.repoRoot.lookup d
  own : t.account.repoRoot.lookup did = s.account.repoRoot.lookup did ∨
    ∃ indexedAt, t.account.repoRoot.lookup did = some ⟨commit.cid, commit.rev, indexedAt⟩

/-- The sign-up fails, with the DID's row as it was. -/
structure Refused (did : String) (s t : State) : Prop where
  row : t.account.repoRoot.lookup did = s.account.repoRoot.lookup did
  db : hasDb did s = true → hasDb did t = true

/-- The DID has its repo and its row. -/
structure Opened (E : Env) (v : ValidatedCreateAccount E) (s t : State) : Prop where
  newDid : hasDb v.did s = false
  hasDb : hasDb v.did t = true
  before : ∃ u, (beforeRepo E v.did v.plcRotationKey).exec s = (.ok (), u)
  createsRepo : E.faults.access .createRepo = none
  row : ∃ indexedAt,
    t.account.repoRoot.lookup v.did = some ⟨E.commit.cid, E.commit.rev, indexedAt⟩

section

variable {E : Env} {did : String} {commit : Commit}

theorem sameElsewhere_refl (s : State) : SameElsewhere did s s :=
  ⟨fun _ _ => rfl, fun _ _ => rfl⟩

theorem sameElsewhere_trans (s t u : State) (h : SameElsewhere did s t)
    (k : SameElsewhere did t u) : SameElsewhere did s u := by
  constructor
  · intro d hd
    rw [k.db d hd, h.db d hd]
  · intro d hd
    rw [k.row d hd, h.row d hd]

theorem allowsFiles_sameElsewhere (did : String) : AllowsFiles did (SameElsewhere did) where
  refl := sameElsewhere_refl
  trans := sameElsewhere_trans
  dir s t h := by
    obtain ⟨⟨dirs, rfl⟩, hothers⟩ := h
    refine ⟨fun d hd => ?_, fun _ _ => rfl⟩
    rw [hasDb, hothers d hd, hasDb]
  objects _ _ := ⟨fun _ _ => rfl, fun _ _ => rfl⟩

theorem stores_refl (s : State) : Stores did commit s s := ⟨rfl, fun _ _ => rfl, .inl rfl⟩

theorem stores_trans (s t u : State) (h : Stores did commit s t) (k : Stores did commit t u) :
    Stores did commit s u := by
  refine ⟨k.dirs.trans h.dirs, fun d hd => (k.others d hd).trans (h.others d hd), ?_⟩
  rcases k.own with hsame | hnew
  · rw [hsame]
    exact h.own
  · exact .inr hnew

theorem Stores.sameElsewhere (s t : State) (h : Stores did commit s t) : SameElsewhere did s t := by
  refine ⟨fun d _ => ?_, h.others⟩
  rw [hasDb, h.dirs, hasDb]

theorem stores_onAccount {s : State} {account : Account.Db}
    (h : account.repoRoot = s.account.repoRoot ∨ ∃ now,
      account.repoRoot = s.account.repoRoot.insert did ⟨commit.cid, commit.rev, now⟩) :
    Stores did commit s { s with account } := by
  refine ⟨rfl, fun d hd => ?_, ?_⟩
  · rcases h with h | ⟨now, h⟩
    · exact congrArg (Finmap.lookup d) h
    · rw [h, Table.lookup_insert_eq, if_neg hd]
  · rcases h with h | ⟨now, h⟩
    · exact .inl (congrArg (Finmap.lookup did) h)
    · right
      refine ⟨now, ?_⟩
      rw [h, Table.lookup_insert_eq, if_pos rfl]

/-- A call on the account database whose one change of the roots is the DID's. -/
theorem stores_of_sets {ε α : Type} {x : Stages.Call Account.Db ε α} {now : String}
    (h : Sets Account.Db.repoRoot (fun roots => roots.insert did ⟨commit.cid, commit.rev, now⟩) x) :
    Keeps (onAccount x) (Stores did commit) := by
  intro s
  rw [onAccount, exec_zoom]
  rcases hx : x.exec s.account with ⟨e | a, account⟩
  · exact stores_onAccount (.inl (h.error hx))
  · exact stores_onAccount (.inr ⟨now, h.ok hx⟩)

theorem stores_announceUnless (deactivated : Bool) (handle : String) :
    Keeps (announceUnless E deactivated did handle commit) (Stores did commit) := by
  have hevt (a : Access) (e : SeqEvent) :
      Keeps (sequenceEvt E a e : Call ApiError Unit) (Stores did commit) :=
    Keeps.ignore <| (keeps_attempt stores_refl _).bind stores_trans fun _ =>
      keeps_modify fun s => ⟨rfl, fun _ _ => rfl, .inl rfl⟩
  unfold announceUnless
  split
  · exact keeps_pure stores_refl _
  · exact (keeps_attempt stores_refl _).bind stores_trans fun _ =>
      (hevt _ _).bind stores_trans fun _ => (hevt _ _).bind stores_trans fun _ =>
      (hevt _ _).bind stores_trans fun _ => hevt _ _

theorem stores_finishValidated (v : ValidatedCreateAccount E) (commit : Commit)
    (tokens : String × String) :
    Keeps (finishValidated E v commit tokens) (Stores v.did commit) := by
  have hdoc : Keeps (convertDidDoc E E.didDoc) (Stores v.did commit) := by
    unfold convertDidDoc
    split
    · exact keeps_pure stores_refl _
    · exact (keeps_attempt stores_refl _).bind stores_trans fun _ => keeps_pure stores_refl _
  refine (stores_announceUnless _ _).bind stores_trans fun _ => ?_
  refine Keeps.bind stores_trans ?_ fun _ =>
    hdoc.bind stores_trans fun _ => keeps_pure stores_refl _
  exact (stores_of_sets (Account.sets_updateRoot _ _ _ _ _)).mapError _

theorem did_of_finishValidated {v : ValidatedCreateAccount E} {tokens : String × String}
    {s t : State} {out : CreateAccountOutput}
    (h : (finishValidated E v commit tokens).exec s = (.ok out, t)) : out.did = v.did := by
  obtain ⟨_, _, -, h⟩ := exec_bind_ok.1 h
  obtain ⟨_, _, -, h⟩ := exec_bind_ok.1 h
  obtain ⟨_, _, -, h⟩ := exec_bind_ok.1 h
  cases h
  rfl

/-- A DID that has a database keeps it, and gets no other. -/
theorem openRepo_of_hasDb {s : State} (h : hasDb did s = true) (plcRotationKey : Option Keypair) :
    ∃ e t, (openRepo E handlerFlow did plcRotationKey).exec s = (.error e, t) ∧
      hasDb did t = true := by
  have hfills := fillsDir_actorCreate E.faults did E.signingKey s
  rw [openRepo, exec_bind, exec_mapError]
  rcases hx : (actorCreate E.faults did E.signingKey).exec s with ⟨e | _, t⟩
  · rw [hx] at hfills
    exact ⟨_, t, rfl, hfills.db h⟩
  · obtain ⟨⟨-, hnew, -⟩, -⟩ := (does_actorCreate E.faults did E.signingKey s t).1 hx
    rw [h] at hnew
    cases hnew

theorem hasDb_of_persistRotationKey {plcRotationKey : Option Keypair} {s t : State}
    (hx : (persistRotationKey E handlerFlow did plcRotationKey).exec s = (.ok (), t))
    (h : hasDb did s = true) : hasDb did t = true := by
  cases plcRotationKey with
  | some keypair =>
    have hfills := fillsDir_storeRotationKeypair E.faults did keypair s
    rw [(orDestroy_ok E handlerFlow did .storeRotationKey).1 hx] at hfills
    exact hfills.db h
  | none =>
    have hfills := fillsDir_createRotationKeypair E.faults did E.rotationKeypair s
    rw [persistRotationKey, exec_ignore] at hx
    cases hx
    exact hfills.db h

/-- What is there once the repo is. -/
theorem openRepo_opens {plcRotationKey : Option Keypair} {s t : State} {c : Commit}
    (h : (openRepo E handlerFlow did plcRotationKey).exec s = (.ok c, t)) :
    c = E.commit ∧ hasDb did s = false ∧ hasDb did t = true ∧
      (∃ u, (beforeRepo E did plcRotationKey).exec s = (.ok (), u)) ∧
      E.faults.access .createRepo = none := by
  obtain ⟨_, u, hcreate, hrest⟩ := exec_bind_ok.1 h
  obtain ⟨_, w, hpersist, hrest⟩ := exec_bind_ok.1 hrest
  obtain ⟨_, x, htransact, hlast⟩ := exec_bind_ok.1 hrest
  have hbefore : (beforeRepo E did plcRotationKey).exec s = (.ok (), x) :=
    exec_bind_ok.2 ⟨_, u, hcreate, exec_bind_ok.2 ⟨_, w, hpersist, htransact⟩⟩
  have hactor : (actorCreate E.faults did E.signingKey).exec s = (.ok (), u) := by
    rw [exec_mapError, Prod.mk.injEq, except_mapError_ok] at hcreate
    exact Prod.ext hcreate.1 hcreate.2
  obtain ⟨⟨-, hnew, -⟩, rfl⟩ := (does_actorCreate E.faults did E.signingKey s u).1 hactor
  have hdb : hasDb did (created did E.signingKey s) = true := by
    rw [created, hasDb_writeDir]
  have hw := hasDb_of_persistRotationKey hpersist hdb
  have hopen := (orDestroy_ok E handlerFlow did .openActor).1 htransact
  have hmade := (orDestroy_ok E handlerFlow did .createRepo).1 hlast
  obtain ⟨-, rfl⟩ := (does_check _ _ _ _ _).1 hopen
  obtain ⟨hrepo, rfl, rfl⟩ := (createRepo_ok E).1 hmade
  exact ⟨rfl, hnew, hw, ⟨_, hbefore⟩, hrepo⟩

theorem account_submitOperation (plcOp : Option Operation) :
    Keeps (submitOperation E handlerFlow did plcOp) fun s t => t.account = s.account := by
  have hfiles : AllowsFiles did fun s t : State => t.account = s.account :=
    ⟨fun _ => rfl, fun _ _ _ h k => k.trans h, fun _ _ h => by obtain ⟨_, rfl⟩ := h.only; rfl,
      fun _ _ => rfl⟩
  unfold submitOperation
  split
  · exact keeps_pure hfiles.refl _
  · exact hfiles.orDestroy .sendOperation <|
      (keeps_attempt hfiles.refl _).bind hfiles.trans fun _ => keeps_modify fun _ => rfl

theorem dirs_of_submitOperation {plcOp : Option Operation} {s t : State}
    (h : (submitOperation E handlerFlow did plcOp).exec s = (.ok (), t)) : t.dirs = s.dirs := by
  cases plcOp with
  | none =>
    cases h
    rfl
  | some op =>
    have hsend := (orDestroy_ok E handlerFlow did .sendOperation).1 h
    obtain ⟨-, rfl⟩ := (does_sendOperation E did op s t).1 hsend
    rfl

theorem sets_registerAccount (opts : Account.CreateAccountOpts) :
    Sets (fun s : State => s.account.repoRoot)
      (fun roots =>
        roots.insert opts.did ⟨opts.repoCid, opts.repoRev, E.account.now .updateRoot⟩)
      (registerAccount E handlerFlow opts) := by
  have hroots := Account.sets_createAccount E.account opts
  have hx (s : State) : (onAccount (Account.createAccount E.account opts)).exec s =
      (((Account.createAccount E.account opts).exec s.account).1,
        { s with account := ((Account.createAccount E.account opts).exec s.account).2 }) := rfl
  constructor
  · intro s e t h
    rcases hcreate : (Account.createAccount E.account opts).exec s.account with
      ⟨e' | tokens, account⟩
    · have hfail := hx s
      rw [hcreate] at hfail
      obtain ⟨err, hdestroy⟩ := orDestroy_error E handlerFlow opts.did .createAccount hfail
      rw [registerAccount, hdestroy] at h
      cases h
      obtain ⟨_, _, hbooks⟩ := onlyFiles_destroy E opts.did { s with account }
      rw [hbooks]
      exact hroots.error hcreate
    · have hok := hx s
      rw [hcreate] at hok
      rw [registerAccount, (orDestroy_ok E handlerFlow opts.did .createAccount).2 hok] at h
      cases h
  · intro s tokens t h
    have hok := (orDestroy_ok E handlerFlow opts.did .createAccount).1 h
    rw [hx, Prod.mk.injEq] at hok
    obtain ⟨hcreate, rfl⟩ := hok
    exact hroots.ok (Prod.ext hcreate rfl)

theorem dirs_of_registerAccount {opts : Account.CreateAccountOpts} {tokens : String × String}
    {s t : State} (h : (registerAccount E handlerFlow opts).exec s = (.ok tokens, t)) :
    t.dirs = s.dirs := by
  have hok := (orDestroy_ok E handlerFlow opts.did .createAccount).1 h
  rw [onAccount, exec_zoom, Prod.mk.injEq] at hok
  rw [← hok.2]

theorem sameElsewhere_submitOperation (plcOp : Option Operation) :
    Keeps (submitOperation E handlerFlow did plcOp) (SameElsewhere did) := by
  unfold submitOperation
  split
  · exact keeps_pure sameElsewhere_refl _
  · exact (allowsFiles_sameElsewhere did).orDestroy .sendOperation <|
      (keeps_attempt sameElsewhere_refl _).bind sameElsewhere_trans fun _ =>
      keeps_modify fun _ => ⟨fun _ _ => rfl, fun _ _ => rfl⟩

theorem sameElsewhere_createValidated (v : ValidatedCreateAccount E) :
    Keeps (createValidated E v) (SameElsewhere v.did) := by
  have hfiles := allowsFiles_sameElsewhere v.did
  refine (hfiles.openRepo _).bind sameElsewhere_trans fun c => ?_
  refine (sameElsewhere_submitOperation _).bind sameElsewhere_trans fun _ => ?_
  have hstores : Keeps (onAccount (Account.createAccount E.account (v.opts c)))
      (Stores v.did c) :=
    stores_of_sets (Account.sets_createAccount E.account (v.opts c))
  refine Keeps.bind sameElsewhere_trans ?_ fun tokens => ?_
  · exact hfiles.orDestroy .createAccount (hstores.mono Stores.sameElsewhere)
  · exact (stores_finishValidated v c tokens).mono Stores.sameElsewhere

theorem did_of_createValidated {v : ValidatedCreateAccount E} {s : State}
    {out : CreateAccountOutput}
    (h : ((createValidated E v).exec s).1.toOption = some out) : out.did = v.did := by
  rcases hx : (createValidated E v).exec s with ⟨e | a, t⟩
  · rw [hx] at h
    cases h
  · rw [hx] at h
    cases h
    obtain ⟨_, _, -, hx⟩ := exec_bind_ok.1 hx
    obtain ⟨_, _, -, hx⟩ := exec_bind_ok.1 hx
    obtain ⟨_, _, -, hx⟩ := exec_bind_ok.1 hx
    exact did_of_finishValidated hx

/-- A sign-up is refused, or leaves the DID with a repo and with the row of its first commit. -/
theorem createValidated_cases (v : ValidatedCreateAccount E) (s : State) :
    (∃ e, ((createValidated E v).exec s).1 = .error e) ∧
        Refused v.did s ((createValidated E v).exec s).2 ∨
      Opened E v s ((createValidated E v).exec s).2 := by
  by_cases hdb : hasDb v.did s = true
  · obtain ⟨e, t, hopen, ht⟩ := openRepo_of_hasDb hdb v.plcRotationKey
    have hbooks := onlyFiles_openRepo E handlerFlow v.did v.plcRotationKey s
    rw [hopen] at hbooks
    obtain ⟨_, _, rfl⟩ := hbooks
    rw [createValidated, exec_bind, hopen]
    exact .inl ⟨⟨e, rfl⟩, rfl, fun _ => ht⟩
  have hrefused {t : State} (ht : t.account.repoRoot = s.account.repoRoot) : Refused v.did s t :=
    ⟨congrArg (Finmap.lookup v.did) ht, fun h => absurd h hdb⟩
  rw [createValidated, exec_bind]
  have hopens := onlyFiles_openRepo E handlerFlow v.did v.plcRotationKey s
  rcases hopen : (openRepo E handlerFlow v.did v.plcRotationKey).exec s with ⟨e | c, t⟩
  · rw [hopen] at hopens
    obtain ⟨_, _, rfl⟩ := hopens
    exact .inl ⟨⟨e, rfl⟩, hrefused rfl⟩
  rw [hopen] at hopens
  obtain ⟨rfl, hnew, ht, hbefore, hcreates⟩ := openRepo_opens hopen
  have hroots : t.account.repoRoot = s.account.repoRoot := by
    obtain ⟨_, _, rfl⟩ := hopens
    rfl
  dsimp only
  rw [exec_bind]
  have haccount : ((submitOperation E handlerFlow v.did v.plcOp).exec t).2.account = t.account :=
    account_submitOperation v.plcOp t
  rcases hsubmit : (submitOperation E handlerFlow v.did v.plcOp).exec t with ⟨e | _, u⟩
  · rw [hsubmit] at haccount
    refine .inl ⟨⟨e, rfl⟩, hrefused ?_⟩
    rw [← hroots]
    exact congrArg Account.Db.repoRoot haccount
  rw [hsubmit] at haccount
  dsimp only
  rw [exec_bind]
  have hsets := @sets_registerAccount E (v.opts E.commit)
  rcases hregister : (registerAccount E handlerFlow (v.opts E.commit)).exec u with ⟨e | tokens, w⟩
  · refine .inl ⟨⟨e, rfl⟩, hrefused ?_⟩
    rw [← hroots, ← show u.account = t.account from haccount]
    exact hsets.error hregister
  have hstores := stores_finishValidated v E.commit tokens w
  have hrow : w.account.repoRoot.lookup v.did =
      some ⟨E.commit.cid, E.commit.rev, E.account.now .updateRoot⟩ := by
    have hw := congrArg (Finmap.lookup v.did) (hsets.ok hregister)
    rwa [Table.lookup_insert_eq, if_pos (show v.did = (v.opts E.commit).did from rfl)] at hw
  have hdirs : w.dirs = t.dirs :=
    (dirs_of_registerAccount hregister).trans (dirs_of_submitOperation hsubmit)
  refine .inr ⟨hnew, ?_, hbefore, hcreates, ?_⟩
  · rw [hasDb, hstores.dirs, hdirs]
    exact ht
  · rcases hstores.own with hsame | hstored
    · exact ⟨_, hsame.trans hrow⟩
    · exact hstored

end

/-- The repo of a sign-up that goes through is the first commit's. -/
theorem root_of_createRepo {F : ActorStore.Faults} {now : ActorStore.Clock} {init : CommitData}
    {did : String} {t : Store}
    (h : (ActorStore.createRepo F now init).exec (ActorStore.emptyStore did) = (.ok (), t)) :
    t.repoRoot = some ⟨init.cid, init.rev, now.reader⟩ ∧ t.repo = init.repo := by
  obtain ⟨_, u, happly, hrest⟩ := exec_bind_ok.1 h
  obtain ⟨_, w, hindex, hblobs⟩ := exec_bind_ok.1 hrest
  cases hindex
  have hsame := ActorStore.keeps_processWriteBlobs F [] u
  rw [hblobs] at hsame
  obtain ⟨_, x, haccess, happly⟩ := exec_bind_ok.1 happly
  obtain ⟨-, rfl⟩ := (ActorStore.does_access _ _ _ _).1 haccess
  cases happly
  exact ⟨hsame.repoRoot, hsame.repo⟩

theorem FirstCommit.root {E : Env} (c : FirstCommit E) (h : E.faults.access .createRepo = none)
    (did : String) : (∃ indexedAt, (c.store did).repoRoot =
      some ⟨E.commit.cid, E.commit.rev, indexedAt⟩) ∧ (c.store did).repo.rev = E.commit.rev := by
  obtain ⟨init, t, hinit, hcreate⟩ := (c.outcome did).1 h
  obtain ⟨hroot, hrepo⟩ := root_of_createRepo hcreate
  have hstore : c.store did = t := by
    rw [FirstCommit.store, hinit]
    dsimp only
    rw [hcreate]
  rw [hstore, hroot, hrepo, c.commit init hinit]
  exact ⟨⟨_, rfl⟩, c.encodes init hinit⟩

section

variable {X : Foreign} {D : Databases} {r : SignUp} {v : ValidatedCreateAccount r.env}

theorem handle_of_invalid {e : ApiError}
    (h : r.checked >>= validateDid r.env r.requester = .error e) :
    handle X D (.createAccount r) = (none, D) := by
  simp only [handle, SignUp.stores, h, innerCreateAccount, exec_bind, exec_ofExcept]
  rfl

theorem handle_of_valid (h : r.checked >>= validateDid r.env r.requester = .ok v) :
    handle X D (.createAccount r) =
      (((createValidated r.env v).exec D.server).1.toOption.map CreateAccountOutput.did,
        { D with
          server := ((createValidated r.env v).exec D.server).2
          stores := r.stores D }) := by
  simp only [handle, innerCreateAccount, h, exec_bind, exec_ofExcept]

theorem stores_of_hasDb (h : r.checked >>= validateDid r.env r.requester = .ok v)
    (hdb : hasDb v.did D.server = true) : r.stores D = D.stores := by
  simp only [SignUp.stores, h, if_pos hdb]

theorem stores_other (h : r.checked >>= validateDid r.env r.requester = .ok v) {d : String}
    (hd : d ≠ v.did) : r.stores D d = D.stores d := by
  simp only [SignUp.stores, h]
  split
  · rfl
  · exact Function.update_of_ne hd _ _

theorem stores_of_opened (h : r.checked >>= validateDid r.env r.requester = .ok v) {t : State}
    (hopened : Opened r.env v D.server t) : r.stores D v.did = r.first.store v.did := by
  obtain ⟨u, hu⟩ := hopened.before
  simp only [SignUp.stores, h, hopened.newDid, Bool.false_eq_true, if_false, hu,
    Function.update_self]

/-- A sign-up that goes through has stored one commit in both databases. -/
theorem agreesAfter_signUp (r : SignUp) : AgreesAfter X D (.createAccount r) := by
  intro did hdid
  cases hv : r.checked >>= validateDid r.env r.requester with
  | error e =>
    rw [handle_of_invalid hv] at hdid
    cases hdid
  | ok v =>
    rw [handle_of_valid hv] at hdid ⊢
    obtain ⟨out, hout, rfl⟩ := Option.map_eq_some_iff.1 hdid
    rcases createValidated_cases v D.server with ⟨⟨e, he⟩, -⟩ | hopened
    · rw [he] at hout
      cases hout
    · have hsame : out.did = v.did := did_of_createValidated hout
      obtain ⟨rowAt, hrow⟩ := hopened.row
      obtain ⟨⟨rootAt, hroot⟩, -⟩ := r.first.root hopened.createsRepo v.did
      rw [hsame]
      refine ⟨_, ⟨_, _, rootAt⟩, hrow, ?_, rfl, rfl⟩
      show (r.stores D v.did).repoRoot = _
      rw [stores_of_opened hv hopened]
      exact hroot

end

/-! ## Both databases -/

/-- Where a DID has a row, its store has a root, and the row is not ahead of it. -/
def NotAhead (D : Databases) : Prop :=
  ∀ did row, D.server.account.repoRoot.lookup did = some row → hasDb did D.server = true ∧
    ∃ root, (D.stores did).repoRoot = some root ∧ row.rev ≤ root.rev ∧
      (D.stores did).repo.rev = root.rev

theorem notAhead_start : NotAhead .start := by
  intro did row h
  cases h

section

variable {X : Foreign} {D : Databases}

theorem notAhead_signUp (h : NotAhead D) (r : SignUp) :
    NotAhead (handle X D (.createAccount r)).2 := by
  cases hv : r.checked >>= validateDid r.env r.requester with
  | error e =>
    rw [handle_of_invalid hv]
    exact h
  | ok v =>
    rw [handle_of_valid hv]
    intro did row hrow
    by_cases hdid : did = v.did
    · subst hdid
      rcases createValidated_cases v D.server with ⟨-, hrefused⟩ | hopened
      · rw [hrefused.row] at hrow
        obtain ⟨hdb, hroot⟩ := h v.did row hrow
        refine ⟨hrefused.db hdb, ?_⟩
        dsimp only
        rw [stores_of_hasDb hv hdb]
        exact hroot
      · obtain ⟨_, hstored⟩ := hopened.row
        obtain rfl := Option.some.inj (hstored.symm.trans hrow)
        obtain ⟨⟨_, hroot⟩, hrev⟩ := r.first.root hopened.createsRepo v.did
        refine ⟨hopened.hasDb, ?_⟩
        dsimp only
        rw [stores_of_opened hv hopened]
        exact ⟨_, hroot, le_rfl, hrev⟩
    · have hsame := sameElsewhere_createValidated v D.server
      dsimp only at hrow ⊢
      rw [hsame.row did hdid] at hrow
      rw [hsame.db did hdid, stores_other hv hdid]
      exact h did row hrow

theorem notAhead_repo (hU : ChainsRevs X.repo) (h : NotAhead D) (q : RepoWrite) :
    NotAhead (handle X D (.repo q)).2 := by
  cases hreq : q.call.requester with
  | none =>
    simp only [handle, hreq]
    exact h
  | some author =>
    intro did row hrow
    have hserver : (handle X D (.repo q)).2.server = D.server := by
      rw [handle_repo_eq hreq]
    rw [hserver] at hrow ⊢
    obtain ⟨hdb, root, hroot, hle, hrev⟩ := h did row hrow
    refine ⟨hdb, ?_⟩
    by_cases hdid : did = author
    · subst hdid
      rcases root_of_repo hreq with ⟨hsame, hrepo⟩ | ⟨p, r, happlied, hnew, hrepo⟩
      · rw [hsame, hrepo]
        exact ⟨root, hroot, hle, hrev⟩
      · obtain ⟨-, hlt, hrevs⟩ := hU.applied happlied
        rw [hrev] at hlt
        exact ⟨_, hnew, hle.trans hlt.le, by rw [hrepo, hrevs]⟩
    · rw [handle_repo_eq hreq]
      dsimp only
      rw [Function.update_of_ne hdid]
      exact ⟨root, hroot, hle, hrev⟩

theorem notAhead_step (hU : ChainsRevs X.repo) (h : NotAhead D) {r : Request} {D' : Databases}
    (hstep : step X D r = some D') : NotAhead D' := by
  cases hstep
  cases r with
  | createAccount r => exact notAhead_signUp h r
  | repo q => exact notAhead_repo hU h q

/-- A write that goes through leaves the row where it was, behind the new root. -/
theorem not_agreesAfter_repo (hU : ChainsRevs X.repo) (h : NotAhead D) {q : RepoWrite}
    {did : String} (hgoes : (handle X D (.repo q)).1 = some did) :
    ¬ SameRoot (handle X D (.repo q)).2 did := by
  rintro ⟨row, root, hrow, hroot, -, hsame⟩
  obtain ⟨p, r, hsucceeds⟩ := succeeds_iff.1 hgoes
  have hreq := hsucceeds.requester
  have hserver : (handle X D (.repo q)).2.server = D.server := by
    rw [handle_repo_eq hreq]
  rw [hserver] at hrow
  obtain ⟨-, old, hold, hle, hrev⟩ := h did row hrow
  obtain ⟨-, hlt, -⟩ := hU.applied hsucceeds.applied
  have hnew := (root_of_commit hreq hsucceeds.prepared
    (transact_env.2 ⟨hsucceeds.hasDb, hsucceeds.transact⟩) hsucceeds.applied).1
  have hmoved : root.rev = r.commitData.rev := by
    rw [hroot] at hnew
    rw [Option.some.inj hnew]
  rw [hrev] at hlt
  rw [hsame, hmoved] at hle
  exact absurd hlt (not_lt.2 hle)

theorem agreesAfter_iff (hU : ChainsRevs X.repo) (h : NotAhead D) (r : Request) :
    AgreesAfter X D r ↔ ¬ WritesThrough X D r := by
  cases r with
  | createAccount r => exact iff_of_true (agreesAfter_signUp r) id
  | repo q =>
    constructor
    · rintro hagrees ⟨did, hsucceeds⟩
      have hgoes : (handle X D (.repo q)).1 = some did := succeeds_iff.2 hsucceeds
      exact not_agreesAfter_repo hU h hgoes (hagrees did hgoes)
    · intro hnot did hgoes
      exact absurd ⟨did, succeeds_iff.1 hgoes⟩ hnot

end

/-- **The two roots agree after every successful request of a run, and no interleaving of
`update_root` lowers a rev, if and only if no `createRecord`, `putRecord`, `deleteRecord` or
`applyWrites` of the run goes through.** -/
theorem rootsAgree_iff (X : Foreign) (hU : ChainsRevs X.repo) (requests : List Request) :
    RootsAgree X requests ↔
      Along (step X) (fun D r => ¬ WritesThrough X D r) .start requests := by
  have hiff : Along (step X) (AgreesAfter X) .start requests ↔ _ :=
    along_iff_along (fun _ _ _ h _ hstep => notAhead_step hU h hstep)
      (fun _ r h => agreesAfter_iff hU h r) notAhead_start requests
  constructor
  · exact fun h => hiff.1 h.agrees
  · exact fun h => ⟨hiff.2 h, fun _ _ _ _ _ hs ht => neverDecreases_of_run hs ht⟩

/-! ## A sign-up and a post -/

/-- The first commit is the root that the post's commit comes after. -/
def aliceInit : CommitData where
  cid := ⟨"commit r"⟩
  rev := "r"
  since := none
  prev := none
  newBlocks := []
  relevantBlocks := []
  removedCids := []
  repo := Store.fresh.repo

def aliceEnv : Env := { workingEnv with commit := ⟨⟨"commit r"⟩, "r"⟩ }

/-- Alice moves in with her DID. -/
def aliceMovesIn : SignUp where
  env := aliceEnv
  requester := none
  checked := .ok ⟨"a@x.test", "alice.test", "alice.test", none, "secret", some "did:plc:a", none⟩
  first := {
    formatInitCommit := .ok aliceInit
    faults := fun _ => none
    clock := ⟨"2026-01-01", fun _ => "2026-01-01"⟩
    encodes := by
      intro init h
      cases h
      rfl
    commit := by
      intro init h
      cases h
      rfl
    outcome := fun did => iff_of_true rfl ⟨aliceInit, _, rfl, rfl⟩ }

def alicesPost : RepoWrite := ⟨callOf newPost, none, none, 0⟩

theorem rootsAgree_aliceMovesIn : RootsAgree plainForeign [.createAccount aliceMovesIn] := by
  refine (rootsAgree_iff plainForeign chainsRevs_inOrder _).2 ?_
  intro t _
  exact ⟨id, trivial⟩

/-- The post is the root of the store; the row still has the commit before it. -/
theorem row_behind_post :
    ¬ ∀ X requests, ChainsRevs X.repo → RootsAgree X requests := by
  intro hall
  let D := (handle plainForeign .start (.createAccount aliceMovesIn)).2
  have hgoes : (handle plainForeign D (.repo alicesPost)).1 = some "did:plc:a" := by
    decide +kernel
  have hrow : (((handle plainForeign D (.repo alicesPost)).2.server.account.repoRoot.lookup
      "did:plc:a").map Account.RepoRoot.rev) = some "r" := by
    decide +kernel
  have hroot : (((handle plainForeign D (.repo alicesPost)).2.stores "did:plc:a").repoRoot.map
      ActorStore.RootRow.rev) = some "r+" := by
    decide +kernel
  have hagrees := (hall plainForeign [.createAccount aliceMovesIn, .repo alicesPost]
    chainsRevs_inOrder).agrees
  obtain ⟨row, root, hfound, hstored, -, hsame⟩ := ((hagrees D rfl).2 _ rfl).1 "did:plc:a" hgoes
  rw [hfound] at hrow
  rw [hstored] at hroot
  rw [Option.map_some, Option.some.injEq] at hrow hroot
  rw [hrow, hroot] at hsame
  exact absurd hsame (by decide)

end CacosPds.Server.RepoRoots
