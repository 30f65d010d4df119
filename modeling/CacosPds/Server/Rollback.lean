import CacosPds.Server.CreateAccount
/-!
# Which requests wipe the shared handle

| here | there |
| --- | --- |
| `Wipes`          | `delete_all` gets past its second prefix, `blocks/shared` (`opendal.rs:363-382`) |
| `RollsBack`      | one of the exits that destroy is taken: every one behind `ActorStore::create` up to the account manager's answer |
| `deleteAccount`  | `inner_delete_account` (`delete_account.rs:12`); its checks are known by their answer |
| `uploadBlob`     | the handler of `upload_blob.rs` |

A sign-up changes the blobs exactly if it rolls back (`objects_createValidated`,
`objects_remoteCreateAccount`), and then as `delete_all` does.
-/
namespace CacosPds.Server

open Stages Sql
open Blobstore (Objects Handle)

/-! ## `delete_all` on the shared handle -/

/-- The wipe gets as far as the permanent blobs. -/
def Wipes (F : Faults) : Prop :=
  F.backend (.deleteAll 0) = none ∧ F.backend (.deleteAll 1) = none

instance (F : Faults) : Decidable (Wipes F) := inferInstanceAs (Decidable (_ ∧ _))

theorem prefix_storedPath (h : Handle) {dir : String} (hd : dir ∈ Blobstore.dirs) (cid : Cid) :
    (dir ++ "/" ++ h.did).toList <+: (h.storedPath cid).toList ↔ dir = "blocks" := by
  rw [Handle.storedPath, Blobstore.openPath_prefix_iff hd Blobstore.blocks_mem_dirs]
  exact and_iff_left (List.prefix_refl _)

theorem exec_wipeRound (h : Handle) (F : Blobstore.BackendFaults) (dir : String) (n : Nat)
    (objects : Objects) :
    (h.wipeRound F (dir, n)).exec objects = match F (.deleteAll n) with
      | some e => (.error (.other e), objects)
      | none => (.ok (), objects.deletePrefix (dir ++ "/" ++ h.did)) := by
  rw [Handle.wipeRound, exec_bind, Blobstore.backend, exec_attempt]
  cases F (.deleteAll n) <;> rfl

/-- The rounds stop at the first that fails. -/
theorem exec_deleteAll (h : Handle) (F : Blobstore.BackendFaults) (objects : Objects) :
    ((h.deleteAll F).exec objects).2 =
      if F (.deleteAll 0) ≠ none then objects
      else if F (.deleteAll 1) ≠ none then objects.deletePrefix ("tmp" ++ "/" ++ h.did)
      else if F (.deleteAll 2) ≠ none then
        (objects.deletePrefix ("tmp" ++ "/" ++ h.did)).deletePrefix ("blocks" ++ "/" ++ h.did)
      else h.wiped objects := by
  simp only [Handle.deleteAll, Blobstore.dirs, List.zipIdx_cons, List.zipIdx_nil, List.forM_cons,
    List.forM_nil, exec_bind, exec_wipeRound]
  split_ifs with h0 h1 h2
  · obtain ⟨e, he⟩ := Option.ne_none_iff_exists'.1 h0
    simp [he]
  · obtain ⟨e, he⟩ := Option.ne_none_iff_exists'.1 h1
    simp [not_not.1 h0, he]
  · obtain ⟨e, he⟩ := Option.ne_none_iff_exists'.1 h2
    simp [not_not.1 h0, not_not.1 h1, he]
  · simp [not_not.1 h0, not_not.1 h1, not_not.1 h2, Handle.wiped, Blobstore.dirs]

/-- A permanent blob after the wipe, whatever fails in it. -/
theorem lookup_wipedObjects (F : Faults) (objects : Objects) (cid : Cid) :
    (wipedObjects F objects).lookup (shared.storedPath cid) =
      if Wipes F then none else objects.lookup (shared.storedPath cid) := by
  have hblocks := (prefix_storedPath shared Blobstore.blocks_mem_dirs cid).2 rfl
  have htmp := (prefix_storedPath shared Blobstore.tmp_mem_dirs cid).not.2 (by decide)
  rw [wipedObjects, exec_deleteAll]
  by_cases hw : Wipes F
  · rw [if_pos hw, if_neg (not_not.2 hw.1), if_neg (not_not.2 hw.2)]
    split
    · rw [Table.lookup_deletePrefix, if_pos hblocks]
    · rw [Blobstore.lookup_wiped, if_pos ⟨"blocks", Blobstore.blocks_mem_dirs, hblocks⟩]
  · rw [if_neg hw]
    split_ifs with h0 h1
    · rfl
    · rw [Table.lookup_deletePrefix, if_neg htmp]
    all_goals exact absurd ⟨not_not.1 h0, not_not.1 h1⟩ hw

/-! ## Sign-ups -/

/-- `ActorStore::create` makes the actor's directory. -/
structure CreatesDir (F : Faults) (did : String) (s : State) : Prop where
  safe : safePathPart did = true
  newDid : hasDb did s = false
  works : ∀ a ∈ [Access.createDir, .existsDb, .writeKey, .openDb], F.access a = none

/-- The steps behind it up to the account manager's answer. -/
structure Registers (E : Env) (did : String) (plcRotationKey : Option Keypair)
    (plcOp : Option Operation) (opts : Account.CreateAccountOpts) (s : State) : Prop where
  storesKey : plcRotationKey ≠ none →
    ∀ a ∈ [Access.createRotationDir, .writeRotationKey], E.faults.access a = none
  transacts : E.faults.access .transact = none
  createsRepo : E.faults.access .createRepo = none
  sends : plcOp ≠ none → E.faults.access .sendOperation = none
  creates : AccountCreated E opts s

/-- A sign-up gets into one of the exits that destroy. -/
def RollsBack (E : Env) (did : String) (plcRotationKey : Option Keypair) (plcOp : Option Operation)
    (opts : Account.CreateAccountOpts) (s : State) : Prop :=
  CreatesDir E.faults did s ∧ ¬ Registers E did plcRotationKey plcOp opts s

/-- Blobs and accounts are the same. -/
def SameWorld (s t : State) : Prop := t.objects = s.objects ∧ t.account = s.account

theorem sameWorld_refl (s : State) : SameWorld s s := ⟨rfl, rfl⟩

theorem sameWorld_trans (s t u : State) (h : SameWorld s t) (k : SameWorld t u) : SameWorld s u :=
  ⟨k.1.trans h.1, k.2.trans h.2⟩

theorem OnlyDirs.sameWorld (s t : State) (h : OnlyDirs s t) : SameWorld s t := by
  obtain ⟨_, rfl⟩ := h
  exact ⟨rfl, rfl⟩

/-- A step before the account manager's: where it succeeds blobs and accounts are the same, and where
it fails the blobs are wiped. -/
structure Stage {ε α : Type} (F : Faults) (x : Call ε α) (ok : Prop) (Q : α → Prop) : Prop where
  goes : ok → ∀ s, ∃ a t, x.exec s = (.ok a, t) ∧ Q a ∧ SameWorld s t
  fails : ¬ ok → ∀ s, ∃ e t, x.exec s = (.error e, t) ∧ t.objects = wipedObjects F s.objects

/-- What is left of a run, from the given accounts: it leaves the blobs alone, or wipes them. -/
structure Ends {ε α : Type} (F : Faults) (x : Call ε α) (account : Account.Db) (ok : Prop) :
    Prop where
  same : ok → ∀ s, s.account = account → (x.exec s).2.objects = s.objects
  wipes : ¬ ok → ∀ s, s.account = account → (x.exec s).2.objects = wipedObjects F s.objects

section

variable {ε α β : Type} (E : Env) (φ : Flow ε) (did : String)

theorem Stage.bind {F : Faults} {x : Call ε α} {f : α → Call ε β} {p q : Prop} {P : α → Prop}
    {Q : β → Prop} (hx : Stage F x p P) (hf : ∀ a, P a → Stage F (f a) q Q) :
    Stage F (x >>= f) (p ∧ q) Q := by
  constructor
  · rintro ⟨hp, hq⟩ s
    obtain ⟨a, t, hxs, ha, ho, hacc⟩ := hx.goes hp s
    obtain ⟨b, u, hfs, hb, ho', hacc'⟩ := (hf a ha).goes hq t
    exact ⟨b, u, exec_bind_ok.2 ⟨a, t, hxs, hfs⟩, hb, ho'.trans ho, hacc'.trans hacc⟩
  · intro hnot s
    by_cases hp : p
    · obtain ⟨a, t, hxs, ha, ho, -⟩ := hx.goes hp s
      obtain ⟨e, u, hfs, hu⟩ := (hf a ha).fails (fun hq => hnot ⟨hp, hq⟩) t
      exact ⟨e, u, exec_bind_error.2 (.inr ⟨a, t, hxs, hfs⟩), by rw [hu, ho]⟩
    · obtain ⟨e, t, hxs, ht⟩ := hx.fails hp s
      exact ⟨e, t, exec_bind_error.2 (.inl hxs), ht⟩

theorem Stage.ends {F : Faults} {x : Call ε α} (f : α → Call ε β) {p q : Prop} {Q : α → Prop}
    {account : Account.Db} (hx : Stage F x p Q) (hf : ∀ a, Q a → Ends F (f a) account q) :
    Ends F (x >>= f) account (p ∧ q) := by
  constructor
  · rintro ⟨hp, hq⟩ s hs
    obtain ⟨a, t, hxs, ha, ho, hacc⟩ := hx.goes hp s
    rw [exec_bind, hxs, ← ho]
    exact (hf a ha).same hq t (hacc.trans hs)
  · intro hnot s hs
    by_cases hp : p
    · obtain ⟨a, t, hxs, ha, ho, hacc⟩ := hx.goes hp s
      rw [exec_bind, hxs, ← ho]
      exact (hf a ha).wipes (fun hq => hnot ⟨hp, hq⟩) t (hacc.trans hs)
    · obtain ⟨e, t, hxs, ht⟩ := hx.fails hp s
      rw [exec_bind, hxs, ← ht]

/-- A step that destroys where it fails. -/
theorem stage_orDestroy {δ : Type} (exit : δ → Exit) {x : Call δ α} {ok : Prop} {b : α}
    (g : State → State) (h : ∀ s a t, x.exec s = (.ok a, t) ↔ ok ∧ a = b ∧ t = g s)
    (hx : Keeps x SameWorld) : Stage E.faults (orDestroy E φ did exit x) ok (· = b) := by
  constructor
  · intro hok s
    have hexec := (h s b (g s)).2 ⟨hok, rfl, rfl⟩
    have hs := hx s
    rw [hexec] at hs
    exact ⟨b, g s, (orDestroy_ok E φ did exit).2 hexec, rfl, hs⟩
  · intro hnot s
    have hs := hx s
    cases hexec : x.exec s with
    | mk r t =>
      rw [hexec] at hs
      cases r with
      | ok a => exact absurd ((h s a t).1 hexec).1 hnot
      | error e =>
        obtain ⟨err, hdestroy⟩ := orDestroy_error E φ did exit hexec
        obtain ⟨dirs, hafter⟩ := exec_destroy E.faults did t
        exact ⟨err, _, hdestroy, by rw [hafter]; exact congrArg (wipedObjects E.faults) hs.1⟩

theorem stage_of_does {δ : Type} (exit : δ → Exit) {x : Call δ Unit} {ok : Prop}
    {g : State → State} (h : Does x (fun _ => ok) g) (hx : Keeps x SameWorld) :
    Stage E.faults (orDestroy E φ did exit x) ok (· = ()) :=
  stage_orDestroy E φ did exit g (fun s _ t => by simpa using h s t) hx

theorem stage_transact : Stage E.faults (orDestroy E φ did .openActor (transact E))
    (E.faults.access .transact = none) (· = ()) :=
  stage_of_does E φ did .openActor (does_check _ _ _) (keeps_attempt sameWorld_refl _)

theorem stage_createRepo : Stage E.faults (orDestroy E φ did .createRepo (createRepo E))
    (E.faults.access .createRepo = none) (· = E.commit) :=
  stage_orDestroy E φ did .createRepo id (fun _ _ _ => createRepo_ok E) <|
    (keeps_attempt sameWorld_refl _).bind sameWorld_trans fun _ => keeps_pure sameWorld_refl _

theorem stage_persistRotationKey (hsafe : safePathPart did = true)
    (plcRotationKey : Option Keypair) :
    Stage E.faults (persistRotationKey E φ did plcRotationKey)
      (plcRotationKey ≠ none →
        ∀ a ∈ [Access.createRotationDir, .writeRotationKey], E.faults.access a = none)
      (· = ()) := by
  cases plcRotationKey with
  | some keypair =>
    refine stage_of_does E φ did .storeRotationKey ((does_storeRotationKeypair E.faults did keypair).congr
      (fun _ => ?_) fun _ _ => rfl)
      ((onlyDirs_storeRotationKeypair E.faults did keypair).mono OnlyDirs.sameWorld)
    simp [hsafe]
  | none =>
    refine ⟨fun _ s => ⟨(), _, exec_ignore _ s, rfl, ?_⟩, fun h => absurd (by simp) h⟩
    exact OnlyDirs.sameWorld _ _ (onlyDirs_createRotationKeypair E.faults did E.rotationKeypair s)

theorem stage_submitOperation (plcOp : Option Operation) :
    Stage E.faults (submitOperation E φ did plcOp)
      (plcOp ≠ none → E.faults.access .sendOperation = none) (· = ()) := by
  cases plcOp with
  | some op =>
    refine stage_of_does E φ did .sendOperation ((does_sendOperation E did op).congr (fun _ => by simp)
      fun _ _ => rfl) ?_
    exact (keeps_attempt sameWorld_refl _).bind sameWorld_trans fun _ =>
      keeps_modify fun _ => ⟨rfl, rfl⟩
  | none => exact ⟨fun _ s => ⟨(), s, rfl, rfl, sameWorld_refl s⟩, fun h => absurd (by simp) h⟩

theorem accountCreated_congr {opts : Account.CreateAccountOpts} {s t : State}
    (h : t.account = s.account) : AccountCreated E opts t ↔ AccountCreated E opts s := by
  constructor
  · rintro ⟨hreg, hall⟩
    rw [h] at hreg hall
    exact ⟨hreg, hall⟩
  · rintro ⟨hreg, hall⟩
    rw [← h] at hreg hall
    exact ⟨hreg, hall⟩

theorem ends_registerAccount {opts : Account.CreateAccountOpts}
    {rest : String × String → Call ε α} (hrest : ∀ tokens, Keeps (rest tokens) SameKeys) (s : State) :
    Ends E.faults (registerAccount E φ opts >>= rest) s.account (AccountCreated E opts s) := by
  constructor
  · intro h t ht
    exact (sameKeys_of_created E φ ((accountCreated_congr E ht).2 h) hrest).objects
  · intro h t ht
    obtain ⟨r, account, hexec, hr⟩ := exec_onAccount_createAccount E opts t
    cases r with
    | ok tokens => exact absurd ((accountCreated_congr E ht).1 (hr.1 ⟨tokens, rfl⟩)) h
    | error e =>
      obtain ⟨err, hregister⟩ := orDestroy_error E φ opts.did .createAccount hexec
      obtain ⟨dirs, hafter⟩ := exec_destroy E.faults opts.did { t with account }
      rw [exec_bind, registerAccount, hregister]
      dsimp only
      rw [hafter]

/-- Behind `ActorStore::create`. -/
theorem openRepo_of_createsDir {s : State} (h : CreatesDir E.faults did s)
    (plcRotationKey : Option Keypair) :
    ∃ u, SameWorld s u ∧ (openRepo E φ did plcRotationKey).exec s = (do
      persistRotationKey E φ did plcRotationKey
      orDestroy E φ did .openActor (transact E)
      orDestroy E φ did .createRepo (createRepo E)).exec u := by
  have hexec := (does_actorCreate E.faults did E.signingKey s _).2 ⟨⟨h.safe, h.newDid, h.works⟩, rfl⟩
  have hworld := OnlyDirs.sameWorld _ _ (onlyDirs_actorCreate E.faults did E.signingKey s)
  rw [hexec] at hworld
  refine ⟨_, hworld, ?_⟩
  rw [openRepo, exec_bind, exec_mapError, hexec]
  rfl

theorem openRepo_of_not_createsDir {s : State} (h : ¬ CreatesDir E.faults did s)
    (plcRotationKey : Option Keypair) :
    ∃ e t, (openRepo E φ did plcRotationKey).exec s = (.error e, t) ∧ t.objects = s.objects := by
  have hworld := OnlyDirs.sameWorld _ _ (onlyDirs_actorCreate E.faults did E.signingKey s)
  rw [openRepo, exec_bind, exec_mapError]
  cases hexec : (actorCreate E.faults did E.signingKey).exec s with
  | mk r t =>
    rw [hexec] at hworld
    cases r with
    | error e => exact ⟨_, t, rfl, hworld.1⟩
    | ok _ =>
      obtain ⟨⟨hsafe, hnew, hworks⟩, -⟩ := (does_actorCreate E.faults did E.signingKey s t).1 hexec
      exact absurd ⟨hsafe, hnew, hworks⟩ h

/-- A sign-up leaves the blobs alone, or wipes them where it rolls back. -/
theorem objects_signUp (plcRotationKey : Option Keypair) (plcOp : Option Operation)
    (opts : Commit → Account.CreateAccountOpts) (rest : Commit → String × String → Call ε α)
    (hrest : ∀ tokens, Keeps (rest E.commit tokens) SameKeys) (s : State) :
    let t := ((do
      let commit ← openRepo E φ did plcRotationKey
      submitOperation E φ did plcOp
      let tokens ← registerAccount E φ (opts commit)
      rest commit tokens).exec s).2
    (RollsBack E did plcRotationKey plcOp (opts E.commit) s →
        t.objects = wipedObjects E.faults s.objects) ∧
      (¬ RollsBack E did plcRotationKey plcOp (opts E.commit) s → t.objects = s.objects) := by
  intro t
  by_cases hdir : CreatesDir E.faults did s
  swap
  · obtain ⟨e, u, hopen, hu⟩ := openRepo_of_not_createsDir E φ did hdir plcRotationKey
    have ht : t.objects = s.objects := by
      dsimp only [t]
      rw [exec_bind, hopen]
      exact hu
    exact ⟨fun h => absurd h.1 hdir, fun _ => ht⟩
  obtain ⟨u, hu, hopen⟩ := openRepo_of_createsDir E φ did hdir plcRotationKey
  have hends := ((stage_persistRotationKey E φ did hdir.safe plcRotationKey).bind fun _ _ =>
    (stage_transact E φ did).bind fun _ _ => stage_createRepo E φ did).ends (fun commit => do
      submitOperation E φ did plcOp
      let tokens ← registerAccount E φ (opts commit)
      rest commit tokens) fun _ hc => by
        subst hc
        exact (stage_submitOperation E φ did plcOp).ends _ fun _ _ =>
          ends_registerAccount E φ hrest s
  dsimp only [t]
  rw [exec_bind, hopen, ← exec_bind]
  constructor
  · intro h
    refine (hends.wipes (fun hall => h.2 ?_) u hu.2).trans (by rw [hu.1])
    exact ⟨hall.1.1, hall.1.2.1, hall.1.2.2, hall.2.1, hall.2.2⟩
  · intro h
    have hreg : Registers E did plcRotationKey plcOp (opts E.commit) s :=
      Classical.byContradiction fun hn => h ⟨hdir, hn⟩
    rw [hends.same ⟨⟨hreg.storesKey, hreg.transacts, hreg.createsRepo⟩, hreg.sends,
      hreg.creates⟩ u hu.2, hu.1]

end

/-! ## The permanent blobs after a request -/

/-- They are all gone, or all as before. -/
structure WipedIf (p : Prop) (s t : State) : Prop where
  gone : p → ∀ cid, t.objects.lookup (shared.storedPath cid) = none
  same : ¬ p → ∀ cid, t.objects.lookup (shared.storedPath cid) =
    s.objects.lookup (shared.storedPath cid)

theorem wipedIf_and {F : Faults} {p : Prop} {s t : State}
    (h : p → t.objects = wipedObjects F s.objects) (h' : ¬ p → t.objects = s.objects) :
    WipedIf (p ∧ Wipes F) s t := by
  constructor
  · rintro ⟨hp, hw⟩ cid
    rw [h hp, lookup_wipedObjects, if_pos hw]
  · intro hn cid
    by_cases hp : p
    · rw [h hp, lookup_wipedObjects, if_neg fun hw => hn ⟨hp, hw⟩]
    · rw [h' hp]

/-- The body passes the checks, and its sign-up rolls back. -/
def HandlerRollsBack (E : Env) (requester : Option String)
    (checked : Except ApiError CheckedInput) (s : State) : Prop :=
  ∃ v, (checked >>= validateDid E requester) = .ok v ∧
    RollsBack E v.did v.plcRotationKey v.plcOp (v.opts E.commit) s

/-- The same for the other flow. -/
def OauthRollsBack (E : Env) (input : CreateAccountInput) (s : State) : Prop :=
  ∃ genesis, remoteGenesis E input = .ok genesis ∧
    RollsBack E genesis.1 (some E.rotationKeypair) (some genesis.2)
      (input.opts E genesis.1 E.commit) s

theorem wipedIf_innerCreateAccount (E : Env) (requester : Option String)
    (checked : Except ApiError CheckedInput) (s : State) :
    WipedIf (HandlerRollsBack E requester checked s ∧ Wipes E.faults) s
      ((innerCreateAccount E requester checked).exec s).2 := by
  rw [innerCreateAccount, exec_bind, exec_ofExcept]
  unfold HandlerRollsBack
  cases hv : checked >>= validateDid E requester with
  | error e => exact wipedIf_and (by simp) fun _ => rfl
  | ok v =>
    have hsign := objects_signUp E handlerFlow v.did v.plcRotationKey v.plcOp v.opts
      (finishValidated E v) (sameKeys_finishValidated E v E.commit) s
    refine wipedIf_and (fun h => hsign.1 ?_) fun h => hsign.2 fun hr => h ⟨v, rfl, hr⟩
    obtain ⟨v', hv', hr⟩ := h
    cases hv'
    exact hr

theorem wipedIf_remoteCreateAccount (E : Env) (input : CreateAccountInput) (s : State) :
    WipedIf (OauthRollsBack E input s ∧ Wipes E.faults) s
      ((remoteCreateAccount E input).exec s).2 := by
  rw [remoteCreateAccount, exec_bind, exec_ofExcept]
  unfold OauthRollsBack
  cases hg : remoteGenesis E input with
  | error e => exact wipedIf_and (by simp) fun _ => rfl
  | ok genesis =>
    have hsign := objects_signUp E oauthFlow genesis.1 (some E.rotationKeypair) (some genesis.2)
      (input.opts E genesis.1) (fun commit _ => finishRemote E genesis.1 input.handle commit)
      (fun _ => sameKeys_finishRemote E genesis.1 input.handle E.commit) s
    refine wipedIf_and (fun h => hsign.1 ?_) fun h => hsign.2 fun hr => h ⟨genesis, rfl, hr⟩
    obtain ⟨genesis', hg', hr⟩ := h
    cases hg'
    exact hr

/-! ## The other requests -/

/-- `delete_account` of the account manager, one transaction. -/
def deleteAccountRows (fault : Option String) (did : String) : Account.Call Unit :=
  Account.execute fault (fun _ => none) fun s =>
    { s with
      repoRoot := s.repoRoot.erase did
      refreshToken := s.refreshToken.deleteWhere fun _ r => r.did = did
      account := s.account.erase did
      actor := s.actor.erase did }

def deleteAccount (F : Faults) (did : String) (checks : Except ApiError Unit) :
    Call ApiError Unit := do
  ofExcept checks
  mapError (fun _ => .runtimeError) (destroy F did)
  mapError (fun _ => .runtimeError) (onAccount (deleteAccountRows (F.access .deleteAccount) did))
  attempt ((F.access .accountEvt).map fun _ => .runtimeError)
  modify fun s => { s with sequenced := s.sequenced ++ [.account did false (some "deleted")] }
  attempt ((F.access .deleteEvents).map fun _ => .runtimeError)
  modify fun s => { s with sequenced := s.sequenced.filter fun e => e.did ≠ did }

theorem wipedIf_deleteAccount (F : Faults) (did : String) (checks : Except ApiError Unit)
    (s : State) :
    WipedIf (checks = .ok () ∧ Wipes F) s ((deleteAccount F did checks).exec s).2 := by
  have hrest : Keeps (do
      mapError (fun _ => ApiError.runtimeError)
        (onAccount (deleteAccountRows (F.access .deleteAccount) did))
      attempt ((F.access .accountEvt).map fun _ => .runtimeError)
      modify fun s => { s with sequenced := s.sequenced ++ [.account did false (some "deleted")] }
      attempt ((F.access .deleteEvents).map fun _ => .runtimeError)
      modify fun s => { s with sequenced := s.sequenced.filter fun e => e.did ≠ did } :
        Call ApiError Unit) SameKeys :=
    (Keeps.mapError (keeps_zoom _ fun _ _ => ⟨rfl, rfl, rfl⟩) _).bind sameKeys_trans fun _ =>
      (keeps_attempt sameKeys_refl _).bind sameKeys_trans fun _ =>
      (keeps_modify fun _ => ⟨rfl, rfl, rfl⟩).bind sameKeys_trans fun _ =>
      (keeps_attempt sameKeys_refl _).bind sameKeys_trans fun _ =>
      keeps_modify fun _ => ⟨rfl, rfl, rfl⟩
  rw [deleteAccount, exec_bind, exec_ofExcept]
  cases checks with
  | error e => exact wipedIf_and (fun h => by cases h) fun _ => rfl
  | ok _ =>
    refine wipedIf_and (fun _ => ?_) fun h => absurd rfl h
    obtain ⟨dirs, hafter⟩ := exec_destroy F did s
    dsimp only
    rw [exec_bind, exec_mapError]
    cases hexec : (destroy F did).exec s with
    | mk r t =>
      rw [hexec] at hafter
      dsimp only at hafter
      subst hafter
      cases r with
      | error e => rfl
      | ok _ => exact (hrest _).objects

/-- The bytes go straight to their permanent place; no row says whose they are. -/
def uploadBlob (F : Faults) (cidOf : Bytes → Cid) (bytes : Bytes) : Call ApiError Cid := do
  mapError (fun _ => .runtimeError) <| zoom State.objects (fun objects s => { s with objects }) <|
    shared.putPermanent F.backend (cidOf bytes) bytes
  return cidOf bytes

end CacosPds.Server
