import CacosPds.Lib.Run
import CacosPds.Account.Credentials
import CacosPds.Account.RefreshTokens
/-!
# What an app password brings, and its revocation

| here | there |
| --- | --- |
| `Task.verifyAccount` … `storing` | `inner_create_session` (`create_session.rs:39-117`) with `create_session` (`account/mod.rs:284-313`), statement by statement |
| `Task.select` … `join`  | `rotate_refresh_token` (`account/mod.rs:315-386`), as in `Account.RefreshTokens` |
| `Task.mint`             | `create_app_password` (`create_app_password.rs:6-27`, `helpers/password.rs:98-137`) |
| `Task.revoke`           | `revoke_app_password` (`revoke_app_password.rs:6-28`, `account/mod.rs:522-528`): two deletions, side by side |
| `Action.present`        | `AccessStandard` (`auth_extractors.rs:82-98`): the scopes of an app password's session pass |
| `Action.other`          | any other request: it may delete rows of the two tables and write the accounts |
| `Made`, `tokenOf`, `Descends` | where a credential came from; nothing of this is stored |

An app password is known by its DID and its hash: one that is drawn has a hash of its own. A session
that an app password opened may create further app passwords, under any name, and the revocation
deletes by name alone. Locks and takedowns only make a request give up, which `Action.drop` does.
-/
namespace CacosPds.Server.AppPasswords

open Stages Runs Sql Account Account.Refresh

/-- The DID and the hash. -/
abbrev AppPasswordId := String × String

structure Env where
  tokens : Refresh.Library
  passwords : Account.Library
  serviceDid : String

/-- The name of an app password, and the app password by whose session it was made. -/
structure Made where
  name : String
  parent : Option AppPasswordId
  deriving DecidableEq

/-- A row that a statement is to insert, with where its session comes from. -/
structure Pending where
  payload : RefreshToken
  appPasswordName : Option String
  source : Option AppPasswordId
  state : InsertState

structure AccessToken where
  did : String
  source : Option AppPasswordId
  /-- What had been revoked when the token was signed. -/
  revokedThen : Finset AppPasswordId
  expired : Bool
  deriving DecidableEq

/-- A request, by what it is to do next. -/
inductive Task where
  | verifyAccount (did password : String)
  | verifyApp (did password : String)
  /-- The password is right; `source` is the app password that it is, if it is one. -/
  | sign (did : String) (appPasswordName : Option String) (source : Option AppPasswordId)
  /-- Awaiting its insert. -/
  | storing (k : Nat)
  | select (id : String)
  | sweep (id : String) (row : RefreshTokenRow)
  | join (id : String) (next : Successor) (k : Nat) (updated : Bool)
  | mint (did name : String) (parent : Option AppPasswordId)
  /-- The app passwords deleted, if they are, and whether the tokens are. -/
  | revoke (did name : String) (deleted : Option (Finset AppPasswordId)) (tokens : Bool)
  | ended

structure World where
  db : Tables
  tasks : List Task
  inserts : List Pending
  access : List AccessToken
  made : Table AppPasswordId Made
  /-- The app password of every refresh token ever drawn, `none` for the account's own password. -/
  tokenOf : Table String (Option AppPasswordId)
  /-- The app passwords whose revocation has completed. -/
  revoked : Finset AppPasswordId

/-- What is drawn, read off the clock or failed in a step. -/
structure Choice where
  fault : Option String
  now : String
  nowMicros : Int
  /-- A random text. -/
  fresh : String
  /-- Which of the two deletions of a revocation goes first. -/
  tokens : Bool

inductive Action where
  /-- `createSession`. -/
  | login (did password : String)
  /-- `createAccount`, which ends in a session. -/
  | signUp (did : String)
  /-- `refreshSession`. -/
  | refresh (id : String)
  /-- `createAppPassword` with access token `j`. -/
  | present (j : Nat) (name : String)
  /-- `revokeAppPassword`. -/
  | revokeAppPassword (did name : String)
  | advance (i : Nat) (c : Choice)
  | insert (k : Nat) (fault : Option String)
  | drop (i : Nat)
  | expire (j : Nat)
  | other (tokens : String → RefreshTokenRow → Bool)
      (passwords : String × String → AppPasswordRow → Bool)
      (account : Table String AccountRow → Table String AccountRow)

/-! ## The steps -/

def World.set (W : World) (i : Nat) (task : Task) : World := { W with tasks := W.tasks.set i task }

def World.start (W : World) (task : Task) : World := { W with tasks := W.tasks ++ [task] }

def World.setAccount (W : World) (account : Account.Db) : World :=
  { W with db := { W.db with account } }

/-- Tokens are signed: their id is drawn, and their row is to be inserted. -/
def World.sign (W : World) (did : String) (payload : RefreshToken) (appPasswordName : Option String)
    (source : Option AppPasswordId) : World :=
  { W with
    inserts := W.inserts ++ [⟨payload, appPasswordName, source, .waiting⟩]
    tokenOf := W.tokenOf.insertIgnore payload.jti source
    access := W.access ++ [⟨did, source, W.revoked, false⟩] }

/-- The app passwords ever made under a name. -/
def World.named (W : World) (did name : String) : Finset AppPasswordId :=
  (W.made.select (fun a m => a.1 = did ∧ m.name = name) fun a _ => a).toFinset

/-- The source of a token. -/
def World.source (W : World) (id : String) : Option AppPasswordId := (W.tokenOf.lookup id).join

def insertAppPassword (now did name passwordEncrypted : String) (s : Tables) : Tables :=
  { s with appPassword := s.appPassword.insert (did, name) ⟨passwordEncrypted, now⟩ }

/-- `create_app_password`; the random password has a hash that no other has. -/
def mint (E : Env) (W : World) (i : Nat) (c : Choice) (did name : String)
    (parent : Option AppPasswordId) : Option World :=
  match c.fault, E.passwords.hashAppPassword did c.fresh with
  | some _, _ | _, .error _ => some (W.set i .ended)
  | none, .ok hash =>
    if (did, hash) ∈ W.made then none
    else if (did, name) ∈ W.db.appPassword then some (W.set i .ended)
    else some { W.set i .ended with
      db := insertAppPassword c.now did name hash W.db
      made := W.made.insert (did, hash) ⟨name, parent⟩ }

/-- After the sweep. A random id has not been drawn before. -/
def afterSweep (W : World) (i : Nat) (id : String) (row : RefreshTokenRow) :
    Except AccountError (Option Successor) → Option World
  | .error _ | .ok none => some (W.set i .ended)
  | .ok (some next) =>
    if row.nextId = none ∧ next.nextId ∈ W.tokenOf then none
    else some ((W.sign row.did next.payload row.appPasswordName (W.source id)).set i
      (.join id next W.inserts.length false))

/-- Both deletions are done. -/
def World.complete (W : World) (i : Nat) (deleted : Finset AppPasswordId) : World :=
  { W.set i .ended with revoked := W.revoked ∪ deleted }

/-- The deletion of the refresh tokens. -/
def revokeTokens (W : World) (i : Nat) (fault : Option String) (did name : String)
    (deleted : Option (Finset AppPasswordId)) : World :=
  match (revokeAppPasswordRefreshToken fault did name).exec W.db.account with
  | (.error _, account) => (W.setAccount account).set i .ended
  | (.ok _, account) =>
    match deleted with
    | none => (W.setAccount account).set i (.revoke did name none true)
    | some deleted => (W.setAccount account).complete i deleted

/-- `delete_app_password`. -/
def deleteAppPassword (did name : String) (s : Tables) : Tables :=
  { s with appPassword := s.appPassword.erase (did, name) }

/-- The deletion of the app password. -/
def revokePassword (W : World) (i : Nat) (fault : Option String) (did name : String)
    (tokens : Bool) : World :=
  match fault with
  | some _ => W.set i .ended
  | none =>
    let W' := { W with db := deleteAppPassword did name W.db }
    if tokens then W'.complete i (W.named did name)
    else W'.set i (.revoke did name (some (W.named did name)) false)

def advance (E : Env) (W : World) (i : Nat) (c : Choice) : Task → Option World
  | .verifyAccount did password =>
    match c.fault, verifyAccountPassword E.passwords did password W.db.account with
    | none, .ok true => some (W.set i (.sign did none none))
    | none, .ok false => some (W.set i (.verifyApp did password))
    | _, _ => some (W.set i .ended)
  | .verifyApp did password =>
    match c.fault, E.passwords.hashAppPassword did password with
    | none, .ok hash =>
      match (appPasswordNames did hash W.db.appPassword).head? with
      | some name => some (W.set i (.sign did (some name) (some (did, hash))))
      | none => some (W.set i .ended)
    | _, _ => some (W.set i .ended)
  | .sign did appPasswordName source =>
    let scope := if appPasswordName.isNone then AuthScope.access else .appPass
    if c.fresh ∈ W.tokenOf then none
    else
      match E.tokens.createTokens did E.serviceDid scope c.fresh with
      | .error _ => some (W.set i .ended)
      | .ok (_, refreshJwt) =>
        match E.tokens.decodeRefreshToken refreshJwt with
        | .error _ => some (W.set i .ended)
        | .ok payload =>
          some ((W.sign did payload appPasswordName source).set i (.storing W.inserts.length))
  | .storing k =>
    if W.inserts[k]?.map Pending.state = some .waiting then none else some (W.set i .ended)
  | .select id =>
    match ((getRefreshToken c.fault id).exec W.db.account).1 with
    | .ok (some row) => some (W.set i (.sweep id row))
    | _ => some (W.set i .ended)
  | .sweep id row =>
    match (deleteExpiredRefreshTokens c.fault row.did c.now).exec W.db.account with
    | (.error _, account) => some ((W.setAccount account).set i .ended)
    | (.ok _, account) =>
      afterSweep (W.setAccount account) i id row
        (prepareSuccessor E.tokens E.serviceDid row c.nowMicros c.fresh)
  | .join id next k false =>
    match (addRefreshGracePeriod c.fault id next.expiresAt next.nextId).exec W.db.account with
    | (.ok _, account) => some ((W.setAccount account).set i (.join id next k true))
    | (.error .concurrentRefresh, account) => some ((W.setAccount account).set i (.select id))
    | (.error _, account) => some ((W.setAccount account).set i .ended)
  | .join _ _ k true =>
    if W.inserts[k]?.map Pending.state = some .waiting then none else some (W.set i .ended)
  | .mint did name parent => mint E W i c did name parent
  | .revoke did name deleted tokens =>
    match c.tokens, deleted, tokens with
    | true, deleted, false => some (revokeTokens W i c.fault did name deleted)
    | false, none, tokens => some (revokePassword W i c.fault did name tokens)
    | _, _, _ => none
  | .ended => none

def stepInsert (E : Env) (W : World) (k : Nat) (fault : Option String) (P : Pending) :
    Option World :=
  if P.state = .waiting then
    match (storeRefreshToken fault E.tokens.formatMillis P.payload P.appPasswordName).exec
      W.db.account with
    | (.ok _, account) =>
      some { W.setAccount account with inserts := W.inserts.set k { P with state := .done } }
    | (.error _, account) =>
      some { W.setAccount account with inserts := W.inserts.set k { P with state := .failed } }
  else none

def step (E : Env) (W : World) : Action → Option World
  | .login did password => some (W.start (.verifyAccount did password))
  | .signUp did => some (W.start (.sign did none none))
  | .refresh id => some (W.start (.select id))
  | .present j name => W.access[j]?.bind fun t =>
      if t.expired then none else some (W.start (.mint t.did name t.source))
  | .revokeAppPassword did name => some (W.start (.revoke did name none false))
  | .advance i c => W.tasks[i]?.bind (advance E W i c)
  | .insert k fault => W.inserts[k]?.bind (stepInsert E W k fault)
  | .drop i => some (W.set i .ended)
  | .expire j => W.access[j]?.map fun t =>
      { W with access := W.access.set j { t with expired := true } }
  | .other tokens passwords account => some { W with db := { W.db with
      account := { W.db.account with
        refreshToken := W.db.account.refreshToken.deleteWhere tokens
        account := account W.db.account.account }
      appPassword := W.db.appPassword.deleteWhere passwords } }

/-- A database with accounts, and no sessions or app passwords yet. -/
def World.initial (db : Tables) : World :=
  ⟨{ db with account := { db.account with refreshToken := ∅ }, appPassword := ∅ }, [], [], [], ∅, ∅,
    ∅⟩

/-! ## What is asked of a run -/

/-- The app password `a` was made, over however many sessions, by one that `s` opened. -/
inductive Descends (W : World) (s : AppPasswordId) : AppPasswordId → Prop
  | self : Descends W s s
  | made {a p : AppPasswordId} {m : Made} (hm : W.made.lookup a = some m)
      (hp : m.parent = some p) (h : Descends W s p) : Descends W s a

inductive Credential where
  | appPassword (a : AppPasswordId)
  | refreshToken (id : String)
  | accessToken (j : Nat)

/-- What can be obtained from the app password `s`, directly or over other credentials. -/
def Derived (W : World) (s : AppPasswordId) : Credential → Prop
  | .appPassword a => Descends W s a
  | .refreshToken id => ∃ a, W.tokenOf.lookup id = some (some a) ∧ Descends W s a
  | .accessToken j => ∃ t a, W.access[j]? = some t ∧ t.source = some a ∧ Descends W s a

def Accepted (E : Env) (W : World) : Credential → Prop
  | .appPassword a => ∃ password name, E.passwords.hashAppPassword a.1 password = .ok a.2 ∧
      verifyAppPassword E.passwords a.1 password W.db.appPassword = .ok (some name)
  | .refreshToken id => id ∈ W.db.account.refreshToken
  | .accessToken j => ∃ t, W.access[j]? = some t ∧ t.expired = false

/-- Of an app password whose revocation has completed nothing is left, once the access tokens that
had been signed by then have expired. -/
def RevokedOut (E : Env) (W : World) : Prop :=
  ∀ s ∈ W.revoked, (∀ t ∈ W.access, s ∉ t.revokedThen → t.expired = true) →
    ∀ c, Derived W s c → ¬ Accepted E W c

/-! ## The condition -/

/-- The app password for which a request is on its way to an insert. -/
def Task.source (W : World) : Task → Option AppPasswordId
  | .sign _ _ source => source
  | .sweep id _ => W.source id
  | _ => none

/-- A session of the app password is about to get a row. -/
def InFlight (W : World) (a : AppPasswordId) : Prop :=
  (∃ task ∈ W.tasks, task.source W = some a) ∨
    ∃ P ∈ W.inserts, P.state = .waiting ∧ P.source = some a

/-- No session goes by the name. -/
def NoTokens (W : World) (did name : String) : Prop :=
  W.db.account.refreshToken.anyRow
    (fun _ row => row.did = did ∧ row.appPasswordName = some name) = false

/-- The condition on a revocation that is about to complete. -/
def ReachesSessions (W : World) (c : Choice) : Task → Prop
  | .revoke _ _ (some deleted) false =>
      c.tokens = true → c.fault = none → ∀ a ∈ deleted, ¬ InFlight W a
  | .revoke did name none true => c.tokens = false → c.fault = none →
      (∀ a ∈ W.named did name, ¬ InFlight W a) ∧ NoTokens W did name
  | _ => True

/-- No app password makes another, and no sign-in or refresh of a session overtakes the revocation
of its app password. -/
def Contained (W : World) : Action → Prop
  | .present j _ => ∀ t ∈ W.access[j]?, t.source = none
  | .advance i c => ∀ task ∈ W.tasks[i]?, ReachesSessions W c task
  | _ => True

instance (W : World) (a : AppPasswordId) : Decidable (InFlight W a) :=
  inferInstanceAs (Decidable ((∃ task ∈ W.tasks, _ = _) ∨ ∃ P ∈ W.inserts, _ ∧ _))

instance (W : World) (did name : String) : Decidable (NoTokens W did name) :=
  inferInstanceAs (Decidable (_ = false))

instance (W : World) (c : Choice) : ∀ task, Decidable (ReachesSessions W c task)
  | .revoke _ _ (some deleted) false =>
    inferInstanceAs (Decidable (_ → _ → ∀ a ∈ deleted, ¬ InFlight W a))
  | .revoke did name none true =>
    inferInstanceAs
      (Decidable (_ → _ → (∀ a ∈ W.named did name, ¬ InFlight W a) ∧ NoTokens W did name))
  | .revoke _ _ (some _) true | .revoke _ _ none false => isTrue trivial
  | .verifyAccount _ _ | .verifyApp _ _ | .sign _ _ _ | .storing _ | .select _ | .sweep _ _
  | .join _ _ _ _ | .mint _ _ _ | .ended => isTrue trivial

instance (W : World) : ∀ a, Decidable (Contained W a)
  | .present j _ => inferInstanceAs (Decidable (∀ t ∈ W.access[j]?, t.source = none))
  | .advance i c => inferInstanceAs (Decidable (∀ task ∈ W.tasks[i]?, ReachesSessions W c task))
  | .login _ _ | .signUp _ | .refresh _ | .revokeAppPassword _ _ | .insert _ _ | .drop _ | .expire _
  | .other _ _ _ => isTrue trivial

/-! ## The invariant -/

/-- The app password has the name. -/
def Matches (made : Table AppPasswordId Made) (did : String) (appPasswordName : Option String) :
    Option AppPasswordId → Prop
  | none => appPasswordName = none
  | some a => a.1 = did ∧ ∃ m, made.lookup a = some m ∧ appPasswordName = some m.name

def Live (W : World) (source : Option AppPasswordId) : Prop := ∀ a, source = some a → a ∉ W.revoked

/-- A row carries the data of its source, as does the successor it names. -/
def RowInv (W : World) (id : String) (row : RefreshTokenRow) : Prop :=
  ∃ source, W.tokenOf.lookup id = some source ∧ Live W source ∧
    Matches W.made row.did row.appPasswordName source ∧
    ∀ n, row.nextId = some n → W.tokenOf.lookup n = some source

structure PendingInv (W : World) (P : Pending) : Prop where
  source : W.tokenOf.lookup P.payload.jti = some P.source
  named : Matches W.made P.payload.sub P.appPasswordName P.source
  live : P.state = .waiting → Live W P.source

/-- Made under its name, not revoked. -/
def PasswordInv (W : World) (k : String × String) (row : AppPasswordRow) : Prop :=
  (∃ m, W.made.lookup (k.1, row.password) = some m ∧ m.name = k.2) ∧ (k.1, row.password) ∉ W.revoked

/-- Made under the name, and its row is gone. -/
def DeletedInv (W : World) (did name : String) (a : AppPasswordId) : Prop :=
  (a.1 = did ∧ ∃ m, W.made.lookup a = some m ∧ m.name = name) ∧
    ∀ k row, W.db.appPassword.lookup k = some row → (k.1, row.password) ≠ a

def TaskInv (W : World) : Task → Prop
  | .sign did appPasswordName source => Live W source ∧ Matches W.made did appPasswordName source
  | .sweep id row => RowInv W id row
  | .join id next _ _ => ∃ source, W.tokenOf.lookup id = some source ∧
      W.tokenOf.lookup next.nextId = some source
  | .mint _ _ parent => parent = none
  | .revoke did name (some deleted) _ => ∀ a ∈ deleted, DeletedInv W did name a
  | _ => True

structure Sound (W : World) : Prop where
  parent : ∀ a m, W.made.lookup a = some m → m.parent = none
  revoked : ∀ a ∈ W.revoked, a ∈ W.made
  password : ∀ k row, W.db.appPassword.lookup k = some row → PasswordInv W k row
  token : ∀ id row, W.db.account.refreshToken.lookup id = some row → RowInv W id row
  insert : ∀ P ∈ W.inserts, PendingInv W P
  task : ∀ task ∈ W.tasks, TaskInv W task
  access : ∀ t ∈ W.access, ∀ a, t.source = some a → a ∉ t.revokedThen

/-- Without descendants, an app password comes from itself alone. -/
theorem Sound.eq_of_descends {W : World} (h : Sound W) {s a : AppPasswordId}
    (hd : Descends W s a) : a = s := by
  cases hd with
  | self => rfl
  | made hm hp _ => rw [h.parent _ _ hm] at hp; cases hp

theorem Sound.revokedOut {E : Env} {W : World} (h : Sound W) : RevokedOut E W := by
  intro s hs hexpired c hder hacc
  cases c with
  | appPassword a =>
    obtain rfl := h.eq_of_descends hder
    obtain ⟨password, name, hhash, hverify⟩ := hacc
    obtain ⟨row, hl, hrow⟩ := verifyAppPassword_some hverify
    have hp : row.password = a.2 := Except.ok.inj (hrow.symm.trans hhash)
    have hlive := (h.password _ row hl).2
    rw [hp] at hlive
    exact hlive hs
  | refreshToken id =>
    obtain ⟨a, htoken, hd⟩ := hder
    obtain rfl := h.eq_of_descends hd
    obtain ⟨row, hl⟩ := Finmap.mem_iff.1 hacc
    obtain ⟨source, hsource, hlive, -⟩ := h.token id row hl
    obtain rfl := Option.some.inj (htoken.symm.trans hsource)
    exact hlive _ rfl hs
  | accessToken j =>
    obtain ⟨t, a, hj, ha, hd⟩ := hder
    obtain rfl := h.eq_of_descends hd
    obtain ⟨t', hj', hfresh⟩ := hacc
    obtain rfl := Option.some.inj (hj.symm.trans hj')
    have hmem := List.mem_of_getElem? hj
    rw [hexpired t hmem (h.access t hmem _ ha)] at hfresh
    cases hfresh

/-! ## Growth -/

/-- Nothing is forgotten, nothing more is revoked, and what is made is new. -/
structure Grows (W W' : World) : Prop where
  made : ∀ a m, W.made.lookup a = some m → W'.made.lookup a = some m
  tokenOf : ∀ id source, W.tokenOf.lookup id = some source → W'.tokenOf.lookup id = some source
  revoked : W'.revoked = W.revoked
  password : ∀ k row, W'.db.appPassword.lookup k = some row →
    W.db.appPassword.lookup k = some row ∨ (k.1, row.password) ∉ W.made

section

variable {W W' : World}

theorem Matches.grows {did : String} {appPasswordName : Option String}
    {source : Option AppPasswordId} (h : Matches W.made did appPasswordName source)
    (g : Grows W W') : Matches W'.made did appPasswordName source := by
  cases source with
  | none => exact h
  | some a =>
    obtain ⟨hd, m, hm, hn⟩ := h
    exact ⟨hd, m, g.made a m hm, hn⟩

theorem Live.grows {source : Option AppPasswordId} (h : Live W source) (g : Grows W W') :
    Live W' source := by
  intro a ha
  rw [g.revoked]
  exact h a ha

theorem RowInv.grows {id : String} {row : RefreshTokenRow} (h : RowInv W id row) (g : Grows W W') :
    RowInv W' id row := by
  obtain ⟨source, hs, hlive, hm, hn⟩ := h
  refine ⟨source, g.tokenOf _ _ hs, hlive.grows g, hm.grows g, fun n hrow => ?_⟩
  exact g.tokenOf _ _ (hn n hrow)

theorem PendingInv.grows {P : Pending} (h : PendingInv W P) (g : Grows W W') : PendingInv W' P where
  source := g.tokenOf _ _ h.source
  named := h.named.grows g
  live hw := (h.live hw).grows g

theorem PasswordInv.grows {k : String × String} {row : AppPasswordRow} (h : PasswordInv W k row)
    (g : Grows W W') : PasswordInv W' k row := by
  obtain ⟨⟨m, hm, hn⟩, hlive⟩ := h
  exact ⟨⟨m, g.made _ _ hm, hn⟩, by rwa [g.revoked]⟩

theorem DeletedInv.grows {did name : String} {a : AppPasswordId} (h : DeletedInv W did name a)
    (g : Grows W W') : DeletedInv W' did name a := by
  obtain ⟨⟨hd, m, hm, hn⟩, hgone⟩ := h
  refine ⟨⟨hd, m, g.made _ _ hm, hn⟩, fun k row hl he => ?_⟩
  rcases g.password k row hl with hold | hnew
  · exact hgone k row hold he
  · exact hnew (he ▸ Finmap.mem_of_lookup_eq_some hm)

theorem TaskInv.grows {task : Task} (h : TaskInv W task) (g : Grows W W') : TaskInv W' task := by
  cases task with
  | sign did name source => exact ⟨h.1.grows g, h.2.grows g⟩
  | sweep id row => exact RowInv.grows h g
  | join id next k updated =>
    obtain ⟨source, hid, hnext⟩ := h
    exact ⟨source, g.tokenOf _ _ hid, g.tokenOf _ _ hnext⟩
  | mint did name parent => exact h
  | revoke did name deleted tokens =>
    cases deleted with
    | none => trivial
    | some deleted => exact fun a ha => (h a ha).grows g
  | _ => trivial

/-- A step that revokes nothing: whatever is new has to be in order. -/
theorem Sound.grow (h : Sound W) (g : Grows W W')
    (hparent : ∀ a m, W'.made.lookup a = some m → W.made.lookup a = some m ∨ m.parent = none)
    (hpassword : ∀ k row, W'.db.appPassword.lookup k = some row →
      W.db.appPassword.lookup k = some row ∨ PasswordInv W' k row)
    (htoken : ∀ id row, W'.db.account.refreshToken.lookup id = some row →
      W.db.account.refreshToken.lookup id = some row ∨ RowInv W' id row)
    (hinsert : ∀ P ∈ W'.inserts, P ∈ W.inserts ∨ PendingInv W' P)
    (htask : ∀ task ∈ W'.tasks, task ∈ W.tasks ∨ TaskInv W' task)
    (haccess : ∀ t ∈ W'.access, (∃ t' ∈ W.access, t'.source = t.source ∧
      t'.revokedThen = t.revokedThen) ∨ Live W t.source ∧ t.revokedThen = W.revoked) :
    Sound W' where
  parent a m hm := (hparent a m hm).elim (h.parent a m) id
  revoked a ha := by
    rw [g.revoked] at ha
    obtain ⟨m, hm⟩ := Finmap.mem_iff.1 (h.revoked a ha)
    exact Finmap.mem_of_lookup_eq_some (g.made a m hm)
  password k row hl := (hpassword k row hl).elim (fun hold => (h.password k row hold).grows g) id
  token id row hl := (htoken id row hl).elim (fun hold => (h.token id row hold).grows g)
    fun hnew => hnew
  insert P hP := (hinsert P hP).elim (fun hold => (h.insert P hold).grows g) id
  task t ht := (htask t ht).elim (fun hold => (h.task t hold).grows g) id
  access t ht a ha := by
    rcases haccess t ht with ⟨t', ht', hsource, hthen⟩ | ⟨hlive, hthen⟩
    · rw [← hthen]
      exact h.access t' ht' a (hsource.trans ha)
    · rw [hthen]
      exact hlive a ha

/-- Only the tasks and the tables are touched. -/
theorem Sound.tables (h : Sound W) {db : Tables} {inserts : List Pending} {tasks : List Task}
    (hpassword : ∀ k row, db.appPassword.lookup k = some row →
      W.db.appPassword.lookup k = some row)
    (htoken : ∀ id row, db.account.refreshToken.lookup id = some row →
      W.db.account.refreshToken.lookup id = some row ∨ RowInv W id row)
    (hinsert : ∀ P ∈ inserts, P ∈ W.inserts ∨ PendingInv W P)
    (htask : ∀ task ∈ tasks, task ∈ W.tasks ∨ TaskInv { W with db } task) :
    Sound { W with db, inserts, tasks } := by
  have g : Grows W { W with db, inserts, tasks } :=
    ⟨fun _ _ => id, fun _ _ => id, rfl, fun k row hl => .inl (hpassword k row hl)⟩
  refine h.grow g (fun _ _ => .inl) (fun k row hl => .inl (hpassword k row hl))
    (fun id row hl => ?_) (fun P hP => ?_) (fun t ht => ?_) fun t ht => .inl ⟨t, ht, rfl, rfl⟩
  · exact (htoken id row hl).imp_right fun hr => RowInv.grows hr g
  · exact (hinsert P hP).imp_right fun hp => hp.grows g
  · refine (htask t ht).imp_right fun hi => TaskInv.grows hi ?_
    exact ⟨fun _ _ => id, fun _ _ => id, rfl, fun _ _ => .inl⟩

theorem mem_set_task {tasks : List Task} {i : Nat} {task t : Task} (ht : t ∈ tasks.set i task) :
    t ∈ tasks ∨ t = task := List.mem_or_eq_of_mem_set ht

theorem Sound.set (h : Sound W) (i : Nat) {task : Task} (ht : TaskInv W task) :
    Sound (W.set i task) := by
  refine h.tables (fun _ _ => id) (fun _ _ => .inl) (fun _ => .inl) fun t hmem => ?_
  rcases mem_set_task hmem with hold | rfl
  · exact .inl hold
  · exact .inr ht

theorem Sound.start (h : Sound W) {task : Task} (ht : TaskInv W task) : Sound (W.start task) := by
  refine h.tables (fun _ _ => id) (fun _ _ => .inl) (fun _ => .inl) fun t hmem => ?_
  rcases List.mem_append.1 hmem with hold | hnew
  · exact .inl hold
  · rw [List.mem_singleton.1 hnew]
    exact .inr ht

/-- Rows of refresh tokens go, or come in order. -/
theorem Sound.setAccount (h : Sound W) {account : Account.Db}
    (htoken : ∀ id row, account.refreshToken.lookup id = some row →
      W.db.account.refreshToken.lookup id = some row ∨ RowInv W id row) :
    Sound (W.setAccount account) :=
  h.tables (fun _ _ => id) htoken (fun _ => .inl) fun _ => .inl

/-- Tokens of a live source are signed. -/
theorem Sound.sign (h : Sound W) {did : String} {payload : RefreshToken} {name : Option String}
    {source : Option AppPasswordId} (hlive : Live W source)
    (hmatch : Matches W.made payload.sub name source)
    (hid : ∀ source', W.tokenOf.lookup payload.jti = some source' → source' = source) :
    Sound (W.sign did payload name source) ∧ Grows W (W.sign did payload name source) ∧
      (W.sign did payload name source).tokenOf.lookup payload.jti = some source := by
  have hnew : (W.sign did payload name source).tokenOf.lookup payload.jti = some source := by
    rw [World.sign, Table.lookup_insertIgnore, if_pos rfl]
    cases hl : W.tokenOf.lookup payload.jti with
    | none => rfl
    | some source' => rw [hid _ hl]; rfl
  have g : Grows W (W.sign did payload name source) := by
    refine ⟨fun _ _ => id, fun id source' hl => ?_, rfl, fun _ _ => .inl⟩
    rw [World.sign, Table.lookup_insertIgnore]
    split
    · rename_i he
      rw [he] at hl
      rw [hl]
      rfl
    · exact hl
  refine ⟨h.grow g (fun _ _ => .inl) (fun _ _ => .inl) (fun _ _ => .inl) (fun P hP => ?_)
    (fun _ => .inl) fun t ht => ?_, g, hnew⟩
  · rcases List.mem_append.1 hP with hold | hP
    · exact .inl hold
    · rw [List.mem_singleton.1 hP]
      exact .inr ⟨hnew, hmatch.grows g, fun _ => hlive.grows g⟩
  · rcases List.mem_append.1 ht with hold | ht
    · exact .inl ⟨t, hold, rfl, rfl⟩
    · rw [List.mem_singleton.1 ht]
      exact .inr ⟨hlive, rfl⟩

/-! ## The steps -/

theorem Sound.mint {E : Env} {i : Nat} {c : Choice} {did name : String} (h : Sound W)
    (hstep : mint E W i c did name none = some W') : Sound W' := by
  unfold AppPasswords.mint at hstep
  split at hstep
  · cases hstep
    exact h.set i trivial
  · cases hstep
    exact h.set i trivial
  rename_i hash hf hhash
  split at hstep
  · cases hstep
  rename_i hnew
  split at hstep
  · cases hstep
    exact h.set i trivial
  rename_i hfree
  cases hstep
  have hlookup : ∀ k row,
      (insertAppPassword c.now did name hash W.db).appPassword.lookup k = some row →
      W.db.appPassword.lookup k = some row ∨ k = (did, name) ∧ row.password = hash := by
    intro k row hl
    rw [insertAppPassword, Table.lookup_insert_eq] at hl
    split at hl
    · cases hl
      exact .inr ⟨‹_›, rfl⟩
    · exact .inl hl
  refine (h.set i (show TaskInv W .ended from trivial)).grow ⟨fun a m hm => ?_, fun _ _ => id, rfl,
    fun k row hl => ?_⟩ (fun a m hm => ?_) (fun k row hl => ?_) (fun _ _ => .inl) (fun _ => .inl)
    (fun _ => .inl) fun t ht => .inl ⟨t, ht, rfl, rfl⟩
  · rw [Table.lookup_insert_eq, if_neg]
    · exact hm
    · rintro rfl
      exact hnew (Finmap.mem_of_lookup_eq_some hm)
  · rcases hlookup k row hl with hold | ⟨rfl, rfl⟩
    · exact .inl hold
    · exact .inr hnew
  · rw [Table.lookup_insert_eq] at hm
    split at hm
    · cases hm
      exact .inr rfl
    · exact .inl hm
  · rcases hlookup k row hl with hold | ⟨rfl, rfl⟩
    · exact .inl hold
    · refine .inr ⟨⟨⟨name, none⟩, ?_, rfl⟩, fun hrev => hnew (h.revoked _ hrev)⟩
      rw [Table.lookup_insert_eq, if_pos rfl]

theorem Sound.afterSweep {E : Env} {i : Nat} {id fresh : String} {row : RefreshTokenRow} {now : Int}
    (h : Sound W) (hrow : RowInv W id row)
    (hstep : afterSweep W i id row (prepareSuccessor E.tokens E.serviceDid row now fresh) =
      some W') : Sound W' := by
  cases hprep : prepareSuccessor E.tokens E.serviceDid row now fresh with
  | error e =>
    rw [hprep] at hstep
    cases hstep
    exact h.set i trivial
  | ok next? =>
    rw [hprep] at hstep
    cases next? with
    | none =>
      cases hstep
      exact h.set i trivial
    | some next =>
      simp only [AppPasswords.afterSweep] at hstep
      split at hstep
      · cases hstep
      rename_i hfresh
      cases hstep
      obtain ⟨source, hsource, hlive, hmatch, hnext⟩ := hrow
      obtain ⟨hid, hjti, hsub⟩ := prepareSuccessor_some hprep
      have hsrc : W.source id = source := by rw [World.source, hsource]; rfl
      rw [hsrc]
      rw [← hsub] at hmatch
      obtain ⟨hs, g, hnew⟩ := @Sound.sign W h row.did next.payload _ _ hlive hmatch fun source' hl => by
        -- either the row names the token already, or it is new
        rw [hjti] at hl
        cases hn : row.nextId with
        | none => exact absurd ⟨hn, Finmap.mem_of_lookup_eq_some hl⟩ hfresh
        | some n =>
          rw [hid, hn, Option.getD_some, hnext n hn] at hl
          exact (Option.some.inj hl).symm
      exact hs.set i ⟨source, g.tokenOf _ _ hsource, hjti ▸ hnew⟩

/-- What the grace period writes into the row of a token. -/
theorem Sound.grace {fault : Option String} {account : Account.Db} {id expiresAt nextId : String}
    (h : Sound W) (hnext : ∃ source, W.tokenOf.lookup id = some source ∧
      W.tokenOf.lookup nextId = some source)
    (hx : (addRefreshGracePeriod fault id expiresAt nextId).exec W.db.account = (.ok (), account)) :
    Sound (W.setAccount account) := by
  obtain ⟨-, rfl⟩ := addRefreshGracePeriod_ok hx
  refine h.setAccount fun id' row hl => ?_
  rw [Table.lookup_updateWhere] at hl
  obtain ⟨row', hl', hrow⟩ := Option.map_eq_some_iff.1 hl
  split at hrow
  · rename_i hgrace
    subst hrow
    obtain ⟨rfl, -⟩ := of_decide_eq_true hgrace
    obtain ⟨source, hsource, hlive, hmatch, -⟩ := h.token _ row' hl'
    obtain ⟨source', hid, hn⟩ := hnext
    obtain rfl := Option.some.inj (hsource.symm.trans hid)
    refine .inr ⟨source, hsource, hlive, hmatch, fun n hrow => ?_⟩
    cases hrow
    exact hn
  · subst hrow
    exact .inl hl'

/-- The insert of a row that is to be there. -/
theorem Sound.stepInsert {E : Env} {k : Nat} {fault : Option String} {P : Pending} (h : Sound W)
    (hk : W.inserts[k]? = some P) (hstep : stepInsert E W k fault P = some W') : Sound W' := by
  have hP := h.insert P (List.mem_of_getElem? hk)
  have hset : ∀ state, state ≠ .waiting → ∀ Q ∈ W.inserts.set k { P with state },
      Q ∈ W.inserts ∨ PendingInv W Q := by
    intro state hstate Q hQ
    rcases List.mem_or_eq_of_mem_set hQ with hold | rfl
    · exact .inl hold
    · exact .inr ⟨hP.source, hP.named, fun hw => absurd hw hstate⟩
  unfold AppPasswords.stepInsert at hstep
  split at hstep
  · rename_i hwaiting
    split at hstep <;> cases hstep
    · refine h.tables (fun _ _ => id) (fun id row hl => ?_) (hset .done nofun) fun _ => .inl
      rcases storeRefreshToken_ok ‹_› hl with hold | ⟨rfl, expiresAt, -, rfl⟩
      · exact .inl hold
      · exact .inr ⟨P.source, hP.source, hP.live hwaiting, hP.named, nofun⟩
    · have hsame := clean_storeRefreshToken _ _ _ _ _ _ _ ‹_›
      subst hsame
      exact h.tables (fun _ _ => id) (fun _ _ => .inl) (hset .failed nofun) fun _ => .inl
  · cases hstep

/-- A deletion of refresh tokens, or none. -/
theorem Sound.deleteTokens {fault : Option String} {p : String → RefreshTokenRow → Bool}
    {r : Except AccountError Unit} {account : Account.Db} (h : Sound W)
    (hx : (deleteTokens fault p).exec W.db.account = (r, account)) :
    Sound (W.setAccount account) := by
  refine h.setAccount fun id row hl => ?_
  cases r with
  | ok _ => exact .inl ((deleteTokens_ok hx).1 hl).1
  | error e => exact .inl (clean_execute _ _ _ _ _ _ hx ▸ hl)

/-! ## The revocation -/

theorem mem_named {did name : String} {a : AppPasswordId} :
    a ∈ W.named did name ↔ a.1 = did ∧ ∃ m, W.made.lookup a = some m ∧ m.name = name := by
  rw [World.named, Multiset.mem_toFinset, Table.mem_select]
  constructor
  · rintro ⟨a', m, hm, hp, rfl⟩
    obtain ⟨hd, hn⟩ := of_decide_eq_true hp
    exact ⟨hd, m, hm, hn⟩
  · rintro ⟨hd, m, hm, hn⟩
    exact ⟨a, m, hm, decide_eq_true ⟨hd, hn⟩, rfl⟩

/-- A revocation completes once nothing of its app passwords is there or on its way. -/
theorem Sound.complete (h : Sound W) (i : Nat) {deleted : Finset AppPasswordId}
    (hmade : ∀ a ∈ deleted, a ∈ W.made)
    (hpassword : ∀ k row, W.db.appPassword.lookup k = some row → (k.1, row.password) ∉ deleted)
    (htoken : ∀ id row, W.db.account.refreshToken.lookup id = some row →
      ∀ a ∈ deleted, W.tokenOf.lookup id ≠ some (some a))
    (hflight : ∀ a ∈ deleted, ¬ InFlight W a) : Sound (W.complete i deleted) := by
  have hlive : ∀ {source}, Live W source → (∀ a ∈ deleted, source ≠ some a) →
      Live (W.complete i deleted) source := by
    intro source hl hne a ha hmem
    rcases Finset.mem_union.1 hmem with hold | hnew
    · exact hl a ha hold
    · exact hne a hnew ha
  have hrow : ∀ id row, RowInv W id row → (∀ a ∈ deleted, W.tokenOf.lookup id ≠ some (some a)) →
      RowInv (W.complete i deleted) id row := by
    rintro id row ⟨source, hs, hl, hm, hn⟩ hne
    exact ⟨source, hs, hlive hl fun a ha he => hne a ha (he ▸ hs), hm, hn⟩
  constructor
  case parent => exact h.parent
  case access => exact h.access
  case revoked =>
    intro a ha
    rcases Finset.mem_union.1 ha with hold | hnew
    · exact h.revoked a hold
    · exact hmade a hnew
  case password =>
    intro k row hl
    obtain ⟨hm, hold⟩ := h.password k row hl
    refine ⟨hm, fun hmem => ?_⟩
    rcases Finset.mem_union.1 hmem with hrev | hnew
    · exact hold hrev
    · exact hpassword k row hl hnew
  case token => exact fun id row hl => hrow id row (h.token id row hl) (htoken id row hl)
  case insert =>
    intro P hP
    have hinv := h.insert P hP
    refine ⟨hinv.source, hinv.named, fun hw => hlive (hinv.live hw) fun a ha he => ?_⟩
    exact hflight a ha (Or.inr ⟨P, hP, hw, he⟩)
  case task =>
    intro t ht
    rcases mem_set_task ht with hold | rfl
    swap
    · trivial
    have hinv := h.task t hold
    cases t with
    | sign did name source =>
      exact ⟨hlive hinv.1 fun a ha he => hflight a ha (Or.inl ⟨_, hold, he⟩), hinv.2⟩
    | sweep id row =>
      refine hrow id row hinv fun a ha he => hflight a ha (Or.inl ⟨_, hold, ?_⟩)
      rw [Task.source, World.source, he]
      rfl
    | revoke did name deleted' tokens =>
      cases deleted' with
      | none => trivial
      | some deleted' => exact hinv
    | _ => exact hinv

/-- A row of the name's app password would carry the name. -/
theorem Sound.not_source (h : Sound W) {did name id : String} {row : RefreshTokenRow}
    {a : AppPasswordId} (hl : W.db.account.refreshToken.lookup id = some row)
    (hrow : ¬ (row.did = did ∧ row.appPasswordName = some name)) (hd : a.1 = did) {m : Made}
    (hm : W.made.lookup a = some m) (hn : m.name = name) :
    W.tokenOf.lookup id ≠ some (some a) := by
  intro he
  obtain ⟨source, hs, -, hmatch, -⟩ := h.token id row hl
  obtain rfl := Option.some.inj (he.symm.trans hs)
  obtain ⟨hdid, m', hm', hname⟩ := hmatch
  obtain rfl := Option.some.inj (hm.symm.trans hm')
  exact hrow ⟨hdid.symm.trans hd, by rw [hname, hn]⟩

theorem inFlight_setAccount {account : Account.Db} {a : AppPasswordId} :
    InFlight (W.setAccount account) a ↔ InFlight W a := by
  have hsource : ∀ t : Task, t.source (W.setAccount account) = t.source W := by
    intro t
    cases t <;> rfl
  simp only [InFlight, hsource]
  exact Iff.rfl

theorem Sound.revokeTokens {i : Nat} {fault : Option String} {did name : String}
    {deleted : Option (Finset AppPasswordId)} (h : Sound W)
    (htask : ∀ deleted', deleted = some deleted' → ∀ a ∈ deleted', DeletedInv W did name a)
    (hflight : ∀ deleted', deleted = some deleted' → fault = none →
      ∀ a ∈ deleted', ¬ InFlight W a) :
    Sound (revokeTokens W i fault did name deleted) := by
  rw [AppPasswords.revokeTokens]
  cases hx : (revokeAppPasswordRefreshToken fault did name).exec W.db.account with
  | mk r account =>
    have hs : Sound (W.setAccount account) := h.deleteTokens hx
    cases r with
    | error e => exact hs.set i trivial
    | ok _ =>
      cases deleted with
      | none => exact hs.set i trivial
      | some deleted =>
        have hworks : fault = none := ((does_execute _ _ _ _ _).1 hx).1.1
        refine hs.complete i (fun a ha => ?_) (fun k row hl hmem => ?_) (fun id row hl a ha => ?_)
          fun a ha hfly => hflight _ rfl hworks a ha (inFlight_setAccount.1 hfly)
        · obtain ⟨⟨-, m, hm, -⟩, -⟩ := htask _ rfl a ha
          exact Finmap.mem_of_lookup_eq_some hm
        · exact (htask _ rfl _ hmem).2 k row hl rfl
        · obtain ⟨⟨hd, m, hm, hn⟩, -⟩ := htask _ rfl a ha
          obtain ⟨hold, hp⟩ := (deleteTokens_ok hx).1 hl
          exact h.not_source hold (of_decide_eq_false hp) hd hm hn

theorem Sound.revokePassword {i : Nat} {fault : Option String} {did name : String} {tokens : Bool}
    (h : Sound W) (hreach : tokens = true → fault = none →
      (∀ a ∈ W.named did name, ¬ InFlight W a) ∧ NoTokens W did name) :
    Sound (revokePassword W i fault did name tokens) := by
  unfold AppPasswords.revokePassword
  cases fault with
  | some e => exact h.set i trivial
  | none =>
    have hold : ∀ k row, (deleteAppPassword did name W.db).appPassword.lookup k = some row →
        k ≠ (did, name) ∧ W.db.appPassword.lookup k = some row := by
      intro k row hl
      rw [deleteAppPassword, Table.lookup_erase_eq] at hl
      split at hl
      · cases hl
      · exact ⟨‹_›, hl⟩
    have hs : Sound { W with db := deleteAppPassword did name W.db } :=
      h.tables (fun k row hl => (hold k row hl).2) (fun _ _ => .inl) (fun _ => .inl) fun _ => .inl
    -- a row of one of these app passwords would stand under the name
    have hgone : ∀ k row, (deleteAppPassword did name W.db).appPassword.lookup k = some row →
        (k.1, row.password) ∉ W.named did name := by
      intro k row hl hmem
      obtain ⟨hne, hl⟩ := hold k row hl
      obtain ⟨⟨m, hm, hk⟩, -⟩ := h.password k row hl
      obtain ⟨hd, m', hm', hn⟩ := mem_named.1 hmem
      obtain rfl := Option.some.inj (hm.symm.trans hm')
      exact hne (Prod.ext hd (hk.symm.trans hn))
    cases tokens with
    | false =>
      refine hs.set i fun a ha => ⟨mem_named.1 ha, fun k row hl he => ?_⟩
      exact hgone k row hl (he ▸ ha)
    | true =>
      obtain ⟨hflight, hnone⟩ := hreach rfl rfl
      refine hs.complete i (fun a ha => ?_) hgone (fun id row hl a ha => ?_) fun a ha hfly => ?_
      · obtain ⟨-, m, hm, -⟩ := mem_named.1 ha
        exact Finmap.mem_of_lookup_eq_some hm
      · obtain ⟨hd, m, hm, hn⟩ := mem_named.1 ha
        have hrow := of_decide_eq_false (Table.anyRow_eq_false.1 hnone id row hl)
        exact h.not_source hl hrow hd hm hn
      · refine hflight a ha (hfly.imp_left ?_)
        rintro ⟨t, ht, hsource⟩
        exact ⟨t, ht, by cases t <;> exact hsource⟩

/-! ## The run -/

theorem Sound.advance {E : Env} {i : Nat} {c : Choice} {task : Task} (h : Sound W)
    (hi : W.tasks[i]? = some task) (hreach : ReachesSessions W c task)
    (hstep : advance E W i c task = some W') : Sound W' := by
  have htask := h.task task (List.mem_of_getElem? hi)
  cases task with
  | verifyAccount did password =>
    simp only [AppPasswords.advance] at hstep
    split at hstep <;> cases hstep
    · exact h.set i ⟨nofun, rfl⟩
    · exact h.set i trivial
    · exact h.set i trivial
  | verifyApp did password =>
    simp only [AppPasswords.advance] at hstep
    split at hstep
    · rename_i hash hf hhash
      split at hstep <;> cases hstep
      · rename_i name hname
        have hmem := List.mem_of_mem_head? hname
        rw [appPasswordNames, Multiset.mem_sort, Table.mem_select] at hmem
        obtain ⟨⟨did', name'⟩, row, hl, hp, rfl⟩ := hmem
        obtain ⟨rfl, rfl⟩ := of_decide_eq_true hp
        obtain ⟨⟨m, hm, hn⟩, hlive⟩ := h.password _ row hl
        refine h.set i ⟨fun a ha => ?_, rfl, m, hm, by rw [hn]⟩
        cases ha
        exact hlive
      · exact h.set i trivial
    · cases hstep
      exact h.set i trivial
  | sign did name source =>
    simp only [AppPasswords.advance] at hstep
    split at hstep
    · cases hstep
    rename_i hfresh
    split at hstep
    · cases hstep
      exact h.set i trivial
    rename_i access refresh htokens
    split at hstep
    · cases hstep
      exact h.set i trivial
    rename_i payload hdecode
    cases hstep
    obtain ⟨hsub, hjti⟩ := E.tokens.decode_createTokens htokens hdecode
    obtain ⟨hlive, hmatch⟩ := htask
    rw [← hsub] at hmatch
    refine (h.sign hlive hmatch fun source' hl => ?_).1.set i trivial
    rw [hjti] at hl
    exact absurd (Finmap.mem_of_lookup_eq_some hl) hfresh
  | storing k =>
    simp only [AppPasswords.advance] at hstep
    split at hstep <;> cases hstep
    exact h.set i trivial
  | select id =>
    simp only [AppPasswords.advance] at hstep
    split at hstep <;> cases hstep
    · rename_i row hrow
      rw [getRefreshToken, exec_query] at hrow
      cases hf : c.fault with
      | some e => rw [hf] at hrow; cases hrow
      | none =>
        rw [hf] at hrow
        exact h.set i (show TaskInv W (.sweep id row) from h.token id row (Except.ok.inj hrow))
    · exact h.set i trivial
  | sweep id row =>
    simp only [AppPasswords.advance] at hstep
    split at hstep
    · cases hstep
      exact (h.deleteTokens ‹_›).set i trivial
    · refine (h.deleteTokens ‹_›).afterSweep ?_ hstep
      exact htask
  | join id next k updated =>
    cases updated with
    | true =>
      simp only [AppPasswords.advance] at hstep
      split at hstep <;> cases hstep
      exact h.set i trivial
    | false =>
      simp only [AppPasswords.advance] at hstep
      split at hstep
      · cases hstep
        rename_i account hgrace
        have hjoin : TaskInv (W.setAccount account) (.join id next k true) := htask
        exact (h.grace htask hgrace).set i hjoin
      all_goals
        cases hstep
        have hsame := clean_execute _ _ _ _ _ _ ‹_›
        subst hsame
        exact h.set i trivial
  | mint did name parent =>
    obtain rfl : parent = none := htask
    exact h.mint hstep
  | revoke did name deleted tokens =>
    simp only [AppPasswords.advance] at hstep
    split at hstep
    · rename_i htokens
      cases hstep
      refine h.revokeTokens (fun deleted' he => ?_) fun deleted' he hf => ?_
      · subst he
        exact htask
      · subst he
        exact hreach htokens hf
    · rename_i htokens
      cases hstep
      refine h.revokePassword fun he hf => ?_
      subst he
      exact hreach htokens hf
    · cases hstep
  | ended => cases hstep

theorem sound_step (E : Env) (W : World) (a : Action) (W' : World) (h : Sound W)
    (ha : Contained W a) (hstep : step E W a = some W') : Sound W' := by
  cases a with
  | login did password => cases hstep; exact h.start trivial
  | signUp did => cases hstep; exact h.start ⟨nofun, rfl⟩
  | refresh id => cases hstep; exact h.start trivial
  | revokeAppPassword did name => cases hstep; exact h.start trivial
  | drop i => cases hstep; exact h.set i trivial
  | present j name =>
    obtain ⟨t, hj, ht⟩ := Option.bind_eq_some_iff.1 hstep
    split at ht <;> cases ht
    exact h.start (show TaskInv W (.mint t.did name t.source) from ha t hj)
  | advance i c =>
    obtain ⟨task, hi, hadv⟩ := Option.bind_eq_some_iff.1 hstep
    exact h.advance hi (ha task hi) hadv
  | insert k fault =>
    obtain ⟨P, hk, hP⟩ := Option.bind_eq_some_iff.1 hstep
    exact h.stepInsert hk hP
  | expire j =>
    obtain ⟨t, hj, rfl⟩ := Option.map_eq_some_iff.1 hstep
    refine h.grow ⟨fun _ _ => id, fun _ _ => id, rfl, fun _ _ => .inl⟩ (fun _ _ => .inl)
      (fun _ _ => .inl) (fun _ _ => .inl) (fun _ => .inl) (fun _ => .inl) fun t' ht' => ?_
    rcases List.mem_or_eq_of_mem_set ht' with hold | rfl
    · exact .inl ⟨t', hold, rfl, rfl⟩
    · exact .inl ⟨t, List.mem_of_getElem? hj, rfl, rfl⟩
  | other tokens passwords account =>
    cases hstep
    refine h.tables (fun k row hl => ?_) (fun id row hl => ?_) (fun _ => .inl) fun _ => .inl
    · exact (Table.lookup_deleteWhere_eq_some.1 hl).1
    · exact .inl (Table.lookup_deleteWhere_eq_some.1 hl).1

theorem sound_initial (db : Tables) : Sound (World.initial db) where
  parent _ _ hm := by cases hm
  revoked _ ha := absurd ha (Finset.notMem_empty _)
  password _ _ hl := by cases hl
  token _ _ hl := by cases hl
  insert _ hP := by cases hP
  task _ ht := by cases ht
  access _ ht := by cases ht

/-- Along a run in which no app password makes another, and no sign-in or refresh of a session
overtakes the revocation of its app password, nothing is left of what has been revoked. -/
theorem revokedOut_of_contained (E : Env) (db : Tables) (as : List Action)
    (h : Along (step E) Contained (World.initial db) as) :
    Always (step E) (RevokedOut E) (World.initial db) as :=
  (always_of_along (sound_step E) (sound_initial db) as h).mono fun _ => Sound.revokedOut

end

/-- Alice's own password opens the first session. -/
def alicesTables : Tables where
  account := { Account.Db.empty with
    account := Account.Db.empty.account.insert "did:plc:alice"
      ⟨"a@x.test", none, "$argon2id$secret", "2026-07-01T00:00:00.000Z"⟩ }
  oauth := .empty
  appPassword := ∅
  emailToken := ∅
  accountDevice := ∅
  authorizedClient := ∅

def alicesEnv : Env := ⟨alicesLibrary, plainLibrary, "did:web:x.test"⟩

def next (i : Nat) (fresh : String) : Action :=
  .advance i ⟨none, "2026-08-01T00:00:00.000Z", 0, fresh, false⟩

/-- Alice signs in and makes the app password `aaaa` for her phone, which signs in with it. -/
def phoneSignsIn : List Action :=
  [.login "did:plc:alice" "secret", next 0 "", next 0 "t0", .insert 0 none, next 0 "",
    .present 0 "phone", next 1 "aaaa",
    .login "did:plc:alice" "aaaa", next 2 "", next 2 "", next 2 "t1", .insert 1 none, next 2 ""]

/-- Then revokes it, by request number `i`. -/
def phoneRevoked (i : Nat) : List Action :=
  [.revokeAppPassword "did:plc:alice" "phone", next i "",
    .advance i ⟨none, "2026-08-01T00:00:00.000Z", 0, "", true⟩, .expire 0, .expire 1]

theorem revokedOut_phone :
    (∃ W ∈ run (step alicesEnv) (World.initial alicesTables) (phoneSignsIn ++ phoneRevoked 3),
        ("did:plc:alice", "did:plc:alice$aaaa") ∈ W.revoked ∧ W.access.length = 2) ∧
      Always (step alicesEnv) (RevokedOut alicesEnv) (World.initial alicesTables)
        (phoneSignsIn ++ phoneRevoked 3) :=
  ⟨by decide +kernel, revokedOut_of_contained _ _ _ (by decide +kernel)⟩

/-- The phone makes the app password `bbbb` first; with that it goes on. -/
theorem appPassword_makes_another :
    ¬ ∀ E db as, Always (step E) (RevokedOut E) (World.initial db) as := by
  intro h
  have hrun : ∃ W ∈ run (step alicesEnv) (World.initial alicesTables)
      (phoneSignsIn ++ [.present 1 "spare", next 3 "bbbb"] ++ phoneRevoked 4),
      ("did:plc:alice", "did:plc:alice$aaaa") ∈ W.revoked ∧
      (∀ t ∈ W.access, t.expired = true) ∧
      W.made.lookup ("did:plc:alice", "did:plc:alice$bbbb") =
        some ⟨"spare", some ("did:plc:alice", "did:plc:alice$aaaa")⟩ ∧
      verifyAppPassword plainLibrary "did:plc:alice" "bbbb" W.db.appPassword =
        .ok (some "spare") := by
    decide +kernel
  obtain ⟨W, hW, hrevoked, hexpired, hmade, hverify⟩ := hrun
  refine (h _ _ _).last hW _ hrevoked (fun t ht _ => hexpired t ht) (.appPassword _)
    (.made hmade rfl .self) ⟨"bbbb", "spare", rfl, hverify⟩

end CacosPds.Server.AppPasswords
