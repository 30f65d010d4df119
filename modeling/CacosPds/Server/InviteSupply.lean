import CacosPds.Account.InvitedBy
import CacosPds.Lib.Programs
/-!
# The supply of invite codes (`helpers/invite.rs`, `server/get_account_invite_codes.rs`)

| here | there |
| --- | --- |
| `insertInviteCodes` | `insert_invite_codes` (`invite.rs:63`) |
| `createInviteCodes` | `create_invite_codes` (`invite.rs:146`), of the admin's two endpoints |
| `createAccountInviteCodes`, `accountTransaction` | `create_account_invite_codes` (`invite.rs:177`) |
| `getAccountInviteCodes` | `get_account_invite_codes` (`invite.rs:232`), its two queries |
| `disableWhere` | `disable_invite_codes` (`invite.rs:359`), each of its two statements |
| `innerGetAccountInviteCodes` | `inner_get_account_invite_codes` (`get_account_invite_codes.rs:63`) |
| `World`, `step` | any number of these calls, statement by statement |

How many codes to create is calculated from codes that were read in two queries, and by the time they
are inserted another call may have created its own. What keeps an account from having more than five
unused ones is the count inside of the transaction: what it counts is never less than what was read, and
exceeds that by all that has been created since.
-/
namespace CacosPds.Server.InviteSupply

open Stages Programs Programs.Prog Runs Sql InviteCodes
open Account (InviteCodeRow InviteCodeUse InviteTables codeDetails getInviteCodesUsesV2)

structure Env where
  /-- Microseconds of a text in `RFC3339_VARIANT`. -/
  stamp : String → Option UInt64
  /-- The overflow check of the build. -/
  checked : Bool
  hostname : String
  inviteRequired : Option Bool
  inviteInterval : Option UInt64
  inviteEpoch : Option UInt64

/-- What a statement meets with. -/
structure Choice where
  fails : Bool
  /-- `created_at` and `invites_disabled`, as `get_account` finds them. -/
  account : String → Option (String × Option Int)
  now : UInt64
  createdAt : String
  /-- What `get_random_token` gives, time after time. -/
  token : Nat → String

abbrev Handler (α : Type) := Prog Choice InviteTables Failure α

def databaseFails (c : Choice) : Option Failure := if c.fails then some .runtimeError else none

/-! ## The tables -/

theorem nodup_map_concat {α β : Type} {key : α → β} {l : List α} {a : α} (hl : (l.map key).Nodup)
    (h : key a ∉ l.map key) : ((l ++ [a]).map key).Nodup := by
  rw [List.map_append, List.map_singleton, ← List.concat_eq_append]
  exact hl.concat h

/-- `INSERT INTO invite_code`, under the primary key. -/
def insertInviteCode (t : InviteTables) (row : InviteCodeRow) : Option InviteTables :=
  if h : row.code ∈ t.inviteCode.map (·.code) then none
  else some { t with
    inviteCode := t.inviteCode ++ [row]
    inviteCode_key := nodup_map_concat t.inviteCode_key h }

def insertInviteCodes (rows : List InviteCodeRow) (t : InviteTables) : Option InviteTables :=
  rows.foldlM insertInviteCode t

/-- `INSERT INTO invite_code_use`; a user has one use of a code. -/
def insertInviteCodeUse (t : InviteTables) (use : InviteCodeUse) : Option InviteTables :=
  if h : (use.code, use.usedBy) ∈ t.inviteCodeUse.map fun u => (u.code, u.usedBy) then none
  else some { t with
    inviteCodeUse := t.inviteCodeUse ++ [use]
    inviteCodeUse_key := nodup_map_concat t.inviteCodeUse_key h }

def disableIf (p : InviteCodeRow → Bool) (row : InviteCodeRow) : InviteCodeRow :=
  if p row then { row with disabled := 1 } else row

theorem disableIf_cases (p : InviteCodeRow → Bool) (row : InviteCodeRow) :
    disableIf p row = row ∨ disableIf p row = { row with disabled := 1 } := by
  unfold disableIf
  split
  · exact .inr rfl
  · exact .inl rfl

theorem map_disableIf_code (p : InviteCodeRow → Bool) (rows : List InviteCodeRow) :
    (rows.map (disableIf p)).map (·.code) = rows.map (·.code) := by
  rw [List.map_map]
  refine List.map_congr_left fun row _ => ?_
  rcases disableIf_cases p row with h | h <;> simp only [Function.comp_apply, h]

/-- `UPDATE invite_code SET disabled = 1 WHERE …`. -/
def disableWhere (p : InviteCodeRow → Bool) (t : InviteTables) : InviteTables where
  inviteCode := t.inviteCode.map (disableIf p)
  inviteCodeUse := t.inviteCodeUse
  inviteCode_key := (map_disableIf_code p t.inviteCode).symm ▸ t.inviteCode_key
  inviteCodeUse_key := t.inviteCodeUse_key

def recordInviteUse (did : String) (inviteCode : Option String) (now : String) (t : InviteTables) :
    Option InviteTables :=
  match inviteCode with
  | none => some t
  | some code => insertInviteCodeUse t ⟨code, did, now⟩

structure AccountCodes where
  account : String
  codes : List String

def adminRows (toCreate : List AccountCodes) (useCount : Int32) (createdAt : String) :
    List InviteCodeRow :=
  toCreate.flatMap fun account =>
    account.codes.map fun code => ⟨code, useCount, 0, account.account, "admin", createdAt⟩

/-- One transaction. -/
def createInviteCodes (toCreate : List AccountCodes) (useCount : Int32) (createdAt : String)
    (t : InviteTables) : Option InviteTables :=
  insertInviteCodes (adminRows toCreate useCount createdAt) t

/-- `"forAccount" = ?1 AND "createdBy" != 'admin'`. -/
def routineOf (did : String) (row : InviteCodeRow) : Bool :=
  decide (row.forAccount = did) && decide (row.createdBy ≠ "admin")

def accountRow (forAccount : String) (disabled : Bool) (now code : String) : InviteCodeRow :=
  ⟨code, 1, if disabled then 1 else 0, forAccount, forAccount, now⟩

/-! ## The handler -/

/-- `hostname.replace('.', "-") + "-" + &token.to_lowercase()`; a token is of ASCII. -/
def genInviteCode (hostname token : String) : String :=
  (hostname.map fun c => if c = '.' then '-' else c) ++ "-" ++ token.toLower

def genInviteCodes (count : Int32) (hostname : String) (token : Nat → String) : List String :=
  (List.range count.toInt.toNat).map fun i => genInviteCode hostname (token i)

def query {α : Type} (f : Choice → InviteTables → α) : Handler α := stmt fun c => do
  attempt (databaseFails c)
  return f c (← get)

def getAccount (did : String) : Handler (Option (String × Option Int)) := query fun c _ => c.account did

def rowsFor (did : String) (t : InviteTables) : List InviteCodeRow :=
  t.inviteCode.filter fun row => row.forAccount = did

def selectInviteCodes (did : String) : Handler (List InviteCodeRow) := query fun _ => rowsFor did

/-- With no codes there is no query. -/
def selectUses (codes : List String) : Handler (Table String (List CodeUse)) :=
  if codes = [] then return ∅ else query fun _ t => getInviteCodesUsesV2 t codes

def getAccountInviteCodes (did : String) : Handler (List CodeDetail) := do
  let res ← selectInviteCodes did
  let uses ← selectUses (res.map (·.code))
  return codeDetails res uses

/-- The transaction: nothing stays of it where it bails. -/
def accountTransaction (forAccount : String) (codes : List String) (expectedTotal : Nat)
    (disabled : Bool) (c : Choice) : Call InviteTables Failure (List CodeDetail) := do
  let rows := codes.map (accountRow forAccount disabled c.createdAt)
  match insertInviteCodes rows (← get) with
  | none => throw .runtimeError
  | some t =>
    attempt (databaseFails c)
    if expectedTotal < t.inviteCode.countP (routineOf forAccount) then throw .runtimeError
    else
      set t
      return rows.map (·.detail [])

def createAccountInviteCodes (forAccount : String) (codes : List String) (expectedTotal : Nat)
    (disabled : Bool) : Handler (List CodeDetail) :=
  stmt (accountTransaction forAccount codes expectedTotal disabled)

variable (E : Env)

/-- The calculation reads the clock. -/
def calculate (opts : CalculateCodesToCreateOpts) : Handler (Nat × Nat) := stmt fun c =>
  ofExcept ((calculateCodesToCreate E.stamp E.checked c.now opts).mapError .panics)

def drawCodes (toCreate : Nat) : Handler (List String) := stmt fun c =>
  return genInviteCodes (Int32.ofNat toCreate) E.hostname c.token

def createAvailableCodes (createAvailable : Bool) (account : String × Option Int)
    (requester : String) (userCodes : List CodeDetail) : Handler (List CodeDetail) :=
  if createAvailable && E.inviteRequired.getD true && E.inviteInterval.isSome then
    match E.stamp account.1 with
    | none => fail .runtimeError
    | some userCreatedAt => do
      let (toCreate, total) ← calculate E
        ⟨userCreatedAt, userCodes, E.inviteEpoch.getD 0, E.inviteInterval.getD 0⟩
      if 0 < toCreate then
        let codes ← drawCodes E toCreate
        createAccountInviteCodes requester codes total (account.2.getD 0 = 1)
      else return []
  else return []

def innerGetAccountInviteCodes (includeUsed createAvailable : Bool) (requester : String) :
    Handler (List CodeDetail) := do
  let account ← getAccount requester
  let userCodes ← getAccountInviteCodes requester
  match account with
  | none => fail (.invalidRequest "Account not found")
  | some account =>
    let created ← createAvailableCodes E createAvailable account requester userCodes
    return (created ++ userCodes).filter fun code =>
      !code.disabled &&
        (includeUsed || decide (code.uses.length < code.available.toInt64.toUInt64.toNat))

/-! ## The system -/

/-- A call under way. -/
structure Request where
  requester : String
  handler : Handler (List CodeDetail)

structure World where
  tables : InviteTables
  handlers : List Request

inductive Action where
  | getAccountInviteCodes (includeUsed createAvailable : Bool) (requester : String)
  /-- The next statement of a handler. -/
  | advance (i : Nat) (c : Choice)
  | createInviteCode (useCount : Int32) (forAccount : Option String) (token createdAt : String)
  | createInviteCodes (useCount codeCount : Int32) (forAccounts : Option (List String))
    (token : Nat → Nat → String) (createdAt : String)
  | recordInviteUse (did : String) (inviteCode : Option String) (now : String)
  | disableCodes (codes : List String)
  | disableAccounts (accounts : List String)

/-- A statement that fails changes nothing. -/
def World.commit (W : World) (t : Option InviteTables) : World :=
  { W with tables := t.getD W.tables }

def step (W : World) : Action → Option World
  | .getAccountInviteCodes includeUsed createAvailable requester => some { W with
      handlers := W.handlers ++
        [⟨requester, innerGetAccountInviteCodes E includeUsed createAvailable requester⟩] }
  | .advance i c => do
    let r ← W.handlers[i]?
    let (t, p) ← r.handler.step c W.tables
    return ⟨t, W.handlers.set i { r with handler := p }⟩
  | .createInviteCode useCount forAccount token createdAt =>
    let code := genInviteCode E.hostname token
    some (W.commit (createInviteCodes [⟨forAccount.getD "admin", [code]⟩] useCount createdAt W.tables))
  | .createInviteCodes useCount codeCount forAccounts token createdAt =>
    let accountCodes := (forAccounts.getD ["admin"]).mapIdx fun i account =>
      ⟨account, genInviteCodes codeCount E.hostname (token i)⟩
    some (W.commit (createInviteCodes accountCodes useCount createdAt W.tables))
  | .recordInviteUse did inviteCode now => some (W.commit (recordInviteUse did inviteCode now W.tables))
  | .disableCodes codes => some { W with tables := disableWhere (fun row => row.code ∈ codes) W.tables }
  | .disableAccounts accounts =>
    some { W with tables := disableWhere (fun row => row.forAccount ∈ accounts) W.tables }

/-! ## What an account has -/

/-- The rows of one point in time with the uses of another. -/
def detailsAt (t t' : InviteTables) (did : String) : List CodeDetail :=
  codeDetails (rowsFor did t) (getInviteCodesUsesV2 t' ((rowsFor did t).map (·.code)))

/-- What `get_account_invite_codes` gives with nobody in between. -/
def accountCodes (t : InviteTables) (did : String) : List CodeDetail := detailsAt t t did

def unusedRoutine (codes : List CodeDetail) : Nat := ((codes.filter routine).filter unused).length

/-- The code has its row, which may have been disabled or used since. -/
def Issued (t : InviteTables) (code : CodeDetail) : Prop :=
  ∃ row ∈ t.inviteCode, ∃ disabled uses, code = { row with disabled }.detail uses

/-- Nobody has more than five unused routine codes, or more codes of the epoch than `N` allows, and what
an answer shows is there. -/
structure Supplied (N : String → Nat) (W : World) : Prop where
  five : ∀ did, unusedRoutine (accountCodes W.tables did) ≤ 5
  epoch : ∀ did, epochCount E.stamp (E.inviteEpoch.getD 0) (accountCodes W.tables did) ≤ N did
  issued : ∀ r ∈ W.handlers, ∀ codes, r.handler = .done (.ok codes) →
    ∀ code ∈ codes, Issued W.tables code

/-- Whose calls there are after an action. -/
def requestersAfter (requesters : List String) : Action → List String
  | .getAccountInviteCodes _ _ requester => requesters ++ [requester]
  | _ => requesters

/-- What a statement of an account's own calls meets with. -/
def ownChoice (did : String) (requesters : List String) : Action → List Choice
  | .advance i c => if requesters[i]? = some did then [c] else []
  | _ => []

/-- What the statements of its own calls meet with in a run. -/
def ownChoices (did : String) : List String → List Action → List Choice
  | _, [] => []
  | requesters, a :: as =>
    ownChoice did requesters a ++ ownChoices did (requestersAfter requesters a) as

/-- Whenever one of an account's own calls calculates, its codes are no more than `N`. -/
def Allows (N : String → Nat) (K : String → Choice → Prop) : Prop :=
  ∀ did c, K did c → ∀ account userCreatedAt, c.account did = some account →
    E.stamp account.1 = some userCreatedAt → ∀ c', K did c' → ∀ n,
      couldCreate E.checked c'.now userCreatedAt (E.inviteEpoch.getD 0) (E.inviteInterval.getD 0) =
        .ok n → n.toNat ≤ N did

/-! ## Rows are added, and disabled -/

/-- A row later on. -/
def Later (row row' : InviteCodeRow) : Prop := row' = row ∨ row' = { row with disabled := 1 }

structure Grows (t t' : InviteTables) : Prop where
  codes : ∃ f new, (∀ row, Later row (f row)) ∧ t'.inviteCode = t.inviteCode.map f ++ new
  uses : t.inviteCodeUse <+: t'.inviteCodeUse

theorem Later.refl (row : InviteCodeRow) : Later row row := .inl rfl

theorem Later.trans {row row' row'' : InviteCodeRow} (h : Later row row') (h' : Later row' row'') :
    Later row row'' := by
  rcases h with rfl | rfl
  · exact h'
  · rcases h' with rfl | rfl
    · exact .inr rfl
    · exact .inr rfl

variable {t t' t'' : InviteTables} {did : String}

theorem Grows.refl (t : InviteTables) : Grows t t :=
  ⟨⟨id, [], Later.refl, by rw [List.map_id, List.append_nil]⟩, List.prefix_refl _⟩

theorem Grows.trans (h : Grows t t') (h' : Grows t' t'') : Grows t t'' := by
  obtain ⟨⟨f, new, hf, hcodes⟩, huses⟩ := h
  obtain ⟨⟨g, new', hg, hcodes'⟩, huses'⟩ := h'
  refine ⟨⟨g ∘ f, new.map g ++ new', fun row => (hf row).trans (hg (f row)), ?_⟩,
    huses.trans huses'⟩
  rw [hcodes', hcodes, List.map_append, List.map_map, List.append_assoc]

/-- A row that was there is there later. -/
theorem Grows.mem (h : Grows t t') {row : InviteCodeRow} (hrow : row ∈ t.inviteCode) :
    ∃ row' ∈ t'.inviteCode, Later row row' := by
  obtain ⟨⟨f, new, hf, hcodes⟩, -⟩ := h
  refine ⟨f row, ?_, hf row⟩
  rw [hcodes]
  exact List.mem_append_left _ (List.mem_map_of_mem hrow)

/-- What counts routine codes grows by no more than there are new ones. -/
theorem Grows.countP_le (h : Grows t t') (did : String) : ∃ k,
    t'.inviteCode.countP (routineOf did) = t.inviteCode.countP (routineOf did) + k ∧
      ∀ p q : InviteCodeRow → Bool, (∀ row row', Later row row' → p row' → q row) →
        (∀ row, p row → routineOf did row) → t'.inviteCode.countP p ≤ t.inviteCode.countP q + k := by
  obtain ⟨⟨f, new, hf, hcodes⟩, -⟩ := h
  refine ⟨new.countP (routineOf did), ?_, fun p q hold hnew => ?_⟩
  · rw [hcodes, List.countP_append, List.countP_map]
    congr 1
    refine List.countP_congr fun row _ => ?_
    rw [Function.comp_apply]
    rcases hf row with h | h
    · rw [h]
    · rw [h]
      exact Iff.rfl
  · rw [hcodes, List.countP_append, List.countP_map]
    refine Nat.add_le_add ?_ (List.countP_mono_left fun row _ => hnew row)
    exact List.countP_mono_left fun row _ => hold row (f row) (hf row)

/-! ## What is counted of the rows -/

/-- Enabled, with fewer uses on record than it allows. -/
def left (t : InviteTables) (row : InviteCodeRow) : Bool :=
  !decide (row.disabled = 1) &&
    decide (t.inviteCodeUse.countP (fun u => u.code = row.code) <
      row.availableUses.toInt64.toUInt64.toNat)

theorem rowsFor_key (t : InviteTables) (did : String) : ((rowsFor did t).map (·.code)).Nodup :=
  t.inviteCode_key.sublist (List.filter_sublist.map _)

theorem detailsAt_eq (t t' : InviteTables) (did : String) :
    detailsAt t t' did = (rowsFor did t).map fun row => row.detail
      (Account.usesAt (getInviteCodesUsesV2 t' ((rowsFor did t).map (·.code))) row.code) :=
  Account.codeDetails_eq (rowsFor_key t did) _

theorem routine_length (t t' : InviteTables) (did : String) :
    ((detailsAt t t' did).filter routine).length = t.inviteCode.countP (routineOf did) := by
  rw [← List.countP_eq_length_filter, detailsAt_eq, List.countP_map, rowsFor, List.countP_filter]
  refine List.countP_congr fun row _ => ?_
  simp [routineOf, routine, InviteCodeRow.detail, and_comm]

theorem unusedRoutine_detailsAt (t t' : InviteTables) (did : String) :
    unusedRoutine (detailsAt t t' did) =
      t.inviteCode.countP fun row => routineOf did row && left t' row := by
  rw [unusedRoutine, List.filter_filter, ← List.countP_eq_length_filter, detailsAt_eq,
    List.countP_map]
  have hleft : ∀ row ∈ rowsFor did t, unused (row.detail (Account.usesAt (getInviteCodesUsesV2 t'
      ((rowsFor did t).map (·.code))) row.code)) = left t' row := by
    intro row hrow
    have hperm := @Account.usesAt_getInviteCodesUsesV2 t' _ _
      (List.mem_map_of_mem (f := (·.code)) hrow)
    have hlength := hperm.length_eq
    rw [List.length_map, ← List.countP_eq_length_filter] at hlength
    rw [left, ← hlength]
    rfl
  rw [List.countP_congr (q := fun row => left t' row && decide (row.createdBy ≠ "admin"))
    fun row hrow => by rw [Function.comp_apply, hleft row hrow]; exact Iff.rfl, rowsFor,
    List.countP_filter]
  refine List.countP_congr fun row _ => ?_
  simp only [routineOf, Bool.and_eq_true, decide_eq_true_eq]
  tauto

theorem epochCount_detailsAt (t t' : InviteTables) (did : String) (epoch : UInt64) :
    epochCount E.stamp epoch (detailsAt t t' did) = t.inviteCode.countP fun row =>
      routineOf did row && (E.stamp row.createdAt).any fun datetime => epoch < datetime := by
  rw [epochCount, List.filter_filter, ← List.countP_eq_length_filter, detailsAt_eq, List.countP_map,
    rowsFor, List.countP_filter]
  refine List.countP_congr fun row _ => ?_
  simp [routineOf, routine, createdAfter, InviteCodeRow.detail]
  tauto

theorem left_of_later {row row' : InviteCodeRow} (huses : t.inviteCodeUse <+: t'.inviteCodeUse)
    (h : Later row row') (hleft : left t' row') : left t row := by
  have hcount : t.inviteCodeUse.countP (fun u => u.code = row.code) ≤
      t'.inviteCodeUse.countP fun u => u.code = row.code := huses.sublist.countP_le
  unfold left at hleft ⊢
  rcases h with rfl | rfl
  · simp only [Bool.and_eq_true, decide_eq_true_eq] at hleft ⊢
    exact ⟨hleft.1, hcount.trans_lt hleft.2⟩
  · simp at hleft

/-- Codes that were read in two queries since when the tables have grown. -/
def Seen (did : String) (t : InviteTables) (codes : List CodeDetail) : Prop :=
  ∃ t₀ t₁, Grows t₀ t₁ ∧ Grows t₁ t ∧ codes = detailsAt t₀ t₁ did

theorem Seen.grows {codes : List CodeDetail} (h : Seen did t codes) (ht : Grows t t') :
    Seen did t' codes := by
  obtain ⟨t₀, t₁, h₀, h₁, hcodes⟩ := h
  exact ⟨t₀, t₁, h₀, h₁.trans ht, hcodes⟩

theorem seen_accountCodes (did : String) (t : InviteTables) : Seen did t (accountCodes t did) :=
  ⟨t, t, Grows.refl t, Grows.refl t, rfl⟩

/-- Nothing has been added to what was read but what the count of the routine codes says. -/
theorem Seen.counts {codes : List CodeDetail} (h : Seen did t codes) : ∃ k,
    t.inviteCode.countP (routineOf did) = (codes.filter routine).length + k ∧
      unusedRoutine (accountCodes t did) ≤ unusedRoutine codes + k ∧
      ∀ epoch, epochCount E.stamp epoch (accountCodes t did) ≤ epochCount E.stamp epoch codes + k := by
  obtain ⟨t₀, t₁, h₀, h₁, rfl⟩ := h
  obtain ⟨k, hk, hle⟩ := (h₀.trans h₁).countP_le did
  have hroutine : ∀ row row', Later row row' → routineOf did row' = routineOf did row := by
    intro row row' h
    rcases h with rfl | rfl <;> rfl
  refine ⟨k, ?_, ?_, fun epoch => ?_⟩
  · rw [hk, routine_length]
  · rw [accountCodes, unusedRoutine_detailsAt, unusedRoutine_detailsAt]
    refine hle _ _ (fun row row' h hrow => ?_) fun row hrow => (Bool.and_eq_true _ _ ▸ hrow).1
    rw [Bool.and_eq_true] at hrow ⊢
    exact ⟨hroutine row row' h ▸ hrow.1, left_of_later h₁.uses h hrow.2⟩
  · rw [accountCodes, epochCount_detailsAt, epochCount_detailsAt]
    refine hle _ _ (fun row row' h hrow => ?_) fun row hrow => (Bool.and_eq_true _ _ ▸ hrow).1
    rcases h with rfl | rfl
    · exact hrow
    · exact hrow

/-! ## Statements -/

theorem insertInviteCodes_eq {rows : List InviteCodeRow} (h : insertInviteCodes rows t = some t') :
    t'.inviteCode = t.inviteCode ++ rows ∧ t'.inviteCodeUse = t.inviteCodeUse := by
  unfold insertInviteCodes at h
  induction rows generalizing t with
  | nil =>
    cases h
    exact ⟨(List.append_nil _).symm, rfl⟩
  | cons row rows ih =>
    rw [List.foldlM_cons] at h
    obtain ⟨u, hu, h⟩ := Option.bind_eq_some_iff.1 h
    obtain ⟨hcodes, huses⟩ := ih h
    unfold insertInviteCode at hu
    split at hu
    · cases hu
    · cases hu
      exact ⟨hcodes.trans (List.append_assoc _ _ _), huses⟩

theorem grows_insert {rows : List InviteCodeRow} (h : insertInviteCodes rows t = some t') :
    Grows t t' := by
  obtain ⟨hcodes, huses⟩ := insertInviteCodes_eq h
  exact ⟨⟨id, rows, Later.refl, by rw [List.map_id, hcodes]⟩, huses ▸ List.prefix_refl _⟩

/-- What the five and the epoch say of the tables. -/
def Within (N : String → Nat) (t : InviteTables) : Prop :=
  ∀ did, unusedRoutine (accountCodes t did) ≤ 5 ∧
    epochCount E.stamp (E.inviteEpoch.getD 0) (accountCodes t did) ≤ N did

structure Keeps (N : String → Nat) (t t' : InviteTables) : Prop where
  grows : Grows t t'
  within : Within E N t → Within E N t'

variable {E} {N : String → Nat} {K : Choice → Prop} {codes : List CodeDetail}

theorem Keeps.refl (t : InviteTables) : Keeps E N t t := ⟨Grows.refl t, fun h => h⟩

/-- With no new routine code an account has no more unused ones, and none of the epoch. -/
theorem within_of_routine (h : Grows t t')
    (hroutine : t'.inviteCode.countP (routineOf did) = t.inviteCode.countP (routineOf did)) :
    unusedRoutine (accountCodes t' did) ≤ unusedRoutine (accountCodes t did) ∧
      epochCount E.stamp (E.inviteEpoch.getD 0) (accountCodes t' did) ≤
        epochCount E.stamp (E.inviteEpoch.getD 0) (accountCodes t did) := by
  obtain ⟨k, hk, hunused, hepoch⟩ := ((seen_accountCodes did t).grows h).counts E
  rw [accountCodes, routine_length] at hk
  have hzero : k = 0 := by omega
  subst hzero
  exact ⟨hunused, hepoch _⟩

theorem keeps_of_routine (h : Grows t t')
    (hroutine : ∀ did, t'.inviteCode.countP (routineOf did) = t.inviteCode.countP (routineOf did)) :
    Keeps E N t t' := by
  refine ⟨h, fun ht did => ?_⟩
  obtain ⟨hunused, hepoch⟩ := within_of_routine (E := E) h (hroutine did)
  exact ⟨hunused.trans (ht did).1, hepoch.trans (ht did).2⟩

theorem accountTransaction_cases {forAccount : String} {drawn : List String} {expectedTotal : Nat}
    {disabled : Bool} {c : Choice} {r : Except Failure (List CodeDetail)}
    (h : (accountTransaction forAccount drawn expectedTotal disabled c).exec t = (r, t')) :
    t' = t ∧ (∀ codes, r ≠ .ok codes) ∨
      insertInviteCodes (drawn.map (accountRow forAccount disabled c.createdAt)) t = some t' ∧
        t'.inviteCode.countP (routineOf forAccount) ≤ expectedTotal ∧
        r = .ok ((drawn.map (accountRow forAccount disabled c.createdAt)).map (·.detail [])) := by
  unfold accountTransaction at h
  rw [exec_bind, exec_get] at h
  dsimp only at h
  cases hinsert : insertInviteCodes (drawn.map (accountRow forAccount disabled c.createdAt)) t with
  | none =>
    rw [hinsert] at h
    cases h
    exact .inl ⟨rfl, fun codes hcodes => by cases hcodes⟩
  | some u =>
    rw [hinsert] at h
    dsimp only at h
    rw [exec_bind, exec_attempt] at h
    cases hfails : databaseFails c with
    | some e =>
      rw [hfails] at h
      cases h
      exact .inl ⟨rfl, fun codes hcodes => by cases hcodes⟩
    | none =>
      rw [hfails] at h
      dsimp only [Option.elim_none] at h
      split at h
      · cases h
        exact .inl ⟨rfl, fun codes hcodes => by cases hcodes⟩
      · rename_i hcount
        cases h
        exact .inr ⟨rfl, Nat.le_of_not_lt hcount, rfl⟩

theorem keeps_accountTransaction {forAccount : String} {drawn : List String} {expectedTotal : Nat}
    {disabled : Bool} {c : Choice} {r : Except Failure (List CodeDetail)} {toCreate : Nat}
    (hseen : Seen forAccount t codes)
    (htotal : (codes.filter routine).length + toCreate = expectedTotal)
    (hfive : unusedRoutine codes + toCreate ≤ 5)
    (hepoch : epochCount E.stamp (E.inviteEpoch.getD 0) codes + toCreate ≤ N forAccount)
    (h : (accountTransaction forAccount drawn expectedTotal disabled c).exec t = (r, t')) :
    Keeps E N t t' := by
  rcases accountTransaction_cases h with ⟨rfl, -⟩ | ⟨hinsert, hcount, -⟩
  · exact Keeps.refl t'
  have hgrows := grows_insert hinsert
  refine ⟨hgrows, fun ht did => ?_⟩
  by_cases hdid : did = forAccount
  · subst hdid
    obtain ⟨k, hk, hunused, hepochs⟩ := (hseen.grows hgrows).counts E
    -- The count of the transaction leaves room for what this call creates, and nothing else.
    have hroom : k ≤ toCreate := by omega
    have hepochs := hepochs (E.inviteEpoch.getD 0)
    omega
  · have hroutine : t'.inviteCode.countP (routineOf did) = t.inviteCode.countP (routineOf did) := by
      rw [(insertInviteCodes_eq hinsert).1, List.countP_append, Nat.add_eq_left, List.countP_eq_zero]
      intro row hrow
      obtain ⟨code, -, rfl⟩ := List.mem_map.1 hrow
      simp [routineOf, accountRow, Ne.symm hdid]
    obtain ⟨hunused, hepochs⟩ := within_of_routine (E := E) hgrows hroutine
    exact ⟨hunused.trans (ht did).1, hepochs.trans (ht did).2⟩

/-! ## The handler keeps to it -/

theorem issued_grows {code : CodeDetail} (h : Issued t code) (ht : Grows t t') : Issued t' code := by
  obtain ⟨row, hrow, disabled, uses, rfl⟩ := h
  obtain ⟨row', hrow', hlater⟩ := ht.mem hrow
  rcases hlater with rfl | rfl
  · exact ⟨_, hrow', disabled, uses, rfl⟩
  · exact ⟨_, hrow', disabled, uses, rfl⟩

theorem Seen.issued (h : Seen did t codes) : ∀ code ∈ codes, Issued t code := by
  obtain ⟨t₀, t₁, h₀, h₁, rfl⟩ := h
  rw [detailsAt_eq]
  intro code hcode
  obtain ⟨row, hrow, rfl⟩ := List.mem_map.1 hcode
  exact issued_grows ⟨row, List.mem_of_mem_filter hrow, row.disabled, _, rfl⟩ (h₀.trans h₁)

/-- What a handler's statements keep to, and what holds of its answer. -/
abbrev Supplies {α : Type} (E : Env) (N : String → Nat) (K : Choice → Prop)
    (Q : InviteTables → α → Prop) (t : InviteTables) (p : Handler α) : Prop :=
  Relies K Grows (Keeps E N) Q t p

theorem supplies_query {α : Type} {Q : InviteTables → α → Prop} {f : Choice → InviteTables → α}
    (hQ : ∀ c t', K c → Grows t t' → Q t' (f c t')) : Supplies E N K Q t (query f) := by
  refine relies_reads Keeps.refl (fun c => (reads_attempt _).bind fun _ => fun _ => rfl) ?_
  intro c t' a hc hgrows h
  rw [exec_bind, exec_attempt] at h
  cases hfails : databaseFails c with
  | none =>
    rw [hfails] at h
    cases h
    exact hQ c t' hc hgrows
  | some e =>
    rw [hfails] at h
    cases h

theorem supplies_getAccountInviteCodes (did : String) (t : InviteTables) :
    Supplies E N K (Seen did) t (getAccountInviteCodes did) := by
  have hselect : Supplies E N K (fun t rows => rows = rowsFor did t) t (selectInviteCodes did) :=
    supplies_query fun _ _ _ _ => rfl
  refine Relies.bind hselect fun t rows hrows => ?_
  subst hrows
  have huses : Supplies E N K
      (fun t' uses => codeDetails (rowsFor did t) uses = detailsAt t t' did ∧ Grows t t') t
      (selectUses ((rowsFor did t).map (·.code))) := by
    unfold selectUses
    split
    · rename_i hnil
      refine relies_pure ⟨?_, Grows.refl t⟩
      rw [detailsAt, List.map_eq_nil_iff.1 hnil]
      rfl
    · exact supplies_query fun _ t' _ hgrows => ⟨rfl, hgrows⟩
  refine Relies.bind huses fun t' uses h => relies_pure ?_
  exact ⟨t, t', h.2, Grows.refl t', h.1⟩

/-- What is calculated goes with the five and the epoch, if there is anything to create. -/
structure Room (E : Env) (N : String → Nat) (did : String) (codes : List CodeDetail)
    (r : Nat × Nat) : Prop where
  total : (codes.filter routine).length + r.1 = r.2
  five : 0 < r.1 → unusedRoutine codes + r.1 ≤ 5
  epoch : 0 < r.1 → epochCount E.stamp (E.inviteEpoch.getD 0) codes + r.1 ≤ N did

theorem supplies_calculate {userCreatedAt : UInt64} (hseen : Seen did t codes)
    (hallows : ∀ c, K c → ∀ n, couldCreate E.checked c.now userCreatedAt (E.inviteEpoch.getD 0)
      (E.inviteInterval.getD 0) = .ok n → n.toNat ≤ N did) :
    Supplies E N K (fun t r => Seen did t codes ∧ Room E N did codes r) t (calculate E
      ⟨userCreatedAt, codes, E.inviteEpoch.getD 0, E.inviteInterval.getD 0⟩) := by
  refine relies_reads Keeps.refl (fun c => reads_ofExcept _) fun c t' r hc hgrows h => ?_
  refine ⟨hseen.grows hgrows, ?_⟩
  cases hr : calculateCodesToCreate E.stamp E.checked c.now
      ⟨userCreatedAt, codes, E.inviteEpoch.getD 0, E.inviteInterval.getD 0⟩ with
  | error fault =>
    rw [hr] at h
    cases h
  | ok r' =>
    rw [hr] at h
    cases h
    obtain ⟨n, hn, -, hcreate, htotal⟩ := calculateCodesToCreate_ok.1 hr
    have hn := hallows c hc n hn
    dsimp only [unusedCount] at hcreate htotal
    refine ⟨htotal, fun hpos => ?_, fun hpos => ?_⟩
    · unfold unusedRoutine
      omega
    · omega

theorem supplies_createAvailableCodes {createAvailable : Bool} {account : String × Option Int}
    (hseen : Seen did t codes)
    (hallows : ∀ userCreatedAt, E.stamp account.1 = some userCreatedAt → ∀ c, K c → ∀ n,
      couldCreate E.checked c.now userCreatedAt (E.inviteEpoch.getD 0) (E.inviteInterval.getD 0) =
        .ok n → n.toNat ≤ N did) :
    Supplies E N K (fun t created => Seen did t codes ∧ ∀ code ∈ created, Issued t code) t
      (createAvailableCodes E createAvailable account did codes) := by
  have hnone : ∀ {t}, Seen did t codes → Supplies E N K
      (fun t created => Seen did t codes ∧ ∀ code ∈ created, Issued t code) t (pure []) :=
    fun h => relies_pure ⟨h, fun code hcode => by cases hcode⟩
  unfold createAvailableCodes
  split
  · split
    · exact relies_fail _
    · rename_i userCreatedAt hstamp
      refine Relies.bind (supplies_calculate hseen (hallows userCreatedAt hstamp)) fun t r h => ?_
      obtain ⟨hseen, hroom⟩ := h
      dsimp only
      split
      · rename_i hpos
        have hdraw : Supplies E N K (fun t _ => Seen did t codes) t (drawCodes E r.1) :=
          relies_reads Keeps.refl (fun c => reads_pure _) fun c t' _ _ hgrows _ => hseen.grows hgrows
        refine Relies.bind hdraw fun t drawn hseen => ?_
        refine relies_stmt (fun c t' _ hgrows => ?_) fun c t' created u _ hgrows h => ?_
        · exact keeps_accountTransaction (hseen.grows hgrows) hroom.total (hroom.five hpos)
            (hroom.epoch hpos) rfl
        · rcases accountTransaction_cases h with ⟨-, hr⟩ | ⟨hinsert, -, hr⟩
          · exact absurd rfl (hr created)
          · cases hr
            refine ⟨(hseen.grows hgrows).grows (grows_insert hinsert), fun code hcode => ?_⟩
            obtain ⟨row, hrow, rfl⟩ := List.mem_map.1 hcode
            refine ⟨row, ?_, row.disabled, [], rfl⟩
            rw [(insertInviteCodes_eq hinsert).1]
            exact List.mem_append_right _ hrow
      · exact hnone hseen
  · exact hnone hseen

/-- **A handler creates no more than there is room for when it commits.** -/
theorem supplies_innerGetAccountInviteCodes {K : String → Choice → Prop} (hallows : Allows E N K)
    (includeUsed createAvailable : Bool) (requester : String) (t : InviteTables) :
    Supplies E N (K requester) (fun t codes => ∀ code ∈ codes, Issued t code) t
      (innerGetAccountInviteCodes E includeUsed createAvailable requester) := by
  have haccount : Supplies E N (K requester)
      (fun _ account => ∃ c, K requester c ∧ c.account requester = account) t
      (getAccount requester) :=
    supplies_query fun c _ hc _ => ⟨c, hc, rfl⟩
  refine Relies.bind haccount fun t account h => ?_
  obtain ⟨c, hc, haccount⟩ := h
  refine Relies.bind (supplies_getAccountInviteCodes requester t) fun t userCodes hseen => ?_
  cases account with
  | none => exact relies_fail _
  | some account =>
    refine Relies.bind (supplies_createAvailableCodes hseen fun userCreatedAt hstamp c' hc' =>
      hallows requester c hc account userCreatedAt haccount hstamp c' hc') fun t created h => ?_
    obtain ⟨hseen, hcreated⟩ := h
    refine relies_pure fun code hcode => ?_
    rcases List.mem_append.1 (List.mem_of_mem_filter hcode) with hcode | hcode
    · exact hcreated code hcode
    · exact hseen.issued code hcode

/-! ## Everyone else creates no routine code -/

theorem keeps_createInviteCodes {toCreate : List AccountCodes} {useCount : Int32} {createdAt : String}
    (h : createInviteCodes toCreate useCount createdAt t = some t') : Keeps E N t t' := by
  refine keeps_of_routine (grows_insert h) fun did => ?_
  rw [(insertInviteCodes_eq h).1, List.countP_append, Nat.add_eq_left, List.countP_eq_zero]
  intro row hrow
  obtain ⟨account, -, hrow⟩ := List.mem_flatMap.1 hrow
  obtain ⟨code, -, rfl⟩ := List.mem_map.1 hrow
  simp [routineOf]

theorem keeps_recordInviteUse {inviteCode : Option String} {now : String}
    (h : recordInviteUse did inviteCode now t = some t') : Keeps E N t t' := by
  cases inviteCode with
  | none =>
    cases h
    exact Keeps.refl t
  | some code =>
    simp only [recordInviteUse, insertInviteCodeUse] at h
    split at h
    · cases h
    · cases h
      refine keeps_of_routine ⟨⟨id, [], Later.refl, ?_⟩, List.prefix_append _ _⟩ fun did => rfl
      rw [List.map_id, List.append_nil]

theorem keeps_disableWhere (p : InviteCodeRow → Bool) : Keeps E N t (disableWhere p t) := by
  refine keeps_of_routine ⟨⟨disableIf p, [], disableIf_cases p, ?_⟩, List.prefix_refl _⟩ fun did => ?_
  · rw [List.append_nil]
    rfl
  · show (t.inviteCode.map (disableIf p)).countP _ = _
    rw [List.countP_map]
    refine List.countP_congr fun row _ => ?_
    rw [Function.comp_apply]
    rcases disableIf_cases p row with h | h
    · rw [h]
    · rw [h]
      exact Iff.rfl

theorem keeps_commit {W : World} {u : Option InviteTables}
    (h : ∀ t, u = some t → Keeps E N W.tables t) : Keeps E N W.tables (W.commit u).tables := by
  cases u with
  | none => exact Keeps.refl _
  | some t => exact h t rfl

/-! ## Runs -/

/-- The supply, and what every handler under way keeps to from here on. -/
structure Inv (E : Env) (N : String → Nat) (K : String → Choice → Prop) (W : World) : Prop where
  within : Within E N W.tables
  handlers : ∀ r ∈ W.handlers,
    Supplies E N (K r.requester) (fun t codes => ∀ code ∈ codes, Issued t code) W.tables r.handler

/-- A call's statement meets with what those of its account may meet with. -/
def Own (K : String → Choice → Prop) (W : World) (a : Action) : Prop :=
  ∀ i c, a = .advance i c → ∀ r, W.handlers[i]? = some r → K r.requester c

variable {K : String → Choice → Prop} {W W' : World} {a : Action}

theorem Inv.supplied (h : Inv E N K W) : Supplied E N W where
  five := fun did => (h.within did).1
  epoch := fun did => (h.within did).2
  issued := fun r hr _ hcodes => by
    have hsupplies := h.handlers r hr
    rw [hcodes] at hsupplies
    exact hsupplies

/-- The handlers rely on no more than what everyone keeps to. -/
theorem Inv.keeps (h : Inv E N K W) (ht : Keeps E N W.tables t) :
    Inv E N K { W with tables := t } := by
  refine ⟨ht.within h.within, fun r hr => ?_⟩
  exact (h.handlers r hr).stable (fun _ _ _ h h' => h.trans h')
    (fun t t' codes hgrows hissued code hcode => issued_grows (hissued code hcode) hgrows) ht.grows

theorem inv_step (hallows : Allows E N K) (h : Inv E N K W) (ha : Own K W a)
    (hstep : step E W a = some W') : Inv E N K W' := by
  cases a with
  | getAccountInviteCodes includeUsed createAvailable requester =>
    cases hstep
    refine ⟨h.within, fun r hr => ?_⟩
    rcases List.mem_append.1 hr with hr | hr
    · exact h.handlers r hr
    · rw [List.mem_singleton.1 hr]
      exact supplies_innerGetAccountInviteCodes hallows includeUsed createAvailable requester _
  | advance i c =>
    obtain ⟨r, hr, hstep⟩ := Option.bind_eq_some_iff.1 hstep
    obtain ⟨⟨t, p⟩, hp, hstep⟩ := Option.bind_eq_some_iff.1 hstep
    cases hstep
    have hstep := (h.handlers r (List.mem_of_getElem? hr)).step (ha i c rfl r hr) (Grows.refl _) hp
    have hkept := h.keeps hstep.1
    exact ⟨hkept.within, forall_mem_set hstep.2 hkept.handlers⟩
  | createInviteCode useCount forAccount token createdAt =>
    cases hstep
    exact h.keeps (keeps_commit fun t => keeps_createInviteCodes)
  | createInviteCodes useCount codeCount forAccounts token createdAt =>
    cases hstep
    exact h.keeps (keeps_commit fun t => keeps_createInviteCodes)
  | recordInviteUse did inviteCode now =>
    cases hstep
    exact h.keeps (keeps_commit fun t => keeps_recordInviteUse)
  | disableCodes codes =>
    cases hstep
    exact h.keeps (keeps_disableWhere _)
  | disableAccounts accounts =>
    cases hstep
    exact h.keeps (keeps_disableWhere _)

def World.requesters (W : World) : List String := W.handlers.map (·.requester)

theorem requesters_getElem? {i : Nat} {r : Request} (hr : W.handlers[i]? = some r) :
    W.requesters[i]? = some r.requester := by
  rw [World.requesters, List.getElem?_map, hr]
  rfl

/-- A call stays that of its account. -/
theorem requesters_step (hstep : step E W a = some W') :
    W'.requesters = requestersAfter W.requesters a := by
  cases a with
  | getAccountInviteCodes includeUsed createAvailable requester =>
    cases hstep
    exact List.map_append
  | advance i c =>
    obtain ⟨r, hr, hstep⟩ := Option.bind_eq_some_iff.1 hstep
    obtain ⟨⟨t, p⟩, hp, hstep⟩ := Option.bind_eq_some_iff.1 hstep
    cases hstep
    obtain ⟨hi, hget⟩ := List.getElem?_eq_some_iff.1 (requesters_getElem? hr)
    show (W.handlers.set i { r with handler := p }).map _ = W.requesters
    rw [List.map_set]
    exact hget ▸ List.set_getElem_self hi
  | createInviteCode | createInviteCodes | recordInviteUse | disableCodes | disableAccounts =>
    cases hstep
    rfl

theorem own_of_ownChoice (h : ∀ did, ∀ c ∈ ownChoice did W.requesters a, K did c) : Own K W a := by
  rintro i c rfl r hr
  refine h r.requester c ?_
  rw [ownChoice, if_pos (requesters_getElem? hr)]
  exact List.mem_singleton_self c

theorem along_own (W : World) (as : List Action)
    (h : ∀ did, ∀ c ∈ ownChoices did W.requesters as, K did c) : Along (step E) (Own K) W as := by
  induction as generalizing W with
  | nil => trivial
  | cons a as ih =>
    intro W' hstep
    refine ⟨own_of_ownChoice fun did c hc => h did c (List.mem_append_left _ hc), ?_⟩
    refine ih W' fun did c hc => h did c (List.mem_append_right _ ?_)
    rw [← requesters_step hstep]
    exact hc

/-- **However the calls interleave, nobody has more than five unused routine codes**, none has more of the
epoch than it had at first or than one of its own calls calculates for it, and every code that a call has
answered with is on record. -/
theorem codes_supplied (E : Env) (N : String → Nat) (W : World) (as : List Action)
    (hallows : Allows E N fun did c => c ∈ ownChoices did [] as) (hnone : W.handlers = [])
    (hfive : ∀ did, unusedRoutine (accountCodes W.tables did) ≤ 5)
    (hepoch : ∀ did,
      epochCount E.stamp (E.inviteEpoch.getD 0) (accountCodes W.tables did) ≤ N did) :
    Always (step E) (Supplied E N) W as := by
  have hinv : Inv E N (fun did c => c ∈ ownChoices did [] as) W := by
    refine ⟨fun did => ⟨hfive did, hepoch did⟩, fun r hr => ?_⟩
    rw [hnone] at hr
    cases hr
  have halong : Along (step E) (Own fun did c => c ∈ ownChoices did [] as) W as := by
    refine along_own W as fun did c hc => ?_
    rw [World.requesters, hnone] at hc
    exact hc
  refine (always_of_along (fun W a W' h ha hstep => ?_) hinv as halong).mono fun _ => Inv.supplied
  exact inv_step hallows h ha hstep

/-- An account of the beginning of time, with an interval of ten. -/
def everyTen : Env where
  stamp := fun text => if text = "created" then some 0 else if text = "now" then some 25 else none
  checked := true
  hostname := "pds.test"
  inviteRequired := none
  inviteInterval := some 10
  inviteEpoch := none

def readAt (now : UInt64) (token : String) : Choice where
  fails := false
  account := fun did =>
    if did = "did:plc:alice" ∨ did = "did:plc:bob" then some ("created", none) else none
  now := now
  createdAt := "now"
  token := fun i => token ++ String.ofList (List.replicate i 'x')

/-- Two calls of Alice both read before either creates, and one of Bob comes later. -/
def twoCalls : List Action :=
  [.getAccountInviteCodes true true "did:plc:alice", .getAccountInviteCodes true true "did:plc:alice",
    .getAccountInviteCodes true true "did:plc:bob",
    .advance 0 (readAt 25 "a"), .advance 1 (readAt 25 "b"), .advance 0 (readAt 25 "a"),
    .advance 1 (readAt 25 "b"), .advance 0 (readAt 25 "a"), .advance 1 (readAt 25 "b"),
    .advance 0 (readAt 25 "a"), .advance 1 (readAt 25 "b"), .advance 0 (readAt 25 "a"),
    .advance 1 (readAt 25 "b"), .advance 2 (readAt 45 "c"), .advance 2 (readAt 45 "c"),
    .advance 2 (readAt 45 "c"), .advance 2 (readAt 45 "c"), .advance 2 (readAt 45 "c")]

def noCodes : World where
  tables := ⟨[], [], List.nodup_nil, List.nodup_nil⟩
  handlers := []

/-- What their own calls calculate. -/
def calculated (did : String) : Nat := if did = "did:plc:alice" then 2 else 4

/-- At Bob's time Alice would have got four. -/
theorem allows_twoCalls :
    Allows everyTen calculated fun did c => c ∈ ownChoices did [] twoCalls := by
  have hown : ∀ did, ∀ c ∈ ownChoices did [] twoCalls, ∃ now token, c = readAt now token ∧
      ∀ n, couldCreate true now 0 0 10 = .ok n → n.toNat ≤ calculated did := by
    intro did c hc
    have hwhose : (did = "did:plc:alice" ∧ ∃ token, c = readAt 25 token) ∨
        (did = "did:plc:bob" ∧ ∃ token, c = readAt 45 token) := by
      simp [twoCalls, ownChoices, ownChoice, requestersAfter] at hc
      grind
    obtain ⟨rfl, token, rfl⟩ | ⟨rfl, token, rfl⟩ := hwhose
    · have htwo : couldCreate true 25 0 0 10 = .ok 2 := by decide
      refine ⟨25, token, rfl, fun n hn => ?_⟩
      cases htwo.symm.trans hn
      decide
    · have hfour : couldCreate true 45 0 0 10 = .ok 4 := by decide
      refine ⟨45, token, rfl, fun n hn => ?_⟩
      cases hfour.symm.trans hn
      decide
  intro did c hc account userCreatedAt haccount hstamp c' hc' n hn
  obtain ⟨now, token, rfl, -⟩ := hown did c hc
  obtain ⟨now', token', rfl, hn'⟩ := hown did c' hc'
  dsimp only [readAt] at haccount
  split at haccount
  · cases haccount
    cases hstamp
    exact hn' n hn
  · cases haccount

/-- The second of Alice's is turned away. -/
theorem twoCalls_supplied :
    Always (step everyTen) (Supplied everyTen calculated) noCodes twoCalls ∧
      ((run (step everyTen) noCodes twoCalls).map fun W =>
        W.tables.inviteCode.map (·.forAccount)) =
          some ["did:plc:alice", "did:plc:alice", "did:plc:bob", "did:plc:bob", "did:plc:bob",
            "did:plc:bob"] := by
  refine ⟨codes_supplied everyTen _ noCodes twoCalls allows_twoCalls rfl ?_ ?_, by decide +kernel⟩
  · exact fun did => Nat.zero_le 5
  · exact fun did => Nat.zero_le (calculated did)

end CacosPds.Server.InviteSupply
