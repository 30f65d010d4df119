import Mathlib.Data.List.Nodup
import CacosPds.Lib.Stages
/-!
# Invite codes of an account (`xrpc/com/atproto/server/get_account_invite_codes.rs`, `helpers/invite.rs:177-230`)

| here | there |
| --- | --- |
| `calculateCodesToCreate` | `calculate_codes_to_create` (`:19-61`) |
| `couldCreate`  | its two branches on the epoch (`:36-43`) |
| `createAccountInviteCodes` | `create_account_invite_codes` (`invite.rs:177`), of the rows of one account |
| `innerGetAccountInviteCodes` | `inner_get_account_invite_codes` (`:63`), with the rows it leaves |

Instants and intervals are in microseconds, at 64 bits. `checked` is the overflow check of the build:
with it a subtraction that underflows panics, without it the difference wraps. Either way a division
by zero panics.
-/
namespace CacosPds.Server.InviteCodes

inductive Fault where
  | overflow
  | divisionByZero
  /-- `unwrap` of a `created_at` that does not parse. -/
  | unwrap
  deriving DecidableEq

/-- `a - b` of two `usize`. -/
def usub (checked : Bool) (a b : UInt64) : Except Fault UInt64 :=
  if checked && decide (a < b) then .error .overflow else .ok (a - b)

/-- `a / b` of two `usize`. -/
def udiv (a b : UInt64) : Except Fault UInt64 :=
  if b = 0 then .error .divisionByZero else .ok (a / b)

structure CodeUse where
  usedBy : String
  usedAt : String
  deriving DecidableEq

structure CodeDetail where
  code : String
  available : Int32
  disabled : Bool
  forAccount : String
  createdBy : String
  createdAt : String
  uses : List CodeUse
  deriving DecidableEq

structure CalculateCodesToCreateOpts where
  userCreatedAt : UInt64
  codes : List CodeDetail
  epoch : UInt64
  interval : UInt64

def routine (code : CodeDetail) : Bool := code.createdBy ≠ "admin"

/-- `!disabled && available as usize > uses.len()`. -/
def unused (code : CodeDetail) : Bool :=
  !code.disabled && decide (code.uses.length < code.available.toInt64.toUInt64.toNat)

section

-- `created_at` in microseconds, as `usize`; `none` where it is not in `RFC3339_VARIANT`.
variable (stamp : String → Option UInt64)

def createdAfter (epoch : UInt64) (code : CodeDetail) : Bool :=
  (stamp code.createdAt).any fun datetime => decide (epoch < datetime)

/-- The routine codes created after the epoch. -/
def epochCodes (epoch : UInt64) : List CodeDetail → Except Fault (List CodeDetail)
  | [] => .ok []
  | code :: codes =>
    match stamp code.createdAt with
    | none => .error .unwrap
    | some datetime => do
      let rest ← epochCodes epoch codes
      return if epoch < datetime then code :: rest else rest

def couldCreate (checked : Bool) (now userCreatedAt epoch interval : UInt64) :
    Except Fault UInt64 := do
  let userLifespan ← usub checked now userCreatedAt
  if epoch ≤ userCreatedAt then
    udiv userLifespan interval
  else
    let couldCreateTotal ← udiv userLifespan interval
    let userPreEpochLifespan ← usub checked epoch userCreatedAt
    let couldCreateBeforeEpoch ← udiv userPreEpochLifespan interval
    usub checked couldCreateTotal couldCreateBeforeEpoch

/-- How many codes to create, and how many routine codes there are then. -/
def calculateCodesToCreate (checked : Bool) (now : UInt64) (opts : CalculateCodesToCreateOpts) :
    Except Fault (Nat × Nat) := do
  let routineCodes := opts.codes.filter routine
  let unusedRoutineCodes := routineCodes.filter unused
  let couldCreate ← couldCreate checked now opts.userCreatedAt opts.epoch opts.interval
  let epochCodes ← epochCodes stamp opts.epoch routineCodes
  let toCreate := min (5 - unusedRoutineCodes.length) (couldCreate.toNat - epochCodes.length)
  return (toCreate, routineCodes.length + toCreate)

/-- The row that `create_account_invite_codes` writes for a code. -/
def newCode (forAccount : String) (disabled : Bool) (now code : String) : CodeDetail :=
  ⟨code, 1, disabled, forAccount, forAccount, now, []⟩

inductive Failure where
  | panics (fault : Fault)
  | runtimeError
  | invalidRequest (message : String)
  deriving DecidableEq

/-- The rows of the account after the transaction, or `none` if it bails: the code is the primary key,
and there may not be more routine codes than expected. -/
def createAccountInviteCodes (forAccount : String) (codes : List String) (expectedTotal : Nat)
    (disabled : Bool) (now : String) (rows : List CodeDetail) : Option (List CodeDetail) :=
  let after := rows ++ codes.map (newCode forAccount disabled now)
  if ¬ (after.map (·.code)).Nodup then none
  else if expectedTotal < (after.filter routine).length then none
  else some after

/-- What the handler finds: the environment, the account, the clocks, and the tokens it will draw. -/
structure Found where
  inviteRequired : Option Bool
  inviteInterval : Option UInt64
  inviteEpoch : Option UInt64
  /-- `created_at` and `invites_disabled`. -/
  account : Option (String × Option Int)
  now : UInt64
  createdAt : String
  genInviteCodes : Nat → List String

def envCreates (found : Found) (createAvailable : Bool) : Bool :=
  createAvailable && found.inviteRequired.getD true && found.inviteInterval.isSome

/-- The codes in the answer, and the rows of the account after the call. -/
def innerGetAccountInviteCodes (checked : Bool) (found : Found) (includeUsed createAvailable : Bool)
    (requester : String) (userCodes : List CodeDetail) :
    Except Failure (List CodeDetail × List CodeDetail) :=
  match found.account with
  | none => .error (.invalidRequest "Account not found")
  | some (accountCreatedAt, invitesDisabled) => do
    let rows ←
      if envCreates found createAvailable then
        match stamp accountCreatedAt with
        | none => .error .runtimeError
        | some userCreatedAt =>
          match calculateCodesToCreate stamp checked found.now
              ⟨userCreatedAt, userCodes, found.inviteEpoch.getD 0, found.inviteInterval.getD 0⟩ with
          | .error fault => .error (.panics fault)
          | .ok (toCreate, total) =>
            if 0 < toCreate then
              match createAccountInviteCodes requester (found.genInviteCodes toCreate) total
                  (invitesDisabled.getD 0 = 1) found.createdAt userCodes with
              | none => .error .runtimeError
              | some rows => .ok rows
            else .ok userCodes
      else .ok userCodes
    let allCodes := rows.drop userCodes.length ++ userCodes
    return (allCodes.filter fun code =>
      !code.disabled && (includeUsed || unused code), rows)

end

/-! ## What it should do -/

/-- Enabled, with fewer uses than it allows. -/
def leftUnused (code : CodeDetail) : Bool :=
  !code.disabled && decide ((code.uses.length : Int) < code.available.toInt)

def unusedCount (opts : CalculateCodesToCreateOpts) : Nat :=
  ((opts.codes.filter routine).filter unused).length

def epochCount (stamp : String → Option UInt64) (epoch : UInt64) (codes : List CodeDetail) : Nat :=
  ((codes.filter routine).filter (createdAfter stamp epoch)).length

/-- The whole intervals since the account or the epoch began, whichever was later. -/
def wholeIntervals (now : UInt64) (opts : CalculateCodesToCreateOpts) : Nat :=
  (now.toNat - max opts.userCreatedAt.toNat opts.epoch.toNat) / opts.interval.toNat

/-- The whole intervals since the account began, less those before the epoch. -/
def intervalsApart (now : UInt64) (opts : CalculateCodesToCreateOpts) : Nat :=
  (now.toNat - opts.userCreatedAt.toNat) / opts.interval.toNat -
    (opts.epoch.toNat - opts.userCreatedAt.toNat) / opts.interval.toNat

/-- No division by zero and no underflow, never more than five unused codes, and no more codes of the
epoch than whole intervals once the new ones stand beside the old. -/
structure Keeps (stamp : String → Option UInt64) (now : UInt64) (opts : CalculateCodesToCreateOpts)
    (forAccount : String) (disabled : Bool) (createdAt : String) : Prop where
  faultless : ∃ r, calculateCodesToCreate stamp true now opts = .ok r
  atMostFive : ∀ toCreate total, calculateCodesToCreate stamp false now opts = .ok (toCreate, total) →
    toCreate ≤ 5 - ((opts.codes.filter routine).filter leftUnused).length
  elapsed : ∀ toCreate total (codes : List String),
    calculateCodesToCreate stamp false now opts = .ok (toCreate, total) → codes.length = toCreate →
      epochCount stamp opts.epoch (opts.codes ++ codes.map (newCode forAccount disabled createdAt)) ≤
        wholeIntervals now opts

/-- The orders under which nothing is divided by zero and nothing underflows. -/
structure Orders (now : UInt64) (opts : CalculateCodesToCreateOpts) : Prop where
  interval : 0 < opts.interval.toNat
  created : opts.userCreatedAt.toNat ≤ now.toNat
  epoch : (opts.epoch.toNat - opts.userCreatedAt.toNat) / opts.interval.toNat ≤
    (now.toNat - opts.userCreatedAt.toNat) / opts.interval.toNat

/-- Where the code keeps what it should: besides the orders, the codes already there do not exceed the
intervals, and where cutting both divisions off gains an interval, nothing is created on it. -/
structure Holds (stamp : String → Option UInt64) (now : UInt64) (opts : CalculateCodesToCreateOpts)
    (forAccount : String) (disabled : Bool) (createdAt : String) : Prop where
  orders : Orders now opts
  parses : ∀ code ∈ opts.codes.filter routine, (stamp code.createdAt).isSome
  before : epochCount stamp opts.epoch opts.codes ≤ wholeIntervals now opts
  gained : intervalsApart now opts ≤ wholeIntervals now opts ∨
    epochCount stamp opts.epoch opts.codes + (5 - unusedCount opts) ≤ wholeIntervals now opts ∨
    (routine (newCode forAccount disabled createdAt "") &&
      createdAfter stamp opts.epoch (newCode forAccount disabled createdAt "")) = false

/-! ### The steps of the calculation -/

variable {stamp : String → Option UInt64} {checked : Bool} {now : UInt64}
  {opts : CalculateCodesToCreateOpts}

theorem usub_of_le {a b : UInt64} (h : b.toNat ≤ a.toNat) : usub checked a b = .ok (a - b) := by
  have hlt : ¬ a < b := fun hlt => absurd (UInt64.lt_iff_toNat_lt.1 hlt) (by omega)
  simp [usub, hlt]

theorem le_of_usub {a b c : UInt64} (h : usub true a b = .ok c) : b.toNat ≤ a.toNat := by
  by_cases hlt : a < b
  · simp [usub, hlt] at h
  · have := mt UInt64.lt_iff_toNat_lt.2 hlt
    omega

theorem udiv_ok {a b c : UInt64} : udiv a b = .ok c ↔ 0 < b.toNat ∧ c = a / b := by
  unfold udiv
  by_cases hb : b = 0
  · simp [hb]
  · have hpos : 0 < b.toNat := Nat.pos_of_ne_zero fun h => hb (UInt64.toNat_inj.1 (by simpa using h))
    simp [hb, hpos, eq_comm]

theorem couldCreate_of_orders (h : Orders now opts) : ∃ n,
    couldCreate checked now opts.userCreatedAt opts.epoch opts.interval = .ok n ∧
      n.toNat = intervalsApart now opts := by
  obtain ⟨hinterval, hcreated, hepoch⟩ := h
  have hlifespan : (now - opts.userCreatedAt).toNat = now.toNat - opts.userCreatedAt.toNat :=
    UInt64.toNat_sub_of_le _ _ (UInt64.le_iff_toNat_le.2 hcreated)
  unfold couldCreate intervalsApart
  rw [usub_of_le hcreated]
  by_cases hle : opts.epoch ≤ opts.userCreatedAt
  · refine ⟨_, by simpa [bind, Except.bind, hle] using udiv_ok.2 ⟨hinterval, rfl⟩, ?_⟩
    have : opts.epoch.toNat - opts.userCreatedAt.toNat = 0 :=
      Nat.sub_eq_zero_of_le (UInt64.le_iff_toNat_le.1 hle)
    simp [this, hlifespan]
  · have hlt : opts.userCreatedAt.toNat ≤ opts.epoch.toNat := by
      have := mt UInt64.le_iff_toNat_le.2 hle
      omega
    have hpre : (opts.epoch - opts.userCreatedAt).toNat =
        opts.epoch.toNat - opts.userCreatedAt.toNat :=
      UInt64.toNat_sub_of_le _ _ (UInt64.le_iff_toNat_le.2 hlt)
    have htotal : ((opts.epoch - opts.userCreatedAt) / opts.interval).toNat ≤
        ((now - opts.userCreatedAt) / opts.interval).toNat := by
      simpa [hpre, hlifespan] using hepoch
    refine ⟨(now - opts.userCreatedAt) / opts.interval -
      (opts.epoch - opts.userCreatedAt) / opts.interval, ?_, ?_⟩
    · simp [bind, Except.bind, hle, udiv_ok.2 ⟨hinterval, rfl⟩, usub_of_le hlt, usub_of_le htotal]
    · rw [UInt64.toNat_sub_of_le _ _ (UInt64.le_iff_toNat_le.2 htotal)]
      simp [hpre, hlifespan]

theorem orders_of_couldCreate {n : UInt64}
    (h : couldCreate true now opts.userCreatedAt opts.epoch opts.interval = .ok n) :
    Orders now opts := by
  obtain ⟨lifespan, hlifespan, h⟩ := Stages.except_bind_ok.1 h
  have hcreated := le_of_usub hlifespan
  rw [usub_of_le hcreated, Except.ok.injEq] at hlifespan
  have hnat : lifespan.toNat = now.toNat - opts.userCreatedAt.toNat := by
    rw [← hlifespan, UInt64.toNat_sub_of_le _ _ (UInt64.le_iff_toNat_le.2 hcreated)]
  by_cases hle : opts.epoch ≤ opts.userCreatedAt
  · rw [if_pos hle] at h
    have : opts.epoch.toNat - opts.userCreatedAt.toNat = 0 :=
      Nat.sub_eq_zero_of_le (UInt64.le_iff_toNat_le.1 hle)
    exact ⟨(udiv_ok.1 h).1, hcreated, by simp [this]⟩
  · rw [if_neg hle] at h
    obtain ⟨total, htotal, h⟩ := Stages.except_bind_ok.1 h
    obtain ⟨pre, hpre, h⟩ := Stages.except_bind_ok.1 h
    obtain ⟨before, hbefore, h⟩ := Stages.except_bind_ok.1 h
    have hlt := le_of_usub hpre
    rw [usub_of_le hlt, Except.ok.injEq] at hpre
    have hprenat : pre.toNat = opts.epoch.toNat - opts.userCreatedAt.toNat := by
      rw [← hpre, UInt64.toNat_sub_of_le _ _ (UInt64.le_iff_toNat_le.2 hlt)]
    obtain ⟨hinterval, rfl⟩ := udiv_ok.1 htotal
    obtain ⟨-, rfl⟩ := udiv_ok.1 hbefore
    refine ⟨hinterval, hcreated, ?_⟩
    simpa [hnat, hprenat] using le_of_usub h

theorem epochCodes_ok {epoch : UInt64} {codes found : List CodeDetail} :
    epochCodes stamp epoch codes = .ok found ↔
      (∀ code ∈ codes, (stamp code.createdAt).isSome) ∧
        codes.filter (createdAfter stamp epoch) = found := by
  induction codes generalizing found with
  | nil => simp [epochCodes]
  | cons code codes ih =>
    unfold epochCodes
    cases hstamp : stamp code.createdAt with
    | none => simp [hstamp]
    | some datetime =>
      simp only [Stages.except_bind_ok, ih, List.forall_mem_cons, hstamp, Option.isSome_some, true_and,
        List.filter_cons, createdAfter, Option.any_some, decide_eq_true_eq, pure, Except.pure,
        Except.ok.injEq, and_assoc]
      constructor
      · rintro ⟨rest, hall, rfl, rfl⟩
        exact ⟨hall, rfl⟩
      · rintro ⟨hall, rfl⟩
        exact ⟨_, hall, rfl, rfl⟩

theorem calculateCodesToCreate_ok {toCreate total : Nat} :
    calculateCodesToCreate stamp checked now opts = .ok (toCreate, total) ↔
      ∃ n, couldCreate checked now opts.userCreatedAt opts.epoch opts.interval = .ok n ∧
        (∀ code ∈ opts.codes.filter routine, (stamp code.createdAt).isSome) ∧
        min (5 - unusedCount opts) (n.toNat - epochCount stamp opts.epoch opts.codes) = toCreate ∧
        (opts.codes.filter routine).length + toCreate = total := by
  unfold calculateCodesToCreate epochCount unusedCount
  simp only [Stages.except_bind_ok, epochCodes_ok, pure, Except.pure, Except.ok.injEq, Prod.mk.injEq]
  constructor
  · rintro ⟨n, hn, _, ⟨hall, rfl⟩, rfl, rfl⟩
    exact ⟨n, hn, hall, rfl, rfl⟩
  · rintro ⟨n, hn, hall, rfl, rfl⟩
    exact ⟨n, hn, _, ⟨hall, rfl⟩, rfl, rfl⟩

/-- Within the orders the two builds agree, on this. -/
theorem calculateCodesToCreate_of_orders (h : Orders now opts)
    (hall : ∀ code ∈ opts.codes.filter routine, (stamp code.createdAt).isSome) :
    calculateCodesToCreate stamp checked now opts =
      .ok (min (5 - unusedCount opts) (intervalsApart now opts - epochCount stamp opts.epoch opts.codes),
        (opts.codes.filter routine).length +
          min (5 - unusedCount opts)
            (intervalsApart now opts - epochCount stamp opts.epoch opts.codes)) := by
  obtain ⟨n, hn, hnat⟩ := couldCreate_of_orders h
  exact calculateCodesToCreate_ok.2 ⟨n, hn, hall, by rw [hnat], rfl⟩

theorem faultless_iff : (∃ r, calculateCodesToCreate stamp true now opts = .ok r) ↔
    Orders now opts ∧ ∀ code ∈ opts.codes.filter routine, (stamp code.createdAt).isSome := by
  constructor
  · rintro ⟨⟨toCreate, total⟩, h⟩
    obtain ⟨n, hn, hall, -⟩ := calculateCodesToCreate_ok.1 h
    exact ⟨orders_of_couldCreate hn, hall⟩
  · rintro ⟨horders, hall⟩
    exact ⟨_, calculateCodesToCreate_of_orders horders hall⟩

theorem unused_of_leftUnused (code : CodeDetail) (h : leftUnused code = true) :
    unused code = true := by
  simp only [leftUnused, unused, Bool.and_eq_true, decide_eq_true_eq] at h ⊢
  obtain ⟨hdisabled, hleft⟩ := h
  refine ⟨hdisabled, ?_⟩
  have hnonneg : 0 ≤ code.available.toInt64 := by
    rw [Int64.le_iff_toInt_le, Int32.toInt_toInt64, Int64.toInt_zero]
    omega
  rw [Int64.toNat_toUInt64_of_le hnonneg, Int32.toNatClampNeg_toInt64]
  show code.uses.length < code.available.toInt.toNat
  omega

theorem toCreate_atMostFive {toCreate total : Nat}
    (h : calculateCodesToCreate stamp checked now opts = .ok (toCreate, total)) :
    toCreate ≤ 5 - ((opts.codes.filter routine).filter leftUnused).length := by
  obtain ⟨n, -, -, rfl, -⟩ := calculateCodesToCreate_ok.1 h
  have hsub : ((opts.codes.filter routine).filter leftUnused).length ≤ unusedCount opts :=
    (List.monotone_filter_right _ unused_of_leftUnused).length_le
  omega

/-! ### The codes afterwards -/

/-- The new codes count, all or none. -/
theorem epochCount_append (epoch : UInt64) (rows : List CodeDetail) (forAccount : String)
    (disabled : Bool) (createdAt : String) (codes : List String) :
    epochCount stamp epoch (rows ++ codes.map (newCode forAccount disabled createdAt)) =
      epochCount stamp epoch rows +
        if routine (newCode forAccount disabled createdAt "") &&
          createdAfter stamp epoch (newCode forAccount disabled createdAt "")
        then codes.length else 0 := by
  have hnew : ∀ code, (routine (newCode forAccount disabled createdAt code) &&
      createdAfter stamp epoch (newCode forAccount disabled createdAt code)) =
      (routine (newCode forAccount disabled createdAt "") &&
        createdAfter stamp epoch (newCode forAccount disabled createdAt "")) := fun _ => rfl
  unfold epochCount
  rw [List.filter_append, List.filter_append, List.length_append, List.filter_filter (l := codes.map _)]
  congr 1
  induction codes with
  | nil => simp
  | cons code codes ih =>
    rw [List.map_cons, List.filter_cons, Bool.and_comm, hnew]
    split_ifs at ih ⊢ with hcounts
    · simp [ih]
    · exact ih

theorem after_of_createAccountInviteCodes {forAccount createdAt : String} {codes : List String}
    {total : Nat} {disabled : Bool} {rows after : List CodeDetail}
    (h : createAccountInviteCodes forAccount codes total disabled createdAt rows = some after) :
    after = rows ++ codes.map (newCode forAccount disabled createdAt) := by
  simp only [createAccountInviteCodes] at h
  split_ifs at h
  exact (Option.some.inj h).symm

/-- The insertion never trips over its own count. -/
theorem createAccountInviteCodes_of_calculated {toCreate total : Nat}
    (h : calculateCodesToCreate stamp checked now opts = .ok (toCreate, total))
    (forAccount : String) (codes : List String) (hlength : codes.length = toCreate)
    (hfresh : (opts.codes.map (·.code) ++ codes).Nodup) (disabled : Bool) (createdAt : String) :
    createAccountInviteCodes forAccount codes total disabled createdAt opts.codes =
      some (opts.codes ++ codes.map (newCode forAccount disabled createdAt)) := by
  obtain ⟨n, -, -, -, rfl⟩ := calculateCodesToCreate_ok.1 h
  have hnew : ((codes.map (newCode forAccount disabled createdAt)).filter routine).length ≤
      codes.length := by
    simpa using (List.filter_sublist (p := routine)
      (l := codes.map (newCode forAccount disabled createdAt))).length_le
  have hnodup : ((opts.codes ++ codes.map (newCode forAccount disabled createdAt)).map
      (·.code)).Nodup := by
    simpa [Function.comp_def, newCode] using hfresh
  unfold createAccountInviteCodes
  rw [if_neg (not_not.2 hnodup), if_neg]
  rw [List.filter_append, List.length_append]
  omega

theorem elapsed_of_holds {forAccount createdAt : String} {disabled : Bool}
    (h : Holds stamp now opts forAccount disabled createdAt) {toCreate total : Nat}
    (hcalc : calculateCodesToCreate stamp checked now opts = .ok (toCreate, total))
    {codes : List String} (hlength : codes.length = toCreate) :
    epochCount stamp opts.epoch (opts.codes ++ codes.map (newCode forAccount disabled createdAt)) ≤
      wholeIntervals now opts := by
  obtain ⟨horders, hall, hbefore, hgained⟩ := h
  rw [calculateCodesToCreate_of_orders horders hall] at hcalc
  injection hcalc with hcalc
  injection hcalc with htoCreate
  rw [epochCount_append, hlength, ← htoCreate]
  split_ifs with hnew
  · rw [hnew] at hgained
    simp only [Bool.true_eq_false, or_false] at hgained
    omega
  · omega

theorem keeps_iff_holds (stamp : String → Option UInt64) (now : UInt64)
    (opts : CalculateCodesToCreateOpts) (forAccount : String) (disabled : Bool) (createdAt : String) :
    Keeps stamp now opts forAccount disabled createdAt ↔
      Holds stamp now opts forAccount disabled createdAt := by
  constructor
  · intro h
    obtain ⟨horders, hall⟩ := faultless_iff.1 h.faultless
    have hcount := h.elapsed _ _ (List.replicate _ "")
      (calculateCodesToCreate_of_orders horders hall) List.length_replicate
    rw [epochCount_append, List.length_replicate] at hcount
    refine ⟨horders, hall, by omega, ?_⟩
    by_cases hnew : (routine (newCode forAccount disabled createdAt "") &&
        createdAfter stamp opts.epoch (newCode forAccount disabled createdAt "")) = true
    · rw [if_pos hnew] at hcount
      omega
    · exact .inr (.inr ((Bool.not_eq_true _).mp hnew))
  · intro h
    exact ⟨faultless_iff.2 ⟨h.orders, h.parses⟩, fun _ _ => toCreate_atMostFive,
      fun _ _ _ hcalc hlength => elapsed_of_holds h hcalc hlength⟩

def day : UInt64 := 86400000000

/-- One code was created on the second of three days since the epoch, and is used. -/
def threeDays : CalculateCodesToCreateOpts where
  userCreatedAt := 5 * day
  codes := [⟨"pds-k3m7q-w2x5r", 1, false, "did:plc:alice", "did:plc:alice", "1970-01-12T00:00:00.000Z",
    [⟨"did:plc:bob", "1970-01-13T00:00:00.000Z"⟩]⟩]
  epoch := 10 * day
  interval := day

def stampSample (s : String) : Option UInt64 :=
  if s = "1970-01-12T00:00:00.000Z" then some (11 * day)
  else if s = "1970-01-14T00:00:00.000Z" then some (13 * day)
  else none

theorem keeps_threeDays : Keeps stampSample (13 * day) threeDays "did:plc:alice" false
    "1970-01-14T00:00:00.000Z" :=
  (keeps_iff_holds stampSample (13 * day) threeDays "did:plc:alice" false
    "1970-01-14T00:00:00.000Z").2
    ⟨⟨by decide +kernel, by decide +kernel, by decide +kernel⟩, by decide +kernel,
      by decide +kernel, by decide +kernel⟩

/-- With an epoch thirty days ahead the account, six days old, is given five codes. -/
theorem minted_before_epoch :
    calculateCodesToCreate stampSample false (11 * day) ⟨5 * day, [], 40 * day, day⟩ = .ok (5, 5) ∧
      wholeIntervals (11 * day) ⟨5 * day, [], 40 * day, day⟩ = 0 ∧
      ¬ Keeps stampSample (11 * day) ⟨5 * day, [], 40 * day, day⟩ "did:plc:alice" false
        "1970-01-14T00:00:00.000Z" := by
  refine ⟨by decide +kernel, by decide +kernel, fun h => ?_⟩
  obtain ⟨r, hr⟩ := h.faultless
  have hfault : calculateCodesToCreate stampSample true (11 * day) ⟨5 * day, [], 40 * day, day⟩ =
      .error .overflow := by decide +kernel
  rw [hfault] at hr
  cases hr

/-! ### The handler -/

/-- What the handler calculates with. -/
def calculateOpts (found : Found) (userCreatedAt : UInt64) (userCodes : List CodeDetail) :
    CalculateCodesToCreateOpts :=
  ⟨userCreatedAt, userCodes, found.inviteEpoch.getD 0, found.inviteInterval.getD 0⟩

/-- A call that is answered leaves the account's rows, or adds as many as were calculated. -/
theorem rows_of_innerGetAccountInviteCodes {found : Found} {includeUsed createAvailable : Bool}
    {requester : String} {userCodes out rows : List CodeDetail} {accountCreatedAt : String}
    {invitesDisabled : Option Int} (hfound : found.account = some (accountCreatedAt, invitesDisabled))
    (h : innerGetAccountInviteCodes stamp checked found includeUsed createAvailable requester
      userCodes = .ok (out, rows)) :
    rows = userCodes ∨ ∃ userCreatedAt toCreate total,
      stamp accountCreatedAt = some userCreatedAt ∧
      calculateCodesToCreate stamp checked found.now
        (calculateOpts found userCreatedAt userCodes) = .ok (toCreate, total) ∧
      rows = userCodes ++ (found.genInviteCodes toCreate).map
        (newCode requester (invitesDisabled.getD 0 = 1) found.createdAt) := by
  unfold innerGetAccountInviteCodes at h
  rw [hfound] at h
  by_cases henv : envCreates found createAvailable = true
  · cases hstamp : stamp accountCreatedAt with
    | none => simp [henv, hstamp, bind, Except.bind] at h
    | some userCreatedAt =>
      cases hcalc : calculateCodesToCreate stamp checked found.now
          (calculateOpts found userCreatedAt userCodes) with
      | error fault =>
        unfold calculateOpts at hcalc
        simp [henv, hstamp, hcalc, bind, Except.bind] at h
      | ok r =>
        obtain ⟨toCreate, total⟩ := r
        have hcalc' := hcalc
        unfold calculateOpts at hcalc'
        by_cases hpos : 0 < toCreate
        · cases hcreate : createAccountInviteCodes requester (found.genInviteCodes toCreate) total
              (invitesDisabled.getD 0 = 1) found.createdAt userCodes with
          | none => simp [henv, hstamp, hcalc', hpos, hcreate, bind, Except.bind] at h
          | some after =>
            refine .inr ⟨userCreatedAt, toCreate, total, rfl, hcalc, ?_⟩
            simp only [henv, if_true, hstamp, hcalc', hpos, hcreate, bind, Except.bind, pure,
              Except.pure, Except.ok.injEq, Prod.mk.injEq] at h
            exact h.2.symm.trans (after_of_createAccountInviteCodes hcreate)
        · refine .inl ?_
          simp only [henv, if_true, hstamp, hcalc', hpos, if_false, bind, Except.bind, pure,
            Except.pure, Except.ok.injEq, Prod.mk.injEq] at h
          exact h.2.symm
  · refine .inl ?_
    simp only [henv, if_false, bind, Except.bind, pure, Except.pure, Except.ok.injEq,
      Prod.mk.injEq, Bool.false_eq_true] at h
    exact h.2.symm

/-- Where the calculation holds, the handler leaves no more codes of the epoch than intervals. -/
theorem elapsed_of_innerGetAccountInviteCodes {found : Found} {includeUsed createAvailable : Bool}
    {requester : String} {userCodes out rows : List CodeDetail} {accountCreatedAt : String}
    {invitesDisabled : Option Int} {userCreatedAt : UInt64}
    (hfound : found.account = some (accountCreatedAt, invitesDisabled))
    (hstamp : stamp accountCreatedAt = some userCreatedAt)
    (hgen : ∀ n, (found.genInviteCodes n).length = n)
    (hholds : Holds stamp found.now (calculateOpts found userCreatedAt userCodes) requester
      (invitesDisabled.getD 0 = 1) found.createdAt)
    (h : innerGetAccountInviteCodes stamp false found includeUsed createAvailable requester
      userCodes = .ok (out, rows)) :
    epochCount stamp (found.inviteEpoch.getD 0) rows ≤
      wholeIntervals found.now (calculateOpts found userCreatedAt userCodes) := by
  obtain rfl | ⟨_, toCreate, total, hsame, hcalc, rfl⟩ :=
    rows_of_innerGetAccountInviteCodes hfound h
  · exact hholds.before
  · obtain rfl := Option.some.inj (hstamp.symm.trans hsame)
    exact elapsed_of_holds hholds hcalc (hgen toCreate)

end CacosPds.Server.InviteCodes
