import CacosPds.Lib.KeyedFold
import CacosPds.Lib.Table
import CacosPds.Server.InviteCodes
/-!
# Who was invited by which code (`helpers/invite.rs:263-343`)

| here | there |
| --- | --- |
| `InviteTables` | `invite_code` and `invite_code_use`, the rows in any order SQLite comes upon them |
| `getInviteCodesUsesV2` | `get_invite_codes_uses_v2` (`:263`) |
| `getInvitedByForAccounts` | `get_invited_by_for_accounts` (`:298`) |
| `InvitedBy`    | the map the accounts asked for |

The second query fetches every use of the codes found, as the details show it; the fold then enters
every one of those users, whether the account was asked for or not. Failures of the database are left
out.
-/
namespace CacosPds.Account

open Sql Server.InviteCodes

/-- A row of `invite_code`. -/
structure InviteCodeRow where
  code : String
  availableUses : Int32
  disabled : Int16
  forAccount : String
  createdBy : String
  createdAt : String
  deriving DecidableEq

structure InviteCodeUse where
  code : String
  usedBy : String
  usedAt : String
  deriving DecidableEq

/-- The two tables under their primary keys. -/
structure InviteTables where
  inviteCode : List InviteCodeRow
  inviteCodeUse : List InviteCodeUse
  inviteCode_key : (inviteCode.map (·.code)).Nodup
  inviteCodeUse_key : (inviteCodeUse.map fun u => (u.code, u.usedBy)).Nodup

def InviteCodeUse.use (u : InviteCodeUse) : CodeUse := ⟨u.usedBy, u.usedAt⟩

/-- `match uses.get_mut(&code)`. -/
def pushUse (uses : Table String (List CodeUse)) (u : InviteCodeUse) : Table String (List CodeUse) :=
  match uses.lookup u.code with
  | none => uses.insert u.code [u.use]
  | some matchedUses => uses.insert u.code (matchedUses ++ [u.use])

/-- `WHERE code IN (codes) ORDER BY "usedAt" DESC`, grouped by code. -/
def getInviteCodesUsesV2 (db : InviteTables) (codes : List String) : Table String (List CodeUse) :=
  ((db.inviteCodeUse.filter fun u => u.code ∈ codes).mergeSort fun u v => v.usedAt ≤ u.usedAt).foldl
    pushUse ∅

def InviteCodeRow.detail (row : InviteCodeRow) (uses : List CodeUse) : CodeDetail where
  code := row.code
  available := row.availableUses
  disabled := row.disabled = 1
  forAccount := row.forAccount
  createdBy := row.createdBy
  createdAt := row.createdAt
  uses := uses

/-- `mem::take(uses.get_mut(&row.code).unwrap_or(&mut Vec::new()))` for one row after another. -/
def codeDetails : List InviteCodeRow → Table String (List CodeUse) → List CodeDetail
  | [], _ => []
  | row :: rows, uses =>
    match uses.lookup row.code with
    | none => row.detail [] :: codeDetails rows uses
    | some taken => row.detail taken :: codeDetails rows (uses.insert row.code [])

/-- Every user of the code is entered. -/
def enterUses (acc : Table String CodeDetail) (cur : CodeDetail) : Table String CodeDetail :=
  cur.uses.foldl (fun acc codeUse => acc.insert codeUse.usedBy cur) acc

/-- `WHERE code IN (SELECT DISTINCT code FROM invite_code_use WHERE "usedBy" IN (dids))`. -/
def codesUsedBy (db : InviteTables) (dids : List String) : List InviteCodeRow :=
  db.inviteCode.filter fun row => db.inviteCodeUse.any fun u => u.code = row.code ∧ u.usedBy ∈ dids

def getInvitedByForAccounts (db : InviteTables) (dids : List String) : Table String CodeDetail :=
  if dids = [] then ∅
  else
    let res := codesUsedBy db dids
    (codeDetails res (getInviteCodesUsesV2 db (res.map (·.code)))).foldl enterUses ∅

/-! ## What is asked for -/

def Used (db : InviteTables) (code did : String) : Prop :=
  ∃ u ∈ db.inviteCodeUse, u.code = code ∧ u.usedBy = did

/-- A map of exactly the accounts that used a code, each to one it used, with all uses of that code. -/
structure InvitedBy (db : InviteTables) (dids : List String) (invitedBy : Table String CodeDetail) :
    Prop where
  keys : ∀ did, did ∈ invitedBy ↔ did ∈ dids ∧ ∃ code, Used db code did
  details : ∀ did d, invitedBy.lookup did = some d → ∃ row ∈ db.inviteCode, ∃ uses,
    d = row.detail uses ∧ Used db row.code did ∧
      uses.Perm ((db.inviteCodeUse.filter (·.code = row.code)).map InviteCodeUse.use)

/-- Whoever shares a code with a requested account is requested. -/
def SharedRequested (db : InviteTables) (dids : List String) : Prop :=
  ∀ code did did', Used db code did → Used db code did' → did ∈ dids → did' ∈ dids

variable {db : InviteTables} {dids : List String}

/-! ### The uses of a code -/

/-- The value of a code in the map of uses, with no entry read as none. -/
def usesAt (uses : Table String (List CodeUse)) (code : String) : List CodeUse :=
  (uses.lookup code).getD []

theorem usesAt_insert (uses : Table String (List CodeUse)) (k code : String) (xs : List CodeUse) :
    usesAt (uses.insert k xs) code = if code = k then xs else usesAt uses code := by
  unfold usesAt
  rw [Table.lookup_insert_eq]
  split <;> rfl

theorem pushUse_local :
    KeyedFold.Local usesAt pushUse InviteCodeUse.code fun u xs => xs ++ [u.use] := by
  intro uses u code
  unfold pushUse
  cases h : uses.lookup u.code with
  | none =>
    rw [usesAt_insert]
    split
    · rename_i hcode
      rw [hcode, usesAt, h]
      rfl
    · rfl
  | some matchedUses =>
    rw [usesAt_insert]
    split
    · rename_i hcode
      rw [hcode, usesAt, h]
      rfl
    · rfl

theorem foldl_append_use (us : List InviteCodeUse) (xs : List CodeUse) :
    us.foldl (fun v u => v ++ [u.use]) xs = xs ++ us.map InviteCodeUse.use := by
  induction us generalizing xs with
  | nil => simp
  | cons u us ih => rw [List.foldl_cons, ih, List.map_cons, List.append_assoc, List.singleton_append]

/-- A code that was asked for comes with all its uses. -/
theorem usesAt_getInviteCodesUsesV2 {codes : List String} {code : String} (h : code ∈ codes) :
    (usesAt (getInviteCodesUsesV2 db codes) code).Perm
      ((db.inviteCodeUse.filter (·.code = code)).map InviteCodeUse.use) := by
  rw [getInviteCodesUsesV2, KeyedFold.get_foldl pushUse_local, foldl_append_use]
  have hempty : usesAt ∅ code = [] := rfl
  rw [hempty, List.nil_append]
  refine List.Perm.map _ ?_
  have hsort := (List.mergeSort_perm (db.inviteCodeUse.filter fun u => u.code ∈ codes)
    fun u v => v.usedAt ≤ u.usedAt).filter fun u => u.code = code
  refine hsort.trans (List.Perm.of_eq ?_)
  rw [List.filter_filter]
  refine List.filter_congr fun u _ => ?_
  by_cases hu : u.code = code
  · simp [hu, h]
  · simp [hu]

/-- Each row takes the uses of its own code. -/
theorem codeDetails_eq {rows : List InviteCodeRow} (h : (rows.map (·.code)).Nodup)
    (uses : Table String (List CodeUse)) :
    codeDetails rows uses = rows.map fun row => row.detail (usesAt uses row.code) := by
  induction rows generalizing uses with
  | nil => rfl
  | cons row rows ih =>
    obtain ⟨hrow, hrows⟩ := List.nodup_cons.1 h
    rw [codeDetails, List.map_cons]
    cases hlookup : uses.lookup row.code with
    | none =>
      simp only [ih hrows]
      rw [usesAt, hlookup]
      rfl
    | some taken =>
      simp only [ih hrows]
      have hother : ∀ r ∈ rows, r.detail (usesAt (uses.insert row.code []) r.code) =
          r.detail (usesAt uses r.code) := by
        intro r hr
        have hne : r.code ≠ row.code := fun heq => hrow (List.mem_map.2 ⟨r, hr, heq⟩)
        rw [usesAt_insert, if_neg hne]
      rw [List.map_congr_left hother, usesAt, hlookup]
      rfl

/-! ### The fold over the details -/

/-- The entries of the fold, in order. -/
def enteredUses (details : List CodeDetail) : List (CodeDetail × CodeUse) :=
  details.flatMap fun d => d.uses.map fun u => (d, u)

theorem foldl_enterUses (details : List CodeDetail) (acc : Table String CodeDetail) :
    details.foldl enterUses acc =
      (enteredUses details).foldl (fun acc e => acc.insert e.2.usedBy e.1) acc := by
  induction details generalizing acc with
  | nil => rfl
  | cons d details ih =>
    have hcons : enteredUses (d :: details) = (d.uses.map fun u => (d, u)) ++ enteredUses details :=
      List.flatMap_cons
    rw [List.foldl_cons, ih, hcons, List.foldl_append, enterUses, List.foldl_map]

theorem insert_local : KeyedFold.Local (fun (acc : Table String CodeDetail) did => acc.lookup did)
    (fun acc e => acc.insert e.2.usedBy e.1) (fun e : CodeDetail × CodeUse => e.2.usedBy)
    fun e _ => some e.1 := by
  intro acc e did
  exact Table.lookup_insert_eq acc e.2.usedBy did e.1

/-- An account is mapped to the last code, in the order of the first query, that it used. -/
theorem lookup_entered (details : List CodeDetail) (did : String) :
    (details.foldl enterUses ∅).lookup did =
      ((enteredUses details).filter fun e => e.2.usedBy = did).getLast?.map (·.1) := by
  rw [foldl_enterUses, KeyedFold.get_foldl_last insert_local]
  unfold KeyedFold.at_
  cases ((enteredUses details).filter fun e => e.2.usedBy = did).getLast? with
  | none => rfl
  | some e => rfl

theorem mem_enteredUses {details : List CodeDetail} {d : CodeDetail} {u : CodeUse} :
    (d, u) ∈ enteredUses details ↔ d ∈ details ∧ u ∈ d.uses := by
  unfold enteredUses
  simp only [List.mem_flatMap, List.mem_map, Prod.mk.injEq]
  constructor
  · rintro ⟨_, hd, _, hu, rfl, rfl⟩
    exact ⟨hd, hu⟩
  · exact fun ⟨hd, hu⟩ => ⟨d, hd, u, hu, rfl, rfl⟩

theorem detail_of_lookup {details : List CodeDetail} {did : String} {d : CodeDetail}
    (h : (details.foldl enterUses ∅).lookup did = some d) :
    d ∈ details ∧ ∃ u ∈ d.uses, u.usedBy = did := by
  rw [lookup_entered, Option.map_eq_some_iff] at h
  obtain ⟨⟨d, u⟩, hlast, rfl⟩ := h
  obtain ⟨hmem, hdid⟩ := List.mem_filter.1 (List.mem_of_getLast? hlast)
  obtain ⟨hd, hu⟩ := mem_enteredUses.1 hmem
  exact ⟨hd, u, hu, of_decide_eq_true hdid⟩

theorem mem_foldl_enterUses {details : List CodeDetail} {did : String} :
    did ∈ details.foldl enterUses ∅ ↔ ∃ d ∈ details, ∃ u ∈ d.uses, u.usedBy = did := by
  constructor
  · intro h
    obtain ⟨d, hd⟩ := Option.isSome_iff_exists.1 (Finmap.lookup_isSome.2 h)
    obtain ⟨hmem, huse⟩ := detail_of_lookup hd
    exact ⟨d, hmem, huse⟩
  · rintro ⟨d, hd, u, hu, hdid⟩
    have hmem : (d, u) ∈ (enteredUses details).filter fun e => e.2.usedBy = did :=
      List.mem_filter.2 ⟨mem_enteredUses.2 ⟨hd, hu⟩, decide_eq_true hdid⟩
    rw [← Finmap.lookup_isSome, lookup_entered, Option.isSome_map,
      List.getLast?_eq_some_getLast (List.ne_nil_of_mem hmem)]
    rfl

/-! ### The map -/

theorem mem_codesUsedBy {row : InviteCodeRow} : row ∈ codesUsedBy db dids ↔
    row ∈ db.inviteCode ∧ ∃ did ∈ dids, Used db row.code did := by
  unfold codesUsedBy Used
  simp only [List.mem_filter, List.any_eq_true, decide_eq_true_eq]
  refine and_congr_right fun _ => ?_
  constructor
  · rintro ⟨u, hu, hcode, hdid⟩
    exact ⟨u.usedBy, hdid, u, hu, hcode, rfl⟩
  · rintro ⟨did, hdid, u, hu, hcode, rfl⟩
    exact ⟨u, hu, hcode, hdid⟩

/-- The details that are folded. -/
def foundDetails (db : InviteTables) (dids : List String) : List CodeDetail :=
  codeDetails (codesUsedBy db dids)
    (getInviteCodesUsesV2 db ((codesUsedBy db dids).map (·.code)))

/-- A detail is a row of a code that a requested account used, with all uses of that code. -/
theorem of_mem_foundDetails {d : CodeDetail} (h : d ∈ foundDetails db dids) :
    ∃ row ∈ codesUsedBy db dids, ∃ uses, d = row.detail uses ∧
      uses.Perm ((db.inviteCodeUse.filter (·.code = row.code)).map InviteCodeUse.use) := by
  have hkey : ((codesUsedBy db dids).map (·.code)).Nodup :=
    db.inviteCode_key.sublist (List.filter_sublist.map _)
  rw [foundDetails, codeDetails_eq hkey] at h
  obtain ⟨row, hrow, rfl⟩ := List.mem_map.1 h
  exact ⟨row, hrow, _, rfl, usesAt_getInviteCodesUsesV2 (List.mem_map.2 ⟨row, hrow, rfl⟩)⟩

theorem exists_foundDetail {row : InviteCodeRow} (hrow : row ∈ codesUsedBy db dids) :
    ∃ d ∈ foundDetails db dids, ∃ uses, d = row.detail uses ∧
      uses.Perm ((db.inviteCodeUse.filter (·.code = row.code)).map InviteCodeUse.use) := by
  have hkey : ((codesUsedBy db dids).map (·.code)).Nodup :=
    db.inviteCode_key.sublist (List.filter_sublist.map _)
  refine ⟨_, ?_, _, rfl, usesAt_getInviteCodesUsesV2 (List.mem_map.2 ⟨row, hrow, rfl⟩)⟩
  rw [foundDetails, codeDetails_eq hkey]
  exact List.mem_map.2 ⟨row, hrow, rfl⟩

/-- The users in a complete list of uses. -/
theorem mem_uses_iff {row : InviteCodeRow} {uses : List CodeUse} {did : String}
    (h : uses.Perm ((db.inviteCodeUse.filter (·.code = row.code)).map InviteCodeUse.use)) :
    (∃ u ∈ uses, u.usedBy = did) ↔ Used db row.code did := by
  constructor
  · rintro ⟨u, hu, rfl⟩
    obtain ⟨v, hv, rfl⟩ := List.mem_map.1 (h.mem_iff.1 hu)
    obtain ⟨hmem, hcode⟩ := List.mem_filter.1 hv
    exact ⟨v, hmem, of_decide_eq_true hcode, rfl⟩
  · rintro ⟨v, hv, hcode, rfl⟩
    exact ⟨v.use, h.mem_iff.2 (List.mem_map.2
      ⟨v, List.mem_filter.2 ⟨hv, decide_eq_true hcode⟩, rfl⟩), rfl⟩

theorem getInvitedByForAccounts_eq (h : dids ≠ []) :
    getInvitedByForAccounts db dids = (foundDetails db dids).foldl enterUses ∅ := by
  rw [getInvitedByForAccounts, if_neg h]
  rfl

/-- The keys: whoever shares a code with a requested account. -/
theorem mem_getInvitedByForAccounts
    (hrows : ∀ u ∈ db.inviteCodeUse, ∃ row ∈ db.inviteCode, row.code = u.code) {did : String} :
    did ∈ getInvitedByForAccounts db dids ↔
      ∃ code, Used db code did ∧ ∃ did' ∈ dids, Used db code did' := by
  by_cases hnil : dids = []
  · rw [getInvitedByForAccounts, if_pos hnil]
    refine iff_of_false Finmap.notMem_empty ?_
    rintro ⟨_, -, did', hdid', -⟩
    rw [hnil] at hdid'
    cases hdid'
  rw [getInvitedByForAccounts_eq hnil, mem_foldl_enterUses]
  constructor
  · rintro ⟨d, hd, huse⟩
    obtain ⟨row, hrow, uses, rfl, hperm⟩ := of_mem_foundDetails hd
    exact ⟨row.code, (mem_uses_iff hperm).1 huse, (mem_codesUsedBy.1 hrow).2⟩
  · rintro ⟨code, hused, hrequested⟩
    obtain ⟨u, hu, rfl, rfl⟩ := hused
    obtain ⟨row, hrow, hcode⟩ := hrows u hu
    rw [← hcode] at hrequested
    obtain ⟨d, hd, uses, rfl, hperm⟩ := exists_foundDetail (mem_codesUsedBy.2 ⟨hrow, hrequested⟩)
    exact ⟨_, hd, (mem_uses_iff hperm).2 ⟨u, hu, hcode.symm, rfl⟩⟩

/-- What an account is mapped to is right in any case. -/
theorem details_getInvitedByForAccounts {did : String} {d : CodeDetail}
    (h : (getInvitedByForAccounts db dids).lookup did = some d) : ∃ row ∈ db.inviteCode, ∃ uses,
      d = row.detail uses ∧ Used db row.code did ∧
        uses.Perm ((db.inviteCodeUse.filter (·.code = row.code)).map InviteCodeUse.use) := by
  by_cases hnil : dids = []
  · rw [getInvitedByForAccounts, if_pos hnil, Finmap.lookup_empty] at h
    cases h
  rw [getInvitedByForAccounts_eq hnil] at h
  obtain ⟨hd, huse⟩ := detail_of_lookup h
  obtain ⟨row, hrow, uses, rfl, hperm⟩ := of_mem_foundDetails hd
  exact ⟨row, (mem_codesUsedBy.1 hrow).1, uses, rfl, (mem_uses_iff hperm).1 huse, hperm⟩

/-- **The map is the one asked for exactly where shared codes are shared by requested accounts.** -/
theorem invitedBy_iff (db : InviteTables) (dids : List String)
    (hrows : ∀ u ∈ db.inviteCodeUse, ∃ row ∈ db.inviteCode, row.code = u.code) :
    InvitedBy db dids (getInvitedByForAccounts db dids) ↔ SharedRequested db dids := by
  constructor
  · intro h code did did' hused hused' hdid
    have hmem := (mem_getInvitedByForAccounts hrows).2 ⟨code, hused', did, hdid, hused⟩
    exact ((h.keys did').1 hmem).1
  · intro h
    refine ⟨fun did => ?_, fun did d => details_getInvitedByForAccounts⟩
    rw [mem_getInvitedByForAccounts hrows]
    constructor
    · rintro ⟨code, hused, did', hdid', hused'⟩
      exact ⟨h code did' did hused' hused hdid', code, hused⟩
    · rintro ⟨hdid, code, hused⟩
      exact ⟨code, hused, did, hdid, hused⟩

/-- A code for two, used by Alice and by Bob. -/
def codeForTwo : InviteTables where
  inviteCode := [⟨"code", 2, 0, "did:plc:host", "did:plc:host", "2026-01-01T00:00:00.000Z"⟩]
  inviteCodeUse :=
    [⟨"code", "did:plc:alice", "2026-01-02T00:00:00.000Z"⟩,
      ⟨"code", "did:plc:bob", "2026-01-03T00:00:00.000Z"⟩]
  inviteCode_key := by decide
  inviteCodeUse_key := by decide

theorem codeForTwo_rows :
    ∀ u ∈ codeForTwo.inviteCodeUse, ∃ row ∈ codeForTwo.inviteCode, row.code = u.code := by
  decide

/-- Asked for Alice, the map has Bob. -/
theorem bob_not_asked_for : "did:plc:bob" ∈ getInvitedByForAccounts codeForTwo ["did:plc:alice"] ∧
    ¬ ∀ (db : InviteTables) (dids : List String),
      (∀ u ∈ db.inviteCodeUse, ∃ row ∈ db.inviteCode, row.code = u.code) →
        InvitedBy db dids (getInvitedByForAccounts db dids) := by
  have hbob : "did:plc:bob" ∈ getInvitedByForAccounts codeForTwo ["did:plc:alice"] :=
    (mem_getInvitedByForAccounts codeForTwo_rows).2
      ⟨"code", ⟨_, List.mem_cons_of_mem _ List.mem_cons_self, rfl, rfl⟩, "did:plc:alice",
        List.mem_cons_self, ⟨_, List.mem_cons_self, rfl, rfl⟩⟩
  refine ⟨hbob, fun h => ?_⟩
  have hasked := (((h codeForTwo ["did:plc:alice"] codeForTwo_rows).keys "did:plc:bob").1 hbob).1
  exact absurd hasked (by decide)

/-- Asked for both, it has both. -/
theorem both_asked_for : InvitedBy codeForTwo ["did:plc:alice", "did:plc:bob"]
    (getInvitedByForAccounts codeForTwo ["did:plc:alice", "did:plc:bob"]) := by
  refine (invitedBy_iff codeForTwo ["did:plc:alice", "did:plc:bob"] codeForTwo_rows).2 ?_
  rintro code did did' - ⟨u, hu, -, rfl⟩ -
  revert u
  decide

end CacosPds.Account
