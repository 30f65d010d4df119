import CacosPds.Lib.OneTime
import CacosPds.Lib.Stages
import CacosPds.Lib.UniqueIndex
/-!
# The nonces of headless consent (`cacos-pds-core/src/db/consent_state.rs`)

| here | there |
| --- | --- |
| `Row`, `Rows` | `consent_state`: the request's id is the primary key, `state` has a unique index |
| `Clock`       | **external boundary**: `from_str_to_micros`, `from_micros_to_str` of `rsky_common` |
| `create`, `rotate`, `delete` | the three calls; `state`, `fresh` are `new_nonce()`, `now` is `rfc3339_now()` |
| `Holds`       | what the rows stand for: the current nonce of each request, with the time it was issued at |

`rotate` is one statement: it matches the request's id, the nonce and the deadline, as texts.
-/
namespace CacosPds.Oauth.ConsentState

open Stages Sql

structure Row where
  state : String
  expiresAt : String
  deriving DecidableEq

abbrev Rows := Table String Row

structure Clock where
  fromStrToMicros : String → Except String Int
  fromMicrosToStr : Int → String

def nonceTtlMicros : Int := 300 * 1000000

def expiresAt (C : Clock) (now : String) : String :=
  match C.fromStrToMicros now with
  | .ok micros => C.fromMicrosToStr (micros + nonceTtlMicros)
  | .error _ => now

inductive Error where
  | database (err : String)
  /-- A row that would violate the named index. -/
  | unique (index : String)
  | invalidState
  deriving DecidableEq

def Error.display : Error → String
  | .database err => err
  | .unique index => "UNIQUE constraint failed: " ++ index
  | .invalidState => "invalid or expired state"

def execute (fault : Option String) (refuse : Rows → Option Error) (f : Rows → Rows) :
    Call Rows Error Unit :=
  statement (fun s => (fault.map .database).or (refuse s)) f

theorem does_execute (fault : Option String) (refuse : Rows → Option Error) (f : Rows → Rows) :
    Does (execute fault refuse f) (fun s => fault = none ∧ refuse s = none) f :=
  (does_statement _ f).congr (fun s => by cases fault <;> simp) fun _ _ => rfl

/-! ## The calls -/

def refuseRow (requestId state : String) (rows : Rows) : Option Error :=
  if requestId ∈ rows then some (.unique "consent_state.requestId")
  else if rows.taken (fun r => some r.state) requestId (some state) then
    some (.unique "consent_state_state_idx")
  else none

def create (C : Clock) (fault : Option String) (now state requestId : String) :
    Call Rows Error String := do
  execute fault (refuseRow requestId state) fun rows =>
    rows.insert requestId ⟨state, expiresAt C now⟩
  return state

/-- The filters of the update. -/
def fits (requestId supplied now : String) (key : String) (row : Row) : Bool :=
  key = requestId ∧ row.state = supplied ∧ now < row.expiresAt

/-- `fault` is the statement's. -/
def rotate (C : Clock) (fault : Option String) (now fresh requestId supplied : String) :
    Call Rows Error String := do
  let rows ← get
  execute fault
    (fun rows =>
      if rows.anyRow (fits requestId supplied now) &&
          rows.taken (fun r => some r.state) requestId (some fresh) then
        some (.unique "consent_state_state_idx")
      else none)
    fun rows => rows.updateWhere (fits requestId supplied now) fun _ => ⟨fresh, expiresAt C now⟩
  -- `rows_affected`
  if rows.anyRow (fits requestId supplied now) then return fresh else throw .invalidState

def delete (fault : Option String) (requestId : String) : Call Rows Error Unit :=
  execute fault (fun _ => none) fun rows => rows.deleteWhere fun key _ => key = requestId

/-! ## What they need -/

section

variable {C : Clock} {fault : Option String} {now state fresh requestId supplied n : String}
  {rows rows' : Rows}

theorem create_ok (h : (create C fault now state requestId).exec rows = (.ok n, rows')) :
    n = state ∧ requestId ∉ rows ∧ rows' = rows.insert requestId ⟨state, expiresAt C now⟩ := by
  obtain ⟨_, t, hinsert, h⟩ := exec_bind_ok.1 h
  obtain ⟨⟨-, hrefuse⟩, rfl⟩ := (does_execute _ _ _ _ _).1 hinsert
  cases h
  refine ⟨rfl, fun hmem => ?_, rfl⟩
  rw [refuseRow, if_pos hmem] at hrefuse
  cases hrefuse

/-- An insert that fails changes nothing. -/
theorem clean_create (C : Clock) (fault : Option String) (now state requestId : String) :
    Clean (create C fault now state requestId) :=
  (clean_statement _ _).bind_pure _

theorem taken_of_new (hnew : ∀ key row, rows.lookup key = some row → row.state ≠ state) :
    rows.taken (fun r => some r.state) requestId (some state) = false := by
  rw [Table.taken_eq_false]
  rintro key row _ hrow ⟨⟩ hstate
  exact absurd (Option.some.inj hstate) (hnew key row hrow)

/-- A request without a row gets one, with a state that no row has. -/
theorem create_of_free (hfree : requestId ∉ rows)
    (hnew : ∀ key row, rows.lookup key = some row → row.state ≠ state) :
    (create C none now state requestId).exec rows =
      (.ok state, rows.insert requestId ⟨state, expiresAt C now⟩) := by
  refine exec_bind_ok.2 ⟨(), _, (does_execute _ _ _ _ _).2 ⟨⟨rfl, ?_⟩, rfl⟩, rfl⟩
  rw [refuseRow, if_neg hfree, taken_of_new hnew]
  rfl

theorem rotate_ok (h : (rotate C fault now fresh requestId supplied).exec rows = (.ok n, rows')) :
    n = fresh ∧ (∃ row, rows.lookup requestId = some row ∧ row.state = supplied ∧
      now < row.expiresAt) ∧
      ∀ key, rows'.lookup key = if key = requestId then some ⟨fresh, expiresAt C now⟩
        else rows.lookup key := by
  obtain ⟨_, t, hget, h⟩ := exec_bind_ok.1 h
  cases hget
  obtain ⟨_, t, hupdate, h⟩ := exec_bind_ok.1 h
  obtain ⟨-, rfl⟩ := (does_execute _ _ _ _ _).1 hupdate
  split at h
  · rename_i hany
    cases h
    obtain ⟨key, row, hrow, hfits⟩ := Table.anyRow_iff.1 hany
    obtain ⟨rfl, hstate, hlive⟩ := of_decide_eq_true hfits
    refine ⟨rfl, ⟨row, hrow, hstate, hlive⟩, fun j => ?_⟩
    rw [Table.lookup_updateWhere]
    by_cases hj : j = key
    · subst hj
      simp only [hrow, Option.map_some, if_pos hfits, if_pos]
    · simp [hj, fits]
  · cases h

/-- A state that is still valid is rotated to one that no row has. -/
theorem rotate_of_live {row : Row} (hrow : rows.lookup requestId = some row)
    (hlive : now < row.expiresAt)
    (hnew : ∀ key row, rows.lookup key = some row → row.state ≠ fresh) :
    ∃ rows', (rotate C none now fresh requestId row.state).exec rows = (.ok fresh, rows') := by
  have hany : rows.anyRow (fits requestId row.state now) = true :=
    Table.anyRow_iff.2 ⟨requestId, row, hrow, decide_eq_true ⟨rfl, rfl, hlive⟩⟩
  refine ⟨rows.updateWhere (fits requestId row.state now) fun _ => ⟨fresh, expiresAt C now⟩, ?_⟩
  refine exec_bind_ok.2 ⟨rows, rows, rfl, exec_bind_ok.2 ⟨(), _,
    (does_execute _ _ _ _ _).2 ⟨⟨rfl, ?_⟩, rfl⟩, ?_⟩⟩
  · rw [hany, taken_of_new hnew]
    rfl
  · rw [if_pos hany]
    rfl

/-- A rotation that fails changes nothing. -/
theorem rotate_error {e : Error}
    (h : (rotate C fault now fresh requestId supplied).exec rows = (.error e, rows')) :
    rows' = rows := by
  rcases exec_bind_error.1 h with hget | ⟨_, t, hget, h⟩
  · cases hget
  cases hget
  rcases exec_bind_error.1 h with hupdate | ⟨_, t, hupdate, h⟩
  · exact clean_statement _ _ _ _ _ hupdate
  obtain ⟨-, rfl⟩ := (does_execute _ _ _ _ _).1 hupdate
  split at h
  · cases h
  · rename_i hnone
    cases h
    refine Finmap.ext_lookup fun key => ?_
    rw [Table.lookup_updateWhere]
    cases hrow : rows.lookup key with
    | none => rfl
    | some row =>
      have hfits := Table.anyRow_eq_false.1 (Bool.eq_false_of_not_eq_true hnone) key row hrow
      simp [hfits]

theorem delete_ok (h : (delete fault requestId).exec rows = (.ok (), rows')) (key : String) :
    rows'.lookup key = if key = requestId then none else rows.lookup key := by
  obtain ⟨-, rfl⟩ := (does_execute _ _ _ _ _).1 h
  by_cases hkey : key = requestId
  · rw [if_pos hkey, Table.lookup_deleteWhere_eq_none]
    exact fun _ _ => decide_eq_true hkey
  · rw [if_neg hkey]
    refine Option.ext fun row => ?_
    rw [Table.lookup_deleteWhere_eq_some]
    exact ⟨And.left, fun h => ⟨h, decide_eq_false hkey⟩⟩

end

/-! ## What the rows stand for -/

open OneTime

/-- A request's id, a nonce of it, and the time. -/
abbrev Event := OneTime.Event String String String

/-- A nonce is still accepted. -/
def Live (C : Clock) (issued now : String) : Prop := now < expiresAt C issued

def Holds (C : Clock) (rows : Rows) (current : String → Option (String × String)) : Prop :=
  ∀ key, rows.lookup key = (current key).map fun issue => ⟨issue.1, expiresAt C issue.2⟩

/-- The rows are what is left of a legal history of nonces. -/
def Recorded (C : Clock) (log : List Event) (rows : Rows) : Prop :=
  ∃ current, Legal (Live C) log current ∧ Holds C rows current

section

variable {C : Clock} {fault : Option String} {now state fresh requestId supplied n : String}
  {rows rows' : Rows} {log : List Event}

theorem recorded_nil (C : Clock) : Recorded C [] ∅ := ⟨_, .nil, fun _ => rfl⟩

/-- An event that changes the row of its key records one nonce more. -/
theorem Recorded.concat (h : Recorded C log rows) {e : Event}
    (hallows : ∀ current, Holds C rows current → Allows (Live C) current e)
    (hrows : ∀ key, rows'.lookup key = if key = e.key then
      e.issue.map (fun issue => ⟨issue.1, expiresAt C issue.2⟩) else rows.lookup key) :
    Recorded C (log ++ [e]) rows' := by
  obtain ⟨current, hlegal, hholds⟩ := h
  refine ⟨_, hlegal.concat (hallows current hholds), fun key => ?_⟩
  rw [hrows, Event.after]
  by_cases hkey : key = e.key
  · subst hkey
    rw [if_pos rfl, Function.update_self]
  · rw [if_neg hkey, Function.update_of_ne hkey, hholds key]

theorem Recorded.create (h : Recorded C log rows)
    (hcreate : (create C fault now state requestId).exec rows = (.ok n, rows')) :
    Recorded C (log ++ [.create requestId state now]) rows' := by
  obtain ⟨-, hnew, rfl⟩ := create_ok hcreate
  refine h.concat (fun current hholds => ?_) fun key => Table.lookup_insert_eq _ _ _ _
  have hnone := hholds requestId
  rw [Finmap.lookup_eq_none.2 hnew] at hnone
  exact Option.map_eq_none_iff.1 hnone.symm

theorem Recorded.rotate (h : Recorded C log rows)
    (hrotate : (rotate C fault now fresh requestId supplied).exec rows = (.ok n, rows')) :
    Recorded C (log ++ [.spend requestId supplied fresh now]) rows' := by
  obtain ⟨-, ⟨row, hrow, rfl, hlive⟩, hrows⟩ := rotate_ok hrotate
  refine h.concat (fun current hholds => ?_) hrows
  have hsome := hholds requestId
  rw [hrow, eq_comm, Option.map_eq_some_iff] at hsome
  obtain ⟨⟨n, t₀⟩, hcurrent, rfl⟩ := hsome
  exact ⟨t₀, hcurrent, hlive⟩

theorem Recorded.delete (h : Recorded C log rows)
    (hdelete : (delete fault requestId).exec rows = (.ok (), rows')) :
    Recorded C (log ++ [.drop requestId]) rows' :=
  h.concat (fun _ _ => trivial) (delete_ok hdelete)

/-- The nonce in a row has been issued. -/
theorem Recorded.issued_of_lookup (h : Recorded C log rows) {row : Row}
    (hrow : rows.lookup requestId = some row) : row.state ∈ issued log := by
  obtain ⟨current, hlegal, hholds⟩ := h
  have hsome := hholds requestId
  rw [hrow, eq_comm, Option.map_eq_some_iff] at hsome
  obtain ⟨⟨n, t₀⟩, hcurrent, rfl⟩ := hsome
  obtain ⟨e, he, -, hissue⟩ := hlegal.issued_current hcurrent
  exact mem_issued.2 ⟨e, he, t₀, hissue⟩

/-- No two rows have one nonce. -/
theorem Recorded.eq_of_state_eq (h : Recorded C log rows) (hd : (issued log).Nodup)
    {requestId' : String} {row row' : Row} (hrow : rows.lookup requestId = some row)
    (hrow' : rows.lookup requestId' = some row') (hstate : row.state = row'.state) :
    requestId = requestId' := by
  obtain ⟨current, hlegal, hholds⟩ := h
  rw [hholds, Option.map_eq_some_iff] at hrow hrow'
  obtain ⟨⟨n, t⟩, hcurrent, rfl⟩ := hrow
  obtain ⟨⟨n', t'⟩, hcurrent', rfl⟩ := hrow'
  obtain rfl : n = n' := hstate
  exact (hlegal.fresh hd).one _ _ _ _ _ hcurrent hcurrent'

end

/-! ## Times -/

/-- The texts are fixed-width times: as texts they come in the order of the times, and so does the end
of a nonce's window. -/
structure FixedWidth (C : Clock) (times : Set String) : Prop where
  reads : ∀ now ∈ times, ∃ micros, C.fromStrToMicros now = .ok micros
  order : ∀ issued ∈ times, ∀ now ∈ times, ∀ m₀ m, C.fromStrToMicros issued = .ok m₀ →
    C.fromStrToMicros now = .ok m →
      (now < C.fromMicrosToStr (m₀ + nonceTtlMicros) ↔ m < m₀ + nonceTtlMicros)

/-- Within 300 s. -/
def Within (C : Clock) (issued now : String) : Prop :=
  ∃ m₀ m, C.fromStrToMicros issued = .ok m₀ ∧ C.fromStrToMicros now = .ok m ∧
    m < m₀ + nonceTtlMicros

theorem live_iff_within {C : Clock} {times : Set String} (h : FixedWidth C times)
    {issued now : String} (hissued : issued ∈ times) (hnow : now ∈ times) :
    Live C issued now ↔ Within C issued now := by
  obtain ⟨m₀, hm₀⟩ := h.reads issued hissued
  obtain ⟨m, hm⟩ := h.reads now hnow
  rw [Live, expiresAt, hm₀]
  dsimp only
  rw [h.order issued hissued now hnow m₀ m hm₀ hm]
  constructor
  · exact fun hlt => ⟨m₀, m, hm₀, hm, hlt⟩
  · rintro ⟨m₀', m', hm₀', hm', hlt⟩
    rw [hm₀] at hm₀'
    rw [hm] at hm'
    cases hm₀'
    cases hm'
    exact hlt

end CacosPds.Oauth.ConsentState
