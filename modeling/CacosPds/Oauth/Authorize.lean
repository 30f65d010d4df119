import CacosPds.Oauth.Remote
import Mathlib.Data.Fintype.EquivFin
/-!
# Opening an authorization request (`cacos-pds-oauth/src/routes.rs:326-367`)

| here | there |
| --- | --- |
| `oauthAuthorize` | `oauth_authorize`; `now` and `nonce` are drawn in `consent_state::create` |
| `Routes`         | `OAuthRemoteConfig`, and the **external boundary** `REQUEST_URI_PREFIX`, `request_id_from_uri` of `rsky_oauth` |
| `isOpen`         | the checks of `read_request_data` (`remote.rs:178-200`) on the row of a request |
| `Site`, `Move`   | the system of `Oauth/Remote` under a clock |

`create` inserts a row, so a request can be opened once. It cannot be opened again, by the page that
is reloaded or whose answer has been lost, before `accept` or `reject` has deleted the row
(`recoverable_iff`).
-/
namespace CacosPds.Oauth

open Stages Runs Sql ConsentState

structure RemoteConfig where
  url : Option String
  token : Option String

structure Routes where
  remote : RemoteConfig
  requestUriPrefix : String
  requestIdFromUri : String → Option String

inductive Answer where
  /-- `text/plain; charset=utf-8` -/
  | plain (status : Nat) (body : String)
  | found (location : String)
  deriving DecidableEq

def redirectTo (url requestId nonce : String) : String :=
  url ++ "?rqid=" ++ requestId ++ "&state=" ++ nonce

def oauthAuthorize (R : Routes) (C : Clock) (fault : Option String) (now nonce requestUri : String)
    (rows : Rows) : Answer × Rows :=
  match R.remote.url, R.remote.token with
  | some url, some _ =>
    if ¬ R.requestUriPrefix.toList <+: requestUri.toList then
      (.plain 400 "invalid request_uri", rows)
    else
      match R.requestIdFromUri requestUri with
      | none => (.plain 400 "invalid request_uri", rows)
      | some requestId =>
        match (create C fault now nonce requestId).exec rows with
        | (.ok nonce, rows) => (.found (redirectTo url requestId nonce), rows)
        | (.error _, rows) => (.plain 500 "nonce creation failed", rows)
  | _, _ => (.plain 503 "PDS_OAUTH_REMOTE_CLIENT_URL not configured", rows)

/-- The URI is of the request. -/
def Routes.Names (R : Routes) (requestUri requestId : String) : Prop :=
  R.requestUriPrefix.toList <+: requestUri.toList ∧ R.requestIdFromUri requestUri = some requestId

/-! ## The system under a clock -/

variable {Auth Params : Type}

/-- Unexpired and not yet authorized. -/
def isOpen (L : Library Auth Params) (now : UInt64) (requests : Account.Oauth.Db) (rqid : String) :
    Bool :=
  match byRequestId rqid requests with
  | none => false
  | some (_, row) =>
    match Account.Oauth.rowToRequestData L.codec row with
    | .error _ => false
    | .ok data => !L.isAuthorized data && !L.isExpired data now

structure Site (Auth Params : Type) where
  now : UInt64
  world : World Auth Params

inductive Move (Auth Params : Type) where
  | tick (now : UInt64)
  | act (a : Action Auth Params)

def siteStep (L : Library Auth Params) (s : Site Auth Params) :
    Move Auth Params → Option (Site Auth Params)
  | .tick now => if s.now ≤ now then some { s with now } else none
  | .act a => (step L s.world a).map fun world => { s with world }

def AssumedMove (times : Set String) (s : Site Auth Params) : Move Auth Params → Prop
  | .tick _ => True
  | .act a => Assumed times s.world a

/-- A remote call for the request comes in. -/
def Action.Calls (rqid : String) : Action Auth Params → Prop
  | .start _ requestId _ _ _ => requestId = rqid
  | _ => False

/-- The next remote call for the request is accepted if it comes with the nonce and within 300 s. -/
def Accepted (L : Library Auth Params) (times : Set String) (rqid nonce issued : String)
    (W : World Auth Params) : Prop :=
  ∀ as V, Along (step L) (fun W a => Assumed times W a ∧ ¬ a.Calls rqid) W as →
    run (step L) W as = some V → ∀ endpoint deviceId secs c, c.fault = none → c.now ∈ times →
      c.fresh ∉ OneTime.issued V.log → Within L.clock issued c.now →
        ∃ U h, run (step L) V [.start endpoint rqid nonce deviceId secs,
            .advance V.handlers.length c] = some U ∧
          U.handlers[V.handlers.length]? = some h ∧ h.pc = .read

/-- What is promised: an open request can be opened in the browser. -/
def Recoverable (R : Routes) (L : Library Auth Params) (times : Set String) (s : Site Auth Params) :
    Prop :=
  ∀ requestUri rqid, R.Names requestUri rqid → isOpen L s.now s.world.requests rqid = true →
    ∀ now nonce, nonce ∉ OneTime.issued s.world.log →
      ∃ V url, step L s.world (.authorize rqid now nonce none) = some V ∧
        oauthAuthorize R L.clock none now nonce requestUri s.world.consentState =
          (.found (redirectTo url rqid nonce), V.consentState) ∧
        (now ∈ times → Accepted L times rqid nonce now V)

/-- No nonce is out for an open request. -/
def Unopened (R : Routes) (L : Library Auth Params) (s : Site Auth Params) : Prop :=
  ∀ requestUri rqid, R.Names requestUri rqid → isOpen L s.now s.world.requests rqid = true →
    rqid ∉ s.world.consentState

section

variable {R : Routes} {L : Library Auth Params} {times : Set String} {W V : World Auth Params}
  {h h' : Handler Auth Params} {i : Nat} {c : Choice} {rqid now nonce : String}

/-! ## A nonce that nobody touches -/

/-- The nonce is in the row, and no call that is under way for the request has it. -/
structure Out (C : Clock) (rqid nonce now : String) (W : World Auth Params) : Prop where
  row : W.consentState.lookup rqid = some ⟨nonce, expiresAt C now⟩
  calls : ∀ h ∈ W.handlers, h.rqid = rqid → h.holding = none ∧ (h.pc = .rotate → h.state ≠ nonce)

theorem effect_rqid (he : Effect L W h c h' V) : h'.rqid = h.rqid := by
  cases he <;> rfl

theorem effect_row (he : Effect L W h c h' V) (hne : h.rqid ≠ rqid) :
    V.consentState.lookup rqid = W.consentState.lookup rqid := by
  cases he with
  | rotated hpc hrotate =>
    obtain ⟨-, -, hrows⟩ := rotate_ok hrotate
    exact (hrows rqid).trans (if_neg hne.symm)
  | deleted hpc hdelete => exact (delete_ok hdelete rqid).trans (if_neg hne.symm)
  | refused | found | missed | readByKey | selected | updated | ends | answered | redirected => rfl

/-- A call without the nonce is refused. -/
theorem effect_idle (he : Effect L W h c h' V) (hidle : h.holding = none)
    (hstate : h.pc = .rotate → ∀ row, W.consentState.lookup h.rqid = some row →
      h.state ≠ row.state) :
    V.consentState = W.consentState ∧ h'.holding = none ∧ h'.pc ≠ .rotate := by
  have hnot : ∀ {pc}, h.pc = pc → (show Handler Auth Params from { h with pc }).holding.isSome →
      False := by
    rintro _ rfl hk
    rw [show (show Handler Auth Params from { h with pc := h.pc }).holding = none from hidle] at hk
    cases hk
  cases he with
  | rotated hpc hrotate =>
    obtain ⟨-, ⟨row, hrow, hsame, -⟩, -⟩ := rotate_ok hrotate
    exact absurd hsame.symm (hstate hpc row hrow)
  | refused | redirected => exact ⟨rfl, rfl, fun h => by cases h⟩
  | found hpc | missed hpc | readByKey hpc | selected hpc | updated hpc | deleted hpc
  | answered hpc => exact (hnot hpc rfl).elim
  | ends hh =>
    rw [hidle] at hh
    cases hh

theorem Out.congr {C : Clock} (h : Out C rqid nonce now W)
    (hrow : V.consentState.lookup rqid = W.consentState.lookup rqid)
    (hcalls : V.handlers = W.handlers) : Out C rqid nonce now V :=
  ⟨hrow.trans h.row, hcalls ▸ h.calls⟩

theorem Out.advance (hO : Out L.clock rqid nonce now W) (hi : W.handlers[i]? = some h)
    (he : Effect L W h c h' V) : Out L.clock rqid nonce now (V.set i h') := by
  have hhandlers : V.handlers = W.handlers := by cases he <;> rfl
  have hmem := List.mem_of_getElem? hi
  by_cases hrqid : h.rqid = rqid
  · obtain ⟨hidle, hother⟩ := hO.calls h hmem hrqid
    obtain ⟨hrows, hidle', hpc'⟩ := effect_idle he hidle fun hpc row hrow => by
      rw [hrqid, hO.row] at hrow
      cases hrow
      exact hother hpc
    refine ⟨by rw [World.set, hrows]; exact hO.row, ?_⟩
    rw [World.set, hhandlers]
    exact forall_mem_set (fun _ => ⟨hidle', fun hpc => absurd hpc hpc'⟩) hO.calls
  · refine ⟨(effect_row he hrqid).trans hO.row, ?_⟩
    rw [World.set, hhandlers]
    refine forall_mem_set (fun heq => absurd ?_ hrqid) hO.calls
    exact (effect_rqid he).symm.trans heq

theorem out_step {a : Action Auth Params} (hO : Out L.clock rqid nonce now W)
    (hspares : ¬ a.Calls rqid) (hstep : step L W a = some V) : Out L.clock rqid nonce now V := by
  cases a with
  | authorize requestId now' nonce' fault =>
    dsimp only [step] at hstep
    split at hstep
    · rename_i state rows hcreate
      cases hstep
      obtain ⟨-, hnew, rfl⟩ := create_ok hcreate
      have hne : rqid ≠ requestId := by
        rintro rfl
        exact hnew (Finmap.mem_of_lookup_eq_some hO.row)
      exact hO.congr (Finmap.lookup_insert_of_ne _ hne) rfl
    · rename_i e rows hcreate
      obtain rfl := clean_create _ _ _ _ _ _ _ _ hcreate
      cases hstep
      exact hO
  | start endpoint requestId state deviceId secs =>
    cases hstep
    refine ⟨hO.row, fun k hk hrqid => ?_⟩
    rcases List.mem_append.1 hk with hk | hk
    · exact hO.calls k hk hrqid
    · obtain rfl := List.mem_singleton.1 hk
      exact absurd hrqid hspares
  | advance i c =>
    obtain ⟨h, hi, hadv⟩ := Option.bind_eq_some_iff.1 hstep
    obtain ⟨h', U, heffect, rfl, -⟩ := effect_of_advance hadv
    exact hO.advance hi heffect
  | provide i pk row =>
    dsimp only [step] at hstep
    split at hstep
    · split at hstep
      · cases hstep
        exact hO.congr rfl rfl
      · cases hstep
    · cases hstep
  | provideDelete i =>
    dsimp only [step] at hstep
    split at hstep
    · cases hstep
      exact hO.congr rfl rfl
    · cases hstep
  | par | consume | other =>
    cases hstep
    exact hO.congr rfl rfl

/-! ## The next call -/

/-- A nonce that has not been issued is in no row. -/
theorem Keyed.state_ne (K : Keyed L.clock W) (hnonce : nonce ∉ OneTime.issued W.log) (key : String)
    (row : Row) (hrow : W.consentState.lookup key = some row) : row.state ≠ nonce := by
  rintro rfl
  exact hnonce (K.recorded.issued_of_lookup hrow)

/-- The call is accepted that comes with the nonce in the row. -/
theorem accepts_next (K : Keyed L.clock W) (hO : Out L.clock rqid nonce now W)
    (endpoint : Endpoint) (deviceId : String) (secs : UInt64) (hfault : c.fault = none)
    (hfresh : c.fresh ∉ OneTime.issued W.log) (hlive : Live L.clock now c.now) :
    ∃ U h, run (step L) W [.start endpoint rqid nonce deviceId secs,
        .advance W.handlers.length c] = some U ∧
      U.handlers[W.handlers.length]? = some h ∧ h.pc = .read := by
  obtain ⟨rows, hrotate⟩ := rotate_of_live hO.row hlive (K.state_ne hfresh)
  let call : Handler Auth Params := ⟨endpoint, rqid, nonce, deviceId, secs, "", .rotate⟩
  let U : World Auth Params := { W with handlers := W.handlers ++ [call] }
  have hcall : U.handlers[W.handlers.length]? = some call := by simp [U]
  let U' : World Auth Params := { U with
    consentState := rows
    log := U.log ++ [OneTime.Event.spend rqid nonce c.fresh c.now] }.set W.handlers.length
      { call with fresh := c.fresh, pc := .read }
  have hadv : step L U (.advance W.handlers.length c) = some U' := by
    dsimp only [step]
    rw [hcall, Option.bind_some]
    unfold advance
    dsimp only [call]
    rw [hfault, hrotate]
  refine ⟨U', { call with fresh := c.fresh, pc := .read }, ?_, ?_, rfl⟩
  · rw [run_cons, show step L W (.start endpoint rqid nonce deviceId secs) = some U from rfl,
      Option.bind_some, run_cons, hadv]
    rfl
  · exact List.getElem?_set_self (by simp [U])

/-- **An open request without a nonce can be opened.** -/
theorem authorize_of_unopened {url token requestUri : String} (hurl : R.remote.url = some url)
    (htoken : R.remote.token = some token) (hclock : FixedWidth L.clock times)
    (hnames : R.Names requestUri rqid) (K : Keyed L.clock W) (hfree : rqid ∉ W.consentState)
    (hnonce : nonce ∉ OneTime.issued W.log) :
    ∃ V, step L W (.authorize rqid now nonce none) = some V ∧
      oauthAuthorize R L.clock none now nonce requestUri W.consentState =
        (.found (redirectTo url rqid nonce), V.consentState) ∧
      (now ∈ times → Accepted L times rqid nonce now V) := by
  have hcreate : (create L.clock none now nonce rqid).exec W.consentState =
      (.ok nonce, W.consentState.insert rqid ⟨nonce, expiresAt L.clock now⟩) :=
    create_of_free hfree (K.state_ne hnonce)
  let opened : World Auth Params := { W with
    consentState := W.consentState.insert rqid ⟨nonce, expiresAt L.clock now⟩
    log := W.log ++ [.create rqid nonce now]
    handed := W.handed ++ [nonce] }
  have hstep : step L W (.authorize rqid now nonce none) = some opened := by
    dsimp only [step]
    rw [hcreate]
  refine ⟨opened, hstep, ?_, fun hnow => ?_⟩
  · unfold oauthAuthorize
    rw [hurl, htoken]
    dsimp only
    rw [if_neg (not_not_intro hnames.1), hnames.2]
    dsimp only
    rw [hcreate]
  have hO : Out L.clock rqid nonce now opened := by
    refine ⟨Finmap.lookup_insert _, fun k hk hrqid => ⟨?_, fun hpc => ?_⟩⟩
    · by_contra hheld
      obtain ⟨f, hf⟩ := Option.ne_none_iff_exists'.1 hheld
      obtain ⟨i, hi⟩ := List.getElem?_of_mem hk
      obtain ⟨-, row, hrow, -⟩ := K.holds i k f hi hf
      exact hfree (hrqid ▸ Finmap.mem_of_lookup_eq_some hrow)
    · rintro rfl
      exact hnonce (K.handed _ (K.supplied k hk hpc))
  have K' := keyed_step K (show Assumed times W (.authorize rqid now nonce none) from
    ⟨hnow, hnonce⟩) hstep
  intro as V hC hrun endpoint deviceId secs c hfault hc hfresh hlive
  have hkeep : Keyed L.clock V ∧ Out L.clock rqid nonce now V :=
    (always_of_along (I := fun W => Keyed L.clock W ∧ Out L.clock rqid nonce now W)
      (fun _ _ _ hW hCa hstep => ⟨keyed_step hW.1 hCa.1 hstep, out_step hW.2 hCa.2 hstep⟩)
      ⟨K', hO⟩ as hC).last hrun
  exact accepts_next hkeep.1 hkeep.2 endpoint deviceId secs hfault hfresh
    ((live_iff_within hclock hnow hc).2 hlive)

/-- Where a nonce is out, the browser gets an error. -/
theorem authorize_of_mem {fault : Option String} {requestUri : String}
    (hnames : R.Names requestUri rqid) (hmem : rqid ∈ W.consentState) (location : String)
    (rows : Rows) :
    oauthAuthorize R L.clock fault now nonce requestUri W.consentState ≠
      (.found location, rows) := by
  unfold oauthAuthorize
  split
  · rw [if_neg (not_not_intro hnames.1), hnames.2]
    dsimp only
    split
    · rename_i hcreate
      exact absurd hmem (create_ok hcreate).2.1
    · rintro ⟨⟩
  · rintro ⟨⟩

theorem recoverable_iff_unopened {s : Site Auth Params} {url token : String}
    (hurl : R.remote.url = some url) (htoken : R.remote.token = some token)
    (hclock : FixedWidth L.clock times) (K : Keyed L.clock s.world) :
    Recoverable R L times s ↔ Unopened R L s := by
  constructor
  · intro h requestUri rqid hnames hopen hmem
    obtain ⟨nonce, hnonce⟩ := Infinite.exists_notMem_finset (OneTime.issued s.world.log).toFinset
    rw [List.mem_toFinset] at hnonce
    obtain ⟨V, url, -, hanswer, -⟩ := h requestUri rqid hnames hopen "" nonce hnonce
    exact authorize_of_mem hnames hmem _ _ hanswer
  · intro h requestUri rqid hnames hopen now nonce hnonce
    obtain ⟨V, hV⟩ := authorize_of_unopened hurl htoken hclock hnames K (h _ _ hnames hopen) hnonce
    exact ⟨V, url, hV⟩

/-! ## Runs -/

theorem keyed_move {s t : Site Auth Params} {m : Move Auth Params} (K : Keyed L.clock s.world)
    (hC : AssumedMove times s m) (hstep : siteStep L s m = some t) : Keyed L.clock t.world := by
  cases m with
  | tick now =>
    obtain ⟨-, hsame⟩ := Option.ite_none_right_eq_some.1 hstep
    cases hsame
    exact K
  | act a =>
    obtain ⟨world, hworld, rfl⟩ := Option.map_eq_some_iff.1 hstep
    exact keyed_step K hC hworld

/-- **In every run an open request can always be opened exactly when it has not been opened: as long
as no nonce is out for it.** -/
theorem recoverable_iff (R : Routes) (L : Library Auth Params) {times : Set String}
    {url token : String} (hurl : R.remote.url = some url) (htoken : R.remote.token = some token)
    (hclock : FixedWidth L.clock times) {s : Site Auth Params} (hI : Initial s.world)
    (moves : List (Move Auth Params)) (hC : Along (siteStep L) (AssumedMove times) s moves) :
    Always (siteStep L) (Recoverable R L times) s moves ↔
      Always (siteStep L) (Unopened R L) s moves := by
  have hkeyed : Always (siteStep L) (fun s => Keyed L.clock s.world) s moves :=
    always_of_along (fun _ _ _ => keyed_move) (keyed_of_initial hI L.clock) moves hC
  exact Always.congr (fun s K => recoverable_iff_unopened hurl htoken hclock K) hkeyed

end

/-! ### A page that is reloaded -/

def hexId : String := "req-0123456789abcdef0123456789abcdef"

def hexUri : String := "urn:ietf:params:oauth:request_uri:req-0123456789abcdef0123456789abcdef"

/-- Of one request. -/
def hexRoutes : Routes where
  remote := ⟨some "https://remote.example.com", some "tok"⟩
  requestUriPrefix := "urn:ietf:params:oauth:request_uri:"
  requestIdFromUri uri := if uri = hexUri then some hexId else none

def hexPushed : Site String String where
  now := 1785844800
  world := { onePushed with
    requests := { Account.Oauth.Db.empty with
      authorizationRequest := Finmap.insert ⟨1, DbId.one_isLt⟩
        ⟨hexId, none, none, none, "client", "auth", "params", 1785845100, none⟩ ∅ } }

instance (times : Set String) [DecidablePred (· ∈ times)] (s : Site String String) :
    DecidablePred (AssumedMove times s)
  | .tick _ => isTrue trivial
  | .act a => inferInstanceAs (Decidable (Assumed times s.world a))

theorem initial_hexPushed : Initial hexPushed.world := by
  refine ⟨rfl, rfl, rfl, rfl, Table.indexed_empty.insert (by decide +kernel), fun pk hpk => ?_⟩
  rcases Finmap.mem_insert.1 hpk with rfl | hpk
  · exact Finset.mem_singleton_self _
  · exact absurd hpk Finmap.notMem_empty

theorem names_hex {requestUri rqid : String} (h : hexRoutes.Names requestUri rqid) :
    rqid = hexId := by
  obtain ⟨-, hid⟩ := h
  obtain ⟨-, hid⟩ := Option.ite_none_right_eq_some.1 hid
  exact (Option.some.inj hid).symm

/-- The database fails the first GET, before the request expires. -/
def failedGet : List (Move String String) :=
  [.tick 1785844810, .act (.authorize hexId noon "n0" (some "database is locked"))]

/-- The next one comes when it has expired. -/
def lateGet : List (Move String String) :=
  [.tick 1785845200, .act (.authorize hexId tenPastNoon "n1" none)]

theorem recoverable_afterFault :
    (∃ s ∈ run (siteStep remoteLibrary) hexPushed failedGet,
        isOpen remoteLibrary s.now s.world.requests hexId = true) ∧
      (run (siteStep remoteLibrary) hexPushed (failedGet ++ lateGet)).isSome ∧
      Always (siteStep remoteLibrary) (Recoverable hexRoutes remoteLibrary noonTimes) hexPushed
        (failedGet ++ lateGet) := by
  refine ⟨by decide +kernel, by decide +kernel, (recoverable_iff hexRoutes remoteLibrary rfl rfl
    fixedWidth_noon initial_hexPushed (failedGet ++ lateGet) (by decide +kernel)).2 ?_⟩
  have hunopened : Always (siteStep remoteLibrary) (fun s => isOpen remoteLibrary s.now
      s.world.requests hexId = true → hexId ∉ s.world.consentState) hexPushed
      (failedGet ++ lateGet) := by
    decide +kernel
  refine hunopened.mono fun s h requestUri rqid hnames => ?_
  obtain rfl := names_hex hnames
  exact h

/-- The browser gets a redirect, and at the second time an error. -/
theorem reload_fails : ¬ ∀ (R : Routes) (L : Library String String) (times : Set String)
    (url token : String) (s : Site String String) (moves : List (Move String String)),
    R.remote.url = some url → R.remote.token = some token → FixedWidth L.clock times →
      Initial s.world → Along (siteStep L) (AssumedMove times) s moves →
        Always (siteStep L) (Recoverable R L times) s moves := by
  intro hall
  have hrec := hall hexRoutes remoteLibrary noonTimes _ _ hexPushed
    [.act (.authorize hexId noon "n0" none)] rfl rfl fixedWidth_noon initial_hexPushed
    (by decide +kernel)
  have hend : ∃ s ∈ run (siteStep remoteLibrary) hexPushed [.act (.authorize hexId noon "n0" none)],
      isOpen remoteLibrary s.now s.world.requests hexId = true ∧
        "n1" ∉ OneTime.issued s.world.log ∧
        (oauthAuthorize hexRoutes noonClock none noon "n1" hexUri s.world.consentState).1 =
          .plain 500 "nonce creation failed" := by
    decide +kernel
  obtain ⟨s, hs, hopen, hnew, hanswer⟩ := hend
  obtain ⟨V, url, -, hfound, -⟩ := hrec.last hs hexUri hexId ⟨by decide, rfl⟩ hopen noon "n1" hnew
  exact absurd (hanswer.symm.trans (congrArg Prod.fst hfound)) fun h => by cases h

end CacosPds.Oauth
