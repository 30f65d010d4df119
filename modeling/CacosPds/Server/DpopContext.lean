import Mathlib.Data.FinEnum
import CacosPds.Lib.Run
/-!
# What a DPoP proof is verified against (`xrpc/auth_extractors.rs:60-80`, `bearer.rs:376-394`)

| here | there |
| --- | --- |
| `contextOf`                | the `DpopRequestContext` that `validate_access` sets |
| `fromRequest`              | `OAuthRequestInfo::from_request` (`cacos-pds-oauth/src/routes.rs:31-49`) |
| `nest`                     | **external boundary**: `poem::Route::nest`, under which `build_app_with_state` mounts the XRPC endpoints |
| `xrpcRoutes`               | what is mounted there (`xrpc/mod.rs:82-93`, `:148-295`, and the `routes` of its modules) |
| `App.cells`                | `DPOP_REQUEST_CONTEXT` (`register.rs:89-111`), a cell for each thread |
| `Call`, `Pc`               | a call of `validate_access`, from access to access of its thread's cell |
| `App.registered`           | whether `OAUTH_PROVIDER` is `Some` |

A call keeps its thread from the setting of the cell to the reading, since nothing is awaited between
the two; it may go on with another thread after that, and clear that one's cell. So each proof is
verified against the method and the headers of its own request. But the endpoint sees the path below
`/xrpc` and no origin, so the URI is never the one that the client has called (`context_never`).
-/
namespace CacosPds.Server.Dpop

open Runs

/-! ## Requests -/

structure Request where
  method : String
  /-- In origin form: path and query. -/
  uri : String
  headers : List (String × List UInt8)
  deriving DecidableEq

/-- `HeaderValue::to_str`: visible ASCII, blanks and tabs. -/
def toStr (value : List UInt8) : Option String :=
  if ∀ b ∈ value, 32 ≤ b ∧ b < 127 ∨ b = 9 then
    some (String.ofList (value.map fun b => Char.ofNat b.toNat))
  else none

def authHeader (req : Request) : Option String :=
  (req.headers.find? fun h => h.1 = "authorization").bind fun h => toStr h.2

def dpopHeaders (req : Request) : List String :=
  (req.headers.filter fun h => h.1 = "dpop").filterMap fun h => toStr h.2

def DPOP : String := "DPoP "

def dpopTokenFromReq : Option String → Option String
  | some header =>
    if DPOP.length < header.length ∧
        (header.toList.take DPOP.length).map Char.toLower = DPOP.toList.map Char.toLower then
      some (String.ofList (header.toList.drop DPOP.length))
    else none
  | none => none

structure DpopRequestContext where
  method : String
  uri : String
  dpopHeaders : List String
  deriving DecidableEq

def contextOf (req : Request) : DpopRequestContext := ⟨req.method, req.uri, dpopHeaders req⟩

/-- The three fields are those of `DpopRequestContext`. -/
abbrev OAuthRequestInfo := DpopRequestContext

def fromRequest (req : Request) (publicUrl : String) : OAuthRequestInfo :=
  ⟨req.method, publicUrl ++ req.uri, dpopHeaders req⟩

/-- The endpoints below the path see what comes after it. -/
def nest (path : String) (req : Request) : Option Request :=
  if path.toList ++ ['/'] <+: req.uri.toList then
    some { req with uri := String.ofList (req.uri.toList.drop path.length) }
  else none

structure XrpcRoute where
  method : String
  path : String
  /-- Whether its endpoint calls `validate_access`. -/
  access : Bool

/-- The `/*rest` that they end with is a 404. -/
def xrpcRoutes : List XrpcRoute :=
  [⟨"GET", "/com.atproto.sync.subscribeRepos", false⟩,
   ⟨"POST", "/createSession", false⟩, ⟨"POST", "/refreshSession", false⟩,
   ⟨"POST", "/deleteSession", false⟩, ⟨"GET", "/getSession", true⟩,
   ⟨"POST", "/createAccount", false⟩, ⟨"POST", "/activateAccount", true⟩,
   ⟨"POST", "/deactivateAccount", true⟩, ⟨"POST", "/deleteAccount", false⟩,
   ⟨"GET", "/checkAccountStatus", true⟩, ⟨"POST", "/confirmEmail", true⟩,
   ⟨"POST", "/updateEmail", true⟩, ⟨"POST", "/requestEmailConfirmation", true⟩,
   ⟨"POST", "/requestEmailUpdate", true⟩, ⟨"POST", "/requestPasswordReset", false⟩,
   ⟨"POST", "/resetPassword", false⟩, ⟨"POST", "/requestAccountDelete", true⟩,
   ⟨"POST", "/createAppPassword", true⟩, ⟨"GET", "/listAppPasswords", true⟩,
   ⟨"POST", "/revokeAppPassword", true⟩, ⟨"POST", "/createInviteCode", false⟩,
   ⟨"POST", "/createInviteCodes", false⟩, ⟨"GET", "/getAccountInviteCodes", true⟩,
   ⟨"GET", "/describeServer", false⟩, ⟨"GET", "/getServiceAuth", true⟩,
   ⟨"POST", "/reserveSigningKey", false⟩,
   ⟨"POST", "/createRecord", true⟩, ⟨"POST", "/putRecord", true⟩,
   ⟨"POST", "/deleteRecord", true⟩, ⟨"POST", "/applyWrites", true⟩,
   ⟨"POST", "/uploadBlob", true⟩, ⟨"GET", "/describeRepo", false⟩,
   ⟨"GET", "/_health", false⟩, ⟨"GET", "/_health/live", false⟩]

/-- The path of the URI, without the query. -/
def Request.path (req : Request) : String :=
  String.ofList (req.uri.toList.takeWhile (· ≠ '?'))

/-- What the endpoint that calls `validate_access` sees of a request, if it gets to one. -/
def accessSees (req : Request) : Option Request :=
  (nest "/xrpc" req).filter fun seen =>
    xrpcRoutes.any fun route => route.method = seen.method ∧ route.path = seen.path ∧ route.access

/-! ## Calls on threads -/

inductive Pc where
  | set
  /-- Behind `set_dpop_request_context`. -/
  | read
  /-- The token is verified, and its account looked up; each may be awaited. -/
  | verify
  /-- Before `clear_dpop_request_context`. -/
  | clear
  | done
  deriving DecidableEq

structure Call where
  /-- As the client has sent it. -/
  request : Request
  /-- As the endpoint sees it. -/
  seen : Request
  pc : Pc
  /-- The thread that polls it. -/
  thread : Option Nat
  deriving DecidableEq

structure Verified where
  request : Request
  /-- What `current_dpop_request_context` has returned. -/
  context : Option DpopRequestContext
  deriving DecidableEq

structure App where
  registered : Bool
  cells : Nat → Option DpopRequestContext
  calls : List Call
  verified : List Verified

def App.start : App := ⟨false, fun _ => none, [], []⟩

inductive Step where
  | register (provider : Bool)
  | receive (req : Request)
  /-- A thread that is free takes up the call. -/
  | poll (i thread : Nat)
  /-- The call goes on, up to the next access of the cell. -/
  | advance (i : Nat)
  | await (i : Nat)
  /-- The client is gone. -/
  | drop (i : Nat)

def App.set (s : App) (i : Nat) (c : Call) : App := { s with calls := s.calls.set i c }

def advance (s : App) (i : Nat) (c : Call) (thread : Nat) : Option App :=
  match c.pc with
  | .set =>
    some ({ s with cells := Function.update s.cells thread (some (contextOf c.seen)) }.set i
      { c with pc := .read })
  | .read =>
    match dpopTokenFromReq (authHeader c.seen) with
    | none => some (s.set i { c with pc := .verify })
    | some _ =>
      if s.registered then
        some ({ s with verified := s.verified ++ [Verified.mk c.request (s.cells thread)] }.set i
          { c with pc := if (s.cells thread).isSome then .verify else .clear })
      else some (s.set i { c with pc := .clear })
  | .verify => some (s.set i { c with pc := .clear })
  | .clear =>
    some ({ s with cells := Function.update s.cells thread none }.set i
      { c with pc := .done, thread := none })
  | .done => none

def step (s : App) : Step → Option App
  | .register provider => some { s with registered := provider }
  | .receive req =>
    (accessSees req).map fun seen => { s with calls := s.calls ++ [⟨req, seen, .set, none⟩] }
  | .poll i thread =>
    match s.calls[i]? with
    | some ⟨req, seen, pc, none⟩ =>
      if (pc = .set ∨ pc = .verify) ∧ ∀ c ∈ s.calls, c.thread ≠ some thread then
        some (s.set i ⟨req, seen, pc, some thread⟩)
      else none
    | _ => none
  | .advance i =>
    match s.calls[i]? with
    | some ⟨req, seen, pc, some thread⟩ => advance s i ⟨req, seen, pc, some thread⟩ thread
    | _ => none
  | .await i =>
    -- there is no await elsewhere
    match s.calls[i]? with
    | some ⟨req, seen, .verify, some _⟩ => some (s.set i ⟨req, seen, .verify, none⟩)
    | _ => none
  | .drop i =>
    match s.calls[i]? with
    | some ⟨req, seen, _, none⟩ => some (s.set i ⟨req, seen, .done, none⟩)
    | _ => none

/-! ## The law -/

/-- What the proofs have been verified against is what the clients have called. -/
def Bound (publicUrl : String) (s : App) : Prop :=
  ∀ v ∈ s.verified, v.context = some (fromRequest v.request publicUrl)

/-- The request's own context, but for the origin and the mount that its URI lacks. -/
structure Shortened (publicUrl : String) (v : Verified) (ctx : DpopRequestContext) : Prop where
  context : v.context = some ctx
  method : ctx.method = v.request.method
  dpopHeaders : ctx.dpopHeaders = dpopHeaders v.request
  uri : (fromRequest v.request publicUrl).uri = publicUrl ++ ("/xrpc" ++ ctx.uri)
  ne : ctx ≠ fromRequest v.request publicUrl

/-! ## Set and read -/

structure Tidy (s : App) : Prop where
  seen : ∀ c ∈ s.calls, nest "/xrpc" c.request = some c.seen
  apart : ∀ (i j : Nat) (c d : Call) thread, s.calls[i]? = some c → s.calls[j]? = some d →
    c.thread = some thread → d.thread = some thread → i = j
  /-- Between the two accesses the cell is the call's. -/
  ready : ∀ c ∈ s.calls, c.pc = .read →
    ∃ thread, c.thread = some thread ∧ s.cells thread = some (contextOf c.seen)
  verified : ∀ v ∈ s.verified, ∃ seen, nest "/xrpc" v.request = some seen ∧
    v.context = some (contextOf seen)

theorem tidy_start : Tidy .start := ⟨nofun, nofun, nofun, nofun⟩

section

variable {s t : App} {i : Nat} {c c' : Call}

/-- A call goes on. It leaves the other threads' cells alone. -/
theorem Tidy.set (h : Tidy s) {cells : Nat → Option DpopRequestContext} {verified : List Verified}
    (hi : s.calls[i]? = some c) (hrequest : c'.request = c.request) (hseen : c'.seen = c.seen)
    (hthread : ∀ thread, c'.thread = some thread →
      c.thread = some thread ∨ ∀ d ∈ s.calls, d.thread ≠ some thread)
    (hready : c'.pc = .read →
      ∃ thread, c'.thread = some thread ∧ cells thread = some (contextOf c'.seen))
    (hcells : ∀ thread, c.thread ≠ some thread → cells thread = s.cells thread)
    (hverified : ∀ v ∈ verified, ∃ seen, nest "/xrpc" v.request = some seen ∧
      v.context = some (contextOf seen)) :
    Tidy ({ s with cells, verified }.set i c') where
  seen := by
    refine forall_mem_set ?_ h.seen
    rw [hrequest, hseen]
    exact h.seen c (List.mem_of_getElem? hi)
  apart j k d e thread hj hk hd he := by
    let R (x y : Call) : Prop := x.thread = some thread ∧ y.thread = some thread
    refine eq_of_set (R := R) (fun _ _ hR => ⟨hR.2, hR.1⟩)
      (fun j k x y hx hy hR => h.apart j k x y thread hx hy hR.1 hR.2) ?_ hj hk ⟨hd, he⟩
    rintro m x him hx ⟨hc', hxthread⟩
    rcases hthread thread hc' with hc | hnone
    · exact him (h.apart i m c x thread hi hx hc hxthread)
    · exact hnone x (List.mem_of_getElem? hx) hxthread
  ready d hd hpc := by
    obtain ⟨j, hj⟩ := List.getElem?_of_mem hd
    rcases getElem?_set_eq_some hj with ⟨-, rfl⟩ | ⟨hij, hj'⟩
    · exact hready hpc
    · obtain ⟨thread, hd', hcell⟩ := h.ready d (List.mem_of_getElem? hj') hpc
      have hfree : c.thread ≠ some thread := fun hc =>
        hij (h.apart i j c d thread hi hj' hc hd')
      exact ⟨thread, hd', (hcells thread hfree).trans hcell⟩
  verified := hverified

theorem tidy_advance {thread : Nat} (h : Tidy s) (hi : s.calls[i]? = some c)
    (hc : c.thread = some thread) (hstep : advance s i c thread = some t) : Tidy t := by
  have hsame : ∀ thread', c.thread = some thread' →
      c.thread = some thread' ∨ ∀ d ∈ s.calls, d.thread ≠ some thread' := fun _ => Or.inl
  have hupdate : ∀ cell thread', c.thread ≠ some thread' →
      Function.update s.cells thread cell thread' = s.cells thread' := by
    rintro cell thread' hne
    refine Function.update_of_ne ?_ _ _
    rintro rfl
    exact hne hc
  unfold advance at hstep
  cases hpc : c.pc with
  | set =>
    rw [hpc] at hstep
    cases hstep
    exact h.set hi rfl rfl hsame (fun _ => ⟨thread, hc, Function.update_self ..⟩) (hupdate _)
      h.verified
  | read =>
    rw [hpc] at hstep
    dsimp only at hstep
    split at hstep
    · cases hstep
      exact h.set hi rfl rfl hsame nofun (fun _ _ => rfl) h.verified
    · split at hstep
      · cases hstep
        obtain ⟨thread', hc', hcell⟩ := h.ready c (List.mem_of_getElem? hi) hpc
        obtain rfl := Option.some.inj (hc.symm.trans hc')
        refine h.set hi rfl rfl hsame ?_ (fun _ _ => rfl) ?_
        · rw [hcell]
          nofun
        · intro v hv
          rcases List.mem_append.1 hv with hv | hv
          · exact h.verified v hv
          · obtain rfl := List.mem_singleton.1 hv
            exact ⟨c.seen, h.seen c (List.mem_of_getElem? hi), hcell⟩
      · cases hstep
        exact h.set hi rfl rfl hsame nofun (fun _ _ => rfl) h.verified
  | verify =>
    rw [hpc] at hstep
    cases hstep
    exact h.set hi rfl rfl hsame nofun (fun _ _ => rfl) h.verified
  | clear =>
    rw [hpc] at hstep
    cases hstep
    exact h.set hi rfl rfl nofun nofun (hupdate _) h.verified
  | done =>
    rw [hpc] at hstep
    cases hstep

theorem tidy_step {a : Step} (h : Tidy s) (hstep : step s a = some t) : Tidy t := by
  cases a with
  | register provider =>
    cases hstep
    exact ⟨h.seen, h.apart, h.ready, h.verified⟩
  | receive req =>
    obtain ⟨seen, haccess, rfl⟩ := Option.map_eq_some_iff.1 hstep
    have hseen : nest "/xrpc" req = some seen := (Option.filter_eq_some_iff.1 haccess).1
    refine ⟨fun d hd => ?_, fun j k d e thread hj hk hd he => ?_, fun d hd hpc => ?_, h.verified⟩
    · rcases List.mem_append.1 hd with hd | hd
      · exact h.seen d hd
      · obtain rfl := List.mem_singleton.1 hd
        exact hseen
    · rcases getElem?_concat_eq_some hj with rfl | hj'
      · cases hd
      rcases getElem?_concat_eq_some hk with rfl | hk'
      · cases he
      exact h.apart j k d e thread hj' hk' hd he
    · rcases List.mem_append.1 hd with hd | hd
      · exact h.ready d hd hpc
      · obtain rfl := List.mem_singleton.1 hd
        cases hpc
  | poll i thread =>
    dsimp only [step] at hstep
    split at hstep
    · rename_i req seen pc hi
      obtain ⟨⟨hpc, hfree⟩, hsame⟩ := Option.ite_none_right_eq_some.1 hstep
      cases hsame
      refine h.set hi rfl rfl ?_ ?_ (fun _ _ => rfl) h.verified
      · rintro thread' ⟨⟩
        exact Or.inr hfree
      · rintro rfl
        exact (hpc.elim nofun nofun)
    · cases hstep
  | advance i =>
    dsimp only [step] at hstep
    split at hstep
    · rename_i hi
      exact tidy_advance h hi rfl hstep
    · cases hstep
  | await i =>
    dsimp only [step] at hstep
    split at hstep
    · rename_i hi
      cases hstep
      exact h.set hi rfl rfl nofun nofun (fun _ _ => rfl) h.verified
    · cases hstep
  | drop i =>
    dsimp only [step] at hstep
    split at hstep
    · rename_i hi
      cases hstep
      exact h.set hi rfl rfl nofun nofun (fun _ _ => rfl) h.verified
    · cases hstep

/-! ## The path -/

theorem uri_of_nest {path : String} {req seen : Request} (h : nest path req = some seen) :
    ∃ uri, seen = { req with uri } ∧ req.uri = path ++ uri := by
  obtain ⟨⟨rest, hrest⟩, hseen⟩ := Option.ite_none_right_eq_some.1 h
  refine ⟨_, (Option.some.inj hseen).symm, String.toList_injective ?_⟩
  rw [String.toList_append, String.toList_ofList, ← hrest, List.append_assoc,
    ← String.length_toList, List.drop_left]

end

/-- **Every proof is verified against its own request's method and headers, and never against the
URI that the client has called.** -/
theorem context_never (publicUrl : String) (as : List Step) :
    Always step (fun s => ∀ v ∈ s.verified, ∃ ctx, Shortened publicUrl v ctx) .start as := by
  refine (always_of_keep (fun _ _ _ => tidy_step) tidy_start as).mono fun s h v hv => ?_
  obtain ⟨seen, hnest, hcontext⟩ := h.verified v hv
  obtain ⟨uri, rfl, huri⟩ := uri_of_nest hnest
  have hlonger : (fromRequest v.request publicUrl).uri = publicUrl ++ ("/xrpc" ++ uri) := by
    rw [fromRequest, huri]
  refine ⟨_, hcontext, rfl, rfl, hlonger, fun heq => ?_⟩
  have hsame : uri = publicUrl ++ ("/xrpc" ++ uri) :=
    (congrArg DpopRequestContext.uri heq).trans hlonger
  have hlength := congrArg String.length hsame
  rw [String.length_append, String.length_append, show "/xrpc".length = 5 from rfl] at hlength
  omega

/-! ### A session asked for -/

def getSession : Request where
  method := "GET"
  uri := "/xrpc/getSession"
  headers := [("authorization", "DPoP token".toUTF8.toList), ("dpop", "proof".toUTF8.toList)]

-- by its NSID it is not mounted
example : accessSees { getSession with uri := "/xrpc/com.atproto.server.getSession" } = none := by
  decide +kernel

def sessionRun : List Step :=
  [.register true, .receive getSession, .poll 0 0, .advance 0, .advance 0]

/-- The proof for `https://pds.test/xrpc/getSession` is verified against a path. -/
theorem path_verified : ¬ ∀ publicUrl as, Always step (Bound publicUrl) .start as := by
  intro hall
  have hend : ∃ s ∈ run step .start sessionRun, s.verified =
      [⟨getSession, some ⟨"GET", "/getSession", ["proof"]⟩⟩] := by
    decide +kernel
  obtain ⟨s, hs, hverified⟩ := hend
  have hbound := (hall "https://pds.test" sessionRun).last hs
  have hother := hbound ⟨getSession, _⟩ (by rw [hverified]; exact List.mem_singleton_self _)
  exact absurd hother (by decide +kernel)

end CacosPds.Server.Dpop
