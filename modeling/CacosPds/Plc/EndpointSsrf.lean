import CacosPds.Lib.IpAddr
import CacosPds.Lib.Stages
import Mathlib.Data.List.TakeWhile
/-!
# Which endpoints the PLC client calls (`cacos-pds-plc/src/lib.rs:144-229`)

| here | there |
| --- | --- |
| `checkEndpointSsrf` | `HttpPlcClient::check_endpoint_ssrf` |
| `isDeniedIp`    | `is_denied_ip` |
| `UrlLib`        | **external boundary**: `Url::parse` and `host_str` of the `url` crate |
| `denoted`       | the addresses that the URL's host stands for: the literal, or the resolver's answer |
| `Forbidden`     | the ranges that the doc comment and the comments beside `is_denied_ip` name |

`is_denied_ip` tests an IPv6 address as such. One that carries an IPv4 address (`::ffff:a.b.c.d`, for
a socket of both families) is none of its four ranges and passes, whatever it carries.
-/
namespace CacosPds.Plc

open Net

inductive Host where
  | domain (name : String)
  | ipv4 (addr : Ipv4Addr)
  | ipv6 (addr : Ipv6Addr)
  deriving DecidableEq

structure Url where
  scheme : String
  host : Option Host

structure UrlLib where
  parse : String → Except String Url
  hostStr : Host → String

def NoBrackets (text : String) : Prop := '[' ∉ text.toList ∧ ']' ∉ text.toList

/-- A name that reads as an address is parsed as one; an IPv6 address is in brackets. -/
def Host.HasText : Host → String → Prop
  | .domain name, text => text = name ∧ parseIpAddr name = none ∧ NoBrackets name
  | .ipv4 a, text => parseIpAddr text = some (.v4 a) ∧ NoBrackets text
  | .ipv6 a, text =>
    ∃ inner, text = "[" ++ inner ++ "]" ∧ parseIpAddr inner = some (.v6 a) ∧ NoBrackets inner

def UrlLib.Lawful (U : UrlLib) : Prop := ∀ url scheme host,
  U.parse url = .ok ⟨scheme, some host⟩ → scheme = "https" ∨ scheme = "http" →
    host.HasText (U.hostStr host)

def isDeniedIp : IpAddr → Bool
  | .v4 v4 =>
    v4.isLoopback || v4.isPrivate || v4.isLinkLocal || v4.isUnspecified || v4.isBroadcast
  | .v6 v6 =>
    v6.isLoopback || v6.isUnspecified || v6.s₀ &&& 0xfe00 = 0xfc00 || v6.s₀ &&& 0xffc0 = 0xfe80

/-- `trim_start_matches('[')`, `trim_end_matches(']')`. -/
def trimBrackets (host : String) : String :=
  String.ofList (((host.toList.dropWhile (· = '[')).reverse.dropWhile (· = ']')).reverse)

section

variable (U : UrlLib) (toSocketAddrs : String → Except String (List IpAddr))

/-- The hostname's first address, if none is denied. -/
def resolveHost (url host : String) : Except String IpAddr := do
  let addrs ← (toSocketAddrs host).mapError fun e =>
    "DNS resolution failed for " ++ host ++ ": " ++ e
  match addrs with
  | [] => throw ("no addresses resolved for " ++ host)
  | first :: _ =>
    match addrs.find? isDeniedIp with
    | some ip => throw ("PLC URL " ++ url ++ " resolves to denied IP " ++ ip.display)
    | none => return first

def lookupHost (url host : String) : Except String IpAddr :=
  match parseIpAddr host with
  | some ip => .ok ip
  | none => resolveHost toSocketAddrs url host

def checkEndpointSsrf (url : String) : Except String Unit := do
  let parsed ← (U.parse url).mapError fun e => "invalid PLC endpoint URL " ++ url ++ ": " ++ e
  if parsed.scheme ≠ "https" ∧ parsed.scheme ≠ "http" then
    throw "PLC URL must use http or https"
  else
    match parsed.host with
    | none => throw "PLC URL missing host"
    | some host =>
      let ip ← lookupHost toSocketAddrs url (trimBrackets (U.hostStr host))
      if isDeniedIp ip then throw ("PLC URL " ++ url ++ " points to denied IP " ++ ip.display)
      else return ()

/-! ## What the check is for -/

def Host.addrs : Host → List IpAddr
  | .domain name => (toSocketAddrs name).toOption.getD []
  | .ipv4 a => [.v4 a]
  | .ipv6 a => [.v6 a]

/-- The host of a URL that the client may be pointed at. -/
def httpHost (url : String) : Option Host :=
  match U.parse url with
  | .ok ⟨scheme, host⟩ => if scheme = "https" ∨ scheme = "http" then host else none
  | .error _ => none

def denoted (url : String) : List IpAddr :=
  (httpHost U url).elim [] (Host.addrs toSocketAddrs)

end

/-- Loopback, private, link-local, unspecified, broadcast; loopback, unspecified, unique-local,
link-local. -/
def Forbidden : IpAddr → Prop
  | .v4 a =>
    a.In ⟨127, 0, 0, 0⟩ 8 ∨ a.In ⟨10, 0, 0, 0⟩ 8 ∨ a.In ⟨172, 16, 0, 0⟩ 12 ∨
      a.In ⟨192, 168, 0, 0⟩ 16 ∨ a.In ⟨169, 254, 0, 0⟩ 16 ∨ a = ⟨0, 0, 0, 0⟩ ∨
        a = ⟨255, 255, 255, 255⟩
  | .v6 a =>
    a = ⟨0, 0, 0, 0, 0, 0, 0, 1⟩ ∨ a = ⟨0, 0, 0, 0, 0, 0, 0, 0⟩ ∨
      a.In ⟨0xfc00, 0, 0, 0, 0, 0, 0, 0⟩ 7 ∨ a.In ⟨0xfe80, 0, 0, 0, 0, 0, 0, 0⟩ 10

/-- A connection to the one address reaches the other. -/
inductive Reaches (embedded : Ipv6Addr → Option Ipv4Addr) : IpAddr → IpAddr → Prop where
  | itself (ip : IpAddr) : Reaches embedded ip ip
  | embedded {a : Ipv6Addr} {b : Ipv4Addr} : embedded a = some b → Reaches embedded (.v6 a) (.v4 b)

section

variable (embedded : Ipv6Addr → Option Ipv4Addr) (U : UrlLib)
  (toSocketAddrs : String → Except String (List IpAddr)) (url : String)

/-- An accepted endpoint does not lead to a forbidden address. -/
def Guards : Prop :=
  checkEndpointSsrf U toSocketAddrs url = .ok () →
    ∀ ip ∈ denoted U toSocketAddrs url, ∀ ip', Reaches embedded ip ip' → ¬ Forbidden ip'

/-- No IPv6 address of the host carries a forbidden IPv4 address, unless an address of the host is
forbidden as it stands. -/
def NoneCarried : Prop :=
  (∀ ip ∈ denoted U toSocketAddrs url, ¬ Forbidden ip) →
    ∀ a b, .v6 a ∈ denoted U toSocketAddrs url → embedded a = some b → ¬ Forbidden (.v4 b)

end

/-! ## What it accepts -/

theorem isDeniedIp_iff (ip : IpAddr) : isDeniedIp ip = true ↔ Forbidden ip := by
  cases ip with
  | v4 a =>
    simp only [isDeniedIp, Forbidden, Bool.or_eq_true, Ipv4Addr.isLoopback_iff,
      Ipv4Addr.isPrivate_iff, Ipv4Addr.isLinkLocal_iff, Ipv4Addr.isUnspecified,
      Ipv4Addr.isBroadcast, decide_eq_true_eq, or_assoc]
  | v6 a =>
    have hlocal := a.in_iff_mask (s := 0xfc00) (m := 0xfe00) (n := 7) (k := 9) rfl rfl rfl
    have hlink := a.in_iff_mask (s := 0xfe80) (m := 0xffc0) (n := 10) (k := 6) rfl rfl rfl
    simp only [isDeniedIp, Forbidden, Bool.or_eq_true, Ipv6Addr.isLoopback,
      Ipv6Addr.isUnspecified, decide_eq_true_eq, hlocal, hlink, or_assoc]

section

variable {U : UrlLib} {toSocketAddrs : String → Except String (List IpAddr)} {url : String}

theorem dropWhile_of_notMem {c : Char} {text : List Char} (h : c ∉ text) :
    text.dropWhile (· = c) = text := by
  refine List.dropWhile_eq_self_iff.2 fun hpos => ?_
  have hne : text[0] ≠ c := fun he => h (he ▸ List.getElem_mem hpos)
  simpa using hne

theorem trimBrackets_of_noBrackets {text : String} (h : NoBrackets text) :
    trimBrackets text = text := by
  have hrev : ']' ∉ text.toList.reverse := fun hmem => h.2 (List.mem_reverse.1 hmem)
  rw [trimBrackets, dropWhile_of_notMem h.1, dropWhile_of_notMem hrev, List.reverse_reverse,
    String.ofList_toList]

theorem trimBrackets_brackets {text : String} (h : NoBrackets text) :
    trimBrackets ("[" ++ text ++ "]") = text := by
  have hlist : ("[" ++ text ++ "]").toList = '[' :: (text.toList ++ [']']) := by
    simp
  have hfront : '[' ∉ text.toList ++ [']'] := by
    simpa using h.1
  have hrev : ']' ∉ text.toList.reverse := fun hmem => h.2 (List.mem_reverse.1 hmem)
  rw [trimBrackets, hlist, List.dropWhile_cons_of_pos (by simp), dropWhile_of_notMem hfront,
    List.reverse_append, List.reverse_singleton, List.singleton_append,
    List.dropWhile_cons_of_pos (by simp), dropWhile_of_notMem hrev, List.reverse_reverse,
    String.ofList_toList]

/-- What a hostname resolves to is accepted if none of it is denied. -/
theorem resolveHost_ok_iff {host : String} :
    (∃ ip, resolveHost toSocketAddrs url host = .ok ip ∧ isDeniedIp ip = false) ↔
      (toSocketAddrs host).toOption.getD [] ≠ [] ∧
        ∀ ip ∈ (toSocketAddrs host).toOption.getD [], ¬ Forbidden ip := by
  simp only [← isDeniedIp_iff, Bool.not_eq_true]
  cases hr : toSocketAddrs host with
  | error e =>
    refine iff_of_false ?_ fun h => h.1 rfl
    rintro ⟨ip, h, -⟩
    simp only [resolveHost, hr, Except.mapError, bind, Except.bind, reduceCtorEq] at h
  | ok addrs =>
    have hok : (Except.ok addrs : Except String _).toOption.getD [] = addrs := rfl
    rw [hok]
    cases addrs with
    | nil =>
      refine iff_of_false ?_ fun h => h.1 rfl
      rintro ⟨ip, h, -⟩
      simp only [resolveHost, hr, Except.mapError, bind, Except.bind] at h
      cases h
    | cons first rest =>
      cases hfind : (first :: rest).find? isDeniedIp with
      | some ip =>
        have hdenied := List.find?_some hfind
        refine iff_of_false ?_ fun h => ?_
        · rintro ⟨ip', h, -⟩
          simp only [resolveHost, hr, hfind, Except.mapError, bind, Except.bind] at h
          cases h
        · rw [h.2 ip (List.mem_of_find?_eq_some hfind)] at hdenied
          cases hdenied
      | none =>
        have hnone : ∀ ip ∈ first :: rest, isDeniedIp ip = false := fun ip hip =>
          Bool.eq_false_of_not_eq_true (List.find?_eq_none.1 hfind ip hip)
        refine iff_of_true ⟨first, ?_, hnone first List.mem_cons_self⟩ ⟨by simp, hnone⟩
        simp only [resolveHost, hr, hfind, Except.mapError, bind, Except.bind]
        rfl

theorem checkEndpointSsrf_ok : checkEndpointSsrf U toSocketAddrs url = .ok () ↔
    ∃ host, httpHost U url = some host ∧
      ∃ ip, lookupHost toSocketAddrs url (trimBrackets (U.hostStr host)) = .ok ip ∧
        isDeniedIp ip = false := by
  unfold checkEndpointSsrf httpHost
  cases hparse : U.parse url with
  | error e => simp [Except.mapError, bind, Except.bind]
  | ok parsed =>
    obtain ⟨scheme, host⟩ := parsed
    simp only [Except.mapError, bind, Except.bind]
    by_cases hscheme : scheme = "https" ∨ scheme = "http"
    · rw [if_neg fun h => hscheme.elim h.1 h.2, if_pos hscheme]
      cases host with
      | none => simp [throw, throwThe, MonadExceptOf.throw]
      | some host =>
        cases hlook : lookupHost toSocketAddrs url (trimBrackets (U.hostStr host)) with
        | error e => simp [hlook]
        | ok ip => cases hip : isDeniedIp ip <;> simp [hlook, hip, throw, throwThe, pure, Except.pure,
            MonadExceptOf.throw]
    · rw [if_pos (not_or.1 hscheme), if_neg hscheme]
      simp [throw, throwThe, MonadExceptOf.throw]

/-- An address that is written out. -/
theorem lookupHost_literal {text : String} {ip : IpAddr} (h : parseIpAddr text = some ip) :
    (∃ ip', lookupHost toSocketAddrs url text = .ok ip' ∧ isDeniedIp ip' = false) ↔
      ¬ Forbidden ip := by
  rw [← isDeniedIp_iff, Bool.not_eq_true, lookupHost, h]
  simp

/-- **The check accepts exactly the http and https URLs whose host has addresses, none of them
forbidden.** -/
theorem checkEndpointSsrf_ok_iff (hU : U.Lawful) :
    checkEndpointSsrf U toSocketAddrs url = .ok () ↔
      denoted U toSocketAddrs url ≠ [] ∧ ∀ ip ∈ denoted U toSocketAddrs url, ¬ Forbidden ip := by
  rw [checkEndpointSsrf_ok, denoted]
  cases hhost : httpHost U url with
  | none => simp
  | some host =>
    obtain ⟨scheme, hparse, hscheme⟩ : ∃ scheme, U.parse url = .ok ⟨scheme, some host⟩ ∧
        (scheme = "https" ∨ scheme = "http") := by
      unfold httpHost at hhost
      split at hhost
      · rename_i scheme host hparse
        obtain ⟨hscheme, rfl⟩ := Option.ite_none_right_eq_some.1 hhost
        exact ⟨scheme, hparse, hscheme⟩
      · cases hhost
    have htext := hU url scheme host hparse hscheme
    simp only [Option.some.injEq, exists_eq_left', Option.elim]
    cases host with
    | ipv4 a =>
      obtain ⟨hread, hclean⟩ := htext
      rw [trimBrackets_of_noBrackets hclean, lookupHost_literal hread]
      simp [Host.addrs]
    | ipv6 a =>
      obtain ⟨inner, hinner, hread, hclean⟩ := htext
      rw [hinner, trimBrackets_brackets hclean, lookupHost_literal hread]
      simp [Host.addrs]
    | domain name =>
      obtain ⟨hname, hnone, hclean⟩ := htext
      have hlook : lookupHost toSocketAddrs url name = resolveHost toSocketAddrs url name := by
        rw [lookupHost, hnone]
      rw [hname, trimBrackets_of_noBrackets hclean, hlook]
      exact resolveHost_ok_iff

/-- **An accepted endpoint leads to no forbidden address exactly when its host has no IPv6 address
that carries a forbidden IPv4 address.** -/
theorem guards_iff_noneCarried (hU : U.Lawful) (embedded : Ipv6Addr → Option Ipv4Addr) :
    Guards embedded U toSocketAddrs url ↔ NoneCarried embedded U toSocketAddrs url := by
  rw [Guards, NoneCarried, checkEndpointSsrf_ok_iff hU]
  constructor
  · intro h hclean a b ha hb
    exact h ⟨List.ne_nil_of_mem ha, hclean⟩ _ ha _ (.embedded hb)
  · rintro h ⟨-, hclean⟩ ip hip ip' hreach
    cases hreach with
    | itself => exact hclean ip hip
    | embedded hb => exact h hclean _ _ hip hb

end

/-! ### The loopback address, carried -/

/-- It knows two endpoints. -/
def twoUrls : UrlLib where
  parse url :=
    if url = "https://plc.directory" then .ok ⟨"https", some (.domain "plc.directory")⟩
    else if url = "http://[::ffff:127.0.0.1]:2582" then
      .ok ⟨"http", some (.ipv6 ⟨0, 0, 0, 0, 0, 0xffff, 0x7f00, 1⟩)⟩
    else .error "relative URL without a base"
  hostStr
    | .domain name => name
    | .ipv4 a => a.display
    | .ipv6 _ => "[::ffff:7f00:1]"

theorem lawful_twoUrls : twoUrls.Lawful := by
  intro url scheme host hparse _
  simp only [twoUrls] at hparse
  split at hparse
  · cases hparse
    exact ⟨rfl, by decide +kernel, by decide, by decide⟩
  · split at hparse
    · cases hparse
      exact ⟨"::ffff:7f00:1", by decide, by decide +kernel, by decide, by decide⟩
    · cases hparse

/-- A directory with addresses of its own, of both kinds. -/
theorem guards_plcDirectory : Guards Ipv6Addr.toIpv4Mapped twoUrls
    (fun _ => .ok [.v4 ⟨104, 18, 6, 49⟩, .v6 ⟨0x2606, 0x4700, 0, 0, 0, 0, 0x6812, 0x631⟩])
    "https://plc.directory" := by
  refine (guards_iff_noneCarried lawful_twoUrls Ipv6Addr.toIpv4Mapped).2 fun _ a b ha hb => ?_
  obtain rfl : a = ⟨0x2606, 0x4700, 0, 0, 0, 0, 0x6812, 0x631⟩ := by
    simpa [denoted, httpHost, twoUrls, Host.addrs, Except.toOption] using ha
  cases hb

/-- `::ffff:127.0.0.1` is let through. -/
theorem mapped_loopback_accepted : ¬ ∀ (U : UrlLib), U.Lawful →
    ∀ toSocketAddrs url, Guards Ipv6Addr.toIpv4Mapped U toSocketAddrs url := by
  intro hall
  have hcheck : checkEndpointSsrf twoUrls (fun _ => .ok []) "http://[::ffff:127.0.0.1]:2582" =
      .ok () := by decide +kernel
  refine hall twoUrls lawful_twoUrls _ _ hcheck (.v6 ⟨0, 0, 0, 0, 0, 0xffff, 0x7f00, 1⟩) ?_
    (.v4 ⟨127, 0, 0, 1⟩) (.embedded (by decide)) (.inl rfl)
  simp [denoted, httpHost, twoUrls, Host.addrs]

end CacosPds.Plc
