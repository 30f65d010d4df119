import CacosPds.Lib.Sha2
import CacosPds.Lib.Stages
import CacosPds.Types.Basic
/-!
# Service tokens (`auth/verifier/service_jwt.rs`, `auth/verifier/bearer.rs`)

| here | there |
| --- | --- |
| `verifyServiceJwt` | `verify_service_jwt`; `checkSignature` is the part of `verify_service_jwt_token` from the first key on |
| `bearerTokenFromReq` | `bearer_token_from_req` |
| `verifyUserDidToken` | `verify_user_did_token` (`bearer.rs:575-608`) |
| `Credentials`   | `Credentials`, less the two fields of scopes, which a service token leaves empty |
| `Accepts`       | what a token needs, given what makes a signature good |
| `JwtLib`        | **external boundary**: the clock, base64, JSON, SHA-256 and the signature check |

The fresh key is tried only where the cached one answers: a verification that fails ends the call, also
where the fresh key would verify the token (`SignedByIssuer`, `not_accepted_of_failing_key`).
-/
namespace CacosPds.Account

open Stages

structure ServiceJwtOpts where
  aud : Option String
  iss : Option (List String)

structure VerifiedServiceJwt where
  aud : String
  iss : String
  deriving DecidableEq

structure RawServiceJwtPayload where
  iss : String
  aud : String
  exp : Nat

structure JwtLib where
  nowSecs : Nat
  /-- `Base64UrlUnpadded::decode_vec`. -/
  decodeVec : String → Except String Bytes
  /-- `serde_json::from_slice`. -/
  fromSlice : Bytes → Except String RawServiceJwtPayload
  sha256 : Bytes → Bytes
  /-- By key, digest and signature. -/
  verifySignatureDigest : String → Bytes → Bytes → Except String Bool

/-- The key of an issuer, by DID and whether to refresh it. -/
abbrev SigningKeyResolver := String → Bool → Except String String

/-- `bail!` where a condition fails. -/
def ensure {ε : Type} (p : Bool) (e : ε) : Except ε Unit := if p then .ok () else .error e

theorem ensure_ok {ε : Type} {p : Bool} {e : ε} {u : Unit} : ensure p e = .ok u ↔ p = true := by
  cases p <;> simp [ensure]

section

variable (L : JwtLib)

def parsePayload (b64 : String) : Except String RawServiceJwtPayload := do
  L.fromSlice (← L.decodeVec b64)

def verifySignatureWithKey (digest sig : Bytes) (key : String) : Except String Bool :=
  (L.verifySignatureDigest key digest sig).mapError
    ("BadJwtSignature: could not verify jwt signature: " ++ ·)

/-- A signature that the issuer's key does not verify is tried with its fresh one. -/
def checkSignature (getSigningKey : SigningKeyResolver) (digest sig : Bytes) (iss : String) :
    Except String Bool := do
  let signingKey ← getSigningKey iss false
  let validSig ← verifySignatureWithKey L digest sig signingKey
  if validSig then return true
  else
    let freshSigningKey ← getSigningKey iss true
    if freshSigningKey ≠ signingKey then verifySignatureWithKey L digest sig freshSigningKey
    else return false

/-- The bytes that are signed. -/
def signingInput (header payload : String) : Bytes :=
  (header ++ "." ++ payload).toUTF8.toList

def verifyServiceJwtToken (jwt : String) (ownDid : Option String)
    (getSigningKey : SigningKeyResolver) : Except String RawServiceJwtPayload :=
  match (jwt.toList.splitOn '.').map String.ofList with
  | [header, parts1, sig] => do
    let payload ← parsePayload L parts1
    ensure (L.nowSecs ≤ payload.exp) "JwtExpired: jwt expired"
    ensure (ownDid.all (payload.aud = ·))
      "BadJwtAudience: jwt audience does not match service did"
    let sigBytes ← L.decodeVec sig
    let validSig ←
      checkSignature L getSigningKey (L.sha256 (signingInput header parts1)) sigBytes payload.iss
    ensure validSig "BadJwtSignature: jwt signature does not match jwt issuer"
    return payload
  | _ => .error "BadJwt: poorly formatted jwt"

/-- An issuer has a key only if it is listed, where there is a list. -/
def trusted (iss : Option (List String)) (getSigningKey : SigningKeyResolver) :
    SigningKeyResolver := fun i forceRefresh => do
  ensure (iss.all (i ∈ ·)) "UntrustedIss: Untrusted issuer"
  getSigningKey i forceRefresh

def verifyServiceJwt (jwt : String) (opts : ServiceJwtOpts) (getSigningKey : SigningKeyResolver) :
    Except String VerifiedServiceJwt := do
  let payload ← verifyServiceJwtToken L jwt opts.aud (trusted opts.iss getSigningKey)
  return ⟨payload.aud, payload.iss⟩

end

/-! ## When a token is accepted -/

/-- The signature of an issuer's token, by digest and signature. -/
abbrev SignatureCheck := Bytes → Bytes → String → Prop

/-- The cached key verifies the signature, or it does not and the fresh one does. -/
def SignedByIssuer (L : JwtLib) (getSigningKey : SigningKeyResolver) : SignatureCheck :=
  fun digest sig iss => ∃ cached, getSigningKey iss false = .ok cached ∧
    (L.verifySignatureDigest cached digest sig = .ok true ∨
      L.verifySignatureDigest cached digest sig = .ok false ∧ ∃ fresh,
        getSigningKey iss true = .ok fresh ∧ L.verifySignatureDigest fresh digest sig = .ok true)

/-- The same with no regard to why the cached key does not verify. -/
def SignedByEitherKey (L : JwtLib) (getSigningKey : SigningKeyResolver) : SignatureCheck :=
  fun digest sig iss => ∃ cached, getSigningKey iss false = .ok cached ∧
    (L.verifySignatureDigest cached digest sig = .ok true ∨ ∃ fresh,
      getSigningKey iss true = .ok fresh ∧ L.verifySignatureDigest fresh digest sig = .ok true)

structure Accepts (L : JwtLib) (signed : SignatureCheck) (jwt : String) (opts : ServiceJwtOpts)
    (header parts1 sig : String) (payload : RawServiceJwtPayload) : Prop where
  segments : (jwt.toList.splitOn '.').map String.ofList = [header, parts1, sig]
  decodes : parsePayload L parts1 = .ok payload
  unexpired : L.nowSecs ≤ payload.exp
  audience : ∀ aud, opts.aud = some aud → payload.aud = aud
  issuer : ∀ listed, opts.iss = some listed → payload.iss ∈ listed
  signature : ∃ sigBytes, L.decodeVec sig = .ok sigBytes ∧
    signed (L.sha256 (signingInput header parts1)) sigBytes payload.iss

section

variable {L : JwtLib} {getSigningKey : SigningKeyResolver} {digest sig : Bytes} {iss : String}

theorem verifySignatureWithKey_ok {key : String} {valid : Bool} :
    verifySignatureWithKey L digest sig key = .ok valid ↔
      L.verifySignatureDigest key digest sig = .ok valid :=
  except_mapError_ok

/-- The fresh key is consulted after a `false`; if it is the cached one, it says the same. -/
theorem checkSignature_ok :
    checkSignature L getSigningKey digest sig iss = .ok true ↔
      SignedByIssuer L getSigningKey digest sig iss := by
  unfold checkSignature SignedByIssuer
  simp only [except_bind_ok]
  refine exists_congr fun cached => and_congr_right fun hcached => ?_
  constructor
  · rintro ⟨valid, hvalid, hrest⟩
    rw [verifySignatureWithKey_ok] at hvalid
    cases valid with
    | true => exact .inl hvalid
    | false =>
      obtain ⟨fresh, hfresh, hrest⟩ := except_bind_ok.1 hrest
      split at hrest
      · exact .inr ⟨hvalid, fresh, hfresh, verifySignatureWithKey_ok.1 hrest⟩
      · cases hrest
  · rintro (hvalid | ⟨hvalid, fresh, hfresh, hverifies⟩)
    · exact ⟨true, verifySignatureWithKey_ok.2 hvalid, rfl⟩
    · have hne : fresh ≠ cached := by
        rintro rfl
        rw [hvalid] at hverifies
        cases hverifies
      refine ⟨false, verifySignatureWithKey_ok.2 hvalid, except_bind_ok.2 ⟨fresh, hfresh, ?_⟩⟩
      rw [if_pos hne, verifySignatureWithKey_ok]
      exact hverifies

theorem trusted_ok {listed : Option (List String)} {forceRefresh : Bool} {key : String} :
    trusted listed getSigningKey iss forceRefresh = .ok key ↔
      (∀ l, listed = some l → iss ∈ l) ∧ getSigningKey iss forceRefresh = .ok key := by
  unfold trusted
  simp only [except_bind_ok, ensure_ok, exists_and_left, exists_const]
  refine and_congr_left fun _ => ?_
  cases listed <;> simp

theorem signedByIssuer_trusted {listed : Option (List String)} :
    SignedByIssuer L (trusted listed getSigningKey) digest sig iss ↔
      (∀ l, listed = some l → iss ∈ l) ∧ SignedByIssuer L getSigningKey digest sig iss := by
  unfold SignedByIssuer
  simp only [trusted_ok]
  constructor
  · rintro ⟨cached, ⟨hlisted, hcached⟩, hvalid | ⟨hvalid, fresh, ⟨-, hfresh⟩, hverifies⟩⟩
    · exact ⟨hlisted, cached, hcached, .inl hvalid⟩
    · exact ⟨hlisted, cached, hcached, .inr ⟨hvalid, fresh, hfresh, hverifies⟩⟩
  · rintro ⟨hlisted, cached, hcached, hvalid | ⟨hvalid, fresh, hfresh, hverifies⟩⟩
    · exact ⟨cached, ⟨hlisted, hcached⟩, .inl hvalid⟩
    · exact ⟨cached, ⟨hlisted, hcached⟩, .inr ⟨hvalid, fresh, ⟨hlisted, hfresh⟩, hverifies⟩⟩

theorem verifyServiceJwtToken_ok {jwt : String} {ownDid : Option String}
    {payload : RawServiceJwtPayload} :
    verifyServiceJwtToken L jwt ownDid getSigningKey = .ok payload ↔ ∃ header parts1 sig,
      Accepts L (SignedByIssuer L getSigningKey) jwt ⟨ownDid, none⟩ header parts1 sig payload := by
  constructor
  · intro h
    unfold verifyServiceJwtToken at h
    split at h
    · rename_i header parts1 sig hsegments
      simp only [except_bind_ok, ensure_ok] at h
      obtain ⟨p, hp, -, hexp, -, haud, sigBytes, hsig, valid, hvalid, -, rfl, hret⟩ := h
      cases hret
      refine ⟨header, parts1, sig, hsegments, hp, of_decide_eq_true hexp, ?_, (fun _ h => nomatch h),
        sigBytes, hsig, checkSignature_ok.1 hvalid⟩
      rintro aud (rfl : ownDid = some aud)
      exact of_decide_eq_true haud
    · cases h
  · rintro ⟨header, parts1, sig, hsegments, hp, hexp, haud, -, sigBytes, hsig, hsigned⟩
    unfold verifyServiceJwtToken
    rw [hsegments]
    simp only [except_bind_ok, ensure_ok]
    refine ⟨payload, hp, (), decide_eq_true hexp, (), ?_, sigBytes, hsig, true,
      checkSignature_ok.2 hsigned, (), rfl, rfl⟩
    cases ownDid with
    | none => rfl
    | some aud => exact decide_eq_true (haud aud rfl)

/-- **A token is accepted exactly when everything about it holds and the issuer signed it.** -/
theorem verifyServiceJwt_ok (L : JwtLib) (jwt : String) (opts : ServiceJwtOpts)
    (getSigningKey : SigningKeyResolver) (v : VerifiedServiceJwt) :
    verifyServiceJwt L jwt opts getSigningKey = .ok v ↔ ∃ header parts1 sig payload,
      Accepts L (SignedByIssuer L getSigningKey) jwt opts header parts1 sig payload ∧
        v = ⟨payload.aud, payload.iss⟩ := by
  unfold verifyServiceJwt
  simp only [except_bind_ok, verifyServiceJwtToken_ok]
  constructor
  · rintro ⟨payload, ⟨header, parts1, sig, h⟩, hv⟩
    cases hv
    obtain ⟨sigBytes, hsig, hsigned⟩ := h.signature
    obtain ⟨hlisted, hsigned⟩ := signedByIssuer_trusted.1 hsigned
    exact ⟨header, parts1, sig, payload,
      ⟨h.segments, h.decodes, h.unexpired, h.audience, hlisted, sigBytes, hsig, hsigned⟩, rfl⟩
  · rintro ⟨header, parts1, sig, payload, h, rfl⟩
    obtain ⟨sigBytes, hsig, hsigned⟩ := h.signature
    exact ⟨payload, ⟨header, parts1, sig, h.segments, h.decodes, h.unexpired, h.audience,
      (fun _ h => nomatch h), sigBytes, hsig, signedByIssuer_trusted.2 ⟨h.issuer, hsigned⟩⟩, rfl⟩

end

/-! ## A key that was rotated -/

def urlValue (c : Char) : Option Nat :=
  let n := c.toNat
  if 65 ≤ n ∧ n ≤ 90 then some (n - 65)
  else if 97 ≤ n ∧ n ≤ 122 then some (n - 71)
  else if 48 ≤ n ∧ n ≤ 57 then some (n + 4)
  else if n = 45 then some 62
  else if n = 95 then some 63
  else none

/-- Four characters are three bytes; of the last two or three the bits left over are zero. -/
def decodeUrl : List Char → Option Bytes
  | [] => some []
  | [_] => none
  | [a, b] => do
    let n := (← urlValue a) * 64 + (← urlValue b)
    if n % 16 = 0 then some [UInt8.ofNat (n / 16)] else none
  | [a, b, c] => do
    let n := ((← urlValue a) * 64 + (← urlValue b)) * 64 + (← urlValue c)
    if n % 4 = 0 then some [UInt8.ofNat (n / 1024), UInt8.ofNat (n / 4)] else none
  | a :: b :: c :: d :: rest => do
    let n := (((← urlValue a) * 64 + (← urlValue b)) * 64 + (← urlValue c)) * 64 + (← urlValue d)
    let bytes ← decodeUrl rest
    return UInt8.ofNat (n / 65536) :: UInt8.ofNat (n / 256) :: UInt8.ofNat n :: bytes

def issuedPayload : RawServiceJwtPayload := ⟨"did:plc:issuer", "did:web:pds.test", 60⟩

def issuedHeader : String := "eyJ0eXAiOiJKV1QiLCJhbGciOiJFUzI1NksifQ"

/-- Base64url of `issuedJson`. -/
def issuedParts1 : String :=
  "eyJpc3MiOiJkaWQ6cGxjOmlzc3VlciIsImF1ZCI6ImRpZDp3ZWI6cGRzLnRlc3QiLCJleHAiOjYwfQ"

def issuedJson : String :=
  "\x7b\"iss\":\"did:plc:issuer\",\"aud\":\"did:web:pds.test\",\"exp\":60\x7d"

/-- 64 bytes, as a signature has. -/
def issuedSig : String :=
  "AQIDBAUGBwgJCgsMDQ4PEBESExQVFhcYGRobHB0eHyAhIiMkJSYnKCkqKywtLi8wMTIzNDU2Nzg5Ojs8PT4_QA"

def issuedJwt : String := issuedHeader ++ "." ++ issuedParts1 ++ "." ++ issuedSig

theorem segments_issuedJwt : (issuedJwt.toList.splitOn '.').map String.ofList =
    [issuedHeader, issuedParts1, issuedSig] := by
  have htext : issuedJwt.toList =
      ['.'].intercalate [issuedHeader.toList, issuedParts1.toList, issuedSig.toList] := by
    simp [issuedJwt, List.intercalate, String.toList_append]
  have hnone : ∀ part ∈ [issuedHeader.toList, issuedParts1.toList, issuedSig.toList], '.' ∉ part := by
    decide +kernel
  rw [htext, List.splitOn_intercalate '.' hnone (List.cons_ne_nil _ _)]
  simp only [List.map_cons, List.map_nil, String.ofList_toList]

/-- The key that the issuer has now; the one before is of a kind that no signature is checked with. -/
def freshKey : String := "did:key:zQ3shFresh"

def rotatedLib : JwtLib where
  nowSecs := 0
  decodeVec text := (decodeUrl text.toList).elim (.error "invalid Base64 encoding") .ok
  fromSlice bytes :=
    if bytes = issuedJson.toUTF8.toList then .ok issuedPayload else .error "invalid payload"
  sha256 := Sha2.digest
  verifySignatureDigest key _ _ :=
    if key = freshKey then .ok true else .error "Unsupported key type"

def rotatedKeys : SigningKeyResolver := fun _ forceRefresh =>
  .ok (if forceRefresh then freshKey else "did:key:z6MkStale")

theorem decodeVec_rotatedLib {text : String} {bytes : Bytes}
    (h : decodeUrl text.toList = some bytes) : rotatedLib.decodeVec text = .ok bytes := by
  show (decodeUrl text.toList).elim _ _ = _
  rw [h]
  rfl

theorem parsePayload_issued : parsePayload rotatedLib issuedParts1 = .ok issuedPayload := by
  have hdecode : rotatedLib.decodeVec issuedParts1 = .ok issuedJson.toUTF8.toList :=
    decodeVec_rotatedLib (by decide +kernel)
  rw [parsePayload, hdecode]
  exact if_pos rfl

/-- The fresh key verifies the token; it is refused for the stale one. -/
theorem not_accepted_of_failing_key :
    ¬ ∀ (L : JwtLib) (jwt : String) (opts : ServiceJwtOpts) (getSigningKey : SigningKeyResolver),
      (∃ v, verifyServiceJwt L jwt opts getSigningKey = .ok v) ↔ ∃ header parts1 sig payload,
        Accepts L (SignedByEitherKey L getSigningKey) jwt opts header parts1 sig payload := by
  intro hall
  have hsig : (decodeUrl issuedSig.toList).map List.length = some 64 := by decide +kernel
  obtain ⟨sigBytes, hdecode, -⟩ := Option.map_eq_some_iff.1 hsig
  obtain ⟨v, hv⟩ := (hall rotatedLib issuedJwt ⟨none, none⟩ rotatedKeys).2 ⟨issuedHeader,
    issuedParts1, issuedSig, issuedPayload, segments_issuedJwt, parsePayload_issued, by decide,
    fun _ h => (by cases h), fun _ h => (by cases h), sigBytes, decodeVec_rotatedLib hdecode,
    "did:key:z6MkStale", rfl, .inr ⟨freshKey, rfl, rfl⟩⟩
  -- with the stale key, the check of a signature ends in an error
  obtain ⟨payload, hpayload, -⟩ := except_bind_ok.1 hv
  obtain ⟨header, parts1, sig, haccepts⟩ := verifyServiceJwtToken_ok.1 hpayload
  obtain ⟨_, -, hsigned⟩ := haccepts.signature
  obtain ⟨-, cached, hcached, hvalid⟩ := signedByIssuer_trusted.1 hsigned
  cases hcached
  rcases hvalid with hvalid | ⟨hvalid, -⟩ <;> cases hvalid

/-! ## The guard of a user's service token -/

/-- The errors of the guard. -/
inductive AuthError where
  | badJwt (err : String)
  | authRequired (what : String)
  | internalServerError (what : String)
  deriving DecidableEq

/-- The `Display` text. -/
def AuthError.display : AuthError → String
  | .badJwt err => "BadJwt: " ++ "`" ++ err ++ "`"
  | .authRequired what => "AuthRequired: " ++ "`" ++ what ++ "`"
  | .internalServerError what => "InternalServerError: " ++ "`" ++ what ++ "`"

structure Credentials where
  type : String
  did : Option String
  audience : Option String
  tokenId : Option String
  aud : Option String
  iss : Option String
  isPrivileged : Option Bool
  deriving DecidableEq

structure AccessOutput where
  credentials : Option Credentials
  artifacts : Option String
  deriving DecidableEq

def bearer : String := "Bearer "

def isBearer (header : String) : Bool := bearer.toList.isPrefixOf header.toList

def bearerTokenFromReq : Option String → Option String
  | none => none
  | some header =>
    if isBearer header then some (String.ofList (header.toList.drop bearer.toList.length)) else none

/-- What is registered at startup, with the libraries. -/
structure Verifier where
  lib : JwtLib
  /-- `SIGNING_KEY_RESOLVER`. -/
  resolver : Option SigningKeyResolver
  /-- `service_did()`. -/
  serviceDid : String

def userDidCredentials (payload : VerifiedServiceJwt) : Credentials where
  type := "user_did"
  did := none
  audience := none
  tokenId := none
  aud := some payload.aud
  iss := some payload.iss
  isPrivileged := none

/-- The token is verified for the service's own DID, whoever issued it. -/
def Verifier.verify (V : Verifier) (resolver : SigningKeyResolver) (token : String) :
    Except String VerifiedServiceJwt :=
  verifyServiceJwt V.lib token ⟨some V.serviceDid, none⟩ resolver

def verifyUserDidToken (V : Verifier) (header : Option String) : Except AuthError AccessOutput :=
  match bearerTokenFromReq header with
  | none => .error (.authRequired "AuthMissing")
  | some token =>
    match V.resolver with
    | none => .error (.internalServerError "signing key resolver is not registered")
    | some resolver => do
      let payload ← (V.verify resolver token).mapError .badJwt
      return ⟨some (userDidCredentials payload), none⟩

/-- The header carries a token that the verifier accepts. -/
def Verified (V : Verifier) (header : Option String) (payload : VerifiedServiceJwt) : Prop :=
  ∃ token resolver, bearerTokenFromReq header = some token ∧ V.resolver = some resolver ∧
    V.verify resolver token = .ok payload

theorem verifyUserDidToken_ok {V : Verifier} {header : Option String} {access : AccessOutput} :
    verifyUserDidToken V header = .ok access ↔
      ∃ payload, Verified V header payload ∧ access = ⟨some (userDidCredentials payload), none⟩ := by
  unfold verifyUserDidToken Verified
  cases bearerTokenFromReq header with
  | none => simp
  | some token =>
    cases V.resolver with
    | none => simp
    | some resolver =>
      simp only [except_bind_ok, except_mapError_ok, pure, Except.pure, Except.ok.injEq,
        Option.some.injEq]
      constructor
      · rintro ⟨payload, hv, rfl⟩
        exact ⟨payload, ⟨token, resolver, rfl, rfl, hv⟩, rfl⟩
      · rintro ⟨payload, ⟨_, _, rfl, rfl, hv⟩, rfl⟩
        exact ⟨payload, hv, rfl⟩

/-- A header presents one token at most. -/
theorem Verified.unique {V : Verifier} {header : Option String} {p q : VerifiedServiceJwt}
    (hp : Verified V header p) (hq : Verified V header q) : p = q := by
  obtain ⟨token, resolver, ht, hr, hv⟩ := hp
  obtain ⟨token', resolver', ht', hr', hv'⟩ := hq
  obtain rfl := Option.some.inj (ht.symm.trans ht')
  obtain rfl := Option.some.inj (hr.symm.trans hr')
  exact Except.ok.inj (hv.symm.trans hv')

end CacosPds.Account
