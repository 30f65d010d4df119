import Mathlib.Data.List.DropRight
import CacosPds.Server.SignUp
/-!
# Admin tokens (`account/helpers/admin_tokens.rs`, `auth/verifier/bearer.rs`, `xrpc/auth_extractors.rs`)

| here | there |
| --- | --- |
| `Environment`   | the variables, in the order of `env::vars`; all are Unicode (it panics on others) |
| `fromEnv`       | `AdminTokenRegistry::from_env`, `lookup` the first entry that matches |
| `parseBasicAuth`, `verifyAdminToken` | `parse_basic_auth`, `verify_admin_token` (`bearer.rs:217, 557`) |
| `requireAdmin`  | the extractors `Require*Admin` over `require_admin_scope` |
| `Base64`        | **external boundary**: `Base64::decode_vec` |

A variable is entered once for each name in it (`seen`), but looked up is the display name, and two
names may display as one. With one secret too the first entry decides, and the order of the
environment which that is.
-/
namespace CacosPds.Server.Admin

/-! ## Texts -/

def stripPrefix (front s : String) : Option String :=
  if front.toList.isPrefixOf s.toList then some (String.ofList (s.toList.drop front.toList.length))
  else none

def stripSuffix (back s : String) : Option String :=
  if back.toList.isSuffixOf s.toList then
    some (String.ofList (s.toList.take (s.toList.length - back.toList.length)))
  else none

/-- The property White_Space. -/
def isWhitespace (c : Char) : Bool :=
  (9 ≤ c.toNat && c.toNat ≤ 13) || (0x2000 ≤ c.toNat && c.toNat ≤ 0x200A) ||
    c.toNat ∈ [0x20, 0x85, 0xA0, 0x1680, 0x2028, 0x2029, 0x202F, 0x205F, 0x3000]

def splitWhitespace (s : String) : List String :=
  ((s.toList.splitOnP isWhitespace).filter (· ≠ [])).map String.ofList

def trim (s : String) : String :=
  String.ofList ((s.toList.dropWhile isWhitespace).rdropWhile isWhitespace)

def splitOnce (sep : Char) (s : String) : Option (String × String) :=
  match s.toList.dropWhile (· ≠ sep) with
  | [] => none
  | _ :: rest => some (String.ofList (s.toList.takeWhile (· ≠ sep)), String.ofList rest)

def toAsciiLowercase (s : String) : String := String.ofList (s.toList.map Char.toLower)

/-! ## Scopes -/

inductive AdminScope where
  | inviteAdmin
  | accountAdmin
  | takedownAdmin
  | wildcard
  deriving DecidableEq

def AdminScope.asStr : AdminScope → String
  | .inviteAdmin => "InviteAdmin"
  | .accountAdmin => "AccountAdmin"
  | .takedownAdmin => "TakedownAdmin"
  | .wildcard => "Wildcard"

structure AdminScopeSet where
  scopes : List AdminScope
  deriving DecidableEq

namespace AdminScopeSet

def wildcard : AdminScopeSet := ⟨[.wildcard]⟩

/-- One of the names; another one is none. -/
def scopeOf (token : String) : Option AdminScope :=
  match toAsciiLowercase token with
  | "inviteadmin" => some .inviteAdmin
  | "accountadmin" => some .accountAdmin
  | "takedownadmin" => some .takedownAdmin
  | "wildcard" | "*" => some .wildcard
  | _ => none

def fromEnvValue (raw : String) : AdminScopeSet :=
  ⟨(raw.toList.splitOn ',').filterMap fun token =>
    let trimmed := trim (String.ofList token)
    if trimmed = "" then none else scopeOf trimmed⟩

def contains (s : AdminScopeSet) (scope : AdminScope) : Bool :=
  s.scopes.any fun granted => granted = scope || granted = .wildcard

end AdminScopeSet

/-! ## The registry -/

structure Environment where
  vars : List (String × String)
  nodup : (vars.map Prod.fst).Nodup

/-- `env::var`. -/
def Environment.var (E : Environment) (key : String) : Option String := E.vars.lookup key

structure AdminTokenEntry where
  name : String
  scopes : AdminScopeSet
  secret : String
  deriving DecidableEq

/-- The `<NAME>` of a variable that is a secret. -/
def secretName (key : String) : Option String :=
  (stripPrefix "PDS_ADMIN_TOKEN_" key).bind (stripSuffix "_SECRET")

section

variable (E : Environment)

def displayName (name : String) : String :=
  ((E.var ("PDS_ADMIN_TOKEN_" ++ name ++ "_NAME")).filter (· ≠ "")).getD name

def scopesOf (name : String) : AdminScopeSet :=
  (((E.var ("PDS_ADMIN_TOKEN_" ++ name ++ "_SCOPES")).filter (· ≠ "")).map
    AdminScopeSet.fromEnvValue).getD .wildcard

def namedEntry (name secret : String) : AdminTokenEntry :=
  ⟨displayName E name, scopesOf E name, secret⟩

/-- One round of the loop: the entries, and the names seen. -/
def enterVar (acc : List AdminTokenEntry × List String) (kv : String × String) :
    List AdminTokenEntry × List String :=
  match secretName kv.1 with
  | none => acc
  | some name =>
    if name = "" ∨ name ∈ acc.2 then acc
    else
      match E.var kv.1 with
      | none => (acc.1, name :: acc.2)
      | some secret =>
        if secret = "" then (acc.1, name :: acc.2)
        else (acc.1 ++ [namedEntry E name secret], name :: acc.2)

def namedEntries : List AdminTokenEntry := (E.vars.foldl (enterVar E) ([], [])).1

def adminPassword : Option String :=
  (E.var "PDS_ADMIN_PASSWORD").orElse fun _ => E.var "PDS_ADMIN_PASS"

def legacyEntry (secret : String) : AdminTokenEntry := ⟨"admin", .wildcard, secret⟩

def fromEnv : List AdminTokenEntry :=
  if namedEntries E = [] then
    (((adminPassword E).filter (· ≠ "")).map legacyEntry).toList
  else namedEntries E

end

def lookup (entries : List AdminTokenEntry) (name presented : String) : Option AdminScopeSet :=
  (entries.find? fun entry => entry.name = name && entry.secret = presented).map (·.scopes)

/-! ## The guard -/

structure Base64 where
  decodeVec : String → Option Bytes

structure BasicAuth where
  username : String
  password : String
  deriving DecidableEq

/-- `str::from_utf8`. -/
def fromUtf8 (bytes : Bytes) : Option String := String.fromUTF8? ⟨bytes.toArray⟩

def parseBasicAuth (B : Base64) (token : String) : Option BasicAuth :=
  match splitWhitespace token with
  | [scheme, b64] =>
    if scheme = "Basic" then do
      let decoded ← B.decodeVec b64
      let parsed ← fromUtf8 decoded
      let (username, password) ← splitOnce ':' parsed
      pure ⟨username, password⟩
    else none
  | _ => none

/-- The fields of `Credentials` that an admin token sets. -/
structure Credentials where
  type : String
  adminScopes : Option AdminScopeSet
  deriving DecidableEq

structure AccessOutput where
  credentials : Option Credentials
  deriving DecidableEq

def verifyAdminToken (B : Base64) (E : Environment) (header : Option String) :
    Except Account.AuthError AccessOutput :=
  match parseBasicAuth B (header.getD "") with
  | none => .error (.authRequired "AuthMissing")
  | some parsed =>
    match lookup (fromEnv E) parsed.username parsed.password with
    | none => .error (.authRequired "BadAuth")
    | some scopes => .ok ⟨some ⟨"admin_token", some scopes⟩⟩

def requireAdminScope (credentials : Option Credentials) (scope : AdminScope) :
    Except ApiError Unit :=
  match credentials.bind Credentials.adminScopes with
  | some scopes =>
    if scopes.contains scope then .ok ()
    else .error (.authRequiredError ("Missing admin scope: " ++ scope.asStr))
  | none => .error (.authRequiredError ("Missing admin scope: " ++ scope.asStr))

/-- `AdminToken::from_request`. -/
def adminToken (B : Base64) (E : Environment) (header : Option Bytes) :
    Except ApiError AccessOutput :=
  (verifyAdminToken B E (authHeader header)).mapError authErrorToApiError

/-- What the three extractors do, with their scope. -/
def requireAdmin (scope : AdminScope) (B : Base64) (E : Environment) (header : Option Bytes) :
    Except ApiError AccessOutput := do
  let access ← adminToken B E header
  requireAdminScope access.credentials scope
  pure access

def requireInviteAdmin := requireAdmin .inviteAdmin
def requireAccountAdmin := requireAdmin .accountAdmin
def requireTakedownAdmin := requireAdmin .takedownAdmin

/-! ## Who is to be admitted -/

/-- The header is `Basic` and the base64 of `name:secret`. -/
def Presents (B : Base64) (header : Option Bytes) (name secret : String) : Prop :=
  ∃ text b64, authHeader header = some text ∧ splitWhitespace text = ["Basic", b64] ∧
    B.decodeVec b64 = some (name ++ ":" ++ secret).toUTF8.data.toList ∧ ':' ∉ name.toList

/-- An entry of a variable `PDS_ADMIN_TOKEN_<NAME>_SECRET`. -/
def Named (E : Environment) (entry : AdminTokenEntry) : Prop :=
  ∃ name secret, name ≠ "" ∧ secret ≠ "" ∧
    ("PDS_ADMIN_TOKEN_" ++ name ++ "_SECRET", secret) ∈ E.vars ∧ entry = namedEntry E name secret

/-- An entry with a name, or the legacy password where there is none. -/
def Configured (E : Environment) (entry : AdminTokenEntry) : Prop :=
  Named E entry ∨ (∀ other, ¬ Named E other) ∧
    ∃ secret, adminPassword E = some secret ∧ secret ≠ "" ∧ entry = legacyEntry secret

/-- The entries with the name and the secret that are presented agree on the scope. -/
def Agree (B : Base64) (E : Environment) (header : Option Bytes) (scope : AdminScope) : Prop :=
  ∀ entry other, Configured E entry → Configured E other →
    Presents B header entry.name entry.secret → other.name = entry.name →
    other.secret = entry.secret → entry.scopes.contains scope = true →
    other.scopes.contains scope = true

/-! ## Texts taken apart -/

/-- The first separator is behind what has none. -/
theorem splitOnce_eq_some {sep : Char} {s t u : String} :
    splitOnce sep s = some (t, u) ↔ s.toList = t.toList ++ sep :: u.toList ∧ sep ∉ t.toList := by
  unfold splitOnce
  constructor
  · intro h
    split at h
    · cases h
    · rename_i c rest hrest
      have hc : c = sep := by
        have hhead := List.head?_dropWhile_not (· ≠ sep) s.toList
        rw [hrest] at hhead
        simpa using hhead
      cases h
      rw [String.toList_ofList, String.toList_ofList]
      refine ⟨?_, fun hmem => ?_⟩
      · have hall := List.takeWhile_append_dropWhile (p := (· ≠ sep)) (l := s.toList)
        rw [hrest, hc] at hall
        exact hall.symm
      · simpa using List.mem_takeWhile_imp hmem
  · rintro ⟨hs, hsep⟩
    have hpos : ∀ c ∈ t.toList, (decide (c ≠ sep)) = true := by
      intro c hc
      exact decide_eq_true fun he => hsep (he ▸ hc)
    have htake : (t.toList ++ sep :: u.toList).takeWhile (· ≠ sep) = t.toList := by
      rw [List.takeWhile_append_of_pos hpos, List.takeWhile_cons_of_neg (by simp), List.append_nil]
    have hdrop : (t.toList ++ sep :: u.toList).dropWhile (· ≠ sep) = sep :: u.toList := by
      rw [List.dropWhile_append_of_pos hpos, List.dropWhile_cons_of_neg (by simp)]
    rw [hs, htake, hdrop]
    simp only [String.ofList_toList]

theorem fromUtf8_eq_some {bytes : Bytes} {s : String} :
    fromUtf8 bytes = some s ↔ bytes = s.toUTF8.data.toList := by
  unfold fromUtf8 String.fromUTF8?
  constructor
  · intro h
    split at h
    · cases h
      rfl
    · cases h
  · rintro rfl
    exact dif_pos s.isValidUTF8

/-! ## The entries of an environment -/

variable {B : Base64} {E F : Environment} {header : Option Bytes} {scope : AdminScope}
  {entry : AdminTokenEntry}

theorem parseBasicAuth_eq_some {token : String} {auth : BasicAuth} :
    parseBasicAuth B token = some auth ↔ ∃ b64, splitWhitespace token = ["Basic", b64] ∧
      B.decodeVec b64 = some (auth.username ++ ":" ++ auth.password).toUTF8.data.toList ∧
      ':' ∉ auth.username.toList := by
  unfold parseBasicAuth
  constructor
  · intro h
    split at h
    · rename_i scheme b64 htokens
      split at h
      · rename_i hscheme
        obtain ⟨decoded, hdecoded, h⟩ := Option.bind_eq_some_iff.1 h
        obtain ⟨parsed, hparsed, h⟩ := Option.bind_eq_some_iff.1 h
        obtain ⟨⟨username, password⟩, hsplit, h⟩ := Option.bind_eq_some_iff.1 h
        cases h
        obtain ⟨hlist, hcolon⟩ := splitOnce_eq_some.1 hsplit
        have hall : parsed = username ++ ":" ++ password := by
          rw [← String.toList_inj, String.toList_append, String.toList_append, hlist,
            List.append_assoc]
          rfl
        refine ⟨b64, hscheme ▸ htokens, ?_, hcolon⟩
        rw [hdecoded, fromUtf8_eq_some.1 hparsed, hall]
      · cases h
    · cases h
  · rintro ⟨b64, htokens, hdecoded, hcolon⟩
    have hsplit : splitOnce ':' (auth.username ++ ":" ++ auth.password) =
        some (auth.username, auth.password) := by
      refine splitOnce_eq_some.2 ⟨?_, hcolon⟩
      rw [String.toList_append, String.toList_append, List.append_assoc]
      rfl
    rw [htokens]
    simp only [if_true, hdecoded, Option.bind_eq_bind, Option.bind_some, fromUtf8_eq_some.2 rfl,
      hsplit]
    rfl

/-- What the header says to the guard. -/
theorem presents_iff {name secret : String} : Presents B header name secret ↔
    parseBasicAuth B ((authHeader header).getD "") = some ⟨name, secret⟩ := by
  rw [parseBasicAuth_eq_some]
  constructor
  · rintro ⟨text, b64, htext, htokens, hrest⟩
    rw [htext]
    exact ⟨b64, htokens, hrest⟩
  · rintro ⟨b64, htokens, hrest⟩
    cases hheader : authHeader header with
    | none =>
      have hempty : splitWhitespace "" = [] := by decide
      rw [hheader, Option.getD_none, hempty] at htokens
      cases htokens
    | some text =>
      rw [hheader] at htokens
      exact ⟨text, b64, hheader, htokens, hrest⟩

/-- A header presents one name and one secret. -/
theorem Presents.unique {name secret name' secret' : String} (h : Presents B header name secret)
    (h' : Presents B header name' secret') : name' = name ∧ secret' = secret := by
  have heq := (presents_iff.1 h').symm.trans (presents_iff.1 h)
  cases heq
  exact ⟨rfl, rfl⟩

/-! ## The first entry decides -/

end CacosPds.Server.Admin
