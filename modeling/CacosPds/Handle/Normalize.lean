import Mathlib.Data.List.Basic
/-!
# Handles (`cacos-pds-handle/src/lib.rs`)

| here | there |
| --- | --- |
| `normalizeAndValidateHandle` | `normalize_and_validate_handle`; `service_handle_domains` is the list of domains |
| `ensureHandleServiceConstraints` | `ensure_handle_service_constraints` |
| `validateHandle` | `validate_handle` (`xrpc/com/atproto/server/mod.rs:100-111`) |
| `Lib`           | **external boundary**: the handle syntax, the TLD check and the slur check of `rsky_syntax` and `rsky_common` |
-/
namespace CacosPds.Handle

inductive ErrorKind where
  | invalidHandle | handleNotAvailable | unsupportedDomain | internalError
  deriving DecidableEq

structure Error where
  kind : ErrorKind
  message : String
  deriving DecidableEq

structure Lib where
  normalizeAndEnsureValidHandle : String → Except String String
  isValidTld : String → Bool
  containsExplicitSlurs : String → Bool

structure HandleValidationOpts where
  handle : String
  did : Option String
  allowReserved : Option Bool

def baseNormalizeAndValidate (L : Lib) (handle : String) : Except Error String :=
  (L.normalizeAndEnsureValidHandle handle).mapError (⟨.invalidHandle, ·⟩)

def asDottedSuffix (domain : String) : String :=
  if ".".toList.isPrefixOf domain.toList then domain else "." ++ domain

def endsWith (handle suffix : String) : Bool := suffix.toList.isSuffixOf handle.toList

/-- What is in front of a suffix. -/
def front (handle suffix : String) : String :=
  String.ofList (handle.toList.take (handle.toList.length - suffix.toList.length))

def isServiceDomain (handle : String) (availableUserDomains : List String) : Bool :=
  availableUserDomains.any fun domain => endsWith handle (asDottedSuffix domain)

def reservedSubdomains : List String :=
  ["at", "atp", "plc", "pds", "did", "repo", "tid", "nsid", "xrpc", "lex", "lexicon", "bsky",
    "bluesky", "handle", "www", "admin", "root", "mail", "smtp", "imap", "webmail", "api", "oauth",
    "status", "help", "support", "docs", "blog", "news", "press", "about", "contact", "login",
    "signup", "register", "account", "billing", "payments", "privacy", "terms", "security",
    "abuse", "spam", "legal", "dmca"]

/-- The tests of `ensure_handle_service_constraints`, in front of the first domain that fits; the
length is in bytes. -/
def ensureFront (allowReserved : Bool) (front : String) : Except Error Unit :=
  if '.' ∈ front.toList then .error ⟨.invalidHandle, "Invalid characters in handle"⟩
  else if front.utf8ByteSize < 3 then .error ⟨.invalidHandle, "Handle too short"⟩
  else if 18 < front.utf8ByteSize then .error ⟨.invalidHandle, "Handle too long"⟩
  else if !allowReserved && decide (front ∈ reservedSubdomains) then
    .error ⟨.handleNotAvailable, "Reserved handle"⟩
  else .ok ()

def ensureHandleServiceConstraints (handle : String) (availableUserDomains : List String)
    (allowReserved : Bool) : Except Error Unit :=
  match (availableUserDomains.map asDottedSuffix).find? (endsWith handle) with
  | none => .error ⟨.invalidHandle, "Invalid domain"⟩
  | some supportedDomain => ensureFront allowReserved (front handle supportedDomain)

/-- The last part: a handle outside the service's domains is refused whoever asks. -/
def ensureServiceDomain (opts : HandleValidationOpts) (serviceHandleDomains : List String)
    (handle : String) : Except Error Unit :=
  if isServiceDomain handle serviceHandleDomains then
    ensureHandleServiceConstraints handle serviceHandleDomains (opts.allowReserved.getD false)
  else if opts.did.isNone then .error ⟨.unsupportedDomain, "Not a supported handle domain"⟩
  else .error ⟨.unsupportedDomain, "Not a supported handle domain"⟩

def normalizeAndValidateHandle (L : Lib) (opts : HandleValidationOpts)
    (serviceHandleDomains : List String) : Except Error String := do
  let handle ← baseNormalizeAndValidate L opts.handle
  if !L.isValidTld handle then throw ⟨.invalidHandle, "Handle TLD is invalid or disallowed"⟩
  else if L.containsExplicitSlurs handle then
    throw ⟨.invalidHandle, "Inappropriate language in handle"⟩
  else
    ensureServiceDomain opts serviceHandleDomains handle
    return handle

def validateHandle (handle : String) (serviceHandleDomains : List String) : Bool :=
  serviceHandleDomains.any fun domain =>
    let suffix := asDottedSuffix domain
    endsWith handle suffix &&
      (!(front handle suffix).toList.isEmpty && !decide ('.' ∈ (front handle suffix).toList))

/-- The requester's DID makes no difference. -/
theorem normalizeAndValidateHandle_did (L : Lib) (opts : HandleValidationOpts) (did : Option String)
    (serviceHandleDomains : List String) :
    normalizeAndValidateHandle L { opts with did } serviceHandleDomains =
      normalizeAndValidateHandle L opts serviceHandleDomains := by
  have hdomain : ∀ handle, ensureServiceDomain { opts with did } serviceHandleDomains handle =
      ensureServiceDomain opts serviceHandleDomains handle := by
    intro handle
    simp only [ensureServiceDomain, ite_self]
  simp only [normalizeAndValidateHandle, hdomain]

end CacosPds.Handle
