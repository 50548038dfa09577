import BegetBridge.Core.Text

/-!
# What the auth package takes from its platform

SHA-256, WHATWG URL parsing, and the checks of `packages/auth` that rest on them and on the
patterns of identifiers. SHA-256 and the URL parser are parameters; `Platform.Lawful` states
what the results use of them.

## Main definitions

* `Platform`: the hash in its two encodings, and the URL parser
* `Platform.Lawful`: no collisions, and a parsed URL reads back as itself
* `exactHttpsUrl`, `clientIdentifier`, `isoTime`, `hashRefreshToken`: the checks of the store
* `samplePlatform`: an injective stand-in for the hash, and the parser on a few URLs

## Main results

* `exactHttpsUrl_idem`, `clientIdentifier_idem`: a normalised value normalises to itself
* `hashRefreshToken_injective`: equal digests come from equal tokens
-/

namespace BegetBridge.Auth

open Core

/-- A clock reading, in milliseconds. -/
abbrev Instant := Int

/-- A parsed URL, with the parts the package reads. -/
structure Url where
  protocol : String
  username : String
  password : String
  hostname : String
  pathname : String
  search : String
  hash : String
  href : String
  deriving DecidableEq, Repr

/-- SHA-256 of a text as lower-case hex and as base64url, HMAC-SHA-256 of a key and a text as
base64url, and `new URL(text)`. -/
structure Platform where
  sha256Hex : String → String
  sha256Base64Url : String → String
  hmacBase64Url : String → String → String
  parseUrl : String → Option Url

/-- SHA-256 has no collisions; the URL parser reads a serialised URL back. -/
structure Platform.Lawful (P : Platform) : Prop where
  hex_injective : Function.Injective P.sha256Hex
  base64Url_injective : Function.Injective P.sha256Base64Url
  parse_href : ∀ {s u}, P.parseUrl s = some u → P.parseUrl u.href = some u

/-! ## Errors of the store -/

/-- `error.code` of an `AuthStoreError`. -/
inductive AuthErrorCode
  | invalidAuthRecord
  | invalidRefreshToken
  | invalidClient
  | invalidOwner
  | invalidBootstrap
  | ownerAlreadyExists
  | bootstrapUnavailable
  | bootstrapExpired
  | bootstrapDenied
  | ownerNotBootstrapped
  | clientConflict
  | invalidGrant
  | invalidScope
  | invalidTokenFamily
  | authStorageFailure
  | refreshInactive
  | refreshReuseDetected
  deriving DecidableEq, Repr

/-- `authError(code, message, status)`. -/
structure AuthStoreError where
  code : AuthErrorCode
  message : String
  status : Nat
  deriving DecidableEq, Repr

def authError (code : AuthErrorCode) (message : String) (status : Nat := 400) : AuthStoreError :=
  ⟨code, message, status⟩

/-! ## Checks of identifiers -/

def ownerIdPattern : String → Bool := within idChar 1 96

def opaqueClientIdPattern : String → Bool := within unreservedChar 8 256

def grantIdPattern : String → Bool := within idChar 8 128

def tokenFamilyIdPattern : String → Bool := within idChar 8 128

def refreshTokenPattern : String → Bool := within idChar 43 128

/-- `[a-z][a-z0-9._-]*` -/
def scopeHalf : List Char → Bool
  | [] => false
  | c :: cs => c.isLower &&
      cs.all fun c => c.isLower || c.isDigit || c == '.' || c == '_' || c == '-'

/-- `SCOPE`: two halves around a colon. -/
def scopePattern (s : String) : Bool :=
  match s.toList.span (· != ':') with
  | (left, _ :: right) => scopeHalf left && scopeHalf right
  | (_, []) => false

/-- `/^[a-z][a-z0-9-]{1,63}$/` -/
def executionProfilePattern (s : String) : Bool :=
  match s.toList with
  | [] => false
  | c :: cs => c.isLower && decide (1 ≤ cs.length) && decide (cs.length ≤ 63) &&
      cs.all fun c => c.isLower || c.isDigit || c == '-'

/-! ## Times -/

/-- The largest `|ms|` for which `new Date(ms).toISOString()` does not throw. -/
def maxTime : Nat := 8640000000000000

/-- `new Date(ms).toISOString()`, as the instant it denotes; `none` where it throws. -/
def isoText (ms : Instant) : Option Instant := if ms.natAbs ≤ maxTime then some ms else none

/-- `isoTime(name, value)` on the result of `Date.parse(value)`, `none` for `NaN`. -/
def isoTime (name : String) (value : Option Instant) : Except AuthStoreError Instant :=
  match value with
  | some ms => .ok ms
  | none => .error (authError .invalidAuthRecord (name ++ " must be an ISO timestamp"))

theorem isoTime_eq_ok {name : String} {value : Option Instant} {ms : Instant} :
    isoTime name value = .ok ms ↔ value = some ms := by
  cases value <;> simp [isoTime]

section

variable (P : Platform)

/-! ## Hashes -/

def hashSecret (secret : String) : String :=
  P.sha256Hex ("DP-013 owner bootstrap v1\x00" ++ secret)

/-- `hashRefreshToken(token)`. -/
def hashRefreshToken (token : String) : Except AuthStoreError String :=
  if refreshTokenPattern token then .ok (P.sha256Hex ("DP-014 refresh token v1\x00" ++ token))
  else .error (authError .invalidRefreshToken "Refresh token is invalid")

/-! ## URLs -/

/-- `exactHttpsUrl(name, value)`: the serialised URL. -/
def exactHttpsUrl (name value : String) : Except AuthStoreError String :=
  match P.parseUrl value with
  | none => .error (authError .invalidAuthRecord (name ++ " must be an HTTPS URL"))
  | some url =>
    if url.protocol ≠ "https:" ∨ url.username ≠ "" ∨ url.password ≠ "" ∨ url.search ≠ "" ∨
        url.hash ≠ "" then
      .error (authError .invalidAuthRecord
        (name ++ " must be an HTTPS URL without credentials, query or fragment"))
    else .ok url.href

/-- `clientIdentifier(value)`. -/
def clientIdentifier (value : String) : Except AuthStoreError String :=
  if opaqueClientIdPattern value then .ok value
  else
    match exactHttpsUrl P "clientId" value with
    | .ok href => .ok href
    | .error _ => .error (authError .invalidClient "OAuth client ID is invalid")

variable {P} (hP : P.Lawful)

theorem hashRefreshToken_eq_ok {token d : String} (h : hashRefreshToken P token = .ok d) :
    refreshTokenPattern token = true ∧ d = P.sha256Hex ("DP-014 refresh token v1\x00" ++ token) := by
  unfold hashRefreshToken at h
  split at h
  · exact ⟨‹_›, (Except.ok.inj h).symm⟩
  · exact absurd h (by simp)

include hP

theorem hashRefreshToken_injective {token token' d : String} (h : hashRefreshToken P token = .ok d)
    (h' : hashRefreshToken P token' = .ok d) : token = token' := by
  have heq := (hashRefreshToken_eq_ok h).2.symm.trans (hashRefreshToken_eq_ok h').2
  have := congrArg String.toList (hP.hex_injective heq)
  simp only [String.toList_append, List.append_cancel_left_eq] at this
  exact String.toList_inj.mp this

/-- A normalised URL normalises to itself. -/
theorem exactHttpsUrl_idem {name name' value href : String} (h : exactHttpsUrl P name value = .ok href) :
    exactHttpsUrl P name' href = .ok href := by
  unfold exactHttpsUrl at h
  split at h
  · exact absurd h (by simp)
  · rename_i url hurl
    split at h
    · exact absurd h (by simp)
    · rename_i hparts
      obtain rfl := Except.ok.inj h
      unfold exactHttpsUrl
      rw [hP.parse_href hurl]
      exact if_neg hparts

/-- A normalised client identifier normalises to itself. -/
theorem clientIdentifier_idem {value id : String} (h : clientIdentifier P value = .ok id) :
    clientIdentifier P id = .ok id := by
  by_cases hid : opaqueClientIdPattern id = true
  · exact if_pos hid
  · unfold clientIdentifier at h
    split at h
    · exact absurd (Except.ok.inj h ▸ ‹_›) hid
    · split at h
      · rename_i href hhref
        obtain rfl := Except.ok.inj h
        rw [clientIdentifier, if_neg hid, exactHttpsUrl_idem hP hhref]
      · exact absurd h (by simp)

end

/-! ## A platform to compute with -/

/-- `https://hostname/pathname` -/
def httpsUrl (hostname pathname : String) : Url :=
  ⟨"https:", "", "", hostname, pathname, "", "", "https://" ++ hostname ++ pathname⟩

/-- What the URL parser answers on the texts of the examples. -/
def sampleUrls : List (String × Url) :=
  [("https://bridge.example", httpsUrl "bridge.example" "/"),
    ("https://bridge.example/", httpsUrl "bridge.example" "/"),
    ("https://bridge.example/mcp", httpsUrl "bridge.example" "/mcp"),
    ("https://chatgpt.com/oauth/client.json", httpsUrl "chatgpt.com" "/oauth/client.json"),
    ("https://chatgpt.com/connector_platform_oauth_redirect",
      httpsUrl "chatgpt.com" "/connector_platform_oauth_redirect"),
    ("https://chatgpt.com/aip/callback", httpsUrl "chatgpt.com" "/aip/callback")]

/-- The hash as a tag on the text, and the URL parser on `sampleUrls`. -/
def samplePlatform : Platform where
  sha256Hex s := "hex:" ++ s
  sha256Base64Url s := s
  hmacBase64Url key _ := key
  parseUrl s := sampleUrls.lookup s

theorem samplePlatform_lawful : samplePlatform.Lawful where
  hex_injective a b h := by
    have := congrArg String.toList h
    simp only [samplePlatform, String.toList_append, List.append_cancel_left_eq] at this
    exact String.toList_inj.mp this
  base64Url_injective _ _ h := h
  parse_href {s u} h := by
    have hread : ∀ e ∈ sampleUrls, samplePlatform.parseUrl e.2.href = some e.2 := by decide +kernel
    obtain ⟨l₁, l₂, hl, -⟩ := List.lookup_eq_some_iff.mp h
    refine hread (s, u) ?_
    rw [hl]
    exact List.mem_append_right _ List.mem_cons_self

/-- A token of the length the patterns ask for. -/
def sampleToken (c : Char) : String := String.ofList (List.replicate 43 c)

end BegetBridge.Auth
