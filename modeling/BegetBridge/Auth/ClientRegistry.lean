import BegetBridge.Auth.Platform
import BegetBridge.Relational.KeyedMap

/-!
# OAuth errors, parameters and client registries

What the OAuth endpoints check before they touch their state: the parameters of a request, the
requested scopes, and the client with its redirect URI. A client is known either from the
metadata document it publishes (`ChatGptCimdRegistry`, which fetches the document and caches it)
or from the one dynamic registration (`ChatGptDcrRegistry`).

## Main definitions

* `OAuthError`, `Thrown`: what the endpoints throw
* `Params`, `requireString`, `parseScope`: the parameters of a request
* `ClientDocument`, `checkDocument`, `CimdRegistry.admits`: client metadata documents
* `RegistrationDocument`, `dcrAccepts`: dynamic client registration

## Main results

* `mem_parseScope`, `parseScope_ne_nil`: a parsed scope is a nonempty part of the supported scopes
* `checkDocument_eq_ok`: an accepted document is the client's own and lists the redirect URIs
-/

namespace BegetBridge.Auth

open Core Relational

/-- `error.code` of an `OAuthError`. -/
inductive OAuthCode
  | invalidRequest
  | invalidClient
  | invalidClientMetadata
  | unauthorizedClient
  | unsupportedResponseType
  | unsupportedGrantType
  | invalidTarget
  | invalidScope
  | invalidGrant
  | accessDenied
  | temporarilyUnavailable
  deriving DecidableEq, Repr

structure OAuthError where
  code : OAuthCode
  description : String
  status : Nat
  deriving DecidableEq, Repr

/-- `oauthError(code, description, status)`. -/
def oauthError (code : OAuthCode) (description : String) (status : Nat := 400) : OAuthError :=
  ⟨code, description, status⟩

/-- What an endpoint throws: an `OAuthError`, or an error of the runtime. -/
inductive Thrown
  | oauth (e : OAuthError)
  | native (message : String)
  deriving DecidableEq, Repr

def defaultChatGptClientId : String := "https://chatgpt.com/oauth/client.json"

def defaultChatGptRedirectUri : String := "https://chatgpt.com/connector_platform_oauth_redirect"

/-- `value.startsWith(text)` -/
def startsWith (value text : String) : Bool := text.toList.isPrefixOf value.toList

/-! ## Parameters -/

/-- The pairs of a `URLSearchParams`; `get` is the first one with the name. -/
abbrev Params := List (String × String)

def Params.get (params : Params) (name : String) : Option String := params.lookup name

def requireString (params : Params) (name : String) : Except Thrown String :=
  match params.get name with
  | some value =>
    if value = "" then .error (.oauth (oauthError .invalidRequest (name ++ " is required")))
    else .ok value
  | none => .error (.oauth (oauthError .invalidRequest (name ++ " is required")))

/-- `parseScope(value, supportedScopes)`: no scope asks for all of them. -/
def parseScope (value : Option String) (supportedScopes : List String) :
    Except Thrown (List String) :=
  let requested := words (value.getD "")
  let scopes := if requested = [] then supportedScopes else requested
  if scopes = [] ∨ ∃ scope ∈ scopes, scope ∉ supportedScopes then
    .error (.oauth (oauthError .invalidScope "Requested scope is not supported"))
  else .ok scopes.eraseDups

/-- `PKCE_VERIFIER` -/
def pkceVerifierPattern : String → Bool := within unreservedChar 43 128

/-- `/^[A-Za-z0-9_-]{43}$/` -/
def codeChallengePattern : String → Bool := within idChar 43 43

/-- The token of `/^Bearer ([A-Za-z0-9_-]+)$/`. -/
def bearerToken (header : Option String) : Option String :=
  let value := header.getD ""
  let token := value.toList.drop 7
  if startsWith value "Bearer " ∧ token ≠ [] ∧ token.all idChar then some (String.ofList token)
  else none

theorem requireString_eq_ok {params : Params} {name value : String}
    (h : requireString params name = .ok value) : params.get name = some value ∧ value ≠ "" := by
  unfold requireString at h
  split at h
  · split at h
    · exact absurd h (by simp)
    · obtain rfl := Except.ok.inj h
      exact ⟨‹_›, ‹_›⟩
  · exact absurd h (by simp)

theorem requireString_of_get {params : Params} {name value : String}
    (h : params.get name = some value) (hne : value ≠ "") : requireString params name = .ok value := by
  rw [requireString, h]
  exact if_neg hne

section

variable {value : Option String} {supported scopes : List String}

theorem parseScope_eq_ok (h : parseScope value supported = .ok scopes) :
    ∃ asked, asked ≠ [] ∧ (∀ scope ∈ asked, scope ∈ supported) ∧ scopes = asked.eraseDups := by
  simp only [parseScope] at h
  generalize (if words (value.getD "") = [] then supported else words (value.getD "")) = asked at h
  split at h
  · exact absurd h (by simp)
  · rename_i hbad
    rw [not_or] at hbad
    refine ⟨asked, hbad.1, fun scope hmem => ?_, (Except.ok.inj h).symm⟩
    by_contra hno
    exact hbad.2 ⟨scope, hmem, hno⟩

theorem mem_parseScope (h : parseScope value supported = .ok scopes) :
    ∀ scope ∈ scopes, scope ∈ supported := by
  obtain ⟨asked, -, hsub, rfl⟩ := parseScope_eq_ok h
  intro scope hmem
  exact hsub scope (List.mem_eraseDups.mp hmem)

theorem parseScope_ne_nil (h : parseScope value supported = .ok scopes) : scopes ≠ [] := by
  obtain ⟨asked, hne, -, rfl⟩ := parseScope_eq_ok h
  cases asked with
  | nil => exact absurd rfl hne
  | cons a l =>
    rw [List.eraseDups_cons]
    exact List.cons_ne_nil _ _

end

/-! ## Client metadata documents -/

/-- A field of a JSON document that should hold an array of texts: absent or falsy, of another
type, or an array, whose items that are no texts are `none`. -/
inductive DocField
  | absent
  | other
  | array (items : List (Option String))
  deriving DecidableEq, Repr

/-- `Array.isArray(field) && field.includes(text)` -/
def DocField.includes (field : DocField) (text : String) : Bool :=
  match field with
  | .array items => items.contains (some text)
  | _ => false

/-- The fields of a client metadata document that are checked. -/
structure ClientDocument where
  clientId : Option String
  redirectUris : DocField
  responseTypes : DocField
  grantTypes : DocField
  tokenEndpointAuthMethodsSupported : DocField
  tokenEndpointAuthMethod : Option String
  deriving DecidableEq, Repr

/-- The body of a metadata response: no JSON, the JSON `null`, or a document. -/
inductive MetadataBody
  | malformed
  | null
  | document (document : ClientDocument)
  deriving DecidableEq, Repr

/-- What the fetch of a metadata document comes to. -/
inductive Fetched
  | failed
  | response (ok : Bool) (declaredLength size : Nat) (body : MetadataBody)
  deriving DecidableEq, Repr

/-- A validated document in the cache: the redirect URIs it lists. -/
structure Metadata where
  redirectUris : List (Option String)
  expiresAt : Instant
  deriving DecidableEq, Repr

/-- `ChatGptCimdRegistry`: its options. -/
structure CimdRegistry where
  allowedClientIds : List String := [defaultChatGptClientId]
  maxBytes : Nat := 64 * 1024
  cacheTtlMs : Int := 5 * 60 * 1000

/-- `Array.isArray(methods) ? methods : [method].filter(Boolean)`, and whether it has `"none"`. -/
def ClientDocument.supportsNone (document : ClientDocument) : Bool :=
  match document.tokenEndpointAuthMethodsSupported with
  | .array items => items.contains (some "none")
  | _ => document.tokenEndpointAuthMethod == some "none"

/-- The checks of a fetched document: the redirect URIs it lists. -/
def checkDocument (clientId : String) (document : ClientDocument) :
    Except Thrown (List (Option String)) :=
  match document.redirectUris with
  | .array uris =>
    if document.clientId = some clientId ∧ some defaultChatGptRedirectUri ∈ uris ∧
        (∀ uri ∈ uris, (uri.any fun u => startsWith u "https://chatgpt.com/") = true) ∧
        document.responseTypes.includes "code" ∧
        document.grantTypes.includes "authorization_code" then
      if document.supportsNone then .ok uris
      else .error (.oauth (oauthError .unauthorizedClient
        "OAuth client does not support public PKCE exchange"))
    else .error (.oauth (oauthError .invalidClient "OAuth client metadata failed validation"))
  | _ => .error (.oauth (oauthError .invalidClient "OAuth client metadata failed validation"))

/-- The checks of a response, down to its document. -/
def CimdRegistry.checkResponse (R : CimdRegistry) (clientId : String) :
    Fetched → Except Thrown (List (Option String))
  | .failed => .error (.native "fetch failed")
  | .response ok declaredLength size body =>
    if ¬ok then
      .error (.oauth (oauthError .invalidClient "OAuth client metadata could not be verified"))
    else if R.maxBytes < declaredLength ∨ R.maxBytes < size then
      .error (.oauth (oauthError .invalidClient "OAuth client metadata is too large"))
    else
      match body with
      | .malformed =>
        .error (.oauth (oauthError .invalidClient "OAuth client metadata is not valid JSON"))
      | .null => .error (.native "Cannot read properties of null")
      | .document document => checkDocument clientId document

/-- The checks before the cache is read. -/
def CimdRegistry.admits (R : CimdRegistry) (P : Platform) (clientId : String) :
    Except Thrown Unit :=
  if clientId ∉ R.allowedClientIds then
    .error (.oauth (oauthError .unauthorizedClient "OAuth client is not allowlisted" 403))
  else
    match P.parseUrl clientId with
    | none => .error (.oauth (oauthError .unauthorizedClient
        "OAuth client metadata URL is invalid" 403))
    | some url =>
      if url.protocol ≠ "https:" ∨ url.hostname ≠ "chatgpt.com" ∨ url.username ≠ "" ∨
          url.password ≠ "" then
        .error (.oauth (oauthError .unauthorizedClient
          "OAuth client metadata origin is not allowed" 403))
      else .ok ()

/-- The last check: the document lists the redirect URI. -/
def listsRedirect (uris : List (Option String)) (redirectUri : String) : Except Thrown Unit :=
  if some redirectUri ∈ uris then .ok ()
  else .error (.oauth (oauthError .invalidRequest "redirect_uri is not registered"))

theorem admits_eq_ok {R : CimdRegistry} {P : Platform} {clientId : String}
    (h : R.admits P clientId = .ok ()) : clientId ∈ R.allowedClientIds := by
  unfold CimdRegistry.admits at h
  split at h
  · exact absurd h (by simp)
  · exact not_not.mp ‹_›

theorem checkDocument_eq_ok {clientId : String} {document : ClientDocument}
    {uris : List (Option String)} (h : checkDocument clientId document = .ok uris) :
    document.clientId = some clientId ∧ document.redirectUris = .array uris := by
  unfold checkDocument at h
  split at h
  · split at h
    · split at h
      · obtain rfl := Except.ok.inj h
        exact ⟨(‹_ ∧ _› : _ ∧ _).1, ‹_›⟩
      · exact absurd h (by simp)
    · exact absurd h (by simp)
  · exact absurd h (by simp)

theorem listsRedirect_eq_ok {uris : List (Option String)} {redirectUri : String} :
    listsRedirect uris redirectUri = .ok () ↔ some redirectUri ∈ uris := by
  unfold listsRedirect
  split <;> simp [*]

/-! ## Dynamic client registration -/

/-- The fields of a registration request that are checked. -/
structure RegistrationDocument where
  redirectUris : DocField
  tokenEndpointAuthMethod : Option String
  grantTypes : DocField
  responseTypes : DocField
  deriving DecidableEq, Repr

/-- Whether `register(document)` accepts. -/
def dcrAccepts (document : RegistrationDocument) : Bool :=
  document.redirectUris == .array [some defaultChatGptRedirectUri] &&
    document.tokenEndpointAuthMethod.all (fun method => method == "" || method == "none") &&
    (match document.grantTypes with
      | .absent => true
      | .other => false
      | .array types => types.contains (some "authorization_code") &&
          types.all fun type => type == some "authorization_code" || type == some "refresh_token") &&
    (match document.responseTypes with
      | .absent => true
      | .other => false
      | .array types => types.contains (some "code"))

/-- `ChatGptDcrRegistry.validate`. -/
def dcrValidate (dcrClientId clientId redirectUri : String) : Except Thrown Unit :=
  if clientId ≠ dcrClientId ∨ redirectUri ≠ defaultChatGptRedirectUri then
    .error (.oauth (oauthError .invalidClient "Registered client or redirect URI is invalid"))
  else .ok ()

theorem dcrValidate_eq_ok {dcrClientId clientId redirectUri : String} :
    dcrValidate dcrClientId clientId redirectUri = .ok () ↔
      clientId = dcrClientId ∧ redirectUri = defaultChatGptRedirectUri := by
  unfold dcrValidate
  by_cases h : clientId = dcrClientId <;> by_cases h' : redirectUri = defaultChatGptRedirectUri <;>
    simp [h, h']

end BegetBridge.Auth
