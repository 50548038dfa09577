import BegetBridge.Core.Text
import BegetBridge.Interleaving.Noting
import BegetBridge.Relational.KeyedMap
import BegetBridge.Terminal.Session

/-!
# The server of the Agent

A request is authorised by the static credential, or for an OAuth owner with some scopes. Sessions live on the
Session Host, and a store of its own records which owner a session belongs to. Any call of either may fail, before
it takes effect or after.

## Main definitions

* `authenticateAgentRequest`, `route`: who asks, and for what
* `AgentState`: the sessions of the Session Host, and their recorded owners
* `AgentOp`, `AgentOp.exec`: the calls of the Session Host, of the store and of the file manager
* `handle`: what the server does with a request
-/

namespace BegetBridge.Agent

open Interleaving Relational
open Terminal (BridgeError)

/-! ## Authorizations -/

/-- What an authorization context says: its owner, and the scopes. -/
structure OAuthContext where
  ownerId : String
  scopes : List String
  deriving DecidableEq

/-- The static credential, or an OAuth context. -/
inductive Authorization
  | static
  | oauth (context : OAuthContext)
  deriving DecidableEq

/-- `authorization.kind === "oauth" && !authorization.scopes.has(scope)` does not hold. -/
def Authorization.allows (who : Authorization) (scope : String) : Bool :=
  match who with
  | .static => true
  | .oauth context => context.scopes.contains scope

/-- A request: its method, the segments of its path, its parameters, and its two headers. -/
structure AgentRequest where
  method : String
  path : List String
  search : List (String × String)
  authorization : String
  context : Option String
  deriving DecidableEq

/-- `url.searchParams.get(name)` -/
def AgentRequest.param (request : AgentRequest) (name : String) : Option String := request.search.lookup name

/-- The configuration, with what `verifyAgentContext` makes of a request. -/
structure AgentConfig where
  agentId : String
  token : String
  oauthToken : Option String
  verifyAgentContext : AgentRequest → Except BridgeError OAuthContext

/-- `/^Bearer ([^\s]+)$/` -/
def bearer (header : String) : Option String :=
  let token := header.toList.drop 7
  if header.toList.take 7 == "Bearer ".toList && !token.isEmpty && token.all fun c => !Core.isSpace c then
    some (String.ofList token)
  else none

def unauthorized : BridgeError := ⟨"unauthorized", "Invalid Agent credential", 401⟩

/-- `authenticateAgentRequest(request, config, requestPath)` -/
def authenticateAgentRequest (config : AgentConfig) (request : AgentRequest) : Except BridgeError Authorization :=
  match bearer request.authorization with
  | none => .error unauthorized
  | some token =>
    if token == config.token then .ok .static
    else if config.oauthToken == some token then
      match config.verifyAgentContext request with
      | .ok context => .ok (.oauth context)
      | .error e =>
        .error ⟨if e.code.isEmpty then "invalid_agent_context" else e.code,
          "OAuth Agent authorization context was not accepted", e.status⟩
    else .error unauthorized

/-! ## Routes -/

inductive SessionAction
  | commands
  | output
  | input
  | interrupt
  | close
  | purge
  deriving DecidableEq

inductive FileAction
  | list
  | upload
  | metadata
  | download
  | copy
  | move
  | remove
  deriving DecidableEq

/-- What is asked for. A path of a session that no method fits is a path of the session still. -/
inductive Route
  | health
  | capabilities
  | listSessions
  | openSession
  | operation (sessionId operationId : String)
  | session (id : String) (action : Option SessionAction)
  | files (action : FileAction)
  | notFound
  deriving DecidableEq

/-- `[a-zA-Z0-9_-]+` -/
def idText (text : String) : Bool := !text.isEmpty && text.toList.all Core.idChar

/-- What a method asks of a session. -/
def sessionAction (method action : String) : Option SessionAction :=
  if method == "POST" && action == "commands" then some .commands
  else if method == "GET" && action == "output" then some .output
  else if method == "POST" && action == "input" then some .input
  else if method == "POST" && action == "interrupt" then some .interrupt
  else if method == "DELETE" && action == "session" then some .close
  else if method == "DELETE" && action == "purge" then some .purge
  else none

/-- The actions in a path of a session. -/
def actionTexts : List String := ["commands", "output", "input", "interrupt", "purge"]

def filesRoute (method : String) (path : List String) : Route :=
  if method == "GET" && path == ["v1", "files"] then .files .list
  else if method == "PUT" && path == ["v1", "files", "content"] then .files .upload
  else if method == "GET" && path == ["v1", "files", "metadata"] then .files .metadata
  else if method == "GET" && path == ["v1", "files", "content"] then .files .download
  else if method == "POST" && path == ["v1", "files", "copy"] then .files .copy
  else if method == "POST" && path == ["v1", "files", "move"] then .files .move
  else if method == "DELETE" && path == ["v1", "files"] then .files .remove
  else .notFound

/-- The route of a request, in the order in which the server looks for it. -/
def route (request : AgentRequest) : Route :=
  let method := request.method
  match request.path with
  | ["health"] => if method == "GET" then .health else .notFound
  | ["v1", "capabilities"] => if method == "GET" then .capabilities else .notFound
  | ["v1", "sessions"] =>
    if method == "GET" then .listSessions else if method == "POST" then .openSession else .notFound
  | ["v1", "sessions", id] => if idText id then .session id (sessionAction method "session") else .notFound
  | ["v1", "sessions", id, action] =>
    if idText id && actionTexts.contains action then .session id (sessionAction method action) else .notFound
  | ["v1", "sessions", id, "operations", operationId] =>
    if method == "GET" && idText id && idText operationId then .operation id operationId else .notFound
  | path => filesRoute method path

def SessionAction.scope : SessionAction → String
  | commands => "terminal:execute"
  | output => "terminal:read"
  | input | interrupt => "terminal:input"
  | close | purge => "terminal:close"

def FileAction.scope : FileAction → String
  | list | metadata | download => "files:read"
  | upload | copy | move => "files:write"
  | remove => "files:delete"

/-- The scope that a route requires. -/
def Route.scope : Route → Option String
  | listSessions | operation _ _ => some "terminal:read"
  | openSession => some "terminal:execute"
  | session _ (some action) => some action.scope
  | files action => some action.scope
  | _ => none

/-! ## What the server calls -/

/-- A body in JSON, by its fields. -/
abbrev Body := List (String × String)

/-- What is asked of the Session Host about a session. -/
inductive SessionAsk
  | getOperation (operationId : String)
  | runCommand (command waitMs idempotencyKey : Option String)
  | readOutput (cursor maxBytes : Option String)
  | sendInput (input enter : Option String)
  | interrupt
  | close
  | purge
  deriving DecidableEq

/-- What is asked of the file manager. -/
structure FileCall where
  action : FileAction
  path : Option String
  source : Option String
  destination : Option String
  flag : Option String
  deriving DecidableEq

/-- The calls. Those of the Session Host and of the file manager say for whom they are made. -/
inductive AgentOp : Type → Type
  | isAdmissionPaused : AgentOp Bool
  | readJson : AgentOp (Except BridgeError Body)
  | listSessions (who : Authorization) : AgentOp (Except BridgeError (List String))
  | openSession (who : Authorization) (cwd label : Option String) : AgentOp (Except BridgeError String)
  | onSession (who : Authorization) (id : String) (ask : SessionAsk) : AgentOp (Except BridgeError String)
  | files (who : Authorization) (call : FileCall) : AgentOp (Except BridgeError String)
  | getOwner (id : String) : AgentOp (Except BridgeError (Option String))
  | setOwner (id ownerId : String) : AgentOp (Except BridgeError Unit)
  | deleteOwner (id : String) : AgentOp (Except BridgeError Unit)

/-- A session on the Session Host: who opened it, whether it is closed, and whether it is purged. -/
structure HostSession where
  openedBy : Authorization
  closed : Bool
  purged : Bool
  deriving DecidableEq

/-- How a call goes: what it answers, whether it takes effect, and the error where its answer is lost. -/
structure Outcome where
  text : String
  reached : Bool
  lost : Option BridgeError

/-- The sessions that were opened, their recorded owners, and how the next calls go. -/
structure AgentState where
  sessions : KeyedMap String HostSession
  owners : KeyedMap String String
  paused : Bool
  incoming : Except BridgeError Body
  outcomes : List Outcome

namespace AgentState

/-- Nothing is opened yet. -/
def initial (paused : Bool) (incoming : Except BridgeError Body) (outcomes : List Outcome) : AgentState :=
  ⟨∅, ∅, paused, incoming, outcomes⟩

def internalError : BridgeError := ⟨"internal_error", "Internal error", 500⟩

/-- A call goes as the next outcome says. -/
def through {α : Type} (s : AgentState) (f : String → AgentState → Except BridgeError α × AgentState) :
    Except BridgeError α × AgentState :=
  match s.outcomes with
  | [] => f "" s
  | o :: outcomes =>
    let s := { s with outcomes := outcomes }
    if !o.reached then (.error (o.lost.getD internalError), s)
    else
      match o.lost with
      | none => f o.text s
      | some e => (.error e, (f o.text s).2)

def sessionNotFound : BridgeError := ⟨"session_not_found", "Terminal session not found", 404⟩

def sessionNotClosed : BridgeError := ⟨"session_not_closed", "Close the terminal before purging it", 409⟩

/-- What the Session Host does about a session. -/
def ask (s : AgentState) (id : String) (ask : SessionAsk) (text : String) : Except BridgeError String × AgentState :=
  match s.sessions.lookup id with
  | none => (.error sessionNotFound, s)
  | some x =>
    if x.purged then (.error sessionNotFound, s)
    else
      match ask with
      | .close => (.ok text, { s with sessions := s.sessions.insert id { x with closed := true } })
      | .purge =>
        if x.closed then (.ok text, { s with sessions := s.sessions.insert id { x with purged := true } })
        else (.error sessionNotClosed, s)
      | _ => (.ok text, s)

/-- A session is opened under an identifier that is new. -/
def opened (s : AgentState) (who : Authorization) (id : String) : Except BridgeError String × AgentState :=
  match s.sessions.lookup id with
  | some _ => (.error internalError, s)
  | none => (.ok id, { s with sessions := s.sessions.insert id ⟨who, false, false⟩ })

/-- The sessions that are not purged. -/
def listed (s : AgentState) : List String := (s.sessions.entries.filter fun e => !e.2.purged).map fun e => e.1

/-- `/^[a-zA-Z0-9_-]{1,128}$/` -/
def validId (value : String) : Bool := Core.within Core.idChar 1 128 value

/-- `INSERT` of an owner, unless there is one, who is the same then. -/
def assigned (s : AgentState) (id ownerId : String) : Except BridgeError Unit × AgentState :=
  match s.owners.lookup id with
  | none => (.ok (), { s with owners := s.owners.insert id ownerId })
  | some current => if current == ownerId then (.ok (), s) else (.error internalError, s)

end AgentState

open AgentState in
/-- What a call answers, and what becomes of the state. -/
def AgentOp.exec {α : Type} : AgentOp α → AgentState → α × AgentState
  | .isAdmissionPaused, s => (s.paused, s)
  | .readJson, s => (s.incoming, s)
  | .listSessions _, s => s.through fun _ s => (.ok s.listed, s)
  | .openSession who _ _, s => s.through fun id s => s.opened who id
  | .onSession _ id ask, s => s.through fun text s => s.ask id ask text
  | .files _ _, s => s.through fun text s => (.ok text, s)
  | .getOwner id, s =>
    if validId id then s.through fun _ s => (.ok (s.owners.lookup id), s) else (.error internalError, s)
  | .setOwner id ownerId, s =>
    if validId id && validId ownerId then s.through fun _ s => s.assigned id ownerId else (.error internalError, s)
  | .deleteOwner id, s =>
    if validId id then s.through fun _ s => (.ok (), { s with owners := s.owners.erase id })
    else (.error internalError, s)

/-! ## What the server does -/

/-- What a response says. -/
inductive Content
  | health (paused : Bool)
  | capabilities (agentId : String)
  | sessions (ids : List String)
  | opened (id : String)
  | session (id text : String)
  | files (text : String)
  | failure (e : BridgeError)
  deriving DecidableEq

structure Response where
  status : Nat
  content : Content
  deriving DecidableEq

/-- The sessions that a response is about. -/
def Content.about : Content → List String
  | sessions ids => ids
  | opened id => [id]
  | session id _ => [id]
  | _ => []

/-- A program of the server. -/
abbrev AgentScript := Script AgentOp Empty BridgeError

def op {α : Type} (op : AgentOp α) : AgentScript α := Script.perform Empty.elim op

def answered {α : Type} : Except BridgeError α → AgentScript α
  | .ok a => pure a
  | .error e => throw e

/-- A call whose error is thrown. -/
def asked {α : Type} (call : AgentOp (Except BridgeError α)) : AgentScript α := do
  let reply ← op call
  answered reply

def demand (holds : Bool) (e : BridgeError) : AgentScript Unit := if holds then pure () else throw e

/-- `requireScope(authorization, scope)` -/
def requireScope (who : Authorization) (scope : String) : AgentScript Unit :=
  demand (who.allows scope) ⟨"forbidden_scope", "Agent authorization requires " ++ scope, 403⟩

def sessionOwnerMismatch : BridgeError :=
  ⟨"session_owner_mismatch", "Terminal session is not owned by this authorization", 403⟩

/-- `requireSessionOwner(authorization, sessionOwners, sessionId)` -/
def requireSessionOwner (who : Authorization) (id : String) : AgentScript Unit :=
  match who with
  | .static => pure ()
  | .oauth context => do
    let owner ← asked (.getOwner id)
    demand (owner == some context.ownerId) sessionOwnerMismatch

/-- `listed.filter((session) => sessionOwners.get(session.id) === authorization.ownerId)` -/
def ownedBy (ownerId : String) : List String → AgentScript (List String)
  | [] => pure []
  | id :: ids => do
    let owner ← asked (.getOwner id)
    let rest ← ownedBy ownerId ids
    pure (if owner == some ownerId then id :: rest else rest)

/-- The sessions that a caller sees. -/
def visible (who : Authorization) (listed : List String) : AgentScript (List String) :=
  match who with
  | .static => pure listed
  | .oauth context => ownedBy context.ownerId listed

def sessionOwnerStorageFailure : BridgeError :=
  ⟨"session_owner_storage_failure", "Terminal ownership could not be persisted", 503⟩

/-- The owner of a new session is recorded, or the session is closed and purged, as far as that succeeds. -/
def recordOwner (who : Authorization) (id : String) : AgentScript Unit :=
  match who with
  | .static => pure ()
  | .oauth context =>
    tryCatch (asked (.setOwner id context.ownerId)) fun _ => do
      Script.ignored (do let _ ← asked (.onSession who id .close))
      Script.ignored (do let _ ← asked (.onSession who id .purge))
      throw sessionOwnerStorageFailure

/-- What an action asks of the Session Host. -/
def sessionAsk (request : AgentRequest) : SessionAction → AgentScript SessionAsk
  | .commands => do
    let body ← asked .readJson
    pure (.runCommand (body.lookup "command") (body.lookup "waitMs") (body.lookup "idempotencyKey"))
  | .output => pure (.readOutput (request.param "cursor") (request.param "maxBytes"))
  | .input => do
    let body ← asked .readJson
    pure (.sendInput (body.lookup "input") (body.lookup "enter"))
  | .interrupt => pure .interrupt
  | .close => pure .close
  | .purge => pure .purge

/-- The record of a session is deleted once the session is purged. -/
def forget (id : String) : SessionAction → AgentScript Unit
  | .purge => asked (.deleteOwner id)
  | _ => pure ()

/-- A route of a session. -/
def onSession (who : Authorization) (request : AgentRequest) (id : String) (action : SessionAction) :
    AgentScript Response := do
  requireScope who action.scope
  let ask ← sessionAsk request action
  let result ← asked (.onSession who id ask)
  forget id action
  pure ⟨200, .session id result⟩

/-- What an action asks of the file manager. -/
def fileCall (request : AgentRequest) (action : FileAction) : AgentScript FileCall :=
  match action with
  | .copy | .move => do
    let body ← asked .readJson
    pure ⟨action, none, body.lookup "source", body.lookup "destination", body.lookup "overwrite"⟩
  | .upload => pure ⟨action, request.param "path", none, none, request.param "overwrite"⟩
  | .remove => pure ⟨action, request.param "path", none, none, request.param "recursive"⟩
  | _ => pure ⟨action, request.param "path", none, none, none⟩

/-- A route of the files. -/
def onFiles (who : Authorization) (request : AgentRequest) (action : FileAction) : AgentScript Response := do
  requireScope who action.scope
  let call ← fileCall request action
  let result ← asked (.files who call)
  pure ⟨if action = .upload then 201 else 200, .files result⟩

def routeNotFound : BridgeError := ⟨"not_found", "Route not found", 404⟩

/-- A request whose caller is known. -/
def serve (config : AgentConfig) (who : Authorization) (request : AgentRequest) : Route → AgentScript Response
  | .capabilities => pure ⟨200, .capabilities config.agentId⟩
  | .listSessions => do
    requireScope who "terminal:read"
    let listed ← asked (.listSessions who)
    let ids ← visible who listed
    pure ⟨200, .sessions ids⟩
  | .openSession => do
    requireScope who "terminal:execute"
    let body ← asked .readJson
    let id ← asked (.openSession who (body.lookup "cwd") (body.lookup "label"))
    recordOwner who id
    pure ⟨201, .opened id⟩
  | .operation sessionId operationId => do
    requireScope who "terminal:read"
    requireSessionOwner who sessionId
    let result ← asked (.onSession who sessionId (.getOperation operationId))
    pure ⟨200, .session sessionId result⟩
  | .session id action => do
    requireSessionOwner who id
    match action with
    | some action => onSession who request id action
    | none => throw routeNotFound
  | .files action => onFiles who request action
  | _ => throw routeNotFound

def admissionPaused : BridgeError := ⟨"admission_paused", "Bridge update in progress", 503⟩

/-- A request: what goes wrong is the response. -/
def handle (config : AgentConfig) (request : AgentRequest) : AgentScript Response :=
  tryCatch (do
    let paused ← op .isAdmissionPaused
    if route request = .health then pure ⟨200, .health paused⟩
    else do
      demand (!paused) admissionPaused
      let who ← answered (authenticateAgentRequest config request)
      serve config who request (route request))
    fun e => pure ⟨e.status, .failure e⟩

end BegetBridge.Agent
