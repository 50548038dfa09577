import BegetBridge.Interleaving.Noting
import BegetBridge.Terminal.Session

/-!
# Admission to the Agent and to the Session Host

A request counts itself, looks for the pause flag, is handled, and is uncounted again. A health request is not
counted: it looks for the flag, and reports how many requests are in flight. An update waits until both servers
report that admission is paused and that none is in flight.

## Main definitions

* `ServerState`: the counters, the file system as far as the flag goes, and the reports that were sent
* `isAdmissionPaused`, `listen`: what a server does with a request
* `createAgentServer`, `createSessionHostServer`: the two servers
* `waitForAdmissionDrain`: what the update does
-/

namespace BegetBridge.Release

open Interleaving
open Terminal (BridgeError)

/-- The two servers. -/
inductive Server
  | agent
  | sessionHost
  deriving DecidableEq

/-- Why `lstat` fails: with `ENOENT`, or with another code. -/
inductive LstatError
  | noEntry
  | other
  deriving DecidableEq

/-- The response to a health request. -/
structure HealthReport where
  status : String
  product : String
  agentId : Option String
  admission : String
  inFlightRequests : Nat
  deriving DecidableEq

/-- A report that was sent for a round of probes, with the entries that were there then and how often each name had
been removed. -/
structure Sent where
  server : Server
  round : Nat
  report : HealthReport
  entries : String → Bool
  removals : String → Nat

/-- The counters of the servers, the entries that are there, how often each was removed, whether `lstat` and the probes
are about to fail, the reports that were sent, and what the handlers act on. -/
structure ServerState (W : Type) where
  inFlight : Server → Nat
  entries : String → Bool
  removals : String → Nat
  unreadable : Bool
  lost : Bool
  sent : List Sent
  world : W

/-- What the handlers do: the operations `H`, with values in `V`. -/
inductive HandlerOp (H V : Type) : Type → Type
  | act (op : H) : HandlerOp H V V

/-- What is done by the servers and by the update. -/
inductive ServerOp (H V : Type) : Type → Type
  | count (server : Server) : ServerOp H V Unit
  | uncount (server : Server) : ServerOp H V Unit
  | lstat (path : String) : ServerOp H V (Except LstatError Unit)
  | sendHealth (server : Server) (round : Nat) (report : HealthReport) : ServerOp H V Unit
  | handler (op : H) : ServerOp H V V
  | probe (probes : List Server) (round : Nat) : ServerOp H V (Option (List Sent))

/-- An operation of a handler, as one of its server. -/
def HandlerOp.lift {H V β : Type} : HandlerOp H V β → ServerOp H V β
  | .act op => .handler op

section Effects

variable {H V W : Type}

/-- The report with the number that the counter shows. -/
def ServerState.reading (s : ServerState W) (server : Server) (report : HealthReport) : HealthReport :=
  { report with inFlightRequests := s.inFlight server }

/-- The reports that were sent to the probes of a round, if there is one from each. -/
def ServerState.answers (s : ServerState W) (probes : List Server) (round : Nat) : Option (List Sent) :=
  probes.mapM fun server => s.sent.find? fun e => e.server == server && e.round == round

/-- What an operation answers, and what becomes of the state. A response reads the counter when it is sent. -/
def ServerOp.exec (work : H → W → V × W) {β : Type} : ServerOp H V β → ServerState W → β × ServerState W
  | .count server, s =>
    ((), { s with inFlight := Function.update s.inFlight server (s.inFlight server + 1) })
  | .uncount server, s =>
    ((), { s with inFlight := Function.update s.inFlight server (s.inFlight server - 1) })
  | .lstat path, s =>
    (if s.unreadable then .error .other else if s.entries path then .ok () else .error .noEntry, s)
  | .sendHealth server round report, s =>
    ((), { s with sent := ⟨server, round, s.reading server report, s.entries, s.removals⟩ :: s.sent })
  | .handler op, s =>
    let r := work op s.world
    (r.1, { s with world := r.2 })
  | .probe probes round, s => (if s.lost then none else s.answers probes round, s)

end Effects

/-! ## The servers -/

/-- A request: its method, its path, and what else it says. -/
structure Incoming (R : Type) where
  method : String
  pathname : String
  content : R
  deriving DecidableEq

/-- `request.method === "GET" && url.pathname === "/health"` does not hold. -/
def Incoming.tracked {R : Type} (request : Incoming R) : Bool :=
  !(request.method == "GET" && request.pathname == "/health")

/-- A server: what its health response says, the path of the flag if it is a string, and what it does with a request
that is admitted. -/
structure ServerConfig (H V R A : Type) where
  product : String
  agentId : Option String
  admissionPausePath : Option String
  handler : Incoming R → Script (HandlerOp H V) Empty BridgeError A

/-- What becomes of a request or of an update. -/
inductive Reply (A : Type)
  | health
  | answered (a : A)
  | failure (e : BridgeError)
  | drained (services : Nat)
  | undrained (message : String)
  deriving DecidableEq

section Programs

variable {H V R A ξ : Type}

def perform {β : Type} (op : ServerOp H V β) : Script (ServerOp H V) Empty ξ β := Script.perform Empty.elim op

def onlyIf (c : Bool) (p : Script (ServerOp H V) Empty ξ Unit) : Script (ServerOp H V) Empty ξ Unit :=
  if c then p else pure ()

def demand (holds : Bool) (e : ξ) : Script (ServerOp H V) Empty ξ Unit := if holds then pure () else throw e

/-- `path.isAbsolute(filename)` -/
def isAbsolute (filename : String) : Bool := filename.toList.head? == some '/'

/-- `isAdmissionPaused(filename)`: any entry keeps the gate shut, and so does any error but `ENOENT`. -/
def isAdmissionPaused (filename : Option String) : Script (ServerOp H V) Empty BridgeError Bool :=
  match filename with
  | none => pure true
  | some filename =>
    if isAbsolute filename then do
      let found ← perform (.lstat filename)
      match found with
      | .error .noEntry => pure false
      | _ => pure true
    else pure true

def admissionPaused : BridgeError := ⟨"admission_paused", "Bridge update in progress", 503⟩

/-- What the server does with a request that is admitted. -/
def handled (p : Script (HandlerOp H V) Empty BridgeError A) : Script (ServerOp H V) Empty BridgeError A :=
  ExceptT.mk (p.run.mapOp HandlerOp.lift)

variable (server : Server) (config : ServerConfig H V R A)

/-- The response to a health request: the flag is looked for first, and the counter is read last. -/
def health (round : Nat) : Script (ServerOp H V) Empty BridgeError (Reply A) := do
  let paused ← isAdmissionPaused config.admissionPausePath
  perform (.sendHealth server round ⟨"ok", config.product, config.agentId, if paused then "paused" else "open", 0⟩)
  pure .health

/-- A request that is no health request: it is refused while admission is paused. -/
def entered (request : Incoming R) : Script (ServerOp H V) Empty BridgeError (Reply A) := do
  let paused ← isAdmissionPaused config.admissionPausePath
  demand (!paused) admissionPaused
  let response ← handled (config.handler request)
  pure (.answered response)

/-- The listener of a server. A request is uncounted at the very end, however it ends. -/
def listen (request : Incoming R) (round : Nat) : Script (ServerOp H V) Empty BridgeError (Reply A) := do
  onlyIf request.tracked (perform (.count server))
  (tryCatch (if request.tracked then entered config request else health server config round)
    fun e => pure (.failure e)).andFinally (onlyIf request.tracked (perform (.uncount server)))

/-- `createAgentServer({ config, … })` -/
def createAgentServer (agentId : String) (admissionPausePath : Option String)
    (handler : Incoming R → Script (HandlerOp H V) Empty BridgeError A) : ServerConfig H V R A :=
  ⟨"DP Beget Bridge", some agentId, admissionPausePath, handler⟩

/-- `createSessionHostServer({ …, admissionPausePath })` -/
def createSessionHostServer (admissionPausePath : Option String)
    (handler : Incoming R → Script (HandlerOp H V) Empty BridgeError A) : ServerConfig H V R A :=
  ⟨"DP Beget Bridge Session Host", none, admissionPausePath, handler⟩

/-! ## The update -/

/-- `value?.status === "ok" && value.admission === "paused" && value.inFlightRequests === 0` -/
def HealthReport.drained (report : HealthReport) : Bool :=
  report.status == "ok" && report.admission == "paused" && report.inFlightRequests == 0

/-- The rounds for which the deadline leaves time. In a round all probes answer in time, or it counts for nothing. -/
def drainRounds (probes : List Server) : List Nat → Script (ServerOp H V) Empty String Nat
  | [] => throw "Admission drain not proven before deadline"
  | round :: rounds => do
    let reports ← perform (.probe probes round)
    match reports with
    | none => drainRounds probes rounds
    | some sent => if sent.all fun e => e.report.drained then pure probes.length else drainRounds probes rounds

/-- `Number.isSafeInteger(value) && value >= 1` -/
def safePositive (value : Int) : Bool := decide (1 ≤ value) && decide (value < 2 ^ 53)

/-- `waitForAdmissionDrain({ probes, timeoutMs, intervalMs })`, by the rounds that it makes. -/
def waitForAdmissionDrain (probes : List Server) (timeoutMs intervalMs : Int) (rounds : List Nat) :
    Script (ServerOp H V) Empty String Nat := do
  demand (!probes.isEmpty && safePositive timeoutMs && safePositive intervalMs)
    "Explicit health probes and bounded drain timing are required"
  drainRounds probes rounds

end Programs

/-! ## Requests and updates in a pool -/

/-- A request to a server, for a round of probes if it is a health request, or an update. -/
inductive ServerCall (R : Type)
  | request (server : Server) (request : Incoming R) (round : Nat)
  | drain (probes : List Server) (timeoutMs intervalMs : Int) (rounds : List Nat)
  deriving DecidableEq

/-- Where a request stands. -/
inductive Phase
  | waiting
  | counted
  | admitted
  | finished
  deriving DecidableEq

/-- Where a request stands, and the last reports that an update had, with its probes. -/
structure ServerNotes where
  phase : Phase
  probed : List Server
  reports : List Sent

section Pool

variable {H V W R A : Type}

/-- What a call has noted. A request is admitted when it finds no flag. -/
def noted {β : Type} : ServerOp H V β → β → ServerNotes → ServerNotes
  | .count _, _, n => { n with phase := .counted }
  | .uncount _, _, n => { n with phase := .finished }
  | .lstat _, .error .noEntry, n => if n.phase = .counted then { n with phase := .admitted } else n
  | .probe probes _, some sent, n => { n with probed := probes, reports := sent }
  | _, _, n => n

def replied : Except BridgeError (Reply A) → Reply A
  | .ok reply => reply
  | .error e => .failure e

def concluded : Except String Nat → Reply A
  | .ok services => .drained services
  | .error message => .undrained message

/-- The program of a call. -/
def ServerCall.program (config : Server → ServerConfig H V R A) : ServerCall R → Prog (ServerOp H V) Empty (Reply A)
  | .request server incoming round => replied <$> (listen server (config server) incoming round).run
  | .drain probes timeoutMs intervalMs rounds =>
    concluded <$> (waitForAdmissionDrain probes timeoutMs intervalMs rounds).run

/-- What happens apart from the calls: entries come and go, `lstat` and the probes are about to fail, and what the
handlers act on changes. -/
structure Outside (W : Type) where
  entries : String → Bool
  unreadable : Bool
  lost : Bool
  world : W

/-- A name is removed once more. -/
def ServerState.removed (s : ServerState W) (entries : String → Bool) (path : String) : Nat :=
  s.removals path + if s.entries path && !entries path then 1 else 0

/-- Requests to the two servers, and updates. -/
def servers (work : H → W → V × W) (config : Server → ServerConfig H V R A) :
    Calls (ServerOp H V) Empty (ServerState W) (ServerCall R) ServerNotes (Outside W) (Reply A) where
  exec op s := .ok (op.exec work s)
  Fault _ := False
  ready _ _ := True
  program call := call.program config
  notes _ := ⟨.waiting, [], []⟩
  note op a _ n := noted op a n
  elsewhere e s s' := s' = { s with
    entries := e.entries, removals := s.removed e.entries, unreadable := e.unreadable, lost := e.lost, world := e.world }

/-- No request was counted yet, and no report sent. -/
def ServerState.initial (entries : String → Bool) (unreadable lost : Bool) (world : W) : ServerState W :=
  ⟨fun _ => 0, entries, fun _ => 0, unreadable, lost, [], world⟩

end Pool

end BegetBridge.Release
