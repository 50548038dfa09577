import BegetBridge.Attachment.Address
import BegetBridge.Interleaving.Noting
import BegetBridge.Terminal.Session

/-!
# The attachment fetcher

A fetch resolves the host of a URL by itself, refuses it unless all its addresses are public, and opens a
connection to one of them; redirects are followed by the same rules. The body that it returns is cut at the size
limit. A fetch has one of a limited number of slots until it fails, its body ends, or it is disposed of.

## Main definitions

* `ByteLimit`, `AbortScope`, `Transfer`: a body, the reason to give up, and a fetch that has a slot
* `Fetcher.exec`: what a fetch asks for in the course of its program
* `Fetcher.happens`: what others do to it: aborts, the deadline, the body, and its reader
* `AttachmentFetcher.fetch`: the program
-/

namespace BegetBridge.Attachment

open Interleaving
open Terminal (BridgeError)

/-- What a fetch throws: an error of its own, or another. -/
inductive FetchError
  | bridge (e : BridgeError)
  | other
  deriving DecidableEq

/-- `failure(code, message, status)` -/
def failure (code message : String) (status : Nat) : FetchError := .bridge ⟨code, message, status⟩

def attachmentBusy : FetchError := failure "attachment_busy" "Attachment transfer concurrency limit reached" 429

def urlBlocked : FetchError := failure "attachment_url_blocked" "Attachment source URL is not allowed" 400

def dnsFailed : FetchError := failure "attachment_dns_failed" "Attachment source could not be resolved" 502

def addressBlocked : FetchError :=
  failure "attachment_address_blocked" "Attachment source resolved to a blocked address" 400

def fetchFailed : FetchError := failure "attachment_fetch_failed" "Attachment source request failed" 502

def invalidResponse : FetchError :=
  failure "attachment_fetch_failed" "Attachment source returned an invalid response" 502

def redirectBlocked : FetchError :=
  failure "attachment_redirect_blocked" "Attachment redirect policy rejected the response" 502

def tooLarge : FetchError := failure "attachment_too_large" "Attachment exceeds the configured size limit" 413

def deadlineExceeded : FetchError := failure "attachment_timeout" "Attachment transfer exceeded its deadline" 504

def cancelled : FetchError := failure "attachment_cancelled" "Attachment transfer was cancelled" 499

/-! ## A fetch that has a slot -/

/-- How a stream is over. -/
inductive Ending
  | ended
  | destroyed (e : Option FetchError)
  deriving DecidableEq

/-- `ByteLimit`, with the bytes that it let pass. -/
structure ByteLimit where
  maxBytes : Nat
  bytes : Nat
  passed : List UInt8
  ending : Option Ending
  deriving DecidableEq

def ByteLimit.of (maxBytes : Nat) : ByteLimit := ⟨maxBytes, 0, [], none⟩

/-- A stream is over in one way. -/
def ByteLimit.finish (l : ByteLimit) (ending : Ending) : ByteLimit :=
  match l.ending with
  | none => { l with ending := some ending }
  | some _ => l

/-- `_transform(chunk)`: what is let through, and the error otherwise. -/
def ByteLimit.transform (l : ByteLimit) (chunk : List UInt8) : ByteLimit × Option FetchError :=
  let l := { l with bytes := l.bytes + chunk.length }
  if l.maxBytes < l.bytes then (l, some tooLarge)
  else ({ l with passed := l.passed ++ chunk }, none)

/-- `createAbortScope`: why its signal is aborted, whether its deadline has passed, and whether it is closed. -/
structure AbortScope where
  reason : Option FetchError
  timeout : Bool
  closed : Bool
  deriving DecidableEq

namespace AbortScope

/-- `signal.aborted` -/
def aborted (scope : AbortScope) : Bool := scope.reason.isSome

/-- `error()` -/
def error (scope : AbortScope) : FetchError :=
  match scope.reason with
  | some (.bridge e) => .bridge e
  | _ => if scope.timeout then deadlineExceeded else cancelled

/-- `abort(reason)`, by whom it may be: the first reason stands. -/
def abort (scope : AbortScope) (reason : FetchError) : AbortScope :=
  match scope.reason with
  | none => { scope with reason := some reason }
  | some _ => scope

end AbortScope

/-- Where a fetch is: it looks for the body, it has returned the body, or it is over. -/
inductive Stage
  | fetching
  | streaming
  | gone
  deriving DecidableEq

def Stage.rank : Stage → Nat
  | fetching => 0
  | streaming => 1
  | gone => 2

/-- A fetch that was given a slot: its abort scope, its body with the listener that destroys it, whether it has
released its slot, and how often it gave one back. -/
structure Transfer where
  scope : AbortScope
  limited : Option ByteLimit
  listening : Bool
  released : Bool
  givenBack : Nat
  stage : Stage
  deriving DecidableEq

namespace Transfer

/-- A fetch begins. The signal of the caller may be aborted before. -/
def begun (signal : Option FetchError) : Transfer := ⟨⟨signal, false, false⟩, none, false, false, 0, .fetching⟩

/-- `release()`, with the number of slots that are given back. -/
def release (x : Transfer) : Transfer × Nat :=
  if x.released then (x, 0)
  else ({ x with released := true, scope := { x.scope with closed := true }, givenBack := x.givenBack + 1 }, 1)

/-- The slot is released, and the fetch is over. -/
def leave (x : Transfer) : Transfer × Nat := ({ x.release.1 with stage := .gone }, x.release.2)

/-- The body is destroyed. -/
def destroy (x : Transfer) (e : Option FetchError) : Transfer :=
  { x with limited := x.limited.map fun l => l.finish (.destroyed e) }

/-- The signal is aborted for a reason. The body is destroyed by the listener, where it listens by then. -/
def aborting (x : Transfer) (reason : FetchError) : Transfer :=
  if x.scope.aborted then x
  else
    let x := { x with scope := x.scope.abort reason }
    if x.listening then x.destroy (some x.scope.error) else x

/-- The caller aborts: the scope listens until it is closed. -/
def abort (x : Transfer) (reason : FetchError) : Transfer := if x.scope.closed then x else x.aborting reason

/-- The deadline passes, unless the scope is closed. -/
def expire (x : Transfer) : Transfer :=
  if x.scope.closed then x else { x with scope := { x.scope with timeout := true } }.aborting deadlineExceeded

/-- A part of the body arrives. When it is too much, the stream is destroyed and the scope aborted. -/
def receive (x : Transfer) (chunk : List UInt8) : Transfer :=
  match x.limited with
  | none => x
  | some l =>
    if l.ending.isSome then x
    else
      match l.transform chunk with
      | (l, none) => { x with limited := some l }
      | (l, some e) => { x with limited := some (l.finish (.destroyed (some e))) }.aborting e

/-- The body is over, by itself or because its reader wants no more. -/
def finish (x : Transfer) (ending : Ending) : Transfer :=
  { x with limited := x.limited.map fun l => l.finish ending }

/-- `finished(limited).then(release, release)` -/
def settle (x : Transfer) : Transfer × Nat :=
  if x.limited.any fun l => l.ending.isSome then x.leave else (x, 0)

/-- `dispose()`, which belongs to what is returned with the body. -/
def dispose (x : Transfer) : Transfer × Nat :=
  if x.limited.isSome then ({ x with listening := false }.destroy none).leave else (x, 0)

/-- The body goes through a limit, and an abort destroys it from now on. -/
def stream (x : Transfer) (maxBytes : Nat) : Transfer :=
  { x with limited := some (.of maxBytes), listening := true, stage := .streaming }

end Transfer

/-! ## What a fetch asks for -/

structure Url where
  protocol : String
  username : String
  password : String
  hostname : String
  port : String
  href : String
  deriving DecidableEq

/-- `new URL(text)` and `new URL(text, base)`, which throw where there is no URL. -/
structure UrlParser where
  parse : String → Option Url
  parseFrom : String → Url → Option Url

/-- An address that a name resolves to. -/
structure AddressRecord where
  address : String
  family : Nat
  deriving DecidableEq

/-- A response, with the number that its `content-length` starts with. -/
structure Response where
  statusCode : Nat
  location : Option String
  contentLength : Option Int
  body : Bool
  deriving DecidableEq

/-- What the resolver and the server will answer. A resolver may answer with something else than an array. -/
structure Outside where
  records : Except FetchError (Option (List AddressRecord))
  response : Except FetchError Response

/-- What a fetch does between its pauses. Errors are answers like others. -/
inductive FetchOp : Type → Type
  | acquire (signal : Option FetchError) : FetchOp (Except FetchError Nat)
  | abortError (t : Nat) : FetchOp (Option FetchError)
  | resolve (t : Nat) (hostname : String) : FetchOp (Except FetchError (Option (List AddressRecord)))
  | openHttps (t : Nat) (url : Url) (address : String) (family : Nat) : FetchOp (Except FetchError Response)
  | destroy (t : Nat) : FetchOp Unit
  | stream (t maxBytes : Nat) : FetchOp Unit
  | giveUp (t : Nat) : FetchOp Unit

/-- `AttachmentFetcher`, as its constructor accepts it. -/
structure AttachmentFetcher where
  timeoutMs : Nat
  maxBytes : Nat
  maxRedirects : Nat
  maxConcurrent : Nat
  timeoutMs_pos : 1 ≤ timeoutMs
  maxBytes_pos : 1 ≤ maxBytes
  maxConcurrent_pos : 1 ≤ maxConcurrent

/-- A fetcher at work: how many slots are taken, the fetches that got one, and what is outside. -/
structure Fetcher where
  active : Int
  transfers : List Transfer
  outside : Outside

namespace Fetcher

def idle (outside : Outside) : Fetcher := ⟨0, [], outside⟩

/-- One fetch changes, and gives slots back. -/
def act (s : Fetcher) (t : Nat) (f : Transfer → Transfer × Nat) : Fetcher :=
  match s.transfers[t]? with
  | none => s
  | some x => { s with active := s.active - (f x).2, transfers := s.transfers.set t (f x).1 }

/-- The abort scope of a fetch. -/
def scope (s : Fetcher) (t : Nat) : Option AbortScope := s.transfers[t]?.map Transfer.scope

/-- `scope.signal.aborted ? scope.error() : …` -/
def abortError (s : Fetcher) (t : Nat) : Option FetchError :=
  (s.scope t).bind fun scope => if scope.aborted then some scope.error else none

/-- What a fetch gets. The resolver is heard only while the signal is not aborted. -/
def exec (f : AttachmentFetcher) {α : Type} : FetchOp α → Fetcher → α × Fetcher
  | .acquire signal, s =>
    if s.active ≥ f.maxConcurrent then (.error attachmentBusy, s)
    else
      (.ok s.transfers.length, { s with active := s.active + 1, transfers := s.transfers ++ [.begun signal] })
  | .abortError t, s => (s.abortError t, s)
  | .resolve t _, s =>
    match s.abortError t with
    | some e => (.error e, s)
    | none => (s.outside.records, s)
  | .openHttps _ _ _ _, s => (s.outside.response, s)
  | .destroy _, s => ((), s)
  | .stream t maxBytes, s => ((), s.act t fun x => (x.stream maxBytes, 0))
  | .giveUp t, s => ((), s.act t Transfer.leave)

end Fetcher

/-- What happens to a fetch: its caller aborts, the deadline passes, a part of the body arrives, the body is over,
its end is noticed, or it is disposed of. -/
inductive FetchEvent
  | answers (outside : Outside)
  | aborts (t : Nat) (reason : FetchError)
  | expires (t : Nat)
  | receives (t : Nat) (chunk : List UInt8)
  | finishes (t : Nat) (ending : Ending)
  | settles (t : Nat)
  | disposes (t : Nat)

/-- What others do. The resolver and the servers may change their answers at any time. -/
def Fetcher.happens (s : Fetcher) : FetchEvent → Fetcher
  | .answers outside => { s with outside := outside }
  | .aborts t reason => s.act t fun x => (x.abort reason, 0)
  | .expires t => s.act t fun x => (x.expire, 0)
  | .receives t chunk => s.act t fun x => (x.receive chunk, 0)
  | .finishes t ending => s.act t fun x => (x.finish ending, 0)
  | .settles t => s.act t Transfer.settle
  | .disposes t => s.act t Transfer.dispose

/-! ## The program -/

/-- A program of a fetch, with a pause at each step. -/
abbrev FetchScript := Script FetchOp Empty FetchError

def step {α : Type} (op : FetchOp α) : FetchScript α := Script.perform Empty.elim op

/-- What was answered, or the error thrown. -/
def answered {α : Type} : Except FetchError α → FetchScript α
  | .ok a => pure a
  | .error e => throw e

/-- What does not hold is an error. -/
def demand (holds : Bool) (e : FetchError) : FetchScript Unit := if holds then pure () else throw e

/-- `if (scope.signal.aborted) throw scope.error()` -/
def throwIfAborted (t : Nat) : FetchScript Unit := do
  match ← step (.abortError t) with
  | some e => throw e
  | none => pure ()

/-- `https:`, without credentials, on the default port -/
def allowedUrl (url : Url) : Bool :=
  url.protocol == "https:" && url.username == "" && url.password == "" && (url.port == "" || url.port == "443")

/-- `REDIRECT_STATUSES` -/
def redirectStatuses : List Nat := [301, 302, 303, 307, 308]

/-- `records[0]`, unless there are none or one of them is not public -/
def selectAddress : Option (List AddressRecord) → Except FetchError AddressRecord
  | none | some [] => .error dnsFailed
  | some (selected :: others) =>
    if (selected :: others).any fun r => !isPublicAttachmentAddress r.address then .error addressBlocked
    else .ok selected

/-- The connection is opened; what goes wrong is the abort, if there was one. -/
def connect (t : Nat) (url : Url) (selected : AddressRecord) : FetchScript Response := do
  match ← step (.openHttps t url selected.address selected.family) with
  | .ok response => pure response
  | .error _ =>
    throwIfAborted t
    throw fetchFailed

/-- `if (error instanceof BridgeError) throw error; throw failure(…)` -/
def rethrown : FetchError → FetchError
  | .bridge e => .bridge e
  | .other => fetchFailed

/-- The response is dropped. -/
def dropped {α : Type} (t : Nat) (e : FetchError) : FetchScript α := do
  step (.destroy t)
  throw e

namespace AttachmentFetcher

variable (f : AttachmentFetcher) (urls : UrlParser)

/-- The loop over the redirects: `left` is the number of rounds that remain, this one included. -/
def follow (t : Nat) : Nat → Url → FetchScript Unit
  | 0, _ => throw redirectBlocked
  | left + 1, current => do
    throwIfAborted t
    demand (allowedUrl current) urlBlocked
    let records ← step (.resolve t current.hostname)
    let records ← answered records
    let selected ← answered (selectAddress records)
    let response ← connect t current selected
    if redirectStatuses.contains response.statusCode then
      step (.destroy t)
      match response.location with
      | none => throw redirectBlocked
      | some location =>
        demand (!location.isEmpty && left != 0) redirectBlocked
        match urls.parseFrom location current with
        | none => throw .other
        | some next => follow t left next
    else if response.statusCode < 200 || response.statusCode ≥ 300 || !response.body then
      dropped t invalidResponse
    else if response.contentLength.any fun declared => (f.maxBytes : Int) < declared then dropped t tooLarge
    else step (.stream t f.maxBytes)

/-- `fetch(rawUrl, { signal })`, where the signal is aborted before for a reason or not. -/
def fetch (rawUrl : String) (signal : Option FetchError) : FetchScript Nat := do
  let ticket ← step (.acquire signal)
  let t ← answered ticket
  tryCatch
    (match urls.parse rawUrl with
    | none => throw .other
    | some current => do
      f.follow urls t (f.maxRedirects + 1) current
      pure t)
    fun e => do
      step (.giveUp t)
      throw (rethrown e)

end AttachmentFetcher

end BegetBridge.Attachment
