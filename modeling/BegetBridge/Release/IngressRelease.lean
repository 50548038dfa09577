import BegetBridge.Interleaving.Ending
import BegetBridge.Posix.Disk

/-!
# The release of the ingress

Two controllers open the ingress: one before the managed release, one before the legacy services. Each
records that the ingress is open, removes the persistent marker that keeps it closed over a restart, starts
the socket and the tunnel and checks them. When one of these steps fails, the marker is put back or
verified, every unit of the ingress is stopped, and the failures are thrown.

## Main definitions

* `verifyMarker`, `createPersistentMarker`, `removePersistentMarker`: the marker
* `Controller`: the two controllers, with their steps
* `closing`, `released`: the steps, and what is done when one fails
* `Ensures`: what holds where a script of the site returns
* `Closes`: how a failed release ends

## Main results

* `marker_restored`: the marker is there when it has been put back or verified
* `failed_release_closes`: a failed release closes the ingress again
* `stopped_without_marker`: the units are stopped even where the marker cannot be put back
-/

namespace BegetBridge.Release

open Posix Interleaving

/-! ## The site -/

/-- A marker: whether it is a file of the root user with one name that others cannot write, and whether its
path leads to it without links. -/
structure MarkerNode where
  plain : Bool
  canonical : Bool
  content : String
  deriving DecidableEq

/-- The text of a marker. -/
def markerText : String := "dp-beget-bridge-migration-incomplete-v1\n"

/-- The marker with its directory, and what the units and the proofs answer, one time after the other. -/
structure Site where
  parentPlain : Bool
  parentCanonical : Bool
  marker : Option MarkerNode
  states : Nat → String
  proofs : Nat → Bool
  asked : Nat

/-- What is proven of the system before an ingress stays open. -/
inductive Check
  | publicPaused
  | localPaused
  | admissionPause
  | routeExclusive
  | publicLegacy
  | permitAbsent
  | ingressGuard
  | writerGuards
  | legacyHealthy
  deriving DecidableEq

/-- The calls of a release but for its end. -/
inductive SiteCall : Type → Type
  | statParent : SiteCall Bool
  | realpathParent : SiteCall Bool
  | lstatMarker : SiteCall (Bool × Nat)
  | realpathMarker : SiteCall Bool
  | openMarker : SiteCall Unit
  | readMarker : SiteCall String
  | closeMarker : SiteCall Unit
  | unlinkMarker : SiteCall Unit
  | createMarker : SiteCall Unit
  | writeMarker (text : String) : SiteCall Unit
  | syncMarker : SiteCall Unit
  | openParent : SiteCall Unit
  | syncParent : SiteCall Unit
  | closeParent : SiteCall Unit
  | startUnit (unit : String) : SiteCall Unit
  | getState (unit : String) : SiteCall String
  | confirm (check : Check) : SiteCall Unit
  | prove (check : Check) : SiteCall Bool

namespace Site

def withMarker (s : Site) (marker : Option MarkerNode) : Site := { s with marker := marker }

/-- What a call does. -/
def exec : {β : Type} → SiteCall β → Site → Except Errno (β × Site)
  | _, .statParent, s => .ok (s.parentPlain, s)
  | _, .realpathParent, s => .ok (s.parentCanonical, s)
  | _, .lstatMarker, s =>
    s.marker.elim (.error .ENOENT) fun node => .ok ((node.plain, node.content.utf8ByteSize), s)
  | _, .realpathMarker, s => s.marker.elim (.error .ENOENT) fun node => .ok (node.canonical, s)
  | _, .openMarker, s => s.marker.elim (.error .ENOENT) fun _ => .ok ((), s)
  | _, .readMarker, s => s.marker.elim (.error .other) fun node => .ok (node.content, s)
  | _, .closeMarker, s => .ok ((), s)
  | _, .unlinkMarker, s => s.marker.elim (.error .ENOENT) fun _ => .ok ((), s.withMarker none)
  | _, .createMarker, s =>
    s.marker.elim (.ok ((), s.withMarker (some ⟨true, s.parentCanonical, ""⟩))) fun _ => .error .EEXIST
  | _, .writeMarker text, s =>
    s.marker.elim (.error .other) fun node =>
      .ok ((), s.withMarker (some { node with content := node.content ++ text }))
  | _, .syncMarker, s => .ok ((), s)
  | _, .openParent, s => .ok ((), s)
  | _, .syncParent, s => .ok ((), s)
  | _, .closeParent, s => .ok ((), s)
  | _, .startUnit _, s => .ok ((), s)
  | _, .getState _, s => .ok (s.states s.asked, { s with asked := s.asked + 1 })
  | _, .confirm _, s => .ok ((), s)
  | _, .prove _, s => .ok (s.proofs s.asked, { s with asked := s.asked + 1 })

/-- There is a marker that `verifyMarker` accepts. -/
def MarkerSafe (s : Site) : Prop :=
  s.parentPlain = true ∧ s.parentCanonical = true ∧ s.marker = some ⟨true, true, markerText⟩

end Site

def site : Backend SiteCall Errno Site := ⟨Site.exec⟩

/-- What a step throws. -/
inductive IngressFailure
  | system (e : Errno)
  | refused (message : String)
  deriving DecidableEq

abbrev SiteScript := Script SiteCall Errno IngressFailure

def siteCall {β : Type} (call : SiteCall β) : SiteScript β := .perform .system call

def require (holds : Bool) (message : String) : SiteScript Unit :=
  if holds then pure () else throw (.refused message)

/-- What is asked only where the rest of a condition holds. -/
def askedIf (holds : Bool) (call : SiteCall Bool) : SiteScript Bool :=
  if holds then siteCall call else pure false

/-! ## The marker -/

/-- `verifyMarker(marker)`, where `guarded` is whether `guardContent` accepts the path. -/
def verifyMarker (guarded : Bool) : SiteScript Unit := do
  require guarded "Guard requires a normalized persistent absolute marker path"
  let plain ← siteCall .statParent
  let canonical ← askedIf plain .realpathParent
  require canonical "Untrusted migration marker parent"
  let info ← siteCall .lstatMarker
  let canonical ← askedIf (info.1 && info.2 == 40) .realpathMarker
  require canonical "Untrusted persistent migration marker"
  siteCall .openMarker
  Script.andFinally (do
    let content ← siteCall .readMarker
    require (content == markerText) "Untrusted persistent migration marker") (siteCall .closeMarker)

/-- `syncDirectory(path.dirname(marker))` -/
def syncDirectory : SiteScript Unit := do
  siteCall .openParent
  Script.andFinally (siteCall .syncParent) (siteCall .closeParent)

/-- `createPersistentMarker(marker)` -/
def createPersistentMarker (guarded : Bool) : SiteScript Unit := do
  require guarded "Guard requires a normalized persistent absolute marker path"
  let plain ← siteCall .statParent
  let canonical ← askedIf plain .realpathParent
  require canonical "Untrusted persistent marker parent"
  siteCall .createMarker
  Script.andFinally (do
    siteCall (.writeMarker markerText)
    siteCall .syncMarker) (siteCall .closeMarker)
  syncDirectory

/-- `removePersistentMarker(marker)` -/
def removePersistentMarker (guarded : Bool) : SiteScript Unit := do
  verifyMarker guarded
  siteCall .unlinkMarker
  syncDirectory

/-- `absent(marker)` -/
def absent : SiteScript Bool :=
  tryCatch (do
    let _ ← siteCall .lstatMarker
    return false) fun e => if e = .system .ENOENT then pure true else throw e

/-! ## The controllers -/

def ingressUnits : List String :=
  ["dp-beget-oauth-proxy.socket", "dp-beget-oauth-proxy.service", "dp-beget-tunnel.service"]

def startedUnits : List String := ["dp-beget-oauth-proxy.socket", "dp-beget-tunnel.service"]

def writerUnits : List String :=
  ["dp-beget-session-host.service", "dp-beget-agent.service", "dp-beget-mcp.service",
    "dp-beget-mcp-oauth-spike.service"]

def startAll : List String → SiteScript Unit
  | [] => pure ()
  | unit :: units => do
    siteCall (.startUnit unit)
    startAll units

/-- Every unit of a list is active. -/
def assertActive (message : String → String) : List String → SiteScript Unit
  | [] => pure ()
  | unit :: units => do
    let state ← siteCall (.getState unit)
    require (state == "active") (message unit)
    assertActive message units

def assertProven (check : Check) (message : String) : SiteScript Unit := do
  let proven ← siteCall (.prove check)
  require proven message

/-- `proof(boundary, false)` -/
def legacyProof : SiteScript Unit := do
  let gone ← absent
  require gone "Legacy ingress marker remains active"
  siteCall (.confirm .permitAbsent)
  siteCall (.confirm .ingressGuard)
  siteCall (.confirm .writerGuards)
  assertActive (fun unit => "Recovered R0003 writer is not active: " ++ unit) writerUnits
  siteCall (.confirm .legacyHealthy)
  assertProven .routeExclusive "Exclusive legacy public route not proven"

/-- The controllers: `openManagedIngress` and `reopenLegacyIngress`. -/
inductive Controller
  | managed
  | legacy
  deriving DecidableEq

/-- What a controller tries. -/
def Controller.release (guarded : Bool) : Controller → SiteScript Unit
  | .managed => do
    removePersistentMarker guarded
    startAll startedUnits
    assertActive (fun unit => "Dedicated ingress did not start: " ++ unit) startedUnits
    assertProven .publicPaused "Public admission denial not proven"
    siteCall (.confirm .localPaused)
    siteCall (.confirm .admissionPause)
    assertProven .routeExclusive "Exclusive public OAuth route changed"
  | .legacy => do
    removePersistentMarker guarded
    startAll startedUnits
    legacyProof
    assertActive (fun unit => "Legacy ingress failed to start: " ++ unit) startedUnits
    assertProven .publicLegacy "Public R0003 response not proven"
    legacyProof

/-- How a controller puts the marker back. -/
def Controller.remark (guarded : Bool) : Controller → SiteScript Unit
  | .managed =>
    tryCatch (do
      let _ ← siteCall .lstatMarker
      verifyMarker guarded) fun e => if e ≠ .system .ENOENT then throw e else createPersistentMarker guarded
  | .legacy => do
    if ← absent then createPersistentMarker guarded else verifyMarker guarded

def Controller.message : Controller → String
  | .managed => "Ingress release and safe closure failed"
  | .legacy => "Legacy ingress release and closure failed"

/-! ## The release -/

/-- What the journal of the migration says of the ingress. -/
inductive IngressPhase
  | locallyHealthy
  | ingressOpen
  | completed
  deriving DecidableEq

/-- The site with the journal. -/
structure Gate where
  site : Site
  phase : IngressPhase

/-- The calls on the journal, and those that stop a unit. -/
inductive ControlCall : Type → Type
  | advanceJournal (expected next : IngressPhase) : ControlCall Unit
  | stopUnit (unit : String) : ControlCall Unit

/-- The calls of a controller. -/
inductive GateCall (β : Type) : Type
  | site (call : SiteCall β)
  | control (call : ControlCall β)

namespace Gate

def control : {β : Type} → ControlCall β → Gate → Except Errno (β × Gate)
  | _, .advanceJournal expected next, g =>
    if g.phase = expected then .ok ((), { g with phase := next }) else .error .other
  | _, .stopUnit _, g => .ok ((), g)

def exec {β : Type} : GateCall β → Gate → Except Errno (β × Gate)
  | .site call, g => (g.site.exec call).map fun r => (r.1, { g with site := r.2 })
  | .control call, g => g.control call

end Gate

def gate : Backend GateCall Errno Gate := ⟨Gate.exec⟩

/-- What a controller throws: an error, or an `AggregateError`. -/
inductive IngressThrown
  | plain (e : IngressFailure)
  | aggregate (errors : List IngressFailure) (message : String)
  deriving DecidableEq

abbrev GateScript := Script GateCall Errno IngressThrown

/-- The calls of the site, with what they throw as a value. -/
def attempted {α : Type} (p : SiteScript α) : GateScript (Except IngressFailure α) :=
  ExceptT.mk ((p.run.mapOp .site).bind fun r => .done (.ok r))

/-- Every unit is stopped, whatever comes of it. -/
def stopAll : List String → List IngressFailure → GateScript (List IngressFailure)
  | [], failures => pure failures
  | unit :: units, failures =>
    ExceptT.mk (.call (.control (.stopUnit unit)) fun
      | .ok _ => (stopAll units failures).run
      | .error e => (stopAll units (failures ++ [.system e])).run)

/-- What the handler throws of the first error and the failures after it. -/
def closure (message : String) (error : IngressFailure) (failures : List IngressFailure) : IngressThrown :=
  if failures.isEmpty then .plain error else .aggregate (error :: failures) message

def failuresOf : Except IngressFailure Unit → List IngressFailure
  | .ok _ => []
  | .error e => [e]

/-- What is done when a release fails: the marker first, then the units. -/
def closing (guarded : Bool) (c : Controller) (error : IngressFailure) : GateScript Unit := do
  let marker ← attempted (c.remark guarded)
  let failures ← stopAll ingressUnits (failuresOf marker)
  throw (closure c.message error failures)

/-- The block in which a controller releases the ingress. -/
def released (guarded : Bool) (c : Controller) : GateScript Unit := do
  match ← attempted (c.release guarded) with
  | .ok _ => pure ()
  | .error e => closing guarded c e

/-- The journal says first that the ingress is open. -/
def openIngress (guarded : Bool) (c : Controller) : GateScript Unit := do
  .perform (fun e => .plain (.system e)) (.control (.advanceJournal .locallyHealthy .ingressOpen))
  released guarded c

/-! ## The marker afterwards -/

section Marker

variable {Fault : Errno → Prop} {guarded : Bool} {s : Site} {α β : Type}

/-- Where the script returns, `Q` holds of what it returns. -/
def Ensures (Fault : Errno → Prop) (p : SiteScript α) (Q : α → Site → Prop) (s : Site) : Prop :=
  Script.Ends site Fault (fun _ => True) p (fun _ x s' => ∀ a, x = .ok a → Q a s') s

theorem ends_trivial (p : Prog SiteCall Errno α) (s : Site) :
    p.Ends site Fault (fun _ => True) (fun _ _ _ => True) s := by
  induction p generalizing s with
  | done a => exact ⟨trivial, trivial⟩
  | call op k ih => exact ⟨trivial, fun r s' _ => ih r s'⟩

theorem ensures_pure {a : α} {Q : α → Site → Prop} (h : Q a s) : Ensures Fault (pure a) Q s := by
  refine Script.ends_pure trivial fun b hb => ?_
  obtain rfl := Except.ok.inj hb
  exact h

theorem ensures_throw {e : IngressFailure} {Q : α → Site → Prop} : Ensures Fault (throw e) Q s :=
  Script.ends_throw trivial fun _ h => absurd h nofun

theorem ensures_bind {p : SiteScript β} {f : β → SiteScript α} {Q : α → Site → Prop}
    (h : Ensures Fault p (fun b s' => Ensures Fault (f b) Q s') s) : Ensures Fault (p >>= f) Q s := by
  refine Script.ends_bind (Script.ends_mono ?_ h)
  rintro tr (e | b) s' - hb
  · exact fun _ h => absurd h nofun
  · exact hb b rfl

theorem ensures_call {call : SiteCall β} {Q : β → Site → Prop}
    (h : ∀ b s', s.exec call = .ok (b, s') → Q b s') : Ensures Fault (siteCall call) Q s := by
  refine Script.ends_perform trivial (fun b s' hexec => ⟨trivial, fun a ha => ?_⟩)
    fun e _ h => absurd h nofun
  obtain rfl := Except.ok.inj ha
  exact h b s' hexec

theorem ensures_require {holds : Bool} {message : String} {Q : Unit → Site → Prop}
    (h : holds = true → Q () s) : Ensures Fault (require holds message) Q s := by
  rw [require]
  split
  · exact ensures_pure (h ‹_›)
  · exact ensures_throw

theorem ensures_finally {p : SiteScript α} {last : SiteScript Unit} {Q : α → Site → Prop}
    (h : Ensures Fault p (fun a s' => Ensures Fault last (fun _ s'' => Q a s'') s') s) :
    Ensures Fault (p.andFinally last) Q s := by
  refine Script.ends_finally (Script.ends_mono ?_ h)
  rintro tr (e | a) s' - ha
  · -- what is thrown first is thrown in the end
    refine Script.ends_mono ?_ (ends_trivial last.run s')
    rintro tr' (e' | _) s'' - - a h
    · exact absurd h nofun
    · exact absurd h nofun
  · refine Script.ends_mono ?_ (ha a rfl)
    rintro tr' (e' | u) s'' - hq b hb
    · exact absurd hb nofun
    · obtain rfl := Except.ok.inj hb
      exact hq u rfl

theorem ensures_tryCatch {p : SiteScript α} {f : IngressFailure → SiteScript α} {Q : α → Site → Prop}
    (h : Ensures Fault p Q s) (hcatch : ∀ e s', Ensures Fault (f e) Q s') :
    Ensures Fault (tryCatch p f) Q s := by
  refine Script.ends_tryCatch (Script.ends_mono ?_ h)
  rintro tr (e | a) s' - ha
  · exact hcatch e s'
  · exact ha

/-- What is asked answers for the whole condition. -/
theorem askedIf_ensures {holds answer : Bool} {call : SiteCall Bool}
    (hcall : holds = true → ∀ b s', s.exec call = .ok (b, s') → b = answer ∧ s' = s) :
    Ensures Fault (askedIf holds call)
      (fun b s' => s' = s ∧ (b = true → holds = true ∧ answer = true)) s := by
  rw [askedIf]
  split
  · rename_i hholds
    refine ensures_call fun b s' h => ?_
    obtain ⟨rfl, rfl⟩ := hcall hholds b s' h
    exact ⟨rfl, fun hb => ⟨hholds, hb⟩⟩
  · exact ensures_pure ⟨rfl, nofun⟩

theorem ensures_mono {p : SiteScript α} {Q Q' : α → Site → Prop} (hQ : ∀ a s', Q a s' → Q' a s')
    (h : Ensures Fault p Q s) : Ensures Fault p Q' s :=
  Script.ends_mono (fun _ _ s' _ hr a ha => hQ a s' (hr a ha)) h

theorem ensures_trivial {p : SiteScript α} {Q : α → Site → Prop} (hQ : ∀ a s', Q a s') :
    Ensures Fault p Q s :=
  Script.ends_mono (fun _ _ s' _ _ a _ => hQ a s') (ends_trivial p.run s)

theorem parent_ensures : Ensures Fault (askedIf s.parentPlain .realpathParent)
    (fun b s' => s' = s ∧ (b = true → s.parentPlain = true ∧ s.parentCanonical = true)) s := by
  refine askedIf_ensures fun _ b s' h => ?_
  obtain ⟨rfl, rfl⟩ := Prod.mk.inj (Except.ok.inj h)
  exact ⟨rfl, rfl⟩

/-- What a call on the marker returns is said of the marker that is there. -/
theorem marker_of_ok {γ : Type} {m : Option MarkerNode} {e : Errno} {f : MarkerNode → Except Errno γ}
    {x : γ} (h : (m.elim (.error e) f : Except Errno γ) = .ok x) :
    ∃ node, m = some node ∧ f node = .ok x := by
  cases m with
  | none => cases h
  | some node => exact ⟨node, rfl, h⟩

/-- **A marker that is verified** is there. -/
theorem verifyMarker_ensures : Ensures Fault (verifyMarker guarded) (fun _ s' => s'.MarkerSafe) s := by
  refine ensures_bind (ensures_require fun _ => ensures_bind (ensures_call fun plain s₁ h₁ => ?_))
  obtain ⟨rfl, rfl⟩ := Prod.mk.inj (Except.ok.inj h₁)
  refine ensures_bind (ensures_mono ?_ parent_ensures)
  rintro canonical s₁ ⟨rfl, hparent⟩
  refine ensures_bind (ensures_require fun hcanonical => ensures_bind (ensures_call fun info s₂ h₂ => ?_))
  obtain ⟨hplain, hpath⟩ := hparent hcanonical
  obtain ⟨node, hnode, h₂⟩ := marker_of_ok h₂
  obtain ⟨rfl, rfl⟩ := Prod.mk.inj (Except.ok.inj h₂)
  have hpathOf : ∀ b s', s₁.exec .realpathMarker = .ok (b, s') → b = node.canonical ∧ s' = s₁ := by
    intro b s' h
    obtain ⟨node', hnode', h⟩ := marker_of_ok h
    obtain rfl := Option.some.inj (hnode.symm.trans hnode')
    obtain ⟨rfl, rfl⟩ := Prod.mk.inj (Except.ok.inj h)
    exact ⟨rfl, rfl⟩
  refine ensures_bind (ensures_mono ?_ (askedIf_ensures fun _ => hpathOf))
  rintro canonical s₂ ⟨rfl, hmarker⟩
  refine ensures_bind (ensures_require fun hcanonical => ensures_bind (ensures_call fun _ s₃ h₃ => ?_))
  obtain ⟨hnodePlain, hnodePath⟩ := hmarker hcanonical
  obtain ⟨_, _, h₃⟩ := marker_of_ok h₃
  obtain ⟨_, rfl⟩ := Prod.mk.inj (Except.ok.inj h₃)
  refine ensures_finally (ensures_bind (ensures_call fun content s₄ h₄ => ?_))
  obtain ⟨node', hnode', h₄⟩ := marker_of_ok h₄
  obtain rfl := Option.some.inj (hnode.symm.trans hnode')
  obtain ⟨rfl, rfl⟩ := Prod.mk.inj (Except.ok.inj h₄)
  refine ensures_require fun hcontent => ensures_call fun _ s₅ h₅ => ?_
  obtain ⟨_, rfl⟩ := Prod.mk.inj (Except.ok.inj h₅)
  refine ⟨hplain, hpath, ?_⟩
  obtain ⟨plain, path, content⟩ := node
  obtain rfl : plain = true := (Bool.and_eq_true_iff.mp hnodePlain).1
  obtain rfl : path = true := hnodePath
  obtain rfl : content = markerText := eq_of_beq hcontent
  exact hnode

theorem syncDirectory_ensures {Q : Site → Prop} (h : Q s) :
    Ensures Fault syncDirectory (fun _ s' => Q s') s := by
  refine ensures_bind (ensures_call fun _ s₁ h₁ => ?_)
  obtain ⟨_, rfl⟩ := Prod.mk.inj (Except.ok.inj h₁)
  refine ensures_finally (ensures_call fun _ s₂ h₂ => ?_)
  obtain ⟨_, rfl⟩ := Prod.mk.inj (Except.ok.inj h₂)
  refine ensures_call fun _ s₃ h₃ => ?_
  obtain ⟨_, rfl⟩ := Prod.mk.inj (Except.ok.inj h₃)
  exact h

/-- **A marker that is created** is there, with its text. -/
theorem createPersistentMarker_ensures :
    Ensures Fault (createPersistentMarker guarded) (fun _ s' => s'.MarkerSafe) s := by
  refine ensures_bind (ensures_require fun _ => ensures_bind (ensures_call fun plain s₁ h₁ => ?_))
  obtain ⟨rfl, rfl⟩ := Prod.mk.inj (Except.ok.inj h₁)
  refine ensures_bind (ensures_mono ?_ parent_ensures)
  rintro canonical s₁ ⟨rfl, hparent⟩
  refine ensures_bind (ensures_require fun hcanonical => ensures_bind (ensures_call fun _ s₂ h₂ => ?_))
  obtain ⟨hplain, hpath⟩ := hparent hcanonical
  -- the marker is new, so that its text is what is written
  have hnew : s₂ = s₁.withMarker (some ⟨true, true, ""⟩) := by
    rw [Site.exec, hpath] at h₂
    cases hm : s₁.marker with
    | none =>
      rw [hm] at h₂
      exact (Prod.mk.inj (Except.ok.inj h₂)).2.symm
    | some node =>
      rw [hm] at h₂
      cases h₂
  subst hnew
  refine ensures_bind (ensures_finally (ensures_bind (ensures_call fun _ s₃ h₃ => ?_)))
  obtain ⟨_, rfl⟩ := Prod.mk.inj (Except.ok.inj h₃)
  refine ensures_call fun _ s₄ h₄ => ?_
  obtain ⟨_, rfl⟩ := Prod.mk.inj (Except.ok.inj h₄)
  refine ensures_call fun _ s₅ h₅ => ?_
  obtain ⟨_, rfl⟩ := Prod.mk.inj (Except.ok.inj h₅)
  refine syncDirectory_ensures ⟨hplain, hpath, ?_⟩
  rw [String.empty_append]
  rfl

/-- **The marker is there** when a controller has put it back or verified it. -/
theorem marker_restored (c : Controller) :
    Ensures Fault (c.remark guarded) (fun _ s' => s'.MarkerSafe) s := by
  cases c with
  | managed =>
    refine ensures_tryCatch (ensures_bind (ensures_trivial fun _ _ => verifyMarker_ensures)) fun e s' => ?_
    split
    · exact ensures_throw
    · exact createPersistentMarker_ensures
  | legacy =>
    refine ensures_bind (ensures_trivial fun gone s' => ?_)
    split
    · exact createPersistentMarker_ensures
    · exact verifyMarker_ensures

end Marker

/-! ## The closing -/

/-- What the run of a failed release consists of: the calls of the release up to the first error, the calls
on the marker, and the stops. -/
structure Closing where
  error : IngressFailure
  tried : List (Entry SiteCall Errno)
  marker : Except IngressFailure Unit
  remarked : List (Entry SiteCall Errno)
  stops : List (String × Except Errno Unit)

def ofSite (x : Entry SiteCall Errno) : Entry GateCall Errno := ⟨.site x.op, x.reply⟩

def ofStop (x : String × Except Errno Unit) : Entry GateCall Errno := ⟨.control (.stopUnit x.1), x.2⟩

/-- What the stops of a closing throw. -/
def stopFailures (stops : List (String × Except Errno Unit)) : List IngressFailure :=
  stops.filterMap fun x =>
    match x.2 with
    | .ok _ => none
    | .error e => some (.system e)

def Closing.failures (k : Closing) : List IngressFailure := failuresOf k.marker ++ stopFailures k.stops

/-- **How a failed release ends**: the release throws, the marker is put back or verified or that fails, then
every unit is stopped, and the journal still says that the ingress is open. What is thrown is the error
alone only where the marker is there and every stop succeeded; otherwise it has the error and each failure
of the closing. -/
structure Closes (Fault : Errno → Prop) (guarded : Bool) (c : Controller) (g : Gate) (k : Closing)
    (tr : List (Entry GateCall Errno)) (t : IngressThrown) (g' : Gate) : Prop where
  failed : ∃ s, Runs site Fault (c.release guarded).run g.site k.tried (.error k.error) s ∧
    Runs site Fault (c.remark guarded).run s k.remarked k.marker g'.site
  trace : tr = k.tried.map ofSite ++ (k.remarked.map ofSite ++ k.stops.map ofStop)
  stops : k.stops.map (·.1) = ingressUnits
  phase : g'.phase = .ingressOpen
  marked : k.marker = .ok () → g'.site.MarkerSafe
  plain : ∀ e, t = .plain e → e = k.error ∧ g'.site.MarkerSafe ∧ ∀ x ∈ k.stops, x.2 = .ok ()
  aggregate : ∀ errors message, t = .aggregate errors message → errors = k.error :: k.failures

section Closing

variable {Fault : Errno → Prop} {guarded : Bool} {c : Controller} {g g' : Gate}
  {tr : List (Entry GateCall Errno)}

/-- The calls of the site leave the journal as it is. -/
theorem runs_site {α : Type} {p : Prog SiteCall Errno α} {a : α}
    (h : Runs gate Fault (p.mapOp .site) g tr a g') :
    g'.phase = g.phase ∧ ∃ trace, tr = trace.map ofSite ∧ Runs site Fault p g.site trace a g'.site := by
  induction p generalizing g tr with
  | done b =>
    obtain ⟨rfl, rfl, rfl⟩ := runs_done.mp h
    exact ⟨rfl, [], rfl, .done _ _⟩
  | call op k ih =>
    cases h with
    | @call _ _ _ _ g₁ _ r tr _ hans hk =>
      obtain ⟨hphase, trace, rfl, hruns⟩ := ih r hk
      have hstep : g₁.phase = g.phase ∧ Answer site Fault op g.site r g₁.site := by
        cases hans with
        | effect h =>
          cases hexec : g.site.exec op with
          | error e =>
            simp only [gate, Gate.exec, hexec, Except.map] at h
            cases h
          | ok x =>
            simp only [gate, Gate.exec, hexec, Except.map, Except.ok.injEq, Prod.mk.injEq] at h
            obtain ⟨rfl, rfl⟩ := h
            exact ⟨rfl, .effect hexec⟩
        | refusal h =>
          cases hexec : g.site.exec op with
          | error e =>
            simp only [gate, Gate.exec, hexec, Except.map, Except.error.injEq] at h
            exact ⟨rfl, .refusal (h ▸ hexec)⟩
          | ok x =>
            simp only [gate, Gate.exec, hexec, Except.map] at h
            cases h
        | fault h => exact ⟨rfl, .fault h⟩
      exact ⟨hphase.trans hstep.1, ⟨op, r⟩ :: trace, rfl, .call hstep.2 hruns⟩

theorem runs_attempted {α : Type} {p : SiteScript α} {r : Except IngressThrown (Except IngressFailure α)}
    (h : Runs gate Fault (attempted p).run g tr r g') :
    g'.phase = g.phase ∧ ∃ trace a, r = .ok a ∧ tr = trace.map ofSite ∧
      Runs site Fault p.run g.site trace a g'.site := by
  obtain ⟨tr₁, a, g₁, tr₂, hp, hdone, rfl⟩ := runs_bind.mp h
  obtain ⟨rfl, rfl, rfl⟩ := runs_done.mp hdone
  obtain ⟨hphase, trace, rfl, hruns⟩ := runs_site hp
  exact ⟨hphase, trace, a, rfl, List.append_nil _, hruns⟩

/-- **Every unit is stopped once, in turn**, and each failure is kept. -/
theorem runs_stopAll {units : List String} {failures : List IngressFailure}
    {r : Except IngressThrown (List IngressFailure)}
    (h : Runs gate Fault (stopAll units failures).run g tr r g') :
    g' = g ∧ ∃ stops : List (String × Except Errno Unit), stops.map (·.1) = units ∧
      tr = stops.map ofStop ∧ r = .ok (failures ++ stopFailures stops) := by
  induction units generalizing failures g tr with
  | nil =>
    obtain ⟨rfl, rfl, rfl⟩ := runs_done.mp h
    exact ⟨rfl, [], rfl, rfl, congrArg _ (List.append_nil _).symm⟩
  | cons unit units ih =>
    cases h with
    | @call _ _ _ _ g₁ _ reply tr _ hans hk =>
      have hsame : g₁ = g := by
        cases hans with
        | effect h => exact (Prod.mk.inj (Except.ok.inj h)).2.symm
        | refusal h => rfl
        | fault h => rfl
      subst hsame
      cases reply with
      | ok u =>
        obtain ⟨rfl, stops, rfl, rfl, rfl⟩ := ih hk
        exact ⟨rfl, (unit, .ok u) :: stops, rfl, rfl, rfl⟩
      | error e =>
        obtain ⟨rfl, stops, rfl, rfl, rfl⟩ := ih hk
        refine ⟨rfl, (unit, .error e) :: stops, rfl, rfl, ?_⟩
        rw [List.append_assoc]
        rfl

theorem stops_ok {stops : List (String × Except Errno Unit)} (h : stopFailures stops = []) :
    ∀ x ∈ stops, x.2 = .ok () := by
  intro x hx
  have hnone := List.filterMap_eq_nil_iff.mp h x hx
  obtain ⟨unit, e | u⟩ := x
  · cases hnone
  · rfl

theorem closure_plain {message : String} {error e : IngressFailure} {failures : List IngressFailure}
    (h : closure message error failures = .plain e) : e = error ∧ failures = [] := by
  rw [closure] at h
  split at h
  · rename_i hempty
    exact ⟨(IngressThrown.plain.inj h).symm, List.isEmpty_iff.mp hempty⟩
  · cases h

theorem closure_aggregate {message message' : String} {error : IngressFailure}
    {failures errors : List IngressFailure}
    (h : closure message error failures = .aggregate errors message') : errors = error :: failures := by
  rw [closure] at h
  split at h
  · cases h
  · exact (IngressThrown.aggregate.inj h).1.symm

theorem failuresOf_nil {r : Except IngressFailure Unit} (h : failuresOf r = []) : r = .ok () := by
  cases r with
  | ok u => rfl
  | error e => cases h

/-- The handler, from where the release has thrown. -/
theorem closing_runs {error : IngressFailure} {r : Except IngressThrown Unit}
    (h : Runs gate Fault (closing guarded c error).run g tr r g') :
    ∃ remarked marker stops, Runs site Fault (c.remark guarded).run g.site remarked marker g'.site ∧
      stops.map (·.1) = ingressUnits ∧ tr = remarked.map ofSite ++ stops.map ofStop ∧
      g'.phase = g.phase ∧
      r = .error (closure c.message error (failuresOf marker ++ stopFailures stops)) := by
  obtain ⟨tr₁, r₁, g₁, tr₂, hmark, hrest, rfl⟩ := runs_bind.mp h
  obtain ⟨hphase, remarked, marker, rfl, rfl, hremark⟩ := runs_attempted hmark
  obtain ⟨tr₃, r₃, g₃, tr₄, hstop, hthrow, rfl⟩ := runs_bind.mp hrest
  obtain ⟨rfl, stops, hunits, rfl, rfl⟩ := runs_stopAll hstop
  obtain ⟨rfl, rfl, rfl⟩ := runs_done.mp hthrow
  exact ⟨remarked, marker, stops, hremark, hunits, by rw [List.append_nil], hphase, rfl⟩

/-- The block of a release that throws. -/
theorem released_closes {t : IngressThrown} (hopen : g.phase = .ingressOpen)
    (h : Runs gate Fault (released guarded c).run g tr (.error t) g') :
    ∃ k, Closes Fault guarded c g k tr t g' := by
  obtain ⟨tr₁, r₁, g₁, tr₂, htry, hrest, rfl⟩ := runs_bind.mp h
  obtain ⟨hphase, tried, r, rfl, rfl, hrelease⟩ := runs_attempted htry
  cases r with
  | ok u =>
    obtain ⟨_, hr, _⟩ := runs_done.mp hrest
    cases hr
  | error e =>
    obtain ⟨remarked, marker, stops, hremark, hunits, rfl, hphase', ht⟩ := closing_runs hrest
    have ht : t = closure c.message e (failuresOf marker ++ stopFailures stops) := Except.error.inj ht
    have hmarked : marker = .ok () → g'.site.MarkerSafe := fun hok =>
      (marker_restored c).runs hremark () hok
    refine ⟨⟨e, tried, marker, remarked, stops⟩, ⟨g₁.site, hrelease, hremark⟩, rfl, hunits,
      hphase'.trans (hphase.trans hopen), hmarked, ?_, ?_⟩
    · intro e' he'
      obtain ⟨rfl, hnil⟩ := closure_plain (ht.symm.trans he')
      obtain ⟨hmarker, hstops⟩ := List.append_eq_nil_iff.mp hnil
      exact ⟨rfl, hmarked (failuresOf_nil hmarker), stops_ok hstops⟩
    · intro errors message herrors
      exact closure_aggregate (ht.symm.trans herrors)

/-- The first entry of a run. -/
def advanced (r : Except Errno Unit) : Entry GateCall Errno :=
  ⟨.control (.advanceJournal .locallyHealthy .ingressOpen), r⟩

/-- **A failed release closes the ingress again**: where a controller throws, either the journal could not be
advanced and nothing else was done, or the release itself failed and closes. -/
theorem failed_release_closes {t : IngressThrown}
    (h : Runs gate Fault (openIngress guarded c).run g tr (.error t) g') :
    (∃ e, tr = [advanced (.error e)] ∧ t = .plain (.system e) ∧ g' = g) ∨
      ∃ k rest, tr = advanced (.ok ()) :: rest ∧ Closes Fault guarded c g k rest t g' := by
  obtain ⟨tr₁, r₁, g₁, tr₂, hadvance, hrest, rfl⟩ := runs_bind.mp h
  cases hadvance with
  | @call _ _ _ _ g₂ _ reply tr₁ _ hans hk =>
    cases reply with
    | error e =>
      obtain ⟨rfl, rfl, rfl⟩ := runs_done.mp hk
      obtain ⟨rfl, ht, rfl⟩ := runs_done.mp hrest
      refine .inl ⟨e, rfl, Except.error.inj ht, ?_⟩
      cases hans with
      | refusal h => rfl
      | fault h => rfl
    | ok u =>
      obtain ⟨rfl, rfl, rfl⟩ := runs_done.mp hk
      have hg : g₁.phase = .ingressOpen ∧ g₁.site = g.site := by
        cases hans with
        | effect h =>
          simp only [gate, Gate.exec, Gate.control] at h
          split at h
          · obtain ⟨_, rfl⟩ := Prod.mk.inj (Except.ok.inj h)
            exact ⟨rfl, rfl⟩
          · cases h
      obtain ⟨k, hk⟩ := released_closes hg.1 hrest
      obtain ⟨s, hfailed⟩ := hk.failed
      rw [hg.2] at hfailed
      exact .inr ⟨k, tr₂, rfl,
        ⟨s, hfailed⟩, hk.trace, hk.stops, hk.phase, hk.marked, hk.plain, hk.aggregate⟩

end Closing

/-! ## A release that fails -/

/-- A marker that is in place, before the release. -/
def sampleGate : Gate :=
  ⟨⟨true, true, some ⟨true, true, markerText⟩, fun _ => "active", fun _ => true, 0⟩, .locallyHealthy⟩

/-- The socket does not start. -/
def startFails : List (Option Errno) := List.replicate 12 none ++ [some .other]

abbrev sampleRelease (plan : List (Option Errno)) :
    List (Entry GateCall Errno) × Except IngressThrown Unit × Gate :=
  (openIngress true .managed).run.planned gate plan sampleGate

theorem sampleRelease_runs (plan : List (Option Errno)) :
    Runs gate (fun _ => True) (openIngress true .managed).run sampleGate (sampleRelease plan).1
      (sampleRelease plan).2.1 (sampleRelease plan).2.2 :=
  Prog.planned_runs (fun _ => trivial) _ _ _

/-- Where nothing fails, the marker is gone. -/
example : (sampleRelease []).2.1.isOk = true ∧ (sampleRelease []).2.2.site.marker.isNone = true := by decide +kernel

/-- The socket does not start: the marker is put back, and the error alone is thrown. -/
theorem failed_release_closes_sample :
    ∃ k rest, (sampleRelease startFails).1 = advanced (.ok ()) :: rest ∧
      Closes (fun _ => True) true .managed sampleGate k rest (.plain (.system .other))
        (sampleRelease startFails).2.2 := by
  have hthrown : (sampleRelease startFails).2.1 = .error (.plain (.system .other)) := by decide +kernel
  have hlength : (sampleRelease startFails).1.length = 26 := by decide +kernel
  have hrun := sampleRelease_runs startFails
  rw [hthrown] at hrun
  rcases failed_release_closes hrun with ⟨e, htr, _⟩ | hcloses
  · rw [htr] at hlength
    cases hlength
  · exact hcloses

/-- Wherever a unit is stopped, the marker is there. -/
def MarkedWhenStopping (guarded : Bool) (c : Controller) (g : Gate) : Prop :=
  ∀ tr unit r g', Visits gate (fun _ => True) (openIngress guarded c).run g
    (tr ++ [⟨.control (.stopUnit unit), r⟩]) g' → g'.site.MarkerSafe

/-- **The units are stopped without the marker** where it cannot be put back. -/
theorem stopped_without_marker : ¬MarkedWhenStopping true .managed sampleGate := by
  intro hmarked
  -- the socket does not start, and then the marker cannot be created
  let plan := startFails ++ [none, none, none, some Errno.other]
  have hnone : (sampleRelease plan).2.2.site.marker = none := by decide +kernel
  have hlast : (sampleRelease plan).1 = (sampleRelease plan).1.dropLast ++
      [⟨.control (.stopUnit "dp-beget-tunnel.service"), .ok ()⟩] := by rfl
  have hvisits := (sampleRelease_runs plan).visits
  rw [hlast] at hvisits
  obtain ⟨_, _, hsome⟩ := hmarked _ _ _ _ hvisits
  rw [hnone] at hsome
  cases hsome

end BegetBridge.Release
