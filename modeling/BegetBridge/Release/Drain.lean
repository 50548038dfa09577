import BegetBridge.Release.Admission

/-!
# A drained server is at rest

Requests to both servers, health requests and updates run at the same time, and the pause flag comes and goes. A
server that reports no request in flight handles none, and handles none as long as the flag stays.

## Main definitions

* `Running`: a request that was admitted, and is not uncounted yet
* `Sent.Stays`: the flag was there when a report was sent, and was not removed since
* `AtRest`: what the counters, the reports and the calls say of each other

## Main results

* `permit_program`: a call handles nothing that it has not counted and admitted
* `admission_drain_sound`: what holds in every run
-/

namespace BegetBridge.Release

open Interleaving
open Terminal (BridgeError)

section Calls

variable {H V W R A : Type}

/-- The call is a request to the server. -/
def To (server : Server) (call : ServerCall R) : Prop := ∃ incoming round, call = .request server incoming round

/-- A request of the server is handled. -/
def Running (server : Server) (c : InFlight (ServerOp H V) Empty (ServerCall R) ServerNotes (Reply A)) : Prop :=
  To server c.kind ∧ c.notes.phase = .admitted

/-- A request of the server is counted. -/
def Tracked (server : Server) (c : InFlight (ServerOp H V) Empty (ServerCall R) ServerNotes (Reply A)) : Prop :=
  To server c.kind ∧ (c.notes.phase = .counted ∨ c.notes.phase = .admitted)

theorem Running.tracked {server : Server} {c : InFlight (ServerOp H V) Empty (ServerCall R) ServerNotes (Reply A)}
    (h : Running server c) : Tracked server c := ⟨h.1, .inr h.2⟩

theorem To.unique {server server' : Server} {call : ServerCall R} (h : To server call) (h' : To server' call) :
    server' = server := by
  obtain ⟨incoming, round, rfl⟩ := h
  obtain ⟨incoming', round', heq⟩ := h'
  exact (ServerCall.request.inj heq).1.symm

variable (config : Server → ServerConfig H V R A)

/-- What a call may do, by what it has noted. -/
def permitted (call : ServerCall R) {β : Type} : ServerOp H V β → ServerNotes → Prop
  | .count server, n => To server call ∧ n.phase = .waiting
  | .uncount server, n => To server call ∧ (n.phase = .counted ∨ n.phase = .admitted)
  | .lstat path, n => (∃ server, To server call ∧ (config server).admissionPausePath = some path) ∧
      isAbsolute path = true ∧ (n.phase = .waiting ∨ n.phase = .counted)
  | .sendHealth server _ _, _ => To server call
  | .handler _, n => (∃ server, To server call) ∧ n.phase = .admitted
  | .probe probes _, _ => ∃ timeoutMs intervalMs rounds, call = .drain probes timeoutMs intervalMs rounds

def note {β : Type} (op : ServerOp H V β) : Except Empty β → ServerNotes → ServerNotes
  | .ok a, n => noted op a n

/-- How a call ends: a request is not counted any more, and an update that succeeds had good reports. -/
def Ended : ServerCall R → Reply A → ServerNotes → Prop
  | .request _ _ _, _, n => n.phase = .waiting ∨ n.phase = .finished
  | .drain probes _ _ _, reply, n => ∀ services, reply = .drained services →
      n.probed = probes ∧ ∀ e ∈ n.reports, e.report.drained = true

variable {config} {call : ServerCall R} {n : ServerNotes} {ξ : Type}

/-! ## One call -/

theorem permit_perform {β : Type} {op : ServerOp H V β} {Q : Except ξ β → ServerNotes → Prop}
    (hop : permitted config call op n) (hok : ∀ a, Q (.ok a) (noted op a n)) :
    Script.Along (permitted config call) note (perform op) Q n :=
  Script.along_perform hop hok nofun

theorem permit_demand {holds : Bool} {e : ξ} {Q : Except ξ Unit → ServerNotes → Prop}
    (hok : holds = true → Q (.ok ()) n) (herror : Q (.error e) n) :
    Script.Along (permitted config call) note (demand holds e) Q n := by
  cases holds with
  | true => exact Script.along_pure (hok rfl)
  | false => exact Script.along_throw herror

/-- The notes of a request that finds no flag. -/
def ServerNotes.entering (n : ServerNotes) : ServerNotes :=
  if n.phase = .counted then { n with phase := .admitted } else n

theorem permit_isAdmissionPaused {server : Server} {Q : Except BridgeError Bool → ServerNotes → Prop}
    (hcall : To server call) (hn : n.phase = .waiting ∨ n.phase = .counted) (hpaused : Q (.ok true) n)
    (hopen : Q (.ok false) n.entering) :
    Script.Along (permitted config call) note (isAdmissionPaused (config server).admissionPausePath) Q n := by
  unfold isAdmissionPaused
  split
  · exact Script.along_pure hpaused
  · rename_i path hpath
    split
    · refine Script.along_bind (permit_perform ⟨⟨server, hcall, hpath⟩, ‹_›, hn⟩ ?_)
      rintro ((_ | _) | _)
      · exact Script.along_pure hopen
      · exact Script.along_pure hpaused
      · exact Script.along_pure hpaused
    · exact Script.along_pure hpaused

/-- A handler runs within its request. -/
theorem permit_handled {server : Server} {p : Script (HandlerOp H V) Empty BridgeError A}
    {Q : Except BridgeError A → ServerNotes → Prop} (hcall : To server call) (hn : n.phase = .admitted)
    (hQ : ∀ r, Q r n) : Script.Along (permitted config call) note (handled p) Q n := by
  refine Prog.along_mapOp ?_ ?_ hQ
  · rintro γ ⟨op⟩
    exact ⟨⟨server, hcall⟩, hn⟩
  · rintro γ ⟨op⟩ (e | a)
    · cases e
    · rfl

variable {server : Server} {incoming : Incoming R} {round : Nat}

theorem permit_health {Q : Except BridgeError (Reply A) → ServerNotes → Prop} (hcall : To server call)
    (hn : n.phase = .waiting) (hQ : ∀ r, Q r n) :
    Script.Along (permitted config call) note (health server (config server) round) Q n := by
  have hsame : n.entering = n := by simp [ServerNotes.entering, hn]
  have hrest : ∀ paused : Bool, Script.Along (permitted config call) note (do
      perform (.sendHealth server round ⟨"ok", (config server).product, (config server).agentId,
        if paused then "paused" else "open", 0⟩)
      pure .health) Q n := fun paused =>
    Script.along_bind (permit_perform hcall fun _ => Script.along_pure (hQ _))
  refine Script.along_bind (permit_isAdmissionPaused hcall (.inl hn) (hrest true) ?_)
  rw [hsame]
  exact hrest false

theorem permit_entered {Q : Except BridgeError (Reply A) → ServerNotes → Prop} (hcall : To server call)
    (hn : n.phase = .counted) (hQ : ∀ r m, m.phase = .counted ∨ m.phase = .admitted → Q r m) :
    Script.Along (permitted config call) note (entered (config server) incoming) Q n := by
  have hadmitted : n.entering.phase = .admitted := by simp [ServerNotes.entering, hn]
  refine Script.along_bind (permit_isAdmissionPaused hcall (.inr hn) ?_ ?_)
  · -- the flag is there, and the request is refused
    exact Script.along_bind (permit_demand nofun (hQ _ _ (.inl hn)))
  · refine Script.along_bind (permit_demand (fun _ => ?_) (hQ _ _ (.inr hadmitted)))
    refine Script.along_bind (permit_handled hcall hadmitted ?_)
    rintro (e | a)
    · exact hQ _ _ (.inr hadmitted)
    · exact Script.along_pure (hQ _ _ (.inr hadmitted))

theorem permit_listen {Q : Except BridgeError (Reply A) → ServerNotes → Prop}
    (hcall : To server call) (hn : n.phase = .waiting)
    (hQ : ∀ r m, m.phase = .waiting ∨ m.phase = .finished → Q r m) :
    Script.Along (permitted config call) note (listen server (config server) incoming round) Q n := by
  cases htracked : incoming.tracked with
  | true =>
    rw [listen, htracked]
    refine Script.along_bind (permit_perform ⟨hcall, hn⟩ fun _ => ?_)
    -- it stays counted until it is uncounted
    refine Script.along_andFinally (Script.along_tryCatch (permit_entered hcall rfl ?_))
    rintro (e | a) m hm
    · exact Script.along_pure (permit_perform ⟨hcall, hm⟩ fun _ => hQ _ _ (.inr rfl))
    · exact permit_perform ⟨hcall, hm⟩ fun _ => hQ _ _ (.inr rfl)
  | false =>
    rw [listen, htracked]
    refine Script.along_bind (Script.along_pure ?_)
    refine Script.along_andFinally (Script.along_tryCatch (permit_health hcall hn ?_))
    rintro (e | a)
    · exact Script.along_pure (Script.along_pure (hQ _ _ (.inl hn)))
    · exact Script.along_pure (hQ _ _ (.inl hn))

theorem permit_drainRounds {probes : List Server} {timeoutMs intervalMs : Int} {rounds remaining : List Nat}
    {Q : Except String Nat → ServerNotes → Prop} (herror : ∀ e m, Q (.error e) m)
    (hok : ∀ m, m.probed = probes → (∀ e ∈ m.reports, e.report.drained = true) → Q (.ok probes.length) m) :
    Script.Along (permitted config (.drain probes timeoutMs intervalMs rounds)) note (drainRounds probes remaining) Q
      n := by
  induction remaining generalizing n with
  | nil => exact Script.along_throw (herror _ _)
  | cons round remaining ih =>
    refine Script.along_bind (permit_perform ⟨timeoutMs, intervalMs, rounds, rfl⟩ ?_)
    rintro (_ | sent)
    · exact ih
    · show Script.Along _ _ (if _ then _ else _) _ _
      split
      · rename_i hall
        exact Script.along_pure (hok _ rfl (List.all_eq_true.mp hall))
      · exact ih

/-- **A call may do what it does**, whatever is answered. -/
theorem permit_program : (call.program config).Along (permitted config call) note (Ended call) ⟨.waiting, [], []⟩ := by
  cases call with
  | request server incoming round =>
    exact Prog.along_bind (permit_listen ⟨incoming, round, rfl⟩ rfl fun r m hm => hm)
  | drain probes timeoutMs intervalMs rounds =>
    refine Prog.along_bind (Script.along_bind (permit_demand (fun _ => ?_) ?_))
    · refine permit_drainRounds ?_ ?_
      · intro e m services h
        cases h
      · intro m hprobed hall services h
        exact ⟨hprobed, hall⟩
    · intro services h
      cases h

end Calls

/-! ## Requests and updates together -/

section Pool

variable {H V W R A : Type} {work : H → W → V × W} {config : Server → ServerConfig H V R A}

/-- The calls in flight. -/
abbrev ServerPool (H V W R A : Type) := Pool (ServerOp H V) Empty (ServerState W) (ServerCall R) ServerNotes (Reply A)

abbrev ServerEvent (W R A : Type) := Event (ServerCall R) ServerNotes (Outside W) (Reply A)

/-- The flag was there when the report was sent, and was not removed since. A server that is given no absolute path
takes the flag to be there always. -/
def Sent.Stays (config : Server → ServerConfig H V R A) (e : Sent) (s : ServerState W) : Prop :=
  ∀ path, (config e.server).admissionPausePath = some path → isAbsolute path = true →
    e.entries path = true ∧ s.removals path = e.removals path

/-- The counters count the requests; a flag that was not removed since a report is there; where it was there, and the
report counted none, none is handled; what an update has collected are reports of its probes. -/
structure AtRest (config : Server → ServerConfig H V R A) (p : ServerPool H V W R A) : Prop where
  counts : ∀ server, p.Counts (Tracked server) (p.store.inFlight server)
  removals : ∀ e ∈ p.store.sent, ∀ path, e.removals path ≤ p.store.removals path
  entries : ∀ e ∈ p.store.sent, ∀ path, e.entries path = true → p.store.removals path = e.removals path →
    p.store.entries path = true
  rest : ∀ e ∈ p.store.sent, e.report.inFlightRequests = 0 → e.Stays config p.store →
    ∀ i c, p.calls i = some c → ¬Running e.server c
  collected : ∀ i c, p.calls i = some c →
    c.notes.reports.map Sent.server = c.notes.probed ∧ ∀ e ∈ c.notes.reports, e ∈ p.store.sent

variable {p p' : ServerPool H V W R A} {l : ServerEvent W R A} {h : List (ServerEvent W R A × ServerPool H V W R A)}
  {call : ServerCall R} {n : ServerNotes} {i : Nat} {s : ServerState W}

/-- A call in flight may do what it still does, and ends as it should. -/
def Proper (config : Server → ServerConfig H V R A)
    (c : InFlight (ServerOp H V) Empty (ServerCall R) ServerNotes (Reply A)) : Prop :=
  c.rest.Along (permitted config c.kind) note (Ended c.kind) c.notes

theorem run_proper (hpath : Path (Pool.Step (servers work config)) (Pool.still s) h p) :
    ∀ i c, p.calls i = some c → Proper config c := by
  have hdue := Pool.call_due (C := servers work config) (fun call {_} => permitted config call) (fun _ {_} => note)
    Ended (fun _ known n => known = n) (fun _ => ⟨.waiting, [], []⟩) (fun _ => permit_program) (fun _ => rfl)
    (fun _ known n {γ} op r s s' hknown _ _ => ?_) (fun _ _ hcall => absurd hcall (by simp [Pool.still])) hpath
  · intro i c hc
    obtain ⟨known, hrest, rfl⟩ := hdue i c hc
    exact hrest
  · subst hknown
    rcases r with e | a
    · cases e
    · rfl

/-- A report is about the server that it names. -/
theorem answers_server {probes : List Server} {round : Nat} {sent : List Sent} (h : s.answers probes round = some sent) :
    sent.map Sent.server = probes ∧ ∀ e ∈ sent, e ∈ s.sent := by
  induction probes generalizing sent with
  | nil =>
    obtain rfl := Option.some.inj h
    exact ⟨rfl, fun e he => absurd he List.not_mem_nil⟩
  | cons server probes ih =>
    rw [ServerState.answers, List.mapM_cons] at h
    obtain ⟨e, he, h⟩ := Option.bind_eq_some_iff.mp h
    obtain ⟨rest, hrest, h⟩ := Option.bind_eq_some_iff.mp h
    obtain rfl := Option.some.inj h
    obtain ⟨hservers, hmem⟩ := ih hrest
    have hserver := List.find?_some he
    rw [Bool.and_eq_true, beq_iff_eq] at hserver
    refine ⟨by rw [List.map_cons, hservers, hserver.1], fun x hx => ?_⟩
    rcases List.mem_cons.mp hx with rfl | hx
    · exact List.mem_of_find?_eq_some he
    · exact hmem x hx

/-- An operation of a call. It leaves the flag; a report that it sends counts the requests; a request that it admits
has found no flag. -/
theorem atRest_operates {n' : ServerNotes} {r r' : Prog (ServerOp H V) Empty (Reply A)} (hp : AtRest config p)
    (hi : p.calls i = some ⟨call, n, r⟩)
    (hcounts : ∀ server, (p.put i (some ⟨call, n', r'⟩)).Counts (Tracked server) (s.inFlight server))
    (hentries : s.entries = p.store.entries) (hremovals : s.removals = p.store.removals)
    (hkept : ∀ e ∈ p.store.sent, e ∈ s.sent)
    (hsent : ∀ e ∈ s.sent, e ∈ p.store.sent ∨ e.entries = p.store.entries ∧ e.removals = p.store.removals ∧
      (e.report.inFlightRequests = 0 → ∀ j d, p.calls j = some d → ¬Tracked e.server d))
    (hrunning : n'.phase = n.phase ∨ n'.phase ≠ .admitted ∨ ∀ server, To server call → ∃ path,
      (config server).admissionPausePath = some path ∧ isAbsolute path = true ∧ p.store.entries path = false)
    (hcollected : n'.reports.map Sent.server = n'.probed ∧ ∀ e ∈ n'.reports, e ∈ s.sent) :
    AtRest config { p.put i (some ⟨call, n', r'⟩) with store := s } := by
  constructor
  · exact hcounts
  · intro e he path
    rw [hremovals]
    rcases hsent e he with he | ⟨-, heq, -⟩
    · exact hp.removals e he path
    · rw [heq]
  · intro e he path hpath hstays
    show s.entries path = true
    rw [hentries]
    rcases hsent e he with he | ⟨heq, -, -⟩
    · exact hp.entries e he path hpath (hremovals ▸ hstays)
    · exact heq ▸ hpath
  · intro e he hzero hstays
    replace hstays : e.Stays config p.store := fun path hpath habs => hremovals ▸ hstays path hpath habs
    -- no request of the server was handled before
    have hbefore : ∀ j d, p.calls j = some d → ¬Running e.server d := by
      rcases hsent e he with he | ⟨-, -, hnone⟩
      · exact hp.rest e he hzero hstays
      · exact fun j d hd hrun => hnone hzero j d hd hrun.tracked
    intro j d hd
    rcases Pool.put_cases (q := p) hd with ⟨-, heq⟩ | ⟨-, hd⟩
    · obtain rfl := Option.some.inj heq
      rintro ⟨hto, hadmitted⟩
      rcases hrunning with hphase | hphase | hflag
      · exact hbefore i _ hi ⟨hto, hphase ▸ hadmitted⟩
      · exact hphase hadmitted
      · obtain ⟨path, hpath, habs, hgone⟩ := hflag _ hto
        obtain ⟨hthere, hkeeps⟩ := hstays path hpath habs
        have hpresent : p.store.entries path = true := by
          rcases hsent e he with he | ⟨heq, -, -⟩
          · exact hp.entries e he path hthere hkeeps
          · exact heq ▸ hthere
        rw [hpresent] at hgone
        cases hgone
    · exact hbefore j d hd
  · intro j d hd
    rcases Pool.put_cases (q := p) hd with ⟨-, heq⟩ | ⟨-, hd⟩
    · obtain rfl := Option.some.inj heq
      exact hcollected
    · exact ⟨(hp.collected j d hd).1, fun e he => hkept e ((hp.collected j d hd).2 e he)⟩

/-- The numbers stay where a call is counted as before. -/
theorem counts_same {n' : ServerNotes} {r r' : Prog (ServerOp H V) Empty (Reply A)} (hp : AtRest config p)
    (hi : p.calls i = some ⟨call, n, r⟩)
    (hphase : (n'.phase = .counted ∨ n'.phase = .admitted) ↔ (n.phase = .counted ∨ n.phase = .admitted))
    (server : Server) : (p.put i (some ⟨call, n', r'⟩)).Counts (Tracked server) (p.store.inFlight server) := by
  refine (hp.counts server).put_same ?_
  rw [hi]
  constructor
  · rintro ⟨d, hd, hto, hn⟩
    obtain rfl := Option.some.inj hd
    exact ⟨_, rfl, hto, hphase.mp hn⟩
  · rintro ⟨d, hd, hto, hn⟩
    obtain rfl := Option.some.inj hd
    exact ⟨_, rfl, hto, hphase.mpr hn⟩

/-- An operation that leaves the counters, the flag, the reports that were sent and the phase. -/
theorem atRest_idle {n' : ServerNotes} {r r' : Prog (ServerOp H V) Empty (Reply A)} (hp : AtRest config p)
    (hi : p.calls i = some ⟨call, n, r⟩) (hinFlight : s.inFlight = p.store.inFlight)
    (hentries : s.entries = p.store.entries) (hremovals : s.removals = p.store.removals) (hsent : s.sent = p.store.sent)
    (hphase : n'.phase = n.phase)
    (hcollected : n'.reports.map Sent.server = n'.probed ∧ ∀ e ∈ n'.reports, e ∈ p.store.sent) :
    AtRest config { p.put i (some ⟨call, n', r'⟩) with store := s } := by
  refine atRest_operates hp hi (fun server => ?_) hentries hremovals (fun e he => hsent ▸ he)
    (fun e he => .inl (hsent ▸ he)) (.inl hphase) (hsent ▸ hcollected)
  rw [hinFlight]
  exact counts_same hp hi (by rw [hphase]) server

theorem atRest_count {server : Server} {r r' : Prog (ServerOp H V) Empty (Reply A)} (hp : AtRest config p)
    (hi : p.calls i = some ⟨call, n, r⟩) (hop : permitted config call (.count server : ServerOp H V Unit) n) :
    AtRest config { p.put i (some ⟨call, { n with phase := .counted }, r'⟩) with
      store := { p.store with inFlight := Function.update p.store.inFlight server (p.store.inFlight server + 1) } } := by
  obtain ⟨hto, hwaiting⟩ := hop
  refine atRest_operates hp hi (fun server' => ?_) rfl rfl (fun e => id) (fun e => .inl) (.inr (.inl nofun))
    (hp.collected i _ hi)
  have hbefore : ∀ server', ¬∃ d, p.calls i = some d ∧ Tracked server' d := by
    rintro server' ⟨d, hd, -, hn⟩
    obtain rfl := Option.some.inj (hi.symm.trans hd)
    simp [hwaiting] at hn
  by_cases hserver : server' = server
  · subst hserver
    dsimp only
    rw [Function.update_self]
    exact (hp.counts server').put_more (hbefore server') ⟨_, rfl, hto, .inl rfl⟩
  · dsimp only
    rw [Function.update_of_ne hserver]
    refine (hp.counts server').put_same (iff_of_false ?_ (hbefore server'))
    rintro ⟨d, hd, hto', -⟩
    obtain rfl := Option.some.inj hd
    exact hserver (hto.unique hto')

theorem atRest_uncount {server : Server} {r r' : Prog (ServerOp H V) Empty (Reply A)} (hp : AtRest config p)
    (hi : p.calls i = some ⟨call, n, r⟩) (hop : permitted config call (.uncount server : ServerOp H V Unit) n) :
    AtRest config { p.put i (some ⟨call, { n with phase := .finished }, r'⟩) with
      store := { p.store with inFlight := Function.update p.store.inFlight server (p.store.inFlight server - 1) } } := by
  obtain ⟨hto, hcounted⟩ := hop
  refine atRest_operates hp hi (fun server' => ?_) rfl rfl (fun e => id) (fun e => .inl) (.inr (.inl nofun))
    (hp.collected i _ hi)
  have hafter : ∀ server', ¬∃ d, some ⟨call, { n with phase := .finished }, r'⟩ = some d ∧ Tracked server' d := by
    rintro server' ⟨d, hd, -, hn⟩
    obtain rfl := Option.some.inj hd
    simp at hn
  by_cases hserver : server' = server
  · subst hserver
    dsimp only
    rw [Function.update_self]
    exact (hp.counts server').put_less ⟨_, hi, hto, hcounted⟩ (hafter server')
  · dsimp only
    rw [Function.update_of_ne hserver]
    refine (hp.counts server').put_same (iff_of_false (hafter server') ?_)
    rintro ⟨d, hd, hto', -⟩
    obtain rfl := Option.some.inj (hi.symm.trans hd)
    exact hserver (hto.unique hto')

/-- An operation of a call that may perform it. -/
theorem atRest_exec {β : Type} {op : ServerOp H V β} {r r' : Prog (ServerOp H V) Empty (Reply A)}
    (hp : AtRest config p) (hi : p.calls i = some ⟨call, n, r⟩) (hop : permitted config call op n) :
    AtRest config { p.put i (some ⟨call, noted op (op.exec work p.store).1 n, r'⟩) with
      store := (op.exec work p.store).2 } := by
  have hcollected := hp.collected i _ hi
  cases op with
  | count server => exact atRest_count hp hi hop
  | uncount server => exact atRest_uncount hp hi hop
  | handler op => exact atRest_idle hp hi rfl rfl rfl rfl rfl hcollected
  | probe probes round =>
    cases hanswer : (ServerOp.exec work (.probe probes round : ServerOp H V _) p.store).1 with
    | none => exact atRest_idle hp hi rfl rfl rfl rfl rfl hcollected
    | some sent =>
      have hanswers : p.store.answers probes round = some sent := by
        by_cases hlost : p.store.lost = true
        · simp [ServerOp.exec, hlost] at hanswer
        · simpa [ServerOp.exec, hlost] using hanswer
      exact atRest_idle hp hi rfl rfl rfl rfl rfl (answers_server hanswers)
  | sendHealth server round report =>
    refine atRest_operates hp hi (fun server => counts_same hp hi Iff.rfl server) rfl rfl
      (fun e he => List.mem_cons_of_mem _ he) (fun e he => ?_) (.inl rfl)
      ⟨hcollected.1, fun e he => List.mem_cons_of_mem _ (hcollected.2 e he)⟩
    rcases List.mem_cons.mp he with rfl | he
    · -- the number that is sent is that of the requests
      refine .inr ⟨rfl, rfl, fun hzero j d hd => ?_⟩
      have hcounts := hp.counts server
      rw [show p.store.inFlight server = 0 from hzero] at hcounts
      exact hcounts.none_of_zero hd
    · exact .inl he
  | lstat path =>
    obtain ⟨⟨server, hto, hpath⟩, habs, hphase⟩ := hop
    cases hanswer : (ServerOp.exec work (.lstat path : ServerOp H V _) p.store).1 with
    | ok u => exact atRest_idle hp hi rfl rfl rfl rfl rfl hcollected
    | error e =>
      cases e with
      | other => exact atRest_idle hp hi rfl rfl rfl rfl rfl hcollected
      | noEntry =>
        have hgone : p.store.entries path = false := by
          by_contra hthere
          by_cases hunreadable : p.store.unreadable = true
          · simp [ServerOp.exec, hunreadable] at hanswer
          · simp [ServerOp.exec, hunreadable, hthere] at hanswer
        show AtRest config { p.put i (some ⟨call, n.entering, r'⟩) with store := p.store }
        by_cases hcounted : n.phase = .counted
        · have hentering : n.entering = { n with phase := .admitted } := if_pos hcounted
          rw [hentering]
          refine atRest_operates hp hi (fun server => counts_same hp hi ?_ server) rfl rfl (fun e => id)
            (fun e => .inl) (.inr (.inr fun server' hto' => ?_)) hcollected
          · simp [hcounted]
          · obtain rfl := hto.unique hto'
            exact ⟨path, hpath, habs, hgone⟩
        · have hentering : n.entering = n := if_neg hcounted
          rw [hentering]
          exact atRest_idle hp hi rfl rfl rfl rfl rfl hcollected

/-- A call that is not counted any more, or not yet. -/
theorem atRest_put {c : Option (InFlight (ServerOp H V) Empty (ServerCall R) ServerNotes (Reply A))}
    (hp : AtRest config p) (hbefore : ∀ d, p.calls i = some d → ¬∃ server, Tracked server d)
    (hafter : ∀ d, c = some d → d.notes = ⟨.waiting, [], []⟩) : AtRest config (p.put i c) := by
  constructor
  · intro server
    refine (hp.counts server).put_same (iff_of_false ?_ ?_)
    · rintro ⟨d, hd, -, hn⟩
      simp [hafter d hd] at hn
    · rintro ⟨d, hd, htracked⟩
      exact hbefore d hd ⟨server, htracked⟩
  · exact hp.removals
  · exact hp.entries
  · intro e he hzero hstays j d hd
    rcases Pool.put_cases hd with ⟨-, heq⟩ | ⟨-, hd⟩
    · rintro ⟨-, hn⟩
      simp [hafter d heq] at hn
    · exact hp.rest e he hzero hstays j d hd
  · intro j d hd
    rcases Pool.put_cases hd with ⟨-, heq⟩ | ⟨-, hd⟩
    · rw [hafter d heq]
      exact ⟨rfl, fun e he => absurd he List.not_mem_nil⟩
    · exact hp.collected j d hd

/-- A report that was sent stays sent. -/
theorem exec_sent {β : Type} {op : ServerOp H V β} {s s' : ServerState W} {b : β} (h : op.exec work s = (b, s'))
    {e : Sent} (he : e ∈ s.sent) : e ∈ s'.sent := by
  obtain rfl : (op.exec work s).2 = s' := by rw [h]
  cases op with
  | sendHealth server round report => exact List.mem_cons_of_mem _ he
  | _ => exact he

/-- **A step keeps a server at rest** that was at rest, as long as the flag stays. -/
theorem atRest_step (hp : AtRest config p) (hproper : ∀ i c, p.calls i = some c → Proper config c)
    (hs : Pool.Step (servers work config) p l p') : AtRest config p' := by
  cases hs with
  | begins hi =>
    refine atRest_put hp (fun d hd => ?_) fun d hd => ?_
    · rw [hi] at hd
      cases hd
    · obtain rfl := Option.some.inj hd
      rfl
  | @operates i call n β op k r s hi hready hans =>
    cases hans with
    | refusal he => cases he
    | fault hf => cases hf
    | effect he =>
      have hexec : op.exec work p.store = (_, s) := Except.ok.inj he
      obtain ⟨hop, -⟩ := hproper _ _ hi
      have hafter : AtRest config { p.put i (some ⟨call, noted op (op.exec work p.store).1 n,
          k (.ok (op.exec work p.store).1)⟩) with store := (op.exec work p.store).2 } := atRest_exec hp hi hop
      rw [hexec] at hafter
      exact hafter
  | @returns i call n a hi =>
    refine atRest_put hp (fun d hd => ?_) nofun
    obtain rfl := Option.some.inj (hi.symm.trans hd)
    rintro ⟨server, ⟨incoming, round, rfl⟩, hn⟩
    -- a request is uncounted before it ends
    have hended : n.phase = .waiting ∨ n.phase = .finished := hproper i _ hi
    rcases hended with hphase | hphase
    · simp [hphase] at hn
    · simp [hphase] at hn
  | @elsewhere e s he =>
    obtain rfl := he
    have hmore : ∀ path, p.store.removals path ≤ p.store.removed e.entries path := fun path => Nat.le_add_right _ _
    -- a removal that is not counted did not happen
    have hstill : ∀ x ∈ p.store.sent, ∀ path, p.store.removed e.entries path = x.removals path →
        p.store.removals path = x.removals path ∧ (p.store.entries path = true → e.entries path = true) := by
      intro x hx path heq
      have hle := hp.removals x hx path
      rw [ServerState.removed] at heq
      constructor
      · omega
      · intro hthere
        by_contra hgone
        rw [Bool.not_eq_true] at hgone
        simp only [hthere, hgone, Bool.not_false, Bool.and_self, if_true] at heq
        omega
    constructor
    · exact hp.counts
    · exact fun x hx path => (hp.removals x hx path).trans (hmore path)
    · intro x hx path hthere heq
      obtain ⟨hsame, hkept⟩ := hstill x hx path heq
      exact hkept (hp.entries x hx path hthere hsame)
    · intro x hx hzero hstays
      refine hp.rest x hx hzero fun path hpath habs => ?_
      obtain ⟨hthere, heq⟩ := hstays path hpath habs
      exact ⟨hthere, (hstill x hx path heq).1⟩
    · exact hp.collected

variable {entries : String → Bool} {unreadable lost : Bool} {world : W}

theorem run_atRest
    (hpath : Path (Pool.Step (servers work config)) (Pool.still (.initial entries unreadable lost world)) h p) :
    AtRest config p := by
  have hstill : ∀ i c, (Pool.still (.initial entries unreadable lost world) : ServerPool H V W R A).calls i ≠ some c :=
    fun i c => by simp [Pool.still]
  refine hpath.history (I := fun _ p => AtRest config p) ?_ fun hpath hp hs => atRest_step hp (run_proper hpath) hs
  constructor
  · refine fun server => ⟨[], List.nodup_nil, rfl, fun i => iff_of_false List.not_mem_nil ?_⟩
    rintro ⟨c, hc, -⟩
    exact hstill i c hc
  · exact fun e he => absurd he List.not_mem_nil
  · exact fun e he => absurd he List.not_mem_nil
  · exact fun e he => absurd he List.not_mem_nil
  · exact fun i c hc => absurd hc (hstill i c)

end Pool

/-! ## A run that is computed -/

section Sample

abbrev SamplePool := ServerPool Unit Unit Unit Unit Unit

/-- Both servers look for the same flag. -/
def sampleConfig : Server → ServerConfig Unit Unit Unit Unit
  | .agent => createAgentServer "agent" (some "/paused") fun _ => pure ()
  | .sessionHost => createSessionHostServer (some "/paused") fun _ => pure ()

instance : Decides (servers (fun _ w => ((), w)) sampleConfig)
    (Condition.any : Condition (ServerOp Unit Unit) (ServerState Unit) (ServerCall Unit) ServerNotes (Outside Unit)) where
  ready _ _ := isTrue trivial
  operation _ _ _ _ _ := isTrue trivial
  beside _ _ _ _ := trivial

/-- The flag is there, and nothing else. -/
def sampleState : ServerState Unit := .initial (· == "/paused") false false ()

/-- The reports of the update that returned last, and whether the flag has stayed since. -/
def draining (r : List (ServerEvent Unit Unit Unit × SamplePool) × SamplePool) : Option (List HealthReport × Bool) :=
  match r.1.getLast? with
  | some (.returns _ (.drain [.agent, .sessionHost] 15000 100 [0]) n (.drained 2), _) =>
    some (n.reports.map Sent.report,
      n.reports.all fun e => e.entries "/paused" && r.2.store.removals "/paused" == e.removals "/paused")
  | _ => none

theorem draining_eq_some {h : List (ServerEvent Unit Unit Unit × SamplePool)} {p : SamplePool} {reports : List HealthReport}
    (hr : draining (h, p) = some (reports, true)) :
    ∃ i n q, (.returns i (.drain [.agent, .sessionHost] 15000 100 [0]) n (.drained 2), q) ∈ h ∧
      ∀ e ∈ n.reports, e.Stays sampleConfig p.store := by
  rw [draining] at hr
  split at hr
  · rename_i i n q hlast
    obtain ⟨-, hstays⟩ := Prod.mk.inj (Option.some.inj hr)
    refine ⟨i, n, q, List.mem_of_getLast? hlast, fun e he path hpath _ => ?_⟩
    have hboth := List.all_eq_true.mp hstays e he
    rw [Bool.and_eq_true, beq_iff_eq] at hboth
    obtain rfl : "/paused" = path := by
      cases hserver : e.server <;> rw [hserver] at hpath <;> exact Option.some.inj hpath
    exact hboth
  · cases hr

end Sample

end BegetBridge.Release
