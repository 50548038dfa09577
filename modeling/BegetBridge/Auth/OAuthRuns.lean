import BegetBridge.Auth.OAuthEffects
import BegetBridge.Interleaving.Transition

/-!
# Runs of the OAuth process

The process answers calls one after the other, in any order, with any parameters, clock readings
and storage faults. Between two calls the owner may administer the database. The process may stop,
or die within a call; it then starts again with an empty memory. A run starts from an empty
database, and its history records every event with what it left.

## Main definitions

* `Event`, `World`, `OAuthStep`, `OAuthRun`: the system
* `MadeAt`, `Fresh`: the calls of a history, and that no random value is drawn twice
* `StoreCall.Administrative`: the operations that neither register, grant nor rotate

## Main results

* `step_evolves`, `step_integrity`: what every event keeps
* `step_additions`: the families and tokens an event adds
* `place_eq`: a fresh value is drawn at one place
-/

namespace BegetBridge.Auth

open Relational Interleaving Core

/-- The memory of the process and the database. -/
structure World where
  memory : Memory
  db : AuthDb

/-- What happens: a call with its reply and its statements, a call in which the process dies with
the statements up to there, a restart, or an operation on the store by the owner. -/
inductive Event : Type 1
  | call (call : OAuthCall) (env : Env) (reply : Except Thrown OAuthReply)
      (trace : List (Entry Sql SqlError))
  | crash (call : OAuthCall) (env : Env) (trace : List (Entry Sql SqlError))
  | restart
  | admin (call : StoreCall)

/-- The call behind an event, completed or not. -/
def Event.made : Event → Option (OAuthCall × Env)
  | .call c env _ _ => some (c, env)
  | .crash c env _ => some (c, env)
  | _ => none

/-- The memory lives on. -/
def Event.Lives : Event → Prop
  | .crash .. => False
  | .restart => False
  | _ => True

/-- The tokens that a call would draw. -/
def Draws.tokens (d : Draws) : List String := [d.transactionId, d.code, d.accessToken, d.refreshToken]

theorem Draws.transactionId_mem (d : Draws) : d.transactionId ∈ d.tokens := by simp [tokens]

theorem Draws.code_mem (d : Draws) : d.code ∈ d.tokens := by simp [tokens]

theorem Draws.accessToken_mem (d : Draws) : d.accessToken ∈ d.tokens := by simp [tokens]

theorem Draws.refreshToken_mem (d : Draws) : d.refreshToken ∈ d.tokens := by simp [tokens]

def Event.draws (e : Event) : List String :=
  match e.made with
  | some (_, env) => env.draws.tokens
  | none => []

/-- The operations that register no client, and create or rotate nothing. -/
def StoreCall.Administrative : StoreCall → Prop
  | .registerClient .. => False
  | .createGrant .. => False
  | .createTokenFamily .. => False
  | .rotateRefreshToken .. => False
  | _ => True

/-- One event. A process that starts reads its DCR client from the database. -/
inductive OAuthStep (O : OAuthSpike) : World → Event → World → Prop
  | call {call : OAuthCall} {env : Env} {m m' : Memory} {db db' : AuthDb}
      {reply : Except Thrown OAuthReply} {trace : List (Entry Sql SqlError)}
      (h : Runs authBackend StorageFault ((call.program O env).run.run m) db trace (reply, m') db') :
    OAuthStep O ⟨m, db⟩ (.call call env reply trace) ⟨m', db'⟩
  | crash {call : OAuthCall} {env : Env} {m : Memory} {db db' : AuthDb} {id : String}
      {trace reads : List (Entry Sql SqlError)}
      (h : Visits authBackend StorageFault ((call.program O env).run.run m) db trace db')
      (hid : Runs authBackend StorageFault O.dcrClient.run db' reads (.ok id) db') :
    OAuthStep O ⟨m, db⟩ (.crash call env trace) ⟨.initial id, db'⟩
  | restart {m : Memory} {db : AuthDb} {id : String} {trace : List (Entry Sql SqlError)}
      (hid : Runs authBackend StorageFault O.dcrClient.run db trace (.ok id) db) :
    OAuthStep O ⟨m, db⟩ .restart ⟨.initial id, db⟩
  | admin {call : StoreCall} (hcall : call.Administrative) {m : Memory} {db db' : AuthDb}
      {trace : List (Entry Sql SqlError)}
      (h : Visits authBackend StorageFault (call.program O.store).run db trace db') :
    OAuthStep O ⟨m, db⟩ (.admin call) ⟨m, db'⟩

/-- The events so far, each with what it left. -/
abbrev History := List (Event × World)

/-- Runs from an empty database. -/
def OAuthRun (O : OAuthSpike) (h : History) (w : World) : Prop :=
  ∃ id, Path (OAuthStep O) ⟨.initial id, .empty⟩ h w

/-! ## Histories -/

/-- The event at place `i` made this call. -/
def MadeAt (h : History) (i : Nat) (call : OAuthCall) (env : Env) : Prop :=
  ∃ e w, h[i]? = some (e, w) ∧ e.made = some (call, env)

/-- No token is drawn twice. -/
def Fresh (h : History) : Prop := (h.flatMap fun x => x.1.draws).Nodup

section

variable {h h' : History} {i j : Nat} {call call' : OAuthCall} {env env' : Env}

theorem MadeAt.append (hi : MadeAt h i call env) : MadeAt (h ++ h') i call env := by
  obtain ⟨e, w, hx, hm⟩ := hi
  exact ⟨e, w, getElem?_append_some hx, hm⟩

theorem MadeAt.lt (hi : MadeAt h i call env) : i < h.length := by
  obtain ⟨e, w, hx, -⟩ := hi
  exact (List.getElem?_eq_some_iff.mp hx).1

theorem MadeAt.of_append (hi : MadeAt (h ++ h') i call env) (hlt : i < h.length) :
    MadeAt h i call env := by
  obtain ⟨e, w, hx, hm⟩ := hi
  rw [List.getElem?_append_left hlt] at hx
  exact ⟨e, w, hx, hm⟩

theorem MadeAt.of_take {k : Nat} (hi : MadeAt (h.take k) i call env) : MadeAt h i call env := by
  rw [← List.take_append_drop k h]
  exact hi.append

theorem madeAt_last {e : Event} {w : World} (hm : e.made = some (call, env)) :
    MadeAt (h ++ [(e, w)]) h.length call env :=
  ⟨e, w, List.getElem?_concat_length, hm⟩

theorem madeAt_snoc {e : Event} {w : World} :
    MadeAt (h ++ [(e, w)]) i call env ↔
      MadeAt h i call env ∨ i = h.length ∧ e.made = some (call, env) := by
  constructor
  · rintro ⟨e', w', hx, hm⟩
    obtain hx | ⟨rfl, he⟩ := getElem?_snoc_eq_some.mp hx
    · exact .inl ⟨e', w', hx, hm⟩
    · obtain ⟨rfl, rfl⟩ := Prod.mk.inj he
      exact .inr ⟨rfl, hm⟩
  · rintro (hi | ⟨rfl, hm⟩)
    · exact hi.append
    · exact madeAt_last hm

theorem MadeAt.unique (hi : MadeAt h i call env) (hi' : MadeAt h i call' env') :
    call = call' ∧ env = env' := by
  obtain ⟨e, w, hx, hm⟩ := hi
  obtain ⟨e', w', hx', hm'⟩ := hi'
  obtain ⟨rfl, -⟩ := Prod.mk.inj (Option.some.inj (hx.symm.trans hx'))
  exact Prod.mk.inj (Option.some.inj (hm.symm.trans hm'))

theorem Fresh.of_append (hf : Fresh (h ++ h')) : Fresh h := by
  unfold Fresh at hf
  rw [List.flatMap_append] at hf
  exact hf.of_append_left

/-- **A fresh value is drawn at one place.** -/
theorem place_eq (hf : Fresh h) (hi : MadeAt h i call env) (hj : MadeAt h j call' env') {v : String}
    (hv : v ∈ env.draws.tokens) (hv' : v ∈ env'.draws.tokens) : i = j := by
  obtain ⟨e, w, hx, hm⟩ := hi
  obtain ⟨e', w', hx', hm'⟩ := hj
  obtain ⟨hlt, hxi⟩ := List.getElem?_eq_some_iff.mp hx
  obtain ⟨hlt', hxj⟩ := List.getElem?_eq_some_iff.mp hx'
  have hpair := List.pairwise_iff_getElem.mp (List.nodup_flatMap.mp hf).2
  have hdraws : v ∈ h[i].1.draws := by rw [hxi, Event.draws, hm]; exact hv
  have hdraws' : v ∈ h[j].1.draws := by rw [hxj, Event.draws, hm']; exact hv'
  rcases lt_trichotomy i j with hij | rfl | hji
  · exact absurd hdraws' fun hmem => (hpair i j hlt hlt' hij) hdraws hmem
  · rfl
  · exact absurd hdraws fun hmem => (hpair j i hlt' hlt hji) hdraws' hmem

end

/-- A drawn token is not empty. -/
theorem draw_ne_empty (env : Env) {v : String} (hv : v ∈ env.draws.tokens) : v ≠ "" := by
  rintro rfl
  exact absurd (env.draws.token_pattern _ hv) (by decide)

/-! ## What an event keeps -/

section

variable {O : OAuthSpike} {w w' : World} {e : Event}

/-- An administrative operation owes only licences. -/
def adminSetting (P : Platform) : Setting Sql SqlError AuthDb where
  toBackend := authBackend
  Fault := StorageFault
  rely _ s s' := s = s'
  oblige op s := op.Licensed P s ∧ (∀ f, ¬op.AddsFamily f) ∧ ∀ t, ¬op.AddsToken s t

theorem adminSetting_tame (P : Platform) : Tame (adminSetting P) where
  exec := rfl
  rely h := h ▸ .refl _
  free {_ op _} hfree := by
    cases op <;> first | exact ⟨trivial, fun _ => id, fun _ => id⟩ | exact hfree.elim

theorem admin_licensed {call : StoreCall} (hcall : call.Administrative) (db : AuthDb) :
    wp (adminSetting O.store.platform) (call.program O.store).run (fun _ _ => True) db := by
  refine StoreCall.licensed (adminSetting_tame _) call (fun {β op s} hissues hlicensed => ?_) db
  refine ⟨hlicensed, fun f hadd => ?_, fun t hadd => ?_⟩
  · cases op <;> first | exact hadd.elim | (cases call <;> exact absurd hissues (by first | exact id | exact fun _ => hcall))
  · cases op <;> first | exact hadd.elim | (cases call <;> exact absurd hissues (by first | exact id | exact fun _ => hcall))

theorem step_evolves (h : OAuthStep O w e w') : Evolves w.db w'.db := by
  cases h with
  | call h => exact h.related .refl .trans answer_evolves
  | crash h => exact h.related .refl .trans answer_evolves
  | restart => exact .refl _
  | admin _ h => exact h.related .refl .trans answer_evolves

/-- The families and tokens an event adds come from the call it makes. -/
theorem step_additions (hw : Integrity O.store.platform w.db) (h : OAuthStep O w e w') :
    Integrity O.store.platform w'.db ∧
      ((∃ call env, e.made = some (call, env) ∧ Additions O env w.memory call w.db w'.db) ∨
        e.made = none ∧ (∀ f ∈ w'.db.families, ∃ f₀ ∈ w.db.families, f₀.Later f) ∧
          ∀ t ∈ w'.db.tokens, ∃ t₀ ∈ w.db.tokens, t₀.Later t) := by
  cases h with
  | @call call env _ _ _ _ _ _ h =>
    obtain ⟨-, hi, ha⟩ := call_additions hw h.visits
    exact ⟨hi, .inl ⟨call, env, rfl, ha⟩⟩
  | @crash call env _ _ _ _ _ _ h =>
    obtain ⟨-, hi, ha⟩ := call_additions hw h
    exact ⟨hi, .inl ⟨call, env, rfl, ha⟩⟩
  | restart => exact ⟨hw, .inr ⟨rfl, fun f hf => ⟨f, hf, .refl f⟩, fun t ht => ⟨t, ht, .refl t⟩⟩⟩
  | @admin call hcall m db db' trace h =>
    obtain ⟨hi, hf, ht⟩ := wp_invariant (C := adminSetting O.store.platform)
      (I := fun s => Integrity O.store.platform s ∧ (∀ f ∈ s.families, ∃ f₀ ∈ db.families, f₀.Later f) ∧
        ∀ t ∈ s.tokens, ∃ t₀ ∈ db.tokens, t₀.Later t) (fun _ _ => rfl)
      (fun {β op s r s'} hi hop hans => by
        refine ⟨integrity_answer hi.1 hop.1 hans, fun f' hf' => ?_, fun t' ht' => ?_⟩
        · obtain ⟨f, hf, hlater⟩ | hadd := (answer_origin hans).families f' hf'
          · obtain ⟨f₀, hf₀, h₀⟩ := hi.2.1 f hf
            exact ⟨f₀, hf₀, h₀.trans hlater⟩
          · exact absurd hadd (hop.2.1 f')
        · obtain ⟨t, ht, hlater⟩ | hadd := (answer_origin hans).tokens t' ht'
          · obtain ⟨t₀, ht₀, h₀⟩ := hi.2.2 t ht
            exact ⟨t₀, ht₀, h₀.trans hlater⟩
          · exact absurd hadd (hop.2.2 t'))
      (admin_licensed hcall db) ⟨hw, fun f hf => ⟨f, hf, .refl f⟩, fun t ht => ⟨t, ht, .refl t⟩⟩ h
    exact ⟨hi, .inr ⟨rfl, hf, ht⟩⟩

variable {h : History}

theorem path_evolves (hp : Path (OAuthStep O) w h w') : Evolves w.db w'.db :=
  hp.related (R := fun a b => Evolves a.db b.db) (fun _ => .refl _) .trans step_evolves

/-- A completed call has an outcome. -/
theorem step_outcome {call : OAuthCall} {env : Env} {reply : Except Thrown OAuthReply}
    {trace : List (Entry Sql SqlError)} (h : OAuthStep O w (.call call env reply trace) w') :
    Outcome O env w.memory w.db w'.db call reply w'.memory := by
  cases h with
  | call hrun => exact call_outcome hrun

/-- The run up to a place, the event there, and the run after it. -/
theorem run_at {w₂ : World} (hr : OAuthRun O h w₂) {k : Nat} (hx : h[k]? = some (e, w')) :
    ∃ w₀, OAuthRun O (h.take k) w₀ ∧ OAuthStep O w₀ e w' ∧ OAuthRun O (h.take (k + 1)) w' ∧
      Path (OAuthStep O) w' (h.drop (k + 1)) w₂ := by
  obtain ⟨id, hp⟩ := hr
  obtain ⟨w₀, hp₀, hs, hp'⟩ := hp.step_at hx
  refine ⟨w₀, ⟨id, hp₀⟩, hs, ⟨id, ?_⟩, hp'⟩
  rw [List.take_add_one, hx]
  exact hp₀.snoc hs

theorem run_integrity (hr : OAuthRun O h w) : Integrity O.store.platform w.db := by
  obtain ⟨id, hp⟩ := hr
  exact hp.invariant (I := fun w => Integrity O.store.platform w.db) integrity_empty
    fun hw hs => (step_additions hw hs).1

end

/-! ## Runs without faults -/

/-- What is asked of the process, or done by the owner. -/
inductive Input
  | call (call : OAuthCall) (env : Env)
  | admin (call : StoreCall) (h : call.Administrative)

/-- What happens when nothing fails. -/
def respond (O : OAuthSpike) (w : World) : Input → Event × World
  | .call c env =>
    let p := (c.program O env).run.run w.memory
    (.call c env (p.eval authBackend w.db).1.1 (p.trace authBackend w.db),
      ⟨(p.eval authBackend w.db).1.2, (p.eval authBackend w.db).2⟩)
  | .admin c _ => (.admin c, ⟨w.memory, ((c.program O.store).run.eval authBackend w.db).2⟩)

/-- The history of a sequence of inputs. -/
def play (O : OAuthSpike) : World → List Input → History
  | _, [] => []
  | w, i :: is => respond O w i :: play O (respond O w i).2 is

theorem respond_step (O : OAuthSpike) (w : World) (i : Input) :
    OAuthStep O w (respond O w i).1 (respond O w i).2 := by
  cases i with
  | call c env => exact .call (eval_runs _ _)
  | admin c hc => exact .admin hc (eval_runs _ _).visits

def Input.draws : Input → List String
  | .call _ env => env.draws.tokens
  | .admin .. => []

/-- A run draws what its inputs bring. -/
theorem fresh_play {O : OAuthSpike} {w : World} {is : List Input} :
    Fresh (play O w is) ↔ (is.flatMap Input.draws).Nodup := by
  have hdraws : (play O w is).flatMap (fun x => x.1.draws) = is.flatMap Input.draws := by
    induction is generalizing w with
    | nil => rfl
    | cons i is ih =>
      rw [play, List.flatMap_cons, List.flatMap_cons, ih]
      cases i <;> rfl
  rw [Fresh, hdraws]

theorem length_play (O : OAuthSpike) (w : World) (is : List Input) : (play O w is).length = is.length := by
  induction is generalizing w with
  | nil => rfl
  | cons i is ih => rw [play, List.length_cons, ih, List.length_cons]

/-- Where a sequence of inputs leads. -/
def playEnd (O : OAuthSpike) : World → List Input → World
  | w, [] => w
  | w, i :: is => playEnd O (respond O w i).2 is

theorem play_append (O : OAuthSpike) (w : World) (is js : List Input) :
    play O w (is ++ js) = play O w is ++ play O (playEnd O w is) js := by
  induction is generalizing w with
  | nil => rfl
  | cons i is ih => rw [List.cons_append, play, ih, play, playEnd, List.cons_append]

theorem playEnd_append (O : OAuthSpike) (w : World) (is js : List Input) :
    playEnd O w (is ++ js) = playEnd O (playEnd O w is) js := by
  induction is generalizing w with
  | nil => rfl
  | cons i is ih => rw [List.cons_append, playEnd, ih, playEnd]

/-- A sequence of inputs makes a run. -/
theorem play_path (O : OAuthSpike) (w : World) (is : List Input) :
    Path (OAuthStep O) w (play O w is) (playEnd O w is) := by
  induction is generalizing w with
  | nil => exact .nil
  | cons i is ih => exact (Path.single (respond_step O w i)).trans (ih (respond O w i).2)

end BegetBridge.Auth
