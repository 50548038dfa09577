import BegetBridge.Interleaving.Faults
import BegetBridge.Posix.Disk

/-!
# The permit to start the writers

While the marker of a migration is there, the units of the writers start only under a permit, a file that is
made for one action and removed when the action has ended.

## Main definitions

* `PermitSite`, `PermitOp`: the permit with its directory, and the calls, those of the action among them
* `withWriterStartPermit`, `assertWriterPermitAbsent`: the action under the permit
* `Scoped`: the action has the permit, and what is thrown tells where the permit stays

## Main results

* `meets_withWriterStartPermit`: what is done in a scope, and how it ends
* `permit_scoped_iff`: where the permit does not outlive its scope
* `total_withWriterStartPermit`, `careful_withWriterStartPermit`: what fails without faults, and with them
-/

namespace BegetBridge.WriterPermit

open Posix Interleaving

/-! ## The permit -/

/-- A file: its text, and whether it was synchronised since. -/
structure PermitFile where
  text : String
  synced : Bool
  deriving DecidableEq

/-- The permit, its directory with whether that is private, and whether what is above it and the marker are as they
should be. -/
structure PermitSite where
  marker : Bool
  parentReal : Bool
  parentTrusted : Bool
  directory : Option Bool
  permit : Option PermitFile
  deriving DecidableEq

/-- The calls of a scope. -/
inductive PermitCall : Type → Type
  | verifyMarker : PermitCall Unit
  | statParent : PermitCall Bool
  | realpathParent : PermitCall Bool
  | mkdir : PermitCall Unit
  | statDirectory : PermitCall Bool
  | realpathDirectory : PermitCall Bool
  | lstatPermit : PermitCall Unit
  | openPermit : PermitCall Unit
  | writePermit (text : String) : PermitCall Unit
  | syncPermit : PermitCall Unit
  | closePermit : PermitCall Unit
  | openDirectory : PermitCall Unit
  | syncDirectory : PermitCall Unit
  | closeDirectory : PermitCall Unit
  | unlinkPermit : PermitCall Unit

/-- The calls of a scope and of its action. -/
inductive PermitOp (Act : Type → Type) (β : Type) : Type
  | permit (call : PermitCall β)
  | act (a : Act β)

/-- The permit, and what the action is about. -/
structure Scope (A : Type) where
  site : PermitSite
  rest : A

namespace PermitSite

def withPermit (s : PermitSite) (permit : Option PermitFile) : PermitSite := { s with permit := permit }

def exec : {β : Type} → PermitCall β → PermitSite → Except Errno (β × PermitSite)
  | _, .verifyMarker, s => if s.marker then .ok ((), s) else .error .other
  | _, .statParent, s => .ok (s.parentTrusted, s)
  | _, .realpathParent, s => .ok (s.parentReal, s)
  | _, .mkdir, s => if s.directory.isSome then .error .EEXIST else .ok ((), { s with directory := some true })
  | _, .statDirectory, s => s.directory.elim (.error .ENOENT) fun isPrivate => .ok (isPrivate, s)
  | _, .realpathDirectory, s => s.directory.elim (.error .ENOENT) fun _ => .ok (s.parentReal, s)
  | _, .lstatPermit, s => s.permit.elim (.error .ENOENT) fun _ => .ok ((), s)
  | _, .openPermit, s => s.permit.elim (.ok ((), s.withPermit (some ⟨"", false⟩))) fun _ => .error .EEXIST
  | _, .writePermit text, s =>
    s.permit.elim (.error .other) fun file => .ok ((), s.withPermit (some ⟨file.text ++ text, false⟩))
  | _, .syncPermit, s => s.permit.elim (.error .other) fun file => .ok ((), s.withPermit (some { file with synced := true }))
  | _, .closePermit, s => .ok ((), s)
  | _, .openDirectory, s => .ok ((), s)
  | _, .syncDirectory, s => .ok ((), s)
  | _, .closeDirectory, s => .ok ((), s)
  | _, .unlinkPermit, s => s.permit.elim (.error .ENOENT) fun _ => .ok ((), s.withPermit none)

end PermitSite

/-- The permit, and an action whose calls leave it alone. -/
def scope {Act : Type → Type} {A : Type} (actions : Backend Act Errno A) : Backend (PermitOp Act) Errno (Scope A) where
  exec
    | .permit call, s => (s.site.exec call).map fun r => (r.1, { s with site := r.2 })
    | .act a, s => (actions.exec a s.rest).map fun r => (r.1, { s with rest := r.2 })

/-- What a scope throws: an error of a call, of the checks, of the cleanup or of the action, or an `AggregateError` of
one of these and one of the cleanup. -/
inductive PermitThrown (ξ : Type)
  | plain (e : Errno)
  | refused (message : String)
  | cleanup (e : Errno)
  | action (e : ξ)
  | aggregate (first second : PermitThrown ξ) (message : String)
  deriving DecidableEq

section Program

variable {Act : Type → Type} {ξ α β : Type}

abbrev PermitScript (Act : Type → Type) (ξ : Type) := Script (PermitOp Act) Errno (PermitThrown ξ)

def call (c : PermitCall β) : PermitScript Act ξ β := .perform .plain (.permit c)

def require (holds : Bool) (message : String) : PermitScript Act ξ Unit :=
  if holds then pure () else throw (.refused message)

/-- What is asked only where the rest of a condition holds. -/
def askedIf (holds : Bool) (c : PermitCall Bool) : PermitScript Act ξ Bool := if holds then call c else pure false

/-- `syncDirectory(directory)` -/
def syncDirectory (throws : Errno → PermitThrown ξ) : PermitScript Act ξ Unit := do
  .perform throws (.permit .openDirectory)
  Script.andFinally (.perform throws (.permit .syncDirectory)) (.perform throws (.permit .closeDirectory))

/-- `assertWriterPermitAbsent(permit)`, where `guarded` is whether `writerGuardContent` accepts the path. -/
def assertWriterPermitAbsent (guarded : Bool) : PermitScript Act ξ Unit := do
  require guarded "Writer permit must be an unambiguous ephemeral /run path"
  tryCatch (do
    call .lstatPermit
    throw (.refused "Writer start permit remains active")) fun
  | .plain .ENOENT => pure ()
  | error => throw error

/-- The permit is removed. -/
def removePermit : PermitScript Act ξ Unit := do
  .perform .cleanup (.permit .unlinkPermit)
  syncDirectory .cleanup

def permitText : String := "dp-beget-bridge-writer-start-v1\n"

/-- The directory is there, and private. -/
def preparedDirectory : PermitScript Act ξ Unit := do
  let trusted ← call .statParent
  let real ← askedIf trusted .realpathParent
  require real "Untrusted writer permit parent"
  tryCatch (call .mkdir) fun
  | .plain .EEXIST => pure ()
  | error => throw error
  let isPrivate ← call .statDirectory
  let real ← askedIf isPrivate .realpathDirectory
  require real "Untrusted writer permit directory"

/-- The permit is written, as a file that was not there. -/
def createdPermit : PermitScript Act ξ Unit := do
  call .openPermit
  Script.andFinally (do
    call (.writePermit permitText)
    call .syncPermit) (call .closePermit)

/-- The directory of the new permit is synchronised, or the permit is removed. -/
def settledPermit : PermitScript Act ξ Unit :=
  tryCatch (syncDirectory .plain) fun error => do
    tryCatch removePermit fun cleanupError =>
      throw (.aggregate error cleanupError "Writer permit preparation and cleanup failed")
    throw error

/-- The action, with what it throws as a value. -/
def acting (action : Script Act Errno ξ α) : PermitScript Act ξ (Except (PermitThrown ξ) α) :=
  ExceptT.mk ((action.run.mapOp .act).bind fun r => .done (.ok (r.mapError .action)))

/-- What comes of the action and of the cleanup. -/
def ended (result : Except (PermitThrown ξ) α) (cleaned : Except (PermitThrown ξ) Unit) : PermitScript Act ξ α :=
  match result, cleaned with
  | .error actionError, .error cleanupError =>
    throw (.aggregate actionError cleanupError "Writer startup and permit cleanup failed")
  | .ok _, .error cleanupError => throw cleanupError
  | .error actionError, .ok _ => throw actionError
  | .ok a, .ok _ => pure a

/-- `withWriterStartPermit({ marker, permit, action })`, where `rooted` is whether the process may call it. -/
def withWriterStartPermit (rooted guarded : Bool) (action : Script Act Errno ξ α) : PermitScript Act ξ α := do
  require rooted "Root and a controlled writer start action are required"
  require guarded "Writer permit must be an unambiguous ephemeral /run path"
  call .verifyMarker
  preparedDirectory
  createdPermit
  settledPermit
  let result ← acting action
  let cleaned ← removePermit.attempt
  ended result cleaned

end Program

/-! ## What is done in a scope -/

/-- The permit is there as a whole. -/
def PermitSite.Permitted (s : PermitSite) : Prop := s.permit = some ⟨permitText, true⟩

/-- The error is about the cleanup. -/
def PermitThrown.reportsCleanup {ξ : Type} : PermitThrown ξ → Bool
  | .cleanup _ => true
  | .aggregate _ _ _ => true
  | _ => false

/-- The permit that is made is not written, not synchronised or not closed. -/
def spoils {Act : Type → Type} : Entry (PermitOp Act) Errno → Bool
  | ⟨.permit (.writePermit _), .error _⟩ => true
  | ⟨.permit .syncPermit, .error _⟩ => true
  | ⟨.permit .closePermit, .error _⟩ => true
  | _ => false

/-- No permit was spoiled. -/
def Unspoiled {Act : Type → Type} (h : List (Entry (PermitOp Act) Errno)) : Prop := ∀ x ∈ h, spoils x = false

/-- The action has the permit. -/
def actsPermitted {Act : Type → Type} {A γ : Type} : PermitOp Act γ → Scope A → Prop
  | .permit _, _ => True
  | .act _, s => s.site.Permitted

section Scope

variable {Act : Type → Type} {A ξ α β : Type} {actions : Backend Act Errno A} {Fault : Errno → Prop}
  {h : List (Entry (PermitOp Act) Errno)} {s : Scope A}

theorem unspoiled_snoc {x : Entry (PermitOp Act) Errno} :
    Unspoiled (h ++ [x]) ↔ Unspoiled h ∧ spoils x = false := by
  simp [Unspoiled, or_imp, forall_and]

/-- What is owed in a scope: the action has the permit. -/
abbrev Meets (actions : Backend Act Errno A) (Fault : Errno → Prop) (p : PermitScript Act ξ α)
    (Q : List (Entry (PermitOp Act) Errno) → Except (PermitThrown ξ) α → Scope A → Prop)
    (h : List (Entry (PermitOp Act) Errno)) (s : Scope A) : Prop :=
  Script.Meets (scope actions) Fault (fun _ op s => actsPermitted op s) p Q h s

/-- A script looks at the permit, or at what is around it. What it throws is no error of the cleanup. -/
def Around (h : List (Entry (PermitOp Act) Errno)) (s : Scope A) (h' : List (Entry (PermitOp Act) Errno))
    (r : Except (PermitThrown ξ) α) (s' : Scope A) : Prop :=
  (Unspoiled h' ↔ Unspoiled h) ∧ s'.site.permit = s.site.permit ∧ ∀ e, r = .error e → e.reportsCleanup = false

/-- The calls that leave the permit as it is, and do not spoil it where they fail. -/
def PermitCall.around : PermitCall β → Bool
  | .openPermit | .writePermit _ | .syncPermit | .closePermit | .unlinkPermit => false
  | _ => true

theorem exec_permit {c : PermitCall β} {b : β} {s' : Scope A}
    (hexec : (scope actions).exec (.permit c) s = .ok (b, s')) :
    s.site.exec c = .ok (b, s'.site) ∧ s'.rest = s.rest := by
  change (s.site.exec c).map _ = _ at hexec
  cases hc : s.site.exec c with
  | error e =>
    rw [hc] at hexec
    cases hexec
  | ok r =>
    rw [hc] at hexec
    obtain ⟨rfl, rfl⟩ := Prod.mk.inj (Except.ok.inj hexec)
    exact ⟨rfl, rfl⟩

theorem exec_around {c : PermitCall β} {b : β} {t t' : PermitSite} (haround : c.around = true)
    (hexec : t.exec c = .ok (b, t')) : t'.permit = t.permit := by
  cases c <;> simp only [PermitCall.around, Bool.false_eq_true] at haround
  case verifyMarker | mkdir =>
    rw [PermitSite.exec] at hexec
    split at hexec
    all_goals cases hexec <;> rfl
  case statDirectory | realpathDirectory =>
    cases hd : t.directory with
    | none => simp [PermitSite.exec, hd] at hexec
    | some isPrivate =>
      simp only [PermitSite.exec, hd, Option.elim, Except.ok.injEq, Prod.mk.injEq] at hexec
      rw [← hexec.2]
  case lstatPermit =>
    cases hp : t.permit with
    | none => simp [PermitSite.exec, hp] at hexec
    | some file =>
      simp only [PermitSite.exec, hp, Option.elim, Except.ok.injEq, Prod.mk.injEq] at hexec
      rw [← hexec.2, hp]
  all_goals
    obtain ⟨_, rfl⟩ := Prod.mk.inj (Except.ok.inj hexec)
    rfl

theorem spoils_around {c : PermitCall β} {r : Except Errno β} (haround : c.around = true) :
    spoils (⟨.permit c, r⟩ : Entry (PermitOp Act) Errno) = false := by
  cases c <;> cases r <;> first | rfl | exact absurd haround nofun

/-! ### Around the permit -/

theorem around_refl {r : Except (PermitThrown ξ) α} (hr : ∀ e, r = .error e → e.reportsCleanup = false) :
    Around h s h r s := ⟨Iff.rfl, rfl, hr⟩

theorem Around.trans {h' h'' : List (Entry (PermitOp Act) Errno)} {s' s'' : Scope A}
    {r : Except (PermitThrown ξ) β} {r' : Except (PermitThrown ξ) α} (hfirst : Around h s h' r s')
    (hthen : Around h' s' h'' r' s'') : Around h s h'' r' s'' :=
  ⟨hthen.1.trans hfirst.1, hthen.2.1.trans hfirst.2.1, hthen.2.2⟩

theorem meets_around {c : PermitCall β} (haround : c.around = true) :
    Meets (ξ := ξ) actions Fault (call c) (Around h s) h s := by
  apply Script.meets_perform trivial
  · intro b s' hexec
    refine ⟨?_, exec_around haround (exec_permit hexec).1, nofun⟩
    simp [unspoiled_snoc, spoils_around haround]
  · intro e
    refine ⟨?_, rfl, fun _ he => ?_⟩
    · simp [unspoiled_snoc, spoils_around haround]
    · rw [← Except.error.inj he]
      rfl

theorem around_bind {p : PermitScript Act ξ β} {f : β → PermitScript Act ξ α}
    (hp : Meets actions Fault p (Around h s) h s)
    (hf : ∀ b h' s', Meets actions Fault (f b) (Around h' s') h' s') :
    Meets actions Fault (p >>= f) (Around h s) h s := by
  apply Script.meets_bind hp
  · intro h' b s' haround
    exact Script.meets_mono (hf b h' s') fun _ _ _ => haround.trans
  · exact fun h' e s' haround => ⟨haround.1, haround.2.1, fun _ he => haround.2.2 _ (by rw [← Except.error.inj he])⟩

theorem around_require {holds : Bool} {message : String} :
    Meets (ξ := ξ) actions Fault (require holds message) (Around h s) h s := by
  cases holds with
  | true => exact around_refl nofun
  | false => exact around_refl fun e he => by rw [← Except.error.inj he]; rfl

theorem around_askedIf {holds : Bool} {c : PermitCall Bool} (haround : c.around = true) :
    Meets (ξ := ξ) actions Fault (askedIf holds c) (Around h s) h s := by
  cases holds with
  | true => exact meets_around haround
  | false => exact around_refl nofun

theorem preparedDirectory_around :
    Meets (ξ := ξ) actions Fault preparedDirectory (Around h s) h s := by
  apply around_bind (meets_around rfl)
  intro trusted h₁ s₁
  apply around_bind (around_askedIf rfl)
  intro real h₂ s₂
  apply around_bind around_require
  intro _ h₃ s₃
  -- the directory may be there already
  have hmkdir : Meets (ξ := ξ) actions Fault (tryCatch (call .mkdir) fun
      | .plain .EEXIST => pure ()
      | error => throw error) (Around h₃ s₃) h₃ s₃ := by
    apply Script.meets_tryCatch (meets_around rfl)
    · exact fun _ _ _ hok => hok
    · intro h' e s' haround
      split
      · exact ⟨haround.1, haround.2.1, nofun⟩
      · exact haround
  apply around_bind hmkdir
  intro _ h₄ s₄
  apply around_bind (meets_around rfl)
  intro isPrivate h₅ s₅
  apply around_bind (around_askedIf rfl)
  intro real h₆ s₆
  exact around_require

/-! ### The permit is made and removed -/

/-- How the permit is made. -/
def Created (h : List (Entry (PermitOp Act) Errno)) (s : Scope A) (h' : List (Entry (PermitOp Act) Errno)) :
    Except (PermitThrown ξ) Unit → Scope A → Prop
  | .ok _, s' => (Unspoiled h' ↔ Unspoiled h) ∧ s.site.permit = none ∧ s'.site.Permitted
  | .error e, s' => e.reportsCleanup = false ∧
      ((Unspoiled h' ↔ Unspoiled h) ∧ s'.site.permit = s.site.permit ∨
        ¬Unspoiled h' ∧ s'.site.permit ≠ none)

theorem exec_openPermit {t t' : PermitSite} {u : Unit} (hexec : t.exec .openPermit = .ok (u, t')) :
    t.permit = none ∧ t' = t.withPermit (some ⟨"", false⟩) := by
  cases hp : t.permit with
  | none =>
    simp only [PermitSite.exec, hp, Option.elim, Except.ok.injEq, Prod.mk.injEq] at hexec
    exact ⟨rfl, hexec.2.symm⟩
  | some file => simp [PermitSite.exec, hp] at hexec

theorem exec_writePermit {t t' : PermitSite} {file : PermitFile} {text : String} {u : Unit}
    (hp : t.permit = some file) (hexec : t.exec (.writePermit text) = .ok (u, t')) :
    t' = t.withPermit (some ⟨file.text ++ text, false⟩) := by
  simp only [PermitSite.exec, hp, Option.elim, Except.ok.injEq, Prod.mk.injEq] at hexec
  exact hexec.2.symm

theorem exec_syncPermit {t t' : PermitSite} {file : PermitFile} {u : Unit} (hp : t.permit = some file)
    (hexec : t.exec .syncPermit = .ok (u, t')) : t' = t.withPermit (some { file with synced := true }) := by
  simp only [PermitSite.exec, hp, Option.elim, Except.ok.injEq, Prod.mk.injEq] at hexec
  exact hexec.2.symm

theorem exec_unlinkPermit {t t' : PermitSite} {u : Unit} (hexec : t.exec .unlinkPermit = .ok (u, t')) :
    t'.permit = none := by
  cases hp : t.permit with
  | none => simp [PermitSite.exec, hp] at hexec
  | some file =>
    simp only [PermitSite.exec, hp, Option.elim, Except.ok.injEq, Prod.mk.injEq] at hexec
    rw [← hexec.2]
    rfl

theorem meets_createdPermit : Meets (ξ := ξ) actions Fault createdPermit (Created h s) h s := by
  apply Script.meets_call trivial
  · rintro ⟨⟩ s₁ hexec
    obtain ⟨hnone, hs₁⟩ := exec_openPermit (exec_permit hexec).1
    have hp₁ : s₁.site.permit = some ⟨"", false⟩ := by rw [hs₁]; rfl
    have hopened : Unspoiled (h ++ [(⟨.permit .openPermit, .ok ()⟩ : Entry (PermitOp Act) Errno)]) ↔ Unspoiled h := by
      simp [unspoiled_snoc, spoils]
    -- once a call has failed, the file stays as it is, and the handle is closed
    have hspoiled : ∀ (h' : List (Entry (PermitOp Act) Errno)) (e : Errno) (s' : Scope A), ¬Unspoiled h' →
        s'.site.permit ≠ none → Meets (ξ := ξ) actions Fault (call .closePermit)
          (fun h'' r s'' => Created h s h'' (Script.lastly (.error (.plain e) : Except (PermitThrown ξ) Unit) r) s'') h' s' := by
      intro h' e s' hspoiled hthere
      apply Script.meets_perform trivial
      · intro u s'' hclose
        obtain ⟨_, hs''⟩ := Prod.mk.inj (Except.ok.inj (exec_permit hclose).1)
        exact ⟨rfl, .inr ⟨fun hall => hspoiled (unspoiled_snoc.mp hall).1, hs'' ▸ hthere⟩⟩
      · exact fun e' => ⟨rfl, .inr ⟨fun hall => hspoiled (unspoiled_snoc.mp hall).1, hthere⟩⟩
    apply Script.meets_finally (P := fun h' r s' => match r with
      | .ok _ => (Unspoiled h' ↔ Unspoiled h) ∧ s'.site.Permitted
      | .error e => ¬Unspoiled h' ∧ s'.site.permit ≠ none ∧ ∃ x, e = .plain x)
    · apply Script.meets_call trivial
      · rintro ⟨⟩ s₂ hwrite
        have hs₂ := exec_writePermit hp₁ (exec_permit hwrite).1
        have hp₂ : s₂.site.permit = some ⟨"" ++ permitText, false⟩ := by rw [hs₂]; rfl
        apply Script.meets_perform trivial
        · rintro ⟨⟩ s₃ hsync
          have hs₃ := exec_syncPermit hp₂ (exec_permit hsync).1
          refine ⟨?_, ?_⟩
          · rw [unspoiled_snoc, unspoiled_snoc, hopened]
            simp [spoils]
          · rw [PermitSite.Permitted, hs₃]
            rfl
        · intro e
          exact ⟨fun hall => absurd (unspoiled_snoc.mp hall).2 nofun, by simp [hp₂], e, rfl⟩
      · intro e
        exact ⟨fun hall => absurd (unspoiled_snoc.mp hall).2 nofun, by simp [hp₁], e, rfl⟩
    · rintro h' (e | u) s' hP
      · obtain ⟨hspoils, hthere, x, rfl⟩ := hP
        exact hspoiled h' x s' hspoils hthere
      · obtain ⟨hall, hpermitted⟩ := hP
        apply Script.meets_perform trivial
        · rintro ⟨⟩ s'' hclose
          obtain ⟨_, hs''⟩ := Prod.mk.inj (Except.ok.inj (exec_permit hclose).1)
          refine ⟨?_, hnone, hs'' ▸ hpermitted⟩
          rw [unspoiled_snoc, hall]
          simp [spoils]
        · intro e
          refine ⟨rfl, .inr ⟨?_, ?_⟩⟩
          · simp [unspoiled_snoc, spoils]
          · rw [hpermitted]
            exact nofun
  · intro e
    refine ⟨rfl, .inl ⟨?_, rfl⟩⟩
    simp [unspoiled_snoc, spoils]

theorem meets_syncDirectory {throws : Errno → PermitThrown ξ} :
    Meets actions Fault (syncDirectory throws) (fun h' r s' => (Unspoiled h' ↔ Unspoiled h) ∧
      s'.site.permit = s.site.permit ∧ ∀ e, r = .error e → ∃ x, e = throws x) h s := by
  -- each of the three calls leaves the permit alone
  have hcall : ∀ (c : PermitCall Unit) (h : List (Entry (PermitOp Act) Errno)) (s : Scope A), c.around = true →
      Meets actions Fault (Script.perform throws (.permit c)) (fun h' r s' => (Unspoiled h' ↔ Unspoiled h) ∧
        s'.site.permit = s.site.permit ∧ ∀ e, r = .error e → ∃ x, e = throws x) h s := by
    intro c h s haround
    apply Script.meets_perform trivial
    · intro b s' hexec
      refine ⟨?_, exec_around haround (exec_permit hexec).1, nofun⟩
      simp [unspoiled_snoc, spoils_around haround]
    · intro e
      refine ⟨?_, rfl, fun _ he => ⟨e, (Except.error.inj he).symm⟩⟩
      simp [unspoiled_snoc, spoils_around haround]
  apply Script.meets_bind (hcall .openDirectory h s rfl)
  · rintro h₁ ⟨⟩ s₁ ⟨hh₁, hs₁, -⟩
    apply Script.meets_finally (hcall .syncDirectory h₁ s₁ rfl)
    rintro h₂ r s₂ ⟨hh₂, hs₂, hr⟩
    apply Script.meets_mono (hcall .closeDirectory h₂ s₂ rfl)
    rintro h₃ (e | u) s₃ ⟨hh₃, hs₃, hlast⟩
    · exact ⟨hh₃.trans (hh₂.trans hh₁), hs₃.trans (hs₂.trans hs₁), hlast⟩
    · exact ⟨hh₃.trans (hh₂.trans hh₁), hs₃.trans (hs₂.trans hs₁), hr⟩
  · rintro h' e s' ⟨hh', hs', he⟩
    exact ⟨hh', hs', he⟩

theorem meets_removePermit :
    Meets (ξ := ξ) actions Fault removePermit (fun h' r s' => (Unspoiled h' ↔ Unspoiled h) ∧
      (∀ u, r = .ok u → s'.site.permit = none) ∧ ∀ e, r = .error e → ∃ x, e = .cleanup x) h s := by
  apply Script.meets_call trivial
  · rintro ⟨⟩ s₁ hexec
    have hnone := exec_unlinkPermit (exec_permit hexec).1
    apply Script.meets_mono meets_syncDirectory
    rintro h' r s' ⟨hh', hs', he⟩
    refine ⟨?_, fun _ _ => hs'.trans hnone, he⟩
    rw [hh', unspoiled_snoc]
    simp [spoils]
  · intro e
    refine ⟨?_, nofun, fun _ he => ⟨e, (Except.error.inj he).symm⟩⟩
    simp [unspoiled_snoc, spoils]

theorem meets_settledPermit (hpermitted : s.site.Permitted) :
    Meets (ξ := ξ) actions Fault settledPermit (fun h' r s' => (Unspoiled h' ↔ Unspoiled h) ∧
      (∀ u, r = .ok u → s'.site.Permitted) ∧
      ∀ e, r = .error e → e.reportsCleanup = false → s'.site.permit = none) h s := by
  apply Script.meets_tryCatch meets_syncDirectory
  · rintro h' u s' ⟨hh', hs', -⟩
    exact ⟨hh', fun _ _ => hs'.trans hpermitted, nofun⟩
  · rintro h₁ error s₁ ⟨hh₁, hs₁, -⟩
    apply Script.meets_bind (Script.meets_tryCatch meets_removePermit ?_ ?_ (Q := fun h' r s' =>
      (Unspoiled h' ↔ Unspoiled h₁) ∧ (∀ u, r = .ok u → s'.site.permit = none) ∧
        ∀ e, r = .error e → e.reportsCleanup = true))
    · rintro h₂ ⟨⟩ s₂ ⟨hh₂, hnone, -⟩
      exact ⟨hh₂.trans hh₁, nofun, fun _ _ _ => hnone () rfl⟩
    · rintro h₂ e s₂ ⟨hh₂, -, hreports⟩
      refine ⟨hh₂.trans hh₁, nofun, fun e' he' hnot => ?_⟩
      rw [← Except.error.inj he', hreports e rfl] at hnot
      exact absurd hnot nofun
    · rintro h₂ u s₂ ⟨hh₂, hnone, -⟩
      exact ⟨hh₂, hnone, nofun⟩
    · rintro h₂ e s₂ ⟨hh₂, -, -⟩
      refine ⟨hh₂, nofun, fun e' he' => ?_⟩
      rw [← Except.error.inj he']
      rfl

/-! ### The action -/

theorem exec_act {a : Act β} {b : β} {s' : Scope A} (hexec : (scope actions).exec (.act a) s = .ok (b, s')) :
    s'.site = s.site := by
  change (actions.exec a s.rest).map _ = _ at hexec
  cases ha : actions.exec a s.rest with
  | error e =>
    rw [ha] at hexec
    cases hexec
  | ok r =>
    rw [ha] at hexec
    rw [← (Prod.mk.inj (Except.ok.inj hexec)).2]

theorem meets_acts {γ : Type} (p : Prog Act Errno γ) (hpermitted : s.site.Permitted) :
    Prog.Meets (scope actions) Fault (fun _ op s => actsPermitted op s) (p.mapOp .act)
      (fun h' _ s' => (Unspoiled h' ↔ Unspoiled h) ∧ s'.site = s.site) h s := by
  induction p generalizing h s with
  | done a => exact ⟨Iff.rfl, rfl⟩
  | call op k ih =>
    refine ⟨hpermitted, fun r s' hans => ?_⟩
    have hsite : s'.site = s.site := by
      cases hans with
      | effect hexec => exact exec_act hexec
      | refusal => rfl
      | fault => rfl
    refine Prog.meets_mono ?_ (ih r (hsite ▸ hpermitted))
    rintro h' a s'' ⟨hh', hs''⟩
    refine ⟨?_, hs''.trans hsite⟩
    rw [hh', unspoiled_snoc]
    exact and_iff_left rfl

theorem meets_acting (action : Script Act Errno ξ α) (hpermitted : s.site.Permitted) :
    Meets actions Fault (acting action) (fun h' r s' => (Unspoiled h' ↔ Unspoiled h) ∧ s'.site = s.site ∧
      ∃ q, r = .ok q) h s := by
  refine Prog.meets_bind (Prog.meets_mono ?_ (meets_acts action.run hpermitted))
  rintro h' q s' ⟨hh', hs'⟩
  exact ⟨hh', hs', _, rfl⟩

/-! ### The scope -/

/-- Where nothing is thrown of a cleanup, the permit is gone. -/
def EndsAbsent (r : Except (PermitThrown ξ) α) (s : Scope A) : Prop :=
  (∀ e, r = .error e → e.reportsCleanup = false) → s.site.permit = none

/-- How a scope ends. -/
def ScopeEnds (s : Scope A) (h : List (Entry (PermitOp Act) Errno)) (r : Except (PermitThrown ξ) α) (s' : Scope A) :
    Prop := EndsAbsent r s' ↔ s.site.permit = none ∧ Unspoiled h

theorem scopeEnds_early {h' : List (Entry (PermitOp Act) Errno)} {e : PermitThrown ξ} {s' : Scope A}
    (hh' : Unspoiled h') (hs' : s'.site.permit = s.site.permit) (he : e.reportsCleanup = false) :
    ScopeEnds s h' (.error e : Except (PermitThrown ξ) α) s' := by
  constructor
  · intro habsent
    refine ⟨hs'.symm.trans (habsent fun e' he' => ?_), hh'⟩
    rw [← Except.error.inj he', he]
  · rintro ⟨hnone, -⟩ -
    exact hs'.trans hnone

/-- **What is done in a scope**: the action has the permit, and the permit is gone at the end unless it was spoiled, it
was there before, or the cleanup is reported. -/
theorem meets_withWriterStartPermit {rooted guarded : Bool} (action : Script Act Errno ξ α) (hstart : Unspoiled h) :
    Meets actions Fault (withWriterStartPermit rooted guarded action) (ScopeEnds s) h s := by
  have hearly : ∀ {β : Type} (h' : List (Entry (PermitOp Act) Errno)) (e : PermitThrown ξ) (s' : Scope A),
      Around h s h' (.error e : Except (PermitThrown ξ) β) s' →
      ScopeEnds s h' (.error e : Except (PermitThrown ξ) α) s' := fun h' e s' haround =>
    scopeEnds_early (haround.1.mpr hstart) haround.2.1 (haround.2.2 e rfl)
  apply Script.meets_bind around_require ?_ hearly
  intro h₁ _ s₁ ha₁
  apply Script.meets_bind around_require ?_ fun h' e s' ha => hearly h' e s' (ha₁.trans ha)
  intro h₂ _ s₂ ha₂
  replace ha₂ := ha₁.trans ha₂
  apply Script.meets_bind (meets_around rfl) ?_ fun h' e s' ha => hearly h' e s' (ha₂.trans ha)
  intro h₃ _ s₃ ha₃
  replace ha₃ := ha₂.trans ha₃
  apply Script.meets_bind preparedDirectory_around ?_ fun h' e s' ha => hearly h' e s' (ha₃.trans ha)
  intro h₄ _ s₄ ha₄
  replace ha₄ := ha₃.trans ha₄
  have hall₄ : Unspoiled h₄ := ha₄.1.mpr hstart
  apply Script.meets_bind meets_createdPermit
  · rintro h₅ ⟨⟩ s₅ ⟨hh₅, hnone, hpermitted⟩
    have hnone₀ : s.site.permit = none := ha₄.2.1.symm.trans hnone
    have hall₅ := hh₅.mpr hall₄
    -- from here on the permit was not there before, and is not spoiled
    apply Script.meets_bind (meets_settledPermit hpermitted)
    · rintro h₆ ⟨⟩ s₆ ⟨hh₆, hpermitted₆, -⟩
      apply Script.meets_bind (meets_acting action (hpermitted₆ () rfl))
      · rintro h₇ result s₇ ⟨hh₇, -, -⟩
        apply Script.meets_bind (Script.meets_attempt (Script.meets_mono meets_removePermit
          fun _ r _ hr => ⟨r, rfl, hr⟩)) (P := fun h' q s' => ∃ cleaned, q = .ok cleaned ∧
            (Unspoiled h' ↔ Unspoiled h₇) ∧ (∀ u, cleaned = .ok u → s'.site.permit = none) ∧
              ∀ e, cleaned = .error e → ∃ x, e = .cleanup x)
        · rintro h₈ cleaned s₈ ⟨_, hcleaned, hh₈, hgone, hreports⟩
          obtain rfl := Except.ok.inj hcleaned
          have hall₈ := hh₈.mpr (hh₇.mpr (hh₆.mpr hall₅))
          rcases result with a | a <;> rcases cleaned with c | c
          · refine iff_of_true (fun hnot => ?_) ⟨hnone₀, hall₈⟩
            exact absurd (hnot _ rfl) nofun
          · exact iff_of_true (fun _ => hgone c rfl) ⟨hnone₀, hall₈⟩
          · refine iff_of_true (fun hnot => ?_) ⟨hnone₀, hall₈⟩
            obtain ⟨x, rfl⟩ := hreports c rfl
            exact absurd (hnot _ rfl) nofun
          · exact iff_of_true (fun _ => hgone c rfl) ⟨hnone₀, hall₈⟩
        · rintro h' e s' ⟨_, he, -⟩
          cases he
      · rintro h' e s' ⟨-, -, q, hq⟩
        cases hq
    · rintro h₆ e s₆ ⟨hh₆, -, hgone⟩
      exact iff_of_true (fun hnot => hgone e rfl (hnot e rfl)) ⟨hnone₀, hh₆.mpr hall₅⟩
  · rintro h₅ e s₅ ⟨hplain, ⟨hh₅, hs₅⟩ | ⟨hspoiled, hthere⟩⟩
    · exact scopeEnds_early (hh₅.mpr hall₄) (hs₅.trans ha₄.2.1) hplain
    · refine iff_of_false (fun habsent => hthere (habsent fun e' he' => ?_)) fun hall => hspoiled hall.2
      rw [← Except.error.inj he', hplain]

/-- The action has the permit at each of its calls, and the permit does not outlive the scope silently. -/
structure Scoped (actions : Backend Act Errno A) (Fault : Errno → Prop) (p : PermitScript Act ξ α) (s : Scope A)
    (tr : List (Entry (PermitOp Act) Errno)) (r : Except (PermitThrown ξ) α) (s' : Scope A) : Prop where
  permitted : ∀ (tr₁ rest : List (Entry (PermitOp Act) Errno)) {γ : Type} (a : Act γ) (q : Except Errno γ),
    tr = tr₁ ++ ⟨.act a, q⟩ :: rest → ∃ s₁, Visits (scope actions) Fault p.run s tr₁ s₁ ∧ s₁.site.Permitted
  absent : EndsAbsent r s'

/-- **The permit does not outlive its scope silently** exactly where it was not there before, and the new one is
written, synchronised and closed. -/
theorem permit_scoped_iff {rooted guarded : Bool} {action : Script Act Errno ξ α}
    {tr : List (Entry (PermitOp Act) Errno)} {r : Except (PermitThrown ξ) α} {s' : Scope A}
    (hruns : Runs (scope actions) Fault (withWriterStartPermit rooted guarded action).run s tr r s') :
    Scoped actions Fault (withWriterStartPermit rooted guarded action) s tr r s' ↔
      s.site.permit = none ∧ Unspoiled tr := by
  have hmeets : Meets actions Fault (withWriterStartPermit rooted guarded action) (ScopeEnds s) [] s :=
    meets_withWriterStartPermit action nofun
  have hends : ScopeEnds s tr r s' := hmeets.runs hruns
  refine ⟨fun hscoped => hends.mp hscoped.absent, fun hcond => ⟨?_, hends.mpr hcond⟩⟩
  rintro tr₁ rest γ a q rfl
  obtain ⟨s₁, -, hs₁, -, hpermitted⟩ := hmeets.owes hruns.visits
  exact ⟨s₁, hs₁, hpermitted⟩

/-! ### What a scope leaves alone -/

/-- The calls of the scope. -/
def ofScope {γ : Type} : PermitOp Act γ → Prop
  | .permit _ => True
  | .act _ => False

/-- The script makes calls of the scope only. -/
def ScopeOnly (p : PermitScript Act ξ α) : Prop := p.run.Every ofScope

theorem scopeOnly_pure {a : α} : ScopeOnly (pure a : PermitScript Act ξ α) := trivial

theorem scopeOnly_throw {e : PermitThrown ξ} : ScopeOnly (throw e : PermitScript Act ξ α) := trivial

theorem scopeOnly_perform {throws : Errno → PermitThrown ξ} {c : PermitCall α} :
    ScopeOnly (.perform throws (.permit c) : PermitScript Act ξ α) := by
  refine ⟨trivial, ?_⟩
  rintro (e | a) <;> trivial

theorem scopeOnly_bind {p : PermitScript Act ξ β} {f : β → PermitScript Act ξ α} (hp : ScopeOnly p)
    (hf : ∀ b, ScopeOnly (f b)) : ScopeOnly (p >>= f) := by
  apply every_bind hp
  rintro (e | b)
  · trivial
  · exact hf b

theorem scopeOnly_tryCatch {p : PermitScript Act ξ α} {f : PermitThrown ξ → PermitScript Act ξ α} (hp : ScopeOnly p)
    (hf : ∀ e, ScopeOnly (f e)) : ScopeOnly (tryCatch p f) := by
  apply every_bind hp
  rintro (e | a)
  · exact hf e
  · trivial

theorem scopeOnly_finally {p : PermitScript Act ξ α} {last : PermitScript Act ξ Unit} (hp : ScopeOnly p)
    (hlast : ScopeOnly last) : ScopeOnly (p.andFinally last) := by
  apply every_bind hp
  intro r
  apply every_bind hlast
  rintro (e | u) <;> trivial

theorem scopeOnly_require {holds : Bool} {message : String} :
    ScopeOnly (require holds message : PermitScript Act ξ Unit) := by
  cases holds <;> trivial

theorem scopeOnly_syncDirectory {throws : Errno → PermitThrown ξ} :
    ScopeOnly (syncDirectory throws : PermitScript Act ξ Unit) := by
  apply scopeOnly_bind scopeOnly_perform
  intro _
  exact scopeOnly_finally scopeOnly_perform scopeOnly_perform

theorem scopeOnly_removePermit : ScopeOnly (removePermit : PermitScript Act ξ Unit) :=
  scopeOnly_bind scopeOnly_perform fun _ => scopeOnly_syncDirectory

theorem scopeOnly_preparedDirectory : ScopeOnly (preparedDirectory : PermitScript Act ξ Unit) := by
  have hasked : ∀ (holds : Bool) (c : PermitCall Bool), ScopeOnly (askedIf holds c : PermitScript Act ξ Bool) := by
    rintro (_ | _) c
    · exact scopeOnly_pure
    · exact scopeOnly_perform
  apply scopeOnly_bind scopeOnly_perform
  intro trusted
  apply scopeOnly_bind (hasked _ _)
  intro real
  apply scopeOnly_bind scopeOnly_require
  intro _
  apply scopeOnly_bind
  · apply scopeOnly_tryCatch scopeOnly_perform
    intro e
    split <;> trivial
  · intro _
    apply scopeOnly_bind scopeOnly_perform
    intro isPrivate
    apply scopeOnly_bind (hasked _ _)
    exact fun _ => scopeOnly_require

theorem scopeOnly_createdPermit : ScopeOnly (createdPermit : PermitScript Act ξ Unit) := by
  apply scopeOnly_bind scopeOnly_perform
  intro _
  exact scopeOnly_finally (scopeOnly_bind scopeOnly_perform fun _ => scopeOnly_perform) scopeOnly_perform

theorem scopeOnly_settledPermit : ScopeOnly (settledPermit : PermitScript Act ξ Unit) := by
  apply scopeOnly_tryCatch scopeOnly_syncDirectory
  intro e
  apply scopeOnly_bind
  · exact scopeOnly_tryCatch scopeOnly_removePermit fun _ => scopeOnly_throw
  · exact fun _ => scopeOnly_throw

theorem exec_marker {c : PermitCall β} {b : β} {t t' : PermitSite} (hexec : t.exec c = .ok (b, t')) :
    t'.marker = t.marker := by
  cases c <;> simp only [PermitSite.exec, PermitSite.withPermit] at hexec
  case verifyMarker | mkdir =>
    split at hexec
    all_goals cases hexec <;> rfl
  case statDirectory | realpathDirectory =>
    cases hd : t.directory with
    | none => simp [hd] at hexec
    | some isPrivate => simp_all
  case lstatPermit | openPermit | writePermit | syncPermit | unlinkPermit =>
    cases hp : t.permit with
    | none => simp [hp] at hexec <;> simp [← hexec]
    | some file => simp [hp] at hexec <;> simp [← hexec]
  all_goals
    obtain ⟨_, rfl⟩ := Prod.mk.inj (Except.ok.inj hexec)
    rfl

section Invariant

variable {O : {γ : Type} → List (Entry (PermitOp Act) Errno) → PermitOp Act γ → Scope A → Prop}
  {I : List (Entry (PermitOp Act) Errno) → Scope A → Prop} {J : α → List (Entry (PermitOp Act) Errno) → Scope A → Prop}

/-- What the calls of the scope keep. -/
def KeptAround (actions : Backend Act Errno A) (Fault : Errno → Prop)
    (I : List (Entry (PermitOp Act) Errno) → Scope A → Prop) : Prop :=
  ∀ (γ : Type) (c : PermitCall γ) (h : List (Entry (PermitOp Act) Errno)) (s s' : Scope A) (r : Except Errno γ),
    I h s → Answer (scope actions) Fault (.permit c) s r s' → I (h ++ [⟨.permit c, r⟩]) s'

theorem meets_scopeOnly {p : PermitScript Act ξ β}
    (hO : ∀ {γ : Type} (h : List (Entry (PermitOp Act) Errno)) (c : PermitCall γ) (s : Scope A), I h s → O h (.permit c) s)
    (hI : KeptAround actions Fault I) (hp : ScopeOnly p) (hs : I h s) :
    Script.Meets (scope actions) Fault O p (fun h' _ s' => I h' s') h s := by
  refine Prog.meets_every (P := ofScope) ?_ ?_ hp hs
  · intro γ h op s hop hs
    cases op with
    | permit c => exact hO h c s hs
    | act a => cases hop
  · intro γ op h s s' r hop hs hans
    cases op with
    | permit c => exact hI _ c h s s' r hs hans
    | act a => cases hop

theorem answer_marker {γ : Type} {c : PermitCall γ} {s s' : Scope A} {r : Except Errno γ} (hs : s.site.marker = true)
    (hans : Answer (scope actions) Fault (.permit c) s r s') : s'.site.marker = true := by
  cases hans with
  | effect hexec => rw [exec_marker (exec_permit hexec).1, hs]
  | refusal | fault => exact hs

/-- **What the action does, and nothing else**: what the calls of the scope keep holds when the action begins, what it
leaves is kept, and what it ends with holds if the scope returns. -/
theorem meets_inPermit {E : List (Entry (PermitOp Act) Errno) → Scope A → Prop} {rooted guarded : Bool}
    {action : Script Act Errno ξ α} (hIE : ∀ h s, I h s → E h s)
    (hO : ∀ {γ : Type} (h : List (Entry (PermitOp Act) Errno)) (c : PermitCall γ) (s : Scope A), E h s → O h (.permit c) s)
    (hI : KeptAround actions Fault I) (hE : KeptAround actions Fault E) (hJ : ∀ a, KeptAround actions Fault (J a))
    (haction : ∀ h s, I h s → s.site.marker = true → Prog.Meets (scope actions) Fault O (action.run.mapOp .act)
      (fun h' r s' => E h' s' ∧ ∀ a, r = .ok a → J a h' s') h s) (hs : I h s) :
    Script.Meets (scope actions) Fault O (withWriterStartPermit rooted guarded action)
      (fun h' r s' => E h' s' ∧ ∀ a, r = .ok a → J a h' s') h s := by
  have hmarked : KeptAround actions Fault fun h s => I h s ∧ s.site.marker = true :=
    fun _ _ _ _ _ _ hs hans => ⟨hI _ _ _ _ _ _ hs.1 hans, answer_marker hs.2 hans⟩
  have hfails : ∀ (h' : List (Entry (PermitOp Act) Errno)) (e : PermitThrown ξ) (s' : Scope A), I h' s' →
      E h' s' ∧ ∀ a, (.error e : Except (PermitThrown ξ) α) = .ok a → J a h' s' := fun h' _ s' hs' => ⟨hIE h' s' hs', nofun⟩
  apply Script.meets_bind (meets_scopeOnly (fun h c s hs => hO h c s (hIE h s hs)) hI scopeOnly_require hs) ?_ hfails
  intro h₁ _ s₁ hs₁
  apply Script.meets_bind (meets_scopeOnly (fun h c s hs => hO h c s (hIE h s hs)) hI scopeOnly_require hs₁) ?_ hfails
  intro h₂ _ s₂ hs₂
  apply Script.meets_bind (P := fun h' r s' => I h' s' ∧ ∀ u : Unit, r = .ok u → s'.site.marker = true)
  · apply Script.meets_answer (hO _ _ _ (hIE _ _ hs₂))
    · intro _ s₃ hexec
      have hmarker : s₂.site.marker = true := by
        have hverified := (exec_permit hexec).1
        by_contra hmarker
        simp [PermitSite.exec, hmarker] at hverified
      have hs₃ := hmarked _ _ _ _ _ _ ⟨hs₂, hmarker⟩ (.effect hexec)
      exact ⟨hs₃.1, fun _ _ => hs₃.2⟩
    · exact fun e hrefused => ⟨hI _ _ _ _ _ _ hs₂ (.refusal hrefused), nofun⟩
    · exact fun e hfault => ⟨hI _ _ _ _ _ _ hs₂ (.fault hfault), nofun⟩
  · rintro h₃ _ s₃ ⟨hs₃, hmarker⟩
    have hO' : ∀ {γ : Type} (h : List (Entry (PermitOp Act) Errno)) (c : PermitCall γ) (s : Scope A),
        I h s ∧ s.site.marker = true → O h (.permit c) s := fun h c s hs => hO h c s (hIE h s hs.1)
    apply Script.meets_bind (meets_scopeOnly hO' hmarked scopeOnly_preparedDirectory ⟨hs₃, hmarker _ rfl⟩) ?_
      fun h' e s' hs' => hfails h' e s' hs'.1
    intro h₄ _ s₄ hs₄
    apply Script.meets_bind (meets_scopeOnly hO' hmarked scopeOnly_createdPermit hs₄) ?_ fun h' e s' hs' => hfails h' e s' hs'.1
    intro h₅ _ s₅ hs₅
    apply Script.meets_bind (meets_scopeOnly hO' hmarked scopeOnly_settledPermit hs₅) ?_ fun h' e s' hs' => hfails h' e s' hs'.1
    intro h₆ _ s₆ hs₆
    apply Script.meets_bind (P := fun h' q s' => ∃ r : Except ξ α, q = .ok (r.mapError .action) ∧ E h' s' ∧
      ∀ a, r = .ok a → J a h' s')
    · refine Prog.meets_bind (Prog.meets_mono ?_ (haction h₆ s₆ hs₆.1 hs₆.2))
      exact fun h' r s' hs' => ⟨r, rfl, hs'⟩
    · rintro h₇ _ s₇ ⟨r, hr, hs₇⟩
      obtain rfl := Except.ok.inj hr
      -- the result of the action is not lost in the cleanup
      have hends : KeptAround actions Fault fun h' s' => E h' s' ∧ ∀ a, r = .ok a → J a h' s' :=
        fun _ _ _ _ _ _ hs' hans => ⟨hE _ _ _ _ _ _ hs'.1 hans, fun a ha => hJ a _ _ _ _ _ _ (hs'.2 a ha) hans⟩
      apply Script.meets_bind (Script.meets_attempt (meets_scopeOnly (fun h c s hs => hO h c s hs.1) hends
        scopeOnly_removePermit hs₇) (Q := fun h' _ s' => E h' s' ∧ ∀ a, r = .ok a → J a h' s')) ?_
        fun _ _ _ hs' => ⟨hs'.1, nofun⟩
      intro h₈ cleaned s₈ hs₈
      rcases r with e | a <;> rcases cleaned with c | c
      · exact ⟨hs₈.1, nofun⟩
      · exact ⟨hs₈.1, nofun⟩
      · exact ⟨hs₈.1, nofun⟩
      · exact ⟨hs₈.1, fun b hb => hs₈.2 b (congrArg Except.ok (Except.ok.inj hb))⟩
    · rintro h' e s' ⟨r, hr, -⟩
      cases hr
  · exact fun h' e s' hs' => hfails h' e s' hs'.1

end Invariant

/-! ### A scope that is not interrupted -/

theorem eval_acts {γ : Type} (p : Prog Act Errno γ) :
    (p.mapOp .act).eval (scope actions) s = ((p.eval actions s.rest).1, { s with rest := (p.eval actions s.rest).2 }) := by
  induction p generalizing s with
  | done a => rfl
  | call op k ih =>
    change Prog.eval (scope actions) (.call (.act op) fun r => (k r).mapOp .act) s = _
    cases hexec : actions.exec op s.rest with
    | error e =>
      have hact : (scope actions).exec (.act op) s = .error e := by simp [scope, hexec, Except.map]
      rw [Prog.eval, Prog.eval, hact, hexec]
      exact ih _
    | ok r =>
      have hact : (scope actions).exec (.act op) s = .ok (r.1, { s with rest := r.2 }) := by
        simp [scope, hexec, Except.map]
      rw [Prog.eval, Prog.eval, hact, hexec]
      exact ih _

/-- The site is as a scope needs it. -/
structure PermitSite.Fit (s : PermitSite) : Prop where
  marker : s.marker = true
  parentReal : s.parentReal = true
  parentTrusted : s.parentTrusted = true
  directory : s.directory ≠ some false
  permit : s.permit = none

/-- The site after a scope. -/
def PermitSite.used (s : PermitSite) : PermitSite := { s with directory := some true, permit := none }

theorem PermitSite.Fit.used (hs : s.site.Fit) : s.site.used.Fit :=
  ⟨hs.marker, hs.parentReal, hs.parentTrusted, nofun, rfl⟩

theorem total_call {c : PermitCall β} {b : β} {t : PermitSite} {Q : β → Scope A → Prop} (hexec : s.site.exec c = .ok (b, t))
    (hQ : Q b { s with site := t }) : Script.Total (scope actions) (call c : PermitScript Act ξ β) Q s := by
  refine Script.total_perform ?_ hQ
  change (s.site.exec c).map _ = _
  rw [hexec]
  rfl

theorem total_syncDirectory {throws : Errno → PermitThrown ξ} {Q : Unit → Scope A → Prop} (hQ : Q () s) :
    Script.Total (scope actions) (syncDirectory throws : PermitScript Act ξ Unit) Q s := by
  apply Script.total_bind
  apply Script.total_perform rfl
  apply Script.total_finally
  exact Script.total_perform rfl (Script.total_perform rfl hQ)

theorem total_preparedDirectory {Q : Unit → Scope A → Prop} (hs : s.site.Fit)
    (hQ : Q () { s with site := s.site.used }) :
    Script.Total (scope actions) (preparedDirectory : PermitScript Act ξ Unit) Q s := by
  obtain ⟨⟨marker, parentReal, parentTrusted, directory, permit⟩, rest⟩ := s
  obtain ⟨rfl, rfl, rfl, hdirectory, rfl⟩ := hs
  apply Script.total_bind
  apply total_call rfl
  apply Script.total_bind
  apply total_call rfl
  apply Script.total_bind
  apply Script.total_pure
  have hchecked : Script.Total (scope actions) (do
      let isPrivate ← call .statDirectory
      let real ← askedIf isPrivate .realpathDirectory
      require real "Untrusted writer permit directory" : PermitScript Act ξ Unit) Q
      ⟨⟨true, true, true, some true, none⟩, rest⟩ := by
    apply Script.total_bind
    apply total_call rfl
    apply Script.total_bind
    apply total_call rfl
    exact Script.total_pure hQ
  apply Script.total_bind
  rcases directory with _ | _ | _
  · apply Script.total_tryCatch
    apply total_call rfl
    exact hchecked
  · exact absurd rfl hdirectory
  · -- the directory is there already
    refine Script.total_caught (e := .plain .EEXIST) (t := ⟨⟨true, true, true, some true, none⟩, rest⟩) rfl ?_
    exact Script.total_pure hchecked

theorem total_withWriterStartPermit {action : Script Act Errno ξ α} {Q : α → Scope A → Prop} (hs : s.site.Fit)
    (haction : Script.Total actions action (fun a t => Q a ⟨s.site.used, t⟩) s.rest) :
    Script.Total (scope actions) (withWriterStartPermit true true action) Q s := by
  apply Script.total_bind
  apply Script.total_pure
  apply Script.total_bind
  apply Script.total_pure
  apply Script.total_bind
  have hverified : s.site.exec .verifyMarker = .ok ((), s.site) := by simp [PermitSite.exec, hs.marker]
  apply total_call hverified
  apply Script.total_bind
  apply total_preparedDirectory hs
  apply Script.total_bind
  apply Script.total_bind
  apply total_call rfl
  apply Script.total_finally
  apply Script.total_bind
  apply total_call rfl
  apply total_call rfl
  apply total_call rfl
  apply Script.total_bind
  apply Script.total_tryCatch
  apply total_syncDirectory
  obtain ⟨a, t, haction, hQ⟩ := haction
  apply Script.total_bind
  refine ⟨.ok a, ⟨s.site.used.withPermit (some ⟨permitText, true⟩), t⟩, ?_, ?_⟩
  · change ((action.run.mapOp .act).bind _).eval (scope actions) _ = _
    rw [Prog.eval_bind, eval_acts, haction]
    rfl
  · apply Script.total_bind
    apply Script.total_attempt
    apply Script.total_bind
    apply Script.total_perform rfl
    apply total_syncDirectory
    exact Script.total_pure hQ

end Scope

/-! ## A scope reports what fails -/

section Careful

variable {ξ α β : Type} {Act : Type → Type} {Fault : Errno → Prop}

theorem careful_require {holds : Bool} {message : String} :
    Script.Careful Fault (require holds message : PermitScript Act ξ Unit) := by
  cases holds with
  | true => exact Script.careful_pure
  | false => exact Script.careful_throw

theorem careful_askedIf {holds : Bool} {c : PermitCall Bool} :
    Script.Careful Fault (askedIf holds c : PermitScript Act ξ Bool) := by
  cases holds with
  | true => exact Script.careful_perform
  | false => exact Script.careful_pure

theorem careful_syncDirectory {throws : Errno → PermitThrown ξ} :
    Script.Careful Fault (syncDirectory throws : PermitScript Act ξ Unit) := by
  apply Script.careful_bind Script.careful_perform
  exact fun _ => Script.careful_finally Script.careful_perform Script.careful_perform

theorem careful_removePermit : Script.Careful Fault (removePermit : PermitScript Act ξ Unit) :=
  Script.careful_bind Script.careful_perform fun _ => careful_syncDirectory

theorem careful_preparedDirectory (hexists : ¬Fault .EEXIST) :
    Script.Careful Fault (preparedDirectory : PermitScript Act ξ Unit) := by
  apply Script.careful_bind Script.careful_perform
  intro trusted
  apply Script.careful_bind careful_askedIf
  intro real
  apply Script.careful_bind careful_require
  intro _
  apply Script.careful_bind
  · -- only that the directory is there already is caught
    refine ⟨?_, ?_⟩
    · rintro (e | u)
      · cases e <;> trivial
      · trivial
    · intro e he
      cases e with
      | EEXIST => exact absurd he hexists
      | _ => exact id
  · intro _
    apply Script.careful_bind Script.careful_perform
    intro isPrivate
    apply Script.careful_bind careful_askedIf
    exact fun _ => careful_require

theorem careful_createdPermit : Script.Careful Fault (createdPermit : PermitScript Act ξ Unit) := by
  apply Script.careful_bind Script.careful_perform
  intro _
  apply Script.careful_finally
  · exact Script.careful_bind Script.careful_perform fun _ => Script.careful_perform
  · exact Script.careful_perform

theorem careful_settledPermit : Script.Careful Fault (settledPermit : PermitScript Act ξ Unit) := by
  apply Script.careful_tryCatch careful_syncDirectory
  exact fun e => Script.throws_bind fun _ => Script.throws_throw

/-- **A scope throws where a call of it or of its action fails.** -/
theorem careful_withWriterStartPermit {rooted guarded : Bool} {action : Script Act Errno ξ α}
    (hexists : ¬Fault .EEXIST) (haction : Script.Careful Fault action) :
    Script.Careful Fault (withWriterStartPermit rooted guarded action) := by
  apply Script.careful_bind careful_require
  intro _
  apply Script.careful_bind careful_require
  intro _
  apply Script.careful_bind Script.careful_perform
  intro _
  apply Script.careful_bind (careful_preparedDirectory hexists)
  intro _
  apply Script.careful_bind careful_createdPermit
  intro _
  apply Script.careful_bind careful_settledPermit
  intro _
  -- what the action throws is a value, until the permit is removed
  have hacting : (acting action).run.Careful Fault fun x : Except (PermitThrown ξ) (Except (PermitThrown ξ) α) =>
      ∃ a, x = .ok (.ok a) := by
    apply Prog.Careful.bind (Prog.careful_mapOp haction)
    · exact fun _ => trivial
    · rintro (e | a) ha
      · rintro ⟨a, h⟩
        cases h
      · exact absurd trivial ha
  apply Prog.Careful.bind hacting
  · rintro (e | result)
    · trivial
    · have hcleaned : (removePermit.attempt : PermitScript Act ξ (Except (PermitThrown ξ) Unit)).run.Careful Fault fun x =>
          ∃ u, x = .ok (.ok u) := by
        apply Prog.Careful.bind careful_removePermit
        · exact fun _ => trivial
        · rintro (e | u) hu
          · rintro ⟨u, h⟩
            cases h
          · exact absurd trivial hu
      apply Prog.Careful.bind hcleaned
      · rintro (e | cleaned)
        · trivial
        · rcases result with e | a <;> rcases cleaned with e' | u <;> trivial
      · rintro (e | cleaned) hbad
        · exact id
        · rcases cleaned with e' | u
          · rcases result with e | a <;> exact id
          · exact absurd ⟨u, rfl⟩ hbad
  · rintro (e | result) hbad
    · exact id
    · rcases result with e | a
      · apply Prog.never_bind
        rintro (e' | cleaned)
        · exact id
        · rcases cleaned with e' | u <;> exact id
      · exact absurd ⟨a, rfl⟩ hbad

end Careful

/-! ## Runs that are computed -/

/-- An action that starts units. -/
inductive StartCall : Type → Type
  | start (unit : String) : StartCall Unit

def starts : Backend StartCall Errno (List String) where
  exec
    | .start unit, units => .ok ((), units ++ [unit])

def sampleAction : Script StartCall Errno Unit Unit := .perform (fun _ => ()) (.start "dp-beget-agent.service")

def sampleScope : Scope (List String) := ⟨⟨true, true, true, none, none⟩, []⟩

/-- A run in which some calls fail. -/
def samplePermit (plan : List (Option Errno)) :
    List (Entry (PermitOp StartCall) Errno) × Except (PermitThrown Unit) Unit × Scope (List String) :=
  (withWriterStartPermit true true sampleAction).run.planned (scope starts) plan sampleScope

theorem samplePermit_runs (plan : List (Option Errno)) :
    Runs (scope starts) (fun _ => True) (withWriterStartPermit true true sampleAction).run sampleScope
      (samplePermit plan).1 (samplePermit plan).2.1 (samplePermit plan).2.2 :=
  Prog.planned_runs (fun _ => trivial) _ plan sampleScope

/-- Where nothing fails, the unit was started and the permit is gone. -/
example : (samplePermit []).2.2.site.permit = none ∧ (samplePermit []).2.2.rest = ["dp-beget-agent.service"] := by
  decide +kernel

theorem permit_scoped_iff_sample :
    Scoped starts (fun _ => True) (withWriterStartPermit true true sampleAction) sampleScope (samplePermit []).1
      (samplePermit []).2.1 (samplePermit []).2.2 := by
  refine (permit_scoped_iff (samplePermit_runs [])).mpr ⟨rfl, ?_⟩
  have hall : (samplePermit []).1.all (fun x => !spoils x) = true := by decide +kernel
  simpa [Unspoiled] using hall

/-- **The permit stays** where it cannot be written, and nothing is reported of it. -/
theorem permit_outlives : ¬∀ tr r s', Runs (scope starts) (fun _ => True)
    (withWriterStartPermit true true sampleAction).run sampleScope tr r s' → EndsAbsent r s' := by
  intro habsent
  -- the disk is full when the permit is written
  let plan := List.replicate 7 none ++ [some Errno.other]
  have hthrown : (samplePermit plan).2.1 = .error (.plain .other) := by decide +kernel
  have hpermit : (samplePermit plan).2.2.site.permit = some ⟨"", false⟩ := by decide +kernel
  have hgone := habsent _ _ _ (samplePermit_runs plan) fun e he => by
    rw [hthrown] at he
    rw [← Except.error.inj he]
    rfl
  rw [hpermit] at hgone
  cases hgone

end BegetBridge.WriterPermit
