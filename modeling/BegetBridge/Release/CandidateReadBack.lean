import BegetBridge.Release.CandidateReading

/-!
# A candidate is read back

What a candidate is rendered for is what is read of its files, if these hold at most sixteen kibibytes each. The length
of a release root is not checked when the units are rendered.

## Main definitions

* `Request`: all that a candidate is rendered for
* `Request.Good`: the names are accepted, the domain is in normal form, and the files are rendered

## Main results

* `plan_spec`, `authorization_spec`: what is read of a staged candidate
* `candidate_injective`: different requests are rendered differently
* `candidate_read_back`: a candidate is read back exactly if its files are small enough
-/

namespace BegetBridge.InstallCandidate

open Core Posix
open Journal (normalized)
open CleanInstallJournal (IdentityPlan accountName)

/-! ## A candidate -/

/-- All that a candidate is rendered for. -/
structure Request where
  selection : Selection
  domain : Text
  authorization : Authorization
  deriving DecidableEq

namespace Request

def settings (r : Request) : Settings :=
  { r.authorization with domain := r.domain, allowedRoot := r.selection.allowedRoot }

/-- What is read of the units and the domain. -/
def plan (r : Request) : IdentityPlan :=
  ⟨String.ofList r.selection.agentUser, String.ofList r.selection.allowedRoot, String.ofList r.domain,
    String.ofList r.selection.ipcGroup, String.ofList r.selection.mcpUser, String.ofList r.selection.releaseRoot,
    String.ofList r.selection.workGroup, String.ofList r.selection.workUser⟩

end Request

/-- The files may be staged. -/
def Candidate.Fits (c : Candidate) : Prop := ∀ file ∈ c.files, byteLength file.2 ≤ 16 * 1024

/-- The names that the host accepts. -/
structure Selection.Named (s : Selection) : Prop where
  accounts : ∀ name ∈ [s.workUser, s.workGroup, s.agentUser, s.mcpUser, s.ipcGroup], accountName (String.ofList name) = true
  users : [s.workUser, s.agentUser, s.mcpUser].Nodup
  groups : [s.workGroup, s.agentUser, s.mcpUser, s.ipcGroup].Nodup

theorem named_of_inspect {host : Host} {s : Selection} (h : inspectCleanInstallIdentities host s = .ok ()) : s.Named := by
  simp only [inspectCleanInstallIdentities, identityName, bind_ok, check_ok, exists_const] at h
  obtain ⟨hwork, hgroup, hagent, hmcp, hipc, hdistinct, -⟩ := h
  rw [Bool.and_eq_true, decide_eq_true_eq, decide_eq_true_eq] at hdistinct
  refine ⟨?_, hdistinct.1, hdistinct.2⟩
  simp only [List.forall_mem_cons, List.not_mem_nil, false_implies, implies_true, and_true]
  exact ⟨hwork, hgroup, hagent, hmcp, hipc⟩

theorem ne_nil_of_account {name : Text} (h : accountName (String.ofList name) = true) : name ≠ [] := by
  rintro rfl
  exact absurd h (by decide)

section Staged

variable {δ : Type} {digest : Text → δ} {c : Candidate} {w : Workspace δ}

theorem byteLength_pos {text : Text} (h : text ≠ []) : 1 ≤ byteLength text := by
  obtain ⟨first, rest, rfl⟩ := List.exists_cons_of_ne_nil h
  have hfirst := first.utf8Size_pos
  rw [byteLength, List.map_cons, List.sum_cons]
  omega

/-- The candidate is staged if its files are small enough. -/
theorem stagedFiles_ok (hne : ∀ file ∈ c.files, file.2 ≠ []) (hfits : c.Fits) :
    stagedFiles digest c = .ok (c.files.map fun file => ⟨file.1, byteLength file.2, digest file.2⟩) := by
  have hfile : ∀ file ∈ c.files, stagedFile digest file = .ok ⟨file.1, byteLength file.2, digest file.2⟩ := by
    intro file hmem
    simp only [stagedFile, bind_ok, check_ok, pure_ok, exists_const, and_true, Bool.and_eq_true, decide_eq_true_eq]
    exact ⟨byteLength_pos (hne file hmem), hfits file hmem⟩
  have hall : ∀ files : List (String × Text), (∀ file ∈ files, file ∈ c.files) →
      files.mapM (stagedFile digest) = .ok (files.map fun file => ⟨file.1, byteLength file.2, digest file.2⟩) := by
    intro files hfiles
    induction files with
    | nil => rfl
    | cons file files ih =>
      rw [List.mapM_cons, hfile file (hfiles file List.mem_cons_self),
        ih fun f hf => hfiles f (List.mem_cons_of_mem _ hf)]
      rfl
  exact hall c.files fun _ h => h

theorem fits_of_staged {records : List (FileRecord δ)} (h : stagedFiles digest c = .ok records) : c.Fits := by
  have hall : ∀ (files : List (String × Text)) (records : List (FileRecord δ)),
      files.mapM (stagedFile digest) = .ok records → ∀ file ∈ files, byteLength file.2 ≤ 16 * 1024 := by
    intro files
    induction files with
    | nil => exact fun _ _ file hfile => absurd hfile List.not_mem_nil
    | cons first files ih =>
      intro records h
      rw [List.mapM_cons] at h
      simp only [bind_ok, pure_ok] at h
      obtain ⟨a, hfirst, rest, hrest, -⟩ := h
      simp only [stagedFile, bind_ok, check_ok, pure_ok, exists_const, Bool.and_eq_true, decide_eq_true_eq] at hfirst
      exact List.forall_mem_cons.mpr ⟨hfirst.1.2, ih rest hrest⟩
  exact hall c.files records h

theorem verify_ok [DecidableEq δ] (h : stagedFiles digest w.candidate = .ok w.record) : verifyCleanInstallManifest digest w = .ok () := by
  simp only [verifyCleanInstallManifest, h, bind_ok, check_ok, Except.ok.injEq, exists_eq_left', beq_self_eq_true]

theorem read_ok {content : Text} (h : byteLength content ≤ 16 * 1024) :
    readRegularFile content (16 * 1024) = .ok content := by
  simp only [readRegularFile, bind_ok, check_ok, pure_ok, exists_const, and_true, decide_eq_true_eq]
  exact h

theorem someTrue_false {tests : List (Except String Bool)} (h : ∀ test ∈ tests, test = .ok false) :
    someTrue tests = .ok false := by
  induction tests with
  | nil => rfl
  | cons test tests ih =>
    rw [someTrue, h test List.mem_cons_self]
    exact ih fun t ht => h t (List.mem_cons_of_mem _ ht)

theorem differs_false {content v : Text} {key : String} (h : singleLine content key = .ok v) :
    differs content key v = .ok false := by
  simp only [differs, h, bind_ok, pure_ok, Except.ok.injEq, exists_eq_left', bne_self_eq_false]

end Staged

/-! ### What is read of it -/

/-- The candidate of a request, when it is rendered. -/
def Request.candidate (r : Request) : Candidate :=
  ⟨fun unit => fileText (unitLines r.selection unit), fun file => fileText (settingLines (configEntries r.settings r.domain file))⟩

/-- A request whose names the host accepts, whose domain is in normal form and whose files are rendered. -/
structure Request.Good (r : Request) : Prop where
  named : r.selection.Named
  selection : r.selection.Allowed
  settings : r.settings.Allowed
  normal : r.domain.map Char.toLower = r.domain

section Reading

variable {r : Request}

theorem good_of_rendered {host : Host} {units : UnitFile → Text} {config : ConfigFile → Text}
    (hidentities : inspectCleanInstallIdentities host r.selection = .ok ()) (hdomain : validateHostname r.domain = .ok r.domain)
    (hunits : renderCleanInstallUnits signedTemplates r.selection = .ok units)
    (hconfig : renderCleanInstallConfig r.settings = .ok config) : r.Good ∧ (⟨units, config⟩ : Candidate) = r.candidate := by
  obtain ⟨hselection, rfl⟩ := renderUnits_spec.mp hunits
  obtain ⟨hsettings, rfl⟩ := renderConfig_spec.mp hconfig
  have hnormal : r.domain.map Char.toLower = r.domain := by
    simp only [validateHostname, bind_ok, check_ok, pure_ok, exists_const] at hdomain
    exact hdomain.2
  refine ⟨⟨named_of_inspect hidentities, hselection, hsettings, hnormal⟩, ?_⟩
  have hsame : r.settings.domain = r.domain := rfl
  simp only [Request.candidate, hsame, hnormal]

namespace Request.Good

theorem newline_not_mem_domain (h : r.Good) : '\n' ∉ r.domain := by
  have hhostname := h.settings.hostname
  unfold hostname at hhostname
  simp only [Bool.and_eq_true, List.all_eq_true] at hhostname
  exact fun hmem => absurd (hhostname.1.2 _ hmem) (by decide)

theorem unit_line (h : r.Good) {unit : UnitFile} {key : String} {v : Text} (hkey : '=' ∉ key.toList)
    (hvalue : valuesOf key (unitLines r.selection unit) = [v]) (hne : v ≠ []) :
    singleLine (r.candidate.units unit) key = .ok v :=
  singleLine_fileText (unitLines_proper h.selection.clean) hkey hvalue hne

theorem config_line (h : r.Good) {file : ConfigFile} {key : String} {v : Text} (hkey : '=' ∉ key.toList)
    (hvalue : valuesOf key (settingLines (configEntries r.settings r.domain file)) = [v]) (hne : v ≠ []) :
    singleLine (r.candidate.config file) key = .ok v :=
  singleLine_fileText (settings_proper (configEntries_written h.settings h.newline_not_mem_domain)) hkey hvalue hne

end Request.Good

theorem values_config {c : Settings} {d : Text} :
    valuesOf "DP_ALLOWED_ROOTS" (settingLines (configEntries c d .sessionHost)) = [c.allowedRoot] ∧
      valuesOf "DP_ALLOWED_ROOTS" (settingLines (configEntries c d .agent)) = [c.allowedRoot] ∧
      valuesOf "DP_PUBLIC_URL" (settingLines (configEntries c d .mcp)) = ["https://".toList ++ d] := by
  refine ⟨rfl, ?_, ?_⟩
  · simp only [configEntries, agentAuthorization]
    split <;> rfl
  · simp only [configEntries, mcpAuthorization]
    split <;> rfl

theorem pathText_ne_nil {value : Text} (h : pathText value = true) : value ≠ [] := by
  rintro rfl
  exact absurd h (by decide +kernel)

theorem allowedRoot_ne_nil (h : r.Good) (before : Text) : before ++ r.selection.allowedRoot ≠ [] :=
  List.append_ne_nil_of_right_ne_nil _ (pathText_ne_nil h.selection.allowedRoot)

theorem link_ne_nil (h : r.Good) : r.selection.releaseRoot ++ "/current".toList ≠ [] :=
  List.append_ne_nil_of_left_ne_nil (pathText_ne_nil h.selection.releaseRoot) _

theorem name_ne_nil (h : r.Good) {name : Text} (hname : name ∈ [r.selection.workUser, r.selection.workGroup,
    r.selection.agentUser, r.selection.mcpUser, r.selection.ipcGroup]) : name ≠ [] :=
  ne_nil_of_account (h.named.accounts name hname)

/-- The keys that are looked for. -/
theorem equals_not_mem_key {key : String} (h : key ∈ ["User", "Group", "SupplementaryGroups", "KillMode",
    "WorkingDirectory", "ReadWritePaths", "DP_ALLOWED_ROOTS", "DP_PUBLIC_URL"]) : '=' ∉ key.toList := by
  have hall : ∀ key ∈ ["User", "Group", "SupplementaryGroups", "KillMode", "WorkingDirectory", "ReadWritePaths",
      "DP_ALLOWED_ROOTS", "DP_PUBLIC_URL"], '=' ∉ key.toList := by
    repeat' refine List.forall_mem_cons.mpr ⟨?_, ?_⟩
    all_goals
      first
      | exact fun _ hmem => absurd hmem List.not_mem_nil
      | rw [String.toList_ofList]
        decide
  exact hall key h

theorem session_lines (h : r.Good) :
    singleLine (r.candidate.units .sessionHost) "User" = .ok r.selection.workUser ∧
      singleLine (r.candidate.units .sessionHost) "Group" = .ok r.selection.ipcGroup ∧
      singleLine (r.candidate.units .sessionHost) "SupplementaryGroups" = .ok r.selection.workGroup ∧
      singleLine (r.candidate.units .sessionHost) "KillMode" = .ok "process".toList ∧
      singleLine (r.candidate.units .sessionHost) "WorkingDirectory" =
        .ok (r.selection.releaseRoot ++ "/current".toList) ∧
      singleLine (r.candidate.units .sessionHost) "ReadWritePaths" =
        .ok ("/var/lib/dp-beget-bridge ".toList ++ r.selection.allowedRoot) := by
  obtain ⟨h₁, h₂, h₃, h₄, h₅, h₆⟩ := values_sessionHost (s := r.selection)
  have hprocess : "process".toList ≠ [] := by decide
  exact ⟨h.unit_line (equals_not_mem_key (by simp)) h₁ (name_ne_nil h (by simp)),
    h.unit_line (equals_not_mem_key (by simp)) h₂ (name_ne_nil h (by simp)),
    h.unit_line (equals_not_mem_key (by simp)) h₃ (name_ne_nil h (by simp)),
    h.unit_line (equals_not_mem_key (by simp)) h₄ hprocess,
    h.unit_line (equals_not_mem_key (by simp)) h₅ (link_ne_nil h),
    h.unit_line (equals_not_mem_key (by simp)) h₆ (allowedRoot_ne_nil h _)⟩

theorem agent_lines (h : r.Good) :
    singleLine (r.candidate.units .agent) "User" = .ok r.selection.agentUser ∧
      singleLine (r.candidate.units .agent) "Group" = .ok r.selection.agentUser ∧
      singleLine (r.candidate.units .agent) "SupplementaryGroups" = .ok r.selection.ipcGroup ∧
      singleLine (r.candidate.units .agent) "WorkingDirectory" = .ok (r.selection.releaseRoot ++ "/current".toList) ∧
      singleLine (r.candidate.units .agent) "ReadWritePaths" =
        .ok ("/var/lib/dp-beget-bridge-agent ".toList ++ r.selection.allowedRoot) := by
  obtain ⟨h₁, h₂, h₃, h₄, h₅⟩ := values_agent (s := r.selection)
  exact ⟨h.unit_line (equals_not_mem_key (by simp)) h₁ (name_ne_nil h (by simp)),
    h.unit_line (equals_not_mem_key (by simp)) h₂ (name_ne_nil h (by simp)),
    h.unit_line (equals_not_mem_key (by simp)) h₃ (name_ne_nil h (by simp)),
    h.unit_line (equals_not_mem_key (by simp)) h₄ (link_ne_nil h),
    h.unit_line (equals_not_mem_key (by simp)) h₅ (allowedRoot_ne_nil h _)⟩

theorem mcp_lines (h : r.Good) :
    singleLine (r.candidate.units .mcp) "User" = .ok r.selection.mcpUser ∧
      singleLine (r.candidate.units .mcp) "Group" = .ok r.selection.mcpUser ∧
      singleLine (r.candidate.units .mcp) "WorkingDirectory" = .ok (r.selection.releaseRoot ++ "/current".toList) := by
  obtain ⟨h₁, h₂, h₃⟩ := values_mcp (s := r.selection)
  exact ⟨h.unit_line (equals_not_mem_key (by simp)) h₁ (name_ne_nil h (by simp)),
    h.unit_line (equals_not_mem_key (by simp)) h₂ (name_ne_nil h (by simp)),
    h.unit_line (equals_not_mem_key (by simp)) h₃ (link_ne_nil h)⟩

theorem config_lines (h : r.Good) :
    singleLine (r.candidate.config .sessionHost) "DP_ALLOWED_ROOTS" = .ok r.selection.allowedRoot ∧
      singleLine (r.candidate.config .agent) "DP_ALLOWED_ROOTS" = .ok r.selection.allowedRoot ∧
      singleLine (r.candidate.config .mcp) "DP_PUBLIC_URL" = .ok ("https://".toList ++ r.domain) := by
  obtain ⟨h₁, h₂, h₃⟩ := values_config (c := r.settings) (d := r.domain)
  have hroot := pathText_ne_nil h.selection.allowedRoot
  have hurl : "https://".toList ++ r.domain ≠ [] := List.append_ne_nil_of_left_ne_nil (by decide) _
  exact ⟨h.config_line (equals_not_mem_key (by simp)) h₁ hroot, h.config_line (equals_not_mem_key (by simp)) h₂ hroot,
    h.config_line (equals_not_mem_key (by simp)) h₃ hurl⟩

/-- The groups of the units agree. -/
theorem identities_agree (h : r.Good) :
    someTrue [differs (r.candidate.units .agent) "Group" r.selection.agentUser,
      differs (r.candidate.units .mcp) "Group" r.selection.mcpUser,
      differs (r.candidate.units .agent) "SupplementaryGroups" r.selection.ipcGroup,
      differs (r.candidate.units .sessionHost) "KillMode" "process".toList,
      pure (decide ¬ [r.selection.workUser, r.selection.agentUser, r.selection.mcpUser].Nodup),
      pure (decide ¬ [r.selection.workGroup, r.selection.agentUser, r.selection.mcpUser,
        r.selection.ipcGroup].Nodup)] = .ok false := by
  refine someTrue_false ?_
  simp only [List.forall_mem_cons, List.not_mem_nil, false_implies, implies_true, and_true]
  exact ⟨differs_false (agent_lines h).2.1, differs_false (mcp_lines h).2.1, differs_false (agent_lines h).2.2.1,
    differs_false (session_lines h).2.2.2.1, congrArg Except.ok (decide_eq_false (not_not_intro h.named.users)),
    congrArg Except.ok (decide_eq_false (not_not_intro h.named.groups))⟩

/-- The work directories agree. -/
theorem roots_agree (h : r.Good) :
    someTrue [differs (r.candidate.config .agent) "DP_ALLOWED_ROOTS" r.selection.allowedRoot,
      differs (r.candidate.units .sessionHost) "ReadWritePaths"
        ("/var/lib/dp-beget-bridge ".toList ++ r.selection.allowedRoot),
      differs (r.candidate.units .agent) "ReadWritePaths"
        ("/var/lib/dp-beget-bridge-agent ".toList ++ r.selection.allowedRoot)] = .ok false := by
  refine someTrue_false ?_
  simp only [List.forall_mem_cons, List.not_mem_nil, false_implies, implies_true, and_true]
  exact ⟨differs_false (config_lines h).2.1, differs_false (session_lines h).2.2.2.2.2,
    differs_false (agent_lines h).2.2.2.2⟩

/-- The working directories agree. -/
theorem directories_agree (h : r.Good) :
    someTrue [differs (r.candidate.units .agent) "WorkingDirectory" (r.selection.releaseRoot ++ "/current".toList),
      differs (r.candidate.units .mcp) "WorkingDirectory" (r.selection.releaseRoot ++ "/current".toList)] = .ok false := by
  refine someTrue_false ?_
  simp only [List.forall_mem_cons, List.not_mem_nil, false_implies, implies_true, and_true]
  exact ⟨differs_false (agent_lines h).2.2.2.1, differs_false (mcp_lines h).2.2⟩

theorem identity_ok (h : r.Good) {name : Text} (hname : name ∈ [r.selection.workUser, r.selection.workGroup,
    r.selection.agentUser, r.selection.mcpUser, r.selection.ipcGroup]) : identity name = .ok name := by
  simp only [identity, bind_ok, check_ok, pure_ok, exists_const, and_true]
  exact h.named.accounts name hname

theorem stagedPath_ok {path : Text} (h : pathText path = true) : stagedPath path = .ok path := by
  simp only [stagedPath, checkedPath, bind_ok, check_ok, pure_ok, exists_const, and_true]
  exact h

theorem validateHostname_ok (h : r.Good) : validateHostname r.domain = .ok r.domain := by
  simp only [validateHostname, bind_ok, check_ok, pure_ok, exists_const]
  exact ⟨h.settings.hostname, h.normal⟩

theorem ok_bind {ε α β : Type} {a : α} {f : α → Except ε β} : (Except.ok a >>= f) = f a := rfl

theorem check_true {message : String} : check true message = .ok () := rfl

variable {δ : Type} [DecidableEq δ] {digest : Text → δ} {w : Workspace δ}

theorem read_unit (hfits : r.candidate.Fits) (unit : UnitFile) :
    readRegularFile (r.candidate.units unit) (16 * 1024) = .ok (r.candidate.units unit) := by
  cases unit
  · exact read_ok (hfits ("units/dp-beget-session-host.service", _) (by simp [Candidate.files]))
  · exact read_ok (hfits ("units/dp-beget-agent.service", _) (by simp [Candidate.files]))
  · exact read_ok (hfits ("units/dp-beget-mcp.service", _) (by simp [Candidate.files]))

theorem read_config (hfits : r.candidate.Fits) (file : ConfigFile) :
    readRegularFile (r.candidate.config file) (16 * 1024) = .ok (r.candidate.config file) := by
  cases file
  · exact read_ok (hfits ("config/session-host.env", _) (by simp [Candidate.files]))
  · exact read_ok (hfits ("config/agent.env", _) (by simp [Candidate.files]))
  · exact read_ok (hfits ("config/mcp.env", _) (by simp [Candidate.files]))

/-- **The names, the paths and the domain** of a staged candidate are read back. -/
theorem plan_spec (h : r.Good) (hw : w.candidate = r.candidate) (hverify : verifyCleanInstallManifest digest w = .ok ())
    (hfits : r.candidate.Fits) : inspectCleanInstallIdentityPlan digest w = .ok r.plan := by
  obtain ⟨s₁, s₂, s₃, -, s₅, -⟩ := session_lines h
  obtain ⟨a₁, -⟩ := agent_lines h
  obtain ⟨m₁, -⟩ := mcp_lines h
  obtain ⟨c₁, -, c₃⟩ := config_lines h
  have hsuffix : "/current".toList.isSuffixOf (r.selection.releaseRoot ++ "/current".toList) = true :=
    List.isSuffixOf_iff_suffix.mpr (List.suffix_append _ _)
  have htake : (r.selection.releaseRoot ++ "/current".toList).take
      ((r.selection.releaseRoot ++ "/current".toList).length - "/current".toList.length) = r.selection.releaseRoot := by
    rw [List.length_append, Nat.add_sub_cancel, List.take_left]
  have hscheme : "https://".toList.isPrefixOf ("https://".toList ++ r.domain) = true :=
    List.isPrefixOf_iff_prefix.mpr (List.prefix_append _ _)
  have hdrop : ("https://".toList ++ r.domain).drop "https://".toList.length = r.domain := List.drop_left
  unfold inspectCleanInstallIdentityPlan
  rw [hverify, hw]
  dsimp only [ok_bind]
  -- the files, and the names
  rw [read_unit hfits, ok_bind, read_unit hfits, ok_bind, read_unit hfits, ok_bind, read_config hfits, ok_bind,
    read_config hfits, ok_bind, read_config hfits, ok_bind, s₁, ok_bind, identity_ok h (by simp), ok_bind, s₃, ok_bind,
    identity_ok h (by simp), ok_bind, s₂, ok_bind, identity_ok h (by simp), ok_bind, a₁, ok_bind,
    identity_ok h (by simp), ok_bind, m₁, ok_bind, identity_ok h (by simp), ok_bind, identities_agree h, ok_bind,
    Bool.not_false, check_true, ok_bind]
  -- the paths, and the domain
  rw [c₁, ok_bind, stagedPath_ok h.selection.allowedRoot, ok_bind, roots_agree h, ok_bind, Bool.not_false, check_true,
    ok_bind, s₅, ok_bind, hsuffix, check_true, ok_bind, htake, stagedPath_ok h.selection.releaseRoot, ok_bind,
    directories_agree h, ok_bind, Bool.not_false, check_true, ok_bind, c₃, ok_bind, hscheme, check_true, ok_bind, hdrop,
    validateHostname_ok h, ok_bind, beq_self_eq_true, check_true, ok_bind]
  rfl

/-- **The authorization** of a staged candidate is read back, as far as it is used. -/
theorem authorization_spec (h : r.Good) (hw : w.candidate = r.candidate)
    (hverify : verifyCleanInstallManifest digest w = .ok ()) (hfits : r.candidate.Fits) :
    loadCleanInstallAuthConfiguration digest w = .ok (r.settings.used, r.plan) := by
  have hfields := fields_config h.settings h.newline_not_mem_domain
  have hread := readAuthorization_config (d := r.domain) h.settings
  have hinputs : ({ readAuthorization (configEntries r.settings r.domain .agent)
        (configEntries r.settings r.domain .mcp) with
      domain := r.plan.domain.toList, allowedRoot := r.plan.allowedRoot.toList } : Settings) = r.settings.used := by
    rw [hread]
    simp only [Request.plan, String.toList_ofList]
    rfl
  have hmode : (configEntries r.settings r.domain .mcp).lookup "DP_MCP_AUTH_MODE" = some "static".toList ∨
      (configEntries r.settings r.domain .mcp).lookup "DP_MCP_AUTH_MODE" = some "oauth".toList := by
    have hmode := congrArg Authorization.authMode hread
    simp only [readAuthorization, Authorization.used] at hmode
    rw [hmode]
    split
    · exact .inr rfl
    · exact .inl rfl
  have hrendered : renderCleanInstallConfig r.settings.used = .ok r.candidate.config := by
    refine renderConfig_spec.mpr ⟨used_allowed h.settings, ?_⟩
    have hdomain : r.settings.used.domain.map Char.toLower = r.domain := h.normal
    simp only [hdomain, configEntries_used h.settings]
    rfl
  have hagent : fields (r.candidate.config .agent) = .ok (configEntries r.settings r.domain .agent) := hfields .agent
  have hmcp : fields (r.candidate.config .mcp) = .ok (configEntries r.settings r.domain .mcp) := hfields .mcp
  have hproven : ((configEntries r.settings r.domain .mcp).lookup "DP_MCP_AUTH_MODE" == some "static".toList ||
      (configEntries r.settings r.domain .mcp).lookup "DP_MCP_AUTH_MODE" == some "oauth".toList) = true := by
    rw [Bool.or_eq_true, beq_iff_eq, beq_iff_eq]
    exact hmode
  unfold loadCleanInstallAuthConfiguration
  rw [hverify, ok_bind, plan_spec h hw hverify hfits, hw, ok_bind, read_config hfits, ok_bind, read_config hfits, ok_bind,
    read_config hfits, ok_bind, hagent, ok_bind, hmcp, ok_bind]
  dsimp only
  rw [hproven, check_true, ok_bind, hinputs, hrendered, ok_bind, beq_self_eq_true, beq_self_eq_true, beq_self_eq_true,
    Bool.and_self, Bool.and_self, check_true, ok_bind, ok_bind]
  rfl

theorem fileText_ne_nil {ls : List Line} (h : ls ≠ []) : fileText ls ≠ [] := by
  intro hnil
  have hlines : ls.map Line.text ≠ [] := by simpa using h
  have hlast := getLast_unlines hlines
  rw [← fileText, hnil] at hlast
  cases hlast

theorem candidate_ne_nil : ∀ file ∈ r.candidate.files, file.2 ≠ [] := by
  have hunit : ∀ unit, r.candidate.units unit ≠ [] := fun unit => fileText_ne_nil (by simp [unitLines, UnitFile.template])
  have hconfig : ∀ file, r.candidate.config file ≠ [] := by
    intro file
    obtain ⟨init, hinit⟩ := configEntries_last (c := r.settings) (d := r.domain) file
    refine fileText_ne_nil ?_
    rw [hinit, settingLines]
    simp
  simp only [Candidate.files, List.forall_mem_cons, List.not_mem_nil, false_implies, implies_true, and_true]
  exact ⟨hconfig _, hconfig _, hconfig _, hunit _, hunit _, hunit _⟩

theorem fits_of_plan {plan : IdentityPlan} (h : inspectCleanInstallIdentityPlan digest w = .ok plan) :
    w.candidate.Fits := by
  unfold inspectCleanInstallIdentityPlan at h
  rw [bind_ok] at h
  obtain ⟨_, hverify, -⟩ := h
  rw [verifyCleanInstallManifest, bind_ok] at hverify
  obtain ⟨_, hstaged, -⟩ := hverify
  exact fits_of_staged hstaged

/-- A candidate is staged and read back if and only if its files are small enough. -/
theorem staged_iff (h : r.Good) :
    (∃ w, writeCleanInstallManifest digest r.candidate = .ok w ∧ inspectCleanInstallIdentityPlan digest w = .ok r.plan ∧
      loadCleanInstallAuthConfiguration digest w = .ok (r.settings.used, r.plan)) ↔ r.candidate.Fits := by
  constructor
  · rintro ⟨w, hw, hplan, -⟩
    simp only [writeCleanInstallManifest, bind_ok, pure_ok] at hw
    obtain ⟨records, hstaged, -⟩ := hw
    exact fits_of_staged hstaged
  · intro hfits
    have hstaged : stagedFiles digest r.candidate = .ok _ := stagedFiles_ok candidate_ne_nil hfits
    refine ⟨⟨r.candidate, _⟩, ?_, plan_spec h rfl (verify_ok hstaged) hfits,
      authorization_spec h rfl (verify_ok hstaged) hfits⟩
    rw [writeCleanInstallManifest, hstaged]
    rfl

/-- **Different requests** are rendered differently, as far as they are used. -/
theorem candidate_injective {r' : Request} (h : r.Good) (h' : r'.Good) (heq : r'.candidate = r.candidate) :
    r'.selection = r.selection ∧ r'.domain = r.domain ∧ r'.settings.used = r.settings.used := by
  obtain ⟨s₁, s₂, s₃, -, s₅, -⟩ := session_lines h
  obtain ⟨s₁', s₂', s₃', -, s₅', -⟩ := session_lines h'
  obtain ⟨a₁, -⟩ := agent_lines h
  obtain ⟨a₁', -⟩ := agent_lines h'
  obtain ⟨m₁, -⟩ := mcp_lines h
  obtain ⟨m₁', -⟩ := mcp_lines h'
  obtain ⟨c₁, -, c₃⟩ := config_lines h
  obtain ⟨c₁', -, c₃'⟩ := config_lines h'
  rw [heq] at s₁' s₂' s₃' s₅' a₁' m₁' c₁' c₃'
  have hwork := Except.ok.inj (s₁'.symm.trans s₁)
  have hipc := Except.ok.inj (s₂'.symm.trans s₂)
  have hgroup := Except.ok.inj (s₃'.symm.trans s₃)
  have hrelease := List.append_cancel_right (Except.ok.inj (s₅'.symm.trans s₅))
  have hagent := Except.ok.inj (a₁'.symm.trans a₁)
  have hmcp := Except.ok.inj (m₁'.symm.trans m₁)
  have hroot := Except.ok.inj (c₁'.symm.trans c₁)
  have hdomain := List.append_cancel_left (Except.ok.inj (c₃'.symm.trans c₃))
  have hselection : r'.selection = r.selection := by
    cases hs : r.selection
    cases hs' : r'.selection
    simp only [hs, hs'] at hwork hipc hgroup hrelease hagent hmcp hroot
    rw [hwork, hipc, hgroup, hrelease, hagent, hmcp, hroot]
  refine ⟨hselection, hdomain, ?_⟩
  -- the authorization is what the two files are read as
  have hfields := fields_config h.settings h.newline_not_mem_domain
  have hfields' := fields_config h'.settings h'.newline_not_mem_domain
  have hentries : ∀ file, configEntries r'.settings r'.domain file = configEntries r.settings r.domain file := by
    intro file
    have htext : r'.candidate.config file = r.candidate.config file := by rw [heq]
    have hread := hfields' file
    rw [show fileText (settingLines (configEntries r'.settings r'.domain file)) = r'.candidate.config file from rfl, htext]
      at hread
    exact Except.ok.inj (hread.symm.trans (hfields file))
  have hused := readAuthorization_config (d := r.domain) h.settings
  have hused' := readAuthorization_config (d := r'.domain) h'.settings
  rw [hentries, hentries, hused] at hused'
  have hallowed : r'.settings.allowedRoot = r.settings.allowedRoot := congrArg Selection.allowedRoot hselection
  unfold Settings.used
  rw [← hused', hallowed, show r'.settings.domain = r.settings.domain from hdomain]

end Reading

/-! ## Two requests -/

/-- A request whose release root has a name of the given length. -/
def sample (length : Nat) : Request where
  selection :=
    { releaseRoot := '/' :: List.replicate length 'a'
      allowedRoot := "/srv/work".toList
      workUser := "work".toList
      workGroup := "work".toList
      agentUser := "dp-agent".toList
      mcpUser := "dp-mcp".toList
      ipcGroup := "dp-ipc".toList }
  domain := "a.bc".toList
  authorization :=
    { authMode := none
      agentToken := some (List.replicate 64 'a')
      mcpToken := some (List.replicate 64 'b')
      oauthAgentToken := none
      contextSecret := none
      approvalSecret := none
      ownerId := none
      executionProfile := none }

/-- A host on which the work identity is there, and the service identities are not. -/
def sampleHost : Host where
  workUid _ := .ok (some 1000)
  workGroup _ := .ok "work".toList
  hasIdentity kind value := .ok (kind == "group" && value == "work".toList)
  inspectPath _ := .ok ⟨true, 1000, 0o700⟩
  resolvePath path := .ok path

/-- A path with one name. -/
theorem pathText_single {name : Text} (hne : name ≠ [] ∧ name ≠ ['.'] ∧ name ≠ ['.', '.']) (hslash : '/' ∉ name)
    (hchars : ∀ c ∈ name, pathChar c) : pathText ('/' :: name) = true := by
  obtain ⟨hempty, hdot, hdots⟩ := hne
  have hsplit : ('/' :: name).splitOn '/' = [[], name] := by
    have hcons := List.splitOn_append_cons_of_beq (a := '/') [] name (beq_self_eq_true '/')
    rw [List.nil_append] at hcons
    rw [hcons, List.splitOn_eq_singleton hslash]
    rfl
  have hlast : ('/' :: name).getLast? ≠ some '/' := by
    rw [List.getLast?_cons_of_ne_nil hempty]
    exact fun hlast => hslash (List.mem_of_getLast? hlast)
  have hnormal : normalized (String.ofList ('/' :: name)) = true := by
    simp [normalized, Journal.normalize, Release.isAbsolute, hsplit, Journal.climb, hempty, hdot, hdots, hlast]
  have hlength : 1 < ('/' :: name).length := by
    have := List.length_pos_of_ne_nil hempty
    simp only [List.length_cons]
    omega
  unfold pathText
  simp only [hnormal, hsplit, hlength, List.head?_cons, beq_self_eq_true, List.tail_cons, List.all_eq_true.mpr hchars,
    decide_true, Bool.and_true, Bool.true_and, List.mem_cons, List.not_mem_nil, or_false, decide_eq_true_eq]
  rintro (h | h)
  · exact absurd h (by decide)
  · exact hdots h.symm

example : pathText "/srv/../work".toList = false := by decide +kernel

theorem releaseRoot_sample {length : Nat} (h : 2 < length) :
    pathText (sample length).selection.releaseRoot = true ∧ '_' ∉ (sample length).selection.releaseRoot := by
  have hchars : ∀ c ∈ List.replicate length 'a', c = 'a' := fun c hc => (List.mem_replicate.mp hc).2
  have hlength : (List.replicate length 'a').length = length := List.length_replicate
  refine ⟨pathText_single ⟨?_, ?_, ?_⟩ ?_ ?_, ?_⟩
  · intro hnil
    rw [hnil, List.length_nil] at hlength
    omega
  · intro hdot
    rw [hdot, List.length_singleton] at hlength
    omega
  · intro hdots
    rw [hdots, List.length_cons, List.length_singleton] at hlength
    omega
  · exact fun hslash => absurd (hchars _ hslash) (by decide)
  · intro c hc
    rw [hchars c hc]
    decide
  · intro hunderscore
    rcases List.mem_cons.mp hunderscore with h | h
    · exact absurd h (by decide)
    · exact absurd (hchars _ h) (by decide)

theorem length_le_byteLength (text : Text) : text.length ≤ byteLength text := by
  induction text with
  | nil => exact Nat.le_refl 0
  | cons c text ih =>
    have hc := c.utf8Size_pos
    rw [byteLength] at ih ⊢
    rw [List.length_cons, List.map_cons, List.sum_cons]
    omega

/-- The release root is in every unit. -/
theorem releaseRoot_le {s : Selection} (unit : UnitFile) : s.releaseRoot.length ≤ byteLength (fileText (unitLines s unit)) := by
  have hin : s.releaseRoot <:+: fileText (unitLines s unit) := by
    refine in_of_mem_line (l := ((TemplateLine.workdir).fill s.values (s.releaseRoot ++ "/current".toList)).text)
      (List.mem_map_of_mem (List.mem_map_of_mem (mem_template.mpr (.inr (.inl rfl))))) ?_
    exact ⟨"WorkingDirectory".toList ++ ['='], "/current".toList, by simp [TemplateLine.fill, Line.text]⟩
  exact hin.length_le.trans (length_le_byteLength _)

/-! ## The result -/

/-- A rendered candidate is read back exactly if its files are small enough. Its units are the templates with everything
replaced at once, and of two requests that are rendered alike only what is not used may differ. -/
theorem candidate_read_back {δ : Type} [DecidableEq δ] (digest : Text → δ) {host : Host} {r : Request}
    {units : UnitFile → Text} {config : ConfigFile → Text}
    (hidentities : inspectCleanInstallIdentities host r.selection = .ok ())
    (hdomain : validateHostname r.domain = .ok r.domain)
    (hunits : renderCleanInstallUnits signedTemplates r.selection = .ok units)
    (hconfig : renderCleanInstallConfig r.settings = .ok config) :
    ((∃ w, writeCleanInstallManifest digest ⟨units, config⟩ = .ok w ∧
        inspectCleanInstallIdentityPlan digest w = .ok r.plan ∧
        loadCleanInstallAuthConfiguration digest w = .ok (r.settings.used, r.plan)) ↔
      (∀ unit, byteLength (units unit) ≤ 16 * 1024) ∧ ∀ file, byteLength (config file) ≤ 16 * 1024) ∧
    (∀ unit, units unit = replaceEach (rules r.selection unit) (signedTemplates unit)) ∧
    ∀ (host' : Host) (r' : Request), inspectCleanInstallIdentities host' r'.selection = .ok () →
      validateHostname r'.domain = .ok r'.domain → renderCleanInstallUnits signedTemplates r'.selection = .ok units →
      renderCleanInstallConfig r'.settings = .ok config →
      r'.selection = r.selection ∧ r'.domain = r.domain ∧ r'.settings.used = r.settings.used := by
  obtain ⟨hgood, hcandidate⟩ := good_of_rendered hidentities hdomain hunits hconfig
  refine ⟨?_, ?_, ?_⟩
  · have hfits : r.candidate.Fits ↔
        (∀ unit, byteLength (units unit) ≤ 16 * 1024) ∧ ∀ file, byteLength (config file) ≤ 16 * 1024 := by
      rw [← hcandidate]
      simp only [Candidate.Fits, Candidate.files, List.forall_mem_cons, List.not_mem_nil, false_implies, implies_true,
        and_true]
      constructor
      · rintro ⟨hagent, hmcp, hsession, hunitAgent, hunitMcp, hunitSession⟩
        exact ⟨fun unit => by cases unit <;> assumption, fun file => by cases file <;> assumption⟩
      · rintro ⟨hunit, hfile⟩
        exact ⟨hfile _, hfile _, hfile _, hunit _, hunit _, hunit _⟩
    rw [hcandidate]
    exact (staged_iff hgood).trans hfits
  · intro unit
    rw [simultaneous]
    exact congrFun (congrArg Candidate.units hcandidate) unit
  · intro host' r' hidentities' hdomain' hunits' hconfig'
    obtain ⟨hgood', hcandidate'⟩ := good_of_rendered hidentities' hdomain' hunits' hconfig'
    exact candidate_injective hgood hgood' (hcandidate'.symm.trans hcandidate)

/-- A candidate with a short release root is read back. -/
theorem candidate_read_back_sample :
    ∃ w, writeCleanInstallManifest String.ofList (sample 3).candidate = .ok w ∧
      inspectCleanInstallIdentityPlan String.ofList w = .ok (sample 3).plan ∧
      loadCleanInstallAuthConfiguration String.ofList w = .ok ((sample 3).settings.used, (sample 3).plan) := by
  have hselection : (sample 3).selection.Allowed := by
    constructor <;> decide +kernel
  have hsettings : (sample 3).settings.Allowed := by
    constructor <;> decide +kernel
  have hdomain : (sample 3).settings.domain.map Char.toLower = (sample 3).domain := by decide +kernel
  have hidentities : inspectCleanInstallIdentities sampleHost (sample 3).selection = .ok () := by decide +kernel
  refine (candidate_read_back String.ofList hidentities (by decide +kernel)
    (renderUnits_spec.mpr ⟨hselection, rfl⟩) (renderConfig_spec.mpr ⟨hsettings, ?_⟩)).1.mpr ⟨?_, ?_⟩
  · rw [hdomain]
  · intro unit
    cases unit <;> decide +kernel
  · intro file
    cases file <;> decide +kernel

/-- **A release root of 17000 letters** is rendered, and not read back: the names, the paths and the domain are accepted,
the files are rendered, and no manifest makes them readable. -/
theorem long_root_refused :
    inspectCleanInstallIdentities sampleHost (sample 17000).selection = .ok () ∧
      validateHostname (sample 17000).domain = .ok (sample 17000).domain ∧
      ∃ units config, renderCleanInstallUnits signedTemplates (sample 17000).selection = .ok units ∧
        renderCleanInstallConfig (sample 17000).settings = .ok config ∧
        ∀ w : Workspace String, w.candidate = ⟨units, config⟩ →
          ∀ plan, inspectCleanInstallIdentityPlan String.ofList w ≠ .ok plan := by
  have hthousands : 2 < 17000 := by decide
  obtain ⟨hroot, hplain⟩ := releaseRoot_sample hthousands
  have hunmarked : ¬ opening <:+: (sample 17000).selection.releaseRoot := fun hin =>
    hplain (hin.subset (List.mem_of_mem_head? head_opening))
  have hselection : (sample 17000).selection.Allowed :=
    ⟨hroot, by decide +kernel, by decide +kernel, by decide +kernel, by decide +kernel, by decide +kernel,
      by decide +kernel, by decide +kernel, by decide +kernel, hunmarked⟩
  have hsettings : (sample 17000).settings.Allowed := by
    constructor <;> decide +kernel
  refine ⟨by decide +kernel, by decide +kernel, _, _, renderUnits_spec.mpr ⟨hselection, rfl⟩,
    renderConfig_spec.mpr ⟨hsettings, rfl⟩, ?_⟩
  intro w hw plan hplan
  have hfits := fits_of_plan hplan
  rw [hw] at hfits
  have hunit := hfits ("units/dp-beget-mcp.service", fileText (unitLines (sample 17000).selection .mcp))
    (by simp [Candidate.files])
  have hlong := releaseRoot_le (s := (sample 17000).selection) .mcp
  have hlength : (sample 17000).selection.releaseRoot.length = 17001 := by
    simp only [sample, List.length_cons, List.length_replicate]
  rw [hlength] at hlong
  exact absurd (hlong.trans hunit) (by decide)

end BegetBridge.InstallCandidate
