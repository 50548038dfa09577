import BegetBridge.Release.CandidateRendering

/-!
# Reading a candidate back

The staged files are read, line by line, for the names, the paths and the domain, and for the authorization and its
secrets. A file is read if it holds at most sixteen kibibytes.

## Main definitions

* `inspectCleanInstallIdentities`: what names and work directory an installation may have
* `inspectCleanInstallIdentityPlan`, `loadCleanInstallAuthConfiguration`: how the files are read

## Main results

* `singleLine_fileText`, `fields_settings`: what is read of the lines
* `readAuthorization_config`: what is used of an authorization is read back
-/

namespace BegetBridge.InstallCandidate

open Core Posix
open Journal (normalized)
open CleanInstallJournal (IdentityPlan accountName)

/-! ## The identities -/

/-- What is seen of a path. -/
structure PathInfo where
  isDirectory : Bool
  uid : Nat
  mode : Nat

/-- What the host says of its identities and paths. The number that `id -u` prints is there if it is a safe integer. -/
structure Host where
  workUid : Text → Except String (Option Nat)
  workGroup : Text → Except String Text
  hasIdentity : String → Text → Except String Bool
  inspectPath : Text → Except String PathInfo
  resolvePath : Text → Except String Text

/-- `name(value)` -/
def identityName (value : Text) : Except String Unit :=
  check (accountName (String.ofList value)) "Unsafe clean-install identity name"

/-- A service identity is not there yet. -/
def unoccupied (host : Host) (value : Text) : Except String Unit := do
  let message := "Reserved service identity already exists: " ++ String.ofList value
  check (!(← host.hasIdentity "passwd" value)) message
  check (!(← host.hasIdentity "group" value)) message

def inspectCleanInstallIdentities (host : Host) (s : Selection) : Except String Unit := do
  identityName s.workUser
  identityName s.workGroup
  identityName s.agentUser
  identityName s.mcpUser
  identityName s.ipcGroup
  check (decide [s.workUser, s.agentUser, s.mcpUser].Nodup &&
    decide [s.workGroup, s.agentUser, s.mcpUser, s.ipcGroup].Nodup) "Clean-install identities must be distinct"
  check (normalized (String.ofList s.allowedRoot)) "Unsafe work directory"
  let uid ← host.workUid s.workUser
  let mismatch := "Existing work identity does not match the selected primary group"
  check (uid.any (1 ≤ ·)) mismatch
  check ((← host.workGroup s.workUser) == s.workGroup) mismatch
  check (← host.hasIdentity "group" s.workGroup) mismatch
  unoccupied host s.agentUser
  unoccupied host s.mcpUser
  check (!(← host.hasIdentity "group" s.ipcGroup)) "Reserved IPC group already exists"
  let info ← host.inspectPath s.allowedRoot
  let unsafePath := "Work directory is not private and owned by the work identity"
  check (info.isDirectory && some info.uid == uid && info.mode % 8 == 0) unsafePath
  check ((← host.resolvePath s.allowedRoot) == s.allowedRoot) unsafePath

/-! ## The staged files -/

/-- The six files of a candidate. -/
structure Candidate where
  units : UnitFile → Text
  config : ConfigFile → Text

namespace Candidate

/-- The names of the files, in their order. -/
def files (c : Candidate) : List (String × Text) :=
  [("config/agent.env", c.config .agent), ("config/mcp.env", c.config .mcp),
    ("config/session-host.env", c.config .sessionHost), ("units/dp-beget-agent.service", c.units .agent),
    ("units/dp-beget-mcp.service", c.units .mcp), ("units/dp-beget-session-host.service", c.units .sessionHost)]

end Candidate

/-- The bytes of a text in a file. -/
def byteLength (text : Text) : Nat := (text.map Char.utf8Size).sum

/-- `(await readRegularFile(filename, maxBytes)).toString("utf8")` -/
def readRegularFile (content : Text) (maxBytes : Nat) : Except String Text := do
  check (byteLength content ≤ maxBytes) "Invalid release metadata file"
  pure content

/-- What a candidate manifest records of a file. -/
structure FileRecord (δ : Type) where
  path : String
  size : Nat
  sha256 : δ
  deriving DecidableEq

section Staged

variable {δ : Type} [DecidableEq δ] (digest : Text → δ)

def stagedFile (file : String × Text) : Except String (FileRecord δ) := do
  check (1 ≤ byteLength file.2 && byteLength file.2 ≤ 16 * 1024) "Unsafe clean-install staged file"
  pure ⟨file.1, byteLength file.2, digest file.2⟩

/-- `stagedFiles(workspace)` -/
def stagedFiles (c : Candidate) : Except String (List (FileRecord δ)) := c.files.mapM (stagedFile digest)

/-- A candidate and its manifest. -/
structure Workspace (δ : Type) where
  candidate : Candidate
  record : List (FileRecord δ)

/-- The manifest of a candidate is written. -/
def writeCleanInstallManifest (c : Candidate) : Except String (Workspace δ) := do
  pure ⟨c, ← stagedFiles digest c⟩

/-- The files are compared with the manifest. -/
def verifyCleanInstallManifest (w : Workspace δ) : Except String Unit := do
  check ((← stagedFiles digest w.candidate) == w.record) "Clean-install candidate files changed after preparation"

/-! ## The identity plan -/

/-- The value of the only line of a key. -/
def singleLine (content : Text) (key : String) : Except String Text :=
  match (lines content).filter (key.toList ++ ['=']).isPrefixOf with
  | [found] => do
    check (found.drop (key.toList.length + 1) != []) "Invalid staged clean-install identity field"
    pure (found.drop (key.toList.length + 1))
  | _ => .error "Invalid staged clean-install identity field"

def identity (value : Text) : Except String Text := do
  check (accountName (String.ofList value)) "Unsafe staged clean-install identity"
  pure value

/-- `safePath` of the plan. -/
def stagedPath : Text → Except String Text := checkedPath "Unsafe staged clean-install path"

/-- `a || b || …`, where a test may throw. -/
def someTrue : List (Except String Bool) → Except String Bool
  | [] => pure false
  | test :: tests => do
    if ← test then pure true else someTrue tests

/-- `singleLine(content, key) !== value` -/
def differs (content : Text) (key : String) (value : Text) : Except String Bool := do
  pure ((← singleLine content key) != value)

def inspectCleanInstallIdentityPlan (w : Workspace δ) : Except String IdentityPlan := do
  verifyCleanInstallManifest digest w
  let session ← readRegularFile (w.candidate.units .sessionHost) (16 * 1024)
  let agent ← readRegularFile (w.candidate.units .agent) (16 * 1024)
  let mcp ← readRegularFile (w.candidate.units .mcp) (16 * 1024)
  let sessionConfig ← readRegularFile (w.candidate.config .sessionHost) (16 * 1024)
  let agentConfig ← readRegularFile (w.candidate.config .agent) (16 * 1024)
  let mcpConfig ← readRegularFile (w.candidate.config .mcp) (16 * 1024)
  let workUser ← identity (← singleLine session "User")
  let workGroup ← identity (← singleLine session "SupplementaryGroups")
  let ipcGroup ← identity (← singleLine session "Group")
  let agentUser ← identity (← singleLine agent "User")
  let mcpUser ← identity (← singleLine mcp "User")
  let disagree ← someTrue [differs agent "Group" agentUser, differs mcp "Group" mcpUser,
    differs agent "SupplementaryGroups" ipcGroup, differs session "KillMode" "process".toList,
    pure (decide ¬ [workUser, agentUser, mcpUser].Nodup),
    pure (decide ¬ [workGroup, agentUser, mcpUser, ipcGroup].Nodup)]
  check (!disagree) "Staged clean-install service identities disagree"
  let allowedRoot ← stagedPath (← singleLine sessionConfig "DP_ALLOWED_ROOTS")
  let disagree ← someTrue [differs agentConfig "DP_ALLOWED_ROOTS" allowedRoot,
    differs session "ReadWritePaths" ("/var/lib/dp-beget-bridge ".toList ++ allowedRoot),
    differs agent "ReadWritePaths" ("/var/lib/dp-beget-bridge-agent ".toList ++ allowedRoot)]
  check (!disagree) "Staged clean-install work directories disagree"
  let suffix := "/current".toList
  let workdir ← singleLine session "WorkingDirectory"
  check (suffix.isSuffixOf workdir) "Staged clean-install release link is invalid"
  let releaseRoot ← stagedPath (workdir.take (workdir.length - suffix.length))
  let disagree ← someTrue [differs agent "WorkingDirectory" workdir, differs mcp "WorkingDirectory" workdir]
  check (!disagree) "Staged clean-install release bindings disagree"
  let publicUrl ← singleLine mcpConfig "DP_PUBLIC_URL"
  let scheme := "https://".toList
  check (scheme.isPrefixOf publicUrl) "Staged clean-install public URL must use HTTPS"
  let domain ← validateHostname (publicUrl.drop scheme.length)
  check (publicUrl == scheme ++ domain) "Staged clean-install public URL is not canonical"
  verifyCleanInstallManifest digest w
  pure ⟨String.ofList agentUser, String.ofList allowedRoot, String.ofList domain, String.ofList ipcGroup,
    String.ofList mcpUser, String.ofList releaseRoot, String.ofList workGroup, String.ofList workUser⟩

/-! ## The authorization -/

/-- `/^[A-Z][A-Z0-9_]*$/` -/
def keyText (key : Text) : Bool :=
  key.head?.any Char.isUpper && key.all fun c => c.isUpper || c.isDigit || c == '_'

def invalidConfiguration : String := "Invalid clean authorization configuration"

/-- One line of an environment file. -/
def fieldLine (output : List (String × Text)) (line : Text) : Except String (List (String × Text)) := do
  let index := line.idxOf '='
  let key := line.take index
  check (index < line.length && 1 ≤ index && keyText key && !(output.map Prod.fst).contains (String.ofList key))
    invalidConfiguration
  pure (output ++ [(String.ofList key, line.drop (index + 1))])

/-- `source.trimEnd()` -/
def trimEnd (source : Text) : Text := (source.reverse.dropWhile isSpace).reverse

def fields (source : Text) : Except String (List (String × Text)) := do
  check (source.getLast? == some '\n') invalidConfiguration
  (lines (trimEnd source)).foldlM fieldLine []

/-- What an authorization is read as, from the settings of the agent and of the server. -/
def readAuthorization (agent mcp : List (String × Text)) : Authorization :=
  let oauth := mcp.lookup "DP_MCP_AUTH_MODE" == some "oauth".toList
  { authMode := mcp.lookup "DP_MCP_AUTH_MODE"
    agentToken := agent.lookup "DP_AGENT_TOKEN"
    mcpToken := if oauth then none else mcp.lookup "DP_MCP_ACCESS_TOKEN"
    oauthAgentToken := if oauth then agent.lookup "DP_AGENT_OAUTH_TOKEN" else none
    contextSecret := if oauth then agent.lookup "DP_AGENT_CONTEXT_SECRET" else none
    approvalSecret := if oauth then mcp.lookup "DP_OAUTH_STAGING_APPROVAL_SECRET" else none
    ownerId := if oauth then mcp.lookup "DP_OWNER_ID" else none
    executionProfile := if oauth then mcp.lookup "DP_OAUTH_EXECUTION_PROFILE" else none }

def loadCleanInstallAuthConfiguration (w : Workspace δ) : Except String (Settings × IdentityPlan) := do
  verifyCleanInstallManifest digest w
  let plan ← inspectCleanInstallIdentityPlan digest w
  let session ← readRegularFile (w.candidate.config .sessionHost) (16 * 1024)
  let agentFile ← readRegularFile (w.candidate.config .agent) (16 * 1024)
  let mcpFile ← readRegularFile (w.candidate.config .mcp) (16 * 1024)
  let agent ← fields agentFile
  let mcp ← fields mcpFile
  let authMode := mcp.lookup "DP_MCP_AUTH_MODE"
  check (authMode == some "static".toList || authMode == some "oauth".toList) "Unproven clean authorization mode"
  let inputs : Settings :=
    { readAuthorization agent mcp with domain := plan.domain.toList, allowedRoot := plan.allowedRoot.toList }
  let rendered ← renderCleanInstallConfig inputs
  check (session == rendered .sessionHost && agentFile == rendered .agent && mcpFile == rendered .mcp)
    "Clean authorization configuration differs from its exact supported profile"
  verifyCleanInstallManifest digest w
  pure (inputs, plan)

end Staged

/-! ## What is read of the lines -/

section Lines

variable {key : String} {ls : List Line} {v : Text}

/-- The value of the only line of a key is read. -/
theorem singleLine_fileText (h : ∀ l ∈ ls, l.Proper) (hkey : '=' ∉ key.toList) (hvalue : valuesOf key ls = [v])
    (hne : v ≠ []) : singleLine (fileText ls) key = .ok v := by
  have hdrop : (key.toList ++ '=' :: v).drop (key.toList.length + 1) = v := by simp
  rw [singleLine, filter_startsWith h hkey, hvalue, List.map_singleton]
  dsimp only
  rw [hdrop]
  simp only [bind_ok, check_ok, pure_ok, exists_const, and_true, bne_iff_ne]
  exact hne

end Lines

/-! ### Units -/

section Units

variable {s : Selection} {unit : UnitFile}

theorem unitLines_proper (h : s.Clean) : ∀ l ∈ unitLines s unit, l.Proper := by
  intro l hl
  obtain ⟨t, ht, rfl⟩ := List.mem_map.mp hl
  have hlink : '\n' ∉ "/current".toList := by
    rw [String.toList_ofList]
    decide
  refine proper_fill (fine unit t ht) (fun k => h.not_mem_values (by decide) (by decide) (by decide)) ?_
  rw [List.mem_append, not_or]
  exact ⟨h.not_mem_releaseRoot (by decide), hlink⟩

theorem values_sessionHost :
    valuesOf "User" (unitLines s .sessionHost) = [s.workUser] ∧
      valuesOf "Group" (unitLines s .sessionHost) = [s.ipcGroup] ∧
      valuesOf "SupplementaryGroups" (unitLines s .sessionHost) = [s.workGroup] ∧
      valuesOf "KillMode" (unitLines s .sessionHost) = ["process".toList] ∧
      valuesOf "WorkingDirectory" (unitLines s .sessionHost) = [s.releaseRoot ++ "/current".toList] ∧
      valuesOf "ReadWritePaths" (unitLines s .sessionHost) = ["/var/lib/dp-beget-bridge ".toList ++ s.allowedRoot] :=
  ⟨rfl, rfl, rfl, rfl, rfl, rfl⟩

theorem values_agent :
    valuesOf "User" (unitLines s .agent) = [s.agentUser] ∧ valuesOf "Group" (unitLines s .agent) = [s.agentUser] ∧
      valuesOf "SupplementaryGroups" (unitLines s .agent) = [s.ipcGroup] ∧
      valuesOf "WorkingDirectory" (unitLines s .agent) = [s.releaseRoot ++ "/current".toList] ∧
      valuesOf "ReadWritePaths" (unitLines s .agent) = ["/var/lib/dp-beget-bridge-agent ".toList ++ s.allowedRoot] :=
  ⟨rfl, rfl, rfl, rfl, rfl⟩

theorem values_mcp :
    valuesOf "User" (unitLines s .mcp) = [s.mcpUser] ∧ valuesOf "Group" (unitLines s .mcp) = [s.mcpUser] ∧
      valuesOf "WorkingDirectory" (unitLines s .mcp) = [s.releaseRoot ++ "/current".toList] :=
  ⟨rfl, rfl, rfl⟩

end Units

/-! ### Environment files -/

/-- A key is well formed, and its value is in one line. -/
def Written (x : String × Text) : Prop := keyText x.1.toList = true ∧ '\n' ∉ x.2

section Entries

variable {entries done : List (String × Text)}

theorem not_mem_key {key : Text} (h : keyText key = true) {c : Char}
    (hc : (c.isUpper || c.isDigit || c == '_') = false) : c ∉ key := by
  intro hmem
  unfold keyText at h
  rw [Bool.and_eq_true, List.all_eq_true] at h
  exact Bool.false_ne_true (hc.symm.trans (h.2 c hmem))

theorem settings_proper (h : ∀ x ∈ entries, Written x) : ∀ l ∈ settingLines entries, l.Proper := by
  intro l hl
  obtain ⟨x, hx, rfl⟩ := List.mem_map.mp hl
  exact ⟨not_mem_key (h x hx).1 (by decide), not_mem_key (h x hx).1 (by decide), (h x hx).2⟩

/-- One line is added. -/
theorem fieldLine_setting {x : String × Text} (hx : Written x) (hnew : x.1 ∉ done.map Prod.fst) :
    fieldLine done (Line.text (.setting x.1 x.2)) = .ok (done ++ [x]) := by
  obtain ⟨key, value⟩ := x
  have hkey : '=' ∉ key.toList := not_mem_key hx.1 (by decide)
  have hindex : (key.toList ++ '=' :: value).idxOf '=' = key.toList.length := by
    rw [List.idxOf_append_of_notMem hkey, List.idxOf_cons_self, Nat.add_zero]
  have htake : (key.toList ++ '=' :: value).take key.toList.length = key.toList := List.take_left
  have hdrop : (key.toList ++ '=' :: value).drop (key.toList.length + 1) = value := by simp
  have hpos : 1 ≤ key.toList.length := by
    rw [Nat.one_le_iff_ne_zero, ne_eq, List.length_eq_zero_iff]
    intro hnil
    have hhead := hx.1
    rw [hnil] at hhead
    exact absurd hhead (by decide)
  unfold fieldLine
  simp only [Line.text, hindex, htake, hdrop, String.ofList_toList, bind_ok, check_ok, pure_ok, exists_const, and_true]
  have hlength : key.toList.length < (key.toList ++ '=' :: value).length := by simp
  have hcontains : (done.map Prod.fst).contains key = false := by
    rw [← Bool.not_eq_true, List.contains_iff_mem]
    exact hnew
  simp only [hlength, hpos, hcontains, decide_true, Bool.not_false, Bool.and_true, Bool.true_and]
  exact hx.1

theorem foldlM_fieldLine (h : ∀ x ∈ entries, Written x) (hnodup : ((done ++ entries).map Prod.fst).Nodup) :
    ((settingLines entries).map Line.text).foldlM fieldLine done = .ok (done ++ entries) := by
  induction entries generalizing done with
  | nil => rw [List.append_nil]; rfl
  | cons x entries ih =>
    have hnew : x.1 ∉ done.map Prod.fst := by
      intro hmem
      rw [List.map_append, List.map_cons] at hnodup
      exact (List.nodup_append.mp hnodup).2.2 _ hmem _ List.mem_cons_self rfl
    rw [List.append_cons] at hnodup ⊢
    rw [settingLines, List.map_cons, List.map_cons, List.foldlM_cons, fieldLine_setting (h x List.mem_cons_self) hnew]
    exact ih (fun y hy => h y (List.mem_cons_of_mem _ hy)) hnodup

theorem trimEnd_line {body : Text} {c : Char} (hc : isSpace c = false) : trimEnd (body ++ [c] ++ ['\n']) = body ++ [c] := by
  have hnewline : isSpace '\n' = true := by decide
  simp [trimEnd, hc, hnewline]

/-- **The settings of a file are read**, if its last value does not end with white space. -/
theorem fields_settings {key : String} {before : Text} {c : Char} (h : ∀ x ∈ entries ++ [(key, before ++ [c])], Written x)
    (hnodup : ((entries ++ [(key, before ++ [c])]).map Prod.fst).Nodup) (hc : isSpace c = false) :
    fields (fileText (settingLines (entries ++ [(key, before ++ [c])]))) = .ok (entries ++ [(key, before ++ [c])]) := by
  have hlast := h (key, before ++ [c]) (by simp)
  have hentries : ∀ x ∈ entries, Written x := fun x hx => h x (List.mem_append_left _ hx)
  have hlines : ∀ l ∈ (settingLines entries).map Line.text, '\n' ∉ l := by
    intro text htext
    obtain ⟨l, hl, rfl⟩ := List.mem_map.mp htext
    exact newline_not_mem_text (settings_proper hentries l hl)
  have hline : '\n' ∉ key.toList ++ '=' :: (before ++ [c]) :=
    newline_not_mem_text (l := .setting key (before ++ [c])) (settings_proper h _ (by simp [settingLines]))
  have htext : fileText (settingLines (entries ++ [(key, before ++ [c])])) =
      (unlines ((settingLines entries).map Line.text) ++ key.toList ++ '=' :: before) ++ [c] ++ ['\n'] := by
    simp [fileText, settingLines, unlines_append, unlines_cons, Line.text]
  have hcontent : (unlines ((settingLines entries).map Line.text) ++ key.toList ++ '=' :: before) ++ [c] =
      unlines ((settingLines entries).map Line.text) ++ (key.toList ++ '=' :: (before ++ [c])) := by simp
  unfold fields
  rw [htext, trimEnd_line hc, List.getLast?_concat, hcontent, lines_append hlines hline]
  have hfold := @foldlM_fieldLine _ [] h hnodup
  rw [List.nil_append] at hfold
  simpa [check, settingLines, Line.text, bind, Except.bind, pure, Except.pure] using hfold

end Entries

/-! ### Settings of a candidate -/

section Configuration

variable {c : Settings} {d : Text} {file : ConfigFile}

theorem mode_cases (h : c.Allowed) : c.mode = "static".toList ∨ c.mode = "oauth".toList := by
  have hmode := h.selection
  unfold validSelection at hmode
  simp only [Bool.and_eq_true, decide_eq_true_eq, List.mem_cons, List.not_mem_nil, or_false] at hmode
  exact hmode.1.1

theorem oauth_ne_static : "oauth".toList ≠ "static".toList := by
  repeat rw [String.toList_ofList]
  decide

theorem newline_not_mem_token {token : Option Text} (h : token.any tokenText = true) : '\n' ∉ written token := by
  cases token with
  | none => exact absurd h Bool.false_ne_true
  | some text =>
    rw [Option.any_some, tokenText, Bool.and_eq_true, List.all_eq_true] at h
    exact fun hmem => absurd (h.2 _ hmem) (by decide)

theorem written_token {token : Option Text} (h : token.any tokenText = true) : some (written token) = token := by
  cases token with
  | none => exact absurd h Bool.false_ne_true
  | some text => rfl

theorem token_of_mem (h : c.Allowed) (token : Option Text) (htoken : token ∈ c.secrets) : token.any tokenText = true := by
  have hsecrets := h.secrets
  unfold Authorization.separateSecrets at hsecrets
  rw [Bool.and_eq_true, List.all_eq_true] at hsecrets
  exact hsecrets.1 token htoken

theorem secrets_static (h : c.mode = "static".toList) : c.secrets = [c.agentToken, c.mcpToken] := if_pos h

theorem secrets_oauth (h : c.mode = "oauth".toList) :
    c.secrets = [c.agentToken, c.oauthAgentToken, c.contextSecret, c.approvalSecret] :=
  if_neg fun hstatic => oauth_ne_static (h.symm.trans hstatic)

theorem newline_not_mem_owner (h : c.Allowed) : '\n' ∉ c.owner := by
  have hselection := h.selection
  unfold validSelection at hselection
  simp only [Bool.and_eq_true, List.all_eq_true] at hselection
  exact fun hmem => absurd (hselection.1.2.2 _ hmem) (by decide)

theorem profile_cases (h : c.Allowed) : c.profile = "files-read".toList ∨ c.profile = "full-shell".toList := by
  have hselection := h.selection
  unfold validSelection OAUTH_PROFILES at hselection
  simp only [Bool.and_eq_true, decide_eq_true_eq, List.map_cons, List.map_nil, List.mem_cons, List.not_mem_nil,
    or_false] at hselection
  exact hselection.2

theorem newline_not_mem_profile (h : c.Allowed) :
    '\n' ∉ c.profile ∧ '\n' ∉ [','].intercalate ((OAUTH_PROFILES.lookup c.profile).getD []) := by
  rcases profile_cases h with h | h <;> rw [h] <;> decide +kernel

theorem newline_not_mem_path (h : pathText c.allowedRoot = true) : '\n' ∉ c.allowedRoot :=
  fun hmem => absurd (pathText_chars h _ hmem) (by decide)

theorem agentToken_mem : c.agentToken ∈ c.secrets := by
  unfold Authorization.secrets
  split <;> exact List.mem_cons_self

theorem sessionHost_written (h : c.Allowed) : ∀ x ∈ configEntries c d .sessionHost, Written x := by
  have hroot := newline_not_mem_path h.allowedRoot
  unfold configEntries
  repeat' refine List.forall_mem_cons.mpr ⟨⟨?_, ?_⟩, ?_⟩
  all_goals
    first
    | exact fun _ hmem => absurd hmem List.not_mem_nil
    | exact hroot
    | rw [String.toList_ofList]
      decide

theorem agentAuthorization_written (h : c.Allowed) : ∀ x ∈ agentAuthorization c.toAuthorization, Written x := by
  unfold agentAuthorization
  split
  · rename_i hmode
    have htoken := token_of_mem h c.oauthAgentToken (by simp [secrets_oauth hmode])
    have hcontext := token_of_mem h c.contextSecret (by simp [secrets_oauth hmode])
    refine List.forall_mem_cons.mpr ⟨⟨?_, newline_not_mem_token htoken⟩,
      List.forall_mem_cons.mpr ⟨⟨?_, newline_not_mem_token hcontext⟩, fun _ hmem => absurd hmem List.not_mem_nil⟩⟩
    all_goals
      rw [String.toList_ofList]
      decide
  · exact fun _ hmem => absurd hmem List.not_mem_nil

theorem agent_written (h : c.Allowed) : ∀ x ∈ configEntries c d .agent, Written x := by
  have hroot := newline_not_mem_path h.allowedRoot
  have htoken := newline_not_mem_token (token_of_mem h _ agentToken_mem)
  unfold configEntries
  rw [List.forall_mem_append, List.forall_mem_append]
  refine ⟨⟨?_, agentAuthorization_written h⟩, ?_⟩
  all_goals repeat' refine List.forall_mem_cons.mpr ⟨⟨?_, ?_⟩, ?_⟩
  all_goals
    first
    | exact fun _ hmem => absurd hmem List.not_mem_nil
    | exact hroot
    | exact htoken
    | rw [String.toList_ofList]
      decide

theorem mcpAuthorization_written (h : c.Allowed) (hd : '\n' ∉ d) :
    ∀ x ∈ mcpAuthorization c.toAuthorization d, Written x := by
  have hhttps : '\n' ∉ "https://".toList ++ d := by simpa using hd
  have hresource : '\n' ∉ "https://".toList ++ d ++ "/mcp".toList := by simpa using hd
  have howner := newline_not_mem_owner h
  have hprofile := newline_not_mem_profile h
  unfold mcpAuthorization
  split
  · rename_i hmode
    have hcontext := newline_not_mem_token (token_of_mem h c.contextSecret (by simp [secrets_oauth hmode]))
    have happroval := newline_not_mem_token (token_of_mem h c.approvalSecret (by simp [secrets_oauth hmode]))
    repeat' refine List.forall_mem_cons.mpr ⟨⟨?_, ?_⟩, ?_⟩
    all_goals
      first
      | exact fun _ hmem => absurd hmem List.not_mem_nil
      | exact hcontext
      | exact happroval
      | exact howner
      | exact hhttps
      | exact hresource
      | exact hprofile.1
      | exact hprofile.2
      | rw [String.toList_ofList]
        decide
  · rename_i hmode
    have hstatic := (mode_cases h).resolve_right hmode
    have htoken := newline_not_mem_token (token_of_mem h c.mcpToken (by simp [secrets_static hstatic]))
    repeat' refine List.forall_mem_cons.mpr ⟨⟨?_, ?_⟩, ?_⟩
    all_goals
      first
      | exact fun _ hmem => absurd hmem List.not_mem_nil
      | exact htoken
      | rw [String.toList_ofList]
        decide

theorem mcp_written (h : c.Allowed) (hd : '\n' ∉ d) : ∀ x ∈ configEntries c d .mcp, Written x := by
  have hhttps : '\n' ∉ "https://".toList ++ d := by simpa using hd
  have htoken : '\n' ∉ written (if c.mode = "oauth".toList then c.oauthAgentToken else c.agentToken) := by
    split
    · rename_i hmode
      exact newline_not_mem_token (token_of_mem h _ (by simp [secrets_oauth hmode]))
    · exact newline_not_mem_token (token_of_mem h _ agentToken_mem)
  unfold configEntries
  rw [List.forall_mem_append, List.forall_mem_append]
  refine ⟨⟨?_, mcpAuthorization_written h hd⟩, ?_⟩
  all_goals repeat' refine List.forall_mem_cons.mpr ⟨⟨?_, ?_⟩, ?_⟩
  all_goals
    first
    | exact fun _ hmem => absurd hmem List.not_mem_nil
    | exact hhttps
    | exact htoken
    | rw [String.toList_ofList]
      decide

/-- **What is rendered for an environment file** is read line by line. -/
theorem configEntries_written (h : c.Allowed) (hd : '\n' ∉ d) : ∀ x ∈ configEntries c d file, Written x := by
  cases file with
  | sessionHost => exact sessionHost_written h
  | agent => exact agent_written h
  | mcp => exact mcp_written h hd

/-- The last setting is the log level. -/
theorem configEntries_last (file : ConfigFile) :
    ∃ init, configEntries c d file = init ++ [("DP_LOG_LEVEL", "inf".toList ++ ['o'])] := by
  have hinfo : "inf".toList ++ ['o'] = "info".toList := by
    repeat rw [String.toList_ofList]
    rfl
  rw [hinfo]
  refine List.getLast?_eq_some_iff.mp ?_
  cases file <;> simp only [configEntries, List.getLast?_append, List.getLast?_cons, Option.getD_some, Option.some_or,
    List.getLast?_nil, Option.getD_none]

/-- No key is written twice. -/
theorem configEntries_nodup (file : ConfigFile) : ((configEntries c d file).map Prod.fst).Nodup := by
  cases file with
  | sessionHost =>
    simp only [configEntries, List.map_cons, List.map_nil]
    decide +kernel
  | agent =>
    simp only [configEntries, agentAuthorization, List.map_append, List.map_cons, List.map_nil]
    split <;> simp only [List.map_cons, List.map_nil] <;> decide +kernel
  | mcp =>
    simp only [configEntries, mcpAuthorization, List.map_append, List.map_cons, List.map_nil]
    split <;> simp only [List.map_cons, List.map_nil] <;> decide +kernel

/-- The environment files are read as they were rendered. -/
theorem fields_config (h : c.Allowed) (hd : '\n' ∉ d) (file : ConfigFile) :
    fields (fileText (settingLines (configEntries c d file))) = .ok (configEntries c d file) := by
  obtain ⟨init, hinit⟩ := configEntries_last (c := c) (d := d) file
  have hwritten : ∀ x ∈ configEntries c d file, Written x := configEntries_written h hd
  have hnodup := configEntries_nodup (c := c) (d := d) file
  rw [hinit] at hwritten hnodup ⊢
  exact fields_settings hwritten hnodup (by decide)

/-! ### What the profile uses -/

/-- What is written of an authorization. -/
def Authorization.used (a : Authorization) : Authorization :=
  if a.mode = "oauth".toList then
    { authMode := some "oauth".toList
      agentToken := a.agentToken
      mcpToken := none
      oauthAgentToken := a.oauthAgentToken
      contextSecret := a.contextSecret
      approvalSecret := a.approvalSecret
      ownerId := some a.owner
      executionProfile := some a.profile }
  else
    { authMode := some "static".toList
      agentToken := a.agentToken
      mcpToken := a.mcpToken
      oauthAgentToken := none
      contextSecret := none
      approvalSecret := none
      ownerId := none
      executionProfile := none }

def Settings.used (c : Settings) : Settings := { c with toAuthorization := c.toAuthorization.used }

/-- **What is used is read back.** -/
theorem readAuthorization_config (h : c.Allowed) :
    readAuthorization (configEntries c d .agent) (configEntries c d .mcp) = c.toAuthorization.used := by
  have hagent := written_token (token_of_mem h _ agentToken_mem)
  rcases mode_cases h with hmode | hmode
  · have hne : ¬ c.mode = "oauth".toList := fun hoauth => oauth_ne_static (hoauth.symm.trans hmode)
    have hmcp := written_token (token_of_mem h c.mcpToken (by simp [secrets_static hmode]))
    simp only [readAuthorization, configEntries, agentAuthorization, mcpAuthorization, Authorization.used, if_neg hne]
    simp [List.lookup, hagent, hmcp]
  · have hoauth := written_token (token_of_mem h c.oauthAgentToken (by simp [secrets_oauth hmode]))
    have hcontext := written_token (token_of_mem h c.contextSecret (by simp [secrets_oauth hmode]))
    have happroval := written_token (token_of_mem h c.approvalSecret (by simp [secrets_oauth hmode]))
    simp only [readAuthorization, configEntries, agentAuthorization, mcpAuthorization, Authorization.used, if_pos hmode]
    simp [List.lookup, hagent, hoauth, hcontext, happroval]

theorem used_mode (h : c.Allowed) : c.used.mode = c.mode := by
  unfold Settings.used Authorization.used
  rcases mode_cases h with hmode | hmode
  · have hne : ¬ c.mode = "oauth".toList := fun hoauth => oauth_ne_static (hoauth.symm.trans hmode)
    rw [if_neg hne, hmode]
    rfl
  · rw [if_pos hmode, hmode]
    rfl

/-- What is not used is not written. -/
theorem configEntries_used (h : c.Allowed) (file : ConfigFile) : configEntries c.used d file = configEntries c d file := by
  have hsame := used_mode h
  rcases mode_cases h with hmode | hmode
  · have hne : ¬ c.mode = "oauth".toList := fun hoauth => oauth_ne_static (hoauth.symm.trans hmode)
    have hne' : ¬ c.used.mode = "oauth".toList := hsame ▸ hne
    cases file <;> simp only [configEntries, agentAuthorization, mcpAuthorization, if_neg hne, if_neg hne'] <;>
      simp only [Settings.used, Authorization.used, if_neg hne]
  · have hmode' : c.used.mode = "oauth".toList := hsame ▸ hmode
    have howner : c.used.owner = c.owner := by
      simp only [Settings.used, Authorization.used, if_pos hmode]
      rfl
    have hprofile : c.used.profile = c.profile := by
      simp only [Settings.used, Authorization.used, if_pos hmode]
      rfl
    cases file <;> simp only [configEntries, agentAuthorization, mcpAuthorization, if_pos hmode, if_pos hmode', howner,
      hprofile] <;> simp only [Settings.used, Authorization.used, if_pos hmode]

theorem used_allowed (h : c.Allowed) : c.used.Allowed := by
  have hsame := used_mode h
  rcases mode_cases h with hmode | hmode
  · have hne : ¬ c.mode = "oauth".toList := fun hoauth => oauth_ne_static (hoauth.symm.trans hmode)
    have hmode' : c.used.mode = "static".toList := hsame ▸ hmode
    refine ⟨h.hostname, h.allowedRoot, ?_, ?_, ?_⟩
    · rw [hmode']
      simp only [Settings.used, Authorization.used, if_neg hne]
      exact (by decide +kernel : validSelection "static".toList "owner-primary".toList "files-read".toList = true)
    · simp only [Settings.used, Authorization.used, if_neg hne, Authorization.exclusive]
      simp [Authorization.mode]
    · have hsecrets := h.secrets
      unfold Authorization.separateSecrets at hsecrets ⊢
      rw [secrets_static hmode] at hsecrets
      rw [secrets_static hmode']
      simp only [Settings.used, Authorization.used, if_neg hne]
      exact hsecrets
  · have hmode' : c.used.mode = "oauth".toList := hsame ▸ hmode
    have hselection := h.selection
    have hsecrets := h.secrets
    refine ⟨h.hostname, h.allowedRoot, ?_, ?_, ?_⟩
    · rw [hmode] at hselection
      rw [hmode']
      simp only [Settings.used, Authorization.used, if_pos hmode]
      exact hselection
    · simp only [Settings.used, Authorization.used, if_pos hmode, Authorization.exclusive]
      simp [Authorization.mode]
    · unfold Authorization.separateSecrets at hsecrets ⊢
      rw [secrets_oauth hmode] at hsecrets
      rw [secrets_oauth hmode']
      simp only [Settings.used, Authorization.used, if_pos hmode]
      exact hsecrets

end Configuration

end BegetBridge.InstallCandidate
