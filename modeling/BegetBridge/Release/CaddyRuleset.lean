import BegetBridge.Core.Json
import BegetBridge.Release.CaddyListeners

/-!
# The packet filter of a dedicated host

The inventory of the packet filter is accepted if its chains filter, and its rules match, count, limit and decide. What
is digested of it has no handles, no counters and no metadata, and its numbers as the host reads them.

## Main definitions

* `validateCleanCaddyNftRuleset`: how an inventory is examined
* `Verdict`, `traverse`, `hookVerdict`: what becomes of a packet, in a chain and at a hook
* `configuration`: an inventory without handles, counters and metadata

## Main results

* `nft_spec`: what is known of an inventory that is accepted
* `traverse_ends`: a packet is not led elsewhere
* `ingress_gate_sound`: what the two examinations prove
-/

namespace BegetBridge.CaddyHost

open Core

/-! ## The examination -/

def STATEMENTS : List String := ["match", "counter", "accept", "drop", "reject", "limit"]

def OPERATORS : List String := ["==", "!=", "in", "<", ">", "<=", ">=", "&"]

/-- `Object.entries(value)` -/
def entriesOf : Json → List (String × Json)
  | .object members => members
  | .array items => items.zipIdx.map fun x => (toString x.2, x.1)
  | _ => []

/-- `value && typeof value === "object" && !Array.isArray(value)` -/
def isObject : Json → Bool
  | .object _ => true
  | _ => false

/-- `value` is one of the texts. -/
def isOneOf (texts : List String) : Option Json → Bool
  | some (.string s) => decide (s ∈ texts)
  | _ => false

/-- A name of at most 128 units. -/
def validName : Option Json → Bool
  | some (.string s) => decide (0 < utf16Length s) && decide (utf16Length s ≤ 128)
  | _ => false

/-- `Object.keys(value).every(key => keys.includes(key))` -/
def keysWithin (members : List (String × Json)) (keys : List String) : Bool := members.all fun m => decide (m.1 ∈ keys)

/-- `${value}`, of a member. -/
def templated (members : List (String × Json)) (name : String) : String := (field members name).elim "undefined" Json.text

section Examination

variable {δ : Type} (digest : List Json → δ) (double : ℚ → Number)

/-- A number, as it is read. -/
def readNumber : Json → Option ℚ
  | .number (.finite q) =>
    match double q with
    | .finite r => some r
    | _ => none
  | _ => none

/-- `Number.isSafeInteger(value)` -/
def isSafeInteger (value : Json) : Bool := (readNumber double value).elim false fun r => r.den == 1 && |r| ≤ maxSafeInteger

/-- A counter, with whole numbers that are not negative. -/
def isCounter : Json → Bool
  | .object members => keysWithin members ["packets", "bytes"] &&
      members.all fun m => isSafeInteger double m.2 && (readNumber double m.2).elim false fun r => decide (0 ≤ r)
  | _ => false

/-- `left`, `op` and `right`, and nothing else. -/
def isMatch : Json → Bool
  | .object members => members.length == 3 && (["left", "op", "right"].all fun key => (field members key).isSome) &&
      isOneOf OPERATORS (field members "op")
  | _ => false

def isNull : Json → Bool
  | .null => true
  | _ => false

/-- What is checked of a statement, where it is one of some. -/
def checkIf (concerned ok : Bool) (reason : String) : Except String Unit := check (!concerned || ok) reason

/-- An expression of a rule. -/
def cleanExpression (expression : Json) : Except String Json :=
  match entriesOf expression with
  | [(statement, body)] => do
    check (decide (statement ∈ STATEMENTS)) "nft rule could reroute ingress"
    if statement = "counter" then
      check (isCounter double body) "unsupported nft counter"
      -- Packet counters are volatile, not configuration.
      pure (.object [("counter", .object [])])
    else
      checkIf (decide (statement ∈ ["accept", "drop"])) (isNull body) "invalid nft verdict"
      checkIf (statement == "match") (isMatch body) "invalid nft match"
      checkIf (decide (statement ∈ ["reject", "limit"])) (isObject body) "invalid nft filter expression"
      pure expression
  | _ => .error "Clean Caddy host inventory: invalid nft expression"

/-- `clean.expr.map(…)` -/
def cleanExpressions : List Json → Except String (List Json)
  | [] => pure []
  | expression :: expressions => do
    let first ← cleanExpression double expression
    let rest ← cleanExpressions expressions
    pure (first :: rest)

/-- What was seen of the inventory. -/
structure Seen where
  normalized : List Json
  tables : List String
  chains : List String
  metadata : Nat

def Seen.normalize (seen : Seen) (kind : String) (clean : List (String × Json)) : Seen :=
  { seen with normalized := seen.normalized ++ [.object [(kind, .object clean)]] }

/-- A hook of a chain that filters. -/
def validHook (clean : List (String × Json)) : Bool :=
  isOneOf ["filter"] (field clean "type") && isOneOf ["input", "output", "forward"] (field clean "hook") &&
    (field clean "prio").elim false (isSafeInteger double) && isOneOf ["accept", "drop"] (field clean "policy")

def inspectTable (clean : List (String × Json)) (seen : Seen) : Except String Seen := do
  check (keysWithin clean ["family", "name"] && validName (field clean "name")) "unsupported nft table attributes"
  let key := templated clean "family" ++ "/" ++ templated clean "name"
  check (decide (key ∉ seen.tables)) "duplicate nft table"
  pure ({ seen with tables := seen.tables ++ [key] }.normalize "table" clean)

/-- A chain has a whole hook, or nothing of one. -/
def checkHook (clean : List (String × Json)) : Except String Unit :=
  if (field clean "hook").isSome then check (validHook double clean) "nft hook could reroute ingress"
  else check (["type", "prio", "policy"].all fun key => (field clean key).isNone) "incomplete nft chain"

def inspectChain (clean : List (String × Json)) (seen : Seen) : Except String Seen := do
  check (keysWithin clean ["family", "table", "name", "type", "hook", "prio", "policy"] &&
    validName (field clean "name")) "unsupported nft chain attributes"
  checkHook double clean
  let key := templated clean "family" ++ "/" ++ templated clean "table" ++ "/" ++ templated clean "name"
  check (decide (key ∉ seen.chains)) "duplicate nft chain"
  pure ({ seen with chains := seen.chains ++ [key] }.normalize "chain" clean)

/-- The members with another value under a name. -/
def replaced (members : List (String × Json)) (name : String) (value : Json) : List (String × Json) :=
  members.map fun m => if m.1 = name then (m.1, value) else m

def itemsOf : Option Json → List Json
  | some (.array items) => items
  | _ => []

def inspectRule (clean : List (String × Json)) (seen : Seen) : Except String Seen := do
  let key := templated clean "family" ++ "/" ++ templated clean "table" ++ "/" ++ templated clean "chain"
  let expressions := itemsOf (field clean "expr")
  check (keysWithin clean ["family", "table", "chain", "expr", "comment"] && decide (key ∈ seen.chains) &&
    decide (0 < expressions.length) && decide (expressions.length ≤ 64)) "unbound or invalid nft rule"
  let expressions ← cleanExpressions double expressions
  pure (seen.normalize "rule" (replaced clean "expr" (.array expressions)))

/-- `value` without its handle. -/
def withoutHandle (members : List (String × Json)) : List (String × Json) :=
  members.filter fun m => decide (m.1 ≠ "handle")

/-- An object of the inventory. -/
def inspectItem (item : Json) (seen : Seen) : Except String Seen :=
  match entriesOf item with
  | [(kind, .object value)] =>
    if kind = "metainfo" then do
      check (seen.metadata == 0 && ((field value "json_schema_version").bind (readNumber double)) == some 1)
        "unsupported nft schema"
      pure { seen with metadata := seen.metadata + 1 }
    else do
      check (decide (kind ∈ ["table", "chain", "rule"]) && isOneOf ["ip", "ip6", "inet"] (field value "family"))
        "unsupported nft family or object"
      let clean := withoutHandle value
      if kind = "table" then inspectTable clean seen
      else do
        check (((field clean "table").elim false fun | .string _ => true | _ => false) &&
          decide (templated clean "family" ++ "/" ++ templated clean "table" ∈ seen.tables)) "unbound nft table"
        if kind = "chain" then inspectChain double clean seen else inspectRule double clean seen
  | [_] => .error "Clean Caddy host inventory: invalid nft object body"
  | _ => .error "Clean Caddy host inventory: invalid nft object"

def inspectItems : List Json → Seen → Except String Seen
  | [], seen => pure seen
  | item :: items, seen => do
    let seen ← inspectItem double item seen
    inspectItems items seen

/-- What is reported of an inventory. -/
structure NftReport (δ : Type) where
  nftSha256 : δ
  nftObjects : Nat

/-- `parsed.nftables`, where `parsed` has nothing else. -/
def nftables : Json → Option (List Json)
  | .object [("nftables", .array items)] => some items
  | _ => none

/-- `validateCleanCaddyNftRuleset(output)`, where the output is short enough if it is available, and parsed if it is
JSON. -/
def validateCleanCaddyNftRuleset (available : Bool) (parsed : Option Json) : Except String (NftReport δ) := do
  check available "nft inventory unavailable"
  check parsed.isSome "invalid nft JSON"
  let items := (parsed.bind nftables).getD []
  check ((parsed.bind nftables).isSome && decide (items.length ≤ 16384)) "invalid nft inventory"
  let seen ← inspectItems double items ⟨[], [], [], 0⟩
  check (seen.metadata == 1) "missing nft schema metadata"
  pure ⟨digest (seen.normalized.map (Json.reprinted double)), seen.normalized.length⟩

end Examination

/-! ## What becomes of a packet -/

/-- What an inventory decides about a packet, in a chain or at a hook. -/
inductive Verdict
  | accept
  | drop
  | reject
  | policy (value : Option Json)
  -- A jump, a redirection, a rewriting, a queue, or anything else.
  | elsewhere

/-- What an expression does: the rule goes on, it does not apply, or the chain has a verdict. -/
inductive Effect
  | next
  | skip
  | ends (v : Verdict)

/-- A chain, by its family, its table and its name. -/
structure ChainId where
  family : String
  table : String
  name : String
  deriving DecidableEq

structure Chain where
  id : ChainId
  hook : Option Json
  prio : Option Json
  policy : Option Json

/-- The chain of an object of the inventory. -/
def chainOf : Json → Option Chain
  | .object [("chain", .object m)] =>
    match field m "family", field m "table", field m "name" with
    | some (.string family), some (.string table), some (.string name) =>
      some ⟨⟨family, table, name⟩, field m "hook", field m "prio", field m "policy"⟩
    | _, _, _ => none
  | _ => none

/-- The expressions of a rule of a chain. -/
def ruleOf (id : ChainId) : Json → Option (List Json)
  | .object [("rule", .object m)] =>
    match field m "family", field m "table", field m "chain" with
    | some (.string family), some (.string table), some (.string chain) =>
      if (⟨family, table, chain⟩ : ChainId) = id then some (itemsOf (field m "expr")) else none
    | _, _, _ => none
  | _ => none

section Packets

variable {P : Type} (holds : String → Json → P → Bool)

/-- An expression, where `holds` says which packets a match and a limit let pass. -/
def effectOf (p : P) : Json → Effect
  | .object [("match", body)] => if holds "match" body p then .next else .skip
  | .object [("limit", body)] => if holds "limit" body p then .next else .skip
  | .object [("counter", _)] => .next
  | .object [("accept", _)] => .ends .accept
  | .object [("drop", _)] => .ends .drop
  | .object [("reject", _)] => .ends .reject
  | _ => .ends .elsewhere

/-- The expressions of a rule, in their order. -/
def ruleEffect (p : P) : List Json → Effect
  | [] => .next
  | expression :: expressions =>
    match effectOf holds p expression with
    | .next => ruleEffect p expressions
    | effect => effect

/-- The rules of a chain, in their order. -/
def rulesVerdict (p : P) (policy : Option Json) : List (List Json) → Verdict
  | [] => .policy policy
  | rule :: rules =>
    match ruleEffect holds p rule with
    | .ends v => v
    | _ => rulesVerdict p policy rules

/-- A packet in a chain. -/
def traverse (p : P) (items : List Json) (chain : Chain) : Verdict :=
  rulesVerdict holds p chain.policy (items.filterMap (ruleOf chain.id))

/-- A packet in some chains, one after another, as long as it is accepted. -/
def through (p : P) (items : List Json) : List Chain → Verdict
  | [] => .accept
  | chain :: chains =>
    match traverse holds p items chain with
    | .accept => through p items chains
    | .policy (some (.string "accept")) => through p items chains
    | v => v

/-- The priority of a chain. -/
def Chain.priority (chain : Chain) : ℚ :=
  match chain.prio with
  | some (.number (.finite q)) => q
  | _ => 0

/-- The chains of a hook that a packet comes to, by their priority. -/
def chainsAt (sees : String → P → Bool) (p : P) (hook : String) (items : List Json) : List Chain :=
  ((items.filterMap chainOf).filter fun c => isOneOf [hook] c.hook && sees c.id.family p).insertionSort
    fun a b => a.priority ≤ b.priority

/-- **A packet at a hook.** -/
def hookVerdict (sees : String → P → Bool) (p : P) (hook : String) (items : List Json) : Verdict :=
  through holds p items (chainsAt sees p hook items)

end Packets

/-! ## What counts of an inventory -/

/-- An expression without what was counted. -/
def stripExpression : Json → Json
  | .object [("counter", _)] => .object [("counter", .object [])]
  | expression => expression

/-- The members of a rule without handle, and without what was counted. -/
def stripMembers (members : List (String × Json)) : List (String × Json) :=
  replaced (withoutHandle members) "expr"
    (.array ((itemsOf (field (withoutHandle members) "expr")).map stripExpression))

/-- An object of the inventory without handle and without what was counted. Metadata count for nothing. -/
def stripItem : Json → Option Json
  | .object [("metainfo", _)] => none
  | .object [("rule", .object members)] => some (.object [("rule", .object (stripMembers members))])
  | .object [(kind, .object members)] => some (.object [(kind, .object (withoutHandle members))])
  | _ => none

/-- **An inventory without handles, counters and metadata.** -/
def configuration (items : List Json) : List Json := items.filterMap stripItem

/-! ## What is known of an inventory that is accepted -/

section Accepted

variable {double : ℚ → Number} {members : List (String × Json)} {name : String} {value item expression : Json}
  {seen seen' : Seen}

theorem field_withoutHandle (hname : name ≠ "handle") : field (withoutHandle members) name = field members name := by
  unfold field withoutHandle
  rw [← List.filter_reverse, List.find?_filter]
  congr 2
  funext m
  by_cases hm : m.1 = name
  · simp [hm, hname]
  · simp [hm]

theorem field_replaced {name' : String} : field (replaced members name value) name' =
    if name' = name then (field members name').map fun _ => value else field members name' := by
  have hcomp : ((fun m : String × Json => m.1 == name') ∘ fun m => if m.1 = name then (m.1, value) else m) =
      fun m => m.1 == name' := by
    funext m
    by_cases hm : m.1 = name
    · simp [hm]
    · simp [hm]
  unfold field replaced
  rw [← List.map_reverse, List.find?_map, hcomp, Option.map_map]
  cases hfound : members.reverse.find? (fun m => m.1 == name') with
  | none => simp
  | some m =>
    have hm : m.1 = name' := eq_of_beq (List.find?_some (p := fun m : String × Json => m.1 == name') hfound)
    by_cases hname : name' = name
    · simp [hm, hname]
    · simp [hm, hname]

/-- An object with one member. An array has no other name than a number. -/
theorem entriesOf_single {kind : String} (h : entriesOf item = [(kind, value)]) (hkind : kind ≠ "0") :
    item = .object [(kind, value)] := by
  cases item with
  | object members => exact congrArg Json.object h
  | array items =>
    cases items with
    | nil => cases h
    | cons x items =>
      have hhead := congrArg List.head? h
      have hzero : toString (0 : Nat) = kind := congrArg Prod.fst (Option.some.inj hhead)
      exact absurd (hzero.symm.trans (by decide)) hkind
  | null | bool | number | string => cases h

/-- One of the statements that do not lead elsewhere. -/
def Ordinary (expression : Json) : Prop := ∃ statement ∈ STATEMENTS, ∃ body, expression = .object [(statement, body)]

/-- An expression that is accepted. -/
theorem cleanExpression_spec {clean : Json} (h : cleanExpression double expression = .ok clean) :
    clean = stripExpression expression ∧ Ordinary expression := by
  unfold cleanExpression at h
  split at h
  · next statement body hentries =>
    obtain ⟨_, hstatement, h⟩ := bind_ok h
    have hmem : statement ∈ STATEMENTS := of_decide_eq_true (check_ok hstatement)
    have hsingle := entriesOf_single hentries (by
      rintro rfl
      exact absurd hmem (by decide))
    refine ⟨?_, statement, hmem, body, hsingle⟩
    rw [hsingle]
    split at h
    · next hcounter =>
      obtain ⟨_, -, h⟩ := bind_ok h
      rw [← Except.ok.inj h, hcounter]
      rfl
    · next hcounter =>
      obtain ⟨_, -, h⟩ := bind_ok h
      obtain ⟨_, -, h⟩ := bind_ok h
      obtain ⟨_, -, h⟩ := bind_ok h
      rw [← Except.ok.inj h, hsingle]
      simp [stripExpression, hcounter]
  · cases h

theorem cleanExpressions_spec {expressions clean : List Json} (h : cleanExpressions double expressions = .ok clean) :
    clean = expressions.map stripExpression ∧ ∀ e ∈ expressions, Ordinary e := by
  induction expressions generalizing clean with
  | nil =>
    obtain rfl := Except.ok.inj h
    exact ⟨rfl, fun _ he => absurd he List.not_mem_nil⟩
  | cons e expressions ih =>
    obtain ⟨first, hfirst, h⟩ := bind_ok h
    obtain ⟨rest, hrest, h⟩ := bind_ok h
    obtain rfl := Except.ok.inj h
    obtain ⟨rfl, hordinary⟩ := cleanExpression_spec hfirst
    obtain ⟨rfl, hall⟩ := ih hrest
    exact ⟨rfl, fun e' he => (List.mem_cons.mp he).elim (fun heq => heq ▸ hordinary) (hall e')⟩

/-- What is known of an object that is accepted: its rules are ordinary, and its hooks have a policy. -/
structure Plain (item : Json) : Prop where
  rules : ∀ id expressions, ruleOf id item = some expressions → ∀ e ∈ expressions, Ordinary e
  hooks : ∀ c, chainOf item = some c → c.hook ≠ none → isOneOf ["accept", "drop"] c.policy = true

theorem plain_of_other {kind : String} (hchain : kind ≠ "chain") (hrule : kind ≠ "rule") :
    Plain (.object [(kind, value)]) :=
  ⟨fun _ _ h => by simp [ruleOf, hrule] at h, fun _ h => by simp [chainOf, hchain] at h⟩

theorem inspectTable_spec (h : inspectTable (withoutHandle members) seen = .ok seen') :
    seen'.normalized = seen.normalized ++ (stripItem (.object [("table", .object members)])).toList := by
  obtain ⟨_, -, h⟩ := bind_ok h
  obtain ⟨_, -, h⟩ := bind_ok h
  rw [← Except.ok.inj h]
  rfl

theorem inspectChain_spec (h : inspectChain double (withoutHandle members) seen = .ok seen') :
    seen'.normalized = seen.normalized ++ (stripItem (.object [("chain", .object members)])).toList ∧
      ((field members "hook").isSome → isOneOf ["accept", "drop"] (field members "policy") = true) := by
  obtain ⟨_, -, h⟩ := bind_ok h
  obtain ⟨_, hhook, h⟩ := bind_ok h
  obtain ⟨_, -, h⟩ := bind_ok h
  refine ⟨?_, fun hsome => ?_⟩
  · rw [← Except.ok.inj h]
    rfl
  · rw [checkHook, field_withoutHandle (by decide), if_pos hsome] at hhook
    have hvalid := check_ok hhook
    simp only [validHook, Bool.and_eq_true] at hvalid
    have hpolicy : field (withoutHandle members) "policy" = field members "policy" := field_withoutHandle (by decide)
    exact hpolicy ▸ hvalid.2

theorem inspectRule_spec (h : inspectRule double (withoutHandle members) seen = .ok seen') :
    seen'.normalized = seen.normalized ++ (stripItem (.object [("rule", .object members)])).toList ∧
      ∀ e ∈ itemsOf (field members "expr"), Ordinary e := by
  obtain ⟨_, -, h⟩ := bind_ok h
  obtain ⟨clean, hclean, h⟩ := bind_ok h
  obtain ⟨rfl, hordinary⟩ := cleanExpressions_spec hclean
  refine ⟨?_, ?_⟩
  · rw [← Except.ok.inj h]
    rfl
  · rwa [field_withoutHandle (by decide)] at hordinary

/-- The chain of an object has its members. -/
theorem chainOf_eq {c : Chain} (h : chainOf (.object [("chain", .object members)]) = some c) :
    c.hook = field members "hook" ∧ c.policy = field members "policy" := by
  unfold chainOf at h
  split at h
  · next m hm =>
    obtain rfl : members = m := by simpa using hm
    split at h
    · obtain rfl := Option.some.inj h
      exact ⟨rfl, rfl⟩
    · cases h
  · cases h

/-- The rule of an object has its expressions. -/
theorem ruleOf_eq {id : ChainId} {expressions : List Json}
    (h : ruleOf id (.object [("rule", .object members)]) = some expressions) :
    expressions = itemsOf (field members "expr") := by
  unfold ruleOf at h
  split at h
  · next m hm =>
    obtain rfl : members = m := by simpa using hm
    split at h
    · split at h
      · exact (Option.some.inj h).symm
      · cases h
    · cases h
  · cases h

/-- **An object that is accepted.** -/
theorem inspectItem_spec (h : inspectItem double item seen = .ok seen') :
    seen'.normalized = seen.normalized ++ (stripItem item).toList ∧ Plain item := by
  unfold inspectItem at h
  split at h
  · next kind members hentries =>
    split at h
    · next hkind =>
      rw [entriesOf_single hentries (hkind ▸ by decide), hkind]
      obtain ⟨_, -, h⟩ := bind_ok h
      refine ⟨?_, plain_of_other (by decide) (by decide)⟩
      rw [← Except.ok.inj h]
      exact (List.append_nil _).symm
    · next hmetainfo =>
      obtain ⟨_, hkinds, h⟩ := bind_ok h
      have hkinds := check_ok hkinds
      rw [Bool.and_eq_true, decide_eq_true_eq] at hkinds
      have hzero : kind ≠ "0" := by
        rintro rfl
        exact absurd hkinds.1 (by decide)
      rw [entriesOf_single hentries hzero]
      dsimp only at h
      split at h
      · next htable =>
        rw [htable]
        exact ⟨inspectTable_spec h, plain_of_other (by decide) (by decide)⟩
      · next htable =>
        obtain ⟨_, -, h⟩ := bind_ok h
        split at h
        · next hchain =>
          rw [hchain]
          obtain ⟨hnormalized, hpolicy⟩ := inspectChain_spec h
          refine ⟨hnormalized, fun _ _ h => by simp [ruleOf] at h, fun c hc hhook => ?_⟩
          obtain ⟨hhook', hpolicy'⟩ := chainOf_eq hc
          rw [hpolicy']
          exact hpolicy (Option.isSome_iff_ne_none.mpr (hhook' ▸ hhook))
        · next hchain =>
          have hrule : kind = "rule" := by simpa [htable, hchain] using hkinds.1
          rw [hrule]
          obtain ⟨hnormalized, hordinary⟩ := inspectRule_spec h
          refine ⟨hnormalized, fun id expressions hexpressions => ?_, fun _ h => by simp [chainOf] at h⟩
          rw [ruleOf_eq hexpressions]
          exact hordinary
  · cases h
  · cases h

/-- The objects, by induction on them. -/
theorem inspectItems_spec {items : List Json} (h : inspectItems double items seen = .ok seen') :
    seen'.normalized = seen.normalized ++ configuration items ∧ ∀ item ∈ items, Plain item := by
  induction items generalizing seen with
  | nil =>
    obtain rfl := Except.ok.inj h
    exact ⟨(List.append_nil _).symm, fun _ hitem => absurd hitem List.not_mem_nil⟩
  | cons item items ih =>
    obtain ⟨seen₁, hitem, h⟩ := bind_ok h
    obtain ⟨hnormalized, hplain⟩ := inspectItem_spec hitem
    obtain ⟨hrest, hplains⟩ := ih h
    refine ⟨?_, fun x hx => (List.mem_cons.mp hx).elim (fun he => he ▸ hplain) (hplains x)⟩
    rw [hrest, hnormalized, List.append_assoc, configuration, configuration, List.filterMap_cons]
    cases stripItem item with
    | none => rfl
    | some x => rfl

/-- **What is known of an inventory that is accepted**: what is digested is its configuration as it is read, and its
objects are plain. -/
theorem nft_spec {δ : Type} {digest : List Json → δ} {available : Bool} {parsed : Option Json} {report : NftReport δ}
    (h : validateCleanCaddyNftRuleset digest double available parsed = .ok report) :
    ∃ items, parsed.bind nftables = some items ∧ (∀ item ∈ items, Plain item) ∧
      report.nftSha256 = digest ((configuration items).map (Json.reprinted double)) := by
  obtain ⟨_, -, h⟩ := bind_ok h
  obtain ⟨_, -, h⟩ := bind_ok h
  obtain ⟨_, hitems, h⟩ := bind_ok h
  obtain ⟨seen, hseen, h⟩ := bind_ok h
  obtain ⟨_, -, h⟩ := bind_ok h
  have hsome := (Bool.and_eq_true _ _ ▸ check_ok hitems).1
  obtain ⟨items, hsome⟩ := Option.isSome_iff_exists.mp hsome
  rw [hsome, Option.getD_some] at hseen
  obtain ⟨hnormalized, hplain⟩ := inspectItems_spec hseen
  rw [List.nil_append] at hnormalized
  refine ⟨items, hsome, hplain, ?_⟩
  rw [← Except.ok.inj h, hnormalized]

end Accepted

/-! ## A packet is not led elsewhere -/

section Traversal

variable {P : Type} {holds : String → Json → P → Bool} {p : P}

/-- How a packet may leave a chain. -/
def Ends (policy : Option Json) (v : Verdict) : Prop := v = .accept ∨ v = .drop ∨ v = .reject ∨ v = .policy policy

/-- The rule goes on, it does not apply, or the packet is accepted, dropped or rejected. -/
def Decides (effect : Effect) : Prop :=
  effect = .next ∨ effect = .skip ∨ effect = .ends .accept ∨ effect = .ends .drop ∨ effect = .ends .reject

theorem decides_effectOf {e : Json} (h : Ordinary e) : Decides (effectOf holds p e) := by
  obtain ⟨statement, hstatement, body, rfl⟩ := h
  simp only [STATEMENTS, List.mem_cons, List.not_mem_nil, or_false] at hstatement
  rcases hstatement with rfl | rfl | rfl | rfl | rfl | rfl
  · change Decides (if holds "match" body p then .next else .skip)
    split
    · exact .inl rfl
    · exact .inr (.inl rfl)
  · exact .inl rfl
  · exact .inr (.inr (.inl rfl))
  · exact .inr (.inr (.inr (.inl rfl)))
  · exact .inr (.inr (.inr (.inr rfl)))
  · change Decides (if holds "limit" body p then .next else .skip)
    split
    · exact .inl rfl
    · exact .inr (.inl rfl)

theorem decides_ruleEffect {expressions : List Json} (h : ∀ e ∈ expressions, Ordinary e) :
    Decides (ruleEffect holds p expressions) := by
  induction expressions with
  | nil => exact .inl rfl
  | cons e expressions ih =>
    have hfirst : Decides (effectOf holds p e) := decides_effectOf (h e List.mem_cons_self)
    unfold ruleEffect
    split
    · exact ih fun e' he => h e' (List.mem_cons_of_mem _ he)
    · exact hfirst

theorem ends_rulesVerdict {rules : List (List Json)} {policy : Option Json} (h : ∀ r ∈ rules, ∀ e ∈ r, Ordinary e) :
    Ends policy (rulesVerdict holds p policy rules) := by
  induction rules with
  | nil => exact .inr (.inr (.inr rfl))
  | cons r rules ih =>
    have hrest := ih fun r' hr => h r' (List.mem_cons_of_mem _ hr)
    have hrule : Decides (ruleEffect holds p r) := decides_ruleEffect (h r List.mem_cons_self)
    unfold rulesVerdict
    rcases hrule with heffect | heffect | heffect | heffect | heffect <;> rw [heffect]
    · exact hrest
    · exact hrest
    · exact .inl rfl
    · exact .inr (.inl rfl)
    · exact .inr (.inr (.inl rfl))

/-- **A packet leaves a chain by a verdict or by its policy.** -/
theorem traverse_ends {items : List Json} {chain : Chain} (h : ∀ item ∈ items, Plain item) :
    Ends chain.policy (traverse holds p items chain) := by
  apply ends_rulesVerdict
  intro r hr
  obtain ⟨item, hitem, hrule⟩ := List.mem_filterMap.mp hr
  exact (h item hitem).rules _ _ hrule

/-! ## What counts decides -/

theorem effectOf_strip (e : Json) : effectOf holds p (stripExpression e) = effectOf holds p e := by
  unfold stripExpression
  split
  · rfl
  · rfl

theorem ruleEffect_strip (expressions : List Json) :
    ruleEffect holds p (expressions.map stripExpression) = ruleEffect holds p expressions := by
  induction expressions with
  | nil => rfl
  | cons e expressions ih => simp only [List.map_cons, ruleEffect, effectOf_strip, ih]

theorem rulesVerdict_strip {policy : Option Json} (rules : List (List Json)) :
    rulesVerdict holds p policy (rules.map (List.map stripExpression)) = rulesVerdict holds p policy rules := by
  induction rules with
  | nil => rfl
  | cons r rules ih => simp only [List.map_cons, rulesVerdict, ruleEffect_strip, ih]

theorem chainOf_strip (item : Json) : (stripItem item).bind chainOf = chainOf item := by
  unfold stripItem
  split
  · rfl
  · rfl
  · next kind members _ _ =>
    rw [Option.bind_some]
    by_cases hchain : kind = "chain"
    · subst hchain
      simp only [chainOf]
      rw [field_withoutHandle (by decide), field_withoutHandle (by decide), field_withoutHandle (by decide),
        field_withoutHandle (by decide), field_withoutHandle (by decide), field_withoutHandle (by decide)]
    · simp [chainOf, hchain]
  · next hother =>
    unfold chainOf
    split
    · next m _ _ => exact absurd rfl (hother "chain" m)
    · rfl

theorem field_stripMembers {members : List (String × Json)} {name : String} (hhandle : name ≠ "handle")
    (hexpr : name ≠ "expr") : field (stripMembers members) name = field members name := by
  rw [stripMembers, field_replaced, if_neg hexpr, field_withoutHandle hhandle]

theorem itemsOf_stripMembers {members : List (String × Json)} :
    itemsOf (field (stripMembers members) "expr") = (itemsOf (field members "expr")).map stripExpression := by
  rw [stripMembers, field_replaced, if_pos rfl, field_withoutHandle (by decide)]
  cases field members "expr" with
  | none => rfl
  | some value => rfl

theorem ruleOf_strip (id : ChainId) (item : Json) :
    (stripItem item).bind (ruleOf id) = (ruleOf id item).map (List.map stripExpression) := by
  unfold stripItem
  split
  · rfl
  · next members =>
    rw [Option.bind_some]
    simp only [ruleOf]
    rw [field_stripMembers (by decide) (by decide), field_stripMembers (by decide) (by decide),
      field_stripMembers (by decide) (by decide), itemsOf_stripMembers]
    split
    · split
      · rfl
      · rfl
    · rfl
  · next kind members _ hrule =>
    have hne : kind ≠ "rule" := hrule
    rw [Option.bind_some]
    simp [ruleOf, hne]
  · next hother =>
    unfold ruleOf
    split
    · next m _ _ => exact absurd rfl (hother "rule" m)
    · rfl

theorem traverse_configuration {items : List Json} {chain : Chain} :
    traverse holds p (configuration items) chain = traverse holds p items chain := by
  unfold traverse configuration
  rw [List.filterMap_filterMap]
  simp only [ruleOf_strip]
  rw [← List.map_filterMap, rulesVerdict_strip]

/-- **What becomes of a packet depends on the configuration only.** -/
theorem hookVerdict_configuration {sees : String → P → Bool} {hook : String} {items : List Json} :
    hookVerdict holds sees p hook (configuration items) = hookVerdict holds sees p hook items := by
  have hchains : (configuration items).filterMap chainOf = items.filterMap chainOf := by
    unfold configuration
    rw [List.filterMap_filterMap]
    simp only [chainOf_strip]
  have hthrough : ∀ chains, through holds p (configuration items) chains = through holds p items chains := by
    intro chains
    induction chains with
    | nil => rfl
    | cons chain chains ih => simp only [through, traverse_configuration, ih]
  rw [hookVerdict, hthrough, chainsAt, hchains]
  rfl

end Traversal

/-! ## What the examinations prove -/

/-- The configuration is printed as it stands: its numbers are read without loss. -/
def Faithful (double : ℚ → Number) (items : List Json) : Prop :=
  (configuration items).map (Json.reprinted double) = configuration items

/-- **What the two examinations prove.** Every socket that listens is on a loopback address and not of the web, or it is the
public listener, of which there is one, or it is the shell of root. A packet leaves every chain by a verdict or by its
policy, which for a chain with a hook is to accept or to drop. And two inventories of one digest whose numbers are read
without loss have one configuration, and decide alike. -/
theorem ingress_gate_sound {δ : Type} {digest : List Json → δ} {double : ℚ → Number} {publicKernelInode : List Char}
    {ownerUid : Nat} {outputs : SocketTable → String} {inventory : List InventoryEntry}
    (hlisteners : validateCleanCaddyHostListeners publicKernelInode ownerUid outputs = .ok inventory)
    {parsed : Json} {items : List Json} {report : NftReport δ} (hitems : nftables parsed = some items)
    (hruleset : validateCleanCaddyNftRuleset digest double true (some parsed) = .ok report) :
    ((∀ table line s, line ∈ rowsOf (outputs table) → socketOf table line = some s →
        Allowed publicKernelInode ownerUid s) ∧
      ((socketsOf outputs SocketTable.all).countP fun s => decide (Public publicKernelInode ownerUid s)) = 1) ∧
    (∀ item ∈ items, ∀ chain, chainOf item = some chain →
      (chain.hook ≠ none → isOneOf ["accept", "drop"] chain.policy = true) ∧
        ∀ (P : Type) (holds : String → Json → P → Bool) (p : P), Ends chain.policy (traverse holds p items chain)) ∧
    ∀ parsed' items' report', nftables parsed' = some items' →
      validateCleanCaddyNftRuleset digest double true (some parsed') = .ok report' → Function.Injective digest →
      report'.nftSha256 = report.nftSha256 → Faithful double items → Faithful double items' →
        configuration items' = configuration items ∧
          ∀ (P : Type) (holds : String → Json → P → Bool) (sees : String → P → Bool) (p : P) (hook : String),
            hookVerdict holds sees p hook items' = hookVerdict holds sees p hook items := by
  have hspec : ∀ {parsed : Json} {items : List Json} {report : NftReport δ}, nftables parsed = some items →
      validateCleanCaddyNftRuleset digest double true (some parsed) = .ok report →
      (∀ item ∈ items, Plain item) ∧ report.nftSha256 = digest ((configuration items).map (Json.reprinted double)) := by
    intro parsed items report hitems hruleset
    obtain ⟨items', hitems', hplain, hdigest⟩ := nft_spec hruleset
    obtain rfl := Option.some.inj (hitems.symm.trans hitems')
    exact ⟨hplain, hdigest⟩
  obtain ⟨hplain, hdigest⟩ := hspec hitems hruleset
  refine ⟨listeners_sound hlisteners, fun item hitem chain hchain => ?_, ?_⟩
  · exact ⟨(hplain item hitem).hooks chain hchain, fun P holds p => traverse_ends hplain⟩
  · intro parsed' items' report' hitems' hruleset' hinjective hsame hfaithful hfaithful'
    obtain ⟨-, hdigest'⟩ := hspec hitems' hruleset'
    rw [hdigest, hdigest', hfaithful, hfaithful'] at hsame
    have hconfiguration : configuration items' = configuration items := hinjective hsame
    refine ⟨hconfiguration, fun P holds sees p hook => ?_⟩
    rw [← hookVerdict_configuration, hconfiguration, hookVerdict_configuration]

/-! ## Numbers that are read with a loss -/

/-- Doubles, as far as these numbers are concerned. -/
def sampleDouble (q : ℚ) : Number := .finite (if q = 9007199254740993 then 9007199254740992 else q)

/-- A packet is dropped if its connection has carried more than a limit. -/
def sampleItems (handle limit : ℚ) : List Json :=
  [.object [("metainfo", .object [("json_schema_version", .number (.finite 1))])],
    .object [("table", .object [("family", .string "inet"), ("name", .string "filter"),
      ("handle", .number (.finite handle))])],
    .object [("chain", .object [("family", .string "inet"), ("table", .string "filter"), ("name", .string "input"),
      ("type", .string "filter"), ("hook", .string "input"), ("prio", .number (.finite 0)),
      ("policy", .string "accept")])],
    .object [("rule", .object [("family", .string "inet"), ("table", .string "filter"), ("chain", .string "input"),
      ("expr", .array [.object [("match", .object [("left", .object [("ct", .object [("key", .string "bytes")])]),
        ("op", .string ">"), ("right", .number (.finite limit))])], .object [("drop", .null)]])])]]

def sampleInventory (handle limit : ℚ) : Json := .object [("nftables", .array (sampleItems handle limit))]

/-- What a connection has carried is compared with the limit. -/
def sampleHolds (_ : String) (body : Json) (carried : ℚ) : Bool :=
  match body with
  | .object members =>
    match field members "right" with
    | some (.number (.finite limit)) => decide (limit < carried)
    | _ => false
  | _ => false

def sampleHeader : String := "sl local_address rem_address st tx_queue rx_queue tr tm->when retrnsmt uid timeout inode\n"

/-- The public listener, and nothing else. -/
def sampleTables : SocketTable → String
  | .tcp => sampleHeader ++ "0: 00000000:01BB 00000000:0000 0A 0:0 0:0 0 1001 0 2000\n"
  | _ => sampleHeader

/-- The public listener of another user is refused. -/
example : (validateCleanCaddyHostListeners "2000".toList 1002 sampleTables).toOption.isSome = false := by decide +kernel

theorem sampleTables_accepted : ∃ inventory,
    validateCleanCaddyHostListeners "2000".toList 1001 sampleTables = .ok inventory := by
  have hsome : (validateCleanCaddyHostListeners "2000".toList 1001 sampleTables).toOption.isSome = true := by
    decide +kernel
  cases h : validateCleanCaddyHostListeners "2000".toList 1001 sampleTables with
  | error e =>
    rw [h] at hsome
    cases hsome
  | ok inventory => exact ⟨inventory, rfl⟩

theorem sampleInventory_accepted (handle : ℚ) : ∃ report : NftReport (List Json),
    validateCleanCaddyNftRuleset id sampleDouble true (some (sampleInventory handle 9007199254740992)) = .ok report ∧
      report.nftSha256 = (configuration (sampleItems handle 9007199254740992)).map (Json.reprinted sampleDouble) :=
  ⟨_, rfl, rfl⟩

/-- The examinations of a host, and of its packet filter that was loaded again. -/
theorem ingress_gate_sound_sample :
    (∀ table line s, line ∈ rowsOf (sampleTables table) → socketOf table line = some s →
        Allowed "2000".toList 1001 s) ∧
      ∀ p : ℚ, hookVerdict sampleHolds (fun _ _ => true) p "input" (sampleItems 2 9007199254740992) =
        hookVerdict sampleHolds (fun _ _ => true) p "input" (sampleItems 1 9007199254740992) := by
  obtain ⟨inventory, hlisteners⟩ := sampleTables_accepted
  obtain ⟨report, hreport, hdigest⟩ := sampleInventory_accepted 1
  obtain ⟨report', hreport', hdigest'⟩ := sampleInventory_accepted 2
  have hsound := ingress_gate_sound hlisteners (show nftables (sampleInventory 1 9007199254740992) = some _ from rfl) hreport
  refine ⟨hsound.1.1, fun p => ?_⟩
  have hsame := hsound.2.2 _ (sampleItems 2 9007199254740992) report' rfl hreport' Function.injective_id
    (hdigest'.trans hdigest.symm) rfl rfl
  exact hsame.2 ℚ sampleHolds (fun _ _ => true) p "input"

/-- **Two inventories of one digest that decide otherwise.** A limit that is not a double is read as the number next to
it. -/
theorem digits_lost : ∃ report report' : NftReport (List Json),
    validateCleanCaddyNftRuleset id sampleDouble true (some (sampleInventory 1 9007199254740992)) = .ok report ∧
    validateCleanCaddyNftRuleset id sampleDouble true (some (sampleInventory 1 9007199254740993)) = .ok report' ∧
    report'.nftSha256 = report.nftSha256 ∧
    hookVerdict sampleHolds (fun _ _ => true) 9007199254740993 "input" (sampleItems 1 9007199254740992) = .drop ∧
    hookVerdict sampleHolds (fun _ _ => true) 9007199254740993 "input" (sampleItems 1 9007199254740993) = .accept :=
  ⟨_, _, rfl, rfl, rfl, rfl, rfl⟩

end BegetBridge.CaddyHost
