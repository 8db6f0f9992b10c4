import ProxyControl.Intents

/-!
# Native documents

Without the router, a backend runs a document of its own, and every backend has its own
way to lose something. NaiveProxy has one upstream for the whole service and a list of
what it denies; Mieru has first-match rules, whose domains match as suffixes; the others
go direct or through one upstream.

The compiler never quietly narrows a rule. `nativeReasons` lists what a document cannot
say, and a policy with a reason against it is not compiled. Only an unreachable `warp`
may be passed over, where the operator approved to go direct (`effective`).
-/

namespace Routing

open Table

/-! ## Targets -/

/-- What the manager of a backend declares that it can do; the router's section is a
target of another kind. -/
def Backend.cells : Backend → List String
  | .naiveNative => ["whole_direct", "whole_warp", "block_domain", "block_cidr"]
  | .mieruNative =>
    ["whole_direct", "whole_warp", "block_domain", "block_cidr", "selective_domain",
      "selective_cidr"]
  | .amneziawgNative => ["whole_direct", "whole_warp"]
  | .mtproxyNative | .trusttunnelNative => ["whole_direct"]
  | .xrayRouter => []

/-- **A service's native manager**, as it reports itself. -/
structure EgressTarget where
  backend : Backend
  capabilities : List String
  providers : Providers
  applied : Option AppliedDocument
  restartRequired : Bool
  warnings : List String
  runtimeVersion : Option String
  routerAttached : Bool

/-- A manager reports no more than what its backend's declares. -/
def EgressTarget.Declared (target : EgressTarget) : Prop :=
  ∀ cell ∈ target.capabilities, cell ∈ target.backend.cells

/-! ## Documents -/

inductive MieruAction
  | direct | reject | proxy
deriving DecidableEq, Repr

def MieruAction.asStr : MieruAction → String
  | .direct => "DIRECT"
  | .reject => "REJECT"
  | .proxy => "PROXY"

structure MieruRule where
  domains : List String
  cidrs : List String
  action : MieruAction
  proxy : Option String
deriving DecidableEq, Repr

/-- **What a backend runs.** -/
inductive Document
  | naive (upstream : Option String) (acl : List (List String))
  /-- The proxies by name, each with its provider. -/
  | mieru (proxies : List (String × String)) (rules : List MieruRule)
  /-- The whole service, direct or through one upstream: AmneziaWG and MTProxy. -/
  | whole (upstream : Option String)
  | trusttunnelDirect
  | router (intent : RouterIntent)

def upstreamJson (upstream : Option String) : Json :=
  upstream.elim .null fun provider => .obj [("provider", .str provider)]

def MieruRule.toJson (rule : MieruRule) : Json :=
  .obj [("domains", stringsJson rule.domains), ("cidrs", stringsJson rule.cidrs),
    ("action", .str rule.action.asStr), ("proxy", egressJson rule.proxy)]

def Document.toJson : Document → Json
  | .naive upstream acl =>
    .obj [("schema", .int 1), ("upstream", upstreamJson upstream),
      ("acl", .arr (acl.map fun deny => .obj [("deny", stringsJson deny)]))]
  | .mieru proxies rules =>
    .obj [("schema", .int 1),
      ("proxies", .arr (proxies.map fun proxy =>
        .obj [("name", .str proxy.1), ("provider", .str proxy.2)])),
      ("rules", .arr (rules.map MieruRule.toJson))]
  | .whole upstream => .obj [("schema", .int 1), ("upstream", upstreamJson upstream)]
  | .trusttunnelDirect => .obj [("mode", .str "direct")]
  | .router intent => intent.toJson

/-- The items in lines of at most `size`. -/
def chunks {α : Type} (size : Nat) : Nat → List α → List (List α)
  | 0, _ => []
  | _ + 1, [] => []
  | fuel + 1, item :: rest =>
    (item :: rest).take size :: chunks size fuel ((item :: rest).drop size)

def aclSubjectsPerLine : Nat := 64

def warpUpstream (defaultAction : DefaultAction) : Option String :=
  if defaultAction = .egress then some "warp" else none

/-- What a rule names, as it is written. -/
def RoutingRule.subjects (rule : RoutingRule) : List String :=
  rule.matcher.domains ++ rule.matcher.cidrs

def naiveDocument (defaultAction : DefaultAction) (rules : List RoutingRule) : Document :=
  let subjects := rules.flatMap RoutingRule.subjects
  .naive (warpUpstream defaultAction) (chunks aclSubjectsPerLine subjects.length subjects)

def amneziawgDocument (defaultAction : DefaultAction) : Document :=
  .whole (warpUpstream defaultAction)

def mieruRule (rule : RoutingRule) : MieruRule :=
  { domains := suffixes rule.matcher.domains
    cidrs := rule.matcher.cidrs
    action := match rule.action with
      | .direct => .direct
      | .block => .reject
      | .egress => .proxy
    proxy := if rule.action = .egress then some "warp" else none }

def mieruDefault (defaultAction : DefaultAction) : List MieruRule :=
  if defaultAction = .egress then [⟨["*"], ["*"], .proxy, some "warp"⟩] else []

def mieruDocument (defaultAction : DefaultAction) (rules : List RoutingRule) : Document :=
  let compiled := rules.map mieruRule ++ mieruDefault defaultAction
  .mieru (if compiled.any (fun rule => rule.action = .proxy) then [("warp", "warp")] else [])
    compiled

/-- What a reset applies: the whole service direct, no rules. -/
def directDocument : Backend → Document
  | .xrayRouter => .router (intentOf .direct [])
  | .mtproxyNative => .whole none
  | .trusttunnelNative => .trusttunnelDirect
  | .amneziawgNative => amneziawgDocument .direct
  | .naiveNative => naiveDocument .direct []
  | .mieruNative => mieruDocument .direct []

/-! ## The compiler -/

/-- The capabilities a rule needs of a native manager. -/
def neededOfNative (rule : RoutingRule) : List String :=
  let kind := if rule.action = .block then "block" else "selective"
  (if rule.matcher.domains.isEmpty then [] else [kind ++ "_domain"])
    ++ if rule.matcher.cidrs.isEmpty then [] else [kind ++ "_cidr"]

/-- An exit that only the router enforces. -/
def exitBeyond (egress : Option String) : Bool :=
  egress.any fun exit => isNodeExit exit || isCustomExit exit

def beyondMessage : String :=
  "an exit through another node or a custom outbound is enforced only by xray_router"

/-- Why a native backend cannot run a rule. -/
def ruleReason (texts : Texts) (target : EgressTarget) (defaultAction : DefaultAction)
    (rule : RoutingRule) : Option Reason :=
  let named := rule.matcher
  let missing := missing (neededOfNative rule) target.capabilities
  if exitBeyond rule.egress then some ⟨"rule_kind_unsupported", rule.id, beyondMessage⟩
  else if ! named.ports.isEmpty || ! named.geosites.isEmpty || ! named.geoips.isEmpty
      || ! named.protocols.isEmpty then
    some ⟨"rule_kind_unsupported", rule.id,
      "matching by port, geosite, geoip or protocol is enforced only by xray_router"⟩
  else if ! missing.isEmpty then
    some ⟨"backend_capability_missing", rule.id,
      target.backend.asStr ++ " lacks " ++ ", ".intercalate missing⟩
  else if rule.action ≠ .block ∧ isPrivate texts rule then
    some ⟨"private_destination", rule.id,
      "loopback, link-local and private networks may only be blocked"⟩
  else if target.backend = .naiveNative ∧ rule.action = .block ∧ defaultAction = .egress then
    some ⟨"rule_kind_unsupported", rule.id, "forwardproxy does not enforce a block beside an upstream: naive_native cannot block while the whole service goes through warp"⟩
  else none

def usesWarp (defaultAction : DefaultAction) (rules : List RoutingRule) : Bool :=
  decide (defaultAction = .egress) || rules.any fun rule => rule.action = .egress

/-- The node says that `warp` does not answer. -/
def EgressTarget.warpDown (target : EgressTarget) : Bool :=
  find target.providers "warp" == some (some false)

def providerReasons (target : EgressTarget) (fallback : Fallback) : List Reason :=
  match find target.providers "warp" with
  | none => [⟨"provider_unavailable", none, "the node has no warp egress configured"⟩]
  | some (some false) =>
    if fallback = .approvedDirect then [] else
      [⟨"provider_unreachable", none,
        "warp does not answer on the node; the policy stays fail-closed"⟩]
  | some _ => []

/-- The rules that a native document is made of. AmneziaWG has none. -/
def nativeRules (policy : RoutingPolicy) (target : EgressTarget) : List RoutingRule :=
  if target.backend = .amneziawgNative then [] else policy.enabledRules

def wholeCell (defaultAction : DefaultAction) : String :=
  if defaultAction = .egress then "whole_warp" else "whole_direct"

/-- What stands against the default and against rules where a backend has none. -/
def wholeReasons (policy : RoutingPolicy) (target : EgressTarget) : List Reason :=
  (if target.capabilities.contains (wholeCell policy.intent.defaultAction) then [] else
      [⟨"backend_capability_missing", none,
        target.backend.asStr ++ " lacks " ++ wholeCell policy.intent.defaultAction⟩])
    ++ (if target.backend = .amneziawgNative then
        policy.enabledRules.head?.toList.map fun rule => ⟨"rule_kind_unsupported", rule.id,
          "On its own AmneziaWG routes the whole tunnel: directly or through WARP. For rules by domain, address, port or protocol, custom exits and other nodes attach it to the node's Xray-router"⟩
      else [])
    ++ if exitBeyond policy.intent.defaultEgress then
        [⟨"rule_kind_unsupported", none, beyondMessage⟩]
      else []

/-- **Everything that keeps a native backend from running the policy.** -/
def nativeReasons (texts : Texts) (policy : RoutingPolicy) (target : EgressTarget) :
    List Reason :=
  let rules := nativeRules policy target
  wholeReasons policy target
    ++ rules.filterMap (ruleReason texts target policy.intent.defaultAction)
    ++ if usesWarp policy.intent.defaultAction rules then
        providerReasons target policy.intent.fallback
      else []

/-- `warp` does not answer, and the operator approved to go direct. -/
def fallsBack (policy : RoutingPolicy) (target : EgressTarget) : Bool :=
  usesWarp policy.intent.defaultAction (nativeRules policy target) && target.warpDown
    && decide (policy.intent.fallback = .approvedDirect)

def RoutingRule.withoutEgress (rule : RoutingRule) : RoutingRule :=
  if rule.action = .egress then { rule with action := .direct, egress := none } else rule

/-- The default and the rules that are written down. -/
def effective (policy : RoutingPolicy) (target : EgressTarget) :
    DefaultAction × List RoutingRule :=
  if fallsBack policy target then
    (.direct, (nativeRules policy target).map RoutingRule.withoutEgress)
  else (policy.intent.defaultAction, nativeRules policy target)

def nativeDocument (backend : Backend) (defaultAction : DefaultAction)
    (rules : List RoutingRule) : Document :=
  match backend with
  | .amneziawgNative => amneziawgDocument defaultAction
  | .naiveNative => naiveDocument defaultAction rules
  | _ => mieruDocument defaultAction rules

section

variable (site : Site) (policy : RoutingPolicy)

def unsupportedFor (target : Option EgressTarget) (reasons : List Reason) : Compiled Document :=
  { status := .unsupported, reasons := reasons, backend := some policy.backend,
    runtimeVersion := target.bind (·.runtimeVersion) }

def refuseFor (target : Option EgressTarget) (code message : String) : Compiled Document :=
  unsupportedFor policy target [⟨code, none, message⟩]

/-- A document as the answer. -/
def supportedBy (target : EgressTarget) (warnings : List String) (restart : Bool)
    (document : Document) : Compiled Document :=
  let digest := documentDigest site document.toJson
  { status := .supported
    warnings := warnings
    document := some document
    digest := some digest
    diff := diffAgainst site target.applied document.toJson digest
    restartRequired := restart
    rollback := rollbackOf target.applied
    backend := some target.backend
    runtimeVersion := target.runtimeVersion }

/-- Telemt and the TrustTunnel endpoint run “direct, no rules” by themselves. -/
def compileDirectOnly (target : EgressTarget) : Compiled Document :=
  if policy.intent.defaultAction ≠ .direct ∨ policy.enabledRules ≠ [] then
    let name := if target.backend = .trusttunnelNative then "TrustTunnel" else "MTProxy"
    { refuseFor policy (some target) "not_attached"
        (name ++ " is routed only through the node's Xray-router: attach it first") with
      warnings := target.warnings }
  else
    supportedBy site target (target.warnings ++ ["policy_empty"]) false
      (directDocument target.backend)

/-- The document of NaiveProxy, Mieru or AmneziaWG. -/
def compileNative (target : EgressTarget) : Compiled Document :=
  let reasons := nativeReasons site.texts policy target
  let warnings := target.warnings
    ++ if fallsBack policy target then ["provider_unreachable"] else []
  let (defaultAction, rules) := effective policy target
  let document := nativeDocument target.backend defaultAction rules
  if ! reasons.isEmpty then
    { unsupportedFor policy (some target) reasons with warnings := warnings }
  else if maxDocumentBytes < document.toJson.canonical.length then
    { refuseFor policy (some target) "document_too_large"
        "the compiled document exceeds 16 KiB" with
      warnings := warnings }
  else
    supportedBy site target
      (warnings ++ if defaultAction = .direct ∧ rules = [] then ["policy_empty"] else [])
      target.restartRequired document

/-- What the compiler is asked with. -/
structure Options where
  oldNode : Bool
  router : Option RouterTarget
  lanes : List RoutingPolicy
  lookups : Lookups

/-- What MTProxy's traffic can never match on the router, and its lanes. -/
def mtproxyRules (lanes : List RoutingPolicy) : List Reason :=
  (policy :: lanes).flatMap fun other =>
    if other.lane ≠ laneService then
      [⟨"rule_kind_unsupported", none,
        "MTProxy has no client lanes: Telemt cannot tell its users apart upstream"⟩]
    else
      (other.enabledRules.filter fun rule => ! rule.matcher.domains.isEmpty
          || ! rule.matcher.geosites.isEmpty || ! rule.matcher.protocols.isEmpty).map fun rule =>
        ⟨"rule_kind_unsupported", rule.id,
          "MTProxy connects to Telegram data centres by address: match it by CIDR, geoip or port, not by domain, geosite or protocol"⟩

def isLane (lanes : List RoutingPolicy) : Bool :=
  decide (policy.lane ≠ laneService) || lanes.any fun other => other.lane ≠ laneService

/-- The same answer about an intent. -/
def Compiled.routed (compiled : Compiled RouterIntent) : Compiled Document :=
  { compiled with document := compiled.document.map .router }

def ownGuids (guids : List String) : List String := if guids.isEmpty then ["local"] else guids

/-- A policy for the node's router. -/
def compileRouted (target : EgressTarget) (options : Options) :
    Except String (Compiled Document) :=
  match options.router.filter (·.available) with
  | none =>
    let code := (options.router.bind (·.reason)).getD "router_unavailable"
    .ok (refuseFor policy (some target) code "the node has no Xray-router to run this policy")
  | some router =>
    if ! target.routerAttached then
      let code := if isLane policy options.lanes then "lane_not_attached" else "not_attached"
      .ok (refuseFor policy (some target) code
        (policy.protocol.asStr ++ " is not attached to the node's Xray-router"))
    else if policy.protocol = .mtproxy ∧ mtproxyRules policy options.lanes ≠ [] then
      .ok (unsupportedFor policy (some target) (mtproxyRules policy options.lanes))
    else
      let lookups := { options.lookups with ownGuids := ownGuids options.lookups.ownGuids }
      (compileIntent site router lookups target.warnings policy options.lanes).map Compiled.routed

/-- A policy for the manager's own backend. -/
def compileOwn (target : EgressTarget) (options : Options) : Compiled Document :=
  if isLane policy options.lanes then
    refuseFor policy (some target) "lane_requires_router"
      "a client lane runs only on the node's Xray-router"
  else if policy.backend ≠ target.backend then
    refuseFor policy (some target) "backend_capability_missing"
      ("the node runs " ++ target.backend.asStr ++ ", the policy targets " ++ policy.backend.asStr)
  else if target.routerAttached then
    refuseFor policy (some target) "backend_capability_missing"
      (policy.protocol.asStr
        ++ " is attached to the node's Xray-router: the policy must target xray_router")
  else if target.backend = .mtproxyNative ∨ target.backend = .trusttunnelNative then
    compileDirectOnly site policy target
  else compileNative site policy target

def lanesUnsupportedAmneziawg : String :=
  "AmneziaWG has no client lanes: the router sees its tunnels as one source, so the route is set for the whole service"

def lanesUnsupportedTrusttunnel : String :=
  "TrustTunnel has no client lanes: its endpoint reaches the router as one anonymous SOCKS5 client, so the router cannot tell its users apart. Route the whole service instead"

/-- **Compile a policy**: what the node would run for it, or exactly why it cannot. Every
protocol has a backend, so none is out of scope. -/
def compile (target : Option EgressTarget) (options : Options) :
    Except String (Compiled Document) :=
  if options.oldNode then
    .ok (refuseFor policy target "node_lacks_egress_v1"
      "the node's panel does not support egress policies — update it")
  else
    match target with
    | none => .ok (refuseFor policy none "protocol_disabled_on_node"
        (policy.protocol.asStr ++ " reports no egress target on this node"))
    | some target =>
      if isLane policy options.lanes ∧ policy.protocol = .amneziawg then
        .ok (refuseFor policy (some target) "lanes_unsupported" lanesUnsupportedAmneziawg)
      else if isLane policy options.lanes ∧ policy.protocol = .trusttunnel then
        .ok (refuseFor policy (some target) "lanes_unsupported" lanesUnsupportedTrusttunnel)
      else if isLane policy options.lanes ∧ ! options.router.any (·.available) then
        .ok (refuseFor policy (some target) "lane_requires_router"
          "a client lane runs only on the node's Xray-router")
      else if policy.backend = .xrayRouter then compileRouted site policy target options
      else .ok (compileOwn site policy target options)

end

/-! ## What a supported answer is -/

/-- **A supported answer comes from one of three places**: the router, a backend that only
goes direct, or a native document that nothing stood against. -/
inductive Answer (site : Site) (policy : RoutingPolicy) (target : EgressTarget)
    (options : Options) (compiled : Compiled Document) : Prop
  | routed (router : RouterTarget) (intent : Compiled RouterIntent)
      (backend : policy.backend = .xrayRouter) (given : options.router = some router)
      (run : compileIntent site router
        { options.lookups with ownGuids := ownGuids options.lookups.ownGuids } target.warnings
        policy options.lanes = .ok intent)
      (status : intent.status = .supported) (same : compiled = intent.routed)
  | direct (backend : policy.backend = target.backend)
      (lane : isLane policy options.lanes = false)
      (kind : target.backend = .mtproxyNative ∨ target.backend = .trusttunnelNative)
      (whole : policy.intent.defaultAction = .direct ∧ policy.enabledRules = [])
      (document : compiled.document = some (directDocument target.backend))
  | native (backend : policy.backend = target.backend)
      (lane : isLane policy options.lanes = false) (own : policy.backend ≠ .xrayRouter)
      (kind : target.backend ≠ .mtproxyNative ∧ target.backend ≠ .trusttunnelNative)
      (reasons : nativeReasons site.texts policy target = [])
      (document : compiled.document = some (nativeDocument target.backend
        (effective policy target).1 (effective policy target).2))
      (fits : (nativeDocument target.backend (effective policy target).1
        (effective policy target).2).toJson.canonical.length ≤ maxDocumentBytes)

variable {policy : RoutingPolicy} {target : EgressTarget} {compiled : Compiled Document}
  {options : Options} {site : Site}

theorem answer_of_compileRouted (hback : policy.backend = .xrayRouter)
    (h : compileRouted site policy target options = .ok compiled)
    (hstat : compiled.status = .supported) : Answer site policy target options compiled := by
  unfold compileRouted at h
  split at h
  · cases h
    cases hstat
  rename_i rtr hrtr
  have hgiven := (Option.filter_eq_some_iff.mp hrtr).1
  split at h
  · cases h
    cases hstat
  split at h
  · cases h
    cases hstat
  dsimp only at h
  cases hrun : compileIntent site rtr
      { options.lookups with ownGuids := ownGuids options.lookups.ownGuids } target.warnings policy
      options.lanes with
  | error msg =>
    rw [hrun] at h
    cases h
  | ok intent =>
    rw [hrun] at h
    cases h
    exact .routed rtr intent hback hgiven hrun hstat rfl

theorem answer_of_compileOwn (hown : policy.backend ≠ .xrayRouter)
    (h : compileOwn site policy target options = compiled) (hstat : compiled.status = .supported)
    : Answer site policy target options compiled := by
  subst h
  unfold compileOwn at hstat ⊢
  split at hstat
  · cases hstat
  rename_i hlane
  split at hstat
  · cases hstat
  rename_i hback
  split at hstat
  · cases hstat
  rename_i hatt
  rw [if_neg hlane, if_neg hback, if_neg hatt]
  have hlane := Bool.eq_false_iff.mpr hlane
  have hback := not_not.mp hback
  split at hstat
  next hkind =>
    rw [if_pos hkind]
    unfold compileDirectOnly at hstat ⊢
    split at hstat
    · cases hstat
    next hwh =>
      rw [if_neg hwh]
      rw [not_or, not_not, not_not] at hwh
      exact .direct hback hlane hkind hwh rfl
  next hkind =>
    rw [if_neg hkind]
    unfold compileNative at hstat ⊢
    dsimp only at hstat ⊢
    split at hstat
    · cases hstat
    rename_i hreas
    split at hstat
    · cases hstat
    rename_i hfits
    rw [if_neg hreas, if_neg hfits]
    rw [Bool.not_eq_true', Bool.not_eq_false, List.isEmpty_iff] at hreas
    exact .native hback hlane hown (not_or.mp hkind) hreas rfl (Nat.le_of_not_lt hfits)

theorem answer_of_compile (h : compile site policy (some target) options = .ok compiled)
    (hstat : compiled.status = .supported) : Answer site policy target options compiled := by
  unfold compile at h
  split at h
  · cases h
    cases hstat
  dsimp only at h
  split at h
  · cases h
    cases hstat
  split at h
  · cases h
    cases hstat
  split at h
  · cases h
    cases hstat
  split at h
  next hback => exact answer_of_compileRouted hback h hstat
  next hown => exact answer_of_compileOwn hown (Except.ok.inj h) hstat

end Routing
