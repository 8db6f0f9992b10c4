import ProxyControl.Json
import ProxyControl.Policies

/-!
# From policies to the router's intent

The Xray-router of a node runs one *intent* for each service: a default and first-match
rules in the vocabulary of the policies. A service without anything special gets a
schema-1 intent. Clients with lanes of their own, exits that chain through other nodes
and the operator's own exits make it a schema-2 intent, with a body per lane and tables
of the chains and exits its bodies name.

`compileIntent` checks every lane – what the router can do, what no policy may do, and
what the node lacks – and collects the chains and the exits on the way (`checkLane`). If
anything was wrong, the answer is why; otherwise it is the document.
-/

namespace Routing

open Table
open Reconciler (Protocol)

/-- What the code takes from elsewhere: the texts, the digest of a text, and the changed
lines between two documents. -/
structure Site where
  texts : Texts
  sha256 : List Char → String
  changedLines : Option Json → Json → List String

/-- Why a policy cannot run. -/
structure Reason where
  code : String
  ruleId : Option String
  message : String
deriving DecidableEq, Repr

/-- What a manager runs now. A linked node reports no document, only its digest. -/
structure AppliedDocument where
  revision : String
  digest : String
  document : Option Json

inductive CompileStatus
  | supported | unsupported
deriving DecidableEq, Repr

/-- **A document the backend can enforce, or the reasons it cannot.** -/
structure Compiled (Document : Type) where
  status : CompileStatus
  reasons : List Reason := []
  warnings : List String := []
  document : Option Document := none
  digest : Option String := none
  diff : List String := []
  restartRequired : Bool := false
  /-- The revision and the digest that a rollback goes to. -/
  rollback : Option (String × String) := none
  compilerVersion : String := "3"
  backend : Option Backend := none
  runtimeVersion : Option String := none
  /-- The native document that keeps a service handed to the router. -/
  attach : Option Json := none

/-- A provider by its name, and whether it answers. -/
abbrev Providers := List (String × Option Bool)

/-- A service's section on the node's router. -/
structure RouterTarget where
  available : Bool
  capabilities : List String
  providers : Providers
  applied : Option AppliedDocument
  xrayVersion : Option String
  reason : Option String

def documentDigest (site : Site) (document : Json) : String := site.sha256 document.canonical

/-- The diff against what runs: of a document that is not known, all of the planned one
unless the digests agree. -/
def diffAgainst (site : Site) (applied : Option AppliedDocument) (document : Json)
    (digest : String) : List String :=
  match applied with
  | none => site.changedLines none document
  | some applied =>
    match applied.document with
    | none => if applied.digest = digest then [] else site.changedLines none document
    | some running => site.changedLines (some running) document

def rollbackOf (applied : Option AppliedDocument) : Option (String × String) :=
  applied.map fun applied => (applied.revision, applied.digest)

def laneService : String := "svc"

def isNodeExit (exit : String) : Bool := "node:".toList.isPrefixOf exit.toList

def isCustomExit (exit : String) : Bool := "exit:".toList.isPrefixOf exit.toList

/-! ## The vocabulary of a rule -/

/-- `*.x` and `x` are the same selector, kept once in the order first seen. -/
def suffixes (domains : List String) : List String :=
  domains.foldl (fun out domain =>
    if stripWildcard domain ∈ out then out else out ++ [stripWildcard domain]) []

def privateDomains : List String := ["localhost", "*.localhost"]

/-- What a rule may never open. -/
def privateNetworks : List Network :=
  [⟨false, 0, 8⟩, ⟨false, 0x0a000000, 8⟩, ⟨false, 0x64400000, 10⟩, ⟨false, 0x7f000000, 8⟩,
    ⟨false, 0xa9fe0000, 16⟩, ⟨false, 0xac100000, 12⟩, ⟨false, 0xc0a80000, 16⟩, ⟨true, 1, 128⟩,
    ⟨true, 0xfc000000000000000000000000000000, 7⟩, ⟨true, 0xfe800000000000000000000000000000, 10⟩]

def isPrivateNetwork (texts : Texts) (cidr : String) : Bool :=
  (texts.network cidr).any fun network => privateNetworks.any network.overlaps

/-- The rule names a private domain, or overlaps a private network. -/
def isPrivate (texts : Texts) (rule : RoutingRule) : Bool :=
  rule.matcher.domains.any (privateDomains.contains ·)
    || rule.matcher.cidrs.any (isPrivateNetwork texts)

/-- The capabilities a rule needs of the router. -/
def neededOfRouter (rule : RoutingRule) : List String :=
  let kind := if rule.action = .block then "block" else "selective"
  let named := rule.matcher
  ([(named.domains.isEmpty, "domain"), (named.geosites.isEmpty, "geosite"),
    (named.cidrs.isEmpty, "cidr"), (named.geoips.isEmpty, "geoip"), (named.ports.isEmpty, "port"),
    (named.protocols.isEmpty, "protocol")].filter fun cell => ! cell.1).map fun cell =>
      kind ++ "_" ++ cell.2

def missing (needed capabilities : List String) : List String :=
  (needed.filter fun cell => ! capabilities.contains cell).insertionSort (· ≤ ·)

/-! ## The intent -/

structure BodyRule where
  domains : List String
  geosites : List String
  cidrs : List String
  geoips : List String
  ports : List Port
  action : Action
  egress : Option String
  protocols : List Sniffed
deriving DecidableEq, Repr

structure LaneBody where
  defaultAction : DefaultAction
  defaultEgress : Option String
  rules : List BodyRule
deriving DecidableEq, Repr

/-- **The intent of one service.** -/
inductive RouterIntent
  | one (body : LaneBody)
  | two (lanes : List (String × LaneBody)) (chains exits : List (String × Json))

def Sniffed.asStr : Sniffed → String
  | .http => "http"
  | .tls => "tls"
  | .quic => "quic"
  | .bittorrent => "bittorrent"

def Port.toJson : Port → Json
  | .one value => .int value
  | .range low high => .str (toString low ++ "-" ++ toString high)

def stringsJson (texts : List String) : Json := .arr (texts.map .str)

def egressJson (egress : Option String) : Json := egress.elim .null .str

/-- Protocols only where the rule names some: an older router refuses the field. -/
def BodyRule.toJson (rule : BodyRule) : Json :=
  .obj ([("domains", stringsJson rule.domains), ("geosites", stringsJson rule.geosites),
      ("cidrs", stringsJson rule.cidrs), ("geoips", stringsJson rule.geoips),
      ("ports", .arr (rule.ports.map Port.toJson)), ("action", .str rule.action.asStr),
      ("egress", egressJson rule.egress)]
    ++ if rule.protocols.isEmpty then [] else
      [("protocols", stringsJson (rule.protocols.map Sniffed.asStr))])

def LaneBody.fields (body : LaneBody) : List (String × Json) :=
  [("default", .obj [("action", .str body.defaultAction.asStr),
      ("egress", egressJson body.defaultEgress)]),
    ("rules", .arr (body.rules.map BodyRule.toJson))]

def RouterIntent.toJson : RouterIntent → Json
  | .one body => .obj (("schema", .int 1) :: body.fields)
  | .two lanes chains exits =>
    .obj ([("schema", .int 2), ("lanes", .obj (lanes.map fun lane => (lane.1, .obj lane.2.fields))),
        ("chains", .obj chains)]
      ++ if exits.isEmpty then [] else [("exits", .obj exits)])

/-- The exits met so far: the chains through nodes, and the operator's own. -/
structure Names where
  chains : List String
  exits : List String

/-- The place of a name, which is put last if it is new. -/
def place (names : List String) (name : String) : Nat × List String :=
  if name ∈ names then (names.idxOf name, names) else (names.length, names ++ [name])

/-- The router's name of an egress. -/
def egressName (names : Names) (egress : String) : String × Names :=
  if isCustomExit egress then
    let (index, exits) := place names.exits egress
    ("exit:e" ++ toString (index + 1), { names with exits := exits })
  else if isNodeExit egress then
    let (index, chains) := place names.chains egress
    ("chain:c" ++ toString (index + 1), { names with chains := chains })
  else (egress, names)

/-- A rule in the router's vocabulary, under a name for its egress. -/
def bodyRule (rule : RoutingRule) (egress : Option String) : BodyRule :=
  { domains := suffixes rule.matcher.domains
    geosites := rule.matcher.geosites
    cidrs := rule.matcher.cidrs
    geoips := rule.matcher.geoips
    ports := rule.matcher.ports
    action := rule.action
    egress := egress
    protocols := rule.matcher.protocols }

def nameEgress (names : Names) (egress : Option String) : Option String × Names :=
  match egress with
  | none => (none, names)
  | some egress =>
    let (name, names) := egressName names egress
    (some name, names)

def bodyRules (names : Names) : List RoutingRule → List BodyRule × Names
  | [] => ([], names)
  | rule :: rest =>
    let (egress, names) := nameEgress names rule.egress
    let (rules, names) := bodyRules names rest
    (bodyRule rule egress :: rules, names)

/-- One lane's effective default and rules after the checks. -/
structure CheckedLane where
  lane : String
  defaultAction : DefaultAction
  defaultEgress : Option String
  rules : List RoutingRule

/-- The rules in order, then the default. -/
def laneBody (names : Names) (lane : CheckedLane) : LaneBody × Names :=
  let (rules, names) := bodyRules names lane.rules
  let (egress, names) := nameEgress names lane.defaultEgress
  (⟨lane.defaultAction, egress, rules⟩, names)

/-- The schema-1 intent: one service, `warp` the only egress. -/
def intentOf (defaultAction : DefaultAction) (rules : List RoutingRule) : RouterIntent :=
  .one
    { defaultAction := defaultAction
      defaultEgress := if defaultAction = .egress then some "warp" else none
      rules := rules.map fun rule => bodyRule rule rule.egress }

def laneBodies (protocol : Protocol) (names : Names) (bodies : List (String × LaneBody)) :
    List CheckedLane → List (String × LaneBody) × Names
  | [] => (bodies, names)
  | lane :: rest =>
    let key := if lane.lane = laneService then "svc:" ++ protocol.asStr else lane.lane
    let (body, names) := laneBody names lane
    laneBodies protocol names (put bodies key body) rest

/-- The names `c1`, `c2`, … with what stands behind each. -/
def numberedSpecs (letter : String) (specs : List (String × Json)) (names : List String) :
    List (String × Json) :=
  names.zipIdx.map fun (name, index) =>
    (letter ++ toString (index + 1), (find specs name).getD .null)

/-- The schema-2 intent: every lane, the chains they name and the custom exits. -/
def intentV2 (protocol : Protocol) (lanes : List CheckedLane)
    (chains exits : List (String × Json)) : RouterIntent :=
  let (bodies, names) := laneBodies protocol ⟨[], []⟩ [] lanes
  .two bodies (numberedSpecs "c" chains names.chains) (numberedSpecs "e" exits names.exits)

/-! ## The checks -/

/-- A node's relay as this panel knows it. -/
structure ChainHop where
  address : String
  port : Int
  serverName : String
  publicKey : String
  shortId : String
  uuidDirect : String
  uuidWarp : Option String

/-- An answer, or why it cannot be used. -/
abbrev Lookup (α : Type) := Except Reason α

def hopJson (guid : String) (hop : ChainHop) (uuid : String) : Json :=
  .obj [("guid", .str guid), ("address", .str hop.address), ("port", .int hop.port),
    ("server_name", .str hop.serverName), ("public_key", .str hop.publicKey),
    ("short_id", .str hop.shortId), ("uuid", .str uuid)]

/-- The hops in order: the last with the account its exit needs, the others with their
direct ones. -/
def resolveHops (resolve : String → Lookup ChainHop) (via : Option String) :
    List String → Lookup (List Json)
  | [] => .ok []
  | guid :: rest => do
    let hop ← resolve guid
    let uuid := if rest.isEmpty ∧ via = some "warp" then hop.uuidWarp else some hop.uuidDirect
    match uuid with
    | none =>
      .error ⟨"relay_no_warp", none, "node " ++ guid ++ " has no relay account for its warp"⟩
    | some uuid =>
      let hops ← resolveHops resolve via rest
      .ok (hopJson guid hop uuid :: hops)

def resolveChain (resolve : String → Lookup ChainHop) (ownGuids : List String) (exit : String) :
    Lookup Json :=
  let (guids, via) := exitHops (some exit)
  if guids.any (ownGuids.contains ·) then
    .error ⟨"chain_loop", none, "a chain cannot pass through this node"⟩
  else do
    let hops ← resolveHops resolve via guids
    .ok (.obj [("hops", .arr hops), ("exit", egressJson via)])

/-- What the compiler collects across lanes. -/
structure Collect where
  reasons : List Reason
  warnings : List String
  chains : List (String × Json)
  exits : List (String × Json)

namespace Collect

def refuse (collect : Collect) (reason : Reason) : Collect :=
  { collect with reasons := collect.reasons ++ [reason] }

end Collect

/-- What the compiler looks up: the relays of the nodes, this node's own ids, and the
operator's exits, if the panel keeps them. -/
structure Lookups where
  resolve : Option (String → Lookup ChainHop)
  ownGuids : List String
  exits : Option (String → Lookup Json)

variable (site : Site) (router : RouterTarget) (lookups : Lookups)

/-- What the router can do, and what no rule may. -/
def checkRule (collect : Collect) (rule : RoutingRule) : Collect :=
  let missing := missing (neededOfRouter rule) router.capabilities
  if ! missing.isEmpty then
    collect.refuse ⟨"backend_capability_missing", rule.id,
      "xray_router lacks " ++ ", ".intercalate missing⟩
  else if rule.action ≠ .block ∧ isPrivate site.texts rule then
    collect.refuse ⟨"private_destination", rule.id,
      "loopback, link-local and private networks may only be blocked"⟩
  else collect

/-- A custom exit, resolved once. -/
def checkCustomExit (collect : Collect) (ruleId : Option String) (exit : String) : Collect :=
  if (find collect.exits exit).isSome then collect
  else
    match lookups.exits.filter fun _ => router.capabilities.contains "custom_exits" with
    | none => collect.refuse ⟨"backend_capability_missing", ruleId,
        "the node's router does not run custom exits (update the node)"⟩
    | some lookup =>
      match lookup (String.ofList (exit.toList.drop 5)) with
      | .ok spec => { collect with exits := collect.exits ++ [(exit, spec)] }
      | .error reason => collect.refuse { reason with ruleId := ruleId }

/-- A chain, resolved once. A panel that keeps no relays fails. -/
def checkNodeExit (collect : Collect) (ruleId : Option String) (exit : String) :
    Except String Collect :=
  if (find collect.chains exit).isSome then .ok collect
  else
    match lookups.resolve with
    | none => .error "no chain resolver for a node exit"
    | some resolve =>
      match resolveChain resolve lookups.ownGuids exit with
      | .ok chain => .ok { collect with chains := collect.chains ++ [(exit, chain)] }
      | .error reason => .ok (collect.refuse { reason with ruleId := ruleId })

def checkEgress (collect : Collect) (ruleId : Option String) (egress : Option String) :
    Except String Collect :=
  match egress with
  | none => .ok collect
  | some exit =>
    if isCustomExit exit then .ok (checkCustomExit router lookups collect ruleId exit)
    else if isNodeExit exit then checkNodeExit lookups collect ruleId exit
    else .ok collect

/-- A rule that goes direct instead of through an unreachable `warp`. -/
def RoutingRule.withoutWarp (rule : RoutingRule) : RoutingRule :=
  if rule.egress = some "warp" then { rule with action := .direct, egress := none } else rule

/-- The lane as it was checked, and as it is where `warp` does not answer and the
operator approved to go direct. -/
def CheckedLane.withoutWarp (lane : CheckedLane) : CheckedLane :=
  { lane with
    defaultAction := if lane.defaultEgress = some "warp" then .direct else lane.defaultAction
    defaultEgress := if lane.defaultEgress = some "warp" then none else lane.defaultEgress
    rules := lane.rules.map RoutingRule.withoutWarp }

/-- This node's `warp`, with the lane's own fallback. -/
def checkWarp (collect : Collect) (fallback : Fallback) (lane : CheckedLane) :
    Collect × CheckedLane :=
  if lane.defaultEgress = some "warp" ∨ lane.rules.any (fun rule => rule.egress = some "warp") then
    match find router.providers "warp" with
    | none => (collect.refuse ⟨"provider_unavailable", none,
        "the node's router has no warp egress configured"⟩, lane)
    | some (some false) =>
      if fallback = .approvedDirect then
        ({ collect with warnings := collect.warnings ++ ["provider_unreachable"] },
          lane.withoutWarp)
      else (collect.refuse ⟨"provider_unreachable", none,
        "warp does not answer on the node; the policy stays fail-closed"⟩, lane)
    | some _ => (collect, lane)
  else (collect, lane)

/-- **Check one lane**: capabilities, private destinations, every exit resolved, and
`warp`. -/
def checkLane (collect : Collect) (policy : RoutingPolicy) : Except String (Collect × CheckedLane) :=
  let rules := policy.enabledRules
  let whole := if policy.intent.defaultAction = .egress then "whole_warp" else "whole_direct"
  let collect :=
    if router.capabilities.contains whole then collect
    else collect.refuse ⟨"backend_capability_missing", none, "xray_router lacks " ++ whole⟩
  let collect := rules.foldl (checkRule site router) collect
  let egresses := (none, policy.intent.defaultEgress)
    :: rules.map fun rule => (rule.id, rule.egress)
  do
    let collect ← egresses.foldlM (fun collect egress =>
      checkEgress router lookups collect egress.1 egress.2) collect
    return checkWarp router collect policy.intent.fallback
      ⟨policy.lane, policy.intent.defaultAction, policy.intent.defaultEgress, rules⟩

def checkLanes (collect : Collect) : List RoutingPolicy → Except String (Collect × List CheckedLane)
  | [] => .ok (collect, [])
  | policy :: rest => do
    let (collect, lane) ← checkLane site router lookups collect policy
    let (collect, lanes) ← checkLanes collect rest
    return (collect, lane :: lanes)

/-! ## The document -/

def maxDocumentBytes : Nat := 16384

def maxDocumentBytesV2 : Nat := 65536

/-- The native document that hands a service's whole traffic to the router. -/
def attachDocument : Protocol → Json
  | .naive => .obj [("schema", .int 1), ("upstream", .obj [("provider", .str "router")]),
      ("acl", .arr [])]
  | .mieru => .obj [("schema", .int 1),
      ("proxies", .arr [.obj [("name", .str "router"), ("provider", .str "router")]]),
      ("rules", .arr [.obj [("domains", .arr [.str "*"]), ("cidrs", .arr [.str "*"]),
        ("action", .str "PROXY"), ("proxy", .str "router")]])]
  | .mtproxy | .amneziawg =>
    .obj [("schema", .int 1), ("upstream", .obj [("provider", .str "router")])]
  | .trusttunnel => .obj [("mode", .str "socks5"), ("address", .str "127.0.0.1:45104")]

/-- The service's own policy first, then the lanes of clients. -/
def ordered (policy : RoutingPolicy) (lanes : List RoutingPolicy) : List RoutingPolicy :=
  let every := policy :: lanes.filter fun other => other.id ≠ policy.id
  every.filter (fun item => item.lane = laneService)
    ++ every.filter fun item => item.lane ≠ laneService

/-- The document of checked lanes, and the limit of its length. Chains, exits or clients
with lanes make it a schema-2 one. -/
def documentOf (protocol : Protocol) (collect : Collect) (checked : List CheckedLane) :
    Option (RouterIntent × Nat) :=
  if checked.any (fun lane => lane.lane ≠ laneService) ∨ collect.chains ≠ [] ∨ collect.exits ≠ []
  then some (intentV2 protocol checked collect.chains collect.exits, maxDocumentBytesV2)
  else checked.head?.map fun lane =>
    (intentOf lane.defaultAction lane.rules, maxDocumentBytes)

/-- **Compile the policies of a service for the router.** -/
def compileIntent (warnings : List String) (policy : RoutingPolicy) (lanes : List RoutingPolicy) :
    Except String (Compiled RouterIntent) := do
  let unsupported : Compiled RouterIntent :=
    { status := .unsupported, backend := some .xrayRouter, runtimeVersion := router.xrayVersion,
      restartRequired := true }
  let (collect, checked) ←
    checkLanes site router lookups ⟨[], warnings, [], []⟩ (ordered policy lanes)
  if ! collect.reasons.isEmpty then
    return { unsupported with reasons := collect.reasons, warnings := collect.warnings }
  else
    match documentOf policy.protocol collect checked with
    | none => .error "no lane"
    | some (document, limit) =>
      if limit < document.toJson.canonical.length then
        return { unsupported with
          reasons := [⟨"document_too_large", none,
            "the compiled document exceeds " ++ toString (limit / 1024) ++ " KiB"⟩]
          warnings := collect.warnings }
      else
        let digest := documentDigest site document.toJson
        return {
          status := .supported
          warnings := collect.warnings ++
            match document with
            | .one ⟨.direct, _, []⟩ => ["policy_empty"]
            | _ => []
          document := some document
          digest := some digest
          diff := diffAgainst site router.applied document.toJson digest
          restartRequired := true
          rollback := rollbackOf router.applied
          backend := some .xrayRouter
          runtimeVersion := router.xrayVersion
          attach := some (attachDocument policy.protocol) }

end Routing
