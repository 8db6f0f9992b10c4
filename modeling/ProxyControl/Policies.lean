import ProxyControl.Reconciler

/-!
# Routing policies and what the panel explains about them

A policy says where the traffic of a service goes: a default, and rules of which
the first that matches decides. A rule matches by destination – any of its domains,
geosite codes, CIDRs or geoip codes – and on any of its ports, and for any of its
sniffed protocols; a selector of which a rule names none does not restrict it
(`RuleMatch.meets`).

The panel has no geodata and sees no connection, so `explain` – which rule decides a
destination? – works with three answers: a rule matches, does not match, or only the
router could tell. It lists the rules of the last kind it passed as *uncertain* and
stops at the first that matches.

With nothing uncertain, what it names is the first rule that matches, with one
exception (`explain_names_first_match`): a domain or a CIDR that covers the
destination settles the matter although the rule also names sniffed protocols.
-/

namespace Routing

open Reconciler (Protocol)

/-! ## Addresses and names -/

/-- An address; the bits of an IPv4 address are the low 32. -/
structure IpAddress where
  v6 : Bool
  value : Nat
deriving DecidableEq, Repr

/-- A network: its address and the length of its prefix. -/
structure Network where
  v6 : Bool
  address : Nat
  length : Nat
deriving DecidableEq, Repr

namespace Network

def bits (network : Network) : Nat := if network.v6 then 128 else 32

def mask (network : Network) (length : Nat) : Nat :=
  let all := 2 ^ network.bits - 1
  if length = 0 then 0 else all &&& (all <<< (network.bits - length))

/-- Two networks of one version have an address in common. -/
def overlaps (network other : Network) : Bool :=
  network.v6 == other.v6 &&
    let mask := network.mask (min network.length other.length)
    network.address &&& mask == other.address &&& mask

def contains (network : Network) (address : IpAddress) : Bool :=
  let mask := network.mask network.length
  address.v6 == network.v6 && address.value &&& mask == network.address &&& mask

end Network

/-- What the code takes from the text library: the lower case of a text, and how an
address and a network are read. -/
structure Texts where
  lower : String → String
  ipAddress : String → Option IpAddress
  network : String → Option Network

/-- A domain without the `*.` that may stand before it. -/
def stripWildcard (domain : String) : String :=
  match domain.toList with
  | '*' :: '.' :: rest => String.ofList rest
  | _ => domain

/-- A host is the domain, or a name under it. -/
def isUnder (host domain : String) : Bool :=
  host.toList == domain.toList || ('.' :: domain.toList).isSuffixOf host.toList

/-- The host in lower case, without dots at its end. -/
def normalHost (texts : Texts) (host : String) : String :=
  String.ofList (((texts.lower host).toList.reverse.dropWhile (· == '.')).reverse)

/-! ## Policies -/

inductive Action
  | direct | block | egress
deriving DecidableEq, Repr

def Action.asStr : Action → String
  | .direct => "direct"
  | .block => "block"
  | .egress => "egress"

/-- What the service does with traffic no rule matched. -/
inductive DefaultAction
  | direct | egress
deriving DecidableEq, Repr

def DefaultAction.asStr : DefaultAction → String
  | .direct => "direct"
  | .egress => "egress"

/-- What happens when the egress provider is unreachable. -/
inductive Fallback
  | failClosed | approvedDirect
deriving DecidableEq, Repr

/-- What the router's sniffer reports. -/
inductive Sniffed
  | http | tls | quic | bittorrent
deriving DecidableEq, Repr

/-- One port, or an inclusive range. -/
inductive Port
  | one (value : Int)
  | range (low high : Int)
deriving DecidableEq, Repr

/-- **What a rule matches.** -/
structure RuleMatch where
  domains : List String
  cidrs : List String
  ports : List Port
  geosites : List String
  geoips : List String
  protocols : List Sniffed
deriving DecidableEq, Repr

/-- The rule narrows by name or address, and not by port alone. -/
def RuleMatch.selectors (named : RuleMatch) : Bool :=
  ! (named.domains.isEmpty && named.cidrs.isEmpty && named.geosites.isEmpty
    && named.geoips.isEmpty)

structure RoutingRule where
  id : Option String
  enabled : Bool
  matcher : RuleMatch
  action : Action
  egress : Option String
deriving DecidableEq, Repr

structure Intent where
  defaultAction : DefaultAction
  defaultEgress : Option String
  fallback : Fallback
  rules : List RoutingRule
deriving DecidableEq, Repr

inductive Backend
  | naiveNative | mieruNative | mtproxyNative | trusttunnelNative | amneziawgNative | xrayRouter
deriving DecidableEq, Repr

def Backend.asStr : Backend → String
  | .naiveNative => "naive_native"
  | .mieruNative => "mieru_native"
  | .mtproxyNative => "mtproxy_native"
  | .trusttunnelNative => "trusttunnel_native"
  | .amneziawgNative => "amneziawg_native"
  | .xrayRouter => "xray_router"

/-- A policy of a service or, in a lane of its own, of one client. -/
structure RoutingPolicy where
  id : String
  protocol : Protocol
  lane : String
  backend : Backend
  intent : Intent
deriving DecidableEq, Repr

def RoutingPolicy.enabledRules (policy : RoutingPolicy) : List RoutingRule :=
  policy.intent.rules.filter (·.enabled)

/-! ## What validation lets through -/

/-- One to 63 letters, digits and hyphens, no hyphen at either end. -/
def isLabel (label : List Char) : Bool :=
  let edge (c : Char) : Bool := ('a' ≤ c && c ≤ 'z') || ('0' ≤ c && c ≤ '9')
  1 ≤ label.length && label.length ≤ 63 && label.all (fun c => edge c || c == '-')
    && label.head?.all edge && label.getLast?.all edge

def isDomain (host : List Char) : Bool :=
  1 ≤ host.length && host.length ≤ 253 && (host.splitOn '.').all isLabel

def isPort : Port → Bool
  | .one value => 1 ≤ value && value ≤ 65535
  | .range low high => 1 ≤ low && low ≤ high && high ≤ 65535

/-- The id of a node or of an exit. -/
def isGuid (text : List Char) : Bool :=
  1 ≤ text.length && text.length ≤ 64 && text.all fun c => c.isAlphanum || c == '_' || c == '-'

/-- One to three distinct nodes, the last of which may send through its own `warp`. -/
def isChain (chain : List Char) : Bool :=
  let warp := ":warp".toList
  let nodes := if warp.isSuffixOf chain then chain.take (chain.length - warp.length) else chain
  let guids := nodes.splitOn ','
  guids.length ≤ 3 && decide guids.Nodup && guids.all isGuid

/-- `warp`, an exit of the operator, or a chain of nodes. -/
def isExit (exit : String) : Bool :=
  exit == "warp" || match exit.toList with
    | 'e' :: 'x' :: 'i' :: 't' :: ':' :: guid => isGuid guid
    | 'n' :: 'o' :: 'd' :: 'e' :: ':' :: chain => isChain chain
    | _ => false

/-- The limits, and the canonical forms. -/
def RuleMatch.valid (texts : Texts) (named : RuleMatch) : Bool :=
  named.domains.length ≤ 64 && named.cidrs.length ≤ 64 && named.ports.length ≤ 32
    && named.geosites.length ≤ 64 && named.geoips.length ≤ 64 && named.protocols.length ≤ 4
    && named.domains.all (fun domain => isDomain (stripWildcard domain).toList)
    && named.cidrs.all (fun cidr => cidr.toList.contains '/' && (texts.network cidr).isSome)
    && named.ports.all isPort
    && (named.selectors || ! named.ports.isEmpty || ! named.protocols.isEmpty)

/-- An egress rule names its egress, and no other does. -/
def RoutingRule.valid (texts : Texts) (rule : RoutingRule) : Bool :=
  rule.matcher.valid texts && (rule.egress.isSome == decide (rule.action = .egress))
    && rule.egress.all isExit

def Intent.valid (texts : Texts) (intent : Intent) : Bool :=
  intent.rules.length ≤ 128 && intent.rules.all (RoutingRule.valid texts)
    && (intent.defaultEgress.isSome == decide (intent.defaultAction = .egress))
    && intent.defaultEgress.all isExit

/-! ## The explanation -/

def portMatches (ports : List Port) (port : Int) : Bool :=
  ports.any fun
    | .one value => value == port
    | .range low high => low ≤ port && port ≤ high

variable (texts : Texts)

/-- One of the domains is the host, or above it. -/
def RuleMatch.coversName (named : RuleMatch) (host : String) : Bool :=
  named.domains.any fun domain => isUnder (normalHost texts host) (stripWildcard domain)

/-- The host is an address in one of the CIDRs. -/
def RuleMatch.coversAddress (named : RuleMatch) (host : String) : Bool :=
  (texts.ipAddress host).any fun address =>
    named.cidrs.any fun cidr => (texts.network cidr).any (·.contains address)

/-- `some` when the rule's selectors decide on their own, `none` when only geodata or
the sniffed protocol could say. -/
def destinationMatches (rule : RoutingRule) (host : String) (port : Int) : Option Bool :=
  let named := rule.matcher
  if ! named.ports.isEmpty && ! portMatches named.ports port then some false
  else if named.coversName texts host || named.coversAddress texts host then some true
  else if ! named.geosites.isEmpty || ! named.geoips.isEmpty || ! named.protocols.isEmpty then none
  else if named.domains.isEmpty && named.cidrs.isEmpty then
    -- A rule on ports alone, and the port matched.
    some true
  else some false

/-- The rules passed that only geodata could match, and the first that matches. -/
def scan (host : String) (port : Int) : List RoutingRule → List String × Option RoutingRule
  | [] => ([], none)
  | rule :: rest =>
    match destinationMatches texts rule host port with
    | none => (rule.id.getD "" :: (scan host port rest).1, (scan host port rest).2)
    | some true => ([], some rule)
    | some false => scan host port rest

/-- The nodes an exit chains through, and what the last one does. -/
def exitHops (exit : Option String) : List String × Option String :=
  match exit.map String.toList with
  | some ('n' :: 'o' :: 'd' :: 'e' :: ':' :: body) =>
    let warp := ":warp".toList
    if warp.isSuffixOf body then
      (((body.take (body.length - warp.length)).splitOn ',').map String.ofList, some "warp")
    else ((body.splitOn ',').map String.ofList, some "direct")
  | _ => ([], none)

structure Explanation where
  lane : String
  ruleId : Option String
  action : String
  exit : Option String
  hops : List String
  via : Option String
  uncertain : List String
deriving DecidableEq, Repr

/-- The explanation that a rule decides, or the default. -/
def describe (policy : RoutingPolicy) (uncertain : List String) (winner : Option RoutingRule) :
    Explanation :=
  let (action, exit) := match winner with
    | some rule => (rule.action.asStr, rule.egress)
    | none => (policy.intent.defaultAction.asStr, policy.intent.defaultEgress)
  let (hops, via) := exitHops exit
  ⟨policy.lane, winner.bind (·.id), action, exit, hops, via, uncertain⟩

/-- The rule that `explain` names, or `none` for the default. -/
def explained (policy : RoutingPolicy) (host : String) (port : Int) : Option RoutingRule :=
  (scan texts host port policy.enabledRules).2

/-- **Which rule decides a destination?** -/
def explain (policy : RoutingPolicy) (host : String) (port : Int) : Explanation :=
  describe policy (scan texts host port policy.enabledRules).1 (explained texts policy host port)

/-! ## What a rule means -/

/-- What the router's geodata says about a destination. -/
structure Geodata where
  geosite : String → Bool
  geoip : String → Bool

/-- **The meaning of a rule**: any of its domains, geosite codes, CIDRs or geoip codes,
on any of its ports, for any of its sniffed protocols. -/
def RuleMatch.meets (named : RuleMatch) (host : String) (port : Int) (geodata : Geodata)
    (sniffed : Option Sniffed) : Bool :=
  (! named.selectors || named.coversName texts host || named.geosites.any geodata.geosite
      || named.coversAddress texts host || named.geoips.any geodata.geoip)
    && (named.ports.isEmpty || portMatches named.ports port)
    && (named.protocols.isEmpty || sniffed.any (named.protocols.contains ·))

/-- The first rule of a policy that matches, or `none` for the default. -/
def firstMatch (policy : RoutingPolicy) (host : String) (port : Int) (geodata : Geodata)
    (sniffed : Option Sniffed) : Option RoutingRule :=
  policy.enabledRules.find? fun rule => rule.matcher.meets texts host port geodata sniffed

variable {texts}
variable {host : String} {port : Int} {geodata : Geodata} {sniffed : Option Sniffed}

/-- A rule that names no sniffed protocol, or the one of the connection. -/
def RoutingRule.admits (rule : RoutingRule) (sniffed : Option Sniffed) : Bool :=
  rule.matcher.protocols.isEmpty || sniffed.any (rule.matcher.protocols.contains ·)

variable {rule : RoutingRule}

/-- What a rule certainly does not match, it does not match. -/
theorem not_meets_of_destinationMatches (h : destinationMatches texts rule host port = some false) :
    rule.matcher.meets texts host port geodata sniffed = false := by
  unfold destinationMatches at h
  unfold RuleMatch.meets
  dsimp only at h
  split at h
  next hport =>
    rw [Bool.and_eq_true, Bool.not_eq_true', Bool.not_eq_true'] at hport
    rw [hport.1, hport.2, Bool.or_false, Bool.and_false, Bool.false_and]
  · split at h
    · cases h
    next hcov =>
      split at h
      · cases h
      next hgeo =>
        split at h
        · cases h
        next hn =>
          simp only [Bool.or_eq_true, not_or, Bool.not_eq_true, Bool.not_eq_false'] at hcov hgeo
          have hsit : rule.matcher.geosites = [] := List.isEmpty_iff.mp hgeo.1.1
          have hips : rule.matcher.geoips = [] := List.isEmpty_iff.mp hgeo.1.2
          have hsel : rule.matcher.selectors = true := by
            unfold RuleMatch.selectors
            rw [hsit, hips, List.isEmpty_nil, Bool.and_true, Bool.and_true,
              Bool.eq_false_iff.mpr hn]
            rfl
          rw [hsel, hcov.1, hcov.2, hsit, hips]
          rfl

/-- What a rule certainly matches, it matches – if it admits the sniffed protocol. -/
theorem meets_of_destinationMatches (h : destinationMatches texts rule host port = some true) :
    rule.matcher.meets texts host port geodata sniffed = rule.admits sniffed := by
  unfold destinationMatches at h
  unfold RuleMatch.meets RoutingRule.admits
  dsimp only at h
  split at h
  · cases h
  next hport =>
    have hpts : (rule.matcher.ports.isEmpty || portMatches rule.matcher.ports port) = true := by
      simpa [or_iff_not_imp_left] using hport
    rw [hpts, Bool.and_true]
    split at h
    next hcov =>
      rcases Bool.or_eq_true_iff.mp hcov with hnm | haddr
      · simp [hnm]
      · simp [haddr]
    · split at h
      · cases h
      next hgeo =>
        split at h
        next hn =>
          simp only [Bool.or_eq_true, not_or, Bool.not_eq_true, Bool.not_eq_false'] at hgeo
          rw [Bool.and_eq_true] at hn
          have hsel : rule.matcher.selectors = false := by
            unfold RuleMatch.selectors
            rw [hn.1, hn.2, hgeo.1.1, hgeo.1.2]
            rfl
          rw [hsel]
          rfl
        · cases h

/-- The rule is certainly off a destination: it is about other ports, or names
domains and CIDRs of which none covers it and nothing that only the router knows. -/
def RoutingRule.RulesOut (texts : Texts) (rule : RoutingRule) (host : String) (port : Int) : Prop :=
  (rule.matcher.ports ≠ [] ∧ portMatches rule.matcher.ports port = false)
  ∨ (rule.matcher.coversName texts host = false ∧ rule.matcher.coversAddress texts host = false
    ∧ rule.matcher.geosites = [] ∧ rule.matcher.geoips = [] ∧ rule.matcher.protocols = []
    ∧ (rule.matcher.domains ≠ [] ∨ rule.matcher.cidrs ≠ []))

/-- A domain or a CIDR of the rule covers a destination, on one of its ports. -/
def RoutingRule.Covers (texts : Texts) (rule : RoutingRule) (host : String) (port : Int) : Prop :=
  (rule.matcher.ports = [] ∨ portMatches rule.matcher.ports port = true)
  ∧ (rule.matcher.coversName texts host = true ∨ rule.matcher.coversAddress texts host = true)

/-- **The panel's answer is misleading**: the first rule that is not certainly off the
destination covers it by a domain or a CIDR, and is for other sniffed protocols. -/
def Misleading (texts : Texts) (policy : RoutingPolicy) (host : String) (port : Int)
    (sniffed : Option Sniffed) : Prop :=
  ∃ before rule after, policy.enabledRules = before ++ rule :: after
    ∧ (∀ other ∈ before, other.RulesOut texts host port) ∧ rule.Covers texts host port
    ∧ rule.admits sniffed = false

theorem rulesOut_iff :
    rule.RulesOut texts host port ↔ destinationMatches texts rule host port = some false := by
  unfold RoutingRule.RulesOut destinationMatches
  dsimp only
  constructor
  · rintro (⟨hpts, hport⟩ | ⟨hnm, haddr, hsit, hips, hprots, hnam⟩)
    · rw [hport, List.isEmpty_eq_false_iff.mpr hpts]
      rfl
    · rw [hnm, haddr, hsit, hips, hprots]
      have hsm : (rule.matcher.domains.isEmpty && rule.matcher.cidrs.isEmpty) = false := by
        rw [Bool.and_eq_false_iff, List.isEmpty_eq_false_iff, List.isEmpty_eq_false_iff]
        exact hnam
      rw [hsm]
      split
      · rfl
      · rfl
  · intro h
    split at h
    next hport =>
      rw [Bool.and_eq_true, Bool.not_eq_true', Bool.not_eq_true', List.isEmpty_eq_false_iff] at hport
      exact .inl hport
    · split at h
      · cases h
      next hcov =>
        split at h
        · cases h
        next hgeo =>
          split at h
          · cases h
          next hn =>
            simp only [Bool.or_eq_true, not_or, Bool.not_eq_true, Bool.not_eq_false',
              List.isEmpty_iff] at hcov hgeo
            rw [Bool.not_eq_true, Bool.and_eq_false_iff, List.isEmpty_eq_false_iff,
              List.isEmpty_eq_false_iff] at hn
            exact .inr ⟨hcov.1, hcov.2, hgeo.1.1, hgeo.1.2, hgeo.2, hn⟩

theorem destinationMatches_of_covers (h : rule.Covers texts host port) :
    destinationMatches texts rule host port = some true := by
  obtain ⟨hport, hcov⟩ := h
  unfold destinationMatches
  rw [if_neg, if_pos]
  · exact Bool.or_eq_true_iff.mpr hcov
  · rw [Bool.and_eq_true, Bool.not_eq_true', Bool.not_eq_true', List.isEmpty_eq_false_iff]
    rintro ⟨hpts, hoth⟩
    rcases hport with hn | hport
    · exact hpts hn
    · rw [hport] at hoth
      cases hoth

/-- A rule that is sure to match and is for other protocols covers the destination. -/
theorem covers_of_not_admits (h : destinationMatches texts rule host port = some true)
    (hoth : rule.admits sniffed = false) : rule.Covers texts host port := by
  unfold destinationMatches at h
  dsimp only at h
  split at h
  · cases h
  next hport =>
    split at h
    next hcov =>
      refine ⟨?_, Bool.or_eq_true_iff.mp hcov⟩
      rw [Bool.and_eq_true, Bool.not_eq_true', Bool.not_eq_true', List.isEmpty_eq_false_iff,
        not_and, Bool.not_eq_false] at hport
      exact or_iff_not_imp_left.mpr hport
    · split at h
      · cases h
      next hgeo =>
        simp only [Bool.or_eq_true, not_or, Bool.not_eq_true, Bool.not_eq_false'] at hgeo
        unfold RoutingRule.admits at hoth
        rw [hgeo.2] at hoth
        cases hoth

variable {rules : List RoutingRule}

/-- **What a scan with nothing uncertain finds**: the first rule that is not certainly
off the destination, and that one is sure to match. -/
theorem scan_certain (h : (scan texts host port rules).1 = []) : (scan texts host port rules).2
      = rules.find? fun rule => destinationMatches texts rule host port != some false := by
  induction rules with
  | nil => rfl
  | cons rule rest ih =>
    unfold scan at h ⊢
    cases hrule : destinationMatches texts rule host port with
    | none =>
      rw [hrule] at h
      cases h
    | some decided =>
      rw [hrule] at h
      cases decided with
      | true =>
        rw [List.find?_cons_of_pos]
        rw [hrule]
        rfl
      | false =>
        rw [List.find?_cons_of_neg]
        · exact ih h
        · rw [hrule]
          exact Bool.false_ne_true

theorem scan_winner (h : (scan texts host port rules).2 = some rule) :
    destinationMatches texts rule host port = some true := by
  induction rules with
  | nil => cases h
  | cons first rest ih =>
    unfold scan at h
    cases hfst : destinationMatches texts first host port with
    | none =>
      rw [hfst] at h
      exact ih h
    | some decided =>
      rw [hfst] at h
      cases decided with
      | true =>
        cases h
        exact hfst
      | false => exact ih h

/-- **With nothing uncertain, `explain` names the first rule that matches, except where
its answer is misleading**: for every policy, destination and port, whatever the
geodata says and whatever the sniffer saw. -/
theorem explain_names_first_match (policy : RoutingPolicy) (host : String) (port : Int)
    (geodata : Geodata) (sniffed : Option Sniffed)
    (hcertain : (explain texts policy host port).uncertain = []) :
    explained texts policy host port = firstMatch texts policy host port geodata sniffed
      ↔ ¬ Misleading texts policy host port sniffed := by
  have hscan : (scan texts host port policy.enabledRules).1 = [] := hcertain
  have hfirst := scan_certain hscan
  unfold explained firstMatch
  cases hwinner : (scan texts host port policy.enabledRules).2 with
  | none =>
    rw [hwinner] at hfirst
    have hoff : ∀ rule ∈ policy.enabledRules,
        destinationMatches texts rule host port = some false := by
      intro rule hrule
      simpa using List.find?_eq_none.mp hfirst.symm rule hrule
    have hnone : policy.enabledRules.find?
        (fun rule => rule.matcher.meets texts host port geodata sniffed) = none := by
      refine List.find?_eq_none.mpr fun rule hrule => ?_
      rw [not_meets_of_destinationMatches (hoff rule hrule)]
      exact Bool.false_ne_true
    rw [hnone]
    refine iff_of_true rfl ?_
    rintro ⟨before, rule, after, hrules, -, hcovers, -⟩
    have hmatch := destinationMatches_of_covers hcovers
    rw [hoff rule (by rw [hrules]; simp)] at hmatch
    cases hmatch
  | some winner =>
    rw [hwinner] at hfirst
    have hsure := scan_winner hwinner
    obtain ⟨hdecides, before, after, hrules, hbefore⟩ :=
      List.find?_eq_some_iff_append.mp hfirst.symm
    have hoff : ∀ rule ∈ before, destinationMatches texts rule host port = some false := by
      intro rule hrule
      simpa using hbefore rule hrule
    constructor
    · -- A rule that is for other protocols is not a match, so it is not the first one.
      rintro hsame ⟨before', rule, after', hrules', hbefore', hcovers, hother⟩
      have hfound : policy.enabledRules.find?
          (fun rule => destinationMatches texts rule host port != some false) = some rule := by
        refine List.find?_eq_some_iff_append.mpr ⟨?_, before', after', hrules', ?_⟩
        · rw [destinationMatches_of_covers hcovers]
          rfl
        · intro other hmem
          rw [rulesOut_iff.mp (hbefore' other hmem)]
          rfl
      rw [hfound] at hfirst
      cases hfirst
      have hmeets := List.find?_some hsame.symm
      rw [meets_of_destinationMatches hsure, hother] at hmeets
      cases hmeets
    · intro hhonest
      have hadmits : winner.admits sniffed = true := by
        rw [← Bool.not_eq_false]
        intro hother
        exact hhonest ⟨before, winner, after, hrules,
          fun rule hrule => rulesOut_iff.mpr (hoff rule hrule),
          covers_of_not_admits hsure hother, hother⟩
      refine (List.find?_eq_some_iff_append.mpr ⟨?_, before, after, hrules, ?_⟩).symm
      · rw [meets_of_destinationMatches hsure, hadmits]
      · intro rule hrule
        rw [not_meets_of_destinationMatches (hoff rule hrule)]
        rfl

namespace Sample

/-- Texts in lower case, of which none is an address. -/
def plainTexts : Texts := ⟨id, fun _ => none, fun _ => none⟩

def noGeodata : Geodata := ⟨fun _ => false, fun _ => false⟩

/-- BitTorrent with `example.com` is blocked, everything else goes direct. -/
def noTorrents : RoutingPolicy where
  id := "policy"
  protocol := .naive
  lane := "svc"
  backend := .xrayRouter
  intent :=
    { defaultAction := .direct
      defaultEgress := none
      fallback := .failClosed
      rules := [⟨some "rule", true, ⟨["example.com"], [], [], [], [], [.bittorrent]⟩, .block,
        none⟩] }

/-- For a connection that is BitTorrent, the answer is right. -/
theorem explain_names_first_match_torrent :
    (explain plainTexts noTorrents "example.com" 443).uncertain = []
      ∧ explained plainTexts noTorrents "example.com" 443
        = firstMatch plainTexts noTorrents "example.com" 443 noGeodata (some .bittorrent) := by
  have hcertain : (explain plainTexts noTorrents "example.com" 443).uncertain = [] := by
    decide +kernel
  refine ⟨hcertain, (explain_names_first_match noTorrents "example.com" 443 noGeodata
    (some .bittorrent) hcertain).mpr ?_⟩
  rintro ⟨before, rule, after, hrules, -, -, hother⟩
  have honly : rule ∈ noTorrents.enabledRules := by
    rw [hrules]
    exact List.mem_append_right before List.mem_cons_self
  have hadmits : ∀ rule ∈ noTorrents.enabledRules, rule.admits (some .bittorrent) = true := by
    decide +kernel
  rw [hadmits rule honly] at hother
  cases hother

/-- **A browser's connection is said to be blocked**, with nothing uncertain, and the
rule is not about it. -/
theorem explain_blocks_browser :
    noTorrents.intent.valid plainTexts = true
      ∧ explain plainTexts noTorrents "example.com" 443
        = ⟨"svc", some "rule", "block", none, [], none, []⟩
      ∧ firstMatch plainTexts noTorrents "example.com" 443 noGeodata (some .tls) = none := by
  decide +kernel

end Sample

end Routing
