import ProxyControl.IntentParts
import ProxyControl.Verdicts

/-!
# A compiled document never widens access

A policy may keep a client from something: it may block it, or send it through an exit so
that it does not leave from the node. What is compiled from the policy must not undo that.
Each document is read back as a default and lines, one for each rule of the policy
(`Document.read`), and a line is *kept* (`Kept`) if it stands for its rule: it selects what
the rule selects, blocks where the rule blocks, and goes direct only if the rule does or if
`warp` is down and the operator approved.

No line may send what is private anywhere: an address of a private network, or a name
under `localhost`. The compiler refuses rules with such networks, and with the names
`localhost` and `*.localhost`; but not with other names under `localhost`, nor with codes
of the geodata that hold something private. So this holds exactly where no rule that
opens something has such names or codes, and of NaiveProxy, whose lines only block
(`never_widens_iff`). It is about the lines by themselves: what a line names, not what a
line on ports alone would take, which the router keeps from private destinations by
rules of its own.
-/

namespace Routing

open List
open Table

/-! ## Destinations -/

/-- Where a connection is to go: a name in its normal form, or an address. -/
inductive Destination
  | name (host : String)
  | address (ip : IpAddress)

/-- The node itself and its networks. -/
def Destination.isPrivate : Destination → Bool
  | .name host => isUnder host "localhost"
  | .address ip => privateNetworks.any (·.contains ip)

/-- A name under a domain of a rule. -/
def Destination.under : Destination → String → Bool
  | .name host, domain => isUnder host (stripWildcard domain)
  | .address _, _ => false

/-- An address in a network of a rule. -/
def Destination.within (texts : Texts) : Destination → String → Bool
  | .name _, _ => false
  | .address ip, cidr => (texts.network cidr).any (·.contains ip)

/-- **A rule names a destination**: by a domain, a network, or a code of the geodata,
whatever its ports and protocols. `atlas` says which codes hold a destination. -/
def RuleMatch.names (texts : Texts) (atlas : Destination → Geodata) (named : RuleMatch)
    (destination : Destination) : Bool :=
  named.domains.any destination.under || named.geosites.any (atlas destination).geosite
    || named.cidrs.any (destination.within texts) || named.geoips.any (atlas destination).geoip

/-! ## Reading documents back -/

/-- A line of a document: what it selects and what it does with it. -/
structure Line where
  matcher : RuleMatch
  action : Action
deriving DecidableEq, Repr

def MieruRule.line (rule : MieruRule) : Line where
  matcher := ⟨rule.domains, rule.cidrs, [], [], [], []⟩
  action := match rule.action with
    | .direct => .direct
    | .reject => .block
    | .proxy => .egress

def BodyRule.line (rule : BodyRule) : Line :=
  ⟨⟨rule.domains, rule.cidrs, rule.ports, rule.geosites, rule.geoips, rule.protocols⟩, rule.action⟩

/-- Denied subjects: what has a slash is a network. -/
def denyLine (subjects : List String) : Line where
  matcher :=
    ⟨subjects.filter (! ·.toList.contains '/'), subjects.filter (·.toList.contains '/'), [], [], [],
      []⟩
  action := .block

/-- A list in pieces of given lengths. -/
def pieces {α : Type} : List Nat → List α → List (List α)
  | [], _ => []
  | length :: lengths, items => items.take length :: pieces lengths (items.drop length)

def throughUpstream (upstream : Option String) : DefaultAction :=
  if upstream.isSome then .egress else .direct

def isCatchAll (rule : MieruRule) : Bool :=
  rule.domains == ["*"] && rule.cidrs == ["*"] && rule.action == .proxy

/-- **What a document says for a policy**: the default, and a line for each rule. NaiveProxy's
list of what it denies is cut at the rules' lengths; Mieru's default is its last rule, if
that takes everything; the router has a body for each lane. -/
def Document.read (policy : RoutingPolicy) : Document → Option (DefaultAction × List Line)
  | .naive upstream acl => some (throughUpstream upstream,
      (pieces (policy.enabledRules.map (·.subjects.length)) acl.flatten).map denyLine)
  | .mieru _ rules =>
    if rules.getLast?.any isCatchAll then some (.egress, rules.dropLast.map MieruRule.line)
    else some (.direct, rules.map MieruRule.line)
  | .whole upstream => some (throughUpstream upstream, [])
  | .trusttunnelDirect => some (.direct, [])
  | .router (.one body) => some (body.defaultAction, body.rules.map BodyRule.line)
  | .router (.two lanes _ _) =>
    (find lanes (laneKey policy.protocol policy.lane)).map fun body =>
      (body.defaultAction, body.rules.map BodyRule.line)

/-! ## What must be kept -/

/-- **A line that stands for its rule.** -/
structure Kept (fallback : Fallback) (down : Bool) (rule : RoutingRule) (line : Line) : Prop where
  domains : ∀ suffix, suffix ∈ line.matcher.domains.map stripWildcard
    ↔ suffix ∈ rule.matcher.domains.map stripWildcard
  cidrs : line.matcher.cidrs = rule.matcher.cidrs
  ports : line.matcher.ports = rule.matcher.ports
  geosites : line.matcher.geosites = rule.matcher.geosites
  geoips : line.matcher.geoips = rule.matcher.geoips
  protocols : line.matcher.protocols = rule.matcher.protocols
  closed : fallback = .failClosed → rule.action ≠ .direct → line.action ≠ .direct
  approved : fallback = .approvedDirect → rule.action ≠ .direct → line.action = .direct →
    rule.egress = some "warp" ∧ down = true
  blocks : rule.action = .block → line.action = .block

/-- The default of a document stands for that of the policy. -/
structure DefaultKept (down : Bool) (intent : Intent) (compiled : DefaultAction) : Prop where
  closed : intent.fallback = .failClosed → intent.defaultAction = .egress → compiled = .egress
  approved : intent.fallback = .approvedDirect → intent.defaultAction = .egress →
    compiled = .direct → intent.defaultEgress = some "warp" ∧ down = true

/-- No line sends something private anywhere. -/
def Confined (texts : Texts) (atlas : Destination → Geodata) (lines : List Line) : Prop :=
  ∀ line ∈ lines, line.action ≠ .block → ∀ destination : Destination,
    destination.isPrivate = true → line.matcher.names texts atlas destination = false

/-- **The document does not widen what the policy allows.** -/
def Document.NeverWidens (texts : Texts) (atlas : Destination → Geodata) (down : Bool)
    (document : Document) (policy : RoutingPolicy) : Prop :=
  ∃ compiled lines, document.read policy = some (compiled, lines)
    ∧ DefaultKept down policy.intent compiled
    ∧ List.Forall₂ (Kept policy.intent.fallback down) policy.enabledRules lines
    ∧ Confined texts atlas lines

/-- A rule has no name under `localhost`, and no code that holds something private. -/
structure RoutingRule.Guarded (atlas : Destination → Geodata) (rule : RoutingRule) : Prop where
  domains : ∀ domain ∈ rule.matcher.domains, isUnder (stripWildcard domain) "localhost" = false
  geosites : ∀ code ∈ rule.matcher.geosites, ∀ destination : Destination,
    destination.isPrivate = true → (atlas destination).geosite code = false
  geoips : ∀ code ∈ rule.matcher.geoips, ∀ destination : Destination,
    destination.isPrivate = true → (atlas destination).geoip code = false

/-- Rules that open something are guarded. -/
def RoutingPolicy.Guarded (atlas : Destination → Geodata) (policy : RoutingPolicy) : Prop :=
  ∀ rule ∈ policy.enabledRules, rule.action ≠ .block → rule.Guarded atlas

/-! ## Networks that overlap -/

theorem testBit_mask (net : Network) (length i : Nat) :
    (net.mask length).testBit i = decide (i < net.bits ∧ net.bits - length ≤ i) := by
  unfold Network.mask
  split
  · rw [Nat.zero_testBit, eq_comm, decide_eq_false_iff_not]
    omega
  · rw [Nat.testBit_and, Nat.testBit_shiftLeft, Nat.testBit_two_pow_sub_one,
      Nat.testBit_two_pow_sub_one, Bool.eq_iff_iff]
    simp only [Bool.and_eq_true, decide_eq_true_iff]
    omega

/-- A longer mask covers a shorter one. -/
theorem and_mask_and_mask (net : Network) {short long : Nat} (h : short ≤ long) (v : Nat) :
    v &&& net.mask long &&& net.mask short = v &&& net.mask short := by
  refine Nat.eq_of_testBit_eq fun i => ?_
  rw [Nat.testBit_and, Nat.testBit_and, Nat.testBit_and, testBit_mask, testBit_mask, Bool.and_assoc]
  congr 1
  rw [Bool.eq_iff_iff]
  simp only [Bool.and_eq_true, decide_eq_true_iff]
  omega

/-- **Networks with an address in common overlap.** -/
theorem overlaps_of_contains {net o : Network} {ip : IpAddress}
    (h : net.contains ip = true) (h' : o.contains ip = true) :
    net.overlaps o = true := by
  unfold Network.contains at h h'
  rw [Bool.and_eq_true, beq_iff_eq, beq_iff_eq] at h h'
  have hbits : o.mask = net.mask := by
    unfold Network.mask Network.bits
    rw [← h'.1, ← h.1]
  rw [hbits] at h'
  unfold Network.overlaps
  rw [Bool.and_eq_true, beq_iff_eq, beq_iff_eq]
  refine ⟨h.1.symm.trans h'.1, ?_⟩
  have hleft := and_mask_and_mask net (Nat.min_le_left net.length o.length)
  have hright := and_mask_and_mask net (Nat.min_le_right net.length o.length)
  calc net.address &&& net.mask (min net.length o.length)
      = ip.value &&& net.mask (min net.length o.length) := by
        rw [← hleft net.address, ← h.2, hleft]
    _ = o.address &&& net.mask (min net.length o.length) := by
        rw [← hright o.address, ← h'.2, hright]

/-! ## Names under names -/

variable {domain host : String}

theorem isUnder_iff : isUnder host domain = true ↔ host.toList = domain.toList
      ∨ ('.' :: domain.toList) <:+ host.toList := by
  unfold isUnder
  rw [Bool.or_eq_true, beq_iff_eq, isSuffixOf_iff_suffix]

theorem isUnder_self (dom : String) : isUnder dom dom = true :=
  isUnder_iff.mpr (.inl rfl)

/-- **A name under a domain and under `localhost` makes the domain one under it**: there is
no dot in `localhost`. -/
theorem isUnder_localhost (h : isUnder host domain = true)
    (hloc : isUnder host "localhost" = true) : isUnder domain "localhost" = true := by
  rcases isUnder_iff.mp h with heq | hdom
  · exact isUnder_iff.mpr (by rw [← heq]; exact isUnder_iff.mp hloc)
  rcases isUnder_iff.mp hloc with heq | hsuf
  · rw [heq] at hdom
    exact absurd (hdom.subset mem_cons_self) (by decide)
  · refine isUnder_iff.mpr ?_
    rcases suffix_or_suffix_of_suffix hsuf hdom with hshort | hlong
    · rcases suffix_cons_iff.mp hshort with heq | hshort
      · exact .inl (cons.inj heq).2.symm
      · exact .inr hshort
    · rcases suffix_cons_iff.mp hlong with heq | hlong
      · exact .inl (cons.inj heq).2
      · exact absurd (hlong.subset mem_cons_self) (by decide)

/-! ## Lines name what their rules name -/

section

variable {texts : Texts} {atlas : Destination → Geodata} {fallback : Fallback} {down : Bool} {rule : RoutingRule}
  {line : Line} {xs ys : List String}

theorem any_under_eq (dest : Destination)
    (h : ∀ suf, suf ∈ xs.map stripWildcard ↔ suf ∈ ys.map stripWildcard) :
    xs.any dest.under = ys.any dest.under := by
  have hhalf : ∀ xs ys : List String, (∀ suf, suf ∈ xs.map stripWildcard →
      suf ∈ ys.map stripWildcard) → xs.any dest.under = true →
      ys.any dest.under = true := by
    intro xs ys hsub hany
    obtain ⟨x, hx, hund⟩ := any_eq_true.mp hany
    obtain ⟨y, hy, heq⟩ := mem_map.mp (hsub _ (mem_map_of_mem hx))
    refine any_eq_true.mpr ⟨y, hy, ?_⟩
    cases dest with
    | name host =>
      rw [Destination.under] at hund ⊢
      rw [heq]
      exact hund
    | address ip => exact hund
  rw [Bool.eq_iff_iff]
  exact ⟨hhalf xs ys fun suf => (h suf).mp, hhalf ys xs fun suf => (h suf).mpr⟩

theorem Kept.names_eq (h : Kept fallback down rule line) (dest : Destination) :
    line.matcher.names texts atlas dest = rule.matcher.names texts atlas dest := by
  unfold RuleMatch.names
  rw [any_under_eq dest h.domains, h.cidrs, h.geosites, h.geoips]

/-- **What a guarded rule does not name**, where the compiler found its networks public. -/
theorem RoutingRule.Guarded.not_names (h : rule.Guarded atlas) (hpubl : isPrivate texts rule = false)
    {dest : Destination} (hpriv : dest.isPrivate = true) :
    rule.matcher.names texts atlas dest = false := by
  unfold isPrivate at hpubl
  rw [Bool.or_eq_false_iff] at hpubl
  have hns : rule.matcher.domains.any dest.under = false := by
    refine any_eq_false.mpr fun domain hmem hund => ?_
    cases dest with
    | name host =>
      have hloc := isUnder_localhost hund hpriv
      rw [h.domains domain hmem] at hloc
      cases hloc
    | address ip => cases hund
  have hnets : rule.matcher.cidrs.any (dest.within texts) = false := by
    refine any_eq_false.mpr fun cidr hmem hwin => ?_
    cases dest with
    | name host => cases hwin
    | address ip =>
      rw [Destination.within, Option.any_eq_true] at hwin
      obtain ⟨net, hnet, hcont⟩ := hwin
      obtain ⟨other, hoth, hins⟩ := any_eq_true.mp hpriv
      refine any_eq_false.mp hpubl.2 cidr hmem ?_
      unfold isPrivateNetwork
      rw [hnet]
      exact any_eq_true.mpr ⟨other, hoth, overlaps_of_contains hcont hins⟩
  have hsit : rule.matcher.geosites.any (atlas dest).geosite = false :=
    any_eq_false.mpr fun code hmem => Bool.eq_false_iff.mp (h.geosites code hmem dest hpriv)
  have hips : rule.matcher.geoips.any (atlas dest).geoip = false :=
    any_eq_false.mpr fun code hmem => Bool.eq_false_iff.mp (h.geoips code hmem dest hpriv)
  unfold RuleMatch.names
  rw [hns, hsit, hnets, hips]
  rfl

theorem guarded_of_not_names (texts : Texts) (h : ∀ dest : Destination, dest.isPrivate = true →
      rule.matcher.names texts atlas dest = false) : rule.Guarded atlas := by
  unfold RuleMatch.names at h
  simp only [Bool.or_eq_false_iff, any_eq_false, Bool.not_eq_true] at h
  refine ⟨fun domain hmem => ?_, fun code hmem dest hpriv => (h dest hpriv).1.1.2 code hmem,
    fun code hmem dest hpriv => (h dest hpriv).2 code hmem⟩
  by_contra hund
  have hself := (h (.name (stripWildcard domain)) (Bool.of_not_eq_false hund)).1.1.1 domain hmem
  exact Bool.false_ne_true (hself.symm.trans (isUnder_self _))

end

/-! ## Policies whose lines are kept -/

variable {α β : Type} {l : List α} {m : List β} {R : α → β → Prop}

theorem forall₂_imp_mem {S : α → β → Prop} (h : List.Forall₂ R l m)
    (himp : ∀ a ∈ l, ∀ b, R a b → S a b) : List.Forall₂ S l m := by
  induction h with
  | nil => exact .nil
  | cons hab _ ih =>
    rw [forall_mem_cons] at himp
    exact .cons (himp.1 _ hab) (ih himp.2)

theorem exists_mem_of_forall₂ (h : List.Forall₂ R l m) {a : α} (ha : a ∈ l) : ∃ b ∈ m, R a b := by
  induction h with
  | nil => cases ha
  | cons hab _ ih =>
    rcases mem_cons.mp ha with rfl | ha
    · exact ⟨_, mem_cons_self, hab⟩
    · obtain ⟨b, hb, hR⟩ := ih ha
      exact ⟨b, mem_cons_of_mem _ hb, hR⟩

section

variable {texts : Texts} {atlas : Destination → Geodata} {down : Bool} {policy : RoutingPolicy}
  {document : Document} {comp : DefaultAction} {lines : List Line}

/-- A line that is kept, and opens what its rule opens. -/
structure Told (fallback : Fallback) (down : Bool) (rule : RoutingRule) (line : Line) : Prop extends
    Kept fallback down rule line where
  opens : line.action = .block → rule.action = .block

/-- **A document that tells a policy's lines is confined exactly if the policy is guarded.** -/
theorem neverWidens_iff
    (hpubl : ∀ rule ∈ policy.enabledRules, rule.action = .block ∨ isPrivate texts rule = false)
    (hrd : document.read policy = some (comp, lines))
    (hdef : DefaultKept down policy.intent comp)
    (htold : List.Forall₂ (Told policy.intent.fallback down) policy.enabledRules lines) :
    document.NeverWidens texts atlas down policy ↔ policy.Guarded atlas := by
  constructor
  · rintro ⟨comp', lines', hrd', -, -, hconf⟩
    rw [hrd] at hrd'
    cases hrd'
    intro rule hmem hact
    obtain ⟨line, hline, htold⟩ := exists_mem_of_forall₂ htold hmem
    refine guarded_of_not_names texts fun dest hpriv => ?_
    rw [← htold.names_eq]
    exact hconf line hline (fun hblk => hact (htold.opens hblk)) dest hpriv
  · intro hgd
    refine ⟨comp, lines, hrd, hdef, htold.imp fun _ _ h => h.toKept, ?_⟩
    intro line hline hact dest hpriv
    obtain ⟨rule, hmem, htold⟩ := exists_mem_of_forall₂ htold.flip hline
    have hopen : rule.action ≠ .block := fun hblk => hact (htold.blocks hblk)
    rw [htold.names_eq]
    exact (hgd rule hmem hopen).not_names ((hpubl rule hmem).resolve_left hopen) hpriv

end

/-! ## Rules after the fallback -/

variable {domain : String} {names : Names}

section

variable {texts : Texts} {fallback : Fallback} {down : Bool} {rule softened : RoutingRule}

/-- A rule as it was written, or direct where the fallback made it so. -/
structure Softened (fallback : Fallback) (down : Bool) (rule softened : RoutingRule) : Prop where
  matcher : softened.matcher = rule.matcher
  action : softened.action = rule.action
    ∨ (fallback = .approvedDirect ∧ down = true ∧ rule.egress = some "warp"
      ∧ rule.action = .egress ∧ softened.action = .direct)

theorem Softened.refl (rule : RoutingRule) : Softened fallback down rule rule := ⟨rfl, .inl rfl⟩

theorem softened_withoutWarp (hval : rule.valid texts = true)
    (happr : fallback = .approvedDirect) (hdown : down = true) :
    Softened fallback down rule rule.withoutWarp := by
  unfold RoutingRule.withoutWarp
  split
  next hwarp =>
    unfold RoutingRule.valid at hval
    simp only [Bool.and_eq_true, beq_iff_eq] at hval
    rw [hwarp] at hval
    exact ⟨rfl, .inr ⟨happr, hdown, hwarp, of_decide_eq_true hval.1.2.symm, rfl⟩⟩
  · exact .refl rule

theorem softened_withoutEgress (hpln : rule.Plain) (happr : fallback = .approvedDirect)
    (hdown : down = true) : Softened fallback down rule rule.withoutEgress := by
  unfold RoutingRule.withoutEgress
  split
  next hegr =>
    have hwarp := hpln.egress
    rw [if_pos hegr] at hwarp
    exact ⟨rfl, .inr ⟨happr, hdown, hwarp, hegr, rfl⟩⟩
  · exact .refl rule

/-- A line with the selectors of a softened rule, and its action. -/
theorem told_of_softened {line : Line} (h : Softened fallback down rule softened)
    (hdoms : ∀ suf, suf ∈ line.matcher.domains.map stripWildcard
      ↔ suf ∈ rule.matcher.domains.map stripWildcard)
    (hcidrs : line.matcher.cidrs = rule.matcher.cidrs)
    (hpts : line.matcher.ports = rule.matcher.ports)
    (hsit : line.matcher.geosites = rule.matcher.geosites)
    (hips : line.matcher.geoips = rule.matcher.geoips)
    (hprots : line.matcher.protocols = rule.matcher.protocols)
    (hact : line.action = softened.action) : Told fallback down rule line := by
  have hiff : rule.action = .block ↔ line.action = .block := by
    rw [hact]
    rcases h.action with hsm | ⟨-, -, -, hegr, hdir⟩
    · rw [hsm]
    · rw [hegr, hdir]
      decide
  refine ⟨⟨hdoms, hcidrs, hpts, hsit, hips, hprots, ?_, ?_, hiff.mp⟩, hiff.mpr⟩
  · intro hclo hnot
    rw [hact]
    rcases h.action with hsm | ⟨happr, -⟩
    · rw [hsm]
      exact hnot
    · rw [hclo] at happr
      cases happr
  · intro _ hnot hdir
    rw [hact] at hdir
    rcases h.action with hsm | ⟨-, hdown, hwarp, -⟩
    · exact absurd (hsm.symm.trans hdir) hnot
    · exact ⟨hwarp, hdown⟩

theorem stripWildcard_stripWildcard (h : isDomain (stripWildcard domain).toList = true) :
    stripWildcard (stripWildcard domain) = stripWildcard domain := by
  have hstar := not_mem_of_isDomain h (by decide : '*' ≠ '.') (by decide)
  unfold stripWildcard at hstar ⊢
  split at hstar
  · rw [String.toList_ofList] at hstar
    split
    next inner hinn =>
      rw [String.toList_ofList] at hinn
      rw [hinn] at hstar
      exact absurd mem_cons_self hstar
    · rfl
  next hpln =>
    split
    next rest hdom => exact absurd hdom (hpln rest)
    · rfl

theorem mem_suffixes_strip {domains : List String}
    (h : domains.all (fun domain => isDomain (stripWildcard domain).toList) = true)
    (suf : String) :
    suf ∈ (suffixes domains).map stripWildcard ↔ suf ∈ domains.map stripWildcard := by
  have hall := all_eq_true.mp h
  rw [mem_map, mem_map]
  constructor
  · rintro ⟨stripped, hmem, rfl⟩
    obtain ⟨domain, hdom, rfl⟩ := mem_suffixes.mp hmem
    exact ⟨domain, hdom, (stripWildcard_stripWildcard (hall domain hdom)).symm⟩
  · rintro ⟨domain, hdom, rfl⟩
    exact ⟨stripWildcard domain, mem_suffixes.mpr ⟨domain, hdom, rfl⟩,
      stripWildcard_stripWildcard (hall domain hdom)⟩

theorem domains_of_valid (h : rule.valid texts = true) :
    rule.matcher.domains.all (fun domain => isDomain (stripWildcard domain).toList) = true := by
  unfold RoutingRule.valid RuleMatch.valid at h
  simp only [Bool.and_eq_true] at h
  exact h.1.1.1.1.1.2

theorem told_named (hval : rule.valid texts = true) (h : Softened fallback down rule softened) :
    Told fallback down rule (softened.named names).line := by
  unfold RoutingRule.named bodyRule BodyRule.line
  rw [h.matcher]
  exact told_of_softened h (mem_suffixes_strip (domains_of_valid hval)) rfl rfl rfl rfl rfl rfl

theorem told_mieru (hval : rule.valid texts = true) (hpln : rule.Plain)
    (h : Softened fallback down rule softened) :
    Told fallback down rule (mieruRule softened).line := by
  unfold mieruRule MieruRule.line
  rw [h.matcher]
  refine told_of_softened h (mem_suffixes_strip (domains_of_valid hval)) rfl hpln.ports.symm
    hpln.geosites.symm hpln.geoips.symm hpln.protocols.symm ?_
  cases softened.action <;> rfl

/-- NaiveProxy denies what a rule names, whatever the rule does with it. -/
theorem kept_deny (hpln : rule.Plain) :
    Kept fallback down rule (denyLine rule.subjects) := by
  have hdoms : rule.subjects.filter (! ·.toList.contains '/') = rule.matcher.domains := by
    unfold RoutingRule.subjects
    rw [filter_append, filter_eq_self.mpr, filter_eq_nil_iff.mpr, append_nil]
    · intro cidr hmem
      rw [contains_iff_mem.mpr (hpln.cidrs cidr hmem)]
      exact Bool.false_ne_true
    · intro domain hmem
      rw [Bool.not_eq_true', ← Bool.not_eq_true, contains_iff_mem]
      exact (hpln.domains domain hmem).1
  have hcidrs : rule.subjects.filter (·.toList.contains '/') = rule.matcher.cidrs := by
    unfold RoutingRule.subjects
    rw [filter_append, filter_eq_nil_iff.mpr, filter_eq_self.mpr, nil_append]
    · intro cidr hmem
      exact contains_iff_mem.mpr (hpln.cidrs cidr hmem)
    · intro domain hmem hsl
      exact (hpln.domains domain hmem).1 (contains_iff_mem.mp hsl)
  unfold denyLine
  rw [hdoms, hcidrs]
  have hdir : Action.block ≠ .direct := by decide
  exact ⟨fun _ => Iff.rfl, rfl, hpln.ports.symm, hpln.geosites.symm, hpln.geoips.symm,
    hpln.protocols.symm, fun _ _ => hdir, fun _ _ h => absurd h hdir, fun _ => rfl⟩

end

/-! ## Native documents -/

variable {policy : RoutingPolicy} {rule : RoutingRule} {texts : Texts}

theorem rule_valid (h : policy.intent.valid texts = true) (hmem : rule ∈ policy.enabledRules) :
    rule.valid texts = true := by
  unfold Intent.valid at h
  simp only [Bool.and_eq_true] at h
  exact all_eq_true.mp h.1.1.2 rule (mem_filter.mp hmem).1

section

variable {texts : Texts} {atlas : Destination → Geodata} {policy : RoutingPolicy}
  {target : EgressTarget}

theorem pieces_flatMap (f : α → List β) (xs : List α) :
    pieces (xs.map fun x => (f x).length) (xs.flatMap f) = xs.map f := by
  induction xs with
  | nil => rfl
  | cons x xs ih =>
    rw [map_cons, flatMap_cons, pieces, take_left, drop_left, ih, map_cons]

/-- The rules that are written down, beside those of the policy. -/
theorem softened_effective (hacc : Accepted policy target) :
    List.Forall₂ (Softened policy.intent.fallback target.warpDown) policy.enabledRules
      (effective policy target).2 := by
  unfold effective
  rw [hacc.rules]
  split
  next hfalls =>
    unfold fallsBack at hfalls
    simp only [Bool.and_eq_true, decide_eq_true_iff] at hfalls
    rw [forall₂_map_right_iff, forall₂_same]
    exact fun rule hmem =>
      softened_withoutEgress (hacc.plain rule hmem) hfalls.2 hfalls.1.2
  · rw [forall₂_same]
    exact fun rule _ => .refl rule

theorem defaultKept_effective (hegr : policy.intent.defaultEgress
      = warpUpstream policy.intent.defaultAction) :
    DefaultKept target.warpDown policy.intent (effective policy target).1 := by
  unfold effective
  split
  next hfalls =>
    unfold fallsBack at hfalls
    simp only [Bool.and_eq_true, decide_eq_true_iff] at hfalls
    refine ⟨fun hclo => ?_, fun _ hact _ => ?_⟩
    · rw [hclo] at hfalls
      cases hfalls.2
    · rw [hact] at hegr
      exact ⟨hegr, hfalls.1.2⟩
  · refine ⟨fun _ hact => hact, fun _ hact hdir => ?_⟩
    rw [hact] at hdir
    cases hdir

theorem throughUpstream_warpUpstream (action : DefaultAction) :
    throughUpstream (warpUpstream action) = action := by
  cases action <;> rfl

theorem subjects_effective (hacc : Accepted policy target) :
    (effective policy target).2.flatMap RoutingRule.subjects
      = policy.enabledRules.flatMap RoutingRule.subjects := by
  unfold effective
  rw [hacc.rules]
  split
  · rw [flatMap_map]
    refine congrArg (flatMap · _) (funext fun rule => ?_)
    unfold RoutingRule.withoutEgress
    split <;> rfl
  · rfl

/-- NaiveProxy: the list is the rules' subjects in order. -/
theorem read_naive (hacc : Accepted policy target) :
    (naiveDocument (effective policy target).1 (effective policy target).2).read policy
      = some ((effective policy target).1, policy.enabledRules.map fun rule =>
        denyLine rule.subjects) := by
  unfold naiveDocument Document.read
  dsimp only
  rw [subjects_effective hacc, flatten_chunks (by decide) _ _ (Nat.le_refl _), pieces_flatMap,
    map_map, throughUpstream_warpUpstream]
  rfl

theorem not_isCatchAll (hdoms : rule.matcher.domains.all
      (fun domain => isDomain (stripWildcard domain).toList) = true) :
    isCatchAll (mieruRule rule) = false := by
  refine Bool.eq_false_iff.mpr fun hall => ?_
  unfold isCatchAll mieruRule at hall
  simp only [Bool.and_eq_true, beq_iff_eq] at hall
  have hstar : "*" ∈ suffixes rule.matcher.domains := by
    rw [hall.1.1]
    exact mem_singleton_self _
  obtain ⟨domain, hmem, hstrip⟩ := mem_suffixes.mp hstar
  exact (domain_plain (all_eq_true.mp hdoms domain hmem)).2 hstrip

theorem read_mieru (p : RoutingPolicy) {rules : List RoutingRule}
    (hl : ∀ rule ∈ rules, isCatchAll (mieruRule rule) = false) (action : DefaultAction) :
    (mieruDocument action rules).read p
      = some (action, rules.map fun rule => (mieruRule rule).line) := by
  unfold mieruDocument Document.read mieruDefault
  dsimp only
  cases action with
  | direct =>
    rw [if_neg (by decide : DefaultAction.direct ≠ .egress), append_nil, if_neg, map_map]
    · rfl
    · intro hany
      obtain ⟨last, hmem, hall⟩ := (Option.any_eq_true _ _).mp hany
      obtain ⟨rule, hrule, rfl⟩ := mem_map.mp (mem_of_getLast? hmem)
      rw [hl rule hrule] at hall
      cases hall
  | egress =>
    rw [if_pos rfl, getLast?_concat, dropLast_concat, map_map]
    rfl

theorem public_of_ruleReason {defaultAction : DefaultAction}
    (h : ruleReason texts target defaultAction rule = none) :
    rule.action = .block ∨ isPrivate texts rule = false := by
  unfold ruleReason at h
  dsimp only at h
  split at h
  · cases h
  split at h
  · cases h
  split at h
  · cases h
  split at h
  · cases h
  rename_i hopen
  by_cases hblk : rule.action = .block
  · exact .inl hblk
  · exact .inr (Bool.eq_false_iff.mpr fun hpriv => hopen ⟨hblk, hpriv⟩)

theorem public_of_nativeReasons (hback : target.backend ≠ .amneziawgNative)
    (h : nativeReasons texts policy target = []) :
    ∀ rule ∈ policy.enabledRules, rule.action = .block ∨ isPrivate texts rule = false := by
  have hrs : nativeRules policy target = policy.enabledRules := if_neg hback
  unfold nativeReasons at h
  rw [hrs] at h
  have hn := (append_eq_nil_iff.mp (append_eq_nil_iff.mp h).1).2
  exact fun rule hmem => public_of_ruleReason (filterMap_eq_nil_iff.mp hn rule hmem)

/-- AmneziaWG: no rules, and no exit but `warp`. -/
theorem whole_of_nativeReasons (hval : policy.intent.valid texts = true)
    (hback : target.backend = .amneziawgNative) (h : nativeReasons texts policy target = []) :
    policy.enabledRules = []
      ∧ policy.intent.defaultEgress = warpUpstream policy.intent.defaultAction := by
  have hwh := (append_eq_nil_iff.mp (append_eq_nil_iff.mp h).1).1
  obtain ⟨hfst, hl⟩ := append_eq_nil_iff.mp hwh
  have hrs := (append_eq_nil_iff.mp hfst).2
  rw [if_pos hback] at hrs
  unfold Intent.valid at hval
  simp only [Bool.and_eq_true] at hval
  constructor
  · cases hlist : policy.enabledRules with
    | nil => rfl
    | cons rule rest =>
      rw [hlist] at hrs
      cases hrs
  · refine egress_eq hval.1.2 hval.2 ?_
    by_contra htrue
    rw [if_pos (Bool.of_not_eq_false htrue)] at hl
    cases hl

/-- **A native document never widens a guarded policy**, and NaiveProxy's none. -/
theorem native_iff (hval : policy.intent.valid texts = true) (hown : target.backend ≠ .xrayRouter)
    (hkind : target.backend ≠ .mtproxyNative ∧ target.backend ≠ .trusttunnelNative)
    (hreas : nativeReasons texts policy target = []) :
    (nativeDocument target.backend (effective policy target).1
        (effective policy target).2).NeverWidens texts atlas target.warpDown policy
      ↔ target.backend = .naiveNative ∨ policy.Guarded atlas := by
  by_cases hwh : target.backend = .amneziawgNative
  · obtain ⟨hrs, hegr⟩ := whole_of_nativeReasons hval hwh hreas
    have hrd : (nativeDocument target.backend (effective policy target).1
        (effective policy target).2).read policy = some ((effective policy target).1, []) := by
      rw [hwh]
      show some (throughUpstream (warpUpstream _), []) = _
      rw [throughUpstream_warpUpstream]
    rw [or_iff_right (by rw [hwh]; decide)]
    refine neverWidens_iff ?_ hrd (defaultKept_effective hegr) ?_
    · rw [hrs]
      exact nofun
    · rw [hrs]
      exact .nil
  have hacc := accepted_of_nativeReasons hval hwh hreas
  have hdef : DefaultKept target.warpDown policy.intent (effective policy target).1 :=
    defaultKept_effective hacc.defaultEgress
  by_cases hnv : target.backend = .naiveNative
  · rw [hnv]
    refine iff_of_true ⟨_, _, read_naive hacc, hdef, ?_, fun line hline hact => ?_⟩ (.inl rfl)
    · rw [forall₂_map_right_iff, forall₂_same]
      exact fun rule hmem => kept_deny (hacc.plain rule hmem)
    · obtain ⟨rule, -, rfl⟩ := mem_map.mp hline
      exact absurd rfl hact
  · have hmieru : target.backend = .mieruNative := by
      cases hback : target.backend <;> simp_all
    have hsoftened := softened_effective hacc
    have hl : ∀ rule ∈ (effective policy target).2, isCatchAll (mieruRule rule) = false := by
      intro rule hmem
      obtain ⟨src, hsrc, hsoft⟩ := exists_mem_of_forall₂ hsoftened.flip hmem
      refine not_isCatchAll ?_
      rw [hsoft.matcher]
      exact domains_of_valid (rule_valid hval hsrc)
    rw [or_iff_right hnv, hmieru]
    refine neverWidens_iff (public_of_nativeReasons hwh hreas) (read_mieru policy hl _) hdef ?_
    rw [forall₂_map_right_iff]
    exact forall₂_imp_mem hsoftened fun rule hmem softened hsoft =>
      told_mieru (rule_valid hval hmem) (hacc.plain rule hmem) hsoft

end

/-! ## The policies of a service -/

def isGrantLane (lane : String) : Bool := "grant:".toList.isPrefixOf lane.toList

/-- **The policies of one service**, as the panel stores them: of one protocol, each with its
own lane, which is the service's or that of a grant. -/
structure OneService (texts : Texts) (policy : RoutingPolicy) (lanes : List RoutingPolicy) :
    Prop where
  protocol : ∀ other ∈ ordered policy lanes, other.protocol = policy.protocol
  distinct : ((ordered policy lanes).map (·.lane)).Nodup
  named : ∀ other ∈ ordered policy lanes, other.lane = laneService ∨ isGrantLane other.lane = true
  valid : ∀ other ∈ ordered policy lanes, other.intent.valid texts = true

variable {lanes : List RoutingPolicy} {other : RoutingPolicy}

theorem mem_ordered {p : RoutingPolicy} :
    other ∈ ordered p lanes ↔ other = p ∨ (other ∈ lanes ∧ other.id ≠ p.id) := by
  unfold ordered
  by_cases hlane : other.lane = laneService <;> simp [hlane]

theorem laneKey_inj {p : Reconciler.Protocol} {a b : String}
    (ha : a = laneService ∨ isGrantLane a = true) (hb : b = laneService ∨ isGrantLane b = true)
    (h : laneKey p a = laneKey p b) : a = b := by
  have hg : ∀ lane, isGrantLane lane = true → "svc:" ++ p.asStr ≠ lane := by
    rintro lane hlane rfl
    unfold isGrantLane at hlane
    rw [String.toList_append] at hlane
    simp at hlane
  unfold laneKey at h
  by_cases hsa : a = laneService <;> by_cases hsb : b = laneService
  · exact hsa.trans hsb.symm
  · rw [if_pos hsa, if_neg hsb] at h
    exact absurd h (hg b (hb.resolve_left hsb))
  · rw [if_neg hsa, if_pos hsb] at h
    exact absurd h.symm (hg a (ha.resolve_left hsa))
  · rw [if_neg hsa, if_neg hsb] at h
    exact h

/-- Without lanes of clients there is one policy. -/
theorem ordered_eq_singleton (h : OneService texts policy lanes)
    (hsvc : ∀ other ∈ ordered policy lanes, other.lane = laneService) :
    ordered policy lanes = [policy] := by
  have hpol : policy ∈ ordered policy lanes := mem_ordered.mpr (.inl rfl)
  have hdist := h.distinct
  cases hlist : ordered policy lanes with
  | nil =>
    rw [hlist] at hpol
    cases hpol
  | cons first rest =>
    rw [hlist] at hsvc hdist hpol
    cases rest with
    | nil =>
      rw [mem_singleton.mp hpol]
    | cons second rest =>
      rw [map_cons, map_cons, nodup_cons, hsvc first mem_cons_self,
        hsvc second (mem_cons_of_mem _ mem_cons_self)] at hdist
      exact absurd mem_cons_self hdist.1

/-! ## The router's intent -/

section

variable {site : Site} {atlas : Destination → Geodata} {router : RouterTarget}
  {policy : RoutingPolicy} {lane : CheckedLane}

theorem lane_of_checked (h : Checked site router policy lane) : lane.lane = policy.lane := by
  rcases h.settled with rfl | ⟨-, -, rfl⟩ <;> rfl

theorem softened_of_checked (hval : policy.intent.valid site.texts = true)
    (h : Checked site router policy lane) :
    List.Forall₂ (Softened policy.intent.fallback router.warpDown) policy.enabledRules
      lane.rules := by
  rcases h.settled with rfl | ⟨happr, hdown, rfl⟩
  · exact forall₂_same.mpr fun rule _ => .refl rule
  · show List.Forall₂ _ policy.enabledRules (policy.enabledRules.map RoutingRule.withoutWarp)
    rw [forall₂_map_right_iff, forall₂_same]
    exact fun rule hmem => softened_withoutWarp (rule_valid hval hmem) happr hdown

theorem defaultKept_of_checked (h : Checked site router policy lane) :
    DefaultKept router.warpDown policy.intent lane.defaultAction := by
  rcases h.settled with rfl | ⟨happr, hdown, rfl⟩
  · refine ⟨fun _ hact => hact, fun _ hact hdir => ?_⟩
    exact absurd (hact.symm.trans hdir) (by decide)
  · unfold CheckedLane.withoutWarp RoutingPolicy.asLane
    refine ⟨fun hclo => ?_, fun _ hact hdir => ?_⟩
    · rw [happr] at hclo
      cases hclo
    · by_cases hwarp : policy.intent.defaultEgress = some "warp"
      · exact ⟨hwarp, hdown⟩
      · rw [if_neg hwarp] at hdir
        exact absurd (hact.symm.trans hdir) (by decide)

/-- A policy whose lane has its body in the document. -/
theorem routed_iff {d : Document} (hval : policy.intent.valid site.texts = true)
    (h : Checked site router policy lane) (hrd : d.read policy = some (lane.defaultAction,
      (lane.body names).rules.map BodyRule.line)) :
    d.NeverWidens site.texts atlas router.warpDown policy ↔ policy.Guarded atlas := by
  refine neverWidens_iff (fun rule hmem => (h.rules rule hmem).guarded) hrd
    (defaultKept_of_checked h) ?_
  unfold CheckedLane.body
  rw [forall₂_map_right_iff, forall₂_map_right_iff]
  exact forall₂_imp_mem (softened_of_checked hval h) fun rule hmem softened hsoft =>
    told_named (rule_valid hval hmem) hsoft

end

/-- **Each policy finds its lane in the document**, as it was checked. -/
theorem read_routed {site : Site} {rtr : RouterTarget} {lookups : Lookups}
    {warnings : List String} {comp : Compiled RouterIntent} {d : RouterIntent}
    (hserv : OneService site.texts policy lanes)
    (h : Supported site rtr lookups warnings policy lanes comp d)
    (hoth : other ∈ ordered policy lanes) :
    ∃ lane names, Checked site rtr other lane
      ∧ (Document.router d).read other = some (lane.defaultAction,
        (lane.body names).rules.map BodyRule.line) := by
  obtain ⟨-, hchk⟩ := checkLanes_eq_ok h.lanes_eq h.clean
  obtain ⟨lane, hlane, hwas⟩ := exists_mem_of_forall₂ hchk hoth
  have hlanes : h.checked.map (·.lane) = (ordered policy lanes).map (·.lane) := by
    have hpairs := hchk.imp fun _ _ hpair => lane_of_checked hpair
    rw [← forall₂_eq_eq_eq, forall₂_map_left_iff, forall₂_map_right_iff]
    exact hpairs.flip.imp fun _ _ heq => heq
  have hdoc := h.document_eq
  unfold documentOf at hdoc
  split at hdoc
  · -- A body for each lane, under its key.
    have hk : (([] : List (String × LaneBody)).map Prod.fst
        ++ h.checked.map fun lane => laneKey policy.protocol lane.lane).Nodup := by
      rw [map_nil, nil_append]
      have hmap : (h.checked.map fun lane => laneKey policy.protocol lane.lane)
          = (h.checked.map (·.lane)).map (laneKey policy.protocol) := by
        rw [map_map]
        rfl
      rw [hmap, hlanes]
      refine List.Nodup.map_on ?_ hserv.distinct
      intro a ha b hb heq
      obtain ⟨x, hx, rfl⟩ := mem_map.mp ha
      obtain ⟨y, hy, rfl⟩ := mem_map.mp hb
      exact laneKey_inj (hserv.named x hx) (hserv.named y hy) heq
    obtain ⟨names, hbodies, -⟩ := laneBodies_eq policy.protocol ⟨[], []⟩ [] h.checked hk
    refine ⟨lane, names, hwas, ?_⟩
    have htwo := (Prod.mk.inj (Option.some.inj hdoc)).1
    unfold intentV2 at htwo
    rw [hbodies] at htwo
    rw [← htwo]
    have hf : find (h.checked.map fun lane =>
        (laneKey policy.protocol lane.lane, lane.body names))
        (laneKey other.protocol other.lane) = some (lane.body names) := by
      refine find_of_mem ?_ ?_
      · rw [map_map]
        exact hk
      · rw [hserv.protocol other hoth, ← lane_of_checked hwas]
        exact mem_map_of_mem hlane
    show (find _ _).map _ = _
    rw [nil_append, hf]
    rfl
  · -- One lane, the service's own.
    rename_i hpln
    rw [not_or, not_or, not_not, not_not] at hpln
    have hsvc : ∀ other ∈ ordered policy lanes, other.lane = laneService := by
      intro one hone
      obtain ⟨its, hits, hpair⟩ := exists_mem_of_forall₂ hchk hone
      by_contra hg
      refine hpln.1 (any_eq_true.mpr ⟨its, hits, ?_⟩)
      rw [lane_of_checked hpair]
      exact decide_eq_true hg
    have hone := ordered_eq_singleton hserv hsvc
    rw [hone] at hchk hoth
    rw [mem_singleton.mp hoth] at hwas ⊢
    obtain ⟨its, rest, hpair, hr, hlist⟩ := forall₂_cons_left_iff.mp hchk
    rw [forall₂_nil_left_iff.mp hr] at hlist
    rw [hlist] at hdoc
    refine ⟨its, ⟨[], []⟩, hpair, ?_⟩
    rw [← (Prod.mk.inj (Option.some.inj hdoc)).1]
    show some (its.defaultAction, (its.rules.map fun rule => bodyRule rule rule.egress).map
      BodyRule.line) = _
    unfold CheckedLane.body
    rw [map_map, map_map]
    rfl

/-! ## Every compiled document -/

/-- `warp` is down, as the program says that runs the policy. -/
def warpDown (policy : RoutingPolicy) (target : EgressTarget) (options : Options) : Bool :=
  if policy.backend = .xrayRouter then options.router.any (·.warpDown) else target.warpDown

theorem ordered_of_not_isLane (hserv : OneService texts policy lanes)
    (hlane : isLane policy lanes = false) : ordered policy lanes = [policy] := by
  unfold isLane at hlane
  rw [Bool.or_eq_false_iff, decide_eq_false_iff_not, not_not] at hlane
  refine ordered_eq_singleton hserv fun other hoth => ?_
  rcases mem_ordered.mp hoth with rfl | ⟨hmem, -⟩
  · exact hlane.1
  · have hoth := any_eq_false.mp hlane.2 other hmem
    rw [decide_eq_true_iff, not_not] at hoth
    exact hoth

/-- **A supported document never widens access, exactly if the policies are guarded** or it
is NaiveProxy's. This is of every policy of the service that the document was compiled
from, of every capability set, and of whatever the geodata says. -/
theorem never_widens_iff (site : Site) (atlas : Destination → Geodata) (policy : RoutingPolicy)
    (target : EgressTarget) (options : Options) {compiled : Compiled Document}
    (hservice : OneService site.texts policy options.lanes)
    (h : compile site policy (some target) options = .ok compiled)
    (hsupported : compiled.status = .supported) :
    ∃ document, compiled.document = some document
      ∧ ((∀ other ∈ ordered policy options.lanes,
          document.NeverWidens site.texts atlas (warpDown policy target options) other)
        ↔ policy.backend = .naiveNative
          ∨ ∀ other ∈ ordered policy options.lanes, other.Guarded atlas) := by
  have hvalid := hservice.valid policy (mem_ordered.mpr (.inl rfl))
  unfold warpDown
  cases answer_of_compile h hsupported with
  | routed router intent hbackend hgiven hrun hstatus hsame =>
    obtain ⟨document, ⟨hintent⟩⟩ := supported_of_compileIntent hrun hstatus
    refine ⟨.router document, ?_, ?_⟩
    · rw [hsame]
      show intent.document.map Document.router = _
      rw [hintent.answer.1]
      rfl
    · rw [if_pos hbackend, hgiven, or_iff_right (by rw [hbackend]; decide)]
      refine forall₂_congr fun other hother => ?_
      obtain ⟨lane, names, hchecked, hread⟩ := read_routed hservice hintent hother
      exact routed_iff (hservice.valid other hother) hchecked hread
  | direct hbackend hlane hkind hwhole hdocument =>
    refine ⟨_, hdocument, ?_⟩
    have hread : (directDocument target.backend).read policy = some (.direct, []) := by
      rcases hkind with hkind | hkind <;> rw [hkind] <;> rfl
    have hother : policy.backend ≠ .naiveNative := by
      rw [hbackend]
      rcases hkind with hkind | hkind <;> rw [hkind] <;> decide
    rw [ordered_of_not_isLane hservice hlane, List.forall_mem_singleton,
      List.forall_mem_singleton, or_iff_right hother]
    refine neverWidens_iff ?_ hread ⟨fun _ haction => ?_, fun _ haction => ?_⟩ ?_
    · rw [hwhole.2]
      exact nofun
    · exact absurd (hwhole.1.symm.trans haction) (by decide)
    · exact absurd (hwhole.1.symm.trans haction) (by decide)
    · rw [hwhole.2]
      exact .nil
  | native hbackend hlane hown hkind hreasons hdocument =>
    refine ⟨_, hdocument, ?_⟩
    rw [ordered_of_not_isLane hservice hlane, List.forall_mem_singleton,
      List.forall_mem_singleton, if_neg hown]
    rw [hbackend] at hown ⊢
    exact native_iff hvalid hown hkind hreasons

namespace Sample

/-- Mieru, direct but for one rule. -/
abbrev but (domain : String) (action : Action) : RoutingPolicy :=
  directBut .mieruNative .failClosed domain action none

variable {action : Action}

theorem oneService_but (h : (but domain action).intent.valid plainTexts = true) :
    OneService plainTexts (but domain action) [] := by
  have hone : ordered (but domain action) [] = [but domain action] := rfl
  refine ⟨?_, ?_, ?_, ?_⟩ <;> rw [hone]
  · exact forall_mem_singleton.mpr rfl
  · exact nodup_singleton _
  · exact forall_mem_singleton.mpr (.inl rfl)
  · exact forall_mem_singleton.mpr h

/-- The answer for such a policy. -/
def answer (domain : String) (action : Action) : Except String (Compiled Document) :=
  compile plainSite (but domain action) (some (managerOf .mieruNative true)) withoutRouter

theorem answer_supported (h : ((answer domain action).toOption.map (·.status)) = some .supported) :
    ∃ comp, answer domain action = .ok comp ∧ comp.status = .supported := by
  cases hans : answer domain action with
  | error msg =>
    rw [hans] at h
    cases h
  | ok comp =>
    rw [hans] at h
    exact ⟨comp, rfl, Option.some.inj h⟩

/-- Geodata without any entries. -/
def emptyAtlas : Destination → Geodata := fun _ => ⟨fun _ => false, fun _ => false⟩

/-- **A rule on a public name is sound.** -/
theorem never_widens_public : ∃ compiled document,
    answer "example.org" .direct = .ok compiled ∧ compiled.document = some document
      ∧ document.NeverWidens plainTexts emptyAtlas false (but "example.org" .direct) := by
  have hguarded : (but "example.org" .direct).Guarded emptyAtlas := by
    intro rule hmem _
    obtain rfl := mem_singleton.mp hmem
    exact ⟨by decide, by simp, by simp⟩
  obtain ⟨compiled, hanswer, hstatus⟩ :=
    answer_supported (by decide +kernel :
      ((answer "example.org" .direct).toOption.map (·.status)) = some .supported)
  obtain ⟨document, hdocument, hiff⟩ := never_widens_iff plainSite emptyAtlas
    (but "example.org" .direct) (managerOf .mieruNative true) withoutRouter
    (oneService_but (by decide +kernel)) hanswer hstatus
  exact ⟨compiled, document, hanswer, hdocument,
    hiff.mpr (.inr (List.forall_mem_singleton.mpr hguarded)) _ (List.mem_singleton_self _)⟩

/-- **A rule that opens `app.localhost` compiles**, and its line sends that name direct. -/
theorem opens_localhost : ∃ compiled document,
    answer "app.localhost" .direct = .ok compiled ∧ compiled.status = .supported
      ∧ compiled.document = some document
      ∧ ¬ document.NeverWidens plainTexts emptyAtlas false (but "app.localhost" .direct) := by
  obtain ⟨compiled, hanswer, hstatus⟩ :=
    answer_supported (by decide +kernel :
      ((answer "app.localhost" .direct).toOption.map (·.status)) = some .supported)
  obtain ⟨-, -, hdocument, -⟩ := compile_native (.inr rfl) hanswer hstatus
  refine ⟨compiled, _, hanswer, hstatus, hdocument, ?_⟩
  rintro ⟨action, lines, hread, -, -, hconfined⟩
  cases hread
  have hline := hconfined _ List.mem_cons_self (by decide) (.name "app.localhost") (by decide)
  exact absurd hline (by decide)

end Sample

end Routing
