import ProxyControl.Compiler

/-!
# What native documents mean

The document of a policy should send a connection where the policy says, and where the
panel explains that it goes. The *verdict* of a document on a host is read off the
semantics of the program that runs it (`Document.verdict`).

It is what `explain` names, with two exceptions (`verdict_named_iff`). A domain that is
written without `*.` covers the names under it for `explain` and for Mieru, but
NaiveProxy denies only that very name. And where `warp` does not answer and the operator
approved to go direct, the document goes direct while `explain` still names the egress.

The policies that compile are of a simple kind, and this is what the argument rests on:
their rules name domains and CIDRs and nothing else (`Plain`), so that `explain` is never
uncertain and names the first rule that covers the host.
-/

namespace Routing

open List
open Table

/-! ## What a document means -/

/-- Where a connection goes. -/
structure Verdict where
  action : Action
  exit : Option String
deriving DecidableEq, Repr

def Verdict.through (upstream : Option String) : Verdict :=
  ⟨if upstream.isSome then .egress else .direct, upstream⟩

/-- forwardproxy denies the name that stands there, what is under it where it is written
`*.`, and the addresses of a network. -/
def subjectDenies (texts : Texts) (host subject : String) : Bool :=
  if subject.toList.contains '/' then
    (texts.ipAddress host).any fun address => (texts.network subject).any (·.contains address)
  else if ['*', '.'].isPrefixOf subject.toList then
    isUnder (normalHost texts host) (stripWildcard subject)
  else normalHost texts host == subject

/-- mita matches a name by suffix and an address by network, and `*` matches all. -/
def MieruRule.takes (texts : Texts) (host : String) (rule : MieruRule) : Bool :=
  (rule.domains.any fun domain => domain == "*" || isUnder (normalHost texts host) domain)
    || rule.cidrs.any fun cidr => cidr == "*" || (texts.ipAddress host).any fun address =>
      (texts.network cidr).any (·.contains address)

def MieruRule.verdict (proxies : List (String × String)) (rule : MieruRule) : Verdict :=
  match rule.action with
  | .direct => ⟨.direct, none⟩
  | .reject => ⟨.block, none⟩
  | .proxy => ⟨.egress, rule.proxy.bind (find proxies)⟩

/-- **Where a document sends a host.** The router's intent is not read here. -/
def Document.verdict (texts : Texts) (host : String) : Document → Option Verdict
  | .naive upstream acl =>
    if acl.any (fun deny => deny.any (subjectDenies texts host)) then some ⟨.block, none⟩
    else some (.through upstream)
  | .mieru proxies rules =>
    match rules.find? (MieruRule.takes texts host) with
    | some rule => some (rule.verdict proxies)
    | none => some ⟨.direct, none⟩
  | .whole upstream => some (.through upstream)
  | .trusttunnelDirect => some ⟨.direct, none⟩
  | .router _ => none

/-- What an explanation says about where a connection goes. -/
def Explanation.Names (explanation : Explanation) (verdict : Verdict) : Prop :=
  explanation.action = verdict.action.asStr ∧ explanation.exit = verdict.exit

variable {tx : Texts} {p : RoutingPolicy} {target : EgressTarget} {host : String}
  {port : Int}

/-! ## Rules of domains and CIDRs -/

/-- A domain or a CIDR of the rule covers the host. -/
def RoutingRule.covers (texts : Texts) (host : String) (rule : RoutingRule) : Bool :=
  rule.matcher.coversName texts host || rule.matcher.coversAddress texts host

/-- **A rule that a native backend can run**: domains and CIDRs in their canonical forms,
and no exit but `warp`. -/
structure RoutingRule.Plain (rule : RoutingRule) : Prop where
  ports : rule.matcher.ports = []
  geosites : rule.matcher.geosites = []
  geoips : rule.matcher.geoips = []
  protocols : rule.matcher.protocols = []
  named : rule.matcher.domains ≠ [] ∨ rule.matcher.cidrs ≠ []
  domains : ∀ domain ∈ rule.matcher.domains, '/' ∉ domain.toList ∧ stripWildcard domain ≠ "*"
  cidrs : ∀ cidr ∈ rule.matcher.cidrs, '/' ∈ cidr.toList
  egress : rule.egress = if rule.action = .egress then some "warp" else none

variable {rule : RoutingRule}

theorem destinationMatches_plain (h : rule.Plain) :
    destinationMatches tx rule host port = some (rule.covers tx host) := by
  have hnam : (rule.matcher.domains.isEmpty && rule.matcher.cidrs.isEmpty) = false := by
    rw [Bool.and_eq_false_iff, isEmpty_eq_false_iff, isEmpty_eq_false_iff]
    exact h.named
  unfold destinationMatches RoutingRule.covers
  dsimp only
  rw [h.ports, h.geosites, h.geoips, h.protocols, hnam]
  cases (rule.matcher.coversName tx host || rule.matcher.coversAddress tx host) with
  | true => rfl
  | false => rfl

variable {rules : List RoutingRule} {domain : String}

/-- On such rules a scan is never uncertain and finds the first that covers the host. -/
theorem scan_plain (h : ∀ rule ∈ rules, rule.Plain) :
    scan tx host port rules = ([], rules.find? (RoutingRule.covers tx host)) := by
  induction rules with
  | nil => rfl
  | cons rule rest ih =>
    have hr := ih fun o hmem => h o (mem_cons_of_mem rule hmem)
    unfold scan
    rw [destinationMatches_plain (h rule mem_cons_self), find?_cons]
    cases rule.covers tx host with
    | true => rfl
    | false => exact hr

/-- What a default and rules say about a host: the first rule that covers it, or the
default. -/
def decided (texts : Texts) (host : String) (defaultAction : DefaultAction)
    (rules : List RoutingRule) : Verdict :=
  match rules.find? (RoutingRule.covers texts host) with
  | some rule => ⟨rule.action, rule.egress⟩
  | none => .through (warpUpstream defaultAction)

theorem explain_plain (h : ∀ rule ∈ p.enabledRules, rule.Plain)
    (hdef : p.intent.defaultEgress = warpUpstream p.intent.defaultAction) :
    (explain tx p host port).uncertain = [] ∧ (explain tx p host port).Names
        (decided tx host p.intent.defaultAction p.enabledRules) := by
  have hscan : scan tx host port p.enabledRules
      = ([], p.enabledRules.find? (RoutingRule.covers tx host)) := scan_plain h
  unfold explain explained Explanation.Names decided
  rw [hscan]
  refine ⟨rfl, ?_⟩
  cases p.enabledRules.find? (RoutingRule.covers tx host) with
  | some rule => exact ⟨rfl, rfl⟩
  | none =>
    refine ⟨?_, hdef⟩
    show p.intent.defaultAction.asStr = _
    cases p.intent.defaultAction with
    | direct => rfl
    | egress => rfl

theorem Action.asStr_injective {a b : Action} (h : a.asStr = b.asStr) : a = b := by
  revert h
  cases a <;> cases b <;> decide

theorem Explanation.Names.eq {explanation : Explanation} {verdict other : Verdict}
    (h : explanation.Names verdict) (h' : explanation.Names other) : verdict = other := by
  obtain ⟨action, exit⟩ := verdict
  obtain ⟨action', exit'⟩ := other
  have hact : action = action' := Action.asStr_injective (h.1.symm.trans h'.1)
  have hexit : exit = exit' := h.2.symm.trans h'.2
  rw [hact, hexit]

/-! ## The policies that compile -/

theorem mem_of_mem_splitOn {α : Type} [DecidableEq α] {separator item : α} {items : List α}
    (h : item ∈ items) (hne : item ≠ separator) :
    ∃ part ∈ items.splitOn separator, item ∈ part := by
  have hmem : ∀ parts : List (List α), item ∈ intercalate [separator] parts →
      ∃ part ∈ parts, item ∈ part := by
    intro parts
    induction parts with
    | nil => intro hnil; cases hnil
    | cons part rest ih =>
      intro hcons
      cases rest with
      | nil => exact ⟨part, mem_cons_self, by simpa using hcons⟩
      | cons next rest =>
        rw [intercalate_cons_cons, mem_append, mem_append] at hcons
        rcases hcons with (hpart | hsep) | hr
        · exact ⟨part, mem_cons_self, hpart⟩
        · exact absurd (mem_singleton.mp hsep) hne
        · obtain ⟨found, hfnd, hitem⟩ := ih hr
          exact ⟨found, mem_cons_of_mem part hfnd, hitem⟩
  refine hmem _ ?_
  rw [intercalate_splitOn]
  exact h

/-- A domain is letters, digits, hyphens and dots. -/
theorem not_mem_of_isDomain {domain : List Char} (h : isDomain domain = true) {c : Char}
    (hdot : c ≠ '.') (hc : (('a' ≤ c && c ≤ 'z') || ('0' ≤ c && c ≤ '9') || c == '-') = false) :
    c ∉ domain := by
  intro hmem
  obtain ⟨label, hlab, hin⟩ := mem_of_mem_splitOn hmem hdot
  have hall := all_eq_true.mp (Bool.and_eq_true_iff.mp h).2 label hlab
  unfold isLabel at hall
  simp only [Bool.and_eq_true] at hall
  have hedge := all_eq_true.mp hall.1.1.2 c hin
  rw [hc] at hedge
  cases hedge

theorem domain_plain (h : isDomain (stripWildcard domain).toList = true) :
    '/' ∉ domain.toList ∧ stripWildcard domain ≠ "*" := by
  have hsl : '/' ∉ (stripWildcard domain).toList :=
    not_mem_of_isDomain h (by decide) (by decide)
  constructor
  · unfold stripWildcard at hsl
    split at hsl
    next rest hdom =>
      rw [hdom]
      simpa using hsl
    · exact hsl
  · intro hstar
    have hn := not_mem_of_isDomain (c := '*') h (by decide) (by decide)
    rw [hstar] at hn
    exact hn (by decide)

/-- An exit that no native backend refuses is `warp`. -/
theorem eq_warp_of_isExit {exit : String} (h : isExit exit = true)
    (hbey : exitBeyond (some exit) = false) : exit = "warp" := by
  unfold isExit at h
  rw [Bool.or_eq_true] at h
  rcases h with hwarp | hform
  · exact eq_of_beq hwarp
  · have hpre : ("node:".toList.isPrefixOf exit.toList
        || "exit:".toList.isPrefixOf exit.toList) = false := hbey
    split at hform
    next guid hexit =>
      rw [hexit] at hpre
      simp at hpre
    next chain hexit =>
      rw [hexit] at hpre
      simp at hpre
    · cases hform

/-- What an egress is, where only `warp` can be named. -/
theorem egress_eq {eg : Option String} {through : Prop} [Decidable through]
    (hsm : (eg.isSome == decide through) = true) (hexit : eg.all isExit = true)
    (hbey : exitBeyond eg = false) : eg = if through then some "warp" else none := by
  rw [beq_iff_eq] at hsm
  cases eg with
  | none =>
    have hnot : ¬ through := of_decide_eq_false hsm.symm
    rw [if_neg hnot]
  | some exit =>
    have hthr : through := of_decide_eq_true hsm.symm
    rw [if_pos hthr, eq_warp_of_isExit hexit hbey]

variable {defaultAction : DefaultAction}

/-- What a rule passed that has no reason against it. -/
theorem ruleReason_eq_none (h : ruleReason tx target defaultAction rule = none) :
    exitBeyond rule.egress = false
      ∧ (rule.matcher.ports = [] ∧ rule.matcher.geosites = [] ∧ rule.matcher.geoips = []
        ∧ rule.matcher.protocols = [])
      ∧ missing (neededOfNative rule) target.capabilities = []
      ∧ ¬ (target.backend = .naiveNative ∧ rule.action = .block ∧ defaultAction = .egress) := by
  unfold ruleReason at h
  dsimp only at h
  split at h
  · cases h
  rename_i hbey
  split at h
  · cases h
  rename_i hkinds
  split at h
  · cases h
  rename_i hmiss
  split at h
  · cases h
  split at h
  · cases h
  rename_i hbes
  simp only [Bool.or_eq_true, Bool.not_eq_true', not_or, Bool.not_eq_false, List.isEmpty_iff]
    at hkinds hmiss
  obtain ⟨⟨⟨hpts, hsit⟩, hips⟩, hprots⟩ := hkinds
  exact ⟨Bool.eq_false_iff.mpr hbey, ⟨hpts, hsit, hips, hprots⟩, hmiss, hbes⟩

theorem plain_of_ruleReason (hval : rule.valid tx = true)
    (h : ruleReason tx target defaultAction rule = none) : rule.Plain := by
  obtain ⟨hbey, ⟨hpts, hsit, hips, hprots⟩, -, -⟩ := ruleReason_eq_none h
  unfold RoutingRule.valid RuleMatch.valid at hval
  simp only [Bool.and_eq_true] at hval
  obtain ⟨⟨⟨⟨⟨⟨-, hdoms⟩, hcidrs⟩, -⟩, hnam⟩, hegr⟩, hexit⟩ := hval
  refine ⟨hpts, hsit, hips, hprots, ?_, ?_, ?_, ?_⟩
  · unfold RuleMatch.selectors at hnam
    rw [hpts, hsit, hips, hprots] at hnam
    simp only [isEmpty_nil, Bool.and_true, Bool.not_true, Bool.or_false, Bool.not_eq_true',
      Bool.and_eq_false_iff, isEmpty_eq_false_iff] at hnam
    exact hnam
  · intro domain hmem
    exact domain_plain (all_eq_true.mp hdoms domain hmem)
  · intro cidr hmem
    have hcidr := all_eq_true.mp hcidrs cidr hmem
    exact contains_iff_mem.mp (Bool.and_eq_true_iff.mp hcidr).1
  · exact egress_eq hegr hexit hbey

/-- A rule that NaiveProxy runs is a block: it declares nothing selective. -/
theorem block_of_ruleReason (hdecl : target.Declared) (hnv : target.backend = .naiveNative)
    (hpln : rule.Plain)
    (h : ruleReason tx target defaultAction rule = none) :
    rule.action = .block ∧ defaultAction = .direct := by
  obtain ⟨-, -, hmiss, hbes⟩ := ruleReason_eq_none h
  have hneed : ∀ cell ∈ neededOfNative rule, cell ∈ Backend.cells .naiveNative := by
    intro cell hcell
    have hfilt : ((neededOfNative rule).filter fun cell => ! target.capabilities.contains cell)
        = [] := by
      exact perm_nil.mp (hmiss ▸ (perm_insertionSort (· ≤ ·) _).symm)
    have hcap := filter_eq_nil_iff.mp hfilt cell hcell
    rw [Bool.not_eq_true', Bool.not_eq_false, contains_iff_mem] at hcap
    rw [← hnv]
    exact hdecl cell hcap
  have hblk : rule.action = .block := by
    by_contra hoth
    unfold neededOfNative at hneed
    rw [if_neg hoth] at hneed
    rcases hpln.named with hdoms | hcidrs
    · rw [isEmpty_eq_false_iff.mpr hdoms] at hneed
      have hcell := hneed "selective_domain" (mem_append_left _ mem_cons_self)
      exact absurd hcell (by decide)
    · rw [isEmpty_eq_false_iff.mpr hcidrs] at hneed
      have hcell := hneed "selective_cidr" (mem_append_right _ mem_cons_self)
      exact absurd hcell (by decide)
  refine ⟨hblk, ?_⟩
  cases defaultAction with
  | direct => rfl
  | egress => exact absurd ⟨hnv, hblk, rfl⟩ hbes

/-- **What is known of a policy whose native document was compiled.** -/
structure Accepted (policy : RoutingPolicy) (target : EgressTarget) : Prop where
  plain : ∀ rule ∈ policy.enabledRules, rule.Plain
  defaultEgress : policy.intent.defaultEgress = warpUpstream policy.intent.defaultAction
  blocks : target.Declared → target.backend = .naiveNative → ∀ rule ∈ policy.enabledRules,
    rule.action = .block ∧ policy.intent.defaultAction = .direct
  rules : nativeRules policy target = policy.enabledRules

theorem accepted_of_nativeReasons (hval : p.intent.valid tx = true)
    (hback : target.backend ≠ .amneziawgNative)
    (h : nativeReasons tx p target = []) : Accepted p target := by
  have hrs : nativeRules p target = p.enabledRules := if_neg hback
  unfold nativeReasons at h
  rw [hrs] at h
  obtain ⟨hmost, -⟩ := append_eq_nil_iff.mp h
  obtain ⟨hwh, hn⟩ := append_eq_nil_iff.mp hmost
  have hbey : exitBeyond p.intent.defaultEgress = false := by
    have hl := (append_eq_nil_iff.mp hwh).2
    by_contra htrue
    rw [if_pos (Bool.of_not_eq_false htrue)] at hl
    cases hl
  unfold Intent.valid at hval
  simp only [Bool.and_eq_true] at hval
  obtain ⟨⟨⟨-, hall⟩, hegr⟩, hexit⟩ := hval
  have hreas : ∀ rule ∈ p.enabledRules, ruleReason tx target p.intent.defaultAction rule = none :=
    filterMap_eq_nil_iff.mp hn
  have hpln : ∀ rule ∈ p.enabledRules, rule.Plain := by
    intro rule hmem
    have hrule := all_eq_true.mp hall rule (mem_filter.mp hmem).1
    exact plain_of_ruleReason hrule (hreas rule hmem)
  refine ⟨hpln, egress_eq hegr hexit hbey, ?_, hrs⟩
  intro hdecl hnv rule hmem
  exact block_of_ruleReason hdecl hnv (hpln rule hmem) (hreas rule hmem)

theorem compile_native {site : Site} {opts : Options} {comp : Compiled Document}
    (hback : p.backend = .naiveNative ∨ p.backend = .mieruNative)
    (h : compile site p (some target) opts = .ok comp)
    (hsupp : comp.status = .supported) :
    target.backend = p.backend ∧ nativeReasons site.texts p target = []
      ∧ comp.document = some (nativeDocument target.backend (effective p target).1
        (effective p target).2)
      ∧ (nativeDocument target.backend (effective p target).1
        (effective p target).2).toJson.canonical.length ≤ maxDocumentBytes := by
  cases answer_of_compile h hsupp with
  | routed rtr intent hrtr =>
    rcases hback with hback | hback <;> rw [hback] at hrtr <;> cases hrtr
  | direct hsm hlane hkind =>
    rw [← hsm] at hkind
    rcases hback with hback | hback <;> rw [hback] at hkind <;> simp at hkind
  | native hsm hlane hown hkind hreas hdoc hfits =>
    exact ⟨hsm.symm, hreas, hdoc, hfits⟩

/-! ## Mieru -/

theorem mem_suffixes {domains : List String} {suffix : String} :
    suffix ∈ suffixes domains ↔ ∃ domain ∈ domains, stripWildcard domain = suffix := by
  have hfold : ∀ (domains out : List String), suffix ∈ domains.foldl (fun out domain =>
        if stripWildcard domain ∈ out then out else out ++ [stripWildcard domain]) out
      ↔ suffix ∈ out ∨ ∃ domain ∈ domains, stripWildcard domain = suffix := by
    intro domains
    induction domains with
    | nil => simp
    | cons domain rest ih =>
      intro out
      rw [foldl_cons, ih, exists_mem_cons_iff, ← or_assoc]
      refine or_congr_left ?_
      split
      next hkn =>
        refine ⟨.inl, ?_⟩
        rintro (hout | rfl)
        · exact hout
        · exact hkn
      · rw [mem_append, mem_singleton, eq_comm]
  unfold suffixes
  rw [hfold]
  simp

theorem coversAddress_eq (named : RuleMatch) :
    named.coversAddress tx host = named.cidrs.any fun cidr =>
      (tx.ipAddress host).any fun addr => (tx.network cidr).any (·.contains addr) := by
  unfold RuleMatch.coversAddress
  cases tx.ipAddress host with
  | none => simp
  | some addr => rfl

/-- mita takes by a rule what the rule covers. -/
theorem takes_mieruRule (h : rule.Plain) :
    (mieruRule rule).takes tx host = rule.covers tx host := by
  unfold MieruRule.takes RoutingRule.covers
  rw [coversAddress_eq]
  congr 1
  · unfold RuleMatch.coversName mieruRule
    rw [Bool.eq_iff_iff, any_eq_true, any_eq_true]
    constructor
    · rintro ⟨suf, hsuf, htakes⟩
      obtain ⟨domain, hdom, rfl⟩ := mem_suffixes.mp hsuf
      refine ⟨domain, hdom, ?_⟩
      rw [beq_eq_false_iff_ne.mpr (h.domains domain hdom).2, Bool.false_or] at htakes
      exact htakes
    · rintro ⟨domain, hdom, hund⟩
      refine ⟨stripWildcard domain, mem_suffixes.mpr ⟨domain, hdom, rfl⟩, ?_⟩
      rw [hund, Bool.or_true]
  · rw [Bool.eq_iff_iff, any_eq_true, any_eq_true]
    refine exists_congr fun cidr => and_congr_right fun hcidr => ?_
    have hstar : cidr ≠ "*" := by
      rintro rfl
      exact absurd (h.cidrs "*" hcidr) (by decide)
    rw [beq_eq_false_iff_ne.mpr hstar, Bool.false_or]

/-- **Mieru's document sends a host where the rules say.** -/
theorem verdict_mieruDocument (h : ∀ rule ∈ rules, rule.Plain) :
    (mieruDocument defaultAction rules).verdict tx host
      = some (decided tx host defaultAction rules) := by
  have hf : (rules.map mieruRule).find? (MieruRule.takes tx host)
      = (rules.find? (RoutingRule.covers tx host)).map mieruRule := by
    rw [find?_map]
    congr 1
    exact find?_congr fun rule hmem => takes_mieruRule (h rule hmem)
  unfold mieruDocument Document.verdict decided
  dsimp only
  rw [find?_append, hf]
  cases hrule : rules.find? (RoutingRule.covers tx host) with
  | some rule =>
    have hmem : rule ∈ rules := mem_of_find?_eq_some hrule
    show some ((mieruRule rule).verdict _) = some ⟨rule.action, rule.egress⟩
    rw [(h rule hmem).egress]
    cases hact : rule.action with
    | direct | block => simp [MieruRule.verdict, mieruRule, hact]
    | egress =>
      have hproxy : (rules.map mieruRule ++ mieruDefault defaultAction).any
          (fun rule => rule.action = .proxy) = true := by
        refine any_eq_true.mpr ⟨mieruRule rule, ?_, ?_⟩
        · exact mem_append_left _ (mem_map_of_mem hmem)
        · simp [mieruRule, hact]
      rw [if_pos hproxy]
      simp [MieruRule.verdict, mieruRule, hact, find]
  | none =>
    cases defaultAction with
    | direct => rfl
    | egress =>
      have hproxy : (rules.map mieruRule ++ mieruDefault .egress).any
          (fun rule => rule.action = .proxy) = true := by
        rw [any_append]
        exact Bool.or_eq_true_iff.mpr (.inr rfl)
      rw [if_pos hproxy]
      rfl

/-! ## NaiveProxy -/

theorem flatten_chunks {α : Type} {size : Nat} (hsize : 0 < size) :
    ∀ (fuel : Nat) (items : List α), items.length ≤ fuel →
      (chunks size fuel items).flatten = items := by
  intro fuel
  induction fuel with
  | zero =>
    intro items hitems
    rw [length_eq_zero_iff.mp (Nat.le_zero.mp hitems)]
    rfl
  | succ fuel ih =>
    intro items hitems
    cases items with
    | nil => rfl
    | cons item rest =>
      unfold chunks
      rw [flatten_cons, ih, take_append_drop]
      rw [length_drop]
      omega

/-- Something that the rules name denies the host, as it is written. -/
def denied (texts : Texts) (host : String) (rules : List RoutingRule) : Bool :=
  rules.any fun rule => rule.subjects.any (subjectDenies texts host)

theorem verdict_naiveDocument (defaultAction : DefaultAction) (rules : List RoutingRule) :
    (naiveDocument defaultAction rules).verdict tx host
      = some (if denied tx host rules then ⟨.block, none⟩
        else .through (warpUpstream defaultAction)) := by
  have hany : (chunks aclSubjectsPerLine (rules.flatMap RoutingRule.subjects).length
      (rules.flatMap RoutingRule.subjects)).any (fun deny => deny.any (subjectDenies tx host))
        = denied tx host rules := by
    rw [← any_flatten, flatten_chunks (by decide) _ _ le_rfl, any_flatMap]
    rfl
  unfold naiveDocument Document.verdict
  dsimp only
  rw [hany]
  split
  · rfl
  · rfl

/-- A name is written without `*.` -/
def isBare (domain : String) : Bool := ! ['*', '.'].isPrefixOf domain.toList

theorem stripWildcard_of_isBare (h : isBare domain = true) : stripWildcard domain = domain := by
  unfold stripWildcard
  split
  next rest hdom =>
    unfold isBare at h
    rw [hdom] at h
    cases h
  · rfl

/-- What is denied is covered. -/
theorem covers_of_denies (h : rule.Plain) {subject : String} (hsubj : subject ∈ rule.subjects)
    (hden : subjectDenies tx host subject = true) : rule.covers tx host = true := by
  unfold RoutingRule.covers
  rw [Bool.or_eq_true]
  unfold subjectDenies at hden
  rcases mem_append.mp hsubj with hdom | hcidr
  · left
    refine any_eq_true.mpr ⟨subject, hdom, ?_⟩
    have hsl : subject.toList.contains '/' = false :=
      Bool.eq_false_iff.mpr fun hin =>
        (h.domains subject hdom).1 (contains_iff_mem.mp hin)
    rw [hsl] at hden
    by_cases hbare : ['*', '.'].isPrefixOf subject.toList = true
    · rw [hbare] at hden
      exact hden
    · have hstrip : stripWildcard subject = subject :=
        stripWildcard_of_isBare (by unfold isBare; rw [Bool.eq_false_iff.mpr hbare]; rfl)
      rw [Bool.eq_false_iff.mpr hbare] at hden
      rw [hstrip, show normalHost tx host = subject from eq_of_beq hden]
      unfold isUnder
      rw [beq_self_eq_true, Bool.true_or]
  · right
    rw [coversAddress_eq]
    refine any_eq_true.mpr ⟨subject, hcidr, ?_⟩
    rw [contains_iff_mem.mpr (h.cidrs subject hcidr)] at hden
    exact hden

/-- **NaiveProxy spares the host**: a rule names a domain above it without `*.`, and
nothing that the rules name denies it. -/
def Spares (texts : Texts) (policy : RoutingPolicy) (host : String) : Prop :=
  (∃ rule ∈ policy.enabledRules, ∃ domain ∈ rule.matcher.domains,
      isBare domain = true ∧ isUnder (normalHost texts host) domain = true)
    ∧ ∀ rule ∈ policy.enabledRules, ∀ subject ∈ rule.subjects,
      subjectDenies texts host subject = false

theorem spares_iff (h : ∀ rule ∈ p.enabledRules, rule.Plain) : Spares tx p host
      ↔ p.enabledRules.any (RoutingRule.covers tx host) = true
        ∧ denied tx host p.enabledRules = false := by
  have hden : denied tx host p.enabledRules = false
      ↔ ∀ rule ∈ p.enabledRules, ∀ subject ∈ rule.subjects,
        subjectDenies tx host subject = false := by
    unfold denied
    simp only [any_eq_false, Bool.not_eq_true]
  rw [hden]
  refine and_congr_left fun hspar => ?_
  rw [any_eq_true]
  refine exists_congr fun rule => and_congr_right fun hmem => ?_
  constructor
  · rintro ⟨domain, hdom, hbare, hund⟩
    refine Bool.or_eq_true_iff.mpr (.inl (any_eq_true.mpr ⟨domain, hdom, ?_⟩))
    rw [stripWildcard_of_isBare hbare]
    exact hund
  · intro hcov
    rcases Bool.or_eq_true_iff.mp hcov with hnm | haddr
    · obtain ⟨domain, hdom, hund⟩ := any_eq_true.mp hnm
      have hspare := hspar rule hmem domain (mem_append_left _ hdom)
      have hsl : domain.toList.contains '/' = false :=
        Bool.eq_false_iff.mpr fun hin =>
          ((h rule hmem).domains domain hdom).1 (contains_iff_mem.mp hin)
      have hbare : isBare domain = true := by
        unfold isBare
        rw [Bool.not_eq_true', Bool.eq_false_iff]
        intro hstar
        -- Written with `*.`, the domain would deny what it covers.
        unfold subjectDenies at hspare
        rw [hsl, hstar, hund] at hspare
        cases hspare
      refine ⟨domain, hdom, hbare, ?_⟩
      rw [stripWildcard_of_isBare hbare] at hund
      exact hund
    · rw [coversAddress_eq] at haddr
      obtain ⟨cidr, hcidr, hcont⟩ := any_eq_true.mp haddr
      have hspare := hspar rule hmem cidr (mem_append_right _ hcidr)
      unfold subjectDenies at hspare
      rw [contains_iff_mem.mpr ((h rule hmem).cidrs cidr hcidr), hcont] at hspare
      cases hspare

/-- What NaiveProxy's document does, by what the rules say. -/
theorem denied_of_covers (h : ∀ rule ∈ p.enabledRules, rule.Plain) (hspar : ¬ Spares tx p host) :
    denied tx host p.enabledRules = p.enabledRules.any (RoutingRule.covers tx host) := by
  rw [spares_iff h, not_and, Bool.not_eq_false] at hspar
  rw [Bool.eq_iff_iff]
  refine ⟨?_, hspar⟩
  intro hden
  obtain ⟨rule, hmem, hany⟩ := any_eq_true.mp hden
  obtain ⟨subject, hsubj, hdenies⟩ := any_eq_true.mp hany
  exact any_eq_true.mpr ⟨rule, hmem, covers_of_denies (h rule hmem) hsubj hdenies⟩

/-- Rules that only block say that a host is blocked where one covers it. -/
theorem decided_of_blocks
    (h : ∀ rule ∈ rules, rule.Plain) (hblk : ∀ rule ∈ rules, rule.action = .block) :
    decided tx host defaultAction rules
      = if rules.any (RoutingRule.covers tx host) then ⟨.block, none⟩
        else .through (warpUpstream defaultAction) := by
  unfold decided
  cases hf : rules.find? (RoutingRule.covers tx host) with
  | some rule =>
    have hmem := mem_of_find?_eq_some hf
    have hany : rules.any (RoutingRule.covers tx host) = true :=
      any_eq_true.mpr ⟨rule, hmem, find?_some hf⟩
    rw [if_pos hany]
    show (⟨rule.action, rule.egress⟩ : Verdict) = _
    rw [(h rule hmem).egress, hblk rule hmem]
    rfl
  | none =>
    have hany : ¬ rules.any (RoutingRule.covers tx host) = true := by
      rw [any_eq_true]
      rintro ⟨rule, hmem, hcov⟩
      exact find?_eq_none.mp hf rule hmem hcov
    rw [if_neg hany]

/-! ## An unreachable `warp` -/

def Verdict.withoutEgress (verdict : Verdict) : Verdict :=
  if verdict.action = .egress then ⟨.direct, none⟩ else verdict

theorem covers_withoutEgress (rule : RoutingRule) :
    rule.withoutEgress.covers tx host = rule.covers tx host := by
  unfold RoutingRule.withoutEgress
  split
  · rfl
  · rfl

theorem RoutingRule.Plain.withoutEgress (h : rule.Plain) : rule.withoutEgress.Plain := by
  unfold RoutingRule.withoutEgress
  split
  · exact { h with egress := rfl }
  · exact h

/-- Without egress, the rules say what they said without it. -/
theorem decided_withoutEgress (defaultAction : DefaultAction) (rules : List RoutingRule) :
    decided tx host .direct (rules.map RoutingRule.withoutEgress)
      = (decided tx host defaultAction rules).withoutEgress := by
  have hcov : RoutingRule.covers tx host ∘ RoutingRule.withoutEgress
      = RoutingRule.covers tx host := funext covers_withoutEgress
  unfold decided
  rw [find?_map, hcov]
  cases rules.find? (RoutingRule.covers tx host) with
  | some rule =>
    show (⟨rule.withoutEgress.action, rule.withoutEgress.egress⟩ : Verdict) = _
    unfold RoutingRule.withoutEgress Verdict.withoutEgress
    split
    · rfl
    · rfl
  | none =>
    cases defaultAction with
    | direct => rfl
    | egress => rfl

/-- **The policy sends the host through `warp`**: by the first rule that covers it, or by
its default if none does. -/
def ThroughWarp (texts : Texts) (policy : RoutingPolicy) (host : String) : Prop :=
  (∃ before rule after, policy.enabledRules = before ++ rule :: after
      ∧ (∀ other ∈ before, other.covers texts host = false) ∧ rule.covers texts host = true
      ∧ rule.action = .egress)
    ∨ ((∀ rule ∈ policy.enabledRules, rule.covers texts host = false)
      ∧ policy.intent.defaultAction = .egress)

theorem throughWarp_iff : ThroughWarp tx p host
    ↔ (decided tx host p.intent.defaultAction p.enabledRules).action = .egress := by
  unfold ThroughWarp decided
  cases hf : p.enabledRules.find? (RoutingRule.covers tx host) with
  | some rule =>
    obtain ⟨hcov, before, after, hrs, hbef⟩ := find?_eq_some_iff_append.mp hf
    constructor
    · rintro (⟨before', rule', after', hrs', hbef', hcov', hact⟩ | ⟨hn, -⟩)
      · have hfnd := find?_eq_some_iff_append.mpr
          ⟨hcov', before', after', hrs', fun o hmem => by rw [hbef' o hmem]; rfl⟩
        rw [hf] at hfnd
        cases hfnd
        exact hact
      · rw [hn rule (mem_of_find?_eq_some hf)] at hcov
        cases hcov
    · intro hact
      refine .inl ⟨before, rule, after, hrs, ?_, hcov, hact⟩
      intro o hmem
      simpa using hbef o hmem
  | none =>
    have hn : ∀ rule ∈ p.enabledRules, rule.covers tx host = false :=
      fun rule hmem => Bool.eq_false_iff.mpr (find?_eq_none.mp hf rule hmem)
    constructor
    · rintro (⟨before, rule, after, hrs, -, hcov, -⟩ | ⟨-, hdef⟩)
      · rw [hn rule (by rw [hrs]; simp)] at hcov
        cases hcov
      · rw [hdef]
        rfl
    · intro hact
      refine .inr ⟨hn, ?_⟩
      cases hdef : p.intent.defaultAction with
      | direct =>
        rw [hdef] at hact
        cases hact
      | egress => rfl

/-- **The host goes direct although the policy sends it through `warp`**: `warp` does not
answer, and the operator approved to go direct. -/
def GoesDirect (texts : Texts) (policy : RoutingPolicy) (target : EgressTarget)
    (host : String) : Prop :=
  policy.intent.fallback = .approvedDirect
    ∧ find target.providers "warp" = some (some false)
    ∧ ThroughWarp texts policy host

theorem usesWarp_of_decided (h : (decided tx host defaultAction rules).action = .egress) :
    usesWarp defaultAction rules = true := by
  unfold usesWarp
  rw [Bool.or_eq_true]
  unfold decided at h
  split at h
  next rule hf => exact .inr (any_eq_true.mpr ⟨rule, mem_of_find?_eq_some hf, decide_eq_true h⟩)
  · left
    cases defaultAction with
    | direct => cases h
    | egress => rfl

section

variable (haccepted : Accepted p target)

include haccepted

theorem goesDirect_iff : GoesDirect tx p target host ↔ fallsBack p target = true
        ∧ (decided tx host p.intent.defaultAction p.enabledRules).action = .egress := by
  unfold GoesDirect fallsBack EgressTarget.warpDown
  rw [throughWarp_iff, haccepted.rules, Bool.and_eq_true, Bool.and_eq_true, beq_iff_eq,
    decide_eq_true_iff]
  constructor
  · rintro ⟨happr, hdown, hact⟩
    exact ⟨⟨⟨usesWarp_of_decided hact, hdown⟩, happr⟩, hact⟩
  · rintro ⟨⟨⟨-, hdown⟩, happr⟩, hact⟩
    exact ⟨happr, hdown, hact⟩

/-- What the effective default and rules say, by what the policy says. -/
theorem decided_effective : decided tx host (effective p target).1 (effective p target).2
      = if fallsBack p target then
          (decided tx host p.intent.defaultAction p.enabledRules).withoutEgress
        else decided tx host p.intent.defaultAction p.enabledRules := by
  unfold effective
  rw [haccepted.rules]
  split
  · exact decided_withoutEgress p.intent.defaultAction p.enabledRules
  · rfl

theorem decided_effective_eq_iff : decided tx host (effective p target).1 (effective p target).2
        = decided tx host p.intent.defaultAction p.enabledRules
      ↔ ¬ GoesDirect tx p target host := by
  rw [decided_effective haccepted, goesDirect_iff haccepted]
  cases fallsBack p target with
  | false => simp
  | true =>
    unfold Verdict.withoutEgress
    by_cases hact : (decided tx host p.intent.defaultAction p.enabledRules).action = .egress
    · simp only [hact, if_true, true_and, not_true, iff_false]
      intro heq
      rw [← heq] at hact
      cases hact
    · simp [hact]

theorem plain_effective : ∀ rule ∈ (effective p target).2, rule.Plain := by
  intro rule hmem
  unfold effective at hmem
  rw [haccepted.rules] at hmem
  split at hmem
  · obtain ⟨original, horig, rfl⟩ := mem_map.mp hmem
    exact (haccepted.plain original horig).withoutEgress
  · exact haccepted.plain rule hmem

/-- Blocks are not changed where `warp` does not answer. -/
theorem effective_of_blocks (hblk : ∀ rule ∈ p.enabledRules, rule.action = .block) :
    (effective p target).2 = p.enabledRules := by
  unfold effective
  rw [haccepted.rules]
  split
  · refine (map_congr_left fun rule hmem => ?_).trans (map_id _)
    unfold RoutingRule.withoutEgress
    rw [hblk rule hmem]
    rfl
  · rfl

/-! ## Documents and explanations -/

theorem verdict_naive_iff (hdecl : target.Declared) (hnv : target.backend = .naiveNative) :
    (naiveDocument (effective p target).1 (effective p target).2).verdict tx host
        = some (decided tx host p.intent.defaultAction p.enabledRules)
      ↔ ¬ (GoesDirect tx p target host ∨ Spares tx p host) := by
  have hblk : ∀ rule ∈ p.enabledRules, rule.action = .block :=
    fun rule hmem => (haccepted.blocks hdecl hnv rule hmem).1
  have hrs := effective_of_blocks haccepted hblk
  rw [verdict_naiveDocument, hrs, Option.some_inj, not_or]
  by_cases hspar : Spares tx p host
  · obtain ⟨hcov, hspared⟩ := (spares_iff haccepted.plain).mp hspar
    rw [hspared, decided_of_blocks haccepted.plain hblk, if_pos hcov]
    refine iff_of_false ?_ fun hand => hand.2 hspar
    intro hthr
    have hact : (Verdict.through (warpUpstream (effective p target).1)).action
        = .block := congrArg Verdict.action hthr
    cases hdef : (effective p target).1 with
    | direct | egress =>
      rw [hdef] at hact
      cases hact
  · rw [denied_of_covers haccepted.plain hspar, ← decided_of_blocks haccepted.plain hblk]
    have hsm : decided tx host (effective p target).1 (effective p target).2
          = decided tx host p.intent.defaultAction p.enabledRules
        ↔ ¬ GoesDirect tx p target host := decided_effective_eq_iff haccepted
    rw [hrs] at hsm
    rw [hsm, and_iff_left hspar]

end

/-- **The documents of NaiveProxy and Mieru mean what the panel explains, except where
NaiveProxy spares a host or an unreachable `warp` is passed by.** For every valid policy
that compiles and every destination, nothing is uncertain, and the verdict of the
document is the one that is explained exactly outside these two cases. -/
theorem verdict_named_iff (site : Site) (policy : RoutingPolicy) (target : EgressTarget)
    (options : Options) (compiled : Compiled Document) (host : String) (port : Int)
    (hdeclared : target.Declared) (hvalid : policy.intent.valid site.texts = true)
    (hbackend : policy.backend = .naiveNative ∨ policy.backend = .mieruNative)
    (hcompile : compile site policy (some target) options = .ok compiled)
    (hsupported : compiled.status = .supported) :
    (explain site.texts policy host port).uncertain = []
      ∧ ((∃ document verdict, compiled.document = some document
            ∧ document.verdict site.texts host = some verdict
            ∧ (explain site.texts policy host port).Names verdict)
        ↔ ¬ (GoesDirect site.texts policy target host
          ∨ (policy.backend = .naiveNative ∧ Spares site.texts policy host))) := by
  obtain ⟨htarget, hreasons, hdocument, -⟩ := compile_native hbackend hcompile hsupported
  have hamneziawg : target.backend ≠ .amneziawgNative := by
    rw [htarget]
    rcases hbackend with hbackend | hbackend <;> rw [hbackend] <;> decide
  have haccepted := accepted_of_nativeReasons hvalid hamneziawg hreasons
  obtain ⟨hcertain, hnames⟩ : (explain site.texts policy host port).uncertain = []
      ∧ (explain site.texts policy host port).Names
        (decided site.texts host policy.intent.defaultAction policy.enabledRules) :=
    explain_plain haccepted.plain haccepted.defaultEgress
  refine ⟨hcertain, ?_⟩
  -- The document agrees where its verdict is what the policy says.
  have hagrees : (∃ document verdict, compiled.document = some document
        ∧ document.verdict site.texts host = some verdict
        ∧ (explain site.texts policy host port).Names verdict)
      ↔ (nativeDocument target.backend (effective policy target).1
          (effective policy target).2).verdict site.texts host
        = some (decided site.texts host policy.intent.defaultAction policy.enabledRules) := by
    rw [hdocument]
    constructor
    · rintro ⟨document, verdict, heq, hverdict, hsaid⟩
      rw [Option.some_inj.mp heq, hverdict, hsaid.eq hnames]
    · intro hverdict
      exact ⟨_, _, rfl, hverdict, hnames⟩
  rw [hagrees]
  rcases hbackend with hnaive | hmieru
  · rw [htarget, hnaive, and_iff_right rfl]
    exact verdict_naive_iff haccepted hdeclared (htarget.trans hnaive)
  · rw [htarget, hmieru]
    show (mieruDocument _ _).verdict site.texts host = _ ↔ _
    rw [verdict_mieruDocument (plain_effective haccepted), Option.some_inj,
      decided_effective_eq_iff haccepted]
    simp

namespace Sample

def plainSite : Site := ⟨plainTexts, fun _ => "", fun _ _ => []⟩

/-- A policy of the service, direct but for one rule. -/
def directBut (backend : Backend) (fallback : Fallback) (domain : String) (action : Action)
    (egress : Option String) : RoutingPolicy where
  id := "policy"
  protocol := if backend = .mieruNative then .mieru else .naive
  lane := "svc"
  backend := backend
  intent :=
    { defaultAction := .direct
      defaultEgress := none
      fallback := fallback
      rules := [⟨some "rule", true, ⟨[domain], [], [], [], [], []⟩, action, egress⟩] }

/-- A manager that declares everything its backend can do, and knows of a `warp`. -/
def managerOf (backend : Backend) (reachable : Bool) : EgressTarget where
  backend := backend
  capabilities := backend.cells
  providers := [("warp", some reachable)]
  applied := none
  restartRequired := false
  warnings := []
  runtimeVersion := none
  routerAttached := false

def withoutRouter : Options := ⟨false, none, [], ⟨none, [], none⟩⟩

/-- What the compiler answers, and where the document sends a host. -/
def outcome (policy : RoutingPolicy) (target : EgressTarget) (host : String) :
    Option (CompileStatus × Option Verdict) :=
  match compile plainSite policy (some target) withoutRouter with
  | .ok compiled => some (compiled.status, compiled.document.bind (·.verdict plainTexts host))
  | .error _ => none

theorem compiled_of_outcome {p : RoutingPolicy} {t : EgressTarget} {host : String}
    {st : CompileStatus} {verdict : Option Verdict}
    (h : outcome p t host = some (st, verdict)) :
    ∃ comp, compile plainSite p (some t) withoutRouter = .ok comp ∧ comp.status = st
      ∧ comp.document.bind (·.verdict plainTexts host) = verdict := by
  unfold outcome at h
  split at h
  next comp hcomp =>
    cases h
    exact ⟨comp, hcomp, rfl, rfl⟩
  · cases h

/-- With `*.` before the domain, a name under it is denied, as it is explained. -/
theorem verdict_named_iff_wildcard :
    ∃ compiled, compile plainSite (directBut .naiveNative .failClosed "*.example.com" .block none)
        (some (managerOf .naiveNative true)) withoutRouter = .ok compiled
      ∧ compiled.status = .supported
      ∧ ∃ document verdict, compiled.document = some document
        ∧ document.verdict plainTexts "www.example.com" = some verdict
        ∧ (explain plainTexts (directBut .naiveNative .failClosed "*.example.com" .block none)
            "www.example.com" 443).Names verdict := by
  obtain ⟨compiled, hcompile, hstatus, -⟩ := compiled_of_outcome
    (show outcome (directBut .naiveNative .failClosed "*.example.com" .block none)
      (managerOf .naiveNative true) "www.example.com" = some (.supported, some ⟨.block, none⟩) by
        decide +kernel)
  refine ⟨compiled, hcompile, hstatus, (verdict_named_iff plainSite _ _ _ compiled
    "www.example.com" 443 (fun _ h => h) (by decide +kernel) (.inl rfl) hcompile hstatus).2.mpr ?_⟩
  rintro (⟨happroved, -, -⟩ | ⟨-, -, hspared⟩)
  · cases happroved
  · have hdenies := hspared _ List.mem_cons_self "*.example.com" List.mem_cons_self
    exact absurd hdenies (by decide +kernel)

/-- **A blocked domain whose subdomains go direct, and an egress that is direct.** Both
policies are valid and compile. NaiveProxy lets through what is explained to be blocked,
and Mieru goes direct where `warp` is named. -/
theorem documents_diverge :
    ((directBut .naiveNative .failClosed "example.com" .block none).intent.valid plainTexts = true
      ∧ outcome (directBut .naiveNative .failClosed "example.com" .block none)
          (managerOf .naiveNative true) "www.example.com"
        = some (.supported, some ⟨.direct, none⟩)
      ∧ explain plainTexts (directBut .naiveNative .failClosed "example.com" .block none)
          "www.example.com" 443
        = ⟨"svc", some "rule", "block", none, [], none, []⟩)
    ∧ ((directBut .mieruNative .approvedDirect "example.com" .egress (some "warp")).intent.valid
          plainTexts = true
      ∧ outcome (directBut .mieruNative .approvedDirect "example.com" .egress (some "warp"))
          (managerOf .mieruNative false) "example.com"
        = some (.supported, some ⟨.direct, none⟩)
      ∧ explain plainTexts (directBut .mieruNative .approvedDirect "example.com" .egress
          (some "warp")) "example.com" 443
        = ⟨"svc", some "rule", "egress", some "warp", [], none, []⟩) := by
  decide +kernel

end Sample

end Routing
