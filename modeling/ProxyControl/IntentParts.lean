import ProxyControl.Checks
import ProxyControl.Intents

/-!
# What a supported intent is made of

The intent compiler goes through the lanes of a service one after another: it checks them,
collects what stands against them, and then writes the bodies, giving each chain and each
exit a number when it meets it first. Both are folds over the lanes, and this module says
what they come to.

If nothing stood against the lanes, each of them was checked and is what its policy says,
up to the fallback (`checkLanes_eq_ok`). And the bodies are those of the lanes, all under
the names of the end (`laneBodies_eq`): a number that was given stays.
-/

namespace Routing

open List
open Table
open Reconciler (Protocol)

variable {site : Site} {router : RouterTarget} {lookups : Lookups} {collect collect' : Collect}
  {lane : CheckedLane} {names more : Names} {egress : Option String}

/-! ## The checks of a lane -/

/-- What a rule passed that the router can run. -/
structure RoutingRule.Cleared (site : Site) (router : RouterTarget) (rule : RoutingRule) : Prop where
  capable : missing (neededOfRouter rule) router.capabilities = []
  guarded : rule.action = .block ∨ isPrivate site.texts rule = false

/-- What the policy says, before the fallback. -/
def RoutingPolicy.asLane (policy : RoutingPolicy) : CheckedLane :=
  ⟨policy.lane, policy.intent.defaultAction, policy.intent.defaultEgress, policy.enabledRules⟩

/-- The router says that `warp` does not answer. -/
def RouterTarget.warpDown (router : RouterTarget) : Bool :=
  find router.providers "warp" == some (some false)

/-- **A lane that was checked**: its rules passed, and it is what the policy says unless
`warp` is down and the policy approves to go direct. -/
structure Checked (site : Site) (router : RouterTarget) (policy : RoutingPolicy)
    (lane : CheckedLane) : Prop where
  rules : ∀ rule ∈ policy.enabledRules, rule.Cleared site router
  settled : lane = policy.asLane
    ∨ (policy.intent.fallback = .approvedDirect ∧ router.warpDown = true
      ∧ lane = policy.asLane.withoutWarp)

theorem refuse_reasons_ne {reason : Reason} : (collect.refuse reason).reasons ≠ [] := by
  exact append_ne_nil_of_right_ne_nil _ (cons_ne_nil _ _)

theorem checkRule_clean {rule : RoutingRule} (h : (checkRule site router collect rule).reasons = [])
    : checkRule site router collect rule = collect ∧ rule.Cleared site router := by
  unfold checkRule at h ⊢
  dsimp only at h ⊢
  split at h
  · exact absurd h refuse_reasons_ne
  next hcap =>
    split at h
    · exact absurd h refuse_reasons_ne
    next hgd =>
      rw [if_neg hcap, if_neg hgd]
      rw [Bool.not_eq_true', Bool.not_eq_false, List.isEmpty_iff] at hcap
      refine ⟨rfl, hcap, ?_⟩
      by_cases hblk : rule.action = .block
      · exact .inl hblk
      · exact .inr (Bool.eq_false_iff.mpr fun hpriv => hgd ⟨hblk, hpriv⟩)

variable {rules : List RoutingRule}

theorem checkRules_clean (h : (rules.foldl (checkRule site router) collect).reasons = []) :
    rules.foldl (checkRule site router) collect = collect
      ∧ ∀ rule ∈ rules, rule.Cleared site router := by
  induction rules generalizing collect with
  | nil => exact ⟨rfl, nofun⟩
  | cons rule rules ih =>
    rw [foldl_cons] at h ⊢
    obtain ⟨hr, hall⟩ := ih h
    rw [hr] at h
    obtain ⟨hsm, hrule⟩ := checkRule_clean h
    exact ⟨hr.trans hsm, forall_mem_cons.mpr ⟨hrule, hall⟩⟩

theorem checkEgress_clean {ruleId : Option String}
    (h : checkEgress router lookups collect ruleId egress = .ok collect')
    (hcln : collect'.reasons = []) : collect.reasons = [] := by
  unfold checkEgress at h
  split at h
  · cases h
    exact hcln
  · split at h
    · cases h
      unfold checkCustomExit at hcln
      split at hcln
      · exact hcln
      · split at hcln
        · exact absurd hcln refuse_reasons_ne
        · split at hcln
          · exact hcln
          · exact absurd hcln refuse_reasons_ne
    · split at h
      · unfold checkNodeExit at h
        split at h
        · cases h
          exact hcln
        · split at h
          · cases h
          · split at h
            · cases h
              exact hcln
            · cases h
              exact absurd hcln refuse_reasons_ne
      · cases h
        exact hcln

theorem checkEgresses_clean {egresses : List (Option String × Option String)}
    (h : egresses.foldlM (fun collect egress => checkEgress router lookups collect egress.1
      egress.2) collect = .ok collect') (hcln : collect'.reasons = []) :
    collect.reasons = [] := by
  induction egresses generalizing collect with
  | nil =>
    cases h
    exact hcln
  | cons egress egresses ih =>
    rw [foldlM_cons] at h
    obtain ⟨next, hnext, hr⟩ := Checks.bind_eq_ok.mp h
    exact checkEgress_clean hnext (ih hr)

theorem checkWarp_clean {fallback : Fallback}
    (h : (checkWarp router collect fallback lane).1.reasons = []) :
    collect.reasons = [] ∧ ((checkWarp router collect fallback lane).2 = lane
        ∨ (fallback = .approvedDirect ∧ router.warpDown = true
          ∧ (checkWarp router collect fallback lane).2 = lane.withoutWarp)) := by
  unfold checkWarp at h ⊢
  split at h
  next huses =>
    rw [if_pos huses]
    split at h
    · exact absurd h refuse_reasons_ne
    next hdown =>
      split at h
      next happr =>
        rw [if_pos happr]
        exact ⟨h, .inr ⟨happr, beq_iff_eq.mpr hdown, rfl⟩⟩
      · exact absurd h refuse_reasons_ne
    · exact ⟨h, .inl rfl⟩
  next huses =>
    rw [if_neg huses]
    exact ⟨h, .inl rfl⟩

variable {p : RoutingPolicy}

theorem checkLane_clean (h : checkLane site router lookups collect p = .ok (collect', lane))
    (hcln : collect'.reasons = []) : collect.reasons = [] ∧ Checked site router p lane := by
  obtain ⟨resolved, hres, hwarp⟩ := Checks.bind_eq_ok.mp h
  have hpair := Except.ok.inj hwarp
  have hcoll := congrArg Prod.fst hpair
  have hlane := congrArg Prod.snd hpair
  dsimp only at hcoll hlane
  rw [← hcoll] at hcln
  obtain ⟨hbef, hsett⟩ := checkWarp_clean hcln
  have hrs := checkEgresses_clean hres hbef
  obtain ⟨hsm, hall⟩ := checkRules_clean hrs
  rw [hsm] at hrs
  refine ⟨?_, hall, ?_⟩
  · generalize (if p.intent.defaultAction = .egress then "whole_warp" else "whole_direct")
      = whole at hrs
    split at hrs
    · exact hrs
    · exact absurd hrs refuse_reasons_ne
  · rw [← hlane]
    exact hsett

/-- **What the lanes are, if nothing stood against them.** -/
theorem checkLanes_eq_ok {pols : List RoutingPolicy} {lanes : List CheckedLane}
    (h : checkLanes site router lookups collect pols = .ok (collect', lanes))
    (hcln : collect'.reasons = []) :
    collect.reasons = [] ∧ List.Forall₂ (Checked site router) pols lanes := by
  induction pols generalizing collect lanes with
  | nil =>
    cases h
    exact ⟨hcln, .nil⟩
  | cons p pols ih =>
    obtain ⟨⟨next, lane⟩, hlane, hoth⟩ := Checks.bind_eq_ok.mp h
    obtain ⟨⟨final, rest⟩, hr, heq⟩ := Checks.bind_eq_ok.mp hoth
    cases heq
    obtain ⟨hnext, hall⟩ := ih hr
    obtain ⟨hbef, hchk⟩ := checkLane_clean hlane hnext
    exact ⟨hbef, .cons hchk hall⟩

/-! ## Names that stay -/

namespace Names

/-- The router's name of an egress that was met. -/
def nameOf (names : Names) (egress : String) : String :=
  if isCustomExit egress then "exit:e" ++ toString (names.exits.idxOf egress + 1)
  else if isNodeExit egress then "chain:c" ++ toString (names.chains.idxOf egress + 1)
  else egress

/-- An egress that needs no number, or has one. -/
def Knows (names : Names) (egress : String) : Prop :=
  (isCustomExit egress = true → egress ∈ names.exits)
    ∧ (isCustomExit egress = false → isNodeExit egress = true → egress ∈ names.chains)

/-- More names, and those that were given in their places. -/
def Extends (names more : Names) : Prop :=
  names.chains <+: more.chains ∧ names.exits <+: more.exits

variable {names more most : Names} {egress : String}

theorem Extends.refl (names : Names) : names.Extends names :=
  ⟨prefix_rfl, prefix_rfl⟩

theorem Extends.trans (h : names.Extends more) (h' : more.Extends most) : names.Extends most :=
  ⟨h.1.trans h'.1, h.2.trans h'.2⟩

theorem Knows.extends (h : names.Knows egress) (hmore : names.Extends more) : more.Knows egress :=
  ⟨fun hcust => hmore.2.subset (h.1 hcust), fun hoth hnode => hmore.1.subset (h.2 hoth hnode)⟩

/-- **A number that was given stays.** -/
theorem nameOf_extends (h : names.Knows egress) (hmore : names.Extends more) :
    more.nameOf egress = names.nameOf egress := by
  obtain ⟨⟨chains, hchains⟩, ⟨exits, hexits⟩⟩ := hmore
  unfold nameOf
  cases hcust : isCustomExit egress with
  | true =>
    rw [if_pos rfl, if_pos rfl, ← hexits, idxOf_append_of_mem (h.1 hcust)]
  | false =>
    rw [if_neg Bool.false_ne_true, if_neg Bool.false_ne_true]
    cases hnode : isNodeExit egress with
    | true => rw [if_pos rfl, if_pos rfl, ← hchains, idxOf_append_of_mem (h.2 hcust hnode)]
    | false => rw [if_neg Bool.false_ne_true, if_neg Bool.false_ne_true]

end Names

theorem place_eq (ns : List String) (name : String) :
    ∃ more, place ns name = (more.idxOf name, more) ∧ ns <+: more ∧ name ∈ more
      ∧ ∀ o ∈ more, o ∈ ns ∨ o = name := by
  unfold place
  split
  next hmem => exact ⟨ns, rfl, prefix_rfl, hmem, fun _ => .inl⟩
  next hnew =>
    refine ⟨ns ++ [name], ?_, prefix_append _ _, by simp, ?_⟩
    · rw [idxOf_append_of_notMem hnew, idxOf_cons_self, Nat.add_zero]
    · simp

/-- What a list of egresses adds to the names. -/
structure Met (names more : Names) (egresses : List String) : Prop where
  extends_ : names.Extends more
  knows : ∀ egress ∈ egresses, more.Knows egress
  chains : ∀ chain ∈ more.chains, chain ∈ names.chains
    ∨ (chain ∈ egresses ∧ isCustomExit chain = false ∧ isNodeExit chain = true)
  exits : ∀ exit ∈ more.exits, exit ∈ names.exits ∨ (exit ∈ egresses ∧ isCustomExit exit = true)

theorem Met.none (ns : Names) : Met ns ns [] :=
  ⟨.refl ns, nofun, fun _ => .inl, fun _ => .inl⟩

theorem Met.append {ns more most : Names} {egresses others : List String}
    (h : Met ns more egresses) (h' : Met more most others) :
    Met ns most (egresses ++ others) where
  extends_ := h.extends_.trans h'.extends_
  knows egress hmem := by
    rcases mem_append.mp hmem with hmem | hmem
    · exact (h.knows egress hmem).extends h'.extends_
    · exact h'.knows egress hmem
  chains chain hmem := by
    rcases h'.chains chain hmem with hmem | ⟨hmem, hkind⟩
    · exact (h.chains chain hmem).imp id fun hmet => ⟨mem_append_left _ hmet.1, hmet.2⟩
    · exact .inr ⟨mem_append_right _ hmem, hkind⟩
  exits exit hmem := by
    rcases h'.exits exit hmem with hmem | ⟨hmem, hkind⟩
    · exact (h.exits exit hmem).imp id fun hmet => ⟨mem_append_left _ hmet.1, hmet.2⟩
    · exact .inr ⟨mem_append_right _ hmem, hkind⟩

theorem egressName_eq (ns : Names) (eg : String) :
    ∃ more, egressName ns eg = (more.nameOf eg, more) ∧ Met ns more [eg] := by
  unfold egressName Names.nameOf
  cases hcust : isCustomExit eg with
  | true =>
    obtain ⟨exits, hplace, hext, hmem, honly⟩ := place_eq ns.exits eg
    rw [if_pos rfl, hplace]
    refine ⟨{ ns with exits }, by rw [if_pos rfl], ⟨prefix_rfl, hext⟩, ?_, fun _ => .inl,
      fun exit hexit => (honly exit hexit).imp id ?_⟩
    · intro o hoth
      rw [mem_singleton.mp hoth]
      refine ⟨fun _ => hmem, fun hnot => ?_⟩
      rw [hcust] at hnot
      cases hnot
    · rintro rfl
      exact ⟨mem_singleton_self _, hcust⟩
  | false =>
    rw [if_neg Bool.false_ne_true]
    cases hnode : isNodeExit eg with
    | true =>
      obtain ⟨chains, hplace, hext, hmem, honly⟩ := place_eq ns.chains eg
      rw [if_pos rfl, hplace]
      refine ⟨{ ns with chains }, by rw [if_neg Bool.false_ne_true, if_pos rfl],
        ⟨hext, prefix_rfl⟩, ?_, fun chain hchain => (honly chain hchain).imp id ?_,
        fun _ => .inl⟩
      · intro o hoth
        rw [mem_singleton.mp hoth]
        refine ⟨fun hyes => ?_, fun _ _ => hmem⟩
        rw [hcust] at hyes
        cases hyes
      · rintro rfl
        exact ⟨mem_singleton_self _, hcust, hnode⟩
    | false =>
      rw [if_neg Bool.false_ne_true]
      refine ⟨ns, by rw [if_neg Bool.false_ne_true, if_neg Bool.false_ne_true], .refl ns, ?_,
        fun _ => .inl, fun _ => .inl⟩
      intro o hoth
      rw [mem_singleton.mp hoth]
      refine ⟨fun hyes => ?_, fun _ hyes => ?_⟩
      · rw [hcust] at hyes
        cases hyes
      · rw [hnode] at hyes
        cases hyes

theorem nameEgress_eq (ns : Names) (eg : Option String) :
    ∃ more, nameEgress ns eg = (eg.map more.nameOf, more) ∧ Met ns more eg.toList := by
  cases eg with
  | none => exact ⟨ns, rfl, .none ns⟩
  | some eg =>
    obtain ⟨more, heq, hmet⟩ := egressName_eq ns eg
    refine ⟨more, ?_, hmet⟩
    show (some (egressName ns eg).1, (egressName ns eg).2) = _
    rw [heq]
    rfl

/-! ## Bodies under the names of the end -/

/-- The egresses of rules, in their order. -/
def egressesOf (rules : List RoutingRule) : List String := rules.flatMap (·.egress.toList)

def CheckedLane.egresses (lane : CheckedLane) : List String :=
  egressesOf lane.rules ++ lane.defaultEgress.toList

def RoutingRule.named (names : Names) (rule : RoutingRule) : BodyRule :=
  bodyRule rule (rule.egress.map names.nameOf)

def CheckedLane.body (names : Names) (lane : CheckedLane) : LaneBody :=
  ⟨lane.defaultAction, lane.defaultEgress.map names.nameOf, lane.rules.map (·.named names)⟩

theorem map_nameOf_extends (h : ∀ exit ∈ egress.toList, names.Knows exit)
    (hmore : names.Extends more) : egress.map more.nameOf = egress.map names.nameOf := by
  cases egress with
  | none => rfl
  | some exit =>
    rw [Option.map_some, Option.map_some,
      Names.nameOf_extends (h exit (mem_singleton_self _)) hmore]

theorem named_extends (h : ∀ exit ∈ egressesOf rules, names.Knows exit) (hmore : names.Extends more)
    : rules.map (·.named more) = rules.map (·.named names) := by
  refine map_congr_left fun rule hmem => ?_
  unfold RoutingRule.named
  rw [map_nameOf_extends (fun exit hexit => h exit (mem_flatMap.mpr ⟨rule, hmem, hexit⟩)) hmore]

theorem bodyRules_eq (ns : Names) (rules : List RoutingRule) :
    ∃ more, bodyRules ns rules = (rules.map (·.named more), more)
      ∧ Met ns more (egressesOf rules) := by
  induction rules generalizing ns with
  | nil => exact ⟨ns, rfl, .none ns⟩
  | cons rule rules ih =>
    obtain ⟨next, hnm, hmet⟩ := nameEgress_eq ns rule.egress
    obtain ⟨more, hrs, hr⟩ := ih next
    refine ⟨more, ?_, hmet.append hr⟩
    unfold bodyRules
    rw [hnm]
    dsimp only
    rw [hrs, map_cons]
    unfold RoutingRule.named
    rw [map_nameOf_extends hmet.knows hr.extends_]

theorem laneBody_eq (ns : Names) (lane : CheckedLane) :
    ∃ more, laneBody ns lane = (lane.body more, more) ∧ Met ns more lane.egresses := by
  obtain ⟨next, hrs, hmet⟩ := bodyRules_eq ns lane.rules
  obtain ⟨more, hdef, hl⟩ := nameEgress_eq next lane.defaultEgress
  refine ⟨more, ?_, hmet.append hl⟩
  unfold laneBody CheckedLane.body
  rw [hrs]
  dsimp only
  rw [hdef, named_extends hmet.knows hl.extends_]

theorem body_extends (h : ∀ exit ∈ lane.egresses, names.Knows exit) (hmore : names.Extends more) :
    lane.body more = lane.body names := by
  unfold CheckedLane.body
  rw [named_extends (fun exit hexit => h exit (mem_append_left _ hexit)) hmore,
    map_nameOf_extends (fun exit hexit => h exit (mem_append_right _ hexit)) hmore]

/-- Where the body of a lane stands. -/
def laneKey (protocol : Protocol) (lane : String) : String :=
  if lane = laneService then "svc:" ++ protocol.asStr else lane

/-- **The bodies are those of the lanes, in their order**, if no two have one key. -/
theorem laneBodies_eq (p : Protocol) (ns : Names) (bodies : List (String × LaneBody))
    (lanes : List CheckedLane)
    (hk : (bodies.map Prod.fst ++ lanes.map fun lane => laneKey p lane.lane).Nodup) :
    ∃ more, laneBodies p ns bodies lanes
        = (bodies ++ lanes.map fun lane => (laneKey p lane.lane, lane.body more), more)
      ∧ Met ns more (lanes.flatMap CheckedLane.egresses) := by
  induction lanes generalizing ns bodies with
  | nil => exact ⟨ns, by rw [laneBodies, map_nil, append_nil], .none ns⟩
  | cons lane lanes ih =>
    obtain ⟨next, hbody, hmet⟩ := laneBody_eq ns lane
    have hfr : laneKey p lane.lane ∉ bodies.map Prod.fst := by
      intro hmem
      rw [map_cons, nodup_append] at hk
      exact hk.2.2 _ hmem _ mem_cons_self rfl
    have hput : put bodies (laneKey p lane.lane) (lane.body next)
        = bodies ++ [(laneKey p lane.lane, lane.body next)] := put_of_not_mem hfr _
    obtain ⟨more, hr, hl⟩ := ih next (bodies ++ [(laneKey p lane.lane, lane.body next)])
      (by simpa using hk)
    refine ⟨more, ?_, hmet.append hl⟩
    unfold laneBodies
    rw [hbody]
    show laneBodies p next (put bodies (laneKey p lane.lane) (lane.body next)) lanes = _
    rw [hput, hr, append_assoc, map_cons, body_extends hmet.knows hl.extends_]
    rfl

/-! ## The answer -/

/-- **What a supported answer rests on**: lanes that were checked with nothing against them,
and a document within its limit. -/
structure Supported (site : Site) (router : RouterTarget) (lookups : Lookups)
    (warnings : List String) (policy : RoutingPolicy) (lanes : List RoutingPolicy)
    (compiled : Compiled RouterIntent) (document : RouterIntent) where
  collect : Collect
  checked : List CheckedLane
  limit : Nat
  lanes_eq : checkLanes site router lookups ⟨[], warnings, [], []⟩ (ordered policy lanes)
    = .ok (collect, checked)
  clean : collect.reasons = []
  document_eq : documentOf policy.protocol collect checked = some (document, limit)
  fits : document.toJson.canonical.length ≤ limit
  answer : compiled.document = some document
    ∧ compiled.digest = some (documentDigest site document.toJson)
    ∧ compiled.attach = some (attachDocument policy.protocol)

theorem supported_of_compileIntent {warnings : List String} {lanes : List RoutingPolicy}
    {comp : Compiled RouterIntent}
    (h : compileIntent site router lookups warnings p lanes = .ok comp)
    (hstat : comp.status = .supported) :
    ∃ d, Nonempty (Supported site router lookups warnings p lanes comp d) := by
  obtain ⟨⟨collect, checked⟩, hlanes, hr⟩ := Checks.bind_eq_ok.mp h
  dsimp only at hr
  split at hr
  · cases hr
    cases hstat
  next hcln =>
    split at hr
    · cases hr
    next d limit hdoc =>
      split at hr
      · cases hr
        cases hstat
      next hfits =>
        cases hr
        refine ⟨d, ⟨collect, checked, limit, hlanes, ?_, hdoc, Nat.le_of_not_lt hfits,
          rfl, rfl, rfl⟩⟩
        rw [Bool.not_eq_true', Bool.not_eq_false, List.isEmpty_iff] at hcln
        exact hcln

end Routing
