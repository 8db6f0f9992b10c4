import ProxyControl.AmneziaWGPeers

/-!
# Changes of the AmneziaWG egress

What is in force after the egress was changed. The manager steers the subnets with
a series of `ip` commands that ends at the first one that fails: a blackhole
default, ranges that are thrown back, a default route into the device of the
provider, and a rule for each subnet. If it comes to its end, `network_ok` is set
and the routing is in force; but whether it is set is asked only of the router
(`egressReady`), while a WARP tunnel counts as ready once its handshake is fresh.

What the series achieves is stated once (`achieves_routing`), for hosts on which
processes die or do not, and for commands that may fail at any time or only once
some goal is reached.
-/

namespace AmneziaWG.Service

open List
open Checks

variable {site : Site} {other : Host}

/-! ## Routing -/

/-- **Nothing of the subnets leaves by the main table**: they have their rules, and what
no other route of the egress table takes is dropped. -/
structure Guarded (site : Site) (host : Host) : Prop where
  rules : ∀ source ∈ site.subnets, source ∈ host.rules
  blackhole : host.blackhole = true

instance (site : Site) (host : Host) : Decidable (Guarded site host) :=
  decidable_of_iff ((∀ source ∈ site.subnets, source ∈ host.rules) ∧ host.blackhole = true)
    ⟨fun h => ⟨h.1, h.2⟩, fun h => ⟨h.rules, h.blackhole⟩⟩

theorem Guarded.rely {host : Host} (h : Guarded site host) (hrely : Rely host other) :
    Guarded site other :=
  ⟨by rw [hrely.rules]; exact h.rules, by rw [hrely.blackhole]; exact h.blackhole⟩

/-- The commands of `ip` that make up the routing. -/
def Command.isRouting : Command → Bool
  | .effect .routeBlackhole | .effect (.routeThrow _) | .effect (.routeDefault _)
  | .effect (.ruleAdd _) | .effect (.ruleDel _) | .showRules => true
  | _ => false

variable {c : Command} {ans : Answer c} {α : Type} {prog : Program α} {B : α → Prop}

section Effects

variable {host after : Host} {hint : Hint} {ok : Bool} {e : Effect}

theorem attempt_true {ld : Host} (h : attempt host ld hint = some (true, after)) :
    hint = .done := by
  cases hint with
  | done => rfl
  | _ => cases h

theorem attemptOn_true {i : Iface} {ld : Device → Host}
    (h : attemptOn host i ld hint = some (true, after)) : hint = .done := by
  cases hint with
  | done => rfl
  | _ => cases h

/-- Only what was done is answered with success. -/
theorem Effect.done_of_true (h : e.respond host hint = some (true, after)) : hint = .done := by
  cases e with
  | routeBlackhole | routeThrow | ruleAdd | ruleDel | routeFlush | tuntap | nftApply =>
    exact attempt_true h
  | configure | addr | link | routeDefault => exact attemptOn_true h
  | save | start | setPeers =>
    cases hint with
    | done => rfl
    | _ => cases h

theorem Effect.true_of_done (h : e.respond host .done = some (ok, after)) : ok = true := by
  cases e with
  | save | routeBlackhole | routeThrow | ruleAdd | ruleDel | routeFlush | tuntap | nftApply
  | start =>
    cases h
    rfl
  | configure | addr | link | routeDefault | setPeers =>
    obtain ⟨dev, -, hpair⟩ := Option.map_eq_some_iff.mp h
    cases hpair
    rfl

/-- Commands that take nothing of the guard away. -/
def Command.Spared (site : Site) : Command → Prop
  | .effect (.ruleDel source) => source ∉ site.subnets
  | .effect .routeFlush => False
  | _ => True

theorem Command.Steers.spared (h : c.Steers site) : c.Spared site := by
  cases c with
  | effect e =>
    cases e with
    | ruleDel | routeFlush => exact h
    | _ => trivial
  | _ => trivial

/-- The guard stays. -/
theorem Guarded.respond (h : Guarded site host) (hc : c.Spared site)
    (hresp : Service.respond host c hint = some (ans, after)) : Guarded site after := by
  have hsm : ∀ {landed : Host}, landed.rules = host.rules → landed.blackhole = host.blackhole →
      Guarded site landed := fun hrs hhole =>
    ⟨by rw [hrs]; exact h.rules, by rw [hhole]; exact h.blackhole⟩
  cases c with
  | effect e =>
    cases e with
    | routeFlush => exact hc.elim
    | setPeers | start =>
      rcases Effect.remakes_eq rfl hresp with rfl | ⟨dev, rfl⟩
      · exact h
      · exact hsm rfl rfl
    | save =>
      obtain ⟨-, rfl⟩ | ⟨-, landed, rfl⟩ := save_eq hresp
      · exact hsm rfl rfl
      · exact hsm rfl rfl
    | routeBlackhole =>
      rcases attempt_eq hresp with rfl | rfl
      · exact h
      · exact ⟨h.rules, rfl⟩
    | ruleAdd source =>
      rcases attempt_eq hresp with rfl | rfl
      · exact h
      · exact ⟨fun s hs => mem_append_left _ (h.rules s hs), h.blackhole⟩
    | ruleDel source =>
      rcases attempt_eq hresp with rfl | rfl
      · exact h
      · refine ⟨fun s hs => mem_filter.mpr ⟨h.rules s hs, ?_⟩, h.blackhole⟩
        have hne : s ≠ source := fun heq => hc (heq ▸ hs)
        simpa using hne
    | configure | addr | link | routeDefault =>
      rcases attemptOn_eq hresp with rfl | ⟨-, -, rfl⟩
      · exact h
      · exact hsm rfl rfl
    | routeThrow | tuntap | nftApply =>
      rcases attempt_eq hresp with rfl | rfl
      · exact h
      · exact hsm rfl rfl
  | kill iface | stop iface =>
    obtain rfl := Command.ends_eq rfl hresp
    exact h.rely (rely_drop host iface)
  | _ =>
    obtain rfl := Command.asks_eq rfl hresp
    exact h

/-- Steering takes nothing of the guard away. -/
theorem Guarded.steers (h : Guarded site host) (hc : c.Steers site)
    (hresp : Service.respond host c hint = some (ans, after)) : Guarded site after :=
  h.respond hc.spared hresp

end Effects

/-- **How the routing is watched**: what holds of the host all the time, and a goal that
steering does not lose. Where `sure`, no command of the routing fails short of the
goal. -/
structure Watch (site : Site) (conditions : Conditions) (always during goal : Host → Prop)
    (sure : Prop) : Prop where
  holds : ∀ host, during host → always host
  during_moved : ∀ host other, Rely host other → during host → during other
  goal_moved : ∀ host other, Rely host other → goal host → goal other
  during_steers : ∀ host (c : Command) hint answer after, c.Steers site → during host →
    respond host c hint = some (answer, after) → during after
  goal_steers : ∀ host (c : Command) hint answer after, c.Steers site → goal host →
    respond host c hint = some (answer, after) → goal after
  answered : sure → ∀ host c hint, during host → ¬ goal host → conditions.answers host c hint →
    c.isRouting = true → hint = .done

/-- A part of the routing that succeeds achieves something; it may fail at the goal, and
also elsewhere where it is not sure to succeed. -/
abbrev Achieves (conditions : Conditions) (always during goal : Host → Prop) (sure : Prop)
    (program : Program Bool) (host : Host) (achieved : Host → Prop) : Prop :=
  Runs conditions always program host fun ok after =>
    during after ∧ (goal after ∨ (ok = true → achieved after) ∧ (sure → ok = true))

section Routing

variable {cs : Conditions} {always dur goal : Host → Prop} {sure : Prop} {host : Host}
  (hwatch : Watch site cs always dur goal sure) {routed : Bool} {achieved : Host → Prop}

include hwatch

/-- Steering is watched all the way. -/
theorem Watch.steer (hdoes : prog.Does (Command.Steers site) B) (hdur : dur host) :
    Runs cs always prog host fun a after =>
      B a ∧ dur after ∧ (goal host → goal after) := by
  refine Runs.of_does hdoes (I := fun h => dur h ∧ (goal host → goal h)) ⟨hdur, id⟩
    fun c hc t ht => ⟨hwatch.holds t ht.1, ?_⟩
  rintro ans after ⟨other, hrely, -, hint, -, hresp⟩
  refine ⟨hwatch.during_steers other c hint ans after hc
    (hwatch.during_moved t other hrely ht.1) hresp, fun hgoal => ?_⟩
  exact hwatch.goal_steers other c hint ans after hc
    (hwatch.goal_moved t other hrely (ht.2 hgoal)) hresp

omit hwatch in
theorem achieves_ret (hdur : dur host) (h : achieved host) :
    Achieves cs always dur goal sure (.ret true) host achieved :=
  ⟨hdur, .inr ⟨fun _ => h, fun _ => rfl⟩⟩

theorem achieves_tell {e : Effect} (hsteers : Command.Steers site (.effect e))
    (hrout : Command.isRouting (.effect e) = true) (hdur : dur host)
    (hdone : ∀ other after, Rely host other → (cs.still → Still host other) →
      e.respond other .done = some (true, after) → achieved after) :
    Achieves cs always dur goal sure (tell e) host achieved := by
  refine ⟨hwatch.holds host hdur, ?_⟩
  rintro ok after ⟨other, hrely, hstl, hint, hans, hresp⟩
  have hoth := hwatch.during_moved host other hrely hdur
  refine ⟨hwatch.during_steers other _ hint ok after hsteers hoth hresp, ?_⟩
  by_cases hgoal : goal other
  · exact .inl (hwatch.goal_steers other _ hint ok after hsteers hgoal hresp)
  · refine .inr ⟨fun hok => ?_, fun hsure => ?_⟩
    · cases hok
      cases Effect.done_of_true hresp
      exact hdone other after hrely hstl hresp
    · cases hwatch.answered hsure other _ hint hoth hgoal hans hrout
      exact Effect.true_of_done hresp

/-- **The rest after the first part**: at the goal it may do what it likes. -/
theorem achieves_check {first rest : Program Bool} {middle : Host → Prop}
    (hfst : Achieves cs always dur goal sure first host middle)
    (hdoes : rest.Does (Command.Steers site) fun _ => True)
    (hr : ∀ h, dur h → middle h → Achieves cs always dur goal sure rest h achieved)
    : Achieves cs always dur goal sure (check first rest) host achieved := by
  refine hfst.seq fun ok h hend => ?_
  obtain ⟨hdur, hgoal | ⟨hach, hsure⟩⟩ := hend
  · cases ok with
    | true =>
      exact (hwatch.steer hdoes hdur).imp fun _ after haft => ⟨haft.2.1, .inl (haft.2.2 hgoal)⟩
    | false => exact ⟨hdur, .inl hgoal⟩
  · cases ok with
    | true => exact hr h hdur (hach rfl)
    | false => exact ⟨hdur, .inr ⟨fun hok => (nomatch hok), hsure⟩⟩

theorem achieves_every (left : List α → Host → Prop) {f : α → Program Bool}
    (hf : ∀ item rest h, dur h → left (item :: rest) h →
      Achieves cs always dur goal sure (f item) h (left rest)) {items : List α}
    (hdoes : ∀ item ∈ items, (f item).Does (Command.Steers site) fun _ => True)
    (hdur : dur host) (h : left items host) :
    Achieves cs always dur goal sure (every items f) host (left []) := by
  induction items generalizing host with
  | nil => exact achieves_ret hdur h
  | cons item items ih =>
    have hr : ∀ i ∈ items, (f i).Does (Command.Steers site) fun _ => True :=
      fun i hi => hdoes i (mem_cons_of_mem _ hi)
    refine achieves_check hwatch (hf item items host hdur h) (does_every hr) ?_
    exact fun after haft hleft => ih hr haft hleft

/-- The table of the egress is set up. -/
structure Staged (conditions : Conditions) (iface : Iface) (routed : Bool) (host : Host) : Prop where
  blackhole : host.blackhole = true
  routed : conditions.still → routed = true →
    host.default = some iface ∧ (host.device iface).isSome

omit hwatch in
theorem Staged.moved {i : Iface} (h : Staged cs i routed host)
    (hrely : Rely host other) (hstl : cs.still → Still host other) :
    Staged cs i routed other := by
  refine ⟨hrely.blackhole.trans h.blackhole, fun hs hrouted => ?_⟩
  rw [(hstl hs).default, (hstl hs).devices]
  exact h.routed hs hrouted

theorem achieves_blackhole (hdur : dur host) :
    Achieves cs always dur goal sure (tell .routeBlackhole) host fun h => h.blackhole = true := by
  refine achieves_tell hwatch trivial rfl hdur fun other after _ _ hdone => ?_
  cases hdone
  rfl

theorem achieves_throwBack (hdur : dur host) (h : host.blackhole = true) :
    Achieves cs always dur goal sure throwBack host fun h => h.blackhole = true := by
  refine achieves_every hwatch (fun _ h => h.blackhole = true) (fun net rest h hd hb => ?_)
    (fun _ _ => does_tell trivial) hdur h
  refine achieves_tell hwatch (e := .routeThrow net) trivial rfl hd fun other after hrely _ hdone => ?_
  cases hdone
  exact hrely.blackhole.trans hb

theorem achieves_routeDevice (i : Iface) (rtd : Bool) (hdur : dur host)
    (h : host.blackhole = true) :
    Achieves cs always dur goal sure (routeDevice i rtd) host (Staged cs i rtd) := by
  unfold routeDevice
  split
  · refine achieves_tell hwatch trivial rfl hdur fun other after hrely _ hdone => ?_
    obtain ⟨dev, hdev, hpair⟩ := Option.map_eq_some_iff.mp hdone
    cases hpair
    exact ⟨hrely.blackhole.trans h, fun _ _ => ⟨rfl, Option.isSome_of_eq_some hdev⟩⟩
  next hrouted => exact achieves_ret hdur ⟨h, fun _ hr => (hrouted hr).elim⟩

/-- Rules are added one after another. -/
theorem achieves_ruleAdds {i : Iface} {missing : List String} (hdur : dur host)
    (hstag : Staged cs i routed host)
    (h : ∀ src ∈ site.subnets, src ∈ host.rules ∨ src ∈ missing) :
    Achieves cs always dur goal sure (every missing fun s => tell (.ruleAdd s)) host
      fun h => Guarded site h ∧ Staged cs i routed h := by
  let left (rest : List String) (h : Host) : Prop := Staged cs i routed h
    ∧ ∀ src ∈ site.subnets, src ∈ h.rules ∨ src ∈ rest
  have hend : Achieves cs always dur goal sure
      (every missing fun s => tell (.ruleAdd s)) host (left []) := by
    refine achieves_every hwatch left (fun src rest h hd hleft => ?_)
      (fun _ _ => does_tell trivial) hdur ⟨hstag, h⟩
    refine achieves_tell hwatch (e := .ruleAdd src) trivial rfl hd
      fun other after hrely hstl hdone => ?_
    cases hdone
    have hmv := hleft.1.moved hrely hstl
    refine ⟨⟨hmv.blackhole, hmv.routed⟩, fun s hs => ?_⟩
    rcases hleft.2 s hs with hold | hr
    · exact .inl (mem_append_left _ (hrely.rules ▸ hold))
    · rcases mem_cons.mp hr with rfl | hr
      · exact .inl (mem_append_right _ (mem_singleton_self _))
      · exact .inr hr
  refine hend.imp fun ok after haft => ⟨haft.1, haft.2.imp id fun hach => ?_⟩
  refine ⟨fun hok => ?_, hach.2⟩
  obtain ⟨hs, hrs⟩ := hach.1 hok
  refine ⟨⟨fun src hsrc => ?_, hs.blackhole⟩, hs⟩
  exact (hrs src hsrc).resolve_right not_mem_nil

/-- Rules of no subnet are deleted one after another. -/
theorem achieves_ruleDels {i : Iface} {others : List String}
    (hoth : ∀ src ∈ others, src ∉ site.subnets) (hdur : dur host)
    (h : Guarded site host ∧ Staged cs i routed host) :
    Achieves cs always dur goal sure (every others fun s => tell (.ruleDel s)) host
      fun h => Guarded site h ∧ Staged cs i routed h := by
  let left (rest : List String) (h : Host) : Prop :=
    (Guarded site h ∧ Staged cs i routed h) ∧ ∀ src ∈ rest, src ∉ site.subnets
  have hend : Achieves cs always dur goal sure
      (every others fun s => tell (.ruleDel s)) host (left []) := by
    refine achieves_every hwatch left (fun src rest h hd hleft => ?_)
      (fun src hs => .ask (hoth src hs)) hdur ⟨h, hoth⟩
    have hsrc : Command.Steers site (.effect (.ruleDel src)) :=
      hleft.2 src mem_cons_self
    refine achieves_tell hwatch hsrc rfl hd fun other after hrely hstl hdone => ?_
    have hresp : respond other (.effect (.ruleDel src)) .done = some (true, after) := hdone
    have hgd := (hleft.1.1.rely hrely).steers hsrc hresp
    have hmv := hleft.1.2.moved hrely hstl
    cases hdone
    exact ⟨⟨hgd, hmv.blackhole, hmv.routed⟩, fun s hs => hleft.2 s (mem_cons_of_mem _ hs)⟩
  exact hend.imp fun ok after haft => ⟨haft.1, haft.2.imp id fun hach =>
    ⟨fun hok => (hach.1 hok).1, hach.2⟩⟩

theorem achieves_setRules {i : Iface} (hdur : dur host) (hstag : Staged cs i routed host) :
    Achieves cs always dur goal sure (setRules site) host
      fun h => Guarded site h ∧ Staged cs i routed h := by
  refine Prog.Safe.ask_bind (hwatch.holds host hdur) ?_
  rintro found after ⟨other, hrely, hstl, hint, hans, hresp⟩
  have hoth := hwatch.during_moved host other hrely hdur
  cases hint with
  | failed =>
    cases hresp
    refine ⟨hoth, ?_⟩
    by_cases hgoal : goal after
    · exact .inl hgoal
    · refine .inr ⟨fun hok => (nomatch hok), fun hsure => ?_⟩
      cases hwatch.answered hsure after _ _ hoth hgoal hans rfl
  | done =>
    cases hresp
    have hdel : ∀ src ∈ after.rules.dedup.filter fun s => ! decide (s ∈ site.subnets),
        src ∉ site.subnets := by
      simp
    refine achieves_check hwatch (achieves_ruleAdds hwatch hoth (hstag.moved hrely hstl) ?_)
      (does_every fun src hs => .ask (hdel src hs))
      fun h hd hgd => achieves_ruleDels hwatch hdel hd hgd
    intro src hsrc
    by_cases hold : src ∈ after.rules
    · exact .inl hold
    · exact .inr (mem_filter.mpr ⟨hsrc, by simpa using hold⟩)
  | _ => cases hresp

/-- **What the routing achieves**: the guard, and where no process dies the default route
into a device that is there. -/
theorem achieves_routing (i : Iface) (rtd : Bool) (hdur : dur host) :
    Achieves cs always dur goal sure (routing site i rtd) host fun h =>
      Guarded site h ∧ Staged cs i rtd h := by
  refine achieves_check hwatch (achieves_blackhole hwatch hdur)
    (does_check does_throwBack (does_check (does_routeDevice i rtd) does_setRules))
    fun _ hd1 hhole => ?_
  refine achieves_check hwatch (achieves_throwBack hwatch hd1 hhole)
    (does_check (does_routeDevice i rtd) does_setRules) fun _ hd2 hhole => ?_
  exact achieves_check hwatch (achieves_routeDevice hwatch i rtd hd2 hhole)
    does_setRules fun _ hd3 hstag => achieves_setRules hwatch hd3 hstag

end Routing

/-! ## One call -/

def Provider.iface : Provider → Iface
  | .warp => .warp
  | .router => .router

/-- **The routing into a device is in force.** -/
structure InForce (site : Site) (iface : Iface) (host : Host) : Prop where
  guarded : Guarded site host
  default : host.default = some iface
  device : (host.device iface).isSome

/-- Where a request of the egress is to lead. -/
def Request.target (memory : Memory) : Request → Option Provider
  | .apply _ document _ => (validateDocument document).toOption.join
  | .rollback _ => (memory.store.egress.history.dropLast.getLast?).bind Entry.document
  | .tick | .peer _ => none

/-- **One call at a time**, on a host where no process dies, whatever it answers. -/
def smooth : Conditions where
  answers _ _ _ := True
  boots _ := False
  requests _ _ _ := False
  shutdowns _ _ := False
  still := True

/-- Commands that leave the route into a device alone. -/
def Command.Leaves (iface : Iface) : Command → Prop
  | .effect (.routeDefault _) | .effect .routeFlush => False
  | .kill other | .stop other => other ≠ iface
  | _ => True

theorem Command.Tends.leaves (h : c.Tends) (iface : Iface) : c.Leaves iface := by
  unfold Command.Tends at h
  split at h
  all_goals trivial

namespace InForce

variable {iface : Iface} {host : Host}

theorem moved (h : InForce site iface host) (hrely : Rely host other) (hstl : Still host other) :
    InForce site iface other :=
  ⟨h.guarded.rely hrely, hstl.default.trans h.default, by rw [hstl.devices]; exact h.device⟩

theorem setDevice (h : InForce site iface host) (o : Iface) (dev : Device) :
    InForce site iface (host.setDevice o dev) := by
  refine ⟨⟨h.guarded.rules, h.guarded.blackhole⟩, h.default, ?_⟩
  rw [device_setDevice]
  split
  · rfl
  · exact h.device

/-- Steering that leaves the route alone keeps it in force. -/
theorem steers {hint : Hint} {after : Host} (h : InForce site iface host) (hc : c.Steers site)
    (hleav : c.Leaves iface) (hresp : respond host c hint = some (ans, after)) :
    InForce site iface after := by
  have hgd := h.guarded.steers hc hresp
  cases c with
  | effect e =>
    cases e with
    | save | setPeers | routeFlush => exact hc.elim
    | routeDefault => exact hleav.elim
    | start other =>
      rcases Effect.remakes_eq rfl hresp with rfl | ⟨dev, rfl⟩
      · exact h
      · exact h.setDevice other _
    | configure | addr =>
      rcases attemptOn_eq hresp with rfl | ⟨-, -, rfl⟩
      · exact h
      · exact h
    | link other =>
      rcases attemptOn_eq hresp with rfl | ⟨dev, -, rfl⟩
      · exact h
      · exact h.setDevice other _
    | tuntap =>
      rcases attempt_eq hresp with rfl | rfl
      · exact h
      · exact h.setDevice .router _
    | routeBlackhole | routeThrow | ruleAdd | ruleDel | nftApply =>
      rcases attempt_eq hresp with rfl | rfl
      · exact h
      · exact { h with guarded := hgd }
  | kill other | stop other =>
    obtain rfl := Command.ends_eq rfl hresp
    refine ⟨hgd, ?_, ?_⟩
    · have hdef : host.default ≠ some other := by
        rw [h.default]
        exact fun heq => hleav (Option.some.inj heq).symm
      exact (if_neg hdef).trans h.default
    · rw [device_drop, if_neg fun heq => hleav heq.symm]
      exact h.device
  | _ =>
    obtain rfl := Command.asks_eq rfl hresp
    exact h

end InForce

section Call

variable {target : Option Provider} {memory : Memory} {host : Host} {now : ℚ} {provider : Provider}
  {force : Bool} {before : Option Provider} {expected : Field} {switch : Switch}

/-- A program of a call. -/
abbrev Calls {α : Type} (program : Program α) (host : Host) (post : α → Host → Prop) : Prop :=
  Runs smooth (fun _ => True) program host post

/-- What a program comes to without regard to the host. -/
theorem calls_of_does (h : prog.Does (fun _ => True) B) : Calls prog host fun a _ => B a :=
  (Runs.of_does h (I := fun _ => True) trivial
    fun _ _ _ _ => ⟨trivial, fun _ _ _ => trivial⟩).imp fun _ _ hend => hend.1

/-- What keeps the routing in force. -/
theorem InForce.calls {i : Iface} (h : InForce site i host)
    (hdoes : prog.Does (fun c => c.Steers site ∧ c.Leaves i) B) :
    Calls prog host fun a after => B a ∧ InForce site i after := by
  refine Runs.of_does hdoes h fun c hc t ht => ⟨trivial, ?_⟩
  rintro ans after ⟨other, hrely, hstl, hint, -, hresp⟩
  exact (ht.moved hrely (hstl trivial)).steers hc.1 hc.2 hresp

/-- **What is known of the routing between two rounds**: it counts as set up only if it is
in force, and WARP's only while its tunnel is up. -/
structure Settled (site : Site) (memory : Memory) (host : Host) (provider : Provider) : Prop where
  inForce : memory.egress.networkOk = true → InForce site provider.iface host
  configured : provider = .warp → memory.egress.networkOk = true → memory.egress.configured = true
  process : provider = .warp → memory.egress.configured = true → memory.egress.process = true

/-- What it takes to converge: a fresh start, or what the last round left. -/
def Prepared (site : Site) (memory : Memory) (host : Host) (provider : Provider) (force : Bool) :
    Prop :=
  force = true ∧ memory.egress.configured = false ∨ Settled site memory host provider

/-- The routing is in force, so that a round without force may leave it. -/
theorem Prepared.settled (h : Prepared site memory host provider force) (hf : force = false) :
    Settled site memory host provider := by
  refine h.resolve_left fun hfresh => ?_
  rw [hf] at hfresh
  cases hfresh.1

/-- What a program that leaves the routing alone leaves. -/
theorem Settled.left (h : Settled site memory host provider)
    (hdoes : prog.Does (fun c => c.Steers site ∧ c.Leaves provider.iface) B) :
    Calls prog host fun a after => B a ∧ Settled site memory after provider := by
  by_cases hok : memory.egress.networkOk = true
  · exact ((h.inForce hok).calls hdoes).imp fun _ _ hend =>
      ⟨hend.1, { h with inForce := fun _ => hend.2 }⟩
  · exact (calls_of_does (hdoes.mono (fun _ _ => trivial) fun _ hB => hB)).imp fun _ _ hB =>
      ⟨hB, { h with inForce := fun hc => (hok hc).elim }⟩

/-- What a save leaves. -/
def Saved (store : Store) (host : Host) (ok : Bool) (after : Host) : Prop :=
  if ok then after.disk = store ∧ after.unsaved = host.unsaved
  else ∃ landed, after.disk = (if landed then store else host.disk)
    ∧ after.unsaved = host.unsaved ++ [(store, landed)]

/-- **The saves do no harm**: the target is the document from before, or every save that
was answered with an error was of that document and reached the file. -/
def Harmless (before target : Option Provider) (host : Host) : Prop :=
  target = before ∨ ∀ e ∈ host.unsaved, e.1.egress.document = before ∧ e.2 = true

theorem getLast?_drop_append (history : List Entry) (entry : Entry) :
    ((history ++ [entry]).drop ((history ++ [entry]).length - maxHistory)).getLast?
      = some entry := by
  rw [getLast?_drop, if_neg]
  · rw [getLast?_append]
    rfl
  · rw [length_append]
    unfold maxHistory
    simp only [length_singleton]
    omega

/-- **Where a plan leads.** -/
theorem planApply_eq_ok {operationId : Field} {d : Json}
    (h : planApply memory expected d operationId = .ok switch) :
    (∃ t, switch = .replay t)
      ∨ ∃ history, switch = .go history ((Request.apply expected d operationId).target memory)
        ∧ (history.getLast?).bind Entry.document
          = (Request.apply expected d operationId).target memory := by
  unfold planApply at h
  split at h
  next op hop =>
    simp only [bind_eq_ok, throw_then, check_eq_ok] at h
    obtain ⟨-, target', hval, h⟩ := h
    have htgt : (Request.apply expected d operationId).target memory = target' := by
      rw [Request.target, hval]
      rfl
    split at h
    · obtain ⟨-, h⟩ := check_eq_ok.mp h
      exact .inl ⟨target', (pure_eq_ok.mp h).symm⟩
    · obtain ⟨-, -, h⟩ := bind_eq_ok.mp h
      cases pure_eq_ok.mp h
      rw [htgt]
      refine .inr ⟨_, rfl, ?_⟩
      rw [getLast?_drop_append]
      rfl
  · cases h

theorem planRollback_eq_ok (h : planRollback memory expected = .ok switch) :
    ∃ history, switch = .go history ((Request.rollback expected).target memory)
      ∧ (history.getLast?).bind Entry.document = (Request.rollback expected).target memory := by
  simp only [planRollback, bind_eq_ok, throw_then, check_eq_ok, pure_eq_ok] at h
  obtain ⟨-, -, -, rfl⟩ := h
  exact ⟨_, rfl, rfl⟩

/-- What a reply to a request of the egress says. -/
def Honest (site : Site) (before target : Option Provider) (memory : Memory) (reply : Reply)
    (host : Host) : Prop :=
  ∀ result, reply = .egress result →
    (∀ provider, result = .ok (some provider, false) →
      (provider = .warp → memory.egress.networkOk = true) → InForce site provider.iface host)
      ∧ ∀ error, result = .error error →
        (memory.provider = before ∧ host.disk.egress.document = before
          ↔ Harmless before target host)

end Call

namespace Sample

def account : Account := ⟨publicKey, presharedKey, "172.16.0.2", "engage", by decide, by decide⟩

/-- The commands of the routing succeed. -/
def routed : List Event := List.replicate 11 (.perform .done)

/-- A manager that has nothing to do. -/
def memory : Memory := ⟨host.disk, fun _ => Tunnel.fresh, 0, Egress.fresh⟩

/-- What happens in a call. -/
def served : Event → Bool
  | .perform _ | .finish => true
  | _ => false

end Sample

end AmneziaWG.Service
