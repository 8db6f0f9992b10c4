import ProxyControl.AmneziaWGSwitch

/-!
# The AmneziaWG egress fails closed

While the state file names a provider, no packet of a peer should leave by the main
table. A packet of a subnet is looked up in the egress table if the subnet has its
rule, and stays there if the table has a default of some kind. Of the two defaults
only the blackhole lasts: a route into a device goes with the device. So what has
to be there all the time is the guard – rules and blackhole – or no device with a
peer at all (`Shut`).

Steering never takes anything of the guard away. But the guard is put up late: a
start brings the devices up before it looks at the egress, and a change from direct
saves the document before it sets the first rule. `fail_closed` says what is enough:
starts that find the guard as they need it, changes from direct while no device has
a peer, saves that succeed, and commands that do while the guard is incomplete.
-/

namespace AmneziaWG.Service

variable {site : Site} {host other after : Host} {c : Command} {hint : Hint} {ans : Answer c}
  {e : String × Net}

/-! ## Packets -/

/-- **A packet of a peer of the subnet is routed by the main table**: no rule sends it to
the egress table, or nothing there takes it. -/
def ByMain (host : Host) (source : String) : Prop :=
  ¬ (source ∈ host.rules ∧ (host.default.isSome = true ∨ host.blackhole = true))

/-- **Fail closed**: while the file names a provider, no packet of a peer on a device that is
up is routed by the main table. -/
def Closed (site : Site) (host : Host) : Prop :=
  host.disk.egress.document ≠ none → ∀ e ∈ site.versions, ∀ device,
    host.device (.tunnel e.1) = some device → device.up = true → device.peers ≠ [] →
      ¬ ByMain host e.2.text

/-- No device that is up has a peer. -/
def Quiescent (site : Site) (host : Host) : Prop :=
  ∀ e ∈ site.versions, ∀ device, host.device (.tunnel e.1) = some device → device.up = true →
    device.peers = []

/-- What keeps packets in. -/
def Shut (site : Site) (host : Host) : Prop := Quiescent site host ∨ Guarded site host

theorem text_mem_subnets (h : e ∈ site.versions) : e.2.text ∈ site.subnets :=
  List.mem_dedup.mpr (List.mem_map.mpr ⟨e, h, rfl⟩)

theorem Shut.closed (h : host.disk.egress.document ≠ none → Shut site host) : Closed site host := by
  intro hnam e he dev hdev hup hps
  rcases h hnam with hq | hgd
  · exact (hps (hq e he dev hdev hup)).elim
  · exact fun hmain => hmain ⟨hgd.rules _ (text_mem_subnets he), .inr hgd.blackhole⟩

theorem Quiescent.rely (h : Quiescent site host) (hrely : Rely host other) :
    Quiescent site other := by
  intro e he dev hdev hup
  rcases hrely.devices (.tunnel e.1) with hsm | hn
  · exact h e he dev (hsm ▸ hdev) hup
  · rw [hn] at hdev
    cases hdev

theorem Shut.rely (h : Shut site host) (hrely : Rely host other) : Shut site other :=
  h.imp (fun hq => hq.rely hrely) fun hgd => hgd.rely hrely

/-! ## Conditions -/

/-- A section that can be enforced: WARP has an account. -/
def Section.Sensible (egress : Section) : Prop :=
  egress.document = some .warp → egress.warp.isSome = true

/-- **A run with care.** Saves that change the egress succeed, and while the file names a
provider and the guard is incomplete, so do the commands of the routing. The manager is
started where the egress is direct or the guard complete, goes from direct to a provider
while no device that is up has a peer, and ends only where it knows the processes of the
devices, unless the egress is direct. -/
def careful (site : Site) : Conditions where
  answers host c hint :=
    (∀ store, c = .effect (.save store) → store.egress ≠ host.disk.egress → hint = .done)
      ∧ (host.disk.egress.document ≠ none → ¬ Guarded site host → c.isRouting = true → hint = .done)
  boots host := host.disk.egress.document = none ∨ Guarded site host
  requests memory host request :=
    memory.provider = none → request.target memory ≠ none → Quiescent site host
  shutdowns memory host := memory.provider = none ∨
    ∀ e ∈ site.versions, (host.device (.tunnel e.1)).isSome = true →
      (memory.tunnels e.1).process = true
  still := False

/-- What holds of the host all the time. -/
structure Safe (site : Site) (host : Host) : Prop where
  shut : host.disk.egress.document ≠ none → Shut site host
  sensible : host.disk.egress.Sensible

/-- What holds of it while the manager enforces a section. -/
structure Sound (site : Site) (egress : Section) (host : Host) : Prop where
  disk : host.disk.egress = egress
  guarded : egress.document ≠ none → Guarded site host
  sensible : egress.Sensible

namespace Sound

variable {egress : Section}

theorem safe (h : Sound site egress host) : Safe site host :=
  ⟨fun hnam => .inr (h.guarded (h.disk ▸ hnam)), h.disk ▸ h.sensible⟩

theorem rely (h : Sound site egress host) (hrely : Rely host other) : Sound site egress other :=
  ⟨by rw [hrely.disk]; exact h.disk, fun hnam => (h.guarded hnam).rely hrely, h.sensible⟩

end Sound

theorem Safe.rely (h : Safe site host) (hrely : Rely host other) : Safe site other :=
  ⟨by rw [hrely.disk]; exact fun hnam => (h.shut hnam).rely hrely,
    by rw [hrely.disk]; exact h.sensible⟩

/-! ## Commands that leave a section in force -/

theorem disk_respond (hsave : ∀ store, c ≠ .effect (.save store))
    (h : respond host c hint = some (ans, after)) : after.disk = host.disk := by
  by_cases hq : c.Quiet
  · exact (Command.within hq h).disk
  · unfold Command.Quiet at hq
    split at hq
    · exact (hsave _ rfl).elim
    · rcases Effect.remakes_eq rfl h with rfl | ⟨dev, rfl⟩
      · rfl
      · rfl
    · rcases Effect.remakes_eq rfl h with rfl | ⟨dev, rfl⟩
      · rfl
      · rfl
    · exact (hq trivial).elim

/-- Commands that leave a section in force: saves are of the same section, and where it
names a provider the guard stays. -/
def Command.Holds (site : Site) (egress : Section) : Command → Prop
  | .effect (.save store) => store.egress = egress
  | c => egress.document = none ∨ c.Spared site

variable {egress : Section}

theorem Command.Quiet.holds (hc : c.Quiet) (h : egress.document = none ∨ c.Spared site) :
    c.Holds site egress := by
  unfold Command.Holds
  split
  · exact hc.elim
  · exact h

theorem Sound.respond (h : Sound site egress host) (hc : c.Holds site egress)
    (hresp : Service.respond host c hint = some (ans, after)) : Sound site egress after := by
  unfold Command.Holds at hc
  split at hc
  next store =>
    obtain ⟨-, rfl⟩ | ⟨-, landed, rfl⟩ := save_eq hresp
    · exact ⟨hc, fun hnam => ⟨(h.guarded hnam).rules, (h.guarded hnam).blackhole⟩, h.sensible⟩
    · refine ⟨?_, fun hnam => ⟨(h.guarded hnam).rules, (h.guarded hnam).blackhole⟩, h.sensible⟩
      cases landed with
      | true => exact hc
      | false => exact h.disk
  next hoth =>
    have hdisk : after.disk = host.disk := disk_respond (fun store heq => hoth store heq) hresp
    refine ⟨by rw [hdisk]; exact h.disk, fun hnam => ?_, h.sensible⟩
    rcases hc with hn | hspar
    · exact (hnam hn).elim
    · exact (h.guarded hnam).respond hspar hresp

/-- **A program that leaves the section in force.** -/
theorem Sound.runs {α : Type} {prog : Program α} {B : α → Prop} (h : Sound site egress host)
    (hdoes : prog.Does (Command.Holds site egress) B) :
    Runs (careful site) (Safe site) prog host fun a last => B a ∧ Sound site egress last := by
  refine Runs.of_does hdoes h fun c hc t ht => ⟨ht.safe, ?_⟩
  rintro ans last ⟨middle, hrely, -, hint, -, hresp⟩
  exact (ht.rely hrely).respond hc hresp

/-! ### Tunnels and peers -/

/-- Commands that neither write nor take rules and routes away. -/
def Command.Plain : Command → Prop
  | .effect (.save _) | .effect (.ruleDel _) | .effect .routeFlush => False
  | _ => True

theorem Command.Plain.holds (h : c.Plain) (egress : Section) : c.Holds site egress := by
  cases c with
  | effect e =>
    cases e with
    | save | ruleDel | routeFlush => exact h.elim
    | _ => exact .inr trivial
  | _ => exact .inr trivial

section Tunnels

variable {memory : Memory} {v : String} {now : ℚ}

theorem plain_reconcilePeers : (reconcilePeers site memory v now).Does Command.Plain
    fun m => m.store = memory.store := by
  refine Prog.Does.bind (B := fun _ => True) (.ask trivial) fun live _ => ?_
  cases live with
  | none => exact rfl
  | some live =>
    dsimp only
    split
    · exact rfl
    · split
      · exact rfl
      · refine (does_tell trivial).bind fun ok _ => ?_
        split
        · exact rfl
        · exact rfl

theorem plain_configureTunnel : (configureTunnel site memory v now).Does Command.Plain
    fun m => m.store = memory.store := by
  refine (does_tell trivial).bind fun ok _ => ?_
  split
  · refine (does_check (does_tell trivial) (does_tell trivial)).bind fun ok _ => ?_
    split
    · refine Prog.Does.mono (fun _ hc => hc) ?_ plain_reconcilePeers
      exact fun _ h => h
    · exact rfl
  · split
    · exact ⟨trivial, fun _ => rfl⟩
    · exact rfl

theorem plain_supervise : (supervise site memory v now).Does Command.Plain
    fun m => m.store = memory.store := by
  have hreap : (reap memory v now).Does Command.Plain fun m => m.store = memory.store := by
    unfold reap
    dsimp only
    split
    · refine (does_exited trivial).bind fun exited _ => ?_
      split
      · exact rfl
      · exact rfl
    · exact rfl
  have hlau : ∀ m : Memory, (launch m v now).Does Command.Plain fun m' => m'.store = m.store := by
    intro m
    unfold launch
    dsimp only
    split
    · exact rfl
    · refine (does_tell trivial).bind fun started _ => ?_
      split
      · exact rfl
      · exact rfl
  refine hreap.bind fun m hm => (hlau m).bind fun m' hm' => ?_
  have hsm : m'.store = memory.store := hm'.trans hm
  dsimp only
  split
  · exact hsm
  · split
    · exact plain_configureTunnel.mono (fun _ hc => hc) fun _ h => h.trans hsm
    · split
      · exact plain_reconcilePeers.mono (fun _ hc => hc) fun _ h => h.trans hsm
      · exact hsm

theorem plain_superviseAll : (superviseAll site memory now).Does Command.Plain
    fun m => m.store = memory.store := by
  unfold superviseAll
  generalize site.versions = vers
  induction vers generalizing memory with
  | nil => exact rfl
  | cons e vers ih =>
    exact plain_supervise.bind fun m hm => ih.mono (fun _ hc => hc) fun _ h => h.trans hm

theorem plain_applyNft : (applyNft memory).Does Command.Plain fun m => m.store = memory.store :=
  ⟨trivial, fun _ => ⟨trivial, fun _ => rfl⟩⟩

theorem plain_liveChange (lines : List Line) : (liveChange site memory v lines).Does
    Command.Plain fun m => m.store = memory.store := by
  unfold liveChange
  dsimp only
  split
  · refine (does_tell trivial).bind fun ok _ => ?_
    split
    · exact rfl
    · exact rfl
  · exact rfl

end Tunnels

/-! ### Programs of the manager -/

section Programs

variable {memory : Memory} {now : ℚ} {prev egress : Section} {target : Option Provider}
  {i : Iface}

/-- Converging enforces the section in memory. -/
theorem holds_egressConverge (h : memory.store.egress.Sensible) (force : Bool) :
    (egressConverge site memory now force).Does (Command.Holds site memory.store.egress)
      (SameStore memory) := by
  refine does_egressConverge_of (fun c hc => hc.quiet.holds (.inr hc.spared))
    (fun hnot c hc => hc.quiet.holds (.inl ?_)) force
  cases hprov : memory.store.egress.document with
  | none => rfl
  | some prov =>
    cases prov with
    | router => exact (hnot (.inl hprov)).elim
    | warp => exact (hnot (.inr ⟨hprov, h hprov⟩)).elim

theorem holds_tick (h : memory.store.egress.Sensible) :
    (tick site memory).Does (Command.Holds site memory.store.egress)
      fun m => m.store.egress = memory.store.egress := by
  have hpln : ∀ {prog : Program Memory} {m : Memory},
      prog.Does Command.Plain (fun m' => m'.store = m.store) → m.store = memory.store →
      prog.Does (Command.Holds site memory.store.egress) fun m' => m'.store = memory.store :=
    fun hdoes hm => hdoes.mono (fun _ hc => hc.holds _) fun _ h => h.trans hm
  have hconv : ∀ (m : Memory) (now : ℚ), m.store = memory.store →
      (egressConverge site m now false).Does (Command.Holds site memory.store.egress)
        fun m' => m'.store.egress = memory.store.egress := by
    intro m now hm
    rw [← hm]
    exact (holds_egressConverge (by rw [hm]; exact h) false).mono (fun _ hc => hc)
      fun _ hs => by rw [hs.store]
  refine Prog.Does.bind (B := fun _ => True) (.ask (.inr trivial)) fun now _ => ?_
  refine (hpln plain_superviseAll rfl).bind fun m hm => ?_
  split
  · exact (hpln plain_applyNft hm).bind fun m' hm' => hconv m' now hm'
  · exact hconv m now hm

theorem holds_peerCall (c : Call) :
    (peerCall site memory c).Does (Command.Holds site memory.store.egress)
      fun r => r.1.store.egress = memory.store.egress := by
  refine Prog.Does.bind (B := fun _ => True) (.ask (.inr trivial)) fun (now : ℚ) _ => ?_
  cases hp : plan site.sha256 site.instances memory.document ⌊now⌋ c with
  | error error => exact rfl
  | ok res =>
    obtain ⟨_ | desired, u⟩ := res
    · exact rfl
    · refine Prog.Does.bind (B := fun _ => True) (does_tell rfl) fun ok _ => ?_
      cases ok with
      | false => exact rfl
      | true =>
        exact ((plain_liveChange _).mono (fun _ hc => hc.holds _) fun _ h => h).bind fun m hm => by
            show m.store.egress = memory.store.egress
            rw [hm]

theorem holds_bootstrap {disk : Store} (h : disk.egress.Sensible) :
    (bootstrap site disk).Does (Command.Holds site disk.egress)
      fun loaded => ∀ m, loaded = some m → m.store.egress = disk.egress := by
  have hr : ∀ store : Store, store.egress = disk.egress → Prog.Does (Command.Holds site disk.egress)
        (fun loaded => ∀ m, loaded = some m → m.store.egress = disk.egress) (do
          let memory ← applyNft ⟨store, fun _ => Tunnel.fresh, 0, Egress.fresh⟩
          return some (← tick site memory) : Program (Option Memory)) := by
    intro store hsto
    refine (plain_applyNft.mono (fun _ hc => hc.holds _) fun _ hm => hm).bind fun m hm => ?_
    have hsec : m.store.egress = disk.egress := by
      rw [hm]
      exact hsto
    have htick : (tick site m).Does (Command.Holds site disk.egress)
        fun m' => m'.store.egress = disk.egress := by
      rw [← hsec]
      exact holds_tick (by rw [hsec]; exact h)
    refine htick.bind fun m' hm' => ?_
    rintro _ ⟨⟩
    exact hm'
  unfold bootstrap
  dsimp only
  split
  · exact fun _ heq => (nomatch heq)
  · split
    next hmiss =>
      rw [hmiss]
      exact hr _ rfl
    · refine Prog.Does.bind (B := fun _ => True) (does_tell rfl) fun ok _ => ?_
      cases ok with
      | false => exact fun _ heq => (nomatch heq)
      | true => exact hr _ rfl

/-! ### Changes of the egress -/

/-- What holds while the routing of a provider is brought up. -/
structure Steady (site : Site) (egress : Section) (host : Host) : Prop where
  disk : host.disk.egress = egress
  shut : Shut site host
  sensible : egress.Sensible

theorem Steady.safe (h : Steady site egress host) : Safe site host :=
  ⟨fun _ => h.shut, h.disk ▸ h.sensible⟩

theorem Steady.rely (h : Steady site egress host) (hrely : Rely host other) :
    Steady site egress other :=
  ⟨by rw [hrely.disk]; exact h.disk, h.shut.rely hrely, h.sensible⟩

theorem Steady.sound (h : Steady site egress host) (hgd : Guarded site host) :
    Sound site egress host :=
  { h with guarded := fun _ => hgd }

/-- Steering puts no peer on a device and brings none up. -/
theorem Quiescent.steers (h : Quiescent site host) (hc : c.Steers site)
    (hresp : respond host c hint = some (ans, after)) : Quiescent site after := by
  have hsm : ∀ {landed : Host}, (∀ v, landed.device (.tunnel v)
      = host.device (.tunnel v)) → Quiescent site landed := by
    intro landed hdevs e he dev hdev
    exact h e he dev (hdevs e.1 ▸ hdev)
  have hset : ∀ {i : Iface} (dev : Device), (∀ v, i ≠ .tunnel v) →
      Quiescent site (host.setDevice i dev) := by
    intro i dev hiface
    refine hsm fun v => ?_
    rw [device_setDevice, if_neg (hiface v).symm]
  cases c with
  | effect e =>
    cases e with
    | save | setPeers | routeFlush => exact hc.elim
    | start i =>
      cases i with
      | tunnel => exact hc.elim
      | warp | router =>
        rcases Effect.remakes_eq rfl hresp with rfl | ⟨dev, rfl⟩
        · exact h
        · exact hset _ fun _ => by simp
    | link i =>
      cases i with
      | tunnel => exact hc.elim
      | warp | router =>
        rcases attemptOn_eq hresp with rfl | ⟨dev, -, rfl⟩
        · exact h
        · exact hset _ fun _ => by simp
    | configure | addr =>
      rcases attemptOn_eq hresp with rfl | ⟨-, -, rfl⟩
      · exact h
      · exact h
    | routeDefault =>
      rcases attemptOn_eq hresp with rfl | ⟨-, -, rfl⟩
      · exact h
      · exact hsm fun _ => rfl
    | tuntap =>
      rcases attempt_eq hresp with rfl | rfl
      · exact h
      · exact hset _ fun _ => by simp
    | routeBlackhole | routeThrow | ruleAdd | ruleDel | nftApply =>
      rcases attempt_eq hresp with rfl | rfl
      · exact h
      · exact hsm fun _ => rfl
  | kill i | stop i =>
    obtain rfl := Command.ends_eq rfl hresp
    exact h.rely (rely_drop host i)
  | _ =>
    obtain rfl := Command.asks_eq rfl hresp
    exact h

theorem Shut.steers (h : Shut site host) (hc : c.Steers site)
    (hresp : respond host c hint = some (ans, after)) : Shut site after :=
  h.imp (fun hq => hq.steers hc hresp) fun hgd => hgd.steers hc hresp

theorem Steady.steers (h : Steady site egress host) (hc : c.Steers site)
    (hresp : respond host c hint = some (ans, after)) : Steady site egress after := by
  have hdisk : after.disk = host.disk := by
    refine disk_respond ?_ hresp
    rintro store rfl
    exact hc
  exact ⟨by rw [hdisk]; exact h.disk, h.shut.steers hc hresp, h.sensible⟩

/-- The routing of a provider is watched until the guard is complete. -/
theorem watch_careful (hnam : egress.document ≠ none) :
    Watch site (careful site) (Safe site) (Steady site egress) (Guarded site) True where
  holds _ h := h.safe
  during_moved _ _ hrely h := h.rely hrely
  goal_moved _ _ hrely h := h.rely hrely
  during_steers _ _ _ _ _ hc h hresp := h.steers hc hresp
  goal_steers _ _ _ _ _ hc h hresp := h.steers hc hresp
  answered _ _ _ _ h hgoal hans hrout :=
    hans.2 (by rw [h.disk]; exact hnam) hgoal hrout

/-- The routing puts the guard up. -/
theorem runs_egressNetwork (hnam : egress.document ≠ none) (i : Iface)
    (h : Steady site egress host) :
    Runs (careful site) (Safe site) (egressNetwork site memory now i) host fun m last =>
      SameStore memory m ∧ Sound site egress last := by
  refine (achieves_routing (watch_careful hnam) i _ h).seq fun ok last hl => ?_
  have hgd : Guarded site last := by
    rcases hl.2 with hgoal | hach
    · exact hgoal
    · exact (hach.1 (hach.2 trivial)).1
  have hsd := hl.1.sound hgd
  cases ok with
  | true | false => exact ⟨⟨rfl, rfl⟩, hsd⟩

/-- **Converging by force** puts the guard up. -/
theorem runs_egressConverge (hsteer : Steered memory) (h : Steady site memory.store.egress host) :
    Runs (careful site) (Safe site) (egressConverge site memory now true) host fun m last =>
      SameStore memory m ∧ Sound site memory.store.egress last := by
  have hnam : memory.store.egress.document ≠ none := by
    intro hn
    rcases hsteer with hrtr | hwarp
    · cases hn.symm.trans hrtr
    · cases hn.symm.trans hwarp.1
  have hwat : Watch site (careful site) _ _ _ _ := watch_careful hnam
  have hnet : ∀ {m : Memory} {last : Host} (i : Iface), SameStore memory m →
      Steady site memory.store.egress last → Runs (careful site) (Safe site)
        (egressNetwork site m now i) last fun m' end_ =>
          SameStore memory m' ∧ Sound site memory.store.egress end_ := by
    intro m last i hm hl
    exact (runs_egressNetwork hnam i hl).imp fun _ _ hend => ⟨hm.trans hend.1, hend.2⟩
  obtain ⟨converge, heq, hcs⟩ := egressConverge_eq site memory now true
  have hr : ∀ last, Steady site memory.store.egress last →
      Runs (careful site) (Safe site) converge last fun m end_ =>
        SameStore memory m ∧ Sound site memory.store.egress end_ := by
    intro last hl
    rcases hcs with ⟨-, rfl⟩ | ⟨-, rfl⟩ | ⟨hnot, -⟩
    · exact (hwat.steer (does_stopProcess trivial) hl).seq
        fun m end_ hend => hnet .router hend.1 hend.2.1
    · exact (hwat.steer does_egressSupervise hl).seq fun m end_ hend => hnet .warp hend.1 hend.2.1
    · exact (hnot hsteer).elim
  rcases heq with heq | heq
  · rw [heq]
    exact hr host h
  · have hens : (ensureRouterDevice site).Does (Command.Steers site) fun _ => True :=
      does_ensureRouterDevice.mono (fun _ hc => hc.steers) fun _ hB => hB
    rw [heq]
    exact (hwat.steer hens h).seq fun _ last hl => hr last hl.2.1

/-- A save of another section succeeds, and nothing else happens to the host but what it
does by itself. -/
theorem runs_saveEgress (hsafe : Safe site host) (hnew : m.store.egress ≠ host.disk.egress) :
    Runs (careful site) (Safe site) (saveEgress m) host fun r last =>
      r = ({ m with store := m.store.pruned }, true)
        ∧ ∃ o, Rely host o ∧ last = { o with disk := m.store.pruned } := by
  refine Prog.Safe.ask_bind hsafe ?_
  rintro ok last ⟨o, hrely, -, hint, hans, hresp⟩
  have hdone : hint = .done := by
    refine hans.1 _ rfl ?_
    rw [hrely.disk]
    exact hnew
  cases hdone
  cases hresp
  exact ⟨rfl, o, hrely, rfl⟩

theorem Guarded.setDisk (h : Guarded site host) (disk : Store) : Guarded site { host with disk } :=
  ⟨h.rules, h.blackhole⟩

theorem Shut.setDisk (h : Shut site host) (disk : Store) : Shut site { host with disk } :=
  h.imp (fun hq => hq) fun hgd => hgd.setDisk disk

/-- What a change ends with. -/
abbrev Ended (site : Site) {α : Type} (r : Memory × α) (host : Host) : Prop :=
  Sound site r.1.store.egress host

/-- The clock, and converging after it. -/
theorem runs_convergeSound {m : Memory} {β : Type} {res : β} (h : Sound site egress host)
    (hm : m.store.egress = egress) :
    Runs (careful site) (Safe site) (do
      let now ← clock
      let m ← egressConverge site m now true
      return (m, res)) host (Ended site) := by
  subst hm
  have hdoes : (do
      let now ← clock
      let m ← egressConverge site m now true
      return (m, res) : Program (Memory × β)).Does (Command.Holds site m.store.egress)
        fun r => r.1.store.egress = m.store.egress := by
    refine Prog.Does.bind (B := fun _ => True) (.ask (.inr trivial)) fun now _ => ?_
    refine (holds_egressConverge h.sensible true).bind fun m' hm' => ?_
    show m'.store.egress = m.store.egress
    rw [hm'.store]
  refine (h.runs hdoes).imp fun r last hend => ?_
  show Sound site r.1.store.egress last
  rw [hend.1]
  exact hend.2

theorem runs_putBack (hegr : memory.store.egress = egress) (h : Sound site egress host)
    (hnam : egress.document ≠ none) (hrev : egress.revision ≠ prev.revision + 2)
    (hsens : prev.document = some .warp → egress.warp.isSome) (prov : Provider) :
    Runs (careful site) (Safe site) (putBack site memory prev prov) host (Ended site) := by
  have hnew : (memory.setSection { prev with
      warp := memory.store.egress.warp, revision := prev.revision + 2 }).store.egress
      ≠ host.disk.egress := by
    rw [h.disk]
    exact fun heq => hrev (congrArg Section.revision heq).symm
  refine (runs_saveEgress h.safe hnew).seq fun r last hl => ?_
  obtain ⟨rfl, other, hrely, rfl⟩ := hl
  refine runs_convergeSound ⟨rfl, fun _ => ?_, ?_⟩ rfl
  · exact ((h.guarded hnam).rely hrely).setDisk _
  · intro hwarp
    rw [hegr]
    exact hsens hwarp

/-- **A change is brought up.** -/
theorem runs_bringUp (hegr : memory.store.egress = egress) (htgt : egress.document = target)
    (hrev : egress.revision = prev.revision + 1) (hsens : egress.Sensible)
    (hwarp : prev.warp.isSome = true → egress.warp.isSome = true) (h : Sound site prev host)
    (hshut : target ≠ none → Shut site host) :
    Runs (careful site) (Safe site) (bringUp site memory prev target) host (Ended site) := by
  unfold bringUp
  generalize awaitRounds = rounds
  have hnew : memory.store.egress ≠ host.disk.egress := by
    rw [h.disk, hegr]
    intro heq
    rw [heq] at hrev
    omega
  refine (runs_saveEgress h.safe hnew).seq fun r last hl => ?_
  obtain ⟨rfl, other, hrely, rfl⟩ := hl
  dsimp only
  rw [if_pos rfl]
  let saved := resetDataplane { memory with store := memory.store.pruned }
  have hsv : saved.store.egress = egress := hegr
  cases target with
  | none =>
    refine runs_convergeSound (m := saved) ⟨hegr, fun hnam => ?_, hsens⟩ hsv
    exact (hnam htgt).elim
  | some provider =>
    have hnam : egress.document ≠ none := fun hn => (nomatch hn.symm.trans htgt)
    have hprov : saved.provider = some provider :=
      (congrArg Section.document hsv).trans htgt
    have hsteer : Steered saved := by
      cases provider with
      | router => exact .inl hprov
      | warp =>
        refine .inr ⟨hprov, ?_⟩
        rw [hsv]
        exact hsens htgt
    have hstd : Steady site egress { other with disk := memory.store.pruned } :=
      ⟨hegr, ((hshut nofun).rely hrely).setDisk _, hsens⟩
    have hclock : (clock : Program ℚ).Does (Command.Steers site) fun _ => True := .ask trivial
    refine ((watch_careful hnam).steer hclock hstd).seq fun now last hl => ?_
    have hconv : Runs (careful site) (Safe site) (egressConverge site saved now true) last _ :=
      runs_egressConverge hsteer (hsv ▸ hl.2.1)
    refine hconv.seq fun m last' hl' => ?_
    have hawait : (egressAwaitReady site m provider rounds).Does (Command.Holds site egress)
        fun r => SameStore m r.1 := by
      have hm : m.store.egress = egress := by
        rw [hl'.1.store]
        exact hsv
      refine does_egressAwaitReady (fun m' now' hm' => ?_)
        (fun c hc => hc.quiet.holds (.inr hc.spared)) provider rounds (SameStore.refl m)
      have hm'' : m'.store.egress = egress := by
        rw [hm'.store]
        exact hm
      rw [← hm'']
      exact holds_egressConverge (by rw [hm'']; exact hsens) false
    have hsd : Sound site egress last' := hsv ▸ hl'.2
    refine (hsd.runs hawait).seq fun r end_ hend => ?_
    obtain ⟨m', ready⟩ := r
    have hm' : m'.store.egress = egress := by
      rw [hend.1.store, hl'.1.store]
      exact hsv
    cases ready with
    | true =>
      show Sound site m'.store.egress end_
      rw [hm']
      exact hend.2
    | false =>
      refine runs_putBack hm' hend.2 hnam (by omega) (fun hprev => ?_) provider
      exact hwarp (h.sensible hprev)

theorem runs_egressSwitch {history : List Entry}
    (hhist : (history.getLast?).bind Entry.document = target)
    (h : Sound site memory.store.egress host) (hshut : target ≠ none → Shut site host) :
    Runs (careful site) (Safe site) (egressSwitch site memory history target) host
      (Ended site) := by
  unfold egressSwitch
  split
  · exact h
  · have hreg : (registered memory target).Does
        (fun c => c.Steers site ∧ c.Holds site memory.store.egress) fun found =>
          ∀ warp, found = some warp → (target = some .warp → warp.isSome = true)
            ∧ (memory.store.egress.warp.isSome = true → warp.isSome = true) := by
      unfold registered
      split
      · refine ⟨⟨trivial, .inr trivial⟩, fun found warp hfnd => ?_⟩
        obtain ⟨a, -, rfl⟩ := Option.map_eq_some_iff.mp hfnd
        exact ⟨fun _ => rfl, fun _ => rfl⟩
      next hnot =>
        rintro _ ⟨⟩
        refine ⟨fun htgt => ?_, id⟩
        rw [Option.isSome_iff_ne_none]
        exact fun hn => hnot ⟨htgt, hn⟩
    have hruns : Runs (careful site) (Safe site) _ host _ := Runs.of_does hreg
      (I := fun t => Sound site memory.store.egress t ∧ (target ≠ none → Shut site t)) ⟨h, hshut⟩
      fun c hc t ht => ⟨ht.1.safe, fun ans last hnext => by
        obtain ⟨other, hrely, -, hint, -, hresp⟩ := hnext
        exact ⟨(ht.1.rely hrely).respond hc.2 hresp,
          fun hnam => ((ht.2 hnam).rely hrely).steers hc.1 hresp⟩⟩
    refine hruns.seq fun found last hl => ?_
    cases found with
    | none => exact hl.2.1
    | some warp =>
      obtain ⟨hneed, hkept⟩ := hl.1 warp rfl
      exact runs_bringUp rfl hhist rfl (fun hwarp => hneed (hhist.symm.trans hwarp)) hkept
        hl.2.1 hl.2.2

theorem runs_runSwitch {req : Request} {switch : Except ApiError Switch}
    (hp : ∀ history target, switch = .ok (.go history target) →
      target = req.target memory ∧ (history.getLast?).bind Entry.document = target)
    (h : Sound site memory.store.egress host)
    (hreq : (careful site).requests memory host req) :
    Runs (careful site) (Safe site) (runSwitch site memory switch) host (Ended site) := by
  match switch with
  | .error e => exact h
  | .ok (.replay target) => exact h
  | .ok (.go history target) =>
    obtain ⟨rfl, hhist⟩ := hp history target rfl
    refine (runs_egressSwitch hhist h fun hnam => ?_).seq fun r last hl => hl
    by_cases hdir : memory.provider = none
    · exact .inl (hreq hdir hnam)
    · exact .inr (h.guarded hdir)

/-! ### The end -/

/-- The devices of all versions but those that are still to be stopped are gone; of the
latter the manager knows the processes. -/
structure Stopping (site : Site) (egress : Section) (rest : List (String × Net)) (m : Memory)
    (host : Host) : Prop where
  sound : Sound site egress host
  gone : ∀ e ∈ site.versions, e ∉ rest → host.device (.tunnel e.1) = none
  known : ∀ e ∈ rest, (host.device (.tunnel e.1)).isSome = true → (m.tunnels e.1).process = true

theorem device_none_of_rely (hrely : Rely host other) (h : host.device i = none) :
    other.device i = none := by
  rcases hrely.devices i with hsm | hn
  · exact hsm.trans h
  · exact hn

theorem isSome_device_of_rely (hrely : Rely host other) (h : (other.device i).isSome = true) :
    (host.device i).isSome = true := by
  rcases hrely.devices i with hsm | hn
  · exact hsm ▸ h
  · rw [hn] at h
    cases h

theorem runs_stopTunnel {rest : List (String × Net)}
    (h : Stopping site egress (e :: rest) memory host) :
    Runs (careful site) (Safe site) (stopTunnel memory e.1) host (Stopping site egress rest) := by
  -- a tunnel that is not the one being stopped is as before
  have hkn : ∀ (tun : Tunnel) (last : Host), last.device (.tunnel e.1) = none →
      (∀ e' ∈ rest, (last.device (.tunnel e'.1)).isSome = true →
        (memory.tunnels e'.1).process = true) →
      ∀ e' ∈ rest, (last.device (.tunnel e'.1)).isSome = true →
        ((memory.setTunnel e.1 tun).tunnels e'.1).process = true := by
    intro tun last hn hold e' he' hsm
    by_cases hsame : e'.1 = e.1
    · rw [hsame, hn] at hsm
      cases hsm
    · rw [tunnels_setTunnel_of_ne hsame]
      exact hold e' he' hsm
  have hgone : ∀ last : Host, last.device (.tunnel e.1) = none →
      (∀ e' ∈ site.versions, e' ∉ e :: rest → last.device (.tunnel e'.1) = none) →
      ∀ e' ∈ site.versions, e' ∉ rest → last.device (.tunnel e'.1) = none := by
    intro last hn hold e' he' hr
    by_cases hsame : e' = e
    · exact hsame ▸ hn
    · exact hold e' he' fun hmem => (List.mem_cons.mp hmem).elim hsame hr
  unfold stopTunnel
  dsimp only
  split
  · refine Prog.Safe.ask_bind h.sound.safe ?_
    rintro _ last ⟨middle, hrely, -, hint, -, hresp⟩
    cases hint with
    | done =>
      cases hresp
      have hs : Rely host (middle.drop (.tunnel e.1)) :=
        Rely.trans _ _ _ hrely (rely_drop middle _)
      have hn : (middle.drop (.tunnel e.1)).device (.tunnel e.1) = none := by
        rw [device_drop, if_pos rfl]
      refine ⟨h.sound.rely hs, hgone _ hn fun e' he' hr => ?_, hkn _ _ hn fun e' he' hsm => ?_⟩
      · exact device_none_of_rely hs (h.gone e' he' hr)
      · exact h.known e' (List.mem_cons_of_mem _ he') (isSome_device_of_rely hs hsm)
    | _ => cases hresp
  next hproc =>
    have hn : host.device (.tunnel e.1) = none := by
      rw [← Option.not_isSome_iff_eq_none]
      exact fun hsm => hproc (h.known e List.mem_cons_self hsm)
    exact ⟨h.sound, hgone host hn h.gone, hkn _ host hn fun e' he' =>
      h.known e' (List.mem_cons_of_mem _ he')⟩

/-- Where no version has a device, the routing may be taken down. -/
theorem runs_teardown (hsafe : Safe site host)
    (hgone : ∀ e ∈ site.versions, host.device (.tunnel e.1) = none) :
    Runs (careful site) (Safe site) (do
      let _ ← egressTeardown m
      ask .nftDelete) host fun _ last => Safe site last := by
  have hdoes : (do
      let _ ← egressTeardown m
      ask .nftDelete : Program Unit).Does Command.Clears fun _ => True :=
    does_egressTeardown.bind fun _ _ => .ask trivial
  refine (Runs.of_does hdoes (I := fun t => Safe site t ∧ ∀ e ∈ site.versions,
      t.device (.tunnel e.1) = none) ⟨hsafe, hgone⟩ fun c hc t ht => ⟨ht.1, ?_⟩).imp
    fun _ _ hend => hend.2.1
  rintro ans last ⟨middle, hrely, -, hint, -, hresp⟩
  have hwin := Command.within hc.quiet hresp
  have hn : ∀ e ∈ site.versions, last.device (.tunnel e.1) = none := by
    intro e he
    cases hdev : last.device (.tunnel e.1) with
    | none => rfl
    | some dev =>
      obtain ⟨old, hold, -⟩ := hwin.devices e.1 dev hdev
      cases (device_none_of_rely hrely (ht.2 e he)).symm.trans hold
  refine ⟨⟨fun _ => .inl fun e he dev hdev => ?_, ?_⟩, hn⟩
  · cases (hn e he).symm.trans hdev
  · rw [hwin.disk, hrely.disk]
    exact ht.1.sensible

theorem runs_shutdown (h : Sound site memory.store.egress host)
    (hshut : (careful site).shutdowns memory host) :
    Runs (careful site) (Safe site) (shutdown site memory) host fun _ last => Safe site last := by
  by_cases hdir : memory.provider = none
  · -- a direct egress asks for nothing
    have hdoes : (shutdown site memory).Does (Command.Holds site memory.store.egress)
        fun _ => True :=
      does_shutdown.mono (fun _ hc => hc.holds (.inl hdir)) fun _ hB => hB
    exact (h.runs hdoes).imp fun _ _ hend => hend.2.safe
  · have hkn := hshut.resolve_left hdir
    refine Prog.Safe.bind (Prog.Safe.foldlM (I := Stopping site memory.store.egress)
      (fun e rest m t ht => runs_stopTunnel ht) (fun m t ht => ?_)
      ⟨h, fun e he hr => (hr he).elim, hkn⟩)
    exact runs_teardown ht.sound.safe fun e he => ht.gone e he List.not_mem_nil

end Programs

/-- **The programs keep it.** -/
theorem keeps_sound (site : Site) : Keeps site (careful site) (Safe site)
    (fun memory _ host => Sound site memory.store.egress host) where
  always_rely _ _ hrely h := h.rely hrely
  between_rely _ _ _ _ hrely _ h := h.rely hrely
  boot host hboot h := by
    have hsd : Sound site host.disk.egress host := by
      refine ⟨rfl, fun hnam => ?_, h.sensible⟩
      exact hboot.resolve_left hnam
    refine (hsd.runs (holds_bootstrap h.sensible)).imp fun loaded last hend => ?_
    refine ⟨hend.2.safe, fun memory hload => ?_⟩
    rw [hend.1 memory hload]
    exact hend.2
  shutdown _ _ _ hshut _ h := runs_shutdown h hshut
  request memory last host request hreq _ h := by
    have hends : ∀ (m : Memory) (rep : Reply) (after : Host), Sound site m.store.egress after →
        Ends (Safe site) (fun m' _ after' => Sound site m'.store.egress after')
          (some (m, rep)) after := by
      intro m rep after haft
      refine ⟨haft.safe, ?_⟩
      rintro _ _ ⟨⟩
      exact haft
    have hheld : ∀ {m : Memory} {after : Host}, m.store.egress = memory.store.egress ∧
        Sound site memory.store.egress after → Sound site m.store.egress after := by
      intro m after hend
      rw [hend.1]
      exact hend.2
    cases request with
    | tick =>
      exact (h.runs (holds_tick h.sensible)).seq fun m after hend => hends m _ after (hheld hend)
    | peer c =>
      exact (h.runs (holds_peerCall c)).seq fun r after hend => hends r.1 _ after (hheld hend)
    | apply expected d operationId =>
      have hp : ∀ history target,
          planApply memory expected d operationId = .ok (.go history target) →
          target = (Request.apply expected d operationId).target memory
            ∧ (history.getLast?).bind Entry.document = target := by
        intro history target hp
        rcases planApply_eq_ok hp with ⟨_, hrepl⟩ | ⟨_, hgo, hhist⟩
        · cases hrepl
        · cases hgo
          exact ⟨rfl, hhist⟩
      exact (runs_runSwitch hp h hreq).seq fun r after hend => hends r.1 _ after hend
    | rollback expected =>
      have hp : ∀ history target, planRollback memory expected = .ok (.go history target) →
          target = (Request.rollback expected).target memory
            ∧ (history.getLast?).bind Entry.document = target := by
        intro history target hp
        obtain ⟨_, hgo, hhist⟩ := planRollback_eq_ok hp
        cases hgo
        exact ⟨rfl, hhist⟩
      exact (runs_runSwitch hp h hreq).seq fun r after hend => hends r.1 _ after hend

/-- **The egress fails closed.** In every run of the manager and its host from a first start
that is made with care – with any supervision passes, calls, deaths, crashes and failures
besides – no packet of a peer is routed by the main table while the file names a
provider. -/
theorem fail_closed {s s' : State} {events : List Event} (hdown : s.manager = .down)
    (hempty : s.host.disk.egress.history = [])
    (hmeets : Run.Meets (step site) (careful site).Allow s events)
    (hrun : Run.exec (step site) s events = some s') : Closed site s'.host := by
  have hnone : s.host.disk.egress.document = none := by
    rw [Section.document, hempty]
    rfl
  have hstart : Assured (careful site) (Safe site)
      (fun memory _ host => Sound site memory.store.egress host) s := by
    refine ⟨⟨fun hnamed => (hnamed hnone).elim, fun hwarp => (nomatch hnone.symm.trans hwarp)⟩,
      fun _ _ hidle => (nomatch hdown.symm.trans hidle),
      fun _ hbusy => (nomatch hdown.symm.trans hbusy)⟩
  exact Shut.closed (hstart.run (keeps_sound site) hmeets hrun).host.shut

namespace Sample

def isDone : Hint → Bool
  | .done => true
  | _ => false

def isSave : Command → Bool
  | .effect (.save _) => true
  | _ => false

/-- The conditions of a careful run, as a check. -/
def allowsCarefully (site : Site) (s : State) : Event → Bool
  | .boot => decide (s.host.disk.egress.document = none) || decide (Guarded site s.host)
  | .request _ => site.versions.all fun e => (s.host.device (.tunnel e.1)).all fun device =>
    ! device.up || device.peers.isEmpty
  | .shutdown => false
  | .perform hint => isDone hint || match s.manager with
    | .busy (.call c _) => ! isSave c && ! c.isRouting
    | _ => true
  | .finish | .crash | .attach _ | .die _ => true

variable {site : Site}

theorem quiescent_of_all {host : Host}
    (h : (site.versions.all fun e => (host.device (.tunnel e.1)).all fun device =>
      ! device.up || device.peers.isEmpty) = true) : Quiescent site host := by
  intro e he device hdev hup
  have hall := List.all_eq_true.mp h e he
  rw [hdev] at hall
  simpa [hup] using hall

theorem allow_of_allowsCarefully {s : State} {e : Event} (h : allowsCarefully site s e = true) :
    (careful site).Allow s e := by
  cases e with
  | boot =>
    show s.host.disk.egress.document = none ∨ Guarded site s.host
    simpa [allowsCarefully] using h
  | request request => exact fun _ _ _ _ _ => quiescent_of_all h
  | shutdown => cases h
  | finish | crash | attach => trivial
  | die => exact id
  | perform hint =>
    intro c k hbusy
    rw [allowsCarefully, hbusy] at h
    cases hint with
    | done => exact ⟨fun _ _ _ => rfl, fun _ _ _ => rfl⟩
    | failed | torn | time | handshake | account =>
      obtain ⟨hsave, hrout⟩ : isSave c = false ∧ c.isRouting = false := by
        simpa [isDone] using h
      refine ⟨?_, fun _ _ hc => ?_⟩
      · rintro store rfl
        cases hsave
      · rw [hrout] at hc
        cases hc

/-- A first start with a device for the router. -/
def startedRouter : List Event :=
  started ++ List.replicate 6 (.perform .done) ++ [.finish, .attach true]

/-- The request to go through the router, and all that is done for it. -/
def viaRouter : List Event :=
  [.request (.apply (.text "0")
      (.obj [("schema", .int 1), ("upstream", .obj [("provider", .str "router")])]) (.text "r")),
    .perform .done, .perform (.time 200), .perform .done, .perform .done, .perform .done]
    ++ routed ++ [.perform (.time 201), .perform .done, .finish]

/-- The file names the router, and a device that is up has a peer. -/
def serving (s : State) : Bool :=
  decide (s.host.disk.egress.document = some .router)
    && decide ((s.host.device (.tunnel "2.0")).map (fun device => (device.up, device.peers.length))
      = some (true, 1))

/-- The router goes away while a peer is served. -/
theorem fail_closed_router_gone : ∃ s', Run.exec (step (node true)) ⟨Sample.host, .down⟩
      (startedRouter ++ viaRouter ++ created ++ [.die .router]) = some s'
    ∧ serving s' = true ∧ Closed (node true) s'.host := by
  have hmeets : Run.Meets (step (node true)) (fun s e => allowsCarefully (node true) s e = true)
      ⟨Sample.host, .down⟩ (startedRouter ++ viaRouter ++ created ++ [.die .router]) := by
    decide +kernel
  exact Run.end_and (by decide +kernel) fun s' hs' _ =>
    fail_closed rfl rfl (hmeets.mono fun _ _ h => allow_of_allowsCarefully h) hs'

/-- The manager is told to end, ends, and is started again; its peer is on the device. -/
def restarted : List Event :=
  [.shutdown, .perform .done, .perform .done, .perform .done, .perform .done, .perform .done,
    .finish] ++ started ++ [.perform .done]

/-- **A leak after a clean restart.** The router is chosen while there is no peer, a peer is
created, and the manager is restarted: nothing fails, and the peer is back on its device
before there is a rule for its subnet. -/
theorem leaks_after_restart : ∃ s', Run.exec (step (node true)) ⟨Sample.host, .down⟩
      (startedRouter ++ viaRouter ++ created ++ restarted) = some s'
    ∧ ¬ Closed (node true) s'.host := by
  obtain ⟨s', hs', hserving, hrules⟩ : ∃ s', Run.exec (step (node true)) ⟨Sample.host, .down⟩
      (startedRouter ++ viaRouter ++ created ++ restarted) = some s'
      ∧ serving s' = true ∧ s'.host.rules = [] := by
    decide +kernel
  obtain ⟨hnamed, hdevice⟩ := Bool.and_eq_true_iff.mp hserving
  obtain ⟨device, hfound, hpair⟩ := Option.map_eq_some_iff.mp (of_decide_eq_true hdevice)
  obtain ⟨hup, hlength⟩ := Prod.mk.inj hpair
  refine ⟨s', hs', fun hclosed => ?_⟩
  have hdocument := of_decide_eq_true hnamed
  refine hclosed (by rw [hdocument]; exact nofun) _ (List.mem_singleton_self _) device hfound hup
    (fun hempty => ?_) fun hrouted => ?_
  · rw [hempty] at hlength
    cases hlength
  · rw [hrules] at hrouted
    exact List.not_mem_nil hrouted.1

end Sample

end AmneziaWG.Service
