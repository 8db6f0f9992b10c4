import ProxyControl.AmneziaWGService
import ProxyControl.Checks

/-!
# Runs of the AmneziaWG manager

How one reasons about the manager and its host together. A program is proved to
keep to a discipline of the host (`Runs`), whatever the host answers and whatever
it does by itself in between; from what the programs keep, an assertion about the
whole machine is an invariant of its runs (`Assured.step`). Conditions on the runs
– on answers, starts and requests – are part of the discipline.

The programs that steer the subnets send few kinds of commands, which is all that
most arguments need to know of them.
-/

namespace AmneziaWG.Service

open Table

variable {site : Site} {iface : Iface} {host other : Host} {α : Type}

/-! ## Programs and their host

While a program waits for an answer, devices may disappear; nothing else of the
host moves by itself. -/

/-- What may happen to the host by itself. -/
structure Rely (host other : Host) : Prop where
  disk : other.disk = host.disk
  unsaved : other.unsaved = host.unsaved
  rules : other.rules = host.rules
  blackhole : other.blackhole = host.blackhole
  default : other.default = host.default ∨ other.default = none
  devices : ∀ iface, other.device iface = host.device iface ∨ other.device iface = none

theorem Rely.refl (host : Host) : Rely host host :=
  ⟨rfl, rfl, rfl, rfl, .inl rfl, fun _ => .inl rfl⟩

theorem Rely.trans (a b c : Host) (h : Rely a b) (h' : Rely b c) : Rely a c := by
  refine ⟨h'.disk.trans h.disk, h'.unsaved.trans h.unsaved, h'.rules.trans h.rules,
    h'.blackhole.trans h.blackhole, ?_, fun iface => ?_⟩
  · rcases h'.default with hsm | hn
    · rw [hsm]
      exact h.default
    · exact .inr hn
  · rcases h'.devices iface with hsm | hn
    · rw [hsm]
      exact h.devices iface
    · exact .inr hn

theorem device_drop (host : Host) (i other : Iface) :
    (host.drop i).device other = if other = i then none else host.device other :=
  find_erase _ _ _

theorem device_setDevice (host : Host) (i other : Iface) (dev : Device) :
    (host.setDevice i dev).device other = if other = i then some dev else host.device other :=
  find_put _ _ _ _

theorem rely_drop (host : Host) (i : Iface) : Rely host (host.drop i) := by
  refine ⟨rfl, rfl, rfl, rfl, ?_, fun other => ?_⟩
  · show (if _ then none else host.default) = host.default
      ∨ (if _ then none else host.default) = none
    split
    · exact .inr rfl
    · exact .inl rfl
  · rw [device_drop]
    split
    · exact .inr rfl
    · exact .inl rfl

theorem rely_attach (host : Host) (attached : Bool) : Rely host { host with attached } :=
  ⟨rfl, rfl, rfl, rfl, .inl rfl, fun _ => .inl rfl⟩

/-- Nothing happened to its devices and routes. -/
structure Still (host other : Host) : Prop where
  default : other.default = host.default
  devices : ∀ iface, other.device iface = host.device iface

/-- **Conditions on a run**: on the answers of the host, on starts of the manager, on
requests and on its end; and whether no process dies by itself. -/
structure Conditions where
  answers : Host → Command → Hint → Prop
  boots : Host → Prop
  requests : Memory → Host → Request → Prop
  shutdowns : Memory → Host → Prop
  still : Prop

/-- Every run. -/
def Conditions.none : Conditions where
  answers _ _ _ := True
  boots _ := True
  requests _ _ _ := True
  shutdowns _ _ := True
  still := False

/-- An event meets the conditions. -/
def Conditions.Allow (conditions : Conditions) (s : State) : Event → Prop
  | .boot => conditions.boots s.host
  | .request request => ∀ memory last, s.manager = .idle memory last →
    conditions.requests memory s.host request
  | .shutdown => ∀ memory last, s.manager = .idle memory last → conditions.shutdowns memory s.host
  | .perform hint => ∀ c k, s.manager = .busy (.call c k) → conditions.answers s.host c hint
  | .die _ => ¬ conditions.still
  | .finish | .crash | .attach _ => True

/-- An answer of the host, after it may have moved by itself. -/
def Next (conditions : Conditions) (host : Host) (c : Command) (answer : Answer c)
    (after : Host) : Prop :=
  ∃ other, Rely host other ∧ (conditions.still → Still host other) ∧
    ∃ hint, conditions.answers other c hint ∧ respond other c hint = some (answer, after)

/-- A discipline of the host that asks for something whenever a command is sent. -/
def discipline (conditions : Conditions) (always : Host → Prop) :
    Prog.Discipline Command Answer Host where
  guard host _ := always host
  next := Next conditions

/-- **A program runs**: whenever it sends a command the host is as `always` says, and what
it ends with and leaves is as `post` says. -/
abbrev Runs {α : Type} (conditions : Conditions) (always : Host → Prop) (program : Program α)
    (host : Host) (post : α → Host → Prop) : Prop :=
  Prog.Safe (discipline conditions always) post (fun _ _ => True) program host

section Machine

variable {cs : Conditions} {always : Host → Prop} {between : Memory → Reply → Host → Prop}
  {prog : Program α}

/-- A program goes on running whatever the host does by itself. -/
theorem Runs.rely {post : α → Host → Prop} (h : Runs cs always prog host post)
    (hrely : Rely host other) (hstl : cs.still → Still host other)
    (halways : ∀ a b, Rely a b → always a → always b) (hpost : ∀ x, post x host → post x other) :
    Runs cs always prog other post := by
  cases prog with
  | ret x => exact hpost x h
  | fail e => cases e
  | call c k =>
    refine ⟨halways host other hrely h.1, fun ans after hnext => h.2 ans after ?_⟩
    obtain ⟨middle, hmiddle, hq, hint, hresp⟩ := hnext
    refine ⟨middle, Rely.trans host other middle hrely hmiddle, fun hs => ?_, hint, hresp⟩
    exact ⟨(hq hs).default.trans (hstl hs).default,
      fun iface => ((hq hs).devices iface).trans ((hstl hs).devices iface)⟩

/-- **A program whose commands keep an assertion.** -/
theorem Runs.of_does {P : Command → Prop} {B : α → Prop} {I : Host → Prop}
    (hdoes : prog.Does P B) (h : I host) (hs : ∀ c, P c → ∀ t, I t → always t
      ∧ ∀ ans after, Next cs t c ans after → I after) :
    Runs cs always prog host fun a after => B a ∧ I after :=
  (Prog.Safe.of_does (hdoes.mono hs fun _ hB => hB) h).mono (fun _ _ hend => hend)
    fun _ _ _ => trivial

/-- What a program of the manager ends with. -/
def Ends (always : Host → Prop) (between : Memory → Reply → Host → Prop) (ending : Ending)
    (host : Host) : Prop :=
  always host ∧ ∀ memory reply, ending = some (memory, reply) → between memory reply host

/-- **The state of the manager and its host**: what always holds of the host, what holds
between two requests, and that the program of the one that is served keeps to it. -/
structure Assured (conditions : Conditions) (always : Host → Prop)
    (between : Memory → Reply → Host → Prop) (s : State) : Prop where
  host : always s.host
  idle : ∀ memory last, s.manager = .idle memory last → between memory last s.host
  busy : ∀ program, s.manager = .busy program →
    Runs conditions always program s.host (Ends always between)

/-- What has to be shown of the programs. -/
structure Keeps (site : Site) (conditions : Conditions) (always : Host → Prop)
    (between : Memory → Reply → Host → Prop) : Prop where
  always_rely : ∀ host other, Rely host other → always host → always other
  between_rely : ∀ memory last host other, Rely host other →
    (conditions.still → Still host other) → between memory last host → between memory last other
  boot : ∀ host, conditions.boots host → always host →
    Runs conditions always (bootstrap site host.disk) host fun loaded host =>
      always host ∧ ∀ memory, loaded = some memory → between memory .silent host
  request : ∀ memory last host request, conditions.requests memory host request → always host →
    between memory last host → Runs conditions always (request.program site memory) host
      (Ends always between)
  shutdown : ∀ memory last host, conditions.shutdowns memory host → always host →
    between memory last host → Runs conditions always (shutdown site memory) host
      fun _ host => always host

theorem Runs.holds {prog : Program Ending}
    (h : Runs cs always prog host (Ends always between)) : always host := by
  cases prog with
  | ret ending => exact h.1
  | fail e => cases e
  | call c k => exact h.1

/-- **One step of the machine.** -/
theorem Assured.step (hkp : Keeps site cs always between) {s s' : State} {ev : Event}
    (h : Assured cs always between s) (hallow : cs.Allow s ev)
    (hs : step site s ev = some s') : Assured cs always between s' := by
  have hmv : ∀ other, Rely s.host other → (cs.still → Still s.host other) →
      Assured cs always between { s with host := other } := by
    intro other hrely hstl
    refine ⟨hkp.always_rely _ _ hrely h.host, fun memory last hidle =>
      hkp.between_rely memory last _ _ hrely hstl (h.idle memory last hidle),
      fun prog hbusy => (h.busy prog hbusy).rely hrely hstl hkp.always_rely ?_⟩
    exact fun x hx => ⟨hkp.always_rely _ _ hrely hx.1, fun memory rep heq =>
      hkp.between_rely memory rep _ _ hrely hstl (hx.2 memory rep heq)⟩
  unfold Service.step at hs
  cases ev with
  | boot =>
    dsimp only at hs
    split at hs
    next hdown =>
      cases hs
      refine ⟨h.host, fun _ _ hidle => (nomatch hidle), fun prog hbusy => ?_⟩
      cases hbusy
      refine Prog.Safe.bind ((hkp.boot s.host hallow h.host).mono (fun loaded host hload => ?_)
        fun _ _ _ => trivial)
      refine ⟨hload.1, fun memory rep heq => ?_⟩
      obtain ⟨_, hmem, hpair⟩ := Option.map_eq_some_iff.mp heq
      cases hpair
      exact hload.2 memory hmem
    · cases hs
  | request request =>
    dsimp only at hs
    split at hs
    next memory last hidle =>
      cases hs
      refine ⟨h.host, fun _ _ hidle => (nomatch hidle), fun prog hbusy => ?_⟩
      cases hbusy
      exact hkp.request memory last s.host request (hallow memory last hidle) h.host
        (h.idle memory last hidle)
    · cases hs
  | shutdown =>
    dsimp only at hs
    split at hs
    next memory last hidle =>
      cases hs
      refine ⟨h.host, fun _ _ hidle => (nomatch hidle), fun prog hbusy => ?_⟩
      cases hbusy
      have hends := hkp.shutdown memory last s.host (hallow memory last hidle) h.host
        (h.idle memory last hidle)
      exact Prog.Safe.bind (hends.mono
        (fun _ host hhost => ⟨hhost, fun _ _ heq => (nomatch heq)⟩) fun _ _ _ => trivial)
    · cases hs
  | perform hint =>
    dsimp only at hs
    split at hs
    next c k hbusy =>
      obtain ⟨⟨ans, host⟩, hresp, rfl⟩ := Option.map_eq_some_iff.mp hs
      have hruns := (h.busy _ hbusy).2 ans host
        ⟨s.host, Rely.refl _, fun _ => ⟨rfl, fun _ => rfl⟩, hint, hallow c k hbusy, hresp⟩
      refine ⟨Runs.holds hruns, fun _ _ hidle => (nomatch hidle), fun prog hprog => ?_⟩
      cases hprog
      exact hruns
    · cases hs
  | finish =>
    dsimp only at hs
    split at hs
    next memory rep hbusy =>
      cases hs
      obtain ⟨halways, hbet⟩ := h.busy _ hbusy
      refine ⟨halways, fun _ _ hidle => ?_, fun _ hbusy => (nomatch hbusy)⟩
      cases hidle
      exact hbet memory rep rfl
    next hbusy =>
      cases hs
      exact ⟨h.host, fun _ _ hidle => (nomatch hidle), fun _ hbusy => (nomatch hbusy)⟩
    · cases hs
  | crash =>
    cases hs
    exact ⟨h.host, fun _ _ hidle => (nomatch hidle), fun _ hbusy => (nomatch hbusy)⟩
  | die iface =>
    cases hs
    exact hmv _ (rely_drop _ iface) fun hstl => (hallow hstl).elim
  | attach attached =>
    cases hs
    exact hmv _ (rely_attach _ attached) fun _ => ⟨rfl, fun _ => rfl⟩

/-- **A whole run.** -/
theorem Assured.run (hkp : Keeps site cs always between) {s s' : State}
    {evs : List Event} (h : Assured cs always between s)
    (hmt : Run.Meets (Service.step site) cs.Allow s evs)
    (hrun : Run.exec (Service.step site) s evs = some s') :
    Assured cs always between s' :=
  Run.invariant_of_meets (fun _ _ _ hs hallow hstep => hs.step hkp hallow hstep) hrun hmt h

end Machine

/-! ## Commands that leave the tunnels alone -/

/-- Nothing is new on the tunnels' devices, and nothing was saved. -/
structure Within (host after : Host) : Prop where
  disk : after.disk = host.disk
  unsaved : after.unsaved = host.unsaved
  devices : ∀ version device, after.device (.tunnel version) = some device →
    ∃ old, host.device (.tunnel version) = some old ∧ old.peers = device.peers

theorem Within.refl (host : Host) : Within host host := ⟨rfl, rfl, fun _ dev h => ⟨dev, h, rfl⟩⟩

theorem Rely.within (h : Rely host other) : Within host other := by
  refine ⟨h.disk, h.unsaved, fun v dev hdev => ?_⟩
  rcases h.devices (.tunnel v) with hsm | hn
  · exact ⟨dev, hsm ▸ hdev, rfl⟩
  · rw [hn] at hdev
    cases hdev

/-- Commands that give no device new peers and do not write. -/
def Command.Quiet : Command → Prop
  | .effect (.save _) | .effect (.start (.tunnel _)) | .effect (.setPeers _ _) => False
  | _ => True

variable {c : Command} {e : Effect}

section Quiet

variable {host after : Host} {hint : Hint} {ok : Bool} {landed : Host} {ans : Answer c}

theorem attempt_eq (h : attempt host landed hint = some (ok, after)) :
    after = host ∨ after = landed := by
  unfold attempt at h
  split at h
  · cases h
    exact .inr rfl
  · cases h
    split
    · exact .inr rfl
    · exact .inl rfl
  · cases h

theorem attemptOn_eq {ld : Device → Host} (h : attemptOn host iface ld hint = some (ok, after)) :
    after = host ∨ ∃ device, host.device iface = some device ∧ after = ld device := by
  unfold attemptOn at h
  split at h
  · obtain ⟨device, hdev, hpair⟩ := Option.map_eq_some_iff.mp h
    cases hpair
    exact .inr ⟨device, hdev, rfl⟩
  · cases h
    split
    next device hdev =>
      split
      · exact .inr ⟨device, hdev, rfl⟩
      · exact .inl rfl
    · exact .inl rfl
  · cases h

/-- A save writes, or says it did not; nothing else is touched. -/
theorem save_eq {store : Store} (h : (Effect.save store).respond host hint = some (ok, after)) :
    ok = true ∧ after = { host with disk := store }
      ∨ ok = false ∧ ∃ landed, after = { host with
        disk := if landed then store else host.disk, unsaved := host.unsaved ++ [(store, landed)] } := by
  cases hint with
  | done =>
    cases h
    exact .inl ⟨rfl, rfl⟩
  | failed landed =>
    cases h
    exact .inr ⟨rfl, landed, rfl⟩
  | _ => cases h

theorem within_attempt (h : attempt host landed hint = some (ok, after))
    (hlanded : Within host landed) : Within host after := by
  rcases attempt_eq h with rfl | rfl
  · exact .refl _
  · exact hlanded

/-- A device that is no tunnel's is set. -/
theorem within_setDevice (hiface : ∀ v, iface ≠ .tunnel v) (dev : Device) :
    Within host (host.setDevice iface dev) := by
  refine ⟨rfl, rfl, fun v found hfnd => ?_⟩
  rw [device_setDevice, if_neg (hiface v).symm] at hfnd
  exact ⟨found, hfnd, rfl⟩

/-- A device changes, but not its peers. -/
theorem within_setDevice_peers {dev old : Device} (hold : host.device iface = some old)
    (hps : old.peers = dev.peers) : Within host (host.setDevice iface dev) := by
  refine ⟨rfl, rfl, fun v found hfnd => ?_⟩
  rw [device_setDevice] at hfnd
  split at hfnd
  next heq =>
    cases hfnd
    exact ⟨old, heq ▸ hold, hps⟩
  · exact ⟨found, hfnd, rfl⟩

/-- Effects that replace a device. -/
def Effect.remakes : Effect → Option Iface
  | .start iface | .setPeers iface _ => some iface
  | _ => none

theorem Effect.remakes_eq (he : e.remakes = some iface) (h : e.respond host hint = some (ok, after))
    : after = host ∨ ∃ device, after = host.setDevice iface device := by
  cases e with
  | start =>
    cases he
    cases hint <;> cases h
    · exact .inr ⟨_, rfl⟩
    · exact .inl rfl
  | setPeers =>
    cases he
    cases hint with
    | done =>
      obtain ⟨device, -, hpair⟩ := Option.map_eq_some_iff.mp h
      cases hpair
      exact .inr ⟨_, rfl⟩
    | torn =>
      cases h
      split
      · exact .inr ⟨_, rfl⟩
      · exact .inl rfl
    | _ => cases h
  | _ => cases he

/-- Commands that end a process. -/
def Command.ends : Command → Option Iface
  | .kill iface | .stop iface => some iface
  | _ => none

theorem Command.ends_eq (hc : c.ends = some iface) (h : respond host c hint = some (ans, after))
    : after = host.drop iface := by
  cases c with
  | kill | stop =>
    cases hc
    cases hint <;> cases h
    rfl
  | _ => cases hc

/-- Commands that only ask. -/
def Command.asks : Command → Bool
  | .effect _ | .kill _ | .stop _ => false
  | _ => true

theorem Command.asks_eq (hc : c.asks = true) (h : respond host c hint = some (ans, after)) :
    after = host := by
  cases c with
  | effect | kill | stop => cases hc
  | _ =>
    cases hint <;> first
      | cases h <;> rfl
      | obtain ⟨dev, -, hpair⟩ := Option.map_eq_some_iff.mp h
        cases hpair
        rfl

theorem Effect.within (hq : Command.Quiet (.effect e))
    (h : e.respond host hint = some (ok, after)) : Within host after := by
  have hsm : ∀ {landed : Host}, landed.disk = host.disk → landed.unsaved = host.unsaved →
      landed.devices = host.devices → Within host landed := by
    intro landed hdisk huns hdevs
    refine ⟨hdisk, huns, fun v dev hdev => ⟨dev, ?_, rfl⟩⟩
    unfold Host.device at hdev ⊢
    rw [← hdevs]
    exact hdev
  cases e with
  | save store => exact hq.elim
  | setPeers iface lines => exact hq.elim
  | start iface =>
    cases iface with
    | tunnel v => exact hq.elim
    | warp | router =>
      rcases Effect.remakes_eq rfl h with rfl | ⟨dev, rfl⟩
      · exact .refl _
      · exact within_setDevice (fun _ => by simp) _
  | configure iface | addr iface =>
    rcases attemptOn_eq h with rfl | ⟨-, -, rfl⟩
    · exact .refl _
    · exact .refl _
  | link iface =>
    rcases attemptOn_eq h with rfl | ⟨dev, hdev, rfl⟩
    · exact .refl _
    · exact within_setDevice_peers hdev rfl
  | routeDefault iface =>
    rcases attemptOn_eq h with rfl | ⟨-, -, rfl⟩
    · exact .refl _
    · exact hsm rfl rfl rfl
  | tuntap => exact within_attempt h (within_setDevice (fun _ => by simp) _)
  | routeBlackhole | routeThrow | ruleAdd | ruleDel | routeFlush | nftApply =>
    exact within_attempt h (hsm rfl rfl rfl)

theorem Command.within (hq : c.Quiet) (h : respond host c hint = some (ans, after)) :
    Within host after := by
  cases c with
  | effect e => exact Effect.within hq h
  | kill iface | stop iface =>
    obtain rfl := Command.ends_eq rfl h
    exact (rely_drop host iface).within
  | _ =>
    obtain rfl := Command.asks_eq rfl h
    exact .refl _

end Quiet

/-! ## What the egress programs do

They send only quiet commands, and saves of a store with the same peers; and they
leave the tunnels in memory as they are. Those that steer – as opposed to those that
go back to direct – take no rule of a subnet away and do not flush the table. -/

/-- The memory is the same as far as the peers are concerned. -/
structure SamePeers (memory after : Memory) : Prop where
  tunnels : after.tunnels = memory.tunnels
  peers : after.document.peers = memory.document.peers

theorem SamePeers.refl (memory : Memory) : SamePeers memory memory := ⟨rfl, rfl⟩

theorem SamePeers.trans {a b c : Memory} (h : SamePeers a b) (h' : SamePeers b c) : SamePeers a c :=
  ⟨h'.tunnels.trans h.tunnels, h'.peers.trans h.peers⟩

/-- The memory differs in the runtime of the egress alone. -/
structure SameStore (memory after : Memory) : Prop where
  tunnels : after.tunnels = memory.tunnels
  store : after.store = memory.store

theorem SameStore.refl (memory : Memory) : SameStore memory memory := ⟨rfl, rfl⟩

theorem SameStore.trans {a b c : Memory} (h : SameStore a b) (h' : SameStore b c) : SameStore a c :=
  ⟨h'.tunnels.trans h.tunnels, h'.store.trans h.store⟩

/-- Commands that steer the subnets. -/
def Command.Steers (site : Site) : Command → Prop
  | .effect (.save _) | .effect (.start (.tunnel _)) | .effect (.setPeers _ _)
  | .effect .routeFlush | .effect (.link (.tunnel _)) => False
  | .effect (.ruleDel source) => source ∉ site.subnets
  | _ => True

/-- Commands that look after the router's device, and questions. -/
def Command.Tends : Command → Prop
  | .linkShow | .getHandshake | .wall | .effect .tuntap | .effect (.addr .router)
  | .effect (.link .router) => True
  | _ => False

theorem Command.Tends.steers (h : c.Tends) : c.Steers site := by
  unfold Command.Tends at h
  split at h
  all_goals trivial

/-- Commands that take the steering away. -/
def Command.Clears : Command → Prop
  | .effect (.ruleDel _) | .effect .routeFlush => True
  | .effect _ => False
  | _ => True

section Egress

variable {memory : Memory} {now : ℚ} {P : Command → Prop} {m : Memory}

theorem does_tell (h : P (.effect e)) : (tell e).Does P fun _ => True := .ask h

theorem does_exited (h : P (.poll iface)) : (exited iface).Does P fun _ => True :=
  .ask h

theorem does_check {first rest : Program Bool} (hfst : first.Does P fun _ => True)
    (hr : rest.Does P fun _ => True) : (check first rest).Does P fun _ => True := by
  refine hfst.bind fun ok _ => ?_
  split
  · exact hr
  · trivial

theorem does_every {items : List α} {f : α → Program Bool}
    (h : ∀ item ∈ items, (f item).Does P fun _ => True) : (every items f).Does P fun _ => True := by
  induction items with
  | nil => trivial
  | cons item items ih =>
    exact does_check (h item List.mem_cons_self) (ih fun i hi => h i (List.mem_cons_of_mem _ hi))

theorem does_throwBack : throwBack.Does (Command.Steers site) fun _ => True :=
  does_every fun _ _ => .ask trivial

theorem does_routeDevice (i : Iface) (rtd : Bool) :
    (routeDevice i rtd).Does (Command.Steers site) fun _ => True := by
  unfold routeDevice
  split
  · exact .ask trivial
  · trivial

theorem does_setRules : (setRules site).Does (Command.Steers site) fun _ => True := by
  refine Prog.Does.bind (.ask trivial) fun found _ => ?_
  cases found with
  | none => trivial
  | some found =>
    refine does_check (does_every fun _ _ => .ask trivial) (does_every fun src hsrc => .ask ?_)
    show src ∉ site.subnets
    simpa using (List.mem_filter.mp hsrc).2

theorem does_routing (i : Iface) (rtd : Bool) :
    (routing site i rtd).Does (Command.Steers site) fun _ => True :=
  does_check (.ask trivial)
    (does_check does_throwBack (does_check (does_routeDevice i rtd) does_setRules))

theorem does_egressNetwork (i : Iface) :
    (egressNetwork site memory now i).Does (Command.Steers site) (SameStore memory) := by
  refine (does_routing i _).bind fun ok _ => ?_
  split
  · exact ⟨rfl, rfl⟩
  · exact ⟨rfl, rfl⟩

theorem does_stopProcess (hP : P (.stop .warp)) :
    (stopProcess memory).Does P (SameStore memory) := by
  unfold stopProcess
  split
  · exact ⟨hP, fun _ => ⟨rfl, rfl⟩⟩
  · exact ⟨rfl, rfl⟩

theorem does_egressTeardown : (egressTeardown memory).Does Command.Clears (SameStore memory) := by
  refine Prog.Does.bind (B := fun _ => True) (Prog.Does.bind (.ask trivial) fun found _ => ?_)
    fun _ _ => ?_
  · cases found with
    | none => trivial
    | some rules => exact does_every fun _ _ => .ask trivial
  · refine Prog.Does.bind (.ask trivial) fun _ _ => ?_
    exact (does_stopProcess trivial).bind fun after haft => haft.trans ⟨rfl, rfl⟩

theorem does_egressSupervise :
    (egressSupervise memory now).Does (Command.Steers site) (SameStore memory) := by
  have hreap : (reapEgress memory now).Does (Command.Steers site) (SameStore memory) := by
    unfold reapEgress
    dsimp only
    split
    · refine (does_exited trivial).bind fun exited _ => ?_
      split
      · exact ⟨rfl, rfl⟩
      · exact SameStore.refl _
    · exact SameStore.refl _
  have hlau : ∀ m : Memory, (launchEgress m now).Does (Command.Steers site) (SameStore m) := by
    intro m
    unfold launchEgress
    dsimp only
    split
    · exact SameStore.refl _
    · refine (does_tell trivial).bind fun started _ => ?_
      split
      · exact ⟨rfl, rfl⟩
      · exact ⟨rfl, rfl⟩
  refine hreap.bind fun m hm => (hlau m).bind fun m' hm' => ?_
  dsimp only
  split
  · exact hm.trans hm'
  · refine (does_check (.ask trivial) (does_check (.ask trivial) (.ask trivial))).bind fun ok _ => ?_
    split
    · exact (hm.trans hm').trans ⟨rfl, rfl⟩
    · split
      · exact ⟨trivial, fun _ => hm.trans hm'⟩
      · exact hm.trans hm'

theorem does_routerFlags : (routerFlags site).Does Command.Tends fun _ => True := by
  unfold routerFlags
  generalize site.routerTun = device
  cases device with
  | true => exact .ask trivial
  | false => trivial

theorem does_ensureRouterDevice : (ensureRouterDevice site).Does Command.Tends fun _ => True := by
  refine does_routerFlags.bind fun flags _ => ?_
  refine (does_check ?_ (does_check (does_tell trivial) (does_tell trivial))).bind
    fun _ _ => trivial
  split
  · exact does_tell trivial
  · trivial

theorem does_convergeRouter (force : Bool) :
    (convergeRouter site memory now force).Does (Command.Steers site) (SameStore memory) := by
  refine (does_stopProcess trivial).bind fun m hm => ?_
  split
  · exact (does_egressNetwork .router).mono (fun _ hc => hc) fun _ h => hm.trans h
  · exact hm

theorem does_convergeWarp (force : Bool) :
    (convergeWarp site memory now force).Does (Command.Steers site) (SameStore memory) := by
  refine does_egressSupervise.bind fun m hm => ?_
  split
  · exact (does_egressNetwork .warp).mono (fun _ hc => hc) fun _ h => hm.trans h
  · exact hm

theorem does_convergeDirect (force : Bool) :
    (convergeDirect memory now force).Does Command.Clears (SameStore memory) := by
  unfold convergeDirect
  split
  · exact does_egressTeardown.bind fun m hm => hm.trans ⟨rfl, rfl⟩
  · exact SameStore.refl _

/-- The memory has what it takes to steer. -/
def Steered (memory : Memory) : Prop :=
  memory.provider = some .router ∨ memory.provider = some .warp ∧ memory.store.egress.warp.isSome

/-- A converging step looks after the router's device at times, and then does what the
memory says. -/
theorem egressConverge_eq (site : Site) (memory : Memory) (now : ℚ) (force : Bool) :
    ∃ converge, (egressConverge site memory now force = converge
        ∨ egressConverge site memory now force = ensureRouterDevice site >>= fun _ => converge)
      ∧ (memory.provider = some .router ∧ converge = convergeRouter site memory now force
        ∨ (memory.provider = some .warp ∧ memory.store.egress.warp.isSome)
          ∧ converge = convergeWarp site memory now force
        ∨ ¬ Steered memory ∧ converge = convergeDirect memory now force) := by
  unfold egressConverge
  dsimp only
  apply Exists.intro
  apply And.intro
  · split
    · exact .inr rfl
    · exact .inl rfl
  · cases hprov : memory.provider with
    | none => exact .inr (.inr ⟨by simp [Steered, hprov], rfl⟩)
    | some provider =>
      cases provider with
      | router => exact .inl ⟨rfl, rfl⟩
      | warp =>
        dsimp only
        split
        next hacct => exact .inr (.inl ⟨⟨rfl, hacct⟩, rfl⟩)
        next hacct => exact .inr (.inr ⟨by simp [Steered, hprov, hacct], rfl⟩)

/-- **A converging step** steers where the memory says so, and goes back to direct
otherwise. -/
theorem does_egressConverge_of (hsteer : ∀ c, c.Steers site → P c)
    (hclr : ¬ Steered memory → ∀ c, c.Clears → P c) (force : Bool) :
    (egressConverge site memory now force).Does P (SameStore memory) := by
  obtain ⟨converge, heq, hcs⟩ := egressConverge_eq site memory now force
  have hr : converge.Does P (SameStore memory) := by
    rcases hcs with ⟨-, rfl⟩ | ⟨-, rfl⟩ | ⟨hnot, rfl⟩
    · exact (does_convergeRouter force).mono hsteer fun _ h => h
    · exact (does_convergeWarp force).mono hsteer fun _ h => h
    · exact (does_convergeDirect force).mono (hclr hnot) fun _ h => h
  rcases heq with heq | heq
  · rw [heq]
    exact hr
  · rw [heq]
    exact (does_ensureRouterDevice.mono (fun c hc => hsteer c hc.steers) fun _ h => h).bind
      fun _ _ => hr

theorem Command.Steers.quiet (h : c.Steers site) : c.Quiet := by
  cases c with
  | effect e =>
    cases e with
    | start iface =>
      cases iface with
      | tunnel => exact h
      | warp | router => trivial
    | save | setPeers => exact h
    | _ => trivial
  | _ => trivial

theorem Command.Clears.quiet (h : c.Clears) : c.Quiet := by
  cases c with
  | effect e =>
    cases e with
    | ruleDel | routeFlush => trivial
    | _ => exact h.elim
  | _ => trivial

theorem does_egressConverge (force : Bool) :
    (egressConverge site memory now force).Does Command.Quiet (SameStore memory) :=
  does_egressConverge_of (fun _ h => h.quiet) (fun _ _ h => h.quiet) force

theorem does_egressReady (prov : Provider) :
    (egressReady site memory prov).Does Command.Tends fun _ => True := by
  cases prov with
  | warp =>
    refine Prog.Does.bind (B := fun _ => True) ?_ fun _ _ =>
      ⟨trivial, fun _ => trivial⟩
    unfold egressStats
    split
    · exact ⟨trivial, fun _ => trivial⟩
    · trivial
  | router =>
    rw [egressReady]
    split
    · exact does_routerFlags.bind fun _ _ => trivial
    · trivial

/-- Waiting is converging again and again. -/
theorem does_egressAwaitReady (hconv : ∀ m now, SameStore memory m →
      (egressConverge site m now false).Does P (SameStore m)) (hsteer : ∀ c, c.Steers site → P c)
    (prov : Provider) (rounds : Nat) (hm : SameStore memory m) :
    (egressAwaitReady site m prov rounds).Does P fun r => SameStore memory r.1 := by
  induction rounds generalizing m with
  | zero => exact hm
  | succ rounds ih =>
    refine Prog.Does.bind (B := fun _ => True) (.ask (hsteer _ trivial)) fun now _ => ?_
    refine (hconv m now hm).bind fun m' hm' => ?_
    refine ((does_egressReady prov).mono (fun c hc => hsteer c hc.steers) fun _ h => h).bind
      fun ready _ => ?_
    split
    · exact hm.trans hm'
    · exact Prog.Does.bind (.ask (hsteer _ trivial)) fun _ _ => ih (hm.trans hm')

/-! ### Changes of the egress -/

/-- Commands that leave peers alone: quiet ones, and saves of the same peers. -/
def Command.Spares (peers : List (String × Peer)) : Command → Prop
  | .effect (.save store) => store.document.peers = peers
  | c => c.Quiet

theorem Command.Quiet.spares {peers : List (String × Peer)} (h : c.Quiet) : c.Spares peers := by
  unfold Command.Spares
  split
  · exact h.elim
  · exact h

theorem does_saveEgress : (saveEgress memory).Does (Command.Spares memory.document.peers)
    fun r => SamePeers memory r.1 :=
  ⟨Document.peers_pruned _, fun _ => ⟨rfl, Document.peers_pruned _⟩⟩

theorem SameStore.samePeers {after : Memory} (h : SameStore memory after) :
    SamePeers memory after := by
  refine ⟨h.tunnels, ?_⟩
  unfold Memory.document
  rw [h.store]

/-- Converging after a save. -/
theorem does_convergeSaved (hm : SamePeers memory m) (force : Bool) :
    (egressConverge site m now force).Does (Command.Spares memory.document.peers)
      (SamePeers memory) :=
  (does_egressConverge force).mono (fun _ h => h.spares) fun _ h => hm.trans h.samePeers

theorem does_putBack (hm : SamePeers memory m) (prev : Section) (prov : Provider) :
    (putBack site m prev prov).Does
      (Command.Spares memory.document.peers) fun r => SamePeers memory r.1 := by
  refine Prog.Does.bind (B := fun r : Memory × Bool => SamePeers memory r.1) ?_
    fun ⟨saved, ok⟩ hsv => ?_
  · rw [← hm.peers]
    exact does_saveEgress.mono (fun _ h => h) fun _ h => hm.trans ⟨h.tunnels, h.peers⟩
  · dsimp only
    split
    · have hreset : SamePeers memory (resetDataplane saved) := hsv.trans ⟨rfl, rfl⟩
      refine Prog.Does.bind (B := fun _ => True) (.ask trivial) fun now _ => ?_
      exact (does_convergeSaved hreset true).bind fun _ h => h
    · exact hsv

theorem does_bringUp (hm : SamePeers memory m) (prev : Section) (t : Option Provider) :
    (bringUp site m prev t).Does
      (Command.Spares memory.document.peers) fun r => SamePeers memory r.1 := by
  unfold bringUp
  generalize awaitRounds = rounds
  refine Prog.Does.bind (B := fun r : Memory × Bool => SamePeers memory r.1) ?_
    fun ⟨saved, ok⟩ hsv => ?_
  · rw [← hm.peers]
    exact does_saveEgress.mono (fun _ h => h) fun _ h => hm.trans h
  · dsimp only
    split
    · have hreset : SamePeers memory (resetDataplane saved) := hsv.trans ⟨rfl, rfl⟩
      refine Prog.Does.bind (B := fun _ => True) (.ask trivial) fun now _ => ?_
      refine (does_convergeSaved hreset true).bind fun m' hm' => ?_
      cases t with
      | none => exact hm'
      | some prov =>
        have hawait : (egressAwaitReady site m' prov rounds).Does
            (Command.Spares memory.document.peers) fun r => SameStore m' r.1 :=
          does_egressAwaitReady
            (fun _ _ _ => (does_egressConverge false).mono (fun _ h => h.spares) fun _ h => h)
            (fun _ h => h.quiet.spares) prov rounds (SameStore.refl m')
        refine hawait.bind fun ⟨m'', ready⟩ hm'' => ?_
        split
        · exact hm'.trans hm''.samePeers
        · exact does_putBack (hm'.trans hm''.samePeers) prev prov
    · exact hsv

theorem does_registered (hP : P .register) (t : Option Provider) :
    (registered memory t).Does P fun _ => True := by
  unfold registered
  split
  · exact ⟨hP, fun _ => trivial⟩
  · trivial

/-- **A switch of the egress** leaves the peers alone. -/
theorem does_runSwitch (switch : Except ApiError Switch) : (runSwitch site memory switch).Does
    (Command.Spares memory.document.peers) fun r => SamePeers memory r.1 := by
  match switch with
  | .error e => exact SamePeers.refl _
  | .ok (.replay t) => exact SamePeers.refl _
  | .ok (.go history t) =>
    refine Prog.Does.bind (B := fun r : Memory × Except ApiError Unit => SamePeers memory r.1) ?_
      fun ⟨m, res⟩ hm => hm
    unfold egressSwitch
    split
    · exact SamePeers.refl _
    · refine (does_registered trivial t).bind fun found _ => ?_
      cases found with
      | none => exact SamePeers.refl _
      | some warp =>
        have hsm : SamePeers memory
            (memory.setSection ⟨memory.store.egress.revision + 1, history, warp⟩) := ⟨rfl, rfl⟩
        exact does_bringUp hsm _ t

end Egress

end AmneziaWG.Service
