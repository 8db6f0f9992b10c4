import ProxyControl.TrustTunnelKeeper

/-!
# The traffic totals of the TrustTunnel manager

The endpoint counts the traffic of a client from the start of its process, and
the manager turns what it reads there into totals that outlive the process: it
keeps the last reading of each client and adds the difference of the next one.
A restart forgets the last readings, since the new process counts from zero; a
shutdown does not. And a client that is created under the name of a deleted one
starts with no last reading, while the endpoint still counts for that name.

What the totals should be is written in a *book* beside the manager: for each
client the sum over the finished processes of the last reading in each, and the
last reading of the running one. A reading belongs to a client if the client was
there when the process was started. The totals are what the books say in every
run in which no poll meets the counter of another client, and the first reading
of a process is told from the last one of the process before.
-/

namespace TrustTunnel

open Table
open Run (Outcome)

/-- The last reading, the endpoint stopped, and a save. -/
def shutdown (m : Manager) (rows : Option (List Row)) (saves : Outcome × Outcome) : Manager :=
  let m := if m.endpoint.isSome then poll m rows saves.1 else m
  (save { m with endpoint := none } saves.2).1

/-! ## Books -/

/-- **What the readings of a client come to.** -/
structure Book where
  /-- Summed over the finished processes, the last reading in each. -/
  closedOut : Nat
  closedIn : Nat
  /-- The last reading polled in the running process. -/
  last : Option Reading
  /-- The client was there when the running process was started. -/
  known : Bool

namespace Book

/-- The book of a client that was just created. -/
def fresh : Book := ⟨0, 0, none, false⟩

/-- What was received: the endpoint's outbound bytes. -/
def rx (b : Book) : Nat := b.closedOut + (b.last.map Reading.outbound).getD 0

/-- What was sent. -/
def tx (b : Book) : Nat := b.closedIn + (b.last.map Reading.inbound).getD 0

/-- A poll. A client has no part in a process that was started without it. -/
def read (b : Book) (reading : Option Reading) : Book :=
  if b.known then { b with last := reading.or b.last } else b

/-- The process ends. -/
def close (b : Book) : Book := ⟨b.rx, b.tx, none, false⟩

end Book

/-- A manager that runs or is shut down, and the books. -/
structure Service where
  manager : Manager
  up : Bool
  book : String → Book

/-- What can happen to a service. -/
inductive Happening
  | event (e : Event)
  | shutdown (rows : Option (List Row)) (saves : Outcome × Outcome)
  | bootstrap (token : String) (now : Int) (w : Writes) (env : Surroundings)

/-- The readings the manager polls. -/
def polled (m : Manager) : Happening → List (String × Reading)
  | .event (.tick now env) => m.polls now env
  | .shutdown rows _ => if m.endpoint.isSome then readings rows else []
  | _ => []

/-- Whether the endpoint process ends. -/
def ends (m : Manager) : Happening → Bool
  | .event (.tick now _) => m.due now
  | .event .exit | .shutdown .. => true
  | _ => false

/-- The book of a name after the poll and the end of the process. -/
def Book.spent (b : Book) (m : Manager) (h : Happening) (u : String) : Book :=
  if ends m h then (b.read (find (polled m h) u)).close
  else b.read (find (polled m h) u)

/-- **The book of a name** after something happened, with the start of a process
and the creation of a client. -/
def Book.after (b : Book) (m m' : Manager) (h : Happening) (u : String) : Book :=
  if (find m.doc.clients u).isNone && (find m'.doc.clients u).isSome then .fresh
  else
    { b.spent m h u with
      known := (b.spent m h u).known
        || (m'.endpoint.isSome && (ends m h || m.endpoint.isNone)) }

/-- What happens to the manager. -/
def Service.advance (sha256 : String → String) (cfg : Config) (s : Service) :
    Happening → Option (Manager × Bool)
  | .event e => if s.up then (step sha256 cfg s.manager e).map (·, true) else none
  | .shutdown rows saves =>
    if s.up then some (TrustTunnel.shutdown s.manager rows saves, false) else none
  | .bootstrap token now w env =>
    if s.up then none
    else (TrustTunnel.bootstrap cfg s.manager.disk token now w env).map (·, true)

/-- **What happens to a service.** -/
def Service.step (sha256 : String → String) (cfg : Config) (s : Service) (h : Happening) :
    Option Service :=
  (s.advance sha256 cfg h).map fun (m, up) =>
    ⟨m, up, fun u => (s.book u).after s.manager m h u⟩

/-- A manager that has never run. -/
def Service.new (settings : File → Option String) : Service :=
  ⟨⟨.empty, ⟨none, settings⟩, none, 0, 0, 0, 0, [], 0, none, false, false⟩, false, fun _ => .fresh⟩

/-! ## What the endpoint and the disk do, and the condition -/

/-- The endpoint does not end by itself, its counters never decrease while it
runs, and the save of a shutdown reaches the disk. -/
def Regular (s : Service) (h : Happening) : Prop :=
  (match h with
    | .event .exit => False
    | .shutdown _ saves => saves.2.lands = true
    | _ => True) ∧
  ∀ e ∈ polled s.manager h, ∀ r ∈ (s.book e.1).last,
    r.outbound ≤ e.2.outbound ∧ r.inbound ≤ e.2.inbound

/-- The first reading of a counter is told from the last one of the counter
before it: there was none, or it was higher. -/
def Lower (lastRaw reading : Nat) : Prop := lastRaw = 0 ∨ reading < lastRaw

/-- **The condition.** A reading polled for a client is of a process that was
started with the client, and the client's first reading in a process is told from
the last one the document has of it. -/
def Apart (s : Service) (h : Happening) : Prop :=
  ∀ e ∈ polled s.manager h, ∀ c ∈ find s.manager.doc.clients e.1,
    (s.book e.1).known = true ∧
      ((s.book e.1).last = none → Lower c.lastOut e.2.outbound ∧ Lower c.lastIn e.2.inbound)

/-! ## Readings -/

/-- A client's traffic. -/
def Client.traffic (c : Client) : Nat × Nat × Nat × Nat := (c.rx, c.tx, c.lastOut, c.lastIn)

/-- **A client's totals are its book's**, up to the largest number they can hold. -/
structure Agrees (c : Client) (b : Book) : Prop where
  rx : c.rx = min b.rx (2 ^ 64 - 1)
  tx : c.tx = min b.tx (2 ^ 64 - 1)
  last : ∀ r ∈ b.last, c.lastOut = r.outbound ∧ c.lastIn = r.inbound

/-- **A total stays the clamped sum**: what is added is the reading less the one
before it in the process. -/
theorem fold_eq {total lastRaw rd closed before : Nat}
    (h : total = min (closed + before) (2 ^ 64 - 1))
    (hl : lastRaw = before ∧ before ≤ rd ∨ before = 0 ∧ Lower lastRaw rd) :
    (fold total lastRaw rd).1 = min (closed + rd) (2 ^ 64 - 1) := by
  unfold fold saturatingAdd
  unfold Lower at hl
  split <;> omega

variable {m : Manager}

namespace Agrees

variable {c : Client} {b : Book} {c' : Client}

theorem read_some (h : Agrees c b) {rd : Reading} (hkn : b.known = true)
    (hmono : ∀ r ∈ b.last, r.outbound ≤ rd.outbound ∧ r.inbound ≤ rd.inbound)
    (hfst : b.last = none → Lower c.lastOut rd.outbound ∧ Lower c.lastIn rd.inbound) :
    Agrees (c.count rd) (b.read (some rd)) := by
  obtain ⟨closedOut, closedIn, last, known⟩ := b
  cases hkn
  cases last with
  | none =>
    obtain ⟨hout, hin⟩ := hfst rfl
    exact ⟨fold_eq h.rx (.inr ⟨rfl, hout⟩), fold_eq h.tx (.inr ⟨rfl, hin⟩),
      fun r hr => by cases hr; exact ⟨rfl, rfl⟩⟩
  | some r =>
    obtain ⟨hout, hin⟩ := hmono r rfl
    obtain ⟨hlastOut, hlastIn⟩ := h.last r rfl
    exact ⟨fold_eq h.rx (.inl ⟨hlastOut, hout⟩), fold_eq h.tx (.inl ⟨hlastIn, hin⟩),
      fun r hr => by cases hr; exact ⟨rfl, rfl⟩⟩

theorem read_none (h : Agrees c b) : Agrees c (b.read none) := by
  unfold Book.read
  split
  · exact { h with }
  · exact h

/-- At the end of a process nothing is left to compare with. -/
theorem close (h : Agrees c b) (hrx : c'.rx = c.rx) (htx : c'.tx = c.tx) : Agrees c' b.close :=
  ⟨hrx.trans h.rx, htx.trans h.tx, nofun⟩

theorem congr (h : Agrees c b) (hc : c'.traffic = c.traffic) : Agrees c' b := by
  obtain ⟨hrx, htx, hout, hin⟩ : _ ∧ _ ∧ _ ∧ _ := by
    simpa only [Client.traffic, Prod.mk.injEq] using hc
  exact ⟨hrx.trans h.rx, htx.trans h.tx, fun r hr => by rw [hout, hin]; exact h.last r hr⟩

theorem fresh (h : c.traffic = (0, 0, 0, 0)) : Agrees c .fresh := by
  obtain ⟨hrx, htx, _⟩ : _ ∧ _ ∧ _ ∧ _ := by simpa only [Client.traffic, Prod.mk.injEq] using h
  exact ⟨hrx, htx, nofun⟩

/-- The book after a step, where a client that was there agrees with it after
the poll and the end of the process, and one that was not has no traffic. -/
theorem after {m' : Manager} {h : Happening} {u : String}
    (hold : ∀ c₀, find m.doc.clients u = some c₀ → Agrees c (b.spent m h u))
    (hnew : find m.doc.clients u = none → Agrees c .fresh)
    (hc : find m'.doc.clients u = some c) : Agrees c (b.after m m' h u) := by
  unfold Book.after
  rw [hc]
  cases hbef : find m.doc.clients u with
  | none => exact hnew hbef
  | some c₀ => exact ⟨(hold c₀ hbef).rx, (hold c₀ hbef).tx, (hold c₀ hbef).last⟩

end Agrees

/-! ## What happens to the clients -/

theorem find_shutdown (m : Manager) (rows : Option (List Row)) (saves : Outcome × Outcome)
    (u : String) : find (shutdown m rows saves).doc.clients u
      = (find m.doc.clients u).map (countIn (polled m (.shutdown rows saves)) u) :=
  find_polled m rows saves.1 u

variable {cfg : Config}

/-- A bootstrap reads the clients from the disk. -/
theorem clients_bootstrap {disk : Disk} {tok : String} {now : Int} {w : Writes}
    {env : Surroundings} (h : bootstrap cfg disk tok now w env = some m) :
    m.doc.clients = (disk.state.getD .empty).clients := by
  unfold bootstrap at h
  dsimp only at h
  split at h
  · cases h
  next m₁ hrdy =>
    split at h
    · cases h
    next m₂ changed hfls =>
      cases h
      rw [doc_maybeStart]
      obtain ⟨sets, edition, rfl⟩ := writeFiles_frame hfls
      split at hrdy
      · cases congrArg Prod.fst hrdy
        rfl
      · cases hrdy
        rfl

/-- A client has the traffic it had, or none where it was not there. -/
def Carried (doc : Document) (u : String) (c : Client) : Prop :=
  (∃ c₀, find doc.clients u = some c₀ ∧ c.traffic = c₀.traffic)
    ∨ find doc.clients u = none ∧ c.traffic = (0, 0, 0, 0)

section Calls

variable {sha256 : String → String} {doc doc' : Document} {p : Plan} {u : String} {c : Client}

theorem carried_plan {k : Call} (h : plan sha256 doc k = .ok p) (hdoc : p.change = some doc')
    (hf : find doc'.clients u = some c) : Carried doc u c := by
  obtain ⟨hfinds, hchg⟩ := plan_change h hdoc
  have hedit := (hchg u).symm.trans hf
  unfold Call.edit at hedit
  cases k with
  | create body =>
    dsimp only at hedit
    split at hedit
    next hu =>
      cases hedit
      exact .inr ⟨hu ▸ hfinds, rfl⟩
    · exact .inl ⟨c, hedit, rfl⟩
  | setEnabled name enabled | rotate name body =>
    dsimp only at hedit
    split at hedit
    · obtain ⟨c₀, hc₀, rfl⟩ := Option.map_eq_some_iff.mp hedit
      exact .inl ⟨c₀, hc₀, rfl⟩
    · exact .inl ⟨c, hedit, rfl⟩
  | delete name => exact .inl ⟨c, (Option.ite_none_left_eq_some.mp hedit).2, rfl⟩
  | egressApply | egressRollback => exact .inl ⟨c, hedit, rfl⟩

/-- **A call** leaves the traffic of the clients alone, and creates them without. -/
theorem carried_call {k : Call} {now : Int} {w : Writes}
    (h : find (call sha256 cfg m k now w).1.doc.clients u = some c) : Carried m.doc u c := by
  rw [doc_call] at h
  split at h
  next doc ans hp => exact carried_plan hp rfl h
  · exact .inl ⟨c, h, rfl⟩

end Calls

/-! ## The totals -/

/-- What every step keeps: the clients agree with their books, and those of a
manager that is shut down are on its disk. -/
structure Kept (s : Service) : Prop where
  agrees : ∀ u c, find s.manager.doc.clients u = some c → Agrees c (s.book u)
  saved : s.up = false → (s.manager.disk.state.getD .empty).clients = s.manager.doc.clients

variable {sha256 : String → String} {cfg : Config} {s s' : Service} {h : Happening}

/-- A poll keeps the agreement. -/
theorem Kept.read (hkept : Kept s) (hreg : Regular s h) (hapart : Apart s h) {u : String}
    {c : Client} (hc : find s.manager.doc.clients u = some c) :
    Agrees (countIn (polled s.manager h) u c) ((s.book u).read (find (polled s.manager h) u)) := by
  unfold countIn
  cases hrd : find (polled s.manager h) u with
  | none => exact (hkept.agrees u c hc).read_none
  | some rd =>
    have hmem := mem_of_find hrd
    obtain ⟨hkn, hfst⟩ := hapart _ hmem c hc
    exact (hkept.agrees u c hc).read_some hkn (hreg.2 _ hmem) hfst

/-- **Every step that meets the condition keeps the agreement.** -/
theorem kept_step (hkept : Kept s) (hreg : Regular s h) (hapart : Apart s h)
    (hs : s.step sha256 cfg h = some s') : Kept s' := by
  obtain ⟨⟨m, up⟩, hadv, rfl⟩ := Option.map_eq_some_iff.mp hs
  cases h with
  | event e =>
    simp only [Service.advance, Option.ite_none_right_eq_some, Option.map_eq_some_iff] at hadv
    obtain ⟨_, _, he, hm⟩ := hadv
    cases hm
    refine ⟨fun u c hc => ?_, by rintro ⟨⟩⟩
    cases e with
    | call k now w =>
      cases he
      obtain ⟨c₀, hc₀, htraf⟩ | ⟨hn, htraf⟩ := carried_call hc
      · exact Agrees.after (fun _ _ => ((hkept.agrees u c₀ hc₀).congr htraf).read_none)
          (fun hn => by cases hc₀.symm.trans hn) hc
      · exact Agrees.after (fun _ hc₀ => by cases hn.symm.trans hc₀)
          (fun _ => Agrees.fresh htraf) hc
    | tick now env =>
      cases he
      obtain ⟨c₀, hc₀, rfl⟩ := Option.map_eq_some_iff.mp ((find_tick ..).symm.trans hc)
      refine Agrees.after (fun _ _ => ?_) (fun hn => by cases hc₀.symm.trans hn) hc
      have hrd := hkept.read hreg hapart hc₀
      unfold Book.spent ends
      split
      · exact hrd.close rfl rfl
      · exact hrd
    | exit => exact hreg.1.elim
  | shutdown rows saves =>
    simp only [Service.advance, Option.ite_none_right_eq_some, Option.some.injEq] at hadv
    cases hadv.2
    refine ⟨fun u c hc => ?_, fun _ => ?_⟩
    · obtain ⟨c₀, hc₀, rfl⟩ := Option.map_eq_some_iff.mp ((find_shutdown ..).symm.trans hc)
      exact Agrees.after (fun _ _ => (hkept.read hreg hapart hc₀).close rfl rfl)
        (fun hn => by cases hc₀.symm.trans hn) hc
    · have hld : saves.2.lands = true := hreg.1
      unfold TrustTunnel.shutdown save
      dsimp only
      rw [if_pos hld]
      rfl
  | bootstrap tok now w env =>
    simp only [Service.advance, Option.ite_none_left_eq_some, Option.map_eq_some_iff] at hadv
    obtain ⟨hdown, _, hboot, hm⟩ := hadv
    cases hm
    have hcls := (clients_bootstrap hboot).trans (hkept.saved (Bool.eq_false_iff.mpr hdown))
    refine ⟨fun u c hc => ?_, by rintro ⟨⟩⟩
    have hc₀ : find s.manager.doc.clients u = some c := hcls ▸ hc
    exact Agrees.after (fun _ _ => (hkept.agrees u c hc₀).read_none)
      (fun hn => by cases hc₀.symm.trans hn) hc

/-- **The totals are exact** in every run in which the readings are kept apart: a
client has received and sent what its book says, as long as the sums fit. -/
theorem totals_exact (sha256 : String → String) (cfg : Config) {settings : File → Option String}
    {hs : List Happening} {s : Service}
    (hrun : Run.exec (Service.step sha256 cfg) (.new settings) hs = some s)
    (hmeets : Run.Meets (Service.step sha256 cfg) (fun s h => Regular s h ∧ Apart s h)
      (.new settings) hs) {u : String} {c : Client}
    (hc : Table.find s.manager.doc.clients u = some c) :
    ((s.book u).rx ≤ 2 ^ 64 - 1 → c.rx = (s.book u).rx)
      ∧ ((s.book u).tx ≤ 2 ^ 64 - 1 → c.tx = (s.book u).tx) := by
  have hkept : Kept s := by
    refine Run.invariant_of_meets (fun s h s' hkept hok hstep => ?_) hrun hmeets ⟨nofun, fun _ => rfl⟩
    exact kept_step hkept hok.1 hok.2 hstep
  have hagrees := hkept.agrees u c hc
  exact ⟨fun hfits => hagrees.rx.trans (min_eq_left hfits),
    fun hfits => hagrees.tx.trans (min_eq_left hfits)⟩

namespace Sample

instance (lastRaw reading : Nat) : Decidable (Lower lastRaw reading) :=
  inferInstanceAs (Decidable (_ ∨ _))

instance (s : Service) (h : Happening) : Decidable (Regular s h) :=
  have : Decidable (match h with
      | .event .exit => False
      | .shutdown _ saves => saves.2.lands = true
      | _ => True) := by
    split <;> infer_instance
  inferInstanceAs (Decidable (_ ∧ _))

instance (s : Service) (h : Happening) : Decidable (Apart s h) :=
  inferInstanceAs (Decidable (∀ e ∈ _, ∀ c ∈ _, _ ∧ (_ → _)))

/-- The endpoint answers with one row for the client. -/
def answers (inbound outbound : Nat) : Option (List Row) :=
  some [⟨some "alice", inbound, outbound, 1⟩]

/-- A poll of the running endpoint, or a restart where one is due. -/
def polls (now : Int) (inbound outbound : Nat) : Happening :=
  .event (.tick now ⟨true, true, answers inbound outbound, (.done, .done)⟩)

/-- The manager comes up, a client is created, and the endpoint is restarted with
it and counts. -/
def counted : List Happening :=
  [.bootstrap "idle-token" 0 .done calm, .event (.call createAlice 100 .done),
    .event (.tick 3000 calm), polls 9000 30 300]

/-- The manager is shut down and comes up again. -/
def rebooted : List Happening :=
  [.shutdown (answers 30 300) (.done, .done), .bootstrap "idle-token" 10000 .done calm]

/-- The client is deleted and created again, with the endpoint still running. -/
def recreated : List Happening :=
  [.event (.call (.delete "alice") 9100 .done),
    .event (.call (.create [("operation_id", .text "op-2"), ("username", .text "alice"),
      ("password", .text "battery-staple")]) 9200 .done)]

/-- A run of a manager on an empty disk. -/
def runs (hs : List Happening) : Option Service :=
  Run.exec (Service.step id sampleConfig) (.new fun _ => none) hs

/-- The first reading after a shutdown is lower than the last one before it. -/
theorem totals_exact_rebooted :
    ∃ s c, runs (counted ++ rebooted ++ [polls 16000 3 20]) = some s
      ∧ Table.find s.manager.doc.clients "alice" = some c
      ∧ c.rx = (s.book "alice").rx ∧ c.tx = (s.book "alice").tx ∧ c.rx = 320 := by
  have hend : ∃ s, Run.exec (Service.step id sampleConfig) (.new fun _ => none)
      (counted ++ rebooted ++ [polls 16000 3 20]) = some s
        ∧ (Table.find s.manager.doc.clients "alice").map Client.rx = some 320
        ∧ (s.book "alice").rx ≤ 2 ^ 64 - 1 ∧ (s.book "alice").tx ≤ 2 ^ 64 - 1 := by
    decide +kernel
  obtain ⟨s, hrun, hrx, hout, hin⟩ := hend
  obtain ⟨c, hc, hrx⟩ := Option.map_eq_some_iff.mp hrx
  obtain ⟨htotalRx, htotalTx⟩ := totals_exact id sampleConfig hrun (by decide +kernel) hc
  exact ⟨s, c, hrun, hc, htotalRx hout, htotalTx hin, hrx⟩

/-- **Traffic is lost, and traffic is taken over.** A client that received 300
bytes before a shutdown and 350 after it is said to have received 350. And one
that is created under the name of a deleted client gets the 300 bytes the
endpoint still counts for that name. -/
theorem totals_wrong :
    (Run.Meets (Service.step id sampleConfig) Regular (.new fun _ => none)
        (counted ++ rebooted ++ [polls 16000 30 350])
      ∧ ∃ s, runs (counted ++ rebooted ++ [polls 16000 30 350]) = some s
        ∧ (Table.find s.manager.doc.clients "alice").map Client.rx = some 350
        ∧ (s.book "alice").rx = 650)
    ∧ Run.Meets (Service.step id sampleConfig) Regular (.new fun _ => none)
        (counted ++ recreated ++ [polls 11200 30 300])
      ∧ ∃ s, runs (counted ++ recreated ++ [polls 11200 30 300]) = some s
        ∧ (Table.find s.manager.doc.clients "alice").map Client.rx = some 300
        ∧ (s.book "alice").rx = 0 := by
  decide +kernel

end Sample

end TrustTunnel
