import ProxyControl.Run
import ProxyControl.Table

/-!
# Two meters of one traffic

The collector records, for each protocol, how many bytes went up and down since the last
tick. Two sources measure them. The host agent has cumulative counters of the kernel, and
each tick that gets its sample records the growth since the sample before. The protocol's
manager has a counter per client; it is polled beside the ticks, and the growth of its
counters is added up (`pending`) until a tick has no sample of the agent and records it.

Each source alone counts every byte at most once. Taking turns, they do not: what the
manager's clients sent while the agent's counters were recorded stays pending, and is
recorded again at the first tick that misses the agent (`Sample.counted_twice`). The other
way round, growth that was recorded from the manager is part of the next growth of the
agent's counters. What is left is `recorded_le_traffic`: as long as no tick takes the
manager's counters once the agent's were taken, no byte is counted twice.

Numbers and times are rational, so that the arithmetic is exact, and one protocol is
followed on its own.
-/

namespace Meters

open List
open Table

/-- What is measured in both directions. -/
structure Both (α : Type) where
  up : α
  down : α
deriving DecidableEq

inductive Direction
  | up
  | down
deriving DecidableEq, Repr

namespace Both

variable {α β γ : Type}

def get (both : Both α) : Direction → α
  | .up => both.up
  | .down => both.down

def map (f : α → β) (both : Both α) : Both β := ⟨f both.up, f both.down⟩

def zip (f : α → β → γ) (both : Both α) (other : Both β) : Both γ :=
  ⟨f both.up other.up, f both.down other.down⟩

@[simp] theorem get_map (f : α → β) (both : Both α) (dir : Direction) :
    (both.map f).get dir = f (both.get dir) := by
  cases dir <;> rfl

@[simp] theorem get_zip (f : α → β → γ) (both : Both α) (o : Both β) (dir : Direction) :
    (both.zip f o).get dir = f (both.get dir) (o.get dir) := by
  cases dir <;> rfl

end Both

def zeros : Both ℚ := ⟨0, 0⟩

@[simp] theorem get_zeros (dir : Direction) : zeros.get dir = 0 := by
  cases dir <;> rfl

/-! ## Rates of the clients -/

/-- A number that counts: not a negative one. -/
def num (value : Option ℚ) : Option ℚ := value.filter fun value => 0 ≤ value

/-- The growth since the last reading; a lower reading is a reset, and the growth is the
reading itself. -/
def fold (previous : Option ℚ) (reading : ℚ) : Option ℚ :=
  previous.map fun previous => if previous ≤ reading then reading - previous else reading

/-- One reading of a client's counters; managers that count no directions have a total. -/
structure Reading where
  counters : Both (Option ℚ)
  total : Option ℚ

structure ClientRate where
  bps : Both (Option ℚ)
  totalBps : ℚ
  delta : Both ℚ
  totalDelta : ℚ
  seen : ℚ

/-- The last reading of a client, and when it was. -/
structure Last where
  counters : Both (Option ℚ)
  total : Option ℚ
  seen : ℚ

/-- The clients of the protocol by their names. -/
structure ClientRates where
  last : List (String × Last)
  rate : List (String × ClientRate)

/-- Both numbers, where there are both. -/
def Both.sum (both : Both (Option ℚ)) : Option ℚ :=
  match both.up, both.down with
  | some up, some down => some (up + down)
  | _, _ => none

def lastOf (reading : Reading) (now : ℚ) : Last where
  counters := reading.counters.map num
  total := (num reading.total).or (reading.counters.map num).sum
  seen := now

/-- **Feed one reading.** The first is a baseline; a reading that comes at the same time as
the last, or with no total, has the rate of before. -/
def ClientRates.update (rates : ClientRates) (username : String) (now : ℚ) (reading : Reading) :
    Option ClientRate × ClientRates :=
  let new := lastOf reading now
  let next : ClientRates := { rates with last := put rates.last username new }
  match find rates.last username with
  | none => (none, next)
  | some previous =>
    if now - previous.seen ≤ 0 then (find rates.rate username, next)
    else
      match new.total.bind (fold previous.total) with
      | none => (find rates.rate username, next)
      | some total =>
        let growth := new.counters.zip (fun reading previous => reading.bind (fold previous))
          previous.counters
        let total := growth.sum.getD total
        let span := now - previous.seen
        let rate : ClientRate :=
          { bps := growth.map (Option.map (· / span))
            totalBps := total / span
            delta := growth.map (Option.getD · 0)
            totalDelta := total
            seen := now }
        (some rate, { next with rate := put rates.rate username rate })

/-- Forget the clients that were not seen for long. -/
def ClientRates.prune (rates : ClientRates) (forgetAfter now : ℚ) : ClientRates :=
  let gone (username : String) : Bool :=
    (find rates.last username).any fun last => forgetAfter < now - last.seen
  { last := rates.last.filter fun entry => ! decide (forgetAfter < now - entry.2.seen)
    rate := rates.rate.filter fun entry => ! gone entry.1 }

/-! ## The manager -/

structure PollResult where
  bps : Option (Both ℚ)
  totalBps : ℚ
  directional : Bool

/-- The rows of an answer that were folded so far. -/
structure Folded where
  rates : ClientRates
  bps : Both ℚ
  totalBps : ℚ
  delta : Both ℚ
  directional : Bool

def Both.both (both : Both (Option ℚ)) : Option (Both ℚ) :=
  match both.up, both.down with
  | some up, some down => some ⟨up, down⟩
  | _, _ => none

def foldRow (now : ℚ) (folded : Folded) (row : String × Reading) : Folded :=
  match folded.rates.update row.1 now row.2 with
  | (none, rates) => { folded with rates }
  | (some rate, rates) =>
    { rates
      bps := (rate.bps.both.map (folded.bps.zip (· + ·))).getD folded.bps
      totalBps := folded.totalBps + rate.totalBps
      delta := folded.delta.zip (· + ·) rate.delta
      directional := folded.directional && rate.bps.both.isSome }

def foldRows (rates : ClientRates) (now : ℚ) (rows : List (String × Reading)) : Folded :=
  rows.foldl (foldRow now) ⟨rates, zeros, 0, zeros, true⟩

structure ManagerState where
  cum : Both ℚ
  pending : Both ℚ
  ok : Bool
  seen : ℚ
  result : Option PollResult

/-- What the collector is set up with, and what is the case outside: whether the manager
counts directions, and what the agent's counters had when the collector was started. -/
structure Config where
  interval : ℚ
  cadence : ℚ
  forgetAfter : ℚ
  wanted : Bool
  directional : Bool
  kernelBase : Both ℚ
  half_le_interval : 1 / 2 ≤ interval

/-- A client of the manager: its counters when the collector was started, or when it came,
and what it sent and received since. -/
structure Client where
  username : String
  start : Both ℚ
  flowed : Both ℚ

def Client.counters (client : Client) : Both ℚ := client.start.zip (· + ·) client.flowed

def Client.reading (config : Config) (client : Client) : Reading :=
  if config.directional then ⟨client.counters.map some, none⟩
  else ⟨⟨none, none⟩, some (client.counters.up + client.counters.down)⟩

/-- A poll in flight: when it was launched, and the answer when there is one. -/
structure Poll where
  mono : ℚ
  answer : Option (List (String × Reading))

/-- A tick that has asked the agent; the row of the protocol, where the sample has one. -/
structure Tick where
  mono : ℚ
  kernel : Option (Both (Option ℚ))

structure State where
  rates : ClientRates
  kernelPrev : Option (Both ℚ)
  manager : Option ManagerState
  lastPoll : Option ℚ
  poll : Option Poll
  tick : Option Tick
  clients : List Client
  /-- The sum of the values that were put into the ring. -/
  recorded : Both ℚ

/-- What flowed since the collector was started. -/
def State.traffic (s : State) (direction : Direction) : ℚ :=
  (s.clients.map fun client => client.flowed.get direction).sum

def State.pending (s : State) (direction : Direction) : ℚ :=
  ((s.manager.map ManagerState.pending).getD zeros).get direction

/-! ## Ticks -/

/-- A manager that answered its last poll, not long ago. -/
def fresh (config : Config) (s : State) (mono : ℚ) : Option (ManagerState × PollResult) :=
  match s.manager with
  | none => none
  | some manager =>
    if manager.ok && decide (mono - manager.seen ≤ 3 * max config.cadence config.interval) then
      manager.result.map fun result => (manager, result)
    else none

/-- Launch the poll when it is due. -/
def launchDue (config : Config) (mono : ℚ) (s : State) : State :=
  if s.poll.isNone && config.wanted
      && decide (max config.cadence config.interval ≤ mono - s.lastPoll.getD (-1000000000)) then
    { s with lastPoll := some mono, poll := some ⟨mono, none⟩ }
  else s

/-- **What a tick records**: the growth of the agent's counters, or else what is pending of
the manager's. -/
def record (config : Config) (tick : Tick) (s : State) : Option (Both ℚ) × State :=
  match tick.kernel with
  | some row =>
    match row.both with
    | none => (none, s)
    | some reading =>
      (s.kernelPrev.map fun previous =>
          previous.zip (fun previous reading => (fold (some previous) reading).getD 0) reading,
        { s with kernelPrev := some reading })
  | none =>
    match fresh config s tick.mono with
    | none => (none, s)
    | some (manager, result) =>
      if result.directional then
        (some manager.pending, { s with manager := some { manager with pending := zeros } })
      else (none, s)

/-! ## Runs -/

inductive Event
  /-- The manager has a new client. -/
  | appear (username : String) (start : Both ℚ)
  | flow (username : String) (amount : Both ℚ)
  /-- A tick starts and asks the agent; its sample may be missing, or have no counter of one
  direction. -/
  | fetch (mono : ℚ) (answered : Option (Both Bool))
  | record
  /-- The manager reads its counters for the poll in flight. -/
  | respond
  | deliver
  | fail

/-- The state of a manager that is polled for the first time. -/
def newManager (mono : ℚ) : ManagerState := ⟨zeros, zeros, false, mono, none⟩

def kernelCounters (config : Config) (s : State) : Both ℚ :=
  ⟨config.kernelBase.up + s.traffic .up, config.kernelBase.down + s.traffic .down⟩

def flowTo (username : String) (amount : Both ℚ) (client : Client) : Client :=
  if client.username = username then
    { client with flowed := client.flowed.zip (· + ·) amount }
  else client

/-- Take in an answer. -/
def deliver (mono : ℚ) (rows : List (String × Reading)) (s : State) : State :=
  let manager := s.manager.getD (newManager mono)
  let folded := foldRows s.rates mono rows
  { s with
    rates := folded.rates
    poll := none
    manager := some
      { cum := manager.cum.zip (· + ·) folded.delta
        pending := manager.pending.zip (· + ·) folded.delta
        ok := true
        seen := mono
        result := some
          { bps := if folded.directional then some folded.bps else none
            totalBps := folded.totalBps
            directional := folded.directional } } }

def fail (mono : ℚ) (s : State) : State :=
  { s with
    poll := none
    manager := some { s.manager.getD (newManager mono) with ok := false } }

/-- The tick with its sample: a poll is launched, clients are forgotten, and what is recorded
goes into the ring. -/
def finish (config : Config) (tick : Tick) (s : State) : State :=
  let s := launchDue config tick.mono s
  let s := { s with rates := s.rates.prune config.forgetAfter tick.mono }
  let (values, s) := record config tick s
  { s with tick := none, recorded := s.recorded.zip (· + ·) (values.getD zeros) }

/-- **One event.** -/
def step (config : Config) (s : State) : Event → Option State
  | .appear username start =>
    if username ∉ s.clients.map Client.username ∧ 0 ≤ start.up ∧ 0 ≤ start.down then
      some { s with clients := s.clients ++ [⟨username, start, zeros⟩] }
    else none
  | .flow username amount =>
    if 0 ≤ amount.up ∧ 0 ≤ amount.down then
      some { s with clients := s.clients.map (flowTo username amount) }
    else none
  | .fetch mono answered =>
    match s.tick with
    | some _ => none
    | none =>
      some { s with
        tick := some
          { mono
            kernel := answered.map fun answered =>
              answered.zip (fun has counter => if has then some counter else none)
                (kernelCounters config s) } }
  | .record => s.tick.map fun tick => finish config tick s
  | .respond =>
    match s.poll with
    | some ⟨mono, none⟩ =>
      some { s with
        poll := some ⟨mono, some (s.clients.map fun client =>
          (client.username, client.reading config))⟩ }
    | _ => none
  | .deliver =>
    match s.poll with
    | some ⟨mono, some rows⟩ => some (deliver mono rows s)
    | _ => none
  | .fail => s.poll.map fun poll => fail poll.mono s

/-- A collector that was just started. -/
structure Started (s : State) : Prop where
  last : s.rates.last = []
  kernelPrev : s.kernelPrev = none
  manager : s.manager = none
  lastPoll : s.lastPoll = none
  poll : s.poll = none
  tick : s.tick = none
  usernames : (s.clients.map Client.username).Nodup
  start : ∀ client ∈ s.clients, 0 ≤ client.start.up ∧ 0 ≤ client.start.down
  flowed : ∀ client ∈ s.clients, client.flowed = zeros
  recorded : s.recorded = zeros

/-! ## What one answer adds -/

section

variable {config : Config} {s s' : State} {direction : Direction} {rows : List (String × Reading)}
  {username : String} {mono : ℚ} {v now recorded : ℚ} {new : Last} {prev : Option Last}
  {folded : Folded} {clients : List Client} {manager : ManagerState} {row : Both (Option ℚ)}
  {reading : Both ℚ} {tick : Tick}

theorem of_num {val : Option ℚ} (h : num val = some v) : val = some v :=
  (Option.filter_eq_some_iff.mp h).1

/-- What a reading adds to the one before it. -/
def growth : Option Last → Last → Direction → ℚ
  | none, _, _ => 0
  | some previous, new, direction =>
    ((new.counters.get direction).bind (fold (previous.counters.get direction))).getD 0

theorem growth_nonneg (h : ∀ v, new.counters.get direction = some v → 0 ≤ v) :
    0 ≤ growth prev new direction := by
  cases prev with
  | none => exact le_refl (0 : ℚ)
  | some prev =>
    rw [growth]
    cases hnew : new.counters.get direction with
    | none => exact le_refl (0 : ℚ)
    | some v =>
      cases hprev : prev.counters.get direction with
      | none => exact le_refl (0 : ℚ)
      | some w =>
        show 0 ≤ if w ≤ v then v - w else v
        split
        · linarith
        · exact h v hnew

/-- Without a reset, it is the difference. -/
theorem growth_eq {prev : Last} {w : ℚ} (hnew : new.counters.get direction = some v)
    (hprev : prev.counters.get direction = some w) (hle : w ≤ v) :
    growth (some prev) new direction = v - w := by
  rw [growth]
  rw [hnew, hprev]
  show (if w ≤ v then v - w else v) = v - w
  rw [if_pos hle]

/-- A direction that was not read, or not before, adds nothing. -/
theorem growth_eq_zero {prev : Last}
    (h : new.counters.get direction = none ∨ prev.counters.get direction = none) :
    growth (some prev) new direction = 0 := by
  rw [growth]
  obtain hnew | hprev := h
  · rw [hnew]
    rfl
  · rw [hprev]
    cases new.counters.get direction <;> rfl

theorem update_spec {rates : ClientRates} {rd : Reading}
    (hl : ∀ prev, find rates.last username = some prev →
      prev.seen < now ∧ prev.total.isSome) (htot : (lastOf rd now).total.isSome) :
    (rates.update username now rd).2.last = put rates.last username (lastOf rd now)
      ∧ ∀ direction, ((rates.update username now rd).1.map
          fun rate => rate.delta.get direction).getD 0
        = growth (find rates.last username) (lastOf rd now) direction := by
  unfold ClientRates.update
  cases hf : find rates.last username with
  | none => exact ⟨rfl, fun _ => rfl⟩
  | some prev =>
    obtain ⟨hseen, hprev⟩ := hl prev hf
    obtain ⟨total, htot⟩ := Option.isSome_iff_exists.mp htot
    obtain ⟨before, hbef⟩ := Option.isSome_iff_exists.mp hprev
    dsimp only
    rw [if_neg (by linarith), htot, hbef]
    refine ⟨rfl, fun direction => ?_⟩
    show (((lastOf rd now).counters.zip _ prev.counters).map _).get direction = _
    rw [Both.get_map, Both.get_zip]
    rfl

theorem foldRow_spec {row : String × Reading}
    (hl : ∀ prev, find folded.rates.last row.1 = some prev →
      prev.seen < now ∧ prev.total.isSome) (htot : (lastOf row.2 now).total.isSome) :
    (foldRow now folded row).rates.last = put folded.rates.last row.1 (lastOf row.2 now)
      ∧ ∀ direction, (foldRow now folded row).delta.get direction = folded.delta.get direction
          + growth (find folded.rates.last row.1) (lastOf row.2 now) direction := by
  obtain ⟨hput, hdelta⟩ := update_spec hl htot
  unfold foldRow
  cases hupd : folded.rates.update row.1 now row.2 with
  | mk rate rates =>
    rw [hupd] at hput hdelta
    cases rate with
    | none =>
      refine ⟨hput, fun direction => ?_⟩
      rw [← hdelta direction]
      exact (add_zero _).symm
    | some rate =>
      refine ⟨hput, fun direction => ?_⟩
      rw [← hdelta direction]
      exact Both.get_zip _ _ _ _

/-- **An answer adds the growth of each of its rows**, and its readings are the last ones. -/
theorem foldl_spec (hk : (rows.map Prod.fst).Nodup)
    (hl : ∀ row ∈ rows, ∀ prev, find folded.rates.last row.1 = some prev →
      prev.seen < now ∧ prev.total.isSome)
    (htot : ∀ row ∈ rows, (lastOf row.2 now).total.isSome)
    (hlasts : (folded.rates.last.map Prod.fst).Nodup) :
    ((rows.foldl (foldRow now) folded).rates.last.map Prod.fst).Nodup
      ∧ (∀ username, find (rows.foldl (foldRow now) folded).rates.last username
        = ((find rows username).map (lastOf · now)).or (find folded.rates.last username))
      ∧ ∀ direction, (rows.foldl (foldRow now) folded).delta.get direction
        = folded.delta.get direction + (rows.map fun row =>
          growth (find folded.rates.last row.1) (lastOf row.2 now) direction).sum := by
  induction rows generalizing folded with
  | nil => exact ⟨hlasts, fun _ => rfl, fun _ => (add_zero _).symm⟩
  | cons row rows ih =>
    rw [map_cons, nodup_cons] at hk
    obtain ⟨hput, hdelta⟩ :=
      foldRow_spec (hl row mem_cons_self) (htot row mem_cons_self)
    -- the other rows find what they would have found before
    have hoth : ∀ o ∈ rows, find (foldRow now folded row).rates.last o.1
        = find folded.rates.last o.1 := by
      intro o hmem
      rw [hput]
      refine find_put_of_ne (fun heq => hk.1 ?_) _ _
      exact heq ▸ mem_map_of_mem hmem
    obtain ⟨hnd, hf, hsum⟩ := ih hk.2 (fun o hmem => hoth o hmem ▸ hl o (mem_cons_of_mem row hmem))
      (fun o hmem => htot o (mem_cons_of_mem row hmem))
      (hput ▸ nodup_keys_put hlasts _ _)
    rw [foldl_cons]
    refine ⟨hnd, ?_, ?_⟩
    · intro username
      rw [hf, hput]
      obtain ⟨name, reading⟩ := row
      by_cases hnm : name = username
      · subst hnm
        rw [find_of_not_mem_keys hk.1, find_put_self]
        simp [find]
      · rw [find_put_of_ne (Ne.symm hnm)]
        simp [find, hnm]
    · intro direction
      rw [hsum, hdelta, map_cons, sum_cons, add_assoc]
      congr 2
      exact congrArg sum (map_congr_left fun o hmem => by rw [hoth o hmem])

/-- A sum over names of what a table has for them is the sum over the table. -/
theorem sum_find {α : Type} (f : String → α → ℚ) {ns : List String} {rows : List (String × α)}
    (hns : ns.Nodup) (hk : (rows.map Prod.fst).Nodup)
    (hmem : ∀ row ∈ rows, row.1 ∈ ns) :
    (ns.map fun name => ((find rows name).map (f name)).getD 0).sum
      = (rows.map fun row => f row.1 row.2).sum := by
  induction rows with
  | nil =>
    simp
  | cons row rows ih =>
    obtain ⟨key, v⟩ := row
    rw [map_cons, nodup_cons] at hk
    have hcnt : ns.count key = 1 :=
      count_eq_one_of_mem hns (hmem _ mem_cons_self)
    have hsplit : (ns.map fun name =>
          ((find ((key, v) :: rows) name).map (f name)).getD 0)
        = ns.map fun name =>
          if name = key then f name v else ((find rows name).map (f name)).getD 0 := by
      refine map_congr_left fun name _ => ?_
      rw [find]
      by_cases hnm : key = name
      · rw [if_pos hnm, if_pos hnm.symm]
        rfl
      · rw [if_neg hnm, if_neg (Ne.symm hnm)]
    rw [hsplit, sum_map_ite_eq, hcnt, find_of_not_mem_keys hk.1,
      ih hk.2 fun row hrow => hmem row (mem_cons_of_mem _ hrow), map_cons,
      sum_cons, one_nsmul, Option.map_none, Option.getD_none, sub_zero]

/-! ## What is counted of each client -/

/-- **What was counted of the manager's counters**, client by client: no more than flowed,
and no more than the last reading has; the answer in flight is not behind either. What was
counted is recorded or pending. -/
structure Ledger (clients : List Client) (lasts : List (String × Last)) (poll : Option Poll)
    (recorded pending : ℚ) (direction : Direction) (counted : String → ℚ) : Prop where
  bounded : ∀ client ∈ clients, counted client.username ≤ client.flowed.get direction
  last : ∀ client ∈ clients, ∀ last v, find lasts client.username = some last →
    last.counters.get direction = some v →
    client.start.get direction + counted client.username ≤ v ∧ v ≤ client.counters.get direction
  answer : ∀ mono rows, poll = some ⟨mono, some rows⟩ → ∀ client ∈ clients, ∀ reading v,
    find rows client.username = some reading → reading.counters.get direction = some v →
    client.start.get direction + counted client.username ≤ v
      ∧ v ≤ client.counters.get direction
      ∧ ∀ last w, find lasts client.username = some last →
        last.counters.get direction = some w → w ≤ v
  total : recorded + pending = (clients.map fun client => counted client.username).sum
  pending : 0 ≤ pending

/-- Rows that can be taken in: of clients, each once, and each with a total. -/
structure Rows (clients : List Client) (rows : List (String × Reading)) : Prop where
  keys : (rows.map Prod.fst).Nodup
  clients : ∀ row ∈ rows, row.1 ∈ clients.map Client.username
  totals : ∀ row ∈ rows, ∀ now, (lastOf row.2 now).total.isSome

/-- The bounds of the agent's readings: what it had at first with what was recorded, and
with what flowed. -/
def Between (config : Config) (recorded traffic : ℚ) (direction : Direction) (v : ℚ) : Prop :=
  config.kernelBase.get direction + recorded ≤ v ∧ v ≤ config.kernelBase.get direction + traffic

/-- **What holds of every state.** -/
structure Sound (config : Config) (s : State) : Prop where
  usernames : (s.clients.map Client.username).Nodup
  nonneg : ∀ client ∈ s.clients, ∀ direction,
    0 ≤ client.start.get direction ∧ 0 ≤ client.flowed.get direction
  keys : (s.rates.last.map Prod.fst).Nodup
  seen : ∀ entry ∈ s.rates.last, entry.1 ∈ s.clients.map Client.username ∧ entry.2.total.isSome
    ∧ ∃ mono, s.lastPoll = some mono ∧ entry.2.seen ≤ mono
  poll : ∀ poll, s.poll = some poll → s.lastPoll = some poll.mono
    ∧ ∀ entry ∈ s.rates.last, entry.2.seen < poll.mono
  rows : ∀ mono rows, s.poll = some ⟨mono, some rows⟩ → Rows s.clients rows
  tick : ∀ tick row direction v, s.tick = some tick → tick.kernel = some row →
    row.get direction = some v →
    Between config (s.recorded.get direction) (s.traffic direction) direction v
      ∧ ∀ previous, s.kernelPrev = some previous → previous.get direction ≤ v
  kernel : ∀ previous direction, s.kernelPrev = some previous →
    Between config (s.recorded.get direction) (s.traffic direction) direction
      (previous.get direction)
  ledger : s.kernelPrev = none → ∀ direction, ∃ counted,
    Ledger s.clients s.rates.last s.poll (s.recorded.get direction) (s.pending direction) direction
      counted

/-- **No byte is recorded twice.** -/
theorem Sound.recorded_le (h : Sound config s) (direction : Direction) :
    s.recorded.get direction ≤ s.traffic direction := by
  cases hker : s.kernelPrev with
  | some prev =>
    obtain ⟨hrec, htraf⟩ := h.kernel prev direction hker
    linarith
  | none =>
    obtain ⟨counted, hled⟩ := h.ledger hker direction
    have hsum : (s.clients.map fun c => counted c.username).sum ≤ s.traffic direction :=
      sum_le_sum fun c hmem => hled.bounded c hmem
    have htot := hled.total
    have hpend := hled.pending
    linarith

theorem Started.sound (h : Started s) : Sound config s where
  usernames := h.usernames
  nonneg c hmem direction := by
    rw [h.flowed c hmem, get_zeros]
    obtain ⟨hup, hdown⟩ := h.start c hmem
    cases direction
    · exact ⟨hup, le_rfl⟩
    · exact ⟨hdown, le_rfl⟩
  keys := by
    rw [h.last]
    exact nodup_nil
  seen entry hmem := by
    rw [h.last] at hmem
    exact absurd hmem not_mem_nil
  poll poll hpoll := by
    rw [h.poll] at hpoll
    cases hpoll
  rows mono rows hpoll := by
    rw [h.poll] at hpoll
    cases hpoll
  tick tick _ _ _ htick := by
    rw [h.tick] at htick
    cases htick
  kernel prev _ hker := by
    rw [h.kernelPrev] at hker
    cases hker
  ledger _ direction := by
    have hpend : s.pending direction = 0 := by
      rw [State.pending, h.manager]
      exact get_zeros direction
    refine ⟨fun _ => 0, fun c hmem => ?_, fun c hmem last v hf => ?_,
      fun mono rows hpoll => ?_, ?_, hpend.ge⟩
    · rw [h.flowed c hmem, get_zeros]
    · rw [h.last] at hf
      cases hf
    · rw [h.poll] at hpoll
      cases hpoll
    · rw [h.recorded, hpend, get_zeros]
      simp

/-! ## The traffic -/

theorem Between.of_traffic {traffic traffic' : ℚ} (h : Between config recorded traffic direction v)
    (htraf : traffic ≤ traffic') : Between config recorded traffic' direction v :=
  ⟨h.1, h.2.trans (by linarith)⟩

/-- Other clients, among them those there were, with as much traffic. -/
theorem Sound.of_clients (h : Sound config s) (hunames : (clients.map Client.username).Nodup)
    (hnn : ∀ c ∈ clients, ∀ direction, 0 ≤ c.start.get direction ∧ 0 ≤ c.flowed.get direction)
    (hns : s.clients.map Client.username ⊆ clients.map Client.username)
    (htraf : ∀ direction, s.traffic direction ≤ State.traffic { s with clients } direction)
    (hled : ∀ direction counted, Ledger s.clients s.rates.last s.poll
      (s.recorded.get direction) (s.pending direction) direction counted →
      ∃ counted', Ledger clients s.rates.last s.poll
        (s.recorded.get direction) (s.pending direction) direction counted') :
    Sound config { s with clients } := by
  refine ⟨hunames, hnn, h.keys, fun e hmem => ?_, h.poll, fun mono rows hpoll => ?_,
    fun tick row direction v htick hrow hv => ?_, fun prev direction hker => ?_,
    fun hker direction => ?_⟩
  · obtain ⟨hnm, hr⟩ := h.seen e hmem
    exact ⟨hns hnm, hr⟩
  · obtain ⟨hk, hcls, htotals⟩ := h.rows mono rows hpoll
    exact ⟨hk, fun row hrow => hns (hcls row hrow), htotals⟩
  · obtain ⟨hbet, hprev⟩ := h.tick tick row direction v htick hrow hv
    exact ⟨hbet.of_traffic (htraf direction), hprev⟩
  · exact (h.kernel prev direction hker).of_traffic (htraf direction)
  · obtain ⟨counted, hcnt⟩ := h.ledger hker direction
    exact hled direction counted hcnt

/-- A new client has sent nothing. -/
theorem Sound.appear (h : Sound config s) {start : Both ℚ}
    (hnew : username ∉ s.clients.map Client.username) (hup : 0 ≤ start.up) (hdown : 0 ≤ start.down)
    : Sound config { s with clients := s.clients ++ [⟨username, start, zeros⟩] } := by
  -- neither the last readings nor an answer in flight know the new client
  have hunseen : find s.rates.last username = none := by
    refine find_of_not_mem_keys fun hmem => hnew ?_
    exact forall_mem_map.mpr (fun e hent => (h.seen e hent).1) _ hmem
  have hunr : ∀ mono rows, s.poll = some ⟨mono, some rows⟩ → find rows username = none := by
    intro mono rows hpoll
    refine find_of_not_mem_keys fun hmem => hnew ?_
    exact forall_mem_map.mpr (h.rows mono rows hpoll).clients _ hmem
  have hcl {c : Client} (hmem : c ∈ s.clients ++ [⟨username, start, zeros⟩]) :
      c ∈ s.clients ∨ c = ⟨username, start, zeros⟩ := by simpa using hmem
  refine h.of_clients ?_ (fun c hmem direction => ?_)
    (map_subset _ (subset_append_left _ _)) (fun direction => ?_)
    fun direction counted hled => ?_
  · rw [map_append, nodup_append]
    refine ⟨h.usernames, nodup_singleton _, fun name hnm o hoth heq => hnew ?_⟩
    obtain rfl := mem_singleton.mp hoth
    exact heq ▸ hnm
  · obtain hold | rfl := hcl hmem
    · exact h.nonneg c hold direction
    · rw [get_zeros]
      cases direction
      · exact ⟨hup, le_rfl⟩
      · exact ⟨hdown, le_rfl⟩
  · simp [State.traffic]
  · have hsm : ∀ c ∈ s.clients,
        Function.update counted username 0 c.username = counted c.username := by
      intro c hmem
      have hne : c.username ≠ username := fun heq => hnew (heq ▸ mem_map_of_mem hmem)
      exact Function.update_of_ne hne _ _
    refine ⟨Function.update counted username 0, fun c hmem => ?_, fun c hmem last v hf hv => ?_,
      fun mono rows hpoll c hmem reading v hf hv => ?_, ?_, hled.pending⟩
    · obtain hold | rfl := hcl hmem
      · rw [hsm c hold]
        exact hled.bounded c hold
      · rw [Function.update_self, get_zeros]
    · obtain hold | rfl := hcl hmem
      · rw [hsm c hold]
        exact hled.last c hold last v hf hv
      · rw [hunseen] at hf
        cases hf
    · obtain hold | rfl := hcl hmem
      · rw [hsm c hold]
        exact hled.answer mono rows hpoll c hold reading v hf hv
      · rw [hunr mono rows hpoll] at hf
        cases hf
    · refine hled.total.trans ?_
      rw [map_append, sum_append, map_congr_left hsm]
      simp

/-- Traffic goes up. -/
theorem Sound.flow (h : Sound config s) {amount : Both ℚ} (hup : 0 ≤ amount.up)
    (hdown : 0 ≤ amount.down) :
    Sound config { s with clients := s.clients.map (flowTo username amount) } := by
  have hamt : ∀ direction, 0 ≤ amount.get direction := by
    intro direction
    cases direction
    · exact hup
    · exact hdown
  have hcl : ∀ c : Client, (flowTo username amount c).username = c.username
      ∧ (flowTo username amount c).start = c.start
      ∧ ∀ direction, c.flowed.get direction ≤ (flowTo username amount c).flowed.get direction := by
    intro c
    unfold flowTo
    split
    · refine ⟨rfl, rfl, fun direction => ?_⟩
      have hle := hamt direction
      rw [Both.get_zip]
      linarith
    · exact ⟨rfl, rfl, fun _ => le_rfl⟩
  have hctr : ∀ (c : Client) direction, c.counters.get direction
      ≤ (flowTo username amount c).counters.get direction := by
    intro c direction
    have hle := (hcl c).2.2 direction
    unfold Client.counters
    rw [Both.get_zip, Both.get_zip, (hcl c).2.1]
    linarith
  have hns : (s.clients.map (flowTo username amount)).map Client.username
      = s.clients.map Client.username := by
    rw [map_map]
    exact map_congr_left fun c _ => (hcl c).1
  refine h.of_clients (hns ▸ h.usernames) (fun c hmem direction => ?_)
    (hns ▸ List.Subset.refl _) (fun direction => ?_) fun direction counted hled => ?_
  · obtain ⟨old, hold, rfl⟩ := mem_map.mp hmem
    obtain ⟨hst, hflowed⟩ := h.nonneg old hold direction
    rw [(hcl old).2.1]
    exact ⟨hst, hflowed.trans ((hcl old).2.2 direction)⟩
  · show _ ≤ ((s.clients.map (flowTo username amount)).map _).sum
    rw [map_map]
    exact sum_le_sum fun c _ => (hcl c).2.2 direction
  · refine ⟨counted, fun c hmem => ?_, fun c hmem last v hf hv => ?_,
      fun mono rows hpoll c hmem reading v hf hv => ?_, ?_, hled.pending⟩
    · obtain ⟨old, hold, rfl⟩ := mem_map.mp hmem
      rw [(hcl old).1]
      exact (hled.bounded old hold).trans ((hcl old).2.2 direction)
    · obtain ⟨old, hold, rfl⟩ := mem_map.mp hmem
      rw [(hcl old).1] at hf ⊢
      rw [(hcl old).2.1]
      obtain ⟨hlst, hmost⟩ := hled.last old hold last v hf hv
      exact ⟨hlst, hmost.trans (hctr old direction)⟩
    · obtain ⟨old, hold, rfl⟩ := mem_map.mp hmem
      rw [(hcl old).1] at hf ⊢
      rw [(hcl old).2.1]
      obtain ⟨hlst, hmost, hl⟩ := hled.answer mono rows hpoll old hold reading v hf hv
      exact ⟨hlst, hmost.trans (hctr old direction), hl⟩
    · refine hled.total.trans ?_
      rw [map_map]
      exact congrArg sum (map_congr_left fun c _ => by
        rw [Function.comp_apply, (hcl c).1])

/-! ## Polls -/

/-- The agent's sample is of this moment. -/
theorem Sound.fetch (h : Sound config s) {answered : Option (Both Bool)} :
    Sound config { s with
      tick := some
        { mono
          kernel := answered.map fun answered =>
            answered.zip (fun has counter => if has then some counter else none)
              (kernelCounters config s) } } := by
  refine { h with tick := fun tick row direction v htick hrow hv => ?_ }
  cases htick
  obtain ⟨has, -, rfl⟩ := Option.map_eq_some_iff.mp hrow
  rw [Both.get_zip, Option.ite_none_right_eq_some] at hv
  have hctr : (kernelCounters config s).get direction
      = config.kernelBase.get direction + s.traffic direction := by
    cases direction <;> rfl
  obtain rfl : config.kernelBase.get direction + s.traffic direction = v :=
    hctr ▸ Option.some.inj hv.2
  refine ⟨⟨?_, le_rfl⟩, fun prev hker => (h.kernel prev direction hker).2⟩
  have hle := h.recorded_le direction
  linarith

theorem total_reading (c : Client)
    (h : ∀ direction, 0 ≤ c.start.get direction ∧ 0 ≤ c.flowed.get direction)
    (now : ℚ) : (lastOf (c.reading config) now).total.isSome := by
  have hnn : ∀ direction, 0 ≤ c.counters.get direction := by
    intro direction
    obtain ⟨hst, hflowed⟩ := h direction
    rw [Client.counters, Both.get_zip]
    linarith
  have hup : 0 ≤ c.counters.up := hnn .up
  have hdown : 0 ≤ c.counters.down := hnn .down
  unfold lastOf Client.reading
  split
  · simp [num, Both.map, Both.sum, Option.filter, hup, hdown]
  · have hsum : 0 ≤ c.counters.up + c.counters.down := by linarith
    simp [num, Option.filter, hsum]

theorem find_answer (h : (s.clients.map Client.username).Nodup) {c : Client}
    (hmem : c ∈ s.clients) : find (s.clients.map fun c =>
      (c.username, c.reading config)) c.username = some (c.reading config) := by
  refine find_of_mem ?_ (mem_map_of_mem (f := fun c =>
    (c.username, c.reading config)) hmem)
  rw [map_map]
  exact h

/-- The manager answers with what its counters have. -/
theorem Sound.respond (h : Sound config s) (hpoll : s.poll = some ⟨mono, none⟩) :
    Sound config { s with
      poll := some ⟨mono, some (s.clients.map fun c =>
        (c.username, c.reading config))⟩ } := by
  obtain ⟨hlau, hseen⟩ := h.poll _ hpoll
  refine { h with
    poll := fun poll heq => ?_, rows := fun mono' rows heq => ?_,
    ledger := fun hker direction => ?_ }
  · cases heq
    exact ⟨hlau, hseen⟩
  · cases heq
    refine ⟨?_, fun row hrow => ?_, fun row hrow now => ?_⟩
    · rw [map_map]
      exact h.usernames
    · obtain ⟨c, hcl, rfl⟩ := mem_map.mp hrow
      exact mem_map_of_mem hcl
    · obtain ⟨c, hcl, rfl⟩ := mem_map.mp hrow
      exact total_reading c (h.nonneg c hcl) now
  · obtain ⟨counted, hled⟩ := h.ledger hker direction
    refine ⟨counted, hled.bounded, hled.last,
      fun mono' rows heq c hmem reading v hf hv => ?_, hled.total, hled.pending⟩
    cases heq
    rw [find_answer h.usernames hmem] at hf
    cases hf
    have hval : v = c.counters.get direction := by
      unfold Client.reading at hv
      split at hv
      · rw [Both.get_map] at hv
        exact (Option.some.inj hv).symm
      · cases direction <;> cases hv
    subst hval
    refine ⟨?_, le_rfl, fun last w hl hw => (hled.last c hmem last w hl hw).2⟩
    have hle := hled.bounded c hmem
    rw [Client.counters, Both.get_zip]
    linarith

/-- Where no answer is in flight, and the pending bytes are as before, nothing is asked of
the manager. -/
theorem Sound.of_manager (h : Sound config s)
    (hpend : ∀ direction, manager.pending.get direction = s.pending direction) :
    Sound config { s with poll := none, manager := some manager } := by
  refine { h with poll := nofun, rows := nofun, ledger := fun hker direction => ?_ }
  obtain ⟨counted, hled⟩ := h.ledger hker direction
  have hsm : State.pending { s with poll := none, manager := some manager } direction
      = s.pending direction := hpend direction
  rw [hsm]
  exact ⟨counted, hled.bounded, hled.last, nofun, hled.total, hled.pending⟩

theorem get_pending_getD (s : State) (mono : ℚ) (direction : Direction) :
    (s.manager.getD (newManager mono)).pending.get direction = s.pending direction := by
  unfold State.pending
  cases s.manager <;> rfl

theorem Sound.fail (h : Sound config s) (mono : ℚ) : Sound config (fail mono s) :=
  h.of_manager fun direction => get_pending_getD s mono direction

theorem growth_none (h : new.counters.get direction = none) : growth prev new direction = 0 := by
  cases prev with
  | none => rfl
  | some prev => exact growth_eq_zero (.inl h)

/-- A counter of a reading that was kept is one of the reading, and is not negative. -/
theorem of_lastOf {rd : Reading} (h : (lastOf rd now).counters.get direction = some v) :
    rd.counters.get direction = some v ∧ 0 ≤ v := by
  unfold lastOf at h
  rw [Both.get_map] at h
  exact ⟨of_num h, by simpa using (Option.filter_eq_some_iff.mp h).2⟩

/-- **An answer is taken in.** Of each client that was read before, the growth is counted. -/
theorem Ledger.take {lasts lasts' : List (String × Last)} {mono pend : ℚ} {counted : String → ℚ}
    (h : Ledger clients lasts (some ⟨mono, some rows⟩) recorded pend direction counted)
    (hns : (clients.map Client.username).Nodup) (hrows : Rows clients rows)
    (hlasts : ∀ username, find lasts' username
      = ((find rows username).map (lastOf · mono)).or (find lasts username)) :
    ∃ counted', Ledger clients lasts' none recorded (pend + (rows.map fun row =>
      growth (find lasts row.1) (lastOf row.2 mono) direction).sum) direction counted' := by
  -- what the row of a client adds
  let added (name : String) (reading : Reading) : ℚ :=
    growth (find lasts name) (lastOf reading mono) direction
  let more (name : String) : ℚ := ((find rows name).map (added name)).getD 0
  have hmore {name : String} {found : Option Reading} (hf : find rows name = found) :
      more name = (found.map (added name)).getD 0 := hf ▸ rfl
  -- a reading has at least what was counted up to it
  have hrd : ∀ c ∈ clients, ∀ reading, find rows c.username = some reading →
      ∀ v, (lastOf reading mono).counters.get direction = some v →
      c.start.get direction + (counted c.username + more c.username) ≤ v
        ∧ v ≤ c.counters.get direction := by
    intro c hmem reading hf v hv
    obtain ⟨hlst, hmost, hnewer⟩ :=
      h.answer mono rows rfl c hmem reading v hf (of_lastOf hv).1
    refine ⟨?_, hmost⟩
    rw [hmore hf]
    show _ + (_ + growth (find lasts c.username) _ direction) ≤ v
    cases hl : find lasts c.username with
    | none =>
      show _ + (_ + (0 : ℚ)) ≤ v
      linarith
    | some last =>
      cases hw : last.counters.get direction with
      | none =>
        rw [growth_eq_zero (.inr hw)]
        linarith
      | some w =>
        obtain ⟨hbef, -⟩ := h.last c hmem last w hl hw
        rw [growth_eq hv hw (hnewer last w hl hw)]
        linarith
  refine ⟨fun name => counted name + more name, fun c hmem => ?_,
    fun c hmem last v hf hv => ?_, nofun, ?_, ?_⟩
  · have hbound := h.bounded c hmem
    cases hf : find rows c.username with
    | none =>
      rw [show more c.username = 0 from hmore hf]
      linarith
    | some reading =>
      cases hv : (lastOf reading mono).counters.get direction with
      | none =>
        have hzero : more c.username = 0 := (hmore hf).trans (growth_none hv)
        rw [hzero]
        linarith
      | some v =>
        obtain ⟨hlst, hmost⟩ := hrd c hmem reading hf v hv
        rw [Client.counters, Both.get_zip] at hmost
        linarith
  · rw [hlasts] at hf
    cases hrow : find rows c.username with
    | none =>
      rw [hrow, Option.map_none, Option.none_or] at hf
      rw [show more c.username = 0 from hmore hrow, add_zero]
      exact h.last c hmem last v hf hv
    | some reading =>
      rw [hrow, Option.map_some, Option.some_or, Option.some.injEq] at hf
      subst hf
      exact hrd c hmem reading hrow v hv
  · have hsum : (clients.map fun c => more c.username).sum
        = (rows.map fun row => added row.1 row.2).sum := by
      have hnam := sum_find added hns hrows.keys hrows.clients
      rw [map_map] at hnam
      exact hnam
    rw [sum_map_add, hsum, ← h.total, add_assoc]
  · have hgrowth : 0 ≤ (rows.map fun row =>
        growth (find lasts row.1) (lastOf row.2 mono) direction).sum := by
      refine sum_nonneg fun x hx => ?_
      obtain ⟨row, -, rfl⟩ := mem_map.mp hx
      exact growth_nonneg fun v hv => (of_lastOf hv).2
    have hpend := h.pending
    linarith

theorem Sound.deliver (h : Sound config s) (hpoll : s.poll = some ⟨mono, some rows⟩) :
    Sound config (deliver mono rows s) := by
  obtain ⟨hlau, hseen⟩ := h.poll _ hpoll
  have hrows := h.rows mono rows hpoll
  have hprev : ∀ row ∈ rows, ∀ prev, find s.rates.last row.1 = some prev →
      prev.seen < mono ∧ prev.total.isSome := fun row _ prev hf =>
    ⟨hseen _ (mem_of_find hf), (h.seen _ (mem_of_find hf)).2.1⟩
  obtain ⟨hk, hlasts, hdelta⟩ : ((foldRows s.rates mono rows).rates.last.map Prod.fst).Nodup
      ∧ (∀ username, find (foldRows s.rates mono rows).rates.last username
        = ((find rows username).map (lastOf · mono)).or (find s.rates.last username))
      ∧ ∀ direction, (foldRows s.rates mono rows).delta.get direction
        = zeros.get direction + (rows.map fun row =>
          growth (find s.rates.last row.1) (lastOf row.2 mono) direction).sum :=
    foldl_spec hrows.keys hprev (fun row hrow => hrows.totals row hrow mono) h.keys
  refine ⟨h.usernames, h.nonneg, hk, fun e hmem => ?_, nofun,
    nofun, h.tick, h.kernel, fun hker direction => ?_⟩
  · -- an entry is of the answer, or was there before
    have hf : find (foldRows s.rates mono rows).rates.last e.1 = some e.2 :=
      find_of_mem hk hmem
    rw [hlasts] at hf
    cases hrow : find rows e.1 with
    | none =>
      rw [hrow, Option.map_none, Option.none_or] at hf
      exact h.seen e (mem_of_find hf)
    | some reading =>
      rw [hrow, Option.map_some, Option.some_or, Option.some.injEq] at hf
      have hin := mem_of_find hrow
      refine ⟨hrows.clients _ hin, ?_, mono, hlau, ?_⟩
      · rw [← hf]
        exact hrows.totals _ hin mono
      · rw [← hf]
        exact le_refl mono
  · obtain ⟨counted, hled⟩ := h.ledger hker direction
    rw [hpoll] at hled
    have hpend : State.pending (Meters.deliver mono rows s) direction
        = s.pending direction + (rows.map fun row =>
          growth (find s.rates.last row.1) (lastOf row.2 mono) direction).sum := by
      show ((s.manager.getD (newManager mono)).pending.zip (· + ·)
        (foldRows s.rates mono rows).delta).get direction = _
      rw [Both.get_zip, hdelta, get_zeros, zero_add, get_pending_getD]
    rw [hpend]
    exact hled.take h.usernames hrows hlasts

/-! ## Ticks -/

theorem Sound.launchDue (h : Sound config s) (mono : ℚ) :
    Sound config (launchDue config mono s) := by
  unfold Meters.launchDue
  split
  next hdue =>
    rw [Bool.and_eq_true, decide_eq_true_iff] at hdue
    have hpos : 0 < max config.cadence config.interval :=
      lt_max_of_lt_right (by linarith [config.half_le_interval])
    refine { h with
      seen := fun e hmem => ?_, poll := fun poll heq => ?_, rows := nofun,
      ledger := fun hker direction => ?_ }
    · obtain ⟨hnm, htot, last, hl, hle⟩ := h.seen e hmem
      refine ⟨hnm, htot, mono, rfl, ?_⟩
      have hwait := hdue.2
      rw [hl, Option.getD_some] at hwait
      linarith
    · cases heq
      refine ⟨rfl, fun e hmem => ?_⟩
      obtain ⟨-, -, last, hl, hle⟩ := h.seen e hmem
      have hwait := hdue.2
      rw [hl, Option.getD_some] at hwait
      linarith
    · obtain ⟨counted, hled⟩ := h.ledger hker direction
      exact ⟨counted, hled.bounded, hled.last, nofun, hled.total, hled.pending⟩
  · exact h

theorem Sound.prune (h : Sound config s) (forgetAfter now : ℚ) :
    Sound config { s with rates := s.rates.prune forgetAfter now } := by
  have hsub : (s.rates.prune forgetAfter now).last.Sublist s.rates.last := filter_sublist
  have hk : ((s.rates.prune forgetAfter now).last.map Prod.fst).Nodup :=
    nodup_keys_filter h.keys _
  have hf : ∀ {username last}, find (s.rates.prune forgetAfter now).last username = some last →
      find s.rates.last username = some last := fun hf =>
    find_of_mem h.keys (hsub.subset (mem_of_find hf))
  refine { h with
    keys := hk, seen := fun e hmem => h.seen e (hsub.subset hmem),
    poll := fun poll hpoll =>
      ⟨(h.poll poll hpoll).1, fun e hmem => (h.poll poll hpoll).2 e (hsub.subset hmem)⟩,
    ledger := fun hker direction => ?_ }
  obtain ⟨counted, hled⟩ := h.ledger hker direction
  refine ⟨counted, hled.bounded, fun c hmem last v hl => hled.last c hmem last v (hf hl),
    fun mono rows hpoll c hmem reading v hrow hv => ?_, hled.total, hled.pending⟩
  obtain ⟨hlst, hmost, hnewer⟩ := hled.answer mono rows hpoll c hmem reading v hrow hv
  exact ⟨hlst, hmost, fun last w hl => hnewer last w (hf hl)⟩

/-- Whether a tick without the agent's counters records what is pending of the manager's. -/
def feeds (config : Config) (s : State) (mono : ℚ) : Bool :=
  (fresh config s mono).any fun found => found.2.directional

/-- **No tick takes the manager's counters once the agent's were taken.** -/
def Harmless (config : Config) (s : State) : Event → Prop
  | .record => ∀ tick ∈ s.tick, tick.kernel.isSome ∨ s.kernelPrev = none
      ∨ feeds config s tick.mono = false
  | _ => True

theorem zip_zeros (both : Both ℚ) : both.zip (· + ·) zeros = both := by
  cases both
  simp [Both.zip, zeros]

theorem get_of_both (h : row.both = some reading) :
    row.get direction = some (reading.get direction) := by
  obtain ⟨up, down⟩ := row
  cases up with
  | none => cases h
  | some up =>
    cases down with
    | none => cases h
    | some down =>
      cases h
      cases direction <;> rfl

/-- A tick that records nothing. -/
theorem Sound.idle (h : Sound config s) :
    Sound config { s with tick := none, recorded := s.recorded.zip (· + ·) zeros } := by
  rw [zip_zeros]
  exact { h with tick := nofun }

/-- **The agent's counters are recorded**: what they grew by, if they were recorded before. -/
theorem Sound.takeAgent (h : Sound config s) (htick : s.tick = some tick)
    (hker : tick.kernel = some row) (hrow : row.both = some reading) :
    Sound config { s with
        kernelPrev := some reading
        tick := none
        recorded := s.recorded.zip (· + ·) ((s.kernelPrev.map fun prev =>
          prev.zip (fun prev reading => (fold (some prev) reading).getD 0)
            reading).getD zeros) } := by
  refine { h with tick := nofun, kernel := fun prev direction hprevious => ?_, ledger := nofun }
  cases hprevious
  obtain ⟨⟨hlst, hmost⟩, hnewer⟩ :=
    h.tick tick row direction (reading.get direction) htick hker (get_of_both hrow)
  refine ⟨?_, hmost⟩
  rw [Both.get_zip]
  cases hprev : s.kernelPrev with
  | none =>
    rw [Option.map_none, Option.getD_none, get_zeros]
    linarith
  | some prev =>
    obtain ⟨hbase, -⟩ := h.kernel prev direction hprev
    have hle := hnewer prev hprev
    rw [Option.map_some, Option.getD_some, Both.get_zip]
    show _ + (_ + if prev.get direction ≤ reading.get direction
      then reading.get direction - prev.get direction else reading.get direction) ≤ _
    rw [if_pos hle]
    linarith

/-- **What is pending of the manager's counters is recorded**, where the agent's never
were. -/
theorem Sound.takeManager (h : Sound config s) (hmgr : s.manager = some manager)
    (hker : s.kernelPrev = none) :
    Sound config { s with
        manager := some { manager with pending := zeros }
        tick := none
        recorded := s.recorded.zip (· + ·) manager.pending } := by
  refine { h with tick := nofun, kernel := fun prev _ hprev => ?_, ledger := fun _ direction => ?_ }
  · rw [hker] at hprev
    cases hprev
  · obtain ⟨counted, hled⟩ := h.ledger hker direction
    have hpend : s.pending direction = manager.pending.get direction := by
      rw [State.pending, hmgr]
      rfl
    refine ⟨counted, hled.bounded, hled.last, hled.answer, ?_, (get_zeros direction).ge⟩
    show (s.recorded.zip (· + ·) manager.pending).get direction + zeros.get direction = _
    rw [Both.get_zip, get_zeros, add_zero, ← hpend]
    exact hled.total

theorem fresh_eq_some {found : ManagerState × PollResult} (h : fresh config s mono = some found) :
    s.manager = some found.1 := by
  unfold fresh at h
  split at h
  · cases h
  next manager hmgr =>
    split at h
    · obtain ⟨r, -, rfl⟩ := Option.map_eq_some_iff.mp h
      exact hmgr
    · cases h

theorem Sound.record (h : Sound config s) (htick : s.tick = some tick)
    (hharm : tick.kernel.isSome ∨ s.kernelPrev = none ∨ feeds config s tick.mono = false) :
    Sound config { (record config tick s).2 with
        tick := none
        recorded := (record config tick s).2.recorded.zip (· + ·)
          ((record config tick s).1.getD zeros) } := by
  unfold Meters.record
  cases hker : tick.kernel with
  | some row =>
    dsimp only
    cases hrow : row.both with
    | none => exact h.idle
    | some reading => exact h.takeAgent htick hker hrow
  | none =>
    cases hfr : fresh config s tick.mono with
    | none => exact h.idle
    | some found =>
      obtain ⟨manager, r⟩ := found
      dsimp only
      split
      next hdir =>
        have hprev : s.kernelPrev = none := by
          rw [hker] at hharm
          obtain hsm | hn | hnot := hharm
          · cases hsm
          · exact hn
          · rw [feeds, hfr, Option.any_some, hdir] at hnot
            cases hnot
        exact h.takeManager (fresh_eq_some hfr) hprev
      · exact h.idle

theorem launchDue_fields (cfg : Config) (mono : ℚ) (s : State) :
    (launchDue cfg mono s).tick = s.tick ∧ (launchDue cfg mono s).kernelPrev = s.kernelPrev
      ∧ (launchDue cfg mono s).manager = s.manager := by
  unfold launchDue
  split <;> exact ⟨rfl, rfl, rfl⟩

theorem Sound.finish (h : Sound config s) (htick : s.tick = some tick)
    (hharm : tick.kernel.isSome ∨ s.kernelPrev = none ∨ feeds config s tick.mono = false) :
    Sound config (finish config tick s) := by
  obtain ⟨hsm, hker, hmgr⟩ := launchDue_fields config tick.mono s
  refine ((h.launchDue tick.mono).prune config.forgetAfter tick.mono).record (hsm.trans htick) ?_
  have hfeeds : feeds config { Meters.launchDue config tick.mono s with
        rates := (Meters.launchDue config tick.mono s).rates.prune config.forgetAfter tick.mono }
      tick.mono = feeds config s tick.mono := by
    unfold feeds fresh
    rw [hmgr]
  rw [hfeeds]
  exact hker ▸ hharm

theorem Sound.step {ev : Event} (h : Sound config s) (hharm : Harmless config s ev)
    (hs : step config s ev = some s') : Sound config s' := by
  unfold Meters.step at hs
  cases ev with
  | appear username start =>
    dsimp only at hs
    split at hs <;> cases hs
    rename_i hnew
    exact h.appear hnew.1 hnew.2.1 hnew.2.2
  | flow username amount =>
    dsimp only at hs
    split at hs <;> cases hs
    rename_i hamt
    exact h.flow hamt.1 hamt.2
  | fetch mono answered =>
    dsimp only at hs
    split at hs <;> cases hs
    exact h.fetch
  | record =>
    obtain ⟨tick, htick, rfl⟩ := Option.map_eq_some_iff.mp hs
    exact h.finish htick (hharm tick htick)
  | respond =>
    dsimp only at hs
    split at hs <;> cases hs
    exact h.respond ‹_›
  | deliver =>
    dsimp only at hs
    split at hs <;> cases hs
    exact h.deliver ‹_›
  | fail =>
    obtain ⟨poll, -, rfl⟩ := Option.map_eq_some_iff.mp hs
    exact h.fail poll.mono

/-- **What is recorded of a protocol never exceeds its traffic**, in both directions, as
long as no tick takes the manager's counters once the agent's were taken. -/
theorem recorded_le_traffic {s₀ : State} {events : List Event} (hstart : Started s₀)
    (hrun : Run.exec (step config) s₀ events = some s)
    (hharmless : Run.Meets (step config) (Harmless config) s₀ events) :
    s.recorded.up ≤ s.traffic .up ∧ s.recorded.down ≤ s.traffic .down := by
  have hsound := Run.invariant_of_meets
    (fun _ _ _ hsound hok hstep => Sound.step hsound hok hstep) hrun hharmless hstart.sound
  exact ⟨hsound.recorded_le .up, hsound.recorded_le .down⟩

instance (config : Config) (s : State) : ∀ event, Decidable (Harmless config s event)
  | .record => inferInstanceAs (Decidable (∀ tick ∈ s.tick, _ ∨ _ ∨ _))
  | .appear _ _ | .flow _ _ | .fetch _ _ | .respond | .deliver | .fail =>
    inferInstanceAs (Decidable True)

end

namespace Sample

def config : Config where
  interval := 5
  cadence := 5
  forgetAfter := 600
  wanted := true
  directional := true
  kernelBase := zeros
  half_le_interval := by decide +kernel

def start : State where
  rates := ⟨[], []⟩
  kernelPrev := none
  manager := none
  lastPoll := none
  poll := none
  tick := none
  clients := [⟨"alice", zeros, zeros⟩]
  recorded := zeros

theorem started_start : Started start where
  last := rfl
  kernelPrev := rfl
  manager := rfl
  lastPoll := rfl
  poll := rfl
  tick := rfl
  usernames := nodup_singleton _
  start := forall_mem_singleton.mpr ⟨le_refl (0 : ℚ), le_refl (0 : ℚ)⟩
  flowed := forall_mem_singleton.mpr rfl
  recorded := rfl

/-- A tick with the agent's sample, or without. -/
def ticks (mono : ℚ) (sampled : Bool) : List Event :=
  [.fetch mono (if sampled then some ⟨true, true⟩ else none), .record]

def polled : List Event := [.respond, .deliver]

def sends : Event := .flow "alice" ⟨100, 0⟩

/-- **A hundred bytes are recorded twice**: from the agent's counters, and from the
manager's at the first tick without the agent. -/
theorem counted_twice : Started start ∧ ∃ s,
    Run.exec (step config) start (ticks 0 true ++ polled ++ [sends] ++ ticks 5 true ++ polled
      ++ ticks 10 false) = some s
      ∧ s.traffic .up = 100 ∧ s.recorded.up = 200 :=
  ⟨started_start, by decide +kernel⟩

/-- The manager first, and the agent from its first sample on. -/
def handedOver : List Event :=
  ticks 0 false ++ polled ++ [sends] ++ ticks 5 false ++ polled ++ ticks 10 false ++ ticks 15 true
    ++ [sends] ++ polled ++ ticks 20 true

theorem recorded_le_traffic_handedOver : ∃ s,
    Run.exec (step config) start handedOver = some s ∧ s.recorded.up = 200
      ∧ s.recorded.up ≤ s.traffic .up ∧ s.recorded.down ≤ s.traffic .down := by
  exact Run.end_and (by decide +kernel) fun s hrun _ =>
    recorded_le_traffic started_start hrun (by decide +kernel)

end Sample

end Meters
