import ProxyControl.AmneziaWG
import ProxyControl.Json
import ProxyControl.Programs

/-!
# The AmneziaWG manager at work

The manager brings its document into force: it runs one process per protocol
version, tells each device its peers, and steers the subnets of the versions out
of the node – directly, through a WARP tunnel of its own, or into a device the
Xray router reads. What it does is a program that asks the host for effects
(`Prog`): processes, the devices' control sockets, `ip`, the state file, the
clocks. Each of them may fail, and one that changes something may fail after it
did.

The manager holds its lock from the start of a request to its end, so that one
program runs at a time. What moves besides it is the host: a process dies, and
its device and the routes into it are gone; the router opens its device or lets
go of it. A crash leaves the host as it is and takes the memory.

A device gives an address to one peer: a peer that is set takes it from the
others. A control socket that answers with an error may have taken any part of
what it was sent.
-/

namespace AmneziaWG.Service

open Table

/-! ## Addresses -/

/-- **A subnet of the configuration**: a network and the length of its mask. -/
structure Net where
  network : Nat
  length : Nat
  least : 24 ≤ length
  most : length ≤ 28
  aligned : network % 2 ^ (32 - length) = 0
  fits : network + 2 ^ (32 - length) ≤ 2 ^ 32
deriving DecidableEq, Repr

namespace Net

/-- How many addresses there are. -/
def size (net : Net) : Nat := 2 ^ (32 - net.length)

def broadcast (net : Net) : Nat := net.network ||| (net.size - 1)

/-- The mask clears the bits of an address within the subnet. -/
def contains (net : Net) (address : Nat) : Bool := address / net.size * net.size == net.network

def gateway (net : Net) : Nat := net.network + 1

/-- Every address but the network and the broadcast ones. -/
def hosts (net : Net) : List Nat :=
  (List.range (net.broadcast - net.network - 1)).map (net.network + 1 + ·)

end Net

def formatV4 (value : Nat) : String :=
  toString (value / 2 ^ 24 % 256) ++ "." ++ toString (value / 2 ^ 16 % 256) ++ "."
    ++ toString (value / 2 ^ 8 % 256) ++ "." ++ toString (value % 256)

def Net.text (net : Net) : String := formatV4 net.network ++ "/" ++ toString net.length

def splitAt (separator : Char) : List Char → List (List Char)
  | [] => [[]]
  | c :: rest =>
    if c = separator then [] :: splitAt separator rest
    else match splitAt separator rest with
      | [] => [[c]]
      | part :: parts => (c :: part) :: parts

def octet (text : List Char) : Option Nat :=
  if text = [] ∨ 3 < text.length ∨ text.all Char.isDigit = false then none
  else if text ≠ ['0'] ∧ text.head? = some '0' then none
  else
    let byte := text.foldl (fun value c => 10 * value + (c.toNat - 48)) 0
    if 255 < byte then none else some byte

def parseV4 (text : String) : Option Nat :=
  match (splitAt '.' text.toList).mapM octet with
  | some [a, b, c, d] => some (((a * 256 + b) * 256 + c) * 256 + d)
  | _ => none

/-! ## Where traffic leaves the node -/

inductive Provider
  | warp
  | router
deriving DecidableEq, Repr

/-- A WARP account with keys that can be used. -/
structure Account where
  privateKey : String
  peerPublicKey : String
  address : String
  endpoint : String
  private_ok : isKey privateKey = true
  peer_ok : isKey peerPublicKey = true
deriving DecidableEq, Repr

structure Entry where
  /-- Direct, or through a provider. -/
  document : Option Provider
  operationId : String
deriving DecidableEq, Repr

/-- The egress section of the state. -/
structure Section where
  revision : Int
  history : List Entry
  warp : Option Account
deriving DecidableEq, Repr

namespace Section

def document (egress : Section) : Option Provider := (egress.history.getLast?).bind Entry.document

end Section

/-- **What the state file holds.** -/
structure Store where
  /-- The versions that have keys and parameters. -/
  instances : List String
  document : Document
  egress : Section
deriving DecidableEq, Repr

/-- The store a save writes, and leaves in memory. -/
def Store.pruned (store : Store) : Store := { store with document := store.document.pruned }

/-! ## The host -/

inductive Iface
  | tunnel (version : String)
  | warp
  | router
deriving DecidableEq, Repr

structure LivePeer where
  presharedKey : String
  allowedIps : List String
deriving DecidableEq, Repr

/-- The peers of a device by their public keys. -/
abbrev Peers := List (String × LivePeer)

structure Device where
  up : Bool
  peers : Peers
deriving DecidableEq, Repr

structure Host where
  disk : Store
  devices : List (Iface × Device)
  /-- The sources with a rule into the egress table. -/
  rules : List String
  /-- The egress table: its blackhole default, its default route, the ranges it
  throws back. -/
  blackhole : Bool
  default : Option Iface
  thrown : List String
  /-- The router reads its device. -/
  attached : Bool
  /-- History: the saves that were answered with an error, and whether they reached
  the file. -/
  unsaved : List (Store × Bool)
deriving DecidableEq, Repr

namespace Host

def device (host : Host) (iface : Iface) : Option Device := find host.devices iface

def setDevice (host : Host) (iface : Iface) (device : Device) : Host :=
  { host with devices := put host.devices iface device }

/-- A device goes, and with it the route into it. -/
def drop (host : Host) (iface : Iface) : Host :=
  { host with
    devices := erase host.devices iface
    default := if host.default = some iface then none else host.default }

end Host

/-- What a control socket is told about a peer. -/
inductive Line
  | remove (key : String)
  | peer (key presharedKey address : String)
deriving DecidableEq, Repr

def allowed (address : String) : String := address ++ "/32"

def Line.apply (peers : Peers) : Line → Peers
  | .remove key => erase peers key
  | .peer key presharedKey address =>
    put
      (peers.map fun e => (e.1, { e.2 with
        allowedIps := e.2.allowedIps.filter fun ip => ! decide (ip = allowed address) }))
      key ⟨presharedKey, [allowed address]⟩

/-- What the host is told to do, and says whether it did. -/
inductive Effect
  | save (store : Store)
  | start (iface : Iface)
  /-- The keys and parameters of a device. -/
  | configure (iface : Iface)
  | setPeers (iface : Iface) (lines : List Line)
  | addr (iface : Iface)
  | link (iface : Iface)
  | routeBlackhole
  | routeThrow (net : String)
  | routeDefault (iface : Iface)
  | ruleAdd (source : String)
  | ruleDel (source : String)
  | routeFlush
  | tuntap
  | nftApply
deriving DecidableEq

inductive Command
  | effect (e : Effect)
  /-- Whether a process has exited. -/
  | poll (iface : Iface)
  | kill (iface : Iface)
  /-- Terminate, wait, kill. -/
  | stop (iface : Iface)
  | getPeers (iface : Iface)
  /-- The latest handshake of the WARP device. -/
  | getHandshake
  | showRules
  /-- The flags of the router's device: whether it is read. -/
  | linkShow
  | nftDelete
  | register
  | clock
  | wall
  | sleep
deriving DecidableEq

def Answer : Command → Type
  | .effect _ | .poll _ => Bool
  | .kill _ | .stop _ | .nftDelete | .sleep => Unit
  | .getPeers _ => Option Peers
  | .getHandshake => Option Int
  | .showRules => Option (List String)
  | .linkShow => Option Bool
  | .register => Option Account
  | .clock | .wall => ℚ

/-- How the host answers. -/
inductive Hint
  | done
  /-- An error, with the effect or without. -/
  | failed (landed : Bool)
  /-- An error of a control socket, and the peers it left. -/
  | torn (peers : Peers)
  | time (now : ℚ)
  | handshake (seconds : Int)
  | account (account : Account)

/-- A command that does something or says it could not. -/
def attempt (host after : Host) : Hint → Option (Bool × Host)
  | .done => some (true, after)
  | .failed landed => some (false, if landed then after else host)
  | _ => none

/-- The same where it needs a device. -/
def attemptOn (host : Host) (iface : Iface) (after : Device → Host) : Hint → Option (Bool × Host)
  | .done => (host.device iface).map fun device => (true, after device)
  | .failed landed => some (false, match host.device iface with
    | some device => if landed then after device else host
    | none => host)
  | _ => none

def Effect.respond (host : Host) : Effect → Hint → Option (Bool × Host)
  | .save store, .failed landed => some (false, { host with
      disk := if landed then store else host.disk, unsaved := host.unsaved ++ [(store, landed)] })
  | .save store, hint => attempt host { host with disk := store } hint
  | .start _, .failed _ => some (false, host)
  | .start iface, hint => attempt host (host.setDevice iface ⟨false, []⟩) hint
  | .configure iface, hint => attemptOn host iface (fun _ => host) hint
  | .setPeers iface _, .torn peers => some (false, match host.device iface with
    | some device => host.setDevice iface { device with peers }
    | none => host)
  | .setPeers iface lines, .done => attemptOn host iface (fun device =>
    host.setDevice iface { device with peers := lines.foldl Line.apply device.peers }) .done
  | .setPeers _ _, _ => none
  | .addr iface, hint => attemptOn host iface (fun _ => host) hint
  | .link iface, hint => attemptOn host iface (fun device =>
    host.setDevice iface { device with up := true }) hint
  | .routeBlackhole, hint => attempt host { host with blackhole := true } hint
  | .routeThrow net, hint => attempt host { host with thrown := host.thrown ++ [net] } hint
  | .routeDefault iface, hint =>
    attemptOn host iface (fun _ => { host with default := some iface }) hint
  | .ruleAdd source, hint => attempt host { host with rules := host.rules ++ [source] } hint
  | .ruleDel source, hint =>
    attempt host { host with rules := host.rules.filter fun s => ! decide (s = source) } hint
  | .routeFlush, hint =>
    attempt host { host with blackhole := false, default := none, thrown := [] } hint
  | .tuntap, hint => attempt host (host.setDevice .router ⟨false, []⟩) hint
  | .nftApply, hint => attempt host host hint

/-- **What the host does**, and what it answers. -/
def respond (host : Host) : (c : Command) → Hint → Option (Answer c × Host)
  | .effect e, hint => e.respond host hint
  | .poll iface, .done => some ((host.device iface).isNone, host)
  | .kill iface, .done => some ((), host.drop iface)
  | .stop iface, .done => some ((), host.drop iface)
  | .getPeers iface, .done => (host.device iface).map fun device => (some device.peers, host)
  | .getPeers _, .failed _ => some (none, host)
  | .getHandshake, .handshake seconds => (host.device .warp).map fun _ => (some seconds, host)
  | .getHandshake, .failed _ => some (none, host)
  | .showRules, .done => some (some host.rules, host)
  | .showRules, .failed _ => some (none, host)
  | .linkShow, .done => some ((host.device .router).map fun _ => host.attached, host)
  | .linkShow, .failed _ => some (none, host)
  | .nftDelete, .done => some ((), host)
  | .register, .account account => some (some account, host)
  | .register, .failed _ => some (none, host)
  | .clock, .time now => some (now, host)
  | .wall, .time now => some (now, host)
  | .sleep, .done => some ((), host)
  | _, _ => none

/-! ## The memory -/

/-- One server: a protocol version on its device. -/
structure Tunnel where
  process : Bool
  configured : Bool
  dirty : Bool
  failures : Nat
  startedAt : ℚ
  nextStart : ℚ
  lastFull : ℚ

/-- The WARP process, and what is known of the routing. -/
structure Egress where
  process : Bool
  configured : Bool
  failures : Nat
  nextStart : ℚ
  startedAt : ℚ
  lastNetwork : ℚ
  networkOk : Bool

structure Memory where
  store : Store
  tunnels : String → Tunnel
  lastNft : ℚ
  egress : Egress

def fullReconcileSeconds : ℚ := 30
def deviceReadySeconds : ℚ := 10
def maxBackoffSeconds : ℚ := 30
def stableSeconds : ℚ := 60
def handshakeFresh : ℚ := 180
def networkRecheck : ℚ := 30
def maxHistory : Nat := 10

def backoff (failures : Nat) : ℚ := min maxBackoffSeconds (2 ^ min (failures - 1) 16)

def Tunnel.fresh : Tunnel := ⟨false, false, true, 0, 0, 0, 0⟩

def Egress.fresh : Egress := ⟨false, false, 0, 0, 0, -networkRecheck, false⟩

namespace Memory

def setTunnel (memory : Memory) (version : String) (tunnel : Tunnel) : Memory :=
  { memory with tunnels := Function.update memory.tunnels version tunnel }

def document (memory : Memory) : Document := memory.store.document

def provider (memory : Memory) : Option Provider := memory.store.egress.document

def setEgress (memory : Memory) (egress : Egress) : Memory := { memory with egress }

def setSection (memory : Memory) (egress : Section) : Memory :=
  { memory with store := { memory.store with egress } }

end Memory

/-- **What a manager runs with.** The keys of a device are written in hexadecimal,
which only canonical base64 keys have, each its own. -/
structure Site where
  sha256 : String → String
  hexkey : String → Option String
  hexkey_isSome : ∀ text, isKey text = true → (hexkey text).isSome
  hexkey_injective : ∀ text other key, hexkey text = some key → hexkey other = some key →
    text = other
  versions : List (String × Net)
  versions_nodup : (versions.map Prod.fst).Nodup
  /-- The node has a device for the Xray router. -/
  routerTun : Bool

namespace Site

def instances (site : Site) : List Instance :=
  site.versions.map fun e => ⟨e.1, e.2.hosts.map formatV4⟩

/-- The sources to be steered. -/
def subnets (site : Site) : List String := (site.versions.map fun e => e.2.text).dedup

end Site

/-! ## Programs -/

abbrev Program (α : Type) := Prog Command Answer Empty α

/-- Tell the host to do something. -/
def tell (e : Effect) : Program Bool := Prog.ask (Command.effect e)

/-- Ask it for something. -/
def ask (c : Command) : Program (Answer c) := Prog.ask c

def exited (iface : Iface) : Program Bool := ask (.poll iface)

def clock : Program ℚ := ask .clock

def wall : Program ℚ := ask .wall

/-- The rest only where the first part succeeded. -/
def check (first : Program Bool) (rest : Program Bool) : Program Bool :=
  first.bind fun ok => if ok then rest else .ret false

/-- One after another while they succeed. -/
def every {α : Type} (items : List α) (f : α → Program Bool) : Program Bool :=
  match items with
  | [] => .ret true
  | item :: items => check (f item) (every items f)

section Tunnels

variable (site : Site)

/-- The enabled peers of a version: preshared key and address by public key. -/
def desired (document : Document) (version : String) : Option (List (String × String × String)) :=
  document.peers.foldlM (fun out e =>
    if e.2.version = version ∧ e.2.enabled = true then do
      let key ← site.hexkey e.2.publicKey
      let presharedKey ← site.hexkey e.2.presharedKey
      some (put out key (presharedKey, e.2.address))
    else some out) []

/-- What a device has to be told: which peers go, and which are not as wanted. -/
def reconcileLines (live : Peers) (want : List (String × String × String)) : List Line :=
  ((live.filter fun e => (find want e.1).isNone).map fun e => Line.remove e.1)
    ++ ((want.filter fun e =>
      ! decide (find live e.1 = some ⟨e.2.1, [allowed e.2.2]⟩)).map
        fun e => Line.peer e.1 e.2.1 e.2.2)

def reconcilePeers (memory : Memory) (version : String) (now : ℚ) : Program Memory := do
  let tunnel := memory.tunnels version
  match ← ask (.getPeers (.tunnel version)) with
  | none => return memory.setTunnel version { tunnel with configured := false }
  | some live =>
    match desired site memory.document version with
    | none => return memory
    | some want =>
      let lines := reconcileLines live want
      let ok ← if lines = [] then pure true else tell (.setPeers (.tunnel version) lines)
      if ok then return memory.setTunnel version { tunnel with dirty := false, lastFull := now }
      else return memory.setTunnel version { tunnel with configured := false }

def configureTunnel (memory : Memory) (version : String) (now : ℚ) : Program Memory := do
  let tunnel := memory.tunnels version
  if ← tell (.configure (.tunnel version)) then
    if ← check (tell (.addr (.tunnel version))) (tell (.link (.tunnel version))) then
      reconcilePeers site (memory.setTunnel version { tunnel with configured := true }) version now
    else return memory
  else if deviceReadySeconds < now - tunnel.startedAt then
    let _ ← ask (.kill (.tunnel version))
    return memory
  else return memory

/-- A process that has exited is taken note of. -/
def reap (memory : Memory) (version : String) (now : ℚ) : Program Memory := do
  let tunnel := memory.tunnels version
  if tunnel.process then
    if ← exited (.tunnel version) then
      let failures := (if stableSeconds < now - tunnel.startedAt then 0 else tunnel.failures) + 1
      return memory.setTunnel version
        { tunnel with process := false, configured := false, failures,
                      nextStart := now + backoff failures }
    else return memory
  else return memory

/-- A missing process is started when its time has come. -/
def launch (memory : Memory) (version : String) (now : ℚ) : Program Memory := do
  let tunnel := memory.tunnels version
  if tunnel.process ∨ now < tunnel.nextStart then return memory
  else if ← tell (.start (.tunnel version)) then
    return memory.setTunnel version
      { tunnel with process := true, configured := false, dirty := true, startedAt := now }
  else
    return memory.setTunnel version
      { tunnel with failures := tunnel.failures + 1, nextStart := now + backoff (tunnel.failures + 1) }

def supervise (memory : Memory) (version : String) (now : ℚ) : Program Memory := do
  let memory ← reap memory version now
  let memory ← launch memory version now
  let tunnel := memory.tunnels version
  if tunnel.process = false then return memory
  else if tunnel.configured = false then configureTunnel site memory version now
  else if tunnel.dirty ∨ fullReconcileSeconds ≤ now - tunnel.lastFull then
    reconcilePeers site memory version now
  else return memory

def superviseAll (memory : Memory) (now : ℚ) : Program Memory :=
  site.versions.foldlM (fun memory e => supervise site memory e.1 now) memory

end Tunnels

section Egress

variable (site : Site)

def thrownNets : List String :=
  ["10.0.0.0/8", "172.16.0.0/12", "192.168.0.0/16", "100.64.0.0/10", "169.254.0.0/16",
    "127.0.0.0/8", "224.0.0.0/4"]

/-- Whether the router reads its device, where there is one. -/
def routerFlags : Program (Option Bool) :=
  if site.routerTun then ask .linkShow else .ret none

def routerAttached : Program Bool := do
  return (← routerFlags site).any id

def ensureRouterDevice : Program Unit := do
  let flags ← routerFlags site
  let _ ← check (if flags.isNone then tell .tuntap else .ret true)
    (check (tell (.addr .router)) (tell (.link .router)))
  return ()

def stopProcess (memory : Memory) : Program Memory := do
  if memory.egress.process then
    let _ ← ask (.stop .warp)
    return memory.setEgress { memory.egress with process := false, configured := false }
  else return memory.setEgress { memory.egress with configured := false }

def throwBack : Program Bool := every thrownNets fun net => tell (.routeThrow net)

def routeDevice (iface : Iface) (routed : Bool) : Program Bool :=
  if routed then tell (.routeDefault iface) else .ret true

/-- The rules that are missing are added, and those of no subnet are deleted. -/
def setRules : Program Bool :=
  (ask .showRules).bind fun
    | none => .ret false
    | some have_ =>
      check (every (site.subnets.filter fun s => ! decide (s ∈ have_)) fun s => tell (.ruleAdd s))
        (every (have_.dedup.filter fun s => ! decide (s ∈ site.subnets)) fun s => tell (.ruleDel s))

/-- The commands of the routing. The blackhole comes first: from there on nothing
in the table falls through. -/
def routing (iface : Iface) (routed : Bool) : Program Bool :=
  check (tell .routeBlackhole) (check throwBack (check (routeDevice iface routed) (setRules site)))

def egressNetwork (memory : Memory) (now : ℚ) (iface : Iface) : Program Memory := do
  let routed := iface != .warp || memory.egress.configured
  if ← routing site iface routed then
    return memory.setEgress { memory.egress with lastNetwork := now, networkOk := routed }
  else
    return memory.setEgress { memory.egress with lastNetwork := -networkRecheck, networkOk := false }

/-- Back to direct: rules out, table flushed, the tunnel stopped. -/
def egressTeardown (memory : Memory) : Program Memory := do
  let _ ← (ask .showRules).bind fun
    | none => .ret false
    | some rules => every rules.dedup fun s => tell (.ruleDel s)
  let _ ← tell .routeFlush
  let memory ← stopProcess memory
  return memory.setEgress { memory.egress with networkOk := false }

def reapEgress (memory : Memory) (now : ℚ) : Program Memory := do
  let egress := memory.egress
  if egress.process then
    if ← exited .warp then
      return memory.setEgress { egress with
        process := false, configured := false, failures := egress.failures + 1
        nextStart := now + backoff (egress.failures + 1) }
    else return memory
  else return memory

def launchEgress (memory : Memory) (now : ℚ) : Program Memory := do
  let egress := memory.egress
  if egress.process ∨ now < egress.nextStart then return memory
  else if ← tell (.start .warp) then
    return memory.setEgress { egress with process := true, configured := false, startedAt := now }
  else
    return memory.setEgress { egress with
      failures := egress.failures + 1, nextStart := now + backoff (egress.failures + 1) }

def egressSupervise (memory : Memory) (now : ℚ) : Program Memory := do
  let memory ← reapEgress memory now
  let memory ← launchEgress memory now
  let egress := memory.egress
  if egress.process = false ∨ egress.configured then return memory
  else if ← check (tell (.configure .warp)) (check (tell (.addr .warp)) (tell (.link .warp))) then
    return memory.setEgress { egress with
      configured := true, failures := 0, lastNetwork := -networkRecheck }
  else if 10 < now - egress.startedAt then
    let _ ← ask (.kill .warp)
    return memory
  else return memory

/-- Whether the routing is looked at again. -/
def recheck (memory : Memory) (now : ℚ) : Bool :=
  decide (networkRecheck ≤ now - memory.egress.lastNetwork)

def convergeRouter (memory : Memory) (now : ℚ) (force : Bool) : Program Memory := do
  let memory ← stopProcess memory
  if force || ! memory.egress.networkOk || recheck memory now then
    egressNetwork site memory now .router
  else return memory

def convergeWarp (memory : Memory) (now : ℚ) (force : Bool) : Program Memory := do
  let memory ← egressSupervise memory now
  if force || ! memory.egress.networkOk || recheck memory now then
    egressNetwork site memory now .warp
  else return memory

def convergeDirect (memory : Memory) (now : ℚ) (force : Bool) : Program Memory := do
  if force || memory.egress.process || recheck memory now then
    let memory ← egressTeardown memory
    return memory.setEgress { memory.egress with lastNetwork := now }
  else return memory

def egressConverge (memory : Memory) (now : ℚ) (force : Bool) : Program Memory := do
  if site.routerTun && (force || recheck memory now
      || (memory.provider = some .router && ! memory.egress.networkOk)) then
    ensureRouterDevice site
  match memory.provider with
  | some .router => convergeRouter site memory now force
  | some .warp =>
    if memory.store.egress.warp.isSome then convergeWarp site memory now force
    else convergeDirect memory now force
  | none => convergeDirect memory now force

/-- The time of the last handshake, zero where there is none. -/
def egressStats (memory : Memory) : Program Int := do
  if memory.egress.process && memory.egress.configured then
    return (← ask .getHandshake).getD 0
  else return 0

def isFresh (handshake : Int) (wall : ℚ) : Bool :=
  decide (handshake ≠ 0 ∧ wall - handshake ≤ handshakeFresh)

def egressReady (memory : Memory) : Provider → Program Bool
  | .warp => do
    let handshake ← egressStats memory
    return isFresh handshake (← wall)
  | .router => if memory.egress.networkOk then routerAttached site else .ret false

/-- Half a second a round: the rounds that fit into twelve seconds. -/
def awaitRounds : Nat := 25

def egressAwaitReady (memory : Memory) (provider : Provider) : Nat → Program (Memory × Bool)
  | 0 => .ret (memory, false)
  | rounds + 1 => do
    let memory ← egressConverge site memory (← clock) false
    if ← egressReady site memory provider then return (memory, true)
    else
      let _ ← ask .sleep
      egressAwaitReady memory provider rounds

/-- Forget what was configured, so that it is set again. -/
def resetDataplane (memory : Memory) : Memory :=
  memory.setEgress { memory.egress with configured := false, lastNetwork := -networkRecheck }

/-! ### Changes of the egress -/

def egressError (status : Nat) (code detail : String) : ApiError := ⟨status, code, detail⟩

/-- A WARP account, registered where there is none and one is needed. -/
def registered (memory : Memory) (target : Option Provider) :
    Program (Option (Option Account)) := do
  if target = some .warp ∧ memory.store.egress.warp = none then
    return (← ask .register).map some
  else return some memory.store.egress.warp

/-- The store is pruned and written. -/
def saveEgress (memory : Memory) : Program (Memory × Bool) := do
  let memory := { memory with store := memory.store.pruned }
  return (memory, ← tell (.save memory.store))

def unreachable : Provider → ApiError
  | .router =>
    egressError 503 "egress_unreachable" "the Xray-router does not read the AmneziaWG device"
  | .warp => egressError 503 "egress_unreachable" "the WARP tunnel did not complete a handshake"

/-- Back to the section before, with the registration kept. -/
def putBack (memory : Memory) (previous : Section) (provider : Provider) :
    Program (Memory × Except ApiError Unit) := do
  let memory := memory.setSection
    { previous with warp := memory.store.egress.warp, revision := previous.revision + 2 }
  let (memory, saved) ← saveEgress memory
  if saved then
    let memory ← egressConverge site (resetDataplane memory) (← clock) true
    return (memory, .error (unreachable provider))
  else return (memory, .error .internal)

/-- The new history is saved and brought into force; a provider that does not come
up is taken back. -/
def bringUp (memory : Memory) (previous : Section) (target : Option Provider) :
    Program (Memory × Except ApiError Unit) := do
  let (memory, saved) ← saveEgress memory
  if saved then
    let memory ← egressConverge site (resetDataplane memory) (← clock) true
    match target with
    | none => return (memory, .ok ())
    | some provider =>
      let (memory, ready) ← egressAwaitReady site memory provider awaitRounds
      if ready then return (memory, .ok ()) else putBack site memory previous provider
  else return (memory, .error .internal)

def egressSwitch (memory : Memory) (history : List Entry) (target : Option Provider) :
    Program (Memory × Except ApiError Unit) := do
  let previous := memory.store.egress
  if target = some .router ∧ site.routerTun = false then
    return (memory, .error
      (egressError 422 "egress_invalid" "this node's AmneziaWG has no Xray-router device"))
  else
    match ← registered memory target with
    | none => return (memory, .error
        (egressError 503 "egress_unreachable" "WARP registration failed"))
    | some warp =>
      bringUp site (memory.setSection ⟨previous.revision + 1, history, warp⟩) previous target

def isSchema : Json → Bool
  | .int value => value == 1
  | .float value => decide (value = ⟨false, [1], 0⟩)
  | _ => false

/-- Direct, or through one provider. -/
def validateDocument : Json → Except ApiError (Option Provider)
  | .obj fields =>
    if fields.length = 2 ∧ (find fields "schema").any isSchema = true then
      match find fields "upstream" with
      | none => shape
      | some .null => .ok none
      | some (.obj [("provider", .str "warp")]) => .ok (some .warp)
      | some (.obj [("provider", .str "router")]) => .ok (some .router)
      | some _ => .error
          (egressError 422 "egress_invalid" "AmneziaWG's upstream is warp or router")
    else shape
  | _ => shape
where
  shape : Except ApiError (Option Provider) :=
    .error (egressError 422 "egress_invalid" "egress document must be \x7bschema: 1, upstream\x7d")

def checkRevision (memory : Memory) (expected : Field) : Except ApiError Unit :=
  if expected.asStr = some (toString memory.store.egress.revision) then .ok ()
  else .error (egressError 409 "egress_conflict" "the egress revision changed")

/-- What an egress request comes to before anything is done: a switch to a history,
or an answer. -/
inductive Switch
  | replay (target : Option Provider)
  | go (history : List Entry) (target : Option Provider)
deriving DecidableEq, Repr

def planApply (memory : Memory) (expected : Field) (document : Json) (operationId : Field) :
    Except ApiError Switch := do
  match operationId.asStr with
  | some op =>
    if ! isOperationId op then throw (egressError 422 "egress_invalid" "invalid operation id")
    let target ← validateDocument document
    let history := memory.store.egress.history
    match history.getLast?.filter fun last => last.operationId = op with
    | some last =>
      if last.document ≠ target then
        throw (egressError 409 "egress_conflict" "operation id already used for another request")
      return .replay target
    | none =>
      checkRevision memory expected
      let history := history ++ [⟨target, op⟩]
      return .go (history.drop (history.length - maxHistory)) target
  | none => throw (egressError 422 "egress_invalid" "invalid operation id")

def planRollback (memory : Memory) (expected : Field) : Except ApiError Switch := do
  checkRevision memory expected
  let history := memory.store.egress.history
  if history = [] then
    throw (egressError 409 "egress_no_previous" "no previous egress to roll back to")
  let rest := history.dropLast
  return .go rest (rest.getLast?.bind Entry.document)

/-- The answer to an egress request: the target, and whether it was answered before. -/
abbrev Applied := Option Provider × Bool

def runSwitch (memory : Memory) :
    Except ApiError Switch → Program (Memory × Except ApiError Applied)
  | .error error => .ret (memory, .error error)
  | .ok (.replay target) => .ret (memory, .ok (target, true))
  | .ok (.go history target) => do
    let (memory, result) ← egressSwitch site memory history target
    return (memory, result.map fun _ => (target, false))

end Egress

section Requests

variable (site : Site)

def applyNft (memory : Memory) : Program Memory := do
  let now ← clock
  let _ ← tell .nftApply
  return { memory with lastNft := now }

/-- **One supervision pass.** -/
def tick (memory : Memory) : Program Memory := do
  let now ← clock
  let memory ← superviseAll site memory now
  let memory ← if fullReconcileSeconds ≤ now - memory.lastNft then applyNft memory else pure memory
  egressConverge site memory now false

/-- A change is told to the running device, as well as it goes. -/
def liveChange (memory : Memory) (version : String) (lines : List Line) : Program Memory := do
  let tunnel := memory.tunnels version
  if site.versions.any (fun e => e.1 = version) && tunnel.configured && lines ≠ [] then
    if ← tell (.setPeers (.tunnel version) lines) then return memory
    else return memory.setTunnel version { tunnel with dirty := true }
  else return memory

def peerLines (peer : Peer) : List Line :=
  match site.hexkey peer.publicKey, site.hexkey peer.presharedKey with
  | some key, some presharedKey => [.peer key presharedKey peer.address]
  | _, _ => []

def removeLines (peer : Peer) : List Line :=
  match site.hexkey peer.publicKey with
  | some key => [.remove key]
  | none => []

/-- What a call tells the device, from the peer before and after it. -/
def liveLines (before after : Option Peer) : Call → List Line
  | .create _ => (after.map (peerLines site)).getD []
  | .setEnabled _ enabled =>
    (before.map fun peer => if enabled then peerLines site peer else removeLines site peer).getD []
  | .rotate _ _ =>
    (before.map fun peer => removeLines site peer
      ++ if peer.enabled then (after.map (peerLines site)).getD [] else []).getD []
  | .delete _ => (before.map fun peer => if peer.enabled then removeLines site peer else []).getD []

/-- A call that changes peers: saved first, told to the device afterwards. -/
def peerCall (memory : Memory) (c : Call) : Program (Memory × Except ApiError Unit) := do
  let now ← wall
  match plan site.sha256 site.instances memory.document ⌊now⌋ c with
  | .error error => return (memory, .error error)
  | .ok ⟨none, _⟩ => return (memory, .ok ())
  | .ok ⟨some desired, username⟩ =>
    let store := { memory.store with document := desired.pruned }
    if ← tell (.save store) then
      let before := find memory.document.peers username
      let after := find store.document.peers username
      let version := ((before.or after).map Peer.version).getD ""
      let memory ← liveChange site { memory with store } version (liveLines site before after c)
      return (memory, .ok ())
    else return (memory, .error .internal)

/-- A peer of an enabled version lies in its subnet. -/
def inSubnet (peer : Peer) : Bool :=
  match find site.versions peer.version with
  | none => true
  | some net => (parseV4 peer.address).any net.contains

/-- A start: the state is loaded, checked and completed, and supervised once. -/
def bootstrap (disk : Store) : Program (Option Memory) := do
  let missing := (site.versions.map Prod.fst).filter fun v => ! decide (v ∈ disk.instances)
  let store := { disk with instances := disk.instances ++ missing }
  if ! disk.document.peers.all fun e => inSubnet site e.2 then return none
  else
    let saved ← if missing = [] then pure true else tell (.save store.pruned)
    if saved then
      let store := if missing = [] then store else store.pruned
      let memory ← applyNft ⟨store, fun _ => Tunnel.fresh, 0, Egress.fresh⟩
      return some (← tick site memory)
    else return none

def stopTunnel (memory : Memory) (version : String) : Program Memory := do
  let tunnel := memory.tunnels version
  if tunnel.process then
    let _ ← ask (.stop (.tunnel version))
    return memory.setTunnel version { tunnel with configured := false, process := false }
  else return memory.setTunnel version { tunnel with configured := false }

def shutdown (memory : Memory) : Program Unit := do
  let memory ← site.versions.foldlM (fun memory e => stopTunnel memory e.1) memory
  let _ ← egressTeardown memory
  ask .nftDelete

end Requests

/-! ## The manager and its host -/

inductive Request
  | tick
  | peer (call : Call)
  | apply (expected : Field) (document : Json) (operationId : Field)
  | rollback (expected : Field)

/-- What a request ended with. -/
inductive Reply
  | silent
  | peer (result : Except ApiError Unit)
  | egress (result : Except ApiError Applied)
deriving DecidableEq

/-- What is left in memory, and the answer; nothing where the manager has ended. -/
abbrev Ending := Option (Memory × Reply)

def Request.program (site : Site) (memory : Memory) : Request → Program Ending
  | .tick => do return some (← Service.tick site memory, .silent)
  | .peer c => do
    let (memory, result) ← peerCall site memory c
    return some (memory, .peer result)
  | .apply expected document operationId => do
    let (memory, result) ← runSwitch site memory (planApply memory expected document operationId)
    return some (memory, .egress result)
  | .rollback expected => do
    let (memory, result) ← runSwitch site memory (planRollback memory expected)
    return some (memory, .egress result)

inductive Manager
  | down
  | idle (memory : Memory) (last : Reply)
  | busy (program : Program Ending)

structure State where
  host : Host
  manager : Manager

inductive Event
  /-- The manager is started. -/
  | boot
  | request (request : Request)
  /-- It is told to end. -/
  | shutdown
  /-- The host answers the command that is asked for. -/
  | perform (hint : Hint)
  /-- A program is through. -/
  | finish
  | crash
  /-- A process dies. -/
  | die (iface : Iface)
  /-- The router opens its device, or lets go of it. -/
  | attach (attached : Bool)

def step (site : Site) (s : State) : Event → Option State
  | .boot =>
    match s.manager with
    | .down => some { s with manager := .busy do
        return (← bootstrap site s.host.disk).map fun memory => (memory, .silent) }
    | _ => none
  | .request request =>
    match s.manager with
    | .idle memory _ => some { s with manager := .busy (request.program site memory) }
    | _ => none
  | .shutdown =>
    match s.manager with
    | .idle memory _ => some { s with manager := .busy do
        let _ ← Service.shutdown site memory
        return none }
    | _ => none
  | .perform hint =>
    match s.manager with
    | .busy (.call c k) =>
      (respond s.host c hint).map fun (answer, host) => ⟨host, .busy (k answer)⟩
    | _ => none
  | .finish =>
    match s.manager with
    | .busy (.ret (some (memory, reply))) => some { s with manager := .idle memory reply }
    | .busy (.ret none) => some { s with manager := .down }
    | _ => none
  | .crash => some { s with manager := .down }
  | .die iface => some { s with host := s.host.drop iface }
  | .attach attached => some { s with host := { s.host with attached } }

end AmneziaWG.Service
