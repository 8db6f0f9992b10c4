import ProxyControl.Generations

/-!
# The central's auto-import

A central panel visits its linked nodes, and on every visit it reads the node's
inventory and adopts the users the node runs on its own: a grant for each of them,
of a client that carries the runtime name. Then it delivers the node's latest
generation, or polls for it.

A visit (`syncClient`) is a program over the commands `Cmd`: the calls to the node,
the transactions of the central's database, and the pusher's own memory of the
inventory it adopted last. Planning (`planAutoImport`), checking (`pendingImports`),
the capture of the credentials and the import (`importPending`) are separate steps,
done for a first batch – one account of every name that has no client yet – and
then for the rest. Visits of different nodes run side by side, and the steps of
one fall between the steps of the others; a lock keeps two visits of one node
apart.

An error in the middle of the import is one of two kinds. Some are logged and the
visit goes on; the others end the visit before anything is delivered.

Of the database the model keeps what these steps read: the clients in the order of
the listing, the grants, the links, and of every node the latest generation with
its resources. What the push and the poll do after the visit decided for them, the
audit rows and the routing sections of a generation are left out.
-/

namespace Importer

open Table
open Reconciler (Protocol)

variable {Raw Opts : Type}

/-- A user a runtime serves. -/
abbrev Key := Protocol × String

/-- A row of an inventory. -/
structure Account (Raw : Type) where
  runtimeUsername : String
  enabled : Bool
  options : Raw
  /-- `ownership` is `central`. -/
  central : Bool

/-- **What a node says it runs**: under every protocol, users of different names. -/
structure Inventory (Raw : Type) where
  rows : Protocol → List (Account Raw)
  distinct : ∀ protocol, ((rows protocol).map (·.runtimeUsername)).Nodup

inductive ClientState
  | active | suspended | archived
deriving DecidableEq, Repr

structure Client where
  id : Nat
  displayName : String
  state : ClientState
deriving DecidableEq, Repr

inductive GrantDesiredState
  | enabled | disabled | deleted
deriving DecidableEq, Repr

inductive GrantObservedState
  | unknown | pending | enabled | disabled | missing
deriving DecidableEq, Repr

/-- A grant on the default endpoint of a node. `version` is the version of its
credential, if one is stored. -/
structure Grant (Opts : Type) where
  id : Nat
  client : Nat
  protocol : Protocol
  node : String
  runtimeUsername : String
  version : Option Nat
  desired : GrantDesiredState
  observed : GrantObservedState
  imported : Bool
  options : Opts
  validFrom : Option Int
  validUntil : Option Int

def Grant.key (grant : Grant Opts) : Key := (grant.protocol, grant.runtimeUsername)

/-- What a generation says about one grant. -/
structure Resource (Opts : Type) where
  reference : Nat
  protocol : Protocol
  runtimeUsername : String
  desired : GrantDesiredState
  version : Nat
  imported : Bool
  options : Opts
  validFrom : Option Int
  validUntil : Option Int
deriving DecidableEq

structure Generation (Opts : Type) where
  number : Nat
  resources : List (Resource Opts)
  pushedAt : Option Int

/-- What a node last reported: the generation, and whether it is still applying it. -/
structure Observed where
  appliedGeneration : Nat
  applying : Bool

structure Link where
  enabled : Bool
  autoImport : Bool
  configDirty : Bool
  acknowledged : Nat
  /-- The node declared `protocol.amneziawg.v1`. -/
  amneziawg : Bool
  /-- The node declared `protocol.trusttunnel.v1`. -/
  trusttunnel : Bool

/-- **The central**: its database, and the digest of the inventory that was adopted
last from each node, which the pusher keeps in memory. -/
structure Central (Opts : Type) where
  clients : List Client
  grants : List (Grant Opts)
  links : List (String × Link)
  generations : List (String × Generation Opts)
  observed : List (String × Observed)
  nextId : Nat
  adopted : List (String × String)

inductive NodeError
  | unreachable | authFailed | rejected (status : Nat) | invalidAnswer
deriving DecidableEq, Repr

def NodeError.isClientError : NodeError → Bool
  | .invalidAnswer => false
  | _ => true

inductive CentralError
  | node (error : NodeError)
  | notFound (id : String)
  | unknownClient (id : Nat)
  | invalid (message : String)
  | clients (message : String)
  | internal (message : String)
deriving DecidableEq, Repr

/-- What the code takes from elsewhere: the options models of the three protocols
that can be imported, and the digest of an inventory, which no two inventories
share. -/
structure Site (Raw Opts : Type) where
  mtproxyOptions : Raw → Except String Opts
  naiveOptions : Raw → Except String Opts
  mieruOptions : Raw → Except String Opts
  digest : Inventory Raw → String
  digest_injective : Function.Injective digest

/-! ## The database -/

/-- `^[A-Za-z0-9_.-]\x7b1,64\x7d$` -/
def isUsername (text : String) : Bool :=
  decide (1 ≤ text.length ∧ text.length ≤ 64)
    && text.toList.all fun c => c.isAlphanum || c = '_' || c = '.' || c = '-'

def Central.findGrant (central : Central Opts) (protocol : Protocol) (node username : String) :
    Option (Grant Opts) :=
  central.grants.find? fun grant =>
    grant.protocol = protocol ∧ grant.node = node ∧ grant.runtimeUsername = username

/-- The client of a name: the first in the listing that is not archived. -/
def Central.clientNamed (central : Central Opts) (name : String) : Option Nat :=
  (central.clients.find? fun client => client.displayName = name ∧ client.state ≠ .archived).map
    (·.id)

def Central.newClient (central : Central Opts) (displayName : String) : Central Opts × Nat :=
  ({ central with
      clients := central.clients ++ [⟨central.nextId, displayName, .active⟩]
      nextId := central.nextId + 1 }, central.nextId)

/-- What a node's generation says about a grant. A grant of a client that is not
active is disabled. -/
def Central.resourceOf (central : Central Opts) (grant : Grant Opts) : Resource Opts :=
  { reference := grant.id
    protocol := grant.protocol
    runtimeUsername := grant.runtimeUsername
    desired :=
      if grant.desired = .enabled
          ∧ (central.clients.find? (·.id = grant.client)).map (·.state) ≠ some .active then
        .disabled
      else grant.desired
    version := grant.version.getD 1
    imported := grant.imported
    options := grant.options
    validFrom := grant.validFrom
    validUntil := grant.validUntil }

/-- Whether a node's generation has a resource for the grant. -/
def Central.carries (central : Central Opts) (node : String) (grant : Grant Opts) : Bool :=
  let link := find central.links node
  ! decide (grant.desired = .deleted ∧ grant.observed = .missing)
    && (grant.protocol ≠ .amneziawg || link.any (·.amneziawg))
    && (grant.protocol ≠ .trusttunnel || link.any (·.trusttunnel))

/-- The node's grants as they are. The ids increase, which is the order of the
references. -/
def Central.compile (central : Central Opts) (node : String) : List (Resource Opts) :=
  ((central.grants.filter fun grant => grant.node = node).filter (central.carries node)).map
    central.resourceOf

def maxResources : Nat := 500

/-- Publish the node's next generation, if it says anything new. -/
def Central.publish [DecidableEq Opts] (node : String) (central : Central Opts) :
    Except CentralError (Central Opts) :=
  let resources := central.compile node
  let insert (number : Nat) : Central Opts :=
    { central with
      generations := put central.generations node ⟨number, resources, none⟩
      links := central.links.map fun (node', link) =>
        if node' = node then (node', { link with configDirty := true }) else (node', link) }
  if resources.length ≤ maxResources ∧ resources.all fun r => isUsername r.runtimeUsername then
    match find central.generations node with
    | none => .ok (insert 1)
    | some latest =>
      if latest.resources = resources then .ok central else .ok (insert (latest.number + 1))
  else .error (.clients "the generation is not valid")

/-- The change of a client: every linked node with a grant of it gets its next
generation. -/
def Central.notify [DecidableEq Opts] (central : Central Opts) (client : Nat) :
    Except CentralError (Central Opts) :=
  let nodes := (((central.grants.filter fun grant => grant.client = client).map
    (·.node)).filter fun node => (find central.links node).isSome).eraseDups
  nodes.foldlM (fun central node => central.publish node) central

/-! ## Planning and importing -/

/-- An account to import, of a client that exists or of a new one. -/
structure ImportItem where
  protocol : Protocol
  runtimeUsername : String
  client : Option Nat
deriving DecidableEq, Repr

def ImportItem.key (item : ImportItem) : Key := (item.protocol, item.runtimeUsername)

def label (key : Key) : String := s!"{key.1.asStr}:{key.2}"

/-- The options the panel may own, `none` for a protocol that import does not
cover. -/
def optionsFromRuntime (site : Site Raw Opts) (protocol : Protocol) (row : Raw) :
    Option (Except String Opts) :=
  match protocol with
  | .mtproxy => some (site.mtproxyOptions row)
  | .naive => some (site.naiveOptions row)
  | .mieru => some (site.mieruOptions row)
  | .amneziawg | .trusttunnel => none

/-- The accounts of an inventory, protocol by protocol in the order of their
names. -/
def Inventory.accounts (inventory : Inventory Raw) : List (Protocol × Account Raw) :=
  Protocol.all.flatMap fun protocol => (inventory.rows protocol).map (Prod.mk protocol)

/-- Plan one account: the decisions so far, and the clients assigned to names. -/
def planAccount (central : Central Opts) (node : String)
    (acc : List ImportItem × List (String × Nat)) (row : Protocol × Account Raw) :
    List ImportItem × List (String × Nat) :=
  let username := row.2.runtimeUsername
  if username = "" then acc
  else if row.2.central then acc
  else if (central.findGrant row.1 node username).isSome then acc
  else
    let target := find acc.2 username <|> central.clientNamed username
    (acc.1 ++ [⟨row.1, username, target⟩],
      match target with
      | some client => put acc.2 username client
      | none => acc.2)

/-- **What to import**: every account that is not the central's and has no grant, to
the client of its name. -/
def planAutoImport (central : Central Opts) (node : String) (inventory : Inventory Raw) :
    List ImportItem :=
  (inventory.accounts.foldl (planAccount central node) ([], [])).1

/-- The first batch: the accounts of clients that exist, and of every other name
one. -/
def batchOf (decisions : List ImportItem) : List ImportItem :=
  (decisions.foldl (fun (acc : List ImportItem × List String) item =>
    if item.client.isSome then (acc.1 ++ [item], acc.2)
    else if item.runtimeUsername ∈ acc.2 then acc
    else (acc.1 ++ [item], item.runtimeUsername :: acc.2)) ([], [])).1

def Inventory.find (inventory : Inventory Raw) (key : Key) : Option (Account Raw) :=
  (inventory.rows key.1).find? fun account => account.runtimeUsername = key.2

/-- Check one decision against the inventory and the database. -/
def checkItem (central : Central Opts) (node : String) (inventory : Inventory Raw)
    (acc : List (ImportItem × Account Raw) × List String) (item : ImportItem) :
    Except CentralError (List (ImportItem × Account Raw) × List String) :=
  match inventory.find item.key with
  | none => .error (.invalid s!"the node does not run {label item.key}")
  | some account =>
    if (central.findGrant item.protocol node item.runtimeUsername).isSome then
      .ok (acc.1, acc.2 ++ [label item.key])
    else if account.central then
      .error (.invalid s!"{label item.key} is already managed by a central panel")
    else
      match item.client with
      | none => .ok (acc.1 ++ [(item, account)], acc.2)
      | some client =>
        if central.clients.any (·.id = client) then .ok (acc.1 ++ [(item, account)], acc.2)
        else .error (.unknownClient client)

/-- The decisions that are still to be carried out, with the rows of their accounts,
and those that are linked already. -/
def pendingImports (central : Central Opts) (node : String) (decisions : List ImportItem)
    (inventory : Inventory Raw) :
    Except CentralError (List (ImportItem × Account Raw) × List String) :=
  decisions.foldlM (checkItem central node inventory) ([], [])

/-- The client of a decision, made now if need be. -/
def Central.clientOf (central : Central Opts) (item : ImportItem) : Central Opts × Nat :=
  match item.client with
  | some client => (central, client)
  | none => central.newClient item.runtimeUsername

/-- Import one account: a new client if need be, and the grant. -/
def importItem (site : Site Raw Opts) (node : String) (credentials : List (String × String))
    (central : Central Opts) (entry : ImportItem × Account Raw) :
    Except CentralError (Central Opts × Nat) :=
  let (item, account) := entry
  let (central, client) := central.clientOf item
  match optionsFromRuntime site item.protocol account.options with
  | none => .error (.internal s!"no runtime option importer for {item.protocol.asStr}")
  | some (.error message) => .error (.clients message)
  | some (.ok options) =>
    if (central.findGrant item.protocol node item.runtimeUsername).isSome then
      .error (.clients "runtime_username is already granted on this endpoint")
    else
      .ok ({ central with
        grants := central.grants ++
          [{ id := central.nextId
             client := client
             protocol := item.protocol
             node := node
             runtimeUsername := item.runtimeUsername
             version := ((find credentials (label item.key)).filter (· ≠ "")).map fun _ => 1
             desired := if account.enabled then .enabled else .disabled
             observed := if account.enabled then .enabled else .disabled
             imported := true
             options := options
             validFrom := none
             validUntil := none }]
        nextId := central.nextId + 1 }, client)

/-- Import a list of accounts, and the clients it touched. -/
def importItems (site : Site Raw Opts) (node : String) (credentials : List (String × String)) :
    Central Opts → List (ImportItem × Account Raw) → Except CentralError (Central Opts × List Nat)
  | central, [] => .ok (central, [])
  | central, entry :: rest => do
    let (central, client) ← importItem site node credentials central entry
    let (central, touched) ← importItems site node credentials central rest
    return (central, client :: touched)

/-- **The import transaction**: all of the accounts, and the generations that carry
them; an error undoes everything. -/
def importPending [DecidableEq Opts] (site : Site Raw Opts) (node : String)
    (pending : List (ImportItem × Account Raw)) (credentials : List (String × String))
    (central : Central Opts) : Except CentralError (Central Opts) := do
  let (central, touched) ← importItems site node credentials central pending
  touched.eraseDups.foldlM Central.notify central

/-! ## A visit -/

/-- What the node declares in its identity. -/
structure Capabilities where
  amneziawg : Bool
  trusttunnel : Bool

/-- What a visit asks for. -/
inductive Cmd (Raw : Type)
  | identity (node : String)
  | status (node : String)
  /-- The transaction of the heartbeat; it reads the link and the generations. -/
  | heartbeat (node : String) (capabilities : Capabilities)
  | inventory (node : String)
  | adoptedDigest (node : String)
  | rememberAdopted (node digest : String)
  | clientFor (node : String)
  | plan (node : String) (inventory : Inventory Raw)
  | pending (node : String) (decisions : List ImportItem) (inventory : Inventory Raw)
  | capture (node : String) (accounts : List Key)
  | importPending (node : String) (pending : List (ImportItem × Account Raw))
      (credentials : List (String × String))
  /-- Read the generations once more. -/
  | generations (node : String)
  | time
  | deferred (node : String) (generation : Nat)

def Res (Opts : Type) : Cmd Raw → Type
  | .identity _ => Except NodeError Capabilities
  | .status _ => Except NodeError Unit
  | .heartbeat .. => Except CentralError (Link × Option (Generation Opts) × Option Observed)
  | .inventory _ => Except NodeError (Inventory Raw)
  | .adoptedDigest _ => Option String
  | .rememberAdopted .. => Unit
  | .clientFor _ => Except CentralError Unit
  | .plan .. => List ImportItem
  | .pending .. => Except CentralError (List (ImportItem × Account Raw) × List String)
  | .capture .. => Except NodeError (List (String × String))
  | .importPending .. => Except CentralError Unit
  | .generations _ => Option (Generation Opts) × Option Observed
  | .time => Int
  | .deferred .. => Bool

/-- A piece of a visit. -/
abbrev Op (Raw Opts α : Type) := Prog (Cmd Raw) (Res Opts) CentralError α

abbrev perform (c : Cmd Raw) : Op Raw Opts (Res Opts c) := Prog.ask c

/-- Import some accounts: how many there were. -/
def importResources (node : String) (decisions : List ImportItem) (inventory : Inventory Raw) :
    Op Raw Opts Nat := do
  let answer : Except CentralError Unit ← perform (.clientFor node)
  Prog.orFail answer
  let answer : Except CentralError (List (ImportItem × Account Raw) × List String) ←
    perform (.pending node decisions inventory)
  let (pending, _) ← Prog.orFail answer
  if pending.isEmpty then
    return 0
  else
    let answer : Except NodeError (List (String × String)) ←
      perform (.capture node (pending.map fun entry => entry.1.key))
    let credentials ← Prog.orFail (answer.mapError .node)
    let answer : Except CentralError Unit ← perform (.importPending node pending credentials)
    Prog.orFail answer
    return pending.length

/-- **Adopt the accounts of an inventory**: the first batch, then what is left. -/
def autoImport (node : String) (inventory : Inventory Raw) : Op Raw Opts Nat := do
  let answer : Except CentralError Unit ← perform (.clientFor node)
  Prog.orFail answer
  let decisions : List ImportItem ← perform (.plan node inventory)
  if decisions.isEmpty then
    return 0
  else
    let batch := batchOf decisions
    let imported ← importResources node batch inventory
    if batch.length < decisions.length then
      let rest : List ImportItem ← perform (.plan node inventory)
      if rest.isEmpty then
        return imported
      else
        let more ← importResources node rest inventory
        return imported + more
    else
      return imported

/-- The errors of an import that are logged; the others end the visit. -/
def CentralError.isLogged : CentralError → Bool
  | .invalid _ | .notFound _ | .node _ => true
  | _ => false

/-- Read the inventory and adopt it, unless it is the one adopted last: the
inventory, and whether anything was imported. -/
def adopt (site : Site Raw Opts) (node : String) :
    Op Raw Opts (Option (Inventory Raw) × Bool) := do
  let answer : Except NodeError (Inventory Raw) ← perform (.inventory node)
  match answer with
  | .error error =>
    if error.isClientError then return (none, false) else Prog.fail (.node error)
  | .ok inventory =>
    let digest := site.digest inventory
    let adopted : Option String ← perform (.adoptedDigest node)
    if adopted = some digest then
      return (some inventory, false)
    else
      let result ← (autoImport node inventory).attempt
      match result with
      | .ok imported =>
        perform (.rememberAdopted node digest)
        return (some inventory, decide (0 < imported))
      | .error error =>
        if error.isLogged then return (some inventory, false) else Prog.fail error

/-- What a visit does about the latest generation. -/
inductive Delivery
  | nothing | poll | deferred | push (generation : Nat)
deriving DecidableEq, Repr

/-- The node has the generation and is still applying it. -/
def Generation.inFlight {Opts : Type} (latest : Generation Opts) (observed : Option Observed)
    (now : Int) : Bool :=
  Generations.inFlight latest.number latest.pushedAt
    (observed.bind fun o => if o.applying then some (o.appliedGeneration : Int) else none) now

/-- Deliver or poll the latest generation. -/
def deliver (node : String) (link : Link) (latest : Option (Generation Opts))
    (observed : Option Observed) : Op Raw Opts Delivery := do
  match latest with
  | none => return .nothing
  | some latest =>
    if ! link.enabled then
      return .nothing
    else
      let now : Int ← perform .time
      if latest.inFlight observed now then
        return .poll
      else
        let deferred : Bool ← perform (.deferred node latest.number)
        if deferred then
          return .deferred
        else if link.configDirty || decide (link.acknowledged < latest.number) then
          return .push latest.number
        else if latest.resources.any fun r => r.validFrom.isSome || r.validUntil.isSome then
          -- Deadline enforcement changes runtime state without changing the generation.
          return .poll
        else
          return .nothing

/-- What a visit saw and did: the inventory, if it was to adopt it and could read it,
and the delivery, if it came to that. -/
structure Visit (Raw : Type) where
  inventory : Option (Inventory Raw)
  delivery : Option Delivery

/-- A node that does not answer is offline or refusing, which is recorded. -/
def heartbeatError (error : NodeError) : Op Raw Opts (Visit Raw) :=
  if error.isClientError then return ⟨none, none⟩ else Prog.fail (.node error)

/-- **One visit.** -/
def syncClient (site : Site Raw Opts) (node : String) : Op Raw Opts (Visit Raw) := do
  let answer : Except NodeError Capabilities ← perform (.identity node)
  match answer with
  | .error error => heartbeatError error
  | .ok capabilities =>
    let answer : Except NodeError Unit ← perform (.status node)
    match answer with
    | .error error => heartbeatError error
    | .ok _ =>
      let answer : Except CentralError (Link × Option (Generation Opts) × Option Observed) ←
        perform (.heartbeat node capabilities)
      match answer with
      | .error (.notFound _) => return ⟨none, none⟩
      | .error error => Prog.fail error
      | .ok (link, latest, observed) =>
        let (inventory, imported) ←
          if link.enabled && link.autoImport then adopt site node else pure (none, false)
        if imported then
          let (latest, observed) : Option (Generation Opts) × Option Observed ←
            perform (.generations node)
          let delivery ← deliver node link latest observed
          return ⟨inventory, some delivery⟩
        else
          let delivery ← deliver node link latest observed
          return ⟨inventory, some delivery⟩

/-! ## What a command does -/

/-- What the other side answers: the node, the clock and the pusher's backoff. -/
structure Reply (Raw : Type) where
  error : Option NodeError
  capabilities : Capabilities
  inventory : Inventory Raw
  credentials : List (String × String)
  time : Int
  deferred : Bool

def Reply.answer {α : Type} (reply : Reply Raw) (a : α) : Except NodeError α :=
  match reply.error with
  | none => .ok a
  | some error => .error error

def captureMaxResources : Nat := 200

/-- A node refuses a capture of too many users, or of one whose name is not valid. -/
def validCapture (accounts : List Key) : Bool :=
  decide (accounts.length ≤ captureMaxResources) && accounts.all fun key => isUsername key.2

/-- **What a command does to the central, and what it is answered.** -/
def respond [DecidableEq Opts] (site : Site Raw Opts) (central : Central Opts)
    (reply : Reply Raw) : (c : Cmd Raw) → Res Opts c × Central Opts
  | .identity _ => (reply.answer reply.capabilities, central)
  | .status _ => (reply.answer (), central)
  | .heartbeat node capabilities =>
    match find central.links node with
    | none => (.error (.notFound node), central)
    | some link =>
      let link := { link with
        amneziawg := capabilities.amneziawg
        trusttunnel := capabilities.trusttunnel }
      (.ok (link, find central.generations node, find central.observed node),
        { central with links := put central.links node link })
  | .inventory _ => (reply.answer reply.inventory, central)
  | .adoptedDigest node => (find central.adopted node, central)
  | .rememberAdopted node digest =>
    ((), { central with adopted := put central.adopted node digest })
  | .clientFor node =>
    (if (find central.links node).isSome then .ok () else .error (.notFound node), central)
  | .plan node inventory => (planAutoImport central node inventory, central)
  | .pending node decisions inventory =>
    (pendingImports central node decisions inventory, central)
  | .capture _ accounts =>
    (if validCapture accounts then reply.answer reply.credentials
      else .error (.rejected 422), central)
  | .importPending node pending credentials =>
    match Importer.importPending site node pending credentials central with
    | .ok central => (.ok (), central)
    | .error error => (.error error, central)
  | .generations node =>
    ((find central.generations node, find central.observed node), central)
  | .time => (reply.time, central)
  | .deferred .. => (reply.deferred, central)

/-! ## Runs -/

/-- The users of a node that have a grant. -/
def Central.keysOf (central : Central Opts) (node : String) : List Key :=
  (central.grants.filter fun grant => grant.node = node).map Grant.key

/-- What a visit was told about the generation it is to deliver, the last answer to each
question: the link, the latest generation and the node's last report, the time, and
whether the pusher puts the generation off. -/
structure Reading (Opts : Type) where
  link : Option Link := none
  latest : Option (Generation Opts) := none
  observed : Option Observed := none
  now : Int := 0
  deferred : Bool := false

/-- What an answer tells. -/
def Reading.note (reading : Reading Opts) : (c : Cmd Raw) → Res Opts c → Reading Opts
  | .heartbeat .., .ok (link, latest, observed) =>
    { reading with link := some link, latest, observed }
  | .generations _, (latest, observed) => { reading with latest, observed }
  | .time, now => { reading with now }
  | .deferred .., deferred => { reading with deferred }
  | _, _ => reading

/-- A visit in progress: the users that had a grant when it began, what it was told, and
what is left of it. -/
structure InProgress (Raw Opts : Type) where
  had : List Key
  reading : Reading Opts
  rest : Op Raw Opts (Visit Raw)

/-- A visit that has ended: the users that had a grant before and after it, what it was
told, and what came of it. -/
structure Ended (Raw Opts : Type) where
  node : String
  had : List Key
  has : List Key
  reading : Reading Opts
  result : Except CentralError (Visit Raw)

/-- The central, the visits in progress by node, and those that have ended, the last
one first. -/
structure State (Raw Opts : Type) where
  central : Central Opts
  running : List (String × InProgress Raw Opts)
  ended : List (Ended Raw Opts)

inductive Event (Raw : Type)
  /-- A visit of a linked node begins: a lock keeps two visits of one node apart. -/
  | sync (node : String)
  /-- The visit of a node performs its next command. -/
  | perform (node : String) (reply : Reply Raw)

/-- How a visit has ended, if it has. -/
def Prog.result {α : Type} : Op Raw Opts α → Option (Except CentralError α)
  | .ret a => some (.ok a)
  | .fail e => some (.error e)
  | .call .. => none

/-- **One step of the central.** -/
def step [DecidableEq Opts] (site : Site Raw Opts) (s : State Raw Opts) :
    Event Raw → Option (State Raw Opts)
  | .sync node =>
    if (find s.running node).isSome ∨ (find s.central.links node).isNone then none
    else
      some { s with
        running := put s.running node ⟨s.central.keysOf node, {}, syncClient site node⟩ }
  | .perform node reply =>
    match find s.running node with
    | some ⟨had, reading, .call c k⟩ =>
      let (answer, central) := respond site s.central reply c
      match Prog.result (k answer) with
      | none => some { s with
          central := central
          running := put s.running node ⟨had, reading.note c answer, k answer⟩ }
      | some result => some
          { central := central
            running := erase s.running node
            ended := ⟨node, had, central.keysOf node, reading.note c answer, result⟩ :: s.ended }
    | _ => none

end Importer
