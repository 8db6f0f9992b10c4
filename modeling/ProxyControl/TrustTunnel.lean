import ProxyControl.Run
import ProxyControl.Table

/-!
# The TrustTunnel manager

The manager owns the clients of one endpoint process. Its document – the
clients, the operations it has answered, the egress – lives in memory and in
`state.json`, and three settings files are printed from it for the endpoint,
which reads them when it starts and at no other time. A call changes the
document in memory first, then saves it, then writes the settings files that
differ, and asks for a restart where one of them did.

Every write can fail, and in two ways: before the new file is renamed into
place, and after it, when the directory cannot be synced. A failed write ends
the call with an error; what the call did to memory and to the files before
it stays.

Times are milliseconds. The reload that follows a certificate change is left
out: the endpoint then reads its certificates again and `hosts.toml`, which
says the same for as long as the manager runs.
-/

namespace TrustTunnel

open Table
open Run (Outcome)

/-! ## The document -/

structure Client where
  password : String
  enabled : Bool
  revision : Nat
  rx : Nat
  tx : Nat
  lastOut : Nat
  lastIn : Nat
deriving DecidableEq, Repr

/-- What an operation id was used for. -/
structure Operation where
  fingerprint : String
  username : String
deriving DecidableEq, Repr

/-- How the endpoint reaches the network. -/
inductive Mode
  | direct
  | socks5
deriving DecidableEq, Repr

structure EgressDocument where
  mode : Mode
  address : Option String
deriving DecidableEq, Repr

/-- The state document. -/
structure Document where
  clients : List (String × Client)
  /-- In the order of arrival. -/
  operations : List (String × Operation)
  placeholder : Option String
  egress : EgressDocument
  previous : Option EgressDocument
  /-- One client per name, in their order. -/
  sorted : Table.Sorted clients
deriving DecidableEq, Repr

/-- The document of a manager that has never run. -/
def Document.empty : Document := ⟨[], [], none, ⟨.direct, none⟩, none, List.Pairwise.nil⟩

/-- The operations kept in the document. -/
@[irreducible] def maxOperations : Nat := 2000

/-- The document a save writes: the oldest operations are dropped. -/
def Document.pruned (doc : Document) : Document :=
  { doc with operations := doc.operations.drop (doc.operations.length - maxOperations) }

/-- The document as `state.json` holds it: the operations by their id. -/
def Document.stored (doc : Document) : Document :=
  { doc with operations := doc.operations.insertionSort fun a b => a.1 ≤ b.1 }

@[simp] theorem Document.stored_stored (doc : Document) : doc.stored.stored = doc.stored := by
  unfold Document.stored
  congr 1
  exact (List.pairwise_insertionSort _ _).insertionSort_eq

/-! ## The settings files -/

/-- The name of the internal client that keeps the credentials file from being
empty. -/
def placeholderUsername : String := "proxy-control-idle"

/-- A character of a TOML basic string. -/
def tomlChar (ch : Char) : String :=
  if ch = '\\' then "\\\\"
  else if ch = '"' then "\\\""
  else if ch.toNat < 0x20 ∨ ch.toNat = 0x7f then
    "\\u" ++ String.ofList ((Nat.toDigits 16 ch.toNat).leftpad 4 '0')
  else ch.toString

def tomlString (value : String) : String :=
  "\"" ++ String.join (value.toList.map tomlChar) ++ "\""

/-- **The credentials the endpoint accepts**: the internal client's, and those
of the enabled clients. -/
def Document.credentials (doc : Document) : List (String × String) :=
  (placeholderUsername, doc.placeholder.getD "")
    :: (doc.clients.filter fun e => e.2.enabled).map fun e => (e.1, e.2.password)

@[simp] theorem Document.credentials_pruned (doc : Document) :
    doc.pruned.credentials = doc.credentials := by
  rfl

@[simp] theorem Document.egress_pruned (doc : Document) : doc.pruned.egress = doc.egress := by
  rfl

/-- The lines of one client. -/
def clientLines (entry : String × String) : List String :=
  ["[[client]]", "username = " ++ tomlString entry.1, "password = " ++ tomlString entry.2, ""]

/-- The configuration the settings are printed from. -/
structure Config where
  hostname : String
  listen : String
  metrics : String
  cert : String
  key : String
  /-- The path of `credentials.toml`. -/
  credentialsFile : String
  restartDelay : Int
  pollInterval : Int

/-- The settings files of the endpoint. -/
inductive File
  | credentials
  | vpn
  | hosts
deriving DecidableEq, Repr

/-- The forwarding section of `vpn.toml`. -/
def forwardText (document : EgressDocument) : String :=
  match document.mode with
  | .socks5 =>
    "[forward_protocol.socks5]\naddress = " ++ tomlString (document.address.getD "")
      ++ "\nextended_auth = false\n"
  | .direct => "[forward_protocol]\ndirect = \x7b\x7d\n"

/-- `vpn.toml`. -/
def vpnText (cfg : Config) (document : EgressDocument) : String :=
  "listen_address = " ++ tomlString cfg.listen ++ "\n"
    ++ "ipv6_available = false\n"
    ++ "allow_private_network_connections = false\n"
    ++ "tls_handshake_timeout_secs = 10\n"
    ++ "client_listener_timeout_secs = 600\n"
    ++ "connection_establishment_timeout_secs = 30\n"
    ++ "tcp_connections_timeout_secs = 604800\n"
    ++ "udp_connections_timeout_secs = 300\n"
    ++ "credentials_file = " ++ tomlString cfg.credentialsFile ++ "\n\n"
    ++ "[listen_protocols.http1]\nupload_buffer_size = 32768\n\n"
    ++ "[listen_protocols.http2]\n"
    ++ "initial_connection_window_size = 8388608\n"
    ++ "initial_stream_window_size = 131072\n"
    ++ "max_concurrent_streams = 1000\n"
    ++ "max_frame_size = 16384\n"
    ++ "header_table_size = 65536\n\n"
    ++ forwardText document ++ "\n"
    ++ "[metrics]\naddress = " ++ tomlString cfg.metrics ++ "\nrequest_timeout_secs = 3\n"
    ++ "per_client_metrics = true\n"

/-- `hosts.toml`. -/
def hostsText (cfg : Config) : String :=
  "[[main_hosts]]\nhostname = " ++ tomlString cfg.hostname
    ++ "\ncert_chain_path = " ++ tomlString cfg.cert
    ++ "\nprivate_key_path = " ++ tomlString cfg.key ++ "\n"

/-- **What a settings file says of a document.** -/
def text (cfg : Config) (doc : Document) : File → String
  | .credentials => String.intercalate "\n" (doc.credentials.flatMap clientLines)
  | .vpn => vpnText cfg doc.egress
  | .hosts => hostsText cfg

/-- The settings files depend on the credentials and on the egress. -/
theorem text_congr (cfg : Config) {doc doc' : Document} (hcred : doc'.credentials = doc.credentials)
    (hegr : doc'.egress = doc.egress) (f : File) : text cfg doc' f = text cfg doc f := by
  cases f with
  | credentials => rw [text, text, hcred]
  | vpn => rw [text, text, hegr]
  | hosts => rfl

/-- Dropped operations are not printed. -/
@[simp] theorem text_pruned (cfg : Config) (doc : Document) (f : File) :
    text cfg doc.pruned f = text cfg doc f :=
  text_congr cfg doc.credentials_pruned doc.egress_pruned f

/-! ## Writes -/

/-- How the writes of a call end. -/
structure Writes where
  state : Outcome
  settings : File → Outcome

/-- No write fails. -/
def Writes.done : Writes := ⟨.done, fun _ => .done⟩

/-- The files. -/
structure Disk where
  /-- The document in `state.json`. -/
  state : Option Document
  settings : File → Option String

/-- **The manager**: what it keeps in memory, what is on disk, and the
endpoint. The last four fields record what happened: how often a settings
file was replaced, at which of these editions the endpoint was started, and
which of its own failures a call has not made good. -/
structure Manager where
  doc : Document
  disk : Disk
  /-- When a requested restart is due. -/
  restartAt : Option Int
  nextPoll : Int
  failures : Nat
  nextStart : Int
  startedAt : Int
  sessions : List (String × Nat)
  /-- How many times a settings file was replaced. -/
  edition : Nat
  /-- The edition the endpoint was started at, where it runs. -/
  endpoint : Option Nat
  /-- The last save did not reach `state.json`. -/
  unsaved : Bool
  /-- A call failed, and none since has written everything. -/
  unwritten : Bool

/-- The document is pruned and written. -/
def save (m : Manager) (w : Outcome) : Manager × Bool :=
  ({ m with
      doc := m.doc.pruned
      disk := { m.disk with state := if w.lands then some m.doc.pruned.stored else m.disk.state }
      unsaved := ! w.lands },
    decide (w = .done))

@[simp] theorem save_unwritten (m : Manager) (w : Outcome) :
    (save m w).1.unwritten = m.unwritten := by
  rfl

/-- A settings file is replaced where it differs. `none` is the error,
otherwise whether it was replaced. -/
def put (m : Manager) (f : File) (content : String) (w : Outcome) : Manager × Option Bool :=
  if m.disk.settings f = some content then (m, some false)
  else
    (if w.lands then
      { m with
        disk := { m.disk with settings := Function.update m.disk.settings f (some content) }
        edition := m.edition + 1 }
      else m,
    if w = .done then some true else none)

/-- The files in turn, up to the first error. -/
def writeFiles (cfg : Config) (w : File → Outcome) :
    Manager → List File → Manager × Option Bool
  | m, [] => (m, some false)
  | m, f :: fs =>
    match put m f (text cfg m.doc f) (w f) with
    | (m', none) => (m', none)
    | (m', some changed) =>
      match writeFiles cfg w m' fs with
      | (m'', none) => (m'', none)
      | (m'', some more) => (m'', some (changed || more))

/-- The order the files are written in. -/
def File.all : List File := [.credentials, .vpn, .hosts]

/-- A restart already requested stays when it is. -/
def requestRestart (cfg : Config) (m : Manager) (now : Int) : Manager :=
  { m with restartAt := m.restartAt.orElse fun _ => some (now + cfg.restartDelay) }

/-! ## Calls -/

structure ApiError where
  status : Nat
  code : String
  detail : String
deriving DecidableEq, Repr

namespace ApiError

def invalidRequest (detail : String) : ApiError := ⟨422, "invalid_request", detail⟩

def internal : ApiError := ⟨500, "internal_error", "manager operation failed"⟩

end ApiError

/-- A length in bytes, and only allowed characters. -/
def charsIn (text : String) (low high : Nat) (allowed : Char → Bool) : Bool :=
  decide (low ≤ text.utf8ByteSize ∧ text.utf8ByteSize ≤ high) && text.toList.all allowed

def isUsername (text : String) : Bool :=
  charsIn text 1 64 fun c => c.isAlphanum || c == '_' || c == '.' || c == '-'

/-- Printable ASCII without the space. -/
def isPassword (text : String) : Bool :=
  charsIn text 8 128 fun c => decide (0x21 ≤ c.toNat ∧ c.toNat ≤ 0x7e)

def isOperationId (text : String) : Bool :=
  charsIn text 1 128 fun c => c.isAlphanum || c == '.' || c == '_' || c == ':' || c == '-'

/-- A loopback address with a port of four or five
digits. -/
def isEgressAddress (text : String) : Bool :=
  let port := text.toList.drop 10
  decide (text.toList.take 10 = "127.0.0.1:".toList)
    && decide (4 ≤ port.length ∧ port.length ≤ 5) && port.all Char.isDigit
    && decide (1024 ≤ (String.ofList port).toNat?.getD 0 ∧ (String.ofList port).toNat?.getD 0 ≤ 65535)

/-- A value of a request body: nothing, a text, or something else. -/
inductive Field
  | null
  | text (value : String)
  | other
deriving DecidableEq, Repr

def Field.asStr : Field → Option String
  | .text value => some value
  | _ => none

abbrev Body := List (String × Field)

/-- A field of a body, `null` where it is missing. -/
def Body.get (body : Body) (key : String) : Field := (find body key).getD .null

/-- No field but these. -/
def checkFields (body : Body) (allowed : List String) : Except ApiError Unit :=
  if body.all fun e => allowed.contains e.1 then .ok ()
  else .error (.invalidRequest "invalid request fields")

/-- A text field that passes its check. -/
def checkText (body : Body) (key : String) (ok : String → Bool) (detail : String) :
    Except ApiError String :=
  match (body.get key).asStr with
  | some value => if ok value then .ok value else .error (.invalidRequest detail)
  | none => .error (.invalidRequest detail)

def operationId (body : Body) : Except ApiError String :=
  checkText body "operation_id" isOperationId "invalid operation_id"

def password (body : Body) : Except ApiError String :=
  checkText body "password" isPassword "invalid password"

/-- The user name of a new client. -/
def newUsername (body : Body) : Except ApiError String :=
  if (body.get "username").asStr = some placeholderUsername then
    .error ⟨422, "reserved_username", "this username is reserved"⟩
  else checkText body "username" isUsername "invalid username"

def normalizeEgress (body : Body) : Except ApiError EgressDocument := do
  checkFields body ["mode", "address"]
  match (body.get "mode").asStr with
  | some "direct" =>
    if body.get "address" = .null ∨ body.get "address" = .text "" then .ok ⟨.direct, none⟩
    else .error (.invalidRequest "direct mode takes no address")
  | some "socks5" =>
    let address ← checkText body "address" isEgressAddress "address must be 127.0.0.1:PORT"
    .ok ⟨.socks5, some address⟩
  | _ => .error (.invalidRequest "mode must be direct or socks5")

inductive Call
  | create (body : Body)
  | setEnabled (username : String) (enabled : Bool)
  | rotate (username : String) (body : Body)
  | delete (username : String)
  | egressApply (body : Body)
  | egressRollback
deriving DecidableEq, Repr

/-- What a success answers with. -/
inductive Answer
  | client (username : String)
  | done
  | egress
deriving DecidableEq, Repr

/-- **What a call comes to**: a change of the document or nothing to do, and
the answer. -/
structure Plan where
  change : Option Document
  answer : Answer
deriving DecidableEq, Repr

-- The hex digest of a text.
variable (sha256 : String → String)

/-- What a request asked for. -/
def fingerprint (kind username password : String) : String :=
  sha256 (kind ++ "\x00" ++ username ++ "\x00" ++ password)

/-- The client of a request that was answered before, an error where
the id was used for another request. -/
def replay (doc : Document) (op fingerprint : String) : Except ApiError (Option String) :=
  match find doc.operations op with
  | none => .ok none
  | some known =>
    if known.fingerprint ≠ fingerprint then
      .error ⟨409, "operation_conflict", "operation_id was used for another request"⟩
    else .ok (some known.username)

def existing (doc : Document) (username : String) : Except ApiError Client :=
  match find doc.clients username with
  | some client => .ok client
  | none => .error ⟨404, "not_found", "client not found"⟩

/-- The document after a client is put under a name. -/
def Document.setClient (doc : Document) (username : String) (client : Client) : Document :=
  { doc with
    clients := putSorted doc.clients username client
    sorted := doc.sorted.putSorted username client }

/-- The document after a name is dropped. -/
def Document.dropClient (doc : Document) (username : String) : Document :=
  { doc with
    clients := erase doc.clients username
    sorted := doc.sorted.erase username }

/-- The document after every client is changed, each with its name. -/
def Document.mapClients (doc : Document) (f : String → Client → Client) : Document :=
  { doc with
    clients := doc.clients.map fun e => (e.1, f e.1 e.2)
    sorted := doc.sorted.map f }

/-- The document after an operation is recorded. -/
def Document.record (doc : Document) (op fingerprint username : String) : Document :=
  { doc with operations := Table.put doc.operations op ⟨fingerprint, username⟩ }

/-- `create_client`, up to its writes. -/
def createClient (doc : Document) (body : Body) : Except ApiError Plan := do
  checkFields body ["operation_id", "username", "password"]
  let op ← operationId body
  let username ← newUsername body
  let password ← password body
  match ← replay doc op (fingerprint sha256 "create" username password) with
  | some replayed =>
    if (find doc.clients replayed).isSome then .ok ⟨none, .client replayed⟩
    else .error ⟨409, "operation_conflict", "the client of this operation was deleted"⟩
  | none =>
    if (find doc.clients username).isSome then
      .error ⟨409, "exists", "client already exists"⟩
    else
      .ok ⟨some ((doc.setClient username ⟨password, true, 1, 0, 0, 0, 0⟩).record op
        (fingerprint sha256 "create" username password) username), .client username⟩

/-- `set_enabled`, up to its writes. -/
def setEnabled (doc : Document) (username : String) (enabled : Bool) : Except ApiError Plan := do
  let client ← existing doc username
  if client.enabled = enabled then .ok ⟨none, .client username⟩
  else
    .ok ⟨some (doc.setClient username { client with enabled, revision := client.revision + 1 }),
      .client username⟩

/-- `rotate`, up to its writes. -/
def rotate (doc : Document) (username : String) (body : Body) : Except ApiError Plan := do
  checkFields body ["operation_id", "password"]
  let op ← operationId body
  let password ← password body
  let client ← existing doc username
  match ← replay doc op (fingerprint sha256 "rotate" username password) with
  | some _ => .ok ⟨none, .client username⟩
  | none =>
    .ok ⟨some ((doc.setClient username
      { client with password, revision := client.revision + 1 }).record op
        (fingerprint sha256 "rotate" username password) username), .client username⟩

/-- `delete_client`, up to its writes. -/
def deleteClient (doc : Document) (username : String) : Plan :=
  if (find doc.clients username).isSome then
    ⟨some (doc.dropClient username), .done⟩
  else ⟨none, .done⟩

/-- `egress_apply`, up to its writes. -/
def egressApply (doc : Document) (body : Body) : Except ApiError Plan := do
  let proposed ← normalizeEgress body
  if proposed = doc.egress then .ok ⟨none, .egress⟩
  else .ok ⟨some { doc with egress := proposed, previous := some doc.egress }, .egress⟩

/-- `egress_rollback`, up to its writes. -/
def egressRollback (doc : Document) : Except ApiError Plan :=
  match doc.previous with
  | none => .error ⟨409, "no_previous", "nothing to roll back to"⟩
  | some previous => .ok ⟨some { doc with egress := previous, previous := none }, .egress⟩

def plan (doc : Document) : Call → Except ApiError Plan
  | .create body => createClient sha256 doc body
  | .setEnabled username enabled => setEnabled doc username enabled
  | .rotate username body => rotate sha256 doc username body
  | .delete username => .ok (deleteClient doc username)
  | .egressApply body => egressApply doc body
  | .egressRollback => egressRollback doc

/-- What a client's answer shows of it. -/
structure View where
  username : String
  enabled : Bool
  revision : Nat
  rx : Nat
  tx : Nat
  sessions : Nat
deriving DecidableEq, Repr

/-- What a success says. -/
inductive Reply
  | client (view : Option View)
  | done
  | egress (document : EgressDocument) (revision : String)
deriving DecidableEq, Repr

/-- The digest of the document's JSON text. No mode and no
address has a character that is escaped in it. -/
def egressRevision (document : EgressDocument) : String :=
  sha256 ("\x7b\"address\":"
    ++ (match document.address with
      | some address => "\"" ++ address ++ "\""
      | none => "null")
    ++ ",\"mode\":\""
    ++ (match document.mode with
      | .direct => "direct"
      | .socks5 => "socks5")
    ++ "\"\x7d")

/-- The answer of a manager. -/
def Answer.reply (m : Manager) : Answer → Reply
  | .client username =>
    .client ((find m.doc.clients username).map fun client =>
      ⟨username, client.enabled, client.revision, client.rx, client.tx,
        (find m.sessions username).getD 0⟩)
  | .done => .done
  | .egress => .egress m.doc.egress (egressRevision sha256 m.doc.egress)

/-- Save, write the settings, and ask for a restart where one of
them was replaced. -/
def mutated (cfg : Config) (m : Manager) (now : Int) (w : Writes) :
    Manager × Except ApiError Unit :=
  match save m w.state with
  | (m', false) => ({ m' with unwritten := true }, .error .internal)
  | (m', true) =>
    match writeFiles cfg w.settings m' File.all with
    | (m'', none) => ({ m'' with unwritten := true }, .error .internal)
    | (m'', some changed) =>
      ({ (if changed then requestRestart cfg m'' now else m'') with unwritten := false }, .ok ())

/-- **A call.** Memory changes first, and stays changed where a write fails. -/
def call (cfg : Config) (m : Manager) (c : Call) (now : Int) (w : Writes) :
    Manager × Except ApiError Reply :=
  match plan sha256 m.doc c with
  | .error e => (m, .error e)
  | .ok ⟨none, answer⟩ => (m, .ok (answer.reply sha256 m))
  | .ok ⟨some doc, answer⟩ =>
    match mutated cfg { m with doc } now w with
    | (m', .error e) => (m', .error e)
    | (m', .ok ()) => (m', .ok (answer.reply sha256 m'))

/-! ## Supervision -/

/-- A row of the endpoint's metrics: one client address. -/
structure Row where
  username : Option String
  inbound : Nat
  outbound : Nat
  sessions : Nat

/-- The sum of a client's rows. -/
structure Reading where
  inbound : Nat
  outbound : Nat
  sessions : Nat
deriving DecidableEq, Repr

def saturatingAdd (a b : Nat) : Nat := min (a + b) (2 ^ 64 - 1)

/-- The rows summed per user name. -/
def aggregate (rows : List Row) : List (String × Reading) :=
  rows.foldl (fun out row =>
    match row.username with
    | none => out
    | some name =>
      let slot := (find out name).getD ⟨0, 0, 0⟩
      putSorted out name
        ⟨saturatingAdd slot.inbound row.inbound, saturatingAdd slot.outbound row.outbound,
          saturatingAdd slot.sessions row.sessions⟩) []

/-- The new total and the new raw reading. A lower reading means the
counter was reset. -/
def fold (total lastRaw reading : Nat) : Nat × Nat :=
  (saturatingAdd total (if lastRaw ≤ reading then reading - lastRaw else reading), reading)

/-- A client after a reading is folded in. -/
def Client.count (client : Client) (reading : Reading) : Client :=
  { client with
    rx := (fold client.rx client.lastOut reading.outbound).1
    lastOut := (fold client.rx client.lastOut reading.outbound).2
    tx := (fold client.tx client.lastIn reading.inbound).1
    lastIn := (fold client.tx client.lastIn reading.inbound).2 }

/-- A client after the readings are folded in. -/
def countIn (readings : List (String × Reading)) (username : String) (client : Client) : Client :=
  match find readings username with
  | some reading => client.count reading
  | none => client

/-- Read the counters, and save where a client has one. -/
def poll (m : Manager) (rows : Option (List Row)) (w : Outcome) : Manager :=
  match rows with
  | none => m
  | some rows =>
    let readings := aggregate rows
    let m' := { m with
      sessions := readings.map fun e => (e.1, e.2.sessions)
      doc := m.doc.mapClients (countIn readings) }
    if m.doc.clients.any fun e => (find readings e.1).isSome then (save m' w).1 else m'

/-- What a supervision pass meets. -/
structure Surroundings where
  /-- The certificate and its key are there. -/
  certificate : Bool
  /-- The endpoint process can be started. -/
  starts : Bool
  /-- What the metrics listener answers. -/
  rows : Option (List Row)
  /-- How the save of the counters and the save before a restart end. -/
  saves : Outcome × Outcome

/-- With a certificate, and not before the backoff has passed. -/
def maybeStart (m : Manager) (now : Int) (env : Surroundings) : Manager :=
  if m.endpoint.isSome || ! env.certificate || decide (now < m.nextStart) then m
  else
    let m' := { m with failures := m.failures + 1 }
    let m' := if env.starts then { m' with endpoint := some m.edition, startedAt := now } else m'
    { m' with nextStart := now + min 30000 (1000 * 2 ^ min m'.failures 5) }

/-- The last reading, the counters reset, and a new process. -/
def restart (m : Manager) (now : Int) (env : Surroundings) : Manager :=
  let m := if m.endpoint.isSome then poll m env.rows env.saves.1 else m
  let m := { m with
    endpoint := none
    doc := m.doc.mapClients fun _ client => { client with lastIn := 0, lastOut := 0 }
    sessions := [] }
  maybeStart { (save m env.saves.2).1 with failures := 0, nextStart := 0 } now env

def tick (cfg : Config) (m : Manager) (now : Int) (env : Surroundings) : Manager :=
  if m.restartAt.any fun due => decide (due ≤ now) then
    restart { m with restartAt := none } now env
  else if m.endpoint.isSome then
    let m := if 60000 ≤ now - m.startedAt then { m with failures := 0 } else m
    if m.nextPoll ≤ now then
      poll { m with nextPoll := now + cfg.pollInterval } env.rows env.saves.1
    else m
  else maybeStart m now env

/-- What can happen next. -/
inductive Event
  | call (c : Call) (now : Int) (w : Writes)
  | tick (now : Int) (env : Surroundings)
  /-- The endpoint process ends by itself. -/
  | exit

/-- The manager after an event. -/
def next (cfg : Config) (m : Manager) : Event → Manager
  | .call c now w => (call sha256 cfg m c now w).1
  | .tick now env => tick cfg m now env
  | .exit => { m with endpoint := none }

/-- **What an event does.** -/
def step (cfg : Config) (m : Manager) (e : Event) : Option Manager := some (next sha256 cfg m e)

/-- The document is read, given an internal client where it has
none, and the settings are written; any failure stops the manager. -/
def bootstrap (cfg : Config) (disk : Disk) (token : String) (now : Int) (w : Writes)
    (env : Surroundings) : Option Manager :=
  let doc := disk.state.getD .empty
  let m : Manager := ⟨doc, disk, none, now + cfg.pollInterval, 0, 0, 0, [], 0, none, false, false⟩
  let ready : Manager × Bool :=
    if doc.placeholder.getD "" = "" then
      save { m with doc := { doc with placeholder := some token } } w.state
    else (m, true)
  match ready with
  | (_, false) => none
  | (m', true) =>
    match writeFiles cfg w.settings m' File.all with
    | (_, none) => none
    | (m'', some _) => some (maybeStart m'' now env)

end TrustTunnel
