import ProxyControl.Run
import ProxyControl.Table

/-!
# The AmneziaWG manager

The manager keeps the peers of several tunnels, one tunnel for each protocol
version that is enabled, in one document. A call that changes it works on the
document in memory and saves it; where the save fails the document before the
call is put back. The running tunnel is told of the change afterwards, and the
answer does not depend on whether it could be.

A call to create a peer or to rotate its keys carries an operation id, which is
kept with a digest of the request and the name it was for. The document keeps
two thousand of them and drops the oldest. A retry is answered from the
document as it is, where the name is still there; a peer that was deleted in the
meantime is created again.

The lines sent to the tunnels, the counters shown with a peer and the egress are
left out.
-/

namespace AmneziaWG

open Table
open Run (Outcome)

/-! ## The document -/

structure Peer where
  version : String
  publicKey : String
  presharedKey : String
  address : String
  enabled : Bool
  revision : Int
  createdAt : Int
  operationId : String
deriving DecidableEq, Repr

/-- What an operation id was used for. -/
structure Operation where
  digest : String
  username : String
deriving DecidableEq, Repr

structure Document where
  peers : List (String × Peer)
  /-- In the order of arrival. -/
  operations : List (String × Operation)
deriving DecidableEq, Repr

/-- The operations kept in the document. -/
@[irreducible] def maxOperations : Nat := 2000

/-- The document a save writes: the oldest operations are dropped. -/
def Document.pruned (doc : Document) : Document :=
  { doc with operations := doc.operations.drop (doc.operations.length - maxOperations) }

@[simp] theorem Document.peers_pruned (doc : Document) : doc.pruned.peers = doc.peers := by
  rfl

/-- A tunnel: its version and the addresses of its subnet. -/
structure Instance where
  version : String
  hosts : List String
deriving DecidableEq, Repr

/-! ## Requests -/

structure ApiError where
  status : Nat
  code : String
  detail : String
deriving DecidableEq, Repr

/-- `ApiError::invalid_request`. -/
def ApiError.invalid (detail : String) : ApiError := ⟨422, "invalid_request", detail⟩

def ApiError.internal : ApiError := ⟨500, "internal_error", "manager operation failed"⟩

/-- A value of a request body: a text, or something else. -/
inductive Field
  | text (value : String)
  | other
deriving DecidableEq, Repr

def Field.asStr : Field → Option String
  | .text value => some value
  | .other => none

abbrev Body := List (String × Field)

/-- A field of a body that has it. -/
def Body.get (body : Body) (key : String) : Field := (find body key).getD .other

/-- Exactly these. -/
def fields (body : Body) (required : List String) : Except ApiError Unit :=
  if body.length ≠ required.length ∨ ¬ required.all fun key => (find body key).isSome then
    .error (.invalid "invalid request fields")
  else .ok ()

def isUsername (text : String) : Bool :=
  let plain := fun c : Char => c.isLower || c.isDigit
  decide (1 ≤ text.utf8ByteSize ∧ text.utf8ByteSize ≤ 64)
    && text.toList.head?.any plain
    && text.toList.all fun c => plain c || c == '.' || c == '_' || c == '-'

def isOperationId (text : String) : Bool :=
  decide (1 ≤ text.utf8ByteSize ∧ text.utf8ByteSize ≤ 128)
    && text.toList.all fun c => c.isAlphanum || c == '.' || c == '_' || c == ':' || c == '-'

/-- A character of the base64 alphabet. -/
def isBase64 (c : Char) : Bool := c.isAlphanum || c == '+' || c == '/'

/-- `unb64` succeeds: the canonical base64 text of 32 bytes. The last character
before the padding carries four bits. -/
def isKey (text : String) : Bool :=
  let chars := text.toList
  decide (chars.length = 44) && (chars.take 43).all isBase64
    && (chars.drop 42).head?.any (fun c => "AEIMQUYcgkosw048".toList.contains c)
    && decide (chars.drop 43 = ['='])

/-- A text field that passes its check. -/
def checkText (body : Body) (name : String) (ok : String → Bool) : Except ApiError String :=
  match (body.get name).asStr with
  | some text => if ok text then .ok text else .error (.invalid ("invalid " ++ name))
  | none => .error (.invalid ("invalid " ++ name))

def operationId (body : Body) : Except ApiError String :=
  checkText body "operation_id" isOperationId

def newUsername (body : Body) : Except ApiError String :=
  checkText body "username" isUsername

/-- A key that is not zero. -/
def key (body : Body) (name : String) : Except ApiError String :=
  checkText body name fun text => isKey text && ! (text.toList.take 43).all (· == 'A')

/-- `KNOWN_VERSIONS`. -/
def knownVersions : List String := ["1.5", "2.0", "3.1"]

/-- `instance`: the tunnel of a version. -/
def tunnel (instances : List Instance) (version : Field) : Except ApiError Instance :=
  match version.asStr with
  | some version =>
    if ! knownVersions.contains version then
      .error ⟨422, "unknown_version", "unknown protocol version"⟩
    else
      match instances.find? fun inst => inst.version = version with
      | some inst => .ok inst
      | none => .error ⟨409, "version_disabled", "protocol version is not enabled on this node"⟩
  | none => .error ⟨422, "unknown_version", "unknown protocol version"⟩

/-! ## Operations -/

-- The hex digest of a text.
variable (sha256 : String → String) (instances : List Instance)

/-- What a request asked for, as JSON with its keys in their order. No
value has a character that is escaped in it. -/
def digest (fields : List (String × String)) : String :=
  sha256 ("\x7b" ++ String.intercalate ","
    (fields.map fun e => "\"" ++ e.1 ++ "\":\"" ++ e.2 ++ "\"") ++ "\x7d")

/-- The digest of a request to create a peer. -/
def createDigest (username version publicKey presharedKey : String) : String :=
  digest sha256 [("kind", "create"), ("psk", presharedKey), ("pub", publicKey),
    ("username", username), ("version", version)]

/-- The digest of a request to rotate a peer's keys. -/
def rotateDigest (username publicKey presharedKey : String) : String :=
  digest sha256 [("kind", "rotate"), ("psk", presharedKey), ("pub", publicKey),
    ("username", username)]

/-- The name of an identical request answered before, where it is
still there. -/
def replayed (doc : Document) (op digest : String) : Except ApiError (Option String) :=
  match find doc.operations op with
  | none => .ok none
  | some known =>
    if known.digest ≠ digest then
      .error ⟨409, "operation_conflict", "operation id was used with a different request"⟩
    else if (find doc.peers known.username).isSome then .ok (some known.username)
    else .ok none

/-- The first address after the tunnel's own that no peer of it
has. -/
def freeAddress (doc : Document) (inst : Instance) : Except ApiError String :=
  let used := (doc.peers.filter fun e => e.2.version = inst.version).map fun e => e.2.address
  match (inst.hosts.drop 1).find? fun address => ! used.contains address with
  | some address => .ok address
  | none => .error ⟨409, "address_pool_exhausted", "no free address in the subnet"⟩

def pubkeyTaken (doc : Document) (version publicKey : String) (except : Option String) : Bool :=
  doc.peers.any fun e =>
    decide (e.2.version = version ∧ e.2.publicKey = publicKey ∧ some e.1 ≠ except)

def record (doc : Document) (username : String) : Except ApiError Peer :=
  match find doc.peers username with
  | some peer => .ok peer
  | none => .error ⟨404, "not_found", "peer not found"⟩

/-- The document after a peer is put under a name. -/
def Document.setPeer (doc : Document) (username : String) (peer : Peer) : Document :=
  { doc with peers := put doc.peers username peer }

/-- The document after an operation is kept. -/
def Document.record (doc : Document) (op digest username : String) : Document :=
  { doc with operations := put doc.operations op ⟨digest, username⟩ }

/-- **What a call comes to**, where it is not refused: a change of the document
or nothing to do, and the name the answer is about. -/
structure Plan where
  change : Option Document
  username : String
deriving DecidableEq, Repr

/-- `create_peer`, up to its save. -/
def createPeer (doc : Document) (now : Int) (body : Body) : Except ApiError Plan := do
  fields body ["operation_id", "username", "version", "public_key", "preshared_key"]
  let op ← operationId body
  let username ← newUsername body
  let publicKey ← key body "public_key"
  let presharedKey ← key body "preshared_key"
  let inst ← tunnel instances (body.get "version")
  let digest := createDigest sha256 username inst.version publicKey presharedKey
  match ← replayed doc op digest with
  | some again => return ⟨none, again⟩
  | none =>
    if (find doc.peers username).isSome then
      throw ⟨409, "username_taken", "username already exists"⟩
    if pubkeyTaken doc inst.version publicKey none then
      throw ⟨409, "public_key_in_use", "public key already in use"⟩
    let address ← freeAddress doc inst
    return ⟨some ((doc.setPeer username
      ⟨inst.version, publicKey, presharedKey, address, true, 1, now, op⟩).record op digest username),
      username⟩

/-- `set_enabled`, up to its save. -/
def setEnabled (doc : Document) (username : String) (enabled : Bool) : Except ApiError Plan := do
  let peer ← record doc username
  if enabled && ! instances.any fun inst => inst.version = peer.version then
    throw ⟨409, "version_disabled", "protocol version is not enabled on this node"⟩
  if peer.enabled = enabled then return ⟨none, username⟩
  else
    return ⟨some (doc.setPeer username { peer with enabled, revision := peer.revision + 1 }), username⟩

/-- `rotate`, up to its save. -/
def rotate (doc : Document) (username : String) (body : Body) : Except ApiError Plan := do
  fields body ["operation_id", "public_key", "preshared_key"]
  let op ← operationId body
  let publicKey ← key body "public_key"
  let presharedKey ← key body "preshared_key"
  let peer ← record doc username
  let digest := rotateDigest sha256 username publicKey presharedKey
  match ← replayed doc op digest with
  | some _ => return ⟨none, username⟩
  | none =>
    if pubkeyTaken doc peer.version publicKey (some username) then
      throw ⟨409, "public_key_in_use", "public key already in use"⟩
    if ! isKey peer.publicKey then throw .internal
    return ⟨some ((doc.setPeer username { peer with
      publicKey, presharedKey, operationId := op, revision := peer.revision + 1 }).record op digest
        username), username⟩

/-- `delete_peer`, up to its save. -/
def deletePeer (doc : Document) (username : String) : Except ApiError Plan := do
  let _ ← record doc username
  return ⟨some { doc with peers := erase doc.peers username }, username⟩

inductive Call
  | create (body : Body)
  | setEnabled (username : String) (enabled : Bool)
  | rotate (username : String) (body : Body)
  | delete (username : String)
deriving DecidableEq, Repr

/-- What a call comes to. -/
def plan (doc : Document) (now : Int) : Call → Except ApiError Plan
  | .create body => createPeer sha256 instances doc now body
  | .setEnabled username enabled => setEnabled instances doc username enabled
  | .rotate username body => rotate sha256 doc username body
  | .delete username => deletePeer doc username

/-- The document is saved, or the one before is put back – in memory;
the file may be the new one where the save failed late. -/
def commit (doc desired : Document) (w : Outcome) : Document × Except ApiError Unit :=
  if w = .done then (desired.pruned, .ok ()) else (doc, .error .internal)

/-- **A call.** The answer shows the peer as the document has it; a deletion shows
none. -/
def call (doc : Document) (now : Int) (w : Outcome) (c : Call) :
    Document × Except ApiError (Option Peer) :=
  match plan sha256 instances doc now c with
  | .error e => (doc, .error e)
  | .ok ⟨none, username⟩ => (doc, .ok (find doc.peers username))
  | .ok ⟨some desired, username⟩ =>
    match commit doc desired w with
    | (doc', .error e) => (doc', .error e)
    | (doc', .ok ()) => (doc', .ok (find doc'.peers username))

end AmneziaWG
