import ProxyControl.Importer
import ProxyControl.Keyrings

/-!
# The subscription feed

A subscriber's app fetches the feed of its client in one of five formats, and asks
first whether the feed has changed since: the answer carries an ETag, and a request
that names the ETag the feed has now is answered *not modified*, without a body.

The ETag (`etag`) is the hash of what the manifest says about the client's grants. The
body takes two more steps. `resolveArtifacts` reads from other tables which version of
each grant's credential is in force (`inForce`) and under which public host its node is
reached, and has the adapters make the links; a renderer writes them down. The version
a grant names is in force once it is active. While it is pending – a linked node has
not applied it yet – the newest one that is being retired still is.

Of a renderer the model has what it reads and in which order, and the plain text one
in full; how the others lay out JSON, YAML and HTML, how an adapter writes a link and
how a name is made printable are parameters (`Site`).

Every fetch records what it was made of, whether it was answered with a body or not.
The database changes between fetches in every way the panel changes it.
-/

namespace Feed

open Table
open Reconciler (Protocol withinValidity)
open Keyrings (SecretState)
open Importer (ClientState GrantDesiredState)

variable {Opts : Type}

/-! ## The database -/

structure Secret where
  state : SecretState
  plaintext : String
deriving DecidableEq, Repr

structure Client where
  displayName : String
  state : ClientState

/-- What a grant is from its first day to its last. -/
structure Identity where
  client : Nat
  protocol : Protocol
  node : String
  endpoint : String
  runtimeUsername : String
  createdAt : Int
deriving DecidableEq, Repr

/-- A grant. `version` is the version of its credential that it names. -/
structure Grant (Opts : Type) where
  id : Nat
  identity : Identity
  version : Option Nat
  desired : GrantDesiredState
  validFrom : Option Int
  validUntil : Option Int
  options : Opts
  label : Option String

structure Subscription where
  client : Nat
  generation : Nat
  updatedAt : Int
  active : Bool

/-- The tables the feed is made from. `hosts` are the public hosts of a node. -/
structure Database (Opts : Type) where
  clients : List (Nat × Client)
  grants : List (Grant Opts)
  secrets : List ((Nat × Nat) × Secret)
  nodeNames : List (String × String)
  hosts : String → Protocol → String
  subscriptions : List (Nat × Subscription)

def Database.grant (db : Database Opts) (id : Nat) : Option (Grant Opts) :=
  db.grants.find? fun grant => grant.id = id

def effectiveEnabled (grant : Grant Opts) (client : Client) (now : Int) : Bool :=
  decide (client.state = .active) && decide (grant.desired = .enabled)
    && withinValidity grant.validFrom grant.validUntil now

/-- Oldest first. -/
def older (a b : Grant Opts) : Prop :=
  a.identity.createdAt < b.identity.createdAt
    ∨ a.identity.createdAt = b.identity.createdAt ∧ a.id ≤ b.id

instance : DecidableRel (@older Opts) :=
  fun _ _ => inferInstanceAs (Decidable (_ ∨ _ ∧ _))

/-- The live grants of a client, oldest first. -/
def Database.clientGrants (db : Database Opts) (client : Nat) : List (Grant Opts) :=
  (db.grants.filter fun grant =>
    grant.identity.client = client ∧ grant.desired ≠ .deleted).insertionSort older

/-! ## The manifest and its names -/

structure ManifestGrant (Opts : Type) where
  grantId : Nat
  protocol : Protocol
  nodeId : String
  endpointId : String
  runtimeUsername : String
  /-- Zero where the grant names no version. -/
  secretVersion : Nat
  options : Opts
  enabled : Bool
  validFrom : Option Int
  validUntil : Option Int
  nodeName : String
  label : String

structure Manifest (Opts : Type) where
  clientId : Nat
  clientName : String
  generation : Nat
  grants : List (ManifestGrant Opts)

structure Artifact where
  kind : String
  label : String
  mediaType : String
  value : String
deriving DecidableEq, Repr

abbrev Artifacts := List (Nat × List Artifact)

inductive Format
  | manifest | singbox | clash | raw | html
deriving DecidableEq, Repr

def Format.version : Format → Nat
  | .manifest => 3
  | .singbox => 4
  | .clash => 2
  | .raw => 2
  | .html => 6

/-- What a request asks for besides the format: the sing-box cut (empty for none), or
the page's language and time. -/
inductive Variant
  | feed (client : String)
  | page (english : Bool) (updatedAt : Int)
deriving DecidableEq, Repr

/-- What the ETag is the hash of. -/
structure PayloadGrant (Opts : Type) where
  grantId : Nat
  protocol : Protocol
  nodeId : String
  nodeName : String
  displayName : String
  endpointId : String
  runtimeUsername : String
  secretVersion : Nat
  options : Opts
  validFrom : Option Int
  validUntil : Option Int

@[inherit_doc PayloadGrant]
structure Payload (Opts : Type) where
  clientName : String
  displayNames : List (Nat × String)
  grants : List (PayloadGrant Opts)
  renderer : Nat
  variant : Variant

/-- A grant as the canonical JSON has it. -/
structure Item (Opts : Type) where
  grantId : Nat
  protocol : Protocol
  nodeId : String
  endpointId : String
  runtimeUsername : String
  secretVersion : Nat
  options : Opts
  enabled : Bool
  validFrom : Option Int
  validUntil : Option Int
  artifacts : List Artifact
  unsupported : Bool

/-- A grant as the formats for apps read it: its name, and its link unless it has no
credential. -/
structure Placed where
  protocol : Protocol
  runtimeUsername : String
  name : String
  unsupported : Bool
  link : Option String

/-- A grant as the page shows it. -/
structure Section where
  protocol : Protocol
  runtimeUsername : String
  enabled : Bool
  unsupported : Bool
  artifacts : List Artifact
  name : String
  title : String

/-- **What the feed takes from elsewhere**: the adapters that are configured, the text
functions, the layout of the formats, and a hash without collisions. -/
structure Site (Opts : Type) where
  /-- `render_artifacts`: the options, the name, the credential and the host. -/
  adapters : Protocol → Option (Opts → String → String → String → Except String (List Artifact))
  displayText : String → String
  idDigest : Nat → String
  namedShareUrl : Protocol → String → String → String → Except String String
  /-- The host of a link. -/
  endpointDomain : Protocol → List Artifact → String
  digest : Payload Opts → String
  digest_injective : Function.Injective digest
  /-- The address of a subscription. -/
  publicUrl : Nat → String
  manifestText : Nat → String → Nat → List (Item Opts) → Except String String
  singboxText : Nat → String → List Placed → Except String String
  clashText : Nat → List Placed → Except String String
  htmlText : String → String → Variant → List Section → Except String String

def protocolTitle : Protocol → String
  | .mtproxy => "MTProxy"
  | .naive => "Naive"
  | .mieru => "Mieru"
  | .amneziawg => "AmneziaWG"
  | .trusttunnel => "TrustTunnel"

/-- Every grant of the client but AmneziaWG. -/
def Database.effectiveManifest (db : Database Opts) (subscription : Subscription) (now : Int) :
    Option (Manifest Opts) :=
  (find db.clients subscription.client).map fun client =>
    { clientId := subscription.client
      clientName := client.displayName
      generation := ((db.subscriptions.find? fun row =>
        row.2.client = subscription.client ∧ row.2.active).map (·.2.generation)).getD
          subscription.generation
      grants := ((db.clientGrants subscription.client).filter fun grant =>
        grant.identity.protocol ≠ .amneziawg).map fun grant =>
          { grantId := grant.id
            protocol := grant.identity.protocol
            nodeId := grant.identity.node
            endpointId := grant.identity.endpoint
            runtimeUsername := grant.identity.runtimeUsername
            secretVersion := grant.version.getD 0
            options := grant.options
            enabled := effectiveEnabled grant client now
            validFrom := grant.validFrom
            validUntil := grant.validUntil
            nodeName := (find db.nodeNames grant.identity.node).getD ""
            label := grant.label.getD "" } }

/-- The name of a grant before duplicates are told apart. -/
def baseName (site : Site Opts) (grant : ManifestGrant Opts) : String :=
  let custom := site.displayText grant.label
  let node := ([site.displayText grant.nodeName, site.displayText grant.nodeId].find?
    fun text => text ≠ "").getD "Local"
  let suffix := " · " ++ protocolTitle grant.protocol
  if custom = "" then node ++ suffix
  else if custom.endsWith suffix then custom
  else custom ++ suffix

/-- The shortest part of the hash, from eight characters on, that makes the name new. -/
def distinguish (base digest : String) (used : List String) : Option String :=
  ((List.range' 8 (digest.length + 1 - 8)).map fun width =>
    base ++ " [" ++ String.ofList (digest.toList.take width) ++ "]").find? fun name => name ∉ used

/-- The names before duplicates are told apart, in the order of the ids. -/
def nameBases (site : Site Opts) (manifest : Manifest Opts) : List (Nat × String) :=
  manifest.grants.foldl
    (fun bases grant => putSorted bases grant.grantId (baseName site grant)) []

/-- One more name: the names used so far, and those given. -/
def giveName (site : Site Opts) (bases : List (Nat × String))
    (acc : List String × List (Nat × String)) (entry : Nat × String) :
    Option (List String × List (Nat × String)) :=
  if (bases.map (·.2)).count entry.2 = 1 then some (acc.1, acc.2 ++ [entry])
  else (distinguish entry.2 (site.idDigest entry.1) acc.1).map fun candidate =>
    (candidate :: acc.1, acc.2 ++ [(entry.1, candidate)])

/-- A name for every grant, in the order of the ids. `none` is the name
collision. -/
def grantNames (site : Site Opts) (manifest : Manifest Opts) : Option (List (Nat × String)) :=
  let bases := nameBases site manifest
  (bases.foldlM (giveName site bases) (bases.map (·.2), [])).map (·.2)

/-- **The ETag**: what the client would receive, not when it last asked. -/
def etag (site : Site Opts) (manifest : Manifest Opts) (renderer : Nat) (variant : Variant) :
    Option String :=
  (grantNames site manifest).map fun names =>
    site.digest
      { clientName := manifest.clientName
        displayNames := names
        grants := ((manifest.grants.filter (·.enabled)).insertionSort
          fun a b => a.grantId ≤ b.grantId).map fun grant =>
            { grantId := grant.grantId
              protocol := grant.protocol
              nodeId := grant.nodeId
              nodeName := grant.nodeName
              displayName := (find names grant.grantId).getD ""
              endpointId := grant.endpointId
              runtimeUsername := grant.runtimeUsername
              secretVersion := grant.secretVersion
              options := grant.options
              validFrom := grant.validFrom
              validUntil := grant.validUntil }
        renderer := renderer
        variant := variant }

/-! ## The body -/

/-- The version the node actually runs. -/
def inForce (secrets : List ((Nat × Nat) × Secret)) (id version : Nat) : Option Nat :=
  (find secrets (id, version)).bind fun secret =>
    match secret.state with
    | .active => some version
    | .pending =>
      ((secrets.filter fun row => row.1.1 = id ∧ row.2.state = .retiring).map (·.1.2)).max?
    | .retiring | .revoked => none

/-- The credential that is in force. -/
def Database.credential (db : Database Opts) (id version : Nat) : Option String :=
  (inForce db.secrets id version).bind fun version =>
    (find db.secrets (id, version)).map (·.plaintext)

/-- The links of one grant, `none` where it has nothing to link to. -/
def Database.artifacts (site : Site Opts) (db : Database Opts) (grant : ManifestGrant Opts) :
    Option (Except String (List Artifact)) :=
  if ! grant.enabled || decide (grant.secretVersion < 1) then none
  else
    (site.adapters grant.protocol).bind fun render =>
      match db.grant grant.grantId with
      | none => some (.error "grant not found")
      | some row =>
        (db.credential grant.grantId grant.secretVersion).map fun plaintext =>
          render row.options row.identity.runtimeUsername plaintext
            (db.hosts grant.nodeId grant.protocol)

/-- The links of all grants. -/
def resolveArtifacts (links : ManifestGrant Opts → Option (Except String (List Artifact))) :
    List (ManifestGrant Opts) → Except String Artifacts
  | [] => .ok []
  | grant :: grants =>
    match links grant with
    | none => resolveArtifacts links grants
    | some (.error error) => .error error
    | some (.ok artifacts) => (resolveArtifacts links grants).map ((grant.grantId, artifacts) :: ·)

def artifactsOf (artifacts : Artifacts) (id : Nat) : List Artifact :=
  (find artifacts id).getD []

/-- Why an effective grant still has no link. -/
def credentialReason (grant : ManifestGrant Opts) (artifacts : Artifacts) : Bool :=
  decide (grant.secretVersion < 1) || (artifactsOf artifacts grant.grantId).isEmpty

def linkOf (artifacts : List Artifact) : Option String :=
  (artifacts.find? fun artifact => artifact.mediaType = "text/uri-list").map (·.value)

def maxGrants : Nat := 64

def nameOf (names : List (Nat × String)) (id : Nat) : String := (find names id).getD ""

/-- One line of the plain text format. -/
def rawLine (site : Site Opts) (names : List (Nat × String)) (artifacts : Artifacts)
    (grant : ManifestGrant Opts) : Except String String :=
  if ! grant.enabled then
    .ok s!"# disabled {grant.protocol.asStr} {grant.runtimeUsername}"
  else if credentialReason grant artifacts then
    .ok s!"# unsupported {grant.protocol.asStr} {grant.runtimeUsername}: no stored credential"
  else
    match linkOf (artifactsOf artifacts grant.grantId) with
    | none => .error s!"{grant.protocol.asStr} {grant.runtimeUsername}: no link artifact"
    | some link =>
      site.namedShareUrl grant.protocol grant.runtimeUsername link (nameOf names grant.grantId)

def itemOf (artifacts : Artifacts) (grant : ManifestGrant Opts) : Item Opts :=
  { grantId := grant.grantId
    protocol := grant.protocol
    nodeId := grant.nodeId
    endpointId := grant.endpointId
    runtimeUsername := grant.runtimeUsername
    secretVersion := grant.secretVersion
    options := grant.options
    enabled := grant.enabled
    validFrom := grant.validFrom
    validUntil := grant.validUntil
    artifacts := if grant.enabled then artifactsOf artifacts grant.grantId else []
    unsupported := grant.enabled && credentialReason grant artifacts }

def placed (names : List (Nat × String)) (artifacts : Artifacts) (grant : ManifestGrant Opts) :
    Placed :=
  { protocol := grant.protocol
    runtimeUsername := grant.runtimeUsername
    name := nameOf names grant.grantId
    unsupported := credentialReason grant artifacts
    link := linkOf (artifactsOf artifacts grant.grantId) }

def pageTitle : Protocol → String
  | .naive => "NaiveProxy"
  | protocol => protocolTitle protocol

/-- The title of a grant on the page before duplicates are told apart. -/
def baseTitle (site : Site Opts) (names : List (Nat × String)) (artifacts : Artifacts)
    (grant : ManifestGrant Opts) : String :=
  if site.displayText grant.label ≠ "" then nameOf names grant.grantId
  else
    let domain := site.endpointDomain grant.protocol (artifactsOf artifacts grant.grantId)
    pageTitle grant.protocol ++ " · " ++ if domain = "" then grant.runtimeUsername else domain

/-- A grant on the page, where the titles of all of them are known. -/
def sectionOf (site : Site Opts) (names : List (Nat × String)) (artifacts : Artifacts)
    (titles : List String) (grant : ManifestGrant Opts) : Section :=
  let title := baseTitle site names artifacts grant
  { protocol := grant.protocol
    runtimeUsername := grant.runtimeUsername
    enabled := grant.enabled
    unsupported := grant.enabled && credentialReason grant artifacts
    artifacts := if grant.enabled then artifactsOf artifacts grant.grantId else []
    name := nameOf names grant.grantId
    title := if 1 < titles.count title then title ++ " · " ++ grant.runtimeUsername else title }

/-- The sing-box cut. -/
def Variant.client : Variant → String
  | .feed client => if client = "" then "karing" else client
  | .page _ _ => "karing"

/-- **The body.** -/
def render (site : Site Opts) (subscription : Nat) (format : Format) (manifest : Manifest Opts)
    (artifacts : Artifacts) (variant : Variant) : Except String String :=
  if maxGrants < manifest.grants.length then .error "too many grants"
  else if format = .manifest then
    site.manifestText manifest.clientId manifest.clientName manifest.generation
      (manifest.grants.map (itemOf artifacts))
  else
    match grantNames site manifest with
    | none => .error "subscription display name collision"
    | some names =>
      let offered := (manifest.grants.filter (·.enabled)).map (placed names artifacts)
      match format with
      | .singbox => site.singboxText manifest.generation variant.client offered
      | .clash => site.clashText manifest.generation offered
      | .html =>
        site.htmlText manifest.clientName (site.publicUrl subscription) variant
          (manifest.grants.map (sectionOf site names artifacts
            (manifest.grants.map (baseTitle site names artifacts))))
      | .raw | .manifest =>
        (manifest.grants.mapM (rawLine site names artifacts)).map fun lines =>
          "\n".intercalate lines ++ "\n"

/-! ## What happens to the database -/

/-- What a fetch was made of. -/
structure Served (Opts : Type) where
  subscription : Nat
  format : Format
  variant : Variant
  manifest : Manifest Opts
  artifacts : Except String Artifacts

def Served.etag (site : Site Opts) (served : Served Opts) : Option String :=
  Feed.etag site served.manifest served.format.version served.variant

/-- The body of a fetch, under a generation number. -/
def Served.body (site : Site Opts) (served : Served Opts) (generation : Nat) :
    Except String String :=
  served.artifacts.bind fun artifacts =>
    render site served.subscription served.format
      { served.manifest with generation := generation } artifacts served.variant

/-- The database, the grants there have ever been, and what was fetched. -/
structure State (Opts : Type) where
  db : Database Opts
  born : List (Nat × Identity)
  served : List (Served Opts)

inductive Event (Opts : Type)
  /-- A grant is reserved or imported, with the first version of its credential. -/
  | insert (grant : Grant Opts) (secret : Option Secret)
  /-- Its lifetime, its desired state or its options change. -/
  | edit (id : Nat) (desired : GrantDesiredState) (validFrom validUntil : Option Int)
      (options : Opts)
  | setGrantLabel (id : Nat) (label : Option String) (now : Int)
  /-- The credential a manager chose is kept. -/
  | escrowManagerCredential (id : Nat) (plaintext : String)
  /-- A provisioned grant points at its first version. -/
  | activate (id : Nat)
  /-- The credential of an imported grant is captured. -/
  | escrow (id : Nat) (plaintext : String)
  /-- A local rotation. -/
  | storeCredential (id : Nat) (plaintext : String)
  /-- A remote rotation. -/
  | rotate (id : Nat) (plaintext : String)
  | confirmCredential (id : Nat)
  | escrowReturnedCredential (id version : Nat) (plaintext : String)
  | purgeGrant (id : Nat)
  | putClient (id : Nat) (client : Client)
  | putNodeName (node name : String)
  | putHosts (node : String) (hosts : Protocol → String)
  | subscribe (id client : Nat) (now : Int)
  | revoke (id : Nat)
  | bump (client : Nat) (now : Int)
  | fetch (subscription : Nat) (format : Format) (client : String) (english : Bool) (now : Int)

def Database.update (db : Database Opts) (id : Nat) (f : Grant Opts → Grant Opts) : Database Opts :=
  { db with grants := db.grants.map fun grant => if grant.id = id then f grant else grant }

def Database.setSecret (db : Database Opts) (id version : Nat) (secret : Secret) : Database Opts :=
  { db with secrets := put db.secrets (id, version) secret }

/-- A state of a version that exists. -/
def Database.transition (db : Database Opts) (id version : Nat) (state : SecretState) :
    Option (Database Opts) :=
  (find db.secrets (id, version)).map fun secret =>
    db.setSecret id version { secret with state := state }

/-- The highest version of a grant's credential. -/
def Database.top (db : Database Opts) (id : Nat) : Nat :=
  ((db.secrets.filter fun row => row.1.1 = id).map (·.1.2)).foldl max 0

/-- The live subscriptions of a client move one generation on. -/
def Database.bump (db : Database Opts) (client : Nat) (now : Int) : Database Opts :=
  { db with
    subscriptions := db.subscriptions.map fun row =>
      (row.1, if row.2.client = client ∧ row.2.active then
        { row.2 with generation := row.2.generation + 1, updatedAt := now } else row.2) }

/-- All versions of a grant's credential in one state go to another. -/
def Database.moveAll (db : Database Opts) (id : Nat) (moves : SecretState → Bool)
    (target : SecretState) : Database Opts :=
  { db with
    secrets := db.secrets.map fun row =>
      (row.1, if row.1.1 = id ∧ moves row.2.state then { row.2 with state := target } else row.2) }

def Database.confirmCredential (db : Database Opts) (grant : Grant Opts) : Database Opts :=
  match grant.version with
  | none => db
  | some version =>
    match find db.secrets (grant.id, version) with
    | none => db
    | some secret =>
      match secret.state with
      | .pending =>
        (db.setSecret grant.id version { secret with state := .active }).moveAll grant.id
          (· = .retiring) .revoked
      | .active => db.moveAll grant.id (· = .retiring) .revoked
      | .retiring | .revoked => db

/-- `escrow_returned_credential`, for a version the grant does not contradict. -/
def Database.escrowReturnedCredential (db : Database Opts) (grant : Grant Opts) (version : Nat)
    (plaintext : String) : Database Opts :=
  let held := (find db.secrets (grant.id, version)).any fun secret =>
    secret.state ≠ .revoked ∧ secret.plaintext = plaintext
  let stored := db.setSecret grant.id version ⟨.active, plaintext⟩
  if held ∨ grant.version.isSome then stored
  else stored.update grant.id ({ · with version := some version })

/-- **What an event does**, `none` where the panel refuses it. -/
def step (site : Site Opts) (s : State Opts) : Event Opts → Option (State Opts)
  | .insert grant secret =>
    if (find s.born grant.id).isSome ∨ grant.label ≠ none
        ∨ (grant.version ≠ none ∧ (grant.version ≠ some 1 ∨ secret = none)) then none
    else some { s with
      db := { s.db with
        grants := s.db.grants ++ [grant]
        secrets := match secret with
          | none => s.db.secrets
          | some secret => put s.db.secrets (grant.id, 1) secret }
      born := put s.born grant.id grant.identity }
  | .edit id desired validFrom validUntil options =>
    some { s with db := s.db.update id fun grant =>
      { grant with desired, validFrom, validUntil, options } }
  | .setGrantLabel id label now =>
    (s.db.grant id).map fun grant =>
      { s with db := (s.db.update id ({ · with label := label })).bump grant.identity.client now }
  | .escrowManagerCredential id plaintext =>
    if (s.db.grant id).isNone ∨ (find s.db.secrets (id, 1)).isSome then none
    else some { s with db := s.db.setSecret id 1 ⟨.pending, plaintext⟩ }
  | .activate id =>
    (s.db.transition id 1 .active).map fun db =>
      { s with db := db.update id ({ · with version := some 1 }) }
  | .escrow id plaintext =>
    if (s.db.grant id).all (·.version.isSome) ∨ (find s.db.secrets (id, 1)).isSome then none
    else some { s with db :=
      (s.db.setSecret id 1 ⟨.active, plaintext⟩).update id ({ · with version := some 1 }) }
  | .storeCredential id plaintext =>
    (s.db.grant id).bind fun grant =>
      let version := s.db.top id + 1
      let db := (s.db.setSecret id version ⟨.active, plaintext⟩).update id
        ({ · with version := some version })
      match grant.version with
      | none => some { s with db := db }
      | some previous => (db.transition id previous .revoked).map fun db => { s with db := db }
  | .rotate id plaintext =>
    (s.db.grant id).bind fun grant =>
      let version := max (s.db.top id) (grant.version.getD 1) + 1
      let db := (s.db.setSecret id version ⟨.pending, plaintext⟩).update id
        ({ · with version := some version })
      match grant.version with
      | none => some { s with db := db }
      | some previous => (db.transition id previous .retiring).map fun db => { s with db := db }
  | .confirmCredential id =>
    (s.db.grant id).map fun grant => { s with db := s.db.confirmCredential grant }
  | .escrowReturnedCredential id version plaintext =>
    (s.db.grant id).bind fun grant =>
      if grant.version.all (· = version) then
        some { s with db := s.db.escrowReturnedCredential grant version plaintext }
      else none
  | .purgeGrant id =>
    let db := s.db.moveAll id (· ≠ .revoked) .revoked
    some { s with db := { db with grants := db.grants.filter fun grant => grant.id ≠ id } }
  | .putClient id client =>
    some { s with db := { s.db with clients := put s.db.clients id client } }
  | .putNodeName node name =>
    some { s with db := { s.db with nodeNames := put s.db.nodeNames node name } }
  | .putHosts node hosts =>
    some { s with db := { s.db with
      hosts := fun node' => if node' = node then hosts else s.db.hosts node' } }
  | .subscribe id client now =>
    if (find s.db.subscriptions id).isSome then none
    else some { s with db := { s.db with
      subscriptions := put s.db.subscriptions id ⟨client, 1, now, true⟩ } }
  | .revoke id =>
    some { s with db := { s.db with subscriptions := s.db.subscriptions.map fun row =>
      (row.1, if row.1 = id then { row.2 with active := false } else row.2) } }
  | .bump client now => some { s with db := s.db.bump client now }
  | .fetch id format client english now =>
    (find s.db.subscriptions id).bind fun subscription =>
      if ! subscription.active then none
      else
        (s.db.effectiveManifest subscription now).map fun manifest =>
          { s with served :=
            { subscription := id
              format := format
              variant := if format = .html then .page english subscription.updatedAt
                else .feed client
              manifest := manifest
              artifacts := resolveArtifacts (Database.artifacts site s.db) manifest.grants } :: s.served }

end Feed
