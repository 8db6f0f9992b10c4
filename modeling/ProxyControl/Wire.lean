import ProxyControl.Validators
import ProxyControl.Policies

/-!
# The documents a central pushes

What a central panel tells a linked node is a *generation document*: the accounts the node
must run, and, for nodes that can, the egress of each service and the node's relay. It
travels as JSON in a push, together with the plaintext of the credentials it names, and it
is kept as JSON.

Each document has a validator, which refuses what is not declared, and a dump, in which
every field is written with its default. The validators are stable with the dumps
(`GenerationDocument.stable`): a document that was accepted is accepted again when it is
read from where it was kept.
-/

namespace Wire

open List
open Table
open Json
open Reconciler (Protocol DesiredState CredentialOrigin ResourceOrigin)
open Routing (Backend)

/-- What the code takes from elsewhere: how numbers are read, the digest of a text, and how
a list of texts is shown. -/
structure Site where
  numerals : Numerals
  sha256 : List Char → String
  shown : List String → String

/-! ## Names -/

def protocols : List (String × Protocol) :=
  [("mtproxy", .mtproxy), ("naive", .naive), ("mieru", .mieru), ("amneziawg", .amneziawg),
    ("trusttunnel", .trusttunnel)]

def desiredStates : List (String × DesiredState) :=
  [("enabled", .enabled), ("disabled", .disabled), ("deleted", .deleted)]

def DesiredState.asStr : DesiredState → String
  | .enabled => "enabled"
  | .disabled => "disabled"
  | .deleted => "deleted"

def credentialOrigins : List (String × CredentialOrigin) :=
  [("caller", .caller), ("manager", .manager)]

def CredentialOrigin.asStr : CredentialOrigin → String
  | .caller => "caller"
  | .manager => "manager"

def resourceOrigins : List (String × ResourceOrigin) :=
  [("provisioned", .provisioned), ("imported", .imported)]

def ResourceOrigin.asStr : ResourceOrigin → String
  | .provisioned => "provisioned"
  | .imported => "imported"

def backends : List (String × Backend) :=
  [("naive_native", .naiveNative), ("mieru_native", .mieruNative),
    ("mtproxy_native", .mtproxyNative), ("trusttunnel_native", .trusttunnelNative),
    ("amneziawg_native", .amneziawgNative), ("xray_router", .xrayRouter)]

/-! ## Accounts -/

/-- One account the node must run; it may have a lane of its own. -/
structure Resource extends Reconciler.Resource Json where
  ownLane : Bool

def isUsername (text : String) : Bool :=
  1 ≤ text.length && text.length ≤ 64
    && text.toList.all fun c => c.isAlphanum || c == '_' || c == '.' || c == '-'

def lane : Json → Option Unit := literal [("own", ())]

def Resource.declared : List String :=
  ["ref", "protocol", "runtime_username", "desired_state", "credential_ref", "credential_origin",
    "origin", "options", "valid_from", "valid_until", "lane"]

def optionalInt (site : Site) : Json → Option (Option Int) :=
  nullable (intWith site.numerals fun _ => true)

def Resource.validate (site : Site) : Json → Option Resource :=
  object fun fields => do
    let reference ← required fields "ref" (strLen 1 128)
    let protocol ← required fields "protocol" (literal protocols)
    let runtimeUsername ← required fields "runtime_username" (strWith isUsername)
    let desiredState ← required fields "desired_state" (literal desiredStates)
    let credentialRef ← required fields "credential_ref" (strLen 1 160)
    let credentialOrigin ← required fields "credential_origin" (literal credentialOrigins)
    let origin ← optional fields "origin" .provisioned (literal resourceOrigins)
    let options ← optional fields "options" [] dict
    let validFrom ← optional fields "valid_from" none (optionalInt site)
    let validUntil ← optional fields "valid_until" none (optionalInt site)
    let lane ← optional fields "lane" none (nullable lane)
    if closed fields Resource.declared then
      some
        { reference, protocol, runtimeUsername, desiredState, credentialRef, credentialOrigin,
          origin, options, validFrom, validUntil, ownLane := lane.isSome }
    else none

def intJson (value : Option Int) : Json := value.elim .null .int

def Resource.dump (resource : Resource) : Json :=
  .obj [("ref", .str resource.reference), ("protocol", .str resource.protocol.asStr),
    ("runtime_username", .str resource.runtimeUsername),
    ("desired_state", .str (DesiredState.asStr resource.desiredState)),
    ("credential_ref", .str resource.credentialRef),
    ("credential_origin", .str (CredentialOrigin.asStr resource.credentialOrigin)),
    ("origin", .str (ResourceOrigin.asStr resource.origin)), ("options", .obj resource.options),
    ("valid_from", intJson resource.validFrom), ("valid_until", intJson resource.validUntil),
    ("lane", if resource.ownLane then .str "own" else .null)]

/-! ## The relay -/

def isRelaySource (source : List Char) : Bool :=
  1 ≤ source.length && source.length ≤ 64 && source.all fun c => c.isAlphanum || c == '-'

/-- `relay:<source>:<direct|warp>`. -/
def isRelayEmail (text : String) : Bool :=
  match text.toList with
  | 'r' :: 'e' :: 'l' :: 'a' :: 'y' :: ':' :: rest =>
    let source := rest.takeWhile (· != ':')
    let exit := rest.drop (source.length + 1)
    isRelaySource source && rest.contains ':'
      && (exit == "direct".toList || exit == "warp".toList)
  | _ => false

/-- One account of the node's relay inbound. -/
structure RelayAccount where
  email : String
  credentialRef : String

def RelayAccount.validate : Json → Option RelayAccount :=
  object fun fields => do
    let email ← required fields "email" (strWith isRelayEmail)
    let credentialRef ← required fields "credential_ref" (strLen 3 160)
    if closed fields ["email", "credential_ref"] then some ⟨email, credentialRef⟩ else none

def RelayAccount.dump (account : RelayAccount) : Json :=
  .obj [("email", .str account.email), ("credential_ref", .str account.credentialRef)]

/-- The node's relay inbound and the accounts other nodes dial it with. -/
structure RelaySection where
  enabled : Bool
  port : Int
  serverName : String
  accounts : List RelayAccount

def RelaySection.validate (site : Site) : Json → Option RelaySection :=
  object fun fields => do
    let enabled ← required fields "enabled" (boolean site.numerals)
    let port ← required fields "port"
      (intWith site.numerals fun port => 1 ≤ port && port ≤ 65535)
    let serverName ← required fields "server_name" (strLen 1 253)
    let accounts ← optional fields "accounts" [] (list 64 RelayAccount.validate)
    if closed fields ["enabled", "port", "server_name", "accounts"] then
      some ⟨enabled, port, serverName, accounts⟩
    else none

def RelaySection.dump (relay : RelaySection) : Json :=
  .obj [("enabled", .bool relay.enabled), ("port", .int relay.port),
    ("server_name", .str relay.serverName),
    ("accounts", .arr (relay.accounts.map RelayAccount.dump))]

/-! ## The egress -/

/-- What one service's egress should be: the compiled document and, with a router, what the
other manager gets. -/
structure EgressDocument where
  backend : Backend
  policyId : String
  policyRevision : Int
  document : Fields
  digest : String
  companion : Option Fields
  passthrough : Bool

def maxEgressBytes : Nat := 16384

/-- The limits, and the digest that names the document. -/
def EgressDocument.check (site : Site) (egress : EgressDocument) : Except String Unit :=
  if maxEgressBytes < (canonical (.obj egress.document)).length then
    .error "egress document too large"
  else if site.sha256 (canonical (.obj egress.document)) ≠ egress.digest then
    .error "egress digest does not match the document"
  else if egress.companion.any fun companion =>
      maxEgressBytes < (canonical (.obj companion)).length then
    .error "egress companion document too large"
  else .ok ()

def isDigest (text : String) : Bool :=
  text.length == 64 && text.toList.all fun c => c.isDigit || ('a' ≤ c && c ≤ 'f')

/-- The document, if its check passes. -/
def passing {α : Type} (check : α → Except String Unit) (value : α) : Option α :=
  match check value with
  | .ok _ => some value
  | .error _ => none

def EgressDocument.validate (site : Site) : Json → Option EgressDocument :=
  object fun fields => do
    let backend ← required fields "backend" (literal backends)
    let policyId ← required fields "policy_id" (strLen 1 64)
    let policyRevision ← required fields "policy_revision"
      (intWith site.numerals fun revision => 1 ≤ revision)
    let document ← required fields "document" dict
    let digest ← required fields "digest" (strWith isDigest)
    let companion ← optional fields "companion" none (nullable dict)
    let passthrough ← optional fields "passthrough" false (boolean site.numerals)
    if closed fields ["backend", "policy_id", "policy_revision", "document", "digest", "companion",
        "passthrough"] then
      passing (EgressDocument.check site)
        { backend, policyId, policyRevision, document, digest, companion, passthrough }
    else none

def EgressDocument.dump (egress : EgressDocument) : Json :=
  .obj [("backend", .str egress.backend.asStr), ("policy_id", .str egress.policyId),
    ("policy_revision", .int egress.policyRevision), ("document", .obj egress.document),
    ("digest", .str egress.digest), ("companion", egress.companion.elim .null .obj),
    ("passthrough", .bool egress.passthrough)]

/-! ## The generation -/

/-- **One numbered generation of what a node must run.** -/
structure GenerationDocument where
  nodeGuid : String
  masterGuid : String
  generation : Int
  previousGeneration : Int
  createdAt : Int
  createdBy : String
  resources : List Resource
  egress : Option (List (Protocol × EgressDocument))
  relay : Option RelaySection

def schemaVersion : Int := 1

def maxResources : Nat := 500

/-- No two resources of one runtime user. -/
def GenerationDocument.check (document : GenerationDocument) : Except String Unit :=
  Reconciler.GenerationDocument.check
    { nodeGuid := document.nodeGuid
      masterGuid := document.masterGuid
      generation := document.generation
      resources := document.resources.map Resource.toResource }

def egressKey (text : String) : Option Protocol := find protocols text

def GenerationDocument.declared : List String :=
  ["schema_version", "node_guid", "master_guid", "generation", "previous_generation", "created_at",
    "created_by", "resources", "egress", "relay"]

def GenerationDocument.validate (site : Site) : Json → Option GenerationDocument :=
  object fun fields => do
    let _ ← optional fields "schema_version" () (literalInt site.numerals schemaVersion)
    let nodeGuid ← required fields "node_guid" (strLen 1 64)
    let masterGuid ← required fields "master_guid" (strLen 1 64)
    let generation ← required fields "generation" (intWith site.numerals fun number => 1 ≤ number)
    let previousGeneration ← required fields "previous_generation"
      (intWith site.numerals fun number => 0 ≤ number)
    let createdAt ← required fields "created_at" (intWith site.numerals fun _ => true)
    let createdBy ← required fields "created_by" (strLen 0 128)
    let resources ← required fields "resources" (list maxResources (Resource.validate site))
    let egress ← optional fields "egress" none
      (nullable (dictOf egressKey (EgressDocument.validate site)))
    let relay ← optional fields "relay" none (nullable (RelaySection.validate site))
    if closed fields GenerationDocument.declared then
      passing GenerationDocument.check
        { nodeGuid, masterGuid, generation, previousGeneration, createdAt, createdBy, resources,
          egress, relay }
    else none

def egressJson (egress : List (Protocol × EgressDocument)) : Json :=
  .obj (egress.map fun entry => (entry.1.asStr, entry.2.dump))

def GenerationDocument.dump (document : GenerationDocument) : Json :=
  .obj [("schema_version", .int schemaVersion), ("node_guid", .str document.nodeGuid),
    ("master_guid", .str document.masterGuid), ("generation", .int document.generation),
    ("previous_generation", .int document.previousGeneration),
    ("created_at", .int document.createdAt), ("created_by", .str document.createdBy),
    ("resources", .arr (document.resources.map Resource.dump)),
    ("egress", document.egress.elim .null egressJson),
    ("relay", document.relay.elim .null RelaySection.dump)]

/-- The fields without those named. -/
def without (names : List String) : Json → Json
  | .obj fields => .obj (fields.filter fun field => ! names.contains field.1)
  | json => json

def Resource.wire (resource : Resource) : Json :=
  without (if resource.ownLane then [] else ["lane"]) resource.dump

def EgressDocument.wire (egress : EgressDocument) : Json :=
  without ((if egress.companion.isNone then ["companion"] else [])
    ++ if egress.passthrough then [] else ["passthrough"]) egress.dump

/-- The document as it travels, with its resources in the given order: what holds its
default is left out. -/
def GenerationDocument.wireOf (document : GenerationDocument) (resources : List Resource) :
    Json :=
  .obj ([("schema_version", .int schemaVersion), ("node_guid", .str document.nodeGuid),
      ("master_guid", .str document.masterGuid), ("generation", .int document.generation),
      ("previous_generation", .int document.previousGeneration),
      ("created_at", .int document.createdAt), ("created_by", .str document.createdBy),
      ("resources", .arr (resources.map Resource.wire))]
    ++ (document.egress.map fun egress =>
        ("egress", .obj (egress.map fun entry => (entry.1.asStr, entry.2.wire)))).toList
    ++ (document.relay.map fun relay => ("relay", relay.dump)).toList)

def GenerationDocument.wire (document : GenerationDocument) : Json :=
  document.wireOf document.resources

/-- The digest that panels compare: of the document with its resources by reference. -/
def GenerationDocument.canonicalDigest (site : Site) (document : GenerationDocument) : String :=
  site.sha256 (canonical (document.wireOf
    (document.resources.insertionSort fun a b => a.reference ≤ b.reference)))

def GenerationDocument.credentialRefs (document : GenerationDocument) : List String :=
  document.resources.map (·.credentialRef)
    ++ (document.relay.map fun relay => relay.accounts.map (·.credentialRef)).getD []

/-- **A push**: the generation and the plaintext of the credentials it names. -/
structure PushRequest where
  expectedGuid : String
  generation : GenerationDocument
  secrets : List (String × String)

/-- Only credentials that the document names. -/
def PushRequest.check (site : Site) (request : PushRequest) : Except String Unit :=
  let stray := (request.secrets.map Prod.fst).filter fun ref =>
    ! request.generation.credentialRefs.contains ref
  if stray.isEmpty then .ok ()
  else .error ("secrets for unknown refs: " ++ site.shown (stray.insertionSort (· ≤ ·)).dedup)

def PushRequest.validate (site : Site) : Json → Option PushRequest :=
  object fun fields => do
    let expectedGuid ← required fields "expected_guid" string
    let generation ← required fields "generation" (GenerationDocument.validate site)
    let secrets ← optional fields "secrets" [] (dictOf some string)
    if closed fields ["expected_guid", "generation", "secrets"] then
      passing (PushRequest.check site) { expectedGuid, generation, secrets }
    else none

/-! ## What was accepted is accepted again -/

section

variable {site : Site} {fl : Floats} {fs : Fields}

theorem again_protocol : Again (literal protocols) fun p => .str p.asStr :=
  again_literal fun p => by cases p <;> rfl

theorem again_desiredState : Again (literal desiredStates)
    fun state => .str (DesiredState.asStr state) :=
  again_literal fun state => by cases state <;> rfl

theorem again_credentialOrigin : Again (literal credentialOrigins)
    fun origin => .str (CredentialOrigin.asStr origin) :=
  again_literal fun origin => by cases origin <;> rfl

theorem again_resourceOrigin : Again (literal resourceOrigins)
    fun origin => .str (ResourceOrigin.asStr origin) :=
  again_literal fun origin => by cases origin <;> rfl

theorem again_backend : Again (literal backends) fun be => .str be.asStr :=
  again_literal fun be => by cases be <;> rfl

theorem stable_optionalInt : Stable fl 0 (optionalInt site) intJson :=
  stable_nullable (stable_intWith _) fun _ => Json.noConfusion

theorem passing_eq_some {α : Type} {check : α → Except String Unit} {v passed : α} :
    passing check v = some passed ↔ v = passed ∧ check passed = .ok () := by
  unfold passing
  constructor
  · intro h
    split at h
    next hchk =>
      cases h
      exact ⟨rfl, hchk⟩
    · cases h
  · rintro ⟨rfl, hchk⟩
    rw [hchk]

/-! What each validator takes, field by field. -/

theorem RelayAccount.validate_eq_some {a : RelayAccount} :
    RelayAccount.validate (.obj fs) = some a ↔
      required fs "email" (strWith isRelayEmail) = some a.email
      ∧ required fs "credential_ref" (strLen 3 160) = some a.credentialRef
      ∧ closed fs ["email", "credential_ref"] = true := by
  unfold RelayAccount.validate object
  simp only [↓bind_eq_some, ↓Option.ite_none_right_eq_some]
  constructor
  · rintro ⟨email, hemail, ref, href, hclo, heq⟩
    cases heq
    exact ⟨hemail, href, hclo⟩
  · rintro ⟨hemail, href, hclo⟩
    exact ⟨_, hemail, _, href, hclo, rfl⟩

theorem RelaySection.validate_eq_some {relay : RelaySection} :
    RelaySection.validate site (.obj fs) = some relay ↔
      required fs "enabled" (boolean site.numerals) = some relay.enabled
      ∧ required fs "port" (intWith site.numerals fun port => 1 ≤ port && port ≤ 65535)
        = some relay.port
      ∧ required fs "server_name" (strLen 1 253) = some relay.serverName
      ∧ optional fs "accounts" [] (list 64 RelayAccount.validate) = some relay.accounts
      ∧ closed fs ["enabled", "port", "server_name", "accounts"] = true := by
  unfold RelaySection.validate object
  simp only [↓bind_eq_some, ↓Option.ite_none_right_eq_some]
  constructor
  · rintro ⟨enabled, hen, port, hport, name, hnm, accs, haccts, hclo, heq⟩
    cases heq
    exact ⟨hen, hport, hnm, haccts, hclo⟩
  · rintro ⟨hen, hport, hnm, haccts, hclo⟩
    exact ⟨_, hen, _, hport, _, hnm, _, haccts, hclo, rfl⟩

theorem EgressDocument.validate_eq_some {eg : EgressDocument} :
    EgressDocument.validate site (.obj fs) = some eg ↔
      required fs "backend" (literal backends) = some eg.backend
      ∧ required fs "policy_id" (strLen 1 64) = some eg.policyId
      ∧ required fs "policy_revision" (intWith site.numerals fun rev => 1 ≤ rev)
        = some eg.policyRevision
      ∧ required fs "document" dict = some eg.document
      ∧ required fs "digest" (strWith isDigest) = some eg.digest
      ∧ optional fs "companion" none (nullable dict) = some eg.companion
      ∧ optional fs "passthrough" false (boolean site.numerals) = some eg.passthrough
      ∧ closed fs ["backend", "policy_id", "policy_revision", "document", "digest",
        "companion", "passthrough"] = true
      ∧ eg.check site = .ok () := by
  unfold EgressDocument.validate object
  simp only [↓bind_eq_some, ↓Option.ite_none_right_eq_some, passing_eq_some]
  constructor
  · rintro ⟨be, hback, id, hid, rev, hrev, d, hdoc, dig, hdig,
      companion, hcomp, passthrough, hpass, hclo, rfl, hchk⟩
    exact ⟨hback, hid, hrev, hdoc, hdig, hcomp, hpass, hclo, hchk⟩
  · rintro ⟨hback, hid, hrev, hdoc, hdig, hcomp, hpass, hclo, hchk⟩
    exact ⟨_, hback, _, hid, _, hrev, _, hdoc, _, hdig, _, hcomp, _, hpass, hclo, rfl, hchk⟩

theorem Resource.validate_eq_some {r : Resource} : Resource.validate site (.obj fs) = some r ↔
      required fs "ref" (strLen 1 128) = some r.reference
      ∧ required fs "protocol" (literal protocols) = some r.protocol
      ∧ required fs "runtime_username" (strWith isUsername) = some r.runtimeUsername
      ∧ required fs "desired_state" (literal desiredStates) = some r.desiredState
      ∧ required fs "credential_ref" (strLen 1 160) = some r.credentialRef
      ∧ required fs "credential_origin" (literal credentialOrigins) = some r.credentialOrigin
      ∧ optional fs "origin" .provisioned (literal resourceOrigins) = some r.origin
      ∧ optional fs "options" [] dict = some r.options
      ∧ optional fs "valid_from" none (optionalInt site) = some r.validFrom
      ∧ optional fs "valid_until" none (optionalInt site) = some r.validUntil
      ∧ (∃ own, optional fs "lane" none (nullable lane) = some own ∧ own.isSome = r.ownLane)
      ∧ closed fs Resource.declared = true := by
  unfold Resource.validate object
  simp only [↓bind_eq_some, ↓Option.ite_none_right_eq_some]
  constructor
  · rintro ⟨ref, href, p, hprot, name, hnm, state, hsta, cred, hcred,
      chosen, hchos, origin, horig, options, hopts, start, hst, finish, hfin, own,
      hown, hclo, heq⟩
    cases heq
    exact ⟨href, hprot, hnm, hsta, hcred, hchos, horig, hopts, hst, hfin, ⟨own, hown, rfl⟩, hclo⟩
  · rintro ⟨href, hprot, hnm, hsta, hcred, hchos, horig, hopts, hst, hfin, ⟨own, hown, hlane⟩, hclo⟩
    refine ⟨_, href, _, hprot, _, hnm, _, hsta, _, hcred, _, hchos, _, horig, _,
      hopts, _, hst, _, hfin, own, hown, hclo, ?_⟩
    rw [hlane]

theorem GenerationDocument.validate_eq_some {d : GenerationDocument} :
    GenerationDocument.validate site (.obj fs) = some d ↔
      optional fs "schema_version" () (literalInt site.numerals schemaVersion) = some ()
      ∧ required fs "node_guid" (strLen 1 64) = some d.nodeGuid
      ∧ required fs "master_guid" (strLen 1 64) = some d.masterGuid
      ∧ required fs "generation" (intWith site.numerals fun number => 1 ≤ number)
        = some d.generation
      ∧ required fs "previous_generation" (intWith site.numerals fun number => 0 ≤ number)
        = some d.previousGeneration
      ∧ required fs "created_at" (intWith site.numerals fun _ => true) = some d.createdAt
      ∧ required fs "created_by" (strLen 0 128) = some d.createdBy
      ∧ required fs "resources" (list maxResources (Resource.validate site)) = some d.resources
      ∧ optional fs "egress" none (nullable (dictOf egressKey (EgressDocument.validate site)))
        = some d.egress
      ∧ optional fs "relay" none (nullable (RelaySection.validate site)) = some d.relay
      ∧ closed fs GenerationDocument.declared = true
      ∧ d.check = .ok () := by
  unfold GenerationDocument.validate object
  simp only [↓bind_eq_some, ↓Option.ite_none_right_eq_some, passing_eq_some]
  constructor
  · rintro ⟨⟨⟩, hver, node, hnode, master, hmas, number, hnum, prev, hprev,
      created, hcre, author, hauth, resources, hres, egress, hegr, relay, hrel,
      hclo, rfl, hchk⟩
    exact ⟨hver, hnode, hmas, hnum, hprev, hcre, hauth, hres, hegr, hrel, hclo, hchk⟩
  · rintro ⟨hver, hnode, hmas, hnum, hprev, hcre, hauth, hres, hegr, hrel, hclo, hchk⟩
    exact ⟨_, hver, _, hnode, _, hmas, _, hnum, _, hprev, _, hcre, _, hauth, _,
      hres, _, hegr, _, hrel, hclo, rfl, hchk⟩

/-! Each dump is taken by its validator: its keys are those declared, and under each key is
the dump of a value that was taken. -/

theorem RelayAccount.stable : Stable fl 1 RelayAccount.validate RelayAccount.dump := by
  have hk : ["email", "credential_ref"].Nodup := by decide
  refine stable_object fun fs a h => ?_
  obtain ⟨hemail, href, -⟩ := RelayAccount.validate_eq_some.mp h
  refine ⟨?_, fun inner hlst hfits => ?_⟩
  · refine RelayAccount.validate_eq_some.mpr
      ⟨required_of_mem hk ?_ ((again_strWith _).required hemail),
        required_of_mem hk ?_ ((again_strWith _).required href), closed_keys _⟩
    all_goals simp only [mem_cons, true_or, or_true]
  · refine fits_obj hk ?_
    simp only [forall_mem_cons]
    exact ⟨fits_str _ _, fits_str _ _, nofun⟩

theorem RelaySection.stable : Stable fl 3 (RelaySection.validate site) RelaySection.dump := by
  have hlists : Stable fl 2 (list 64 RelayAccount.validate)
      fun accs => .arr (accs.map RelayAccount.dump) := stable_list 64 RelayAccount.stable
  have hk : ["enabled", "port", "server_name", "accounts"].Nodup := by decide
  refine stable_object fun fs relay h => ?_
  obtain ⟨hen, hport, hnm, haccts, -⟩ := RelaySection.validate_eq_some.mp h
  refine ⟨?_, fun inner hlst hfits => ?_⟩
  · refine RelaySection.validate_eq_some.mpr ⟨required_of_mem hk ?_ (again_boolean.required hen),
        required_of_mem hk ?_ ((again_intWith _).required hport),
        required_of_mem hk ?_ ((again_strWith _).required hnm),
        optional_of_mem hk ?_ (hlists.again.optional rfl haccts), closed_keys _⟩
    all_goals simp only [mem_cons, true_or, or_true]
  · have hemp : Fits fl (.arr (([] : List RelayAccount).map RelayAccount.dump)) inner := by
      rw [map_nil, Fits, FitsItems]
      exact ⟨by omega, trivial⟩
    refine fits_obj hk ?_
    simp only [forall_mem_cons]
    exact ⟨fits_bool _ _, (stable_intWith _).fits_required hport (Nat.zero_le _) hfits, fits_str _ _,
      hlists.fits_optional hemp haccts (by omega) hfits,
      nofun⟩

theorem EgressDocument.stable : Stable fl 1 (EgressDocument.validate site) EgressDocument.dump := by
  have hdicts : Stable fl 0 dict .obj := stable_dict
  have hcomps : Stable fl 0 (nullable dict) fun comp => comp.elim .null .obj :=
    stable_nullable stable_dict fun _ => Json.noConfusion
  have hk : ["backend", "policy_id", "policy_revision", "document", "digest", "companion",
      "passthrough"].Nodup := by decide
  refine stable_object fun fs eg h => ?_
  obtain ⟨hback, hid, hrev, hdoc, hdig, hcomp, hpass, -, hchk⟩ :=
    EgressDocument.validate_eq_some.mp h
  refine ⟨?_, fun inner hlst hfits => ?_⟩
  · refine EgressDocument.validate_eq_some.mpr
      ⟨required_of_mem hk ?_ (again_backend.required hback),
        required_of_mem hk ?_ ((again_strWith _).required hid),
        required_of_mem hk ?_ ((again_intWith _).required hrev),
        required_of_mem hk ?_ (hdicts.again.required hdoc),
        required_of_mem hk ?_ ((again_strWith _).required hdig),
        optional_of_mem hk ?_ (hcomps.again.optional rfl hcomp),
        optional_of_mem hk ?_ (again_boolean.optional rfl hpass), closed_keys _, hchk⟩
    all_goals simp only [mem_cons, true_or, or_true]
  · refine fits_obj hk ?_
    simp only [forall_mem_cons]
    exact ⟨fits_str _ _, fits_str _ _, (stable_intWith _).fits_required hrev (Nat.zero_le _) hfits,
      hdicts.fits_required hdoc (Nat.zero_le _) hfits, fits_str _ _,
      hcomps.fits_optional (fits_null _) hcomp (Nat.zero_le _) hfits, fits_bool _ _,
      nofun⟩

theorem Resource.stable : Stable fl 2 (Resource.validate site) Resource.dump := by
  have hdicts : Stable fl 0 dict .obj := stable_dict
  have hdates : Stable fl 0 (optionalInt site) intJson := stable_optionalInt
  have hk : Resource.declared.Nodup := by decide
  refine stable_object fun fs r h => ?_
  obtain ⟨href, hprot, hnm, hsta, hcred, hchos, horig, hopts, hst,
    hfin, -, -⟩ := Resource.validate_eq_some.mp h
  refine ⟨?_, fun inner hlst hfits => ?_⟩
  · have hlane : nullable lane (if r.ownLane then .str "own" else .null)
        = some (if r.ownLane then some () else none) := by
      cases r.ownLane <;> rfl
    refine Resource.validate_eq_some.mpr ⟨required_of_mem hk ?_ ((again_strWith _).required href),
        required_of_mem hk ?_ (again_protocol.required hprot),
        required_of_mem hk ?_ ((again_strWith _).required hnm),
        required_of_mem hk ?_ (again_desiredState.required hsta),
        required_of_mem hk ?_ ((again_strWith _).required hcred),
        required_of_mem hk ?_ (again_credentialOrigin.required hchos),
        optional_of_mem hk ?_ (again_resourceOrigin.optional rfl horig),
        optional_of_mem hk ?_ (hdicts.again.optional rfl hopts),
        optional_of_mem hk ?_ (hdates.again.optional rfl hst),
        optional_of_mem hk ?_ (hdates.again.optional rfl hfin),
        ⟨_, optional_of_mem hk ?_ hlane, ?_⟩, closed_keys _⟩
    case refine_12 => cases r.ownLane <;> rfl
    all_goals simp only [mem_cons, true_or, or_true]
  · have hemp : Fits fl (.obj []) inner := by
      obtain ⟨inner, rfl⟩ : ∃ n, inner = n + 1 := ⟨inner - 1, by omega⟩
      exact fits_obj nodup_nil nofun
    have hlane : Fits fl (if r.ownLane then .str "own" else .null) inner := by
      split
      · exact fits_str _ _
      · exact fits_null _
    refine fits_obj hk ?_
    simp only [forall_mem_cons]
    exact ⟨fits_str _ _, fits_str _ _, fits_str _ _, fits_str _ _, fits_str _ _, fits_str _ _,
      fits_str _ _, hdicts.fits_optional hemp hopts (Nat.zero_le _) hfits,
      hdates.fits_optional (fits_null _) hst (Nat.zero_le _) hfits,
      hdates.fits_optional (fits_null _) hfin (Nat.zero_le _) hfits, hlane,
      nofun⟩

theorem eq_of_egressKey {text : String} {p : Protocol}
    (h : egressKey text = some p) : text = p.asStr := by
  have hmem := mem_of_find h
  simp only [protocols, mem_cons, Prod.mk.injEq, not_mem_nil, or_false] at hmem
  rcases hmem with ⟨rfl, rfl⟩ | ⟨rfl, rfl⟩ | ⟨rfl, rfl⟩ | ⟨rfl, rfl⟩ | ⟨rfl, rfl⟩ <;> rfl

theorem stable_egress : Stable fl 2 (nullable (dictOf egressKey (EgressDocument.validate site)))
      fun eg => eg.elim .null egressJson :=
  stable_nullable (stable_dictOf (fun _ _ => eq_of_egressKey)
    (fun p => by cases p <;> rfl) EgressDocument.stable) fun _ => Json.noConfusion

/-- **A document that was accepted is accepted again as it is kept.** -/
theorem GenerationDocument.stable :
    Stable fl 4 (GenerationDocument.validate site) GenerationDocument.dump := by
  have hlists : Stable fl 3 (list maxResources (Resource.validate site))
      fun rs => .arr (rs.map Resource.dump) := stable_list _ Resource.stable
  have hrelays : Stable fl 3 (nullable (RelaySection.validate site))
      fun relay => relay.elim .null RelaySection.dump :=
    stable_nullable RelaySection.stable fun _ => Json.noConfusion
  have hk : GenerationDocument.declared.Nodup := by decide
  refine stable_object fun fs d h => ?_
  obtain ⟨-, hnode, hmas, hnum, hprev, hcre, hauth, hres, hegr, hrel, -,
    hchk⟩ := GenerationDocument.validate_eq_some.mp h
  refine ⟨?_, fun inner hlst hfits => ?_⟩
  · have hschema : literalInt site.numerals schemaVersion (.int schemaVersion) = some () := rfl
    refine GenerationDocument.validate_eq_some.mpr
      ⟨optional_of_mem hk ?_ hschema, required_of_mem hk ?_ ((again_strWith _).required hnode),
        required_of_mem hk ?_ ((again_strWith _).required hmas),
        required_of_mem hk ?_ ((again_intWith _).required hnum),
        required_of_mem hk ?_ ((again_intWith _).required hprev),
        required_of_mem hk ?_ ((again_intWith _).required hcre),
        required_of_mem hk ?_ ((again_strWith _).required hauth),
        required_of_mem hk ?_ (hlists.again.required hres),
        optional_of_mem hk ?_ ((stable_egress : Stable fl 2 _ _).again.optional rfl hegr),
        optional_of_mem hk ?_ (hrelays.again.optional rfl hrel), closed_keys _, hchk⟩
    all_goals simp only [mem_cons, true_or, or_true]
  · have hver : Fits fl (.int schemaVersion) inner := by
      rw [Fits]
      rfl
    refine fits_obj hk ?_
    simp only [forall_mem_cons]
    exact ⟨hver, fits_str _ _, fits_str _ _,
      (stable_intWith _).fits_required hnum (Nat.zero_le _) hfits,
      (stable_intWith _).fits_required hprev (Nat.zero_le _) hfits,
      (stable_intWith _).fits_required hcre (Nat.zero_le _) hfits, fits_str _ _,
      hlists.fits_required hres (by omega) hfits,
      stable_egress.fits_optional (fits_null _) hegr (by omega) hfits,
      hrelays.fits_optional (fits_null _) hrel (by omega) hfits,
      nofun⟩

end

end Wire
