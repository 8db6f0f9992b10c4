import ProxyControl.Generations
import ProxyControl.JsonCanonical
import ProxyControl.Wire

/-!
# The digests of generation documents

A generation travels without the fields that hold their default, and it is kept with all
of them. Both are read as the document that was written (`GenerationDocument.validate_wire`,
and `GenerationDocument.stable` of the dump), so the digest that a node computes of what it
received is the one the central keeps.

The digest is of the canonical text with the resources in the order of their references. It
does not depend on the order they came in if their references are distinct. The *content
digest*, of the document without its number, its date and its author, says what a node would
run: two documents that were accepted have one exactly when they agree on all the rest
(`GenerationDocument.Agrees`).
-/

namespace Wire

open List
open Table
open Json
open Reconciler (Protocol DesiredState CredentialOrigin ResourceOrigin)
open Routing (Backend)

/-- The document with its numbering, its date and its author neutralised. -/
def GenerationDocument.neutral (document : GenerationDocument) : GenerationDocument :=
  { document with generation := 1, previousGeneration := 0, createdAt := 0, createdBy := "" }

/-- What a node would run, which decides whether a new generation is due. -/
def GenerationDocument.contentDigest (site : Site) (document : GenerationDocument) : String :=
  document.neutral.canonicalDigest site

/-! ## The document the central compiles -/

/-- What a node's reconcile does not read of a document: the accounts with lanes of their
own, the egress and the relay. -/
structure Sections where
  lanes : List Reconciler.Key
  egress : Option (List (Protocol × EgressDocument))
  relay : Option RelaySection

/-- The document as the central compiles and numbers it. -/
def GenerationDocument.compiled (d : GenerationDocument) : Generations.Document Json Sections where
  nodeGuid := d.nodeGuid
  masterGuid := d.masterGuid
  generation := d.generation
  resources := d.resources.map Resource.toResource
  sections := ⟨(d.resources.filter (·.ownLane)).map (·.key), d.egress, d.relay⟩
  previousGeneration := d.previousGeneration
  createdAt := d.createdAt
  createdBy := d.createdBy

/-- A compiled document as it travels. -/
def ofCompiled (d : Generations.Document Json Sections) : GenerationDocument where
  nodeGuid := d.nodeGuid
  masterGuid := d.masterGuid
  generation := d.generation
  previousGeneration := d.previousGeneration
  createdAt := d.createdAt
  createdBy := d.createdBy
  resources := d.resources.map fun r => ⟨r, r.key ∈ d.sections.lanes⟩
  egress := d.sections.egress
  relay := d.sections.relay

/-- A document in which no two accounts share a key is the one compiled. -/
theorem GenerationDocument.ofCompiled_compiled {d : GenerationDocument} (h : d.check = .ok ()) :
    ofCompiled d.compiled = d := by
  have hkeys : (d.resources.map (·.key)).Nodup := by
    simpa [Function.comp_def] using (Reconciler.GenerationDocument.nodup_of_go h).1
  have hlane (r : Resource) (hr : r ∈ d.resources) :
      decide (r.key ∈ (d.resources.filter (·.ownLane)).map (·.key)) = r.ownLane := by
    rw [Bool.eq_iff_iff, decide_eq_true_eq, mem_map]
    refine ⟨fun ⟨r', hr', hkey⟩ => ?_, fun hown => ⟨r, mem_filter.mpr ⟨hr, hown⟩, rfl⟩⟩
    obtain ⟨hmem, hown⟩ := mem_filter.mp hr'
    rwa [← inj_on_of_nodup_map hkeys hmem hr hkey]
  have hres : (ofCompiled d.compiled).resources = d.resources := by
    show (d.resources.map Resource.toResource).map _ = _
    rw [map_map]
    refine (map_congr_left fun r hr => ?_).trans (map_id _)
    exact congrArg (Resource.mk r.toResource) (hlane r hr)
  exact congrArg (fun resources => { d with resources := resources }) hres

/-- **One pair of digests**: where the central takes digests of what travels, those of a
compiled document are those of the document. -/
theorem GenerationDocument.digests_compiled {site : Site} {central : Generations.Site Json Sections}
    (hdigest : ∀ d, central.canonicalDigest d = (ofCompiled d).canonicalDigest site)
    {d : GenerationDocument} (h : d.check = .ok ()) :
    central.canonicalDigest d.compiled = d.canonicalDigest site
      ∧ Generations.contentDigest central d.compiled = d.contentDigest site := by
  have hcontent : Generations.contentDigest central d.compiled
      = (ofCompiled d.compiled).neutral.canonicalDigest site := hdigest _
  rw [hdigest, hcontent, ofCompiled_compiled h]
  exact ⟨rfl, rfl⟩

/-- **A document that was accepted**, of JSON as it is read. -/
def GenerationDocument.Valid (site : Site) (document : GenerationDocument) : Prop :=
  ∃ json : Json, json.Proper ∧ GenerationDocument.validate site json = some document

/-! ## Fields that are left out -/

section

variable {α : Type} {fs : Fields} {ns : List String} {name : String}
  {validate : Json → Option α} {default : α}

theorem find_kept (h : name ∉ ns) : find (fs.filter fun field => ! ns.contains field.1) name
      = find fs name := by
  rw [find_filter (fun key => ! ns.contains key)]
  simp [h]

theorem find_dropped (h : name ∈ ns) :
    find (fs.filter fun field => ! ns.contains field.1) name = none := by
  rw [find_filter (fun key => ! ns.contains key)]
  simp [h]

theorem required_kept (h : name ∉ ns) :
    required (fs.filter fun field => ! ns.contains field.1) name validate
      = required fs name validate := by
  rw [required, required, find_kept h]

theorem optional_kept (h : name ∉ ns) :
    optional (fs.filter fun field => ! ns.contains field.1) name default validate
      = optional fs name default validate := by
  rw [Json.optional, Json.optional, find_kept h]

/-- What is left out is taken to hold its default. -/
theorem optional_dropped (h : name ∈ ns) :
    optional (fs.filter fun field => ! ns.contains field.1) name default validate
      = some default := by
  rw [Json.optional, find_dropped h]

/-- What is left out holds its default. -/
theorem optional_unless {value : α} (hdef : name ∈ ns → value = default)
    (h : optional fs name default validate = some value) :
    optional (fs.filter fun field => ! ns.contains field.1) name default validate = some value := by
  by_cases hmem : name ∈ ns
  · rw [optional_dropped hmem, hdef hmem]
  · rw [optional_kept hmem, h]

theorem closed_kept {declared : List String} (h : closed fs declared = true) :
    closed (fs.filter fun field => ! ns.contains field.1) declared = true := by
  rw [closed, all_eq_true] at h ⊢
  exact fun field hmem => h field (mem_of_mem_filter hmem)

end

/-! ## What travels is read as it was -/

variable {json : Json} {egress : EgressDocument} {document : GenerationDocument}
  {resource : Resource} {xs ys : Fields} {α : Type} {right left : Option α} {name : String}
  {value : Json}

section

variable {site : Site}

theorem Resource.validate_wire : Again (Resource.validate site) Resource.wire := by
  intro json resource h
  have hdump := (Resource.stable : Stable .none 2 _ _).again h
  unfold Resource.wire
  cases hlane : resource.ownLane with
  | true =>
    have hsm : without [] resource.dump = resource.dump := by
      simp [without, Resource.dump]
    rw [if_pos rfl, hsm]
    exact hdump
  | false =>
    obtain ⟨href, hprot, hnm, hsta, hcred, hchos, horig, hopts, hst,
      hfin, -, hclo⟩ := Resource.validate_eq_some.mp hdump
    refine Resource.validate_eq_some.mpr ⟨?_, ?_, ?_, ?_, ?_, ?_, ?_, ?_, ?_, ?_, ?_, ?_⟩
    case refine_11 => exact ⟨none, optional_dropped (by decide), hlane.symm⟩
    case refine_12 => exact closed_kept hclo
    all_goals first | rw [required_kept (by decide)] | rw [optional_kept (by decide)]
    all_goals assumption

theorem EgressDocument.validate_wire : Again (EgressDocument.validate site) EgressDocument.wire := by
  intro json egress h
  have hdump := (EgressDocument.stable : Stable .none 1 _ _).again h
  obtain ⟨hback, hid, hrev, hdoc, hdig, hcomp, hpass, hclo,
    hchk⟩ := EgressDocument.validate_eq_some.mp hdump
  unfold EgressDocument.wire
  refine EgressDocument.validate_eq_some.mpr ⟨(required_kept ?_).trans hback,
    (required_kept ?_).trans hid, (required_kept ?_).trans hrev,
    (required_kept ?_).trans hdoc, (required_kept ?_).trans hdig,
    optional_unless ?_ hcomp, optional_unless ?_ hpass, closed_kept hclo, hchk⟩
  all_goals cases egress.companion <;> cases egress.passthrough <;> simp

def egressWire (egress : List (Protocol × EgressDocument)) : Json :=
  .obj (egress.map fun entry => (entry.1.asStr, entry.2.wire))

/-- The document as it travels, before what is absent is left out. -/
def GenerationDocument.full (document : GenerationDocument) : Fields :=
  [("schema_version", .int schemaVersion), ("node_guid", .str document.nodeGuid),
    ("master_guid", .str document.masterGuid), ("generation", .int document.generation),
    ("previous_generation", .int document.previousGeneration),
    ("created_at", .int document.createdAt), ("created_by", .str document.createdBy),
    ("resources", .arr (document.resources.map Resource.wire)),
    ("egress", document.egress.elim .null egressWire),
    ("relay", document.relay.elim .null RelaySection.dump)]

def GenerationDocument.absent (document : GenerationDocument) : List String :=
  (if document.egress.isNone then ["egress"] else [])
    ++ if document.relay.isNone then ["relay"] else []

theorem GenerationDocument.wire_eq (d : GenerationDocument) :
    d.wire = without d.absent (.obj d.full) := by
  unfold GenerationDocument.wire GenerationDocument.wireOf GenerationDocument.absent
    GenerationDocument.full without
  cases d.egress <;> cases d.relay <;> rfl

theorem GenerationDocument.validate_full :
    Again (GenerationDocument.validate site) fun document => .obj document.full := by
  intro json document h
  have hk : GenerationDocument.declared.Nodup := by decide
  have hdump := (GenerationDocument.stable : Stable .none 4 _ _).again h
  obtain ⟨hver, hnode, hmas, hnum, hprev, hcre, hauth, hres, hegr,
    hrel, -, hchk⟩ := GenerationDocument.validate_eq_some.mp hdump
  have hlists : Again (list maxResources (Resource.validate site))
      fun rs => .arr (rs.map Resource.wire) := .list _ Resource.validate_wire
  have htab : Again (nullable (dictOf egressKey (EgressDocument.validate site)))
      fun egress => egress.elim .null egressWire :=
    .nullable (.dictOf (fun _ _ => eq_of_egressKey) (fun p => by cases p <;> rfl)
      EgressDocument.validate_wire) fun _ => Json.noConfusion
  refine GenerationDocument.validate_eq_some.mpr ⟨hver, hnode, hmas, hnum, hprev,
    hcre, hauth, required_of_mem hk ?_ (hlists.required hres),
    optional_of_mem hk ?_ (htab.optional rfl hegr), hrel,
    closed_keys _, hchk⟩
  all_goals simp only [GenerationDocument.full, mem_cons, true_or, or_true]

/-- **What travels is read as the document that was sent.** -/
theorem GenerationDocument.validate_wire :
    Again (GenerationDocument.validate site) GenerationDocument.wire := by
  intro json document h
  obtain ⟨hver, hnode, hmas, hnum, hprev, hcre, hauth, hres, hegr, hrel, hclo, hchk⟩ :=
    GenerationDocument.validate_eq_some.mp (GenerationDocument.validate_full h)
  rw [GenerationDocument.wire_eq]
  refine GenerationDocument.validate_eq_some.mpr ⟨(optional_kept ?_).trans hver,
    (required_kept ?_).trans hnode, (required_kept ?_).trans hmas,
    (required_kept ?_).trans hnum, (required_kept ?_).trans hprev,
    (required_kept ?_).trans hcre, (required_kept ?_).trans hauth,
    (required_kept ?_).trans hres, optional_unless ?_ hegr, optional_unless ?_ hrel,
    closed_kept hclo, hchk⟩
  all_goals
    unfold GenerationDocument.absent
    cases document.egress <;> cases document.relay <;> simp

end

/-! ## What documents agree on -/

/-- Equal up to the order of keys. -/
def Same (a b : Fields) : Prop := normal (.obj a) = normal (.obj b)

structure Resource.Agrees (a b : Resource) : Prop where
  reference : a.reference = b.reference
  protocol : a.protocol = b.protocol
  runtimeUsername : a.runtimeUsername = b.runtimeUsername
  desiredState : a.desiredState = b.desiredState
  credentialRef : a.credentialRef = b.credentialRef
  credentialOrigin : a.credentialOrigin = b.credentialOrigin
  origin : a.origin = b.origin
  options : Same a.options b.options
  validFrom : a.validFrom = b.validFrom
  validUntil : a.validUntil = b.validUntil
  ownLane : a.ownLane = b.ownLane

structure EgressDocument.Agrees (a b : EgressDocument) : Prop where
  backend : a.backend = b.backend
  policyId : a.policyId = b.policyId
  policyRevision : a.policyRevision = b.policyRevision
  document : Same a.document b.document
  digest : a.digest = b.digest
  companion : Option.Rel Same a.companion b.companion
  passthrough : a.passthrough = b.passthrough

/-- The resources in the order of their references. -/
def byReference (resources : List Resource) : List Resource :=
  resources.insertionSort fun a b => a.reference ≤ b.reference

/-- **Agreement on all but the numbers, the date and the author.** Neither the order of
resources nor that of keys counts. -/
structure GenerationDocument.Agrees (a b : GenerationDocument) : Prop where
  nodeGuid : a.nodeGuid = b.nodeGuid
  masterGuid : a.masterGuid = b.masterGuid
  resources : List.Forall₂ Resource.Agrees (byReference a.resources) (byReference b.resources)
  egress : Option.Rel (fun xs ys => ∀ protocol,
    Option.Rel EgressDocument.Agrees (find xs protocol) (find ys protocol))
    a.egress b.egress
  relay : a.relay = b.relay

/-! ## Resources by their wire -/

def Resource.wireFields (resource : Resource) : Fields :=
  [("ref", .str resource.reference), ("protocol", .str resource.protocol.asStr),
    ("runtime_username", .str resource.runtimeUsername),
    ("desired_state", .str (DesiredState.asStr resource.desiredState)),
    ("credential_ref", .str resource.credentialRef),
    ("credential_origin", .str (CredentialOrigin.asStr resource.credentialOrigin)),
    ("origin", .str (ResourceOrigin.asStr resource.origin)), ("options", .obj resource.options),
    ("valid_from", intJson resource.validFrom), ("valid_until", intJson resource.validUntil)]
  ++ if resource.ownLane then [("lane", .str "own")] else []

theorem Resource.wire_eq (r : Resource) : r.wire = .obj r.wireFields := by
  unfold Resource.wire Resource.dump Resource.wireFields
  cases r.ownLane <;> rfl

theorem Resource.nodup_wireFields (r : Resource) : (r.wireFields.map Prod.fst).Nodup := by
  unfold Resource.wireFields
  cases r.ownLane
  · show ["ref", "protocol", "runtime_username", "desired_state", "credential_ref",
      "credential_origin", "origin", "options", "valid_from", "valid_until"].Nodup
    decide
  · show Resource.declared.Nodup
    decide

theorem asStr_inj {a b : Protocol} (h : a.asStr = b.asStr) : a = b := by
  cases a <;> cases b <;> first | rfl | exact absurd h (by decide)

theorem DesiredState.asStr_inj {a b : DesiredState}
    (h : DesiredState.asStr a = DesiredState.asStr b) : a = b := by
  cases a <;> cases b <;> first | rfl | exact absurd h (by decide)

theorem CredentialOrigin.asStr_inj {a b : CredentialOrigin}
    (h : CredentialOrigin.asStr a = CredentialOrigin.asStr b) : a = b := by
  cases a <;> cases b <;> first | rfl | exact absurd h (by decide)

theorem ResourceOrigin.asStr_inj {a b : ResourceOrigin}
    (h : ResourceOrigin.asStr a = ResourceOrigin.asStr b) : a = b := by
  cases a <;> cases b <;> first | rfl | exact absurd h (by decide)

theorem backend_asStr_inj {a b : Backend} (h : a.asStr = b.asStr) : a = b := by
  cases a <;> cases b <;> first | rfl | exact absurd h (by decide)

theorem normal_obj_congr (h : normalFields xs = normalFields ys) :
    normal (.obj xs) = normal (.obj ys) := by
  rw [normal, normal, h]

/-- What two optional fields must have in common. -/
theorem rel_of_optional_field {R : α → α → Prop} {json : α → Json}
    (h : normal (.obj xs) = normal (.obj ys))
    (hxs : ∀ x, (name, x) ∈ xs ↔ ∃ a, left = some a ∧ x = json a)
    (hys : ∀ y, (name, y) ∈ ys ↔ ∃ b, right = some b ∧ y = json b)
    (hR : ∀ a b, left = some a → right = some b → normal (json a) = normal (json b) → R a b) :
    Option.Rel R left right := by
  cases left with
  | none =>
    cases right with
    | none => exact .none
    | some b =>
      obtain ⟨x, hx, -⟩ := exists_mem_of_normal_eq h.symm ((hys _).mpr ⟨b, rfl, rfl⟩)
      obtain ⟨a, ha, -⟩ := (hxs x).mp hx
      cases ha
  | some a =>
    obtain ⟨y, hy, heq⟩ := exists_mem_of_normal_eq h ((hxs _).mpr ⟨a, rfl, rfl⟩)
    obtain ⟨b, rfl, rfl⟩ := (hys y).mp hy
    exact .some (hR a b rfl rfl heq.symm)

theorem eq_of_rel_eq {a b : Option α} (h : Option.Rel (fun x y => x = y) a b) : a = b := by
  cases h with
  | none => rfl
  | some heq => rw [heq]

/-- Optional fields with the same in them. -/
theorem normalFields_optional_field {json : α → Json}
    (h : Option.Rel (fun a b => normal (json a) = normal (json b)) left right) :
    normalFields (left.map fun a => (name, json a)).toList
      = normalFields (right.map fun b => (name, json b)).toList := by
  cases h with
  | none => rfl
  | some heq => exact congrArg (fun value => [(name, value)]) heq

theorem normalFields_append (xs ys : Fields) :
    normalFields (xs ++ ys) = normalFields xs ++ normalFields ys := by
  rw [normalFields_eq_map, normalFields_eq_map, normalFields_eq_map, map_append]

theorem intJson_inj {a b : Option Int} (h : normal (intJson a) = normal (intJson b)) : a = b := by
  cases a <;> cases b <;> cases h <;> rfl

theorem Resource.normal_wire_iff {a b : Resource} : normal a.wire = normal b.wire ↔ a.Agrees b := by
  rw [Resource.wire_eq, Resource.wire_eq]
  constructor
  · intro h
    have hfield := normal_eq_of_mem h b.nodup_wireFields
    have htext := str_eq_of_mem h b.nodup_wireFields
    have hlane : ∀ r : Resource, r.ownLane = true ↔ ∃ x, ("lane", x) ∈ r.wireFields := by
      intro r
      unfold Resource.wireFields
      cases r.ownLane <;> simp
    refine ⟨htext "ref" ?_ ?_, asStr_inj (htext "protocol" ?_ ?_), htext "runtime_username" ?_ ?_,
      DesiredState.asStr_inj (htext "desired_state" ?_ ?_),
      htext "credential_ref" ?_ ?_,
      CredentialOrigin.asStr_inj (htext "credential_origin" ?_ ?_),
      ResourceOrigin.asStr_inj (htext "origin" ?_ ?_),
      hfield "options" ?_ ?_,
      intJson_inj (hfield "valid_from" ?_ ?_),
      intJson_inj (hfield "valid_until" ?_ ?_), ?_⟩
    case refine_21 =>
      rw [Bool.eq_iff_iff, hlane, hlane]
      exact exists_mem_iff_of_normal_eq h _
    all_goals
      unfold Resource.wireFields
      simp
  · intro h
    refine normal_obj_congr ?_
    unfold Resource.wireFields
    rw [h.ownLane]
    have hopts := h.options
    unfold Same at hopts
    simp only [normalFields_eq_map, map_append, map_cons, h.reference, h.protocol,
      h.runtimeUsername, h.desiredState, h.credentialRef, h.credentialOrigin, h.origin,
      h.validFrom, h.validUntil, hopts]

/-! ## Egress documents by their wire -/

def EgressDocument.wireFields (egress : EgressDocument) : Fields :=
  [("backend", .str egress.backend.asStr), ("policy_id", .str egress.policyId),
    ("policy_revision", .int egress.policyRevision), ("document", .obj egress.document),
    ("digest", .str egress.digest)]
  ++ (egress.companion.map fun companion => ("companion", .obj companion)).toList
  ++ if egress.passthrough then [("passthrough", .bool true)] else []

theorem EgressDocument.wire_eq (eg : EgressDocument) : eg.wire = .obj eg.wireFields := by
  unfold EgressDocument.wire EgressDocument.dump EgressDocument.wireFields
  cases eg.companion <;> cases eg.passthrough <;> rfl

theorem EgressDocument.nodup_wireFields (eg : EgressDocument) :
    (eg.wireFields.map Prod.fst).Nodup := by
  have hall : ["backend", "policy_id", "policy_revision", "document", "digest", "companion",
      "passthrough"].Nodup := by decide
  refine List.Nodup.sublist ?_ hall
  unfold EgressDocument.wireFields
  cases eg.companion <;> cases eg.passthrough <;> simp

theorem EgressDocument.normal_wire_iff {a b : EgressDocument} :
    normal a.wire = normal b.wire ↔ a.Agrees b := by
  rw [EgressDocument.wire_eq, EgressDocument.wire_eq]
  constructor
  · intro h
    have hfield := normal_eq_of_mem h b.nodup_wireFields
    have htext := str_eq_of_mem h b.nodup_wireFields
    have hcomp : ∀ (e : EgressDocument) x, ("companion", x) ∈ e.wireFields ↔
        ∃ companion, e.companion = some companion ∧ x = .obj companion := by
      intro e x
      unfold EgressDocument.wireFields
      cases e.companion <;> cases e.passthrough <;> simp
    have hflag : ∀ e : EgressDocument,
        e.passthrough = true ↔ ∃ x, ("passthrough", x) ∈ e.wireFields := by
      intro e
      unfold EgressDocument.wireFields
      cases e.companion <;> cases e.passthrough <;> simp
    refine ⟨backend_asStr_inj (htext "backend" ?_ ?_), htext "policy_id" ?_ ?_,
      Json.int.inj (hfield (x := .int _) (y := .int _) "policy_revision" ?_ ?_), hfield "document" ?_ ?_,
      htext "digest" ?_ ?_, ?_, ?_⟩
    case refine_11 =>
      exact rel_of_optional_field h (hcomp a) (hcomp b) fun _ _ _ _ heq => heq
    case refine_12 =>
      rw [Bool.eq_iff_iff, hflag, hflag]
      exact exists_mem_iff_of_normal_eq h _
    all_goals
      unfold EgressDocument.wireFields
      simp
  · intro h
    have hdoc := h.document
    unfold Same at hdoc
    refine normal_obj_congr ?_
    unfold EgressDocument.wireFields
    rw [normalFields_append, normalFields_append, normalFields_append, normalFields_append,
      normalFields_optional_field h.companion, h.passthrough]
    simp only [normalFields_eq_map, map_cons, h.backend, h.policyId, h.policyRevision,
      hdoc, h.digest]

/-! ## Relays by their dump -/

theorem map_eq_map_iff_forall₂ {β : Type} {f : α → β} {xs ys : List α} :
    xs.map f = ys.map f ↔ List.Forall₂ (fun x y => f x = f y) xs ys := by
  rw [← forall₂_eq_eq_eq, forall₂_map_left_iff, forall₂_map_right_iff]

theorem normal_arr_map (f : α → Json) (xs : List α) :
    normal (.arr (xs.map f)) = .arr (xs.map fun x => normal (f x)) := by
  rw [normal, normalItems_eq_map, map_map]
  rfl

theorem RelayAccount.normal_dump_inj {a b : RelayAccount} (h : normal a.dump = normal b.dump) :
    a = b := by
  obtain ⟨email, ref⟩ := a
  obtain ⟨email', ref'⟩ := b
  have hk : ["email", "credential_ref"].Nodup := by decide
  have hemail : email = email' :=
    str_eq_of_mem h hk _ mem_cons_self mem_cons_self
  have href : ref = ref' :=
    str_eq_of_mem h hk _ (.tail _ mem_cons_self) (.tail _ mem_cons_self)
  rw [hemail, href]

theorem RelaySection.normal_dump_iff {a b : RelaySection} :
    normal a.dump = normal b.dump ↔ a = b := by
  refine ⟨fun h => ?_, fun h => by rw [h]⟩
  obtain ⟨enabled, port, name, accs⟩ := a
  obtain ⟨enabled', port', name', accs'⟩ := b
  have hk : ["enabled", "port", "server_name", "accounts"].Nodup := by decide
  have hen : normal (.bool enabled) = normal (.bool enabled') :=
    normal_eq_of_mem h hk _ mem_cons_self mem_cons_self
  have hport : normal (.int port) = normal (.int port') :=
    normal_eq_of_mem h hk _ (.tail _ mem_cons_self) (.tail _ mem_cons_self)
  have hnm : name = name' :=
    str_eq_of_mem h hk _ (.tail _ (.tail _ mem_cons_self)) (.tail _ (.tail _ mem_cons_self))
  have haccts : normal (.arr (accs.map RelayAccount.dump))
      = normal (.arr (accs'.map RelayAccount.dump)) :=
    normal_eq_of_mem h hk _ (.tail _ (.tail _ (.tail _ mem_cons_self)))
      (.tail _ (.tail _ (.tail _ mem_cons_self)))
  rw [normal_arr_map, normal_arr_map] at haccts
  have hinj : Function.Injective fun acc : RelayAccount => normal acc.dump :=
    fun _ _ => RelayAccount.normal_dump_inj
  rw [Json.bool.inj hen, Json.int.inj hport, hnm, hinj.list_map (Json.arr.inj haccts)]

/-! ## Egress tables by their wire -/

abbrev EgressTable := List (Protocol × EgressDocument)

def wireTable (egress : EgressTable) : Fields :=
  egress.map fun entry => (entry.1.asStr, entry.2.wire)

theorem nodup_wireTable {eg : EgressTable} (h : (eg.map Prod.fst).Nodup) :
    ((wireTable eg).map Prod.fst).Nodup := by
  unfold wireTable
  rw [map_map]
  show (eg.map (Protocol.asStr ∘ Prod.fst)).Nodup
  rw [← map_map]
  exact h.map fun _ _ => asStr_inj

theorem mem_wireTable {eg : EgressTable} {protocol : Protocol} :
    (protocol.asStr, value) ∈ wireTable eg
      ↔ ∃ document, (protocol, document) ∈ eg ∧ value = document.wire := by
  unfold wireTable
  rw [mem_map]
  constructor
  · rintro ⟨⟨o, document⟩, hmem, heq⟩
    obtain ⟨hnm, rfl⟩ := Prod.mk.inj heq
    obtain rfl : o = protocol := asStr_inj hnm
    exact ⟨document, hmem, rfl⟩
  · rintro ⟨document, hmem, rfl⟩
    exact ⟨(protocol, document), hmem, rfl⟩

theorem normal_wireTable_iff {xs ys : EgressTable} (hxs : (xs.map Prod.fst).Nodup)
    (hys : (ys.map Prod.fst).Nodup) :
    normal (.obj (wireTable xs)) = normal (.obj (wireTable ys)) ↔
      ∀ p, Option.Rel EgressDocument.Agrees (find xs p) (find ys p) := by
  constructor
  · intro h p
    cases hx : find xs p with
    | none =>
      cases hy : find ys p with
      | none => exact .none
      | some document =>
        obtain ⟨value, hval, -⟩ := exists_mem_of_normal_eq h.symm
          (mem_wireTable.mpr ⟨document, mem_of_find hy, rfl⟩)
        obtain ⟨o, hoth, -⟩ := mem_wireTable.mp hval
        rw [find_of_mem hxs hoth] at hx
        cases hx
    | some document =>
      obtain ⟨value, hval, heq⟩ := exists_mem_of_normal_eq h
        (mem_wireTable.mpr ⟨document, mem_of_find hx, rfl⟩)
      obtain ⟨o, hoth, rfl⟩ := mem_wireTable.mp hval
      rw [find_of_mem hys hoth]
      exact .some (EgressDocument.normal_wire_iff.mp heq.symm)
  · intro h
    have hhalf : ∀ {xs ys : EgressTable}, (xs.map Prod.fst).Nodup →
        (∀ p document, find xs p = some document →
          ∃ o, find ys p = some o ∧ normal o.wire = normal document.wire) →
        ∀ name x, (name, x) ∈ wireTable xs → ∃ y, (name, y) ∈ wireTable ys ∧ normal y = normal x := by
      intro xs ys hxs hall name x hmem
      obtain ⟨⟨p, document⟩, hent, heq⟩ := mem_map.mp hmem
      cases heq
      obtain ⟨o, hoth, hsm⟩ := hall p document (find_of_mem hxs hent)
      exact ⟨o.wire, mem_wireTable.mpr ⟨o, mem_of_find hoth, rfl⟩, hsm⟩
    refine normal_obj_eq (nodup_wireTable hxs) (nodup_wireTable hys)
      (hhalf hxs fun p document hf => ?_) (hhalf hys fun p document hf => ?_)
    · have hrel := h p
      rw [hf] at hrel
      generalize find ys p = found at hrel ⊢
      cases hrel with
      | some hagr => exact ⟨_, rfl, (EgressDocument.normal_wire_iff.mpr hagr).symm⟩
    · have hrel := h p
      rw [hf] at hrel
      generalize find xs p = found at hrel ⊢
      cases hrel with
      | some hagr => exact ⟨_, rfl, EgressDocument.normal_wire_iff.mpr hagr⟩

/-! ## Documents by their wire -/

def GenerationDocument.wireFields (document : GenerationDocument) (resources : List Resource) :
    Fields :=
  [("schema_version", .int schemaVersion), ("node_guid", .str document.nodeGuid),
      ("master_guid", .str document.masterGuid), ("generation", .int document.generation),
      ("previous_generation", .int document.previousGeneration),
      ("created_at", .int document.createdAt), ("created_by", .str document.createdBy),
      ("resources", .arr (resources.map Resource.wire))]
    ++ (document.egress.map fun egress => ("egress", .obj (wireTable egress))).toList
    ++ (document.relay.map fun relay => ("relay", relay.dump)).toList

theorem GenerationDocument.wireOf_eq (d : GenerationDocument) (rs : List Resource) :
    d.wireOf rs = .obj (d.wireFields rs) := rfl

theorem GenerationDocument.nodup_wireFields (d : GenerationDocument)
    (rs : List Resource) : ((d.wireFields rs).map Prod.fst).Nodup := by
  have hk : GenerationDocument.declared.Nodup := by decide
  refine List.Nodup.sublist ?_ hk
  unfold GenerationDocument.wireFields GenerationDocument.declared
  cases d.egress <;> cases d.relay <;> simp

/-- The egress table of a document has one entry for each protocol. -/
def GenerationDocument.Tabled (document : GenerationDocument) : Prop :=
  ∀ egress, document.egress = some egress → (egress.map Prod.fst).Nodup

theorem GenerationDocument.normal_wire_iff {a b : GenerationDocument} (ha : a.Tabled)
    (hb : b.Tabled) :
    normal (a.neutral.wireOf (byReference a.resources))
        = normal (b.neutral.wireOf (byReference b.resources)) ↔ a.Agrees b := by
  rw [GenerationDocument.wireOf_eq, GenerationDocument.wireOf_eq]
  have hegr : ∀ (d : GenerationDocument) rs x, ("egress", x) ∈ d.neutral.wireFields rs ↔
        ∃ egress, d.egress = some egress ∧ x = .obj (wireTable egress) := by
    intro d rs x
    unfold GenerationDocument.wireFields GenerationDocument.neutral
    cases d.egress <;> cases d.relay <;> simp
  have hrelay : ∀ (d : GenerationDocument) rs x, ("relay", x) ∈ d.neutral.wireFields rs ↔
        ∃ relay, d.relay = some relay ∧ x = RelaySection.dump relay := by
    intro d rs x
    unfold GenerationDocument.wireFields GenerationDocument.neutral
    cases d.egress <;> cases d.relay <;> simp
  constructor
  · intro h
    have htext := str_eq_of_mem h (b.neutral.nodup_wireFields _)
    have hres : normal (.arr ((byReference a.resources).map Resource.wire))
        = normal (.arr ((byReference b.resources).map Resource.wire)) := by
      refine normal_eq_of_mem h (b.neutral.nodup_wireFields _) "resources" ?_ ?_
      all_goals
        unfold GenerationDocument.wireFields
        simp
    rw [normal_arr_map, normal_arr_map, Json.arr.injEq, map_eq_map_iff_forall₂] at hres
    refine ⟨htext "node_guid" ?_ ?_, htext "master_guid" ?_ ?_,
      hres.imp fun _ _ => Resource.normal_wire_iff.mp,
      rel_of_optional_field h (hegr a _) (hegr b _) fun xs ys hxs hys =>
        (normal_wireTable_iff (ha xs hxs) (hb ys hys)).mp, ?_⟩
    case refine_5 =>
      have hrel := rel_of_optional_field h (hrelay a _) (hrelay b _) fun _ _ _ _ =>
        RelaySection.normal_dump_iff.mp
      exact eq_of_rel_eq hrel
    all_goals
      unfold GenerationDocument.wireFields GenerationDocument.neutral
      simp
  · intro h
    have hres : normal (.arr ((byReference a.resources).map Resource.wire))
        = normal (.arr ((byReference b.resources).map Resource.wire)) := by
      rw [normal_arr_map, normal_arr_map, Json.arr.injEq, map_eq_map_iff_forall₂]
      exact h.resources.imp fun _ _ => Resource.normal_wire_iff.mpr
    have htab : Option.Rel (fun xs ys => normal (.obj (wireTable xs))
        = normal (.obj (wireTable ys))) a.egress b.egress := by
      have hrel := h.egress
      cases hleft : a.egress <;> cases hright : b.egress <;> rw [hleft, hright] at hrel <;>
        cases hrel
      · exact .none
      next hagr => exact .some ((normal_wireTable_iff (ha _ hleft) (hb _ hright)).mpr hagr)
    refine normal_obj_congr ?_
    unfold GenerationDocument.wireFields GenerationDocument.neutral
    rw [normalFields_append, normalFields_append, normalFields_append, normalFields_append,
      normalFields_optional_field htab, h.relay]
    simp only [normalFields_eq_map, map_cons, h.nodeGuid, h.masterGuid, hres]

/-! ## What was read is proper -/

section

variable {site : Site} {fs : Fields} {name : String}

theorem proper_of_find (h : Proper (.obj fs)) (hf : find fs name = some value) : value.Proper :=
  (proper_obj.mp h).2 _ (mem_of_find hf)

theorem proper_of_dict {dictionary : Fields} (h : json.Proper) (hdict : dict json = some dictionary)
    : Proper (.obj dictionary) := by
  cases json with
  | obj fs =>
    cases hdict
    exact h
  | _ => cases hdict

/-- The parts of a resource that are JSON. -/
def Resource.Proper (resource : Resource) : Prop := Json.Proper (.obj resource.options)

/-- The parts of an egress document that are JSON. -/
def EgressDocument.Proper (egress : EgressDocument) : Prop :=
  Json.Proper (.obj egress.document)
    ∧ ∀ companion, egress.companion = some companion → Json.Proper (.obj companion)

theorem Resource.proper_of_validate (h : json.Proper)
    (hval : Resource.validate site json = some resource) : resource.Proper := by
  cases json with
  | obj fs =>
    obtain ⟨-, -, -, -, -, -, -, hopts, -⟩ := Resource.validate_eq_some.mp hval
    unfold Json.optional at hopts
    split at hopts
    · rw [Resource.Proper, ← Option.some.inj hopts]
      exact proper_obj.mpr ⟨nodup_nil, nofun⟩
    next value hf => exact proper_of_dict (proper_of_find h hf) hopts
  | _ => cases hval

theorem EgressDocument.proper_of_validate (h : json.Proper)
    (hval : EgressDocument.validate site json = some egress) : egress.Proper := by
  cases json with
  | obj fs =>
    obtain ⟨-, -, -, hdoc, -, hcomp, -⟩ := EgressDocument.validate_eq_some.mp hval
    obtain ⟨value, hf, hdict⟩ := Option.bind_eq_some_iff.mp hdoc
    refine ⟨proper_of_dict (proper_of_find h hf) hdict, fun comp hsm => ?_⟩
    rw [hsm] at hcomp
    unfold Json.optional at hcomp
    split at hcomp
    · cases hcomp
    next value hf => exact proper_of_dict (proper_of_find h hf) (of_nullable hcomp)
  | _ => cases hval

/-- The parts of a document that are JSON, and the keys of its egress table. -/
structure GenerationDocument.Proper (document : GenerationDocument) : Prop where
  resources : ∀ resource ∈ document.resources, resource.Proper
  egress : ∀ egress, document.egress = some egress → ∀ entry ∈ egress, entry.2.Proper
  tabled : document.Tabled

theorem nodup_of_dictOf {es : EgressTable} (h : Json.Proper (.obj fs))
    (hval : dictOf egressKey (EgressDocument.validate site) (.obj fs) = some es) :
    (es.map Prod.fst).Nodup := by
  obtain ⟨hk, -⟩ := dictOf_eq_some (fun _ _ => eq_of_egressKey) hval
  refine List.Nodup.of_map Protocol.asStr ?_
  rw [map_map]
  show (es.map fun e => e.1.asStr).Nodup
  rw [hk]
  exact (proper_obj.mp h).1

theorem GenerationDocument.proper_of_validate (h : json.Proper)
    (hval : GenerationDocument.validate site json = some document) : document.Proper := by
  cases json with
  | obj fs =>
    obtain ⟨-, -, -, -, -, -, -, hres, hegr, -⟩ :=
      GenerationDocument.validate_eq_some.mp hval
    have htable : ∀ egress, document.egress = some egress → ∃ es, Json.Proper (.obj es)
          ∧ dictOf egressKey (EgressDocument.validate site) (.obj es) = some egress := by
      intro egress hsm
      rw [hsm] at hegr
      unfold Json.optional at hegr
      split at hegr
      · cases hegr
      next value hf =>
        have hdict := of_nullable hegr
        cases value with
        | obj es => exact ⟨es, proper_of_find h hf, hdict⟩
        | _ => cases hdict
    refine ⟨?_, ?_, ?_⟩
    · obtain ⟨value, hf, hlist⟩ := Option.bind_eq_some_iff.mp hres
      have hprop := proper_of_find h hf
      cases value with
      | arr items =>
        rw [list, Option.ite_none_right_eq_some] at hlist
        obtain ⟨-, hall⟩ := mapM_eq_some hlist.2
        rw [Json.Proper, properItems_iff] at hprop
        intro resource hmem
        obtain ⟨item, hitem, hrd⟩ := hall resource hmem
        exact Resource.proper_of_validate (hprop item hitem) hrd
      | _ => cases hlist
    · intro egress hsm e hmem
      obtain ⟨es, hprop, hdict⟩ := htable egress hsm
      obtain ⟨-, hall⟩ := dictOf_eq_some (fun _ _ => eq_of_egressKey) hdict
      obtain ⟨field, hfield, hrd⟩ := hall e hmem
      exact EgressDocument.proper_of_validate ((proper_obj.mp hprop).2 field hfield) hrd
    · intro egress hsm
      obtain ⟨es, hprop, hdict⟩ := htable egress hsm
      exact nodup_of_dictOf hprop hdict
  | _ => cases hval

end

/-! And so is what is written of it. -/

theorem proper_intJson (v : Option Int) : (intJson v).Proper := by
  cases v <;> trivial

theorem Resource.Proper.wire (h : resource.Proper) : Json.Proper resource.wire := by
  rw [Resource.wire_eq, proper_obj]
  refine ⟨resource.nodup_wireFields, ?_⟩
  unfold Resource.wireFields
  rw [forall_mem_append]
  simp only [forall_mem_cons]
  refine ⟨⟨trivial, trivial, trivial, trivial, trivial, trivial, trivial, h, proper_intJson _,
    proper_intJson _, nofun⟩, fun field hmem => ?_⟩
  split at hmem
  · rw [mem_singleton.mp hmem]
    trivial
  · exact absurd hmem not_mem_nil

theorem EgressDocument.Proper.wire (h : egress.Proper) : Json.Proper egress.wire := by
  rw [EgressDocument.wire_eq, proper_obj]
  refine ⟨egress.nodup_wireFields, ?_⟩
  unfold EgressDocument.wireFields
  rw [forall_mem_append, forall_mem_append]
  simp only [forall_mem_cons]
  refine ⟨⟨⟨trivial, trivial, trivial, h.1, trivial, nofun⟩,
    fun field hmem => ?_⟩, fun field hmem => ?_⟩
  · rw [Option.mem_toList, Option.map_eq_some_iff] at hmem
    obtain ⟨comp, hsm, rfl⟩ := hmem
    exact h.2 comp hsm
  · split at hmem
    · rw [mem_singleton.mp hmem]
      trivial
    · exact absurd hmem not_mem_nil

theorem RelaySection.proper_dump (relay : RelaySection) : Json.Proper relay.dump := by
  have haccts : Json.Proper (.arr (relay.accounts.map RelayAccount.dump)) := by
    rw [Json.Proper, properItems_iff]
    intro item hmem
    obtain ⟨a, -, rfl⟩ := mem_map.mp hmem
    refine proper_obj.mpr ⟨?_, ?_⟩
    · show ["email", "credential_ref"].Nodup
      decide
    · simp only [forall_mem_cons]
      exact ⟨trivial, trivial, nofun⟩
  refine proper_obj.mpr ⟨?_, ?_⟩
  · show ["enabled", "port", "server_name", "accounts"].Nodup
    decide
  · simp only [forall_mem_cons]
    exact ⟨trivial, trivial, trivial, haccts, nofun⟩

theorem GenerationDocument.Proper.wireOf (h : document.Proper) :
    Json.Proper (document.neutral.wireOf (byReference document.resources)) := by
  have hres : Json.Proper (.arr ((byReference document.resources).map Resource.wire)) := by
    rw [Json.Proper, properItems_iff]
    intro item hmem
    obtain ⟨resource, hresource, rfl⟩ := mem_map.mp hmem
    exact (h.resources resource ((perm_insertionSort _ _).mem_iff.mp hresource)).wire
  rw [GenerationDocument.wireOf_eq, proper_obj]
  refine ⟨document.neutral.nodup_wireFields _, ?_⟩
  unfold GenerationDocument.wireFields GenerationDocument.neutral
  rw [forall_mem_append, forall_mem_append]
  simp only [forall_mem_cons]
  refine ⟨⟨⟨trivial, trivial, trivial, trivial, trivial, trivial, trivial, hres,
    nofun⟩, fun field hmem => ?_⟩, fun field hmem => ?_⟩
  · rw [Option.mem_toList, Option.map_eq_some_iff] at hmem
    obtain ⟨egress, hsm, rfl⟩ := hmem
    refine proper_obj.mpr ⟨nodup_wireTable (h.tabled egress hsm), fun field hmem => ?_⟩
    obtain ⟨e, hent, rfl⟩ := mem_map.mp hmem
    exact (h.egress egress hsm e hent).wire
  · rw [Option.mem_toList, Option.map_eq_some_iff] at hmem
    obtain ⟨relay, -, rfl⟩ := hmem
    exact relay.proper_dump

/-! ## Digests -/

/-- The text that the content digest is of. -/
def GenerationDocument.contentText (document : GenerationDocument) : List Char :=
  canonical (document.neutral.wireOf (byReference document.resources))

theorem GenerationDocument.contentDigest_eq (site : Site) (d : GenerationDocument) :
    d.contentDigest site = site.sha256 d.contentText := rfl

theorem GenerationDocument.canonicalDigest_of_perm (site : Site) {rs : List Resource}
    (hdist : (document.resources.map (·.reference)).Nodup)
    (h : document.resources.Perm rs) :
    { document with resources := rs }.canonicalDigest site = document.canonicalDigest site := by
  unfold GenerationDocument.canonicalDigest
  rw [insertionSort_eq_of_perm hdist h]
  rfl

/-- **The wire format is lossless.** What travels and what is kept are read as the document
itself, and so with its digest; the digest does not depend on the order of resources with
distinct references; and unless their texts collide, two documents have one content digest
exactly if they agree on all but their numbers, dates and authors. -/
theorem GenerationDocument.wire_lossless (site : Site) {a : GenerationDocument}
    (ha : a.Valid site) :
    (GenerationDocument.validate site a.wire = some a
      ∧ GenerationDocument.validate site a.dump = some a
      ∧ (GenerationDocument.validate site a.wire).map (GenerationDocument.canonicalDigest site)
        = some (a.canonicalDigest site))
    ∧ (∀ resources, (a.resources.map (·.reference)).Nodup → a.resources.Perm resources →
      { a with resources }.canonicalDigest site = a.canonicalDigest site)
    ∧ ∀ b : GenerationDocument, b.Valid site →
      (site.sha256 a.contentText = site.sha256 b.contentText → a.contentText = b.contentText) →
      (a.contentDigest site = b.contentDigest site ↔ a.Agrees b) := by
  obtain ⟨json, hjson, hvalid⟩ := ha
  have hwire := GenerationDocument.validate_wire hvalid
  have hproper := GenerationDocument.proper_of_validate hjson hvalid
  refine ⟨⟨hwire, (GenerationDocument.stable : Stable .none 4 _ _).again hvalid, ?_⟩,
    fun resources hdistinct hperm =>
      GenerationDocument.canonicalDigest_of_perm site hdistinct hperm, ?_⟩
  · rw [hwire]
    rfl
  · rintro b ⟨json', hjson', hvalid'⟩ hfree
    have hproper' := GenerationDocument.proper_of_validate hjson' hvalid'
    rw [← GenerationDocument.normal_wire_iff hproper.tabled hproper'.tabled,
      ← canonical_eq_iff hproper.wireOf hproper'.wireOf, GenerationDocument.contentDigest_eq,
      GenerationDocument.contentDigest_eq]
    exact ⟨hfree, congrArg site.sha256⟩

namespace Sample

def zeros : String := String.ofList (List.replicate 64 '0')

/-- A site on which the empty egress document has a digest of zeros. -/
def site : Site where
  numerals := ⟨fun _ => none, fun _ => none⟩
  sha256 text := if text = ['{', '}'] then zeros else String.ofList text
  shown := String.join

def account (reference : String) (options : Fields) : Resource where
  reference := reference
  protocol := .naive
  runtimeUsername := reference
  desiredState := .enabled
  credentialRef := "secret"
  credentialOrigin := .caller
  origin := .provisioned
  options := options
  validFrom := none
  validUntil := some 5
  ownLane := false

/-- A document with two accounts, an egress and a relay. -/
def generation (number : Int) (resources : List Resource) : GenerationDocument where
  nodeGuid := "node"
  masterGuid := "central"
  generation := number
  previousGeneration := 0
  createdAt := number
  createdBy := "owner"
  resources := resources
  egress := some [(.naive, ⟨.naiveNative, "policy", 1, [], zeros, none, false⟩)]
  relay := some ⟨true, 443, "example.org", []⟩

def first : GenerationDocument :=
  generation 1 [account "a" [("x", .int 1), ("y", .null)], account "b" []]

def second : GenerationDocument :=
  generation 2 [account "b" [], account "a" [("y", .null), ("x", .int 1)]]

theorem valid_first : first.Valid site := by
  refine ⟨first.dump, ?_, rfl⟩
  simp [first, generation, account, GenerationDocument.dump, Resource.dump, egressJson,
    EgressDocument.dump, RelaySection.dump, intJson, Json.Proper, ProperFields, ProperItems]

theorem valid_second : second.Valid site := by
  refine ⟨second.dump, ?_, rfl⟩
  simp [second, generation, account, GenerationDocument.dump, Resource.dump, egressJson,
    EgressDocument.dump, RelaySection.dump, intJson, Json.Proper, ProperFields, ProperItems]

/-- **Two documents with one content**, in different orders. -/
theorem wire_lossless_two : GenerationDocument.validate site first.wire = some first
    ∧ first.contentDigest site = second.contentDigest site ∧ first.Agrees second := by
  have htext : first.contentText = second.contentText := by decide +kernel
  obtain ⟨⟨hwire, -⟩, -, hcontent⟩ := GenerationDocument.wire_lossless site valid_first
  have hdigest : first.contentDigest site = second.contentDigest site :=
    congrArg site.sha256 htext
  exact ⟨hwire, hdigest, (hcontent second valid_second fun _ => htext).mp hdigest⟩

end Sample

end Wire
