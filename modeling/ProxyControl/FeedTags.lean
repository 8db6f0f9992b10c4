import ProxyControl.Codes
import ProxyControl.Feed

/-!
# An ETag stands for its body

Two fetches of one subscription, in one format and variant, with the same ETag should
have the same body but for the generation number – else the answer *not modified*
leaves an app with a credential or a host that no longer work. The ETag is made from
the manifest alone. So everything else a body is made of has to be fixed by what the
manifest says, over all the changes between the two fetches: a version number has to
stand for one credential, a grant for one host.

Neither does. A version that a grant names becomes the one in force later, when the
node confirms it: the body changes and the ETag does not
(`stale_after_confirmation`). The same goes for a credential that a node returns, and
for a change of a node's public host. Two formats read more: the canonical JSON shows
the grants that are disabled, which the ETag leaves out, and the page lets a label
that reads like the default name stand out from it.

`Clear` excludes these steps. In a run of clear steps there is one `Meaning` – a
credential for every version ever named, a host for every grant – with which all the
fetches agree, and a body is a function of the ETag and of the meaning
(`body_of_etag`).
-/

namespace Feed

open List
open Table
open Reconciler (Protocol withinValidity)
open Keyrings (SecretState)

section Tags

variable {Opts : Type} {α : Type} {m l : List α} {R : α → α → Prop} {p : α → Bool}
  {a : ManifestGrant Opts}

/-! ## What a body is made of -/

/-- A credential for every version of every grant, and a host for every grant. -/
structure Meaning where
  secret : Nat → Nat → Option String
  host : Nat → String

/-- The links of a grant, if versions and grants mean this. -/
def Meaning.links (site : Site Opts) (meaning : Meaning) (grant : ManifestGrant Opts) :
    Option (Except String (List Artifact)) :=
  if ! grant.enabled || decide (grant.secretVersion < 1) then none
  else
    (site.adapters grant.protocol).bind fun render =>
      (meaning.secret grant.grantId grant.secretVersion).map fun plaintext =>
        render grant.options grant.runtimeUsername plaintext (meaning.host grant.grantId)

/-- **Two entries the ETag does not tell apart**: the same grant, disabled or with the
same settings. -/
structure Alike (a b : ManifestGrant Opts) : Prop where
  grantId : a.grantId = b.grantId
  protocol : a.protocol = b.protocol
  nodeId : a.nodeId = b.nodeId
  endpointId : a.endpointId = b.endpointId
  runtimeUsername : a.runtimeUsername = b.runtimeUsername
  enabled : a.enabled = b.enabled
  settings : a.enabled = true → a.secretVersion = b.secretVersion ∧ a.options = b.options
    ∧ a.validFrom = b.validFrom ∧ a.validUntil = b.validUntil

theorem map_eq_of_forall₂ {β : Type} {f g : α → β} (hfg : ∀ a b, R a b → f a = g b)
    (h : List.Forall₂ R l m) : l.map f = m.map g := by
  rw [← forall₂_eq_eq_eq, forall₂_map_left_iff, forall₂_map_right_iff]
  exact h.imp hfg

theorem filter_of_forall₂ (hp : ∀ a b, R a b → p a = p b) (h : List.Forall₂ R l m) :
    List.Forall₂ (fun a b => R a b ∧ p a = true) (l.filter p) (m.filter p) := by
  induction h with
  | nil => exact .nil
  | @cons a b l m hab _ ih =>
    rw [filter_cons, filter_cons, ← hp a b hab]
    split
    next ha => exact .cons ⟨hab, ha⟩ ih
    · exact ih

theorem Alike.links {b : ManifestGrant Opts} (h : Alike a b) (site : Site Opts) (mea : Meaning)
    : mea.links site a = mea.links site b := by
  unfold Meaning.links
  by_cases ha : a.enabled = true
  · obtain ⟨hver, hopts, -, -⟩ := h.settings ha
    rw [← h.enabled, ← hver, ← hopts, ← h.protocol, ← h.grantId, ← h.runtimeUsername]
  · rw [Bool.not_eq_true] at ha
    rw [← h.enabled, ha]
    rfl

/-- What is resolved depends on the links of the grants, and on their ids. -/
theorem resolveArtifacts_congr
    {links links' : ManifestGrant Opts → Option (Except String (List Artifact))}
    {l m : List (ManifestGrant Opts)}
    (h : List.Forall₂ (fun a b => links a = links' b ∧ a.grantId = b.grantId) l m) :
    resolveArtifacts links l = resolveArtifacts links' m := by
  induction h with
  | nil => rfl
  | cons hab _ ih =>
    unfold resolveArtifacts
    rw [hab.1, ih, hab.2]

section Lines

variable {a b : ManifestGrant Opts} (h : Alike a b) (site : Site Opts)
  (ns : List (Nat × String)) (artifacts : Artifacts)

include h

theorem Alike.credentialReason (ha : a.enabled = true) :
    credentialReason a artifacts = Feed.credentialReason b artifacts := by
  unfold Feed.credentialReason
  rw [(h.settings ha).1, h.grantId]

theorem Alike.rawLine : rawLine site ns artifacts a = Feed.rawLine site ns artifacts b := by
  unfold Feed.rawLine
  by_cases ha : a.enabled = true
  · rw [h.credentialReason artifacts ha, h.enabled, h.protocol, h.runtimeUsername, h.grantId]
  · rw [Bool.not_eq_true] at ha
    rw [← h.enabled, ha, h.protocol, h.runtimeUsername]
    rfl

theorem Alike.placed (ha : a.enabled = true) :
    placed ns artifacts a = Feed.placed ns artifacts b := by
  unfold Feed.placed
  rw [h.credentialReason artifacts ha, h.protocol, h.runtimeUsername, h.grantId]

theorem Alike.itemOf (ha : a.enabled = true) : itemOf artifacts a = Feed.itemOf artifacts b := by
  obtain ⟨hver, hopts, hfrom, huntil⟩ := h.settings ha
  unfold Feed.itemOf
  rw [h.credentialReason artifacts ha, h.grantId, h.protocol, h.nodeId, h.endpointId,
    h.runtimeUsername, hver, hopts, h.enabled, hfrom, huntil]

theorem Alike.baseTitle (hlab : (site.displayText a.label = "") = (site.displayText b.label = "")) :
    baseTitle site ns artifacts a = Feed.baseTitle site ns artifacts b := by
  unfold Feed.baseTitle
  simp only [ne_eq, hlab, h.protocol, h.runtimeUsername, h.grantId]

theorem Alike.sectionOf (titles : List String)
    (hlab : (site.displayText a.label = "") = (site.displayText b.label = "")) :
    sectionOf site ns artifacts titles a = Feed.sectionOf site ns artifacts titles b := by
  have hreas : (a.enabled && Feed.credentialReason a artifacts)
      = (b.enabled && Feed.credentialReason b artifacts) := by
    by_cases ha : a.enabled = true
    · rw [h.credentialReason artifacts ha, h.enabled]
    · rw [Bool.not_eq_true] at ha
      rw [← h.enabled, ha]
      rfl
  unfold Feed.sectionOf
  rw [hreas, h.baseTitle site ns artifacts hlab, h.protocol, h.runtimeUsername, h.grantId,
    h.enabled]

end Lines

theorem forall₂_mem (h : List.Forall₂ R l m) :
    List.Forall₂ (fun a b => R a b ∧ a ∈ l ∧ b ∈ m) l m := by
  induction h with
  | nil => exact .nil
  | cons hab _ ih =>
    refine .cons ⟨hab, mem_cons_self, mem_cons_self⟩ (ih.imp fun a b h => ?_)
    exact ⟨h.1, mem_cons_of_mem _ h.2.1, mem_cons_of_mem _ h.2.2⟩

/-- The labels that show are those of the same grants. -/
def SameLabels (site : Site Opts) (m₁ m₂ : Manifest Opts) : Prop :=
  ∀ a ∈ m₁.grants, ∀ b ∈ m₂.grants, a.grantId = b.grantId →
    ((site.displayText a.label = "") = (site.displayText b.label = ""))

variable {m₁ m₂ : Manifest Opts} {site : Site Opts}

/-- **Manifests that read alike have one body**, under one generation number: in the
canonical JSON if nothing is disabled, on the page if the same labels show. -/
theorem render_eq {format : Format} (hgrs : List.Forall₂ Alike m₁.grants m₂.grants)
    (hid : m₁.clientId = m₂.clientId) (hnm : m₁.clientName = m₂.clientName)
    (hns : grantNames site m₁ = grantNames site m₂)
    (hman : format = .manifest → ∀ grant ∈ m₁.grants, grant.enabled = true)
    (hhtml : format = .html → SameLabels site m₁ m₂) (sub generation : Nat)
    (arts : Artifacts) (variant : Variant) :
    render site sub format { m₁ with generation := generation } arts variant
      = render site sub format { m₂ with generation := generation } arts variant := by
  have hlen : m₁.grants.length = m₂.grants.length := hgrs.length_eq
  have hoff (ns : List (Nat × String)) : (m₁.grants.filter (·.enabled)).map (placed ns arts)
        = (m₂.grants.filter (·.enabled)).map (placed ns arts) :=
    map_eq_of_forall₂ (fun a b hab => hab.1.placed ns arts hab.2)
      (filter_of_forall₂ (fun a b hab => hab.enabled) hgrs)
  have hraw (ns : List (Nat × String)) : m₁.grants.mapM (rawLine site ns arts)
        = m₂.grants.mapM (rawLine site ns arts) := by
    have hlns : m₁.grants.map (rawLine site ns arts) = m₂.grants.map (rawLine site ns arts) :=
      map_eq_of_forall₂ (fun a b hab => hab.rawLine site ns arts) hgrs
    have hmapM (l : List (ManifestGrant Opts)) : l.mapM (rawLine site ns arts)
          = (l.map (rawLine site ns arts)).mapM id := by
      rw [mapM_map]
      rfl
    rw [hmapM, hmapM, hlns]
  unfold render
  simp only [hlen]
  split
  · rfl
  split
  next hfmt =>
    have hall := hman hfmt
    rw [hid, hnm, map_eq_of_forall₂ (fun a b hab => hab.1.itemOf arts (hall a hab.2.1))
      (forall₂_mem hgrs)]
  have hnames : grantNames site { m₁ with generation := generation }
      = grantNames site { m₂ with generation := generation } := hns
  rw [hnames]
  cases grantNames site { m₂ with generation := generation } with
  | none => rfl
  | some ns =>
    cases format with
    | singbox => simp only [hoff]
    | clash => simp only [hoff]
    | raw => simp only [hraw]
    | manifest => simp only [hraw]
    | html =>
      have hlab := hhtml rfl
      have hlabel : List.Forall₂ (fun a b => Alike a b
          ∧ ((site.displayText a.label = "") = (site.displayText b.label = "")))
          m₁.grants m₂.grants :=
        (forall₂_mem hgrs).imp fun a b hab =>
          ⟨hab.1, hlab a hab.2.1 b hab.2.2 hab.1.grantId⟩
      have htitles := map_eq_of_forall₂ (fun a b hab => hab.1.baseTitle site ns arts hab.2) hlabel
      have hsecs := map_eq_of_forall₂ (fun a b hab => hab.1.sectionOf site ns arts
        (m₂.grants.map (baseTitle site ns arts)) hab.2) hlabel
      simp only [hnm, htitles, hsecs]

/-! ## What an ETag fixes -/

theorem keys_giveName {bases es : List (Nat × String)} {acc r : List String × List (Nat × String)}
    (h : es.foldlM (giveName site bases) acc = some r) :
    r.2.map Prod.fst = acc.2.map Prod.fst ++ es.map Prod.fst := by
  induction es generalizing acc with
  | nil =>
    cases h
    exact (append_nil _).symm
  | cons e es ih =>
    obtain ⟨next, hnext, hr⟩ := Option.bind_eq_some_iff.mp h
    have hk : next.2.map Prod.fst = acc.2.map Prod.fst ++ [e.1] := by
      unfold giveName at hnext
      split at hnext
      · cases hnext
        rw [map_append]
        rfl
      · obtain ⟨cand, -, rfl⟩ := Option.map_eq_some_iff.mp hnext
        rw [map_append]
        rfl
    rw [ih hr, hk, append_assoc]
    rfl

variable {id : Nat} {manifest : Manifest Opts} {ns : List (Nat × String)}

theorem mem_keys_nameBases :
    id ∈ (nameBases site manifest).map Prod.fst ↔ id ∈ manifest.grants.map (·.grantId) := by
  suffices h : ∀ acc : List (Nat × String), (find (manifest.grants.foldl (fun bases grant =>
        putSorted bases grant.grantId (baseName site grant)) acc) id).isSome = true
      ↔ (find acc id).isSome = true ∨ id ∈ manifest.grants.map (·.grantId) by
    rw [Table.mem_keys]
    exact (h []).trans ⟨fun h => h.resolve_left (by simp), .inr⟩
  intro acc
  induction manifest.grants generalizing acc with
  | nil => simp
  | cons grant grants ih =>
    rw [foldl_cons, ih, find_putSorted, map_cons, mem_cons]
    by_cases hid : id = grant.grantId
    · simp [hid]
    · simp [hid]

/-- Every grant has a name, and nothing else has. -/
theorem mem_keys_grantNames (h : grantNames site manifest = some ns) (id : Nat) :
    id ∈ ns.map Prod.fst ↔ id ∈ manifest.grants.map (·.grantId) := by
  obtain ⟨r, hres, rfl⟩ := Option.map_eq_some_iff.mp h
  rw [keys_giveName hres]
  exact mem_keys_nameBases

/-- The order in which grants are listed, as it was when they came. -/
def before (born : List (Nat × Identity)) (i j : Nat) : Prop :=
  ∃ a b, find born i = some a ∧ find born j = some b
    ∧ (a.createdAt < b.createdAt ∨ a.createdAt = b.createdAt ∧ i < j)

variable {born : List (Nat × Identity)} {tag : String} {variant : Variant} {renderer : Nat}

theorem before_asymm {i j : Nat} (hij : before born i j) (hji : before born j i) : False := by
  obtain ⟨a, b, ha, hb, hab⟩ := hij
  obtain ⟨b', a', hb', ha', hba⟩ := hji
  obtain rfl := Option.some.inj (ha.symm.trans ha')
  obtain rfl := Option.some.inj (hb.symm.trans hb')
  omega

/-- **A manifest of grants that there have been**, in their order. -/
structure Fits (born : List (Nat × Identity)) (manifest : Manifest Opts) : Prop where
  identity : ∀ grant ∈ manifest.grants, ∃ identity,
    find born grant.grantId = some identity ∧ grant.protocol = identity.protocol
    ∧ grant.nodeId = identity.node ∧ grant.endpointId = identity.endpoint
    ∧ grant.runtimeUsername = identity.runtimeUsername ∧ identity.client = manifest.clientId
  ordered : (manifest.grants.map (·.grantId)).Pairwise (before born)

theorem Fits.nodup (h : Fits born manifest) : (manifest.grants.map (·.grantId)).Nodup := by
  refine nodup_iff_pairwise_ne.mpr (h.ordered.imp ?_)
  rintro i j hij rfl
  exact before_asymm hij hij

/-- Two manifests of the same grants list them in the same order. -/
theorem Fits.ids_eq (h₁ : Fits born m₁) (h₂ : Fits born m₂)
    (h : ∀ id, id ∈ m₁.grants.map (·.grantId) ↔ id ∈ m₂.grants.map (·.grantId)) :
    m₁.grants.map (·.grantId) = m₂.grants.map (·.grantId) :=
  List.Perm.eq_of_pairwise (fun _ _ _ _ hij hji => (before_asymm hij hji).elim) h₁.ordered
    h₂.ordered ((perm_ext_iff_of_nodup h₁.nodup h₂.nodup).mpr h)

/-- A grant as the ETag has it. -/
def payloadOf (names : List (Nat × String)) (grant : ManifestGrant Opts) : PayloadGrant Opts :=
  { grantId := grant.grantId
    protocol := grant.protocol
    nodeId := grant.nodeId
    nodeName := grant.nodeName
    displayName := (find names grant.grantId).getD ""
    endpointId := grant.endpointId
    runtimeUsername := grant.runtimeUsername
    secretVersion := grant.secretVersion
    options := grant.options
    validFrom := grant.validFrom
    validUntil := grant.validUntil }

/-- What two manifests with one ETag have in common. -/
theorem of_etag_eq (h₁ : etag site m₁ renderer variant = some tag)
    (h₂ : etag site m₂ renderer variant = some tag) :
    m₁.clientName = m₂.clientName ∧ ∃ ns, grantNames site m₁ = some ns
      ∧ grantNames site m₂ = some ns ∧ ∀ payload,
        payload ∈ (m₁.grants.filter (·.enabled)).map (payloadOf ns)
          ↔ payload ∈ (m₂.grants.filter (·.enabled)).map (payloadOf ns) := by
  obtain ⟨ns, hns, hdig⟩ := Option.map_eq_some_iff.mp h₁
  obtain ⟨ns', hns', hdig'⟩ := Option.map_eq_some_iff.mp h₂
  have hpay := site.digest_injective (hdig.trans hdig'.symm)
  rw [Payload.mk.injEq] at hpay
  obtain ⟨hcl, rfl, hgrs, -⟩ := hpay
  refine ⟨hcl, ns, hns, hns', fun payload => ?_⟩
  have hmem := congrArg (payload ∈ ·) hgrs
  simp only [mem_map, mem_insertionSort] at hmem ⊢
  exact iff_of_eq hmem

/-- **Manifests with one ETag read alike.** -/
theorem alike_of_etag (hfits₁ : Fits born m₁) (hfits₂ : Fits born m₂)
    (h₁ : etag site m₁ renderer variant = some tag) (h₂ : etag site m₂ renderer variant = some tag)
    : m₁.clientName = m₂.clientName ∧ grantNames site m₁ = grantNames site m₂
      ∧ List.Forall₂ Alike m₁.grants m₂.grants := by
  obtain ⟨hcl, ns, hns₁, hns₂, hpays⟩ := of_etag_eq h₁ h₂
  refine ⟨hcl, hns₁.trans hns₂.symm, ?_⟩
  have hids := hfits₁.ids_eq hfits₂ fun id =>
    (mem_keys_grantNames hns₁ id).symm.trans (mem_keys_grantNames hns₂ id)
  have hpairs : List.Forall₂ (·.grantId = ·.grantId) m₁.grants m₂.grants := by
    rw [← forall₂_eq_eq_eq, forall₂_map_left_iff, forall₂_map_right_iff] at hids
    exact hids
  refine (forall₂_mem hpairs).imp fun a b hab => ?_
  obtain ⟨hid, ha, hb⟩ := hab
  -- The other's entry of an enabled grant is the one it is paired with.
  have hright : a.enabled = true → b.enabled = true ∧ payloadOf ns b = payloadOf ns a := by
    intro hen
    have hmem := mem_map_of_mem (f := payloadOf ns) (mem_filter.mpr ⟨ha, hen⟩)
    obtain ⟨b', hb', hpay⟩ := mem_map.mp ((hpays _).mp hmem)
    obtain ⟨hb', hen'⟩ := mem_filter.mp hb'
    have hid' : b'.grantId = b.grantId := (congrArg PayloadGrant.grantId hpay).trans hid
    obtain rfl := inj_on_of_nodup_map hfits₂.nodup hb' hb hid'
    exact ⟨hen', hpay⟩
  have hleft : b.enabled = true → a.enabled = true := by
    intro hen
    have hmem := mem_map_of_mem (f := payloadOf ns) (mem_filter.mpr ⟨hb, hen⟩)
    obtain ⟨a', ha', hpay⟩ := mem_map.mp ((hpays _).mpr hmem)
    obtain ⟨ha', hen'⟩ := mem_filter.mp ha'
    have hid' : a'.grantId = a.grantId :=
      (congrArg PayloadGrant.grantId hpay).trans hid.symm
    obtain rfl := inj_on_of_nodup_map hfits₁.nodup ha' ha hid'
    exact hen'
  obtain ⟨identity, hborn, hprot, hnode, hendp, huser, -⟩ := hfits₁.identity a ha
  obtain ⟨identity', hborn', hprot', hnode', hendp', huser', -⟩ := hfits₂.identity b hb
  obtain rfl : identity = identity' := by
    rw [hid, hborn'] at hborn
    exact (Option.some.inj hborn).symm
  refine ⟨hid, hprot.trans hprot'.symm, hnode.trans hnode'.symm,
    hendp.trans hendp'.symm, huser.trans huser'.symm, ?_, fun hen => ?_⟩
  · rw [Bool.eq_iff_iff]
    exact ⟨fun h => (hright h).1, hleft⟩
  · have hpay := (hright hen).2
    exact ⟨(congrArg PayloadGrant.secretVersion hpay).symm,
      (congrArg PayloadGrant.options hpay).symm, (congrArg PayloadGrant.validFrom hpay).symm,
      (congrArg PayloadGrant.validUntil hpay).symm⟩

/-! ## The steps that keep a version's meaning -/

/-- **The steps that leave a version and a grant with their meaning, and the page with
its labels.** -/
def Clear (site : Site Opts) (s : State Opts) : Event Opts → Prop
  | .setGrantLabel id label now =>
    ∀ grant ∈ s.db.grants, grant.id = id → ∀ row ∈ s.db.subscriptions,
      row.2.client = grant.identity.client → row.2.active = true → row.2.updatedAt ≤ now
        ∧ (row.2.updatedAt = now → (site.displayText (label.getD "") = ""
          ↔ site.displayText (grant.label.getD "") = ""))
  | .activate id =>
    ∀ grant ∈ s.db.grants, grant.id = id → grant.version = none
      ∨ grant.version = some 1
        ∧ (find s.db.secrets (id, 1)).all (·.state = .active) = true
  | .confirmCredential id =>
    ∀ grant ∈ s.db.grants, grant.id = id → grant.version.all (fun version =>
      (find s.db.secrets (id, version)).all (·.state ≠ .pending)) = true
  | .escrowReturnedCredential id version plaintext =>
    ∀ grant ∈ s.db.grants, grant.id = id → grant.version = none
      ∨ find s.db.secrets (id, version) = some ⟨.active, plaintext⟩
  | .putHosts node hosts =>
    ∀ grant ∈ s.db.grants, grant.identity.node = node →
      hosts grant.identity.protocol = s.db.hosts node grant.identity.protocol
  | .bump client now =>
    ∀ row ∈ s.db.subscriptions, row.2.client = client → row.2.active = true →
      row.2.updatedAt ≤ now
  | .fetch id format _ _ now =>
    format = .manifest → ∀ subscription ∈ find s.db.subscriptions id,
      ∀ client ∈ find s.db.clients subscription.client, ∀ grant ∈ s.db.grants,
        grant.identity.client = subscription.client → grant.desired ≠ .deleted →
        grant.identity.protocol ≠ .amneziawg →
        client.state = .active ∧ grant.desired = .enabled
          ∧ withinValidity grant.validFrom grant.validUntil now = true
  | _ => True

instance (site : Site Opts) (s : State Opts) : (e : Event Opts) → Decidable (Clear site s e)
  | .setGrantLabel _ _ _ | .activate _ | .confirmCredential _ | .escrowReturnedCredential _ _ _
  | .putHosts _ _ | .bump _ _ | .fetch _ _ _ _ _ => by
    unfold Clear
    infer_instance
  | .insert _ _ | .edit _ _ _ _ _ | .escrowManagerCredential _ _ | .escrow _ _
  | .storeCredential _ _ | .rotate _ _ | .purgeGrant _ | .putClient _ _ | .putNodeName _ _
  | .subscribe _ _ _ | .revoke _ => isTrue trivial

/-! ## The credential of a version -/

variable {version : Nat}

theorem isSome_find_of_inForce {secs : List ((Nat × Nat) × Secret)} {w : Nat}
    (h : inForce secs id version = some w) : (find secs (id, w)).isSome = true := by
  obtain ⟨secret, hsec, hsta⟩ := Option.bind_eq_some_iff.mp h
  split at hsta
  · cases hsta
    exact Option.isSome_of_eq_some hsec
  · have hmem := max?_mem hsta
    obtain ⟨row, hrow, rfl⟩ := mem_map.mp hmem
    obtain ⟨hid, -⟩ := of_decide_eq_true (mem_filter.mp hrow).2
    obtain ⟨⟨i, w⟩, secret'⟩ := row
    obtain rfl : i = id := hid
    exact isSome_find_of_mem (mem_filter.mp hrow).1
  · cases hsta
  · cases hsta

/-- The versions a grant has keep their credentials. -/
def Undisturbed (db db' : Database Opts) (id : Nat) : Prop :=
  ∀ version, (find db.secrets (id, version)).isSome = true →
    (find db'.secrets (id, version)).isSome = true
      ∧ db'.credential id version = db.credential id version

variable {db db' : Database Opts} {sub : Subscription} {secret : Secret}
  {state : SecretState} {s s' : State Opts}

theorem Undisturbed.rfl : Undisturbed db db id := fun _ hfnd => ⟨hfnd, Eq.refl _⟩

theorem Undisturbed.trans {db' db'' : Database Opts} (h : Undisturbed db db' id)
    (h' : Undisturbed db' db'' id) : Undisturbed db db'' id := by
  intro version hver
  obtain ⟨hfnd, hcred⟩ := h version hver
  obtain ⟨hfnd', hcred'⟩ := h' version hfnd
  exact ⟨hfnd', hcred'.trans hcred⟩

/-- A credential is made of the rows of the grant: those that are there, and those that
are being retired. -/
theorem undisturbed_of_rows (hf : ∀ version, (find db.secrets (id, version)).isSome = true →
      find db'.secrets (id, version) = find db.secrets (id, version))
    (hretiring : db'.secrets.filter (fun row => row.1.1 = id ∧ row.2.state = .retiring)
      = db.secrets.filter fun row => row.1.1 = id ∧ row.2.state = .retiring) :
    Undisturbed db db' id := by
  intro version hver
  refine ⟨(hf version hver).symm ▸ hver, ?_⟩
  have hforce : inForce db'.secrets id version = inForce db.secrets id version := by
    unfold inForce
    rw [hf version hver, hretiring]
  unfold Database.credential
  rw [hforce]
  cases hw : inForce db.secrets id version with
  | none => rfl
  | some w =>
    show (find db'.secrets (id, w)).map _ = (find db.secrets (id, w)).map _
    rw [hf w (isSome_find_of_inForce hw)]

theorem undisturbed_setSecret {id' : Nat} (hid : id' ≠ id) (db : Database Opts) (v : Nat)
    (secr : Secret) : Undisturbed db (db.setSecret id v secr) id' := by
  refine undisturbed_of_rows (fun w _ => ?_) (filter_put ?_ fun b _ => ?_)
  · exact find_put_of_ne (fun h => hid (congrArg Prod.fst h)) db.secrets secr
  · exact decide_eq_false fun h => hid h.1.symm
  · exact decide_eq_false fun h => hid h.1.symm

/-- A first row of a version, not one that is being retired. -/
theorem undisturbed_setSecret_of_fresh (hfr : find db.secrets (id, version) = none)
    (hsta : secret.state ≠ .retiring) : Undisturbed db (db.setSecret id version secret) id := by
  refine undisturbed_of_rows (fun w hw => ?_) (filter_put ?_ fun b hb => ?_)
  · refine find_put_of_ne (fun h => ?_) db.secrets secret
    rw [h, hfr] at hw
    cases hw
  · exact decide_eq_false fun h => hsta h.2
  · rw [hfr] at hb
    cases hb

theorem filter_map_of_fixed {f : α → α} (hfix : ∀ a, p a = true ∨ p (f a) = true → f a = a) :
    (l.map f).filter p = l.filter p := by
  induction l with
  | nil => rfl
  | cons a l ih =>
    rw [map_cons, filter_cons, filter_cons, ih]
    by_cases h : p a = true ∨ p (f a) = true
    · rw [hfix a h]
    · rw [not_or] at h
      rw [if_neg h.1, if_neg h.2]

theorem undisturbed_moveAll {id' : Nat} (hid : id' ≠ id) (db : Database Opts)
    (moves : SecretState → Bool) (t : SecretState) :
    Undisturbed db (db.moveAll id moves t) id' := by
  refine undisturbed_of_rows (fun w _ => ?_) (filter_map_of_fixed fun row hrow => ?_)
  · have hf := find_map (fun (key : Nat × Nat) (secr : Secret) =>
      if key.1 = id ∧ moves secr.state then { secr with state := t } else secr)
      db.secrets (id', w)
    refine hf.trans ?_
    simp [hid]
  · have hrow' : row.1.1 ≠ id := by
      rcases hrow with h | h
      · exact (of_decide_eq_true h).1 ▸ hid
      · exact (of_decide_eq_true h).1 ▸ hid
    rw [if_neg fun h => hrow' h.1]

/-- An active version is in force. -/
theorem credential_of_active {plaintext : String}
    (h : find db.secrets (id, version) = some ⟨.active, plaintext⟩) :
    db.credential id version = some plaintext := by
  unfold Database.credential inForce
  rw [h]
  show (find db.secrets (id, version)).map _ = _
  rw [h]
  rfl

/-! ## The grants that there have been -/

/-- What no event but a new label changes in a grant. -/
def Grant.plain (grant : Grant Opts) : Nat × Identity × Option String :=
  (grant.id, grant.identity, grant.label)

/-- The events that leave the list of grants, their labels, the subscriptions and the
fetches alone. -/
def Event.quiet : Event Opts → Bool
  | .insert _ _ | .purgeGrant _ | .setGrantLabel _ _ _ | .subscribe _ _ _ | .revoke _ | .bump _ _
  | .fetch _ _ _ _ _ => false
  | _ => true

variable {f : Grant Opts → Grant Opts}

theorem update_plain (db : Database Opts) (id : Nat) (hf : ∀ grant, (f grant).plain = grant.plain) :
    (db.update id f).grants.map Grant.plain = db.grants.map Grant.plain := by
  refine (map_map ..).trans (map_congr_left fun grant _ => ?_)
  show Grant.plain (if grant.id = id then f grant else grant) = grant.plain
  split
  · exact hf grant
  · rfl

theorem transition_plain (h : db.transition id version state = some db') :
    db'.grants = db.grants ∧ db'.subscriptions = db.subscriptions ∧ db'.hosts = db.hosts := by
  obtain ⟨secret, -, rfl⟩ := Option.map_eq_some_iff.mp h
  exact ⟨rfl, rfl, rfl⟩

theorem confirmCredential_plain (db : Database Opts) (g : Grant Opts) :
    (db.confirmCredential g).grants = db.grants
      ∧ (db.confirmCredential g).subscriptions = db.subscriptions
      ∧ (db.confirmCredential g).hosts = db.hosts := by
  unfold Database.confirmCredential
  split
  · exact ⟨rfl, rfl, rfl⟩
  split
  · exact ⟨rfl, rfl, rfl⟩
  split <;> exact ⟨rfl, rfl, rfl⟩

/-- A new version is stored and named, and the one that was named goes to another state. -/
theorem successor_plain {named : Option Nat}
    (hdb : db = (s.db.setSecret id version secret).update id ({ · with version := some version }))
    (h : (match named with
      | none => some { s with db := db }
      | some prev => (db.transition id prev state).map fun db => { s with db := db }) = some s') :
    ∃ db', s' = { s with db := db' } ∧ db'.grants.map Grant.plain = s.db.grants.map Grant.plain
      ∧ db'.subscriptions = s.db.subscriptions := by
  subst hdb
  have hpln := update_plain (s.db.setSecret id version secret) id
    (f := ({ · with version := some version })) fun _ => rfl
  split at h
  · cases h
    exact ⟨_, rfl, hpln, rfl⟩
  · obtain ⟨db, hdb, rfl⟩ := Option.map_eq_some_iff.mp h
    obtain ⟨hgrs, hsubs, -⟩ := transition_plain hdb
    exact ⟨_, rfl, (congrArg _ hgrs).trans hpln, hsubs⟩

variable {e : Event Opts} {now : Int} {grants grants' : List (Grant Opts)} {s : State Opts}

/-- **What a quiet event does**: it changes the database, and neither which grants there
are nor who subscribes. -/
theorem step_quiet (h : step site s e = some s') (hq : e.quiet = true) :
    ∃ db', s' = { s with db := db' } ∧ db'.grants.map Grant.plain = s.db.grants.map Grant.plain
      ∧ db'.subscriptions = s.db.subscriptions := by
  cases e with
  | edit id des validFrom validUntil opts =>
    cases h
    exact ⟨_, rfl, update_plain s.db id fun _ => rfl, rfl⟩
  | escrowManagerCredential id plaintext =>
    obtain ⟨-, h⟩ := Option.ite_none_left_eq_some.mp h
    cases h
    exact ⟨_, rfl, rfl, rfl⟩
  | activate id =>
    obtain ⟨db, hdb, rfl⟩ := Option.map_eq_some_iff.mp h
    obtain ⟨hgrs, hsubs, -⟩ := transition_plain hdb
    have hpln := update_plain db id (f := ({ · with version := some 1 })) fun _ => rfl
    exact ⟨_, rfl, hpln.trans (congrArg _ hgrs), hsubs⟩
  | escrow id plaintext =>
    obtain ⟨-, h⟩ := Option.ite_none_left_eq_some.mp h
    cases h
    exact ⟨_, rfl, update_plain _ id fun _ => rfl, rfl⟩
  | storeCredential id plaintext | rotate id plaintext =>
    obtain ⟨grant, -, h⟩ := Option.bind_eq_some_iff.mp h
    exact successor_plain rfl h
  | confirmCredential id =>
    obtain ⟨grant, -, rfl⟩ := Option.map_eq_some_iff.mp h
    obtain ⟨hgrs, hsubs, -⟩ := confirmCredential_plain s.db grant
    exact ⟨_, rfl, congrArg _ hgrs, hsubs⟩
  | escrowReturnedCredential id version plaintext =>
    obtain ⟨grant, -, h⟩ := Option.bind_eq_some_iff.mp h
    obtain ⟨-, h⟩ := Option.ite_none_right_eq_some.mp h
    cases h
    refine ⟨_, rfl, ?_⟩
    unfold Database.escrowReturnedCredential
    dsimp only
    split
    · exact ⟨rfl, rfl⟩
    · exact ⟨update_plain _ grant.id fun _ => rfl, rfl⟩
  | putClient | putNodeName | putHosts =>
    cases h
    exact ⟨_, rfl, rfl, rfl⟩
  | _ => cases hq

/-- **The grants are those that there have been**, each under its own id, and so are the
grants of the fetches. -/
structure Rooted (s : State Opts) : Prop where
  identity : ∀ grant ∈ s.db.grants, find s.born grant.id = some grant.identity
  nodup : (s.db.grants.map (·.id)).Nodup
  fits : ∀ e ∈ s.served, Fits s.born e.manifest

section Rooted

variable {s s' : State Opts} {grant' grant : Grant Opts} {id : Nat} {db : Database Opts}

theorem mem_of_plain (h : grants'.map Grant.plain = grants.map Grant.plain)
    (hmem : grant' ∈ grants') : ∃ grant ∈ grants, grant.plain = grant'.plain := by
  have hpln : grant'.plain ∈ grants.map Grant.plain := h ▸ mem_map_of_mem hmem
  exact mem_map.mp hpln

theorem Rooted.of_plain (h : Rooted s)
    (hpln : db'.grants.map (fun grant => (grant.id, grant.identity))
      = s.db.grants.map fun grant => (grant.id, grant.identity)) : Rooted { s with db := db' } := by
  refine ⟨fun grant hg => ?_, ?_, h.fits⟩
  · have hmem : (grant.id, grant.identity)
        ∈ s.db.grants.map fun grant => (grant.id, grant.identity) :=
      hpln ▸ mem_map_of_mem hg
    obtain ⟨old, hold, heq⟩ := mem_map.mp hmem
    obtain ⟨hid, hident⟩ := Prod.mk.inj heq
    rw [← hid, ← hident]
    exact h.identity old hold
  · have hids := congrArg (map Prod.fst) hpln
    rw [map_map, map_map] at hids
    exact (show db'.grants.map (·.id) = s.db.grants.map (·.id) from hids) ▸ h.nodup

theorem Rooted.grant_eq (h : Rooted s) (hg : grant ∈ s.db.grants) :
    s.db.grant grant.id = some grant :=
  find?_of_mem (fun grant : Grant Opts => grant.id) h.nodup hg

theorem mem_of_grant (h : db.grant id = some grant) : grant ∈ db.grants ∧ grant.id = id := by
  have hid := find?_some h
  exact ⟨mem_of_find?_eq_some h, of_decide_eq_true hid⟩

theorem Rooted.eq_of_grant (h : Rooted s) (hg : s.db.grant id = some grant)
    (hmem : grant' ∈ s.db.grants) (hid : grant'.id = id) : grant' = grant := by
  subst hid
  exact Option.some.inj ((h.grant_eq hmem).symm.trans hg)

/-- A grant that is new is none of those there have been. -/
theorem Fits.put {born : List (Nat × Identity)} (h : Fits born manifest)
    (hfr : Table.find born id = none) (ident : Identity) :
    Fits (Table.put born id ident) manifest := by
  have hf {i : Nat} {a : Identity} (ha : Table.find born i = some a) :
      Table.find (Table.put born id ident) i = some a := by
    rw [Table.find_put_of_ne _ born ident]
    · exact ha
    · rintro rfl
      rw [hfr] at ha
      cases ha
  refine ⟨fun grant hg => ?_, h.ordered.imp ?_⟩
  · obtain ⟨a, ha, hr⟩ := h.identity grant hg
    exact ⟨a, hf ha, hr⟩
  · rintro i j ⟨a, b, ha, hb, hab⟩
    exact ⟨a, b, hf ha, hf hb, hab⟩

instance : IsTrans (Grant Opts) older := by
  refine ⟨fun a b c hab hbc => ?_⟩
  unfold older at *
  omega

instance : Std.Total (@older Opts) := by
  refine ⟨fun a b => ?_⟩
  unfold older
  omega

/-- **What a fetch shows are grants that there are**, as they are, in their order. -/
theorem Rooted.fetched (h : Rooted s) (hman : s.db.effectiveManifest sub now = some manifest) :
    Fits s.born manifest ∧ manifest.clientId = sub.client
      ∧ ∀ a ∈ manifest.grants, ∃ g ∈ s.db.grants, a.grantId = g.id
        ∧ a.protocol = g.identity.protocol ∧ a.nodeId = g.identity.node
        ∧ a.runtimeUsername = g.identity.runtimeUsername ∧ a.options = g.options
        ∧ a.secretVersion = g.version.getD 0 ∧ a.label = g.label.getD "" := by
  obtain ⟨c, -, rfl⟩ := Option.map_eq_some_iff.mp hman
  have hlive (g : Grant Opts) (hg : g ∈ (s.db.clientGrants sub.client).filter
      fun g => g.identity.protocol ≠ .amneziawg) :
      g ∈ s.db.grants ∧ g.identity.client = sub.client := by
    have hcl := (mem_insertionSort _).mp (mem_filter.mp hg).1
    obtain ⟨hmem, hlive⟩ := mem_filter.mp hcl
    exact ⟨hmem, (of_decide_eq_true hlive).1⟩
  refine ⟨⟨?_, ?_⟩, rfl, ?_⟩
  · intro a ha
    obtain ⟨g, hg, rfl⟩ := mem_map.mp ha
    obtain ⟨hmem, hcl⟩ := hlive g hg
    exact ⟨g.identity, h.identity g hmem, rfl, rfl, rfl, rfl, hcl⟩
  · -- The list is sorted, and no id stands in it twice.
    rw [map_map]
    refine pairwise_map.mpr ?_
    have hsort : ((s.db.clientGrants sub.client).filter
        fun g => g.identity.protocol ≠ .amneziawg).Pairwise older :=
      (pairwise_insertionSort older _).filter _
    have hnd : (((s.db.clientGrants sub.client).filter
        fun g => g.identity.protocol ≠ .amneziawg).map (·.id)).Nodup := by
      refine List.Nodup.sublist (filter_sublist.map _) ?_
      refine ((perm_insertionSort older _).map _).nodup_iff.mpr ?_
      exact List.Nodup.sublist (filter_sublist.map _) h.nodup
    have hne := pairwise_map.mp (nodup_iff_pairwise_ne.mp hnd)
    refine (List.Pairwise.and_mem.mp (hsort.and hne)).imp ?_
    rintro a b ⟨ha, hb, holder, hid⟩
    refine ⟨a.identity, b.identity, h.identity a (hlive a ha).1, h.identity b (hlive b hb).1, ?_⟩
    rcases holder with hlt | ⟨heq, hle⟩
    · exact .inl hlt
    · exact .inr ⟨heq, lt_of_le_of_ne hle hid⟩
  · intro a ha
    obtain ⟨g, hg, rfl⟩ := mem_map.mp ha
    exact ⟨g, (hlive g hg).1, rfl, rfl, rfl, rfl, rfl, rfl, rfl⟩

/-- A manifest of enabled grants. -/
theorem enabled_of_manifest (hman : db.effectiveManifest sub now = some manifest)
    (hen : ∀ c ∈ find db.clients sub.client, ∀ grant ∈ db.grants,
      grant.identity.client = sub.client → grant.desired ≠ .deleted →
      grant.identity.protocol ≠ .amneziawg →
      c.state = .active ∧ grant.desired = .enabled
        ∧ withinValidity grant.validFrom grant.validUntil now = true) :
    ∀ a ∈ manifest.grants, a.enabled = true := by
  obtain ⟨c, hcl, rfl⟩ := Option.map_eq_some_iff.mp hman
  intro a ha
  obtain ⟨grant, hg, rfl⟩ := mem_map.mp ha
  obtain ⟨hg, hprot⟩ := mem_filter.mp hg
  obtain ⟨hmem, hlive⟩ := mem_filter.mp ((mem_insertionSort _).mp hg)
  obtain ⟨hown, hdes⟩ := of_decide_eq_true hlive
  obtain ⟨hact, hon, hval⟩ :=
    hen c hcl grant hmem hown hdes (of_decide_eq_true hprot)
  show (decide (c.state = .active) && decide (grant.desired = .enabled)
    && withinValidity grant.validFrom grant.validUntil now) = true
  rw [hact, hon, hval]
  rfl

theorem Rooted.step (h : Rooted s) (hs : step site s e = some s') : Rooted s' := by
  cases e with
  | insert grant secret =>
    obtain ⟨hcond, hs'⟩ := Option.ite_none_left_eq_some.mp hs
    cases hs'
    have hfr : find s.born grant.id = none := by
      rw [← Option.not_isSome_iff_eq_none]
      exact fun hsm => hcond (.inl hsm)
    refine ⟨fun old hold => ?_, ?_, fun en hent => (h.fits en hent).put hfr _⟩
    · rcases mem_append.mp hold with hold | hold
      · refine (find_put_of_ne (fun heq => ?_) s.born _).trans (h.identity old hold)
        have := h.identity old hold
        rw [heq, hfr] at this
        cases this
      · obtain rfl := mem_singleton.mp hold
        exact find_put_self ..
    · rw [map_append]
      refine nodup_append'.mpr ⟨h.nodup, nodup_singleton _, ?_⟩
      intro i hi hsingle
      obtain rfl := mem_singleton.mp hsingle
      obtain ⟨old, hold, heq⟩ := mem_map.mp hi
      have := h.identity old hold
      rw [heq, hfr] at this
      cases this
  | purgeGrant id =>
    cases hs
    exact ⟨fun grant hg => h.identity grant (mem_filter.mp hg).1,
      List.Nodup.sublist (filter_sublist.map _) h.nodup, h.fits⟩
  | setGrantLabel id label now =>
    obtain ⟨grant, -, rfl⟩ := Option.map_eq_some_iff.mp hs
    refine h.of_plain ((map_map ..).trans (map_congr_left fun grant _ => ?_))
    show (fun g : Grant Opts => (g.id, g.identity)) (if grant.id = id then _ else grant) = _
    split <;> rfl
  | subscribe id c now =>
    obtain ⟨-, hs'⟩ := Option.ite_none_left_eq_some.mp hs
    cases hs'
    exact h.of_plain rfl
  | revoke | bump =>
    cases hs
    exact h.of_plain rfl
  | fetch id format c english now =>
    obtain ⟨sub, -, hr⟩ := Option.bind_eq_some_iff.mp hs
    obtain ⟨-, hr⟩ := Option.ite_none_left_eq_some.mp hr
    obtain ⟨manifest, hman, rfl⟩ := Option.map_eq_some_iff.mp hr
    exact { h with fits := forall_mem_cons.mpr ⟨(h.fetched hman).1, h.fits⟩ }
  | _ =>
    obtain ⟨db', rfl, hpln, -⟩ := step_quiet hs rfl
    refine h.of_plain ?_
    have hcore := congrArg (map fun p : Nat × Identity × Option String => (p.1, p.2.1)) hpln
    rw [map_map, map_map] at hcore
    exact hcore

end Rooted

/-! ## The labels of a page -/

/-- The grants of a manifest that are still there show a label as they did. -/
def Shown (site : Site Opts) (grants : List (Grant Opts)) (manifest : Manifest Opts) : Prop :=
  ∀ a ∈ manifest.grants, ∀ grant ∈ grants, grant.id = a.grantId →
    (site.displayText a.label = "" ↔ site.displayText (grant.label.getD "") = "")

/-- **The time on a page tells its labels**: since then no label has come or gone. -/
structure Dated (site : Site Opts) (s : State Opts) : Prop where
  rows : ∀ e ∈ s.served, ∃ row, find s.db.subscriptions e.subscription = some row
    ∧ row.client = e.manifest.clientId
  labels : ∀ e ∈ s.served, ∀ row, find s.db.subscriptions e.subscription = some row →
    row.active = true → ∀ english updatedAt, e.variant = .page english updatedAt →
      updatedAt ≤ row.updatedAt
        ∧ (updatedAt = row.updatedAt → Shown site s.db.grants e.manifest)
  pages : ∀ e ∈ s.served, ∀ e' ∈ s.served, e.subscription = e'.subscription →
    e.variant = e'.variant → e.format = .html → e'.format = .html →
    SameLabels site e.manifest e'.manifest
  page : ∀ e ∈ s.served, e.format = .html → ∃ english updatedAt,
    e.variant = .page english updatedAt
  whole : ∀ e ∈ s.served, e.format = .manifest → ∀ a ∈ e.manifest.grants, a.enabled = true

section Dated

variable {s s' : State Opts}

theorem Shown.of_subset (h : Shown site grants manifest)
    (hgrs : ∀ grant' ∈ grants', (∃ grant ∈ grants,
      grant.id = grant'.id ∧ grant.label = grant'.label)
      ∨ grant'.id ∉ manifest.grants.map (·.grantId)) : Shown site grants' manifest := by
  intro a ha grant' hg' hid
  rcases hgrs grant' hg' with ⟨grant, hg, hid', hlab⟩ | hnew
  · rw [← hlab]
    exact h a ha grant hg (hid'.trans hid)
  · exact absurd (hid ▸ mem_map_of_mem ha) hnew

/-- Of two manifests whose grants show labels as they do now, the one of grants that are
there. -/
theorem Shown.sameLabels {m₁ m₂ : Manifest Opts} (h₁ : Shown site grants m₁)
    (h₂ : Shown site grants m₂) (hthere : ∀ a ∈ m₁.grants, ∃ grant ∈ grants, grant.id = a.grantId) :
    SameLabels site m₁ m₂ := by
  intro a ha b hb hid
  obtain ⟨grant, hg, hid'⟩ := hthere a ha
  exact propext ((h₁ a ha grant hg hid').trans (h₂ b hb grant hg (hid'.trans hid)).symm)

/-- A change of the grants that shows on no page, with the subscriptions as they are. -/
theorem Dated.of_shown (h : Dated site s) {born' : List (Nat × Identity)}
    (hsubs : db'.subscriptions = s.db.subscriptions)
    (hsh : ∀ e ∈ s.served, Shown site s.db.grants e.manifest → Shown site db'.grants e.manifest)
    : Dated site { s with db := db', born := born' } := by
  refine { h with rows := fun e he => hsubs ▸ h.rows e he, labels := fun e he row hrow => ?_ }
  intro hact english updatedAt hvar
  obtain ⟨hle, hlab⟩ :=
    h.labels e he row (hsubs ▸ hrow) hact english updatedAt hvar
  exact ⟨hle, fun heq => hsh e he (hlab heq)⟩

/-- A change of the subscriptions that keeps their clients, ends some, and dates some
anew: the labels that changed are of grants whose clients' pages are dated anew. -/
theorem Dated.of_redate (h : Dated site s) {f : Nat → Subscription → Subscription}
    (hf : ∀ id, find db'.subscriptions id = (find s.db.subscriptions id).map (f id))
    (hcl : ∀ id row, (f id row).client = row.client)
    (hdate : ∀ e ∈ s.served, ∀ row, find s.db.subscriptions e.subscription = some row →
      row.client = e.manifest.clientId → (f e.subscription row).active = true →
      row.active = true ∧ row.updatedAt ≤ (f e.subscription row).updatedAt
        ∧ (row.updatedAt = (f e.subscription row).updatedAt →
          Shown site s.db.grants e.manifest → Shown site db'.grants e.manifest)) :
    Dated site { s with db := db' } := by
  refine { h with rows := fun e he => ?_, labels := fun e he row' hrow' => ?_ }
  · obtain ⟨row, hrow, hid⟩ := h.rows e he
    exact ⟨f e.subscription row, by rw [hf, hrow]; rfl, (hcl _ row).trans hid⟩
  · intro hact english updatedAt hvar
    obtain ⟨row, hrow, hid⟩ := h.rows e he
    obtain rfl : f e.subscription row = row' := by
      have hmap : find db'.subscriptions e.subscription = some (f e.subscription row) := by
        rw [hf, hrow]
        rfl
      exact Option.some.inj (hmap.symm.trans hrow')
    obtain ⟨hact', hle, hsh⟩ := hdate e he row hrow hid hact
    obtain ⟨hbef, hlab⟩ := h.labels e he row hrow hact' english updatedAt hvar
    refine ⟨hbef.trans hle, fun heq => ?_⟩
    exact hsh (le_antisymm hle (heq ▸ hbef)) (hlab (le_antisymm hbef (heq ▸ hle)))

/-- The subscription, after those of a client have moved on. -/
def Subscription.bumped (client : Nat) (now : Int) (row : Subscription) : Subscription :=
  if row.client = client ∧ row.active then
    { row with generation := row.generation + 1, updatedAt := now } else row

theorem find_bump (db : Database Opts) (c : Nat) (now : Int) (id : Nat) :
    find (db.bump c now).subscriptions id
      = (find db.subscriptions id).map (Subscription.bumped c now) :=
  find_map (fun _ row => Subscription.bumped c now row) db.subscriptions id

theorem bumped_kept (c : Nat) (now : Int) (row : Subscription) :
    (row.bumped c now).client = row.client ∧ (row.bumped c now).active = row.active := by
  unfold Subscription.bumped
  split <;> exact ⟨rfl, rfl⟩

theorem bumped_updatedAt {c : Nat} {row : Subscription} (hact : row.active = true) :
    (row.bumped c now).updatedAt = if row.client = c then now else row.updatedAt := by
  unfold Subscription.bumped
  by_cases h : row.client = c
  · rw [if_pos ⟨h, hact⟩, if_pos h]
  · rw [if_neg fun h' => h h'.1, if_neg h]

theorem Dated.step (h : Dated site s) (hroot : Rooted s) (hclr : Clear site s e)
    (hs : step site s e = some s') : Dated site s' := by
  cases e with
  | insert grant secret =>
    obtain ⟨hcond, hs'⟩ := Option.ite_none_left_eq_some.mp hs
    cases hs'
    refine h.of_shown rfl fun en hent hsh => hsh.of_subset fun grant' hg' => ?_
    rcases mem_append.mp hg' with hg' | hg'
    · exact .inl ⟨grant', hg', rfl, rfl⟩
    · obtain rfl := mem_singleton.mp hg'
      refine .inr fun hid => hcond (.inl ?_)
      obtain ⟨a, ha, hid⟩ := mem_map.mp hid
      obtain ⟨ident, hident, -⟩ := (hroot.fits en hent).identity a ha
      rw [← hid]
      exact Option.isSome_of_eq_some hident
  | purgeGrant id =>
    cases hs
    refine h.of_shown rfl fun en _ hsh => hsh.of_subset fun grant' hg' => ?_
    exact .inl ⟨grant', (mem_filter.mp hg').1, rfl, rfl⟩
  | setGrantLabel id label now =>
    obtain ⟨grant, hg, rfl⟩ := Option.map_eq_some_iff.mp hs
    obtain ⟨hmem, hid⟩ := mem_of_grant hg
    refine h.of_redate (find_bump _ grant.identity.client now)
      (fun _ row => (bumped_kept _ now row).1) fun en hent row hrow hcl => ?_
    intro hact
    rw [(bumped_kept _ _ row).2] at hact
    refine ⟨hact, ?_⟩
    rw [bumped_updatedAt hact]
    by_cases hown : row.client = grant.identity.client
    · -- The pages of the grant's client are dated anew.
      rw [if_pos hown]
      obtain ⟨hle, hlab⟩ :=
        hclr grant hmem hid _ (mem_of_find hrow) hown hact
      refine ⟨hle, fun heq hsh a ha grant' hg' hid' => ?_⟩
      obtain ⟨old, hold, rfl⟩ := mem_map.mp hg'
      split at hid' <;> rename_i hcase
      · obtain rfl := hroot.eq_of_grant hg hold hcase
        rw [if_pos hcase]
        exact (hsh a ha old hold hid').trans (hlab heq).symm
      · rw [if_neg hcase]
        exact hsh a ha old hold hid'
    · -- On the pages of other clients the grant does not stand.
      rw [if_neg hown]
      refine ⟨le_rfl, fun _ hsh => hsh.of_subset fun grant' hg' => ?_⟩
      obtain ⟨old, hold, rfl⟩ := mem_map.mp hg'
      split <;> rename_i hcase
      · refine .inr fun hman => hown ?_
        obtain ⟨a, ha, hid'⟩ := mem_map.mp hman
        obtain ⟨ident, hident, -, -, -, -, hcl'⟩ :=
          (hroot.fits en hent).identity a ha
        obtain rfl := hroot.eq_of_grant hg hold hcase
        have hborn := hroot.identity old hold
        rw [show old.id = a.grantId from hid'.symm, hident] at hborn
        rw [← Option.some.inj hborn, hcl', hcl]
      · exact .inl ⟨old, hold, rfl, rfl⟩
  | subscribe id c now =>
    obtain ⟨hcond, hs'⟩ := Option.ite_none_left_eq_some.mp hs
    cases hs'
    have hf (en : Served Opts) (hent : en ∈ s.served) :
        find (put s.db.subscriptions id ⟨c, 1, now, true⟩) en.subscription
          = find s.db.subscriptions en.subscription := by
      refine find_put_of_ne (fun heq => hcond ?_) _ _
      obtain ⟨row, hrow, -⟩ := h.rows en hent
      rw [← heq]
      exact Option.isSome_of_eq_some hrow
    refine { h with rows := fun en hent => ?_, labels := fun en hent row hrow => ?_ }
    · obtain ⟨row, hrow, hcl⟩ := h.rows en hent
      exact ⟨row, (hf en hent).trans hrow, hcl⟩
    · exact h.labels en hent row ((hf en hent).symm.trans hrow)
  | revoke id =>
    cases hs
    let ended (id' : Nat) (row : Subscription) : Subscription :=
      if id' = id then { row with active := false } else row
    refine h.of_redate (f := ended) (find_map ended s.db.subscriptions) (fun id' row => ?_)
      fun en _ row _ _ hact => ?_
    · show (if id' = id then { row with active := false } else row).client = row.client
      split <;> rfl
    · dsimp only [ended] at hact ⊢
      split at hact
      · cases hact
      next hne =>
        rw [if_neg hne]
        exact ⟨hact, le_rfl, fun _ hsh => hsh⟩
  | bump c now =>
    cases hs
    refine h.of_redate (find_bump _ c now) (fun _ row => (bumped_kept c now row).1)
      fun en _ row hrow _ hact => ?_
    rw [(bumped_kept _ _ row).2] at hact
    rw [bumped_updatedAt hact]
    refine ⟨hact, ?_, fun _ hsh => hsh⟩
    split
    next hcl => exact hclr _ (mem_of_find hrow) hcl hact
    · exact le_rfl
  | fetch id format c english now =>
    obtain ⟨sub, hsub, hr⟩ := Option.bind_eq_some_iff.mp hs
    obtain ⟨hact, hr⟩ := Option.ite_none_left_eq_some.mp hr
    obtain ⟨manifest, hman, rfl⟩ := Option.map_eq_some_iff.mp hr
    obtain ⟨hfits, hcl, hlive⟩ := hroot.fetched hman
    have hact' : sub.active = true := by simpa using hact
    have hsh : Shown site s.db.grants manifest := by
      intro a ha grant hg hid
      obtain ⟨grant', hg', hid', -, -, -, -, -, hlab⟩ := hlive a ha
      obtain rfl : grant = grant' :=
        inj_on_of_nodup_map hroot.nodup hg hg' (hid.trans hid')
      rw [hlab]
    refine ⟨forall_mem_cons.mpr ⟨⟨sub, hsub, hcl.symm⟩, h.rows⟩,
      forall_mem_cons.mpr ⟨fun row hrow _ english' updatedAt hvar => ?_, h.labels⟩,
      fun en hent => ?_,
      forall_mem_cons.mpr ⟨fun hfmt => ⟨english, sub.updatedAt, if_pos hfmt⟩, h.page⟩,
      forall_mem_cons.mpr ⟨fun hfmt =>
        enabled_of_manifest hman (hclr hfmt sub hsub), h.whole⟩⟩
    · obtain rfl := Option.some.inj (hsub.symm.trans hrow)
      split at hvar
      · cases hvar
        exact ⟨le_rfl, fun _ => hsh⟩
      · cases hvar
    · intro en' hent' hid hvar hfmt hfmt'
      -- An older page of the same time shows the labels there are now.
      have hold (old : Served Opts) (hold : old ∈ s.served) (hid : old.subscription = id)
          (hvar : old.variant = .page english sub.updatedAt) :
          Shown site s.db.grants old.manifest :=
        (h.labels old hold sub (hid ▸ hsub) hact' english _ hvar).2 rfl
      have hthere (a : ManifestGrant Opts) (ha : a ∈ manifest.grants) :
          ∃ grant ∈ s.db.grants, grant.id = a.grantId := by
        obtain ⟨grant, hg, hid, -⟩ := hlive a ha
        exact ⟨grant, hg, hid.symm⟩
      rcases mem_cons.mp hent with rfl | hent
      · rcases mem_cons.mp hent' with rfl | hent'
        · exact hsh.sameLabels hsh hthere
        · exact hsh.sameLabels (hold en' hent' hid.symm (hvar.symm.trans (if_pos hfmt))) hthere
      · rcases mem_cons.mp hent' with rfl | hent'
        · intro a ha b hb hab
          exact (hsh.sameLabels (hold en hent hid (hvar.trans (if_pos hfmt')))
            hthere b hb a ha hab.symm).symm
        · exact h.pages en hent en' hent' hid hvar hfmt hfmt'
  | _ =>
    obtain ⟨db', rfl, hpln, hsubs⟩ := step_quiet hs rfl
    refine h.of_shown hsubs fun en _ hsh => hsh.of_subset fun grant' hg' => ?_
    obtain ⟨grant, hg, heq⟩ := mem_of_plain hpln hg'
    rw [Grant.plain, Grant.plain, Prod.mk.injEq, Prod.mk.injEq] at heq
    exact .inl ⟨grant, hg, heq.1, heq.2.2⟩

end Dated

/-! ## The meaning that all fetches agree with -/

/-- **Versions and grants mean what they mean**: the versions that are named have their
credential now, the grants their host, and what was fetched was made from the meaning. A
version that was fetched is none that is still to be named. -/
structure Steady (site : Site Opts) (meaning : Meaning) (s : State Opts) : Prop where
  stored : ∀ grant ∈ s.db.grants, ∀ version, grant.version = some version →
    (find s.db.secrets (grant.id, version)).isSome = true
  secret : ∀ grant ∈ s.db.grants, ∀ version, grant.version = some version →
    s.db.credential grant.id version = meaning.secret grant.id version
  host : ∀ grant ∈ s.db.grants,
    s.db.hosts grant.identity.node grant.identity.protocol = meaning.host grant.id
  links : ∀ e ∈ s.served, e.artifacts = resolveArtifacts (meaning.links site) e.manifest.grants
  versions : ∀ e ∈ s.served, ∀ a ∈ e.manifest.grants, ∀ grant ∈ s.db.grants,
    grant.id = a.grantId → a.secretVersion ≤ grant.version.getD 0

section Steady

variable {mea : Meaning} {s s' : State Opts}

/-- The links read the credential of a version from one on, and the host. -/
theorem links_congr {mea' : Meaning} (hsec : 1 ≤ a.secretVersion →
      mea'.secret a.grantId a.secretVersion = mea.secret a.grantId a.secretVersion)
    (hhost : mea'.host a.grantId = mea.host a.grantId) :
    mea'.links site a = mea.links site a := by
  unfold Meaning.links
  split
  · rfl
  next h =>
    have hver : 1 ≤ a.secretVersion := by
      simp only [Bool.or_eq_true, decide_eq_true_eq, not_or, not_lt] at h
      exact h.2
    rw [hsec hver, hhost]

/-- The grants keep their hosts. -/
def SameHosts (db db' : Database Opts) : Prop :=
  ∀ grant ∈ db.grants, db'.hosts grant.identity.node grant.identity.protocol
    = db.hosts grant.identity.node grant.identity.protocol

/-- A change that renames no version: the grants that are left name what they named, and
that has the credential it had. -/
theorem Steady.of_kept (h : Steady site mea s)
    (hgrs : ∀ grant' ∈ db'.grants, ∃ grant ∈ s.db.grants, grant'.id = grant.id
      ∧ grant'.identity = grant.identity ∧ grant'.version = grant.version
      ∧ ∀ version, grant.version = some version →
        (find db'.secrets (grant.id, version)).isSome = true
          ∧ db'.credential grant.id version = s.db.credential grant.id version)
    (hhs : SameHosts s.db db') : Steady site mea { s with db := db' } := by
  refine ⟨fun grant' hg' version hver => ?_, fun grant' hg' version hver => ?_,
    fun grant' hg' => ?_, h.links, fun e he a ha grant' hg' hid => ?_⟩
  all_goals obtain ⟨grant, hg, hid', hident, hver', hkept⟩ := hgrs grant' hg'
  · rw [hid']
    exact (hkept version (hver' ▸ hver)).1
  · rw [hid', ← h.secret grant hg version (hver' ▸ hver)]
    exact (hkept version (hver' ▸ hver)).2
  · rw [hid', hident, ← h.host grant hg]
    exact hhs grant hg
  · rw [hver']
    exact h.versions e he a ha grant hg (hid'.symm.trans hid)

variable {id version : Nat}

/-- A change of the grants' settings alone, or of other tables. -/
theorem Steady.of_settings (h : Steady site mea s) (id : Nat) (hf : ∀ grant, (f grant).id = grant.id
      ∧ (f grant).identity = grant.identity ∧ (f grant).version = grant.version)
    (hgrs : db'.grants = s.db.grants.map fun grant => if grant.id = id then f grant else grant)
    (hsecs : db'.secrets = s.db.secrets) (hhs : SameHosts s.db db') :
    Steady site mea { s with db := db' } := by
  refine h.of_kept (fun grant' hg' => ?_) hhs
  rw [hgrs] at hg'
  obtain ⟨grant, hg, rfl⟩ := mem_map.mp hg'
  have hkept (version : Nat) (hver : grant.version = some version) :
      (find db'.secrets (grant.id, version)).isSome = true
        ∧ db'.credential grant.id version = s.db.credential grant.id version := by
    unfold Database.credential
    rw [hsecs]
    exact ⟨h.stored grant hg version hver, rfl⟩
  split
  · exact ⟨grant, hg, (hf grant).1, (hf grant).2.1, (hf grant).2.2, hkept⟩
  · exact ⟨grant, hg, rfl, rfl, rfl, hkept⟩

theorem Steady.of_same (h : Steady site mea s)
    (hgrs : db'.grants = s.db.grants) (hsecs : db'.secrets = s.db.secrets)
    (hhs : SameHosts s.db db') : Steady site mea { s with db := db' } := by
  refine h.of_settings 0 (f := id) (fun _ => ⟨rfl, rfl, rfl⟩) ?_ hsecs hhs
  rw [hgrs]
  exact (map_id' s.db.grants).symm.trans (map_congr_left fun grant _ => (ite_self grant).symm)

variable {grant : Grant Opts}

/-- **A grant is changed or new**: no fetch was made from the version it names now, which gets
its meaning, and its host is the one it had. -/
theorem Steady.of_grant (h : Steady site mea s) {g : Grant Opts}
    (hcs : ∀ g' ∈ db'.grants, g' ∈ s.db.grants ∧ g'.id ≠ g.id ∨ g' = g)
    (hoth : ∀ id', id' ≠ g.id → Undisturbed s.db db' id')
    (hsto : ∀ version, g.version = some version →
      (find db'.secrets (g.id, version)).isSome = true) (hhs : db'.hosts = s.db.hosts)
    (hnew : ∀ e ∈ s.served, ∀ a ∈ e.manifest.grants, a.grantId = g.id →
      (1 ≤ a.secretVersion → g.version ≠ some a.secretVersion)
        ∧ mea.host g.id = s.db.hosts g.identity.node g.identity.protocol
        ∧ a.secretVersion ≤ g.version.getD 0) (born' : List (Nat × Identity)) :
    ∃ mea', Steady site mea' { s with db := db', born := born' } := by
  let mea' : Meaning :=
    { secret := fun id version =>
        if id = g.id ∧ g.version = some version then db'.credential id version
        else mea.secret id version
      host := fun id =>
        if id = g.id then s.db.hosts g.identity.node g.identity.protocol else mea.host id }
  refine ⟨mea', fun g' hg' version hver => ?_, fun g' hg' version hver => ?_,
    fun g' hg' => ?_, fun e he => ?_, fun e he a ha g' hg' hid => ?_⟩
  · rcases hcs g' hg' with ⟨hold, hne⟩ | rfl
    · exact (hoth g'.id hne version (h.stored g' hold version hver)).1
    · exact hsto version hver
  · rcases hcs g' hg' with ⟨hold, hne⟩ | rfl
    · refine (hoth g'.id hne version (h.stored g' hold version hver)).2.trans ?_
      exact (h.secret g' hold version hver).trans (if_neg fun heq => hne heq.1).symm
    · exact (if_pos ⟨rfl, hver⟩).symm
  · rw [hhs]
    rcases hcs g' hg' with ⟨hold, hne⟩ | rfl
    · exact (h.host g' hold).trans (if_neg hne).symm
    · exact (if_pos rfl).symm
  · refine (h.links e he).trans (resolveArtifacts_congr (forall₂_same.mpr fun a ha => ?_))
    refine ⟨(links_congr (fun hone => if_neg ?_) ?_).symm, rfl⟩
    · rintro ⟨hid, hver⟩
      exact (hnew e he a ha hid).1 hone hver
    · by_cases hid : a.grantId = g.id
      · rw [hid, (hnew e he a ha hid).2.1]
        exact if_pos rfl
      · exact if_neg hid
  · rcases hcs g' hg' with ⟨hold, -⟩ | rfl
    · exact h.versions e he a ha g' hold hid
    · exact (hnew e he a ha hid.symm).2.2

/-- **A version is named**: it comes after all that were. -/
theorem Steady.of_version (h : Steady site mea s) (hroot : Rooted s)
    (hg : s.db.grant id = some g) (hgrs : db'.grants = s.db.grants.map fun g =>
      if g.id = id then { g with version := some version } else g)
    (hbef : g.version.getD 0 = 0 ∨ g.version.getD 0 < version)
    (hoth : ∀ id', id' ≠ id → Undisturbed s.db db' id')
    (hsto : (find db'.secrets (id, version)).isSome = true)
    (hhs : db'.hosts = s.db.hosts) : ∃ mea', Steady site mea' { s with db := db' } := by
  obtain ⟨hmem, rfl⟩ := mem_of_grant hg
  refine h.of_grant (g := { g with version := some version }) (fun g' hg' => ?_) hoth
    (fun version' hver' => Option.some.inj hver' ▸ hsto) hhs (fun e he a ha hid => ?_) s.born
  · rw [hgrs] at hg'
    obtain ⟨old, hold, rfl⟩ := mem_map.mp hg'
    split <;> rename_i heq
    · rw [hroot.eq_of_grant hg hold heq]
      exact .inr rfl
    · exact .inl ⟨hold, heq⟩
  · -- A version that was fetched is below the new one.
    have hle := h.versions e he a ha g hmem hid.symm
    refine ⟨fun hone heq => ?_, (h.host g hmem).symm, ?_⟩
    · have := Option.some.inj heq
      omega
    · rw [Option.getD_some]
      omega

theorem le_foldl_max (l : List Nat) (init : Nat) :
    init ≤ l.foldl max init ∧ ∀ i ∈ l, i ≤ l.foldl max init := by
  induction l generalizing init with
  | nil => exact ⟨le_rfl, nofun⟩
  | cons a l ih =>
    obtain ⟨hinit, hmem⟩ := ih (max init a)
    refine ⟨(le_max_left init a).trans hinit, fun i hi => ?_⟩
    rcases mem_cons.mp hi with rfl | hi
    · exact (le_max_right init i).trans hinit
    · exact hmem i hi

/-- No version that is there is above the highest. -/
theorem le_top (h : (find db.secrets (id, version)).isSome = true) : version ≤ db.top id := by
  obtain ⟨secret, hsec⟩ := Option.isSome_iff_exists.mp h
  refine (le_foldl_max _ 0).2 version (mem_map.mpr ⟨((id, version), secret), ?_, rfl⟩)
  exact mem_filter.mpr ⟨mem_of_find hsec, decide_eq_true rfl⟩

/-- The version a grant names is at most the highest. -/
theorem Steady.named_le_top (h : Steady site mea s)
    (hg : s.db.grant id = some grant) : grant.version.getD 0 ≤ s.db.top id := by
  obtain ⟨hmem, rfl⟩ := mem_of_grant hg
  cases hver : grant.version with
  | none => exact Nat.zero_le _
  | some version => exact le_top (h.stored grant hmem version hver)

theorem isSome_find_setSecret_self (secr : Secret) :
    (find (db.setSecret id version secr).secrets (id, version)).isSome = true :=
  Option.isSome_of_eq_some (find_put_self ..)

/-- The version that is new in a step is named. -/
theorem Steady.of_successor (h : Steady site mea s) (hroot : Rooted s)
    (hg : s.db.grant id = some grant) (hbef : s.db.top id < version)
    (hdb : db = (s.db.setSecret id version secret).update id ({ · with version := some version }))
    (hs' : (match grant.version with
      | none => some { s with db := db }
      | some prev => (db.transition id prev state).map fun db => { s with db := db })
        = some s') : ∃ mea', Steady site mea' s' := by
  subst hdb
  have hlater : grant.version.getD 0 < version := (h.named_le_top hg).trans_lt hbef
  split at hs'
  · cases hs'
    exact h.of_version hroot hg rfl (.inr hlater)
      (fun id' hne => undisturbed_setSecret hne s.db version secret)
      (isSome_find_setSecret_self secret) rfl
  · obtain ⟨db, hdb, rfl⟩ := Option.map_eq_some_iff.mp hs'
    obtain ⟨secret', -, rfl⟩ := Option.map_eq_some_iff.mp hdb
    refine h.of_version hroot hg rfl (.inr hlater) (fun id' hne => ?_)
      (isSome_find_put (isSome_find_setSecret_self secret) _ _) rfl
    exact (undisturbed_setSecret hne s.db version secret).trans (undisturbed_setSecret hne _ _ _)

/-- What a node confirms was in force before, if it was not pending. -/
theorem confirmCredential_undisturbed (hver : grant.version = some version)
    (hfnd : (find db.secrets (grant.id, version)).isSome = true)
    (hsta : (find db.secrets (grant.id, version)).all (·.state ≠ .pending) = true) :
    (find (db.confirmCredential grant).secrets (grant.id, version)).isSome = true
      ∧ (db.confirmCredential grant).credential grant.id version
        = db.credential grant.id version := by
  obtain ⟨secr, hsec⟩ := Option.isSome_iff_exists.mp hfnd
  obtain ⟨state, plaintext⟩ := secr
  rw [hsec] at hsta
  unfold Database.confirmCredential
  simp only [hver, hsec]
  cases state with
  | pending => simp at hsta
  | active =>
    have hmv : find (db.moveAll grant.id (· = .retiring) .revoked).secrets
        (grant.id, version) = some ⟨.active, plaintext⟩ := by
      have hf := find_map (fun (key : Nat × Nat) (secr : Secret) =>
        if key.1 = grant.id ∧ decide (secr.state = .retiring) then
          { secr with state := .revoked } else secr) db.secrets (grant.id, version)
      refine hf.trans ?_
      rw [hsec]
      simp
    rw [credential_of_active hmv, credential_of_active hsec, hmv]
    exact ⟨rfl, rfl⟩
  | retiring => exact ⟨hfnd, rfl⟩
  | revoked => exact ⟨hfnd, rfl⟩

theorem undisturbed_confirmCredential (hid : id ≠ grant.id)
    (db : Database Opts) : Undisturbed db (db.confirmCredential grant) id := by
  unfold Database.confirmCredential
  split
  · exact .rfl
  split
  · exact .rfl
  split
  · exact (undisturbed_setSecret hid db _ _).trans (undisturbed_moveAll hid _ _ _)
  · exact undisturbed_moveAll hid db _ _
  · exact .rfl
  · exact .rfl

/-- A new grant: its id has not been fetched. -/
theorem Steady.of_insert (h : Steady site mea s) (hroot : Rooted s)
    (hfr : find s.born grant.id = none) (hgrs : db'.grants = s.db.grants ++ [grant])
    (hhs : db'.hosts = s.db.hosts) (hoth : ∀ id', id' ≠ grant.id → Undisturbed s.db db' id')
    (hsto : ∀ version, grant.version = some version →
      (find db'.secrets (grant.id, version)).isSome = true) (born' : List (Nat × Identity)) :
    ∃ mea', Steady site mea' { s with db := db', born := born' } := by
  have hold {id : Nat} {ident : Identity} (hborn : find s.born id = some ident) :
      id ≠ grant.id := by
    rintro rfl
    rw [hfr] at hborn
    cases hborn
  refine h.of_grant (fun grant' hg' => ?_) hoth hsto hhs (fun e he a ha hid => ?_) born'
  · rw [hgrs] at hg'
    rcases mem_append.mp hg' with hmem | hmem
    · exact .inl ⟨hmem, hold (hroot.identity grant' hmem)⟩
    · exact .inr (mem_singleton.mp hmem)
  · obtain ⟨ident, hborn, -⟩ := (hroot.fits e he).identity a ha
    exact absurd hid (hold hborn)

/-- A fetch is made from the meaning. -/
theorem Steady.artifacts (h : Steady site mea s) (hroot : Rooted s)
    (hman : s.db.effectiveManifest sub now = some manifest) :
    resolveArtifacts (Database.artifacts site s.db) manifest.grants
      = resolveArtifacts (mea.links site) manifest.grants := by
  refine resolveArtifacts_congr (forall₂_same.mpr fun a ha => ⟨?_, rfl⟩)
  obtain ⟨grant, hg, hid, hprot, hnode, huser, hopts, hver, -⟩ :=
    (hroot.fetched hman).2.2 a ha
  unfold Database.artifacts Meaning.links
  split
  · rfl
  next hlink =>
    have hone : 1 ≤ a.secretVersion := by
      simp only [Bool.or_eq_true, decide_eq_true_eq, not_or, not_lt] at hlink
      exact hlink.2
    have hnam : grant.version = some a.secretVersion := by
      cases hv : grant.version with
      | none =>
        rw [hver, hv] at hone
        exact absurd hone (by simp)
      | some version => rw [hver, hv, Option.getD_some]
    rw [hid, hroot.grant_eq hg]
    simp only [h.secret grant hg _ hnam, hnode, hprot, h.host grant hg, hopts, huser]

/-- **A clear step leaves a meaning that all fetches agree with.** -/
theorem Steady.step (h : Steady site mea s) (hroot : Rooted s) (hclr : Clear site s e)
    (hs : step site s e = some s') : ∃ mea', Steady site mea' s' := by
  cases e with
  | insert grant secr =>
    obtain ⟨hcond, hs'⟩ := Option.ite_none_left_eq_some.mp hs
    cases hs'
    rw [not_or, not_or] at hcond
    obtain ⟨hfr, -, hver⟩ := hcond
    refine h.of_insert hroot (Option.not_isSome_iff_eq_none.mp hfr) ?_ ?_ ?_ ?_ _
    · rfl
    · rfl
    · intro id' hne
      cases secr with
      | none => exact .rfl
      | some secr => exact undisturbed_setSecret hne s.db 1 secr
    · intro version hv
      cases secr with
      | none => exact absurd ⟨by simp [hv], .inr rfl⟩ hver
      | some secr =>
        obtain rfl : version = 1 := by
          by_contra hne
          exact hver ⟨by simp [hv], .inl (by simp [hv, hne])⟩
        exact isSome_find_setSecret_self secr
  | edit id desired validFrom validUntil options =>
    cases hs
    exact ⟨mea, h.of_settings id (f := fun grant =>
      { grant with desired, validFrom, validUntil, options }) (fun _ => ⟨rfl, rfl, rfl⟩) rfl rfl
      fun _ _ => rfl⟩
  | setGrantLabel id label now =>
    obtain ⟨grant, -, rfl⟩ := Option.map_eq_some_iff.mp hs
    exact ⟨mea, h.of_settings id (f := ({ · with label := label }))
      (fun _ => ⟨rfl, rfl, rfl⟩) rfl rfl fun _ _ => rfl⟩
  | escrowManagerCredential id plaintext =>
    obtain ⟨hcond, hs'⟩ := Option.ite_none_left_eq_some.mp hs
    cases hs'
    rw [not_or] at hcond
    refine ⟨mea, h.of_kept (fun grant hg => ⟨grant, hg, rfl, rfl, rfl, ?_⟩) fun _ _ => rfl⟩
    intro version hver
    have hfnd := h.stored grant hg version hver
    by_cases hid : grant.id = id
    · rw [hid] at hfnd ⊢
      exact undisturbed_setSecret_of_fresh (Option.not_isSome_iff_eq_none.mp hcond.2)
        (by simp) version hfnd
    · exact undisturbed_setSecret hid s.db 1 _ version hfnd
  | activate id =>
    obtain ⟨db, hdb, rfl⟩ := Option.map_eq_some_iff.mp hs
    obtain ⟨secr, hsec, rfl⟩ := Option.map_eq_some_iff.mp hdb
    have hsto : find (s.db.setSecret id 1 { secr with state := .active }).secrets (id, 1)
        = some { secr with state := .active } := find_put_self ..
    by_cases hnew : ∃ grant ∈ s.db.grants, grant.id = id ∧ grant.version = none
    · obtain ⟨grant, hg, rfl, hn⟩ := hnew
      exact h.of_version hroot (hroot.grant_eq hg) rfl (.inl (by rw [hn]; rfl))
        (fun id' hne => undisturbed_setSecret hne s.db 1 _) (Option.isSome_of_eq_some hsto) rfl
    · -- The version was active and named.
      refine ⟨mea, h.of_kept (fun grant' hg' => ?_) fun _ _ => rfl⟩
      obtain ⟨old, hold, rfl⟩ := mem_map.mp hg'
      split
      next hid =>
        obtain ⟨hone, hact⟩ := (hclr old hold hid).resolve_left fun hn => hnew ⟨old, hold, hid, hn⟩
        refine ⟨old, hold, rfl, rfl, hone.symm, fun version hver => ?_⟩
        obtain rfl := Option.some.inj (hone.symm.trans hver)
        obtain ⟨state, plaintext⟩ := secr
        rw [hsec] at hact
        obtain rfl : state = .active := of_decide_eq_true hact
        subst hid
        refine ⟨Option.isSome_of_eq_some hsto, ?_⟩
        exact (credential_of_active hsto).trans (credential_of_active hsec).symm
      next hne =>
        refine ⟨old, hold, rfl, rfl, rfl, fun version hver => ?_⟩
        exact undisturbed_setSecret hne s.db 1 _ version (h.stored old hold version hver)
  | escrow id plaintext =>
    obtain ⟨hcond, hs'⟩ := Option.ite_none_left_eq_some.mp hs
    cases hs'
    rw [not_or] at hcond
    cases hg : s.db.grant id with
    | none =>
      rw [hg] at hcond
      exact absurd rfl hcond.1
    | some grant =>
      have hn : grant.version = none := by
        rw [hg] at hcond
        simpa using hcond.1
      exact h.of_version hroot hg rfl (.inl (by rw [hn]; rfl))
        (fun id' hne => undisturbed_setSecret hne s.db 1 _) (isSome_find_setSecret_self _) rfl
  | storeCredential id plaintext =>
    obtain ⟨grant, hg, hs'⟩ := Option.bind_eq_some_iff.mp hs
    exact h.of_successor hroot hg (Nat.lt_succ_self _) rfl hs'
  | rotate id plaintext =>
    obtain ⟨grant, hg, hs'⟩ := Option.bind_eq_some_iff.mp hs
    exact h.of_successor hroot hg (Nat.lt_succ_of_le (le_max_left _ _)) rfl hs'
  | confirmCredential id =>
    obtain ⟨grant, hg, rfl⟩ := Option.map_eq_some_iff.mp hs
    obtain ⟨hmem, rfl⟩ := mem_of_grant hg
    obtain ⟨hgrs, -, hhs⟩ := confirmCredential_plain s.db grant
    refine ⟨mea, h.of_kept (fun old hold => ?_) fun _ _ => by rw [hhs]⟩
    rw [hgrs] at hold
    refine ⟨old, hold, rfl, rfl, rfl, fun version hver => ?_⟩
    have hfnd := h.stored old hold version hver
    by_cases hid : old.id = grant.id
    · obtain rfl := hroot.eq_of_grant hg hold hid
      have hsta := hclr old hold rfl
      rw [hver] at hsta
      exact confirmCredential_undisturbed hver hfnd hsta
    · exact undisturbed_confirmCredential hid s.db version hfnd
  | escrowReturnedCredential id version plaintext =>
    obtain ⟨grant, hg, hs'⟩ := Option.bind_eq_some_iff.mp hs
    obtain ⟨hall, hs'⟩ := Option.ite_none_right_eq_some.mp hs'
    cases hs'
    obtain ⟨hmem, rfl⟩ := mem_of_grant hg
    unfold Database.escrowReturnedCredential
    dsimp only
    split
    · -- Nothing is named: a grant that names a version has this credential already.
      refine ⟨mea, h.of_kept (fun old hold => ⟨old, hold, rfl, rfl, rfl, ?_⟩) fun _ _ => rfl⟩
      intro version' hver'
      by_cases hid : old.id = grant.id
      · obtain rfl := hroot.eq_of_grant hg hold hid
        obtain rfl : version' = version := by
          rw [hver'] at hall
          simpa using hall
        have hact := (hclr old hold rfl).resolve_left (by simp [hver'])
        have haft : find (s.db.setSecret old.id version' ⟨.active, plaintext⟩).secrets
            (old.id, version') = some ⟨.active, plaintext⟩ := find_put_self ..
        rw [credential_of_active hact, credential_of_active haft, haft]
        exact ⟨rfl, rfl⟩
      · exact undisturbed_setSecret hid s.db version _ version' (h.stored old hold version' hver')
    next hnam =>
      have hn : grant.version = none := by simpa using (not_or.mp hnam).2
      exact h.of_version hroot hg rfl (.inl (by rw [hn]; rfl))
        (fun id' hne => undisturbed_setSecret hne s.db version _) (isSome_find_setSecret_self _) rfl
  | purgeGrant id =>
    cases hs
    refine ⟨mea, h.of_kept (fun grant hg => ?_) fun _ _ => rfl⟩
    obtain ⟨hmem, hne⟩ := mem_filter.mp hg
    refine ⟨grant, hmem, rfl, rfl, rfl, fun version hver => ?_⟩
    exact undisturbed_moveAll (of_decide_eq_true hne) s.db (· ≠ .revoked) .revoked version
      (h.stored grant hmem version hver)
  | putHosts node hosts =>
    cases hs
    refine ⟨mea, h.of_same rfl rfl fun grant hg => ?_⟩
    show (if grant.identity.node = node then hosts else s.db.hosts grant.identity.node) _ = _
    split
    next hnode => rw [hclr grant hg hnode, hnode]
    · rfl
  | putClient | putNodeName | revoke | bump =>
    cases hs
    exact ⟨mea, h.of_same rfl rfl fun _ _ => rfl⟩
  | subscribe id c now =>
    obtain ⟨-, hs'⟩ := Option.ite_none_left_eq_some.mp hs
    cases hs'
    exact ⟨mea, h.of_same rfl rfl fun _ _ => rfl⟩
  | fetch id format c english now =>
    obtain ⟨sub, -, hr⟩ := Option.bind_eq_some_iff.mp hs
    obtain ⟨-, hr⟩ := Option.ite_none_left_eq_some.mp hr
    obtain ⟨manifest, hman, rfl⟩ := Option.map_eq_some_iff.mp hr
    refine ⟨mea, h.stored, h.secret, h.host, forall_mem_cons.mpr ⟨h.artifacts hroot hman, h.links⟩,
      forall_mem_cons.mpr ⟨fun a ha grant hg hid => ?_, h.versions⟩⟩
    obtain ⟨grant', hg', hid', -, -, -, -, hver, -⟩ :=
      (hroot.fetched hman).2.2 a ha
    obtain rfl : grant = grant' :=
      inj_on_of_nodup_map hroot.nodup hg hg' (hid.trans hid')
    exact hver.le

end Steady

/-! ## Bodies -/

/-- A database with nothing fetched from it yet: every grant under its own id, every
version that is named stored. -/
structure Start (s : State Opts) : Prop where
  identity : ∀ grant ∈ s.db.grants, find s.born grant.id = some grant.identity
  nodup : (s.db.grants.map (·.id)).Nodup
  stored : ∀ grant ∈ s.db.grants, ∀ version ∈ grant.version,
    (find s.db.secrets (grant.id, version)).isSome = true
  served : s.served = []

/-- What holds in every state of a run of clear steps. -/
def Sound (site : Site Opts) (s : State Opts) : Prop :=
  Rooted s ∧ Dated site s ∧ ∃ meaning, Steady site meaning s

theorem Start.sound (h : Start s) (site : Site Opts) : Sound site s := by
  have hserv {p : Served Opts → Prop} : ∀ e ∈ s.served, p e := by
    rw [h.served]
    exact nofun
  have hroot : Rooted s := { h with fits := hserv }
  refine ⟨hroot, ⟨hserv, hserv, hserv, hserv, hserv⟩,
    ⟨fun id version => s.db.credential id version, fun id =>
      ((s.db.grant id).map fun grant =>
        s.db.hosts grant.identity.node grant.identity.protocol).getD ""⟩,
    h.stored, fun _ _ _ _ => rfl, fun grant hg => ?_, hserv, hserv⟩
  simp only [hroot.grant_eq hg, Option.map_some, Option.getD_some]

theorem Sound.step (h : Sound site s) (hclr : Clear site s e) (hs : step site s e = some s') :
    Sound site s' := by
  obtain ⟨hroot, hdated, mea, hstd⟩ := h
  exact ⟨hroot.step hs, hdated.step hroot hclr hs, hstd.step hroot hclr hs⟩

/-- **Two fetches with one ETag have one body.** -/
theorem Sound.body_eq (h : Sound site s) {e e' : Served Opts} (he : e ∈ s.served)
    (he' : e' ∈ s.served) (hsub : e.subscription = e'.subscription)
    (hfmt : e.format = e'.format) (hvar : e.variant = e'.variant)
    (htag : e.etag site = some tag) (htag' : e'.etag site = some tag) (generation : Nat) :
    e.body site generation = e'.body site generation := by
  obtain ⟨hroot, hdated, mea, hstd⟩ := h
  unfold Served.etag at htag htag'
  rw [← hfmt, ← hvar] at htag'
  obtain ⟨hnm, hns, halike⟩ :=
    alike_of_etag (hroot.fits e he) (hroot.fits e' he') htag htag'
  have hcl : e.manifest.clientId = e'.manifest.clientId := by
    obtain ⟨row, hrow, hid⟩ := hdated.rows e he
    obtain ⟨row', hrow', hid'⟩ := hdated.rows e' he'
    rw [← hsub, hrow] at hrow'
    rw [← hid, ← hid', Option.some.inj hrow']
  have hart : e.artifacts = e'.artifacts := by
    rw [hstd.links e he, hstd.links e' he']
    exact resolveArtifacts_congr (halike.imp fun a b hab => ⟨hab.links site mea, hab.grantId⟩)
  unfold Served.body
  rw [hart, ← hsub, ← hfmt, ← hvar]
  cases e'.artifacts with
  | error error => rfl
  | ok artifacts =>
    exact render_eq halike hcl hnm hns (hdated.whole e he)
      (fun hhtml => hdated.pages e he e' he' hsub hvar hhtml (hfmt ▸ hhtml)) _ _
      artifacts _

/-- **An ETag stands for its body, in every run of clear steps**: any two fetches of one
subscription, in one format and variant, with the same ETag have the same body but for
the generation number. -/
theorem body_of_etag {site : Site Opts} {s t : State Opts} (hs : Start s)
    {events : List (Event Opts)} (hrun : Run.exec (step site) s events = some t)
    (hclear : Run.Meets (step site) (Clear site) s events) :
    ∀ e ∈ t.served, ∀ e' ∈ t.served, e.subscription = e'.subscription → e.format = e'.format →
      e.variant = e'.variant → ∀ tag, e.etag site = some tag → e'.etag site = some tag →
      ∀ generation, e.body site generation = e'.body site generation := by
  intro e he e' he' hsubscription hformat hvariant tag htag htag' generation
  have hsound : Sound site t :=
    Run.invariant_of_meets (fun s e s' h hok hstep => h.step hok hstep) hrun hclear (hs.sound site)
  exact hsound.body_eq he he' hsubscription hformat hvariant htag htag' generation

/-- Wherever a grant is served, it is to one client, with one protocol, node, endpoint and user. -/
def OneClient (s : State Opts) : Prop :=
  ∀ e ∈ s.served, ∀ f ∈ s.served, ∀ a ∈ e.manifest.grants, ∀ b ∈ f.manifest.grants,
    a.grantId = b.grantId → e.manifest.clientId = f.manifest.clientId ∧ a.protocol = b.protocol
      ∧ a.nodeId = b.nodeId ∧ a.endpointId = b.endpointId ∧ a.runtimeUsername = b.runtimeUsername

/-- **A grant is one client's**, in every run. -/
theorem served_to_one_client {events : List (Event Opts)} (hs : Start s)
    (hrun : Run.exec (step site) s events = some s') : OneClient s' := by
  intro e he f hf a ha b hb hid
  have hroot : Rooted s' := Run.invariant (fun _ _ _ h hstep => h.step hstep) hrun (hs.sound site).1
  obtain ⟨i, hborn, ha⟩ := (hroot.fits e he).identity a ha
  obtain ⟨j, hborn', hb⟩ := (hroot.fits f hf).identity b hb
  obtain rfl : i = j := Option.some.inj (hborn.symm.trans (hid ▸ hborn'))
  grind

end Tags

namespace Sample

/-! A client with one grant for MTProxy on a linked node, its links under a hash that
writes the payload out. -/

def grantParts (grant : PayloadGrant Unit) :=
  (grant.grantId, grant.protocol.asStr, grant.nodeId, grant.nodeName, grant.displayName,
    grant.endpointId, grant.runtimeUsername, grant.secretVersion, grant.validFrom, grant.validUntil)

theorem grantParts_injective : Function.Injective grantParts := by
  intro a b h
  simp only [grantParts, Prod.mk.injEq] at h
  have hprot : ∀ p q : Protocol, p.asStr = q.asStr → p = q := by
    intro p q hpq
    cases p <;> cases q <;> first | rfl | exact absurd hpq (by decide)
  have hp := hprot _ _ h.2.1
  cases a
  cases b
  obtain ⟨rfl, -, rfl, rfl, rfl, rfl, rfl, rfl, rfl, rfl⟩ := h
  subst hp
  rfl

def variantParts : Variant → Bool × String × Bool × Int
  | .feed client => (false, client, false, 0)
  | .page english updatedAt => (true, "", english, updatedAt)

theorem variantParts_injective : Function.Injective variantParts := by
  intro a b h
  cases a <;> cases b <;> simp_all [variantParts]

def digest (payload : Payload Unit) : String :=
  String.ofList (Codes.pair Codes.string (Codes.pair (Codes.list (Codes.pair Codes.nat Codes.string))
    (Codes.pair (Codes.list fun grant => Codes.pair Codes.nat (Codes.pair Codes.string
      (Codes.pair Codes.string (Codes.pair Codes.string (Codes.pair Codes.string
        (Codes.pair Codes.string (Codes.pair Codes.string (Codes.pair Codes.nat
          (Codes.pair (Codes.option Codes.int) (Codes.option Codes.int)))))))))
        (grantParts grant))
      (Codes.pair Codes.nat fun variant => Codes.pair Codes.bool
        (Codes.pair Codes.string (Codes.pair Codes.bool Codes.int)) (variantParts variant))))
    (payload.clientName, payload.displayNames, payload.grants, payload.renderer, payload.variant))

theorem digest_injective : Function.Injective digest := by
  intro a b h
  have hg := (Codes.delimited_nat.pair (Codes.delimited_string.pair
    (Codes.delimited_string.pair (Codes.delimited_string.pair (Codes.delimited_string.pair
      (Codes.delimited_string.pair (Codes.delimited_string.pair (Codes.delimited_nat.pair
        (Codes.delimited_int.option.pair Codes.delimited_int.option))))))))).comp
    grantParts_injective
  have hvar := (Codes.delimited_bool.pair (Codes.delimited_string.pair
    (Codes.delimited_bool.pair Codes.delimited_int))).comp variantParts_injective
  have hparts := (Codes.delimited_string.pair
    ((Codes.delimited_nat.pair Codes.delimited_string).list.pair
      (hg.list.pair (Codes.delimited_nat.pair hvar)))).injective
    (String.ofList_injective h)
  cases a
  cases b
  simp_all

/-- A link is the host and the credential. -/
def site : Site Unit where
  adapters _ := some fun _ _ plaintext host =>
    .ok [⟨"link", "Link", "text/uri-list", "tg://" ++ host ++ "/" ++ plaintext⟩]
  displayText text := text
  idDigest _ := ""
  namedShareUrl _ _ link name := .ok (link ++ "#" ++ name)
  endpointDomain _ _ := ""
  digest := digest
  digest_injective := digest_injective
  publicUrl _ := ""
  manifestText _ _ _ _ := .ok ""
  singboxText _ _ _ := .ok ""
  clashText _ _ := .ok ""
  htmlText _ _ _ _ := .ok ""

def grant : Grant Unit where
  id := 1
  identity := ⟨1, .mtproxy, "amsterdam", "main", "alice", 0⟩
  version := some 1
  desired := .enabled
  validFrom := none
  validUntil := none
  options := ()
  label := none

def start : State Unit where
  db :=
    { clients := [(1, ⟨"Alice", .active⟩)]
      grants := [grant]
      secrets := [((1, 1), ⟨.active, "old"⟩)]
      nodeNames := [("amsterdam", "Amsterdam")]
      hosts := fun _ _ => "amsterdam.example"
      subscriptions := [(7, ⟨1, 1, 0, true⟩)] }
  born := [(1, grant.identity)]
  served := []

theorem start_start : Start start where
  identity := by decide
  nodup := by decide
  stored := by decide
  served := rfl

/-- The link is fetched, the credential is rotated here, and the link is fetched twice. -/
def fetched : List (Event Unit) :=
  [.fetch 7 .raw "" false 10, .storeCredential 1 "new", .bump 1 11, .fetch 7 .raw "" false 20,
    .fetch 7 .raw "" false 30]

/-- Two of the three fetches have one ETag, and a body with the new credential. -/
theorem fetched_again : ∃ t, Run.exec (step site) start fetched = some t
    ∧ Run.Meets (step site) (Clear site) start fetched
    ∧ t.served.map (·.body site 1) = [.ok "tg://amsterdam.example/new#Amsterdam · MTProxy\n",
      .ok "tg://amsterdam.example/new#Amsterdam · MTProxy\n",
      .ok "tg://amsterdam.example/old#Amsterdam · MTProxy\n"]
    ∧ ∀ e ∈ t.served, ∀ e' ∈ t.served, e.subscription = e'.subscription → e.format = e'.format →
      e.variant = e'.variant → ∀ tag, e.etag site = some tag → e'.etag site = some tag →
      ∀ generation, e.body site generation = e'.body site generation := by
  have hclear : Run.Meets (step site) (Clear site) start fetched := by decide +kernel
  have hend : ∃ t, Run.exec (step site) start fetched = some t ∧ t.served.map (·.body site 1)
      = ["new", "new", "old"].map fun key =>
        .ok ("tg://amsterdam.example/" ++ key ++ "#Amsterdam · MTProxy\n") := by
    decide +kernel
  obtain ⟨t, hrun, hbodies⟩ := hend
  exact ⟨t, hrun, hclear, hbodies, body_of_etag start_start hrun hclear⟩

theorem fetched_by_one_client : ∃ t, Run.exec (step site) start fetched = some t
    ∧ t.served.length = 3 ∧ OneClient t :=
  Run.end_and (by decide +kernel) fun _ hrun _ => served_to_one_client start_start hrun

/-- A rotation on the node: the link is fetched before the node confirms it, and after. -/
def confirmed : List (Event Unit) :=
  [.rotate 1 "new", .bump 1 5, .fetch 7 .raw "" false 10, .confirmCredential 1,
    .fetch 7 .raw "" false 20]

/-- **The node confirms a rotation, and the ETag does not change.** -/
theorem stale_after_confirmation : Start start
    ∧ ∃ t, Run.exec (step site) start confirmed = some t ∧ ∃ e ∈ t.served, ∃ e' ∈ t.served,
      e.subscription = e'.subscription ∧ e.format = e'.format ∧ e.variant = e'.variant
      ∧ (e.etag site).isSome = true ∧ e.etag site = e'.etag site
      ∧ e.body site 2 ≠ e'.body site 2 :=
  ⟨start_start, by decide +kernel⟩

end Sample

end Feed
