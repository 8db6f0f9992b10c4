import ProxyControl.Checks
import ProxyControl.Saga

/-!
# Unlinking a node

When a node is unlinked, the central first reads the link and its API key, then
tells the node, and then removes everything it keeps of the node in one
transaction: the grants with the secrets stored for them, the key, and, where
the operator forces it, the steps of provisioning operations that wait for the
node. Between the two anything may be committed – a new key for the link, an
import, a change of a grant – so the tables of the second part are any tables
here.

What is revoked and what is removed are chosen by different conditions. Without
force the secrets of the imported grants are revoked, but not of those that wait
for the node to confirm their deletion, whose rows are removed all the same; and
the key that is deleted is the one the link named when it was read. `Clear` says
that neither makes a difference: nothing is left if and only if it holds
(`unlinking_leaves_no_secret`). `Sample.secrets_left` has a run for each.
-/

namespace Unlinking

open Keyrings (SecretState)
open Importer (GrantDesiredState NodeError)
open Saga (Operation OperationStatus Step)

/-! ## The tables -/

inductive Origin
  | imported | provisioned
deriving DecidableEq, Repr

structure Grant where
  id : Nat
  node : String
  origin : Origin
  desired : GrantDesiredState
deriving DecidableEq, Repr

/-- `grant:<id>` or `node-key:<node>:<token>`; a token is drawn for every key. -/
inductive SecretId
  | grant (id : Nat)
  | nodeKey (node token : String)
deriving DecidableEq, Repr

/-- A row of `secret_versions`. -/
structure Secret where
  id : SecretId
  version : Nat
  state : SecretState
deriving DecidableEq, Repr

/-- An API key of a node. -/
def Secret.isKeyOf (node : String) (secret : Secret) : Bool :=
  match secret.id with
  | .nodeKey owner _ => owner = node
  | .grant _ => false

/-- A row of `node_links`, with the token of its key. -/
structure Link where
  node : String
  token : String
deriving DecidableEq, Repr

def Link.apiKeySecretId (link : Link) : SecretId := .nodeKey link.node link.token

structure Tables where
  grants : List Grant
  secrets : List Secret
  links : List Link
  operations : List Operation
deriving DecidableEq, Repr

inductive Failure
  | notFound (node : String)
  | linkConflict (message : String)
  | secretUnavailable
  | node (error : NodeError)
deriving DecidableEq, Repr

/-! ## Operations that wait for a node -/

def Operation.waits (operation : Operation) (grant : Nat) : Bool :=
  (operation.status = .pendingRemote || operation.status = .applying)
    && operation.steps.any fun step => step.grant = grant && step.status = .remote

def settled (status : OperationStatus) (steps : List Step) : OperationStatus :=
  if status ≠ .pendingRemote ∨ steps.any (fun step => step.status = .remote) then status
  else if steps.any fun step => step.status = .active then .succeeded
  else .compensated

/-- `withdraw_remote`, for one operation. -/
def Operation.withdraw (grant : Nat) (reason : String) (operation : Operation) : Operation :=
  if Operation.waits operation grant then
    let steps := operation.steps.map fun step =>
      if step.grant = grant ∧ step.status = .remote then
        { step with status := .compensated, error := some reason }
      else step
    ⟨settled operation.status steps, steps⟩
  else operation

/-! ## The link -/

namespace Tables

variable (db : Tables)

def rawLink (node : String) : Except Failure Link :=
  match db.links.find? fun link => link.node = node with
  | none => throw (.notFound node)
  | some link => pure link

/-- `update` with a new API key: it gets a row of its own, and the old one is
revoked. -/
def updateKey (node token : String) : Except Failure Tables := do
  let link ← db.rawLink node
  let key := SecretId.nodeKey node token
  if db.secrets.any fun secret => secret.id = key then throw .secretUnavailable
  if db.secrets.countP (fun secret => secret.id = link.apiKeySecretId ∧ secret.version = 1) ≠ 1 then
    throw .secretUnavailable
  return { db with
    secrets := (db.secrets.map fun secret =>
      if secret.id = link.apiKeySecretId ∧ secret.version = 1 then
        { secret with state := .revoked }
      else secret) ++ [⟨key, 1, .active⟩]
    links := db.links.map fun other =>
      if other.node = node then { other with token := token } else other }

def refuseProvisioned (node : String) : Except Failure Unit := do
  let remaining := db.grants.filter fun grant => grant.node = node && grant.origin ≠ .imported
  let pending := remaining.filter fun grant => grant.desired = .deleted
  if remaining.length ≠ 0 then
    if pending.length = remaining.length then
      throw (.linkConflict ("wait until the node confirms the deletion of "
        ++ toString pending.length ++ " grant(s)"))
    else
      throw (.linkConflict (toString remaining.length ++ " provisioned grant(s) still exist on the "
        ++ "node: delete the clients' accesses first and wait until the node confirms"))

def refuseUnforced (force : Bool) (node : String) : Except Failure Unit :=
  if force then pure () else db.refuseProvisioned node

/-- **The first part of `delete`**: the link, whose key can be revealed. -/
def readLink (node : String) (force : Bool) : Except Failure Link := do
  let link ← db.rawLink node
  db.refuseUnforced force node
  if db.secrets.any fun secret =>
      secret.id = link.apiKeySecretId && secret.version = 1 && secret.state ≠ .revoked then
    return link
  else throw .secretUnavailable

/-- A grant is let go: its secrets are revoked, and where the deletion is forced
its steps are withdrawn. -/
def letGo (force : Bool) (db : Tables) (grant : Grant) : Tables :=
  { db with
    secrets := db.secrets.map fun secret =>
      if secret.id = .grant grant.id then { secret with state := .revoked } else secret
    operations :=
      if force then
        db.operations.map (Operation.withdraw grant.id "node unlinked (forced)")
      else db.operations }

/-- The grants that are let go. -/
def gone (link : Link) (force : Bool) : List Grant :=
  db.grants.filter fun grant => grant.node = link.node
    ∧ (force ∨ grant.origin = .imported ∧ grant.desired ≠ .deleted)

/-- **The second part of `delete`**, with the node's answer and the link as it
was read. -/
def unlink (link : Link) (force : Bool) (answer : Except NodeError Unit) :
    Except Failure Tables :=
  match answer with
  | .error .invalidAnswer => throw (.node .invalidAnswer)
  | _ => do
    db.refuseUnforced force link.node
    let released := (db.gone link force).foldl (letGo force) db
    return { released with
      grants := released.grants.filter fun grant => grant.node ≠ link.node
      secrets := released.secrets.filter fun secret => secret.id ≠ link.apiKeySecretId
      links := released.links.filter fun other => other.node ≠ link.node }

end Tables

/-! ## What is left -/

variable {db : Tables} {node : String} {force : Bool} {link : Link} {secret : Secret}
  {gone : List Grant}

theorem waits_of_withdraw {operation : Operation} {grant other : Nat} {reason : String}
    (h : Operation.waits (Operation.withdraw grant reason operation) other = true) :
    other ≠ grant ∧ Operation.waits operation other = true := by
  unfold Operation.withdraw at h
  split at h
  next hwaits =>
    simp only [Operation.waits, Bool.and_eq_true, List.any_eq_true] at h hwaits ⊢
    obtain ⟨-, step', hmem, hstep'⟩ := h
    obtain ⟨step, hstep, rfl⟩ := List.mem_map.mp hmem
    grind
  next hwaits => exact ⟨fun heq => hwaits (heq ▸ h), h⟩

/-- A secret once the grants are let go. -/
def revoked (gone : List Grant) (secret : Secret) : Secret :=
  if gone.any fun grant => secret.id = .grant grant.id then { secret with state := .revoked }
  else secret

theorem id_revoked (gone : List Grant) (secret : Secret) :
    (revoked gone secret).id = secret.id := by
  unfold revoked
  split <;> rfl

theorem revoked_eq_self (h : ∀ grant ∈ gone, secret.id ≠ .grant grant.id) : revoked gone secret = secret :=
  if_neg (by simpa using h)

theorem exists_token (h : secret.isKeyOf node = true) :
    ∃ token, secret.id = .nodeKey node token := by
  unfold Secret.isKeyOf at h
  split at h
  next token hid => exact ⟨token, of_decide_eq_true h ▸ hid⟩
  · cases h

theorem revoked_cons (grant : Grant) (gone : List Grant) (secret : Secret) :
    revoked gone (if secret.id = .grant grant.id then { secret with state := .revoked } else secret)
      = revoked (grant :: gone) secret := by
  unfold revoked
  grind

theorem foldl_letGo (force : Bool) (gone : List Grant) (db : Tables) :
    (gone.foldl (Tables.letGo force) db).grants = db.grants
      ∧ (gone.foldl (Tables.letGo force) db).secrets = db.secrets.map (revoked gone)
      ∧ (force = false → (gone.foldl (Tables.letGo force) db).operations = db.operations) := by
  induction gone generalizing db with
  | nil => exact ⟨rfl, (List.map_id _).symm, fun _ => rfl⟩
  | cons grant gone ih =>
    obtain ⟨hgrants, hsecrets, hsame⟩ := ih (db.letGo force grant)
    refine ⟨hgrants, hsecrets.trans ?_, fun hforce => ?_⟩
    · exact List.map_map.trans (List.map_congr_left fun s _ => revoked_cons grant gone s)
    · simpa [Tables.letGo, hforce] using hsame hforce

/-- An operation that still waits does so for none of the grants, and did before. -/
theorem waits_foldl {operation : Operation} {id : Nat}
    (hop : operation ∈ (gone.foldl (Tables.letGo true) db).operations)
    (hwaits : Operation.waits operation id = true) :
    (∀ grant ∈ gone, id ≠ grant.id) ∧ ∃ old ∈ db.operations, Operation.waits old id = true := by
  induction gone generalizing db with
  | nil => exact ⟨by simp, operation, hop, hwaits⟩
  | cons grant gone ih =>
    obtain ⟨hgone, mid, hmid, hmwaits⟩ := ih hop
    obtain ⟨old, hold, rfl⟩ := List.mem_map.mp hmid
    obtain ⟨hne, hwold⟩ := waits_of_withdraw hmwaits
    exact ⟨List.forall_mem_cons.mpr ⟨hne, hgone⟩, old, hold, hwold⟩

theorem node_of_readLink (h : db.readLink node force = .ok link) : link.node = node := by
  obtain ⟨found, hraw, h⟩ := Checks.bind_eq_ok.mp h
  obtain ⟨-, -, h⟩ := Checks.bind_eq_ok.mp h
  have heq : found = link := by
    split at h
    · exact Except.ok.inj h
    · cases h
  unfold Tables.rawLink at hraw
  split at hraw
  · cases hraw
  next hfind =>
    cases hraw
    simpa [heq] using List.find?_some hfind

theorem imported_of_refuse (h : db.refuseUnforced false node = .ok ()) :
    ∀ grant ∈ db.grants, grant.node = node → grant.origin = .imported := by
  intro grant hg hnode
  rw [Tables.refuseUnforced, if_neg Bool.false_ne_true] at h
  by_contra horigin
  have hmem : grant ∈ db.grants.filter fun g => g.node = node && g.origin ≠ .imported := by
    simp [hg, hnode, horigin]
  have hpos := List.length_pos_of_mem hmem
  unfold Tables.refuseProvisioned at h
  dsimp only at h
  rw [if_pos (by omega)] at h
  split at h <;> cases h

theorem mem_gone {grant : Grant} : grant ∈ db.gone link force ↔ grant ∈ db.grants
    ∧ grant.node = link.node ∧ (force = true ∨ grant.origin = .imported ∧ grant.desired ≠ .deleted) := by
  simp [Tables.gone]

/-- What a removal that was done leaves of the tables. -/
theorem unlink_spec {after : Tables} {answer : Except NodeError Unit}
    (hdone : db.unlink link force answer = .ok after) :
    db.refuseUnforced force link.node = .ok ()
      ∧ (∀ grant, grant ∈ after.grants ↔ grant ∈ db.grants ∧ grant.node ≠ link.node)
      ∧ (∀ secret, secret ∈ after.secrets ↔ ∃ old ∈ db.secrets, old.id ≠ link.apiKeySecretId
          ∧ revoked (db.gone link force) old = secret)
      ∧ (force = false → after.operations = db.operations)
      ∧ (force = true → ∀ operation ∈ after.operations, ∀ grant ∈ db.gone link force,
          Operation.waits operation grant.id = false) := by
  unfold Tables.unlink at hdone
  split at hdone
  · cases hdone
  obtain ⟨⟨⟩, hrefuse, h⟩ := Checks.bind_eq_ok.mp hdone
  obtain rfl := Checks.pure_eq_ok.mp h
  obtain ⟨hgrants, hsecrets, hsame⟩ := foldl_letGo force (db.gone link force) db
  refine ⟨hrefuse, fun grant => by simp [hgrants], fun secret => ?_, hsame, ?_⟩
  · simp only [hsecrets, List.mem_filter, List.mem_map, decide_eq_true_eq]
    constructor
    · rintro ⟨⟨old, hold, rfl⟩, hne⟩
      exact ⟨old, hold, by rwa [id_revoked] at hne, rfl⟩
    · rintro ⟨old, hold, hne, rfl⟩
      exact ⟨⟨old, hold, rfl⟩, by rwa [id_revoked]⟩
  · rintro rfl op hop grant hin
    exact Bool.eq_false_iff.mpr fun hwaits => (waits_foldl hop hwaits).1 grant hin rfl

/-- A secret of no grant let go, other than the key of the link, is as it was. -/
theorem mem_secrets_iff {after : Tables} {answer : Except NodeError Unit}
    (hdone : db.unlink link force answer = .ok after)
    (hgone : ∀ grant ∈ db.gone link force, secret.id ≠ .grant grant.id)
    (hkey : secret.id ≠ link.apiKeySecretId) : secret ∈ after.secrets ↔ secret ∈ db.secrets := by
  rw [(unlink_spec hdone).2.2.1]
  constructor
  · rintro ⟨old, hold, -, rfl⟩
    rw [id_revoked] at hgone
    rwa [revoked_eq_self hgone]
  · exact fun h => ⟨secret, h, hkey, revoked_eq_self hgone⟩

/-- **Nothing slips through**: the one key of the node that is not revoked is the
one that was read; and without force, the secrets of an imported grant that
waits for its deletion are revoked already, and no operation waits for an
imported grant. -/
structure Clear (db : Tables) (link : Link) (force : Bool) : Prop where
  key : ∀ secret ∈ db.secrets, secret.isKeyOf link.node = true → secret.state ≠ .revoked →
    secret.id = link.apiKeySecretId
  deleted : force = false → ∀ grant ∈ db.grants, grant.node = link.node →
    grant.origin = .imported → grant.desired = .deleted →
    ∀ secret ∈ db.secrets, secret.id = .grant grant.id → secret.state = .revoked
  waiting : force = false → ∀ grant ∈ db.grants, grant.node = link.node →
    grant.origin = .imported → ∀ operation ∈ db.operations,
    Operation.waits operation grant.id = false

/-- **Nothing of a node is left**: the secrets of the grants it had are revoked,
no operation waits for one of these, and every key of it is revoked. -/
structure Cleared (db after : Tables) (node : String) : Prop where
  secrets : ∀ grant ∈ db.grants, grant.node = node → ∀ secret ∈ after.secrets,
    secret.id = .grant grant.id → secret.state = .revoked
  operations : ∀ grant ∈ db.grants, grant.node = node → ∀ operation ∈ after.operations,
    Operation.waits operation grant.id = false
  keys : ∀ secret ∈ after.secrets, secret.isKeyOf node = true → secret.state = .revoked

/-- A secret of another node: of one of its grants, or a key. -/
def Elsewhere (db : Tables) (node : String) (secret : Secret) : Prop :=
  (∃ grant ∈ db.grants, grant.node ≠ node ∧ secret.id = .grant grant.id)
    ∨ ∃ other, other ≠ node ∧ secret.isKeyOf other = true

section Unlinked

variable {after : Tables} {answer : Except NodeError Unit}

theorem cleared_of_clear (hclear : Clear db link force)
    (hdone : db.unlink link force answer = .ok after) : Cleared db after link.node := by
  obtain ⟨hrefuse, -, hsecrets, hsame, hwithdrawn⟩ := unlink_spec hdone
  refine ⟨fun grant hg hnode secret hs hid => ?_, fun grant hg hnode op hop => ?_,
    fun secret hs hkey => ?_⟩
  · obtain ⟨old, hold, -, rfl⟩ := (hsecrets secret).mp hs
    rw [id_revoked] at hid
    unfold revoked
    split
    · rfl
    next hkept =>
      -- the grant was not let go: it is an imported one that waits for its deletion
      have hout : grant ∉ db.gone link force := fun hin =>
        hkept (List.any_eq_true.mpr ⟨grant, hin, by simp [hid]⟩)
      rw [mem_gone] at hout
      have hforce : force = false := by grind
      subst hforce
      have horigin := imported_of_refuse hrefuse grant hg hnode
      exact hclear.deleted rfl grant hg hnode horigin (by grind) old hold hid
  · cases force with
    | true => exact hwithdrawn rfl op hop grant (mem_gone.mpr ⟨hg, hnode, .inl rfl⟩)
    | false =>
      have horigin := imported_of_refuse hrefuse grant hg hnode
      exact hclear.waiting rfl grant hg hnode horigin op (hsame rfl ▸ hop)
  · obtain ⟨old, hold, hother, rfl⟩ := (hsecrets secret).mp hs
    obtain ⟨token, hid⟩ := exists_token hkey
    rw [id_revoked] at hid
    rw [revoked_eq_self (by simp [hid])] at hkey ⊢
    by_contra hlive
    exact hother (hclear.key old hold hkey hlive)

theorem clear_of_cleared (hids : (db.grants.map Grant.id).Nodup)
    (hdone : db.unlink link force answer = .ok after) (h : Cleared db after link.node) :
    Clear db link force := by
  refine ⟨fun secret hs hkey hlive => ?_, fun hforce grant hg hnode _ hdeleted secret hs hid => ?_,
    fun hforce grant hg hnode _ op hop => ?_⟩
  · -- another key would be where it was
    by_contra hne
    obtain ⟨token, hid⟩ := exists_token hkey
    have hstays := (mem_secrets_iff hdone (by simp [hid]) hne).mpr hs
    exact hlive (h.keys secret hstays hkey)
  · -- the grant is not let go, and no other has its id
    have hkept : ∀ other ∈ db.gone link force, secret.id ≠ .grant other.id := by
      intro other hin heq
      obtain ⟨ho, -, hwhy⟩ := mem_gone.mp hin
      have hsame := List.inj_on_of_nodup_map hids hg ho (SecretId.grant.inj (hid.symm.trans heq))
      subst hsame
      simp [hforce, hdeleted] at hwhy
    have hstays := (mem_secrets_iff hdone hkept (by simp [hid, Link.apiKeySecretId])).mpr hs
    exact h.secrets grant hg hnode secret hstays hid
  · exact h.operations grant hg hnode op ((unlink_spec hdone).2.2.2.1 hforce ▸ hop)

/-- **When unlinking a node leaves no live secret.** The link is read from any
tables, and the removal is done in any others, whatever was committed in
between. Its grants are gone and other nodes keep what they had in any case. -/
theorem unlinking_leaves_no_secret {before : Tables}
    (hread : before.readLink node force = .ok link) (hids : (db.grants.map Grant.id).Nodup)
    (hdone : db.unlink link force answer = .ok after) :
    (Cleared db after node ↔ Clear db link force)
    ∧ (∀ grant, grant ∈ after.grants ↔ grant ∈ db.grants ∧ grant.node ≠ node)
    ∧ ∀ secret, Elsewhere db node secret → (secret ∈ after.secrets ↔ secret ∈ db.secrets) := by
  obtain rfl := node_of_readLink hread
  refine ⟨⟨clear_of_cleared hids hdone, (cleared_of_clear · hdone)⟩, (unlink_spec hdone).2.1,
    fun secret helse => ?_⟩
  rcases helse with ⟨grant, hg, hne, hid⟩ | ⟨other, hne, hkey⟩
  · refine mem_secrets_iff hdone (fun g hin heq => hne ?_) (by simp [hid, Link.apiKeySecretId])
    obtain ⟨ho, hnode, -⟩ := mem_gone.mp hin
    have hsame := List.inj_on_of_nodup_map hids hg ho (SecretId.grant.inj (hid.symm.trans heq))
    rwa [hsame]
  · obtain ⟨token, hid⟩ := exists_token hkey
    exact mem_secrets_iff hdone (by simp [hid]) (by simp [hid, Link.apiKeySecretId, hne])

end Unlinked

namespace Sample

/-- A linked node with an imported grant that waits for its deletion. -/
def waiting : Tables :=
  ⟨[⟨1, "n", .imported, .deleted⟩], [⟨.nodeKey "n" "a", 1, .active⟩, ⟨.grant 1, 1, .active⟩],
    [⟨"n", "a"⟩], []⟩

theorem no_secret_left_when_forced :
    ∃ after, waiting.unlink ⟨"n", "a"⟩ true (.error .unreachable) = .ok after
      ∧ ∀ secret ∈ after.secrets, secret.isKeyOf "n" = true → secret.state = .revoked := by
  have hread : waiting.readLink "n" true = .ok ⟨"n", "a"⟩ := rfl
  have hclear : Clear waiting ⟨"n", "a"⟩ true := ⟨by decide, nofun, nofun⟩
  have hdone : waiting.unlink ⟨"n", "a"⟩ true (.error .unreachable) = .ok _ := rfl
  have hleft := unlinking_leaves_no_secret hread (by simp [waiting]) hdone
  exact ⟨_, hdone, (hleft.1.mpr hclear).keys⟩

/-- Without force the secret of that grant stays; and a key that was set after
the link was read stays, forced or not. -/
theorem secrets_left : (∃ after, waiting.readLink "n" false = .ok ⟨"n", "a"⟩
      ∧ waiting.unlink ⟨"n", "a"⟩ false (.ok ()) = .ok after
      ∧ after.grants = [] ∧ after.secrets = [⟨.grant 1, 1, .active⟩])
    ∧ ∃ db after, waiting.readLink "n" true = .ok ⟨"n", "a"⟩ ∧ waiting.updateKey "n" "b" = .ok db
      ∧ db.unlink ⟨"n", "a"⟩ true (.ok ()) = .ok after
      ∧ after.secrets = [⟨.grant 1, 1, .revoked⟩, ⟨.nodeKey "n" "b", 1, .active⟩] :=
  ⟨⟨_, rfl, rfl, rfl, rfl⟩, _, _, rfl, rfl, rfl, rfl⟩

end Sample

end Unlinking
