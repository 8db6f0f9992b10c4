import ProxyControl.Json
import ProxyControl.Reconciler

/-!
# The master keyring and the secrets under it

Secrets are stored encrypted, each row under the key it names, and the keys are in a file.
A rotation puts a new key in front of the old ones and saves the file, encrypts the rows
again in batches until none is left under another key, verifies that every row decrypts,
and narrows the file to the new key. It may stop between any two of these steps, and be
run again.

The panel runs beside it with the keyring it loaded at its start, and stores new secrets
under the active key of that. While the file holds this key nothing is lost: a row that
comes before the last batch is encrypted again, and one that comes between the last batch
and the verification stops the rotation (`LeftOver`). What the rotation does not see is a
row that comes later – between the verification and the narrowing, or at any time after it
until the panel is restarted (`Sample.secret_stranded`).

The theorem is that nothing else strands a secret (`secrets_readable`).
-/

namespace Keyrings

open List
open Reconciler (Bytes)

/-- Authenticated encryption with associated data: what was encrypted is decrypted with the
same key, nonce and data. -/
structure Cipher (Material Nonce Sealed : Type) where
  encrypt : Material → Nonce → Bytes → List Char → Sealed
  decrypt : Material → Nonce → Sealed → List Char → Option Bytes
  decrypt_encrypt : ∀ key nonce plaintext aad,
    decrypt key nonce (encrypt key nonce plaintext aad) aad = some plaintext

variable {Material Nonce Sealed : Type} {keyId : String} {plaintext : Bytes}

/-! ## Keyrings -/

inductive KeyState
  | active
  | retiring
deriving DecidableEq, Repr

structure Key (Material : Type) where
  keyId : String
  state : KeyState
  createdAt : Int
  material : Material
deriving DecidableEq

/-- The key with an id: the first. -/
def getKey (keys : List (Key Material)) (keyId : String) : Option (Key Material) :=
  keys.find? fun key => key.keyId == keyId

variable {key : Key Material}

theorem getKey_cons_self (h : key.keyId = keyId) (keys : List (Key Material)) :
    getKey (key :: keys) keyId = some key := by
  simp [getKey, h]

theorem getKey_cons_of_ne (h : key.keyId ≠ keyId) (keys : List (Key Material)) :
    getKey (key :: keys) keyId = getKey keys keyId := by
  simp [getKey, h]

/-- **The keys, and which one encrypts new rows**: it is among them. -/
structure Keyring (Material : Type) where
  keys : List (Key Material)
  activeKeyId : String
  holds : (getKey keys activeKeyId).isSome

namespace Keyring

def get (ring : Keyring Material) (keyId : String) : Option (Key Material) :=
  getKey ring.keys keyId

def active (ring : Keyring Material) : Key Material :=
  (getKey ring.keys ring.activeKeyId).get ring.holds

theorem get_active (ring : Keyring Material) : ring.get ring.activeKeyId = some ring.active :=
  (Option.some_get ring.holds).symm

theorem active_keyId (ring : Keyring Material) : ring.active.keyId = ring.activeKeyId := by
  have h := find?_some ring.get_active
  exact beq_iff_eq.mp h

def keyIds (ring : Keyring Material) : List String := ring.keys.map Key.keyId

def retiring (key : Key Material) : Key Material := { key with state := .retiring }

/-- A new active key first, every previous key kept as retiring. -/
def rotateTo (ring : Keyring Material) (key : Key Material) : Keyring Material where
  keys := key :: ring.keys.map retiring
  activeKeyId := key.keyId
  holds := by
    rw [getKey_cons_self rfl]
    rfl

/-- The active key only. -/
def retireAllButActive (ring : Keyring Material) : Keyring Material where
  keys := [ring.active]
  activeKeyId := ring.activeKeyId
  holds := by
    rw [getKey_cons_self ring.active_keyId]
    rfl

/-- What a file must be to be read: no id stands twice, and the active key is in the state
active. -/
def readable (file : Keyring Material) : Bool :=
  decide file.keyIds.Nodup && file.active.state == .active

def load (file : Keyring Material) : Option (Keyring Material) :=
  if file.readable then some file else none

end Keyring

/-! ## Secrets -/

/-- Everything that the associated data binds a ciphertext to. -/
structure Identity where
  secretId : String
  version : Int
  purpose : String
  grantId : Option String
  permittedNodeId : Option String
deriving DecidableEq

def Identity.aad (identity : Identity) : List Char :=
  Json.canonical (.obj [("secret_id", .str identity.secretId), ("version", .int identity.version),
    ("purpose", .str identity.purpose), ("grant_id", identity.grantId.elim .null .str),
    ("permitted_node_id", identity.permittedNodeId.elim .null .str)])

/-- The states of a version of a secret. -/
inductive SecretState
  | pending | active | retiring | revoked
deriving DecidableEq, Repr

structure Row (Nonce Sealed : Type) where
  identity : Identity
  keyId : String
  nonce : Nonce
  ciphertext : Sealed
  state : SecretState

/-- A row, with what was stored in it. -/
structure Stored (Nonce Sealed : Type) extends Row Nonce Sealed where
  plaintext : Bytes

/-- What a row decrypts to. -/
def opens (cipher : Cipher Material Nonce Sealed) (ring : Keyring Material)
    (row : Row Nonce Sealed) : Option Bytes :=
  (ring.get row.keyId).bind fun key =>
    cipher.decrypt key.material row.nonce row.ciphertext row.identity.aad

/-- A row under the active key. -/
def sealed (cipher : Cipher Material Nonce Sealed) (ring : Keyring Material) (nonce : Nonce)
    (plaintext : Bytes) (identity : Identity) (state : SecretState) : Row Nonce Sealed where
  identity := identity
  keyId := ring.active.keyId
  nonce := nonce
  ciphertext := cipher.encrypt ring.active.material nonce plaintext identity.aad
  state := state

/-- Whether a row is that version of that secret. -/
def Row.isVersion (row : Row Nonce Sealed) (secretId : String) (version : Int) : Bool :=
  row.identity.secretId == secretId && row.identity.version == version

/-- Add a row under the active key; `none` when the version exists. -/
def store (cipher : Cipher Material Nonce Sealed) (ring : Keyring Material) (nonce : Nonce)
    (plaintext : Bytes) (identity : Identity) (state : SecretState)
    (rows : List (Stored Nonce Sealed)) : Option (List (Stored Nonce Sealed)) :=
  if rows.any fun row => row.isVersion identity.secretId identity.version then none
  else some (rows ++ [⟨sealed cipher ring nonce plaintext identity state, plaintext⟩])

/-- Change the state of one row. -/
def transition (secretId : String) (version : Int) (state : SecretState)
    (rows : List (Stored Nonce Sealed)) : List (Stored Nonce Sealed) :=
  rows.map fun row => if row.isVersion secretId version then { row with state } else row

/-- **One batch**: encrypt again, under the active key, at most so many rows that are not
under it. Gives how many; `none` when a row does not decrypt. -/
def rewrap (cipher : Cipher Material Nonce Sealed) (ring : Keyring Material)
    (nonce : Identity → Nonce) :
    Nat → List (Stored Nonce Sealed) → Option (Nat × List (Stored Nonce Sealed))
  | 0, rows => some (0, rows)
  | _, [] => some (0, [])
  | batch + 1, row :: rows =>
    if row.keyId = ring.active.keyId then do
      let (count, rest) ← rewrap cipher ring nonce (batch + 1) rows
      return (count, row :: rest)
    else do
      let plaintext ← opens cipher ring row.toRow
      let (count, rest) ← rewrap cipher ring nonce batch rows
      let new := sealed cipher ring (nonce row.identity) plaintext row.identity row.state
      return (count + 1, { row with toRow := new } :: rest)

/-- Decrypt every row, and give the ids of the keys they are under. -/
def verifyAll (cipher : Cipher Material Nonce Sealed) (ring : Keyring Material)
    (rows : List (Stored Nonce Sealed)) : Option (List String) :=
  if rows.all fun row => (opens cipher ring row.toRow).isSome then
    some (rows.map fun row => row.keyId).dedup
  else none

/-! ## Rotations beside the panel -/

/-- A rotation, by what it does next. -/
inductive Rotation (Material : Type)
  | saving (rotated : Keyring Material) (batchSize : Nat)
  | rewrapping (rotated : Keyring Material) (batchSize : Nat)
  | verifying (rotated : Keyring Material)
  | narrowing (rotated : Keyring Material)

/-- Whether every row was verified, and the file is not narrowed yet. -/
def Rotation.isNarrowing : Rotation Material → Bool
  | .narrowing _ => true
  | _ => false

/-- The keyring file, the table, the rotation in progress, and the keyring in the memory of
the panel while it runs. -/
structure State (Material Nonce Sealed : Type) where
  file : Keyring Material
  rows : List (Stored Nonce Sealed)
  rotation : Option (Rotation Material)
  panel : Option (Keyring Material)

inductive Event (Material Nonce : Type)
  /-- A rotation is started: it loads the file and makes a new key. -/
  | rotate (keyId : String) (createdAt : Int) (material : Material) (batchSize : Nat)
  | save
  | rewrap (nonce : Identity → Nonce)
  | verify
  | narrow
  /-- The rotation is stopped. -/
  | stop
  /-- The panel stores a secret. -/
  | store (nonce : Nonce) (plaintext : Bytes) (identity : Identity) (state : SecretState)
  | transition (secretId : String) (version : Int) (state : SecretState)
  /-- The panel is started again; it does not start with a file it cannot load. -/
  | restart

/-- **One event.** A step of the rotation that fails ends it. -/
def step (cipher : Cipher Material Nonce Sealed) (s : State Material Nonce Sealed) :
    Event Material Nonce → Option (State Material Nonce Sealed)
  | .rotate keyId createdAt material batchSize =>
    match s.rotation with
    | some _ => none
    | none =>
      some { s with
        rotation := s.file.load.map fun ring =>
          .saving (ring.rotateTo ⟨keyId, .active, createdAt, material⟩) batchSize }
  | .save =>
    match s.rotation with
    | some (.saving rotated batchSize) =>
      some { s with file := rotated, rotation := some (.rewrapping rotated batchSize) }
    | _ => none
  | .rewrap nonce =>
    match s.rotation with
    | some (.rewrapping rotated batchSize) =>
      match rewrap cipher rotated nonce batchSize s.rows with
      | none => some { s with rotation := none }
      | some (0, rows) => some { s with rows, rotation := some (.verifying rotated) }
      | some (_ + 1, rows) => some { s with rows }
    | _ => none
  | .verify =>
    match s.rotation with
    | some (.verifying rotated) =>
      match verifyAll cipher rotated s.rows with
      | none => some { s with rotation := none }
      | some keyIds =>
        some { s with
          rotation :=
            if keyIds.any fun keyId => keyId != rotated.activeKeyId then none
            else some (.narrowing rotated) }
    | _ => none
  | .narrow =>
    match s.rotation with
    | some (.narrowing rotated) =>
      some { s with file := rotated.retireAllButActive, rotation := none }
    | _ => none
  | .stop => some { s with rotation := none }
  | .store nonce plaintext identity state =>
    match s.panel with
    | none => none
    | some ring =>
      match store cipher ring nonce plaintext identity state s.rows with
      | none => some s
      | some rows => some { s with rows }
  | .transition secretId version state =>
    some { s with rows := transition secretId version state s.rows }
  | .restart => some { s with panel := s.file.load }

/-- **Every secret stored so far can be read**: its row decrypts to it under the file. -/
def Readable (cipher : Cipher Material Nonce Sealed) (s : State Material Nonce Sealed) : Prop :=
  ∀ row ∈ s.rows, ∃ ring, s.file.load = some ring ∧ opens cipher ring row.toRow = some row.plaintext

/-! ## Keys that stay -/

variable {rows : List (Stored Nonce Sealed)} {state : SecretState} {nonce : Nonce} {count : Nat}
  {keyIds : List String}

section

variable {cipher : Cipher Material Nonce Sealed} {ring o : Keyring Material}
  {row : Row Nonce Sealed}

/-- A row opens under every ring that has the material of its key. -/
theorem opens_of_material (hkey : row.keyId = keyId)
    (h : (o.get keyId).map Key.material = (ring.get keyId).map Key.material) :
    opens cipher o row = opens cipher ring row := by
  unfold opens
  rw [hkey]
  cases hring : ring.get keyId with
  | none =>
    rw [hring, Option.map_none, Option.map_eq_none_iff] at h
    rw [h]
  | some key =>
    rw [hring, Option.map_some, Option.map_eq_some_iff] at h
    obtain ⟨key', hoth, hmat⟩ := h
    rw [hoth, Option.bind_some, Option.bind_some, hmat]

theorem opens_sealed {identity : Identity}
    (h : (o.get ring.activeKeyId).map Key.material = some ring.active.material) :
    opens cipher o (sealed cipher ring nonce plaintext identity state) = some plaintext := by
  obtain ⟨key, hkey, hmat⟩ := Option.map_eq_some_iff.mp h
  unfold opens sealed
  rw [ring.active_keyId, hkey, Option.bind_some, hmat]
  exact cipher.decrypt_encrypt _ _ _ _

theorem opens_sealed_self {identity : Identity} :
    opens cipher ring (sealed cipher ring nonce plaintext identity state) = some plaintext :=
  opens_sealed (by rw [ring.get_active]; rfl)

theorem getKey_eq_none {keys : List (Key Material)} (h : keyId ∉ keys.map Key.keyId) :
    getKey keys keyId = none := by
  rw [getKey, find?_eq_none]
  intro key hmem heq
  exact h (mem_map.mpr ⟨key, hmem, beq_iff_eq.mp heq⟩)

theorem getKey_retiring (keys : List (Key Material)) (keyId : String) :
    getKey (keys.map Keyring.retiring) keyId = (getKey keys keyId).map Keyring.retiring :=
  find?_map ..

/-- **Every row opens as before when a new key is put in front**, if its id is new. -/
theorem opens_rotateTo (hnew : key.keyId ∉ ring.keyIds) (h : opens cipher ring row = some plaintext)
    : opens cipher (ring.rotateTo key) row = some plaintext := by
  rw [← h]
  refine opens_of_material rfl ?_
  by_cases hsm : key.keyId = row.keyId
  · -- no row is under the new key yet
    have hn : ring.get row.keyId = none := getKey_eq_none (hsm ▸ hnew)
    unfold opens at h
    rw [hn] at h
    cases h
  · have hr : (ring.rotateTo key).get row.keyId = (ring.get row.keyId).map Keyring.retiring := by
      show getKey (key :: ring.keys.map Keyring.retiring) row.keyId = _
      rw [getKey_cons_of_ne hsm]
      exact getKey_retiring _ _
    rw [hr, Option.map_map]
    rfl

theorem readable_rotateTo (hnew : key.keyId ∉ ring.keyIds) (hsta : key.state = .active)
    (h : ring.readable = true) : (ring.rotateTo key).readable = true := by
  unfold Keyring.readable at h ⊢
  rw [Bool.and_eq_true, decide_eq_true_iff, beq_iff_eq] at h ⊢
  constructor
  · show (key.keyId :: (ring.keys.map Keyring.retiring).map Key.keyId).Nodup
    rw [map_map]
    exact nodup_cons.mpr ⟨hnew, h.1⟩
  · have hfst : (ring.rotateTo key).get key.keyId = some key := getKey_cons_self rfl _
    have hact : (ring.rotateTo key).active = key :=
      Option.some.inj ((ring.rotateTo key).get_active.symm.trans hfst)
    rw [hact, hsta]

theorem active_retireAllButActive : ring.retireAllButActive.active = ring.active := by
  have hfst : ring.retireAllButActive.get ring.activeKeyId = some ring.active :=
    getKey_cons_self ring.active_keyId []
  exact Option.some.inj (ring.retireAllButActive.get_active.symm.trans hfst)

theorem readable_retireAllButActive (h : ring.readable = true) :
    ring.retireAllButActive.readable = true := by
  unfold Keyring.readable at h ⊢
  rw [Bool.and_eq_true] at h ⊢
  refine ⟨decide_eq_true (nodup_singleton _), ?_⟩
  rw [active_retireAllButActive]
  exact h.2

theorem opens_retireAllButActive (h : row.keyId = ring.activeKeyId) :
    opens cipher ring.retireAllButActive row = opens cipher ring row := by
  refine opens_of_material h ?_
  have hact : ring.retireAllButActive.active = ring.active := active_retireAllButActive
  have hkept : ring.retireAllButActive.get ring.activeKeyId = some ring.active :=
    hact ▸ ring.retireAllButActive.get_active
  rw [hkept, ring.get_active]

/-! ## Batches and the verification -/

/-- **A batch keeps what every row opens to.** -/
theorem opens_rewrap {nonce : Identity → Nonce} {batch : Nat}
    {rows rows' : List (Stored Nonce Sealed)}
    (hrows : ∀ row ∈ rows, opens cipher ring row.toRow = some row.plaintext)
    (h : rewrap cipher ring nonce batch rows = some (count, rows')) :
    ∀ row ∈ rows', opens cipher ring row.toRow = some row.plaintext := by
  induction rows generalizing batch count rows' with
  | nil =>
    cases batch <;> cases h <;> exact nofun
  | cons row rows ih =>
    obtain ⟨hrow, hr⟩ := forall_mem_cons.mp hrows
    cases batch with
    | zero =>
      cases h
      exact hrows
    | succ batch =>
      unfold rewrap at h
      split at h
      · obtain ⟨⟨count', rest⟩, hmore, heq⟩ := Option.bind_eq_some_iff.mp h
        cases heq
        exact forall_mem_cons.mpr ⟨hrow, ih hr hmore⟩
      · obtain ⟨plaintext, hopen, h⟩ := Option.bind_eq_some_iff.mp h
        obtain ⟨⟨count', rest⟩, hmore, heq⟩ := Option.bind_eq_some_iff.mp h
        cases heq
        obtain rfl := Option.some.inj (hrow.symm.trans hopen)
        exact forall_mem_cons.mpr ⟨opens_sealed_self, ih hr hmore⟩

theorem keyId_of_verifyAll (h : verifyAll cipher ring rows = some keyIds)
    (hall : (keyIds.any fun id => id != keyId) = false) : ∀ row ∈ rows, row.keyId = keyId := by
  intro row hmem
  unfold verifyAll at h
  split at h
  · cases h
    have hrow := any_eq_false.mp hall row.keyId (mem_dedup.mpr (mem_map_of_mem hmem))
    simpa using hrow
  · cases h

end

/-! ## Every run -/

section

variable {cipher : Cipher Material Nonce Sealed} {s s' : State Material Nonce Sealed}
  {ring : Keyring Material} {batchSize : Nat}

/-- **The step strands nothing.** A new key has a new id; and a secret is stored under a key
that is in the file, and not between the verification of a rotation and its narrowing. -/
def Harmless (s : State Material Nonce Sealed) : Event Material Nonce → Prop
  | .rotate keyId _ _ _ => keyId ∉ s.file.keyIds
  | .store _ _ _ _ =>
    (∀ ring ∈ s.panel,
      (s.file.get ring.activeKeyId).map Key.material = some ring.active.material)
      ∧ s.rotation.any Rotation.isNarrowing = false
  | _ => True

instance [DecidableEq Material] (s : State Material Nonce Sealed) :
    ∀ event, Decidable (Harmless s event)
  | .rotate _ _ _ _ => inferInstanceAs (Decidable (_ ∉ _))
  | .store _ _ _ _ => inferInstanceAs (Decidable (_ ∧ _))
  | .save | .rewrap _ | .verify | .narrow | .stop | .transition _ _ _ | .restart =>
    inferInstanceAs (Decidable True)

/-- What a rotation in progress relies on. -/
def Rotation.Sound (s : State Material Nonce Sealed) : Rotation Material → Prop
  | .saving rotated _ => ∃ key : Key Material, key.state = .active ∧ key.keyId ∉ s.file.keyIds
      ∧ rotated = s.file.rotateTo key
  | .rewrapping rotated _ => s.file = rotated
  | .verifying rotated => s.file = rotated
  | .narrowing rotated => s.file = rotated ∧ ∀ row ∈ s.rows, row.keyId = rotated.activeKeyId

structure Safe (cipher : Cipher Material Nonce Sealed) (s : State Material Nonce Sealed) :
    Prop where
  readable : s.file.readable = true
  opened : ∀ row ∈ s.rows, opens cipher s.file row.toRow = some row.plaintext
  sound : ∀ rotation ∈ s.rotation, rotation.Sound s

theorem readable_of_load {file : Keyring Material} (h : file.load = some ring) :
    ring = file ∧ file.readable = true := by
  unfold Keyring.load at h
  split at h
  next hrd =>
    cases h
    exact ⟨rfl, hrd⟩
  · cases h

theorem Safe.rotate (h : Safe cipher s) {createdAt : Int} {mat : Material}
    (hnew : keyId ∉ s.file.keyIds) :
    Safe cipher { s with
      rotation := s.file.load.map fun ring =>
        .saving (ring.rotateTo ⟨keyId, .active, createdAt, mat⟩) batchSize } := by
  refine { h with sound := fun rotation hmem => ?_ }
  obtain ⟨ring, hload, rfl⟩ := Option.map_eq_some_iff.mp hmem
  obtain ⟨rfl, -⟩ := readable_of_load hload
  exact ⟨_, rfl, hnew, rfl⟩

variable {rotated : Keyring Material}

section

variable (h : Safe cipher s)

include h

theorem Safe.save (hrot : s.rotation = some (.saving rotated batchSize)) : Safe cipher
      { s with file := rotated, rotation := some (.rewrapping rotated batchSize) } := by
  obtain ⟨key, hsta, hnew, rfl⟩ := h.sound _ hrot
  refine ⟨readable_rotateTo hnew hsta h.readable,
    fun row hmem => opens_rotateTo hnew (h.opened row hmem), fun rotation hmem => ?_⟩
  cases hmem
  rfl

/-- Where only rows change, none of which stops opening, a rotation that has not verified
goes on as it was. -/
theorem Safe.of_rows (hopened : ∀ row ∈ rows, opens cipher s.file row.toRow = some row.plaintext)
    (hnar : ∀ rotated, s.rotation = some (.narrowing rotated) →
      ∀ row ∈ rows, row.keyId = rotated.activeKeyId) : Safe cipher { s with rows } := by
  refine ⟨h.readable, hopened, fun rot hmem => ?_⟩
  have hsd := h.sound rot hmem
  cases rot with
  | saving rotated batchSize => exact hsd
  | rewrapping rotated batchSize => exact hsd
  | verifying rotated => exact hsd
  | narrowing rotated => exact ⟨hsd.1, hnar rotated hmem⟩

theorem Safe.rewrap {nonce : Identity → Nonce}
    (hrot : s.rotation = some (.rewrapping rotated batchSize))
    (hrewrap : rewrap cipher rotated nonce batchSize s.rows = some (count, rows)) :
    s.file = rotated ∧ Safe cipher { s with rows } := by
  have hfile : s.file = rotated := h.sound _ hrot
  subst hfile
  refine ⟨rfl, h.of_rows (opens_rewrap h.opened hrewrap) fun rotated hnar => ?_⟩
  rw [hrot] at hnar
  cases hnar

theorem Safe.verify (hrot : s.rotation = some (.verifying rotated))
    (hver : verifyAll cipher rotated s.rows = some keyIds) :
    Safe cipher { s with
      rotation :=
        if keyIds.any fun keyId => keyId != rotated.activeKeyId then none
        else some (.narrowing rotated) } := by
  refine { h with sound := fun rotation hmem => ?_ }
  split at hmem
  · cases hmem
  next hall =>
    cases hmem
    exact ⟨h.sound _ hrot, keyId_of_verifyAll hver (Bool.eq_false_iff.mpr hall)⟩

theorem Safe.narrow (hrot : s.rotation = some (.narrowing rotated)) :
    Safe cipher { s with file := rotated.retireAllButActive, rotation := none } := by
  obtain ⟨rfl, hall⟩ := h.sound _ hrot
  refine ⟨readable_retireAllButActive h.readable, fun row hmem => ?_, nofun⟩
  rw [opens_retireAllButActive (hall row hmem)]
  exact h.opened row hmem

theorem Safe.store {identity : Identity}
    (hkey : (s.file.get ring.activeKeyId).map Key.material = some ring.active.material)
    (hidle : s.rotation.any Rotation.isNarrowing = false)
    (hsto : store cipher ring nonce plaintext identity state s.rows = some rows) :
    Safe cipher { s with rows } := by
  unfold Keyrings.store at hsto
  split at hsto
  · cases hsto
  cases hsto
  refine h.of_rows (fun row hmem => ?_) fun rotated hnar => ?_
  · obtain hold | hl := mem_append.mp hmem
    · exact h.opened row hold
    · obtain rfl := mem_singleton.mp hl
      exact opens_sealed hkey
  · rw [hnar] at hidle
    cases hidle

theorem Safe.transition (secretId : String) (v : Int) (state : SecretState) :
    Safe cipher { s with rows := transition secretId v state s.rows } := by
  -- the state is not among the associated data
  have hrow : ∀ row ∈ Keyrings.transition secretId v state s.rows, ∃ old ∈ s.rows,
      row.keyId = old.keyId ∧ row.plaintext = old.plaintext
        ∧ opens cipher s.file row.toRow = opens cipher s.file old.toRow := by
    intro row hmem
    obtain ⟨old, hold, rfl⟩ := mem_map.mp hmem
    refine ⟨old, hold, ?_⟩
    split <;> exact ⟨rfl, rfl, rfl⟩
  refine h.of_rows (fun row hmem => ?_) fun rotated hnar row hmem => ?_
  · obtain ⟨old, hold, -, hpln, hopens⟩ := hrow row hmem
    rw [hopens, hpln]
    exact h.opened old hold
  · obtain ⟨old, hold, hkeyId, -⟩ := hrow row hmem
    rw [hkeyId]
    exact (h.sound _ hnar).2 old hold

theorem Safe.step {ev : Event Material Nonce} (hharm : Harmless s ev)
    (hs : step cipher s ev = some s') : Safe cipher s' := by
  have hend : Safe cipher { s with rotation := none } :=
    { h with sound := nofun }
  unfold Keyrings.step at hs
  cases ev with
  | rotate keyId createdAt mat batchSize =>
    dsimp only at hs
    split at hs <;> cases hs
    exact h.rotate hharm
  | save =>
    dsimp only at hs
    split at hs <;> cases hs
    exact h.save ‹_›
  | rewrap nonce =>
    dsimp only at hs
    split at hs
    next rotated batchSize hrot =>
      split at hs <;> cases hs
      · exact hend
      · obtain ⟨hfile, hsafe⟩ := h.rewrap hrot ‹_›
        refine ⟨hsafe.readable, hsafe.opened, fun rotation hmem => ?_⟩
        cases hmem
        exact hfile
      · exact (h.rewrap hrot ‹_›).2
    · cases hs
  | verify =>
    dsimp only at hs
    split at hs
    next rotated hrot =>
      split at hs <;> cases hs
      · exact hend
      · exact h.verify hrot ‹_›
    · cases hs
  | narrow =>
    dsimp only at hs
    split at hs <;> cases hs
    exact h.narrow ‹_›
  | stop =>
    cases hs
    exact hend
  | store nonce plaintext identity state =>
    dsimp only at hs
    split at hs
    · cases hs
    next ring hpanel =>
      split at hs <;> cases hs
      · exact h
      · exact h.store (hharm.1 ring hpanel) hharm.2 ‹_›
  | transition secretId v state =>
    cases hs
    exact h.transition secretId v state
  | restart =>
    cases hs
    exact { h with }

end

/-- **Every secret can be read at every moment**, whatever rotations are run beside the
panel and wherever they stop, as long as new keys have new ids and the panel stores nothing
under a key that the file no longer has, or between a verification and the narrowing. -/
theorem secrets_readable {s₀ : State Material Nonce Sealed} {events : List (Event Material Nonce)}
    (hfile : s₀.file.readable = true) (hrows : Readable cipher s₀) (hidle : s₀.rotation = none)
    (hrun : Run.exec (step cipher) s₀ events = some s)
    (hharmless : Run.Meets (step cipher) Harmless s₀ events) : Readable cipher s := by
  have hstart : Safe cipher s₀ := by
    refine ⟨hfile, fun row hmem => ?_, fun rotation hmem => ?_⟩
    · obtain ⟨ring, hload, hopens⟩ := hrows row hmem
      obtain ⟨rfl, -⟩ := readable_of_load hload
      exact hopens
    · rw [hidle] at hmem
      cases hmem
  have hsafe := Run.invariant_of_meets (fun _ _ _ hsafe hok hstep => Safe.step hsafe hok hstep)
    hrun hharmless hstart
  intro row hmem
  refine ⟨s.file, ?_, hsafe.opened row hmem⟩
  unfold Keyring.load
  rw [if_pos hsafe.readable]

end

namespace Sample

/-- A ciphertext that shows what it was made of. -/
def cipher : Cipher Nat Unit (Nat × Bytes × List Char) where
  encrypt key _ plaintext aad := (key, plaintext, aad)
  decrypt key _ ciphertext aad :=
    if ciphertext.1 = key ∧ ciphertext.2.2 = aad then some ciphertext.2.1 else none
  decrypt_encrypt _ _ _ _ := if_pos ⟨rfl, rfl⟩

def ring : Keyring Nat := ⟨[⟨"k-0", .active, 0, 0⟩], "k-0", rfl⟩

def identity (version : Int) : Identity := ⟨"secret", version, "fleet-managed", none, some "local"⟩

def stores (version : Int) : Event Nat Unit := .store () [1, 2] (identity version) .active

/-- The panel runs with the keyring of the file. -/
def start : State Nat Unit (Nat × Bytes × List Char) := ⟨ring, [], none, some ring⟩

theorem readable_start : Readable cipher start := nofun

/-- Whether every row decrypts to what was stored in it. -/
def intact (s : State Nat Unit (Nat × Bytes × List Char)) : Bool :=
  s.rows.all fun row =>
    (s.file.load.bind fun ring => opens cipher ring row.toRow) == some row.plaintext

theorem intact_of_readable {s : State Nat Unit (Nat × Bytes × List Char)}
    (h : Readable cipher s) : intact s = true := by
  rw [intact, all_eq_true]
  intro row hmem
  obtain ⟨ring, hload, hopens⟩ := h row hmem
  rw [hload, Option.bind_some, hopens]
  exact beq_self_eq_true _

/-- A rotation until its verification has passed. -/
def verified : List (Event Nat Unit) :=
  [.rotate "k-1" 0 1 1, .save, .rewrap fun _ => (), .rewrap fun _ => (), .verify]

/-- **A secret is stranded by a rotation beside the panel**: one that the panel stores
between the verification and the narrowing, and one that it stores after the rotation. -/
theorem secret_stranded : Readable cipher start ∧ start.panel = some start.file
    ∧ (∃ s, Run.exec (step cipher) start (stores 1 :: verified ++ [stores 2, .narrow]) = some s
      ∧ ¬ Readable cipher s)
    ∧ ∃ s, Run.exec (step cipher) start (stores 1 :: verified ++ [.narrow, stores 2]) = some s
      ∧ ¬ Readable cipher s := by
  have hstranded : ∀ events, (Run.exec (step cipher) start events).map intact = some false →
      ∃ s, Run.exec (step cipher) start events = some s ∧ ¬ Readable cipher s := by
    intro events hview
    obtain ⟨s, hrun, hs⟩ := Option.map_eq_some_iff.mp hview
    exact ⟨s, hrun, fun hreadable => Bool.false_ne_true (hs ▸ intact_of_readable hreadable)⟩
  exact ⟨readable_start, rfl, hstranded _ (by decide +kernel), hstranded _ (by decide +kernel)⟩

/-- A rotation that is stopped after a batch, and one that is run to its end while the panel
stores another secret, before the panel is started again. -/
def harmless : List (Event Nat Unit) :=
  [stores 1, stores 2, .rotate "k-1" 0 1 1, .save, .rewrap fun _ => (), .stop,
    .rotate "k-2" 0 2 1, .save, stores 3, .rewrap fun _ => (), .rewrap fun _ => (),
    .rewrap fun _ => (), .rewrap fun _ => (), .verify, .narrow, .restart, stores 4]

theorem secrets_readable_harmless : ∃ s,
    Run.exec (step cipher) start harmless = some s ∧ s.rows.map (fun row => row.keyId)
      = ["k-2", "k-2", "k-2", "k-2"] ∧ Readable cipher s := by
  exact Run.end_and (by decide +kernel) fun s hrun _ =>
    secrets_readable rfl readable_start rfl hrun (by decide +kernel)

end Sample

end Keyrings
