import ProxyControl.Wire

/-!
# What a node accepts

A push arrives at a node as JSON. The node checks that it is meant, files the generation
with its document as a text, and escrows the plaintext of the credentials it brings – all
in one transaction, which is rolled back when any part of it fails.

Every later push reads the newest row back and validates the text again, so that a row
that could be written and not read would end the link: every push after it would fail.
`Kept.row` is what excludes it. A body nests at most 128 containers, the document stands
one level below it, and the reader of the database takes one level less than the reader
of bodies.

The states are those between two unlinks: a run starts where the bookkeeping was forgotten,
and besides pushes the node moves the state of a row, writes other settings, and changes
its secrets for reasons of its own.
-/

namespace Acceptance

open List
open Table
open Json Wire
open Reconciler (Conflict)

/-- The containers that a body may nest. -/
def maxDepth : Nat := 128

/-- The depth at which the reader of stored texts gives up. -/
def recursionLimit : Nat := 128

/-- What the node takes from elsewhere, with its own GUID and the decimal digits of every
script. -/
structure Site where
  wire : Wire.Site
  floats : Floats
  decimal : Char → Option (Fin 10)
  guid : String

/-- **The body of a request**, as the reader of bodies gives it. -/
structure Body (floats : Floats) where
  value : Json
  fits : Fits floats value maxDepth

/-! ## The database -/

inductive RowState
  | received
  | applying
  | converged
  | failed
deriving DecidableEq, Repr

/-- A generation as it is filed. -/
structure GenerationRow where
  generation : Int
  digest : String
  masterGuid : String
  documentJson : List Char
  receivedAt : Int
  appliedAt : Option Int
  state : RowState
deriving DecidableEq

/-- A version of a secret, by what it opens to. -/
structure SecretVersion where
  secretId : String
  version : Nat
  purpose : String
  permittedNodeId : Option String
  plaintext : String
  createdAt : Int
deriving DecidableEq

structure Setting where
  value : String
  updatedAt : Int
deriving DecidableEq

structure Database where
  generations : List GenerationRow
  settings : List (String × Setting)
  secrets : List SecretVersion
deriving DecidableEq

def masterKey : String := "fleet_master_guid"

def lanesKey : String := "fleet_lanes_json"

def relayKey : String := "fleet_relay_json"

/-- Why a push is refused. -/
inductive Refusal
  /-- The body does not validate. -/
  | invalid
  | conflict (code : Conflict)
  /-- The newest row is not read back. -/
  | stored
  | secretRef
  /-- No master key is configured. -/
  | secretStoreDisabled
  | database
deriving DecidableEq

structure Latest where
  generation : Int
  digest : String
  state : RowState
  masterGuid : String
  document : GenerationDocument

/-- The row of the highest number. -/
def newest : List GenerationRow → Option GenerationRow
  | [] => none
  | row :: rows =>
    match newest rows with
    | none => some row
    | some other => if other.generation ≤ row.generation then some row else some other

/-- A filed document, as it is read back. -/
def reading (site : Site) (row : GenerationRow) : Option GenerationDocument :=
  (loads site.floats recursionLimit row.documentJson).bind (GenerationDocument.validate site.wire)

def latest (site : Site) (db : Database) : Except Refusal (Option Latest) :=
  match newest db.generations with
  | none => .ok none
  | some row =>
    match reading site row with
    | none => .error .stored
    | some document =>
      .ok (some ⟨row.generation, row.digest, row.state, row.masterGuid, document⟩)

/-- File a row; its number is the key of the table. -/
def insert (row : GenerationRow) (db : Database) : Except Refusal Database :=
  if db.generations.any (·.generation == row.generation) then .error .database
  else .ok { db with generations := db.generations ++ [row] }

def rowOf (document : GenerationDocument) (digest : String) (now : Int) : GenerationRow where
  generation := document.generation
  digest := digest
  masterGuid := document.masterGuid
  documentJson := written document.dump
  receivedAt := now
  appliedAt := none
  state := .received

/-- **File a pushed generation**, unless it is another node's, another central's, an older
one, or the newest number under another digest. The same number and digest changes nothing;
the first push names the central. -/
def accept (site : Site) (document : GenerationDocument) (digest : String) (now : Int)
    (db : Database) : Except Refusal Database := do
  let master := (find db.settings masterKey).map Setting.value
  (Reconciler.meant site.guid master document.nodeGuid document.masterGuid).mapError .conflict
  let latest ← latest site db
  let new ← (Reconciler.isNew (latest.map fun latest => (latest.generation, latest.digest))
    document.generation digest).mapError .conflict
  if new then
    insert (rowOf document digest now)
      (if master.isNone then
        { db with settings := put db.settings masterKey ⟨document.masterGuid, now⟩ }
      else db)
  else return db

/-! ## The escrow -/

/-- What stands before the last colon, and after it. -/
def rsplitOnce (text : List Char) : List Char × List Char :=
  let version := (text.reverse.takeWhile (· != ':')).reverse
  if text.contains ':' then (text.take (text.length - version.length - 1), version)
  else ([], text)

/-- A decimal number of at most 63 bits. -/
def versionOf (site : Site) (digits : List Char) : Option Nat :=
  digits.foldlM (fun number c => do
    let digit ← site.decimal c
    let number := number * 10 + digit.val
    if number < 2 ^ 63 then some number else none) 0

/-- `<secret_id>:<version>`. -/
def secretRef (site : Site) (credentialRef : String) : Option (String × Nat) :=
  let (secretId, version) := rsplitOnce credentialRef.toList
  if secretId.isEmpty || version.isEmpty then none
  else (versionOf site version).map fun number => (String.ofList secretId, number)

def managedPurpose : String := "fleet-managed"

/-- What a push is handled with: the time, whether a keyring is loaded, and whether the
database commits. -/
structure Conditions where
  now : Int
  keyring : Bool
  commits : Bool

/-- Escrow one secret of a push, once per version. -/
def storeSecret (site : Site) (conditions : Conditions) (db : Database)
    (entry : String × String) : Except Refusal Database :=
  match secretRef site entry.1 with
  | none => .error .secretRef
  | some (secretId, version) =>
    if db.secrets.any fun secret => secret.secretId == secretId && secret.version == version then
      .ok db
    else if conditions.keyring then
      .ok { db with
        secrets := db.secrets ++
          [⟨secretId, version, managedPurpose, some "local", entry.2, conditions.now⟩] }
    else .error .secretStoreDisabled

def storeSecrets (site : Site) (conditions : Conditions) (request : PushRequest)
    (db : Database) : Except Refusal Database :=
  request.secrets.foldlM (storeSecret site conditions) db

/-! ## A push -/

/-- Run in one transaction: an error rolls back, and so does a commit that fails. -/
def transaction (commits : Bool) (work : Database → Except Refusal Database) (db : Database) :
    Except Refusal Unit × Database :=
  match work db with
  | .error refusal => (.error refusal, db)
  | .ok db' => if commits then (.ok (), db') else (.error .database, db)

/-- **Handle a push**: how it ends, and the database after it. -/
def push (site : Site) (conditions : Conditions) (body : Body site.floats) (db : Database) :
    Except Refusal Unit × Database :=
  match PushRequest.validate site.wire body.value with
  | none => (.error .invalid, db)
  | some request =>
    if request.expectedGuid ≠ site.guid then (.error (.conflict .guidMismatch), db)
    else
      transaction conditions.commits (fun db => do
        let db ← accept site request.generation (request.generation.canonicalDigest site.wire)
          conditions.now db
        storeSecrets site conditions request db) db

/-- Forget the central; the rows of managed resources are left out. -/
def unlink (db : Database) : Database :=
  { db with
    generations := []
    settings :=
      erase (erase (erase db.settings masterKey) lanesKey) relayKey }

/-- Move the state of a row; the time of the application moves when it converged. -/
def setState (generation : Int) (state : RowState) (now : Int) (db : Database) : Database :=
  { db with
    generations := db.generations.map fun row =>
      if row.generation = generation then
        { row with
          state
          appliedAt := if state = .converged then some now else row.appliedAt }
      else row }

/-! ## Runs -/

/-- The database, with the documents of the pushes that were accepted, in their order. -/
structure State where
  db : Database
  accepted : List GenerationDocument

/-- What happens between two unlinks. -/
inductive Event (floats : Floats)
  | push (conditions : Conditions) (body : Body floats)
  | setState (generation : Int) (state : RowState) (now : Int)
  /-- Another setting is written, or removed. -/
  | writeSetting (key : String) (value : Option Setting)
  /-- Secrets come and go elsewhere in the panel. -/
  | keepSecrets (secrets : List SecretVersion)

def documentOf (site : Site) (body : Body site.floats) : Option GenerationDocument :=
  (PushRequest.validate site.wire body.value).map PushRequest.generation

/-- **One event.** The setting that names the central is written by pushes only. -/
def step (site : Site) (s : State) : Event site.floats → Option State
  | .push conditions body =>
    match push site conditions body s.db with
    | (.ok (), db) => some ⟨db, s.accepted ++ (documentOf site body).toList⟩
    | (.error _, db) => some { s with db }
  | .setState generation state now => some { s with db := setState generation state now s.db }
  | .writeSetting key value =>
    if key = masterKey then none
    else
      some { s with
        db := { s.db with
          settings := match value with
            | some value => put s.db.settings key value
            | none => erase s.db.settings key } }
  | .keepSecrets secrets => some { s with db := { s.db with secrets } }

/-! ## What is filed is read back -/

section

variable {site : Site} {db db' : Database} {document : GenerationDocument}
  {body : Body site.floats} {row : GenerationRow} {conditions : Conditions}
  {rows : List GenerationRow}

/-- A document stands one level below the body it comes in. -/
theorem documentOf_eq_some (h : documentOf site body = some document) :
    ∃ json, GenerationDocument.validate site.wire json = some document
      ∧ Fits site.floats json 127 := by
  obtain ⟨req, hreq, rfl⟩ := Option.map_eq_some_iff.mp h
  obtain ⟨v, hfits⟩ := body
  cases v with
  | obj fs =>
    unfold PushRequest.validate object at hreq
    simp only [↓bind_eq_some, ↓Option.ite_none_right_eq_some, passing_eq_some] at hreq
    obtain ⟨expected, -, gen, hgen, secs, -, -, rfl, -⟩ := hreq
    obtain ⟨json, hf, hjson⟩ := Option.bind_eq_some_iff.mp hgen
    obtain ⟨inner, hinn, hflds⟩ := of_fits_obj hfits
    obtain rfl : inner = 127 := by
      unfold maxDepth at hinn
      omega
    exact ⟨json, hjson, hflds _ (mem_of_find hf)⟩
  | _ => cases hreq

/-- **The text of an accepted document is read back as the document.** -/
theorem reading_eq (h : documentOf site body = some document)
    (hrow : row.documentJson = written document.dump) : reading site row = some document := by
  have hstab : Stable site.floats 4 (GenerationDocument.validate site.wire)
      GenerationDocument.dump := GenerationDocument.stable
  obtain ⟨json, hjson, hfits⟩ := documentOf_eq_some h
  have hdump : Fits site.floats document.dump 127 := hstab.fits hjson (by decide) hfits
  unfold reading
  rw [hrow, loads_written hdump (by decide)]
  exact hstab.again hjson

theorem masterGuid_ne_empty {json : Json}
    (h : GenerationDocument.validate site.wire json = some document) :
    document.masterGuid.isEmpty = false := by
  cases json with
  | obj fs =>
    obtain ⟨-, -, hmas, -⟩ := GenerationDocument.validate_eq_some.mp h
    obtain ⟨v, -, hval⟩ := Option.bind_eq_some_iff.mp hmas
    obtain ⟨-, hlen⟩ := strWith_eq_some.mp hval
    rw [Bool.eq_false_iff, ne_eq, String.isEmpty_iff]
    intro hemp
    rw [hemp] at hlen
    cases hlen
  | _ => cases h

/-! ## The newest row -/

theorem newest_eq_none (h : newest rows = none) : rows = [] := by
  cases rows with
  | nil => rfl
  | cons row rows =>
    unfold newest at h
    split at h
    · cases h
    · split at h <;> cases h

theorem newest_spec (h : newest rows = some row) :
    row ∈ rows ∧ ∀ o ∈ rows, o.generation ≤ row.generation := by
  induction rows generalizing row with
  | nil => cases h
  | cons first rows ih =>
    unfold newest at h
    split at h
    next hn =>
      cases h
      rw [newest_eq_none hn]
      exact ⟨mem_cons_self, forall_mem_singleton.mpr le_rfl⟩
    next o hoth =>
      obtain ⟨hmem, hle⟩ := ih hoth
      split at h
      next hge =>
        cases h
        exact ⟨mem_cons_self, forall_mem_cons.mpr ⟨le_rfl, fun e hent => (hle e hent).trans hge⟩⟩
      next hlt =>
        cases h
        exact ⟨mem_cons_of_mem _ hmem, forall_mem_cons.mpr ⟨(not_le.mp hlt).le, hle⟩⟩

theorem latest_eq_ok {found : Option Latest} (h : latest site db = .ok found) :
    (found = none ∧ db.generations = []) ∨
      ∃ row document, newest db.generations = some row ∧ reading site row = some document
        ∧ found = some ⟨row.generation, row.digest, row.state, row.masterGuid, document⟩ := by
  unfold latest at h
  split at h
  next hn =>
    cases h
    exact .inl ⟨rfl, newest_eq_none hn⟩
  next row hrow =>
    split at h
    · cases h
    next document hdoc =>
      cases h
      exact .inr ⟨row, document, hrow, hdoc, rfl⟩

/-! ## What a push does -/

theorem insert_eq_ok (h : insert row db = .ok db') :
    db' = { db with generations := db.generations ++ [row] } := by
  unfold insert at h
  split at h <;> cases h
  rfl

/-- The database after a new row was filed. -/
def filed (db : Database) (document : GenerationDocument) (digest : String) (now : Int) :
    Database :=
  { db with
    generations := db.generations ++ [rowOf document digest now]
    settings :=
      if ((find db.settings masterKey).map Setting.value).isNone then
        put db.settings masterKey ⟨document.masterGuid, now⟩
      else db.settings }

/-- **What an accepted generation does**: it was meant for this node and comes from its
central; either it is the newest again, and nothing changes, or it is newer than every row
and is filed. -/
theorem accept_eq_ok {dig : String} {now : Int} (h : accept site document dig now db = .ok db') :
    document.nodeGuid = site.guid ∧ (∀ set, find db.settings masterKey = some set →
        set.value.isEmpty = false → set.value = document.masterGuid)
      ∧ ((db' = db ∧ ∃ row, newest db.generations = some row
            ∧ row.generation = document.generation ∧ row.digest = dig)
        ∨ (db' = filed db document dig now
            ∧ ∀ row ∈ db.generations, row.generation < document.generation)) := by
  obtain ⟨⟨⟩, hmeant, h⟩ := Checks.bind_eq_ok.mp h
  obtain ⟨latest, hlat, h⟩ := Checks.bind_eq_ok.mp h
  obtain ⟨new, hnew, h⟩ := Checks.bind_eq_ok.mp h
  obtain ⟨hnode, hmas⟩ := Reconciler.meant_eq_ok (Checks.mapError_eq_ok.mp hmeant)
  have hcase := Reconciler.isNew_eq_ok (Checks.mapError_eq_ok.mp hnew)
  refine ⟨hnode, fun set hf hval => hmas _ (Option.mem_map_of_mem _ hf) ?_, ?_⟩
  · rintro hemp
    rw [hemp] at hval
    cases hval
  cases new with
  | false =>
    cases h
    obtain ⟨rfl, -⟩ | ⟨row, stored, hrow, -, rfl⟩ := latest_eq_ok hlat
    · cases hcase
    · obtain ⟨hnum, hdig⟩ := Prod.mk.inj (Option.some.inj hcase)
      exact .inl ⟨rfl, row, hrow, hnum, hdig⟩
  | true =>
    refine .inr ⟨?_, fun o hmem => ?_⟩
    · rw [insert_eq_ok h]
      unfold filed
      split <;> rfl
    · obtain ⟨-, hrows⟩ | ⟨row, stored, hrow, -, rfl⟩ := latest_eq_ok hlat
      · rw [hrows] at hmem
        cases hmem
      · exact lt_of_le_of_lt ((newest_spec hrow).2 o hmem) (hcase _ rfl)

theorem storeSecrets_eq_ok {req : PushRequest} (h : storeSecrets site conditions req db = .ok db') :
    db'.generations = db.generations ∧ db'.settings = db.settings := by
  unfold storeSecrets at h
  generalize req.secrets = es at h
  induction es generalizing db with
  | nil =>
    cases h
    exact ⟨rfl, rfl⟩
  | cons e es ih =>
    rw [foldlM_cons] at h
    cases hent : storeSecret site conditions db e with
    | error refusal =>
      rw [hent] at h
      cases h
    | ok next =>
      rw [hent] at h
      obtain ⟨hgens, hset⟩ := ih h
      have hnext : next.generations = db.generations ∧ next.settings = db.settings := by
        unfold storeSecret at hent
        split at hent
        · cases hent
        · split at hent
          · cases hent
            exact ⟨rfl, rfl⟩
          · split at hent <;> cases hent
            exact ⟨rfl, rfl⟩
      exact ⟨hgens.trans hnext.1, hset.trans hnext.2⟩

/-- **A push that is refused changes nothing.** -/
theorem push_eq_error {refusal : Refusal} (h : push site conditions body db = (.error refusal, db'))
    : db' = db := by
  unfold push at h
  split at h
  · cases h
    rfl
  · split at h
    · cases h
      rfl
    · unfold transaction at h
      split at h
      · cases h
        rfl
      · split at h <;> cases h
        rfl

/-- A push that is accepted has a document, which was accepted; escrowing its secrets
touches neither the rows nor the settings. -/
theorem push_eq_ok (h : push site conditions body db = (.ok (), db')) :
    ∃ document mid, documentOf site body = some document
      ∧ accept site document (document.canonicalDigest site.wire) conditions.now db = .ok mid
      ∧ db'.generations = mid.generations ∧ db'.settings = mid.settings := by
  unfold push at h
  split at h
  · cases h
  rename_i req hreq
  split at h
  · cases h
  unfold transaction at h
  split at h
  · cases h
  rename_i next hwork
  split at h <;> cases h
  dsimp only at hwork
  cases hacc : accept site req.generation (req.generation.canonicalDigest site.wire)
      conditions.now db with
  | error refusal =>
    rw [hacc] at hwork
    cases hwork
  | ok mid =>
    rw [hacc] at hwork
    obtain ⟨hgens, hset⟩ := storeSecrets_eq_ok hwork
    exact ⟨req.generation, mid, by rw [documentOf, hreq]; rfl, hacc, hgens, hset⟩

/-! ## Every run -/

variable {s s' : State} {document : GenerationDocument}

/-- **What pushes leave behind.** Every row is the first of its number that was accepted,
as it is read back; every accepted document is on file by its number and digest; the
setting names the central of the first. -/
structure Kept (site : Site) (s : State) : Prop where
  row : ∀ row ∈ s.db.generations, ∃ document ∈ s.accepted, reading site row = some document
    ∧ row.generation = document.generation
    ∧ row.digest = document.canonicalDigest site.wire ∧ row.masterGuid = document.masterGuid
  keys : (s.db.generations.map GenerationRow.generation).Nodup
  onFile : ∀ document ∈ s.accepted, document.nodeGuid = site.guid
    ∧ document.masterGuid.isEmpty = false
    ∧ (find s.db.settings masterKey).map Setting.value = some document.masterGuid
    ∧ ∃ row ∈ s.db.generations, row.generation = document.generation
      ∧ row.digest = document.canonicalDigest site.wire
  unnamed : s.accepted = [] → find s.db.settings masterKey = none
  ordered : s.accepted.Pairwise fun document other => document.generation ≤ other.generation

/-- Nothing is asked of the secrets, of the other settings, nor of the states of the rows. -/
theorem Kept.of_eq (h : Kept site s) (hacc : s'.accepted = s.accepted)
    (hmas : find s'.db.settings masterKey = find s.db.settings masterKey)
    (move : GenerationRow → GenerationRow) (hrows : s'.db.generations = s.db.generations.map move)
    (hmove : ∀ row, (move row).generation = row.generation ∧ (move row).digest = row.digest
      ∧ (move row).masterGuid = row.masterGuid ∧ (move row).documentJson = row.documentJson) :
    Kept site s' where
  row row' hmem := by
    rw [hrows] at hmem
    obtain ⟨row, hrow, rfl⟩ := mem_map.mp hmem
    obtain ⟨hgen, hdig, hguid, hjson⟩ := hmove row
    obtain ⟨document, hdoc, hrd, hr⟩ := h.row row hrow
    rw [hacc, hgen, hdig, hguid]
    refine ⟨document, hdoc, ?_, hr⟩
    rw [← hrd, reading, reading, hjson]
  keys := by
    have hsm : GenerationRow.generation ∘ move = GenerationRow.generation :=
      funext fun row => (hmove row).1
    rw [hrows, map_map, hsm]
    exact h.keys
  onFile document hmem := by
    rw [hacc] at hmem
    obtain ⟨hnode, hemp, hnam, row, hrow, hgen, hdig⟩ := h.onFile document hmem
    rw [hmas, hrows]
    refine ⟨hnode, hemp, hnam, move row, mem_map_of_mem hrow, ?_, ?_⟩
    · rw [(hmove row).1, hgen]
    · rw [(hmove row).2.1, hdig]
  unnamed hnil := by
    rw [hmas]
    exact h.unnamed (hacc ▸ hnil)
  ordered := by
    rw [hacc]
    exact h.ordered

/-- A push that was accepted again names what is on file already. -/
theorem Kept.again (h : Kept site s) (hnode : document.nodeGuid = site.guid)
    (hemp : document.masterGuid.isEmpty = false)
    (hmas : ∀ set, find s.db.settings masterKey = some set →
      set.value.isEmpty = false → set.value = document.masterGuid)
    (hnewest : newest s.db.generations = some row)
    (hgen : row.generation = document.generation)
    (hdig : row.digest = document.canonicalDigest site.wire) :
    Kept site { s with accepted := s.accepted ++ [document] } := by
  obtain ⟨hrow, hle⟩ := newest_spec hnewest
  have hnam : (find s.db.settings masterKey).map Setting.value = some document.masterGuid := by
    obtain ⟨first, hfst, -⟩ := h.row row hrow
    obtain ⟨-, hfull, hf, -⟩ := h.onFile first hfst
    obtain ⟨set, hset, hval⟩ := Option.map_eq_some_iff.mp hf
    rw [hset, Option.map_some, hmas set hset (hval ▸ hfull)]
  refine ⟨fun o hmem => ?_, h.keys, fun o hmem => ?_, fun hnil => ?_, ?_⟩
  · obtain ⟨first, hfst, hr⟩ := h.row o hmem
    exact ⟨first, mem_append_left _ hfst, hr⟩
  · obtain hold | hnew := mem_append.mp hmem
    · exact h.onFile o hold
    · obtain rfl := mem_singleton.mp hnew
      exact ⟨hnode, hemp, hnam, row, hrow, hgen, hdig⟩
  · simp at hnil
  · refine pairwise_append.mpr ⟨h.ordered, pairwise_singleton _ _, fun old hold new hnew => ?_⟩
    obtain rfl := mem_singleton.mp hnew
    obtain ⟨-, -, -, o, hoth, hnum, -⟩ := h.onFile old hold
    rw [← hnum, ← hgen]
    exact hle o hoth

/-- A push that was filed is the newest. -/
theorem Kept.newer (h : Kept site s) {now : Int} (hbody : documentOf site body = some document)
    (hnode : document.nodeGuid = site.guid) (hemp : document.masterGuid.isEmpty = false)
    (hmas : ∀ set, find s.db.settings masterKey = some set →
      set.value.isEmpty = false → set.value = document.masterGuid)
    (hnew : ∀ row ∈ s.db.generations, row.generation < document.generation) :
    Kept site
      ⟨filed s.db document (document.canonicalDigest site.wire) now, s.accepted ++ [document]⟩ := by
  have hnam : (find (filed s.db document (document.canonicalDigest site.wire) now).settings
      masterKey).map Setting.value = some document.masterGuid := by
    unfold filed
    cases hf : find s.db.settings masterKey with
    | none =>
      rw [Option.map_none, Option.isNone_none, if_pos rfl, find_put_self]
      rfl
    | some set =>
      rw [Option.map_some, Option.isNone_some, if_neg Bool.false_ne_true, hf, Option.map_some]
      congr 1
      cases hacc : s.accepted with
      | nil =>
        rw [h.unnamed hacc] at hf
        cases hf
      | cons first rest =>
        have hmem : first ∈ s.accepted := hacc ▸ mem_cons_self
        obtain ⟨-, hfull, hval, -⟩ := h.onFile first hmem
        rw [hf, Option.map_some, Option.some.injEq] at hval
        exact hmas set hf (hval ▸ hfull)
  have hkept : ∀ old ∈ s.accepted, old.masterGuid = document.masterGuid
      ∧ old.generation ≤ document.generation := by
    intro old hold
    obtain ⟨-, hfull, hval, row, hrow, hnum, -⟩ := h.onFile old hold
    obtain ⟨set, hf, hset⟩ := Option.map_eq_some_iff.mp hval
    refine ⟨?_, hnum ▸ (hnew row hrow).le⟩
    rw [← hset]
    exact hmas set hf (hset ▸ hfull)
  refine ⟨fun row hmem => ?_, ?_, fun o hmem => ?_, fun hnil => ?_, ?_⟩
  · obtain hold | hl := mem_append.mp hmem
    · obtain ⟨first, hfst, hr⟩ := h.row row hold
      exact ⟨first, mem_append_left _ hfst, hr⟩
    · obtain rfl := mem_singleton.mp hl
      exact ⟨document, mem_append_right _ (mem_singleton_self _),
        reading_eq hbody rfl, rfl, rfl, rfl⟩
  · show ((s.db.generations ++ [_]).map GenerationRow.generation).Nodup
    rw [map_append, nodup_append]
    refine ⟨h.keys, nodup_singleton _, fun number hnum last hl => ?_⟩
    obtain ⟨row, hrow, rfl⟩ := mem_map.mp hnum
    obtain rfl := mem_singleton.mp hl
    exact (hnew row hrow).ne
  · obtain hold | hl := mem_append.mp hmem
    · obtain ⟨hguid, hfull, -, row, hrow, hr⟩ := h.onFile o hold
      refine ⟨hguid, hfull, ?_, row, mem_append_left _ hrow, hr⟩
      rw [(hkept o hold).1]
      exact hnam
    · obtain rfl := mem_singleton.mp hl
      exact ⟨hnode, hemp, hnam, rowOf o _ now, mem_append_right _ (mem_singleton_self _), rfl, rfl⟩
  · simp at hnil
  · refine pairwise_append.mpr ⟨h.ordered, pairwise_singleton _ _, fun old hold new hl => ?_⟩
    obtain rfl := mem_singleton.mp hl
    exact (hkept old hold).2

theorem Kept.push (h : Kept site s) {db : Database}
    (hpush : push site conditions body s.db = (.ok (), db)) :
    Kept site ⟨db, s.accepted ++ (documentOf site body).toList⟩ := by
  obtain ⟨document, mid, hbody, hacc, hgens, hset⟩ := push_eq_ok hpush
  have hemp : document.masterGuid.isEmpty = false := by
    obtain ⟨json, hjson, -⟩ := documentOf_eq_some hbody
    exact masterGuid_ne_empty hjson
  have hmid : Kept site ⟨mid, s.accepted ++ [document]⟩ := by
    obtain ⟨hnode, hmas, ⟨rfl, row, hnewest, hgen, hdig⟩ | ⟨rfl, hnew⟩⟩ :=
      accept_eq_ok hacc
    · exact h.again hnode hemp hmas hnewest hgen hdig
    · exact h.newer hbody hnode hemp hmas hnew
  rw [hbody]
  exact hmid.of_eq rfl (by rw [hset]) id (by rw [hgens, map_id]) fun _ => ⟨rfl, rfl, rfl, rfl⟩

theorem Kept.step {ev : Event site.floats} (h : Kept site s)
    (hs : step site s ev = some s') : Kept site s' := by
  unfold Acceptance.step at hs
  cases ev with
  | push conditions body =>
    dsimp only at hs
    split at hs
    next db hpush =>
      cases hs
      exact h.push hpush
    next refusal db hpush =>
      cases hs
      rw [push_eq_error hpush]
      exact h
  | setState gen state now =>
    cases hs
    refine h.of_eq rfl rfl _ rfl fun row => ?_
    split <;> exact ⟨rfl, rfl, rfl, rfl⟩
  | writeSetting key v =>
    dsimp only at hs
    split at hs
    · cases hs
    rename_i hkey
    cases hs
    refine h.of_eq rfl ?_ id (map_id _).symm fun _ => ⟨rfl, rfl, rfl, rfl⟩
    cases v with
    | some v => exact find_put_of_ne (Ne.symm hkey) _ _
    | none => exact (find_erase _ _ _).trans (if_neg (Ne.symm hkey))
  | keepSecrets secs =>
    cases hs
    exact h.of_eq rfl rfl id (map_id _).symm fun _ => ⟨rfl, rfl, rfl, rfl⟩

theorem Kept.start (db : Database) : Kept site ⟨unlink db, []⟩ where
  row _ hmem := absurd hmem not_mem_nil
  keys := nodup_nil
  onFile _ hmem := absurd hmem not_mem_nil
  unnamed _ := by
    show find (erase (erase (erase db.settings masterKey) lanesKey) relayKey) masterKey = none
    rw [find_erase, if_neg (by decide), find_erase, if_neg (by decide), find_erase, if_pos rfl]
  ordered := List.Pairwise.nil

/-- **The books of a node are in order.** -/
structure Orderly (site : Site) (s : State) : Prop where
  /-- The accepted numbers never decrease. -/
  rising : s.accepted.Pairwise fun document other => document.generation ≤ other.generation
  /-- Each number is stored once, with one digest and one document. -/
  once : ∀ document ∈ s.accepted, ∃ row ∈ s.db.generations,
    (∀ other ∈ s.db.generations, other.generation = document.generation → other = row)
      ∧ row.generation = document.generation ∧ row.digest = document.canonicalDigest site.wire
  /-- All accepted documents name this node and the same central. -/
  named : ∀ document ∈ s.accepted, document.nodeGuid = site.guid
    ∧ ∀ other ∈ s.accepted, other.masterGuid = document.masterGuid
  /-- Every row is read back, as a document that was accepted under its number and digest. -/
  readable : ∀ row ∈ s.db.generations, ∃ document ∈ s.accepted, reading site row = some document
    ∧ row.generation = document.generation ∧ row.digest = document.canonicalDigest site.wire
    ∧ row.masterGuid = document.masterGuid
  found : ∃ found, latest site s.db = .ok found
  /-- A refused push leaves everything as it was. -/
  refused : ∀ conditions body refusal db,
    push site conditions body s.db = (.error refusal, db) → db = s.db
  /-- Pushing the newest again changes no row. -/
  again : ∀ conditions body document row, documentOf site body = some document →
    newest s.db.generations = some row → document.generation = row.generation →
    document.canonicalDigest site.wire = row.digest →
    (push site conditions body s.db).2.generations = s.db.generations

theorem Kept.found (h : Kept site s) : ∃ found, latest site s.db = .ok found := by
  unfold latest
  split
  · exact ⟨none, rfl⟩
  next row hrow =>
    obtain ⟨document, -, hrd, -⟩ := h.row row (newest_spec hrow).1
    rw [hrd]
    exact ⟨_, rfl⟩

theorem Kept.orderly (h : Kept site s) : Orderly site s where
  rising := h.ordered
  once document hmem := by
    obtain ⟨-, -, -, row, hrow, hgen, hdig⟩ := h.onFile document hmem
    exact ⟨row, hrow, fun o hoth hsm => inj_on_of_nodup_map h.keys hoth hrow
      (hsm.trans hgen.symm), hgen, hdig⟩
  named document hmem := by
    obtain ⟨hnode, -, hnam, -⟩ := h.onFile document hmem
    refine ⟨hnode, fun o hoth => ?_⟩
    obtain ⟨-, -, hsm, -⟩ := h.onFile o hoth
    exact Option.some.inj (hsm.symm.trans hnam)
  readable := h.row
  found := h.found
  refused _ _ _ _ hpush := push_eq_error hpush
  again conditions body document row hbody hnewest hgen hdig := by
    cases hpush : Acceptance.push site conditions body s.db with
    | mk out db =>
      cases out with
      | error refusal => rw [push_eq_error hpush]
      | ok done =>
        obtain ⟨pushed, mid, hpushed, hacc, hrows, -⟩ := push_eq_ok hpush
        obtain rfl := Option.some.inj (hbody.symm.trans hpushed)
        rw [hrows]
        obtain ⟨-, -, ⟨rfl, -⟩ | ⟨-, hnew⟩⟩ := accept_eq_ok hacc
        · rfl
        · have hlt := hnew row (newest_spec hnewest).1
          omega

/-- **Between two unlinks the books of a node are in order, whatever is pushed.** -/
theorem books_orderly {db : Database} {events : List (Event site.floats)}
    (hrun : Run.exec (step site) ⟨unlink db, []⟩ events = some s) : Orderly site s :=
  (Run.invariant (fun _ _ _ hkept hstep => Kept.step hkept hstep) hrun (Kept.start db)).orderly

end

namespace Sample

def site : Site where
  wire := { numerals := ⟨fun _ => none, fun _ => none⟩, sha256 := String.ofList, shown := String.join }
  floats := .none
  decimal c := if h : c.isDigit ∧ c.toNat - 48 < 10 then some ⟨c.toNat - 48, h.2⟩ else none
  guid := "node"

def pushed (number : Int) : Json :=
  .obj [("expected_guid", .str "node"),
    ("generation", .obj [("node_guid", .str "node"), ("master_guid", .str "central"),
      ("generation", .int number), ("previous_generation", .int 0), ("created_at", .int 0),
      ("created_by", .str "owner"), ("resources", .arr [])])]

theorem fits_pushed {number : Int} (h : inRange number = true) :
    Fits .none (pushed number) maxDepth := by
  have hzero : inRange 0 = true := rfl
  simp [pushed, maxDepth, Fits, FitsFields, FitsItems, h, hzero]

def arrives (number : Int) (h : inRange number = true) : Event .none :=
  .push ⟨0, false, true⟩ ⟨pushed number, fits_pushed h⟩

/-- **The first generation, the same again, the second, and the first once more**: three are
accepted. -/
theorem books_orderly_after_pushes : ∃ s,
    Run.exec (step site) ⟨unlink ⟨[], [], []⟩, []⟩
      [arrives 1 rfl, arrives 1 rfl, arrives 2 rfl, arrives 1 rfl] = some s
      ∧ s.accepted.map GenerationDocument.generation = [1, 1, 2]
      ∧ s.db.generations.map GenerationRow.generation = [1, 2] ∧ Orderly site s := by
  refine Run.end_and (by decide +kernel) fun s hrun _ => ⟨?_, books_orderly hrun⟩
  exact Run.of_end hrun (by decide +kernel)

end Sample

end Acceptance
