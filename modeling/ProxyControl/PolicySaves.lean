import ProxyControl.Checks
import ProxyControl.Policies

/-!
# Saving a routing policy

A policy is a row of `routing_policies` – its head – and one row of
`routing_rules` per rule. A save writes both in one transaction: it takes the
next revision, drops the rules that were there and writes the ones that were
sent, at the positions of the list. A rule that comes back with an id the policy
had keeps it, the first time the id occurs; every other rule gets one that is
drawn.

Authors who work at the same time do not overwrite each other because each sends
the revision they had read, and a save with another revision than the stored one
is refused. `saves_lose_nothing` is the sum of it, for every sequence of saves
that come between a read and a save: revisions count the saves that were
committed, so the save goes through only if there was none in between, and what
is read back is what was sent, in its order.

The ids that are drawn are any texts. That they are unused is not assumed: the
keys of the tables refuse one that is not.
-/

namespace Routing

open List
open Table
open Checks
open Reconciler (Protocol)

/-! ## The tables -/

/-- A rule as it is sent and read: what the compiler needs of it, and what only
the panel shows. On input the position is ignored. -/
structure FullRule extends RoutingRule where
  position : Nat
  note : String
  preset : Option String
deriving DecidableEq, Repr

inductive PolicyState
  | draft | applying | applied | failed | rolledBack
deriving DecidableEq, Repr

/-- A row of `routing_policies`. -/
structure PolicyRow where
  id : String
  nodeId : String
  protocol : Protocol
  lane : String
  backend : Backend
  defaultAction : DefaultAction
  defaultEgress : Option String
  fallback : Fallback
  revision : Int
  state : PolicyState
  appliedRevision : Option Int
  appliedDigest : Option String
  appliedAt : Option Int
  lastError : Option String
  createdAt : Int
  updatedAt : Int
deriving DecidableEq, Repr

/-- A row of `routing_rules`. -/
structure RuleRow where
  id : String
  policyId : String
  position : Nat
  enabled : Bool
  matchJson : String
  action : Action
  egress : Option String
  note : String
  preset : Option String
  createdAt : Int
  updatedAt : Int
deriving DecidableEq, Repr

structure PolicyTables where
  policies : List PolicyRow
  rules : List RuleRow
deriving DecidableEq, Repr

/-- The service or the lane a policy is for. -/
abbrev PolicyKey := String × Protocol × String

def PolicyRow.key (row : PolicyRow) : PolicyKey := (row.nodeId, row.protocol, row.lane)

/-- **What the schema enforces:** the primary keys, the uniqueness of a policy's
key, and the reference from a rule to its policy. -/
structure PolicyTables.Keyed (db : PolicyTables) : Prop where
  ids : (db.policies.map PolicyRow.id).Nodup
  keys : (db.policies.map PolicyRow.key).Nodup
  rules : (db.rules.map RuleRow.id).Nodup
  references : ∀ rule ∈ db.rules, rule.policyId ∈ db.policies.map PolicyRow.id

/-- How a matcher is written into its column and read from it. -/
structure MatchTexts where
  matchJson : RuleMatch → String
  validate : String → Except String RuleMatch

inductive StoreError
  | conflict (revision : Int)
  | invalid (message : String)
  | notFound (id : String)
  | failure (message : String)
deriving DecidableEq, Repr

/-! ## Reading -/

structure StoredPolicy where
  row : PolicyRow
  rules : List FullRule
deriving DecidableEq, Repr

def RuleRow.read (texts : MatchTexts) (row : RuleRow) : Except StoreError FullRule :=
  match texts.validate row.matchJson with
  | .error message => throw (.failure message)
  | .ok matcher =>
    pure ⟨⟨some row.id, row.enabled, matcher, row.action, row.egress⟩, row.position, row.note,
      row.preset⟩

namespace PolicyTables

/-- `rules`: those of a policy, by position. -/
def rulesOf (texts : MatchTexts) (db : PolicyTables) (policyId : String) :
    Except StoreError (List FullRule) :=
  ((db.rules.filter fun row => row.policyId = policyId).insertionSort
    fun a b => a.position ≤ b.position).mapM (RuleRow.read texts)

def getById (texts : MatchTexts) (db : PolicyTables) (id : String) :
    Except StoreError StoredPolicy :=
  match db.policies.find? fun row => row.id = id with
  | none => throw (.notFound id)
  | some row => do
    let rules ← db.rulesOf texts id
    return ⟨row, rules⟩

def current (db : PolicyTables) (key : PolicyKey) : Option PolicyRow :=
  db.policies.find? fun row => row.key = key

/-- The revision an author reads; 0 stands for a policy that is not there. -/
def revision (db : PolicyTables) (key : PolicyKey) : Int :=
  ((db.current key).map PolicyRow.revision).getD 0

end PolicyTables

/-! ## Writing -/

def backendFor : Protocol → Backend
  | .naive => .naiveNative
  | .mieru => .mieruNative
  | .mtproxy => .mtproxyNative
  | .trusttunnel => .trusttunnelNative
  | .amneziawg => .amneziawgNative

def backendsFor (protocol : Protocol) : List Backend := [backendFor protocol, .xrayRouter]

/-- **A call of `save`**, with the ids `uuid4` draws for it, and what the checks
of node and lane before the write say, where they refuse. -/
structure Save where
  nodeId : String
  protocol : Protocol
  lane : String
  backend : Option Backend
  defaultAction : DefaultAction
  defaultEgress : Option String
  fallback : Fallback
  rules : List FullRule
  expectedRevision : Option Int
  now : Int
  refusal : Option String
  policyId : String
  uuid4 : Nat → String

def Save.key (save : Save) : PolicyKey := (save.nodeId, save.protocol, save.lane)

def Save.checkBackend (save : Save) : Except StoreError Unit :=
  match save.backend with
  | some backend =>
    if backend ∈ backendsFor save.protocol then pure ()
    else throw (.invalid (save.protocol.asStr ++ " cannot run on " ++ backend.asStr))
  | none => pure ()

/-- The id a rule gets. -/
def ruleId (known used : List String) (sent : Option String) (drawn : String) : String :=
  match sent with
  | some id => if id ∈ known ∧ id ∉ used then id else drawn
  | none => drawn

/-- The rows a save writes, from a position on. -/
def Save.rows (texts : MatchTexts) (save : Save) (policyId : String) (known : List String) :
    List FullRule → Nat → List String → List RuleRow
  | [], _, _ => []
  | rule :: rest, position, used =>
    let id := ruleId known used rule.id (save.uuid4 position)
    ⟨id, policyId, position, rule.enabled, texts.matchJson rule.matcher, rule.action, rule.egress,
      rule.note, rule.preset, save.now, save.now⟩
      :: save.rows texts policyId known rest (position + 1) (used ++ [id])

/-- `INSERT INTO routing_rules`, under its two keys. -/
def insertRule (table : List RuleRow) (row : RuleRow) : Except StoreError (List RuleRow) :=
  if table.any fun other =>
      other.id = row.id || (other.policyId = row.policyId && other.position = row.position) then
    throw (.failure "UNIQUE constraint failed")
  else
    pure (table ++ [row])

namespace PolicyTables

/-- The head is written and the old rules are dropped: the policy's id, the ids
its rules had, and the tables. -/
def writeHead (db : PolicyTables) (save : Save) :
    Except StoreError (String × List String × PolicyTables) :=
  match db.current save.key with
  | none => do
    if save.expectedRevision.any (· ≠ 0) then throw (.conflict 0)
    if db.policies.any fun row => row.id = save.policyId then
      throw (.failure "UNIQUE constraint failed")
    let row : PolicyRow :=
      { id := save.policyId, nodeId := save.nodeId, protocol := save.protocol, lane := save.lane
        backend := save.backend.getD (backendFor save.protocol)
        defaultAction := save.defaultAction, defaultEgress := save.defaultEgress
        fallback := save.fallback, revision := 1, state := .draft, appliedRevision := none
        appliedDigest := none, appliedAt := none, lastError := none
        createdAt := save.now, updatedAt := save.now }
    return (save.policyId, [], { db with policies := db.policies ++ [row] })
  | some row => do
    if save.expectedRevision.any (· ≠ row.revision) then throw (.conflict row.revision)
    let change (other : PolicyRow) : PolicyRow :=
      { other with
        backend := save.backend.getD row.backend, defaultAction := save.defaultAction
        defaultEgress := save.defaultEgress, fallback := save.fallback
        revision := row.revision + 1, updatedAt := save.now }
    return (row.id, (db.rules.filter fun rule => rule.policyId = row.id).map RuleRow.id,
      { policies := db.policies.map fun other => if other.id = row.id then change other else other
        rules := db.rules.filter fun rule => rule.policyId ≠ row.id })

def upsert (texts : MatchTexts) (db : PolicyTables) (save : Save) :
    Except StoreError (StoredPolicy × PolicyTables) := do
  save.checkBackend
  let (policyId, known, head) ← db.writeHead save
  let rules ← (save.rows texts policyId known save.rules 0 []).foldlM insertRule head.rules
  let after := { head with rules := rules }
  let policy ← after.getById texts policyId
  return (policy, after)

/-- One transaction, undone where anything in it fails. -/
def save (texts : MatchTexts) (db : PolicyTables) (save : Save) :
    Except StoreError StoredPolicy × PolicyTables :=
  match save.refusal with
  | some message => (.error (.failure message), db)
  | none =>
    match db.upsert texts save with
    | .ok (policy, after) => (.ok policy, after)
    | .error error => (.error error, db)

def run (texts : MatchTexts) (db : PolicyTables) (saves : List Save) : PolicyTables :=
  saves.foldl (fun db save => (db.save texts save).2) db

/-- The saves of a run that were committed. -/
def committed (texts : MatchTexts) : PolicyTables → List Save → List Save
  | _, [] => []
  | db, save :: rest =>
    let (result, after) := db.save texts save
    if result.isOk then save :: after.committed texts rest else after.committed texts rest

end PolicyTables

variable {texts : MatchTexts} {call : Save} {policyId : String} {known used : List String}
  {rules : List FullRule} {position : Nat}

/-! ## The rules -/

/-- A rule that was read is the one that was sent, with the id and the position
it has been given and the matcher its column stands for. -/
def ReadsBack (texts : MatchTexts) (sent read : FullRule) : Prop :=
  texts.validate (texts.matchJson sent.matcher) = .ok read.matcher
    ∧ read = { sent with id := read.id, matcher := read.matcher, position := read.position }

/-- The rows of a save are read as what was sent, at the positions of the list. -/
theorem read_rows {read : List FullRule}
    (h : (call.rows texts policyId known rules position used).mapM (RuleRow.read texts)
      = .ok read) :
    List.Forall₂ (ReadsBack texts) rules read ∧ read.map (·.id)
          = ((call.rows texts policyId known rules position used).map RuleRow.id).map some
      ∧ read.map (·.position) = List.range' position rules.length := by
  induction rules generalizing position used read with
  | nil =>
    obtain rfl := pure_eq_ok.mp h
    exact ⟨.nil, rfl, rfl⟩
  | cons rule rest ih =>
    rw [Save.rows, mapM_cons] at h
    obtain ⟨first, hfirst, h⟩ := bind_eq_ok.mp h
    obtain ⟨others, hothers, h⟩ := bind_eq_ok.mp h
    obtain rfl := pure_eq_ok.mp h
    obtain ⟨hrest, hids, hpos⟩ := ih hothers
    unfold RuleRow.read at hfirst
    split at hfirst
    · cases hfirst
    next hval =>
      cases hfirst
      refine ⟨.cons ⟨hval, rfl⟩ hrest, ?_, ?_⟩
      · rw [map_cons, hids]
        rfl
      · rw [map_cons, hpos]
        rfl

theorem policyId_of_mem_rows {row : RuleRow}
    (h : row ∈ call.rows texts policyId known rules position used) :
    row.policyId = policyId ∧ position ≤ row.position := by
  induction rules generalizing position used with
  | nil => cases h
  | cons rule rest ih =>
    rcases mem_cons.mp h with rfl | h
    · exact ⟨rfl, Nat.le_refl _⟩
    · exact ⟨(ih h).1, Nat.le_of_succ_le (ih h).2⟩

theorem rows_sorted (rules : List FullRule) (position : Nat) (used : List String) :
    (call.rows texts policyId known rules position used).Pairwise
      fun a b => a.position ≤ b.position := by
  induction rules generalizing position used with
  | nil => exact .nil
  | cons rule rest ih =>
    exact .cons (fun row hrow => Nat.le_of_succ_le (policyId_of_mem_rows hrow).2) (ih _ _)

/-- A known id that comes back is kept where it comes first, unless a draw is
that very id. -/
theorem rows_keep {x : String} {rule : FullRule} (hknown : x ∈ known) (hrule : rule.id = some x)
    (hdraw : ∀ n, call.uuid4 n ≠ x) (rest before : List FullRule) (position : Nat)
    (used : List String) (hused : x ∉ used) (hbef : ∀ other ∈ before, other.id ≠ some x) :
    ((call.rows texts policyId known (before ++ rule :: rest) position used).map
      RuleRow.id)[before.length]? = some x := by
  induction before generalizing position used with
  | nil => simp [Save.rows, ruleId, hrule, hknown, hused]
  | cons other before ih =>
    refine ih _ _ ?_ fun r hr => hbef r (mem_cons_of_mem _ hr)
    have hid : ruleId known used other.id (call.uuid4 position) ≠ x := by
      have hother := hbef other mem_cons_self
      have hpos := hdraw position
      unfold ruleId
      grind
    simpa [hused] using Ne.symm hid

theorem insertRules_spec {rows table table' : List RuleRow}
    (h : rows.foldlM insertRule table = .ok table') :
    table' = table ++ rows ∧ ((table.map RuleRow.id).Nodup → (table'.map RuleRow.id).Nodup) := by
  induction rows generalizing table with
  | nil =>
    obtain rfl := pure_eq_ok.mp h
    exact ⟨(append_nil _).symm, id⟩
  | cons row rows ih =>
    rw [foldlM_cons] at h
    obtain ⟨next, hnext, h⟩ := bind_eq_ok.mp h
    obtain ⟨hfree, hpure⟩ := check_eq_ok.mp hnext
    obtain rfl := pure_eq_ok.mp hpure
    obtain ⟨rfl, hids⟩ := ih h
    refine ⟨by simp, fun hnd => hids ?_⟩
    have hnew : row.id ∉ table.map RuleRow.id := by
      grind
    simpa [nodup_append] using ⟨hnd, fun a ha heq => hnew (heq ▸ mem_map_of_mem ha)⟩

/-! ## The head -/

namespace PolicyTables

variable {db after head : PolicyTables}

/-- What the tables are once the head is written. -/
structure Headed (db : PolicyTables) (call : Save) (policyId : String) (known : List String)
    (head : PolicyTables) : Prop where
  keyed : head.Keyed
  row : ∃ row ∈ head.policies, row.id = policyId ∧ row.key = call.key
  dropped : ∀ rule ∈ head.rules, rule.policyId ≠ policyId
  known : known = (db.rules.filter fun rule => rule.policyId = policyId).map RuleRow.id
  revision : ∀ key, head.revision key = db.revision key + if key = call.key then 1 else 0
  expected : ∀ r, call.expectedRevision = some r → r = db.revision call.key

theorem mem_of_current {key : PolicyKey} {row : PolicyRow} (h : db.current key = some row) :
    row ∈ db.policies ∧ row.key = key :=
  ⟨mem_of_find?_eq_some h, by simpa using find?_some h⟩

/-- A policy that was not there. -/
theorem headed_of_new (hk : db.Keyed) {row : PolicyRow} (hid : row.id = policyId)
    (hkey : row.key = call.key) (hrev : row.revision = 1) (hnone : db.current call.key = none)
    (hfree : ∀ other ∈ db.policies, other.id ≠ policyId)
    (hexp : ∀ r, call.expectedRevision = some r → r = 0) :
    Headed db call policyId [] { db with policies := db.policies ++ [row] } := by
  have hno : ∀ rule ∈ db.rules, rule.policyId ≠ policyId := by
    intro rule hrule heq
    obtain ⟨other, hother, href⟩ := mem_map.mp (hk.references rule hrule)
    exact hfree other hother (href.trans heq)
  have hkeys : ∀ other ∈ db.policies, other.key ≠ call.key := by
    simpa [current] using hnone
  refine ⟨⟨?_, ?_, hk.rules, fun rule hrule => ?_⟩, ⟨row, by simp, hid, hkey⟩, hno, ?_, ?_, ?_⟩
  · rw [map_append]
    refine hk.ids.append (nodup_singleton _) ?_
    simpa [hid] using hfree
  · rw [map_append]
    refine hk.keys.append (nodup_singleton _) ?_
    simpa [hkey] using hkeys
  · exact map_append ▸ mem_append_left _ (hk.references rule hrule)
  · rw [filter_eq_nil_iff.mpr (by simpa using hno), map_nil]
  · intro key
    unfold current at hnone
    simp only [revision, current, find?_append, find?_singleton]
    by_cases h : key = call.key
    · simp [h, hnone, hkey, hrev]
    · simp [h, hkey, Ne.symm h]
  · intro r hr
    simp [revision, hnone, hexp r hr]

/-- A policy that is changed. -/
theorem headed_of_change (hk : db.Keyed) {row : PolicyRow} {f : PolicyRow → PolicyRow}
    (hrow : db.current call.key = some row) (hid : ∀ other, (f other).id = other.id)
    (hkey : ∀ other, (f other).key = other.key) (hrev : (f row).revision = row.revision + 1)
    (hsame : ∀ other, other.id ≠ row.id → f other = other)
    (hexp : ∀ r, call.expectedRevision = some r → r = row.revision) :
    Headed db call row.id ((db.rules.filter fun rule => rule.policyId = row.id).map RuleRow.id)
      ⟨db.policies.map f, db.rules.filter fun rule => rule.policyId ≠ row.id⟩ := by
  obtain ⟨hmem, hcall⟩ := mem_of_current hrow
  have hids : (db.policies.map f).map PolicyRow.id = db.policies.map PolicyRow.id :=
    map_map.trans (map_congr_left fun other _ => hid other)
  have hkeys : (db.policies.map f).map PolicyRow.key = db.policies.map PolicyRow.key :=
    map_map.trans (map_congr_left fun other _ => hkey other)
  refine ⟨⟨?_, ?_, hk.rules.sublist (filter_sublist.map _), fun rule hrule => ?_⟩,
    ⟨f row, mem_map_of_mem hmem, hid row, (hkey row).trans hcall⟩, fun rule hrule => ?_, rfl,
    fun key => ?_, fun r hr => ?_⟩
  · rw [hids]
    exact hk.ids
  · rw [hkeys]
    exact hk.keys
  · rw [hids]
    exact hk.references rule (mem_filter.mp hrule).1
  · simpa using (mem_filter.mp hrule).2
  · rw [revision, current, find?_map_of_key _ hkey, revision, ← current]
    by_cases h : key = call.key
    · simp [h, hrow, hrev]
    · cases hcur : db.current key with
      | none => simp [h]
      | some other =>
        have hne : other.id ≠ row.id := fun heq =>
          h ((mem_of_current hcur).2.symm.trans
            (inj_on_of_nodup_map hk.ids (mem_of_current hcur).1 hmem heq ▸ hcall))
        simp [h, hsame other hne]
  · simp [revision, hrow, hexp r hr]

theorem headed_of_writeHead (hk : db.Keyed) (h : db.writeHead call = .ok (policyId, known, head)) :
    Headed db call policyId known head := by
  unfold writeHead at h
  split at h
  next hnone =>
    obtain ⟨hexp, h⟩ := check_eq_ok.mp h
    obtain ⟨hfree, h⟩ := check_eq_ok.mp h
    cases h
    refine headed_of_new hk rfl rfl rfl hnone ?_ fun r hr => ?_
    · simpa using hfree
    · simpa [hr] using hexp
  next row hrow =>
    obtain ⟨hexp, h⟩ := check_eq_ok.mp h
    cases h
    refine headed_of_change hk hrow (fun other => ?_) (fun other => ?_) ?_ (fun other hne => ?_)
      fun r hr => ?_
    · split <;> rfl
    · split <;> rfl
    · rw [if_pos rfl]
    · exact if_neg hne
    · simpa [hr] using hexp

/-! ## Saves that were committed -/

/-- **What a committed save did.** -/
structure Saved (texts : MatchTexts) (db : PolicyTables) (call : Save) (policy : StoredPolicy)
    (after : PolicyTables) : Prop where
  keyed : after.Keyed
  /-- It is the next revision of this policy, and of no other. -/
  revision : ∀ key, after.revision key = db.revision key + if key = call.key then 1 else 0
  /-- An expected revision was the stored one. -/
  expected : ∀ r, call.expectedRevision = some r → r = db.revision call.key
  /-- What is returned is what is read from now on. -/
  read : after.getById texts policy.row.id = .ok policy
  head : after.current call.key = some policy.row
  rules : List.Forall₂ (ReadsBack texts) call.rules policy.rules
  positions : policy.rules.map (·.position) = List.range call.rules.length
  unique : (policy.rules.map (·.id)).Nodup
  /-- A rule of the policy that is sent again keeps its id, the first time the id
  occurs, unless an id that was drawn is the same. -/
  kept : ∀ x before rule rest, call.rules = before ++ rule :: rest → rule.id = some x →
    (∃ row ∈ db.rules, row.policyId = policy.row.id ∧ row.id = x) →
    (∀ other ∈ before, other.id ≠ some x) → (∀ n, call.uuid4 n ≠ x) →
    (policy.rules.map (·.id))[before.length]? = some (some x)

theorem upsert_eq_ok {policy : StoredPolicy} (h : db.upsert texts call = .ok (policy, after)) :
    ∃ policyId known head rules, db.writeHead call = .ok (policyId, known, head)
      ∧ (call.rows texts policyId known call.rules 0 []).foldlM insertRule head.rules = .ok rules
      ∧ after = { head with rules := rules } ∧ after.getById texts policyId = .ok policy := by
  obtain ⟨⟨⟩, -, h⟩ := bind_eq_ok.mp h
  obtain ⟨⟨policyId, known, head⟩, hhead, h⟩ := bind_eq_ok.mp h
  obtain ⟨rules, hrules, h⟩ := bind_eq_ok.mp h
  obtain ⟨read, hget, h⟩ := bind_eq_ok.mp h
  cases h
  exact ⟨policyId, known, head, rules, hhead, hrules, rfl, hget⟩

theorem saved_of_upsert (hk : db.Keyed) {policy : StoredPolicy}
    (h : db.upsert texts call = .ok (policy, after)) : Saved texts db call policy after := by
  obtain ⟨policyId, known, head, rules, hhead, hrules, rfl, hget⟩ := upsert_eq_ok h
  have hd := headed_of_writeHead hk hhead
  obtain ⟨rfl, hnodup⟩ := insertRules_spec hrules
  obtain ⟨row, hrow, rfl, hkey⟩ := hd.row
  have hfind := find?_of_mem PolicyRow.id hd.keyed.ids hrow
  have hcur := find?_of_mem PolicyRow.key hd.keyed.keys hrow
  have hof : (head.rules ++ call.rows texts row.id known call.rules 0 []).filter
      (fun rule => rule.policyId = row.id) = call.rows texts row.id known call.rules 0 [] := by
    rw [filter_append, filter_eq_nil_iff.mpr (by simpa using hd.dropped),
      nil_append, filter_eq_self.mpr]
    exact fun rule hrule => decide_eq_true (policyId_of_mem_rows hrule).1
  have hread := hget
  simp only [getById, hfind, rulesOf, hof, (rows_sorted ..).insertionSort_eq] at hread
  obtain ⟨read, hmap, hpure⟩ := bind_eq_ok.mp hread
  obtain rfl := pure_eq_ok.mp hpure
  obtain ⟨hback, hids, hpos⟩ := read_rows hmap
  have hkeyed := hnodup hd.keyed.rules
  refine ⟨⟨hd.keyed.ids, hd.keyed.keys, hkeyed, fun rule hrule => ?_⟩, hd.revision, hd.expected,
    hget, hkey ▸ hcur, hback, hpos.trans range_eq_range'.symm, ?_, ?_⟩
  · rcases mem_append.mp hrule with hrule | hrule
    · exact hd.keyed.references rule hrule
    · rw [(policyId_of_mem_rows hrule).1]
      exact mem_map_of_mem hrow
  · show (read.map (·.id)).Nodup
    rw [hids]
    rw [map_append] at hkeyed
    exact hkeyed.of_append_right.map fun a b h => Option.some.inj h
  · intro x before rule rest hsent hrule hx hbef hdraw
    obtain ⟨old, hold, hpol, hid⟩ := hx
    show (read.map (·.id))[before.length]? = _
    have hknown : x ∈ known := by
      rw [hd.known]
      exact hid ▸ mem_map_of_mem (mem_filter.mpr ⟨hold, decide_eq_true hpol⟩)
    rw [hids, hsent, getElem?_map, rows_keep hknown hrule hdraw rest before 0 [] not_mem_nil hbef]
    rfl

theorem save_cases (texts : MatchTexts) (db : PolicyTables) (call : Save) :
    (∃ policy after, db.save texts call = (.ok policy, after)
      ∧ db.upsert texts call = .ok (policy, after))
    ∨ ∃ error, db.save texts call = (.error error, db) := by
  unfold save
  split
  · exact .inr ⟨_, rfl⟩
  · split
    next policy after h => exact .inl ⟨policy, after, rfl, h⟩
    · exact .inr ⟨_, rfl⟩

/-- Revisions count the saves that were committed. -/
theorem run_spec (hk : db.Keyed) (saves : List Save) :
    (db.run texts saves).Keyed ∧ ∀ key, (db.run texts saves).revision key
      = db.revision key + ((db.committed texts saves).filter fun save => save.key = key).length := by
  induction saves generalizing db with
  | nil => exact ⟨hk, fun key => (Int.add_zero _).symm⟩
  | cons call saves ih =>
    rcases save_cases texts db call with ⟨policy, after, hsave, hok⟩ | ⟨error, hsave⟩
    · have hd := saved_of_upsert hk hok
      obtain ⟨hkeyed, hrev⟩ := ih hd.keyed
      have hrun : db.run texts (call :: saves) = after.run texts saves := by
        simp [run, hsave]
      have hcom : db.committed texts (call :: saves) = call :: after.committed texts saves := by
        simp [committed, hsave, Except.isOk, Except.toBool]
      refine ⟨hrun ▸ hkeyed, fun key => ?_⟩
      rw [hrun, hcom, hrev, hd.revision, filter_cons]
      by_cases h : key = call.key
      · simp [h]
        omega
      · simp [h, Ne.symm h]
    · have hrun : db.run texts (call :: saves) = db.run texts saves := by
        simp [run, hsave]
      have hcom : db.committed texts (call :: saves) = db.committed texts saves := by
        simp [committed, hsave, Except.isOk, Except.toBool]
      rw [hrun, hcom]
      exact ih hk

/-- **Optimistic saves lose nothing.** An author reads a policy from any tables
the schema allows, others save whatever they like, and then the author saves.
The revision of every policy has grown by the number of its committed saves, and
where the author's save is committed it did what `Saved` says; and if it carried
the revision that was read, no other save of the policy was committed since. -/
theorem saves_lose_nothing (texts : MatchTexts) (hk : db.Keyed) (saves : List Save) (call : Save) :
    (db.run texts saves).Keyed
      ∧ (∀ key, (db.run texts saves).revision key = db.revision key
          + ((db.committed texts saves).filter fun save => save.key = key).length)
      ∧ ∀ policy after, (db.run texts saves).save texts call = (.ok policy, after) →
          Saved texts (db.run texts saves) call policy after
          ∧ (call.expectedRevision = some (db.revision call.key) →
              ∀ other ∈ db.committed texts saves, other.key ≠ call.key) := by
  obtain ⟨hkeyed, hrev⟩ := run_spec hk saves
  refine ⟨hkeyed, hrev, fun policy after h => ?_⟩
  rcases save_cases texts (db.run texts saves) call with ⟨p, a, hsave, hok⟩ | ⟨error, hsave⟩
  · obtain ⟨hp, rfl⟩ := Prod.mk.inj (h.symm.trans hsave)
    obtain rfl := Except.ok.inj hp
    have hd := saved_of_upsert hkeyed hok
    refine ⟨hd, fun hexp other hother heq => ?_⟩
    have hcount := (hd.expected _ hexp).trans (hrev call.key)
    have hmem : other ∈ (db.committed texts saves).filter fun save => save.key = call.key :=
      List.mem_filter.mpr ⟨hother, decide_eq_true heq⟩
    have hpos := List.length_pos_of_mem hmem
    omega
  · cases (Prod.mk.inj (h.symm.trans hsave)).1

end PolicyTables

namespace Sample

/-- A matcher of one port. -/
def ofPort (port : Nat) : RuleMatch := ⟨[], [], [.one port], [], [], []⟩

/-- A matcher of one port is written as the digits of the port. -/
def portTexts : MatchTexts where
  matchJson matcher :=
    match matcher.ports with
    | [.one port] => String.ofList (Nat.toDigits 10 port.toNat)
    | _ => ""
  validate text :=
    if text = "" then .error "no port" else .ok (ofPort (Nat.ofDigitChars 10 text.toList 0))

example (port : Nat) :
    portTexts.validate (portTexts.matchJson (ofPort port)) = .ok (ofPort port) := by
  simp [portTexts, ofPort]

/-- The policy as it was saved first, with one rule. -/
def savedOnce : PolicyTables where
  policies := [⟨"p", "local", .naive, "svc", .naiveNative, .direct, none, .failClosed, 1, .draft,
    none, none, none, none, 10, 10⟩]
  rules := [⟨"r", "p", 0, true, "443", .block, none, "", none, 10, 10⟩]

/-- The rule is sent again, after a new one. -/
def secondSave : Save where
  nodeId := "local"
  protocol := .naive
  lane := "svc"
  backend := none
  defaultAction := .direct
  defaultEgress := none
  fallback := .failClosed
  rules := [⟨⟨none, true, ofPort 80, .block, none⟩, 0, "", none⟩,
    ⟨⟨some "r", true, ofPort 443, .block, none⟩, 0, "", none⟩]
  expectedRevision := some 1
  now := 20
  refusal := none
  policyId := "q"
  uuid4 := fun n => if n = 0 then "n" else "m"

/-- A save that is sent twice is committed once. -/
theorem saves_lose_nothing_repeated :
    savedOnce.Keyed ∧ (savedOnce.run portTexts [secondSave]).revision secondSave.key = 2
      ∧ ∀ policy after, (savedOnce.run portTexts [secondSave]).save portTexts secondSave
          ≠ (.ok policy, after) := by
  have hk : savedOnce.Keyed := ⟨by decide, by decide, by decide, by decide⟩
  have hcom : savedOnce.committed portTexts [secondSave] = [secondSave] := rfl
  obtain ⟨-, hrev, hsaved⟩ :=
    PolicyTables.saves_lose_nothing portTexts hk [secondSave] secondSave
  rw [hcom] at hrev hsaved
  refine ⟨hk, hrev secondSave.key, fun policy after h => ?_⟩
  exact (hsaved policy after h).2 rfl secondSave List.mem_cons_self rfl

end Sample

end Routing
