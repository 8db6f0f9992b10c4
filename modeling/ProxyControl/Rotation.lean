import ProxyControl.Keyrings
import ProxyControl.MieruKeeper
import ProxyControl.NaiveKeeper

/-!
# Rotations through the panel

The panel keeps a grant for every account and, under the grant's reference, the
plaintext of its credential – the escrow. To rotate the credential of a
NaiveProxy or Mieru account it chooses a new password, has the manager set it,
and stores it as the next version of the secret.

The request to the manager carries an id made of the grant and the clock, in
seconds, and the adapter sends it a second time where the first one fails: the
manager may have carried it out and its answer be lost. The adapter then reports
the password it sent, whatever the manager answered. That is right for as long
as the manager does not know the id: then it sets the password the first time or
the second. Where it knows the id – from an earlier rotation in the same second –
it answers from memory and sets nothing (`Replays`).
-/

namespace Rotation

open Table
open Keyrings (SecretState)
open Ledger (Keeper Memory)

variable {σ ε η : Type}

/-! ## The adapters -/

/-- **A manager as its adapter uses it.** `η` is what an attempt meets on its
way. -/
structure Adapter (σ ε η : Type) where
  keeper : Keeper σ ε String String String
  memory : Memory keeper
  /-- The request to rotate, from its id, the user name and the password; `none`
  where something it needs cannot be read from the manager. -/
  request : η → String → String → String → Option ε
  ask_request : ∀ {way op username password e}, request way op username password = some e →
    keeper.ask e = some ⟨username, some op, some password⟩
  /-- The error where that cannot be read. -/
  unavailable : String
  /-- The error where the manager refuses. The codes that would ask for a person
  do not pass the manager's client. -/
  refused : String

/-- One attempt to send a request. -/
structure Attempt (η : Type) where
  meets : η
  /-- The request reaches the manager. -/
  reached : Bool
  /-- The manager's answer reaches the panel. -/
  answered : Bool

variable (A : Adapter σ ε η)

/-- Send a request; whether a success came back. -/
def Adapter.send (s : σ) (e : ε) (t : Attempt η) : σ × Bool :=
  if t.reached then (A.keeper.next s e, t.answered && A.keeper.succeeds s e) else (s, false)

/-- The second attempt of a rotation. -/
def Adapter.rotateAgain (s : σ) (operationId username password : String) (t : Attempt η) :
    σ × Except String String :=
  match A.request t.meets operationId username password with
  | none => (s, .error A.unavailable)
  | some e =>
    match A.send s e t with
    | (s', true) => (s', .ok password)
    | (s', false) => (s', .error A.refused)

/-- `rotate` of the adapters: the credential that was sent. -/
def Adapter.rotate (s : σ) (operationId username password : String) (first second : Attempt η) :
    σ × Except String String :=
  match A.request first.meets operationId username password with
  | none => (s, .error A.unavailable)
  | some e =>
    match A.send s e first with
    | (s', true) => (s', .ok password)
    | (s', false) => A.rotateAgain s' operationId username password second

/-- `NaiveAdapter`. -/
def naiveAdapter (site : Naive.Site) :
    Adapter Naive.Manager (Naive.Env × Naive.Call) Naive.Env where
  keeper := Naive.keeper site
  memory := Naive.memory site
  request env op username password := some (env, .rotate username (some password) (some op))
  ask_request h := by
    cases h
    rfl
  unavailable := "NaiveProxy manager unavailable"
  refused := "NaiveProxy refused the request"

/-- What a request to the Mieru manager meets: the revision that was read, where
it could be, and what the manager meets. -/
structure MieruWay (Digest Section Doc : Type) where
  revision : Option Digest
  env : Mieru.Env Section Doc
  outcome : Run.Outcome
  failure : Mieru.Error

/-- `MieruAdapter`: the revision is read before each attempt. -/
def mieruAdapter {Digest Section Rest Doc : Type} [DecidableEq Digest] [DecidableEq Doc]
    (site : Mieru.Site Digest Section Rest Doc) :
    Adapter (Mieru.World site) (Mieru.Arrival Digest Section Doc)
      (MieruWay Digest Section Doc) where
  keeper := Mieru.keeper site
  memory := Mieru.memory site
  request way op username password := way.revision.map fun revision =>
    ⟨way.env, .rotate username revision (some password) (some op), way.outcome, way.failure⟩
  ask_request h := by
    obtain ⟨revision, _, rfl⟩ := Option.map_eq_some_iff.mp h
    rfl
  unavailable := "Mieru manager unavailable"
  refused := "Mieru manager refused the request"

/-! ## The panel -/

structure SecretRef where
  secretId : String
  version : Int
deriving DecidableEq, Repr

/-- What is kept under a version. -/
structure Secret where
  plaintext : String
  state : SecretState
deriving DecidableEq, Repr

/-- The grant of an account. -/
structure Grant where
  id : String
  secretRef : Option SecretRef
deriving DecidableEq, Repr

/-- **The panel's side of one account**, and its manager. -/
structure Panel (σ : Type) where
  /-- The account belongs to a central panel. -/
  managed : Bool
  grant : Option Grant
  /-- `secret_versions`. -/
  secrets : List (SecretRef × Secret)
  manager : σ

/-- The plaintext of the version the grant names. -/
def Panel.escrowed (p : Panel σ) : Option String :=
  ((p.grant.bind Grant.secretRef).bind (find p.secrets)).map Secret.plaintext

/-- `secret_id` of a grant. -/
def secretId (grantId : String) : String := "grant:" ++ grantId

/-- The next version of a grant's secret. -/
def nextRef (secrets : List (SecretRef × Secret)) (grantId : String) : SecretRef :=
  ⟨secretId grantId, (((secrets.filter fun e => e.1.secretId = secretId grantId).map
    fun e => e.1.version).max?).getD 0 + 1⟩

/-- The next version, active at once; the one it replaces is
revoked, and must be there. -/
def Panel.storeCredential (p : Panel σ) (grant : Grant) (plaintext : String) : Option (Panel σ) :=
  let ref := nextRef p.secrets grant.id
  let secrets := put p.secrets ref ⟨plaintext, .active⟩
  let grant' := { grant with secretRef := some ref }
  match grant.secretRef with
  | none => some { p with grant := some grant', secrets }
  | some previous =>
    match find secrets previous with
    | none => none
    | some secret =>
      some { p with
        grant := some grant'
        secrets := put secrets previous { secret with state := .revoked } }

/-- What a rotation meets. -/
structure Env (η : Type) where
  /-- The clock, in seconds. -/
  now : Int
  /-- `new_credential`. -/
  credential : String
  /-- The id of a new grant, and whether it can be inserted. -/
  grantId : String
  imports : Bool
  first : Attempt η
  second : Attempt η
  /-- The escrow's transaction is committed. -/
  commits : Bool

inductive Error
  | managedByCentral
  | database
  | adapter (message : String)
  | secretUnavailable
deriving DecidableEq, Repr

/-- The id a rotation is sent under. -/
def operationId (grantId : String) (now : Int) : String :=
  "rotate:" ++ grantId ++ ":" ++ toString now

/-- The grant a rotation is for: the account's, or a new one. -/
def Panel.grantFor (p : Panel σ) (env : Env η) : Grant := p.grant.getD ⟨env.grantId, none⟩

/-- `touch_import`, where there is no grant. -/
def Panel.touchImport (p : Panel σ) (env : Env η) : Panel σ := { p with grant := some (p.grantFor env) }

/-- **`DomainFacade::rotate`** of an account. -/
def rotate (username : String) (p : Panel σ) (env : Env η) : Panel σ × Except Error String :=
  if p.managed then (p, .error .managedByCentral)
  else if p.grant.isNone && ! env.imports then (p, .error .database)
  else
    let grant := p.grantFor env
    let p := p.touchImport env
    match A.rotate p.manager (operationId grant.id env.now) username env.credential env.first
        env.second with
    | (s, .error message) => ({ p with manager := s }, .error (.adapter message))
    | (s, .ok credential) =>
      let p := { p with manager := s }
      if ! env.commits then (p, .error .database)
      else
        match p.storeCredential grant credential with
        | none => (p, .error .secretUnavailable)
        | some p' => (p', .ok credential)

/-- What happens next: a rotation, or something at the manager. -/
inductive Event (ε η : Type)
  | rotate (env : Env η)
  | manager (e : ε)

/-- What an event does. -/
def step (username : String) (p : Panel σ) : Event ε η → Option (Panel σ)
  | .rotate env => some (rotate A username p env).1
  | .manager e => some { p with manager := A.keeper.next p.manager e }

/-! ## The escrow -/

variable {p p' : Panel σ} {plaintext : String} {grant : Grant}

/-- What is stored is what the grant names then. -/
theorem escrowed_storeCredential (h : p.storeCredential grant plaintext = some p') :
    p'.escrowed = some plaintext := by
  unfold Panel.storeCredential at h
  dsimp only at h
  split at h
  · cases h
    show (find (put _ _ _) _).map Secret.plaintext = _
    rw [find_put_self]
    rfl
  · split at h
    · cases h
    next sec hf =>
      cases h
      show (find (put _ _ _) _).map Secret.plaintext = _
      rw [find_put]
      split
      next heq =>
        rw [← heq, find_put_self] at hf
        cases hf
        rfl
      · rw [find_put_self]
        rfl

theorem manager_storeCredential (h : p.storeCredential grant plaintext = some p') :
    p'.manager = p.manager := by
  unfold Panel.storeCredential at h
  dsimp only at h
  repeat' split at h
  all_goals cases h <;> rfl

/-! ## Attempts -/

variable {A} {s s' : σ} {t : Attempt η} {username : String}

theorem valid_send (hval : A.keeper.Valid s) (e : ε) (t : Attempt η) :
    A.keeper.Valid (A.send s e t).1 := by
  unfold Adapter.send
  split
  · exact A.keeper.valid_next e hval
  · exact hval

/-- A request that came back with a success reached the manager and succeeded. -/
theorem of_send_eq_true {e : ε} (h : A.send s e t = (s', true)) :
    s' = A.keeper.next s e ∧ A.keeper.succeeds s e = true := by
  unfold Adapter.send at h
  split at h
  · obtain ⟨hs, hok⟩ := Prod.mk.injEq .. ▸ h
    exact ⟨hs.symm, (Bool.and_eq_true_iff.mp hok).2⟩
  · cases h

/-- A request that did not come back left the manager alone, or reached it. -/
theorem of_send {e : ε} {b : Bool} (h : A.send s e t = (s', b)) :
    s' = s ∨ s' = A.keeper.next s e := by
  unfold Adapter.send at h
  split at h
  · exact .inr (congrArg Prod.fst h).symm
  · exact .inl (congrArg Prod.fst h).symm

theorem valid_rotate (hval : A.keeper.Valid s) (op username pw : String)
    (first second : Attempt η) :
    A.keeper.Valid (A.rotate s op username pw first second).1 := by
  unfold Adapter.rotate
  split
  · exact hval
  next e _ =>
    have hsend := valid_send hval e first
    split
    next hs =>
      rw [hs] at hsend
      exact hsend
    next s' hs =>
      rw [hs] at hsend
      unfold Adapter.rotateAgain
      split
      · exact hsend
      next e' _ =>
        have hsend' := valid_send hsend e' second
        split
        next hs' =>
          rw [hs'] at hsend'
          exact hsend'
        next hs' =>
          rw [hs'] at hsend'
          exact hsend'

/-- **A rotation under an id the manager does not know** reports the password the
user has. -/
theorem holds_of_rotate {op pw c : String} {first second : Attempt η}
    (hval : A.keeper.Valid s) (hnew : ¬ A.memory.Recorded s op)
    (h : A.rotate s op username pw first second = (s', .ok c)) :
    A.keeper.Holds s' username c := by
  unfold Adapter.rotate at h
  split at h
  · cases h
  next e he =>
    have hask := A.ask_request he
    split at h
    next hs =>
      cases h
      obtain ⟨rfl, hok⟩ := of_send_eq_true hs
      exact A.memory.holds_of_new hval hask rfl rfl hnew hok
    next s₁ hs =>
      unfold Adapter.rotateAgain at h
      split at h
      · cases h
      next e' he' =>
        have hask' := A.ask_request he'
        split at h
        next hs' =>
          cases h
          obtain ⟨rfl, hok⟩ := of_send_eq_true hs'
          -- The first request had no effect at all, or is the same as the second.
          rcases of_send hs with rfl | rfl
          · exact A.memory.holds_of_new hval hask' rfl rfl hnew hok
          · exact A.memory.holds_of_retry hval hask hask' rfl rfl hnew hok
        · cases h

/-! ## Runs -/

theorem valid_step {e : Event ε η} (hval : A.keeper.Valid p.manager)
    (h : step A username p e = some p') : A.keeper.Valid p'.manager := by
  cases e with
  | manager e =>
    cases h
    exact A.keeper.valid_next e hval
  | rotate env =>
    cases h
    unfold rotate
    split
    · exact hval
    · split
      · exact hval
      · have hrot := valid_rotate hval
          (operationId (p.grantFor env).id env.now) username env.credential env.first env.second
        dsimp only
        split
        next heq =>
          rw [show (p.touchImport env).manager = p.manager from rfl] at heq
          rw [heq] at hrot
          exact hrot
        next s c heq =>
          rw [show (p.touchImport env).manager = p.manager from rfl] at heq
          rw [heq] at hrot
          split
          · exact hrot
          · split
            · exact hrot
            next hsto =>
              rw [manager_storeCredential hsto]
              exact hrot

/-- **The escrow is what the manager has**, after a rotation under an id the
manager did not know. -/
theorem escrow_of_new {env : Env η} {c : String} (hval : A.keeper.Valid p.manager)
    (hnew : ¬ A.memory.Recorded p.manager (operationId (p.grantFor env).id env.now))
    (h : rotate A username p env = (p', .ok c)) :
    p'.escrowed = some c ∧ A.keeper.Holds p'.manager username c := by
  unfold rotate at h
  split at h
  · cases h
  · split at h
    · cases h
    · dsimp only at h
      split at h
      · cases h
      next s c' hrot =>
        split at h
        · cases h
        · split at h
          · cases h
          next hsto =>
            cases h
            refine ⟨escrowed_storeCredential hsto, ?_⟩
            rw [manager_storeCredential hsto]
            exact holds_of_rotate hval hnew hrot

/-- Whenever a rotation under an id the manager does not know returns, after any
run, the escrow is what the manager has. -/
def EscrowedWhereNew (A : Adapter σ ε η) : Prop :=
  ∀ (username : String) (p₀ p p' : Panel σ) (es : List (Event ε η)) (env : Env η) (c : String),
    A.keeper.Valid p₀.manager → Run.exec (step A username) p₀ es = some p →
    ¬ A.memory.Recorded p.manager (operationId (p.grantFor env).id env.now) →
    rotate A username p env = (p', .ok c) →
    ∃ k, p'.escrowed = some k ∧ A.keeper.Holds p'.manager username k

theorem escrowedWhereNew (A : Adapter σ ε η) : EscrowedWhereNew A := by
  intro username p₀ p p' es env c hval hrun hnew hok
  have hval' : A.keeper.Valid p.manager :=
    Run.invariant (I := fun p => A.keeper.Valid p.manager) (fun _ _ _ => valid_step) hrun hval
  obtain ⟨hesc, hholds⟩ := escrow_of_new hval' hnew hok
  exact ⟨c, hesc, hholds⟩

/-- **The escrow equals the runtime after a rotation**, for NaiveProxy and for
Mieru: in every run of rotations, and of whatever else happens at the manager,
with any clock and with requests and answers lost, a rotation that returns leaves
the password of the manager's user under the version the grant names – where the
manager did not know the rotation's id. -/
theorem escrow_eq_runtime_of_new {Digest Section Rest Doc : Type} [DecidableEq Digest]
    [DecidableEq Doc] (naive : Naive.Site) (mieru : Mieru.Site Digest Section Rest Doc) :
    EscrowedWhereNew (naiveAdapter naive) ∧ EscrowedWhereNew (mieruAdapter mieru) :=
  ⟨escrowedWhereNew _, escrowedWhereNew _⟩

namespace Sample

/-- An attempt that arrives and is answered. -/
def arrives (meets : η) : Attempt η := ⟨meets, true, true⟩

/-- A rotation at second 100. -/
def env (credential : String) (meets : η) : Env η :=
  ⟨100, credential, "g-2", true, arrives meets, arrives meets, true⟩

/-- An account whose password the panel does not have. -/
def panel (manager : σ) : Panel σ := ⟨false, some ⟨"g-1", none⟩, [], manager⟩

/-- The managers of the two kinds, with the user's old password. -/
def naive : Panel Naive.Manager := panel Naive.Sample.start

def mieru : Panel (Mieru.World (Mieru.Sample.site fun _ => ())) :=
  panel (Mieru.Sample.world _ [⟨"alice", some "oooooooooooooooo", none, none, none, none⟩])

def naiveRotates (credential : String) : Env Naive.Env := env credential Naive.Sample.env

def mieruRotates (credential : String) : Env (MieruWay Unit Unit Unit) :=
  env credential ⟨some (), Mieru.Sample.env, .done, .internal ""⟩

/-- One rotation. -/
theorem escrow_eq_runtime_first :
    ∃ p', rotate (naiveAdapter Naive.Sample.site) "alice" naive
        (naiveRotates "aaaaaaaaaaaaaaaa") = (p', .ok "aaaaaaaaaaaaaaaa")
      ∧ ∃ k, p'.escrowed = some k
        ∧ (naiveAdapter Naive.Sample.site).keeper.Holds p'.manager "alice" k := by
  have hok : (rotate (naiveAdapter Naive.Sample.site) "alice" naive
      (naiveRotates "aaaaaaaaaaaaaaaa")).2 = .ok "aaaaaaaaaaaaaaaa" := by
    decide +kernel
  refine ⟨_, Prod.ext rfl hok, ?_⟩
  refine (escrow_eq_runtime_of_new Naive.Sample.site (Mieru.Sample.site fun _ => ())).1 "alice" naive
    naive _ [] _ _ trivial rfl ?_ (Prod.ext rfl hok)
  show ¬ Naive.Keeps _ _
  decide +kernel

/-- **Two rotations within a second**: both return, and the escrow is not what the
manager has – under NaiveProxy, and under Mieru. -/
theorem escrow_ne_runtime_in_one_second :
    (∃ p p', Run.exec (step (naiveAdapter Naive.Sample.site) "alice") naive
        [.rotate (naiveRotates "aaaaaaaaaaaaaaaa")] = some p
      ∧ rotate (naiveAdapter Naive.Sample.site) "alice" p (naiveRotates "bbbbbbbbbbbbbbbb")
        = (p', .ok "bbbbbbbbbbbbbbbb")
      ∧ ¬ ∃ k, p'.escrowed = some k
        ∧ (naiveAdapter Naive.Sample.site).keeper.Holds p'.manager "alice" k)
    ∧ ∃ p p', Run.exec (step (mieruAdapter (Mieru.Sample.site _)) "alice") mieru
        [.rotate (mieruRotates "aaaaaaaaaaaaaaaa")] = some p
      ∧ rotate (mieruAdapter (Mieru.Sample.site _)) "alice" p (mieruRotates "bbbbbbbbbbbbbbbb")
        = (p', .ok "bbbbbbbbbbbbbbbb")
      ∧ ¬ ∃ k, p'.escrowed = some k
        ∧ (mieruAdapter (Mieru.Sample.site _)).keeper.Holds p'.manager "alice" k := by
  refine ⟨⟨_, _, rfl, Prod.ext rfl (by decide +kernel), ?_⟩,
    ⟨_, _, rfl, Prod.ext rfl (by decide +kernel), ?_⟩⟩
  · rintro ⟨k, hescrow, hholds⟩
    have hk : some "bbbbbbbbbbbbbbbb" = some k := Eq.trans (by decide +kernel) hescrow
    cases hk
    exact absurd (show Naive.stored _ _ = _ from hholds) (by decide +kernel)
  · rintro ⟨k, hescrow, hholds⟩
    have hk : some "bbbbbbbbbbbbbbbb" = some k := Eq.trans (by decide +kernel) hescrow
    cases hk
    exact absurd (show Mieru.stored _ _ _ _ = _ from hholds) (by decide +kernel)

end Sample

end Rotation
