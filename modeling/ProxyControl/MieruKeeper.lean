import ProxyControl.Checks
import ProxyControl.Ledger
import ProxyControl.MieruTransaction

/-!
# The Mieru manager keeps passwords

What each request does to the passwords, and with it the manager as a keeper in
the sense of `Ledger`. A password is kept as a digest, in the active row of its
user or in the disabled one; a row that moves between the two takes it along.
-/

namespace Mieru

open List
open Checks
open Table
open Ledger (Effect Ask Keeper Memory)

variable {Digest Section Rest Doc : Type} {site : Site Digest Section Rest Doc}
  {sha256 : String → String} {c c' : Config Section Rest} {disabled disabled' : List (String × User)}
  {name : String} {row : User}

/-- The digest of the password a user has: that of its active row, or of its
disabled one. -/
def stored (sha256 : String → String) (c : Config Section Rest) (disabled : List (String × User))
    (username : String) : Option String :=
  ((c.usersOf.find? fun row => row.name = username).or (find disabled username)).bind
    fun row => (row.readback sha256).hashedPassword

def hashedPassword (sha256 : String → String) (username password : String) : String :=
  sha256 (password ++ "\x00" ++ username)

/-- A user has a password. -/
def Has (sha256 : String → String) (c : Config Section Rest) (disabled : List (String × User))
    (username password : String) : Prop :=
  stored sha256 c disabled username = some (hashedPassword sha256 username password)

/-- What `mita` reads back has the same passwords. -/
theorem stored_readback (u : String) :
    stored sha256 (c.readback sha256) disabled u = stored sha256 c disabled u := by
  have hus : (c.readback sha256).usersOf = c.usersOf.map (User.readback sha256) := by
    unfold Config.usersOf Config.readback
    cases c.users <;> rfl
  unfold stored
  rw [hus, find?_map_of_key User.name (f := User.readback sha256) fun _ => rfl]
  cases c.usersOf.find? fun row => row.name = u with
  | none => rfl
  | some row =>
    show ((row.readback sha256).readback sha256).hashedPassword = (row.readback sha256).hashedPassword
    rw [User.readback_readback]

/-- The digest of a row that is given a password. -/
theorem hashedPassword_readback (row : User) (h : truthy row.password = true) :
    (row.readback sha256).hashedPassword
      = some (hashedPassword sha256 row.name (row.password.getD "")) := by
  exact if_pos h

/-! ## Valid configurations -/

theorem checkUsers_ok {ns : List String} {us : List User} (h : checkUsers ns us = .ok ()) :
    (us.map User.name).Nodup ∧ (∀ u ∈ us, u.name ∉ ns) ∧
      ∀ u ∈ us, truthy u.password ≠ truthy u.hashedPassword := by
  induction us generalizing ns with
  | nil => simp
  | cons u us ih =>
    simp only [checkUsers, bind_eq_ok] at h
    obtain ⟨_, hu, h⟩ := h
    simp only [checkUser, throw_then, check_eq_ok] at hu
    obtain ⟨_, hnm, hcred, _⟩ := hu
    obtain ⟨hnd, hfr, hcreds⟩ := ih h
    refine ⟨?_, ?_, ?_⟩
    · rw [map_cons, nodup_cons]
      refine ⟨fun hmem => ?_, hnd⟩
      obtain ⟨v, hv, hvu⟩ := mem_map.mp hmem
      exact hfr v hv (hvu ▸ mem_cons_self)
    · intro v hv
      rcases mem_cons.mp hv with rfl | hv
      · exact hnm
      · exact fun hmem => hfr v hv (mem_cons_of_mem _ hmem)
    · intro v hv
      rcases mem_cons.mp hv with rfl | hv
      · exact hcred
      · exact hcreds v hv

theorem validateConfig_ok (h : validateConfig site c = .ok ()) : (c.usersOf.map User.name).Nodup ∧
      ∀ u ∈ c.usersOf, truthy u.password ≠ truthy u.hashedPassword := by
  simp only [validateConfig, bind_eq_ok] at h
  obtain ⟨_, _, _, hus, _⟩ := h
  obtain ⟨hnd, _, hcreds⟩ := checkUsers_ok hus
  exact ⟨hnd, hcreds⟩

/-! ## Operations -/

/-- Every disabled row stands under its name. -/
def Named (disabled : List (String × User)) : Prop :=
  ∀ u row, find disabled u = some row → row.name = u

theorem Named.erase (h : Named disabled) (name : String) : Named (erase disabled name) := by
  intro u row hrow
  rw [find_erase] at hrow
  split at hrow
  · cases hrow
  · exact h u row hrow

theorem findActive_ok (h : findActive c name = .ok row) :
    (c.usersOf.find? fun u => u.name = name) = some row := by
  unfold findActive at h
  split at h
  next hf => exact hf.trans (congrArg some (Except.ok.inj h))
  · cases h

/-- A new row is found under its name. -/
theorem stored_append (hact : (c.usersOf.find? fun u => u.name = row.name) = none) (u : String) :
    stored sha256 (c.setUsers (c.usersOf ++ [row])) disabled u
      = if u = row.name then (row.readback sha256).hashedPassword
        else stored sha256 c disabled u := by
  unfold stored
  show ((find? _ (c.usersOf ++ [row])).or _).bind _ = _
  rw [find?_append]
  split
  next hu =>
    rw [hu, hact]
    simp
  next hu => rw [find?_cons_of_neg (by simpa using Ne.symm hu), find?_nil, Option.or_none]

/-- Changing an active row changes the password of its name only. -/
theorem stored_update {f : User → User} (hrow : (c.usersOf.find? fun u => u.name = name) = some row)
    (hf : ∀ v, (f v).name = v.name) (u : String) :
    stored sha256 (c.setUsers (updateUser name f c.usersOf)) disabled u
      = if u = name then ((f row).readback sha256).hashedPassword
        else stored sha256 c disabled u := by
  show ((find? _ (updateUser name f c.usersOf)).or _).bind _ = _
  unfold updateUser
  rw [find?_replaceF User.name fun v hv => (hf v).trans hv]
  split
  · rw [hrow]
    rfl
  · rfl

/-- Taking out an active row touches nobody else. -/
theorem stored_remove {u : String} (hu : u ≠ name) :
    stored sha256 (c.setUsers (removeUser name c.usersOf)) disabled u
      = stored sha256 c disabled u := by
  unfold stored
  show ((find? _ (removeUser name c.usersOf)).or _).bind _ = _
  unfold removeUser
  rw [find?_eraseP_of_ne User.name hu]

/-- **A row that is disabled** keeps its password. -/
theorem stored_disable (hnd : (c.usersOf.map User.name).Nodup)
    (hrow : (c.usersOf.find? fun u => u.name = name) = some row) (u : String) :
    stored sha256 (c.setUsers (removeUser name c.usersOf)) (putSorted disabled name row) u
      = stored sha256 c disabled u := by
  by_cases hu : u = name
  · have hgone : (removeUser name c.usersOf).find? (fun v => v.name = name) = none :=
      find?_eraseP_self User.name hnd name
    unfold stored
    show ((find? _ (removeUser name c.usersOf)).or _).bind _ = _
    rw [hu, hgone, hrow, find_putSorted, if_pos rfl]
    rfl
  · rw [stored_remove hu]
    unfold stored
    rw [find_putSorted, if_neg hu]

/-- **A row that is enabled** keeps its password. -/
theorem stored_enable (hrow : find disabled name = some row) (hnm : row.name = name) (u : String) :
    stored sha256 (c.setUsers (c.usersOf ++ [row])) (erase disabled name) u
      = stored sha256 c disabled u := by
  unfold stored
  show ((find? _ (c.usersOf ++ [row])).or _).bind _ = _
  rw [find?_append, find_erase]
  by_cases hu : u = name
  · rw [if_pos hu, hu, hrow, find?_cons_of_pos (by simpa using hnm), Option.or_none]
  · rw [if_neg hu, find?_cons_of_neg (by simpa [hnm] using Ne.symm hu), find?_nil, Option.or_none]

/-- What a request does to the passwords, where it is carried out. -/
def Request.effect (env : Env Section Doc) : Request Digest Doc → Effect String String String
  | .create r => .set r.username r.operationId (chosenPassword r.password env.token)
  | .rotate name _ password op => .set name op (chosenPassword password env.token)
  | .delete name _ => .drop name
  | .disable .. | .enable .. | .quotas .. | .egressApply .. | .egressRollback _ | .egressRefresh =>
    .keep

variable [DecidableEq Digest] {env : Env Section Doc} {s : State Digest Section Doc}
  {ch : Change Digest Section Rest Doc} {revision : Digest} {password op : Option String}
  {r : Request Digest Doc} {tx : Tx Digest Section Rest Doc} {p : Plan Digest Section Rest Doc}
  {ope : Recorded} {id : String} {a : Ask String String String}
  {file : State Digest Section Doc}

/-- A password set, in terms of what is stored. -/
theorem does_set {pw : String} (h : ∀ u, stored sha256 c' disabled' u
      = if u = name then some (hashedPassword sha256 name pw) else stored sha256 c disabled u) :
    (Effect.set name op pw).Does (Has sha256 c disabled) (Has sha256 c' disabled') := by
  refine ⟨(h name).trans (if_pos rfl), fun u k hu hhas => ?_⟩
  exact ((h u).trans (if_neg hu)).trans hhas

theorem does_keep (h : ∀ u, stored sha256 c' disabled' u = stored sha256 c disabled u) :
    (Effect.keep : Effect String String String).Does (Has sha256 c disabled)
      (Has sha256 c' disabled') :=
  fun u _ hhas => (h u).trans hhas

/-- The requests that send a credential. -/
def Request.ask : Request Digest Doc → Option (Ask String String String)
  | .create r => some ⟨r.username, r.operationId, r.password⟩
  | .rotate name _ password op => some ⟨name, op, password⟩
  | .disable .. | .enable .. | .delete .. | .quotas .. | .egressApply .. | .egressRollback _
  | .egressRefresh => none

/-- An answer is kept under an id. -/
def Keeps (s : State Digest Section Doc) (id : String) : Prop :=
  (find s.operations id).isSome = true

instance (s : State Digest Section Doc) (id : String) : Decidable (Keeps s id) :=
  inferInstanceAs (Decidable (_ = true))

omit [DecidableEq Digest] in
/-- An answer from memory is kept under the id of the request. -/
theorem keeps_of_replay (h : replay s op ope name = .ok (some revision)) :
    ∃ id, op = some id ∧ Keeps s id := by
  unfold replay at h
  split at h
  · cases h
  next reco hrec =>
    obtain ⟨id, hop, hf⟩ := Option.bind_eq_some_iff.mp hrec
    exact ⟨id, hop, Option.isSome_iff_exists.mpr ⟨reco, hf⟩⟩

omit [DecidableEq Digest] in
theorem keeps_of_pruned {now : Int} (h : Keeps (s.pruned now) id) : Keeps s id :=
  isSome_find_of_filter h

variable (site sha256 c env s) in
/-- **What a request with a credential comes to** where it is not refused: the
credential passes its check, and the request is answered from memory, or its change
gives the name the password. -/
def Sends (a : Ask String String String) (p : Plan Digest Section Rest Doc) : Prop :=
  validateCredential a.value a.id = .ok ()
    ∧ ((∃ revision id, p = .replayed revision ∧ a.id = some id ∧ Keeps s id)
      ∨ ∃ ch, p = .change ch ∧ ch.state = s ∧ (validateConfig site ch.desired = .ok () →
        ∀ u, stored sha256 ch.desired s.disabled u = if u = a.name then
          some (hashedPassword sha256 a.name (chosenPassword a.value env.token))
          else stored sha256 c s.disabled u))

theorem createUser_ok {r : CreateRequest Digest} (h : createUser site env s c r = .ok p) :
    Sends site sha256 c env s ⟨r.username, r.operationId, r.password⟩ p := by
  simp only [createUser, bind_eq_ok, throw_then, check_eq_ok] at h
  obtain ⟨_, _, hcred, ans, hans, h⟩ := h
  refine ⟨hcred, ?_⟩
  cases ans with
  | some revision =>
    obtain ⟨id, hop, hkp⟩ := keeps_of_replay hans
    exact .inl ⟨revision, id, (pure_eq_ok.mp h).symm, hop, hkp⟩
  | none =>
    simp only [check_eq_ok, bind_eq_ok, pure_eq_ok] at h
    obtain ⟨_, _, _, hnew, _, share, _, h⟩ := h
    simp only [Bool.or_eq_true, not_or, any_eq_true, not_exists, not_and,
      Option.not_isSome_iff_eq_none] at hnew
    refine .inr ⟨_, h.symm, rfl, fun hdes u => ?_⟩
    have htru : truthy (some (chosenPassword r.password env.token)) = true := by
      have hcred := (validateConfig_ok hdes).2 _ (mem_append_right _ mem_cons_self)
      exact Bool.eq_true_of_not_eq_false hcred
    rw [stored_append (find?_eq_none.mpr hnew.1), hashedPassword_readback _ htru]
    rfl

theorem rotateUser_ok (h : rotateUser site env s c name revision password op = .ok p) :
    Sends site sha256 c env s ⟨name, op, password⟩ p := by
  simp only [rotateUser, bind_eq_ok] at h
  obtain ⟨_, hcred, ans, hans, h⟩ := h
  refine ⟨hcred, ?_⟩
  cases ans with
  | some revision =>
    obtain ⟨id, hop, hkp⟩ := keeps_of_replay hans
    exact .inl ⟨revision, id, (pure_eq_ok.mp h).symm, hop, hkp⟩
  | none =>
    simp only [bind_eq_ok, pure_eq_ok] at h
    obtain ⟨_, _, row, hrow, share, _, h⟩ := h
    have hf := findActive_ok hrow
    have hnm : row.name = name := by simpa using find?_some hf
    let give : User → User := fun u =>
      { u with password := some (chosenPassword password env.token), hashedPassword := none }
    have hgiven : (updateUser name give c.usersOf).find? (fun u => u.name = name)
        = some (give row) := by
      unfold updateUser
      rw [find?_replaceF User.name (f := give) fun _ hv => hv, if_pos rfl, hf]
      rfl
    refine .inr ⟨_, h.symm, rfl, fun hdes u => ?_⟩
    have htru : truthy (give row).password = true := by
      have hcred := (validateConfig_ok hdes).2 _ (mem_of_find?_eq_some hgiven)
      exact Bool.eq_true_of_not_eq_false hcred
    refine (stored_update (f := give) hf (fun _ => rfl) u).trans ?_
    rw [hashedPassword_readback (give row) htru, hnm]
    rfl

variable (sha256) in
theorem plan_of_ask [DecidableEq Doc] (hask : r.ask = some a) (h : plan site env s c r = .ok p) :
    Sends site sha256 c env (s.pruned env.now) a p := by
  cases r with
  | create r =>
    cases hask
    exact createUser_ok h
  | rotate name revision password op =>
    cases hask
    exact rotateUser_ok h
  | disable | enable | delete | quotas | egressApply | egressRollback | egressRefresh => cases hask

/-- Passwords are in the users and in the disabled rows. -/
theorem stored_congr (hus : c'.users = c.users) (hdis : disabled' = disabled) (u : String) :
    stored sha256 c' disabled' u = stored sha256 c disabled u := by
  unfold stored Config.usersOf
  rw [hus, hdis]

/-- A change of the egress keeps the users. -/
theorem egress_keeps [DecidableEq Doc] (h : (∃ revision d op,
        egressApply site env (s.pruned env.now) c revision d op = .ok (.change ch))
      ∨ (∃ revision, egressRollback site env (s.pruned env.now) c revision = .ok (.change ch))
      ∨ egressRefresh site env (s.pruned env.now) c = .ok (.change ch)) :
    ch.desired.users = c.users ∧ ch.state.disabled = s.disabled := by
  rcases h with ⟨revision, d, op, h⟩ | ⟨revision, h⟩ | h <;>
    simp only [egressApply, egressRollback, egressRefresh, bind, Except.bind, pure, Except.pure,
      throw, throwThe, MonadExceptOf.throw] at h <;>
    repeat' split at h
  all_goals first
    | cases h; exact ⟨rfl, rfl⟩
    | cases h

variable (sha256) in
/-- **The change of a request does to the passwords what its effect says**, and
keeps the disabled rows under their names. -/
theorem plan_does [DecidableEq Doc] (h : plan site env s c r = .ok (.change ch))
    (hbef : validateConfig site c = .ok ()) (hdes : validateConfig site ch.desired = .ok ())
    (hnam : Named s.disabled) :
    (r.effect env).Does (Has sha256 c s.disabled) (Has sha256 ch.desired ch.state.disabled)
      ∧ Named ch.state.disabled := by
  cases r with
  | create r | rotate name revision password op =>
    obtain ⟨_, ⟨_, _, hp, _⟩ | ⟨_, hp, hsta, hsto⟩⟩ := plan_of_ask sha256 rfl h
    · cases hp
    · cases hp
      rw [hsta]
      exact ⟨does_set (hsto hdes), hnam⟩
  | disable name revision =>
    simp only [plan, disableUser, bind_eq_ok, pure_eq_ok] at h
    obtain ⟨_, _, row, hrow, h⟩ := h
    cases h
    have hf := findActive_ok hrow
    have hnm : row.name = name := by simpa using find?_some hf
    refine ⟨does_keep (stored_disable (validateConfig_ok hbef).1 hf), fun u row' hrow' => ?_⟩
    rw [find_putSorted] at hrow'
    split at hrow'
    next hu =>
      cases hrow'
      exact hnm.trans hu.symm
    · exact hnam u row' hrow'
  | enable name revision =>
    simp only [plan, enableUser, bind_eq_ok] at h
    obtain ⟨_, _, h⟩ := h
    split at h
    · cases h
    next row hrow =>
      cases pure_eq_ok.mp h
      exact ⟨does_keep (stored_enable hrow (hnam name row hrow)), hnam.erase name⟩
  | delete name revision =>
    simp only [plan, deleteUser, bind_eq_ok] at h
    obtain ⟨_, _, h⟩ := h
    split at h
    · cases h
      refine ⟨fun u k hu hhas => ?_, hnam.erase name⟩
      refine Eq.trans ?_ hhas
      show stored sha256 c (erase s.disabled name) u = _
      unfold stored
      rw [find_erase, if_neg hu]
    · simp only [bind_eq_ok, pure_eq_ok, exists_eq_left'] at h
      obtain ⟨row, _, h⟩ := h
      cases h
      exact ⟨fun u k hu hhas => (stored_remove hu).trans hhas, hnam⟩
  | quotas name quotas revision =>
    simp only [plan, setQuotas, bind_eq_ok, pure_eq_ok] at h
    obtain ⟨_, _, row, hrow, h⟩ := h
    cases h
    have hf := findActive_ok hrow
    refine ⟨does_keep fun u => ?_, hnam⟩
    refine (stored_update hf (f := fun u => { u with quotas := some quotas }) (fun _ => rfl) u).trans ?_
    split
    next hu =>
      unfold stored
      rw [hu, hf]
      rfl
    · rfl
  | egressApply revision d op =>
    obtain ⟨hus, hdis⟩ := egress_keeps (.inl ⟨revision, d, op, h⟩)
    exact ⟨does_keep (stored_congr hus hdis), hdis ▸ hnam⟩
  | egressRollback revision =>
    obtain ⟨hus, hdis⟩ := egress_keeps (.inr (.inl ⟨revision, h⟩))
    exact ⟨does_keep (stored_congr hus hdis), hdis ▸ hnam⟩
  | egressRefresh =>
    obtain ⟨hus, hdis⟩ := egress_keeps (.inr (.inr h))
    exact ⟨does_keep (stored_congr hus hdis), hdis ▸ hnam⟩

/-! ## The keeper -/

/-- A transaction that is prepared checked both configurations, and leads to the
one that was asked for. -/
theorem prepare_spec (h : prepare site file c ch = .ok tx) :
    validateConfig site ch.desired = .ok () ∧ validateConfig site c = .ok ()
      ∧ tx.desired = ch.desired ∧ tx.next.disabled = ch.state.disabled
      ∧ tx.journal.desiredConfigHash = site.hash (.config (tx.expected site)) := by
  simp only [prepare, bind_eq_ok, throw_then, check_eq_ok, pure_eq_ok] at h
  obtain ⟨_, hdes, _, hbef, _, _, h⟩ := h
  cases h
  exact ⟨hdes, hbef, rfl, rfl, rfl⟩

/-- A request, and how its transaction ends. -/
structure Arrival (Digest Section Doc : Type) where
  env : Env Section Doc
  request : Request Digest Doc
  outcome : Run.Outcome
  failure : Error

variable [DecidableEq Doc]

/-- A world's passwords. -/
def World.Has (w : World site) : String → String → Prop :=
  Mieru.Has site.sha256 w.mita.1 w.state.disabled

variable (site) in
/-- What a request does to the passwords. -/
def effect (w : World site) (e : Arrival Digest Section Doc) : Effect String String String :=
  match plan site e.env w.state w.mita.1 e.request with
  | .ok (.change ch) =>
    match prepare site w.state w.mita.1 ch with
    | .ok _ => if e.outcome.lands then e.request.effect e.env else .keep
    | .error _ => .keep
  | _ => .keep

/-- **A request does to the passwords what its effect says**, and keeps the
disabled rows under their names. -/
theorem call_does (w : World site) (e : Arrival Digest Section Doc)
    (hnam : Named w.state.disabled) :
    (effect site w e).Does w.Has (call site w e.env e.request e.outcome e.failure).1.Has
      ∧ Named (call site w e.env e.request e.outcome e.failure).1.state.disabled := by
  unfold effect call
  cases hp : plan site e.env w.state w.mita.1 e.request with
  | error err => exact ⟨Effect.does_keep _, hnam⟩
  | ok p =>
    cases p with
    | replayed revision | nothing => exact ⟨Effect.does_keep _, hnam⟩
    | change ch =>
      dsimp only
      cases hprep : prepare site w.state w.mita.1 ch with
      | error err => exact ⟨Effect.does_keep _, hnam⟩
      | ok tx =>
        dsimp only
        split
        · obtain ⟨hdes, hbef, htx, hnext, _⟩ := prepare_spec hprep
          obtain ⟨hdoes, hnam'⟩ := plan_does site.sha256 hp hbef hdes hnam
          refine ⟨?_, hnext ▸ hnam'⟩
          have hheld : World.Has (⟨tx.next, none,
              put w.backups tx.journal.backup tx.before, .ofConfig site tx.desired⟩ : World site)
              = Has site.sha256 ch.desired ch.state.disabled := by
            funext u k
            show (stored site.sha256 (tx.desired.readback site.sha256) tx.next.disabled u = _) = _
            rw [stored_readback, htx, hnext]
            rfl
          rw [hheld]
          exact hdoes
        · exact ⟨Effect.does_keep _, hnam⟩

/-- A password that is sent and passes its check is the one that is chosen. -/
theorem chosenPassword_of_valid {v tok : String} (h : validateCredential password op = .ok ())
    (hv : password = some v) : chosenPassword password tok = v := by
  simp only [validateCredential, throw_then, check_eq_ok] at h
  have hok : isPassword v = true := by simpa [hv] using h.1
  have hne : v ≠ "" := fun hemp => by
    rw [hemp] at hok
    exact absurd hok (by decide)
  have htru : truthy password = true := by
    rw [hv]
    exact decide_eq_true hne
  unfold chosenPassword
  rw [if_pos htru, hv, Option.getD_some]

/-- A request that sends a credential, and is not refused: there is something to do or
to repeat, with the credential that was sent. -/
theorem plan_ok_of_ask (h : plan site env s c r = .ok p) (hask : r.ask = some a) :
    p ≠ .nothing ∧ ∃ k, r.effect env = .set a.name a.id k ∧ ∀ v, a.value = some v → k = v := by
  obtain ⟨hcred, hp⟩ := plan_of_ask site.sha256 hask h
  constructor
  · obtain ⟨_, _, rfl, _⟩ | ⟨_, rfl, _⟩ := hp <;> nofun
  · cases r with
    | create r | rotate name revision password op =>
      cases hask
      exact ⟨_, rfl, fun v hv => chosenPassword_of_valid hcred hv⟩
    | disable | enable | delete | quotas | egressApply | egressRollback | egressRefresh =>
      cases hask

variable (site) in
/-- Whether a request is answered from memory. -/
def replays (w : World site) (e : Arrival Digest Section Doc) : Bool :=
  match plan site e.env w.state w.mita.1 e.request with
  | .ok (.replayed _) => true
  | _ => false

variable (site) in
/-- **The manager as a keeper of passwords.** -/
def keeper : Keeper (World site) (Arrival Digest Section Doc) String String String where
  next w e := (call site w e.env e.request e.outcome e.failure).1
  Valid w := Named w.state.disabled
  Holds w := w.Has
  effect := effect site
  ask e := e.request.ask
  succeeds w e := (call site w e.env e.request e.outcome e.failure).2.isOk
  replays := replays site
  valid_next e h := (call_does _ e h).2
  does e h := (call_does _ e h).1
  set_of_succeeds := by
    intro w e a _ hask hok hrep
    unfold call at hok
    unfold replays at hrep
    unfold effect
    cases hp : plan site e.env w.state w.mita.1 e.request with
    | error err =>
      rw [hp] at hok
      cases hok
    | ok p =>
      obtain ⟨hne, hset⟩ := plan_ok_of_ask hp hask
      cases p with
      | replayed revision =>
        rw [hp] at hrep
        cases hrep
      | nothing => exact absurd rfl hne
      | change ch =>
        rw [hp] at hok
        dsimp only at hok ⊢
        cases hprep : prepare site w.state w.mita.1 ch with
        | error err =>
          rw [hprep] at hok
          cases hok
        | ok tx =>
          rw [hprep] at hok
          have hdone : e.outcome = .done := by
            by_contra hnot
            simp [hnot, Except.isOk, Except.toBool] at hok
          rw [hdone]
          exact hset
  keep_of_replays := by
    intro w e h
    unfold replays at h
    unfold effect
    split at h
    next hp => rw [hp]
    · cases h

/-! ## The memory -/

omit [DecidableEq Digest] in
theorem id_of_record {now : Int} {f : Digest → Record Digest}
    (h : record ope name password op now = some (id, f)) : op = some id := by
  obtain ⟨id', hop, heq⟩ := Option.map_eq_some_iff.mp h
  cases heq
  exact hop

/-- The change of a request keeps an answer under no other id than its own. -/
theorem plan_record (h : plan site env s c r = .ok (.change ch)) :
    ch.state.operations = (s.pruned env.now).operations ∧
      ∀ id f, ch.record = some (id, f) → ∃ a, r.ask = some a ∧ a.id = some id := by
  cases r <;>
    simp only [plan, createUser, disableUser, enableUser, rotateUser, deleteUser, setQuotas,
      egressApply, egressRollback, egressRefresh, bind, Except.bind, pure, Except.pure, throw,
      throwThe, MonadExceptOf.throw] at h <;>
    repeat' split at h
  all_goals first
    | cases h; exact ⟨rfl, fun _ _ hrec => ⟨_, rfl, id_of_record hrec⟩⟩
    | cases h; exact ⟨rfl, fun _ _ hrec => by cases hrec⟩
    | cases h

omit [DecidableEq Doc] in
theorem prepare_keeps (h : prepare site file c ch = .ok tx) (hid : Keeps tx.next id) :
    Keeps ch.state id ∨ ∃ f, ch.record = some (id, f) := by
  simp only [prepare, bind_eq_ok, throw_then, check_eq_ok, pure_eq_ok] at h
  obtain ⟨_, _, _, _, _, _, h⟩ := h
  cases h
  unfold Keeps at hid
  split at hid
  next op f hrec =>
    rw [find_put] at hid
    split at hid
    next hop => exact .inr ⟨f, hop ▸ hrec⟩
    · exact .inl hid
  · exact .inl hid

variable (site) in
/-- **What the manager remembers.** -/
def memory : Memory (keeper site) where
  Recorded w := Keeps w.state
  recorded_of_replays := by
    intro w e a hask hrep
    have hplan : ∃ revision, plan site e.env w.state w.mita.1 e.request = .ok (.replayed revision) := by
      revert hrep
      show replays site w e = true → _
      unfold replays
      split
      next revision hplan => exact fun _ => ⟨revision, hplan⟩
      · exact fun h => by cases h
    obtain ⟨revision, hplan⟩ := hplan
    obtain ⟨_, ⟨_, id, _, hop, hkp⟩ | ⟨_, hp, _⟩⟩ := plan_of_ask site.sha256 hask hplan
    · exact ⟨id, hop, keeps_of_pruned hkp⟩
    · cases hp
  recorded_next := by
    intro w e id hrec
    have hkp : Keeps (call site w e.env e.request e.outcome e.failure).1.state id := hrec
    show Keeps w.state id ∨ ∃ a k, e.request.ask = some a ∧ a.id = some id
      ∧ effect site w e = .set a.name a.id k ∧ ∀ v, a.value = some v → k = v
    unfold call at hkp
    unfold effect
    cases hplan : plan site e.env w.state w.mita.1 e.request with
    | error err =>
      rw [hplan] at hkp
      exact .inl hkp
    | ok p =>
      rw [hplan] at hkp
      cases p with
      | replayed revision => exact .inl hkp
      | nothing => exact .inl hkp
      | change ch =>
        dsimp only at hkp ⊢
        cases hprep : prepare site w.state w.mita.1 ch with
        | error err =>
          rw [hprep] at hkp
          exact .inl hkp
        | ok tx =>
          rw [hprep] at hkp
          dsimp only at hkp ⊢
          split at hkp
          next hld =>
            obtain ⟨hops, hrecord⟩ := plan_record hplan
            refine (prepare_keeps hprep hkp).imp (fun hold => ?_) ?_
            · unfold Keeps at hold
              rw [hops] at hold
              exact keeps_of_pruned hold
            · rintro ⟨f, hf⟩
              obtain ⟨a, hask, hid⟩ := hrecord id f hf
              obtain ⟨_, k, heff, hk⟩ := plan_ok_of_ask hplan hask
              exact ⟨a, k, hask, hid, (if_pos hld).trans heff, hk⟩
          · exact .inl hkp

/-! ## The steps of a request -/

/-- The steps of a transaction that is carried out, up to the removal of its
journal. -/
theorem exec_transaction {m : Machine site} (hctl : m.control = .backup tx)
    (hhash : tx.journal.desiredConfigHash = site.hash (.config (tx.expected site))) :
    ∃ m', Run.exec (step site) m (List.replicate 6 (.next .done)) = some m'
      ∧ m'.control = .finish tx
      ∧ { m'.world with journal := none } = (⟨tx.next, none,
        put m.world.backups tx.journal.backup tx.before, .ofConfig site tx.desired⟩ :
          World site) := by
  have hserve : site.hash (.config (Held.ofConfig site tx.desired).1)
      = tx.journal.desiredConfigHash := hhash.symm
  simp [replicate, Run.exec, step, hctl, Machine.effect, World.setPhase, Run.Outcome.lands, hserve]

/-- **A request as a whole is a run of its steps**, however they end. -/
theorem exec_call (m : Machine site) (hup : m.control = .up) (e : Arrival Digest Section Doc) :
    ∃ (outcomes : List Run.Outcome) (m' : Machine site), Run.exec (step site) m
        (.request e.env e.request :: outcomes.map .next) = some m' ∧ m'.control = .up
      ∧ m'.world = (call site m.world e.env e.request e.outcome e.failure).1 := by
  -- Without a transaction the request is its own run.
  have hn (hs : step site m (.request e.env e.request) = some m) :
      ∃ (outcomes : List Run.Outcome) (m' : Machine site), Run.exec (step site) m
        (.request e.env e.request :: outcomes.map .next) = some m' ∧ m'.control = .up
        ∧ m'.world = m.world :=
    ⟨[], m, by rw [Run.exec_cons, hs]; rfl, hup, rfl⟩
  unfold call
  cases hp : plan site e.env m.world.state m.world.mita.1 e.request with
  | error err => exact hn (by simp [step, hup, hp])
  | ok p =>
    cases p with
    | replayed revision | nothing => exact hn (by simp [step, hup, hp])
    | change ch =>
      dsimp only
      cases hprep : prepare site m.world.state m.world.mita.1 ch with
      | error err => exact hn (by simp [step, hup, hp, hprep])
      | ok tx =>
        have hreq : step site m (.request e.env e.request)
            = some { m with control := .backup tx } := by
          simp [step, hup, hp, hprep]
        obtain ⟨_, _, _, _, hhash⟩ := prepare_spec hprep
        obtain ⟨m', hrun, hctl, hworld⟩ :=
          exec_transaction (m := { m with control := .backup tx }) rfl hhash
        -- The removal of the journal comes last, and the lanes after it if there are any.
        have hlands (more : List Run.Outcome)
            (hmore : Run.exec (step site) m' (more.map .next) = some { m' with
              world := { m'.world with journal := none }, control := .up }) :
            ∃ (outcomes : List Run.Outcome) (m'' : Machine site), Run.exec (step site) m
                (.request e.env e.request :: outcomes.map .next) = some m'' ∧ m''.control = .up
              ∧ m''.world = ⟨tx.next, none,
                put m.world.backups tx.journal.backup tx.before, .ofConfig site tx.desired⟩ := by
          refine ⟨replicate 6 .done ++ more, { m' with
            world := { m'.world with journal := none }, control := .up }, ?_, rfl, hworld⟩
          rw [Run.exec_cons, hreq, Option.bind_some, map_append, map_replicate, Run.exec_append,
            hrun]
          exact hmore
        cases e.outcome with
        | lost => exact ⟨[.lost], { m with control := .up }, by rw [Run.exec_cons, hreq]; rfl, rfl, rfl⟩
        | late =>
          exact hlands [.late] (by simp [Run.exec, step, hctl, Machine.effect, Run.Outcome.lands])
        | done =>
          by_cases hlanes : tx.next.lanes = []
          · exact hlands [.done]
              (by simp [Run.exec, step, hctl, Machine.effect, Run.Outcome.lands, hlanes])
          · exact hlands [.done, .done]
              (by simp [Run.exec, step, hctl, Machine.effect, Run.Outcome.lands, hlanes])

end Mieru
