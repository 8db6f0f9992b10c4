import ProxyControl.Checks
import ProxyControl.Ledger
import ProxyControl.Naive

/-!
# The NaiveProxy manager keeps passwords

What each call does to the passwords the manager holds, and with it the manager
as a keeper in the sense of `Ledger`. A call whose transaction ends with an
error has its effect all the same where the new files stay in place.
-/

namespace Naive

open Table
open Checks
open Ledger (Effect Ask Keeper Memory)

variable (site : Site) {name : String} {f : Row → Row} {op : Option String} {s : State}
  {id : String}

/-- The password a user has. -/
def stored (s : State) (username : String) : Option String :=
  (s.users.find? fun row => row.username = username).map Row.password

theorem stored_update (s : State) (name : String) (hf : ∀ row, (f row).username = row.username)
    (u : String) :
    stored (s.update name f) u =
      if u = name then (s.users.find? fun row => row.username = name).map fun row => (f row).password
      else stored s u := by
  unfold stored State.update
  rw [find?_replaceF Row.username (fun row h => (hf row).trans h)]
  split
  · rw [Option.map_map]
    rfl
  · rfl

/-- Changing a row without its password changes no password. -/
theorem stored_update_of_password (s : State) (name : String)
    (hf : ∀ row, (f row).username = row.username ∧ (f row).password = row.password) (u : String) :
    stored (s.update name f) u = stored s u := by
  rw [stored_update s name fun row => (hf row).1]
  split
  next h =>
    rw [h]
    exact congrArg (fun g => Option.map g _) (funext fun row => (hf row).2)
  · rfl

/-- An answer is kept under an id. -/
def Keeps (s : State) (id : String) : Prop := (Table.find s.operations id).isSome = true

instance (s : State) (id : String) : Decidable (Keeps s id) :=
  inferInstanceAs (Decidable (_ = true))

/-- An answer from memory is kept under the id of the request. -/
theorem keeps_of_replay {ope : Recorded} {r : Reveal}
    (h : replay s op ope name = .ok (some r)) : ∃ id, op = some id ∧ Keeps s id := by
  unfold replay at h
  split at h
  · cases h
  next id =>
    refine ⟨id, rfl, ?_⟩
    split at h
    · cases h
    · split at h
      · cases h
      next rec hrec => exact Option.isSome_iff_exists.mpr ⟨rec, hrec⟩

theorem keeps_remember {rec : Record} (h : Keeps (s.remember op rec) id) :
    Keeps s id ∨ op = some id := by
  cases op with
  | none => exact .inl h
  | some op =>
    unfold Keeps State.remember at h
    rw [find_put] at h
    split at h
    next hid => exact .inr (congrArg some hid.symm)
    · exact .inl h

theorem keeps_of_read {now : Int} (h : Keeps (s.read now) id) : Keeps s id :=
  Table.isSome_find_of_filter h

@[simp] theorem stored_remember (s : State) (op : Option String) (rec : Record) (u : String) :
    stored (s.remember op rec) u = stored s u := by
  cases op <;> rfl

/-- What a call does to the passwords, where its change is put in place. -/
def Call.effect (env : Env) : Call → Effect String String String
  | .create name _ password op => .set name op (password.getD env.token)
  | .rotate name password op => .set name op (password.getD env.token)
  | .delete name => .drop name
  | .setEnabled .. | .setQuota .. | .enforceQuotas _ => .keep

/-- A new row is found under its name. -/
theorem stored_append (s : State) (row : Row) (h : (s.users.any fun r => r.username = row.username) = false)
    (u : String) :
    stored { s with users := s.users ++ [row] } u
      = if u = row.username then some row.password else stored s u := by
  unfold stored
  rw [List.find?_append]
  split
  next hu =>
    rw [hu, List.find?_eq_none.mpr (by simpa using h)]
    simp
  next hu => rw [List.find?_cons_of_neg (by simpa using Ne.symm hu), List.find?_nil, Option.or_none]

variable {site} {env : Env} {s s' : State} {r : Reply} {a : Except Error Unit} {c : Call} {p : Plan}
  {pw : Option String} {quota : Option Int} {enabled : Bool} {reply : Reply}

/-- The calls that send a credential. -/
def Call.ask : Call → Option (Ask String String String)
  | .create name _ password op => some ⟨name, op, password⟩
  | .rotate name password op => some ⟨name, op, password⟩
  | .setEnabled .. | .setQuota .. | .delete _ | .enforceQuotas _ => none

/-- **What a call with a credential comes to** where it is not refused: an answer
from memory, or a change after which the name has the password. -/
def Sends (env : Env) (s : State) (ask : Ask String String String) (p : Plan) : Prop :=
  (∃ result id, p = .replayed result ∧ ask.id = some id ∧ Keeps s id)
    ∨ ∃ s' r, p = .change s' r (.ok ())
      ∧ (∀ u, stored s' u = if u = ask.name then some (ask.value.getD env.token) else stored s u)
      ∧ ∀ id, Keeps s' id → Keeps s id ∨ ask.id = some id

/-- A creation finds its name new. -/
theorem create_ok (h : create site env s name quota pw op = .ok p) :
    Sends env s ⟨name, op, pw⟩ p := by
  simp only [create, bind_eq_ok, throw_then] at h
  obtain ⟨_, _, _, _, _, _, ans, hans, h⟩ := h
  cases ans with
  | some r =>
    obtain ⟨id, hop, hkp⟩ := keeps_of_replay hans
    exact .inl ⟨r, id, (pure_eq_ok.mp h).symm, hop, hkp⟩
  | none =>
    simp only [check_eq_ok, pure_eq_ok] at h
    obtain ⟨hnew, _, h⟩ := h
    refine .inr ⟨_, _, h.symm, fun u => ?_, fun _ => keeps_remember⟩
    rw [stored_remember]
    exact stored_append s ⟨name, pw.getD env.token, true, quota, none, env.now, env.now⟩
      (by simpa using hnew) u

theorem rotate_ok (h : rotate site env s name pw op = .ok p) : Sends env s ⟨name, op, pw⟩ p := by
  simp only [rotate, bind_eq_ok] at h
  obtain ⟨_, _, ans, hans, h⟩ := h
  cases ans with
  | some r =>
    obtain ⟨id, hop, hkp⟩ := keeps_of_replay hans
    exact .inl ⟨r, id, (pure_eq_ok.mp h).symm, hop, hkp⟩
  | none =>
    obtain ⟨row, hrow, h⟩ := bind_eq_ok.mp h
    refine .inr ⟨_, _, (pure_eq_ok.mp h).symm, fun u => ?_, fun _ => keeps_remember⟩
    rw [stored_remember, stored_update]
    · unfold find at hrow
      split at hrow
      next hf =>
        rw [hf]
        rfl
      · cases hrow
    · exact fun _ => rfl

theorem plan_of_ask {ask : Ask String String String} (hask : c.ask = some ask)
    (h : plan site env s c = .ok p) : Sends env (s.read env.now) ask p := by
  cases c with
  | create name quota pw op =>
    cases hask
    exact create_ok h
  | rotate name pw op =>
    cases hask
    exact rotate_ok h
  | setEnabled | setQuota | delete | enforceQuotas => cases hask

/-- A user is enabled within the quota. -/
theorem setEnabled_eq_ok (h : setEnabled env s name enabled = .ok p) :
    (∃ reply, p = .change (s.update name fun row => { row with
        enabled, disabledReason := if enabled then none else some .manual, updatedAt := env.now })
        reply (.ok ()))
      ∧ (enabled = true → ∀ row quota, find s name = .ok row → row.quota = some quota →
        ∃ used, usedBytes env = .ok used ∧ used < quota) := by
  simp only [setEnabled, bind_eq_ok, throw_then] at h
  obtain ⟨_, _, h⟩ := h
  repeat' split at h
  all_goals simp only [bind_eq_ok, check_eq_ok, pure_eq_ok] at h
  all_goals grind

theorem setEnabled_ok (h : setEnabled env s name enabled = .ok (.change s' r a)) :
    (∀ u, stored s' u = stored s u) ∧ s'.operations = s.operations := by
  obtain ⟨⟨reply, hp⟩, -⟩ := setEnabled_eq_ok h
  cases hp
  exact ⟨stored_update_of_password s name fun _ => ⟨rfl, rfl⟩, rfl⟩

theorem Row.setQuota_keeps (row : Row) (quota : Option Int) (used now : Int) :
    (row.setQuota quota used now).username = row.username
      ∧ (row.setQuota quota used now).password = row.password := by
  unfold Row.setQuota
  repeat' split
  all_goals exact ⟨rfl, rfl⟩

theorem setQuota_ok (h : setQuota env s name quota = .ok (.change s' r a)) :
    (∀ u, stored s' u = stored s u) ∧ s'.operations = s.operations := by
  simp only [setQuota, bind_eq_ok, pure_eq_ok] at h
  obtain ⟨_, _, _, _, used, _, h⟩ := h
  cases h
  exact ⟨stored_update_of_password s name fun row => row.setQuota_keeps quota used env.now, rfl⟩

/-- **A deletion** touches nobody else. -/
theorem delete_ok (h : delete env s name = .ok (.change s' r a)) :
    (∀ u, u ≠ name → stored s' u = stored s u) ∧ s'.operations = s.operations := by
  have hs : s'.users = s.users.filter (fun row => row.username ≠ name)
      ∧ s'.operations = s.operations := by
    unfold delete at h
    split at h
    · cases h
    · simp only [bind_eq_ok, throw_then] at h
      obtain ⟨_, _, h⟩ := h
      repeat' split at h
      all_goals first | (cases h; done) | (cases pure_eq_ok.mp h; exact ⟨rfl, rfl⟩)
  refine ⟨fun u hu => ?_, hs.2⟩
  unfold stored
  rw [hs.1, find?_filter_ne, if_neg hu]

theorem enforceQuotas_ok {usage : List (String × Int)}
    (h : enforceQuotas env s usage = .change s' r a) :
    (∀ u, stored s' u = stored s u) ∧ s'.operations = s.operations := by
  simp only [enforceQuotas] at h
  split at h
  · cases h
  · cases h
    refine ⟨fun u => ?_, rfl⟩
    unfold stored
    rw [find?_map_of_key Row.username, Option.map_map]
    · refine congrArg (fun g => Option.map g _) (funext fun row => ?_)
      rw [Function.comp_apply]
      split <;> rfl
    · intro row
      split <;> rfl

/-- A user has a password. -/
def Has (s : State) (username password : String) : Prop := stored s username = some password

/-- **The change of a call does to the passwords what its effect says.** -/
theorem plan_does (h : plan site env s c = .ok (.change s' r a)) :
    (c.effect env).Does (Has s) (Has s') := by
  cases c with
  | create name quota pw op | rotate name pw op =>
    obtain ⟨_, _, hp, _⟩ | ⟨_, _, hp, hsto, _⟩ := plan_of_ask rfl h
    · cases hp
    · cases hp
      exact Effect.does_set hsto
  | setEnabled name enabled => exact fun u _ hhas => ((setEnabled_ok h).1 u).trans hhas
  | setQuota name quota => exact fun u _ hhas => ((setQuota_ok h).1 u).trans hhas
  | delete name => exact fun u _ hu hhas => ((delete_ok h).1 u hu).trans hhas
  | enforceQuotas usage =>
    exact fun u _ hhas => ((enforceQuotas_ok (Except.ok.inj h)).1 u).trans hhas

/-- Whether the change of a call is put in place. -/
def Manager.places (m : Manager) (env : Env) : Bool :=
  ! m.pending && match env.ending with
    | .undone .. => false
    | .done | .placed .. => true

theorem state_apply (m : Manager) (env : Env) (des : State) :
    (apply m des env.ending).1.state = if m.places env then des else m.state := by
  unfold apply Manager.places
  cases m.pending with
  | true => rfl
  | false => cases env.ending <;> rfl

/-- The state after a call. -/
theorem state_call (m : Manager) (env : Env) (c : Call) :
    (call site m env c).1.state = match plan site env m.state c with
      | .ok (.change s _ _) => if m.places env then s else m.state
      | _ => m.state := by
  unfold call
  generalize plan site env m.state c = p
  rcases p with e | result | reply | ⟨des, reply, after⟩
  · rfl
  · rfl
  · rfl
  · show _ = if m.places env then des else m.state
    rw [← state_apply]
    dsimp only
    rcases apply m des env.ending with ⟨m', e | ⟨⟩⟩
    · rfl
    · cases after <;> rfl

variable (site) in
/-- What a call does to the passwords. -/
def effect (m : Manager) (env : Env) (c : Call) : Effect String String String :=
  match plan site env m.state c with
  | .ok (.change ..) => if m.places env then c.effect env else .keep
  | _ => .keep

/-- **A call does to the passwords what its effect says.** -/
theorem call_does (m : Manager) (env : Env) (c : Call) :
    (effect site m env c).Does (Has m.state) (Has (call site m env c).1.state) := by
  rw [state_call]
  unfold effect
  split
  next s' r a h =>
    split
    · exact plan_does h
    · exact Effect.does_keep _
  · exact Effect.does_keep _

theorem Call.effect_of_ask (env : Env) {ask : Ask String String String} (h : c.ask = some ask) :
    ∃ k, c.effect env = .set ask.name ask.id k ∧ ∀ v, ask.value = some v → k = v := by
  cases c with
  | create name quota pw op | rotate name pw op =>
    cases h
    refine ⟨_, rfl, fun v hv => ?_⟩
    rw [show pw = some v from hv, Option.getD_some]
  | setEnabled | setQuota | delete | enforceQuotas => cases h

variable (site) in
/-- Whether a call is answered from memory. -/
def replays (m : Manager) (env : Env) (c : Call) : Bool :=
  match plan site env m.state c with
  | .ok (.replayed _) => true
  | _ => false

/-- A call that sends a credential never comes to nothing. -/
theorem plan_ne_nothing {a : Ask String String String} (hask : c.ask = some a) :
    plan site env s c ≠ .ok (.nothing reply) := by
  intro h
  obtain ⟨_, _, hp, _⟩ | ⟨_, _, hp, _⟩ := plan_of_ask hask h <;> cases hp

variable {m : Manager}

/-- The change of a call that succeeds is put in place. -/
theorem places_of_isOk {env : Env} {des : State} {after : Except Error Unit}
    (hp : plan site env m.state c = .ok (.change des reply after))
    (hok : (call site m env c).2.isOk = true) : m.places env = true := by
  unfold call at hok
  rw [hp] at hok
  unfold apply at hok
  unfold Manager.places
  cases hpend : m.pending with
  | true =>
    rw [hpend] at hok
    cases hok
  | false =>
    cases hend : env.ending with
    | undone e pend =>
      rw [hpend, hend] at hok
      cases hok
    | done => rfl
    | placed e pend => rfl

/-- A call that succeeds, and not from memory, has its effect. -/
theorem effect_of_isOk {env : Env} {a : Ask String String String} (hask : c.ask = some a)
    (hok : (call site m env c).2.isOk = true) (hrep : replays site m env c = false) :
    effect site m env c = c.effect env := by
  unfold replays at hrep
  unfold effect
  split
  next hp => exact if_pos (places_of_isOk hp hok)
  next hp =>
    unfold call at hok
    split at hok
    · cases hok
    next h =>
      rw [h] at hrep
      cases hrep
    next reply h => exact absurd h (plan_ne_nothing hask)
    next h => exact absurd h (hp _ _ _)

variable (site) in
/-- **The manager as a keeper of passwords.** -/
def keeper : Keeper Manager (Env × Call) String String String where
  next m e := (call site m e.1 e.2).1
  Valid _ := True
  Holds m := Has m.state
  effect m e := effect site m e.1 e.2
  ask e := e.2.ask
  succeeds m e := (call site m e.1 e.2).2.isOk
  replays m e := replays site m e.1 e.2
  valid_next _ _ := trivial
  does e _ := call_does _ e.1 e.2
  set_of_succeeds := by
    rintro m ⟨env, c⟩ a _ hask hok hrep
    rw [effect_of_isOk hask hok hrep]
    exact Call.effect_of_ask env hask
  keep_of_replays := by
    intro m e h
    unfold replays at h
    unfold effect
    split at h
    next hp => rw [hp]
    · cases h

/-- The change of a call keeps an answer under no other id than its own. -/
theorem plan_keeps (h : plan site env s c = .ok (.change s' r a)) (hid : Keeps s' id) :
    Keeps s id ∨ ∃ ask, c.ask = some ask ∧ ask.id = some id := by
  have hsm (hops : s'.operations = (s.read env.now).operations) : Keeps s id := by
    unfold Keeps at hid
    rw [hops] at hid
    exact keeps_of_read hid
  cases c with
  | create name quota pw op | rotate name pw op =>
    obtain ⟨_, _, hp, _⟩ | ⟨_, _, hp, _, hkp⟩ := plan_of_ask rfl h
    · cases hp
    · cases hp
      exact (hkp id hid).imp keeps_of_read fun hop => ⟨_, rfl, hop⟩
  | setEnabled name enabled => exact .inl (hsm (setEnabled_ok h).2)
  | setQuota name quota => exact .inl (hsm (setQuota_ok h).2)
  | delete name => exact .inl (hsm (delete_ok h).2)
  | enforceQuotas usage => exact .inl (hsm (enforceQuotas_ok (Except.ok.inj h)).2)

variable (site) in
/-- **What the manager remembers.** -/
def memory : Memory (keeper site) where
  Recorded m := Keeps m.state
  recorded_of_replays := by
    rintro m ⟨env, c⟩ ask hask hrep
    have hplan : ∃ result, plan site env m.state c = .ok (.replayed result) := by
      revert hrep
      show replays site m env c = true → _
      unfold replays
      split
      next result hplan => exact fun _ => ⟨result, hplan⟩
      · exact fun h => by cases h
    obtain ⟨result, hplan⟩ := hplan
    obtain ⟨_, id, _, hop, hkp⟩ | ⟨_, _, hp, _⟩ := plan_of_ask hask hplan
    · exact ⟨id, hop, keeps_of_read hkp⟩
    · cases hp
  recorded_next := by
    rintro m ⟨env, c⟩ id hrec
    have hkp : Keeps (call site m env c).1.state id := hrec
    show Keeps m.state id ∨ ∃ ask k, c.ask = some ask ∧ ask.id = some id
      ∧ effect site m env c = .set ask.name ask.id k ∧ ∀ v, ask.value = some v → k = v
    rw [state_call] at hkp
    unfold effect
    split at hkp
    next desired reply after hplan =>
      split at hkp
      next hplac =>
        refine (plan_keeps hplan hkp).imp_right ?_
        rintro ⟨ask, hask, hid⟩
        obtain ⟨k, heff, hk⟩ := Call.effect_of_ask env hask
        exact ⟨ask, k, hask, hid, (if_pos hplac).trans heff, hk⟩
      · exact .inl hkp
    · exact .inl hkp

end Naive

namespace Naive.Sample

def site : Site := ⟨"proxy.example", id⟩

def env : Env := ⟨0, "tttttttttttttttt", none, .done⟩

/-- One user. -/
def start : Manager :=
  ⟨⟨[⟨"alice", "oooooooooooooooo", true, none, none, 0, 0⟩], [], []⟩, false⟩

end Naive.Sample
