import ProxyControl.Checks
import ProxyControl.Ledger
import ProxyControl.TrustTunnelWrites

/-!
# The TrustTunnel manager keeps passwords

What each call and each supervision pass does to the passwords of the clients,
and with it the manager as a keeper in the sense of `Ledger`. Passwords are
those of the document in memory, which a call has changed even where one of its
writes fails.
-/

namespace TrustTunnel

open Table
open Ledger (Effect Ask Keeper)
open Run (Outcome)

variable {sha : String → String} {cfg : Config} {m : Manager} {doc doc' : Document} {p : Plan}

/-- The password of a client. -/
def stored (doc : Document) (username : String) : Option String :=
  (find doc.clients username).map Client.password

/-- A client has a password. -/
def Has (doc : Document) (username password : String) : Prop := stored doc username = some password

/-- A text of a body. -/
def Body.str (body : Body) (name : String) : String := (body.get name).asStr.getD ""

variable {body : Body} {name : String} {client : Client}

theorem checkText_ok {text detail : String} {ok : String → Bool}
    (h : checkText body name ok detail = .ok text) : text = body.str name := by
  unfold checkText at h
  unfold Body.str
  split at h
  next text htext =>
    rw [htext]
    split at h
    · exact (Except.ok.inj h).symm
    · cases h
  · cases h

theorem newUsername_ok (h : newUsername body = .ok name) : name = body.str "username" := by
  unfold newUsername at h
  split at h
  · cases h
  · exact checkText_ok h

theorem existing_ok (h : existing doc name = .ok client) : find doc.clients name = some client := by
  unfold existing at h
  split at h
  next hf =>
    cases h
    exact hf
  · cases h

/-! ## Calls -/

/-- What a call that changes the document does to the client of a name. -/
def Call.edit (u : String) (before : Option Client) : Call → Option Client
  | .create body =>
    if u = body.str "username" then some ⟨body.str "password", true, 1, 0, 0, 0, 0⟩ else before
  | .setEnabled name enabled =>
    if u = name then before.map fun c => { c with enabled, revision := c.revision + 1 } else before
  | .rotate name body =>
    if u = name then
      before.map fun c => { c with password := body.str "password", revision := c.revision + 1 }
    else before
  | .delete name => if u = name then none else before
  | .egressApply _ | .egressRollback => before

/-- The client a call is about is there, or, for a creation, is not. -/
def Call.Finds (doc : Document) : Call → Prop
  | .create body => find doc.clients (body.str "username") = none
  | .setEnabled name _ | .rotate name _ => (find doc.clients name).isSome = true
  | .delete _ | .egressApply _ | .egressRollback => True

theorem find_setClient (doc : Document) (name u : String) (c : Client) :
    find (doc.setClient name c).clients u = if u = name then some c else find doc.clients u :=
  find_putSorted doc.clients name u c

/-- A client that is there, replaced. -/
theorem find_setClient_map (f : Client → Client) (h : find doc.clients name = some client)
    (u : String) :
    find (doc.setClient name (f client)).clients u
      = if u = name then (find doc.clients u).map f else find doc.clients u := by
  rw [find_setClient]
  split
  next hu =>
    rw [hu, h]
    rfl
  · rfl

/-- **What a call changes**, where it is not answered from the document. -/
theorem plan_change {c : Call} (h : plan sha doc c = .ok p) (hdoc : p.change = some doc') :
    c.Finds doc ∧ ∀ u, find doc'.clients u = c.edit u (find doc.clients u) := by
  cases c with
  | create body =>
    simp only [plan, createClient, Checks.bind_eq_ok] at h
    obtain ⟨_, _, op, _, name, hnm, pass, hpass, ans, _, h⟩ := h
    cases newUsername_ok hnm
    cases checkText_ok hpass
    cases ans with
    | some replayed =>
      dsimp only at h
      split at h
      · cases h
        cases hdoc
      · cases h
    | none =>
      dsimp only at h
      split at h
      · cases h
      next habs =>
        cases h
        cases hdoc
        exact ⟨Option.not_isSome_iff_eq_none.mp habs, fun u => find_setClient doc _ u _⟩
  | rotate name body =>
    simp only [plan, rotate, Checks.bind_eq_ok] at h
    obtain ⟨_, _, op, _, pass, hpass, client, hcl, ans, _, h⟩ := h
    cases checkText_ok hpass
    cases ans with
    | some replayed =>
      cases h
      cases hdoc
    | none =>
      cases h
      cases hdoc
      have hf := existing_ok hcl
      exact ⟨Option.isSome_of_mem hf, find_setClient_map (fun c =>
        { c with password := body.str "password", revision := c.revision + 1 }) hf⟩
  | setEnabled name enabled =>
    simp only [plan, setEnabled, Checks.bind_eq_ok] at h
    obtain ⟨client, hcl, h⟩ := h
    split at h
    · cases h
      cases hdoc
    · cases h
      cases hdoc
      have hf := existing_ok hcl
      exact ⟨Option.isSome_of_mem hf, find_setClient_map (fun c =>
        { c with enabled, revision := c.revision + 1 }) hf⟩
  | delete name =>
    cases h
    unfold deleteClient at hdoc
    split at hdoc
    · cases hdoc
      exact ⟨trivial, find_erase doc.clients name⟩
    · cases hdoc
  | egressApply body =>
    simp only [plan, egressApply, Checks.bind_eq_ok] at h
    obtain ⟨proposed, _, h⟩ := h
    split at h
    · cases h
      cases hdoc
    · cases h
      cases hdoc
      exact ⟨trivial, fun _ => rfl⟩
  | egressRollback =>
    simp only [plan, egressRollback] at h
    split at h
    · cases h
    · cases h
      cases hdoc
      exact ⟨trivial, fun _ => rfl⟩

/-- What a call does to the passwords, where it changes the document. -/
def Call.effect : Call → Effect String String String
  | .create body =>
    .set (body.str "username") (some (body.str "operation_id")) (body.str "password")
  | .rotate name body => .set name (some (body.str "operation_id")) (body.str "password")
  | .delete name => .drop name
  | .setEnabled .. | .egressApply _ | .egressRollback => .keep

/-- **The change of a call does to the passwords what its effect says.** -/
theorem plan_does {c : Call} (h : plan sha doc c = .ok p) (hdoc : p.change = some doc') :
    c.effect.Does (Has doc) (Has doc') := by
  obtain ⟨hfinds, hf⟩ := plan_change h hdoc
  have hsto : ∀ u, stored doc' u = (c.edit u (find doc.clients u)).map Client.password :=
    fun u => congrArg (Option.map Client.password) (hf u)
  cases c with
  | create body =>
    refine Effect.does_set fun u => (hsto u).trans ?_
    dsimp only [Call.edit]
    split <;> rfl
  | rotate name body =>
    refine Effect.does_set fun u => (hsto u).trans ?_
    dsimp only [Call.edit]
    split
    next hu =>
      obtain ⟨client, hcl⟩ := Option.isSome_iff_exists.mp hfinds
      rw [hu, hcl]
      rfl
    · rfl
  | setEnabled name enabled =>
    refine fun u _ hhas => ((hsto u).trans ?_).trans hhas
    dsimp only [Call.edit]
    split
    · exact Option.map_map ..
    · rfl
  | delete name =>
    exact fun u _ hu hhas => ((hsto u).trans (congrArg _ (if_neg hu))).trans hhas
  | egressApply | egressRollback => exact fun u _ hhas => (hsto u).trans hhas

/-- Whether or not its writes succeed, a change stays in memory. -/
theorem doc_mutated (cfg : Config) (m : Manager) (now : Int) (w : Writes) :
    (mutated cfg m now w).1.doc = m.doc.pruned := by
  unfold mutated
  split
  next m₁ hsave =>
    cases congrArg Prod.fst hsave
    rfl
  next m₁ hsave =>
    cases congrArg Prod.fst hsave
    split
    next m₂ hfls =>
      obtain ⟨sets, edition, rfl⟩ := writeFiles_frame hfls
      rfl
    next m₂ changed hfls =>
      obtain ⟨sets, edition, rfl⟩ := writeFiles_frame hfls
      cases changed <;> rfl

/-- The document after a call. -/
theorem doc_call (m : Manager) (c : Call) (now : Int) (w : Writes) :
    (call sha cfg m c now w).1.doc = match plan sha m.doc c with
      | .ok ⟨some doc, _⟩ => doc.pruned
      | _ => m.doc := by
  unfold call
  generalize plan sha m.doc c = p
  rcases p with e | ⟨_ | doc, ans⟩
  · rfl
  · rfl
  · show _ = doc.pruned
    rw [← doc_mutated cfg { m with doc } now w]
    dsimp only
    rcases mutated cfg { m with doc } now w with ⟨m', e | ⟨⟩⟩ <;> rfl

/-! ## Supervision -/

/-- A requested restart is due. -/
def Manager.due (m : Manager) (now : Int) : Bool :=
  m.restartAt.any fun instant => decide (instant ≤ now)

/-- The readings a poll gets. -/
def readings (rows : Option (List Row)) : List (String × Reading) := (rows.map aggregate).getD []

/-- The readings a supervision pass polls. -/
def Manager.polls (m : Manager) (now : Int) (env : Surroundings) : List (String × Reading) :=
  if m.endpoint.isSome && (m.due now || decide (m.nextPoll ≤ now)) then readings env.rows else []

theorem find_mapClients (doc : Document) (f : String → Client → Client) (u : String) :
    find (doc.mapClients f).clients u = (find doc.clients u).map (f u) :=
  find_map f doc.clients u

theorem find_poll (m : Manager) (rows : Option (List Row)) (w : Outcome) (u : String) :
    find (poll m rows w).doc.clients u
      = (find m.doc.clients u).map (countIn (readings rows) u) := by
  cases rows with
  | none => exact Option.map_id'.symm
  | some rows =>
    unfold poll
    dsimp only
    split <;> exact find_mapClients _ _ u

/-- What a poll of a running endpoint reads. -/
theorem find_polled (m : Manager) (rows : Option (List Row)) (w : Outcome) (u : String) :
    find (if m.endpoint.isSome then poll m rows w else m).doc.clients u = (find m.doc.clients u).map
        (countIn (if m.endpoint.isSome then readings rows else []) u) := by
  split
  · exact find_poll m rows w u
  · exact Option.map_id'.symm

theorem doc_maybeStart (m : Manager) (now : Int) (env : Surroundings) :
    (maybeStart m now env).doc = m.doc := by
  unfold maybeStart
  split
  · rfl
  · split <;> rfl

theorem find_restart (m : Manager) (now : Int) (env : Surroundings) (u : String) :
    find (restart m now env).doc.clients u = (find m.doc.clients u).map fun c =>
        { countIn (if m.endpoint.isSome then readings env.rows else []) u c with
          lastIn := 0, lastOut := 0 } := by
  have hpoll := find_polled m env.rows env.saves.1 u
  unfold restart
  rw [doc_maybeStart]
  generalize (if m.endpoint.isSome then poll m env.rows env.saves.1 else m) = p at hpoll ⊢
  refine (find_mapClients p.doc (fun _ c => { c with lastIn := 0, lastOut := 0 }) u).trans ?_
  rw [hpoll, Option.map_map]
  rfl

/-- **A supervision pass** folds in what it polls, and forgets the last readings
where it restarts the endpoint. -/
theorem find_tick (cfg : Config) (m : Manager) (now : Int) (env : Surroundings) (u : String) :
    find (tick cfg m now env).doc.clients u = (find m.doc.clients u).map fun c =>
        if m.due now then { countIn (m.polls now env) u c with lastIn := 0, lastOut := 0 }
        else countIn (m.polls now env) u c := by
  have htick : tick cfg m now env = if m.due now then restart { m with restartAt := none } now env
      else if m.endpoint.isSome then
        if m.nextPoll ≤ now then
          poll { m with
            failures := if 60000 ≤ now - m.startedAt then 0 else m.failures
            nextPoll := now + cfg.pollInterval } env.rows env.saves.1
        else { m with failures := if 60000 ≤ now - m.startedAt then 0 else m.failures }
      else maybeStart m now env := by
    unfold tick Manager.due
    by_cases hup : 60000 ≤ now - m.startedAt <;> simp only [hup, if_true, if_false]
  rw [htick]
  unfold Manager.polls
  cases m.due now with
  | true =>
    simp only [if_true, Bool.true_or, Bool.and_true]
    exact find_restart { m with restartAt := none } now env u
  | false =>
    simp only [Bool.false_or, Bool.false_eq_true, if_false]
    cases m.endpoint.isSome with
    | true =>
      simp only [if_true, Bool.true_and, decide_eq_true_eq]
      split
      · exact find_poll _ env.rows env.saves.1 u
      · exact Option.map_id'.symm
    | false =>
      simp only [Bool.false_eq_true, if_false, Bool.false_and]
      rw [doc_maybeStart]
      exact Option.map_id'.symm

theorem stored_tick (m : Manager) (now : Int) (env : Surroundings) (u : String) :
    stored (tick cfg m now env).doc u = stored m.doc u := by
  unfold stored
  rw [find_tick, Option.map_map]
  refine congrArg (fun f => Option.map f _) (funext fun c => ?_)
  have hpw := (countIn_prints (m.polls now env) u c).2
  split <;> exact hpw

/-! ## The keeper -/

/-- The calls that send a credential. -/
def Event.ask : Event → Option (Ask String String String)
  | .call (.create body) _ _ =>
    some ⟨body.str "username", some (body.str "operation_id"), some (body.str "password")⟩
  | .call (.rotate name body) _ _ =>
    some ⟨name, some (body.str "operation_id"), some (body.str "password")⟩
  | _ => none

/-- What an event does to the passwords. A change stays where a write fails. -/
def effect (sha256 : String → String) (m : Manager) : Event → Effect String String String
  | .call c _ _ =>
    match plan sha256 m.doc c with
    | .ok ⟨some _, _⟩ => c.effect
    | _ => .keep
  | .tick .. | .exit => .keep

/-- Whether an event is answered without a change. -/
def replays (sha256 : String → String) (m : Manager) : Event → Bool
  | .call c _ _ =>
    match plan sha256 m.doc c with
    | .ok ⟨none, _⟩ => true
    | _ => false
  | .tick .. | .exit => false

/-- Whether an event is a call that succeeds. -/
def succeeds (sha256 : String → String) (cfg : Config) (m : Manager) : Event → Bool
  | .call c now w => (call sha256 cfg m c now w).2.isOk
  | .tick .. | .exit => false

/-- **An event does to the passwords what its effect says.** -/
theorem next_does (m : Manager) (e : Event) :
    (effect sha m e).Does (Has m.doc) (Has (next sha cfg m e).doc) := by
  cases e with
  | call c now w =>
    show Effect.Does _ (Has (call sha cfg m c now w).1.doc) (effect sha m (.call c now w))
    rw [doc_call]
    unfold effect
    dsimp only
    split
    next doc ans hp =>
      have hdoes : c.effect.Does (Has m.doc) (Has doc) := plan_does hp rfl
      exact hdoes
    · exact Effect.does_keep _
  | tick now env => exact fun u _ hhas => (stored_tick m now env u).trans hhas
  | exit => exact Effect.does_keep _

/-- **The manager as a keeper of passwords.** -/
def keeper (sha256 : String → String) (cfg : Config) :
    Keeper Manager Event String String String where
  next := next sha256 cfg
  Valid _ := True
  Holds m := Has m.doc
  effect := effect sha256
  ask := Event.ask
  succeeds := succeeds sha256 cfg
  replays := replays sha256
  valid_next _ _ := trivial
  does e _ := next_does _ e
  set_of_succeeds := by
    intro m e a _ hask hok hrep
    cases e with
    | call c now w =>
      have heff : effect sha256 m (.call c now w) = c.effect := by
        obtain ⟨reply, hreply⟩ := Checks.exists_of_isOk hok
        obtain ⟨answer, hp, _⟩ | ⟨doc, answer, hp, _⟩ := call_ok (Prod.ext rfl hreply)
        · simp [replays, hp] at hrep
        · simp only [effect, hp]
      rw [heff]
      cases c with
      | create body | rotate name body =>
        cases hask
        exact ⟨_, rfl, fun v hv => Option.some.inj hv⟩
      | setEnabled | delete | egressApply | egressRollback => cases hask
    | tick | exit => cases hask
  keep_of_replays := by
    intro m e h
    cases e with
    | call c now w =>
      unfold replays at h
      unfold effect
      dsimp only at h ⊢
      split at h
      next hp => rw [hp]
      · cases h
    | tick | exit => rfl

end TrustTunnel
