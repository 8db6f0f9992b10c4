import ProxyControl.AmneziaWG
import ProxyControl.Checks
import ProxyControl.Ledger

/-!
# The AmneziaWG manager keeps keys

What each call does to the keys of the peers, and with it the manager as a
keeper in the sense of `Ledger`. A call whose save fails has no effect.
-/

namespace AmneziaWG

open Table
open Checks
open Ledger (Effect Ask Keeper)

variable {sha256 : String → String} {instances : List Instance} {doc doc' : Document} {p : Plan}
  {name : String}

def stored (doc : Document) (username : String) : Option (String × String) :=
  (find doc.peers username).map fun peer => (peer.publicKey, peer.presharedKey)

/-- A peer has its keys. -/
def Has (doc : Document) (username : String) (keys : String × String) : Prop :=
  stored doc username = some keys

def Body.str (body : Body) (name : String) : String := (body.get name).asStr.getD ""

variable {body : Body}

theorem checkText_ok {text : String} {ok : String → Bool} (h : checkText body name ok = .ok text) :
    text = body.str name := by
  unfold checkText at h
  unfold Body.str
  split at h
  next text htext =>
    rw [htext]
    split at h
    · exact (Except.ok.inj h).symm
    · cases h
  · cases h

def Body.keys (body : Body) : String × String := (body.str "public_key", body.str "preshared_key")

@[simp] theorem stored_pruned (doc : Document) (u : String) : stored doc.pruned u = stored doc u := by
  unfold stored
  rw [Document.peers_pruned]

@[simp] theorem stored_record (doc : Document) (op digest name u : String) :
    stored (doc.record op digest name) u = stored doc u := rfl

theorem stored_setPeer (doc : Document) (name : String) (peer : Peer) (u : String) :
    stored (doc.setPeer name peer) u
      = if u = name then some (peer.publicKey, peer.presharedKey) else stored doc u := by
  unfold stored Document.setPeer
  rw [find_put]
  split <;> rfl

/-- **A creation** that is not answered from the document: its name gets a peer with
the keys. -/
theorem stored_createPeer {now : Int} (h : createPeer sha256 instances doc now body = .ok p)
    (hdoc : p.change = some doc') (u : String) :
    stored doc' u = if u = body.str "username" then some body.keys else stored doc u := by
  simp only [createPeer, bind_eq_ok, throw_then] at h
  obtain ⟨_, _, op, _, name, hnm, pub, hpub, psk, hpsk, inst, _, ans, _, h⟩ := h
  cases checkText_ok hnm
  cases checkText_ok hpub
  cases checkText_ok hpsk
  cases ans with
  | some again =>
    cases pure_eq_ok.mp h
    cases hdoc
  | none =>
    simp only [check_eq_ok, bind_eq_ok, pure_eq_ok] at h
    obtain ⟨_, _, addr, _, h⟩ := h
    cases h
    cases hdoc
    rw [stored_record, stored_setPeer]
    rfl

/-- **A rotation** that is not answered from the document: its peer gets the keys. -/
theorem stored_rotate (h : rotate sha256 doc name body = .ok p) (hdoc : p.change = some doc')
    (u : String) : stored doc' u = if u = name then some body.keys else stored doc u := by
  simp only [rotate, bind_eq_ok, throw_then] at h
  obtain ⟨_, _, op, _, pub, hpub, psk, hpsk, peer, _, ans, _, h⟩ := h
  cases checkText_ok hpub
  cases checkText_ok hpsk
  cases ans with
  | some again =>
    cases pure_eq_ok.mp h
    cases hdoc
  | none =>
    simp only [check_eq_ok, pure_eq_ok] at h
    obtain ⟨_, _, h⟩ := h
    cases h
    cases hdoc
    rw [stored_record, stored_setPeer]
    rfl

theorem stored_setEnabled {enabled : Bool} (h : setEnabled instances doc name enabled = .ok p)
    (hdoc : p.change = some doc') (u : String) : stored doc' u = stored doc u := by
  simp only [setEnabled, bind_eq_ok, throw_then, check_eq_ok] at h
  obtain ⟨peer, hpeer, _, h⟩ := h
  split at h
  · cases pure_eq_ok.mp h
    cases hdoc
  · cases pure_eq_ok.mp h
    cases hdoc
    rw [stored_setPeer]
    split
    next hu =>
      unfold record at hpeer
      split at hpeer
      next hf =>
        cases hpeer
        rw [hu, stored, hf]
        rfl
      · cases hpeer
    · rfl

theorem stored_deletePeer (h : deletePeer doc name = .ok p) (hdoc : p.change = some doc')
    {u : String} (hu : u ≠ name) : stored doc' u = stored doc u := by
  simp only [deletePeer, bind_eq_ok, pure_eq_ok] at h
  obtain ⟨_, _, h⟩ := h
  cases h
  cases hdoc
  unfold stored
  rw [find_erase, if_neg hu]

/-- What a call does to the keys, where its change is saved. -/
def Call.effect : Call → Effect String String (String × String)
  | .create body => .set (body.str "username") (some (body.str "operation_id")) body.keys
  | .rotate name body => .set name (some (body.str "operation_id")) body.keys
  | .delete name => .drop name
  | .setEnabled .. => .keep

/-- **The change of a call does to the keys what its effect says.** -/
theorem plan_does {now : Int} {c : Call} (h : plan sha256 instances doc now c = .ok p)
    (hdoc : p.change = some doc') : c.effect.Does (Has doc) (Has doc') := by
  cases c with
  | create body => exact Effect.does_set (stored_createPeer h hdoc)
  | rotate name body => exact Effect.does_set (stored_rotate h hdoc)
  | setEnabled name enabled => exact fun u _ hhas => (stored_setEnabled h hdoc u).trans hhas
  | delete name => exact fun u _ hu hhas => (stored_deletePeer h hdoc hu).trans hhas

/-- The calls that send keys. -/
def Call.ask : Call → Option (Ask String String (String × String))
  | .create body => some ⟨body.str "username", some (body.str "operation_id"), some body.keys⟩
  | .rotate name body => some ⟨name, some (body.str "operation_id"), some body.keys⟩
  | .setEnabled .. | .delete _ => none

/-- A call, the time and how its save ends. -/
structure Event where
  call : Call
  now : Int
  save : Run.Outcome
deriving DecidableEq, Repr

variable (sha256 instances)

/-- What an event does to the keys. -/
def effect (doc : Document) (e : Event) : Effect String String (String × String) :=
  match plan sha256 instances doc e.now e.call with
  | .ok ⟨some _, _⟩ => if e.save = .done then e.call.effect else .keep
  | _ => .keep

/-- Whether an event is answered without a change. -/
def replays (doc : Document) (e : Event) : Bool :=
  match plan sha256 instances doc e.now e.call with
  | .ok ⟨none, _⟩ => true
  | _ => false

variable {sha256 instances}

/-- **A call does to the keys what its effect says.** -/
theorem call_does (doc : Document) (e : Event) : (effect sha256 instances doc e).Does (Has doc)
      (Has (call sha256 instances doc e.now e.save e.call).1) := by
  unfold effect call commit
  cases hp : plan sha256 instances doc e.now e.call with
  | error err => exact Effect.does_keep _
  | ok p =>
    obtain ⟨_ | desired, name⟩ := p
    · exact Effect.does_keep _
    · by_cases hsave : e.save = .done
      · have hdoes := plan_does hp rfl
        unfold Has at hdoes ⊢
        simpa only [hsave, ↓reduceIte, stored_pruned] using hdoes
      · simp only [hsave, ↓reduceIte]
        exact Effect.does_keep _

/-- **The manager as a keeper of keys.** -/
def keeper (sha256 : String → String) (instances : List Instance) :
    Keeper Document Event String String (String × String) where
  next doc e := (call sha256 instances doc e.now e.save e.call).1
  Valid _ := True
  Holds := Has
  effect := effect sha256 instances
  ask e := e.call.ask
  succeeds doc e := (call sha256 instances doc e.now e.save e.call).2.isOk
  replays := replays sha256 instances
  valid_next _ _ := trivial
  does e _ := call_does _ e
  set_of_succeeds := by
    intro doc e a _ hask hok hrep
    have heff : effect sha256 instances doc e = e.call.effect := by
      unfold effect
      unfold replays at hrep
      unfold call commit at hok
      cases hp : plan sha256 instances doc e.now e.call with
      | error err =>
        rw [hp] at hok
        cases hok
      | ok p =>
        obtain ⟨_ | desired, name⟩ := p
        · rw [hp] at hrep
          cases hrep
        · refine if_pos ?_
          by_contra hsave
          simp [hp, hsave, Except.isOk, Except.toBool] at hok
    rw [heff]
    obtain ⟨c, now, w⟩ := e
    cases c with
    | create body | rotate name body =>
      cases hask
      exact ⟨_, rfl, fun v hv => Option.some.inj hv⟩
    | setEnabled | delete => cases hask
  keep_of_replays := by
    intro doc e h
    unfold replays at h
    unfold effect
    split at h
    next hp => rw [hp]
    · cases h

end AmneziaWG
