import ProxyControl.AmneziaWGRuns

/-!
# The peers of the AmneziaWG manager

What the manager has stored and what its devices know. The stored peers of a
version have addresses and public keys of their own, the addresses taken from
the subnet of the version; and a device that is configured and not marked as
behind has exactly the enabled ones among them (`peers_exact`).

Both sides are seen as functions: the document as the peer a name has, a device
as what it has under a key. A call replaces the peer of one name, which is taken
apart into erasing it and setting it again, and each of the two has its line.
A reconciliation first removes what is not wanted and then sets what is not as
wanted. Setting a peer takes its address from the others – which takes nothing
from a peer that is as wanted, because wanted addresses differ.
-/

namespace AmneziaWG.Service

open List
open Checks
open Table

variable {site : Site} {peer : Peer} {name : String} {doc doc' : Document} {separator : Char}
  {part : List Char}

/-! ## Subnets -/

namespace Net

variable (net : Net)

theorem size_pos : 0 < net.size := Nat.two_pow_pos _

theorem size_ge : 16 ≤ net.size := by
  have h : 2 ^ 4 ≤ 2 ^ (32 - net.length) :=
    Nat.pow_le_pow_right (by omega) (by have := net.most; omega)
  exact h

theorem size_dvd : net.size ∣ net.network := Nat.dvd_of_mod_eq_zero net.aligned

/-- The bits of the network and those within it do not meet. -/
theorem broadcast_eq : net.broadcast = net.network + (net.size - 1) := by
  obtain ⟨k, hk⟩ : ∃ k, net.network = 2 ^ (32 - net.length) * k := net.size_dvd
  have hlt : net.size - 1 < 2 ^ (32 - net.length) := Nat.sub_lt net.size_pos Nat.one_pos
  rw [broadcast, hk, ← Nat.two_pow_add_eq_or_of_lt hlt]

/-- **An address for a peer** is one of the subnet that has no other use. -/
theorem mem_hosts_drop {addr : Nat} (h : addr ∈ net.hosts.drop 1) :
    addr < 2 ^ 32 ∧ net.contains addr = true ∧ addr ≠ net.network
      ∧ addr ≠ net.gateway ∧ addr ≠ net.broadcast := by
  have hfits : net.network + net.size ≤ 2 ^ 32 := net.fits
  have hsize := net.size_ge
  unfold hosts at h
  rw [← map_drop] at h
  obtain ⟨i, hi, rfl⟩ := mem_map.mp h
  rw [broadcast_eq, Nat.add_sub_cancel_left] at *
  have hi1 : 1 ≤ i ∧ i < net.size - 1 - 1 := by
    rw [mem_iff_getElem] at hi
    obtain ⟨j, hj, rfl⟩ := hi
    rw [length_drop, length_range] at hj
    rw [getElem_drop, getElem_range]
    omega
  have hdiv : (net.network + 1 + i) / net.size = net.network / net.size := by
    obtain ⟨k, hk⟩ := net.size_dvd
    rw [hk, add_assoc, Nat.mul_add_div net.size_pos, Nat.mul_div_cancel_left _ net.size_pos,
      Nat.div_eq_of_lt (by omega), Nat.add_zero]
  refine ⟨by omega, ?_, by omega, by unfold gateway; omega, by omega⟩
  unfold contains
  rw [hdiv, Nat.div_mul_cancel net.size_dvd]
  exact beq_self_eq_true _

end Net

/-! ### Their texts -/

theorem octet_toString :
    ∀ n < 256, octet (toString n).toList = some n ∧ '.' ∉ (toString n).toList := by
  decide +kernel

theorem splitAt_append (h : separator ∉ part) (rest : List Char) :
    splitAt separator (part ++ separator :: rest) = part :: splitAt separator rest := by
  induction part with
  | nil => rw [nil_append, splitAt, if_pos rfl]
  | cons c part ih =>
    have hc : c ≠ separator := fun heq => h (heq ▸ mem_cons_self)
    rw [cons_append, splitAt, if_neg hc, ih fun hmem => h (mem_cons_of_mem _ hmem)]

theorem splitAt_of_not_mem (h : separator ∉ part) : splitAt separator part = [part] := by
  induction part with
  | nil => rfl
  | cons c part ih =>
    have hc : c ≠ separator := fun heq => h (heq ▸ mem_cons_self)
    rw [splitAt, if_neg hc, ih fun hmem => h (mem_cons_of_mem _ hmem)]

/-- **The text of an address reads back as the address.** -/
theorem parseV4_formatV4 {address : Nat} (h : address < 2 ^ 32) :
    parseV4 (formatV4 address) = some address := by
  obtain ⟨h1, n1⟩ := octet_toString (address / 2 ^ 24 % 256) (Nat.mod_lt _ (by omega))
  obtain ⟨h2, n2⟩ := octet_toString (address / 2 ^ 16 % 256) (Nat.mod_lt _ (by omega))
  obtain ⟨h3, n3⟩ := octet_toString (address / 2 ^ 8 % 256) (Nat.mod_lt _ (by omega))
  obtain ⟨h4, n4⟩ := octet_toString (address % 256) (Nat.mod_lt _ (by omega))
  have hsplit : splitAt '.' (formatV4 address).toList
      = [(toString (address / 2 ^ 24 % 256)).toList, (toString (address / 2 ^ 16 % 256)).toList,
        (toString (address / 2 ^ 8 % 256)).toList, (toString (address % 256)).toList] := by
    have hdot : ".".toList = ['.'] := rfl
    unfold formatV4
    simp only [String.toList_append, hdot, append_assoc, cons_append, nil_append]
    rw [splitAt_append n1, splitAt_append n2, splitAt_append n3, splitAt_of_not_mem n4]
  unfold parseV4
  rw [hsplit]
  simp only [mapM_cons, mapM_nil, h1, h2, h3, h4, Option.pure_def, Option.bind_eq_bind,
    Option.bind_some]
  congr 1
  omega

/-! ## The stored peers -/

/-- The peer a name has. -/
abbrev Names := String → Option Peer

/-- **The peers are in order**: usable keys, addresses from the subnets, and within a
version no address and no public key twice. -/
structure Orderly (site : Site) (peers : Names) : Prop where
  keys : ∀ name peer, peers name = some peer →
    isKey peer.publicKey = true ∧ isKey peer.presharedKey = true
  placed : ∀ name peer, peers name = some peer →
    ∃ net, (peer.version, net) ∈ site.versions
      ∧ ∃ address ∈ net.hosts.drop 1, peer.address = formatV4 address
  distinct : ∀ name peer other peer', peers name = some peer → peers other = some peer' →
    name ≠ other → peer.version = peer'.version →
    peer.address ≠ peer'.address ∧ peer.publicKey ≠ peer'.publicKey

/-- The names without one. -/
def without (peers : Names) (name : String) : Names := Function.update peers name none

/-- The names with a peer under one of them. -/
def with_ (peers : Names) (name : String) (peer : Peer) : Names :=
  Function.update peers name (some peer)

variable {peers : Names} {body : Body} {doc : Document} {name u : String}
  {other text address : String} {inst : Instance} {c : Call}

theorem without_eq_some {name : String} :
    without peers name other = some peer ↔ other ≠ name ∧ peers other = some peer := by
  unfold without
  by_cases h : other = name
  · subst h
    simp
  · rw [Function.update_of_ne h]
    exact ⟨fun hpeer => ⟨h, hpeer⟩, fun hpeer => hpeer.2⟩

theorem with_eq_some {name : String} {peer new : Peer} : with_ peers name new other = some peer
      ↔ (other = name ∧ new = peer) ∨ other ≠ name ∧ peers other = some peer := by
  unfold with_
  by_cases h : other = name
  · subst h
    simp
  · rw [Function.update_of_ne h]
    simp [h]

theorem Orderly.without (h : Orderly site peers) (name : String) :
    Orderly site (without peers name) := by
  refine ⟨fun other peer hpeer => h.keys other peer (without_eq_some.mp hpeer).2,
    fun other peer hpeer => h.placed other peer (without_eq_some.mp hpeer).2, ?_⟩
  intro one peer two peer' hone htwo
  exact h.distinct one peer two peer' (without_eq_some.mp hone).2 (without_eq_some.mp htwo).2

/-- A peer may be put under a name where it fits in with the others. -/
theorem Orderly.with_ (h : Orderly site peers)
    (hk : isKey peer.publicKey = true ∧ isKey peer.presharedKey = true)
    (hplac : ∃ net, (peer.version, net) ∈ site.versions
      ∧ ∃ address ∈ net.hosts.drop 1, peer.address = formatV4 address)
    (hdist : ∀ other peer', other ≠ name → peers other = some peer' →
      peer'.version = peer.version → peer'.address ≠ peer.address ∧ peer'.publicKey ≠ peer.publicKey)
    : Orderly site (with_ peers name peer) := by
  refine ⟨fun other peer' hpeer => ?_, fun other peer' hpeer => ?_, ?_⟩
  · rcases with_eq_some.mp hpeer with ⟨-, rfl⟩ | ⟨-, hpeer⟩
    · exact hk
    · exact h.keys other peer' hpeer
  · rcases with_eq_some.mp hpeer with ⟨-, rfl⟩ | ⟨-, hpeer⟩
    · exact hplac
    · exact h.placed other peer' hpeer
  · intro one peer₁ two peer₂ hone htwo hne hver
    rcases with_eq_some.mp hone with ⟨rfl, rfl⟩ | ⟨hnm, hold⟩
    · rcases with_eq_some.mp htwo with ⟨rfl, rfl⟩ | ⟨hoth, hold'⟩
      · exact absurd rfl hne
      · obtain ⟨haddr, hkey⟩ := hdist two peer₂ hoth hold' hver.symm
        exact ⟨haddr.symm, hkey.symm⟩
    · rcases with_eq_some.mp htwo with ⟨rfl, rfl⟩ | ⟨-, hold'⟩
      · exact hdist one peer₁ hnm hold hver
      · exact h.distinct one peer₁ two peer₂ hold hold' hne hver

/-! ### What a call does to them -/

def names (doc : Document) : Names := find doc.peers

/-- A document with one entry per name whose peers are in order. -/
structure InOrder (site : Site) (doc : Document) : Prop where
  nodup : (doc.peers.map Prod.fst).Nodup
  orderly : Orderly site (names doc)

/-- **How a call changes the peer of its name.** -/
inductive Change : Call → Option Peer → Option Peer → Prop
  | create (body : Body) (peer : Peer) : peer.enabled = true → Change (.create body) none (some peer)
  | setEnabled (name : String) (peer : Peer) (enabled : Bool) (revision : Int) :
    peer.enabled = !enabled →
    Change (.setEnabled name enabled) (some peer) (some { peer with enabled, revision })
  | rotate (name : String) (body : Body) (peer : Peer) (publicKey presharedKey op : String)
    (revision : Int) :
    Change (.rotate name body) (some peer) (some { peer with
      publicKey, presharedKey, operationId := op, revision })
  | delete (name : String) (peer : Peer) : Change (.delete name) (some peer) none

/-- The peers after a call. -/
def changed (peers : Names) (name : String) (after : Option Peer) : Names :=
  Function.update peers name after

theorem names_erase (doc : Document) (name : String) :
    names { doc with peers := erase doc.peers name } = without (names doc) name := by
  funext other
  unfold names without
  rw [find_erase, Function.update_apply]

theorem checkText_passes {name : String} {ok : String → Bool}
    (h : checkText body name ok = .ok text) : ok text = true := by
  unfold checkText at h
  split at h
  · split at h
    next hok =>
      cases h
      exact hok
    · cases h
  · cases h

theorem isKey_of_key {name : String} (h : key body name = .ok text) : isKey text = true :=
  (Bool.and_eq_true_iff.mp (checkText_passes h)).1

theorem names_of_record (h : record doc name = .ok peer) : names doc name = some peer := by
  unfold record at h
  split at h
  next found hf =>
    cases h
    exact hf
  · cases h

/-- A version that is enabled, and its subnet. -/
theorem mem_versions_of_tunnel {field : Field} (h : tunnel site.instances field = .ok inst) :
    ∃ net, (inst.version, net) ∈ site.versions ∧ inst.hosts = net.hosts.map formatV4 := by
  unfold tunnel at h
  split at h
  · split at h
    · cases h
    · split at h
      next found hf =>
        cases h
        obtain ⟨e, he, rfl⟩ := mem_map.mp (mem_of_find?_eq_some hf)
        exact ⟨e.2, he, rfl⟩
      · cases h
  · cases h

/-- A free address is one of the subnet's, and nobody's. -/
theorem freeAddress_eq_ok (h : freeAddress doc inst = .ok address) : address ∈ inst.hosts.drop 1
      ∧ ∀ name peer, names doc name = some peer → peer.version = inst.version →
        peer.address ≠ address := by
  unfold freeAddress at h
  dsimp only at h
  split at h
  next found hf =>
    cases h
    refine ⟨mem_of_find?_eq_some hf, fun name peer hpeer hver heq => ?_⟩
    have hfree := find?_some hf
    rw [Bool.not_eq_true', ← Bool.not_eq_true, contains_iff_mem] at hfree
    refine hfree (mem_map.mpr ⟨(name, peer), ?_, heq⟩)
    exact mem_filter.mpr ⟨mem_of_find hpeer, decide_eq_true hver⟩
  · cases h

theorem not_taken {v publicKey : String} {except : Option String}
    (h : pubkeyTaken doc v publicKey except = false) (hpeer : names doc name = some peer)
    (hver : peer.version = v) (hnm : some name ≠ except) :
    peer.publicKey ≠ publicKey := by
  intro hkey
  have hall := any_eq_false.mp h (name, peer) (mem_of_find hpeer)
  exact hall (decide_eq_true ⟨hver, hkey, hnm⟩)

section

variable (h : InOrder site doc)

include h

/-- A peer that fits in is put under a name. -/
theorem InOrder.put (hdoc : doc'.peers = put doc.peers name peer)
    (hk : isKey peer.publicKey = true ∧ isKey peer.presharedKey = true)
    (hplac : ∃ net, (peer.version, net) ∈ site.versions
      ∧ ∃ address ∈ net.hosts.drop 1, peer.address = formatV4 address)
    (hdist : ∀ other peer', other ≠ name → names doc other = some peer' →
      peer'.version = peer.version → peer'.address ≠ peer.address ∧ peer'.publicKey ≠ peer.publicKey)
    : names doc' = changed (names doc) name (some peer) ∧ InOrder site doc' := by
  have hns : names doc' = Service.with_ (names doc) name peer := by
    funext other
    unfold names Service.with_
    rw [hdoc, find_put, Function.update_apply]
  exact ⟨hns, hdoc ▸ nodup_keys_put h.nodup _ _, hns ▸ h.orderly.with_ hk hplac hdist⟩

theorem createPeer_change {now : Int}
    (hp : createPeer site.sha256 site.instances doc now body = .ok ⟨some doc', name⟩) :
    ∃ after, Change (.create body) (names doc name) after
      ∧ names doc' = changed (names doc) name after ∧ InOrder site doc' := by
  simp only [createPeer, bind_eq_ok, throw_then] at hp
  obtain ⟨-, -, op, -, u, -, publicKey, hpubl, presharedKey, hpsk, inst, hinst, answer, -, hp⟩ := hp
  cases answer with
  | some again => cases hp
  | none =>
    simp only [check_eq_ok, bind_eq_ok, pure_eq_ok] at hp
    obtain ⟨hnew, hfree, address, haddr, hp⟩ := hp
    cases hp
    obtain ⟨net, hnet, hhs⟩ := mem_versions_of_tunnel hinst
    obtain ⟨hmem, hunused⟩ := freeAddress_eq_ok haddr
    have hn : names doc name = none := Option.not_isSome_iff_eq_none.mp hnew
    refine ⟨some ⟨inst.version, publicKey, presharedKey, address, true, 1, now, op⟩, ?_,
      h.put rfl ⟨isKey_of_key hpubl, isKey_of_key hpsk⟩ ⟨net, hnet, ?_⟩ ?_⟩
    · rw [hn]
      exact .create body _ rfl
    · rw [hhs, ← map_drop] at hmem
      obtain ⟨v, hval, rfl⟩ := mem_map.mp hmem
      exact ⟨v, hval, rfl⟩
    · intro other peer' _ hpeer hver
      exact ⟨hunused other peer' hpeer hver,
        not_taken (Bool.eq_false_iff.mpr hfree) hpeer hver (by rintro ⟨⟩)⟩

theorem setEnabled_change {enabled : Bool}
    (hp : setEnabled site.instances doc u enabled = .ok ⟨some doc', name⟩) :
    ∃ after, Change (.setEnabled u enabled) (names doc name) after
      ∧ names doc' = changed (names doc) name after ∧ InOrder site doc' := by
  simp only [setEnabled, bind_eq_ok, throw_then, check_eq_ok] at hp
  obtain ⟨peer, hpeer, -, hp⟩ := hp
  split at hp
  · cases hp
  next hoth =>
    cases pure_eq_ok.mp hp
    have hnm := names_of_record hpeer
    refine ⟨some { peer with enabled, revision := peer.revision + 1 }, ?_,
      h.put rfl (h.orderly.keys name peer hnm) (h.orderly.placed name peer hnm)
        fun other peer' hne hpeer' => h.orderly.distinct other peer' name peer hpeer' hnm hne⟩
    rw [hnm]
    refine .setEnabled name peer enabled _ ?_
    cases hen : peer.enabled <;> cases enabled <;> simp_all

theorem rotate_change (hp : rotate site.sha256 doc u body = .ok ⟨some doc', name⟩) :
    ∃ after, Change (.rotate u body) (names doc name) after
      ∧ names doc' = changed (names doc) name after ∧ InOrder site doc' := by
  simp only [rotate, bind_eq_ok, throw_then] at hp
  obtain ⟨-, -, op, -, publicKey, hpubl, presharedKey, hpsk, peer, hpeer, ans, -, hp⟩ := hp
  cases ans with
  | some again => cases hp
  | none =>
    simp only [check_eq_ok, pure_eq_ok] at hp
    obtain ⟨hfree, -, hp⟩ := hp
    cases hp
    have hnm := names_of_record hpeer
    refine ⟨some { peer with
        publicKey, presharedKey, operationId := op, revision := peer.revision + 1 }, ?_,
      h.put rfl ⟨isKey_of_key hpubl, isKey_of_key hpsk⟩
        (h.orderly.placed name peer hnm) fun other peer' hne hpeer' hver => ?_⟩
    · rw [hnm]
      exact .rotate name body peer _ _ _ _
    · refine ⟨(h.orderly.distinct other peer' name peer hpeer' hnm hne hver).1, ?_⟩
      exact not_taken (Bool.eq_false_iff.mpr hfree) hpeer' hver fun hsm => hne (Option.some.inj hsm)

theorem deletePeer_change (hp : deletePeer doc u = .ok ⟨some doc', name⟩) :
    ∃ after, Change (.delete u) (names doc name) after
      ∧ names doc' = changed (names doc) name after ∧ InOrder site doc' := by
  simp only [deletePeer, bind_eq_ok, pure_eq_ok] at hp
  obtain ⟨peer, hpeer, hp⟩ := hp
  cases hp
  refine ⟨none, ?_, names_erase doc name, nodup_keys_filter h.nodup _, ?_⟩
  · rw [names_of_record hpeer]
    exact .delete name peer
  · rw [names_erase]
    exact h.orderly.without name

/-- **A call changes the peer of one name**, and the peers stay in order. -/
theorem plan_change {now : Int}
    (hp : plan site.sha256 site.instances doc now c = .ok ⟨some doc', name⟩) :
    ∃ after, Change c (names doc name) after
      ∧ names doc' = changed (names doc) name after ∧ InOrder site doc' := by
  cases c with
  | create body => exact createPeer_change h hp
  | setEnabled u enabled => exact setEnabled_change h hp
  | rotate u body => exact rotate_change h hp
  | delete u => exact deletePeer_change h hp

end

/-! ## What a device should know -/

/-- A device should have this under a key. -/
def Wants (site : Site) (peers : Names) (version key : String) (live : LivePeer) : Prop :=
  ∃ name peer presharedKey, peers name = some peer ∧ peer.version = version ∧ peer.enabled = true
    ∧ site.hexkey peer.publicKey = some key ∧ site.hexkey peer.presharedKey = some presharedKey
    ∧ live = ⟨presharedKey, [allowed peer.address]⟩

/-- **A device has exactly the enabled peers of its version.** -/
def Mirrors (site : Site) (device : Peers) (peers : Names) (version : String) : Prop :=
  ∀ key live, find device key = some live ↔ Wants site peers version key live

section Mirrors

variable {peers : Names} {version name : String} {peer : Peer} {device : Peers}
  {presharedKey : String}

theorem allowed_injective {a b : String} (h : allowed a = allowed b) : a = b := by
  have hlist := congrArg String.toList h
  unfold allowed at hlist
  rw [String.toList_append, String.toList_append] at hlist
  exact String.toList_injective (append_cancel_right hlist)

/-- A peer that is disabled, or of another version, is wanted by no device of this one. -/
theorem wants_without_of_idle (h : ∀ p, peers name = some p → p.version = version → p.enabled = false)
    {key : String} {live : LivePeer} :
    Wants site (without peers name) version key live ↔ Wants site peers version key live := by
  constructor
  · rintro ⟨other, p, presharedKey, hp, hr⟩
    exact ⟨other, p, presharedKey, (without_eq_some.mp hp).2, hr⟩
  · rintro ⟨other, p, presharedKey, hp, hver, hen, hr⟩
    refine ⟨other, p, presharedKey, without_eq_some.mpr ⟨fun heq => ?_, hp⟩, hver, hen, hr⟩
    rw [heq] at hp
    rw [h p hp hver] at hen
    cases hen

theorem mirrors_without_of_idle
    (h : ∀ p, peers name = some p → p.version = version → p.enabled = false) :
    Mirrors site device (without peers name) version ↔ Mirrors site device peers version :=
  forall₂_congr fun _ _ => iff_congr Iff.rfl (wants_without_of_idle h)

/-- **Removing a peer** from a device and from the stored ones. -/
theorem Mirrors.remove (h : Mirrors site device peers version) (hord : Orderly site peers)
    (hpeer : peers name = some peer) (hver : peer.version = version) {key : String}
    (hkey : site.hexkey peer.publicKey = some key) :
    Mirrors site (Line.apply device (.remove key)) (without peers name) version := by
  intro other live
  show find (erase device key) other = some live ↔ _
  rw [find_erase]
  constructor
  · intro hf
    split at hf
    · cases hf
    next hne =>
      obtain ⟨n, p, presharedKey, hp, hv, he, hk, hr⟩ := (h other live).mp hf
      refine ⟨n, p, presharedKey, without_eq_some.mpr ⟨fun heq => hne ?_, hp⟩, hv, he, hk, hr⟩
      rw [heq, hpeer] at hp
      cases hp
      rw [hkey] at hk
      exact (Option.some.inj hk).symm
  · rintro ⟨n, p, presharedKey, hp, hv, he, hk, hr⟩
    obtain ⟨hne, hp⟩ := without_eq_some.mp hp
    rw [if_neg, (h other live).mpr ⟨n, p, presharedKey, hp, hv, he, hk, hr⟩]
    intro heq
    rw [heq] at hk
    exact (hord.distinct n p name peer hp hpeer hne (hv.trans hver.symm)).2
      (site.hexkey_injective _ _ key hk hkey)

/-- What a device has under a key after a peer was set. -/
theorem find_apply_peer (dev : Peers) (key psk addr o : String) :
    find (Line.apply dev (.peer key psk addr)) o = if o = key then some ⟨psk, [allowed addr]⟩
        else (find dev o).map fun live => { live with
          allowedIps := live.allowedIps.filter fun ip => ! decide (ip = allowed addr) } := by
  show find (put _ _ _) o = _
  rw [find_put]
  congr 1
  exact find_map (fun _ live => { live with
    allowedIps := live.allowedIps.filter fun ip => ! decide (ip = allowed addr) }) dev o

/-- A peer keeps its address when another one is set. -/
theorem filter_allowed (h : other ≠ address) : ({ (⟨presharedKey, [allowed other]⟩ : LivePeer) with
      allowedIps := [allowed other].filter fun ip => ! decide (ip = allowed address) } : LivePeer)
      = ⟨presharedKey, [allowed other]⟩ := by
  have hne : allowed other ≠ allowed address := fun heq => h (allowed_injective heq)
  simp [hne]

/-- **Setting a peer** on a device and among the stored ones. -/
theorem Mirrors.set (h : Mirrors site device (without peers name) version)
    (hord : Orderly site peers) (hpeer : peers name = some peer)
    (hver : peer.version = version) (hen : peer.enabled = true) {key : String}
    (hkey : site.hexkey peer.publicKey = some key)
    (hpsk : site.hexkey peer.presharedKey = some presharedKey) :
    Mirrors site (Line.apply device (.peer key presharedKey peer.address)) peers version := by
  intro other live
  rw [find_apply_peer]
  by_cases hoth : other = key
  · rw [if_pos hoth, Option.some.injEq]
    constructor
    · intro hlive
      exact ⟨name, peer, presharedKey, hpeer, hver, hen, hoth ▸ hkey, hpsk, hlive.symm⟩
    · rintro ⟨n, p, psk, hp, hv, -, hk, hps, rfl⟩
      -- the public key is this peer's alone
      have hnm : n = name := by
        by_contra hne
        exact (hord.distinct n p name peer hp hpeer hne (hv.trans hver.symm)).2
          (site.hexkey_injective _ _ key (hoth ▸ hk) hkey)
      rw [hnm, hpeer] at hp
      cases hp
      rw [hpsk] at hps
      cases hps
      rfl
  · rw [if_neg hoth, Option.map_eq_some_iff]
    constructor
    · rintro ⟨old, hold, rfl⟩
      obtain ⟨n, p, psk, hp, hv, he, hk, hps, rfl⟩ := (h other old).mp hold
      obtain ⟨hne, hp⟩ := without_eq_some.mp hp
      refine ⟨n, p, psk, hp, hv, he, hk, hps, filter_allowed ?_⟩
      exact (hord.distinct n p name peer hp hpeer hne (hv.trans hver.symm)).1
    · rintro ⟨n, p, psk, hp, hv, he, hk, hps, rfl⟩
      have hne : n ≠ name := by
        intro heq
        rw [heq, hpeer] at hp
        cases hp
        rw [hkey] at hk
        exact hoth (Option.some.inj hk).symm
      refine ⟨_, (h other _).mpr ⟨n, p, psk, without_eq_some.mpr ⟨hne, hp⟩, hv, he, hk, hps, rfl⟩,
        filter_allowed ?_⟩
      exact (hord.distinct n p name peer hp hpeer hne (hv.trans hver.symm)).1

theorem hexkey_of_isKey (h : isKey text = true) : ∃ key, site.hexkey text = some key :=
  Option.isSome_iff_exists.mp (site.hexkey_isSome text h)

/-- Two names differ at most in what one name has: without it they are the same. -/
theorem without_changed (peers : Names) (name : String) (after : Option Peer) :
    without (changed peers name after) name = without peers name :=
  Function.update_idem _ _ _

theorem changed_self (peers : Names) (name : String) (after : Option Peer) :
    changed peers name after name = after :=
  Function.update_self _ _ _

/-- The version a call is about. -/
def versionOf (before after : Option Peer) : String := ((before.or after).map Peer.version).getD ""

/-- The devices of other versions are not concerned. -/
theorem Mirrors.elsewhere {after : Option Peer} (hchg : Change c (peers name) after)
    (hver : version ≠ versionOf (peers name) after) (h : Mirrors site device peers version) :
    Mirrors site device (changed peers name after) version := by
  have hold : ∀ p, peers name = some p → p.version = version → p.enabled = false := by
    intro p hp hv
    rw [hp] at hver
    exact absurd hv.symm hver
  have hnew : ∀ p, changed peers name after name = some p → p.version = version →
      p.enabled = false := by
    intro p hp hv
    rw [changed_self] at hp
    refine absurd ?_ hver
    generalize hbef : peers name = before at hchg
    cases hchg with
    | create body new _ | setEnabled _ old _ _ _ | rotate _ _ old _ _ _ _ =>
      cases hp
      exact hv.symm
    | delete _ old => cases hp
  rw [← mirrors_without_of_idle hnew, without_changed, mirrors_without_of_idle hold]
  exact h

/-- The lines that take a peer off a device. -/
theorem Mirrors.removeLines (h : Mirrors site device peers version) (hord : Orderly site peers)
    (hpeer : peers name = some peer) (hver : peer.version = version) :
    Mirrors site ((removeLines site peer).foldl Line.apply device) (without peers name) version := by
  obtain ⟨key, hkey⟩ := hexkey_of_isKey (hord.keys name peer hpeer).1
  have hlns : Service.removeLines site peer = [.remove key] := by
    unfold Service.removeLines
    rw [hkey]
  rw [hlns]
  exact h.remove hord hpeer hver hkey

/-- The lines that set a peer on a device. -/
theorem Mirrors.peerLines (h : Mirrors site device (without peers name) version)
    (hord : Orderly site peers) (hpeer : peers name = some peer)
    (hver : peer.version = version) (hen : peer.enabled = true) :
    Mirrors site ((peerLines site peer).foldl Line.apply device) peers version := by
  obtain ⟨hpubl, hpreshared⟩ := hord.keys name peer hpeer
  obtain ⟨key, hkey⟩ := hexkey_of_isKey hpubl
  obtain ⟨presharedKey, hpsk⟩ := hexkey_of_isKey hpreshared
  have hlns : Service.peerLines site peer = [.peer key presharedKey peer.address] := by
    unfold Service.peerLines
    rw [hkey, hpsk]
  rw [hlns]
  exact h.set hord hpeer hver hen hkey hpsk

/-- **A device that is told of a change** keeps up with it. -/
theorem Mirrors.change {after : Option Peer} (hchg : Change c (peers name) after)
    (hord : Orderly site peers) (hord' : Orderly site (changed peers name after))
    (h : Mirrors site device peers (versionOf (peers name) after)) :
    Mirrors site ((liveLines site (peers name) after c).foldl Line.apply device)
      (changed peers name after) (versionOf (peers name) after) := by
  have hself := changed_self peers name after
  have hwo := without_changed peers name after
  generalize hbef : peers name = before at *
  cases hchg with
  | create body new hen =>
    have hr := (mirrors_without_of_idle (by rw [hbef]; exact nofun)).mpr h
    rw [← hwo] at hr
    exact hr.peerLines hord' hself rfl hen
  | setEnabled _ old enabled rev hold =>
    cases enabled with
    | true =>
      have hr := (mirrors_without_of_idle (by rw [hbef]; rintro _ ⟨⟩ _; exact hold)).mpr h
      rw [← hwo] at hr
      -- the lines are those of the peer before, which differ in nothing a device is told
      have hset := hr.peerLines hord' hself rfl rfl
      exact hset
    | false =>
      refine (mirrors_without_of_idle (by rw [hself]; rintro _ ⟨⟩ _; rfl)).mp ?_
      rw [hwo]
      exact h.removeLines hord hbef rfl
  | rotate _ body old publicKey presharedKey op revision =>
    have hrem := h.removeLines hord hbef rfl
    rw [← hwo] at hrem
    show Mirrors site ((Service.removeLines site old ++ if old.enabled then
      Service.peerLines site { old with publicKey, presharedKey, operationId := op, revision }
      else []).foldl Line.apply device) _ _
    rw [foldl_append]
    by_cases hen : old.enabled = true
    · rw [if_pos hen]
      exact hrem.peerLines hord' hself rfl hen
    · rw [if_neg hen]
      refine (mirrors_without_of_idle ?_).mp hrem
      rw [hself]
      rintro _ ⟨⟩ _
      exact Bool.eq_false_iff.mpr hen
  | delete _ old =>
    show Mirrors site ((if old.enabled then Service.removeLines site old else []).foldl
      Line.apply device) (without peers name) _
    by_cases hen : old.enabled = true
    · rw [if_pos hen]
      exact h.removeLines hord hbef rfl
    · rw [if_neg hen]
      refine (mirrors_without_of_idle ?_).mpr h
      rw [hbef]
      rintro _ ⟨⟩ _
      exact Bool.eq_false_iff.mpr hen

end Mirrors

/-! ## Reconciliation -/

/-- What a table of wanted peers asks a device to have. -/
def livePeer (wanted : String × String) : LivePeer := ⟨wanted.1, [allowed wanted.2]⟩

section Reconcile

variable {want : List (String × String × String)} {live device : Peers}

theorem find_foldl_remove (gone : List String) (dev : Peers) (key : String) :
    find ((gone.map Line.remove).foldl Line.apply dev) key
      = if key ∈ gone then none else find dev key := by
  induction gone generalizing dev with
  | nil => simp
  | cons first gone ih =>
    rw [map_cons, foldl_cons, ih]
    show (if key ∈ gone then none else find (erase dev first) key) = _
    rw [find_erase]
    by_cases hkey : key = first
    · simp [hkey]
    · simp [hkey]

/-- **The second half of a reconciliation**: what is not as wanted is set, one peer
after another. What was right before and what was set stays right. -/
theorem find_foldl_peer {rest : List (String × String × String)}
    (hk : (want.map Prod.fst).Nodup) (hr : ∀ e ∈ rest, e ∈ want)
    (haddr : ∀ e ∈ want, ∀ e' ∈ want, e.1 ≠ e'.1 → e.2.2 ≠ e'.2.2)
    (hoth : ∀ key, find want key = none → find device key = none)
    (hright : ∀ e ∈ want, e ∉ rest → find device e.1 = some (livePeer e.2)) (key : String) :
    find ((rest.map fun e => Line.peer e.1 e.2.1 e.2.2).foldl Line.apply device) key
      = (find want key).map livePeer := by
  induction rest generalizing device with
  | nil =>
    cases hf : find want key with
    | none => exact hoth key hf
    | some wanted => exact hright (key, wanted) (mem_of_find hf) not_mem_nil
  | cons first rest ih =>
    have hfst := hr first mem_cons_self
    rw [map_cons, foldl_cons]
    refine ih (fun e he => hr e (mem_cons_of_mem _ he)) (fun other hother => ?_) fun e he hnot => ?_
    · rw [find_apply_peer, if_neg, hoth other hother]
      · rfl
      · intro heq
        have hsm := isSome_find_of_mem (show (first.1, first.2) ∈ want from hfst)
        rw [← heq, hother] at hsm
        cases hsm
    · rw [find_apply_peer]
      by_cases heq : e.1 = first.1
      · have hsame : e = first := inj_on_of_nodup_map hk he hfst heq
        rw [if_pos heq, hsame]
        rfl
      · have hold := hright e he fun hmem => by
          rcases mem_cons.mp hmem with rfl | hmem
          · exact heq rfl
          · exact hnot hmem
        rw [if_neg heq, hold]
        exact congrArg some (filter_allowed (haddr e he first hfst heq))

/-- **A reconciliation leaves what is wanted.** -/
theorem find_reconcileLines (hk : (want.map Prod.fst).Nodup)
    (haddr : ∀ e ∈ want, ∀ e' ∈ want, e.1 ≠ e'.1 → e.2.2 ≠ e'.2.2) (key : String) :
    find ((reconcileLines live want).foldl Line.apply live) key = (find want key).map livePeer := by
  have hrem := find_foldl_remove ((live.filter fun e => (find want e.1).isNone).map Prod.fst) live
  simp only [map_map] at hrem
  unfold reconcileLines
  rw [foldl_append]
  refine find_foldl_peer hk (fun e he => (mem_filter.mp he).1) haddr
    (fun other hoth => (hrem other).trans ?_) (fun e he hnot => (hrem e.1).trans ?_) key
  · split
    · rfl
    next hnot =>
      cases hf : find live other with
      | none => rfl
      | some peer =>
        refine absurd (mem_map_of_mem (mem_filter.mpr ⟨mem_of_find hf, ?_⟩)) hnot
        rw [hoth]
        rfl
  · rw [if_neg]
    · by_contra hwrong
      refine hnot (mem_filter.mpr ⟨he, ?_⟩)
      simpa [livePeer] using hwrong
    · intro hmem
      obtain ⟨e', he', heq⟩ := mem_map.mp hmem
      have hn := (mem_filter.mp he').2
      rw [heq, find_of_mem hk he] at hn
      cases hn

end Reconcile

section Desired

/-- An entry of the document that a device of the version should know. -/
def Enters (site : Site) (version : String) (e : String × Peer) (key : String)
    (wanted : String × String) : Prop :=
  (e.2.version = version ∧ e.2.enabled = true) ∧ site.hexkey e.2.publicKey = some key
    ∧ site.hexkey e.2.presharedKey = some wanted.1 ∧ wanted.2 = e.2.address

variable {doc : Document} {version : String}

/-- A key stands for one entry. -/
theorem InOrder.enters_unique (h : InOrder site doc) {e e' : String × Peer} {key : String}
    {wanted wanted' : String × String} (he : e ∈ doc.peers) (he' : e' ∈ doc.peers)
    (hen : Enters site version e key wanted) (hen' : Enters site version e' key wanted') :
    e = e' := by
  obtain ⟨⟨hver, -⟩, hkey, -⟩ := hen
  obtain ⟨⟨hver', -⟩, hkey', -⟩ := hen'
  by_contra hne
  have hnm : e.1 ≠ e'.1 := fun heq => hne (inj_on_of_nodup_map h.nodup he he' heq)
  exact (h.orderly.distinct e.1 e.2 e'.1 e'.2 (find_of_mem h.nodup he)
    (find_of_mem h.nodup he') hnm (hver.trans hver'.symm)).2
    (site.hexkey_injective _ _ key hkey hkey')

/-- One entry after another, the table has what those so far ask for. -/
theorem InOrder.desired_go (h : InOrder site doc) {entries : List (String × Peer)}
    (hmem : ∀ e ∈ entries, e ∈ doc.peers) : ∃ want, entries.foldlM (fun out e =>
        if e.2.version = version ∧ e.2.enabled = true then do
          let key ← site.hexkey e.2.publicKey
          let presharedKey ← site.hexkey e.2.presharedKey
          some (Table.put out key (presharedKey, e.2.address))
        else some out) [] = some want
      ∧ (want.map Prod.fst).Nodup
      ∧ ∀ key wanted, Table.find want key = some wanted
        ↔ ∃ e ∈ entries, Enters site version e key wanted := by
  induction entries using reverseRecOn with
  | nil => exact ⟨[], rfl, nodup_nil, by simp⟩
  | append_singleton done e ih =>
    obtain ⟨out, hfold, hnd, hout⟩ := ih fun e' he' => hmem e' (mem_append_left _ he')
    have he : e ∈ doc.peers := hmem e (by simp)
    rw [foldlM_append, hfold]
    simp only [Option.bind_eq_bind, Option.bind_some, foldlM_cons, foldlM_nil,
      Option.pure_def, Option.bind_fun_some, mem_append, mem_singleton, or_and_right,
      exists_or, exists_eq_left]
    by_cases hwant : e.2.version = version ∧ e.2.enabled = true
    · obtain ⟨hpubl, hpreshared⟩ := h.orderly.keys e.1 e.2 (Table.find_of_mem h.nodup he)
      obtain ⟨key, hkey⟩ : ∃ key, site.hexkey e.2.publicKey = some key := hexkey_of_isKey hpubl
      obtain ⟨psk, hpsk⟩ : ∃ psk, site.hexkey e.2.presharedKey = some psk :=
        hexkey_of_isKey hpreshared
      have hen : Enters site version e key (psk, e.2.address) := ⟨hwant, hkey, hpsk, rfl⟩
      rw [if_pos hwant, hkey, hpsk]
      refine ⟨_, rfl, Table.nodup_keys_put hnd _ _, fun other wanted => ?_⟩
      rw [Table.find_put]
      by_cases heq : other = key
      · rw [if_pos heq, heq]
        constructor
        · rintro ⟨⟩
          exact .inr hen
        · intro hor
          have hen' : Enters site version e key wanted := by
            rcases hor with ⟨e', he', hen'⟩ | hen'
            · exact h.enters_unique (hmem e' (mem_append_left _ he')) he hen' hen ▸ hen'
            · exact hen'
          obtain ⟨-, -, hpsk', haddr⟩ := hen'
          rw [← haddr, ← Option.some.inj (hpsk'.symm.trans hpsk)]
      · rw [if_neg heq, hout, or_iff_left]
        exact fun hen' => heq (Option.some.inj (hen'.2.1.symm.trans hkey))
    · rw [if_neg hwant]
      refine ⟨out, rfl, hnd, fun other wanted => ?_⟩
      rw [hout, or_iff_left]
      exact fun hen' => hwant hen'.1

/-- **What the stored peers ask for**, as a table. -/
theorem InOrder.desired (h : InOrder site doc) (version : String) :
    ∃ want, desired site doc version = some want ∧ (want.map Prod.fst).Nodup
      ∧ (∀ e ∈ want, ∀ e' ∈ want, e.1 ≠ e'.1 → e.2.2 ≠ e'.2.2)
      ∧ ∀ key live, (find want key).map livePeer = some live
        ↔ Wants site (names doc) version key live := by
  obtain ⟨want, hwant, hnd, hf⟩ := h.desired_go fun e he => he
  refine ⟨want, hwant, hnd, fun one hone two htwo hne haddr => ?_, fun key live => ?_⟩
  · obtain ⟨e, he, henter⟩ := (hf one.1 one.2).mp (find_of_mem hnd hone)
    obtain ⟨e', he', henter'⟩ := (hf two.1 two.2).mp (find_of_mem hnd htwo)
    obtain ⟨⟨hv, -⟩, hk, -, ha⟩ := henter
    obtain ⟨⟨hv', -⟩, hk', -, ha'⟩ := henter'
    have hnm : e.1 ≠ e'.1 := by
      intro heq
      have hsm : e = e' := inj_on_of_nodup_map h.nodup he he' heq
      rw [hsm, hk'] at hk
      exact hne (Option.some.inj hk).symm
    refine (h.orderly.distinct e.1 e.2 e'.1 e'.2 (find_of_mem h.nodup he)
      (find_of_mem h.nodup he') hnm (hv.trans hv'.symm)).1 ?_
    rw [← ha, ← ha', haddr]
  · rw [Option.map_eq_some_iff]
    constructor
    · rintro ⟨wanted, hwanted, rfl⟩
      obtain ⟨e, he, ⟨hv, hen⟩, hk, hp, ha⟩ := (hf key wanted).mp hwanted
      exact ⟨e.1, e.2, wanted.1, find_of_mem h.nodup he, hv, hen, hk, hp, by
        rw [livePeer, ha]⟩
    · rintro ⟨name, peer, psk, hpeer, hv, hen, hk, hp, rfl⟩
      exact ⟨(psk, peer.address), (hf key _).mpr ⟨(name, peer), mem_of_find hpeer,
        ⟨hv, hen⟩, hk, hp, rfl⟩, rfl⟩

/-- **A reconciled device** has the enabled peers. -/
theorem InOrder.reconciled (h : InOrder site doc) {want : List (String × String × String)}
    (hwant : Service.desired site doc version = some want) (live : Peers) :
    Mirrors site ((reconcileLines live want).foldl Line.apply live) (names doc) version := by
  obtain ⟨want', hwant', hnd, haddr, hspec⟩ := h.desired version
  rw [hwant] at hwant'
  cases hwant'
  intro key peer
  rw [find_reconcileLines hnd haddr]
  exact hspec key peer

end Desired

/-! ## What the programs keep

Between two programs – and within one, as far as the tunnel it works at is left
aside – every tunnel that is configured and not behind has a device that mirrors the
peers in memory, or none. -/

theorem InOrder.congr (h : InOrder site doc) (hps : doc'.peers = doc.peers) :
    InOrder site doc' := by
  refine ⟨hps ▸ h.nodup, ?_⟩
  have hns : names doc' = names doc := by
    unfold names
    rw [hps]
  exact hns ▸ h.orderly

/-- The state file is in order. -/
def Stored (site : Site) (host : Host) : Prop := InOrder site host.disk.document

/-- A tunnel that is configured and not behind has the peers it should have. -/
def Clean (site : Site) (memory : Memory) (host : Host) (version : String) : Prop :=
  (memory.tunnels version).configured = true → (memory.tunnels version).dirty = false →
    ∀ device, host.device (.tunnel version) = some device →
      Mirrors site device.peers (names memory.document) version

/-- **What is kept**, but for one tunnel that is being worked at. -/
structure Kept (site : Site) (busy : Option String) (memory : Memory) (host : Host) : Prop where
  stored : Stored site host
  order : InOrder site memory.document
  known : ∀ version, (memory.tunnels version).configured = true →
    site.versions.any (fun e => e.1 = version) = true
  clean : ∀ version, busy ≠ some version → Clean site memory host version

section Kept

variable {busy : Option String} {memory : Memory} {host : Host} {version : String} {now : ℚ}
  {after : Host} {tunnel : Tunnel} {lines : List Line} {iface : Iface}

theorem tunnels_setTunnel_self (m : Memory) (v : String) (tunnel : Tunnel) :
    (m.setTunnel v tunnel).tunnels v = tunnel :=
  Function.update_self _ _ _

theorem tunnels_setTunnel_of_ne (h : other ≠ version) (tun : Tunnel) :
    (memory.setTunnel version tun).tunnels other = memory.tunnels other :=
  Function.update_of_ne h _ _

theorem Clean.within (h : Clean site memory host version) (hw : Within host after) :
    Clean site memory after version := by
  intro hconf hdt device hdev
  obtain ⟨old, hold, hps⟩ := hw.devices version device hdev
  exact hps ▸ h hconf hdt old hold

namespace Kept

theorem within (h : Kept site busy memory host) (hw : Within host after) :
    Kept site busy memory after :=
  ⟨h.stored.congr (by rw [hw.disk]), h.order, h.known, fun v hv => (h.clean v hv).within hw⟩

theorem samePeers {m : Memory} (h : Kept site busy memory host) (hm : SamePeers memory m) :
    Kept site busy m host := by
  have hns : names m.document = names memory.document := by
    unfold names
    rw [hm.peers]
  refine ⟨h.stored, h.order.congr hm.peers, fun v hv => h.known v (hm.tunnels ▸ hv), fun v hv => ?_⟩
  unfold Clean
  rw [hm.tunnels, hns]
  exact h.clean v hv

theorem leave (h : Kept site none memory host) : Kept site busy memory host :=
  { h with clean := fun v _ => h.clean v nofun }

section

variable (h : Kept site (some version) memory host)

include h

/-- The work at a tunnel ends. -/
theorem enter (hcln : Clean site memory host version) : Kept site none memory host := by
  refine { h with clean := fun v _ => ?_ }
  by_cases hv : version = v
  · exact hv ▸ hcln
  · exact h.clean v fun heq => hv (Option.some.inj heq)

/-- The tunnel that is worked at changes in memory. -/
theorem setTunnel (tun : Tunnel)
    (hkn : tun.configured = true → site.versions.any (fun e => e.1 = version) = true) :
    Kept site (some version) (memory.setTunnel version tun) host := by
  refine ⟨h.stored, h.order, fun v hv => ?_, fun v hv => ?_⟩
  · by_cases hsm : v = version
    · subst hsm
      rw [tunnels_setTunnel_self] at hv
      exact hkn hv
    · rw [tunnels_setTunnel_of_ne hsm] at hv
      exact h.known v hv
  · have hne : v ≠ version := fun heq => hv (heq ▸ rfl)
    unfold Clean
    rw [tunnels_setTunnel_of_ne hne]
    exact h.clean v hv

theorem idle_setTunnel (hidle : tunnel.configured = false) :
    Kept site none (memory.setTunnel version tunnel) host := by
  refine (h.setTunnel tunnel fun hc => by rw [hidle] at hc; cases hc).enter fun hc => ?_
  rw [tunnels_setTunnel_self, hidle] at hc
  cases hc

/-- The device that is worked at changes. -/
theorem setDevice (dev : Device) :
    Kept site (some version) memory (host.setDevice (.tunnel version) dev) := by
  refine { h with clean := fun v hv => ?_ }
  have hne : Iface.tunnel v ≠ .tunnel version := fun heq => hv (by cases heq; rfl)
  intro hconf hdt found hfnd
  rw [device_setDevice, if_neg hne] at hfnd
  exact h.clean v hv hconf hdt found hfnd

end

end Kept

/-! ### Programs that leave the peers alone -/

/-- **A program that leaves the peers alone** keeps what is kept. -/
theorem Kept.spared {α : Type} {prog : Program α} {B : α → Prop} (h : Kept site busy memory host)
    (hdoes : prog.Does (Command.Spares memory.document.peers) B) :
    Runs .none (Stored site) prog host fun a after => B a ∧ Kept site busy memory after := by
  refine Runs.of_does hdoes h fun c hc t ht => ⟨ht.stored, ?_⟩
  rintro ans after ⟨other, hrely, -, hint, -, hresp⟩
  have hoth := ht.within hrely.within
  unfold Command.Spares at hc
  split at hc
  next store =>
    obtain ⟨-, rfl⟩ | ⟨-, landed, rfl⟩ := save_eq hresp
    · exact ⟨h.order.congr hc, hoth.order, hoth.known, hoth.clean⟩
    · refine ⟨?_, hoth.order, hoth.known, hoth.clean⟩
      cases landed with
      | true => exact h.order.congr hc
      | false => exact hoth.stored
  · exact hoth.within (Command.within hc hresp)

/-- The same where it is quiet and its result is a memory with the same peers. -/
theorem Kept.quiet {prog : Program Memory} (h : Kept site busy memory host)
    (hdoes : prog.Does Command.Quiet (SamePeers memory)) :
    Runs .none (Stored site) prog host fun m after => Kept site busy m after :=
  (h.spared (hdoes.mono (fun _ hc => hc.spares) fun _ hB => hB)).mono
    (fun _ _ hend => hend.2.samePeers hend.1) fun _ _ _ => trivial

/-! ### Tunnels -/

/-- What comes of telling a device about its peers. -/
theorem next_setPeers {cs : Conditions} {ok : Bool}
    (h : Next cs host (.effect (.setPeers iface lines)) ok after) :
    ∃ other, Rely host other ∧
      (ok = true ∧ (∃ dev, other.device iface = some dev ∧ after = other.setDevice iface
        { dev with peers := lines.foldl Line.apply dev.peers })
      ∨ ok = false ∧ (after = other ∨ ∃ dev, after = other.setDevice iface dev)) := by
  obtain ⟨other, hrely, -, hint, -, hresp⟩ := h
  refine ⟨other, hrely, ?_⟩
  cases hint with
  | done =>
    obtain ⟨dev, hdev, hpair⟩ := Option.map_eq_some_iff.mp hresp
    cases hpair
    exact .inl ⟨rfl, dev, hdev, rfl⟩
  | torn peers =>
    refine .inr ?_
    cases hresp
    refine ⟨rfl, ?_⟩
    split
    · exact .inr ⟨_, rfl⟩
    · exact .inl rfl
  | failed | time | handshake | account => cases hresp

/-- A device that answered a question has not changed, or is gone. -/
theorem Rely.device_eq {o : Host} (h : Rely host o) {device found : Device}
    (hdev : host.device iface = some device) (hfnd : o.device iface = some found) :
    found = device := by
  rcases h.devices iface with hsm | hn
  · rw [hsm, hdev] at hfnd
    exact (Option.some.inj hfnd).symm
  · rw [hn] at hfnd
    cases hfnd

/-- The tunnel that is worked at is marked as it should be. -/
theorem Kept.finish (h : Kept site (some version) memory host)
    (hconf : tunnel.configured = true → (memory.tunnels version).configured = true)
    (hmir : ∀ device, host.device (.tunnel version) = some device →
      Mirrors site device.peers (names memory.document) version) :
    Kept site none (memory.setTunnel version tunnel) host :=
  (h.setTunnel tunnel fun hc => h.known version (hconf hc)).enter fun _ _ => hmir

/-- **A reconciliation** leaves the tunnel clean, or not configured. -/
theorem Kept.reconcilePeers (h : Kept site (some version) memory host) :
    Runs .none (Stored site) (reconcilePeers site memory version now) host (Kept site none) := by
  refine ⟨h.stored, ?_⟩
  rintro ans after ⟨other, hrely, -, hint, -, hresp⟩
  have hoth := h.within hrely.within
  cases hint with
  | failed =>
    cases hresp
    exact hoth.idle_setTunnel rfl
  | done =>
    obtain ⟨device, hdev, hpair⟩ := Option.map_eq_some_iff.mp hresp
    cases hpair
    obtain ⟨want, hwant, -⟩ := h.order.desired version
    have hmir := h.order.reconciled hwant device.peers
    dsimp only
    rw [hwant]
    dsimp only [Prog.bind]
    split
    next hlns =>
      rw [hlns] at hmir
      refine hoth.finish (fun hc => hc) fun found hfnd => ?_
      rw [hdev] at hfnd
      cases hfnd
      exact hmir
    · refine Prog.Safe.ask_bind hoth.stored fun ok last hnext => ?_
      obtain ⟨moved, hmv, hcs⟩ := next_setPeers hnext
      have hkept := hoth.within hmv.within
      rcases hcs with ⟨rfl, found, hfnd, rfl⟩ | ⟨rfl, hl⟩
      · refine (hkept.setDevice _).finish (fun hc => hc) fun found' hfnd' => ?_
        rw [device_setDevice, if_pos rfl] at hfnd'
        cases hfnd'
        rw [hmv.device_eq hdev hfnd]
        exact hmir
      · rcases hl with rfl | ⟨device', rfl⟩
        · exact hkept.idle_setTunnel rfl
        · exact (hkept.setDevice _).idle_setTunnel rfl
  | torn | time | handshake | account => cases hresp

/-- A quiet command, and then the rest of a program. -/
theorem Kept.ask_bind {α : Type} {c : Command} {rest : Answer c → Program α}
    {post : α → Host → Prop} (h : Kept site busy memory host) (hc : c.Quiet)
    (hr : ∀ ans after, Kept site busy memory after →
      Runs .none (Stored site) (rest ans) after post) :
    Runs .none (Stored site) ((ask c).bind rest) host post := by
  refine ⟨h.stored, ?_⟩
  rintro ans after ⟨other, hrely, -, hint, -, hresp⟩
  exact hr ans after ((h.within hrely.within).within (Command.within hc hresp))

theorem Kept.configureTunnel (h : Kept site (some version) memory host)
    (hidle : (memory.tunnels version).configured = false)
    (hkn : site.versions.any (fun e => e.1 = version) = true) :
    Runs .none (Stored site) (configureTunnel site memory version now) host (Kept site none) := by
  have hret : ∀ after, Kept site (some version) memory after → Kept site none memory after :=
    fun after haft => haft.enter fun hc => by
      rw [hidle] at hc
      cases hc
  refine h.ask_bind trivial fun ok after haft => ?_
  split
  · have hdoes : (check (tell (.addr (.tunnel version))) (tell (.link (.tunnel version)))).Does
        (Command.Spares memory.document.peers) fun _ => True :=
      does_check (does_tell trivial) (does_tell trivial)
    refine (haft.spared hdoes).seq fun ok last hl => ?_
    split
    · exact (hl.2.setTunnel _ fun _ => hkn).reconcilePeers
    · exact hret last hl.2
  · split
    · exact haft.ask_bind trivial fun _ last hl => hret last hl
    · exact hret after haft

section

variable (h : Kept site none memory host)

include h

theorem Kept.reap : Runs .none (Stored site) (reap memory version now) host (Kept site none) := by
  unfold Service.reap
  dsimp only
  split
  · refine h.ask_bind trivial fun ok after haft => ?_
    split
    · exact haft.leave.idle_setTunnel rfl
    · exact haft
  · exact h

/-- A start gives the tunnel a new device, and the memory knows. -/
theorem Kept.launch :
    Runs .none (Stored site) (launch memory version now) host (Kept site none) := by
  unfold Service.launch
  dsimp only
  split
  · exact h
  · refine Prog.Safe.ask_bind h.stored ?_
    rintro ok after ⟨other, hrely, -, hint, -, hresp⟩
    have hoth := h.within hrely.within
    cases hint with
    | done =>
      cases hresp
      exact (hoth.leave.setDevice _).idle_setTunnel rfl
    | failed =>
      cases hresp
      let tun := memory.tunnels version
      let delayed : Tunnel := { tun with
        failures := tun.failures + 1, nextStart := now + backoff (tun.failures + 1) }
      have hdelayed := hoth.leave.setTunnel delayed fun hc => hoth.known version hc
      refine hdelayed.enter fun hconf hdt => ?_
      rw [tunnels_setTunnel_self] at hconf hdt
      exact hoth.clean version nofun hconf hdt
    | torn | time | handshake | account => cases hresp

theorem Kept.supervise (hkn : site.versions.any (fun e => e.1 = version) = true) :
    Runs .none (Stored site) (supervise site memory version now) host (Kept site none) := by
  refine h.reap.seq fun m after haft => ?_
  refine haft.launch.seq fun m' last hl => ?_
  dsimp only
  split
  · exact hl
  · split
    next hidle => exact hl.leave.configureTunnel hidle hkn
    · split
      · exact hl.leave.reconcilePeers
      · exact hl

theorem Kept.superviseAll :
    Runs .none (Stored site) (superviseAll site memory now) host (Kept site none) := by
  refine Prog.Safe.foldlM
    (I := fun rest m after => (∀ e ∈ rest, e ∈ site.versions) ∧ Kept site none m after)
    (fun e rest m after haft => ?_) (fun m after haft => haft.2) ⟨fun e he => he, h⟩
  have hkn : site.versions.any (fun e' => e'.1 = e.1) = true :=
    any_eq_true.mpr ⟨e, haft.1 e mem_cons_self, decide_eq_true rfl⟩
  exact (haft.2.supervise hkn).imp fun m' last hl =>
    ⟨fun e' he' => haft.1 e' (mem_cons_of_mem _ he'), hl⟩

end

/-! ### Requests -/

theorem does_applyNft : (applyNft memory).Does Command.Quiet (SamePeers memory) :=
  ⟨trivial, fun _ => ⟨trivial, fun _ => ⟨rfl, rfl⟩⟩⟩

theorem Kept.tick (h : Kept site none memory host) :
    Runs .none (Stored site) (tick site memory) host (Kept site none) := by
  refine h.ask_bind trivial fun now after haft => ?_
  refine haft.superviseAll.seq fun m last hl => ?_
  have hconv : ∀ m last, Kept site none m last →
      Runs .none (Stored site) (egressConverge site m now false) last (Kept site none) :=
    fun m last hl =>
      hl.quiet ((does_egressConverge false).mono (fun _ hc => hc) fun _ hm => hm.samePeers)
  split
  · exact Prog.Safe.bind ((hl.quiet does_applyNft).mono hconv fun _ _ he => he)
  · exact hconv m last hl

theorem names_pruned (doc : Document) : names doc.pruned = names doc := by
  unfold names
  rw [Document.peers_pruned]

/-- A change that was saved is told to the device, or the tunnel is marked as behind. -/
theorem Kept.liveChange (h : Kept site (some version) memory host)
    (htold : (memory.tunnels version).configured = true → (memory.tunnels version).dirty = false →
      ∀ device, host.device (.tunnel version) = some device →
        Mirrors site (lines.foldl Line.apply device.peers) (names memory.document) version) :
    Runs .none (Stored site) (liveChange site memory version lines) host (Kept site none) := by
  unfold Service.liveChange
  dsimp only
  split
  · refine Prog.Safe.ask_bind h.stored fun ok after hnext => ?_
    obtain ⟨other, hrely, hcs⟩ := next_setPeers hnext
    have hoth := h.within hrely.within
    rcases hcs with ⟨rfl, found, hfnd, rfl⟩ | ⟨rfl, haft⟩
    · refine (hoth.setDevice _).enter fun hconf hdt device hdev => ?_
      rw [device_setDevice, if_pos rfl] at hdev
      cases hdev
      refine htold hconf hdt found ?_
      rcases hrely.devices (.tunnel version) with hsm | hn
      · exact hsm ▸ hfnd
      · rw [hn] at hfnd
        cases hfnd
    · have hbehind : ∀ m, Kept site (some version) memory m → Kept site none
          (memory.setTunnel version { memory.tunnels version with dirty := true }) m := by
        intro m hm
        let tunnel : Tunnel := { memory.tunnels version with dirty := true }
        have hmark := hm.setTunnel tunnel fun hc => hm.known version hc
        refine hmark.enter fun _ hdt => ?_
        rw [tunnels_setTunnel_self] at hdt
        cases hdt
      rcases haft with rfl | ⟨device, rfl⟩
      · exact hbehind _ hoth
      · exact hbehind _ (hoth.setDevice device)
  next hnot =>
    refine h.enter fun hconf hdt device hdev => ?_
    have hlns : lines = [] := by
      by_contra hlns
      exact hnot (by simp [h.known version hconf, hconf, hlns])
    have hmir := htold hconf hdt device hdev
    rw [hlns] at hmir
    exact hmir

/-- **A call that changes peers** is saved, and then told to the device. -/
theorem Kept.peerCall (h : Kept site none memory host) (c : Call) :
    Runs .none (Stored site) (peerCall site memory c) host
      fun r after => Kept site none r.1 after := by
  refine h.ask_bind (c := .wall) trivial fun (now : ℚ) before hbef => ?_
  cases hp : plan site.sha256 site.instances memory.document ⌊now⌋ c with
  | error error => exact hbef
  | ok res =>
    obtain ⟨_ | desired, u⟩ := res
    · exact hbef
    · obtain ⟨peer, hchg, hns, horder⟩ := plan_change h.order hp
      have hprun : InOrder site desired.pruned := horder.congr (Document.peers_pruned _)
      have hself : find desired.pruned.peers u = peer := by
        rw [Document.peers_pruned]
        exact (congrFun hns u).trans (changed_self _ _ _)
      refine Prog.Safe.ask_bind hbef.stored ?_
      rintro ok after ⟨other, hrely, -, hint, -, hresp⟩
      have hoth := hbef.within hrely.within
      -- a save that fails leaves the memory, whatever is in the file
      obtain ⟨hfile, hdevs⟩ : Stored site after ∧ after.device = other.device := by
        obtain ⟨-, rfl⟩ | ⟨-, landed, rfl⟩ := save_eq hresp
        · exact ⟨hprun, rfl⟩
        · cases landed with
          | true => exact ⟨hprun, rfl⟩
          | false => exact ⟨hoth.stored, rfl⟩
      have hcln : ∀ v, Clean site memory after v := by
        intro v hconf hdt device hdev
        rw [hdevs] at hdev
        exact hoth.clean v nofun hconf hdt device hdev
      cases ok with
      | false => exact ⟨hfile, hoth.order, hoth.known, fun v _ => hcln v⟩
      | true =>
        have hdoc : names desired.pruned = changed (names memory.document) u peer :=
          (names_pruned desired).trans hns
        refine Prog.Safe.bind (Prog.Safe.mono (fun m last hl => hl) (fun _ _ he => he) ?_)
        refine Kept.liveChange ⟨hfile, hprun, hoth.known, fun v hv hconf hdt device
          hdev => ?_⟩ fun hconf hdt device hdev => ?_
        · rw [hself] at hv
          show Mirrors site device.peers (names desired.pruned) v
          rw [hdoc]
          exact (hcln v hconf hdt device hdev).elsewhere hchg fun heq => hv (heq ▸ rfl)
        · rw [hself]
          show Mirrors site _ (names desired.pruned) _
          rw [hdoc]
          rw [hself] at hconf hdt hdev
          refine Mirrors.change hchg h.order.orderly (hns ▸ horder.orderly) ?_
          exact hcln _ hconf hdt device hdev

theorem Kept.runSwitch (h : Kept site none memory host) (switch : Except ApiError Switch) :
    Runs .none (Stored site) (runSwitch site memory switch) host
      fun r after => Kept site none r.1 after :=
  (h.spared (does_runSwitch switch)).mono (fun _ _ hend => hend.2.samePeers hend.1)
    fun _ _ _ => trivial

theorem Stored.fresh (h : Stored site host) {store : Store}
    (hps : store.document.peers = host.disk.document.peers) (lastNft : ℚ) :
    Kept site none ⟨store, fun _ => Tunnel.fresh, lastNft, Egress.fresh⟩ host :=
  ⟨h, h.congr hps, fun _ hc => (nomatch hc), fun _ _ hc => (nomatch hc)⟩

/-- **A start** loads what is stored, and knows no tunnel yet. -/
theorem Stored.bootstrap (h : Stored site host) :
    Runs .none (Stored site) (bootstrap site host.disk) host fun loaded after =>
      Stored site after ∧ ∀ memory, loaded = some memory → Kept site none memory after := by
  have hr : ∀ store after, Stored site after → store.document.peers = after.disk.document.peers →
      Runs .none (Stored site) (do
        let memory ← applyNft ⟨store, fun _ => Tunnel.fresh, 0, Egress.fresh⟩
        return some (← Service.tick site memory)) after fun loaded last =>
          Stored site last ∧ ∀ memory, loaded = some memory → Kept site none memory last := by
    intro store after haft hps
    refine ((haft.fresh hps 0).quiet does_applyNft).seq fun m last hl => ?_
    refine hl.tick.seq fun m' end_ hend => ⟨hend.stored, ?_⟩
    rintro _ ⟨⟩
    exact hend
  unfold Service.bootstrap
  dsimp only
  split
  · exact ⟨h, fun _ heq => (nomatch heq)⟩
  · split
    next hmiss =>
      rw [hmiss]
      exact hr _ host h rfl
    · refine Prog.Safe.ask_bind h ?_
      rintro ok after ⟨other, hrely, -, hint, -, hresp⟩
      have hoth : Stored site other := h.congr (by rw [hrely.disk])
      have hsv : InOrder site host.disk.document.pruned := h.congr (Document.peers_pruned _)
      obtain ⟨rfl, rfl⟩ | ⟨rfl, landed, rfl⟩ := save_eq hresp
      · exact hr _ _ hsv rfl
      · refine ⟨?_, fun _ heq => (nomatch heq)⟩
        cases landed with
        | true => exact hsv
        | false => exact hoth

theorem does_shutdown : (shutdown site memory).Does Command.Quiet fun _ => True := by
  have hstop : ∀ (m : Memory) (v : String), (stopTunnel m v).Does Command.Quiet fun _ => True := by
    intro m v
    unfold stopTunnel
    dsimp only
    split
    · exact ⟨trivial, fun _ => trivial⟩
    · trivial
  refine (Prog.Does.foldlM fun m (e : String × Net) => hstop m e.1).bind fun m _ => ?_
  refine (does_egressTeardown.mono (fun _ hc => hc.quiet) fun _ _ => trivial).bind fun _ _ => ?_
  exact .ask trivial

/-- **The programs keep it.** -/
theorem keeps_peers (site : Site) :
    Keeps site .none (Stored site) (fun memory _ => Kept site none memory) where
  always_rely _ _ hrely h := h.congr (by rw [hrely.disk])
  between_rely _ _ _ _ hrely _ h := h.within hrely.within
  boot _ _ h := h.bootstrap
  shutdown _ _ _ _ _ h :=
    (h.spared (does_shutdown.mono (fun _ hc => hc.spares) fun _ hB => hB)).mono
      (fun _ _ hend => hend.2.stored) fun _ _ _ => trivial
  request := by
    intro memory _ host request _ _ h
    have hends : ∀ (m : Memory) (rep : Reply) (after : Host), Kept site none m after →
        Ends (Stored site) (fun m' _ => Kept site none m') (some (m, rep)) after := by
      intro m rep after haft
      refine ⟨haft.stored, ?_⟩
      rintro _ _ ⟨⟩
      exact haft
    cases request with
    | tick => exact h.tick.seq fun m after haft => hends m _ after haft
    | peer c => exact (h.peerCall c).seq fun r after haft => hends r.1 _ after haft
    | apply | rollback => exact (h.runSwitch _).seq fun r after haft => hends r.1 _ after haft

end Kept

/-! ## The peers of a version -/

/-- **The peers of a version** have addresses and public keys of their own, and the
addresses are those of the subnet that have no other use. -/
structure Proper (site : Site) (peers : Names) : Prop where
  distinct : ∀ name peer other peer', peers name = some peer → peers other = some peer' →
    name ≠ other → peer.version = peer'.version →
    peer.address ≠ peer'.address ∧ peer.publicKey ≠ peer'.publicKey
  placed : ∀ name peer, peers name = some peer → ∃ net address,
    (peer.version, net) ∈ site.versions ∧ peer.address = formatV4 address
      ∧ parseV4 peer.address = some address ∧ net.contains address = true
      ∧ address ≠ net.network ∧ address ≠ net.gateway ∧ address ≠ net.broadcast

theorem Orderly.proper (h : Orderly site peers) : Proper site peers := by
  refine ⟨h.distinct, fun name peer hpeer => ?_⟩
  obtain ⟨net, hnet, address, haddr, htext⟩ := h.placed name peer hpeer
  obtain ⟨hlt, hcont, hr⟩ := net.mem_hosts_drop haddr
  exact ⟨net, address, hnet, htext, htext ▸ parseV4_formatV4 hlt, hcont, hr⟩

/-- **The peers are exact.** In every run of the manager and its host – with any calls,
failures, supervision passes, restarts and deaths – the peers in the file are proper;
between two requests those in memory are, and a tunnel that is configured and not
behind has a device with exactly the enabled ones, unless the device is gone. -/
theorem peers_exact {s s' : State} {events : List Event} (hdown : s.manager = .down)
    (hempty : s.host.disk.document.peers = [])
    (hrun : Run.exec (step site) s events = some s') :
    Proper site (names s'.host.disk.document)
      ∧ ∀ memory last, s'.manager = .idle memory last → Proper site (names memory.document)
        ∧ ∀ version, (memory.tunnels version).configured = true →
          (memory.tunnels version).dirty = false →
          ∀ device, s'.host.device (.tunnel version) = some device →
            Mirrors site device.peers (names memory.document) version := by
  have hstart : InOrder site s.host.disk.document := by
    have hnone : ∀ name peer, names s.host.disk.document name = some peer → False := by
      intro name peer hpeer
      rw [names, hempty] at hpeer
      cases hpeer
    refine ⟨by rw [hempty]; exact List.nodup_nil, fun name peer hpeer => (hnone name peer hpeer).elim,
      fun name peer hpeer => (hnone name peer hpeer).elim,
      fun name peer _ _ hpeer => (hnone name peer hpeer).elim⟩
  have hassured : Assured .none (Stored site) (fun m _ => Kept site none m) s :=
    ⟨hstart, fun _ _ hidle => (nomatch hdown.symm.trans hidle),
      fun _ hbusy => (nomatch hdown.symm.trans hbusy)⟩
  have hend : Assured .none (Stored site) (fun m _ => Kept site none m) s' := by
    refine Run.invariant (fun t e t' ht hstep => ht.step (keeps_peers site) ?_ hstep) hrun hassured
    cases e with
    | boot | finish | crash | attach => trivial
    | die => exact id
    | request | perform | shutdown => exact fun _ _ _ => trivial
  refine ⟨hend.host.orderly.proper, fun memory last hidle => ?_⟩
  have hkept := hend.idle memory last hidle
  exact ⟨hkept.order.orderly.proper, fun version => hkept.clean version nofun⟩

namespace Sample

/-- A node with one version in `10.8.1.0/24`, and a device for the router where asked for.
Keys stand for their hexadecimal digits. -/
def node (routerTun : Bool) : Site where
  sha256 text := text
  hexkey := some
  hexkey_isSome _ _ := rfl
  hexkey_injective _ _ _ h h' := Option.some.inj (h.trans h'.symm)
  versions := [("2.0", ⟨10 * 2 ^ 24 + 8 * 2 ^ 16 + 2 ^ 8, 24, by decide, by decide, by decide,
    by decide⟩)]
  versions_nodup := by decide
  routerTun := routerTun

/-- A host on which the manager has not run but for the keys of its version. -/
def host : Host where
  disk := ⟨["2.0"], ⟨[], []⟩, ⟨0, [], none⟩⟩
  devices := []
  rules := []
  blackhole := false
  default := none
  thrown := []
  attached := false
  unsaved := []

def publicKey : String := "BBBBBBBBBBBBBBBBBBBBBBBBBBBBBBBBBBBBBBBBBBA="

def presharedKey : String := "CCCCCCCCCCCCCCCCCCCCCCCCCCCCCCCCCCCCCCCCCCA="

/-- A start, up to the first tunnel. -/
def started : List Event :=
  [.boot, .perform (.time 100), .perform .done, .perform (.time 100), .perform .done,
    .perform .done, .perform .done, .perform .done, .perform .done]

/-- Without a provider, what is left of the start is a table to be flushed. -/
def startedDirect : List Event := started ++ [.perform .done, .perform .done, .finish]

/-- A peer is created and told to the device. -/
def created : List Event :=
  [.request (.peer (.create [("operation_id", .text "op"), ("username", .text "ann"),
      ("version", .text "2.0"), ("public_key", .text publicKey),
      ("preshared_key", .text presharedKey)])),
    .perform (.time 1000), .perform .done, .perform .done, .finish]

/-- The tunnel is configured and not behind, and its device has the peer. -/
def told (s : State) : Bool :=
  match s.manager with
  | .idle memory _ => (memory.tunnels "2.0").configured && ! (memory.tunnels "2.0").dirty
    && decide ((s.host.device (.tunnel "2.0")).map Device.peers
      = some [(publicKey, ⟨presharedKey, ["10.8.1.2/32"]⟩)])
  | _ => false

theorem peers_exact_created : ∃ s', Run.exec (step (node false)) ⟨host, .down⟩
      (startedDirect ++ created) = some s'
    ∧ told s' = true ∧ Proper (node false) (names s'.host.disk.document) := by
  exact Run.end_and (by decide +kernel) fun s' hs' _ => (peers_exact rfl rfl hs').1

end Sample

end AmneziaWG.Service
