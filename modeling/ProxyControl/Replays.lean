import ProxyControl.AmneziaWGKeeper
import ProxyControl.MieruKeeper
import ProxyControl.NaiveKeeper
import ProxyControl.TrustTunnelKeeper

/-!
# Answers from memory

All four managers remember the operation ids they have answered, so that a
request whose answer was lost can be sent again. What they remember with an id
differs. AmneziaWG and TrustTunnel keep a digest of the whole request, the
credential included; NaiveProxy and Mieru keep the operation and the name only,
and give their answer even where the user is gone. None of them looks at whether
the credential of that request is still the one it holds.

A success is therefore true where the request is the last that set the user's
credential (`successes_true_of_last`), and need not be after another one
(`answered_from_memory`).
-/

namespace Replays

open Ledger

/-- **Every success is true where the request is the last**: in every run of each
of the four managers – whatever the ids, the times and the endings of the
transactions, saves and writes – a call to create or rotate that succeeds leaves
a user of that name with the credential it sent, unless it was answered from
memory and its id or its credential is not the one the user's credential was last
set with. -/
theorem successes_true_of_last (sha256 : String → String) :
    (∀ site, (Naive.keeper site).TrueWhereLast)
      ∧ (∀ (Digest Section Rest Doc : Type) [DecidableEq Digest] [DecidableEq Doc]
          (site : Mieru.Site Digest Section Rest Doc), (Mieru.keeper site).TrueWhereLast)
      ∧ (∀ instances, (AmneziaWG.keeper sha256 instances).TrueWhereLast)
      ∧ ∀ cfg, (TrustTunnel.keeper sha256 cfg).TrueWhereLast :=
  ⟨fun site => (Naive.keeper site).trueWhereLast,
    fun _ _ _ _ _ _ site => (Mieru.keeper site).trueWhereLast,
    fun instances => (AmneziaWG.keeper sha256 instances).trueWhereLast,
    fun cfg => (TrustTunnel.keeper sha256 cfg).trueWhereLast⟩

namespace Sample

open Naive.Sample (site env start)

/-- Two passwords. -/
def passwordA : String := "aaaaaaaaaaaaaaaa"

def passwordB : String := "bbbbbbbbbbbbbbbb"

/-- A rotation under an id. -/
def naiveRotate (op password : String) : Naive.Env × Naive.Call :=
  (env, .rotate "alice" (some password) (some op))

/-- The manager after one rotation. -/
def naiveRotated : Naive.Manager :=
  (Naive.call site start env (.rotate "alice" (some passwordA) (some "op-1"))).1

/-- A retry of the last rotation is answered from memory, and is true. -/
theorem retry_of_last :
    Naive.replays site naiveRotated env (.rotate "alice" (some passwordA) (some "op-1"))
        = true
      ∧ (Naive.keeper site).TrueSuccess naiveRotated (naiveRotate "op-1" passwordA) := by
  refine ⟨by decide +kernel, ?_⟩
  refine (successes_true_of_last id).1 site (start, fun _ => none) (_, _)
    [naiveRotate "op-1" passwordA] _ trivial (fun u id k h => by cases h) rfl ?_
  intro a hask _
  cases hask
  have heff : Naive.effect site start env
      (.rotate "alice" (some passwordA) (some "op-1"))
      = .set "alice" (some "op-1") passwordA := by decide +kernel
  refine ⟨passwordA, ?_, fun v hv => Option.some.inj hv⟩
  show Notes.after (fun _ => none) (Naive.effect site start env
    (.rotate "alice" (some passwordA) (some "op-1"))) "alice" = _
  rw [heff]
  rfl

/-- A request that is carried out. -/
def mieruArrival (r : Mieru.Request Unit Unit) : Mieru.Arrival Unit Unit Unit :=
  ⟨Mieru.Sample.env, r, .done, .internal ""⟩

def mieruCreate : Mieru.Arrival Unit Unit Unit :=
  mieruArrival (.create ⟨"bob", [], (), false, false, false, some passwordA, some "op-1"⟩)

/-- A key of 32 bytes. -/
def keyOf (c : Char) : String := String.ofList (List.replicate 42 c ++ ['A', '='])

/-- One peer. -/
def awgStart : AmneziaWG.Document :=
  ⟨[("alice", ⟨"2.0", keyOf 'o', keyOf 'o', "10.0.0.2", true, 1, 0, "op-0"⟩)], []⟩

def awgRotate (op : String) (c : Char) : AmneziaWG.Event :=
  ⟨.rotate "alice" [("operation_id", .text op), ("public_key", .text (keyOf c)),
    ("preshared_key", .text (keyOf c))], 0, .done⟩

def tunnelConfig : TrustTunnel.Config := ⟨"", "", "", "", "", "", 0, 0⟩

/-- One client. -/
def tunnelStart : TrustTunnel.Manager :=
  ⟨⟨[("alice", ⟨"oooooooooooooooo", true, 1, 0, 0, 0, 0⟩)], [], none, ⟨.direct, none⟩, none,
    List.pairwise_singleton _ _⟩, ⟨none, fun _ => none⟩, none, 0, 0, 0, 0, [], 0, none, false, false⟩

def tunnelRotate (op password : String) : TrustTunnel.Event :=
  .call (.rotate "alice" [("operation_id", .text op), ("password", .text password)]) 0 .done

/-- **A success that is not true**, in each of the managers: NaiveProxy under an
id that was used with another password; Mieru after the user was deleted;
AmneziaWG and TrustTunnel after another rotation. -/
theorem answered_from_memory :
    (∃ t, Run.exec (Naive.keeper site).step (start, fun _ => none)
        [naiveRotate "op-1" passwordA] = some t
      ∧ ¬ (Naive.keeper site).TrueSuccess t.1 (naiveRotate "op-1" passwordB))
    ∧ (∃ t, Run.exec (Mieru.keeper (Mieru.Sample.site fun _ => ())).step
        (Mieru.Sample.world _ [], fun _ => none)
        [mieruCreate, mieruArrival (.delete "bob" ())] = some t
      ∧ ¬ (Mieru.keeper (Mieru.Sample.site _)).TrueSuccess t.1 mieruCreate)
    ∧ (∃ t, Run.exec (AmneziaWG.keeper id []).step (awgStart, fun _ => none)
        [awgRotate "op-1" 'a', awgRotate "op-2" 'b'] = some t
      ∧ ¬ (AmneziaWG.keeper id []).TrueSuccess t.1 (awgRotate "op-1" 'a'))
    ∧ ∃ t, Run.exec (TrustTunnel.keeper id tunnelConfig).step (tunnelStart, fun _ => none)
        [tunnelRotate "op-1" passwordA, tunnelRotate "op-2" passwordB] = some t
      ∧ ¬ (TrustTunnel.keeper id tunnelConfig).TrueSuccess t.1 (tunnelRotate "op-1" passwordA) := by
  refine ⟨⟨_, rfl, fun h => ?_⟩, ⟨_, rfl, fun h => ?_⟩, ⟨_, rfl, fun h => ?_⟩, ⟨_, rfl, fun h => ?_⟩⟩
  · obtain ⟨k, hhas, hk⟩ := h _ rfl (by decide +kernel)
    cases hk _ rfl
    exact absurd (show Naive.stored _ _ = _ from hhas) (by decide +kernel)
  · obtain ⟨k, hhas, hk⟩ := h _ rfl (by decide +kernel)
    cases hk _ rfl
    exact absurd (show Mieru.stored _ _ _ _ = _ from hhas) (by decide +kernel)
  · obtain ⟨k, hhas, hk⟩ := h _ rfl (by decide +kernel)
    cases hk _ rfl
    exact absurd (show AmneziaWG.stored _ _ = _ from hhas) (by decide +kernel)
  · obtain ⟨k, hhas, hk⟩ := h _ rfl (by decide +kernel)
    cases hk _ rfl
    exact absurd (show TrustTunnel.stored _ _ = _ from hhas) (by decide +kernel)

end Sample

end Replays
