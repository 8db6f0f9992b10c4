import ProxyControl.Generations
import ProxyControl.Ownership

/-!
# A clean link is an agreement

When a link is clean, the central and the node have the same generation in mind:
the node has filed the central's latest generation, under the same digest, and has
reported that it converged (`clean_link_agrees`). This holds for every interleaving
of publications, visits, lost answers, late requests and passes of the node.

Of a generation the argument needs its number and its digest only. What the
central has published and what the node has filed are lists of such pairs
(`Central.published`, `numbered`), and neither loses one. The node reports the first
of its list. So what matters is whether that first pair is one of the central's
(`InStep`): a node that held generations of another time is not in step, and comes
to be when it files a push – from then on only pushes are added, and it stays.
A report is taken in only as the answer to a push that was filed, or to a poll,
and nobody polls before a first report was taken in.

A report makes the link clean only when its number is that of the latest
generation, so a late one of an older generation does not.
-/

namespace Generations

open List

variable {Value Sections : Type} {event : Reconciler.Event Value} {p : Int × String}
  {pairs : List (Int × String)}

/-! ## Numbers and digests -/

/-- The generations a node has filed, the latest first. -/
def numbered (node : Reconciler.Node Value) : List (Int × String) :=
  node.generations.map fun latest => (latest.generation, latest.digest)

/-- The generations a central has published. -/
def Central.published (central : Central Value Sections) : List (Int × String) :=
  central.desired.map fun row => (row.generation, row.digest)

/-- The number and the digest a report is about. -/
def ObservedGeneration.subject (observed : ObservedGeneration Value) : Int × String :=
  (observed.appliedGeneration, observed.digest)

/-- What the node files for a request. -/
def PushRequest.subject (site : Site Value Sections) (request : PushRequest Value Sections) :
    Int × String :=
  (request.generation.generation, site.canonicalDigest request.generation)

/-- The numbers of a node fall strictly from the latest generation on. -/
def Falling (pairs : List (Int × String)) : Prop := pairs.Pairwise fun p q => q.1 < p.1

theorem Falling.cons (h : Falling pairs) (hfst : ∀ q ∈ pairs.head?, q.1 < p.1) :
    Falling (p :: pairs) := by
  refine pairwise_cons.mpr ⟨?_, h⟩
  intro q hq
  cases pairs with
  | nil => cases hq
  | cons first rest =>
    have hlt : first.1 < p.1 := hfst first rfl
    rcases mem_cons.mp hq with rfl | hr
    · exact hlt
    · exact lt_trans ((pairwise_cons.mp h).1 q hr) hlt

/-- A number stands once. -/
theorem Falling.unique (h : Falling pairs) {q : Int × String} (hp : p ∈ pairs) (hq : q ∈ pairs)
    (hsm : p.1 = q.1) : p = q := by
  have hnd : (pairs.map Prod.fst).Nodup := pairwise_map.mpr (h.imp fun hlt => hlt.ne')
  exact inj_on_of_nodup_map hnd hp hq hsm

/-! ## What the node does to its list -/

theorem numbered_setState (node : Reconciler.Node Value) (gen : Int)
    (state : Reconciler.GenerationState) :
    numbered (node.setState gen state) = numbered node := by
  unfold numbered Reconciler.Node.setState
  rw [map_map]
  refine map_congr_left fun lat _ => ?_
  show ((if lat.generation = gen then { lat with state := state } else lat
      : Reconciler.Latest Value).generation,
    (if lat.generation = gen then { lat with state := state } else lat
      : Reconciler.Latest Value).digest) = _
  split <;> rfl

theorem numbered_effect (node : Reconciler.Node Value) (rep : Reconciler.Reply Value)
    {f : Reconciler.Node Value → Reconciler.Node Value} (hf : numbered (f node) = numbered node) :
    numbered (rep.effect node f) = numbered node := by
  unfold Reconciler.Reply.effect
  split
  · exact hf
  · rfl

theorem numbered_addUser (node : Reconciler.Node Value) (key : Reconciler.Key)
    (maker : Reconciler.Maker) : numbered (node.addUser key maker) = numbered node := by
  unfold Reconciler.Node.addUser
  split <;> rfl

theorem numbered_adopt (node : Reconciler.Node Value) (key : Reconciler.Key) :
    numbered (node.adopt key) = numbered node := by
  unfold Reconciler.Node.adopt
  split <;> rfl

/-- No command of a pass changes which generations there are. -/
theorem numbered_respond (node : Reconciler.Node Value) (rep : Reconciler.Reply Value)
    (c : Reconciler.Cmd Value) : numbered (Reconciler.respond node rep c).2 = numbered node := by
  cases c with
  | start generation refs =>
    exact numbered_effect node rep (numbered_setState node generation .applying)
  | upsertResource upd => exact numbered_effect node rep rfl
  | adopt upd => exact numbered_effect node rep (numbered_adopt (node.upsert upd) upd.key)
  | removeResource key => exact numbered_effect node rep rfl
  | finish generation failed =>
    unfold Reconciler.respond
    dsimp only
    split
    · exact numbered_effect node rep (numbered_setState node generation _)
    · rfl
  | create operationId r plan =>
    exact numbered_effect node rep (numbered_addUser node r.key .created)
  | delete key => exact numbered_effect node rep rfl
  | _ => rfl

/-- **Only a push changes which generations a node has.** -/
theorem numbered_step {site : Reconciler.Site Value} {s s' : Reconciler.State Value}
    (hpush : ∀ document dig, event ≠ .accept document dig)
    (hs : Reconciler.step site s event = some s') : numbered s'.node = numbered s.node := by
  unfold Reconciler.step at hs
  cases event with
  | accept document dig => exact absurd rfl (hpush document dig)
  | enter e =>
    dsimp only at hs
    split at hs
    · cases hs
    · cases hs
      rfl
  | perform rep =>
    dsimp only at hs
    split at hs
    · cases hs
      exact numbered_respond _ _ _
    · cases hs
  | crash =>
    cases hs
    rfl
  | createLocal key =>
    cases hs
    exact numbered_addUser _ _ _
  | vanish key =>
    cases hs
    rfl

variable {site : Site Value Sections}

variable {req : PushRequest Value Sections}

/-- **What a push does.** The node has the generation already, or files it before all
the others. -/
theorem accept_numbered {node node' : Reconciler.Node Value}
    (h : accept site req node = .ok node') :
    (numbered node' = numbered node ∧ (numbered node).head? = some (req.subject site)) ∨
      (numbered node' = req.subject site :: numbered node
        ∧ ∀ q ∈ (numbered node).head?, q.1 < (req.subject site).1) := by
  unfold accept at h
  split at h
  · cases h
  · obtain ⟨-, -, h⟩ := Checks.bind_eq_ok.mp h
    obtain ⟨new, hnew, h⟩ := Checks.bind_eq_ok.mp h
    have hcase := Reconciler.isNew_eq_ok hnew
    rw [← head?_map] at hcase
    rw [← Checks.pure_eq_ok.mp h]
    cases new with
    | true => exact .inr ⟨rfl, hcase⟩
    | false => exact .inl ⟨rfl, hcase⟩

/-- The report is about the first generation of the list. -/
theorem observedOf_subject {node : Reconciler.Node Value} (h : (numbered node).head? = some p) :
    (observedOf node).subject = p := by
  unfold numbered at h
  unfold observedOf Reconciler.Node.observed
  cases hrows : node.generations with
  | nil =>
    rw [hrows] at h
    cases h
  | cons lat rest =>
    rw [hrows] at h
    cases h
    rfl

/-! ## What the central does to its list -/

section Update

variable {central : Central Value Sections} {generation : Int}
  (change : DesiredGeneration Value Sections → DesiredGeneration Value Sections)
  (kept : ∀ row, (change row).generation = row.generation)

/-- What a change of rows leaves of each, it leaves of all. -/
theorem map_update {α : Type} {f : DesiredGeneration Value Sections → α}
    (hf : ∀ row, f (change row) = f row) :
    (central.update generation change kept).desired.map f = central.desired.map f := by
  refine (map_map ..).trans (map_congr_left fun row _ => ?_)
  show f (if row.generation = generation then change row else row) = f row
  split
  · exact hf row
  · rfl

theorem forall_update {P : DesiredGeneration Value Sections → Prop}
    (hP : ∀ row, P row → P (change row)) (h : ∀ row ∈ central.desired, P row) :
    ∀ row ∈ (central.update generation change kept).desired, P row := by
  intro row hrow
  obtain ⟨old, hold, rfl⟩ := mem_map.mp hrow
  split
  · exact hP old (h old hold)
  · exact h old hold

end Update

/-- A row that was published as it says. -/
structure Filed (site : Site Value Sections) (published : List (Int × String))
    (row : DesiredGeneration Value Sections) : Prop where
  listed : (row.generation, row.digest) ∈ published
  generation : row.generation = row.document.generation
  digest : row.digest = site.canonicalDigest row.document
  positive : 0 < row.generation

variable {row : DesiredGeneration Value Sections} {published : List (Int × String)}

theorem Filed.subject (h : Filed site published row) :
    (pushOf site row).subject site ∈ published := by
  show (row.document.generation, site.canonicalDigest row.document) ∈ published
  rw [← h.generation, ← h.digest]
  exact h.listed

theorem Filed.mono {published' : List (Int × String)} (h : Filed site published row)
    (hgrow : published ⊆ published') : Filed site published' row :=
  { h with listed := hgrow h.listed }

variable {central : Central Value Sections}

/-- **What a publication does**: nothing, or one row more with a number above all the
others. -/
def Publishes (site : Site Value Sections) (central central' : Central Value Sections) : Prop :=
  central' = central ∨ ∃ document, central.insert site document = .ok central'
    ∧ (∀ row ∈ central.desired, row.generation < document.generation) ∧ 0 < document.generation

variable {now : Int} {conts : Contents Value Sections} {document : Document Value Sections}
  {createdBy : String}

theorem compile_generation {prev generation : Int}
    (h : compile site conts prev generation now createdBy = .ok document) :
    document.generation = generation := by
  unfold compile at h
  dsimp only at h
  cases hval : site.validate _ with
  | error msg =>
    rw [hval] at h
    cases h
  | ok _ =>
    rw [hval] at h
    cases h
    rfl

variable {lat : DesiredGeneration Value Sections}

theorem le_latest (hlat : central.latest = some lat) (hrow : row ∈ central.desired) :
    row.generation ≤ lat.generation :=
  le_of_mem_argmax hrow hlat

variable {central' : Central Value Sections}

/-- The number after the latest is above all that are stored. -/
theorem above_latest (hrow : row ∈ central.desired) :
    row.generation < central.latest.elim 0 DesiredGeneration.generation + 1 := by
  cases hlat : central.latest with
  | none =>
    rw [argmax_eq_none.mp hlat] at hrow
    cases hrow
  | some lat => exact Int.lt_add_one_of_le (le_latest hlat hrow)

theorem publish_of_compile
    (h : compile site conts (central.latest.elim 0 DesiredGeneration.generation)
      (central.latest.elim 0 DesiredGeneration.generation + 1) now createdBy = .ok document) :
    central.publish site conts createdBy now
      = if central.latest.any fun lat => lat.contentDigest = contentDigest site document then
          .ok central
        else central.insert site document := by
  unfold Central.publish
  dsimp only
  rw [h]
  rfl

theorem publishes_publish (hfil : ∀ row ∈ central.desired, Filed site central.published row)
    (h : central.publish site conts createdBy now = .ok central') :
    Publishes site central central' := by
  cases hcomp : compile site conts (central.latest.elim 0 DesiredGeneration.generation)
      (central.latest.elim 0 DesiredGeneration.generation + 1) now createdBy with
  | error msg =>
    unfold Central.publish at h
    dsimp only at h
    rw [hcomp] at h
    cases h
  | ok document =>
    have hnum := compile_generation hcomp
    rw [publish_of_compile hcomp] at h
    split at h
    · cases h
      exact .inl rfl
    · refine .inr ⟨document, h, fun row hrow => hnum ▸ above_latest hrow, ?_⟩
      rw [hnum]
      cases hlat : central.latest with
      | none => exact Int.one_pos
      | some lat =>
        exact lt_trans (hfil lat (argmax_mem hlat)).positive (Int.lt_succ _)

variable {delivered : DesiredGeneration Value Sections} {observed : ObservedGeneration Value}

/-- **A resync** does nothing, or goes on from what the node has, which is not behind. -/
theorem republish_cases (h : central.republish site delivered observed conts now = .ok central') :
    central' = central ∨ ∃ current document, central.latest = some current
      ∧ current.generation ≤ observed.appliedGeneration
      ∧ document.generation = observed.appliedGeneration + 1
      ∧ central.insert site document = .ok central' := by
  unfold Central.republish at h
  cases hlat : central.latest with
  | none =>
    rw [hlat] at h
    cases h
    exact .inl rfl
  | some current =>
    rw [hlat] at h
    dsimp only at h
    split at h
    · cases h
      exact .inl rfl
    next hahead =>
      cases hcomp : compile site conts observed.appliedGeneration
          (observed.appliedGeneration + 1) now "system" with
      | error msg =>
        rw [hcomp] at h
        cases h
      | ok document =>
        rw [hcomp] at h
        exact .inr ⟨current, document, rfl, not_lt.mp fun hlt => hahead (.inr hlt),
          compile_generation hcomp, h⟩

theorem publishes_republish (hfil : ∀ row ∈ central.desired, Filed site central.published row)
    (h : central.republish site delivered observed conts now = .ok central') :
    Publishes site central central' := by
  rcases republish_cases h with rfl | ⟨current, document, hlat, hle, hnum, hins⟩
  · exact .inl rfl
  · refine .inr ⟨document, hins, fun row hrow => ?_, ?_⟩
    · rw [hnum]
      exact Int.lt_add_one_of_le (le_trans (le_latest hlat hrow) hle)
    · rw [hnum]
      have hpos := (hfil current (argmax_mem hlat)).positive
      exact Int.lt_add_one_of_le (le_trans hpos.le hle)

/-- The row an insertion adds, and the link after it. -/
theorem insert_eq (h : central.insert site document = .ok central') : central'.desired
        = ⟨document.generation, site.canonicalDigest document, contentDigest site document,
            document, none, none⟩ :: central.desired
      ∧ central'.observed = central.observed
      ∧ central'.link
        = { central.link with configDirty := true, desiredGeneration := document.generation } := by
  unfold Central.insert at h
  split at h
  · cases h
  · cases h
    exact ⟨rfl, rfl, rfl⟩

/-! ## What always holds -/

/-- The node's latest generation is one of the central's. -/
def InStep (s : State Value Sections) : Prop :=
  ∃ p, (numbered s.node.node).head? = some p ∧ p ∈ s.central.published

/-- A report the node made, about a generation that both sides have. -/
structure Backed (s : State Value Sections) (observed : ObservedGeneration Value) : Prop where
  made : observed ∈ s.reports
  filed : observed.subject ∈ numbered s.node.node
  published : observed.subject ∈ s.central.published

/-- What a visit in progress relies on. -/
def TaskSound (site : Site Value Sections) (s : State Value Sections) :
    Task Value Sections → Prop
  | .visiting link latest observed =>
    (0 < link.acknowledgedGeneration → InStep s) ∧ (∀ row ∈ latest, Filed site s.central.published row)
      ∧ (observed.isSome → InStep s)
  | .pushing latest => Filed site s.central.published latest
  | .accepted _ | .polling => InStep s
  | .delivered _ observed | .absorbing observed => Backed s observed ∧ InStep s
  | .resyncing _ | .republishing _ _ => True

/-- What the two databases keep. -/
structure Recorded (site : Site Value Sections) (s : State Value Sections) : Prop where
  falling : Falling (numbered s.node.node)
  filed : ∀ row ∈ s.central.desired, Filed site s.central.published row
  blank : s.central.published = [] → s.central.link.desiredGeneration = 0
  bound : ∀ p ∈ s.central.published, p.1 ≤ s.central.link.desiredGeneration
  acknowledged : 0 < s.central.link.acknowledgedGeneration → InStep s
  observed : s.central.observed.isSome → InStep s
  clean : s.central.published ≠ [] → s.central.link.configDirty = false →
    ∃ observed, Backed s observed ∧ observed.reconcileState = .converged
      ∧ observed.appliedGeneration = s.central.link.desiredGeneration

/-- **The invariant** of the link. -/
structure Linked (site : Site Value Sections) (s : State Value Sections) : Prop where
  recorded : Recorded site s
  tasks : ∀ task ∈ s.tasks, TaskSound site s task
  requests : ∀ request ∈ s.requests, request.subject site ∈ s.central.published

/-- Nothing that was published, filed or reported is lost, and a node in step stays
in step. -/
structure Grows (s s' : State Value Sections) : Prop where
  published : s.central.published ⊆ s'.central.published
  held : numbered s.node.node ⊆ numbered s'.node.node
  inStep : InStep s → InStep s'
  reports : s.reports ⊆ s'.reports

variable {s s' : State Value Sections}

theorem Backed.mono {observed : ObservedGeneration Value} (h : Backed s observed)
    (hgrow : Grows s s') : Backed s' observed :=
  ⟨hgrow.reports h.made, hgrow.held h.filed, hgrow.published h.published⟩

variable {task : Task Value Sections}

theorem TaskSound.mono (h : TaskSound site s task)
    (hgrow : Grows s s') : TaskSound site s' task := by
  cases task with
  | visiting link lat observed =>
    obtain ⟨hlink, hlat, hobs⟩ := h
    exact ⟨fun hpos => hgrow.inStep (hlink hpos),
      fun row hrow => (hlat row hrow).mono hgrow.published,
      fun hsm => hgrow.inStep (hobs hsm)⟩
  | pushing lat => exact Filed.mono h hgrow.published
  | accepted lat => exact hgrow.inStep h
  | polling => exact hgrow.inStep h
  | delivered lat observed | absorbing observed => exact ⟨h.1.mono hgrow, hgrow.inStep h.2⟩
  | resyncing lat => trivial
  | republishing lat observed => trivial

/-- **The step rule.** Where nothing is lost, only the databases and what is new
among the tasks and the requests have to be looked at. -/
theorem Linked.of_grows (h : Linked site s) (hgrow : Grows s s') (hrec : Recorded site s')
    (htasks : ∀ task ∈ s'.tasks, task ∈ s.tasks ∨ TaskSound site s' task)
    (hreqs : ∀ req ∈ s'.requests,
      req ∈ s.requests ∨ req.subject site ∈ s'.central.published) : Linked site s' := by
  refine ⟨hrec, ?_, ?_⟩
  · intro task htask
    rcases htasks task htask with hold | hnew
    · exact (h.tasks task hold).mono hgrow
    · exact hnew
  · intro req hreq
    rcases hreqs req hreq with hold | hnew
    · exact hgrow.published (h.requests req hold)
    · exact hnew

/-- Where the node has the same generations, growing is a matter of the central's list. -/
theorem Grows.of_numbered_eq (hpub : s.central.published ⊆ s'.central.published)
    (hnum : numbered s'.node.node = numbered s.node.node) (hreps : s.reports ⊆ s'.reports) :
    Grows s s' := by
  refine ⟨hpub, ?_, ?_, hreps⟩
  · rw [hnum]
    exact List.Subset.refl _
  · rintro ⟨p, hhead, hp⟩
    exact ⟨p, by rw [hnum, hhead], hpub hp⟩

/-- The databases, where the central's is as it was. -/
theorem Recorded.of_central_eq (h : Recorded site s) (hgrow : Grows s s')
    (hcen : s'.central = s.central) (hfall : Falling (numbered s'.node.node)) :
    Recorded site s' where
  falling := hfall
  filed := by
    rw [hcen]
    exact h.filed
  blank := by
    rw [hcen]
    exact h.blank
  bound := by
    rw [hcen]
    exact h.bound
  acknowledged := by
    rw [hcen]
    exact fun hpos => hgrow.inStep (h.acknowledged hpos)
  observed := by
    rw [hcen]
    exact fun hsm => hgrow.inStep (h.observed hsm)
  clean := by
    rw [hcen]
    intro hsm hdt
    obtain ⟨observed, hback, hr⟩ := h.clean hsm hdt
    exact ⟨observed, hback.mono hgrow, hr⟩

/-! ## The visits -/

variable {i : Nat} {observed : Option (ObservedGeneration Value)} {link : NodeLink}
  {deferred : Bool} {tasks : List (Task Value Sections)}

theorem mem_next {new : Task Value Sections}
    (h : task ∈ (s.next i new).tasks) : task ∈ s.tasks ∨ task = new := by
  rcases Run.mem_set_cases h with rfl | ⟨j, -, hj⟩
  · exact .inr rfl
  · exact .inl (mem_of_getElem? hj)

theorem mem_finish (h : task ∈ (s.finish i).tasks) : task ∈ s.tasks :=
  mem_of_mem_eraseIdx h

/-- Other tasks and other requests, and nothing else. -/
theorem Linked.of_tasks (h : Linked site s) {requests : List (PushRequest Value Sections)}
    (htasks : ∀ task ∈ tasks, task ∈ s.tasks ∨ TaskSound site s task)
    (hreqs : ∀ req ∈ requests, req ∈ s.requests ∨ req.subject site ∈ s.central.published) :
    Linked site { s with tasks := tasks, requests := requests } := by
  have hgrow : Grows s { s with tasks := tasks, requests := requests } :=
    Grows.of_numbered_eq (List.Subset.refl _) rfl (List.Subset.refl _)
  refine h.of_grows hgrow (h.recorded.of_central_eq hgrow rfl h.recorded.falling) ?_ hreqs
  intro task htask
  exact (htasks task htask).imp id fun hsd => hsd.mono hgrow

theorem Linked.next (h : Linked site s)
    (htask : TaskSound site s task) : Linked site (s.next i task) := by
  refine h.of_tasks (fun o hoth => ?_) fun _ hreq => .inl hreq
  rcases mem_next hoth with hold | rfl
  · exact .inl hold
  · exact .inr htask

theorem Linked.finish (h : Linked site s) (i : Nat) : Linked site (s.finish i) :=
  h.of_tasks (fun _ htask => .inl (mem_finish htask)) fun _ hreq => .inl hreq

/-- A push on its way was published. -/
theorem TaskSound.leaves {request : PushRequest Value Sections} (h : TaskSound site s task)
    (hreq : request ∈ task.leaves site) : request.subject site ∈ s.central.published := by
  cases task with
  | pushing lat =>
    rw [Task.leaves, mem_singleton] at hreq
    rw [hreq]
    exact Filed.subject h
  | _ => cases hreq

/-- A visit that gives up leaves its request behind. -/
theorem Linked.abandon (h : Linked site s) (htask : s.tasks[i]? = some task) :
    Linked site { s.finish i with requests := s.requests ++ task.leaves site } := by
  refine h.of_tasks (fun _ hoth => .inl (mem_finish hoth)) ?_
  intro req hreq
  rcases mem_append.mp hreq with hold | hleft
  · exact .inl hold
  · exact .inr ((h.tasks task (mem_of_getElem? htask)).leaves hleft)

/-- What a visit reads when it begins. -/
theorem Linked.heartbeat (h : Linked site s) :
    TaskSound site s (.visiting s.central.link s.central.latest s.central.observed) :=
  ⟨h.recorded.acknowledged, fun row hrow => h.recorded.filed row (argmax_mem hrow),
    h.recorded.observed⟩

/-- **Nobody polls a node that is not in step**: either a report was taken in
already, or the node acknowledged a generation. -/
theorem inStep_of_poll (hpos : 0 < lat.generation)
    (hlink : 0 < link.acknowledgedGeneration → InStep s) (hobs : observed.isSome → InStep s)
    (hpoll : delivery link lat observed deferred now = .poll) : InStep s := by
  unfold delivery at hpoll
  split at hpoll
  · cases hpoll
  · split at hpoll
    next hflight =>
      refine hobs ?_
      cases observed with
      | none => cases hflight
      | some _ => rfl
    · split at hpoll
      · cases hpoll
      · split at hpoll
        · cases hpoll
        next hpush =>
          rw [Bool.or_eq_true, decide_eq_true_eq, not_or, not_lt] at hpush
          exact hlink (lt_of_lt_of_le hpos hpush.2)

theorem Linked.decideDelivery (h : Linked site s) {lat : Option (DesiredGeneration Value Sections)}
    (hsd : TaskSound site s (.visiting link lat observed)) :
    Linked site (decideDelivery s i link lat observed deferred now) := by
  obtain ⟨hlink, hlat, hobs⟩ := hsd
  unfold Generations.decideDelivery
  cases lat with
  | none => exact h.finish i
  | some lat =>
    have hfil := hlat lat rfl
    dsimp only
    split
    · exact h.finish i
    next hpoll => exact h.next (inStep_of_poll hfil.positive hlink hobs hpoll)
    · exact h.next hfil

/-! ## The node -/

/-- **A push is filed.** Afterwards the node is in step. -/
theorem Linked.accept (h : Linked site s)
    {node : Reconciler.Node Value} (hsubj : req.subject site ∈ s.central.published)
    (hacc : accept site req s.node.node = .ok node) :
    Linked site { s with node := { s.node with node := node } }
      ∧ InStep { s with node := { s.node with node := node } } := by
  rcases accept_numbered hacc with ⟨hsm, hhead⟩ | ⟨hcons, hbelow⟩
  · have hgrow : Grows s { s with node := { s.node with node := node } } :=
      Grows.of_numbered_eq (List.Subset.refl _) hsm (List.Subset.refl _)
    refine ⟨h.of_grows hgrow (h.recorded.of_central_eq hgrow rfl ?_) (fun _ => .inl)
      (fun _ => .inl), req.subject site, ?_, hsubj⟩
    · rw [hsm]
      exact h.recorded.falling
    · rw [hsm, hhead]
  · have hnow : InStep { s with node := { s.node with node := node } } :=
      ⟨req.subject site, by show (numbered node).head? = _; rw [hcons]; rfl, hsubj⟩
    have hgrow : Grows s { s with node := { s.node with node := node } } := by
      refine ⟨List.Subset.refl _, ?_, fun _ => hnow, List.Subset.refl _⟩
      rw [hcons]
      exact subset_cons_self _ _
    refine ⟨h.of_grows hgrow (h.recorded.of_central_eq hgrow rfl ?_) (fun _ => .inl)
      (fun _ => .inl), hnow⟩
    rw [hcons]
    exact h.recorded.falling.cons hbelow

variable {kept : Bool} {r : Except String (Central Value Sections)}

theorem Linked.arrive (h : Linked site s) (hlat : Filed site s.central.published lat) :
    Linked site (arrive site s i lat kept) := by
  unfold Generations.arrive
  split
  · split
    · exact h.next trivial
    · exact h.finish i
  next node hacc =>
    split
    · obtain ⟨hlink, hnow⟩ := h.accept hlat.subject hacc
      exact hlink.next (show TaskSound site _ (.accepted lat) from hnow)
    · exact h.finish i

theorem Linked.arriveLate (h : Linked site s) (hsubj : req.subject site ∈ s.central.published) :
    Linked site (arriveLate site s req kept) := by
  unfold Generations.arriveLate
  split
  · exact h
  next node hacc =>
    split
    · exact (h.accept hsubj hacc).1
    · exact h

theorem arriveLate_requests (s : State Value Sections) (req : PushRequest Value Sections)
    (kept : Bool) : (arriveLate site s req kept).requests = s.requests := by
  unfold Generations.arriveLate
  split
  · rfl
  · split <;> rfl

/-- **A report of a node in step is backed.** -/
theorem backed_reported (i : Nat) (task : ObservedGeneration Value → Task Value Sections)
    (hnow : InStep s) :
    Backed (s.reported i task) (observedOf s.node.node) ∧ InStep (s.reported i task) := by
  obtain ⟨p, hhead, hp⟩ := hnow
  have hsubj := observedOf_subject hhead
  refine ⟨⟨mem_cons_self, ?_, ?_⟩, p, hhead, hp⟩
  · rw [hsubj]
    exact mem_of_head? hhead
  · rw [hsubj]
    exact hp

theorem Linked.reported (h : Linked site s) {task : ObservedGeneration Value → Task Value Sections}
    (htask : TaskSound site (s.reported i task) (task (observedOf s.node.node))) :
    Linked site (s.reported i task) := by
  have hgrow : Grows s (s.reported i task) :=
    Grows.of_numbered_eq (List.Subset.refl _) rfl (subset_cons_self _ _)
  refine h.of_grows hgrow (h.recorded.of_central_eq hgrow rfl h.recorded.falling) ?_ fun _ => .inl
  intro o hoth
  rcases mem_next hoth with hold | rfl
  · exact .inl hold
  · exact .inr htask

/-- What the node does on its own is a step of the reconcile. -/
theorem step_node (hs : step site s (.node event) = some s') :
    (∀ document dig, event ≠ .accept document dig)
      ∧ ∃ node, Reconciler.step site.node s.node event = some node ∧ { s with node := node } = s' := by
  cases event with
  | accept document dig => cases hs
  | _ => exact ⟨nofun, Option.map_eq_some_iff.mp hs⟩

/-- A pass, a restart, or another change of the node's users. -/
theorem Linked.node (h : Linked site s) {node : Reconciler.State Value}
    (hpush : ∀ document dig, event ≠ .accept document dig)
    (hs : Reconciler.step site.node s.node event = some node) :
    Linked site { s with node := node } := by
  have hsm := numbered_step hpush hs
  have hgrow : Grows s { s with node := node } :=
    Grows.of_numbered_eq (List.Subset.refl _) hsm (List.Subset.refl _)
  refine h.of_grows hgrow (h.recorded.of_central_eq hgrow rfl ?_) (fun _ => .inl) fun _ => .inl
  rw [hsm]
  exact h.recorded.falling

/-! ## The central -/

/-- **A publication.** The new row is the latest one, and the link is dirty. -/
theorem Linked.publishes (h : Linked site s) (hpublishes : Publishes site s.central central) :
    Linked site { s with central := central } := by
  rcases hpublishes with rfl | ⟨document, hins, habove, hpositive⟩
  · exact h
  obtain ⟨hdes, hobs, hlink⟩ := insert_eq hins
  have hpub : central.published
      = (document.generation, site.canonicalDigest document) :: s.central.published := by
    unfold Central.published
    rw [hdes]
    rfl
  have hsub : s.central.published ⊆ central.published := by
    rw [hpub]
    exact subset_cons_self _ _
  have hgrow : Grows s { s with central := central } :=
    Grows.of_numbered_eq hsub rfl (List.Subset.refl _)
  refine h.of_grows hgrow ⟨h.recorded.falling, ?_, ?_, ?_, ?_, ?_, ?_⟩ (fun _ => .inl) fun _ => .inl
  · intro row hrow
    rw [hdes] at hrow
    rcases mem_cons.mp hrow with rfl | hold
    · refine ⟨?_, rfl, rfl, hpositive⟩
      rw [hpub]
      exact mem_cons_self
    · exact (h.recorded.filed row hold).mono hsub
  · rw [hpub]
    nofun
  · rw [hpub, hlink]
    intro p hp
    rcases mem_cons.mp hp with rfl | hold
    · exact le_refl _
    · obtain ⟨row, hrow, rfl⟩ := mem_map.mp hold
      exact (habove row hrow).le
  · rw [hlink]
    exact fun hpos => hgrow.inStep (h.recorded.acknowledged hpos)
  · rw [hobs]
    exact fun hsm => hgrow.inStep (h.recorded.observed hsm)
  · rw [hlink]
    nofun

theorem Linked.commit (h : Linked site s)
    (hres : ∀ central, r = .ok central → Publishes site s.central central) :
    Linked site (s.commit r) := by
  cases r with
  | error msg => exact h
  | ok central => exact h.publishes (hres central rfl)

/-- The databases, where the central's list is the same and the node is in step. -/
theorem Recorded.of_published_eq (h : Recorded site s)
    (hpub : central.published = s.central.published)
    (hfil : ∀ row ∈ central.desired, Filed site s.central.published row)
    (hdes : central.link.desiredGeneration = s.central.link.desiredGeneration) (hnow : InStep s)
    (hcln : central.link.configDirty = false → s.central.link.configDirty = false
      ∨ ∃ observed, Backed s observed ∧ observed.reconcileState = .converged
        ∧ observed.appliedGeneration = central.link.desiredGeneration) :
    Recorded site { s with central := central } := by
  have hgrow : Grows s { s with central := central } :=
    Grows.of_numbered_eq (by rw [hpub]; exact List.Subset.refl _) rfl (List.Subset.refl _)
  refine ⟨h.falling, fun row hrow => (hfil row hrow).mono hgrow.published, ?_, ?_,
    fun _ => hgrow.inStep hnow, fun _ => hgrow.inStep hnow, ?_⟩
  · rw [hpub, hdes]
    exact h.blank
  · rw [hpub, hdes]
    exact h.bound
  · rw [hpub]
    intro hsm hdt
    rcases hcln hdt with hbef | ⟨observed, hback, hr⟩
    · obtain ⟨observed, hback, hsta, hnum⟩ := h.clean hsm hbef
      exact ⟨observed, hback.mono hgrow, hsta, hnum.trans hdes.symm⟩
    · exact ⟨observed, hback.mono hgrow, hr⟩

/-- A transaction that keeps the numbers and the digests, and the tasks after it. -/
theorem Linked.of_published_eq (h : Linked site s) (hpub : central.published = s.central.published)
    (hrec : Recorded site { s with central := central })
    (htasks : ∀ task ∈ tasks, task ∈ s.tasks ∨ TaskSound site s task) :
    Linked site { s with central := central, tasks := tasks } := by
  have hgrow : Grows s { s with central := central } :=
    Grows.of_numbered_eq (by rw [hpub]; exact List.Subset.refl _) rfl (List.Subset.refl _)
  have hlink := h.of_grows hgrow hrec (fun _ => .inl) fun _ => .inl
  exact hlink.of_tasks
    (fun task htask => (htasks task htask).imp id fun hsd => hsd.mono hgrow) fun _ => .inl

theorem recorded_markPushed (h : Recorded site s) (hnow : InStep s) (gen now : Int) :
    Recorded site { s with central := s.central.markPushed gen now } :=
  h.of_published_eq (map_update (DesiredGeneration.pushed now) (fun _ => rfl) fun _ => rfl)
    (forall_update (DesiredGeneration.pushed now) (fun _ => rfl) (fun _ hfil =>
      ⟨hfil.listed, hfil.generation, hfil.digest, hfil.positive⟩) h.filed) rfl hnow .inl

theorem published_absorb (c : Central Value Sections) (obs : ObservedGeneration Value)
    (uncaptured : Bool) (now : Int) :
    (c.absorb obs uncaptured now).published = c.published := by
  unfold Central.absorb Central.recordObserved
  dsimp only
  split
  · exact map_update (DesiredGeneration.acknowledged now) (fun _ => rfl) fun _ => rfl
  · rfl

/-- **What a report does to the link.** It keeps the desired generation, and a dirty
link it makes clean was about that generation. -/
theorem absorb_link (c : Central Value Sections) (obs : ObservedGeneration Value)
    (uncaptured : Bool) (now : Int) :
    (c.absorb obs uncaptured now).link.desiredGeneration = c.link.desiredGeneration
      ∧ ((c.absorb obs uncaptured now).link.configDirty = false →
        c.link.configDirty = false ∨ (obs.reconcileState = .converged
          ∧ obs.appliedGeneration = c.link.desiredGeneration)) := by
  unfold Central.absorb Central.recordObserved
  dsimp only
  split
  next hconv =>
    refine ⟨rfl, ?_⟩
    split
    next hdes => exact fun _ => .inr ⟨hconv.1, hdes.symm⟩
    · exact .inl
  · exact ⟨rfl, .inl⟩

theorem recorded_absorb (h : Recorded site s) (hnow : InStep s)
    {obs : ObservedGeneration Value} (hback : Backed s obs) (uncaptured : Bool)
    (now : Int) : Recorded site { s with central := s.central.absorb obs uncaptured now } := by
  obtain ⟨hdes, hclr⟩ := absorb_link s.central obs uncaptured now
  refine h.of_published_eq (published_absorb s.central obs uncaptured now) ?_ hdes hnow ?_
  · unfold Central.absorb Central.recordObserved
    dsimp only
    split
    · exact forall_update (DesiredGeneration.acknowledged now) (fun _ => rfl) (fun _ hfil =>
        ⟨hfil.listed, hfil.generation, hfil.digest, hfil.positive⟩) h.filed
    · exact h.filed
  · intro hcln
    refine (hclr hcln).imp id fun hconv => ?_
    exact ⟨obs, hback, hconv.1, hconv.2.trans hdes.symm⟩

/-- Enabling and disabling a link leaves what is recorded about generations. -/
theorem Linked.setEnabled (h : Linked site s) (enabled : Bool) : Linked site { s with
      central := { s.central with link := { s.central.link with enabled := enabled } } } := by
  have hgrow : Grows s { s with
      central := { s.central with link := { s.central.link with enabled := enabled } } } :=
    Grows.of_numbered_eq (List.Subset.refl _) rfl (List.Subset.refl _)
  refine h.of_grows hgrow ⟨h.recorded.falling,
    fun row hrow => (h.recorded.filed row hrow).mono hgrow.published, h.recorded.blank,
    h.recorded.bound, fun hpos => hgrow.inStep (h.recorded.acknowledged hpos),
    fun hsm => hgrow.inStep (h.recorded.observed hsm), ?_⟩ (fun _ => .inl) fun _ => .inl
  intro hsm hcln
  obtain ⟨observed, hback, hr⟩ := h.recorded.clean hsm hcln
  exact ⟨observed, hback.mono hgrow, hr⟩

/-! ## Every run -/

/-- **Every step keeps the invariant.** -/
theorem Linked.step {ev : Event Value Sections} (h : Linked site s)
    (hs : step site s ev = some s') : Linked site s' := by
  have hsd : ∀ {i : Nat} {task}, s.tasks[i]? = some task → TaskSound site s task :=
    fun hi => h.tasks _ (mem_of_getElem? hi)
  unfold Generations.step at hs
  cases ev with
  | publish conts createdBy now =>
    cases hs
    exact h.commit fun central hres => publishes_publish h.recorded.filed hres
  | setEnabled enabled =>
    cases hs
    exact h.setEnabled enabled
  | heartbeat =>
    cases hs
    refine h.of_tasks (fun task htask => (mem_append.mp htask).imp_right fun hnew => ?_)
      fun _ => .inl
    rw [mem_singleton.mp hnew]
    exact h.heartbeat
  | deliver i adopted deferred now =>
    dsimp only at hs
    split at hs
    next link lat observed hi =>
      split at hs
      · cases hs
        exact h.decideDelivery ⟨(hsd hi).1, h.heartbeat.2⟩
      · cases hs
        exact h.decideDelivery (hsd hi)
    · cases hs
  | arrive i kept =>
    dsimp only at hs
    split at hs
    next lat hi =>
      cases hs
      exact h.arrive (hsd hi)
    · cases hs
  | arriveLate i kept =>
    dsimp only at hs
    split at hs
    next req hi =>
      cases hs
      have hlink : Linked site (Generations.arriveLate site s req kept) :=
        h.arriveLate (h.requests req (mem_of_getElem? hi))
      refine hlink.of_tasks (fun _ => .inl) fun o hoth => .inl ?_
      rw [arriveLate_requests]
      exact mem_of_mem_eraseIdx hoth
    · cases hs
  | answer i =>
    dsimp only at hs
    split at hs
    next lat hi =>
      cases hs
      exact h.reported (backed_reported i _ (hsd hi))
    · cases hs
  | supersede i =>
    dsimp only at hs
    split at hs
    · split at hs
      · cases hs
        exact h.next trivial
      · cases hs
    · cases hs
  | report i =>
    dsimp only at hs
    split at hs
    · cases hs
      exact h.reported trivial
    next hi =>
      cases hs
      exact h.reported (backed_reported i _ (hsd hi))
    · cases hs
  | markPushed i now =>
    dsimp only at hs
    split at hs
    next lat observed hi =>
      cases hs
      refine h.of_published_eq
        (map_update (DesiredGeneration.pushed now) (fun _ => rfl) fun _ => rfl)
        (recorded_markPushed h.recorded (hsd hi).2 lat.document.generation now) ?_
      intro task htask
      have hback := hsd hi
      rcases mem_next htask with hold | rfl
      · exact .inl hold
      · exact .inr hback
    · cases hs
  | absorb i uncaptured now =>
    dsimp only at hs
    split at hs
    next observed hi =>
      cases hs
      exact h.of_published_eq (published_absorb s.central observed uncaptured now)
        (recorded_absorb h.recorded (hsd hi).2 (hsd hi).1 uncaptured now)
        fun _ htask => .inl (mem_finish htask)
    · cases hs
  | republish i conts now =>
    dsimp only at hs
    split at hs
    · cases hs
      exact (h.finish i).commit fun central hres => publishes_republish h.recorded.filed hres
    · cases hs
  | abandon i =>
    dsimp only at hs
    split at hs
    next task hi =>
      cases hs
      exact h.abandon hi
    · cases hs
  | node ev =>
    obtain ⟨hpush, node, hnode, rfl⟩ := step_node hs
    exact h.node hpush hnode

/-- **A link that was just made.** The node may hold generations of another time. -/
structure Fresh (s : State Value Sections) : Prop where
  desired : s.central.desired = []
  observed : s.central.observed = none
  desiredGeneration : s.central.link.desiredGeneration = 0
  acknowledgedGeneration : s.central.link.acknowledgedGeneration = 0
  tasks : s.tasks = []
  requests : s.requests = []
  falling : Falling (numbered s.node.node)

theorem Fresh.linked (h : Fresh s) : Linked site s := by
  have hpub : s.central.published = [] := by
    unfold Central.published
    rw [h.desired]
    rfl
  refine ⟨⟨h.falling, ?_, fun _ => h.desiredGeneration, ?_, ?_, ?_, ?_⟩, ?_, ?_⟩
  · rw [h.desired]
    exact nofun
  · rw [hpub]
    exact nofun
  · rw [h.acknowledgedGeneration]
    exact fun hpos => absurd hpos (lt_irrefl 0)
  · rw [h.observed]
    exact nofun
  · exact fun hsm => absurd hpub hsm
  · rw [h.tasks]
    exact fun _ htask => absurd htask not_mem_nil
  · rw [h.requests]
    exact nofun

/-- **Central and node agree on a generation**: it is the central's latest, the node
has it under the same digest, and has reported that it converged. -/
def Agreed (s : State Value Sections) (generation : Int) : Prop :=
  ∃ row, row ∈ s.central.desired ∧ row.generation = generation ∧ s.central.latest = some row
    ∧ (∃ stored ∈ s.node.node.generations, stored.generation = generation)
    ∧ (∀ stored ∈ s.node.node.generations, stored.generation = generation →
      stored.digest = row.digest)
    ∧ ∃ observed ∈ s.reports, observed.appliedGeneration = generation
      ∧ observed.digest = row.digest ∧ observed.reconcileState = .converged

/-- The row of the desired generation is the latest one. -/
theorem latest_of_bound (hrow : row ∈ central.desired)
    (hbound : ∀ p ∈ central.published, p.1 ≤ row.generation) : central.latest = some row := by
  cases hlat : central.latest with
  | none =>
    rw [argmax_eq_none.mp hlat] at hrow
    cases hrow
  | some lat =>
    have hmem : lat ∈ central.desired := argmax_mem hlat
    have hle : lat.generation ≤ row.generation := hbound _ (mem_map_of_mem hmem)
    rw [inj_on_of_nodup_map central.keyed hmem hrow (le_antisymm hle (le_latest hlat hrow))]

/-- A clean link with a generation is an agreement on it. -/
theorem Recorded.agreed (h : Recorded site s) (hcln : s.central.link.configDirty = false)
    (hpos : 0 < s.central.link.desiredGeneration) :
    Agreed s s.central.link.desiredGeneration := by
  have hsome : s.central.published ≠ [] := fun hemp => hpos.ne' (h.blank hemp)
  obtain ⟨observed, hback, hconv, hnum⟩ := h.clean hsome hcln
  obtain ⟨row, hrow, hsm⟩ := mem_map.mp hback.published
  obtain ⟨stored, hsto, hfil⟩ := mem_map.mp hback.filed
  have hgen : row.generation = s.central.link.desiredGeneration :=
    (congrArg Prod.fst hsm).trans hnum
  refine ⟨row, hrow, hgen, latest_of_bound hrow ?_,
    ⟨stored, hsto, (congrArg Prod.fst hfil).trans hnum⟩, ?_,
    observed, hback.made, hnum, (congrArg Prod.snd hsm).symm, hconv⟩
  · rw [hgen]
    exact h.bound
  · intro o hoth hnum'
    have hpair : (o.generation, o.digest) = observed.subject :=
      h.falling.unique (mem_map_of_mem hoth) hback.filed (hnum'.trans hnum.symm)
    exact (congrArg Prod.snd hpair).trans (congrArg Prod.snd hsm).symm

/-- A publication leaves a dirty link dirty. -/
theorem Publishes.dirty (h : Publishes site central central')
    (hdt : central.link.configDirty = true) : central'.link.configDirty = true := by
  rcases h with rfl | ⟨document, hins, -, -⟩
  · exact hdt
  · rw [(insert_eq hins).2.2]

theorem commit_dirty (hres : ∀ central, r = .ok central → Publishes site s.central central)
    (hdt : s.central.link.configDirty = true) :
    (s.commit r).central.link.configDirty ≠ false := by
  cases r with
  | error msg => exact ne_of_eq_of_ne hdt nofun
  | ok central => exact ne_of_eq_of_ne ((hres central rfl).dirty hdt) nofun

theorem decideDelivery_central {lat : Option (DesiredGeneration Value Sections)} :
    (decideDelivery s i link lat observed deferred now).central = s.central := by
  unfold decideDelivery
  split
  · rfl
  · split <;> rfl

theorem arrive_central : (arrive site s i lat kept).central = s.central := by
  unfold arrive
  split
  · split <;> rfl
  · split <;> rfl

theorem arriveLate_central : (arriveLate site s req kept).central = s.central := by
  unfold arriveLate
  split
  · rfl
  · split <;> rfl

/-- **Only a report of the desired generation makes a dirty link clean.** -/
theorem Linked.cleared {ev : Event Value Sections} (h : Linked site s)
    (hs : Generations.step site s ev = some s') (hdt : s.central.link.configDirty = true)
    (hcln : s'.central.link.configDirty = false) :
    ∃ i uncaptured now observed, ev = .absorb i uncaptured now
      ∧ s.tasks[i]? = some (.absorbing observed) ∧ observed.reconcileState = .converged
      ∧ observed.appliedGeneration = s.central.link.desiredGeneration := by
  have hsm : s'.central ≠ s.central := by
    intro heq
    rw [heq, hdt] at hcln
    cases hcln
  unfold Generations.step at hs
  cases ev with
  | publish conts createdBy now =>
    cases hs
    exact absurd hcln (commit_dirty (fun _ hres => publishes_publish h.recorded.filed hres) hdt)
  | setEnabled enabled =>
    cases hs
    rw [show s.central.link.configDirty = false from hcln] at hdt
    cases hdt
  | heartbeat =>
    cases hs
    exact absurd rfl hsm
  | deliver i adopted deferred now =>
    dsimp only at hs
    repeat' split at hs
    all_goals cases hs
    all_goals exact absurd decideDelivery_central hsm
  | arrive i kept =>
    dsimp only at hs
    split at hs
    · cases hs
      exact absurd arrive_central hsm
    · cases hs
  | arriveLate i kept =>
    dsimp only at hs
    split at hs
    · cases hs
      exact absurd arriveLate_central hsm
    · cases hs
  | answer | supersede | report | abandon =>
    dsimp only at hs
    repeat' split at hs
    all_goals cases hs
    all_goals exact absurd rfl hsm
  | markPushed i now =>
    dsimp only at hs
    split at hs
    · cases hs
      rw [show s.central.link.configDirty = false from hcln] at hdt
      cases hdt
    · cases hs
  | absorb i uncaptured now =>
    dsimp only at hs
    split at hs
    next observed hi =>
      cases hs
      rcases (absorb_link s.central observed uncaptured now).2 hcln with hbef | habout
      · rw [hbef] at hdt
        cases hdt
      · exact ⟨i, uncaptured, now, observed, rfl, hi, habout⟩
    · cases hs
  | republish i conts now =>
    dsimp only at hs
    split at hs
    · cases hs
      exact absurd hcln (commit_dirty (fun _ hres => publishes_republish h.recorded.filed hres) hdt)
    · cases hs
  | node ev =>
    obtain ⟨-, node, -, rfl⟩ := step_node hs
    exact absurd rfl hsm

/-- **Central and node agree when the link is clean.** Whatever is published, pushed,
lost, repeated, polled, renumbered, applied or restarted: a clean link whose desired
generation is acknowledged is an agreement on that generation, and only a report of
the desired generation ever makes a dirty link clean. -/
theorem clean_link_agrees {s₀ : State Value Sections} {events : List (Event Value Sections)}
    (hfresh : Fresh s₀) (hrun : Run.exec (Generations.step site) s₀ events = some s) :
    (s.central.link.configDirty = false →
      s.central.link.acknowledgedGeneration = s.central.link.desiredGeneration →
      0 < s.central.link.desiredGeneration → Agreed s s.central.link.acknowledgedGeneration)
    ∧ ∀ event s', Generations.step site s event = some s' →
      s.central.link.configDirty = true → s'.central.link.configDirty = false →
      ∃ i uncaptured now observed, event = .absorb i uncaptured now
        ∧ s.tasks[i]? = some (.absorbing observed) ∧ observed.reconcileState = .converged
        ∧ observed.appliedGeneration = s.central.link.desiredGeneration := by
  have hlinked : Linked site s :=
    Run.invariant (fun _ _ _ hs hstep => hs.step hstep) hrun hfresh.linked
  refine ⟨?_, fun _ _ hstep hdirty hclean => hlinked.cleared hstep hdirty hclean⟩
  intro hclean hacknowledged hpositive
  rw [hacknowledged]
  exact hlinked.recorded.agreed hclean hpositive

/-- **A node stays in step**, in every run: what is on its way – of a visit, or left by one
that gave up – was published, the node has no number twice, and after an acknowledgement its
latest one is published. -/
theorem node_in_step {events : List (Event Value Sections)} (hfresh : Fresh s)
    (hrun : Run.exec (Generations.step site) s events = some s') :
    (∀ request ∈ s'.requests ++ s'.tasks.flatMap (Task.leaves site),
      request.subject site ∈ s'.central.published)
    ∧ Falling (numbered s'.node.node)
    ∧ (0 < s'.central.link.acknowledgedGeneration → InStep s') := by
  have h : Linked site s' :=
    Run.invariant (fun _ _ _ hs hstep => hs.step hstep) hrun hfresh.linked
  refine ⟨fun request hreq => ?_, h.recorded.falling, h.recorded.acknowledged⟩
  rcases mem_append.mp hreq with hold | hreq
  · exact h.requests request hold
  · obtain ⟨task, htask, hleaves⟩ := mem_flatMap.mp hreq
    exact (h.tasks task htask).leaves hleaves

namespace Sample

/-- A digest that tells numbers and contents apart. -/
def linkSite : Site Unit Nat where
  nodeId := "node"
  ownGuid := "central"
  canonicalDigest document :=
    String.ofList (List.replicate document.sections 'a'
      ++ List.replicate document.generation.toNat 'b')
  validate _ := .ok ()
  node := Reconciler.sampleSite

/-- A new link to a node that has a generation of another time. -/
def linkStart : State Unit Nat where
  central := ⟨[], List.nodup_nil, none, ⟨true, false, 0, 0⟩⟩
  tasks := []
  requests := []
  node :=
    ⟨⟨some "central", [⟨1, "old", .converged, "central", ⟨"node", "central", 1, []⟩⟩], [],
      List.nodup_nil, [], []⟩, none⟩
  reports := []

/-- A command of a pass goes well. -/
def goesWell : Event Unit Nat :=
  .node (.perform ⟨.done, .store "", "", 0, none, [], ⟨true, none, none, [], .caller⟩, none, none,
    false⟩)

/-- A visit whose push arrives. -/
def pushed : List (Event Unit Nat) := [.heartbeat, .deliver 0 false false 0, .arrive 0 true]

/-- The node applies a generation, and answers the push. -/
def applied (generation : Int) : List (Event Unit Nat) :=
  .node (.enter (.apply generation)) :: List.replicate 6 goesWell ++ [.answer 0]

/-- The central takes the answer in. -/
def takenIn : List (Event Unit Nat) := [.markPushed 0 0, .absorb 0 false 0]

/-- The first push meets the old generation, and the contents get another number;
while that is delivered, something new is published. -/
def linkRun : List (Event Unit Nat) :=
  .publish ⟨[], 1⟩ "admin" 0 :: pushed ++ [.report 0, .republish 0 ⟨[], 1⟩ 0]
    ++ pushed ++ applied 2 ++ [.publish ⟨[], 2⟩ "admin" 0] ++ takenIn
    ++ pushed ++ applied 3 ++ takenIn

/-- The link is clean again after two deliveries. -/
theorem clean_link_agrees_after_resync :
    ∃ s, Run.exec (step linkSite) linkStart linkRun = some s
      ∧ s.central.link = ⟨true, false, 3, 3⟩ ∧ Agreed s 3 := by
  refine Run.end_and (by decide +kernel) fun s hrun hlink => ?_
  have hfresh : Fresh linkStart :=
    ⟨rfl, rfl, rfl, rfl, rfl, rfl, List.pairwise_singleton _ _⟩
  have hagrees := (clean_link_agrees hfresh hrun).1
  rw [hlink] at hagrees
  exact hagrees rfl rfl (by decide)

theorem node_in_step_resynced : ∃ s, Run.exec (step linkSite) linkStart linkRun = some s
    ∧ 0 < s.central.link.acknowledgedGeneration ∧ InStep s :=
  Run.end_and (by decide +kernel) fun _ hrun => (node_in_step
    (⟨rfl, rfl, rfl, rfl, rfl, rfl, pairwise_singleton _ _⟩ : Fresh linkStart) hrun).2.2

end Sample

end Generations
