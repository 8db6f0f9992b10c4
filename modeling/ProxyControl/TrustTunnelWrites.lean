import ProxyControl.TrustTunnel

/-!
# When a success of the TrustTunnel manager is true

A success should mean that the files say what memory says, and that the
endpoint was started on these files or is about to be. A call that writes
everything itself does give the first. The other successes rest on earlier
calls: a call that finds nothing to do compares with memory, and memory was
changed before the writes that may have failed.

So a failure has to be made good before a call that has nothing to do can be
believed. `MadeGood` says so of a step: where a call finds nothing to do, no
failed save and no failed write is outstanding, and the endpoint is not
running on replaced settings with no restart requested; where a call changes
the document, either the endpoint is not, or a settings file is left to write.
Over the runs whose steps all meet it a success is true
(`success_true_of_madeGood`), and without it it need not be
(`disabled_twice_still_accepted`).
-/

namespace TrustTunnel

open Table
open Run (Outcome)

/-- The endpoint runs on settings that were replaced since it was started, and
no restart is requested. -/
def Manager.stale (m : Manager) : Bool :=
  m.restartAt.isNone && m.endpoint.any fun edition => decide (edition ≠ m.edition)

/-- **What a success promises of the manager**: the state file, the settings
files and the endpoint. -/
structure Written (cfg : Config) (m : Manager) : Prop where
  /-- The state file holds the document. -/
  state : m.disk.state.map Document.stored = some m.doc.stored
  /-- The settings files are the document's. -/
  settings : ∀ f, m.disk.settings f = some (text cfg m.doc f)
  /-- The endpoint was started after the settings were last replaced, or a
  restart is requested. -/
  endpoint : (∀ edition, m.endpoint = some edition → edition = m.edition) ∨ m.restartAt.isSome

-- The hex digest of a text.
variable (sha256 : String → String)

/-- What a plan asks of the manager it is carried out by. -/
def Plan.RestsOnNothing (cfg : Config) (m : Manager) : Plan → Prop
  | ⟨none, _⟩ => m.unsaved = false ∧ m.unwritten = false ∧ m.stale = false
  | ⟨some doc, _⟩ => m.stale = false ∨ ∃ f ∈ File.all, m.disk.settings f ≠ some (text cfg doc f)

instance (cfg : Config) (m : Manager) : ∀ p : Plan, Decidable (p.RestsOnNothing cfg m)
  | ⟨none, _⟩ => inferInstanceAs (Decidable (_ ∧ _))
  | ⟨some _, _⟩ => inferInstanceAs (Decidable (_ ∨ _))

/-- **What came before is made good** where a call rests on it. -/
def MadeGood (cfg : Config) (m : Manager) : Event → Prop
  | .call c _ _ =>
    match plan sha256 m.doc c with
    | .error _ => True
    | .ok p => p.RestsOnNothing cfg m
  | .tick _ _ => True
  | .exit => True

instance (cfg : Config) (m : Manager) : ∀ e, Decidable (MadeGood sha256 cfg m e)
  | .call c _ _ =>
    match h : plan sha256 m.doc c with
    | .error _ => .isTrue (by simp only [MadeGood, h])
    | .ok p => decidable_of_iff (p.RestsOnNothing cfg m) (by simp only [MadeGood, h])
  | .tick _ _ => inferInstanceAs (Decidable True)
  | .exit => inferInstanceAs (Decidable True)

/-! ## What the writes do -/

variable {cfg : Config} {m m' : Manager} {now : Int} {w : Writes} {sha256 : String → String}
  {cont u : String} {r : Option Bool} {changed : Bool} {fs : List File} {reply : Reply}
  {doc : Document}

/-- The manager after settings files were replaced. -/
def Manager.rewritten (m : Manager) (settings : File → Option String) (edition : Nat) : Manager :=
  { m with disk := { m.disk with settings }, edition }

theorem File.mem_all (f : File) : f ∈ File.all := by
  cases f <;> decide

/-- A failed or successful `put` touches the settings only. -/
theorem put_frame {f : File} {w : Outcome} (h : put m f cont w = (m', r)) :
    ∃ sets edition, m' = m.rewritten sets edition := by
  unfold put at h
  split at h
  · cases h
    exact ⟨m.disk.settings, m.edition, rfl⟩
  · cases h
    split
    · exact ⟨_, _, rfl⟩
    · exact ⟨m.disk.settings, m.edition, rfl⟩

/-- A `put` that succeeds leaves the content in place, says whether it was
there, and changes nothing if it was. -/
theorem put_ok {f : File} {w : Outcome} (h : put m f cont w = (m', some changed)) :
    m'.disk.settings = Function.update m.disk.settings f (some cont)
      ∧ (changed = false → m' = m ∧ m.disk.settings f = some cont) := by
  unfold put at h
  split at h
  next hsm =>
    cases h
    exact ⟨(Function.update_eq_self_iff.mpr hsm.symm).symm, fun _ => ⟨rfl, hsm⟩⟩
  · obtain ⟨rfl, hr⟩ := Prod.mk.injEq .. ▸ h
    split at hr
    next hdone =>
      cases hr
      rw [hdone]
      exact ⟨rfl, fun hf => by cases hf⟩
    · cases hr

theorem writeFiles_frame {w : File → Outcome} (h : writeFiles cfg w m fs = (m', r)) :
    ∃ sets edition, m' = m.rewritten sets edition := by
  induction fs generalizing m r with
  | nil =>
    cases h
    exact ⟨m'.disk.settings, m'.edition, rfl⟩
  | cons f fs ih =>
    rw [writeFiles] at h
    split at h
    next hput =>
      cases h
      exact put_frame hput
    next hput =>
      obtain ⟨sets, edition, rfl⟩ := put_frame hput
      split at h
      next hr =>
        cases h
        obtain ⟨sets', edition', hm'⟩ := ih hr
        exact ⟨sets', edition', hm'⟩
      next hr =>
        cases h
        obtain ⟨sets', edition', hm'⟩ := ih hr
        exact ⟨sets', edition', hm'⟩

/-- **Writing the files, when it succeeds**, leaves each of them in place; where
none was replaced, all of them were. -/
theorem writeFiles_ok {w : File → Outcome} (h : writeFiles cfg w m fs = (m', some changed)) :
    (∀ f, m'.disk.settings f = if f ∈ fs then some (text cfg m.doc f) else m.disk.settings f)
      ∧ (changed = false → m' = m ∧ ∀ f ∈ fs, m.disk.settings f = some (text cfg m.doc f)) := by
  induction fs generalizing m changed with
  | nil =>
    cases h
    exact ⟨fun f => rfl, fun _ => ⟨rfl, fun f hf => by cases hf⟩⟩
  | cons g fs ih =>
    rw [writeFiles] at h
    split at h
    · cases h
    next m₁ changed₁ hput =>
      split at h
      · cases h
      next m₂ changed₂ hr =>
        cases h
        obtain ⟨sets, edition, rfl⟩ := put_frame hput
        obtain ⟨hset, hsm⟩ := put_ok hput
        obtain ⟨hset', hsm'⟩ := ih hr
        refine ⟨fun f => ?_, fun hno => ?_⟩
        · rw [hset' f, hset]
          by_cases hfs : f ∈ fs
          · rw [if_pos hfs, if_pos (List.mem_cons_of_mem _ hfs)]
            rfl
          · rw [if_neg hfs]
            by_cases hfg : f = g
            · subst hfg
              rw [Function.update_self, if_pos List.mem_cons_self]
            · rw [Function.update_of_ne hfg, if_neg (by simp [hfg, hfs])]
        · obtain ⟨hno₁, hno₂⟩ := Bool.or_eq_false_iff.mp hno
          obtain ⟨hm₁, hg⟩ := hsm hno₁
          obtain ⟨hm₂, hfs⟩ := hsm' hno₂
          rw [hm₁] at hm₂ hfs
          refine ⟨hm₂, fun f hf => ?_⟩
          rcases List.mem_cons.mp hf with rfl | hf
          · exact hg
          · exact hfs f hf

/-! ## The invariant -/

/-- **What the record of failures is worth**: what no failure is recorded of is
on disk. -/
structure Sound (cfg : Config) (m : Manager) : Prop where
  state : m.unsaved = false → m.disk.state.map Document.stored = some m.doc.stored
  settings : m.unwritten = false → ∀ f, m.disk.settings f = some (text cfg m.doc f)

/-- The invariant is about the document, the files and the record. -/
theorem Sound.congr (h : Sound cfg m) (hdoc : m'.doc = m.doc) (hdisk : m'.disk = m.disk)
    (hunsaved : m'.unsaved = m.unsaved) (hunw : m'.unwritten = m.unwritten) :
    Sound cfg m' := by
  refine ⟨fun hm => ?_, fun hm => ?_⟩
  · rw [hdisk, hdoc]
    exact h.state (hunsaved ▸ hm)
  · rw [hdisk, hdoc]
    exact h.settings (hunw ▸ hm)

/-- After a save the state file holds the document unless the record says
otherwise. -/
theorem save_state (m : Manager) (w : Outcome) (h : (save m w).1.unsaved = false) :
    (save m w).1.disk.state.map Document.stored = some (save m w).1.doc.stored := by
  have hld : w.lands = true := by simpa using show (! w.lands) = false from h
  show (if w.lands then _ else _ : Option Document).map Document.stored = _
  rw [if_pos hld]
  exact congrArg some (Document.stored_stored _)

/-- A save of a document that prints as the one before keeps the invariant. -/
theorem sound_save (h : Sound cfg m) (hcred : m'.doc.credentials = m.doc.credentials)
    (hegr : m'.doc.egress = m.doc.egress) (hset : m'.disk.settings = m.disk.settings)
    (hunw : m'.unwritten = m.unwritten) (w : Outcome) : Sound cfg (save m' w).1 := by
  refine ⟨save_state m' w, fun hw f => ?_⟩
  show m'.disk.settings f = some (text cfg m'.doc.pruned f)
  rw [hset, text_pruned, text_congr cfg hcred hegr]
  rw [save_unwritten, hunw] at hw
  exact h.settings hw f

/-- Counters are not printed. -/
theorem credentials_mapClients (doc : Document) {f : String → Client → Client}
    (hf : ∀ n c, (f n c).enabled = c.enabled ∧ (f n c).password = c.password) :
    (doc.mapClients f).credentials = doc.credentials := by
  unfold Document.credentials Document.mapClients
  congr 1
  rw [List.filter_map, List.map_map]
  refine (congrArg _ (List.filter_congr fun e _ => (hf e.1 e.2).1)).trans ?_
  exact List.map_congr_left fun e _ => congrArg (Prod.mk e.1) (hf e.1 e.2).2

theorem countIn_prints (readings : List (String × Reading)) (n : String) (c : Client) :
    (countIn readings n c).enabled = c.enabled ∧ (countIn readings n c).password = c.password := by
  unfold countIn
  split
  · exact ⟨rfl, rfl⟩
  · exact ⟨rfl, rfl⟩

/-- Without a reading of one of its clients a document stays as it is. -/
theorem mapClients_countIn (doc : Document) {readings : List (String × Reading)}
    (h : ¬ (doc.clients.any fun e => (find readings e.1).isSome) = true) :
    doc.mapClients (countIn readings) = doc := by
  have hcls : doc.clients.map (fun e => (e.1, countIn readings e.1 e.2)) = doc.clients := by
    refine (List.map_congr_left fun e he => ?_).trans (List.map_id _)
    have hn : find readings e.1 = none := by
      by_contra hsm
      exact h (List.any_eq_true.mpr ⟨e, he, Option.isSome_iff_ne_none.mpr hsm⟩)
    rw [countIn, hn]
    rfl
  unfold Document.mapClients
  simp only [hcls]

theorem sound_poll (h : Sound cfg m) (rows : Option (List Row)) (w : Outcome) :
    Sound cfg (poll m rows w) := by
  unfold poll
  cases rows with
  | none => exact h
  | some rows =>
    dsimp only
    split
    · refine sound_save h ?_ ?_ ?_ ?_ w
      · exact credentials_mapClients m.doc (countIn_prints _)
      · rfl
      · rfl
      · rfl
    next hn => exact h.congr (mapClients_countIn m.doc hn) rfl rfl rfl

theorem sound_maybeStart (h : Sound cfg m) (now : Int) (env : Surroundings) :
    Sound cfg (maybeStart m now env) := by
  unfold maybeStart
  split
  · exact h
  · split
    · exact h.congr rfl rfl rfl rfl
    · exact h.congr rfl rfl rfl rfl

theorem sound_restart (h : Sound cfg m) (now : Int) (env : Surroundings) :
    Sound cfg (restart m now env) := by
  refine sound_maybeStart ?_ now env
  have hpolled : Sound cfg (if m.endpoint.isSome then poll m env.rows env.saves.1 else m) := by
    split
    · exact sound_poll h env.rows env.saves.1
    · exact h
  generalize (if m.endpoint.isSome then poll m env.rows env.saves.1 else m) = p at hpolled
  let reset := { p with
    endpoint := none
    doc := p.doc.mapClients fun _ c => { c with lastIn := 0, lastOut := 0 }
    sessions := [] }
  have hsv : Sound cfg (save reset env.saves.2).1 := by
    refine sound_save hpolled ?_ ?_ ?_ ?_ env.saves.2
    · exact credentials_mapClients p.doc fun _ _ => ⟨rfl, rfl⟩
    · rfl
    · rfl
    · rfl
  exact hsv.congr rfl rfl rfl rfl

theorem sound_tick (h : Sound cfg m) (now : Int) (env : Surroundings) :
    Sound cfg (tick cfg m now env) := by
  unfold tick
  split
  · have hn : Sound cfg { m with restartAt := none } := h.congr rfl rfl rfl rfl
    exact sound_restart hn now env
  · split
    · have hup : Sound cfg (if 60000 ≤ now - m.startedAt then { m with failures := 0 } else m) := by
        split
        · exact h.congr rfl rfl rfl rfl
        · exact h
      generalize (if 60000 ≤ now - m.startedAt then { m with failures := 0 } else m) = p at hup
      dsimp only
      split
      · have hpoll : Sound cfg { p with nextPoll := now + cfg.pollInterval } :=
          hup.congr rfl rfl rfl rfl
        exact sound_poll hpoll env.rows env.saves.1
      · exact hup
    · exact sound_maybeStart h now env

/-! ## Calls -/

/-- **What a carried out change leaves**, when every write succeeds. -/
theorem mutated_ok (h : mutated cfg m now w = (m', .ok ())) : m'.doc = m.doc.pruned
      ∧ m'.disk.state.map Document.stored = some m'.doc.stored
      ∧ (∀ f, m'.disk.settings f = some (text cfg m'.doc f))
      ∧ (m'.stale = true →
        m.stale = true ∧ ∀ f ∈ File.all, m.disk.settings f = some (text cfg m.doc f)) := by
  unfold mutated at h
  split at h
  · cases h
  next m₁ hsave =>
    obtain ⟨hm₁, hdone⟩ := Prod.mk.injEq .. ▸ hsave
    subst hm₁
    split at h
    · cases h
    next m₂ changed hfls =>
      cases h
      obtain ⟨sets, edition, rfl⟩ := writeFiles_frame hfls
      obtain ⟨hset, hsm⟩ := writeFiles_ok hfls
      have hdoc : ∀ f, sets f = some (text cfg m.doc.pruned f) := fun f =>
        (hset f).trans (if_pos f.mem_all)
      have hsta := save_state m w.state (by
        rw [of_decide_eq_true hdone]
        rfl)
      cases changed with
      | true =>
        refine ⟨rfl, hsta, hdoc, fun hstale => ?_⟩
        have hn := (Bool.and_eq_true_iff.mp hstale).1
        simp [requestRestart, Manager.rewritten] at hn
      | false =>
        obtain ⟨hm, hall⟩ := hsm rfl
        rw [hm]
        refine ⟨rfl, hsta, fun f => ?_, fun hstale => ⟨hstale, fun f hf => ?_⟩⟩
        · exact hall f f.mem_all
        · exact (hall f hf).trans (congrArg some (text_pruned cfg m.doc f))

/-- A failed change leaves its failure recorded. -/
theorem mutated_error {e : ApiError} (h : mutated cfg m now w = (m', .error e)) : Sound cfg m' := by
  unfold mutated at h
  split at h
  next m₁ hsave =>
    cases h
    have hm₁ : m₁ = (save m w.state).1 := congrArg Prod.fst hsave.symm
    subst hm₁
    exact ⟨save_state m w.state, fun hw => by cases hw⟩
  next m₁ hsave =>
    split at h
    next m₂ hfls =>
      cases h
      have hm₁ : m₁ = (save m w.state).1 := congrArg Prod.fst hsave.symm
      subst hm₁
      obtain ⟨sets, edition, rfl⟩ := writeFiles_frame hfls
      exact ⟨save_state m w.state, fun hw => by cases hw⟩
    · cases h

/-- What a success comes from: nothing to do, or a change carried out. -/
theorem call_ok {c : Call} (h : call sha256 cfg m c now w = (m', .ok reply)) :
    (∃ ans, plan sha256 m.doc c = .ok ⟨none, ans⟩ ∧ m' = m)
      ∨ ∃ doc ans, plan sha256 m.doc c = .ok ⟨some doc, ans⟩
        ∧ mutated cfg { m with doc } now w = (m', .ok ()) := by
  unfold call at h
  split at h
  · cases h
  next ans hp =>
    cases h
    exact .inl ⟨ans, hp, rfl⟩
  next doc ans hp =>
    split at h
    · cases h
    next m₁ hmut =>
      cases h
      exact .inr ⟨doc, ans, hp, hmut⟩

theorem sound_call (h : Sound cfg m) (sha256 : String → String) (c : Call) (now : Int)
    (w : Writes) : Sound cfg (call sha256 cfg m c now w).1 := by
  unfold call
  split
  · exact h
  · exact h
  · split
    next hmut => exact mutated_error hmut
    next hmut =>
      obtain ⟨_, hsta, hset, _⟩ := mutated_ok hmut
      exact ⟨fun _ => hsta, fun _ => hset⟩

/-- **Every step keeps the invariant.** -/
theorem sound_step {e : Event} (h : Sound cfg m) (hs : step sha256 cfg m e = some m') :
    Sound cfg m' := by
  cases e with
  | call c now w =>
    cases hs
    exact sound_call h sha256 c now w
  | tick now env =>
    cases hs
    exact sound_tick h now env
  | exit =>
    cases hs
    exact h.congr rfl rfl rfl rfl

/-- A manager that comes up is sound, whatever it finds on disk. -/
theorem sound_bootstrap {disk : Disk} {tok : String} {env : Surroundings}
    (h : bootstrap cfg disk tok now w env = some m) : Sound cfg m := by
  unfold bootstrap at h
  dsimp only at h
  split at h
  · cases h
  next m₁ hrdy =>
    split at h
    · cases h
    next m₂ changed hfls =>
      cases h
      refine sound_maybeStart ?_ now env
      have hsta : m₁.unsaved = false → m₁.disk.state.map Document.stored = some m₁.doc.stored := by
        split at hrdy
        · have hm₁ : m₁ = (save _ w.state).1 := congrArg Prod.fst hrdy.symm
          rw [hm₁]
          exact save_state _ w.state
        next hplace =>
          cases hrdy
          intro _
          cases hdisk : disk.state with
          | none =>
            rw [hdisk] at hplace
            exact absurd rfl hplace
          | some doc => rfl
      obtain ⟨hset, _⟩ := writeFiles_ok hfls
      obtain ⟨sets, edition, rfl⟩ := writeFiles_frame hfls
      exact ⟨hsta, fun _ f => (hset f).trans (if_pos f.mem_all)⟩

/-! ## The guarantee -/

/-- A client that is disabled, or that there is not, is not accepted. -/
theorem not_mem_credentials (hu : u ≠ placeholderUsername)
    (h : ∀ c, find doc.clients u = some c → c.enabled = false)
    (password : String) : (u, password) ∉ doc.credentials := by
  intro hmem
  rcases List.mem_cons.mp hmem with heq | hmem
  · exact hu (congrArg Prod.fst heq)
  · obtain ⟨e, he, heq⟩ := List.mem_map.mp hmem
    obtain ⟨hcl, hen⟩ := List.mem_filter.mp he
    cases heq
    have hfnd := doc.sorted.mem_iff_find.mp hcl
    rw [h e.2 hfnd] at hen
    cases hen

/-- A plan to disable a client changes the document to one where it is
disabled, and one that finds nothing to do finds it disabled. -/
theorem setEnabled_false {p : Plan} (h : setEnabled doc u false = .ok p) {c : Client}
    (hfnd : find (p.change.getD doc).clients u = some c) : c.enabled = false := by
  unfold setEnabled existing at h
  cases hu : find doc.clients u with
  | none =>
    rw [hu] at h
    cases h
  | some before =>
    simp only [hu, bind, Except.bind] at h
    split at h
    next hsm =>
      cases h
      rw [Option.getD_none, hu] at hfnd
      cases hfnd
      exact hsm
    · cases h
      rw [Option.getD_some, Document.setClient, find_putSorted, if_pos rfl] at hfnd
      cases hfnd
      rfl

/-- After a plan to delete a client there is none. -/
theorem deleteClient_find (doc : Document) (u : String) :
    find ((deleteClient doc u).change.getD doc).clients u = none := by
  unfold deleteClient
  split
  · exact (find_erase doc.clients u u).trans (if_pos rfl)
  next hn => exact Option.not_isSome_iff_eq_none.mp hn

/-- **A success of a disabling or deleting call means that the client is not
accepted**, by the document of the manager it leaves. -/
theorem call_ok_gone {c : Call} (h : call sha256 cfg m c now w = (m', .ok reply))
    (hc : c = .setEnabled u false ∨ c = .delete u) (cl : Client)
    (hfnd : find m'.doc.clients u = some cl) : cl.enabled = false := by
  obtain ⟨p, hp, hcls⟩ : ∃ p, plan sha256 m.doc c = .ok p
      ∧ m'.doc.clients = (p.change.getD m.doc).clients := by
    rcases call_ok h with ⟨ans, hp, rfl⟩ | ⟨doc, ans, hp, hmut⟩
    · exact ⟨_, hp, rfl⟩
    · exact ⟨_, hp, (congrArg Document.clients (mutated_ok hmut).1).trans rfl⟩
  rw [hcls] at hfnd
  rcases hc with rfl | rfl
  · exact setEnabled_false hp hfnd
  · cases hp
    rw [deleteClient_find] at hfnd
    cases hfnd

/-- The record of an endpoint that is not stale. -/
theorem endpoint_of_not_stale (h : m.stale = false) :
    (∀ edition, m.endpoint = some edition → edition = m.edition) ∨ m.restartAt.isSome := by
  cases hr : m.restartAt with
  | some at_ => exact .inr rfl
  | none =>
    refine .inl fun edition hend => ?_
    by_contra hne
    simp [Manager.stale, hr, hend, hne] at h

/-- **A success is true, in every run and after any failures, where what came
before it is made good**: the state file and the settings files are those of
the document in memory, the endpoint runs on them or will be restarted, and a
client disabled or deleted by the call is not accepted. -/
theorem success_true_of_madeGood (sha256 : String → String) (cfg : Config)
    {disk : Disk} {token : String} {start : Int} {w₀ : Writes} {env : Surroundings} {m₀ : Manager}
    (hboot : bootstrap cfg disk token start w₀ env = some m₀)
    {es : List Event} {m : Manager} (hrun : Run.exec (step sha256 cfg) m₀ es = some m)
    {c : Call} {now : Int} {w : Writes} {m' : Manager} {reply : Reply}
    (hgood : MadeGood sha256 cfg m (.call c now w))
    (hcall : call sha256 cfg m c now w = (m', .ok reply)) :
    Written cfg m' ∧ ∀ u, c = .setEnabled u false ∨ c = .delete u → u ≠ placeholderUsername →
      ∀ password, (u, password) ∉ m'.doc.credentials := by
  have hsound : Sound cfg m :=
    Run.invariant (fun _ _ _ h hstep => sound_step h hstep) hrun (sound_bootstrap hboot)
  refine ⟨?_, fun u hc hu => not_mem_credentials hu (call_ok_gone hcall hc)⟩
  rcases call_ok hcall with ⟨answer, hplan, rfl⟩ | ⟨doc, answer, hplan, hmut⟩
  · simp only [MadeGood, hplan] at hgood
    obtain ⟨hsaved, hwritten, hstale⟩ := hgood
    exact ⟨hsound.state hsaved, hsound.settings hwritten, endpoint_of_not_stale hstale⟩
  · simp only [MadeGood, hplan] at hgood
    obtain ⟨_, hstate, hsettings, hkept⟩ := mutated_ok hmut
    refine ⟨hstate, hsettings, endpoint_of_not_stale (Bool.eq_false_iff.mpr fun hstale => ?_)⟩
    -- a stale endpoint was stale before, and no file was left to write
    obtain ⟨hbefore, hall⟩ := hkept hstale
    rcases hgood with hfresh | ⟨f, hf, hdiffers⟩
    · exact Bool.eq_false_iff.mp hfresh hbefore
    · exact hdiffers (hall f hf)

/-- **What no failure is recorded of is on disk**, in every run. -/
theorem disk_follows (sha256 : String → String) (cfg : Config) {disk : Disk} {token : String}
    {start : Int} {w₀ : Writes} {env : Surroundings} {m₀ m : Manager} {es : List Event}
    (hboot : bootstrap cfg disk token start w₀ env = some m₀)
    (hrun : Run.exec (step sha256 cfg) m₀ es = some m) :
    (m.unsaved = false → m.disk.state.map Document.stored = some m.doc.stored)
      ∧ (m.unwritten = false → ∀ f, m.disk.settings f = some (text cfg m.doc f)) := by
  have h : Sound cfg m := Run.invariant (fun _ _ _ => sound_step) hrun (sound_bootstrap hboot)
  exact ⟨h.state, h.settings⟩

/-! ## A run where it is true, and one where it is not -/

def sampleConfig : Config :=
  ⟨"gate.example.com", "127.0.0.1:4453", "127.0.0.1:1987", "/c.pem", "/k.pem",
    "/s/credentials.toml", 2000, 5000⟩

/-- The certificate is there, and the endpoint starts. -/
def calm : Surroundings := ⟨true, true, none, (.done, .done)⟩

/-- The settings files cannot be written. -/
def lostSettings : Writes := ⟨.done, fun _ => .lost⟩

def createAlice : Call :=
  .create [("operation_id", .text "op-1"), ("username", .text "alice"),
    ("password", .text "correct-horse")]

def disableAlice : Call := .setEnabled "alice" false

/-- A run of a manager that comes up on an empty disk. -/
def sampleRun (es : List Event) : Option Manager :=
  (bootstrap sampleConfig ⟨none, fun _ => none⟩ "idle-token" 0 .done calm).bind fun m =>
    Run.exec (step id sampleConfig) m es

/-- Created and disabled, with every write succeeding. -/
theorem success_true_disableAlice :
    ∃ m, sampleRun [.call createAlice 100 .done] = some m
      ∧ Written sampleConfig (call id sampleConfig m disableAlice 200 .done).1
      ∧ ∀ password, ("alice", password)
        ∉ (call id sampleConfig m disableAlice 200 .done).1.doc.credentials := by
  have hmap : (sampleRun [.call createAlice 100 .done]).map (fun m =>
      ((call id sampleConfig m disableAlice 200 .done).2,
        decide (MadeGood id sampleConfig m (.call disableAlice 200 .done))))
      = some (.ok (.client (some ⟨"alice", false, 2, 0, 0, 0⟩)), true) := by
    decide +kernel
  obtain ⟨m, hrun, hout⟩ := Option.map_eq_some_iff.mp hmap
  obtain ⟨m₀, hboot, hexec⟩ := Option.bind_eq_some_iff.mp hrun
  obtain ⟨hreply, hgood⟩ := Prod.mk.injEq .. ▸ hout
  obtain ⟨hwritten, hgone⟩ := success_true_of_madeGood id sampleConfig hboot hexec
    (of_decide_eq_true hgood) (Prod.ext rfl hreply)
  exact ⟨m, hrun, hwritten, hgone "alice" (.inl rfl) (by decide)⟩

theorem disk_follows_createAlice : ∃ m, sampleRun [.call createAlice 100 .done] = some m
    ∧ m.unwritten = false ∧ ∀ f, m.disk.settings f = some (text sampleConfig m.doc f) := by
  obtain ⟨m, hrun, hok⟩ := Option.map_eq_some_iff.mp
    (by decide +kernel : (sampleRun [.call createAlice 100 .done]).map (·.unwritten) = some false)
  obtain ⟨_, hboot, hexec⟩ := Option.bind_eq_some_iff.mp hrun
  exact ⟨m, hrun, hok, (disk_follows id sampleConfig hboot hexec).2 hok⟩

/-- **Disabled twice, still accepted.** The first call cannot write
`credentials.toml` and fails. The second finds the client disabled in memory
and succeeds, with the client's password still in the file. -/
theorem disabled_twice_still_accepted :
    ∃ m, sampleRun [.call createAlice 100 .done, .call disableAlice 200 lostSettings] = some m
      ∧ (call id sampleConfig m disableAlice 300 .done).2
        = .ok (.client (some ⟨"alice", false, 2, 0, 0, 0⟩))
      ∧ (call id sampleConfig m disableAlice 300 .done).1.disk.settings .credentials
        = some ("[[client]]\nusername = \"proxy-control-idle\"\npassword = \"idle-token\"\n\n"
          ++ "[[client]]\nusername = \"alice\"\npassword = \"correct-horse\"\n")
      ∧ ¬ Written sampleConfig (call id sampleConfig m disableAlice 300 .done).1 := by
  have hmap : (sampleRun [.call createAlice 100 .done, .call disableAlice 200 lostSettings]).map
      (fun m =>
        ((call id sampleConfig m disableAlice 300 .done).2,
          (call id sampleConfig m disableAlice 300 .done).1.disk.settings .credentials,
          text sampleConfig (call id sampleConfig m disableAlice 300 .done).1.doc .credentials))
      = some (.ok (.client (some ⟨"alice", false, 2, 0, 0, 0⟩)),
          some ("[[client]]\nusername = \"proxy-control-idle\"\npassword = \"idle-token\"\n\n"
            ++ "[[client]]\nusername = \"alice\"\npassword = \"correct-horse\"\n"),
          "[[client]]\nusername = \"proxy-control-idle\"\npassword = \"idle-token\"\n") := by
    decide +kernel
  obtain ⟨m, hrun, hout⟩ := Option.map_eq_some_iff.mp hmap
  obtain ⟨hreply, hdisk, htext⟩ : _ ∧ _ ∧ _ := by
    simpa only [Prod.mk.injEq] using hout
  refine ⟨m, hrun, hreply, hdisk, fun hwritten => ?_⟩
  have hsame := hwritten.settings .credentials
  rw [hdisk, htext] at hsame
  exact absurd hsame (by decide)

end TrustTunnel
