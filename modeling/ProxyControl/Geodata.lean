import ProxyControl.Run
import ProxyControl.Table

/-!
# The router's geodata

The Xray-router manager keeps two lists, `geosite.dat` and `geoip.dat`, and a
`meta.json` that says what they are and how the operator wants them updated. An
update downloads a pair under temporary names, tests the running configuration
in a directory of links to it, and renames both files into place. A restore
does the same with the pair the installer pinned.

Two readings of the code stand side by side. As *calls*, one after another –
the lock `geodata_busy` sees to that –, an update should be a transaction:
`calls_transactional`. As *threads*, each of which reads the whole of
`meta.json`, changes a part and writes all of it back, none should undo
another's part: `settings_kept`. Both hold under conditions only. Most failures
after the download leave something behind, and `geodata_settings` takes no lock,
so a copy of `meta.json` may be old when it is written – the more so in an
update, which keeps its copy across the download.
-/

namespace Geodata

open Table

/-! ## The files -/

inductive Source
  | xray
  | loyalsoldier
  | runetfreedom
  | iran
  | v2fly
  | custom (geosite geoip : String)
deriving DecidableEq, Repr

/-- What the operator chooses. -/
structure Settings where
  source : Source
  autoUpdate : Bool
  intervalHours : Int
  updateHour : Option Int
deriving DecidableEq, Repr

inductive Origin
  | seed
  | download
deriving DecidableEq, Repr

/-- What `meta.json` says of the pair: its origin, its version, and the digest
of each file. -/
structure Installed where
  origin : Origin
  version : Option String
  digests : String × String
deriving DecidableEq, Repr

structure Meta where
  settings : Settings
  installed : Installed
  updatedAt : Option Int
  lastCheckAt : Option Int
  lastError : Option String
deriving DecidableEq, Repr

variable {Data : Type} (sha256 : Data → String)

/-- A file, with the number of the download – or of the seed – it is of. -/
structure File (Data : Type) where
  batch : Nat
  origin : Origin
  version : Option String
  data : Data
deriving DecidableEq, Repr

inductive Name
  | geosite
  | geoip
deriving DecidableEq, Repr

/-- The two live files. -/
structure Pair (Data : Type) where
  geosite : File Data
  geoip : File Data
deriving DecidableEq, Repr

/-- **Both files are of one download**, or of the seed. -/
def Pair.Whole (pair : Pair Data) : Prop := pair.geosite.batch = pair.geoip.batch

/-- What one download brings, or the seed. -/
structure Batch (Data : Type) where
  batch : Nat
  origin : Origin
  geosite : Option String × Data
  geoip : Option String × Data
deriving DecidableEq, Repr

def Batch.pair (b : Batch Data) : Pair Data :=
  ⟨⟨b.batch, b.origin, b.geosite.1, b.geosite.2⟩, ⟨b.batch, b.origin, b.geoip.1, b.geoip.2⟩⟩

def Pair.digests (pair : Pair Data) : String × String :=
  (sha256 pair.geosite.data, sha256 pair.geoip.data)

/-- The first of the versions the publisher gave. -/
def Pair.version (pair : Pair Data) : Option String :=
  (([pair.geosite.version, pair.geoip.version].filterMap id).filter (· ≠ "")).insertionSort (· ≤ ·) |>.head?

def Pair.installed (pair : Pair Data) : Installed :=
  ⟨pair.geosite.origin, pair.version, pair.digests sha256⟩

/-! ## Changes of `meta.json` -/

inductive Error
  | geodata (message code : String)
  | conflict (message code : String)
  | internal (message : String)
  /-- `start_generation`, after the lists were installed. -/
  | restart (message : String)
deriving DecidableEq, Repr

/-- The body of `geodata_settings`: what is not given stays. -/
structure Change where
  source : Option Source
  autoUpdate : Option Bool
  intervalHours : Option Int
  updateHour : Option (Option Int)
deriving DecidableEq, Repr

/-- `parse_hour`. -/
def validHour (hour : Option Int) : Bool := hour.all fun h => decide (0 ≤ h ∧ h ≤ 23)

/-- `parse_interval`. -/
def validInterval (hours : Int) : Bool := decide (1 ≤ hours ∧ hours ≤ 24 * 14)

def Change.over (change : Change) (settings : Settings) : Settings :=
  ⟨change.source.getD settings.source, change.autoUpdate.getD settings.autoUpdate,
    change.intervalHours.getD settings.intervalHours, change.updateHour.getD settings.updateHour⟩

/-- `settings`, between its read and its write. -/
def Change.apply (change : Change) (settings : Settings) : Except Error Settings :=
  if ! change.updateHour.all validHour then
    .error (.geodata "update_hour must be 0..23 (UTC) or null" "geodata_invalid")
  else if ! change.intervalHours.all validInterval then
    .error (.geodata "interval_hours must be 1..336" "geodata_invalid")
  else .ok (change.over settings)

/-- What a restore sets. -/
def Settings.pinned (settings : Settings) : Settings :=
  { settings with source := .xray, autoUpdate := false }

/-- The source serves what is there. -/
def Meta.checked (m : Meta) (now : Int) : Meta :=
  { m with lastCheckAt := some now, lastError := none }

def firstChars (text : String) (n : Nat) : String := String.ofList (text.toList.take n)

/-- `record_failure`. -/
def Meta.failed (m : Meta) (now : Int) (message code : String) : Meta :=
  { m with lastCheckAt := some now, lastError := some (firstChars (code ++ ": " ++ message) 300) }

/-- `commit`, once the files are in place. -/
def Meta.committed (m : Meta) (now : Int) (live : Pair Data) : Meta :=
  { m with
    installed := live.installed sha256, updatedAt := some now, lastCheckAt := some now
    lastError := none }

/-! ## Calls -/

/-- The step of a call that fails. -/
inductive Fault
  /-- A download, or the check of its digest. -/
  | download (message code : String)
  /-- A temporary file, which cannot be created or – `left` – not be written. -/
  | create (name : Name) (left : Bool) (message : String)
  | testDir (message : String)
  | link (name : Name) (message : String)
  /-- The test: Xray refuses the lists, or it does not run. -/
  | test (refused : Bool) (message : String)
  | rename (name : Name) (message : String)
  | restart (message : String)
deriving DecidableEq, Repr

/-- **The geodata directory.** -/
structure Store (Data : Type) where
  live : Pair Data
  staged : List (File Data)
  testDirs : List (List (File Data))
  metaJson : Meta
deriving DecidableEq, Repr

/-- The pair under temporary names. -/
def Store.stage (s : Store Data) (pair : Pair Data) (fault : Option Fault) :
    Store Data × Except Error Unit :=
  match fault with
  | some (.create .geosite left message) =>
    ({ s with staged := s.staged ++ if left then [pair.geosite] else [] },
      .error (.internal message))
  | some (.create .geoip left message) =>
    ({ s with staged := s.staged ++ pair.geosite :: if left then [pair.geoip] else [] },
      .error (.internal message))
  | _ => ({ s with staged := s.staged ++ [pair.geosite, pair.geoip] }, .ok ())

def Store.recordFailure (s : Store Data) (now : Int) (message code : String) : Store Data :=
  { s with metaJson := s.metaJson.failed now message code }

/-- `install_geodata`, where `before` was staged before the call. -/
def Store.install (s : Store Data) (before : List (File Data)) (pair : Pair Data) (now : Int)
    (fault : Option Fault) : Store Data × Except Error Bool :=
  let installed := { s with
    live := pair, staged := before, metaJson := s.metaJson.committed sha256 now pair }
  match fault with
  | some (.testDir message) => (s, .error (.internal message))
  | some (.link name message) =>
    ({ s with testDirs := s.testDirs ++ [if name = .geosite then [] else [pair.geosite]] },
      .error (.internal message))
  | some (.test true message) =>
    let text := firstChars
      ("the running config does not compile against the new lists: " ++ message) 300
    (s.recordFailure now text "geodata_rejected", .error (.geodata text "geodata_rejected"))
  | some (.test false message) => (s, .error (.internal message))
  | some (.rename name message) =>
    let text := firstChars ("could not install the lists: " ++ message) 300
    -- The first file is in place when the second cannot be renamed.
    let live := if name = .geosite then s.live else { s.live with geosite := pair.geosite }
    ({ s with live, staged := before }.recordFailure now text "geodata_install_failed",
      .error (.geodata text "geodata_install_failed"))
  | some (.restart message) =>
    let text := firstChars ("lists installed, the router did not restart: " ++ message) 300
    (installed.recordFailure now text "geodata_restart_failed", .error (.restart message))
  | _ => (installed, .ok true)

/-- The files are staged and installed. -/
def Store.place (s : Store Data) (pair : Pair Data) (now : Int) (fault : Option Fault) :
    Store Data × Except Error Bool :=
  match s.stage pair fault with
  | (s', .error e) => (s', .error e)
  | (s', .ok ()) => s'.install sha256 s.staged pair now fault

/-- `geodata_update`, by hand or by the clock; the answer is `changed`. -/
def Store.update (s : Store Data) (batch : Batch Data) (now : Int) (fault : Option Fault) :
    Store Data × Except Error Bool :=
  if s.metaJson.settings.source = .xray then (s, .ok false)
  else
    match fault with
    | some (.download message code) =>
      (s.recordFailure now message code, .error (.geodata message code))
    | fault =>
      if batch.pair.digests sha256 = s.live.digests sha256 then
        ({ s with metaJson := s.metaJson.checked now }, .ok false)
      else s.place sha256 batch.pair now fault

def Store.pin (s : Store Data) : Store Data :=
  { s with metaJson := { s.metaJson with settings := s.metaJson.settings.pinned } }

/-- `geodata_restore`: the settings are the first thing it writes. -/
def Store.restore (s : Store Data) (seed : Batch Data) (now : Int) (fault : Option Fault) :
    Store Data × Except Error Bool :=
  s.pin.place sha256 seed.pair now fault

inductive Call (Data : Type)
  | update (batch : Batch Data) (now : Int) (fault : Option Fault)
  | restore (seed : Batch Data) (now : Int) (fault : Option Fault)
  /-- Either of them, while another one runs. -/
  | busy
deriving DecidableEq, Repr

def Store.call (s : Store Data) : Call Data → Store Data × Except Error Bool
  | .update batch now fault => s.update sha256 batch now fault
  | .restore seed now fault => s.restore sha256 seed now fault
  | .busy => (s, .error (.conflict "a geodata update is already running" "geodata_busy"))

def Store.step (s : Store Data) (c : Call Data) : Option (Store Data) := some (s.call sha256 c).1

/-! ## Calls are transactions -/

/-- Nothing of an earlier call is left, and the pair is of one piece. -/
def Store.Tidy (s : Store Data) : Prop := s.staged = [] ∧ s.testDirs = [] ∧ s.live.Whole

/-- **No step fails that leaves something behind.** An update may fail in its
download, in creating its first file and in the first rename; a restore, which
has written the settings by then, only where they were these already. -/
def Call.Clean (s : Store Data) : Call Data → Prop
  | .update _ _ fault => match fault with
    | none | some (.download ..) | some (.create .geosite false _) | some (.rename .geosite _)
    | some (.restart _) => True
    | _ => False
  | .restore _ _ fault => match fault with
    | none | some (.restart _) => True
    | some (.create .geosite false _) | some (.rename .geosite _) =>
      s.metaJson.settings.pinned = s.metaJson.settings
    | _ => False
  | .busy => True

/-- **What is asked of a call** in a store: nothing is left, the pair is of one
piece, and an error – but for that of the restart – leaves the files and the
settings as they were. -/
def Store.Kept (s : Store Data) (result : Store Data × Except Error Bool) : Prop :=
  result.1.Tidy ∧ ∀ e, result.2 = .error e → (∀ message, e ≠ .restart message) →
    result.1.live = s.live ∧ result.1.metaJson.settings = s.metaJson.settings

variable {sha256} {s : Store Data} {fault : Option Fault} {t : Store Data} {b : Batch Data}

theorem kept_of_ok {changed : Bool} (h : t.Tidy) : s.Kept (t, .ok changed) :=
  ⟨h, nofun⟩

theorem kept_of_same {ans : Except Error Bool} (h : t.Tidy) (hlive : t.live = s.live)
    (hset : t.metaJson.settings = s.metaJson.settings) : s.Kept (t, ans) :=
  ⟨h, fun _ _ _ => ⟨hlive, hset⟩⟩

/-- What gets as far as the restart has installed a whole pair. -/
theorem kept_placed (h : t.Tidy) (b : Batch Data) (now : Int)
    (hfault : fault = none ∨ ∃ m, fault = some (.restart m)) :
    s.Kept (t.place sha256 b.pair now fault) := by
  obtain ⟨hstag, htests, -⟩ := h
  rcases hfault with rfl | ⟨m, rfl⟩
  · exact kept_of_ok ⟨hstag, htests, rfl⟩
  · exact ⟨⟨hstag, htests, rfl⟩, fun e he hr => absurd (Except.error.inj he).symm (hr m)⟩

/-- One that does not create its first file, or not rename it, leaves none of it. -/
theorem kept_unplaced (h : t.Tidy) (hlive : t.live = s.live)
    (hset : t.metaJson.settings = s.metaJson.settings) {now : Int} {m : String}
    (hfault : fault = some (.create .geosite false m) ∨ fault = some (.rename .geosite m)) :
    s.Kept (t.place sha256 b.pair now fault) := by
  obtain ⟨hstag, htests, hwh⟩ := h
  rcases hfault with rfl | rfl
  · refine kept_of_same ⟨?_, htests, hwh⟩ hlive hset
    show t.staged ++ [] = []
    rw [hstag, List.append_nil]
  · exact kept_of_same ⟨hstag, htests, hwh⟩ hlive hset

theorem kept_update (h : s.Tidy) {now : Int} (hcln : (Call.update b now fault).Clean s) :
    s.Kept (s.update sha256 b now fault) := by
  unfold Store.update
  split
  · exact kept_of_ok h
  split
  · exact kept_of_same h rfl rfl
  rename_i hdown
  split
  · exact kept_of_ok h
  match fault, hcln, hdown with
  | none, _, _ => exact kept_placed h b now (.inl rfl)
  | some (.restart m), _, _ => exact kept_placed h b now (.inr ⟨m, rfl⟩)
  | some (.download m c), _, hdown => exact absurd rfl (hdown m c)
  | some (.create .geosite false m), _, _ => exact kept_unplaced h rfl rfl (.inl rfl)
  | some (.rename .geosite m), _, _ => exact kept_unplaced h rfl rfl (.inr rfl)

theorem kept_restore (h : s.Tidy) {now : Int} (hcln : (Call.restore b now fault).Clean s) :
    s.Kept (s.restore sha256 b now fault) := by
  have hpin : s.pin.Tidy := h
  match fault, hcln with
  | none, _ => exact kept_placed hpin b now (.inl rfl)
  | some (.restart m), _ => exact kept_placed hpin b now (.inr ⟨m, rfl⟩)
  | some (.create .geosite false m), hset => exact kept_unplaced (s := s) hpin rfl hset (.inl rfl)
  | some (.rename .geosite m), hset => exact kept_unplaced (s := s) hpin rfl hset (.inr rfl)

theorem Call.Clean.kept {c : Call Data} (hcln : c.Clean s) (h : s.Tidy) :
    s.Kept (s.call sha256 c) := by
  cases c with
  | update b now fault => exact kept_update h hcln
  | restore b now fault => exact kept_restore h hcln
  | busy => exact kept_of_same h rfl rfl

/-- **Updates are transactions** in every run of calls none of which meets a
failure that leaves something behind. -/
theorem calls_transactional {calls : List (Call Data)} {t : Store Data} (hs : s.Tidy)
    (hrun : Run.exec (Store.step sha256) s calls = some t)
    (hclean : Run.Meets (Store.step sha256) (fun s c => c.Clean s) s calls) :
    t.Tidy ∧ ∀ c : Call Data, c.Clean t → t.Kept (t.call sha256 c) := by
  have htidy : t.Tidy := Run.invariant_of_meets (I := Store.Tidy)
    (fun s c s' h hc hstep => Option.some.inj hstep ▸ (hc.kept h).1) hrun hclean hs
  exact ⟨htidy, fun c hc => hc.kept htidy⟩

/-! ## Threads -/

/-- Where the thread is that holds `geodata_busy`. A `copy` is what it has read
of `meta.json`. -/
inductive Work (Data : Type)
  /-- An update waits for its download. -/
  | staging (copy : Meta)
  /-- A restore is about to write its settings. -/
  | restoring (copy : Meta)
  | staged (batch : Batch Data)
  /-- `geosite.dat` is renamed. -/
  | renaming (batch : Batch Data)
  | placed (batch : Batch Data)
  | committing (batch : Batch Data) (copy : Meta)
  /-- The call has nothing in hand: it ends, or records a failure first. -/
  | ending
  | failing (message code : String) (copy : Meta)
deriving DecidableEq, Repr

/-- A file is renamed that `meta.json` does not describe yet. -/
def Work.underway : Work Data → Bool
  | .renaming _ | .placed _ | .committing .. => true
  | _ => false

/-- **The manager's threads**: the one that updates, and the callers of
`geodata_settings`, each with what it asks for and the copy it has read. -/
structure Manager (Data : Type) where
  metaJson : Meta
  live : Pair Data
  work : Option (Work Data)
  callers : List (Nat × Change × Meta)
  /-- What the calls that returned have set. -/
  asked : Settings
deriving DecidableEq, Repr

inductive Event (Data : Type)
  /-- `geodata_settings` reads. -/
  | settings (caller : Nat) (change : Change)
  /-- It writes, and returns. -/
  | settled (caller : Nat)
  /-- It cannot write, and returns the error. -/
  | unsettled (caller : Nat)
  | update
  | restore
  /-- The download is there. -/
  | downloaded (batch : Batch Data) (now : Int)
  /-- A restore's settings are written, and the seed is staged. -/
  | restored (seed : Batch Data)
  /-- A file is renamed, `geosite.dat` first. -/
  | rename (name : Name)
  /-- `commit` reads. -/
  | read
  | commit (now : Int)
  /-- What the call does next has failed. -/
  | abandon
  /-- `record_failure` reads. -/
  | fail (message code : String)
  | failed (now : Int)
  /-- The call returns, and gives up the lock. -/
  | done
deriving DecidableEq, Repr

variable (sha256) in
def Manager.step (s : Manager Data) : Event Data → Option (Manager Data)
  | .settings caller change =>
    if (find s.callers caller).isNone then
      some { s with callers := put s.callers caller (change, s.metaJson) }
    else none
  | .settled caller =>
    match find s.callers caller with
    | none => none
    | some (change, copy) =>
      let s := { s with callers := erase s.callers caller }
      match change.apply copy.settings with
      | .error _ => some s
      | .ok settings =>
        some { s with metaJson := { copy with settings }, asked := change.over s.asked }
  | .unsettled caller => some { s with callers := erase s.callers caller }
  | .update =>
    if s.work.isNone then
      some { s with work :=
        if s.metaJson.settings.source = .xray then none else some (.staging s.metaJson) }
    else none
  | .restore =>
    if s.work.isNone then some { s with work := some (.restoring s.metaJson) } else none
  | .downloaded batch now =>
    match s.work with
    | some (.staging copy) =>
      if batch.pair.digests sha256 = s.live.digests sha256 then
        some { s with metaJson := copy.checked now, work := none }
      else some { s with work := some (.staged batch) }
    | _ => none
  | .restored seed =>
    match s.work with
    | some (.restoring copy) =>
      some { s with
        metaJson := { copy with settings := copy.settings.pinned }
        asked := s.asked.pinned, work := some (.staged seed) }
    | _ => none
  | .rename .geosite =>
    match s.work with
    | some (.staged batch) => some { s with
        live := { s.live with geosite := batch.pair.geosite }, work := some (.renaming batch) }
    | _ => none
  | .rename .geoip =>
    match s.work with
    | some (.renaming batch) => some { s with
        live := { s.live with geoip := batch.pair.geoip }, work := some (.placed batch) }
    | _ => none
  | .read =>
    match s.work with
    | some (.placed batch) => some { s with work := some (.committing batch s.metaJson) }
    | _ => none
  | .commit now =>
    match s.work with
    | some (.committing batch copy) =>
      some { s with metaJson := copy.committed sha256 now batch.pair, work := some .ending }
    | _ => none
  | .abandon => if s.work.isSome then some { s with work := some .ending } else none
  | .fail message code =>
    match s.work with
    | some .ending => some { s with work := some (.failing message code s.metaJson) }
    | _ => none
  | .failed now =>
    match s.work with
    | some (.failing message code copy) =>
      some { s with metaJson := copy.failed now message code, work := some .ending }
    | _ => none
  | .done =>
    match s.work with
    | some .ending => some { s with work := none }
    | _ => none

/-- **The copy that is written is not old**: since it was read nobody has
written another `meta.json`. And what has renamed a file does not fail before
`meta.json` is written. -/
def Manager.Current (s : Manager Data) : Event Data → Prop
  | .settled caller => ∀ e, find s.callers caller = some e → e.2 = s.metaJson
  | .downloaded _ _ => ∀ copy, s.work = some (.staging copy) → copy = s.metaJson
  | .restored _ => ∀ copy, s.work = some (.restoring copy) → copy = s.metaJson
  | .commit _ => ∀ batch copy, s.work = some (.committing batch copy) → copy = s.metaJson
  | .failed _ => ∀ m c copy, s.work = some (.failing m c copy) → copy = s.metaJson
  | .abandon => ∀ work, s.work = some work → work.underway = false
  | _ => True

/-- `meta.json` describes the pair – or is about to, and the files renamed so far
are those of the batch. -/
def Manager.Described (sha256 : Data → String) (s : Manager Data) : Prop :=
  match s.work with
  | some (.renaming batch) => s.live.geosite = batch.pair.geosite
  | some (.placed batch) | some (.committing batch _) => s.live = batch.pair
  | _ => s.metaJson.installed = s.live.installed sha256

/-- **What is asked of the threads**: the settings are those asked for, and
`meta.json` describes the pair. -/
def Manager.Told (sha256 : Data → String) (s : Manager Data) : Prop :=
  s.metaJson.settings = s.asked ∧ s.Described sha256

theorem Manager.Described.installed {s : Manager Data} (h : s.Described sha256)
    (hwork : ∀ work, s.work = some work → work.underway = false) :
    s.metaJson.installed = s.live.installed sha256 := by
  unfold Manager.Described at h
  split at h <;> simp_all [Work.underway]

theorem Change.eq_over {change : Change} {settings settings' : Settings}
    (h : change.apply settings = .ok settings') : settings' = change.over settings := by
  unfold Change.apply at h
  split at h
  · cases h
  split at h
  · cases h
  · exact (Except.ok.inj h).symm

/-- A write of a copy that is not old changes the part it is for. -/
theorem Manager.Told.step {s s' : Manager Data} {e : Event Data} (h : s.Told sha256)
    (hcur : s.Current e) (hstep : s.step sha256 e = some s') : s'.Told sha256 := by
  obtain ⟨hasked, hpair⟩ := h
  have hinst := hpair.installed
  unfold Manager.Described at hpair
  unfold Manager.step at hstep
  cases e with
  | settings caller change =>
    obtain ⟨-, hs⟩ := Option.ite_none_right_eq_some.mp hstep
    exact Option.some.inj hs ▸ ⟨hasked, hpair⟩
  | settled caller =>
    dsimp only at hstep
    split at hstep
    · cases hstep
    rename_i change copy hf
    obtain rfl := hcur _ hf
    split at hstep
    · exact Option.some.inj hstep ▸ ⟨hasked, hpair⟩
    rename_i settings happly
    obtain rfl := Change.eq_over happly
    exact Option.some.inj hstep ▸ ⟨congrArg change.over hasked, hpair⟩
  | update =>
    obtain ⟨hwork, hs⟩ := Option.ite_none_right_eq_some.mp hstep
    rw [Option.isNone_iff_eq_none.mp hwork] at hpair
    obtain rfl := Option.some.inj hs
    refine ⟨hasked, ?_⟩
    split_ifs <;> exact hpair
  | restore =>
    obtain ⟨hwork, hs⟩ := Option.ite_none_right_eq_some.mp hstep
    rw [Option.isNone_iff_eq_none.mp hwork] at hpair
    exact Option.some.inj hs ▸ ⟨hasked, hpair⟩
  | downloaded batch now =>
    dsimp only at hstep
    split at hstep
    next copy hwork =>
      obtain rfl := hcur _ hwork
      rw [hwork] at hpair
      split at hstep <;> exact Option.some.inj hstep ▸ ⟨hasked, hpair⟩
    · cases hstep
  | restored seed =>
    dsimp only at hstep
    split at hstep <;> cases hstep
    rename_i copy hwork
    obtain rfl := hcur _ hwork
    rw [hwork] at hpair
    exact ⟨congrArg Settings.pinned hasked, hpair⟩
  | commit now =>
    dsimp only at hstep
    split at hstep <;> cases hstep
    rename_i batch copy hwork
    obtain rfl := hcur _ _ hwork
    rw [hwork] at hpair
    exact ⟨hasked, congrArg (Pair.installed sha256) hpair.symm⟩
  | failed now =>
    dsimp only at hstep
    split at hstep <;> cases hstep
    rename_i msg code copy hwork
    obtain rfl := hcur _ _ _ hwork
    rw [hwork] at hpair
    exact ⟨hasked, hpair⟩
  | unsettled caller => exact Option.some.inj hstep ▸ ⟨hasked, hpair⟩
  | rename name =>
    cases name with
    | geosite =>
      dsimp only at hstep
      split at hstep <;> cases hstep
      exact ⟨hasked, rfl⟩
    | geoip =>
      dsimp only at hstep
      split at hstep <;> cases hstep
      rename_i batch hwork
      rw [hwork] at hpair
      exact ⟨hasked, congrArg (Pair.mk · batch.pair.geoip) hpair⟩
  | abandon =>
    obtain ⟨-, hs⟩ := Option.ite_none_right_eq_some.mp hstep
    exact Option.some.inj hs ▸ ⟨hasked, hinst hcur⟩
  | read | fail | done =>
    dsimp only at hstep
    split at hstep <;> cases hstep
    all_goals
      rename_i hwork
      rw [hwork] at hpair
      exact ⟨hasked, hpair⟩

/-- **Settings are kept, and the pair is described**, in every interleaving in
which no copy of `meta.json` is old when it is written and no call fails between
its first rename and that write. -/
theorem settings_kept {s t : Manager Data} {events : List (Event Data)} (hs : s.Told sha256)
    (hrun : Run.exec (Manager.step sha256) s events = some t)
    (hcurrent : Run.Meets (Manager.step sha256) Manager.Current s events) :
    t.metaJson.settings = t.asked
      ∧ (t.work = none → t.metaJson.installed = t.live.installed sha256) := by
  have htold : t.Told sha256 := Run.invariant_of_meets (I := Manager.Told sha256)
    (fun _ _ _ h hok hstep => h.step hok hstep) hrun hcurrent hs
  exact ⟨htold.1, fun hidle => htold.2.installed fun work h => by simp [hidle] at h⟩

namespace Sample

def pinnedMeta : Meta :=
  ⟨⟨.loyalsoldier, true, 24, some 2⟩, ⟨.seed, none, ("a", "b")⟩, none, none, none⟩

def seed : Batch String := ⟨0, .seed, (none, "a"), (none, "b")⟩

def lists : Batch String := ⟨1, .download, (some "v1", "c"), (some "v1", "d")⟩

def store : Store String := ⟨seed.pair, [], [], pinnedMeta⟩

/-- A download that fails, one that is installed, and the seed again. -/
def threeCalls : List (Call String) :=
  [.update lists 5 (some (.download "no route" "geodata_download")), .update lists 9 none,
    .restore seed 12 none]

theorem transactional_three : ∃ t, Run.exec (Store.step id) store threeCalls = some t
    ∧ t.Tidy ∧ t.live = seed.pair ∧ t.metaJson.settings.source = .xray := by
  have hrun : Run.exec (Store.step id) store threeCalls = some _ := rfl
  exact ⟨_, hrun, (calls_transactional (s := store) ⟨rfl, rfl, rfl⟩ hrun
    ⟨trivial, trivial, trivial, trivial⟩).1, rfl, rfl⟩

/-- **What a failure leaves.** Lists that Xray refuses stay under their temporary
names; a second rename that fails leaves two files of two downloads; a restore
that cannot create its first file has changed the settings. -/
theorem failures_leave :
    (store.call id (.update lists 5 (some (.test true "bad")))).1.staged
        = [lists.pair.geosite, lists.pair.geoip]
      ∧ (store.call id (.update lists 5 (some (.rename .geoip "busy")))).1.live
        = ⟨lists.pair.geosite, seed.pair.geoip⟩
      ∧ (store.call id (.restore seed 5 (some (.create .geosite false "full")))).2
        = .error (.internal "full")
      ∧ (store.call id (.restore seed 5 (some (.create .geosite false "full")))).1.metaJson.settings
        ≠ store.metaJson.settings :=
  ⟨rfl, rfl, rfl, by decide⟩

def idle : Manager String := ⟨pinnedMeta, seed.pair, none, [], pinnedMeta.settings⟩

def off : Change := ⟨none, some false, none, none⟩

/-- They are switched off, and an update follows. -/
def inTurn : List (Event String) :=
  [.settings 1 off, .settled 1, .update, .downloaded lists 5, .rename .geosite, .rename .geoip,
    .read, .commit 6, .done]

theorem settings_kept_inTurn : ∃ t, Run.exec (Manager.step id) idle inTurn = some t
    ∧ t.metaJson.settings.autoUpdate = false
    ∧ t.metaJson.installed = lists.pair.installed id := by
  have hrun : Run.exec (Manager.step id) idle inTurn = some _ := rfl
  have htold : idle.Told id := ⟨rfl, rfl⟩
  have hkept := settings_kept htold hrun
    ⟨trivial, fun _ h => Option.some.inj h ▸ rfl, trivial, fun _ h => by cases h; rfl, trivial,
      trivial, trivial, fun _ _ h => by cases h; rfl, trivial, trivial⟩
  exact ⟨_, hrun, congrArg Settings.autoUpdate hkept.1, hkept.2 rfl⟩

/-- A second rename fails, the operator goes back to the pinned pair, and an
update has nothing to do. -/
def halfWay : List (Event String) :=
  [.update, .downloaded lists 5, .rename .geosite, .abandon, .done,
    .settings 1 ⟨some .xray, none, none, none⟩, .settled 1, .update]

/-- **A setting is lost**: an update has read `meta.json`, the operator switches
automatic updates off, and the update finds nothing new and writes its copy. And
with no copy old, `meta.json` does not describe the files of `halfWay`. -/
theorem setting_lost : (∃ t, Run.exec (Manager.step id) idle
      [.update, .settings 1 off, .settled 1, .downloaded seed 5] = some t
    ∧ t.asked.autoUpdate = false ∧ t.metaJson.settings.autoUpdate = true)
    ∧ ∃ t, Run.exec (Manager.step id) idle halfWay = some t
      ∧ t.work = none ∧ t.metaJson.installed ≠ t.live.installed id :=
  ⟨⟨_, rfl, rfl, rfl⟩, _, rfl, rfl, by decide⟩

end Sample

end Geodata
