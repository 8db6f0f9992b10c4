import ProxyControl.Geodata

/-!
# When the lists are checked

With `auto_update` on, the manager asks again and again whether a check of the lists
is due. An update restarts the router and drops its connections, so a daily or longer
interval is bent towards the night: the next check waits for the update hour, the
first that is not over an hour before the interval is. An hour that passed unused –
the host was down – moves to the next day's.

`next_check` finds this anew for every question, and `due` reads the clock once more
after it. Both bounds hold nevertheless (`checks_keep_to_their_hour`): a check is due
in the update hour only, and not before the interval less an hour; and where the
question comes in every update hour, the answer is yes within a day after the
interval. Times are rational numbers, in seconds.
-/

namespace Geodata

/-- The remainder that is not negative. -/
def remEuclid (x y : ℚ) : ℚ := x - y * ⌊x / y⌋

/-- The beginning of the first update hour that is not over at this moment. -/
def window (hour : Int) (moment : ℚ) : ℚ :=
  let start := moment - remEuclid moment 86400 + hour * 3600
  if moment < start + 3600 then start else start + 86400

/-- When the next automatic check may run. -/
def Settings.nextCheck (settings : Settings) (lastCheckAt : Option ℚ) (now : ℚ) : Option ℚ :=
  if ! settings.autoUpdate ∨ settings.source = .xray then none
  else
    match lastCheckAt.filter (· ≠ 0) with
    | none => some now
    | some last =>
      let hours := if settings.intervalHours = 0 then 24 else settings.intervalHours
      let interval : ℚ := hours * 3600
      match settings.updateHour with
      | none => some (last + interval)
      | some hour =>
        if interval < 86400 then some (last + interval)
        else
          let earliest := last + interval - 3600
          let start := window hour earliest
          some (max (if start + 3600 ≤ now then window hour now else start) earliest)

/-- `due`, with the two readings of the clock. -/
def Settings.due (settings : Settings) (lastCheckAt : Option ℚ) (first second : ℚ) : Bool :=
  (settings.nextCheck lastCheckAt first).any (· ≤ second)

/-- Automatic checks at an hour, daily or less often. -/
structure Settings.Daily (settings : Settings) (hour : Int) : Prop where
  auto : settings.autoUpdate = true
  source : settings.source ≠ .xray
  interval : 24 ≤ settings.intervalHours ∧ settings.intervalHours ≤ 336
  updateHour : settings.updateHour = some hour
  hour : 0 ≤ hour ∧ hour ≤ 23

/-- The beginning of the hour on a day, in UTC. -/
def opening (hour day : Int) : ℚ := 86400 * day + 3600 * hour

def InHour (hour day : Int) (moment : ℚ) : Prop :=
  opening hour day ≤ moment ∧ moment < opening hour day + 3600

variable {hour day : Int} {moment t : ℚ} {settings : Settings}

/-- The window opens on some day, is not over, and that of the day before was. -/
theorem window_spec (h : 0 ≤ hour ∧ hour ≤ 23) (moment : ℚ) :
    ∃ day, window hour moment = opening hour day ∧ moment < opening hour day + 3600
      ∧ opening hour day + 3600 ≤ moment + 86400 := by
  have hlo : (⌊moment / 86400⌋ : ℚ) ≤ moment / 86400 := Int.floor_le _
  have hhi : moment / 86400 < ⌊moment / 86400⌋ + 1 := Int.lt_floor_add_one _
  have hhour₀ : (0 : ℚ) ≤ hour := by exact_mod_cast h.1
  have hhour₁ : (hour : ℚ) ≤ 23 := by exact_mod_cast h.2
  unfold window remEuclid opening
  dsimp only
  split
  · exact ⟨⌊moment / 86400⌋, by ring, by linarith, by linarith⟩
  · refine ⟨⌊moment / 86400⌋ + 1, ?_, ?_, ?_⟩
    all_goals push_cast
    · ring
    · linarith
    · linarith

/-- Inside an hour the window is open. -/
theorem window_le (h : 0 ≤ hour ∧ hour ≤ 23) (hin : InHour hour day moment) :
    window hour moment ≤ moment := by
  obtain ⟨day', heq, -, hbef⟩ := window_spec h moment
  unfold InHour opening at *
  have hlt : (day' : ℚ) < day + 1 := by linarith
  have hle : (day' : ℚ) ≤ day := by exact_mod_cast Int.lt_add_one_iff.mp (by exact_mod_cast hlt)
  linarith

theorem nextCheck_eq (h : settings.Daily hour) (ht : 0 < t) (now : ℚ) :
    let earliest := t + settings.intervalHours * 3600 - 3600
    settings.nextCheck (some t) now = some (max (if window hour earliest + 3600 ≤ now then
      window hour now else window hour earliest) earliest) := by
  obtain ⟨hmin, -⟩ := h.interval
  have hzero : settings.intervalHours ≠ 0 := by omega
  have hlong : (24 : ℚ) ≤ settings.intervalHours := by exact_mod_cast hmin
  have hday : ¬ (settings.intervalHours : ℚ) * 3600 < 86400 := by linarith
  unfold Settings.nextCheck
  rw [if_neg (by simp [h.auto, h.source]), Option.filter_some, if_pos (by simpa using ht.ne')]
  simp only [h.updateHour, if_neg hzero, if_neg hday]

/-- **Automatic checks keep to their hour and do not starve.** The `n`-th question reads
the clock at `2 * n` and at `2 * n + 1`. -/
theorem checks_keep_to_their_hour {settings : Settings} {hour : Int} (h : settings.Daily hour)
    {t : ℚ} (ht : 0 < t) {clock : ℕ → ℚ} (hclock : Monotone clock) :
    (∀ n, settings.due (some t) (clock (2 * n)) (clock (2 * n + 1)) = true →
        ∃ moment, clock (2 * n) ≤ moment ∧ moment ≤ clock (2 * n + 1)
          ∧ (∃ day, InHour hour day moment)
          ∧ t + settings.intervalHours * 3600 - 3600 ≤ moment)
      ∧ ((∀ day, t ≤ opening hour day → ∃ n, InHour hour day (clock (2 * n))) →
        ∃ n, settings.due (some t) (clock (2 * n)) (clock (2 * n + 1)) = true
          ∧ clock (2 * n) ≤ t + settings.intervalHours * 3600 + 24 * 3600) := by
  have hlong : (24 : ℚ) ≤ settings.intervalHours := by exact_mod_cast h.interval.1
  have hnext := nextCheck_eq h ht
  have hreads (n : ℕ) : clock (2 * n) ≤ clock (2 * n + 1) := hclock (Nat.le_succ _)
  dsimp only at hnext
  generalize hearl : t + (settings.intervalHours : ℚ) * 3600 - 3600 = earliest at *
  obtain ⟨day, heq, hopen, hbef⟩ := window_spec h.hour earliest
  rw [heq] at hnext
  refine ⟨fun n hdue => ?_, fun hasked => ?_⟩
  · unfold Settings.due at hdue
    rw [hnext, Option.any_some, decide_eq_true_iff, max_le_iff] at hdue
    obtain ⟨hstart, hearliest⟩ := hdue
    split at hstart
    · -- The first hour is over, and the one after the first reading counts.
      obtain ⟨day', heq', hopen', -⟩ := window_spec h.hour (clock (2 * n))
      rw [heq'] at hstart
      exact ⟨max (clock (2 * n)) (opening hour day'), le_max_left _ _, max_le (hreads n) hstart,
        ⟨day', le_max_right _ _, max_lt hopen' (by linarith)⟩, le_max_of_le_left (by linarith)⟩
    · refine ⟨max (clock (2 * n)) (max (opening hour day) earliest), le_max_left _ _,
        max_le (hreads n) (max_le hstart hearliest),
        ⟨day, le_max_of_le_right (le_max_left _ _), ?_⟩, le_max_of_le_right (le_max_right _ _)⟩
      exact max_lt (by linarith) (max_lt (by linarith) hopen)
  · have hask {n : ℕ} (hstart : (if opening hour day + 3600 ≤ clock (2 * n) then
          window hour (clock (2 * n)) else opening hour day) ≤ clock (2 * n))
        (hearliest : earliest ≤ clock (2 * n)) :
        settings.due (some t) (clock (2 * n)) (clock (2 * n + 1)) = true := by
      unfold Settings.due
      rw [hnext]
      exact decide_eq_true ((max_le hstart hearliest).trans (hreads n))
    -- The first hour if all of it is late enough, and that of the next day if not.
    rcases le_or_gt earliest (opening hour day) with hafter | hinside
    · obtain ⟨n, hlo, hhi⟩ := hasked day (by linarith)
      refine ⟨n, hask ?_ (hafter.trans hlo), by linarith⟩
      rwa [if_neg hhi.not_ge]
    · have hnextDay : opening hour (day + 1) = opening hour day + 86400 := by
        unfold opening
        push_cast
        ring
      obtain ⟨n, hlo, hhi⟩ := hasked (day + 1) (by linarith)
      refine ⟨n, hask ?_ (by linarith), by linarith⟩
      rw [if_pos (by linarith)]
      exact window_le h.hour ⟨hlo, hhi⟩

namespace Sample

/-- Daily at two. -/
def nightly : Settings := ⟨.loyalsoldier, true, 24, some 2⟩

/-- A clock that is read every half hour. -/
def halfHours (n : ℕ) : ℚ := 1800 * n

theorem checks_keep_to_two :
    ∃ n, nightly.due (some 9000) (halfHours (2 * n)) (halfHours (2 * n + 1)) = true
      ∧ halfHours (2 * n) ≤ 9000 + 24 * 3600 + 24 * 3600 := by
  have hclock : Monotone halfHours := fun m n hmn => by
    unfold halfHours
    gcongr
  have hdaily : nightly.Daily 2 := ⟨rfl, nofun, by decide, rfl, by decide⟩
  refine (checks_keep_to_their_hour hdaily (by norm_num) hclock).2 fun day hday => ?_
  have hpos : 0 < day := by
    unfold opening at hday
    exact_mod_cast (by push_cast at hday; linarith : (0 : ℚ) < day)
  have hnat : ((24 * day + 2).toNat : ℤ) = 24 * day + 2 := Int.toNat_of_nonneg (by omega)
  have hcast : ((24 * day + 2).toNat : ℚ) = 24 * day + 2 := by exact_mod_cast hnat
  refine ⟨(24 * day + 2).toNat, ?_⟩
  unfold InHour halfHours opening
  push_cast
  rw [hcast]
  constructor <;> linarith

end Sample

end Geodata
