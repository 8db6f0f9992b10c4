import ProxyControl.NaiveKeeper

/-!
# The NaiveProxy manager's quotas

The bytes a user has used are in the database of the traffic accounting, which
advances by itself; quotas are in the state file. A pass over the users disables
those who have used up their quota, and the calls that enable a user or set a
quota look at the bytes recorded for that user first.

They look, and where the answer is no they refuse: a user who was enabled before
such a call stays so until the next pass. What `quotas_bite` says of these calls
is therefore said of those that succeed.
-/

namespace Naive

/-- What a call meets, where the accounting runs: the bytes recorded for each
user, or – `broken` – the failure of the pass that comes before. -/
structure Meeting where
  now : Int
  token : String
  recorded : List (String × Int)
  broken : Option Error
  drain : Except Error Bool
  archive : Except Error Unit
  ending : Ending

def Meeting.used (meets : Meeting) (username : String) : Int :=
  (Table.find meets.recorded username).getD 0

/-- The accounting, as a call for a user finds it. -/
def Meeting.env (meets : Meeting) (username : String) : Env :=
  ⟨meets.now, meets.token, some ⟨match meets.broken with
    | some e => .error e
    | none => .ok (meets.used username), meets.drain, meets.archive⟩, meets.ending⟩

variable (site : Site)

/-- `enforce_quotas`: a pass over the log, then one over the users. -/
def enforce (m : Manager) (meets : Meeting) : Manager × Except Error Reply :=
  match meets.broken with
  | some e => (m, .error e)
  | none => call site m (meets.env "") (.enforceQuotas meets.recorded)

/-- The row of a user after a call. -/
def rowAfter (result : Manager × Except Error Reply) (username : String) : Option Row :=
  result.1.state.users.find? fun row => row.username = username

variable {site} {m : Manager} {meets : Meeting} {username : String} {s : State}

/-- What the pass makes of a row. -/
def Row.enforced (row : Row) (meets : Meeting) : Row :=
  if row.exhausted meets.recorded then
    { row with enabled := false, disabledReason := some .quota, updatedAt := meets.now }
  else row

theorem Row.exhausted_enforced (row : Row) :
    (row.enforced meets).exhausted meets.recorded = false := by
  unfold Row.enforced
  split
  · rfl
  next h => exact Bool.eq_false_iff.mpr h

/-- A pass goes over every row, or fails and leaves them all. -/
theorem users_enforce (site : Site) (m : Manager) (meets : Meeting) :
    (enforce site m meets).1.state.users = m.state.users.map (·.enforced meets)
    ∨ (enforce site m meets).2.isOk = false
      ∧ (enforce site m meets).1.state.users = m.state.users := by
  unfold enforce
  split
  · exact .inr ⟨rfl, rfl⟩
  by_cases hns : (m.state.users.filter (·.exhausted meets.recorded)).map Row.username = []
  · have hp : plan site (meets.env "") m.state (.enforceQuotas meets.recorded)
        = .ok (.nothing (.exhausted [])) := congrArg Except.ok (if_pos hns)
    have hrow (row : Row) (hrow : row ∈ m.state.users) : row.enforced meets = row :=
      if_neg (List.filter_eq_nil_iff.mp (List.map_eq_nil_iff.mp hns) row hrow)
    rw [state_call, hp]
    exact .inl ((List.map_congr_left hrow).trans (List.map_id _)).symm
  · have hp : plan site (meets.env "") m.state (.enforceQuotas meets.recorded) = .ok (.change
        { m.state.read meets.now with users := m.state.users.map (·.enforced meets) } _ (.ok ())) :=
      congrArg Except.ok (if_neg hns)
    rw [state_call, hp]
    dsimp only
    split
    · exact .inl rfl
    next hplac =>
      refine .inr ⟨?_, rfl⟩
      rw [Bool.eq_false_iff]
      exact fun hok => hplac (places_of_isOk hp hok)

/-- A row is found again after its change. -/
theorem find_update {f : Row → Row} {row' : Row}
    (h : ((s.update username f).users.find? fun row => row.username = username) = some row')
    (hf : ∀ row, (f row).username = row.username) :
    ∃ row, find s username = .ok row ∧ row.username = username ∧ f row = row' := by
  unfold State.update at h
  rw [Table.find?_replaceF Row.username (fun row h => (hf row).trans h), if_pos rfl,
    Option.map_eq_some_iff] at h
  obtain ⟨row, hrow, hf⟩ := h
  refine ⟨row, ?_, of_decide_eq_true (List.find?_some hrow :), hf⟩
  unfold find
  rw [hrow]

theorem used_of_env {used : Int} (h : usedBytes (meets.env username) = .ok used) :
    used = meets.used username := by
  unfold usedBytes Meeting.env at h
  dsimp only at h
  split at h
  · cases h
  · exact (Except.ok.inj h).symm

/-- The user a plan leaves is disabled, or within the quota. -/
def Plan.Within (p : Plan) (meets : Meeting) (username : String) : Prop :=
  ∃ s r a, p = .change s r a ∧
    ∀ row, (s.users.find? fun row => row.username = username) = some row →
      row.exhausted meets.recorded = false

theorem setEnabled_within {enabled : Bool} {p : Plan}
    (h : setEnabled (meets.env username) s username enabled = .ok p) : p.Within meets username := by
  obtain ⟨⟨rep, hp⟩, hquota⟩ := setEnabled_eq_ok h
  refine ⟨_, _, _, hp, fun row' hrow => ?_⟩
  obtain ⟨row, hf, hnm, rfl⟩ := find_update hrow fun _ => rfl
  cases enabled with
  | false => rfl
  | true =>
    cases hq : row.quota with
    | none => rfl
    | some quota =>
      obtain ⟨used, hused, hlt⟩ := hquota rfl row quota hf hq
      rw [used_of_env hused, ← hnm] at hlt
      exact decide_eq_false (not_le.mpr hlt)

theorem setQuota_within {quota : Option Int} {p : Plan}
    (h : setQuota (meets.env username) s username quota = .ok p) : p.Within meets username := by
  simp only [setQuota, Checks.bind_eq_ok, Checks.pure_eq_ok] at h
  obtain ⟨_, _, _, _, used, hused, hp⟩ := h
  refine ⟨_, _, _, hp.symm, fun row' hrow => ?_⟩
  obtain ⟨row, -, hnm, rfl⟩ := find_update hrow fun row =>
    (row.setQuota_keeps quota used (meets.env username).now).1
  have hused : used = (Table.find meets.recorded row.username).getD 0 :=
    hnm ▸ used_of_env hused
  unfold Row.setQuota
  split
  · rfl
  next hover =>
    rw [hused] at hover
    split
    · exact Bool.eq_false_iff.mpr hover
    · exact Bool.eq_false_iff.mpr hover

/-- A call that succeeds, or changes the users, leaves what it planned. -/
theorem within_of_plan {env : Env} {c : Call} {row : Row}
    (hplan : ∀ p, plan site env m.state c = .ok p → p.Within meets username)
    (h : (call site m env c).2.isOk = true ∨ (call site m env c).1.state.users ≠ m.state.users)
    (hrow : rowAfter (call site m env c) username = some row) :
    row.exhausted meets.recorded = false := by
  cases hp : plan site env m.state c with
  | error e =>
    unfold call at h
    rw [hp] at h
    exact absurd h (by simp [Except.isOk, Except.toBool])
  | ok p =>
    obtain ⟨s, r, a, rfl, hwin⟩ := hplan p hp
    have hsta : (call site m env c).1.state = if m.places env then s else m.state := by
      rw [state_call, hp]
    have hplac : m.places env = true := by
      rcases h with hok | hne
      · exact places_of_isOk hp hok
      · by_contra hnot
        exact hne (by rw [hsta, if_neg hnot])
    unfold rowAfter at hrow
    rw [hsta, if_pos hplac] at hrow
    exact hwin row hrow

/-- **Quotas bite.** After a pass that succeeds no enabled user has used up a
quota; no pass touches a user who has not; and after `set_enabled` or `set_quota`
has succeeded – or failed with its change in place – the user it is for is
disabled or within the quota. -/
theorem quotas_bite (site : Site) (m : Manager) (meets : Meeting) :
    ((enforce site m meets).2.isOk = true →
      ∀ row ∈ (enforce site m meets).1.state.users, row.exhausted meets.recorded = false)
    ∧ (∀ row ∈ m.state.users, row.exhausted meets.recorded = false →
      row ∈ (enforce site m meets).1.state.users)
    ∧ ∀ username c, (∃ enabled, c = .setEnabled username enabled)
        ∨ (∃ quota, c = .setQuota username quota) →
      (call site m (meets.env username) c).2.isOk = true
        ∨ (call site m (meets.env username) c).1.state.users ≠ m.state.users →
      ∀ row, rowAfter (call site m (meets.env username) c) username = some row →
        row.exhausted meets.recorded = false := by
  refine ⟨fun hok row hrow => ?_, fun row hrow hfree => ?_, fun username c hc hdone row hrow => ?_⟩
  · rcases users_enforce site m meets with h | ⟨h, -⟩
    · rw [h] at hrow
      obtain ⟨row, -, rfl⟩ := List.mem_map.mp hrow
      exact row.exhausted_enforced
    · rw [hok] at h
      cases h
  · rcases users_enforce site m meets with h | ⟨-, h⟩
    · rw [h]
      exact List.mem_map.mpr ⟨row, hrow, if_neg (Bool.eq_false_iff.mp hfree)⟩
    · exact h ▸ hrow
  · refine within_of_plan (fun p hp => ?_) hdone hrow
    rcases hc with ⟨enabled, rfl⟩ | ⟨quota, rfl⟩
    · exact setEnabled_within hp
    · exact setQuota_within hp

namespace Sample

/-- An enabled user with a quota of 100 bytes. -/
def alice : Row := ⟨"alice", "p", true, some 100, none, 0, 0⟩

/-- By now the user has used 150. -/
def usedUp : Meeting := ⟨5, "t", [("alice", 150)], none, .ok true, .ok (), .done⟩

/-- **A refused call leaves the user enabled**, although it has seen that the
quota is used up. -/
theorem refused_stays_enabled :
    let result := call ⟨"host", id⟩ ⟨⟨[alice], [], []⟩, false⟩ (usedUp.env "alice")
      (.setEnabled "alice" true)
    result.2 = .error (.conflict "quota exhausted; reset traffic or remove quota first"
        "quota_exhausted")
      ∧ (rowAfter result "alice").map (fun row => (row.enabled, row.exhausted usedUp.recorded))
        = some (true, true) := by
  decide

end Sample

end Naive
