import ProxyControl.Run

/-!
# The login limiter

The panel throttles two kinds of request with one table. A login reserves a
row under its address and one under its account before the password is
checked, and a subscription fetch reserves a row under its address before the
token is looked up; both go through `reserve_login_attempt`, each with its own
limit and its own window. The reservation first deletes *every* row older than
the window it was called with, whoever the row belongs to, then counts the
rows of its scopes, and adds its own only where no count has reached the
limit. A login whose password is right gives its reservation back.

What the limiter is for is a bound on the requests it lets through: within
one window of a limiter, never more than the limit. The bound rests on one
fact – that a request let through less than a window ago still has its row –
and two things in the code can break it. The clock is read before the lock is
taken, so a reservation can be made at a time earlier than one that has
already purged; and a purge made for the one limiter removes the other's rows.
`Orderly` is the absence of both at a step, and `bounded_of_orderly` the bound
it gives.
-/

namespace LoginLimiter

open List

/-! ## The table -/

/-- A row of `login_attempts`. -/
structure Attempt where
  /-- Whose count the row adds to. -/
  scope : String
  /-- The clock reading of the request that made the row, in whole seconds. -/
  happenedAt : Int
  /-- The reservation the row belongs to. -/
  reservationId : String
deriving DecidableEq, Repr

/-- What `reserve_login_attempt` refuses before it looks at the table. -/
inductive StoreError
  /-- `invalid login limiter configuration`. -/
  | invalidLimiter
deriving DecidableEq, Repr

/-- The rows a purge leaves: those not older than the cutoff. The purge asks
nothing about the scope. -/
def purge (table : List Attempt) (cutoff : Int) : List Attempt :=
  table.filter fun row => ! decide (row.happenedAt < cutoff)

/-- The rows of one scope, counted. -/
def scopeCount (table : List Attempt) (scope : String) : Nat :=
  table.countP fun row => decide (row.scope = scope)

/-- **`reserve_login_attempt`**, from the lock to the commit: purge what is
older than the window, refuse where a scope is full, and otherwise add one
row per scope. The purge is committed either way. -/
def reserveLoginAttempt (table : List Attempt) (scopes : List String)
    (attempts window now : Int) (reservationId : String) :
    Except StoreError (List Attempt × Option String) :=
  if scopes.isEmpty || attempts < 1 || window < 1 then
    .error .invalidLimiter
  else
    let kept := purge table (now - window)
    if scopes.any (fun scope => decide (attempts ≤ scopeCount kept scope)) then
      .ok (kept, none)
    else
      .ok (kept ++ scopes.map (fun scope => ⟨scope, now, reservationId⟩), some reservationId)

/-- The rows of one reservation go, and no others. -/
def releaseLoginAttempt (table : List Attempt) (reservationId : String) : List Attempt :=
  table.filter fun row => ! decide (row.reservationId = reservationId)

variable {table : List Attempt} {id : String}

theorem mem_purge {cutoff : Int} {row : Attempt} :
    row ∈ purge table cutoff ↔ row ∈ table ∧ cutoff ≤ row.happenedAt := by
  simp [purge]

theorem mem_releaseLoginAttempt {row : Attempt} :
    row ∈ releaseLoginAttempt table id ↔ row ∈ table ∧ row.reservationId ≠ id := by
  simp [releaseLoginAttempt]

/-- **What a reservation can do.** It is refused and leaves the purged table,
or it is granted – then the first of its scopes was below the limit, and the
table gains its rows. -/
theorem reserveLoginAttempt_cases {scope : String} {scopes : List String}
    {attempts window now : Int} {table' : List Attempt} {granted : Option String}
    (h : reserveLoginAttempt table (scope :: scopes) attempts window now id = .ok (table', granted))
    : (granted = none ∧ table' = purge table (now - window)) ∨ (granted = some id
        ∧ (scopeCount (purge table (now - window)) scope : Int) < attempts
        ∧ table' = purge table (now - window)
            ++ (scope :: scopes).map (fun scope => ⟨scope, now, id⟩)) := by
  unfold reserveLoginAttempt at h
  split at h
  · cases h
  · dsimp only at h
    split at h
    · obtain ⟨rfl, rfl⟩ := Prod.mk.inj (Except.ok.inj h)
      exact Or.inl ⟨rfl, rfl⟩
    next _ hfull =>
      obtain ⟨rfl, rfl⟩ := Prod.mk.inj (Except.ok.inj h)
      refine Or.inr ⟨rfl, ?_, rfl⟩
      simp only [any_cons, Bool.or_eq_true, decide_eq_true_eq, not_or] at hfull
      exact Int.not_le.mp hfull.1

/-! ## The requests

A request is followed from the moment it reads the clock. Between that moment
and its transaction it waits for the lock, and any number of other requests
may get there first. -/

/-- The two kinds of request the limiter counts. -/
inductive Kind
  /-- A login under a user name. -/
  | login (username : String)
  /-- A fetch of a subscription. -/
  | subscription
deriving DecidableEq, Repr

/-- The two limiters that share the table. -/
inductive Limiter
  | login
  | subscription
deriving DecidableEq, Repr

/-- The limiter a request goes through. -/
def Kind.limiter : Kind → Limiter
  | .login _ => .login
  | .subscription => .subscription

/-- How far a request has come. -/
inductive Stage
  /-- The clock is read and the lock is waited for. -/
  | reserving
  /-- It failed before its transaction. -/
  | cancelled
  /-- Its transaction found a scope full. -/
  | refused
  /-- Its transaction granted the reservation: a login goes on to the password
  check, a fetch is let through to the lookup. -/
  | granted
  | failed
  /-- The password check passed, and the reservation is not released yet. -/
  | passed
  | released
  /-- It failed after its transaction, and its rows stay. -/
  | errored
deriving DecidableEq, Repr

structure Request where
  ip : String
  kind : Kind
  /-- The clock reading the reservation is made at. -/
  now : Int
  reservationId : String
  stage : Stage
deriving DecidableEq, Repr

/-- Whether the transaction of the request has run, so that it has purged. -/
def Request.ran (r : Request) : Bool :=
  match r.stage with
  | .reserving | .cancelled => false
  | _ => true

/-- Whether the request counts against its limiter: let through, or let
through and failed. -/
def Request.counts (r : Request) : Bool :=
  match r.stage with
  | .granted | .failed => true
  | _ => false

/-- Non-ASCII characters whose full case fold contains ASCII. -/
def asciiFolds : List (Char × String) :=
  [('ß', "ss"), ('İ', "i̇"), ('ŉ', "ʼn"), ('ſ', "s"),
    ('ǰ', "ǰ"), ('ẖ', "ẖ"), ('ẗ', "ẗ"),
    ('ẘ', "ẘ"), ('ẙ', "ẙ"), ('ẚ', "aʾ"),
    ('ẞ', "ss"), ('K', "k"), ('ﬀ', "ff"), ('ﬁ', "fi"),
    ('ﬂ', "fl"), ('ﬃ', "ffi"), ('ﬄ', "ffl"), ('ﬅ', "st"),
    ('ﬆ', "st")]

/-- The limits of the settings. -/
structure Settings where
  loginAttempts : Int
  loginWindowSeconds : Int

/-- `FETCHES_PER_MINUTE`: per client address, across all tokens. -/
def fetchesPerMinute : Int := 60

/-- How many requests a limiter lets through in one window. -/
def Settings.limit (cfg : Settings) : Limiter → Int
  | .login => cfg.loginAttempts
  | .subscription => fetchesPerMinute

/-- The window of a limiter, in seconds. -/
def Settings.window (cfg : Settings) : Limiter → Int
  | .login => cfg.loginWindowSeconds
  | .subscription => 60

/-- The scope that counts an address against a limiter. -/
def addressScope (ip : String) : Limiter → String
  | .login => "ip:" ++ ip
  | .subscription => "subscription:" ++ ip

-- `toLowercase` is the Unicode lowercase mapping of a single character.
variable (toLowercase : Char → String)

/-- ASCII is lowered, the listed characters are
folded, and every other character is lowered. -/
def casefoldForAsciiMatch (text : String) : String :=
  String.join (text.toList.map fun ch =>
    if ch.toNat < 128 then ch.toLower.toString
    else (asciiFolds.lookup ch).getD (toLowercase ch))

/-- The scopes a request reserves besides its address: a login its account at
that address, a fetch none. -/
def accountScopes (ip : String) : Kind → List String
  | .login username =>
    ["account:" ++ casefoldForAsciiMatch toLowercase username ++ ":" ++ ip]
  | .subscription => []

/-- The scopes a request reserves, its address first. -/
def Request.scopes (r : Request) : List String :=
  addressScope r.ip r.kind.limiter :: accountScopes toLowercase r.ip r.kind

/-! ## The panel -/

/-- The state the requests share, and the requests so far. -/
structure Panel where
  clock : Int
  table : List Attempt
  /-- Every request that has read the clock, in that order. -/
  requests : List Request

/-- What can happen next. A request is named by its place in the order the
clock was read in. -/
inductive Event
  | tick (now : Int)
  /-- A request passes its checks, reads the clock and draws its token. -/
  | arrive (ip : String) (kind : Kind) (token : String)
  /-- A request gets the lock and runs its transaction. -/
  | reserve (i : Nat)
  /-- The password check of a login ends. -/
  | verify (i : Nat) (valid : Bool)
  /-- A login whose password was right gives its reservation back. -/
  | release (i : Nat)
  /-- A request is given up: the database, a password hash or the client
  failed it. -/
  | giveUp (i : Nat)

/-- The request goes on to a stage. -/
def Panel.advance (s : Panel) (i : Nat) (r : Request) (stage : Stage) : Panel :=
  { s with requests := s.requests.set i { r with stage } }

/-- **What an event does.** The clock never goes back, and a drawn token is
one that was never drawn before. -/
def step (cfg : Settings) (s : Panel) : Event → Option Panel
  | .tick now => if s.clock ≤ now then some { s with clock := now } else none
  | .arrive ip kind token =>
    if s.requests.any (fun r => decide (r.reservationId = token)) then none
    else some { s with
      requests := s.requests ++ [⟨ip, kind, s.clock, token, .reserving⟩] }
  | .reserve i =>
    match s.requests[i]? with
    | some r =>
      if r.stage = .reserving then
        match reserveLoginAttempt s.table (r.scopes toLowercase)
            (cfg.limit r.kind.limiter) (cfg.window r.kind.limiter) r.now r.reservationId with
        | .ok (table, some _) => some ({ s with table }.advance i r .granted)
        | .ok (table, none) => some ({ s with table }.advance i r .refused)
        | .error _ => some (s.advance i r .cancelled)
      else none
    | none => none
  | .verify i valid =>
    match s.requests[i]? with
    | some r =>
      if r.stage = .granted ∧ r.kind.limiter = .login then
        some (s.advance i r (if valid then .passed else .failed))
      else none
    | none => none
  | .release i =>
    match s.requests[i]? with
    | some r =>
      if r.stage = .passed then
        some ({ s with table := releaseLoginAttempt s.table r.reservationId }.advance i r
          .released)
      else none
    | none => none
  | .giveUp i =>
    match s.requests[i]? with
    | some r =>
      match r.stage with
      | .reserving => some (s.advance i r .cancelled)
      | .granted | .passed =>
        -- a fetch that fails after its lookup was let through all the same
        if r.kind.limiter = .login then some (s.advance i r .errored) else none
      | _ => none
    | none => none

/-- A panel before its first request, on whatever rows an earlier one left. -/
def Panel.start (clock : Int) (table : List Attempt) : Panel := ⟨clock, table, []⟩

/-- The requests of one address that count against a limiter and were made in
the `span` seconds from `t` on. -/
def Request.within (ip : String) (k : Limiter) (t span : Int) (r : Request) : Bool :=
  decide (r.ip = ip ∧ r.kind.limiter = k ∧ t ≤ r.now ∧ r.now ≤ t + span)

/-- **The logins of an address that failed the password check** with
reservation times in the `span` seconds from `t` on. -/
def Panel.failedLogins (s : Panel) (ip : String) (t span : Int) : Nat :=
  s.requests.countP fun r => r.within ip .login t span && decide (r.stage = .failed)

/-- **The fetches of an address that were let through** with reservation times
in the `span` seconds from `t` on. -/
def Panel.letThrough (s : Panel) (ip : String) (t span : Int) : Nat :=
  s.requests.countP fun r => r.within ip .subscription t span && decide (r.stage = .granted)

/-- Both kinds at once: the requests that count against a limiter. -/
def Panel.counted (s : Panel) (ip : String) (k : Limiter) (t span : Int) : Nat :=
  s.requests.countP fun r => r.within ip k t span && r.counts

/-- **What keeps the bound at a step.** A transaction runs at a time no
earlier than those that have already run, and its purge reaches no request
that still counts and is inside the window of its own limiter. -/
def Orderly (cfg : Settings) (s : Panel) : Event → Prop
  | .reserve i =>
    ∀ r ∈ s.requests[i]?, ∀ q ∈ s.requests,
      (q.ran = true → q.now ≤ r.now)
        ∧ (q.counts = true → q.now < r.now - cfg.window r.kind.limiter →
          q.now < r.now - cfg.window q.kind.limiter)
  | _ => True

instance (cfg : Settings) (s : Panel) : (e : Event) → Decidable (Orderly cfg s e)
  | .reserve _ => inferInstanceAs (Decidable (∀ _ ∈ _, ∀ _ ∈ _, _))
  | .tick _ | .arrive _ _ _ | .verify _ _ | .release _ | .giveUp _ =>
    inferInstanceAs (Decidable True)

/-! ## The invariant -/

/-- The row that counts a request at its address. -/
def Request.row (r : Request) : Attempt :=
  ⟨addressScope r.ip r.kind.limiter, r.now, r.reservationId⟩

/-- **What every orderly step keeps.** -/
structure Sound (cfg : Settings) (s : Panel) : Prop where
  /-- Every request drew its own token. -/
  tokens : (s.requests.map Request.reservationId).Nodup
  /-- A request that counts has its row, unless a transaction has run more
  than a window of its limiter later. -/
  covered : ∀ r ∈ s.requests, r.counts = true →
    (∀ q ∈ s.requests, q.ran = true → q.now - cfg.window r.kind.limiter ≤ r.now) →
    r.row ∈ s.table
  /-- No window holds more than the limit. -/
  bounded : ∀ ip k t, (s.counted ip k t (cfg.window k) : Int) ≤ cfg.limit k

variable {i : Nat} {r : Request} {l : List Request} {q : Request}

/-- Two places of the list hold two tokens. -/
theorem token_ne_of_ne (h : (l.map Request.reservationId).Nodup) {j : Nat} (hij : j ≠ i)
    (hj : l[j]? = some q) (hi : l[i]? = some r) : q.reservationId ≠ r.reservationId := by
  intro heq
  have hlen : j < (l.map Request.reservationId).length := by
    rw [List.length_map]
    exact (List.getElem?_eq_some_iff.mp hj).1
  refine hij ((List.getElem?_inj hlen h).mp ?_)
  rw [List.getElem?_map, List.getElem?_map, hj, hi]
  exact congrArg some heq

variable {cfg : Settings} {s : Panel} {stage : Stage}

/-- **The counted requests have rows.** At a time no transaction has run
after, the requests of the last window that count against an address are no
more than the rows of its scope that a purge at that time leaves. -/
theorem Sound.counted_le_scopeCount (h : Sound cfg s)
    {now t : Int} {k : Limiter} (hl : ∀ q ∈ s.requests, q.ran = true → q.now ≤ now)
    (ht : now - cfg.window k ≤ t) (ip : String) :
    s.counted ip k t (cfg.window k)
      ≤ scopeCount (purge s.table (now - cfg.window k)) (addressScope ip k) := by
  unfold Panel.counted scopeCount
  rw [countP_eq_length_filter, countP_eq_length_filter]
  set held := s.requests.filter fun r => r.within ip k t (cfg.window k) && r.counts with hheld
  have hnd : (held.map Request.row).Nodup := by
    refine List.Nodup.of_map Attempt.reservationId ?_
    rw [map_map]
    exact h.tokens.sublist (List.Sublist.map _ filter_sublist)
  have hlen : held.length = (held.map Request.row).length := (length_map _).symm
  rw [hlen]
  refine (subperm_of_subset hnd ?_).length_le
  intro row hrow
  obtain ⟨r, hr, rfl⟩ := mem_map.mp hrow
  rw [hheld, mem_filter, Bool.and_eq_true, Request.within, decide_eq_true_eq] at hr
  obtain ⟨hmem, ⟨rfl, rfl, hlow, -⟩, hcnt⟩ := hr
  rw [mem_filter, mem_purge]
  refine ⟨⟨h.covered r hmem hcnt (fun q hq hran => ?_), ?_⟩, by simp [Request.row]⟩
  · have := hl q hq hran
    omega
  · exact Int.le_trans ht hlow

/-- Moving a request to another stage leaves every token where it was. -/
theorem map_token_set (hi : l[i]? = some r) (stage : Stage) :
    (l.set i { r with stage }).map Request.reservationId = l.map Request.reservationId := by
  refine List.ext_getElem? (fun j => ?_)
  rw [List.getElem?_map, List.getElem?_map, List.getElem?_set]
  split
  next hij =>
    obtain ⟨hil, hir⟩ := List.getElem?_eq_some_iff.mp hi
    rw [if_pos hil, ← hij, hi]
    rfl
  · rfl

/-- What holds of all requests after one moved held of all before, if it did of that one. -/
theorem forall_of_set {p : Request → Prop} (hi : l[i]? = some r) (hr : p q → p r)
    (h : ∀ q' ∈ l.set i q, p q') : ∀ q' ∈ l, p q' := by
  intro q' hq'
  obtain ⟨j, hj⟩ := List.mem_iff_getElem?.mp hq'
  by_cases hji : j = i
  · rw [hji, hi, Option.some.injEq] at hj
    exact hj ▸ hr (h q (List.mem_set (List.getElem?_eq_some_iff.mp hi).1 _))
  · refine h q' (List.mem_iff_getElem?.mpr ⟨j, ?_⟩)
    rw [List.getElem?_set, if_neg (Ne.symm hji), hj]

/-- What a request that moves adds to the count of a window. -/
theorem counted_advance (hi : s.requests[i]? = some r)
    (stage : Stage) (ip : String) (k : Limiter) (t span : Int) :
    (s.advance i r stage).counted ip k t span
      = s.counted ip k t span - (if r.within ip k t span && r.counts then 1 else 0)
        + (if r.within ip k t span && ({ r with stage } : Request).counts then 1 else 0) := by
  obtain ⟨hil, hir⟩ := List.getElem?_eq_some_iff.mp hi
  unfold Panel.counted Panel.advance
  rw [List.countP_set hil, hir]
  rfl

/-- **A request that moves without starting to count** keeps the invariant,
as long as the table keeps the rows of those that go on counting. -/
theorem Sound.advance (h : Sound cfg s) (hi : s.requests[i]? = some r)
    (hran : ({ r with stage } : Request).ran = r.ran)
    (hcnt : ({ r with stage } : Request).counts = true → r.counts = true)
    (htable : ∀ j q, s.requests[j]? = some q →
      (j = i → ({ r with stage } : Request).counts = true) → q.row ∈ s.table → q.row ∈ table) :
    Sound cfg ({ s with table }.advance i r stage) := by
  have hold : ∀ w lim, (∀ q ∈ s.requests.set i { r with stage }, q.ran = true → q.now - w ≤ lim) →
      ∀ q ∈ s.requests, q.ran = true → q.now - w ≤ lim :=
    -- the request that moves has run before exactly if it has run after
    fun w lim => forall_of_set hi fun hr hqran => hr (hran.trans hqran)
  refine ⟨?_, ?_, ?_⟩
  · show ((s.requests.set i _).map _).Nodup
    rw [map_token_set hi]
    exact h.tokens
  · intro q hq hqc hall
    rcases Run.mem_set_cases hq with rfl | ⟨j, hji, hj⟩
    · exact htable i r hi (fun _ => hqc)
        (h.covered r (List.mem_of_getElem? hi) (hcnt hqc) (hold _ _ hall))
    · exact htable j q hj (fun hj' => absurd hj' hji)
        (h.covered q (List.mem_of_getElem? hj) hqc (hold _ _ hall))
  · intro ip k t
    refine Int.le_trans (Int.ofNat_le.mpr ?_) (h.bounded ip k t)
    show (s.advance i r stage).counted ip k t (cfg.window k) ≤ _
    rw [counted_advance hi]
    have hpos : r.within ip k t (cfg.window k) && r.counts →
        0 < s.counted ip k t (cfg.window k) := fun hp =>
      List.countP_pos_iff.mpr ⟨r, List.mem_of_getElem? hi, hp⟩
    grind

/-- **A transaction that runs in order keeps what counts covered.** Whatever
its outcome, a request that still has to have its row after the transaction
is inside its own window at the transaction's time, and the purge leaves it
alone. -/
theorem covered_of_orderly (h : Sound cfg s) (hi : s.requests[i]? = some r)
    (hstg : r.stage = .reserving) (hok : Orderly cfg s (.reserve i))
    (hran : ({ r with stage } : Request).ran = true) {j : Nat} (hj : s.requests[j]? = some q)
    (hqc : q.counts = true) (hall : ∀ p ∈ s.requests.set i { r with stage }, p.ran = true →
      p.now - cfg.window q.kind.limiter ≤ q.now) :
    q.row ∈ purge s.table (r.now - cfg.window r.kind.limiter) := by
  have hr := hall { r with stage } (List.mem_set (List.getElem?_eq_some_iff.mp hi).1 _) hran
  rw [mem_purge]
  constructor
  · -- the request itself had not run
    refine h.covered q (List.mem_of_getElem? hj) hqc (forall_of_set hi (fun _ hpran => ?_) hall)
    simp [Request.ran, hstg] at hpran
  · have hkeep := (hok r hi q (List.mem_of_getElem? hj)).2 hqc
    show r.now - cfg.window r.kind.limiter ≤ q.now
    dsimp only at hr
    omega

/-- A refused reservation keeps the invariant. -/
theorem Sound.refuse (h : Sound cfg s) (hi : s.requests[i]? = some r)
    (hstg : r.stage = .reserving) (hok : Orderly cfg s (.reserve i)) :
    Sound cfg ({ s with table := purge s.table (r.now - cfg.window r.kind.limiter) }.advance
      i r .refused) := by
  refine ⟨?_, ?_, ?_⟩
  · show ((s.requests.set i _).map _).Nodup
    rw [map_token_set hi]
    exact h.tokens
  · intro q hq hqc hall
    rcases Run.mem_set_cases hq with rfl | ⟨j, -, hj⟩
    · simp [Request.counts] at hqc
    · exact covered_of_orderly h hi hstg hok rfl hj hqc hall
  · intro ip k t
    refine Int.le_trans (Int.ofNat_le.mpr (Nat.le_of_eq ?_)) (h.bounded ip k t)
    refine (counted_advance hi .refused ip k t (cfg.window k)).trans ?_
    simp [Request.counts, hstg]

/-- **A granted reservation keeps the invariant**: the rows that were counted
are at least the requests of the window, and there were fewer than the
limit. -/
theorem Sound.grant (h : Sound cfg s) (hi : s.requests[i]? = some r) (hstg : r.stage = .reserving)
    (hok : Orderly cfg s (.reserve i))
    (hfree : (scopeCount (purge s.table (r.now - cfg.window r.kind.limiter))
      (addressScope r.ip r.kind.limiter) : Int) < cfg.limit r.kind.limiter) {rows : List Attempt}
    (hrow : r.row ∈ rows) :
    Sound cfg ({ s with
      table := purge s.table (r.now - cfg.window r.kind.limiter) ++ rows }.advance
      i r .granted) := by
  refine ⟨?_, ?_, ?_⟩
  · show ((s.requests.set i _).map _).Nodup
    rw [map_token_set hi]
    exact h.tokens
  · intro q hq hqc hall
    rcases Run.mem_set_cases hq with rfl | ⟨j, -, hj⟩
    · exact mem_append_right _ hrow
    · exact mem_append_left _ (covered_of_orderly h hi hstg hok rfl hj hqc hall)
  · intro ip k t
    have hcnt := counted_advance hi .granted ip k t (cfg.window k)
    have hbef := h.bounded ip k t
    show ((s.advance i r .granted).counted ip k t (cfg.window k) : Int) ≤ _
    rw [hcnt]
    by_cases hw : r.within ip k t (cfg.window k) = true
    · have hin := hw
      rw [Request.within, decide_eq_true_eq] at hin
      obtain ⟨rfl, rfl, hlow, hhigh⟩ := hin
      have ht : r.now - cfg.window r.kind.limiter ≤ t := by omega
      have hle := h.counted_le_scopeCount (fun q hq => (hok r hi q hq).1) ht r.ip
      simp only [hw, Request.counts, hstg]
      simp only [Bool.and_false, Bool.false_eq_true, if_false, Nat.sub_zero, Bool.and_true, if_true]
      omega
    · simp only [hw, Bool.false_and, Bool.false_eq_true, if_false, Nat.sub_zero, Nat.add_zero]
      exact hbef

/-- **Every orderly step keeps the invariant.** -/
theorem Sound.step {s' : Panel} {e : Event} (h : Sound cfg s)
    (hok : Orderly cfg s e) (hs : step toLowercase cfg s e = some s') : Sound cfg s' := by
  have hkeep : ∀ (i : Nat) (r : Request) (stage : Stage), ∀ j q, s.requests[j]? = some q →
      (j = i → ({ r with stage } : Request).counts = true) → q.row ∈ s.table → q.row ∈ s.table :=
    fun _ _ _ _ _ _ _ hq => hq
  unfold LoginLimiter.step at hs
  cases e with
  | tick now =>
    dsimp only at hs
    split at hs
    · cases hs
      exact { h with }
    · cases hs
  | arrive ip kind tok =>
    dsimp only at hs
    split at hs
    · cases hs
    next hnew =>
      cases hs
      simp only [any_eq_true, decide_eq_true_eq, not_exists, not_and] at hnew
      refine ⟨?_, ?_, ?_⟩
      · simp only [map_append, map_cons, map_nil]
        refine List.Nodup.append h.tokens (nodup_singleton _) ?_
        simpa using fun r hr => hnew r hr
      · intro q hq hqc hall
        rcases mem_append.mp hq with hq | hq
        · exact h.covered q hq hqc (fun p hp => hall p (mem_append_left _ hp))
        · rw [mem_singleton.mp hq] at hqc
          simp [Request.counts] at hqc
      · intro ip' k t
        simpa [Panel.counted, Request.counts] using h.bounded ip' k t
  | reserve i =>
    dsimp only at hs
    split at hs
    next r hi =>
      split at hs
      next hstg =>
        split at hs
        next table id hres =>
          cases hs
          rcases reserveLoginAttempt_cases hres with ⟨hno, -⟩ | ⟨-, hfree, rfl⟩
          · cases hno
          · exact h.grant hi hstg hok hfree (by simp [Request.row])
        next table hres =>
          cases hs
          rcases reserveLoginAttempt_cases hres with ⟨-, rfl⟩ | ⟨hno, -⟩
          · exact h.refuse hi hstg hok
          · cases hno
        · cases hs
          exact h.advance hi (by simp [Request.ran, hstg]) (by simp [Request.counts]) (hkeep i r _)
      · cases hs
    · cases hs
  | verify i valid =>
    dsimp only at hs
    split at hs
    next r hi =>
      split at hs
      next hstg =>
        cases hs
        refine h.advance hi ?_ ?_ (hkeep i r _)
        · cases valid <;> simp [Request.ran, hstg.1]
        · simp [Request.counts, hstg.1]
      · cases hs
    · cases hs
  | release i =>
    dsimp only at hs
    split at hs
    next r hi =>
      split at hs
      next hstg =>
        cases hs
        refine h.advance hi (by simp [Request.ran, hstg]) (by simp [Request.counts]) ?_
        intro j q hj hji hq
        refine mem_releaseLoginAttempt.mpr ⟨hq, token_ne_of_ne h.tokens (fun heq => ?_) hj hi⟩
        simpa [Request.counts] using hji heq
      · cases hs
    · cases hs
  | giveUp i =>
    dsimp only at hs
    split at hs
    next r hi =>
      -- wherever it gives up, it does not start to count
      repeat' split at hs
      all_goals cases hs
      all_goals
        exact h.advance hi (by simp [Request.ran, *]) (by simp [Request.counts]) (hkeep i r _)
    · cases hs

/-! ## The bound -/

/-- A panel that has seen no request is sound, whatever its table holds. -/
theorem sound_start (hn : 1 ≤ cfg.loginAttempts) (clock : Int)
    (table : List Attempt) : Sound cfg (Panel.start clock table) := by
  refine ⟨nodup_nil, nofun, fun ip k t => ?_⟩
  cases k with
  | login =>
    show (0 : Int) ≤ cfg.loginAttempts
    omega
  | subscription => exact (by decide : (0 : Int) ≤ fetchesPerMinute)

/-- **The throttle holds over every orderly run.** Where every transaction
runs at a time no earlier than those before it and purges no request inside
the window of its own limiter, no window of `login_window_seconds` holds more
failed logins of one address than `login_attempts`, and no minute more
fetches let through than `FETCHES_PER_MINUTE`. -/
theorem bounded_of_orderly {cfg : Settings} (hn : 1 ≤ cfg.loginAttempts) {clock : Int}
    {table : List Attempt} {es : List Event} {s : Panel}
    (hrun : Run.exec (step toLowercase cfg) (Panel.start clock table) es = some s)
    (hok : Run.Meets (step toLowercase cfg) (Orderly cfg) (Panel.start clock table) es) :
    (∀ ip t, (s.failedLogins ip t cfg.loginWindowSeconds : Int) ≤ cfg.loginAttempts)
      ∧ ∀ ip t, (s.letThrough ip t 60 : Int) ≤ fetchesPerMinute := by
  have hs : Sound cfg s := Run.invariant_of_meets
    (fun _ _ _ h hok hstep => Sound.step toLowercase h hok hstep) hrun hok
    (sound_start hn clock table)
  refine ⟨fun ip t => Int.le_trans (Int.ofNat_le.mpr (List.countP_mono_left fun r _ hr => ?_))
      (hs.bounded ip .login t),
    fun ip t => Int.le_trans (Int.ofNat_le.mpr (List.countP_mono_left fun r _ hr => ?_))
      (hs.bounded ip .subscription t)⟩
  all_goals
    rw [Bool.and_eq_true, decide_eq_true_eq] at hr
    exact Bool.and_eq_true_iff.mpr ⟨hr.1, by simp [Request.counts, hr.2]⟩

namespace Sample

/-- A login of an address under a user name, its password wrong. -/
def failedLogin (i : Nat) (username token : String) : List Event :=
  [.arrive "192.0.2.1" (.login username) token, .reserve i, .verify i false]

/-- Two failed logins more than a window apart, and a fetch beside each. -/
def quietRun : List Event :=
  failedLogin 0 "owner" "t0" ++ [.arrive "192.0.2.1" .subscription "t1", .reserve 1, .tick 301]
    ++ failedLogin 2 "Owner" "t2" ++ [.arrive "192.0.2.1" .subscription "t3", .reserve 3]

/-- The bound on a run in which both limiters are used. -/
theorem bounded_quietRun :
    ∃ s, Run.exec (step Char.toString ⟨1, 300⟩) (Panel.start 0 []) quietRun = some s
      ∧ (s.failedLogins "192.0.2.1" 301 300 : Int) ≤ 1
      ∧ (s.letThrough "192.0.2.1" 0 60 : Int) ≤ 60 := by
  refine ⟨_, rfl, ?_⟩
  have hok : Run.Meets (step Char.toString ⟨1, 300⟩) (Orderly ⟨1, 300⟩) (Panel.start 0 [])
      quietRun := by
    decide
  obtain ⟨hlogins, hfetches⟩ := bounded_of_orderly Char.toString (by decide) rfl hok
  exact ⟨hlogins "192.0.2.1" 301, hfetches "192.0.2.1" 0⟩

/-- A fetch between two failed logins: its purge forgets the first. -/
def fetchBetween : List Event :=
  failedLogin 0 "owner" "t0" ++ [.tick 61, .arrive "192.0.2.1" .subscription "t1", .reserve 1]
    ++ failedLogin 2 "owner" "t2"

/-- A login that reads the clock, and is overtaken by one that reads it later,
purges, and releases its own reservation. -/
def overtaken : List Event :=
  failedLogin 0 "owner" "t0"
    ++ [.tick 300, .arrive "192.0.2.1" (.login "owner") "t1", .tick 301,
      .arrive "192.0.2.1" (.login "owner") "t2", .reserve 2, .verify 2 true, .release 2,
      .reserve 1, .verify 1 false]

/-- **The throttle fails** with one attempt in 300 seconds: a fetch a minute
after the first failed login lets a second one through, and so does a login
that waited for the lock while a later one ran. -/
theorem failedLogins_exceed_limit :
    (∃ s, Run.exec (step Char.toString ⟨1, 300⟩) (Panel.start 0 []) fetchBetween = some s
      ∧ ¬ (s.failedLogins "192.0.2.1" 0 300 : Int) ≤ 1)
    ∧ ∃ s, Run.exec (step Char.toString ⟨1, 300⟩) (Panel.start 0 []) overtaken = some s
      ∧ ¬ (s.failedLogins "192.0.2.1" 0 300 : Int) ≤ 1 :=
  ⟨⟨_, rfl, by decide⟩, ⟨_, rfl, by decide⟩⟩

end Sample

end LoginLimiter
