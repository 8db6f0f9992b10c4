import ProxyControl.Run

/-!
# Administrators and their sessions

The panel keeps its administrators and their sessions in two tables, and
three requests write the first: one adds an administrator, one edits one, one
removes one. Two things are owed by all of them together. There is always an
active administrator who is an owner – nobody else could add the next one –
and once a password is replaced, or an administrator is deactivated or
removed, the sessions that existed before are worth nothing.

Editing and removing run under a process lock and count the active owners
before they take one away. Adding does neither: where the user name is taken
– names compare without case – it overwrites the password and the role of the
administrator who has it, asks nothing about owners, and leaves the sessions
as they are. `Harmless` says of one such overwrite that it neither takes the
last owner away nor leaves a session standing, and
`owner_remains_and_sessions_end` is what holds of the runs whose overwrites are
all harmless, in whatever order the statements of the requests interleave. That
a token is one administrator's (`token_of_one_admin`) needs no condition.

Every statement outside a transaction is a step of its own here, because the
database lets another connection in between two of them.
-/

namespace Administrators

open List

/-! ## The tables -/

/-- The roles an administrator can have. -/
inductive Role
  | owner
  | admin
  | viewer
deriving DecidableEq, Repr

/-- A row of `admins`. -/
structure Admin where
  id : Int
  username : String
  passwordHash : String
  role : Role
  active : Bool
  createdAt : Int
deriving DecidableEq, Repr

/-- An owner who can log in. -/
def Admin.activeOwner (a : Admin) : Bool := decide (a.role = .owner) && a.active

/-- A row of `sessions`. -/
structure Session where
  tokenHash : String
  adminId : Int
  createdAt : Int
  expiresAt : Int
deriving DecidableEq, Repr

/-- The key `COLLATE NOCASE` compares: the text with its ASCII letters
lowered. -/
def nocase (text : String) : List Char := text.toList.map Char.toLower

/-- **The database**, with the constraints its schema enforces. -/
structure Database where
  admins : List Admin
  sessions : List Session
  /-- `id INTEGER PRIMARY KEY`. -/
  ids : (admins.map Admin.id).Nodup
  /-- `username TEXT NOT NULL UNIQUE COLLATE NOCASE`. -/
  names : (admins.map fun a => nocase a.username).Nodup
  /-- `admin_id INTEGER NOT NULL REFERENCES admins(id)`. -/
  references : ∀ x ∈ sessions, x.adminId ∈ admins.map Admin.id
  /-- `token_hash TEXT PRIMARY KEY`. -/
  tokens : (sessions.map Session.tokenHash).Nodup

namespace Database

/-- What an `UPDATE admins` sets. -/
structure Patch where
  passwordHash : Option String
  role : Option Role
  active : Option Bool
deriving DecidableEq, Repr

/-- A row after an update. The key and the name stay. -/
def Patch.apply (p : Patch) (a : Admin) : Admin :=
  { a with
    passwordHash := p.passwordHash.getD a.passwordHash
    role := p.role.getD a.role
    active := p.active.getD a.active }

/-- The rows after an update by id. -/
def patched (admins : List Admin) (id : Int) (p : Patch) : List Admin :=
  admins.map fun a => if a.id = id then p.apply a else a

theorem map_id_patched (admins : List Admin) (id : Int) (p : Patch) :
    (patched admins id p).map Admin.id = admins.map Admin.id := by
  unfold patched
  rw [map_map]
  refine map_congr_left (fun a _ => ?_)
  simp only [Function.comp_apply]
  split <;> rfl

theorem map_name_patched (admins : List Admin) (id : Int) (p : Patch) :
    (patched admins id p).map (fun a => nocase a.username)
      = admins.map fun a => nocase a.username := by
  unfold patched
  rw [map_map]
  refine map_congr_left (fun a _ => ?_)
  simp only [Function.comp_apply]
  split <;> rfl

/-- `UPDATE admins SET … WHERE id=?`. -/
def update (db : Database) (id : Int) (p : Patch) : Database where
  admins := patched db.admins id p
  sessions := db.sessions
  ids := by rw [map_id_patched]; exact db.ids
  names := by rw [map_name_patched]; exact db.names
  references := by rw [map_id_patched]; exact db.references
  tokens := db.tokens

/-- Drop the sessions a condition picks. -/
def dropSessions (db : Database) (drop : Session → Bool) : Database where
  admins := db.admins
  sessions := db.sessions.filter fun x => ! drop x
  ids := db.ids
  names := db.names
  references := fun x hx => db.references x (List.mem_of_mem_filter hx)
  tokens := db.tokens.sublist (List.filter_sublist.map _)

/-- `DELETE FROM admins WHERE id=?`, the sessions going with the row. -/
def delete (db : Database) (id : Int) : Database where
  admins := db.admins.filter fun a => ! decide (a.id = id)
  sessions := db.sessions.filter fun x => ! decide (x.adminId = id)
  ids := db.ids.sublist (List.filter_sublist.map _)
  names := db.names.sublist (List.filter_sublist.map _)
  references := by
    intro x hx
    obtain ⟨hmem, hne⟩ := List.mem_filter.mp hx
    obtain ⟨a, ha, hax⟩ := List.mem_map.mp (db.references x hmem)
    exact List.mem_map.mpr ⟨a, List.mem_filter.mpr ⟨ha, by rw [hax]; exact hne⟩, hax⟩
  tokens := db.tokens.sublist (List.filter_sublist.map _)

/-- The row id SQLite gives the next row. -/
def nextId (db : Database) : Int := (db.admins.map Admin.id).foldr max 0 + 1

theorem lt_nextId (db : Database) {a : Admin} (ha : a ∈ db.admins) : a.id < db.nextId := by
  have hle : ∀ (l : List Int), ∀ x ∈ l, x ≤ l.foldr max 0 := by
    intro l
    induction l with
    | nil => intro x hx; cases hx
    | cons y l ih =>
      intro x hx
      rw [foldr_cons]
      rcases mem_cons.mp hx with rfl | hx
      · exact Int.le_max_left _ _
      · exact Int.le_trans (ih x hx) (Int.le_max_right _ _)
  exact Int.lt_add_one_of_le (hle _ _ (mem_map_of_mem ha))

/-- `INSERT INTO admins`: refused where the name is taken. -/
def insert (db : Database) (username passwordHash : String) (role : Role) (now : Int) :
    Option Database :=
  if h : nocase username ∈ db.admins.map fun a => nocase a.username then none
  else some {
    admins := db.admins ++ [⟨db.nextId, username, passwordHash, role, true, now⟩]
    sessions := db.sessions
    ids := by
      rw [List.map_append]
      refine db.ids.append (List.nodup_singleton _) ?_
      simp only [List.map_cons, List.map_nil, List.disjoint_singleton, List.mem_map, not_exists,
        not_and]
      exact fun a ha => Int.ne_of_lt (db.lt_nextId ha)
    names := by
      rw [List.map_append]
      refine db.names.append (List.nodup_singleton _) ?_
      simp only [List.map_cons, List.map_nil, List.disjoint_singleton]
      exact h
    references := by
      intro x hx
      rw [List.map_append]
      exact List.mem_append_left _ (db.references x hx)
    tokens := db.tokens }

/-- `INSERT INTO sessions`: refused where the administrator is gone or the
token is taken. -/
def insertSession (db : Database) (x : Session) : Option Database :=
  if h : x.adminId ∈ db.admins.map Admin.id then
    if h' : x.tokenHash ∈ db.sessions.map Session.tokenHash then none
    else some {
      admins := db.admins
      sessions := db.sessions ++ [x]
      ids := db.ids
      names := db.names
      references := by
        intro y hy
        rcases List.mem_append.mp hy with hy | hy
        · exact db.references y hy
        · rw [List.mem_singleton.mp hy]
          exact h
      tokens := by
        rw [List.map_append]
        refine db.tokens.append (List.nodup_singleton _) ?_
        simp only [List.map_cons, List.map_nil, List.disjoint_singleton]
        exact h' }
  else none

/-- The administrator a name belongs to. -/
def idOfName (db : Database) (username : String) : Option Int :=
  (db.admins.find? fun a => decide (nocase a.username = nocase username)).map Admin.id

/-- `SELECT role FROM admins WHERE id=?`. -/
def roleOf (db : Database) (id : Int) : Option Role :=
  (db.admins.find? fun a => decide (a.id = id)).map Admin.role

/-- The active owners. -/
def ownerCount (db : Database) : Nat := db.admins.countP Admin.activeOwner

/-- **`session`**: the administrator a token authenticates as, where its
session is unexpired and the administrator active. -/
def session (db : Database) (tokenHash : String) (now : Int) : Option Admin :=
  match db.sessions.find? fun x => decide (x.tokenHash = tokenHash ∧ now < x.expiresAt) with
  | some x => db.admins.find? fun a => decide (a.id = x.adminId) && a.active
  | none => none

end Database

/-! ## The requests -/

/-- What an edit request asks for. An empty role or password asks for
nothing, and is not here. -/
structure Edit where
  role : Option Role
  passwordHash : Option String
  active : Option Bool
deriving DecidableEq, Repr

/-- Whether the edit gives the administrator a role below owner. -/
def Edit.demotes (e : Edit) : Bool :=
  match e.role with
  | some role => decide (role ≠ .owner)
  | none => false

/-- Whether the edit deactivates the administrator. -/
def Edit.deactivates (e : Edit) : Bool := decide (e.active = some false)

/-- What a request is answered. -/
inductive Answer
  /-- The administrator was added, or one of that name overwritten. -/
  | created (id : Int)
  /-- The edit or the removal was made. -/
  | changed
  /-- No administrator has the id. -/
  | notFound
  /-- The change would take the last active owner away. -/
  | lastOwner
  /-- The password is under twelve characters. -/
  | invalid
  /-- The database refused a statement. -/
  | failed
deriving DecidableEq, Repr

/-- Where a request is: the statement it executes next, or its answer. -/
inductive Request
  /-- `create_admin` looks the name up. -/
  | addLook (username passwordHash : String) (role : Role) (now : Int)
  /-- It found the name, and overwrites the administrator. -/
  | addUpdate (id : Int) (passwordHash : String) (role : Role)
  /-- It found the name free, and inserts. -/
  | addInsert (username passwordHash : String) (role : Role) (now : Int)
  /-- `update_admin` waits for the lock, then reads the role. -/
  | editLook (id : Int) (edit : Edit)
  /-- It compares the demotion of an owner with the count of owners. -/
  | editDemote (id : Int) (edit : Edit) (current : Role)
  /-- It compares the deactivation of an owner with the count of owners. -/
  | editDeactivate (id : Int) (edit : Edit) (current : Role)
  /-- It writes, in one transaction. -/
  | editWrite (id : Int) (edit : Edit)
  /-- `delete_admin` waits for the lock, then reads the role. -/
  | removeLook (id : Int)
  /-- It compares the removal of an owner with the count of owners. -/
  | removeCount (id : Int)
  | removeWrite (id : Int)
  | answered (answer : Answer)
deriving DecidableEq, Repr

/-- Whether the request holds the lock. -/
def Request.critical : Request → Bool
  | .editDemote .. | .editDeactivate .. | .editWrite .. | .removeCount .. | .removeWrite .. => true
  | _ => false

/-- Passwords shorter than this are refused. -/
def minPasswordChars : Nat := 12

/-- The panel: the database, the clock, who holds the process lock, the
requests in flight, and every session ever issued. -/
structure Panel where
  db : Database
  clock : Int
  lock : Option Nat
  requests : List Request
  issued : List Session

/-- A panel over a database, before its first request. -/
def Panel.start (db : Database) (clock : Int) : Panel := ⟨db, clock, none, [], db.sessions⟩

/-- What can happen next. A request is named by its place in the order of
arrival. -/
inductive Event
  | tick (now : Int)
  /-- `POST /api/admins`. -/
  | add (username password : String) (role : Role)
  /-- `PATCH /api/admins/{id}`. -/
  | edit (id : Int) (role : Option Role) (password : Option String) (active : Option Bool)
  /-- `DELETE /api/admins/{id}`. -/
  | remove (id : Int)
  /-- A request executes its next statement. -/
  | advance (i : Nat)
  /-- The database fails a request, which rolls back. -/
  | fail (i : Nat)
  /-- A login stores a password it verified under other parameters. -/
  | rehash (id : Int) (passwordHash : String)
  /-- A login whose password was right gets its session. -/
  | createSession (adminId : Int) (tokenHash : String) (ttl : Int)
  /-- A logout, or a session whose CSRF state is invalid. -/
  | deleteSession (tokenHash : String)

/-- The request goes on, and the lock passes to who it is given to. -/
def Panel.goOn (s : Panel) (i : Nat) (r : Request) (lock : Option Nat) : Panel :=
  { s with requests := s.requests.set i r, lock }

/-- **The next statement of a request.** -/
def Panel.advance (s : Panel) (i : Nat) : Request → Option Panel
  | .addLook username passwordHash role now =>
    match s.db.idOfName username with
    | some id => some (s.goOn i (.addUpdate id passwordHash role) s.lock)
    | none => some (s.goOn i (.addInsert username passwordHash role now) s.lock)
  | .addUpdate id passwordHash role =>
    some ({ s with db := s.db.update id ⟨some passwordHash, some role, some true⟩ }.goOn i
      (.answered (.created id)) s.lock)
  | .addInsert username passwordHash role now =>
    match s.db.insert username passwordHash role now with
    | some db => some ({ s with db }.goOn i (.answered (.created s.db.nextId)) s.lock)
    | none => some (s.goOn i (.answered .failed) s.lock)
  | .editLook id edit =>
    if s.lock = none then
      match s.db.roleOf id with
      | some current => some (s.goOn i (.editDemote id edit current) (some i))
      | none => some (s.goOn i (.answered .notFound) none)
    else none
  | .editDemote id edit current =>
    if current = .owner ∧ edit.demotes = true ∧ s.db.ownerCount ≤ 1 then
      some (s.goOn i (.answered .lastOwner) none)
    else some (s.goOn i (.editDeactivate id edit current) s.lock)
  | .editDeactivate id edit current =>
    if current = .owner ∧ edit.deactivates = true ∧ s.db.ownerCount ≤ 1 then
      some (s.goOn i (.answered .lastOwner) none)
    else some (s.goOn i (.editWrite id edit) s.lock)
  | .editWrite id edit =>
    let db := s.db.update id ⟨edit.passwordHash, edit.role, edit.active⟩
    -- a new password and a deactivation both end the sessions
    let db := if edit.passwordHash.isSome || edit.deactivates then
        db.dropSessions fun x => decide (x.adminId = id)
      else db
    some ({ s with db }.goOn i (.answered .changed) none)
  | .removeLook id =>
    if s.lock = none then
      match s.db.roleOf id with
      | some .owner => some (s.goOn i (.removeCount id) (some i))
      | some _ => some (s.goOn i (.removeWrite id) (some i))
      | none => some (s.goOn i (.answered .notFound) none)
    else none
  | .removeCount id =>
    if s.db.ownerCount ≤ 1 then some (s.goOn i (.answered .lastOwner) none)
    else some (s.goOn i (.removeWrite id) s.lock)
  | .removeWrite id => some ({ s with db := s.db.delete id }.goOn i (.answered .changed) none)
  | .answered _ => none

-- `hash` is the password hash; what it computes is of no matter here.
variable (hash : String → String) {s s' : Panel} {e : Event} {i : Nat}
  {tokenHash : String}

/-- **What an event does.** A drawn session token is one that was never
drawn before. -/
def step (s : Panel) : Event → Option Panel
  | .tick now => if s.clock ≤ now then some { s with clock := now } else none
  | .add username password role =>
    some { s with requests := s.requests ++
      [if password.length < minPasswordChars then .answered .invalid
        else .addLook username (hash password) role s.clock] }
  | .edit id role password active =>
    some { s with requests := s.requests ++
      [.editLook id ⟨role, (password.filter fun text => text ≠ "").map hash, active⟩] }
  | .remove id => some { s with requests := s.requests ++ [.removeLook id] }
  | .advance i =>
    match s.requests[i]? with
    | some r => s.advance i r
    | none => none
  | .fail i =>
    match s.requests[i]? with
    | some (.answered _) => none
    | some r => some (s.goOn i (.answered .failed) (if r.critical then none else s.lock))
    | none => none
  | .rehash id passwordHash =>
    some { s with db := s.db.update id ⟨some passwordHash, none, none⟩ }
  | .createSession adminId tokenHash ttl =>
    if s.issued.any fun x => decide (x.tokenHash = tokenHash) then none
    else
      let x : Session := ⟨tokenHash, adminId, s.clock, s.clock + ttl⟩
      match (s.db.dropSessions fun y => decide (y.expiresAt ≤ s.clock)).insertSession x with
      | some db => some { s with db, issued := s.issued ++ [x] }
      | none => some s
  | .deleteSession tokenHash =>
    some { s with db := s.db.dropSessions fun x => decide (x.tokenHash = tokenHash) }

/-- **The administrator a step revokes**: whose password it replaces, or whom
it deactivates or removes. -/
def revokes (s : Panel) : Event → Option Int
  | .advance i =>
    match s.requests[i]? with
    | some (.addUpdate id _ _) => some id
    | some (.editWrite id edit) =>
      if edit.passwordHash.isSome || edit.deactivates then some id else none
    | some (.removeWrite id) => some id
    | _ => none
  | _ => none

/-- **The administrator a request may still take the ownership of**, having
passed the checks it has to pass for it – or found that it takes none. -/
def Request.threatens : Request → Option Int
  | .editDemote id edit current =>
    if current ≠ .owner ∧ (edit.demotes || edit.deactivates) then some id else none
  | .editDeactivate id edit current =>
    if edit.demotes ∨ (current ≠ .owner ∧ edit.deactivates) then some id else none
  | .editWrite id edit => if edit.demotes || edit.deactivates then some id else none
  | .removeWrite id => some id
  | _ => none

/-- **An overwrite that does no harm.** The administrator it lands on has no
session, and it gives them the role of an owner, or takes no active owner
away, or leaves one that no edit or removal past its checks is about to
take. -/
def Harmless (s : Panel) : Event → Prop
  | .advance i =>
    match s.requests[i]? with
    | some (.addUpdate id _ role) =>
      (∀ x ∈ s.db.sessions, x.adminId ≠ id)
        ∧ (role = .owner ∨ (∀ a ∈ s.db.admins, a.id = id → a.activeOwner = false)
          ∨ ∃ a ∈ s.db.admins, a.id ≠ id ∧ a.activeOwner = true
            ∧ ∀ r ∈ s.requests, r.threatens ≠ some a.id)
    | _ => True
  | _ => True

/-! ## An owner remains -/

/-- **What every harmless step keeps.** A request past the lock holds it, and
there is an active owner whom no request is about to take away. -/
structure Guarded (s : Panel) : Prop where
  locked : ∀ i r, s.requests[i]? = some r → r.critical = true → s.lock = some i
  owner : ∃ o ∈ s.db.admins, o.activeOwner = true ∧ ∀ r ∈ s.requests, r.threatens ≠ some o.id

variable {r : Request}

/-- Only a request that holds the lock is about to take an owner away. -/
theorem Request.critical_of_threatens {id : Int} (h : r.threatens = some id) :
    r.critical = true := by
  cases r with
  | editDemote | editDeactivate | editWrite | removeWrite => rfl
  | addLook | addUpdate | addInsert | editLook | removeLook | removeCount | answered => cases h

/-- **More than one active owner leaves one beside any administrator.** -/
theorem Database.exists_other_owner (db : Database) (h : ¬ db.ownerCount ≤ 1) (id : Int) :
    ∃ o ∈ db.admins, o.activeOwner = true ∧ o.id ≠ id := by
  by_contra hno
  have hall : ∀ o ∈ db.admins.filter Admin.activeOwner, o.id = id := by
    intro o ho
    obtain ⟨hmem, hown⟩ := mem_filter.mp ho
    by_contra hne
    exact hno ⟨o, hmem, hown, hne⟩
  have hnd : ((db.admins.filter Admin.activeOwner).map Admin.id).Nodup :=
    db.ids.sublist (filter_sublist.map _)
  rw [Database.ownerCount, countP_eq_length_filter] at h
  rcases hl : db.admins.filter Admin.activeOwner with _ | ⟨a, _ | ⟨b, l⟩⟩
  · rw [hl] at h
    exact h (Nat.zero_le 1)
  · rw [hl] at h
    exact h (Nat.le_refl 1)
  · -- two owners would share the id
    rw [hl] at hall hnd
    have hab : a.id = b.id := (hall a (by simp)).trans (hall b (by simp)).symm
    simp [hab] at hnd

/-- An owner is not the administrator whose role was read as another. -/
theorem Database.id_ne_of_roleOf (db : Database) {id : Int} {role : Role}
    (h : db.roleOf id = some role) (hrole : role ≠ .owner) {o : Admin} (ho : o ∈ db.admins)
    (hown : o.activeOwner = true) : o.id ≠ id := by
  intro heq
  rw [Database.roleOf, Option.map_eq_some_iff] at h
  obtain ⟨a, ha, rfl⟩ := h
  have haid : a.id = id := by simpa using find?_some ha
  have hao : a = o :=
    inj_on_of_nodup_map db.ids (mem_of_find?_eq_some ha) ho (haid.trans heq.symm)
  subst hao
  rw [Admin.activeOwner, Bool.and_eq_true, decide_eq_true_eq] at hown
  exact hrole hown.1

/-- A patch that neither demotes nor deactivates leaves an owner one. -/
theorem Database.activeOwner_apply {p : Database.Patch} {a : Admin} (h : a.activeOwner = true)
    (hrole : p.role = none ∨ p.role = some .owner)
    (hact : p.active = none ∨ p.active = some true) : (p.apply a).activeOwner = true := by
  rw [Admin.activeOwner, Bool.and_eq_true, decide_eq_true_eq] at h ⊢
  unfold Database.Patch.apply
  constructor
  · rcases hrole with hr | hr <;> rw [hr]
    · exact h.1
    · rfl
  · rcases hact with hr | hr <;> rw [hr]
    · exact h.2
    · rfl

/-- An update of another administrator, or one that leaves an owner one,
leaves the owner in the table. -/
theorem Database.exists_owner_update (db : Database) {o : Admin} (ho : o ∈ db.admins)
    (hown : o.activeOwner = true) (id : Int) (p : Database.Patch)
    (h : o.id ≠ id ∨ (p.role = none ∨ p.role = some .owner)
      ∧ (p.active = none ∨ p.active = some true)) :
    ∃ o' ∈ (db.update id p).admins, o'.activeOwner = true ∧ o'.id = o.id := by
  refine ⟨if o.id = id then p.apply o else o, mem_map.mpr ⟨o, ho, rfl⟩, ?_, ?_⟩
  · split
    next hid =>
      rcases h with h | ⟨hr, ha⟩
      · exact absurd hid h
      · exact Database.activeOwner_apply hown hr ha
    · exact hown
  · split <;> rfl

/-- **One request moves.** The lock stays as it is, or was free or its own;
and some active owner is threatened by none. -/
theorem Guarded.goOn (h : Guarded s) {r' : Request} {lock : Option Nat} {db : Database}
    (hcrit : r'.critical = true → lock = some i)
    (hlock : lock = s.lock ∨ s.lock = none ∨ s.lock = some i)
    (howner : ∃ o ∈ db.admins, o.activeOwner = true ∧ r'.threatens ≠ some o.id
      ∧ ∀ j r, j ≠ i → s.requests[j]? = some r → r.threatens ≠ some o.id) :
    Guarded ({ s with db }.goOn i r' lock) := by
  constructor
  · intro j q hj hq
    change (s.requests.set i r')[j]? = some q at hj
    rw [getElem?_set] at hj
    split at hj
    next hij =>
      split at hj
      · cases hj
        exact hij ▸ hcrit hq
      · cases hj
    next hij =>
      have hs := h.locked j q hj hq
      rcases hlock with hl | hl | hl
      · exact hl.trans hs
      · rw [hl] at hs
        cases hs
      · rw [hl] at hs
        exact absurd (Option.some.inj hs) hij
  · obtain ⟨o, ho, hown, hr', hoth⟩ := howner
    refine ⟨o, ho, hown, fun q hq => ?_⟩
    rcases Run.mem_set_cases hq with rfl | ⟨j, hji, hj⟩
    · exact hr'
    · exact hoth j q hji hj

/-- Where a request holds the lock, no other is about to take an owner. -/
theorem Guarded.alone (h : Guarded s) (hlock : s.lock = some i) (id : Int) (j : Nat) (r : Request)
    (hji : j ≠ i) (hj : s.requests[j]? = some r) : r.threatens ≠ some id := by
  intro ht
  have hs := h.locked j r hj (Request.critical_of_threatens ht)
  rw [hlock] at hs
  exact hji (Option.some.inj hs).symm

/-- **The next statement of a request keeps the guard**, its overwrite being
harmless where it is one. -/
theorem Guarded.advance (h : Guarded s) (hi : s.requests[i]? = some r)
    (hok : Harmless s (.advance i)) (hs : s.advance i r = some s') : Guarded s' := by
  obtain ⟨o, ho, hown, hfree⟩ := h.owner
  have hri : r.threatens ≠ some o.id := hfree r (mem_of_getElem? hi)
  have hoth : ∀ j q, j ≠ i → s.requests[j]? = some q → q.threatens ≠ some o.id :=
    fun j q _ hj => hfree q (mem_of_getElem? hj)
  -- a request that goes on without writing and without a new threat
  have hq : ∀ (r' : Request) (lock : Option Nat),
      (r'.critical = true → lock = some i) → (lock = s.lock ∨ s.lock = none ∨ s.lock = some i) →
      r'.threatens ≠ some o.id → Guarded (s.goOn i r' lock) :=
    fun r' lock hcrit hlock hthreat => h.goOn hcrit hlock ⟨o, ho, hown, hthreat, hoth⟩
  have hends : ∀ {ans : Answer} {lock : Option Nat},
      (lock = s.lock ∨ s.lock = none ∨ s.lock = some i) → Guarded (s.goOn i (.answered ans) lock) :=
    fun hlock => hq _ _ nofun hlock nofun
  -- where the count was above one, an owner beside the one at stake is left
  have hbes : ∀ {r' : Request} {id : Int}, s.lock = some i → ¬ s.db.ownerCount ≤ 1 →
      (∀ x, r'.threatens = some x → x = id) → Guarded (s.goOn i r' s.lock) := by
    intro r' id hlock hcnt hid
    obtain ⟨a, ha, haown, hne⟩ := s.db.exists_other_owner hcnt id
    exact h.goOn (fun _ => hlock) (.inl rfl)
      ⟨a, ha, haown, fun ht => hne (hid a.id ht), h.alone hlock a.id⟩
  unfold Panel.advance at hs
  cases r with
  | addLook u passwordHash role now =>
    dsimp only at hs
    split at hs <;> cases hs
    · exact hq _ _ nofun (.inl rfl) nofun
    · exact hq _ _ nofun (.inl rfl) nofun
  | addUpdate id passwordHash role =>
    simp only [Harmless, hi] at hok
    cases hs
    refine h.goOn nofun (.inl rfl) ?_
    have hupd : ∀ a ∈ s.db.admins, a.activeOwner = true →
        (∀ j q, j ≠ i → s.requests[j]? = some q → q.threatens ≠ some a.id) →
        (a.id ≠ id ∨ role = .owner) →
        ∃ o' ∈ (s.db.update id ⟨some passwordHash, some role, some true⟩).admins,
          o'.activeOwner = true ∧ (Request.answered (.created id)).threatens ≠ some o'.id
            ∧ ∀ j q, j ≠ i → s.requests[j]? = some q → q.threatens ≠ some o'.id := by
      intro a ha haown hafree hcase
      obtain ⟨o', ho', hown', hid⟩ := s.db.exists_owner_update ha haown id
        ⟨some passwordHash, some role, some true⟩
        (hcase.imp_right fun hr => ⟨.inr (congrArg some hr), .inr rfl⟩)
      refine ⟨o', ho', hown', nofun, ?_⟩
      rw [hid]
      exact hafree
    rcases hok.2 with hr | hno | ⟨a, ha, hne, haown, hafree⟩
    · exact hupd o ho hown hoth (.inr hr)
    · refine hupd o ho hown hoth (.inl fun hid => ?_)
      rw [hno o ho hid] at hown
      cases hown
    · exact hupd a ha haown (fun j q _ hj => hafree q (mem_of_getElem? hj)) (.inl hne)
  | addInsert u passwordHash role now =>
    dsimp only at hs
    split at hs <;> cases hs
    next db hdb =>
      refine h.goOn nofun (.inl rfl) ⟨o, ?_, hown, nofun, hoth⟩
      unfold Database.insert at hdb
      split at hdb
      · cases hdb
      · cases hdb
        exact mem_append_left _ ho
    · exact hq _ _ nofun (.inl rfl) nofun
  | editLook id edit =>
    dsimp only at hs
    split at hs
    next hn =>
      split at hs <;> cases hs
      next current hcur =>
        refine hq _ _ (fun _ => rfl) (.inr (.inl hn)) (fun ht => ?_)
        obtain ⟨hc, ht⟩ := Option.ite_none_right_eq_some.mp ht
        exact s.db.id_ne_of_roleOf hcur hc.1 ho hown (Option.some.inj ht).symm
      · exact hends (.inl hn.symm)
    · cases hs
  | editDemote id edit current | editDeactivate id edit current =>
    have hlock : s.lock = some i := h.locked i _ hi rfl
    dsimp only at hs
    split at hs <;> cases hs
    · exact hends (.inr (.inr hlock))
    next hpass =>
      by_cases hcnt : s.db.ownerCount ≤ 1
      · refine hq _ _ (fun _ => hlock) (.inl rfl) (fun ht => hri ?_)
        simp only [Request.threatens] at ht ⊢
        grind
      · exact hbes hlock hcnt fun x ht =>
          (Option.some.inj (Option.ite_none_right_eq_some.mp ht).2).symm
  | editWrite id edit =>
    have hlock : s.lock = some i := h.locked i _ hi rfl
    cases hs
    have hcase : o.id ≠ id ∨ (edit.role = none ∨ edit.role = some .owner)
        ∧ (edit.active = none ∨ edit.active = some true) := by
      by_cases hid : o.id = id
      · refine .inr ?_
        simp only [Request.threatens, hid] at hri
        split at hri
        · exact absurd rfl hri
        next hno =>
          simp only [Bool.or_eq_true, not_or, Edit.demotes, Edit.deactivates,
            decide_eq_true_eq] at hno
          constructor
          · rcases hrole : edit.role with _ | role
            · exact .inl rfl
            · rw [hrole] at hno
              exact .inr (congrArg some (by simpa using hno.1))
          · rcases hact : edit.active with _ | _ | _
            · exact .inl rfl
            · exact absurd hact hno.2
            · exact .inr rfl
      · exact .inl hid
    obtain ⟨o', ho', hown', hid⟩ := s.db.exists_owner_update ho hown id
      ⟨edit.passwordHash, edit.role, edit.active⟩ hcase
    refine h.goOn nofun (.inr (.inr hlock)) ⟨o', ?_, hown', nofun, h.alone hlock o'.id⟩
    split <;> exact ho'
  | removeLook id =>
    dsimp only at hs
    split at hs
    next hn =>
      split at hs <;> cases hs
      · exact hq _ _ (fun _ => rfl) (.inr (.inl hn)) nofun
      next role hne hrole =>
        refine hq _ _ (fun _ => rfl) (.inr (.inl hn)) (fun ht => ?_)
        exact s.db.id_ne_of_roleOf hrole (fun hr => hne (hr ▸ rfl)) ho hown
          (Option.some.inj ht).symm
      · exact hends (.inl hn.symm)
    · cases hs
  | removeCount id =>
    have hlock : s.lock = some i := h.locked i _ hi rfl
    dsimp only at hs
    split at hs <;> cases hs
    · exact hends (.inr (.inr hlock))
    next hcnt => exact hbes hlock hcnt fun x ht => (Option.some.inj ht).symm
  | removeWrite id =>
    have hlock : s.lock = some i := h.locked i _ hi rfl
    cases hs
    have hne : o.id ≠ id := fun heq => hri (congrArg some heq.symm)
    refine h.goOn nofun (.inr (.inr hlock))
      ⟨o, mem_filter.mpr ⟨ho, by simpa using hne⟩, hown, nofun, hoth⟩
  | answered => cases hs

/-- **Every harmless step keeps the guard.** -/
theorem Guarded.step (h : Guarded s) (hok : Harmless s e) (hs : step hash s e = some s') :
    Guarded s' := by
  obtain ⟨o, ho, hown, hfree⟩ := h.owner
  -- a request that arrives holds no lock and threatens nobody
  have harr : ∀ r : Request, r.critical = false →
      Guarded { s with requests := s.requests ++ [r] } := by
    intro r hr
    constructor
    · intro i q hi hq
      rw [getElem?_append] at hi
      split at hi
      · exact h.locked i q hi hq
      · have hqr := mem_singleton.mp (mem_of_getElem? hi)
        rw [hqr, hr] at hq
        cases hq
    · refine ⟨o, ho, hown, fun q hq => ?_⟩
      rcases mem_append.mp hq with hq | hq
      · exact hfree q hq
      · rw [mem_singleton.mp hq]
        intro ht
        rw [Request.critical_of_threatens ht] at hr
        cases hr
  unfold Administrators.step at hs
  cases e with
  | tick now =>
    dsimp only at hs
    split at hs <;> cases hs
    exact ⟨h.locked, h.owner⟩
  | add u pw role =>
    cases hs
    exact harr _ (by split <;> rfl)
  | edit | remove =>
    cases hs
    exact harr _ rfl
  | advance i =>
    dsimp only at hs
    split at hs
    next r hi => exact h.advance hi hok hs
    · cases hs
  | fail i =>
    dsimp only at hs
    split at hs <;> cases hs
    rename_i r _ hi
    refine h.goOn nofun ?_ ⟨o, ho, hown, nofun, fun j q _ hj => hfree q (mem_of_getElem? hj)⟩
    split
    next hcrit => exact .inr (.inr (h.locked i r hi hcrit))
    · exact .inl rfl
  | rehash id passwordHash =>
    cases hs
    obtain ⟨o', ho', hown', hid⟩ := s.db.exists_owner_update ho hown id
      ⟨some passwordHash, none, none⟩ (.inr ⟨.inl rfl, .inl rfl⟩)
    exact ⟨h.locked, o', ho', hown', fun r hr => hid ▸ hfree r hr⟩
  | createSession adminId tokenHash ttl =>
    dsimp only at hs
    split at hs
    · cases hs
    · split at hs <;> cases hs
      next db hdb =>
        refine ⟨h.locked, o, ?_, hown, hfree⟩
        unfold Database.insertSession at hdb
        split at hdb
        · split at hdb <;> cases hdb
          exact ho
        · cases hdb
      · exact h
  | deleteSession tokenHash =>
    cases hs
    exact ⟨h.locked, o, ho, hown, hfree⟩

/-! ## Old sessions end -/

/-- **The sessions in the table were issued**, each under its own token. -/
structure Recorded (s : Panel) : Prop where
  issued : ∀ x ∈ s.db.sessions, x ∈ s.issued
  tokens : (s.issued.map Session.tokenHash).Nodup

/-- A statement of a request only ever drops sessions. -/
theorem sessions_advance (hs : s.advance i r = some s') :
    s'.issued = s.issued ∧ ∀ x ∈ s'.db.sessions, x ∈ s.db.sessions := by
  unfold Panel.advance at hs
  cases r with
  | addLook | addUpdate =>
    dsimp only at hs
    grind [Panel.goOn, Database.update]
  | addInsert u passwordHash role now =>
    dsimp only at hs
    split at hs <;> cases hs
    next db hdb =>
      refine ⟨rfl, fun x hx => ?_⟩
      unfold Database.insert at hdb
      split at hdb <;> cases hdb
      exact hx
    · exact ⟨rfl, fun x hx => hx⟩
  | editLook | editDemote | editDeactivate | removeLook | removeCount =>
    dsimp only at hs
    grind [Panel.goOn]
  | editWrite id edit =>
    cases hs
    refine ⟨rfl, fun x hx => ?_⟩
    split at hx
    · exact mem_of_mem_filter hx
    · exact hx
  | removeWrite id =>
    cases hs
    exact ⟨rfl, fun x hx => mem_of_mem_filter hx⟩
  | answered => cases hs

/-- **What a step does to the sessions**: it issues none and keeps some of
them, or it issues one under a new token. -/
theorem sessions_step (hs : step hash s e = some s') :
    (s'.issued = s.issued ∧ ∀ x ∈ s'.db.sessions, x ∈ s.db.sessions)
      ∨ ∃ x, s'.issued = s.issued ++ [x] ∧ (∀ y ∈ s.issued, y.tokenHash ≠ x.tokenHash)
        ∧ ∀ y ∈ s'.db.sessions, y ∈ s.db.sessions ∨ y = x := by
  unfold step at hs
  cases e with
  | tick now =>
    dsimp only at hs
    split at hs <;> cases hs
    exact .inl ⟨rfl, fun x hx => hx⟩
  | add | edit | remove | rehash =>
    cases hs
    exact .inl ⟨rfl, fun x hx => hx⟩
  | advance i =>
    dsimp only at hs
    split at hs
    · exact .inl (sessions_advance hs)
    · cases hs
  | fail i =>
    dsimp only at hs
    split at hs <;> cases hs
    exact .inl ⟨rfl, fun x hx => hx⟩
  | createSession adminId tokenHash ttl =>
    dsimp only at hs
    split at hs
    · cases hs
    next hnew =>
      simp only [any_eq_true, decide_eq_true_eq, not_exists, not_and] at hnew
      split at hs <;> cases hs
      next db hdb =>
        refine .inr ⟨_, rfl, hnew, fun y hy => ?_⟩
        unfold Database.insertSession at hdb
        split at hdb
        · split at hdb <;> cases hdb
          rcases mem_append.mp hy with hy | hy
          · exact .inl (mem_of_mem_filter hy)
          · exact .inr (mem_singleton.mp hy)
        · cases hdb
      · exact .inl ⟨rfl, fun x hx => hx⟩
  | deleteSession tokenHash =>
    cases hs
    exact .inl ⟨rfl, fun x hx => mem_of_mem_filter hx⟩

/-- Every step keeps the record of the sessions. -/
theorem Recorded.step (h : Recorded s) (hs : step hash s e = some s') : Recorded s' := by
  rcases sessions_step hash hs with ⟨hiss, hsub⟩ | ⟨x, hiss, hnew, hsub⟩
  · exact ⟨fun y hy => hiss ▸ h.issued y (hsub y hy), hiss ▸ h.tokens⟩
  · constructor
    · intro y hy
      rw [hiss]
      rcases hsub y hy with hy | rfl
      · exact mem_append_left _ (h.issued y hy)
      · exact mem_append_right _ (mem_singleton_self _)
    · rw [hiss, map_append]
      refine h.tokens.append (nodup_singleton _) ?_
      simp only [map_cons, map_nil, disjoint_singleton, mem_map, not_exists, not_and]
      exact hnew

/-- A token that was drawn and has no session. -/
def Dead (tokenHash : String) (s : Panel) : Prop :=
  (∃ x ∈ s.issued, x.tokenHash = tokenHash) ∧ ∀ x ∈ s.db.sessions, x.tokenHash ≠ tokenHash

/-- **A dead token stays dead**: no step issues it again. -/
theorem Dead.step (h : Dead tokenHash s) (hs : step hash s e = some s') : Dead tokenHash s' := by
  obtain ⟨⟨x, hx, hxt⟩, hn⟩ := h
  rcases sessions_step hash hs with ⟨hiss, hsub⟩ | ⟨y, hiss, hnew, hsub⟩
  · exact ⟨⟨x, hiss ▸ hx, hxt⟩, fun z hz => hn z (hsub z hz)⟩
  · refine ⟨⟨x, by rw [hiss]; exact mem_append_left _ hx, hxt⟩, fun z hz => ?_⟩
    rcases hsub z hz with hz | rfl
    · exact hn z hz
    · exact fun heq => hnew x hx (hxt.trans heq.symm)

/-- A dead token authenticates as nobody. -/
theorem Dead.session_eq_none (h : Dead tokenHash s) (now : Int) :
    s.db.session tokenHash now = none := by
  have hf : (s.db.sessions.find? fun x =>
      decide (x.tokenHash = tokenHash ∧ now < x.expiresAt)) = none := by
    rw [find?_eq_none]
    intro x hx
    simpa using fun ht => absurd ht (h.2 x hx)
  rw [Database.session, hf]

/-- **A revoking step that does no harm leaves no session** of the
administrator it revokes. -/
theorem sessions_of_revokes (hok : Harmless s e) (hs : step hash s e = some s') {id : Int}
    (hrev : revokes s e = some id) :
    s'.issued = s.issued ∧ ∀ x ∈ s'.db.sessions, x ∈ s.db.sessions ∧ x.adminId ≠ id := by
  cases e with
  | advance i =>
    simp only [revokes] at hrev
    split at hrev
    next id' passwordHash role hi =>
      cases hrev
      simp only [step, hi, Panel.advance, Option.some.injEq] at hs
      simp only [Harmless, hi] at hok
      subst hs
      exact ⟨rfl, fun x hx => ⟨hx, hok.1 x hx⟩⟩
    next id' edit hi =>
      split at hrev
      next hends =>
        cases hrev
        simp only [step, hi, Panel.advance, Option.some.injEq] at hs
        subst hs
        refine ⟨rfl, fun x hx => ?_⟩
        rw [if_pos hends] at hx
        obtain ⟨hmem, hne⟩ := mem_filter.mp hx
        exact ⟨hmem, by simpa using hne⟩
      · cases hrev
    next id' hi =>
      cases hrev
      simp only [step, hi, Panel.advance, Option.some.injEq] at hs
      subst hs
      refine ⟨rfl, fun x hx => ?_⟩
      obtain ⟨hmem, hne⟩ := mem_filter.mp hx
      exact ⟨hmem, by simpa using hne⟩
    · cases hrev
  | tick | add | edit | remove | fail | rehash | createSession | deleteSession => cases hrev

/-- **A revoked session is dead** right after the step that revokes it. -/
theorem Recorded.dead_of_revokes (h : Recorded s) (hok : Harmless s e)
    (hs : Administrators.step hash s e = some s') {x : Session} (hx : x ∈ s.issued)
    (hrev : revokes s e = some x.adminId) : Dead x.tokenHash s' := by
  obtain ⟨hiss, hsub⟩ := sessions_of_revokes hash hok hs hrev
  refine ⟨⟨x, hiss ▸ hx, rfl⟩, fun y hy heq => ?_⟩
  obtain ⟨hmem, hne⟩ := hsub y hy
  exact hne (congrArg Session.adminId (inj_on_of_nodup_map h.tokens (h.issued y hmem) hx heq))

/-! ## Over a run -/

/-- **An owner remains and revoked sessions end**, over every run whose
overwrites are harmless: in the state it ends in some active administrator is
an owner, and wherever one of its steps revoked an administrator, no session
of theirs that existed at that step authenticates as anyone. -/
theorem owner_remains_and_sessions_end {db : Database}
    (howner : ∃ o ∈ db.admins, o.activeOwner = true) {clock : Int} {es : List Event} {s : Panel}
    (hrun : Run.exec (step hash) (Panel.start db clock) es = some s)
    (hok : Run.Meets (step hash) Harmless (Panel.start db clock) es) :
    (∃ o ∈ s.db.admins, o.activeOwner = true)
      ∧ ∀ before e after s₁, es = before ++ e :: after →
        Run.exec (step hash) (Panel.start db clock) before = some s₁ →
        ∀ x ∈ s₁.issued, revokes s₁ e = some x.adminId →
        ∀ now, s.db.session x.tokenHash now = none := by
  have hstart : Guarded (Panel.start db clock) := by
    obtain ⟨o, ho, hown⟩ := howner
    exact ⟨fun i r hi => absurd (List.mem_of_getElem? hi) List.not_mem_nil, o, ho, hown,
      nofun⟩
  constructor
  · obtain ⟨o, ho, hown, -⟩ := (Run.invariant_of_meets
      (fun _ _ _ h hok hstep => Guarded.step hash h hok hstep) hrun hok hstart).owner
    exact ⟨o, ho, hown⟩
  · rintro before e after s₁ rfl hbefore x hx hrev now
    have hrec : Recorded s₁ := Run.invariant (fun _ _ _ h hstep => Recorded.step hash h hstep)
      hbefore ⟨fun x hx => hx, db.tokens⟩
    obtain ⟨s₂, hstep, hafter⟩ := Run.exec_cons_eq_some.mp (by
      rw [Run.exec_append, hbefore] at hrun
      exact hrun)
    have hdead : Dead x.tokenHash s₂ :=
      hrec.dead_of_revokes hash (Run.meets_of_append hok hbefore).1 hstep hx hrev
    exact (Run.invariant (fun _ _ _ h hstep => Dead.step hash h hstep) hafter
      hdead).session_eq_none now

/-- **A token is one administrator's**, in every run: it authenticates as nobody else, and
once its session is gone never again. -/
theorem token_of_one_admin {db : Database} {clock : Int} {es : List Event} {s : Panel}
    (hrun : Run.exec (step hash) (Panel.start db clock) es = some s) :
    ∀ x ∈ s.issued, (∀ now a, s.db.session x.tokenHash now = some a → a.id = x.adminId)
      ∧ (x ∉ s.db.sessions → ∀ es' s', Run.exec (step hash) s es' = some s' →
        ∀ now, s'.db.session x.tokenHash now = none) := by
  intro x hx
  have hrec : Recorded s := Run.invariant (fun _ _ _ h hstep => Recorded.step hash h hstep)
    hrun ⟨fun _ h => h, db.tokens⟩
  have heq : ∀ y ∈ s.db.sessions, y.tokenHash = x.tokenHash → y = x := fun y hy =>
    inj_on_of_nodup_map hrec.tokens (hrec.issued y hy) hx
  refine ⟨fun now a ha => ?_, fun hgone es' s' hrun' now => ?_⟩
  · unfold Database.session at ha
    grind
  · have hdead : Dead x.tokenHash s := ⟨⟨x, hx, rfl⟩, fun y hy h => hgone (heq y hy h ▸ hy)⟩
    exact (Run.invariant (fun _ _ _ h hstep => Dead.step hash h hstep) hrun'
      hdead).session_eq_none now

namespace Sample

/-- A database with one owner, logged in. -/
def oneOwner : Database where
  admins := [⟨1, "owner", "first", .owner, true, 0⟩]
  sessions := [⟨"s1", 1, 0, 43200⟩]
  ids := by decide
  names := by decide
  references := by decide
  tokens := by decide

/-- A second owner is added and the first one's password replaced. -/
def addSecond : List Event :=
  [.add "second" "correct horse battery" .owner, .advance 0, .advance 0,
    .edit 1 none (some "a brand new password") none, .advance 1, .advance 1, .advance 1, .advance 1]

/-- What holds after a second owner is added and the first one's password
replaced. -/
theorem owner_remains_addSecond :
    ∃ s, Run.exec (step id) (Panel.start oneOwner 0) addSecond = some s
      ∧ (∃ o ∈ s.db.admins, o.activeOwner = true) ∧ s.db.session "s1" 1 = none := by
  refine ⟨_, rfl, ?_⟩
  have hfirst : ∃ o ∈ oneOwner.admins, o.activeOwner = true := by decide
  have hok : Run.Meets (step id) Harmless (Panel.start oneOwner 0) addSecond :=
    ⟨trivial, trivial, trivial, trivial, trivial, trivial, trivial, trivial, trivial⟩
  obtain ⟨howner, hends⟩ := owner_remains_and_sessions_end id hfirst rfl hok
  exact ⟨howner, hends (addSecond.take 7) (.advance 1) [] _ rfl rfl ⟨"s1", 1, 0, 43200⟩
    (List.mem_singleton_self _) rfl 1⟩

theorem token_of_one_admin_addSecond :
    ∃ s, Run.exec (step id) (Panel.start oneOwner 0) addSecond = some s
      ∧ ∀ es' s', Run.exec (step id) s es' = some s' → ∀ now, s'.db.session "s1" now = none := by
  refine ⟨_, rfl, ?_⟩
  have hrun : Run.exec (step id) (Panel.start oneOwner 0) addSecond = some _ := rfl
  exact (token_of_one_admin id hrun ⟨"s1", 1, 0, 43200⟩ (mem_singleton_self _)).2 (by decide)

/-- The owner's own name is added again, in capitals, as a viewer. -/
def addTaken : List Event := [.add "OWNER" "correct horse battery" .viewer, .advance 0, .advance 0]

/-- **Adding a name that is taken** leaves no active owner, and leaves the
session of the administrator whose password it replaced authenticating. -/
theorem addTaken_breaks :
    ∃ s₁ s, Run.exec (step id) (Panel.start oneOwner 0) (addTaken.take 2) = some s₁
      ∧ revokes s₁ (.advance 0) = some 1
      ∧ Run.exec (step id) (Panel.start oneOwner 0) addTaken = some s
      ∧ (¬ ∃ o ∈ s.db.admins, o.activeOwner = true)
      ∧ (s.db.session "s1" 1).isSome = true :=
  ⟨_, _, rfl, rfl, rfl, by decide, by decide⟩

end Sample

end Administrators
