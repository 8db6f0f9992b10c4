import ProxyControl.Checks
import ProxyControl.JsonText
import ProxyControl.Run

/-!
# Traffic counted from the access log

The NaiveProxy manager has no counters of its own: it reads the access log the
proxy writes, one JSON line per finished connection, and adds the bytes of a
line to the counters of its user. The log is rotated by renaming it. Each file
is known by its identity, and the database remembers of each how far it was
read, a digest of what was read, and whether the reader is inside a line too
long to be one.

A pass looks up the files, reads of each what the budgets allow, and files the
new position together with what its lines add in one transaction; it then
forgets the files that are gone. Files grow, are renamed and disappear at any
point of a pass.

The specification is a history: `consumed` has of each file the bytes between
the stored positions before and after each transaction, every byte with the
users who were managed in that pass. A complete line of that history is worth
what `parse` yields for it, and `counters_exact` says that the counters are
the sum over the lines, each of which is counted once. It has three conditions,
and all are needed: a carriage return stands only at the end of a line, since
the reader splits there as well; the sum stays below the counters' bound, since
a line that would take a counter over it is passed over; and a file that was
moved away and forgotten does not come back among the log's.
-/

namespace AccessLog

open List
open Checks
open Table
open Json

/-! ## Lines

A line ends with its line feed. Bytes are read in pieces, so what was read of
a line so far is carried from one piece to the next. -/

def lf : UInt8 := 10

def cr : UInt8 := 13

section Lines

variable {τ : Type}

/-- The lines that end in a piece, each with the tag of its line feed, where
`line` is what was read of the first one before. -/
def lines (line : List UInt8) : List (UInt8 × τ) → List (List UInt8 × τ)
  | [] => []
  | (b, tag) :: rest => if b = lf then (line, tag) :: lines [] rest else lines (line ++ [b]) rest

/-- What a piece leaves of a line that has not ended. -/
def carry (line : List UInt8) : List UInt8 → List UInt8
  | [] => line
  | b :: rest => if b = lf then carry [] rest else carry (line ++ [b]) rest

/-- The bytes of a piece, all with one tag. -/
def tagged (tag : τ) (bytes : List UInt8) : List (UInt8 × τ) := bytes.map (·, tag)

end Lines

/-- A line without the carriage return before its line feed. -/
def chomp (line : List UInt8) : List UInt8 :=
  if line.getLast? = some cr then line.dropLast else line

/-- `splitlines_bytes`: lines end at a line feed, at a carriage return, or at
both together. -/
def splitLinesFrom (line : List UInt8) : List UInt8 → List (List UInt8)
  | [] => if line = [] then [] else [line]
  | b :: rest =>
    if b = lf then line :: splitLinesFrom [] rest
    else if b = cr then
      match rest with
      | [] => [line]
      | next :: rest' =>
        if next = lf then line :: splitLinesFrom [] rest'
        else line :: splitLinesFrom [] (next :: rest')
    else splitLinesFrom (line ++ [b]) rest

def splitLines (data : List UInt8) : List (List UInt8) := splitLinesFrom [] data

/-! ## The collector -/

inductive Error
  | runtime (message : String)
  | other (message : String)
deriving DecidableEq, Repr

def maxCounter : Nat := 2 ^ 63 - 1

def redactionSentinel : String := "invalid"

/-- **What a collector runs with**: the name of the log, its bounds, how bytes
are decoded, and a digest without collisions. -/
structure Site (Digest : Type) where
  logName : String
  maxLineBytes : Nat
  maxReadBytes : Nat
  maxVerifyBytes : Nat
  maxRotations : Nat
  maxDirectoryEntries : Nat
  line_lt_read : maxLineBytes < maxReadBytes
  rotations_lt_entries : maxRotations < maxDirectoryEntries
  floats : Floats
  decode : List UInt8 → Option (List Char)
  sha256 : List UInt8 → Digest
  sha256_injective : Function.Injective sha256

/-- The device and the inode of a file. -/
abbrev Identity := Nat × Nat

structure FileRow (Digest : Type) where
  offset : Nat
  discarding : Bool
  fileSize : Option Nat
  consumedDigest : Option Digest
deriving DecidableEq, Repr

/-- Upload and download. -/
abbrev Amount := ℕ × ℕ

structure Database (Digest : Type) where
  files : List (Identity × FileRow Digest)
  counters : List (String × Amount)
  /-- The row of `accounting_state`. -/
  lost : Bool
deriving DecidableEq, Repr

/-- The log directory: which file has which name, and what the files hold. A
file that lost its name keeps its identity. -/
structure Directory where
  entries : List (String × Identity)
  contents : List (Identity × List UInt8)
deriving DecidableEq, Repr

variable {Digest : Type} {username : String}

def asI64 (value : Nat) : Except Error Nat :=
  if value < 2 ^ 63 then .ok value
  else .error (.other "Python int too large to convert to SQLite INTEGER")

def openRegular (dir : Directory) (name : String) : Except Error (Identity × List UInt8) :=
  match find dir.entries name with
  | none => .error (.runtime "accounting log unavailable or unsafe")
  | some identity =>
    match find dir.contents identity with
    | none => .error (.runtime "accounting log unavailable or unsafe")
    | some content => .ok (identity, content)

/-! ### Discovery -/

def stripFront (front text : List Char) : Option (List Char) :=
  if front.isPrefixOf text then some (text.drop front.length) else none

def stripBack (back text : List Char) : Option (List Char) :=
  if back.isSuffixOf text then some (text.take (text.length - back.length)) else none

/-- The last dot of a name and what follows it, unless it is at an end. -/
def suffixOf (name : List Char) : List Char :=
  let extension := name.reverse.takeWhile (· != '.')
  if extension.length + 1 < name.length ∧ extension ≠ [] then '.' :: extension.reverse else []

def rotationPattern : List Char := "dddd-dd-ddTdd-dd-dd.ddd-".toList

def matchesPattern (pattern text : List Char) : Bool :=
  (pattern.zip text).all fun (p, b) => if p = 'd' then b.isDigit else p = b

/-- `access-YYYY-MM-DDTHH-MM-SS.mmm-(size|rotate).json` for `access.json`. -/
def isRotation (logName name : String) : Bool :=
  let suffix := suffixOf logName.toList
  let stem := (stripBack suffix logName.toList).getD logName.toList
  match ((stripFront stem name.toList).bind (stripFront ['-'])).bind (stripBack suffix) with
  | none => false
  | some rest =>
    decide (rotationPattern.length ≤ rest.length) && matchesPattern rotationPattern rest &&
      (rest.drop rotationPattern.length == "size".toList
        || rest.drop rotationPattern.length == "rotate".toList)

def isLog (site : Site Digest) (name : String) : Bool :=
  name == site.logName || isRotation site.logName name

/-- The entries that are the active log or one of its rotations. -/
def scan (site : Site Digest) (dir : Directory) : Except Error (List (Bool × String × Identity)) :=
  if site.maxDirectoryEntries < dir.entries.length then
    .error (.runtime "accounting log directory entry limit exceeded")
  else
    .ok ((dir.entries.filter fun e => isLog site e.1).map fun e => (e.1 == site.logName, e.1, e.2))

structure Candidate where
  name : String
  identity : Identity
  active : Bool
deriving DecidableEq, Repr

/-- Of two names of one file the active one is kept, else the smaller. -/
def Candidate.replaces (candidate existing : Candidate) : Bool :=
  candidate.active || (!existing.active && decide (candidate.name < existing.name))

def addCandidate (site : Site Digest) (found : List (Identity × Candidate))
    (entry : Bool × String × Identity) : Except Error (List (Identity × Candidate)) :=
  let candidate : Candidate := ⟨entry.2.1, entry.2.2, entry.1⟩
  let found := if (find found candidate.identity).all candidate.replaces
    then put found candidate.identity candidate else found
  if site.maxRotations + 1 < found.length then
    .error (.runtime "accounting log rotation limit exceeded")
  else .ok found

/-- Rotations before the active log, and these by name. -/
def Candidate.before (a b : Candidate) : Bool :=
  if a.active = b.active then decide (a.name ≤ b.name) else !a.active

def candidates (site : Site Digest) (dir : Directory) : Except Error (List Candidate) := do
  let entries ← scan site dir
  let found ← entries.foldlM (addCandidate site) []
  if found.any fun e => e.2.active then
    pure ((found.map Prod.snd).insertionSort fun a b => a.before b = true)
  else throw (.runtime "active accounting log is missing")

/-- The identities under which log files are found now. -/
def presentIdentities (site : Site Digest) (dir : Directory) : Except Error (List Identity) := do
  let entries ← scan site dir
  let present := (entries.map fun e => e.2.2).dedup
  if site.maxRotations + 1 < present.length then
    throw (.runtime "accounting log rotation limit exceeded")
  else if entries.any fun e => e.1 then pure present
  else throw (.runtime "active accounting log is missing")

/-! ### A line -/

def isConnect (method : Option Json) : Bool :=
  match method with
  | some (.str text) => text == "CONNECT"
  | _ => false

/-- **One access-log line**: a completed CONNECT of a managed user with exact
counters. -/
def parse (site : Site Digest) (raw : List UInt8) (users : List String) :
    Option (String × Amount) := do
  if raw = [] ∨ site.maxLineBytes < raw.length then none
  let raw := if [0xEF, 0xBB, 0xBF].isPrefixOf raw then raw.drop 3 else raw
  match ← (site.decode raw).bind (loads site.floats 128) with
  | .obj object =>
    match find object "request", find object "status", find object "user_id",
        find object "bytes_read", find object "size" with
    | some (.obj request), some (.int status), some (.str username), some (.int upload),
        some (.int download) =>
      let max : Int := maxCounter
      if isConnect (find request "method") = true ∧ 200 ≤ status ∧ status < 300
          ∧ username ∈ users ∧ username ≠ redactionSentinel ∧ 0 ≤ upload ∧ upload ≤ max
          ∧ 0 ≤ download ∧ download ≤ max ∧ upload ≤ max - download then
        some (username, upload.toNat, download.toNat)
      else none
    | _, _, _, _, _ => none
  | _ => none

/-! ### One file -/

/-- How far a piece takes the reader: the bytes it is done with, the complete
lines among them, and whether it stays inside a line too long to be one. -/
structure Advance where
  processedEnd : Nat
  complete : List UInt8
  discarding : Bool
deriving DecidableEq, Repr

def advance (maxLine : Nat) (discarding : Bool) (data : List UInt8) : Advance :=
  let (cursor, processedEnd, discarding) :=
    if discarding then
      match data.findIdx? (· == lf) with
      | none => (0, data.length, true)
      | some newline => (newline + 1, newline + 1, false)
    else (0, 0, false)
  let remaining := data.drop cursor
  let complete := remaining.rdropWhile (· != lf)
  let processedEnd := if 0 < complete.length then cursor + complete.length else processedEnd
  if maxLine < remaining.length - complete.length then ⟨data.length, complete, true⟩
  else ⟨processedEnd, complete, discarding⟩

structure Tally where
  increments : List (String × Amount)
  pendingGlobal : Nat
  accepted : Nat
deriving DecidableEq, Repr

/-- What a table of amounts has for a user. -/
def amountOf (table : List (String × Amount)) (username : String) : Amount :=
  (find table username).getD 0

def both (amount : Amount) : ℕ := amount.1 + amount.2

def globalTotal (counters : List (String × Amount)) : ℕ := (counters.map fun e => both e.2).sum

/-- A line that would take a counter, a user or the whole over the bound is
passed over. -/
def overflows (base prior amount : Amount) (total pending : ℕ) : Bool :=
  decide (maxCounter < base.1 + prior.1 + amount.1 ∨ maxCounter < base.2 + prior.2 + amount.2
    ∨ maxCounter < both base + both prior + both amount
    ∨ maxCounter < total + pending + both amount)

def tallyLine (site : Site Digest) (users : List String) (counters : List (String × Amount))
    (tally : Tally) (raw : List UInt8) : Tally :=
  match parse site raw users with
  | none => tally
  | some (username, amount) =>
    let prior := amountOf tally.increments username
    if overflows (amountOf counters username) prior amount (globalTotal counters)
        tally.pendingGlobal then tally
    else
      { increments := put tally.increments username (prior + amount)
        pendingGlobal := tally.pendingGlobal + both amount
        accepted := tally.accepted + 1 }

def tally (site : Site Digest) (users : List String) (counters : List (String × Amount))
    (complete : List UInt8) : Tally :=
  (splitLines complete).foldl (tallyLine site users counters) ⟨[], 0, 0⟩

def addIncrement (counters : List (String × Amount)) (increment : String × Amount) :
    List (String × Amount) :=
  put counters increment.1 (amountOf counters increment.1 + increment.2)

/-- What one file gave: lines counted, bytes read and bytes verified. -/
structure Collected (Digest : Type) where
  db : Database Digest
  accepted : Nat
  read : Nat
  verified : Nat

section Collector

variable [DecidableEq Digest]

def contractViolated : Error := .runtime "accounting log violates rename-only rotation contract"

/-- **The stored position is still that of this file**: what was read is there
unchanged. -/
def verify (site : Site Digest) (row : Option (FileRow Digest)) (content : List UInt8)
    (verifyBudget : Int) : Except Error Unit :=
  match row with
  | none => .ok ()
  | some row =>
    if content.length < row.offset then .error contractViolated
    else if 0 < row.offset ∧ row.consumedDigest = none then
      .error (.runtime "accounting prefix cannot be verified after schema upgrade")
    else if verifyBudget < row.offset then
      .error (.runtime "accounting prefix verification budget exceeded")
    else if row.consumedDigest ≠ some (site.sha256 (content.take row.offset)) then
      .error contractViolated
    else .ok ()

/-- The bytes a pass reads after the stored position. -/
def readAt (content : List UInt8) (offset : Nat) (budget : Int) : List UInt8 :=
  (content.drop offset).take budget.toNat

def collectFile (site : Site Digest) (db : Database Digest) (dir : Directory)
    (candidate : Candidate) (users : List String) (budget verifyBudget : Int) :
    Except Error (Collected Digest) := do
  let (identity, content) ← openRegular dir candidate.name
  if identity ≠ candidate.identity then throw (.runtime "accounting log changed during discovery")
  let _ ← asI64 identity.1
  let _ ← asI64 identity.2
  let row := find db.files identity
  let offset := (row.map FileRow.offset).getD 0
  verify site row content verifyBudget
  let data := readAt content offset budget
  let next := advance site.maxLineBytes (row.any FileRow.discarding) data
  let newOffset := offset + next.processedEnd
  let digest := site.sha256 (content.take offset ++ data.take next.processedEnd)
  let counted := tally site users db.counters next.complete
  let _ ← asI64 newOffset
  let _ ← asI64 content.length
  let files := put db.files identity
    ⟨newOffset, next.discarding, some content.length, some digest⟩
  let counters := counted.increments.foldl addIncrement db.counters
  pure ⟨{ db with files, counters }, counted.accepted, data.length, offset⟩

/-! ### Files that are gone -/

def safelyConsumed (row : FileRow Digest) : Bool :=
  row.fileSize == some row.offset && !row.discarding

/-- Rows of absent files go; one that was not read to its end is a loss, which
stays on record. -/
def pruneConsumedDeleted (site : Site Digest) (db : Database Digest) (dir : Directory) :
    Except Error (Database Digest × Option Error) := do
  let present ← presentIdentities site dir
  let absent := db.files.filter fun e => decide (e.1 ∉ present)
  let lossDetected := absent.any fun e => !safelyConsumed e.2
  pure ({ db with
      files := db.files.filter fun e => decide (e.1 ∈ present)
      lost := db.lost || lossDetected },
    if lossDetected then some (.runtime "persistent accounting loss detected") else none)

/-! ## Passes and what happens around them -/

/-- A pass between two files. -/
structure Pass where
  users : List String
  budget : Int
  verifyBudget : Int
  queue : List Candidate
  accepted : Nat
deriving DecidableEq, Repr

structure State (Digest : Type) where
  dir : Directory
  db : Database Digest
  pass : Option Pass
  /-- How the last pass ended: `none` without an error. -/
  lastError : Option Error
  /-- The history: of each file the bytes the stored positions have passed, each
  with the users of that pass. -/
  consumed : List (Identity × List (UInt8 × List String))
deriving DecidableEq, Repr

inductive Event
  /-- The proxy writes to a file. -/
  | append (identity : Identity) (bytes : List UInt8)
  /-- A file of its own identity appears. -/
  | create (name : String) (identity : Identity)
  /-- A rotation, or another change of a name; a file that had the new one is gone. -/
  | rename (name target : String)
  | delete (name : String)
  /-- A file is truncated, or its content replaced. -/
  | rewrite (identity : Identity) (content : List UInt8)
  /-- A pass starts. -/
  | collect (users : List String)
  /-- The pass reads its next file. -/
  | file
  /-- The pass is through its files. -/
  | prune
  /-- The manager stops, and starts again. -/
  | stop
deriving DecidableEq, Repr

/-- The position the database has for a file. -/
def offsetOf (db : Database Digest) (identity : Identity) : Nat :=
  ((find db.files identity).map FileRow.offset).getD 0

/-- The bytes of a file that a change of the database put behind the stored
position. -/
def passed (dir : Directory) (before after : Database Digest) (identity : Identity) :
    List UInt8 :=
  (((find dir.contents identity).getD []).drop (offsetOf before identity)).take
    (offsetOf after identity - offsetOf before identity)

def historyOf (consumed : List (Identity × List (UInt8 × List String))) (identity : Identity) :
    List (UInt8 × List String) :=
  (find consumed identity).getD []

def State.endPass (s : State Digest) (error : Option Error) : State Digest :=
  { s with pass := none, lastError := error }

def accountingLost : Error := .runtime "persistent accounting loss requires operator recovery"

def step (site : Site Digest) (s : State Digest) : Event → Option (State Digest)
  | .append identity bytes =>
    (find s.dir.contents identity).map fun content =>
      { s with dir := { s.dir with
          contents := put s.dir.contents identity (content ++ bytes) } }
  | .create name identity =>
    if find s.dir.entries name = none ∧ find s.dir.contents identity = none then
      some { s with dir :=
        { entries := s.dir.entries ++ [(name, identity)]
          contents := put s.dir.contents identity [] } }
    else none
  | .rename name target =>
    (find s.dir.entries name).map fun identity =>
      { s with dir := { s.dir with
          entries := put (erase s.dir.entries name) target identity } }
  | .delete name =>
    some { s with dir := { s.dir with entries := erase s.dir.entries name } }
  | .rewrite identity content =>
    if (find s.dir.contents identity).isSome then
      some { s with dir := { s.dir with contents := put s.dir.contents identity content } }
    else none
  | .collect users =>
    if s.pass = none then
      if s.db.lost then some (s.endPass (some accountingLost))
      else match candidates site s.dir with
        | .error error => some (s.endPass (some error))
        | .ok queue =>
          some { s with pass := some ⟨users, site.maxReadBytes, site.maxVerifyBytes, queue, 0⟩ }
    else none
  | .file =>
    match s.pass with
    | some ⟨users, budget, verifyBudget, candidate :: queue, accepted⟩ =>
      match collectFile site s.db s.dir candidate users budget verifyBudget with
      | .error error => some (s.endPass (some error))
      | .ok got =>
        let bytes := tagged users (passed s.dir s.db got.db candidate.identity)
        some { s with
          db := got.db
          consumed := put s.consumed candidate.identity
            (historyOf s.consumed candidate.identity ++ bytes)
          pass := some ⟨users, budget - got.read, verifyBudget - got.verified, queue,
            accepted + got.accepted⟩ }
    | _ => none
  | .prune =>
    match s.pass with
    | some ⟨_, _, _, [], _⟩ =>
      match pruneConsumedDeleted site s.db s.dir with
      | .error error => some (s.endPass (some error))
      | .ok (db, error) => some ({ s with db }.endPass error)
    | _ => none
  | .stop => some (s.endPass none)

end Collector

/-- A collector with an empty database and no file yet. -/
def fresh : State Digest := ⟨⟨[], []⟩, ⟨[], [], false⟩, none, none, []⟩

/-! ## What the history is worth -/

/-- What a line yields for a user. -/
def credit (site : Site Digest) (username : String) (line : List UInt8 × List String) : Amount :=
  match parse site line.1 line.2 with
  | some (user, amount) => if user = username then amount else 0
  | none => 0

/-- What a line yields at all. -/
def volume (site : Site Digest) (line : List UInt8 × List String) : ℕ :=
  match parse site line.1 line.2 with
  | some (_, amount) => both amount
  | none => 0

/-- Every complete line of the consumed parts of the files, up to its line feed. -/
def rawLines (consumed : List (Identity × List (UInt8 × List String))) :
    List (List UInt8 × List String) :=
  consumed.flatMap fun e => lines [] e.2

def consumedLines (consumed : List (Identity × List (UInt8 × List String))) :
    List (List UInt8 × List String) :=
  (rawLines consumed).map fun line => (chomp line.1, line.2)

def creditOf (site : Site Digest) (s : State Digest) (username : String) : Amount :=
  ((consumedLines s.consumed).map (credit site username)).sum

def volumeOf (site : Site Digest) (s : State Digest) : ℕ :=
  ((consumedLines s.consumed).map (volume site)).sum

/-- A carriage return stands at the end of a line only, and not where it makes the line
too long: the reader then skips the line, or not, as it comes to the end of it in one
piece or in two. -/
def Legible (maxLine : Nat) (line : List UInt8) : Prop :=
  cr ∉ line.dropLast ∧ (line.getLast? = some cr → line.length ≠ maxLine + 1)

/-- All lines of the consumed parts are legible. -/
def Unreturned (site : Site Digest) (s : State Digest) : Prop :=
  ∀ line ∈ rawLines s.consumed, Legible site.maxLineBytes line.1

instance (site : Site Digest) (s : State Digest) : Decidable (Unreturned site s) :=
  inferInstanceAs (Decidable (∀ line ∈ rawLines s.consumed,
    cr ∉ line.1.dropLast ∧ (line.1.getLast? = some cr → line.1.length ≠ site.maxLineBytes + 1)))

/-- **A file that was read and is forgotten does not come back among the log's.** -/
def Rotated (site : Site Digest) (s : State Digest) : Event → Prop
  | .rename name target => isLog site target = true → ∀ identity ∈ find s.dir.entries name,
      historyOf s.consumed identity ≠ [] → (find s.db.files identity).isSome
  | _ => True

instance (site : Site Digest) (s : State Digest) : ∀ e, Decidable (Rotated site s e)
  | .rename name target => inferInstanceAs (Decidable (isLog site target = true →
      ∀ identity ∈ find s.dir.entries name,
        historyOf s.consumed identity ≠ [] → (find s.db.files identity).isSome))
  | .append .. | .create .. | .delete _ | .rewrite .. | .collect _ | .file | .prune | .stop =>
    inferInstanceAs (Decidable True)

/-! ## Pieces of lines -/

section Lines

variable {τ : Type} {tag : τ} {line bytes more : List UInt8}

theorem carry_append : carry line (bytes ++ more) = carry (carry line bytes) more := by
  induction bytes generalizing line with
  | nil => rfl
  | cons b bytes ih =>
    rw [cons_append, carry, carry]
    split
    · exact ih
    · exact ih

theorem lines_append {first second : List (UInt8 × τ)} : lines line (first ++ second)
      = lines line first ++ lines (carry line (first.map Prod.fst)) second := by
  induction first generalizing line with
  | nil => rfl
  | cons e first ih =>
    obtain ⟨b, tag⟩ := e
    rw [cons_append, lines, lines, map_cons, carry]
    split
    · rw [ih, cons_append]
    · exact ih

theorem tagged_append : tagged tag (bytes ++ more) = tagged tag bytes ++ tagged tag more :=
  map_append

theorem map_fst_tagged : (tagged tag bytes).map Prod.fst = bytes := by
  rw [tagged, map_map]
  exact map_id bytes

theorem carry_of_ne {b : UInt8} (h : b ≠ lf) : carry line (b :: bytes) = carry (line ++ [b]) bytes :=
  if_neg h

theorem lines_of_ne {b : UInt8} (h : b ≠ lf) :
    lines line (tagged tag (b :: bytes)) = lines (line ++ [b]) (tagged tag bytes) :=
  if_neg h

theorem lines_lf :
    lines line (tagged tag (lf :: bytes)) = (line, tag) :: lines [] (tagged tag bytes) :=
  rfl

theorem carry_of_not_mem (h : lf ∉ bytes) : carry line bytes = line ++ bytes := by
  induction bytes generalizing line with
  | nil => exact (append_nil line).symm
  | cons b bytes ih =>
    rw [mem_cons, not_or] at h
    rw [carry_of_ne (Ne.symm h.1), ih h.2, append_assoc, singleton_append]

theorem lines_of_not_mem (h : lf ∉ bytes) : lines line (tagged tag bytes) = [] := by
  induction bytes generalizing line with
  | nil => rfl
  | cons b bytes ih =>
    rw [mem_cons, not_or] at h
    rw [lines_of_ne (Ne.symm h.1), ih h.2]

/-- What is left after the last line feed was dropped ends with one. -/
theorem carry_rdropWhile (bytes : List UInt8) : carry [] (bytes.rdropWhile (· != lf)) = [] := by
  rcases eq_nil_or_concat (bytes.rdropWhile (· != lf)) with h | ⟨front, b, h⟩
  · rw [h]
    rfl
  · have hne : bytes.rdropWhile (· != lf) ≠ [] := by
      rw [h]
      simp
    have hl := rdropWhile_last_not (· != lf) bytes hne
    have hb : b = lf := by
      simpa [h] using hl
    rw [h, hb, concat_eq_append, carry_append]
    rfl

theorem chomp_of_not_mem (h : cr ∉ line) : chomp line = line :=
  if_neg fun hlast => h (mem_of_getLast? hlast)

theorem chomp_concat (line : List UInt8) : chomp (line ++ [cr]) = line := by
  rw [chomp, if_pos getLast?_concat, dropLast_concat]

/-- A line too long to be one stays so without its carriage return. -/
theorem Legible.lt_length_chomp {maxLine : Nat} (h : Legible maxLine line)
    (hlong : maxLine < line.length) : maxLine < (chomp line).length := by
  unfold chomp
  split
  next hlast =>
    have hne := h.2 hlast
    rw [length_dropLast]
    omega
  · exact hlong

/-- Where a piece ends with a line, its first line goes on from what was read before. -/
theorem exists_mem_lines (hend : carry line bytes = []) (hline : line ≠ []) (tag : τ) :
    ∃ tail, (line ++ tail, tag) ∈ lines line (tagged tag bytes) := by
  induction bytes generalizing line with
  | nil => exact absurd hend hline
  | cons b bytes ih =>
    by_cases hb : b = lf
    · rw [hb, lines_lf]
      exact ⟨[], by rw [append_nil]; exact mem_cons_self⟩
    · rw [carry_of_ne hb] at hend
      obtain ⟨tail, htail⟩ := ih hend (by simp)
      rw [lines_of_ne hb]
      exact ⟨b :: tail, by rwa [append_assoc, singleton_append] at htail⟩

/-- **The reader's lines are the lines**, where carriage returns only end them. -/
theorem splitLinesFrom_eq (hline : cr ∉ line) (hend : carry line bytes = [])
    (h : ∀ l ∈ lines line (tagged tag bytes), cr ∉ l.1.dropLast) :
    (splitLinesFrom line bytes).map (·, tag)
      = (lines line (tagged tag bytes)).map fun l => (chomp l.1, l.2) := by
  fun_induction splitLinesFrom line bytes with
  | case1 => rfl
  | case2 line hne => exact absurd hend hne
  | case3 line rest ih =>
    rw [lines_lf] at h ⊢
    rw [map_cons, map_cons, chomp_of_not_mem hline, ih not_mem_nil hend fun l hl =>
      h l (mem_cons_of_mem _ hl)]
  | case4 line hcr =>
    rw [carry_of_ne hcr] at hend
    simp [carry] at hend
  | case5 line rest hcr ih =>
    rw [lines_of_ne hcr, lines_lf] at h ⊢
    rw [carry_of_ne hcr] at hend
    rw [map_cons, map_cons, chomp_concat, ih not_mem_nil hend fun l hl =>
      h l (mem_cons_of_mem _ hl)]
  | case6 line next rest hne hcr ih =>
    -- the line goes on behind its carriage return
    rw [lines_of_ne hcr, lines_of_ne hne] at h
    rw [carry_of_ne hcr, carry_of_ne hne] at hend
    obtain ⟨tail, htail⟩ := exists_mem_lines hend (by simp) tag
    refine absurd ?_ (h _ htail)
    rw [append_assoc, append_assoc, dropLast_append_of_ne_nil (by simp)]
    simp
  | case7 line b rest hne hcr ih =>
    rw [lines_of_ne hne] at h ⊢
    rw [carry_of_ne hne] at hend
    refine ih ?_ hend h
    rw [mem_append, mem_singleton]
    exact not_or.mpr ⟨hline, Ne.symm hcr⟩

theorem splitLines_eq (hend : carry [] bytes = [])
    (h : ∀ l ∈ lines [] (tagged tag bytes), cr ∉ l.1.dropLast) :
    (splitLines bytes).map (·, tag)
      = (lines [] (tagged tag bytes)).map fun l => (chomp l.1, l.2) :=
  splitLinesFrom_eq not_mem_nil hend h

end Lines

/-! ## One piece

`line` is what the pieces before have left: nothing, unless the reader is
inside a line that is too long already. -/

/-- What has been left is what the reader believes of it. -/
def Carried (maxLine : Nat) (discarding : Bool) (line : List UInt8) : Prop :=
  if discarding then maxLine < line.length else line = []

section Advance

variable {τ : Type} {tag : τ} {maxLine : Nat} {line data : List UInt8} {front rest : List UInt8}

theorem carried_false : Carried maxLine false line ↔ line = [] := Iff.rfl

/-- What a piece does when the bytes `processed` of it are done with. -/
structure Advance.Sound (maxLine : Nat) (line data : List UInt8) (next : Advance) (tag : τ) :
    Prop where
  bound : next.processedEnd ≤ data.length
  carried : Carried maxLine next.discarding (carry line (data.take next.processedEnd))
  ended : carry [] next.complete = []
  lines : ∃ skipped, AccessLog.lines line (tagged tag (data.take next.processedEnd))
      = skipped ++ AccessLog.lines [] (tagged tag next.complete)
    ∧ ∀ l ∈ skipped, maxLine < l.1.length

/-- From the start of a line on: the lines that end are done with, and what
follows them only when it is too long to become a line. -/
theorem sound_ofStart {complete tail : List UInt8} (hend : carry [] complete = [])
    (htail : lf ∉ tail) (maxLine : Nat) (tag : τ) :
    Advance.Sound maxLine [] (complete ++ tail)
      (if maxLine < tail.length then ⟨(complete ++ tail).length, complete, true⟩
        else ⟨complete.length, complete, false⟩) tag := by
  split
  case isTrue hlong =>
    refine ⟨le_refl _, ?_, hend, [], ?_, nofun⟩
    · rw [take_length, carry_append, hend, carry_of_not_mem htail]
      exact hlong
    · rw [take_length, tagged_append, lines_append, map_fst_tagged, hend,
        lines_of_not_mem htail, append_nil, nil_append]
  case isFalse =>
    have htake : (complete ++ tail).take complete.length = complete := take_left
    refine ⟨?_, ?_, hend, [], ?_, nofun⟩
    · simp
    · show carry [] ((complete ++ tail).take complete.length) = []
      rw [htake, hend]
    · rw [htake, nil_append]

/-- The end of a line too long to be one is passed over, and the reader is at
the start of the next line. -/
theorem Advance.Sound.after {next : Advance} (hfront : lf ∉ front) (hline : maxLine < line.length)
    (h : next.Sound maxLine [] rest tag) :
    Advance.Sound maxLine line (front ++ lf :: rest)
      { next with processedEnd := front.length + 1 + next.processedEnd } tag := by
  have htake : (front ++ lf :: rest).take (front.length + 1 + next.processedEnd)
      = (front ++ [lf]) ++ rest.take next.processedEnd := by
    have hcons : front ++ lf :: rest = (front ++ [lf]) ++ rest := by
      rw [append_assoc, singleton_append]
    have hlen : front.length + 1 = (front ++ [lf]).length := by simp
    rw [hcons, hlen, take_length_add_append]
  have hcarry : carry line (front ++ [lf]) = [] := by
    rw [carry_append, carry_of_not_mem hfront]
    rfl
  obtain ⟨skipped, hlns, hskip⟩ := h.lines
  refine ⟨?_, ?_, h.ended, (line ++ front, tag) :: skipped, ?_, ?_⟩
  · have hbound := h.bound
    simp only [length_append, length_cons]
    omega
  · rw [htake, carry_append, hcarry]
    exact h.carried
  · have hfst : AccessLog.lines line (tagged tag (front ++ [lf])) = [(line ++ front, tag)] := by
      rw [tagged_append, lines_append, lines_of_not_mem hfront, map_fst_tagged,
        carry_of_not_mem hfront]
      rfl
    rw [htake, tagged_append, lines_append, map_fst_tagged, hcarry, hlns, hfst,
      singleton_append, cons_append]
  · intro l hl
    rcases mem_cons.mp hl with rfl | hl
    · rw [length_append]
      omega
    · exact hskip l hl

/-- Within a line too long to be one, a piece without its end belongs to it. -/
theorem sound_inside (hdata : lf ∉ data) (hline : maxLine < line.length) (tag : τ) :
    Advance.Sound maxLine line data ⟨data.length, [], true⟩ tag := by
  refine ⟨le_refl _, ?_, rfl, [], ?_, nofun⟩
  · show maxLine < (carry line (data.take data.length)).length
    rw [take_length, carry_of_not_mem hdata, length_append]
    omega
  · rw [take_length, lines_of_not_mem hdata]
    rfl

/-- What `advance` does with the bytes from the start of a line on. -/
def fromStart (maxLine : Nat) (rest : List UInt8) : Advance :=
  let complete := rest.rdropWhile (· != lf)
  if maxLine < rest.length - complete.length then ⟨rest.length, complete, true⟩
  else ⟨complete.length, complete, false⟩

theorem sound_fromStart (maxLine : Nat) (rest : List UInt8) (tag : τ) :
    (fromStart maxLine rest).Sound maxLine [] rest tag := by
  have hsplit : rest.rdropWhile (· != lf) ++ rest.rtakeWhile (· != lf) = rest :=
    rdropWhile_append_rtakeWhile
  have htail : lf ∉ rest.rtakeWhile (· != lf) := fun hmem => by
    simpa using mem_rtakeWhile_imp hmem
  have hlen : rest.length - (rest.rdropWhile (· != lf)).length
      = (rest.rtakeWhile (· != lf)).length := by
    have hsum := congrArg length hsplit
    rw [length_append] at hsum
    omega
  have h := sound_ofStart (carry_rdropWhile rest) htail maxLine tag
  rw [hsplit] at h
  unfold fromStart
  dsimp only
  rw [hlen]
  exact h

theorem advance_false : advance maxLine false data = fromStart maxLine data := by
  have hend : (if 0 < (data.rdropWhile (· != lf)).length
      then 0 + (data.rdropWhile (· != lf)).length else 0) = (data.rdropWhile (· != lf)).length := by
    split <;> omega
  unfold advance fromStart
  simp only [Bool.false_eq_true, if_false, drop_zero, hend]

theorem findIdx_of_not_mem (h : lf ∉ data) : data.findIdx? (· == lf) = none := by
  rw [findIdx?_eq_none_iff]
  intro b hb
  exact beq_eq_false_iff_ne.mpr fun heq => h (heq ▸ hb)

theorem advance_inside (h : lf ∉ data) : advance maxLine true data = ⟨data.length, [], true⟩ := by
  have hcompl : data.rdropWhile (· != lf) = [] := by
    rw [rdropWhile_eq_nil_iff]
    intro b hb
    exact bne_iff_ne.mpr fun heq => h (heq ▸ hb)
  unfold advance
  simp only [if_true, findIdx_of_not_mem h, drop_zero, hcompl, length_nil,
    Nat.lt_irrefl, if_false, ite_self]

theorem advance_after (h : lf ∉ front) : advance maxLine true (front ++ lf :: rest)
      = { fromStart maxLine rest with
          processedEnd := front.length + 1 + (fromStart maxLine rest).processedEnd } := by
  have hsm : (front ++ lf :: rest).findIdx? (· == lf) = some front.length := by
    have hhead : (lf :: rest).findIdx? (· == lf) = some 0 := by
      simp [findIdx?_cons]
    rw [findIdx?_append, findIdx_of_not_mem h, hhead, Option.none_or, Option.map_some, Nat.zero_add]
  have hr : (front ++ lf :: rest).drop (front.length + 1) = rest := by
    rw [drop_append, drop_eq_nil_of_le (Nat.le_succ _), Nat.add_sub_cancel_left]
    rfl
  have hlen : (front ++ lf :: rest).length = front.length + 1 + rest.length := by
    rw [length_append, length_cons]
    omega
  have hend : (if 0 < (rest.rdropWhile (· != lf)).length
      then front.length + 1 + (rest.rdropWhile (· != lf)).length else front.length + 1)
      = front.length + 1 + (rest.rdropWhile (· != lf)).length := by
    split <;> omega
  unfold advance fromStart
  simp only [if_true, hsm, hr, hend, hlen]
  split
  · rfl
  · rfl

theorem sound_advance {discarding : Bool} (h : Carried maxLine discarding line) (data : List UInt8)
    (tag : τ) : (advance maxLine discarding data).Sound maxLine line data tag := by
  cases discarding with
  | false =>
    rw [carried_false.mp h, advance_false]
    exact sound_fromStart maxLine data tag
  | true =>
    by_cases hmem : lf ∈ data
    · obtain ⟨front, rest, rfl, hfront⟩ := eq_append_cons_of_mem hmem
      rw [advance_after hfront]
      exact (sound_fromStart maxLine rest tag).after hfront h
    · rw [advance_inside hmem]
      exact sound_inside hmem h tag

end Advance

/-! ## Sums over tables -/

section Sums

variable {κ α M : Type} [DecidableEq κ] [AddCommMonoid M]

/-- **Setting a key exchanges what it had for what it gets**, where a key that
was not there had something worth nothing. -/
theorem sum_put (f : α → M) (zero : α) (hzero : f zero = 0) (l : List (κ × α)) (k : κ) (a : α) :
    ((put l k a).map fun e => f e.2).sum + f ((find l k).getD zero)
      = (l.map fun e => f e.2).sum + f a := by
  induction l with
  | nil => simp [put, hzero]
  | cons e l ih =>
    obtain ⟨k', b⟩ := e
    rw [put, find]
    by_cases h : k' = k
    · rw [if_pos h, if_pos h, Option.getD_some, map_cons, map_cons, sum_cons, sum_cons]
      rw [add_right_comm, add_comm (f a), add_right_comm]
    · rw [if_neg h, if_neg h, map_cons, map_cons, sum_cons, sum_cons, add_assoc, ih, add_assoc]

omit [AddCommMonoid M] in
/-- Setting a key drops nothing but what the key had. -/
theorem mem_put_or {l : List (κ × α)} {e : κ × α} (h : e ∈ l) (k : κ) (a : α) :
    e ∈ put l k a ∨ find l k = some e.2 := by
  induction l with
  | nil => cases h
  | cons first l ih =>
    obtain ⟨k', b⟩ := first
    rw [put, find]
    by_cases hkey : k' = k
    · rw [if_pos hkey, if_pos hkey]
      rcases mem_cons.mp h with rfl | h
      · exact .inr rfl
      · exact .inl (mem_cons_of_mem _ h)
    · rw [if_neg hkey, if_neg hkey]
      rcases mem_cons.mp h with rfl | h
      · exact .inl mem_cons_self
      · exact (ih h).imp_left (mem_cons_of_mem _)

end Sums

theorem both_add (a b : Amount) : both (a + b) = both a + both b := by
  show a.1 + b.1 + (a.2 + b.2) = a.1 + a.2 + (b.1 + b.2)
  omega

theorem both_zero : both 0 = 0 := rfl

theorem amountOf_put (table : List (String × Amount)) (user username : String) (amount : Amount) :
    amountOf (put table user amount) username
      = if username = user then amount else amountOf table username := by
  unfold amountOf
  rw [find_put]
  split
  · rfl
  · rfl

/-- A table grows by what is added to one of its users. -/
theorem globalTotal_put (table : List (String × Amount)) (user : String) (amount : Amount) :
    globalTotal (put table user (amountOf table user + amount))
      = globalTotal table + both amount := by
  have h := sum_put both 0 both_zero table user (amountOf table user + amount)
  rw [both_add] at h
  unfold globalTotal amountOf at *
  omega

theorem both_amountOf_le (table : List (String × Amount)) (u : String) :
    both (amountOf table u) ≤ globalTotal table := by
  unfold amountOf globalTotal
  induction table with
  | nil => exact Nat.zero_le _
  | cons e table ih =>
    obtain ⟨user, amount⟩ := e
    rw [find, map_cons, sum_cons]
    split
    · exact Nat.le_add_right _ _
    · exact le_trans ih (Nat.le_add_left _ _)

theorem amountOf_eq_zero {table : List (String × Amount)} (h : username ∉ table.map Prod.fst) :
    amountOf table username = 0 := by
  unfold amountOf
  rw [find_of_not_mem_keys h]
  rfl

/-- The transaction adds to every counter what the file has for it. -/
theorem amountOf_foldl_addIncrement {increments : List (String × Amount)}
    (hk : (increments.map Prod.fst).Nodup) (cts : List (String × Amount))
    (username : String) :
    amountOf (increments.foldl addIncrement cts) username
      = amountOf cts username + amountOf increments username := by
  induction increments generalizing cts with
  | nil => exact (add_zero _).symm
  | cons e increments ih =>
    obtain ⟨user, amount⟩ := e
    rw [map_cons, nodup_cons] at hk
    have hcons : amountOf ((user, amount) :: increments) username
        = if user = username then amount else amountOf increments username := by
      unfold amountOf
      rw [find]
      split
      · rfl
      · rfl
    rw [foldl_cons, ih hk.2, addIncrement, amountOf_put, hcons]
    by_cases h : user = username
    · rw [if_pos h.symm, if_pos h, ← h, amountOf_eq_zero hk.1, add_zero]
    · rw [if_neg (Ne.symm h), if_neg h]

theorem globalTotal_foldl_addIncrement (increments cts : List (String × Amount)) :
    globalTotal (increments.foldl addIncrement cts) = globalTotal cts + globalTotal increments := by
  induction increments generalizing cts with
  | nil => rfl
  | cons e increments ih =>
    rw [foldl_cons, ih, addIncrement, globalTotal_put]
    exact add_assoc _ _ _

/-! ## The lines of a piece -/

section Tally

variable {site : Site Digest} {users : List String} {counters : List (String × Amount)}
  {raw : List UInt8}

theorem parse_of_long (h : site.maxLineBytes < raw.length) : parse site raw users = none := by
  unfold parse
  rw [if_pos (.inr h)]
  rfl

/-- The books of a piece: one entry per user, together what is pending. -/
structure Tally.Kept (tally : Tally) : Prop where
  keys : (tally.increments.map Prod.fst).Nodup
  total : globalTotal tally.increments = tally.pendingGlobal

variable {tally : Tally}

theorem Tally.Kept.line (h : tally.Kept) (raw : List UInt8) :
    (tallyLine site users counters tally raw).Kept := by
  unfold tallyLine
  split
  · exact h
  · dsimp only
    split
    · exact h
    · refine ⟨nodup_keys_put h.keys _ _, ?_⟩
      rw [globalTotal_put, h.total]

theorem Tally.Kept.fold (h : tally.Kept) (raws : List (List UInt8)) :
    (raws.foldl (tallyLine site users counters) tally).Kept := by
  induction raws generalizing tally with
  | nil => exact h
  | cons raw raws ih => exact ih (h.line raw)

/-- A line that fits under the bound is counted for its user. -/
theorem tallyLine_eq (h : tally.Kept)
    (hbound : globalTotal counters + tally.pendingGlobal + volume site (raw, users) ≤ maxCounter) :
    (tallyLine site users counters tally raw).pendingGlobal
        = tally.pendingGlobal + volume site (raw, users)
      ∧ ∀ username, amountOf (tallyLine site users counters tally raw).increments username
        = amountOf tally.increments username + credit site username (raw, users) := by
  unfold tallyLine volume credit at *
  cases hparse : parse site raw users with
  | none => exact ⟨rfl, fun _ => (add_zero _).symm⟩
  | some yielded =>
    obtain ⟨user, amount⟩ := yielded
    rw [hparse] at hbound
    have hbase := both_amountOf_le counters user
    have hprior := both_amountOf_le tally.increments user
    rw [h.total] at hprior
    have hfits : overflows (amountOf counters user) (amountOf tally.increments user) amount
        (globalTotal counters) tally.pendingGlobal = false := by
      refine decide_eq_false ?_
      unfold both at *
      dsimp only at hbound
      omega
    dsimp only
    rw [hfits]
    refine ⟨rfl, fun username => ?_⟩
    show amountOf (put _ _ _) username = _
    rw [amountOf_put]
    by_cases huser : username = user
    · rw [if_pos huser, if_pos huser.symm, huser]
    · rw [if_neg huser, if_neg (Ne.symm huser), add_zero]

theorem tallyLines_eq {raws : List (List UInt8)} (h : tally.Kept)
    (hbound : globalTotal counters + tally.pendingGlobal
      + (raws.map fun raw => volume site (raw, users)).sum ≤ maxCounter) :
    (raws.foldl (tallyLine site users counters) tally).pendingGlobal
        = tally.pendingGlobal + (raws.map fun raw => volume site (raw, users)).sum
      ∧ ∀ username, amountOf (raws.foldl (tallyLine site users counters) tally).increments username
        = amountOf tally.increments username
          + (raws.map fun raw => credit site username (raw, users)).sum := by
  induction raws generalizing tally with
  | nil => exact ⟨rfl, fun _ => (add_zero _).symm⟩
  | cons raw raws ih =>
    rw [map_cons, sum_cons] at hbound
    have hfst : globalTotal counters + tally.pendingGlobal + volume site (raw, users)
        ≤ maxCounter := by omega
    obtain ⟨hpend, hamt⟩ := tallyLine_eq h hfst
    obtain ⟨hpendings, hamts⟩ := ih (h.line raw) (by rw [hpend]; omega)
    refine ⟨?_, fun username => ?_⟩
    · rw [foldl_cons, hpendings, hpend, map_cons, sum_cons, add_assoc]
    · rw [foldl_cons, hamts, hamt, map_cons, sum_cons, add_assoc]

end Tally

/-! ## A file step -/

section Steps

variable {site : Site Digest}

variable {content : List UInt8} {budget : Int}

theorem verify_some [DecidableEq Digest] {row : FileRow Digest}
    (h : verify site (some row) content budget = .ok ()) :
    row.consumedDigest = some (site.sha256 (content.take row.offset))
      ∧ row.offset ≤ content.length := by
  unfold verify at h
  dsimp only at h
  split at h
  · cases h
  · split at h
    · cases h
    · split at h
      · cases h
      · split at h
        · cases h
        next hlen _ _ hdig => exact ⟨not_not.mp hdig, by omega⟩

variable {dir : Directory} {identity : Identity} {name : String} {candidate : Candidate}
  {db : Database Digest} {got : Collected Digest} {users : List String} {verifyBudget : Int}
  {M : Type}

theorem openRegular_eq_ok (h : openRegular dir name = .ok (identity, content)) :
    find dir.entries name = some identity ∧ find dir.contents identity = some content := by
  unfold openRegular at h
  split at h
  · cases h
  next found hent =>
    split at h
    · cases h
    next text hcont =>
      cases h
      exact ⟨hent, hcont⟩

/-- What a file that was read is filed with. -/
theorem collectFile_eq_ok [DecidableEq Digest]
    (h : collectFile site db dir candidate users budget verifyBudget = .ok got) :
    ∃ content, find dir.entries candidate.name = some candidate.identity
      ∧ find dir.contents candidate.identity = some content
      ∧ verify site (find db.files candidate.identity) content verifyBudget = .ok ()
      ∧ ∃ data next, data = readAt content (offsetOf db candidate.identity) budget
        ∧ next = advance site.maxLineBytes
            ((find db.files candidate.identity).any FileRow.discarding) data
        ∧ got.db = { db with
            files := put db.files candidate.identity
              ⟨offsetOf db candidate.identity + next.processedEnd, next.discarding,
                some content.length,
                some (site.sha256 (content.take (offsetOf db candidate.identity)
                  ++ data.take next.processedEnd))⟩
            counters := (tally site users db.counters next.complete).increments.foldl
              addIncrement db.counters } := by
  obtain ⟨⟨identity, content⟩, hopen, h⟩ := bind_eq_ok.mp h
  obtain ⟨hent, hcont⟩ := openRegular_eq_ok hopen
  dsimp only at h
  split at h
  · cases h
  next hident =>
    have hident : identity = candidate.identity := not_not.mp hident
    subst hident
    obtain ⟨-, -, h⟩ := bind_eq_ok.mp h
    obtain ⟨-, -, h⟩ := bind_eq_ok.mp h
    obtain ⟨⟨⟩, hver, h⟩ := bind_eq_ok.mp h
    obtain ⟨-, -, h⟩ := bind_eq_ok.mp h
    obtain ⟨-, -, h⟩ := bind_eq_ok.mp h
    cases h
    exact ⟨content, hent, hcont, hver, _, _, rfl, rfl, rfl⟩

/-- The bytes of a file that were consumed. -/
def bytesOf (consumed : List (Identity × List (UInt8 × List String))) (identity : Identity) :
    List UInt8 :=
  (historyOf consumed identity).map Prod.fst

/-- A row has the length, the digest and the last line of what was consumed. -/
structure RowSound (site : Site Digest) (row : FileRow Digest) (bytes : List UInt8) : Prop where
  offset : row.offset = bytes.length
  digest : row.consumedDigest = some (site.sha256 bytes)
  carried : Carried site.maxLineBytes row.discarding (carry [] bytes)

/-- What the counters are worth, as far as the reader sees the lines that are
there and no counter reaches the bound. -/
def Exact (site : Site Digest) (s : State Digest) : Prop :=
  Unreturned site s → volumeOf site s ≤ maxCounter →
    (∀ username, amountOf s.db.counters username = creditOf site s username)
      ∧ globalTotal s.db.counters ≤ volumeOf site s

/-- **The invariant of the collector.** -/
structure Sound (site : Site Digest) (s : State Digest) : Prop where
  rows : ∀ identity row, find s.db.files identity = some row →
    RowSound site row (bytesOf s.consumed identity)
  /-- A file of the log without a row was not read. -/
  unread : ∀ e ∈ s.dir.entries, isLog site e.1 = true → find s.db.files e.2 = none →
    historyOf s.consumed e.2 = []
  /-- An identity that was read is not given to another file. -/
  known : ∀ identity, historyOf s.consumed identity ≠ [] →
    (find s.dir.contents identity).isSome
  /-- A file has one history. -/
  single : (s.consumed.map Prod.fst).Nodup
  queued : ∀ pass, s.pass = some pass → ∀ candidate ∈ pass.queue, isLog site candidate.name = true
  exact : Exact site s

theorem historyOf_put (consumed : List (Identity × List (UInt8 × List String)))
    (ident other : Identity) (history : List (UInt8 × List String)) :
    historyOf (put consumed ident history) other
      = if other = ident then history else historyOf consumed other := by
  unfold historyOf
  rw [find_put]
  split
  · rfl
  · rfl

/-- Lines are added to the history by what is added to one file. -/
theorem sum_rawLines_put [AddCommMonoid M] [IsCancelAdd M] (f : List UInt8 × List String → M)
    (consumed : List (Identity × List (UInt8 × List String))) (ident : Identity)
    (bytes : List (UInt8 × List String)) :
    ((rawLines (put consumed ident (historyOf consumed ident ++ bytes))).map f).sum
      = ((rawLines consumed).map f).sum
        + ((lines (carry [] (bytesOf consumed ident)) bytes).map f).sum := by
  have hsum : ∀ l : List (Identity × List (UInt8 × List String)),
      ((rawLines l).map f).sum = (l.map fun e => ((lines [] e.2).map f).sum).sum := by
    intro l
    unfold rawLines
    induction l with
    | nil => rfl
    | cons e l ih => rw [flatMap_cons, map_append, sum_append, ih, map_cons, sum_cons]
  have h := sum_put (fun history => ((lines [] history).map f).sum) [] rfl consumed ident
    (historyOf consumed ident ++ bytes)
  rw [lines_append, map_append, sum_append, ← add_assoc, add_right_comm] at h
  rw [hsum, hsum]
  exact add_right_cancel h

variable {s : State Digest} {f : List UInt8 × List String → M}

/-- Before a file is read, the stored position is where the history ends. -/
theorem Sound.start [DecidableEq Digest] (h : Sound site s) (hlog : isLog site name = true)
    (hent : find s.dir.entries name = some identity)
    (hver : verify site (find s.db.files identity) content budget = .ok ()) :
    offsetOf s.db identity = (bytesOf s.consumed identity).length
      ∧ content.take (offsetOf s.db identity) = bytesOf s.consumed identity
      ∧ Carried site.maxLineBytes ((find s.db.files identity).any FileRow.discarding)
        (carry [] (bytesOf s.consumed identity)) := by
  unfold offsetOf
  cases hrow : find s.db.files identity with
  | none =>
    have hhist := h.unread _ (mem_of_find hent) hlog hrow
    have hbytes : bytesOf s.consumed identity = [] := by
      rw [bytesOf, hhist]
      rfl
    rw [hbytes]
    exact ⟨rfl, rfl, rfl⟩
  | some row =>
    have hsd := h.rows identity row hrow
    rw [hrow] at hver
    obtain ⟨hdig, -⟩ := verify_some hver
    rw [hsd.digest, Option.some.injEq] at hdig
    exact ⟨hsd.offset, (site.sha256_injective hdig).symm, hsd.carried⟩

/-- What the stored position passes is what the reader is done with. -/
theorem take_readAt {offset done : Nat} (h : done ≤ (readAt content offset budget).length) :
    (readAt content offset budget).take done = (content.drop offset).take done := by
  unfold readAt at *
  rw [length_take] at h
  rw [take_take, min_eq_left (by omega)]

/-- What a file adds to the history. -/
theorem passed_eq {after : Database Digest} {done : Nat}
    (hcont : find dir.contents identity = some content)
    (hoff : offsetOf after identity = offsetOf db identity + done) :
    passed dir db after identity = (content.drop (offsetOf db identity)).take done := by
  rw [passed, hcont, hoff, Nat.add_sub_cancel_left, Option.getD_some]

/-- The database and the history after a file of `dir` was read. -/
structure Read (site : Site Digest) (s : State Digest) (candidate : Candidate)
    (users : List String) (after : Database Digest) (bytes : List UInt8) (next : Advance) :
    Prop where
  /-- The file starts with what was consumed of it. -/
  content : ∃ content, find s.dir.contents candidate.identity = some content
    ∧ bytesOf s.consumed candidate.identity ++ bytes <+: content
  passed : AccessLog.passed s.dir s.db after candidate.identity = bytes
  files : ∃ row, after.files = put s.db.files candidate.identity row
    ∧ RowSound site row (bytesOf s.consumed candidate.identity ++ bytes)
  counters : after.counters
    = (tally site users s.db.counters next.complete).increments.foldl addIncrement s.db.counters
  ended : carry [] next.complete = []
  lines : ∃ skipped, AccessLog.lines (carry [] (bytesOf s.consumed candidate.identity))
        (tagged users bytes) = skipped ++ AccessLog.lines [] (tagged users next.complete)
    ∧ ∀ l ∈ skipped, site.maxLineBytes < l.1.length

theorem Sound.read [DecidableEq Digest] (h : Sound site s)
    (hlog : isLog site candidate.name = true)
    (hgot : collectFile site s.db s.dir candidate users budget verifyBudget = .ok got) :
    ∃ bytes next, Read site s candidate users got.db bytes next := by
  obtain ⟨content, hent, hcont, hver, data, next, hdata, hnext, hdb⟩ :=
    collectFile_eq_ok hgot
  obtain ⟨hoff, htake, hcarr⟩ := h.start hlog hent hver
  have hadv := sound_advance hcarr data users
  rw [← hnext] at hadv
  have haft : offsetOf got.db candidate.identity
      = offsetOf s.db candidate.identity + next.processedEnd := by
    rw [hdb]
    show ((find (put _ _ _) _).map FileRow.offset).getD 0 = _
    rw [find_put_self]
    rfl
  have hbound := hadv.bound
  have hdone : data.take next.processedEnd
      = (content.drop (offsetOf s.db candidate.identity)).take next.processedEnd := by
    rw [hdata] at hbound ⊢
    exact take_readAt hbound
  refine ⟨data.take next.processedEnd, next, ⟨content, hcont, ?_⟩, ?_,
    ⟨_, congrArg Database.files hdb, ?_, ?_, ?_⟩, congrArg Database.counters hdb, hadv.ended,
    hadv.lines⟩
  · rw [hdone, ← htake, ← take_add]
    exact take_prefix _ _
  · rw [passed_eq hcont haft, hdone]
  · rw [length_append, length_take, min_eq_left hbound, hoff]
  · rw [htake]
  · rw [carry_append]
    exact hadv.carried

/-- Lines too long to be one are worth nothing. -/
theorem sum_skipped [AddCommMonoid M] (hf : ∀ l, parse site l.1 l.2 = none → f l = 0)
    {skipped : List (List UInt8 × List String)} (h : ∀ l ∈ skipped, site.maxLineBytes < l.1.length)
    (hleg : ∀ l ∈ skipped, Legible site.maxLineBytes l.1) :
    (skipped.map fun l => f (chomp l.1, l.2)).sum = 0 := by
  refine sum_eq_zero fun x hx => ?_
  obtain ⟨l, hl, rfl⟩ := mem_map.mp hx
  exact hf _ (parse_of_long ((hleg l hl).lt_length_chomp (h l hl)))

theorem credit_of_none (l : List UInt8 × List String) (h : parse site l.1 l.2 = none) :
    credit site username l = 0 := by
  rw [credit, h]

theorem volume_of_none (l : List UInt8 × List String) (h : parse site l.1 l.2 = none) :
    volume site l = 0 := by
  rw [volume, h]

variable {candidate : Candidate} {users : List String} {after : Database Digest}
  {bytes : List UInt8} {next : Advance} {pass : Option Pass}
  {entries : List (Bool × String × Identity)} {found' found : List (Identity × Candidate)}

/-- The history after a file was read. -/
def grown (s : State Digest) (identity : Identity) (users : List String) (bytes : List UInt8) :
    List (Identity × List (UInt8 × List String)) :=
  put s.consumed identity (historyOf s.consumed identity ++ tagged users bytes)

/-- The lines a file adds to the history are those its piece is counted by. -/
theorem Read.sum_lines [AddCommMonoid M] [IsCancelAdd M]
    (hf : ∀ l, parse site l.1 l.2 = none → f l = 0)
    (h : Read site s candidate users after bytes next)
    (hleg : ∀ l ∈ AccessLog.lines (carry [] (bytesOf s.consumed candidate.identity))
      (tagged users bytes), Legible site.maxLineBytes l.1) :
    ((consumedLines (grown s candidate.identity users bytes)).map f).sum
      = ((consumedLines s.consumed).map f).sum
        + ((splitLines next.complete).map fun raw => f (raw, users)).sum := by
  obtain ⟨skipped, hlns, hskip⟩ := h.lines
  rw [hlns] at hleg
  have hsplit : (splitLines next.complete).map (·, users)
      = (AccessLog.lines [] (tagged users next.complete)).map fun l => (chomp l.1, l.2) :=
    splitLines_eq h.ended fun l hl => (hleg l (mem_append_right _ hl)).1
  have hraw : ((splitLines next.complete).map fun raw => f (raw, users))
      = (AccessLog.lines [] (tagged users next.complete)).map fun l => f (chomp l.1, l.2) := by
    have hmap := congrArg (List.map f) hsplit
    rw [map_map, map_map] at hmap
    exact hmap
  unfold consumedLines
  rw [map_map, map_map, grown, sum_rawLines_put, hlns, map_append, sum_append, hraw]
  refine congrArg _ ((congrArg (· + _) ?_).trans (zero_add _))
  exact sum_skipped hf hskip fun l hl => hleg l (mem_append_left _ hl)

theorem tally_kept (cts : List (String × Amount)) (complete : List UInt8) :
    (tally site users cts complete).Kept := by
  have hst : Tally.Kept ⟨[], 0, 0⟩ := ⟨nodup_nil, rfl⟩
  exact hst.fold _

theorem unreturned_of_grown (h : Unreturned site
      { s with db := after, consumed := grown s identity users bytes, pass }) :
    Unreturned site s
      ∧ ∀ l ∈ lines (carry [] (bytesOf s.consumed identity)) (tagged users bytes),
        Legible site.maxLineBytes l.1 := by
  have hgrw : ∀ l ∈ lines [] (historyOf s.consumed identity ++ tagged users bytes),
      Legible site.maxLineBytes l.1 :=
    fun l hl => h l (mem_flatMap.mpr ⟨_, mem_of_find (find_put_self _ _ _), hl⟩)
  rw [lines_append] at hgrw
  refine ⟨fun l hl => ?_, fun l hl => hgrw l (mem_append_right _ hl)⟩
  obtain ⟨e, he, hl⟩ := mem_flatMap.mp hl
  rcases mem_put_or he identity (historyOf s.consumed identity ++ tagged users bytes) with
    hput | hf
  · exact h l (mem_flatMap.mpr ⟨e, hput, hl⟩)
  · refine hgrw l (mem_append_left _ ?_)
    rw [historyOf, hf]
    exact hl

section

variable (h : Sound site s)

include h

/-- **A file is counted exactly.** -/
theorem Sound.exact_read (hrd : Read site s candidate users after bytes next)
    (pass : Option Pass) : Exact site { s with
      db := after, consumed := grown s candidate.identity users bytes, pass } := by
  intro hunreturned hvol
  obtain ⟨hbef, hleg⟩ := unreturned_of_grown hunreturned
  have hadded := hrd.sum_lines volume_of_none hleg
  have hsum : volumeOf site { s with
      db := after, consumed := grown s candidate.identity users bytes, pass }
      = volumeOf site s
        + ((splitLines next.complete).map fun raw => volume site (raw, users)).sum :=
    hadded
  rw [hsum] at hvol ⊢
  obtain ⟨hctr, htot⟩ := h.exact hbef (by omega)
  have hkept : (tally site users s.db.counters next.complete).Kept := tally_kept _ _
  obtain ⟨hpend, hamts⟩ : (tally site users s.db.counters next.complete).pendingGlobal
        = 0 + ((splitLines next.complete).map fun raw => volume site (raw, users)).sum
      ∧ ∀ username, amountOf (tally site users s.db.counters next.complete).increments username
        = 0 + ((splitLines next.complete).map fun raw => credit site username (raw, users)).sum :=
    tallyLines_eq ⟨nodup_nil, rfl⟩ (by
      show globalTotal s.db.counters + 0 + _ ≤ _
      omega)
  refine ⟨fun username => ?_, ?_⟩
  · show amountOf after.counters username
      = ((consumedLines (grown s candidate.identity users bytes)).map (credit site username)).sum
    rw [hrd.counters, amountOf_foldl_addIncrement hkept.keys, hamts, hctr, zero_add,
      hrd.sum_lines credit_of_none hleg]
    rfl
  · rw [hrd.counters, globalTotal_foldl_addIncrement, hkept.total, hpend]
    omega

theorem Sound.file (hrd : Read site s candidate users after bytes next)
    (hqueue : ∀ p, pass = some p → ∀ c ∈ p.queue, isLog site c.name = true) :
    Sound site { s with
      db := after, consumed := grown s candidate.identity users bytes, pass } := by
  obtain ⟨row, hfls, hrow⟩ := hrd.files
  have hhist : ∀ other, historyOf (grown s candidate.identity users bytes) other
      = if other = candidate.identity
        then historyOf s.consumed candidate.identity ++ tagged users bytes
        else historyOf s.consumed other := fun other => historyOf_put _ _ _ _
  have hf : ∀ other, find after.files other
      = if other = candidate.identity then some row else find s.db.files other := by
    intro other
    rw [hfls, find_put]
  refine ⟨fun other row' hoth => ?_, fun e he hlog hn => ?_, fun other hne => ?_,
    nodup_keys_put h.single _ _, hqueue, h.exact_read hrd pass⟩
  · have hoth : find after.files other = some row' := hoth
    rw [hf] at hoth
    show RowSound site row'
      ((historyOf (grown s candidate.identity users bytes) other).map Prod.fst)
    rw [hhist]
    by_cases heq : other = candidate.identity
    · rw [if_pos heq] at hoth ⊢
      cases hoth
      rw [map_append, map_fst_tagged]
      exact hrow
    · rw [if_neg heq] at hoth ⊢
      exact h.rows other row' hoth
  · have hn : find after.files e.2 = none := hn
    rw [hf] at hn
    rw [hhist]
    by_cases heq : e.2 = candidate.identity
    · rw [if_pos heq] at hn
      cases hn
    · rw [if_neg heq] at hn ⊢
      exact h.unread e he hlog hn
  · have hne : historyOf (grown s candidate.identity users bytes) other ≠ [] := hne
    rw [hhist] at hne
    by_cases heq : other = candidate.identity
    · obtain ⟨content, hcont, -⟩ := hrd.content
      rw [heq]
      exact Option.isSome_of_eq_some hcont
    · rw [if_neg heq] at hne
      exact h.known other hne

/-! ## Files that come, move and go -/

/-- What the directory may become: an identity stays with its file, and a file among the
log's was there before, or is not read, or is not forgotten. -/
theorem Sound.directory (hkn : ∀ identity, (find s.dir.contents identity).isSome →
      (find dir.contents identity).isSome)
    (hmv : ∀ e ∈ dir.entries, isLog site e.1 = true → e ∈ s.dir.entries
      ∨ (historyOf s.consumed e.2 ≠ [] → (find s.db.files e.2).isSome)) :
    Sound site { s with dir } := by
  refine { h with
    unread := fun e he hlog hn => ?_
    known := fun identity hne => hkn identity (h.known identity hne) }
  rcases hmv e he hlog with hold | hrow
  · exact h.unread e hold hlog hn
  · by_contra hne
    have hsm := hrow hne
    rw [hn] at hsm
    cases hsm

theorem Sound.contents (cont : List UInt8) : Sound site { s with
      dir := { s.dir with contents := put s.dir.contents identity cont } } :=
  h.directory (fun _ hoth => isSome_find_put hoth _ _) fun _ he _ => .inl he

theorem Sound.create (hnew : find s.dir.contents identity = none) : Sound site { s with dir :=
      { entries := s.dir.entries ++ [(name, identity)]
        contents := put s.dir.contents identity [] } } := by
  refine h.directory (fun _ hoth => isSome_find_put hoth _ _) fun e he _ => ?_
  rcases mem_append.mp he with he | he
  · exact .inl he
  · refine .inr fun hne => ?_
    have hsm := h.known e.2 hne
    rw [mem_singleton.mp he, hnew] at hsm
    cases hsm

theorem Sound.delete (name : String) :
    Sound site { s with dir := { s.dir with entries := erase s.dir.entries name } } :=
  h.directory (fun _ hsm => hsm) fun _ he _ => .inl (mem_filter.mp he).1

theorem Sound.rename {target : String} (hent : find s.dir.entries name = some identity)
    (hrot : Rotated site s (.rename name target)) :
    Sound site { s with dir := { s.dir with
      entries := put (erase s.dir.entries name) target identity } } := by
  refine h.directory (fun _ hsm => hsm) fun e he hlog => ?_
  rcases mem_put he with rfl | he
  · exact .inr (hrot hlog identity hent)
  · exact .inl (mem_filter.mp he).1

end

/-! ## Discovery and pruning -/

theorem scan_eq_ok (h : scan site dir = .ok entries) :
    entries = (dir.entries.filter fun e => isLog site e.1).map
      fun e => (e.1 == site.logName, e.1, e.2) := by
  unfold scan at h
  split at h
  · cases h
  · exact (Except.ok.inj h).symm

theorem addCandidate_log {en : Bool × String × Identity}
    (h : addCandidate site found en = .ok found') (hent : isLog site en.2.1 = true)
    (hfnd : ∀ e ∈ found, isLog site e.2.name = true) :
    ∀ e ∈ found', isLog site e.2.name = true := by
  rw [← Except.ok.inj (check_eq_ok.mp h).2]
  split
  · intro e he
    rcases mem_put he with rfl | he
    · exact hent
    · exact hfnd e he
  · exact hfnd

theorem foldlM_log (h : entries.foldlM (addCandidate site) found = .ok found')
    (hents : ∀ en ∈ entries, isLog site en.2.1 = true)
    (hfnd : ∀ e ∈ found, isLog site e.2.name = true) :
    ∀ e ∈ found', isLog site e.2.name = true := by
  induction entries generalizing found with
  | nil =>
    cases h
    exact hfnd
  | cons en entries ih =>
    rw [foldlM_cons] at h
    obtain ⟨more, hmore, h⟩ := bind_eq_ok.mp h
    exact ih h (fun e he => hents e (mem_cons_of_mem _ he))
      (addCandidate_log hmore (hents en mem_cons_self) hfnd)

/-- Only names of the log are looked at. -/
theorem candidates_log {queue : List Candidate} (h : candidates site dir = .ok queue) :
    ∀ candidate ∈ queue, isLog site candidate.name = true := by
  obtain ⟨entries, hscan, h⟩ := bind_eq_ok.mp h
  obtain ⟨found, hfnd, h⟩ := bind_eq_ok.mp h
  have hents : ∀ en ∈ entries, isLog site en.2.1 = true := by
    intro en hent
    rw [scan_eq_ok hscan] at hent
    obtain ⟨e, he, rfl⟩ := mem_map.mp hent
    exact (mem_filter.mp he).2
  have hlog := foldlM_log hfnd hents nofun
  split at h
  · cases h
    intro candidate hcand
    obtain ⟨e, he, rfl⟩ := mem_map.mp ((mem_insertionSort _).mp hcand)
    exact hlog e he
  · cases h

/-- Every file under a name of the log is present. -/
theorem mem_present {present : List Identity}
    (h : presentIdentities site dir = .ok present) {e : String × Identity} (he : e ∈ dir.entries)
    (hlog : isLog site e.1 = true) : e.2 ∈ present := by
  obtain ⟨entries, hscan, h⟩ := bind_eq_ok.mp h
  dsimp only at h
  split at h
  · cases h
  · split at h
    · cases h
      rw [mem_dedup, scan_eq_ok hscan, map_map]
      exact mem_map_of_mem (f := fun e : String × Identity => e.2) (mem_filter.mpr ⟨he, hlog⟩)
    · cases h

theorem Sound.endPass (h : Sound site s) (e : Option Error) : Sound site (s.endPass e) :=
  { h with queued := nofun }

theorem Sound.prune (h : Sound site s) {err : Option Error}
    (hprune : pruneConsumedDeleted site s.db s.dir = .ok (db, err)) :
    Sound site { s with db } := by
  obtain ⟨present, hpres, hprune⟩ := bind_eq_ok.mp hprune
  cases hprune
  have hf := find_filter (fun identity => decide (identity ∈ present)) s.db.files
  refine { h with rows := fun identity row hrow => ?_, unread := fun e he hlog hn => ?_ }
  · rw [hf] at hrow
    split at hrow
    · exact h.rows identity row hrow
    · cases hrow
  · rw [hf] at hn
    split at hn
    · exact h.unread e he hlog hn
    next habs => exact absurd (decide_eq_true (mem_present hpres he hlog)) habs

variable [DecidableEq Digest]

theorem Sound.step {ev : Event} {s' : State Digest} (h : Sound site s) (hrot : Rotated site s ev)
    (hs : step site s ev = some s') : Sound site s' := by
  unfold AccessLog.step at hs
  cases ev with
  | append identity bytes =>
    obtain ⟨content, -, rfl⟩ := Option.map_eq_some_iff.mp hs
    exact h.contents _
  | create name identity =>
    obtain ⟨⟨-, hnew⟩, hs⟩ := Option.ite_none_right_eq_some.mp hs
    cases hs
    exact h.create hnew
  | rename name t =>
    obtain ⟨identity, hent, rfl⟩ := Option.map_eq_some_iff.mp hs
    exact h.rename hent hrot
  | delete name =>
    cases hs
    exact h.delete name
  | rewrite identity content =>
    obtain ⟨-, hs⟩ := Option.ite_none_right_eq_some.mp hs
    cases hs
    exact h.contents _
  | collect users =>
    obtain ⟨-, hs⟩ := Option.ite_none_right_eq_some.mp hs
    split at hs
    · cases hs
      exact h.endPass _
    · split at hs
      · cases hs
        exact h.endPass _
      next queue hqueue =>
        cases hs
        refine { h with queued := fun p hp => ?_ }
        cases hp
        exact candidates_log hqueue
  | file =>
    dsimp only at hs
    split at hs
    next users budget verifyBudget candidate queue accepted hpass =>
      have hqueue := h.queued _ hpass
      split at hs
      · cases hs
        exact h.endPass _
      next got hgot =>
        cases hs
        obtain ⟨bytes, next, hrd⟩ := h.read (hqueue candidate mem_cons_self) hgot
        rw [hrd.passed]
        refine h.file hrd fun p hp c hc => ?_
        cases hp
        exact hqueue c (mem_cons_of_mem _ hc)
    · cases hs
  | prune =>
    dsimp only at hs
    split at hs
    next hpass =>
      split at hs
      · cases hs
        exact h.endPass _
      next db error hprune =>
        cases hs
        exact (h.prune hprune).endPass error
    · cases hs
  | stop =>
    cases hs
    exact h.endPass none

omit [DecidableEq Digest] in
theorem sound_fresh : Sound site (fresh : State Digest) := by
  refine ⟨nofun, nofun, fun _ hne => absurd rfl hne, nodup_nil, nofun,
    fun _ _ => ⟨fun username => rfl, le_refl _⟩⟩

/-- What was consumed of a file is what it starts with. -/
def Starts (s : State Digest) (identity : Identity) : Prop :=
  bytesOf s.consumed identity <+: (find s.dir.contents identity).getD []

/-- **A file that is not rewritten starts with what was consumed of it.** -/
theorem Starts.step {ev : Event} {s' : State Digest} (hst : Starts s identity) (h : Sound site s)
    (hev : ∀ content, ev ≠ .rewrite identity content) (hs : step site s ev = some s') :
    Starts s' identity := by
  have hput : ∀ other cont, Starts s identity → (other = identity →
      bytesOf s.consumed identity <+: cont) → bytesOf s.consumed identity
        <+: (find (put s.dir.contents other cont) identity).getD [] := by
    intro other cont hst hoth
    rw [find_put]
    split
    next heq => exact hoth heq.symm
    · exact hst
  unfold AccessLog.step at hs
  cases ev with
  | append other bytes =>
    obtain ⟨content, hcont, rfl⟩ := Option.map_eq_some_iff.mp hs
    refine hput other _ hst fun heq => ?_
    rw [Starts, ← heq, hcont] at hst
    exact heq ▸ hst.trans (prefix_append _ _)
  | create name other =>
    obtain ⟨⟨-, hnew⟩, hs⟩ := Option.ite_none_right_eq_some.mp hs
    cases hs
    refine hput other _ hst fun heq => ?_
    rw [Starts, ← heq, hnew] at hst
    exact heq ▸ hst
  | rename name t =>
    obtain ⟨-, -, rfl⟩ := Option.map_eq_some_iff.mp hs
    exact hst
  | delete name =>
    cases hs
    exact hst
  | rewrite other content =>
    obtain ⟨-, hs⟩ := Option.ite_none_right_eq_some.mp hs
    cases hs
    exact hput other _ hst fun heq => absurd (heq ▸ rfl) (hev content)
  | collect users =>
    obtain ⟨-, hs⟩ := Option.ite_none_right_eq_some.mp hs
    split at hs
    · cases hs
      exact hst
    · split at hs <;> cases hs <;> exact hst
  | file =>
    dsimp only at hs
    split at hs
    next users budget verifyBudget candidate queue accepted hpass =>
      split at hs
      · cases hs
        exact hst
      next got hgot =>
        cases hs
        obtain ⟨bytes, next, hrd⟩ := h.read (h.queued _ hpass candidate mem_cons_self) hgot
        rw [hrd.passed]
        show (historyOf (grown s candidate.identity users bytes) identity).map Prod.fst <+: _
        rw [grown, historyOf_put]
        split
        next heq =>
          obtain ⟨content, hcont, hpre⟩ := hrd.content
          rw [map_append, map_fst_tagged, heq]
          show _ <+: (find s.dir.contents candidate.identity).getD []
          rw [hcont]
          exact hpre
        · exact hst
    · cases hs
  | prune =>
    dsimp only at hs
    split at hs
    · split at hs <;> cases hs <;> exact hst
    · cases hs
  | stop =>
    cases hs
    exact hst

/-- A file was truncated or rewritten below the stored position: what was
consumed of it is not what it starts with. -/
def Altered (s : State Digest) (identity : Identity) : Prop :=
  ∃ content, find s.dir.contents identity = some content
    ∧ ¬ bytesOf s.consumed identity <+: content

/-- An altered file is not read. -/
theorem Sound.altered (h : Sound site s) (hlog : isLog site candidate.name = true) (halt : Altered s candidate.identity)
    (us : List String) (budget verifyBudget : Int) :
    ∃ error, collectFile site s.db s.dir candidate us budget verifyBudget = .error error := by
  cases hgot : collectFile site s.db s.dir candidate us budget verifyBudget with
  | error error => exact ⟨error, rfl⟩
  | ok got =>
    obtain ⟨content, hent, hcont, hver, -⟩ := collectFile_eq_ok hgot
    obtain ⟨-, htake, -⟩ := h.start hlog hent hver
    obtain ⟨content', hcont', hnot⟩ := halt
    rw [hcont, Option.some.injEq] at hcont'
    refine absurd ?_ hnot
    rw [← htake, ← hcont']
    exact take_prefix _ _

/-- **Traffic is counted exactly once.** In every state a run of the collector reaches –
files that grow, are renamed, deleted, truncated or rewritten at any point, passes with any
users that stop anywhere, and no forgotten file that comes back – the counters are the sum
of what `parse` yields for the complete lines of the consumed parts, as long as these are
legible and yield no more than a counter can hold. Each line is there once: a file has one
history, and starts with it unless it was rewritten. A pass that comes to a file altered
below its position ends with an error, and the counters stay. -/
theorem counters_exact {events : List Event}
    (hrotated : Run.Meets (AccessLog.step site) (Rotated site) fresh events)
    (hrun : Run.exec (AccessLog.step site) fresh events = some s) :
    (Unreturned site s → volumeOf site s ≤ maxCounter →
      ∀ username, amountOf s.db.counters username = creditOf site s username)
    ∧ (s.consumed.map Prod.fst).Nodup
    ∧ (∀ identity content, (∀ other, .rewrite identity other ∉ events) →
      find s.dir.contents identity = some content → bytesOf s.consumed identity <+: content)
    ∧ ∀ users budget verifyBudget candidate queue accepted,
      s.pass = some ⟨users, budget, verifyBudget, candidate :: queue, accepted⟩ →
      Altered s candidate.identity →
      ∃ error, AccessLog.step site s .file = some (s.endPass (some error)) := by
  have h : Sound site s :=
    Run.invariant_of_meets (fun _ _ _ hs hrot hstep => hs.step hrot hstep) hrun hrotated sound_fresh
  refine ⟨fun hcr hvolume => (h.exact hcr hvolume).1, h.single, ?_, ?_⟩
  · intro identity content hkept hcontent
    have hmeets := hrotated.and_forall (p := fun e => ∀ other, e ≠ .rewrite identity other)
      fun e he other heq => hkept other (heq ▸ he)
    have hstarts := Run.invariant_of_meets (I := fun s => Sound site s ∧ Starts s identity)
      (fun _ _ _ hs hok hstep => ⟨hs.1.step hok.1 hstep, hs.2.step hs.1 hok.2 hstep⟩) hrun hmeets
      ⟨sound_fresh, prefix_rfl⟩
    have hprefix := hstarts.2
    rw [Starts, hcontent] at hprefix
    exact hprefix
  · intro users budget verifyBudget candidate queue accepted hpass haltered
    have hlog := h.queued _ hpass candidate mem_cons_self
    obtain ⟨error, herror⟩ := h.altered hlog haltered users budget verifyBudget
    refine ⟨error, ?_⟩
    unfold AccessLog.step
    rw [hpass]
    dsimp only
    rw [herror]

end Steps

namespace Sample

def site : Site (List UInt8) where
  logName := "access.json"
  maxLineBytes := 128
  maxReadBytes := 256
  maxVerifyBytes := 1024
  maxRotations := 2
  maxDirectoryEntries := 8
  line_lt_read := by decide
  rotations_lt_entries := by decide
  floats := .none
  decode bytes := some (bytes.map fun b => Char.ofNat b.toNat)
  sha256 := id
  sha256_injective := Function.injective_id

def bytes (text : String) : List UInt8 := text.toList.map fun c => UInt8.ofNat c.toNat

/-- What the proxy writes for a connection, with `gap` between two fields. -/
def connection (gap upload download : String) : List UInt8 :=
  bytes ("\x7b\"request\":\x7b\"method\":\"CONNECT\"\x7d,\"status\":200," ++ gap
    ++ "\"user_id\":\"u\",\"bytes_read\":" ++ upload ++ ",\"size\":" ++ download ++ "\x7d\n")

def written (content : List UInt8) : List Event :=
  [.create "access.json" (1, 7), .append (1, 7) content]

def pass (files : Nat) : List Event :=
  .collect ["u"] :: (List.replicate files .file ++ [.prune])

/-- What ends with a line feed, ended by a carriage return as well. -/
def returned (content : List UInt8) : List UInt8 := content.dropLast ++ [cr, lf]

/-- A connection's line of the greatest length, without its line feed. -/
def longest : List UInt8 :=
  (connection (String.ofList (List.replicate 45 ' ')) "3" "5").dropLast

/-- **A carriage return hides a line, a full counter passes one over, and a file that comes
back is counted again.** The first line has a carriage return where JSON has a blank: it
yields three bytes up and five down, and the reader sees two pieces that yield nothing. The
second is as long as a line may be, and is skipped when a pass ends with the carriage return
after it. The third log is free of them: after a line of 2⁶³ − 1 bytes another byte is not
counted. The fourth is moved away and back, with a pass before, between and after. -/
theorem line_not_counted :
    (∃ s, Run.exec (step site) fresh (written (connection "\r" "3" "5") ++ pass 1) = some s
      ∧ volumeOf site s ≤ maxCounter
      ∧ creditOf site s "u" = (3, 5) ∧ amountOf s.db.counters "u" = (0, 0))
    ∧ (∃ s, Run.exec (step site) fresh (written (longest ++ [cr]) ++ pass 1
          ++ [.append (1, 7) [lf]] ++ pass 1) = some s
      ∧ (∀ line ∈ rawLines s.consumed, cr ∉ line.1.dropLast) ∧ volumeOf site s ≤ maxCounter
      ∧ creditOf site s "u" = (3, 5) ∧ amountOf s.db.counters "u" = (0, 0))
    ∧ (∃ s, Run.exec (step site) fresh (written
          (connection "" "9223372036854775807" "0" ++ connection "" "1" "0") ++ pass 1) = some s
      ∧ Unreturned site s
      ∧ creditOf site s "u" = (2 ^ 63, 0) ∧ amountOf s.db.counters "u" = (2 ^ 63 - 1, 0))
    ∧ ∃ s, Run.exec (step site) fresh (written (connection "" "3" "5") ++ pass 1
          ++ [.rename "access.json" "old", .create "access.json" (1, 8)] ++ pass 1
          ++ [.rename "old" "access.json"] ++ pass 1)
        = some s
      ∧ Unreturned site s ∧ volumeOf site s ≤ maxCounter ∧ s.lastError = none
      ∧ find s.dir.contents (1, 7) = some (connection "" "3" "5")
      ∧ amountOf s.db.counters "u" = (6, 10) := by
  refine ⟨?_, ?_, ?_, ?_⟩ <;> decide +kernel

/-- **A line in two parts, a rotation, and a rewritten file.** The line ends with a carriage
return and a line feed; it is counted in the second pass, and the third one reports the file. -/
theorem counters_exact_rotated : ∃ s,
    Run.exec (step site) fresh (written ((returned (connection "" "3" "5")).take 40) ++ pass 1
      ++ [.append (1, 7) ((returned (connection "" "3" "5")).drop 40),
        .rename "access.json" "access-2024-01-02T03-04-05.678-size.json",
        .create "access.json" (1, 8)] ++ pass 2
      ++ [.rewrite (1, 7) (connection "" "9" "9"), .collect ["u"]]) = some s
    ∧ (∀ username, amountOf s.db.counters username = creditOf site s username)
    ∧ amountOf s.db.counters "u" = (3, 5)
    ∧ ∃ error, step site s .file = some (s.endPass (some error)) := by
  obtain ⟨s, hs, hcr, hvolume, hcount, hpass, hcontent, haltered⟩ : ∃ s, Run.exec (step site) fresh
      (written ((returned (connection "" "3" "5")).take 40) ++ pass 1
        ++ [.append (1, 7) ((returned (connection "" "3" "5")).drop 40),
          .rename "access.json" "access-2024-01-02T03-04-05.678-size.json",
          .create "access.json" (1, 8)] ++ pass 2
        ++ [.rewrite (1, 7) (connection "" "9" "9"), .collect ["u"]]) = some s
      ∧ Unreturned site s ∧ volumeOf site s ≤ maxCounter
      ∧ amountOf s.db.counters "u" = (3, 5)
      ∧ s.pass = some ⟨["u"], 256, 1024,
        [⟨"access-2024-01-02T03-04-05.678-size.json", (1, 7), false⟩,
          ⟨"access.json", (1, 8), true⟩], 0⟩
      ∧ Table.find s.dir.contents (1, 7) = some (connection "" "9" "9")
      ∧ ¬ bytesOf s.consumed (1, 7) <+: connection "" "9" "9" := by
    decide +kernel
  obtain ⟨hexact, -, -, hreport⟩ := counters_exact (by decide +kernel) hs
  exact ⟨s, hs, hexact hcr hvolume, hcount,
    hreport _ _ _ _ _ _ hpass ⟨_, hcontent, haltered⟩⟩

end Sample

end AccessLog
