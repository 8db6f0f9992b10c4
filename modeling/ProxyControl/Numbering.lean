import ProxyControl.Agreement

/-!
# The numbers of generations

Two transactions number generations. A publication goes on from the latest one that is
stored; a resync goes on from what the node reported, which may be any number – the node
may have been linked to another central, or restored. Each looks at the latest generation
in the transaction that inserts, so that whatever order they come in, every new number is
above all that are stored. A number past the largest 64-bit one would wrap to one below 1,
which the validation of the document refuses.
-/

namespace Generations

variable {Value Sections : Type}

/-- What a document says, without its numbering, its date and its author. -/
def Document.content (document : Document Value Sections) : Document Value Sections :=
  { document with generation := 1, previousGeneration := 0, createdAt := 0, createdBy := "" }

/-- A transaction of the central about the generations of its node. -/
inductive Transaction (Value Sections : Type)
  | publish (contents : Contents Value Sections) (createdBy : String) (now : Int)
  | resync (delivered : DesiredGeneration Value Sections) (observed : ObservedGeneration Value)
      (contents : Contents Value Sections) (now : Int)
  | markPushed (generation now : Int)
  | absorb (observed : ObservedGeneration Value) (uncaptured : Bool) (now : Int)

/-- **What a transaction leaves.** One that fails changes nothing. -/
def Central.transact (site : Site Value Sections) (central : Central Value Sections) :
    Transaction Value Sections → Central Value Sections
  | .publish contents createdBy now =>
    (central.publish site contents createdBy now).toOption.getD central
  | .resync delivered observed contents now =>
    (central.republish site delivered observed contents now).toOption.getD central
  | .markPushed generation now => central.markPushed generation now
  | .absorb observed uncaptured now => central.absorb observed uncaptured now

/-- The numbers that are stored, the last one first. -/
def Central.numbers (central : Central Value Sections) : List Int :=
  central.desired.map DesiredGeneration.generation

/-- **The numbers rise**, the link knows the highest, and a row the digest of its
content. -/
structure Numbered (site : Site Value Sections) (central : Central Value Sections) : Prop where
  falling : central.numbers.Pairwise (· > ·)
  desired : central.link.desiredGeneration = central.numbers.head?.getD 0
  content : ∀ row ∈ central.desired, row.contentDigest = contentDigest site row.document

variable {site : Site Value Sections} {central central' : Central Value Sections}
  {document : Document Value Sections} {contents : Contents Value Sections} {now : Int}

theorem Numbered.insert (h : Numbered site central)
    (habove : ∀ row ∈ central.desired, row.generation < document.generation)
    (hins : central.insert site document = .ok central') : Numbered site central' := by
  obtain ⟨hdes, -, hlink⟩ := insert_eq hins
  have hnums : central'.numbers = document.generation :: central.numbers := by
    unfold Central.numbers
    rw [hdes, List.map_cons]
  refine ⟨?_, ?_, ?_⟩
  · rw [hnums]
    exact List.pairwise_cons.mpr ⟨List.forall_mem_map.mpr habove, h.falling⟩
  · rw [hnums, hlink]
    rfl
  · rw [hdes]
    exact List.forall_mem_cons.mpr ⟨rfl, h.content⟩

/-- What is written beside a row changes neither its number nor its content. -/
theorem Numbered.update (h : Numbered site central) (gen : Int)
    {change : DesiredGeneration Value Sections → DesiredGeneration Value Sections}
    (kept : ∀ row, (change row).generation = row.generation)
    (hcont : ∀ row, row.contentDigest = contentDigest site row.document →
      (change row).contentDigest = contentDigest site (change row).document) :
    Numbered site (central.update gen change kept) := by
  have hnums : (central.update gen change kept).numbers = central.numbers :=
    map_update change kept kept
  exact ⟨hnums ▸ h.falling, hnums ▸ h.desired, forall_update change kept hcont h.content⟩

theorem Numbered.absorb (h : Numbered site central) (obs : ObservedGeneration Value)
    (uncaptured : Bool) (now : Int) : Numbered site (central.absorb obs uncaptured now) := by
  unfold Central.absorb Central.recordObserved
  dsimp only
  split
  · have hupd : Numbered site (central.update obs.appliedGeneration
        (DesiredGeneration.acknowledged now) fun _ => rfl) := h.update _ _ fun _ => id
    exact ⟨hupd.falling, hupd.desired, hupd.content⟩
  · exact { h with }

theorem exists_insert (habove : ∀ row ∈ central.desired, row.generation < document.generation) :
    ∃ after, central.insert site document = .ok after := by
  unfold Central.insert
  rw [dif_neg fun htaken => by
    obtain ⟨row, hrow, hequal⟩ := List.mem_map.mp htaken
    exact (habove row hrow).ne hequal]
  exact ⟨_, rfl⟩

/-- **A publication** does nothing when the latest document says the same, and else
stores one. -/
theorem Numbered.publish {createdBy : String} (h : Numbered site central)
    (hcomp : compile site contents (central.latest.elim 0 DesiredGeneration.generation)
      (central.latest.elim 0 DesiredGeneration.generation + 1) now createdBy = .ok document) :
    central.publish site contents createdBy now = .ok central ∧ (∃ latest ∈ central.latest,
          contentDigest site latest.document = contentDigest site document)
      ∨ (∃ after, central.publish site contents createdBy now = .ok after
          ∧ central.insert site document = .ok after)
        ∧ ∀ latest ∈ central.latest,
          contentDigest site latest.document ≠ contentDigest site document := by
  rw [publish_of_compile hcomp]
  split
  next hsm =>
    obtain ⟨latest, hlat, hdig⟩ := (Option.any_eq_true _ _).mp hsm
    have hcont := h.content latest (List.argmax_mem hlat)
    exact .inl ⟨rfl, latest, hlat, hcont ▸ of_decide_eq_true hdig⟩
  next hnew =>
    obtain ⟨after, haft⟩ : ∃ after, central.insert site document = .ok after :=
      exists_insert fun row hrow => compile_generation hcomp ▸ above_latest hrow
    refine .inr ⟨⟨after, haft, haft⟩, fun latest hlat hdig => hnew ?_⟩
    rw [← h.content latest (List.argmax_mem hlat)] at hdig
    exact (Option.any_eq_true _ _).mpr ⟨latest, hlat, decide_eq_true hdig⟩

/-- **A resync** numbers past what is stored, and past what the node reported. -/
theorem republish_above {delivered : DesiredGeneration Value Sections}
    {obs : ObservedGeneration Value}
    (h : central.republish site delivered obs contents now = .ok central') :
    central' = central ∨ ∃ document, central.insert site document = .ok central'
      ∧ obs.appliedGeneration < document.generation
      ∧ ∀ row ∈ central.desired, row.generation < document.generation := by
  rcases republish_cases h with rfl | ⟨current, document, hlat, hle, hnum, hins⟩
  · exact .inl rfl
  · have habove : obs.appliedGeneration < document.generation := by omega
    exact .inr ⟨document, hins, habove, fun row hrow =>
      lt_of_le_of_lt (le_trans (le_latest hlat hrow) hle) habove⟩

theorem Numbered.transact (h : Numbered site central) (txn : Transaction Value Sections) :
    Numbered site (central.transact site txn) := by
  cases txn with
  | publish contents createdBy now =>
    show Numbered site ((central.publish site contents createdBy now).toOption.getD central)
    cases hcomp : compile site contents (central.latest.elim 0 DesiredGeneration.generation)
        (central.latest.elim 0 DesiredGeneration.generation + 1) now createdBy with
    | error msg =>
      unfold Central.publish
      dsimp only
      rw [hcomp]
      exact h
    | ok document =>
      rcases h.publish hcomp with ⟨hsm, -⟩ | ⟨⟨after, haft, hins⟩, -⟩
      · rw [hsm]
        exact h
      · rw [haft]
        exact h.insert (fun row hrow => compile_generation hcomp ▸ above_latest hrow) hins
  | resync delivered obs contents now =>
    show Numbered site ((central.republish site delivered obs contents now).toOption.getD central)
    cases hresync : central.republish site delivered obs contents now with
    | error msg => exact h
    | ok central' =>
      rcases republish_above hresync with rfl | ⟨document, hins, -, habove⟩
      · exact h
      · exact h.insert habove hins
  | markPushed gen now =>
    exact @Numbered.update _ _ _ _ h gen (DesiredGeneration.pushed now) (fun _ => rfl) fun _ => id
  | absorb obs uncaptured now => exact h.absorb obs uncaptured now

theorem Numbered.foldl (h : Numbered site central)
    (transactions : List (Transaction Value Sections)) :
    Numbered site (transactions.foldl (Central.transact site) central) := by
  induction transactions generalizing central with
  | nil => exact h
  | cons txn transactions ih => exact ih (h.transact txn)

/-- **Generation numbers.** Whatever transactions a new link sees, the stored numbers
fall from the last one on and the link has the highest. A publication stores what was
compiled exactly when the latest document says something else – as far as the digest
tells the two apart – and a resync only a number above all that are stored and above
the reported one. -/
theorem numbers_increase (site : Site Value Sections) (central : Central Value Sections)
    (hempty : central.desired = []) (hzero : central.link.desiredGeneration = 0)
    (transactions : List (Transaction Value Sections)) :
    let reached := transactions.foldl (Central.transact site) central
    reached.numbers.Pairwise (· > ·)
      ∧ reached.link.desiredGeneration = reached.numbers.head?.getD 0
      ∧ (∀ contents createdBy now document,
        compile site contents (reached.latest.elim 0 DesiredGeneration.generation)
          (reached.latest.elim 0 DesiredGeneration.generation + 1) now createdBy = .ok document →
        (∀ latest ∈ reached.latest,
          contentDigest site latest.document = contentDigest site document →
            latest.document.content = document.content) →
        ∃ after, reached.publish site contents createdBy now = .ok after
          ∧ (after = reached ∧ (∃ latest ∈ reached.latest,
              latest.document.content = document.content)
            ∨ (∃ row, row.document = document ∧ after.desired = row :: reached.desired)
              ∧ ∀ latest ∈ reached.latest, latest.document.content ≠ document.content))
      ∧ ∀ delivered observed contents now after,
        reached.republish site delivered observed contents now = .ok after →
        after = reached ∨ ∃ row, after.desired = row :: reached.desired
          ∧ observed.appliedGeneration < row.generation
          ∧ ∀ stored ∈ reached.desired, stored.generation < row.generation := by
  intro reached
  have hstart : Numbered site central := by
    constructor
    · rw [Central.numbers, hempty]
      exact .nil
    · rw [Central.numbers, hempty]
      exact hzero
    · rw [hempty]
      exact List.forall_mem_nil _
  have hnumbered := hstart.foldl transactions
  refine ⟨hnumbered.falling, hnumbered.desired, ?_, ?_⟩
  · intro contents createdBy now document hcompile hapart
    rcases hnumbered.publish hcompile with ⟨hsame, latest, hlatest, hdigest⟩
      | ⟨⟨after, hafter, hinsert⟩, hnew⟩
    · exact ⟨reached, hsame, .inl ⟨rfl, latest, hlatest, hapart latest hlatest hdigest⟩⟩
    · refine ⟨after, hafter, .inr ⟨⟨_, rfl, (insert_eq hinsert).1⟩, ?_⟩⟩
      intro latest hlatest hcontent
      exact hnew latest hlatest (congrArg site.canonicalDigest hcontent)
  · intro delivered observed contents now after hresync
    rcases republish_above hresync with rfl | ⟨document, hinsert, hobserved, habove⟩
    · exact .inl rfl
    · exact .inr ⟨_, (insert_eq hinsert).1, hobserved, habove⟩

namespace Sample

/-- A publication, a resync with a node that is at 7, and another publication. -/
def numbering : List (Transaction Unit Nat) :=
  [.publish ⟨[], 1⟩ "admin" 0,
    .resync ⟨1, "", "", ⟨⟨"node", "central", 1, []⟩, 1, 0, 0, "admin"⟩, none, none⟩
      ⟨7, "", .converged, []⟩ ⟨[], 1⟩ 0,
    .publish ⟨[], 2⟩ "admin" 0]

theorem numbers_increase_past_report :
    let reached := numbering.foldl (Central.transact linkSite) linkStart.central
    reached.numbers = [9, 8, 1] ∧ reached.link.desiredGeneration = 9
      ∧ reached.numbers.Pairwise (· > ·) :=
  ⟨by decide +kernel, by decide +kernel, (numbers_increase linkSite linkStart.central rfl rfl _).1⟩

end Sample

end Generations
