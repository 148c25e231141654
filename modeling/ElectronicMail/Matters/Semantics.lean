import ElectronicMail.Matters.Lifecycle

/-!
# The semantics of a message

`organize_message` writes the row of its message three times: it takes the row for the
text it has read, writes what the models have made of the text, and, when something is
raised in between, records the failure. The second write does not say which text it is
about, so that executions for different revisions of one message write each other's row.

`semantics_match` says for exactly which interleavings the row is right about its text.
-/

namespace ElectronicMail.Matters

open Foundations
open Foundations.Table

/-! ## The three writes -/

/-- `WHERE generation_id = … AND message_id = …` on semantics. -/
def Semantics.isOf (generationId messageId : Nat) (r : Semantics) : Bool :=
  r.generationId == generationId && r.messageId == messageId

def Semantics.reading (r : Semantics) : Reading := ⟨r.contentRevision, r.normalizedSha256⟩

/-- `ON CONFLICT … DO UPDATE` of `begin_message_processing`. -/
def Semantics.retake (reading : Reading) (r : Semantics) : Semantics :=
  { r with
    contentRevision := reading.contentRevision
    normalizedSha256 := reading.normalizedSha256
    processingState := if r.reading = reading ∧ r.processingState = .ready then .ready
      else .processing
    userSeparated := false }

def Tables.hasText (s : Tables) (generationId messageId : Nat) : Bool :=
  s.messages.any (fun m => m.messageId == messageId) &&
    s.generations.any fun g => g.id == generationId

/-- `begin_message_processing`: `none` when it raises, and otherwise the tables and whether
the message has to be processed. -/
def beginMessageProcessing (generationId messageId : Nat) (reading : Reading) (s : Tables) :
    Option (Tables × Bool) :=
  match s.semantics.find? (Semantics.isOf generationId messageId) with
  | some r =>
    some ({ s with
        semantics := updateWhere (Semantics.isOf generationId messageId)
          (Semantics.retake reading) s.semantics },
      (r.retake reading).processingState != .ready)
  | none =>
    if s.hasText generationId messageId then
      some ({ s with
          semantics := s.semantics ++ [⟨generationId, messageId, reading.contentRevision,
            reading.normalizedSha256, .processing, false, none⟩] }, true)
    else none

/-- `complete_message_semantics`, with the results for a text. -/
def completeMessageSemantics (generationId messageId : Nat) (reading : Reading) (s : Tables) :
    Tables :=
  { s with
    semantics := updateWhere (Semantics.isOf generationId messageId)
      (fun r => { r with
        computedFrom := some reading, processingState := .ready, userSeparated := false })
      s.semantics }

def failMessageSemantics (generationId messageId : Nat) (s : Tables) : Tables :=
  { s with
    semantics := updateWhere (Semantics.isOf generationId messageId)
      (fun r => { r with processingState := .failed, userSeparated := false }) s.semantics }

variable {g x : Nat} {r : Semantics}

@[simp]
theorem Semantics.isOf_iff : r.isOf g x = true ↔ r.generationId = g ∧ r.messageId = x := by
  simp [Semantics.isOf]

variable {reading : Reading}

@[simp]
theorem Semantics.isOf_retake : (r.retake reading).isOf g x = r.isOf g x := rfl

@[simp]
theorem Semantics.reading_retake : (r.retake reading).reading = reading := rfl

theorem Semantics.retake_ready : (r.retake reading).processingState = .ready ↔
      r.reading = reading ∧ r.processingState = .ready := by
  unfold Semantics.retake
  by_cases h : r.reading = reading ∧ r.processingState = .ready
  · simp [h]
  · simp [h]

/-! ## Executions for one message -/

/-- An execution of `organize_message` that has taken the row. -/
structure Reader where
  id : Nat
  reading : Reading

/-- The tables, the executions under way for the message, and the newest revision that one
of them has completed. -/
structure SemanticsRun where
  tables : Tables
  readers : List Reader
  newest : Option Nat

/-- What an execution does next. `begins` has read some revision of the message, `fails`
records that it has raised, and `dies` leaves no record. -/
inductive SemanticsLabel where
  | begins (k : Nat) (reading : Reading)
  | completes (k : Nat)
  | fails (k : Nat)
  | dies (k : Nat)

def SemanticsRun.reader (w : SemanticsRun) (k : Nat) : Option Reader :=
  w.readers.find? fun r => r.id == k

def SemanticsRun.others (w : SemanticsRun) (k : Nat) : List Reader :=
  w.readers.filter fun r => r.id != k

def newerOf (newest : Option Nat) (contentRevision : Nat) : Nat := max (newest.getD 0) contentRevision

def SemanticsRun.step (generationId messageId : Nat) (w : SemanticsRun) :
    SemanticsLabel → SemanticsRun
  | .begins k reading =>
    match w.reader k with
    | some _ => w
    | none =>
      match beginMessageProcessing generationId messageId reading w.tables with
      | none => w
      | some (s, true) => { w with tables := s, readers := ⟨k, reading⟩ :: w.readers }
      | some (s, false) => { w with tables := s }
  | .completes k =>
    match w.reader k with
    | none => w
    | some r =>
      { tables := completeMessageSemantics generationId messageId r.reading w.tables
        readers := w.others k
        newest := some (newerOf w.newest r.reading.contentRevision) }
  | .fails k =>
    match w.reader k with
    | none => w
    | some _ =>
      { w with
        tables := failMessageSemantics generationId messageId w.tables
        readers := w.others k }
  | .dies k =>
    match w.reader k with
    | none => w
    | some _ => { w with readers := w.others k }

/-- The row is ready for the newest revision that has been completed, or failed. -/
def Semantics.IsNewest (newest : Option Nat) (r : Semantics) : Prop :=
  r.processingState = .failed ∨ (r.processingState = .ready ∧ newest = some r.contentRevision)

instance (newest : Option Nat) (r : Semantics) : Decidable (r.IsNewest newest) :=
  inferInstanceAs (Decidable (_ ∨ _ ∧ _))

/-- A row that is ready has been computed from the text that it is about, and a row that
nobody works on is ready for the newest revision or failed. -/
def SemanticsRun.Matches (generationId messageId : Nat) (w : SemanticsRun) : Prop :=
  ∀ r ∈ w.tables.semantics, r.isOf generationId messageId = true →
    (r.processingState = .ready → r.computedFrom = some r.reading) ∧
      (w.readers = [] → r.IsNewest w.newest)

/-- The execution completes the row that it has taken, and is the newest if nobody else is
under way. -/
def CompletesOwn (generationId messageId : Nat) (w : SemanticsRun) (k : Nat) : Prop :=
  ∀ reader ∈ w.reader k, ∀ r ∈ w.tables.semantics, r.isOf generationId messageId = true →
    r.reading = reader.reading ∧ (w.others k = [] → ∀ n ∈ w.newest, n ≤ r.contentRevision)

def DiesRecorded (generationId messageId : Nat) (w : SemanticsRun) (k : Nat) : Prop :=
  (w.reader k).isSome = true → w.others k = [] →
    ∀ r ∈ w.tables.semantics, r.isOf generationId messageId = true → r.IsNewest w.newest

def KeepsMatch (generationId messageId : Nat) (w : SemanticsRun) : SemanticsLabel → Prop
  | .completes k => CompletesOwn generationId messageId w k
  | .dies k => DiesRecorded generationId messageId w k
  | .begins _ _ => True
  | .fails _ => True

/-! ## The invariant -/

structure MatchKept (g x : Nat) (w : SemanticsRun) : Prop where
  unique : ∀ r ∈ w.tables.semantics, ∀ r' ∈ w.tables.semantics, r.isOf g x = true →
    r'.isOf g x = true → r = r'
  right : w.Matches g x

variable {f : Semantics → Semantics} {rows : List Semantics}

theorem mem_updateSemantics (hr : r ∈ updateWhere (Semantics.isOf g x) f rows)
    (hof : r.isOf g x = true) : ∃ r₀ ∈ rows, r₀.isOf g x = true ∧ r = f r₀ := by
  obtain ⟨r₀, h₀, rfl⟩ := mem_updateWhere.1 hr
  by_cases hof₀ : r₀.isOf g x = true
  · rw [if_pos hof₀]
    exact ⟨r₀, h₀, hof₀, rfl⟩
  · rw [if_neg hof₀] at hof
    exact absurd hof hof₀

theorem unique_updateSemantics
    (h : ∀ r ∈ rows, ∀ r' ∈ rows, r.isOf g x = true → r'.isOf g x = true → r = r') :
    ∀ r ∈ updateWhere (Semantics.isOf g x) f rows, ∀ r' ∈ updateWhere (Semantics.isOf g x) f rows,
      r.isOf g x = true → r'.isOf g x = true → r = r' := by
  intro r hr r' hr' hof hof'
  obtain ⟨r₀, h₀, hof₀, rfl⟩ := mem_updateSemantics hr hof
  obtain ⟨r₀', h₀', hof₀', rfl⟩ := mem_updateSemantics hr' hof'
  rw [h r₀ h₀ r₀' h₀' hof₀ hof₀']

variable {s s' : Tables} {go : Bool}

theorem beginMessageProcessing_cases (h : beginMessageProcessing g x reading s = some (s', go)) :
    (∃ r ∈ s.semantics, r.isOf g x = true ∧ go = ((r.retake reading).processingState != .ready) ∧
      s' = { s with
        semantics := updateWhere (Semantics.isOf g x) (Semantics.retake reading) s.semantics }) ∨
    (s.hasText g x = true ∧ (∀ r ∈ s.semantics, ¬ r.isOf g x = true) ∧ go = true ∧
      s' = { s with
        semantics := s.semantics ++ [⟨g, x, reading.contentRevision, reading.normalizedSha256,
          .processing, false, none⟩] }) := by
  unfold beginMessageProcessing at h
  cases hfind : s.semantics.find? (Semantics.isOf g x) with
  | some r =>
    simp only [hfind, Option.some.injEq, Prod.mk.injEq] at h
    exact Or.inl ⟨r, List.mem_of_find?_eq_some hfind, List.find?_some hfind, h.2.symm, h.1.symm⟩
  | none =>
    by_cases htext : s.hasText g x = true
    · simp only [hfind, htext, if_true, Option.some.injEq, Prod.mk.injEq] at h
      exact Or.inr ⟨htext, List.find?_eq_none.1 hfind, h.2.symm, h.1.symm⟩
    · simp [hfind, htext] at h

/-- **What `begin_message_processing` does to the row of its message.** A row that is ready
for the same text stays as it is, any other is taken for processing. -/
theorem beginMessageProcessing_row
    (hunique : ∀ r ∈ s.semantics, ∀ r' ∈ s.semantics, r.isOf g x = true →
      r'.isOf g x = true → r = r') (h : beginMessageProcessing g x reading s = some (s', go)) :
    ∀ r' ∈ s'.semantics, r'.isOf g x = true → r'.reading = reading ∧
      ((go = true ∧ r'.processingState = .processing) ∨
        (go = false ∧ r'.processingState = .ready ∧ ∃ r ∈ s.semantics, r.isOf g x = true ∧
          r.reading = reading ∧ r.processingState = .ready ∧
          r'.computedFrom = r.computedFrom)) := by
  intro r' hr' hof'
  obtain ⟨r₁, h₁, hof₁, rfl, rfl⟩ | ⟨-, hnone, rfl, rfl⟩ := beginMessageProcessing_cases h
  · obtain ⟨r, hr, hof, rfl⟩ := mem_updateSemantics hr' hof'
    obtain rfl := hunique r hr r₁ h₁ hof hof₁
    refine ⟨rfl, ?_⟩
    by_cases hready : (r.retake reading).processingState = .ready
    · obtain ⟨hsame, hr₀⟩ := Semantics.retake_ready.1 hready
      exact Or.inr ⟨by simp [hready], hready, r, hr, hof, hsame, hr₀, rfl⟩
    · refine Or.inl ⟨by simpa using hready, ?_⟩
      rw [Semantics.retake_ready] at hready
      simp [Semantics.retake, hready]
  · rcases List.mem_append.1 hr' with hr' | hr'
    · exact absurd hof' (hnone r' hr')
    · rw [List.mem_singleton.1 hr']
      exact ⟨rfl, Or.inl ⟨rfl, rfl⟩⟩

theorem unique_beginMessageProcessing
    (hunique : ∀ r ∈ s.semantics, ∀ r' ∈ s.semantics, r.isOf g x = true →
      r'.isOf g x = true → r = r') (h : beginMessageProcessing g x reading s = some (s', go)) :
    ∀ r ∈ s'.semantics, ∀ r' ∈ s'.semantics, r.isOf g x = true → r'.isOf g x = true → r = r' := by
  obtain ⟨-, -, -, -, rfl⟩ | ⟨-, hnone, -, rfl⟩ := beginMessageProcessing_cases h
  · exact unique_updateSemantics hunique
  · intro r hr r' hr' hof hof'
    rcases List.mem_append.1 hr with hr | hr
    · exact absurd hof (hnone r hr)
    · rcases List.mem_append.1 hr' with hr' | hr'
      · exact absurd hof' (hnone r' hr')
      · rw [List.mem_singleton.1 hr, List.mem_singleton.1 hr']

def Semantics.key (r : Semantics) : Nat × Nat := (r.generationId, r.messageId)

/-- `begin_message_processing` writes nothing but semantics. -/
theorem beginMessageProcessing_frame (h : beginMessageProcessing g x reading s = some (s', go)) :
    s' = { s with semantics := s'.semantics } := by
  obtain ⟨-, -, -, -, rfl⟩ | ⟨-, -, -, rfl⟩ := beginMessageProcessing_cases h
  · rfl
  · rfl

theorem beginMessageProcessing_rows (h : beginMessageProcessing g x reading s = some (s', go)) :
    (s'.semantics.map Semantics.key = s.semantics.map Semantics.key ∨
      (s.hasText g x = true ∧ (g, x) ∉ s.semantics.map Semantics.key ∧
        s'.semantics.map Semantics.key = s.semantics.map Semantics.key ++ [(g, x)])) ∧
    ∀ r' ∈ s'.semantics, r'.processingState = .ready →
      ∃ r ∈ s.semantics, r.key = r'.key ∧ r.processingState = .ready := by
  obtain ⟨-, -, -, -, rfl⟩ | ⟨htext, hnone, -, rfl⟩ := beginMessageProcessing_cases h
  · refine ⟨Or.inl (map_updateWhere fun _ _ _ => rfl), ?_⟩
    intro r' hr' hready
    obtain ⟨r, hr, rfl⟩ := mem_updateWhere.1 hr'
    by_cases hof : r.isOf g x = true
    · rw [if_pos hof] at hready ⊢
      exact ⟨r, hr, rfl, (Semantics.retake_ready.1 hready).2⟩
    · rw [if_neg hof] at hready ⊢
      exact ⟨r, hr, rfl, hready⟩
  · constructor
    · right
      refine ⟨htext, ?_, by simp [Semantics.key]⟩
      intro hmem
      obtain ⟨r, hr, hkey⟩ := List.mem_map.1 hmem
      obtain ⟨hg, hx⟩ := Prod.mk.inj hkey
      exact hnone r hr (Semantics.isOf_iff.2 ⟨hg, hx⟩)
    · intro r' hr' hready
      rcases List.mem_append.1 hr' with hr' | hr'
      · exact ⟨r', hr', rfl, hready⟩
      · rw [List.mem_singleton.1 hr'] at hready
        cases hready

variable {k : Nat} {w : SemanticsRun}

/-! ## Steps -/

section

variable (h : MatchKept g x w)
include h

theorem matchKept_begins {reading : Reading} (hk : w.reader k = none)
    (hbegin : beginMessageProcessing g x reading w.tables = some (s, go)) :
    MatchKept g x (w.step g x (.begins k reading)) := by
  have hunique := unique_beginMessageProcessing h.unique hbegin
  have hrow := beginMessageProcessing_row h.unique hbegin
  cases go with
  | true =>
    simp only [SemanticsRun.step, hk, hbegin]
    refine ⟨hunique, ?_⟩
    intro r hr hof
    refine ⟨?_, fun hnone => by simp at hnone⟩
    intro hready
    rcases (hrow r hr hof).2 with ⟨_, hprocessing⟩ | ⟨hgo, _⟩
    · rw [hready] at hprocessing
      cases hprocessing
    · cases hgo
  | false =>
    simp only [SemanticsRun.step, hk, hbegin]
    refine ⟨hunique, ?_⟩
    intro r hr hof
    obtain ⟨hreading, hcase⟩ := hrow r hr hof
    rcases hcase with ⟨hgo, _⟩ | ⟨_, hready, r₀, h₀, hof₀, hreading₀, hready₀, hfrom⟩
    · cases hgo
    obtain ⟨hcomputed, hnewest⟩ := h.right r₀ h₀ hof₀
    have hsame : r.reading = r₀.reading := hreading.trans hreading₀.symm
    constructor
    · intro _
      rw [hfrom, hcomputed hready₀, hsame]
    intro hnone
    rcases hnewest hnone with hfailed | ⟨_, hn⟩
    · rw [hready₀] at hfailed
      cases hfailed
    · refine Or.inr ⟨hready, hn.trans ?_⟩
      have hrevision := congrArg Reading.contentRevision hsame
      exact congrArg some hrevision.symm

theorem matchKept_completes (hgood : CompletesOwn g x w k) : MatchKept g x (w.step g x (.completes k)) := by
  cases hk : w.reader k with
  | none => simpa [SemanticsRun.step, hk] using h
  | some reader =>
    simp only [SemanticsRun.step, hk]
    refine ⟨unique_updateSemantics h.unique, ?_⟩
    intro r hr hof
    obtain ⟨r₀, h₀, hof₀, rfl⟩ := mem_updateSemantics hr hof
    obtain ⟨hreading, hnewest⟩ := hgood reader hk r₀ h₀ hof₀
    constructor
    · intro _
      exact congrArg some hreading.symm
    intro hnone
    refine Or.inr ⟨rfl, ?_⟩
    have hrevision : r₀.contentRevision = reader.reading.contentRevision :=
      congrArg Reading.contentRevision hreading
    show some (newerOf w.newest _) = some r₀.contentRevision
    rw [← hrevision, newerOf]
    cases hw : w.newest with
    | none => simp
    | some n => simp [Nat.max_eq_right (hnewest hnone n hw)]

theorem matchKept_fails : MatchKept g x (w.step g x (.fails k)) := by
  cases hk : w.reader k with
  | none => simpa [SemanticsRun.step, hk] using h
  | some =>
    simp only [SemanticsRun.step, hk]
    refine ⟨unique_updateSemantics h.unique, ?_⟩
    intro r hr hof
    obtain ⟨r₀, _, _, rfl⟩ := mem_updateSemantics hr hof
    exact ⟨fun hready => by simp at hready, fun _ => Or.inl rfl⟩

theorem matchKept_dies (hgood : DiesRecorded g x w k) : MatchKept g x (w.step g x (.dies k)) := by
  cases hk : w.reader k with
  | none => simpa [SemanticsRun.step, hk] using h
  | some =>
    simp only [SemanticsRun.step, hk]
    refine ⟨h.unique, ?_⟩
    intro r hr hof
    exact ⟨(h.right r hr hof).1, fun hnone => hgood (by simp [hk]) hnone r hr hof⟩

theorem matchKept_step {l : SemanticsLabel} (hgood : KeepsMatch g x w l) : MatchKept g x (w.step g x l) := by
  cases l with
  | begins k reading =>
    cases hk : w.reader k with
    | some => simpa [SemanticsRun.step, hk] using h
    | none =>
      cases hbegin : beginMessageProcessing g x reading w.tables with
      | none => simpa [SemanticsRun.step, hk, hbegin] using h
      | some result =>
        obtain ⟨s, go⟩ := result
        exact matchKept_begins h hk hbegin
  | completes k => exact matchKept_completes h hgood
  | fails k => exact matchKept_fails h
  | dies k => exact matchKept_dies h hgood

end

theorem keepsMatch_of_matches {l : SemanticsLabel}
    (hright : (w.step g x l).Matches g x) : KeepsMatch g x w l := by
  cases l with
  | begins | fails k => trivial
  | completes k =>
    intro reader hk r hr hof
    simp only [SemanticsRun.step, Option.mem_def.1 hk] at hright
    obtain ⟨hcomputed, hnewest⟩ := hright
      { r with computedFrom := some reader.reading, processingState := .ready, userSeparated := false }
      (mem_updateWhere.2 ⟨r, hr, (if_pos hof).symm⟩) hof
    have hreading : r.reading = reader.reading := (Option.some.inj (hcomputed rfl)).symm
    refine ⟨hreading, ?_⟩
    intro hnone n hn
    rcases hnewest hnone with hfailed | ⟨_, hlatest⟩
    · cases hfailed
    have hlatest : newerOf w.newest reader.reading.contentRevision = r.contentRevision :=
      Option.some.inj hlatest
    rw [← hlatest, newerOf, Option.mem_def.1 hn]
    exact Nat.le_max_left _ _
  | dies k =>
    intro hk hnone r hr hof
    obtain ⟨reader, hk⟩ := Option.isSome_iff_exists.1 hk
    simp only [SemanticsRun.step, hk] at hright
    exact (hright r hr hof).2 hnone

/-! ## Runs -/

def SemanticsRun.start (generationId messageId : Nat) (s : Tables) : SemanticsRun :=
  ⟨{ s with semantics := s.semantics.filter fun r => !r.isOf generationId messageId }, [], none⟩

/-- **The row of a message is right about its text** throughout exactly those runs in which
every execution completes its own row and none dies alone with a row that is not right. -/
theorem semantics_match (g x : Nat) (s : Tables) (ls : List SemanticsLabel) :
    Throughout (SemanticsRun.step g x) (SemanticsRun.Matches g x) (SemanticsRun.start g x s) ls ↔
      Along (SemanticsRun.step g x) (KeepsMatch g x) (SemanticsRun.start g x s) ls := by
  have hnone : ∀ r ∈ (SemanticsRun.start g x s).tables.semantics, ¬ r.isOf g x = true := by
    intro r hr
    rw [Bool.not_eq_true, ← Bool.not_eq_true']
    exact (List.mem_filter.1 hr).2
  have hstart : MatchKept g x (SemanticsRun.start g x s) :=
    ⟨fun r hr _ _ hof => absurd hof (hnone r hr), fun r hr hof => absurd hof (hnone r hr)⟩
  refine throughout_iff_along ?_ ?_ ?_ hstart
  · exact fun w h => h.right
  · exact fun w l h hl => matchKept_step h hl
  · exact fun w l _ hright => keepsMatch_of_matches hright

def oneMessage : Tables :=
  { Tables.fresh [⟨1, 10⟩] with
    profile := some ⟨true, true, .focused, .live, some 0, 1⟩
    generations := [⟨0, .active, .focused, none, false⟩]
    nextId := 1 }

/-- The execution for revision 1 waits for the models while the one for revision 2 runs, and
then writes what it has made of revision 1. -/
theorem older_text_under_newer_revision :
    ¬ Throughout (SemanticsRun.step 0 1) (SemanticsRun.Matches 0 1)
      (SemanticsRun.start 0 1 oneMessage)
      [.begins 1 ⟨1, "old"⟩, .begins 2 ⟨2, "new"⟩, .completes 2, .completes 1] := by
  intro h
  have hright := h.last ⟨0, 1, 2, "new", .ready, false, some ⟨1, "old"⟩⟩ (by decide +kernel)
    (by decide)
  have hcomputed := hright.1 rfl
  revert hcomputed
  decide

end ElectronicMail.Matters
