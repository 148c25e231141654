import Mathlib.Data.List.Perm.Subperm
import ElectronicMail.Mailbox.Chain

/-!
# A completed chain is exact

A backend has one list of threads for each generation, and each page it answers has some of the
threads of its generation. Whatever generations answer, what has been put together stays within
the threads of one of them, and counts no more threads than there are (`Gathered`). A snapshot
that has as many rows as its total then has all of them (`chain_exact`).
-/

namespace ElectronicMail.Mailbox

open Foundations
open Offline (MailboxLabel)

/-! ## Backends -/

/-- The generation of a response; `none` is the one of servers that do not tell. -/
def MailboxResponse.generation (m : MailboxResponse) : Option (List Char) :=
  nonempty m.syncGeneration

structure Backend where
  threads : Option (List Char) → List GmailThreadRow
  distinctThreads : ∀ generation, ((threads generation).map GmailThreadRow.threadId).Nodup
  distinctSources :
    ∀ generation, ((threads generation).map GmailThreadRow.latestSourceRecordId).Nodup

structure Backend.Serves (backend : Backend) (page : MailboxResponse) : Prop where
  sections : (Section.ids page.sections).Nodup
  rows : page.rows ⊆ backend.threads page.generation
  once : (page.rows.map GmailThreadRow.threadId).Nodup
  total : page.totalThreads = (backend.threads page.generation).length

def Backend.Loaded (backend : Backend) (snapshot : MailboxResponse) : Prop :=
  snapshot.rows ⊆ backend.threads snapshot.generation

def Backend.Exact (backend : Backend) (snapshot : MailboxResponse) : Prop :=
  ∃ generation, snapshot.rows.Perm (backend.threads generation)

def Backend.Completes (backend : Backend) (label : MailboxLabel) (ask : Ask)
    (initialSnapshot : MailboxResponse) : Prop :=
  ∀ fuel, maximumAutomaticMailboxPages < fuel →
    ∃ final outcome, completeMailboxSnapshot label ask fuel initialSnapshot =
        some (final, outcome) ∧ final.Bounded ∧
      ∀ snapshot, outcome = .returned snapshot → isCompleteMailboxSnapshot snapshot = true →
        backend.Exact snapshot

/-! ## What has been gathered -/

/-- Sections with some threads of one generation, each of them once, and a total that is not
less than the number of its threads. -/
structure Gathered (backend : Backend) (metadata : MailboxResponse)
    (sections : List GmailThreadSection) : Prop where
  once : ((Section.allRows sections).map GmailThreadRow.threadId).Nodup
  rows : Section.allRows sections ⊆ backend.threads metadata.generation
  total : ((backend.threads metadata.generation).length : Int) ≤ metadata.totalThreads

variable {page : MailboxResponse} {c : Chain}

section Gathering

variable {backend : Backend}

theorem Backend.Serves.gathered (h : backend.Serves page) : Gathered backend page page.sections :=
  ⟨h.once, h.rows, Int.le_of_eq h.total.symm⟩

variable {snapshot : MailboxResponse}

theorem Gathered.exact {metadata : MailboxResponse} {sections : List GmailThreadSection}
    (h : Gathered backend metadata sections) (hsections : snapshot.sections = sections)
    (htotal : snapshot.totalThreads = metadata.totalThreads)
    (hcomplete : isCompleteMailboxSnapshot snapshot = true) : backend.Exact snapshot := by
  have hrows : snapshot.rows = Section.allRows sections := by rw [← hsections]; rfl
  have henough : snapshot.totalThreads ≤ snapshot.rows.length := by
    unfold isCompleteMailboxSnapshot at hcomplete
    exact of_decide_eq_true (Bool.and_eq_true_iff.1 hcomplete).2
  refine ⟨metadata.generation, ?_⟩
  have hsub : snapshot.rows.Subperm (backend.threads metadata.generation) := by
    apply List.subperm_of_subset
    · rw [hrows]
      exact h.once.of_map _
    · rw [hrows]
      exact h.rows
  apply hsub.perm_of_length_le
  have := h.total
  omega

/-- The loaded snapshot may be merged with the page: it is of the same generation. -/
def MergesWith (current firstPage : MailboxResponse) (discardStalePages : Bool) : Prop :=
  discardStalePages = true ∨ firstPage.syncGeneration ≠ none ∨ current.generation = none

variable {current firstPage : MailboxResponse} {discardStalePages : Bool}

theorem generation_eq_of_not_replacedBy (hmerges : MergesWith current firstPage discardStalePages)
    (hkept : current.replacedBy firstPage discardStalePages = false) :
    (current.mergedWith firstPage).generation = firstPage.generation ∧
      current.generation = firstPage.generation := by
  simp only [MailboxResponse.replacedBy, Bool.or_eq_false_iff, Bool.and_eq_false_iff,
    Option.isSome_eq_false_iff, Option.isNone_iff_eq_none, bne_eq_false_iff_eq] at hkept
  obtain ⟨⟨hdiscard, hsame⟩, -⟩ := hkept
  cases hgeneration : firstPage.syncGeneration with
  | none =>
    have hcurrent : current.generation = none := by
      rcases hmerges with h | h | h
      · rw [hdiscard] at h
        cases h
      · exact absurd hgeneration h
      · exact h
    have hfirst : firstPage.generation = none := by
      unfold MailboxResponse.generation
      rw [hgeneration]
      rfl
    refine ⟨?_, hcurrent.trans hfirst.symm⟩
    rw [hfirst, ← hcurrent]
    simp [MailboxResponse.generation, MailboxResponse.mergedWith, hgeneration]
  | some generation =>
    have hcurrent : current.syncGeneration = firstPage.syncGeneration := by
      rcases hsame with h | h
      · rw [hgeneration] at h
        cases h
      · exact h
    refine ⟨?_, ?_⟩
    · simp [MailboxResponse.generation, MailboxResponse.mergedWith, hgeneration]
    · unfold MailboxResponse.generation
      rw [hcurrent]

theorem gathered_preservingLoadedPages (hcurrent : backend.Loaded current)
    (hfirst : backend.Serves firstPage) (hmerges : MergesWith current firstPage discardStalePages) :
    Gathered backend (current.preservingLoadedPages firstPage discardStalePages)
        (current.preservingLoadedPages firstPage discardStalePages).sections ∧
      (Section.ids (current.preservingLoadedPages firstPage discardStalePages).sections).Nodup := by
  unfold MailboxResponse.preservingLoadedPages
  cases hreplaced : current.replacedBy firstPage discardStalePages with
  | true => exact ⟨hfirst.gathered, hfirst.sections⟩
  | false =>
    simp only [Bool.false_eq_true, if_false]
    obtain ⟨hmerged, hgeneration⟩ := generation_eq_of_not_replacedBy hmerges hreplaced
    obtain ⟨hdistinct, hrows⟩ :=
      (Merged.distinct_start hfirst.sections hfirst.once).append current.sections
    refine ⟨⟨hdistinct.threads, ?_, ?_⟩, hdistinct.ids⟩
    · rw [hmerged]
      intro row hrow
      rcases hrows row hrow with hin | hin
      · exact hfirst.rows hin
      · exact hgeneration ▸ hcurrent hin
    · rw [hmerged]
      exact Int.le_of_eq hfirst.total.symm

/-! ## Chains -/

structure Chain.Gathers (backend : Backend) (c : Chain) : Prop where
  merged : c.accumulator.merged.Distinct
  gathered : Gathered backend c.accumulator.metadata c.accumulator.merged.sections

theorem Chain.gathers_start {m : MailboxResponse} (h : Gathered backend m m.sections)
    (hids : (Section.ids m.sections).Nodup) (c : Chain)
    (hstart : c.accumulator = .start m) : c.Gathers backend := by
  refine ⟨?_, ?_⟩
  · rw [hstart]
    exact Merged.distinct_start hids h.once
  · rw [hstart]
    exact ⟨h.once, h.rows, h.total⟩

theorem Chain.Gathers.append (h : c.Gathers backend) (hpage : backend.Serves page)
    (hidentity : mailboxPaginationIdentityMatches c.accumulator.metadata page = true)
    (next : Chain) (hnext : next.accumulator = c.accumulator.append page) :
    next.Gathers backend := by
  have hgeneration : c.accumulator.metadata.generation = page.generation :=
    generation_eq_of_identityMatches hidentity
  have happended : (c.accumulator.append page).metadata.generation = page.generation := by
    cases hsync : page.syncGeneration with
    | some generation =>
      simp [MailboxResponse.generation, MailboxPageAccumulator.append, appendedMetadata, hsync]
    | none =>
      rw [← hgeneration]
      simp [MailboxResponse.generation, MailboxPageAccumulator.append, appendedMetadata, hsync]
  obtain ⟨hdistinct, hrows⟩ := h.merged.append page.sections
  refine ⟨?_, ?_⟩
  · rw [hnext]
    exact hdistinct
  rw [hnext]
  refine ⟨hdistinct.threads, ?_, ?_⟩
  · rw [happended]
    intro row hrow
    rcases hrows row hrow with hin | hin
    · exact hgeneration ▸ h.gathered.rows hin
    · exact hpage.rows hin
  · rw [happended, ← hpage.total]
    simp only [MailboxPageAccumulator.append, appendedMetadata]
    omega

variable {label : MailboxLabel} {ask : Ask}

def Backend.ExactOutcome (backend : Backend) (outcome : Outcome) : Prop :=
  ∀ snapshot, outcome = .returned snapshot → isCompleteMailboxSnapshot snapshot = true →
    backend.Exact snapshot

/-- The chain goes on with what it has gathered, or ends with an exact outcome. -/
def Backend.Keeps (backend : Backend) : Chain × Option Outcome → Prop :=
  Settles (Chain.Gathers backend) backend.ExactOutcome

theorem Chain.Gathers.exact (h : c.Gathers backend) :
    backend.ExactOutcome (.returned c.accumulator.snapshot) := by
  intro snapshot hreturned hcomplete
  cases hreturned
  exact h.gathered.exact rfl rfl hcomplete

theorem Backend.exactOutcome_thrown (error : MailboxPaginationError) :
    backend.ExactOutcome (.thrown error) := by
  intro snapshot hreturned
  cases hreturned

theorem Backend.ExactOutcome.completed (h : backend.ExactOutcome (.returned snapshot)) :
    backend.ExactOutcome (completed snapshot) := by
  unfold Mailbox.completed
  split
  · exact h
  · exact backend.exactOutcome_thrown _

section Serving

variable (hask : ∀ number cursor page, ask number cursor = some page → backend.Serves page)

include hask

theorem Chain.serves_request {cursor : Option (List Char)}
    (h : (c.request label ask cursor).2 = .ok page) : backend.Serves page := by
  simp only [Chain.request] at h
  split at h
  · cases h
  next response hresponse =>
    split at h
    · cases h
      exact hask _ _ _ hresponse
    · cases h

theorem Chain.Gathers.restart (h : c.Gathers backend) : backend.Keeps (c.restart label ask) := by
  simp only [Chain.restart]
  split
  · split
    · exact backend.exactOutcome_thrown _
    · next sent restarted hanswer =>
        have hpage : backend.Serves restarted :=
          Chain.serves_request hask (congrArg Prod.snd hanswer)
        exact Chain.gathers_start hpage.gathered hpage.sections _ rfl
  · exact h.exact

theorem Chain.Gathers.receive (h : c.Gathers backend)
    (hpage : backend.Serves page) : backend.Keeps (c.receive label ask page) := by
  unfold Chain.receive
  split
  · next hidentity => exact h.append hpage hidentity _ rfl
  · exact h.restart hask

theorem Chain.Gathers.turn (h : c.Gathers backend) : backend.Keeps (c.turn label ask) := by
  unfold Chain.turn
  split
  · exact h.exact.completed
  simp only [Chain.follow]
  split
  · exact backend.exactOutcome_thrown _
  split
  · split
    · exact backend.exactOutcome_thrown _
    · next sent page hanswer =>
        have hsent : sent.Gathers backend := by
          obtain rfl := congrArg Prod.fst hanswer
          exact ⟨h.merged, h.gathered⟩
        exact hsent.receive hask (Chain.serves_request hask (congrArg Prod.snd hanswer))
  · exact backend.exactOutcome_thrown _

theorem Chain.Gathers.run {final : Chain} {outcome : Outcome} {fuel : Nat}
    (h : c.Gathers backend) (hrun : Chain.run label ask fuel c = some (final, outcome)) :
    backend.ExactOutcome outcome :=
  Chain.outcome_of_turn (fun _ hc => hc.turn hask) h hrun

end Serving

/-- However generations change between the requests, a chain that starts from a first page of the
backend, merged with a loaded snapshot of its generation, ends after a bounded number of requests;
and a complete snapshot that it returns has every thread of one generation exactly once. -/
theorem chain_exact (backend : Backend) (label : MailboxLabel) (ask : Ask)
    (hask : ∀ number cursor page, ask number cursor = some page → backend.Serves page)
    (current firstPage : MailboxResponse) (discardStalePages : Bool)
    (hcurrent : backend.Loaded current) (hfirst : backend.Serves firstPage)
    (hmerges : MergesWith current firstPage discardStalePages) :
    backend.Completes label ask (current.preservingLoadedPages firstPage discardStalePages) := by
  intro fuel hfuel
  obtain ⟨hgathered, hids⟩ := gathered_preservingLoadedPages hcurrent hfirst hmerges
  obtain ⟨final, outcome, hends, hbounded⟩ := completeMailboxSnapshot_ends label ask hfuel
    (current.preservingLoadedPages firstPage discardStalePages)
  refine ⟨final, outcome, hends, hbounded, ?_⟩
  have hstart := Chain.gathers_start hgathered hids (.start _) rfl
  unfold completeMailboxSnapshot at hends
  split at hends
  · cases hends
    have hexact : backend.ExactOutcome (.returned
        (current.preservingLoadedPages firstPage discardStalePages)) := by
      rintro _ heq hcomplete
      cases heq
      exact hgathered.exact rfl rfl hcomplete
    exact hexact.completed
  · exact hstart.run hask hends

end Gathering

/-! ## A page without a generation -/

def plainRow (thread : String) : GmailThreadRow where
  threadId := thread
  entityId := none
  aiGroupId := none
  latestSourceRecordId := thread
  lifecycleSourceIds := []
  latestMessageAt := none
  latestReceivedAt := ""
  content := ""

def importedPage (generation cursor : Option (List Char)) (total : Int)
    (rows : List GmailThreadRow) : MailboxResponse where
  label := .inbox
  totalThreads := total
  unreadThreads := none
  nextCursor := cursor
  loadedThreads := none
  windowDays := none
  sections := [⟨"inbox", "Inbox", rows⟩]
  counts := ⟨none, none, none, none, none, none, none, none⟩
  pendingCount := none
  mailboxRevision := none
  generatedAt := none
  oldestImportedAt := none
  fullImportRunning := some false
  completions := ⟨some true, none, some true, none⟩
  syncGeneration := generation
  phase := none
  lastProgressAt := none
  accountWarnings := none

def twoThreads : Backend where
  threads := fun generation =>
    if generation = none then [plainRow "c", plainRow "d"]
    else [plainRow "a", plainRow "b"]
  distinctThreads := by
    intro generation
    split <;> decide
  distinctSources := by
    intro generation
    split <;> decide

def lastPage : Ask := fun _ _ => some (importedPage (some ['g']) none 2 [plainRow "b"])

theorem chain_exact_of_loaded_row :
    twoThreads.Completes .inbox lastPage
      ((importedPage (some ['g']) none 2 [plainRow "b"]).preservingLoadedPages
        (importedPage (some ['g']) (some ['n']) 2 [plainRow "a"]) false) := by
  apply chain_exact
  · intro number cursor page hpage
    cases hpage
    exact ⟨by decide, by decide, by decide, by decide⟩
  · unfold Backend.Loaded
    decide
  · exact ⟨by decide, by decide, by decide, by decide⟩
  · exact .inr (.inl (by decide))

/-- A complete snapshot of a generation, after a first page that tells none. -/
def mixedSnapshot : MailboxResponse :=
  (importedPage (some ['g']) none 2 [plainRow "a", plainRow "b"]).preservingLoadedPages
    (importedPage none (some ['n']) 2 [plainRow "c"]) false

/-- A loaded snapshot of a generation is merged with a first page that tells no generation. What
is returned as complete has threads of both, and is missing one. -/
theorem untold_generation_mixed :
    ¬ ∀ (backend : Backend) (label : MailboxLabel) (ask : Ask),
      (∀ number cursor page, ask number cursor = some page → backend.Serves page) →
      ∀ (current firstPage : MailboxResponse) (discardStalePages : Bool),
        backend.Loaded current → backend.Serves firstPage →
        backend.Completes label ask
          (current.preservingLoadedPages firstPage discardStalePages) := by
  intro h
  obtain ⟨final, outcome, hends, -, hexact⟩ := h twoThreads .inbox (fun _ _ => none)
    (by intro number cursor page hpage; cases hpage)
    (importedPage (some ['g']) none 2 [plainRow "a", plainRow "b"])
    (importedPage none (some ['n']) 2 [plainRow "c"]) false
    (by unfold Backend.Loaded; decide) ⟨by decide, by decide, by decide, by decide⟩
    (maximumAutomaticMailboxPages + 1) (Nat.lt_succ_self _)
  have hcall : completeMailboxSnapshot .inbox (fun _ _ => none)
      (maximumAutomaticMailboxPages + 1) mixedSnapshot =
        some (.start mixedSnapshot, .returned mixedSnapshot) := by
    have hnone : nonempty mixedSnapshot.nextCursor = none := by decide
    have hcompleted : completed mixedSnapshot = .returned mixedSnapshot := by decide
    unfold completeMailboxSnapshot
    rw [hnone, hcompleted]
  obtain ⟨rfl, rfl⟩ := Prod.mk.inj (Option.some.inj (hcall.symm.trans hends))
  obtain ⟨generation, hperm⟩ := hexact mixedSnapshot rfl (by decide)
  have hlength := hperm.length_eq
  have htwo : (twoThreads.threads generation).length = 2 := by
    simp only [twoThreads]
    split <;> rfl
  rw [htwo] at hlength
  exact absurd hlength (by decide)

end ElectronicMail.Mailbox
