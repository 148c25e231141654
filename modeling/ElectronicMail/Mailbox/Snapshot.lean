import ElectronicMail.Foundations.Sections
import ElectronicMail.Offline.MailboxSnapshot

/-!
# Snapshots that are put together

A mailbox is read in pages. Rows are the same when they share one of their merge keys, and a row
comes in only when none of its keys has been seen. `preservingLoadedPages` puts the loaded rows
after a first page that has been read again; `MailboxPageAccumulator` puts the pages of a cursor
chain after one another.
-/

namespace ElectronicMail.Mailbox

open Foundations
open Offline (MailboxLabel MailboxCounts MailboxCompletions monotonicMax
  monotonicCompletion isWhitespaceOrNewline)

/-! ## Data -/

/-- A row of a mailbox. `lifecycleSourceIds` are the source records of its updates and `content`
is the rest. -/
structure GmailThreadRow where
  threadId : String
  entityId : Option String
  aiGroupId : Option String
  latestSourceRecordId : String
  lifecycleSourceIds : List String
  latestMessageAt : Option String
  latestReceivedAt : String
  content : String
  deriving DecidableEq

inductive MergeKey where
  | thread (id : String)
  | source (id : String)
  | entity (id : String)
  | group (id : String)
  deriving DecidableEq

abbrev GmailThreadSection := Section String String GmailThreadRow

structure MailboxResponse where
  label : MailboxLabel
  totalThreads : Int
  unreadThreads : Option Int
  nextCursor : Option (List Char)
  loadedThreads : Option Int
  windowDays : Option Int
  sections : List GmailThreadSection
  counts : MailboxCounts
  pendingCount : Option Int
  mailboxRevision : Option (List Char)
  generatedAt : Option Offline.Timestamp
  oldestImportedAt : Option Offline.Timestamp
  fullImportRunning : Option Bool
  completions : MailboxCompletions
  syncGeneration : Option (List Char)
  phase : Option Nat
  lastProgressAt : Option Offline.Timestamp
  accountWarnings : Option (List String)
  deriving DecidableEq

/-- `sections.flatMap(\.rows)`. -/
def MailboxResponse.rows (m : MailboxResponse) : List GmailThreadRow := Section.allRows m.sections

/-- `sections.reduce(0) { $0 + $1.rows.count }`. -/
def MailboxResponse.visibleRows (m : MailboxResponse) : Int := m.rows.length

/-- `text?.isEmpty == false ? text : nil`. -/
def nonempty (text : Option (List Char)) : Option (List Char) :=
  text.filter fun t => !t.isEmpty

/-- `nextCursor?.isEmpty != false`. -/
def MailboxResponse.reachedEnd (m : MailboxResponse) : Bool := (nonempty m.nextCursor).isNone

/-- `trimmingCharacters(in: .whitespacesAndNewlines)` of a revision, unless it is empty. -/
def trimmed (text : Option (List Char)) : Option (List Char) :=
  nonempty (text.map (Chars.trim isWhitespaceOrNewline))

/-! ## Merge keys -/

/-- `mergeKeys(for:)`. -/
def mergeKeys (row : GmailThreadRow) : List MergeKey :=
  [.thread row.threadId, .source row.latestSourceRecordId] ++
    (row.entityId.filter (· ≠ "")).toList.map .entity ++
    (row.aiGroupId.filter (· ≠ "")).toList.map .group ++
    row.lifecycleSourceIds.map .source

/-- `rows.filter { insertMergeKeysIfUnique(for: $0, into: &seenRowKeys) }`, with the keys that
have been seen then. -/
def uniqueRows : List GmailThreadRow → List MergeKey → List GmailThreadRow × List MergeKey
  | [], seen => ([], seen)
  | row :: rows, seen =>
    if (mergeKeys row).any fun key => seen.contains key then uniqueRows rows seen
    else
      let rest := uniqueRows rows (mergeKeys row ++ seen)
      (row :: rest.1, rest.2)

/-- Sections that are put together, with the keys that have been seen. -/
structure Merged where
  sections : List GmailThreadSection
  seenRowKeys : List MergeKey

def Merged.start (sections : List GmailThreadSection) : Merged where
  sections := sections
  seenRowKeys := (Section.allRows sections).flatMap mergeKeys

def Merged.appendSection (merged : Merged) (section_ : GmailThreadSection) : Merged where
  sections := Section.extend section_.id section_.title
    (uniqueRows section_.rows merged.seenRowKeys).1 merged.sections
  seenRowKeys := (uniqueRows section_.rows merged.seenRowKeys).2

def Merged.append (merged : Merged) (sections : List GmailThreadSection) : Merged :=
  sections.foldl Merged.appendSection merged

/-! ## Loaded pages -/

def refreshedCounts (current firstPage : MailboxCounts) : MailboxCounts :=
  { MailboxCounts.merge current firstPage with
    readyCount := firstPage.readyCount <|> current.readyCount }

/-- `firstPageIsAuthoritative`. -/
def MailboxResponse.isAuthoritativeFirstPage (firstPage : MailboxResponse) : Bool :=
  firstPage.reachedEnd && firstPage.fullImportRunning != some true &&
    firstPage.completions.fullImportCompleted != some false &&
    decide (firstPage.totalThreads ≤ firstPage.visibleRows) &&
    decide (firstPage.totalThreads ≤
      max (firstPage.loadedThreads.getD firstPage.visibleRows) firstPage.visibleRows) &&
    (firstPage.syncGeneration.isNone || firstPage.completions.historyMetadataComplete == some true)

/-- Whether `preservingLoadedPages` takes the first page as it is. -/
def MailboxResponse.replacedBy (current firstPage : MailboxResponse) (discardStalePages : Bool) :
    Bool :=
  let generationChanged :=
    firstPage.syncGeneration.isSome && current.syncGeneration != firstPage.syncGeneration
  let currentRevision := trimmed current.mailboxRevision
  let firstPageRevision := trimmed firstPage.mailboxRevision
  let revisionChanged := currentRevision.isSome && firstPageRevision.isSome &&
    currentRevision != firstPageRevision
  discardStalePages || generationChanged || (revisionChanged && firstPage.isAuthoritativeFirstPage)

/-- The rows of the first page, then those loaded before that are not among them. -/
def MailboxResponse.mergedWith (current firstPage : MailboxResponse) : MailboxResponse :=
  let nextSections := ((Merged.start firstPage.sections).append current.sections).sections
  let loaded : Int := (Section.allRows nextSections).length
  let firstPageLoaded := firstPage.loadedThreads.getD firstPage.visibleRows
  let isStillComplete := firstPage.fullImportRunning != some true &&
    firstPage.completions.fullImportCompleted != some false &&
    current.completions.fullImportCompleted == some true &&
    decide (firstPage.totalThreads ≤ loaded)
  let mergedImportCompleted :=
    match firstPage.completions.fullImportCompleted with
    | some completed => some completed
    | none =>
      if firstPage.fullImportRunning == some true then some false
      else if isStillComplete then some true
      else current.completions.fullImportCompleted
  { label := firstPage.label
    totalThreads := firstPage.totalThreads
    unreadThreads := firstPage.unreadThreads <|> current.unreadThreads
    nextCursor := if firstPageLoaded < loaded then current.nextCursor else firstPage.nextCursor
    loadedThreads :=
      some (max (max (firstPage.loadedThreads.getD 0) (current.loadedThreads.getD 0)) loaded)
    windowDays := firstPage.windowDays <|> current.windowDays
    sections := nextSections
    counts := refreshedCounts current.counts firstPage.counts
    pendingCount := firstPage.pendingCount <|> current.pendingCount
    mailboxRevision := firstPage.mailboxRevision <|> current.mailboxRevision
    generatedAt := firstPage.generatedAt <|> current.generatedAt
    oldestImportedAt := firstPage.oldestImportedAt <|> current.oldestImportedAt
    fullImportRunning := firstPage.fullImportRunning <|> current.fullImportRunning
    completions :=
      { MailboxCompletions.merge current.completions firstPage.completions with
        fullImportCompleted := mergedImportCompleted }
    syncGeneration := firstPage.syncGeneration <|> current.syncGeneration
    phase := firstPage.phase <|> current.phase
    lastProgressAt := firstPage.lastProgressAt <|> current.lastProgressAt
    accountWarnings := none }

def MailboxResponse.preservingLoadedPages (current firstPage : MailboxResponse)
    (discardStalePages : Bool) : MailboxResponse :=
  if current.replacedBy firstPage discardStalePages then firstPage
  else current.mergedWith firstPage

/-! ## The accumulator of a cursor chain -/

/-- `MailboxPageAccumulator`: what the pages say beside their rows, and the rows. -/
structure MailboxPageAccumulator where
  metadata : MailboxResponse
  merged : Merged
  visibleRowCount : Int

/-- `init` and `reset(to:)`. -/
def MailboxPageAccumulator.start (response : MailboxResponse) : MailboxPageAccumulator where
  metadata := { response with sections := [], accountWarnings := none }
  merged := Merged.start response.sections
  visibleRowCount := response.visibleRows

/-- The progress counters after a page; `onlyPage` when its generation is another one. -/
def appendedCounts (onlyPage : Bool) (metadata page : MailboxCounts) : MailboxCounts :=
  let counts := if onlyPage then page else MailboxCounts.merge metadata page
  { counts with readyCount := page.readyCount <|> metadata.readyCount }

def appendedCompletions (onlyPage : Bool) (metadata page : MailboxCompletions) :
    MailboxCompletions :=
  let completions := if onlyPage then page else MailboxCompletions.merge metadata page
  { completions with
    fullImportCompleted := page.fullImportCompleted <|> metadata.fullImportCompleted }

/-- What the pages say once another has come, with the rows there are then. -/
def appendedMetadata (metadata page : MailboxResponse) (currentVisibleRows visibleRows : Int) :
    MailboxResponse :=
  let total := max visibleRows (max metadata.totalThreads page.totalThreads)
  let loaded := min total (max visibleRows (max (metadata.loadedThreads.getD currentVisibleRows)
    (page.loadedThreads.getD page.visibleRows)))
  let useOnlyPageProgress := metadata.syncGeneration.isSome && page.syncGeneration.isSome &&
    metadata.syncGeneration != page.syncGeneration
  { label := metadata.label
    totalThreads := total
    unreadThreads := page.unreadThreads <|> metadata.unreadThreads
    nextCursor := page.nextCursor
    loadedThreads := some loaded
    windowDays := page.windowDays <|> metadata.windowDays
    sections := []
    counts := appendedCounts useOnlyPageProgress metadata.counts page.counts
    pendingCount := page.pendingCount <|> metadata.pendingCount
    mailboxRevision := page.mailboxRevision <|> metadata.mailboxRevision
    generatedAt := page.generatedAt <|> metadata.generatedAt
    oldestImportedAt := page.oldestImportedAt <|> metadata.oldestImportedAt
    fullImportRunning := page.fullImportRunning <|> metadata.fullImportRunning
    completions := appendedCompletions useOnlyPageProgress metadata.completions page.completions
    syncGeneration := page.syncGeneration <|> metadata.syncGeneration
    phase := page.phase <|> metadata.phase
    lastProgressAt := page.lastProgressAt <|> metadata.lastProgressAt
    accountWarnings := none }

def MailboxPageAccumulator.append (a : MailboxPageAccumulator) (page : MailboxResponse) :
    MailboxPageAccumulator :=
  let merged := a.merged.append page.sections
  let visibleRowCount : Int := (Section.allRows merged.sections).length
  { metadata := appendedMetadata a.metadata page a.visibleRowCount visibleRowCount
    merged := merged
    visibleRowCount := visibleRowCount }

def MailboxPageAccumulator.snapshot (a : MailboxPageAccumulator) : MailboxResponse :=
  { a.metadata with sections := a.merged.sections }

/-! ## What has been put together -/

structure Merged.Distinct (merged : Merged) : Prop where
  ids : (Section.ids merged.sections).Nodup
  threads : ((Section.allRows merged.sections).map GmailThreadRow.threadId).Nodup
  seen : ∀ row ∈ Section.allRows merged.sections, MergeKey.thread row.threadId ∈ merged.seenRowKeys

theorem thread_mem_mergeKeys (row : GmailThreadRow) :
    MergeKey.thread row.threadId ∈ mergeKeys row := by
  simp [mergeKeys]

theorem Merged.distinct_start {sections : List GmailThreadSection}
    (hids : (Section.ids sections).Nodup)
    (hthreads : ((Section.allRows sections).map GmailThreadRow.threadId).Nodup) :
    (Merged.start sections).Distinct where
  ids := hids
  threads := hthreads
  seen := fun row hrow => List.mem_flatMap.2 ⟨row, hrow, thread_mem_mergeKeys row⟩

section

variable (rows : List GmailThreadRow) (seen : List MergeKey)

theorem uniqueRows_sublist :
    (uniqueRows rows seen).1.Sublist rows := by
  induction rows generalizing seen with
  | nil => exact .slnil
  | cons row rows ih =>
    unfold uniqueRows
    split
    · exact (ih seen).cons row
    · exact (ih _).cons_cons row

theorem subset_seen_uniqueRows :
    seen ⊆ (uniqueRows rows seen).2 := by
  induction rows generalizing seen with
  | nil => exact fun key hkey => hkey
  | cons row rows ih =>
    unfold uniqueRows
    split
    · exact ih seen
    · exact fun key hkey => ih _ (List.mem_append_right _ hkey)

theorem uniqueRows_spec :
    ((uniqueRows rows seen).1.map GmailThreadRow.threadId).Nodup ∧
      ∀ row ∈ (uniqueRows rows seen).1, MergeKey.thread row.threadId ∉ seen ∧
        MergeKey.thread row.threadId ∈ (uniqueRows rows seen).2 := by
  induction rows generalizing seen with
  | nil => exact ⟨List.nodup_nil, fun row hrow => nomatch hrow⟩
  | cons row rows ih =>
    unfold uniqueRows
    split
    · exact ih seen
    next hnew =>
      obtain ⟨hnodup, hrest⟩ := ih (mergeKeys row ++ seen)
      have hthread : MergeKey.thread row.threadId ∉ seen := by
        intro hin
        exact hnew (List.any_eq_true.2 ⟨_, thread_mem_mergeKeys row, List.contains_iff_mem.2 hin⟩)
      refine ⟨?_, ?_⟩
      · rw [List.map_cons, List.nodup_cons]
        refine ⟨?_, hnodup⟩
        intro hin
        obtain ⟨other, hother, heq⟩ := List.mem_map.1 hin
        apply (hrest other hother).1
        rw [heq]
        exact List.mem_append_left _ (thread_mem_mergeKeys row)
      · intro other hother
        rcases List.mem_cons.1 hother with rfl | hother
        · refine ⟨hthread, ?_⟩
          exact subset_seen_uniqueRows rows _ (List.mem_append_left _ (thread_mem_mergeKeys other))
        · obtain ⟨hout, hin⟩ := hrest other hother
          exact ⟨fun hseen => hout (List.mem_append_right _ hseen), hin⟩

end

variable {merged : Merged}

theorem Merged.Distinct.appendSection (h : merged.Distinct) (section_ : GmailThreadSection) :
    (merged.appendSection section_).Distinct := by
  obtain ⟨hnodup, hnew⟩ := uniqueRows_spec section_.rows merged.seenRowKeys
  have hperm := Section.allRows_extend h.ids section_.id section_.title
    (uniqueRows section_.rows merged.seenRowKeys).1
  refine ⟨Section.nodup_ids_extend h.ids _ _ _, ?_, ?_⟩
  · apply (hperm.map GmailThreadRow.threadId).nodup_iff.2
    rw [List.map_append, List.nodup_append]
    refine ⟨h.threads, hnodup, ?_⟩
    intro a ha b hb heq
    obtain ⟨old, hold, rfl⟩ := List.mem_map.1 ha
    obtain ⟨row, hrow, rfl⟩ := List.mem_map.1 hb
    exact (hnew row hrow).1 (heq ▸ h.seen old hold)
  · intro row hrow
    rcases List.mem_append.1 (hperm.mem_iff.1 hrow) with hold | hrow
    · exact subset_seen_uniqueRows _ _ (h.seen row hold)
    · exact (hnew row hrow).2

theorem Merged.mem_appendSection (h : merged.Distinct) {section_ : GmailThreadSection}
    {row : GmailThreadRow} (hrow : row ∈ Section.allRows (merged.appendSection section_).sections) :
    row ∈ Section.allRows merged.sections ∨ row ∈ section_.rows := by
  have hperm := Section.allRows_extend h.ids section_.id section_.title
    (uniqueRows section_.rows merged.seenRowKeys).1
  rcases List.mem_append.1 (hperm.mem_iff.1 hrow) with hold | hnew
  · exact .inl hold
  · exact .inr ((uniqueRows_sublist _ _).subset hnew)

theorem Merged.Distinct.append (h : merged.Distinct) (sections : List GmailThreadSection) :
    (merged.append sections).Distinct ∧
      ∀ row ∈ Section.allRows (merged.append sections).sections,
        row ∈ Section.allRows merged.sections ∨ row ∈ Section.allRows sections := by
  induction sections generalizing merged with
  | nil => exact ⟨h, fun row hrow => .inl hrow⟩
  | cons section_ sections ih =>
    obtain ⟨hdistinct, hrows⟩ := ih (h.appendSection section_)
    refine ⟨hdistinct, ?_⟩
    intro row hrow
    have hall : Section.allRows (section_ :: sections) =
        section_.rows ++ Section.allRows sections := rfl
    rw [hall]
    rcases hrows row hrow with hin | hin
    · rcases Merged.mem_appendSection h hin with hold | hnew
      · exact .inl hold
      · exact .inr (List.mem_append_left _ hnew)
    · exact .inr (List.mem_append_right _ hin)

end ElectronicMail.Mailbox
