import ElectronicMail.Foundations.Chars

/-!
# Snapshots of a mailbox

A stored mailbox is an accumulated snapshot. `cacheSafeSnapshot` decides what becomes of it
when another snapshot arrives: snapshots of one sync generation are merged section by
section, a complete one replaces the rows, and one of another generation replaces everything
unless it is demonstrably older.
-/

namespace ElectronicMail.Offline

open Foundations (Chars.trim)

/-! ## Data -/

inductive MailboxLabel where
  | inbox
  | sent
  | drafts
  | spam
  | trash
  | archive
  | all
  | starred
  deriving DecidableEq

/-- A row of a mailbox. `content` is the rest of the copy. -/
structure GmailThreadRow where
  threadId : Nat
  isUnread : Bool
  content : Nat
  deriving DecidableEq

structure GmailThreadSection where
  id : Nat
  title : Nat
  rows : List GmailThreadRow
  deriving DecidableEq

structure Timestamp where
  text : Nat
  date : Option Int
  deriving DecidableEq

@[ext]
structure MailboxCounts where
  readyCount : Option Int
  initialTargetCount : Option Int
  initialMetadataCount : Option Int
  initialBodyTargetCount : Option Int
  initialBodyReadyCount : Option Int
  historyMetadataCount : Option Int
  historyBodyReadyCount : Option Int
  estimatedTotalCount : Option Int
  deriving DecidableEq

@[ext]
structure MailboxCompletions where
  fullImportCompleted : Option Bool
  initialWindowComplete : Option Bool
  historyMetadataComplete : Option Bool
  historyBodyComplete : Option Bool
  deriving DecidableEq

@[ext]
structure MailboxResponse where
  label : MailboxLabel
  totalThreads : Int
  unreadThreads : Option Int
  nextCursor : Option (List Char)
  loadedThreads : Option Int
  windowDays : Option Int
  sections : List GmailThreadSection
  counts : MailboxCounts
  pendingCount : Option Int
  mailboxRevision : Option (List Char)
  generatedAt : Option Timestamp
  oldestImportedAt : Option Timestamp
  fullImportRunning : Option Bool
  completions : MailboxCompletions
  syncGeneration : Option (List Char)
  phase : Option Nat
  lastProgressAt : Option Timestamp
  accountWarnings : Option (List Nat)
  deriving DecidableEq

/-- `sections.flatMap(\.rows)`. -/
def sectionRows (sections : List GmailThreadSection) : List GmailThreadRow :=
  sections.flatMap GmailThreadSection.rows

def MailboxResponse.rows (m : MailboxResponse) : List GmailThreadRow := sectionRows m.sections

def MailboxResponse.visibleRows (m : MailboxResponse) : Int := m.rows.length

/-- `max(loadedThreads ?? visibleRows, visibleRows)`. -/
def MailboxResponse.loadedRows (m : MailboxResponse) : Int :=
  max (m.loadedThreads.getD m.visibleRows) m.visibleRows

/-! ## Texts and dates -/

/-- `CharacterSet.whitespacesAndNewlines`. -/
def isWhitespaceOrNewline (c : Char) : Bool :=
  let n := c.toNat
  (9 ≤ n && n ≤ 13) || n = 0x20 || n = 0x85 || n = 0xa0 || n = 0x1680 ||
    (0x2000 ≤ n && n ≤ 0x200a) || n = 0x2028 || n = 0x2029 || n = 0x202f || n = 0x205f ||
    n = 0x3000

/-- The trimmed text, unless it is empty: `normalizedGeneration` and
`normalizedMailboxRevision`. -/
def normalized (text : Option (List Char)) : Option (List Char) :=
  text.bind fun t =>
    let value := Chars.trim isWhitespaceOrNewline t
    if value.isEmpty then none else some value

/-- `normalizedGeneration(syncGeneration)`. -/
def MailboxResponse.generation (m : MailboxResponse) : Option (List Char) :=
  normalized m.syncGeneration

def timestampDate (t : Option Timestamp) : Option Int := t.bind Timestamp.date

def progressDate (m : MailboxResponse) : Option Int :=
  match timestampDate m.lastProgressAt, timestampDate m.generatedAt with
  | some progressDate, some generatedDate => some (max progressDate generatedDate)
  | some progressDate, none => some progressDate
  | none, some generatedDate => some generatedDate
  | none, none => none

def isDemonstrablyOlder (candidate reference : MailboxResponse) : Bool :=
  match progressDate candidate, progressDate reference with
  | some candidateDate, some referenceDate => candidateDate < referenceDate
  | _, _ => false

def latestTimestampValue (lhs rhs : Option Timestamp) : Option Timestamp :=
  match timestampDate lhs, timestampDate rhs with
  | some lhsDate, some rhsDate => if rhsDate ≥ lhsDate then rhs else lhs
  | some _, none => lhs
  | none, some _ => rhs
  | none, none => rhs.or lhs

def earliestTimestampValue (lhs rhs fallback : Option Timestamp) : Option Timestamp :=
  match timestampDate lhs, timestampDate rhs with
  | some lhsDate, some rhsDate => if rhsDate < lhsDate then rhs else lhs
  | some _, none => lhs
  | none, some _ => rhs
  | none, none => fallback.or (rhs.or lhs)

def monotonicMax : Option Int → Option Int → Option Int
  | some lhs, some rhs => some (max lhs rhs)
  | some lhs, none => some lhs
  | none, rhs => rhs

def monotonicCompletion (lhs rhs : Option Bool) : Option Bool :=
  if lhs = some true ∨ rhs = some true then some true else rhs.or lhs

/-- `monotonicMax` of every counter. -/
def MailboxCounts.merge (cached incoming : MailboxCounts) : MailboxCounts where
  readyCount := monotonicMax cached.readyCount incoming.readyCount
  initialTargetCount := monotonicMax cached.initialTargetCount incoming.initialTargetCount
  initialMetadataCount := monotonicMax cached.initialMetadataCount incoming.initialMetadataCount
  initialBodyTargetCount :=
    monotonicMax cached.initialBodyTargetCount incoming.initialBodyTargetCount
  initialBodyReadyCount :=
    monotonicMax cached.initialBodyReadyCount incoming.initialBodyReadyCount
  historyMetadataCount := monotonicMax cached.historyMetadataCount incoming.historyMetadataCount
  historyBodyReadyCount :=
    monotonicMax cached.historyBodyReadyCount incoming.historyBodyReadyCount
  estimatedTotalCount := monotonicMax cached.estimatedTotalCount incoming.estimatedTotalCount

/-- `monotonicCompletion` of every flag. -/
def MailboxCompletions.merge (cached incoming : MailboxCompletions) : MailboxCompletions where
  fullImportCompleted :=
    monotonicCompletion cached.fullImportCompleted incoming.fullImportCompleted
  initialWindowComplete :=
    monotonicCompletion cached.initialWindowComplete incoming.initialWindowComplete
  historyMetadataComplete :=
    monotonicCompletion cached.historyMetadataComplete incoming.historyMetadataComplete
  historyBodyComplete :=
    monotonicCompletion cached.historyBodyComplete incoming.historyBodyComplete

/-! ## Sections -/

/-- `for row in section.rows where seenThreadIDs.insert(row.threadID).inserted`: the rows of
threads that have not been seen, and the threads that have been seen then. -/
def unseenRows : List GmailThreadRow → List Nat → List GmailThreadRow × List Nat
  | [], seen => ([], seen)
  | row :: rows, seen =>
    if seen.contains row.threadId then unseenRows rows seen
    else
      let rest := unseenRows rows (row.threadId :: seen)
      (row :: rest.1, rest.2)

/-- The sections, with one for the source opened at the end unless there is one with its id. -/
def openSection (sections : List GmailThreadSection) (source : GmailThreadSection) :
    List GmailThreadSection :=
  if sections.any fun s => s.id == source.id then sections
  else sections ++ [⟨source.id, source.title, []⟩]

def takeRows (id : Nat) (rows : List GmailThreadRow) (s : GmailThreadSection) :
    GmailThreadSection :=
  if s.id == id then { s with rows := s.rows ++ rows } else s

/-- The body of the loop of `append`: the section takes the rows that have not been seen. -/
def appendSection (merged : List GmailThreadSection × List Nat) (source : GmailThreadSection) :
    List GmailThreadSection × List Nat :=
  let unseen := unseenRows source.rows merged.2
  ((openSection merged.1 source).map (takeRows source.id unseen.1), unseen.2)

def mergedSections (primary secondary : List GmailThreadSection) : List GmailThreadSection :=
  (secondary.foldl appendSection (primary.foldl appendSection ([], []))).1

/-! ## Merging -/

/-- `isAuthoritativeCacheSnapshot`. -/
def MailboxResponse.isAuthoritative (m : MailboxResponse) : Bool :=
  (m.generation.isNone || m.completions.historyMetadataComplete == some true) &&
    (m.fullImportRunning != some true && m.completions.fullImportCompleted != some false &&
      (m.nextCursor.getD []).isEmpty) &&
    (m.totalThreads ≤ m.visibleRows && m.totalThreads ≤ m.loadedRows)

def MailboxResponse.withMonotonicProgress (m cached : MailboxResponse) : MailboxResponse :=
  let completions := cached.completions.merge m.completions
  { m with
    counts := cached.counts.merge m.counts
    generatedAt := latestTimestampValue cached.generatedAt m.generatedAt
    oldestImportedAt :=
      earliestTimestampValue cached.oldestImportedAt m.oldestImportedAt m.oldestImportedAt
    fullImportRunning :=
      if completions.fullImportCompleted = some true then some false else m.fullImportRunning
    completions := completions
    lastProgressAt := latestTimestampValue cached.lastProgressAt m.lastProgressAt
    accountWarnings := none }

/-- The source of the cursor: the deeper snapshot, `primary` when none is. -/
def deeper (cached incoming primary : MailboxResponse) : MailboxResponse :=
  if cached.loadedRows > incoming.loadedRows ∨
      (cached.loadedRows = incoming.loadedRows ∧ cached.visibleRows > incoming.visibleRows) then
    cached
  else if incoming.loadedRows > cached.loadedRows ∨
      (incoming.loadedRows = cached.loadedRows ∧ incoming.visibleRows > cached.visibleRows) then
    incoming
  else primary

/-- `mergingSameGeneration`, with the preferred snapshot first. -/
def mergingPreferred (cached incoming preferred secondary : MailboxResponse) : MailboxResponse :=
  let sections := mergedSections preferred.sections secondary.sections
  let visible : Int := (sectionRows sections).length
  let loaded := max (max visible cached.loadedRows) incoming.loadedRows
  let completions := cached.completions.merge incoming.completions
  { label := preferred.label
    totalThreads := max (max cached.totalThreads incoming.totalThreads) loaded
    unreadThreads := preferred.unreadThreads.or secondary.unreadThreads
    nextCursor := (deeper cached incoming preferred).nextCursor
    loadedThreads := some loaded
    windowDays := preferred.windowDays.or secondary.windowDays
    sections := sections
    counts := cached.counts.merge incoming.counts
    pendingCount := preferred.pendingCount.or secondary.pendingCount
    mailboxRevision := preferred.mailboxRevision.or secondary.mailboxRevision
    generatedAt := latestTimestampValue cached.generatedAt incoming.generatedAt
    oldestImportedAt :=
      earliestTimestampValue cached.oldestImportedAt incoming.oldestImportedAt
        (deeper cached incoming preferred).oldestImportedAt
    fullImportRunning :=
      if completions.fullImportCompleted = some true then some false
      else preferred.fullImportRunning.or secondary.fullImportRunning
    completions := completions
    syncGeneration := preferred.syncGeneration.or secondary.syncGeneration
    phase := preferred.phase.or secondary.phase
    lastProgressAt := latestTimestampValue cached.lastProgressAt incoming.lastProgressAt
    accountWarnings := none }

def mergingSameGeneration (cached incoming : MailboxResponse) : MailboxResponse :=
  if isDemonstrablyOlder incoming cached then mergingPreferred cached incoming cached incoming
  else mergingPreferred cached incoming incoming cached

def cacheSafeSnapshot (cached incoming : MailboxResponse) : MailboxResponse :=
  if cached.label ≠ incoming.label then incoming
  else if cached.generation ≠ incoming.generation then
    if incoming.generation.isNone then cached
    else if cached.generation.isSome && isDemonstrablyOlder incoming cached then cached
    else incoming
  else if incoming.isAuthoritative then
    if isDemonstrablyOlder incoming cached then cached
    else incoming.withMonotonicProgress cached
  else mergingSameGeneration cached incoming

/-- `inheritingCacheIdentityIfNeeded`. -/
def MailboxResponse.inheriting (m cached : MailboxResponse) : MailboxResponse :=
  if cached.label ≠ m.label then m
  else
    { m with
      counts :=
        { readyCount := m.counts.readyCount.or cached.counts.readyCount
          initialTargetCount := m.counts.initialTargetCount.or cached.counts.initialTargetCount
          initialMetadataCount :=
            m.counts.initialMetadataCount.or cached.counts.initialMetadataCount
          initialBodyTargetCount :=
            m.counts.initialBodyTargetCount.or cached.counts.initialBodyTargetCount
          initialBodyReadyCount :=
            m.counts.initialBodyReadyCount.or cached.counts.initialBodyReadyCount
          historyMetadataCount :=
            m.counts.historyMetadataCount.or cached.counts.historyMetadataCount
          historyBodyReadyCount :=
            m.counts.historyBodyReadyCount.or cached.counts.historyBodyReadyCount
          estimatedTotalCount :=
            m.counts.estimatedTotalCount.or cached.counts.estimatedTotalCount }
      pendingCount := m.pendingCount.or cached.pendingCount
      mailboxRevision := m.mailboxRevision.or cached.mailboxRevision
      generatedAt := m.generatedAt.or cached.generatedAt
      oldestImportedAt := m.oldestImportedAt.or cached.oldestImportedAt
      fullImportRunning := m.fullImportRunning.or cached.fullImportRunning
      completions :=
        { fullImportCompleted :=
            m.completions.fullImportCompleted.or cached.completions.fullImportCompleted
          initialWindowComplete :=
            m.completions.initialWindowComplete.or cached.completions.initialWindowComplete
          historyMetadataComplete :=
            m.completions.historyMetadataComplete.or cached.completions.historyMetadataComplete
          historyBodyComplete :=
            m.completions.historyBodyComplete.or cached.completions.historyBodyComplete }
      syncGeneration := m.syncGeneration.or cached.syncGeneration
      phase := m.phase.or cached.phase
      lastProgressAt := m.lastProgressAt.or cached.lastProgressAt
      accountWarnings := none }

def MailboxResponse.withMailboxCounts (m : MailboxResponse) (totalThreads : Int)
    (unreadThreads : Option Int) (loadedThreads : Int) : MailboxResponse :=
  { m with
    totalThreads := totalThreads
    unreadThreads := unreadThreads
    loadedThreads := some loadedThreads
    accountWarnings := none }

/-- The sections without the rows of some threads, and without those that are empty then. -/
def removeRows (threadIds : List Nat) (sections : List GmailThreadSection) :
    List GmailThreadSection :=
  sections.filterMap fun s =>
    let rows := s.rows.filter fun r => !threadIds.contains r.threadId
    if rows.isEmpty then none else some { s with rows := rows }

def MailboxResponse.removingCachedThreadIds (m : MailboxResponse) (threadIds : List Nat) :
    MailboxResponse :=
  let removedRows := m.rows.filter fun r => threadIds.contains r.threadId
  if removedRows.isEmpty then m
  else
    let sections := removeRows threadIds m.sections
    let visible : Int := (sectionRows sections).length
    let removedUnread : Int := (removedRows.filter GmailThreadRow.isUnread).length
    { m with
      totalThreads := max visible (m.totalThreads - removedRows.length)
      unreadThreads := m.unreadThreads.map fun unread => max 0 (unread - removedUnread)
      loadedThreads := m.loadedThreads.map fun loaded => max visible (loaded - removedRows.length)
      sections := sections
      accountWarnings := none }

def pageOf (generation : Option (List Char)) (generatedAt : Option Timestamp)
    (rows : List GmailThreadRow) : MailboxResponse where
  label := .inbox
  totalThreads := 9
  unreadThreads := none
  nextCursor := none
  loadedThreads := some rows.length
  windowDays := none
  sections := [⟨0, 0, rows⟩]
  counts := ⟨none, none, none, none, none, none, none, none⟩
  pendingCount := none
  mailboxRevision := none
  generatedAt := generatedAt
  oldestImportedAt := none
  fullImportRunning := none
  completions := ⟨none, none, none, none⟩
  syncGeneration := generation
  phase := none
  lastProgressAt := none
  accountWarnings := none

end ElectronicMail.Offline
