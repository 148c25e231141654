import ElectronicMail.Foundations.Run
import ElectronicMail.Progress.State

/-!
# Transactions on the progress

The functions of `mail_groups.py` that write the progress of an import or what it is
computed from, each as one atomic transaction on the tables of an account, and the
step function `step` that runs any of them. A call that raises, or whose guard finds
no row, leaves the tables as they are.
-/

namespace ElectronicMail.Progress

open Foundations
open Messages (BodyFetchStatus)

def Account.begin (a : Account) : Account := { a with now := a.now + 1 }

/-- `dict.fromkeys` of the non-empty ids. -/
def uniqueIds (ids : List String) : List String := (ids.filter fun id => id ≠ "").eraseDups

/-! ## Messages -/

def upsertGmailMessagesOnConnection (a : Account) (records : List Record) : Account :=
  let messages := upsertMessages a.now a.messages records
  { a with
    messages := messages
    state := if records.isEmpty then a.state else a.state.reopenHistory (bodiesReady messages) }

def upsertGmailMessages (a : Account) (records : List Record) : Account :=
  upsertGmailMessagesOnConnection a.begin records

/-- The entries of the active generation that a predicate on threads selects. -/
def selectsEntry (s : ImportState) (p : String → Bool) (e : WindowEntry) : Bool :=
  s.syncGeneration = some e.generationId && p e.gmailThreadId

def updateGmailBodyProgressOnConnection (a : Account) : Account :=
  let initialReady :=
    match a.state.syncGeneration with
    | none => 0
    | some generation => bodyReadyCount a.entries generation a.state.initialBodyTargetCount
  { a with
    state := a.state.bodyProgress initialReady (readyThreads a.messages).length
      (bodiesReady a.messages) }

/-- The entries of the threads get their `body_ready_at` where every body is ready. -/
def settleReadyEntries (a : Account) (threads : List String) : Account :=
  { a with
    entries := Table.updateWhere
      (selectsEntry a.state fun thread => thread ∈ threads && threadReady a.messages thread)
      WindowEntry.settleBody a.entries }

/-- `update_gmail_message_bodies`; a record that is not fetched makes the call raise. -/
def updateGmailMessageBodies (a : Account) (records : List Record) : Account :=
  if records.isEmpty || records.any (fun r => r.bodyFetchStatus ≠ .fetched) then a
  else
    let messages := Table.updateWhere
      (fun m => records.any (fun r => r.messageId = m.messageId) && m.bodyFetchStatus ≠ .fetched)
      (fun m => { m with bodyFetchStatus := .fetched }) a.messages
    updateGmailBodyProgressOnConnection
      (settleReadyEntries { a.begin with messages := messages } (records.map Record.threadKey))

/-- The rows `mark_gmail_messages_body_fetch_state` updates. -/
def marksMessage (ids : List String) (status : BodyFetchStatus) (m : StoredMessage) : Bool :=
  m.messageId ∈ ids && (status = .fetched || !m.isReady)

def markGmailMessagesBodyFetchState (a : Account) (messageIds : List String)
    (status : BodyFetchStatus) : Account :=
  let ids := uniqueIds messageIds
  let messages := Table.updateWhere (marksMessage ids status)
    (fun m => { m with bodyFetchStatus := status }) a.messages
  if ids.isEmpty then a
  else if a.messages.any (marksMessage ids status) && status.isReady then
    updateGmailBodyProgressOnConnection
      (settleReadyEntries { a.begin with messages := messages }
        ((messages.filter fun m => m.messageId ∈ ids).map threadKey))
  else { a.begin with messages := messages }

def markGmailHistoryBodyCompleteIfReady (a : Account) : Account :=
  updateGmailBodyProgressOnConnection a.begin

def threadStored (messages : List StoredMessage) (thread : String) : Bool :=
  messages.any fun m => threadKey m = thread

/-- An affected entry of the active generation: its thread is gone, or every body that is
left is ready. -/
def entryResolved (s : ImportState) (messages : List StoredMessage) (threads : List String)
    (e : WindowEntry) : Bool :=
  selectsEntry s (fun thread => thread ∈ threads &&
    (!threadStored messages thread || threadReady messages thread)) e

def resolveEntries (s : ImportState) (messages : List StoredMessage) (threads : List String)
    (entries : List WindowEntry) : List WindowEntry :=
  Table.updateWhere (selectsEntry s fun thread =>
      thread ∈ threads && threadStored messages thread && threadReady messages thread)
    WindowEntry.settleBody
    (Table.updateWhere
      (selectsEntry s fun thread => thread ∈ threads && !threadStored messages thread)
      WindowEntry.settle entries)

def recountWindow (a : Account) : Account :=
  match a.state.syncGeneration with
  | none => a
  | some generation =>
    { a with
      state := a.state.countWindow (targetCount a.entries generation)
        (metadataCount a.entries generation) (bodyReadyCount a.entries generation 25) }

def deleteGmailMessages (a : Account) (messageIds : List String) : Account :=
  let ids := uniqueIds messageIds
  let threads := (a.messages.filter fun m => m.messageId ∈ ids).map threadKey
  let messages := a.messages.filter fun m => m.messageId ∉ ids
  let resolved :=
    { a.begin with
      messages := messages
      entries := resolveEntries a.state messages threads a.entries }
  if a.entries.any (entryResolved a.state messages threads) then
    updateGmailBodyProgressOnConnection (recountWindow resolved)
  else resolved

/-! ## Marks of an import -/

def markImportStarted (a : Account) : Account :=
  { a.begin with
    state := { a.state with
      phase :=
        if a.state.syncGeneration.isSome && a.state.historyMetadataComplete then
          some .syncingRecent
        else a.state.phase } }

/-- `mark_import_completed`, with `full_backfill_cursor` given or not. -/
def markImportCompleted (a : Account) (firstBatch backfillCursor backfillCompleted : Bool) :
    Account :=
  { a.begin with
    state := { a.state with
      firstBatchImported := a.state.firstBatchImported || firstBatch
      fullBackfillCompleted :=
        if backfillCompleted then true
        else if backfillCursor then false
        else a.state.fullBackfillCompleted } }

def markHistoryDeltaCompleted (a : Account) : Account :=
  { a.begin with
    state := { a.state with
      phase :=
        if a.state.syncGeneration.isNone then a.state.phase
        else if a.state.historyBodyComplete then some .complete
        else some .usable } }

def markImportError (a : Account) : Account :=
  { a.begin with
    state := { a.state with
      phase := if a.state.syncGeneration.isSome then some .failed else a.state.phase } }

/-! ## Generations -/

/-- The newest of the dates of the messages; a null date counts as the oldest. -/
def newestDate (messages : List StoredMessage) : Option Nat :=
  messages.foldl (fun newest m =>
    match newest, m.internalDate with
    | none, date => date
    | some d, none => some d
    | some d, some date => some (max d date)) none

def threadDate (messages : List StoredMessage) (thread : String) : Option Nat :=
  newestDate (messages.filter fun m => m.gmailThreadId = some thread)

/-- The order of `ROW_NUMBER()`: the newest date first, nulls last, then the larger id. -/
def rankedBefore (messages : List StoredMessage) (thread other : String) : Bool :=
  match threadDate messages thread, threadDate messages other with
  | some d, some d' => decide (d' < d) || (d = d' && decide (other ≤ thread))
  | some _, none => true
  | none, some _ => false
  | none, none => decide (other ≤ thread)

/-- The threads of the messages that have one, in the order of the ranking. -/
def rankedThreads (messages : List StoredMessage) : List String :=
  ((messages.filterMap StoredMessage.gmailThreadId).filter fun t => t ≠ "").dedup.insertionSort
    fun thread other => rankedBefore messages thread other = true

def activatedEntries (messages : List StoredMessage) (generation : String) : List WindowEntry :=
  ((rankedThreads messages).take 100).mapIdx fun position thread =>
    ⟨generation, thread, position, true,
      (messages.filter fun m => m.gmailThreadId = some thread).all StoredMessage.isReady⟩

/-- The state that an activation leaves, from the counts of the tables. -/
def ImportState.activate (s : ImportState) (generation : String)
    (initial bodyReady history historyReady : Nat) (metadataComplete allReady : Bool) :
    ImportState :=
  { s with
    syncGeneration := some generation
    initialTargetCount := initial
    initialMetadataCount := initial
    initialBodyTargetCount := min 25 initial
    initialBodyReadyCount := min (min 25 initial) bodyReady
    historyMetadataCount := history
    historyBodyReadyCount := min history historyReady
    estimatedTotalCount := max s.estimatedTotalCount history
    initialWindowComplete := true
    historyMetadataComplete := metadataComplete
    historyBodyComplete := metadataComplete && allReady
    phase :=
      if metadataComplete && allReady then some .complete
      else if metadataComplete then some .syncingHistory
      else some .usable }

def activateExistingGmailProgressiveSync (a : Account) (generationId : String)
    (historyMetadataComplete : Bool) : Account :=
  let generation := Text.strip generationId
  if generation = "" || a.state.syncGeneration.isSome || !a.state.firstBatchImported then a
  else
    let entries := insertEntries a.entries (activatedEntries a.messages generation)
    { a.begin with
      entries := entries
      state := a.state.activate generation (targetCount entries generation)
        (bodyReadyCount entries generation 25) (threadKeys a.messages).length
        (readyThreads a.messages).length
        (historyMetadataComplete || a.state.fullBackfillCompleted) (bodiesReady a.messages) }

/-- The state that a start leaves: the progress of its own generation is kept, the one of
another generation is dropped. -/
def ImportState.start (s : ImportState) (generation : String) : ImportState :=
  if s.syncGeneration = some generation then
    { s with phase := if s.phase.isSome then s.phase else some .discoveringRecent }
  else
    { s with
      syncGeneration := some generation
      phase := some .discoveringRecent
      initialTargetCount := 0
      initialMetadataCount := 0
      initialBodyTargetCount := 0
      initialBodyReadyCount := 0
      historyMetadataCount := 0
      historyBodyReadyCount := 0
      estimatedTotalCount := 0
      initialWindowComplete := false
      historyMetadataComplete := false
      historyBodyComplete := false }

def startGmailSyncProgress (a : Account) (generationId : String) : Account :=
  let generation := Text.strip generationId
  if generation = "" || a.state.reconcileGeneration ≠ some generation then a
  else
    { a.begin with
      state := a.state.start generation
      entries := a.entries.filter fun e => e.generationId = generation }

/-! ## The initial window -/

def alreadyDiscovered (a : Account) (generation : String) : Bool :=
  a.entries.any (fun e => e.generationId = generation) ||
    (a.state.phase.isSome && a.state.phase ≠ some .discoveringRecent &&
      a.state.phase ≠ some .failed)

def discoveredEntries (generation : String) (threads : List String) : List WindowEntry :=
  threads.mapIdx fun position thread => ⟨generation, thread, position, false, false⟩

/-- The state after a discovery of `target` threads. -/
def ImportState.discover (s : ImportState) (target estimated : Nat) : ImportState :=
  { s with
    initialTargetCount := target
    initialBodyTargetCount := min 25 target
    estimatedTotalCount := max s.estimatedTotalCount estimated
    initialWindowComplete := decide (target = 0)
    firstBatchImported := s.firstBatchImported || decide (target = 0)
    phase := if target = 0 then some .syncingHistory else some .importingMetadata }

def initializeGmailInitialWindow (a : Account) (generation : String) (threadIds : List String)
    (estimated : Nat) : Account :=
  let threads := (uniqueIds threadIds).take 100
  if a.state.syncGeneration ≠ some generation || alreadyDiscovered a generation then a
  else
    { a.begin with
      entries := insertEntries a.entries (discoveredEntries generation threads)
      state := a.state.discover threads.length estimated }

/-- The state after a batch of the initial window, from the counts of its entries. -/
def ImportState.commitBatch (s : ImportState) (target metadata bodyReady : Nat) : ImportState :=
  { s.countWindow target metadata bodyReady with
    firstBatchImported := s.firstBatchImported || decide (0 < metadata) || decide (target = 0)
    phase :=
      if target ≤ metadata ∧ min 25 target ≤ bodyReady then some .usable
      else if target ≤ metadata then some .hydratingPriorityContent
      else some .importingMetadata }

/-- The batch is refused: a thread is listed as hydrated and as missing, or there are too
many. -/
def batchRefused (threads terminal : List String) : Bool :=
  threads.any (fun t => t ∈ terminal) || decide (25 < (threads ++ terminal).dedup.length)

def hydrateEntry (messages : List StoredMessage) (e : WindowEntry) : WindowEntry :=
  { e with
    metadataReady := true
    bodyReady := e.bodyReady ||
      (threadStored messages e.gmailThreadId && threadReady messages e.gmailThreadId) }

def listsEntry (generation : String) (threads : List String) (e : WindowEntry) : Bool :=
  e.generationId = generation && e.gmailThreadId ∈ threads

def commitGmailInitialWindowMetadataBatch (a : Account) (generation : String)
    (threadIds : List String) (records : List Record) (terminalMissing : List String) : Account :=
  let threads := uniqueIds threadIds
  let terminal := uniqueIds terminalMissing
  if batchRefused threads terminal || a.state.syncGeneration ≠ some generation then a
  else
    let upserted := upsertGmailMessagesOnConnection a.begin records
    let entries := Table.updateWhere (listsEntry generation threads)
      (hydrateEntry upserted.messages)
      (Table.updateWhere (listsEntry generation terminal) WindowEntry.settle a.entries)
    { upserted with
      entries := entries
      state := upserted.state.commitBatch (targetCount entries generation)
        (metadataCount entries generation) (bodyReadyCount entries generation 25) }

/-! ## Reconciliation -/

/-- `start_gmail_reconciliation`: a new scan unless one is active. -/
def startGmailReconciliation (a : Account) (generationId initialCursor : String) : Account :=
  let generation := Text.strip generationId
  if generation = "" || initialCursor = "" then a
  else
    match a.state.reconcileGeneration with
    | none =>
      { a.begin with
        state := { a.state with
          reconcileGeneration := some generation
          reconcileCursor := some initialCursor
          reconcileStartedAt := some (a.now + 1) }
        seen := a.seen.filter fun entry => entry.1 = generation }
    | some active => { a.begin with seen := a.seen.filter fun entry => entry.1 = active }

def insertSeen (seen : List (String × String)) (generation : String) (ids : List String) :
    List (String × String) :=
  ids.map (fun id => (generation, id)) ∪ seen

def scanAt (s : ImportState) (generation : String) (cursor : Option String) : Bool :=
  s.reconcileGeneration = some generation && s.reconcileCursor = cursor

def recordGmailReconciliationPage (a : Account) (generation expected : String)
    (next : Option String) (messageIds : List String) : Account :=
  if scanAt a.state generation (some expected) then
    { a.begin with
      state := { a.state with reconcileCursor := next }
      seen := insertSeen a.seen generation (uniqueIds messageIds) }
  else a

def recordGmailReconciliationSeen (a : Account) (generation : String)
    (messageIds : List String) : Account :=
  if scanAt a.state generation none then
    { a.begin with seen := insertSeen a.seen generation (uniqueIds messageIds) }
  else a

def seenThreads (messages : List StoredMessage) (seen : List (String × String))
    (generation : String) : List String :=
  threadKeys (messages.filter fun m => (generation, m.messageId) ∈ seen)

def ImportState.commitPage (s : ImportState) (next : Option String) (estimated : Nat) :
    ImportState :=
  { s with
    reconcileCursor := next
    phase :=
      if s.phase = some .complete || s.phase = some .failed then s.phase
      else if s.windowServed then some .syncingHistory
      else s.phase
    estimatedTotalCount := max s.estimatedTotalCount estimated }

def commitGmailReconciliationMetadataPage (a : Account) (generation expected : String)
    (next : Option String) (records : List Record) (conversationCount estimated : Nat) : Account :=
  if conversationCount ≤ 100 ∧ scanAt a.state generation (some expected) = true ∧
      a.state.syncGeneration = some generation then
    let advanced := { a.begin with state := a.state.commitPage next estimated }
    let upserted := upsertGmailMessagesOnConnection advanced records
    let seen := insertSeen a.seen generation (uniqueIds (records.map Record.messageId))
    let metadata := (seenThreads upserted.messages seen generation).length
    { upserted with
      seen := seen
      state := { upserted.state with
        historyMetadataCount :=
          max upserted.state.historyMetadataCount (max metadata conversationCount) } }
  else a

/-- `missing_predicate`. -/
def missing (a : Account) (generation : String) (final startedAt : Nat) (m : StoredMessage) :
    Bool :=
  (generation, m.messageId) ∉ a.seen &&
    match m.historyId with
    | some historyId => decide (historyId ≤ final)
    | none => decide (m.updatedAt ≤ startedAt)

/-- The state after the sweep, from the counts of the messages that are left. -/
def ImportState.finalize (s : ImportState) (threads ready : Nat) (allReady : Bool) :
    ImportState :=
  { s with
    reconcileGeneration := none
    reconcileCursor := none
    reconcileStartedAt := none
    historyMetadataCount := max s.historyMetadataCount threads
    historyBodyReadyCount := max s.historyBodyReadyCount ready
    estimatedTotalCount := max s.estimatedTotalCount threads
    historyMetadataComplete := true
    historyBodyComplete := allReady
    phase :=
      if allReady then some .complete
      else if s.windowServed then some .syncingHistory
      else s.phase
    fullBackfillCompleted := true }

def finalizeGmailReconciliation (a : Account) (generation : String) (final : Nat) : Account :=
  match a.state.reconcileStartedAt with
  | none => a
  | some startedAt =>
    if scanAt a.state generation none then
      let messages := a.messages.filter fun m => !missing a generation final startedAt m
      { a.begin with
        messages := messages
        state := a.state.finalize (threadKeys messages).length (readyThreads messages).length
          (bodiesReady messages)
        seen := a.seen.filter fun entry => entry.1 ≠ generation }
    else a

def resetGmailReconciliation (a : Account) (generation : String) : Account :=
  { a.begin with
    state :=
      if a.state.reconcileGeneration = some generation then
        { a.state with
          reconcileGeneration := none
          reconcileCursor := none
          reconcileStartedAt := none }
      else a.state
    seen := a.seen.filter fun entry => entry.1 ≠ generation }

/-! ## The system -/

inductive Call where
  | upsert (records : List Record)
  | updateBodies (records : List Record)
  | markBodyState (messageIds : List String) (status : BodyFetchStatus)
  | markBodyComplete
  | delete (messageIds : List String)
  | importStarted
  | importCompleted (firstBatch backfillCursor backfillCompleted : Bool)
  | deltaCompleted
  | importError
  | activate (generation : String) (historyMetadataComplete : Bool)
  | startProgress (generation : String)
  | initializeWindow (generation : String) (threadIds : List String) (estimated : Nat)
  | commitBatch (generation : String) (threadIds : List String) (records : List Record)
      (terminalMissing : List String)
  | startReconciliation (generation initialCursor : String)
  | recordPage (generation expected : String) (next : Option String) (messageIds : List String)
  | recordSeen (generation : String) (messageIds : List String)
  | commitPage (generation expected : String) (next : Option String) (records : List Record)
      (conversationCount estimated : Nat)
  | finalize (generation : String) (final : Nat)
  | reset (generation : String)
  deriving DecidableEq

def step (a : Account) : Call → Account
  | .upsert records => upsertGmailMessages a records
  | .updateBodies records => updateGmailMessageBodies a records
  | .markBodyState messageIds status => markGmailMessagesBodyFetchState a messageIds status
  | .markBodyComplete => markGmailHistoryBodyCompleteIfReady a
  | .delete messageIds => deleteGmailMessages a messageIds
  | .importStarted => markImportStarted a
  | .importCompleted firstBatch backfillCursor backfillCompleted =>
    markImportCompleted a firstBatch backfillCursor backfillCompleted
  | .deltaCompleted => markHistoryDeltaCompleted a
  | .importError => markImportError a
  | .activate generation complete => activateExistingGmailProgressiveSync a generation complete
  | .startProgress generation => startGmailSyncProgress a generation
  | .initializeWindow generation threadIds estimated =>
    initializeGmailInitialWindow a generation threadIds estimated
  | .commitBatch generation threadIds records terminalMissing =>
    commitGmailInitialWindowMetadataBatch a generation threadIds records terminalMissing
  | .startReconciliation generation initialCursor =>
    startGmailReconciliation a generation initialCursor
  | .recordPage generation expected next messageIds =>
    recordGmailReconciliationPage a generation expected next messageIds
  | .recordSeen generation messageIds => recordGmailReconciliationSeen a generation messageIds
  | .commitPage generation expected next records conversationCount estimated =>
    commitGmailReconciliationMetadataPage a generation expected next records conversationCount
      estimated
  | .finalize generation final => finalizeGmailReconciliation a generation final
  | .reset generation => resetGmailReconciliation a generation

end ElectronicMail.Progress
