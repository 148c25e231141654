import Mathlib.Data.List.Dedup
import Mathlib.Data.List.Sort
import ElectronicMail.Foundations.Table
import ElectronicMail.Messages.Row

/-!
# The progress of a progressive import

The tables that the progress counters are computed from: the stored messages, the
entries of the initial window, the seen set of a reconciliation, and the row of
`gmail_import_state` with its phase, its counters and its three completion flags. An
account without that row has the values of a new one: no statement but an insert
touches it, and the inserts bring the defaults.

Of `metadata_ready_at`, `body_ready_at`, `first_batch_imported_at` and
`full_backfill_completed_at` the statements only ask whether they are null, and
`COALESCE` keeps the first value.
-/

namespace ElectronicMail.Progress

open Foundations
open Messages (BodyFetchStatus mergedBodyFetchStatus)

/-! ## Messages -/

/-- A row of `gmail_messages`. The history id is `none` when it is null or not numeric. -/
structure StoredMessage where
  messageId : String
  gmailThreadId : Option String
  historyId : Option Nat
  internalDate : Option Nat
  bodyFetchStatus : BodyFetchStatus
  updatedAt : Nat
  deriving DecidableEq

structure Record where
  messageId : String
  gmailThreadId : Option String
  historyId : Option Nat
  internalDate : Option Nat
  bodyFetchStatus : BodyFetchStatus
  deriving DecidableEq

/-- The `CASE` of `history_id` on a conflict. -/
def newerHistoryId : Option Nat → Option Nat → Option Nat
  | stored, none => stored
  | none, some new => some new
  | some old, some new => if old < new then some new else some old

def insertedMessage (now : Nat) (r : Record) : StoredMessage where
  messageId := r.messageId
  gmailThreadId := r.gmailThreadId
  historyId := r.historyId
  internalDate := r.internalDate
  bodyFetchStatus := r.bodyFetchStatus
  updatedAt := now

def mergedMessage (now : Nat) (r : Record) (stored : StoredMessage) : StoredMessage where
  messageId := stored.messageId
  gmailThreadId := r.gmailThreadId
  historyId := newerHistoryId stored.historyId r.historyId
  internalDate := r.internalDate
  bodyFetchStatus := mergedBodyFetchStatus stored.bodyFetchStatus r.bodyFetchStatus
  updatedAt := now

/-- `INSERT … ON CONFLICT (gmail_account_id, message_id) DO UPDATE`. -/
def upsertMessage (now : Nat) (messages : List StoredMessage) (r : Record) : List StoredMessage :=
  if messages.any (fun m => m.messageId = r.messageId) then
    Table.updateWhere (fun m => m.messageId = r.messageId) (mergedMessage now r) messages
  else messages ++ [insertedMessage now r]

def upsertMessages (now : Nat) (messages : List StoredMessage) (records : List Record) :
    List StoredMessage :=
  records.foldl (upsertMessage now) messages

/-- `COALESCE(NULLIF(gmail_thread_id, ''), message_id)`. -/
def threadKey (m : StoredMessage) : String :=
  match m.gmailThreadId with
  | none => m.messageId
  | some thread => if thread = "" then m.messageId else thread

/-- `message.gmail_thread_id or message.message_id`. -/
def Record.threadKey (r : Record) : String :=
  match r.gmailThreadId with
  | none => r.messageId
  | some thread => if thread = "" then r.messageId else thread

def StoredMessage.isReady (m : StoredMessage) : Bool := m.bodyFetchStatus.isReady

def bodiesReady (messages : List StoredMessage) : Bool := messages.all StoredMessage.isReady

def threadReady (messages : List StoredMessage) (thread : String) : Bool :=
  messages.all fun m => threadKey m ≠ thread || m.isReady

def threadKeys (messages : List StoredMessage) : List String := (messages.map threadKey).dedup

def readyThreads (messages : List StoredMessage) : List String :=
  (threadKeys messages).filter (threadReady messages)

/-! ## The initial window -/

/-- A row of `gmail_initial_window_entries`. -/
structure WindowEntry where
  generationId : String
  gmailThreadId : String
  position : Nat
  metadataReady : Bool
  bodyReady : Bool

/-- `INSERT … ON CONFLICT (gmail_account_id, generation_id, gmail_thread_id) DO NOTHING`
of rows of distinct threads. -/
def insertEntries (entries rows : List WindowEntry) : List WindowEntry :=
  entries ++ rows.filter fun row =>
    !entries.any fun e => e.generationId = row.generationId && e.gmailThreadId = row.gmailThreadId

/-- `body_ready_at = COALESCE(body_ready_at, now())`. -/
def WindowEntry.settleBody (e : WindowEntry) : WindowEntry := { e with bodyReady := true }

def WindowEntry.settle (e : WindowEntry) : WindowEntry :=
  { e with metadataReady := true, bodyReady := true }

def metadataCount (entries : List WindowEntry) (generation : String) : Nat :=
  entries.countP fun e => e.generationId = generation && e.metadataReady

def bodyReadyCount (entries : List WindowEntry) (generation : String) (limit : Nat) : Nat :=
  entries.countP fun e =>
    e.generationId = generation && e.bodyReady && decide (e.position < limit)

def targetCount (entries : List WindowEntry) (generation : String) : Nat :=
  entries.countP fun e => e.generationId = generation

/-! ## The import state -/

/-- The values of `gmail_import_state.phase`. -/
inductive SyncPhase where
  | discoveringRecent
  | importingMetadata
  | hydratingPriorityContent
  | usable
  | syncingHistory
  | syncingRecent
  | complete
  | failed
  deriving DecidableEq

/-- The row of `gmail_import_state`. -/
structure ImportState where
  syncGeneration : Option String
  phase : Option SyncPhase
  initialTargetCount : Nat
  initialMetadataCount : Nat
  initialBodyTargetCount : Nat
  initialBodyReadyCount : Nat
  historyMetadataCount : Nat
  historyBodyReadyCount : Nat
  estimatedTotalCount : Nat
  initialWindowComplete : Bool
  historyMetadataComplete : Bool
  historyBodyComplete : Bool
  reconcileGeneration : Option String
  reconcileCursor : Option String
  reconcileStartedAt : Option Nat
  firstBatchImported : Bool
  fullBackfillCompleted : Bool

def ImportState.new : ImportState where
  syncGeneration := none
  phase := none
  initialTargetCount := 0
  initialMetadataCount := 0
  initialBodyTargetCount := 0
  initialBodyReadyCount := 0
  historyMetadataCount := 0
  historyBodyReadyCount := 0
  estimatedTotalCount := 0
  initialWindowComplete := false
  historyMetadataComplete := false
  historyBodyComplete := false
  reconcileGeneration := none
  reconcileCursor := none
  reconcileStartedAt := none
  firstBatchImported := false
  fullBackfillCompleted := false

/-- The tables of one account, and the clock that `now()` reads. -/
structure Account where
  messages : List StoredMessage
  entries : List WindowEntry
  seen : List (String × String)
  state : ImportState
  now : Nat

def Account.empty : Account := ⟨[], [], [], .new, 0⟩

/-! ## Statements on the import state -/

/-- The last statement of `_upsert_gmail_messages_on_connection`. -/
def ImportState.reopenHistory (s : ImportState) (allReady : Bool) : ImportState :=
  if s.syncGeneration.isSome && s.historyMetadataComplete && !allReady then
    { s with
      historyBodyComplete := false
      phase := if s.phase = some .complete then some .syncingRecent else s.phase }
  else s

/-- The update of `_update_gmail_body_progress_on_connection`. -/
def ImportState.bodyProgress (s : ImportState) (initialReady ready : Nat) (allReady : Bool) :
    ImportState :=
  if s.syncGeneration.isSome then
    { s with
      initialBodyReadyCount := max s.initialBodyReadyCount initialReady
      historyBodyReadyCount := max s.historyBodyReadyCount (min s.historyMetadataCount ready)
      phase :=
        if s.historyMetadataComplete && allReady then some .complete
        else if s.initialWindowComplete && decide (s.initialBodyTargetCount ≤ initialReady) &&
            (s.phase = some .discoveringRecent || s.phase = some .importingMetadata ||
              s.phase = some .hydratingPriorityContent) then
          some .usable
        else s.phase
      historyBodyComplete := s.historyBodyComplete || (s.historyMetadataComplete && allReady) }
  else s

/-- The four counters of the initial window after a count of its entries. -/
def ImportState.countWindow (s : ImportState) (target metadata bodyReady : Nat) : ImportState :=
  { s with
    initialTargetCount := max s.initialTargetCount target
    initialMetadataCount := max s.initialMetadataCount metadata
    initialBodyTargetCount := max s.initialBodyTargetCount (min 25 target)
    initialBodyReadyCount := max s.initialBodyReadyCount bodyReady
    initialWindowComplete := s.initialWindowComplete || decide (target ≤ metadata) }

/-- `initial_window_complete AND initial_body_ready_count >= LEAST(25,
initial_body_target_count)`. -/
def ImportState.windowServed (s : ImportState) : Bool :=
  s.initialWindowComplete && decide (min 25 s.initialBodyTargetCount ≤ s.initialBodyReadyCount)

end ElectronicMail.Progress
