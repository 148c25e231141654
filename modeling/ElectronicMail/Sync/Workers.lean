import ElectronicMail.Foundations.Run
import ElectronicMail.Sync.State

/-!
# Interleavings of the synchronisation

Any number of workers run delta syncs, imports of listed messages, and pages and
final steps of full reconciliations against one account while Gmail changes. Each
call of Gmail and each transaction is a step of its own, `stop` ends an execution
at any point, by an exception or a crash, and an execution starts from `idle` with
nothing but what the tables say.

`_ensure_gmail_reconciliation_started` and the head of
`run_gmail_full_reconciliation` are `readState`, `readBaseline` and `start`;
`run_gmail_delta_sync` is `readCursor`, `listHistory`, `delete`, `hydrate`,
`upsert`, `publish`; a page is `readScan`, `listPage`, `hydrate`, and then `upsert`
with `recordPage`, or `commitPage` for a listing of threads; the final step is
`listHistory`, `delete`, `hydrate`, `upsert`, `recordSeen`, `finalize`. What
imports a single message, such as the copy of a sent one, is an import too.

Two history variables record what the deletions are about: the greatest cursor ever
published and the messages that a deletion of a history window has carried.
-/

namespace ElectronicMail.Sync

open Foundations

/-! ## Workers -/

inductive Purpose where
  | imported
  | delta (latest : Nat)
  | page (scan : Scan) (cursor : Cursor) (next : Option Cursor)
  | final (scan : Scan) (latest : Nat)
  deriving DecidableEq

/-- `skip_not_found`. -/
def Purpose.skipsNotFound : Purpose → Bool
  | .page _ _ _ => true
  | .final _ _ => true
  | _ => false

/-- The record of a fetched message. The payload of an import may lack its history
id. -/
def Purpose.record (purpose : Purpose) (numbered : Bool) (snapshot : Snapshot) : Record :=
  match purpose with
  | .imported =>
    ⟨snapshot.messageId, if numbered then some snapshot.historyId else none, snapshot.labels⟩
  | _ => ⟨snapshot.messageId, some snapshot.historyId, snapshot.labels⟩

inductive Phase where
  | idle
  | choosing (generation : String) (threadListing : Bool)
  | starting (generation : String) (baseline : Nat) (threadListing : Bool)
  | scanning (scan : Scan)
  | listingDelta (start : Nat)
  | deleting (purpose : Purpose) (deleted changed : List MessageId)
  | hydrating (purpose : Purpose) (pending : List MessageId) (records : List Record)
  | publishing (latest : Nat)
  | recordingPage (scan : Scan) (cursor : Cursor) (next : Option Cursor) (ids : List MessageId)
  | recordingSeen (scan : Scan) (latest : Nat) (ids : List MessageId)
  | finalizing (scan : Scan) (latest : Nat)
  | resetting (generation : String)
  deriving DecidableEq

structure World where
  mailbox : Mailbox
  db : Database
  phase : Nat → Phase
  published : Nat
  purged : List MessageId

def World.initial (g : Mailbox) : World := ⟨g, Database.empty, fun _ => .idle, 0, []⟩

/-- What a worker can do next. `listPage none` is a rejected page token, and
`expired` a history that Gmail no longer has. -/
inductive Act where
  | stop
  | readState (threadListing : Bool) (fresh : String)
  | readBaseline
  | start
  | startProgress
  | readScan
  | readCursor
  | listPage (page : Option Page)
  | listHistory (expired : Bool)
  | delete
  | beginImport (ids : List MessageId)
  | hydrate (numbered : Bool)
  | upsert
  | commitPage
  | recordPage
  | recordSeen
  | publish
  | finalize
  | reset

inductive Step where
  | gmail (event : Event)
  | act (worker : Nat) (a : Act)

/-! ## The acts -/

def Purpose.isThreadPage : Purpose → Bool
  | .page _ (.threads _) _ => true
  | _ => false

def Purpose.afterUpsert (records : List Record) : Purpose → Phase
  | .imported => .idle
  | .delta latest => .publishing latest
  | .page scan cursor next => .recordingPage scan cursor next (records.map Record.messageId)
  | .final scan latest => .recordingSeen scan latest (records.map Record.messageId)

/-- `_list_history_delta` and what the caller does with its answer. -/
def listDelta (w : World) (expired : Bool) : Phase → Option Phase
  | .listingDelta start =>
    let delta := listHistory w.mailbox start
    -- An expired history ends the delta sync; what follows it are acts of their own.
    some (if expired then .idle
      else .deleting (.delta (max start delta.latestHistoryId)) delta.deletedMessageIds
        delta.messageIds)
  | .scanning scan =>
    let delta := listHistory w.mailbox scan.baseline
    match scan.cursor with
    | some _ => none
    | none =>
      some (if expired then .resetting scan.generation
        else .deleting (.final scan (max scan.baseline delta.latestHistoryId))
          delta.deletedMessageIds delta.messageIds)
  | _ => none

def listedPage (scan : Scan) (cursor : Cursor) : Option Page → Phase
  | none => .resetting scan.generation
  | some page =>
    -- A cursor that does not move would be listed for ever.
    if cursor.next page = some cursor then .resetting scan.generation
    else .hydrating (.page scan cursor (cursor.next page)) page.ids []

def hydrated (w : World) (numbered : Bool) (purpose : Purpose) (m : MessageId)
    (pending : List MessageId) (records : List Record) : Phase :=
  match getMessage w.mailbox m with
  | some snapshot => .hydrating purpose pending (records ++ [purpose.record numbered snapshot])
  | none => if purpose.skipsNotFound then .hydrating purpose pending records else .idle

/-- What an act of a worker in a phase does to the world and to the phase. -/
def perform (w : World) (a : Act) (phase : Phase) : Option (World × Phase) :=
  match a with
  | .stop => some (w, .idle)
  | .readState threadListing fresh =>
    match phase, w.db.state.reconcile with
    | .idle, none =>
      some (w, .choosing (w.db.state.nextGeneration fresh)
        (threadListing || w.db.state.progressivePending))
    | _, _ => none
  | .readBaseline =>
    match phase with
    | .choosing generation threadListing =>
      some (w, .starting generation (currentHistoryId w.mailbox) threadListing)
    | _ => none
  | .start =>
    match phase with
    | .starting generation baseline threadListing =>
      let db := startGmailReconciliation w.db generation baseline (Cursor.initial threadListing)
      db.state.reconcile.map fun scan => ({ w with db := db }, .scanning scan)
    | _ => none
  | .startProgress =>
    match phase with
    | .scanning scan =>
      some ({ w with db := startGmailSyncProgress w.db scan.generation }, .idle)
    | _ => none
  | .readScan =>
    match phase with
    | .idle => w.db.state.reconcile.map fun scan => (w, .scanning scan)
    | _ => none
  | .readCursor =>
    match phase with
    | .idle => w.db.state.authoritativeCursor.map fun start => (w, .listingDelta start)
    | _ => none
  | .listPage page =>
    match phase with
    | .scanning scan => scan.cursor.map fun cursor => (w, listedPage scan cursor page)
    | _ => none
  | .listHistory expired => (listDelta w expired phase).map fun next => (w, next)
  | .delete =>
    match phase with
    | .deleting purpose deleted changed =>
      some ({ w with
        db := deleteGmailMessages w.db deleted
        purged := deleted ++ w.purged }, .hydrating purpose changed [])
    | _ => none
  | .beginImport ids =>
    match phase with
    | .idle => some (w, .hydrating .imported ids [])
    | _ => none
  | .hydrate numbered =>
    match phase with
    | .hydrating purpose (m :: pending) records =>
      some (w, hydrated w numbered purpose m pending records)
    | _ => none
  | .upsert =>
    match phase with
    | .hydrating purpose [] records =>
      if purpose.isThreadPage then none
      else some ({ w with db := upsertGmailMessages w.db records }, purpose.afterUpsert records)
    | _ => none
  | .commitPage =>
    match phase with
    | .hydrating (.page scan (.threads token) next) [] records =>
      match commitGmailReconciliationMetadataPage w.db scan.generation (.threads token) next
          records with
      | some db => some ({ w with db := db }, .scanning { scan with cursor := next })
      | none => some (w, .idle)
    | _ => none
  | .recordPage =>
    match phase with
    | .recordingPage scan cursor next ids =>
      match recordGmailReconciliationPage w.db scan.generation cursor next ids with
      | some db => some ({ w with db := db }, .scanning { scan with cursor := next })
      | none => some (w, .idle)
    | _ => none
  | .recordSeen =>
    match phase with
    | .recordingSeen scan latest ids =>
      match recordGmailReconciliationSeen w.db scan.generation ids with
      | some db => some ({ w with db := db }, .finalizing scan latest)
      | none => some (w, .idle)
    | _ => none
  | .publish =>
    match phase with
    | .publishing latest =>
      some ({ w with
        db := markHistoryDeltaCompleted w.db latest
        published := max w.published latest }, .idle)
    | _ => none
  | .finalize =>
    match phase with
    | .finalizing scan latest =>
      match finalizeGmailReconciliation w.db scan.generation latest with
      | some db => some ({ w with db := db, published := max w.published latest }, .idle)
      | none => some (w, .idle)
    | _ => none
  | .reset =>
    match phase with
    | .resetting generation =>
      some ({ w with db := resetGmailReconciliation w.db generation }, .idle)
    | _ => none

def step (w : World) : Step → World
  | .gmail event => if accepts w.mailbox event then { w with mailbox := event :: w.mailbox } else w
  | .act worker a =>
    match perform w a (w.phase worker) with
    | some (w', phase) => { w' with phase := Function.update w.phase worker phase }
    | none => w

def runFrom (g : Mailbox) (steps : List Step) : World := after step (World.initial g) steps

/-! ## What runs are assumed to do -/

/-- The order in which a scan enumerates the mailbox: `todo` says which messages are
listed on the pages from a cursor on. The scans are told apart by their start. -/
structure Listing where
  todo : Nat → Cursor → MessageId → Bool
  initial : ∀ startedAt threadListing m, todo startedAt (Cursor.initial threadListing) m = true

def Listing.left (listing : Listing) (startedAt : Nat) (cursor : Option Cursor) (m : MessageId) :
    Bool :=
  cursor.any fun cursor => listing.todo startedAt cursor m

/-- The page of a cursor lists every message that it has to list, that existed at the
baseline and that has not been deleted. -/
def Enumerates (listing : Listing) (g : Mailbox) (scan : Scan) (cursor : Cursor) (page : Page) :
    Prop :=
  ∀ e ∈ g, e.historyId ≤ scan.baseline → Alive g e.messageId →
    listing.todo scan.startedAt cursor e.messageId = true →
    e.messageId ∈ page.ids ∨ listing.left scan.startedAt (cursor.next page) e.messageId = true

instance (listing : Listing) (g : Mailbox) (scan : Scan) (cursor : Cursor) (page : Page) :
    Decidable (Enumerates listing g scan cursor page) :=
  inferInstanceAs (Decidable (∀ e ∈ g, _ → _ → _ → _))

def listingOf : Act → Phase → Option (Scan × Cursor × Page)
  | .listPage (some page), .scanning scan => scan.cursor.map fun cursor => (scan, cursor, page)
  | _, _ => none

def ListsMailbox (listing : Listing) (w : World) : Step → Prop
  | .act worker a =>
    ∀ listed ∈ listingOf a (w.phase worker),
      Enumerates listing w.mailbox listed.1 listed.2.1 listed.2.2
  | .gmail _ => True

instance (listing : Listing) (w : World) : ∀ s, Decidable (ListsMailbox listing w s)
  | .act worker a => inferInstanceAs (Decidable (∀ listed ∈ listingOf a (w.phase worker), _))
  | .gmail _ => inferInstanceAs (Decidable True)

def commitOf : Act → Phase → Option (Scan × Option Cursor)
  | .commitPage, .hydrating (.page scan (.threads token) _) [] _ =>
    some (scan, some (.threads token))
  | .recordPage, .recordingPage scan cursor _ _ => some (scan, some cursor)
  | .recordSeen, .recordingSeen scan _ _ => some (scan, none)
  | .finalize, .finalizing scan _ => some (scan, none)
  | _, _ => none

/-- A commit that goes through is one to the scan that the worker has read, so that its
page was listed after the baseline of that scan. A generation id alone does not say
so: a progressive import uses it again after a reset. -/
def CommitsOwnScan (w : World) : Step → Prop
  | .act worker a =>
    ∀ commit ∈ commitOf a (w.phase worker),
      ∀ active ∈ w.db.state.activeScan commit.1.generation commit.2,
        active.startedAt = commit.1.startedAt
  | .gmail _ => True

instance (w : World) : ∀ s, Decidable (CommitsOwnScan w s)
  | .act worker a => inferInstanceAs (Decidable (∀ commit ∈ commitOf a (w.phase worker), _))
  | .gmail _ => inferInstanceAs (Decidable True)

end ElectronicMail.Sync
