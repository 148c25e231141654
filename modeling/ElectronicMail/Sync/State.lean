import ElectronicMail.Messages.Row
import ElectronicMail.Sync.Mailbox

/-!
# Transactions of the synchronisation

The tables that the synchronisation works on and the transactions of
`mail_groups.py` over them: upserts and deletions of messages, the publication of
the history cursor, and the durable scan of a full reconciliation with its pages,
its seen set and its final sweep. Of a message row only the history id, the labels
and `updated_at` are kept; `rowOf_mergeRow` says that their merge is the one of
`_upsert_gmail_messages_on_connection`.

Every transaction reads a `now()` later than the one before.
-/

namespace ElectronicMail.Sync

open Messages (GmailMessage numericHistoryId)

/-! ## Messages -/

/-- The columns of a stored message. The history id is `none` when it is null or not
numeric. -/
structure Row where
  historyId : Option Nat
  labels : List String
  updatedAt : Nat
  deriving DecidableEq

structure Record where
  messageId : MessageId
  historyId : Option Nat
  labels : List String
  deriving DecidableEq

def mergeRow (now : Nat) (stored : Row) (r : Record) : Row :=
  match r.historyId with
  | none => { stored with updatedAt := now }
  | some new =>
    match stored.historyId with
    | none => ⟨some new, r.labels, now⟩
    | some old => if old < new then ⟨some new, r.labels, now⟩ else { stored with updatedAt := now }

def upsertedRow (now : Nat) (stored : Option Row) (r : Record) : Row :=
  match stored with
  | none => ⟨r.historyId, r.labels, now⟩
  | some row => mergeRow now row r

def rowOf (now : Nat) (row : GmailMessage) : Row :=
  ⟨numericHistoryId row.historyId, row.labelIds, now⟩

/-! ## The listing of the mailbox -/

/-- `reconcile_cursor`: which page of the listing comes next. -/
inductive Cursor where
  | mailbox (pageToken : Option String) (allMailCompleted : Bool)
      (draftPageToken : Option String) (draftsCompleted : Bool)
  | threads (pageToken : Option String)
  deriving DecidableEq

/-- `_encode_full_thread_mailbox_cursor()` or `_encode_full_mailbox_cursor()`. -/
def Cursor.initial (threadListing : Bool) : Cursor :=
  if threadListing then .threads none else .mailbox none false none false

/-- The messages that a page lists and the tokens of the pages after it. -/
structure Page where
  ids : List MessageId
  nextPageToken : Option String
  nextDraftPageToken : Option String

def Cursor.next : Cursor → Page → Option Cursor
  | .mailbox _ allMailCompleted _ draftsCompleted, page =>
    let nextPageToken := if allMailCompleted then none else page.nextPageToken
    let nextAllMailCompleted := allMailCompleted || nextPageToken.isNone
    let nextDraftPageToken := if draftsCompleted then none else page.nextDraftPageToken
    let nextDraftsCompleted := draftsCompleted || nextDraftPageToken.isNone
    if !nextAllMailCompleted || !nextDraftsCompleted then
      some (.mailbox nextPageToken nextAllMailCompleted nextDraftPageToken nextDraftsCompleted)
    else none
  | .threads _, page => page.nextPageToken.map fun token => .threads (some token)

/-! ## The import state -/

/-- The `reconcile_…` columns, which are null together. -/
structure Scan where
  generation : String
  cursor : Option Cursor
  baseline : Nat
  startedAt : Nat
  deriving DecidableEq

/-- The row of `gmail_import_state`. -/
structure ImportState where
  lastHistoryId : Option Nat
  historyCursorAuthoritative : Bool
  reconcile : Option Scan
  syncGeneration : Option String
  historyMetadataComplete : Bool

/-- `gmail_history_cursor_is_authoritative`, with the cursor. -/
def ImportState.authoritativeCursor (state : ImportState) : Option Nat :=
  if state.historyCursorAuthoritative then state.lastHistoryId else none

/-- `reconcile_generation`. -/
def ImportState.generation (state : ImportState) : Option String :=
  state.reconcile.map Scan.generation

def ImportState.activeScan (state : ImportState) (generation : String) (cursor : Option Cursor) :
    Option Scan :=
  state.reconcile.filter fun scan => scan.generation = generation && scan.cursor = cursor

/-- The `CASE` of `last_history_id` when a cursor is published. -/
def ImportState.publishedHistoryId (state : ImportState) (latest : Nat) : Nat :=
  match state.authoritativeCursor with
  | none => latest
  | some last => if last ≤ latest then latest else last

/-- The generation of a new scan: the one of a progressive import that is pending,
else a fresh one. -/
def ImportState.nextGeneration (state : ImportState) (fresh : String) : String :=
  match state.syncGeneration with
  | some generation => if state.historyMetadataComplete then fresh else generation
  | none => fresh

def ImportState.progressivePending (state : ImportState) : Bool :=
  state.syncGeneration.isSome && !state.historyMetadataComplete

/-- The tables, and the clock that `now()` reads. -/
structure Database where
  messages : MessageId → Option Row
  state : ImportState
  seen : List (String × MessageId)
  now : Nat

def Database.empty : Database :=
  ⟨fun _ => none, ⟨none, false, none, none, false⟩, [], 0⟩

def Database.begin (db : Database) : Database := { db with now := db.now + 1 }

/-! ## Transactions -/

/-- One `INSERT … ON CONFLICT` of `_upsert_gmail_messages_on_connection`. -/
def upsertRecord (db : Database) (r : Record) : Database :=
  { db with
    messages := Function.update db.messages r.messageId
      (some (upsertedRow db.now (db.messages r.messageId) r)) }

def upsertGmailMessagesOnConnection (db : Database) (records : List Record) : Database :=
  records.foldl upsertRecord db

def upsertGmailMessages (db : Database) (records : List Record) : Database :=
  upsertGmailMessagesOnConnection db.begin records

def deleteGmailMessages (db : Database) (messageIds : List MessageId) : Database :=
  { db.begin with messages := fun m => if m ∈ messageIds then none else db.messages m }

def markHistoryDeltaCompleted (db : Database) (lastHistoryId : Nat) : Database :=
  { db.begin with
    state := { db.state with
      lastHistoryId := some (db.state.publishedHistoryId lastHistoryId)
      historyCursorAuthoritative := true } }

/-- `start_gmail_reconciliation`: a new scan unless one is active. The seen entries of
other generations go. -/
def startGmailReconciliation (db : Database) (generation : String) (baseline : Nat)
    (initialCursor : Cursor) : Database :=
  match db.state.reconcile with
  | none =>
    { db.begin with
      state := { db.state with
        reconcile := some ⟨generation, some initialCursor, baseline, db.now + 1⟩
        historyCursorAuthoritative := false }
      seen := db.seen.filter fun entry => entry.1 = generation }
  | some scan =>
    { db.begin with seen := db.seen.filter fun entry => entry.1 = scan.generation }

def startGmailSyncProgress (db : Database) (generation : String) : Database :=
  if db.state.generation = some generation then
    { db.begin with
      state := { db.state with
        syncGeneration := some generation
        historyMetadataComplete :=
          if db.state.syncGeneration = some generation then db.state.historyMetadataComplete
          else false } }
  else db.begin

def recordSeenPage (db : Database) (scan : Scan) (next : Option Cursor) (ids : List MessageId) :
    Database :=
  { db with
    state := { db.state with reconcile := some { scan with cursor := next } }
    seen := ids.map (fun m => (scan.generation, m)) ∪ db.seen }

/-- `record_gmail_reconciliation_page`; `none` when another worker has moved the
cursor. -/
def recordGmailReconciliationPage (db : Database) (generation : String) (expected : Cursor)
    (next : Option Cursor) (ids : List MessageId) : Option Database :=
  (db.state.activeScan generation (some expected)).map fun scan =>
    recordSeenPage db.begin scan next ids

/-- `commit_gmail_reconciliation_metadata_page`: the page's messages are upserted in
the same transaction. -/
def commitGmailReconciliationMetadataPage (db : Database) (generation : String)
    (expected : Cursor) (next : Option Cursor) (records : List Record) : Option Database :=
  if db.state.syncGeneration = some generation then
    (db.state.activeScan generation (some expected)).map fun scan =>
      recordSeenPage (upsertGmailMessagesOnConnection db.begin records) scan next
        (records.map Record.messageId)
  else none

/-- `record_gmail_reconciliation_seen`. Without messages it does not look at the
scan. -/
def recordGmailReconciliationSeen (db : Database) (generation : String)
    (ids : List MessageId) : Option Database :=
  if ids.isEmpty then some db
  else
    (db.state.activeScan generation none).map fun _ =>
      { db.begin with seen := ids.map (fun m => (generation, m)) ∪ db.seen }

/-- The second half of `missing_predicate`: the row is no newer than the scan. -/
def Row.isOld (row : Row) (final startedAt : Nat) : Bool :=
  match row.historyId with
  | some historyId => decide (historyId ≤ final)
  | none => decide (row.updatedAt ≤ startedAt)

/-- `missing_predicate` of a stored row. -/
def missing (db : Database) (generation : String) (final startedAt : Nat) (m : MessageId)
    (row : Row) : Bool :=
  !db.seen.contains (generation, m) && row.isOld final startedAt

/-- The sweep: the missing rows go, the cursor is published and the scan ends. -/
def sweep (db : Database) (scan : Scan) (final : Nat) : Database where
  messages m :=
    (db.messages m).filter fun row => !missing db scan.generation final scan.startedAt m row
  state := { db.state with
    lastHistoryId := some (db.state.publishedHistoryId final)
    historyCursorAuthoritative := true
    reconcile := none
    historyMetadataComplete := true }
  seen := db.seen.filter fun entry => entry.1 ≠ scan.generation
  now := db.now + 1

def finalizeGmailReconciliation (db : Database) (generation : String) (final : Nat) :
    Option Database :=
  (db.state.activeScan generation none).map fun scan => sweep db scan final

def resetGmailReconciliation (db : Database) (generation : String) : Database :=
  { db.begin with
    state :=
      if db.state.generation = some generation then
        { db.state with reconcile := none, historyCursorAuthoritative := false }
      else db.state
    seen := db.seen.filter fun entry => entry.1 ≠ generation }

/-! ## What they do -/

@[simp] theorem begin_messages (db : Database) : db.begin.messages = db.messages := rfl
@[simp] theorem begin_state (db : Database) : db.begin.state = db.state := rfl
@[simp] theorem begin_seen (db : Database) : db.begin.seen = db.seen := rfl
@[simp] theorem begin_now (db : Database) : db.begin.now = db.now + 1 := rfl

theorem activeScan_eq_some {state : ImportState} {generation : String}
    {cursor : Option Cursor} {scan : Scan} :
    state.activeScan generation cursor = some scan ↔
      state.reconcile = some scan ∧ scan.generation = generation ∧ scan.cursor = cursor := by
  simp [ImportState.activeScan, Option.filter_eq_some_iff]

theorem publishedHistoryId_cases (state : ImportState) (latest : Nat) :
    state.publishedHistoryId latest = latest ∨
      state.authoritativeCursor = some (state.publishedHistoryId latest) := by
  unfold ImportState.publishedHistoryId
  cases hcursor : state.authoritativeCursor with
  | none => exact Or.inl rfl
  | some =>
    dsimp only
    split
    · exact Or.inl rfl
    · exact Or.inr rfl

def Row.Le (row row' : Row) : Prop :=
  ∀ h, row.historyId = some h → ∃ h', row'.historyId = some h' ∧ h ≤ h'

theorem Row.Le.refl (row : Row) : row.Le row := fun h hrow => ⟨h, hrow, Nat.le_refl h⟩

theorem Row.Le.trans {row row' row'' : Row} (h : row.Le row') (h' : row'.Le row'') :
    row.Le row'' := by
  intro x hx
  obtain ⟨y, hy, hxy⟩ := h x hx
  obtain ⟨z, hz, hyz⟩ := h' y hy
  exact ⟨z, hz, Nat.le_trans hxy hyz⟩

section

variable (now : Nat) (stored : Row)

theorem mergeRow_le (r : Record) : stored.Le (mergeRow now stored r) := by
  intro x hx
  unfold mergeRow
  cases hr : r.historyId with
  | none => exact ⟨x, hx, Nat.le_refl x⟩
  | some new =>
    simp only [hx]
    split
    · exact ⟨new, rfl, by omega⟩
    · exact ⟨x, rfl, Nat.le_refl x⟩

theorem le_mergeRow {r : Record} {new : Nat}
    (hr : r.historyId = some new) :
    ∃ x, (mergeRow now stored r).historyId = some x ∧ new ≤ x := by
  unfold mergeRow
  simp only [hr]
  cases hstored : stored.historyId with
  | none => exact ⟨new, rfl, Nat.le_refl new⟩
  | some old =>
    dsimp only
    split
    · exact ⟨new, rfl, Nat.le_refl new⟩
    · exact ⟨old, rfl, by omega⟩

@[simp] theorem mergeRow_updatedAt (r : Record) :
    (mergeRow now stored r).updatedAt = now := by
  unfold mergeRow
  split
  · rfl
  split
  · rfl
  split
  · rfl
  · rfl

theorem mergeRow_origin (r : Record) :
    ((mergeRow now stored r).historyId = r.historyId ∧
        (mergeRow now stored r).labels = r.labels ∧ r.historyId ≠ none) ∨
      ((mergeRow now stored r).historyId = stored.historyId ∧
        (mergeRow now stored r).labels = stored.labels ∧
        (stored.historyId = none → r.historyId = none)) := by
  unfold mergeRow
  cases hr : r.historyId with
  | none => exact Or.inr ⟨rfl, rfl, fun _ => rfl⟩
  | some new =>
    cases hstored : stored.historyId with
    | none => exact Or.inl ⟨rfl, rfl, Option.some_ne_none new⟩
    | some old =>
      dsimp only
      split
      · exact Or.inl ⟨rfl, rfl, Option.some_ne_none new⟩
      · exact Or.inr ⟨rfl, rfl, fun h => nomatch h⟩

end

structure Upserts (db db' : Database) (records : List Record) : Prop where
  state : db'.state = db.state
  seen : db'.seen = db.seen
  now : db'.now = db.now
  rows : ∀ m row, db.messages m = some row → ∃ row', db'.messages m = some row' ∧ row.Le row'
  brought : ∀ r ∈ records, ∀ h, r.historyId = some h →
    ∃ row', db'.messages r.messageId = some row' ∧ ∃ h', row'.historyId = some h' ∧ h ≤ h'
  touched : ∀ m row', db'.messages m = some row' → db.messages m = some row' ∨
    (row'.updatedAt = db.now ∧ ∃ r ∈ records, r.messageId = m)
  origin : ∀ m row' h, db'.messages m = some row' → row'.historyId = some h →
    (∃ r ∈ records, r.messageId = m ∧ r.historyId = some h ∧ r.labels = row'.labels) ∨
    ∃ row, db.messages m = some row ∧ row.historyId = some h ∧ row.labels = row'.labels
  unnumbered : ∀ m row', db'.messages m = some row' → row'.historyId = none →
    db.messages m = some row' ∨ ∃ r ∈ records, r.messageId = m ∧ r.historyId = none

theorem Upserts.nil (db : Database) : Upserts db db [] where
  state := rfl
  seen := rfl
  now := rfl
  rows _ row h := ⟨row, h, Row.Le.refl row⟩
  brought := List.forall_mem_nil _
  touched _ _ h := Or.inl h
  origin _ row' _ h hnumber := Or.inr ⟨row', h, hnumber, rfl⟩
  unnumbered _ _ h _ := Or.inl h

theorem Upserts.trans {db₁ db₂ db₃ : Database} {rs rs' : List Record}
    (h : Upserts db₁ db₂ rs) (h' : Upserts db₂ db₃ rs') : Upserts db₁ db₃ (rs ++ rs') where
  state := h'.state.trans h.state
  seen := h'.seen.trans h.seen
  now := h'.now.trans h.now
  rows m row hrow := by
    obtain ⟨row', hrow', hle⟩ := h.rows m row hrow
    obtain ⟨row'', hrow'', hle'⟩ := h'.rows m row' hrow'
    exact ⟨row'', hrow'', hle.trans hle'⟩
  brought r hr x hx := by
    rcases List.mem_append.1 hr with hr | hr
    · obtain ⟨row', hrow', y, hy, hxy⟩ := h.brought r hr x hx
      obtain ⟨row'', hrow'', hle⟩ := h'.rows r.messageId row' hrow'
      obtain ⟨z, hz, hyz⟩ := hle y hy
      exact ⟨row'', hrow'', z, hz, Nat.le_trans hxy hyz⟩
    · exact h'.brought r hr x hx
  touched m row' hrow' := by
    rcases h'.touched m row' hrow' with hold | ⟨hnow, r, hr, hm⟩
    · rcases h.touched m row' hold with hold | ⟨hnow, r, hr, hm⟩
      · exact Or.inl hold
      · exact Or.inr ⟨hnow, r, List.mem_append_left rs' hr, hm⟩
    · exact Or.inr ⟨hnow.trans h.now, r, List.mem_append_right rs hr, hm⟩
  origin m row' x hrow' hx := by
    rcases h'.origin m row' x hrow' hx with ⟨r, hr, hm⟩ | ⟨row, hrow, hnumber, hlabels⟩
    · exact Or.inl ⟨r, List.mem_append_right rs hr, hm⟩
    · rcases h.origin m row x hrow hnumber with ⟨r, hr, hm, hid, hl⟩ | ⟨row₀, hrow₀, hid, hl⟩
      · exact Or.inl ⟨r, List.mem_append_left rs' hr, hm, hid, hl.trans hlabels⟩
      · exact Or.inr ⟨row₀, hrow₀, hid, hl.trans hlabels⟩
  unnumbered m row' hrow' hnone := by
    rcases h'.unnumbered m row' hrow' hnone with hold | ⟨r, hr, hm⟩
    · rcases h.unnumbered m row' hold hnone with hold | ⟨r, hr, hm⟩
      · exact Or.inl hold
      · exact Or.inr ⟨r, List.mem_append_left rs' hr, hm⟩
    · exact Or.inr ⟨r, List.mem_append_right rs hr, hm⟩

theorem upsertRecord_messages_self (db : Database) (r : Record) :
    (upsertRecord db r).messages r.messageId =
      some (upsertedRow db.now (db.messages r.messageId) r) :=
  Function.update_self r.messageId _ db.messages

theorem upsertRecord_messages_of_ne (db : Database) (r : Record) {m : MessageId}
    (h : m ≠ r.messageId) : (upsertRecord db r).messages m = db.messages m :=
  Function.update_of_ne h _ db.messages

theorem upserts_record (db : Database) (r : Record) : Upserts db (upsertRecord db r) [r] where
  state := rfl
  seen := rfl
  now := rfl
  rows m row hrow := by
    by_cases hm : m = r.messageId
    · subst hm
      exact ⟨_, upsertRecord_messages_self db r, by
        rw [hrow]
        exact mergeRow_le db.now row r⟩
    · exact ⟨row, (upsertRecord_messages_of_ne db r hm).trans hrow, Row.Le.refl row⟩
  brought := by
    simp only [List.mem_singleton, forall_eq]
    intro x hx
    refine ⟨_, upsertRecord_messages_self db r, ?_⟩
    cases hrow : db.messages r.messageId with
    | none => exact ⟨x, hx, Nat.le_refl x⟩
    | some row => exact le_mergeRow db.now row hx
  touched m row' hrow' := by
    by_cases hm : m = r.messageId
    · subst hm
      rw [upsertRecord_messages_self] at hrow'
      cases hrow'
      refine Or.inr ⟨?_, r, List.mem_singleton_self r, rfl⟩
      cases hrow : db.messages r.messageId with
      | none => rfl
      | some row => exact mergeRow_updatedAt db.now row r
    · exact Or.inl ((upsertRecord_messages_of_ne db r hm).symm.trans hrow')
  origin m row' x hrow' hx := by
    by_cases hm : m = r.messageId
    · subst hm
      rw [upsertRecord_messages_self] at hrow'
      cases hrow'
      cases hrow : db.messages r.messageId with
      | none =>
        rw [hrow] at hx
        exact Or.inl ⟨r, List.mem_singleton_self r, rfl, hx, rfl⟩
      | some row =>
        rw [hrow] at hx
        rcases mergeRow_origin db.now row r with ⟨hid, hlabels, -⟩ | ⟨hid, hlabels, -⟩
        · exact Or.inl ⟨r, List.mem_singleton_self r, rfl, hid.symm.trans hx, hlabels.symm⟩
        · exact Or.inr ⟨row, rfl, hid.symm.trans hx, hlabels.symm⟩
    · exact Or.inr ⟨row', (upsertRecord_messages_of_ne db r hm).symm.trans hrow', hx, rfl⟩
  unnumbered m row' hrow' hnone := by
    by_cases hm : m = r.messageId
    · subst hm
      rw [upsertRecord_messages_self] at hrow'
      cases hrow'
      refine Or.inr ⟨r, List.mem_singleton_self r, rfl, ?_⟩
      cases hrow : db.messages r.messageId with
      | none =>
        rw [hrow] at hnone
        exact hnone
      | some row =>
        rw [hrow] at hnone
        rcases mergeRow_origin db.now row r with ⟨hid, -, -⟩ | ⟨hid, -, himp⟩
        · exact hid.symm.trans hnone
        · exact himp (hid.symm.trans hnone)
    · exact Or.inl ((upsertRecord_messages_of_ne db r hm).symm.trans hrow')

theorem upserts_onConnection (db : Database) (records : List Record) :
    Upserts db (upsertGmailMessagesOnConnection db records) records := by
  induction records generalizing db with
  | nil => exact Upserts.nil db
  | cons r records ih => exact (upserts_record db r).trans (ih (upsertRecord db r))

end ElectronicMail.Sync
