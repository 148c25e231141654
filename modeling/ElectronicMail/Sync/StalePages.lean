import ElectronicMail.Sync.Workers

/-!
# Workers that come too late

A worker of a full reconciliation fetches a page for the generation and the cursor that it has read
and commits it later, when another worker may have moved the cursor on, restarted the scan or
finished it. Such a worker should leave the stored messages, the seen set and the import state as
they are. A page of threads is upserted behind the compare-and-set and keeps to this. A page of
messages is upserted in a transaction of its own before the compare-and-set, so that a late worker
stores it, even after the sweep of its generation (`resurrected_by_late_page`).

`stale_page_iff` says exactly when a late page leaves the tables alone. Its databases are those
whose rows were written before now, which holds in every run (`clocked_runFrom`).
-/

namespace ElectronicMail.Sync

open Foundations

/-! ## Finishing a page -/

/-- A page that a worker has fetched: what it has read of the scan, the cursor after the page and
the records of its messages. -/
structure FetchedPage where
  generation : String
  cursor : Cursor
  next : Option Cursor
  records : List Record

def Cursor.isThreads : Cursor → Bool
  | .threads _ => true
  | .mailbox .. => false

/-- The transactions that `run_gmail_full_reconciliation` makes for a page, each with the tables
before and after it. Between the two of a page of messages other workers may do anything: `resumed`
are the tables that they leave. -/
def finishPage (page : FetchedPage) (db resumed : Database) : List (Database × Database) :=
  if page.next = some page.cursor then
    -- The listing does not move: the scan is started again.
    [(db, resetGmailReconciliation db page.generation)]
  else if page.cursor.isThreads then
    [(db, (commitGmailReconciliationMetadataPage db page.generation page.cursor page.next
      page.records).getD db)]
  else
    (if page.records.isEmpty then [] else [(db, upsertGmailMessages db page.records)]) ++
      [(resumed, (recordGmailReconciliationPage resumed page.generation page.cursor page.next
        (page.records.map Record.messageId)).getD resumed)]

def committedAt (page : FetchedPage) (db resumed : Database) : Database :=
  if page.next = some page.cursor ∨ page.cursor.isThreads = true then db else resumed

/-- The generation of the page is not active any more, or its cursor has moved on. -/
def MovedOn (page : FetchedPage) (db : Database) : Prop :=
  ∀ scan ∈ db.state.reconcile, scan.generation ≠ page.generation ∨ scan.cursor ≠ some page.cursor

instance (page : FetchedPage) (db : Database) : Decidable (MovedOn page db) :=
  inferInstanceAs (Decidable (∀ scan ∈ db.state.reconcile, _))

structure SameTables (db db' : Database) : Prop where
  messages : db'.messages = db.messages
  state : db'.state = db.state
  seen : db'.seen = db.seen

def LeavesTables (page : FetchedPage) (db resumed : Database) : Prop :=
  ∀ transaction ∈ finishPage page db resumed, SameTables transaction.1 transaction.2

/-- The page is one of threads or has no messages; or it does not move the cursor and the scan that
it would start again is over. -/
def Harmless (page : FetchedPage) (db : Database) : Prop :=
  if page.next = some page.cursor then
    db.state.generation ≠ some page.generation ∧ ∀ entry ∈ db.seen, entry.1 ≠ page.generation
  else page.cursor.isThreads = true ∨ page.records = []

def Database.Clocked (db : Database) : Prop :=
  ∀ m row, db.messages m = some row → row.updatedAt ≤ db.now

/-! ## One transaction -/

theorem SameTables.refl (db : Database) : SameTables db db := ⟨rfl, rfl, rfl⟩

variable {page : FetchedPage} {db : Database}

theorem activeScan_eq_none (h : MovedOn page db) :
    db.state.activeScan page.generation (some page.cursor) = none := by
  rw [Option.eq_none_iff_forall_ne_some]
  intro scan hscan
  obtain ⟨hactive, hgeneration, hcursor⟩ := activeScan_eq_some.1 hscan
  rcases h scan hactive with hother | hother
  · exact hother hgeneration
  · exact hother hcursor

theorem commit_of_movedOn (h : MovedOn page db) :
    commitGmailReconciliationMetadataPage db page.generation page.cursor page.next page.records =
      none := by
  unfold commitGmailReconciliationMetadataPage
  rw [activeScan_eq_none h]
  split <;> rfl

theorem record_of_movedOn (h : MovedOn page db) (ids : List MessageId) :
    recordGmailReconciliationPage db page.generation page.cursor page.next ids = none := by
  unfold recordGmailReconciliationPage
  rw [activeScan_eq_none h]
  rfl

theorem same_reset_iff (db : Database) (generation : String) :
    SameTables db (resetGmailReconciliation db generation) ↔
      db.state.generation ≠ some generation ∧ ∀ entry ∈ db.seen, entry.1 ≠ generation := by
  constructor
  · intro h
    constructor
    · intro hactive
      have hstate := h.state
      simp only [resetGmailReconciliation, if_pos hactive] at hstate
      have hnone : db.state.reconcile = none := by rw [← hstate]
      simp [ImportState.generation, hnone] at hactive
    · have hseen : (db.seen.filter fun entry => entry.1 ≠ generation) = db.seen := h.seen
      intro entry hentry
      simpa using List.filter_eq_self.1 hseen entry hentry
  · rintro ⟨hstate, hseen⟩
    refine ⟨rfl, if_neg hstate, ?_⟩
    exact List.filter_eq_self.2 fun entry hentry => by simpa using hseen entry hentry

theorem upsert_changes (hdb : db.Clocked) {records : List Record}
    (hne : records ≠ []) : (upsertGmailMessages db records).messages ≠ db.messages := by
  obtain ⟨front, r, rfl⟩ := List.eq_nil_or_concat' records |>.resolve_left hne
  intro hsame
  have hnow := (upserts_onConnection db.begin front).now
  have hlast : (upsertGmailMessages db (front ++ [r])).messages r.messageId =
      some (upsertedRow (db.now + 1)
        ((upsertGmailMessagesOnConnection db.begin front).messages r.messageId) r) := by
    simp only [upsertGmailMessages, upsertGmailMessagesOnConnection, List.foldl_append,
      List.foldl_cons, List.foldl_nil]
    rw [upsertRecord_messages_self]
    exact congrArg (fun now => some (upsertedRow now _ r)) hnow
  have hold := hdb r.messageId _ ((congrFun hsame r.messageId).symm.trans hlast)
  have hupdated (now : Nat) (stored : Option Row) : (upsertedRow now stored r).updatedAt = now := by
    cases stored with
    | none => rfl
    | some row => exact mergeRow_updatedAt now row r
  rw [hupdated] at hold
  omega

variable {db' : Database}

/-! ## Reachable tables -/

section

variable (h : db.Clocked)
include h

theorem Database.Clocked.of_rows (hnow : db.now ≤ db'.now)
    (hrows : ∀ m row, db'.messages m = some row →
      db.messages m = some row ∨ row.updatedAt ≤ db'.now) : db'.Clocked := by
  intro m row hrow
  rcases hrows m row hrow with hold | hnew
  · exact (h m row hold).trans hnow
  · exact hnew

theorem Database.Clocked.upsert (records : List Record) :
    (upsertGmailMessagesOnConnection db.begin records).Clocked := by
  have hups := upserts_onConnection db.begin records
  apply h.of_rows
  · rw [hups.now]
    exact Nat.le_succ db.now
  · intro m row hrow
    rcases hups.touched m row hrow with hold | ⟨hupdated, -⟩
    · exact Or.inl hold
    · rw [hups.now, hupdated]
      exact Or.inr (Nat.le_refl _)

theorem Database.Clocked.start (generation : String)
    (baseline : Nat) (cursor : Cursor) :
    (startGmailReconciliation db generation baseline cursor).Clocked := by
  unfold startGmailReconciliation
  split <;> exact h.of_rows (Nat.le_succ db.now) fun m row hrow => Or.inl hrow

theorem Database.Clocked.startProgress (generation : String) :
    (startGmailSyncProgress db generation).Clocked := by
  unfold startGmailSyncProgress
  split <;> exact h.of_rows (Nat.le_succ db.now) fun m row hrow => Or.inl hrow

variable {generation : String}

variable {next : Option Cursor}

theorem Database.Clocked.commit {expected : Cursor} {records : List Record}
    (hdb : commitGmailReconciliationMetadataPage db generation expected next records = some db') :
    db'.Clocked := by
  unfold commitGmailReconciliationMetadataPage at hdb
  split at hdb
  · obtain ⟨scan, -, rfl⟩ := Option.map_eq_some_iff.1 hdb
    exact h.upsert records
  · cases hdb

variable {ids : List MessageId}

theorem Database.Clocked.recordPage {expected : Cursor}
    (hdb : recordGmailReconciliationPage db generation expected next ids = some db') :
    db'.Clocked := by
  obtain ⟨scan, -, rfl⟩ := Option.map_eq_some_iff.1 hdb
  exact h.of_rows (Nat.le_succ db.now) fun m row hrow => Or.inl hrow

theorem Database.Clocked.recordSeen
    (hdb : recordGmailReconciliationSeen db generation ids = some db') : db'.Clocked := by
  unfold recordGmailReconciliationSeen at hdb
  split at hdb
  · cases hdb
    exact h
  · obtain ⟨scan, -, rfl⟩ := Option.map_eq_some_iff.1 hdb
    exact h.of_rows (Nat.le_succ db.now) fun m row hrow => Or.inl hrow

theorem Database.Clocked.finalize {final : Nat}
    (hdb : finalizeGmailReconciliation db generation final = some db') : db'.Clocked := by
  obtain ⟨scan, -, rfl⟩ := Option.map_eq_some_iff.1 hdb
  exact h.of_rows (Nat.le_succ db.now) fun m row hrow => Or.inl (Option.filter_eq_some_iff.1 hrow).1

theorem Database.Clocked.delete (ids : List MessageId) : (deleteGmailMessages db ids).Clocked := by
  apply h.of_rows (Nat.le_succ db.now)
  intro m row hrow
  left
  simp only [deleteGmailMessages] at hrow
  split at hrow
  · cases hrow
  · exact hrow

end

/-- **Late pages.** A page whose generation or cursor has moved on when it is committed leaves the
tables alone exactly when it is harmless. -/
theorem stale_page_iff {db : Database} (hdb : db.Clocked) (page : FetchedPage) (resumed : Database)
    (hstale : MovedOn page (committedAt page db resumed)) :
    LeavesTables page db resumed ↔ Harmless page db := by
  unfold LeavesTables Harmless finishPage
  by_cases hsame : page.next = some page.cursor
  · rw [if_pos hsame, if_pos hsame, List.forall_mem_singleton]
    exact same_reset_iff db page.generation
  rw [if_neg hsame, if_neg hsame]
  by_cases hthreads : page.cursor.isThreads = true
  · rw [if_pos hthreads, List.forall_mem_singleton]
    rw [committedAt, if_pos (Or.inr hthreads)] at hstale
    simp [commit_of_movedOn hstale, hthreads, SameTables.refl]
  · rw [if_neg hthreads, List.forall_mem_append, List.forall_mem_singleton]
    have hno : ¬ (page.next = some page.cursor ∨ page.cursor.isThreads = true) :=
      not_or.2 ⟨hsame, hthreads⟩
    rw [committedAt, if_neg hno] at hstale
    rw [record_of_movedOn hstale]
    by_cases hempty : page.records = []
    · simp [hempty, SameTables.refl]
    · -- The messages are upserted whatever the scan has come to.
      have hchanged := upsert_changes hdb hempty
      have hstored : page.records.isEmpty = false := by simp [hempty]
      rw [hstored, if_neg (by simp), List.forall_mem_singleton]
      constructor
      · exact fun h => absurd h.1.messages hchanged
      · rintro (h | h)
        · exact absurd h hthreads
        · exact absurd h hempty

/-- A scan of one page that lists no message is finished by another worker. -/
def finishedScan : Database :=
  let started := startGmailReconciliation Database.empty "g" 5 (Cursor.initial false)
  let recorded := (recordGmailReconciliationPage started "g" (Cursor.initial false) none []).getD
    started
  (finalizeGmailReconciliation recorded "g" 5).getD recorded

/-- The same page as a worker fetched it when the message `m` was still there. -/
def latePage : FetchedPage := ⟨"g", Cursor.initial false, none, [⟨"m", some 4, ["INBOX"]⟩]⟩

theorem resurrected_by_late_page :
    MovedOn latePage finishedScan ∧ finishedScan.state.generation = none ∧
      finishedScan.messages "m" = none ∧ ¬ LeavesTables latePage finishedScan finishedScan := by
  refine ⟨by decide +kernel, by decide +kernel, by decide +kernel, ?_⟩
  intro hleaves
  have hstored := congrFun (hleaves (finishedScan, upsertGmailMessages finishedScan
    [⟨"m", some 4, ["INBOX"]⟩]) List.mem_cons_self).messages "m"
  exact absurd hstored (by decide +kernel)

theorem finishedScan_clocked : finishedScan.Clocked := by
  intro m row hrow
  cases hrow

theorem late_threads_harmless :
    LeavesTables { latePage with cursor := .threads none } finishedScan finishedScan :=
  (stale_page_iff finishedScan_clocked { latePage with cursor := .threads none } finishedScan
    (by decide +kernel)).2 (Or.inl rfl)

end ElectronicMail.Sync
