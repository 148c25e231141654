import ElectronicMail.Sync.State

/-!
# Failures of a delta sync

`run_gmail_delta_sync` gives up the authoritative cursor and starts a full reconciliation when the
history behind the cursor is gone. It tells this by the status 404 of a failed request, whichever
request it was: `history.list`, or the `messages.get` of a message that has been deleted since it
was listed. The batched `messages.get` passes over a failed message, but the request that is then
made for this message alone raises, as `skip_not_found` is not set.

Gmail's answers are those of a `Provider`, of which any may fail. `delta_sync_iff` says when a
delta sync only discards its cursor for an expired history or one that is too long.
-/

namespace ElectronicMail.Sync

/-! ## What can fail -/

/-- An exception: an `HttpError` with its status, the limit of a history traversal, or another. -/
inductive Failure where
  | http (status : Option Int)
  | traversalLimit
  | other
  deriving DecidableEq

/-- `_is_history_cursor_expired`, for an `HttpError`. -/
def isHistoryCursorExpired : Failure → Bool
  | .http status => status = some 404
  | _ => false

structure HistoryItem where
  id : Option Nat
  messages : List MessageId
  messagesAdded : List MessageId
  labelsAdded : List MessageId
  labelsRemoved : List MessageId
  messagesDeleted : List MessageId

/-- A page of `history.list`. -/
structure HistoryPage where
  historyId : Option Nat
  history : List HistoryItem
  nextPageToken : Option String

/-- What the callback of a batch gets for one message: a payload, parsed, an exception, or a
response that is no dictionary. -/
inductive BatchItem where
  | payload (record : Record)
  | failed (failure : Failure)
  | empty

/-- The callbacks of a batch, and whether it was executed without an exception. -/
structure BatchAnswer where
  items : List (MessageId × BatchItem)
  executed : Bool

/-- What Gmail answers to the requests of a delta sync, and which of its other steps succeed. A
request fails with an `HttpError`, or with another exception if its status is `none` here. -/
structure Provider where
  canWrite : Bool
  history : Nat → Option String → Except (Option (Option Int)) HistoryPage
  batch : List MessageId → BatchAnswer
  get : MessageId → Except (Option (Option Int)) (Option Record)
  connected : Bool
  deletes : Bool
  stores : Bool
  publishes : Bool
  finishes : Bool
  profile : Option Nat
  fresh : String
  recent : Bool

def raised : Option (Option Int) → Failure
  | some status => .http status
  | none => .other

/-! ## The history -/

def maxHistoryId : Option Nat → Option Nat → Option Nat
  | left, none => left
  | none, some right => some right
  | some left, some right => some (max left right)

/-- What `_list_history_delta` has collected. -/
structure CollectedHistory where
  messageIds : List MessageId
  deletedMessageIds : List MessageId
  latestHistoryId : Option Nat
  deriving DecidableEq

def CollectedHistory.item (collected : CollectedHistory) (item : HistoryItem) :
    CollectedHistory where
  messageIds := collected.messageIds ++ item.messages ++ item.messagesAdded ++ item.labelsAdded ++
    item.labelsRemoved
  deletedMessageIds := collected.deletedMessageIds ++ item.messagesDeleted
  latestHistoryId := maxHistoryId collected.latestHistoryId item.id

def CollectedHistory.page (collected : CollectedHistory) (page : HistoryPage) :
    CollectedHistory :=
  page.history.foldl CollectedHistory.item
    { collected with latestHistoryId := maxHistoryId collected.latestHistoryId page.historyId }

def gmailHistoryMaxPagesPerSync : Nat := 2000

/-- The loop of `_list_history_delta`, with the pages that it may still list. -/
def listPages (provider : Provider) :
    Nat → Nat → Option String → List String → CollectedHistory → Except Failure CollectedHistory
  | 0, _, _, _, _ => .error .traversalLimit
  | left + 1, pageCount, pageToken, seen, collected =>
    match provider.history pageCount pageToken with
    | .error status => .error (raised status)
    | .ok page =>
      let collected := collected.page page
      match page.nextPageToken with
      | none => .ok collected
      | some next =>
        if next = "" then .ok collected
        else if left = 0 then .error .traversalLimit
        else if seen.contains next then .error .traversalLimit
        else listPages provider left (pageCount + 1) (some next) (next :: seen) collected

def listHistoryDelta (provider : Provider) : Except Failure CollectedHistory :=
  if !provider.connected then .error .other
  else
    match listPages provider gmailHistoryMaxPagesPerSync 0 none [] ⟨[], [], none⟩ with
    | .error failure => .error failure
    | .ok collected =>
      .ok { collected with
        messageIds := collected.messageIds.eraseDups.filter fun m =>
          !collected.deletedMessageIds.contains m
        deletedMessageIds := collected.deletedMessageIds.eraseDups }

/-! ## The messages -/

/-- `payloads` and `not_found_ids`. -/
structure Payloads where
  payloads : List (MessageId × Record)
  notFoundIds : List MessageId

def Payloads.callback (skipNotFound continueOnError : Bool) (found : Payloads)
    (item : MessageId × BatchItem) : Payloads :=
  match item.2 with
  | .payload record => { found with payloads := (item.1, record) :: found.payloads }
  | .failed failure =>
    if isHistoryCursorExpired failure && (skipNotFound || continueOnError) then
      { found with notFoundIds := item.1 :: found.notFoundIds }
    else found
  | .empty => found

def executeBatches (provider : Provider) (skipNotFound continueOnError : Bool) :
    List (List MessageId) → Payloads → Payloads
  | [], found => found
  | ids :: batches, found =>
    let answer := provider.batch ids
    let found := answer.items.foldl (Payloads.callback skipNotFound continueOnError) found
    if answer.executed then executeBatches provider skipNotFound continueOnError batches found
    else found

def getMissing (provider : Provider) (skipNotFound continueOnError : Bool) :
    List MessageId → Payloads → Except Failure Payloads
  | [], found => .ok found
  | m :: missing, found =>
    match provider.get m with
    | .ok (some record) =>
      getMissing provider skipNotFound continueOnError missing
        { found with payloads := (m, record) :: found.payloads }
    | .ok none => getMissing provider skipNotFound continueOnError missing found
    | .error status =>
      if (skipNotFound || continueOnError) && isHistoryCursorExpired (raised status) then
        getMissing provider skipNotFound continueOnError missing
          { found with notFoundIds := m :: found.notFoundIds }
      else .error (raised status)

def gmailBatchGetSize : Nat := 50

def batched (provider : Provider) (skipNotFound continueOnError : Bool)
    (messageIds : List MessageId) : Payloads :=
  executeBatches provider skipNotFound continueOnError
    (messageIds.eraseDups.toChunks gmailBatchGetSize) ⟨[], []⟩

def missingAfterBatches (provider : Provider) (skipNotFound continueOnError : Bool)
    (messageIds : List MessageId) : List MessageId :=
  let found := batched provider skipNotFound continueOnError messageIds
  messageIds.eraseDups.filter fun m =>
    !(found.payloads.map Prod.fst).contains m && !found.notFoundIds.contains m

def batchGetMessagePayloads (provider : Provider) (skipNotFound continueOnError : Bool)
    (messageIds : List MessageId) : Except Failure Payloads :=
  getMissing provider skipNotFound continueOnError
    (missingAfterBatches provider skipNotFound continueOnError messageIds)
    (batched provider skipNotFound continueOnError messageIds)

/-- `_hydrate_message_ids`, without `continue_on_error`. -/
def hydrateMessageIds (provider : Provider) (messageIds : List MessageId) (skipNotFound : Bool) :
    Except Failure (List Record) :=
  if !provider.connected then .error .other
  else
    match batchGetMessagePayloads provider skipNotFound false messageIds with
    | .error failure => .error failure
    | .ok found => .ok (messageIds.eraseDups.filterMap fun m => found.payloads.lookup m)

/-! ## The sync -/

/-- What a delta sync comes to: the tables, whether it has turned to a reconciliation, and whether
it has raised. -/
structure DeltaRun where
  tables : Database
  restarted : Bool
  result : Except Failure Unit

/-- `_ensure_gmail_reconciliation_started`, the recent messages, and the reconciliation queued. -/
def restart (provider : Provider) (db : Database) : DeltaRun :=
  match db.state.reconcile, provider.profile with
  | some _, _ => ⟨db, true, if provider.recent then .ok () else .error .other⟩
  | none, none => ⟨db, true, .error .other⟩
  | none, some baseline =>
    ⟨startGmailReconciliation db (db.state.nextGeneration provider.fresh) baseline
      (Cursor.initial db.state.progressivePending), true,
      if provider.recent then .ok () else .error .other⟩

/-- The `except` clauses of `run_gmail_delta_sync`. -/
def handled (provider : Provider) (db : Database) (failure : Failure) : DeltaRun :=
  if isHistoryCursorExpired failure || failure = .traversalLimit then restart provider db
  else ⟨db, false, .error failure⟩

def completed (provider : Provider) (db : Database) (records : List Record) (latest : Nat) :
    DeltaRun :=
  if !provider.stores then handled provider db .other
  else
    let db := if records.isEmpty then db else upsertGmailMessages db records
    if !provider.publishes then handled provider db .other
    else
      let db := markHistoryDeltaCompleted db latest
      if !provider.finishes then handled provider db .other else ⟨db, false, .ok ()⟩

def runGmailDeltaSync (provider : Provider) (db : Database) : DeltaRun :=
  if !provider.canWrite then ⟨db, false, .ok ()⟩
  else
    match db.state.authoritativeCursor with
    | none => restart provider db
    | some start =>
      match listHistoryDelta provider with
      | .error failure => handled provider db failure
      | .ok delta =>
        if !provider.deletes then handled provider db .other
        else
          let db := deleteGmailMessages db delta.deletedMessageIds
          match hydrateMessageIds provider delta.messageIds false with
          | .error failure => handled provider db failure
          | .ok records =>
            completed provider db records
              ((maxHistoryId (some start) delta.latestHistoryId).getD start)

/-! ## The property -/

def getFailure (provider : Provider) (m : MessageId) : Option Failure :=
  match provider.get m with
  | .ok _ => none
  | .error status => some (raised status)

/-- The first failure of the requests for the messages of the history that no batch has brought. -/
def firstFailure (provider : Provider) (delta : CollectedHistory) : Option Failure :=
  (missingAfterBatches provider false false delta.messageIds).findSome? (getFailure provider)

def Failure.notFound : Failure := .http (some 404)

def CollectedHistory.cursor (delta : CollectedHistory) (start : Nat) : Nat :=
  (maxHistoryId (some start) delta.latestHistoryId).getD start

/-- All goes well, but that messages of the history may not be there any more. -/
structure OnlyVanishing (provider : Provider) (delta : CollectedHistory) : Prop where
  listed : listHistoryDelta provider = .ok delta
  canWrite : provider.canWrite = true
  deletes : provider.deletes = true
  stores : provider.stores = true
  publishes : provider.publishes = true
  finishes : provider.finishes = true
  vanished : ∀ m failure, getFailure provider m = some failure → failure = .notFound

/-- The cursor is only given up for an expired history or one that is too long, and messages that
have vanished do not keep it from moving on. -/
structure DiscardsOnlyExpired (provider : Provider) (db : Database) (start : Nat) : Prop where
  discarded : (runGmailDeltaSync provider db).restarted = true ∨
      (runGmailDeltaSync provider db).tables.state.authoritativeCursor = none →
    listHistoryDelta provider = .error .notFound ∨
      listHistoryDelta provider = .error .traversalLimit
  advanced : ∀ delta, OnlyVanishing provider delta →
    (runGmailDeltaSync provider db).restarted = false ∧
      (runGmailDeltaSync provider db).result = .ok () ∧
      (runGmailDeltaSync provider db).tables.state.authoritativeCursor = some (delta.cursor start)

/-- No message that has vanished is the first that a request of its own fails for. -/
def NoneVanishesFirst (provider : Provider) : Prop :=
  provider.canWrite = true → provider.deletes = true →
    ∀ delta, listHistoryDelta provider = .ok delta → firstFailure provider delta ≠ some .notFound

/-! ## The steps of a delta sync -/

variable {provider : Provider}

variable {failure : Failure}

theorem expired_iff : isHistoryCursorExpired failure = true ↔ failure = .notFound := by
  cases failure <;> simp [isHistoryCursorExpired, Failure.notFound]

variable (provider) in
/-- Without `skip_not_found`, the first failure ends the requests. -/
theorem getMissing_eq (missing : List MessageId) (found : Payloads) :
    (∀ failure, getMissing provider false false missing found = .error failure ↔
      missing.findSome? (getFailure provider) = some failure) := by
  intro failure
  induction missing generalizing found with
  | nil => simp [getMissing]
  | cons m missing ih =>
    cases hget : provider.get m with
    | ok payload =>
      have hnone : getFailure provider m = none := by simp [getFailure, hget]
      rw [List.findSome?_cons, hnone]
      cases payload with
      | none => simpa [getMissing, hget] using ih found
      | some => simpa [getMissing, hget] using ih _
    | error status =>
      have hsome : getFailure provider m = some (raised status) := by simp [getFailure, hget]
      rw [List.findSome?_cons, hsome]
      simp [getMissing, hget]

variable {delta : CollectedHistory}

theorem connected_of_listed (h : listHistoryDelta provider = .ok delta) : provider.connected = true := by
  unfold listHistoryDelta at h
  cases hoff : provider.connected with
  | false => simp [hoff] at h
  | true => rfl

theorem hydrate_eq (h : listHistoryDelta provider = .ok delta) :
    (∃ failure, hydrateMessageIds provider delta.messageIds false = .error failure ∧
      firstFailure provider delta = some failure) ∨
    ∃ records, hydrateMessageIds provider delta.messageIds false = .ok records ∧
      firstFailure provider delta = none := by
  have herror := getMissing_eq provider
    (missingAfterBatches provider false false delta.messageIds)
    (batched provider false false delta.messageIds)
  unfold hydrateMessageIds
  rw [connected_of_listed h]
  cases hget : batchGetMessagePayloads provider false false delta.messageIds with
  | error failure => exact Or.inl ⟨failure, rfl, (herror failure).1 hget⟩
  | ok =>
    refine Or.inr ⟨_, rfl, ?_⟩
    rw [Option.eq_none_iff_forall_ne_some]
    intro failure hfailure
    have hboth := hget.symm.trans ((herror failure).2 hfailure)
    cases hboth

variable (provider) in
theorem handled_of_other (db : Database) (hexpired : failure ≠ .notFound)
    (hlimit : failure ≠ .traversalLimit) :
    handled provider db failure = ⟨db, false, .error failure⟩ := by
  have hno : isHistoryCursorExpired failure = false := by
    simpa using mt expired_iff.1 hexpired
  simp [handled, hno, hlimit]

theorem handled_of_notFound (db : Database) :
    handled provider db .notFound = restart provider db := rfl

theorem restarted_restart (db : Database) : (restart provider db).restarted = true := by
  unfold restart
  split <;> rfl

@[simp] theorem delete_cursor (db : Database) (ids : List MessageId) :
    (deleteGmailMessages db ids).state.authoritativeCursor = db.state.authoritativeCursor := rfl

theorem upsert_cursor (db : Database) (records : List Record) :
    (if records.isEmpty then db else upsertGmailMessages db records).state.authoritativeCursor =
      db.state.authoritativeCursor := by
  split
  · rfl
  · rw [upsertGmailMessages, (upserts_onConnection db.begin records).state, begin_state]

theorem published_cursor {db : Database} {start latest : Nat}
    (hcursor : db.state.authoritativeCursor = some start) (hle : start ≤ latest) :
    (markHistoryDeltaCompleted db latest).state.authoritativeCursor = some latest := by
  have hpublished : db.state.publishedHistoryId latest = latest := by
    simp [ImportState.publishedHistoryId, hcursor, hle]
  show some (db.state.publishedHistoryId latest) = some latest
  rw [hpublished]

theorem start_le_cursor (delta : CollectedHistory) (start : Nat) : start ≤ delta.cursor start := by
  unfold CollectedHistory.cursor maxHistoryId
  cases delta.latestHistoryId with
  | none => exact Nat.le_refl start
  | some latest => exact Nat.le_max_left start latest

variable (provider) in
theorem completed_spec {db : Database} {start latest : Nat} (records : List Record)
    (hcursor : db.state.authoritativeCursor = some start) (hle : start ≤ latest) :
    (completed provider db records latest).restarted = false ∧
      (completed provider db records latest).tables.state.authoritativeCursor ≠ none ∧
      (provider.stores = true → provider.publishes = true → provider.finishes = true →
        (completed provider db records latest).result = .ok () ∧
          (completed provider db records latest).tables.state.authoritativeCursor =
            some latest) := by
  have hother (db : Database) : handled provider db .other = ⟨db, false, .error .other⟩ :=
    handled_of_other provider db (by simp [Failure.notFound]) (by simp)
  have hstored := (upsert_cursor db records).trans hcursor
  have hpublished := published_cursor hstored hle
  unfold completed
  generalize (if records.isEmpty then db else upsertGmailMessages db records) = stored
    at hstored hpublished ⊢
  cases hstores : provider.stores with
  | false => simp [hother, hcursor]
  | true =>
    cases hpublishes : provider.publishes with
    | false => simpa [hother] using (ne_of_eq_of_ne hstored (Option.some_ne_none start))
    | true =>
      cases hfinishes : provider.finishes with
      | false =>
        simpa [hother] using (ne_of_eq_of_ne hpublished (Option.some_ne_none latest))
      | true => simp [hpublished]

theorem firstFailure_cases (h : firstFailure provider delta = some failure) :
    failure ≠ .traversalLimit ∧ ∃ m, getFailure provider m = some failure := by
  obtain ⟨m, -, hm⟩ := List.exists_of_findSome?_eq_some h
  refine ⟨?_, m, hm⟩
  rintro rfl
  unfold getFailure at hm
  split at hm
  · cases hm
  · next status _ => cases status <;> cases hm

section Run

variable {db : Database} {start : Nat} (hstart : db.state.authoritativeCursor = some start)

include hstart

theorem run_of_unlisted (hwrite : provider.canWrite = true)
    (hlist : listHistoryDelta provider = .error failure) :
    DiscardsOnlyExpired provider db start := by
  have hrun : runGmailDeltaSync provider db = handled provider db failure := by
    simp [runGmailDeltaSync, hwrite, hstart, hlist]
  constructor
  · intro hdiscarded
    by_contra hno
    rw [hlist] at hno
    simp only [Except.error.injEq, not_or] at hno
    rw [hrun, handled_of_other provider db hno.1 hno.2] at hdiscarded
    simp [hstart] at hdiscarded
  · intro delta hdelta
    cases hlist.symm.trans hdelta.listed

theorem run_of_listed (hwrite : provider.canWrite = true) (hdeletes : provider.deletes = true)
    (hlist : listHistoryDelta provider = .ok delta) :
    DiscardsOnlyExpired provider db start ↔ firstFailure provider delta ≠ some .notFound := by
  let deleted := deleteGmailMessages db delta.deletedMessageIds
  have hdeleted : deleted.state.authoritativeCursor = some start := hstart
  rcases hydrate_eq hlist with ⟨failure, hydrated, hfirst⟩ | ⟨records, hydrated, hfirst⟩
  · have hrun : runGmailDeltaSync provider db = handled provider deleted failure := by
      simp [runGmailDeltaSync, hwrite, hstart, hlist, hdeletes, hydrated, deleted]
    obtain ⟨hlimit, m, hm⟩ := firstFailure_cases hfirst
    by_cases hnotFound : failure = .notFound
    · -- The sync takes the missing message for an expired history.
      subst hnotFound
      refine iff_of_false ?_ (not_not.2 hfirst)
      intro h
      have hrestarted : (runGmailDeltaSync provider db).restarted = true := by
        rw [hrun, handled_of_notFound, restarted_restart]
      rcases h.discarded (Or.inl hrestarted) with hexpired | hexpired <;>
        cases hlist.symm.trans hexpired
    · rw [handled_of_other provider deleted hnotFound hlimit] at hrun
      refine iff_of_true ⟨?_, ?_⟩ ?_
      · simp [hrun, hdeleted]
      · intro delta' hdelta
        exact absurd (hdelta.vanished m failure hm) hnotFound
      · rw [hfirst]
        simpa using hnotFound
  · have hrun : runGmailDeltaSync provider db =
        completed provider deleted records (delta.cursor start) := by
      simp [runGmailDeltaSync, hwrite, hstart, hlist, hdeletes, hydrated, deleted,
        CollectedHistory.cursor]
    obtain ⟨hrestarted, hkept, hdone⟩ :=
      completed_spec provider records hdeleted (start_le_cursor delta start)
    refine iff_of_true ⟨?_, ?_⟩ ?_
    · rw [hrun, hrestarted]
      rintro (h | h)
      · cases h
      · exact absurd h hkept
    · intro delta' hdelta
      cases hlist.symm.trans hdelta.listed
      rw [hrun]
      exact ⟨hrestarted, hdone hdelta.stores hdelta.publishes hdelta.finishes⟩
    · rw [hfirst]
      exact (Option.some_ne_none _).symm

/-- **When a delta sync only discards an expired cursor**: when no message that has vanished since
it was listed is the first that a request of its own fails for. -/
theorem delta_sync_iff : DiscardsOnlyExpired provider db start ↔ NoneVanishesFirst provider := by
  cases hwrite : provider.canWrite with
  | false =>
    refine iff_of_true ⟨?_, ?_⟩ ?_
    · simp [runGmailDeltaSync, hwrite, hstart]
    · intro delta hdelta
      simp [hdelta.canWrite] at hwrite
    · intro h
      simp [hwrite] at h
  | true =>
    cases hlist : listHistoryDelta provider with
    | error =>
      refine iff_of_true (run_of_unlisted hstart hwrite hlist) ?_
      intro _ _ delta hdelta
      cases hlist.symm.trans hdelta
    | ok delta =>
      cases hdeletes : provider.deletes with
      | false =>
        have hother := handled_of_other provider db
          (by simp [Failure.notFound] : Failure.other ≠ .notFound) (by simp)
        refine iff_of_true ⟨?_, ?_⟩ ?_
        · simp [runGmailDeltaSync, hwrite, hstart, hlist, hdeletes, hother]
        · intro delta' hdelta
          simp [hdelta.deletes] at hdeletes
        · intro _ h
          simp [hdeletes] at h
      | true =>
        rw [run_of_listed hstart hwrite hdeletes hlist]
        constructor
        · intro h _ _ delta' hdelta
          cases hlist.symm.trans hdelta
          exact h
        · intro h
          exact h hwrite hdeletes delta hlist

end Run

/-! ## A message that vanishes -/

/-- Gmail lists the message `m` as added after the cursor 10, and does not have it any more when it
is fetched. -/
def vanishingProvider : Provider where
  canWrite := true
  history _ _ := .ok ⟨some 12, [⟨some 11, [], ["m"], [], [], []⟩], none⟩
  batch _ := ⟨[("m", .failed .notFound)], true⟩
  get _ := .error (some (some 404))
  connected := true
  deletes := true
  stores := true
  publishes := true
  finishes := true
  profile := some 12
  fresh := "g"
  recent := true

def syncedTables : Database := markHistoryDeltaCompleted Database.empty 10

/-- The history is there, all else goes well, and yet the cursor is given up. -/
theorem vanishing_restarts :
    (listHistoryDelta vanishingProvider).isOk = true ∧
      (runGmailDeltaSync vanishingProvider syncedTables).restarted = true ∧
      (runGmailDeltaSync vanishingProvider syncedTables).tables.state.authoritativeCursor = none ∧
      ¬ DiscardsOnlyExpired vanishingProvider syncedTables 10 := by
  have hrestarted : (runGmailDeltaSync vanishingProvider syncedTables).restarted = true := by
    decide +kernel
  have hlisted : (listHistoryDelta vanishingProvider).isOk = true := by decide +kernel
  refine ⟨hlisted, hrestarted, by decide +kernel, ?_⟩
  intro h
  rcases h.discarded (Or.inl hrestarted) with hexpired | hexpired
  · rw [hexpired] at hlisted
    cases hlisted
  · rw [hexpired] at hlisted
    cases hlisted

/-- The same messages, when the request for `m` brings it after all. -/
theorem returning_discards_only_expired :
    DiscardsOnlyExpired { vanishingProvider with get := fun _ => .ok (some ⟨"m", some 11, []⟩) }
      syncedTables 10 := by
  apply (delta_sync_iff (by decide +kernel)).2
  intro _ _ delta _ hfirst
  obtain ⟨-, m, hm⟩ := firstFailure_cases hfirst
  cases hm

end ElectronicMail.Sync
