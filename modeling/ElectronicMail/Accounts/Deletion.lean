import ElectronicMail.Accounts.AccountMail
import ElectronicMail.Foundations.SharedLock

/-!
# Deletion of the mail data of a user

`auth_delete_google_data` drains the provider operations and the guarded writes of the
user with two exclusive locks, closes the guard of the user and deletes the rows of the
user table by table. Guarded writes take the write lock shared, then read the guard and
then write, in one transaction; provider operations hold the provider lock shared.
`mailStep` lets any number of deletions, writes and provider operations of one user take
their steps in any order. A worker makes its guarded writes in the scope of its job; what
it does to the row of the job itself only updates it.

The transaction of the deletion has no account scope, so the row-level policy shows it
only the rows of the primary account: the rows of a linked account survive
(`linkedRun_survives`). `deletion_sound` says that nothing else is left, and that
nothing comes back until the user reconnects or links an account.

One writer of the program has no guard, `_store_resolutions` of the contact avatars. Its
`INSERT` names a conflict target that the schema does not have any more, so it stores
nothing.
-/

namespace ElectronicMail.Accounts

open Foundations

/-! ## The rows -/

/-- The tables of `USER_MAIL_DATA_DELETE_ORDER`, and `ai_todo_items`. -/
inductive MailTable where
  | pushDeliveries
  | googleContactAvatarCache
  | aiUsageEvents
  | matterDecisions
  | matterMembers
  | matterSubgoals
  | matters
  | attachmentTextExtractions
  | messageSemantics
  | matterProfiles
  | matterGenerations
  | appSessionSnapshots
  | gmailClientDrafts
  | gmailPendingSends
  | gmailPendingThreadActions
  | mailboxEvents
  | gmailThreadOrderEntries
  | gmailThreadOrderState
  | gmailReconcileSeen
  | gmailInitialWindowEntries
  | entityOutcomes
  | groupingDecisionAudit
  | visibleMailGroupMembers
  | visibleMailGroups
  | mailGroupMembers
  | mailGroups
  | gmailMessages
  | gmailImportState
  | backgroundJobs
  | aiTodoItems
  deriving DecidableEq

/-- `USER_MAIL_DATA_DELETE_ORDER`. -/
def deleteOrder : List MailTable :=
  [.pushDeliveries, .googleContactAvatarCache, .aiUsageEvents, .matterDecisions, .matterMembers,
    .matterSubgoals, .matters, .attachmentTextExtractions, .messageSemantics, .matterProfiles,
    .matterGenerations, .appSessionSnapshots, .gmailClientDrafts, .gmailPendingSends,
    .gmailPendingThreadActions, .mailboxEvents, .gmailThreadOrderEntries, .gmailThreadOrderState,
    .gmailReconcileSeen, .gmailInitialWindowEntries, .entityOutcomes, .groupingDecisionAudit,
    .visibleMailGroupMembers, .visibleMailGroups, .mailGroupMembers, .mailGroups, .gmailMessages,
    .gmailImportState, .backgroundJobs]

def MailTable.isIsolated : MailTable → Bool
  | .appSessionSnapshots => false
  | .backgroundJobs => false
  | _ => true

/-- The table whose rows take those of this one with them (`ON DELETE CASCADE`), where
this one is not in the delete order. The two rows have one account. -/
def MailTable.parent : MailTable → Option MailTable
  | .aiTodoItems => some .matters
  | _ => none

/-- A row of the user. `manualTask` says of an outcome that it is attached to a manual
task. -/
structure MailRow where
  table : MailTable
  gmailAccountId : String
  manualTask : Bool
  deriving DecidableEq

/-- All rows are derived from Gmail, but for the outcomes of manual tasks. -/
def MailRow.isGmailDerived (row : MailRow) : Bool :=
  !(row.table = .entityOutcomes && row.manualTask)

def MailRow.isVisible (scope : Option String) (row : MailRow) : Bool :=
  !row.table.isIsolated || scope = some row.gmailAccountId

/-- The `DELETE` of one table removes the row. -/
def MailRow.goesWith (scope : Option String) (table : MailTable) (row : MailRow) : Bool :=
  row.isVisible scope && (row.table = table || row.table.parent = some table) &&
    (table ≠ .entityOutcomes || !row.manualTask)

/-- The `DELETE` statements of `delete_user_mail_data`. -/
def deleteRows (scope : Option String) (rows : List MailRow) : List MailRow :=
  deleteOrder.foldl (fun rows table => rows.filter fun row => !row.goesWith scope table) rows

/-! ## The guard -/

/-- What `_require_user_mail_work_allowed` reads: the row of the user, and the accounts
with a token. -/
structure MailUser where
  accessEnabled : Bool
  disconnected : Bool
  deleteRequested : Bool
  deleted : Bool
  tokens : List String

/-- `_require_user_mail_work_allowed`. -/
def MailUser.workAllowed (user : MailUser) : Bool :=
  !user.tokens.isEmpty && user.accessEnabled && !user.disconnected && !user.deleteRequested &&
    !user.deleted

/-! ## Steps -/

/-- Where a deletion stands: the next statement or request of `auth_delete_google_data`. -/
inductive DeletionPhase where
  | idle
  | lockingProvider
  | lockingMail
  | securing
  | disconnecting
  | cancellingJobs
  | droppingToken
  | purging
  | releasing
  | returned
  | raised
  deriving DecidableEq

/-- Where a guarded transaction stands, with the account it is for, the account scope of
its caller, and the rows it has inserted and deleted. -/
inductive WritePhase where
  | idle
  | locked (account : Option String) (setting : String)
  | writing (setting : String) (inserted removed : List MailRow)

inductive ProviderPhase where
  | idle
  | locked
  | operating

/-- One user: the guard, the rows, the two locks, and the processes. `returned` tells
that a deletion has returned and the user has not reconnected since. -/
structure MailSystem where
  user : MailUser
  rows : List MailRow
  providerLock : SharedLock
  mailLock : SharedLock
  deletion : Nat → DeletionPhase
  writer : Nat → WritePhase
  provider : Nat → ProviderPhase
  returned : Bool

def MailSystem.start (user : MailUser) (rows : List MailRow) : MailSystem :=
  ⟨user, rows, .free, .free, fun _ => .idle, fun _ => .idle, fun _ => .idle, false⟩

/-- What can happen next. `secured` tells whether the revocation of the token was made
or queued, and `accountAllowed` is the answer of `_require_gmail_account_work_allowed`. -/
inductive MailStep where
  | startDeletion (process : Nat)
  | deletion (process : Nat) (secured : Bool)
  | crashDeletion (process : Nat)
  | beginWrite (process : Nat) (caller : Caller) (account : Option String)
  | checkGuard (process : Nat) (accountAllowed : Bool)
  | insertRow (process : Nat) (row : MailRow)
  | removeRow (process : Nat) (row : MailRow)
  | commit (process : Nat)
  | rollback (process : Nat)
  | beginProvider (process : Nat)
  | checkProvider (process : Nat) (accountAllowed : Bool)
  | endProvider (process : Nat)
  | reauthorizationRequired
  | reconnect
  | link (gmailAccountId : String)

/-- Deletion `i` goes on at `ph`. -/
def MailSystem.deletionAt (s : MailSystem) (i : Nat) (ph : DeletionPhase) : MailSystem :=
  { s with deletion := Function.update s.deletion i ph }

/-- Write `i` goes on at `ph`. -/
def MailSystem.writerAt (s : MailSystem) (i : Nat) (ph : WritePhase) : MailSystem :=
  { s with writer := Function.update s.writer i ph }

/-- Operation `i` goes on at `ph`. -/
def MailSystem.providerAt (s : MailSystem) (i : Nat) (ph : ProviderPhase) : MailSystem :=
  { s with provider := Function.update s.provider i ph }

/-- The session of deletion `i` ends, and with it its locks. -/
def MailSystem.unlock (s : MailSystem) (i : Nat) : MailSystem :=
  { s with providerLock := s.providerLock.release i, mailLock := s.mailLock.release i }

/-- `mark_google_disconnected`. -/
def MailSystem.disconnect (s : MailSystem) : MailSystem :=
  { s with user := { s.user with disconnected := true } }

/-- The transaction of write `i` ends, and with it its lock. -/
def MailSystem.endWrite (s : MailSystem) (i : Nat) : MailSystem :=
  { s.writerAt i .idle with mailLock := s.mailLock.leave i }

section Step

variable (primary : String)

/-- `delete_user_mail_data`, in a transaction without an account scope. -/
def MailSystem.purge (s : MailSystem) : MailSystem :=
  { s with
    user := { s.user with deleteRequested := true, deleted := true }
    rows := deleteRows (accountScope (some primary) "") s.rows }

def deletionStep (s : MailSystem) (i : Nat) (secured : Bool) : MailSystem :=
  match s.deletion i with
  | .lockingProvider =>
    match s.providerLock.seize i with
    | some lock => { s.deletionAt i .lockingMail with providerLock := lock }
    | none => s
  | .lockingMail =>
    match s.mailLock.seize i with
    | some lock => { s.deletionAt i .securing with mailLock := lock }
    | none => s
  | .securing =>
    if secured then s.deletionAt i .disconnecting
    else (s.disconnect.unlock i).deletionAt i .raised
  | .disconnecting => s.disconnect.deletionAt i .cancellingJobs
  -- `cancel_user_jobs` updates rows and removes none.
  | .cancellingJobs => s.deletionAt i .droppingToken
  | .droppingToken =>
    { s.deletionAt i .purging with
      user := { s.user with tokens := s.user.tokens.filter (· ≠ primary) } }
  | .purging => (s.purge primary).deletionAt i .releasing
  | .releasing => { (s.unlock i).deletionAt i .returned with returned := true }
  | _ => s

/-- The account scope of a guarded transaction: the account it is for, or else the one
of the caller. -/
def writeSetting (account : Option String) (setting : String) : String :=
  account.getD setting

def mailStep (s : MailSystem) : MailStep → MailSystem
  | .startDeletion i =>
    match s.deletion i with
    | .idle => s.deletionAt i .lockingProvider
    | _ => s
  | .deletion i secured => deletionStep primary s i secured
  | .crashDeletion i =>
    match s.deletion i with
    | .idle => s
    | .returned => s
    | _ => (s.unlock i).deletionAt i .raised
  | .beginWrite i caller account =>
    match s.writer i with
    | .idle =>
      match s.mailLock.enter i with
      | some lock => { s.writerAt i (.locked account caller.setting) with mailLock := lock }
      | none => s
    | _ => s
  | .checkGuard i accountAllowed =>
    match s.writer i with
    | .locked account setting =>
      if s.user.workAllowed && (account.isNone || accountAllowed) then
        s.writerAt i (.writing (writeSetting account setting) [] [])
      else s.endWrite i
    | _ => s
  | .insertRow i row =>
    match s.writer i with
    | .writing setting inserted removed =>
      if row.isVisible (accountScope (some primary) setting) then
        s.writerAt i (.writing setting (inserted ++ [row]) removed)
      else s.endWrite i
    | _ => s
  | .removeRow i row =>
    match s.writer i with
    | .writing setting inserted removed =>
      if row.isVisible (accountScope (some primary) setting) then
        s.writerAt i (.writing setting (inserted.filter (· ≠ row)) (row :: removed))
      else s
    | _ => s
  | .commit i =>
    match s.writer i with
    | .writing _ inserted removed =>
      { s.endWrite i with rows := s.rows.filter (fun row => !removed.contains row) ++ inserted }
    | _ => s
  | .rollback i =>
    match s.writer i with
    | .idle => s
    | _ => s.endWrite i
  | .beginProvider i =>
    match s.provider i with
    | .idle =>
      match s.providerLock.enter i with
      | some lock => { s.providerAt i .locked with providerLock := lock }
      | none => s
    | _ => s
  | .checkProvider i accountAllowed =>
    match s.provider i with
    | .locked =>
      if s.user.workAllowed && accountAllowed then s.providerAt i .operating
      else { s.providerAt i .idle with providerLock := s.providerLock.leave i }
    | _ => s
  | .endProvider i => { s.providerAt i .idle with providerLock := s.providerLock.leave i }
  | .reauthorizationRequired => s.disconnect
  -- The callback holds both locks exclusively around its one transaction.
  | .reconnect =>
    if s.providerLock.exclusive = none ∧ s.providerLock.shared = [] ∧
        s.mailLock.exclusive = none ∧ s.mailLock.shared = [] then
      { s with
        user := { s.user with
          disconnected := false
          deleteRequested := false
          deleted := false
          tokens := if primary ∈ s.user.tokens then s.user.tokens else primary :: s.user.tokens }
        returned := false }
    else s
  | .link gmailAccountId =>
    { s with
      user := { s.user with
        tokens := if gmailAccountId ∈ s.user.tokens then s.user.tokens
          else gmailAccountId :: s.user.tokens }
      returned := false }

end Step

/-! ## The contract -/

/-- Once a deletion has returned, no row derived from Gmail is there until the user
reconnects. -/
def StaysDeleted (s : MailSystem) : Prop :=
  s.returned = true → ∀ row ∈ s.rows, row.isGmailDerived = false

/-- When a deletion deletes the rows, those of the tables with a policy are rows of the
primary account. -/
def PurgeSeesAll (primary : String) (s : MailSystem) (l : MailStep) : Prop :=
  match l with
  | .deletion i _ =>
    s.deletion i = .purging → ∀ row ∈ s.rows, row.isGmailDerived = true →
      row.table.isIsolated = true → row.gmailAccountId = primary
  | _ => True

/-! ## What the statements leave -/

theorem mem_foldl_filter {α β : Type} {p : β → α → Bool} {l : List β} {rows : List α} {row : α} :
    row ∈ l.foldl (fun rows b => rows.filter (p b)) rows ↔ row ∈ rows ∧ ∀ b ∈ l, p b row = true := by
  induction l generalizing rows with
  | nil => simp
  | cons b l ih =>
    rw [List.foldl_cons, ih, List.mem_filter, List.forall_mem_cons, and_assoc]

variable {row : MailRow}

variable {scope : Option String}

theorem mem_deleteRows {rows : List MailRow} : row ∈ deleteRows scope rows ↔
      row ∈ rows ∧ ∀ table ∈ deleteOrder, row.goesWith scope table = false := by
  unfold deleteRows
  rw [mem_foldl_filter]
  simp

theorem MailTable.covered (t : MailTable) :
    ∃ table ∈ deleteOrder, t = table ∨ t.parent = some table := by
  cases t with
  | aiTodoItems => exact ⟨.matters, by decide, Or.inr rfl⟩
  | pushDeliveries => exact ⟨.pushDeliveries, by decide, Or.inl rfl⟩
  | googleContactAvatarCache => exact ⟨.googleContactAvatarCache, by decide, Or.inl rfl⟩
  | _ => exact ⟨_, by decide, Or.inl rfl⟩

theorem deleteRows_leaves {rows : List MailRow} (hrow : row ∈ deleteRows scope rows)
    (hderived : row.isGmailDerived = true) : row.isVisible scope = false := by
  obtain ⟨-, hkept⟩ := mem_deleteRows.1 hrow
  obtain ⟨table, htable, hcovers⟩ := row.table.covered
  have hnot := hkept table htable
  by_contra hvisible
  rw [Bool.not_eq_false] at hvisible
  refine absurd hnot (Bool.not_eq_false _ ▸ ?_)
  simp only [MailRow.goesWith, hvisible, Bool.true_and, Bool.and_eq_true, Bool.or_eq_true,
    decide_eq_true_eq, Bool.not_eq_true']
  refine ⟨hcovers, ?_⟩
  by_cases houtcome : table = .entityOutcomes
  · subst houtcome
    rcases hcovers with htab | hparent
    · right
      simpa [MailRow.isGmailDerived, htab] using hderived
    · cases htab : row.table <;> simp [htab, MailTable.parent] at hparent
  · exact Or.inl (by simpa using houtcome)

/-! ## The invariant -/

/-- The user is closed and nothing derived from Gmail is there or on its way. -/
structure Cleared (s : MailSystem) : Prop where
  rows : ∀ row ∈ s.rows, row.isGmailDerived = false
  guard : s.user.deleted = true
  writers : ∀ i setting inserted removed, s.writer i ≠ .writing setting inserted removed

variable {s : MailSystem}

theorem Cleared.writerAt (h : Cleared s) {i : Nat} {ph : WritePhase}
    (hph : ∀ setting inserted removed, ph ≠ .writing setting inserted removed) :
    Cleared (s.writerAt i ph) where
  rows := h.rows
  guard := h.guard
  writers := by
    intro j setting inserted removed
    by_cases hji : j = i
    · subst hji
      rw [show (s.writerAt j ph).writer j = ph from Function.update_self ..]
      exact hph setting inserted removed
    · rw [show (s.writerAt i ph).writer j = s.writer j from Function.update_of_ne hji ..]
      exact h.writers j setting inserted removed

theorem Cleared.endWrite (h : Cleared s) {i : Nat} : Cleared (s.endWrite i) := by
  have hidle : Cleared (s.writerAt i .idle) := h.writerAt nofun
  exact ⟨hidle.rows, hidle.guard, hidle.writers⟩

def DeletionPhase.isLocking : DeletionPhase → Bool
  | .securing => true
  | .disconnecting => true
  | .cancellingJobs => true
  | .droppingToken => true
  | .purging => true
  | .releasing => true
  | _ => false

/-- Who is at work holds the lock for it, and after the rows are deleted the user stays
cleared. -/
structure MailOk (s : MailSystem) : Prop where
  writers : ∀ i, s.writer i = .idle ∨ i ∈ s.mailLock.shared
  deletions : ∀ i, (s.deletion i).isLocking = true → s.mailLock.exclusive = some i
  releasing : ∀ i, s.deletion i = .releasing → Cleared s
  returned : s.returned = true → Cleared s

theorem mailOk_start (user : MailUser) (rows : List MailRow) : MailOk (.start user rows) where
  writers := fun _ => Or.inl rfl
  deletions := fun _ h => nomatch h
  releasing := fun _ h => nomatch h
  returned := fun h => nomatch h

theorem MailOk.staysDeleted (h : MailOk s) : StaysDeleted s :=
  fun hreturned => (h.returned hreturned).rows

variable {lock : SharedLock}

/-! ## Deletions -/

section Deletions

variable {s : MailSystem} {i : Nat}

section

variable (h : MailOk s)
include h

theorem MailOk.no_writer (hi : (s.deletion i).isLocking = true) (j : Nat) : s.writer j = .idle := by
  refine (h.writers j).resolve_right ?_
  rw [SharedLock.shared_eq_nil (h.deletions i hi)]
  exact List.not_mem_nil

theorem MailOk.deletionAt {ph : DeletionPhase}
    (hlock : ph.isLocking = true → s.mailLock.exclusive = some i)
    (hcleared : ph = .releasing → Cleared s) : MailOk (s.deletionAt i ph) where
  writers := h.writers
  deletions := by
    intro j hj
    by_cases hji : j = i
    · subst hji
      exact hlock (by simpa [MailSystem.deletionAt] using hj)
    · exact h.deletions j (by simpa [MailSystem.deletionAt, hji] using hj)
  releasing := by
    intro j hj
    have hclear : Cleared s := by
      by_cases hji : j = i
      · subst hji
        exact hcleared (by simpa [MailSystem.deletionAt] using hj)
      · exact h.releasing j (by simpa [MailSystem.deletionAt, hji] using hj)
    exact ⟨hclear.rows, hclear.guard, hclear.writers⟩
  returned := by
    intro hreturned
    have hclear := h.returned hreturned
    exact ⟨hclear.rows, hclear.guard, hclear.writers⟩

theorem MailOk.endDeletion {ph : DeletionPhase} (hph : ph.isLocking = false) :
    MailOk ((s.unlock i).deletionAt i ph) where
  writers := by
    intro j
    show s.writer j = .idle ∨ j ∈ (s.mailLock.release i).shared
    rw [SharedLock.release_shared]
    exact h.writers j
  deletions := by
    intro j hj
    by_cases hji : j = i
    · subst hji
      rw [show ((s.unlock j).deletionAt j ph).deletion j = ph from Function.update_self ..] at hj
      rw [hph] at hj
      cases hj
    · refine SharedLock.release_exclusive_of_ne hji (h.deletions j ?_)
      simpa [MailSystem.deletionAt, MailSystem.unlock, hji] using hj
  releasing := by
    intro j hj
    by_cases hji : j = i
    · subst hji
      rw [show ((s.unlock j).deletionAt j ph).deletion j = ph from Function.update_self ..] at hj
      rw [hj] at hph
      cases hph
    · have hclear := h.releasing j (by simpa [MailSystem.deletionAt, MailSystem.unlock, hji] using hj)
      exact ⟨hclear.rows, hclear.guard, hclear.writers⟩
  returned := by
    intro hreturned
    have hclear := h.returned hreturned
    exact ⟨hclear.rows, hclear.guard, hclear.writers⟩

theorem MailOk.withUser {user : MailUser}
    (hdeleted : s.user.deleted = true → user.deleted = true) : MailOk { s with user := user } where
  writers := h.writers
  deletions := h.deletions
  releasing := fun j hj =>
    ⟨(h.releasing j hj).rows, hdeleted (h.releasing j hj).guard, (h.releasing j hj).writers⟩
  returned := fun hreturned =>
    ⟨(h.returned hreturned).rows, hdeleted (h.returned hreturned).guard,
      (h.returned hreturned).writers⟩

theorem MailOk.disconnect : MailOk s.disconnect := h.withUser fun hdeleted => hdeleted

theorem MailOk.withProvider (provider : Nat → ProviderPhase) :
    MailOk { s with provider := provider } :=
  ⟨h.writers, h.deletions, fun j hj => ⟨(h.releasing j hj).rows, (h.releasing j hj).guard,
    (h.releasing j hj).writers⟩, fun hr => ⟨(h.returned hr).rows, (h.returned hr).guard,
    (h.returned hr).writers⟩⟩

theorem MailOk.withProviderLock : MailOk { s with providerLock := lock } :=
  ⟨h.writers, h.deletions, fun j hj => ⟨(h.releasing j hj).rows, (h.releasing j hj).guard,
    (h.releasing j hj).writers⟩, fun hr => ⟨(h.returned hr).rows, (h.returned hr).guard,
    (h.returned hr).writers⟩⟩

theorem MailOk.seize (hlock : s.mailLock.seize i = some lock) :
    MailOk { s.deletionAt i .securing with mailLock := lock } := by
  obtain ⟨hnone, hnil, hshared, hexclusive⟩ := SharedLock.seize_eq_some hlock
  have hothers : ∀ j, (s.deletion j).isLocking = true → False := by
    intro j hj
    have := h.deletions j hj
    rw [hnone] at this
    cases this
  refine ⟨?_, ?_, ?_, ?_⟩
  · intro j
    left
    refine (h.writers j).resolve_right ?_
    rw [hnil]
    exact List.not_mem_nil
  · intro j hj
    by_cases hji : j = i
    · rw [hji]
      exact hexclusive
    · exact (hothers j (by simpa [MailSystem.deletionAt, hji] using hj)).elim
  · intro j hj
    by_cases hji : j = i
    · subst hji
      simp [MailSystem.deletionAt] at hj
    · have hj' : s.deletion j = .releasing := by simpa [MailSystem.deletionAt, hji] using hj
      exact (hothers j (by rw [hj']; rfl)).elim
  · intro hreturned
    have hclear := h.returned hreturned
    exact ⟨hclear.rows, hclear.guard, hclear.writers⟩

end

@[simp] theorem purge_rows (s : MailSystem) (primary : String) :
    (s.purge primary).rows = deleteRows (accountScope (some primary) "") s.rows := by
  simp only [MailSystem.purge]

variable {primary : String}

theorem purge_clears {rows : List MailRow}
    (hsees : ∀ row ∈ rows, row.isGmailDerived = true → row.table.isIsolated = true →
      row.gmailAccountId = primary)
    (hrow : row ∈ deleteRows (accountScope (some primary) "") rows) :
    row.isGmailDerived = false := by
  by_contra hderived
  rw [Bool.not_eq_false] at hderived
  have hhidden := deleteRows_leaves hrow hderived
  rw [MailRow.isVisible, Bool.or_eq_false_iff, Bool.not_eq_false'] at hhidden
  have haccount := hsees row (mem_deleteRows.1 hrow).1 hderived hhidden.1
  exact absurd hhidden.2 (by simp [accountScope, haccount])

theorem MailOk.purged (h : MailOk s) (hph : s.deletion i = .purging)
    (hsees : ∀ row ∈ s.rows, row.isGmailDerived = true → row.table.isIsolated = true →
      row.gmailAccountId = primary) : MailOk ((s.purge primary).deletionAt i .releasing) := by
  have hlocking : (s.deletion i).isLocking = true := by
    rw [hph]
    rfl
  have hclear : Cleared (s.purge primary) := by
    refine ⟨?_, rfl, ?_⟩
    · rw [purge_rows]
      intro row hrow
      exact purge_clears hsees hrow
    · intro j setting inserted removed hj
      rw [show (s.purge primary).writer j = .idle from h.no_writer hlocking j] at hj
      cases hj
  have hok : MailOk (s.purge primary) :=
    ⟨h.writers, h.deletions, fun _ _ => hclear, fun _ => hclear⟩
  exact hok.deletionAt (fun _ => h.deletions i hlocking) fun _ => hclear

theorem MailOk.deletionStep (h : MailOk s) {secured : Bool}
    (hsees : PurgeSeesAll primary s (.deletion i secured)) :
    MailOk (deletionStep primary s i secured) := by
  unfold Accounts.deletionStep
  cases hph : s.deletion i with
  | idle | returned | raised => exact h
  | lockingProvider =>
    dsimp only
    split
    · have hnext : MailOk (s.deletionAt i .lockingMail) := h.deletionAt nofun nofun
      exact hnext.withProviderLock
    · exact h
  | lockingMail =>
    dsimp only
    split
    · rename_i lock hlock
      exact h.seize hlock
    · exact h
  | securing =>
    have hlock : s.mailLock.exclusive = some i := h.deletions i (by rw [hph]; rfl)
    dsimp only
    split
    · exact h.deletionAt (fun _ => hlock) nofun
    · exact h.disconnect.endDeletion rfl
  | disconnecting =>
    have hlock : s.mailLock.exclusive = some i := h.deletions i (by rw [hph]; rfl)
    dsimp only
    exact h.disconnect.deletionAt (fun _ => hlock) nofun
  | cancellingJobs =>
    have hlock : s.mailLock.exclusive = some i := h.deletions i (by rw [hph]; rfl)
    dsimp only
    exact h.deletionAt (fun _ => hlock) nofun
  | droppingToken =>
    have hlock : s.mailLock.exclusive = some i := h.deletions i (by rw [hph]; rfl)
    have hnext : MailOk (s.deletionAt i .purging) := h.deletionAt (fun _ => hlock) nofun
    exact hnext.withUser (fun hdeleted => hdeleted)
  | purging => exact h.purged hph (hsees hph)
  | releasing =>
    have hclear := h.releasing i hph
    have hend : MailOk ((s.unlock i).deletionAt i .returned) := h.endDeletion rfl
    dsimp only
    refine ⟨hend.writers, hend.deletions, ?_, ?_⟩
    · intro j hj
      have hj' := hend.releasing j hj
      exact ⟨hj'.rows, hj'.guard, hj'.writers⟩
    · exact fun _ => ⟨hclear.rows, hclear.guard, hclear.writers⟩

end Deletions

/-! ## Writes -/

section Writes

variable {s : MailSystem} {i : Nat}

theorem MailOk.writerAt (h : MailOk s) {ph : WritePhase} (hheld : i ∈ s.mailLock.shared)
    (hopen : Cleared s → ∀ setting inserted removed, ph ≠ .writing setting inserted removed) :
    MailOk (s.writerAt i ph) where
  writers := by
    intro j
    by_cases hji : j = i
    · subst hji
      exact Or.inr hheld
    · rw [show (s.writerAt i ph).writer j = s.writer j from Function.update_of_ne hji ..]
      exact h.writers j
  deletions := h.deletions
  releasing := fun j hj => (h.releasing j hj).writerAt (hopen (h.releasing j hj))
  returned := fun hr => (h.returned hr).writerAt (hopen (h.returned hr))

theorem MailOk.endWrite (h : MailOk s) : MailOk (s.endWrite i) where
  writers := by
    intro j
    by_cases hji : j = i
    · subst hji
      exact Or.inl (Function.update_self ..)
    · rw [show (s.endWrite i).writer j = s.writer j from Function.update_of_ne hji ..]
      refine (h.writers j).imp id fun hmem => ?_
      exact (SharedLock.mem_leave hji).2 hmem
  deletions := h.deletions
  releasing := fun j hj => (h.releasing j hj).endWrite
  returned := fun hr => (h.returned hr).endWrite

theorem MailOk.enter (h : MailOk s) {account : Option String}
    {setting : String} (hlock : s.mailLock.enter i = some lock) :
    MailOk { s.writerAt i (.locked account setting) with mailLock := lock } := by
  obtain ⟨hshared, hexclusive⟩ := SharedLock.enter_eq_some hlock
  have hcleared : Cleared s →
      Cleared { s.writerAt i (.locked account setting) with mailLock := lock } := by
    intro hclear
    have hnext := (hclear.writerAt nofun : Cleared (s.writerAt i (.locked account setting)))
    exact ⟨hnext.rows, hnext.guard, hnext.writers⟩
  refine ⟨?_, ?_, fun j hj => hcleared (h.releasing j hj), fun hr => hcleared (h.returned hr)⟩
  · intro j
    by_cases hji : j = i
    · subst hji
      right
      rw [hshared]
      exact List.mem_cons_self
    · refine (h.writers j).imp (fun hidle => ?_) fun hmem => ?_
      · rw [← hidle]
        exact Function.update_of_ne hji ..
      · rw [hshared]
        exact List.mem_cons_of_mem i hmem
  · intro j hj
    rw [hexclusive]
    exact h.deletions j hj

end Writes

/-! ## Runs -/

theorem mailOk_step {primary : String} (s : MailSystem) (l : MailStep) (h : MailOk s)
    (hsees : PurgeSeesAll primary s l) : MailOk (mailStep primary s l) := by
  cases l with
  | startDeletion i =>
    simp only [mailStep]
    split
    · exact h.deletionAt nofun nofun
    · exact h
  | deletion => exact h.deletionStep hsees
  | crashDeletion i =>
    simp only [mailStep]
    split
    · exact h
    · exact h
    · exact h.endDeletion rfl
  | beginWrite i caller account =>
    simp only [mailStep]
    split
    · split
      · rename_i lock hlock
        exact h.enter hlock
      · exact h
    · exact h
  | checkGuard i accountAllowed =>
    simp only [mailStep]
    split
    · rename_i account setting hphase
      have hheld := (h.writers i).resolve_left (by rw [hphase]; nofun)
      split
      · rename_i hallowed
        refine h.writerAt hheld fun hclear => ?_
        simp [MailUser.workAllowed, hclear.guard] at hallowed
      · exact h.endWrite
    · exact h
  | insertRow i row =>
    simp only [mailStep]
    split
    · rename_i setting inserted removed hphase
      have hheld := (h.writers i).resolve_left (by rw [hphase]; nofun)
      split
      · exact h.writerAt hheld fun hclear => absurd hphase (hclear.writers i _ _ _)
      · exact h.endWrite
    · exact h
  | removeRow i row =>
    simp only [mailStep]
    split
    · rename_i setting inserted removed hphase
      have hheld := (h.writers i).resolve_left (by rw [hphase]; nofun)
      split
      · exact h.writerAt hheld fun hclear => absurd hphase (hclear.writers i _ _ _)
      · exact h
    · exact h
  | commit i =>
    simp only [mailStep]
    split
    · rename_i setting inserted removed hphase
      -- A write that is at work keeps the system from being cleared.
      have hopen : ¬ Cleared s := fun hclear => hclear.writers i _ _ _ hphase
      have hend : MailOk (s.endWrite i) := h.endWrite
      refine ⟨hend.writers, hend.deletions, ?_, ?_⟩
      · exact fun j hj => absurd (h.releasing j hj) hopen
      · exact fun hr => absurd (h.returned hr) hopen
    · exact h
  | rollback i =>
    simp only [mailStep]
    split
    · exact h
    · exact h.endWrite
  | beginProvider i =>
    simp only [mailStep]
    split
    · split
      · exact (h.withProvider _).withProviderLock
      · exact h
    · exact h
  | checkProvider =>
    simp only [mailStep]
    split
    · split
      · exact h.withProvider _
      · exact (h.withProvider _).withProviderLock
    · exact h
  | endProvider i => exact (h.withProvider _).withProviderLock
  | reauthorizationRequired => exact h.disconnect
  | reconnect =>
    simp only [mailStep]
    split
    · rename_i hfree
      refine ⟨h.writers, h.deletions, ?_, nofun⟩
      intro j hj
      have hlock := h.deletions j (by rw [hj]; rfl)
      rw [hfree.2.2.1] at hlock
      cases hlock
    · exact h
  | link =>
    refine ⟨h.writers, h.deletions, ?_, nofun⟩
    intro j hj
    have hclear := h.releasing j hj
    exact ⟨hclear.rows, hclear.guard, hclear.writers⟩

/-- In every run in which each deletion sees all the rows it is to delete: once a
deletion has returned, no row derived from Gmail is there until the user reconnects. -/
theorem deletion_sound (primary : String) (user : MailUser) (rows : List MailRow)
    (steps : List MailStep)
    (hsees : Along (mailStep primary) (PurgeSeesAll primary) (.start user rows) steps) :
    Throughout (mailStep primary) StaysDeleted (.start user rows) steps :=
  (throughout_of_step mailOk_step (mailOk_start user rows) hsees).mono fun _ => MailOk.staysDeleted

/-! ## Two runs -/

instance (primary : String) (s : MailSystem) (l : MailStep) : Decidable (PurgeSeesAll primary s l) :=
  match l with
  | .deletion i _ =>
    inferInstanceAs (Decidable (s.deletion i = .purging → ∀ row ∈ s.rows, _ → _ → _))
  | .startDeletion _ | .crashDeletion _ | .beginWrite _ _ _ | .checkGuard _ _ | .insertRow _ _
  | .removeRow _ _ | .commit _ | .rollback _ | .beginProvider _ | .checkProvider _ _
  | .endProvider _ | .reauthorizationRequired | .reconnect | .link _ =>
    inferInstanceAs (Decidable True)

/-- A user with a primary account `u` and a linked account `a2`. -/
def linkedUser : MailUser := ⟨true, false, false, false, ["u", "a2"]⟩

def deletionRun : List MailStep := .startDeletion 0 :: List.replicate 8 (.deletion 0 true)

/-- A write that is at work when the deletion starts keeps it waiting; a write after it
is refused. -/
def drainedRun : List MailStep :=
  [.beginWrite 1 .httpRoute none, .checkGuard 1 true, .startDeletion 0, .deletion 0 true,
    .deletion 0 true, .insertRow 1 ⟨.gmailMessages, "u", false⟩, .commit 1] ++
    List.replicate 7 (.deletion 0 true) ++
    [.beginWrite 2 .httpRoute none, .checkGuard 2 true,
      .insertRow 2 ⟨.gmailMessages, "u", false⟩, .commit 2]

theorem deletion_sound_drainedRun :
    Along (mailStep "u") (PurgeSeesAll "u") (.start linkedUser []) drainedRun ∧
      Throughout (mailStep "u") StaysDeleted (.start linkedUser []) drainedRun ∧
      (after (mailStep "u") (.start linkedUser []) drainedRun).returned = true := by
  have hsees : Along (mailStep "u") (PurgeSeesAll "u") (.start linkedUser []) drainedRun := by
    decide +kernel
  exact ⟨hsees, deletion_sound "u" linkedUser [] drainedRun hsees, by decide +kernel⟩

theorem linkedRun_survives :
    ¬ Throughout (mailStep "u") StaysDeleted
      (.start linkedUser [⟨.gmailMessages, "a2", false⟩]) deletionRun := by
  intro h
  exact absurd (h.last (by decide +kernel) ⟨.gmailMessages, "a2", false⟩ (by decide +kernel))
    (by decide +kernel)

end ElectronicMail.Accounts
