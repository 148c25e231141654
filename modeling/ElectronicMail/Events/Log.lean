import ElectronicMail.Foundations.Keyset
import Mathlib.Data.List.MinMax

/-!
# The log of mailbox events

An event takes its id from a sequence when it is inserted and is seen by others once its
transaction has committed, so that transactions may commit in another order than their ids.
-/

namespace ElectronicMail.Events

open Foundations

/-- A row of `mailbox_events`. -/
structure MailboxEventRecord where
  id : Nat
  userId : String
  gmailAccountId : Option String
  eventType : String
  mailboxLabel : Option String
  payload : String
  createdAt : String
  deriving DecidableEq

/-- What decides which account a row belongs to: the primary accounts of the users, and whether
the role of the connection is subject to the policies. -/
structure Accounts where
  primaryGmailAccountId : String → Option String
  isolated : Bool

def Accounts.admits (accounts : Accounts) (setting : Option String)
    (row : MailboxEventRecord) : Bool :=
  !accounts.isolated || (row.gmailAccountId.isSome &&
    row.gmailAccountId == (setting <|> accounts.primaryGmailAccountId row.userId))

/-- The arguments of `insert_mailbox_event`, with the account that is set on the connection and
the time. -/
structure MailboxEventInsert where
  userId : String
  gmailAccountId : Option String
  eventType : String
  mailboxLabel : Option String
  payload : String
  setting : Option String
  now : String

/-- The table. `pending` are the rows of open transactions. -/
structure EventLog where
  nextId : Nat
  pending : List MailboxEventRecord
  rows : List MailboxEventRecord

def EventLog.empty : EventLog := ⟨1, [], []⟩

/-- The row that `insert_mailbox_event` writes. The guard sets the account when one is given. -/
def insertedRow (accounts : Accounts) (id : Nat) (event : MailboxEventInsert) :
    MailboxEventRecord where
  id := id
  userId := event.userId
  gmailAccountId := event.gmailAccountId <|> event.setting <|>
    accounts.primaryGmailAccountId event.userId
  eventType := event.eventType
  mailboxLabel := event.mailboxLabel
  payload := event.payload
  createdAt := event.now

/-- `insert_mailbox_event` up to its commit. A row that the policy refuses has used up its id. -/
def EventLog.insert (accounts : Accounts) (event : MailboxEventInsert) (log : EventLog) :
    EventLog :=
  let row := insertedRow accounts log.nextId event
  if accounts.admits (event.gmailAccountId <|> event.setting) row then
    { log with nextId := log.nextId + 1, pending := log.pending ++ [row] }
  else { log with nextId := log.nextId + 1 }

def EventLog.rollback (id : Nat) (log : EventLog) : EventLog :=
  { log with pending := log.pending.filter fun row => row.id ≠ id }

def EventLog.commit (id : Nat) (log : EventLog) : EventLog :=
  { log.rollback id with
    rows := log.rows ++ log.pending.filter fun row => row.id = id }

/-- Which events a stream is about: those of a user, or of one of his accounts. -/
structure StreamScope where
  userId : String
  gmailAccountId : Option String

def StreamScope.finds (scope : StreamScope) (accounts : Accounts) (row : MailboxEventRecord) :
    Bool :=
  row.userId == scope.userId &&
    scope.gmailAccountId.all (fun account => row.gmailAccountId == some account) &&
    accounts.admits scope.gmailAccountId row

def listMailboxEventsAfter (accounts : Accounts) (scope : StreamScope) (afterId : Option Nat)
    (limit : Nat) (rows : List MailboxEventRecord) : List MailboxEventRecord :=
  Keyset.fetch MailboxEventRecord.id (max 1 (min limit 500)) (some (afterId.getD 0))
    (rows.filter (scope.finds accounts))

/-- `latest_mailbox_event`, of any type. -/
def latestMailboxEvent (accounts : Accounts) (scope : StreamScope)
    (rows : List MailboxEventRecord) : Option MailboxEventRecord :=
  (rows.filter (scope.finds accounts)).argmax MailboxEventRecord.id

/-! ## Ids -/

structure EventLog.Numbered (log : EventLog) : Prop where
  distinct : ((log.pending ++ log.rows).map MailboxEventRecord.id).Nodup
  below : ∀ row ∈ log.pending ++ log.rows, 0 < row.id ∧ row.id < log.nextId
  next : 0 < log.nextId

theorem EventLog.numbered_empty : EventLog.empty.Numbered :=
  ⟨by simp [EventLog.empty], by simp [EventLog.empty], Nat.one_pos⟩

variable {log : EventLog}

theorem EventLog.Numbered.insert (h : log.Numbered) (accounts : Accounts)
    (event : MailboxEventInsert) : (log.insert accounts event).Numbered := by
  simp only [EventLog.insert]
  split
  · refine ⟨?_, ?_, Nat.succ_pos _⟩
    · have hperm : (log.pending ++ [insertedRow accounts log.nextId event] ++ log.rows).Perm
          (insertedRow accounts log.nextId event :: (log.pending ++ log.rows)) := by
        rw [List.append_assoc]
        exact List.perm_middle
      rw [(hperm.map MailboxEventRecord.id).nodup_iff, List.map_cons, List.nodup_cons]
      refine ⟨?_, h.distinct⟩
      intro hin
      obtain ⟨row, hrow, heq⟩ := List.mem_map.1 hin
      have hlt := (h.below row hrow).2
      rw [heq] at hlt
      exact absurd hlt (lt_irrefl _)
    · intro row hrow
      simp only [List.mem_append, List.mem_singleton] at hrow
      rcases hrow with (hpending | rfl) | hrows
      · have := h.below row (List.mem_append_left _ hpending)
        exact ⟨this.1, Nat.lt_succ_of_lt this.2⟩
      · exact ⟨h.next, Nat.lt_succ_self _⟩
      · have := h.below row (List.mem_append_right _ hrows)
        exact ⟨this.1, Nat.lt_succ_of_lt this.2⟩
  · refine ⟨h.distinct, ?_, Nat.succ_pos _⟩
    intro row hrow
    have := h.below row hrow
    exact ⟨this.1, Nat.lt_succ_of_lt this.2⟩

theorem EventLog.rows_insert (accounts : Accounts) (event : MailboxEventInsert) (log : EventLog) :
    (log.insert accounts event).rows = log.rows := by
  simp only [EventLog.insert]
  split <;> rfl

theorem EventLog.Numbered.rollback (h : log.Numbered) (id : Nat) : (log.rollback id).Numbered := by
  have hsub : ((log.rollback id).pending ++ (log.rollback id).rows).Sublist
      (log.pending ++ log.rows) := List.filter_sublist.append_right _
  exact ⟨h.distinct.sublist (hsub.map _), fun row hrow => h.below row (hsub.subset hrow), h.next⟩

theorem EventLog.Numbered.commit (h : log.Numbered) (id : Nat) : (log.commit id).Numbered := by
  have hperm : ((log.commit id).pending ++ (log.commit id).rows).Perm
      (log.pending ++ log.rows) := by
    have hsplit := List.filter_append_perm (fun row : MailboxEventRecord => row.id ≠ id) log.pending
    have hnot : (log.pending.filter fun row => !decide (row.id ≠ id)) =
        log.pending.filter fun row => row.id = id := by
      apply List.filter_congr
      intro row _
      by_cases hid : row.id = id <;> simp [hid]
    rw [hnot] at hsplit
    have hmoved : ((log.commit id).pending ++ (log.commit id).rows).Perm
        ((log.pending.filter (fun row => row.id ≠ id) ++
          log.pending.filter fun row => row.id = id) ++ log.rows) := by
      rw [List.append_assoc]
      exact List.perm_append_comm.append_left _
    exact hmoved.trans (hsplit.append_right _)
  refine ⟨(hperm.map _).nodup_iff.2 h.distinct, ?_, h.next⟩
  intro row hrow
  exact h.below row (hperm.mem_iff.1 hrow)

theorem EventLog.Numbered.distinctRows (h : log.Numbered) :
    (log.rows.map MailboxEventRecord.id).Nodup := by
  have hdistinct := h.distinct
  rw [List.map_append] at hdistinct
  exact hdistinct.of_append_right

end ElectronicMail.Events
