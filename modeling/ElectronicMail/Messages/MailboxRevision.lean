import Mathlib.Data.List.Sort
import ElectronicMail.Foundations.Table
import ElectronicMail.Messages.ThreadRevision

/-!
# The revision of a mailbox

`latest_gmail_mailbox_revision` is the newest of the times that the stored messages and thread
orders carry. A client skips a refresh when the revision it is told is the one it has seen. This
finds every change of the list as long as each transaction that commits either leaves the list
and the newest time as they are, or has started after all times there have been and leaves its
own (`detects_changes`).
-/

namespace ElectronicMail.Messages

open Foundations
open Foundations.Table

/-- A row of `gmail_messages` with its id and times. -/
structure StampedMessage where
  messageId : String
  row : GmailMessage
  createdAt : Nat
  updatedAt : Nat
  deriving DecidableEq

/-- The messages of a mailbox, and for each label when its thread order was refreshed. -/
structure Mailbox where
  messages : List StampedMessage
  threadOrders : List (String × Nat)
  deriving DecidableEq

def Mailbox.stamps (m : Mailbox) : List Nat :=
  m.messages.map StampedMessage.updatedAt ++ m.threadOrders.map Prod.snd

def latestGmailMailboxRevision (m : Mailbox) : Option Nat := m.stamps.max?

/-! ## The list -/

def mailboxLabelClause (label : String) (labelIds : List String) : Bool :=
  match label with
  | "all" => !labelIds.contains "SPAM" && !labelIds.contains "TRASH"
  | "inbox" => labelIds.contains "INBOX"
  | "sent" => labelIds.contains "SENT"
  | "drafts" => labelIds.contains "DRAFT"
  | "spam" => labelIds.contains "SPAM"
  | "trash" => labelIds.contains "TRASH"
  | "starred" => labelIds.contains "STARRED"
  | "archive" =>
    !labelIds.contains "INBOX" && !labelIds.contains "SENT" && !labelIds.contains "DRAFT" &&
      !labelIds.contains "SPAM" && !labelIds.contains "TRASH"
  | _ => true

structure ListedThread where
  threadId : String
  labels : List String
  unread : Bool
  snippet : Option String
  bodyReady : Bool
  deriving DecidableEq

section Listing

variable (iso : Nat → String)

/-- `COALESCE(internal_date, updated_at)`. -/
def StampedMessage.sortDate (message : StampedMessage) : String :=
  message.row.internalDate.getD (iso message.updatedAt)

def latestBefore (message other : StampedMessage) : Bool :=
  decide (other.sortDate iso < message.sortDate iso) ||
    (message.sortDate iso == other.sortDate iso &&
      (decide (message.createdAt < other.createdAt) ||
        (message.createdAt == other.createdAt && decide (message.messageId < other.messageId))))

/-- A thread of the mailbox, with the labels, the body state and the latest message of all its
messages. -/
def listedThread (m : Mailbox) (key : String) : ListedThread :=
  let messages := m.messages.filter fun message =>
    threadKey message.messageId message.row = key
  let labels := (messages.flatMap fun message => message.row.labelIds).eraseDups.insertionSort
    (· ≤ ·)
  { threadId := key
    labels := labels
    unread := (labels.map String.toUpper).contains "UNREAD"
    snippet := (selectFirst (latestBefore iso) messages).bind fun message => message.row.snippet
    bodyReady := messages.all fun message => message.row.bodyFetchStatus.isReady }

def visibleThreads (label : String) (m : Mailbox) : List ListedThread :=
  let keys := (m.messages.filter fun message =>
    mailboxLabelClause label message.row.labelIds).map fun message =>
      threadKey message.messageId message.row
  (keys.eraseDups.insertionSort (· ≤ ·)).map (listedThread iso m)

/-! ## Transactions -/

inductive MailboxWrite where
  /-- `upsert_gmail_messages` -/
  | upsert (messages : List (String × GmailMessage))
  /-- `force_update_gmail_message_labels` -/
  | forceLabels (labelsByMessageId : List (String × List String))
  /-- `update_gmail_message_bodies` -/
  | updateBodies (bodies : List (String × GmailMessage))
  /-- `mark_gmail_messages_body_fetch_state` -/
  | markBodyState (messageIds : List String) (status : BodyFetchStatus) (error : Option String)
  /-- `delete_gmail_messages` -/
  | delete (messageIds : List String)
  /-- `finalize_gmail_reconciliation`, with what it has seen, if it is under way -/
  | finalizeReconciliation (seen : List String) (finalHistoryId : Nat)
      (reconcileStartedAt : Option Nat)
  /-- `replace_gmail_thread_orders` -/
  | replaceThreadOrders (labels : List String)

/-- A transaction that commits; `now()` is its start. -/
structure Commit where
  startedAt : Nat
  write : MailboxWrite

def updateStamped (messageId : String) (f : StampedMessage → StampedMessage)
    (messages : List StampedMessage) : List StampedMessage :=
  updateWhere (fun message => message.messageId = messageId) f messages

def upsertStamped (now : Nat) (messages : List StampedMessage) (u : String × GmailMessage) :
    List StampedMessage :=
  if messages.any fun message => message.messageId = u.1 then
    updateStamped u.1 (fun message =>
      { message with row := mergeRow (iso now) message.row u.2, updatedAt := now }) messages
  else messages ++ [⟨u.1, u.2, now, now⟩]

/-- One message of `force_update_gmail_message_labels`. -/
def forceStamped (now : Nat) (messages : List StampedMessage) (u : String × List String) :
    List StampedMessage :=
  if u.1 = "" then messages
  else updateStamped u.1 (fun message =>
    { message with row := forceRowLabels u.2 message.row, updatedAt := now }) messages

/-- One message of `update_gmail_message_bodies`: its time is kept. -/
def updateStampedBody (now : Nat) (messages : List StampedMessage) (u : String × GmailMessage) :
    List StampedMessage :=
  updateStamped u.1 (fun message =>
    { message with row := updateRowBody u.2 (iso now) message.row }) messages

/-- The predicate of the messages that a reconciliation has not found. -/
def isMissing (seen : List String) (finalHistoryId reconcileStartedAt : Nat)
    (message : StampedMessage) : Bool :=
  !seen.contains message.messageId &&
    match numericHistoryId message.row.historyId with
    | some historyId => decide (historyId ≤ finalHistoryId)
    | none => decide (message.updatedAt ≤ reconcileStartedAt)

def refreshOrder (now : Nat) (orders : List (String × Nat)) (label : String) :
    List (String × Nat) :=
  orders.filter (fun order => order.1 ≠ label) ++ [(label, now)]

def applyCommit (m : Mailbox) (c : Commit) : Mailbox :=
  match c.write with
  | .upsert messages =>
    { m with messages := messages.foldl (upsertStamped iso c.startedAt) m.messages }
  | .forceLabels labelsByMessageId =>
    { m with messages := labelsByMessageId.foldl (forceStamped c.startedAt) m.messages }
  | .updateBodies bodies =>
    { m with messages := bodies.foldl (updateStampedBody iso c.startedAt) m.messages }
  | .markBodyState messageIds status error =>
    { m with
      messages := updateWhere
        (fun message => message.messageId ≠ "" && messageIds.contains message.messageId)
        (fun message =>
          { message with row := markRowBodyState status error (iso c.startedAt) message.row })
        m.messages }
  | .delete messageIds =>
    { m with
      messages := m.messages.filter fun message =>
        !(message.messageId ≠ "" && messageIds.contains message.messageId) }
  | .finalizeReconciliation seen finalHistoryId (some reconcileStartedAt) =>
    { m with
      messages := m.messages.filter fun message =>
        !isMissing seen finalHistoryId reconcileStartedAt message }
  | .finalizeReconciliation _ _ none => m
  | .replaceThreadOrders labels =>
    { m with threadOrders := labels.foldl (refreshOrder c.startedAt) m.threadOrders }

end Listing

/-! ## Runs -/

structure Watched where
  mailbox : Mailbox
  earlier : List Mailbox

def Watched.empty : Watched := ⟨⟨[], []⟩, []⟩

def shouldRefreshForRevision (lastSeen revision : Option Nat) : Bool :=
  match revision with
  | none => true
  | some announced => lastSeen != some announced

section Watching

variable (iso : Nat → String)

def Watched.step (s : Watched) (c : Commit) : Watched :=
  ⟨applyCommit iso s.mailbox c, s.mailbox :: s.earlier⟩

/-- A list that differs from an earlier one has another revision, and a client that has seen the
earlier revision skips no refresh of it. -/
def Detects (s : Watched) : Prop :=
  ∀ m ∈ s.earlier, ∀ label,
    (visibleThreads iso label m ≠ visibleThreads iso label s.mailbox →
      latestGmailMailboxRevision m ≠ latestGmailMailboxRevision s.mailbox) ∧
    (shouldRefreshForRevision (latestGmailMailboxRevision m)
        (latestGmailMailboxRevision s.mailbox) = false →
      visibleThreads iso label m = visibleThreads iso label s.mailbox)

def leavesStamp (m : Mailbox) : MailboxWrite → Bool
  | .upsert messages => !messages.isEmpty
  | .forceLabels labelsByMessageId => labelsByMessageId.any fun u =>
    u.1 ≠ "" && m.messages.any fun message => message.messageId = u.1
  | .replaceThreadOrders labels => !labels.isEmpty
  | _ => false

def StartsLast (s : Watched) (c : Commit) : Prop :=
  ∀ m ∈ s.mailbox :: s.earlier, ∀ stamp ∈ m.stamps, stamp < c.startedAt

/-- The transaction leaves the list as it is, and brings no time above the newest or takes the
newest away. -/
structure Unnoticed (m : Mailbox) (c : Commit) : Prop where
  list : ∀ label, visibleThreads iso label (applyCommit iso m c) = visibleThreads iso label m
  above : ∀ stamp ∈ (applyCommit iso m c).stamps, ∃ old ∈ m.stamps, stamp ≤ old
  below : ∀ old ∈ m.stamps, ∃ stamp ∈ (applyCommit iso m c).stamps, old ≤ stamp

def KeepsUp (s : Watched) (c : Commit) : Prop :=
  (leavesStamp s.mailbox c.write = true ∧ StartsLast s c) ∨ Unnoticed iso s.mailbox c

end Watching

variable {now stamp : Nat} {u : String × List String} {m : Mailbox} {c : Commit}

/-! ## The times after a transaction -/

section Stamps

variable {iso : Nat → String}

def times (messages : List StampedMessage) : List Nat :=
  messages.map StampedMessage.updatedAt

variable {messages : List StampedMessage}

theorem mem_times_updateWhere {p : StampedMessage → Bool} {f : StampedMessage → StampedMessage}
    (hf : ∀ message, (f message).updatedAt = now ∨ (f message).updatedAt = message.updatedAt)
    (h : stamp ∈ times (updateWhere p f messages)) : stamp = now ∨ stamp ∈ times messages := by
  obtain ⟨message, hmessage, rfl⟩ := List.mem_map.1 h
  obtain ⟨old, hold, rfl⟩ := mem_updateWhere.1 hmessage
  split
  · rcases hf old with hnow | hkept
    · exact .inl hnow
    · exact .inr (hkept ▸ List.mem_map_of_mem hold)
  · exact .inr (List.mem_map_of_mem hold)

theorem now_mem_times_updateWhere {p : StampedMessage → Bool} {f : StampedMessage → StampedMessage}
    (hf : ∀ message, (f message).updatedAt = now)
    (h : now ∈ times messages ∨ ∃ message ∈ messages, p message = true) :
    now ∈ times (updateWhere p f messages) := by
  rcases h with h | ⟨message, hin, hp⟩
  · obtain ⟨message, hin, htime⟩ := List.mem_map.1 h
    refine List.mem_map.2 ⟨_, mem_updateWhere.2 ⟨message, hin, rfl⟩, ?_⟩
    split
    · exact hf message
    · exact htime
  · refine List.mem_map.2 ⟨_, mem_updateWhere.2 ⟨message, hin, rfl⟩, ?_⟩
    rw [if_pos hp]
    exact hf message

theorem mem_times_upsertStamped {u : String × GmailMessage}
    (h : stamp ∈ times (upsertStamped iso now messages u)) :
    stamp = now ∨ stamp ∈ times messages := by
  unfold upsertStamped updateStamped at h
  split at h
  · refine mem_times_updateWhere ?_ h
    exact fun _ => .inl rfl
  · simp only [times, List.map_append, List.mem_append, List.map_cons, List.map_nil,
      List.mem_singleton] at h
    exact h.symm

theorem now_mem_times_upsertStamped (now : Nat) (messages : List StampedMessage)
    (u : String × GmailMessage) : now ∈ times (upsertStamped iso now messages u) := by
  unfold upsertStamped updateStamped
  split
  · next hfound =>
      obtain ⟨message, hin, hid⟩ := List.any_eq_true.1 hfound
      apply now_mem_times_updateWhere
      · exact fun _ => rfl
      · exact .inr ⟨message, hin, hid⟩
  · simp [times]

theorem mem_times_forceStamped (h : stamp ∈ times (forceStamped now messages u)) :
    stamp = now ∨ stamp ∈ times messages := by
  unfold forceStamped updateStamped at h
  split at h
  · exact .inr h
  · refine mem_times_updateWhere ?_ h
    exact fun _ => .inl rfl

theorem now_mem_times_forceStamped
    (h : now ∈ times messages ∨ u.1 ≠ "" ∧ ∃ message ∈ messages, message.messageId = u.1) :
    now ∈ times (forceStamped now messages u) := by
  unfold forceStamped updateStamped
  split
  · next hempty =>
      rcases h with h | h
      · exact h
      · exact absurd hempty h.1
  · apply now_mem_times_updateWhere
    · exact fun _ => rfl
    · rcases h with h | ⟨-, message, hin, hid⟩
      · exact .inl h
      · exact .inr ⟨message, hin, decide_eq_true hid⟩

theorem mem_times_updateStampedBody {u : String × GmailMessage}
    (h : stamp ∈ times (updateStampedBody iso now messages u)) :
    stamp = now ∨ stamp ∈ times messages := by
  unfold updateStampedBody updateStamped at h
  refine mem_times_updateWhere ?_ h
  exact fun _ => .inr rfl

theorem exists_id_forceStamped {id : String} (h : ∃ message ∈ messages, message.messageId = id) :
    ∃ message ∈ forceStamped now messages u, message.messageId = id := by
  obtain ⟨message, hin, hid⟩ := h
  unfold forceStamped
  split
  · exact ⟨message, hin, hid⟩
  · refine ⟨_, mem_updateWhere.2 ⟨message, hin, rfl⟩, ?_⟩
    split <;> exact hid

theorem mem_times_foldl {β : Type} {g : List StampedMessage → β → List StampedMessage}
    (hg : ∀ messages u stamp, stamp ∈ times (g messages u) →
      stamp = now ∨ stamp ∈ times messages) (us : List β)
    (h : stamp ∈ times (us.foldl g messages)) : stamp = now ∨ stamp ∈ times messages := by
  induction us generalizing messages with
  | nil => exact .inr h
  | cons u us ih =>
    rcases ih h with hnow | hin
    · exact .inl hnow
    · exact hg messages u stamp hin

theorem now_mem_times_foldl {β : Type} {g : List StampedMessage → β → List StampedMessage}
    (hg : ∀ messages u, now ∈ times messages → now ∈ times (g messages u)) (us : List β)
    (h : now ∈ times messages) : now ∈ times (us.foldl g messages) := by
  induction us generalizing messages with
  | nil => exact h
  | cons u us ih => exact ih (hg messages u h)

theorem mem_refreshOrder_foldl (labels : List String) {orders : List (String × Nat)}
    {order : String × Nat} (h : order ∈ labels.foldl (refreshOrder now) orders) :
    order.2 = now ∨ order ∈ orders := by
  induction labels generalizing orders with
  | nil => exact .inr h
  | cons label labels ih =>
    rcases ih h with hnow | hin
    · exact .inl hnow
    rcases List.mem_append.1 hin with hold | hnew
    · exact .inr (List.mem_filter.1 hold).1
    · obtain rfl := List.mem_singleton.1 hnew
      exact .inl rfl

theorem exists_now_refreshOrder_foldl (label : String) (labels : List String)
    (orders : List (String × Nat)) :
    ∃ order ∈ (label :: labels).foldl (refreshOrder now) orders, order.2 = now := by
  induction labels generalizing label orders with
  | nil => exact ⟨(label, now), List.mem_append_right _ (List.mem_singleton_self _), rfl⟩
  | cons next labels ih => exact ih next (refreshOrder now orders label)

theorem mem_stamps :
    stamp ∈ m.stamps ↔ stamp ∈ times m.messages ∨ ∃ order ∈ m.threadOrders, order.2 = stamp := by
  simp [Mailbox.stamps, times]

theorem mem_stamps_applyCommit
    (h : stamp ∈ (applyCommit iso m c).stamps) : stamp = c.startedAt ∨ stamp ∈ m.stamps := by
  have hmessages : ∀ messages : List StampedMessage,
      (∀ stamp ∈ times messages, stamp = c.startedAt ∨ stamp ∈ times m.messages) →
      stamp ∈ Mailbox.stamps { m with messages := messages } →
      stamp = c.startedAt ∨ stamp ∈ m.stamps := by
    intro messages hall hin
    rcases mem_stamps.1 hin with hin | hin
    · rcases hall stamp hin with hnow | hold
      · exact .inl hnow
      · exact .inr (mem_stamps.2 (.inl hold))
    · exact .inr (mem_stamps.2 (.inr hin))
  unfold applyCommit at h
  split at h
  · exact hmessages _ (fun _ hin =>
      mem_times_foldl (fun _ _ _ hin => mem_times_upsertStamped hin) _ hin) h
  · exact hmessages _ (fun _ hin =>
      mem_times_foldl (fun _ _ _ hin => mem_times_forceStamped hin) _ hin) h
  · exact hmessages _ (fun _ hin =>
      mem_times_foldl (fun _ _ _ hin => mem_times_updateStampedBody hin) _ hin) h
  · refine hmessages _ ?_ h
    intro stamp hin
    refine mem_times_updateWhere ?_ hin
    exact fun _ => .inr rfl
  · exact hmessages _ (fun _ hin => .inr ((List.filter_sublist.map _).subset hin)) h
  · exact hmessages _ (fun _ hin => .inr ((List.filter_sublist.map _).subset hin)) h
  · exact .inr h
  · rcases mem_stamps.1 h with hin | ⟨order, hin, rfl⟩
    · exact .inr (mem_stamps.2 (.inl hin))
    · rcases mem_refreshOrder_foldl _ hin with hnow | hold
      · exact .inl hnow
      · exact .inr (mem_stamps.2 (.inr ⟨order, hold, rfl⟩))

theorem startedAt_mem_stamps (h : leavesStamp m c.write = true) :
    c.startedAt ∈ (applyCommit iso m c).stamps := by
  obtain ⟨now, write⟩ := c
  cases write with
  | upsert messages =>
    cases messages with
    | nil => cases h
    | cons u us =>
      apply mem_stamps.2
      exact .inl (now_mem_times_foldl (fun _ _ _ => now_mem_times_upsertStamped _ _ _) us
        (now_mem_times_upsertStamped now m.messages u))
  | forceLabels labelsByMessageId =>
    obtain ⟨u, hu, hfound⟩ := List.any_eq_true.1 h
    rw [Bool.and_eq_true, List.any_eq_true] at hfound
    obtain ⟨hne, message, hin, hid⟩ := hfound
    have htarget : ∃ message ∈ m.messages, message.messageId = u.1 :=
      ⟨message, hin, of_decide_eq_true hid⟩
    apply mem_stamps.2
    left
    simp only [applyCommit]
    clear h
    generalize m.messages = messages at htarget
    induction labelsByMessageId generalizing messages with
    | nil => cases hu
    | cons first us ih =>
      rcases List.mem_cons.1 hu with rfl | hu
      · exact now_mem_times_foldl
          (fun _ _ hnow => now_mem_times_forceStamped (.inl hnow)) us
          (now_mem_times_forceStamped (.inr ⟨of_decide_eq_true hne, htarget⟩))
      · exact ih hu _ (exists_id_forceStamped htarget)
  | updateBodies | markBodyState | delete | finalizeReconciliation => cases h
  | replaceThreadOrders labels =>
    cases labels with
    | nil => cases h
    | cons label labels =>
      apply mem_stamps.2
      exact .inr (exists_now_refreshOrder_foldl label labels m.threadOrders)

end Stamps

variable {s : Watched}

/-! ## What the revision detects -/

section Detecting

variable {iso : Nat → String}

theorem latestGmailMailboxRevision_eq_some {revision : Nat} :
    latestGmailMailboxRevision m = some revision ↔
      revision ∈ m.stamps ∧ ∀ stamp ∈ m.stamps, stamp ≤ revision :=
  List.max?_eq_some_iff

def Distinguished (iso : Nat → String) (s : Watched) : Prop :=
  ∀ m ∈ s.earlier, latestGmailMailboxRevision m = latestGmailMailboxRevision s.mailbox →
    ∀ label, visibleThreads iso label m = visibleThreads iso label s.mailbox

theorem latest_applyCommit (hleaves : leavesStamp s.mailbox c.write = true)
    (hlast : StartsLast s c) :
    latestGmailMailboxRevision (applyCommit iso s.mailbox c) = some c.startedAt := by
  apply latestGmailMailboxRevision_eq_some.2
  refine ⟨startedAt_mem_stamps hleaves, ?_⟩
  intro stamp hstamp
  rcases mem_stamps_applyCommit hstamp with rfl | hold
  · exact Nat.le_refl _
  · exact Nat.le_of_lt (hlast s.mailbox List.mem_cons_self stamp hold)

theorem Unnoticed.latest (h : Unnoticed iso m c) :
    latestGmailMailboxRevision (applyCommit iso m c) = latestGmailMailboxRevision m := by
  cases hold : latestGmailMailboxRevision m with
  | none =>
    have hempty : m.stamps = [] := List.max?_eq_none_iff.1 hold
    apply List.max?_eq_none_iff.2
    apply List.eq_nil_iff_forall_not_mem.2
    intro stamp hstamp
    obtain ⟨old, hin, -⟩ := h.above stamp hstamp
    rw [hempty] at hin
    cases hin
  | some revision =>
    obtain ⟨hin, hmax⟩ := latestGmailMailboxRevision_eq_some.1 hold
    obtain ⟨stamp, hstamp, hle⟩ := h.below revision hin
    have hbound : ∀ other ∈ (applyCommit iso m c).stamps, other ≤ revision := by
      intro other hother
      obtain ⟨old, hold, hle⟩ := h.above other hother
      exact Nat.le_trans hle (hmax old hold)
    apply latestGmailMailboxRevision_eq_some.2
    refine ⟨?_, hbound⟩
    rwa [Nat.le_antisymm hle (hbound stamp hstamp)]

theorem Distinguished.step (h : Distinguished iso s)
    (hkeeps : KeepsUp iso s c) : Distinguished iso (s.step iso c) := by
  intro m hm hsame label
  rcases hkeeps with ⟨hleaves, hlast⟩ | hunnoticed
  · -- no state so far has the revision of the new one
    exfalso
    rw [show latestGmailMailboxRevision (s.step iso c).mailbox = some c.startedAt from
      latest_applyCommit hleaves hlast] at hsame
    have hin := (latestGmailMailboxRevision_eq_some.1 hsame).1
    exact absurd (hlast m hm _ hin) (Nat.lt_irrefl _)
  · rw [show latestGmailMailboxRevision (s.step iso c).mailbox =
      latestGmailMailboxRevision s.mailbox from hunnoticed.latest] at hsame
    rcases List.mem_cons.1 hm with rfl | hm
    · exact (hunnoticed.list label).symm
    · exact (h m hm hsame label).trans (hunnoticed.list label).symm

theorem Distinguished.detects (h : Distinguished iso s) : Detects iso s := by
  intro m hm label
  have hsame := h m hm
  refine ⟨fun hlist hrevision => hlist (hsame hrevision label), ?_⟩
  intro hskip
  apply hsame _ label
  unfold shouldRefreshForRevision at hskip
  split at hskip
  · cases hskip
  next hannounced =>
    rw [hannounced]
    simpa using hskip

/-- **Runs in which the revision keeps up.** Throughout every run whose transactions each start
after all times there have been and leave their start, or go unnoticed, states with different
lists have different revisions. -/
theorem detects_changes (iso : Nat → String) (commits : List Commit)
    (hkeeps : Along (Watched.step iso) (KeepsUp iso) .empty commits) :
    Throughout (Watched.step iso) (Detects iso) .empty commits := by
  have hinvariant : Throughout (Watched.step iso) (Distinguished iso) .empty commits := by
    apply throughout_of_step _ _ hkeeps
    · intro s c h hgood
      exact h.step hgood
    · intro m hm
      cases hm
  exact hinvariant.mono fun _ h => h.detects

end Detecting

/-! ## Two messages -/

def inboxMessage (snippet : String) : GmailMessage :=
  { unfetchedMessage with
    gmailThreadId := none, labelIds := ["INBOX"], snippet := some snippet }

def twoArrivals : List Commit :=
  [⟨1, .upsert [("a", inboxMessage "A")]⟩, ⟨2, .upsert [("b", inboxMessage "B")]⟩]

theorem detects_changes_of_two_arrivals :
    Throughout (Watched.step fun n => toString n) (Detects fun n => toString n) .empty
      twoArrivals := by
  apply detects_changes
  refine ⟨.inl ⟨by decide, ?_⟩, .inl ⟨by decide, ?_⟩, trivial⟩
  · unfold StartsLast
    decide
  · unfold StartsLast
    decide

theorem deletion_undetected :
    ¬ ∀ (iso : Nat → String) (commits : List Commit),
      Throughout (Watched.step iso) (Detects iso) .empty commits := by
  intro h
  have hdetects := (h (fun n => toString n) (twoArrivals ++ [⟨3, .delete ["a"]⟩])).last
  have hrevision := (hdetects
    (after (Watched.step fun n => toString n) .empty twoArrivals).mailbox
    (by decide +kernel) "inbox").1
  exact hrevision (by decide +kernel) (by decide +kernel)

end ElectronicMail.Messages
