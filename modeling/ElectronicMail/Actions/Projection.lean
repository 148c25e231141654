import ElectronicMail.Actions.Record

/-!
# The optimistic labels and the Gmail request

An action changes labels twice: `_apply_local_action` changes the stored labels
when the action is accepted, and `run_pending_thread_action` later asks Gmail to
add and remove labels on a message or on whole threads. `gmailAfter` is what Gmail
does with such requests, label by label. `accountRequest` is the request of the
account-scoped path for the same action and target.

The two tables differ for `mark_spam`, which drops `TRASH` locally only, and
`archive` of one message asks Gmail to archive its whole thread
(`projection_refuted`). `projection_refines_iff` says exactly when the stored labels
are Gmail's and the two paths send the same request.
-/

namespace ElectronicMail.Actions

open Foundations
open Foundations.Table

/-! ## Label requests -/

/-- The body of `users.threads.modify` and `users.messages.modify`; a key that the
code leaves out is `none`. -/
structure ModifyBody where
  addLabelIds : Option (List String)
  removeLabelIds : Option (List String)
  deriving DecidableEq

/-- A `modify` request to Gmail. -/
structure ModifyRequest where
  call : RemoteCall
  body : ModifyBody
  deriving DecidableEq

/-- `if label_ids: body[…] = label_ids`. -/
def bodyKey (labelIds : List String) : Option (List String) :=
  if labelIds = [] then none else some labelIds

def modifyGmailThreadLabels (threadId : String) (addLabelIds removeLabelIds : List String) :
    ModifyRequest :=
  ⟨.thread threadId, bodyKey addLabelIds, bodyKey removeLabelIds⟩

def modifyGmailMessageLabels (messageId : String) (addLabelIds removeLabelIds : List String) :
    ModifyRequest :=
  ⟨.message messageId, bodyKey addLabelIds, bodyKey removeLabelIds⟩

def gmailInboxLabel : String := "INBOX"
def gmailUnreadLabel : String := "UNREAD"

def archiveGmailThread (threadId : String) : ModifyRequest :=
  modifyGmailThreadLabels threadId [] [gmailInboxLabel]

def unarchiveGmailThread (threadId : String) : ModifyRequest :=
  modifyGmailThreadLabels threadId [gmailInboxLabel] []

def markGmailThreadRead (threadId : String) : ModifyRequest :=
  modifyGmailThreadLabels threadId [] [gmailUnreadLabel]

def markGmailMessageRead (messageId : String) : ModifyRequest :=
  modifyGmailMessageLabels messageId [] [gmailUnreadLabel]

def markGmailThreadUnread (threadId : String) : ModifyRequest :=
  modifyGmailThreadLabels threadId [gmailUnreadLabel] []

def markGmailMessageUnread (messageId : String) : ModifyRequest :=
  modifyGmailMessageLabels messageId [gmailUnreadLabel] []

def markGmailThreadSpam (threadId : String) : ModifyRequest :=
  modifyGmailThreadLabels threadId ["SPAM"] [gmailInboxLabel]

def markGmailMessageSpam (messageId : String) : ModifyRequest :=
  modifyGmailMessageLabels messageId ["SPAM"] [gmailInboxLabel]

def markGmailThreadNotSpam (threadId : String) : ModifyRequest :=
  modifyGmailThreadLabels threadId [gmailInboxLabel] ["SPAM"]

def markGmailMessageNotSpam (messageId : String) : ModifyRequest :=
  modifyGmailMessageLabels messageId [gmailInboxLabel] ["SPAM"]

def starGmailThread (threadId : String) : ModifyRequest :=
  modifyGmailThreadLabels threadId ["STARRED"] []

def unstarGmailThread (threadId : String) : ModifyRequest :=
  modifyGmailThreadLabels threadId [] ["STARRED"]

def starGmailMessage (messageId : String) : ModifyRequest :=
  modifyGmailMessageLabels messageId ["STARRED"] []

def unstarGmailMessage (messageId : String) : ModifyRequest :=
  modifyGmailMessageLabels messageId [] ["STARRED"]

/-- `_apply_remote_action` on the actions that change labels by a `modify` request. -/
def applyRemoteAction (gmailThreadId : String) : ThreadAction → Option ModifyRequest
  | .archive => archiveGmailThread gmailThreadId
  | .unarchive => unarchiveGmailThread gmailThreadId
  | .markRead => markGmailThreadRead gmailThreadId
  | .markUnread => markGmailThreadUnread gmailThreadId
  | .markSpam => markGmailThreadSpam gmailThreadId
  | .notSpam => markGmailThreadNotSpam gmailThreadId
  | .star => starGmailThread gmailThreadId
  | .unstar => unstarGmailThread gmailThreadId
  | .moveTrash | .restoreTrash | .deleteForever => none

/-- `_apply_remote_message_action` on the actions that change labels by a `modify`
request; it raises on `archive` and `unarchive`. -/
def applyRemoteMessageAction (gmailMessageId : String) : ThreadAction → Option ModifyRequest
  | .markRead => markGmailMessageRead gmailMessageId
  | .markUnread => markGmailMessageUnread gmailMessageId
  | .markSpam => markGmailMessageSpam gmailMessageId
  | .notSpam => markGmailMessageNotSpam gmailMessageId
  | .star => starGmailMessage gmailMessageId
  | .unstar => unstarGmailMessage gmailMessageId
  | .archive | .unarchive => none
  | .moveTrash | .restoreTrash | .deleteForever => none

def callRequest (action : ThreadAction) : RemoteCall → Option ModifyRequest
  | .message gmailMessageId => applyRemoteMessageAction gmailMessageId action
  | .thread gmailThreadId => applyRemoteAction gmailThreadId action

def isLabelAction : ThreadAction → Bool
  | .moveTrash | .restoreTrash | .deleteForever => false
  | _ => true

/-! ## What Gmail does -/

/-- The labels after a `modify` request: the removed ones are gone and the added
ones are there. -/
def modifiedLabels (addLabelIds removeLabelIds labels : List String) : List String :=
  labels.filter (fun label => !removeLabelIds.contains label) ++ addLabelIds

def RemoteCall.reaches (message : StoredMessage) : RemoteCall → Bool
  | .message gmailMessageId => message.messageId = gmailMessageId
  | .thread gmailThreadId => message.gmailThreadId = gmailThreadId

def ModifyRequest.apply (request : ModifyRequest) (message : StoredMessage) : StoredMessage :=
  if request.call.reaches message then
    { message with
      labelIds := modifiedLabels (request.body.addLabelIds.getD [])
        (request.body.removeLabelIds.getD []) message.labelIds }
  else message

def gmailAfter (requests : List ModifyRequest) (messages : List StoredMessage) :
    List StoredMessage :=
  requests.foldl (fun messages request => messages.map request.apply) messages

/-! ## The messages of an action -/

/-- The stored messages of an account and its mail groups. A message has its own
id, and Gmail has given it the id of a thread, without surrounding blanks. -/
structure Mailbox where
  messages : List StoredMessage
  groups : String → Option (List String)
  messageIds_nodup : (messages.map (·.messageId)).Nodup
  messageId_ne : ∀ m ∈ messages, m.messageId ≠ ""
  threadId_ne : ∀ m ∈ messages, m.gmailThreadId ≠ ""
  threadId_strip : ∀ m ∈ messages, Text.strip m.gmailThreadId = m.gmailThreadId

namespace Mailbox

/-- `list_messages_by_ids` for one id. -/
def listMessagesById (M : Mailbox) (messageId : String) : List StoredMessage :=
  (rowAt StoredMessage.messageId M.messages messageId).toList

def listMessagesForGmailThread (M : Mailbox) (gmailThreadId : String) : List StoredMessage :=
  let threadId := Text.strip gmailThreadId
  if threadId = "" then []
  else M.messages.filter fun m =>
    decide ((if m.gmailThreadId = "" then m.messageId else m.gmailThreadId) = threadId)

def listGroupMessages (M : Mailbox) (members : List String) : List StoredMessage :=
  M.messages.filter fun m => members.contains m.messageId

/-- `sorted({message.gmail_thread_id for message in messages if message.gmail_thread_id})`. -/
def threadIdsOf (messages : List StoredMessage) : List String :=
  (((messages.map (·.gmailThreadId)).filter fun id => decide (id ≠ "")).eraseDups).mergeSort
    fun a b => decide (a ≤ b)

def resolveActionMessages (M : Mailbox) (mailboxThreadId : String)
    (targetMessageId : Option String) : List StoredMessage × List String :=
  if Text.truthy targetMessageId then
    let messages := M.listMessagesById (targetMessageId.getD "")
    (messages, threadIdsOf messages)
  else
    let messages := M.listMessagesForGmailThread mailboxThreadId
    if messages ≠ [] then (messages, threadIdsOf messages)
    else
      match M.groups mailboxThreadId with
      | none => ([], [])
      | some members =>
        let messages := M.listGroupMessages members
        (messages, threadIdsOf messages)

def resolved (M : Mailbox) (record : PendingThreadAction) : List StoredMessage :=
  (M.resolveActionMessages record.mailboxThreadId record.targetMessageId).1

/-- The requests that `run_pending_thread_action` sends, or the text of the
`RuntimeError` with which it gives up before the first one. -/
def sentRequests (M : Mailbox) (record : PendingThreadAction) :
    Except String (List ModifyRequest) :=
  let resolution := M.resolveActionMessages record.mailboxThreadId record.targetMessageId
  (remotePlan record resolution.1 resolution.2).map (·.filterMap (callRequest record.action))

end Mailbox

/-! ## The account-scoped path -/

def labelsForAction : ThreadAction → List String × List String
  | .markRead => ([], ["UNREAD"])
  | .markUnread => (["UNREAD"], [])
  | .archive => ([], ["INBOX"])
  | .unarchive => (["INBOX"], [])
  | .markSpam => (["SPAM"], ["INBOX"])
  | .notSpam => (["INBOX"], ["SPAM"])
  | .star => (["STARRED"], [])
  | .unstar => ([], ["STARRED"])
  | .moveTrash | .restoreTrash | .deleteForever => ([], [])

/-- The call and the body that `_apply_action` builds. -/
def accountRequest (record : PendingThreadAction) : ModifyRequest where
  call :=
    if Text.truthy record.targetMessageId then .message (record.targetMessageId.getD "")
    else .thread record.mailboxThreadId
  body :=
    let (adds, removes) := labelsForAction record.action
    ⟨some adds, some removes⟩

/-- What a request asks for: an empty list asks for nothing, like a key left out. -/
def ModifyRequest.meaning (request : ModifyRequest) : RemoteCall × List String × List String :=
  (request.call, request.body.addLabelIds.getD [], request.body.removeLabelIds.getD [])

/-! ## The two sides -/

def SameLabels (labels labels' : List String) : Prop := ∀ label, label ∈ labels ↔ label ∈ labels'

def SameMessages : List StoredMessage → List StoredMessage → Prop :=
  List.Forall₂ fun m m' => m.messageId = m'.messageId ∧ SameLabels m.labelIds m'.labelIds

theorem sameLabels_refl (labels : List String) : SameLabels labels labels := fun _ => Iff.rfl

variable {left right : List StoredMessage}

theorem SameMessages.symm (h : SameMessages left right) : SameMessages right left := by
  induction h with
  | nil => exact .nil
  | cons hab _ ih => exact .cons ⟨hab.1.symm, fun label => (hab.2 label).symm⟩ ih

theorem SameMessages.trans {middle : List StoredMessage} (h : SameMessages left middle)
    (h' : SameMessages middle right) : SameMessages left right := by
  induction h generalizing right with
  | nil => exact h'
  | cons hab _ ih =>
    cases h' with
    | cons hbc hrest =>
      exact .cons ⟨hab.1.trans hbc.1, fun label => (hab.2 label).trans (hbc.2 label)⟩ (ih hrest)

variable {messages : List StoredMessage}

theorem sameMessages_map_iff {f g : StoredMessage → StoredMessage} :
    SameMessages (messages.map f) (messages.map g) ↔
      ∀ m ∈ messages, (f m).messageId = (g m).messageId ∧
        SameLabels (f m).labelIds (g m).labelIds := by
  unfold SameMessages
  rw [List.forall₂_map_left_iff, List.forall₂_map_right_iff, List.forall₂_same]

variable {labels : List String} {label : String} {action : ThreadAction} {m : StoredMessage}

section Upper

variable (upper : String → String)

/-- The stored labels after the optimistic change are Gmail's after the requests,
and the account-scoped path sends the same request. -/
def ProjectionRefines (M : Mailbox) (record : PendingThreadAction)
    (requests : List ModifyRequest) : Prop :=
  SameMessages (applyLocalAction upper record.action (M.resolved record) M.messages)
      (gmailAfter requests M.messages) ∧
    requests.map ModifyRequest.meaning = [(accountRequest record).meaning]

/-- The upper-case labels that `_labels_after_action` drops. -/
def droppedLabels : ThreadAction → List String
  | .archive => ["INBOX"]
  | .markRead => ["UNREAD"]
  | .moveTrash => ["INBOX", "SPAM"]
  | .restoreTrash => ["TRASH"]
  | .markSpam => ["INBOX", "TRASH"]
  | .notSpam => ["SPAM"]
  | .unstar => ["STARRED"]
  | .unarchive | .markUnread | .star | .deleteForever => []

/-- On these labels the local change is the request: every label it drops is one the
request removes, and another spelling of an added label comes with the label. -/
def LabelsAgree (action : ThreadAction) (labels : List String) : Prop :=
  ∀ label ∈ labels,
    (upper label ∈ droppedLabels action → label ∈ (labelsForAction action).2) ∧
      (upper label ∈ (labelsForAction action).1 → upper label ∈ labels)

def KeepsSystemLabels : Prop :=
  ∀ name ∈ ["INBOX", "UNREAD", "SPAM", "STARRED"], upper name = name

/-- The action reaches in Gmail what it is about: on one message it is not an archive
or unarchive, and otherwise it names a Gmail thread and not a mail group. -/
def ReachesItsTarget (M : Mailbox) (record : PendingThreadAction) : Prop :=
  if Text.truthy record.targetMessageId then isMessageAction record.action = true
  else ∃ m ∈ M.messages, m.gmailThreadId = record.mailboxThreadId

/-! ## One message -/

theorem mem_modifiedLabels {adds removes : List String} :
    label ∈ modifiedLabels adds removes labels ↔ (label ∈ labels ∧ label ∉ removes) ∨ label ∈ adds := by
  simp [modifiedLabels]

theorem mem_dropLabels {dropped : List String} :
    label ∈ dropLabels upper dropped labels ↔ label ∈ labels ∧ upper label ∉ dropped := by
  simp [dropLabels]

theorem mem_appendLabel {name : String} :
    label ∈ appendLabel upper name labels ↔
      label ∈ labels ∨ (label = name ∧ ∀ l ∈ labels, upper l ≠ name) := by
  by_cases h : (membership upper labels).contains name = true
  · obtain ⟨l, hl, hup⟩ := (mem_membership upper).1 (List.contains_iff_mem.1 h)
    simp only [appendLabel, if_pos h]
    constructor
    · exact Or.inl
    · rintro (hlabel | ⟨-, hnone⟩)
      · exact hlabel
      · exact absurd hup (hnone l hl)
  · have hnone : ∀ l ∈ labels, upper l ≠ name := by
      intro l hl hup
      apply h
      exact List.contains_iff_mem.2 ((mem_membership upper).2 ⟨l, hl, hup⟩)
    simp only [appendLabel, if_neg h, List.mem_append, List.mem_singleton]
    constructor
    · rintro (hlabel | rfl)
      · exact Or.inl hlabel
      · exact Or.inr ⟨rfl, hnone⟩
    · rintro (hlabel | ⟨rfl, -⟩)
      · exact Or.inl hlabel
      · exact Or.inr rfl

/-- `_labels_after_action` as one rule: the dropped labels go, and the label that the
request adds comes unless some spelling of it is there. -/
theorem mem_labelsAfterAction (hlabel : isLabelAction action = true) :
    label ∈ labelsAfterAction upper labels action ↔
      (label ∈ labels ∧ upper label ∉ droppedLabels action) ∨ (label ∈ (labelsForAction action).1 ∧
          ∀ l ∈ labels, upper l ∉ droppedLabels action → upper l ≠ label) := by
  cases action with
  | moveTrash | restoreTrash | deleteForever => cases hlabel
  | archive | markRead | unstar =>
    simp [labelsAfterAction, droppedLabels, labelsForAction, mem_dropLabels]
  | unarchive | markUnread | star =>
    simp only [labelsAfterAction, mem_appendLabel, List.mem_eraseDups, droppedLabels,
      labelsForAction, List.mem_singleton, List.not_mem_nil, not_false_eq_true, and_true,
      forall_true_left]
    exact or_congr_right (and_congr_right fun h => by rw [h])
  | markSpam | notSpam =>
    simp only [labelsAfterAction, mem_appendLabel, mem_dropLabels, List.mem_eraseDups,
      droppedLabels, labelsForAction, List.mem_singleton, and_imp]
    exact or_congr_right (and_congr_right fun h => by rw [h])

variable {upper} in
theorem dropped_of_mem_removes (hupper : KeepsSystemLabels upper)
    (h : label ∈ (labelsForAction action).2) :
    upper label ∈ droppedLabels action := by
  cases action <;> simp [labelsForAction] at h <;> subst h <;>
    rw [hupper _ (by simp)] <;> simp [droppedLabels]

variable {upper} in
theorem not_dropped_of_mem_adds (hupper : KeepsSystemLabels upper)
    (h : label ∈ (labelsForAction action).1) :
    upper label = label ∧ upper label ∉ droppedLabels action := by
  cases action <;> simp [labelsForAction] at h <;> subst h <;>
    rw [hupper _ (by simp)] <;> simp [droppedLabels]

variable {upper} in
theorem sameLabels_iff_labelsAgree (hupper : KeepsSystemLabels upper)
    (hlabel : isLabelAction action = true) (labels : List String) :
    SameLabels (labelsAfterAction upper labels action)
        (modifiedLabels (labelsForAction action).1 (labelsForAction action).2 labels) ↔
      LabelsAgree upper action labels := by
  constructor
  · intro hsame label hmem
    constructor
    · intro hdropped
      by_contra hkept
      -- Gmail keeps the label; locally it could only have come back as the added one.
      have hremote := (hsame label).2 (mem_modifiedLabels.2 (Or.inl ⟨hmem, hkept⟩))
      rcases (mem_labelsAfterAction upper hlabel).1 hremote with ⟨-, hnot⟩ | ⟨hadd, -⟩
      · exact hnot hdropped
      · exact (not_dropped_of_mem_adds hupper hadd).2 hdropped
    · intro hadd
      have hremote := (hsame (upper label)).2 (mem_modifiedLabels.2 (Or.inr hadd))
      rcases (mem_labelsAfterAction upper hlabel).1 hremote with ⟨h, -⟩ | ⟨-, hnone⟩
      · exact h
      · have hidem := not_dropped_of_mem_adds hupper hadd
        rw [hidem.1] at hidem
        exact absurd rfl (hnone label hmem hidem.2)
  · intro hagree label
    rw [mem_labelsAfterAction upper hlabel, mem_modifiedLabels]
    constructor
    · rintro (⟨hmem, hnot⟩ | ⟨hadd, -⟩)
      · exact Or.inl ⟨hmem, fun hremoved => hnot (dropped_of_mem_removes hupper hremoved)⟩
      · exact Or.inr hadd
    · rintro (⟨hmem, hkept⟩ | hadd)
      · exact Or.inl ⟨hmem, fun hdropped => hkept ((hagree label hmem).1 hdropped)⟩
      · by_cases hthere : ∃ l ∈ labels, upper l = label
        · obtain ⟨l, hl, rfl⟩ := hthere
          exact Or.inl ⟨(hagree l hl).2 hadd, (not_dropped_of_mem_adds hupper hadd).2⟩
        · exact Or.inr ⟨hadd, fun l hl _ hup => hthere ⟨l, hl, hup⟩⟩

/-! ## The local change, message by message -/

theorem Mailbox.eq_of_messageId_eq (M : Mailbox) {m' : StoredMessage} (hm : m ∈ M.messages)
    (hm' : m' ∈ M.messages) (hid : m.messageId = m'.messageId) : m = m' :=
  List.inj_on_of_nodup_map M.messageIds_nodup hm hm' hid

/-- What `_apply_local_action` leaves of one stored message. -/
def locallyChanged (action : ThreadAction) (resolved : List StoredMessage)
    (message : StoredMessage) : StoredMessage :=
  if message ∈ resolved then
    { message with labelIds := labelsAfterAction upper message.labelIds action }
  else message

/-- `_apply_local_action` puts the labels of the action on the resolved messages and
leaves the others alone. -/
theorem applyLocalAction_sameMessages (M : Mailbox) {resolved : List StoredMessage}
    (hsub : ∀ m ∈ resolved, m ∈ M.messages) (action : ThreadAction) :
    SameMessages (applyLocalAction upper action resolved M.messages)
      (M.messages.map (locallyChanged upper action resolved)) := by
  unfold applyLocalAction forceUpdateLabels SameMessages
  rw [List.forall₂_map_left_iff, List.forall₂_map_right_iff, List.forall₂_same]
  intro m hm
  split
  · rename_i entry hfind
    obtain ⟨r, hr, hentry⟩ := List.mem_filterMap.1 (List.mem_of_find?_eq_some hfind)
    have hid : entry.1 = m.messageId := of_decide_eq_true (List.find?_some
      (p := fun entry : String × List String => decide (entry.1 = m.messageId)) hfind)
    dsimp only at hentry
    split at hentry
    · cases hentry
    obtain rfl := Option.some.inj hentry
    obtain rfl := M.eq_of_messageId_eq (hsub r hr) hm hid
    rw [if_neg (M.messageId_ne r hm), locallyChanged, if_pos hr]
    exact ⟨rfl, fun label => List.mem_eraseDups⟩
  · rename_i hfind
    by_cases hmem : m ∈ resolved
    · -- No entry for a resolved message means that its labels stay.
      have hsame : labelsAfterAction upper m.labelIds action = m.labelIds := by
        by_contra hne
        have hentry := List.find?_eq_none.1 hfind (m.messageId, _)
          (List.mem_filterMap.2 ⟨m, hmem, if_neg hne⟩)
        simp at hentry
      rw [locallyChanged, if_pos hmem, hsame]
      exact ⟨rfl, sameLabels_refl _⟩
    · rw [locallyChanged, if_neg hmem]
      exact ⟨rfl, sameLabels_refl _⟩

end Upper

/-! ## The requests -/

theorem applyRemoteAction_meaning (hlabel : isLabelAction action = true) (gmailThreadId : String) :
    ∃ request, applyRemoteAction gmailThreadId action = some request ∧
      request.meaning = (.thread gmailThreadId, labelsForAction action) := by
  cases action <;> first | exact ⟨_, rfl, rfl⟩ | exact nomatch hlabel

theorem applyRemoteMessageAction_meaning
    (hlabel : isLabelAction action = true) (hmessage : isMessageAction action = true)
    (gmailMessageId : String) :
    ∃ request, applyRemoteMessageAction gmailMessageId action = some request ∧
      request.meaning = (.message gmailMessageId, labelsForAction action) := by
  cases action <;>
    first | exact ⟨_, rfl, rfl⟩ | exact absurd hlabel (by decide) | exact absurd hmessage (by decide)

variable {record : PendingThreadAction}

theorem remotePlan_cases {threadIds : List String} {calls : List RemoteCall}
    (h : remotePlan record messages threadIds = .ok calls) :
    (Text.truthy record.targetMessageId = true ∧ isMessageAction record.action = true ∧
        messages ≠ [] ∧ calls = [.message (record.targetMessageId.getD "")]) ∨
      ((Text.truthy record.targetMessageId = true → isMessageAction record.action = false) ∧
        calls = threadIds.map .thread) := by
  unfold remotePlan at h
  split at h
  · cases h
  split at h
  · cases h
  rename_i hfound
  split at h
  · rename_i hmessage
    rw [Bool.and_eq_true] at hmessage
    cases h
    refine Or.inl ⟨hmessage.1, hmessage.2, ?_, rfl⟩
    rintro rfl
    exact hfound (by rw [hmessage.1]; rfl)
  · rename_i hthread
    split at h
    · cases h
    cases h
    refine Or.inr ⟨fun htarget => ?_, rfl⟩
    rw [htarget, Bool.true_and] at hthread
    exact Bool.eq_false_iff.2 hthread

theorem map_meaning_threads (hlabel : isLabelAction action = true) (threadIds : List String) :
    ((threadIds.map RemoteCall.thread).filterMap (callRequest action)).map ModifyRequest.meaning =
      threadIds.map fun threadId => (.thread threadId, labelsForAction action) := by
  induction threadIds with
  | nil => rfl
  | cons threadId threadIds ih =>
    obtain ⟨request, hrequest, hmeaning⟩ := applyRemoteAction_meaning hlabel threadId
    simp only [List.map_cons, List.filterMap_cons, callRequest, hrequest, hmeaning]
    rw [← ih]

variable {requests : List ModifyRequest}

theorem sentRequests_meaning (M : Mailbox) (hlabel : isLabelAction record.action = true)
    (hsent : M.sentRequests record = .ok requests) :
    (Text.truthy record.targetMessageId = true ∧ isMessageAction record.action = true ∧
        M.resolved record ≠ [] ∧ requests.map ModifyRequest.meaning =
          [(.message (record.targetMessageId.getD ""), labelsForAction record.action)]) ∨
      ((Text.truthy record.targetMessageId = true → isMessageAction record.action = false) ∧
        requests.map ModifyRequest.meaning =
          (M.resolveActionMessages record.mailboxThreadId record.targetMessageId).2.map
            fun threadId => (.thread threadId, labelsForAction record.action)) := by
  unfold Mailbox.sentRequests at hsent
  dsimp only at hsent
  cases hplan : remotePlan record (M.resolveActionMessages record.mailboxThreadId
      record.targetMessageId).1 (M.resolveActionMessages record.mailboxThreadId
      record.targetMessageId).2 with
  | error e =>
    rw [hplan] at hsent
    cases hsent
  | ok =>
    rw [hplan] at hsent
    obtain rfl := Except.ok.inj hsent
    rcases remotePlan_cases hplan with ⟨htarget, hmessage, hfound, rfl⟩ | ⟨hthread, rfl⟩
    · obtain ⟨request, hrequest, hmeaning⟩ := applyRemoteMessageAction_meaning hlabel hmessage
        (record.targetMessageId.getD "")
      refine Or.inl ⟨htarget, hmessage, hfound, ?_⟩
      simp [callRequest, hrequest, hmeaning]
    · exact Or.inr ⟨hthread, map_meaning_threads hlabel _⟩

/-! ## Which messages are reached -/

theorem Mailbox.mem_listMessagesForGmailThread (M : Mailbox) {gmailThreadId : String} :
    m ∈ M.listMessagesForGmailThread gmailThreadId ↔
      m ∈ M.messages ∧ m.gmailThreadId = Text.strip gmailThreadId := by
  unfold Mailbox.listMessagesForGmailThread
  dsimp only
  split
  · rename_i hblank
    constructor
    · exact fun h => absurd h List.not_mem_nil
    · rintro ⟨hm, hthread⟩
      exact absurd (hthread.trans hblank) (M.threadId_ne m hm)
  · rw [List.mem_filter]
    refine and_congr_right fun hm => ?_
    rw [if_neg (M.threadId_ne m hm), decide_eq_true_iff]

variable {threadId : String}

theorem mem_threadIdsOf : threadId ∈ Mailbox.threadIdsOf messages ↔
      threadId ≠ "" ∧ ∃ m ∈ messages, m.gmailThreadId = threadId := by
  simp [Mailbox.threadIdsOf, List.mem_mergeSort, and_comm]

theorem threadIdsOf_eq_singleton (hne : messages ≠ []) (hid : threadId ≠ "")
    (hall : ∀ m ∈ messages, m.gmailThreadId = threadId) :
    Mailbox.threadIdsOf messages = [threadId] := by
  obtain ⟨m, rest, rfl⟩ := List.exists_cons_of_ne_nil hne
  have hm : m.gmailThreadId = threadId := hall m List.mem_cons_self
  have hrest : ((rest.map (·.gmailThreadId)).filter fun id => decide (id ≠ "")).filter
      (fun id => !id == threadId) = [] := by
    rw [List.filter_eq_nil_iff]
    intro id hmem
    obtain ⟨m', hm', rfl⟩ := List.mem_map.1 (List.mem_filter.1 hmem).1
    simp [hall m' (List.mem_cons_of_mem m hm')]
  unfold Mailbox.threadIdsOf
  rw [List.map_cons, hm, List.filter_cons_of_pos (by simpa using hid), List.eraseDups_cons, hrest,
    List.eraseDups_nil, List.mergeSort_singleton]

theorem Mailbox.mem_messages_of_resolved (M : Mailbox) (h : m ∈ M.resolved record) : m ∈ M.messages := by
  unfold Mailbox.resolved Mailbox.resolveActionMessages at h
  split at h
  · exact (rowAt_mem _ (Option.mem_toList.1 h)).1
  dsimp only at h
  split at h
  · exact ((M.mem_listMessagesForGmailThread).1 h).1
  split at h
  · exact absurd h List.not_mem_nil
  · exact (List.mem_filter.1 h).1

theorem Mailbox.mem_resolved_target (M : Mailbox)
    (htarget : Text.truthy record.targetMessageId = true) :
    m ∈ M.resolved record ↔ m ∈ M.messages ∧ m.messageId = record.targetMessageId.getD "" := by
  unfold Mailbox.resolved Mailbox.resolveActionMessages
  rw [if_pos htarget]
  constructor
  · intro h
    exact rowAt_mem _ (Option.mem_toList.1 h)
  · rintro ⟨hm, hid⟩
    rw [← hid]
    exact Option.mem_toList.2 (rowAt_of_mem _ M.messageIds_nodup hm)

theorem Mailbox.resolve_thread (M : Mailbox)
    (htarget : Text.truthy record.targetMessageId = false) {m₀ : StoredMessage}
    (hm₀ : m₀ ∈ M.messages) (hthread : m₀.gmailThreadId = record.mailboxThreadId) :
    (∀ m, m ∈ M.resolved record ↔
        m ∈ M.messages ∧ m.gmailThreadId = record.mailboxThreadId) ∧
      (M.resolveActionMessages record.mailboxThreadId record.targetMessageId).2 =
        [record.mailboxThreadId] := by
  have hstrip : Text.strip record.mailboxThreadId = record.mailboxThreadId :=
    hthread ▸ M.threadId_strip m₀ hm₀
  have hlist : ∀ m, m ∈ M.listMessagesForGmailThread record.mailboxThreadId ↔
      m ∈ M.messages ∧ m.gmailThreadId = record.mailboxThreadId := by
    intro m
    rw [M.mem_listMessagesForGmailThread, hstrip]
  have hne : M.listMessagesForGmailThread record.mailboxThreadId ≠ [] :=
    List.ne_nil_of_mem ((hlist m₀).2 ⟨hm₀, hthread⟩)
  unfold Mailbox.resolved Mailbox.resolveActionMessages
  rw [if_neg (by rw [htarget]; exact Bool.false_ne_true)]
  dsimp only
  rw [if_pos hne]
  refine ⟨hlist, threadIdsOf_eq_singleton hne ?_ fun m hm => ((hlist m).1 hm).2⟩
  exact hthread ▸ M.threadId_ne m₀ hm₀

theorem Mailbox.exists_of_mem_threadIds (M : Mailbox)
    (h : threadId ∈ (M.resolveActionMessages record.mailboxThreadId record.targetMessageId).2) :
    ∃ m ∈ M.messages, m.gmailThreadId = threadId := by
  have hids : (M.resolveActionMessages record.mailboxThreadId record.targetMessageId).2 =
      Mailbox.threadIdsOf (M.resolved record) := by
    unfold Mailbox.resolved Mailbox.resolveActionMessages
    split
    · rfl
    dsimp only
    split
    · rfl
    split
    · simp [Mailbox.threadIdsOf]
    · rfl
  rw [hids] at h
  obtain ⟨m, hm, hthread⟩ := (mem_threadIdsOf.1 h).2
  exact ⟨m, M.mem_messages_of_resolved hm, hthread⟩

/-! ## The two paths -/

theorem accountRequest_meaning (record : PendingThreadAction) :
    (accountRequest record).meaning =
      ((accountRequest record).call, labelsForAction record.action) := rfl

theorem sameRequest_iff (M : Mailbox) (hlabel : isLabelAction record.action = true)
    (hsent : M.sentRequests record = .ok requests) :
    requests.map ModifyRequest.meaning = [(accountRequest record).meaning] ↔
      ReachesItsTarget M record := by
  unfold ReachesItsTarget
  rw [accountRequest_meaning]
  rcases sentRequests_meaning M hlabel hsent with ⟨htarget, hmessage, -, hmeaning⟩ |
    ⟨hthread, hmeaning⟩
  · simp [hmeaning, accountRequest, htarget, hmessage]
  rw [hmeaning]
  by_cases htarget : Text.truthy record.targetMessageId = true
  · simp [accountRequest, htarget, hthread htarget, List.map_eq_singleton_iff]
  rw [if_neg htarget]
  simp only [accountRequest, if_neg htarget, List.map_eq_singleton_iff]
  constructor
  · rintro ⟨threadId, hids, hcall⟩
    obtain rfl := RemoteCall.thread.inj (Prod.mk.inj hcall).1
    exact M.exists_of_mem_threadIds (hids ▸ List.mem_singleton_self _)
  · rintro ⟨m, hm, hthread⟩
    exact ⟨_, (M.resolve_thread (Bool.eq_false_iff.2 htarget) hm hthread).2, rfl⟩

theorem reaches_iff_mem_resolved (M : Mailbox)
    (hreach : ReachesItsTarget M record) (hm : m ∈ M.messages) :
    (accountRequest record).call.reaches m = true ↔ m ∈ M.resolved record := by
  unfold ReachesItsTarget at hreach
  by_cases htarget : Text.truthy record.targetMessageId = true
  · rw [M.mem_resolved_target htarget]
    simp [accountRequest, htarget, RemoteCall.reaches, hm]
  · rw [if_neg htarget] at hreach
    obtain ⟨m₀, hm₀, hthread⟩ := hreach
    rw [(M.resolve_thread (Bool.eq_false_iff.2 htarget) hm₀ hthread).1]
    simp [accountRequest, htarget, RemoteCall.reaches, hm]

theorem ModifyRequest.apply_of_meaning {request : ModifyRequest} {call : RemoteCall}
    {adds removes : List String} (h : request.meaning = (call, adds, removes))
    (message : StoredMessage) :
    request.apply message =
      if call.reaches message then
        { message with labelIds := modifiedLabels adds removes message.labelIds }
      else message := by
  simp only [ModifyRequest.meaning, Prod.mk.injEq] at h
  obtain ⟨rfl, rfl, rfl⟩ := h
  rfl

/-- **The optimistic labels are Gmail's** after the requests, and the account-scoped
path sends the same request, if and only if the action reaches its target and on every
message it is about the local table and the request agree. -/
theorem projection_refines_iff {upper : String → String} (hupper : KeepsSystemLabels upper)
    (M : Mailbox) (record : PendingThreadAction) (hlabel : isLabelAction record.action = true)
    (requests : List ModifyRequest) (hsent : M.sentRequests record = .ok requests) :
    ProjectionRefines upper M record requests ↔
      ReachesItsTarget M record ∧
        ∀ m ∈ M.resolved record, LabelsAgree upper record.action m.labelIds := by
  unfold ProjectionRefines
  rw [sameRequest_iff M hlabel hsent, and_comm]
  refine and_congr_right fun hreach => ?_
  -- One request, on the resolved messages.
  have hmeaning := (sameRequest_iff M hlabel hsent).2 hreach
  obtain ⟨request, rfl, hrequest⟩ := List.map_eq_singleton_iff.1 hmeaning
  have hlocal := applyLocalAction_sameMessages upper M
    (fun m (hm : m ∈ M.resolved record) => M.mem_messages_of_resolved hm) record.action
  have hremote : gmailAfter [request] M.messages = M.messages.map request.apply := rfl
  have hiff : SameMessages (applyLocalAction upper record.action (M.resolved record) M.messages)
        (gmailAfter [request] M.messages) ↔
      ∀ m ∈ M.messages,
        (locallyChanged upper record.action (M.resolved record) m).messageId =
            (request.apply m).messageId ∧
          SameLabels (locallyChanged upper record.action (M.resolved record) m).labelIds
            (request.apply m).labelIds := by
    rw [hremote, ← sameMessages_map_iff]
    exact ⟨fun h => hlocal.symm.trans h, fun h => hlocal.trans h⟩
  rw [hiff]
  have happly := ModifyRequest.apply_of_meaning hrequest
  constructor
  · intro hsame m hm
    have hstored := M.mem_messages_of_resolved hm
    have hlabels := (hsame m hstored).2
    rw [happly m, if_pos ((reaches_iff_mem_resolved M hreach hstored).2 hm), locallyChanged,
      if_pos hm] at hlabels
    exact (sameLabels_iff_labelsAgree hupper hlabel _).1 hlabels
  · intro hagree m hm
    rw [happly m, locallyChanged]
    by_cases hmem : m ∈ M.resolved record
    · rw [if_pos hmem, if_pos ((reaches_iff_mem_resolved M hreach hm).2 hmem)]
      exact ⟨rfl, (sameLabels_iff_labelsAgree hupper hlabel _).2 (hagree m hmem)⟩
    · rw [if_neg hmem, if_neg fun h => hmem ((reaches_iff_mem_resolved M hreach hm).1 h)]
      exact ⟨rfl, sameLabels_refl _⟩

/-! ## A trashed message marked as spam -/

def trashedMailbox : Mailbox where
  messages := [⟨"m1", "t1", ["TRASH"]⟩]
  groups := fun _ => none
  messageIds_nodup := by simp
  messageId_ne := by simp
  threadId_ne := by simp
  threadId_strip := by decide

def threadRecord (action : ThreadAction) : PendingThreadAction where
  serverActionId := "s1"
  clientActionId := "c1"
  mailboxThreadId := "t1"
  targetMessageId := none
  action := action
  state := .applying
  createdAt := "2026-01-01T00:00:00Z"
  error := none
  previousLabels := [("m1", ["TRASH"])]

/-- Marking it as spam drops `TRASH` locally, and Gmail is never asked to. -/
theorem projection_refuted :
    trashedMailbox.sentRequests (threadRecord .markSpam) = .ok [markGmailThreadSpam "t1"] ∧
      ¬ProjectionRefines String.toUpper trashedMailbox (threadRecord .markSpam)
        [markGmailThreadSpam "t1"] := by
  refine ⟨by decide +kernel, ?_⟩
  rintro ⟨hsame, -⟩
  have hlocal : applyLocalAction String.toUpper .markSpam
      (trashedMailbox.resolved (threadRecord .markSpam)) trashedMailbox.messages =
        [⟨"m1", "t1", ["SPAM"]⟩] := by decide +kernel
  have hgmail : gmailAfter [markGmailThreadSpam "t1"] trashedMailbox.messages =
      [⟨"m1", "t1", ["TRASH", "SPAM"]⟩] := by decide +kernel
  rw [hgmail] at hsame
  obtain ⟨hfirst, -⟩ := List.forall₂_cons.1 (hlocal ▸ hsame)
  have := (hfirst.2 "TRASH").2 (by simp)
  simp at this

/-- Starring it changes the same labels on both sides. -/
theorem projection_refines_iff_star :
    ProjectionRefines String.toUpper trashedMailbox (threadRecord .star)
      [starGmailThread "t1"] := by
  apply (projection_refines_iff (by unfold KeepsSystemLabels; decide +kernel) trashedMailbox
    (threadRecord .star) rfl [starGmailThread "t1"] (by decide +kernel)).2
  constructor
  · exact ⟨⟨"m1", "t1", ["TRASH"]⟩, List.mem_singleton_self _, rfl⟩
  intro m hm label hlabel
  have hm' : m = ⟨"m1", "t1", ["TRASH"]⟩ :=
    List.mem_singleton.1 (trashedMailbox.mem_messages_of_resolved hm)
  subst hm'
  obtain rfl := List.mem_singleton.1 hlabel
  have hup : String.toUpper "TRASH" = "TRASH" := by decide +kernel
  constructor
  · exact fun h => absurd h List.not_mem_nil
  · intro h
    rw [hup] at h
    exact absurd h (by decide)

end ElectronicMail.Actions
