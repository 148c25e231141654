import ElectronicMail.Foundations.Run
import ElectronicMail.Messages.Row

/-!
# Writes to `gmail_messages`

The table is a map from message ids to rows. A `MessageWrite` is one statement of a
writer: an upsert of one message, a forced change of its labels, a body update, the
attachment descriptors of a legacy row, or a body state for a set of messages. The
functions of the source that write several messages run their statements one after
another, so a run of writes covers them.
-/

namespace ElectronicMail.Messages

open Foundations

/-- The rows of `gmail_messages` of one account by message id. -/
abbrev MessageTable := String → Option GmailMessage

/-- One upsert of `_upsert_gmail_messages_on_connection`, at the time `now`. -/
structure Upsert where
  messageId : String
  excluded : GmailMessage
  now : String

/-- A statement that writes rows of `gmail_messages`. -/
inductive MessageWrite where
  | upsert (u : Upsert)
  | forceLabels (messageId : String) (labels : List String)
  | updateBody (messageId : String) (body : GmailMessage) (now : String)
  | backfillDescriptors (messageId : String) (descriptors : String)
  | markBodyState (messageIds : List String) (status : BodyFetchStatus)
      (error : Option String) (now : String)

/-! ## One statement, on one row -/

/-- `force_update_gmail_message_labels`. -/
def forceRowLabels (labels : List String) (row : GmailMessage) : GmailMessage :=
  { row with
    labelIds := labels.eraseDups
    contentRevision :=
      if row.labelIds ≠ labels.eraseDups then row.contentRevision + 1 else row.contentRevision }

/-- `update_gmail_message_bodies`: a row that is already fetched is left alone. -/
def updateRowBody (body : GmailMessage) (now : String) (row : GmailMessage) : GmailMessage :=
  if row.bodyFetchStatus = .fetched then row
  else
    { row with
      rawPayload := body.rawPayload
      htmlBodySanitized := body.htmlBodySanitized
      htmlRenderDocument := body.htmlRenderDocument
      textBody := body.textBody
      attachmentDescriptors := body.attachmentDescriptors
      attachmentDescriptorsReady := true
      extractedSignals := body.extractedSignals
      bodyHash := body.bodyHash
      bodyFetchStatus := .fetched
      bodyFetchedAt := some now
      bodyFetchError := none
      renderDocBytes := max row.renderDocBytes body.renderDocBytes
      contentRevision := row.contentRevision + 1 }

/-- `backfill_gmail_attachment_descriptors_page`, on one of its rows. -/
def backfillRowDescriptors (descriptors : String) (row : GmailMessage) : GmailMessage :=
  if row.attachmentDescriptorsReady then row
  else
    { row with
      attachmentDescriptors := descriptors
      attachmentDescriptorsReady := true
      contentRevision :=
        if row.attachmentDescriptors ≠ descriptors then row.contentRevision + 1
        else row.contentRevision }

/-- The `WHERE` of `mark_gmail_messages_body_fetch_state`, without the ids. -/
def marksRow (status : BodyFetchStatus) (row : GmailMessage) : Bool :=
  status = .fetched || !row.bodyFetchStatus.isReady

/-- `mark_gmail_messages_body_fetch_state`, on one of its rows. -/
def markRowBodyState (status : BodyFetchStatus) (error : Option String) (now : String)
    (row : GmailMessage) : GmailMessage :=
  if marksRow status row then
    { row with
      bodyFetchStatus := status
      bodyFetchedAt := if status.isReady then some now else row.bodyFetchedAt
      bodyFetchError := if Text.truthy error then error.map (Text.truncate 4000) else none
      contentRevision :=
        if status = .unavailable ∧ row.bodyFetchStatus.isReady = false then
          row.contentRevision + 1
        else row.contentRevision }
  else row

/-! ## One statement, on the table -/

/-- `UPDATE gmail_messages SET … WHERE message_id = …`. -/
def updateMessage (table : MessageTable) (messageId : String)
    (f : GmailMessage → GmailMessage) : MessageTable :=
  Function.update table messageId ((table messageId).map f)

def applyUpsert (table : MessageTable) (u : Upsert) : MessageTable :=
  Function.update table u.messageId (some (upsertRow u.now (table u.messageId) u.excluded))

/-- The effect of a statement; an empty message id is dropped before the write. -/
def writeStep (table : MessageTable) : MessageWrite → MessageTable
  | .upsert u => applyUpsert table u
  | .forceLabels messageId labels =>
    if messageId = "" then table else updateMessage table messageId (forceRowLabels labels)
  | .updateBody messageId body now => updateMessage table messageId (updateRowBody body now)
  | .backfillDescriptors messageId descriptors =>
    updateMessage table messageId (backfillRowDescriptors descriptors)
  | .markBodyState messageIds status error now => fun messageId =>
    if messageId ≠ "" ∧ messageId ∈ messageIds then
      (table messageId).map (markRowBodyState status error now)
    else table messageId

@[simp]
theorem updateMessage_self (table : MessageTable) (messageId : String)
    (f : GmailMessage → GmailMessage) :
    updateMessage table messageId f messageId = (table messageId).map f :=
  Function.update_self messageId _ table

variable {messageId : String}

theorem updateMessage_of_ne {other : String} (h : other ≠ messageId) (table : MessageTable)
    (f : GmailMessage → GmailMessage) : updateMessage table messageId f other = table other :=
  Function.update_of_ne h _ table

@[simp]
theorem applyUpsert_self (table : MessageTable) (u : Upsert) :
    applyUpsert table u u.messageId = some (upsertRow u.now (table u.messageId) u.excluded) :=
  Function.update_self u.messageId _ table

theorem applyUpsert_of_ne {u : Upsert} (h : messageId ≠ u.messageId) (table : MessageTable) :
    applyUpsert table u messageId = table messageId :=
  Function.update_of_ne h _ table

/-! ## What a statement does to a row -/

/-- What a statement can make of the stored row of the message `target`. -/
inductive RowChange (target : String) (row : GmailMessage) : MessageWrite → GmailMessage → Prop where
  | unchanged (w : MessageWrite) : RowChange target row w row
  | merged (u : Upsert) : RowChange target row (.upsert u) (mergeRow u.now row u.excluded)
  | labels (messageId : String) (labels : List String) :
      RowChange target row (.forceLabels messageId labels) (forceRowLabels labels row)
  | body (messageId : String) (body : GmailMessage) (now : String) :
      RowChange target row (.updateBody messageId body now) (updateRowBody body now row)
  | descriptors (messageId : String) (descriptors : String) :
      RowChange target row (.backfillDescriptors messageId descriptors)
        (backfillRowDescriptors descriptors row)
  | state {messageIds : List String} (hid : target ≠ "") (hmem : target ∈ messageIds)
      (status : BodyFetchStatus) (error : Option String) (now : String) :
      RowChange target row (.markBodyState messageIds status error now)
        (markRowBodyState status error now row)

variable {table : MessageTable}

theorem updateMessage_change {target : String} {f : GmailMessage → GmailMessage}
    {row : GmailMessage} (hrow : table target = some row) {w : MessageWrite}
    (hf : RowChange target row w (f row)) :
    ∃ row', updateMessage table messageId f target = some row' ∧ RowChange target row w row' := by
  rcases eq_or_ne target messageId with rfl | hne
  · refine ⟨f row, ?_, hf⟩
    rw [updateMessage_self, hrow]
    rfl
  · refine ⟨row, ?_, .unchanged w⟩
    rw [updateMessage_of_ne hne, hrow]

theorem writeStep_markBodyState (table : MessageTable) (messageIds : List String)
    (status : BodyFetchStatus) (error : Option String) (now messageId : String) :
    writeStep table (.markBodyState messageIds status error now) messageId =
      if messageId ≠ "" ∧ messageId ∈ messageIds then
        (table messageId).map (markRowBodyState status error now)
      else table messageId := rfl

theorem writeStep_change (w : MessageWrite) {target : String} {row : GmailMessage}
    (hrow : table target = some row) :
    ∃ row', writeStep table w target = some row' ∧ RowChange target row w row' := by
  cases w with
  | upsert u =>
    simp only [writeStep]
    rcases eq_or_ne target u.messageId with rfl | hne
    · refine ⟨mergeRow u.now row u.excluded, ?_, .merged u⟩
      rw [applyUpsert_self, hrow]
      rfl
    · refine ⟨row, ?_, .unchanged _⟩
      rw [applyUpsert_of_ne hne, hrow]
  | forceLabels messageId labels =>
    simp only [writeStep]
    split
    · exact ⟨row, hrow, .unchanged _⟩
    · exact updateMessage_change hrow (.labels messageId labels)
  | updateBody messageId body now => exact updateMessage_change hrow (.body messageId body now)
  | backfillDescriptors messageId descriptors =>
    exact updateMessage_change hrow (.descriptors messageId descriptors)
  | markBodyState messageIds status error now =>
    rw [writeStep_markBodyState]
    split
    · rename_i hmem
      refine ⟨markRowBodyState status error now row, ?_, .state hmem.1 hmem.2 status error now⟩
      rw [hrow]
      rfl
    · exact ⟨row, hrow, .unchanged _⟩

end ElectronicMail.Messages
