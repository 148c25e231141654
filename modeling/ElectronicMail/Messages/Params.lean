import ElectronicMail.Foundations.Json
import ElectronicMail.Messages.Row

/-!
# The parameters of a message write

`messageParams` is `_message_params`: it turns a `GmailMessageRecord` into the row that
the statements of the writers call `excluded`. A record without a body fetch status gets
one from its payload: `fetched` if some part of the payload carries body data or the
record has html, else `missing`.

`_gmail_attachment_descriptors` is a parameter.
-/

namespace ElectronicMail.Messages

open Foundations

structure GmailMessageRecord where
  messageId : String
  gmailThreadId : Option String
  historyId : Option String
  labelIds : List String
  internalDate : Option String
  subject : Option String
  sender : Option String
  recipients : Json
  headers : Json
  snippet : Option String
  rawPayload : Json
  htmlBodySanitized : Option String
  htmlRenderDocument : Option String
  textBody : Option String
  extractedSignals : Json
  bodyHash : String
  bodyFetchStatus : Option BodyFetchStatus
  bodyFetchedAt : Option String
  bodyFetchError : Option String
  renderDocBytes : Nat
  aiTitle : Option String
  aiTitleGeneratedAt : Option String
  contentRevision : Int
  attachmentDescriptors : List Json
  attachmentDescriptorsReady : Bool

/-! ## Body data of a payload -/

mutual

/-- `visit` of `_payload_has_body_data`: the part or a part below it has body data. -/
def partHasBodyData : Json → Bool
  | .dict fields =>
    (((Json.dict fields).get "body").get "data").isNonemptyText || partsFieldHasBodyData fields
  | _ => false

/-- The parts under the first field `parts`. -/
def partsFieldHasBodyData : List (String × Json) → Bool
  | [] => false
  | field :: fields => fieldHasBodyData field (partsFieldHasBodyData fields)

/-- One field: its parts if it is `parts`, else what the fields behind it say. -/
def fieldHasBodyData : String × Json → Bool → Bool
  | (key, value), rest => if key = "parts" then listHasBodyData value else rest

def listHasBodyData : Json → Bool
  | .list items => anyHasBodyData items
  | _ => false

/-- `any(visit(item) for item in parts)`. -/
def anyHasBodyData : List Json → Bool
  | [] => false
  | item :: items => partHasBodyData item || anyHasBodyData items

end

/-- `_payload_has_body_data`; the payload of a record is a dictionary. -/
def payloadHasBodyData (payload : Json) : Bool := partHasBodyData (payload.get "payload")

/-! ## The row -/

def bodyFetchStatusForMessage (record : GmailMessageRecord) : BodyFetchStatus :=
  if payloadHasBodyData record.rawPayload || Text.truthy record.htmlRenderDocument ||
      Text.truthy record.htmlBodySanitized then
    .fetched
  else .missing

def paramsBodyFetchStatus (record : GmailMessageRecord) : BodyFetchStatus :=
  record.bodyFetchStatus.getD (bodyFetchStatusForMessage record)

/-- `descriptors_ready`. -/
def paramsDescriptorsReady (record : GmailMessageRecord) : Bool :=
  record.attachmentDescriptorsReady || paramsBodyFetchStatus record = .fetched

/-- `attachment_descriptors`: those of the record, or else those of its payload. -/
def paramsDescriptors (gmailAttachmentDescriptors : Json → List Json)
    (record : GmailMessageRecord) : List Json :=
  if record.attachmentDescriptors.isEmpty && record.rawPayload.truthy then
    gmailAttachmentDescriptors record.rawPayload
  else record.attachmentDescriptors

def messageParams (gmailAttachmentDescriptors : Json → List Json)
    (now : String) (record : GmailMessageRecord) : GmailMessage where
  gmailThreadId := record.gmailThreadId
  historyId := record.historyId
  labelIds := record.labelIds
  internalDate := record.internalDate
  subject := record.subject
  sender := record.sender
  recipients := record.recipients.dumps
  headers := record.headers.dumps
  snippet := record.snippet
  rawPayload := record.rawPayload.dumps
  htmlBodySanitized := record.htmlBodySanitized
  htmlRenderDocument := record.htmlRenderDocument
  textBody := record.textBody
  attachmentDescriptors := Json.dumps (.list (paramsDescriptors gmailAttachmentDescriptors record))
  attachmentDescriptorsReady := paramsDescriptorsReady record
  extractedSignals := record.extractedSignals.dumps
  bodyHash := record.bodyHash
  bodyFetchStatus := paramsBodyFetchStatus record
  bodyFetchedAt :=
    if paramsBodyFetchStatus record = .fetched then some (record.bodyFetchedAt.getD now)
    else record.bodyFetchedAt
  bodyFetchError := record.bodyFetchError
  renderDocBytes :=
    if record.renderDocBytes = 0 then (record.htmlRenderDocument.getD "").length
    else record.renderDocBytes
  aiTitle := record.aiTitle
  aiTitleGeneratedAt := record.aiTitleGeneratedAt
  contentRevision := (max 1 record.contentRevision).toNat

/-! ## Metadata-only records -/

structure MetadataOnly (record : GmailMessageRecord) : Prop where
  noBodyData : payloadHasBodyData record.rawPayload = false
  noRenderDocument : record.htmlRenderDocument = none
  noSanitized : record.htmlBodySanitized = none
  noText : record.textBody = none
  descriptorsNotReady : paramsDescriptorsReady record = false

variable {record : GmailMessageRecord}

theorem MetadataOnly.status_ne (h : MetadataOnly record) :
    paramsBodyFetchStatus record ≠ .fetched := by
  intro hfetched
  have hready := h.descriptorsNotReady
  simp [paramsDescriptorsReady, hfetched] at hready

theorem MetadataOnly.bringsBody (h : MetadataOnly record)
    (gmailAttachmentDescriptors : Json → List Json) (now : String) :
    bringsBody (messageParams gmailAttachmentDescriptors now record) = false := by
  have hstatus := h.status_ne
  simp [Messages.bringsBody, messageParams, hstatus, h.noRenderDocument, h.noSanitized, h.noText]

end ElectronicMail.Messages
