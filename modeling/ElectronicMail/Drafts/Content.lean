import ElectronicMail.Drafts.Row
import ElectronicMail.Foundations.Text

/-!
# The content of a draft

What `save_draft` makes of a request and of what it has read from Gmail: the effective
content, from which the raw message is built, and the hash that the row keeps of it.

Validators and digests are fields of `DraftCodec`; attachments carry their decoded bytes.
`DigestFacts` states what the code relies on: the hexadecimal digest of the canonical JSON
tells payloads apart. The preimage of `body_hash` has line breaks, which such a JSON text
has not (`BodyHashApart`).
-/

namespace ElectronicMail.Drafts

/-- `Literal["reply", "reply_all", "forward"]`. -/
inductive ResponseMode where
  | reply
  | replyAll
  | forward
  deriving DecidableEq

structure Attachment where
  filename : String
  mimeType : String
  data : List UInt8
  deriving DecidableEq

structure ThreadHeaders where
  inReplyTo : Option String
  references : Option String
  deriving DecidableEq

/-- The fields that `_raw_message_from_fields` builds the message from. -/
structure DraftContent where
  toAddresses : List String
  ccAddresses : List String
  bccAddresses : List String
  subject : String
  bodyText : String
  bodyHtml : Option String
  headers : ThreadHeaders
  attachments : List Attachment
  deriving DecidableEq

structure MailDraftSaveRequest where
  clientDraftId : String
  gmailDraftId : Option String
  gmailThreadId : Option String
  toAddresses : List String
  ccAddresses : List String
  bccAddresses : List String
  subject : String
  bodyText : String
  bodyHtml : Option String
  attachments : Option (List Attachment)
  retainedAttachmentIds : Option (List String)
  responseMode : Option ResponseMode
  mailboxThreadId : Option String
  sourceMessageId : Option String
  includeQuotedOriginal : Bool
  includeOriginalAttachments : Bool
  deriving DecidableEq

/-- What is read of a Gmail message that is parsed to a `GmailMessageRecord`. -/
structure DraftMessage where
  messageId : String
  gmailThreadId : Option String
  headers : List (String × String)
  bodyHash : String
  deriving DecidableEq

structure PreparedResponseMessage where
  content : DraftContent
  gmailThreadId : Option String

/-- What `save_draft` has read before it knows the content: the message of the Gmail
draft, its retained attachments, and the prepared response, `none` where preparing it
raised `ValueError`. -/
structure DraftReads where
  message : Option DraftMessage
  retained : List Attachment
  response : Option PreparedResponseMessage

/-- `effective_*` of `save_draft`. -/
structure EffectiveDraft where
  content : DraftContent
  gmailThreadId : Option String
  deriving DecidableEq

structure AttachmentDigest where
  filename : String
  mimeType : String
  sha256 : String
  deriving DecidableEq

/-- `response_context` of the hash payload. -/
structure ResponseContext where
  responseMode : ResponseMode
  mailboxThreadId : Option String
  sourceMessageId : Option String
  includeQuotedOriginal : Bool
  includeOriginalAttachments : Bool
  deriving DecidableEq

/-- The payload of `_draft_content_hash`. -/
structure HashPayload where
  toAddresses : List String
  ccAddresses : List String
  bccAddresses : List String
  subject : String
  bodyText : String
  bodyHtml : Option String
  gmailThreadId : Option String
  attachments : List AttachmentDigest
  headers : ThreadHeaders
  responseContext : Option ResponseContext
  deriving DecidableEq

structure DraftCodec where
  /-- `_validated_addresses`, `none` for `ValueError`. -/
  validatedAddresses : List String → Option (List String)
  /-- `_validate_subject`. -/
  validSubject : String → Bool
  /-- `_validated_attachments`, `none` for `ValueError`. -/
  validatedAttachments : List Attachment → Option (List Attachment)
  /-- `sha256(data).hexdigest()`. -/
  fileDigest : List UInt8 → String
  /-- `sha256` of the canonical JSON of the payload. -/
  payloadDigest : HashPayload → String

/-- A character of `hexdigest()`. -/
def isHexDigit (c : Char) : Bool := c.isDigit || ('a' ≤ c && c ≤ 'f')

structure DraftCodec.DigestFacts (codec : DraftCodec) : Prop where
  fileDigest_injective : Function.Injective codec.fileDigest
  payloadDigest_injective : Function.Injective codec.payloadDigest
  payloadDigest_hex : ∀ payload, ∀ c ∈ (codec.payloadDigest payload).toList, isHexDigit c = true

/-- The `body_hash` of a message is a digest of something else than a payload. -/
structure DraftCodec.BodyHashApart (codec : DraftCodec) (bodyHash : String) : Prop where
  hex : ∀ c ∈ bodyHash.toList, isHexDigit c = true
  apart : ∀ payload, bodyHash ≠ codec.payloadDigest payload

/-! ## The effective content -/

/-- `text or None`. -/
def given (text : Option String) : Option String := text.filter fun t => t ≠ ""

def DraftMessage.header (message : DraftMessage) (lower canonical : String) : Option String :=
  (given (message.headers.lookup lower)).or (given (message.headers.lookup canonical))

def preservedThreadHeaders : Option DraftMessage → ThreadHeaders
  | none => ⟨none, none⟩
  | some message =>
    ⟨message.header "in-reply-to" "In-Reply-To", message.header "references" "References"⟩

def knownThreadId (message : Option DraftMessage) (existing : Option ClientDraft) : Option String :=
  (given (message.bind DraftMessage.gmailThreadId)).or (existing.bind ClientDraft.gmailThreadId)

/-- The effective content of a request; `none` where `save_draft` meets a `ValueError`. -/
def effectiveDraft (codec : DraftCodec) (request : MailDraftSaveRequest)
    (existing : Option ClientDraft) (gmailDraftId : Option String) (reads : DraftReads) :
    Option EffectiveDraft := do
  let toAddresses ← codec.validatedAddresses request.toAddresses
  let ccAddresses ← codec.validatedAddresses request.ccAddresses
  let bccAddresses ← codec.validatedAddresses request.bccAddresses
  let uploaded ← codec.validatedAttachments (request.attachments.getD [])
  let retained :=
    if gmailDraftId.isSome ∧ (request.attachments = none ∨ request.retainedAttachmentIds ≠ none)
    then reads.retained else []
  let attachments ← codec.validatedAttachments (retained ++ uploaded)
  let message := if gmailDraftId.isSome then reads.message else none
  match request.responseMode with
  | none =>
    some
      { content :=
          { toAddresses := toAddresses
            ccAddresses := ccAddresses
            bccAddresses := bccAddresses
            subject := request.subject
            bodyText := request.bodyText
            bodyHtml := request.bodyHtml
            headers := preservedThreadHeaders message
            attachments := attachments }
        gmailThreadId := (given request.gmailThreadId).or (knownThreadId message existing) }
  | some mode => do
    let _ ← given request.mailboxThreadId
    let prepared ← reads.response
    some
      { content := prepared.content
        -- A forward keeps the thread that Gmail assigned when it was created.
        gmailThreadId :=
          if mode = .forward ∧ gmailDraftId.isSome then knownThreadId message existing
          else prepared.gmailThreadId }

/-! ## The content hash -/

def MailDraftSaveRequest.responseContext (request : MailDraftSaveRequest) :
    Option ResponseContext :=
  request.responseMode.map fun mode =>
    ⟨mode, request.mailboxThreadId, request.sourceMessageId, request.includeQuotedOriginal,
      request.includeOriginalAttachments⟩

def hashPayload (codec : DraftCodec) (request : MailDraftSaveRequest)
    (effective : EffectiveDraft) : HashPayload where
  toAddresses := effective.content.toAddresses
  ccAddresses := effective.content.ccAddresses
  bccAddresses := effective.content.bccAddresses
  subject := effective.content.subject
  bodyText := effective.content.bodyText
  bodyHtml := effective.content.bodyHtml
  gmailThreadId := effective.gmailThreadId
  attachments := effective.content.attachments.map fun item =>
    ⟨item.filename, item.mimeType, codec.fileDigest item.data⟩
  headers := effective.content.headers
  responseContext := request.responseContext

/-- `_FORWARD_ORIGINALS_HASH_PREFIX` with the state and the separator. -/
def forwardOriginalsMark (included : Bool) : String :=
  if included then "forward-originals:included:" else "forward-originals:excluded:"

def draftContentHash (codec : DraftCodec) (request : MailDraftSaveRequest)
    (effective : EffectiveDraft) : String :=
  let digest := codec.payloadDigest (hashPayload codec request effective)
  if request.responseMode = some .forward then
    forwardOriginalsMark request.includeOriginalAttachments ++ digest
  else digest

variable {request request' : MailDraftSaveRequest} {effective effective' : EffectiveDraft}

section Digest

variable {codec : DraftCodec}

theorem forwardOriginalsMark_length (included : Bool) :
    (forwardOriginalsMark included).toList.length = 27 := by
  cases included <;> decide

theorem mark_append_ne_hex (included : Bool) (digest : String) {text : String}
    (htext : ∀ c ∈ text.toList, isHexDigit c = true) :
    forwardOriginalsMark included ++ digest ≠ text := by
  rintro rfl
  have hmem : 'o' ∈ (forwardOriginalsMark included ++ digest).toList := by
    rw [String.toList_append]
    exact List.mem_append_left _ (by cases included <;> decide)
  exact absurd (htext 'o' hmem) (by decide)

theorem hashPayload_eq (facts : codec.DigestFacts)
    (h : draftContentHash codec request effective = draftContentHash codec request' effective') :
    hashPayload codec request effective = hashPayload codec request' effective' := by
  have hhex := facts.payloadDigest_hex
  apply facts.payloadDigest_injective
  simp only [draftContentHash] at h
  split at h
  · split at h
    · have htext := congrArg String.toList h
      rw [String.toList_append, String.toList_append] at htext
      exact String.toList_injective (List.append_inj_right htext
        (by rw [forwardOriginalsMark_length, forwardOriginalsMark_length]))
    · exact absurd h (mark_append_ne_hex _ _ (hhex _))
  · split at h
    · exact absurd h.symm (mark_append_ne_hex _ _ (hhex _))
    · exact h

theorem content_eq_of_hashPayload (facts : codec.DigestFacts)
    (h : hashPayload codec request effective = hashPayload codec request' effective') :
    effective.content = effective'.content := by
  obtain ⟨⟨recipients, cc, bcc, subject, bodyText, bodyHtml, headers, attachments⟩, thread⟩ := effective
  obtain ⟨⟨recipients', cc', bcc', subject', bodyText', bodyHtml', headers', attachments'⟩, thread'⟩ :=
    effective'
  simp only [hashPayload, HashPayload.mk.injEq] at h
  obtain ⟨hto, hcc, hbcc, hsubject, htext, hhtml, -, hattachments, hheaders, -⟩ := h
  have hinjective : Function.Injective fun item : Attachment =>
      (⟨item.filename, item.mimeType, codec.fileDigest item.data⟩ : AttachmentDigest) := by
    rintro ⟨filename, mimeType, data⟩ ⟨filename', mimeType', data'⟩ heq
    simp only [AttachmentDigest.mk.injEq] at heq
    rw [heq.1, heq.2.1, facts.fileDigest_injective heq.2.2]
  rw [hto, hcc, hbcc, hsubject, htext, hhtml, hheaders, hinjective.list_map hattachments]

/-- **Equal hashes, equal contents.** -/
theorem content_eq_of_draftContentHash (facts : codec.DigestFacts)
    (h : draftContentHash codec request effective = draftContentHash codec request' effective') :
    effective.content = effective'.content :=
  content_eq_of_hashPayload facts (hashPayload_eq facts h)

theorem bodyHash_ne_draftContentHash {bodyHash : String} (h : codec.BodyHashApart bodyHash)
    (request : MailDraftSaveRequest) (effective : EffectiveDraft) :
    bodyHash ≠ draftContentHash codec request effective := by
  unfold draftContentHash
  split
  · exact (mark_append_ne_hex _ _ h.hex).symm
  · exact h.apart _

end Digest

end ElectronicMail.Drafts
