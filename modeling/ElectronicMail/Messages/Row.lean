import ElectronicMail.Foundations.Text

/-!
# Rows of `gmail_messages` and their merge

The columns of a message row and the assignments of
`_upsert_gmail_messages_on_connection` on a conflict: `mergeRow` is the `SET` list
and `revisionTest` the hand-written disjunction that decides whether
`content_revision` goes up. The `CASE` over two history ids that the statement
repeats four times is `caseNewerHistory`; `_message_params` supplies `excluded`.

JSON columns are kept as their text, except the labels and their order, which are a
list of strings.
-/

namespace ElectronicMail.Messages

/-- The values of `gmail_messages.body_fetch_status`. -/
inductive BodyFetchStatus where
  | missing
  | pending
  | failed
  | fetched
  | unavailable
  deriving DecidableEq

/-- `body_fetch_status IN ('fetched', 'unavailable')`. -/
def BodyFetchStatus.isReady : BodyFetchStatus → Bool
  | .fetched => true
  | .unavailable => true
  | _ => false

@[simp] theorem BodyFetchStatus.isReady_missing : isReady .missing = false := rfl
@[simp] theorem BodyFetchStatus.isReady_pending : isReady .pending = false := rfl
@[simp] theorem BodyFetchStatus.isReady_failed : isReady .failed = false := rfl
@[simp] theorem BodyFetchStatus.isReady_fetched : isReady .fetched = true := rfl
@[simp] theorem BodyFetchStatus.isReady_unavailable : isReady .unavailable = true := rfl

/-- The columns of a row of `gmail_messages`; also the `excluded` row of an upsert. -/
structure GmailMessage where
  gmailThreadId : Option String
  historyId : Option String
  labelIds : List String
  internalDate : Option String
  subject : Option String
  sender : Option String
  recipients : String
  headers : String
  snippet : Option String
  rawPayload : String
  htmlBodySanitized : Option String
  htmlRenderDocument : Option String
  textBody : Option String
  attachmentDescriptors : String
  attachmentDescriptorsReady : Bool
  extractedSignals : String
  bodyHash : String
  bodyFetchStatus : BodyFetchStatus
  bodyFetchedAt : Option String
  bodyFetchError : Option String
  renderDocBytes : Nat
  aiTitle : Option String
  aiTitleGeneratedAt : Option String
  contentRevision : Nat
  deriving DecidableEq

/-! ## History ids -/

/-- `history_id ~ '^[0-9]+$'`. -/
def isDecimal (text : String) : Bool := !text.toList.isEmpty && text.toList.all Char.isDigit

/-- `history_id::NUMERIC` of a string of digits. -/
def decimalValue (text : String) : Nat :=
  text.toList.foldl (fun value c => 10 * value + (c.toNat - '0'.toNat)) 0

/-- The number a history id stands for, unless it is null or not numeric. -/
def numericHistoryId : Option String → Option Nat
  | none => none
  | some text => if isDecimal text then some (decimalValue text) else none

/-- The `CASE` over the history ids of the two rows: `taken` if the excluded id is
numeric and the stored one is not or is smaller, else `kept`. -/
def caseNewerHistory {α : Type} (stored excluded : Option String) (kept taken : α) : α :=
  match numericHistoryId excluded with
  | none => kept
  | some new =>
    match numericHistoryId stored with
    | none => taken
    | some old => if old < new then taken else kept

/-! ## The merge -/

/-- `body_fetch_status` after a conflict. -/
def mergedBodyFetchStatus (stored excluded : BodyFetchStatus) : BodyFetchStatus :=
  if excluded = .fetched then .fetched
  else if stored.isReady then stored
  else excluded

def bringsBody (excluded : GmailMessage) : Bool :=
  excluded.bodyFetchStatus = .fetched || excluded.htmlRenderDocument.isSome ||
    excluded.htmlBodySanitized.isSome || excluded.textBody.isSome

/-- The condition under which `content_revision` goes up, as the statement has it. -/
def revisionTest (stored excluded : GmailMessage) : Prop :=
  excluded.gmailThreadId ≠ stored.gmailThreadId ∨
  excluded.internalDate ≠ stored.internalDate ∨
  excluded.subject ≠ stored.subject ∨
  excluded.sender ≠ stored.sender ∨
  excluded.recipients ≠ stored.recipients ∨
  excluded.headers ≠ stored.headers ∨
  excluded.snippet ≠ stored.snippet ∨
  excluded.bodyHash ≠ stored.bodyHash ∨
  caseNewerHistory stored.historyId excluded.historyId stored.historyId excluded.historyId ≠
    stored.historyId ∨
  caseNewerHistory stored.historyId excluded.historyId stored.labelIds excluded.labelIds ≠
    stored.labelIds ∨
  (if bringsBody excluded then excluded.rawPayload else stored.rawPayload) ≠ stored.rawPayload ∨
  excluded.htmlRenderDocument.or stored.htmlRenderDocument ≠ stored.htmlRenderDocument ∨
  excluded.htmlBodySanitized.or stored.htmlBodySanitized ≠ stored.htmlBodySanitized ∨
  excluded.textBody.or stored.textBody ≠ stored.textBody ∨
  (if excluded.attachmentDescriptorsReady then excluded.attachmentDescriptors
    else stored.attachmentDescriptors) ≠ stored.attachmentDescriptors ∨
  mergedBodyFetchStatus stored.bodyFetchStatus excluded.bodyFetchStatus ≠ stored.bodyFetchStatus ∨
  (excluded.bodyFetchStatus = .fetched ∧ stored.bodyFetchStatus ≠ .fetched) ∨
  (excluded.htmlRenderDocument ≠ none ∧ excluded.htmlRenderDocument ≠ stored.htmlRenderDocument) ∨
  (excluded.htmlBodySanitized ≠ none ∧ excluded.htmlBodySanitized ≠ stored.htmlBodySanitized) ∨
  (excluded.textBody ≠ none ∧ excluded.textBody ≠ stored.textBody)

instance (stored excluded : GmailMessage) : Decidable (revisionTest stored excluded) :=
  inferInstanceAs (Decidable (_ ∨ _))

/-- The row after `ON CONFLICT … DO UPDATE`. -/
def mergeRow (now : String) (stored excluded : GmailMessage) : GmailMessage where
  gmailThreadId := excluded.gmailThreadId
  historyId :=
    caseNewerHistory stored.historyId excluded.historyId stored.historyId excluded.historyId
  labelIds :=
    caseNewerHistory stored.historyId excluded.historyId stored.labelIds excluded.labelIds
  internalDate := excluded.internalDate
  subject := excluded.subject
  sender := excluded.sender
  recipients := excluded.recipients
  headers := excluded.headers
  snippet := excluded.snippet
  rawPayload := if bringsBody excluded then excluded.rawPayload else stored.rawPayload
  htmlBodySanitized := excluded.htmlBodySanitized.or stored.htmlBodySanitized
  htmlRenderDocument := excluded.htmlRenderDocument.or stored.htmlRenderDocument
  textBody := excluded.textBody.or stored.textBody
  attachmentDescriptors :=
    if excluded.attachmentDescriptorsReady then excluded.attachmentDescriptors
    else stored.attachmentDescriptors
  attachmentDescriptorsReady :=
    stored.attachmentDescriptorsReady || excluded.attachmentDescriptorsReady
  extractedSignals := excluded.extractedSignals
  bodyHash := excluded.bodyHash
  bodyFetchStatus := mergedBodyFetchStatus stored.bodyFetchStatus excluded.bodyFetchStatus
  bodyFetchedAt :=
    if excluded.bodyFetchStatus = .fetched then some (excluded.bodyFetchedAt.getD now)
    else stored.bodyFetchedAt
  bodyFetchError :=
    match excluded.bodyFetchStatus with
    | .fetched => none
    | .failed => excluded.bodyFetchError
    | _ => stored.bodyFetchError
  renderDocBytes := max stored.renderDocBytes excluded.renderDocBytes
  aiTitle := stored.aiTitle.or excluded.aiTitle
  aiTitleGeneratedAt := stored.aiTitleGeneratedAt.or excluded.aiTitleGeneratedAt
  contentRevision :=
    if revisionTest stored excluded then stored.contentRevision + 1
    else stored.contentRevision

def upsertRow (now : String) (stored : Option GmailMessage) (excluded : GmailMessage) :
    GmailMessage :=
  match stored with
  | none => excluded
  | some row => mergeRow now row excluded

end ElectronicMail.Messages
