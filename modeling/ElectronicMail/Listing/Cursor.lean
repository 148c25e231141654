import ElectronicMail.Foundations.Json
import ElectronicMail.Foundations.Text
import ElectronicMail.Foundations.Timestamp

/-!
# Mailbox labels and cursors

`_normalized_mailbox_label`, `_mailbox_label_clause` and the two cursor formats. A
cursor is kept as the dictionary that is dumped and encoded; reading the text back
gives the dictionary again. `decodeMailboxCursorState` makes the checks of
`_decode_mailbox_cursor_state`, and the two round trips say that it accepts what the
encoders write.
-/

namespace ElectronicMail.Listing

open Foundations

/-! ## Labels -/

def mailboxLabels : List String :=
  ["inbox", "sent", "drafts", "spam", "trash", "archive", "starred", "all"]

/-- `_normalized_mailbox_label`. No letter beyond ASCII is lowered into one of the
labels, so `lower` decides as the source language does. -/
def normalizedMailboxLabel (label : String) : String :=
  let normalized := Text.lower (Text.strip label)
  if normalized ∈ mailboxLabels then normalized else "inbox"

theorem normalizedMailboxLabel_mem (label : String) :
    normalizedMailboxLabel label ∈ mailboxLabels := by
  simp only [normalizedMailboxLabel]
  split
  · assumption
  · decide

theorem normalizedMailboxLabel_of_mem {label : String} (h : label ∈ mailboxLabels) :
    normalizedMailboxLabel label = label := by
  revert label
  decide

@[simp] theorem normalizedMailboxLabel_idem (label : String) :
    normalizedMailboxLabel (normalizedMailboxLabel label) = normalizedMailboxLabel label :=
  normalizedMailboxLabel_of_mem (normalizedMailboxLabel_mem label)

/-- `_mailbox_label_clause` on the label ids of a message. -/
def mailboxLabelClause (label : String) (labelIds : List String) : Bool :=
  if label = "all" then !labelIds.contains "SPAM" && !labelIds.contains "TRASH"
  else if label = "inbox" then labelIds.contains "INBOX"
  else if label = "sent" then labelIds.contains "SENT"
  else if label = "drafts" then labelIds.contains "DRAFT"
  else if label = "spam" then labelIds.contains "SPAM"
  else if label = "trash" then labelIds.contains "TRASH"
  else if label = "starred" then labelIds.contains "STARRED"
  else if label = "archive" then
    !labelIds.contains "INBOX" && !labelIds.contains "SENT" && !labelIds.contains "DRAFT" &&
      !labelIds.contains "SPAM" && !labelIds.contains "TRASH"
  else true

/-! ## Cursors -/

structure MailboxCursorError where
  message : String

def invalidCursor : MailboxCursorError := ⟨"Invalid mailbox cursor"⟩

def expiredCursor : MailboxCursorError := ⟨"Mailbox cursor expired; reload this mailbox"⟩

/-- `_MailboxCursorState`, by its mode. -/
inductive CursorState where
  | date (threadKey : String) (latestAt : Timestamp)
  | gmailOrder (threadKey label generationId : String) (position : Int)

/-- The dictionary of `encode_mailbox_cursor`. -/
def encodeMailboxCursor (latestAt threadKey : String) : Json :=
  .dict [("latest_at", .text latestAt), ("thread_key", .text threadKey)]

/-- The dictionary of `encode_gmail_order_cursor`. -/
def encodeGmailOrderCursor (label generationId : String) (position : Int) (threadKey : String) :
    Json :=
  .dict [("v", .number 2), ("mode", .text "gmail_order"),
    ("label", .text (normalizedMailboxLabel label)), ("generation_id", .text generationId),
    ("position", .number position), ("thread_key", .text threadKey)]

/-- `str(value)` of a value without items. -/
def strOf : Json → Option String
  | .null => some "None"
  | .bool value => some (if value then "True" else "False")
  | .number value => some (toString value)
  | .text value => some value
  | .list _ => none
  | .dict _ => none

/-- `int(value)` of a number. -/
def intOf : Json → Option Int
  | .number value => some value
  | .bool value => some (if value then 1 else 0)
  | _ => none

def isGmailOrderMode : Json → Bool
  | .text mode => mode = "gmail_order"
  | _ => false

def isVersionTwo : Json → Bool
  | .number version => version = 2
  | _ => false

def decodePayload (payload : Json) : Option CursorState := do
  let threadKey ← (payload.item "thread_key").bind strOf
  if isGmailOrderMode (payload.get "mode") then
    let label ← (payload.item "label").bind strOf
    let generationId ← (payload.item "generation_id").bind strOf
    let position ← (payload.item "position").bind intOf
    if !isVersionTwo (payload.get "v") || position < 0 then none
    else if label ≠ normalizedMailboxLabel label then none
    else if threadKey = "" ∨ generationId = "" then none
    else some (.gmailOrder threadKey label generationId position)
  else
    let latestAt ← (payload.item "latest_at").bind strOf
    let parsed ← Timestamp.fromisoformat (Timestamp.replaceZulu latestAt.toList)
    if latestAt = "" ∨ threadKey = "" then none
    else some (.date threadKey parsed)

/-- `_decode_mailbox_cursor_state`: whatever fails is an invalid cursor. -/
def decodeMailboxCursorState (payload : Json) : Except MailboxCursorError CursorState :=
  match decodePayload payload with
  | none => .error invalidCursor
  | some state => .ok state

theorem isoformat_ne_empty (t : Timestamp) : t.isoformat ≠ "" := by
  intro h
  have hchars : t.isoChars = [] := by
    rw [Timestamp.isoformat] at h
    rw [← String.toList_ofList (l := t.isoChars), h]
    rfl
  have hread := Timestamp.fromisoformat_isoChars t
  rw [hchars] at hread
  cases hread

theorem decode_encodeMailboxCursor (t : Timestamp) {threadKey : String} (hkey : threadKey ≠ "") :
    decodeMailboxCursorState (encodeMailboxCursor t.isoformat threadKey) =
      .ok (.date threadKey t) := by
  have hparsed : Timestamp.fromisoformat (Timestamp.replaceZulu t.isoformat.toList) = some t := by
    rw [Timestamp.isoformat, String.toList_ofList,
      Timestamp.replaceZulu_eq_self (Timestamp.zulu_not_mem_isoChars t),
      Timestamp.fromisoformat_isoChars]
  simp [decodeMailboxCursorState, decodePayload, encodeMailboxCursor, Json.item, Json.get,
    List.lookup_cons, strOf, isGmailOrderMode, hparsed, isoformat_ne_empty, hkey]

theorem decode_encodeGmailOrderCursor (label : String) {generationId threadKey : String}
    {position : Int} (hgeneration : generationId ≠ "") (hkey : threadKey ≠ "")
    (hposition : 0 ≤ position) :
    decodeMailboxCursorState (encodeGmailOrderCursor label generationId position threadKey) =
      .ok (.gmailOrder threadKey (normalizedMailboxLabel label) generationId position) := by
  simp [decodeMailboxCursorState, decodePayload, encodeGmailOrderCursor, Json.item, Json.get,
    List.lookup_cons, strOf, intOf, isGmailOrderMode, isVersionTwo, hgeneration, hkey,
    Int.not_lt.2 hposition]

end ElectronicMail.Listing
