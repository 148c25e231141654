import Mathlib.Data.List.MinMax
import Mathlib.Data.String.Basic
import ElectronicMail.Accounts.ReplyReplay

/-!
# Replays of a reply of the primary account

`send_reply` of `mailbox_sends.py` makes its message anew from the thread as it is stored, and
`upsert_pending_send` compares the hash of it with the stored one. `primary_replay_iff` says for
exactly which changes of the thread a request that is sent again returns its record.
-/

namespace ElectronicMail.Accounts

open Foundations
open Foundations.Table
open Foundations.Text (strip truthy)
open Recipients (Fields)
open Sends (PendingSend)

/-! ## prepare_response_message -/

/-- The library, and the `sha256` of what a base64 text decodes to. -/
structure SendLibrary extends ReplyLibrary where
  contentHash : String → String

structure StoredMessage extends ThreadMessage where
  gmailThreadId : String
  deriving DecidableEq

/-- `MailReplyRequest`, with the field that only the primary account uses. -/
structure PrimaryReplyRequest extends MailReplyRequest where
  includeOriginalAttachments : Bool

/-- A call of `send_reply`, and what it meets: whether `_can_send`, the stored thread, and the
attachments of a message as Gmail has them, where they can be fetched. -/
structure PrimaryReplyCall where
  mailboxThreadId : String
  request : PrimaryReplyRequest
  canSend : Bool
  userEmail : String
  messages : List StoredMessage
  originals : StoredMessage → Except String (List ReplyAttachment)
  serverSendId : String

/-- The message that `_reply_context` is about. -/
def PrimaryReplyCall.source (c : PrimaryReplyCall) : Except String StoredMessage :=
  match c.messages.argmax fun m => m.sortKey with
  | none => .error "Email thread not found."
  | some last =>
    match c.request.sourceMessageId with
    | none => .ok last
    | some id =>
      match c.messages.find? fun m => m.messageId = id with
      | none => .error "Selected email is not part of this thread."
      | some m => .ok m

section Prepared

variable (lib : SendLibrary)

/-- `_attachment_fingerprint`. -/
def SendLibrary.fingerprint (attachment : List (String × String)) : String × List Char × String :=
  ((attachment.lookup "filename").getD "",
    lib.lower ((attachment.lookup "mime_type").getD "application/octet-stream").toList,
    lib.contentHash ((attachment.lookup "data_base64").getD ""))

/-- `SimpleAttachment(**item)`. -/
def attachmentValue (attachment : List (String × String)) : ReplyAttachment where
  filename := (attachment.lookup "filename").getD ""
  mimeType := (attachment.lookup "mime_type").getD ""
  dataBase64 := (attachment.lookup "data_base64").getD ""

/-- `_reconcile_original_attachments`, with `include`. -/
def SendLibrary.reconcileOriginalAttachments (attachments originals : List (List (String × String))) :
    Except String (List (List (String × String))) :=
  let merged := originals.foldl (fun merged item =>
    if (merged.map lib.fingerprint).contains (lib.fingerprint item) then merged
    else merged ++ [item]) attachments
  lib.validatedAttachments (merged.map attachmentValue)

/-- `prepared_attachments`. -/
def PrimaryReplyCall.attachments (c : PrimaryReplyCall) (source : StoredMessage) :
    Except String (List (List (String × String))) := do
  let attachments ← lib.validatedAttachments c.request.attachments
  if c.request.forwards && c.request.includeOriginalAttachments then
    let originals ← c.originals source
    let originals ← lib.validatedAttachments originals
    lib.reconcileOriginalAttachments attachments originals
  else return attachments

def PrimaryReplyCall.fields (c : PrimaryReplyCall) (source : StoredMessage) :
    Except String Fields :=
  lib.fields (.response c.request.mode
    { «to» := c.request.to.map String.toList
      cc := c.request.cc.map String.toList
      bcc := c.request.bcc.map String.toList
      explicitTo := c.request.toSet
      explicitCc := c.request.ccSet }
    (source.source c.userEmail))

/-- `prepared_body_text` and `prepared_body_html`. -/
def PrimaryReplyRequest.preparedBodies (request : PrimaryReplyRequest) (source : ThreadMessage) :
    String × Option String :=
  let bodyText := strip request.bodyText
  match request.quotes source with
  | some (quotedText, quotedHtml) =>
    let authored := if truthy request.bodyHtml then orEmpty request.bodyHtml else divOf bodyText
    (rstrip bodyText ++ quotedText, some (authored ++ quotedHtml))
  | none => (bodyText, request.bodyHtml)

/-- What is handed to `upsert_pending_send`. -/
def PrimaryReplyCall.preparedFor (c : PrimaryReplyCall) (source : StoredMessage) (fields : Fields)
    (attachments : List (List (String × String))) : SendRequest where
  sendType := sendTypeOf c.request.mode
  mailboxThreadId := some c.mailboxThreadId
  gmailThreadId := if c.request.forwards then none else some source.gmailThreadId
  content :=
    { toJson := fields.to.map String.ofList
      ccJson := fields.cc.map String.ofList
      bccJson := fields.bcc.map String.ofList
      subject := lib.subjectOf c.request.toMailReplyRequest source.toThreadMessage
      bodyText := (c.request.preparedBodies source.toThreadMessage).1
      bodyHtml := (c.request.preparedBodies source.toThreadMessage).2
      headersJson := c.request.headersOf source.toThreadMessage
      attachmentsJson := attachments }

/-- `prepare_response_message`, as `send_reply` calls it. -/
def PrimaryReplyCall.prepared (c : PrimaryReplyCall) : Except String SendRequest := do
  let source ← c.source
  let fields ← c.fields lib source
  let attachments ← c.attachments lib source
  validateSubject (lib.subjectOf c.request.toMailReplyRequest source.toThreadMessage)
  return c.preparedFor lib source fields attachments

end Prepared

/-! ## send_reply -/

/-- A row of `gmail_pending_sends`, with the columns that a request is compared with. -/
structure SendRow where
  clientSendId : String
  serverSendId : String
  requestHash : String
  sendType : String
  mailboxThreadId : Option String
  createdAt : String
  pending : PendingSend
  deriving DecidableEq

def SendRow.matches (row : SendRow) (message : SendRequest) (createdAt : String) : Bool :=
  row.sendType = message.sendType && row.mailboxThreadId = message.mailboxThreadId &&
    row.pending.gmailThreadId = message.gmailThreadId && row.pending.content = message.content &&
    row.createdAt = createdAt

/-- `request_hash = CASE …`. -/
def SendRow.withHash (requestHash : String) (row : SendRow) : SendRow :=
  { row with requestHash := if row.requestHash = "" then requestHash else row.requestHash }

/-- `upsert_pending_send`, on the rows of one account, `none` where it raises
`MailSendIdempotencyConflict`. -/
def upsertPendingSend (digest : SendRequest → String → String) (serverSendId clientSendId : String)
    (message : SendRequest) (createdAt : String) (rows : List SendRow) :
    List SendRow × Option SendRow :=
  let requestHash := digest message createdAt
  match rowAt SendRow.clientSendId rows clientSendId with
  | none =>
    let row : SendRow := ⟨clientSendId, serverSendId, requestHash, message.sendType,
      message.mailboxThreadId, createdAt, .new message.gmailThreadId message.content⟩
    (rows ++ [row], some row)
  | some row =>
    if row.requestHash = requestHash ∨ row.requestHash = "" ∧ row.matches message createdAt then
      (updateWhere (fun row => row.clientSendId = clientSendId) (.withHash requestHash) rows,
        some (row.withHash requestHash))
    else (rows, none)

/-- How `send_reply` ends: `accepted` is the response made of a record after `_send_or_queue`. -/
inductive PrimaryOutcome where
  | reauthRequired
  | failed (error : String)
  | accepted (row : SendRow)
  | idempotencyConflict
  deriving DecidableEq

/-- `send_reply`, up to the delivery. -/
def sendPrimaryReply (lib : SendLibrary) (digest : SendRequest → String → String)
    (rows : List SendRow) (c : PrimaryReplyCall) : List SendRow × PrimaryOutcome :=
  if !c.canSend then (rows, .reauthRequired)
  else if strip c.request.bodyText = "" && !c.request.forwards then (rows, .failed "Write a reply.")
  else
    match c.prepared lib with
    | .error _ => (rows, .failed "Operation failed.")
    | .ok message =>
      let content := message.content
      if c.request.forwards && content.toJson.isEmpty then
        (rows, .failed "Add at least one recipient.")
      else if !c.request.forwards && (content.toJson ++ content.ccJson ++ content.bccJson).isEmpty
        then (rows, .failed "No reply recipient found.")
      else
        let upserted := upsertPendingSend digest c.serverSendId c.request.clientSendId message
          c.request.createdAt rows
        (upserted.1, upserted.2.elim .idempotencyConflict .accepted)

inductive SendEvent where
  | upsert (serverSendId clientSendId : String) (message : SendRequest) (createdAt : String)
  | deliver (serverSendId : String) (change : PendingSend → PendingSend)

def sendStep (digest : SendRequest → String → String) (rows : List SendRow) :
    SendEvent → List SendRow
  | .upsert serverSendId clientSendId message createdAt =>
    (upsertPendingSend digest serverSendId clientSendId message createdAt rows).1
  | .deliver serverSendId change =>
    updateWhere (fun row => row.serverSendId = serverSendId)
      (fun row => { row with pending := change row.pending }) rows

/-! ## Statement -/

structure PrimaryReplyCall.Repeats (c c' : PrimaryReplyCall) : Prop where
  mailboxThreadId : c'.mailboxThreadId = c.mailboxThreadId
  request : c'.request = c.request
  userEmail : c'.userEmail = c.userEmail

/-- The messages that the two calls answer are the same in what the reply is made of: the
recipients, the subject, the headers, the quote, the Gmail thread and the files. -/
structure SamePrepared (lib : SendLibrary) (c c' : PrimaryReplyCall) (m m' : StoredMessage) :
    Prop where
  fields : c'.fields lib m' = c.fields lib m
  subject : lib.subjectOf c.request.toMailReplyRequest m'.toThreadMessage =
    lib.subjectOf c.request.toMailReplyRequest m.toThreadMessage
  headers : c.request.headersOf m'.toThreadMessage = c.request.headersOf m.toThreadMessage
  quotes : c.request.quotes m'.toThreadMessage = c.request.quotes m.toThreadMessage
  thread : c.request.forwards = false → m'.gmailThreadId = m.gmailThreadId
  attachments : c'.attachments lib m' = c.attachments lib m

def AnswersAlike (lib : SendLibrary) (c c' : PrimaryReplyCall) : Prop :=
  ∃ m m', c.source = .ok m ∧ c'.source = .ok m' ∧ SamePrepared lib c c' m m'

def Replays (outcome : PrimaryOutcome) (rows : List SendRow) (clientSendId serverSendId : String) :
    Prop :=
  ∃ row ∈ rows, outcome = .accepted row ∧ row.clientSendId = clientSendId ∧
    row.serverSendId = serverSendId

/-! ## Messages -/

section Messages

variable {lib : SendLibrary} {c c' : PrimaryReplyCall} {message : SendRequest}

theorem prepared_eq_ok :
    c.prepared lib = .ok message ↔
      ∃ source fields attachments, c.source = .ok source ∧ c.fields lib source = .ok fields ∧
        c.attachments lib source = .ok attachments ∧
        validateSubject (lib.subjectOf c.request.toMailReplyRequest source.toThreadMessage) =
          .ok () ∧
        message = c.preparedFor lib source fields attachments := by
  unfold PrimaryReplyCall.prepared
  simp only [except_bind_eq_ok]
  constructor
  · rintro ⟨source, hsource, fields, hfields, attachments, hattachments, ⟨⟩, hsubject, hmessage⟩
    cases hmessage
    exact ⟨source, fields, attachments, hsource, hfields, hattachments, hsubject, rfl⟩
  · rintro ⟨source, fields, attachments, hsource, hfields, hattachments, hsubject, rfl⟩
    exact ⟨source, hsource, fields, hfields, attachments, hattachments, (), hsubject, rfl⟩

theorem preparedBodies_eq_iff {request : PrimaryReplyRequest} {m m' : ThreadMessage} :
    request.preparedBodies m' = request.preparedBodies m ↔
      request.quotes m' = request.quotes m := by
  unfold PrimaryReplyRequest.preparedBodies MailReplyRequest.quotes
  by_cases hquoted : request.includeQuotedOriginal = true
  · simp only [hquoted, if_true, Prod.mk.injEq, Option.some.injEq, String.append_right_inj]
  · simp only [hquoted, if_false, Bool.false_eq_true]

/-- **When the second call makes the message of the first.** -/
theorem prepared_again (hagain : c.Repeats c') (hmessage : c.prepared lib = .ok message) :
    c'.prepared lib = .ok message ↔ AnswersAlike lib c c' := by
  obtain ⟨source, fields, attachments, hsource, hfields, hattachments, hsubject, rfl⟩ :=
    prepared_eq_ok.1 hmessage
  constructor
  · intro hmessage'
    obtain ⟨source', fields', attachments', hsource', hfields', hattachments', -, heq⟩ :=
      prepared_eq_ok.1 hmessage'
    simp only [PrimaryReplyCall.preparedFor, SendRequest.mk.injEq, Sends.SendContent.mk.injEq,
      map_ofList_eq_iff, hagain.request] at heq
    obtain ⟨-, -, hthread, hto, hcc, hbcc, hsub, hbody, hhtml, hheaders, hfiles⟩ := heq
    refine ⟨source, source', hsource, hsource', ?_, hsub.symm, hheaders.symm, ?_, ?_, ?_⟩
    · rw [hfields, hfields', fields_eq_iff.2 ⟨hto.symm, hcc.symm, hbcc.symm⟩]
    · exact preparedBodies_eq_iff.1 (Prod.ext hbody.symm hhtml.symm)
    · intro hreply
      simpa [hreply] using hthread.symm
    · rw [hattachments, hattachments', hfiles]
  · rintro ⟨m, m', hm, hm', hsame⟩
    rw [hsource] at hm
    cases hm
    have hbodies := preparedBodies_eq_iff.2 hsame.quotes
    refine prepared_eq_ok.2 ⟨m', fields, attachments, hm', hsame.fields.trans hfields,
      hsame.attachments.trans hattachments, ?_, ?_⟩
    · rw [hagain.request, hsame.subject]
      exact hsubject
    · simp only [PrimaryReplyCall.preparedFor, hagain.request, hagain.mailboxThreadId, hbodies,
        hsame.subject, hsame.headers]
      cases hforwards : c.request.forwards with
      | true => rfl
      | false => rw [hsame.thread hforwards]

end Messages

/-! ## Rows -/

section Rows

variable {digest : SendRequest → String → String} {rows : List SendRow} {requestHash : String}
  {clientSendId serverSendId newId : String} {message : SendRequest} {createdAt : String}

structure RowKept (clientSendId serverSendId requestHash : String) (rows : List SendRow) : Prop where
  unique : (rows.map SendRow.clientSendId).Nodup
  row : ∃ row ∈ rows, row.clientSendId = clientSendId ∧ row.serverSendId = serverSendId ∧
    row.requestHash = requestHash

theorem unique_updateWhere {p : SendRow → Bool} {f : SendRow → SendRow}
    (hunique : (rows.map SendRow.clientSendId).Nodup)
    (hf : ∀ r, (f r).clientSendId = r.clientSendId) :
    ((updateWhere p f rows).map SendRow.clientSendId).Nodup := by
  rw [map_updateWhere fun r _ _ => hf r]
  exact hunique

variable {row : SendRow}

theorem unique_append (hunique : (rows.map SendRow.clientSendId).Nodup)
    (hnew : rowAt SendRow.clientSendId rows row.clientSendId = none) :
    ((rows ++ [row]).map SendRow.clientSendId).Nodup := by
  rw [List.map_append, List.nodup_append]
  refine ⟨hunique, List.nodup_singleton _, ?_⟩
  intro id hid other hother
  obtain ⟨r, hr, rfl⟩ := List.mem_map.1 hid
  rw [List.mem_singleton.1 hother]
  exact (rowAt_eq_none _).1 hnew r hr

theorem withHash_of_ne (h : row.requestHash ≠ "") : row.withHash requestHash = row := by
  simp [SendRow.withHash, h]

theorem upsert_kept (hhash : requestHash ≠ "")
    (h : RowKept clientSendId serverSendId requestHash rows) (newId otherId : String) :
    RowKept clientSendId serverSendId requestHash
      (upsertPendingSend digest newId otherId message createdAt rows).1 := by
  unfold upsertPendingSend
  cases hrow : rowAt SendRow.clientSendId rows otherId with
  | none =>
    obtain ⟨row, hmem, hrecord⟩ := h.row
    exact ⟨unique_append h.unique hrow, row, List.mem_append_left _ hmem, hrecord⟩
  | some =>
    dsimp only
    split
    · refine ⟨unique_updateWhere h.unique fun _ => rfl, exists_updateWhere h.row ?_⟩
      rintro r _ ⟨hclient, hserver, hr⟩
      rw [withHash_of_ne (hr ▸ hhash)]
      exact ⟨hclient, hserver, hr⟩
    · exact h

theorem upsert_first (hunique : (rows.map SendRow.clientSendId).Nodup)
    (h : (upsertPendingSend digest newId clientSendId message createdAt rows).2 = some row) :
    RowKept clientSendId row.serverSendId (digest message createdAt)
      (upsertPendingSend digest newId clientSendId message createdAt rows).1 := by
  unfold upsertPendingSend at h ⊢
  cases hrow : rowAt SendRow.clientSendId rows clientSendId with
  | none =>
    simp only [hrow] at h ⊢
    cases h
    exact ⟨unique_append hunique hrow, _, List.mem_append_right _ (List.mem_singleton_self _),
      rfl, rfl, rfl⟩
  | some found =>
    obtain ⟨hmem, hkey⟩ := rowAt_mem _ hrow
    simp only [hrow] at h ⊢
    split at h
    · rename_i hfits
      cases h
      rw [if_pos hfits]
      refine ⟨unique_updateWhere hunique fun _ => rfl, found.withHash _, ?_, hkey, rfl, ?_⟩
      · exact mem_updateWhere.2 ⟨found, hmem, by simp [hkey]⟩
      rcases hfits with hsame | ⟨hempty, -⟩
      · by_cases hempty : found.requestHash = ""
        · simp [SendRow.withHash, hempty]
        · rw [withHash_of_ne hempty]
          exact hsame
      · simp [SendRow.withHash, hempty]
    · cases h

theorem upsert_again (digest : SendRequest → String → String) (newId : String)
    (message : SendRequest) (createdAt : String) (hhash : requestHash ≠ "")
    (h : RowKept clientSendId serverSendId requestHash rows) :
    ∃ row ∈ rows, row.clientSendId = clientSendId ∧ row.serverSendId = serverSendId ∧
      (upsertPendingSend digest newId clientSendId message createdAt rows).2 =
        if requestHash = digest message createdAt then some row else none := by
  obtain ⟨row, hmem, hclient, hserver, hrow⟩ := h.row
  have hfound : rowAt SendRow.clientSendId rows clientSendId = some row := by
    rw [← hclient]
    exact rowAt_of_mem _ h.unique hmem
  refine ⟨row, hmem, hclient, hserver, ?_⟩
  subst hrow
  unfold upsertPendingSend
  simp only [hfound, hhash, false_and, or_false, withHash_of_ne hhash]
  split
  · rfl
  · rfl

theorem rowKept_step (digest : SendRequest → String → String) (hhash : requestHash ≠ "") (rows : List SendRow) (e : SendEvent)
    (h : RowKept clientSendId serverSendId requestHash rows) :
    RowKept clientSendId serverSendId requestHash (sendStep digest rows e) := by
  cases e with
  | upsert newId otherId => exact upsert_kept hhash h newId otherId
  | deliver =>
    exact ⟨unique_updateWhere h.unique fun _ => rfl, exists_updateWhere h.row fun r _ hr => hr⟩

end Rows

/-! ## Replays -/

section Replay

variable {lib : SendLibrary} {digest : SendRequest → String → String} {rows : List SendRow}
  {c : PrimaryReplyCall}

def PrimaryReplyRequest.Sendable (request : PrimaryReplyRequest) (message : SendRequest) : Prop :=
  ¬ (strip request.bodyText = "" && !request.forwards) ∧
    ¬ (request.forwards && message.content.toJson.isEmpty) ∧
    ¬ (!request.forwards && (message.content.toJson ++ message.content.ccJson ++
      message.content.bccJson).isEmpty)

def PrimaryReplyCall.upsert (digest : SendRequest → String → String) (c : PrimaryReplyCall)
    (message : SendRequest) (rows : List SendRow) : List SendRow × Option SendRow :=
  upsertPendingSend digest c.serverSendId c.request.clientSendId message c.request.createdAt rows

theorem sendPrimaryReply_of_message {message : SendRequest} (hcan : c.canSend = true)
    (hmessage : c.prepared lib = .ok message) (hsendable : c.request.Sendable message) :
    sendPrimaryReply lib digest rows c = ((c.upsert digest message rows).1,
      (c.upsert digest message rows).2.elim .idempotencyConflict .accepted) := by
  obtain ⟨hbody, hto, hany⟩ := hsendable
  simp only [sendPrimaryReply, hcan, hmessage, if_neg hbody, if_neg hto, if_neg hany]
  rfl

theorem sendPrimaryReply_accepted {row : SendRow}
    (h : (sendPrimaryReply lib digest rows c).2 = .accepted row) :
    ∃ message, c.prepared lib = .ok message ∧ c.request.Sendable message ∧
      (sendPrimaryReply lib digest rows c).1 = (c.upsert digest message rows).1 ∧
      (c.upsert digest message rows).2 = some row := by
  unfold sendPrimaryReply at h
  split at h
  · cases h
  rename_i hcan
  split at h
  · cases h
  rename_i hbody
  cases hmessage : c.prepared lib with
  | error e => simp [hmessage] at h
  | ok message =>
    simp only [hmessage] at h
    split at h
    · cases h
    rename_i hto
    split at h
    · cases h
    rename_i hany
    have hsendable : c.request.Sendable message := ⟨hbody, hto, hany⟩
    refine ⟨message, rfl, hsendable, ?_, ?_⟩
    · rw [sendPrimaryReply_of_message (by simpa using hcan) hmessage hsendable]
    cases hupserted : (c.upsert digest message rows).2 with
    | none =>
      rw [PrimaryReplyCall.upsert] at hupserted
      simp [hupserted] at h
    | some r =>
      rw [PrimaryReplyCall.upsert] at hupserted
      simp only [hupserted, Option.elim] at h
      cases h
      rfl

end Replay

/-- **When a reply of the primary account that is sent again returns its record.** The rows are any
with unique client ids, and other calls and deliveries come in between. No two of the messages
that the two calls make have one hash, and no hash is empty. -/
theorem primary_replay_iff (lib : SendLibrary) (digest : SendRequest → String → String)
    {rows : List SendRow} (hunique : (rows.map SendRow.clientSendId).Nodup)
    {c c' : PrimaryReplyCall} (between : List SendEvent) {row : SendRow}
    (hfirst : (sendPrimaryReply lib digest rows c).2 = .accepted row) (hagain : c.Repeats c')
    (hcan : c'.canSend = true) (hhash : ∀ m createdAt, digest m createdAt ≠ "")
    (hdistinct : ∀ m m' createdAt, c.prepared lib = .ok m → c'.prepared lib = .ok m' →
      digest m' createdAt = digest m createdAt → m' = m) :
    Replays
        (sendPrimaryReply lib digest
          (after (sendStep digest) (sendPrimaryReply lib digest rows c).1 between) c').2
        (after (sendStep digest) (sendPrimaryReply lib digest rows c).1 between)
        c.request.clientSendId row.serverSendId ↔
      AnswersAlike lib c c' := by
  obtain ⟨message, hmessage, hsendable, hrows, hupserted⟩ := sendPrimaryReply_accepted hfirst
  have hkept := upsert_first hunique hupserted
  rw [PrimaryReplyCall.upsert] at hrows
  rw [← hrows] at hkept
  have hlater := after_of_step (rowKept_step digest (hhash _ _)) hkept between
  generalize after (sendStep digest) (sendPrimaryReply lib digest rows c).1 between = later
    at hlater ⊢
  constructor
  · rintro ⟨r, hr, haccepted, -, -⟩
    obtain ⟨message', hmessage', -, -, hupserted'⟩ := sendPrimaryReply_accepted haccepted
    obtain ⟨_, -, -, -, hagainUpsert⟩ := upsert_again digest c'.serverSendId message'
      c.request.createdAt (hhash _ _) hlater
    rw [PrimaryReplyCall.upsert, hagain.request, hagainUpsert] at hupserted'
    split at hupserted'
    · rename_i hsame
      rw [hdistinct message message' _ hmessage hmessage' hsame.symm] at hmessage'
      exact (prepared_again hagain hmessage).1 hmessage'
    · cases hupserted'
  · intro hsame
    have hmessage' := (prepared_again hagain hmessage).2 hsame
    obtain ⟨r, hr, hclient, hserver, hagainUpsert⟩ := upsert_again digest c'.serverSendId message
      c.request.createdAt (hhash _ _) hlater
    refine ⟨r, hr, ?_, hclient, hserver⟩
    rw [sendPrimaryReply_of_message hcan hmessage' (hagain.request ▸ hsendable)]
    rw [PrimaryReplyCall.upsert, hagain.request, hagainUpsert, if_pos rfl]
    rfl

/-! ## Two threads -/

def sendLibrary : SendLibrary := { replyLibrary with contentHash := fun text => text }

def primaryDigest (message : SendRequest) (_ : String) : String :=
  if message.content.toJson = ["Ann <ann@y.org>"] then "6bac3e1a" else "abed0b41"

/-- The request of `yesRequest` on a stored thread. -/
def primaryCall (sourceMessageId : Option String) (messages : List ThreadMessage)
    (serverSendId : String) : PrimaryReplyCall where
  mailboxThreadId := "t1"
  request := { yesRequest sourceMessageId with includeOriginalAttachments := false }
  canSend := true
  userEmail := "me@z.org"
  messages := messages.map fun m => { m with gmailThreadId := "t1" }
  originals := fun _ => .ok []
  serverSendId := serverSendId

def primaryRow : SendRow where
  clientSendId := "send-1"
  serverSendId := "s1"
  requestHash := "6bac3e1a"
  sendType := "reply"
  mailboxThreadId := some "t1"
  createdAt := "2026-09-01T09:30:00Z"
  pending := .new (some "t1") (yesMessage "Ann <ann@y.org>" "<m1@y.org>").content

theorem primary_accepted (sourceMessageId : Option String)
    (hnamed : sourceMessageId = none ∨ sourceMessageId = some "m1") :
    sendPrimaryReply sendLibrary primaryDigest [] (primaryCall sourceMessageId [annMessage] "s1") =
      ([primaryRow], .accepted primaryRow) := by
  rcases hnamed with rfl | rfl
  · decide +kernel
  · decide +kernel

/-- The same request without a name, after Bob has written. -/
theorem new_mail_raises :
    (primaryCall none [annMessage] "s1").Repeats (primaryCall none [annMessage, bobMessage] "s2") ∧
      (sendPrimaryReply sendLibrary primaryDigest [] (primaryCall none [annMessage] "s1")).2 =
        .accepted primaryRow ∧
      (sendPrimaryReply sendLibrary primaryDigest
        (sendPrimaryReply sendLibrary primaryDigest [] (primaryCall none [annMessage] "s1")).1
        (primaryCall none [annMessage, bobMessage] "s2")).2 = .idempotencyConflict := by
  rw [primary_accepted none (Or.inl rfl)]
  refine ⟨⟨rfl, rfl, rfl⟩, rfl, ?_⟩
  decide +kernel

/-- A request that names Ann's message finds its record after the message has been read, Bob has
written and the reply has been sent. -/
theorem named_primary_reply_replays :
    Replays
      (sendPrimaryReply sendLibrary primaryDigest
        (after (sendStep primaryDigest)
          (sendPrimaryReply sendLibrary primaryDigest []
            (primaryCall (some "m1") [annMessage] "s1")).1
          [.deliver "s1" (Sends.markPendingSendSent (some "g1") (some "t1"))])
        (primaryCall (some "m1") [annRead, bobMessage] "s2")).2
      (after (sendStep primaryDigest)
        (sendPrimaryReply sendLibrary primaryDigest []
          (primaryCall (some "m1") [annMessage] "s1")).1
        [.deliver "s1" (Sends.markPendingSendSent (some "g1") (some "t1"))])
      "send-1" "s1" := by
  have hfirst : (primaryCall (some "m1") [annMessage] "s1").prepared sendLibrary =
      (primaryCall (some "m1") [annRead, bobMessage] "s2").prepared sendLibrary := by
    decide +kernel
  have hunique : (([] : List SendRow).map SendRow.clientSendId).Nodup := List.nodup_nil
  have haccepted : (sendPrimaryReply sendLibrary primaryDigest []
      (primaryCall (some "m1") [annMessage] "s1")).2 = .accepted primaryRow := by
    rw [primary_accepted (some "m1") (Or.inr rfl)]
  have hrepeats : (primaryCall (some "m1") [annMessage] "s1").Repeats
      (primaryCall (some "m1") [annRead, bobMessage] "s2") := ⟨rfl, rfl, rfl⟩
  refine (primary_replay_iff sendLibrary primaryDigest hunique _ haccepted hrepeats rfl ?_ ?_).2 ?_
  · intro m createdAt
    unfold primaryDigest
    split
    · decide
    · decide
  · intro m m' createdAt hm hm' _
    rw [hfirst, hm'] at hm
    cases hm
    rfl
  · exact ⟨⟨annMessage, "t1"⟩, ⟨annRead, "t1"⟩, by decide +kernel, by decide +kernel,
      ⟨rfl, rfl, rfl, rfl, fun _ => rfl, rfl⟩⟩

end ElectronicMail.Accounts
