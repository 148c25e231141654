import ElectronicMail.Accounts.AccountMail
import ElectronicMail.Events.Wire
import ElectronicMail.Recipients.Fields

/-!
# The message of an account-scoped reply

What `send_reply` of `account_mailbox_writes.py` makes of a request and of the thread that
Gmail shows when the request arrives: the message that is answered, the recipients, the
subject, the headers and the quoted original.

The records of the thread are what `_record_from_payload` parses. Texts are `String`s, and
lists of characters where they are taken apart.
-/

namespace ElectronicMail.Accounts

open Foundations.Text (strip truthy isSpace)
open Events (splitlinesFrom)
open Recipients (ResponseMode Fields Source)

/-- The functions of the mail library, `lower` of strings, and the number of bytes that
`base64.b64decode(text, validate=True)` returns, where it raises nothing. -/
structure ReplyLibrary extends Recipients.Library where
  b64decode : String → Option Nat

/-! ## The thread -/

/-- A record of the thread. `to` and `cc` are those of its recipients. -/
structure ThreadMessage where
  messageId : String
  labelIds : List String
  internalDate : Option String
  updatedAt : String
  subject : Option String
  sender : Option String
  «to» : Option String
  cc : Option String
  headers : List (String × String)
  snippet : Option String
  textBody : Option String
  htmlBodySanitized : Option String
  deriving DecidableEq

/-- `a or b`. -/
def orValue (a b : Option String) : Option String := if truthy a then a else b

/-- `a or ""`. -/
def orEmpty (a : Option String) : String := a.getD ""

/-- `item.internal_date or item.updated_at`. -/
def ThreadMessage.sortKey (m : ThreadMessage) : String :=
  (orValue m.internalDate (some m.updatedAt)).getD ""

/-- `records.sort(key=…)`. -/
def sortRecords (records : List ThreadMessage) : List ThreadMessage :=
  records.insertionSort fun m m' => m.sortKey ≤ m'.sortKey

/-- The text before the first `c`, and the one after it. -/
def cutAt (c : Char) (text : List Char) : Option (List Char × List Char) :=
  match text.dropWhile (· != c) with
  | [] => none
  | _ :: rest => some (text.takeWhile (· != c), rest)

def parseScopedThreadId (value : String) : Option (String × String) :=
  match cutAt ':' value.toList with
  | none => none
  | some (head, rest) =>
    match cutAt ':' rest with
    | none => none
    | some (account, thread) =>
      if String.ofList head = "gmail-account" then
        some (String.ofList account, String.ofList thread)
      else none

def scopedThreadId (gmailAccountId gmailThreadId : String) : String :=
  "gmail-account:" ++ gmailAccountId ++ ":" ++ gmailThreadId

/-- The thread id that `_thread_records` asks Gmail for. -/
def gmailThreadIdOf (gmailAccountId mailboxThreadId : String) : Except String String :=
  match parseScopedThreadId mailboxThreadId with
  | none => .ok mailboxThreadId
  | some (account, thread) =>
    if account != gmailAccountId then .error "Thread belongs to a different Gmail account"
    else .ok thread

/-! ## The request -/

structure ReplyAttachment where
  filename : String
  mimeType : String
  dataBase64 : String

/-- `MailReplyRequest`. `toSet` and `ccSet` say which of the fields are in
`model_fields_set`. -/
structure MailReplyRequest where
  clientSendId : String
  sourceMessageId : Option String
  mode : ResponseMode
  «to» : List String
  cc : List String
  bcc : List String
  toSet : Bool
  ccSet : Bool
  subject : Option String
  bodyText : String
  bodyHtml : Option String
  attachments : List ReplyAttachment
  includeQuotedOriginal : Bool
  createdAt : String

/-- The value of `mode`. -/
def sendTypeOf : ResponseMode → String
  | .reply => "reply"
  | .replyAll => "reply_all"
  | .forward => "forward"

/-- The message that is answered: the one with the id of the request, or the last one. -/
def MailReplyRequest.sourceOf (request : MailReplyRequest) (messages : List ThreadMessage) :
    Except String ThreadMessage :=
  match messages.getLast? with
  | none => .error "Email thread not found."
  | some last =>
    if truthy request.sourceMessageId then
      match messages.find? fun m => some m.messageId == request.sourceMessageId with
      | none => .error "Selected email is not part of this thread."
      | some m => .ok m
    else .ok last

/-! ## Texts -/

/-- `html.escape`. -/
def htmlEscape (text : List Char) : List Char :=
  text.flatMap fun c =>
    if c = '&' then "&amp;".toList
    else if c = '<' then "&lt;".toList
    else if c = '>' then "&gt;".toList
    else if c = '"' then "&quot;".toList
    else if c = '\'' then "&#x27;".toList
    else [c]

/-- `html_escape(text)`, as a string. -/
def escaped (text : String) : String := String.ofList (htmlEscape text.toList)

/-- `f"<div>{html_escape(text).replace(chr(10), '<br>')}</div>"`. -/
def divOf (text : String) : String :=
  "<div>" ++ String.ofList ((htmlEscape text.toList).flatMap fun c =>
    if c = '\n' then "<br>".toList else [c]) ++ "</div>"

/-- `text.rstrip()`. -/
def rstrip (text : String) : String := String.ofList (text.toList.rdropWhile isSpace)

/-- `context` of `send_reply`. -/
structure ReplyContext where
  originalSubject : String
  originalSender : String
  originalTo : String
  originalDate : String
  originalBody : String
  originalHtml : Option String

def ThreadMessage.context (m : ThreadMessage) : ReplyContext where
  originalSubject := orEmpty m.subject
  originalSender := orEmpty m.sender
  originalTo := orEmpty m.to
  originalDate := orEmpty m.internalDate
  originalBody := orEmpty (orValue m.textBody m.snippet)
  originalHtml := m.htmlBodySanitized

/-- What `_forward_body` puts behind the text of the user. -/
def ReplyContext.forwardQuote (context : ReplyContext) : String :=
  "\n\n---------- Forwarded message ---------\n" ++
    "From: " ++ context.originalSender ++ "\n" ++
    "Date: " ++ context.originalDate ++ "\n" ++
    "Subject: " ++ context.originalSubject ++ "\n" ++
    "To: " ++ context.originalTo ++ "\n\n" ++
    context.originalBody

/-- What `_reply_body` puts behind the text of the user. -/
def ReplyContext.replyQuote (context : ReplyContext) : String :=
  "\n\n" ++ "On " ++ context.originalDate ++ ", " ++ context.originalSender ++ " wrote:\n" ++
    "\n".intercalate ((splitlinesFrom [] context.originalBody.toList).map fun line =>
      "> " ++ String.ofList line)

/-- The heading and the original in `_quoted_html_body`. -/
def ReplyContext.htmlQuote (context : ReplyContext) (forward : Bool) : String :=
  let original :=
    if truthy context.originalHtml then orEmpty context.originalHtml
    else divOf context.originalBody
  let heading :=
    if forward then
      "---------- Forwarded message ---------<br>" ++
        "From: " ++ escaped context.originalSender ++ "<br>" ++
        "Date: " ++ escaped context.originalDate ++ "<br>" ++
        "Subject: " ++ escaped context.originalSubject ++ "<br>" ++
        "To: " ++ escaped context.originalTo
    else
      "On " ++ escaped context.originalDate ++ ", " ++ escaped context.originalSender ++ " wrote:"
  "<br><div>" ++ heading ++ "</div><blockquote>" ++ original ++ "</blockquote>"

/-- `authored` of `_quoted_html_body`. -/
def MailReplyRequest.authored (request : MailReplyRequest) : String :=
  if truthy request.bodyHtml then orEmpty request.bodyHtml else divOf request.bodyText

/-- The mode is `forward`. -/
def MailReplyRequest.forwards (request : MailReplyRequest) : Bool := request.mode == .forward

/-- What is quoted of the message that is answered, as text and as HTML. -/
def MailReplyRequest.quotes (request : MailReplyRequest) (source : ThreadMessage) :
    Option (String × String) :=
  if request.includeQuotedOriginal then
    some (if request.forwards then source.context.forwardQuote else source.context.replyQuote,
      source.context.htmlQuote request.forwards)
  else none

/-- The body with the quoted original: `_forward_body` or `_reply_body`, and
`_quoted_html_body`. -/
def MailReplyRequest.bodies (request : MailReplyRequest) (source : ThreadMessage) :
    String × Option String :=
  match request.quotes source with
  | some (quotedText, quotedHtml) =>
    (rstrip (strip request.bodyText) ++ quotedText, some (request.authored ++ quotedHtml))
  | none => (strip request.bodyText, request.bodyHtml)

section Fields

variable (lib : ReplyLibrary)

/-- `(subject or "").strip() or "No subject"`. -/
def subjectValue (subject : Option String) : String :=
  if strip (orEmpty subject) = "" then "No subject" else strip (orEmpty subject)

/-- `value.lower().startswith(prefix)`. -/
def ReplyLibrary.startsWith (word value : String) : Bool :=
  word.toList.isPrefixOf (lib.lower value.toList)

def ReplyLibrary.replySubject (subject : Option String) : String :=
  let value := subjectValue subject
  if lib.startsWith "re:" value then value else "Re: " ++ value

def ReplyLibrary.forwardSubject (subject : Option String) : String :=
  let value := subjectValue subject
  if lib.startsWith "fwd:" value || lib.startsWith "fw:" value then value else "Fwd: " ++ value

def ReplyLibrary.subjectOf (request : MailReplyRequest) (source : ThreadMessage) : String :=
  let default := if request.forwards then lib.forwardSubject source.subject
    else lib.replySubject source.subject
  strip (if truthy request.subject then orEmpty request.subject else default)

/-- `headers.get(name) or headers.get(other)`. -/
def ThreadMessage.header (m : ThreadMessage) (name other : String) : Option String :=
  orValue (m.headers.lookup name) (m.headers.lookup other)

/-- `_references_header`. -/
def ThreadMessage.references (m : ThreadMessage) : Option String :=
  let parts := [strip (orEmpty (m.header "references" "References")),
    strip (orEmpty (m.header "message-id" "Message-ID"))].filter (· != "")
  let joined := strip (" ".intercalate parts)
  if joined = "" then none else some joined

/-- `final_headers`. -/
def MailReplyRequest.headersOf (request : MailReplyRequest) (source : ThreadMessage) :
    List (String × String) :=
  if request.forwards then []
  else
    [("In-Reply-To", source.header "message-id" "Message-ID"),
      ("References", source.references)].filterMap fun entry =>
        if truthy entry.2 then entry.2.map fun value => (entry.1, value) else none

/-- The parts of a message that its recipients are made of, and the owner of the account. -/
def ThreadMessage.source (m : ThreadMessage) (email : String) : Source where
  replyTo := (m.headers.lookup "reply-to").map String.toList
  canonicalReplyTo := (m.headers.lookup "Reply-To").map String.toList
  sender := m.sender.map String.toList
  «to» := m.to.map String.toList
  cc := m.cc.map String.toList
  userEmail := email.toList

def ReplyLibrary.defaultCc (source : Source) : List (List Char) :=
  lib.cleanAddresses
    (lib.addressesWithoutUser (Recipients.orElse source.to []) (lib.userEmail source) ++
      lib.addressesWithoutUser (Recipients.orElse source.cc []) (lib.userEmail source))

/-- The recipients of the request, each field checked by `_validated_addresses`. -/
def ReplyLibrary.validatedFields (request : MailReplyRequest) : Except String Fields := do
  let validTo ← lib.validatedAddresses (request.to.map String.toList)
  let validCc ← lib.validatedAddresses (request.cc.map String.toList)
  let validBcc ← lib.validatedAddresses (request.bcc.map String.toList)
  return ⟨validTo, validCc, validBcc⟩

/-- `final_to`, `final_cc` and `final_bcc`, for valid recipients of the request. -/
def ReplyLibrary.recipientsOf (request : MailReplyRequest) (valid : Fields) (source : Source) :
    Fields :=
  match request.mode with
  | .forward => valid
  | .replyAll =>
    lib.replyRecipients (if request.toSet then valid.to else lib.contextTo source)
      (if request.ccSet then valid.cc else lib.defaultCc source) valid.bcc (lib.userEmail source)
  | .reply =>
    lib.replyRecipients (if request.toSet then valid.to else lib.contextTo source) valid.cc
      valid.bcc (lib.userEmail source)

/-- One round of `_validated_attachments`, with the bytes so far. -/
def ReplyLibrary.validatedAttachment (state : Nat × List (List (String × String)))
    (value : ReplyAttachment) : Except String (Nat × List (List (String × String))) :=
  let filename := strip value.filename
  let mimeType := strip (if value.mimeType = "" then "application/octet-stream" else value.mimeType)
  let dataBase64 := strip value.dataBase64
  if filename = "" || filename.toList.any ['/', '\\', '\r', '\n'].contains then
    .error "Attachment filename is invalid."
  else if mimeType.toList.any ['\r', '\n'].contains || !mimeType.toList.contains '/' then
    .error ("Attachment " ++ filename ++ " has an invalid MIME type.")
  else
    match lib.b64decode dataBase64 with
    | none => .error ("Attachment " ++ filename ++ " is not valid base64.")
    | some decoded =>
      if decoded = 0 then .error ("Attachment " ++ filename ++ " is empty.")
      else if 10 * 1024 * 1024 < decoded then
        .error ("Attachment " ++ filename ++ " exceeds the 10 MB per-file limit.")
      else if 18 * 1024 * 1024 < state.1 + decoded then
        .error "Attachments exceed the 18 MB send limit."
      else
        .ok (state.1 + decoded, state.2 ++ [[("filename", filename), ("mime_type", mimeType),
          ("data_base64", dataBase64)]])

def ReplyLibrary.validatedAttachments (values : List ReplyAttachment) :
    Except String (List (List (String × String))) :=
  (values.foldlM lib.validatedAttachment (0, [])).map Prod.snd

def validateSubject (subject : String) : Except String Unit :=
  if subject.toList.any ['\r', '\n'].contains then .error "Subject cannot contain line breaks."
  else .ok ()

/-- The message that is handed to `create_or_get_send`, for the message that is answered. -/
def ReplyLibrary.messageFor (request : MailReplyRequest) (gmailAccountId gmailThreadId : String)
    (valid : Fields) (attachments : List (List (String × String))) (email : String)
    (source : ThreadMessage) : SendRequest :=
  let fields := lib.recipientsOf request valid (source.source email)
  let bodies := request.bodies source
  { sendType := sendTypeOf request.mode
    mailboxThreadId := some (scopedThreadId gmailAccountId gmailThreadId)
    gmailThreadId := if request.forwards then none else some gmailThreadId
    content :=
      { toJson := fields.to.map String.ofList
        ccJson := fields.cc.map String.ofList
        bccJson := fields.bcc.map String.ofList
        subject := lib.subjectOf request source
        bodyText := bodies.1
        bodyHtml := bodies.2
        headersJson := request.headersOf source
        attachmentsJson := attachments } }

/-- The body of the `try` of `send_reply`, for the records of the thread. `email` is that of
the account, where it is still available. -/
def ReplyLibrary.messageOf (request : MailReplyRequest) (gmailAccountId mailboxThreadId : String)
    (email : Option String) (records : List ThreadMessage) : Except String SendRequest := do
  let gmailThreadId ← gmailThreadIdOf gmailAccountId mailboxThreadId
  let source ← request.sourceOf (sortRecords records)
  let email ← email.elim (.error "Gmail account is not available") .ok
  let valid ← lib.validatedFields request
  let attachments ← lib.validatedAttachments request.attachments
  let message := lib.messageFor request gmailAccountId gmailThreadId valid attachments email source
  validateSubject message.content.subject
  return message

end Fields

end ElectronicMail.Accounts
