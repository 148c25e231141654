import ElectronicMail.Foundations.AddressList

/-!
# Recipients of a message

How the services read the recipients of a request or of a thread and print them into the headers
of a message, for new messages and drafts, replies and forwards. Each stage parses mailboxes and
prints them again, `display <address>`, without quoting the display name.
-/

namespace ElectronicMail.Recipients

open Foundations.AddressList (Mailbox join)
open Foundations.Chars (strip)
open Foundations.Text (isSpace)

/-- `getaddresses([value])` and `parseaddr(value)` of the mail library, and `lower` of strings. -/
structure Library where
  getaddresses : List Char → List Mailbox
  parseaddr : List Char → Mailbox
  lower : List Char → List Char

/-- `f"{display} <{address}>" if display else address`. -/
def rendered (mailbox : Mailbox) : List Char :=
  if mailbox.1 = [] then mailbox.2 else mailbox.1 ++ ' ' :: '<' :: mailbox.2 ++ ['>']

/-- `address.rpartition("@")`, with whether there is one. -/
def rpartition (address : List Char) : List Char × Bool × List Char :=
  let domain := (address.reverse.takeWhile (· != '@')).reverse
  match address.reverse.dropWhile (· != '@') with
  | [] => ([], false, address)
  | _ :: localPart => (localPart.reverse, true, domain)

def addressValid (address : List Char) : Bool :=
  let (localPart, separator, domain) := rpartition address
  separator && localPart != [] && domain != [] && domain.contains '.' && !address.any isSpace

namespace Library

variable (lib : Library)

/-- `{parseaddr(item)[1].lower() for item in items}`. -/
def addresses (items : List (List Char)) : List (List Char) :=
  items.map fun item => lib.lower (lib.parseaddr item).2

def add (cleaned : List (List Char)) (mailbox : Mailbox) : List (List Char) :=
  if (lib.addresses cleaned).contains (lib.lower mailbox.2) then cleaned
  else cleaned ++ [rendered mailbox]

/-! ## Recipients of a request -/

def validatedMailbox (value : List Char) (cleaned : List (List Char)) (mailbox : Mailbox) :
    Except String (List (List Char)) :=
  let address := strip mailbox.2
  if addressValid address then
    .ok (lib.add cleaned (mailbox.1, address))
  else .error ("Recipient address is invalid: " ++ String.ofList value)

def validatedValue (cleaned : List (List Char)) (value : List Char) :
    Except String (List (List Char)) :=
  if '\r' ∈ value ∨ '\n' ∈ value ∨ 512 < value.length then
    .error "A recipient address is invalid."
  else if lib.getaddresses value = [] then
    .error ("Recipient address is invalid: " ++ String.ofList value)
  else (lib.getaddresses value).foldlM (lib.validatedMailbox value) cleaned

def validatedAddresses (values : List (List Char)) : Except String (List (List Char)) :=
  if 100 < values.length then
    .error "A message can have at most 100 recipients per field."
  else values.foldlM lib.validatedValue []

/-! ## Recipients of a reply -/

def addressesWithoutUser (value userEmail : List Char) : List (List Char) :=
  ((lib.getaddresses value).filter fun mailbox =>
    mailbox.2 != [] && lib.lower mailbox.2 != userEmail).map rendered

def cleanAddresses (values : List (List Char)) : List (List Char) :=
  ((values.flatMap lib.getaddresses).filter fun mailbox => mailbox.2 != []).foldl lib.add []

/-- One value of `unique_field`, with the addresses that are excluded and the recipients so far. -/
def uniqueValue (state : List (List Char) × List (List Char)) (value : List Char) :
    List (List Char) × List (List Char) :=
  let address := lib.lower (lib.parseaddr value).2
  if address = [] ∨ state.1.contains address then state
  else (state.1 ++ [address], state.2 ++ [value])

/-- `unique_field` in `_reply_recipients`. -/
def uniqueField (excluded values : List (List Char)) : List (List Char) × List (List Char) :=
  (lib.cleanAddresses values).foldl lib.uniqueValue (excluded, [])

end Library

structure Fields where
  «to» : List (List Char)
  cc : List (List Char)
  bcc : List (List Char)
  deriving DecidableEq

/-- The message that is answered, and the address of the signed-in user. The headers `reply-to` and
`Reply-To` are asked for in this order, then the sender. -/
structure Source where
  replyTo : Option (List Char)
  canonicalReplyTo : Option (List Char)
  sender : Option (List Char)
  «to» : Option (List Char)
  cc : Option (List Char)
  userEmail : List Char

/-- `a or b`. -/
def orElse (a : Option (List Char)) (b : List Char) : List Char :=
  match a with
  | some (c :: text) => c :: text
  | _ => b

def Source.senderValue (source : Source) : List Char :=
  orElse source.replyTo (orElse source.canonicalReplyTo (orElse source.sender []))

structure Request where
  «to» : List (List Char)
  cc : List (List Char)
  bcc : List (List Char)
  explicitTo : Bool
  explicitCc : Bool

inductive ResponseMode where
  | reply
  | replyAll
  | forward
  deriving DecidableEq

/-- What a message is built for: a new message or a draft of one, or a response or a draft of
one. -/
inductive Build where
  | compose (request : Request)
  | response (mode : ResponseMode) (request : Request) (source : Source)

namespace Library

variable (lib : Library)

def replyRecipients (toValues ccValues bccValues : List (List Char)) (userEmail : List Char) :
    Fields :=
  let excluded := if userEmail = [] then [] else [lib.lower userEmail]
  let uniqueTo := lib.uniqueField excluded toValues
  let uniqueCc := lib.uniqueField uniqueTo.1 ccValues
  let uniqueBcc := lib.uniqueField uniqueCc.1 bccValues
  ⟨uniqueTo.2, uniqueCc.2, uniqueBcc.2⟩

/-- `user_email` of `_reply_context`. -/
def userEmail (source : Source) : List Char := lib.lower source.userEmail

/-- `sender_email` of `_reply_context`. -/
def senderEmail (source : Source) : List Char := lib.lower (lib.parseaddr source.senderValue).2

/-- `to` of `_reply_context`. -/
def contextTo (source : Source) : List (List Char) :=
  if lib.senderEmail source ≠ [] ∧ lib.senderEmail source ≠ lib.userEmail source then
    [source.senderValue]
  else lib.addressesWithoutUser (orElse source.to []) (lib.userEmail source)

/-- `reply_all_cc` of `_reply_context`. -/
def replyAllCc (source : Source) : List (List Char) :=
  let cleaned := lib.cleanAddresses
    (lib.addressesWithoutUser (orElse source.to []) (lib.userEmail source) ++
      lib.addressesWithoutUser (orElse source.cc []) (lib.userEmail source))
  let replyTargets := lib.addresses (lib.contextTo source)
  cleaned.filter fun value => !replyTargets.contains (lib.lower (lib.parseaddr value).2)

/-- The recipients that `prepare_response_message` and the composing calls settle on. -/
def fields : Build → Except String Fields
  | .compose request => do
    let explicitTo ← lib.validatedAddresses request.to
    let explicitCc ← lib.validatedAddresses request.cc
    let explicitBcc ← lib.validatedAddresses request.bcc
    return ⟨explicitTo, explicitCc, explicitBcc⟩
  | .response mode request source => do
    let explicitTo ← lib.validatedAddresses request.to
    let explicitCc ← lib.validatedAddresses request.cc
    let explicitBcc ← lib.validatedAddresses request.bcc
    match mode with
    | .forward => return ⟨explicitTo, explicitCc, explicitBcc⟩
    | .replyAll =>
      return lib.replyRecipients
        (if request.explicitTo then explicitTo else lib.contextTo source)
        (if request.explicitCc then explicitCc else lib.replyAllCc source)
        explicitBcc (lib.userEmail source)
    | .reply =>
      return lib.replyRecipients
        (if request.explicitTo then explicitTo else lib.contextTo source)
        explicitCc explicitBcc (lib.userEmail source)

end Library

/-! ## The raw message -/

structure Headers where
  «to» : Option (List Char)
  cc : Option (List Char)
  bcc : Option (List Char)

/-- `", ".join(values)`, if there are any. -/
def header (values : List (List Char)) : Option (List Char) :=
  if values = [] then none else some (join values)

/-- The address headers in `_raw_message_from_fields`. -/
def Fields.headers (fields : Fields) : Headers :=
  ⟨header fields.to, header fields.cc, header fields.bcc⟩

end ElectronicMail.Recipients
