import Mathlib.Data.List.Infix
import Mathlib.Data.Prod.Lex
import ElectronicMail.Foundations.Keyset
import ElectronicMail.Listing.ThreadOrder

/-!
# Mailbox pages

`list_mailbox_thread_page` on the tables of one account. A thread matches when one of
its messages passes the filters; its date is that of its newest message. The page is
read in one of two orders: by the rank in a generation, or by date.

The order of the database on text is a parameter: a `Collation` weighs texts, and
different texts have different weights.
-/

namespace ElectronicMail.Listing

open Foundations

universe u

structure Collation (κ : Type u) where
  weight : String → κ
  injective : Function.Injective weight

/-! ## Threads -/

structure ListingFilter where
  sinceIso : Option Timestamp
  query : String

/-- `since_iso` and `search_query` of the call. -/
def listingFilter (sinceIso : Option Timestamp) (searchQuery : Option String) : ListingFilter :=
  ⟨sinceIso, Text.strip (searchQuery.getD "")⟩

/-- `POSITION(needle IN text) > 0`. -/
def contains (needle text : String) : Bool := decide (needle.toList <:+: text.toList)

/-- The search clause; `dbLower` is `lower` of the database. -/
def searchClause (dbLower : String → String) (query : String) (message : Message) : Bool :=
  let needle := dbLower (Text.truncate 200 query)
  contains needle (dbLower (message.subject.getD "")) ||
    contains needle (dbLower (message.sender.getD "")) ||
    contains needle (dbLower (message.snippet.getD "")) ||
    contains needle (dbLower (message.textBody.getD "")) ||
    contains needle (dbLower (message.recipients.getD ""))

/-- The `WHERE` clause of `eligible_threads`. -/
def eligibleMessage (dbLower : String → String) (mailboxLabel : String) (filter : ListingFilter)
    (message : Message) : Bool :=
  mailboxLabelClause mailboxLabel message.labelIds &&
    (match filter.sinceIso with
      | none => true
      | some since => since ≤ message.sortDate) &&
    (filter.query = "" || searchClause dbLower filter.query message)

/-- A row of `matching_threads`. -/
structure MatchingThread where
  threadKey : String
  latestMatchingAt : Timestamp

/-- `MAX(COALESCE(internal_date, updated_at))` over the messages of a thread. -/
def latestMatchingAt (messages : List Message) (key : String) : Option Timestamp :=
  ((messages.filter fun message => message.threadKey = key).map Message.sortDate).max?

def matchingThreads (eligible : Message → Bool) (messages : List Message) : List MatchingThread :=
  (eligibleThreads eligible messages).filterMap fun key =>
    (latestMatchingAt messages key).map fun latest => ⟨key, latest⟩

/-- A row of `page_threads`. -/
structure PageThread where
  threadKey : String
  latestMatchingAt : Timestamp
  mailboxOrderPosition : Option Nat

/-- `matching_threads` joined with the entries of a generation. -/
def rankedThreads (m : Mailbox) (eligible : Message → Bool) (mailboxLabel generationId : String) :
    List PageThread :=
  (matchingThreads eligible m.messages).flatMap fun thread =>
    (m.entries.filter fun entry =>
      entry.key = (mailboxLabel, generationId, thread.threadKey)).map fun entry =>
        ⟨thread.threadKey, thread.latestMatchingAt, some entry.position⟩

/-- `matching_threads` without a rank. -/
def datedThreads (m : Mailbox) (eligible : Message → Bool) : List PageThread :=
  (matchingThreads eligible m.messages).map fun thread =>
    ⟨thread.threadKey, thread.latestMatchingAt, none⟩

/-! ## Pages -/

inductive OrderSource where
  | gmail
  | date

structure MailboxThreadPage where
  threads : List PageThread
  nextCursor : Option Json
  loadedThreads : Nat
  orderSource : OrderSource

inductive PageOrder where
  | gmail (generationId : String) (start : Option (Int × String))
  | date (start : Option (Timestamp × String))

def pageOrder (m : Mailbox) (mailboxLabel : String) (cursor : Option Json)
    (filter : ListingFilter) : Except MailboxCursorError PageOrder := do
  match cursor with
  | some payload =>
    match ← decodeMailboxCursorState payload with
    | .gmailOrder threadKey label generationId position =>
      if filter.query ≠ "" ∨ filter.sinceIso.isSome ∨ label ≠ mailboxLabel then
        throw invalidCursor
      match ← resolveGmailThreadOrderGeneration m mailboxLabel (some generationId) with
      | some generationId => pure (.gmail generationId (some (position, threadKey)))
      | none => pure (.date none)
    | .date threadKey latestAt => pure (.date (some (latestAt, threadKey)))
  | none =>
    if filter.query = "" ∧ filter.sinceIso.isNone then
      match ← resolveGmailThreadOrderGeneration m mailboxLabel none with
      | some generationId => pure (.gmail generationId none)
      | none => pure (.date none)
    else pure (.date none)

section Page

variable {κ : Type u} [LinearOrder κ] (collation : Collation κ)

/-- `ORDER BY position ASC, thread_key ASC`. -/
def rankKey (position : Int) (threadKey : String) : Int ×ₗ κ :=
  toLex (position, collation.weight threadKey)

/-- `ORDER BY latest_matching_at DESC, thread_key DESC`. -/
def dateKey (latestAt : Timestamp) (threadKey : String) : (Timestamp ×ₗ κ)ᵒᵈ :=
  OrderDual.toDual (toLex (latestAt, collation.weight threadKey))

def PageThread.rankKey (thread : PageThread) : Int ×ₗ κ :=
  Listing.rankKey collation ((thread.mailboxOrderPosition.getD 0 : Nat) : Int) thread.threadKey

def PageThread.dateKey (thread : PageThread) : (Timestamp ×ₗ κ)ᵒᵈ :=
  Listing.dateKey collation thread.latestMatchingAt thread.threadKey

/-- `max(1, limit)`. -/
def pageSize (limit : Int) : Nat := (max 1 limit).toNat

def pageOf (source : OrderSource) (size : Nat) (encode : PageThread → Json)
    (rows : List PageThread) : MailboxThreadPage :=
  let visible := rows.take size
  { threads := visible
    nextCursor := if size < rows.length then visible.getLast?.map encode else none
    loadedThreads := visible.length
    orderSource := source }

def rankCursor (mailboxLabel generationId : String) (thread : PageThread) : Json :=
  encodeGmailOrderCursor mailboxLabel generationId
    ((thread.mailboxOrderPosition.getD 0 : Nat) : Int) thread.threadKey

def dateCursor (thread : PageThread) : Json :=
  encodeMailboxCursor thread.latestMatchingAt.isoformat thread.threadKey

def listMailboxThreadPage (dbLower : String → String) (m : Mailbox) (label : String)
    (limit : Int) (cursor : Option Json) (sinceIso : Option Timestamp)
    (searchQuery : Option String) : Except MailboxCursorError MailboxThreadPage := do
  let mailboxLabel := normalizedMailboxLabel label
  let filter := listingFilter sinceIso searchQuery
  let eligible := eligibleMessage dbLower mailboxLabel filter
  match ← pageOrder m mailboxLabel cursor filter with
  | .gmail generationId start =>
    let rows := Keyset.fetch (PageThread.rankKey collation) (pageSize limit + 1)
      (start.map fun after => rankKey collation after.1 after.2)
      (rankedThreads m eligible mailboxLabel generationId)
    pure (pageOf .gmail (pageSize limit) (rankCursor mailboxLabel generationId) rows)
  | .date start =>
    let rows := Keyset.fetch (PageThread.dateKey collation) (pageSize limit + 1)
      (start.map fun after => dateKey collation after.1 after.2) (datedThreads m eligible)
    pure (pageOf .date (pageSize limit) dateCursor rows)

end Page

end ElectronicMail.Listing
