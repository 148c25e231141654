import Mathlib.Data.List.Nodup
import ElectronicMail.Foundations.Chars
import ElectronicMail.Foundations.Json

/-!
# Jobs that hydrate a search

A search that Gmail is asked about runs as a job, and what its pages leave over is left to a
continuation job. A job carries the page token it starts from, its number in the chain, the hashes
of all tokens that the chain has continued from, and a key over all of this; `validatedContinuation`
checks them when the job runs, and `enqueueContinuation` makes them for the next one.

Of the listing of a page the model keeps whether it fails, how many messages it hydrates, whether
its publication fails, and the token of the next page.
-/

namespace ElectronicMail.Search

open Foundations
open Foundations.Text (strip truncate)

/-- `sha256(text.encode()).hexdigest()` and `text.lower()`. -/
structure Library where
  sha256 : String → String
  lower : String → String

def gmailSearchPageSize : Int := 100
def gmailSearchMaxPages : Int := 5
def gmailSearchMaxContinuationJobs : Nat := 100
def gmailSearchMaxPageTokenLength : Nat := 2048

/-- `_SHA256_HEX_PATTERN.fullmatch`. -/
def isSha256Hex (text : String) : Bool :=
  text.toList.length = 64 && text.toList.all fun c => ('0' ≤ c && c ≤ '9') || ('a' ≤ c && c ≤ 'f')

/-- The payload of a job. What the checks take apart themselves is a JSON value, `null` when it is
missing (an index that is missing is 0). -/
structure Payload where
  userId : String
  query : String
  label : String
  limit : Int
  maxPages : Int
  responseLimit : Int
  searchKey : String
  pageToken : Json
  continuationIndex : Json
  continuationKey : Json
  continuationTokenHashes : Json

/-- What `_validated_continuation` returns. -/
structure Continuation where
  pageToken : String
  index : Nat
  tokenHashes : List String

/-- `max(1, min(value, bound))`. -/
def clamp (value bound : Int) : Int := max 1 (min value bound)

namespace Library

variable (lib : Library)

/-- `label.strip().lower() or "all"`. -/
def normalizedLabel (label : String) : String :=
  if lib.lower (strip label) = "" then "all" else lib.lower (strip label)

def mailboxSearchKey (query label : String) : String :=
  lib.sha256 (lib.normalizedLabel label ++ "\x00" ++ truncate 200 (strip query))

def pageTokenHash (pageToken : String) : String := lib.sha256 pageToken

def continuationKey (userId searchKey pageToken : String) (index : Nat)
    (tokenHashes : List String) : String :=
  lib.sha256
    ("\x00".intercalate (userId :: searchKey :: toString index :: pageToken :: tokenHashes))

end Library

def validatedPageToken (value : String) : Except String String :=
  if value = "" ∨ gmailSearchMaxPageTokenLength < value.toList.length ∨ value ≠ strip value ∨
      value.toList.any Chars.isControl then
    .error "gmail_search_hydrate has an invalid continuation page token"
  else .ok value

def hexTexts : List Json → Option (List String)
  | [] => some []
  | .text hash :: items =>
    if isSha256Hex hash then (hexTexts items).map (hash :: ·) else none
  | _ :: _ => none

/-- `continuation_index is None`, or it is the integer 0. -/
def isInitialIndex : Json → Bool
  | .null => true
  | .number index => index = 0
  | _ => false

/-- `continuation_key in (None, "")`. -/
def isInitialKey : Json → Bool
  | .null => true
  | .text key => key = ""
  | _ => false

/-- `continuation_token_hashes in (None, (), [])`. -/
def isInitialHashes : Json → Bool
  | .null => true
  | .list items => items.isEmpty
  | _ => false

/-- The checks of `_validated_continuation` for the first job of a chain. -/
def validatedInitial (payload : Payload) : Except String Continuation :=
  if isInitialIndex payload.continuationIndex && isInitialKey payload.continuationKey &&
      isInitialHashes payload.continuationTokenHashes then .ok ⟨"", 0, []⟩
  else .error "gmail_search_hydrate has invalid initial continuation state"

def validatedIndex (continuationIndex : Json) : Except String Nat :=
  match continuationIndex with
  | .number index =>
    if index < 1 ∨ gmailSearchMaxContinuationJobs < index then
      .error "gmail_search_hydrate has an invalid continuation index"
    else .ok index.toNat
  | _ => .error "gmail_search_hydrate has an invalid continuation index"

namespace Library

variable (lib : Library)

def validatedHashes (pageToken : String) (index : Nat) (continuationTokenHashes : Json) :
    Except String (List String) :=
  match continuationTokenHashes with
  | .list items =>
    match hexTexts items with
    | some hashes =>
      if hashes.length = index ∧ hashes.Nodup ∧
          hashes.getLast? = some (lib.pageTokenHash pageToken) then .ok hashes
      else .error "gmail_search_hydrate has invalid continuation token history"
    | none => .error "gmail_search_hydrate has invalid continuation token history"
  | _ => .error "gmail_search_hydrate has invalid continuation token history"

def validatedKey (userId searchKey : String) (continuation : Continuation)
    (continuationKey : Json) : Except String Unit :=
  match continuationKey with
  | .text key =>
    if isSha256Hex key = true ∧ key = lib.continuationKey userId searchKey continuation.pageToken
        continuation.index continuation.tokenHashes then .ok ()
    else .error "gmail_search_hydrate has an invalid continuation key"
  | _ => .error "gmail_search_hydrate has an invalid continuation key"

def validatedContinuation (payload : Payload) : Except String Continuation :=
  match payload.pageToken with
  | .null => validatedInitial payload
  | .text pageToken =>
    if pageToken = "" then validatedInitial payload
    else do
      let pageToken ← validatedPageToken pageToken
      let index ← validatedIndex payload.continuationIndex
      let tokenHashes ← lib.validatedHashes pageToken index payload.continuationTokenHashes
      lib.validatedKey payload.userId payload.searchKey ⟨pageToken, index, tokenHashes⟩
        payload.continuationKey
      return ⟨pageToken, index, tokenHashes⟩
  | _ => .error "gmail_search_hydrate has an invalid continuation page token"

end Library

/-! ## Queueing -/

/-- `_enqueue_mailbox_search_job`, without a continuation. -/
def initialPayload (userId query label : String) (responseLimit : Int) (searchKey : String) :
    Payload :=
  ⟨userId, query, label, gmailSearchPageSize, gmailSearchMaxPages, clamp responseLimit 200,
    searchKey, .null, .number 0, .null, .null⟩

/-- `_enqueue_mailbox_search_job`, with a continuation. -/
def continuationPayload (payload : Payload) (continuation : Continuation) (key : String) :
    Payload :=
  { initialPayload payload.userId payload.query payload.label payload.responseLimit
      payload.searchKey with
    pageToken := .text continuation.pageToken
    continuationIndex := .number continuation.index
    continuationKey := .text key
    continuationTokenHashes := .list (continuation.tokenHashes.map .text) }

namespace Library

variable (lib : Library)

/-- The job that `enqueue_mailbox_search_hydration` queues, if the query has any text. -/
def searchJob (userId query label : String) (limit : Int) : Option Payload :=
  let normalizedQuery := truncate 200 (strip query)
  if normalizedQuery = "" then none
  else
    let label := lib.normalizedLabel label
    some (initialPayload userId normalizedQuery label (clamp limit 200)
      (lib.mailboxSearchKey normalizedQuery label))

/-- `enqueue_continuation` in a job with a validated continuation. -/
def enqueueContinuation (payload : Payload) (validated : Continuation) (nextPageToken : String) :
    Except String Payload := do
  let nextPageToken ← validatedPageToken nextPageToken
  let nextIndex := validated.index + 1
  if gmailSearchMaxContinuationJobs < nextIndex then
    .error "gmail_search_hydrate exceeded its continuation safety limit"
  else if validated.tokenHashes.contains (lib.pageTokenHash nextPageToken) then
    .error "gmail_search_hydrate repeated a continuation page token"
  else
    let tokenHashes := validated.tokenHashes ++ [lib.pageTokenHash nextPageToken]
    return continuationPayload payload ⟨nextPageToken, nextIndex, tokenHashes⟩
      (lib.continuationKey payload.userId payload.searchKey nextPageToken nextIndex tokenHashes)

end Library

/-! ## The run of a job -/

/-- What comes of listing a page: how many messages were hydrated, and `nextPageToken`, empty if
there is none. -/
structure ListedPage where
  hydrated : Except String Nat
  published : Except String Unit
  nextPageToken : String

/-- What a job meets: whether the account may be written and is connected, what Gmail answers to
its list calls, of which any may fail, and whether the continuation is stored. -/
structure Environment where
  canWrite : Bool
  connected : Bool
  list : Nat → Option String → Except String ListedPage
  stores : Except String Unit

/-- What a job has done: the page tokens it listed, the notifications of its pages and what it
returns, with the token of the page it has not come to. -/
structure Walk where
  listed : List (Option String)
  notified : List Nat
  result : Except String (Nat × Option String)

def Walk.after (pageToken : Option String) (notified : List Nat) (walk : Walk) : Walk :=
  ⟨pageToken :: walk.listed, notified ++ walk.notified, walk.result⟩

/-- The loop of `hydrate_gmail_search_results` with a budget of pages that are left. -/
def walkPages (env : Environment) :
    Nat → Nat → Option String → List String → Nat → Walk
  | 0, _, pageToken, _, hydratedCount => ⟨[], [], .ok (hydratedCount, pageToken)⟩
  | budget + 1, i, pageToken, seen, hydratedCount =>
    match env.list i pageToken with
    | .error e => ⟨[pageToken], [], .error e⟩
    | .ok page =>
      match page.hydrated with
      | .error e => ⟨[pageToken], [], .error e⟩
      | .ok hydrated =>
        match page.published with
        | .error e => ⟨[pageToken], [hydrated], .error e⟩
        | .ok () =>
          if page.nextPageToken = "" then
            ⟨[pageToken], [hydrated], .ok (hydratedCount + hydrated, none)⟩
          else if some page.nextPageToken = pageToken ∨
              seen.contains page.nextPageToken then
            ⟨[pageToken], [hydrated], .error "Gmail search pagination repeated a page token"⟩
          else
            (walkPages env budget (i + 1) (some page.nextPageToken)
              (page.nextPageToken :: seen) (hydratedCount + hydrated)).after pageToken
              [hydrated]

/-- `hydrate_gmail_search_results`, up to the call of `on_continuation`. -/
def hydrateGmailSearchResults (env : Environment) (query : String) (maxPages : Int)
    (pageToken : String) : Walk :=
  if !env.canWrite then ⟨[], [], .ok (0, none)⟩
  else if truncate 200 (strip query) = "" then ⟨[], [], .ok (0, none)⟩
  else if !env.connected then ⟨[], [], .error "Google credentials are not connected"⟩
  else
    walkPages env (clamp maxPages gmailSearchMaxPages).toNat 0
      (if pageToken = "" then none else some pageToken)
      (if pageToken = "" then [] else [pageToken]) 0

/-- What the run of a job comes to, with the continuation that it queues. -/
structure JobRun where
  listed : List (Option String)
  notified : List Nat
  queued : Option Payload
  result : Except String Nat

def JobRun.finished (walk : Walk) (queued : Option Payload) (hydratedCount : Nat) : JobRun :=
  ⟨walk.listed, if walk.notified = [] then [hydratedCount] else walk.notified, queued,
    .ok hydratedCount⟩

def Library.runMailboxSearchHydration (lib : Library) (env : Environment) (payload : Payload) :
    JobRun :=
  if payload.searchKey = "" ∨ payload.searchKey ≠ lib.mailboxSearchKey payload.query payload.label
  then ⟨[], [], none, .error "gmail_search_hydrate has an invalid search key"⟩
  else
    match lib.validatedContinuation payload with
    | .error e => ⟨[], [], none, .error e⟩
    | .ok validated =>
      let walk := hydrateGmailSearchResults env payload.query
        (clamp payload.maxPages gmailSearchMaxPages) validated.pageToken
      match walk.result with
      | .error e => ⟨walk.listed, walk.notified, none, .error e⟩
      | .ok (hydratedCount, none) => JobRun.finished walk none hydratedCount
      | .ok (hydratedCount, some nextPageToken) =>
        match lib.enqueueContinuation payload validated nextPageToken, env.stores with
        | .error e, _ => ⟨walk.listed, walk.notified, none, .error e⟩
        | .ok _, .error e => ⟨walk.listed, walk.notified, none, .error e⟩
        | .ok next, .ok () => JobRun.finished walk (some next) hydratedCount

end ElectronicMail.Search
