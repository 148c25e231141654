import ElectronicMail.Drafts.Content
import ElectronicMail.Sends.PendingSend

/-!
# Operations on drafts

`save_draft`, `get_draft`, `delete_draft_by_id` and `send_saved_draft` as program points.
Between two points an operation runs one statement or waits for one answer of Gmail;
`draftStep` is that step, from the table, the point and the answer to the table and what
comes next. Answers of Gmail are arbitrary, and an answer that the point does not wait
for is no step.

Locks are taken where an operation opens and where it adopts another Gmail draft
(`Next.adopt`); a `DraftHandle` is what `_ClientDraftLockHandle` holds.
-/

namespace ElectronicMail.Drafts

open Google
open Sends (isDefiniteGoogleClientRejection)

/-! ## Failures of Gmail calls -/

/-- The failures after which Gmail has done nothing: missing credentials, a missing
permission and `_is_definite_google_client_rejection`. -/
def isDefiniteFailure : ServiceError → Bool
  | .credentialsUnavailable => true
  | .http status => isAuthStatus status || isDefiniteGoogleClientRejection status
  | _ => false

/-- The failures after which `send_saved_draft` makes the draft sendable again. A draft
that is not found may have been sent. -/
def isDefiniteSendFailure (exc : ServiceError) : Bool :=
  isDefiniteFailure exc && exc != .http (some 404)

def needsReauth : ServiceError → Bool
  | .credentialsUnavailable => true
  | .http status => isAuthStatus status
  | _ => false

/-! ## Responses -/

/-- `MailDraftResponse.state`. -/
inductive ResponseState where
  | saved
  | deleted
  | sent
  | failed
  | reauthRequired
  deriving DecidableEq

/-- `MailDraftResponse` without the content it shows. -/
structure MailDraftResponse where
  clientDraftId : String
  gmailDraftId : Option String := none
  gmailMessageId : Option String := none
  gmailThreadId : Option String := none
  state : ResponseState
  error : Option String := none
  deriving DecidableEq

/-- `MailSendResponse.state` as far as drafts use it. -/
inductive SendResponseState where
  | sent
  | sending
  | failed
  | reauthRequired
  deriving DecidableEq

structure MailSendResponse where
  clientSendId : String
  gmailThreadId : Option String := none
  gmailMessageId : Option String := none
  state : SendResponseState
  error : Option String := none
  deriving DecidableEq

/-- How an operation ends: with a response, with `MailDraftIdentityConflict` or with
another exception. -/
inductive Finish where
  | draft (response : MailDraftResponse)
  | send (response : MailSendResponse)
  | delete (done : Bool)
  | conflict (error : String)
  | raised
  deriving DecidableEq

def reauthRequired (clientDraftId : String) : Finish :=
  .draft
    { clientDraftId := clientDraftId
      state := .reauthRequired
      error := some "Google needs full mail permission." }

def sendReauthRequired (clientSendId : String) : Finish :=
  .send
    { clientSendId := clientSendId
      state := .reauthRequired
      error := some "Google needs full mail permission." }

def draftFailed (clientDraftId error : String) : Finish :=
  .draft { clientDraftId := clientDraftId, state := .failed, error := some error }

/-- The state that `_draft_response` shows. -/
def responseState : DraftState → ResponseState
  | .saved => .saved
  | .deleted => .deleted
  | .sent => .sent
  | _ => .failed

def draftResponse (record : ClientDraft) : MailDraftResponse where
  clientDraftId := record.clientDraftId
  gmailDraftId := record.gmailDraftId
  gmailMessageId := record.gmailMessageId
  gmailThreadId := record.gmailThreadId
  state := responseState record.state
  error := record.error

def noneditableDraftResponse (record : ClientDraft) : MailDraftResponse :=
  if record.state = .sending then
    { draftResponse record with
      state := .failed
      error := some "This draft is being sent and cannot be edited." }
  else draftResponse record

def pendingDraftSendResponse (mapping : ClientDraft) (error : String) : Finish :=
  .send
    { clientSendId := mapping.lastClientSendId.getD ""
      gmailThreadId := mapping.gmailThreadId
      state := .sending
      error := some error }

def deliveryPending : String := "Delivery is still being confirmed. Retry safely."

def deliveryAmbiguous : String :=
  "Multiple Sent copies matched this delivery. " ++
    "Delivery is ambiguous and will not be retried automatically."

/-! ## Points -/

/-- The client and the Gmail draft of `_ClientDraftLockHandle`. -/
structure DraftHandle where
  clientDraftId : String
  gmailDraftId : Option String

structure GmailResource where
  id : Option String
  messageId : Option String
  threadId : Option String

structure SaveWork where
  request : MailDraftSaveRequest
  existing : Option ClientDraft
  gmailDraftId : Option String
  effective : EffectiveDraft
  contentHash : String
  deriving DecidableEq

structure ProviderResult where
  gmailDraftId : String
  gmailMessageId : Option String
  gmailThreadId : Option String
  deriving DecidableEq

inductive Point where
  | saveEntered (request : MailDraftSaveRequest)
  | saveAdopted (request : MailDraftSaveRequest) (gmailDraftId : String)
  | saveSearching (request : MailDraftSaveRequest) (existing : Option ClientDraft)
  | savePreparing (request : MailDraftSaveRequest) (existing : Option ClientDraft)
      (gmailDraftId : Option String)
  | saveCheckpoint (work : SaveWork)
  | saveCalling (work : SaveWork)
  | saveAwaiting (work : SaveWork)
  | saveCreateFailed (work : SaveWork) (error : String) (response : Finish)
  | saveRebinding (work : SaveWork) (result : ProviderResult)
  | saveConfirming (work : SaveWork) (result : ProviderResult)
      (authoritativeRebound : Option ClientDraft)
  | saveGone (work : SaveWork) (result : ProviderResult)
  | saveStoring (work : SaveWork) (result : ProviderResult)
  | saveHydrating (work : SaveWork) (result : ProviderResult) (record : ClientDraft)
  | saveHydrated (work : SaveWork) (result : ProviderResult) (record : ClientDraft)
  /-- `get_draft` called by `save_draft`, before it reads the mapping again. -/
  | saveReopening (work : SaveWork) (gmailDraftId : String)
  /-- `caller` is the save that returns what the get returns. -/
  | getEntered (gmailDraftId : String) (mapping : Option ClientDraft) (clientDraftId : String)
      (caller : Option SaveWork)
  | getFetching (gmailDraftId : String) (mapping : Option ClientDraft) (clientDraftId : String)
      (caller : Option SaveWork)
  | getStoring (gmailDraftId : String) (mapping : Option ClientDraft) (clientDraftId : String)
      (message : DraftMessage) (caller : Option SaveWork)
  | deleteEntered (gmailDraftId : String)
  | deleteFetching (gmailDraftId : String) (mapping : Option ClientDraft)
  | deleteCalling (gmailDraftId : String) (mapping : Option ClientDraft)
  | deleteMarking (gmailDraftId : String) (mapping : ClientDraft)
  | sendEntered (clientDraftId gmailDraftId clientSendId : String)
  | sendClaiming (mapping : ClientDraft) (clientSendId : String)
  | sendCalling (sending : ClientDraft) (clientSendId : String)
  | sendAwaiting (sending : ClientDraft) (clientSendId : String)
  | sendRestoring (sending : ClientDraft) (clientSendId error : String) (rejected : Bool)
  | sendReconciling (sending : ClientDraft)
  | sendFinalizing (sending : ClientDraft) (gmailMessageId : String) (gmailThreadId : Option String)
  deriving DecidableEq

inductive Answer where
  /-- The next statement runs. -/
  | proceed
  /-- `_can_manage_drafts` answers `False`. -/
  | refused
  /-- The id of the draft that a search found. -/
  | found (gmailDraftId : Option String)
  /-- What a save reads before it knows the content. -/
  | reads (reads : DraftReads)
  /-- A `ValueError` in those reads. -/
  | invalid
  /-- A resource, of a call or of the search in Sent. -/
  | resource (resource : GmailResource)
  /-- A full draft: its message. -/
  | fetched (message : Option DraftMessage)
  /-- The search in Sent found nothing. -/
  | missing
  /-- `MultipleSentGmailMessagesFound`. -/
  | multiple
  | raised (exc : ServiceError)

inductive Next where
  | goto (point : Point)
  /-- `adopt_gmail_draft_id`, and on at the point. -/
  | adopt (gmailDraftId : String) (point : Point)
  | finish (result : Finish)

/-! ## `save_draft` -/

/-- `_require_mutable_draft_mapping`: the error it raises. -/
def requireMutableDraftMapping (existing : Option ClientDraft) (requested : Option String) :
    Option String :=
  match existing with
  | none => none
  | some row =>
    if row.state = .sent ∨ row.state = .deleted then some "This draft is already finalized."
    else if row.state = .sending then
      some "This draft is being sent and cannot be changed until delivery is confirmed."
    else if row.gmailDraftId ≠ none ∧ given requested ≠ none ∧ row.gmailDraftId ≠ requested then
      some "This client draft is already bound to a different Gmail draft."
    else none

def enterSave (lockGmailDraftId : Option String) (request : MailDraftSaveRequest)
    (existing : Option ClientDraft) : Next :=
  match requireMutableDraftMapping existing request.gmailDraftId with
  | some error => .finish (.conflict error)
  | none =>
    match (existing.bind ClientDraft.gmailDraftId).or (given request.gmailDraftId) with
    | none => .goto (.saveSearching request existing)
    | some g =>
      if lockGmailDraftId = some g then .goto (.savePreparing request existing (some g))
      else .adopt g (.saveAdopted request g)

def adoptedSave (request : MailDraftSaveRequest) (g : String) (existing : Option ClientDraft) :
    Next :=
  match requireMutableDraftMapping existing (some g) with
  | some error => .finish (.conflict error)
  | none => .goto (.savePreparing request existing (some g))

def preparingFailed (request : MailDraftSaveRequest) (exc : ServiceError) : Next :=
  if needsReauth exc then .finish (reauthRequired request.clientDraftId) else .finish .raised

def searchedSave (lockGmailDraftId : Option String) (request : MailDraftSaveRequest)
    (existing : Option ClientDraft) (found : Option String) : Next :=
  match given found with
  | some g =>
    if lockGmailDraftId = some g then .goto (.savePreparing request existing (some g))
    else .adopt g (.saveAdopted request g)
  | none =>
    if existing.any fun row => decide (row.state = .creating) then
      .finish (draftFailed request.clientDraftId
        "The earlier draft save is still being confirmed. Retry shortly.")
    else .goto (.savePreparing request existing none)

/-- `existing.state in {"creating", "failed"}`, or no row. -/
def needsCheckpoint (existing : Option ClientDraft) : Bool :=
  existing.all fun row => decide (row.state = .creating ∨ row.state = .failed)

/-- The short cut for content that is saved already: the Gmail draft to show. -/
def unchangedDraft (existing : Option ClientDraft) (contentHash : String) : Option String :=
  match existing with
  | none => none
  | some row =>
    if row.state = .saved ∧ row.contentHash = contentHash then row.gmailDraftId else none

def preparedSave (work : SaveWork) : Next :=
  match unchangedDraft work.existing work.contentHash with
  | some g => .goto (.saveReopening work g)
  | none =>
    if needsCheckpoint work.existing then .goto (.saveCheckpoint work)
    else .goto (.saveCalling work)

def checkpointUpsert (work : SaveWork) : DraftUpsert where
  clientDraftId := work.request.clientDraftId
  gmailDraftId := work.gmailDraftId
  gmailMessageId := work.existing.bind ClientDraft.gmailMessageId
  gmailThreadId := work.effective.gmailThreadId
  contentHash := work.contentHash
  state := .creating

def providerFailed (work : SaveWork) (exc : ServiceError) : Next :=
  let clientDraftId := work.request.clientDraftId
  let create := work.gmailDraftId.isNone
  match exc with
  | .credentialsUnavailable =>
    if create then
      .goto (.saveCreateFailed work "Google credentials are not connected."
        (reauthRequired clientDraftId))
    else .finish (reauthRequired clientDraftId)
  | .http status =>
    if isAuthStatus status then
      if create then
        .goto (.saveCreateFailed work "Google needs full mail permission."
          (reauthRequired clientDraftId))
      else .finish (reauthRequired clientDraftId)
    else if create ∧ isDefiniteGoogleClientRejection status then
      let error := "Google rejected the draft. Check its fields and try saving again."
      .goto (.saveCreateFailed work error (draftFailed clientDraftId error))
    else .finish .raised
  | _ => .finish .raised

/-- `_mark_definite_create_failure`. -/
def createFailureUpsert (record : ClientDraft) (error : String) : DraftUpsert where
  clientDraftId := record.clientDraftId
  gmailDraftId := record.gmailDraftId
  gmailMessageId := record.gmailMessageId
  gmailThreadId := record.gmailThreadId
  contentHash := record.contentHash
  state := .failed
  error := some error

def providerAccepted (work : SaveWork) (resource : GmailResource) : Next :=
  match (given resource.id).or work.gmailDraftId with
  | none =>
    .finish (draftFailed work.request.clientDraftId
      "The draft was accepted but its Gmail identity is still being confirmed. Retry shortly.")
  | some g =>
    let result : ProviderResult :=
      ⟨g, given resource.messageId,
        (given resource.threadId).or (given work.effective.gmailThreadId)⟩
    if work.gmailDraftId.isNone then .adopt g (.saveRebinding work result)
    else .goto (.saveStoring work result)

/-- The checkpoint of a waiter that is authoritative after the handoff. -/
def authoritativeRebound (work : SaveWork) (rebound : Option ClientDraft) : Option ClientDraft :=
  rebound.filter fun row =>
    decide (row.state = .saved ∨ (row.state = .creating ∧ row.contentHash ≠ work.contentHash))

def reboundSave (work : SaveWork) (result : ProviderResult) (rebound : Option ClientDraft) : Next :=
  match requireMutableDraftMapping rebound (some result.gmailDraftId) with
  | some error => .finish (.conflict error)
  | none =>
    .goto (.saveConfirming { work with existing := rebound.or work.existing } result
      (authoritativeRebound work rebound))

def authoritativeResponse (record : ClientDraft) : MailDraftResponse :=
  if record.state = .creating then
    { draftResponse record with
      state := .failed
      error := some "A newer draft save is still being confirmed. Retry shortly." }
  else draftResponse record

def ProviderResult.refined (result : ProviderResult) (resource : GmailResource) : ProviderResult :=
  { result with
    gmailMessageId := (given resource.messageId).or result.gmailMessageId
    gmailThreadId := (given resource.threadId).or result.gmailThreadId }

def confirmedSave (work : SaveWork) (result : ProviderResult)
    (authoritative : Option ClientDraft) (resource : GmailResource) : Next :=
  match authoritative with
  | some record => .finish (.draft (authoritativeResponse record))
  | none => .goto (.saveStoring work (result.refined resource))

def confirmationFailed (work : SaveWork) (result : ProviderResult) (exc : ServiceError) : Next :=
  if needsReauth exc then .finish (reauthRequired work.request.clientDraftId)
  else if exc = .http (some 404) then .goto (.saveGone work result)
  else .finish .raised

def draftGoneError : String :=
  "The new Gmail draft was deleted before saving completed. Create a new draft."

def resultUpsert (work : SaveWork) (result : ProviderResult) (state : DraftState)
    (error : Option String) : DraftUpsert where
  clientDraftId := work.request.clientDraftId
  gmailDraftId := some result.gmailDraftId
  gmailMessageId := result.gmailMessageId
  gmailThreadId := result.gmailThreadId
  contentHash := work.contentHash
  state := state
  error := error

def storedSave (work : SaveWork) (result : ProviderResult) (record : ClientDraft) : Next :=
  match result.gmailMessageId with
  | some _ => .finish (.draft (draftResponse record))
  | none => .goto (.saveHydrating work result record)

def hydratedSave (work : SaveWork) (result : ProviderResult) (record : ClientDraft)
    (resource : GmailResource) : Next :=
  match given resource.messageId with
  | none => .finish (.draft (draftResponse record))
  | some _ => .goto (.saveHydrated work (result.refined resource) record)

/-! ## `get_draft` -/

def fallbackClientDraftId (gmailDraftId : String) : String := "gmail:" ++ gmailDraftId

/-- `state in {"sending", "sent", "deleted"}`. -/
def DraftState.isFinal : DraftState → Bool
  | .sending => true
  | .sent => true
  | .deleted => true
  | _ => false

def enterGet (g : String) (mapping : Option ClientDraft) (clientDraftId : String)
    (caller : Option SaveWork) (current : Option ClientDraft) : Next :=
  match current with
  | none => .goto (.getFetching g mapping clientDraftId caller)
  | some row =>
    if row.state.isFinal then .finish (.draft (noneditableDraftResponse row))
    else .goto (.getFetching g (some row) row.clientDraftId caller)

def fetchedGet (g : String) (mapping : Option ClientDraft) (clientDraftId : String)
    (caller : Option SaveWork) (message : Option DraftMessage) : Next :=
  match message with
  | none => .finish (draftFailed clientDraftId "Draft message is missing.")
  | some m => .goto (.getStoring g mapping clientDraftId m caller)

def getFailed (clientDraftId : String) (exc : ServiceError) : Next :=
  if needsReauth exc then .finish (reauthRequired clientDraftId)
  else if exc = .http (some 404) then .finish (draftFailed clientDraftId "Draft not found.")
  else .finish .raised

def observedHash (mapping : Option ClientDraft) (message : DraftMessage) : String :=
  match mapping with
  | none => message.bodyHash
  | some row => if row.state = .saved then row.contentHash else message.bodyHash

def getUpsert (g : String) (mapping : Option ClientDraft) (clientDraftId : String)
    (message : DraftMessage) : DraftUpsert where
  clientDraftId := clientDraftId
  gmailDraftId := some g
  gmailMessageId := some message.messageId
  gmailThreadId := message.gmailThreadId
  contentHash := observedHash mapping message
  state := .saved

/-! ## `delete_draft_by_id` -/

def notDeletable : String :=
  "This draft is being sent or was already sent and cannot be deleted."

def enterDelete (g : String) (mapping : Option ClientDraft) : Next :=
  if mapping.any fun row => decide (row.state = .sending ∨ row.state = .sent) then
    .finish (.conflict notDeletable)
  else
    match mapping.bind ClientDraft.gmailMessageId with
    | none => .goto (.deleteFetching g mapping)
    | some _ => .goto (.deleteCalling g mapping)

/-- After `delete_gmail_draft`. -/
def deletedAtGmail (g : String) (mapping : Option ClientDraft) : Next :=
  match mapping with
  | none => .finish (.delete true)
  | some row => .goto (.deleteMarking g row)

def deleteFailed (exc : ServiceError) (notFound : Next) : Next :=
  match exc with
  | .credentialsUnavailable => .finish (.delete false)
  | .http status => if status = some 404 then notFound else .finish .raised
  | _ => .finish .raised

/-! ## `send_saved_draft` -/

def enterSend (g clientSendId : String) (mapping : Option ClientDraft) : Next :=
  match mapping with
  | none => .finish (.conflict "Save this draft before sending it.")
  | some row =>
    match row.gmailDraftId with
    | none => .finish (.conflict "Save this draft before sending it.")
    | some bound =>
      if bound ≠ g then
        .finish (.conflict "This client draft is bound to a different Gmail draft.")
      else
        match row.state with
        | .sent =>
          if row.lastClientSendId ≠ some clientSendId then
            .finish (.conflict "This draft was already sent with a different send identity.")
          else
            .finish (.send
              { clientSendId := clientSendId
                gmailThreadId := row.gmailThreadId
                gmailMessageId := row.sentMessageId
                state := .sent })
        | .sending =>
          if row.lastClientSendId ≠ some clientSendId then
            .finish (.conflict "A different send attempt is already being confirmed.")
          else .goto (.sendReconciling row)
        | .saved => .goto (.sendClaiming row clientSendId)
        | _ => .finish (.conflict "This draft is not ready to send.")

def sendFailed (sending : ClientDraft) (clientSendId : String) (exc : ServiceError) : Next :=
  match exc with
  | .credentialsUnavailable =>
    .goto (.sendRestoring sending clientSendId "Google credentials are not connected." false)
  | .http status =>
    if isAuthStatus status then
      .goto (.sendRestoring sending clientSendId "Google needs full mail permission." false)
    else if status = some 404 then .goto (.sendReconciling sending)
    else if isDefiniteGoogleClientRejection status then
      .goto (.sendRestoring sending clientSendId
        "Google rejected the send. Check the draft and try again." true)
    else .finish (pendingDraftSendResponse sending deliveryPending)
  | _ => .finish (pendingDraftSendResponse sending deliveryPending)

def sendAccepted (sending : ClientDraft) (resource : GmailResource) : Next :=
  match given resource.id with
  | none => .goto (.sendReconciling sending)
  | some gmailMessageId =>
    .goto (.sendFinalizing sending gmailMessageId (given resource.threadId))

def restoredSend (clientSendId error : String) (rejected : Bool) (restored : Option ClientDraft) :
    Finish :=
  if rejected then
    match restored with
    | none => .raised
    | some row =>
      .send
        { clientSendId := clientSendId
          gmailThreadId := row.gmailThreadId
          state := .failed
          error := some error }
  else sendReauthRequired clientSendId

/-- `_reconcile_sending_draft`: a message found in Sent. -/
def reconciledSend (sending : ClientDraft) (resource : GmailResource) : Next :=
  match given resource.id with
  | none => .finish (pendingDraftSendResponse sending deliveryPending)
  | some gmailMessageId =>
    .goto (.sendFinalizing sending gmailMessageId
      ((given resource.threadId).or sending.gmailThreadId))

/-- `_reconcile_sending_draft`: the search failed. -/
def reconcileFailed (sending : ClientDraft) (exc : ServiceError) : Finish :=
  if needsReauth exc then sendReauthRequired (sending.lastClientSendId.getD "")
  else pendingDraftSendResponse sending deliveryPending

/-- The response of `_finalize_draft_send`. -/
def finalizedSend (row : ClientDraft) : Finish :=
  .send
    { clientSendId := row.lastClientSendId.getD ""
      gmailThreadId := row.gmailThreadId
      gmailMessageId := row.sentMessageId
      state := .sent }

/-! ## One step -/

/-- After a statement that returns a row, and after one that returns none. -/
def afterStatement (table : DraftTable) (written : Option (DraftTable × ClientDraft))
    (returned : ClientDraft → Next) (nothing : Next) : DraftTable × Next :=
  match written with
  | none => (table, nothing)
  | some (after, row) => (after, returned row)

/-- One step of an operation that holds the locks of `handle`; `none` when the point does
not wait for the answer. -/
def draftStep (codec : DraftCodec) (handle : DraftHandle) (table : DraftTable) :
    Point → Answer → Option (DraftTable × Next)
  | .saveEntered request, .proceed =>
    some (table, enterSave handle.gmailDraftId request (table.byClient request.clientDraftId))
  | .saveAdopted request g, .proceed =>
    some (table, adoptedSave request g (table.byClient request.clientDraftId))
  | .saveSearching request existing, .found g =>
    some (table, searchedSave handle.gmailDraftId request existing g)
  | .saveSearching request _, .raised exc => some (table, preparingFailed request exc)
  | .savePreparing request existing g, .reads reads =>
    some (table,
      match effectiveDraft codec request existing g reads with
      | none => .finish (draftFailed request.clientDraftId "Operation failed.")
      | some effective =>
        preparedSave ⟨request, existing, g, effective, draftContentHash codec request effective⟩)
  | .savePreparing request _ _, .invalid =>
    some (table, .finish (draftFailed request.clientDraftId "Operation failed."))
  | .savePreparing request _ _, .raised exc => some (table, preparingFailed request exc)
  | .saveCheckpoint work, .proceed =>
    some (afterStatement table (upsertClientDraft table (checkpointUpsert work))
      (fun row => .goto (.saveCalling { work with existing := some row })) (.finish .raised))
  -- The call is on its way.
  | .saveCalling work, .proceed => some (table, .goto (.saveAwaiting work))
  | .saveAwaiting work, .resource resource => some (table, providerAccepted work resource)
  | .saveAwaiting work, .raised exc => some (table, providerFailed work exc)
  | .saveCreateFailed work error response, .proceed =>
    match work.existing with
    | none => none
    | some record =>
      some (afterStatement table (upsertClientDraft table (createFailureUpsert record error))
        (fun _ => .finish response) (.finish .raised))
  | .saveRebinding work result, .proceed =>
    some (table, reboundSave work result (table.byClient work.request.clientDraftId))
  | .saveConfirming work result authoritative, .resource resource =>
    some (table, confirmedSave work result authoritative resource)
  | .saveConfirming work result _, .raised exc =>
    some (table, confirmationFailed work result exc)
  | .saveGone work result, .proceed =>
    some (afterStatement table
      (upsertClientDraft table (resultUpsert work result .deleted (some draftGoneError)))
      (fun _ => .finish (.draft
        { clientDraftId := work.request.clientDraftId
          gmailDraftId := some result.gmailDraftId
          state := .failed
          error := some draftGoneError }))
      (.finish .raised))
  | .saveStoring work result, .proceed =>
    some (afterStatement table (upsertClientDraft table (resultUpsert work result .saved none))
      (storedSave work result) (.finish .raised))
  | .saveHydrating work result record, .resource resource =>
    some (table, hydratedSave work result record resource)
  -- What fails after the draft is saved is logged.
  | .saveHydrating _ _ record, .raised _ => some (table, .finish (.draft (draftResponse record)))
  | .saveHydrated work result record, .proceed =>
    some (afterStatement table (upsertClientDraft table (resultUpsert work result .saved none))
      (fun row => .finish (.draft (draftResponse row)))
      (.finish (.draft (draftResponse record))))
  | .saveReopening work g, .proceed =>
    some (table,
      .goto (.getEntered g (table.byGmail g)
        ((table.byGmail g).elim (fallbackClientDraftId g) ClientDraft.clientDraftId)
        (some work)))
  | .saveReopening _ g, .refused => some (table, .finish (reauthRequired (fallbackClientDraftId g)))
  | .getEntered g mapping client caller, .proceed =>
    some (table, enterGet g mapping client caller (table.byGmail g))
  | .getFetching g mapping client caller, .fetched message =>
    some (table, fetchedGet g mapping client caller message)
  | .getFetching _ _ client _, .raised exc => some (table, getFailed client exc)
  | .getStoring g mapping client message _, .proceed =>
    some (afterStatement table (upsertClientDraft table (getUpsert g mapping client message))
      (fun row => .finish (.draft (draftResponse row))) (.finish .raised))
  | .deleteEntered g, .proceed => some (table, enterDelete g (table.byGmail g))
  | .deleteFetching g mapping, .resource _ => some (table, .goto (.deleteCalling g mapping))
  | .deleteFetching g mapping, .raised exc =>
    some (table, deleteFailed exc (.goto (.deleteCalling g mapping)))
  | .deleteCalling g mapping, .proceed => some (table, deletedAtGmail g mapping)
  | .deleteCalling g mapping, .raised exc =>
    some (table, deleteFailed exc (deletedAtGmail g mapping))
  | .deleteMarking _ mapping, .proceed =>
    some (afterStatement table (markClientDraftDeleted table mapping.clientDraftId)
      (fun _ => .finish (.delete true)) (.finish (.conflict notDeletable)))
  | .sendEntered client g clientSendId, .proceed =>
    some (table, enterSend g clientSendId (table.byClient client))
  | .sendClaiming mapping clientSendId, .proceed =>
    some (afterStatement table
      (markClientDraftSending table mapping.clientDraftId clientSendId)
      (fun row => .goto (.sendCalling row clientSendId))
      (.finish (.conflict "This draft changed before it could be sent.")))
  -- The call is on its way.
  | .sendCalling sending clientSendId, .proceed =>
    some (table, .goto (.sendAwaiting sending clientSendId))
  | .sendAwaiting sending _, .resource resource => some (table, sendAccepted sending resource)
  | .sendAwaiting sending clientSendId, .raised exc =>
    some (table, sendFailed sending clientSendId exc)
  | .sendRestoring sending clientSendId error rejected, .proceed =>
    some (afterStatement table
      (restoreClientDraftAfterDefiniteSendFailure table sending.clientDraftId clientSendId error)
      (fun row => .finish (restoredSend clientSendId error rejected (some row)))
      (.finish (restoredSend clientSendId error rejected none)))
  | .sendReconciling sending, .resource resource => some (table, reconciledSend sending resource)
  | .sendReconciling sending, .missing =>
    some (table, .finish (pendingDraftSendResponse sending deliveryPending))
  | .sendReconciling sending, .multiple =>
    some (table, .finish (pendingDraftSendResponse sending deliveryAmbiguous))
  | .sendReconciling sending, .raised exc => some (table, .finish (reconcileFailed sending exc))
  | .sendFinalizing sending gmailMessageId gmailThreadId, .proceed =>
    some (afterStatement table
      (markClientDraftSent table sending.clientDraftId (sending.lastClientSendId.getD "")
        (some gmailMessageId) gmailThreadId)
      (fun row => .finish (finalizedSend row)) (.finish .raised))
  | _, _ => none

/-! ## Opening an operation -/

inductive DraftCall where
  | save (request : MailDraftSaveRequest)
  | get (mailboxThreadId : String)
  | delete (gmailDraftId : String)
  | send (clientDraftId gmailDraftId clientSendId : String)

inductive Opening where
  /-- The draft of a mailbox thread is looked for. -/
  | resolving (mailboxThreadId : String)
  | locking (handle : DraftHandle) (point : Point)
  | finish (result : Finish)

/-- `_can_manage_drafts` answers `False`. -/
def refusedCall : DraftCall → Finish
  | .save request => reauthRequired request.clientDraftId
  | .get mailboxThreadId => reauthRequired (fallbackClientDraftId mailboxThreadId)
  | .delete _ => .delete false
  | .send _ _ clientSendId => sendReauthRequired clientSendId

/-- The validation at the head of `save_draft`. -/
def validSave (codec : DraftCodec) (request : MailDraftSaveRequest) : Bool :=
  (codec.validatedAddresses request.toAddresses).isSome &&
    (codec.validatedAddresses request.ccAddresses).isSome &&
    (codec.validatedAddresses request.bccAddresses).isSome && codec.validSubject request.subject

def lockGet (g : String) (mapping : Option ClientDraft) : Opening :=
  let clientDraftId := mapping.elim (fallbackClientDraftId g) ClientDraft.clientDraftId
  .locking ⟨clientDraftId, some g⟩ (.getEntered g mapping clientDraftId none)

def openCall (codec : DraftCodec) (table : DraftTable) : DraftCall → Opening
  | .save request =>
    if validSave codec request then
      let lockGmailDraftId :=
        (given request.gmailDraftId).or
          ((table.byClient request.clientDraftId).bind ClientDraft.gmailDraftId)
      .locking ⟨request.clientDraftId, lockGmailDraftId⟩ (.saveEntered request)
    else .finish (draftFailed request.clientDraftId "Operation failed.")
  | .get mailboxThreadId =>
    match table.byGmail mailboxThreadId with
    | none => .resolving mailboxThreadId
    | some mapping => lockGet mailboxThreadId (some mapping)
  | .delete g =>
    let clientDraftId := (table.byGmail g).elim (fallbackClientDraftId g) ClientDraft.clientDraftId
    .locking ⟨clientDraftId, some g⟩ (.deleteEntered g)
  | .send client g clientSendId => .locking ⟨client, some g⟩ (.sendEntered client g clientSendId)

/-- The search of a get for the draft of a thread; without a local draft message there is
none. -/
def resolveGet (mailboxThreadId : String) : Answer → Option Opening
  | .found g => some (lockGet ((given g).getD mailboxThreadId) none)
  | .raised exc =>
    some (.finish (if needsReauth exc then
      reauthRequired (fallbackClientDraftId mailboxThreadId) else .raised))
  | _ => none

end ElectronicMail.Drafts
