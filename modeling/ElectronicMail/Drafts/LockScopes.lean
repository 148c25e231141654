import ElectronicMail.Foundations.Locks

/-!
# Advisory locks of mail operations

The lock scopes of `user_mail_guard` and the draft lock, each as the sequence of
acquisitions and releases it performs, and the operations that nest them. Session locks
of one operation are taken on one connection; a guarded write takes its transaction
lock on a second one.

What an operation does inside its scopes is any sequence of Gmail calls and guarded
writes, so that every path through it is covered. Lock keys are the identities that are
hashed.
-/

namespace ElectronicMail.Drafts

open Foundations.Locks

inductive LockConnection where
  /-- The session of `_advisory_lock_connection`. -/
  | advisory
  /-- The transaction of a guarded write. -/
  | write
  deriving DecidableEq

inductive MailAccount where
  | primary
  | added (gmailAccountId : String)

/-- What `user_mail_provider_lock_key` is called with. -/
inductive ProviderIdentity where
  | user (userId : String)
  | account (gmailAccountId : String)
  deriving DecidableEq

def MailAccount.identity (userId : String) : MailAccount → ProviderIdentity
  | .primary => .user userId
  | .added gmailAccountId => .account gmailAccountId

inductive LockKey where
  | googleSubject (subjectHash : String)
  | userMailProvider (identity : ProviderIdentity)
  | gmailDraft (userId gmailDraftId : String)
  | clientDraft (userId clientDraftId : String)
  | userMail (userId : String)
  deriving DecidableEq

abbrev LockHold := Hold LockConnection LockKey

abbrev LockAction := Action LockConnection LockKey

/-! ## Scopes -/

/-- `_advisory_lock_scope`: locks taken in order and released in reverse order. -/
def advisoryLockScope (body : List LockAction) : List LockHold → List LockAction
  | [] => body
  | hold :: locks => .acquire hold :: advisoryLockScope body locks ++ [.release hold]

def sessionLock (mode : Mode) (key : LockKey) : LockHold := ⟨.advisory, key, mode⟩

def sharedUserMailLock (userId : String) (body : List LockAction) : List LockAction :=
  advisoryLockScope body [sessionLock .shared (.userMailProvider (.user userId))]

def sharedGmailAccountMailLock (userId : String) (account : MailAccount)
    (body : List LockAction) : List LockAction :=
  advisoryLockScope body
    [sessionLock .shared (.userMailProvider (.user userId)),
      sessionLock .shared (.userMailProvider (account.identity userId))]

def exclusiveUserMailLock (userId : String) (body : List LockAction) : List LockAction :=
  advisoryLockScope body
    [sessionLock .exclusive (.userMailProvider (.user userId)),
      sessionLock .exclusive (.userMail userId)]

def exclusiveGoogleSubjectLock (subjectHash : String) (body : List LockAction) : List LockAction :=
  advisoryLockScope body [sessionLock .exclusive (.googleSubject subjectHash)]

/-- `user_mail_write_transaction`: `guard_user_mail_write` takes the transaction lock,
which the end of the transaction gives back. -/
def userMailWriteTransaction (userId : String) : List LockAction :=
  [.acquire ⟨.write, .userMail userId, .shared⟩, .release ⟨.write, .userMail userId, .shared⟩]

/-- The locks of `_ClientDraftLockHandle.acquire`. -/
def draftLocks (userId clientDraftId : String) (gmailDraftId : Option String) : List LockHold :=
  (gmailDraftId.map fun id => sessionLock .exclusive (.gmailDraft userId id)).toList ++
    [sessionLock .exclusive (.clientDraft userId clientDraftId)]

/-! ## Operations -/

/-- A call of the Gmail API: the account in scope, whether a refreshed token is written
back, and the number of requests. -/
structure GmailCall where
  account : Option MailAccount
  refreshed : Bool
  requests : Nat

def createAuthorizedCredentials (userId : String) (call : GmailCall) : List LockAction :=
  let body := if call.refreshed then userMailWriteTransaction userId else []
  match call.account with
  | none => sharedUserMailLock userId body
  | some account => sharedGmailAccountMailLock userId account body

/-- The credentials and then the requests, each under the barrier of
`_ProviderGuardedHttp`. -/
def gmailCall (userId : String) (call : GmailCall) : List LockAction :=
  createAuthorizedCredentials userId call ++
    (List.replicate call.requests (sharedUserMailLock userId [])).flatten

inductive ProviderStep where
  | gmail (call : GmailCall)
  | write

def ProviderStep.actions (userId : String) : ProviderStep → List LockAction
  | .gmail call => gmailCall userId call
  | .write => userMailWriteTransaction userId

def providerSteps (userId : String) (steps : List ProviderStep) : List LockAction :=
  (steps.map (ProviderStep.actions userId)).flatten

/-- `get_draft`: the search before the locks and the work inside them. -/
def getDraft (userId clientDraftId gmailDraftId : String) (search inside : List ProviderStep) :
    List LockAction :=
  providerSteps userId search ++
    sharedUserMailLock userId (advisoryLockScope (providerSteps userId inside)
      (draftLocks userId clientDraftId (some gmailDraftId)))

/-- What `save_draft` does under the draft lock; the short cut for unchanged content
opens the draft of the mapping, which is the one that is locked. -/
inductive SaveStep where
  | provider (step : ProviderStep)
  | reopen (search inside : List ProviderStep)

def SaveStep.actions (userId clientDraftId : String) (gmailDraftId : Option String) :
    SaveStep → List LockAction
  | .provider step => step.actions userId
  | .reopen search inside =>
    match gmailDraftId with
    | none => []
    | some id => getDraft userId clientDraftId id search inside

def saveScope (userId clientDraftId : String) (gmailDraftId : Option String)
    (steps : List SaveStep) : List LockAction :=
  advisoryLockScope ((steps.map (SaveStep.actions userId clientDraftId gmailDraftId)).flatten)
    (draftLocks userId clientDraftId gmailDraftId)

/-- `client_draft_lock` with the calls of `adopt_gmail_draft_id` and the work after
each: an adoption of another id releases all draft locks and takes the new ones. -/
def clientDraftLock (userId clientDraftId : String) : Option String → List SaveStep →
    List (String × List SaveStep) → List LockAction
  | gmailDraftId, steps, [] => saveScope userId clientDraftId gmailDraftId steps
  | gmailDraftId, steps, (adopted, more) :: adoptions =>
    if adopted = "" ∨ some adopted = gmailDraftId then
      clientDraftLock userId clientDraftId gmailDraftId (steps ++ more) adoptions
    else
      saveScope userId clientDraftId gmailDraftId steps ++
        clientDraftLock userId clientDraftId (some adopted) more adoptions

def saveDraft (userId clientDraftId : String) (gmailDraftId : Option String)
    (steps : List SaveStep) (adoptions : List (String × List SaveStep)) : List LockAction :=
  sharedUserMailLock userId (clientDraftLock userId clientDraftId gmailDraftId steps adoptions)

/-- `delete_draft_by_id` and `send_saved_draft`: one set of draft locks. -/
def lockedDraftOperation (userId clientDraftId gmailDraftId : String)
    (steps : List ProviderStep) : List LockAction :=
  sharedUserMailLock userId (advisoryLockScope (providerSteps userId steps)
    (draftLocks userId clientDraftId (some gmailDraftId)))

inductive Operation where
  | saveDraft (userId clientDraftId : String) (gmailDraftId : Option String)
      (steps : List SaveStep) (adoptions : List (String × List SaveStep))
  | getDraft (userId clientDraftId gmailDraftId : String) (search inside : List ProviderStep)
  | deleteDraftById (userId clientDraftId gmailDraftId : String) (steps : List ProviderStep)
  | sendSavedDraft (userId clientDraftId gmailDraftId : String) (steps : List ProviderStep)
  /-- Work under a provider barrier. -/
  | provider (userId : String) (account : Option MailAccount) (steps : List ProviderStep)
  /-- Calls and writes without a barrier around them. -/
  | unguarded (userId : String) (steps : List ProviderStep)
  /-- A disconnect, a deletion of mail data or of the account: `subjectHash` is locked
  first, and again for every tracked token revocation. -/
  | purge (userId subjectHash : String) (revocations : Nat)

def Operation.actions : Operation → List LockAction
  | .saveDraft userId clientDraftId gmailDraftId steps adoptions =>
    Drafts.saveDraft userId clientDraftId gmailDraftId steps adoptions
  | .getDraft userId clientDraftId gmailDraftId search inside =>
    Drafts.getDraft userId clientDraftId gmailDraftId search inside
  | .deleteDraftById userId clientDraftId gmailDraftId steps =>
    lockedDraftOperation userId clientDraftId gmailDraftId steps
  | .sendSavedDraft userId clientDraftId gmailDraftId steps =>
    lockedDraftOperation userId clientDraftId gmailDraftId steps
  | .provider userId none steps => sharedUserMailLock userId (providerSteps userId steps)
  | .provider userId (some account) steps =>
    sharedGmailAccountMailLock userId account (providerSteps userId steps)
  | .unguarded userId steps => providerSteps userId steps
  | .purge userId subjectHash revocations =>
    exclusiveGoogleSubjectLock subjectHash (exclusiveUserMailLock userId
      (List.replicate revocations (exclusiveGoogleSubjectLock subjectHash [])).flatten)

end ElectronicMail.Drafts
