import ElectronicMail.Foundations.Text
import ElectronicMail.Google.Errors

/-!
# A pending send and the decisions about it

The row of `gmail_pending_sends`, the statements that write it and the branches of
`_send_or_queue`, `run_pending_send` and `_perform_send_locked`, each as a function
from what the code has read to the point at which the execution goes on
(`Phase`). The statements and the Gmail calls between those points belong to the
interleaving of executions.
-/

namespace ElectronicMail.Sends

open Foundations
open Google

/-! ## The row and its statements -/

/-- The values of `gmail_pending_sends.state`. -/
inductive SendState where
  | queued
  | sending
  | sent
  | failed
  deriving DecidableEq

structure SendContent where
  toJson : List String
  ccJson : List String
  bccJson : List String
  subject : String
  bodyText : String
  bodyHtml : Option String
  headersJson : List (String × String)
  attachmentsJson : List (List (String × String))
  deriving DecidableEq

def SendContent.cleared : SendContent := ⟨[], [], [], "", "", none, [], []⟩

/-- A row of `gmail_pending_sends`; also the `PendingSendRecord` of an execution. -/
structure PendingSend where
  state : SendState
  error : Option String
  gmailMessageId : Option String
  gmailThreadId : Option String
  content : SendContent
  deriving DecidableEq

/-- The row that `upsert_pending_send` inserts. -/
def PendingSend.new (gmailThreadId : Option String) (content : SendContent) : PendingSend :=
  ⟨.queued, none, none, gmailThreadId, content⟩

/-- `state IN ('queued', 'failed')`. -/
def SendState.isClaimable : SendState → Bool
  | .queued => true
  | .failed => true
  | _ => false

/-- `claim_pending_send`: the claimed row, or `none` when the guard of the
`UPDATE` does not hold. -/
def claimPendingSend (row : PendingSend) : Option PendingSend :=
  if row.state.isClaimable then some { row with state := .sending, error := none } else none

def markPendingSendSent (gmailMessageId gmailThreadId : Option String) (row : PendingSend) :
    PendingSend where
  state := .sent
  error := none
  gmailMessageId := gmailMessageId
  gmailThreadId := gmailThreadId.or row.gmailThreadId
  content := .cleared

/-- `_update_pending_send_state`; the `UPDATE` has no guard on the state. -/
def updatePendingSendState (state : SendState) (error : Option String) (row : PendingSend) :
    PendingSend :=
  { row with state := state, error := error }

def markPendingSendFailed (error : String) (row : PendingSend) : PendingSend :=
  updatePendingSendState .failed (some (Text.truncate 4000 error)) row

/-! ## Classification of failures -/

def isAmbiguousPendingSend (record : PendingSend) : Bool :=
  record.state = .sending || (record.state = .queued && Text.truthy record.error)

def ambiguousGoogleHttpStatuses : List Int := [408, 409, 425, 429]

def isDefiniteGoogleClientRejection (status : Option Int) : Bool :=
  status.any fun n =>
    decide (400 ≤ n) && decide (n < 500) && !isAuthStatus (some n) &&
      !ambiguousGoogleHttpStatuses.contains n

/-- The exception handlers of `_send_or_queue` and `run_pending_send`: the error
with which they mark the record failed, or `none` when they leave it alone. Both
functions have the same handlers. -/
def failureMark (exc : ServiceError) : Option String :=
  match exc with
  | .credentialsUnavailable => some (safeGoogleError exc "mail delivery")
  | .http status =>
    if isAuthStatus status then some "Google needs mail send permission."
    else if isDefiniteGoogleClientRejection status then
      some (safeGoogleError exc "mail delivery")
    else none
  | .userMailWorkBlocked => none
  | .connection => none
  | .other => none

/-! ## Points of an execution -/

/-- The `id` and `threadId` of a Gmail message resource. -/
structure GmailResult where
  id : Option String
  threadId : Option String
  deriving DecidableEq

inductive SearchOutcome where
  | found (result : GmailResult)
  | missing
  | multiple
  | raised (exc : ServiceError)

/-- What `send_gmail_raw_message` gives. A response that is lost after Gmail
accepted the message is one of the exceptions. -/
inductive CallOutcome where
  | accepted (result : GmailResult)
  | raised (exc : ServiceError)

inductive FailureOrigin where
  | search
  | send

/-- Where an execution stands: the next statement or Gmail call it will make, with
the record it holds. -/
inductive Phase where
  | idle
  | entered (record : PendingSend)
  | searching (current : PendingSend)
  | preparing (current : PendingSend)
  | claiming (current : PendingSend)
  | calling (sending : PendingSend)
  | awaiting (sending : PendingSend)
  | finalizing (record : PendingSend) (result : GmailResult)
  | failing (origin : FailureOrigin) (error : String)
  | done

/-- The two functions an execution starts with: `_send_or_queue` under
`send_compose`, `send_reply` and `retry_send`, and `run_pending_send`. -/
inductive EntryPoint where
  | sendOrQueue
  | runPendingSend

def enter (entry : EntryPoint) (record : PendingSend) : Phase :=
  if record.state = .sent then .done
  else
    match entry with
    | .runPendingSend => .entered record
    | .sendOrQueue =>
      if (record.state = .sending || record.state = .queued) && Text.truthy record.gmailMessageId
      then .done
      else .entered record

/-- `_perform_send_locked` after it has read the record again. -/
def afterReread (current : PendingSend) : Phase :=
  if current.state = .sent then .done
  else if current.state = .sending || Text.truthy current.error then .searching current
  else .preparing current

def handle (origin : FailureOrigin) (exc : ServiceError) : Phase :=
  match failureMark exc with
  | some error => .failing origin error
  | none => .done

/-- `_perform_send_locked` after the Sent-folder search. An ambiguous record is
never sent again: its search failures become `MailSendConfirmationPending`. -/
def afterSearch (current : PendingSend) (outcome : SearchOutcome) : Phase :=
  match outcome with
  | .found result => .finalizing current result
  | .missing => if isAmbiguousPendingSend current then .done else .preparing current
  | .multiple => .done
  | .raised exc => if isAmbiguousPendingSend current then .done else handle .search exc

/-- `_perform_send_locked` after the Gmail call. -/
def afterCall (sending : PendingSend) (outcome : CallOutcome) : Phase :=
  match outcome with
  | .accepted result => .finalizing sending result
  | .raised exc => handle .send exc

/-- `str(value or "") or None`. -/
def textOrNone (value : Option String) : Option String :=
  if Text.truthy value then value else none

/-- The write of `_finalize_sent_message`. -/
def finalizeSentMessage (record : PendingSend) (result : GmailResult) (row : PendingSend) :
    PendingSend :=
  markPendingSendSent (textOrNone result.id)
    ((textOrNone result.threadId).or record.gmailThreadId) row

/-- A definite non-delivery: no credentials to call Gmail with, or a 4xx status of
Gmail that is not one of the ambiguous ones. -/
def CallOutcome.isNonDelivery : CallOutcome → Bool
  | .raised .credentialsUnavailable => true
  | .raised (.http (some n)) =>
    decide (400 ≤ n) && decide (n < 500) && !ambiguousGoogleHttpStatuses.contains n
  | _ => false

theorem claimPendingSend_eq_some {row row' : PendingSend} :
    claimPendingSend row = some row' ↔
      row.state.isClaimable = true ∧ row' = { row with state := .sending, error := none } := by
  unfold claimPendingSend
  by_cases h : row.state.isClaimable = true
  · rw [if_pos h]
    constructor
    · intro he
      exact ⟨h, (Option.some.inj he).symm⟩
    · rintro ⟨-, rfl⟩
      rfl
  · rw [if_neg h]
    constructor
    · intro he
      cases he
    · rintro ⟨hc, -⟩
      exact absurd hc h

theorem failureMark_isSome (exc : ServiceError) :
    (failureMark exc).isSome = (CallOutcome.raised exc).isNonDelivery := by
  cases exc with
  | credentialsUnavailable | userMailWorkBlocked | connection | other => rfl
  | http status =>
    cases status with
    | none => rfl
    | some n =>
      by_cases hauth : isAuthStatus (some n) = true
      · have hn : n = 401 ∨ n = 403 := by
          simpa [isAuthStatus] using hauth
        rcases hn with rfl | rfl
        · rfl
        · rfl
      · have hmark : failureMark (.http (some n)) =
            if isDefiniteGoogleClientRejection (some n) then
              some (safeGoogleError (.http (some n)) "mail delivery") else none := by
          simp [failureMark, hauth]
        rw [hmark]
        simp only [isDefiniteGoogleClientRejection, Option.any_some, hauth,
          CallOutcome.isNonDelivery]
        split <;> simp_all

theorem handle_cases (origin : FailureOrigin) (exc : ServiceError) :
    (∃ error, handle origin exc = .failing origin error ∧
      (CallOutcome.raised exc).isNonDelivery = true) ∨ handle origin exc = .done := by
  have hsome := failureMark_isSome exc
  unfold handle
  cases hmark : failureMark exc with
  | none => exact Or.inr rfl
  | some error =>
    rw [hmark] at hsome
    exact Or.inl ⟨error, rfl, hsome.symm⟩

end ElectronicMail.Sends
