import ElectronicMail.Actions.Labels
import ElectronicMail.Foundations.Run
import ElectronicMail.Foundations.Table
import Mathlib.Data.List.Sort

/-!
# Thread actions of the desktop client

`enqueueThreadAction` sends an action, and stores it when the call fails in a way that may
pass. `replayPendingThreadActions` sends what is stored in the order of `updated_at`, and
stops at the first failure that is not final. Calls and replays overlap, and a request that
the client has given up may still reach the server.
-/

namespace ElectronicMail.Offline

open Foundations.Table
open Actions (ThreadAction)

/-! ## Requests and rows -/

/-- `QueuedThreadActionRequest`. The ids of actions are numbers in the order of issue. -/
structure QueuedThreadActionRequest where
  gmailAccountId : Option Nat
  clientActionId : Nat
  mailboxThreadId : Nat
  targetMessageId : Option Nat
  action : ThreadAction
  createdAt : Nat
  deriving DecidableEq

/-- The codes of `URLError` that the client tells apart. -/
inductive UrlErrorCode where
  | timedOut
  | cannotFindHost
  | cannotConnectToHost
  | networkConnectionLost
  | dnsLookupFailed
  | notConnectedToInternet
  | internationalRoamingOff
  | callIsActive
  | dataNotAllowed
  | secureConnectionFailed
  | other
  deriving DecidableEq

inductive CallError where
  | httpStatus (status : Nat)
  | url (code : UrlErrorCode)
  | other

def isRetryableOfflineActionError : CallError → Bool
  | .httpStatus status => status == 408 || status == 429 || 500 ≤ status
  | .url code => code != .other
  | .other => false

def shouldDiscardReplayedOfflineAction : CallError → Bool
  | .httpStatus status => [400, 404, 409, 410, 413, 422].contains status
  | .url _ => false
  | .other => false

structure LocalPendingThreadAction where
  clientActionId : Nat
  userId : Nat
  mailboxThreadId : Nat
  targetMessageId : Option Nat
  action : ThreadAction
  createdAt : Nat
  error : Option CallError

/-- `LocalPendingThreadAction.request`: without the account of the request. -/
def LocalPendingThreadAction.request (p : LocalPendingThreadAction) : QueuedThreadActionRequest :=
  ⟨none, p.clientActionId, p.mailboxThreadId, p.targetMessageId, p.action, p.createdAt⟩

/-- The `state` of a row. -/
inductive PendingState where
  | queued
  | failed

/-- A row of `pending_thread_actions`. -/
structure PendingRow where
  action : LocalPendingThreadAction
  state : PendingState
  updatedAt : Int

def PendingRow.hasId (i : Nat) (p : PendingRow) : Bool := p.action.clientActionId == i

def writePendingThreadAction (action : LocalPendingThreadAction) (now : Int)
    (rows : List PendingRow) : List PendingRow :=
  if rows.any (PendingRow.hasId action.clientActionId) then
    updateWhere (PendingRow.hasId action.clientActionId) (fun _ => ⟨action, .queued, now⟩) rows
  else rows ++ [⟨action, .queued, now⟩]

/-- `pendingThreadActions`: in the order of `updated_at`. -/
def pendingThreadActions (rows : List PendingRow) : List LocalPendingThreadAction :=
  (rows.insertionSort fun p q => p.updatedAt ≤ q.updatedAt).map PendingRow.action

def removePendingThreadAction (clientActionId : Nat) (rows : List PendingRow) : List PendingRow :=
  rows.filter fun p => !p.hasId clientActionId

def markPendingThreadActionFailed (clientActionId : Nat) (error : CallError) (now : Int)
    (rows : List PendingRow) : List PendingRow :=
  updateWhere (PendingRow.hasId clientActionId)
    (fun p => { p with action := { p.action with error := some error }, state := .failed,
                       updatedAt := now }) rows

/-! ## The system -/

/-- A run of `replayPendingThreadActions`: the actions it still has to send, and whether the
request of the first one is out. -/
structure Replay where
  id : Nat
  left : List LocalPendingThreadAction
  sending : Bool

/-- The requests on their way to the server, the callers of `enqueueThreadAction` that wait
for an answer, the replays and the stored rows. `put` has the actions that have been stored,
`accepted` the actions that the server has accepted, in the order of their first acceptance,
and `rejected` those that it has rejected for good. -/
structure ActionQueue where
  nextId : Nat
  requests : List QueuedThreadActionRequest
  calls : List QueuedThreadActionRequest
  replays : List Replay
  rows : List PendingRow
  put : List Nat
  accepted : List QueuedThreadActionRequest
  rejected : List Nat

/-- What happens next: `i` is the id of an action, `k` the one of a replay. `session` is what
`readSession` says of the user, and `now` what the clock says. -/
inductive QueueLabel where
  | issues (account : Option Nat) (thread : Nat) (target : Option Nat) (action : ThreadAction)
      (createdAt : Nat)
  | accepts (i : Nat)
  | rejects (i : Nat)
  | loses (i : Nat)
  | returns (i : Nat)
  | throws (i : Nat) (error : CallError) (session : Option Nat) (now : Int)
  | leaves (i : Nat)
  | replays (k user : Nat)
  | sends (k : Nat)
  | replayReturns (k : Nat)
  | replayThrows (k : Nat) (error : CallError) (now : Int)
  | replayLeaves (k : Nat)
  | restarts

def ActionQueue.call (w : ActionQueue) (i : Nat) : Option QueuedThreadActionRequest :=
  rowAt QueuedThreadActionRequest.clientActionId w.calls i

def ActionQueue.request (w : ActionQueue) (i : Nat) : Option QueuedThreadActionRequest :=
  rowAt QueuedThreadActionRequest.clientActionId w.requests i

def ActionQueue.replay (w : ActionQueue) (k : Nat) : Option Replay :=
  rowAt Replay.id w.replays k

def ActionQueue.hasAccepted (w : ActionQueue) (i : Nat) : Bool :=
  w.accepted.any fun r => r.clientActionId == i

def ActionQueue.callsWithout (w : ActionQueue) (i : Nat) : List QueuedThreadActionRequest :=
  w.calls.filter fun r => r.clientActionId != i

def ActionQueue.replaysWithout (w : ActionQueue) (k : Nat) : List Replay :=
  w.replays.filter fun r => r.id != k

def ActionQueue.replaysNext (w : ActionQueue) (k : Nat) : List Replay :=
  updateWhere (fun r => r.id == k) (fun r => { r with left := r.left.tail, sending := false })
    w.replays

def ActionQueue.issue (w : ActionQueue) (r : QueuedThreadActionRequest) : ActionQueue :=
  { w with nextId := w.nextId + 1, requests := r :: w.requests, calls := r :: w.calls }

/-- The server takes a request, and accepts its action unless it has done so before. -/
def ActionQueue.accept (w : ActionQueue) (r : QueuedThreadActionRequest) : ActionQueue :=
  { w with
    requests := w.requests.erase r
    accepted := if w.hasAccepted r.clientActionId then w.accepted else w.accepted ++ [r] }

def ActionQueue.replayFails (w : ActionQueue) (k : Nat) (p : LocalPendingThreadAction)
    (error : CallError) (now : Int) : ActionQueue :=
  if shouldDiscardReplayedOfflineAction error then
    { w with
      rows := removePendingThreadAction p.clientActionId w.rows
      replays := w.replaysNext k }
  else
    { w with
      rows := markPendingThreadActionFailed p.clientActionId error now w.rows
      replays := w.replaysWithout k }

/-- What `enqueueThreadAction` does when its call fails. -/
def ActionQueue.callFails (w : ActionQueue) (r : QueuedThreadActionRequest) (error : CallError)
    (session : Option Nat) (now : Int) : ActionQueue :=
  match isRetryableOfflineActionError error, session with
  | true, some userId =>
    { w with
      calls := w.callsWithout r.clientActionId
      rows := writePendingThreadAction
        ⟨r.clientActionId, userId, r.mailboxThreadId, r.targetMessageId, r.action, r.createdAt,
          some error⟩ now w.rows
      put := r.clientActionId :: w.put }
  | _, _ => { w with calls := w.callsWithout r.clientActionId }

/-- A step. A call returns when the server has accepted the action, and it fails with a final
status when the server has rejected it. The answer is dropped when the account changes. -/
def ActionQueue.step (w : ActionQueue) : QueueLabel → ActionQueue
  | .issues account thread target action createdAt =>
    w.issue ⟨account, w.nextId, thread, target, action, createdAt⟩
  | .accepts i =>
    match w.request i with
    | some r => w.accept r
    | none => w
  | .rejects i =>
    match w.request i with
    | some r => { w with requests := w.requests.erase r, rejected := i :: w.rejected }
    | none => w
  | .loses i =>
    match w.request i with
    | some r => { w with requests := w.requests.erase r }
    | none => w
  | .returns i =>
    match w.call i, w.hasAccepted i with
    | some r, true =>
      { w with
        calls := w.callsWithout r.clientActionId
        rows := removePendingThreadAction r.clientActionId w.rows }
    | _, _ => w
  | .throws i error session now =>
    match w.call i with
    | some r => w.callFails r error session now
    | none => w
  | .leaves i => { w with calls := w.callsWithout i }
  | .replays k user =>
    match w.replay k with
    | some _ => w
    | none =>
      { w with
        replays :=
          ⟨k, (pendingThreadActions w.rows).filter fun p => p.userId == user, false⟩ :: w.replays }
  | .sends k =>
    match w.replay k with
    | some ⟨_, p :: left, false⟩ =>
      { w with
        requests := p.request :: w.requests
        replays := updateWhere (fun r => r.id == k)
          (fun r => { r with left := p :: left, sending := true }) w.replays }
    | _ => w
  | .replayReturns k =>
    match w.replay k with
    | some ⟨_, p :: _, true⟩ =>
      if w.hasAccepted p.clientActionId then
        { w with
          rows := removePendingThreadAction p.clientActionId w.rows
          replays := w.replaysNext k }
      else w
    | _ => w
  | .replayThrows k error now =>
    match w.replay k with
    | some ⟨_, p :: _, true⟩ =>
      if shouldDiscardReplayedOfflineAction error && !w.rejected.contains p.clientActionId then w
      else w.replayFails k p error now
    | _ => w
  | .replayLeaves k => { w with replays := w.replaysWithout k }
  | .restarts => { w with calls := [], replays := [] }

def ActionQueue.start : ActionQueue := ⟨0, [], [], [], [], [], [], []⟩

end ElectronicMail.Offline
