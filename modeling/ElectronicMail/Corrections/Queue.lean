import ElectronicMail.Foundations.Run

/-!
# Corrections that are saved for later

A correction of the user is sent at once, and saved on the device when that fails for another
reason than a conflict. Saved corrections lie in one queue for all users and accounts, under the
account scope that is selected when they are saved. A refresh sends those of its scope again, one
after another, until one of them fails.
-/

namespace ElectronicMail.Corrections

/-! ## Data -/

/-- Who a request is sent for: the signed-in user, and the account in its path. -/
structure Owner where
  user : Option String
  gmailAccountId : Option String
  deriving DecidableEq

/-- What the client knows of the session: the user, the accounts of the matters that it has seen,
and the account for everything else (`writeAccountID()`). -/
structure Session where
  user : Option String
  matterAccountIds : List (String × String)
  writeAccountId : Option String

/-- `matterAccountIDs[matterID] ?? writeAccountID()`, for the user. -/
def Session.owner (session : Session) (matterId : String) : Owner where
  user := session.user
  gmailAccountId := (session.matterAccountIds.find? fun entry => entry.1 = matterId).map Prod.snd
    <|> session.writeAccountId

/-- A correction. Its id counts the corrections in the order in which the user makes them, and
`madeBy` is who it was made for. -/
structure Decision where
  clientDecisionId : Nat
  matterId : String
  madeBy : Owner
  deriving DecidableEq

structure PendingMatterDecision where
  accountScopeId : Option String
  request : Decision

inductive Answer where
  | success
  | httpStatus (status : Nat)
  deriving DecidableEq

/-- An answer that the same request would get again: an error of the client, unless it is about the
session or about time. -/
def Answer.isPermanentRejection : Answer → Bool
  | .success => false
  | .httpStatus status =>
    decide (400 ≤ status) && decide (status < 500) && decide (status ∉ [401, 408, 425, 429])

/-- A call that waits. A request has been served when it has an answer. -/
inductive Call where
  /-- `submitDecision`, at `applyMatterDecision`. -/
  | submitting (decision : Decision) (served : Option Answer)
  /-- `refresh`, at `aiInbox`. -/
  | refreshing (requestId : Nat)
  /-- `replayPendingDecisions`, before its next request. -/
  | replaying (rest : List Decision)
  /-- `replayPendingDecisions`, at `applyMatterDecision`. -/
  | awaiting (decision : Decision) (rest : List Decision) (served : Option Answer)
  | ended

def Call.inFlight : Call → Option Decision
  | .submitting decision _ => some decision
  | .awaiting decision _ _ => some decision
  | _ => none

def Call.next : Call → Option Decision
  | .replaying rest => rest.head?
  | _ => none

def Call.answer : Call → Option Answer
  | .submitting _ served => served
  | .awaiting _ _ served => served
  | _ => none

structure Sending where
  decision : Decision
  owner : Owner

/-- The device and the server. `effects` are the corrections that have taken effect, the latest
first, each at its first time; `accepted` are those that `submitDecision` has accepted, `answered`
those for which the client has got a success or a permanent rejection, and `rejected` those with a
permanent rejection among them. -/
structure State where
  session : Session
  accountScopeId : Option String
  requestId : Nat
  pending : List PendingMatterDecision
  calls : List Call
  made : Nat
  sendings : List Sending
  effects : List Decision
  accepted : List Decision
  answered : List Nat
  rejected : List Nat

def State.start : State where
  session := ⟨none, [], none⟩
  accountScopeId := none
  requestId := 0
  pending := []
  calls := []
  made := 0
  sendings := []
  effects := []
  accepted := []
  answered := []
  rejected := []

/-! ## The queue -/

def append (pending : List PendingMatterDecision) (decision : Decision)
    (accountScopeId : Option String) : List PendingMatterDecision :=
  if pending.any fun p => p.request.clientDecisionId = decision.clientDecisionId then pending
  else pending ++ [⟨accountScopeId, decision⟩]

def remove (pending : List PendingMatterDecision) (id : Nat) : List PendingMatterDecision :=
  pending.filter fun p => p.request.clientDecisionId ≠ id

def waiting (pending : List PendingMatterDecision) (accountScopeId : Option String) :
    List Decision :=
  (pending.filter fun p => p.accountScopeId = accountScopeId).map PendingMatterDecision.request

/-! ## Steps -/

inductive Event where
  /-- The session, the scope of the client or what it knows of matters changes. -/
  | session (session : Session)
  | resetForAccountChange (accountId : Option String)
  | relaunch
  | submitDecision (matterId : String)
  | refresh
  /-- The inbox has come, or has not. -/
  | loaded (i : Nat) (ok : Bool)
  /-- A replay goes on to its next request. -/
  | replay (i : Nat)
  /-- The server serves a request. -/
  | serve (i : Nat) (answer : Answer)
  /-- The answer comes, or the request fails. -/
  | deliver (i : Nat) (lost : Bool)

def State.go (s : State) (i : Nat) (call : Call) : State := { s with calls := s.calls.set i call }

/-- `refresh`, in a call that goes on with it. -/
def State.refreshIn (s : State) (i : Nat) : State :=
  { s with requestId := s.requestId + 1, calls := s.calls.set i (.refreshing (s.requestId + 1)) }

def State.note (s : State) (decision : Decision) (answer : Answer) : State :=
  let rejected := answer.isPermanentRejection
  { s with
    answered := if answer = .success ∨ rejected then decision.clientDecisionId :: s.answered
      else s.answered
    rejected := if rejected then decision.clientDecisionId :: s.rejected else s.rejected }

/-- `catch`: the correction is saved, under the scope that is selected then. -/
def State.save (s : State) (decision : Decision) : State :=
  { s with
    pending := append s.pending decision s.accountScopeId
    accepted := decision :: s.accepted }

/-- What comes of the request of `submitDecision`; `none` is a request that fails. -/
def State.submitted (s : State) (i : Nat) (decision : Decision) : Option Answer → State
  | none => (s.save decision).go i .ended
  | some answer =>
    let noted := s.note decision answer
    match answer with
    | .success => { noted.refreshIn i with accepted := decision :: s.accepted }
    | .httpStatus status =>
      if status = 409 then noted.refreshIn i else (noted.save decision).go i .ended

/-- What comes of a request of `replayPendingDecisions`. -/
def State.replayed (s : State) (i : Nat) (decision : Decision) (rest : List Decision) :
    Option Answer → State
  | none => s.go i .ended
  | some answer =>
    let noted := s.note decision answer
    if answer = .success ∨ answer = .httpStatus 409 then
      { noted.go i (.replaying rest) with
        pending := remove s.pending decision.clientDecisionId }
    else noted.go i .ended

/-- The server serves the request of a correction, which takes effect when it succeeds. -/
def State.take (s : State) (decision : Decision) (answer : Answer) : State :=
  if answer = .success ∧ decision ∉ s.effects then { s with effects := decision :: s.effects }
  else s

def State.served (s : State) (i : Nat) (answer : Answer) : Call → State
  | .submitting decision none =>
    (s.take decision answer).go i (.submitting decision (some answer))
  | .awaiting decision rest none =>
    (s.take decision answer).go i (.awaiting decision rest (some answer))
  | _ => s

def State.delivered (s : State) (i : Nat) (lost : Bool) : Call → State
  | .submitting decision served =>
    if lost then s.submitted i decision none
    else if served.isSome then s.submitted i decision served else s
  | .awaiting decision rest served =>
    if lost then s.replayed i decision rest none
    else if served.isSome then s.replayed i decision rest served else s
  | _ => s

def State.next (s : State) (matterId : String) : Decision :=
  ⟨s.made, matterId, s.session.owner matterId⟩

def step (s : State) : Event → State
  | .session session => { s with session := session }
  | .resetForAccountChange accountId =>
    { s with accountScopeId := accountId, requestId := s.requestId + 1 }
  | .relaunch => { s with accountScopeId := none, calls := [] }
  | .submitDecision matterId =>
    { s with
      made := s.made + 1
      sendings := ⟨s.next matterId, s.session.owner matterId⟩ :: s.sendings
      calls := s.calls ++ [.submitting (s.next matterId) none] }
  | .refresh =>
    { s with
      requestId := s.requestId + 1
      calls := s.calls ++ [.refreshing (s.requestId + 1)] }
  | .loaded i ok =>
    match s.calls[i]? with
    | some (.refreshing requestId) =>
      if ok ∧ requestId = s.requestId then
        s.go i (.replaying (waiting s.pending s.accountScopeId))
      else s.go i .ended
    | _ => s
  | .replay i =>
    match s.calls[i]? with
    | some (.replaying (decision :: rest)) =>
      { s.go i (.awaiting decision rest none) with
        sendings := ⟨decision, s.session.owner decision.matterId⟩ :: s.sendings }
    | _ => s
  | .serve i answer =>
    match s.calls[i]? with
    | some call => s.served i answer call
    | none => s
  | .deliver i lost =>
    match s.calls[i]? with
    | some call => s.delivered i lost call
    | none => s

end ElectronicMail.Corrections
