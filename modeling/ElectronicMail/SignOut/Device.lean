import ElectronicMail.SignOut.ContentSync

/-!
# Sign-out on the device

The store of the app, the worker that writes for it, the client that works offline and its
coordinator write mail to one database. A sign-out retires the operations of each of them in
its own way: the store by `LocalMailStoreWriteEpochFence`, the client by its generation, and the
coordinator by a reset that runs later. An operation is marked with the number of sign-outs that
had happened when it was started.
-/

namespace ElectronicMail.SignOut

/-! ## Data -/

/-- Where an operation of the store is: between two calls that persist something, in
`waitForPendingLocalMailStorePurge` for so many purges, or on its way to the worker. -/
inductive StoreStage where
  | running
  | waiting (purges : Nat)
  | submitted

structure StoreOperation where
  operationGeneration : Nat
  era : Nat
  stage : StoreStage

/-- An operation of the client. It starts when so many transitions are over. -/
structure ClientOperation where
  operationGeneration : Nat
  era : Nat
  transitions : Nat

/-- A reset of the coordinator that `scheduleAccountTransitionReset` has scheduled, with the
number of sign-outs then. -/
structure Transition where
  userId : Option Nat
  invalidatingAccountEpoch : Nat
  signOut : Nat

/-- Where a logout, a disconnect or a deletion is: on its way to the worker with the generation
that retires, before the call of the client, waiting for the server, before the reset of the
coordinator, before `purgeAccount`, back in the store, or over. -/
inductive PurgeStage where
  | draining (retiringWriteGeneration : Nat)
  | calling
  | remote (userId : Option Nat)
  | resetting (userId : Option Nat) (invalidatingAccountEpoch : Nat) (succeeded : Bool)
  | purging (succeeded : Bool)
  | resuming (succeeded : Bool)
  | over

/-- A logout, a disconnect or a deletion: the sign-out of this number. -/
structure Purge where
  signOut : Nat
  resumeAfterPurge : Bool
  stage : PurgeStage

structure CarriedOut where
  signOut : Nat
  userId : Option Nat

/-- A session, a mailbox or a thread has been written, by an operation of an era, when the
clean-up of the sign-out of this number was the latest that had finished. -/
structure Write where
  era : Nat
  cleared : Nat
  deriving DecidableEq

/-- The store, the fence of its worker, the client with its coordinator, the operations that are
under way, and what has happened. -/
structure Device where
  sessionToken : Option (List Char)
  storeGeneration : Nat
  localMailStoreWritesBlocked : Bool
  clearAlls : List Nat
  clearsDone : Nat
  invalidatedThroughGeneration : Option Nat
  clientGeneration : Nat
  accountOperationsBlocked : Bool
  currentBackendUserId : Option Nat
  cachedRemoteImageUserId : Option Nat
  transitions : List Transition
  transitionsDone : Nat
  coordinator : Coordinator
  storeOperations : List StoreOperation
  clientOperations : List ClientOperation
  purges : List Purge
  signOuts : Nat
  cleared : Nat
  resets : List CarriedOut
  writes : List Write

def Device.launch (sessionToken : Option (List Char)) (restoredUserId : Option Nat) : Device where
  sessionToken := sessionToken
  storeGeneration := 0
  localMailStoreWritesBlocked := false
  clearAlls := []
  clearsDone := 0
  invalidatedThroughGeneration := none
  clientGeneration := 0
  accountOperationsBlocked := false
  currentBackendUserId := restoredUserId
  cachedRemoteImageUserId := restoredUserId
  transitions := []
  transitionsDone := 0
  coordinator := .start
  storeOperations := []
  clientOperations := []
  purges := []
  signOuts := 0
  cleared := 0
  resets := []
  writes := []

def Device.write (s : Device) (era : Nat) : Device :=
  { s with writes := ⟨era, s.cleared⟩ :: s.writes }

/-- `token?.isEmpty != false`. -/
def noToken (token : Option (List Char)) : Bool := token.all List.isEmpty

/-! ## The fences -/

def Device.invalidate (s : Device) (operationGeneration : Nat) : Device :=
  { s with
    invalidatedThroughGeneration :=
      some ((s.invalidatedThroughGeneration.map (max · operationGeneration)).getD
        operationGeneration) }

def Device.performWrite (s : Device) (op : StoreOperation) : Device :=
  if s.invalidatedThroughGeneration.any (op.operationGeneration ≤ ·) then s else s.write op.era

def Device.transitionAccountOperations (s : Device) (blocked : Bool) : Device :=
  { s with
    clientGeneration := s.clientGeneration + 1
    accountOperationsBlocked := blocked }

/-- `validateAccountOperation`. -/
def Device.isCurrent (s : Device) (op : ClientOperation) : Bool :=
  !s.accountOperationsBlocked && s.clientGeneration == op.operationGeneration

/-! ## The session token -/

/-- The setter of `sessionToken` of the client, for another token. -/
def Device.changeToken (s : Device) (token : Option (List Char)) (signOut : Nat) : Device :=
  let s := s.transitionAccountOperations (noToken token)
  { s with
    sessionToken := token
    currentBackendUserId := none
    transitions := s.transitions ++
      [⟨s.currentBackendUserId.or s.cachedRemoteImageUserId, s.clientGeneration, signOut⟩] }

/-- The rest of `updateSessionToken`: the operations of the store are retired. -/
def Device.retireStore (s : Device) (blocked : Bool) : Device :=
  { s with
    localMailStoreWritesBlocked := blocked
    storeGeneration := s.storeGeneration + 1 }.invalidate s.storeGeneration

/-- `updateSessionToken`. Clearing the token is a sign-out, unless the pending actions are to be
kept. -/
def Device.updateSessionToken (s : Device) (token : Option (List Char))
    (preservingPendingThreadActions : Bool) : Device :=
  if s.sessionToken = token then s
  else if token.isNone && !preservingPendingThreadActions then
    let signOut := s.signOuts + 1
    let s := (s.changeToken token signOut).retireStore (noToken token)
    { s with
      signOuts := signOut
      clearAlls := s.clearAlls ++ [signOut] }
  else (s.changeToken token s.signOuts).retireStore (noToken token)

/-- The next `clearAll` of the chain. -/
def Device.clearAll (s : Device) : Device :=
  match s.clearAlls[s.clearsDone]? with
  | none => s
  | some signOut =>
    { s with
      clearsDone := s.clearsDone + 1
      cleared := max s.cleared signOut }

/-! ## Operations of the store -/

def Device.setStage (s : Device) (i : Nat) (stage : StoreStage) : Device :=
  { s with
    storeOperations := s.storeOperations.modify i fun op => { op with stage := stage } }

/-- `persistLocalSession`, `persistLocalMailbox` and `persistLocalThread`, from one `await` to
the next. -/
def Device.persist (s : Device) (i : Nat) (canPersist : Bool) : Device :=
  match s.storeOperations[i]? with
  | none => s
  | some op =>
    match op.stage with
    | .running => s.setStage i (.waiting s.clearAlls.length)
    | .waiting purges =>
      if s.clearsDone < purges then s
      else if s.localMailStoreWritesBlocked || !canPersist then s.setStage i .running
      else s.setStage i .submitted
    | .submitted => (s.performWrite op).setStage i .running

/-! ## Operations of the client -/

/-- `beginAccountOperation`. -/
def Device.beginClient (s : Device) : Device :=
  if s.accountOperationsBlocked then s
  else
    { s with
      clientOperations := s.clientOperations ++
        [⟨s.clientGeneration, s.signOuts, s.transitions.length⟩] }

/-- `beginAccountOperationAfterTransitions` has waited for the transitions. -/
def Device.hasBegun (s : Device) (op : ClientOperation) : Bool :=
  op.transitions ≤ s.transitionsDone

/-- What an operation of the client does when the server has answered: it notes the user, it
writes under `performIfCurrent`, or the coordinator observes something for it. -/
inductive ClientStep where
  | identify (userId : Nat)
  | write
  | observe (userId : Nat) (o : Observation)

/-- A step of an operation of the client. The call of the coordinator may come after another
transition, since the operation is validated before it. -/
def Device.client (s : Device) (i : Nat) (step : ClientStep) : Device :=
  match s.clientOperations[i]? with
  | none => s
  | some op =>
    if s.hasBegun op then
      match step with
      | .identify userId =>
        if s.isCurrent op then
          { s with
            currentBackendUserId := some userId
            cachedRemoteImageUserId := some userId }
        else s
      | .write => if s.isCurrent op then s.write op.era else s
      | .observe userId o =>
        { s with
          coordinator := s.coordinator.observe userId op.operationGeneration op.era o }
    else s

def Device.resetCoordinator (s : Device) (userId : Option Nat) (epoch signOut : Nat) : Device :=
  let reset := s.coordinator.reset userId epoch
  { s with
    coordinator := reset.1
    resets := if reset.2 then ⟨signOut, userId⟩ :: s.resets else s.resets }

def Device.transition (s : Device) : Device :=
  match s.transitions[s.transitionsDone]? with
  | none => s
  | some t =>
    { s with transitionsDone := s.transitionsDone + 1 }.resetCoordinator t.userId
      t.invalidatingAccountEpoch t.signOut

/-! ## Drains and crawls -/

/-- What a drain does when a response has arrived: it stores a thread, it fails to do so, or it
returns. Before each of the first two it looks whether it owns its work. -/
inductive DrainStep where
  | write
  | fail
  | leave

/-- A step of `drain`. -/
def Device.drain (s : Device) (i : Nat) (step : DrainStep) : Device :=
  match s.coordinator.drains[i]? with
  | none => s
  | some d =>
    if d.returned then s
    else
      match step with
      | .write =>
        if s.coordinator.ownsWork d then s.write d.era
        else { s with coordinator := s.coordinator.leaveDrain d.ownerId }
      | .fail =>
        if s.coordinator.ownsWork d then
          { s with coordinator := s.coordinator.pause d.userId }
        else { s with coordinator := s.coordinator.leaveDrain d.ownerId }
      | .leave => { s with coordinator := s.coordinator.leaveDrain d.ownerId }

/-- A step of `crawlMetadata`: a page, or the end. -/
inductive CrawlStep where
  | page
  | finish (latest : Option CrawlChoice)

/-- A step of `crawlMetadata`. -/
def Device.crawl (s : Device) (i : Nat) (step : CrawlStep) : Device :=
  match s.coordinator.crawls[i]? with
  | none => s
  | some crawl =>
    match step with
    | .page => { s with coordinator := s.coordinator.crawlPage crawl }
    | .finish latest => { s with coordinator := s.coordinator.finishCrawl crawl latest }

/-! ## Logout, disconnect and deletion -/

/-- `prepareLocalMailStoreForAccountPurge` up to its `await`. -/
def Device.signOutRemotely (s : Device) (resumeAfterPurge : Bool) : Device :=
  { s with
    localMailStoreWritesBlocked := true
    storeGeneration := s.storeGeneration + 1
    signOuts := s.signOuts + 1
    purges := s.purges ++ [⟨s.signOuts + 1, resumeAfterPurge, .draining s.storeGeneration⟩] }

def Device.setPurge (s : Device) (i : Nat) (stage : PurgeStage) : Device :=
  { s with purges := s.purges.modify i fun p => { p with stage := stage } }

/-- `performRemoteAccountActionAndPurge` and `purgeLocalAccount`, from one `await` to the next,
and the methods of the store around them. `storedUserId` is the user of the stored session. -/
def Device.purge (s : Device) (i : Nat) (storedUserId : Option Nat) (succeeded : Bool) : Device :=
  match s.purges[i]? with
  | none => s
  | some p =>
    match p.stage with
    | .draining retiring => (s.invalidate retiring).setPurge i .calling
    | .calling =>
      (s.transitionAccountOperations true).setPurge i
        (.remote (s.currentBackendUserId.or storedUserId))
    | .remote userId =>
      let s := s.transitionAccountOperations true
      { s with
        currentBackendUserId := none
        cachedRemoteImageUserId := none }.setPurge i
          (.resetting userId s.clientGeneration succeeded)
    | .resetting userId epoch succeeded =>
      (s.resetCoordinator userId epoch p.signOut).setPurge i (.purging succeeded)
    | .purging succeeded =>
      let s := { s with cleared := max s.cleared p.signOut }
      if p.resumeAfterPurge then
        (s.transitionAccountOperations false).setPurge i (.resuming succeeded)
      else s.setPurge i .over
    | .resuming _ => { s with localMailStoreWritesBlocked := false }.setPurge i .over
    | .over => s

/-! ## Steps -/

inductive Event where
  | updateSessionToken (token : Option (List Char)) (preservingPendingThreadActions : Bool)
  | clearAll
  | beginStore
  | persist (i : Nat) (canPersist : Bool)
  | changeScope
  | beginClient
  | client (i : Nat) (step : ClientStep)
  | transition
  | drain (i : Nat) (step : DrainStep)
  | crawl (i : Nat) (step : CrawlStep)
  | signOutRemotely (resumeAfterPurge : Bool)
  | purge (i : Nat) (storedUserId : Option Nat) (succeeded : Bool)

def Device.step (s : Device) : Event → Device
  | .updateSessionToken token preserving => s.updateSessionToken token preserving
  | .clearAll => s.clearAll
  | .beginStore =>
    { s with
      storeOperations := s.storeOperations ++ [⟨s.storeGeneration, s.signOuts, .running⟩] }
  | .persist i canPersist => s.persist i canPersist
  | .changeScope => { s with storeGeneration := s.storeGeneration + 1 }
  | .beginClient => s.beginClient
  | .client i step => s.client i step
  | .transition => s.transition
  | .drain i step => s.drain i step
  | .crawl i step => s.crawl i step
  | .signOutRemotely resumeAfterPurge => s.signOutRemotely resumeAfterPurge
  | .purge i storedUserId succeeded => s.purge i storedUserId succeeded

end ElectronicMail.SignOut
