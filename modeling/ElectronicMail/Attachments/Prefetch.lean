import ElectronicMail.Foundations.Dictionary

/-!
# The prefetch of attachments

`AttachmentPrefetchCoordinator` is an actor: a method runs without interruption up to its next
`await`, and then other methods run. A suspended method is a `Call`, a task that downloads an
attachment is a `Download` with the `await` that it has reached, and an event lets one of them
go on, or calls a method.
-/

namespace ElectronicMail.Attachments

open Foundations.Table
open Foundations

/-! ## Data -/

structure ThreadAttachment where
  attachmentId : List Char
  size : Option Int

structure Request where
  userId : List Char
  messageId : List Char
  attachment : ThreadAttachment

/-- `"\(userID)\u{0}"`. -/
def userPrefix (userId : List Char) : List Char := userId ++ [Char.ofNat 0]

def Request.id (r : Request) : List Char :=
  userPrefix r.userId ++ r.messageId ++ [Char.ofNat 0] ++ r.attachment.attachmentId

/-- `userGeneration` and `globalGeneration`. -/
structure Generation where
  user : UInt64
  global : UInt64
  deriving DecidableEq

/-- `ActiveDownload`. The task is a number. -/
structure ActiveDownload where
  request : Request
  automatic : Bool
  generation : Generation
  task : Nat

/-- The key in `activeDownloads`. -/
def ActiveDownload.id (a : ActiveDownload) : List Char := a.request.id

/-- Where the task of a download is: in `cache.read`, in `isCurrent` with the cached copy, in
`backend.downloadAttachment`, in `isCurrent` with what it has downloaded, in `cache.write`, or
at its end. -/
inductive Phase where
  | reading
  | confirmingCached
  | downloading
  | confirming (bytes : Nat)
  | writing
  | ended
  deriving DecidableEq

structure Download where
  request : Request
  automatic : Bool
  generation : Generation
  cancelled : Bool
  phase : Phase

/-- A method that waits: `download` for the cache, for the download of another caller, for a
download that takes the room it needs, for its turn after that, or for its own download; the
task of `pump` for its download; `reset` for the downloads that it has cancelled, when so many
had been started. -/
inductive Call where
  | readingCache (request : Request) (generation : Generation)
  | joining (task : Nat)
  | makingCapacity (request : Request) (generation : Generation) (active : ActiveDownload)
  | capacityMade (request : Request) (generation : Generation)
  | awaiting (active : ActiveDownload)
  | pumped (active : ActiveDownload)
  | resetting (userId : Option (List Char)) (started : Nat) (matching : List ActiveDownload)
  | returned

/-- A `reset` that has returned, and how many downloads had been started when it was called. -/
structure FinishedReset where
  userId : Option (List Char)
  started : Nat

structure Prefetch where
  maximumConcurrentDownloads : Nat
  queued : List Request
  queueOrder : List (List Char)
  activeDownloads : List ActiveDownload
  activeAutomaticIds : List (List Char)
  foregroundReservations : Nat
  userGenerations : List (List Char × UInt64)
  globalGeneration : UInt64
  blockedUsers : List (List Char)
  allUsersBlocked : Bool
  accountEpochs : List (List Char × Nat)
  invalidatedThroughAccountEpoch : Nat
  downloads : List Download
  calls : List Call
  finished : List FinishedReset

/-- `init`. -/
def Prefetch.start (maximumConcurrentDownloads : Nat) : Prefetch where
  maximumConcurrentDownloads := max 1 maximumConcurrentDownloads
  queued := []
  queueOrder := []
  activeDownloads := []
  activeAutomaticIds := []
  foregroundReservations := 0
  userGenerations := []
  globalGeneration := 0
  blockedUsers := []
  allUsersBlocked := false
  accountEpochs := []
  invalidatedThroughAccountEpoch := 0
  downloads := []
  calls := []
  finished := []

def automaticFileLimit : Nat := 5 * 1024 * 1024

def eligibleForAutomaticPrefetch (attachment : ThreadAttachment) : Bool :=
  attachment.size.any fun size => 0 ≤ size && size ≤ (automaticFileLimit : Int)

/-! ## Generations and epochs -/

/-- `userGenerations[userID, default: 0]`. -/
def Prefetch.userGeneration (s : Prefetch) (userId : List Char) : UInt64 :=
  (s.userGenerations.lookup userId).getD 0

def Prefetch.generationOf (s : Prefetch) (userId : List Char) : Generation :=
  ⟨s.userGeneration userId, s.globalGeneration⟩

/-- `allUsersBlocked || blockedUsers.contains(userID)`. -/
def Prefetch.blocked (s : Prefetch) (userId : List Char) : Bool :=
  s.allUsersBlocked || s.blockedUsers.contains userId

def Prefetch.isCurrent (s : Prefetch) (userId : List Char) (g : Generation) : Bool :=
  !s.blocked userId && s.globalGeneration == g.global && s.userGeneration userId == g.user

def Prefetch.acceptAccountEpoch (s : Prefetch) (userId : List Char) (accountEpoch : Option Nat) :
    Option Prefetch :=
  match accountEpoch with
  | none => some s
  | some epoch =>
    if epoch < s.invalidatedThroughAccountEpoch then none
    else if (s.accountEpochs.lookup userId).any (epoch < ·) then none
    else
      some { s with
        accountEpochs := Dictionary.put Prod.fst (userId, epoch) s.accountEpochs }

def Prefetch.activate (s : Prefetch) (userId : List Char) (accountEpoch : Option Nat) : Prefetch :=
  match s.acceptAccountEpoch userId accountEpoch with
  | none => s
  | some s =>
    { s with
      allUsersBlocked := false
      blockedUsers := s.blockedUsers.filter (· != userId) }

/-! ## Downloads -/

/-- `makeDownload`, and the entry in `activeDownloads`. -/
def Prefetch.makeDownload (s : Prefetch) (request : Request) (automatic : Bool) :
    Prefetch × ActiveDownload :=
  let generation := s.generationOf request.userId
  let active : ActiveDownload := ⟨request, automatic, generation, s.downloads.length⟩
  ({ s with
      activeDownloads := Dictionary.put ActiveDownload.id active s.activeDownloads
      downloads := s.downloads ++ [⟨request, automatic, generation, false, .reading⟩] },
    active)

/-- The body of `pump` for one request: a download, and a task that waits for it. -/
def Prefetch.startAutomatic (s : Prefetch) (request : Request) : Prefetch :=
  let (s, active) := s.makeDownload request true
  { s with
    activeAutomaticIds := Dictionary.put id request.id s.activeAutomaticIds
    calls := s.calls ++ [.pumped active] }

def Prefetch.dequeue (s : Prefetch) (id : List Char) : Prefetch :=
  { s with queued := Dictionary.drop Request.id id s.queued }

def Prefetch.hasRoom (s : Prefetch) : Prop :=
  s.activeDownloads.length + s.foregroundReservations < s.maximumConcurrentDownloads

instance (s : Prefetch) : Decidable s.hasRoom :=
  inferInstanceAs (Decidable (_ < _))

/-- The loop of `pump`. -/
def Prefetch.pumping : List (List Char) → Prefetch → Prefetch
  | [], s => { s with queueOrder := [] }
  | id :: queueOrder, s =>
    if s.hasRoom then
      match rowAt Request.id s.queued id with
      | none => pumping queueOrder s
      | some request =>
        if s.blocked request.userId then pumping queueOrder (s.dequeue id)
        else pumping queueOrder ((s.dequeue id).startAutomatic request)
    else { s with queueOrder := id :: queueOrder }

def Prefetch.pump (s : Prefetch) : Prefetch := s.pumping s.queueOrder

/-- `activeDownloads[id] = nil`, and `activeAutomaticIDs.remove(id)`. -/
def Prefetch.removeActive (s : Prefetch) (id : List Char) : Prefetch :=
  { s with
    activeDownloads := Dictionary.drop ActiveDownload.id id s.activeDownloads
    activeAutomaticIds := s.activeAutomaticIds.filter (· != id) }

def Prefetch.activeOf (s : Prefetch) (id : List Char) (g : Generation) : Option ActiveDownload :=
  (rowAt ActiveDownload.id s.activeDownloads id).filter fun a => a.generation == g

def Prefetch.complete (s : Prefetch) (id : List Char) (g : Generation) : Prefetch :=
  if (s.activeOf id g).isSome then (s.removeActive id).pump else s

/-- `task.cancel()`, for some tasks. -/
def Prefetch.cancel (s : Prefetch) (tasks : List Nat) : Prefetch :=
  { s with
    downloads := s.downloads.mapIdx fun i d =>
      if tasks.contains i then { d with cancelled := true } else d }

def Prefetch.hasEnded (s : Prefetch) (task : Nat) : Bool :=
  (s.downloads[task]?).all fun d => d.phase == .ended

/-! ## The queue -/

/-- The body of the loop of `enqueue`. -/
def Prefetch.enqueueOne (selected : Bool) (s : Prefetch) (request : Request) : Prefetch :=
  if !eligibleForAutomaticPrefetch request.attachment then s
  else if selected && (rowAt Request.id s.queued request.id).isSome then
    { s with queueOrder := request.id :: s.queueOrder.filter (· != request.id) }
  else if (rowAt Request.id s.queued request.id).isNone &&
      (rowAt ActiveDownload.id s.activeDownloads request.id).isNone then
    { s with
      queued := Dictionary.put Request.id request s.queued
      queueOrder :=
        if selected then request.id :: s.queueOrder else s.queueOrder ++ [request.id] }
  else s

/-- The loops of `enqueue`: the attachments of a thread, each with its message. -/
def Prefetch.enqueueAll (s : Prefetch) (attachments : List (List Char × ThreadAttachment))
    (userId : List Char) (selected : Bool) : Prefetch :=
  (attachments.map fun a => Request.mk userId a.1 a.2).foldl (Prefetch.enqueueOne selected) s

def Prefetch.enqueue (s : Prefetch) (attachments : List (List Char × ThreadAttachment))
    (userId : List Char) (selected : Bool) (accountEpoch : Option Nat) : Prefetch :=
  match s.acceptAccountEpoch userId accountEpoch with
  | none => s
  | some s => if s.blocked userId then s else (s.enqueueAll attachments userId selected).pump

def Prefetch.requeue (s : Prefetch) (active : ActiveDownload) : Prefetch :=
  { s with
    queued := Dictionary.put Request.id active.request s.queued
    queueOrder := active.id :: s.queueOrder.filter (· != active.id) }

/-! ## Foreground downloads -/

/-- The call goes on to its next `await`. -/
def Prefetch.setCall (s : Prefetch) (i : Nat) (c : Call) : Prefetch :=
  { s with calls := s.calls.set i c }

/-- `activeAutomaticIDs.first ?? activeDownloads.keys.first`: the order of a set and of a
dictionary is arbitrary. -/
def Prefetch.selectedId (s : Prefetch) (pick : List Char) : Option (List Char) :=
  if s.activeAutomaticIds.contains pick then some pick
  else
    s.activeAutomaticIds.head?.or
      (if (s.activeDownloads.map ActiveDownload.id).contains pick then some pick
        else s.activeDownloads.head?.map ActiveDownload.id)

/-- The loop of `makeCapacityForForegroundDownload` up to its `await`, or its return. -/
def Prefetch.makeCapacity (s : Prefetch) (i : Nat) (request : Request) (g : Generation)
    (pick : List Char) : Prefetch :=
  if s.activeDownloads.length ≥ s.maximumConcurrentDownloads then
    match (s.selectedId pick).bind (rowAt ActiveDownload.id s.activeDownloads) with
    | none => s.setCall i (.capacityMade request g)
    | some active =>
      (if active.automatic then s.cancel [active.task] else s).setCall i
        (.makingCapacity request g active)
  else s.setCall i (.capacityMade request g)

/-- The rest of that loop: the cancelled download is put back into the queue. -/
def Prefetch.putBack (s : Prefetch) (active : ActiveDownload) : Prefetch :=
  if active.automatic && s.isCurrent active.request.userId active.generation &&
      (rowAt Request.id s.queued active.id).isNone &&
      (rowAt ActiveDownload.id s.activeDownloads active.id).isNone then
    s.requeue active
  else s

/-- The end of `download`: a download of its own. -/
def Prefetch.startForeground (s : Prefetch) (i : Nat) (request : Request) : Prefetch :=
  (s.makeDownload request false).1.setCall i (.awaiting (s.makeDownload request false).2)

/-- `queued[request.id] = nil`, and `queueOrder.removeAll`. -/
def Prefetch.leaveQueue (s : Prefetch) (id : List Char) : Prefetch :=
  { s.dequeue id with queueOrder := s.queueOrder.filter (· != id) }

/-- `foregroundReservations += 1`. -/
def Prefetch.reserve (s : Prefetch) : Prefetch :=
  { s with foregroundReservations := s.foregroundReservations + 1 }

/-- `foregroundReservations -= 1`. -/
def Prefetch.release (s : Prefetch) : Prefetch :=
  { s with foregroundReservations := s.foregroundReservations - 1 }

/-- `download` after `cache.read` had nothing. -/
def Prefetch.afterMiss (s : Prefetch) (i : Nat) (request : Request) (g : Generation)
    (pick : List Char) : Prefetch :=
  if !s.isCurrent request.userId g then s.setCall i .returned
  else
    match rowAt ActiveDownload.id s.activeDownloads request.id with
    | some active => s.setCall i (.joining active.task)
    | none =>
      let s := s.leaveQueue request.id
      if s.activeDownloads.length ≥ s.maximumConcurrentDownloads then
        s.reserve.makeCapacity i request g pick
      else s.startForeground i request

/-- `download` after `makeCapacityForForegroundDownload` has returned. -/
def Prefetch.afterCapacity (s : Prefetch) (i : Nat) (request : Request) (g : Generation) :
    Prefetch :=
  let s := s.release
  if s.isCurrent request.userId g then s.startForeground i request else s.setCall i .returned

/-! ## Resets -/

def names (userId : Option (List Char)) (request : Request) : Bool :=
  userId.all (· == request.userId)

/-- The guards of `reset`: a reset for an account epoch that is over is refused. -/
def Prefetch.acceptReset (s : Prefetch) (userId : Option (List Char)) (epoch : Option Nat) :
    Prefetch × Bool :=
  match epoch with
  | none => (s, true)
  | some epoch =>
    if epoch < s.invalidatedThroughAccountEpoch then (s, false)
    else
      let s := { s with invalidatedThroughAccountEpoch := epoch }
      match userId with
      | none => ({ s with accountEpochs := [] }, true)
      | some userId =>
        if (s.accountEpochs.lookup userId).any (epoch < ·) then (s, false)
        else
          ({ s with accountEpochs := Dictionary.drop Prod.fst userId s.accountEpochs }, true)

def Prefetch.invalidate (s : Prefetch) (userId : Option (List Char)) : Prefetch :=
  match userId with
  | some userId =>
    { s with
      blockedUsers := Dictionary.put id userId s.blockedUsers
      userGenerations := Dictionary.put Prod.fst (userId, s.userGeneration userId + 1)
        s.userGenerations
      queued := s.queued.filter fun r => !(userPrefix userId).isPrefixOf r.id
      queueOrder := s.queueOrder.filter fun id => !(userPrefix userId).isPrefixOf id }
  | none =>
    { s with
      allUsersBlocked := true
      globalGeneration := s.globalGeneration + 1
      queued := []
      queueOrder := [] }

/-- `reset` returns. -/
def Prefetch.finish (s : Prefetch) (userId : Option (List Char)) (started : Nat) : Prefetch :=
  { s with finished := ⟨userId, started⟩ :: s.finished }

/-- `reset` up to its `await`. -/
def Prefetch.reset (s : Prefetch) (userId : Option (List Char)) (epoch : Option Nat) : Prefetch :=
  match s.acceptReset userId epoch with
  | (s, false) => s.finish userId s.downloads.length
  | (s, true) =>
    let matching := s.activeDownloads.filter fun a => names userId a.request
    let s := (s.invalidate userId).cancel (matching.map ActiveDownload.task)
    { s with calls := s.calls ++ [.resetting userId s.downloads.length matching] }

/-- The last loop of `reset`. -/
def Prefetch.removeMatching (s : Prefetch) : List ActiveDownload → Prefetch
  | [] => s
  | a :: matching =>
    (if (s.activeOf a.id a.generation).isSome then s.removeActive a.id else s).removeMatching
      matching

/-! ## Steps -/

/-- The next `await` of a download. -/
def Download.next (d : Download) (isCurrent : Bool) (hit : Bool) (response : Option Nat) : Phase :=
  match d.phase with
  | .reading => if hit then (if d.cancelled then .ended else .confirmingCached) else .downloading
  | .confirmingCached => .ended
  | .downloading =>
    match response with
    | none => .ended
    | some bytes => if d.cancelled then .ended else .confirming bytes
  | .confirming bytes =>
    if isCurrent && (!d.automatic || bytes ≤ automaticFileLimit) then .writing else .ended
  | .writing => .ended
  | .ended => .ended

def Prefetch.proceed (s : Prefetch) (task : Nat) (hit : Bool) (response : Option Nat) : Prefetch :=
  { s with
    downloads := s.downloads.modify task fun d =>
      { d with phase := d.next (s.isCurrent d.request.userId d.generation) hit response } }

def Prefetch.resume (s : Prefetch) (i : Nat) (hit : Bool) (pick : List Char) : Prefetch :=
  match s.calls[i]? with
  | none => s
  | some (.readingCache request g) =>
    if hit then s.setCall i .returned else s.afterMiss i request g pick
  | some (.joining task) => if s.hasEnded task then s.setCall i .returned else s
  | some (.makingCapacity request g active) =>
    if s.hasEnded active.task then
      ((s.complete active.id active.generation).putBack active).makeCapacity i request g pick
    else s
  | some (.capacityMade request g) => s.afterCapacity i request g
  | some (.awaiting active) =>
    if s.hasEnded active.task then
      (s.setCall i .returned).complete active.id active.generation
    else s
  | some (.pumped active) =>
    if s.hasEnded active.task then
      (s.setCall i .returned).complete active.id active.generation
    else s
  | some (.resetting userId started matching) =>
    if matching.all fun a => s.hasEnded a.task then
      (((s.setCall i .returned).removeMatching matching).pump).finish userId started
    else s
  | some .returned => s

/-- A method is called, a task of a download goes on, or a method that waits does. -/
inductive Event where
  | activate (userId : List Char) (accountEpoch : Option Nat)
  | enqueue (attachments : List (List Char × ThreadAttachment)) (userId : List Char)
      (selected : Bool) (accountEpoch : Option Nat)
  | download (messageId : List Char) (attachment : ThreadAttachment) (userId : List Char)
      (accountEpoch : Option Nat)
  | reset (userId : Option (List Char)) (invalidatingAccountEpoch : Option Nat)
  | proceed (task : Nat) (hit : Bool) (response : Option Nat)
  | resume (call : Nat) (hit : Bool) (pick : List Char)

/-- `download` up to `cache.read`. -/
def Prefetch.download (s : Prefetch) (request : Request) (accountEpoch : Option Nat) : Prefetch :=
  match s.acceptAccountEpoch request.userId accountEpoch with
  | none => s
  | some s =>
    if s.blocked request.userId then s
    else
      { s with
        calls := s.calls ++ [.readingCache request (s.generationOf request.userId)] }

def Prefetch.step (s : Prefetch) : Event → Prefetch
  | .activate userId accountEpoch => s.activate userId accountEpoch
  | .enqueue attachments userId selected accountEpoch =>
    s.enqueue attachments userId selected accountEpoch
  | .download messageId attachment userId accountEpoch =>
    s.download ⟨userId, messageId, attachment⟩ accountEpoch
  | .reset userId epoch => s.reset userId epoch
  | .proceed task hit response => s.proceed task hit response
  | .resume call hit pick => s.resume call hit pick

end ElectronicMail.Attachments
