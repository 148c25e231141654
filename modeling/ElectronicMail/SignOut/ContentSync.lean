import ElectronicMail.Foundations.Dictionary

/-!
# The background download of mail

`OfflineContentSyncCoordinator` is an actor that downloads the threads of the current user: one
`drain` at a time writes what it has downloaded, as long as it owns its work, and crawls of the
mailboxes find more work for it. Every drain and every crawl has the number of sign-outs that
had happened when the operation was started that it belongs to.
-/

namespace ElectronicMail.SignOut

open Foundations

/-- `MetadataCrawlKey`. -/
structure CrawlKey where
  userId : Nat
  label : Nat
  deriving DecidableEq

/-- A `drain` task. -/
structure Drain where
  userId : Nat
  generation : Nat
  ownerId : Nat
  era : Nat
  returned : Bool

/-- A `crawlMetadata` task. -/
structure Crawl where
  key : CrawlKey
  ownerId : Nat
  era : Nat

/-- The coordinator. `drainTask` is there when `drainOwnerId` is, a UUID is a number that has
not been used, and of `pendingByUser` the users are kept. -/
structure Coordinator where
  pendingUsers : List Nat
  pausedUsers : List Nat
  drainOwnerId : Option Nat
  currentUserId : Option Nat
  currentAccountEpoch : Option Nat
  invalidatedThroughAccountEpoch : Nat
  workGenerations : List (Nat × Nat)
  metadataCrawlOwners : List (CrawlKey × Nat)
  nextId : Nat
  drains : List Drain
  crawls : List Crawl

def Coordinator.start : Coordinator where
  pendingUsers := []
  pausedUsers := []
  drainOwnerId := none
  currentUserId := none
  currentAccountEpoch := none
  invalidatedThroughAccountEpoch := 0
  workGenerations := []
  metadataCrawlOwners := []
  nextId := 0
  drains := []
  crawls := []

/-- `workGenerations[userID, default: 0]`. -/
def Coordinator.workGeneration (c : Coordinator) (userId : Nat) : Nat :=
  (c.workGenerations.lookup userId).getD 0

/-- `workGenerations[userID, default: 0] &+= 1`. -/
def Coordinator.retireWork (c : Coordinator) (userId : Nat) : Coordinator :=
  { c with
    workGenerations := Dictionary.put Prod.fst (userId, c.workGeneration userId + 1)
      c.workGenerations }

/-- `cancelMetadataCrawls`. -/
def Coordinator.cancelCrawls (c : Coordinator) (userId : Nat) : Coordinator :=
  { c with metadataCrawlOwners := c.metadataCrawlOwners.filter fun o => o.1.userId != userId }

def Coordinator.ownsWork (c : Coordinator) (d : Drain) : Bool :=
  c.currentUserId == some d.userId && c.workGeneration d.userId == d.generation &&
    c.drainOwnerId == some d.ownerId && !c.pausedUsers.contains d.userId

/-! ## Observations -/

def Coordinator.turnTo (c : Coordinator) (userId : Nat) : Coordinator :=
  if c.currentUserId = some userId then c
  else
    { (match c.currentUserId with
        | some previousUserId => c.cancelCrawls previousUserId
        | none => c) with
      currentUserId := some userId
      drainOwnerId := none }

def Coordinator.acceptObservation (c : Coordinator) (userId accountEpoch : Nat) :
    Option Coordinator :=
  if accountEpoch < c.invalidatedThroughAccountEpoch then none
  else if c.currentAccountEpoch.any (accountEpoch < ·) then none
  else some ({ c with currentAccountEpoch := some accountEpoch }.turnTo userId)

def Coordinator.scheduleDrain (c : Coordinator) (userId era : Nat) : Coordinator :=
  if c.drainOwnerId.isSome || c.pausedUsers.contains userId then c
  else
    { c with
      drainOwnerId := some c.nextId
      nextId := c.nextId + 1
      drains := c.drains ++ [⟨userId, c.workGeneration userId, c.nextId, era, false⟩] }

def Coordinator.enqueueRows (c : Coordinator) (userId era : Nat) : Coordinator :=
  { c with pendingUsers := Dictionary.put id userId c.pendingUsers }.scheduleDrain userId era

/-- What an observation does to the crawl of one label: it is replaced when it is of another
sync generation, and started unless all of the mailbox has been seen. -/
structure CrawlChoice where
  label : Nat
  generationChanged : Bool
  starts : Bool

def Coordinator.startCrawl (c : Coordinator) (key : CrawlKey) (era : Nat) : Coordinator :=
  { c with
    metadataCrawlOwners := Dictionary.put Prod.fst (key, c.nextId) c.metadataCrawlOwners
    nextId := c.nextId + 1
    crawls := c.crawls ++ [⟨key, c.nextId, era⟩] }

/-- `metadataCrawlOwners[key] = nil`. -/
def Coordinator.cancelCrawl (c : Coordinator) (key : CrawlKey) : Coordinator :=
  { c with metadataCrawlOwners := Dictionary.drop Prod.fst key c.metadataCrawlOwners }

/-- `resumeMetadataCrawl`. -/
def Coordinator.resumeCrawl (c : Coordinator) (userId era : Nat) (choice : CrawlChoice) :
    Coordinator :=
  let key : CrawlKey := ⟨userId, choice.label⟩
  let c := if choice.generationChanged then c.cancelCrawl key else c
  if (c.metadataCrawlOwners.lookup key).isSome || !choice.starts then c else c.startCrawl key era

/-- `resumeGlobalMetadataCrawls`. -/
def Coordinator.resumeCrawls (c : Coordinator) (userId era : Nat) (choices : List CrawlChoice) :
    Coordinator :=
  if c.currentUserId ≠ some userId ∨ c.pausedUsers.contains userId = true then c
  else choices.foldl (fun c choice => c.resumeCrawl userId era choice) c

/-- What is observed: a mailbox, a thread that is opened, progress of the server, or threads
whose bodies have arrived there. -/
inductive Observation where
  | mailbox (choices : List CrawlChoice)
  | prioritized
  | progress (choices : List CrawlChoice)
  | hydrated

/-- `observe` and `prioritize`, by an operation of some era. -/
def Coordinator.observe (c : Coordinator) (userId accountEpoch era : Nat) (o : Observation) :
    Coordinator :=
  match c.acceptObservation userId accountEpoch with
  | none => c
  | some c =>
    match o with
    | .mailbox choices =>
      if c.pausedUsers.contains userId then c
      else (c.enqueueRows userId era).resumeCrawls userId era choices
    | .prioritized => c.enqueueRows userId era
    | .progress choices =>
      if c.pausedUsers.contains userId then c else c.resumeCrawls userId era choices
    | .hydrated => if c.pausedUsers.contains userId then c else c.enqueueRows userId era

/-! ## Tasks -/

/-- The `defer` of `drain`. -/
def Coordinator.leaveDrain (c : Coordinator) (ownerId : Nat) : Coordinator :=
  { c with
    drainOwnerId := if c.drainOwnerId = some ownerId then none else c.drainOwnerId
    drains := c.drains.map fun d => if d.ownerId = ownerId then { d with returned := true } else d }

def Coordinator.pause (c : Coordinator) (userId : Nat) : Coordinator :=
  { c with pausedUsers := Dictionary.put id userId c.pausedUsers }.cancelCrawls userId

def Coordinator.ownsCrawl (c : Coordinator) (crawl : Crawl) : Bool :=
  c.metadataCrawlOwners.contains (crawl.key, crawl.ownerId)

/-- A page has come for `crawlMetadata`. -/
def Coordinator.crawlPage (c : Coordinator) (crawl : Crawl) : Coordinator :=
  if c.ownsCrawl crawl && c.currentUserId == some crawl.key.userId then
    c.enqueueRows crawl.key.userId crawl.era
  else c

/-- `finishMetadataCrawl`, with what the latest observation asks for, when there is another. -/
def Coordinator.finishCrawl (c : Coordinator) (crawl : Crawl) (latest : Option CrawlChoice) :
    Coordinator :=
  if c.ownsCrawl crawl then
    match latest with
    | none => c.cancelCrawl crawl.key
    | some choice =>
      (c.cancelCrawl crawl.key).resumeCrawl crawl.key.userId crawl.era
        { choice with label := crawl.key.label }
  else c

/-! ## Resets -/

def Coordinator.stop (c : Coordinator) : Coordinator :=
  { c with drainOwnerId := none, currentUserId := none }

/-- The body of `reset` for one user. -/
def Coordinator.resetUser (c : Coordinator) (userId : Nat) : Coordinator :=
  let c := (c.retireWork userId).cancelCrawls userId
  let c :=
    { c with
      pendingUsers := c.pendingUsers.filter (· != userId)
      pausedUsers := c.pausedUsers.filter (· != userId) }
  if c.currentUserId = some userId then c.stop else c

/-- The body of `reset` for all users. -/
def Coordinator.resetAll (c : Coordinator) : Coordinator :=
  let users := (c.workGenerations.map Prod.fst ++ c.pendingUsers).eraseDups
  { (users.foldl Coordinator.retireWork c).stop with
    pendingUsers := []
    pausedUsers := []
    metadataCrawlOwners := [] }

/-- `reset`, and whether it has been carried out: a cleanup from an older transition leaves the
work of a newer account alone. -/
def Coordinator.reset (c : Coordinator) (userId : Option Nat) (invalidatingAccountEpoch : Nat) :
    Coordinator × Bool :=
  if invalidatingAccountEpoch < c.invalidatedThroughAccountEpoch then (c, false)
  else
    let c := { c with invalidatedThroughAccountEpoch := invalidatingAccountEpoch }
    if c.currentAccountEpoch.any (invalidatingAccountEpoch < ·) then (c, false)
    else
      let c := { c with currentAccountEpoch := none }
      match userId with
      | some userId => (c.resetUser userId, true)
      | none => (c.resetAll, true)

end ElectronicMail.SignOut
