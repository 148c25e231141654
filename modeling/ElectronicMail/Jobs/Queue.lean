import Mathlib.Data.Option.Basic
import ElectronicMail.Foundations.Table
import ElectronicMail.Foundations.Text

/-!
# The durable background-job queue

The tables `background_jobs` and `background_job_events` and the transactions
over them: `enqueueJob`, `claimJob`, `renewHeartbeat`, `completeJob`, `failJob`,
`cancelClaimedJob`, `cancelUserJobs` and the two token-revocation completions.
Each function is one transaction and takes the value of `now()` in it.

`enqueueJob` reads the table and then writes it with one of three statements.
Under `READ COMMITTED` another transaction can commit in between, so the three
statements (`wakeQueued`, `raisePriority`, `insertJob`) are definitions of their
own, and `enqueueJob_ok` reduces the function to at most one of them.

The conditional finish of a claimed row is one definition, `updateOwned`; its
main fact is `updateOwned_of_forall_ne`: without a running row of that id and
owner it returns `False` and changes nothing.
-/

namespace ElectronicMail.Jobs

open Foundations
open Foundations.Table

/-! ## Rows -/

abbrev Timestamp := Int

/-- `n * interval '1 second'`. -/
def seconds (n : Int) : Int := n * 1000000

/-- The values of `background_jobs.status`. -/
inductive JobStatus where
  | queued
  | running
  | succeeded
  | dead
  | cancelled
  deriving DecidableEq

/-- `status IN ('queued', 'running')`. -/
def JobStatus.isActive : JobStatus → Bool
  | .queued => true
  | .running => true
  | _ => false

def JobStatus.isTerminal : JobStatus → Bool
  | .succeeded => true
  | .dead => true
  | .cancelled => true
  | _ => false

/-- A row of `background_jobs`; also the `BackgroundJob` that a caller holds. The
payload keeps the text value of each key. -/
structure Job where
  id : String
  kind : String
  queue : String
  status : JobStatus
  userId : Option String
  gmailAccountId : Option String
  dedupeKey : Option String
  priority : Int
  payloadVersion : Int
  payload : List (String × String)
  attemptCount : Int
  maxAttempts : Int
  runAfter : Timestamp
  leaseOwner : Option String
  leaseExpiresAt : Option Timestamp
  lastError : Option String
  createdAt : Timestamp
  startedAt : Option Timestamp
  completedAt : Option Timestamp
  updatedAt : Timestamp
  deriving DecidableEq

/-- The values of `background_job_events.event_type`. -/
inductive EventType where
  | queued
  | progress
  | claimed
  | succeeded
  | dead
  | retry
  | cancelled

/-- A row of `background_job_events`. -/
structure JobEvent where
  jobId : String
  eventType : EventType
  message : Option String
  metadata : List (String × String)

structure Db where
  jobs : List Job
  events : List JobEvent

def Db.empty : Db := ⟨[], []⟩

def insertEvent (event : JobEvent) (db : Db) : Db :=
  { db with events := db.events ++ [event] }

@[simp] theorem insertEvent_jobs (event : JobEvent) (db : Db) :
    (insertEvent event db).jobs = db.jobs := rfl

/-- `status = …, completed_at = now(), lease_owner = NULL, lease_expires_at = NULL`. -/
def Job.close (status : JobStatus) (now : Timestamp) (job : Job) : Job :=
  { job with
    status := status
    completedAt := some now
    leaseOwner := none
    leaseExpiresAt := none
    updatedAt := now }

/-! ## Enqueue -/

/-- The arguments of `enqueue_job`, with its defaults. -/
structure EnqueueRequest where
  kind : String
  payload : List (String × String) := []
  userId : Option String := none
  gmailAccountId : Option String := none
  dedupeKey : Option String := none
  queue : String := "default"
  priority : Int := 0
  maxAttempts : Int := 5
  payloadVersion : Int := 1
  runAfterSeconds : Int := 0
  wakeExisting : Bool := true

/-- What `enqueue_job` reads besides its arguments and the table: the clock, the
fresh `uuid4`, `active_gmail_account_id()` and whether the user-mail guard lets
the transaction write. -/
structure EnqueueContext where
  now : Timestamp
  jobId : String
  activeGmailAccountId : Option String
  mailWritesAllowed : Bool

/-- How `enqueue_job` fails; the transaction is rolled back. -/
inductive EnqueueError where
  | userMailWorkBlocked
  | runtimeError (message : String)

/-- `gmail_account_id or user_id`, after the fallback to the active account. -/
def resolvedGmailAccountId (ctx : EnqueueContext) (req : EnqueueRequest) : Option String :=
  let account := if req.gmailAccountId.isNone then ctx.activeGmailAccountId else req.gmailAccountId
  if Text.truthy account then account else req.userId

def sameActive (account : Option String) (kind : String) (dedupeKey : Option String)
    (job : Job) : Bool :=
  decide (job.gmailAccountId = account) && decide (job.kind = kind) &&
    (dedupeKey.isSome && decide (job.dedupeKey = dedupeKey)) && job.status.isActive

/-- The dedupe `SELECT … ORDER BY created_at DESC LIMIT 1`. -/
def selectActive (account : Option String) (kind : String) (dedupeKey : Option String)
    (db : Db) : Option Job :=
  selectFirst (fun a b => decide (b.createdAt < a.createdAt))
    (db.jobs.filter (sameActive account kind dedupeKey))

/-- The `SET` list of the statement that wakes a queued row. -/
def wakeRow (now : Timestamp) (runAfterSeconds priority : Int) (job : Job) : Job :=
  { job with
    runAfter := min job.runAfter (now + seconds runAfterSeconds)
    priority := max job.priority priority
    updatedAt := now }

/-- `UPDATE … SET run_after = LEAST(…), priority = GREATEST(…) WHERE id = :id`,
with the event that reports it. -/
def wakeQueued (now : Timestamp) (id : String) (runAfterSeconds priority : Int) (db : Db) : Db :=
  let db' := { db with
    jobs := updateWhere (fun j => decide (j.id = id)) (wakeRow now runAfterSeconds priority)
      db.jobs }
  if db.jobs.any (fun j => decide (j.id = id)) then
    insertEvent ⟨id, .progress, none, [("reason", "dedupe_woke_queued_job")]⟩ db'
  else db'

/-- The `SET` list of the statement that raises a priority. -/
def raiseRow (now : Timestamp) (priority : Int) (job : Job) : Job :=
  { job with priority := priority, updatedAt := now }

/-- `UPDATE … SET priority = :priority WHERE id = :id`. -/
def raisePriority (now : Timestamp) (id : String) (priority : Int) (db : Db) : Db :=
  { db with
    jobs := updateWhere (fun j => decide (j.id = id)) (raiseRow now priority) db.jobs }

/-- The row that `INSERT INTO background_jobs` adds. -/
def newJob (now : Timestamp) (jobId : String) (account : Option String)
    (req : EnqueueRequest) : Job where
  id := jobId
  kind := req.kind
  queue := req.queue
  status := .queued
  userId := req.userId
  gmailAccountId := account
  dedupeKey := req.dedupeKey
  priority := req.priority
  payloadVersion := req.payloadVersion
  payload := req.payload
  attemptCount := 0
  maxAttempts := req.maxAttempts
  runAfter := now + seconds (max 0 req.runAfterSeconds)
  leaseOwner := none
  leaseExpiresAt := none
  lastError := none
  createdAt := now
  startedAt := none
  completedAt := none
  updatedAt := now

/-- A row that the primary key or the unique index over active rows sets against
the new row. -/
def conflictsWith (row job : Job) : Bool :=
  decide (job.id = row.id) || sameActive row.gmailAccountId row.kind row.dedupeKey job

/-- `INSERT … ON CONFLICT DO NOTHING`, the second dedupe `SELECT` after a
conflict, and the event. `none` is the `RuntimeError`. -/
def insertJob (now : Timestamp) (jobId : String) (account : Option String) (req : EnqueueRequest)
    (db : Db) : Option (Db × Job) :=
  let row := newJob now jobId account req
  let inserted :=
    if db.jobs.any (conflictsWith row) then
      if Text.truthy req.dedupeKey then selectActive account req.kind req.dedupeKey db else none
    else some row
  inserted.map fun job =>
    (insertEvent ⟨job.id, .queued, none, []⟩
      { db with jobs := insertUnlessConflict (conflictsWith row) row db.jobs }, job)

def enqueueJob (ctx : EnqueueContext) (req : EnqueueRequest) (db : Db) :
    Except EnqueueError (Db × Job) :=
  let account := resolvedGmailAccountId ctx req
  let runAfterSeconds := max 0 req.runAfterSeconds
  if req.userId.isSome && !ctx.mailWritesAllowed then .error .userMailWorkBlocked
  else
    let existing :=
      if Text.truthy req.dedupeKey then selectActive account req.kind req.dedupeKey db else none
    match existing with
    | some job =>
      if job.status = .queued then
        if req.wakeExisting then
          .ok (wakeQueued ctx.now job.id runAfterSeconds req.priority db,
            wakeRow ctx.now runAfterSeconds req.priority job)
        else if job.priority < req.priority then
          .ok (raisePriority ctx.now job.id req.priority db, raiseRow ctx.now req.priority job)
        else .ok (db, job)
      else .ok (db, job)
    | none =>
      match insertJob ctx.now ctx.jobId account req db with
      | some result => .ok result
      | none => .error (.runtimeError "Job enqueue failed")

/-! ## Claim and heartbeat -/

/-- The `WHERE` clause of the claim's candidate, without the rows locked by
other transactions, which `SKIP LOCKED` leaves out. -/
def claimable (now : Timestamp) (queues locked : List String) (job : Job) : Bool :=
  queues.contains job.queue && !locked.contains job.id &&
    ((decide (job.status = .queued) && decide (job.runAfter ≤ now)) ||
      (decide (job.status = .running) &&
        match job.leaseExpiresAt with
        | none => false
        | some expires => decide (expires < now)))

/-- `ORDER BY priority DESC, run_after ASC, created_at ASC`. -/
def claimBefore (a b : Job) : Bool :=
  decide (b.priority < a.priority) ||
    (decide (a.priority = b.priority) &&
      (decide (a.runAfter < b.runAfter) ||
        (decide (a.runAfter = b.runAfter) && decide (a.createdAt < b.createdAt))))

/-- The `SET` list of `claim_job`. -/
def claimRow (now : Timestamp) (workerId : String) (leaseSeconds : Int) (job : Job) : Job :=
  { job with
    status := .running
    leaseOwner := some workerId
    leaseExpiresAt := some (now + seconds leaseSeconds)
    startedAt := some (job.startedAt.getD now)
    attemptCount := job.attemptCount + 1
    updatedAt := now }

/-- The common table expression `candidate` of the claim. `locked` are the ids
that other transactions hold row locks on. -/
def claimCandidate (now : Timestamp) (queues locked : List String) (db : Db) : Option Job :=
  selectFirst claimBefore (db.jobs.filter (claimable now queues locked))

def claimJob (now : Timestamp) (workerId : String) (queues : List String) (leaseSeconds : Int)
    (locked : List String) (db : Db) : Db × Option Job :=
  if queues.isEmpty then (db, none)
  else
    match claimCandidate now queues locked db with
    | none => (db, none)
    | some candidate =>
      (insertEvent ⟨candidate.id, .claimed, none, [("worker_id", workerId)]⟩
        { db with
          jobs := updateWhere (fun j => decide (j.id = candidate.id))
            (claimRow now workerId leaseSeconds) db.jobs },
        some (claimRow now workerId leaseSeconds candidate))

/-- `WHERE id = :id AND status = 'running' AND lease_owner = :worker_id`. -/
def ownedBy (id workerId : String) (job : Job) : Bool :=
  decide (job.id = id) && decide (job.status = .running) && decide (job.leaseOwner = some workerId)

/-- The `SET` list of the lease renewal. -/
def renewRow (now : Timestamp) (leaseSeconds : Int) (job : Job) : Job :=
  { job with leaseExpiresAt := some (now + seconds leaseSeconds), updatedAt := now }

/-- `renew_heartbeat`, as far as it writes `background_jobs`. -/
def renewHeartbeat (now : Timestamp) (workerId : String) (currentJobId : Option String)
    (leaseSeconds : Int) (db : Db) : Db :=
  match currentJobId with
  | none => db
  | some id =>
    { db with jobs := updateWhere (ownedBy id workerId) (renewRow now leaseSeconds) db.jobs }

/-! ## Finishing a claimed job -/

/-- `UPDATE … WHERE id AND running AND lease_owner RETURNING id`, with its event
and the returned truth value. -/
def updateOwned (id workerId : String) (f : Job → Job) (event : JobEvent) (db : Db) : Db × Bool :=
  if db.jobs.any (ownedBy id workerId) then
    (insertEvent event { db with jobs := updateWhere (ownedBy id workerId) f db.jobs }, true)
  else (db, false)

def completeJob (now : Timestamp) (jobId workerId : String) (db : Db) : Db × Bool :=
  updateOwned jobId workerId (Job.close .succeeded now) ⟨jobId, .succeeded, none, []⟩ db

/-- `_backoff_seconds`: `[0, 30, 120, 600, 3600][min(max(attempt_count, 0), 4)]`. -/
def backoffSeconds (attemptCount : Int) : Int :=
  match (min (max attemptCount 0) 4).toNat with
  | 0 => 0
  | 1 => 30
  | 2 => 120
  | 3 => 600
  | _ => 3600

/-- `delay_seconds` of `fail_job`. -/
def failDelaySeconds (attemptCount : Int) (retryDelaySeconds : Option Int) : Int :=
  match retryDelaySeconds with
  | none => backoffSeconds attemptCount
  | some delay => max (backoffSeconds attemptCount) (max 0 delay)

/-- The `SET` list of the final failure. -/
def killRow (now : Timestamp) (error : String) (job : Job) : Job :=
  { Job.close .dead now job with lastError := some (Text.truncate 4000 error) }

/-- The `SET` list of a failure that is retried. -/
def requeueRow (now : Timestamp) (error : String) (delaySeconds : Int) (job : Job) : Job :=
  { job with
    status := .queued
    lastError := some (Text.truncate 4000 error)
    runAfter := now + seconds delaySeconds
    leaseOwner := none
    leaseExpiresAt := none
    updatedAt := now }

/-- `job.attempt_count >= job.max_attempts`. -/
def isFinalAttempt (job : Job) : Bool :=
  decide (job.maxAttempts ≤ job.attemptCount)

/-- `fail_job`. The attempt counters are those of the `BackgroundJob` passed in,
not those of the row. -/
def failJob (now : Timestamp) (job : Job) (error workerId : String)
    (retryDelaySeconds : Option Int) (db : Db) : Db × Bool :=
  let delaySeconds := failDelaySeconds job.attemptCount retryDelaySeconds
  if isFinalAttempt job then
    updateOwned job.id workerId (killRow now error) ⟨job.id, .dead, some error, []⟩ db
  else
    updateOwned job.id workerId (requeueRow now error delaySeconds)
      ⟨job.id, .retry, some error, [("delay_seconds", toString delaySeconds)]⟩ db

def cancelClaimedJob (now : Timestamp) (jobId workerId : String) (db : Db) : Db × Bool :=
  updateOwned jobId workerId (Job.close .cancelled now)
    ⟨jobId, .cancelled, none, [("reason", "user_mail_guard")]⟩ db

/-! ## Closing active jobs without a claim -/

def cancelUserJobs (now : Timestamp) (userId : String) (db : Db) : Db × Nat :=
  let selected := fun j : Job => decide (j.userId = some userId) && j.status.isActive
  ({ db with jobs := updateWhere selected (Job.close .cancelled now) db.jobs },
    (db.jobs.filter selected).length)

def googleTokenRevoke : String := "google_token_revoke"

/-- `payload_json::jsonb ->> key`. -/
def payloadText (job : Job) (key : String) : Option String :=
  (job.payload.find? fun entry => decide (entry.1 = key)).map Prod.snd

/-- `complete_google_token_revocations_for_subject`; `none` is the `ValueError`. -/
def completeGoogleTokenRevocationsForSubject (now : Timestamp) (subjectHash : String) (db : Db) :
    Option (Db × Nat) :=
  let normalized := Text.strip subjectHash
  if normalized = "" then none
  else
    let selected := fun j : Job =>
      decide (j.kind = googleTokenRevoke) && j.status.isActive &&
        decide (payloadText j "subject_hash" = some normalized)
    let completed := (db.jobs.filter selected).map Job.id
    some
      (⟨updateWhere selected (Job.close .succeeded now) db.jobs,
        db.events ++ completed.map fun id =>
          ⟨id, .succeeded, none, [("reason", "google_subject_revoked")]⟩⟩,
        completed.length)

/-- `complete_google_token_revocation_job`; `none` is the `ValueError`. -/
def completeGoogleTokenRevocationJob (now : Timestamp) (jobId : String) (db : Db) :
    Option (Db × Bool) :=
  let normalized := Text.strip jobId
  if normalized = "" then none
  else
    let selected := fun j : Job =>
      decide (j.id = normalized) && decide (j.kind = googleTokenRevoke) && j.status.isActive
    if db.jobs.any selected then
      some (insertEvent
        ⟨normalized, .succeeded, none, [("reason", "google_credential_already_invalid")]⟩
        { db with jobs := updateWhere selected (Job.close .succeeded now) db.jobs }, true)
    else some (db, false)

variable {j : Job}

/-! ## What each transaction does to the table -/

variable {id : String}

theorem ownedBy_iff {w : String} :
    ownedBy id w j = true ↔ j.id = id ∧ j.status = .running ∧ j.leaseOwner = some w := by
  unfold ownedBy
  rw [Bool.and_eq_true, Bool.and_eq_true, decide_eq_true_eq, decide_eq_true_eq,
    decide_eq_true_eq, and_assoc]

variable {queues locked : List String}

variable {now : Timestamp}

theorem claimable_iff : claimable now queues locked j = true ↔
      j.queue ∈ queues ∧ j.id ∉ locked ∧ ((j.status = .queued ∧ j.runAfter ≤ now) ∨
          (j.status = .running ∧ ∃ expires, j.leaseExpiresAt = some expires ∧ expires < now)) := by
  unfold claimable
  cases j.leaseExpiresAt with
  | none | some => simp [and_assoc]

variable {db : Db}

variable {req : EnqueueRequest}

/-- `enqueueJob` is at most one of its three statements. -/
theorem enqueueJob_ok {ctx : EnqueueContext} {db' : Db} {job : Job}
    (h : enqueueJob ctx req db = .ok (db', job)) :
    db' = db ∨ (∃ id d p, db' = wakeQueued ctx.now id d p db) ∨
      (∃ id p, db' = raisePriority ctx.now id p db) ∨
        insertJob ctx.now ctx.jobId (resolvedGmailAccountId ctx req) req db = some (db', job) := by
  simp only [enqueueJob] at h
  split at h
  · simp at h
  split at h
  · split at h
    · split at h
      · simp only [Except.ok.injEq, Prod.mk.injEq] at h
        exact Or.inr (Or.inl ⟨_, _, _, h.1.symm⟩)
      · split at h
        · simp only [Except.ok.injEq, Prod.mk.injEq] at h
          exact Or.inr (Or.inr (Or.inl ⟨_, _, h.1.symm⟩))
        · simp only [Except.ok.injEq, Prod.mk.injEq] at h
          exact Or.inl h.1.symm
    · simp only [Except.ok.injEq, Prod.mk.injEq] at h
      exact Or.inl h.1.symm
  · split at h
    · rename_i hi
      rw [Except.ok.injEq] at h
      subst h
      exact Or.inr (Or.inr (Or.inr hi))
    · simp at h

theorem wakeQueued_jobs (now : Timestamp) (id : String) (d p : Int) (db : Db) :
    (wakeQueued now id d p db).jobs =
      updateWhere (fun j => decide (j.id = id)) (wakeRow now d p) db.jobs := by
  unfold wakeQueued
  split <;> rfl

theorem insertJob_jobs {account : Option String} {db' : Db} {job : Job}
    (h : insertJob now id account req db = some (db', job)) :
    db'.jobs = insertUnlessConflict (conflictsWith (newJob now id account req))
      (newJob now id account req) db.jobs := by
  simp only [insertJob, Option.map_eq_some_iff, Prod.mk.injEq] at h
  obtain ⟨j, -, hdb, -⟩ := h
  rw [← hdb]
  rfl

theorem claimCandidate_some (h : claimCandidate now queues locked db = some j) :
    j ∈ db.jobs ∧ claimable now queues locked j = true :=
  List.mem_filter.1 (selectFirst_mem h)

theorem claimCandidate_of_isEmpty (h : queues.isEmpty = true) :
    claimCandidate now queues locked db = none := by
  unfold claimCandidate
  rw [selectFirst_eq_none, List.filter_eq_nil_iff]
  intro j _ hj
  rw [List.isEmpty_iff.1 h] at hj
  exact List.not_mem_nil (claimable_iff.1 hj).1

theorem claimJob_cases (now : Timestamp) (w : String) (queues : List String) (lease : Int)
    (locked : List String) (db : Db) :
    (claimCandidate now queues locked db = none ∧
      claimJob now w queues lease locked db = (db, none)) ∨
      ∃ candidate, claimCandidate now queues locked db = some candidate ∧
        (claimJob now w queues lease locked db).1.jobs =
          updateWhere (fun j => decide (j.id = candidate.id)) (claimRow now w lease) db.jobs ∧
        (claimJob now w queues lease locked db).2 = some (claimRow now w lease candidate) := by
  unfold claimJob
  by_cases hempty : queues.isEmpty = true
  · rw [if_pos hempty]
    exact Or.inl ⟨claimCandidate_of_isEmpty hempty, rfl⟩
  · rw [if_neg hempty]
    cases hsel : claimCandidate now queues locked db with
    | none => exact Or.inl ⟨rfl, rfl⟩
    | some candidate => exact Or.inr ⟨candidate, rfl, rfl, rfl⟩

/-- Without a running row of that id and owner the conditional update returns
`False` and changes nothing. -/
theorem updateOwned_of_forall_ne {w : String} {f : Job → Job} {event : JobEvent}
    (h : ∀ j ∈ db.jobs, ownedBy id w j = false) : updateOwned id w f event db = (db, false) := by
  unfold updateOwned
  rw [if_neg]
  intro hany
  obtain ⟨j, hj, ho⟩ := List.any_eq_true.1 hany
  rw [h j hj] at ho
  exact Bool.false_ne_true ho

theorem updateOwned_jobs (id w : String) (f : Job → Job) (event : JobEvent) (db : Db) :
    (updateOwned id w f event db).1.jobs = updateWhere (ownedBy id w) f db.jobs := by
  by_cases h : db.jobs.any (ownedBy id w) = true
  · unfold updateOwned
    rw [if_pos h]
    rfl
  · have hne : ∀ j ∈ db.jobs, ownedBy id w j = false := by
      intro j hj
      rw [Bool.eq_false_iff]
      intro ho
      exact h (List.any_eq_true.2 ⟨j, hj, ho⟩)
    rw [updateOwned_of_forall_ne hne, updateWhere_eq_self hne]

end ElectronicMail.Jobs
