import Mathlib.Data.Fintype.Basic
import ElectronicMail.Foundations.Run
import ElectronicMail.Jobs.Queue

/-!
# Google grants in the hands of several processes

Every sign-in brings a grant from Google. `auth_google_callback` stores it as the token
of a Gmail account or gives it up: it asks Google to revoke it, or leaves that to a
`google_token_revoke` job. `auth_google_disconnect`, `auth_delete_google_data` and
`auth_delete_account` give up the stored grant of a user, and workers run the jobs. Most
of this happens under the lock of the Google subject.

`Ledger` holds what the tables and Google know, and `GrantPhase` where one process
stands: the next statement, lock or request of its function. `advance` is the next step
of a process, and `grantStep` lets any number of processes take their steps in any
order. A process holds the lock of a subject while its phase says so
(`GrantPhase.lock`).

A revocation that Google processes kills every grant of the subject issued so far
(`Ledger.revoke`), whether or not its answer arrives.
-/

namespace ElectronicMail.OAuth

open Foundations.Table
open Jobs (JobStatus)

/-! ## The tables and Google -/

abbrev Subject := String

/-- A grant, with its number in the order in which Google issued them. -/
structure Grant where
  number : Nat
  subject : Subject
  deriving DecidableEq

/-- A row of `users`. -/
structure AppUser where
  id : Nat
  googleSub : Subject
  disconnected : Bool
  deleteRequested : Bool
  deriving DecidableEq

def AppUser.isGuarded (user : AppUser) : Bool := user.disconnected || user.deleteRequested

/-- A row of `gmail_accounts` with its row of `google_oauth_tokens`. -/
structure GmailAccount where
  googleSub : Subject
  userId : Nat
  token : Option Grant
  deriving DecidableEq

/-- A row of `background_jobs` of kind `google_token_revoke`. -/
structure RevocationJob where
  id : Nat
  subjectHash : Subject
  grant : Grant
  status : JobStatus
  attemptCount : Nat
  leaseOwner : Option Nat

/-- `status IN ('queued', 'running')`. -/
def RevocationJob.isActive (job : RevocationJob) : Bool := job.status.isActive

def googleTokenRevocationMaxAttempts : Nat := 1000000

/-- The tables, the sequence `google_identity_event_epoch_seq`, and the grants at Google:
those issued, those killed by a revocation of this program, and those that died of
something else. `replaced` lists the stored grants that a newer one has overwritten. A
subject without a tombstone has the tombstone 0. -/
structure Ledger where
  users : List AppUser
  accounts : List GmailAccount
  jobs : List RevocationJob
  tombstone : Subject → Nat
  nextEpoch : Nat
  nextUser : Nat
  issued : List Grant
  killed : List Grant
  expired : List Grant
  replaced : List Grant

def Ledger.empty : Ledger := ⟨[], [], [], fun _ => 0, 1, 0, [], [], [], []⟩

/-- What can go one way or the other in a step: whether the statement or call succeeds,
whether a lock that fails to come times out, whether Google processes a revocation
request and whether its answer arrives, and the Google account the user signs in with. -/
structure Choice where
  ok : Bool := true
  timedOut : Bool := false
  processed : Bool := true
  answered : Bool := true
  subject : Subject := ""

/-! ### Google -/

def Ledger.Dead (w : Ledger) (g : Grant) : Prop := g ∈ w.killed ∨ g ∈ w.expired

instance (w : Ledger) (g : Grant) : Decidable (w.Dead g) :=
  inferInstanceAs (Decidable (g ∈ w.killed ∨ g ∈ w.expired))

def Ledger.fresh (w : Ledger) (subject : Subject) : Grant := ⟨w.issued.length, subject⟩

def Ledger.issue (w : Ledger) (subject : Subject) : Ledger :=
  { w with issued := w.issued ++ [w.fresh subject] }

/-- The grant dies of something else than a revocation of this program. -/
def Ledger.expire (w : Ledger) (g : Grant) : Ledger := { w with expired := g :: w.expired }

def Ledger.revoke (w : Ledger) (g : Grant) : Ledger :=
  if w.Dead g then w
  else { w with killed := w.killed ++ w.issued.filter fun h => h.subject = g.subject }

def Ledger.request (w : Ledger) (g : Grant) (ch : Choice) : Ledger :=
  if ch.processed then w.revoke g else w

/-- `_GoogleTokenRevocationOutcome`. -/
inductive RevocationOutcome where
  | projectRevoked
  | credentialInvalid
  | retry
  deriving DecidableEq

/-- `_revoke_google_token_payload_outcome`. -/
def Ledger.outcome (w : Ledger) (g : Grant) (ch : Choice) : RevocationOutcome :=
  if ch.processed && ch.answered then
    if w.Dead g then .credentialInvalid else .projectRevoked
  else .retry

/-! ### Jobs -/

/-- `_enqueue_google_token_revocation_job`, with the id of the job. An active job for the
same credential is kept. -/
def Ledger.enqueue (w : Ledger) (subject : Subject) (g : Grant) : Ledger × Nat :=
  match w.jobs.find? fun job => job.isActive && job.subjectHash = subject && job.grant = g with
  | some job => (w, job.id)
  | none =>
    ({ w with jobs := w.jobs ++ [⟨w.jobs.length, subject, g, .queued, 0, none⟩] },
      w.jobs.length)

/-- `has_active_google_token_revocation`. -/
def Ledger.hasActive (w : Ledger) (subject : Subject) : Bool :=
  w.jobs.any fun job => job.isActive && job.subjectHash = subject

/-- The status that `get_job` reads. -/
def Ledger.jobStatus (w : Ledger) (id : Nat) : Option JobStatus :=
  (w.jobs.find? fun job => job.id = id).map (·.status)

def RevocationJob.close (status : JobStatus) (job : RevocationJob) : RevocationJob :=
  { job with status := status, leaseOwner := none }

/-- `complete_google_token_revocations_for_subject`. -/
def Ledger.completeSubject (w : Ledger) (subject : Subject) : Ledger :=
  { w with
    jobs := updateWhere (fun job => job.isActive && job.subjectHash = subject)
      (RevocationJob.close .succeeded) w.jobs }

/-- `complete_google_token_revocation_job`. -/
def Ledger.completeRevocation (w : Ledger) (id : Nat) : Ledger :=
  { w with
    jobs := updateWhere (fun job => job.isActive && job.id = id)
      (RevocationJob.close .succeeded) w.jobs }

/-- The `SET` list of `claim_job`. -/
def RevocationJob.claim (worker : Nat) (job : RevocationJob) : RevocationJob :=
  { job with
    status := .running
    leaseOwner := some worker
    attemptCount := job.attemptCount + 1 }

/-- `claim_job`, when it takes this job. -/
def Ledger.claim (w : Ledger) (id worker : Nat) : Ledger :=
  { w with
    jobs := updateWhere (fun job => job.isActive && job.id = id) (RevocationJob.claim worker)
      w.jobs }

def RevocationJob.isOwned (id worker : Nat) (job : RevocationJob) : Bool :=
  job.id = id && job.status = .running && job.leaseOwner = some worker

def Ledger.completeJob (w : Ledger) (id worker : Nat) : Ledger :=
  { w with
    jobs := updateWhere (RevocationJob.isOwned id worker) (RevocationJob.close .succeeded) w.jobs }

/-- The status that `fail_job` leaves after this number of attempts. -/
def failedStatus (attemptCount : Nat) : JobStatus :=
  if googleTokenRevocationMaxAttempts ≤ attemptCount then .dead else .queued

def Ledger.failJob (w : Ledger) (id worker attemptCount : Nat) : Ledger :=
  { w with
    jobs := updateWhere (RevocationJob.isOwned id worker)
      (RevocationJob.close (failedStatus attemptCount)) w.jobs }

/-! ### Users and accounts -/

/-- `record_google_subject_revocation`. -/
def Ledger.record (w : Ledger) (subject : Subject) : Ledger :=
  { w with
    tombstone := Function.update w.tombstone subject w.nextEpoch
    nextEpoch := w.nextEpoch + 1 }

def Ledger.user (w : Ledger) (id : Nat) : Option AppUser :=
  w.users.find? fun user => user.id = id

def Ledger.isGuarded (w : Ledger) (id : Nat) : Bool :=
  w.users.any fun user => user.id = id && user.isGuarded

/-- An update of the row of the user that closes a guard. The trigger
`trg_users_tombstone_google_guard` writes a tombstone when that guard was open. -/
def Ledger.closeGuard (w : Ledger) (id : Nat) (wasClosed : AppUser → Bool)
    (close : AppUser → AppUser) : Ledger :=
  match w.user id with
  | none => w
  | some user =>
    { (if wasClosed user then w else w.record user.googleSub) with
      users := updateWhere (fun user => user.id = id) close w.users }

/-- `mark_google_disconnected`. -/
def Ledger.markDisconnected (w : Ledger) (id : Nat) : Ledger :=
  w.closeGuard id (·.disconnected) fun user => { user with disconnected := true }

/-- `delete_user_mail_data`, as far as the row of the user. -/
def Ledger.requestDeletion (w : Ledger) (id : Nat) : Ledger :=
  w.closeGuard id (·.deleteRequested) fun user => { user with deleteRequested := true }

/-- The account is the primary one of the user, which has the subject of the user. -/
def Ledger.isPrimary (w : Ledger) (id : Nat) (account : GmailAccount) : Bool :=
  account.userId = id && w.users.any fun user => user.id = id && user.googleSub = account.googleSub

def Ledger.primaryTokens (w : Ledger) (id : Nat) : List Grant :=
  (w.accounts.filter (w.isPrimary id)).filterMap (·.token)

/-- `delete_google_oauth_token` of the primary account. -/
def Ledger.dropPrimary (w : Ledger) (id : Nat) : Ledger :=
  { w with
    accounts := updateWhere (w.isPrimary id) (fun account => { account with token := none })
      w.accounts }

def Ledger.putToken (w : Ledger) (p : GmailAccount → Bool) (g : Grant) : Ledger :=
  { w with
    accounts := updateWhere p (fun account => { account with token := some g }) w.accounts
    replaced := w.replaced ++ (w.accounts.filter p).filterMap (·.token) }

/-- `trg_google_tokens_require_guard` lets a token of the subject be written for the
user. -/
def Ledger.tokenAllowed (w : Ledger) (id : Nat) (subject : Subject) (epoch : Nat) : Bool :=
  !w.isGuarded id && w.tombstone subject < epoch

/-- `link_gmail_account`; `none` when it raises. -/
def Ledger.link (w : Ledger) (id : Nat) (g : Grant) (epoch : Nat) : Option Ledger :=
  if (w.user id).isSome && w.tokenAllowed id g.subject epoch then
    match w.accounts.find? fun account => account.googleSub = g.subject with
    | some existing =>
      if existing.userId = id then
        some (w.putToken (fun account => account.googleSub = g.subject) g)
      else none
    | none => some { w with accounts := w.accounts ++ [⟨g.subject, id, some g⟩] }
  else none

/-- `upsert_user`, with the id of the user; `none` when it raises. The trigger
`trg_users_require_fresh_oauth` refuses a stale session, and `gmail_accounts` has one
row for each subject. -/
def Ledger.upsertUser (w : Ledger) (subject : Subject) (epoch : Nat) : Option (Ledger × Nat) :=
  if w.tombstone subject < epoch then
    match w.users.find? fun user => user.googleSub = subject with
    | some user => some (w, user.id)
    | none =>
      if w.accounts.any fun account => account.googleSub = subject then none
      else
        some
          ({ w with
              users := w.users ++ [⟨w.nextUser, subject, false, false⟩]
              accounts := w.accounts ++ [⟨subject, w.nextUser, none⟩]
              nextUser := w.nextUser + 1 },
            w.nextUser)
  else none

def Ledger.clearGuards (w : Ledger) (id : Nat) : Ledger :=
  { w with
    users := updateWhere (fun user => user.id = id)
      (fun user => { user with disconnected := false, deleteRequested := false }) w.users }

/-- `reconnect_google_oauth_token`; `none` when it raises. -/
def Ledger.reconnect (w : Ledger) (id : Nat) (g : Grant) (epoch : Nat) : Option Ledger :=
  match w.accounts.find? (w.isPrimary id) with
  | none => none
  | some primary =>
    if w.tombstone primary.googleSub < epoch then
      some ((w.clearGuards id).putToken (w.isPrimary id) g)
    else none

/-- `delete_user_account_with_google_subject_tombstone`: the accounts of the user go with
the row (`ON DELETE CASCADE`), and a trigger writes the tombstone. -/
def Ledger.deleteUser (w : Ledger) (id : Nat) : Ledger :=
  match w.user id with
  | none => w
  | some user =>
    { w.record user.googleSub with
      users := w.users.filter fun user => user.id ≠ id
      accounts := w.accounts.filter fun account => account.userId ≠ id }

/-! ## Processes -/

/-- What a callback holds: its grant, `oauth_started_epoch`, the user who links an account
(`initiating_user_id`), `callback_user_id`, and whether the subject is that of a linked
account. `dropped` lists the stored grants that its cleanup has deleted. -/
structure Callback where
  grant : Grant
  epoch : Nat
  intent : Option Nat
  user : Option Nat := none
  secondary : Bool := false
  dropped : List Grant := []
  deriving DecidableEq

def Callback.subject (c : Callback) : Subject := c.grant.subject

inductive OperationKind where
  | disconnect
  | dataDeletion
  | accountDeletion
  deriving DecidableEq

structure Operation where
  kind : OperationKind
  userId : Nat
  subject : Subject
  deriving DecidableEq

/-- Who revokes a tracked grant. A worker knows the attempt count of the job it claimed. -/
inductive Revoker where
  | callback (c : Callback)
  | operation (op : Operation)
  | worker (attemptCount : Nat)
  deriving DecidableEq

structure Revocation where
  owner : Revoker
  jobId : Nat
  subject : Subject
  grant : Grant
  deriving DecidableEq

inductive GrantPhase where
  | idle
  | started (epoch : Nat) (intent : Option Nat)
  -- `handle_google_callback` and the body of `auth_google_callback`
  | identifying (c : Callback)
  | dropping (c : Callback)
  | locking (c : Callback)
  | lookingUp (c : Callback)
  | lookingAccount (c : Callback) (existing : Option AppUser)
  | checkingEpoch (c : Callback)
  | checkingPending (c : Callback)
  | colliding (c : Callback) (initiating : Nat)
  | linking (c : Callback) (owner : Nat)
  | upserting (c : Callback)
  | reconnecting (c : Callback) (id : Nat)
  -- its two `finally` blocks
  | tracking (c : Callback)
  | droppingStored (c : Callback) (id : Nat) (jobId : Option Nat)
  | marking (c : Callback) (id : Nat) (jobId : Option Nat)
  | cleanRevoking (c : Callback)
  | cleanRecording (c : Callback)
  | outer (c : Callback)
  | queueing (c : Callback) (lastResort : Bool)
  -- `_revoke_tracked_google_token_payload` and `retry_encrypted_google_token_revocation`
  | checkingJob (r : Revocation)
  | revoking (r : Revocation)
  | recording (r : Revocation) (all : Bool)
  | completing (r : Revocation) (all : Bool)
  -- `auth_google_disconnect`, `auth_delete_google_data` and `auth_delete_account`
  | opLocking (op : Operation)
  | opRecording (op : Operation)
  | preparing (op : Operation)
  | opEnqueuing (op : Operation) (g : Grant)
  | closing (op : Operation)
  | guarding (op : Operation)
  | removing (op : Operation)
  | purging (op : Operation)
  -- the worker
  | workLocking (r : Revocation)
  | failing (r : Revocation)
  | completingJob (r : Revocation)
  deriving DecidableEq

def GrantPhase.lock : GrantPhase → Option Subject
  | .lookingUp c => some c.subject
  | .lookingAccount c _ => some c.subject
  | .checkingEpoch c => some c.subject
  | .checkingPending c => some c.subject
  | .colliding c _ => some c.subject
  | .linking c _ => some c.subject
  | .upserting c => some c.subject
  | .reconnecting c _ => some c.subject
  | .tracking c => some c.subject
  | .droppingStored c _ _ => some c.subject
  | .marking c _ _ => some c.subject
  | .cleanRevoking c => some c.subject
  | .cleanRecording c => some c.subject
  | .checkingJob r => some r.subject
  | .revoking r => some r.subject
  | .recording r _ => some r.subject
  | .completing r _ => some r.subject
  | .opRecording op => some op.subject
  | .preparing op => some op.subject
  | .opEnqueuing op _ => some op.subject
  | .closing op => some op.subject
  | .guarding op => some op.subject
  | .removing op => some op.subject
  | .purging op => some op.subject
  | _ => none

/-! ## The next step of a process -/

/-- The callback goes on after an exception. A link has left the inner block, and with it
the lock; a sign-in tracks its grant first. -/
def Callback.failed (c : Callback) : GrantPhase :=
  if c.intent.isSome then .outer c else .tracking c

/-- `_cleanup_unpersisted_callback_grant`. -/
def Callback.cleanup (c : Callback) : GrantPhase :=
  match c.user with
  | some id => .droppingStored c id none
  | none => .cleanRevoking c

/-- Where a failed `_disconnect_callback_google_connection` leads. -/
def Callback.disconnectFailed (c : Callback) : Option Nat → GrantPhase
  | some _ => c.cleanup
  | none => .cleanRevoking c

def Callback.revocation (c : Callback) (jobId : Nat) : GrantPhase :=
  .checkingJob ⟨.callback c, jobId, c.subject, c.grant⟩

/-- Where `_disconnect_callback_google_connection` leads. -/
def Callback.disconnected (c : Callback) : Option Nat → GrantPhase
  | some jobId => c.revocation jobId
  | none => .cleanRevoking c

def Callback.checked (c : Callback) : GrantPhase :=
  match c.intent with
  | some initiating => .colliding c initiating
  | none =>
    match c.user with
    | some id => if c.secondary then .linking c id else .upserting c
    | none => .upserting c

def Revocation.resolved (r : Revocation) : GrantPhase :=
  match r.owner with
  | .callback _ => .idle
  | .operation op => .guarding op
  | .worker _ => .completingJob r

def Revocation.broken (r : Revocation) : GrantPhase :=
  match r.owner with
  | .callback c => c.cleanup
  | .operation op => .closing op
  | .worker _ => .failing r

def Revocation.retried (r : Revocation) : GrantPhase :=
  match r.owner with
  | .callback _ => .idle
  | .operation op => .guarding op
  | .worker _ => .failing r

def Revocation.goesOn (r : Revocation) (status : JobStatus) : Bool :=
  match r.owner with
  | .worker _ => status = .running
  | _ => status.isActive

/-- `get_job` and the branches on its status. -/
def Revocation.check (r : Revocation) : Option JobStatus → GrantPhase
  | none =>
    match r.owner with
    | .worker _ => r.resolved
    | _ => r.broken
  | some status =>
    if status = .succeeded then r.resolved
    else if r.goesOn status then .revoking r
    else r.broken

/-- The attempt count that `fail_job` compares with the maximum. -/
def Revocation.attemptCount (r : Revocation) : Nat :=
  match r.owner with
  | .worker attemptCount => attemptCount
  | _ => 0

/-- The first statement after the token is secured: `mark_google_disconnected`, or the
deletion of the mail data. -/
def Ledger.guardFor (w : Ledger) (op : Operation) : Ledger :=
  match op.kind with
  | .accountDeletion => w.requestDeletion op.userId
  | _ => w.markDisconnected op.userId

section Advance

variable (w : Ledger) (free : Subject → Bool) (me : Nat) (ch : Choice)

def stored (result : Option Ledger) (failed : GrantPhase) : Ledger × GrantPhase :=
  match if ch.ok then result else none with
  | some w' => (w', .idle)
  | none => (w, failed)

def acquire (subject : Subject) (waiting acquired failed : GrantPhase) : Ledger × GrantPhase :=
  if ch.ok then (w, if free subject then acquired else waiting) else (w, failed)

/-- The next step of process `me`. -/
def advance : GrantPhase → Ledger × GrantPhase
  | .idle => (w, .idle)
  | .started epoch intent =>
    if ch.ok then (w.issue ch.subject, .identifying { grant := w.fresh ch.subject, epoch, intent })
    else (w, .idle)
  | .identifying c => (w, if ch.ok then .locking c else .dropping c)
  | .dropping c => (w.request c.grant ch, .idle)
  | .locking c =>
    acquire w free ch c.subject (.locking c)
      (if c.intent.isSome then .checkingEpoch c else .lookingUp c) (.outer c)
  | .lookingUp c =>
    let account := w.accounts.find? fun account => account.googleSub = c.subject
    (w, if ch.ok then .lookingAccount c (account.bind fun account => w.user account.userId)
      else .outer c)
  | .lookingAccount c existing =>
    let secondary := existing.any (fun user => user.googleSub ≠ c.subject) &&
      w.accounts.any fun account => account.googleSub = c.subject
    (w, if ch.ok then .checkingEpoch { c with user := existing.map (·.id), secondary }
      else .outer c)
  | .checkingEpoch c =>
    (w, if ch.ok && w.tombstone c.subject < c.epoch then .checkingPending c else c.failed)
  | .checkingPending c =>
    (w, if ch.ok && !w.hasActive c.subject then c.checked else c.failed)
  | .colliding c initiating =>
    let account := w.accounts.find? fun account => account.googleSub = c.subject
    (w, if ch.ok then .linking c ((account.map (·.userId)).getD initiating) else c.failed)
  | .linking c owner => stored w ch (w.link owner c.grant c.epoch) c.failed
  | .upserting c =>
    match if ch.ok then w.upsertUser c.subject c.epoch else none with
    | some (w', id) => (w', .reconnecting { c with user := some id } id)
    | none => (w, c.failed)
  | .reconnecting c id => stored w ch (w.reconnect id c.grant c.epoch) c.failed
  | .tracking c =>
    if ch.ok then
      ((w.enqueue c.subject c.grant).1,
        match c.user with
        | some id => .droppingStored c id (some (w.enqueue c.subject c.grant).2)
        | none => c.revocation (w.enqueue c.subject c.grant).2)
    else (w, c.cleanup)
  | .droppingStored c id jobId =>
    if ch.ok then
      (w.dropPrimary id, .marking { c with dropped := c.dropped ++ w.primaryTokens id } id jobId)
    else (w, c.disconnectFailed jobId)
  | .marking c id jobId =>
    if ch.ok then (w.markDisconnected id, c.disconnected jobId)
    else (w, c.disconnectFailed jobId)
  | .cleanRevoking c =>
    (w.request c.grant ch, if w.outcome c.grant ch = .retry then .idle else .cleanRecording c)
  | .cleanRecording c => (if ch.ok then w.record c.subject else w, .idle)
  -- Only a timeout of the lock keeps the callback from revoking as a last resort.
  | .outer c => acquire w free ch c.subject (.outer c) c.cleanup (.queueing c !ch.timedOut)
  | .queueing c lastResort =>
    if ch.ok then ((w.enqueue c.subject c.grant).1, .idle)
    else (w, if lastResort then .dropping c else .idle)
  | .checkingJob r => (w, if ch.ok then r.check (w.jobStatus r.jobId) else r.broken)
  | .revoking r =>
    (w.request r.grant ch,
      match w.outcome r.grant ch with
      | .retry => r.retried
      | .projectRevoked => .recording r true
      | .credentialInvalid => .recording r false)
  | .recording r all =>
    if ch.ok then (w.record r.subject, .completing r all) else (w, r.broken)
  | .completing r all =>
    if ch.ok then
      (if all then w.completeSubject r.subject else w.completeRevocation r.jobId, r.resolved)
    else (w, r.broken)
  | .opLocking op => acquire w free ch op.subject (.opLocking op) (.opRecording op) .idle
  | .opRecording op => if ch.ok then (w.record op.subject, .preparing op) else (w, .idle)
  -- The lock of the user is taken before the handler of `_prepare_google_token_revocation_or_fail`.
  | .preparing op =>
    (w, if ch.timedOut then .idle
      else if ch.ok then
        match (w.primaryTokens op.userId).head? with
        | some g => .opEnqueuing op g
        | none => .guarding op
      else .closing op)
  | .opEnqueuing op g =>
    if ch.ok then
      ((w.enqueue op.subject g).1,
        .checkingJob ⟨.operation op, (w.enqueue op.subject g).2, op.subject, g⟩)
    else (w, .closing op)
  | .closing op => (if ch.ok then w.markDisconnected op.userId else w, .idle)
  | .guarding op => if ch.ok then (w.guardFor op, .removing op) else (w, .idle)
  | .removing op =>
    if ch.ok then
      match op.kind with
      | .disconnect => (w.dropPrimary op.userId, .idle)
      | .dataDeletion => (w.dropPrimary op.userId, .purging op)
      | .accountDeletion => (w.deleteUser op.userId, .idle)
    else (w, .idle)
  | .purging op => (if ch.ok then w.requestDeletion op.userId else w, .idle)
  | .workLocking r => acquire w free ch r.subject (.workLocking r) (.checkingJob r) (.failing r)
  | .failing r => (if ch.ok then w.failJob r.jobId me r.attemptCount else w, .idle)
  | .completingJob r => (if ch.ok then w.completeJob r.jobId me else w, .idle)

end Advance

/-! ## Runs -/

/-- `n` processes. -/
structure GrantSystem (n : Nat) where
  ledger : Ledger
  phase : Fin n → GrantPhase

-- For the numbers of the processes in the runs of two.
scoped instance neZeroTwo : @NeZero Nat Zero.ofOfNat0 2 := ⟨Nat.succ_ne_zero 1⟩

def GrantSystem.start (n : Nat) : GrantSystem n := ⟨.empty, fun _ => .idle⟩

/-- What can happen next: a session for a sign-in or a link is opened, a route is called, a
worker claims a job, a process takes its next step, a grant dies at Google. -/
inductive GrantStep (n : Nat) where
  | startSession (i : Fin n) (intent : Option Nat)
  | startOperation (i : Fin n) (kind : OperationKind) (userId : Nat)
  | claim (i : Fin n) (jobId : Nat)
  | advance (i : Fin n) (ch : Choice)
  | expire (g : Grant)

variable {n : Nat}

def GrantSystem.isFree (s : GrantSystem n) (subject : Subject) : Bool :=
  decide (∀ j, (s.phase j).lock ≠ some subject)

/-- Process `i` has come to `phase`, and the ledger to `ledger`. -/
def GrantSystem.goto (s : GrantSystem n) (i : Fin n) (next : Ledger × GrantPhase) : GrantSystem n :=
  ⟨next.1, Function.update s.phase i next.2⟩

/-- A session is opened: `started_epoch` is the next value of the sequence. -/
def openSession (w : Ledger) (intent : Option Nat) : Ledger × GrantPhase :=
  ({ w with nextEpoch := w.nextEpoch + 1 }, .started w.nextEpoch intent)

def openOperation (w : Ledger) (kind : OperationKind) (userId : Nat) : Ledger × GrantPhase :=
  match w.user userId with
  | some user => (w, .opLocking ⟨kind, userId, user.googleSub⟩)
  | none => (w, .idle)

def openClaim (w : Ledger) (worker jobId : Nat) : Ledger × GrantPhase :=
  match w.jobs.find? fun job => job.isActive && job.id = jobId with
  | some job =>
    (w.claim jobId worker,
      .workLocking ⟨.worker (job.attemptCount + 1), jobId, job.subjectHash, job.grant⟩)
  | none => (w, .idle)

def grantStep (s : GrantSystem n) : GrantStep n → GrantSystem n
  | .startSession i intent =>
    if s.phase i = .idle then s.goto i (openSession s.ledger intent) else s
  | .startOperation i kind userId =>
    if s.phase i = .idle then s.goto i (openOperation s.ledger kind userId) else s
  | .claim i jobId =>
    if s.phase i = .idle then s.goto i (openClaim s.ledger i jobId) else s
  | .advance i ch => s.goto i (advance s.ledger s.isFree i ch (s.phase i))
  | .expire g => { s with ledger := s.ledger.expire g }

end ElectronicMail.OAuth
