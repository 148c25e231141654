import ElectronicMail.Actions.Labels
import ElectronicMail.Matters.Generations

/-!
# Gmail actions on a matter

`POST /v1/mailbox/entity-actions` takes a snapshot of the messages of a matter and enqueues
a job that changes each of them in Gmail, one call after the other, and hides the matter when
the action removes its messages. Nothing records how far the job has come, or that the action
has been carried out: an attempt starts from the first message, and a request that comes
again finds the earlier job only while it is queued or running.

The system here is that of one `client_action_id`: its requests, its jobs, and the workers
that run them. `matter_action_once` says when no message is changed again after the action
has been carried out and every attempt that is made again reaches the end.
-/

namespace ElectronicMail.Matters

open Foundations
open Foundations.Table
open Actions (ThreadAction)
open Jobs (JobStatus)

/-! ## The calls -/

inductive GmailCall where
  | modify (addLabelIds removeLabelIds : List String)
  | trash
  | untrash
  | delete
  deriving DecidableEq

/-- `_apply_message_action`. -/
def messageCall : ThreadAction → GmailCall
  | .archive => .modify [] ["INBOX"]
  | .unarchive => .modify ["INBOX"] []
  | .markRead => .modify [] ["UNREAD"]
  | .markUnread => .modify ["UNREAD"] []
  | .moveTrash => .trash
  | .restoreTrash => .untrash
  | .markSpam => .modify ["SPAM"] ["INBOX"]
  | .notSpam => .modify ["INBOX"] ["SPAM"]
  | .star => .modify ["STARRED"] []
  | .unstar => .modify [] ["STARRED"]
  | .deleteForever => .delete

/-- `action in {"move_trash", "delete_forever"}`. -/
def removesMessages (action : ThreadAction) : Bool :=
  action == .moveTrash || action == .deleteForever

/-! ## The snapshot -/

/-- `get_matter`, in the active generation or in the one that is given. -/
def getMatter (matterId : Nat) (generationId : Option Nat) (s : Tables) :
    Option (Matter × List Nat) :=
  let generation := match generationId with
    | none => s.profile.bind Profile.activeGenerationId
    | some g =>
      if s.generations.any fun row => row.id == g && row.status.isLive then some g else none
  generation.bind fun g =>
    (s.matters.find? (Matter.is g matterId)).map fun m =>
      (m, (s.messageIdsOf g matterId).filter fun x =>
        s.messages.any fun row => row.messageId == x)

/-- The snapshot of a request, and with a preview that of the shadow generation. -/
def activeMemberSnapshot (matterId : Nat) (preview : Option Nat) (s : Tables) :
    Option (Matter × List Nat) :=
  (getMatter matterId none s).or (preview.bind fun g => getMatter matterId (some g) s)

def hideMatter (matterId : Nat) (s : Tables) : Tables :=
  { s with
    matters := updateWhere (fun m => m.id == matterId && m.visible)
      (fun m => { m with visible := false, revision := m.revision + 1 }) s.matters }

/-! ## The system -/

/-- What the requests with one `client_action_id` ask for. -/
structure ActionRequest where
  matterId : Nat
  action : ThreadAction

/-- A job `ai_matter_action` for one `client_action_id`. -/
structure ActionJob where
  id : Nat
  messageIds : List Nat
  status : JobStatus

/-- How far a worker has got with `run_matter_action`. -/
inductive ExecutorStage where
  | calling (rest : List Nat)
  | hidden
  | synced
  deriving DecidableEq

structure Executor where
  id : Nat
  jobId : Nat
  stage : ExecutorStage

/-- The tables, the jobs of the action with their workers and who holds the lease of each,
and Gmail: the messages that are deleted for good, and the changes that have been made.
`again` says that a message has been changed a second time after a job had succeeded. -/
structure ActionRun where
  tables : Tables
  jobs : List ActionJob
  nextId : Nat
  executors : List Executor
  holders : Nat → Option Nat
  deleted : List Nat
  log : List (GmailCall × Nat)
  again : Bool

/-- What happens next. `fails` is an exception, of a Gmail call or of something else, and
`dies` a crash; `edits` is whatever else happens to the tables, and `vanishes` a deletion in
Gmail by somebody else. -/
inductive ActionLabel where
  | posts (expectedRevision : Nat) (confirmMultiThreadTrash : Bool) (preview : Option Nat)
  | claims (k jobId : Nat)
  | calls (k : Nat)
  | hides (k : Nat)
  | syncs (k : Nat)
  | ends (k : Nat)
  | fails (k : Nat) (requeue : Bool)
  | dies (k : Nat)
  | edits (tables : Tables)
  | vanishes (messageId : Nat)

def ActionRun.completed (w : ActionRun) : Bool := w.jobs.any fun j => j.status == .succeeded

def ActionRun.executor (w : ActionRun) (k : Nat) : Option Executor :=
  rowAt Executor.id w.executors k

def ActionRun.goOn (w : ActionRun) (k : Nat) (stage : ExecutorStage) : List Executor :=
  updateWhere (fun o => o.id == k) (fun o => { o with stage := stage }) w.executors

def ActionRun.without (w : ActionRun) (k : Nat) : List Executor :=
  w.executors.filter fun o => o.id != k

def closeActionJob (jobId : Nat) (status : JobStatus) (jobs : List ActionJob) : List ActionJob :=
  updateWhere (fun j => j.id == jobId && j.status == .running)
    (fun j => { j with status := status }) jobs

/-- The worker reports to the queue, which listens to it while it holds the lease. -/
def ActionRun.report (w : ActionRun) (o : Executor) (status : JobStatus) : List ActionJob :=
  if w.holders o.jobId = some o.id then closeActionJob o.jobId status w.jobs else w.jobs

/-- The messages of a request that passes its checks: the matter is there in the expected
revision, and an action that removes messages of several threads is confirmed. -/
def acceptedSnapshot (r : ActionRequest) (threadOf : Nat → Nat) (s : Tables)
    (expectedRevision : Nat) (confirmMultiThreadTrash : Bool) (preview : Option Nat) :
    Option (List Nat) :=
  match activeMemberSnapshot r.matterId preview s with
  | none => none
  | some (m, messageIds) =>
    if m.revision = expectedRevision ∧
        ¬ (removesMessages r.action = true ∧ 1 < (messageIds.map threadOf).eraseDups.length ∧
          confirmMultiThreadTrash = false) then
      some messageIds
    else none

/-- Gmail answers 404 to the deletion of a message that is already deleted. -/
def refuses (call : GmailCall) (deleted : List Nat) (messageId : Nat) : Bool :=
  call == .delete && deleted.contains messageId

def ActionRun.step (r : ActionRequest) (threadOf : Nat → Nat) (w : ActionRun) :
    ActionLabel → ActionRun
  | .posts expectedRevision confirm preview =>
    match acceptedSnapshot r threadOf w.tables expectedRevision confirm preview with
    | none => w
    | some messageIds =>
      if w.jobs.any fun j => j.status.isActive then w
      else { w with
        jobs := w.jobs ++ [⟨w.nextId, messageIds.eraseDups, .queued⟩]
        nextId := w.nextId + 1 }
  | .claims k jobId =>
    match w.executor k, w.jobs.find? fun j => j.id == jobId && j.status.isActive with
    | none, some j =>
      { w with
        jobs := updateWhere (fun j => j.id == jobId && j.status.isActive)
          (fun j => { j with status := .running }) w.jobs
        executors := ⟨k, jobId, .calling j.messageIds.eraseDups⟩ :: w.executors
        holders := Function.update w.holders jobId (some k) }
    | _, _ => w
  | .calls k =>
    match w.executor k with
    | some ⟨_, _, .calling (x :: rest)⟩ =>
      let call := messageCall r.action
      -- A call that is refused raises, and its worker can only fail.
      if refuses call w.deleted x then w
      else { w with
        executors := w.goOn k (.calling rest)
        deleted := if call = .delete then x :: w.deleted else w.deleted
        log := (call, x) :: w.log
        again := w.again || (w.completed && w.log.any fun entry => entry.2 == x) }
    | _ => w
  | .hides k =>
    match w.executor k with
    | some ⟨_, _, .calling []⟩ =>
      { w with
        tables := if removesMessages r.action then hideMatter r.matterId w.tables else w.tables
        executors := w.goOn k .hidden }
    | _ => w
  | .syncs k =>
    match w.executor k with
    | some ⟨_, _, .hidden⟩ => { w with executors := w.goOn k .synced }
    | _ => w
  | .ends k =>
    match w.executor k with
    | some o =>
      if o.stage = .synced then
        { w with jobs := w.report o .succeeded, executors := w.without k }
      else w
    | none => w
  | .fails k requeue =>
    match w.executor k with
    | some o =>
      { w with
        jobs := w.report o (if requeue then .queued else .dead)
        executors := w.without k }
    | none => w
  | .dies k => { w with executors := w.without k }
  | .edits tables => { w with tables := tables }
  | .vanishes x => { w with deleted := x :: w.deleted }

/-! ## The law -/

def ActionRun.Unattended (w : ActionRun) (j : ActionJob) : Prop :=
  ∀ o ∈ w.executors, o.jobId ≠ j.id

def attemptRun (k : Nat) (j : ActionJob) : List ActionLabel :=
  .claims k j.id :: List.replicate j.messageIds.length (.calls k) ++ [.hides k, .syncs k, .ends k]

/-- The action has been carried out: the job has succeeded, every message of its snapshot has
been changed, and the matter is hidden if the action removes its messages. -/
structure ActionPerformed (r : ActionRequest) (j : ActionJob) (w : ActionRun) : Prop where
  succeeded : ∃ j' ∈ w.jobs, j'.id = j.id ∧ j'.status = .succeeded
  changed : ∀ x ∈ j.messageIds, (messageCall r.action, x) ∈ w.log
  hidden : removesMessages r.action = true →
    ∀ m ∈ w.tables.matters, m.id = r.matterId → m.visible = false

/-- No message is changed again once the action has been carried out, and the next attempt at
a job that somebody has left reaches the end. -/
structure OnceAndResumable (r : ActionRequest) (threadOf : Nat → Nat) (w : ActionRun) : Prop where
  once : w.again = false
  resumable : ∀ j ∈ w.jobs, j.status.isActive = true → w.Unattended j →
    ∀ k, w.executor k = none →
      ActionPerformed r j (after (ActionRun.step r threadOf) w (attemptRun k j))

/-- The message is to be deleted for good by a job that somebody has left. -/
def ActionRun.Awaits (r : ActionRequest) (w : ActionRun) (messageId : Nat) : Prop :=
  r.action = .deleteForever ∧
    ∃ j ∈ w.jobs, j.status.isActive = true ∧ w.Unattended j ∧ messageId ∈ j.messageIds

/-- A request that is enqueued does not come after the action has been carried out, and names
no deleted message for deletion. -/
def PostsFresh (r : ActionRequest) (threadOf : Nat → Nat) (w : ActionRun)
    (expectedRevision : Nat) (confirm : Bool) (preview : Option Nat) : Prop :=
  ∀ messageIds ∈ acceptedSnapshot r threadOf w.tables expectedRevision confirm preview,
    (∀ j ∈ w.jobs, j.status.isActive = false) →
      w.completed = false ∧ (r.action = .deleteForever → ∀ x ∈ messageIds, x ∉ w.deleted)

/-- Who changes a message once the action has been carried out works for a job that is queued
or running, and no message is deleted that a job left by its worker is to delete. -/
def CallsOwn (r : ActionRequest) (w : ActionRun) (k : Nat) : Prop :=
  ∀ o ∈ w.executor k, ∀ x rest, o.stage = .calling (x :: rest) →
    refuses (messageCall r.action) w.deleted x = false →
      (w.completed = true → ∃ j ∈ w.jobs, j.id = o.jobId ∧ j.status.isActive = true) ∧
        ¬ w.Awaits r x

/-- The last worker of a job does not leave it, to be tried again, with a message that is
deleted already and is to be deleted. `status` is what the worker reports. -/
def LeavesIntact (r : ActionRequest) (w : ActionRun) (k : Nat) (status : Option JobStatus) : Prop :=
  r.action = .deleteForever → ∀ o ∈ w.executor k, ∀ j ∈ w.jobs, j.id = o.jobId →
    j.status.isActive = true → (∀ o' ∈ w.without k, o'.jobId ≠ o.jobId) →
      (∀ reported ∈ status, w.holders o.jobId = some o.id → j.status = .running →
        reported.isActive = true) →
        ∀ x ∈ j.messageIds, x ∉ w.deleted

def KeepsOnce (r : ActionRequest) (threadOf : Nat → Nat) (w : ActionRun) : ActionLabel → Prop
  | .posts expectedRevision confirm preview =>
    PostsFresh r threadOf w expectedRevision confirm preview
  | .calls k => CallsOwn r w k
  | .ends k => (∀ o ∈ w.executor k, o.stage = .synced) → LeavesIntact r w k (some .succeeded)
  | .fails k requeue => LeavesIntact r w k (some (if requeue then .queued else .dead))
  | .dies k => LeavesIntact r w k none
  | .vanishes x => ¬ w.Awaits r x
  | .claims _ _ => True
  | .hides _ => True
  | .syncs _ => True
  | .edits _ => True

end ElectronicMail.Matters
