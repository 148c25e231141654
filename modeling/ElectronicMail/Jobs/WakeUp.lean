import ElectronicMail.Jobs.Fencing

/-!
# Wake-ups of coalesced jobs

Producers commit a change and then call `enqueue_job` for one coalescing key; workers
claim the job of the key, read the changes, commit their result and finish the job. A
change needs the start of an attempt after it was committed, since an attempt that is
running may have read before.

`enqueue_job` is one transaction of two or three statements, and other transactions
commit between them: `select`, then the `UPDATE` or `INSERT` that it decides on
(`write`), and after a conflict the second `SELECT` (`reselect`). Run without a break
they are `enqueueJob` (`statements_eq_enqueueJob`).

The first `SELECT` also coalesces with a job that is running, and then nobody looks at
the change: `joinedRun` loses a wake-up. Runs in which no producer finds a running job
lose none (`noLostWakeUp`); the `UPDATE` of a row that a worker claims in between and the
conflict of the `INSERT` are harmless.
-/

namespace ElectronicMail.Jobs

open Foundations
open Foundations.Table

/-! ## Producers -/

/-- The account, the kind and the dedupe key by which jobs are coalesced. -/
structure CoalescingKey where
  account : Option String
  kind : String
  dedupeKey : String

def CoalescingKey.isActive (key : CoalescingKey) (job : Job) : Bool :=
  sameActive key.account key.kind (some key.dedupeKey) job

inductive Producer where
  | idle
  /-- Its change is committed. -/
  | committed
  /-- The first `SELECT` of `enqueue_job` calls for another statement. -/
  | selected (ctx : EnqueueContext) (req : EnqueueRequest) (existing : Option Job)
  /-- The `INSERT` met a conflict. -/
  | conflicted (ctx : EnqueueContext) (req : EnqueueRequest)
  | returned (job : Job)
  | raised

/-- `enqueue_job` up to its first `SELECT`. -/
def select (ctx : EnqueueContext) (req : EnqueueRequest) (db : Db) : Producer :=
  if req.userId.isSome && !ctx.mailWritesAllowed then .raised
  else
    let existing :=
      if Text.truthy req.dedupeKey then
        selectActive (resolvedGmailAccountId ctx req) req.kind req.dedupeKey db
      else none
    match existing with
    | none => .selected ctx req none
    | some job =>
      if job.status = .queued ∧ (req.wakeExisting = true ∨ job.priority < req.priority) then
        .selected ctx req (some job)
      else .returned job

/-- The row that an `UPDATE … WHERE id = :id RETURNING *` returns. -/
def returnedRow (id : String) (db : Db) : Producer :=
  match rowAt Job.id db.jobs id with
  | none => .raised
  | some row => .returned row

/-- The statement after the first `SELECT`. -/
def write (ctx : EnqueueContext) (req : EnqueueRequest) (existing : Option Job) (db : Db) :
    Db × Producer :=
  match existing with
  | some job =>
    let after :=
      if req.wakeExisting then
        wakeQueued ctx.now job.id (max 0 req.runAfterSeconds) req.priority db
      else raisePriority ctx.now job.id req.priority db
    (after, returnedRow job.id after)
  | none =>
    let row := newJob ctx.now ctx.jobId (resolvedGmailAccountId ctx req) req
    if db.jobs.any (conflictsWith row) then (db, .conflicted ctx req)
    else
      (insertEvent ⟨row.id, .queued, none, []⟩
        { db with jobs := insertUnlessConflict (conflictsWith row) row db.jobs }, .returned row)

/-- The second `SELECT`. -/
def reselect (ctx : EnqueueContext) (req : EnqueueRequest) (db : Db) : Db × Producer :=
  let row :=
    if Text.truthy req.dedupeKey then
      selectActive (resolvedGmailAccountId ctx req) req.kind req.dedupeKey db
    else none
  match row with
  | none => (db, .raised)
  | some job => (insertEvent ⟨job.id, .queued, none, []⟩ db, .returned job)

variable {job : Job}

structure WakeSystem where
  queue : QueueState
  producers : Nat → Producer
  /-- An attempt of the key has started since the change of the producer was committed. -/
  started : Nat → Bool

def WakeSystem.initial : WakeSystem :=
  ⟨QueueState.empty, fun _ => .idle, fun _ => false⟩

inductive WakeLabel where
  | commit (producer : Nat)
  | select (producer : Nat) (ctx : EnqueueContext) (req : EnqueueRequest)
  | write (producer : Nat)
  | reselect (producer : Nat)
  /-- A transaction of a worker or of somebody else. -/
  | transaction (t : Transaction)

def startsKey (key : CoalescingKey) (s : QueueState) (t : Transaction) : Bool :=
  match t.op with
  | .claimJob w queues lease locked =>
    (claimJob t.now w queues lease locked s.db).2.any key.isActive
  | _ => false

/-- Producer `i` goes on at `p`. -/
def WakeSystem.goto (s : WakeSystem) (i : Nat) (p : Producer) : WakeSystem :=
  { s with producers := Function.update s.producers i p }

/-- A statement of producer `i`. -/
def WakeSystem.wrote (s : WakeSystem) (i : Nat) (result : Db × Producer) : WakeSystem :=
  { s.goto i result.2 with queue := { s.queue with db := result.1 } }

def wakeStep (key : CoalescingKey) (s : WakeSystem) : WakeLabel → WakeSystem
  | .commit i =>
    match s.producers i with
    | .idle => { s.goto i .committed with started := Function.update s.started i false }
    | _ => s
  | .select i ctx req =>
    match s.producers i with
    | .committed => s.goto i (select ctx req s.queue.db)
    | _ => s
  | .write i =>
    match s.producers i with
    | .selected ctx req existing => s.wrote i (write ctx req existing s.queue.db)
    | _ => s
  | .reselect i =>
    match s.producers i with
    | .conflicted ctx req => s.wrote i (reselect ctx req s.queue.db)
    | _ => s
  | .transaction t =>
    { s with
      queue := step s.queue t
      started := if startsKey key s.queue t then fun _ => true else s.started }

/-! ## The property -/

def Waiting (key : CoalescingKey) (db : Db) : Prop :=
  ∃ job ∈ db.jobs, key.isActive job = true ∧ job.status = .queued

structure NoLostWakeUp (key : CoalescingKey) (s : WakeSystem) : Prop where
  /-- Once no job of the key is active, an attempt has started after every change whose
  `enqueue_job` has returned. -/
  started : (∀ job ∈ s.queue.db.jobs, key.isActive job = false) →
    ∀ i job, s.producers i = .returned job → s.started i = true
  /-- Until an attempt starts, a job is queued. -/
  queued : ∀ i job, s.producers i = .returned job → s.started i = true ∨ Waiting key s.queue.db

structure RequestOnKey (key : CoalescingKey) (ctx : EnqueueContext) (req : EnqueueRequest) :
    Prop where
  truthy : key.dedupeKey ≠ ""
  kind : req.kind = key.kind
  dedupeKey : req.dedupeKey = some key.dedupeKey
  account : resolvedGmailAccountId ctx req = key.account

def Op.closesQueued : Op → Bool
  | .cancelUserJobs _ => true
  | .completeGoogleTokenRevocationsForSubject _ => true
  | .completeGoogleTokenRevocationJob _ => true
  | _ => false

/-- The producers enqueue for the key, and jobs end in the hands of the workers only. -/
def OnKey (key : CoalescingKey) (_ : WakeSystem) : WakeLabel → Prop
  | .select _ ctx req => RequestOnKey key ctx req
  | .transaction t => t.op.closesQueued = false
  | _ => True

/-- The first `SELECT` of a producer finds no running job. -/
def FindsNoneRunning (key : CoalescingKey) (s : WakeSystem) : WakeLabel → Prop
  | .select _ _ _ =>
    ∀ job, selectActive key.account key.kind (some key.dedupeKey) s.queue.db = some job →
      job.status = .queued
  | _ => True

/-! ## Queued jobs of the key -/

def AllQueued (key : CoalescingKey) (db : Db) : Prop :=
  ∀ job ∈ db.jobs, key.isActive job = true → job.status = .queued

section Queued

variable {key : CoalescingKey} {db after : Db}

theorem isActive_iff :
    key.isActive job = true ↔ job.gmailAccountId = key.account ∧ job.kind = key.kind ∧
      job.dedupeKey = some key.dedupeKey ∧ job.status.isActive = true := by
  simp [CoalescingKey.isActive, sameActive, and_assoc]

section

variable (h : Waiting key db)
include h

theorem Waiting.updateWhere {p : Job → Bool} {f : Job → Job}
    (hjobs : after.jobs = updateWhere p f db.jobs)
    (hf : ∀ job, p job = true → key.isActive job = true → job.status = .queued →
      key.isActive (f job) = true ∧ (f job).status = .queued) : Waiting key after := by
  obtain ⟨job, hjob, hactive, hstatus⟩ := h
  refine ⟨if p job then f job else job, ?_, ?_⟩
  · rw [hjobs]
    exact mem_updateWhere.2 ⟨job, hjob, rfl⟩
  · by_cases hp : p job = true
    · rw [if_pos hp]
      exact hf job hp hactive hstatus
    · rw [if_neg hp]
      exact ⟨hactive, hstatus⟩

theorem Waiting.wakeQueued (now : Timestamp) (id : String) (d p : Int) :
    Waiting key (wakeQueued now id d p db) :=
  h.updateWhere (wakeQueued_jobs now id d p db) fun _ _ hactive hstatus => ⟨hactive, hstatus⟩

theorem Waiting.raisePriority (now : Timestamp) (id : String) (p : Int) :
    Waiting key (raisePriority now id p db) :=
  h.updateWhere rfl fun _ _ hactive hstatus => ⟨hactive, hstatus⟩

theorem Waiting.updateOwned (id w : String) (f : Job → Job)
    (event : JobEvent) : Waiting key (updateOwned id w f event db).1 := by
  refine h.updateWhere (updateOwned_jobs id w f event db) fun job howned _ hstatus => ?_
  rw [(ownedBy_iff.1 howned).2.1] at hstatus
  cases hstatus

theorem Waiting.insert {conflict : Job → Bool} {row : Job}
    (hjobs : after.jobs = insertUnlessConflict conflict row db.jobs) : Waiting key after := by
  obtain ⟨job, hjob, hactive⟩ := h
  exact ⟨job, hjobs ▸ subset_insertUnlessConflict hjob, hactive⟩

end

theorem AllQueued.insert (h : AllQueued key db) {conflict : Job → Bool} {row : Job}
    (hjobs : after.jobs = insertUnlessConflict conflict row db.jobs)
    (hrow : row.status = .queued) : AllQueued key after := by
  intro job hjob hactive
  rw [hjobs] at hjob
  rcases mem_insertUnlessConflict hjob with hold | rfl
  · exact h job hold hactive
  · exact hrow

theorem AllQueued.effects {t : Transaction} (h : AllQueued key db)
    (heffects : RowEffects t db.jobs after.jobs) : AllQueued key after := by
  intro job hjob hactive
  rcases heffects.mem hjob with ⟨old, hold, heffect⟩ | ⟨id, account, req, -, rfl, -⟩
  · cases heffect with
    | keep => exact h job hold hactive
    | wake d p | raise p | renew => exact h old hold hactive
    | requeue => rfl
    | kill =>
      have hdead := (isActive_iff.1 hactive).2.2.2
      cases hdead
    | close status hold hstatus =>
      have hclosed := (isActive_iff.1 hactive).2.2.2
      rcases hstatus with rfl | rfl
      · cases hclosed
      · cases hclosed
  · rfl

end Queued

variable {ctx : EnqueueContext} {req : EnqueueRequest}

/-! ## Transactions -/

section Transactions

variable {key : CoalescingKey} {s : QueueState} {t : Transaction}

theorem waiting_enqueueJob {db after : Db}
    (h : Waiting key db) (henqueue : enqueueJob ctx req db = .ok (after, job)) :
    Waiting key after := by
  rcases enqueueJob_ok henqueue with rfl | ⟨id, d, p, rfl⟩ | ⟨id, p, rfl⟩ | hinsert
  · exact h
  · exact h.wakeQueued _ _ _ _
  · exact h.raisePriority _ _ _
  · exact h.insert (insertJob_jobs hinsert)

theorem waiting_step (hids : (s.db.jobs.map Job.id).Nodup) (h : Waiting key s.db)
    (hop : t.op.closesQueued = false)
    (hclaim : startsKey key s t = false) : Waiting key (step s t).db := by
  obtain ⟨now, op⟩ := t
  cases op with
  | claimJob w queues lease locked =>
    rcases claimJob_cases now w queues lease locked s.db with
      ⟨-, hnone⟩ | ⟨candidate, hcandidate, hjobs, hclaimed⟩
    · simpa only [step, hnone, logClaim] using h
    have hother : key.isActive candidate = false := by
      simp only [startsKey, hclaimed, Option.any_some] at hclaim
      rw [Bool.eq_false_iff] at hclaim ⊢
      intro hactive
      refine hclaim (isActive_iff.2 ?_)
      obtain ⟨haccount, hkind, hdedupe, -⟩ := isActive_iff.1 hactive
      exact ⟨haccount, hkind, hdedupe, rfl⟩
    have hafter : (step s ⟨now, .claimJob w queues lease locked⟩).db.jobs =
        updateWhere (fun j => decide (j.id = candidate.id)) (claimRow now w lease) s.db.jobs := by
      simpa only [step, logClaim, hclaimed] using hjobs
    -- The waiting job is not the claimed one.
    obtain ⟨job, hjob, hactive, hstatus⟩ := h
    refine ⟨job, ?_, hactive, hstatus⟩
    rw [hafter]
    refine mem_updateWhere.2 ⟨job, hjob, ?_⟩
    rw [if_neg]
    intro hid
    have hsame := row_unique Job.id hids hjob (claimCandidate_some hcandidate).1
      (of_decide_eq_true hid)
    rw [hsame, hother] at hactive
    cases hactive
  | enqueueJob ctx req =>
    simp only [step]
    cases henqueue : enqueueJob { ctx with now := now } req s.db with
    | error e => exact h
    | ok result => exact waiting_enqueueJob h henqueue
  | wakeQueued id d p => exact h.wakeQueued _ _ _ _
  | raisePriority id p => exact h.raisePriority _ _ _
  | insertJob id account req =>
    simp only [step]
    cases hinsert : insertJob now id account req s.db with
    | none => exact h
    | some result => exact h.insert (insertJob_jobs hinsert)
  | renewHeartbeat w current lease =>
    cases current with
    | none => exact h
    | some id =>
      refine h.updateWhere rfl fun job howned _ hstatus => ?_
      rw [(ownedBy_iff.1 howned).2.1] at hstatus
      cases hstatus
  | completeJob id w | cancelClaimedJob id w => exact h.updateOwned _ _ _ _
  | failJob =>
    simp only [step, failJob]
    split
    · exact h.updateOwned _ _ _ _
    · exact h.updateOwned _ _ _ _
  | cancelUserJobs userId | completeGoogleTokenRevocationsForSubject
  | completeGoogleTokenRevocationJob id => cases hop

theorem allQueued_step (hids : (s.db.jobs.map Job.id).Nodup) (h : AllQueued key s.db)
    (hclaim : startsKey key s t = false) : AllQueued key (step s t).db := by
  by_cases hop : ∃ w queues lease locked, t.op = .claimJob w queues lease locked
  · obtain ⟨w, queues, lease, locked, hop⟩ := hop
    rcases step_claim s t hop with ⟨-, hnone⟩ | ⟨candidate, hcandidate, hclaims, hjobs⟩
    · rwa [hnone]
    intro job hjob hactive
    rw [hjobs] at hjob
    rcases mem_claimed hids (claimCandidate_some hcandidate).1 hjob with rfl | ⟨hold, -⟩
    · rcases claimJob_cases t.now w queues lease locked s.db with
        ⟨hnone, -⟩ | ⟨other, hother, -, hclaimed⟩
      · rw [hcandidate] at hnone
        cases hnone
      · rw [hcandidate] at hother
        cases hother
        simp only [startsKey, hop, hclaimed, Option.any_some, hactive] at hclaim
        cases hclaim
    · exact h job hold hactive
  · refine h.effects (step_effects s t ?_).2
    intro w queues lease locked heq
    exact hop ⟨w, queues, lease, locked, heq⟩

theorem nodup_step (hids : (s.db.jobs.map Job.id).Nodup) :
    ((step s t).db.jobs.map Job.id).Nodup := by
  by_cases hop : ∃ w queues lease locked, t.op = .claimJob w queues lease locked
  · obtain ⟨w, queues, lease, locked, hop⟩ := hop
    rcases step_claim s t hop with ⟨-, hnone⟩ | ⟨candidate, -, -, hjobs⟩
    · rwa [hnone]
    · rw [hjobs]
      exact nodup_claimed candidate hids
  · refine (step_effects s t ?_).2.nodup hids
    intro w queues lease locked heq
    exact hop ⟨w, queues, lease, locked, heq⟩

end Transactions

/-! ## The invariant -/

def Producer.Ok (key : CoalescingKey) (db : Db) (started : Bool) : Producer → Prop
  | .selected ctx req existing =>
    RequestOnKey key ctx req ∧
      (started = true ∨
        match existing with
        | some _ => Waiting key db
        | none => AllQueued key db)
  | .conflicted ctx req => RequestOnKey key ctx req ∧ (started = true ∨ AllQueued key db)
  | .returned _ => started = true ∨ Waiting key db
  | _ => True

structure WakeOk (key : CoalescingKey) (s : WakeSystem) : Prop where
  ids : (s.queue.db.jobs.map Job.id).Nodup
  producers : ∀ i, (s.producers i).Ok key s.queue.db (s.started i)

variable {p : Producer}

section Invariant

variable {key : CoalescingKey} {s : WakeSystem} {db after : Db}

theorem wakeOk_initial : WakeOk key WakeSystem.initial where
  ids := List.nodup_nil
  producers _ := trivial

theorem Producer.Ok.mono {started : Bool} (h : p.Ok key db started)
    (hwaiting : Waiting key db → Waiting key after)
    (hqueued : AllQueued key db → AllQueued key after) : p.Ok key after started := by
  cases p with
  | selected ctx req existing =>
    refine ⟨h.1, h.2.imp_right ?_⟩
    cases existing with
    | none => exact hqueued
    | some job => exact hwaiting
  | conflicted => exact ⟨h.1, h.2.imp_right hqueued⟩
  | returned job => exact h.imp_right hwaiting
  | idle | committed | raised => trivial

theorem Producer.Ok.started {started : Bool} (h : p.Ok key db started) : p.Ok key after true := by
  cases p with
  | selected | conflicted => exact ⟨h.1, Or.inl rfl⟩
  | returned job => exact Or.inl rfl
  | idle | committed | raised => trivial

theorem selectActive_eq_some
    (h : selectActive key.account key.kind (some key.dedupeKey) db = some job) :
    job ∈ db.jobs ∧ key.isActive job = true :=
  List.mem_filter.1 (selectFirst_mem h)

theorem allQueued_of_selectActive
    (h : selectActive key.account key.kind (some key.dedupeKey) db = none) : AllQueued key db := by
  intro job hjob hactive
  have hnone := List.filter_eq_nil_iff.1 (selectFirst_eq_none.1 h) job hjob
  exact absurd hactive hnone

theorem RequestOnKey.existing (h : RequestOnKey key ctx req) :
    (if Text.truthy req.dedupeKey then
        selectActive (resolvedGmailAccountId ctx req) req.kind req.dedupeKey db
      else none) = selectActive key.account key.kind (some key.dedupeKey) db := by
  have htruthy : Text.truthy (some key.dedupeKey) = true := by simp [Text.truthy, h.truthy]
  rw [h.dedupeKey, h.kind, h.account, if_pos htruthy]

/-- A `SELECT` that finds no running job leaves the producer with a queued job or with none. -/
theorem select_ok {started : Bool} (hrequest : RequestOnKey key ctx req)
    (hnone : ∀ job, selectActive key.account key.kind (some key.dedupeKey) db = some job →
      job.status = .queued) : (select ctx req db).Ok key db started := by
  unfold select
  split
  · trivial
  rw [hrequest.existing]
  dsimp only
  cases hexisting : selectActive key.account key.kind (some key.dedupeKey) db with
  | none => exact ⟨hrequest, Or.inr (allQueued_of_selectActive hexisting)⟩
  | some job =>
    obtain ⟨hjob, hactive⟩ := selectActive_eq_some hexisting
    have hwaiting : Waiting key db := ⟨job, hjob, hactive, hnone job hexisting⟩
    dsimp only
    split
    · exact ⟨hrequest, Or.inr hwaiting⟩
    · exact Or.inr hwaiting

theorem returnedRow_ok {id : String} {started : Bool} (h : started = true ∨ Waiting key db) :
    (returnedRow id db).Ok key db started := by
  unfold returnedRow
  split
  · trivial
  · exact h

structure Written (key : CoalescingKey) (db after : Db) : Prop where
  ids : (db.jobs.map Job.id).Nodup → (after.jobs.map Job.id).Nodup
  waiting : Waiting key db → Waiting key after
  queued : AllQueued key db → AllQueued key after

theorem Written.refl (key : CoalescingKey) (db : Db) : Written key db db := ⟨id, id, id⟩

theorem Written.event (key : CoalescingKey) (event : JobEvent) (db : Db) :
    Written key db (insertEvent event db) := ⟨id, id, id⟩

theorem written_wake (key : CoalescingKey) (db : Db) (now : Timestamp) (id : String) (d p : Int) :
    Written key db (wakeQueued now id d p db) where
  ids hids := by
    rwa [wakeQueued_jobs, map_updateWhere]
    intro job _ _
    rfl
  waiting h := h.wakeQueued now id d p
  queued h := by
    intro job hjob hactive
    rw [wakeQueued_jobs] at hjob
    obtain ⟨old, hold, rfl⟩ := mem_updateWhere.1 hjob
    split
    · next hid =>
      rw [if_pos hid] at hactive
      exact h old hold hactive
    · next hid =>
      rw [if_neg hid] at hactive
      exact h old hold hactive

theorem written_raise (key : CoalescingKey) (db : Db) (now : Timestamp) (id : String) (p : Int) :
    Written key db (raisePriority now id p db) where
  ids hids := by
    rwa [raisePriority, map_updateWhere]
    intro job _ _
    rfl
  waiting h := h.raisePriority now id p
  queued h := by
    intro job hjob hactive
    obtain ⟨old, hold, rfl⟩ := mem_updateWhere.1 hjob
    split
    · next hid =>
      rw [if_pos hid] at hactive
      exact h old hold hactive
    · next hid =>
      rw [if_neg hid] at hactive
      exact h old hold hactive

theorem write_ok {existing : Option Job}
    {started : Bool} (h : (Producer.selected ctx req existing).Ok key db started) :
    Written key db (write ctx req existing db).1 ∧
      (write ctx req existing db).2.Ok key (write ctx req existing db).1 started := by
  obtain ⟨hrequest, h⟩ := h
  cases existing with
  | some job =>
    unfold write
    dsimp only
    split
    · have hwritten := written_wake key db ctx.now job.id (max 0 req.runAfterSeconds) req.priority
      exact ⟨hwritten, returnedRow_ok (h.imp_right hwritten.waiting)⟩
    · have hwritten := written_raise key db ctx.now job.id req.priority
      exact ⟨hwritten, returnedRow_ok (h.imp_right hwritten.waiting)⟩
  | none =>
    unfold write
    dsimp only
    split
    · exact ⟨Written.refl key db, hrequest, h⟩
    case isFalse hfree =>
      have hids : ∀ job ∈ db.jobs,
          job.id = (newJob ctx.now ctx.jobId (resolvedGmailAccountId ctx req) req).id →
          conflictsWith (newJob ctx.now ctx.jobId (resolvedGmailAccountId ctx req) req) job =
            true := by
        intro job _ hid
        simp [conflictsWith, hid]
      refine ⟨⟨fun hnodup => nodup_insertUnlessConflict hnodup hids, fun hw => hw.insert rfl,
        fun hq => hq.insert rfl rfl⟩, Or.inr ?_⟩
      refine ⟨newJob ctx.now ctx.jobId (resolvedGmailAccountId ctx req) req, ?_, ?_, rfl⟩
      · rw [insertEvent_jobs]
        dsimp only
        rw [insertUnlessConflict, if_neg hfree]
        exact List.mem_append_right _ (List.mem_singleton_self _)
      · exact isActive_iff.2 ⟨hrequest.account, hrequest.kind, hrequest.dedupeKey, rfl⟩

/-- The job that set the `INSERT` against itself is queued still, or an attempt has started. -/
theorem reselect_ok {started : Bool} (h : (Producer.conflicted ctx req).Ok key db started) :
    Written key db (reselect ctx req db).1 ∧
      (reselect ctx req db).2.Ok key (reselect ctx req db).1 started := by
  obtain ⟨hrequest, h⟩ := h
  unfold reselect
  rw [hrequest.existing]
  dsimp only
  cases hexisting : selectActive key.account key.kind (some key.dedupeKey) db with
  | none => exact ⟨Written.refl key db, trivial⟩
  | some job =>
    obtain ⟨hjob, hactive⟩ := selectActive_eq_some hexisting
    exact ⟨Written.event key _ db,
      h.imp_right fun hqueued => ⟨job, hjob, hactive, hqueued job hjob hactive⟩⟩

theorem WakeOk.wrote (hs : WakeOk key s) (i : Nat) (result : Db × Producer)
    (hwritten : Written key s.queue.db result.1)
    (hproducer : result.2.Ok key result.1 (s.started i)) : WakeOk key (s.wrote i result) where
  ids := hwritten.ids hs.ids
  producers := by
    intro j
    by_cases hji : j = i
    · subst hji
      show Producer.Ok key result.1 (s.started j) (Function.update s.producers j result.2 j)
      rwa [Function.update_self]
    · show Producer.Ok key result.1 (s.started j) (Function.update s.producers i result.2 j)
      rw [Function.update_of_ne hji]
      exact (hs.producers j).mono hwritten.waiting hwritten.queued

theorem WakeOk.goto (hs : WakeOk key s) (i : Nat)
    (hproducer : p.Ok key s.queue.db (s.started i)) : WakeOk key (s.goto i p) :=
  hs.wrote i (s.queue.db, p) (Written.refl key s.queue.db) hproducer

/-- **Every step** keeps what the producers rely on. -/
theorem wakeOk_step (hs : WakeOk key s) {l : WakeLabel} (hl : OnKey key s l)
    (hnone : FindsNoneRunning key s l) : WakeOk key (wakeStep key s l) := by
  cases l with
  | commit i =>
    simp only [wakeStep]
    split
    · refine ⟨hs.ids, fun j => ?_⟩
      by_cases hji : j = i
      · subst hji
        show Producer.Ok key s.queue.db _ (Function.update s.producers j .committed j)
        rw [Function.update_self]
        trivial
      · show Producer.Ok key s.queue.db (Function.update s.started i false j)
          (Function.update s.producers i .committed j)
        rw [Function.update_of_ne hji, Function.update_of_ne hji]
        exact hs.producers j
    · exact hs
  | select i =>
    simp only [wakeStep]
    split
    · exact hs.goto i (select_ok hl hnone)
    · exact hs
  | write i =>
    simp only [wakeStep]
    split
    · case h_1 ctx req existing hproducer =>
        have hok := hs.producers i
        rw [hproducer] at hok
        obtain ⟨hwritten, hnext⟩ := write_ok hok
        exact hs.wrote i _ hwritten hnext
    · exact hs
  | reselect i =>
    simp only [wakeStep]
    split
    · case h_1 ctx req hproducer =>
        have hok := hs.producers i
        rw [hproducer] at hok
        obtain ⟨hwritten, hnext⟩ := reselect_ok hok
        exact hs.wrote i _ hwritten hnext
    · exact hs
  | transaction t =>
    refine ⟨nodup_step hs.ids, fun i => ?_⟩
    by_cases hclaim : startsKey key s.queue t = true
    · simp only [wakeStep, hclaim, if_true]
      exact (hs.producers i).started
    · have hno := Bool.eq_false_iff.2 hclaim
      simp only [wakeStep, hno, Bool.false_eq_true, if_false]
      exact (hs.producers i).mono (fun h => waiting_step hs.ids h hl hno)
        fun h => allQueued_step hs.ids h hno

theorem WakeOk.sound (hs : WakeOk key s) : NoLostWakeUp key s where
  started hidle i job hreturned := by
    have hok := hs.producers i
    rw [hreturned] at hok
    refine hok.resolve_right ?_
    rintro ⟨other, hother, hactive, -⟩
    rw [hidle other hother] at hactive
    cases hactive
  queued i job hreturned := by
    have hok := hs.producers i
    rwa [hreturned] at hok

end Invariant

/-- **No lost wake-up**, in every interleaving in which no producer finds a running job. -/
theorem noLostWakeUp (key : CoalescingKey) (labels : List WakeLabel)
    (hlabels : Along (wakeStep key) (OnKey key) WakeSystem.initial labels)
    (hnone : Along (wakeStep key) (FindsNoneRunning key) WakeSystem.initial labels) :
    Throughout (wakeStep key) (NoLostWakeUp key) WakeSystem.initial labels := by
  apply Throughout.mono fun _ => WakeOk.sound
  exact throughout_of_step (fun _ _ hs h => wakeOk_step hs h.1 h.2) wakeOk_initial
    (hlabels.and hnone)

/-! ## Runs -/

def syncKey : CoalescingKey :=
  ⟨some "account-1", "gmail_delta_sync", "gmail-post-write-sync:user-1:account-1"⟩

def syncRequest : EnqueueRequest where
  kind := "gmail_delta_sync"
  queue := "critical"
  userId := some "user-1"
  gmailAccountId := some "account-1"
  dedupeKey := some "gmail-post-write-sync:user-1:account-1"
  priority := 80

def syncContext (jobId : String) : EnqueueContext := ⟨0, jobId, none, true⟩

theorem syncRequest_onKey (jobId : String) :
    RequestOnKey syncKey (syncContext jobId) syncRequest where
  truthy := by decide
  kind := rfl
  dedupeKey := rfl
  account := rfl

def claimedRun : List WakeLabel :=
  [.commit 0, .select 0 (syncContext "job-1") syncRequest, .write 0,
    .transaction ⟨1, .claimJob "worker-1" ["critical"] 300 []⟩]

/-- A second write is committed while that job runs, and the job is completed. -/
def joinedRun : List WakeLabel :=
  claimedRun ++ [.commit 1, .select 1 (syncContext "job-2") syncRequest,
    .transaction ⟨2, .completeJob "job-1" "worker-1"⟩]

/-- Nothing is queued or running, and no attempt has started after the second write. -/
theorem joinedRun_loses :
    Along (wakeStep syncKey) (OnKey syncKey) WakeSystem.initial joinedRun ∧
      ¬Throughout (wakeStep syncKey) (NoLostWakeUp syncKey) WakeSystem.initial joinedRun := by
  refine ⟨⟨trivial, syncRequest_onKey _, trivial, rfl, trivial, syncRequest_onKey _, rfl, trivial⟩,
    ?_⟩
  intro h
  have hreturned : ∃ job, (after (wakeStep syncKey) WakeSystem.initial joinedRun).producers 1 =
      .returned job := ⟨_, rfl⟩
  obtain ⟨job, hjob⟩ := hreturned
  have hidle : ∀ job ∈ (after (wakeStep syncKey) WakeSystem.initial joinedRun).queue.db.jobs,
      syncKey.isActive job = false := by decide
  exact absurd (h.last.started hidle 1 job hjob) (by decide)

def wokenRun : List WakeLabel :=
  [.commit 0, .select 0 (syncContext "job-1") syncRequest, .write 0, .commit 1,
    .select 1 (syncContext "job-2") syncRequest,
    .transaction ⟨1, .claimJob "worker-1" ["critical"] 300 []⟩, .write 1,
    .transaction ⟨2, .completeJob "job-1" "worker-1"⟩]

theorem noLostWakeUp_wokenRun :
    (after (wakeStep syncKey) WakeSystem.initial wokenRun).started 1 = true ∧
      Throughout (wakeStep syncKey) (NoLostWakeUp syncKey) WakeSystem.initial wokenRun := by
  refine ⟨by decide, noLostWakeUp syncKey wokenRun ?_ ?_⟩
  · exact ⟨trivial, syncRequest_onKey _, trivial, trivial, syncRequest_onKey _, rfl, trivial, rfl,
      trivial⟩
  · refine ⟨trivial, fun _ h => (nomatch h), trivial, trivial, ?_, trivial, trivial, trivial, trivial⟩
    rintro job ⟨⟩
    rfl

end ElectronicMail.Jobs
