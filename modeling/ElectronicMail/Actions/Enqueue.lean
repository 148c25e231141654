import ElectronicMail.Actions.Record
import ElectronicMail.Jobs.Runs

/-!
# Accepting a mailbox action

`enqueue_thread_action` inserts the row of the action, changes the labels of the
stored messages and enqueues the job in three transactions, and answers a replay
of the same `client_action_id` from the stored row. `acceptStep` lets any number of
executions take these steps in any order, stop at any point and interleave with
the worker: its claims, renewals and retries of jobs, and its marks on the row.

An execution that stops between the insert and `enqueue_job` leaves a row without
a job, and the next replay accepts the action all the same (`lostActionRun`).
`acceptedAction_iff` shows that nothing else goes wrong: every accepted response
has an active job if and only if no replay finds an open row before the execution
that inserted it has committed the job (`ReplaysAfterEnqueue`).
-/

namespace ElectronicMail.Actions

open Foundations
open Foundations.Table
open Jobs (Db Job QueueState Transaction EnqueueRequest EnqueueContext)

/-! ## The job of an action -/

def gmailThreadAction : String := "gmail_thread_action"

def actionDedupeKey (userId serverActionId : String) : String :=
  "gmail-thread-action:" ++ userId ++ ":" ++ serverActionId

/-- The arguments of `enqueue_job` in `enqueue_thread_action`. -/
def actionJobRequest (userId : String) (record : PendingThreadAction) : EnqueueRequest where
  kind := gmailThreadAction
  queue := "default"
  userId := some userId
  dedupeKey := some (actionDedupeKey userId record.serverActionId)
  priority := 70
  payload := [("user_id", userId), ("server_action_id", record.serverActionId)]

def isActionJob (serverActionId : String) (j : Job) : Prop :=
  j.kind = gmailThreadAction ∧ Jobs.payloadText j "server_action_id" = some serverActionId

def HasActiveJob (db : Db) (serverActionId : String) : Prop :=
  ∃ j ∈ db.jobs, isActionJob serverActionId j ∧ j.status.isActive = true

/-- No job mentions the action, as for a fresh `uuid4`. -/
def isFreshAction (userId serverActionId : String) (db : Db) : Bool :=
  db.jobs.all fun j =>
    decide (Jobs.payloadText j "server_action_id" ≠ some serverActionId) &&
      decide (j.dedupeKey ≠ some (actionDedupeKey userId serverActionId))

/-! ## Executions -/

/-- Where an execution of `enqueue_thread_action` stands. -/
inductive EnqueuePhase where
  | idle
  | upserting (request : ActionRequest) (resolved : List StoredMessage)
  | applyingLocally (record : PendingThreadAction) (resolved : List StoredMessage)
  | enqueueing (record : PendingThreadAction)
  | announcing (record : PendingThreadAction)
  | returned (response : ActionResponse)
  | raised

/-- The row of one `client_action_id`, the stored messages, the queue and the
executions. `creator` is the execution that inserted the row and `jobCommitted`
says that it has committed `enqueue_job`. -/
structure ActionSystem where
  row : Option PendingThreadAction
  messages : List StoredMessage
  queue : QueueState
  phase : Nat → EnqueuePhase
  creator : Option Nat
  jobCommitted : Bool

/-- Before the first request with the `client_action_id`. -/
def ActionSystem.initial (messages : List StoredMessage) (queue : QueueState) : ActionSystem :=
  ⟨none, messages, queue, fun _ => .idle, none, false⟩

inductive AcceptStep where
  | start (exec : Nat) (request : ActionRequest) (resolved : List StoredMessage)
  | upsert (exec : Nat) (serverActionId : String)
  | applyLocal (exec : Nat)
  | enqueueJob (exec : Nat) (ctx : EnqueueContext)
  | announce (exec : Nat)
  | stop (exec : Nat)
  | worker (t : Transaction)
  | mark (state : ActionState) (error : Option String)

/-- The transactions with which a worker takes, keeps and retries a job. -/
def isWorkerProgress : Jobs.Op → Bool
  | .claimJob _ _ _ _ => true
  | .renewHeartbeat _ _ _ => true
  | .failJob job _ _ _ => !Jobs.isFinalAttempt job
  | _ => false

/-- Execution `i` goes on at `ph`. -/
def ActionSystem.goto (s : ActionSystem) (i : Nat) (ph : EnqueuePhase) : ActionSystem :=
  { s with phase := Function.update s.phase i ph }

section Step

variable (userId clientActionId : String) (instant : String → Option Int) (upper : String → String)

/-- `upsert_pending_thread_action` and the branch on `created`. -/
def upsertAction (s : ActionSystem) (i : Nat) (serverActionId : String) (request : ActionRequest)
    (resolved : List StoredMessage) : ActionSystem :=
  match s.row with
  | none =>
    if isFreshAction userId serverActionId s.queue.db then
      let record := newAction serverActionId request (labelsOf resolved)
      let next := if record.action = .deleteForever then EnqueuePhase.enqueueing record
        else .applyingLocally record resolved
      { s.goto i next with row := some record, creator := some i }
    else s
  | some row =>
    if actionRequestMatches instant row request then
      s.goto i (.returned (responseFromRecord row))
    else s.goto i .raised

def acceptStep (s : ActionSystem) : AcceptStep → ActionSystem
  | .start i request resolved =>
    match s.phase i with
    | .idle =>
      if request.clientActionId = clientActionId then
        s.goto i (.upserting request (if request.action = .deleteForever then [] else resolved))
      else s
    | _ => s
  | .upsert i serverActionId =>
    match s.phase i with
    | .upserting request resolved =>
      upsertAction userId instant s i serverActionId request resolved
    | _ => s
  | .applyLocal i =>
    match s.phase i with
    | .applyingLocally record resolved =>
      { s.goto i (.enqueueing record) with
        messages := applyLocalAction upper record.action resolved s.messages }
    | _ => s
  | .enqueueJob i ctx =>
    match s.phase i with
    | .enqueueing record =>
      match Jobs.enqueueJob ctx (actionJobRequest userId record) s.queue.db with
      | .ok (db, _) =>
        { s.goto i (.announcing record) with
          queue := { s.queue with db := db }, jobCommitted := true }
      | .error _ => s.goto i .raised
    | _ => s
  | .announce i =>
    match s.phase i with
    | .announcing record => s.goto i (.returned (responseFromRecord record))
    | _ => s
  | .stop i =>
    match s.phase i with
    | .returned _ => s
    | _ => s.goto i .raised
  | .worker t =>
    if isWorkerProgress t.op then { s with queue := Jobs.step s.queue t } else s
  | .mark state error =>
    { s with row := s.row.map (updatePendingThreadActionState state error) }

end Step

@[simp] theorem action_goto_phase_self (s : ActionSystem) (i : Nat) (ph : EnqueuePhase) :
    (s.goto i ph).phase i = ph := by
  show Function.update s.phase i ph i = ph
  exact Function.update_self i ph s.phase

variable {i : Nat}

theorem action_goto_phase_of_ne (s : ActionSystem) {j : Nat} (ph : EnqueuePhase) (h : j ≠ i) :
    (s.goto i ph).phase j = s.phase j := by
  show Function.update s.phase i ph j = s.phase j
  exact Function.update_of_ne h ph s.phase

/-! ## The property and its condition -/

def ActionState.isOpen : ActionState → Bool
  | .queued => true
  | .applying => true
  | _ => false

def AcceptedHaveJob (s : ActionSystem) : Prop :=
  ∀ i response, s.phase i = .returned response → response.state.isOpen = true →
    HasActiveJob s.queue.db response.serverActionId

/-- A replay is answered from an open row only once the job is committed. -/
def ReplaysAfterEnqueue (instant : String → Option Int) (s : ActionSystem)
    (t : AcceptStep) : Prop :=
  ∀ i serverActionId request resolved row, t = .upsert i serverActionId →
    s.phase i = .upserting request resolved → s.row = some row → row.state.isOpen = true →
    actionRequestMatches instant row request = true → s.jobCommitted = true

/-! ## The failing run -/

def archiveRequest : ActionRequest := ⟨"c1", "t1", none, .archive, "2026-01-01T00:00:00Z"⟩

/-- The first execution stops after it has inserted the row; the client retries. -/
def lostActionRun : List AcceptStep :=
  [.start 0 archiveRequest [], .upsert 0 "a1", .stop 0, .start 1 archiveRequest [], .upsert 1 "a1"]

/-- The retry is answered with an action that has no job. -/
theorem lostActionRun_has_no_job :
    ¬ Throughout (acceptStep "u1" "c1" (fun _ => none) id) AcceptedHaveJob
      (ActionSystem.initial [] QueueState.empty) lostActionRun := by
  intro h
  obtain ⟨j, hj, -⟩ := h.last 1 (responseFromRecord (newAction "a1" archiveRequest [])) rfl rfl
  exact absurd hj List.not_mem_nil

/-! ## Worker transactions -/

/-- A worker that takes, keeps or retries jobs changes neither what a job is for
nor that it is active. -/
theorem step_of_isWorkerProgress (q : QueueState) (t : Transaction)
    (h : isWorkerProgress t.op = true) :
    ∃ (p : Job → Bool) (f : Job → Job), (Jobs.step q t).db.jobs = updateWhere p f q.db.jobs ∧
      ∀ j, (f j).kind = j.kind ∧ (f j).payload = j.payload ∧ (f j).dedupeKey = j.dedupeKey ∧
        (p j = true → (f j).status.isActive = true) := by
  have hnone : ∃ (p : Job → Bool) (f : Job → Job), q.db.jobs = updateWhere p f q.db.jobs ∧
      ∀ j, (f j).kind = j.kind ∧ (f j).payload = j.payload ∧ (f j).dedupeKey = j.dedupeKey ∧
        (p j = true → (f j).status.isActive = true) :=
    ⟨fun _ => false, id, (updateWhere_eq_self fun _ _ => rfl).symm,
      fun j => ⟨rfl, rfl, rfl, fun hp => absurd hp Bool.false_ne_true⟩⟩
  obtain ⟨now, op⟩ := t
  cases op with
  | claimJob w queues lease locked =>
    rcases Jobs.step_claim q ⟨now, .claimJob w queues lease locked⟩ rfl with
      ⟨-, hstep⟩ | ⟨j, -, -, hjobs⟩
    · rw [hstep]
      exact hnone
    · exact ⟨_, _, hjobs, fun _ => ⟨rfl, rfl, rfl, fun _ => rfl⟩⟩
  | renewHeartbeat w current lease =>
    cases current with
    | none => exact hnone
    | some id =>
      refine ⟨Jobs.ownedBy id w, Jobs.renewRow now lease, rfl, ?_⟩
      intro j
      exact ⟨rfl, rfl, rfl, fun hown => Jobs.isActive_of_ownedBy hown⟩
  | failJob job error w delay =>
    have hfinal : ¬ Jobs.isFinalAttempt job = true := by
      intro hf
      simp [isWorkerProgress, hf] at h
    refine ⟨Jobs.ownedBy job.id w, Jobs.requeueRow now error
      (Jobs.failDelaySeconds job.attemptCount delay), ?_, fun _ => ⟨rfl, rfl, rfl, fun _ => rfl⟩⟩
    show (Jobs.failJob now job error w delay q.db).1.jobs = _
    unfold Jobs.failJob
    rw [if_neg hfinal]
    exact Jobs.updateOwned_jobs job.id w _ _ q.db
  | _ => exact absurd h Bool.false_ne_true

theorem payloadText_congr {j j' : Job} (h : j'.payload = j.payload) (key : String) :
    Jobs.payloadText j' key = Jobs.payloadText j key := by
  unfold Jobs.payloadText
  rw [h]

variable {t : Transaction} {id : String}

theorem hasActiveJob_worker {q : QueueState}
    (h : isWorkerProgress t.op = true) (hjob : HasActiveJob q.db id) :
    HasActiveJob (Jobs.step q t).db id := by
  obtain ⟨p, f, hjobs, hf⟩ := step_of_isWorkerProgress q t h
  obtain ⟨j, hj, ⟨hkind, hpayload⟩, hactive⟩ := hjob
  obtain ⟨hk, hp, -, ha⟩ := hf j
  refine ⟨if p j then f j else j, hjobs ▸ mem_updateWhere.2 ⟨j, hj, rfl⟩, ?_⟩
  by_cases hpj : p j = true
  · rw [if_pos hpj]
    exact ⟨⟨hk.trans hkind, (payloadText_congr hp _).trans hpayload⟩, ha hpj⟩
  · rw [if_neg hpj]
    exact ⟨⟨hkind, hpayload⟩, hactive⟩

variable {db : Db}

variable {userId : String}

theorem isFreshAction_iff : isFreshAction userId id db = true ↔
      ∀ j ∈ db.jobs, Jobs.payloadText j "server_action_id" ≠ some id ∧
        j.dedupeKey ≠ some (actionDedupeKey userId id) := by
  unfold isFreshAction
  rw [List.all_eq_true]
  simp only [Bool.and_eq_true, decide_eq_true_eq]

theorem isFreshAction_worker {q : QueueState} (h : isWorkerProgress t.op = true)
    (hfresh : isFreshAction userId id q.db = true) :
    isFreshAction userId id (Jobs.step q t).db = true := by
  obtain ⟨p, f, hjobs, hf⟩ := step_of_isWorkerProgress q t h
  rw [isFreshAction_iff] at hfresh ⊢
  intro j' hj'
  rw [hjobs] at hj'
  obtain ⟨j, hj, rfl⟩ := mem_updateWhere.1 hj'
  obtain ⟨-, hp, hd, -⟩ := hf j
  by_cases hpj : p j = true
  · rw [if_pos hpj, payloadText_congr hp, hd]
    exact hfresh j hj
  · rw [if_neg hpj]
    exact hfresh j hj

theorem not_hasActiveJob_of_isFreshAction (h : isFreshAction userId id db = true) :
    ¬ HasActiveJob db id := by
  rintro ⟨j, hj, ⟨-, hpayload⟩, -⟩
  exact (isFreshAction_iff.1 h j hj).1 hpayload

variable {record : PendingThreadAction}

theorem hasActiveJob_enqueueJob {ctx : EnqueueContext} {db' : Db} {job : Job}
    (hfresh : isFreshAction userId record.serverActionId db = true)
    (h : Jobs.enqueueJob ctx (actionJobRequest userId record) db = .ok (db', job)) :
    HasActiveJob db' record.serverActionId := by
  -- No row has the dedupe key, so neither `SELECT` of `enqueue_job` finds one.
  have hselect : ∀ account, Jobs.selectActive account gmailThreadAction
      (some (actionDedupeKey userId record.serverActionId)) db = none := by
    intro account
    unfold Jobs.selectActive
    rw [selectFirst_eq_none, List.filter_eq_nil_iff]
    intro j hj hsame
    have hkey := (isFreshAction_iff.1 hfresh j hj).2
    simp [Jobs.sameActive] at hsame
    exact hkey hsame.1.2
  simp only [Jobs.enqueueJob] at h
  split at h
  · cases h
  have hexisting : (if Text.truthy (actionJobRequest userId record).dedupeKey = true then
      Jobs.selectActive (Jobs.resolvedGmailAccountId ctx (actionJobRequest userId record))
        (actionJobRequest userId record).kind (actionJobRequest userId record).dedupeKey db
      else none) = none := by
    split
    · exact hselect _
    · rfl
  rw [hexisting] at h
  dsimp only at h
  cases hins : Jobs.insertJob ctx.now ctx.jobId
      (Jobs.resolvedGmailAccountId ctx (actionJobRequest userId record))
      (actionJobRequest userId record) db with
  | none =>
    rw [hins] at h
    cases h
  | some result =>
    rw [hins] at h
    cases h
    simp only [Jobs.insertJob] at hins
    split at hins
    · have hnone : (if Text.truthy (actionJobRequest userId record).dedupeKey = true then
          Jobs.selectActive (Jobs.resolvedGmailAccountId ctx (actionJobRequest userId record))
            (actionJobRequest userId record).kind
            (actionJobRequest userId record).dedupeKey db else none) = none := hexisting
      rw [hnone] at hins
      cases hins
    · rename_i hconflict
      simp only [Option.map_some, Option.some.injEq, Prod.mk.injEq] at hins
      obtain ⟨rfl, -⟩ := hins
      refine ⟨Jobs.newJob ctx.now ctx.jobId
        (Jobs.resolvedGmailAccountId ctx (actionJobRequest userId record))
        (actionJobRequest userId record), ?_, ⟨rfl, ?_⟩, rfl⟩
      · rw [Jobs.insertEvent_jobs]
        unfold insertUnlessConflict
        rw [if_neg hconflict]
        exact List.mem_append_right _ (List.mem_singleton_self _)
      · simp [Jobs.payloadText, Jobs.newJob, actionJobRequest]

/-! ## The invariant -/

def IsRowOf (s : ActionSystem) (serverActionId : String) : Prop :=
  ∃ row, s.row = some row ∧ row.serverActionId = serverActionId

def PhaseOk (s : ActionSystem) (i : Nat) : EnqueuePhase → Prop
  | .applyingLocally record _ =>
    s.creator = some i ∧ s.jobCommitted = false ∧ IsRowOf s record.serverActionId
  | .enqueueing record =>
    s.creator = some i ∧ s.jobCommitted = false ∧ IsRowOf s record.serverActionId
  | .announcing record => s.jobCommitted = true ∧ IsRowOf s record.serverActionId
  | .returned response =>
    response.state.isOpen = true → s.jobCommitted = true ∧ IsRowOf s response.serverActionId
  | _ => True

structure AcceptInv (userId : String) (s : ActionSystem) : Prop where
  phases : ∀ i, PhaseOk s i (s.phase i)
  noRow : s.row = none → s.jobCommitted = false
  fresh : ∀ row, s.row = some row → s.jobCommitted = false →
    isFreshAction userId row.serverActionId s.queue.db = true
  committed : ∀ row, s.row = some row → s.jobCommitted = true →
    HasActiveJob s.queue.db row.serverActionId

theorem acceptInv_initial (userId : String) (messages : List StoredMessage) (queue : QueueState) :
    AcceptInv userId (ActionSystem.initial messages queue) := by
  refine ⟨fun _ => trivial, fun _ => rfl, ?_, ?_⟩
  · intro row hrow
    cases hrow
  · intro row hrow
    cases hrow

variable {s : ActionSystem}

theorem AcceptInv.acceptedHaveJob (hs : AcceptInv userId s) : AcceptedHaveJob s := by
  intro i response hph hopen
  have hok := hs.phases i
  rw [hph] at hok
  obtain ⟨hcommitted, row, hrow, hid⟩ := hok hopen
  rw [← hid]
  exact hs.committed row hrow hcommitted

variable {ph : EnqueuePhase}

theorem phaseOk_congr (s s' : ActionSystem) (hcreator : s'.creator = s.creator)
    (hcommitted : s'.jobCommitted = s.jobCommitted) (hrow : ∀ id, IsRowOf s id → IsRowOf s' id)
    (h : PhaseOk s i ph) : PhaseOk s' i ph := by
  cases ph with
  | applyingLocally | enqueueing => exact ⟨hcreator.trans h.1, hcommitted.trans h.2.1, hrow _ h.2.2⟩
  | announcing => exact ⟨hcommitted.trans h.1, hrow _ h.2⟩
  | returned =>
    intro hopen
    exact ⟨hcommitted.trans (h hopen).1, hrow _ (h hopen).2⟩
  | _ => trivial

theorem phaseOk_of_row_none (hrow : s.row = none) (h : PhaseOk s i ph) (s' : ActionSystem) :
    PhaseOk s' i ph := by
  have hno : ∀ id, ¬ IsRowOf s id := by
    rintro id ⟨row, hsome, -⟩
    rw [hrow] at hsome
    cases hsome
  cases ph with
  | applyingLocally | enqueueing => exact (hno _ h.2.2).elim
  | announcing => exact (hno _ h.2).elim
  | returned =>
    intro hopen
    exact (hno _ (h hopen).2).elim
  | _ => trivial

/-- While execution `i` is creating the row, no other execution has got anywhere. -/
theorem phaseOk_of_creating {j : Nat} (hcreator : s.creator = some i)
    (hcommitted : s.jobCommitted = false) (hji : j ≠ i) (h : PhaseOk s j ph) (s' : ActionSystem) :
    PhaseOk s' j ph := by
  have hother : s.creator ≠ some j := by
    intro hj
    rw [hcreator] at hj
    exact hji (Option.some.inj hj).symm
  have hnot : s.jobCommitted ≠ true := by
    rw [hcommitted]
    exact Bool.false_ne_true
  cases ph with
  | applyingLocally | enqueueing => exact (hother h.1).elim
  | announcing => exact (hnot h.1).elim
  | returned =>
    intro hopen
    exact (hnot (h hopen).1).elim
  | _ => trivial

/-! ## One lemma per kind of step -/

section Preserved

variable {userId : String} {s : ActionSystem} {i : Nat}

section

variable (hs : AcceptInv userId s)
include hs

theorem acceptInv_goto (hph : PhaseOk s i ph) : AcceptInv userId (s.goto i ph) := by
  refine ⟨?_, hs.noRow, hs.fresh, hs.committed⟩
  intro j
  apply phaseOk_congr s _ rfl rfl fun _ h => h
  by_cases hji : j = i
  · subst hji
    rw [action_goto_phase_self]
    exact hph
  · rw [action_goto_phase_of_ne s ph hji]
    exact hs.phases j

theorem acceptInv_insert (hrow : s.row = none) {next : EnqueuePhase}
    (hnext : next = .enqueueing record ∨ ∃ resolved, next = .applyingLocally record resolved)
    (hfresh : isFreshAction userId record.serverActionId s.queue.db = true) :
    AcceptInv userId { s.goto i next with row := some record, creator := some i } := by
  have hcommitted := hs.noRow hrow
  refine ⟨?_, ?_, ?_, ?_⟩
  · intro j
    by_cases hji : j = i
    · subst hji
      show PhaseOk _ j ((s.goto j next).phase j)
      rw [action_goto_phase_self]
      rcases hnext with rfl | ⟨resolved, rfl⟩
      · exact ⟨rfl, hcommitted, record, rfl, rfl⟩
      · exact ⟨rfl, hcommitted, record, rfl, rfl⟩
    · show PhaseOk _ j ((s.goto i next).phase j)
      rw [action_goto_phase_of_ne s next hji]
      exact phaseOk_of_row_none hrow (hs.phases j) _
  · intro h
    cases h
  · intro row h _
    cases h
    exact hfresh
  · intro row _ h
    exact absurd (hcommitted.symm.trans h) Bool.false_ne_true

theorem acceptInv_enqueue {ctx : EnqueueContext} {job : Job} (hph : s.phase i = .enqueueing record)
    (henq : Jobs.enqueueJob ctx (actionJobRequest userId record) s.queue.db = .ok (db, job)) :
    AcceptInv userId { s.goto i (.announcing record) with
      queue := { s.queue with db := db }, jobCommitted := true } := by
  have hok := hs.phases i
  rw [hph] at hok
  obtain ⟨hcreator, hcommitted, row, hrow, hid⟩ := hok
  refine ⟨?_, ?_, ?_, ?_⟩
  · intro j
    by_cases hji : j = i
    · subst hji
      show PhaseOk _ j ((s.goto j (.announcing record)).phase j)
      rw [action_goto_phase_self]
      exact ⟨rfl, row, hrow, hid⟩
    · show PhaseOk _ j ((s.goto i (.announcing record)).phase j)
      rw [action_goto_phase_of_ne s _ hji]
      exact phaseOk_of_creating hcreator hcommitted hji (hs.phases j) _
  · intro h
    exact absurd (hrow.symm.trans h) (by simp)
  · intro row' _ h
    cases h
  · intro row' hrow' _
    have hrows : row' = row := Option.some.inj (hrow'.symm.trans hrow)
    rw [hrows, hid]
    exact hasActiveJob_enqueueJob (hid ▸ hs.fresh row hrow hcommitted) henq

theorem acceptInv_worker (ht : isWorkerProgress t.op = true) :
    AcceptInv userId { s with queue := Jobs.step s.queue t } := by
  refine ⟨?_, hs.noRow, ?_, ?_⟩
  · intro j
    exact phaseOk_congr s _ rfl rfl (fun _ h => h) (hs.phases j)
  · intro row hrow hcommitted
    exact isFreshAction_worker ht (hs.fresh row hrow hcommitted)
  · intro row hrow hcommitted
    exact hasActiveJob_worker ht (hs.committed row hrow hcommitted)

theorem acceptInv_mark (state : ActionState) (error : Option String) :
    AcceptInv userId { s with row := s.row.map (updatePendingThreadActionState state error) } := by
  have hrows : ∀ id, IsRowOf s id →
      IsRowOf { s with row := s.row.map (updatePendingThreadActionState state error) } id := by
    rintro id ⟨row, hrow, hid⟩
    exact ⟨updatePendingThreadActionState state error row, by simp [hrow], hid⟩
  refine ⟨?_, ?_, ?_, ?_⟩
  · intro j
    exact phaseOk_congr s { s with row := s.row.map (updatePendingThreadActionState state error) }
      rfl rfl hrows (hs.phases j)
  · intro h
    exact hs.noRow (Option.map_eq_none_iff.1 h)
  · intro row h hcommitted
    obtain ⟨row₀, hrow₀, rfl⟩ := Option.map_eq_some_iff.1 h
    exact hs.fresh row₀ hrow₀ hcommitted
  · intro row h hcommitted
    obtain ⟨row₀, hrow₀, rfl⟩ := Option.map_eq_some_iff.1 h
    exact hs.committed row₀ hrow₀ hcommitted

end

variable {clientActionId : String} {instant : String → Option Int} {upper : String → String}

/-- **Every step keeps the invariant**, unless a replay is answered from an open
row whose job is not committed. -/
theorem acceptInv_step (hs : AcceptInv userId s) (t : AcceptStep)
    (hgood : ReplaysAfterEnqueue instant s t) :
    AcceptInv userId (acceptStep userId clientActionId instant upper s t) := by
  cases t with
  | start i =>
    cases hph : s.phase i with
    | idle =>
      simp only [acceptStep, hph]
      split
      · exact acceptInv_goto hs trivial
      · exact hs
    | _ => simpa only [acceptStep, hph] using hs
  | upsert i serverActionId =>
    cases hph : s.phase i with
    | upserting request resolved =>
      simp only [acceptStep, hph, upsertAction]
      cases hrow : s.row with
      | none =>
        dsimp only
        by_cases hfresh : isFreshAction userId serverActionId s.queue.db = true
        · rw [if_pos hfresh]
          apply acceptInv_insert hs hrow _ hfresh
          split
          · exact Or.inl rfl
          · exact Or.inr ⟨resolved, rfl⟩
        · rw [if_neg hfresh]
          exact hs
      | some row =>
        dsimp only
        by_cases hmatch : actionRequestMatches instant row request = true
        · rw [if_pos hmatch]
          apply acceptInv_goto hs
          intro hopen
          exact ⟨hgood i serverActionId request resolved row rfl hph hrow hopen hmatch,
            row, hrow, rfl⟩
        · rw [if_neg hmatch]
          exact acceptInv_goto hs trivial
    | _ => simpa only [acceptStep, hph] using hs
  | applyLocal i =>
    cases hph : s.phase i with
    | applyingLocally record resolved =>
      have hok := hs.phases i
      rw [hph] at hok
      simp only [acceptStep, hph]
      have hnext : AcceptInv userId (s.goto i (.enqueueing record)) := acceptInv_goto hs hok
      refine ⟨?_, hnext.noRow, hnext.fresh, hnext.committed⟩
      intro j
      exact phaseOk_congr (s.goto i (.enqueueing record)) _ rfl rfl (fun _ h => h) (hnext.phases j)
    | _ => simpa only [acceptStep, hph] using hs
  | enqueueJob i ctx =>
    cases hph : s.phase i with
    | enqueueing record =>
      cases henq : Jobs.enqueueJob ctx (actionJobRequest userId record) s.queue.db with
      | ok =>
        simp only [acceptStep, hph, henq]
        exact acceptInv_enqueue hs hph henq
      | error e =>
        simp only [acceptStep, hph, henq]
        exact acceptInv_goto hs trivial
    | _ => simpa only [acceptStep, hph] using hs
  | announce i =>
    cases hph : s.phase i with
    | announcing =>
      have hok := hs.phases i
      rw [hph] at hok
      simp only [acceptStep, hph]
      exact acceptInv_goto hs fun _ => hok
    | _ => simpa only [acceptStep, hph] using hs
  | stop i =>
    cases hph : s.phase i with
    | returned => simpa only [acceptStep, hph] using hs
    | _ =>
      simp only [acceptStep, hph]
      exact acceptInv_goto hs trivial
  | worker t =>
    by_cases ht : isWorkerProgress t.op = true
    · simp only [acceptStep, if_pos ht]
      exact acceptInv_worker hs ht
    · simpa only [acceptStep, if_neg ht] using hs
  | mark state error => exact acceptInv_mark hs state error

theorem replaysAfterEnqueue_of_acceptedHaveJob (hs : AcceptInv userId s) (t : AcceptStep)
    (hnext : AcceptedHaveJob (acceptStep userId clientActionId instant upper s t)) :
    ReplaysAfterEnqueue instant s t := by
  rintro i serverActionId request resolved row rfl hph hrow hopen hmatch
  by_contra hcommitted
  have hstep : acceptStep userId clientActionId instant upper s (.upsert i serverActionId) =
      s.goto i (.returned (responseFromRecord row)) := by
    simp only [acceptStep, hph, upsertAction, hrow, hmatch, if_true]
  rw [hstep] at hnext
  have hjob := hnext i (responseFromRecord row) (action_goto_phase_self s i _) hopen
  have hfresh := hs.fresh row hrow (Bool.eq_false_iff.2 hcommitted)
  exact not_hasActiveJob_of_isFreshAction hfresh hjob

end Preserved

/-! ## Runs -/

/-- **Accepted actions, exactly.** In every run of executions of
`enqueue_thread_action` for one `client_action_id`, with retries, stops at any
point and a worker that takes, keeps and retries jobs: every response that accepts
the action has an active job if and only if every replay that is answered from an
open row comes after the commit of the job. -/
theorem acceptedAction_iff (userId clientActionId : String) (instant : String → Option Int)
    (upper : String → String) (messages : List StoredMessage) (queue : QueueState)
    (steps : List AcceptStep) :
    Throughout (acceptStep userId clientActionId instant upper) AcceptedHaveJob
        (ActionSystem.initial messages queue) steps ↔
      Along (acceptStep userId clientActionId instant upper) (ReplaysAfterEnqueue instant)
        (ActionSystem.initial messages queue) steps := by
  have hinit := acceptInv_initial userId messages queue
  constructor
  · intro hjobs
    refine along_of_step (I := AcceptInv userId) ?_ hinit hjobs.along
    rintro s t hs ⟨-, hnext⟩
    have hgood := replaysAfterEnqueue_of_acceptedHaveJob hs t hnext
    exact ⟨hgood, acceptInv_step hs t hgood⟩
  · intro hgood
    apply Throughout.mono fun s (hs : AcceptInv userId s) => hs.acceptedHaveJob
    exact throughout_of_step (fun s t hs h => acceptInv_step hs t h) hinit hgood

end ElectronicMail.Actions
