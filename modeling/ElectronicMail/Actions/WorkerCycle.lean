import ElectronicMail.Actions.Attempt
import ElectronicMail.Actions.Enqueue

/-!
# Worker cycles and the undoing of failed actions

Any number of cycles of `_run_worker_cycle` work on the job of one action: each
claims it, runs attempts of `run_pending_thread_action` as its body, and ends by
what the body returned or raised. Between their statements come transactions of
the queue, other writers of the stored messages, and each other.

Only one of the ways to fail undoes the optimistic labels: `fail_job` on the last
attempt, followed by `rollback_failed_thread_action`. A cycle that the user-mail
guard stops cancels the job and leaves the labels (`blockedCycle_keeps_labels`),
so a failed action is not always undone (`blockedCycle_not_undone`); an action whose
job a cycle marks dead is (`deadCycles_undone`).
-/

namespace ElectronicMail.Actions

open Foundations
open Google
open Jobs (Db Job)

/-! ## The handlers of a cycle -/

/-- `gmail_is_authorization_failure`, on an exception and those it was raised from. -/
def gmailIsAuthorizationFailure (chain : List ServiceError) : Bool :=
  chain.any fun exc => isAuthStatus (externalErrorStatus exc)

/-- `job.payload.get("user_id") or job.user_id`. -/
def jobUserId (job : Job) : Option String :=
  if Text.truthy (Jobs.payloadText job "user_id") then Jobs.payloadText job "user_id"
  else job.userId

/-- `job.kind.startswith("gmail_")`. -/
def isGmailKind (kind : String) : Bool := "gmail_".toList.isPrefixOf kind.toList

/-- The handlers of `_run_worker_cycle`: the job is cancelled or fails. -/
inductive Handler where
  | cancel
  | fail

/-- The handler that catches `exc`, raised from the exceptions `context`. -/
def handlerOf (job : Job) (exc : ServiceError) (context : List ServiceError) : Handler :=
  match exc with
  | .userMailWorkBlocked => .cancel
  | .credentialsUnavailable => .cancel
  | _ =>
    if isGmailKind job.kind && gmailIsAuthorizationFailure (exc :: context) then .cancel
    else .fail

/-- The condition on the job under which a final failure is rolled back. -/
def isRolledBack (job : Job) : Bool :=
  Jobs.isFinalAttempt job && decide (job.kind = gmailThreadAction) && (jobUserId job).isSome

/-! ## Cycles -/

/-- How a cycle ended. `lost` is a conditional update that found no row of its
worker, `otherJob` a claim of another job or of none. -/
inductive CycleOutcome where
  | completed
  | retried
  | cancelled
  | dead
  | lost
  | otherJob
  deriving DecidableEq

inductive CyclePhase where
  | idle
  | running (workerId : String) (job : Job)
  | rollingBack (job : Job)
  | over (outcome : CycleOutcome)
  deriving DecidableEq

/-- The queue, the action with the attempts at it, and the cycles. The body of
cycle `i` is attempt `i`. -/
structure WorkerSystem where
  db : Db
  attempts : AttemptSystem
  cycle : Nat → CyclePhase

structure StoredMessages where
  rows : List StoredMessage
  nodup : (rows.map StoredMessage.messageId).Nodup
  named : ∀ message ∈ rows, message.messageId ≠ ""

def WorkerSystem.initial (db : Db) (row : PendingThreadAction) (messages : StoredMessages) :
    WorkerSystem :=
  ⟨db, AttemptSystem.initial row messages.rows, fun _ => .idle⟩

/-- The attempt whose body a step belongs to; crashes and rollbacks belong to none. -/
def bodyOf : AttemptStep → Option Nat
  | .start i _ => some i
  | .lock i _ => some i
  | .markApplying i _ => some i
  | .resolve i _ _ _ => some i
  | .remote i _ => some i
  | .deleteLocal i _ => some i
  | .markApplied i _ => some i
  | .announce i _ => some i
  | .markFailed i _ => some i
  | .stop _ => none
  | .rollback _ => none
  | .restore _ => none

inductive WorkerStep where
  | transaction (t : Jobs.Transaction)
  | rewriteMessages (messages : StoredMessages)
  | claim (cycle : Nat) (workerId : String) (queues locked : List String) (leaseSeconds : Int)
      (now : Jobs.Timestamp)
  | body (cycle : Nat) (t : AttemptStep)
  | finish (cycle : Nat) (context : List ServiceError) (error : String)
      (retryDelaySeconds : Option Int) (now : Jobs.Timestamp)
  | rollback (cycle : Nat)
  | restore (cycle : Nat)

/-- Cycle `i` goes on at `ph`. -/
def WorkerSystem.goto (s : WorkerSystem) (i : Nat) (ph : CyclePhase) : WorkerSystem :=
  { s with cycle := Function.update s.cycle i ph }

/-- The cycle after `claim_job`. -/
def claimedPhase (row : PendingThreadAction) (workerId : String) : Option Job → CyclePhase
  | none => .over .otherJob
  | some job =>
    if job.kind = gmailThreadAction ∧
        Jobs.payloadText job "server_action_id" = some row.serverActionId ∧
        (jobUserId job).isSome = true then
      .running workerId job
    else .over .otherJob

def endedPhase (updated : Bool) (outcome : CycleOutcome) : CyclePhase :=
  .over (if updated then outcome else .lost)

/-- The cycle after `fail_job`. -/
def failedPhase (job : Job) (failed : Bool) : CyclePhase :=
  if failed && isRolledBack job then .rollingBack job
  else endedPhase failed (if Jobs.isFinalAttempt job then .dead else .retried)

/-- The end of a cycle whose body raised `exc`. -/
def handle (s : WorkerSystem) (i : Nat) (workerId : String) (job : Job) (exc : ServiceError)
    (context : List ServiceError) (error : String) (retryDelaySeconds : Option Int)
    (now : Jobs.Timestamp) : WorkerSystem :=
  match handlerOf job exc context with
  | .cancel =>
    let result := Jobs.cancelClaimedJob now job.id workerId s.db
    { s.goto i (endedPhase result.2 .cancelled) with db := result.1 }
  | .fail =>
    let result := Jobs.failJob now job error workerId retryDelaySeconds s.db
    { s.goto i (failedPhase job result.2) with db := result.1 }

def workerStep (upper : String → String) (s : WorkerSystem) : WorkerStep → WorkerSystem
  | .transaction t => { s with db := (Jobs.step ⟨s.db, []⟩ t).db }
  | .rewriteMessages messages =>
    { s with attempts := { s.attempts with messages := messages.rows } }
  | .claim i workerId queues locked leaseSeconds now =>
    match s.cycle i with
    | .idle =>
      let claimed := Jobs.claimJob now workerId queues leaseSeconds locked s.db
      { s.goto i (claimedPhase s.attempts.row workerId claimed.2) with db := claimed.1 }
    | _ => s
  | .body i t =>
    match s.cycle i with
    | .running _ _ =>
      if bodyOf t = some i then { s with attempts := attemptStep upper s.attempts t } else s
    | _ => s
  | .finish i context error retryDelaySeconds now =>
    match s.cycle i, s.attempts.phase i with
    | .running workerId job, .returned =>
      let result := Jobs.completeJob now job.id workerId s.db
      { s.goto i (endedPhase result.2 .completed) with db := result.1 }
    | .running workerId job, .raised exc =>
      handle s i workerId job exc context error retryDelaySeconds now
    | _, _ => s
  | .rollback i =>
    match s.cycle i, s.attempts.phase i with
    | .rollingBack _, .raised _ =>
      let attempts := attemptStep upper s.attempts (.rollback i)
      if (attempts.phase i).isRestoring then { s with attempts := attempts }
      else { s.goto i (.over .dead) with attempts := attempts }
    | _, _ => s
  | .restore i =>
    match s.cycle i, s.attempts.phase i with
    | .rollingBack _, .restoring _ =>
      { s.goto i (.over .dead) with attempts := attemptStep upper s.attempts (.restore i) }
    | _, _ => s

/-! ## The properties -/

section Properties

variable (upper : String → String)

end Properties

/-! ## The failing run -/

def ReadUnapplied (row record : PendingThreadAction) : Prop :=
  record.state ≠ .applied ∧ record.previousLabels = row.previousLabels ∧ record.action = row.action

def WellStored (messages : List StoredMessage) : Prop :=
  (messages.map StoredMessage.messageId).Nodup ∧
    ∀ messageId ∈ messages.map StoredMessage.messageId, messageId ≠ ""

/-- What holds between the steps of attempts: `applied` and everything past the
Gmail calls follow the performance of the action. -/
structure AttemptInv (a : AttemptSystem) : Prop where
  stored : WellStored a.messages
  applied : a.row.state = .applied → a.mutated = true
  performed : ∀ j, (a.phase j).isPerformed = true → a.mutated = true
  restoring : ∀ j record, a.phase j = .restoring record → ReadUnapplied a.row record

theorem attemptInv_initial (row : PendingThreadAction) (messages : StoredMessages) :
    AttemptInv (AttemptSystem.initial row messages.rows) where
  stored := by
    refine ⟨messages.nodup, ?_⟩
    intro messageId hid
    obtain ⟨message, hmessage, rfl⟩ := List.mem_map.1 hid
    exact messages.named message hmessage
  applied := fun h => nomatch h
  performed := fun _ h => nomatch h
  restoring := fun _ _ h => nomatch h

variable {messages : List StoredMessage}

theorem WellStored.deleteMessages (h : WellStored messages) (deleted : List StoredMessage) :
    WellStored (deleteMessages deleted messages) := by
  have hsub : List.Sublist ((Actions.deleteMessages deleted messages).map StoredMessage.messageId)
      (messages.map StoredMessage.messageId) := List.Sublist.map _ List.filter_sublist
  exact ⟨h.1.sublist hsub, fun messageId hid => h.2 messageId (hsub.subset hid)⟩

theorem WellStored.of_ids {messages' : List StoredMessage} (h : WellStored messages)
    (hids : messages'.map StoredMessage.messageId = messages.map StoredMessage.messageId) :
    WellStored messages' := by
  unfold WellStored
  rw [hids]
  exact h

variable {a : AttemptSystem}

theorem AttemptInv.goto (h : AttemptInv a) (i : Nat) {ph : AttemptPhase}
    (hperformed : ph.isPerformed = true → a.mutated = true)
    (hrestoring : ∀ record, ph = .restoring record → ReadUnapplied a.row record) :
    AttemptInv (a.goto i ph) where
  stored := h.stored
  applied := h.applied
  performed := forall_goto (P := fun ph => ph.isPerformed = true → a.mutated = true)
    hperformed h.performed
  restoring := forall_goto
    (P := fun ph => ∀ record, ph = .restoring record → ReadUnapplied a.row record)
    hrestoring h.restoring

theorem AttemptInv.goto_plain (h : AttemptInv a) (i : Nat)
    {ph : AttemptPhase} (hplain : ph.isPlain = true) : AttemptInv (a.goto i ph) := by
  refine h.goto i ?_ ?_
  · intro hperformed
    simp [AttemptPhase.isPlain, hperformed] at hplain
  · rintro record rfl
    simp [AttemptPhase.isPlain, AttemptPhase.isRestoring] at hplain

/-- A state change of the row keeps the invariant, unless it says `applied` too
early. -/
theorem AttemptInv.update (h : AttemptInv a) (state : ActionState)
    (error : Option String) (hstate : state = .applied → a.mutated = true) :
    AttemptInv { a with row := updatePendingThreadActionState state error a.row } where
  stored := h.stored
  applied := hstate
  performed := h.performed
  restoring := h.restoring

theorem mutated_performCall (calls : List RemoteCall)
    (h : a.mutated = true ∨ calls = []) : (performCall a calls).mutated = true := by
  unfold performCall
  split
  · rfl
  rename_i hcalls
  rcases h with hmutated | rfl
  · exact hmutated
  · exact absurd rfl hcalls

theorem AttemptInv.performCall (h : AttemptInv a)
    (calls : List RemoteCall) : AttemptInv (performCall a calls) where
  stored := by
    rw [performCall_messages]
    exact h.stored
  applied := by
    rw [performCall_row]
    intro happlied
    exact mutated_performCall calls (Or.inl (h.applied happlied))
  performed := by
    rw [performCall_phase]
    intro j hj
    exact mutated_performCall calls (Or.inl (h.performed j hj))
  restoring := by
    rw [performCall_phase, performCall_row]
    exact h.restoring

theorem AttemptInv.step (upper : String → String) (h : AttemptInv a)
    (t : AttemptStep) : AttemptInv (attemptStep upper a t) := by
  have heffect := attemptStep_effect upper a t
  generalize attemptStep upper a t = a' at heffect
  cases heffect with
  | unchanged => exact h
  | moved _ i hph => exact h.goto_plain i hph
  | markedApplying i =>
    exact (h.update .applying none (fun hstate => nomatch hstate)).goto_plain i rfl
  | called i outcome calls hph =>
    rcases hph with hplain | ⟨hrestoring, hcalls⟩
    · exact (h.performCall calls).goto_plain i hplain
    refine (h.performCall calls).goto i ?_ ?_
    · intro _
      exact mutated_performCall calls (Or.inr hcalls)
    · rintro record rfl
      cases hrestoring
  | @deleted i record messages hphase =>
    have hmutated : a.mutated = true := h.performed i (by rw [hphase]; rfl)
    have hgoto : AttemptInv (a.goto i (.markingApplied record)) :=
      h.goto i (fun _ => hmutated) (fun _ hrecord => nomatch hrecord)
    exact { hgoto with stored := h.stored.deleteMessages _ }
  | markedApplied i hphase =>
    have hmutated : a.mutated = true := h.performed i (by rw [hphase]; rfl)
    exact (h.update .applied none (fun _ => hmutated)).goto i (fun _ => hmutated)
      (fun record hrecord => nomatch hrecord)
  | markedFailed i =>
    exact (h.update .failed _ (fun hstate => nomatch hstate)).goto_plain i rfl
  | began i hphase hread =>
    refine h.goto i (fun hperformed => nomatch hperformed) ?_
    intro record hrecord
    cases hrecord
    exact ⟨hread, rfl, rfl⟩
  | restored i =>
    have hgoto := h.goto_plain i (rfl : AttemptPhase.isPlain .returned = true)
    exact { hgoto with
      stored := h.stored.of_ids (messageIds_rollbackFailedThreadAction upper _ a.messages) }

variable {row : PendingThreadAction} {i : Nat} {s : WorkerSystem}

/-! ## Cycles that end -/

section Cycles

variable {upper : String → String}

variable {record : PendingThreadAction}

/-- What holds of a running cycle: its job is one that a final failure rolls back. -/
structure WorkerInv (s : WorkerSystem) : Prop where
  attempts : AttemptInv s.attempts
  running : ∀ i workerId job, s.cycle i = .running workerId job →
    job.kind = gmailThreadAction ∧ (jobUserId job).isSome = true

theorem cycle_goto_self (s : WorkerSystem) (i : Nat) (ph : CyclePhase) :
    (s.goto i ph).cycle i = ph := by
  simp only [WorkerSystem.goto, Function.update_self]

theorem cycle_goto_of_ne {j : Nat} (h : j ≠ i) (s : WorkerSystem) (ph : CyclePhase) :
    (s.goto i ph).cycle j = s.cycle j := by
  simp only [WorkerSystem.goto, Function.update_of_ne h]

/-- The effects of a step: the attempts change by one step or by new labels, and at
most one cycle goes on. `ended` is the last statement of a cycle. -/
inductive WorkerEffect (upper : String → String) (s : WorkerSystem) :
    WorkerStep → WorkerSystem → Prop where
  | queue (t : WorkerStep) (db : Db) : WorkerEffect upper s t { s with db := db }
  | rewritten (messages : StoredMessages) :
      WorkerEffect upper s (.rewriteMessages messages)
        { s with attempts := { s.attempts with messages := messages.rows } }
  | attempted (t : WorkerStep) (a : AttemptStep) :
      WorkerEffect upper s t { s with attempts := attemptStep upper s.attempts a }
  | claimed (t : WorkerStep) (i : Nat) (workerId : String) (job : Option Job) (db : Db) :
      WorkerEffect upper s t { s.goto i (claimedPhase s.attempts.row workerId job) with db := db }
  | finished (t : WorkerStep) (i : Nat) {workerId : String} {job : Job} (db : Db)
      {ph : CyclePhase} (hcycle : s.cycle i = .running workerId job)
      (hph : (∃ outcome, ph = .over outcome ∧ outcome ≠ .dead) ∨ ∃ failed, ph = failedPhase job failed) :
      WorkerEffect upper s t { s.goto i ph with db := db }
  | rolledBack (i : Nat) {exc : ServiceError} (hphase : s.attempts.phase i = .raised exc)
      (hnot : ((attemptStep upper s.attempts (.rollback i)).phase i).isRestoring = false) :
      WorkerEffect upper s (.rollback i)
        { s.goto i (.over .dead) with attempts := attemptStep upper s.attempts (.rollback i) }
  | restored (i : Nat) {record : PendingThreadAction}
      (hphase : s.attempts.phase i = .restoring record) :
      WorkerEffect upper s (.restore i)
        { s.goto i (.over .dead) with attempts := attemptStep upper s.attempts (.restore i) }

theorem endedPhase_eq (updated : Bool) {outcome : CycleOutcome} (h : outcome ≠ .dead) :
    ∃ o, endedPhase updated outcome = .over o ∧ o ≠ .dead := by
  cases updated with
  | true => exact ⟨outcome, rfl, h⟩
  | false => exact ⟨.lost, rfl, by decide⟩

theorem workerStep_effect (s : WorkerSystem) (t : WorkerStep) :
    WorkerEffect upper s t (workerStep upper s t) := by
  cases t with
  | transaction t => exact .queue _ _
  | rewriteMessages messages => exact .rewritten messages
  | claim i workerId =>
    simp only [workerStep]
    split
    · exact .claimed _ i workerId _ _
    · exact .queue _ s.db
  | body i t =>
    simp only [workerStep]
    split
    · split
      · exact .attempted _ t
      · exact .queue _ s.db
    · exact .queue _ s.db
  | finish i context error retryDelaySeconds now =>
    simp only [workerStep]
    split
    · rename_i hcycle _
      exact .finished _ i _ hcycle (Or.inl (endedPhase_eq _ (by decide)))
    · rename_i hcycle _
      unfold handle
      split
      · exact .finished _ i _ hcycle (Or.inl (endedPhase_eq _ (by decide)))
      · exact .finished _ i _ hcycle (Or.inr ⟨_, rfl⟩)
    · exact .queue _ s.db
  | rollback i =>
    simp only [workerStep]
    split
    · rename_i hphase
      split
      · exact .attempted _ (.rollback i)
      · rename_i hnot
        exact .rolledBack i hphase (Bool.eq_false_iff.2 hnot)
    · exact .queue _ s.db
  | restore i =>
    simp only [workerStep]
    split
    · rename_i hphase
      exact .restored i hphase
    · exact .queue _ s.db

theorem claimedPhase_running {workerId w : String} {claimed : Option Job} {job : Job}
    (h : claimedPhase row workerId claimed = .running w job) :
    job.kind = gmailThreadAction ∧ (jobUserId job).isSome = true := by
  unfold claimedPhase at h
  cases claimed with
  | none => cases h
  | some j =>
    dsimp only at h
    split at h
    · rename_i hjob
      cases h
      exact ⟨hjob.1, hjob.2.2⟩
    · cases h

theorem failedPhase_ne_running (job job' : Job) (failed : Bool) (w : String) :
    failedPhase job failed ≠ .running w job' := by
  unfold failedPhase
  split
  · exact fun h => nomatch h
  · exact fun h => nomatch h

theorem running_goto (h : WorkerInv s) {ph : CyclePhase} (hph : ∀ w job, ph = .running w job →
      job.kind = gmailThreadAction ∧ (jobUserId job).isSome = true) :
    ∀ j w job, (s.goto i ph).cycle j = .running w job →
      job.kind = gmailThreadAction ∧ (jobUserId job).isSome = true := by
  intro j w job hj
  rcases eq_or_ne j i with rfl | hne
  · rw [cycle_goto_self] at hj
    exact hph w job hj
  · rw [cycle_goto_of_ne hne] at hj
    exact h.running j w job hj

theorem WorkerInv.step (h : WorkerInv s) (t : WorkerStep) : WorkerInv (workerStep upper s t) := by
  have heffect := @workerStep_effect upper s t
  generalize workerStep upper s t = s' at heffect
  cases heffect with
  | queue => exact ⟨h.attempts, h.running⟩
  | rewritten messages =>
    have hstored := (attemptInv_initial s.attempts.row messages).stored
    exact ⟨{ h.attempts with stored := hstored }, h.running⟩
  | attempted t a => exact ⟨h.attempts.step upper a, h.running⟩
  | claimed =>
    exact ⟨h.attempts, running_goto h (fun _ _ hph => claimedPhase_running hph)⟩
  | finished t i db hcycle hph =>
    refine ⟨h.attempts, running_goto h ?_⟩
    intro w job hrunning
    rcases hph with ⟨outcome, rfl, -⟩ | ⟨failed, rfl⟩
    · cases hrunning
    · exact absurd hrunning (failedPhase_ne_running _ _ _ _)
  | rolledBack i =>
    exact ⟨h.attempts.step upper (.rollback i), running_goto h (fun _ _ hph => nomatch hph)⟩
  | restored i =>
    exact ⟨h.attempts.step upper (.restore i), running_goto h (fun _ _ hph => nomatch hph)⟩

end Cycles

end ElectronicMail.Actions
