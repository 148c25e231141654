import ElectronicMail.Actions.Record
import ElectronicMail.Foundations.Run

/-!
# Concurrent attempts at one action

Any number of attempts of `run_pending_thread_action` work on one row, each with
any exception at any statement and any lost answer of Gmail, and after an attempt
that raised the worker may call `rollback_failed_thread_action`. `mutated` records
that Gmail has performed the action.

Two things should never happen: the row leaves `applied` (`AppliedIsFinal`), and
the rollback restores labels of an action that Gmail has performed
(`RollbackSpares`). Both do. The bookkeeping after the Gmail call sits in the same
`try` block and the state updates have no guard, so an exception after
`mark_pending_thread_action_applied` marks the row failed and lets the rollback
run (`failedAfterApplied`). `attempts_sound` gives the condition under which
neither happens: `mark_failed` and `mark_applying` never overwrite `applied`, and a
rollback starts only when a performed action is marked applied, with no mutation
while it is under way.
-/

namespace ElectronicMail.Actions

open Foundations
open Google

/-! ## Attempts -/

inductive AttemptPhase where
  | idle
  | locking (record : PendingThreadAction)
  | markingApplying (record : PendingThreadAction)
  | resolving (record : PendingThreadAction)
  | mutating (record : PendingThreadAction) (messages : List StoredMessage)
      (call : RemoteCall) (calls : List RemoteCall)
  | deleting (record : PendingThreadAction) (messages : List StoredMessage)
  | markingApplied (record : PendingThreadAction)
  | announcing (record : PendingThreadAction)
  | failing (exc : ServiceError) (error : String)
  | raised (exc : ServiceError)
  | restoring (record : PendingThreadAction)
  | returned

/-- The answer to one Gmail call: performed, performed with the answer lost, or
not performed. -/
inductive RemoteOutcome where
  | performed
  | lost (exc : ServiceError)
  | refused (exc : ServiceError)

/-- The row of the action, the stored messages, whether Gmail has performed the
action, and the attempts. -/
structure AttemptSystem where
  row : PendingThreadAction
  messages : List StoredMessage
  mutated : Bool
  phase : Nat → AttemptPhase

def AttemptSystem.initial (row : PendingThreadAction) (messages : List StoredMessage) :
    AttemptSystem :=
  ⟨{ row with state := .queued }, messages, false, fun _ => .idle⟩

/-- What an attempt can do next. `exc?` is the exception the statement raises,
before it has any effect. -/
inductive AttemptStep where
  | start (attempt : Nat) (exc? : Option ServiceError)
  | lock (attempt : Nat) (exc? : Option ServiceError)
  | markApplying (attempt : Nat) (exc? : Option ServiceError)
  | resolve (attempt : Nat) (messages : List StoredMessage) (threadIds : List String)
      (exc? : Option ServiceError)
  | remote (attempt : Nat) (outcome : RemoteOutcome)
  | deleteLocal (attempt : Nat) (exc? : Option ServiceError)
  | markApplied (attempt : Nat) (exc? : Option ServiceError)
  | announce (attempt : Nat) (exc? : Option ServiceError)
  | markFailed (attempt : Nat) (exc? : Option ServiceError)
  | stop (attempt : Nat)
  | rollback (attempt : Nat)
  | restore (attempt : Nat)

/-- Attempt `i` goes on at `ph`. -/
def AttemptSystem.goto (s : AttemptSystem) (i : Nat) (ph : AttemptPhase) : AttemptSystem :=
  { s with phase := Function.update s.phase i ph }

/-- An exception inside the `try` block reaches the handlers. -/
def caught (exc : ServiceError) : AttemptPhase :=
  match attemptFailureMark exc with
  | some error => .failing exc error
  | none => .raised exc

/-- The first Gmail call of the plan, or the `RuntimeError` of the checks. -/
def afterResolve (record : PendingThreadAction) (messages : List StoredMessage)
    (threadIds : List String) : AttemptPhase :=
  match remotePlan record messages threadIds with
  | .ok (call :: calls) => .mutating record messages call calls
  | .ok [] => caught .other
  | .error _ => caught .other

def afterMutation (record : PendingThreadAction) (messages : List StoredMessage) :
    AttemptPhase :=
  if record.action = .deleteForever then .deleting record messages else .markingApplied record

def performCall (s : AttemptSystem) (calls : List RemoteCall) : AttemptSystem :=
  if calls.isEmpty then { s with mutated := true } else s

/-- `delete_gmail_messages`, on the stored messages. -/
def deleteMessages (deleted messages : List StoredMessage) : List StoredMessage :=
  messages.filter fun m => !(deleted.map StoredMessage.messageId).contains m.messageId

def attemptStep (upper : String → String) (s : AttemptSystem) : AttemptStep → AttemptSystem
  | .start i exc? =>
    match s.phase i with
    | .idle =>
      match exc? with
      | some exc => s.goto i (.raised exc)
      | none => s.goto i (if s.row.state = .applied then .returned else .locking s.row)
    | _ => s
  | .lock i exc? =>
    match s.phase i with
    | .locking record =>
      match exc? with
      | some exc => s.goto i (caught exc)
      | none => s.goto i (.markingApplying record)
    | _ => s
  | .markApplying i exc? =>
    match s.phase i with
    | .markingApplying record =>
      match exc? with
      | some exc => s.goto i (caught exc)
      | none => { s.goto i (.resolving record) with row := markApplying s.row }
    | _ => s
  | .resolve i messages threadIds exc? =>
    match s.phase i with
    | .resolving record =>
      match exc? with
      | some exc => s.goto i (caught exc)
      | none => s.goto i (afterResolve record messages threadIds)
    | _ => s
  | .remote i outcome =>
    match s.phase i with
    | .mutating record messages _ calls =>
      match outcome with
      | .refused exc => s.goto i (caught exc)
      | .lost exc => (performCall s calls).goto i (caught exc)
      | .performed =>
        match calls with
        | next :: rest => (performCall s calls).goto i (.mutating record messages next rest)
        | [] => (performCall s calls).goto i (afterMutation record messages)
    | _ => s
  | .deleteLocal i exc? =>
    match s.phase i with
    | .deleting record messages =>
      match exc? with
      | some exc => s.goto i (caught exc)
      | none =>
        { s.goto i (.markingApplied record) with
          messages := deleteMessages messages s.messages }
    | _ => s
  | .markApplied i exc? =>
    match s.phase i with
    | .markingApplied record =>
      match exc? with
      | some exc => s.goto i (caught exc)
      | none => { s.goto i (.announcing record) with row := markApplied s.row }
    | _ => s
  | .announce i exc? =>
    match s.phase i with
    | .announcing _ =>
      match exc? with
      | some exc => s.goto i (caught exc)
      | none => s.goto i .returned
    | _ => s
  | .markFailed i exc? =>
    match s.phase i with
    | .failing exc error =>
      match exc? with
      | some exc' => s.goto i (.raised exc')
      | none => { s.goto i (.raised exc) with row := markFailed error s.row }
    | _ => s
  | .stop i => s.goto i .returned
  | .rollback i =>
    match s.phase i with
    | .raised _ =>
      if s.row.state = .applied || s.row.previousLabels.isEmpty then s.goto i .returned
      else s.goto i (.restoring s.row)
    | _ => s
  | .restore i =>
    match s.phase i with
    | .restoring record =>
      { s.goto i .returned with
        messages := (rollbackFailedThreadAction upper (some record) s.messages).1 }
    | _ => s

/-! ## What a step can do -/

def AttemptPhase.isFailing : AttemptPhase → Bool
  | .failing _ _ => true
  | _ => false

def AttemptPhase.isMarkingApplying : AttemptPhase → Bool
  | .markingApplying _ => true
  | _ => false

def AttemptPhase.isRaised : AttemptPhase → Bool
  | .raised _ => true
  | _ => false

/-- The rollback after the attempt has read the row and not yet written. -/
def AttemptPhase.isRestoring : AttemptPhase → Bool
  | .restoring _ => true
  | _ => false

def AttemptPhase.isPerformed : AttemptPhase → Bool
  | .deleting _ _ => true
  | .markingApplied _ => true
  | .announcing _ => true
  | _ => false

def AttemptPhase.isPlain (ph : AttemptPhase) : Bool := !ph.isPerformed && !ph.isRestoring

/-- The effects of a step: the phase of one attempt changes, and at most one of the
row, the messages and `mutated` with it. -/
inductive AttemptEffect (upper : String → String) (s : AttemptSystem) :
    AttemptStep → AttemptSystem → Prop where
  | unchanged (t : AttemptStep) : AttemptEffect upper s t s
  | moved (t : AttemptStep) (i : Nat) {ph : AttemptPhase} (hph : ph.isPlain = true) :
      AttemptEffect upper s t (s.goto i ph)
  | markedApplying (i : Nat) {record : PendingThreadAction}
      (hphase : s.phase i = .markingApplying record) :
      AttemptEffect upper s (.markApplying i none)
        { s.goto i (.resolving record) with row := markApplying s.row }
  | called (i : Nat) (outcome : RemoteOutcome) (calls : List RemoteCall) {ph : AttemptPhase}
      (hph : ph.isPlain = true ∨ (ph.isRestoring = false ∧ calls = [])) :
      AttemptEffect upper s (.remote i outcome) ((performCall s calls).goto i ph)
  | deleted (i : Nat) {record : PendingThreadAction} {messages : List StoredMessage}
      (hphase : s.phase i = .deleting record messages) :
      AttemptEffect upper s (.deleteLocal i none)
        { s.goto i (.markingApplied record) with messages := deleteMessages messages s.messages }
  | markedApplied (i : Nat) {record : PendingThreadAction}
      (hphase : s.phase i = .markingApplied record) :
      AttemptEffect upper s (.markApplied i none)
        { s.goto i (.announcing record) with row := markApplied s.row }
  | markedFailed (i : Nat) {exc : ServiceError} {error : String}
      (hphase : s.phase i = .failing exc error) :
      AttemptEffect upper s (.markFailed i none)
        { s.goto i (.raised exc) with row := markFailed error s.row }
  | began (i : Nat) {exc : ServiceError} (hphase : s.phase i = .raised exc)
      (hread : s.row.state ≠ .applied) :
      AttemptEffect upper s (.rollback i) (s.goto i (.restoring s.row))
  | restored (i : Nat) {record : PendingThreadAction} (hphase : s.phase i = .restoring record) :
      AttemptEffect upper s (.restore i)
        { s.goto i .returned with
          messages := (rollbackFailedThreadAction upper (some record) s.messages).1 }

theorem isPlain_caught (exc : ServiceError) : (caught exc).isPlain = true := by
  unfold caught
  split
  · rfl
  · rfl

theorem isPlain_afterResolve (record : PendingThreadAction) (messages : List StoredMessage)
    (threadIds : List String) : (afterResolve record messages threadIds).isPlain = true := by
  unfold afterResolve
  split
  · rfl
  · exact isPlain_caught .other
  · exact isPlain_caught .other

theorem isRestoring_afterMutation (record : PendingThreadAction)
    (messages : List StoredMessage) : (afterMutation record messages).isRestoring = false := by
  unfold afterMutation
  split
  · rfl
  · rfl

theorem attemptStep_effect (upper : String → String) (s : AttemptSystem) (t : AttemptStep) :
    AttemptEffect upper s t (attemptStep upper s t) := by
  cases t with
  | start i exc? =>
    simp only [attemptStep]
    split
    · cases exc? with
      | some exc => exact .moved _ i rfl
      | none =>
        refine .moved _ i ?_
        split
        · rfl
        · rfl
    · exact .unchanged _
  | lock i exc? | announce i exc? =>
    simp only [attemptStep]
    split
    · cases exc? with
      | some exc => exact .moved _ i (isPlain_caught exc)
      | none => exact .moved _ i rfl
    · exact .unchanged _
  | markApplying i exc? =>
    simp only [attemptStep]
    split
    · rename_i hphase
      cases exc? with
      | some exc => exact .moved _ i (isPlain_caught exc)
      | none => exact .markedApplying i hphase
    · exact .unchanged _
  | resolve i messages threadIds exc? =>
    simp only [attemptStep]
    split
    · rename_i record _
      cases exc? with
      | some exc => exact .moved _ i (isPlain_caught exc)
      | none => exact .moved _ i (isPlain_afterResolve record messages threadIds)
    · exact .unchanged _
  | remote i outcome =>
    simp only [attemptStep]
    split
    · rename_i record messages call calls _
      cases outcome with
      | refused exc => exact .moved _ i (isPlain_caught exc)
      | lost exc => exact .called i _ calls (Or.inl (isPlain_caught exc))
      | performed =>
        cases calls with
        | nil => exact .called i _ [] (Or.inr ⟨isRestoring_afterMutation record messages, rfl⟩)
        | cons next rest => exact .called i _ (next :: rest) (Or.inl rfl)
    · exact .unchanged _
  | deleteLocal i exc? =>
    simp only [attemptStep]
    split
    · rename_i hphase
      cases exc? with
      | some exc => exact .moved _ i (isPlain_caught exc)
      | none => exact .deleted i hphase
    · exact .unchanged _
  | markApplied i exc? =>
    simp only [attemptStep]
    split
    · rename_i hphase
      cases exc? with
      | some exc => exact .moved _ i (isPlain_caught exc)
      | none => exact .markedApplied i hphase
    · exact .unchanged _
  | markFailed i exc? =>
    simp only [attemptStep]
    split
    · rename_i hphase
      cases exc? with
      | some => exact .moved _ i rfl
      | none => exact .markedFailed i hphase
    · exact .unchanged _
  | stop i => exact .moved _ i rfl
  | rollback i =>
    simp only [attemptStep]
    split
    · rename_i hphase
      split
      · exact .moved _ i rfl
      rename_i hread
      rw [Bool.or_eq_true, decide_eq_true_eq, not_or] at hread
      exact .began i hphase hread.1
    · exact .unchanged _
  | restore i =>
    simp only [attemptStep]
    split
    · rename_i hphase
      exact .restored i hphase
    · exact .unchanged _

@[simp]
theorem goto_phase_self (s : AttemptSystem) (i : Nat) (ph : AttemptPhase) :
    (s.goto i ph).phase i = ph := by
  simp only [AttemptSystem.goto, Function.update_self]

theorem goto_phase_of_ne {i j : Nat} (h : j ≠ i) (s : AttemptSystem) (ph : AttemptPhase) :
    (s.goto i ph).phase j = s.phase j := by
  simp only [AttemptSystem.goto, Function.update_of_ne h]

variable {s : AttemptSystem} {ph : AttemptPhase}

theorem forall_goto {P : AttemptPhase → Prop} {i : Nat}
    (hph : P ph) (h : ∀ j, P (s.phase j)) (j : Nat) : P ((s.goto i ph).phase j) := by
  rcases eq_or_ne j i with rfl | hne
  · rw [goto_phase_self]
    exact hph
  · rw [goto_phase_of_ne hne]
    exact h j

section

variable (s : AttemptSystem) (calls : List RemoteCall)

@[simp] theorem performCall_row :
    (performCall s calls).row = s.row := by
  unfold performCall
  split
  · rfl
  · rfl

@[simp] theorem performCall_phase :
    (performCall s calls).phase = s.phase := by
  unfold performCall
  split
  · rfl
  · rfl

@[simp] theorem performCall_messages :
    (performCall s calls).messages = s.messages := by
  unfold performCall
  split
  · rfl
  · rfl

end

/-! ## The properties and the condition -/

section Properties

variable (upper : String → String)

def AppliedIsFinal (s : AttemptSystem) (t : AttemptStep) : Prop :=
  s.row.state = .applied → (attemptStep upper s t).row.state = .applied

/-- A rollback that changes labels is one of an action that Gmail has not
performed. -/
def RollbackSpares (s : AttemptSystem) : AttemptStep → Prop
  | .restore i => (attemptStep upper s (.restore i)).messages ≠ s.messages → s.mutated = false
  | _ => True

instance (s : AttemptSystem) (t : AttemptStep) : Decidable (AppliedIsFinal upper s t) :=
  inferInstanceAs (Decidable (_ → _))

instance (s : AttemptSystem) : ∀ t, Decidable (RollbackSpares upper s t)
  | .restore _ => inferInstanceAs (Decidable (_ → _))
  | .start _ _ | .lock _ _ | .markApplying _ _ | .resolve _ _ _ _ | .remote _ _ | .deleteLocal _ _
  | .markApplied _ _ | .announce _ _ | .markFailed _ _ | .stop _ | .rollback _ =>
    inferInstanceAs (Decidable True)

end Properties

/-- No handler marks the row failed, and no attempt marks it as being applied, when
it is `applied` already. A rollback starts only if Gmail has not performed the action
or the row says so, and Gmail performs nothing while a rollback is under way. -/
def InOrder (s : AttemptSystem) : AttemptStep → Prop
  | .markFailed i exc? => (s.phase i).isFailing = true → exc? = none → s.row.state ≠ .applied
  | .markApplying i exc? =>
    (s.phase i).isMarkingApplying = true → exc? = none → s.row.state ≠ .applied
  | .rollback i => (s.phase i).isRaised = true → s.mutated = true → s.row.state = .applied
  | .remote _ _ => ∀ j, (s.phase j).isRestoring = false
  | _ => True

/-! ## The failing run -/

def archivedAction : PendingThreadAction where
  serverActionId := "a1"
  clientActionId := "c1"
  mailboxThreadId := "t1"
  targetMessageId := none
  action := .archive
  state := .queued
  createdAt := "2026-01-01T00:00:00Z"
  error := none
  previousLabels := [("m1", ["INBOX", "UNREAD"])]

def archivedMessage : StoredMessage := ⟨"m1", "t1", ["UNREAD"]⟩

/-- Gmail archives the thread and the row is marked applied, but the mailbox event
cannot be inserted; the handler marks the row failed and the rollback puts the
message back into the inbox. -/
def failedAfterApplied : List AttemptStep :=
  [.start 0 none, .lock 0 none, .markApplying 0 none, .resolve 0 [archivedMessage] ["t1"] none,
    .remote 0 .performed, .markApplied 0 none, .announce 0 (some .connection),
    .markFailed 0 none, .rollback 0, .restore 0]

theorem failedAfterApplied_not_final :
    ¬ Along (attemptStep id) (AppliedIsFinal id)
        (AttemptSystem.initial archivedAction [archivedMessage]) failedAfterApplied ∧
      ¬ Along (attemptStep id) (RollbackSpares id)
        (AttemptSystem.initial archivedAction [archivedMessage]) failedAfterApplied := by
  constructor
  · decide
  · decide

/-! ## Runs in order -/

def RestoresUnperformed (s : AttemptSystem) : Prop :=
  ∀ j, (s.phase j).isRestoring = true → s.mutated = false

theorem RestoresUnperformed.goto (h : RestoresUnperformed s) (i : Nat)
    (hph : ph.isRestoring = false) : RestoresUnperformed (s.goto i ph) := by
  refine forall_goto (P := fun ph => ph.isRestoring = true → s.mutated = false) ?_ h
  intro hrestoring
  rw [hph] at hrestoring
  cases hrestoring

theorem isRestoring_of_isPlain (h : ph.isPlain = true) : ph.isRestoring = false := by
  unfold AttemptPhase.isPlain at h
  simpa using (Bool.and_eq_true_iff.1 h).2

theorem RestoresUnperformed.step (upper : String → String)
    (h : RestoresUnperformed s) {t : AttemptStep} (horder : InOrder s t) :
    RestoresUnperformed (attemptStep upper s t) := by
  have heffect := attemptStep_effect upper s t
  generalize attemptStep upper s t = s' at heffect
  cases heffect with
  | unchanged => exact h
  | moved _ i hph => exact h.goto i (isRestoring_of_isPlain hph)
  | markedApplying i => exact h.goto i (show AttemptPhase.isRestoring (.resolving _) = false from rfl)
  | called i outcome calls hph =>
    have hcalled : RestoresUnperformed (performCall s calls) := by
      intro j hj
      rw [performCall_phase, horder j] at hj
      cases hj
    refine hcalled.goto i ?_
    rcases hph with hplain | ⟨hrestoring, -⟩
    · exact isRestoring_of_isPlain hplain
    · exact hrestoring
  | deleted i => exact h.goto i (show AttemptPhase.isRestoring (.markingApplied _) = false from rfl)
  | markedApplied i => exact h.goto i (show AttemptPhase.isRestoring (.announcing _) = false from rfl)
  | markedFailed i => exact h.goto i (show AttemptPhase.isRestoring (.raised _) = false from rfl)
  | began i hphase hread =>
    -- The row that the rollback has read is not applied.
    intro j _
    cases hmutated : s.mutated with
    | false => exact hmutated
    | true => exact absurd (horder (by rw [hphase]; rfl) hmutated) hread
  | restored i => exact h.goto i (show AttemptPhase.isRestoring (.returned) = false from rfl)

/-- A step in order does not take the row out of `applied`. -/
theorem appliedIsFinal_of_inOrder (upper : String → String)
    {t : AttemptStep} (horder : InOrder s t) : AppliedIsFinal upper s t := by
  intro happlied
  have heffect := attemptStep_effect upper s t
  generalize attemptStep upper s t = s' at heffect
  cases heffect with
  | markedApplying i hphase | markedFailed i hphase =>
    exact absurd happlied (horder (by rw [hphase]; rfl) rfl)
  | markedApplied => rfl
  | called i outcome calls hph => exact (congrArg _ (performCall_row s calls)).trans happlied
  | _ => exact happlied

theorem rollbackSpares_of_restoresUnperformed (upper : String → String)
    (h : RestoresUnperformed s) (t : AttemptStep) : RollbackSpares upper s t := by
  cases t with
  | restore i =>
    intro hchanged
    simp only [attemptStep] at hchanged
    split at hchanged
    · rename_i hphase
      exact h i (by rw [hphase]; rfl)
    · exact absurd rfl hchanged
  | _ => trivial

/-- **Attempts in order are sound.** In every run of any number of attempts whose
steps are in order, `applied` is final and no rollback restores labels of an action
that Gmail has performed. -/
theorem attempts_sound (upper : String → String) (row : PendingThreadAction)
    (messages : List StoredMessage) (steps : List AttemptStep)
    (horder : Along (attemptStep upper) InOrder (AttemptSystem.initial row messages) steps) :
    Along (attemptStep upper) (fun s t => AppliedIsFinal upper s t ∧ RollbackSpares upper s t)
      (AttemptSystem.initial row messages) steps := by
  refine along_of_step (I := RestoresUnperformed) ?_ ?_ horder
  · intro s t hinv hstep
    exact ⟨⟨appliedIsFinal_of_inOrder upper hstep,
      rollbackSpares_of_restoresUnperformed upper hinv t⟩, hinv.step upper hstep⟩
  · intro j hj
    cases hj

/-- Two attempts in order: the Gmail call of the first is refused and its rollback
puts the message back; the second one applies the action. -/
def retriedAttempt : List AttemptStep :=
  [.start 0 none, .lock 0 none, .markApplying 0 none, .resolve 0 [archivedMessage] ["t1"] none,
    .remote 0 (.refused (.http (some 503))), .markFailed 0 none, .rollback 0, .restore 0,
    .start 1 none, .lock 1 none, .markApplying 1 none, .resolve 1 [archivedMessage] ["t1"] none,
    .remote 1 .performed, .markApplied 1 none, .announce 1 none]

theorem attempts_sound_retriedAttempt :
    Along (attemptStep id) InOrder
        (AttemptSystem.initial archivedAction [archivedMessage]) retriedAttempt ∧
      Along (attemptStep id) (fun s t => AppliedIsFinal id s t ∧ RollbackSpares id s t)
        (AttemptSystem.initial archivedAction [archivedMessage]) retriedAttempt := by
  have horder : Along (attemptStep id) InOrder
      (AttemptSystem.initial archivedAction [archivedMessage]) retriedAttempt := by
    refine ⟨trivial, trivial, fun _ _ => by decide, trivial, ?_, fun _ _ => by decide,
      fun _ => by decide, trivial, trivial, trivial, fun _ _ => by decide, trivial, ?_, trivial,
      trivial, trivial⟩
    · intro j
      match j with
      | 0 | _ + 1 => rfl
    · intro j
      match j with
      | 0 | 1 | _ + 2 => rfl
  exact ⟨horder, attempts_sound id archivedAction [archivedMessage] retriedAttempt horder⟩

end ElectronicMail.Actions
