import ElectronicMail.Actions.Record
import ElectronicMail.Foundations.Run

/-!
# Mailbox actions on account-scoped mailboxes

`_apply_action` marks the row `applying`, asks Gmail for the change and marks the row
`applied`; its handler marks it `failed`. All three marks are one `UPDATE` without a
guard on the state, the early return tests a record that was read before the lock,
and the handler also catches what goes wrong after Gmail has done its part.
`applyStep` lets any number of attempts, and any number of replays of
`enqueue_action`, take these steps in any order.

A second attempt that read the row before takes an applied deletion back to
`applying` and, as Gmail does not find the message any more, to `failed`
(`secondDeletion_fails`). `accountAction_iff` says between which writes this happens.
-/

namespace ElectronicMail.Accounts

open Foundations
open Actions (ThreadAction ActionState)

/-! ## The row -/

/-- The columns of `gmail_pending_thread_actions` that the account-scoped path reads
and writes. -/
structure AccountAction where
  mailboxThreadId : String
  targetMessageId : Option String
  action : ThreadAction
  state : ActionState
  error : Option String

/-- The arguments of `create_or_get_action`. -/
structure AccountActionRequest where
  mailboxThreadId : String
  targetMessageId : Option String
  action : ThreadAction

/-- `create_or_get_action`: `ON CONFLICT … DO NOTHING`, and the stored row. -/
def createOrGetAction (stored : Option AccountAction) (request : AccountActionRequest) :
    AccountAction :=
  match stored with
  | some row => row
  | none => ⟨request.mailboxThreadId, request.targetMessageId, request.action, .queued, none⟩

/-- `update_action`; the `UPDATE` has no guard on the state. -/
def updateAction (state : ActionState) (error : Option String) (row : AccountAction) :
    AccountAction :=
  { row with state := state, error := error }

/-- `_safe_operation_error`. -/
def safeActionError : String := "Gmail could not complete this operation. Please try again."

/-! ## Attempts -/

/-- Where an attempt stands: the next statement or call it makes, with the record it
read. -/
inductive ApplyPhase where
  | idle
  | locking (record : AccountAction)
  | marking (record : AccountAction)
  | mutating (record : AccountAction)
  | recording
  | unlocking
  | failing
  | done

/-- What Gmail makes of the request: it is done, done but the answer is lost, or
refused. -/
inductive MutationOutcome where
  | performed
  | answerLost
  | refused

/-- Gmail cannot delete a message again; every other change can be asked for again. -/
def gmailOutcome (performed : Bool) (action : ThreadAction) (outcome : MutationOutcome) :
    MutationOutcome :=
  if action = .deleteForever ∧ performed = true then .refused else outcome

def MutationOutcome.isPerformed : MutationOutcome → Bool
  | .performed => true
  | .answerLost => true
  | .refused => false

/-- Only an answer leads on to the mark `applied`. -/
def afterOutcome : MutationOutcome → ApplyPhase
  | .performed => .recording
  | .answerLost => .failing
  | .refused => .failing

/-- Where an exception leads: into the handler from inside the `try`. -/
def onApplyRaise : ApplyPhase → ApplyPhase
  | .locking _ => .failing
  | .marking _ => .failing
  | .mutating record => .mutating record
  | .recording => .failing
  | .unlocking => .failing
  | .idle => .idle
  | .failing => .done
  | .done => .done

/-- The row of one action, whether Gmail has performed it, and the attempts. -/
structure ApplySystem where
  row : AccountAction
  performed : Bool
  phase : Nat → ApplyPhase

/-- An action as `create_or_get_action` inserts it. -/
def ApplySystem.initial (request : AccountActionRequest) : ApplySystem :=
  ⟨createOrGetAction none request, false, fun _ => .idle⟩

inductive ApplyStep where
  | enqueue (request : AccountActionRequest)
  | start (attempt : Nat)
  | lock (attempt : Nat)
  | markApplying (attempt : Nat)
  | mutate (attempt : Nat) (outcome : MutationOutcome)
  | markApplied (attempt : Nat)
  | unlock (attempt : Nat)
  | markFailed (attempt : Nat)
  | raise (attempt : Nat)
  | stop (attempt : Nat)

/-- Attempt `i` goes on at `ph`. -/
def ApplySystem.goto (s : ApplySystem) (i : Nat) (ph : ApplyPhase) : ApplySystem :=
  { s with phase := Function.update s.phase i ph }

def applyStep (s : ApplySystem) : ApplyStep → ApplySystem
  | .enqueue request => { s with row := createOrGetAction (some s.row) request }
  | .start i =>
    match s.phase i with
    | .idle => s.goto i (if s.row.state = .applied then .done else .locking s.row)
    | _ => s
  | .lock i =>
    match s.phase i with
    | .locking record => s.goto i (.marking record)
    | _ => s
  | .markApplying i =>
    match s.phase i with
    | .marking record =>
      { s.goto i (.mutating record) with row := updateAction .applying none s.row }
    | _ => s
  | .mutate i outcome =>
    match s.phase i with
    | .mutating record =>
      let result := gmailOutcome s.performed record.action outcome
      { s.goto i (afterOutcome result) with performed := s.performed || result.isPerformed }
    | _ => s
  | .markApplied i =>
    match s.phase i with
    | .recording => { s.goto i .unlocking with row := updateAction .applied none s.row }
    | _ => s
  | .unlock i =>
    match s.phase i with
    -- The sync is scheduled and the lock is released.
    | .unlocking => s.goto i .done
    | _ => s
  | .markFailed i =>
    match s.phase i with
    | .failing =>
      { s.goto i .done with row := updateAction .failed (some safeActionError) s.row }
    | _ => s
  | .raise i => s.goto i (onApplyRaise (s.phase i))
  -- The worker dies.
  | .stop i => s.goto i .done

/-! ## The properties -/

def KeepsApplied (s : ApplySystem) (t : ApplyStep) : Prop :=
  s.row.state = .applied → (applyStep s t).row.state = .applied

def DeletionNotFailed (s : ApplySystem) : Prop :=
  s.row.action = .deleteForever → s.performed = true → s.row.state ≠ .failed

instance (s : ApplySystem) (t : ApplyStep) : Decidable (KeepsApplied s t) :=
  inferInstanceAs (Decidable (_ → _))

instance (s : ApplySystem) : Decidable (DeletionNotFailed s) :=
  inferInstanceAs (Decidable (_ → _ → _))

/-- What each statement must not meet: a mark `applying` or `failed` an applied row, a
mark `failed` a deletion that Gmail has performed, and the request for the deletion a
row that another attempt has marked failed since. -/
def MarksInOrder (s : ApplySystem) : ApplyStep → Prop
  | .markApplying i => ∀ record, s.phase i = .marking record → s.row.state ≠ .applied
  | .markFailed i =>
    s.phase i = .failing →
      s.row.state ≠ .applied ∧ ¬(s.row.action = .deleteForever ∧ s.performed = true)
  | .mutate i outcome =>
    ∀ record, s.phase i = .mutating record → record.action = .deleteForever →
      s.performed = false → outcome.isPerformed = true → s.row.state ≠ .failed
  | _ => True

/-! ## What a step can do -/

def ApplyPhase.record? : ApplyPhase → Option AccountAction
  | .locking record => some record
  | .marking record => some record
  | .mutating record => some record
  | _ => none

def HoldsAction (s : ApplySystem) : Prop :=
  ∀ i record, (s.phase i).record? = some record → record.action = s.row.action

theorem holdsAction_initial (request : AccountActionRequest) :
    HoldsAction (.initial request) := fun _ _ h => nomatch h

/-- The effects of a step. Where it writes nothing, it meets the order of the marks. -/
inductive ApplyEffect (s : ApplySystem) : ApplyStep → ApplySystem → Prop where
  | stay (t : ApplyStep) (horder : MarksInOrder s t) : ApplyEffect s t s
  | move (t : ApplyStep) (i : Nat) (ph : ApplyPhase) (horder : MarksInOrder s t)
      (hheld : ∀ record, ph.record? = some record →
        (s.phase i).record? = some record ∨ record = s.row) :
      ApplyEffect s t (s.goto i ph)
  | applying {i : Nat} {record : AccountAction} (hph : s.phase i = .marking record) :
      ApplyEffect s (.markApplying i)
        { s.goto i (.mutating record) with row := updateAction .applying none s.row }
  | mutate {i : Nat} {record : AccountAction} (hph : s.phase i = .mutating record)
      (outcome : MutationOutcome) (ph : ApplyPhase) (hnone : ph.record? = none) :
      ApplyEffect s (.mutate i outcome)
        { s.goto i ph with
          performed := s.performed || (gmailOutcome s.performed record.action outcome).isPerformed }
  | applied {i : Nat} (hph : s.phase i = .recording) :
      ApplyEffect s (.markApplied i)
        { s.goto i .unlocking with row := updateAction .applied none s.row }
  | failed {i : Nat} (hph : s.phase i = .failing) :
      ApplyEffect s (.markFailed i)
        { s.goto i .done with row := updateAction .failed (some safeActionError) s.row }

/-- **The step lemma.** -/
theorem applyStep_effect (s : ApplySystem) (t : ApplyStep) : ApplyEffect s t (applyStep s t) := by
  cases t with
  | enqueue => exact .stay _ trivial
  | start i =>
    cases hph : s.phase i with
    | idle =>
      simp only [applyStep, hph]
      refine .move _ i _ trivial fun record hrecord => Or.inr ?_
      split at hrecord
      · cases hrecord
      · exact (Option.some.inj hrecord).symm
    | _ => simpa only [applyStep, hph] using .stay _ trivial
  | lock i =>
    cases hph : s.phase i with
    | locking =>
      simp only [applyStep, hph]
      exact .move _ i _ trivial fun _ hrecord => Or.inl (hph ▸ hrecord)
    | _ => simpa only [applyStep, hph] using .stay _ trivial
  | markApplying i =>
    cases hph : s.phase i with
    | marking =>
      simp only [applyStep, hph]
      exact .applying hph
    | _ => simpa only [applyStep, hph] using .stay _ (fun _ h => by simp [hph] at h)
  | mutate i outcome =>
    cases hph : s.phase i with
    | mutating record =>
      simp only [applyStep, hph]
      apply ApplyEffect.mutate hph
      cases gmailOutcome s.performed record.action outcome <;> rfl
    | _ => simpa only [applyStep, hph] using .stay _ (fun _ h => by simp [hph] at h)
  | markApplied i =>
    cases hph : s.phase i with
    | recording =>
      simp only [applyStep, hph]
      exact .applied hph
    | _ => simpa only [applyStep, hph] using .stay _ trivial
  | unlock i =>
    cases hph : s.phase i with
    | unlocking =>
      simp only [applyStep, hph]
      exact .move _ i _ trivial nofun
    | _ => simpa only [applyStep, hph] using .stay _ trivial
  | markFailed i =>
    cases hph : s.phase i with
    | failing =>
      simp only [applyStep, hph]
      exact .failed hph
    | _ => simpa only [applyStep, hph] using .stay _ (fun h => by simp [hph] at h)
  | raise i =>
    refine .move (.raise i) i _ trivial fun record hrecord => Or.inl ?_
    cases hph : s.phase i with
    | mutating _ =>
      rw [hph] at hrecord
      exact hrecord
    | _ =>
      rw [hph] at hrecord
      cases hrecord
  | stop i => exact .move _ i _ trivial nofun

theorem holdsAction_step {s : ApplySystem} (hs : HoldsAction s) (t : ApplyStep) :
    HoldsAction (applyStep s t) := by
  have hmoved : ∀ (i : Nat) (ph : ApplyPhase), (∀ record, ph.record? = some record →
      (s.phase i).record? = some record ∨ record = s.row) → HoldsAction (s.goto i ph) := by
    intro i ph hheld j record hrecord
    by_cases hji : j = i
    · subst hji
      simp only [ApplySystem.goto, Function.update_self] at hrecord
      rcases hheld record hrecord with h | rfl
      · exact hs j record h
      · rfl
    · simp only [ApplySystem.goto, Function.update_of_ne hji] at hrecord
      exact hs j record hrecord
  have heffect := applyStep_effect s t
  generalize applyStep s t = s' at heffect
  cases heffect with
  | stay => exact hs
  | move _ i ph _ hheld => exact hmoved i ph hheld
  | @applying i record hph =>
    exact hmoved i (.mutating record) fun r hr => Or.inl (by rw [hph]; exact hr)
  | @mutate i record hph outcome ph hnone =>
    exact hmoved i ph fun r hr => absurd (hnone.symm.trans hr) (nofun)
  | @applied i hph => exact hmoved i .unlocking nofun
  | @failed i hph => exact hmoved i .done nofun

/-! ## One step -/

/-- Between states in which no performed deletion shows as failed, the step keeps what
is applied and performed exactly when its mark is in order. -/
theorem marksInOrder_iff {s : ApplySystem} (hs : HoldsAction s) (hdeleted : DeletionNotFailed s)
    (t : ApplyStep) :
    KeepsApplied s t ∧ DeletionNotFailed (applyStep s t) ↔ MarksInOrder s t := by
  unfold KeepsApplied
  have heffect := applyStep_effect s t
  generalize applyStep s t = s' at heffect
  cases heffect with
  | stay _ horder | move _ i ph horder => exact ⟨fun _ => horder, fun _ => ⟨id, hdeleted⟩⟩
  | @applying i record hph =>
    constructor
    · rintro ⟨hkeeps, -⟩ record' - happlied
      exact absurd (hkeeps happlied) (by simp [updateAction])
    · intro horder
      exact ⟨fun happlied => absurd happlied (horder record hph), fun _ _ => by simp [updateAction]⟩
  | @mutate i record hph outcome ph hnone =>
    have haction : record.action = s.row.action := hs i record (by rw [hph]; rfl)
    constructor
    · rintro ⟨-, hnext⟩ record' hph' hdelete hfresh hperformed
      obtain rfl := ApplyPhase.mutating.inj (hph.symm.trans hph')
      exact hnext (haction ▸ hdelete) (by simp [gmailOutcome, hfresh, hperformed])
    · refine fun horder => ⟨id, fun hdelete hdone => ?_⟩
      cases hfresh : s.performed with
      | true => exact hdeleted hdelete hfresh
      | false =>
        -- The deletion is performed by this very request.
        refine horder record hph (haction.trans hdelete) hfresh ?_
        simpa [gmailOutcome, hfresh] using hdone
  | applied hph =>
    exact ⟨fun _ => trivial, fun _ => ⟨fun _ => rfl, fun _ _ => by simp [updateAction]⟩⟩
  | @failed i hph =>
    constructor
    · rintro ⟨hkeeps, hnext⟩ -
      exact ⟨fun happlied => absurd (hkeeps happlied) (by simp [updateAction]),
        fun h => hnext h.1 h.2 rfl⟩
    · intro horder
      obtain ⟨happlied, hperformed⟩ := horder hph
      exact ⟨fun h => absurd h happlied, fun hdelete hdone => absurd ⟨hdelete, hdone⟩ hperformed⟩

/-! ## Runs -/

/-- **Account-scoped actions, exactly.** Over every interleaving of attempts and
replays, an applied action stays applied and a deletion that Gmail has performed never
shows as failed, if and only if every mark of the run is in order. -/
theorem accountAction_iff (request : AccountActionRequest) (steps : List ApplyStep) :
    (Along applyStep KeepsApplied (.initial request) steps ∧
        Throughout applyStep DeletionNotFailed (.initial request) steps) ↔
      Along applyStep MarksInOrder (.initial request) steps := by
  have hruns : ∀ s, HoldsAction s → DeletionNotFailed s →
      ((Along applyStep KeepsApplied s steps ∧ Throughout applyStep DeletionNotFailed s steps) ↔
        Along applyStep MarksInOrder s steps) := by
    induction steps with
    | nil => exact fun s _ hdeleted => ⟨fun _ => trivial, fun _ => ⟨trivial, hdeleted⟩⟩
    | cons t steps ih =>
      intro s hs hdeleted
      have hstep := marksInOrder_iff hs hdeleted t
      constructor
      · rintro ⟨⟨hkeeps, hkeeps'⟩, -, hrest⟩
        have hnext : DeletionNotFailed (applyStep s t) := by
          cases steps with
          | nil => exact hrest
          | cons => exact hrest.1
        exact ⟨hstep.1 ⟨hkeeps, hnext⟩, (ih _ (holdsAction_step hs t) hnext).1 ⟨hkeeps', hrest⟩⟩
      · rintro ⟨horder, hrest⟩
        obtain ⟨hkeeps, hnext⟩ := hstep.2 horder
        obtain ⟨hkeeps', hdeleted'⟩ := (ih _ (holdsAction_step hs t) hnext).2 hrest
        exact ⟨⟨hkeeps, hkeeps'⟩, hdeleted, hdeleted'⟩
  exact hruns _ (holdsAction_initial request) fun _ h => nomatch h

/-! ## A second attempt -/

def deleteRequest : AccountActionRequest := ⟨"t1", some "m1", .deleteForever⟩

/-- Two attempts read the queued row. The first deletes the message and marks the row
applied; the second marks it applying, and Gmail does not find the message. -/
def secondDeletion : List ApplyStep :=
  [.start 0, .start 1, .lock 0, .lock 1, .markApplying 0, .mutate 0 .performed, .markApplied 0,
    .markApplying 1, .mutate 1 .performed, .markFailed 1]

/-- The deletion is no longer applied, and then it shows as failed. -/
theorem secondDeletion_fails :
    ¬ Along applyStep KeepsApplied (.initial deleteRequest) secondDeletion ∧
      ¬ Throughout applyStep DeletionNotFailed (.initial deleteRequest) secondDeletion := by
  constructor
  · decide +kernel
  · intro h
    exact absurd h.last (by decide +kernel)

end ElectronicMail.Accounts
