import ElectronicMail.Foundations.Run
import ElectronicMail.Foundations.Table
import ElectronicMail.Sends.PendingSend

/-!
# Concurrent executions on one pending send

Any number of executions of `_send_or_queue` and `run_pending_send` work on one
row. A label is one committed statement, one Gmail call, one answer of Gmail or
one crash of one execution; a label that the execution is not at changes nothing,
so that every list of labels is an interleaving. Answers of Gmail are arbitrary.

`SendSystem` keeps, besides the row and the points of the executions, the log of
the calls of `send_gmail_raw_message`, the latest first, and the execution that
made the latest claim.
-/

namespace ElectronicMail.Sends

open Foundations.Table

/-- A call of `send_gmail_raw_message`, with its outcome once Gmail has answered. -/
structure SendCall where
  exec : Nat
  content : SendContent
  outcome : Option CallOutcome

def SendCall.isNonDelivery (c : SendCall) : Bool :=
  c.outcome.any CallOutcome.isNonDelivery

/-- The row, the executions, the calls made so far and the owner of the latest
claim. -/
structure SendSystem where
  row : PendingSend
  phase : Nat → Phase
  calls : List SendCall
  owner : Option Nat

def SendSystem.initial (gmailThreadId : Option String) (content : SendContent) : SendSystem :=
  ⟨PendingSend.new gmailThreadId content, fun _ => .idle, [], none⟩

inductive SendStep where
  | start (exec : Nat) (entry : EntryPoint)
  | reread (exec : Nat)
  | search (exec : Nat) (outcome : SearchOutcome)
  | prepare (exec : Nat)
  | claim (exec : Nat)
  | call (exec : Nat)
  | answer (exec : Nat) (outcome : CallOutcome)
  | markSent (exec : Nat)
  | markFailed (exec : Nat)
  | stop (exec : Nat)

def SendStep.exec : SendStep → Nat
  | .start i _ => i
  | .reread i => i
  | .search i _ => i
  | .prepare i => i
  | .claim i => i
  | .call i => i
  | .answer i _ => i
  | .markSent i => i
  | .markFailed i => i
  | .stop i => i

/-- Execution `i` goes on at `ph`. -/
def SendSystem.goto (s : SendSystem) (i : Nat) (ph : Phase) : SendSystem :=
  { s with phase := Function.update s.phase i ph }

def sendStep (s : SendSystem) : SendStep → SendSystem
  | .start i entry =>
    match s.phase i with
    | .idle => s.goto i (enter entry s.row)
    | _ => s
  | .reread i =>
    match s.phase i with
    | .entered _ => s.goto i (afterReread s.row)
    | _ => s
  | .search i outcome =>
    match s.phase i with
    | .searching current => s.goto i (afterSearch current outcome)
    | _ => s
  | .prepare i =>
    match s.phase i with
    -- The raw message is built and the safety-net job is committed.
    | .preparing current => s.goto i (.claiming current)
    | _ => s
  | .claim i =>
    match s.phase i with
    | .claiming _ =>
      match claimPendingSend s.row with
      | some row => { s.goto i (.calling row) with row := row, owner := some i }
      | none => s.goto i .done
    | _ => s
  | .call i =>
    match s.phase i with
    | .calling sending =>
      { s.goto i (.awaiting sending) with calls := ⟨i, sending.content, none⟩ :: s.calls }
    | _ => s
  | .answer i outcome =>
    match s.phase i with
    | .awaiting sending =>
      { s.goto i (afterCall sending outcome) with
        calls := updateWhere (fun c => decide (c.exec = i))
          (fun c => { c with outcome := some outcome }) s.calls }
    | _ => s
  | .markSent i =>
    match s.phase i with
    | .finalizing record result =>
      { s.goto i .done with row := finalizeSentMessage record result s.row }
    | _ => s
  | .markFailed i =>
    match s.phase i with
    | .failing _ error => { s.goto i .done with row := markPendingSendFailed error s.row }
    | _ => s
  -- A crash, or an exception that no handler turns into a write.
  | .stop i => s.goto i .done

section

variable (s : SendSystem) (i : Nat) (ph : Phase)

@[simp] theorem goto_row : (s.goto i ph).row = s.row := rfl

@[simp] theorem goto_calls :
    (s.goto i ph).calls = s.calls := rfl

@[simp] theorem goto_owner :
    (s.goto i ph).owner = s.owner := rfl

@[simp] theorem goto_phase_self :
    (s.goto i ph).phase i = ph := by
  show Function.update s.phase i ph i = ph
  exact Function.update_self i ph s.phase

end

theorem goto_phase_of_ne (s : SendSystem) {i j : Nat} (ph : Phase) (h : j ≠ i) :
    (s.goto i ph).phase j = s.phase j := by
  show Function.update s.phase i ph j = s.phase j
  exact Function.update_of_ne h ph s.phase

end ElectronicMail.Sends
