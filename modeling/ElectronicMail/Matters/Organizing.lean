import ElectronicMail.Matters.AiJobs
import ElectronicMail.Matters.Members
import ElectronicMail.Matters.Semantics

/-!
# Organizing a message

A worker that runs an `ai_message_organize` job takes the row of the message, lets the
models work on its text, writes the semantics and then the assignment to a matter. Each of
these is a transaction of its own, and a row that is `ready` for the same text is not taken
again: who dies after the semantics and before the assignment leaves a message that no
later attempt puts into a matter.

`message_organized` says for exactly which runs, with any number of workers, jobs, crashes
and retries, every message that has been processed has a matter, and every failure leaves
something that the next attempt completes.
-/

namespace ElectronicMail.Matters

open Foundations.Table
open Jobs (JobStatus)

/-! ## Workers -/

/-- How far an execution of `organize_message` has got. -/
inductive OrganizeStage where
  | claimed
  | read (reading : Reading)
  | begun (reading : Reading)
  | completed
  | assigned
  | returned
  deriving DecidableEq

/-- The execution has called `begin_message_processing` and can record that it fails. -/
def OrganizeStage.isGuarded : OrganizeStage → Bool
  | .begun _ | .completed | .assigned => true
  | .claimed | .read _ | .returned => false

def OrganizeStage.isOver : OrganizeStage → Bool
  | .assigned | .returned => true
  | .claimed | .read _ | .begun _ | .completed => false

/-- A worker that runs `organize_message`. -/
structure Organizer where
  id : Nat
  jobId : Nat
  generationId : Nat
  messageId : Nat
  stage : OrganizeStage

/-- The tables, the texts of the messages, the workers under way, and who holds the lease of
a job. -/
structure Organizing where
  tables : Tables
  texts : Nat → Reading
  organizers : List Organizer
  holders : Nat → Option Nat

/-- What happens next. `fails` is an exception that has been recorded, `dies` a worker that
stops without a record, with or without a report to the queue. -/
inductive OrganizingLabel where
  | enqueues (generationId messageId contentRevision : Nat)
  | revises (messageId : Nat) (normalizedSha256 : String)
  | claims (k jobId : Nat)
  | reads (k : Nat)
  | returns (k : Nat)
  | begins (k : Nat)
  | completes (k : Nat)
  | assigns (k : Nat) (a : Assignment) (locked : Option Nat)
  | ends (k : Nat)
  | fails (k : Nat) (requeue : Bool)
  | dies (k : Nat) (reported : Option Bool)
  | decide (u : UserDecision)
  | mergeReconciled (generationId sourceMatterId targetMatterId : Nat) (status : MatterStatus)

def Organizing.organizer (w : Organizing) (k : Nat) : Option Organizer :=
  w.organizers.find? fun o => o.id == k

def Organizing.goOn (w : Organizing) (k : Nat) (stage : OrganizeStage) : List Organizer :=
  updateWhere (fun o => o.id == k) (fun o => { o with stage := stage }) w.organizers

def Organizing.without (w : Organizing) (k : Nat) : List Organizer :=
  w.organizers.filter fun o => o.id != k

/-- The worker reports to the queue, which listens to it while it holds the lease. -/
def Organizing.report (w : Organizing) (o : Organizer) (status : JobStatus) (s : Tables) : Tables :=
  if w.holders o.jobId = some o.id then closeJob o.jobId status s else s

def Organizer.assignment (o : Organizer) (a : Assignment) : Assignment :=
  { a with generationId := o.generationId, messageId := o.messageId }

def Organizing.step (w : Organizing) : OrganizingLabel → Organizing
  | .enqueues g x revision =>
    -- A job is enqueued for a revision that has been read.
    if revision ≤ (w.texts x).contentRevision then
      { w with tables := enqueueAiJob g (.organize x revision) w.tables }
    else w
  | .revises x hash =>
    { w with texts := Function.update w.texts x ⟨(w.texts x).contentRevision + 1, hash⟩ }
  | .claims k jobId =>
    match w.organizer k, w.tables.jobs.find? fun j => j.id == jobId && j.status.isActive with
    | none, some ⟨_, .organize x _, g, _⟩ =>
      { w with
        tables := startJob jobId w.tables
        organizers := ⟨k, jobId, g, x, .claimed⟩ :: w.organizers
        holders := Function.update w.holders jobId (some k) }
    | _, _ => w
  | .reads k =>
    match w.organizer k with
    | some ⟨_, _, _, x, .claimed⟩ =>
      if w.tables.messages.any fun m => m.messageId == x then
        { w with organizers := w.goOn k (.read (w.texts x)) }
      else { w with organizers := w.goOn k .returned }
    | _ => w
  | .returns k =>
    match w.organizer k with
    | some ⟨_, _, _, _, .claimed⟩ => { w with organizers := w.goOn k .returned }
    | _ => w
  | .begins k =>
    match w.organizer k with
    | some ⟨_, _, g, x, .read reading⟩ =>
      match beginMessageProcessing g x reading w.tables with
      | none => w
      | some (s, true) => { w with tables := s, organizers := w.goOn k (.begun reading) }
      | some (s, false) => { w with tables := s, organizers := w.goOn k .returned }
    | _ => w
  | .completes k =>
    match w.organizer k with
    | some ⟨_, _, g, x, .begun reading⟩ =>
      { w with
        tables := completeMessageSemantics g x reading w.tables
        organizers := w.goOn k .completed }
    | _ => w
  | .assigns k a locked =>
    match w.organizer k with
    | some o =>
      if o.stage = .completed then
        match writeAssignment (o.assignment a) locked w.tables with
        | none => w
        | some s => { w with tables := s, organizers := w.goOn k .assigned }
      else w
    | none => w
  | .ends k =>
    match w.organizer k with
    | some o =>
      if o.stage.isOver then
        { w with
          tables := w.report o .succeeded w.tables
          organizers := w.without k }
      else w
    | none => w
  | .fails k requeue =>
    match w.organizer k with
    | some o =>
      if o.stage.isGuarded then
        { w with
          tables := w.report o (failedStatus requeue)
            (failMessageSemantics o.generationId o.messageId w.tables)
          organizers := w.without k }
      else w
    | none => w
  | .dies k reported =>
    match w.organizer k with
    | some o =>
      { w with
        tables := match reported with
          | none => w.tables
          | some requeue => w.report o (failedStatus requeue) w.tables
        organizers := w.without k }
    | none => w
  | .decide u => { w with tables := applyUserDecision u w.tables }
  | .mergeReconciled g source target status =>
    { w with tables := mergeReconciledMatters g source target status w.tables }

/-! ## The law -/

def Tables.Placed (s : Tables) (generationId messageId : Nat) : Prop :=
  ∃ r ∈ s.members, r.isOf generationId messageId = true ∧
    ∀ r' ∈ s.members, r'.isOf generationId messageId = true → r' = r

def Tables.hasMember (s : Tables) (generationId messageId : Nat) : Bool :=
  s.members.any (Member.isOf generationId messageId)

/-- A whole attempt: all the transactions of `organize_message`, one after the other. -/
def attempt (generationId messageId : Nat) (reading : Reading) (a : Assignment) (s : Tables) :
    Tables :=
  match beginMessageProcessing generationId messageId reading s with
  | none => s
  | some (begun, false) => begun
  | some (begun, true) =>
    let completed := completeMessageSemantics generationId messageId reading begun
    (applyMatterAssignment { a with generationId := generationId, messageId := messageId }
      completed).getD completed

def Organizing.Settled (w : Organizing) (generationId messageId : Nat) : Prop :=
  w.tables.DoneWith generationId (.organize messageId (w.texts messageId).contentRevision)

instance (w : Organizing) (generationId messageId : Nat) :
    Decidable (w.Settled generationId messageId) :=
  inferInstanceAs (Decidable (Tables.DoneWith _ _ _))

/-- Some worker is between the semantics and the assignment of the message. -/
def Organizing.IsAssigning (w : Organizing) (generationId messageId : Nat) : Prop :=
  ∃ o ∈ w.organizers, o.generationId = generationId ∧ o.messageId = messageId ∧ o.stage = .completed

/-- Every processed message has a matter, and what nobody is about to assign is completed by
the next attempt, whatever text it reads and whatever the models answer. -/
structure Organized (w : Organizing) : Prop where
  placed : ∀ g x, w.Settled g x → ∀ r ∈ w.tables.semantics, r.isOf g x = true →
    r.processingState = .ready → w.tables.Placed g x
  resumable : ∀ g x, ¬ w.IsAssigning g x → w.tables.hasText g x = true →
    ∀ (reading : Reading) (a : Assignment),
      (∀ t ∈ a.selectedMatterId, w.tables.matters.any (Matter.is g t) = true) →
        (attempt g x reading a w.tables).Placed g x

def Tables.Waits (s : Tables) (generationId messageId : Nat) : Prop :=
  (∃ r ∈ s.semantics, r.isOf generationId messageId = true ∧ r.processingState = .ready) ∧
    s.hasMember generationId messageId = false

/-- A worker that completes a message that is no member finds a row without it, or a job for
the current revision that is under way or has not succeeded. -/
def CompletesOpen (w : Organizing) (k : Nat) : Prop :=
  ∀ o ∈ w.organizer k, (∃ reading, o.stage = .begun reading) →
    (∃ r ∈ w.tables.semantics, r.isOf o.generationId o.messageId = true) →
      w.tables.hasMember o.generationId o.messageId = false → ¬ w.Settled o.generationId o.messageId

/-- The worker holds a running job for the current revision of its message. -/
def Organizing.HoldsCurrent (w : Organizing) (o : Organizer) : Prop :=
  w.holders o.jobId = some o.id ∧ ∃ j ∈ w.tables.jobs, j.id = o.jobId ∧ j.status = .running ∧
    j.kind = .organize o.messageId (w.texts o.messageId).contentRevision

/-- No job for the current revision succeeds while another worker is about to assign the
message. -/
def EndsAfter (w : Organizing) (k : Nat) : Prop :=
  ∀ o ∈ w.organizer k, o.stage.isOver = true → w.HoldsCurrent o →
    w.IsAssigning o.generationId o.messageId → ¬ w.tables.Waits o.generationId o.messageId

/-- A worker that dies between the semantics and the assignment leaves a member, a row that
is not ready, or another worker at the same point. -/
def DiesPlaced (w : Organizing) (k : Nat) : Prop :=
  ∀ o ∈ w.organizer k, o.stage = .completed → w.tables.Waits o.generationId o.messageId →
    ∃ o' ∈ w.without k, o'.generationId = o.generationId ∧ o'.messageId = o.messageId ∧
      o'.stage = .completed

def KeepsPlaced (w : Organizing) : OrganizingLabel → Prop
  | .completes k => CompletesOpen w k
  | .ends k => EndsAfter w k
  | .dies k _ => DiesPlaced w k
  | .enqueues _ _ _ => True
  | .revises _ _ => True
  | .claims _ _ => True
  | .reads _ => True
  | .returns _ => True
  | .begins _ => True
  | .assigns _ _ _ => True
  | .fails _ _ => True
  | .decide _ => True
  | .mergeReconciled _ _ _ _ => True

end ElectronicMail.Matters
