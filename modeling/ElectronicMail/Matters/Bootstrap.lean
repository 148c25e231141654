import Mathlib.Data.List.Sort
import ElectronicMail.Matters.AiJobs
import ElectronicMail.Matters.Semantics

/-!
# The bootstrap of a generation

A generation that is built anew enumerates the mailbox in pages of 250 messages, each page
a job that enqueues one `ai_message_organize` job for every message it lists, then the next
page and a finalize job. The pages are read with `OFFSET` over the messages that have not
been processed, which become fewer while the jobs of earlier pages run, and a finalize job
promotes the generation when it counts no message job, whatever pages are still to come.

`promotion_complete` says what has to hold where a page is read and where the jobs are
counted for a promoted generation to be complete.
-/

namespace ElectronicMail.Matters

open Foundations.Table
open Jobs (JobStatus)

/-! ## The listing -/

/-- What a page reads of a row of `gmail_messages`. `fetched` says that the body is fetched
or unavailable, `excluded` that the message is spam, trash or a draft. -/
structure MailRow where
  messageId : Nat
  date : Nat
  contentRevision : Nat
  fetched : Bool
  excluded : Bool

def MailRow.isEligible (m : MailRow) : Bool := m.fetched && !m.excluded

/-- `ORDER BY date ASC, message_id`. -/
def MailRow.le (m m' : MailRow) : Prop :=
  m.date < m'.date ∨ (m.date = m'.date ∧ m.messageId ≤ m'.messageId)

instance : DecidableRel MailRow.le := fun _ _ => inferInstanceAs (Decidable (_ ∨ _ ∧ _))

/-- The message has no semantics in the generation, those of another revision, or has
failed. -/
def Tables.isUnprocessed (s : Tables) (generationId : Nat) (m : MailRow) : Bool :=
  (s.semantics.find? (Semantics.isOf generationId m.messageId)).all fun r =>
    r.contentRevision != m.contentRevision || r.processingState == .failed

/-- `list_generation_message_ids` of all history, without its limit and offset. -/
def listGenerationMessageIds (generationId : Nat) (mail : List MailRow) (s : Tables) :
    List (Nat × Nat) :=
  ((mail.filter fun m => m.isEligible && s.isUnprocessed generationId m).insertionSort
    MailRow.le).map fun m => (m.messageId, m.contentRevision)

def AiJobKind.isOrganize : AiJobKind → Bool
  | .organize _ _ => true
  | .bootstrap _ | .finalize => false

def countGenerationJobs (generationId : Nat) (s : Tables) : Nat :=
  s.jobs.countP fun j =>
    j.generationId == generationId && j.kind.isOrganize && j.status.isActive

/-! ## Workers -/

def pageSize : Nat := 250

/-- How far a worker has got with `run_generation_bootstrap` or `finalize_generation`. -/
inductive PagerStage where
  | opened (offset : Nat)
  | enqueuing (offset : Nat) (isFull : Bool) (rest : List (Nat × Nat))
  | continued
  | finalizing
  | counted
  | finished
  deriving DecidableEq

structure Pager where
  id : Nat
  jobId : Nat
  stage : PagerStage
  deriving DecidableEq

/-- The tables, the mailbox and the workers. `steady` are the messages that have been
eligible since the start, with their revisions, and `enumerated` those that some page has
listed. `covered` says that a page that was not full has been enqueued to its end. -/
structure Bootstrapping where
  tables : Tables
  mail : List MailRow
  pagers : List Pager
  steady : List (Nat × Nat)
  enumerated : List Nat
  covered : Bool
  promoted : Bool

/-- What happens next. The labels from `starts` on are about the jobs for single messages,
whose workers write semantics, enqueue a finalize job of their own (`debounces`) and report
how it went. -/
inductive BootstrapLabel where
  | claims (k jobId : Nat)
  | pages (k : Nat)
  | enqueues (k : Nat)
  | continues (k : Nat)
  | schedules (k : Nat)
  | counts (k : Nat)
  | promotes (k : Nat)
  | ends (k : Nat)
  | dies (k : Nat) (reported : Option Bool)
  | starts (jobId : Nat)
  | begins (jobId : Nat) (reading : Reading)
  | completes (jobId : Nat) (reading : Reading)
  | fails (jobId : Nat)
  | debounces (jobId : Nat)
  | closes (jobId : Nat) (status : JobStatus)
  | mails (mail : List MailRow)

def Bootstrapping.pager (w : Bootstrapping) (k : Nat) : Option Pager :=
  w.pagers.find? fun p => p.id == k

def Bootstrapping.goOn (w : Bootstrapping) (k : Nat) (stage : PagerStage) : List Pager :=
  updateWhere (fun p => p.id == k) (fun p => { p with stage := stage }) w.pagers

/-- `enqueue_job` without a dedupe key. -/
def insertAiJob (generationId : Nat) (kind : AiJobKind) (s : Tables) : Tables :=
  { s with jobs := s.jobs ++ [⟨s.nextId, kind, generationId, .queued⟩], nextId := s.nextId + 1 }

def Tables.organizeJob (s : Tables) (jobId : Nat) : Option (Nat × Nat) :=
  (s.jobs.find? fun j => j.id == jobId).bind fun j =>
    match j.kind with
    | .organize x _ => some (j.generationId, x)
    | .bootstrap _ | .finalize => none

def AiJobKind.firstStage : AiJobKind → Option PagerStage
  | .bootstrap offset => some (.opened offset)
  | .finalize => some .finalizing
  | .organize _ _ => none

def hasEligible (mail : List MailRow) (y : Nat × Nat) : Bool :=
  mail.any fun m => m.messageId == y.1 && m.contentRevision == y.2 && m.isEligible

def Tables.isLive (s : Tables) (generationId : Nat) : Bool :=
  s.generations.any fun g => g.id == generationId && g.status.isLive

/-- A step of the bootstrap of a generation. Who works on a job for a single message may
run any of its transactions at any time, also after losing the job. -/
def Bootstrapping.step (generationId : Nat) (w : Bootstrapping) : BootstrapLabel → Bootstrapping
  | .claims k jobId =>
    match w.pager k, w.tables.jobs.find? fun j => j.id == jobId && j.status.isActive with
    | none, some j =>
      match j.kind.firstStage with
      | some stage =>
        if j.generationId = generationId then
          { w with
            tables := startJob jobId w.tables
            pagers := ⟨k, jobId, stage⟩ :: w.pagers }
        else w
      | none => w
    | _, _ => w
  | .pages k =>
    match w.pager k with
    | some ⟨_, _, .opened offset⟩ =>
      if w.tables.isLive generationId then
        let page := ((listGenerationMessageIds generationId w.mail w.tables).drop offset).take
          pageSize
        { w with
          pagers := w.goOn k (.enqueuing offset (page.length == pageSize) page)
          enumerated := w.enumerated ++ page.map Prod.fst }
      else { w with pagers := w.goOn k .finished }
    | _ => w
  | .enqueues k =>
    match w.pager k with
    | some ⟨_, _, .enqueuing offset isFull ((x, revision) :: rest)⟩ =>
      { w with
        tables := enqueueAiJob generationId (.organize x revision) w.tables
        pagers := w.goOn k (.enqueuing offset isFull rest) }
    | _ => w
  | .continues k =>
    match w.pager k with
    | some ⟨_, _, .enqueuing offset true []⟩ =>
      { w with
        tables := enqueueAiJob generationId (.bootstrap (offset + pageSize)) w.tables
        pagers := w.goOn k .continued }
    | some ⟨_, _, .enqueuing _ false []⟩ =>
      { w with pagers := w.goOn k .continued, covered := true }
    | _ => w
  | .schedules k =>
    match w.pager k with
    | some ⟨_, _, .continued⟩ =>
      { w with
        tables := insertAiJob generationId .finalize w.tables
        pagers := w.goOn k .finished }
    | _ => w
  | .counts k =>
    match w.pager k with
    | some ⟨_, _, .finalizing⟩ =>
      if countGenerationJobs generationId w.tables = 0 then
        { w with pagers := w.goOn k .counted }
      else
        { w with
          tables := insertAiJob generationId .finalize w.tables
          pagers := w.goOn k .finished }
    | _ => w
  | .promotes k =>
    match w.pager k, w.tables.generations.find? fun g => g.id == generationId with
    | some ⟨_, _, .counted⟩, some g =>
      { w with
        tables := finalizeGeneration g.status generationId w.tables
        pagers := w.goOn k .finished
        promoted := w.promoted || g.status == .building }
    | some ⟨_, _, .counted⟩, none => { w with pagers := w.goOn k .finished }
    | _, _ => w
  | .ends k =>
    match w.pager k with
    | some ⟨_, jobId, .finished⟩ =>
      { w with
        tables := closeJob jobId .succeeded w.tables
        pagers := w.pagers.filter fun p => p.id != k }
    | _ => w
  | .dies k reported =>
    match w.pager k with
    | some p =>
      { w with
        tables := match reported with
          | none => w.tables
          | some requeue => closeJob p.jobId (failedStatus requeue) w.tables
        pagers := w.pagers.filter fun p => p.id != k }
    | none => w
  | .starts jobId =>
    if (w.tables.organizeJob jobId).isSome then { w with tables := startJob jobId w.tables }
    else w
  | .begins jobId reading =>
    match w.tables.organizeJob jobId with
    | some (g, x) =>
      { w with
        tables := ((beginMessageProcessing g x reading w.tables).map Prod.fst).getD w.tables }
    | none => w
  | .completes jobId reading =>
    match w.tables.organizeJob jobId with
    | some (g, x) => { w with tables := completeMessageSemantics g x reading w.tables }
    | none => w
  | .fails jobId =>
    match w.tables.organizeJob jobId with
    | some (g, x) => { w with tables := failMessageSemantics g x w.tables }
    | none => w
  | .debounces jobId =>
    match w.tables.organizeJob jobId with
    | some (g, _) => { w with tables := insertAiJob g .finalize w.tables }
    | none => w
  | .closes jobId status =>
    if (w.tables.organizeJob jobId).isSome then
      { w with tables := closeJob jobId status w.tables }
    else w
  | .mails mail => { w with mail := mail, steady := w.steady.filter (hasEligible mail) }

/-! ## The law -/

def AiJobKind.isFor (messageId : Nat) : AiJobKind → Bool
  | .organize x _ => x == messageId
  | .bootstrap _ | .finalize => false

def Tables.hasJob (s : Tables) (generationId messageId : Nat) : Bool :=
  s.jobs.any fun j => j.generationId == generationId && j.kind.isFor messageId

def Tables.hasEnded (s : Tables) (generationId messageId : Nat) : Bool :=
  s.jobs.any fun j =>
    j.generationId == generationId && j.kind.isFor messageId && !j.status.isActive

/-- When the generation has been promoted, every message that has been eligible since the
start has been listed by some page, and a job for it has run to an end. -/
def Bootstrapping.IsComplete (generationId : Nat) (w : Bootstrapping) : Prop :=
  w.promoted = true → ∀ y ∈ w.steady, y.1 ∈ w.enumerated ∧ w.tables.hasEnded generationId y.1 = true

/-- The page skips no message that has been eligible since the start, unless the message has
a job. -/
def SkipsEnqueued (generationId : Nat) (w : Bootstrapping) (k : Nat) : Prop :=
  ∀ p ∈ w.pager k, ∀ offset, p.stage = .opened offset →
    ∀ y ∈ (listGenerationMessageIds generationId w.mail w.tables).take offset, y ∈ w.steady →
      w.tables.hasJob generationId y.1 = true

/-- The jobs are counted to nothing only after the last page has been enqueued. -/
def CountsCovered (generationId : Nat) (w : Bootstrapping) (k : Nat) : Prop :=
  ∀ p ∈ w.pager k, p.stage = .finalizing → countGenerationJobs generationId w.tables = 0 →
    w.covered = true

def KeepsComplete (generationId : Nat) (w : Bootstrapping) : BootstrapLabel → Prop
  | .pages k => SkipsEnqueued generationId w k
  | .counts k => CountsCovered generationId w k
  | .claims _ _ => True
  | .enqueues _ => True
  | .continues _ => True
  | .schedules _ => True
  | .promotes _ => True
  | .ends _ => True
  | .dies _ _ => True
  | .starts _ => True
  | .begins _ _ => True
  | .completes _ _ => True
  | .fails _ => True
  | .debounces _ => True
  | .closes _ _ => True
  | .mails _ => True

/-- The bootstrap has been enqueued, and nothing else has happened for the generation. -/
def Bootstrapping.start (generationId : Nat) (s : Tables) (mail : List MailRow) : Bootstrapping :=
  { tables := enqueueAiJob generationId (.bootstrap 0)
      { s with
        semantics := s.semantics.filter fun r => r.generationId != generationId
        jobs := s.jobs.filter fun j => j.generationId != generationId }
    mail := mail
    pagers := []
    steady := (mail.filter MailRow.isEligible).map fun m => (m.messageId, m.contentRevision)
    enumerated := []
    covered := false
    promoted := false }

end ElectronicMail.Matters
