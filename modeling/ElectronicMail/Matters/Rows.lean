import ElectronicMail.Foundations.Run
import ElectronicMail.Jobs.Queue

/-!
# The tables of the AI inbox

The rows that `db/ai_inbox.py` reads and writes for one Gmail account: the profile, the
generations of the projection, the matters of each generation with their members and
subgoals, the decisions of the user, and the semantics of the messages. Ids are `uuid4`
values in the source; here they are numbers handed out in order (`Tables.nextId`), so
that of two rows the one created later has the larger id.

Texts, embeddings, confidences and model names decide nothing here and are left out, and
so are the decisions that the models take.
-/

namespace ElectronicMail.Matters

open Jobs (JobStatus)

/-- `matter_generations.status`. -/
inductive GenerationStatus where
  | shadow
  | building
  | active
  | superseded
  | failed
  deriving DecidableEq

inductive GroupingStyle where
  | focused
  | broader
  deriving DecidableEq

inductive RolloutMode where
  | disabled
  | shadow
  | preview
  | live
  deriving DecidableEq

/-- The statuses of matters and of subgoals. A subgoal is never `partially_completed` or
`informational`. -/
inductive MatterStatus where
  | needsYou
  | waitingOnOthers
  | inProgress
  | completed
  | partiallyCompleted
  | failed
  | cancelled
  | informational
  deriving DecidableEq

inductive ConfidenceState where
  | automatic
  | provisional
  | confirmed
  deriving DecidableEq

inductive MembershipSource where
  | model
  | reference
  | gmailContinuity
  | user
  deriving DecidableEq

inductive ProcessingState where
  | queued
  | processing
  | ready
  | failed
  | skipped
  deriving DecidableEq

inductive DecisionType where
  | confirm
  | separate
  | merge
  | move
  deriving DecidableEq

/-- A row of `matter_profiles`; `consented` says that `consented_at` is set. -/
structure Profile where
  consented : Bool
  enabled : Bool
  groupingStyle : GroupingStyle
  rolloutMode : RolloutMode
  activeGenerationId : Option Nat
  revision : Nat
  deriving DecidableEq

/-- A row of `matter_generations`; `completed` says that `completed_at` is set. -/
structure Generation where
  id : Nat
  status : GenerationStatus
  groupingStyle : GroupingStyle
  sourceGenerationId : Option Nat
  completed : Bool
  deriving DecidableEq

/-- A row of `matters`. -/
structure Matter where
  id : Nat
  generationId : Nat
  status : MatterStatus
  confidenceState : ConfidenceState
  latestMessageAt : Option Nat
  visible : Bool
  revision : Nat

/-- A row of `matter_members`, whose primary key is the generation and the message. -/
structure Member where
  generationId : Nat
  matterId : Nat
  messageId : Nat
  membershipSource : MembershipSource
  provisional : Bool
  userConfirmed : Bool
  membershipLocked : Bool
  deriving DecidableEq

/-- A row of `matter_subgoals`. -/
structure Subgoal where
  id : Nat
  generationId : Nat
  matterId : Nat
  canonicalKey : Nat
  status : MatterStatus
  updatedAt : Nat
  deriving DecidableEq

/-- A row of `matter_decisions` that records an accepted decision of the user.
`otherMessageIds` is the field of that name in the constraints of a separation, which are
`never_recombine`. -/
structure Decision where
  id : Nat
  generationId : Nat
  decision : DecisionType
  matterId : Nat
  targetMatterId : Option Nat
  messageIds : List Nat
  otherMessageIds : List Nat
  idempotencyKey : String
  deriving DecidableEq

/-- What the facts, the reference tokens and the embedding of a message were computed
from: the revision of its content and the hash of the sanitised text. -/
structure Reading where
  contentRevision : Nat
  normalizedSha256 : String
  deriving DecidableEq

/-- A row of `message_semantics`. `computedFrom` stands for the three columns with the
results of the models, which are written together. -/
structure Semantics where
  generationId : Nat
  messageId : Nat
  contentRevision : Nat
  normalizedSha256 : String
  processingState : ProcessingState
  userSeparated : Bool
  computedFrom : Option Reading
  deriving DecidableEq

/-- What these tables need of a row of `gmail_messages`: `date` is
`COALESCE(internal_date, updated_at)`. -/
structure Message where
  messageId : Nat
  date : Nat

inductive AiJobKind where
  | organize (messageId contentRevision : Nat)
  | bootstrap (offset : Nat)
  | finalize
  deriving DecidableEq

/-- A row of `background_jobs` of kind `ai_message_organize`, `ai_generation_bootstrap` or
`ai_generation_finalize`. -/
structure AiJob where
  id : Nat
  kind : AiJobKind
  generationId : Nat
  status : JobStatus

/-- The tables of one Gmail account. `now` is the time of the current transaction. -/
structure Tables where
  profile : Option Profile
  generations : List Generation
  matters : List Matter
  members : List Member
  subgoals : List Subgoal
  decisions : List Decision
  semantics : List Semantics
  messages : List Message
  jobs : List AiJob
  nextId : Nat
  now : Nat

/-- An account with its messages, in which the AI inbox has never been used. -/
def Tables.fresh (messages : List Message) : Tables :=
  ⟨none, [], [], [], [], [], [], messages, [], 0, 0⟩

/-- `WHERE generation_id = … AND matter_id = …`. -/
def Member.isIn (generationId matterId : Nat) (m : Member) : Bool :=
  m.generationId == generationId && m.matterId == matterId

/-- `WHERE generation_id = … AND message_id = …`. -/
def Member.isOf (generationId messageId : Nat) (m : Member) : Bool :=
  m.generationId == generationId && m.messageId == messageId

def Tables.membersOf (s : Tables) (generationId matterId : Nat) : List Member :=
  s.members.filter (Member.isIn generationId matterId)

def Tables.messageIdsOf (s : Tables) (generationId matterId : Nat) : List Nat :=
  (s.membersOf generationId matterId).map Member.messageId

/-- `WHERE id = … AND generation_id = …`. -/
def Matter.is (generationId matterId : Nat) (m : Matter) : Bool :=
  m.id == matterId && m.generationId == generationId

variable {g t : Nat} {m : Member}

@[simp]
theorem Member.isIn_iff : m.isIn g t = true ↔ m.generationId = g ∧ m.matterId = t := by
  simp [Member.isIn]

@[simp]
theorem Member.isOf_iff {x : Nat} : m.isOf g x = true ↔ m.generationId = g ∧ m.messageId = x := by
  simp [Member.isOf]

@[simp]
theorem Matter.is_iff {m : Matter} : m.is g t = true ↔ m.id = t ∧ m.generationId = g := by
  simp [Matter.is]

@[simp]
theorem Tables.mem_membersOf {s : Tables} :
    m ∈ s.membersOf g t ↔ m ∈ s.members ∧ m.generationId = g ∧ m.matterId = t := by
  simp [Tables.membersOf]

@[simp]
theorem Tables.mem_messageIdsOf {s : Tables} {x : Nat} :
    x ∈ s.messageIdsOf g t ↔
      ∃ m ∈ s.members, m.generationId = g ∧ m.matterId = t ∧ m.messageId = x := by
  simp [Tables.messageIdsOf, and_assoc]

end ElectronicMail.Matters
