import ElectronicMail.Matters.Generations

/-!
# Members of matters

The transactions that put messages into matters: `apply_matter_assignment`, which writes
the answer of the models, `merge_reconciled_matters`, and `apply_user_decision`, with
`separated_matter_ids_for_message`, which a worker reads before it asks the models.

Each transaction first locks the rows of the matters it works on, and is one step here.
Only what `apply_matter_assignment` reads before that is kept apart: the lock on the
member (`Tables.lockedMatterId`) is an argument of `writeAssignment`.
-/

namespace ElectronicMail.Matters

open Foundations.Table

def derivedMatterStatus (statuses : List MatterStatus) (fallback : MatterStatus) : MatterStatus :=
  if statuses.isEmpty then fallback
  else if statuses.contains .needsYou then .needsYou
  else if statuses.contains .waitingOnOthers then .waitingOnOthers
  else if statuses.contains .inProgress then .inProgress
  else if statuses.all (· == .completed) then .completed
  else if statuses.all (· == .cancelled) then .cancelled
  else if statuses.all (· == .failed) then .failed
  else if statuses.contains .completed then .partiallyCompleted
  else if statuses.contains .failed then .failed
  else .cancelled

/-- `WHERE generation_id = … AND matter_id = …` on subgoals. -/
def Subgoal.isIn (generationId matterId : Nat) (g : Subgoal) : Bool :=
  g.generationId == generationId && g.matterId == matterId

def Tables.subgoalsOf (s : Tables) (generationId matterId : Nat) : List Subgoal :=
  s.subgoals.filter (Subgoal.isIn generationId matterId)

def Tables.subgoalStatuses (s : Tables) (generationId matterId : Nat) : List MatterStatus :=
  (s.subgoalsOf generationId matterId).map Subgoal.status

def Tables.dateOf (s : Tables) (messageId : Nat) : Option Nat :=
  (s.messages.find? fun m => m.messageId == messageId).map Message.date

/-- `SELECT MAX(COALESCE(internal_date, updated_at))` over the members of a matter. -/
def Tables.latestOf (s : Tables) (generationId matterId : Nat) : Option Nat :=
  ((s.messageIdsOf generationId matterId).filterMap s.dateOf).max?

/-! ## apply_matter_assignment -/

/-- A subgoal in the answer of the models. `canonicalKey` is the key of its goal, absent
for a blank one, and `developed` says that its latest development is not blank. -/
structure SubgoalUpdate where
  canonicalKey : Option Nat
  developed : Bool
  status : MatterStatus
  existingSubgoalId : Option Nat

def MatterStatus.ofSubgoal : MatterStatus → Bool
  | .needsYou | .waitingOnOthers | .inProgress | .completed | .failed | .cancelled => true
  | .partiallyCompleted | .informational => false

/-- The arguments of `apply_matter_assignment`. -/
structure Assignment where
  generationId : Nat
  messageId : Nat
  selectedMatterId : Option Nat
  status : MatterStatus
  subgoals : List SubgoalUpdate
  provisional : Bool
  membershipSource : MembershipSource

/-- `GREATEST(latest_message_at, …)`, which ignores a null. -/
def greatest (latest : Option Nat) (date : Nat) : Nat := max (latest.getD date) date

def upsertMatter (generationId matterId date : Nat) (status : MatterStatus) (provisional : Bool)
    (matters : List Matter) : List Matter :=
  if matters.any fun m => m.id == matterId then
    updateWhere (fun m => m.id == matterId)
      (fun m => { m with
        status := if provisional then m.status else status
        confidenceState := if provisional then .provisional
          else if m.confidenceState = .confirmed then .confirmed else .automatic
        latestMessageAt := some (greatest m.latestMessageAt date)
        revision := m.revision + 1 })
      matters
  else
    matters ++ [⟨matterId, generationId, status, if provisional then .provisional else .automatic,
      some date, true, 1⟩]

/-- The upsert of the member, which leaves a locked member where it is. -/
def upsertMember (row : Member) (members : List Member) : List Member :=
  if members.any (Member.isOf row.generationId row.messageId) then
    updateWhere (Member.isOf row.generationId row.messageId)
      (fun m => if m.membershipLocked then m else
        { m with
          matterId := row.matterId, membershipSource := row.membershipSource,
          provisional := row.provisional })
      members
  else members ++ [row]

/-- The subgoals of an assignment as the loop goes through them: the table, the keys
processed so far, and the next id. -/
structure SubgoalLoop where
  subgoals : List Subgoal
  processedKeys : List Nat
  nextId : Nat

/-- One round of the loop. `existing` holds the subgoals of the matter before the loop. -/
def SubgoalLoop.round (generationId matterId now : Nat) (existing : List Subgoal)
    (loop : SubgoalLoop) (u : SubgoalUpdate) : SubgoalLoop :=
  match u.canonicalKey with
  | none => loop
  | some key =>
    if u.developed && u.status.ofSubgoal && !loop.processedKeys.contains key then
      let found := (existing.find? fun g => some g.id == u.existingSubgoalId).or
        (existing.find? fun g => g.canonicalKey == key)
      match found with
      | some g =>
        { loop with
          subgoals := updateWhere (fun r => r.id == g.id)
            (fun r => { r with status := u.status, updatedAt := now }) loop.subgoals
          processedKeys := key :: loop.processedKeys }
      | none =>
        { subgoals := loop.subgoals ++
            [⟨loop.nextId, generationId, matterId, key, u.status, now⟩]
          processedKeys := key :: loop.processedKeys
          nextId := loop.nextId + 1 }
    else loop

/-- `UPDATE matters SET status = …` with the status derived from the subgoals. -/
def deriveStatus (generationId matterId : Nat) (fallback : MatterStatus) (s : Tables) : Tables :=
  let status := derivedMatterStatus (s.subgoalStatuses generationId matterId) fallback
  { s with
    matters := updateWhere (Matter.is generationId matterId)
      (fun m => { m with status := status }) s.matters }

/-- The subgoals of an assignment that is not provisional, at most twelve of them. -/
def writeSubgoals (generationId matterId : Nat) (updates : List SubgoalUpdate) (s : Tables) :
    Tables :=
  let loop := (updates.take 12).foldl
    (SubgoalLoop.round generationId matterId s.now (s.subgoalsOf generationId matterId))
    ⟨s.subgoals, [], s.nextId⟩
  { s with subgoals := loop.subgoals, nextId := loop.nextId }

def Tables.lockedMatterId (s : Tables) (generationId messageId : Nat) : Option Nat :=
  (s.members.find? fun m => m.isOf generationId messageId && m.membershipLocked).map Member.matterId

/-- The matter an assignment writes: the locked one, the selected one, or a new one. -/
def Assignment.matterId (a : Assignment) (locked : Option Nat) (s : Tables) : Nat :=
  (locked.or a.selectedMatterId).getD s.nextId

/-- The foreign keys of the rows that an assignment writes: the message, the generation
and a matter that is not new are there. A matter goes only with its generation, so that
the upsert of one that is gone fails like that of one in another generation. -/
def Assignment.isWritable (a : Assignment) (locked : Option Nat) (s : Tables) : Bool :=
  (s.dateOf a.messageId).isSome && s.generations.any (fun g => g.id == a.generationId) &&
    (locked.or a.selectedMatterId).all fun t => s.matters.any (Matter.is a.generationId t)

def Assignment.row (a : Assignment) (locked : Option Nat) (s : Tables) : Member :=
  { generationId := a.generationId
    matterId := a.matterId locked s
    messageId := a.messageId
    membershipSource := if locked.isSome then .user else a.membershipSource
    provisional := a.provisional && locked.isNone
    userConfirmed := false
    membershipLocked := false }

def placeMessage (a : Assignment) (locked : Option Nat) (s : Tables) : Tables :=
  { s with
    matters := upsertMatter a.generationId (a.matterId locked s) ((s.dateOf a.messageId).getD 0)
      a.status (a.row locked s).provisional s.matters
    members := upsertMember (a.row locked s) s.members
    nextId := s.nextId + 1
    now := s.now + 1 }

/-- `apply_matter_assignment` after it has read the lock: `none` when it raises. -/
def writeAssignment (a : Assignment) (locked : Option Nat) (s : Tables) : Option Tables :=
  if a.isWritable locked s then
    let matterId := a.matterId locked s
    some <|
      if (a.row locked s).provisional then placeMessage a locked s
      else deriveStatus a.generationId matterId a.status
        (writeSubgoals a.generationId matterId a.subgoals (placeMessage a locked s))
  else none

def applyMatterAssignment (a : Assignment) (s : Tables) : Option Tables :=
  writeAssignment a (s.lockedMatterId a.generationId a.messageId) s

/-! ## Separations -/

def Decision.separates (d : Decision) (x y : Nat) : Bool :=
  d.decision == .separate &&
    ((d.messageIds.contains x && d.otherMessageIds.contains y) ||
      (d.messageIds.contains y && d.otherMessageIds.contains x))

/-- `separated_matter_ids_for_message`: the matters of the generation with a message that
some decision, of whatever generation, separates from this one. -/
def Tables.separatedMatterIdsForMessage (s : Tables) (generationId messageId : Nat) : List Nat :=
  (s.members.filter fun m => m.generationId == generationId &&
    s.decisions.any (·.separates messageId m.messageId)).map Member.matterId

/-! ## merge_reconciled_matters -/

/-- A decision of this generation separates a member of one matter from one of the
other. -/
def Tables.prohibited (s : Tables) (generationId sourceMatterId targetMatterId : Nat) : Bool :=
  s.decisions.any fun d => d.generationId == generationId &&
    (s.messageIdsOf generationId sourceMatterId).any fun x =>
      (s.messageIdsOf generationId targetMatterId).any fun y => d.separates x y

/-- One round of the loop over the subgoals of the source: the subgoal moves, or is folded
into the one of the target with its key. -/
def mergeSubgoal (generationId targetMatterId now : Nat) (subgoals : List Subgoal) (g : Subgoal) :
    List Subgoal :=
  match subgoals.find? fun r => r.isIn generationId targetMatterId &&
      r.canonicalKey == g.canonicalKey with
  | none =>
    updateWhere (fun r => r.id == g.id)
      (fun r => { r with matterId := targetMatterId, updatedAt := now }) subgoals
  | some existing =>
    let status := if existing.updatedAt ≤ g.updatedAt then g.status else existing.status
    (updateWhere (fun r => r.id == existing.id)
      (fun r => { r with status := status, updatedAt := now }) subgoals).filter
      fun r => r.id != g.id

def Tables.bothVisible (s : Tables) (generationId sourceMatterId targetMatterId : Nat) : Bool :=
  sourceMatterId != targetMatterId && [sourceMatterId, targetMatterId].all fun t =>
      s.matters.any fun m => m.is generationId t && m.visible

/-- The statements of a merge of reconciled matters on the members and the subgoals. -/
def moveReconciled (generationId sourceMatterId targetMatterId : Nat) (s : Tables) : Tables :=
  { s with
    members := updateWhere (fun m => m.isIn generationId sourceMatterId && !m.membershipLocked)
      (fun m => { m with matterId := targetMatterId }) s.members
    subgoals := (s.subgoalsOf generationId sourceMatterId).foldl
      (mergeSubgoal generationId targetMatterId s.now) s.subgoals }

/-- The statements of a merge of reconciled matters on the two matters. -/
def closeReconciled (generationId sourceMatterId targetMatterId : Nat) (status : MatterStatus)
    (s : Tables) : Tables :=
  let status := derivedMatterStatus (s.subgoalStatuses generationId targetMatterId) status
  let state : ConfidenceState :=
    if (s.membersOf generationId targetMatterId).any Member.membershipLocked then .confirmed
    else .automatic
  let latest := s.latestOf generationId targetMatterId
  { s with
    matters := updateWhere (Matter.is generationId sourceMatterId)
      (fun m => { m with visible := false, revision := m.revision + 1 })
      (updateWhere (Matter.is generationId targetMatterId)
        (fun m => { m with
          status := status, confidenceState := state, latestMessageAt := latest,
          revision := m.revision + 1 })
        s.matters) }

/-- Every transaction that changes the projection raises the revision of the profile. -/
def raiseRevision (s : Tables) : Tables :=
  { s with profile := s.profile.map fun p => { p with revision := p.revision + 1 } }

/-- Two matters are merged unless one is hidden or empty, a member of the source is
locked, or a decision prohibits it. -/
def Tables.mergeable (s : Tables) (generationId sourceMatterId targetMatterId : Nat) : Bool :=
  s.bothVisible generationId sourceMatterId targetMatterId &&
    !(s.membersOf generationId sourceMatterId).isEmpty &&
    !(s.membersOf generationId targetMatterId).isEmpty &&
    !(s.membersOf generationId sourceMatterId).any Member.membershipLocked &&
    !s.prohibited generationId sourceMatterId targetMatterId

/-- `merge_reconciled_matters`; the tables stay as they are when it returns `False`. -/
def mergeReconciledMatters (generationId sourceMatterId targetMatterId : Nat)
    (status : MatterStatus) (s : Tables) : Tables :=
  if s.mergeable generationId sourceMatterId targetMatterId then
    raiseRevision
      (closeReconciled generationId sourceMatterId targetMatterId status
        (moveReconciled generationId sourceMatterId targetMatterId
          { s with nextId := s.nextId + 1, now := s.now + 1 }))
  else s

/-! ## apply_user_decision -/

/-- The arguments of `apply_user_decision`. -/
structure UserDecision where
  clientDecisionId : String
  decision : DecisionType
  matterId : Nat
  targetMatterId : Option Nat
  messageIds : List Nat
  expectedRevision : Nat
  deriving DecidableEq

def Tables.proposedIds (s : Tables) (generationId matterId : Nat) : List Nat :=
  ((s.membersOf generationId matterId).filter Member.provisional).map Member.messageId

/-- `selected_ids`: the messages that the user names, without repetitions. A confirmation
or a separation that names none is about the proposed members, a move that names none and
every merge about all of them. -/
def UserDecision.selectedIds (u : UserDecision) (generationId : Nat) (s : Tables) : List Nat :=
  match u.decision with
  | .confirm | .separate =>
    if u.messageIds.isEmpty then s.proposedIds generationId u.matterId
    else u.messageIds.eraseDups
  | .merge => s.messageIdsOf generationId u.matterId
  | .move =>
    if u.messageIds.isEmpty then s.messageIdsOf generationId u.matterId
    else u.messageIds.eraseDups

/-- `WHERE generation_id = … AND matter_id = … AND message_id = ANY(…)`. -/
def Member.isSelected (generationId matterId : Nat) (selected : List Nat) (m : Member) : Bool :=
  m.isIn generationId matterId && selected.contains m.messageId

/-- `confirm`: the selected members are locked. -/
def confirmMembers (generationId matterId : Nat) (selected : List Nat) (s : Tables) : Tables :=
  let members := updateWhere (Member.isSelected generationId matterId selected)
    (fun m => { m with
      provisional := false, userConfirmed := true, membershipLocked := true,
      membershipSource := .user })
    s.members
  let state : ConfidenceState :=
    if members.any fun m => m.isIn generationId matterId && m.provisional then .provisional
    else .confirmed
  { s with
    members := members
    matters := updateWhere (fun m => m.id == matterId)
      (fun m => { m with confidenceState := state, revision := m.revision + 1 }) s.matters }

/-- `separate`: the selected members leave the matter, and have to be processed again. -/
def separateMembers (generationId matterId : Nat) (selected : List Nat) (s : Tables) : Tables :=
  let members := s.members.filter fun m => !m.isSelected generationId matterId selected
  let left := members.filter (Member.isIn generationId matterId)
  let state : ConfidenceState :=
    if left.any Member.membershipLocked then .confirmed else .automatic
  { s with
    members := members
    semantics := updateWhere
      (fun r => r.generationId == generationId && selected.contains r.messageId)
      (fun r => { r with processingState := .failed, userSeparated := true }) s.semantics
    matters := updateWhere (Matter.is generationId matterId)
      (fun m => { m with
        confidenceState := state, visible := !left.isEmpty, revision := m.revision + 1 })
      s.matters }

/-- `merge` and `move`: the selected members are locked into the target. -/
def moveMembers (generationId matterId targetMatterId : Nat) (selected : List Nat) (s : Tables) :
    Tables :=
  let members := updateWhere (Member.isSelected generationId matterId selected)
    (fun m => { m with
      matterId := targetMatterId, membershipSource := .user, provisional := false,
      userConfirmed := true, membershipLocked := true })
    s.members
  { s with
    members := members
    matters := updateWhere (fun m => m.id == matterId)
      (fun m => { m with
        visible := members.any (fun r => r.matterId == matterId), revision := m.revision + 1 })
      (updateWhere (fun m => m.id == targetMatterId)
        (fun m => { m with confidenceState := .confirmed, revision := m.revision + 1 })
        s.matters) }

def UserDecision.record (u : UserDecision) (generationId : Nat) (s : Tables) : Decision :=
  let selected := u.selectedIds generationId s
  { id := s.nextId
    generationId := generationId
    decision := u.decision
    matterId := u.matterId
    targetMatterId := u.targetMatterId
    messageIds := selected
    otherMessageIds := if u.decision = .separate then
        (s.messageIdsOf generationId u.matterId).filter fun x => !selected.contains x
      else []
    idempotencyKey := u.clientDecisionId }

/-- The decision is accepted: it has not been recorded before, the matter is there in the
expected revision, there is something to decide about and somewhere to move it, and the
profile is there. -/
def UserDecision.accepted (u : UserDecision) (m : Matter) (s : Tables) : Bool :=
  !s.decisions.any (fun d => d.idempotencyKey == u.clientDecisionId) &&
    m.revision == u.expectedRevision && s.profile.isSome &&
    match u.decision with
    | .confirm | .separate => !(u.selectedIds m.generationId s).isEmpty
    | .merge | .move => u.targetMatterId.any fun t => s.matters.any (Matter.is m.generationId t)

def UserDecision.acceptedRecord (u : UserDecision) (s : Tables) : Option Decision :=
  match s.matters.find? fun m => m.id == u.matterId with
  | none => none
  | some m => if u.accepted m s then some (u.record m.generationId s) else none

def Decision.carryOut (d : Decision) (s : Tables) : Tables :=
  match d.decision with
  | .confirm => confirmMembers d.generationId d.matterId d.messageIds s
  | .separate => separateMembers d.generationId d.matterId d.messageIds s
  | .merge | .move =>
    moveMembers d.generationId d.matterId (d.targetMatterId.getD d.matterId) d.messageIds s

/-- `apply_user_decision`: the tables stay as they are when it raises, reports a conflict
or has recorded the decision before. -/
def applyUserDecision (u : UserDecision) (s : Tables) : Tables :=
  match u.acceptedRecord s with
  | none => s
  | some record =>
    raiseRevision
      { record.carryOut s with
        decisions := s.decisions ++ [record], nextId := s.nextId + 1, now := s.now + 1 }

def deleteMessage (messageId : Nat) (s : Tables) : Tables :=
  { s with
    messages := s.messages.filter fun m => m.messageId != messageId
    members := s.members.filter fun m => m.messageId != messageId
    semantics := s.semantics.filter fun r => r.messageId != messageId }

end ElectronicMail.Matters
