import ElectronicMail.Foundations.Run
import ElectronicMail.Foundations.Table
import ElectronicMail.Offline.MailboxSnapshot

/-!
# The mailbox of one label on disk

`writeMailbox` and `writeSession` merge a snapshot into what is stored. A generation that has
been replaced is kept in `retired_mailbox_generations`, and a thread that has been removed in
`mailbox_thread_tombstones`, under the generation that it was removed from.
-/

namespace ElectronicMail.Offline

/-- `mailboxGenerationScope`. -/
inductive GenerationScope where
  | generation (generation : List Char)
  | legacyRevision (revision : List Char)
  | legacyUngenerated
  deriving DecidableEq

/-- `mailboxGenerationScope`. -/
def MailboxResponse.scope (m : MailboxResponse) : GenerationScope :=
  match m.generation, normalized m.mailboxRevision with
  | some generation, _ => .generation generation
  | none, some revision => .legacyRevision revision
  | none, none => .legacyUngenerated

/-- A row of `mailbox_thread_tombstones`. -/
structure Tombstone where
  scope : GenerationScope
  threadId : Nat
  mailboxRevision : Option (List Char)
  progressAt : Option Int

/-- The rows of one user and one label: the mailbox in `app_sessions`, the one in `mailboxes`,
and the two tables beside them. -/
structure MailboxStore where
  session : Option MailboxResponse
  mailbox : Option MailboxResponse
  retired : List (List Char)
  tombstones : List Tombstone

/-- `isRetiredMailboxGeneration`. -/
def MailboxStore.isRetired (s : MailboxStore) (m : MailboxResponse) : Bool :=
  m.generation.any s.retired.contains

def tombstonesOf (scope : GenerationScope) (tombstones : List Tombstone) : List Tombstone :=
  tombstones.filter fun t => t.scope == scope

/-- `applyingMailboxTombstones`. -/
def applyingTombstones (tombstones : List Tombstone) (m : MailboxResponse) : MailboxResponse :=
  m.removingCachedThreadIds ((tombstonesOf m.scope tombstones).map Tombstone.threadId)

/-- The generation that `cacheSafeMailboxSnapshot` retires. -/
def retiredBy (cached incoming : MailboxResponse) : List (List Char) :=
  match cached.generation, incoming.generation with
  | some cachedGeneration, some incomingGeneration =>
    if cachedGeneration ≠ incomingGeneration ∧
        (cacheSafeSnapshot cached incoming).generation = some incomingGeneration then
      [cachedGeneration]
    else []
  | _, _ => []

/-- `cacheSafeMailboxSnapshot`: the mailbox to store, with the two tables. -/
def MailboxStore.cacheSafe (s : MailboxStore) (cached incoming : MailboxResponse) :
    MailboxStore × MailboxResponse :=
  let persisted := cacheSafeSnapshot cached incoming
  let tombstones := tombstonesOf persisted.scope s.tombstones
  ({ s with
      retired := retiredBy cached incoming ++ s.retired
      tombstones := tombstones },
    applyingTombstones tombstones persisted)

/-- `recordMailboxTombstones`. -/
def recordTombstones (threadIds : List Nat) (m : MailboxResponse) (tombstones : List Tombstone) :
    List Tombstone :=
  threadIds.map (fun t => ⟨m.scope, t, normalized m.mailboxRevision, progressDate m⟩) ++
    (tombstonesOf m.scope tombstones).filter fun t => !threadIds.contains t.threadId

/-- `clearMailboxTombstonesForExplicitReentry`, for the label of the store. -/
def clearForReentry (threadIds : List Nat) (m : MailboxResponse) (tombstones : List Tombstone) :
    List Tombstone :=
  tombstones.filter fun t => !(t.scope == m.scope && threadIds.contains t.threadId)

/-- A snapshot with this date and this revision lets the thread in again. -/
def Tombstone.yieldsTo (date : Int) (revision : List Char) (t : Tombstone) : Bool :=
  t.progressAt.any (· < date) && t.mailboxRevision.any (· != revision)

/-- The snapshot is compared with the stored one and is not behind it. -/
def isCurrent (m : MailboxResponse) (cached : Option MailboxResponse) : Bool :=
  match cached with
  | none => true
  | some c =>
    if c.label ≠ m.label then true
    else if c.generation ≠ m.generation then
      m.generation.isSome && !(c.generation.isSome && isDemonstrablyOlder m c)
    else !isDemonstrablyOlder m c

/-- The tombstones without those of the threads that a complete, later snapshot with another
revision includes. -/
def clearIncluded (m : MailboxResponse) (tombstones : List Tombstone) : List Tombstone :=
  match m.isAuthoritative, progressDate m, normalized m.mailboxRevision with
  | true, some date, some revision =>
    tombstones.filter fun t =>
      !(t.scope == m.scope && t.yieldsTo date revision &&
        (m.rows.map GmailThreadRow.threadId).contains t.threadId)
  | _, _, _ => tombstones

/-- `clearMailboxTombstonesForNewerAuthoritativeInclusion`. -/
def clearForInclusion (m : MailboxResponse) (cached : Option MailboxResponse)
    (tombstones : List Tombstone) : List Tombstone :=
  if isCurrent m cached then clearIncluded m tombstones else tombstones

/-- The snapshot that `writeMailbox` works with. -/
def incomingOf (m : MailboxResponse) (cached : Option MailboxResponse) (removing : List Nat) :
    MailboxResponse :=
  match removing, cached with
  | _ :: _, some c => m.inheriting c
  | _, _ => m

/-- What a call of `writeMailbox` names beside the snapshot. -/
structure MailboxEdit where
  removingThreadIds : List Nat
  reenteringThreadIds : List Nat
  reentryLabels : List MailboxLabel

/-- The tombstones that `writeMailbox` merges under. -/
def MailboxStore.editedTombstones (s : MailboxStore) (incoming : MailboxResponse)
    (label : MailboxLabel) (edit : MailboxEdit) : List Tombstone :=
  let recorded :=
    if edit.removingThreadIds.isEmpty then s.tombstones
    else recordTombstones edit.removingThreadIds incoming s.tombstones
  let cleared :=
    if edit.reentryLabels.contains label then
      clearForReentry edit.reenteringThreadIds incoming recorded
    else recorded
  clearForInclusion incoming s.mailbox cleared

/-- The merge of `writeMailbox` with what is stored. -/
def MailboxStore.mergeStored (s : MailboxStore) (incoming : MailboxResponse) :
    MailboxStore × MailboxResponse :=
  match s.mailbox with
  | some cached => s.cacheSafe cached incoming
  | none => (s, applyingTombstones s.tombstones incoming)

def MailboxEdit.counted (edit : MailboxEdit) (m incoming : MailboxResponse) : MailboxResponse :=
  if edit.removingThreadIds.isEmpty then m
  else
    m.withMailboxCounts (max m.visibleRows incoming.totalThreads)
      (incoming.unreadThreads.or m.unreadThreads)
      (max m.visibleRows (incoming.loadedThreads.getD 0))

/-- The store under whose tombstones `writeMailbox` merges. -/
def MailboxStore.edited (s : MailboxStore) (incoming : MailboxResponse) (label : MailboxLabel)
    (edit : MailboxEdit) : MailboxStore :=
  { s with tombstones := s.editedTombstones incoming label edit }

def MailboxStore.writeMailbox (s : MailboxStore) (label : MailboxLabel) (m : MailboxResponse)
    (edit : MailboxEdit) : MailboxStore :=
  if m.label ≠ label then s
  else if s.isRetired m then s
  else
    let incoming := incomingOf m s.mailbox edit.removingThreadIds
    let merged := (s.edited incoming label edit).mergeStored incoming
    { merged.1 with mailbox := some (edit.counted merged.2 incoming) }

/-- One of the two merges of `writeSession`. -/
def MailboxStore.mergeWith (s : MailboxStore) (cached : Option MailboxResponse)
    (m : MailboxResponse) : MailboxStore × MailboxResponse :=
  match cached with
  | some c => s.cacheSafe c m
  | none => (s, m)

/-- What `writeSession` stores of a merged mailbox. -/
def MailboxStore.keep (s : MailboxStore) (m : MailboxResponse) : MailboxStore :=
  { s with
    session := some (applyingTombstones s.tombstones m)
    mailbox := some (applyingTombstones s.tombstones m) }

/-- The store under whose tombstones `writeSession` merges. -/
def MailboxStore.included (s : MailboxStore) (m : MailboxResponse) : MailboxStore :=
  { s with tombstones := clearForInclusion m (s.mailbox.or s.session) s.tombstones }

/-- `writeSession`, for the mailbox of the session. -/
def MailboxStore.writeSession (s : MailboxStore) (m : MailboxResponse) : MailboxStore :=
  if s.isRetired m then
    let kept := (s.mailbox.or s.session).getD m
    { s with session := some kept, mailbox := some kept }
  else
    let first := (s.included m).mergeWith s.session m
    let second := first.1.mergeWith s.mailbox first.2
    second.1.keep second.2

inductive StoreCall where
  | writeMailbox (m : MailboxResponse) (edit : MailboxEdit)
  | writeSession (m : MailboxResponse)
  | fails

def MailboxStore.step (label : MailboxLabel) (s : MailboxStore) : StoreCall → MailboxStore
  | .writeMailbox m edit => s.writeMailbox label m edit
  | .writeSession m => if m.label = label then s.writeSession m else s
  | .fails => s

def MailboxStore.empty : MailboxStore := ⟨none, none, [], []⟩

end ElectronicMail.Offline
