import Mathlib.Data.List.Basic

/-!
# The ledger of the session token and the Keychain

`SessionTokenGenerationLedger` and the secure records of `SessionTokenStore.swift`. The ledger
is an entry of the preferences: what the process sees of it, and what is on disk, where a
failed `synchronize` may or may not have put the last change. The Keychain has two places, the
classic one that local builds use and the one of release builds.

Generation ids are numbers in the order in which they are made up, and the account string of a
mutation is the mutation.
-/

namespace ElectronicMail.SessionToken

/-! ## Ledger -/

/-- `SessionTokenMutationKind`. -/
inductive MutationKind where
  | token
  | tombstone
  deriving DecidableEq

/-- `SessionTokenMutation`. -/
structure Mutation where
  generationId : Nat
  ordinal : Nat
  kind : MutationKind
  deriving DecidableEq

/-- `SessionTokenLedgerEntry`. -/
structure LedgerEntry where
  mutation : Mutation
  recordPersisted : Bool

/-- `SessionTokenLedgerState`. -/
structure LedgerState where
  nextOrdinal : Nat := 0
  desired : Option Mutation := none
  committedGenerationId : Option Nat := none
  entries : List LedgerEntry := []

inductive Preference where
  | absent
  | undecodable
  | stored (state : LedgerState)

/-- `SessionTokenLedgerSnapshot`. -/
inductive LedgerSnapshot where
  | absent
  | corrupt
  | available (state : LedgerState)

namespace LedgerState

variable (state : LedgerState)

/-- `state.entries.map(\.mutation.ordinal).max() ?? 0`. -/
def maxOrdinal : Nat := (state.entries.map fun e => e.mutation.ordinal).foldr max 0

/-- What `snapshotLocked` checks of a state that it has decoded. -/
def consistent : Bool :=
  decide (state.entries.map fun e => e.mutation.generationId).Nodup &&
    decide (state.entries.map fun e => e.mutation.ordinal).Nodup &&
    decide (state.maxOrdinal ≤ state.nextOrdinal) &&
    state.desired.all (fun desired => state.entries.any fun e => e.mutation = desired) &&
    state.committedGenerationId.all fun committed =>
      state.entries.any fun e => decide (e.mutation.generationId = committed) && e.recordPersisted

/-- `max(state.nextOrdinal, …)`. -/
def highestOrdinal : Nat := max state.nextOrdinal state.maxOrdinal

def publish (mutation : Mutation) : LedgerState :=
  { state with
    nextOrdinal := mutation.ordinal
    desired := some mutation
    entries := state.entries ++ [⟨mutation, false⟩] }

def markPersisted (mutation : Mutation) : LedgerState :=
  { state with
    committedGenerationId :=
      if state.desired = some mutation then some mutation.generationId
      else state.committedGenerationId
    entries := state.entries.map fun e =>
      if e.mutation = mutation then { e with recordPersisted := true } else e }

def recovered (mutation : Mutation) : LedgerState where
  nextOrdinal := mutation.ordinal
  desired := some mutation
  committedGenerationId := some mutation.generationId
  entries := [⟨mutation, true⟩]

/-- The older mutations whose records are persisted, once that of the desired one is. -/
def cleanupPlan : Option (List Mutation) :=
  match state.desired with
  | none => none
  | some desired =>
    if state.entries.any (fun e => decide (e.mutation = desired) && e.recordPersisted) then
      some (state.entries.filterMap fun e =>
        if e.recordPersisted && decide (e.mutation.ordinal < desired.ordinal) then
          some e.mutation
        else none)
    else none

end LedgerState

/-- `snapshotLocked`. -/
def Preference.snapshot : Preference → LedgerSnapshot
  | .absent => .absent
  | .undecodable => .corrupt
  | .stored state => if state.consistent then .available state else .corrupt

/-! ## World -/

/-- What the calls share. `allocated` are the mutations that an allocation has returned, the
newest first, and `tokens` those that were to be saved for a mutation; no code reads either. -/
structure World where
  preference : Preference
  disk : Preference
  classic : List (Mutation × String)
  secure : List (Mutation × String)
  legacyClassic : Option String
  legacySecure : Option String
  legacySynchronizable : Option String
  localBuild : Bool
  nextGeneration : Nat
  allocated : List Mutation
  tokens : List (Mutation × String)

/-- How the system answers a step: whether the Keychain does what it is asked (and does it
the second time), whether `synchronize` succeeds, whether the change is on disk where it does
not, and which one of several newest records it finds first. -/
structure Answered where
  succeeds : Bool := true
  again : Bool := true
  synchronized : Bool := true
  flushed : Bool := true
  pick : Nat := 0

namespace World

variable (w : World) (o : Answered)

def snapshot : LedgerSnapshot := w.preference.snapshot

/-- `persistLocked`. -/
def persist (state : LedgerState) : World :=
  { w with
    preference := .stored state
    disk := if o.synchronized || o.flushed then .stored state else w.disk }

/-- The end of an allocation: the next mutation of the state is published. -/
def allocateFrom (state : LedgerState) (kind : MutationKind) : World × Option Mutation :=
  if state.highestOrdinal < 18446744073709551615 then
    let mutation : Mutation := ⟨w.nextGeneration, state.highestOrdinal + 1, kind⟩
    let published :=
      { w.persist o (state.publish mutation) with nextGeneration := w.nextGeneration + 1 }
    if o.synchronized then
      ({ published with allocated := mutation :: w.allocated }, some mutation)
    else (published, none)
  else (w, none)

/-- `allocate`, `none` where it throws. -/
def allocate (kind : MutationKind) : World × Option Mutation :=
  match w.snapshot with
  | .available state => w.allocateFrom o state kind
  | _ => w.allocateFrom o {} kind

/-- `allocateLegacyMigrationIfUnclaimed`, `none` where it throws too. -/
def allocateLegacyMigrationIfUnclaimed : World × Option Mutation :=
  match w.snapshot with
  | .corrupt => (w, none)
  | .available state => if state.desired.isSome then (w, none) else w.allocateFrom o state .token
  | .absent => w.allocateFrom o {} .token

/-- `recoverCommittedIfUnclaimed`, with whether it returned true. -/
def recoverCommittedIfUnclaimed (mutation : Mutation) : World × Bool :=
  match w.snapshot with
  | .absent => (w.persist o (.recovered mutation), o.synchronized)
  | _ => (w, false)

def isDesired (mutation : Mutation) : Bool :=
  match w.snapshot with
  | .available state => state.desired = some mutation
  | _ => false

def containsAllocated (mutation : Mutation) : Bool :=
  match w.snapshot with
  | .available state => state.entries.any fun e => e.mutation = mutation
  | _ => false

/-- `markRecordPersisted`, with whether it returned. -/
def markRecordPersisted (mutation : Mutation) : World × Bool :=
  match w.snapshot with
  | .available state =>
    if state.entries.any fun e => e.mutation = mutation then
      (w.persist o (state.markPersisted mutation), o.synchronized)
    else (w, true)
  | _ => (w, true)

def cleanupPlan : Option (List Mutation) :=
  match w.snapshot with
  | .available state => state.cleanupPlan
  | _ => none

/-- `try? removeCleanedEntries`. -/
def removeCleanedEntries (generationIds : List Nat) : World :=
  if generationIds = [] then w
  else
    match w.snapshot with
    | .available state =>
      w.persist o
        { state with
          entries := state.entries.filter fun e =>
            !generationIds.contains e.mutation.generationId }
    | _ => w

/-! ## Keychain -/

def records : List (Mutation × String) := if w.localBuild then w.classic else w.secure

def withRecords (records : List (Mutation × String)) : World :=
  if w.localBuild then { w with classic := records } else { w with secure := records }

def readGenerationRecord (mutation : Mutation) : Option String :=
  if o.succeeds then w.records.lookup mutation else none

/-- `addGenerationRecord`, with whether it returned. An account that is taken must have the
same data. -/
def addGenerationRecord (mutation : Mutation) (data : String) : World × Bool :=
  match w.records.lookup mutation with
  | none =>
    if o.succeeds then (w.withRecords (w.records ++ [(mutation, data)]), true) else (w, false)
  | some found => (w, o.succeeds && found = data)

def deleteGenerationRecord (mutation : Mutation) : World × Bool :=
  if o.succeeds then (w.withRecords (w.records.filter fun r => r.1 ≠ mutation), true)
  else (w, false)

/-- `readMigratableGenerationRecord`, `none` where it throws too. -/
def readMigratableGenerationRecord (mutation : Mutation) : Option String :=
  if w.localBuild then none else if o.succeeds then w.classic.lookup mutation else none

def deleteMigratableGenerationRecord (mutation : Mutation) : World :=
  if !w.localBuild && o.succeeds then
    { w with classic := w.classic.filter fun r => r.1 ≠ mutation }
  else w

def tombstoneData : String := "tombstone-v2"

/-- `latestLocalRecoveryRecord`: a record with the highest ordinal. -/
def latestLocalRecoveryRecord : Option (Mutation × String) :=
  if w.localBuild && o.succeeds then
    match (w.classic.filter fun r =>
      w.classic.all fun r' => decide (r'.1.ordinal ≤ r.1.ordinal))[o.pick]? with
    | none => none
    | some r => if r.1.kind = .tombstone ∧ r.2 ≠ tombstoneData then none else some r
  else none

def readLegacyRecord : Option String :=
  if w.localBuild then
    if o.succeeds then w.legacyClassic else none
  else
    (if o.succeeds then w.legacySecure else none).or
      (if o.again then w.legacySynchronizable else none)

def deleteLegacyRecords : World :=
  if w.localBuild then { w with legacyClassic := if o.succeeds then none else w.legacyClassic }
  else
    { w with
      legacySecure := if o.succeeds then none else w.legacySecure
      legacySynchronizable := if o.again then none else w.legacySynchronizable }

end World

end ElectronicMail.SessionToken
