import ElectronicMail.SessionToken.Ledger

/-!
# Calls of the session token store

The calls of `KeychainSessionTokenStore` that can be under way at once, one step for each
operation on the ledger or on the Keychain, and the cleanups that they schedule. A relaunch
ends all of them, and what the process sees of the preferences is what is on disk.
-/

namespace ElectronicMail.SessionToken

/-! ## Phases -/

/-- What a load returns: a token, and the mutations that were allocated when it last looked at
the ledger. -/
structure LoadAnswer where
  token : String
  asOf : List Mutation
  deriving DecidableEq

/-- `save(_:for:)` or `clear(for:)` of a mutation, with the data of its record. -/
inductive SavePhase where
  | guarding (mutation : Mutation) (data : String)
  | adding (mutation : Mutation) (data : String)
  | marking (mutation : Mutation)
  | returned
  deriving DecidableEq

/-- `load`. `left` are the rounds after this one, and `unclaimed` says that the ledger was
absent, where the legacy record is read. -/
inductive LoadPhase where
  | looking (rounds : Nat)
  | readingLegacy (left : Nat) (unclaimed : Bool)
  | allocatingLegacy (left : Nat) (unclaimed : Bool) (token : String)
  | addingLegacy (left : Nat) (unclaimed : Bool) (mutation : Mutation) (token : String)
  | markingLegacy (left : Nat) (unclaimed : Bool) (mutation : Mutation) (token : String)
  | checkingLegacy (left : Nat) (unclaimed : Bool) (mutation : Mutation) (token : String)
  | afterLegacy (left : Nat) (unclaimed : Bool)
  | readingRecovery (left : Nat)
  | committingRecovery (left : Nat) (mutation : Mutation) (data : String)
  | checking (left : Nat) (desired : Mutation)
  | reading (left : Nat) (desired : Mutation)
  | checkingRead (left : Nat) (desired : Mutation) (data : String)
  | markingRead (desired : Mutation) (answer : LoadAnswer)
  | checkingMissing (left : Nat) (desired : Mutation)
  | readingMigratable (mutation : Mutation)
  | checkingMigratable (mutation : Mutation) (data : String)
  | addingMigrated (mutation : Mutation) (data : String)
  | verifyingMigrated (mutation : Mutation) (data : String)
  | checkingMigrated (mutation : Mutation) (data : String)
  | markingMigrated (mutation : Mutation) (answer : LoadAnswer)
  | deletingMigratable (mutation : Mutation) (answer : LoadAnswer)
  | returned (answer : Option LoadAnswer)
  deriving DecidableEq

/-- The block of `scheduleCleanup`. -/
inductive CleanupPhase where
  | planning
  | deleting (todo : List Mutation) (cleaned : List Nat)
  | removing (cleaned : List Nat)
  | deletingLegacy
  | returned
  deriving DecidableEq

/-- A call that is under way or has returned. A load keeps the mutations that were allocated
when it began. -/
inductive Call where
  | save (phase : SavePhase)
  | load (began : List Mutation) (phase : LoadPhase)
  | cleanup (phase : CleanupPhase)
  deriving DecidableEq

/-! ## Steps of a call -/

section Steps

variable (w : World) (o : Answered)

def World.answer (token : String) : LoadAnswer := ⟨token, w.allocated⟩

/-- A step of `save` or `clear`, with whether it schedules a cleanup. -/
def stepSave : SavePhase → World × SavePhase × Bool
  | .guarding mutation data =>
    if w.containsAllocated mutation then (w, .adding mutation data, false)
    else (w, .returned, false)
  | .adding mutation data =>
    let added := w.addGenerationRecord o mutation data
    (added.1, if added.2 then .marking mutation else .returned, false)
  | .marking mutation =>
    let marked := w.markRecordPersisted o mutation
    (marked.1, .returned, marked.2)
  | .returned => (w, .returned, false)

/-- A step of `load`, with whether it schedules a cleanup. -/
def stepLoad : LoadPhase → World × LoadPhase × Bool
  | .looking 0 => (w, .returned none, false)
  | .looking (left + 1) =>
    match w.snapshot with
    | .corrupt => (w, .returned none, false)
    | .absent => (w, .readingLegacy left true, false)
    | .available state =>
      match state.desired with
      | none => (w, .readingLegacy left false, false)
      | some desired => (w, .checking left desired, false)
  | .readingLegacy left unclaimed =>
    match w.readLegacyRecord o with
    | none => (w, .afterLegacy left unclaimed, false)
    | some token =>
      (w, if token = "" then .afterLegacy left unclaimed
        else .allocatingLegacy left unclaimed token, false)
  | .allocatingLegacy left unclaimed token =>
    let allocated := w.allocateLegacyMigrationIfUnclaimed o
    match allocated.2 with
    | none => (allocated.1, .afterLegacy left unclaimed, false)
    | some mutation =>
      ({ allocated.1 with tokens := (mutation, token) :: allocated.1.tokens },
        .addingLegacy left unclaimed mutation token, false)
  | .addingLegacy left unclaimed mutation token =>
    let added := w.addGenerationRecord o mutation token
    (added.1, if added.2 then .markingLegacy left unclaimed mutation token
      else .afterLegacy left unclaimed, false)
  | .markingLegacy left unclaimed mutation token =>
    let marked := w.markRecordPersisted o mutation
    (marked.1, if marked.2 then .checkingLegacy left unclaimed mutation token
      else .afterLegacy left unclaimed, false)
  | .checkingLegacy left unclaimed mutation token =>
    if w.isDesired mutation then (w, .returned (some (w.answer token)), true)
    else (w, .afterLegacy left unclaimed, true)
  | .afterLegacy left unclaimed =>
    match w.snapshot with
    | .available state =>
      if unclaimed || state.desired.isSome then (w, .looking left, false)
      else (w, .returned none, false)
    | _ => (w, if unclaimed then .readingRecovery left else .returned none, false)
  | .readingRecovery left =>
    match w.latestLocalRecoveryRecord o with
    | none => (w, .returned none, false)
    | some record => (w, .committingRecovery left record.1 record.2, false)
  | .committingRecovery left mutation data =>
    let recovered := w.recoverCommittedIfUnclaimed o mutation
    if recovered.2 then
      (recovered.1, .returned (if mutation.kind = .token ∧ data ≠ "" then some (w.answer data)
        else none), true)
    else (recovered.1, .looking left, false)
  | .checking left desired =>
    if w.isDesired desired then
      if desired.kind = .token then (w, .reading left desired, false)
      else (w, .returned none, true)
    else (w, .looking left, false)
  | .reading left desired =>
    match w.readGenerationRecord o desired with
    | none => (w, .checkingMissing left desired, false)
    | some data => (w, .checkingRead left desired data, false)
  | .checkingRead left desired data =>
    if w.isDesired desired then (w, .markingRead desired (w.answer data), false)
    else (w, .looking left, false)
  | .markingRead desired answer =>
    ((w.markRecordPersisted o desired).1, .returned (some answer), true)
  | .checkingMissing left desired =>
    (w, if w.isDesired desired then .readingMigratable desired else .looking left, false)
  | .readingMigratable mutation =>
    match w.readMigratableGenerationRecord o mutation with
    | none => (w, .returned none, false)
    | some data => (w, .checkingMigratable mutation data, false)
  | .checkingMigratable mutation data =>
    (w, if w.isDesired mutation && data != "" then .addingMigrated mutation data
      else .returned none, false)
  | .addingMigrated mutation data =>
    let added := w.addGenerationRecord o mutation data
    (added.1, if added.2 then .verifyingMigrated mutation data else .returned none, false)
  | .verifyingMigrated mutation data =>
    (w, if w.readGenerationRecord o mutation = some data then .checkingMigrated mutation data
      else .returned none, false)
  | .checkingMigrated mutation data =>
    if w.isDesired mutation then (w, .markingMigrated mutation (w.answer data), false)
    else (w, .returned none, true)
  | .markingMigrated mutation answer =>
    let marked := w.markRecordPersisted o mutation
    (marked.1, if marked.2 then .deletingMigratable mutation answer else .returned none, false)
  | .deletingMigratable mutation answer =>
    (w.deleteMigratableGenerationRecord o mutation, .returned (some answer), true)
  | .returned answer => (w, .returned answer, false)

def stepCleanup : CleanupPhase → World × CleanupPhase
  | .planning =>
    match w.cleanupPlan with
    | none => (w, .returned)
    | some candidates => (w, .deleting candidates [])
  | .deleting [] cleaned => (w, .removing cleaned)
  | .deleting (mutation :: todo) cleaned =>
    let deleted := w.deleteGenerationRecord o mutation
    (deleted.1, .deleting todo (if deleted.2 then mutation.generationId :: cleaned else cleaned))
  | .removing cleaned => (w.removeCleanedEntries o cleaned, .deletingLegacy)
  | .deletingLegacy => (w.deleteLegacyRecords o, .returned)
  | .returned => (w, .returned)

/-- A step of a call: the world and the call after it, and whether it schedules a cleanup. -/
def stepCall : Call → World × Call × Bool
  | .save phase =>
    let next := stepSave w o phase
    (next.1, .save next.2.1, next.2.2)
  | .load began phase =>
    let next := stepLoad w o phase
    (next.1, .load began next.2.1, next.2.2)
  | .cleanup phase =>
    let next := stepCleanup w o phase
    (next.1, .cleanup next.2, false)

end Steps

/-! ## The store -/

structure Store where
  world : World
  calls : List Call

/-- Before the first mutation: nothing is stored but legacy records, perhaps. -/
def Store.initial (legacyClassic legacySecure legacySynchronizable : Option String)
    (localBuild : Bool) : Store where
  world :=
    { preference := .absent
      disk := .absent
      classic := []
      secure := []
      legacyClassic := legacyClassic
      legacySecure := legacySecure
      legacySynchronizable := legacySynchronizable
      localBuild := localBuild
      nextGeneration := 0
      allocated := []
      tokens := [] }
  calls := []

/-- What can happen: a call begins (with a mutation that has been allocated, or one that it
allocates) or takes its next step, the entry of the preferences is lost, the app is launched
again. -/
inductive Event where
  | prepare (kind : MutationKind) (o : Answered)
  | save (mutation : Option Mutation) (token : String) (o : Answered)
  | clear (mutation : Option Mutation) (o : Answered)
  | load
  | call (i : Nat) (o : Answered)
  | undecodable
  | absent
  | relaunch (localBuild : Bool)

namespace Store

variable (s : Store)

def LatestPersisted : Prop :=
  ∃ m ∈ s.world.allocated.head?, m ∈ (s.world.classic ++ s.world.secure).map Prod.fst

instance : Decidable s.LatestPersisted := by
  unfold LatestPersisted
  infer_instance

/-- `save(_:for:)` or `clear(for:)` of a mutation of the kind. -/
def beginSave (kind : MutationKind) (data : String) (allocated : World × Option Mutation) : Store :=
  match allocated.2 with
  | none => { s with world := allocated.1 }
  | some mutation =>
    if mutation.kind = kind then
      { world := { allocated.1 with tokens := (mutation, data) :: allocated.1.tokens }
        calls := s.calls ++ [.save (.guarding mutation data)] }
    else { s with world := allocated.1 }

def given (kind : MutationKind) (mutation : Option Mutation) (o : Answered) :
    World × Option Mutation :=
  match mutation with
  | none => s.world.allocate o kind
  | some mutation =>
    (s.world, if s.world.allocated.contains mutation then some mutation else none)

def step : Event → Store
  | .prepare kind o => { s with world := (s.world.allocate o kind).1 }
  | .save mutation token o => s.beginSave .token token (s.given .token mutation o)
  | .clear mutation o =>
    s.beginSave .tombstone World.tombstoneData (s.given .tombstone mutation o)
  | .load => { s with calls := s.calls ++ [.load s.world.allocated (.looking 4)] }
  | .call i o =>
    match s.calls[i]? with
    | none => s
    | some call =>
      let next := stepCall s.world o call
      { world := next.1
        calls := s.calls.set i next.2.1 ++ if next.2.2 then [.cleanup .planning] else [] }
  | .undecodable =>
    if s.LatestPersisted then
      { s with world := { s.world with preference := .undecodable, disk := .undecodable } }
    else s
  | .absent =>
    if s.LatestPersisted then
      { s with world := { s.world with preference := .absent, disk := .absent } }
    else s
  | .relaunch localBuild =>
    { world := { s.world with preference := s.world.disk, localBuild := localBuild }
      calls := [] }

end Store

end ElectronicMail.SessionToken
