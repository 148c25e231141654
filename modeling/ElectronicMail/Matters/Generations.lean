import ElectronicMail.Matters.Rows

/-!
# Generations of the projection

`create_generation`, `update_profile`, `promote_generation`, `start_shadow_generation`,
`complete_shadow_generation`, `delete_ai_data` and the end of `finalize_generation`. Each
is one transaction on the tables. The profile row is locked while `update_profile` and
`start_shadow_generation` decide, `promote_generation` ends with an update of that row,
and a unique index admits one active generation for an account.
-/

namespace ElectronicMail.Matters

open Foundations.Table

/-- `status IN ('building', 'shadow')`. -/
def GenerationStatus.isRebuild : GenerationStatus → Bool
  | .building | .shadow => true
  | .active | .superseded | .failed => false

/-- `status IN ('active', 'building', 'shadow')`. -/
def GenerationStatus.isLive : GenerationStatus → Bool
  | .active | .building | .shadow => true
  | .superseded | .failed => false

def Generation.isActive (g : Generation) : Bool := g.status == .active

def Generation.isRebuild (g : Generation) : Bool := g.status.isRebuild

@[simp]
theorem Generation.isActive_iff {g : Generation} : g.isActive = true ↔ g.status = .active := by
  simp [Generation.isActive]

/-! ## create_generation -/

def Matter.copy (generationId newId : Nat) (m : Matter) : Matter :=
  { m with id := newId, generationId := generationId, confidenceState := .confirmed, revision := 1 }

def Member.copy (generationId newMatterId : Nat) (m : Member) : Member :=
  { generationId := generationId, matterId := newMatterId, messageId := m.messageId,
    membershipSource := .user, provisional := false, userConfirmed := true,
    membershipLocked := true }

def Tables.lockedMembersOf (s : Tables) (generationId matterId : Nat) : List Member :=
  (s.membersOf generationId matterId).filter Member.membershipLocked

def Tables.protectedMatters (s : Tables) (generationId : Nat) : List Matter :=
  s.matters.filter fun m =>
    m.generationId == generationId && !(s.lockedMembersOf generationId m.id).isEmpty

/-- The protected matters of the source generation, each with the id of its copy. -/
def Tables.copies (s : Tables) (sourceGenerationId firstId : Nat) : List (Matter × Nat) :=
  (s.protectedMatters sourceGenerationId).zipIdx firstId

/-- Locked membership of the source generation is copied into new matters of the
generation. -/
def copyProtected (generationId sourceGenerationId : Nat) (s : Tables) : Tables :=
  let copies := s.copies sourceGenerationId s.nextId
  { s with
    matters := s.matters ++ copies.map fun c => c.1.copy generationId c.2
    members := s.members ++ copies.flatMap fun c =>
      (s.lockedMembersOf sourceGenerationId c.1.id).map (Member.copy generationId c.2)
    nextId := s.nextId + copies.length }

/-- `create_generation`. The id of the generation is the next one. -/
def createGeneration (groupingStyle : GroupingStyle) (status : GenerationStatus)
    (sourceGenerationId : Option Nat) (s : Tables) : Tables :=
  let created : Tables :=
    { s with
      generations := s.generations ++ [⟨s.nextId, status, groupingStyle, sourceGenerationId, false⟩]
      nextId := s.nextId + 1 }
  match sourceGenerationId with
  | none => created
  | some source => copyProtected s.nextId source created

/-! ## update_profile -/

/-- The arguments of `update_profile`. -/
structure ProfileUpdate where
  consent : Option Bool
  enabled : Option Bool
  groupingStyle : Option GroupingStyle
  rebuildExisting : Bool
  deriving DecidableEq

def Tables.currentConsent (s : Tables) : Bool := s.profile.any Profile.consented

def Tables.currentEnabled (s : Tables) : Bool := s.profile.any Profile.enabled

def Tables.currentStyle (s : Tables) : GroupingStyle :=
  (s.profile.map Profile.groupingStyle).getD .focused

def Tables.currentGeneration (s : Tables) : Option Nat := s.profile.bind Profile.activeGenerationId

def ProfileUpdate.resolvedConsent (u : ProfileUpdate) (s : Tables) : Bool :=
  u.consent.getD s.currentConsent

/-- `resolved_enabled`: consent is required, and the deployment has the AI inbox on. The
`ValueError` for a missing consent comes after the value has been reset and is never
raised. -/
def ProfileUpdate.resolvedEnabled (u : ProfileUpdate) (aiInboxEnabled : Bool) (s : Tables) : Bool :=
  u.enabled.getD s.currentEnabled && u.resolvedConsent s && aiInboxEnabled

def ProfileUpdate.resolvedStyle (u : ProfileUpdate) (s : Tables) : GroupingStyle :=
  u.groupingStyle.getD s.currentStyle

/-- The rollout mode is `shadow` or `preview`. -/
def Profile.isReviewed (p : Profile) : Bool :=
  p.rolloutMode == .shadow || p.rolloutMode == .preview

/-- `UPDATE matter_generations SET grouping_style = … WHERE id = … AND status = 'active'`. -/
def restyleActive (generationId : Nat) (groupingStyle : GroupingStyle) (s : Tables) : Tables :=
  { s with
    generations := updateWhere (fun g => g.id == generationId && g.isActive)
      (fun g => { g with groupingStyle := groupingStyle }) s.generations }

def upsertProfile (consented enabled : Bool) (groupingStyle : GroupingStyle)
    (currentGeneration : Option Nat) (s : Tables) : Tables :=
  let rolloutMode : RolloutMode := if enabled then .live else .disabled
  let row : Profile := match s.profile with
    | none => ⟨consented, enabled, groupingStyle, rolloutMode, currentGeneration, 1⟩
    | some p =>
      ⟨consented, enabled, groupingStyle, rolloutMode,
        p.activeGenerationId.or currentGeneration, p.revision + 1⟩
  { s with profile := some row }

/-- `update_profile`: `none` when it raises, and otherwise the tables and the generation
that has to be built. -/
def updateProfile (aiInboxEnabled : Bool) (u : ProfileUpdate) (s : Tables) :
    Option (Tables × Option Nat) :=
  let enabled := u.resolvedEnabled aiInboxEnabled s
  let style := u.resolvedStyle s
  let upsert := upsertProfile (u.resolvedConsent s) enabled style
  if enabled && s.currentGeneration.isNone then
    if s.profile.any Profile.isReviewed then none
    -- The index `uq_matter_generations_active_account`.
    else if s.generations.any Generation.isActive then none
    else some (upsert (some s.nextId) (createGeneration style .active none s), some s.nextId)
  else if enabled && style != s.currentStyle && u.rebuildExisting then
    some (upsert s.currentGeneration (createGeneration style .building s.currentGeneration s),
      some s.nextId)
  else if enabled && style != s.currentStyle then
    match s.currentGeneration with
    | some generationId =>
      some (upsert s.currentGeneration (restyleActive generationId style s), none)
    | none => some (upsert none s, none)
  else some (upsert s.currentGeneration s, none)

/-! ## promote_generation and the shadow generations -/

/-- `UPDATE background_jobs SET status = 'cancelled'` for the queued and running jobs of
some generations. -/
def cancelJobs (generationIds : List Nat) (s : Tables) : Tables :=
  { s with
    jobs := updateWhere (fun j => j.status.isActive && generationIds.contains j.generationId)
      (fun j => { j with status := .cancelled }) s.jobs }

/-- The queued `ai_generation_finalize` jobs of a promoted generation are cancelled. -/
def cancelFinalize (generationId : Nat) (s : Tables) : Tables :=
  { s with
    jobs := updateWhere
      (fun j => j.status == .queued && j.kind == .finalize && j.generationId == generationId)
      (fun j => { j with status := .cancelled }) s.jobs }

def Tables.activeIds (s : Tables) : List Nat := (s.generations.filter Generation.isActive).map (·.id)

def Tables.promotable (s : Tables) (generationId : Nat) : Bool :=
  s.generations.any fun g => g.id == generationId && g.isRebuild

def promoteGeneration (generationId : Nat) (s : Tables) : Tables :=
  if s.promotable generationId then
    let superseded := s.activeIds
    let s := { s with
      generations :=
        updateWhere (fun g => g.id == generationId)
          (fun g => { g with status := .active, completed := true })
          (updateWhere Generation.isActive (fun g => { g with status := .superseded })
            s.generations) }
    let s := cancelFinalize generationId (cancelJobs superseded s)
    { s with
      profile := s.profile.map fun p =>
        { p with
          activeGenerationId := some generationId, enabled := true, rolloutMode := .live,
          revision := p.revision + 1 } }
  else s

def supersedeShadows (s : Tables) : Tables :=
  let superseded := (s.generations.filter fun g => g.status == .shadow).map (·.id)
  cancelJobs superseded
    { s with
      generations := updateWhere (fun g => g.status == .shadow)
        (fun g => { g with status := .superseded }) s.generations }

/-- `start_shadow_generation`: `none` when it raises. -/
def startShadowGeneration (groupingStyle : GroupingStyle) (s : Tables) : Option Tables :=
  match s.profile with
  | none => none
  | some p =>
    if p.consented then
      let created := createGeneration groupingStyle .shadow p.activeGenerationId
        (supersedeShadows s)
      some { created with
        profile := some
          { p with
            groupingStyle := groupingStyle, rolloutMode := .shadow, revision := p.revision + 1 } }
    else none

def completeShadowGeneration (generationId : Nat) (s : Tables) : Tables :=
  { s with
    generations := updateWhere (fun g => g.id == generationId && g.status == .shadow)
      (fun g => { g with completed := true }) s.generations }

/-- The last transaction of `finalize_generation`, which goes by the status of the
generation that it has read before. -/
def finalizeGeneration (status : GenerationStatus) (generationId : Nat) (s : Tables) : Tables :=
  match status with
  | .shadow => completeShadowGeneration generationId s
  | .building => promoteGeneration generationId s
  | .active | .superseded | .failed => s

/-- `delete_ai_data`, with the rows that go with their generation. -/
def deleteAiData (s : Tables) : Tables :=
  { s with
    profile := none, generations := [], matters := [], members := [], subgoals := [],
    decisions := [], semantics := [] }

/-! ## What happens to the generations of an account -/

inductive Request where
  | updateProfile (update : ProfileUpdate)
  | startShadowGeneration (groupingStyle : GroupingStyle)
  | finalizeGeneration (status : GenerationStatus) (generationId : Nat)
  | promoteGeneration (generationId : Nat)
  | deleteAiData
  deriving DecidableEq

/-- The tables after a request; one that raises leaves them as they are. -/
def Request.run (aiInboxEnabled : Bool) (s : Tables) : Request → Tables
  | .updateProfile u => ((Matters.updateProfile aiInboxEnabled u s).map Prod.fst).getD s
  | .startShadowGeneration style => (Matters.startShadowGeneration style s).getD s
  | .finalizeGeneration status g => Matters.finalizeGeneration status g s
  | .promoteGeneration g => Matters.promoteGeneration g s
  | .deleteAiData => Matters.deleteAiData s

def Request.promotes (s : Tables) : Request → Option Nat
  | .promoteGeneration g => if s.promotable g then some g else none
  | .finalizeGeneration .building g => if s.promotable g then some g else none
  | _ => none

end ElectronicMail.Matters
