import ElectronicMail.Matters.AiJobs
import ElectronicMail.Matters.Members

/-!
# Replays of a decision

`POST /v1/matter-decisions` carries a decision out in one transaction, enqueues a job for
every separated message in others, and answers. A client that gets no answer sends the same
request again. The second one finds the record of the decision: it changes nothing, but its
answer is made from the request and has neither a revision nor the messages, and no job is
enqueued for what the first one left undone.

`decision_once_iff` says that a decision changes the members once in any run, and that the
rest of what a replay should do holds in exactly those runs in which no replay is answered.
-/

namespace ElectronicMail.Matters

open Foundations

/-! ## apply_user_decision with its result -/

/-- What `apply_user_decision` returns when it returns no conflict. `messageIds` is empty
where the result has no such key. -/
structure DecisionResult where
  decisionId : Nat
  matterIds : List Nat
  messageIds : List Nat
  revision : Option Nat

/-- How `apply_user_decision` ends. `noProfile` is the `NoResultFound` of `scalar_one`. -/
inductive DecisionOutcome where
  | lookupError
  | valueError
  | noProfile
  | conflict
  | done (result : DecisionResult)

def DecisionOutcome.result : DecisionOutcome → Option DecisionResult
  | .done result => some result
  | .lookupError | .valueError | .noProfile | .conflict => none

/-- `[matter_id] + ([target_matter_id] if target_matter_id else [])`. -/
def UserDecision.matterIds (u : UserDecision) : List Nat := u.matterId :: u.targetMatterId.toList

def UserDecision.refusal (u : UserDecision) (m : Matter) (s : Tables) : Option DecisionOutcome :=
  match u.decision with
  | .confirm | .separate =>
    if (u.selectedIds m.generationId s).isEmpty then some .valueError else none
  | .merge | .move =>
    match u.targetMatterId with
    | none => some .valueError
    | some t => if s.matters.any (Matter.is m.generationId t) then none else some .lookupError

/-- `apply_user_decision`: how it ends, and the tables afterwards. -/
def decideUser (u : UserDecision) (s : Tables) : DecisionOutcome × Tables :=
  match s.decisions.find? fun d => d.idempotencyKey == u.clientDecisionId with
  | some d => (.done ⟨d.id, u.matterIds, [], none⟩, s)
  | none =>
    match s.matters.find? fun m => m.id == u.matterId with
    | none => (.lookupError, s)
    | some m =>
      if m.revision != u.expectedRevision then (.conflict, s)
      else
        match u.refusal m s, s.profile with
        | some outcome, _ => (outcome, s)
        | none, none => (.noProfile, s)
        | none, some p =>
          (.done ⟨s.nextId, u.matterIds, u.selectedIds m.generationId s,
            some (p.revision + 1)⟩, applyUserDecision u s)

def Tables.hasDecided (s : Tables) (clientDecisionId : String) : Bool :=
  s.decisions.any fun d => d.idempotencyKey == clientDecisionId

variable {u : UserDecision} {s : Tables}

theorem accepted_iff {m : Matter} :
    u.accepted m s = true ↔ s.hasDecided u.clientDecisionId = false ∧
      m.revision = u.expectedRevision ∧ s.profile.isSome = true ∧ u.refusal m s = none := by
  unfold UserDecision.accepted UserDecision.refusal Tables.hasDecided
  cases hkind : u.decision with
  | confirm | separate => simp [and_assoc]
  | merge | move => cases u.targetMatterId <;> simp [and_assoc]

theorem decideUser_of_decided (h : s.hasDecided u.clientDecisionId = true) :
    ∃ i, decideUser u s = (.done ⟨i, u.matterIds, [], none⟩, s) := by
  unfold decideUser
  cases hd : s.decisions.find? fun d => d.idempotencyKey == u.clientDecisionId with
  | some d => exact ⟨d.id, rfl⟩
  | none =>
    obtain ⟨d, hmem, hkey⟩ := List.any_eq_true.1 h
    exact absurd hkey (List.find?_eq_none.1 hd d hmem)

theorem result_refusal {m : Matter} {outcome : DecisionOutcome}
    (h : u.refusal m s = some outcome) : outcome.result = none := by
  have hwhich : outcome = .valueError ∨ outcome = .lookupError := by
    unfold UserDecision.refusal at h
    cases hkind : u.decision with
    | confirm | separate => simp_all
    | merge | move => cases ht : u.targetMatterId <;> simp_all
  rcases hwhich with rfl | rfl
  · rfl
  · rfl

theorem decideUser_of_new (h : s.hasDecided u.clientDecisionId = false) :
    (∃ result revision, decideUser u s = (.done result, applyUserDecision u s) ∧
        result.revision = some revision ∧
        (applyUserDecision u s).hasDecided u.clientDecisionId = true) ∨
      ((decideUser u s).1.result = none ∧ (decideUser u s).2 = s) := by
  have hnone : (s.decisions.find? fun d => d.idempotencyKey == u.clientDecisionId) = none := by
    rw [List.find?_eq_none]
    intro d hd hkey
    rw [Tables.hasDecided, List.any_eq_false] at h
    exact h d hd hkey
  unfold decideUser
  rw [hnone]
  cases hm : s.matters.find? fun m => m.id == u.matterId with
  | none => exact Or.inr ⟨rfl, rfl⟩
  | some m =>
    dsimp only
    by_cases hrevision : (m.revision != u.expectedRevision) = true
    · rw [if_pos hrevision]
      exact Or.inr ⟨rfl, rfl⟩
    rw [if_neg hrevision]
    cases hrefusal : u.refusal m s with
    | some => exact Or.inr ⟨result_refusal hrefusal, rfl⟩
    | none =>
      cases hp : s.profile with
      | none => exact Or.inr ⟨rfl, rfl⟩
      | some p =>
        left
        refine ⟨_, p.revision + 1, rfl, rfl, ?_⟩
        have haccepted : u.accepted m s = true :=
          accepted_iff.2 ⟨h, by simpa using hrevision, by rw [hp]; rfl, hrefusal⟩
        have hrecord : u.acceptedRecord s = some (u.record m.generationId s) := by
          rw [UserDecision.acceptedRecord, hm]
          exact if_pos haccepted
        unfold applyUserDecision
        rw [hrecord]
        simp [Tables.hasDecided, raiseRevision, UserDecision.record]

/-! ## The route -/

/-- `ai_inbox_enabled` with the model available, and `ai_inbox_local_shadow_preview` in the
local environment. -/
structure DecisionSettings where
  available : Bool
  localPreview : Bool

def Tables.activeGeneration (s : Tables) : Option Nat :=
  s.profile.bind fun p =>
    if p.enabled then p.activeGenerationId.filter fun g => s.generations.any (·.id == g) else none

/-- `latest_shadow_generation`. -/
def Tables.latestShadow (s : Tables) : Option Nat :=
  ((s.generations.filter (·.status == .shadow)).map Generation.id).max?

/-- `decision_generation_id`: the shadow generation, where it is previewed and has the
matter. -/
def Tables.decisionGeneration (cfg : DecisionSettings) (s : Tables) (matterId : Nat) : Option Nat :=
  if cfg.localPreview && s.profile.any Profile.isReviewed then
    s.latestShadow.filter fun g => s.matters.any (Matter.is g matterId)
  else none

/-- `generation_ids` of `enqueue_message_organization`. -/
def Tables.organizeGenerations (s : Tables) (generationId : Option Nat) : List Nat :=
  match generationId with
  | some g => [g]
  | none =>
    let active := s.activeGeneration.toList
    if s.profile.any Profile.isReviewed then
      active ++ s.latestShadow.toList.filter fun g => !active.contains g
    else active

structure Reorganized where
  tables : Tables
  enqueued : List Nat

def enqueueMessageOrganization (cfg : DecisionSettings) (generationId : Option Nat)
    (messageId contentRevision : Nat) (w : Reorganized) : Reorganized :=
  if cfg.available then
    let generationIds := w.tables.organizeGenerations generationId
    { tables := generationIds.foldl
        (fun s g => enqueueAiJob g (.organize messageId contentRevision) s) w.tables
      enqueued := if generationIds.isEmpty then w.enqueued else w.enqueued ++ [messageId] }
  else w

def organizeSeparated (cfg : DecisionSettings) (generationId : Option Nat)
    (contentRevision : Nat → Nat) (w : Reorganized) (messageId : Nat) : Reorganized :=
  if w.tables.messages.any (·.messageId == messageId) then
    enqueueMessageOrganization cfg generationId messageId (contentRevision messageId) w
  else w

/-- `MatterDecisionResponse`, whose state is always `applied`. -/
structure DecisionResponse where
  clientDecisionId : String
  decisionId : Nat
  matterIds : List Nat
  revision : String
  deriving DecidableEq

/-- The answer of the route: the statuses 404, 422, 500 and 409, or a response. -/
inductive DecisionAnswer where
  | notFound
  | unprocessable
  | serverError
  | conflict
  | applied (response : DecisionResponse)
  deriving DecidableEq

def UserDecision.response (u : UserDecision) (result : DecisionResult) : DecisionResponse :=
  { clientDecisionId := u.clientDecisionId
    decisionId := result.decisionId
    matterIds := result.matterIds
    revision := (result.revision.map Nat.repr).getD "" }

def DecisionOutcome.answer (u : UserDecision) : DecisionOutcome → DecisionAnswer
  | .lookupError => .notFound
  | .valueError => .unprocessable
  | .noProfile => .serverError
  | .conflict => .conflict
  | .done result => .applied (u.response result)

/-- The messages that the route organizes again: `result.get("message_ids", [])` of a
separation. -/
def UserDecision.toOrganize (u : UserDecision) (outcome : DecisionOutcome) : List Nat :=
  if u.decision = .separate then (outcome.result.map DecisionResult.messageIds).getD [] else []

/-- `POST /v1/matter-decisions`. `crash` says how many messages the loop gets through before
the process dies and nobody is answered; without it the request is answered. -/
def matterDecision (cfg : DecisionSettings) (contentRevision : Nat → Nat) (u : UserDecision)
    (crash : Option Nat) (s : Tables) : Reorganized × Option DecisionAnswer :=
  let generationId := s.decisionGeneration cfg u.matterId
  let decided := decideUser u s
  let messageIds := u.toOrganize decided.1
  ((messageIds.take (crash.getD messageIds.length)).foldl
      (organizeSeparated cfg generationId contentRevision) ⟨decided.2, []⟩,
    if crash.isNone then some (decided.1.answer u) else none)

/-! ## Requests with one id -/

/-- The request that was accepted, the response made for it, whether or not it was sent, and
the messages that it separated. -/
structure FirstDecision where
  request : UserDecision
  response : DecisionResponse
  separated : List Nat
  deriving DecidableEq

/-- The tables, the messages that requests of this id have enqueued a job for, the one that
was accepted, the later ones that were answered, and whether a later one has changed a
member. -/
structure Replaying where
  tables : Tables
  enqueued : List Nat
  first : Option FirstDecision
  replays : List (UserDecision × DecisionAnswer)
  changedAgain : Bool

/-- A request with the id, or a change of the tables by somebody else. -/
inductive ReplayLabel where
  | requests (u : UserDecision) (contentRevision : Nat → Nat) (crash : Option Nat)
  | others (s : Tables)

def UserDecision.firstOf (u : UserDecision) (outcome : DecisionOutcome) (s : Tables) :
    Option FirstDecision :=
  outcome.result.map fun result =>
    { request := u
      response := u.response result
      separated := (u.toOrganize outcome).filter fun x => s.messages.any (·.messageId == x) }

/-- A step. Nobody else records a decision with the id, or deletes the record. -/
def Replaying.step (cfg : DecisionSettings) (clientDecisionId : String) (w : Replaying) :
    ReplayLabel → Replaying
  | .requests u contentRevision crash =>
    if u.clientDecisionId = clientDecisionId then
      let call := matterDecision cfg contentRevision u crash w.tables
      let enqueued := w.enqueued ++ call.1.enqueued
      match w.first with
      | none =>
        { w with
          tables := call.1.tables
          enqueued := enqueued
          first := u.firstOf (decideUser u w.tables).1 w.tables }
      | some _ =>
        { w with
          tables := call.1.tables
          enqueued := enqueued
          replays := w.replays ++ (call.2.map fun answer => (u, answer)).toList
          changedAgain := w.changedAgain || call.1.tables.members != w.tables.members }
    else w
  | .others s =>
    if s.hasDecided clientDecisionId = w.tables.hasDecided clientDecisionId then
      { w with tables := s }
    else w

/-- The request is the other one again: the same decision about the same messages of the
same matter. -/
def UserDecision.Repeats (u u' : UserDecision) : Prop :=
  u'.decision = u.decision ∧ u'.matterId = u.matterId ∧ ∀ x, x ∈ u'.messageIds ↔ x ∈ u.messageIds

structure Replaying.TakesEffectOnce (w : Replaying) : Prop where
  once : w.changedAgain = false
  same : ∀ f ∈ w.first, ∀ a ∈ w.replays, f.request.Repeats a.1 →
    ∃ r, a.2 = .applied r ∧ r.matterIds = f.response.matterIds ∧ r.revision = f.response.revision
  reuse : ∀ f ∈ w.first, ∀ a ∈ w.replays, ¬ f.request.Repeats a.1 → ∀ r, a.2 ≠ .applied r
  organized : ∀ f ∈ w.first, (∃ a ∈ w.replays, f.request.Repeats a.1) →
    ∀ x ∈ f.separated, x ∈ w.enqueued

def LosesAnswer (clientDecisionId : String) (w : Replaying) : ReplayLabel → Prop
  | .requests u _ crash =>
    u.clientDecisionId = clientDecisionId → w.tables.hasDecided clientDecisionId = true →
      crash.isSome = true
  | .others _ => True

def Replaying.start (clientDecisionId : String) (s : Tables) : Replaying :=
  { tables := { s with
      decisions := s.decisions.filter fun d => d.idempotencyKey != clientDecisionId }
    enqueued := []
    first := none
    replays := []
    changedAgain := false }

/-! ## Steps -/

theorem enqueueAiJob_decisions (g : Nat) (kind : AiJobKind) (s : Tables) :
    (enqueueAiJob g kind s).decisions = s.decisions := by
  unfold enqueueAiJob
  split
  · rfl
  · rfl

theorem foldl_enqueueAiJob_decisions (kind : AiJobKind) (gs : List Nat) (s : Tables) :
    (gs.foldl (fun s g => enqueueAiJob g kind s) s).decisions = s.decisions := by
  induction gs generalizing s with
  | nil => rfl
  | cons g gs ih => exact (ih (enqueueAiJob g kind s)).trans (enqueueAiJob_decisions g kind s)

theorem organizeSeparated_decisions (cfg : DecisionSettings) (generationId : Option Nat)
    (contentRevision : Nat → Nat) (w : Reorganized) (x : Nat) :
    (organizeSeparated cfg generationId contentRevision w x).tables.decisions =
      w.tables.decisions := by
  unfold organizeSeparated enqueueMessageOrganization
  split
  · split
    · exact foldl_enqueueAiJob_decisions _ _ _
    · rfl
  · rfl

theorem matterDecision_decisions (cfg : DecisionSettings) (contentRevision : Nat → Nat)
    (u : UserDecision) (crash : Option Nat) (s : Tables) :
    (matterDecision cfg contentRevision u crash s).1.tables.decisions =
      (decideUser u s).2.decisions := by
  have hloop : ∀ (generationId : Option Nat) (xs : List Nat) (w : Reorganized),
      (xs.foldl (organizeSeparated cfg generationId contentRevision) w).tables.decisions =
        w.tables.decisions := by
    intro generationId xs
    induction xs with
    | nil => exact fun _ => rfl
    | cons x xs ih => exact fun w => (ih _).trans (organizeSeparated_decisions _ _ _ _ _)
  exact hloop _ _ _

/-- **A replay changes nothing and enqueues nothing.** Its answer has no revision. -/
theorem matterDecision_replay (h : s.hasDecided u.clientDecisionId = true) (cfg : DecisionSettings)
    (contentRevision : Nat → Nat) (crash : Option Nat) :
    ∃ i, matterDecision cfg contentRevision u crash s = (⟨s, []⟩,
      if crash.isNone then some (.applied ⟨u.clientDecisionId, i, u.matterIds, ""⟩) else none) := by
  obtain ⟨i, hdecide⟩ := decideUser_of_decided h
  refine ⟨i, ?_⟩
  have hnone : u.toOrganize (.done ⟨i, u.matterIds, [], none⟩) = [] := by
    unfold UserDecision.toOrganize
    split
    · rfl
    · rfl
  unfold matterDecision
  rw [hdecide]
  dsimp only
  rw [hnone, List.take_nil]
  rfl

/-- What every run keeps: the accepted request is noted exactly when the decision is
recorded, with a response that has a revision, and no later one has changed a member. -/
structure ReplaysKept (clientDecisionId : String) (w : Replaying) : Prop where
  recorded : w.first.isSome = w.tables.hasDecided clientDecisionId
  revised : ∀ f ∈ w.first, f.response.revision ≠ ""
  unchanged : w.changedAgain = false

variable {cfg : DecisionSettings} {w : Replaying}

variable {contentRevision : Nat → Nat}

theorem replaysKept_first {crash : Option Nat} (h : ReplaysKept u.clientDecisionId w)
    (hfirst : w.first = none) : ReplaysKept u.clientDecisionId
      (w.step cfg u.clientDecisionId (.requests u contentRevision crash)) := by
  have hnew : w.tables.hasDecided u.clientDecisionId = false := by
    rw [← h.recorded, hfirst]
    rfl
  simp only [Replaying.step, if_true, hfirst]
  have hsame : (matterDecision cfg contentRevision u crash w.tables).1.tables.hasDecided
      u.clientDecisionId = (decideUser u w.tables).2.hasDecided u.clientDecisionId := by
    rw [Tables.hasDecided, matterDecision_decisions, Tables.hasDecided]
  rcases decideUser_of_new hnew with ⟨result, revision, hdone, hrevision, hrecorded⟩ | ⟨hnone, hkept⟩
  · refine ⟨?_, ?_, h.unchanged⟩
    · rw [hsame, hdone, hrecorded]
      rfl
    · intro f hf
      rw [hdone] at hf
      obtain rfl := Option.mem_some_iff.1 hf
      simp [UserDecision.response, hrevision]
  · refine ⟨?_, ?_, h.unchanged⟩
    · rw [hsame, hkept, hnew, UserDecision.firstOf, hnone]
      rfl
    · intro f hf
      rw [UserDecision.firstOf, hnone] at hf
      cases hf

theorem step_replay {crash : Option Nat} (h : ReplaysKept u.clientDecisionId w) {f : FirstDecision}
    (hfirst : w.first = some f) :
    ∃ i, w.step cfg u.clientDecisionId (.requests u contentRevision crash) = { w with
        replays := w.replays ++
          if crash.isNone then [(u, .applied ⟨u.clientDecisionId, i, u.matterIds, ""⟩)] else [] } := by
  have hdecided : w.tables.hasDecided u.clientDecisionId = true := by
    rw [← h.recorded, hfirst]
    rfl
  obtain ⟨i, hcall⟩ := matterDecision_replay hdecided cfg contentRevision crash
  refine ⟨i, ?_⟩
  simp only [Replaying.step, if_true, hfirst, hcall]
  cases crash with
  | none | some n => simp

variable {k : String}

theorem replaysKept_step (l : ReplayLabel) (h : ReplaysKept k w) : ReplaysKept k (w.step cfg k l) := by
  cases l with
  | others s =>
    simp only [Replaying.step]
    by_cases hsame : s.hasDecided k = w.tables.hasDecided k
    · rw [if_pos hsame]
      exact ⟨h.recorded.trans hsame.symm, h.revised, h.unchanged⟩
    · rw [if_neg hsame]
      exact h
  | requests u contentRevision crash =>
    by_cases hid : u.clientDecisionId = k
    · subst hid
      cases hfirst : w.first with
      | none => exact replaysKept_first h hfirst
      | some f =>
        obtain ⟨i, hstep⟩ : ∃ i, w.step cfg u.clientDecisionId
            (.requests u contentRevision crash) = { w with replays := w.replays ++
              if crash.isNone then [(u, .applied ⟨u.clientDecisionId, i, u.matterIds, ""⟩)]
              else [] } := step_replay h hfirst
        rw [hstep]
        exact ⟨h.recorded, h.revised, h.unchanged⟩
    · simp only [Replaying.step, if_neg hid]
      exact h

theorem replays_step {l : ReplayLabel}
    (h : ReplaysKept k w) (hgood : LosesAnswer k w l) : (w.step cfg k l).replays = w.replays := by
  cases l with
  | others s =>
    simp only [Replaying.step]
    by_cases hsame : s.hasDecided k = w.tables.hasDecided k
    · rw [if_pos hsame]
    · rw [if_neg hsame]
  | requests u contentRevision crash =>
    by_cases hid : u.clientDecisionId = k
    · subst hid
      cases hfirst : w.first with
      | none => simp only [Replaying.step, if_true, hfirst]
      | some f =>
        obtain ⟨i, hstep⟩ : ∃ i, w.step cfg u.clientDecisionId
            (.requests u contentRevision crash) = { w with replays := w.replays ++
              if crash.isNone then [(u, .applied ⟨u.clientDecisionId, i, u.matterIds, ""⟩)]
              else [] } := step_replay h hfirst
        have hdecided : w.tables.hasDecided u.clientDecisionId = true := by
          rw [← h.recorded, hfirst]
          rfl
        have hcrash := hgood rfl hdecided
        rw [hstep]
        cases crash with
        | none => cases hcrash
        | some n => simp
    · simp only [Replaying.step, if_neg hid]

/-- A replay that is answered shows a revision that is not that of the first response, or
is a reuse that is reported as applied. -/
theorem losesAnswer_of_takesEffect
    {l : ReplayLabel} (h : ReplaysKept k w) (hright : (w.step cfg k l).TakesEffectOnce) :
    LosesAnswer k w l := by
  cases l with
  | others s => trivial
  | requests u contentRevision crash =>
    intro hid hdecided
    subst hid
    cases hcrash : crash with
    | some n => rfl
    | none =>
      exfalso
      obtain ⟨f, hfirst⟩ := Option.isSome_iff_exists.1 (h.recorded.trans hdecided)
      obtain ⟨i, hstep⟩ : ∃ i, w.step cfg u.clientDecisionId
          (.requests u contentRevision crash) = { w with replays := w.replays ++
            if crash.isNone then [(u, .applied ⟨u.clientDecisionId, i, u.matterIds, ""⟩)]
            else [] } := step_replay h hfirst
      rw [hstep, hcrash] at hright
      have hanswered : (u, DecisionAnswer.applied ⟨u.clientDecisionId, i, u.matterIds, ""⟩) ∈
          w.replays ++ [(u, DecisionAnswer.applied ⟨u.clientDecisionId, i, u.matterIds, ""⟩)] :=
        List.mem_append_right _ List.mem_cons_self
      by_cases hrepeats : f.request.Repeats u
      · obtain ⟨r, hr, _, hrevision⟩ := hright.same f hfirst _ hanswered hrepeats
        cases hr
        exact h.revised f hfirst hrevision.symm
      · exact hright.reuse f hfirst _ hanswered hrepeats _ rfl

/-! ## Runs -/

theorem replaysKept_start (k : String) (s : Tables) : ReplaysKept k (Replaying.start k s) where
  recorded := by simp [Replaying.start, Tables.hasDecided]
  revised f hf := by cases hf
  unchanged := rfl

/-- **A decision and its replays.** The members change once in every run. The other things
that a replay should do hold throughout exactly those runs in which no replay is answered. -/
theorem decision_once_iff (cfg : DecisionSettings) (k : String) (s : Tables)
    (ls : List ReplayLabel) :
    Throughout (Replaying.step cfg k) (fun w => w.changedAgain = false) (Replaying.start k s) ls ∧
      (Throughout (Replaying.step cfg k) Replaying.TakesEffectOnce (Replaying.start k s) ls ↔
        Along (Replaying.step cfg k) (LosesAnswer k) (Replaying.start k s) ls) := by
  constructor
  · have hkept : Throughout (Replaying.step cfg k) (ReplaysKept k) (Replaying.start k s) ls :=
      throughout_of_step (fun w l h _ => replaysKept_step l h) (replaysKept_start k s)
        (along_of_forall (fun _ _ => trivial) _ _)
    exact hkept.mono fun _ h => h.unchanged
  · apply throughout_iff_along (I := fun w => ReplaysKept k w ∧ w.replays = [])
    · rintro w ⟨h, hnone⟩
      refine ⟨h.unchanged, ?_, ?_, ?_⟩
      · rw [hnone]
        exact fun _ _ a ha => absurd ha List.not_mem_nil
      · rw [hnone]
        exact fun _ _ a ha => absurd ha List.not_mem_nil
      · rw [hnone]
        rintro _ _ ⟨a, ha, _⟩
        exact absurd ha List.not_mem_nil
    · rintro w l ⟨h, hnone⟩ hgood
      exact ⟨replaysKept_step l h, (replays_step h hgood).trans hnone⟩
    · rintro w l ⟨h, _⟩ hright
      exact losesAnswer_of_takesEffect h hright
    · exact ⟨replaysKept_start k s, rfl⟩

/-- A matter of two messages, in an account with its active generation. -/
def pairMatter : Tables :=
  { Tables.fresh [⟨1, 10⟩, ⟨2, 20⟩] with
    profile := some ⟨true, true, .focused, .live, some 0, 4⟩
    generations := [⟨0, .active, .focused, none, false⟩]
    matters := [⟨3, 0, .needsYou, .automatic, some 20, true, 7⟩]
    members := [⟨0, 3, 1, .model, false, false, false⟩, ⟨0, 3, 2, .model, false, false, false⟩]
    nextId := 4
    now := 1 }

def separateSecond : UserDecision := ⟨"decision-1", .separate, 3, none, [2], 7⟩

/-- The server dies between the decision and the job of the message. The replay is reported
as applied, and the message waits for a job for ever. -/
theorem replay_leaves_unorganized :
    ¬ Throughout (Replaying.step ⟨true, false⟩ "decision-1") Replaying.TakesEffectOnce
      (Replaying.start "decision-1" pairMatter)
      [.requests separateSecond (fun _ => 1) (some 0),
        .requests separateSecond (fun _ => 1) none] := by
  intro h
  have hright := h.last.organized
    ⟨separateSecond, ⟨"decision-1", 4, [3], "5"⟩, [2]⟩ (by decide +kernel)
    ⟨(separateSecond, .applied ⟨"decision-1", 4, [3], ""⟩), by decide +kernel, rfl, rfl,
      fun _ => Iff.rfl⟩ 2 (by decide)
  revert hright
  decide +kernel

end ElectronicMail.Matters
