import ElectronicMail.Matters.Lifecycle

/-!
# Consent to AI processing

The user gives and withdraws consent and switches the AI inbox on and off with
`update_profile`. Meanwhile rebuilds are finished and promoted, and workers run jobs that
were queued at any time before: `organize_message`, which looks at the profile and the
status of its generation before it sends anything, and `extract_todos_for_matter`, which
looks at neither.

`promote_generation` switches the AI inbox on without a look at the consent, a run for a
shadow generation goes on whatever the profile says, and a run that extracts to-dos asks
for nothing but an open matter. `Guarded` excludes just these steps, and
`consent_gates` is the law for all other runs.
-/

namespace ElectronicMail.Matters

open Foundations

/-- The settings `ai_inbox_enabled` and `ai_inbox_configured`. -/
structure Deployment where
  aiInboxEnabled : Bool
  aiInboxConfigured : Bool

inductive AiRunKind where
  | organizeMessage (generationId : Nat)
  | extractTodosForMatter (generationId matterId : Nat)

/-- Where a run stands: before its first look at the tables, after `organize_message` has
read whether the profile is enabled, or past all its checks. -/
inductive AiRunStage where
  | started
  | profileRead (enabled : Bool)
  | admitted

/-- A run; `late` says that it started after a withdrawal of consent that is still in
force. -/
structure AiRun where
  kind : AiRunKind
  stage : AiRunStage
  late : Bool

/-- The tables with the runs of the workers. `withdrawn` and `disabled` are what the user
has said last: consent refused, AI inbox off. `sends` lists what was sent to a provider,
`true` for a request of a late run. -/
structure Session where
  tables : Tables
  withdrawn : Bool
  disabled : Bool
  runs : Nat → Option AiRun
  sends : List Bool

def Session.start (messages : List Message) : Session :=
  ⟨Tables.fresh messages, false, false, fun _ => none, []⟩

/-- What can happen next. `rewriteMatters` is whatever the projection does to the matters,
and `advance` a step of a run, where `goesOn` says whether anything not modelled here ends
the run: the message is gone or has been processed, the budget is spent, a call fails. -/
inductive SessionLabel where
  | request (r : Request)
  | rewriteMatters (matters : List Matter)
  | start (k : Nat) (kind : AiRunKind)
  | advance (k : Nat) (goesOn : Bool)

/-- `get_matter` finds the matter in a live generation, and it needs the user. -/
def Tables.findsOpenMatter (s : Tables) (generationId matterId : Nat) : Bool :=
  s.generations.any (fun g => g.id == generationId && g.status.isLive) &&
    s.matters.any (fun m => m.is generationId matterId && m.status == .needsYou)

/-- The status that `get_generation` returns. -/
def Tables.generationStatus (s : Tables) (generationId : Nat) : Option GenerationStatus :=
  (s.generations.find? fun g => g.id == generationId).map Generation.status

/-- What the user says with an update of the profile about one of its switches. -/
def said (wish : Option Bool) (refused : Bool) : Bool :=
  match wish with
  | some wish => !wish
  | none => refused

/-- A request is run. A call of `update_profile` that succeeds is what the user has said
last, and a renewed consent ends the lateness of the runs. -/
def Session.request (d : Deployment) (s : Session) (r : Request) : Session :=
  let s' := { s with tables := r.run d.aiInboxEnabled s.tables }
  match r with
  | .updateProfile u =>
    if (updateProfile d.aiInboxEnabled u s.tables).isSome then
      { s' with
        withdrawn := said u.consent s.withdrawn
        disabled := said u.enabled s.disabled
        runs := if u.consent = some true then
            fun k => (s.runs k).map fun run => { run with late := false }
          else s.runs }
    else s'
  | _ => s'

/-- The next step of a run: what it becomes, and whether it sends something. -/
def AiRun.next (d : Deployment) (s : Tables) (goesOn : Bool) (run : AiRun) : Option AiRun × Bool :=
  match run.kind, run.stage with
  | .organizeMessage _, .started =>
    if d.aiInboxEnabled && d.aiInboxConfigured then
      (some { run with stage := .profileRead s.currentEnabled }, false)
    else (none, false)
  | .organizeMessage g, .profileRead enabled =>
    match s.generationStatus g with
    | none => (none, false)
    | some status =>
      if status.isLive && (enabled || status == .shadow) then
        (some { run with stage := .admitted }, false)
      else (none, false)
  | .extractTodosForMatter g m, .started =>
    if s.findsOpenMatter g m then (some { run with stage := .admitted }, false)
    else (none, false)
  | .extractTodosForMatter _ _, .profileRead _ => (none, false)
  | _, .admitted => if goesOn then (some run, true) else (none, false)

def Session.step (d : Deployment) (s : Session) : SessionLabel → Session
  | .request r => s.request d r
  | .rewriteMatters matters => { s with tables := { s.tables with matters := matters } }
  | .start k kind =>
    match s.runs k with
    | some _ => s
    | none => { s with runs := Function.update s.runs k (some ⟨kind, .started, s.withdrawn⟩) }
  | .advance k goesOn =>
    match s.runs k with
    | none => s
    | some run =>
      let next := run.next d s.tables goesOn
      { s with
        runs := Function.update s.runs k next.1
        sends := if next.2 then s.sends ++ [run.late] else s.sends }

/-- An enabled profile has consent, what the user has said last holds, and no late run has
sent anything. -/
structure Gated (s : Session) : Prop where
  consented : ∀ p, s.tables.profile = some p → p.enabled = true → p.consented = true
  withdrawn : s.withdrawn = true → ∀ p, s.tables.profile = some p →
    p.consented = false ∧ p.enabled = false
  disabled : s.disabled = true → ∀ p, s.tables.profile = some p → p.enabled = false
  sends : ∀ late ∈ s.sends, late = false

/-- A late run asks neither for a shadow generation nor for an open matter. -/
def AiRun.Harmless (s : Tables) (run : AiRun) : Prop :=
  match run.kind, run.stage with
  | .organizeMessage g, .profileRead _ => s.generationStatus g ≠ some .shadow
  | .extractTodosForMatter g m, .started => s.findsOpenMatter g m = false
  | _, _ => True

instance (s : Tables) : (run : AiRun) → Decidable (run.Harmless s)
  | ⟨.organizeMessage _, .started, _⟩ => inferInstanceAs (Decidable True)
  | ⟨.organizeMessage g, .profileRead _, _⟩ =>
    inferInstanceAs (Decidable (s.generationStatus g ≠ some .shadow))
  | ⟨.organizeMessage _, .admitted, _⟩ => inferInstanceAs (Decidable True)
  | ⟨.extractTodosForMatter g m, .started, _⟩ =>
    inferInstanceAs (Decidable (s.findsOpenMatter g m = false))
  | ⟨.extractTodosForMatter _ _, .profileRead _, _⟩ | ⟨.extractTodosForMatter _ _, .admitted, _⟩ =>
    inferInstanceAs (Decidable True)

/-- A promotion finds the consent of the user, who has not switched the AI inbox off, and
a late run is harmless. -/
def Guarded (s : Session) : SessionLabel → Prop
  | .request r => r.promotes s.tables ≠ none →
      s.tables.currentConsent = true ∧ s.disabled = false
  | .advance k _ => ∀ run ∈ s.runs k, run.late = true → run.Harmless s.tables
  | .rewriteMatters _ => True
  | .start _ _ => True

instance (s : Session) : (l : SessionLabel) → Decidable (Guarded s l)
  | .request r => inferInstanceAs (Decidable (r.promotes s.tables ≠ none →
      s.tables.currentConsent = true ∧ s.disabled = false))
  | .advance k _ => inferInstanceAs (Decidable (∀ run ∈ s.runs k, run.late = true →
      run.Harmless s.tables))
  | .rewriteMatters _ | .start _ _ => inferInstanceAs (Decidable True)

/-! ## The switches of the profile -/

@[simp]
theorem upsertProfile_currentConsent (consented enabled : Bool) (style : GroupingStyle)
    (current : Option Nat) (s : Tables) :
    (upsertProfile consented enabled style current s).currentConsent = consented := by
  cases hp : s.profile <;> simp [upsertProfile, Tables.currentConsent, hp]

@[simp]
theorem upsertProfile_currentEnabled (consented enabled : Bool) (style : GroupingStyle)
    (current : Option Nat) (s : Tables) :
    (upsertProfile consented enabled style current s).currentEnabled = enabled := by
  cases hp : s.profile <;> simp [upsertProfile, Tables.currentEnabled, hp]

theorem switches_updateProfile {on : Bool} {u : ProfileUpdate} {s s' : Tables}
    {built : Option Nat} (h : updateProfile on u s = some (s', built)) :
    s'.currentConsent = u.resolvedConsent s ∧ s'.currentEnabled = u.resolvedEnabled on s := by
  rcases updateProfile_cases h with ⟨_, _, hon, rfl⟩ | ⟨hon, rfl⟩ | ⟨_, _, hon, rfl⟩ | ⟨_, rfl⟩
  · simp [hon]
  · simp [hon]
  · simp [hon]
  · simp

theorem switches_startShadow {style : GroupingStyle} {s s' : Tables}
    (h : startShadowGeneration style s = some s') :
    s'.currentConsent = s.currentConsent ∧ s'.currentEnabled = s.currentEnabled := by
  obtain ⟨p, hp, _, _, _, hprofile⟩ := startShadowGeneration_cases h
  simp [Tables.currentConsent, Tables.currentEnabled, hp, hprofile]

theorem consent_promote (i : Nat) (s : Tables) :
    (promoteGeneration i s).currentConsent = s.currentConsent := by
  by_cases h : s.promotable i = true
  · obtain ⟨_, _, hprofile⟩ := promoteGeneration_eq h
    cases hp : s.profile <;> simp [Tables.currentConsent, hprofile, hp]
  · rw [promoteGeneration_of_not (by simpa using h)]

/-! ## The invariant -/

def AiRun.heldBack (run : AiRun) : Prop :=
  run.stage ≠ .admitted ∧ run.stage ≠ .profileRead true

structure GateKept (s : Session) : Prop where
  consented : s.tables.currentEnabled = true → s.tables.currentConsent = true
  withdrawn : s.withdrawn = true → s.tables.currentConsent = false
  disabled : s.disabled = true → s.tables.currentEnabled = false
  late : ∀ k run, s.runs k = some run → run.late = true → s.withdrawn = true ∧ run.heldBack
  sends : ∀ late ∈ s.sends, late = false

variable {s : Session}

theorem GateKept.gated (h : GateKept s) : Gated s where
  consented := by
    intro p hp he
    have := h.consented (by simp [Tables.currentEnabled, hp, he])
    simpa [Tables.currentConsent, hp] using this
  withdrawn := by
    intro hw p hp
    have hconsent : p.consented = false := by
      simpa [Tables.currentConsent, hp] using h.withdrawn hw
    refine ⟨hconsent, ?_⟩
    by_contra he
    have := h.consented (by simpa [Tables.currentEnabled, hp] using he)
    simp [Tables.currentConsent, hp, hconsent] at this
  disabled := by
    intro hd p hp
    simpa [Tables.currentEnabled, hp] using h.disabled hd
  sends := h.sends

theorem gateKept_start (messages : List Message) : GateKept (Session.start messages) where
  consented := by simp [Session.start, Tables.fresh, Tables.currentEnabled]
  withdrawn := by simp [Session.start]
  disabled := by simp [Session.start]
  late := by simp [Session.start]
  sends := by simp [Session.start]

theorem GateKept.rewrite (h : GateKept s) {t : Tables}
    (hconsented : t.currentEnabled = true → t.currentConsent = true)
    (hwithdrawn : s.withdrawn = true → t.currentConsent = false)
    (hdisabled : s.disabled = true → t.currentEnabled = false) :
    GateKept { s with tables := t } :=
  ⟨hconsented, hwithdrawn, hdisabled, h.late, h.sends⟩

theorem gateKept_promote (h : GateKept s) (i : Nat) (hguard : s.tables.promotable i = true →
      s.tables.currentConsent = true ∧ s.disabled = false) :
    GateKept { s with tables := promoteGeneration i s.tables } := by
  by_cases hp : s.tables.promotable i = true
  · obtain ⟨hconsent, hnot⟩ := hguard hp
    apply h.rewrite
    · intro _
      rw [consent_promote]
      exact hconsent
    · intro hw
      rw [consent_promote]
      exact h.withdrawn hw
    · intro hd
      rw [hnot] at hd
      cases hd
  · rw [promoteGeneration_of_not (by simpa using hp)]
    exact h

variable {d : Deployment}

theorem gateKept_updateProfile {u : ProfileUpdate} (h : GateKept s) :
    GateKept (s.request d (.updateProfile u)) := by
  cases hrun : updateProfile d.aiInboxEnabled u s.tables with
  | none => simpa [Session.request, Request.run, hrun] using h
  | some result =>
    obtain ⟨t, built⟩ := result
    obtain ⟨hconsent, henabled⟩ := switches_updateProfile hrun
    have hstep : s.request d (.updateProfile u) =
        { s with
          tables := t
          withdrawn := said u.consent s.withdrawn
          disabled := said u.enabled s.disabled
          runs := if u.consent = some true then
              fun k => (s.runs k).map fun run => { run with late := false }
            else s.runs } := by
      simp [Session.request, Request.run, hrun]
    rw [hstep]
    constructor
    · show t.currentEnabled = true → t.currentConsent = true
      rw [hconsent, henabled]
      intro he
      simp [ProfileUpdate.resolvedEnabled] at he
      exact he.1.2
    · show said u.consent s.withdrawn = true → t.currentConsent = false
      rw [hconsent]
      intro hw
      cases hc : u.consent with
      | none =>
        have := h.withdrawn (by simpa [said, hc] using hw)
        simpa [ProfileUpdate.resolvedConsent, hc] using this
      | some wish =>
        have hwish : wish = false := by simpa [said, hc] using hw
        simp [ProfileUpdate.resolvedConsent, hc, hwish]
    · show said u.enabled s.disabled = true → t.currentEnabled = false
      rw [henabled]
      intro hd
      cases he : u.enabled with
      | none =>
        have := h.disabled (by simpa [said, he] using hd)
        simp [ProfileUpdate.resolvedEnabled, he, this]
      | some wish =>
        have hwish : wish = false := by simpa [said, he] using hd
        simp [ProfileUpdate.resolvedEnabled, he, hwish]
    · intro k run hk hlate
      by_cases hc : u.consent = some true
      · -- A renewed consent leaves no late run.
        simp only [hc, if_true, Option.map_eq_some_iff] at hk
        obtain ⟨run₀, _, rfl⟩ := hk
        cases hlate
      · simp only [hc, if_false] at hk
        obtain ⟨hw, hheld⟩ := h.late k run hk hlate
        refine ⟨?_, hheld⟩
        cases hwish : u.consent with
        | none => simpa [said] using hw
        | some wish =>
          cases wish with
          | false => rfl
          | true => exact absurd hwish hc
    · exact h.sends

theorem gateKept_request {r : Request} (h : GateKept s)
    (hguard : Guarded s (.request r)) : GateKept (s.request d r) := by
  cases r with
  | updateProfile u => exact gateKept_updateProfile h
  | startShadowGeneration style =>
    cases hrun : startShadowGeneration style s.tables with
    | none => simpa [Session.request, Request.run, hrun] using h
    | some t =>
      obtain ⟨hconsent, henabled⟩ := switches_startShadow hrun
      have hkept : GateKept { s with tables := t } := by
        apply h.rewrite
        · rw [hconsent, henabled]
          exact h.consented
        · rw [hconsent]
          exact h.withdrawn
        · rw [henabled]
          exact h.disabled
      simpa [Session.request, Request.run, hrun] using hkept
  | finalizeGeneration status i =>
    cases status with
    | building =>
      apply gateKept_promote h i
      intro hp
      exact hguard (by simp [Request.promotes, hp])
    | shadow => exact ⟨h.consented, h.withdrawn, h.disabled, h.late, h.sends⟩
    | active | superseded | failed => exact h
  | promoteGeneration i =>
    apply gateKept_promote h i
    intro hp
    exact hguard (by simp [Request.promotes, hp])
  | deleteAiData =>
    apply h.rewrite
    · simp [Request.run, deleteAiData, Tables.currentEnabled]
    · simp [Request.run, deleteAiData, Tables.currentConsent]
    · simp [Request.run, deleteAiData, Tables.currentEnabled]

variable {run : AiRun} {goesOn : Bool}

/-- What the next step of a run can do: a run that is harmless is admitted only when it has read
that the AI inbox is enabled. -/
theorem AiRun.next_cases (d : Deployment) (s : Tables) (goesOn : Bool) (run : AiRun) :
    run.next d s goesOn = (none, false) ∨
      run.next d s goesOn = (some { run with stage := .profileRead s.currentEnabled }, false) ∨
      (run.next d s goesOn = (some { run with stage := .admitted }, false) ∧
        (run.Harmless s → run.stage = .profileRead true)) ∨
      (run.next d s goesOn = (some run, true) ∧ run.stage = .admitted) := by
  obtain ⟨kind, stage, late⟩ := run
  cases stage with
  | started =>
    cases kind with
    | organizeMessage g => cases hd : (d.aiInboxEnabled && d.aiInboxConfigured) <;> simp [next, hd]
    | extractTodosForMatter g m =>
      cases hopen : s.findsOpenMatter g m <;> simp [next, hopen, Harmless]
  | profileRead enabled =>
    cases kind with
    | organizeMessage g =>
      cases hs : s.generationStatus g with
      | none => simp [next, hs]
      | some status =>
        cases hlive : (status.isLive && (enabled || status == .shadow)) with
        | false => simp only [next, hs, hlive]; simp
        | true =>
          refine Or.inr (Or.inr (Or.inl ⟨by simp only [next, hs, if_pos hlive], fun hne => ?_⟩))
          have hne : status ≠ .shadow := fun heq => hne (by rw [hs, heq])
          simpa [hne] using (Bool.and_eq_true_iff.1 hlive).2
    | extractTodosForMatter g m => exact Or.inl rfl
  | admitted => cases goesOn <;> cases kind <;> simp [next]

theorem next_heldBack {s : Tables} {run' : AiRun}
    (hoff : s.currentEnabled = false) (hheld : run.heldBack) (hharmless : run.Harmless s)
    (h : (run.next d s goesOn).1 = some run') : run'.heldBack := by
  rcases run.next_cases d s goesOn with hnext | hnext | ⟨-, hread⟩ | ⟨-, hadmitted⟩
  · rw [hnext] at h
    cases h
  · rw [hnext] at h
    cases h
    simp [AiRun.heldBack, hoff]
  · exact absurd (hread hharmless) hheld.2
  · exact absurd hadmitted hheld.1

theorem next_late {s : Tables} {run' : AiRun}
    (h : (run.next d s goesOn).1 = some run') : run'.late = run.late := by
  rcases run.next_cases d s goesOn with hnext | hnext | ⟨hnext, -⟩ | ⟨hnext, -⟩
  all_goals
    rw [hnext] at h
    cases h
  all_goals rfl

theorem next_sends {s : Tables} (h : (run.next d s goesOn).2 = true) : run.stage = .admitted := by
  rcases run.next_cases d s goesOn with hnext | hnext | ⟨hnext, -⟩ | ⟨-, hadmitted⟩
  · simp [hnext] at h
  · simp [hnext] at h
  · simp [hnext] at h
  · exact hadmitted

theorem gateKept_advance {k : Nat} (h : GateKept s)
    (hguard : Guarded s (.advance k goesOn)) : GateKept (s.step d (.advance k goesOn)) := by
  cases hk : s.runs k with
  | none => simpa [Session.step, hk] using h
  | some run =>
    have hstep : s.step d (.advance k goesOn) =
        { s with
          runs := Function.update s.runs k (run.next d s.tables goesOn).1
          sends := if (run.next d s.tables goesOn).2 then s.sends ++ [run.late] else s.sends } := by
      simp [Session.step, hk]
    rw [hstep]
    refine ⟨h.consented, h.withdrawn, h.disabled, ?_, ?_⟩
    · intro j run' hj hlate'
      by_cases hjk : j = k
      · subst hjk
        simp only [Function.update_self] at hj
        have hlate : run.late = true := by rw [← next_late hj, hlate']
        obtain ⟨hw, hheld⟩ := h.late j run hk hlate
        have hoff : s.tables.currentEnabled = false := by
          by_contra hon
          have := h.consented (by simpa using hon)
          rw [h.withdrawn hw] at this
          cases this
        exact ⟨hw, next_heldBack hoff hheld (hguard run hk hlate) hj⟩
      · simp only [Function.update_of_ne hjk] at hj
        exact h.late j run' hj hlate'
    · intro late hmem
      by_cases hsent : (run.next d s.tables goesOn).2 = true
      · simp only [hsent, if_true, List.mem_append, List.mem_singleton] at hmem
        rcases hmem with hmem | rfl
        · exact h.sends late hmem
        · by_contra hlate
          have hheld := (h.late k run hk (by simpa using hlate)).2
          exact hheld.1 (next_sends hsent)
      · simp only [hsent] at hmem
        exact h.sends late hmem

/-- **A guarded step keeps the gate.** -/
theorem gateKept_step {l : SessionLabel} (h : GateKept s)
    (hguard : Guarded s l) : GateKept (s.step d l) := by
  cases l with
  | request r => exact gateKept_request h hguard
  | rewriteMatters => exact ⟨h.consented, h.withdrawn, h.disabled, h.late, h.sends⟩
  | start k kind =>
    cases hk : s.runs k with
    | some run => simpa [Session.step, hk] using h
    | none =>
      have hstep : s.step d (.start k kind) =
          { s with runs := Function.update s.runs k (some ⟨kind, .started, s.withdrawn⟩) } := by
        simp [Session.step, hk]
      rw [hstep]
      refine ⟨h.consented, h.withdrawn, h.disabled, ?_, h.sends⟩
      intro j run hj hlate
      by_cases hjk : j = k
      · subst hjk
        simp only [Function.update_self, Option.some.injEq] at hj
        subst hj
        exact ⟨hlate, by simp [AiRun.heldBack]⟩
      · simp only [Function.update_of_ne hjk] at hj
        exact h.late j run hj hlate
  | advance => exact gateKept_advance h hguard

/-- **Consent gates the AI inbox** in every guarded run. -/
theorem consent_gates (d : Deployment) (messages : List Message) (ls : List SessionLabel)
    (h : Along (Session.step d) Guarded (Session.start messages) ls) :
    Throughout (Session.step d) Gated (Session.start messages) ls := by
  have hkept : Throughout (Session.step d) GateKept (Session.start messages) ls :=
    throughout_of_step (fun _ _ hs hl => gateKept_step hs hl) (gateKept_start messages) h
  exact hkept.mono fun _ hs => hs.gated

/-- The user switches the AI inbox on, asks for a rebuild, and withdraws the consent. -/
def withdrawal : List SessionLabel :=
  [.request (.updateProfile ⟨some true, some true, none, true⟩),
   .request (.updateProfile ⟨none, none, some .broader, true⟩),
   .request (.updateProfile ⟨some false, none, none, true⟩)]

/-- A job for the rebuild that starts after the withdrawal sends nothing. -/
theorem consent_gates_withdrawal :
    Throughout (Session.step ⟨true, true⟩) Gated (Session.start [])
      (withdrawal ++ [.start 0 (.organizeMessage 1), .advance 0 true, .advance 0 true,
        .advance 0 true]) :=
  consent_gates ⟨true, true⟩ [] _ (by decide +kernel)

/-- The rebuild is finished after the withdrawal, and its promotion switches the AI inbox
on without consent. -/
theorem promotion_enables_without_consent :
    ¬ Throughout (Session.step ⟨true, true⟩) Gated (Session.start [])
      (withdrawal ++ [.request (.finalizeGeneration .building 1)]) := by
  intro h
  have hconsent := h.last.consented
    ⟨false, true, .broader, .live, some 1, 4⟩ (by decide +kernel) rfl
  cases hconsent

end ElectronicMail.Matters
