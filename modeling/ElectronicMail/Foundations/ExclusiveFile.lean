import ElectronicMail.Foundations.Run

/-!
# Files that are written or removed

A call checks its arguments, opens its output exclusively, works on it, and unlinks the path when
the open or a later step fails. Other processes put files at the path and remove them between any
two steps. `Clean` says that a call that has failed leaves no file of its own and has removed none
of another process; it holds throughout the runs in which the unlink meets no file of another
process and does not itself fail (`throughout_clean_iff`).
-/

namespace ElectronicMail.Foundations.ExclusiveFile

universe u

variable {α : Type u}

inductive Action (α : Type u) where
  | pass
  | write (units : List α)
  | fail

/-- What is checked before the output is opened: a condition, or that nothing is at the path. -/
inductive Check where
  | holds (condition : Bool)
  | absent

structure Call (α : Type u) where
  checks : List Check
  work : List (Action α)

inductive Creator where
  | self
  | other
  deriving DecidableEq

inductive Phase (α : Type u) where
  | checking (rest : List Check)
  | working (rest : List (Action α))
  | cleaning
  | raised
  | returned

/-- `written` is what the call has written to its own file, `harmed` whether it has removed a file
of another process. -/
structure State (α : Type u) where
  entry : Option Creator
  written : List α
  phase : Phase α
  harmed : Bool

inductive Event where
  | step (fails : Bool)
  | placed
  | removed

def State.start (call : Call α) (occupied : Bool) : State α where
  entry := if occupied then some .other else none
  written := []
  phase := .checking call.checks
  harmed := false

def Check.passes (entry : Option Creator) : Check → Bool
  | .holds condition => condition
  | .absent => entry.isNone

def Action.perform (s : State α) (rest : List (Action α)) : Action α → State α
  | .pass => { s with phase := .working rest }
  | .write units => { s with written := s.written ++ units, phase := .working rest }
  | .fail => { s with phase := .cleaning }

def openOutput (call : Call α) (s : State α) : State α :=
  match s.entry with
  | none => { s with entry := some .self, phase := .working call.work }
  | some _ => { s with phase := .cleaning }

/-- `unlink(missing_ok=True)`. -/
def unlink (s : State α) : State α :=
  { s with
    entry := none
    phase := .raised
    harmed := s.harmed || s.entry == some .other }

def advance (call : Call α) (s : State α) (fails : Bool) : State α :=
  match s.phase with
  | .checking (check :: rest) =>
    if fails || !check.passes s.entry then { s with phase := .raised }
    else { s with phase := .checking rest }
  | .checking [] => if fails then { s with phase := .cleaning } else openOutput call s
  | .working (action :: rest) =>
    if fails then { s with phase := .cleaning } else action.perform s rest
  | .working [] => { s with phase := if fails then .cleaning else .returned }
  | .cleaning => if fails then { s with phase := .raised } else unlink s
  | .raised => s
  | .returned => s

def step (call : Call α) (s : State α) : Event → State α
  | .step fails => advance call s fails
  | .placed => { s with entry := some .other }
  | .removed => { s with entry := none }

/-! ## What a call that fails leaves -/

/-- No file of another process has been removed, and a call that has failed has no file of its
own at the path. -/
def Clean (s : State α) : Prop :=
  s.harmed = false ∧ (s.phase = .raised → s.entry ≠ some .self)

/-- The unlink meets no file of another process, and removes what it is for. -/
def Spares (s : State α) : Event → Prop
  | .step fails => s.phase = .cleaning →
      (s.entry = some .other → fails = true) ∧ (s.entry = some .self → fails = false)
  | .placed => True
  | .removed => True

/-- `Clean`, and no file of the call before it is opened. -/
structure Inv (s : State α) : Prop where
  clean : Clean s
  unopened : ∀ rest, s.phase = .checking rest → s.entry ≠ some .self

theorem inv_start (call : Call α) (occupied : Bool) : Inv (State.start call occupied) := by
  have hentry : (State.start call occupied).entry ≠ some .self := by
    cases occupied <;> simp [State.start]
  exact ⟨⟨rfl, fun _ => hentry⟩, fun _ _ => hentry⟩

variable {s : State α}

theorem Inv.of_phase {t : State α} (h : Inv s) (hharmed : t.harmed = s.harmed)
    (hraised : t.phase ≠ .raised) (hchecking : ∀ rest, t.phase ≠ .checking rest) : Inv t :=
  ⟨⟨hharmed.trans h.clean.1, fun hphase => absurd hphase hraised⟩,
    fun rest hphase => absurd hphase (hchecking rest)⟩

theorem Inv.of_entry {t : State α} (h : Inv s) (hharmed : t.harmed = s.harmed)
    (hentry : t.entry ≠ some .self) : Inv t :=
  ⟨⟨hharmed.trans h.clean.1, fun _ => hentry⟩, fun _ _ => hentry⟩

variable {call : Call α}

theorem Inv.openOutput (h : Inv s) : Inv (ExclusiveFile.openOutput call s) := by
  unfold ExclusiveFile.openOutput
  split
  · exact h.of_phase rfl (by simp) (by simp)
  · exact h.of_phase rfl (by simp) (by simp)

theorem Inv.perform (h : Inv s) (rest : List (Action α)) (action : Action α) :
    Inv (action.perform s rest) := by
  cases action with
  | pass | write | fail =>
    exact h.of_phase rfl (by simp [Action.perform]) (by simp [Action.perform])

theorem Inv.advance (h : Inv s) {fails : Bool} (hspares : Spares s (.step fails)) :
    Inv (advance call s fails) := by
  unfold ExclusiveFile.advance
  split
  · next check rest hphase =>
      have hentry := h.unopened _ hphase
      split
      · exact h.of_entry rfl hentry
      · exact h.of_entry rfl hentry
  · split
    · exact h.of_phase rfl (by simp) (by simp)
    · exact h.openOutput
  · split
    · exact h.of_phase rfl (by simp) (by simp)
    · exact h.perform _ _
  · cases fails with
    | true | false => exact h.of_phase rfl (by simp) (by simp)
  · next hphase =>
      obtain ⟨hother, hself⟩ := hspares hphase
      split
      · next hfails =>
          refine h.of_entry ?_ ?_
          · rfl
          · intro hentry
            rw [hself hentry] at hfails
            cases hfails
      · next hworks =>
          have hkept : (s.entry == some .other) = false := by
            rw [beq_eq_false_iff_ne]
            intro hentry
            exact hworks (hother hentry)
          refine h.of_entry ?_ ?_
          · show (s.harmed || s.entry == some .other) = s.harmed
            rw [hkept, Bool.or_false]
          · simp [unlink]
  · exact h
  · exact h

theorem Inv.step (h : Inv s) {event : Event} (hspares : Spares s event) :
    Inv (step call s event) := by
  cases event with
  | step => exact h.advance hspares
  | placed | removed => exact h.of_entry rfl (by simp [ExclusiveFile.step])

theorem spares_of_clean {event : Event} (h : Clean (step call s event)) : Spares s event := by
  cases event with
  | step fails =>
    intro hphase
    simp only [ExclusiveFile.step, advance, hphase] at h
    cases fails with
    | true =>
      rw [if_pos rfl] at h
      exact ⟨fun _ => rfl, fun hentry => absurd hentry (h.2 rfl)⟩
    | false =>
      rw [if_neg (by simp)] at h
      refine ⟨fun hentry => ?_, fun _ => rfl⟩
      have hharmed := h.1
      simp [unlink, hentry] at hharmed
  | placed | removed => trivial

theorem throughout_clean_iff (call : Call α) (occupied : Bool) (events : List Event) :
    Throughout (step call) Clean (State.start call occupied) events ↔
      Along (step call) Spares (State.start call occupied) events :=
  throughout_iff_along (fun _ h => h.clean) (fun _ _ h hspares => h.step hspares)
    (fun _ _ _ hclean => spares_of_clean hclean) (inv_start call occupied)

/-! ## What a call that returns has written -/

/-- What actions write, up to the first that fails, and whether all of them were performed. -/
def output : List (Action α) → List α × Bool
  | [] => ([], true)
  | .pass :: rest => output rest
  | .write units :: rest => (units ++ (output rest).1, (output rest).2)
  | .fail :: _ => ([], false)

theorem output_append (first rest : List (Action α)) :
    output (first ++ rest) =
      if (output first).2 then ((output first).1 ++ (output rest).1, (output rest).2)
      else output first := by
  induction first with
  | nil => simp [output]
  | cons action first ih =>
    cases action with
    | pass => exact ih
    | write =>
      simp only [List.cons_append, output, ih]
      by_cases hfirst : (output first).2 = true
      · simp [hfirst]
      · simp [hfirst]
    | fail => rfl

theorem output_take_prefix (actions : List (Action α)) (n : Nat) :
    (output (actions.take n)).1 <+: (output actions).1 := by
  induction actions generalizing n with
  | nil => simp
  | cons action actions ih =>
    cases n with
    | zero => simp [output]
    | succ n =>
      cases action with
      | pass => exact ih n
      | write units => exact List.prefix_append_right_inj units |>.2 (ih n)
      | fail => exact List.prefix_refl _

/-- What has been written and what is left to do come to what the work writes. -/
def Progress (call : Call α) (s : State α) : Prop :=
  match s.phase with
  | .checking _ => s.written = []
  | .working rest => output call.work = (s.written ++ (output rest).1, (output rest).2)
  | .returned => output call.work = (s.written, true)
  | .cleaning => True
  | .raised => True

theorem Progress.step (h : Progress call s) (event : Event) :
    Progress call (step call s event) := by
  cases event with
  | placed | removed => exact h
  | step fails =>
    unfold Progress at h
    cases hphase : s.phase with
    | checking rest =>
      simp only [hphase] at h
      simp only [ExclusiveFile.step, advance, hphase]
      cases rest with
      | cons =>
        simp only
        split
        · trivial
        · exact h
      | nil =>
        simp only
        split
        · trivial
        · unfold openOutput
          split
          · simp [Progress, h]
          · trivial
    | working rest =>
      simp only [hphase] at h
      simp only [ExclusiveFile.step, advance, hphase]
      cases rest with
      | nil =>
        cases fails with
        | true => trivial
        | false => simpa [Progress, output] using h
      | cons action =>
        simp only
        split
        · trivial
        · cases action with
          | pass => exact h
          | write => simpa [Action.perform, Progress, output] using h
          | fail => trivial
    | cleaning =>
      simp only [ExclusiveFile.step, advance, hphase]
      split <;> trivial
    | raised => simp only [ExclusiveFile.step, advance, hphase, Progress]
    | returned =>
      simp only [hphase] at h
      simp only [ExclusiveFile.step, advance, hphase, Progress]
      exact h

theorem output_of_returned {occupied : Bool} {events : List Event}
    (h : (after (step call) (State.start call occupied) events).phase = .returned) :
    output call.work = ((after (step call) (State.start call occupied) events).written, true) := by
  have hprogress : Progress call (after (step call) (State.start call occupied) events) :=
    after_of_step (fun _ event hs => hs.step event)
      (show Progress call (State.start call occupied) from rfl) events
  unfold Progress at hprogress
  rw [h] at hprogress
  exact hprogress

/-! ## A call that nothing disturbs -/

def undisturbed (steps : Nat) : List Event := List.replicate steps (.step false)

theorem after_checking {rest : List Check} (hphase : s.phase = .checking rest)
    (hchecks : ∀ check ∈ rest, check.passes s.entry) :
    after (step call) s (undisturbed rest.length) = { s with phase := .checking [] } := by
  induction rest generalizing s with
  | nil =>
    rw [← hphase]
    rfl
  | cons check rest ih =>
    have hpasses : check.passes s.entry = true := hchecks check (List.mem_cons_self ..)
    have hstep : step call s (.step false) = { s with phase := .checking rest } := by
      simp [ExclusiveFile.step, advance, hphase, hpasses]
    show after (step call) (step call s (.step false)) (undisturbed rest.length) = _
    rw [hstep]
    exact ih rfl fun other hother => hchecks other (List.mem_cons_of_mem _ hother)

theorem after_working {rest : List (Action α)} (hphase : s.phase = .working rest)
    (hworks : (output rest).2 = true) : after (step call) s (undisturbed (rest.length + 1)) =
      { s with written := s.written ++ (output rest).1, phase := .returned } := by
  induction rest generalizing s with
  | nil => simp [undisturbed, after, ExclusiveFile.step, advance, hphase, output]
  | cons action rest ih =>
    have hstep : step call s (.step false) = action.perform s rest := by
      simp [ExclusiveFile.step, advance, hphase]
    show after (step call) (step call s (.step false)) (undisturbed (rest.length + 1)) = _
    rw [hstep]
    cases action with
    | pass =>
      rw [ih rfl hworks]
      rfl
    | write =>
      rw [ih rfl hworks]
      simp [Action.perform, output]
    | fail => cases hworks

theorem returns_undisturbed (hchecks : ∀ check ∈ call.checks, check.passes none)
    (hworks : (output call.work).2 = true) :
    ∃ steps, after (step call) (State.start call false) (undisturbed steps) =
      { entry := some .self
        written := (output call.work).1
        phase := .returned
        harmed := false } := by
  refine ⟨call.checks.length + (1 + (call.work.length + 1)), ?_⟩
  have hall : undisturbed (call.checks.length + (1 + (call.work.length + 1))) =
      undisturbed call.checks.length ++ (undisturbed 1 ++ undisturbed (call.work.length + 1)) := by
    simp only [undisturbed, List.replicate_append_replicate]
  rw [hall, after_append, after_append, after_checking rfl hchecks, after_working rfl hworks]
  rfl

/-! ## Calls that do not open their output -/

theorem not_returned_of_check (hfails : Check.holds false ∈ call.checks) (occupied : Bool)
    (events : List Event) :
    (after (step call) (State.start call occupied) events).phase ≠ .returned := by
  have hstays : ∀ s : State α, ∀ event,
      (∃ rest, s.phase = .checking rest ∧ Check.holds false ∈ rest) ∨ s.phase = .raised →
      (∃ rest, (step call s event).phase = .checking rest ∧ Check.holds false ∈ rest) ∨
        (step call s event).phase = .raised := by
    intro s event h
    cases event with
    | placed | removed => exact h
    | step fails =>
      rcases h with ⟨rest, hphase, hmem⟩ | hphase
      · cases rest with
        | nil => cases hmem
        | cons check rest =>
          simp only [ExclusiveFile.step, advance, hphase]
          split
          · exact .inr rfl
          next hpasses =>
            rcases List.mem_cons.1 hmem with rfl | hmem
            · simp [Check.passes] at hpasses
            · exact .inl ⟨rest, rfl, hmem⟩
      · simp only [ExclusiveFile.step, advance, hphase]
        exact .inr trivial
  have hend := after_of_step hstays (.inl ⟨call.checks, rfl, hfails⟩ :
    (∃ rest, (State.start call occupied).phase = .checking rest ∧ Check.holds false ∈ rest) ∨
      (State.start call occupied).phase = .raised) events
  rcases hend with ⟨rest, hphase, -⟩ | hphase
  · rw [hphase]
    simp
  · rw [hphase]
    simp

theorem not_clean_of_placed (hchecks : ∀ check ∈ call.checks, check.passes none) :
    ¬ Clean (after (step call) (State.start call false)
      (undisturbed call.checks.length ++ .placed :: undisturbed 2)) := by
  rw [after_append, after_checking rfl hchecks]
  intro hclean
  exact Bool.noConfusion hclean.1

end ElectronicMail.Foundations.ExclusiveFile
