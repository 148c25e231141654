import ElectronicMail.Matters.Rows

/-!
# The jobs of the AI inbox

What `enqueue_job` and a worker do to the jobs for a message or a generation. At most one
job of a dedupe key is active, and it is the last one of its key: a job that is done is
never taken up again.
-/

namespace ElectronicMail.Matters

open Foundations.Table
open Jobs (JobStatus)

def Tables.jobsOf (s : Tables) (generationId : Nat) (kind : AiJobKind) : List AiJob :=
  s.jobs.filter fun j => j.generationId == generationId && j.kind == kind

/-- `enqueue_job`, which finds the active job of the dedupe key or inserts one. -/
def enqueueAiJob (generationId : Nat) (kind : AiJobKind) (s : Tables) : Tables :=
  if (s.jobsOf generationId kind).any fun j => j.status.isActive then s
  else { s with
    jobs := s.jobs ++ [⟨s.nextId, kind, generationId, .queued⟩], nextId := s.nextId + 1 }

/-- A worker claims a job that is queued, or one whose worker has lost its lease. -/
def startJob (jobId : Nat) (s : Tables) : Tables :=
  { s with
    jobs := updateWhere (fun j => j.id == jobId && j.status.isActive)
      (fun j => { j with status := .running }) s.jobs }

def closeJob (jobId : Nat) (status : JobStatus) (s : Tables) : Tables :=
  { s with
    jobs := updateWhere (fun j => j.id == jobId && j.status == .running)
      (fun j => { j with status := status }) s.jobs }

/-- The status of a job that has failed, with or without an attempt left. -/
def failedStatus (requeue : Bool) : JobStatus := if requeue then .queued else .dead

/-- No job of the kind is queued or running, and the last one succeeded. -/
def Tables.DoneWith (s : Tables) (generationId : Nat) (kind : AiJobKind) : Prop :=
  (∀ j ∈ s.jobsOf generationId kind, j.status.isActive = false) ∧
    (s.jobsOf generationId kind).getLast?.map AiJob.status = some .succeeded

instance (s : Tables) (generationId : Nat) (kind : AiJobKind) :
    Decidable (s.DoneWith generationId kind) :=
  inferInstanceAs (Decidable (_ ∧ _))

/-! ## What the transactions do to the jobs of a kind -/

def AiJob.SameKey (j j' : AiJob) : Prop := j.generationId = j'.generationId ∧ j.kind = j'.kind

/-- The ids of the jobs, and at most one active job of a key, which is the last of them. -/
structure JobsSound (s : Tables) : Prop where
  ids : (s.jobs.map AiJob.id).Nodup
  below : ∀ j ∈ s.jobs, j.id < s.nextId
  ordered : s.jobs.Pairwise fun j j' => j.SameKey j' → j.status.isActive = false

variable {s : Tables} {g : Nat} {kind : AiJobKind} {j : AiJob}

@[simp]
theorem mem_jobsOf : j ∈ s.jobsOf g kind ↔ j ∈ s.jobs ∧ j.generationId = g ∧ j.kind = kind := by
  simp [Tables.jobsOf]

theorem jobsOf_of_active (hs : JobsSound s) (hj : j ∈ s.jobs) (ha : j.status.isActive = true) :
    ∃ before, s.jobsOf j.generationId j.kind = before ++ [j] ∧
      ∀ b ∈ before, b.status.isActive = false := by
  have hmem : j ∈ s.jobsOf j.generationId j.kind := mem_jobsOf.2 ⟨hj, rfl, rfl⟩
  obtain ⟨before, rest, hsplit⟩ := List.append_of_mem hmem
  have hkey : ∀ b ∈ s.jobsOf j.generationId j.kind, j.SameKey b ∧ b.SameKey j := by
    intro b hb
    obtain ⟨_, hg, hk⟩ := mem_jobsOf.1 hb
    exact ⟨⟨hg.symm, hk.symm⟩, ⟨hg, hk⟩⟩
  have hpairs : (s.jobsOf j.generationId j.kind).Pairwise
      fun b b' => b.SameKey b' → b.status.isActive = false := hs.ordered.filter _
  rw [hsplit] at hpairs hkey
  obtain ⟨_, hrest, hcross⟩ := List.pairwise_append.1 hpairs
  obtain ⟨hhead, _⟩ := List.pairwise_cons.1 hrest
  have hnone : rest = [] := by
    rw [List.eq_nil_iff_forall_not_mem]
    intro b hb
    have hinactive := hhead b hb (hkey b (by simp [hb])).1
    rw [ha] at hinactive
    cases hinactive
  refine ⟨before, by rw [hsplit, hnone], ?_⟩
  intro b hb
  exact hcross b hb j List.mem_cons_self (hkey b (by simp [hb])).2

theorem doneWith_iff (hs : JobsSound s) :
    s.DoneWith g kind ↔ (s.jobsOf g kind).getLast?.map AiJob.status = some .succeeded := by
  constructor
  · exact And.right
  intro h
  refine ⟨?_, h⟩
  intro j hj
  rw [← Bool.not_eq_true]
  intro ha
  obtain ⟨hmem, rfl, rfl⟩ := mem_jobsOf.1 hj
  obtain ⟨before, hsplit, _⟩ := jobsOf_of_active hs hmem ha
  rw [hsplit, List.getLast?_append] at h
  simp only [List.getLast?_singleton, Option.some_or, Option.map_some, Option.some.injEq] at h
  rw [h] at ha
  cases ha

variable {s' : Tables} {p : AiJob → Bool} {f : AiJob → AiJob}

theorem jobsOf_updateWhere (hjobs : s'.jobs = updateWhere p f s.jobs)
    (hf : ∀ j, (f j).generationId = j.generationId ∧ (f j).kind = j.kind) (g : Nat)
    (kind : AiJobKind) : s'.jobsOf g kind = updateWhere p f (s.jobsOf g kind) := by
  unfold Tables.jobsOf updateWhere
  rw [hjobs, updateWhere, List.filter_map]
  congr 1
  apply List.filter_congr
  intro j _
  by_cases hp : p j = true
  · simp [hp, (hf j).1, (hf j).2]
  · simp [hp]

theorem jobsSound_updateWhere (hs : JobsSound s)
    (hjobs : s'.jobs = updateWhere p f s.jobs) (hnext : s'.nextId = s.nextId)
    (hf : ∀ j, (f j).id = j.id ∧ (f j).generationId = j.generationId ∧ (f j).kind = j.kind)
    (hp : ∀ j, p j = true → j.status.isActive = true) : JobsSound s' := by
  have hkept : ∀ j : AiJob, (if p j then f j else j).id = j.id ∧
      (if p j then f j else j).generationId = j.generationId ∧
      (if p j then f j else j).kind = j.kind := by
    intro j
    by_cases hj : p j = true
    · rw [if_pos hj]
      exact hf j
    · rw [if_neg hj]
      exact ⟨rfl, rfl, rfl⟩
  constructor
  · rw [hjobs, map_updateWhere (fun j _ _ => (hf j).1)]
    exact hs.ids
  · intro j hj
    rw [hjobs] at hj
    obtain ⟨j₀, h₀, rfl⟩ := mem_updateWhere.1 hj
    rw [(hkept j₀).1, hnext]
    exact hs.below j₀ h₀
  · rw [hjobs, updateWhere, List.pairwise_map]
    refine hs.ordered.imp ?_
    rintro j j' hordered ⟨hg, hk⟩
    rw [(hkept j).2.1, (hkept j').2.1] at hg
    rw [(hkept j).2.2, (hkept j').2.2] at hk
    have hinactive := hordered ⟨hg, hk⟩
    by_cases hj : p j = true
    · rw [hp j hj] at hinactive
      cases hinactive
    · rw [if_neg hj]
      exact hinactive

theorem doneWith_of_updateWhere (hs : JobsSound s) (hjobs : s'.jobs = updateWhere p f s.jobs)
    (hf : ∀ j, (f j).generationId = j.generationId ∧ (f j).kind = j.kind)
    (hne : ∀ j ∈ s.jobsOf g kind, p j = true → (f j).status ≠ .succeeded)
    (h : s'.DoneWith g kind) : s.DoneWith g kind := by
  rw [doneWith_iff hs]
  have hlast := h.2
  rw [jobsOf_updateWhere hjobs hf, updateWhere, List.getLast?_map, Option.map_map] at hlast
  obtain ⟨j, hj, hstatus⟩ := Option.map_eq_some_iff.1 hlast
  have hmem : j ∈ s.jobsOf g kind := List.mem_of_getLast? hj
  rw [hj, Option.map_some, Option.some.injEq]
  have hstatus : (if p j then f j else j).status = .succeeded := hstatus
  by_cases hp : p j = true
  · rw [if_pos hp] at hstatus
    exact absurd hstatus (hne j hmem hp)
  · rw [if_neg hp] at hstatus
    exact hstatus

theorem startJob_jobs (i : Nat) (s : Tables) :
    (startJob i s).jobs = updateWhere (fun j => j.id == i && j.status.isActive)
      (fun j => { j with status := .running }) s.jobs := rfl

theorem closeJob_jobs (i : Nat) (status : JobStatus) (s : Tables) :
    (closeJob i status s).jobs = updateWhere (fun j => j.id == i && j.status == .running)
      (fun j => { j with status := status }) s.jobs := rfl

theorem jobsSound_startJob (hs : JobsSound s) (i : Nat) : JobsSound (startJob i s) := by
  refine jobsSound_updateWhere hs rfl rfl (fun _ => ⟨rfl, rfl, rfl⟩) ?_
  intro j hp
  simp only [Bool.and_eq_true] at hp
  exact hp.2

theorem isActive_running (h : j.status = .running) : j.status.isActive = true := by
  rw [h]
  rfl

theorem jobsSound_closeJob (hs : JobsSound s) (i : Nat) (status : JobStatus) :
    JobsSound (closeJob i status s) := by
  refine jobsSound_updateWhere hs rfl rfl (fun _ => ⟨rfl, rfl, rfl⟩) ?_
  intro j hp
  simp only [Bool.and_eq_true, beq_iff_eq] at hp
  exact isActive_running hp.2

variable {i : Nat}

theorem doneWith_startJob (hs : JobsSound s)
    (h : (startJob i s).DoneWith g kind) : s.DoneWith g kind := by
  refine doneWith_of_updateWhere hs (startJob_jobs i s) (fun _ => ⟨rfl, rfl⟩) ?_ h
  intro j _ _ hstatus
  cases hstatus

theorem doneWith_closeFailed (hs : JobsSound s) {requeue : Bool}
    (h : (closeJob i (failedStatus requeue) s).DoneWith g kind) :
    s.DoneWith g kind := by
  refine doneWith_of_updateWhere hs (closeJob_jobs i _ s) (fun _ => ⟨rfl, rfl⟩) ?_ h
  intro j _ _ hstatus
  cases requeue <;> cases hstatus

/-- **A job that succeeds** makes its own kind done, and no other. -/
theorem doneWith_closeSucceeded (hs : JobsSound s) :
    (closeJob i .succeeded s).DoneWith g kind ↔ s.DoneWith g kind ∨
      ∃ j ∈ s.jobs, j.id = i ∧ j.status = .running ∧ j.generationId = g ∧ j.kind = kind := by
  constructor
  · intro h
    by_cases hown : ∃ j ∈ s.jobs, j.id = i ∧ j.status = .running ∧ j.generationId = g ∧
        j.kind = kind
    · exact Or.inr hown
    left
    refine doneWith_of_updateWhere hs (closeJob_jobs i _ s) (fun _ => ⟨rfl, rfl⟩) ?_ h
    intro j hj hp _
    simp only [Bool.and_eq_true, beq_iff_eq] at hp
    obtain ⟨hmem, hg, hk⟩ := mem_jobsOf.1 hj
    exact hown ⟨j, hmem, hp.1, hp.2, hg, hk⟩
  · rw [doneWith_iff (jobsSound_closeJob hs i .succeeded),
      jobsOf_updateWhere (closeJob_jobs i .succeeded s) (fun _ => ⟨rfl, rfl⟩)]
    rintro (h | ⟨j, hj, hid, hrunning, rfl, rfl⟩)
    · -- A job that is not running stays as it is.
      have hsame : updateWhere (fun j => j.id == i && j.status == .running)
          (fun j : AiJob => { j with status := .succeeded }) (s.jobsOf g kind) =
            s.jobsOf g kind := by
        apply updateWhere_eq_self
        intro j hj
        have hinactive := h.1 j hj
        rw [Bool.and_eq_false_iff, beq_eq_false_iff_ne]
        right
        rw [beq_eq_false_iff_ne]
        intro hrunning
        rw [isActive_running hrunning] at hinactive
        cases hinactive
      rw [hsame]
      exact h.2
    · obtain ⟨before, hsplit, _⟩ := jobsOf_of_active hs hj (isActive_running hrunning)
      rw [hsplit]
      simp [updateWhere, hid, hrunning]

theorem jobsSound_enqueue (hs : JobsSound s) (g : Nat) (kind : AiJobKind) :
    JobsSound (enqueueAiJob g kind s) := by
  unfold enqueueAiJob
  by_cases hany : (s.jobsOf g kind).any (fun j => j.status.isActive) = true
  · rw [if_pos hany]
    exact hs
  rw [if_neg hany]
  constructor
  · rw [List.map_append, List.nodup_append]
    refine ⟨hs.ids, by simp, ?_⟩
    intro a ha b hb
    obtain ⟨j, hj, rfl⟩ := List.mem_map.1 ha
    have := hs.below j hj
    simp at hb
    omega
  · intro j hj
    rcases List.mem_append.1 hj with hj | hj
    · exact Nat.lt_succ_of_lt (hs.below j hj)
    · rw [List.mem_singleton.1 hj]
      exact Nat.lt_succ_self _
  · rw [List.pairwise_append]
    refine ⟨hs.ordered, by simp, ?_⟩
    rintro j hj j' hj' ⟨hg, hk⟩
    rw [List.mem_singleton] at hj'
    subst hj'
    rw [← Bool.not_eq_true]
    intro ha
    exact hany (List.any_eq_true.2 ⟨j, mem_jobsOf.2 ⟨hj, hg, hk⟩, ha⟩)

theorem doneWith_enqueue (hs : JobsSound s) {g' : Nat} {kind' : AiJobKind}
    (h : (enqueueAiJob g kind s).DoneWith g' kind') : s.DoneWith g' kind' := by
  rw [doneWith_iff hs]
  have hlast := h.2
  unfold enqueueAiJob at hlast
  by_cases hany : (s.jobsOf g kind).any (fun j => j.status.isActive) = true
  · rw [if_pos hany] at hlast
    exact hlast
  rw [if_neg hany] at hlast
  simp only [Tables.jobsOf, List.filter_append, List.filter_cons, List.filter_nil] at hlast
  by_cases hkey : (g == g' && kind == kind') = true
  · rw [if_pos hkey, List.getLast?_append] at hlast
    simp at hlast
  · rw [if_neg hkey, List.append_nil] at hlast
    exact hlast

end ElectronicMail.Matters
