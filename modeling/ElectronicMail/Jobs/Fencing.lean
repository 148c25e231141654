import ElectronicMail.Jobs.Runs

/-!
# Lease fencing

`Fenced` is the invariant of the queue that couples the status, lease and
completion columns of a row with the log of claims: primary keys are distinct, a
row is `running` exactly when its two lease columns are set, `completed_at` is set
exactly in the terminal statuses, and the owner of a lease made the latest claim
of the row. `fenced_step` shows that every transaction keeps it and
`leaseFencing` draws the consequences over whole runs: terminal statuses are
never left, and a worker whose lease was taken over cannot finish, requeue or
kill the attempt of the new owner.
-/

namespace ElectronicMail.Jobs

open Foundations
open Foundations.Table

/-! ## The invariant -/

structure WellFormed (j : Job) : Prop where
  owner : j.status = .running ↔ j.leaseOwner.isSome = true
  lease : j.status = .running ↔ j.leaseExpiresAt.isSome = true
  completed : j.completedAt.isSome = true ↔ j.status.isTerminal = true

structure Fenced (s : QueueState) : Prop where
  keys : (s.db.jobs.map Job.id).Nodup
  rows : ∀ j ∈ s.db.jobs, WellFormed j
  owners : ∀ j ∈ s.db.jobs, ∀ w, j.leaseOwner = some w → latestClaimant s j.id = some w

theorem fenced_empty : Fenced QueueState.empty := by
  refine ⟨List.nodup_nil, ?_, ?_⟩
  · intro j hj
    exact absurd hj List.not_mem_nil
  · intro j hj
    exact absurd hj List.not_mem_nil

/-! ## One row -/

theorem wellFormed_newJob (now : Timestamp) (id : String) (account : Option String)
    (req : EnqueueRequest) : WellFormed (newJob now id account req) := by
  refine ⟨?_, ?_, ?_⟩
  · simp [newJob]
  · simp [newJob]
  · simp [newJob, JobStatus.isTerminal]

variable {j : Job}

theorem WellFormed.completedAt_eq_none (h : WellFormed j)
    (hactive : j.status.isActive = true) : j.completedAt.isSome = false := by
  rw [Bool.eq_false_iff]
  intro hsome
  have hterm := h.completed.1 hsome
  cases hs : j.status with
  | queued | running => rw [hs] at hterm; exact absurd hterm Bool.false_ne_true
  | succeeded | dead | cancelled => rw [hs] at hactive; exact absurd hactive Bool.false_ne_true

theorem wellFormed_close {now : Timestamp} {status : JobStatus} (j : Job)
    (hterm : status.isTerminal = true) : WellFormed (Job.close status now j) := by
  have hne : status ≠ .running := by
    intro he
    rw [he] at hterm
    exact absurd hterm Bool.false_ne_true
  refine ⟨?_, ?_, ?_⟩
  · simp [Job.close, hne]
  · simp [Job.close, hne]
  · simp [Job.close, hterm]

variable {j' : Job}

variable {t : Transaction}

theorem RowEffect.wellFormed (h : RowEffect t j j') (hj : WellFormed j) : WellFormed j' := by
  cases h with
  | keep => exact hj
  | wake d p | raise p => exact ⟨hj.owner, hj.lease, hj.completed⟩
  | renew w lease hown =>
    refine ⟨hj.owner, ?_, hj.completed⟩
    simp [renewRow, (ownedBy_iff.1 hown).2.1]
  | requeue job error w delay hop hfinal hown =>
    have hnone := hj.completedAt_eq_none (isActive_of_ownedBy hown)
    refine ⟨by simp [requeueRow], by simp [requeueRow], ?_⟩
    show j.completedAt.isSome = true ↔ _
    rw [hnone]
    simp [requeueRow, JobStatus.isTerminal]
  | kill =>
    have hclose : WellFormed (Job.close .dead t.now j) := wellFormed_close j rfl
    exact ⟨hclose.owner, hclose.lease, hclose.completed⟩
  | close status hactive hstatus =>
    apply wellFormed_close
    rcases hstatus with rfl | rfl
    · rfl
    · rfl

theorem wellFormed_claimRow {now : Timestamp} {w : String} {lease : Int}
    {queues locked : List String} (hj : WellFormed j)
    (hc : claimable now queues locked j = true) : WellFormed (claimRow now w lease j) := by
  have hactive : j.status.isActive = true := by
    rcases (claimable_iff.1 hc).2.2 with ⟨hq, -⟩ | ⟨hr, -⟩
    · rw [hq]
      rfl
    · rw [hr]
      rfl
  refine ⟨by simp [claimRow], by simp [claimRow], ?_⟩
  show j.completedAt.isSome = true ↔ _
  rw [hj.completedAt_eq_none hactive]
  simp [claimRow, JobStatus.isTerminal]

theorem RowEffect.leaseOwner (h : RowEffect t j j') :
    j'.leaseOwner = j.leaseOwner ∨ j'.leaseOwner = none := by
  cases h with
  | keep | wake d p | raise p | renew => exact Or.inl rfl
  | requeue | kill | close => exact Or.inr rfl

theorem RowEffect.status_of_isTerminal (h : RowEffect t j j') (hj : j.status.isTerminal = true) :
    j'.status = j.status := by
  have hactive : j.status.isActive = true → False := by
    intro ha
    cases hs : j.status <;> rw [hs] at hj ha <;> simp [JobStatus.isTerminal, JobStatus.isActive]
      at hj ha
  cases h with
  | keep | wake d p | raise p | renew => rfl
  | requeue job error w delay hop hfinal hown | kill error w hown =>
    exact (hactive (isActive_of_ownedBy hown)).elim
  | close status hact => exact (hactive hact).elim

/-! ## One transaction -/

section Step

variable {s : QueueState} {t : Transaction}

theorem latestClaimant_congr {s s' : QueueState} (h : s'.claims = s.claims) (id : String) :
    latestClaimant s' id = latestClaimant s id := by
  unfold latestClaimant latestClaim
  rw [h]

theorem fenced_of_effects (hs : Fenced s) (hclaims : (step s t).claims = s.claims)
    (heff : RowEffects t s.db.jobs (step s t).db.jobs) : Fenced (step s t) := by
  refine ⟨heff.nodup hs.keys, ?_, ?_⟩
  · intro j' hj'
    rcases heff.mem hj' with ⟨j, hj, he⟩ | ⟨id, account, req, -, rfl, -⟩
    · exact he.wellFormed (hs.rows j hj)
    · exact wellFormed_newJob t.now id account req
  · intro j' hj' w hw
    rw [latestClaimant_congr hclaims]
    rcases heff.mem hj' with ⟨j, hj, he⟩ | ⟨id, account, req, -, rfl, -⟩
    · rcases he.leaseOwner with ho | ho
      · rw [he.id_eq]
        exact hs.owners j hj w (ho ▸ hw)
      · rw [ho] at hw
        simp at hw
    · simp [newJob] at hw

/-- **Every transaction keeps the fence.** -/
theorem fenced_step (hs : Fenced s) (t : Transaction) : Fenced (step s t) := by
  by_cases hop : ∃ w queues lease locked, t.op = .claimJob w queues lease locked
  · obtain ⟨w, queues, lease, locked, hop⟩ := hop
    rcases step_claim s t hop with ⟨-, h⟩ | ⟨j, hsel, hclaims, hjobs⟩
    · rw [h]
      exact hs
    obtain ⟨hj, hc⟩ := claimCandidate_some hsel
    refine ⟨?_, ?_, ?_⟩
    · rw [hjobs]
      exact nodup_claimed j hs.keys
    · intro j' hj'
      rw [hjobs] at hj'
      rcases mem_claimed hs.keys hj hj' with rfl | ⟨hmem, -⟩
      · exact wellFormed_claimRow (hs.rows j hj) hc
      · exact hs.rows j' hmem
    · intro j' hj' w' hw'
      rw [hjobs] at hj'
      unfold latestClaimant
      rw [latestClaim_claimed hclaims]
      rcases mem_claimed hs.keys hj hj' with rfl | ⟨hmem, hne⟩
      · rw [show (claimRow t.now w lease j).id = j.id from rfl, if_pos rfl]
        exact hw'
      · rw [if_neg hne]
        exact hs.owners j' hmem w' hw'
  · have hop' : ∀ w queues lease locked, t.op ≠ .claimJob w queues lease locked :=
      fun w queues lease locked he => hop ⟨w, queues, lease, locked, he⟩
    obtain ⟨hclaims, heff⟩ := step_effects s t hop'
    exact fenced_of_effects hs hclaims heff

theorem terminal_step (hs : Fenced s) (t : Transaction) (hj : j ∈ s.db.jobs)
    (hterm : j.status.isTerminal = true) :
    ∃ j' ∈ (step s t).db.jobs, j'.id = j.id ∧ j'.status = j.status := by
  by_cases hop : ∃ w queues lease locked, t.op = .claimJob w queues lease locked
  · obtain ⟨w, queues, lease, locked, hop⟩ := hop
    rcases step_claim s t hop with ⟨-, h⟩ | ⟨c, hsel, -, hjobs⟩
    · rw [h]
      exact ⟨j, hj, rfl, rfl⟩
    obtain ⟨hc, hclaim⟩ := claimCandidate_some hsel
    refine ⟨j, ?_, rfl, rfl⟩
    rw [hjobs, mem_updateWhere]
    refine ⟨j, hj, ?_⟩
    -- The claimed row is active, so a terminal row has another id.
    have hne : j.id ≠ c.id := by
      intro hid
      have hjc : j = c := row_unique Job.id hs.keys hj hc hid
      rcases (claimable_iff.1 hclaim).2.2 with ⟨hq, -⟩ | ⟨hr, -⟩
      · rw [hjc, hq] at hterm
        exact absurd hterm Bool.false_ne_true
      · rw [hjc, hr] at hterm
        exact absurd hterm Bool.false_ne_true
    simp [hne]
  · have hop' : ∀ w queues lease locked, t.op ≠ .claimJob w queues lease locked :=
      fun w queues lease locked he => hop ⟨w, queues, lease, locked, he⟩
    obtain ⟨j', hj', he⟩ := (step_effects s t hop').2.successor hj
    exact ⟨j', hj', he.id_eq, he.status_of_isTerminal hterm⟩

end Step

/-! ## Runs -/

def stateAfter (ts : List Transaction) : QueueState :=
  after step QueueState.empty ts

theorem fenced_stateAfter (ts : List Transaction) : Fenced (stateAfter ts) :=
  after_of_step (I := Fenced) (fun _ t hs => fenced_step hs t) fenced_empty ts

theorem terminal_after {s : QueueState} (hs : Fenced s) (ts : List Transaction)
    (hj : j ∈ s.db.jobs) (hterm : j.status.isTerminal = true) :
    ∃ j' ∈ (after step s ts).db.jobs, j'.id = j.id ∧ j'.status = j.status := by
  induction ts generalizing s j with
  | nil => exact ⟨j, hj, rfl, rfl⟩
  | cons t ts ih =>
    obtain ⟨j₁, hj₁, hid₁, hst₁⟩ := terminal_step hs t hj hterm
    obtain ⟨j₂, hj₂, hid₂, hst₂⟩ := ih (fenced_step hs t) hj₁ (hst₁ ▸ hterm)
    exact ⟨j₂, hj₂, hid₂.trans hid₁, hst₂.trans hst₁⟩

/-! ## Finishing an attempt -/

inductive Finish where
  | complete (jobId : String)
  | fail (job : Job) (error : String) (retryDelaySeconds : Option Int)
  | cancelClaimed (jobId : String)

def Finish.jobId : Finish → String
  | .complete id => id
  | .fail job _ _ => job.id
  | .cancelClaimed id => id

/-- The call by worker `w`. -/
def Finish.call (now : Timestamp) (w : String) : Finish → Db → Db × Bool
  | .complete id => completeJob now id w
  | .fail job error delay => failJob now job error w delay
  | .cancelClaimed id => cancelClaimedJob now id w

theorem Finish.call_eq_updateOwned (now : Timestamp) (w : String) (f : Finish) :
    ∃ g event, f.call now w = updateOwned f.jobId w g event := by
  cases f with
  | complete id | cancelClaimed id => exact ⟨_, _, rfl⟩
  | fail job error delay =>
    by_cases hfinal : isFinalAttempt job = true
    · refine ⟨killRow now error, ⟨job.id, .dead, some error, []⟩, ?_⟩
      funext db
      show failJob now job error w delay db = _
      unfold failJob
      rw [if_pos hfinal]
      rfl
    · refine ⟨requeueRow now error (failDelaySeconds job.attemptCount delay), ⟨job.id, .retry,
        some error, [("delay_seconds", toString (failDelaySeconds job.attemptCount delay))]⟩, ?_⟩
      funext db
      show failJob now job error w delay db = _
      unfold failJob
      rw [if_neg hfinal]
      rfl

theorem finish_by_latestClaimant {s : QueueState} (hs : Fenced s) (now : Timestamp) (w : String)
    (f : Finish) (h : f.call now w s.db ≠ (s.db, false)) :
    latestClaimant s f.jobId = some w := by
  obtain ⟨g, event, hcall⟩ := f.call_eq_updateOwned now w
  by_contra hne
  apply h
  rw [hcall]
  apply updateOwned_of_forall_ne
  intro j hj
  rw [Bool.eq_false_iff]
  intro hown
  obtain ⟨hid, -, howner⟩ := ownedBy_iff.1 hown
  exact hne (hid ▸ hs.owners j hj w howner)

/-- **Lease fencing.** In every state that transactions of any workers reach from
the empty queue: the lease columns of a row are set exactly while it runs and its
completion time exactly in a terminal status; a terminal status is never left;
and a call of `complete_job`, `fail_job` or `cancel_claimed_job` that returns
`True` or changes anything was made by the worker of the latest claim. -/
theorem leaseFencing (ts : List Transaction) :
    (∀ j ∈ (stateAfter ts).db.jobs,
      (j.status = .running ↔ j.leaseOwner.isSome = true) ∧
      (j.status = .running ↔ j.leaseExpiresAt.isSome = true) ∧
      (j.completedAt.isSome = true ↔ j.status.isTerminal = true)) ∧
    (∀ more, ∀ j ∈ (stateAfter ts).db.jobs, j.status.isTerminal = true →
      ∃ j', rowAt Job.id (stateAfter (ts ++ more)).db.jobs j.id = some j' ∧ j'.status = j.status) ∧
    (∀ now w (f : Finish),
      (f.call now w (stateAfter ts).db).2 = true ∨
        (f.call now w (stateAfter ts).db).1 ≠ (stateAfter ts).db →
      latestClaimant (stateAfter ts) f.jobId = some w) := by
  have hs := fenced_stateAfter ts
  refine ⟨?_, ?_, ?_⟩
  · intro j hj
    exact ⟨(hs.rows j hj).owner, (hs.rows j hj).lease, (hs.rows j hj).completed⟩
  · intro more j hj hterm
    obtain ⟨j', hj', hid, hst⟩ := terminal_after hs more hj hterm
    refine ⟨j', ?_, hst⟩
    have hs' := fenced_stateAfter (ts ++ more)
    have heq : stateAfter (ts ++ more) = after step (stateAfter ts) more :=
      after_append QueueState.empty ts more
    rw [← heq] at hj'
    rw [← hid]
    exact rowAt_of_mem Job.id hs'.keys hj'
  · intro now w f h
    apply finish_by_latestClaimant hs now w f
    intro heq
    rw [heq] at h
    rcases h with h | h
    · exact Bool.false_ne_true h
    · exact h rfl

end ElectronicMail.Jobs
