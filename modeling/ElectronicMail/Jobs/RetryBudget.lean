import ElectronicMail.Jobs.Fencing

/-!
# The retry budget

`claim_job` counts an attempt and `fail_job` ends a job whose attempts are used
up, so `attempt_count` should stay within `max_attempts`. A worker that dies never
calls `fail_job`: its lease expires and the next claim takes the job over without
looking at `max_attempts`. `crashLoop` is the run in which a job with five
attempts is started six times.

`retryBudget_iff` gives the exact condition: in a run whose callers keep their
contract (`CallerContract`), the budget holds throughout exactly when no claim
takes over a running job that has used up its attempts (`TakesOverExhausted`). The
proof is the invariant `Budgeted`, which ties the counter of a row to the log of
claims and to the `BackgroundJob` that the owner of the lease holds.
-/

namespace ElectronicMail.Jobs

open Foundations
open Foundations.Table

/-! ## The budget and its conditions -/

def WithinBudget (s : QueueState) : Prop :=
  ∀ j ∈ s.db.jobs, j.attemptCount ≤ j.maxAttempts ∧ (starts s j.id : Int) ≤ j.maxAttempts

instance (s : QueueState) : Decidable (WithinBudget s) :=
  inferInstanceAs (Decidable (∀ j ∈ s.db.jobs, _ ∧ _))

/-- What the callers of the queue see to: a job is enqueued with at least one
attempt, and `fail_job` gets the `BackgroundJob` of the worker's latest claim. -/
def OpContract (s : QueueState) : Op → Prop
  | .enqueueJob _ req => 1 ≤ req.maxAttempts
  | .insertJob _ _ req => 1 ≤ req.maxAttempts
  | .failJob job _ w _ => s.claims.find? (fun c => decide (c.workerId = w)) = some ⟨w, job⟩
  | _ => True

instance (s : QueueState) : ∀ op, Decidable (OpContract s op)
  | .enqueueJob _ req => inferInstanceAs (Decidable (1 ≤ req.maxAttempts))
  | .insertJob _ _ req => inferInstanceAs (Decidable (1 ≤ req.maxAttempts))
  | .failJob _ _ _ _ => inferInstanceAs (Decidable (_ = _))
  | .wakeQueued _ _ _ | .raisePriority _ _ | .claimJob _ _ _ _ | .renewHeartbeat _ _ _
  | .completeJob _ _ | .cancelClaimedJob _ _ | .cancelUserJobs _
  | .completeGoogleTokenRevocationsForSubject _ | .completeGoogleTokenRevocationJob _ =>
    inferInstanceAs (Decidable True)

def CallerContract (s : QueueState) (t : Transaction) : Prop := OpContract s t.op

instance (s : QueueState) (t : Transaction) : Decidable (CallerContract s t) :=
  inferInstanceAs (Decidable (OpContract s t.op))

/-- The transaction is a claim whose candidate is a running job, its lease
expired, that has no attempt left. -/
def TakesOverExhausted (s : QueueState) (t : Transaction) : Prop :=
  ∃ w queues lease locked j, t.op = .claimJob w queues lease locked ∧
    claimCandidate t.now queues locked s.db = some j ∧ j.status = .running ∧
    j.maxAttempts ≤ j.attemptCount

/-! ## The failing run -/

/-- A job with the default five attempts whose worker dies on every attempt: each
claim comes after the lease of the one before has run out. -/
def crashLoop : List Transaction :=
  ⟨0, .insertJob "job" none { kind := "gmail_sync" }⟩ ::
    [1, 2, 3, 4, 5, 6].map fun n =>
      ⟨seconds (n * 1000), .claimJob "worker" ["default"] 300 []⟩

theorem crashLoop_exceeds_budget :
    Along step CallerContract QueueState.empty crashLoop ∧
      ¬ Throughout step WithinBudget QueueState.empty crashLoop := by
  refine ⟨by decide, ?_⟩
  intro h
  exact absurd h.last (by decide)

/-! ## The invariant -/

structure Budgeted (s : QueueState) : Prop where
  fenced : Fenced s
  attempts : ∀ j ∈ s.db.jobs, j.attemptCount ≤ j.maxAttempts
  queued : ∀ j ∈ s.db.jobs, j.status = .queued → j.attemptCount < j.maxAttempts
  counted : ∀ j ∈ s.db.jobs, (starts s j.id : Int) = j.attemptCount
  logged : ∀ c ∈ s.claims, ∃ j ∈ s.db.jobs, j.id = c.job.id
  current : ∀ j ∈ s.db.jobs, j.status = .running → ∃ c, latestClaim s j.id = some c ∧
    c.job.attemptCount = j.attemptCount ∧ c.job.maxAttempts = j.maxAttempts

theorem budgeted_empty : Budgeted QueueState.empty := by
  refine ⟨fenced_empty, ?_, ?_, ?_, ?_, ?_⟩
  · intro j hj
    exact absurd hj List.not_mem_nil
  · intro j hj
    exact absurd hj List.not_mem_nil
  · intro j hj
    exact absurd hj List.not_mem_nil
  · intro c hc
    exact absurd hc List.not_mem_nil
  · intro j hj
    exact absurd hj List.not_mem_nil

theorem Budgeted.withinBudget {s : QueueState} (h : Budgeted s) : WithinBudget s := by
  intro j hj
  refine ⟨h.attempts j hj, ?_⟩
  rw [h.counted j hj]
  exact h.attempts j hj

variable {j j' : Job}

/-! ## One row -/

variable {t : Transaction}

theorem RowEffect.counters (h : RowEffect t j j') :
    j'.attemptCount = j.attemptCount ∧ j'.maxAttempts = j.maxAttempts := by
  cases h <;> exact ⟨rfl, rfl⟩

theorem RowEffect.queued (h : RowEffect t j j') (hq : j'.status = .queued) :
    j.status = .queued ∨ ∃ job error w delay, t.op = .failJob job error w delay ∧
      isFinalAttempt job = false ∧ ownedBy job.id w j = true := by
  cases h with
  | keep | wake d p | raise p | renew => exact Or.inl hq
  | requeue job error w delay hop hfinal hown =>
    exact Or.inr ⟨job, error, w, delay, hop, hfinal, hown⟩
  | kill => simp [killRow, Job.close] at hq
  | close status hactive hstatus =>
    have hq' : status = .queued := hq
    rcases hstatus with rfl | rfl
    · cases hq'
    · cases hq'

theorem RowEffect.running (h : RowEffect t j j') (hr : j'.status = .running) :
    j.status = .running := by
  cases h with
  | keep | wake d p | raise p | renew => exact hr
  | requeue => simp [requeueRow] at hr
  | kill => simp [killRow, Job.close] at hr
  | close status hactive hstatus =>
    have hr' : status = .running := hr
    rcases hstatus with rfl | rfl
    · cases hr'
    · cases hr'

theorem find?_eq_of_mutual {α : Type} {p q : α → Bool} {l : List α} {a b : α}
    (ha : l.find? p = some a) (hb : l.find? q = some b) (hqa : q a = true) (hpb : p b = true) :
    a = b := by
  induction l with
  | nil => simp at ha
  | cons c l ih =>
    cases hp : p c with
    | true =>
      rw [List.find?_cons_of_pos hp] at ha
      have hca : c = a := Option.some.inj ha
      subst hca
      rw [List.find?_cons_of_pos hqa] at hb
      exact Option.some.inj hb
    | false =>
      cases hq : q c with
      | true =>
        rw [List.find?_cons_of_pos hq] at hb
        have hcb : c = b := Option.some.inj hb
        subst hcb
        rw [hp] at hpb
        exact absurd hpb Bool.false_ne_true
      | false =>
        rw [List.find?_cons_of_neg (by simp [hp])] at ha
        rw [List.find?_cons_of_neg (by simp [hq])] at hb
        exact ih ha hb

/-- The `BackgroundJob` that the owner of a lease passes to `fail_job` has the
counters of the row. -/
theorem Budgeted.owner_counters {s : QueueState} (hs : Budgeted s) {job : Job} {w : String}
    (hj : j ∈ s.db.jobs) (hown : ownedBy job.id w j = true)
    (hlatest : s.claims.find? (fun c => decide (c.workerId = w)) = some ⟨w, job⟩) :
    job.attemptCount = j.attemptCount ∧ job.maxAttempts = j.maxAttempts := by
  obtain ⟨hid, hrun, howner⟩ := ownedBy_iff.1 hown
  obtain ⟨c, hc, hcount, hmax⟩ := hs.current j hj hrun
  have hworker : c.workerId = w := by
    have h := hs.fenced.owners j hj w howner
    unfold latestClaimant at h
    rw [hc] at h
    exact Option.some.inj h
  have heq : (⟨w, job⟩ : Claim) = c := by
    apply find?_eq_of_mutual hlatest hc
    · simp [hid]
    · simp [hworker]
  rw [← heq] at hcount hmax
  exact ⟨hcount, hmax⟩

/-! ## One transaction -/

section Step

variable {s : QueueState} {t : Transaction}

theorem starts_congr {s s' : QueueState} (h : s'.claims = s.claims) (id : String) :
    starts s' id = starts s id := by
  unfold starts
  rw [h]

theorem latestClaim_congr {s s' : QueueState} (h : s'.claims = s.claims) (id : String) :
    latestClaim s' id = latestClaim s id := by
  unfold latestClaim
  rw [h]

theorem starts_eq_zero {id : String} (h : ∀ c ∈ s.claims, c.job.id ≠ id) : starts s id = 0 := by
  unfold starts
  rw [List.countP_eq_zero]
  intro c hc
  simp [h c hc]

theorem budgeted_of_effects (hs : Budgeted s) (hcontract : CallerContract s t)
    (hclaims : (step s t).claims = s.claims)
    (heff : RowEffects t s.db.jobs (step s t).db.jobs) : Budgeted (step s t) := by
  refine ⟨fenced_of_effects hs.fenced hclaims heff, ?_, ?_, ?_, ?_, ?_⟩
  · intro j' hj'
    rcases heff.mem hj' with ⟨j, hj, he⟩ | ⟨id, account, req, hop, rfl, -⟩
    · rw [he.counters.1, he.counters.2]
      exact hs.attempts j hj
    have hmax : 1 ≤ req.maxAttempts := by
      rcases hop with hop | ⟨ctx, hop⟩
      · simpa [CallerContract, OpContract, hop] using hcontract
      · simpa [CallerContract, OpContract, hop] using hcontract
    show (0 : Int) ≤ req.maxAttempts
    omega
  · intro j' hj' hq
    rcases heff.mem hj' with ⟨j, hj, he⟩ | ⟨id, account, req, hop, rfl, -⟩
    · rw [he.counters.1, he.counters.2]
      rcases he.queued hq with hq | ⟨job, error, w, delay, hop, hfinal, hown⟩
      · exact hs.queued j hj hq
      have hlatest : s.claims.find? (fun c => decide (c.workerId = w)) = some ⟨w, job⟩ := by
        simpa [CallerContract, OpContract, hop] using hcontract
      obtain ⟨hcount, hmax⟩ := hs.owner_counters hj hown hlatest
      unfold isFinalAttempt at hfinal
      have := of_decide_eq_false hfinal
      omega
    · have hmax : 1 ≤ req.maxAttempts := by
        rcases hop with hop | ⟨ctx, hop⟩
        · simpa [CallerContract, OpContract, hop] using hcontract
        · simpa [CallerContract, OpContract, hop] using hcontract
      show (0 : Int) < req.maxAttempts
      omega
  · intro j' hj'
    rw [starts_congr hclaims]
    rcases heff.mem hj' with ⟨j, hj, he⟩ | ⟨id, account, req, -, rfl, hfresh⟩
    · rw [he.id_eq, he.counters.1]
      exact hs.counted j hj
    have hzero : starts s id = 0 := by
      apply starts_eq_zero
      intro c hc hid
      obtain ⟨j, hj, hjid⟩ := hs.logged c hc
      exact hfresh j hj (hjid.trans hid)
    show ((starts s id : Nat) : Int) = 0
    rw [hzero]
    rfl
  · intro c hc
    rw [hclaims] at hc
    obtain ⟨j, hj, hid⟩ := hs.logged c hc
    obtain ⟨j', hj', he⟩ := heff.successor hj
    exact ⟨j', hj', he.id_eq.trans hid⟩
  · intro j' hj' hr
    rw [latestClaim_congr hclaims]
    rcases heff.mem hj' with ⟨j, hj, he⟩ | ⟨id, account, req, -, rfl, -⟩
    · rw [he.id_eq, he.counters.1, he.counters.2]
      exact hs.current j hj (he.running hr)
    · simp [newJob] at hr

theorem budgeted_of_claim (hs : Budgeted s) {w : String} {lease : Int}
    (hj : j ∈ s.db.jobs) (hleft : j.attemptCount < j.maxAttempts) (hfenced : Fenced (step s t))
    (hclaims : (step s t).claims = ⟨w, claimRow t.now w lease j⟩ :: s.claims)
    (hjobs : (step s t).db.jobs =
      updateWhere (fun r => decide (r.id = j.id)) (claimRow t.now w lease) s.db.jobs) :
    Budgeted (step s t) := by
  have hmem : ∀ j' ∈ (step s t).db.jobs,
      j' = claimRow t.now w lease j ∨ (j' ∈ s.db.jobs ∧ j'.id ≠ j.id) := by
    intro j' hj'
    rw [hjobs] at hj'
    exact mem_claimed hs.fenced.keys hj hj'
  have hstarts : ∀ id, starts (step s t) id = starts s id + if j.id = id then 1 else 0 := by
    intro id
    unfold starts
    rw [hclaims, List.countP_cons]
    by_cases hid : j.id = id
    · simp [claimRow, hid]
    · simp [claimRow, hid]
  refine ⟨hfenced, ?_, ?_, ?_, ?_, ?_⟩
  · intro j' hj'
    rcases hmem j' hj' with rfl | ⟨hold, -⟩
    · show j.attemptCount + 1 ≤ j.maxAttempts
      omega
    · exact hs.attempts j' hold
  · intro j' hj' hq
    rcases hmem j' hj' with rfl | ⟨hold, -⟩
    · simp [claimRow] at hq
    · exact hs.queued j' hold hq
  · intro j' hj'
    rw [hstarts]
    rcases hmem j' hj' with rfl | ⟨hold, hne⟩
    · have hcount := hs.counted j hj
      show ((starts s j.id + if j.id = j.id then 1 else 0 : Nat) : Int) = j.attemptCount + 1
      rw [if_pos rfl]
      omega
    · rw [if_neg fun h => hne h.symm]
      exact hs.counted j' hold
  · intro c hc
    rw [hclaims] at hc
    have hnext : ∀ i ∈ s.db.jobs, ∃ j' ∈ (step s t).db.jobs, j'.id = i.id := by
      intro i hi
      rw [hjobs]
      refine ⟨_, mem_updateWhere.2 ⟨i, hi, rfl⟩, ?_⟩
      by_cases hid : i.id = j.id
      · simp [hid, claimRow]
      · simp [hid]
    rcases List.mem_cons.1 hc with rfl | hold
    · exact hnext j hj
    · obtain ⟨i, hi, hid⟩ := hs.logged c hold
      obtain ⟨j', hj', hid'⟩ := hnext i hi
      exact ⟨j', hj', hid'.trans hid⟩
  · intro j' hj' hr
    rw [latestClaim_claimed hclaims]
    rcases hmem j' hj' with rfl | ⟨hold, hne⟩
    · exact ⟨_, if_pos rfl, rfl, rfl⟩
    · rw [if_neg hne]
      exact hs.current j' hold hr

/-- **One transaction.** The budget survives every transaction of a caller that
keeps the contract, unless it takes over a job without attempts left. -/
theorem budgeted_step (hs : Budgeted s) (hcontract : CallerContract s t)
    (htake : ¬ TakesOverExhausted s t) : Budgeted (step s t) := by
  by_cases hop : ∃ w queues lease locked, t.op = .claimJob w queues lease locked
  · obtain ⟨w, queues, lease, locked, hop⟩ := hop
    rcases step_claim s t hop with ⟨-, h⟩ | ⟨j, hsel, hclaims, hjobs⟩
    · rw [h]
      exact hs
    obtain ⟨hj, hclaim⟩ := claimCandidate_some hsel
    apply budgeted_of_claim hs hj _ (fenced_step hs.fenced t) hclaims hjobs
    rcases (claimable_iff.1 hclaim).2.2 with ⟨hq, -⟩ | ⟨hr, -⟩
    · exact hs.queued j hj hq
    · by_contra hge
      exact htake ⟨w, queues, lease, locked, j, hop, hsel, hr, by omega⟩
  · have hop' : ∀ w queues lease locked, t.op ≠ .claimJob w queues lease locked :=
      fun w queues lease locked he => hop ⟨w, queues, lease, locked, he⟩
    obtain ⟨hclaims, heff⟩ := step_effects s t hop'
    exact budgeted_of_effects hs hcontract hclaims heff

theorem not_withinBudget_of_takesOver (h : TakesOverExhausted s t) : ¬ WithinBudget (step s t) := by
  obtain ⟨w, queues, lease, locked, j, hop, hsel, -, hmax⟩ := h
  intro hbudget
  rcases step_claim s t hop with ⟨hnone, -⟩ | ⟨j', hsel', -, hjobs⟩
  · rw [hnone] at hsel
    cases hsel
  rw [hsel] at hsel'
  cases hsel'
  have hrow : claimRow t.now w lease j ∈ (step s t).db.jobs := by
    rw [hjobs, mem_updateWhere]
    exact ⟨j, (claimCandidate_some hsel).1, by simp⟩
  have := (hbudget _ hrow).1
  simp only [claimRow] at this
  omega

end Step

/-! ## Runs -/

/-- **The retry budget, exactly.** In a run whose callers keep their contract,
every job stays within its attempts in every state visited if and only if no
claim takes over a running job that has none left. -/
theorem retryBudget_iff (ts : List Transaction)
    (hcontract : Along step CallerContract QueueState.empty ts) :
    Throughout step WithinBudget QueueState.empty ts ↔
      Along step (fun s t => ¬ TakesOverExhausted s t) QueueState.empty ts := by
  constructor
  · intro hbudget
    refine along_of_step (I := Budgeted) ?_ budgeted_empty (hbudget.along.and hcontract)
    rintro s t hs ⟨⟨-, hnext⟩, hgiven⟩
    have htake : ¬ TakesOverExhausted s t := fun h => not_withinBudget_of_takesOver h hnext
    exact ⟨htake, budgeted_step hs hgiven htake⟩
  · intro htake
    apply Throughout.mono fun s => Budgeted.withinBudget
    refine throughout_of_step ?_ budgeted_empty (hcontract.and htake)
    intro s t hs hgood
    exact budgeted_step hs hgood.1 hgood.2

def retriedRun : List Transaction :=
  [⟨0, .insertJob "job" none { kind := "gmail_sync" }⟩,
    ⟨1, .claimJob "a" ["default"] 300 []⟩,
    ⟨2, .failJob (claimRow 1 "a" 300 (newJob 0 "job" none { kind := "gmail_sync" }))
      "timeout" "a" none⟩,
    ⟨seconds 60, .claimJob "b" ["default"] 300 []⟩,
    ⟨seconds 70, .completeJob "job" "b"⟩]

theorem retryBudget_iff_retriedRun :
    Throughout step WithinBudget QueueState.empty retriedRun ↔
      Along step (fun s t => ¬ TakesOverExhausted s t) QueueState.empty retriedRun :=
  retryBudget_iff retriedRun (by decide)

end ElectronicMail.Jobs
