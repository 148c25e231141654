import ElectronicMail.Foundations.Run
import ElectronicMail.Jobs.Queue

/-!
# Interleavings of the queue's transactions

A run is a list of transactions, in the order in which they commit, by any
number of workers: `Op` has one constructor for each transaction of the queue
and one for each statement of `enqueueJob` on its own, for an enqueue whose
`SELECT` read an older state. Clock values, lease lengths, locked rows and
arguments are arbitrary, so that a worker that dies is one that takes no further
step while its lease runs out.

`QueueState` adds to the tables the log of the claims made so far with what they
returned. `step_cases` says once what a transaction can do: one claim, or a
`RowEffect` on every row and at most one new row.
-/

namespace ElectronicMail.Jobs

open Foundations
open Foundations.Table

/-! ## Transactions and states -/

inductive Op where
  | enqueueJob (ctx : EnqueueContext) (req : EnqueueRequest)
  | wakeQueued (id : String) (runAfterSeconds priority : Int)
  | raisePriority (id : String) (priority : Int)
  | insertJob (id : String) (account : Option String) (req : EnqueueRequest)
  | claimJob (workerId : String) (queues : List String) (leaseSeconds : Int) (locked : List String)
  | renewHeartbeat (workerId : String) (currentJobId : Option String) (leaseSeconds : Int)
  | completeJob (jobId workerId : String)
  | failJob (job : Job) (error workerId : String) (retryDelaySeconds : Option Int)
  | cancelClaimedJob (jobId workerId : String)
  | cancelUserJobs (userId : String)
  | completeGoogleTokenRevocationsForSubject (subjectHash : String)
  | completeGoogleTokenRevocationJob (jobId : String)

/-- A transaction and the value of `now()` in it. -/
structure Transaction where
  now : Timestamp
  op : Op

/-- A successful claim: the worker and the `BackgroundJob` it got. -/
structure Claim where
  workerId : String
  job : Job
  deriving DecidableEq

structure QueueState where
  db : Db
  claims : List Claim

def QueueState.empty : QueueState := ⟨Db.empty, []⟩

def logClaim (workerId : String) (claimed : Db × Option Job) (s : QueueState) : QueueState :=
  match claimed.2 with
  | none => ⟨claimed.1, s.claims⟩
  | some job => ⟨claimed.1, ⟨workerId, job⟩ :: s.claims⟩

def step (s : QueueState) (t : Transaction) : QueueState :=
  match t.op with
  | .enqueueJob ctx req =>
    match enqueueJob { ctx with now := t.now } req s.db with
    | .ok (db, _) => { s with db := db }
    | .error _ => s
  | .wakeQueued id d p => { s with db := wakeQueued t.now id d p s.db }
  | .raisePriority id p => { s with db := raisePriority t.now id p s.db }
  | .insertJob id account req =>
    match insertJob t.now id account req s.db with
    | some (db, _) => { s with db := db }
    | none => s
  | .claimJob w queues lease locked =>
    logClaim w (claimJob t.now w queues lease locked s.db) s
  | .renewHeartbeat w current lease => { s with db := renewHeartbeat t.now w current lease s.db }
  | .completeJob id w => { s with db := (completeJob t.now id w s.db).1 }
  | .failJob job error w delay => { s with db := (failJob t.now job error w delay s.db).1 }
  | .cancelClaimedJob id w => { s with db := (cancelClaimedJob t.now id w s.db).1 }
  | .cancelUserJobs userId => { s with db := (cancelUserJobs t.now userId s.db).1 }
  | .completeGoogleTokenRevocationsForSubject subjectHash =>
    match completeGoogleTokenRevocationsForSubject t.now subjectHash s.db with
    | some (db, _) => { s with db := db }
    | none => s
  | .completeGoogleTokenRevocationJob id =>
    match completeGoogleTokenRevocationJob t.now id s.db with
    | some (db, _) => { s with db := db }
    | none => s

def latestClaim (s : QueueState) (id : String) : Option Claim :=
  s.claims.find? fun c => decide (c.job.id = id)

def latestClaimant (s : QueueState) (id : String) : Option String :=
  (latestClaim s id).map Claim.workerId

def starts (s : QueueState) (id : String) : Nat :=
  s.claims.countP fun c => decide (c.job.id = id)

/-! ## What a transaction can do -/

inductive RowEffect (t : Transaction) (j : Job) : Job → Prop where
  | keep : RowEffect t j j
  | wake (d p : Int) : RowEffect t j (wakeRow t.now d p j)
  | raise (p : Int) : RowEffect t j (raiseRow t.now p j)
  | renew (w : String) (lease : Int) (hown : ownedBy j.id w j = true) :
      RowEffect t j (renewRow t.now lease j)
  | requeue (job : Job) (error w : String) (delay : Option Int)
      (hop : t.op = .failJob job error w delay) (hfinal : isFinalAttempt job = false)
      (hown : ownedBy job.id w j = true) :
      RowEffect t j (requeueRow t.now error (failDelaySeconds job.attemptCount delay) j)
  | kill (error w : String) (hown : ownedBy j.id w j = true) : RowEffect t j (killRow t.now error j)
  | close (status : JobStatus) (hactive : j.status.isActive = true)
      (hstatus : status = .succeeded ∨ status = .cancelled) :
      RowEffect t j (Job.close status t.now j)

def RowEffects (t : Transaction) (jobs jobs' : List Job) : Prop :=
  ∃ (g : Job → Job) (extra : List Job), jobs' = jobs.map g ++ extra ∧
    (∀ j ∈ jobs, RowEffect t j (g j)) ∧
    (extra = [] ∨ ∃ id account req,
      (t.op = .insertJob id account req ∨ ∃ ctx, t.op = .enqueueJob ctx req) ∧
      extra = [newJob t.now id account req] ∧ ∀ j ∈ jobs, j.id ≠ id)

variable {j j' : Job}

theorem RowEffect.id_eq {t : Transaction} (h : RowEffect t j j') : j'.id = j.id := by
  cases h <;> rfl

variable {id w : String}

section Effects

variable {t : Transaction} {jobs : List Job}

theorem rowEffects_refl : RowEffects t jobs jobs := by
  refine ⟨id, [], ?_, ?_, Or.inl rfl⟩
  · rw [List.map_id, List.append_nil]
  · intro j _
    exact RowEffect.keep

theorem rowEffects_updateWhere {p : Job → Bool} {f : Job → Job}
    (h : ∀ j ∈ jobs, p j = true → RowEffect t j (f j)) :
    RowEffects t jobs (updateWhere p f jobs) := by
  refine ⟨fun j => if p j then f j else j, [], ?_, ?_, Or.inl rfl⟩
  · rw [List.append_nil]
    rfl
  intro j hj
  show RowEffect t j (if p j then f j else j)
  by_cases hp : p j = true
  · rw [if_pos hp]
    exact h j hj hp
  · rw [if_neg hp]
    exact RowEffect.keep

theorem rowEffects_insertJob {account : Option String} {req : EnqueueRequest}
    (hop : t.op = .insertJob id account req ∨ ∃ ctx, t.op = .enqueueJob ctx req) :
    RowEffects t jobs (insertUnlessConflict (conflictsWith (newJob t.now id account req))
      (newJob t.now id account req) jobs) := by
  unfold insertUnlessConflict
  by_cases hc : jobs.any (conflictsWith (newJob t.now id account req)) = true
  · rw [if_pos hc]
    exact rowEffects_refl
  rw [if_neg hc]
  refine ⟨fun j => j, [newJob t.now id account req], ?_, ?_, Or.inr ⟨id, account, req, hop, rfl, ?_⟩⟩
  · simp
  · intro j _
    exact RowEffect.keep
  · intro j hj hid
    apply hc
    refine List.any_eq_true.2 ⟨j, hj, ?_⟩
    unfold conflictsWith
    rw [Bool.or_eq_true, decide_eq_true_eq]
    exact Or.inl hid

theorem rowEffects_updateOwned {f : Job → Job} {event : JobEvent} {db : Db}
    (h : ∀ j ∈ db.jobs, ownedBy id w j = true → RowEffect t j (f j)) :
    RowEffects t db.jobs (updateOwned id w f event db).1.jobs := by
  rw [updateOwned_jobs]
  exact rowEffects_updateWhere h

theorem rowEffects_close {p : Job → Bool} (status : JobStatus)
    (hp : ∀ j, p j = true → j.status.isActive = true)
    (hstatus : status = .succeeded ∨ status = .cancelled) :
    RowEffects t jobs (updateWhere p (Job.close status t.now) jobs) := by
  apply rowEffects_updateWhere
  intro j _ hj
  exact RowEffect.close status (hp j hj) hstatus

end Effects

theorem isActive_of_ownedBy (h : ownedBy id w j = true) : j.status.isActive = true := by
  rw [(ownedBy_iff.1 h).2.1]
  rfl

theorem step_effects (s : QueueState) (t : Transaction)
    (hop : ∀ w queues lease locked, t.op ≠ .claimJob w queues lease locked) :
    (step s t).claims = s.claims ∧ RowEffects t s.db.jobs (step s t).db.jobs := by
  obtain ⟨now, op⟩ := t
  cases op with
  | claimJob w queues lease locked => exact absurd rfl (hop w queues lease locked)
  | enqueueJob ctx req =>
    simp only [step]
    cases henq : enqueueJob { ctx with now := now } req s.db with
    | error e => exact ⟨rfl, rowEffects_refl⟩
    | ok result =>
      obtain ⟨db, job⟩ := result
      refine ⟨rfl, ?_⟩
      show RowEffects _ s.db.jobs db.jobs
      rcases enqueueJob_ok henq with h | ⟨id, d, p, h⟩ | ⟨id, p, h⟩ | h
      · rw [h]
        exact rowEffects_refl
      · rw [h, wakeQueued_jobs]
        exact rowEffects_updateWhere fun j _ _ => RowEffect.wake d p
      · rw [h]
        exact rowEffects_updateWhere fun j _ _ => RowEffect.raise p
      · rw [insertJob_jobs h]
        exact rowEffects_insertJob (Or.inr ⟨ctx, rfl⟩)
  | wakeQueued id d p =>
    refine ⟨rfl, ?_⟩
    show RowEffects _ s.db.jobs (wakeQueued now id d p s.db).jobs
    rw [wakeQueued_jobs]
    exact rowEffects_updateWhere fun j _ _ => RowEffect.wake d p
  | raisePriority id p =>
    exact ⟨rfl, rowEffects_updateWhere fun j _ _ => RowEffect.raise p⟩
  | insertJob id account req =>
    simp only [step]
    cases hins : insertJob now id account req s.db with
    | none => exact ⟨rfl, rowEffects_refl⟩
    | some result =>
      obtain ⟨db, job⟩ := result
      refine ⟨rfl, ?_⟩
      show RowEffects _ s.db.jobs db.jobs
      rw [insertJob_jobs hins]
      exact rowEffects_insertJob (Or.inl rfl)
  | renewHeartbeat w current lease =>
    cases current with
    | none => exact ⟨rfl, rowEffects_refl⟩
    | some id =>
      refine ⟨rfl, rowEffects_updateWhere ?_⟩
      intro j _ hj
      have hid : j.id = id := (ownedBy_iff.1 hj).1
      exact RowEffect.renew w lease (hid ▸ hj)
  | completeJob =>
    refine ⟨rfl, rowEffects_updateOwned ?_⟩
    intro j _ hj
    exact RowEffect.close .succeeded (isActive_of_ownedBy hj) (Or.inl rfl)
  | failJob job error w delay =>
    refine ⟨rfl, ?_⟩
    show RowEffects _ s.db.jobs (failJob now job error w delay s.db).1.jobs
    unfold failJob
    by_cases hfinal : isFinalAttempt job = true
    · rw [if_pos hfinal]
      apply rowEffects_updateOwned
      intro j _ hj
      have hid : j.id = job.id := (ownedBy_iff.1 hj).1
      exact RowEffect.kill error w (hid ▸ hj)
    · rw [if_neg hfinal]
      apply rowEffects_updateOwned
      intro j _ hj
      exact RowEffect.requeue job error w delay rfl (Bool.eq_false_iff.2 hfinal) hj
  | cancelClaimedJob =>
    refine ⟨rfl, rowEffects_updateOwned ?_⟩
    intro j _ hj
    exact RowEffect.close .cancelled (isActive_of_ownedBy hj) (Or.inr rfl)
  | cancelUserJobs =>
    refine ⟨rfl, rowEffects_close .cancelled ?_ (Or.inr rfl)⟩
    intro j hj
    rw [Bool.and_eq_true] at hj
    exact hj.2
  | completeGoogleTokenRevocationsForSubject subjectHash =>
    simp only [step, completeGoogleTokenRevocationsForSubject]
    by_cases hempty : Text.strip subjectHash = ""
    · simp only [if_pos hempty]
      exact ⟨trivial, rowEffects_refl⟩
    · simp only [if_neg hempty]
      refine ⟨trivial, rowEffects_close .succeeded ?_ (Or.inl rfl)⟩
      intro j hj
      rw [Bool.and_eq_true, Bool.and_eq_true] at hj
      exact hj.1.2
  | completeGoogleTokenRevocationJob id =>
    simp only [step, completeGoogleTokenRevocationJob]
    by_cases hempty : Text.strip id = ""
    · simp only [if_pos hempty]
      exact ⟨trivial, rowEffects_refl⟩
    simp only [if_neg hempty]
    split
    · rename_i db' _ hsome
      split at hsome
      · rw [Option.some.injEq, Prod.mk.injEq] at hsome
        rw [← hsome.1]
        refine ⟨rfl, rowEffects_close .succeeded ?_ (Or.inl rfl)⟩
        intro j hj
        rw [Bool.and_eq_true] at hj
        exact hj.2
      · rw [Option.some.injEq, Prod.mk.injEq] at hsome
        rw [← hsome.1]
        exact ⟨rfl, rowEffects_refl⟩
    · exact ⟨rfl, rowEffects_refl⟩

variable {lease : Int}

theorem step_claim (s : QueueState) (t : Transaction) {queues locked : List String}
    (hop : t.op = .claimJob w queues lease locked) :
    (claimCandidate t.now queues locked s.db = none ∧ step s t = s) ∨
      ∃ j, claimCandidate t.now queues locked s.db = some j ∧
        (step s t).claims = ⟨w, claimRow t.now w lease j⟩ :: s.claims ∧ (step s t).db.jobs =
          updateWhere (fun r => decide (r.id = j.id)) (claimRow t.now w lease) s.db.jobs := by
  have hstep : step s t = logClaim w (claimJob t.now w queues lease locked s.db) s := by
    unfold step
    rw [hop]
  rcases claimJob_cases t.now w queues lease locked s.db with ⟨hnone, h⟩ | ⟨j, hsel, hjobs, hres⟩
  · left
    refine ⟨hnone, ?_⟩
    rw [hstep, h]
    rfl
  · right
    refine ⟨j, hsel, ?_, ?_⟩
    · rw [hstep]
      unfold logClaim
      rw [hres]
    · rw [hstep]
      unfold logClaim
      rw [hres]
      exact hjobs

/-! ## Rows across a transaction -/

section Rows

variable {t : Transaction} {jobs jobs' : List Job}

theorem RowEffects.mem (h : RowEffects t jobs jobs') (hj' : j' ∈ jobs') :
    (∃ j ∈ jobs, RowEffect t j j') ∨ ∃ id account req,
      (t.op = .insertJob id account req ∨ ∃ ctx, t.op = .enqueueJob ctx req) ∧
      j' = newJob t.now id account req ∧ ∀ j ∈ jobs, j.id ≠ id := by
  obtain ⟨g, extra, rfl, hg, hextra⟩ := h
  rcases List.mem_append.1 hj' with hmap | hnew
  · obtain ⟨j, hj, rfl⟩ := List.mem_map.1 hmap
    exact Or.inl ⟨j, hj, hg j hj⟩
  · rcases hextra with rfl | ⟨id, account, req, hop, rfl, hfresh⟩
    · simp at hnew
    · exact Or.inr ⟨id, account, req, hop, List.mem_singleton.1 hnew, hfresh⟩

theorem RowEffects.successor (h : RowEffects t jobs jobs') (hj : j ∈ jobs) :
    ∃ j' ∈ jobs', RowEffect t j j' := by
  obtain ⟨g, extra, rfl, hg, -⟩ := h
  exact ⟨g j, List.mem_append_left _ (List.mem_map_of_mem hj), hg j hj⟩

theorem RowEffects.nodup (h : RowEffects t jobs jobs') (hk : (jobs.map Job.id).Nodup) :
    (jobs'.map Job.id).Nodup := by
  obtain ⟨g, extra, rfl, hg, hextra⟩ := h
  have hids : (jobs.map g).map Job.id = jobs.map Job.id := by
    rw [List.map_map]
    apply List.map_congr_left
    intro j hj
    exact (hg j hj).id_eq
  rw [List.map_append, hids]
  rcases hextra with rfl | ⟨id, account, req, -, rfl, hfresh⟩
  · rw [List.map_nil, List.append_nil]
    exact hk
  rw [List.nodup_append]
  refine ⟨hk, by simp, ?_⟩
  intro a ha b hb
  obtain ⟨j, hj, rfl⟩ := List.mem_map.1 ha
  rw [List.map_cons, List.map_nil, List.mem_singleton] at hb
  rw [hb]
  exact hfresh j hj

end Rows

variable {now : Timestamp}

/-- After a claim of `j`, a row is the claimed row or a row of another id. -/
theorem mem_claimed {jobs : List Job} (hk : (jobs.map Job.id).Nodup) (hj : j ∈ jobs)
    (hj' : j' ∈ updateWhere (fun r => decide (r.id = j.id)) (claimRow now w lease) jobs) :
    j' = claimRow now w lease j ∨ (j' ∈ jobs ∧ j'.id ≠ j.id) := by
  obtain ⟨r, hr, rfl⟩ := mem_updateWhere.1 hj'
  by_cases hid : r.id = j.id
  · have hrj : r = j := row_unique Job.id hk hr hj hid
    subst hrj
    left
    simp
  · right
    simp [hid, hr]

theorem nodup_claimed {jobs : List Job} (j : Job) (hk : (jobs.map Job.id).Nodup) :
    ((updateWhere (fun r => decide (r.id = j.id)) (claimRow now w lease) jobs).map
      Job.id).Nodup := by
  have hids : (updateWhere (fun r => decide (r.id = j.id)) (claimRow now w lease) jobs).map
      Job.id = jobs.map Job.id := map_updateWhere fun _ _ _ => rfl
  rw [hids]
  exact hk

/-- The log after a claim of `j`: the new claim is the latest one of `j`, and
those of the other jobs stay. -/
theorem latestClaim_claimed {s s' : QueueState}
    (h : s'.claims = ⟨w, claimRow now w lease j⟩ :: s.claims) (id : String) : latestClaim s' id =
      if id = j.id then some ⟨w, claimRow now w lease j⟩ else latestClaim s id := by
  unfold latestClaim
  rw [h, List.find?_cons]
  by_cases hid : id = j.id
  · rw [if_pos hid, hid]
    simp [claimRow]
  · have hne : ¬ (claimRow now w lease j).id = id := fun he => hid he.symm
    rw [if_neg hid, decide_eq_false hne]

end ElectronicMail.Jobs
