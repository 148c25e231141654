import ElectronicMail.OAuth.Grants

/-!
# The invariant of the ledger

`Ledger.Ok` is the invariant of the tables and of Google. `Ledger.Extends` says what a
step does to the ledger behind the back of the other processes: users, jobs, grants and
epochs only grow, and the accounts of a subject get tokens only under the lock of the
subject. Each function of the ledger has one lemma (`Ledger.Good`).
-/

namespace ElectronicMail.OAuth

open Foundations.Table
open Jobs (JobStatus)

/-! ## The ledger -/

structure Ledger.Ok (w : Ledger) : Prop where
  account_unique : ∀ a ∈ w.accounts, ∀ b ∈ w.accounts, a.googleSub = b.googleSub → a = b
  primary : ∀ u ∈ w.users, ∃ a ∈ w.accounts, a.googleSub = u.googleSub ∧ a.userId = u.id
  owner : ∀ a ∈ w.accounts, ∃ u ∈ w.users, u.id = a.userId
  user_lt : ∀ u ∈ w.users, u.id < w.nextUser
  user_subject : ∀ u ∈ w.users, ∀ v ∈ w.users, u.id = v.id → u.googleSub = v.googleSub
  token_subject : ∀ a ∈ w.accounts, ∀ g, a.token = some g → g.subject = a.googleSub
  token_issued : ∀ a ∈ w.accounts, ∀ g, a.token = some g → g ∈ w.issued
  job_subject : ∀ j ∈ w.jobs, j.grant.subject = j.subjectHash
  job_lt : ∀ j ∈ w.jobs, j.id < w.jobs.length
  job_unique : ∀ i ∈ w.jobs, ∀ j ∈ w.jobs, i.id = j.id → i = j
  killed_issued : ∀ g ∈ w.killed, g ∈ w.issued
  issued_lt : ∀ g ∈ w.issued, g.number < w.issued.length
  tombstone_lt : ∀ subject, w.tombstone subject < w.nextEpoch

theorem Ledger.ok_empty : Ledger.empty.Ok where
  account_unique := by simp [Ledger.empty]
  primary := by simp [Ledger.empty]
  owner := by simp [Ledger.empty]
  user_lt := by simp [Ledger.empty]
  user_subject := by simp [Ledger.empty]
  token_subject := by simp [Ledger.empty]
  token_issued := by simp [Ledger.empty]
  job_subject := by simp [Ledger.empty]
  job_lt := by simp [Ledger.empty]
  job_unique := by simp [Ledger.empty]
  killed_issued := by simp [Ledger.empty]
  issued_lt := by simp [Ledger.empty]
  tombstone_lt := by simp [Ledger.empty]

/-- The row of a job after a step: an earlier one, which may have ended, or a new one. -/
def RevocationJob.Follows (jobs : List RevocationJob) (j' : RevocationJob) : Prop :=
  (∃ j ∈ jobs, j.id = j'.id ∧ j.grant = j'.grant ∧ j.subjectHash = j'.subjectHash ∧
    (j'.isActive = true → j.isActive = true)) ∨ jobs.length ≤ j'.id

/-- The row of an account after a step: an earlier one, which may have lost its token, or
one of the subject `held`. -/
def GmailAccount.Follows (held : Option Subject) (accounts : List GmailAccount)
    (a' : GmailAccount) : Prop :=
  (∃ a ∈ accounts, a.googleSub = a'.googleSub ∧ a.userId = a'.userId ∧
    (a'.token = a.token ∨ a'.token = none)) ∨ held = some a'.googleSub

/-- What a step of a process that holds the lock of `held` does to the ledger. -/
structure Ledger.Extends (held : Option Subject) (w w' : Ledger) : Prop where
  issued : ∀ g ∈ w.issued, g ∈ w'.issued
  killed : ∀ g ∈ w.killed, g ∈ w'.killed
  expired : ∀ g ∈ w.expired, g ∈ w'.expired
  replaced : ∀ g ∈ w.replaced, g ∈ w'.replaced
  nextEpoch : w.nextEpoch ≤ w'.nextEpoch
  nextUser : w.nextUser ≤ w'.nextUser
  tombstone : ∀ subject, w.tombstone subject ≤ w'.tombstone subject
  users : ∀ u' ∈ w'.users,
    (∃ u ∈ w.users, u.id = u'.id ∧ u.googleSub = u'.googleSub) ∨ w.nextUser ≤ u'.id
  jobs_length : w.jobs.length ≤ w'.jobs.length
  jobs : ∀ j' ∈ w'.jobs, j'.Follows w.jobs
  accounts : ∀ a' ∈ w'.accounts, a'.Follows held w.accounts

/-- The step keeps the invariant and does no more than `Extends`. -/
def Ledger.Good (held : Option Subject) (w w' : Ledger) : Prop := w'.Ok ∧ w.Extends held w'

variable {g : Grant} {id epoch : Nat} {subject : Subject} {a : GmailAccount}

section Ledger

variable {held : Option Subject} {w w' : Ledger}

theorem Ledger.Extends.refl (held : Option Subject) (w : Ledger) : w.Extends held w where
  issued := fun _ h => h
  killed := fun _ h => h
  expired := fun _ h => h
  replaced := fun _ h => h
  nextEpoch := Nat.le_refl _
  nextUser := Nat.le_refl _
  tombstone := fun _ => Nat.le_refl _
  users := fun u hu => Or.inl ⟨u, hu, rfl, rfl⟩
  jobs_length := Nat.le_refl _
  jobs := fun j hj => Or.inl ⟨j, hj, rfl, rfl, rfl, id⟩
  accounts := fun a ha => Or.inl ⟨a, ha, rfl, rfl, Or.inl rfl⟩

theorem Ledger.Ok.good (h : w.Ok) : w.Good held w := ⟨h, .refl held w⟩

theorem Ledger.Extends.trans {w₁ w₂ : Ledger} (h : w.Extends held w₁) (h' : w₁.Extends held w₂) :
    w.Extends held w₂ where
  issued := fun g hg => h'.issued g (h.issued g hg)
  killed := fun g hg => h'.killed g (h.killed g hg)
  expired := fun g hg => h'.expired g (h.expired g hg)
  replaced := fun g hg => h'.replaced g (h.replaced g hg)
  nextEpoch := Nat.le_trans h.nextEpoch h'.nextEpoch
  nextUser := Nat.le_trans h.nextUser h'.nextUser
  tombstone := fun subject => Nat.le_trans (h.tombstone subject) (h'.tombstone subject)
  users := by
    intro u₂ hu₂
    rcases h'.users u₂ hu₂ with ⟨u₁, hu₁, hid₁, hsub₁⟩ | hnew
    · rcases h.users u₁ hu₁ with ⟨u, hu, hid, hsub⟩ | hnew
      · exact Or.inl ⟨u, hu, hid.trans hid₁, hsub.trans hsub₁⟩
      · exact Or.inr (hid₁ ▸ hnew)
    · exact Or.inr (Nat.le_trans h.nextUser hnew)
  jobs_length := Nat.le_trans h.jobs_length h'.jobs_length
  jobs := by
    intro j₂ hj₂
    rcases h'.jobs j₂ hj₂ with ⟨j₁, hj₁, hid₁, hg₁, hs₁, ha₁⟩ | hnew
    · rcases h.jobs j₁ hj₁ with ⟨j, hj, hid, hg, hs, ha⟩ | hnew
      · exact Or.inl ⟨j, hj, hid.trans hid₁, hg.trans hg₁, hs.trans hs₁, fun h => ha (ha₁ h)⟩
      · exact Or.inr (hid₁ ▸ hnew)
    · exact Or.inr (Nat.le_trans h.jobs_length hnew)
  accounts := by
    intro a₂ ha₂
    rcases h'.accounts a₂ ha₂ with ⟨a₁, ha₁, hs₁, hu₁, ht₁⟩ | hheld
    · rcases h.accounts a₁ ha₁ with ⟨a, ha, hs, hu, ht⟩ | hheld
      · refine Or.inl ⟨a, ha, hs.trans hs₁, hu.trans hu₁, ?_⟩
        rcases ht₁ with ht₁ | ht₁
        · rw [ht₁]
          exact ht
        · exact Or.inr ht₁
      · exact Or.inr (hs₁ ▸ hheld)
    · exact Or.inr hheld

theorem Ledger.Good.trans {w₁ w₂ : Ledger} (h : w.Good held w₁) (h' : w₁.Good held w₂) :
    w.Good held w₂ :=
  ⟨h'.1, h.2.trans h'.2⟩

/-! ### Google -/

theorem Ledger.Ok.issue (h : w.Ok) (subject : Subject) : w.Good held (w.issue subject) := by
  have hissued : ∀ g ∈ w.issued, g ∈ w.issued ++ [w.fresh subject] := fun g hg =>
    List.mem_append_left _ hg
  have hlt : ∀ g ∈ w.issued ++ [w.fresh subject],
      g.number < (w.issued ++ [w.fresh subject]).length := by
    intro g hg
    rw [List.length_append, List.length_singleton]
    rcases List.mem_append.1 hg with hg | hg
    · exact Nat.lt_succ_of_lt (h.issued_lt g hg)
    · rw [List.mem_singleton.1 hg]
      exact Nat.lt_succ_self _
  exact ⟨{ h with
      token_issued := fun a ha g hg => hissued g (h.token_issued a ha g hg)
      killed_issued := fun g hg => hissued g (h.killed_issued g hg)
      issued_lt := hlt },
    { Ledger.Extends.refl held w with issued := hissued }⟩

theorem Ledger.Ok.fresh_not_killed (h : w.Ok) (subject : Subject) : w.fresh subject ∉ w.killed := by
  intro hk
  exact Nat.lt_irrefl _ (h.issued_lt _ (h.killed_issued _ hk))

theorem Ledger.mem_killed_revoke {h : Grant} :
    h ∈ (w.revoke g).killed ↔
      h ∈ w.killed ∨ (¬ w.Dead g ∧ h ∈ w.issued ∧ h.subject = g.subject) := by
  unfold Ledger.revoke
  by_cases hd : w.Dead g <;> simp [hd]

theorem Ledger.revoke_eq (w : Ledger) (g : Grant) :
    w.revoke g = { w with killed := (w.revoke g).killed } := by
  unfold Ledger.revoke
  by_cases hd : w.Dead g <;> simp [hd]

theorem Ledger.Ok.revoke (h : w.Ok) (g : Grant) : w.Good held (w.revoke g) := by
  have hkilled : ∀ h' ∈ (w.revoke g).killed, h' ∈ w.issued := by
    intro h' hh
    rcases Ledger.mem_killed_revoke.1 hh with hh | hh
    · exact h.killed_issued h' hh
    · exact hh.2.1
  have hmono : ∀ h' ∈ w.killed, h' ∈ (w.revoke g).killed := fun h' hh =>
    Ledger.mem_killed_revoke.2 (Or.inl hh)
  rw [Ledger.revoke_eq]
  exact ⟨{ h with killed_issued := hkilled },
    { Ledger.Extends.refl held w with killed := hmono }⟩

theorem Ledger.request_eq (w : Ledger) (g : Grant) (ch : Choice) :
    w.request g ch = { w with killed := (w.request g ch).killed } := by
  unfold Ledger.request
  split
  · exact w.revoke_eq g
  · rfl

theorem Ledger.Ok.request (h : w.Ok) (g : Grant) (ch : Choice) : w.Good held (w.request g ch) := by
  unfold Ledger.request
  split
  · exact h.revoke g
  · exact h.good

theorem Ledger.Ok.expire_good (h : w.Ok) (g : Grant) : w.Good none (w.expire g) :=
  ⟨{ h with }, { Ledger.Extends.refl none w with
    expired := fun _ hg => List.mem_cons_of_mem g hg }⟩

/-! ### Jobs -/

theorem Ledger.Ok.updateJobs (h : w.Ok) {p : RevocationJob → Bool}
    {f : RevocationJob → RevocationJob}
    (hf : ∀ j ∈ w.jobs, p j = true → (f j).id = j.id ∧ (f j).grant = j.grant ∧
      (f j).subjectHash = j.subjectHash ∧ ((f j).isActive = true → j.isActive = true)) :
    w.Good held { w with jobs := updateWhere p f w.jobs } := by
  have hsame : ∀ j' ∈ updateWhere p f w.jobs, ∃ j ∈ w.jobs, j.id = j'.id ∧ j.grant = j'.grant ∧
      j.subjectHash = j'.subjectHash ∧ (j'.isActive = true → j.isActive = true) := by
    intro j' hj'
    obtain ⟨j, hj, rfl⟩ := mem_updateWhere.1 hj'
    refine ⟨j, hj, ?_⟩
    by_cases hp : p j = true
    · rw [if_pos hp]
      obtain ⟨h1, h2, h3, h4⟩ := hf j hj hp
      exact ⟨h1.symm, h2.symm, h3.symm, h4⟩
    · rw [if_neg hp]
      exact ⟨rfl, rfl, rfl, id⟩
  have hid : ∀ j ∈ w.jobs, (if p j then f j else j).id = j.id := by
    intro j hj
    by_cases hp : p j = true
    · rw [if_pos hp]
      exact (hf j hj hp).1
    · rw [if_neg hp]
  have hlength : (updateWhere p f w.jobs).length = w.jobs.length := by simp [updateWhere]
  refine ⟨{ h with job_subject := ?_, job_lt := ?_, job_unique := ?_ },
    { Ledger.Extends.refl held w with jobs_length := hlength.ge, jobs := ?_ }⟩
  · intro j' hj'
    obtain ⟨j, hj, -, hg, hs, -⟩ := hsame j' hj'
    rw [← hg, ← hs]
    exact h.job_subject j hj
  · intro j' hj'
    obtain ⟨j, hj, hid, -⟩ := hsame j' hj'
    show j'.id < (updateWhere p f w.jobs).length
    rw [hlength, ← hid]
    exact h.job_lt j hj
  · intro i' hi' j' hj' heq
    obtain ⟨i, hi, rfl⟩ := mem_updateWhere.1 hi'
    obtain ⟨j, hj, rfl⟩ := mem_updateWhere.1 hj'
    rw [hid i hi, hid j hj] at heq
    rw [h.job_unique i hi j hj heq]
  · intro j' hj'
    exact Or.inl (hsame j' hj')

theorem RevocationJob.isOwned_isActive {worker : Nat} {j : RevocationJob}
    (h : j.isOwned id worker = true) : j.isActive = true := by
  simp only [RevocationJob.isOwned, Bool.and_eq_true, decide_eq_true_eq] at h
  simp [RevocationJob.isActive, h.1.2, JobStatus.isActive]

theorem RevocationJob.isOwned_id {worker : Nat} {j : RevocationJob}
    (h : j.isOwned id worker = true) : j.id = id := by
  simp only [RevocationJob.isOwned, Bool.and_eq_true, decide_eq_true_eq] at h
  exact h.1.1

theorem Ledger.Ok.completeSubject (h : w.Ok) (subject : Subject) :
    w.Good held (w.completeSubject subject) :=
  h.updateJobs fun _ _ hp => ⟨rfl, rfl, rfl, fun _ => (Bool.and_eq_true_iff.1 hp).1⟩

theorem Ledger.Ok.completeRevocation (h : w.Ok) (id : Nat) :
    w.Good held (w.completeRevocation id) :=
  h.updateJobs fun _ _ hp => ⟨rfl, rfl, rfl, fun _ => (Bool.and_eq_true_iff.1 hp).1⟩

theorem Ledger.Ok.claim (h : w.Ok) (id worker : Nat) : w.Good held (w.claim id worker) :=
  h.updateJobs fun _ _ hp => ⟨rfl, rfl, rfl, fun _ => (Bool.and_eq_true_iff.1 hp).1⟩

theorem Ledger.Ok.completeJob (h : w.Ok) (id worker : Nat) : w.Good held (w.completeJob id worker) :=
  h.updateJobs fun _ _ hp => ⟨rfl, rfl, rfl, fun _ => RevocationJob.isOwned_isActive hp⟩

theorem Ledger.Ok.failJob (h : w.Ok) (id worker attemptCount : Nat) :
    w.Good held (w.failJob id worker attemptCount) :=
  h.updateJobs fun _ _ hp => ⟨rfl, rfl, rfl, fun _ => RevocationJob.isOwned_isActive hp⟩

def Ledger.JobIs (w : Ledger) (id : Nat) (g : Grant) : Prop :=
  id < w.jobs.length ∧ ∀ j ∈ w.jobs, j.id = id → j.grant = g

def Ledger.JobOver (w : Ledger) (id : Nat) : Prop :=
  id < w.jobs.length ∧ ∀ j ∈ w.jobs, j.id = id → j.isActive = false

def Ledger.Active (w : Ledger) (g : Grant) : Prop := ∃ j ∈ w.jobs, j.isActive = true ∧ j.grant = g

/-- A job for the grant is active after `enqueue`, and all earlier ones are still there. -/
theorem Ledger.enqueue_cases (w : Ledger) (subject : Subject) (g : Grant) :
    (∃ j ∈ w.jobs, j.isActive = true ∧ j.subjectHash = subject ∧ j.grant = g ∧
      w.enqueue subject g = (w, j.id)) ∨
    w.enqueue subject g =
      ({ w with jobs := w.jobs ++ [⟨w.jobs.length, subject, g, .queued, 0, none⟩] },
        w.jobs.length) := by
  unfold Ledger.enqueue
  cases hfind : w.jobs.find? fun job =>
      job.isActive && job.subjectHash = subject && job.grant = g with
  | none => exact Or.inr rfl
  | some job =>
    have hjob := List.find?_some hfind
    simp only [Bool.and_eq_true, decide_eq_true_eq] at hjob
    exact Or.inl ⟨job, List.mem_of_find?_eq_some hfind, hjob.1.1, hjob.1.2, hjob.2, rfl⟩

theorem Ledger.Ok.enqueue (h : w.Ok) (hg : g.subject = subject) :
    w.Good held (w.enqueue subject g).1 := by
  rcases w.enqueue_cases subject g with ⟨j, -, -, -, -, heq⟩ | heq
  · rw [heq]
    exact h.good
  rw [heq]
  refine ⟨{ h with job_subject := ?_, job_lt := ?_, job_unique := ?_ },
    { Ledger.Extends.refl held w with jobs_length := ?_, jobs := ?_ }⟩
  · intro j hj
    rcases List.mem_append.1 hj with hj | hj
    · exact h.job_subject j hj
    · rw [List.mem_singleton.1 hj]
      exact hg
  · intro j hj
    show j.id < (w.jobs ++ [_]).length
    rw [List.length_append, List.length_singleton]
    rcases List.mem_append.1 hj with hj | hj
    · exact Nat.lt_succ_of_lt (h.job_lt j hj)
    · rw [List.mem_singleton.1 hj]
      exact Nat.lt_succ_self _
  · intro i hi j hj heq
    rcases List.mem_append.1 hi with hi | hi <;> rcases List.mem_append.1 hj with hj | hj
    · exact h.job_unique i hi j hj heq
    · rw [List.mem_singleton.1 hj] at heq
      exact absurd heq (Nat.ne_of_lt (h.job_lt i hi))
    · rw [List.mem_singleton.1 hi] at heq
      exact absurd heq.symm (Nat.ne_of_lt (h.job_lt j hj))
    · rw [List.mem_singleton.1 hi, List.mem_singleton.1 hj]
  · simp
  · intro j hj
    rcases List.mem_append.1 hj with hj | hj
    · exact Or.inl ⟨j, hj, rfl, rfl, rfl, id⟩
    · right
      rw [List.mem_singleton.1 hj]

/-- The job that `enqueue` answers is one for the grant. -/
theorem Ledger.Ok.enqueue_jobIs (h : w.Ok) (subject : Subject) (g : Grant) :
    (w.enqueue subject g).1.JobIs (w.enqueue subject g).2 g := by
  rcases w.enqueue_cases subject g with ⟨j, hj, -, -, hg, heq⟩ | heq
  · rw [heq]
    exact ⟨h.job_lt j hj, fun i hi hid => by rw [h.job_unique i hi j hj hid]; exact hg⟩
  rw [heq]
  refine ⟨by simp, ?_⟩
  intro j hj hid
  rcases List.mem_append.1 hj with hj | hj
  · exact absurd (h.job_lt j hj) (by simp only at hid; omega)
  · rw [List.mem_singleton.1 hj]

/-! ### Epochs and users -/

theorem Ledger.Ok.openSession (h : w.Ok) : w.Good held { w with nextEpoch := w.nextEpoch + 1 } :=
  ⟨{ h with tombstone_lt := fun subject => Nat.lt_succ_of_lt (h.tombstone_lt subject) },
    { Ledger.Extends.refl held w with nextEpoch := Nat.le_succ _ }⟩

theorem Ledger.record_tombstone (w : Ledger) (subject : Subject) :
    (w.record subject).tombstone subject = w.nextEpoch := by
  simp [Ledger.record]

theorem Ledger.Ok.record (h : w.Ok) (subject : Subject) : w.Good held (w.record subject) := by
  refine ⟨{ h with tombstone_lt := ?_ },
    { Ledger.Extends.refl held w with nextEpoch := Nat.le_succ _, tombstone := ?_ }⟩
  · intro other
    show Function.update w.tombstone subject w.nextEpoch other < w.nextEpoch + 1
    by_cases hs : other = subject
    · subst hs
      simp
    · rw [Function.update_of_ne hs]
      exact Nat.lt_succ_of_lt (h.tombstone_lt other)
  · intro other
    show w.tombstone other ≤ Function.update w.tombstone subject w.nextEpoch other
    by_cases hs : other = subject
    · subst hs
      simpa using (h.tombstone_lt other).le
    · rw [Function.update_of_ne hs]

theorem Ledger.Ok.updateUsers (h : w.Ok) {p : AppUser → Bool} {f : AppUser → AppUser}
    (hf : ∀ u, (f u).id = u.id ∧ (f u).googleSub = u.googleSub) :
    w.Good held { w with users := updateWhere p f w.users } := by
  have hsame : ∀ u' ∈ updateWhere p f w.users,
      ∃ u ∈ w.users, u.id = u'.id ∧ u.googleSub = u'.googleSub := by
    intro u' hu'
    obtain ⟨u, hu, rfl⟩ := mem_updateWhere.1 hu'
    refine ⟨u, hu, ?_⟩
    by_cases hp : p u = true
    · rw [if_pos hp]
      exact ⟨(hf u).1.symm, (hf u).2.symm⟩
    · rw [if_neg hp]
      exact ⟨rfl, rfl⟩
  refine ⟨{ h with primary := ?_, owner := ?_, user_lt := ?_, user_subject := ?_ },
    { Ledger.Extends.refl held w with users := fun u' hu' => Or.inl (hsame u' hu') }⟩
  · intro u' hu'
    obtain ⟨u, hu, hid, hsub⟩ := hsame u' hu'
    rw [← hid, ← hsub]
    exact h.primary u hu
  · intro a ha
    obtain ⟨u, hu, hid⟩ := h.owner a ha
    refine ⟨_, mem_updateWhere.2 ⟨u, hu, rfl⟩, ?_⟩
    by_cases hp : p u = true
    · rw [if_pos hp, (hf u).1]
      exact hid
    · rw [if_neg hp]
      exact hid
  · intro u' hu'
    obtain ⟨u, hu, hid, -⟩ := hsame u' hu'
    rw [← hid]
    exact h.user_lt u hu
  · intro u' hu' v' hv' heq
    obtain ⟨u, hu, hid, hsub⟩ := hsame u' hu'
    obtain ⟨v, hv, hid', hsub'⟩ := hsame v' hv'
    rw [← hsub, ← hsub']
    exact h.user_subject u hu v hv (by rw [hid, hid', heq])

theorem Ledger.Ok.closeGuard (h : w.Ok) (id : Nat) (wasClosed : AppUser → Bool)
    {close : AppUser → AppUser} (hf : ∀ u, (close u).id = u.id ∧ (close u).googleSub = u.googleSub) :
    w.Good held (w.closeGuard id wasClosed close) := by
  unfold Ledger.closeGuard
  cases w.user id with
  | none => exact h.good
  | some user =>
    by_cases hc : wasClosed user = true
    · simp only [hc, if_true]
      exact h.updateUsers hf
    · simp only [hc, if_false, Bool.false_eq_true]
      have hrecord : w.Good held (w.record user.googleSub) := h.record user.googleSub
      exact hrecord.trans (hrecord.1.updateUsers hf)

theorem Ledger.closeGuard_eq (w : Ledger) (id : Nat) (wasClosed : AppUser → Bool)
    (close : AppUser → AppUser) :
    (w.closeGuard id wasClosed close).issued = w.issued ∧
      (w.closeGuard id wasClosed close).accounts = w.accounts ∧
      (w.closeGuard id wasClosed close).jobs = w.jobs ∧
      (w.closeGuard id wasClosed close).killed = w.killed := by
  unfold Ledger.closeGuard
  cases w.user id with
  | none => exact ⟨rfl, rfl, rfl, rfl⟩
  | some =>
    dsimp only
    split <;> exact ⟨rfl, rfl, rfl, rfl⟩

theorem Ledger.Ok.markDisconnected (h : w.Ok) (id : Nat) : w.Good held (w.markDisconnected id) :=
  h.closeGuard id _ fun _ => ⟨rfl, rfl⟩

theorem Ledger.Ok.requestDeletion (h : w.Ok) (id : Nat) : w.Good held (w.requestDeletion id) :=
  h.closeGuard id _ fun _ => ⟨rfl, rfl⟩

theorem Ledger.Ok.guardFor (h : w.Ok) (op : Operation) : w.Good held (w.guardFor op) := by
  unfold Ledger.guardFor
  cases op.kind with
  | disconnect | dataDeletion => exact h.markDisconnected op.userId
  | accountDeletion => exact h.requestDeletion op.userId

theorem Ledger.Ok.clearGuards (h : w.Ok) (id : Nat) : w.Good held (w.clearGuards id) :=
  h.updateUsers fun _ => ⟨rfl, rfl⟩

/-! ### Accounts -/

variable {p : GmailAccount → Bool}

/-- An update of accounts that keeps what they are. Only accounts of `held` get a token. -/
theorem Ledger.Ok.updateAccounts (h : w.Ok) {f : GmailAccount → GmailAccount}
    (hf : ∀ a ∈ w.accounts, p a = true → (f a).googleSub = a.googleSub ∧ (f a).userId = a.userId ∧
      ((f a).token = none ∨
        (held = some a.googleSub ∧
          ∀ g, (f a).token = some g → g.subject = a.googleSub ∧ g ∈ w.issued))) :
    w.Good held { w with accounts := updateWhere p f w.accounts } := by
  have hsame : ∀ a ∈ w.accounts, (if p a then f a else a).googleSub = a.googleSub ∧
      (if p a then f a else a).userId = a.userId := by
    intro a ha
    by_cases hp : p a = true
    · rw [if_pos hp]
      exact ⟨(hf a ha hp).1, (hf a ha hp).2.1⟩
    · rw [if_neg hp]
      exact ⟨rfl, rfl⟩
  have htoken : ∀ a' ∈ updateWhere p f w.accounts, ∀ g, a'.token = some g →
      g.subject = a'.googleSub ∧ g ∈ w.issued := by
    intro a' ha' g hg
    obtain ⟨a, ha, rfl⟩ := mem_updateWhere.1 ha'
    rw [(hsame a ha).1]
    by_cases hp : p a = true
    · rw [if_pos hp] at hg
      rcases (hf a ha hp).2.2 with hnone | ⟨-, hsub⟩
      · rw [hnone] at hg
        cases hg
      · exact hsub g hg
    · rw [if_neg hp] at hg
      exact ⟨h.token_subject a ha g hg, h.token_issued a ha g hg⟩
  refine ⟨{ h with
      account_unique := ?_, primary := ?_, owner := ?_,
      token_subject := fun a ha g hg => (htoken a ha g hg).1,
      token_issued := fun a ha g hg => (htoken a ha g hg).2 },
    { Ledger.Extends.refl held w with accounts := ?_ }⟩
  · intro a' ha' b' hb' heq
    obtain ⟨a, ha, rfl⟩ := mem_updateWhere.1 ha'
    obtain ⟨b, hb, rfl⟩ := mem_updateWhere.1 hb'
    rw [(hsame a ha).1, (hsame b hb).1] at heq
    rw [h.account_unique a ha b hb heq]
  · intro u hu
    obtain ⟨a, ha, hs, hid⟩ := h.primary u hu
    exact ⟨_, mem_updateWhere.2 ⟨a, ha, rfl⟩, (hsame a ha).1.trans hs, (hsame a ha).2.trans hid⟩
  · intro a' ha'
    obtain ⟨a, ha, rfl⟩ := mem_updateWhere.1 ha'
    rw [(hsame a ha).2]
    exact h.owner a ha
  · intro a' ha'
    obtain ⟨a, ha, rfl⟩ := mem_updateWhere.1 ha'
    by_cases hp : p a = true
    · rcases (hf a ha hp).2.2 with hnone | ⟨hheld, -⟩
      · refine Or.inl ⟨a, ha, (hsame a ha).1.symm, (hsame a ha).2.symm, Or.inr ?_⟩
        rw [if_pos hp]
        exact hnone
      · right
        rw [(hsame a ha).1]
        exact hheld
    · rw [if_neg hp]
      exact Or.inl ⟨a, ha, rfl, rfl, Or.inl rfl⟩

theorem Ledger.Ok.dropPrimary (h : w.Ok) (id : Nat) : w.Good held (w.dropPrimary id) :=
  h.updateAccounts fun _ _ _ => ⟨rfl, rfl, Or.inl rfl⟩

theorem Ledger.Ok.putToken (h : w.Ok) (hg : g ∈ w.issued)
    (hp : ∀ a ∈ w.accounts, p a = true → a.googleSub = g.subject) :
    w.Good (some g.subject) (w.putToken p g) := by
  have hupdate : w.Good (some g.subject) { w with
      accounts := updateWhere p (fun account => { account with token := some g }) w.accounts } := by
    refine h.updateAccounts fun a ha hpa => ⟨rfl, rfl, Or.inr ⟨by rw [hp a ha hpa], ?_⟩⟩
    intro g' hg'
    cases hg'
    exact ⟨(hp a ha hpa).symm, hg⟩
  exact ⟨{ hupdate.1 with }, { hupdate.2 with
    replaced := fun _ hg => List.mem_append_left _ hg }⟩

/-! A new account, for a subject that has none. -/

theorem Ledger.Ok.account_unique_append (h : w.Ok)
    (hnew : ∀ b ∈ w.accounts, b.googleSub ≠ a.googleSub) :
    ∀ b ∈ w.accounts ++ [a], ∀ c ∈ w.accounts ++ [a], b.googleSub = c.googleSub → b = c := by
  intro b hb c hc heq
  rcases List.mem_append.1 hb with hb | hb <;> rcases List.mem_append.1 hc with hc | hc
  · exact h.account_unique b hb c hc heq
  · rw [List.mem_singleton.1 hc] at heq
    exact absurd heq (hnew b hb)
  · rw [List.mem_singleton.1 hb] at heq
    exact absurd heq.symm (hnew c hc)
  · rw [List.mem_singleton.1 hb, List.mem_singleton.1 hc]

theorem Ledger.Ok.token_append (h : w.Ok)
    (ht : ∀ g, a.token = some g → g.subject = a.googleSub ∧ g ∈ w.issued) :
    ∀ b ∈ w.accounts ++ [a], ∀ g, b.token = some g → g.subject = b.googleSub ∧ g ∈ w.issued := by
  intro b hb g hg
  rcases List.mem_append.1 hb with hb | hb
  · exact ⟨h.token_subject b hb g hg, h.token_issued b hb g hg⟩
  · rw [List.mem_singleton.1 hb] at hg ⊢
    exact ht g hg

theorem GmailAccount.follows_append {accounts : List GmailAccount} {b : GmailAccount}
    (hb : b ∈ accounts ++ [a]) : b.Follows (some a.googleSub) accounts := by
  rcases List.mem_append.1 hb with hb | hb
  · exact Or.inl ⟨b, hb, rfl, rfl, Or.inl rfl⟩
  · right
    rw [List.mem_singleton.1 hb]

theorem Ledger.Ok.addAccount (h : w.Ok)
    (hnew : ∀ b ∈ w.accounts, b.googleSub ≠ a.googleSub) (howner : ∃ u ∈ w.users, u.id = a.userId)
    (ht : ∀ g, a.token = some g → g.subject = a.googleSub ∧ g ∈ w.issued) :
    w.Good (some a.googleSub) { w with accounts := w.accounts ++ [a] } := by
  refine ⟨{ h with
      account_unique := h.account_unique_append hnew, primary := ?_, owner := ?_,
      token_subject := fun b hb g hg => (h.token_append ht b hb g hg).1,
      token_issued := fun b hb g hg => (h.token_append ht b hb g hg).2 },
    { Ledger.Extends.refl (some a.googleSub) w with
      accounts := fun b hb => GmailAccount.follows_append hb }⟩
  · intro u hu
    obtain ⟨b, hb, hs, hid⟩ := h.primary u hu
    exact ⟨b, List.mem_append_left _ hb, hs, hid⟩
  · intro b hb
    rcases List.mem_append.1 hb with hb | hb
    · exact h.owner b hb
    · rw [List.mem_singleton.1 hb]
      exact howner

theorem Ledger.user_eq_some {user : AppUser} (h : w.user id = some user) :
    user ∈ w.users ∧ user.id = id :=
  ⟨List.mem_of_find?_eq_some h, by simpa using List.find?_some h⟩

/-- What a successful `link_gmail_account` has found and done: it has replaced the token
of the subject's account, or added the account. -/
theorem Ledger.link_cases (hlink : w.link id g epoch = some w') :
    w.isGuarded id = false ∧ w.tombstone g.subject < epoch ∧ (∃ u ∈ w.users, u.id = id) ∧
    ((w' = w.putToken (fun account => account.googleSub = g.subject) g ∧
        ∃ a ∈ w.accounts, a.googleSub = g.subject ∧ a.userId = id) ∨ (w' = { w with accounts:= w.accounts ++ [⟨g.subject, id, some g⟩] } ∧
        ∀ a ∈ w.accounts, a.googleSub ≠ g.subject)) := by
  unfold Ledger.link at hlink
  by_cases hallowed : ((w.user id).isSome && w.tokenAllowed id g.subject epoch) = true
  · rw [if_pos hallowed] at hlink
    simp only [Ledger.tokenAllowed, Bool.and_eq_true, Bool.not_eq_true', decide_eq_true_eq]
      at hallowed
    obtain ⟨user, huser⟩ := Option.isSome_iff_exists.1 hallowed.1
    refine ⟨hallowed.2.1, hallowed.2.2, ⟨user, Ledger.user_eq_some huser⟩, ?_⟩
    cases hfind : w.accounts.find? fun account => account.googleSub = g.subject with
    | none =>
      simp only [hfind, Option.some.injEq] at hlink
      refine Or.inr ⟨hlink.symm, fun a ha => ?_⟩
      simpa using List.find?_eq_none.1 hfind a ha
    | some existing =>
      have hexisting := List.find?_some hfind
      simp only [decide_eq_true_eq] at hexisting
      by_cases howner : existing.userId = id
      · simp only [hfind, howner, if_true, Option.some.injEq] at hlink
        exact Or.inl ⟨hlink.symm, existing, List.mem_of_find?_eq_some hfind, hexisting, howner⟩
      · simp only [hfind, howner, if_false, reduceCtorEq] at hlink
  · rw [if_neg hallowed] at hlink
    cases hlink

theorem Ledger.Ok.link (h : w.Ok) (hg : g ∈ w.issued)
    (hlink : w.link id g epoch = some w') : w.Good (some g.subject) w' := by
  obtain ⟨-, -, howner, ⟨rfl, -⟩ | ⟨rfl, hnew⟩⟩ := Ledger.link_cases hlink
  · exact h.putToken hg fun a _ ha => by simpa using ha
  · refine h.addAccount (a := ⟨g.subject, id, some g⟩) hnew howner fun g' hg' => ?_
    cases hg'
    exact ⟨rfl, hg⟩

/-- What a successful `upsert_user` has found and done: the user was there, or the user
and the primary account are new. -/
theorem Ledger.upsertUser_cases (hupsert : w.upsertUser subject epoch = some (w', id)) :
    (w' = w ∧ ∃ u ∈ w.users, u.googleSub = subject ∧ u.id = id) ∨ (w' = { w with
        users := w.users ++ [⟨w.nextUser, subject, false, false⟩]
        accounts := w.accounts ++ [⟨subject, w.nextUser, none⟩]
        nextUser := w.nextUser + 1 } ∧ id = w.nextUser ∧
      ∀ a ∈ w.accounts, a.googleSub ≠ subject) := by
  unfold Ledger.upsertUser at hupsert
  by_cases hfresh : w.tombstone subject < epoch
  · rw [if_pos hfresh] at hupsert
    cases hfind : w.users.find? fun user => user.googleSub = subject with
    | some user =>
      simp only [hfind, Option.some.injEq, Prod.mk.injEq] at hupsert
      have huser := List.find?_some hfind
      simp only [decide_eq_true_eq] at huser
      exact Or.inl ⟨hupsert.1.symm, user, List.mem_of_find?_eq_some hfind, huser, hupsert.2⟩
    | none =>
      by_cases hany : (w.accounts.any fun account => account.googleSub = subject) = true
      · simp only [hfind, hany, if_true, reduceCtorEq] at hupsert
      · simp only [hfind, hany, if_false, Bool.false_eq_true, Option.some.injEq,
          Prod.mk.injEq] at hupsert
        refine Or.inr ⟨hupsert.1.symm, hupsert.2.symm, fun a ha heq => hany ?_⟩
        exact List.any_eq_true.2 ⟨a, ha, by simpa using heq⟩
  · rw [if_neg hfresh] at hupsert
    cases hupsert

theorem Ledger.Ok.upsertUser (h : w.Ok)
    (hupsert : w.upsertUser subject epoch = some (w', id)) : w.Good (some subject) w' := by
  obtain ⟨rfl, -⟩ | ⟨rfl, -, hnew⟩ := Ledger.upsertUser_cases hupsert
  · exact h.good
  · -- The new account is the primary one of the new user.
    have ht : ∀ g : Grant, (⟨subject, w.nextUser, none⟩ : GmailAccount).token = some g →
        g.subject = subject ∧ g ∈ w.issued := fun g hg => by cases hg
    refine ⟨{ h with
        account_unique := h.account_unique_append hnew, primary := ?_, owner := ?_,
        user_lt := ?_, user_subject := ?_,
        token_subject := fun b hb g hg => (h.token_append ht b hb g hg).1,
        token_issued := fun b hb g hg => (h.token_append ht b hb g hg).2 },
      { Ledger.Extends.refl (some subject) w with
        nextUser := Nat.le_succ _, users := ?_,
        accounts := fun b hb => GmailAccount.follows_append hb }⟩
    · intro u hu
      rcases List.mem_append.1 hu with hu | hu
      · obtain ⟨a, ha, hs, hid⟩ := h.primary u hu
        exact ⟨a, List.mem_append_left _ ha, hs, hid⟩
      · rw [List.mem_singleton.1 hu]
        exact ⟨_, List.mem_append_right _ (List.mem_singleton_self _), rfl, rfl⟩
    · intro a ha
      rcases List.mem_append.1 ha with ha | ha
      · obtain ⟨u, hu, hid⟩ := h.owner a ha
        exact ⟨u, List.mem_append_left _ hu, hid⟩
      · rw [List.mem_singleton.1 ha]
        exact ⟨_, List.mem_append_right _ (List.mem_singleton_self _), rfl⟩
    · intro u hu
      rcases List.mem_append.1 hu with hu | hu
      · exact Nat.lt_succ_of_lt (h.user_lt u hu)
      · rw [List.mem_singleton.1 hu]
        exact Nat.lt_succ_self _
    · intro u hu v hv heq
      rcases List.mem_append.1 hu with hu | hu <;> rcases List.mem_append.1 hv with hv | hv
      · exact h.user_subject u hu v hv heq
      · rw [List.mem_singleton.1 hv] at heq
        exact absurd heq (Nat.ne_of_lt (h.user_lt u hu))
      · rw [List.mem_singleton.1 hu] at heq
        exact absurd heq.symm (Nat.ne_of_lt (h.user_lt v hv))
      · rw [List.mem_singleton.1 hu, List.mem_singleton.1 hv]
    · intro u hu
      rcases List.mem_append.1 hu with hu | hu
      · exact Or.inl ⟨u, hu, rfl, rfl⟩
      · right
        rw [List.mem_singleton.1 hu]

def Ledger.UserIs (w : Ledger) (id : Nat) (subject : Subject) : Prop :=
  id < w.nextUser ∧ ∀ u ∈ w.users, u.id = id → u.googleSub = subject

theorem Ledger.Ok.userIs (h : w.Ok) {u : AppUser} (hu : u ∈ w.users) : w.UserIs u.id u.googleSub :=
  ⟨h.user_lt u hu, fun v hv hid => h.user_subject v hv u hu hid⟩

/-- The user that `upsert_user` answers has the subject. -/
theorem Ledger.Ok.upsertUser_userIs (h : w.Ok)
    (hupsert : w.upsertUser subject epoch = some (w', id)) : w'.UserIs id subject := by
  have hok := (h.upsertUser hupsert).1
  obtain ⟨rfl, u, hu, rfl, rfl⟩ | ⟨rfl, rfl, -⟩ := Ledger.upsertUser_cases hupsert
  · exact hok.userIs hu
  · exact hok.userIs (u := ⟨w.nextUser, subject, false, false⟩)
      (List.mem_append_right _ (List.mem_singleton_self _))

theorem Ledger.isPrimary_iff :
    w.isPrimary id a = true ↔
      a.userId = id ∧ ∃ u ∈ w.users, u.id = id ∧ u.googleSub = a.googleSub := by
  simp [Ledger.isPrimary]

theorem Ledger.UserIs.primary_subject (h : w.UserIs id subject)
    (ha : w.isPrimary id a = true) : a.googleSub = subject := by
  obtain ⟨-, u, hu, hid, hsub⟩ := Ledger.isPrimary_iff.1 ha
  rw [← hsub]
  exact h.2 u hu hid

theorem Ledger.mem_primaryTokens :
    g ∈ w.primaryTokens id ↔ ∃ a ∈ w.accounts, w.isPrimary id a = true ∧ a.token = some g := by
  simp [Ledger.primaryTokens, and_assoc]

/-- What a successful `reconnect_google_oauth_token` has found and done. -/
theorem Ledger.reconnect_cases (hreconnect : w.reconnect id g epoch = some w') :
    w' = (w.clearGuards id).putToken (w.isPrimary id) g ∧
      ∃ a ∈ w.accounts, w.isPrimary id a = true ∧ w.tombstone a.googleSub < epoch := by
  unfold Ledger.reconnect at hreconnect
  cases hfind : w.accounts.find? (w.isPrimary id) with
  | none =>
    rw [hfind] at hreconnect
    cases hreconnect
  | some primary =>
    by_cases hfresh : w.tombstone primary.googleSub < epoch
    · simp only [hfind, hfresh, if_true, Option.some.injEq] at hreconnect
      exact ⟨hreconnect.symm, primary, List.mem_of_find?_eq_some hfind,
        List.find?_some hfind, hfresh⟩
    · simp only [hfind, hfresh, if_false, reduceCtorEq] at hreconnect

theorem Ledger.Ok.reconnect (h : w.Ok) (hg : g ∈ w.issued)
    (huser : w.UserIs id g.subject) (hreconnect : w.reconnect id g epoch = some w') :
    w.Good (some g.subject) w' := by
  obtain ⟨rfl, -⟩ := Ledger.reconnect_cases hreconnect
  have hclear : w.Good (some g.subject) (w.clearGuards id) := h.clearGuards id
  exact hclear.trans (hclear.1.putToken hg fun a _ ha => huser.primary_subject ha)

theorem Ledger.Ok.deleteUser (h : w.Ok) (id : Nat) : w.Good held (w.deleteUser id) := by
  unfold Ledger.deleteUser
  cases w.user id with
  | none => exact h.good
  | some user =>
    have hrecord : w.Good held (w.record user.googleSub) := h.record user.googleSub
    refine hrecord.trans ⟨{ hrecord.1 with
        account_unique := ?_, primary := ?_, owner := ?_, user_lt := ?_, user_subject := ?_,
        token_subject := ?_, token_issued := ?_ },
      { Ledger.Extends.refl held _ with users := ?_, accounts := ?_ }⟩
    · intro a ha b hb heq
      exact h.account_unique a (List.mem_filter.1 ha).1 b (List.mem_filter.1 hb).1 heq
    · intro u hu
      obtain ⟨hu, hne⟩ := List.mem_filter.1 hu
      obtain ⟨a, ha, hs, hid⟩ := h.primary u hu
      refine ⟨a, List.mem_filter.2 ⟨ha, ?_⟩, hs, hid⟩
      rw [hid]
      exact hne
    · intro a ha
      obtain ⟨ha, hne⟩ := List.mem_filter.1 ha
      obtain ⟨u, hu, hid⟩ := h.owner a ha
      refine ⟨u, List.mem_filter.2 ⟨hu, ?_⟩, hid⟩
      rw [hid]
      exact hne
    · intro u hu
      exact h.user_lt u (List.mem_filter.1 hu).1
    · intro u hu v hv heq
      exact h.user_subject u (List.mem_filter.1 hu).1 v (List.mem_filter.1 hv).1 heq
    · intro a ha
      exact h.token_subject a (List.mem_filter.1 ha).1
    · intro a ha
      exact h.token_issued a (List.mem_filter.1 ha).1
    · intro u hu
      exact Or.inl ⟨u, (List.mem_filter.1 hu).1, rfl, rfl⟩
    · intro a ha
      exact Or.inl ⟨a, (List.mem_filter.1 ha).1, rfl, rfl, Or.inl rfl⟩

end Ledger

end ElectronicMail.OAuth
