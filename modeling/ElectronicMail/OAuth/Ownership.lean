import ElectronicMail.OAuth.Phases

/-!
# No grant is forgotten

A live grant is the token of an account, the payload of an active revocation job, or in
the hands of a callback. `GrantPhase.carries` lists the grants that only the process
knows, and `Hands` says what a step does to all of them: none of the process's own gets
lost, and none of those in the tables but into the hands of the process.

The code loses grants in the cases that `Ledger.retains` names: a revocation that is
requested without a job and does not reach Google, the stored grant of another subject
that a cleanup deletes, the linked accounts that go with their user, a job closed for a
grant that a subject-wide revocation came too early for, a job that runs out of
attempts. `grants_owned` says that it loses none otherwise.
-/

namespace ElectronicMail.OAuth

open Foundations.Table
open Jobs (JobStatus)

/-! ## Where a grant can be -/

def Ledger.Stored (w : Ledger) (g : Grant) : Prop := ∃ a ∈ w.accounts, a.token = some g

def Ledger.Tracked (w : Ledger) (g : Grant) : Prop := w.Dead g ∨ w.Active g

/-- The grant is where it can be found, or nobody has to find it any more. -/
def Ledger.Safe (w : Ledger) (g : Grant) : Prop :=
  w.Dead g ∨ g ∈ w.replaced ∨ w.Stored g ∨ w.Active g

instance (w : Ledger) (g : Grant) : Decidable (w.Stored g) :=
  inferInstanceAs (Decidable (∃ a ∈ w.accounts, a.token = some g))

instance (w : Ledger) (g : Grant) : Decidable (w.Active g) :=
  inferInstanceAs (Decidable (∃ j ∈ w.jobs, j.isActive = true ∧ j.grant = g))

instance (w : Ledger) (g : Grant) : Decidable (w.Tracked g) :=
  inferInstanceAs (Decidable (w.Dead g ∨ w.Active g))

def GrantPhase.isCallback : GrantPhase → Bool
  | .identifying _ => true
  | .dropping _ => true
  | .locking _ => true
  | .lookingUp _ => true
  | .lookingAccount _ _ => true
  | .checkingEpoch _ => true
  | .checkingPending _ => true
  | .colliding _ _ => true
  | .linking _ _ => true
  | .upserting _ => true
  | .reconnecting _ _ => true
  | .tracking _ => true
  | .droppingStored _ _ _ => true
  | .marking _ _ _ => true
  | .cleanRevoking _ => true
  | .cleanRecording _ => true
  | .outer _ => true
  | .queueing _ _ => true
  | .checkingJob ⟨.callback _, _, _, _⟩ => true
  | .revoking ⟨.callback _, _, _, _⟩ => true
  | .recording ⟨.callback _, _, _, _⟩ _ => true
  | .completing ⟨.callback _, _, _, _⟩ _ => true
  | _ => false

variable {n : Nat}

/-- With no callback in progress, every live grant that was not replaced is stored, or
has an active job. -/
def GrantSystem.Owned (s : GrantSystem n) : Prop :=
  (∀ i, (s.phase i).isCallback = false) → ∀ g ∈ s.ledger.issued, ¬ s.ledger.Dead g →
    g ∉ s.ledger.replaced → s.ledger.Stored g ∨ s.ledger.Active g

/-! ## When the code retains a grant -/

/-- The stored grant that a cleanup has deleted has a job, is dead, or dies of the
revocation that the callback requests. -/
def Ledger.Disposed (w : Ledger) (c : Callback) (ch : Choice) (g : Grant) : Prop :=
  w.Tracked g ∨ (ch.processed = true ∧ ¬ w.Dead c.grant ∧ g.subject = c.subject)

instance (w : Ledger) (c : Callback) (ch : Choice) (g : Grant) : Decidable (w.Disposed c ch g) :=
  inferInstanceAs (Decidable (_ ∨ _))

def Revoker.dropped : Revoker → List Grant
  | .callback c => c.dropped
  | _ => []

/-- The step of process `me` gives up no grant that is live. -/
def Ledger.retains (w : Ledger) (ch : Choice) (me : Nat) : GrantPhase → Bool
  -- A revocation request without a job gets to Google.
  | .dropping c => ch.processed || decide (w.Tracked c.grant)
  | .cleanRevoking c =>
    (ch.processed || decide (w.Tracked c.grant)) && decide (∀ g ∈ c.dropped, w.Disposed c ch g)
  -- The cleanup is queued.
  | .queueing c lastResort => ch.ok || lastResort || decide (w.Tracked c.grant)
  -- A callback that has deleted a stored grant sees to it.
  | .checkingJob r =>
    !ch.ok || !decide (w.jobStatus r.jobId = some .succeeded) ||
      decide (∀ g ∈ r.owner.dropped, w.Tracked g)
  | .revoking r =>
    match r.owner with
    | .callback c => decide (∀ g ∈ c.dropped, w.Disposed c ch g)
    | _ => true
  -- No job is closed whose grant is live.
  | .completing r all =>
    !ch.ok || !all ||
      decide (∀ j ∈ w.jobs, j.isActive = true → j.subjectHash = r.subject → w.Dead j.grant)
  | .failing r =>
    !ch.ok || decide (r.attemptCount < googleTokenRevocationMaxAttempts) ||
      decide (∀ j ∈ w.jobs, j.isOwned r.jobId me = true → w.Dead j.grant)
  -- The linked accounts of a deleted user hold no live grant.
  | .removing op =>
    !ch.ok || !decide (op.kind = .accountDeletion) ||
      decide (∀ a ∈ w.accounts, a.userId = op.userId → a.googleSub ≠ op.subject →
        ∀ g ∈ a.token, w.Tracked g)
  | _ => true

def Retains (s : GrantSystem n) : GrantStep n → Prop
  | .advance i ch => s.ledger.retains ch i (s.phase i) = true
  | _ => True

instance (s : GrantSystem n) : ∀ l, Decidable (Retains s l)
  | .advance i ch => inferInstanceAs (Decidable (s.ledger.retains ch i (s.phase i) = true))
  | .startSession _ _ | .startOperation _ _ _ | .claim _ _ | .expire _ =>
    inferInstanceAs (Decidable True)

/-! ## What a step does to the grants -/

def GrantPhase.carries : GrantPhase → List Grant
  | .identifying c => [c.grant]
  | .dropping c => [c.grant]
  | .locking c => [c.grant]
  | .lookingUp c => [c.grant]
  | .lookingAccount c _ => [c.grant]
  | .checkingEpoch c => [c.grant]
  | .checkingPending c => [c.grant]
  | .colliding c _ => [c.grant]
  | .linking c _ => [c.grant]
  | .upserting c => [c.grant]
  | .reconnecting c _ => [c.grant]
  | .tracking c => [c.grant]
  | .outer c => [c.grant]
  | .queueing c _ => [c.grant]
  | .droppingStored c _ none => c.grant :: c.dropped
  | .marking c _ none => c.grant :: c.dropped
  | .cleanRevoking c => c.grant :: c.dropped
  -- From here on the grant of the callback has a job.
  | .droppingStored c _ (some _) => c.dropped
  | .marking c _ (some _) => c.dropped
  | .checkingJob r => r.owner.dropped
  | .revoking r => r.owner.dropped
  | _ => []

/-- The stored grant that an operation has read has a job, or is dead. -/
def Ledger.OwnerSecured (w : Ledger) (owner : Revoker) : Prop :=
  match owner with
  | .operation op => ∀ g ∈ w.primaryTokens op.userId, w.Tracked g
  | _ => True

def Ledger.Secured (w : Ledger) : GrantPhase → Prop
  | .opEnqueuing op g => ∀ h ∈ w.primaryTokens op.userId, h = g
  | .checkingJob r => w.OwnerSecured r.owner
  | .revoking r => w.OwnerSecured r.owner
  | .recording r all => w.OwnerSecured r.owner ∧ (all = false → w.Dead r.grant)
  | .completing r all => w.OwnerSecured r.owner ∧ (all = false → w.Dead r.grant)
  | .guarding op => w.OwnerSecured (.operation op)
  | .removing op => w.OwnerSecured (.operation op)
  | .workLocking r => ∃ attemptCount, r.owner = .worker attemptCount
  | _ => True

structure Ledger.Kept (w w' : Ledger) : Prop where
  issued : ∀ g ∈ w'.issued, g ∈ w.issued
  tracked : ∀ g, w.Tracked g → w'.Tracked g
  safe : ∀ g, w.Safe g → w'.Safe g

/-- What a step of a process in phase `ph` does to the grants. -/
structure Hands (w : Ledger) (ph : GrantPhase) (next : Ledger × GrantPhase) : Prop where
  issued : ∀ g ∈ next.1.issued, g ∈ w.issued ∨ g ∈ next.2.carries
  tracked : ∀ g, w.Tracked g → next.1.Tracked g
  safe : ∀ g, w.Safe g → next.1.Safe g ∨ g ∈ next.2.carries
  carried : ∀ g ∈ ph.carries, next.1.Safe g ∨ g ∈ next.2.carries
  secured : next.1.Secured next.2

variable {g : Grant} {subject : Subject} {id epoch : Nat}

section Ledger

variable {held : Option Subject} {w w' : Ledger}

theorem Ledger.Tracked.safe (h : w.Tracked g) : w.Safe g := by
  rcases h with h | h
  · exact Or.inl h
  · exact Or.inr (Or.inr (Or.inr h))

theorem Ledger.Extends.dead (h : w.Extends held w') (hd : w.Dead g) : w'.Dead g := by
  rcases hd with hd | hd
  · exact Or.inl (h.killed g hd)
  · exact Or.inr (h.expired g hd)

theorem Ledger.Stored.safe (h : w.Stored g) : w.Safe g :=
  Or.inr (Or.inr (Or.inl h))

/-- A step keeps track of the grants if it does of the stored ones and of those that have
an active job. -/
theorem Ledger.Extends.kept (h : w.Extends held w') (hissued : w'.issued = w.issued)
    (hstored : ∀ g, w.Stored g → w'.Safe g)
    (hactive : ∀ g, w.Active g → w'.Tracked g) : w.Kept w' where
  issued := fun g hg => hissued ▸ hg
  tracked := by
    rintro g (hg | hg)
    · exact Or.inl (h.dead hg)
    · exact hactive g hg
  safe := by
    rintro g (hg | hg | hg | hg)
    · exact Or.inl (h.dead hg)
    · exact Or.inr (Or.inl (h.replaced g hg))
    · exact hstored g hg
    · exact (hactive g hg).safe

theorem Ledger.Kept.refl (w : Ledger) : w.Kept w := ⟨fun _ => id, fun _ => id, fun _ => id⟩

theorem Ledger.Extends.kept_of_eq (h : w.Extends held w') (hissued : w'.issued = w.issued)
    (haccounts : w'.accounts = w.accounts) (hjobs : w'.jobs = w.jobs) : w.Kept w' := by
  refine h.kept hissued (fun g hg => ?_) fun g hg => Or.inr ?_
  · have hstored : w'.Stored g := by
      unfold Ledger.Stored
      rw [haccounts]
      exact hg
    exact hstored.safe
  · unfold Ledger.Active
    rw [hjobs]
    exact hg

theorem Ledger.Ok.request_kept (h : w.Ok) (g : Grant) (ch : Choice) : w.Kept (w.request g ch) := by
  have hgood : w.Good none (w.request g ch) := h.request g ch
  refine hgood.2.kept_of_eq ?_ ?_ ?_ <;> rw [w.request_eq]

theorem Ledger.Ok.record_kept (h : w.Ok) (subject : Subject) : w.Kept (w.record subject) := by
  have hgood : w.Good none (w.record subject) := h.record subject
  exact hgood.2.kept_of_eq rfl rfl rfl

theorem Ledger.Ok.markDisconnected_kept (h : w.Ok) (id : Nat) : w.Kept (w.markDisconnected id) := by
  have hgood : w.Good none (w.markDisconnected id) := h.markDisconnected id
  obtain ⟨h1, h2, h3, -⟩ := w.closeGuard_eq id (·.disconnected)
    fun user => { user with disconnected := true }
  exact hgood.2.kept_of_eq h1 h2 h3

theorem Ledger.Ok.requestDeletion_kept (h : w.Ok) (id : Nat) : w.Kept (w.requestDeletion id) := by
  have hgood : w.Good none (w.requestDeletion id) := h.requestDeletion id
  obtain ⟨h1, h2, h3, -⟩ := w.closeGuard_eq id (·.deleteRequested)
    fun user => { user with deleteRequested := true }
  exact hgood.2.kept_of_eq h1 h2 h3

theorem Ledger.Ok.guardFor_kept (h : w.Ok) (op : Operation) : w.Kept (w.guardFor op) := by
  unfold Ledger.guardFor
  cases op.kind with
  | disconnect | dataDeletion => exact h.markDisconnected_kept op.userId
  | accountDeletion => exact h.requestDeletion_kept op.userId

/-! ### Jobs -/

theorem Ledger.Ok.updateJobs_kept (h : w.Ok) {p : RevocationJob → Bool}
    {f : RevocationJob → RevocationJob}
    (hf : ∀ j ∈ w.jobs, p j = true → (f j).id = j.id ∧ (f j).grant = j.grant ∧
      (f j).subjectHash = j.subjectHash ∧ ((f j).isActive = true → j.isActive = true))
    (hdead : ∀ j ∈ w.jobs, p j = true → (f j).isActive = true ∨ w.Dead j.grant) :
    w.Kept { w with jobs := updateWhere p f w.jobs } := by
  have hgood : w.Good none { w with jobs := updateWhere p f w.jobs } := h.updateJobs hf
  refine hgood.2.kept rfl (fun g hg => Ledger.Stored.safe (g := g) hg) ?_
  rintro g ⟨j, hj, hactive, rfl⟩
  by_cases hp : p j = true
  · rcases hdead j hj hp with hstill | hd
    · refine Or.inr ⟨_, mem_updateWhere.2 ⟨j, hj, rfl⟩, ?_⟩
      rw [if_pos hp]
      exact ⟨hstill, (hf j hj hp).2.1⟩
    · exact Or.inl (hgood.2.dead hd)
  · refine Or.inr ⟨_, mem_updateWhere.2 ⟨j, hj, rfl⟩, ?_⟩
    rw [if_neg hp]
    exact ⟨hactive, rfl⟩

theorem Ledger.Ok.completeSubject_kept (h : w.Ok)
    (hdead : ∀ j ∈ w.jobs, j.isActive = true → j.subjectHash = subject → w.Dead j.grant) :
    w.Kept (w.completeSubject subject) := by
  refine h.updateJobs_kept
    (fun j _ hp => ⟨rfl, rfl, rfl, fun _ => (Bool.and_eq_true_iff.1 hp).1⟩) fun j hj hp => ?_
  simp only [Bool.and_eq_true, decide_eq_true_eq] at hp
  exact Or.inr (hdead j hj hp.1 hp.2)

theorem Ledger.Ok.completeRevocation_kept (h : w.Ok) (hj : w.JobIs id g)
    (hdead : w.Dead g) : w.Kept (w.completeRevocation id) := by
  refine h.updateJobs_kept
    (fun j _ hp => ⟨rfl, rfl, rfl, fun _ => (Bool.and_eq_true_iff.1 hp).1⟩) fun j hmem hp => ?_
  simp only [Bool.and_eq_true, decide_eq_true_eq] at hp
  rw [hj.2 j hmem hp.2]
  exact Or.inr hdead

theorem Ledger.Ok.claim_kept (h : w.Ok) (id worker : Nat) : w.Kept (w.claim id worker) :=
  h.updateJobs_kept
    (fun _ _ hp => ⟨rfl, rfl, rfl, fun _ => (Bool.and_eq_true_iff.1 hp).1⟩)
    fun _ _ _ => Or.inl rfl

/-- `complete_job` finds the job of a revocation over. -/
theorem Ledger.Ok.completeJob_kept (h : w.Ok) (hover : w.JobOver id) (worker : Nat) :
    w.Kept (w.completeJob id worker) := by
  refine h.updateJobs_kept
    (fun _ _ hp => ⟨rfl, rfl, rfl, fun _ => RevocationJob.isOwned_isActive hp⟩) fun j hj hp => ?_
  have hactive := RevocationJob.isOwned_isActive hp
  rw [hover.2 j hj (RevocationJob.isOwned_id hp)] at hactive
  cases hactive

theorem Ledger.Ok.failJob_kept (h : w.Ok) {worker attemptCount : Nat}
    (hdead : attemptCount < googleTokenRevocationMaxAttempts ∨
      ∀ j ∈ w.jobs, j.isOwned id worker = true → w.Dead j.grant) :
    w.Kept (w.failJob id worker attemptCount) := by
  refine h.updateJobs_kept
    (fun _ _ hp => ⟨rfl, rfl, rfl, fun _ => RevocationJob.isOwned_isActive hp⟩) fun j hj hp => ?_
  rcases hdead with hlt | hdead
  · left
    simp [RevocationJob.isActive, RevocationJob.close, failedStatus, Nat.not_le.2 hlt,
      JobStatus.isActive]
  · exact Or.inr (hdead j hj hp)

theorem Ledger.enqueue_active (w : Ledger) (subject : Subject) (g : Grant) :
    (w.enqueue subject g).1.Active g := by
  rcases w.enqueue_cases subject g with ⟨j, hj, hactive, -, hg, heq⟩ | heq
  · rw [heq]
    exact ⟨j, hj, hactive, hg⟩
  · rw [heq]
    exact ⟨_, List.mem_append_right _ (List.mem_singleton_self _), rfl, rfl⟩

theorem Ledger.Ok.enqueue_kept (h : w.Ok)
    (hg : g.subject = subject) : w.Kept (w.enqueue subject g).1 := by
  have hgood : w.Good none (w.enqueue subject g).1 := h.enqueue hg
  rcases w.enqueue_cases subject g with ⟨j, -, -, -, -, heq⟩ | heq
  · rw [heq]
    exact Ledger.Kept.refl w
  · rw [heq] at hgood ⊢
    refine hgood.2.kept rfl (fun g hg => Ledger.Stored.safe (g := g) hg) ?_
    rintro g' ⟨j, hj, hactive, hgrant⟩
    exact Or.inr ⟨j, List.mem_append_left _ hj, hactive, hgrant⟩

/-! ### Accounts -/

theorem Ledger.putToken_stored (w : Ledger) {p : GmailAccount → Bool}
    (hp : ∃ a ∈ w.accounts, p a = true) :
    (w.putToken p g).Stored g ∧ ∀ g', w.Stored g' → (w.putToken p g).Safe g' := by
  constructor
  · obtain ⟨a, ha, hpa⟩ := hp
    refine ⟨_, mem_updateWhere.2 ⟨a, ha, rfl⟩, ?_⟩
    rw [if_pos hpa]
  · rintro g' ⟨a, ha, htoken⟩
    by_cases hpa : p a = true
    · right
      left
      refine List.mem_append_right _ (List.mem_filterMap.2 ⟨a, ?_, htoken⟩)
      exact List.mem_filter.2 ⟨ha, hpa⟩
    · refine Ledger.Stored.safe ⟨_, mem_updateWhere.2 ⟨a, ha, rfl⟩, ?_⟩
      rw [if_neg hpa]
      exact htoken

theorem Ledger.Ok.link_kept (h : w.Ok) (hg : g ∈ w.issued)
    (hlink : w.link id g epoch = some w') : w.Kept w' ∧ w'.Stored g := by
  have hgood := h.link hg hlink
  obtain ⟨-, -, -, ⟨rfl, a, ha, hsub, -⟩ | ⟨rfl, -⟩⟩ := Ledger.link_cases hlink
  · have hput := w.putToken_stored (p := fun account => account.googleSub = g.subject) (g := g)
      ⟨a, ha, by simpa using hsub⟩
    exact ⟨hgood.2.kept rfl hput.2 fun g' hg' => Or.inr hg', hput.1⟩
  · refine ⟨hgood.2.kept rfl (fun g' hg' => ?_) fun g' hg' => Or.inr hg',
      ⟨_, List.mem_append_right _ (List.mem_singleton_self _), rfl⟩⟩
    obtain ⟨b, hb, htoken⟩ := hg'
    exact Ledger.Stored.safe ⟨b, List.mem_append_left _ hb, htoken⟩

theorem Ledger.Ok.reconnect_kept (h : w.Ok) (hg : g ∈ w.issued)
    (huser : w.UserIs id g.subject) (hreconnect : w.reconnect id g epoch = some w') :
    w.Kept w' ∧ w'.Stored g := by
  have hgood := h.reconnect hg huser hreconnect
  obtain ⟨rfl, a, ha, hprimary, -⟩ := Ledger.reconnect_cases hreconnect
  have hput := (w.clearGuards id).putToken_stored (p := w.isPrimary id) (g := g) ⟨a, ha, hprimary⟩
  exact ⟨hgood.2.kept rfl hput.2 fun g' hg' => Or.inr hg', hput.1⟩

theorem Ledger.Ok.upsertUser_kept (h : w.Ok)
    (hupsert : w.upsertUser subject epoch = some (w', id)) : w.Kept w' := by
  have hgood := h.upsertUser hupsert
  obtain ⟨rfl, -⟩ | ⟨rfl, -, -⟩ := Ledger.upsertUser_cases hupsert
  · exact Ledger.Kept.refl w'
  · refine hgood.2.kept rfl (fun g hg => ?_) fun g hg => Or.inr hg
    obtain ⟨a, ha, htoken⟩ := hg
    exact Ledger.Stored.safe ⟨a, List.mem_append_left _ ha, htoken⟩

theorem Ledger.dropPrimary_stored (w : Ledger) (id : Nat) (hg : w.Stored g) :
    (w.dropPrimary id).Stored g ∨ g ∈ w.primaryTokens id := by
  obtain ⟨a, ha, htoken⟩ := hg
  by_cases hprimary : w.isPrimary id a = true
  · exact Or.inr (Ledger.mem_primaryTokens.2 ⟨a, ha, hprimary, htoken⟩)
  left
  refine ⟨_, mem_updateWhere.2 ⟨a, ha, rfl⟩, ?_⟩
  rw [if_neg hprimary]
  exact htoken

theorem Ledger.Ok.dropPrimary_kept (h : w.Ok)
    (htracked : ∀ g ∈ w.primaryTokens id, w.Tracked g) : w.Kept (w.dropPrimary id) := by
  have hgood : w.Good none (w.dropPrimary id) := h.dropPrimary id
  refine hgood.2.kept rfl (fun g hg => ?_) fun g hg => Or.inr hg
  rcases w.dropPrimary_stored id hg with hg | hg
  · exact hg.safe
  · exact Ledger.Tracked.safe (w := w.dropPrimary id) (htracked g hg)

theorem Ledger.Ok.deleteUser_kept (h : w.Ok)
    (htracked : ∀ a ∈ w.accounts, (w.user id).isSome → a.userId = id → ∀ g, a.token = some g →
      w.Tracked g) : w.Kept (w.deleteUser id) := by
  have hgood : w.Good none (w.deleteUser id) := h.deleteUser id
  unfold Ledger.deleteUser at hgood ⊢
  cases huser : w.user id with
  | none => exact Ledger.Kept.refl w
  | some user =>
    rw [huser] at hgood
    refine hgood.2.kept rfl (fun g hg => ?_) fun g hg => Or.inr hg
    obtain ⟨a, ha, htoken⟩ := hg
    by_cases hid : a.userId = id
    · have ht := htracked a ha (by rw [huser]; rfl) hid g htoken
      exact Ledger.Tracked.safe (w := { w.record user.googleSub with
        users := w.users.filter fun user => user.id ≠ id
        accounts := w.accounts.filter fun account => account.userId ≠ id }) ht
    · exact Ledger.Stored.safe ⟨a, List.mem_filter.2 ⟨ha, by simpa using hid⟩, htoken⟩

/-! ### Requests to Google -/

variable {ch : Choice}

theorem Ledger.dead_request {h : Grant} (hp : ch.processed = true) (hissued : h ∈ w.issued)
    (hsub : h.subject = g.subject) (hd : ¬ w.Dead g) : (w.request g ch).Dead h := by
  unfold Ledger.request
  rw [if_pos hp]
  exact Or.inl (Ledger.mem_killed_revoke.2 (Or.inr ⟨hd, hissued, hsub⟩))

theorem Ledger.Ok.request_tracked (h : w.Ok) (hissued : g ∈ w.issued)
    (hg : ch.processed = true ∨ w.Tracked g) : (w.request g ch).Tracked g := by
  have hkept := h.request_kept g ch
  rcases hg with hp | ht
  · by_cases hd : w.Dead g
    · exact hkept.tracked g (Or.inl hd)
    · exact Or.inl (Ledger.dead_request hp hissued rfl hd)
  · exact hkept.tracked g ht

theorem Ledger.Ok.disposed (h : w.Ok) {c : Callback} (hc : w.CallbackOk c)
    (hdropped : ∀ g ∈ c.dropped, w.Disposed c ch g) :
    ∀ g ∈ c.dropped, (w.request c.grant ch).Tracked g := by
  intro g hg
  rcases hdropped g hg with ht | ⟨hp, hd, hsub⟩
  · exact (h.request_kept c.grant ch).tracked g ht
  · exact Or.inl (Ledger.dead_request hp (hc.2.2 g hg) hsub hd)

/-! ### What other processes do -/

theorem Ledger.Extends.primaryTokens (h : w.Extends held w')
    (hu : w.UserIs id subject) (hne : held ≠ some subject) :
    ∀ g ∈ w'.primaryTokens id, g ∈ w.primaryTokens id := by
  intro g hg
  obtain ⟨a', ha', hprimary, htoken⟩ := Ledger.mem_primaryTokens.1 hg
  have hsub := (h.userIs hu).primary_subject hprimary
  obtain ⟨hid, u', hu', huid, husub⟩ := Ledger.isPrimary_iff.1 hprimary
  rcases h.accounts a' ha' with ⟨a, ha, hs, ho, ht⟩ | hheld
  · rw [htoken] at ht
    rcases ht with ht | ht
    · refine Ledger.mem_primaryTokens.2 ⟨a, ha, Ledger.isPrimary_iff.2 ⟨ho.trans hid, ?_⟩, ht.symm⟩
      rcases h.users u' hu' with ⟨u, hmem, hid', hsub'⟩ | hnew
      · exact ⟨u, hmem, hid'.trans huid, (hsub'.trans husub).trans hs.symm⟩
      · have := hu.1
        omega
    · cases ht
  · exact absurd (hsub ▸ hheld) hne

theorem Ledger.Secured.keep {ph : GrantPhase} (hs : w.Secured ph) (h : w.Extends held w')
    (ht : ∀ g, w.Tracked g → w'.Tracked g) (hph : w.PhaseOk ph)
    (hne : ∀ subject, ph.lock = some subject → held ≠ some subject) : w'.Secured ph := by
  have howner : ∀ r : Revocation, w.RevocationOk r → held ≠ some r.subject →
      w.OwnerSecured r.owner → w'.OwnerSecured r.owner := by
    intro r hr hheld hsec
    have hown := hr.2.2
    unfold Ledger.OwnerOk at hown
    unfold Ledger.OwnerSecured at hsec ⊢
    cases howner : r.owner with
    | callback c | worker => trivial
    | operation op =>
      simp only [howner] at hown hsec
      intro g hg
      exact ht g (hsec g (h.primaryTokens hown.1 (hown.2 ▸ hheld) g hg))
  have hop : ∀ op : Operation, w.UserIs op.userId op.subject → held ≠ some op.subject →
      w.OwnerSecured (.operation op) → w'.OwnerSecured (.operation op) := by
    intro op hu hheld hsec g hg
    exact ht g (hsec g (h.primaryTokens hu hheld g hg))
  cases ph with
  | opEnqueuing =>
    intro g' hg'
    exact hs g' (h.primaryTokens hph.1 (hne _ rfl) g' hg')
  | checkingJob r | revoking r => exact howner r hph (hne _ rfl) hs
  | recording r all | completing r all =>
    exact ⟨howner r hph (hne _ rfl) hs.1, fun hall => h.dead (hs.2 hall)⟩
  | guarding op | removing op => exact hop op hph (hne _ rfl) hs
  | workLocking r => exact hs
  | _ => trivial

end Ledger

variable {r : Revocation}

/-! ## The next step of a process -/

section Advance

variable {w w' : Ledger} {free : Subject → Bool} {me : Nat} {ch : Choice} {ph next : GrantPhase}

theorem Ledger.Kept.hands (hk : w.Kept w')
    (hc : ∀ g ∈ ph.carries, w'.Safe g ∨ g ∈ next.carries) (hs : w'.Secured next) :
    Hands w ph (w', next) where
  issued := fun g hg => Or.inl (hk.issued g hg)
  tracked := hk.tracked
  safe := fun g hg => Or.inl (hk.safe g hg)
  carried := hc
  secured := hs

theorem Hands.move (hc : ∀ g ∈ ph.carries, w.Safe g ∨ g ∈ next.carries) (hs : w.Secured next) :
    Hands w ph (w, next) :=
  (Ledger.Kept.refl w).hands hc hs

theorem Hands.along (hc : ∀ g ∈ ph.carries, g ∈ next.carries) (hs : w.Secured next) :
    Hands w ph (w, next) :=
  Hands.move (fun g hg => Or.inr (hc g hg)) hs

section

variable (c : Callback)

theorem Callback.failed_carries : c.failed.carries = [c.grant] := by
  unfold Callback.failed
  split <;> rfl

theorem Callback.failed_secured : w.Secured c.failed := by
  unfold Callback.failed
  split <;> trivial

theorem Callback.cleanup_carries : c.cleanup.carries = c.grant :: c.dropped := by
  unfold Callback.cleanup
  cases c.user <;> rfl

theorem Callback.cleanup_secured : w.Secured c.cleanup := by
  unfold Callback.cleanup
  cases c.user <;> trivial

theorem Callback.disconnectFailed_carries (jobId : Option Nat) :
    (c.disconnectFailed jobId).carries = c.grant :: c.dropped := by
  cases jobId with
  | none => rfl
  | some k => exact c.cleanup_carries

theorem Callback.disconnectFailed_secured (jobId : Option Nat) :
    w.Secured (c.disconnectFailed jobId) := by
  cases jobId with
  | none => trivial
  | some k => exact c.cleanup_secured

theorem Callback.checked_carries : c.checked.carries = [c.grant] := by
  unfold Callback.checked
  cases c.intent with
  | some => rfl
  | none =>
    cases c.user with
    | none => rfl
    | some id => dsimp only; split <;> rfl

theorem Callback.checked_secured : w.Secured c.checked := by
  unfold Callback.checked
  cases c.intent with
  | some => trivial
  | none =>
    cases c.user with
    | none => trivial
    | some id => dsimp only; split <;> trivial

end

theorem Revocation.broken_carries (hg : g ∈ r.owner.dropped) : g ∈ r.broken.carries := by
  unfold Revocation.broken
  cases howner : r.owner with
  | callback c =>
    rw [howner] at hg
    rw [c.cleanup_carries]
    exact List.mem_cons_of_mem _ hg
  | operation op | worker => rw [howner] at hg; exact hg

theorem Revocation.broken_secured (r : Revocation) : w.Secured r.broken := by
  unfold Revocation.broken
  cases r.owner with
  | callback c => exact c.cleanup_secured
  | operation op | worker => trivial

theorem Revocation.resolved_secured (h : w.OwnerSecured r.owner) : w.Secured r.resolved := by
  unfold Revocation.resolved
  cases howner : r.owner with
  | callback c | worker => trivial
  | operation op => rw [howner] at h; exact h

theorem Revocation.retried_secured (h : w.OwnerSecured r.owner) : w.Secured r.retried := by
  unfold Revocation.retried
  cases howner : r.owner with
  | callback c | worker => trivial
  | operation op => rw [howner] at h; exact h

theorem acquire_hands {waiting acquired failed : GrantPhase}
    (hwaiting : ∀ g ∈ ph.carries, g ∈ waiting.carries)
    (hacquired : ∀ g ∈ ph.carries, g ∈ acquired.carries)
    (hfailed : ∀ g ∈ ph.carries, g ∈ failed.carries)
    (hs : w.Secured waiting ∧ w.Secured acquired ∧ w.Secured failed) :
    Hands w ph (acquire w free ch subject waiting acquired failed) := by
  unfold acquire
  split
  · split
    · exact Hands.along hacquired hs.2.1
    · exact Hands.along hwaiting hs.1
  · exact Hands.along hfailed hs.2.2

theorem stored_hands {c : Callback} {result : Option Ledger} (hph : ph.carries = [c.grant])
    (hresult : ∀ w', result = some w' → w.Kept w' ∧ w'.Stored c.grant) :
    Hands w ph (stored w ch result c.failed) := by
  unfold stored
  cases hr : (if ch.ok then result else none) with
  | none =>
    refine Hands.along (fun g hg => ?_) c.failed_secured
    rw [c.failed_carries, ← hph]
    exact hg
  | some w' =>
    by_cases hok : ch.ok = true
    · rw [if_pos hok] at hr
      obtain ⟨hkept, hstored⟩ := hresult w' hr
      refine hkept.hands (fun g hg => Or.inl ?_) trivial
      rw [hph] at hg
      rw [List.mem_singleton.1 hg]
      exact hstored.safe
    · rw [if_neg hok] at hr
      cases hr

end Advance

end ElectronicMail.OAuth
