import ElectronicMail.OAuth.Tables

/-!
# The invariant of the system

`PhaseOk` is what a process may rely on where it stands, and it survives the steps of the
others (`Ledger.Extends.phaseOk`). `advance_leads` says what the next step of a process does to
the ledger and where it leads, `advance_takes` that the process takes no lock which is not
free. `Sound` adds that no two processes hold one lock; `GrantSystem.Sound.goto` keeps it.
-/

namespace ElectronicMail.OAuth

open Foundations
open Foundations.Table
open Jobs (JobStatus)

/-! ## What a process relies on -/

/-- The grants of the callback were issued, and its session was opened before. -/
def Ledger.CallbackOk (w : Ledger) (c : Callback) : Prop :=
  c.grant ∈ w.issued ∧ c.epoch < w.nextEpoch ∧ ∀ g ∈ c.dropped, g ∈ w.issued

def Ledger.OwnerOk (w : Ledger) (r : Revocation) : Prop :=
  match r.owner with
  | .callback c => w.CallbackOk c ∧ r.subject = c.subject ∧ r.grant = c.grant
  | .operation op => w.UserIs op.userId op.subject ∧ r.subject = op.subject
  | .worker _ => True

def Ledger.RevocationOk (w : Ledger) (r : Revocation) : Prop :=
  r.grant.subject = r.subject ∧ w.JobIs r.jobId r.grant ∧ w.OwnerOk r

def Ledger.PhaseOk (w : Ledger) : GrantPhase → Prop
  | .idle => True
  | .started epoch _ => epoch < w.nextEpoch
  | .identifying c => w.CallbackOk c
  | .dropping c => w.CallbackOk c
  | .locking c => w.CallbackOk c
  | .lookingUp c => w.CallbackOk c
  | .lookingAccount c _ => w.CallbackOk c
  | .checkingEpoch c => w.CallbackOk c
  | .checkingPending c => w.CallbackOk c
  | .colliding c _ => w.CallbackOk c
  | .linking c _ => w.CallbackOk c
  | .upserting c => w.CallbackOk c
  | .reconnecting c id => w.CallbackOk c ∧ w.UserIs id c.subject
  | .tracking c => w.CallbackOk c
  | .droppingStored c _ jobId => w.CallbackOk c ∧ ∀ id, jobId = some id → w.JobIs id c.grant
  | .marking c _ jobId => w.CallbackOk c ∧ ∀ id, jobId = some id → w.JobIs id c.grant
  | .cleanRevoking c => w.CallbackOk c
  | .cleanRecording c => w.CallbackOk c
  | .outer c => w.CallbackOk c
  | .queueing c _ => w.CallbackOk c
  | .checkingJob r => w.RevocationOk r
  | .revoking r => w.RevocationOk r
  | .recording r _ => w.RevocationOk r
  | .completing r _ => w.RevocationOk r
  | .opLocking op => w.UserIs op.userId op.subject
  | .opRecording op => w.UserIs op.userId op.subject
  | .preparing op => w.UserIs op.userId op.subject
  | .opEnqueuing op g => w.UserIs op.userId op.subject ∧ g.subject = op.subject
  | .closing op => w.UserIs op.userId op.subject
  | .guarding op => w.UserIs op.userId op.subject
  | .removing op => w.UserIs op.userId op.subject
  | .purging op => w.UserIs op.userId op.subject
  | .workLocking r => w.RevocationOk r
  | .failing r => w.RevocationOk r
  | .completingJob r => w.RevocationOk r ∧ w.JobOver r.jobId

variable {id : Nat} {subject : Subject} {ph : GrantPhase}

section Extends

variable {held : Option Subject} {w w' : Ledger}

section

variable (h : w.Extends held w')
include h

theorem Ledger.Extends.callbackOk {c : Callback} (hc : w.CallbackOk c) : w'.CallbackOk c :=
  ⟨h.issued _ hc.1, Nat.lt_of_lt_of_le hc.2.1 h.nextEpoch, fun g hg => h.issued g (hc.2.2 g hg)⟩

theorem Ledger.Extends.userIs (hu : w.UserIs id subject) : w'.UserIs id subject := by
  refine ⟨Nat.lt_of_lt_of_le hu.1 h.nextUser, ?_⟩
  intro u' hu' hid
  rcases h.users u' hu' with ⟨u, hmem, hid', hsub⟩ | hnew
  · rw [← hsub]
    exact hu.2 u hmem (hid'.trans hid)
  · have := hu.1
    omega

theorem Ledger.Extends.jobIs {g : Grant} (hj : w.JobIs id g) : w'.JobIs id g := by
  refine ⟨Nat.lt_of_lt_of_le hj.1 h.jobs_length, ?_⟩
  intro j' hj' hid
  rcases h.jobs j' hj' with ⟨j, hmem, hid', hg, -⟩ | hnew
  · rw [← hg]
    exact hj.2 j hmem (hid'.trans hid)
  · have := hj.1
    omega

theorem Ledger.Extends.jobOver (hj : w.JobOver id) : w'.JobOver id := by
  refine ⟨Nat.lt_of_lt_of_le hj.1 h.jobs_length, ?_⟩
  intro j' hj' hid
  rcases h.jobs j' hj' with ⟨j, hmem, hid', -, -, hactive⟩ | hnew
  · have := hj.2 j hmem (hid'.trans hid)
    by_contra hne
    rw [hactive (by simpa using hne)] at this
    cases this
  · have := hj.1
    omega

theorem Ledger.Extends.ownerOk {r : Revocation} (hr : w.OwnerOk r) : w'.OwnerOk r := by
  unfold Ledger.OwnerOk at hr ⊢
  cases howner : r.owner with
  | callback c =>
    simp only [howner] at hr
    exact ⟨h.callbackOk hr.1, hr.2⟩
  | operation op =>
    simp only [howner] at hr
    exact ⟨h.userIs hr.1, hr.2⟩
  | worker => trivial

theorem Ledger.Extends.revocationOk {r : Revocation} (hr : w.RevocationOk r) : w'.RevocationOk r :=
  ⟨hr.1, h.jobIs hr.2.1, h.ownerOk hr.2.2⟩

theorem Ledger.Extends.phaseOk (hph : w.PhaseOk ph) : w'.PhaseOk ph := by
  cases ph with
  | idle => trivial
  | started epoch intent => exact Nat.lt_of_lt_of_le hph h.nextEpoch
  | reconnecting => exact ⟨h.callbackOk hph.1, h.userIs hph.2⟩
  | droppingStored | marking => exact ⟨h.callbackOk hph.1, fun k hk => h.jobIs (hph.2 k hk)⟩
  | opEnqueuing => exact ⟨h.userIs hph.1, hph.2⟩
  | completingJob r => exact ⟨h.revocationOk hph.1, h.jobOver hph.2⟩
  | checkingJob r | revoking r | recording | completing | workLocking r | failing r =>
    exact h.revocationOk hph
  | opLocking op | opRecording op | preparing op | closing op | guarding op | removing op
  | purging op => exact h.userIs hph
  | _ => exact h.callbackOk hph

end

end Extends

/-! ## Where a step leads -/

/-- The step keeps the ledger and comes to a phase that has what it relies on. -/
def Ledger.Leads (held : Option Subject) (w : Ledger) (next : Ledger × GrantPhase) : Prop :=
  w.Good held next.1 ∧ next.1.PhaseOk next.2

section Targets

variable {held : Option Subject} {w w' : Ledger} {c : Callback} {r : Revocation}

theorem Ledger.Ok.move (h : w.Ok) (hph : w.PhaseOk ph) : w.Leads held (w, ph) :=
  ⟨h.good, hph⟩

theorem Ledger.Good.move (h : w.Good held w') (hph : w.PhaseOk ph) : w.Leads held (w', ph) :=
  ⟨h, h.2.phaseOk hph⟩

section

variable (hc : w.CallbackOk c)
include hc

theorem Ledger.CallbackOk.failed : w.PhaseOk c.failed := by
  unfold Callback.failed
  split <;> exact hc

theorem Ledger.CallbackOk.cleanup : w.PhaseOk c.cleanup := by
  unfold Callback.cleanup
  cases c.user with
  | none => exact hc
  | some id => exact ⟨hc, nofun⟩

theorem Ledger.CallbackOk.disconnectFailed (jobId : Option Nat) :
    w.PhaseOk (c.disconnectFailed jobId) := by
  cases jobId with
  | none => exact hc
  | some k => exact hc.cleanup

theorem Ledger.CallbackOk.revocation {jobId : Nat}
    (hj : w.JobIs jobId c.grant) : w.PhaseOk (c.revocation jobId) :=
  ⟨rfl, hj, hc, rfl, rfl⟩

theorem Ledger.CallbackOk.disconnected {jobId : Option Nat}
    (hj : ∀ id, jobId = some id → w.JobIs id c.grant) : w.PhaseOk (c.disconnected jobId) := by
  cases jobId with
  | none => exact hc
  | some k => exact hc.revocation (hj k rfl)

theorem Ledger.CallbackOk.checked : w.PhaseOk c.checked := by
  unfold Callback.checked
  cases c.intent with
  | some => exact hc
  | none =>
    cases c.user with
    | none => exact hc
    | some id => dsimp only; split <;> exact hc

end

theorem Ledger.RevocationOk.broken (hr : w.RevocationOk r) : w.PhaseOk r.broken := by
  have howner := hr.2.2
  unfold Ledger.OwnerOk at howner
  unfold Revocation.broken
  cases hown : r.owner with
  | callback c =>
    simp only [hown] at howner
    exact howner.1.cleanup
  | operation op =>
    simp only [hown] at howner
    rw [hown] at *
    exact howner.1
  | worker => exact hr

theorem Ledger.RevocationOk.retried (hr : w.RevocationOk r) : w.PhaseOk r.retried := by
  have howner := hr.2.2
  unfold Ledger.OwnerOk at howner
  unfold Revocation.retried
  cases hown : r.owner with
  | callback c => trivial
  | operation op =>
    simp only [hown] at howner
    exact howner.1
  | worker => exact hr

theorem Ledger.RevocationOk.resolved (hr : w.RevocationOk r) (hover : w.JobOver r.jobId) :
    w.PhaseOk r.resolved := by
  have howner := hr.2.2
  unfold Ledger.OwnerOk at howner
  unfold Revocation.resolved
  cases hown : r.owner with
  | callback c => trivial
  | operation op =>
    simp only [hown] at howner
    exact howner.1
  | worker => exact ⟨hr, hover⟩

theorem Ledger.Ok.jobOver_of_status (h : w.Ok) (hid : id < w.jobs.length)
    (hstatus : w.jobStatus id = none ∨ w.jobStatus id = some .succeeded) : w.JobOver id := by
  refine ⟨hid, fun j hj hjid => ?_⟩
  unfold Ledger.jobStatus at hstatus
  cases hfind : w.jobs.find? fun job => job.id = id with
  | none =>
    have := List.find?_eq_none.1 hfind j hj
    simp [hjid] at this
  | some job =>
    have hsame : job = j := by
      refine h.job_unique job (List.mem_of_find?_eq_some hfind) j hj ?_
      have := List.find?_some hfind
      simp only [decide_eq_true_eq] at this
      exact this.trans hjid.symm
    subst hsame
    rw [hfind] at hstatus
    simp only [Option.map_some, reduceCtorEq, Option.some.injEq, false_or] at hstatus
    simp [RevocationJob.isActive, hstatus, JobStatus.isActive]

theorem Ledger.RevocationOk.check (hr : w.RevocationOk r) (h : w.Ok) :
    w.PhaseOk (r.check (w.jobStatus r.jobId)) := by
  cases hstatus : w.jobStatus r.jobId with
  | none =>
    have hover := h.jobOver_of_status hr.2.1.1 (Or.inl hstatus)
    unfold Revocation.check
    cases hown : r.owner with
    | callback c | operation op => exact hr.broken
    | worker => exact hr.resolved hover
  | some status =>
    unfold Revocation.check
    dsimp only
    split
    · next hs =>
      subst hs
      exact hr.resolved (h.jobOver_of_status hr.2.1.1 (Or.inr hstatus))
    · split
      · exact hr
      · exact hr.broken

theorem Ledger.RevocationOk.completeSubject (hr : w.RevocationOk r) (h : w.Ok) :
    (w.completeSubject r.subject).JobOver r.jobId := by
  refine ⟨by simpa [Ledger.completeSubject, updateWhere] using hr.2.1.1, ?_⟩
  intro j' hj' hid
  obtain ⟨j, hj, rfl⟩ := mem_updateWhere.1 hj'
  by_cases hp : (j.isActive && decide (j.subjectHash = r.subject)) = true
  · rw [if_pos hp]
    rfl
  · rw [if_neg hp] at hid ⊢
    have hsubject : j.subjectHash = r.subject := by
      rw [← h.job_subject j hj, hr.2.1.2 j hj hid, hr.1]
    simpa [hsubject] using hp

theorem Ledger.JobIs.completeRevocation {g : Grant} (hj : w.JobIs id g) :
    (w.completeRevocation id).JobOver id := by
  refine ⟨by simpa [Ledger.completeRevocation, updateWhere] using hj.1, ?_⟩
  intro j' hj' hid
  obtain ⟨j, hmem, rfl⟩ := mem_updateWhere.1 hj'
  by_cases hp : (j.isActive && decide (j.id = id)) = true
  · rw [if_pos hp]
    rfl
  · rw [if_neg hp] at hid ⊢
    simpa [hid] using hp

end Targets

variable {before : GrantPhase}

section Advance

variable {held : Option Subject} {w : Ledger} {free : Subject → Bool} {me : Nat} {ch : Choice}

variable {failed : GrantPhase}

variable {result : Option Ledger}

theorem stored_leads (h : w.Ok) (hresult : ∀ w', result = some w' → w.Good held w')
    (hfailed : w.PhaseOk failed) : w.Leads held (stored w ch result failed) := by
  unfold stored
  cases hr : (if ch.ok then result else none) with
  | none => exact h.move hfailed
  | some w' =>
    by_cases hok : ch.ok = true
    · rw [if_pos hok] at hr
      exact ⟨hresult w' hr, trivial⟩
    · rw [if_neg hok] at hr
      cases hr

variable {waiting acquired : GrantPhase}

theorem acquire_leads (h : w.Ok) (hwaiting : w.PhaseOk waiting) (hacquired : w.PhaseOk acquired)
    (hfailed : w.PhaseOk failed) :
    w.Leads held (acquire w free ch subject waiting acquired failed) := by
  unfold acquire
  split
  · refine h.move ?_
    split
    · exact hacquired
    · exact hwaiting
  · exact h.move hfailed

/-- **What a step does.** It keeps the ledger, writes tokens for no other subject than
the one whose lock it holds, and leads to a phase that has what it relies on. -/
theorem advance_leads (h : w.Ok) (hph : w.PhaseOk ph) :
    w.Leads ph.lock (advance w free me ch ph) := by
  cases ph with
  | idle => exact h.move trivial
  | started =>
    dsimp only [advance]
    split
    · have hgood : w.Good none (w.issue ch.subject) := h.issue ch.subject
      exact ⟨hgood, List.mem_append_right _ (List.mem_singleton_self _), hph, nofun⟩
    · exact h.move trivial
  | identifying c | lookingUp c | lookingAccount =>
    refine h.move ?_
    split <;> exact hph
  | dropping c => exact ⟨h.request c.grant ch, trivial⟩
  | locking c =>
    refine acquire_leads h hph ?_ hph
    split <;> exact hph
  | checkingEpoch c | colliding =>
    refine h.move ?_
    split
    · exact hph
    · exact Ledger.CallbackOk.failed hph
  | checkingPending c =>
    refine h.move ?_
    split
    · exact Ledger.CallbackOk.checked hph
    · exact Ledger.CallbackOk.failed hph
  | linking =>
    exact stored_leads h (fun w' hw' => h.link hph.1 hw') (Ledger.CallbackOk.failed hph)
  | upserting c =>
    dsimp only [advance]
    cases hr : (if ch.ok then w.upsertUser c.subject c.epoch else none) with
    | none => exact h.move (Ledger.CallbackOk.failed hph)
    | some next =>
      obtain ⟨w', id⟩ := next
      by_cases hok : ch.ok = true
      · rw [if_pos hok] at hr
        have hgood := h.upsertUser hr
        refine ⟨hgood, hgood.2.callbackOk hph, ?_⟩
        exact h.upsertUser_userIs hr
      · rw [if_neg hok] at hr
        cases hr
  | reconnecting =>
    exact stored_leads h (fun w' hw' => h.reconnect hph.1.1 hph.2 hw') (Ledger.CallbackOk.failed hph.1)
  | tracking c =>
    dsimp only [advance]
    split
    · have hgood : w.Good (some c.subject) (w.enqueue c.subject c.grant).1 := h.enqueue rfl
      have hjob := h.enqueue_jobIs c.subject c.grant
      refine ⟨hgood, ?_⟩
      cases c.user with
      | none => exact (hgood.2.callbackOk hph).revocation hjob
      | some id =>
        refine ⟨hgood.2.callbackOk hph, fun k hk => ?_⟩
        cases hk
        exact hjob
    · exact h.move (Ledger.CallbackOk.cleanup hph)
  | droppingStored c id jobId =>
    dsimp only [advance]
    split
    · refine (h.dropPrimary id).move (show w.PhaseOk (.marking _ id jobId) from
        ⟨⟨hph.1.1, hph.1.2.1, fun g hg => ?_⟩, hph.2⟩)
      rcases List.mem_append.1 hg with hg | hg
      · exact hph.1.2.2 g hg
      · obtain ⟨a, ha, -, htoken⟩ := Ledger.mem_primaryTokens.1 hg
        exact h.token_issued a ha g htoken
    · exact h.move (Ledger.CallbackOk.disconnectFailed hph.1 jobId)
  | marking c id jobId =>
    dsimp only [advance]
    split
    · exact (h.markDisconnected id).move (Ledger.CallbackOk.disconnected hph.1 hph.2)
    · exact h.move (Ledger.CallbackOk.disconnectFailed hph.1 jobId)
  | cleanRevoking c =>
    refine (h.request c.grant ch).move ?_
    split
    · trivial
    · exact hph
  | cleanRecording c =>
    refine ⟨?_, trivial⟩
    show w.Good (some c.subject) (if ch.ok then _ else _)
    split
    · exact h.record c.subject
    · exact h.good
  | outer c => exact acquire_leads h hph (Ledger.CallbackOk.cleanup hph) hph
  | queueing =>
    dsimp only [advance]
    split
    · exact ⟨h.enqueue rfl, trivial⟩
    refine h.move ?_
    split
    · exact hph
    · trivial
  | checkingJob r =>
    refine h.move ?_
    split
    · exact Ledger.RevocationOk.check hph h
    · exact Ledger.RevocationOk.broken hph
  | revoking r =>
    refine (h.request r.grant ch).move ?_
    cases w.outcome r.grant ch with
    | retry => exact Ledger.RevocationOk.retried hph
    | projectRevoked | credentialInvalid => exact hph
  | recording r all =>
    dsimp only [advance]
    split
    · exact (h.record r.subject).move (show w.PhaseOk (.completing r all) from hph)
    · exact h.move (Ledger.RevocationOk.broken hph)
  | completing r all =>
    dsimp only [advance]
    split
    · cases all with
      | true =>
        have hgood : w.Good (some r.subject) (w.completeSubject r.subject) :=
          h.completeSubject r.subject
        exact ⟨hgood, (hgood.2.revocationOk hph).resolved
          (Ledger.RevocationOk.completeSubject hph h)⟩
      | false =>
        have hgood : w.Good (some r.subject) (w.completeRevocation r.jobId) :=
          h.completeRevocation r.jobId
        exact ⟨hgood, (hgood.2.revocationOk hph).resolved hph.2.1.completeRevocation⟩
    · exact h.move (Ledger.RevocationOk.broken hph)
  | opLocking op => exact acquire_leads h hph hph trivial
  | opRecording op =>
    dsimp only [advance]
    split
    · exact (h.record op.subject).move (show w.PhaseOk (.preparing op) from hph)
    · exact h.move trivial
  | preparing op =>
    refine h.move ?_
    split
    · trivial
    split
    · cases hhead : (w.primaryTokens op.userId).head? with
      | none => exact hph
      | some g =>
        refine ⟨hph, ?_⟩
        obtain ⟨a, ha, hprimary, htoken⟩ :=
          Ledger.mem_primaryTokens.1 (List.mem_of_mem_head? hhead)
        rw [h.token_subject a ha g htoken]
        exact Ledger.UserIs.primary_subject hph hprimary
    · exact hph
  | opEnqueuing op g =>
    dsimp only [advance]
    split
    · have hgood : w.Good (some op.subject) (w.enqueue op.subject g).1 := h.enqueue hph.2
      exact ⟨hgood, hph.2, h.enqueue_jobIs op.subject g, hgood.2.userIs hph.1, rfl⟩
    · exact h.move (show w.PhaseOk (.closing op) from hph.1)
  | closing op =>
    refine ⟨?_, trivial⟩
    show w.Good (some op.subject) (if ch.ok then _ else _)
    split
    · exact h.markDisconnected op.userId
    · exact h.good
  | guarding op =>
    dsimp only [advance]
    split
    · exact (h.guardFor op).move (show w.PhaseOk (.removing op) from hph)
    · exact h.move trivial
  | removing op =>
    dsimp only [advance]
    split
    · cases op.kind with
      | disconnect => exact ⟨h.dropPrimary op.userId, trivial⟩
      | dataDeletion => exact (h.dropPrimary op.userId).move (show w.PhaseOk (.purging op) from hph)
      | accountDeletion => exact ⟨h.deleteUser op.userId, trivial⟩
    · exact h.move trivial
  | purging op =>
    refine ⟨?_, trivial⟩
    show w.Good (some op.subject) (if ch.ok then _ else _)
    split
    · exact h.requestDeletion op.userId
    · exact h.good
  | workLocking r => exact acquire_leads h hph hph hph
  | failing r =>
    refine ⟨?_, trivial⟩
    show w.Good none (if ch.ok then _ else _)
    split
    · exact h.failJob r.jobId me r.attemptCount
    · exact h.good
  | completingJob r =>
    refine ⟨?_, trivial⟩
    show w.Good none (if ch.ok then _ else _)
    split
    · exact h.completeJob r.jobId me
    · exact h.good

/-- The process comes to hold no other lock than one it held or one that is free. -/
def TakesFree (free : Subject → Bool) (before after : GrantPhase) : Prop :=
  ∀ subject, after.lock = some subject → before.lock = some subject ∨ free subject = true

theorem TakesFree.none {after : GrantPhase} (h : after.lock = none) :
    TakesFree free before after := by
  intro subject hs
  rw [h] at hs
  cases hs

theorem TakesFree.same {after : GrantPhase} (h : after.lock = before.lock) :
    TakesFree free before after := by
  intro subject hs
  rw [h] at hs
  exact Or.inl hs

theorem Callback.failed_takes {c : Callback}
    (h : before.lock = some c.subject) : TakesFree free before c.failed := by
  unfold Callback.failed
  split
  · exact TakesFree.none rfl
  · exact TakesFree.same h.symm

theorem Callback.cleanup_lock (c : Callback) : c.cleanup.lock = some c.subject := by
  unfold Callback.cleanup
  cases c.user <;> rfl

theorem Callback.disconnectFailed_lock (c : Callback) (jobId : Option Nat) :
    (c.disconnectFailed jobId).lock = some c.subject := by
  cases jobId with
  | none => rfl
  | some k => exact c.cleanup_lock

theorem Callback.disconnected_lock (c : Callback) (jobId : Option Nat) :
    (c.disconnected jobId).lock = some c.subject := by
  cases jobId <;> rfl

theorem Callback.checked_lock (c : Callback) : c.checked.lock = some c.subject := by
  unfold Callback.checked
  cases c.intent with
  | some => rfl
  | none =>
    cases c.user with
    | none => rfl
    | some id => dsimp only; split <;> rfl

theorem Ledger.RevocationOk.takes {r : Revocation} (hr : w.RevocationOk r)
    (h : before.lock = some r.subject) :
    TakesFree free before r.resolved ∧ TakesFree free before r.broken ∧
      TakesFree free before r.retried := by
  have howner := hr.2.2
  unfold Ledger.OwnerOk at howner
  unfold Revocation.resolved Revocation.broken Revocation.retried
  cases hown : r.owner with
  | callback c =>
    simp only [hown] at howner
    refine ⟨.none rfl, .same ?_, .none rfl⟩
    rw [c.cleanup_lock, h, howner.2.1]
  | operation op =>
    simp only [hown] at howner
    refine ⟨.same ?_, .same ?_, .same ?_⟩ <;> exact (h.trans (congrArg some howner.2)).symm
  | worker => exact ⟨.none rfl, .none rfl, .none rfl⟩

theorem acquire_takes (hwaiting : waiting.lock = none) (hacquired : acquired.lock = some subject)
    (hfailed : failed.lock = none) :
    TakesFree free before (acquire w free ch subject waiting acquired failed).2 := by
  unfold acquire
  split
  · dsimp only
    split
    · next hfree =>
      intro other hother
      rw [hacquired] at hother
      cases hother
      exact Or.inr hfree
    · exact .none hwaiting
  · exact .none hfailed

theorem stored_takes (h : TakesFree free before failed) :
    TakesFree free before (stored w ch result failed).2 := by
  unfold stored
  cases (if ch.ok then result else none) with
  | none => exact h
  | some w' => exact .none rfl

theorem advance_takes (hph : w.PhaseOk ph) : TakesFree free ph (advance w free me ch ph).2 := by
  cases ph with
  | idle | dropping c | cleanRecording c | closing op | purging op | failing r | completingJob r =>
    exact .none rfl
  | started | identifying c => dsimp only [advance]; split <;> exact .none rfl
  | locking c => exact acquire_takes rfl (by split <;> rfl) rfl
  | lookingUp c | lookingAccount | opRecording op | guarding op =>
    dsimp only [advance]
    split
    · exact .same rfl
    · exact .none rfl
  | checkingEpoch c | colliding =>
    dsimp only [advance]
    split
    · exact .same rfl
    · exact Callback.failed_takes rfl
  | checkingPending c =>
    dsimp only [advance]
    split
    · exact .same c.checked_lock
    · exact Callback.failed_takes rfl
  | linking | reconnecting => exact stored_takes (Callback.failed_takes rfl)
  | upserting c =>
    dsimp only [advance]
    cases (if ch.ok then w.upsertUser c.subject c.epoch else none) with
    | none => exact Callback.failed_takes rfl
    | some => exact .same rfl
  | tracking c =>
    dsimp only [advance]
    split
    · cases c.user <;> exact .same rfl
    · exact .same c.cleanup_lock
  | droppingStored c id jobId =>
    dsimp only [advance]
    split
    · exact .same rfl
    · exact .same (c.disconnectFailed_lock jobId)
  | marking c id jobId =>
    dsimp only [advance]
    split
    · exact .same (c.disconnected_lock jobId)
    · exact .same (c.disconnectFailed_lock jobId)
  | cleanRevoking c =>
    dsimp only [advance]
    split
    · exact .none rfl
    · exact .same rfl
  | outer c => exact acquire_takes rfl c.cleanup_lock rfl
  | queueing =>
    dsimp only [advance]
    split
    · exact .none rfl
    · dsimp only
      split <;> exact .none rfl
  | checkingJob r =>
    have htakes : TakesFree free (.checkingJob r) r.resolved ∧
        TakesFree free (.checkingJob r) r.broken ∧ TakesFree free (.checkingJob r) r.retried :=
      Ledger.RevocationOk.takes hph rfl
    dsimp only [advance]
    split
    · unfold Revocation.check
      split
      · split
        · exact htakes.1
        · exact htakes.2.1
      · split
        · exact htakes.1
        · split
          · exact .same rfl
          · exact htakes.2.1
    · exact htakes.2.1
  | revoking r =>
    dsimp only [advance]
    cases w.outcome r.grant ch with
    | retry => exact (Ledger.RevocationOk.takes hph rfl).2.2
    | projectRevoked | credentialInvalid => exact .same rfl
  | recording =>
    dsimp only [advance]
    split
    · exact .same rfl
    · exact (Ledger.RevocationOk.takes hph rfl).2.1
  | completing =>
    dsimp only [advance]
    split
    · exact (Ledger.RevocationOk.takes hph rfl).1
    · exact (Ledger.RevocationOk.takes hph rfl).2.1
  | opLocking op | workLocking r => exact acquire_takes rfl rfl rfl
  | preparing op =>
    dsimp only [advance]
    split
    · exact .none rfl
    split
    · cases (w.primaryTokens op.userId).head? <;> exact .same rfl
    · exact .same rfl
  | opEnqueuing => dsimp only [advance]; split <;> exact .same rfl
  | removing op =>
    dsimp only [advance]
    split
    · cases op.kind with
      | disconnect | accountDeletion => exact .none rfl
      | dataDeletion => exact .same rfl
    · exact .none rfl

end Advance

/-! ## The system -/

variable {n : Nat}

structure GrantSystem.Sound (s : GrantSystem n) : Prop where
  ledger : s.ledger.Ok
  phase : ∀ i, s.ledger.PhaseOk (s.phase i)
  exclusive : ∀ i j subject, (s.phase i).lock = some subject → (s.phase j).lock = some subject →
    i = j

theorem GrantSystem.sound_start (n : Nat) : (GrantSystem.start n).Sound where
  ledger := Ledger.ok_empty
  phase := fun _ => trivial
  exclusive := fun _ _ _ hi => by cases hi

variable {s : GrantSystem n}

theorem GrantSystem.isFree_iff :
    s.isFree subject = true ↔ ∀ j, (s.phase j).lock ≠ some subject := by
  simp [GrantSystem.isFree]

@[simp] theorem GrantSystem.goto_ledger (s : GrantSystem n) (i : Fin n)
    (next : Ledger × GrantPhase) : (s.goto i next).ledger = next.1 := rfl

@[simp] theorem GrantSystem.goto_phase (s : GrantSystem n) (i : Fin n)
    (next : Ledger × GrantPhase) : (s.goto i next).phase i = next.2 := by
  simp [GrantSystem.goto]

theorem GrantSystem.goto_phase_of_ne (s : GrantSystem n) {i j : Fin n} (h : j ≠ i)
    (next : Ledger × GrantPhase) : (s.goto i next).phase j = s.phase j := by
  simp [GrantSystem.goto, Function.update_of_ne h]

theorem GrantSystem.Sound.goto (h : s.Sound) {i : Fin n} {held : Option Subject}
    {next : Ledger × GrantPhase} (hleads : s.ledger.Leads held next)
    (htakes : TakesFree s.isFree (s.phase i) next.2) : (s.goto i next).Sound where
  ledger := hleads.1.1
  phase := by
    intro j
    by_cases hj : j = i
    · subst hj
      rw [GrantSystem.goto_phase]
      exact hleads.2
    · rw [GrantSystem.goto_phase_of_ne s hj]
      exact hleads.1.2.phaseOk (h.phase j)
  exclusive := by
    -- The lock that process `i` comes to hold was its own, or nobody's.
    have hother : ∀ j subject, j ≠ i → next.2.lock = some subject →
        (s.phase j).lock ≠ some subject := by
      intro j subject hj hi hlock
      rcases htakes subject hi with hown | hfree
      · exact hj (h.exclusive j i subject hlock hown)
      · exact GrantSystem.isFree_iff.1 hfree j hlock
    intro j k subject hj hk
    by_cases hji : j = i <;> by_cases hki : k = i
    · rw [hji, hki]
    · subst hji
      rw [GrantSystem.goto_phase] at hj
      rw [GrantSystem.goto_phase_of_ne s hki] at hk
      exact absurd hk (hother k subject hki hj)
    · subst hki
      rw [GrantSystem.goto_phase] at hk
      rw [GrantSystem.goto_phase_of_ne s hji] at hj
      exact absurd hj (hother j subject hji hk)
    · rw [GrantSystem.goto_phase_of_ne s hji] at hj
      rw [GrantSystem.goto_phase_of_ne s hki] at hk
      exact h.exclusive j k subject hj hk

/-! ### The steps that start something -/

variable {w : Ledger}

theorem openSession_leads (h : w.Ok) (intent : Option Nat) : w.Leads none (openSession w intent) :=
  ⟨h.openSession, Nat.lt_succ_self _⟩

theorem openOperation_leads (h : w.Ok) (kind : OperationKind) (userId : Nat) :
    w.Leads none (openOperation w kind userId) := by
  unfold openOperation
  cases huser : w.user userId with
  | none => exact h.move trivial
  | some =>
    obtain ⟨hmem, rfl⟩ := Ledger.user_eq_some huser
    exact h.move (show w.PhaseOk (.opLocking _) from h.userIs hmem)

theorem openClaim_leads (h : w.Ok) (worker jobId : Nat) :
    w.Leads none (openClaim w worker jobId) := by
  unfold openClaim
  cases hfind : w.jobs.find? fun job => job.isActive && job.id = jobId with
  | none => exact h.move trivial
  | some job =>
    have hmem := List.mem_of_find?_eq_some hfind
    have hjob := List.find?_some hfind
    simp only [Bool.and_eq_true, decide_eq_true_eq] at hjob
    have hgood : w.Good none (w.claim jobId worker) := h.claim jobId worker
    refine hgood.move (show w.PhaseOk (.workLocking _) from ⟨h.job_subject job hmem, ?_, trivial⟩)
    refine ⟨?_, fun j hj hid => ?_⟩
    · rw [← hjob.2]
      exact h.job_lt job hmem
    · rw [h.job_unique j hj job hmem (hid.trans hjob.2.symm)]

variable {free : Subject → Bool}

theorem openSession_takes (intent : Option Nat) :
    TakesFree free before (openSession w intent).2 := .none rfl

theorem openOperation_takes (kind : OperationKind) (userId : Nat) :
    TakesFree free before (openOperation w kind userId).2 := by
  unfold openOperation
  cases w.user userId <;> exact .none rfl

theorem openClaim_takes (worker jobId : Nat) :
    TakesFree free before (openClaim w worker jobId).2 := by
  unfold openClaim
  cases w.jobs.find? fun job => job.isActive && job.id = jobId <;> exact .none rfl

theorem GrantSystem.Sound.expire (h : s.Sound) (g : Grant) :
    ({ s with ledger := s.ledger.expire g } : GrantSystem n).Sound where
  ledger := (h.ledger.expire_good g).1
  phase := fun i => (h.ledger.expire_good g).2.phaseOk (h.phase i)
  exclusive := h.exclusive

theorem grantStep_sound (s : GrantSystem n) (l : GrantStep n) (h : s.Sound) :
    (grantStep s l).Sound := by
  cases l with
  | startSession i intent =>
    dsimp only [grantStep]
    split
    · exact h.goto (openSession_leads h.ledger intent) (openSession_takes intent)
    · exact h
  | startOperation i kind userId =>
    dsimp only [grantStep]
    split
    · exact h.goto (openOperation_leads h.ledger kind userId) (openOperation_takes kind userId)
    · exact h
  | claim i jobId =>
    dsimp only [grantStep]
    split
    · exact h.goto (openClaim_leads h.ledger i jobId) (openClaim_takes i jobId)
    · exact h
  | advance i ch =>
    exact h.goto (advance_leads h.ledger (h.phase i)) (advance_takes (h.phase i))
  | expire g => exact h.expire g

/-- **Credentials stay with their subject.** In every run of any number of callbacks, operations
and workers, a subject has one account, which has a token of that subject that Google has issued or
none, every user has the account of its own subject, a revocation job is about a grant of its
subject, and one process holds the lock of a subject. -/
theorem credentials_isolated (n : Nat) (steps : List (GrantStep n)) :
    Throughout grantStep (fun s =>
      (∀ a ∈ s.ledger.accounts, ∀ b ∈ s.ledger.accounts, a.googleSub = b.googleSub → a = b) ∧
        (∀ a ∈ s.ledger.accounts, ∀ g, a.token = some g →
          g ∈ s.ledger.issued ∧ g.subject = a.googleSub) ∧
        (∀ u ∈ s.ledger.users, ∃ a ∈ s.ledger.accounts,
          a.googleSub = u.googleSub ∧ a.userId = u.id) ∧
        (∀ j ∈ s.ledger.jobs, j.grant.subject = j.subjectHash) ∧
        ∀ i j subject, (s.phase i).lock = some subject → (s.phase j).lock = some subject → i = j)
      (GrantSystem.start n) steps := by
  have hkept : Throughout grantStep GrantSystem.Sound (GrantSystem.start n) steps :=
    throughout_of_step (fun s l h _ => grantStep_sound s l h) (GrantSystem.sound_start n)
      (along_of_forall (fun _ _ => trivial) _ steps)
  refine hkept.mono fun s h => ⟨h.ledger.account_unique, fun a ha g hg => ?_, h.ledger.primary,
    h.ledger.job_subject, h.exclusive⟩
  exact ⟨h.ledger.token_issued a ha g hg, h.ledger.token_subject a ha g hg⟩

end ElectronicMail.OAuth
