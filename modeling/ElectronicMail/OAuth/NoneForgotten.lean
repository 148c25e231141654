import ElectronicMail.OAuth.Ownership

/-!
# Runs that forget no grant

`advance_hands` goes through the steps of a process once, with the condition
`Ledger.retains` on those that can lose a grant. `Accounted` is the invariant of a run:
every grant is safe or in the hands of a process. `grants_owned` is the result, and
`closedJobRun` a run in which a subject-wide completion closes the job of a live grant.
-/

namespace ElectronicMail.OAuth

open Foundations

/-! ## One step -/

section Advance

variable {w : Ledger} {free : Subject → Bool} {me : Nat} {ch : Choice}

theorem advance_hands (h : w.Ok) {ph : GrantPhase} (hph : w.PhaseOk ph) (hs : w.Secured ph)
    (hr : w.retains ch me ph = true) : Hands w ph (advance w free me ch ph) := by
  cases ph with
  | idle => exact Hands.along (fun g hg => hg) trivial
  | started =>
    dsimp only [advance]
    split
    · refine ⟨fun g hg => ?_, fun g hg => hg, fun g hg => Or.inl hg, nofun, trivial⟩
      rcases List.mem_append.1 hg with hg | hg
      · exact Or.inl hg
      · exact Or.inr hg
    · exact Hands.along nofun trivial
  | identifying c | lookingUp c | lookingAccount =>
    dsimp only [advance]
    split <;> exact Hands.along (fun g hg => hg) trivial
  | dropping c =>
    simp only [Ledger.retains, Bool.or_eq_true, decide_eq_true_eq] at hr
    refine (h.request_kept c.grant ch).hands (fun g hg => Or.inl ?_) trivial
    rw [List.mem_singleton.1 hg]
    exact (h.request_tracked hph.1 hr).safe
  | locking c =>
    refine acquire_hands (fun g hg => hg) ?_ (fun g hg => hg) ⟨trivial, ?_, trivial⟩
    · split <;> exact fun g hg => hg
    · split <;> trivial
  | checkingEpoch c | colliding c =>
    dsimp only [advance]
    split
    · exact Hands.along (fun g hg => hg) trivial
    · exact Hands.along (fun g hg => c.failed_carries ▸ hg) c.failed_secured
  | checkingPending c =>
    dsimp only [advance]
    split
    · exact Hands.along (fun g hg => c.checked_carries ▸ hg) c.checked_secured
    · exact Hands.along (fun g hg => c.failed_carries ▸ hg) c.failed_secured
  | linking =>
    exact stored_hands rfl fun w' hw' => h.link_kept hph.1 hw'
  | upserting c =>
    dsimp only [advance]
    cases hu : (if ch.ok then w.upsertUser c.subject c.epoch else none) with
    | none => exact Hands.along (fun g hg => c.failed_carries ▸ hg) c.failed_secured
    | some next =>
      obtain ⟨w', id⟩ := next
      by_cases hok : ch.ok = true
      · rw [if_pos hok] at hu
        exact (h.upsertUser_kept hu).hands (fun g hg => Or.inr hg) trivial
      · rw [if_neg hok] at hu
        cases hu
  | reconnecting =>
    exact stored_hands rfl fun w' hw' => h.reconnect_kept hph.1.1 hph.2 hw'
  | tracking c =>
    dsimp only [advance]
    split
    · have hactive := w.enqueue_active c.subject c.grant
      refine (h.enqueue_kept rfl).hands (fun g hg => Or.inl ?_) ?_
      · rw [List.mem_singleton.1 hg]
        exact Ledger.Tracked.safe (Or.inr hactive)
      · cases c.user <;> trivial
    · refine Hands.along (fun g hg => ?_) c.cleanup_secured
      rw [c.cleanup_carries, List.mem_singleton.1 hg]
      exact List.mem_cons_self
  | droppingStored c id jobId =>
    dsimp only [advance]
    split
    · -- The stored grant goes into the hands of the callback.
      have hgood : w.Good none (w.dropPrimary id) := h.dropPrimary id
      have hinto : ∀ g ∈ w.primaryTokens id,
          g ∈ (GrantPhase.marking { c with dropped := c.dropped ++ w.primaryTokens id } id
            jobId).carries := by
        intro g hg
        cases jobId with
        | none => exact List.mem_cons_of_mem _ (List.mem_append_right _ hg)
        | some k => exact List.mem_append_right _ hg
      refine ⟨fun g hg => Or.inl hg, fun g hg => hg, ?_, ?_, trivial⟩
      · rintro g (hg | hg | hg | hg)
        · exact Or.inl (Or.inl hg)
        · exact Or.inl (Or.inr (Or.inl hg))
        · rcases w.dropPrimary_stored id hg with hg | hg
          · exact Or.inl hg.safe
          · exact Or.inr (hinto g hg)
        · exact Or.inl (Or.inr (Or.inr (Or.inr hg)))
      · intro g hg
        right
        cases jobId with
        | none =>
          rcases List.mem_cons.1 hg with rfl | hg
          · exact List.mem_cons_self
          · exact List.mem_cons_of_mem _ (List.mem_append_left _ hg)
        | some k => exact List.mem_append_left _ hg
    · refine Hands.along (fun g hg => ?_) (c.disconnectFailed_secured jobId)
      rw [c.disconnectFailed_carries jobId]
      cases jobId with
      | none => exact hg
      | some k => exact List.mem_cons_of_mem _ hg
  | marking c id jobId =>
    dsimp only [advance]
    split
    · refine (h.markDisconnected_kept id).hands (fun g hg => Or.inr ?_) ?_
      · cases jobId <;> exact hg
      · cases jobId <;> trivial
    · refine Hands.along (fun g hg => ?_) (c.disconnectFailed_secured jobId)
      rw [c.disconnectFailed_carries jobId]
      cases jobId with
      | none => exact hg
      | some k => exact List.mem_cons_of_mem _ hg
  | cleanRevoking c =>
    simp only [Ledger.retains, Bool.and_eq_true, Bool.or_eq_true, decide_eq_true_eq] at hr
    refine (h.request_kept c.grant ch).hands (fun g hg => Or.inl ?_) ?_
    · rcases List.mem_cons.1 hg with rfl | hg
      · exact (h.request_tracked hph.1 hr.1).safe
      · exact (h.disposed hph hr.2 g hg).safe
    · split <;> trivial
  | cleanRecording c | opRecording c =>
    dsimp only [advance]
    split
    · exact (h.record_kept c.subject).hands nofun trivial
    · exact Hands.along nofun trivial
  | outer c =>
    refine acquire_hands (fun g hg => hg) (fun g hg => ?_) (fun g hg => hg)
      ⟨trivial, c.cleanup_secured, trivial⟩
    rw [c.cleanup_carries, List.mem_singleton.1 hg]
    exact List.mem_cons_self
  | queueing c lastResort =>
    simp only [Ledger.retains, Bool.or_eq_true, decide_eq_true_eq] at hr
    dsimp only [advance]
    by_cases hok : ch.ok = true
    · rw [if_pos hok]
      refine (h.enqueue_kept rfl).hands (fun g hg => Or.inl ?_) trivial
      rw [List.mem_singleton.1 hg]
      exact Ledger.Tracked.safe (Or.inr (w.enqueue_active c.subject c.grant))
    · rw [if_neg hok]
      by_cases hlast : lastResort = true
      · rw [if_pos hlast]
        exact Hands.along (fun g hg => hg) trivial
      rw [if_neg hlast]
      refine Hands.move (fun g hg => Or.inl ?_) trivial
      rw [List.mem_singleton.1 hg]
      rcases hr with (hr | hr) | hr
      · exact absurd hr hok
      · exact absurd hr hlast
      · exact hr.safe
  | checkingJob r =>
    have hbroken : Hands w (.checkingJob r) (w, r.broken) :=
      Hands.along (fun g hg => Revocation.broken_carries hg) r.broken_secured
    simp only [Ledger.retains, Bool.or_eq_true, Bool.not_eq_true', decide_eq_true_eq,
      decide_eq_false_iff_not] at hr
    dsimp only [advance]
    by_cases hok : ch.ok = true
    · rw [if_pos hok]
      cases hstatus : w.jobStatus r.jobId with
      | none =>
        unfold Revocation.check
        cases howner : r.owner with
        | callback c | operation op => exact hbroken
        | worker =>
          refine Hands.move (fun g hg => ?_) (Revocation.resolved_secured hs)
          simp only [GrantPhase.carries, howner, Revoker.dropped, List.not_mem_nil] at hg
      | some status =>
        unfold Revocation.check
        dsimp only
        split
        · next hsucceeded =>
          refine Hands.move (fun g hg => Or.inl ?_) (Revocation.resolved_secured hs)
          rcases hr with (hr | hr) | hr
          · rw [hok] at hr
            cases hr
          · exact absurd (hstatus.trans (congrArg some hsucceeded)) hr
          · exact (hr g hg).safe
        · split
          · exact Hands.along (fun g hg => hg) hs
          · exact hbroken
    · rw [if_neg hok]
      exact hbroken
  | revoking r =>
    have hkept := h.request_kept r.grant ch
    have hgood : w.Good none (w.request r.grant ch) := h.request r.grant ch
    have hsec : (w.request r.grant ch).OwnerSecured r.owner :=
      Ledger.Secured.keep (show w.Secured (.revoking r) from hs) hgood.2 hkept.tracked hph nofun
    have hown := hph.2.2
    unfold Ledger.OwnerOk at hown
    have hdropped : ∀ g ∈ r.owner.dropped, (w.request r.grant ch).Safe g := by
      intro g hg
      cases howner : r.owner with
      | callback c =>
        simp only [Ledger.retains, howner, decide_eq_true_eq] at hr
        simp only [howner] at hown
        rw [howner] at hg
        rw [hown.2.2]
        exact (h.disposed hown.1 hr g hg).safe
      | operation op | worker => rw [howner] at hg; cases hg
    dsimp only [advance]
    cases houtcome : w.outcome r.grant ch with
    | retry =>
      exact hkept.hands (fun g hg => Or.inl (hdropped g hg)) (Revocation.retried_secured hsec)
    | projectRevoked =>
      exact hkept.hands (fun g hg => Or.inl (hdropped g hg)) ⟨hsec, nofun⟩
    | credentialInvalid =>
      refine hkept.hands (fun g hg => Or.inl (hdropped g hg)) ⟨hsec, fun _ => ?_⟩
      by_cases hd : w.Dead r.grant
      · exact hgood.2.dead hd
      · unfold Ledger.outcome at houtcome
        rw [if_neg hd] at houtcome
        split at houtcome <;> cases houtcome
  | recording r all =>
    dsimp only [advance]
    split
    · have hgood : w.Good none (w.record r.subject) := h.record r.subject
      have hkept := h.record_kept r.subject
      exact hkept.hands nofun (Ledger.Secured.keep
        (show w.Secured (.completing r all) from hs) hgood.2 hkept.tracked hph nofun)
    · exact Hands.along nofun r.broken_secured
  | completing r all =>
    simp only [Ledger.retains, Bool.or_eq_true, Bool.not_eq_true', decide_eq_true_eq] at hr
    dsimp only [advance]
    by_cases hok : ch.ok = true
    · rw [if_pos hok]
      cases all with
      | true =>
        have hkept : w.Kept (w.completeSubject r.subject) := by
          refine h.completeSubject_kept ?_
          rcases hr with (hr | hr) | hr
          · rw [hok] at hr
            cases hr
          · cases hr
          · exact hr
        have hgood : w.Good none (w.completeSubject r.subject) := h.completeSubject r.subject
        have hsec : (w.completeSubject r.subject).Secured (.completing r true) :=
          Ledger.Secured.keep hs hgood.2 hkept.tracked hph nofun
        exact hkept.hands nofun (Revocation.resolved_secured hsec.1)
      | false =>
        have hkept := h.completeRevocation_kept hph.2.1 (hs.2 rfl)
        have hgood : w.Good none (w.completeRevocation r.jobId) :=
          h.completeRevocation r.jobId
        have hsec : (w.completeRevocation r.jobId).Secured (.completing r false) :=
          Ledger.Secured.keep hs hgood.2 hkept.tracked hph nofun
        exact hkept.hands nofun (Revocation.resolved_secured hsec.1)
    · rw [if_neg hok]
      exact Hands.along nofun r.broken_secured
  | opLocking op => exact acquire_hands nofun nofun nofun ⟨trivial, trivial, trivial⟩
  | preparing op =>
    dsimp only [advance]
    split
    · exact Hands.along nofun trivial
    split
    · cases hhead : (w.primaryTokens op.userId).head? with
      | none =>
        refine Hands.along nofun fun g hg => ?_
        rw [List.head?_eq_none_iff.1 hhead] at hg
        cases hg
      | some g =>
        -- The user has one primary account, and it has one token.
        refine Hands.along nofun fun g' hg' => ?_
        obtain ⟨a, ha, hprimary, htoken⟩ :=
          Ledger.mem_primaryTokens.1 (List.mem_of_mem_head? hhead)
        obtain ⟨a', ha', hprimary', htoken'⟩ := Ledger.mem_primaryTokens.1 hg'
        have hsame : a' = a := by
          refine h.account_unique a' ha' a ha ?_
          rw [Ledger.UserIs.primary_subject hph hprimary',
            Ledger.UserIs.primary_subject hph hprimary]
        rw [hsame, htoken] at htoken'
        exact (Option.some.inj htoken').symm
    · exact Hands.along nofun trivial
  | opEnqueuing op g =>
    dsimp only [advance]
    split
    · have hgood : w.Good none (w.enqueue op.subject g).1 := h.enqueue hph.2
      refine (h.enqueue_kept hph.2).hands nofun fun g' hg' => Or.inr ?_
      rw [hs g' (hgood.2.primaryTokens hph.1 nofun g' hg')]
      exact w.enqueue_active op.subject g
    · exact Hands.along nofun trivial
  | closing op =>
    dsimp only [advance]
    split
    · exact (h.markDisconnected_kept op.userId).hands nofun trivial
    · exact Hands.along nofun trivial
  | guarding op =>
    dsimp only [advance]
    split
    · have hgood : w.Good none (w.guardFor op) := h.guardFor op
      have hkept := h.guardFor_kept op
      exact hkept.hands nofun (Ledger.Secured.keep
        (show w.Secured (.removing op) from hs) hgood.2 hkept.tracked hph nofun)
    · exact Hands.along nofun trivial
  | removing op =>
    have hdrop : w.Kept (w.dropPrimary op.userId) := h.dropPrimary_kept hs
    simp only [Ledger.retains, Bool.or_eq_true, Bool.not_eq_true', decide_eq_true_eq,
      decide_eq_false_iff_not] at hr
    dsimp only [advance]
    by_cases hok : ch.ok = true
    · rw [if_pos hok]
      cases hkind : op.kind with
      | disconnect | dataDeletion => exact hdrop.hands nofun trivial
      | accountDeletion =>
        refine (h.deleteUser_kept ?_).hands nofun trivial
        intro a ha huser hid g htoken
        by_cases hsub : a.googleSub = op.subject
        · obtain ⟨u, hu⟩ := Option.isSome_iff_exists.1 huser
          obtain ⟨hmem, huid⟩ := Ledger.user_eq_some hu
          refine hs g (Ledger.mem_primaryTokens.2 ⟨a, ha, ?_, htoken⟩)
          exact Ledger.isPrimary_iff.2 ⟨hid, u, hmem, huid, (hph.2 u hmem huid).trans hsub.symm⟩
        · rcases hr with (hr | hr) | hr
          · rw [hok] at hr
            cases hr
          · exact absurd hkind hr
          · exact hr a ha hid hsub g htoken
    · rw [if_neg hok]
      exact Hands.along nofun trivial
  | purging op =>
    dsimp only [advance]
    split
    · exact (h.requestDeletion_kept op.userId).hands nofun trivial
    · exact Hands.along nofun trivial
  | workLocking r =>
    refine acquire_hands nofun nofun nofun ⟨hs, ?_, trivial⟩
    obtain ⟨attemptCount, howner⟩ := hs
    show w.OwnerSecured r.owner
    rw [howner]
    trivial
  | failing r =>
    simp only [Ledger.retains, Bool.or_eq_true, Bool.not_eq_true', decide_eq_true_eq] at hr
    dsimp only [advance]
    by_cases hok : ch.ok = true
    · rw [if_pos hok]
      refine (h.failJob_kept ?_).hands nofun trivial
      rcases hr with (hr | hr) | hr
      · rw [hok] at hr
        cases hr
      · exact Or.inl hr
      · exact Or.inr hr
    · rw [if_neg hok]
      exact Hands.along nofun trivial
  | completingJob r =>
    dsimp only [advance]
    split
    · exact (h.completeJob_kept hph.2 me).hands nofun trivial
    · exact Hands.along nofun trivial

end Advance

/-! ## Runs -/

variable {n : Nat}

/-- The invariant of a run that forgets no grant: every grant is safe, or in the hands of
a process. -/
structure GrantSystem.Accounted (s : GrantSystem n) : Prop where
  sound : s.Sound
  covered : ∀ g ∈ s.ledger.issued, s.ledger.Safe g ∨ ∃ i, g ∈ (s.phase i).carries
  secured : ∀ i, s.ledger.Secured (s.phase i)

theorem GrantSystem.accounted_start (n : Nat) : (GrantSystem.start n).Accounted where
  sound := GrantSystem.sound_start n
  covered := fun _ hg => by cases hg
  secured := fun _ => trivial

theorem GrantSystem.Accounted.goto {s : GrantSystem n} (h : s.Accounted) {i : Fin n}
    {next : Ledger × GrantPhase} (hleads : s.ledger.Leads (s.phase i).lock next)
    (htakes : TakesFree s.isFree (s.phase i) next.2) (hands : Hands s.ledger (s.phase i) next) :
    (s.goto i next).Accounted where
  sound := h.sound.goto hleads htakes
  covered := by
    -- What was in the hands of process `i` is safe or still there.
    have hmine : ∀ g, next.1.Safe g ∨ g ∈ next.2.carries →
        (s.goto i next).ledger.Safe g ∨ ∃ j, g ∈ ((s.goto i next).phase j).carries := by
      rintro g (hg | hg)
      · exact Or.inl hg
      · exact Or.inr ⟨i, by simpa using hg⟩
    intro g hg
    rcases hands.issued g hg with hold | hnew
    · rcases h.covered g hold with hsafe | ⟨j, hj⟩
      · exact hmine g (hands.safe g hsafe)
      · by_cases hji : j = i
        · subst hji
          exact hmine g (hands.carried g hj)
        · refine Or.inr ⟨j, ?_⟩
          rw [GrantSystem.goto_phase_of_ne s hji]
          exact hj
    · exact hmine g (Or.inr hnew)
  secured := by
    intro j
    by_cases hji : j = i
    · subst hji
      rw [GrantSystem.goto_phase]
      exact hands.secured
    · rw [GrantSystem.goto_phase_of_ne s hji]
      refine (h.secured j).keep hleads.1.2 hands.tracked (h.sound.phase j) fun subject hj hi => ?_
      exact hji (h.sound.exclusive j i subject hj hi)

variable {w : Ledger}

theorem openSession_hands (intent : Option Nat) : Hands w .idle (openSession w intent) :=
  ⟨fun _ hg => Or.inl hg, fun _ hg => hg, fun _ hg => Or.inl hg, nofun, trivial⟩

theorem openOperation_hands (kind : OperationKind) (userId : Nat) :
    Hands w .idle (openOperation w kind userId) := by
  unfold openOperation
  cases w.user userId <;> exact Hands.along nofun trivial

theorem openClaim_hands (h : w.Ok) (worker jobId : Nat) :
    Hands w .idle (openClaim w worker jobId) := by
  unfold openClaim
  cases w.jobs.find? fun job => job.isActive && job.id = jobId with
  | none => exact Hands.along nofun trivial
  | some job => exact (h.claim_kept jobId worker).hands nofun ⟨_, rfl⟩

theorem Ledger.Ok.expire_kept (h : w.Ok) (g : Grant) : w.Kept (w.expire g) :=
  (h.expire_good g).2.kept_of_eq rfl rfl rfl

theorem grantStep_accounted (s : GrantSystem n) (l : GrantStep n) (h : s.Accounted)
    (hr : Retains s l) : (grantStep s l).Accounted := by
  cases l with
  | startSession i intent =>
    dsimp only [grantStep]
    split
    · next hidle =>
      refine h.goto ?_ (openSession_takes intent) ?_
      · rw [hidle]
        exact openSession_leads h.sound.ledger intent
      · rw [hidle]
        exact openSession_hands intent
    · exact h
  | startOperation i kind userId =>
    dsimp only [grantStep]
    split
    · next hidle =>
      refine h.goto ?_ (openOperation_takes kind userId) ?_
      · rw [hidle]
        exact openOperation_leads h.sound.ledger kind userId
      · rw [hidle]
        exact openOperation_hands kind userId
    · exact h
  | claim i jobId =>
    dsimp only [grantStep]
    split
    · next hidle =>
      refine h.goto ?_ (openClaim_takes i jobId) ?_
      · rw [hidle]
        exact openClaim_leads h.sound.ledger i jobId
      · rw [hidle]
        exact openClaim_hands h.sound.ledger i jobId
    · exact h
  | advance i ch =>
    exact h.goto (advance_leads h.sound.ledger (h.sound.phase i)) (advance_takes (h.sound.phase i))
      (advance_hands h.sound.ledger (h.sound.phase i) (h.secured i) hr)
  | expire g =>
    have hkept := h.sound.ledger.expire_kept g
    refine ⟨h.sound.expire g, fun g' hg' => ?_, fun i => ?_⟩
    · exact (h.covered g' hg').imp (hkept.safe g') id
    · exact (h.secured i).keep (h.sound.ledger.expire_good g).2 hkept.tracked (h.sound.phase i)
        nofun

theorem GrantPhase.carries_eq_nil {ph : GrantPhase} (h : ph.isCallback = false) :
    ph.carries = [] := by
  cases ph with
  | checkingJob r | revoking r =>
    obtain ⟨owner, jobId, subject, g⟩ := r
    cases owner with
    | callback c => cases h
    | operation op | worker => rfl
  | _ => first | rfl | cases h

theorem GrantSystem.Accounted.owned {s : GrantSystem n} (h : s.Accounted) : s.Owned := by
  intro hquiet g hg hlive hreplaced
  rcases h.covered g hg with (hsafe | hsafe | hsafe | hsafe) | ⟨i, hi⟩
  · exact absurd hsafe hlive
  · exact absurd hsafe hreplaced
  · exact Or.inl hsafe
  · exact Or.inr hsafe
  · rw [GrantPhase.carries_eq_nil (hquiet i)] at hi
    cases hi

/-- **No grant is forgotten.** In every run of any number of callbacks, operations and
workers whose steps retain the grants, every live grant that was not replaced is the token
of an account or has an active job, whenever no callback is in progress. -/
theorem grants_owned (n : Nat) (steps : List (GrantStep n))
    (hr : Along grantStep Retains (GrantSystem.start n) steps) :
    Throughout grantStep GrantSystem.Owned (GrantSystem.start n) steps :=
  (throughout_of_step grantStep_accounted (GrantSystem.accounted_start n) hr).mono
    fun _ h => h.owned

/-- A sign-in that connects the account of a user, who then disconnects it. The first
revocation is not answered, and a worker takes the job on. -/
def disconnectRun : List (GrantStep 2) :=
  .startSession 0 none :: .advance 0 { subject := "google-sub" } ::
    List.replicate 8 (.advance 0 {}) ++
  .startOperation 0 .disconnect 0 :: List.replicate 5 (.advance 0 {}) ++
  .advance 0 { answered := false } :: List.replicate 2 (.advance 0 {}) ++
  .claim 1 0 :: List.replicate 6 (.advance 1 {})

theorem grants_owned_disconnectRun :
    Throughout grantStep GrantSystem.Owned (GrantSystem.start 2) disconnectRun :=
  grants_owned 2 disconnectRun (by decide +kernel)

def GrantPhase.isDurable : GrantPhase → Bool
  | .tracking _ => true
  | .queueing _ _ => true
  | .opEnqueuing _ _ => true
  | .recording _ _ => true
  | .cleanRecording _ => true
  | .opRecording _ => true
  | _ => false

/-- The transactions that enqueue a job or record a revocation succeed. -/
def DurableSteps (s : GrantSystem n) : GrantStep n → Prop
  | .advance i ch => (s.phase i).isDurable = true → ch.ok = true
  | _ => True

instance (s : GrantSystem n) : ∀ l, Decidable (DurableSteps s l)
  | .advance i ch =>
    inferInstanceAs (Decidable ((s.phase i).isDurable = true → ch.ok = true))
  | .startSession _ _ | .startOperation _ _ _ | .claim _ _ | .expire _ =>
    inferInstanceAs (Decidable True)

/-- Two sign-ins with one Google account, which is not on the allowlist. The first one has
its grant revoked. The second grant is issued after that, but before the first callback
closes the jobs of the subject; the second callback does not get the lock and queues its
cleanup. -/
def closedJobRun : List (GrantStep 2) :=
  .startSession 0 none :: .startSession 1 none :: .advance 0 { subject := "google-sub" } ::
    List.replicate 6 (.advance 0 {}) ++
  .advance 0 { ok := false } :: List.replicate 3 (.advance 0 {}) ++
  .advance 1 { subject := "google-sub" } :: .advance 1 {} ::
    List.replicate 2 (.advance 1 { ok := false, timedOut := true }) ++
  .advance 1 {} :: List.replicate 2 (.advance 0 {})

/-- The subject-wide completion closes the job of a grant that is still live. -/
theorem closedJobRun_forgets :
    Along grantStep DurableSteps (GrantSystem.start 2) closedJobRun ∧
      ¬ Throughout grantStep GrantSystem.Owned (GrantSystem.start 2) closedJobRun := by
  refine ⟨by decide +kernel, fun h => ?_⟩
  have hquiet : ∀ i,
      ((after grantStep (GrantSystem.start 2) closedJobRun).phase i).isCallback = false := by
    decide +kernel
  have hg : ¬ ((after grantStep (GrantSystem.start 2) closedJobRun).ledger.Stored
        ⟨1, "google-sub"⟩ ∨
      (after grantStep (GrantSystem.start 2) closedJobRun).ledger.Active ⟨1, "google-sub"⟩) := by
    decide +kernel
  exact hg (h.last hquiet ⟨1, "google-sub"⟩ (by decide +kernel) (by decide +kernel)
    (by decide +kernel))

end ElectronicMail.OAuth
