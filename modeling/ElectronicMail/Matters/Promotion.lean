import ElectronicMail.Matters.Bootstrap

/-!
# Promotion only when complete

The proof of `promotion_complete`. The jobs come first, with what every transaction keeps of
them (`JobsKept`); `BootstrapKept` ties the jobs of the generation to what its pages have
listed, and says what a worker owes to the messages that have been eligible since the start.
-/

namespace ElectronicMail.Matters

open Foundations
open Foundations.Table
open Jobs (JobStatus)

/-! ## Jobs and listings -/

@[simp]
theorem AiJobKind.isFor_organize (x y revision : Nat) :
    (AiJobKind.organize y revision).isFor x = true ↔ y = x := by
  simp [AiJobKind.isFor]

variable {kind : AiJobKind}

variable {x : Nat}

theorem isOrganize_of_isFor (h : kind.isFor x = true) : kind.isOrganize = true := by
  cases kind with
  | organize => rfl
  | bootstrap offset | finalize => cases h

variable {g : Nat}

variable {s : Tables}

theorem hasJob_iff :
    s.hasJob g x = true ↔ ∃ j ∈ s.jobs, j.generationId = g ∧ j.kind.isFor x = true := by
  simp [Tables.hasJob]

theorem hasEnded_iff : s.hasEnded g x = true ↔
      ∃ j ∈ s.jobs, j.generationId = g ∧ j.kind.isFor x = true ∧ j.status.isActive = false := by
  simp [Tables.hasEnded, and_assoc]

theorem hasJob_of_hasEnded (h : s.hasEnded g x = true) : s.hasJob g x = true := by
  obtain ⟨j, hj, hg, hfor, _⟩ := hasEnded_iff.1 h
  exact hasJob_iff.2 ⟨j, hj, hg, hfor⟩

/-- What a transaction may do to the jobs: it adds some, and changes those that are active,
neither their generation nor their kind. -/
structure JobsKept (s s' : Tables) : Prop where
  kept : ∀ j ∈ s.jobs, ∃ j' ∈ s'.jobs, j'.generationId = j.generationId ∧ j'.kind = j.kind ∧
    (j.status.isActive = false → j'.status = j.status)

theorem JobsKept.refl (s : Tables) : JobsKept s s :=
  ⟨fun j hj => ⟨j, hj, rfl, rfl, fun _ => rfl⟩⟩

variable {s' : Tables}

theorem JobsKept.trans {s'' : Tables} (h : JobsKept s s') (h' : JobsKept s' s'') :
    JobsKept s s'' := by
  constructor
  intro j hj
  obtain ⟨j', hj', hg, hk, hstatus⟩ := h.kept j hj
  obtain ⟨j'', hj'', hg', hk', hstatus'⟩ := h'.kept j' hj'
  refine ⟨j'', hj'', hg'.trans hg, hk'.trans hk, fun ha => ?_⟩
  have hsame := hstatus ha
  rw [hstatus' (hsame ▸ ha), hsame]

theorem JobsKept.hasJob (h : JobsKept s s') (hjob : s.hasJob g x = true) :
    s'.hasJob g x = true := by
  obtain ⟨j, hj, hg, hfor⟩ := hasJob_iff.1 hjob
  obtain ⟨j', hj', hg', hk', _⟩ := h.kept j hj
  exact hasJob_iff.2 ⟨j', hj', hg'.trans hg, hk' ▸ hfor⟩

theorem JobsKept.hasEnded (h : JobsKept s s') (hended : s.hasEnded g x = true) :
    s'.hasEnded g x = true := by
  obtain ⟨j, hj, hg, hfor, hinactive⟩ := hasEnded_iff.1 hended
  obtain ⟨j', hj', hg', hk', hstatus⟩ := h.kept j hj
  exact hasEnded_iff.2 ⟨j', hj', hg'.trans hg, hk' ▸ hfor, by rw [hstatus hinactive, hinactive]⟩

variable {p : AiJob → Bool} {f : AiJob → AiJob}

theorem jobsKept_updateWhere (hjobs : s'.jobs = updateWhere p f s.jobs)
    (hf : ∀ j, (f j).generationId = j.generationId ∧ (f j).kind = j.kind)
    (hp : ∀ j, p j = true → j.status.isActive = true) : JobsKept s s' := by
  constructor
  intro j hj
  rw [hjobs]
  refine ⟨_, mem_updateWhere.2 ⟨j, hj, rfl⟩, ?_⟩
  by_cases hpj : p j = true
  · rw [if_pos hpj]
    refine ⟨(hf j).1, (hf j).2, fun hinactive => ?_⟩
    rw [hp j hpj] at hinactive
    cases hinactive
  · rw [if_neg hpj]
    exact ⟨rfl, rfl, fun _ => rfl⟩

theorem hasJob_updateWhere (hjobs : s'.jobs = updateWhere p f s.jobs)
    (hf : ∀ j, (f j).generationId = j.generationId ∧ (f j).kind = j.kind)
    (h : s'.hasJob g x = true) : s.hasJob g x = true := by
  obtain ⟨j', hj', hg, hfor⟩ := hasJob_iff.1 h
  rw [hjobs] at hj'
  obtain ⟨j, hj, rfl⟩ := mem_updateWhere.1 hj'
  refine hasJob_iff.2 ⟨j, hj, ?_⟩
  by_cases hpj : p j = true
  · rw [if_pos hpj, (hf j).1] at hg
    rw [if_pos hpj, (hf j).2] at hfor
    exact ⟨hg, hfor⟩
  · rw [if_neg hpj] at hg hfor
    exact ⟨hg, hfor⟩

/-- A transaction that leaves the semantics alone and brings no job for a new message. -/
structure JobsOnly (s s' : Tables) : Prop where
  kept : JobsKept s s'
  old : ∀ g x, s'.hasJob g x = true → s.hasJob g x = true
  semantics : s'.semantics = s.semantics

theorem jobsOnly_of_updateWhere (hjobs : s'.jobs = updateWhere p f s.jobs)
    (hf : ∀ j, (f j).generationId = j.generationId ∧ (f j).kind = j.kind)
    (hp : ∀ j, p j = true → j.status.isActive = true) (hsemantics : s'.semantics = s.semantics) :
    JobsOnly s s' :=
  ⟨jobsKept_updateWhere hjobs hf hp, fun _ _ h => hasJob_updateWhere hjobs hf h, hsemantics⟩

theorem JobsOnly.refl (s : Tables) : JobsOnly s s := ⟨JobsKept.refl s, fun _ _ h => h, rfl⟩

theorem JobsOnly.trans {s'' : Tables} (h : JobsOnly s s') (h' : JobsOnly s' s'') : JobsOnly s s'' :=
  ⟨h.kept.trans h'.kept, fun g x hjob => h.old g x (h'.old g x hjob),
    h'.semantics.trans h.semantics⟩

theorem jobsOnly_startJob (i : Nat) (s : Tables) : JobsOnly s (startJob i s) := by
  refine jobsOnly_of_updateWhere (startJob_jobs i s) (fun _ => ⟨rfl, rfl⟩) ?_ rfl
  intro j hp
  simp only [Bool.and_eq_true] at hp
  exact hp.2

theorem jobsOnly_closeJob (i : Nat) (status : JobStatus) (s : Tables) :
    JobsOnly s (closeJob i status s) := by
  refine jobsOnly_of_updateWhere (closeJob_jobs i status s) (fun _ => ⟨rfl, rfl⟩) ?_ rfl
  intro j hp
  simp only [Bool.and_eq_true, beq_iff_eq] at hp
  exact isActive_running hp.2

theorem jobsKept_append {j : AiJob} (h : s'.jobs = s.jobs ++ [j]) : JobsKept s s' := by
  constructor
  intro j hj
  rw [h]
  exact ⟨j, List.mem_append_left _ hj, rfl, rfl, fun _ => rfl⟩

theorem hasJob_append {j : AiJob} (h : s'.jobs = s.jobs ++ [j]) (hjob : s'.hasJob g x = true) :
    s.hasJob g x = true ∨ (j.generationId = g ∧ j.kind.isFor x = true) := by
  obtain ⟨j', hj', hg, hfor⟩ := hasJob_iff.1 hjob
  rw [h, List.mem_append, List.mem_singleton] at hj'
  rcases hj' with hold | rfl
  · exact Or.inl (hasJob_iff.2 ⟨j', hold, hg, hfor⟩)
  · exact Or.inr ⟨hg, hfor⟩

theorem jobsOnly_insertFinalize (g : Nat) (s : Tables) : JobsOnly s (insertAiJob g .finalize s) := by
  refine ⟨jobsKept_append rfl, fun g' x h => ?_, rfl⟩
  rcases hasJob_append rfl h with hold | ⟨_, hfor⟩
  · exact hold
  · cases hfor

/-- Nothing but the job is new after `enqueue_job`, and the message has one. -/
theorem enqueueAiJob_cases (g : Nat) (kind : AiJobKind) (s : Tables) :
    (enqueueAiJob g kind s = s ∧ ∃ j ∈ s.jobs, j.generationId = g ∧ j.kind = kind) ∨
      enqueueAiJob g kind s = insertAiJob g kind s := by
  unfold enqueueAiJob
  by_cases hany : (s.jobsOf g kind).any (fun j => j.status.isActive) = true
  · rw [if_pos hany]
    obtain ⟨j, hj, _⟩ := List.any_eq_true.1 hany
    exact Or.inl ⟨rfl, j, mem_jobsOf.1 hj⟩
  · rw [if_neg hany]
    exact Or.inr rfl

theorem jobsOnly_enqueueBootstrap (g offset : Nat) (s : Tables) :
    JobsOnly s (enqueueAiJob g (.bootstrap offset) s) := by
  rcases enqueueAiJob_cases g (.bootstrap offset) s with ⟨hsame, _⟩ | hinsert
  · rw [hsame]
    exact JobsOnly.refl s
  · rw [hinsert]
    refine ⟨jobsKept_append rfl, fun g' x h => ?_, rfl⟩
    rcases hasJob_append rfl h with hold | ⟨_, hfor⟩
    · exact hold
    · cases hfor

theorem jobsOnly_finalizeGeneration (status : GenerationStatus) (g : Nat) (s : Tables) :
    JobsOnly s (finalizeGeneration status g s) := by
  have hpromote : JobsOnly s (promoteGeneration g s) := by
    unfold promoteGeneration
    by_cases hp : s.promotable g = true
    · rw [if_pos hp]
      have hcancel : ∀ ids (s : Tables), JobsOnly s (cancelJobs ids s) := by
        intro ids s
        refine jobsOnly_of_updateWhere rfl (fun _ => ⟨rfl, rfl⟩) ?_ rfl
        intro j hj
        simp only [Bool.and_eq_true] at hj
        exact hj.1
      have hfinalize : ∀ s : Tables, JobsOnly s (cancelFinalize g s) := by
        intro s
        refine jobsOnly_of_updateWhere rfl (fun _ => ⟨rfl, rfl⟩) ?_ rfl
        intro j hj
        simp only [Bool.and_eq_true, beq_iff_eq] at hj
        rw [hj.1.1]
        rfl
      obtain ⟨hkept, hold, hsem⟩ := (hcancel s.activeIds s).trans (hfinalize _)
      exact ⟨⟨hkept.kept⟩, hold, hsem⟩
    · rw [if_neg hp]
      exact JobsOnly.refl s
  cases status with
  | building => exact hpromote
  | shadow => exact ⟨⟨(JobsKept.refl s).kept⟩, fun _ _ h => h, rfl⟩
  | active | superseded | failed => exact JobsOnly.refl s

theorem mem_listGenerationMessageIds {mail : List MailRow} {y : Nat × Nat}
    (heligible : hasEligible mail y = true)
    (hnone : ∀ r ∈ s.semantics, r.generationId = g → r.messageId ≠ y.1) :
    y ∈ listGenerationMessageIds g mail s := by
  obtain ⟨m, hm, hrow⟩ := List.any_eq_true.1 heligible
  simp only [Bool.and_eq_true, beq_iff_eq] at hrow
  obtain ⟨⟨hid, hrevision⟩, hel⟩ := hrow
  have hunprocessed : s.isUnprocessed g m = true := by
    have hfind : s.semantics.find? (Semantics.isOf g m.messageId) = none := by
      rw [List.find?_eq_none]
      intro r hr hof
      obtain ⟨hg, hx⟩ := Semantics.isOf_iff.1 hof
      exact hnone r hr hg (hx.trans hid)
    rw [Tables.isUnprocessed, hfind]
    rfl
  refine List.mem_map.2 ⟨m, ?_, Prod.ext hid hrevision⟩
  rw [List.mem_insertionSort, List.mem_filter]
  exact ⟨hm, by rw [hel, hunprocessed]; rfl⟩

theorem hasEnded_of_count (h : countGenerationJobs g s = 0) (hjob : s.hasJob g x = true) :
    s.hasEnded g x = true := by
  obtain ⟨j, hj, hg, hfor⟩ := hasJob_iff.1 hjob
  refine hasEnded_iff.2 ⟨j, hj, hg, hfor, ?_⟩
  rw [countGenerationJobs, List.countP_eq_zero] at h
  rw [← Bool.not_eq_true]
  intro ha
  exact h j hj (by simp [hg, isOrganize_of_isFor hfor, ha])

/-! ## The invariant -/

/-- What a worker still has to enqueue has been listed, and is all that is left when its page
is the last one; once it has counted to nothing, every message is done. -/
def Bootstrapping.Fits (generationId : Nat) (w : Bootstrapping) (p : Pager) : Prop :=
  match p.stage with
  | .enqueuing _ isFull rest =>
    (∀ y ∈ rest, y.1 ∈ w.enumerated) ∧
      (isFull = false → ∀ y ∈ w.steady, w.tables.hasJob generationId y.1 = true ∨
        y.1 ∈ rest.map Prod.fst)
  | .counted => ∀ y ∈ w.steady, w.tables.hasEnded generationId y.1 = true
  | .opened _ | .continued | .finalizing | .finished => True

/-- Jobs are for messages that have been listed, and semantics for messages that have a job;
who has been eligible since the start still is, and has a job once the last page has been
enqueued, and one that has ended once the generation has been promoted. -/
structure BootstrapKept (g : Nat) (w : Bootstrapping) : Prop where
  listed : ∀ x, w.tables.hasJob g x = true → x ∈ w.enumerated
  processed : ∀ r ∈ w.tables.semantics, r.generationId = g → w.tables.hasJob g r.messageId = true
  eligible : ∀ y ∈ w.steady, hasEligible w.mail y = true
  pagers : ∀ p ∈ w.pagers, w.Fits g p
  covered : w.covered = true → ∀ y ∈ w.steady, w.tables.hasJob g y.1 = true
  promoted : w.promoted = true → ∀ y ∈ w.steady, w.tables.hasEnded g y.1 = true

/-- What every step does to the jobs, the listed messages and those that stay eligible. -/
structure BootstrapGrows (w w' : Bootstrapping) : Prop where
  jobs : JobsKept w.tables w'.tables
  steady : ∀ y ∈ w'.steady, y ∈ w.steady
  enumerated : ∀ x ∈ w.enumerated, x ∈ w'.enumerated

variable {w : Bootstrapping}

theorem Bootstrapping.Fits.mono {w' : Bootstrapping} (h : BootstrapGrows w w')
    {p : Pager} (hp : w.Fits g p) : w'.Fits g p := by
  unfold Bootstrapping.Fits at hp ⊢
  cases hstage : p.stage with
  | enqueuing =>
    simp only [hstage] at hp ⊢
    refine ⟨fun y hy => h.enumerated _ (hp.1 y hy), fun hlast y hy => ?_⟩
    exact (hp.2 hlast y (h.steady y hy)).imp_left h.jobs.hasJob
  | counted =>
    simp only [hstage] at hp ⊢
    exact fun y hy => h.jobs.hasEnded (hp y (h.steady y hy))
  | opened offset | continued | finalizing | finished => trivial

theorem BootstrapKept.of {w' : Bootstrapping} (h : BootstrapKept g w) (hgrows : BootstrapGrows w w')
    (hnew : ∀ x, w'.tables.hasJob g x = true → w.tables.hasJob g x = true ∨ x ∈ w'.enumerated)
    (hsemantics : ∀ r' ∈ w'.tables.semantics, r'.generationId = g →
      w'.tables.hasJob g r'.messageId = true)
    (heligible : ∀ y ∈ w'.steady, hasEligible w'.mail y = true)
    (hpagers : ∀ p ∈ w'.pagers, p ∈ w.pagers ∨ w'.Fits g p)
    (hcovered : w'.covered = true → w.covered = true ∨
      ∀ y ∈ w'.steady, w'.tables.hasJob g y.1 = true)
    (hpromoted : w'.promoted = true → w.promoted = true ∨
      ∀ y ∈ w'.steady, w'.tables.hasEnded g y.1 = true) : BootstrapKept g w' where
  listed := by
    intro x hx
    rcases hnew x hx with hold | hlisted
    · exact hgrows.enumerated x (h.listed x hold)
    · exact hlisted
  processed := hsemantics
  eligible := heligible
  pagers := by
    intro p hp
    rcases hpagers p hp with hold | hfits
    · exact (h.pagers p hold).mono hgrows
    · exact hfits
  covered := by
    intro hc
    rcases hcovered hc with hold | hjobs
    · exact fun y hy => hgrows.jobs.hasJob (h.covered hold y (hgrows.steady y hy))
    · exact hjobs
  promoted := by
    intro hp
    rcases hpromoted hp with hold | hended
    · exact fun y hy => hgrows.jobs.hasEnded (h.promoted hold y (hgrows.steady y hy))
    · exact hended

theorem BootstrapKept.of_jobs (h : BootstrapKept g w) (hs : JobsOnly w.tables s)
    {pagers : List Pager} (hpagers : ∀ p ∈ pagers, p ∈ w.pagers ∨
      Bootstrapping.Fits g { w with tables := s, pagers := pagers } p) :
    BootstrapKept g { w with tables := s, pagers := pagers } := by
  refine h.of ⟨hs.kept, fun _ hy => hy, fun _ hx => hx⟩ (fun x hx => Or.inl (hs.old g x hx)) ?_
    h.eligible hpagers Or.inl Or.inl
  intro r hr hg
  rw [hs.semantics] at hr
  exact hs.kept.hasJob (h.processed r hr hg)

variable {k : Nat}

theorem pager_mem {p : Pager} (h : w.pager k = some p) : p ∈ w.pagers :=
  List.mem_of_find?_eq_some h

variable {stage : PagerStage}

theorem mem_goOnPager {p : Pager} (h : p ∈ w.goOn k stage) : p ∈ w.pagers ∨ p.stage = stage := by
  obtain ⟨p₀, h₀, rfl⟩ := mem_updateWhere.1 h
  by_cases hk : (p₀.id == k) = true
  · rw [if_pos hk]
    exact Or.inr rfl
  · rw [if_neg hk]
    exact Or.inl h₀

theorem fits_of_stage {p : Pager} (hp : p.stage = stage)
    (hstage : (∃ offset, stage = .opened offset) ∨ stage = .continued ∨ stage = .finalizing ∨
      stage = .finished) : w.Fits g p := by
  unfold Bootstrapping.Fits
  rw [hp]
  rcases hstage with ⟨offset, rfl⟩ | rfl | rfl | rfl <;> trivial

/-! ## Steps -/

theorem bootstrapKept_claims (h : BootstrapKept g w)
    (k jobId : Nat) : BootstrapKept g (w.step g (.claims k jobId)) := by
  simp only [Bootstrapping.step]
  split
  · next j _ _ =>
      cases hstage : j.kind.firstStage with
      | none => exact h
      | some stage =>
        by_cases hg : j.generationId = g
        · simp only [hg, if_true]
          refine h.of_jobs (jobsOnly_startJob jobId w.tables) ?_
          intro p hp
          rcases List.mem_cons.1 hp with rfl | hp
          · right
            refine fits_of_stage rfl ?_
            cases hk : j.kind with
            | organize =>
              rw [hk] at hstage
              cases hstage
            | bootstrap offset =>
              rw [hk] at hstage
              exact Or.inl ⟨offset, (Option.some.inj hstage).symm⟩
            | finalize =>
              rw [hk] at hstage
              exact Or.inr (Or.inr (Or.inl (Option.some.inj hstage).symm))
          · exact Or.inl hp
        · simp only [hg, if_false]
          exact h
  · exact h

theorem bootstrapKept_goOn (h : BootstrapKept g w) (hs : JobsOnly w.tables s) (k : Nat)
    (hstage : (∃ offset, stage = .opened offset) ∨ stage = .continued ∨ stage = .finalizing ∨
      stage = .finished) : BootstrapKept g { w with tables := s, pagers := w.goOn k stage } := by
  refine h.of_jobs hs ?_
  intro p hp
  exact (mem_goOnPager hp).imp_right fun hp => fits_of_stage hp hstage

/-- **A page** that skips no message without a job lists all the others when it is the last
one. -/
theorem bootstrapKept_pages (h : BootstrapKept g w)
    (hgood : SkipsEnqueued g w k) : BootstrapKept g (w.step g (.pages k)) := by
  simp only [Bootstrapping.step]
  split
  · next offset hk =>
      have hskip := hgood _ hk offset rfl
      by_cases hlive : w.tables.isLive g = true
      · simp only [hlive, if_true]
        obtain ⟨page, hpage⟩ : ∃ page, page =
            ((listGenerationMessageIds g w.mail w.tables).drop offset).take pageSize := ⟨_, rfl⟩
        rw [← hpage]
        have hgrows : BootstrapGrows w
            { w with
              pagers := w.goOn k (.enqueuing offset (page.length == pageSize) page)
              enumerated := w.enumerated ++ page.map Prod.fst } :=
          ⟨JobsKept.refl _, fun _ hy => hy, fun _ hx => List.mem_append_left _ hx⟩
        refine h.of hgrows (fun _ hx => Or.inl hx) h.processed h.eligible ?_ Or.inl Or.inl
        intro p hp
        refine (mem_goOnPager hp).imp_right fun hstage => ?_
        unfold Bootstrapping.Fits
        simp only [hstage]
        refine ⟨fun y hy => List.mem_append_right _ (List.mem_map.2 ⟨y, hy, rfl⟩), ?_⟩
        intro hlast y hy
        by_cases hjob : w.tables.hasJob g y.1 = true
        · exact Or.inl hjob
        right
        -- A message without a job has no semantics, and is listed.
        have hmem : y ∈ listGenerationMessageIds g w.mail w.tables := by
          refine mem_listGenerationMessageIds (h.eligible y hy) ?_
          intro r hr hg hx
          exact hjob (hx ▸ h.processed r hr hg)
        rw [← List.take_append_drop offset (listGenerationMessageIds g w.mail w.tables),
          List.mem_append] at hmem
        rcases hmem with hskipped | hrest
        · exact absurd (hskip y hskipped hy) hjob
        -- The page is not full, so that it is the whole rest.
        have hwhole : page = (listGenerationMessageIds g w.mail w.tables).drop offset := by
          rw [hpage, List.take_eq_self_iff]
          rw [beq_eq_false_iff_ne, hpage, List.length_take] at hlast
          omega
        rw [hwhole]
        exact List.mem_map.2 ⟨y, hrest, rfl⟩
      · simp only [hlive]
        exact bootstrapKept_goOn h (JobsOnly.refl _) k (by simp)
  · exact h

theorem hasJob_enqueue (g x revision : Nat) (s : Tables) :
    (enqueueAiJob g (.organize x revision) s).hasJob g x = true := by
  rcases enqueueAiJob_cases g (.organize x revision) s with ⟨hsame, j, hj, hg, hk⟩ | hinsert
  · rw [hsame, hasJob_iff]
    exact ⟨j, hj, hg, by simp [hk]⟩
  · rw [hinsert, hasJob_iff]
    exact ⟨_, List.mem_append_right _ (List.mem_singleton.2 rfl), rfl, by simp⟩

theorem jobsKept_enqueue (g : Nat) (kind : AiJobKind) (s : Tables) :
    JobsKept s (enqueueAiJob g kind s) := by
  rcases enqueueAiJob_cases g kind s with ⟨hsame, _⟩ | hinsert
  · rw [hsame]
    exact JobsKept.refl s
  · rw [hinsert]
    exact jobsKept_append rfl

theorem bootstrapKept_enqueues (h : BootstrapKept g w) (k : Nat) :
    BootstrapKept g (w.step g (.enqueues k)) := by
  simp only [Bootstrapping.step]
  split
  · next offset isFull x revision rest hk =>
      have hfits := h.pagers _ (pager_mem hk)
      simp only [Bootstrapping.Fits] at hfits
      obtain ⟨hlisted, hlast⟩ := hfits
      have hkept := jobsKept_enqueue g (.organize x revision) w.tables
      have hsemantics : (enqueueAiJob g (.organize x revision) w.tables).semantics =
          w.tables.semantics := by
        rcases enqueueAiJob_cases g (.organize x revision) w.tables with ⟨hsame, _⟩ | hinsert
        · rw [hsame]
        · rw [hinsert]
          rfl
      refine h.of ⟨hkept, fun _ hy => hy, fun _ hx => hx⟩ ?_ ?_ h.eligible ?_ Or.inl Or.inl
      · intro x' hx'
        rcases enqueueAiJob_cases g (.organize x revision) w.tables with ⟨hsame, _⟩ | hinsert
        · simp only [hsame] at hx'
          exact Or.inl hx'
        · simp only [hinsert] at hx'
          rcases hasJob_append rfl hx' with hold | ⟨_, hfor⟩
          · exact Or.inl hold
          · rw [AiJobKind.isFor_organize] at hfor
            exact Or.inr (hfor ▸ hlisted _ List.mem_cons_self)
      · intro r hr hg
        rw [hsemantics] at hr
        exact hkept.hasJob (h.processed r hr hg)
      · intro p hp
        refine (mem_goOnPager hp).imp_right fun hstage => ?_
        unfold Bootstrapping.Fits
        simp only [hstage]
        refine ⟨fun y hy => hlisted y (List.mem_cons_of_mem _ hy), fun hpart y hy => ?_⟩
        rcases hlast hpart y hy with hjob | hmem
        · exact Or.inl (hkept.hasJob hjob)
        rcases List.mem_cons.1 hmem with hx | hrest
        · left
          rw [hx]
          exact hasJob_enqueue g x revision w.tables
        · exact Or.inr hrest
  · exact h

theorem bootstrapKept_continues (h : BootstrapKept g w) (k : Nat) :
    BootstrapKept g (w.step g (.continues k)) := by
  simp only [Bootstrapping.step]
  split
  · exact bootstrapKept_goOn h (jobsOnly_enqueueBootstrap g _ w.tables) k (by simp)
  · next offset hk =>
      have hfits := h.pagers _ (pager_mem hk)
      simp only [Bootstrapping.Fits] at hfits
      refine h.of ⟨JobsKept.refl _, fun _ hy => hy, fun _ hx => hx⟩ (fun _ hx => Or.inl hx)
        h.processed h.eligible ?_ ?_ Or.inl
      · intro p hp
        exact (mem_goOnPager hp).imp_right fun hstage => fits_of_stage hstage (by simp)
      · refine fun _ => Or.inr fun y hy => ?_
        rcases hfits.2 trivial y hy with hjob | hmem
        · exact hjob
        · cases hmem
  · exact h

theorem bootstrapKept_schedules (h : BootstrapKept g w) (k : Nat) :
    BootstrapKept g (w.step g (.schedules k)) := by
  simp only [Bootstrapping.step]
  split
  · exact bootstrapKept_goOn h (jobsOnly_insertFinalize g w.tables) k (by simp)
  · exact h

/-- **A count to nothing** after the last page has been enqueued. -/
theorem bootstrapKept_counts (h : BootstrapKept g w)
    (hgood : CountsCovered g w k) : BootstrapKept g (w.step g (.counts k)) := by
  simp only [Bootstrapping.step]
  split
  · next hk =>
      by_cases hcount : countGenerationJobs g w.tables = 0
      · simp only [hcount, if_true]
        have hcovered := hgood _ hk rfl hcount
        refine h.of_jobs (JobsOnly.refl w.tables) ?_
        intro p hp
        refine (mem_goOnPager hp).imp_right fun hstage => ?_
        unfold Bootstrapping.Fits
        simp only [hstage]
        exact fun y hy => hasEnded_of_count hcount (h.covered hcovered y hy)
      · simp only [hcount, if_false]
        exact bootstrapKept_goOn h (jobsOnly_insertFinalize g w.tables) k (by simp)
  · exact h

theorem bootstrapKept_promotes (h : BootstrapKept g w) (k : Nat) :
    BootstrapKept g (w.step g (.promotes k)) := by
  simp only [Bootstrapping.step]
  split
  · next gen hk _ =>
      have hfits := h.pagers _ (pager_mem hk)
      simp only [Bootstrapping.Fits] at hfits
      have hs := jobsOnly_finalizeGeneration gen.status g w.tables
      refine h.of ⟨hs.kept, fun _ hy => hy, fun _ hx => hx⟩ (fun x hx => Or.inl (hs.old g x hx)) ?_
        h.eligible ?_ Or.inl ?_
      · intro r hr hg
        rw [hs.semantics] at hr
        exact hs.kept.hasJob (h.processed r hr hg)
      · intro p hp
        exact (mem_goOnPager hp).imp_right fun hstage => fits_of_stage hstage (by simp)
      · exact fun _ => Or.inr fun y hy => hs.kept.hasEnded (hfits y hy)
  · exact bootstrapKept_goOn h (JobsOnly.refl _) k (by simp)
  · exact h

theorem bootstrapKept_ends (h : BootstrapKept g w) (k : Nat) :
    BootstrapKept g (w.step g (.ends k)) := by
  simp only [Bootstrapping.step]
  split
  · exact h.of_jobs (jobsOnly_closeJob _ _ w.tables) fun p hp => Or.inl (List.mem_filter.1 hp).1
  · exact h

theorem bootstrapKept_dies (h : BootstrapKept g w) (k : Nat)
    (reported : Option Bool) : BootstrapKept g (w.step g (.dies k reported)) := by
  simp only [Bootstrapping.step]
  split
  · cases reported with
    | none => exact h.of_jobs (JobsOnly.refl w.tables) fun p hp => Or.inl (List.mem_filter.1 hp).1
    | some =>
      exact h.of_jobs (jobsOnly_closeJob _ _ w.tables) fun p hp =>
        Or.inl (List.mem_filter.1 hp).1
  · exact h

theorem hasJob_of_organizeJob {jobId : Nat} (h : s.organizeJob jobId = some (g, x)) :
    s.hasJob g x = true := by
  obtain ⟨j, hfind, hkind⟩ := Option.bind_eq_some_iff.1 h
  cases hk : j.kind with
  | organize =>
    rw [hk] at hkind
    obtain ⟨hg, hy⟩ := Prod.mk.inj (Option.some.inj hkind)
    exact hasJob_iff.2 ⟨j, List.mem_of_find?_eq_some hfind, hg, by rw [hk]; simpa using hy⟩
  | bootstrap offset | finalize =>
    rw [hk] at hkind
    cases hkind

theorem bootstrapKept_semantics (h : BootstrapKept g w) (hjobs : s.jobs = w.tables.jobs)
    (hkeys : ∀ key ∈ s.semantics.map Semantics.key, key ∈ w.tables.semantics.map Semantics.key ∨
      w.tables.hasJob key.1 key.2 = true) : BootstrapKept g { w with tables := s } := by
  have hjob : ∀ g' x, s.hasJob g' x = w.tables.hasJob g' x := by
    intro g' x
    unfold Tables.hasJob
    rw [hjobs]
  have hkept : JobsKept w.tables s := by
    constructor
    rw [hjobs]
    exact (JobsKept.refl _).kept
  refine h.of ⟨hkept, fun _ hy => hy, fun _ hx => hx⟩ ?_ ?_ h.eligible (fun _ hp => Or.inl hp)
    Or.inl Or.inl
  · intro x hx
    left
    rw [← hjob]
    exact hx
  · intro r hr hg
    show s.hasJob g r.messageId = true
    rw [hjob]
    rcases hkeys r.key (List.mem_map.2 ⟨r, hr, rfl⟩) with hold | hnew
    · obtain ⟨r₀, h₀, hkey⟩ := List.mem_map.1 hold
      obtain ⟨hg₀, hx₀⟩ := Prod.mk.inj hkey
      rw [← hx₀]
      exact h.processed r₀ h₀ (hg₀.trans hg)
    · rw [← hg]
      exact hnew

theorem bootstrapKept_begins (h : BootstrapKept g w) (jobId : Nat)
    (reading : Reading) : BootstrapKept g (w.step g (.begins jobId reading)) := by
  simp only [Bootstrapping.step]
  split
  · next g' x hjob =>
      cases hbegin : beginMessageProcessing g' x reading w.tables with
      | none => exact h
      | some result =>
        obtain ⟨s, go⟩ := result
        refine bootstrapKept_semantics h ?_ ?_
        · show s.jobs = w.tables.jobs
          rw [beginMessageProcessing_frame hbegin]
        show ∀ key ∈ s.semantics.map Semantics.key, _
        intro key hkey
        rcases (beginMessageProcessing_rows hbegin).1 with hsame | ⟨_, _, hnew⟩
        · rw [hsame] at hkey
          exact Or.inl hkey
        · rw [hnew, List.mem_append, List.mem_singleton] at hkey
          refine hkey.imp_right ?_
          rintro rfl
          exact hasJob_of_organizeJob hjob
  · exact h

theorem bootstrapKept_completes (h : BootstrapKept g w)
    (jobId : Nat) (reading : Reading) : BootstrapKept g (w.step g (.completes jobId reading)) := by
  simp only [Bootstrapping.step]
  split
  · next g' x _ =>
      refine bootstrapKept_semantics h rfl ?_
      have hkeys : (completeMessageSemantics g' x reading w.tables).semantics.map Semantics.key =
          w.tables.semantics.map Semantics.key := map_updateWhere fun _ _ _ => rfl
      rw [hkeys]
      exact fun key hkey => Or.inl hkey
  · exact h

theorem bootstrapKept_fails (h : BootstrapKept g w) (jobId : Nat) :
    BootstrapKept g (w.step g (.fails jobId)) := by
  simp only [Bootstrapping.step]
  split
  · next g' x _ =>
      refine bootstrapKept_semantics h rfl ?_
      have hkeys : (failMessageSemantics g' x w.tables).semantics.map Semantics.key =
          w.tables.semantics.map Semantics.key := map_updateWhere fun _ _ _ => rfl
      rw [hkeys]
      exact fun key hkey => Or.inl hkey
  · exact h

theorem bootstrapKept_mails (h : BootstrapKept g w)
    (mail : List MailRow) : BootstrapKept g (w.step g (.mails mail)) := by
  refine h.of ⟨JobsKept.refl _, fun _ hy => (List.mem_filter.1 hy).1, fun _ hx => hx⟩
    (fun _ hx => Or.inl hx) h.processed ?_ (fun _ hp => Or.inl hp) Or.inl Or.inl
  exact fun y hy => (List.mem_filter.1 hy).2

theorem bootstrapKept_step {l : BootstrapLabel}
    (h : BootstrapKept g w) (hgood : KeepsComplete g w l) : BootstrapKept g (w.step g l) := by
  cases l with
  | claims k jobId => exact bootstrapKept_claims h k jobId
  | pages k => exact bootstrapKept_pages h hgood
  | enqueues k => exact bootstrapKept_enqueues h k
  | continues k => exact bootstrapKept_continues h k
  | schedules k => exact bootstrapKept_schedules h k
  | counts k => exact bootstrapKept_counts h hgood
  | promotes k => exact bootstrapKept_promotes h k
  | ends k => exact bootstrapKept_ends h k
  | dies k reported => exact bootstrapKept_dies h k reported
  | starts jobId =>
    simp only [Bootstrapping.step]
    split
    · exact h.of_jobs (jobsOnly_startJob jobId w.tables) fun _ hp => Or.inl hp
    · exact h
  | begins jobId reading => exact bootstrapKept_begins h jobId reading
  | completes jobId reading => exact bootstrapKept_completes h jobId reading
  | fails jobId => exact bootstrapKept_fails h jobId
  | debounces jobId =>
    simp only [Bootstrapping.step]
    split
    · next g' _ _ => exact h.of_jobs (jobsOnly_insertFinalize g' w.tables) fun _ hp => Or.inl hp
    · exact h
  | closes jobId status =>
    simp only [Bootstrapping.step]
    split
    · exact h.of_jobs (jobsOnly_closeJob jobId status w.tables) fun _ hp => Or.inl hp
    · exact h
  | mails mail => exact bootstrapKept_mails h mail

/-! ## Runs -/

theorem bootstrapKept_start (g : Nat) (s : Tables) (mail : List MailRow) :
    BootstrapKept g (Bootstrapping.start g s mail) := by
  have hnone : ∀ x, (Bootstrapping.start g s mail).tables.hasJob g x = false := by
    intro x
    rw [← Bool.not_eq_true]
    intro hjob
    have hold := (jobsOnly_enqueueBootstrap g 0 _).old g x hjob
    obtain ⟨j, hj, hg, _⟩ := hasJob_iff.1 hold
    simpa [hg] using (List.mem_filter.1 hj).2
  refine ⟨?_, ?_, ?_, ?_, ?_, ?_⟩
  · intro x hx
    cases hx.symm.trans (hnone x)
  · intro r hr hg
    rw [Bootstrapping.start, (jobsOnly_enqueueBootstrap g 0 _).semantics] at hr
    simpa [hg] using (List.mem_filter.1 hr).2
  · intro y hy
    obtain ⟨m, hm, rfl⟩ := List.mem_map.1 hy
    obtain ⟨hmem, hel⟩ := List.mem_filter.1 hm
    exact List.any_eq_true.2 ⟨m, hmem, by simp [hel]⟩
  · intro p hp
    cases hp
  · intro hcovered
    cases hcovered
  · intro hpromoted
    cases hpromoted

/-- **Promotion only when complete**, in every run in which no page skips a message that has
been eligible since the start and has no job, and no finalize job counts to nothing before
the last page has been enqueued. -/
theorem promotion_complete (g : Nat) (s : Tables) (mail : List MailRow) (ls : List BootstrapLabel)
    (h : Along (Bootstrapping.step g) (KeepsComplete g) (Bootstrapping.start g s mail) ls) :
    Throughout (Bootstrapping.step g) (Bootstrapping.IsComplete g)
      (Bootstrapping.start g s mail) ls := by
  have hkept := throughout_of_step (fun _ _ hw hl => bootstrapKept_step hw hl)
    (bootstrapKept_start g s mail) h
  refine Throughout.mono ?_ hkept
  intro w hw hpromoted y hy
  have hended := hw.promoted hpromoted y hy
  exact ⟨hw.listed y.1 (hasJob_of_hasEnded hended), hended⟩

/-- A building generation of an account whose mailbox has these messages. -/
def building (ids : List Nat) : Tables :=
  { Tables.fresh (ids.map fun x => ⟨x, x⟩) with
    profile := some ⟨true, true, .focused, .disabled, none, 0⟩
    generations := [⟨0, .building, .focused, none, false⟩]
    nextId := 1 }

def eligibleMail (ids : List Nat) : List MailRow := ids.map fun x => ⟨x, x, 1, true, false⟩

theorem promotion_complete_one :
    Throughout (Bootstrapping.step 0) (Bootstrapping.IsComplete 0)
      (Bootstrapping.start 0 (building [7]) (eligibleMail [7]))
      [.claims 1 1, .pages 1, .enqueues 1, .continues 1, .schedules 1, .starts 2,
        .begins 2 ⟨1, "text"⟩, .completes 2 ⟨1, "text"⟩, .closes 2 .succeeded, .claims 2 3,
        .counts 2, .promotes 2] := by
  apply promotion_complete
  refine ⟨trivial, ?_, trivial, trivial, trivial, trivial, trivial, trivial, trivial, trivial, ?_,
    trivial, trivial⟩
  · -- The first page skips nothing.
    intro p hp offset hstage y hy
    obtain rfl : (⟨1, 1, .opened 0⟩ : Pager) = p := Option.some.inj hp
    obtain rfl : 0 = offset := by simpa using hstage
    cases hy
  · exact fun _ _ _ _ => rfl

/-! ### A full page and its jobs -/

/-- A page is enqueued, and each of its jobs runs to its end before the next one. -/
def pageRun : Nat → List (Nat × Nat) → List BootstrapLabel
  | _, [] => []
  | jobId, _ :: rest =>
    [.enqueues 1, .starts jobId, .begins jobId ⟨1, "text"⟩, .completes jobId ⟨1, "text"⟩,
      .closes jobId .succeeded] ++ pageRun (jobId + 1) rest

/-- A full first page is partly enqueued, and the jobs for its messages have run to their
end. -/
structure PageUnderWay (w : Bootstrapping) (rest : List (Nat × Nat)) (n : Nat) : Prop where
  pagers : w.pagers = [⟨1, 1, .enqueuing 0 true rest⟩]
  nextId : w.tables.nextId = n
  ids : ∀ j ∈ w.tables.jobs, j.id < n
  inactive : ∀ j ∈ w.tables.jobs, j.kind.isOrganize = true → j.status.isActive = false
  onePage : ∀ j ∈ w.tables.jobs, j.kind ≠ .bootstrap pageSize
  generations : w.tables.generations = [⟨0, .building, .focused, none, false⟩]

theorem enqueueAiJob_of_inactive (h : ∀ j ∈ s.jobs, j.kind = kind → j.status.isActive = false) :
    enqueueAiJob g kind s = insertAiJob g kind s := by
  rw [enqueueAiJob, if_neg]
  · rfl
  · intro hany
    obtain ⟨j, hj, ha⟩ := List.any_eq_true.1 hany
    obtain ⟨hmem, _, hk⟩ := mem_jobsOf.1 hj
    rw [h j hmem hk] at ha
    cases ha

variable {n : Nat}

theorem find_inserted {jobs : List AiJob} (h : ∀ j' ∈ jobs, j'.id < n) (kind : AiJobKind)
    (g : Nat) (status : JobStatus) :
    (jobs ++ [(⟨n, kind, g, status⟩ : AiJob)]).find? (fun j' => j'.id == n) =
      some ⟨n, kind, g, status⟩ := by
  rw [List.find?_append, List.find?_eq_none.2]
  · simp
  · intro j' hj' hid
    have := h j' hj'
    simp only [beq_iff_eq] at hid
    omega

theorem updateWhere_inserted {jobs : List AiJob} (h : ∀ j' ∈ jobs, j'.id < n)
    (q : AiJob → Bool) (f : AiJob → AiJob) (j : AiJob) :
    updateWhere (fun j' => j'.id == n && q j') f (jobs ++ [j]) =
      jobs ++ updateWhere (fun j' => j'.id == n && q j') f [j] := by
  rw [updateWhere, List.map_append]
  congr 1
  apply updateWhere_eq_self
  intro j' hj'
  have := h j' hj'
  have hne : j'.id ≠ n := by omega
  simp [hne]

/-- The tables with one more job for a message, which has come to this status. -/
def Tables.withJob (s : Tables) (messageId contentRevision : Nat) (status : JobStatus)
    (rows : List Semantics) : Tables :=
  { s with
    jobs := s.jobs ++ [⟨s.nextId, .organize messageId contentRevision, 0, status⟩]
    nextId := s.nextId + 1
    semantics := rows }

section OneJob

variable {s : Tables} {x revision : Nat} (hids : ∀ j ∈ s.jobs, j.id < s.nextId)
include hids

theorem organizeJob_withJob (status : JobStatus) (rows : List Semantics) :
    (s.withJob x revision status rows).organizeJob s.nextId = some (0, x) := by
  unfold Tables.organizeJob Tables.withJob
  dsimp only
  rw [find_inserted hids]
  rfl

theorem startJob_withJob (rows : List Semantics) :
    startJob s.nextId (s.withJob x revision .queued rows) = s.withJob x revision .running rows := by
  simp only [startJob, Tables.withJob, updateWhere_inserted hids]
  simp [updateWhere, JobStatus.isActive]

theorem closeJob_withJob (rows : List Semantics) :
    closeJob s.nextId .succeeded (s.withJob x revision .running rows) =
      s.withJob x revision .succeeded rows := by
  simp only [closeJob, Tables.withJob, updateWhere_inserted hids]
  simp [updateWhere]

end OneJob

theorem begun_withJob (s : Tables) (x revision : Nat) (status : JobStatus)
    (rows : List Semantics) (g y : Nat) (reading : Reading) :
    ∃ rows', ((beginMessageProcessing g y reading (s.withJob x revision status rows)).map
      Prod.fst).getD (s.withJob x revision status rows) = s.withJob x revision status rows' := by
  cases hbegin : beginMessageProcessing g y reading (s.withJob x revision status rows) with
  | none => exact ⟨rows, rfl⟩
  | some result =>
    obtain ⟨s', go⟩ := result
    refine ⟨s'.semantics, ?_⟩
    show s' = _
    rw [beginMessageProcessing_frame hbegin]
    rfl

theorem pageUnderWay_round {y : Nat × Nat} {rest : List (Nat × Nat)}
    (h : PageUnderWay w (y :: rest) n) :
    ∃ w', after (Bootstrapping.step 0) w [.enqueues 1, .starts n, .begins n ⟨1, "text"⟩,
        .completes n ⟨1, "text"⟩, .closes n .succeeded] = w' ∧
      PageUnderWay w' rest (n + 1) ∧ w'.steady = w.steady ∧ w'.enumerated = w.enumerated := by
  obtain ⟨x, revision⟩ := y
  obtain ⟨tables, mail, pagers, steady, enumerated, covered, promoted⟩ := w
  obtain ⟨hpagers, hnext, hids, hinactive, hpage, hgenerations⟩ := h
  simp only at hpagers hnext hids hinactive hpage hgenerations
  subst hpagers hnext
  have henqueue : enqueueAiJob 0 (.organize x revision) tables =
      tables.withJob x revision .queued tables.semantics := by
    rw [enqueueAiJob_of_inactive fun j hj hk => hinactive j hj (by rw [hk]; rfl)]
    rfl
  obtain ⟨rows, hbegun⟩ := begun_withJob tables x revision .running tables.semantics 0 x ⟨1, "text"⟩
  have hcompleted : ∃ rows', completeMessageSemantics 0 x ⟨1, "text"⟩
      (tables.withJob x revision .running rows) = tables.withJob x revision .running rows' :=
    ⟨_, rfl⟩
  obtain ⟨rows', hcompleted⟩ := hcompleted
  refine ⟨⟨tables.withJob x revision .succeeded rows', mail, [⟨1, 1, .enqueuing 0 true rest⟩],
    steady, enumerated, covered, promoted⟩, ?_, ⟨rfl, rfl, ?_, ?_, ?_, hgenerations⟩, rfl, rfl⟩
  · simp only [after, Bootstrapping.step, Bootstrapping.pager, Bootstrapping.goOn, updateWhere,
      List.find?_cons, List.map_cons, List.map_nil, beq_self_eq_true, if_true, henqueue,
      organizeJob_withJob hids, Option.isSome_some, startJob_withJob hids, hbegun, hcompleted,
      closeJob_withJob hids]
  · intro j hj
    rcases List.mem_append.1 hj with hj | hj
    · exact Nat.lt_succ_of_lt (hids j hj)
    · rw [List.mem_singleton.1 hj]
      exact Nat.lt_succ_self _
  · intro j hj hk
    rcases List.mem_append.1 hj with hj | hj
    · exact hinactive j hj hk
    · rw [List.mem_singleton.1 hj]
      rfl
  · intro j hj
    rcases List.mem_append.1 hj with hj | hj
    · exact hpage j hj
    · rw [List.mem_singleton.1 hj]
      exact fun hk => by cases hk

theorem pageUnderWay_run {rest : List (Nat × Nat)} (h : PageUnderWay w rest n) :
    PageUnderWay (after (Bootstrapping.step 0) w (pageRun n rest)) [] (n + rest.length) ∧
      (after (Bootstrapping.step 0) w (pageRun n rest)).steady = w.steady ∧
      (after (Bootstrapping.step 0) w (pageRun n rest)).enumerated = w.enumerated := by
  induction rest generalizing w n with
  | nil => exact ⟨h, rfl, rfl⟩
  | cons y rest ih =>
    obtain ⟨w', hrun, hw', hsteady, henumerated⟩ := pageUnderWay_round h
    rw [pageRun, after_append, hrun, ← hsteady, ← henumerated, List.length_cons,
      Nat.add_comm rest.length, ← Nat.add_assoc]
    exact ih hw'

def Tables.AllEnded (s : Tables) : Prop :=
  ∀ j ∈ s.jobs, j.kind.isOrganize = true → j.status.isActive = false

theorem allEnded_insert (h : s.AllEnded) (hkind : kind.isOrganize = false) :
    (insertAiJob g kind s).AllEnded := by
  intro j hj hk
  rcases List.mem_append.1 hj with hj | hj
  · exact h j hj hk
  · rw [List.mem_singleton.1 hj] at hk
    cases hkind.symm.trans hk

theorem allEnded_updateWhere (h : s.AllEnded) (hjobs : s'.jobs = updateWhere p f s.jobs)
    (hf : ∀ j, (f j).kind = j.kind) (hp : ∀ j, p j = true → j.status.isActive = true) :
    s'.AllEnded := by
  intro j hj hk
  rw [hjobs] at hj
  obtain ⟨j₀, h₀, rfl⟩ := mem_updateWhere.1 hj
  by_cases hpj : p j₀ = true
  · rw [if_pos hpj, hf] at hk
    have hinactive := h j₀ h₀ hk
    rw [hp j₀ hpj] at hinactive
    cases hinactive
  · rw [if_neg hpj] at hk ⊢
    exact h j₀ h₀ hk

theorem count_of_allEnded (h : s.AllEnded) (g : Nat) : countGenerationJobs g s = 0 := by
  rw [countGenerationJobs, List.countP_eq_zero]
  intro j hj hcounted
  simp only [Bool.and_eq_true] at hcounted
  have hinactive := h j hj hcounted.1.2
  rw [hcounted.2] at hinactive
  cases hinactive

theorem promoted_before_next_page (h : PageUnderWay w [] n) :
    ∃ w', after (Bootstrapping.step 0) w [.continues 1, .schedules 1, .ends 1, .claims 2 (n + 1),
        .counts 2, .promotes 2] = w' ∧
      w'.promoted = true ∧ w'.steady = w.steady ∧ w'.enumerated = w.enumerated := by
  obtain ⟨tables, mail, pagers, steady, enumerated, covered, promoted⟩ := w
  obtain ⟨hpagers, hnext, hids, hinactive, hpage, hgenerations⟩ := h
  simp only at hpagers hnext hids hinactive hpage hgenerations
  subst hpagers hnext
  have henqueue : enqueueAiJob 0 (.bootstrap (0 + pageSize)) tables =
      insertAiJob 0 (.bootstrap (0 + pageSize)) tables :=
    enqueueAiJob_of_inactive fun j hj hk => absurd (by simpa using hk) (hpage j hj)
  obtain ⟨scheduled, hscheduled⟩ : ∃ s, s =
      insertAiJob 0 .finalize (insertAiJob 0 (.bootstrap (0 + pageSize)) tables) := ⟨_, rfl⟩
  have hended : scheduled.AllEnded := by
    rw [hscheduled]
    exact allEnded_insert (allEnded_insert hinactive rfl) rfl
  -- The finalize job is queued, and its id is the last one.
  have hfind : (closeJob 1 .succeeded scheduled).jobs.find?
      (fun j => j.id == tables.nextId + 1 && j.status.isActive) =
        some ⟨tables.nextId + 1, .finalize, 0, .queued⟩ := by
    have hbefore : ∀ j ∈ tables.jobs ++
        [(⟨tables.nextId, .bootstrap (0 + pageSize), 0, .queued⟩ : AiJob)],
          j.id < tables.nextId + 1 := by
      intro j hj
      rcases List.mem_append.1 hj with hj | hj
      · exact Nat.lt_succ_of_lt (hids j hj)
      · rw [List.mem_singleton.1 hj]
        exact Nat.lt_succ_self _
    rw [closeJob_jobs, hscheduled]
    show (updateWhere _ _ ((tables.jobs ++ _) ++ _)).find? _ = _
    rw [updateWhere, List.map_append, List.find?_append, List.find?_eq_none.2]
    · simp [insertAiJob, JobStatus.isActive]
    intro j hj hid
    obtain ⟨j₀, h₀, rfl⟩ := mem_updateWhere.1 hj
    have hlt := hbefore j₀ h₀
    have hsame : j₀.id = tables.nextId + 1 := by
      by_cases hp : (j₀.id == 1 && j₀.status == .running) = true
      · rw [if_pos hp, Bool.and_eq_true, beq_iff_eq] at hid
        exact hid.1
      · rw [if_neg hp, Bool.and_eq_true, beq_iff_eq] at hid
        exact hid.1
    omega
  have hcount : countGenerationJobs 0
      (startJob (tables.nextId + 1) (closeJob 1 .succeeded scheduled)) = 0 := by
    refine count_of_allEnded (allEnded_updateWhere (allEnded_updateWhere hended
      (closeJob_jobs 1 .succeeded scheduled) (fun _ => rfl) ?_)
      (startJob_jobs _ _) (fun _ => rfl) ?_) 0
    · intro j hp
      simp only [Bool.and_eq_true, beq_iff_eq] at hp
      exact isActive_running hp.2
    · intro j hp
      simp only [Bool.and_eq_true] at hp
      exact hp.2
  have hgenerations' : (startJob (tables.nextId + 1)
      (closeJob 1 .succeeded scheduled)).generations.find? (fun g => g.id == 0) =
        some ⟨0, .building, .focused, none, false⟩ := by
    rw [hscheduled]
    show tables.generations.find? _ = _
    rw [hgenerations]
    rfl
  refine ⟨_, rfl, ?_, ?_, ?_⟩
  all_goals
    simp only [after, Bootstrapping.step, Bootstrapping.pager, Bootstrapping.goOn, updateWhere,
      List.find?_cons, List.find?_nil, List.map_cons, List.map_nil, List.filter_cons,
      List.filter_nil, beq_self_eq_true, bne_self_eq_false, if_true, henqueue, ← hscheduled, hfind,
      AiJobKind.firstStage, hcount, hgenerations', Bool.or_true, Bool.false_eq_true, if_false]

/-- A mailbox of 251 messages. The first page is full; its jobs run to their end before a
worker takes the second page, and the finalize job promotes the generation, which has never
listed message 250. -/
theorem promoted_before_last_page :
    ¬ Throughout (Bootstrapping.step 0) (Bootstrapping.IsComplete 0)
      (Bootstrapping.start 0 (building (List.range 251)) (eligibleMail (List.range 251)))
      ([.claims 1 1, .pages 1] ++
        (pageRun 2 ((List.range 250).map fun x => (x, 1)) ++
          [.continues 1, .schedules 1, .ends 1, .claims 2 253, .counts 2, .promotes 2])) := by
  intro h
  have hlast := h.last
  obtain ⟨w, hw⟩ : ∃ w, after (Bootstrapping.step 0)
      (Bootstrapping.start 0 (building (List.range 251)) (eligibleMail (List.range 251)))
      [.claims 1 1, .pages 1] = w := ⟨_, rfl⟩
  have hpage : PageUnderWay w ((List.range 250).map fun x => (x, 1)) 2 := by
    rw [← hw]
    exact ⟨by decide +kernel, by decide +kernel, by decide +kernel, by decide +kernel,
      by decide +kernel, by decide +kernel⟩
  obtain ⟨hdone, hsteady, henumerated⟩ := pageUnderWay_run hpage
  obtain ⟨w', hrun, hpromoted, hsteady', henumerated'⟩ := promoted_before_next_page hdone
  rw [after_append, hw, after_append] at hlast
  rw [List.length_map, List.length_range] at hrun
  rw [hrun] at hlast
  obtain ⟨hlisted, _⟩ := hlast hpromoted (250, 1) (by
    rw [hsteady', hsteady, ← hw]
    decide +kernel)
  rw [henumerated', henumerated, ← hw] at hlisted
  revert hlisted
  decide +kernel

end ElectronicMail.Matters
