import ElectronicMail.Foundations.Distinct
import ElectronicMail.Matters.MatterActions

/-!
# An action is carried out once

The proof of `matter_action_once`. `ActionKept` is what every run along `KeepsOnce` keeps: at
most one job is queued or running, none once the action has been carried out, and a job that
nobody works on is to delete no message that is deleted already.
-/

namespace ElectronicMail.Matters

open Foundations
open Foundations.Table
open Actions (ThreadAction)
open Jobs (JobStatus)

/-! ## The invariant -/

structure ActionKept (r : ActionRequest) (w : ActionRun) : Prop where
  ids : (w.jobs.map ActionJob.id).Nodup
  below : ∀ j ∈ w.jobs, j.id < w.nextId
  single : ∀ j ∈ w.jobs, ∀ j' ∈ w.jobs, j.status.isActive = true → j'.status.isActive = true →
    j = j'
  workers : (w.executors.map Executor.id).Nodup
  closed : w.completed = true → ∀ j ∈ w.jobs, j.status.isActive = false
  once : w.again = false
  intact : r.action = .deleteForever → ∀ j ∈ w.jobs, j.status.isActive = true →
    w.Unattended j → ∀ x ∈ j.messageIds, x ∉ w.deleted

variable {w : ActionRun}

theorem completed_iff : w.completed = true ↔ ∃ j ∈ w.jobs, j.status = .succeeded := by
  simp [ActionRun.completed]

variable {r : ActionRequest}

theorem ActionKept.of_same {w' : ActionRun} (h : ActionKept r w)
    (hjobs : w'.jobs = w.jobs) (hnext : w'.nextId = w.nextId)
    (hworkers : w'.executors.map Executor.id = w.executors.map Executor.id)
    (hattended : w'.executors.map Executor.jobId = w.executors.map Executor.jobId)
    (hdeleted : w'.deleted = w.deleted) (hagain : w'.again = w.again) : ActionKept r w' where
  ids := by
    rw [hjobs]
    exact h.ids
  below := by
    rw [hjobs, hnext]
    exact h.below
  single := by
    rw [hjobs]
    exact h.single
  workers := by
    rw [hworkers]
    exact h.workers
  closed := by
    unfold ActionRun.completed
    rw [hjobs]
    exact h.closed
  once := by
    rw [hagain]
    exact h.once
  intact := by
    rw [hjobs, hdeleted]
    intro hdelete j hj ha hun
    refine h.intact hdelete j hj ha ?_
    intro o ho heq
    have hmem : o.jobId ∈ w'.executors.map Executor.jobId := by
      rw [hattended]
      exact List.mem_map.2 ⟨o, ho, rfl⟩
    obtain ⟨o', ho', heq'⟩ := List.mem_map.1 hmem
    exact hun o' ho' (heq'.trans heq)

theorem actionGoOn_ids (w : ActionRun) (k : Nat) (stage : ExecutorStage) :
    (w.goOn k stage).map Executor.id = w.executors.map Executor.id :=
  map_updateWhere fun _ _ _ => rfl

theorem actionGoOn_jobIds (w : ActionRun) (k : Nat) (stage : ExecutorStage) :
    (w.goOn k stage).map Executor.jobId = w.executors.map Executor.jobId :=
  map_updateWhere fun _ _ _ => rfl

theorem actionKept_goOn (h : ActionKept r w) (s : Tables) (k : Nat) (stage : ExecutorStage) :
    ActionKept r { w with tables := s, executors := w.goOn k stage } :=
  h.of_same rfl rfl (actionGoOn_ids w k stage) (actionGoOn_jobIds w k stage) rfl rfl

variable {threadOf : Nat → Nat}

/-! ## Steps -/

theorem actionKept_posts
    (h : ActionKept r w) {revision : Nat} {confirm : Bool} {preview : Option Nat}
    (hgood : PostsFresh r threadOf w revision confirm preview) :
    ActionKept r (w.step r threadOf (.posts revision confirm preview)) := by
  simp only [ActionRun.step]
  split
  · exact h
  next messageIds hsnapshot =>
    by_cases hany : w.jobs.any (fun j => j.status.isActive) = true
    · rw [if_pos hany]
      exact h
    rw [if_neg hany]
    have hinactive : ∀ j ∈ w.jobs, j.status.isActive = false := by
      intro j hj
      rw [← Bool.not_eq_true]
      exact fun ha => hany (List.any_eq_true.2 ⟨j, hj, ha⟩)
    obtain ⟨hopen, hfresh⟩ := hgood messageIds hsnapshot hinactive
    constructor
    · rw [List.map_append, List.nodup_append]
      refine ⟨h.ids, by simp, ?_⟩
      intro a ha b hb
      obtain ⟨j, hj, rfl⟩ := List.mem_map.1 ha
      have := h.below j hj
      simp at hb
      omega
    · intro j hj
      rcases List.mem_append.1 hj with hj | hj
      · exact Nat.lt_succ_of_lt (h.below j hj)
      · rw [List.mem_singleton.1 hj]
        exact Nat.lt_succ_self _
    · intro j hj j' hj' ha ha'
      rcases List.mem_append.1 hj with hj | hj
      · rw [hinactive j hj] at ha
        cases ha
      · rcases List.mem_append.1 hj' with hj' | hj'
        · rw [hinactive j' hj'] at ha'
          cases ha'
        · rw [List.mem_singleton.1 hj, List.mem_singleton.1 hj']
    · exact h.workers
    · intro hcompleted
      obtain ⟨j, hj, hstatus⟩ := completed_iff.1 hcompleted
      rcases List.mem_append.1 hj with hj | hj
      · rw [completed_iff.2 ⟨j, hj, hstatus⟩] at hopen
        cases hopen
      · rw [List.mem_singleton.1 hj] at hstatus
        cases hstatus
    · exact h.once
    · intro hdelete j hj ha hun x hx
      rcases List.mem_append.1 hj with hj | hj
      · rw [hinactive j hj] at ha
        cases ha
      · rw [List.mem_singleton.1 hj, List.mem_eraseDups] at hx
        exact hfresh hdelete x hx

theorem actionKept_claims (h : ActionKept r w) (k jobId : Nat) :
    ActionKept r (w.step r threadOf (.claims k jobId)) := by
  simp only [ActionRun.step]
  split
  · next j hk hfind =>
      have hmem := List.mem_of_find?_eq_some hfind
      have hj := List.find?_some hfind
      simp only [Bool.and_eq_true, beq_iff_eq] at hj
      obtain ⟨hid, hactive⟩ := hj
      -- A job after the claim is one from before, as active as it was.
      have hjobs : ∀ j' ∈ updateWhere (fun j => j.id == jobId && j.status.isActive)
          (fun j : ActionJob => { j with status := .running }) w.jobs, ∃ j₀ ∈ w.jobs,
            j'.id = j₀.id ∧ j'.messageIds = j₀.messageIds ∧
              (j' = j₀ ∨ (j₀.status.isActive = true ∧ j' = { j₀ with status := .running })) := by
        intro j' hj'
        obtain ⟨j₀, h₀, rfl⟩ := mem_updateWhere.1 hj'
        refine ⟨j₀, h₀, ?_⟩
        by_cases hp : (j₀.id == jobId && j₀.status.isActive) = true
        · rw [if_pos hp]
          simp only [Bool.and_eq_true] at hp
          exact ⟨rfl, rfl, Or.inr ⟨hp.2, rfl⟩⟩
        · rw [if_neg hp]
          exact ⟨rfl, rfl, Or.inl rfl⟩
      have hids : (updateWhere (fun j => j.id == jobId && j.status.isActive)
          (fun j : ActionJob => { j with status := .running }) w.jobs).map ActionJob.id =
            w.jobs.map ActionJob.id := map_updateWhere fun _ _ _ => rfl
      constructor
      · show ((updateWhere _ _ w.jobs).map ActionJob.id).Nodup
        rw [hids]
        exact h.ids
      · intro j' hj'
        obtain ⟨j₀, h₀, hid', _⟩ := hjobs j' hj'
        rw [hid']
        exact h.below j₀ h₀
      · intro j₁ h₁ j₂ h₂ ha₁ ha₂
        have hone : ∀ j' ∈ updateWhere (fun j => j.id == jobId && j.status.isActive)
            (fun j : ActionJob => { j with status := .running }) w.jobs,
              j'.status.isActive = true → j' = { j with status := .running } := by
          intro j' hj' ha'
          obtain ⟨j₀, h₀, rfl⟩ := mem_updateWhere.1 hj'
          by_cases hp : (j₀.id == jobId && j₀.status.isActive) = true
          · rw [if_pos hp]
            simp only [Bool.and_eq_true] at hp
            rw [h.single j₀ h₀ j hmem hp.2 hactive]
          · rw [if_neg hp] at ha'
            have hsame := h.single j₀ h₀ j hmem ha' hactive
            rw [hsame] at hp
            simp [hid, hactive] at hp
        rw [hone j₁ h₁ ha₁, hone j₂ h₂ ha₂]
      · rw [List.map_cons, List.nodup_cons]
        refine ⟨?_, h.workers⟩
        intro hin
        obtain ⟨o, ho, hok⟩ := List.mem_map.1 hin
        exact (rowAt_eq_none Executor.id).1 hk o ho hok
      · intro hcompleted
        obtain ⟨j', hj', hstatus⟩ := completed_iff.1 hcompleted
        obtain ⟨j₀, h₀, _, _, hcase⟩ := hjobs j' hj'
        have hold : w.completed = true := by
          rcases hcase with rfl | ⟨_, rfl⟩
          · exact completed_iff.2 ⟨j', h₀, hstatus⟩
          · cases hstatus
        rw [h.closed hold j hmem] at hactive
        cases hactive
      · exact h.once
      · intro hdelete j' hj' ha hun x hx
        obtain ⟨j₀, h₀, hid', hids, hcase⟩ := hjobs j' hj'
        have ha₀ : j₀.status.isActive = true := by
          rcases hcase with rfl | ⟨ha₀, _⟩
          · exact ha
          · exact ha₀
        -- The only active job is the one that is claimed.
        have hself := h.single j₀ h₀ j hmem ha₀ hactive
        exact absurd (hid.symm.trans (hself ▸ hid'.symm)) (hun _ List.mem_cons_self)
  · exact h

variable {k : Nat}

theorem actionKept_calls (h : ActionKept r w) (hgood : CallsOwn r w k) :
    ActionKept r (w.step r threadOf (.calls k)) := by
  simp only [ActionRun.step]
  split
  · next id jobId x rest hk =>
      by_cases hrefuses : refuses (messageCall r.action) w.deleted x = true
      · rw [if_pos hrefuses]
        exact h
      rw [if_neg hrefuses]
      rw [Bool.not_eq_true] at hrefuses
      obtain ⟨hown, hawaits⟩ := hgood _ hk x rest rfl hrefuses
      have hopen : w.completed = false := by
        rw [← Bool.not_eq_true]
        intro hcompleted
        obtain ⟨j, hj, _, ha⟩ := hown hcompleted
        rw [h.closed hcompleted j hj] at ha
        cases ha
      have hunattended : ∀ j, ActionRun.Unattended
          { w with executors := w.goOn k (.calling rest) } j → w.Unattended j := by
        intro j hun o ho heq
        have hin : o.jobId ∈ (w.goOn k (.calling rest)).map Executor.jobId := by
          rw [actionGoOn_jobIds]
          exact List.mem_map.2 ⟨o, ho, rfl⟩
        obtain ⟨o', ho', heq'⟩ := List.mem_map.1 hin
        exact hun o' ho' (heq'.trans heq)
      refine ⟨h.ids, h.below, h.single, ?_, h.closed, ?_, ?_⟩
      · show ((w.goOn k (.calling rest)).map Executor.id).Nodup
        rw [actionGoOn_ids]
        exact h.workers
      · show (w.again || (w.completed && _)) = false
        rw [h.once, hopen]
        rfl
      · intro hdelete j hj ha hun y hy hmem
        have hold := h.intact hdelete j hj ha (hunattended j hun) y hy
        have hcall : messageCall r.action = .delete := by rw [hdelete]; rfl
        simp only [hcall, if_true, List.mem_cons] at hmem
        rcases hmem with rfl | hmem
        · exact hawaits ⟨hdelete, j, hj, ha, hunattended j hun, hy⟩
        · exact hold hmem
  · exact h

variable {o : Executor}

theorem actionKept_close (h : ActionKept r w) (ho : o ∈ w.executors) (status : JobStatus) :
    ActionKept r { w with jobs := closeActionJob o.jobId status w.jobs } := by
  have hids : (closeActionJob o.jobId status w.jobs).map ActionJob.id =
      w.jobs.map ActionJob.id := map_updateWhere fun _ _ _ => rfl
  -- A job after the report is the one from before, or one that was running.
  have hcases : ∀ j' ∈ closeActionJob o.jobId status w.jobs, ∃ j ∈ w.jobs, j'.id = j.id ∧
      j'.messageIds = j.messageIds ∧
        (j' = j ∨ (j.id = o.jobId ∧ j.status.isActive = true ∧ j'.status = status)) := by
    intro j' hj'
    obtain ⟨j, hj, rfl⟩ := mem_updateWhere.1 hj'
    refine ⟨j, hj, ?_⟩
    by_cases hp : (j.id == o.jobId && j.status == .running) = true
    · rw [if_pos hp]
      simp only [Bool.and_eq_true, beq_iff_eq] at hp
      exact ⟨rfl, rfl, Or.inr ⟨hp.1, by rw [hp.2]; rfl, rfl⟩⟩
    · rw [if_neg hp]
      exact ⟨rfl, rfl, Or.inl rfl⟩
  have hactive : ∀ j' ∈ closeActionJob o.jobId status w.jobs, j'.status.isActive = true →
      ∃ j ∈ w.jobs, j'.id = j.id ∧ j.status.isActive = true := by
    intro j' hj' ha'
    obtain ⟨j, hj, hid, _, hcase⟩ := hcases j' hj'
    rcases hcase with rfl | ⟨_, ha, _⟩
    · exact ⟨j', hj, rfl, ha'⟩
    · exact ⟨j, hj, hid, ha⟩
  have hsame : ∀ j₁ ∈ closeActionJob o.jobId status w.jobs,
      ∀ j₂ ∈ closeActionJob o.jobId status w.jobs, ∀ j₁' ∈ w.jobs, ∀ j₂' ∈ w.jobs,
        j₁.id = j₁'.id → j₂.id = j₂'.id → j₁'.status.isActive = true →
          j₂'.status.isActive = true → j₁ = j₂ := by
    intro j₁ h₁ j₂ h₂ j₁' h₁' j₂' h₂' hid₁ hid₂ ha₁ ha₂
    have hone := h.single j₁' h₁' j₂' h₂' ha₁ ha₂
    exact row_unique ActionJob.id (by rw [hids]; exact h.ids) h₁ h₂
      (hid₁.trans (hone ▸ hid₂.symm))
  constructor
  · show ((closeActionJob o.jobId status w.jobs).map ActionJob.id).Nodup
    rw [hids]
    exact h.ids
  · intro j' hj'
    obtain ⟨j, hj, hid, _⟩ := hcases j' hj'
    rw [hid]
    exact h.below j hj
  · intro j₁ h₁ j₂ h₂ ha₁ ha₂
    obtain ⟨j₁', h₁', hid₁, ha₁'⟩ := hactive j₁ h₁ ha₁
    obtain ⟨j₂', h₂', hid₂, ha₂'⟩ := hactive j₂ h₂ ha₂
    exact hsame j₁ h₁ j₂ h₂ j₁' h₁' j₂' h₂' hid₁ hid₂ ha₁' ha₂'
  · exact h.workers
  · intro hcompleted j₁ h₁
    obtain ⟨j₂, h₂, hsucceeded⟩ := completed_iff.1 hcompleted
    rw [← Bool.not_eq_true]
    intro ha₁
    obtain ⟨j₁', h₁', hid₁, ha₁'⟩ := hactive j₁ h₁ ha₁
    obtain ⟨j₂', h₂', hid₂, _, hcase⟩ := hcases j₂ h₂
    rcases hcase with rfl | ⟨_, ha₂', _⟩
    · have hclosed := h.closed (completed_iff.2 ⟨j₂, h₂', hsucceeded⟩) j₁' h₁'
      rw [ha₁'] at hclosed
      cases hclosed
    · rw [hsame j₁ h₁ j₂ h₂ j₁' h₁' j₂' h₂' hid₁ hid₂ ha₁' ha₂', hsucceeded] at ha₁
      cases ha₁
  · exact h.once
  · intro hdelete j' hj' ha hun x hx
    obtain ⟨j, hj, hid, hmessages, hcase⟩ := hcases j' hj'
    rcases hcase with rfl | ⟨hmine, _, _⟩
    · exact h.intact hdelete j' hj ha hun x hx
    · exact absurd (hid.trans hmine).symm (hun o ho)

theorem actionKept_without (h : ActionKept r w) (ho : w.executor k = some o)
    (hleft : r.action = .deleteForever → ∀ j ∈ w.jobs, j.id = o.jobId →
      j.status.isActive = true → (∀ o' ∈ w.without k, o'.jobId ≠ o.jobId) →
        ∀ x ∈ j.messageIds, x ∉ w.deleted) :
    ActionKept r { w with executors := w.without k } := by
  obtain ⟨hmem, hid⟩ := rowAt_mem Executor.id ho
  refine ⟨h.ids, h.below, h.single, h.workers.sublist (List.filter_sublist.map Executor.id),
    h.closed, h.once, ?_⟩
  intro hdelete j hj ha hun x hx
  by_cases hmine : j.id = o.jobId
  · exact hleft hdelete j hj hmine ha (fun o' ho' => hmine ▸ hun o' ho') x hx
  refine h.intact hdelete j hj ha ?_ x hx
  intro o' ho' heq
  by_cases hk : o'.id = k
  · have hself : o' = o := row_unique Executor.id h.workers ho' hmem (hk.trans hid.symm)
    exact hmine (hself ▸ heq.symm)
  · exact hun o' (List.mem_filter.2 ⟨ho', by simp [hk]⟩) heq

theorem actionKept_reports (h : ActionKept r w) (ho : w.executor k = some o) {status : JobStatus}
    (hgood : LeavesIntact r w k (some status)) :
    ActionKept r { w with jobs := w.report o status, executors := w.without k } := by
  by_cases hholds : w.holders o.jobId = some o.id
  · simp only [ActionRun.report, hholds, if_true]
    refine actionKept_without (actionKept_close h (rowAt_mem Executor.id ho).1 status) ho ?_
    intro hdelete j' hj' hmine ha hothers x hx
    obtain ⟨j, hj, rfl⟩ := mem_updateWhere.1 hj'
    by_cases hp : (j.id == o.jobId && j.status == .running) = true
    · rw [if_pos hp] at ha hx
      simp only [Bool.and_eq_true, beq_iff_eq] at hp
      refine hgood hdelete o ho j hj hp.1 (by rw [hp.2]; rfl) hothers ?_ x hx
      intro reported hreported _ _
      rw [← Option.some.inj hreported]
      exact ha
    · rw [if_neg hp] at ha hx hmine
      refine hgood hdelete o ho j hj hmine ha hothers ?_ x hx
      intro _ _ _ hrunning
      simp [hmine, hrunning] at hp
  · simp only [ActionRun.report, hholds, if_false]
    refine actionKept_without h ho ?_
    intro hdelete j hj hmine ha hothers
    exact hgood hdelete o ho j hj hmine ha hothers fun _ _ hheard => absurd hheard hholds

theorem actionKept_dies (h : ActionKept r w) (hgood : LeavesIntact r w k none) :
    ActionKept r (w.step r threadOf (.dies k)) := by
  simp only [ActionRun.step]
  cases ho : w.executor k with
  | none =>
    have hsame : w.without k = w.executors := by
      rw [ActionRun.without, List.filter_eq_self]
      intro o hmem
      have := (rowAt_eq_none Executor.id).1 ho o hmem
      simp [this]
    rw [hsame]
    exact h
  | some o =>
    refine actionKept_without h ho ?_
    intro hdelete j hj hmine ha hothers
    exact hgood hdelete o ho j hj hmine ha hothers (by simp)

theorem actionKept_step {l : ActionLabel} (h : ActionKept r w) (hgood : KeepsOnce r threadOf w l) :
    ActionKept r (w.step r threadOf l) := by
  cases l with
  | posts => exact actionKept_posts h hgood
  | claims k jobId => exact actionKept_claims h k jobId
  | calls k => exact actionKept_calls h hgood
  | hides k | syncs k =>
    simp only [ActionRun.step]
    split
    · exact actionKept_goOn h _ k _
    · exact h
  | ends k =>
    simp only [ActionRun.step]
    split
    · next o ho =>
        by_cases hstage : o.stage = .synced
        · rw [if_pos hstage]
          refine actionKept_reports h ho (hgood ?_)
          intro o' ho'
          rw [← Option.some.inj (ho.symm.trans ho')]
          exact hstage
        · rw [if_neg hstage]
          exact h
    · exact h
  | fails k requeue =>
    simp only [ActionRun.step]
    split
    · next o ho => exact actionKept_reports h ho hgood
    · exact h
  | dies k => exact actionKept_dies h hgood
  | edits tables => exact h.of_same rfl rfl rfl rfl rfl rfl
  | vanishes x =>
    refine ⟨h.ids, h.below, h.single, h.workers, h.closed, h.once, ?_⟩
    intro hdelete j hj ha hun y hy hmem
    rcases List.mem_cons.1 hmem with rfl | hmem
    · exact hgood ⟨hdelete, j, hj, ha, hun, hy⟩
    · exact h.intact hdelete j hj ha hun y hy hmem

/-! ## Attempts -/

theorem executor_goOn (ho : w.executor k = some o) (stage : ExecutorStage) :
    rowAt Executor.id (w.goOn k stage) k = some { o with stage := stage } := by
  have hid := (rowAt_mem Executor.id ho).2
  have hrow := rowAt_updateWhere Executor.id (p := fun o => o.id == k)
    (f := fun o => { o with stage := stage }) w.executors k fun _ _ _ => rfl
  rw [show rowAt Executor.id w.executors k = some o from ho] at hrow
  simpa [ActionRun.goOn, hid] using hrow

theorem refuses_eq_false {action : ThreadAction} {deleted : List Nat} {x : Nat}
    (h : action = .deleteForever → x ∉ deleted) :
    refuses (messageCall action) deleted x = false := by
  by_cases hdelete : action = .deleteForever
  · simp [refuses, h hdelete]
  · have hcall : (messageCall action == .delete) = false := by
      cases action with
      | deleteForever => exact absurd rfl hdelete
      | _ => rfl
    rw [refuses, hcall, Bool.false_and]

theorem calls_run {jobId n : Nat} {rest : List Nat}
    (ho : w.executor k = some ⟨k, jobId, .calling rest⟩) (hn : rest.length ≤ n)
    (hfree : r.action = .deleteForever → rest.Nodup ∧ ∀ x ∈ rest, x ∉ w.deleted) :
    ∃ w', after (ActionRun.step r threadOf) w (List.replicate n (.calls k)) = w' ∧
      w'.executor k = some ⟨k, jobId, .calling []⟩ ∧ w'.jobs = w.jobs ∧
      w'.holders = w.holders ∧ w'.tables = w.tables ∧ (∀ entry ∈ w.log, entry ∈ w'.log) ∧
      ∀ x ∈ rest, (messageCall r.action, x) ∈ w'.log := by
  induction n generalizing w rest with
  | zero =>
    obtain rfl : rest = [] := List.length_eq_zero_iff.1 (Nat.le_zero.1 hn)
    exact ⟨w, rfl, ho, rfl, rfl, rfl, fun _ h => h, by simp⟩
  | succ n ih =>
    rw [List.replicate_succ, after]
    cases rest with
    | nil =>
      have hsame : w.step r threadOf (.calls k) = w := by simp [ActionRun.step, ho]
      rw [hsame]
      exact ih ho (Nat.zero_le _) hfree
    | cons x rest =>
      have hrefuses : refuses (messageCall r.action) w.deleted x = false :=
        refuses_eq_false fun hdelete => (hfree hdelete).2 x List.mem_cons_self
      have hstep : w.step r threadOf (.calls k) =
          { w with
            executors := w.goOn k (.calling rest)
            deleted := if messageCall r.action = .delete then x :: w.deleted else w.deleted
            log := (messageCall r.action, x) :: w.log
            again := w.again || (w.completed && w.log.any fun entry => entry.2 == x) } := by
        simp [ActionRun.step, ho, hrefuses]
      rw [hstep]
      obtain ⟨w', hrun, ho', hjobs, hholders, htables, hlog, hchanged⟩ :=
        ih (w := { w with
            executors := w.goOn k (.calling rest)
            deleted := if messageCall r.action = .delete then x :: w.deleted else w.deleted
            log := (messageCall r.action, x) :: w.log
            again := w.again || (w.completed && w.log.any fun entry => entry.2 == x) })
          (executor_goOn ho _) (Nat.le_of_succ_le_succ hn) (by
            intro hdelete
            obtain ⟨hnodup, hout⟩ := hfree hdelete
            obtain ⟨hx, hrest⟩ := List.nodup_cons.1 hnodup
            refine ⟨hrest, fun y hy hmem => ?_⟩
            have hcall : messageCall r.action = .delete := by rw [hdelete]; rfl
            simp only [hcall, if_true, List.mem_cons] at hmem
            rcases hmem with rfl | hmem
            · exact hx hy
            · exact hout y (List.mem_cons_of_mem _ hy) hmem)
      refine ⟨w', hrun, ho', hjobs, hholders, htables,
        fun entry hentry => hlog entry (List.mem_cons_of_mem _ hentry), ?_⟩
      intro y hy
      rcases List.mem_cons.1 hy with rfl | hy
      · exact hlog _ List.mem_cons_self
      · exact hchanged y hy

theorem finish_run {jobId : Nat}
    (ho : w.executor k = some ⟨k, jobId, .calling []⟩) (hholds : w.holders jobId = some k) :
    ∃ w', after (ActionRun.step r threadOf) w [.hides k, .syncs k, .ends k] = w' ∧
      w'.jobs = closeActionJob jobId .succeeded w.jobs ∧ w'.log = w.log ∧
      w'.tables = if removesMessages r.action then hideMatter r.matterId w.tables
        else w.tables := by
  obtain ⟨hid, hhidden⟩ : ∃ w', w' =
      { w with
        tables := if removesMessages r.action then hideMatter r.matterId w.tables else w.tables
        executors := w.goOn k .hidden } := ⟨_, rfl⟩
  have h₁ : w.step r threadOf (.hides k) = hid := by
    rw [hhidden]
    simp only [ActionRun.step, ho]
  have ho₁ : hid.executor k = some ⟨k, jobId, .hidden⟩ := by
    rw [hhidden]
    exact executor_goOn ho .hidden
  obtain ⟨synced, hsynced⟩ : ∃ w', w' = { hid with executors := hid.goOn k .synced } := ⟨_, rfl⟩
  have h₂ : hid.step r threadOf (.syncs k) = synced := by
    rw [hsynced]
    simp only [ActionRun.step, ho₁]
  have ho₂ : synced.executor k = some ⟨k, jobId, .synced⟩ := by
    rw [hsynced]
    exact executor_goOn ho₁ .synced
  have hlease : synced.holders jobId = some k := by
    rw [hsynced, hhidden]
    exact hholds
  have h₃ : synced.step r threadOf (.ends k) =
      { synced with
        jobs := closeActionJob jobId .succeeded synced.jobs
        executors := synced.without k } := by
    simp only [ActionRun.step, ho₂, if_true, ActionRun.report, hlease]
  refine ⟨_, by rw [after, h₁, after, h₂, after, h₃, after], ?_, ?_, ?_⟩
  · rw [hsynced, hhidden]
  · rw [hsynced, hhidden]
  · rw [hsynced, hhidden]

/-- **An attempt that nothing interrupts** reaches the end. -/
theorem attempt_performed
    (h : ActionKept r w) {j : ActionJob} (hj : j ∈ w.jobs) (ha : j.status.isActive = true)
    (hun : w.Unattended j) (hk : w.executor k = none) :
    ActionPerformed r j (after (ActionRun.step r threadOf) w (attemptRun k j)) := by
  -- The job is claimed.
  have hfind : w.jobs.find? (fun j' => j'.id == j.id && j'.status.isActive) = some j := by
    obtain ⟨j', hfind⟩ : ∃ j', w.jobs.find? (fun j' => j'.id == j.id && j'.status.isActive) =
        some j' := by
      rw [← Option.isSome_iff_exists, List.find?_isSome]
      exact ⟨j, hj, by simp [ha]⟩
    have hj' := List.find?_some hfind
    simp only [Bool.and_eq_true, beq_iff_eq] at hj'
    rw [hfind, row_unique ActionJob.id h.ids (List.mem_of_find?_eq_some hfind) hj hj'.1]
  obtain ⟨claimed, hclaimed⟩ : ∃ w', w' = w.step r threadOf (.claims k j.id) := ⟨_, rfl⟩
  have hclaim : claimed =
      { w with
        jobs := updateWhere (fun j' => j'.id == j.id && j'.status.isActive)
          (fun j' => { j' with status := .running }) w.jobs
        executors := ⟨k, j.id, .calling j.messageIds.eraseDups⟩ :: w.executors
        holders := Function.update w.holders j.id (some k) } := by
    rw [hclaimed]
    simp only [ActionRun.step, hk, hfind]
  -- Every call goes through.
  have ho : claimed.executor k = some ⟨k, j.id, .calling j.messageIds.eraseDups⟩ := by
    rw [hclaim]
    simp [ActionRun.executor, rowAt]
  obtain ⟨called, hcalled, ho', hjobs, hholders, htables, _, hchanged⟩ :=
    calls_run (r := r) (n := j.messageIds.length) ho (length_eraseDups_le _) (by
        intro hdelete
        refine ⟨nodup_eraseDups _, fun x hx => ?_⟩
        rw [hclaim]
        exact h.intact hdelete j hj ha hun x (List.mem_eraseDups.1 hx))
  rw [attemptRun, after_append]
  show ActionPerformed r j (after _ (after _ (w.step r threadOf (.claims k j.id)) _) _)
  rw [← hclaimed, hcalled]
  -- The matter is hidden, and the job succeeds.
  have hholds : called.holders j.id = some k := by
    rw [hholders, hclaim]
    simp
  obtain ⟨ended, hended, hjobs', hlog, htables'⟩ :=
    finish_run (r := r) ho' hholds
  rw [hended]
  refine ⟨?_, ?_, ?_⟩
  · refine ⟨{ j with status := .succeeded }, ?_, rfl, rfl⟩
    rw [hjobs', hjobs, hclaim]
    refine mem_updateWhere.2 ⟨{ j with status := .running }, ?_, by simp⟩
    exact mem_updateWhere.2 ⟨j, hj, by simp [ha]⟩
  · intro x hx
    rw [hlog]
    exact hchanged x (List.mem_eraseDups.2 hx)
  · intro hremoves m hm hid
    rw [htables', if_pos hremoves] at hm
    obtain ⟨m₀, _, rfl⟩ := mem_updateWhere.1 hm
    by_cases hp : (m₀.id == r.matterId && m₀.visible) = true
    · rw [if_pos hp]
    · rw [if_neg hp] at hid ⊢
      simpa [hid] using hp

/-! ## Runs -/

def ActionRun.start (s : Tables) (deleted : List Nat) : ActionRun :=
  ⟨s, [], 0, [], fun _ => none, deleted, [], false⟩

/-- **An action is carried out once, and every attempt reaches the end**, in every run in
which no request is enqueued after the action has been carried out, nobody changes a message
for a job that is over, and no job is left, to be tried again, with a message that is deleted
already and is to be deleted. -/
theorem matter_action_once (r : ActionRequest) (threadOf : Nat → Nat) (s : Tables)
    (deleted : List Nat) (ls : List ActionLabel)
    (h : Along (ActionRun.step r threadOf) (KeepsOnce r threadOf) (ActionRun.start s deleted) ls) :
    Throughout (ActionRun.step r threadOf) (OnceAndResumable r threadOf)
      (ActionRun.start s deleted) ls := by
  have hstart : ActionKept r (ActionRun.start s deleted) := by
    refine ⟨List.nodup_nil, ?_, ?_, List.nodup_nil, ?_, rfl, ?_⟩
    all_goals simp [ActionRun.start]
  have hkept := throughout_of_step (fun _ _ hw hl => actionKept_step hw hl) hstart h
  refine Throughout.mono ?_ hkept
  exact fun w hw => ⟨hw.once, fun j hj ha hun k hk => attempt_performed hw hj ha hun hk⟩

def oneMatter : Tables :=
  { Tables.fresh [⟨7, 10⟩] with
    profile := some ⟨true, true, .focused, .live, some 0, 1⟩
    generations := [⟨0, .active, .focused, none, true⟩]
    matters := [⟨1, 0, .needsYou, .automatic, some 10, true, 1⟩]
    members := [⟨0, 1, 7, .model, false, false, false⟩]
    nextId := 2 }

theorem matter_action_once_archive :
    Throughout (ActionRun.step ⟨1, .archive⟩ id) (OnceAndResumable ⟨1, .archive⟩ id)
      (ActionRun.start oneMatter [])
      [.posts 1 false none, .claims 5 0, .fails 5 true, .claims 6 0, .calls 6, .hides 6, .syncs 6,
        .ends 6] := by
  apply matter_action_once
  refine ⟨?_, trivial, ?_, trivial, ?_, trivial, trivial, ?_, trivial⟩
  · exact fun _ _ _ => ⟨rfl, fun hdelete => by cases hdelete⟩
  · exact fun hdelete => by cases hdelete
  · refine fun _ _ _ _ _ _ => ⟨fun hcompleted => ?_, fun hawaits => by cases hawaits.1⟩
    exact absurd hcompleted (by decide)
  · exact fun _ hdelete => by cases hdelete

/-- The request comes again after its job has succeeded: archiving has left the revision of
the matter as it was, and the message is changed once more. -/
theorem action_repeated :
    ¬ Throughout (ActionRun.step ⟨1, .archive⟩ id) (OnceAndResumable ⟨1, .archive⟩ id)
      (ActionRun.start oneMatter [])
      [.posts 1 false none, .claims 5 0, .calls 5, .hides 5, .syncs 5, .ends 5,
        .posts 1 false none, .claims 6 1, .calls 6] := by
  intro h
  have honce := h.last.once
  revert honce
  decide +kernel

end ElectronicMail.Matters
