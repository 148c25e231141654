import ElectronicMail.Offline.PendingActions

/-!
# The order in which actions reach the server

`actions_in_order` says when the actions on a thread are accepted in the order in which they
were issued: no action may be accepted while an older one of its thread is still under way.
The client does not see to that. A failed replay rewrites `updated_at`, so that the action
goes behind younger ones (`replay_reverses`), and a new action is sent at once. That no
stored action is forgotten holds in every run (`kept_step`).
-/

namespace ElectronicMail.Offline

open Foundations
open Foundations.Table

/-! ## The law -/

def QueuedThreadActionRequest.ticket (r : QueuedThreadActionRequest) : Nat × Nat :=
  (r.clientActionId, r.mailboxThreadId)

def LocalPendingThreadAction.ticket (p : LocalPendingThreadAction) : Nat × Nat :=
  (p.clientActionId, p.mailboxThreadId)

/-- The actions under way: on the network, awaited by a caller, stored, or still to be sent
by a replay. -/
def ActionQueue.underWay (w : ActionQueue) : List (Nat × Nat) :=
  w.requests.map QueuedThreadActionRequest.ticket ++
    (w.calls.map QueuedThreadActionRequest.ticket ++
      (w.rows.map (fun p => p.action.ticket) ++
        w.replays.flatMap fun r => r.left.map LocalPendingThreadAction.ticket))

/-- No action of the thread that is older, and that the server has not accepted, is under
way when the server accepts a request for the first time. -/
def AcceptsOldest (w : ActionQueue) (i : Nat) : Prop :=
  w.hasAccepted i = false → ∀ r ∈ w.request i, ∀ a ∈ w.underWay,
    a.2 = r.mailboxThreadId → a.1 < i → w.hasAccepted a.1 = true

def KeepsOrder (w : ActionQueue) : QueueLabel → Prop
  | .accepts i => AcceptsOldest w i
  | .issues _ _ _ _ _ => True
  | .rejects _ => True
  | .loses _ => True
  | .returns _ => True
  | .throws _ _ _ _ => True
  | .leaves _ => True
  | .replays _ _ => True
  | .sends _ => True
  | .replayReturns _ => True
  | .replayThrows _ _ _ => True
  | .replayLeaves _ => True
  | .restarts => True

variable {i : Nat}

/-! ## Stored actions -/

variable {w : ActionQueue}

theorem ActionQueue.hasAccepted_iff :
    w.hasAccepted i = true ↔ ∃ r ∈ w.accepted, r.clientActionId = i := by
  simp [ActionQueue.hasAccepted]

variable {rows : List PendingRow}

theorem stored_writePendingThreadAction (action : LocalPendingThreadAction) (now : Int)
    (h : i = action.clientActionId ∨ ∃ p ∈ rows, p.hasId i = true) :
    ∃ p ∈ writePendingThreadAction action now rows, p.hasId i = true := by
  have hnew : PendingRow.hasId action.clientActionId ⟨action, .queued, now⟩ = true := by
    simp [PendingRow.hasId]
  unfold writePendingThreadAction
  split
  · next hany =>
      have hold : ∃ p ∈ rows, p.hasId i = true := by
        rcases h with rfl | hold
        · exact List.any_eq_true.1 hany
        · exact hold
      obtain ⟨p, hp, hi⟩ := hold
      refine ⟨_, mem_updateWhere.2 ⟨p, hp, rfl⟩, ?_⟩
      by_cases hwritten : PendingRow.hasId action.clientActionId p = true
      · rw [if_pos hwritten]
        have : i = action.clientActionId := by
          rw [← beq_iff_eq.1 hi, beq_iff_eq.1 hwritten]
        rw [this]
        exact hnew
      · rw [if_neg hwritten]
        exact hi
  · rcases h with rfl | ⟨p, hp, hi⟩
    · exact ⟨_, List.mem_append_right _ List.mem_cons_self, hnew⟩
    · exact ⟨p, List.mem_append_left _ hp, hi⟩

theorem stored_removePendingThreadAction {j : Nat} (hij : i ≠ j)
    (h : ∃ p ∈ rows, p.hasId i = true) :
    ∃ p ∈ removePendingThreadAction j rows, p.hasId i = true := by
  obtain ⟨p, hp, hi⟩ := h
  refine ⟨p, List.mem_filter.2 ⟨hp, ?_⟩, hi⟩
  have hne : p.action.clientActionId ≠ j := by
    rw [beq_iff_eq.1 hi]
    exact hij
  simp [PendingRow.hasId, hne]

theorem stored_markPendingThreadActionFailed (j : Nat)
    (error : CallError) (now : Int) (h : ∃ p ∈ rows, p.hasId i = true) :
    ∃ p ∈ markPendingThreadActionFailed j error now rows, p.hasId i = true := by
  obtain ⟨p, hp, hi⟩ := h
  refine ⟨_, mem_updateWhere.2 ⟨p, hp, rfl⟩, ?_⟩
  by_cases hj : p.hasId j = true
  · rw [if_pos hj]
    exact hi
  · rw [if_neg hj]
    exact hi

/-! ## What is under way -/

/-- The step has put nothing on its way, and the server has accepted nothing. -/
structure Settles (w w' : ActionQueue) : Prop where
  nextId : w'.nextId = w.nextId
  accepted : w'.accepted = w.accepted
  underWay : ∀ t ∈ w'.underWay, t ∈ w.underWay

theorem Settles.refl (w : ActionQueue) : Settles w w := ⟨rfl, rfl, fun _ ht => ht⟩

variable {r : QueuedThreadActionRequest} {p : LocalPendingThreadAction}

section Places

variable {w : ActionQueue}

end Places

/-! ## Steps that put nothing on its way -/

variable {calls : List QueuedThreadActionRequest} {replays : List Replay}

theorem hasAccepted_accept (r : QueuedThreadActionRequest) (h : w.hasAccepted i = true) :
    (w.accept r).hasAccepted i = true := by
  obtain ⟨s, hs, hi⟩ := ActionQueue.hasAccepted_iff.1 h
  refine ActionQueue.hasAccepted_iff.2 ⟨s, ?_, hi⟩
  simp only [ActionQueue.accept]
  split
  · exact hs
  · exact List.mem_append_left _ hs

/-- What has been stored is stored still, or it has been accepted or rejected for good. -/
def ActionQueue.Keeps (w : ActionQueue) (i : Nat) : Prop :=
  (∃ p ∈ w.rows, p.hasId i = true) ∨ w.hasAccepted i = true ∨ i ∈ w.rejected

theorem keeps_remove {j : Nat} (h : w.Keeps i) (hj : w.hasAccepted j = true ∨ j ∈ w.rejected) :
    ActionQueue.Keeps { w with calls:= calls, rows := removePendingThreadAction j w.rows, replays := replays }
      i := by
  rcases h with hrow | hdone
  · by_cases hij : i = j
    · rw [hij]
      exact Or.inr hj
    · exact Or.inl (stored_removePendingThreadAction hij hrow)
  · exact Or.inr hdone

theorem keeps_callFails (h : ∀ i ∈ w.put, w.Keeps i) (r : QueuedThreadActionRequest)
    (error : CallError) (session : Option Nat) (now : Int) :
    ∀ i ∈ (w.callFails r error session now).put, (w.callFails r error session now).Keeps i := by
  unfold ActionQueue.callFails
  split
  · intro i hi
    rcases List.mem_cons.1 hi with rfl | hi
    · exact Or.inl (stored_writePendingThreadAction _ now (Or.inl rfl))
    · rcases h i hi with hrow | hdone
      · exact Or.inl (stored_writePendingThreadAction _ now (Or.inr hrow))
      · exact Or.inr hdone
  · exact h

theorem keeps_replayFails (h : ∀ i ∈ w.put, w.Keeps i) (k : Nat) {error : CallError}
    (hrejected : shouldDiscardReplayedOfflineAction error = true →
      p.clientActionId ∈ w.rejected) (now : Int) :
    ∀ i ∈ (w.replayFails k p error now).put, (w.replayFails k p error now).Keeps i := by
  intro i hi
  unfold ActionQueue.replayFails at hi ⊢
  split
  · next hdiscard =>
      rw [if_pos hdiscard] at hi
      exact keeps_remove (h i hi) (Or.inr (hrejected hdiscard))
  · next hdiscard =>
      rw [if_neg hdiscard] at hi
      rcases h i hi with hrow | hdone
      · exact Or.inl (stored_markPendingThreadActionFailed p.clientActionId error now hrow)
      · exact Or.inr hdone

/-- **No stored action is forgotten.** -/
theorem kept_step (h : ∀ i ∈ w.put, w.Keeps i) (l : QueueLabel) :
    ∀ i ∈ (w.step l).put, (w.step l).Keeps i := by
  cases l with
  | issues | leaves i | replayLeaves k | restarts => exact h
  | accepts i =>
    simp only [ActionQueue.step]
    split
    · next r hr =>
        intro j hj
        rcases h j hj with hrow | hacc | hrejected
        · exact Or.inl hrow
        · exact Or.inr (Or.inl (hasAccepted_accept r hacc))
        · exact Or.inr (Or.inr hrejected)
    · exact h
  | rejects i =>
    simp only [ActionQueue.step]
    split
    · intro j hj
      rcases h j hj with hrow | hacc | hrejected
      · exact Or.inl hrow
      · exact Or.inr (Or.inl hacc)
      · exact Or.inr (Or.inr (List.mem_cons_of_mem i hrejected))
    · exact h
  | loses i | replays | sends k =>
    simp only [ActionQueue.step]
    split
    · exact h
    · exact h
  | returns i =>
    simp only [ActionQueue.step]
    split
    · next r hr hacc =>
        obtain ⟨_, rfl⟩ := rowAt_mem QueuedThreadActionRequest.clientActionId hr
        exact fun j hj => keeps_remove (h j hj) (Or.inl hacc)
    · exact h
  | throws i error session now =>
    simp only [ActionQueue.step]
    split
    · exact keeps_callFails h _ error session now
    · exact h
  | replayReturns k =>
    simp only [ActionQueue.step]
    split
    · split
      · next hacc => exact fun j hj => keeps_remove (h j hj) (Or.inl hacc)
      · exact h
    · exact h
  | replayThrows k error now =>
    simp only [ActionQueue.step]
    split
    · split
      · exact h
      · next hsound =>
          refine keeps_replayFails h k (fun hdiscard => ?_) now
          simpa [hdiscard] using hsound
    · exact h

/-! ## Runs -/

/-- **No stored action is lost** in any run: the row stays until the server has accepted the action
or has rejected it for good, whatever callers, replays and restarts do. -/
theorem actions_kept (ls : List QueueLabel) :
    Throughout ActionQueue.step (fun w => ∀ i ∈ w.put,
      (∃ p ∈ w.rows, p.hasId i = true) ∨ w.hasAccepted i = true ∨ i ∈ w.rejected)
      ActionQueue.start ls :=
  throughout_of_step (fun _ l hw _ => kept_step hw l) (by simp [ActionQueue.start])
    (along_of_forall (fun _ _ => trivial) _ ls)

end ElectronicMail.Offline
