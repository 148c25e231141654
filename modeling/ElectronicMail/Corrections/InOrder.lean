import ElectronicMail.Corrections.Queue

/-!
# Corrections of one owner in order

A correction that is sent while an earlier one of its owner waits overtakes it, a replay sends
whatever waits under its scope for whoever is signed in, and a rejection other than a conflict is
taken for a failure. In the runs whose sends wait for what is before them and are for the owner of
the correction, and in which the server rejects by conflicts only, every correction goes to its
owner, in order, and stays until it is answered (`corrections_faithful`).
-/

namespace ElectronicMail.Corrections

open Foundations

/-! ## What is wanted -/

/-- The state of affairs after a run: requests have been sent for the owners of their corrections;
the corrections of an owner have taken effect in the order in which they were made; an accepted
correction waits or has been answered; and none waits that has been rejected for good. -/
structure Faithful (s : State) : Prop where
  owned : ∀ sending ∈ s.sendings, sending.owner = sending.decision.madeBy
  ordered : s.effects.Pairwise fun later earlier =>
    later.madeBy = earlier.madeBy → earlier.clientDecisionId < later.clientDecisionId
  kept : ∀ decision ∈ s.accepted,
    (∃ p ∈ s.pending, p.request = decision) ∨ decision.clientDecisionId ∈ s.answered
  unblocked : ∀ p ∈ s.pending, p.request.clientDecisionId ∉ s.rejected

/-- No earlier correction of the owner waits, and no request of the owner is under way. -/
def Clear (s : State) (decision : Decision) : Prop :=
  (∀ p ∈ s.pending, p.request.madeBy = decision.madeBy →
    decision.clientDecisionId ≤ p.request.clientDecisionId) ∧
  ∀ call ∈ s.calls, ∀ other ∈ call.inFlight, other.madeBy ≠ decision.madeBy

instance (s : State) (decision : Decision) : Decidable (Clear s decision) :=
  inferInstanceAs (Decidable (_ ∧ ∀ call ∈ s.calls, ∀ other ∈ call.inFlight, _))

/-- The condition on a step: a new correction is made only once those of its owner have been
answered; a replay sends what still waits, first things first, for the owner of the correction; and
an answer that comes is no permanent rejection but a conflict. -/
def Careful (s : State) : Event → Prop
  | .submitDecision matterId => Clear s (s.next matterId)
  | .replay i => ∀ decision ∈ s.calls[i]?.bind Call.next,
      (∃ p ∈ s.pending, p.request = decision) ∧
        s.session.owner decision.matterId = decision.madeBy ∧ Clear s decision
  | .deliver i lost => ∀ answer ∈ s.calls[i]?.bind Call.answer,
      lost = false → answer.isPermanentRejection = true → answer = .httpStatus 409
  | _ => True

instance (s : State) : (event : Event) → Decidable (Careful s event)
  | .session _ | .resetForAccountChange _ | .relaunch => inferInstanceAs (Decidable True)
  | .submitDecision matterId => inferInstanceAs (Decidable (Clear s (s.next matterId)))
  | .refresh | .loaded _ _ => inferInstanceAs (Decidable True)
  | .replay i => inferInstanceAs (Decidable (∀ decision ∈ s.calls[i]?.bind Call.next, _ ∧ _ ∧ _))
  | .serve _ _ => inferInstanceAs (Decidable True)
  | .deliver i lost =>
    inferInstanceAs (Decidable (∀ answer ∈ s.calls[i]?.bind Call.answer, lost = false → _ → _))

/-! ## The invariant -/

/-- What keeps corrections in order: what has taken effect was made before what waits or is under
way, what is under way before what waits, and an owner has one request under way. -/
structure Inv (s : State) : Prop where
  lt : ∀ g ∈ s.sendings, g.decision.clientDecisionId < s.made
  unique : ∀ g ∈ s.sendings, ∀ g' ∈ s.sendings,
    g.decision.clientDecisionId = g'.decision.clientDecisionId → g.decision = g'.decision
  pendingSent : ∀ p ∈ s.pending, ∃ g ∈ s.sendings, g.decision = p.request
  callsSent : ∀ (i : Nat) call d, s.calls[i]? = some call → call.inFlight = some d →
    ∃ g ∈ s.sendings, g.decision = d
  effectsSent : ∀ e ∈ s.effects, ∃ g ∈ s.sendings, g.decision = e
  rejectedSent : ∀ id ∈ s.rejected, id < s.made
  single : ∀ (i j : Nat) call call' d d', s.calls[i]? = some call → s.calls[j]? = some call' →
    call.inFlight = some d → call'.inFlight = some d' → d.madeBy = d'.madeBy → i = j
  unsaved : ∀ (i : Nat) d served, s.calls[i]? = some (.submitting d served) →
    (∀ p ∈ s.pending, p.request ≠ d) ∧ d.clientDecisionId ∉ s.rejected
  beforePending : ∀ p ∈ s.pending, ∀ e ∈ s.effects, e.madeBy = p.request.madeBy →
    e.clientDecisionId ≤ p.request.clientDecisionId
  beforeCall : ∀ (i : Nat) call d, s.calls[i]? = some call → call.inFlight = some d →
    ∀ e ∈ s.effects, e.madeBy = d.madeBy → e.clientDecisionId ≤ d.clientDecisionId
  first : ∀ (i : Nat) call d, s.calls[i]? = some call → call.inFlight = some d →
    ∀ p ∈ s.pending, p.request.madeBy = d.madeBy → d.clientDecisionId ≤ p.request.clientDecisionId
  faithful : Faithful s

theorem inv_start : Inv State.start := by
  refine ⟨?_, ?_, ?_, ?_, ?_, ?_, ?_, ?_, ?_, ?_, ?_, ⟨?_, ?_, ?_, ?_⟩⟩ <;> simp [State.start]

variable {i : Nat} {new : Call} {decision : Decision} {served : Option Answer}

section Steps

variable {s t : State}

theorem Inv.eq_of_id (h : Inv s) {d d' : Decision} (hd : ∃ g ∈ s.sendings, g.decision = d)
    (hd' : ∃ g ∈ s.sendings, g.decision = d')
    (hid : d.clientDecisionId = d'.clientDecisionId) : d = d' := by
  obtain ⟨g, hg, rfl⟩ := hd
  obtain ⟨g', hg', rfl⟩ := hd'
  exact h.unique g hg g' hg' hid

structure Quieter (s t : State) : Prop where
  inFlight : ∀ (i : Nat) call d, t.calls[i]? = some call → call.inFlight = some d →
    ∃ call', s.calls[i]? = some call' ∧ call'.inFlight = some d
  submitting : ∀ (i : Nat) d served, t.calls[i]? = some (.submitting d served) →
    ∃ served', s.calls[i]? = some (.submitting d served')

theorem Inv.quieter (h : Inv s) (hcalls : Quieter s t) (hmade : t.made = s.made)
    (hsendings : t.sendings = s.sendings) (hpending : t.pending = s.pending)
    (heffects : t.effects = s.effects) (haccepted : t.accepted = s.accepted)
    (hanswered : t.answered = s.answered) (hrejected : t.rejected = s.rejected) : Inv t := by
  refine ⟨?_, ?_, ?_, ?_, ?_, ?_, ?_, ?_, ?_, ?_, ?_, ⟨?_, ?_, ?_, ?_⟩⟩
  · rw [hsendings, hmade]
    exact h.lt
  · rw [hsendings]
    exact h.unique
  · rw [hpending, hsendings]
    exact h.pendingSent
  · intro i call d hcall hd
    obtain ⟨call', hcall', hd'⟩ := hcalls.inFlight i call d hcall hd
    rw [hsendings]
    exact h.callsSent i call' d hcall' hd'
  · rw [heffects, hsendings]
    exact h.effectsSent
  · rw [hrejected, hmade]
    exact h.rejectedSent
  · intro i j call call' d d' hcall hcall' hd hd' howner
    obtain ⟨before, hbefore, hbd⟩ := hcalls.inFlight i call d hcall hd
    obtain ⟨before', hbefore', hbd'⟩ := hcalls.inFlight j call' d' hcall' hd'
    exact h.single i j before before' d d' hbefore hbefore' hbd hbd' howner
  · intro i d served hcall
    obtain ⟨served', hbefore⟩ := hcalls.submitting i d served hcall
    rw [hpending, hrejected]
    exact h.unsaved i d served' hbefore
  · rw [hpending, heffects]
    exact h.beforePending
  · intro i call d hcall hd
    obtain ⟨call', hcall', hd'⟩ := hcalls.inFlight i call d hcall hd
    rw [heffects]
    exact h.beforeCall i call' d hcall' hd'
  · intro i call d hcall hd
    obtain ⟨call', hcall', hd'⟩ := hcalls.inFlight i call d hcall hd
    rw [hpending]
    exact h.first i call' d hcall' hd'
  · rw [hsendings]
    exact h.faithful.owned
  · rw [heffects]
    exact h.faithful.ordered
  · rw [haccepted, hpending, hanswered]
    exact h.faithful.kept
  · rw [hpending, hrejected]
    exact h.faithful.unblocked

theorem quieter_of_calls (hother : ∀ (j : Nat) call d, t.calls[j]? = some call →
    call.inFlight = some d → s.calls[j]? = some call) : Quieter s t := by
  refine ⟨?_, ?_⟩
  · intro j call d hcall hd
    exact ⟨call, hother j call d hcall hd, hd⟩
  · intro j d served hcall
    exact ⟨served, hother j _ d hcall rfl⟩

theorem quieter_set (hcalls : t.calls = s.calls.set i new)
    (hnew : new.inFlight = none) : Quieter s t := by
  refine quieter_of_calls fun j call d hcall hd => ?_
  rw [hcalls, List.getElem?_set] at hcall
  split at hcall
  · split at hcall
    · obtain rfl := Option.some.inj hcall
      rw [hnew] at hd
      cases hd
    · cases hcall
  · exact hcall

theorem quieter_append (hcalls : t.calls = s.calls ++ [new])
    (hnew : new.inFlight = none) : Quieter s t := by
  refine quieter_of_calls fun j call d hcall hd => ?_
  rw [hcalls, List.getElem?_append] at hcall
  split at hcall
  · exact hcall
  rw [List.getElem?_singleton] at hcall
  split at hcall
  · obtain rfl := Option.some.inj hcall
    rw [hnew] at hd
    cases hd
  · cases hcall

/-! ## Requests are sent -/

theorem Inv.submitDecision (h : Inv s) {matterId : String} (hclear : Clear s (s.next matterId)) :
    Inv (step s (.submitDecision matterId)) := by
  obtain ⟨hwaits, hflies⟩ := hclear
  have hsent : ∀ d, (∃ g ∈ s.sendings, g.decision = d) →
      ∃ g ∈ (step s (.submitDecision matterId)).sendings, g.decision = d := by
    rintro d ⟨g, hg, hd⟩
    exact ⟨g, List.mem_cons_of_mem _ hg, hd⟩
  have hold : ∀ d, (∃ g ∈ s.sendings, g.decision = d) → d.clientDecisionId < s.made := by
    rintro d ⟨g, hg, rfl⟩
    exact h.lt g hg
  have hcalls : ∀ (j : Nat) call, (step s (.submitDecision matterId)).calls[j]? = some call →
      s.calls[j]? = some call ∨
        (j = s.calls.length ∧ call = .submitting (s.next matterId) none) := by
    intro j call hcall
    simp only [step, List.getElem?_append] at hcall
    split at hcall
    · exact .inl hcall
    next hlength =>
      rw [List.getElem?_singleton] at hcall
      split at hcall
      · next hzero => exact .inr ⟨by omega, (Option.some.inj hcall).symm⟩
      · cases hcall
  have hnewPending : ∀ p ∈ s.pending, p.request.madeBy ≠ (s.next matterId).madeBy := by
    intro p hp howner
    have hle := hwaits p hp howner
    have hlt := hold _ (h.pendingSent p hp)
    simp only [State.next] at hle
    omega
  refine ⟨?_, ?_, ?_, ?_, ?_, ?_, ?_, ?_, ?_, ?_, ?_, ⟨?_, ?_, ?_, ?_⟩⟩
  · intro g hg
    rcases List.mem_cons.1 hg with rfl | hg
    · exact Nat.lt_succ_self _
    · exact Nat.lt_succ_of_lt (h.lt g hg)
  · intro g hg g' hg' hid
    rcases List.mem_cons.1 hg with rfl | hg
    · rcases List.mem_cons.1 hg' with rfl | hg'
      · rfl
      · have hlt := h.lt g' hg'
        simp only [State.next] at hid
        omega
    · rcases List.mem_cons.1 hg' with rfl | hg'
      · have hlt := h.lt g hg
        simp only [State.next] at hid
        omega
      · exact h.unique g hg g' hg' hid
  · exact fun p hp => hsent _ (h.pendingSent p hp)
  · intro j call d hcall hd
    rcases hcalls j call hcall with hcall | ⟨-, rfl⟩
    · exact hsent _ (h.callsSent j call d hcall hd)
    · obtain rfl := Option.some.inj hd
      exact ⟨_, List.mem_cons_self .., rfl⟩
  · exact fun e he => hsent _ (h.effectsSent e he)
  · exact fun id hid => Nat.lt_succ_of_lt (h.rejectedSent id hid)
  · intro j k call call' d d' hcall hcall' hd hd' howner
    rcases hcalls j call hcall with hcall | ⟨rfl, rfl⟩
    · rcases hcalls k call' hcall' with hcall' | ⟨rfl, rfl⟩
      · exact h.single j k call call' d d' hcall hcall' hd hd' howner
      · obtain rfl := Option.some.inj hd'
        exact absurd howner (hflies call (List.mem_of_getElem? hcall) d hd)
    · rcases hcalls k call' hcall' with hcall' | ⟨rfl, rfl⟩
      · obtain rfl := Option.some.inj hd
        exact absurd howner.symm (hflies call' (List.mem_of_getElem? hcall') d' hd')
      · rfl
  · intro j d served hcall
    rcases hcalls j _ hcall with hcall | ⟨-, hsubmitting⟩
    · exact h.unsaved j d served hcall
    obtain ⟨rfl, -⟩ := Call.submitting.inj hsubmitting
    refine ⟨?_, ?_⟩
    · intro p hp heq
      exact hnewPending p hp (by rw [heq])
    · intro hrejected
      exact absurd (h.rejectedSent _ hrejected) (Nat.lt_irrefl _)
  · exact h.beforePending
  · intro j call d hcall hd e he howner
    rcases hcalls j call hcall with hcall | ⟨-, rfl⟩
    · exact h.beforeCall j call d hcall hd e he howner
    · obtain rfl := Option.some.inj hd
      exact Nat.le_of_lt (hold e (h.effectsSent e he))
  · intro j call d hcall hd p hp howner
    rcases hcalls j call hcall with hcall | ⟨-, rfl⟩
    · exact h.first j call d hcall hd p hp howner
    · obtain rfl := Option.some.inj hd
      exact absurd howner (hnewPending p hp)
  · intro g hg
    rcases List.mem_cons.1 hg with rfl | hg
    · rfl
    · exact h.faithful.owned g hg
  · exact h.faithful.ordered
  · exact h.faithful.kept
  · exact h.faithful.unblocked

variable {rest : List Decision}

theorem Inv.replay (h : Inv s) (hcall : s.calls[i]? = some (.replaying (decision :: rest)))
    (hwaits : ∃ p ∈ s.pending, p.request = decision)
    (howner : s.session.owner decision.matterId = decision.madeBy) (hclear : Clear s decision) :
    Inv (step s (.replay i)) := by
  obtain ⟨hfirst, hflies⟩ := hclear
  obtain ⟨waiting, hwaiting, rfl⟩ := hwaits
  have hcalls : ∀ (j : Nat) call, (step s (.replay i)).calls[j]? = some call →
      s.calls[j]? = some call ∨ (j = i ∧ call = .awaiting waiting.request rest none) := by
    intro j call hj
    simp only [step, hcall, State.go, List.getElem?_set] at hj
    split at hj
    · next heq =>
        split at hj
        · exact .inr ⟨heq.symm, (Option.some.inj hj).symm⟩
        · cases hj
    · exact .inl hj
  have hsendings : (step s (.replay i)).sendings =
      ⟨waiting.request, s.session.owner waiting.request.matterId⟩ :: s.sendings := by
    simp only [step, hcall]
  have hpending : (step s (.replay i)).pending = s.pending := by simp only [step, hcall, State.go]
  have heffects : (step s (.replay i)).effects = s.effects := by simp only [step, hcall, State.go]
  have hmade : (step s (.replay i)).made = s.made := by simp only [step, hcall, State.go]
  have hrejected : (step s (.replay i)).rejected = s.rejected := by
    simp only [step, hcall, State.go]
  have hanswered : (step s (.replay i)).answered = s.answered := by
    simp only [step, hcall, State.go]
  have haccepted : (step s (.replay i)).accepted = s.accepted := by
    simp only [step, hcall, State.go]
  have hknown := h.pendingSent waiting hwaiting
  have hsent : ∀ d, (∃ g ∈ s.sendings, g.decision = d) →
      ∃ g ∈ (step s (.replay i)).sendings, g.decision = d := by
    rintro d ⟨g, hg, hd⟩
    rw [hsendings]
    exact ⟨g, List.mem_cons_of_mem _ hg, hd⟩
  have hback : ∀ g ∈ (step s (.replay i)).sendings,
      ∃ g' ∈ s.sendings, g'.decision = g.decision := by
    intro g hg
    rw [hsendings] at hg
    rcases List.mem_cons.1 hg with rfl | hg
    · exact hknown
    · exact ⟨g, hg, rfl⟩
  refine ⟨?_, ?_, ?_, ?_, ?_, ?_, ?_, ?_, ?_, ?_, ?_, ⟨?_, ?_, ?_, ?_⟩⟩
  · intro g hg
    obtain ⟨g', hg', hsame⟩ := hback g hg
    rw [hmade, ← hsame]
    exact h.lt g' hg'
  · intro g hg g' hg' hid
    exact h.eq_of_id (hback g hg) (hback g' hg') hid
  · intro p hp
    rw [hpending] at hp
    exact hsent _ (h.pendingSent p hp)
  · intro j call d hj hd
    rcases hcalls j call hj with hj | ⟨-, rfl⟩
    · exact hsent _ (h.callsSent j call d hj hd)
    · obtain rfl := Option.some.inj hd
      exact hsent _ hknown
  · intro e he
    rw [heffects] at he
    exact hsent _ (h.effectsSent e he)
  · rw [hrejected, hmade]
    exact h.rejectedSent
  · intro j k call call' d d' hj hk hd hd' hsame
    rcases hcalls j call hj with hjold | ⟨hji, rfl⟩
    · rcases hcalls k call' hk with hkold | ⟨-, rfl⟩
      · exact h.single j k call call' d d' hjold hkold hd hd' hsame
      · obtain rfl := Option.some.inj hd'
        exact absurd hsame (hflies call (List.mem_of_getElem? hjold) d hd)
    · rcases hcalls k call' hk with hkold | ⟨hki, rfl⟩
      · obtain rfl := Option.some.inj hd
        exact absurd hsame.symm (hflies call' (List.mem_of_getElem? hkold) d' hd')
      · rw [hji, hki]
  · intro j d served hj
    rcases hcalls j _ hj with hj | ⟨-, hawaiting⟩
    · rw [hpending, hrejected]
      exact h.unsaved j d served hj
    · cases hawaiting
  · rw [hpending, heffects]
    exact h.beforePending
  · intro j call d hj hd e he hsame
    rw [heffects] at he
    rcases hcalls j call hj with hj | ⟨-, rfl⟩
    · exact h.beforeCall j call d hj hd e he hsame
    · obtain rfl := Option.some.inj hd
      exact h.beforePending waiting hwaiting e he hsame
  · intro j call d hj hd p hp hsame
    rw [hpending] at hp
    rcases hcalls j call hj with hj | ⟨-, rfl⟩
    · exact h.first j call d hj hd p hp hsame
    · obtain rfl := Option.some.inj hd
      exact hfirst p hp hsame
  · intro g hg
    rw [hsendings] at hg
    rcases List.mem_cons.1 hg with rfl | hg
    · exact howner
    · exact h.faithful.owned g hg
  · rw [heffects]
    exact h.faithful.ordered
  · rw [haccepted, hpending, hanswered]
    exact h.faithful.kept
  · rw [hpending, hrejected]
    exact h.faithful.unblocked

/-! ## Requests are served -/

theorem Inv.serve (h : Inv s) {old : Call} {answer : Answer}
    (hcall : s.calls[i]? = some old) (hold : old.inFlight = some decision)
    (hnew : new.inFlight = some decision)
    (hsubmitting : ∀ d served, new = .submitting d served → ∃ served', old = .submitting d served') :
    Inv ((s.take decision answer).go i new) := by
  have hcalls : ∀ (j : Nat) call d, ((s.take decision answer).go i new).calls[j]? = some call →
      call.inFlight = some d → ∃ call', s.calls[j]? = some call' ∧ call'.inFlight = some d := by
    intro j call d hj hd
    have hset : (s.calls.set i new)[j]? = some call := by
      unfold State.take at hj
      split at hj <;> exact hj
    rw [List.getElem?_set] at hset
    split at hset
    · next heq =>
        split at hset
        · obtain rfl := Option.some.inj hset
          subst heq
          exact ⟨old, hcall, by rw [hold, ← hnew, hd]⟩
        · cases hset
    · exact ⟨call, hset, hd⟩
  have hsubmits : ∀ (j : Nat) d served,
      ((s.take decision answer).go i new).calls[j]? = some (.submitting d served) →
      ∃ served', s.calls[j]? = some (.submitting d served') := by
    intro j d served hj
    have hset : (s.calls.set i new)[j]? = some (.submitting d served) := by
      unfold State.take at hj
      split at hj <;> exact hj
    rw [List.getElem?_set] at hset
    split at hset
    · next heq =>
        split at hset
        · obtain ⟨served', hsame⟩ := hsubmitting d served (Option.some.inj hset)
          subst heq
          exact ⟨served', by rw [hcall, hsame]⟩
        · cases hset
    · exact ⟨served, hset⟩
  have heffects : ∀ e ∈ ((s.take decision answer).go i new).effects, e ∈ s.effects ∨ e = decision := by
    intro e he
    unfold State.take at he
    split at he
    · rcases List.mem_cons.1 he with rfl | he
      · exact .inr rfl
      · exact .inl he
    · exact .inl he
  have hsent := h.callsSent i old decision hcall hold
  have hfields : (s.take decision answer).sendings = s.sendings ∧
      (s.take decision answer).made = s.made ∧ (s.take decision answer).pending = s.pending ∧
      (s.take decision answer).accepted = s.accepted ∧
      (s.take decision answer).answered = s.answered ∧
      (s.take decision answer).rejected = s.rejected := by
    unfold State.take
    split <;> exact ⟨rfl, rfl, rfl, rfl, rfl, rfl⟩
  obtain ⟨hsendings, hmade, hpending, haccepted, hanswered, hrejected⟩ := hfields
  refine ⟨?_, ?_, ?_, ?_, ?_, ?_, ?_, ?_, ?_, ?_, ?_, ⟨?_, ?_, ?_, ?_⟩⟩
  · simp only [State.go, hsendings, hmade]
    exact h.lt
  · simp only [State.go, hsendings]
    exact h.unique
  · simp only [State.go, hsendings, hpending]
    exact h.pendingSent
  · intro j call d hj hd
    obtain ⟨call', hcall', hd'⟩ := hcalls j call d hj hd
    simp only [State.go, hsendings]
    exact h.callsSent j call' d hcall' hd'
  · intro e he
    simp only [State.go, hsendings]
    rcases heffects e he with he | rfl
    · exact h.effectsSent e he
    · exact hsent
  · simp only [State.go, hrejected, hmade]
    exact h.rejectedSent
  · intro j k call call' d d' hj hk hd hd' hsame
    obtain ⟨before, hbefore, hbd⟩ := hcalls j call d hj hd
    obtain ⟨before', hbefore', hbd'⟩ := hcalls k call' d' hk hd'
    exact h.single j k before before' d d' hbefore hbefore' hbd hbd' hsame
  · intro j d served hj
    obtain ⟨served', hbefore⟩ := hsubmits j d served hj
    simp only [State.go, hpending, hrejected]
    exact h.unsaved j d served' hbefore
  · intro p hp e he hsame
    simp only [State.go, hpending] at hp
    rcases heffects e he with he | rfl
    · exact h.beforePending p hp e he hsame
    · exact h.first i old e hcall hold p hp hsame.symm
  · intro j call d hj hd e he hsame
    obtain ⟨before, hbefore, hbd⟩ := hcalls j call d hj hd
    rcases heffects e he with he | rfl
    · exact h.beforeCall j before d hbefore hbd e he hsame
    -- the owner has one request under way
    obtain rfl := h.single i j old before e d hcall hbefore hold hbd hsame
    rw [hcall] at hbefore
    obtain rfl := Option.some.inj hbefore
    rw [hold] at hbd
    obtain rfl := Option.some.inj hbd
    exact Nat.le_refl _
  · intro j call d hj hd p hp hsame
    obtain ⟨before, hbefore, hbd⟩ := hcalls j call d hj hd
    simp only [State.go, hpending] at hp
    exact h.first j before d hbefore hbd p hp hsame
  · simp only [State.go, hsendings]
    exact h.faithful.owned
  · simp only [State.go]
    unfold State.take
    split
    · next heffective =>
        rw [List.pairwise_cons]
        refine ⟨?_, h.faithful.ordered⟩
        intro e he hsame
        have hle := h.beforeCall i old decision hcall hold e he hsame.symm
        have hne : e.clientDecisionId ≠ decision.clientDecisionId := by
          intro hid
          have heq := h.eq_of_id (h.effectsSent e he) hsent hid
          exact heffective.2 (heq ▸ he)
        omega
    · exact h.faithful.ordered
  · simp only [State.go, hpending, haccepted, hanswered]
    exact h.faithful.kept
  · simp only [State.go, hpending, hrejected]
    exact h.faithful.unblocked

/-! ## Answers come -/

/-- The request of a correction has come to its end: the correction may have been saved, other
corrections may have been dropped, and it may have been rejected. -/
structure Ends (s t : State) (i : Nat) (decision : Decision) : Prop where
  calls : ∃ new : Call, new.inFlight = none ∧ t.calls = s.calls.set i new
  made : t.made = s.made
  sendings : t.sendings = s.sendings
  effects : t.effects = s.effects
  pending : ∀ p ∈ t.pending, p ∈ s.pending ∨ p.request = decision
  rejected : ∀ id ∈ t.rejected, id ∈ s.rejected ∨ id = decision.clientDecisionId
  kept : ∀ d ∈ t.accepted, (∃ p ∈ t.pending, p.request = d) ∨ d.clientDecisionId ∈ t.answered
  unblocked : ∀ p ∈ t.pending, p.request.clientDecisionId ∉ t.rejected

theorem Inv.ends (h : Inv s) {old : Call}
    (hcall : s.calls[i]? = some old) (hold : old.inFlight = some decision)
    (hends : Ends s t i decision) : Inv t := by
  obtain ⟨new, hnew, hset⟩ := hends.calls
  have hquieter : Quieter s t := quieter_set hset hnew
  have hsent := h.callsSent i old decision hcall hold
  -- another call under way is not for this owner
  have hother : ∀ (j : Nat) call d, t.calls[j]? = some call → call.inFlight = some d →
      d.madeBy ≠ decision.madeBy := by
    intro j call d hj hd hsame
    obtain ⟨before, hbefore, hbd⟩ := hquieter.inFlight j call d hj hd
    obtain rfl := h.single j i before old d decision hbefore hcall hbd hold hsame
    rw [hset, List.getElem?_set_self (List.getElem?_eq_some_iff.1 hcall).1] at hj
    obtain rfl := Option.some.inj hj
    rw [hnew] at hd
    cases hd
  refine ⟨?_, ?_, ?_, ?_, ?_, ?_, ?_, ?_, ?_, ?_, ?_, ⟨?_, ?_, hends.kept, hends.unblocked⟩⟩
  · rw [hends.sendings, hends.made]
    exact h.lt
  · rw [hends.sendings]
    exact h.unique
  · intro p hp
    rw [hends.sendings]
    rcases hends.pending p hp with hp | rfl
    · exact h.pendingSent p hp
    · exact hsent
  · intro j call d hj hd
    obtain ⟨before, hbefore, hbd⟩ := hquieter.inFlight j call d hj hd
    rw [hends.sendings]
    exact h.callsSent j before d hbefore hbd
  · rw [hends.effects, hends.sendings]
    exact h.effectsSent
  · intro id hid
    rw [hends.made]
    rcases hends.rejected id hid with hid | rfl
    · exact h.rejectedSent id hid
    · obtain ⟨g, hg, rfl⟩ := hsent
      exact h.lt g hg
  · intro j k call call' d d' hj hk hd hd' hsame
    obtain ⟨before, hbefore, hbd⟩ := hquieter.inFlight j call d hj hd
    obtain ⟨before', hbefore', hbd'⟩ := hquieter.inFlight k call' d' hk hd'
    exact h.single j k before before' d d' hbefore hbefore' hbd hbd' hsame
  · intro j d served hj
    obtain ⟨served', hbefore⟩ := hquieter.submitting j d served hj
    obtain ⟨hunsaved, hunrejected⟩ := h.unsaved j d served' hbefore
    have hne : d ≠ decision := by
      rintro rfl
      exact hother j _ d hj rfl rfl
    refine ⟨?_, ?_⟩
    · intro p hp
      rcases hends.pending p hp with hp | hsaved
      · exact hunsaved p hp
      · rw [hsaved]
        exact hne.symm
    · intro hrejected
      rcases hends.rejected _ hrejected with hrejected | hid
      · exact hunrejected hrejected
      · exact hne (h.eq_of_id (h.callsSent j _ d hbefore rfl) hsent hid)
  · intro p hp e he hsame
    rw [hends.effects] at he
    rcases hends.pending p hp with hp | hsaved
    · exact h.beforePending p hp e he hsame
    · rw [hsaved] at hsame ⊢
      exact h.beforeCall i old decision hcall hold e he hsame
  · intro j call d hj hd e he hsame
    obtain ⟨before, hbefore, hbd⟩ := hquieter.inFlight j call d hj hd
    rw [hends.effects] at he
    exact h.beforeCall j before d hbefore hbd e he hsame
  · intro j call d hj hd p hp hsame
    obtain ⟨before, hbefore, hbd⟩ := hquieter.inFlight j call d hj hd
    rcases hends.pending p hp with hp | hsaved
    · exact h.first j before d hbefore hbd p hp hsame
    · rw [hsaved] at hsame
      exact absurd hsame.symm (hother j call d hj hd)
  · rw [hends.sendings]
    exact h.faithful.owned
  · rw [hends.effects]
    exact h.faithful.ordered

/-- A correction that has been sent by `submitDecision` is new to the queue. -/
theorem Inv.append_eq (h : Inv s) (hcall : s.calls[i]? = some (.submitting decision served)) :
    append s.pending decision s.accountScopeId = s.pending ++ [⟨s.accountScopeId, decision⟩] := by
  unfold append
  rw [if_neg]
  intro hany
  obtain ⟨p, hp, hid⟩ := List.any_eq_true.1 hany
  have heq := h.eq_of_id (h.pendingSent p hp) (h.callsSent i _ decision hcall rfl)
    (of_decide_eq_true hid)
  exact (h.unsaved i decision served hcall).1 p hp heq

theorem note_of_passing {status : Nat}
    (hpassing : (Answer.httpStatus status).isPermanentRejection = false) :
    s.note decision (.httpStatus status) = s := by
  unfold State.note
  rw [hpassing]
  simp

theorem Inv.ends_save (h : Inv s) (hcall : s.calls[i]? = some (.submitting decision served)) :
    Ends s ((s.save decision).go i .ended) i decision := by
  have happend := h.append_eq hcall
  have hpending : ((s.save decision).go i .ended).pending =
      s.pending ++ [⟨s.accountScopeId, decision⟩] := by
    simp only [State.go, State.save, happend]
  refine ⟨⟨.ended, rfl, rfl⟩, rfl, rfl, rfl, ?_, fun id hid => .inl hid, ?_, ?_⟩
  · intro p hp
    rw [hpending] at hp
    rcases List.mem_append.1 hp with hp | hp
    · exact .inl hp
    · rw [List.mem_singleton.1 hp]
      exact .inr rfl
  · intro d hd
    rw [hpending]
    rcases List.mem_cons.1 hd with rfl | hd
    · exact .inl ⟨_, List.mem_append_right _ (List.mem_singleton.2 rfl), rfl⟩
    · rcases h.faithful.kept d hd with ⟨p, hp, hsame⟩ | hanswered
      · exact .inl ⟨p, List.mem_append_left _ hp, hsame⟩
      · exact .inr hanswered
  · intro p hp
    rw [hpending] at hp
    rcases List.mem_append.1 hp with hp | hp
    · exact h.faithful.unblocked p hp
    · rw [List.mem_singleton.1 hp]
      exact (h.unsaved i decision served hcall).2

theorem isPermanentRejection_conflict :
    (Answer.httpStatus 409).isPermanentRejection = true := by decide

theorem Inv.ends_submitted (h : Inv s)
    (hcall : s.calls[i]? = some (.submitting decision served)) (answer : Answer)
    (hconflict : answer.isPermanentRejection = true → answer = .httpStatus 409) :
    Ends s (s.submitted i decision (some answer)) i decision := by
  have hunsaved := h.unsaved i decision served hcall
  have hsent := h.callsSent i _ decision hcall rfl
  cases answer with
  | success =>
    refine ⟨⟨.refreshing (s.requestId + 1), rfl, rfl⟩, rfl, rfl, rfl, fun p hp => .inl hp,
      fun id hid => .inl hid, ?_, h.faithful.unblocked⟩
    intro d hd
    rcases List.mem_cons.1 hd with rfl | hd
    · exact .inr (List.mem_cons_self ..)
    · rcases h.faithful.kept d hd with hwaits | hanswered
      · exact .inl hwaits
      · exact .inr (List.mem_cons_of_mem _ hanswered)
  | httpStatus status =>
    by_cases hstatus : status = 409
    · subst hstatus
      refine ⟨⟨.refreshing (s.requestId + 1), rfl, rfl⟩, rfl, rfl, rfl, fun p hp => .inl hp,
        ?_, ?_, ?_⟩
      · intro id hid
        rcases List.mem_cons.1 hid with rfl | hid
        · exact .inr rfl
        · exact .inl hid
      · intro d hd
        rcases h.faithful.kept d hd with hwaits | hanswered
        · exact .inl hwaits
        · exact .inr (List.mem_cons_of_mem _ hanswered)
      · intro p hp hrejected
        rcases List.mem_cons.1 hrejected with hid | hrejected
        · exact hunsaved.1 p hp (h.eq_of_id (h.pendingSent p hp) hsent hid)
        · exact h.faithful.unblocked p hp hrejected
    · have hpassing : (Answer.httpStatus status).isPermanentRejection = false := by
        rw [Bool.eq_false_iff]
        intro hrejects
        exact hstatus (Answer.httpStatus.inj (hconflict hrejects))
      simp only [State.submitted, if_neg hstatus, note_of_passing hpassing]
      exact h.ends_save hcall

theorem Inv.ends_replayed (h : Inv s) (answer : Answer)
    (hconflict : answer.isPermanentRejection = true → answer = .httpStatus 409) :
    Ends s (s.replayed i decision rest (some answer)) i decision := by
  by_cases hdropped : answer = .success ∨ answer = .httpStatus 409
  · have hnoted : decision.clientDecisionId ∈ (s.note decision answer).answered := by
      unfold State.note
      rcases hdropped with rfl | rfl
      · simp
      · simp [isPermanentRejection_conflict]
    have hanswered : ∀ id ∈ s.answered, id ∈ (s.note decision answer).answered := by
      intro id hid
      unfold State.note
      simp only
      split
      · exact List.mem_cons_of_mem _ hid
      · exact hid
    have hrejected : ∀ id ∈ (s.note decision answer).rejected,
        id ∈ s.rejected ∨ id = decision.clientDecisionId := by
      intro id hid
      unfold State.note at hid
      simp only at hid
      split at hid
      · rcases List.mem_cons.1 hid with rfl | hid
        · exact .inr rfl
        · exact .inl hid
      · exact .inl hid
    simp only [State.replayed, if_pos hdropped]
    refine ⟨⟨.replaying rest, rfl, rfl⟩, rfl, rfl, rfl, ?_, hrejected, ?_, ?_⟩
    · intro p hp
      exact .inl (List.mem_filter.1 hp).1
    · intro d hd
      rcases h.faithful.kept d hd with ⟨p, hp, rfl⟩ | hd
      · by_cases hid : p.request.clientDecisionId = decision.clientDecisionId
        · right
          rw [hid]
          exact hnoted
        · exact .inl ⟨p, List.mem_filter.2 ⟨hp, decide_eq_true hid⟩, rfl⟩
      · exact .inr (hanswered _ hd)
    · intro p hp hin
      obtain ⟨hp, hid⟩ := List.mem_filter.1 hp
      rcases hrejected _ hin with hin | heq
      · exact h.faithful.unblocked p hp hin
      · exact of_decide_eq_true hid heq
  · have hnote : s.note decision answer = s := by
      cases answer with
      | success => exact absurd (.inl rfl) hdropped
      | httpStatus =>
        apply note_of_passing
        rw [Bool.eq_false_iff]
        intro hrejects
        exact hdropped (.inr (hconflict hrejects))
    simp only [State.replayed, if_neg hdropped, hnote]
    exact ⟨⟨.ended, rfl, rfl⟩, rfl, rfl, rfl, fun p hp => .inl hp, fun id hid => .inl hid,
      h.faithful.kept, h.faithful.unblocked⟩

/-! ## Runs -/

theorem Inv.deliver (h : Inv s) {lost : Bool}
    (hcareful : Careful s (.deliver i lost)) : Inv (step s (.deliver i lost)) := by
  simp only [Careful] at hcareful
  cases hcall : s.calls[i]? with
  | none =>
    have hsame : step s (.deliver i lost) = s := by simp only [step, hcall]
    rw [hsame]
    exact h
  | some call =>
    have hstep : step s (.deliver i lost) = s.delivered i lost call := by simp only [step, hcall]
    rw [hstep]
    rw [hcall] at hcareful
    cases call with
    | submitting decision served =>
      cases lost with
      | true => exact h.ends hcall rfl (h.ends_save hcall)
      | false =>
        cases served with
        | none => exact h
        | some answer =>
          exact h.ends hcall rfl (h.ends_submitted hcall answer (hcareful answer rfl rfl))
    | awaiting decision rest served =>
      cases lost with
      | true =>
        exact h.ends hcall rfl ⟨⟨.ended, rfl, rfl⟩, rfl, rfl, rfl, fun p hp => .inl hp,
          fun id hid => .inl hid, h.faithful.kept, h.faithful.unblocked⟩
      | false =>
        cases served with
        | none => exact h
        | some answer =>
          exact h.ends hcall rfl (h.ends_replayed answer (hcareful answer rfl rfl))
    | refreshing | replaying | ended => exact h

theorem Inv.step (h : Inv s) {event : Event} (hcareful : Careful s event) : Inv (step s event) := by
  cases event with
  | session | resetForAccountChange =>
    exact h.quieter ⟨fun i call d hcall hd => ⟨call, hcall, hd⟩,
      fun i d served hcall => ⟨served, hcall⟩⟩ rfl rfl rfl rfl rfl rfl rfl
  | relaunch =>
    refine h.quieter ⟨?_, ?_⟩ rfl rfl rfl rfl rfl rfl rfl
    · intro i call d hcall
      simp [Corrections.step] at hcall
    · intro i d served hcall
      simp [Corrections.step] at hcall
  | submitDecision => exact h.submitDecision hcareful
  | refresh => exact h.quieter (quieter_append rfl rfl) rfl rfl rfl rfl rfl rfl rfl
  | loaded =>
    simp only [Corrections.step]
    split
    · split
      · exact h.quieter (quieter_set rfl rfl) rfl rfl rfl rfl rfl rfl rfl
      · exact h.quieter (quieter_set rfl rfl) rfl rfl rfl rfl rfl rfl rfl
    · exact h
  | replay i =>
    cases hcall : s.calls[i]? with
    | none =>
      simp only [Corrections.step, hcall]
      exact h
    | some call =>
      cases call with
      | replaying decisions =>
        cases decisions with
        | nil =>
          simp only [Corrections.step, hcall]
          exact h
        | cons decision rest =>
          have hnext : decision ∈ s.calls[i]?.bind Call.next := by
            rw [hcall]
            rfl
          obtain ⟨hwaits, howner, hclear⟩ := hcareful decision hnext
          exact h.replay hcall hwaits howner hclear
      | submitting _ _ | refreshing _ | awaiting | ended =>
        simp only [Corrections.step, hcall]
        exact h
  | serve i =>
    cases hcall : s.calls[i]? with
    | none =>
      simp only [Corrections.step, hcall]
      exact h
    | some call =>
      simp only [Corrections.step, hcall]
      cases call with
      | submitting decision served =>
        cases served with
        | some _ => exact h
        | none =>
          refine h.serve hcall rfl rfl ?_
          rintro d served' hsame
          obtain ⟨rfl, -⟩ := Call.submitting.inj hsame
          exact ⟨none, rfl⟩
      | awaiting decision rest served =>
        cases served with
        | some _ => exact h
        | none =>
          refine h.serve hcall rfl rfl ?_
          rintro d served' hsame
          cases hsame
      | refreshing _ | replaying _ | ended => exact h
  | deliver => exact h.deliver hcareful

end Steps

/-- Corrections are faithfully sent throughout every run of careful steps. -/
theorem corrections_faithful {events : List Event}
    (hcareful : Along step Careful State.start events) :
    Throughout step Faithful State.start events := by
  have hinv : Throughout step Inv State.start events :=
    throughout_of_step (fun _ _ h hstep => h.step hstep) inv_start hcareful
  exact hinv.mono fun _ h => h.faithful

/-- A correction that cannot be sent is saved, and the next refresh sends it. -/
def savedAndSent : List Event :=
  [.session ⟨some "user", [("matter", "account")], none⟩, .submitDecision "matter",
    .deliver 0 true, .refresh, .loaded 1 true, .replay 1, .serve 1 .success, .deliver 1 false]

theorem corrections_faithful_of_one : Throughout step Faithful State.start savedAndSent :=
  corrections_faithful (by decide)

/-- A correction that cannot be sent is saved, the next one of the same user and account is sent
before it, and then a refresh sends the first one. -/
def overtaken : List Event :=
  [.session ⟨some "user", [("matter", "account")], none⟩, .submitDecision "matter",
    .deliver 0 true, .submitDecision "matter", .serve 1 .success, .deliver 1 false,
    .loaded 1 true, .replay 1, .serve 1 .success]

theorem earlier_correction_overtaken :
    ¬ ∀ events : List Event, Throughout step Faithful State.start events := by
  intro h
  have hordered := (h overtaken).last.ordered
  revert hordered
  decide

end ElectronicMail.Corrections
