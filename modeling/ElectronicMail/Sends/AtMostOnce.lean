import ElectronicMail.Sends.Interleaving

/-!
# At-most-once delivery

A send is safe to repeat only after a definite non-delivery, so every call of
`send_gmail_raw_message` should find that all earlier calls for the record had
one (`DeliversAtMostOnce`), and nobody but the owner of the claim should move the
record out of `sending` or `sent` (`OnlyOwnerReopens`).

`mark_pending_send_failed` has no guard on the state. An execution that read the
record as `failed`, searched the Sent folder and got a definite rejection from the
search marks the record failed even when another execution has claimed or
delivered it by then; `staleSearchRun` sends one mail twice in this way.
`atMostOnce_iff` shows that this is the only way: both properties hold over a run
exactly when no failed search marks a record that is no longer claimable
(`MarksOnlyClaimable`).
-/

namespace ElectronicMail.Sends

open Foundations
open Foundations.Table

/-! ## The properties -/

/-- At every call, all earlier calls had a definite non-delivery. The calls are
listed from the latest to the first. -/
def DeliversAtMostOnce (s : SendSystem) : Prop :=
  s.calls.Pairwise fun _ earlier => earlier.isNonDelivery = true

instance (s : SendSystem) : Decidable (DeliversAtMostOnce s) :=
  inferInstanceAs (Decidable (List.Pairwise _ s.calls))

/-- Only the owner of the claim makes a record claimable that is being sent or is
sent. -/
def OnlyOwnerReopens (s : SendSystem) (t : SendStep) : Prop :=
  s.row.state.isClaimable = false → (sendStep s t).row.state.isClaimable = true →
    s.owner = some t.exec

/-- A search that failed definitely marks the record failed only while the record
is still claimable. -/
def MarksOnlyClaimable (s : SendSystem) (t : SendStep) : Prop :=
  ∀ i error, t = .markFailed i → s.phase i = .failing .search error → s.row.state.isClaimable = true

/-! ## The failing run -/

def plainContent : SendContent :=
  ⟨["ada@example.org"], [], [], "Hello", "Hello", none, [], []⟩

/-- After a definite rejection of the first attempt, executions 1 and 2 both read
the failed record. Execution 2 misses the mail in the Sent folder, claims the
record and delivers. The search of execution 1 is answered with 401, so it marks
the record failed, and execution 3 sends the mail again. -/
def staleSearchRun : List SendStep :=
  [.start 0 .sendOrQueue, .reread 0, .prepare 0, .claim 0, .call 0,
    .answer 0 (.raised (.http (some 400))), .markFailed 0,
    .start 1 .sendOrQueue, .reread 1,
    .start 2 .runPendingSend, .reread 2, .search 2 .missing, .prepare 2, .claim 2, .call 2,
    .answer 2 (.accepted ⟨some "m1", some "t1"⟩), .markSent 2,
    .search 1 (.raised (.http (some 401))), .markFailed 1,
    .start 3 .runPendingSend, .reread 3, .search 3 .missing, .prepare 3, .claim 3, .call 3]

/-- The third call of `staleSearchRun` follows one that was accepted. -/
theorem staleSearchRun_delivers_twice :
    ¬ Throughout sendStep DeliversAtMostOnce (SendSystem.initial none plainContent)
      staleSearchRun := by
  intro h
  exact absurd h.last (by decide)

/-! ## The invariant -/

/-- The execution holds the claim: it is about to call Gmail, waits for the answer
or is about to record a definite non-delivery. -/
def Phase.holdsClaim : Phase → Bool
  | .calling _ => true
  | .awaiting _ => true
  | .failing .send _ => true
  | _ => false

def Phase.beforeCall : Phase → Bool
  | .idle => true
  | .entered _ => true
  | .searching _ => true
  | .preparing _ => true
  | .claiming _ => true
  | .calling _ => true
  | _ => false

def Phase.neverClaimed : Phase → Bool
  | .idle => true
  | .entered _ => true
  | .searching _ => true
  | .preparing _ => true
  | .claiming _ => true
  | .failing .search _ => true
  | _ => false

def Phase.isAwaiting : Phase → Bool
  | .awaiting _ => true
  | _ => false

structure ClaimInv (s : SendSystem) : Prop where
  /-- A claim is held by its owner, and the record is not claimable. -/
  held : ∀ i, (s.phase i).holdsClaim = true → s.owner = some i ∧ s.row.state.isClaimable = false
  /-- A call that may have delivered keeps the record closed; its execution is the
  owner and will neither call again nor mark the record failed. -/
  closed : ∀ c ∈ s.calls, c.isNonDelivery = false →
    s.owner = some c.exec ∧ s.row.state.isClaimable = false ∧
      ((s.phase c.exec).holdsClaim = true → (s.phase c.exec).isAwaiting = true)
  /-- An execution that never claimed is not the owner. -/
  stranger : ∀ i, (s.phase i).neverClaimed = true → s.owner ≠ some i
  /-- An execution that may still call has not called. -/
  fresh : ∀ i, (s.phase i).beforeCall = true → ∀ c ∈ s.calls, c.exec ≠ i
  /-- An awaited answer is that of the latest call. -/
  waiting : ∀ i, (s.phase i).isAwaiting = true →
    ∃ content earlier, s.calls = ⟨i, content, none⟩ :: earlier
  /-- No execution calls twice. -/
  single : (s.calls.map SendCall.exec).Nodup
  once : DeliversAtMostOnce s

theorem claimInv_initial (gmailThreadId : Option String) (content : SendContent) :
    ClaimInv (SendSystem.initial gmailThreadId content) := by
  refine ⟨?_, ?_, ?_, ?_, ?_, List.nodup_nil, List.Pairwise.nil⟩
  · intro i hi
    exact absurd hi Bool.false_ne_true
  · intro c hc
    exact absurd hc List.not_mem_nil
  · intro i _ ho
    cases ho
  · intro i _ c hc
    exact absurd hc List.not_mem_nil
  · intro i hi
    exact absurd hi Bool.false_ne_true

theorem holdsClaim_of_isAwaiting {ph : Phase} (h : ph.isAwaiting = true) :
    ph.holdsClaim = true := by
  cases ph with
  | awaiting => rfl
  | _ => cases h

/-! ## Points that hold no claim -/

theorem enter_facts (entry : EntryPoint) (record : PendingSend) :
    (enter entry record).holdsClaim = false := by
  unfold enter
  split
  · rfl
  cases entry with
  | runPendingSend => rfl
  | sendOrQueue =>
    dsimp only
    split
    · rfl
    · rfl

theorem afterReread_facts (current : PendingSend) : (afterReread current).holdsClaim = false := by
  unfold afterReread
  split
  · rfl
  split
  · rfl
  · rfl

theorem afterSearch_facts (current : PendingSend) (outcome : SearchOutcome) :
    (afterSearch current outcome).holdsClaim = false := by
  cases outcome with
  | found | multiple => rfl
  | missing =>
    unfold afterSearch
    dsimp only
    split
    · rfl
    · rfl
  | raised exc =>
    unfold afterSearch
    dsimp only
    split
    · rfl
    rcases handle_cases .search exc with ⟨error, h, -⟩ | h
    · rw [h]
      rfl
    · rw [h]
      rfl

/-- After the answer an execution holds the claim only to record a definite
non-delivery, and does not call again. -/
theorem afterCall_facts (sending : PendingSend) (outcome : CallOutcome) :
    ((afterCall sending outcome).holdsClaim = true → outcome.isNonDelivery = true) ∧
      (afterCall sending outcome).beforeCall = false ∧
      (afterCall sending outcome).neverClaimed = false ∧
      (afterCall sending outcome).isAwaiting = false := by
  cases outcome with
  | accepted => exact ⟨fun h => absurd h Bool.false_ne_true, rfl, rfl, rfl⟩
  | raised exc =>
    show ((handle .send exc).holdsClaim = true → _) ∧ (handle .send exc).beforeCall = false ∧
      (handle .send exc).neverClaimed = false ∧ (handle .send exc).isAwaiting = false
    rcases handle_cases .send exc with ⟨error, h, hdef⟩ | h
    · rw [h]
      exact ⟨fun _ => hdef, rfl, rfl, rfl⟩
    · rw [h]
      exact ⟨fun h => absurd h Bool.false_ne_true, rfl, rfl, rfl⟩

/-! ## One lemma per kind of step -/

section Step

variable {s : SendSystem} {i : Nat}

section

variable (hs : ClaimInv s)
include hs

theorem claimInv_goto {ph : Phase} (hhold : ph.holdsClaim = false)
    (hearly : (ph.beforeCall || ph.neverClaimed) = true →
      ((s.phase i).beforeCall && (s.phase i).neverClaimed) = true) : ClaimInv (s.goto i ph) := by
  have hwait : ph.isAwaiting = true → False := by
    intro h
    rw [holdsClaim_of_isAwaiting h] at hhold
    exact Bool.false_ne_true hhold.symm
  refine ⟨?_, ?_, ?_, ?_, ?_, hs.single, hs.once⟩
  · intro j hj
    by_cases hji : j = i
    · subst hji
      rw [goto_phase_self, hhold] at hj
      exact absurd hj Bool.false_ne_true
    · rw [goto_phase_of_ne s ph hji] at hj
      exact hs.held j hj
  · intro c hc hdef
    obtain ⟨howner, hclosed, hcall⟩ := hs.closed c hc hdef
    refine ⟨howner, hclosed, ?_⟩
    by_cases hci : c.exec = i
    · rw [hci, goto_phase_self, hhold]
      intro h
      exact absurd h Bool.false_ne_true
    · rw [goto_phase_of_ne s ph hci]
      exact hcall
  · intro j hj
    by_cases hji : j = i
    · subst hji
      rw [goto_phase_self] at hj
      exact hs.stranger j (Bool.and_eq_true_iff.1 (hearly (by simp [hj]))).2
    · rw [goto_phase_of_ne s ph hji] at hj
      exact hs.stranger j hj
  · intro j hj c hc
    by_cases hji : j = i
    · subst hji
      rw [goto_phase_self] at hj
      exact hs.fresh j (Bool.and_eq_true_iff.1 (hearly (by simp [hj]))).1 c hc
    · rw [goto_phase_of_ne s ph hji] at hj
      exact hs.fresh j hj c hc
  · intro j hj
    by_cases hji : j = i
    · subst hji
      rw [goto_phase_self] at hj
      exact (hwait hj).elim
    · rw [goto_phase_of_ne s ph hji] at hj
      exact hs.waiting j hj

theorem claimInv_row {row : PendingSend}
    (hrow : row.state.isClaimable = false ∨ s.row.state.isClaimable = true) :
    ClaimInv { s with row := row } := by
  have hkeep : s.row.state.isClaimable = false → row.state.isClaimable = false := by
    intro h
    rcases hrow with hr | hr
    · exact hr
    · rw [h] at hr
      exact absurd hr Bool.false_ne_true
  refine ⟨?_, ?_, hs.stranger, hs.fresh, hs.waiting, hs.single, hs.once⟩
  · intro j hj
    exact ⟨(hs.held j hj).1, hkeep (hs.held j hj).2⟩
  · intro c hc hdef
    obtain ⟨howner, hclosed, hcall⟩ := hs.closed c hc hdef
    exact ⟨howner, hkeep hclosed, hcall⟩

theorem ClaimInv.nonDelivery_of_isClaimable (hrow : s.row.state.isClaimable = true) : ∀ c ∈ s.calls, c.isNonDelivery = true := by
  intro c hc
  by_contra hdef
  have hclosed := (hs.closed c hc (Bool.eq_false_iff.2 hdef)).2.1
  rw [hrow] at hclosed
  exact Bool.false_ne_true hclosed.symm

theorem ClaimInv.nonDelivery_of_holdsClaim (hhold : (s.phase i).holdsClaim = true) (hwait : (s.phase i).isAwaiting = false) :
    ∀ c ∈ s.calls, c.isNonDelivery = true := by
  intro c hc
  by_contra hdef
  obtain ⟨howner, -, hcall⟩ := hs.closed c hc (Bool.eq_false_iff.2 hdef)
  have hci : c.exec = i := by
    rw [(hs.held i hhold).1] at howner
    exact (Option.some.inj howner).symm
  rw [hci] at hcall
  rw [hcall hhold] at hwait
  exact Bool.false_ne_true hwait.symm

theorem ClaimInv.not_holdsClaim_of_ne (hhold : (s.phase i).holdsClaim = true)
    {j : Nat} (hji : j ≠ i) : (s.phase j).holdsClaim = false := by
  rw [Bool.eq_false_iff]
  intro hj
  have h := (hs.held j hj).1
  rw [(hs.held i hhold).1] at h
  exact hji (Option.some.inj h).symm

theorem claimInv_claim {current row : PendingSend}
    (hph : s.phase i = .claiming current) (hclaim : claimPendingSend s.row = some row) :
    ClaimInv { s.goto i (.calling row) with row := row, owner := some i } := by
  obtain ⟨hrow, rfl⟩ := claimPendingSend_eq_some.1 hclaim
  have hdef := hs.nonDelivery_of_isClaimable hrow
  have hnone : ∀ j, (s.phase j).holdsClaim = false := by
    intro j
    rw [Bool.eq_false_iff]
    intro hj
    have hclosed := (hs.held j hj).2
    rw [hrow] at hclosed
    exact Bool.false_ne_true hclosed.symm
  refine ⟨?_, ?_, ?_, ?_, ?_, hs.single, hs.once⟩
  · intro j hj
    by_cases hji : j = i
    · subst hji
      exact ⟨rfl, rfl⟩
    · have hj' : ((s.goto i _).phase j).holdsClaim = true := hj
      rw [goto_phase_of_ne s _ hji, hnone j] at hj'
      exact absurd hj' Bool.false_ne_true
  · intro c hc hc'
    rw [hdef c hc] at hc'
    exact absurd hc'.symm Bool.false_ne_true
  · intro j hj howner
    have hji : i = j := Option.some.inj howner
    subst hji
    have hj' : ((s.goto i _).phase i).neverClaimed = true := hj
    rw [goto_phase_self] at hj'
    exact Bool.false_ne_true hj'
  · intro j hj c hc
    by_cases hji : j = i
    · subst hji
      exact hs.fresh j (by rw [hph]; rfl) c hc
    · have hj' : ((s.goto i _).phase j).beforeCall = true := hj
      rw [goto_phase_of_ne s _ hji] at hj'
      exact hs.fresh j hj' c hc
  · intro j hj
    have hj' : ((s.goto i _).phase j).isAwaiting = true := hj
    by_cases hji : j = i
    · subst hji
      rw [goto_phase_self] at hj'
      exact absurd hj' Bool.false_ne_true
    · rw [goto_phase_of_ne s _ hji] at hj'
      have hhold := holdsClaim_of_isAwaiting hj'
      rw [hnone j] at hhold
      exact absurd hhold Bool.false_ne_true

variable {sending : PendingSend}

theorem claimInv_latest {next : Phase} {content : SendContent} {outcome : Option CallOutcome}
    {earlier : List SendCall} (hhold : (s.phase i).holdsClaim = true)
    (hin : ∀ c ∈ earlier, c ∈ s.calls)
    (hsingle : ((⟨i, content, outcome⟩ :: earlier : List SendCall).map SendCall.exec).Nodup)
    (hdef : ∀ c ∈ earlier, c.isNonDelivery = true)
    (honce : earlier.Pairwise fun _ earlier => earlier.isNonDelivery = true)
    (hnever : next.neverClaimed = false) (hbefore : next.beforeCall = false)
    (hnext : SendCall.isNonDelivery ⟨i, content, outcome⟩ = false → next.holdsClaim = true →
      next.isAwaiting = true)
    (hwaiting : next.isAwaiting = true → outcome = none) :
    ClaimInv { s.goto i next with calls := ⟨i, content, outcome⟩ :: earlier } := by
  obtain ⟨howner, hclosed⟩ := hs.held i hhold
  refine ⟨?_, ?_, ?_, ?_, ?_, hsingle, List.Pairwise.cons hdef honce⟩
  · intro j hj
    by_cases hji : j = i
    · subst hji
      exact ⟨howner, hclosed⟩
    · have hj' : ((s.goto i next).phase j).holdsClaim = true := hj
      rw [goto_phase_of_ne s _ hji, hs.not_holdsClaim_of_ne hhold hji] at hj'
      exact absurd hj' Bool.false_ne_true
  · intro c hc hc'
    rcases List.mem_cons.1 hc with rfl | hold
    · refine ⟨howner, hclosed, ?_⟩
      show ((s.goto i next).phase i).holdsClaim = true → ((s.goto i next).phase i).isAwaiting = true
      rw [goto_phase_self]
      exact hnext hc'
    · rw [hdef c hold] at hc'
      exact absurd hc'.symm Bool.false_ne_true
  · intro j hj
    have hj' : ((s.goto i next).phase j).neverClaimed = true := hj
    by_cases hji : j = i
    · subst hji
      rw [goto_phase_self, hnever] at hj'
      exact absurd hj' Bool.false_ne_true
    · rw [goto_phase_of_ne s _ hji] at hj'
      exact hs.stranger j hj'
  · intro j hj c hc
    have hj' : ((s.goto i next).phase j).beforeCall = true := hj
    by_cases hji : j = i
    · subst hji
      rw [goto_phase_self, hbefore] at hj'
      exact absurd hj' Bool.false_ne_true
    · rw [goto_phase_of_ne s _ hji] at hj'
      rcases List.mem_cons.1 hc with rfl | hold
      · exact fun h => hji h.symm
      · exact hs.fresh j hj' c (hin c hold)
  · intro j hj
    have hj' : ((s.goto i next).phase j).isAwaiting = true := hj
    by_cases hji : j = i
    · subst hji
      rw [goto_phase_self] at hj'
      exact ⟨content, earlier, by rw [hwaiting hj']⟩
    · rw [goto_phase_of_ne s _ hji] at hj'
      have hhold' := holdsClaim_of_isAwaiting hj'
      rw [hs.not_holdsClaim_of_ne hhold hji] at hhold'
      exact absurd hhold' Bool.false_ne_true

theorem claimInv_call (hph : s.phase i = .calling sending) :
    ClaimInv { s.goto i (.awaiting sending) with
      calls := ⟨i, sending.content, none⟩ :: s.calls } := by
  have hhold : (s.phase i).holdsClaim = true := by rw [hph]; rfl
  have hfresh := hs.fresh i (by rw [hph]; rfl)
  refine claimInv_latest hs hhold (fun _ hc => hc) ?_
    (hs.nonDelivery_of_holdsClaim hhold (by rw [hph]; rfl)) hs.once rfl rfl (fun _ _ => rfl)
    fun _ => rfl
  rw [List.map_cons, List.nodup_cons]
  refine ⟨?_, hs.single⟩
  intro hmem
  obtain ⟨c, hc, hci⟩ := List.mem_map.1 hmem
  exact hfresh c hc hci

theorem claimInv_answer (outcome : CallOutcome) (hph : s.phase i = .awaiting sending) :
    ClaimInv { s.goto i (afterCall sending outcome) with
      calls := updateWhere (fun c => decide (c.exec = i))
        (fun c => { c with outcome := some outcome }) s.calls } := by
  obtain ⟨content, earlier, hcalls⟩ := hs.waiting i (by rw [hph]; rfl)
  obtain ⟨hafter, hbefore, hnever, hawait⟩ := afterCall_facts sending outcome
  have hsingle := hs.single
  have honce : DeliversAtMostOnce s := hs.once
  unfold DeliversAtMostOnce at honce
  rw [hcalls, List.map_cons, List.nodup_cons] at hsingle
  rw [hcalls, List.pairwise_cons] at honce
  -- Only the latest call is that of execution `i`.
  have hearlier : ∀ c ∈ earlier, decide (c.exec = i) = false := by
    intro c hc
    rw [decide_eq_false_iff_not]
    intro hci
    have hmem : c.exec ∈ earlier.map SendCall.exec := List.mem_map_of_mem hc
    rw [hci] at hmem
    exact hsingle.1 hmem
  have hnew : updateWhere (fun c => decide (c.exec = i))
      (fun c => { c with outcome := some outcome }) s.calls =
      ⟨i, content, some outcome⟩ :: earlier := by
    rw [hcalls]
    show _ :: updateWhere _ _ earlier = _
    rw [updateWhere_eq_self hearlier]
    simp
  rw [hnew]
  refine claimInv_latest hs (by rw [hph]; rfl) (fun c hc => hcalls ▸ List.mem_cons_of_mem _ hc)
    (List.nodup_cons.2 hsingle) honce.1 honce.2 hnever hbefore ?_ ?_
  · intro hc hh
    have hdef : (⟨i, content, some outcome⟩ : SendCall).isNonDelivery = true := hafter hh
    rw [hdef] at hc
    exact absurd hc.symm Bool.false_ne_true
  · intro h
    rw [hawait] at h
    exact absurd h Bool.false_ne_true

theorem claimInv_markFailed_send {error : String}
    (hph : s.phase i = .failing .send error) :
    ClaimInv { s.goto i .done with row := markPendingSendFailed error s.row } := by
  have hhold : (s.phase i).holdsClaim = true := by rw [hph]; rfl
  have hdef := hs.nonDelivery_of_holdsClaim hhold (by rw [hph]; rfl)
  have hgoto : ClaimInv (s.goto i .done) := claimInv_goto hs rfl fun h => by cases h
  have hnone : ∀ j, ((s.goto i .done).phase j).holdsClaim = false := by
    intro j
    by_cases hji : j = i
    · subst hji
      rw [goto_phase_self]
      rfl
    · rw [goto_phase_of_ne s _ hji]
      exact hs.not_holdsClaim_of_ne hhold hji
  refine ⟨?_, ?_, hgoto.stranger, hgoto.fresh, hgoto.waiting, hgoto.single, hgoto.once⟩
  · intro j hj
    rw [hnone j] at hj
    exact absurd hj Bool.false_ne_true
  · intro c hc hc'
    rw [hdef c hc] at hc'
    exact absurd hc'.symm Bool.false_ne_true

/-- **Every step keeps the claim**, unless a failed search marks a record that is
no longer claimable. -/
theorem claimInv_step (t : SendStep) (hgood : MarksOnlyClaimable s t) :
    ClaimInv (sendStep s t) := by
  cases t with
  | start i entry =>
    cases hph : s.phase i with
    | idle =>
      simp only [sendStep, hph]
      exact claimInv_goto hs (enter_facts entry s.row) fun _ => by rw [hph]; rfl
    | _ => simpa only [sendStep, hph] using hs
  | reread i =>
    cases hph : s.phase i with
    | entered =>
      simp only [sendStep, hph]
      exact claimInv_goto hs (afterReread_facts s.row) fun _ => by rw [hph]; rfl
    | _ => simpa only [sendStep, hph] using hs
  | search i outcome =>
    cases hph : s.phase i with
    | searching current =>
      simp only [sendStep, hph]
      exact claimInv_goto hs (afterSearch_facts current outcome) fun _ => by rw [hph]; rfl
    | _ => simpa only [sendStep, hph] using hs
  | prepare i =>
    cases hph : s.phase i with
    | preparing =>
      simp only [sendStep, hph]
      exact claimInv_goto hs rfl fun _ => by rw [hph]; rfl
    | _ => simpa only [sendStep, hph] using hs
  | claim i =>
    cases hph : s.phase i with
    | claiming =>
      cases hclaim : claimPendingSend s.row with
      | some row =>
        simp only [sendStep, hph, hclaim]
        exact claimInv_claim hs hph hclaim
      | none =>
        simp only [sendStep, hph, hclaim]
        exact claimInv_goto hs rfl fun h => by cases h
    | _ => simpa only [sendStep, hph] using hs
  | call i =>
    cases hph : s.phase i with
    | calling =>
      simp only [sendStep, hph]
      exact claimInv_call hs hph
    | _ => simpa only [sendStep, hph] using hs
  | answer i outcome =>
    cases hph : s.phase i with
    | awaiting =>
      simp only [sendStep, hph]
      exact claimInv_answer hs outcome hph
    | _ => simpa only [sendStep, hph] using hs
  | markSent i =>
    cases hph : s.phase i with
    | finalizing =>
      simp only [sendStep, hph]
      exact claimInv_row (claimInv_goto hs rfl fun h => by cases h) (Or.inl rfl)
    | _ => simpa only [sendStep, hph] using hs
  | markFailed i =>
    cases hph : s.phase i with
    | failing origin error =>
      simp only [sendStep, hph]
      cases origin with
      | search =>
        exact claimInv_row (claimInv_goto hs rfl fun h => by cases h)
          (Or.inr (hgood i error rfl hph))
      | send => exact claimInv_markFailed_send hs hph
    | _ => simpa only [sendStep, hph] using hs
  | stop i =>
    exact claimInv_goto hs rfl fun h => by cases h

end

theorem reopens_of_step {t : SendStep} (hrow : s.row.state.isClaimable = false)
    (hnext : (sendStep s t).row.state.isClaimable = true) :
    ∃ i origin error, t = .markFailed i ∧ s.phase i = .failing origin error := by
  have hsame : (sendStep s t).row = s.row → False := by
    intro h
    rw [h, hrow] at hnext
    exact Bool.false_ne_true hnext
  cases t with
  | markFailed i =>
    cases hph : s.phase i with
    | failing origin error => exact ⟨i, origin, error, rfl, hph⟩
    | _ => exact (hsame (by simp only [sendStep, hph])).elim
  | claim i =>
    cases hph : s.phase i with
    | claiming =>
      have hnone : claimPendingSend s.row = none := by
        unfold claimPendingSend
        rw [hrow]
        rfl
      exact (hsame (by simp only [sendStep, hph, hnone, goto_row])).elim
    | _ => exact (hsame (by simp only [sendStep, hph])).elim
  | markSent i =>
    cases hph : s.phase i with
    | finalizing record result =>
      simp only [sendStep, hph] at hnext
      cases hnext
    | _ => exact (hsame (by simp only [sendStep, hph])).elim
  | stop i => exact (hsame rfl).elim
  | start i | reread i | search i | prepare i | call i | answer i =>
    exact (hsame (by cases hph : s.phase i <;> simp only [sendStep, hph, goto_row])).elim

/-- With the invariant, only the owner reopens the record exactly when no failed
search marks a record that is not claimable. -/
theorem onlyOwnerReopens_iff (hs : ClaimInv s) (t : SendStep) :
    OnlyOwnerReopens s t ↔ MarksOnlyClaimable s t := by
  constructor
  · rintro howner i error rfl hph
    by_contra hrow
    -- The execution would be the owner, but one that searches has never claimed.
    have hnext : (sendStep s (.markFailed i)).row.state.isClaimable = true := by
      simp only [sendStep, hph]
      rfl
    exact hs.stranger i (by rw [hph]; rfl) (howner (Bool.eq_false_iff.2 hrow) hnext)
  · intro hmark hrow hnext
    obtain ⟨i, origin, error, rfl, hph⟩ := reopens_of_step hrow hnext
    cases origin with
    | search =>
      rw [hmark i error rfl hph] at hrow
      exact absurd hrow.symm Bool.false_ne_true
    | send => exact (hs.held i (by rw [hph]; rfl)).1

end Step

/-! ## Runs -/

/-- **At-most-once delivery, exactly.** Over every interleaving of executions on a
freshly queued send: at every call all earlier calls had a definite non-delivery
and only the owner of the claim reopens the record, if and only if no failed
search marks the record failed when it is no longer claimable. -/
theorem atMostOnce_iff (gmailThreadId : Option String) (content : SendContent)
    (steps : List SendStep) :
    (Throughout sendStep DeliversAtMostOnce (SendSystem.initial gmailThreadId content) steps ∧
      Along sendStep OnlyOwnerReopens (SendSystem.initial gmailThreadId content) steps) ↔
      Along sendStep MarksOnlyClaimable (SendSystem.initial gmailThreadId content) steps := by
  have hinit := claimInv_initial gmailThreadId content
  constructor
  · rintro ⟨-, howner⟩
    refine along_of_step (I := ClaimInv) ?_ hinit howner
    intro s t hs ho
    have hmark := (onlyOwnerReopens_iff hs t).1 ho
    exact ⟨hmark, claimInv_step hs t hmark⟩
  · intro hmark
    constructor
    · apply Throughout.mono fun s => ClaimInv.once
      exact throughout_of_step (fun s t hs hgood => claimInv_step hs t hgood) hinit hmark
    · refine along_of_step (I := ClaimInv) ?_ hinit hmark
      intro s t hs hgood
      exact ⟨(onlyOwnerReopens_iff hs t).2 hgood, claimInv_step hs t hgood⟩

end ElectronicMail.Sends
