import ElectronicMail.Foundations.Run
import ElectronicMail.Drafts.CallLog

/-!
# The life of a draft

Over every interleaving of replicas a sent draft stays sent, a draft that is being sent
leaves this state only to be sent or after Gmail has rejected that send for certain, and
neither `create_gmail_draft` nor `send_gmail_draft` is called for a draft unless every
earlier such call for it failed for certain (`lifecycle_safe`).

The invariant is `SystemOk`: locks have one owner, every operation knows what it has to
about the rows it guards and about the log, and every call that may have been applied
leaves its row open.
-/

namespace ElectronicMail.Drafts

open Foundations

/-! ## The property -/

structure LifecycleSafe (codec : DraftCodec) (s : DraftSystem) (l : DraftLabel) : Prop where
  /-- `sent` is never left. -/
  sent : ∀ c row, s.table.byClient c = some row → row.state = .sent →
    ∃ row', (draftSystemStep codec s l).table.byClient c = some row' ∧ row'.state = .sent
  /-- `sending` is left to `sent`, or to `saved` after a definite rejection of the send with
  the identity of the row. -/
  sending : ∀ c row, s.table.byClient c = some row → row.state = .sending →
    ∃ row', (draftSystemStep codec s l).table.byClient c = some row' ∧
      ((row'.state = .sending ∧ row'.lastClientSendId = row.lastClientSendId) ∨
        row'.state = .sent ∨
        (row'.state = .saved ∧ ∃ call ∈ s.sends, call.clientDraftId = c ∧
          call.clientSendId = row.lastClientSendId ∧ call.failed isDefiniteSendFailure = true))
  /-- A create is called after definite failures only. -/
  create : ∀ call, (draftSystemStep codec s l).creates = call :: s.creates →
    AllFailed isDefiniteFailure s.creates call.clientDraftId
  /-- A send is called after definite failures only. -/
  send : ∀ call, (draftSystemStep codec s l).sends = call :: s.sends →
    AllFailed isDefiniteSendFailure s.sends call.clientDraftId

/-! ## The invariant -/

def PhaseOk (opened : String → Prop) (table : DraftTable) (creates sends : List CallRecord)
    (exec : Nat) : DraftPhase → Prop
  | .acquiring handle taken rest point =>
    taken ++ rest = handle.keys ∧ point.isWaiting = true ∧ point.Ok opened handle table
  | .working handle point =>
    point.Ok opened handle table ∧ point.LogOk exec creates sends
  | .releasing left next =>
    left.Nodup ∧ ∀ handle point, next = some (handle, point) →
      point.isWaiting = true ∧ point.Ok opened handle table
  | _ => True

structure SystemOk (opened : String → Prop) (s : DraftSystem) : Prop where
  table : TableOk opened s.table
  held : ∀ i, ∀ key ∈ (s.phase i).keys, s.owner key = some i
  phases : ∀ i, PhaseOk opened s.table s.creates s.sends i (s.phase i)
  rows : RowsKnow s.table s.creates s.sends

theorem systemOk_initial (opened : String → Prop) : SystemOk opened DraftSystem.initial where
  table := tableOk_empty opened
  held := by
    intro i key hkey
    cases hkey
  phases _ := trivial
  rows :=
    { creates := by
        intro call hcall
        cases hcall
      sends := by
        intro call hcall
        cases hcall }

section

variable {opened : String → Prop} {codec : DraftCodec} {s : DraftSystem} {i : Nat}

variable {point : Point}

theorem Point.logOk_of_isWaiting (h : point.isWaiting = true) (exec : Nat)
    (creates sends : List CallRecord) : point.LogOk exec creates sends := by
  cases point <;> trivial

/-! ## Changing one operation -/

theorem systemOk_phase (hs : SystemOk opened s) {phase : DraftPhase}
    {owner : DraftKey → Option Nat}
    (hphase : PhaseOk opened s.table s.creates s.sends i phase)
    (hheld : ∀ key ∈ phase.keys, owner key = some i)
    (hothers : ∀ j, j ≠ i → ∀ key, s.owner key = some j → owner key = some j) :
    SystemOk opened { s.goto i phase with owner := owner } where
  table := hs.table
  held := by
    intro j key hkey
    by_cases hj : j = i
    · subst hj
      rw [show ({ s.goto j phase with owner := owner } : DraftSystem).phase j = phase from
        draftGoto_phase_self s j phase] at hkey
      exact hheld key hkey
    · rw [show ({ s.goto i phase with owner := owner } : DraftSystem).phase j = s.phase j from
        draftGoto_phase_of_ne s phase hj] at hkey
      exact hothers j hj key (hs.held j key hkey)
  phases := by
    intro j
    by_cases hj : j = i
    · subst hj
      rw [show ({ s.goto j phase with owner := owner } : DraftSystem).phase j = phase from
        draftGoto_phase_self s j phase]
      exact hphase
    · rw [show ({ s.goto i phase with owner := owner } : DraftSystem).phase j = s.phase j from
        draftGoto_phase_of_ne s phase hj]
      exact hs.phases j
  rows := hs.rows

theorem systemOk_goto (hs : SystemOk opened s) {phase : DraftPhase}
    (hphase : PhaseOk opened s.table s.creates s.sends i phase) (hkeys : phase.keys = []) :
    SystemOk opened (s.goto i phase) :=
  systemOk_phase hs hphase (fun key hkey => by rw [hkeys] at hkey; cases hkey) fun _ _ _ h => h

/-! ## Opening an operation -/

variable {creates sends : List CallRecord}

theorem lockGet_ok {g : String} {mapping : Option ClientDraft} {table : DraftTable}
    (hmapping : ∀ row, mapping = some row → Bound table row.clientDraftId g)
    (hopened : mapping = none → opened g ∧ g ≠ "") :
    PhaseOk opened table creates sends i (lockGet g mapping).phase := by
  refine ⟨List.nil_append _, rfl, rfl, ?_⟩
  cases mapping with
  | none => exact ⟨rfl, hopened rfl⟩
  | some row => exact hmapping row rfl

theorem openCall_ok {call : DraftCall} (hcall : CallOnDraft opened call) :
    PhaseOk opened s.table s.creates s.sends i (openCall codec s.table call).phase := by
  cases call with
  | save =>
    simp only [openCall]
    split
    · exact ⟨List.nil_append _, rfl, rfl, hcall⟩
    · trivial
  | get =>
    simp only [openCall]
    split
    · trivial
    case h_2 mapping hmapping =>
      obtain ⟨hread, hg⟩ := s.table.byGmail_eq_some_iff.1 hmapping
      refine lockGet_ok ?_ (fun hnone => nomatch hnone)
      intro row hrow
      cases hrow
      exact ⟨mapping, hread, hg⟩
  | delete g | send => exact ⟨List.nil_append _, rfl, rfl⟩

theorem opening_keys (opening : Opening) : opening.phase.keys = [] := by
  cases opening <;> rfl

/-! ## Locks -/

variable {handle : DraftHandle}

variable {key : DraftKey}

theorem acquired_ok (hs : SystemOk opened s) {taken rest : List DraftKey}
    (hphase : s.phase i = .acquiring handle taken (key :: rest) point)
    (hfree : s.owner key = none) : SystemOk opened
      { s.goto i (acquiredPhase handle (taken ++ [key]) rest point) with
        owner := Function.update s.owner key (some i) } := by
  have hok := hs.phases i
  rw [hphase] at hok
  obtain ⟨hkeys, hwaiting, hpoint⟩ := hok
  have hheld : ∀ other ∈ taken ++ [key], Function.update s.owner key (some i) other = some i := by
    intro other hother
    by_cases heq : other = key
    · rw [heq, Function.update_self]
    rw [Function.update_of_ne heq]
    have hmem : other ∈ taken := by
      rcases List.mem_append.1 hother with h | h
      · exact h
      · exact absurd (List.mem_singleton.1 h) heq
    exact hs.held i other (by rw [hphase]; exact hmem)
  refine systemOk_phase hs ?_ ?_ ?_
  · cases rest with
    | nil => exact ⟨hpoint, point.logOk_of_isWaiting hwaiting _ _ _⟩
    | cons =>
      exact ⟨by rw [List.append_assoc]; exact hkeys, hwaiting, hpoint⟩
  · cases rest with
    | nil =>
      intro other hother
      exact hheld other (by rw [show taken ++ [key] = handle.keys from hkeys]; exact hother)
    | cons => exact hheld
  · intro j hj other hother
    have hne : other ≠ key := by
      rintro rfl
      rw [hfree] at hother
      cases hother
    rw [Function.update_of_ne hne]
    exact hother

theorem released_ok (hs : SystemOk opened s) {left : List DraftKey}
    {next : Option (DraftHandle × Point)} (hphase : s.phase i = .releasing (key :: left) next) :
    SystemOk opened
      { s.goto i (releasedPhase left next) with owner := Function.update s.owner key none } := by
  have hok := hs.phases i
  rw [hphase] at hok
  obtain ⟨hnodup, hnext⟩ := hok
  obtain ⟨hnotin, hrest⟩ := List.nodup_cons.1 hnodup
  have howner : s.owner key = some i := hs.held i key (by rw [hphase]; exact List.mem_cons_self)
  refine systemOk_phase hs ?_ ?_ ?_
  · cases left with
    | cons other left => exact ⟨hrest, hnext⟩
    | nil =>
      cases next with
      | none => trivial
      | some pair =>
        obtain ⟨hwaiting, hpoint⟩ := hnext pair.1 pair.2 rfl
        exact ⟨List.nil_append _, hwaiting, hpoint⟩
  · cases left with
    | cons =>
      intro k hk
      have hne : k ≠ key := by
        rintro rfl
        exact hnotin hk
      rw [Function.update_of_ne hne]
      exact hs.held i k (by rw [hphase]; exact List.mem_cons_of_mem key hk)
    | nil =>
      intro k hk
      cases next <;> cases hk
  · intro j hj k hk
    have hne : k ≠ key := by
      rintro rfl
      rw [howner] at hk
      exact hj (Option.some.inj hk).symm
    rw [Function.update_of_ne hne]
    exact hk

theorem crashed_ok (hs : SystemOk opened s) :
    SystemOk opened
      { s.goto i .finished with
        owner := fun key => if s.owner key = some i then none else s.owner key } := by
  refine systemOk_phase hs trivial (fun key hkey => nomatch hkey) ?_
  intro j hj key hkey
  have hne : ¬s.owner key = some i := by
    rw [hkey]
    exact fun heq => hj (Option.some.inj heq)
  rw [if_neg hne]
  exact hkey

/-! ## A step between two points -/

theorem SystemOk.apart (hs : SystemOk opened s) {j : Nat} (hj : j ≠ i) {other : DraftHandle}
    {moving : Point} (hphase : s.phase j = .working handle point)
    (hmoving : s.phase i = .working other moving) : handle.Apart other := by
  refine DraftHandle.apart_of_keys fun key hkey hkey' => hj ?_
  have howner := hs.held j key (by rw [hphase]; exact hkey)
  rw [hs.held i key (by rw [hmoving]; exact hkey')] at howner
  exact (Option.some.inj howner).symm

variable {after : DraftTable}

variable {next : Next}

theorem nextPhase_ok (hnext : next.Ok opened handle after) (hlog : next.LogOk i creates sends) :
    PhaseOk opened after creates sends i (next.phase handle) := by
  have hnodup := handle.keys_nodup
  cases next with
  | goto point => exact ⟨hnext, hlog⟩
  | adopt g point =>
    unfold Next.phase
    simp only
    by_cases hg : handle.gmailDraftId = some g
    · rw [if_pos hg]
      refine ⟨?_, hlog⟩
      have hsame : (⟨handle.clientDraftId, some g⟩ : DraftHandle) = handle := by rw [← hg]
      exact hsame ▸ hnext.2
    · rw [if_neg hg]
      refine ⟨List.nodup_reverse.2 hnodup, ?_⟩
      intro handle' point' heq
      cases heq
      exact hnext
  | finish => exact ⟨List.nodup_reverse.2 hnodup, fun _ _ heq => nomatch heq⟩

theorem nextPhase_keys (h : key ∈ (next.phase handle).keys) : key ∈ handle.keys := by
  cases next with
  | goto => exact h
  | adopt =>
    unfold Next.phase at h
    simp only at h
    split at h
    · exact h
    · exact List.mem_reverse.1 h
  | finish => exact List.mem_reverse.1 h

variable {answer : Answer}

theorem rowsKnow_step {table : DraftTable} (hok : point.Ok opened handle table)
    (hlog : point.LogOk i creates sends) (hrows : RowsKnow table creates sends)
    (hstep : draftStep codec handle table point answer = some (after, next)) :
    RowsKnow after (createsAfter i point answer creates) (sendsAfter i point answer sends) where
  creates := by
    intro call hcall hfailed
    -- A call of before leaves its client draft open, or all of them have failed.
    have hold : ∀ earlier ∈ creates, earlier.clientDraftId = call.clientDraftId →
        earlier.failed isDefiniteFailure = false → CreateOpen after call.clientDraftId := by
      intro earlier hearlier hclient hopen
      have hbefore := hrows.creates earlier hearlier hopen
      rw [hclient] at hbefore
      refine (hbefore.change hok hlog hstep).resolve_right fun hall => ?_
      rw [hall earlier hearlier hclient] at hopen
      cases hopen
    unfold createsAfter at hcall
    split at hcall
    · case h_1 work =>
        split at hcall
        · case isTrue hnone =>
            rcases List.mem_cons.1 hcall with rfl | hcall
            · -- The row of a create that is called is being created.
              obtain ⟨row, hexisting, -, hcreating⟩ := hok.row
              cases answer <;> cases hstep
              exact ⟨row, hok.read.trans hexisting, Or.inl (hcreating hnone)⟩
            · exact hold call hcall rfl hfailed
        · exact hold call hcall rfl hfailed
    · split at hcall
      · rcases mem_answered hcall with ⟨hmem, -⟩ | ⟨earlier, hmem, hopen, rfl⟩
        · exact hold call hmem rfl hfailed
        · refine hold earlier hmem rfl ?_
          rw [CallRecord.failed, hopen.2]
      · exact hold call hcall rfl hfailed
    · exact hold call hcall rfl hfailed
  sends := by
    intro call hcall hfailed
    have hold : ∀ earlier ∈ sends, earlier.clientDraftId = call.clientDraftId →
        earlier.failed isDefiniteSendFailure = false → SendOpen after call.clientDraftId := by
      intro earlier hearlier hclient hopen
      have hbefore := hrows.sends earlier hearlier hopen
      rw [hclient] at hbefore
      refine (hbefore.change hok hlog hstep).resolve_right fun hall => ?_
      rw [hall earlier hearlier hclient] at hopen
      cases hopen
    unfold sendsAfter at hcall
    split at hcall
    · case h_1 sending clientSendId =>
        rcases List.mem_cons.1 hcall with rfl | hcall
        · cases answer <;> cases hstep
          exact ⟨sending, hok.1.read, Or.inl hok.2.1⟩
        · exact hold call hcall rfl hfailed
    · rcases mem_answered hcall with ⟨hmem, -⟩ | ⟨earlier, hmem, hopen, rfl⟩
      · exact hold call hmem rfl hfailed
      · refine hold earlier hmem rfl ?_
        rw [CallRecord.failed, hopen.2]
    · exact hold call hcall rfl hfailed

theorem phaseOk_others (hs : SystemOk opened s) (hphase : s.phase i = .working handle point)
    (hok : point.Ok opened handle s.table) (hmoves : Moves handle s.table after) {j : Nat}
    (hj : j ≠ i) : PhaseOk opened after (createsAfter i point answer s.creates)
      (sendsAfter i point answer s.sends) j (s.phase j) := by
  have hother := hs.phases j
  cases hphaseJ : s.phase j with
  | idle | resolving | finished => trivial
  | acquiring =>
    rw [hphaseJ] at hother
    exact ⟨hother.1, hother.2.1, hother.2.2.waiting hother.2.1 hmoves.bound⟩
  | working =>
    rw [hphaseJ] at hother
    have hapart := hs.apart hj hphaseJ hphase
    exact ⟨hother.1.frame hapart hmoves, hother.2.frame hother.1 hok hapart hj⟩
  | releasing left next =>
    rw [hphaseJ] at hother
    refine ⟨hother.1, fun handleJ pointJ hnext => ?_⟩
    obtain ⟨hwaiting, hpoint⟩ := hother.2 handleJ pointJ hnext
    exact ⟨hwaiting, hpoint.waiting hwaiting hmoves.bound⟩

theorem worked_ok (hs : SystemOk opened s) (hphase : s.phase i = .working handle point)
    (hanswer : AnswersOnDraft opened point answer)
    (hstep : draftStep codec handle s.table point answer = some (after, next)) : SystemOk opened
      { s.goto i (next.phase handle) with
        table := after
        creates := createsAfter i point answer s.creates
        sends := sendsAfter i point answer s.sends } := by
  have hown := hs.phases i
  rw [hphase] at hown
  obtain ⟨hok, hlog⟩ := hown
  obtain ⟨htable, hmoves, hnext⟩ := draftStep_ok hs.table hok hanswer hstep
  have hnextLog := draftStep_log hs.table hs.rows hok hlog hstep
  have hself := draftGoto_phase_self s i (next.phase handle)
  refine
    { table := htable
      held := ?_
      phases := ?_
      rows := rowsKnow_step hok hlog hs.rows hstep }
  · intro j key hkey
    by_cases hj : j = i
    · subst hj
      replace hkey : key ∈ ((s.goto j (next.phase handle)).phase j).keys := hkey
      rw [hself] at hkey
      exact hs.held j key (by rw [hphase]; exact nextPhase_keys hkey)
    · replace hkey : key ∈ ((s.goto i (next.phase handle)).phase j).keys := hkey
      rw [draftGoto_phase_of_ne s _ hj] at hkey
      exact hs.held j key hkey
  · intro j
    by_cases hj : j = i
    · subst hj
      show PhaseOk opened after _ _ j ((s.goto j (next.phase handle)).phase j)
      rw [hself]
      exact nextPhase_ok hnext hnextLog
    · show PhaseOk opened after _ _ j ((s.goto i (next.phase handle)).phase j)
      rw [draftGoto_phase_of_ne s _ hj]
      exact phaseOk_others hs hphase hok hmoves hj

/-- **The invariant is kept by every step.** -/
theorem systemOk_step (hs : SystemOk opened s) {l : DraftLabel} (hl : LabelOnDraft opened s l) :
    SystemOk opened (draftSystemStep codec s l) := by
  cases l with
  | start =>
    simp only [draftSystemStep]
    split
    · refine systemOk_goto hs ?_ ?_
      · split
        · exact openCall_ok hl
        · trivial
      · split
        · exact opening_keys _
        · rfl
    · exact hs
  | acquire =>
    simp only [draftSystemStep]
    split
    · case h_1 handle taken key rest point hphase =>
        split
        · case isTrue hfree => exact acquired_ok hs hphase hfree
        · exact hs
    · exact hs
  | step exec answer =>
    simp only [draftSystemStep]
    split
    · case h_1 mailboxThreadId hphase =>
        split
        · exact hs
        case h_2 opening hopening =>
          refine systemOk_goto hs ?_ (opening_keys _)
          simp only [LabelOnDraft, hphase] at hl
          cases answer <;> cases hopening
          · exact lockGet_ok (fun _ hrow => nomatch hrow) fun _ => hl _ rfl
          · trivial
    · case h_2 handle point hphase =>
        simp only [LabelOnDraft, hphase] at hl
        split
        · exact hs
        · case h_2 after next hstep => exact worked_ok hs hphase hl hstep
    · exact hs
  | release exec =>
    simp only [draftSystemStep]
    split
    · case h_1 key left next hphase => exact released_ok hs hphase
    · exact hs
  | crash => exact crashed_ok hs

/-! ## Safety of one step -/

theorem draftSystemStep_effect (codec : DraftCodec) (s : DraftSystem) (l : DraftLabel) :
    ((draftSystemStep codec s l).table = s.table ∧
      (draftSystemStep codec s l).creates = s.creates ∧
      (draftSystemStep codec s l).sends = s.sends) ∨
    ∃ exec answer handle point after next, s.phase exec = .working handle point ∧
      draftStep codec handle s.table point answer = some (after, next) ∧
      (draftSystemStep codec s l).table = after ∧
      (draftSystemStep codec s l).creates = createsAfter exec point answer s.creates ∧
      (draftSystemStep codec s l).sends = sendsAfter exec point answer s.sends := by
  cases l with
  | step exec answer =>
    simp only [draftSystemStep]
    split
    · split
      · exact Or.inl ⟨rfl, rfl, rfl⟩
      · exact Or.inl ⟨rfl, rfl, rfl⟩
    · case h_2 handle point hphase =>
        split
        · exact Or.inl ⟨rfl, rfl, rfl⟩
        · case h_2 after next hstep =>
            exact Or.inr ⟨exec, answer, handle, point, after, next, hphase, hstep, rfl, rfl, rfl⟩
    · exact Or.inl ⟨rfl, rfl, rfl⟩
  | start | release =>
    simp only [draftSystemStep]
    split <;> exact Or.inl ⟨rfl, rfl, rfl⟩
  | acquire =>
    simp only [draftSystemStep]
    split
    · split <;> exact Or.inl ⟨rfl, rfl, rfl⟩
    · exact Or.inl ⟨rfl, rfl, rfl⟩
  | crash => exact Or.inl ⟨rfl, rfl, rfl⟩

theorem length_answered (exec : Nat) (answer : Answer) (calls : List CallRecord) :
    (answered exec answer calls).length = calls.length :=
  List.length_map _

variable {call : CallRecord} {exec : Nat}

theorem answered_ne_cons {calls : List CallRecord} :
    answered exec answer calls ≠ call :: calls := by
  intro h
  have hlength := congrArg List.length h
  rw [length_answered, List.length_cons] at hlength
  omega

theorem createsAfter_eq_cons (h : createsAfter exec point answer creates = call :: creates) :
    ∃ work, point = .saveCalling work ∧ work.gmailDraftId = none ∧
      call.clientDraftId = work.request.clientDraftId := by
  unfold createsAfter at h
  split at h
  · case h_1 work =>
      split at h
      · case isTrue hnone =>
          cases h
          exact ⟨work, rfl, hnone, rfl⟩
      · exact absurd h.symm (List.cons_ne_self _ _)
  · split at h
    · exact absurd h answered_ne_cons
    · exact absurd h.symm (List.cons_ne_self _ _)
  · exact absurd h.symm (List.cons_ne_self _ _)

theorem sendsAfter_eq_cons (h : sendsAfter exec point answer sends = call :: sends) :
    ∃ sending clientSendId, point = .sendCalling sending clientSendId ∧
      call.clientDraftId = sending.clientDraftId := by
  unfold sendsAfter at h
  split at h
  · case h_1 sending clientSendId =>
      cases h
      exact ⟨sending, clientSendId, rfl, rfl⟩
  · exact absurd h answered_ne_cons
  · exact absurd h.symm (List.cons_ne_self _ _)

/-- **Every step from a state that meets the invariant is safe.** -/
theorem lifecycleSafe_step (hs : SystemOk opened s) (l : DraftLabel) : LifecycleSafe codec s l := by
  rcases draftSystemStep_effect codec s l with
    ⟨htable, hcreates, hsends⟩ |
      ⟨exec, answer, handle, point, after, next, hphase, hstep, htable, hcreates, hsends⟩
  · -- Neither a row nor a log changes.
    refine ⟨?_, ?_, ?_, ?_⟩
    · intro c row hrow hstate
      exact ⟨row, htable ▸ hrow, hstate⟩
    · intro c row hrow hstate
      exact ⟨row, htable ▸ hrow, Or.inl ⟨hstate, rfl⟩⟩
    · intro call h
      exact absurd (h.symm.trans hcreates) (List.cons_ne_self _ _)
    · intro call h
      exact absurd (h.symm.trans hsends) (List.cons_ne_self _ _)
  · have hown := hs.phases exec
    rw [hphase] at hown
    obtain ⟨hok, hlog⟩ := hown
    refine ⟨?_, ?_, ?_, ?_⟩
    · intro c row hrow hstate
      rw [htable]
      rcases draftStep_rows hok hstep c with hsame | ⟨row', hrow', hchange⟩
      · exact ⟨row, hsame.trans hrow, hstate⟩
      rw [hrow] at hchange
      cases hchange with
      | edited hstored | createFailed work error response hpoint hclient hstored =>
        exact absurd (hstored row rfl) (by rw [hstate]; decide)
      | claimed mapping hstored hsaved =>
        cases hstored
        rw [hstate] at hsaved
        cases hsaved
      | restored sending clientSendId error rejected hpoint hstored =>
        cases hstored
        subst hpoint
        exact absurd hstate (by rw [hok.2.1]; decide)
      | finalized sending hstored hsending hnew => exact ⟨row', hrow', hnew⟩
      | deleted old hstored hsending hsent =>
        cases hstored
        exact absurd hstate hsent
    · intro c row hrow hstate
      rw [htable]
      rcases draftStep_rows hok hstep c with hsame | ⟨row', hrow', hchange⟩
      · exact ⟨row, hsame.trans hrow, Or.inl ⟨hstate, rfl⟩⟩
      rw [hrow] at hchange
      refine ⟨row', hrow', ?_⟩
      cases hchange with
      | edited hstored | createFailed work error response hpoint hclient hstored =>
        exact absurd (hstored row rfl) (by rw [hstate]; decide)
      | claimed mapping hstored hsaved =>
        cases hstored
        rw [hstate] at hsaved
        cases hsaved
      | restored sending clientSendId error rejected hpoint hstored hid hclient hnew =>
        cases hstored
        subst hpoint
        obtain ⟨-, call, hcall, hfailed, hkey, hcallId⟩ := hlog
        have hc := s.table.client_of_byClient hrow
        exact Or.inr (Or.inr ⟨hnew, call, hcall, hkey.trans hc, hcallId.trans hid.symm, hfailed⟩)
      | finalized sending hstored hsending hnew => exact Or.inr (Or.inl hnew)
      | deleted old hstored hsending =>
        cases hstored
        exact absurd hstate hsending
    · intro call h
      obtain ⟨work, rfl, hnone, hclient⟩ := createsAfter_eq_cons (hcreates.symm.trans h)
      rw [hclient]
      exact hlog hnone
    · intro call h
      obtain ⟨sending, clientSendId, rfl, hclient⟩ := sendsAfter_eq_cons (hsends.symm.trans h)
      rw [hclient]
      exact hlog

end

/-! ## Safety of runs -/

/-- **Draft lifecycle safety.** In every interleaving of saves, gets, deletes and sends of
any number of replicas, with crashes, lost responses and searches that miss, every step is
safe. -/
theorem lifecycle_safe (codec : DraftCodec) (opened : String → Prop) (labels : List DraftLabel)
    (h : Along (draftSystemStep codec) (LabelOnDraft opened) DraftSystem.initial labels) :
    Along (draftSystemStep codec) (LifecycleSafe codec) DraftSystem.initial labels :=
  along_of_step (fun _ l hs hl => ⟨lifecycleSafe_step hs l, systemOk_step hs hl⟩)
    (systemOk_initial opened) h

/-! ## A run -/

def plainCodec : DraftCodec where
  validatedAddresses := some
  validSubject := fun _ => true
  validatedAttachments := some
  fileDigest := fun _ => ""
  payloadDigest := fun payload => payload.subject

def newDraftRequest : MailDraftSaveRequest where
  clientDraftId := "draft-1"
  gmailDraftId := none
  gmailThreadId := none
  toAddresses := []
  ccAddresses := []
  bccAddresses := []
  subject := "Hello"
  bodyText := ""
  bodyHtml := none
  attachments := none
  retainedAttachmentIds := none
  responseMode := none
  mailboxThreadId := none
  sourceMessageId := none
  includeQuotedOriginal := true
  includeOriginalAttachments := true

def savingSteps (exec : Nat) : List DraftLabel :=
  [.start exec (.save newDraftRequest) true, .acquire exec, .step exec .proceed,
    .step exec (.found none)]

/-- A replica dies while it creates the draft; the search of the next save misses. -/
def retriedSave : List DraftLabel :=
  savingSteps 0 ++ [.step 0 (.reads ⟨none, [], none⟩), .step 0 .proceed, .step 0 .proceed,
    .crash 0] ++ savingSteps 1 ++ [.release 1]

theorem lifecycle_safe_retriedSave :
    (after (draftSystemStep plainCodec) DraftSystem.initial retriedSave).creates.length = 1 ∧
      Along (draftSystemStep plainCodec) (LifecycleSafe plainCodec) DraftSystem.initial
        retriedSave := by
  refine ⟨by decide, lifecycle_safe plainCodec (fun _ => False) retriedSave ?_⟩
  have hnone : ∀ g, given none = some g → OnDraft (fun _ => False) "draft-1" g :=
    fun g hg => nomatch hg
  exact ⟨hnone, trivial, trivial, hnone, trivial, trivial, trivial, trivial, hnone, trivial, trivial,
    hnone, trivial, trivial⟩

end ElectronicMail.Drafts
