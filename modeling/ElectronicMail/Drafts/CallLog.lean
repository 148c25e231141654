import ElectronicMail.Drafts.Replicas
import ElectronicMail.Drafts.RowChanges

/-!
# The log of creates and sends

What an operation knows of the calls for its client draft (`Point.LogOk`): before it calls
Gmail every earlier call has failed for certain, and while it waits for the answer every
other one has. `draftStep_log` says that a step of the operation keeps this, and
`Point.LogOk.frame` that a step of another operation does.
-/

namespace ElectronicMail.Drafts

open Google

/-! ## The log -/

def AllFailed (definite : ServiceError → Bool) (calls : List CallRecord) (c : String) : Prop :=
  ∀ call ∈ calls, call.clientDraftId = c → call.failed definite = true

/-- Every call for the client draft but the one of `exec` failed for certain. -/
def OthersFailed (definite : ServiceError → Bool) (exec : Nat) (calls : List CallRecord)
    (c : String) : Prop :=
  ∀ call ∈ calls, call.clientDraftId = c → call.isOpen exec ∨ call.failed definite = true

variable {definite : ServiceError → Bool} {call : CallRecord}

theorem CallRecord.not_isOpen_of_failed
    (h : call.failed definite = true) (exec : Nat) : ¬call.isOpen exec := by
  rintro ⟨-, hnone⟩
  rw [CallRecord.failed, hnone] at h
  cases h

variable {answer : Answer} {calls : List CallRecord}

variable {exec : Nat}

theorem mem_answered (h : call ∈ answered exec answer calls) : (call ∈ calls ∧ ¬call.isOpen exec) ∨
      ∃ old ∈ calls, old.isOpen exec ∧ call = { old with answer := some answer } := by
  obtain ⟨old, hold, rfl⟩ := List.mem_map.1 h
  by_cases hopen : old.isOpen exec
  · rw [if_pos hopen]
    exact Or.inr ⟨old, hold, hopen, rfl⟩
  · rw [if_neg hopen]
    exact Or.inl ⟨hold, hopen⟩

theorem mem_answered_of_not_isOpen (h : call ∈ calls) (hopen : ¬call.isOpen exec) :
    call ∈ answered exec answer calls :=
  List.mem_map.2 ⟨call, h, if_neg hopen⟩

/-- What a step of `exec` does to a log: it answers the open calls of `exec`, or it adds one
for the client draft `c`. -/
structure LogStep (exec : Nat) (c : String) (calls after : List CallRecord) : Prop where
  old : ∀ call ∈ after, call ∈ calls ∨ (∃ earlier ∈ calls, earlier.isOpen exec ∧
    call.clientDraftId = earlier.clientDraftId) ∨ call.clientDraftId = c
  kept : ∀ call ∈ calls, ¬call.isOpen exec → call ∈ after

theorem LogStep.refl (exec : Nat) (c : String) (calls : List CallRecord) :
    LogStep exec c calls calls where
  old _ h := Or.inl h
  kept _ h _ := h

theorem logStep_answered (exec : Nat) (c : String) (answer : Answer) (calls : List CallRecord) :
    LogStep exec c calls (answered exec answer calls) where
  old call h := by
    rcases mem_answered h with ⟨hmem, -⟩ | ⟨earlier, hmem, hopen, rfl⟩
    · exact Or.inl hmem
    · exact Or.inr (Or.inl ⟨earlier, hmem, hopen, rfl⟩)
  kept _ h hopen := mem_answered_of_not_isOpen h hopen

theorem logStep_cons (call : CallRecord) (calls : List CallRecord) :
    LogStep exec call.clientDraftId calls (call :: calls) where
  old other h := by
    rcases List.mem_cons.1 h with rfl | h
    · exact Or.inr (Or.inr rfl)
    · exact Or.inl h
  kept _ h _ := List.mem_cons_of_mem call h

variable {c d : String}

variable {after : List CallRecord}

theorem AllFailed.logStep (h : AllFailed definite calls c) (hcd : c ≠ d)
    (hlog : LogStep exec d calls after) : AllFailed definite after c := by
  intro call hcall hc
  rcases hlog.old call hcall with hold | ⟨earlier, hearlier, hopen, heq⟩ | hnew
  · exact h call hold hc
  · exact absurd hopen
      (CallRecord.not_isOpen_of_failed (h earlier hearlier (heq.symm.trans hc)) exec)
  · exact absurd (hc.symm.trans hnew) hcd

theorem OthersFailed.logStep {other : Nat} (h : OthersFailed definite other calls c)
    (hne : other ≠ exec) (hcd : c ≠ d) (hlog : LogStep exec d calls after) :
    OthersFailed definite other after c := by
  intro call hcall hc
  rcases hlog.old call hcall with hold | ⟨earlier, hearlier, hopen, heq⟩ | hnew
  · exact h call hold hc
  · rcases h earlier hearlier (heq.symm.trans hc) with hother | hfailed
    · exact absurd (hother.1.symm.trans hopen.1) hne
    · exact absurd hopen (CallRecord.not_isOpen_of_failed hfailed exec)
  · exact absurd (hc.symm.trans hnew) hcd

theorem OthersFailed.answered (h : OthersFailed definite exec calls c) {exc : ServiceError}
    (hexc : definite exc = true) : AllFailed definite (answered exec (.raised exc) calls) c := by
  intro call hcall hc
  rcases mem_answered hcall with ⟨hmem, hopen⟩ | ⟨earlier, hmem, hopen, rfl⟩
  · exact (h call hmem hc).resolve_left hopen
  · exact hexc

theorem AllFailed.cons (h : AllFailed definite calls c) (hopen : call.isOpen exec) :
    OthersFailed definite exec (call :: calls) c := by
  intro other hother hc
  rcases List.mem_cons.1 hother with rfl | hother
  · exact Or.inl hopen
  · exact Or.inr (h other hother hc)

/-! ## What an operation knows of the log -/

section

variable (exec : Nat) (creates sends : List CallRecord)

def Point.LogOk : Point → Prop
  | .saveCalling work =>
    work.gmailDraftId = none → AllFailed isDefiniteFailure creates work.request.clientDraftId
  | .saveAwaiting work =>
    work.gmailDraftId = none →
      OthersFailed isDefiniteFailure exec creates work.request.clientDraftId
  | .saveCreateFailed work _ _ =>
    AllFailed isDefiniteFailure creates work.request.clientDraftId
  | .sendCalling sending _ => AllFailed isDefiniteSendFailure sends sending.clientDraftId
  | .sendAwaiting sending clientSendId =>
    OthersFailed isDefiniteSendFailure exec sends sending.clientDraftId ∧
      ∃ call ∈ sends, call.isOpen exec ∧ call.clientDraftId = sending.clientDraftId ∧
        call.clientSendId = some clientSendId
  | .sendRestoring sending clientSendId _ _ =>
    AllFailed isDefiniteSendFailure sends sending.clientDraftId ∧
      ∃ call ∈ sends, call.failed isDefiniteSendFailure = true ∧
        call.clientDraftId = sending.clientDraftId ∧ call.clientSendId = some clientSendId
  | _ => True

def Next.LogOk : Next → Prop
  | .goto point => point.LogOk exec creates sends
  | .adopt _ point => point.LogOk exec creates sends
  | .finish _ => True

end

def Point.logClient : Point → String
  | .saveCalling work => work.request.clientDraftId
  | .saveAwaiting work => work.request.clientDraftId
  | .saveCreateFailed work _ _ => work.request.clientDraftId
  | .sendCalling sending _ => sending.clientDraftId
  | .sendAwaiting sending _ => sending.clientDraftId
  | .sendRestoring sending _ _ _ => sending.clientDraftId
  | _ => ""

theorem logStep_creates (exec : Nat) (point : Point) (answer : Answer) (creates : List CallRecord) :
    LogStep exec point.logClient creates (createsAfter exec point answer creates) := by
  unfold createsAfter
  split
  · split
    · exact logStep_cons ⟨exec, _, none, none⟩ creates
    · exact LogStep.refl _ _ _
  · split
    · exact logStep_answered _ _ _ _
    · exact LogStep.refl _ _ _
  · exact LogStep.refl _ _ _

theorem logStep_sends (exec : Nat) (point : Point) (answer : Answer) (sends : List CallRecord) :
    LogStep exec point.logClient sends (sendsAfter exec point answer sends) := by
  unfold sendsAfter
  split
  · exact logStep_cons ⟨exec, _, some _, none⟩ sends
  · exact logStep_answered _ _ _ _
  · exact LogStep.refl _ _ _

def Point.knowsLog : Point → Bool
  | .saveCalling _ => true
  | .saveAwaiting _ => true
  | .saveCreateFailed _ _ _ => true
  | .sendCalling _ _ => true
  | .sendAwaiting _ _ => true
  | .sendRestoring _ _ _ _ => true
  | _ => false

variable {point : Point}

theorem Point.logOk_of_not_knowsLog (h : point.knowsLog = false) (exec : Nat)
    (creates sends : List CallRecord) : point.LogOk exec creates sends := by
  cases point <;> trivial

section Frame

variable {opened : String → Prop} {handle : DraftHandle} {table : DraftTable}

theorem Point.Ok.guards_logClient (hok : point.Ok opened handle table)
    (hknows : point.knowsLog = true) : handle.Guards table point.logClient := by
  have hcall : ∀ {work : SaveWork}, CallOk opened handle table work →
      handle.Guards table work.request.clientDraftId := fun h =>
    h.editable.guards h.client fun x hx => (h.gmail x hx).1
  have hsend : ∀ {sending : ClientDraft}, SendOk handle table sending →
      handle.Guards table sending.clientDraftId := fun h => by
    obtain ⟨g, hbound, hgmail⟩ := h.isBound
    exact guards_of_bound hbound hgmail
  cases point with
  | saveCalling | saveAwaiting => exact hcall hok
  | saveCreateFailed => exact hcall hok.1
  | sendCalling | sendAwaiting | sendRestoring => exact hsend hok.1
  | _ => cases hknows

variable {creates sends : List CallRecord}

theorem Point.LogOk.logStep {exec other : Nat} {creates' sends' : List CallRecord}
    (hlog : point.LogOk other creates sends) (hne : other ≠ exec)
    (hd : point.knowsLog = true → point.logClient ≠ d) (hcreates : LogStep exec d creates creates')
    (hsends : LogStep exec d sends sends') : point.LogOk other creates' sends' := by
  cases point with
  | saveCalling => exact fun hnone => (hlog hnone).logStep (hd rfl) hcreates
  | saveAwaiting => exact fun hnone => (hlog hnone).logStep hne (hd rfl) hcreates
  | saveCreateFailed => exact AllFailed.logStep hlog (hd rfl) hcreates
  | sendCalling => exact AllFailed.logStep hlog (hd rfl) hsends
  | sendAwaiting =>
    obtain ⟨hothers, call, hcall, hopen, hid⟩ := hlog
    refine ⟨hothers.logStep hne (hd rfl) hsends, call, hsends.kept call hcall ?_, hopen, hid⟩
    intro hexec
    exact hne (hopen.1.symm.trans hexec.1)
  | sendRestoring =>
    obtain ⟨hall, call, hcall, hfailed, hid⟩ := hlog
    exact ⟨hall.logStep (hd rfl) hsends, call,
      hsends.kept call hcall (CallRecord.not_isOpen_of_failed hfailed exec), hfailed, hid⟩
  | _ => trivial

theorem Point.LogOk.frame {moving : Point} {other : DraftHandle} {exec i : Nat}
    (hlog : point.LogOk i creates sends) (hok : point.Ok opened handle table)
    (hmoving : moving.Ok opened other table) (hapart : handle.Apart other) (hne : i ≠ exec) :
    point.LogOk i (createsAfter exec moving answer creates) (sendsAfter exec moving answer sends) := by
  by_cases hknows : moving.knowsLog = true
  · refine hlog.logStep hne (fun hpoint heq => ?_) (logStep_creates exec moving answer creates)
      (logStep_sends exec moving answer sends)
    exact hapart.not_guards (hok.guards_logClient hpoint) (heq ▸ hmoving.guards_logClient hknows)
  · -- A step from another point does not touch the logs.
    have hcreates : createsAfter exec moving answer creates = creates := by
      cases moving <;> first | rfl | exact absurd rfl hknows
    have hsends : sendsAfter exec moving answer sends = sends := by
      cases moving <;> first | rfl | exact absurd rfl hknows
    rw [hcreates, hsends]
    exact hlog

end Frame

/-! ## What the rows say of the log -/

def CreateOpen (table : DraftTable) (c : String) : Prop :=
  ∃ row, table.byClient c = some row ∧ (row.state = .creating ∨ row.gmailDraftId ≠ none)

def SendOpen (table : DraftTable) (c : String) : Prop :=
  ∃ row, table.byClient c = some row ∧ (row.state = .sending ∨ row.state = .sent)

structure RowsKnow (table : DraftTable) (creates sends : List CallRecord) : Prop where
  creates : ∀ call ∈ creates, call.failed isDefiniteFailure = false →
    CreateOpen table call.clientDraftId
  sends : ∀ call ∈ sends, call.failed isDefiniteSendFailure = false →
    SendOpen table call.clientDraftId

variable {table : DraftTable} {creates sends : List CallRecord}

theorem RowsKnow.allCreatesFailed (h : RowsKnow table creates sends) (hc : ¬CreateOpen table c) :
    AllFailed isDefiniteFailure creates c := by
  rintro call hcall rfl
  by_contra hfailed
  exact hc (h.creates call hcall (by simpa using hfailed))

theorem RowsKnow.allSendsFailed (h : RowsKnow table creates sends) (hc : ¬SendOpen table c) :
    AllFailed isDefiniteSendFailure sends c := by
  rintro call hcall rfl
  by_contra hfailed
  exact hc (h.sends call hcall (by simpa using hfailed))

variable {next : Next}

variable {opened : String → Prop} {handle : DraftHandle}

theorem CreateOpen.change {codec : DraftCodec} {after : DraftTable}
    (hok : point.Ok opened handle table) (hlog : point.LogOk exec creates sends)
    (hstep : draftStep codec handle table point answer = some (after, next))
    (hc : CreateOpen table c) : CreateOpen after c ∨ AllFailed isDefiniteFailure creates c := by
  rcases draftStep_rows hok hstep c with hsame | ⟨row, hrow, hchange⟩
  · obtain ⟨row, hrow, hstate⟩ := hc
    exact Or.inl ⟨row, hsame.trans hrow, hstate⟩
  cases hchange with
  | edited hstored hopen => exact Or.inl ⟨row, hrow, hopen⟩
  | createFailed work error response hpoint hclient =>
    subst hpoint
    have hkey := after.client_of_byClient hrow
    exact Or.inr (hkey.symm.trans hclient ▸ hlog)
  | claimed mapping hstored hsaved hnew hbound
  | restored sending clientSendId error rejected hpoint hstored hid hclient hnew hbound
  | finalized sending hstored hsending hnew hbound | deleted old hstored hold hold' hbound =>
    exact Or.inl ⟨row, hrow, Or.inr hbound⟩

theorem SendOpen.change {codec : DraftCodec} {after : DraftTable}
    (hok : point.Ok opened handle table) (hlog : point.LogOk exec creates sends)
    (hstep : draftStep codec handle table point answer = some (after, next))
    (hc : SendOpen table c) : SendOpen after c ∨ AllFailed isDefiniteSendFailure sends c := by
  obtain ⟨old, hold, hopen⟩ := hc
  -- A row that may be changed is not being sent.
  have hmutable : (∀ r, table.byClient c = some r → r.state.isMutable = true) → False := by
    intro h
    have hstate := h old hold
    rcases hopen with hopen | hopen <;> rw [hopen] at hstate <;> cases hstate
  rcases draftStep_rows hok hstep c with hsame | ⟨row, hrow, hchange⟩
  · exact Or.inl ⟨old, hsame.trans hold, hopen⟩
  cases hchange with
  | edited hstored | createFailed work error response hpoint hclient hstored =>
    exact (hmutable hstored).elim
  | claimed mapping hstored hsaved hnew => exact Or.inl ⟨row, hrow, Or.inl hnew⟩
  | restored sending clientSendId error rejected hpoint hstored hid hclient =>
    subst hpoint
    have hkey := after.client_of_byClient hrow
    exact Or.inr (hkey.symm.trans hclient ▸ hlog.1)
  | finalized sending hstored hsending hnew => exact Or.inl ⟨row, hrow, Or.inr hnew⟩
  | deleted deleted hstored hsending hsent =>
    rw [hold] at hstored
    cases hstored
    rcases hopen with hopen | hopen
    · exact absurd hopen hsending
    · exact absurd hopen hsent

variable {work : SaveWork}

/-! ## The operation itself -/

section Step

variable {opened : String → Prop} {codec : DraftCodec} {handle : DraftHandle}
  {table after : DraftTable} {exec : Nat} {creates sends : List CallRecord}

/-- What comes next is a point at which the operation knows something of the log. -/
def Next.knowsLog : Next → Bool
  | .goto point => point.knowsLog
  | .adopt _ point => point.knowsLog
  | .finish _ => false

theorem Next.logOk_of_not_knowsLog (h : next.knowsLog = false) (exec : Nat)
    (creates sends : List CallRecord) : next.LogOk exec creates sends := by
  cases next with
  | goto point | adopt g point => exact point.logOk_of_not_knowsLog h exec creates sends
  | finish => trivial

theorem preparedSave_log (hopens : CreateOpens work.existing work.gmailDraftId) :
    (preparedSave work).LogOk exec creates sends := by
  unfold preparedSave
  split
  · trivial
  split
  · trivial
  · case isFalse hcheckpoint =>
      intro hnone
      refine absurd ?_ hcheckpoint
      cases hexisting : work.existing with
      | none => rfl
      | some row => simp [needsCheckpoint, hopens hnone row hexisting]

theorem checkpoint_log (exec : Nat) (hrows : RowsKnow table creates sends)
    (hok : SaveOk opened handle table work.request work.existing work.gmailDraftId)
    (hopens : CreateOpens work.existing work.gmailDraftId) (row : ClientDraft) :
    (Point.saveCalling { work with existing := some row }).LogOk exec creates sends := by
  intro hnone
  refine hrows.allCreatesFailed ?_
  rintro ⟨old, hold, hopen⟩
  have hexisting : work.existing = some old := hok.read.symm.trans hold
  rcases hopen with hcreating | hbound
  · rw [hopens hnone old hexisting] at hcreating
    cases hcreating
  · obtain ⟨g, hg⟩ := Option.ne_none_iff_exists'.1 hbound
    have hsome := hok.editable.bound ⟨old, hold, hg⟩
    rw [show work.gmailDraftId = none from hnone] at hsome
    cases hsome

theorem providerFailed_log
    (hlog : (Point.saveAwaiting work).LogOk exec creates sends) (exc : ServiceError) :
    (providerFailed work exc).LogOk exec
      (createsAfter exec (.saveAwaiting work) (.raised exc) creates) sends := by
  have hfailed : ∀ error response, work.gmailDraftId.isNone = true →
      isDefiniteFailure exc = true →
      (Next.goto (.saveCreateFailed work error response)).LogOk exec
        (createsAfter exec (.saveAwaiting work) (.raised exc) creates) sends := by
    intro error response hisNone hdefinite
    have hnone := Option.isNone_iff_eq_none.1 hisNone
    show AllFailed isDefiniteFailure _ _
    simp only [createsAfter, hnone, if_true]
    exact (hlog hnone).answered hdefinite
  unfold providerFailed
  cases exc with
  | credentialsUnavailable =>
    by_cases hnone : work.gmailDraftId.isNone = true
    · simp only [hnone, if_true]
      exact hfailed _ _ hnone rfl
    · simp only [hnone]
      trivial
  | http status =>
    by_cases hauth : isAuthStatus status = true
    · by_cases hnone : work.gmailDraftId.isNone = true
      · simp only [hauth, hnone, if_true]
        exact hfailed _ _ hnone (by simp [isDefiniteFailure, hauth])
      · simp only [hauth, hnone, if_true]
        trivial
    · by_cases hnone : work.gmailDraftId.isNone = true ∧
          Sends.isDefiniteGoogleClientRejection status = true
      · simp only [hauth, hnone, and_self, if_true]
        exact hfailed _ _ hnone.1 (by simp [isDefiniteFailure, hnone.2])
      · simp only [hauth, hnone, if_false]
        trivial
  | userMailWorkBlocked | connection | other => trivial

theorem sendFailed_log {sending : ClientDraft} {clientSendId : String}
    (hlog : (Point.sendAwaiting sending clientSendId).LogOk exec creates sends)
    (exc : ServiceError) :
    (sendFailed sending clientSendId exc).LogOk exec creates
      (sendsAfter exec (.sendAwaiting sending clientSendId) (.raised exc) sends) := by
  have hrestoring : ∀ error rejected, isDefiniteSendFailure exc = true →
      (Next.goto (.sendRestoring sending clientSendId error rejected)).LogOk exec creates
        (sendsAfter exec (.sendAwaiting sending clientSendId) (.raised exc) sends) := by
    intro error rejected hdefinite
    obtain ⟨hothers, call, hcall, hopen, hclient, hid⟩ := hlog
    exact ⟨hothers.answered hdefinite, { call with answer := some (.raised exc) },
      List.mem_map.2 ⟨call, hcall, if_pos hopen⟩, hdefinite, hclient, hid⟩
  unfold sendFailed
  split
  · exact hrestoring _ _ rfl
  · case h_2 status =>
      split
      · case isTrue hauth =>
          refine hrestoring _ _ ?_
          have hfound : ServiceError.http status ≠ .http (some 404) := by
            intro heq
            cases heq
            cases hauth
          simp [isDefiniteSendFailure, isDefiniteFailure, hauth, hfound]
      · case isFalse hauth =>
          split
          · trivial
          case isFalse hfound =>
            split
            · case isTrue hdefinite =>
                refine hrestoring _ _ ?_
                have hne : ServiceError.http status ≠ .http (some 404) := by
                  intro heq
                  cases heq
                  exact hfound rfl
                simp [isDefiniteSendFailure, isDefiniteFailure, hdefinite, hne]
            · trivial
  · trivial

theorem enterSave_quiet (lock : Option String) (request : MailDraftSaveRequest)
    (existing : Option ClientDraft) : (enterSave lock request existing).knowsLog = false := by
  unfold enterSave
  (repeat' split) <;> rfl

theorem searchedSave_quiet (lock : Option String) (request : MailDraftSaveRequest)
    (existing : Option ClientDraft) (found : Option String) :
    (searchedSave lock request existing found).knowsLog = false := by
  unfold searchedSave
  (repeat' split) <;> rfl

theorem preparingFailed_quiet (request : MailDraftSaveRequest) (exc : ServiceError) :
    (preparingFailed request exc).knowsLog = false := by
  unfold preparingFailed
  split <;> rfl

theorem enterDelete_quiet (g : String) (mapping : Option ClientDraft) :
    (enterDelete g mapping).knowsLog = false := by
  unfold enterDelete
  (repeat' split) <;> rfl

theorem deletedAtGmail_quiet (g : String) (mapping : Option ClientDraft) :
    (deletedAtGmail g mapping).knowsLog = false := by
  cases mapping <;> rfl

theorem deleteFailed_quiet (exc : ServiceError) {notFound : Next}
    (h : notFound.knowsLog = false) : (deleteFailed exc notFound).knowsLog = false := by
  unfold deleteFailed
  (repeat' split) <;> first | rfl | exact h

theorem enterSend_quiet (g clientSendId : String) (mapping : Option ClientDraft) :
    (enterSend g clientSendId mapping).knowsLog = false := by
  unfold enterSend
  (repeat' split) <;> rfl

/-- **What an operation knows of the log** is kept by its own steps. -/
theorem draftStep_log (htable : TableOk opened table) (hrows : RowsKnow table creates sends)
    (hok : point.Ok opened handle table) (hlog : point.LogOk exec creates sends)
    (hstep : draftStep codec handle table point answer = some (after, next)) :
    next.LogOk exec (createsAfter exec point answer creates) (sendsAfter exec point answer sends) := by
  have hquiet : next.knowsLog = false →
      next.LogOk exec (createsAfter exec point answer creates)
        (sendsAfter exec point answer sends) :=
    fun h => next.logOk_of_not_knowsLog h exec _ _
  have hstatement : ∀ {written : Option (DraftTable × ClientDraft)} {returned : ClientDraft → Next}
      {nothing : Next}, some (afterStatement table written returned nothing) = some (after, next) →
      (∀ row, (returned row).knowsLog = false) → nothing.knowsLog = false →
      next.knowsLog = false := by
    intro written returned nothing h hreturned hnothing
    rcases afterStatement_cases h with ⟨-, -, rfl⟩ | ⟨row, -, rfl⟩
    · exact hnothing
    · exact hreturned row
  cases point with
  | savePreparing request =>
    cases answer with
    | reads =>
      cases hstep
      split
      · trivial
      · exact preparedSave_log hok.2
    | invalid =>
      cases hstep
      trivial
    | raised exc =>
      cases hstep
      exact hquiet (preparingFailed_quiet request exc)
    | _ => cases hstep
  | saveCheckpoint =>
    cases answer with
    | proceed =>
      simp only [draftStep, afterStatement] at hstep
      split at hstep
      · cases hstep
        trivial
      · case h_2 row hwritten =>
          cases hstep
          exact checkpoint_log exec hrows hok.1 hok.2 row
    | _ => cases hstep
  | saveCalling =>
    cases answer with
    | proceed =>
      cases hstep
      intro hnone
      simp only [createsAfter, hnone, if_true]
      exact (hlog hnone).cons ⟨rfl, rfl⟩
    | _ => cases hstep
  | saveAwaiting =>
    cases answer with
    | resource =>
      cases hstep
      refine hquiet ?_
      unfold providerAccepted
      split
      · rfl
      · simp only
        split <;> rfl
    | raised exc =>
      cases hstep
      exact providerFailed_log hlog exc
    | _ => cases hstep
  | sendClaiming mapping =>
    cases answer with
    | proceed =>
      simp only [draftStep, afterStatement] at hstep
      split at hstep
      · cases hstep
        trivial
      case h_2 row hwritten =>
        cases hstep
        obtain ⟨-, -, ⟨hsend, -, -⟩, hsaved⟩ := claim_ok hwritten htable hok.1
        have hkey : row.clientDraftId = mapping.clientDraftId :=
          hsend.client.symm.trans hok.1.client
        refine hrows.allSendsFailed ?_
        rintro ⟨old, hold, hopen⟩
        rw [hkey, hok.1.read] at hold
        cases hold
        rcases hopen with hopen | hopen <;> rw [hopen] at hsaved <;> cases hsaved
    | _ => cases hstep
  | sendCalling =>
    cases answer with
    | proceed =>
      cases hstep
      exact ⟨AllFailed.cons hlog ⟨rfl, rfl⟩, _, List.mem_cons_self, ⟨rfl, rfl⟩, rfl, rfl⟩
    | _ => cases hstep
  | sendAwaiting =>
    cases answer with
    | resource =>
      cases hstep
      refine hquiet ?_
      unfold sendAccepted
      split <;> rfl
    | raised exc =>
      cases hstep
      exact sendFailed_log hlog exc
    | _ => cases hstep
  | saveEntered =>
    cases answer <;> cases hstep
    exact hquiet (enterSave_quiet _ _ _)
  | saveAdopted =>
    cases answer <;> cases hstep
    refine hquiet ?_
    unfold adoptedSave
    split <;> rfl
  | saveSearching =>
    cases answer <;> cases hstep
    · exact hquiet (searchedSave_quiet _ _ _ _)
    · exact hquiet (preparingFailed_quiet _ _)
  | saveCreateFailed =>
    cases answer with
    | proceed =>
      simp only [draftStep] at hstep
      split at hstep
      · cases hstep
      · exact hquiet (hstatement hstep (fun _ => rfl) rfl)
    | _ => cases hstep
  | saveRebinding =>
    cases answer <;> cases hstep
    refine hquiet ?_
    unfold reboundSave
    split <;> rfl
  | saveConfirming =>
    cases answer <;> cases hstep
    · refine hquiet ?_
      unfold confirmedSave
      split <;> rfl
    · refine hquiet ?_
      unfold confirmationFailed
      (repeat' split) <;> rfl
  | saveGone | saveHydrated | getStoring | deleteMarking | sendRestoring | sendFinalizing =>
    cases answer <;> first | exact hquiet (hstatement hstep (fun _ => rfl) rfl) | cases hstep
  | saveStoring work result =>
    have hstored : ∀ row, (storedSave work result row).knowsLog = false := by
      intro row
      unfold storedSave
      split <;> rfl
    cases answer <;> first | exact hquiet (hstatement hstep hstored rfl) | cases hstep
  | saveHydrating =>
    cases answer <;> cases hstep
    · refine hquiet ?_
      unfold hydratedSave
      split <;> rfl
    · trivial
  | saveReopening => cases answer <;> cases hstep <;> trivial
  | getEntered =>
    cases answer <;> cases hstep
    refine hquiet ?_
    unfold enterGet
    (repeat' split) <;> rfl
  | getFetching =>
    cases answer <;> cases hstep
    · refine hquiet ?_
      unfold fetchedGet
      split <;> rfl
    · refine hquiet ?_
      unfold getFailed
      (repeat' split) <;> rfl
  | deleteEntered g =>
    cases answer <;> cases hstep
    exact hquiet (enterDelete_quiet _ _)
  | deleteFetching =>
    cases answer <;> cases hstep
    · trivial
    · exact hquiet (deleteFailed_quiet _ rfl)
  | deleteCalling =>
    cases answer <;> cases hstep
    · exact hquiet (deletedAtGmail_quiet _ _)
    · exact hquiet (deleteFailed_quiet _ (deletedAtGmail_quiet _ _))
  | sendEntered =>
    cases answer <;> cases hstep
    exact hquiet (enterSend_quiet _ _ _)
  | sendReconciling =>
    cases answer <;> cases hstep
    · refine hquiet ?_
      unfold reconciledSend
      split <;> rfl
    · trivial
    · trivial
    · trivial

end Step

end ElectronicMail.Drafts
