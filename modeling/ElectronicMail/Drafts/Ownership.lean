import ElectronicMail.Drafts.Operation

/-!
# Rows that an operation may write

The lock that protects a row is the one of its Gmail draft once it is bound, and the one
of its client before. `DraftHandle.Guards` says that a handle holds it, `Moves` that a step
changes guarded rows only and keeps what is bound, and `Point.Ok` what an operation knows
at each of its points. One step of an operation keeps all of it (`draftStep_ok`), and so do
the steps of operations with other locks (`Point.Ok.frame`).

A get names the client draft of an unknown Gmail draft itself. `opened` are the Gmail
drafts that are opened by a get, and `OnDraft` says that the client draft of that name is
not used for another Gmail draft.
-/

namespace ElectronicMail.Drafts

open Google
open Sends (isDefiniteGoogleClientRejection)

/-! ## Mutable mappings -/

/-- The states that `_require_mutable_draft_mapping` lets pass. -/
def DraftState.isMutable : DraftState → Bool
  | .creating => true
  | .saved => true
  | .failed => true
  | _ => false

theorem requireMutableDraftMapping_eq_none {existing : Option ClientDraft}
    {requested : Option String} (h : requireMutableDraftMapping existing requested = none) :
    ∀ row, existing = some row → row.state.isMutable = true ∧
      (row.gmailDraftId = none ∨ given requested = none ∨ row.gmailDraftId = requested) := by
  rintro row rfl
  simp only [requireMutableDraftMapping] at h
  split at h
  · cases h
  case isFalse hfinal =>
    split at h
    · cases h
    case isFalse hsending =>
      split at h
      · cases h
      case isFalse hbound =>
        constructor
        · cases hstate : row.state <;> simp_all [DraftState.isMutable]
        by_cases hnone : row.gmailDraftId = none
        · exact Or.inl hnone
        · by_cases hgiven : given requested = none
          · exact Or.inr (Or.inl hgiven)
          · refine Or.inr (Or.inr ?_)
            by_contra hne
            exact hbound ⟨hnone, hgiven, hne⟩

theorem DraftState.isMutable_of_not_isFinal {state : DraftState} (h : ¬state.isFinal = true) :
    state.isMutable = true := by
  cases state <;> simp_all [DraftState.isMutable, DraftState.isFinal]

/-! ## Locks and rows -/

/-- A Gmail draft that the client draft may be bound to: the client draft with the name of
an opened Gmail draft is used for that draft. -/
structure OnDraft (opened : String → Prop) (clientDraftId gmailDraftId : String) : Prop where
  nonempty : gmailDraftId ≠ ""
  named : ∀ x, opened x → clientDraftId = fallbackClientDraftId x → gmailDraftId = x

def Bound (table : DraftTable) (clientDraftId gmailDraftId : String) : Prop :=
  ∃ row, table.byClient clientDraftId = some row ∧ row.gmailDraftId = some gmailDraftId

structure DraftHandle.Guards (handle : DraftHandle) (table : DraftTable) (c : String) : Prop where
  bound : ∀ g, Bound table c g → handle.gmailDraftId = some g
  unbound : (∀ g, ¬Bound table c g) → handle.clientDraftId = c

structure DraftHandle.Apart (handle other : DraftHandle) : Prop where
  client : handle.clientDraftId ≠ other.clientDraftId
  gmail : ∀ g, handle.gmailDraftId = some g → other.gmailDraftId ≠ some g

variable {c : String}

variable {handle : DraftHandle} {table : DraftTable}

theorem DraftHandle.Apart.not_guards {other : DraftHandle} (h : handle.Apart other)
    (hguards : handle.Guards table c) : ¬other.Guards table c := by
  intro hother
  by_cases hbound : ∃ g, Bound table c g
  · obtain ⟨g, hg⟩ := hbound
    exact h.gmail g (hguards.bound g hg) (hother.bound g hg)
  · have hunbound := not_exists.1 hbound
    exact h.client ((hguards.unbound hunbound).trans (hother.unbound hunbound).symm)

structure TableOk (opened : String → Prop) (table : DraftTable) : Prop where
  unbound : ∀ c row, table.byClient c = some row → row.gmailDraftId = none →
    row.state = .creating ∨ row.state = .failed
  onDraft : ∀ c g, Bound table c g → OnDraft opened c g

theorem tableOk_empty (opened : String → Prop) : TableOk opened DraftTable.empty where
  unbound := by
    intro c row h
    cases h
  onDraft := by
    rintro c g ⟨row, h, -⟩
    cases h

structure Moves (handle : DraftHandle) (table after : DraftTable) : Prop where
  guarded : ∀ c, handle.Guards table c ∨ after.byClient c = table.byClient c
  bound : ∀ c g, Bound table c g → Bound after c g

theorem Moves.refl (handle : DraftHandle) (table : DraftTable) : Moves handle table table where
  guarded _ := Or.inr rfl
  bound _ _ h := h

theorem Wrote.ok {opened : String → Prop} {after : DraftTable} {row : ClientDraft}
    (hwrote : Wrote table after row) (htable : TableOk opened table)
    (hguards : handle.Guards table row.clientDraftId)
    (hkeeps : ∀ g, Bound table row.clientDraftId g → row.gmailDraftId = some g)
    (hunbound : row.gmailDraftId = none → row.state = .creating ∨ row.state = .failed)
    (hscope : ∀ g, row.gmailDraftId = some g → OnDraft opened row.clientDraftId g) :
    TableOk opened after ∧ Moves handle table after := by
  have hother : ∀ c, c ≠ row.clientDraftId → after.byClient c = table.byClient c := hwrote.others
  refine ⟨⟨?_, ?_⟩, ⟨?_, ?_⟩⟩
  · intro c stored hstored hnone
    by_cases hc : c = row.clientDraftId
    · rw [hc, hwrote.returned] at hstored
      cases hstored
      exact hunbound hnone
    · rw [hother c hc] at hstored
      exact htable.unbound c stored hstored hnone
  · rintro c g ⟨stored, hstored, hg⟩
    by_cases hc : c = row.clientDraftId
    · rw [hc, hwrote.returned] at hstored
      cases hstored
      rw [hc]
      exact hscope g hg
    · rw [hother c hc] at hstored
      exact htable.onDraft c g ⟨stored, hstored, hg⟩
  · intro c
    by_cases hc : c = row.clientDraftId
    · exact Or.inl (hc ▸ hguards)
    · exact Or.inr (hother c hc)
  · intro c g hbound
    by_cases hc : c = row.clientDraftId
    · subst hc
      exact ⟨row, hwrote.returned, hkeeps g hbound⟩
    · obtain ⟨stored, hstored, hg⟩ := hbound
      exact ⟨stored, (hother c hc).trans hstored, hg⟩

/-- The row of the client, if there is one, may be changed by a save or get that is on the
Gmail draft `g`. -/
def Editable (table : DraftTable) (c : String) (g : Option String) : Prop :=
  ∀ row, table.byClient c = some row →
    row.state.isMutable = true ∧ (row.gmailDraftId = none ∨ row.gmailDraftId = g)

theorem Editable.bound {g : Option String} (h : Editable table c g) {x : String}
    (hx : Bound table c x) : g = some x := by
  obtain ⟨row, hrow, hg⟩ := hx
  rcases (h row hrow).2 with hnone | heq
  · rw [hg] at hnone
    cases hnone
  · exact heq.symm.trans hg

theorem Editable.guards {g : Option String} (h : Editable table c g)
    (hclient : handle.clientDraftId = c) (hgmail : ∀ x, g = some x → handle.gmailDraftId = some x) :
    handle.Guards table c where
  bound x hx := hgmail x (h.bound hx)
  unbound _ := hclient

variable {g : String}

theorem guards_of_bound (hbound : Bound table c g) (hgmail : handle.gmailDraftId = some g) :
    handle.Guards table c where
  bound x hx := by
    obtain ⟨row, hrow, hg⟩ := hbound
    obtain ⟨row', hrow', hx⟩ := hx
    rw [hrow] at hrow'
    cases hrow'
    rw [hgmail, ← hg, hx]
  unbound hnone := absurd hbound (hnone g)

/-! ## What an operation knows -/

def Point.isWaiting : Point → Bool
  | .saveEntered _ => true
  | .saveAdopted _ _ => true
  | .saveRebinding _ _ => true
  | .getEntered _ _ _ _ => true
  | .deleteEntered _ => true
  | .sendEntered _ _ _ => true
  | _ => false

section Facts

variable (opened : String → Prop) (handle : DraftHandle) (table : DraftTable)

/-- A save under the locks of its client and of its Gmail draft, if there is one. -/
structure SaveOk (request : MailDraftSaveRequest) (existing : Option ClientDraft)
    (g : Option String) : Prop where
  client : handle.clientDraftId = request.clientDraftId
  read : table.byClient request.clientDraftId = existing
  editable : Editable table request.clientDraftId g
  gmail : ∀ x, g = some x → handle.gmailDraftId = some x ∧ OnDraft opened request.clientDraftId x

def CreateOpens (existing : Option ClientDraft) (g : Option String) : Prop :=
  g = none → ∀ row, existing = some row → row.state = .failed

structure CallOk (work : SaveWork) : Prop extends
    SaveOk opened handle table work.request work.existing work.gmailDraftId where
  row : ∃ row, work.existing = some row ∧ row.gmailDraftId = work.gmailDraftId ∧
    (work.gmailDraftId = none → row.state = .creating)

/-- A save that knows its Gmail draft, before it has read the row again. -/
structure HandleOk (request : MailDraftSaveRequest) (g : String) : Prop where
  client : handle.clientDraftId = request.clientDraftId
  gmail : handle.gmailDraftId = some g
  scope : OnDraft opened request.clientDraftId g

structure ResultOk (request : MailDraftSaveRequest) (g : String) : Prop extends
    HandleOk opened handle request g where
  editable : Editable table request.clientDraftId (some g)

structure GetOk (g : String) (mapping : Option ClientDraft) (client : String) : Prop where
  gmail : handle.gmailDraftId = some g
  editable : Editable table client (some g)
  scope : OnDraft opened client g
  guards : handle.clientDraftId = client ∨ Bound table client g
  read : ∀ row, mapping = some row → table.byClient client = some row

structure SendOk (row : ClientDraft) : Prop where
  client : handle.clientDraftId = row.clientDraftId
  gmail : handle.gmailDraftId = row.gmailDraftId
  bound : ∃ g, row.gmailDraftId = some g
  read : table.byClient row.clientDraftId = some row

def Point.Ok : Point → Prop
  | .saveEntered request =>
    handle.clientDraftId = request.clientDraftId ∧
      ∀ g, given request.gmailDraftId = some g → OnDraft opened request.clientDraftId g
  | .saveAdopted request g => HandleOk opened handle request g
  | .saveSearching request existing => SaveOk opened handle table request existing none
  | .savePreparing request existing g =>
    SaveOk opened handle table request existing g ∧ CreateOpens existing g
  | .saveCheckpoint work =>
    SaveOk opened handle table work.request work.existing work.gmailDraftId ∧
      CreateOpens work.existing work.gmailDraftId
  | .saveCalling work => CallOk opened handle table work
  | .saveAwaiting work => CallOk opened handle table work
  | .saveCreateFailed work _ _ => CallOk opened handle table work ∧ work.gmailDraftId = none
  | .saveRebinding work result => HandleOk opened handle work.request result.gmailDraftId
  | .saveConfirming work result _ => ResultOk opened handle table work.request result.gmailDraftId
  | .saveGone work result => ResultOk opened handle table work.request result.gmailDraftId
  | .saveStoring work result => ResultOk opened handle table work.request result.gmailDraftId
  | .saveHydrating work result _ => ResultOk opened handle table work.request result.gmailDraftId
  | .saveHydrated work result _ => ResultOk opened handle table work.request result.gmailDraftId
  | .saveReopening work g =>
    HandleOk opened handle work.request g ∧ Bound table work.request.clientDraftId g
  | .getEntered g mapping client _ =>
    handle = ⟨client, some g⟩ ∧
      match mapping with
      | none => client = fallbackClientDraftId g ∧ opened g ∧ g ≠ ""
      | some _ => Bound table client g
  | .getFetching g mapping client _ => GetOk opened handle table g mapping client
  | .getStoring g mapping client _ _ => GetOk opened handle table g mapping client
  | .deleteEntered g => handle.gmailDraftId = some g
  | .deleteFetching g mapping =>
    handle.gmailDraftId = some g ∧ ∀ row, mapping = some row → Bound table row.clientDraftId g
  | .deleteCalling g mapping =>
    handle.gmailDraftId = some g ∧ ∀ row, mapping = some row → Bound table row.clientDraftId g
  | .deleteMarking g row => handle.gmailDraftId = some g ∧ Bound table row.clientDraftId g
  | .sendEntered client g _ => handle = ⟨client, some g⟩
  | .sendClaiming row _ => SendOk handle table row ∧ row.state = .saved
  | .sendCalling row clientSendId =>
    SendOk handle table row ∧ row.state = .sending ∧ row.lastClientSendId = some clientSendId
  | .sendAwaiting row clientSendId =>
    SendOk handle table row ∧ row.state = .sending ∧ row.lastClientSendId = some clientSendId
  | .sendRestoring row clientSendId _ _ =>
    SendOk handle table row ∧ row.state = .sending ∧ row.lastClientSendId = some clientSendId
  | .sendReconciling row => SendOk handle table row ∧ row.state = .sending
  | .sendFinalizing row _ _ => SendOk handle table row ∧ row.state = .sending

def Next.Ok : Next → Prop
  | .goto point => point.Ok opened handle table
  | .adopt g point =>
    point.isWaiting = true ∧ point.Ok opened ⟨handle.clientDraftId, some g⟩ table
  | .finish _ => True

end Facts

/-- What Gmail answers a save with: drafts of its client, and for an update the draft that
was updated. -/
def AnswersOnDraft (opened : String → Prop) : Point → Answer → Prop
  | .saveSearching request _, .found found =>
    ∀ g, given found = some g → OnDraft opened request.clientDraftId g
  | .saveAwaiting work, .resource resource =>
    ∀ g, given resource.id = some g →
      OnDraft opened work.request.clientDraftId g ∧ ∀ x, work.gmailDraftId = some x → g = x
  | _, _ => True

variable {request : MailDraftSaveRequest} {work : SaveWork} {result : ProviderResult}
  {sending : ClientDraft}

/-! ## The decisions of an operation -/

section Decisions

variable {opened : String → Prop} {handle : DraftHandle} {table : DraftTable}

theorem editable_of_requireMutable {requested g : Option String}
    (h : requireMutableDraftMapping (table.byClient c) requested = none)
    (hg : ∀ x, Bound table c x → g = some x) : Editable table c g := by
  intro row hrow
  refine ⟨(requireMutableDraftMapping_eq_none h row hrow).1, ?_⟩
  cases hgmail : row.gmailDraftId with
  | none => exact Or.inl rfl
  | some x => exact Or.inr (hg x ⟨row, hrow, hgmail⟩).symm

theorem requested_eq_of_bound
    (h : requireMutableDraftMapping (table.byClient c) (some g) = none) (hg : g ≠ "") {x : String}
    (hx : Bound table c x) : some g = some x := by
  obtain ⟨row, hrow, hgmail⟩ := hx
  rcases (requireMutableDraftMapping_eq_none h row hrow).2 with hnone | hgiven | heq
  · rw [hgmail] at hnone
    cases hnone
  · exact absurd (by simpa [given] using hgiven) hg
  · exact heq.symm.trans hgmail

theorem enterSave_ok (htable : TableOk opened table)
    (hok : (Point.saveEntered request).Ok opened handle table) :
    (enterSave handle.gmailDraftId request (table.byClient request.clientDraftId)).Ok
      opened handle table := by
  obtain ⟨hclient, hrequest⟩ := hok
  unfold enterSave
  cases hmutable : requireMutableDraftMapping (table.byClient request.clientDraftId)
      request.gmailDraftId with
  | some => trivial
  | none =>
    cases hg : ((table.byClient request.clientDraftId).bind ClientDraft.gmailDraftId).or
        (given request.gmailDraftId) with
    | none =>
      have hunbound : ∀ x, ¬Bound table request.clientDraftId x := by
        rintro x ⟨row, hrow, hx⟩
        rw [hrow, Option.bind_some, hx, Option.some_or] at hg
        cases hg
      exact
        { client := hclient
          read := rfl
          editable := editable_of_requireMutable hmutable fun x hx => absurd hx (hunbound x)
          gmail := by
            intro x hx
            cases hx }
    | some g =>
      have hbound : ∀ x, Bound table request.clientDraftId x → some g = some x := by
        rintro x ⟨row, hrow, hx⟩
        rw [hrow, Option.bind_some, hx, Option.some_or] at hg
        exact hg.symm
      have hscope : OnDraft opened request.clientDraftId g := by
        cases hread : (table.byClient request.clientDraftId).bind ClientDraft.gmailDraftId with
        | none =>
          rw [hread, Option.none_or] at hg
          exact hrequest g hg
        | some x =>
          rw [hread, Option.some_or] at hg
          obtain ⟨row, hrow, hx⟩ := Option.bind_eq_some_iff.1 hread
          cases hg
          exact htable.onDraft _ _ ⟨row, hrow, hx⟩
      by_cases hlock : handle.gmailDraftId = some g
      · simp only [hlock, if_true]
        refine ⟨?_, ?_⟩
        · exact
            { client := hclient
              read := rfl
              editable := editable_of_requireMutable hmutable hbound
              gmail := by
                intro x hx
                cases hx
                exact ⟨hlock, hscope⟩ }
        · intro hnone
          cases hnone
      · simp only [hlock, if_false]
        exact ⟨rfl, hclient, rfl, hscope⟩

theorem saveOk_of_handleOk (hok : HandleOk opened handle request g)
    (hmutable : requireMutableDraftMapping (table.byClient request.clientDraftId) (some g) = none) :
    SaveOk opened handle table request (table.byClient request.clientDraftId) (some g) where
  client := hok.client
  read := rfl
  editable :=
    editable_of_requireMutable hmutable fun _ hx => requested_eq_of_bound hmutable hok.scope.nonempty hx
  gmail := by
    intro x hx
    cases hx
    exact ⟨hok.gmail, hok.scope⟩

theorem adoptedSave_ok (hok : HandleOk opened handle request g) :
    (adoptedSave request g (table.byClient request.clientDraftId)).Ok opened handle table := by
  unfold adoptedSave
  cases hmutable : requireMutableDraftMapping (table.byClient request.clientDraftId) (some g) with
  | some => trivial
  | none => exact ⟨saveOk_of_handleOk hok hmutable, fun hnone => nomatch hnone⟩

theorem searchedSave_ok (htable : TableOk opened table)
    {existing : Option ClientDraft} {found : Option String}
    (hok : SaveOk opened handle table request existing none)
    (hfound : ∀ g, given found = some g → OnDraft opened request.clientDraftId g) :
    (searchedSave handle.gmailDraftId request existing found).Ok opened handle table := by
  have hunbound : ∀ x, ¬Bound table request.clientDraftId x := by
    intro x hx
    cases hok.editable.bound hx
  unfold searchedSave
  cases hg : given found with
  | some g =>
    by_cases hlock : handle.gmailDraftId = some g
    · simp only [hlock, if_true]
      refine ⟨⟨hok.client, hok.read, ?_, ?_⟩, fun hnone => nomatch hnone⟩
      · intro row hrow
        obtain ⟨hstate, hbound⟩ := hok.editable row hrow
        exact ⟨hstate, Or.inl (or_self_iff.1 hbound)⟩
      · intro x hx
        cases hx
        exact ⟨hlock, hfound g hg⟩
    · simp only [hlock, if_false]
      exact ⟨rfl, hok.client, rfl, hfound g hg⟩
  | none =>
    by_cases hcreating : existing.any fun row => decide (row.state = .creating)
    · simp only [hcreating, if_true]
      trivial
    simp only [hcreating]
    refine ⟨hok, ?_⟩
    -- An unbound row is being created or has failed.
    rintro - row rfl
    have hstate := htable.unbound _ row hok.read (or_self_iff.1 (hok.editable row hok.read).2)
    rcases hstate with hstate | hstate
    · exact absurd (by simp [hstate]) hcreating
    · exact hstate

theorem preparedSave_ok (htable : TableOk opened table)
    (hok : SaveOk opened handle table work.request work.existing work.gmailDraftId)
    (hopens : CreateOpens work.existing work.gmailDraftId) :
    (preparedSave work).Ok opened handle table := by
  unfold preparedSave
  cases hunchanged : unchangedDraft work.existing work.contentHash with
  | some g =>
    unfold unchangedDraft at hunchanged
    cases hexisting : work.existing with
    | none =>
      rw [hexisting] at hunchanged
      cases hunchanged
    | some row =>
      rw [hexisting] at hunchanged
      have hg : row.gmailDraftId = some g := by
        by_cases hsaved : row.state = .saved ∧ row.contentHash = work.contentHash
        · simpa only [hsaved, and_self, if_true] using hunchanged
        · simp only [hsaved, if_false] at hunchanged
          cases hunchanged
      have hbound : Bound table work.request.clientDraftId g :=
        ⟨row, hok.read.trans hexisting, hg⟩
      obtain ⟨hgmail, hscope⟩ := hok.gmail g (hok.editable.bound hbound)
      exact ⟨⟨hok.client, hgmail, hscope⟩, hbound⟩
  | none =>
    by_cases hcheckpoint : needsCheckpoint work.existing = true
    · simp only [hcheckpoint, if_true]
      exact ⟨hok, hopens⟩
    simp only [hcheckpoint]
    refine { toSaveOk := hok, row := ?_ }
    cases hexisting : work.existing with
    | none =>
      rw [hexisting] at hcheckpoint
      exact absurd rfl hcheckpoint
    | some row =>
      have hread := hok.read.trans hexisting
      cases hg : work.gmailDraftId with
      | none =>
        have hfailed := hopens hg row hexisting
        exact absurd (by simp [needsCheckpoint, hexisting, hfailed]) hcheckpoint
      | some g =>
        refine ⟨row, rfl, ?_, fun hnone => nomatch hnone⟩
        -- A saved row is bound.
        rw [← hg]
        refine (hok.editable row hread).2.resolve_left fun hnone => ?_
        rcases htable.unbound _ row hread hnone with hstate | hstate
        · exact hcheckpoint (by simp [needsCheckpoint, hexisting, hstate])
        · exact hcheckpoint (by simp [needsCheckpoint, hexisting, hstate])

theorem providerFailed_ok (hok : CallOk opened handle table work)
    (exc : ServiceError) : (providerFailed work exc).Ok opened handle table := by
  have hcreate : ∀ error response, work.gmailDraftId.isNone = true →
      (Next.goto (.saveCreateFailed work error response)).Ok opened handle table :=
    fun _ _ hnone => ⟨hok, Option.isNone_iff_eq_none.1 hnone⟩
  unfold providerFailed
  cases exc with
  | credentialsUnavailable =>
    by_cases hnone : work.gmailDraftId.isNone = true
    · simp only [hnone, if_true]
      exact hcreate _ _ hnone
    · simp only [hnone]
      trivial
  | http status =>
    by_cases hauth : isAuthStatus status = true
    · by_cases hnone : work.gmailDraftId.isNone = true
      · simp only [hauth, hnone, if_true]
        exact hcreate _ _ hnone
      · simp only [hauth, hnone, if_true]
        trivial
    · by_cases hnone : work.gmailDraftId.isNone = true ∧
          isDefiniteGoogleClientRejection status = true
      · simp only [hauth, hnone, and_self, if_true]
        exact hcreate _ _ hnone.1
      · simp only [hauth, hnone, if_false]
        trivial
  | userMailWorkBlocked | connection | other => trivial

theorem providerAccepted_ok (hok : CallOk opened handle table work) {resource : GmailResource}
    (hanswer : ∀ g, given resource.id = some g →
      OnDraft opened work.request.clientDraftId g ∧ ∀ x, work.gmailDraftId = some x → g = x) :
    (providerAccepted work resource).Ok opened handle table := by
  unfold providerAccepted
  cases hg : (given resource.id).or work.gmailDraftId with
  | none => trivial
  | some g =>
    cases hbefore : work.gmailDraftId with
    | none =>
      rw [hbefore, Option.or_none] at hg
      exact ⟨rfl, hok.client, rfl, (hanswer g hg).1⟩
    | some x =>
      have hsame : g = x := by
        cases hid : given resource.id with
        | none =>
          rw [hid, hbefore, Option.none_or] at hg
          exact (Option.some.inj hg).symm
        | some y =>
          rw [hid, Option.some_or] at hg
          cases hg
          exact (hanswer g hid).2 x hbefore
      subst hsame
      obtain ⟨hgmail, hscope⟩ := hok.gmail g hbefore
      exact ⟨⟨hok.client, hgmail, hscope⟩, hbefore ▸ hok.editable⟩

theorem reboundSave_ok (hok : HandleOk opened handle work.request result.gmailDraftId) :
    (reboundSave work result (table.byClient work.request.clientDraftId)).Ok
      opened handle table := by
  unfold reboundSave
  cases hmutable : requireMutableDraftMapping (table.byClient work.request.clientDraftId)
      (some result.gmailDraftId) with
  | some => trivial
  | none => exact ⟨hok, (saveOk_of_handleOk hok hmutable).editable⟩

section

variable (hok : ResultOk opened handle table work.request result.gmailDraftId)
include hok

theorem confirmedSave_ok (authoritative : Option ClientDraft) (resource : GmailResource) :
    (confirmedSave work result authoritative resource).Ok opened handle table := by
  cases authoritative with
  | none => exact hok
  | some => trivial

theorem confirmationFailed_ok (exc : ServiceError) :
    (confirmationFailed work result exc).Ok opened handle table := by
  unfold confirmationFailed
  by_cases hauth : needsReauth exc = true
  · simp only [hauth, if_true]
    trivial
  by_cases hgone : exc = .http (some 404)
  · simp only [hgone, if_true]
    split
    · trivial
    · exact hok
  · simp only [hauth, hgone, if_false]
    trivial

theorem storedSave_ok (record : ClientDraft) :
    (storedSave work result record).Ok opened handle table := by
  unfold storedSave
  cases result.gmailMessageId with
  | none => exact hok
  | some m => trivial

theorem hydratedSave_ok (record : ClientDraft)
    (resource : GmailResource) :
    (hydratedSave work result record resource).Ok opened handle table := by
  unfold hydratedSave
  cases given resource.messageId with
  | none => trivial
  | some m => exact hok

end

theorem fallbackClientDraftId_injective : Function.Injective fallbackClientDraftId := by
  intro g g' h
  have htext := congrArg String.toList h
  rw [fallbackClientDraftId, fallbackClientDraftId, String.toList_append, String.toList_append] at htext
  exact String.toList_injective (List.append_cancel_left htext)

theorem onDraft_fallback (hg : g ≠ "") :
    OnDraft opened (fallbackClientDraftId g) g where
  nonempty := hg
  named _ _ h := fallbackClientDraftId_injective h

theorem reopened_ok (hok : (Point.saveReopening work g).Ok opened handle table) :
    (Point.getEntered g (table.byGmail g)
      ((table.byGmail g).elim (fallbackClientDraftId g) ClientDraft.clientDraftId) (some work)).Ok
        opened handle table := by
  obtain ⟨⟨hclient, hgmail, -⟩, row, hrow, hg⟩ := hok
  have hkey := table.client_of_byClient hrow
  have hread : table.byGmail g = some row := table.byGmail_eq_some_iff.2 ⟨by rwa [hkey], hg⟩
  rw [hread]
  refine ⟨?_, row, ?_, hg⟩
  · cases handle
    simp_all
  · simpa [hkey] using hrow

variable {mapping : Option ClientDraft}

theorem enterGet_ok (htable : TableOk opened table) {client : String} {caller : Option SaveWork}
    (hok : (Point.getEntered g mapping client caller).Ok opened handle table) :
    (enterGet g mapping client caller (table.byGmail g)).Ok opened handle table := by
  obtain ⟨hhandle, hmapping⟩ := hok
  have hgmail : handle.gmailDraftId = some g := by rw [hhandle]
  unfold enterGet
  cases hread : table.byGmail g with
  | some row =>
    obtain ⟨hrow, hg⟩ := table.byGmail_eq_some_iff.1 hread
    by_cases hfinal : row.state.isFinal = true
    · simp only [hfinal, if_true]
      trivial
    simp only [hfinal]
    have hbound : Bound table row.clientDraftId g := ⟨row, hrow, hg⟩
    refine ⟨hgmail, ?_, htable.onDraft _ _ hbound, Or.inr hbound, ?_⟩
    · intro other hother
      rw [hrow] at hother
      cases hother
      exact ⟨DraftState.isMutable_of_not_isFinal hfinal, Or.inr hg⟩
    · rintro other h
      cases h
      exact hrow
  | none =>
    have hunbound : ∀ c, ¬Bound table c g := by
      rintro c ⟨row, hrow, hg⟩
      have hkey := table.client_of_byClient hrow
      rw [table.byGmail_eq_some_iff.2 ⟨by rwa [hkey], hg⟩] at hread
      cases hread
    cases mapping with
    | some row => exact absurd hmapping (hunbound client)
    | none =>
      obtain ⟨rfl, hopened, hnonempty⟩ := hmapping
      refine ⟨hgmail, ?_, onDraft_fallback hnonempty, Or.inl (by rw [hhandle]), fun row h => nomatch h⟩
      intro row hrow
      -- The client draft with the name of `g` is bound to no other Gmail draft.
      have hnone : row.gmailDraftId = none := by
        cases hg : row.gmailDraftId with
        | none => rfl
        | some x =>
          have hbound : Bound table (fallbackClientDraftId g) x := ⟨row, hrow, hg⟩
          have hx := (htable.onDraft _ _ hbound).named g hopened rfl
          exact absurd (hx ▸ hbound) (hunbound _)
      refine ⟨?_, Or.inl hnone⟩
      rcases htable.unbound _ row hrow hnone with hstate | hstate <;> rw [hstate] <;> rfl

theorem enterDelete_ok (hok : handle.gmailDraftId = some g) :
    (enterDelete g (table.byGmail g)).Ok opened handle table := by
  have hbound : ∀ row, table.byGmail g = some row → Bound table row.clientDraftId g := by
    intro row hrow
    obtain ⟨hread, hg⟩ := table.byGmail_eq_some_iff.1 hrow
    exact ⟨row, hread, hg⟩
  unfold enterDelete
  split
  · trivial
  · split
    · exact ⟨hok, hbound⟩
    · exact ⟨hok, hbound⟩

theorem deletedAtGmail_ok (hok : (Point.deleteCalling g mapping).Ok opened handle table) :
    (deletedAtGmail g mapping).Ok opened handle table := by
  cases mapping with
  | none => trivial
  | some row => exact ⟨hok.1, hok.2 row rfl⟩

theorem deleteFailed_ok {notFound : Next} (h : notFound.Ok opened handle table)
    (exc : ServiceError) : (deleteFailed exc notFound).Ok opened handle table := by
  unfold deleteFailed
  split
  · trivial
  · split
    · exact h
    · trivial
  · trivial

variable {clientSendId : String}

theorem enterSend_ok {client : String} (hok : handle = ⟨client, some g⟩) :
    (enterSend g clientSendId (table.byClient client)).Ok opened handle table := by
  unfold enterSend
  cases hread : table.byClient client with
  | none => trivial
  | some row =>
    cases hg : row.gmailDraftId with
    | none =>
      simp only [hg]
      trivial
    | some x =>
      have hkey := table.client_of_byClient hread
      by_cases hx : x = g
      · subst hx
        have hsend : SendOk handle table row :=
          { client := by rw [hok, hkey]
            gmail := by rw [hok, hg]
            bound := ⟨x, hg⟩
            read := by rw [hkey, hread] }
        simp only [hg, ne_eq, not_true_eq_false, if_false]
        cases hstate : row.state with
        | sent =>
          simp only
          split <;> trivial
        | sending =>
          simp only
          split
          · trivial
          · exact ⟨hsend, hstate⟩
        | saved => exact ⟨hsend, hstate⟩
        | creating | failed | deleted => trivial
      · simp only [hg, ne_eq, hx, not_false_eq_true, if_true]
        trivial

theorem sendFailed_ok (hok : (Point.sendAwaiting sending clientSendId).Ok opened handle table)
    (exc : ServiceError) : (sendFailed sending clientSendId exc).Ok opened handle table := by
  unfold sendFailed
  split
  · exact hok
  · split
    · exact hok
    · split
      · exact ⟨hok.1, hok.2.1⟩
      · split
        · exact hok
        · trivial
  · trivial

theorem sendAccepted_ok (hok : SendOk handle table sending)
    (hstate : sending.state = .sending) (resource : GmailResource) :
    (sendAccepted sending resource).Ok opened handle table := by
  unfold sendAccepted
  split <;> exact ⟨hok, hstate⟩

theorem reconciledSend_ok (hok : SendOk handle table sending)
    (hstate : sending.state = .sending) (resource : GmailResource) :
    (reconciledSend sending resource).Ok opened handle table := by
  unfold reconciledSend
  split
  · trivial
  · exact ⟨hok, hstate⟩

end Decisions

end ElectronicMail.Drafts
