import ElectronicMail.Drafts.Steps

/-!
# What a step does to a row

The statement of a point (`Point.Writes`), and for every client draft what a step can make
of its row (`RowChange`, `draftStep_rows`).
-/

namespace ElectronicMail.Drafts

/-- The statement of a point, with the table it leaves and the row it returns. -/
def Point.Writes (table after : DraftTable) (row : ClientDraft) : Point → Prop
  | .saveCheckpoint work => upsertClientDraft table (checkpointUpsert work) = some (after, row)
  | .saveCreateFailed work error _ =>
    ∃ record, work.existing = some record ∧
      upsertClientDraft table (createFailureUpsert record error) = some (after, row)
  | .saveGone work result =>
    upsertClientDraft table (resultUpsert work result .deleted (some draftGoneError)) =
      some (after, row)
  | .saveStoring work result =>
    upsertClientDraft table (resultUpsert work result .saved none) = some (after, row)
  | .saveHydrated work result _ =>
    upsertClientDraft table (resultUpsert work result .saved none) = some (after, row)
  | .getStoring g mapping client message _ =>
    upsertClientDraft table (getUpsert g mapping client message) = some (after, row)
  | .deleteMarking _ mapping =>
    markClientDraftDeleted table mapping.clientDraftId = some (after, row)
  | .sendClaiming mapping clientSendId =>
    markClientDraftSending table mapping.clientDraftId clientSendId = some (after, row)
  | .sendRestoring sending clientSendId error _ =>
    restoreClientDraftAfterDefiniteSendFailure table sending.clientDraftId clientSendId error =
      some (after, row)
  | .sendFinalizing sending gmailMessageId gmailThreadId =>
    markClientDraftSent table sending.clientDraftId (sending.lastClientSendId.getD "")
      (some gmailMessageId) gmailThreadId = some (after, row)
  | _ => False

variable {next : Next} {point : Point} {row : ClientDraft}

section

variable {codec : DraftCodec} {handle : DraftHandle} {table after : DraftTable}

theorem afterStatement_cases {written : Option (DraftTable × ClientDraft)}
    {returned : ClientDraft → Next} {nothing : Next}
    (h : some (afterStatement table written returned nothing) = some (after, next)) :
    (written = none ∧ after = table ∧ next = nothing) ∨
      ∃ row, written = some (after, row) ∧ next = returned row := by
  cases hwritten : written with
  | none =>
    rw [hwritten] at h
    cases h
    exact Or.inl ⟨rfl, rfl, rfl⟩
  | some result =>
    rw [hwritten] at h
    cases h
    exact Or.inr ⟨result.2, rfl, rfl⟩

theorem draftStep_writes {answer : Answer}
    (hstep : draftStep codec handle table point answer = some (after, next)) :
    after = table ∨ ∃ row, point.Writes table after row := by
  have hwrites : ∀ {written : Option (DraftTable × ClientDraft)} {returned : ClientDraft → Next}
      {nothing : Next}, some (afterStatement table written returned nothing) = some (after, next) →
      after = table ∨ ∃ row, written = some (after, row) := by
    intro written returned nothing h
    exact (afterStatement_cases h).imp (fun hrefused => hrefused.2.1) fun ⟨row, hrow, _⟩ => ⟨row, hrow⟩
  cases point with
  | saveCheckpoint | saveGone | saveStoring | saveHydrated | getStoring | deleteMarking
  | sendClaiming | sendRestoring | sendFinalizing =>
    cases answer <;> first | exact hwrites hstep | cases hstep
  | saveCreateFailed work =>
    cases answer with
    | proceed =>
      simp only [draftStep] at hstep
      cases hexisting : work.existing with
      | none =>
        rw [hexisting] at hstep
        cases hstep
      | some record =>
        rw [hexisting] at hstep
        rcases hwrites hstep with hsame | hrow
        · exact .inl hsame
        · obtain ⟨row, hrow⟩ := hrow
          exact .inr ⟨row, record, hexisting, hrow⟩
    | _ => cases hstep
  -- The other points only read.
  | _ => cases answer <;> cases hstep <;> exact Or.inl rfl

/-- What a step at a point makes of the row `stored` of a client. -/
inductive RowChange (point : Point) (stored : Option ClientDraft) (row : ClientDraft) : Prop where
  /-- A save or a get writes a row that may be changed. -/
  | edited (hstored : ∀ old, stored = some old → old.state.isMutable = true)
      (hrow : row.state = .creating ∨ row.gmailDraftId ≠ none)
  | createFailed (work : SaveWork) (error : String) (response : Finish)
      (hpoint : point = .saveCreateFailed work error response)
      (hclient : row.clientDraftId = work.request.clientDraftId)
      (hstored : ∀ old, stored = some old → old.state.isMutable = true)
  | claimed (mapping : ClientDraft) (hstored : stored = some mapping)
      (hsaved : mapping.state = .saved) (hrow : row.state = .sending)
      (hbound : row.gmailDraftId ≠ none)
  | restored (sending : ClientDraft) (clientSendId error : String) (rejected : Bool)
      (hpoint : point = .sendRestoring sending clientSendId error rejected)
      (hstored : stored = some sending) (hid : sending.lastClientSendId = some clientSendId)
      (hclient : row.clientDraftId = sending.clientDraftId) (hrow : row.state = .saved)
      (hbound : row.gmailDraftId ≠ none)
  | finalized (sending : ClientDraft) (hstored : stored = some sending)
      (hsending : sending.state = .sending) (hrow : row.state = .sent)
      (hbound : row.gmailDraftId ≠ none)
  | deleted (old : ClientDraft) (hstored : stored = some old) (hold : old.state ≠ .sending)
      (hold' : old.state ≠ .sent) (hbound : row.gmailDraftId ≠ none)

theorem Wrote.rows (hwrote : Wrote table after row)
    (hchange : RowChange point (table.byClient row.clientDraftId) row) (c : String) :
    after.byClient c = table.byClient c ∨
      ∃ row, after.byClient c = some row ∧ RowChange point (table.byClient c) row := by
  by_cases hc : c = row.clientDraftId
  · subst hc
    exact Or.inr ⟨row, hwrote.returned, hchange⟩
  · exact Or.inl (hwrote.others c hc)

variable {opened : String → Prop}

theorem update_change {c g : String} {guard : ClientDraft → Bool} {set : ClientDraft → ClientDraft}
    {hset : ∀ row, (set row).clientDraftId = row.clientDraftId ∧
      (set row).gmailDraftId = row.gmailDraftId}
    (hwritten : updateClientDraft table c guard set hset = some (after, row))
    (hbound : Bound table c g)
    (hchange : ∀ stored, table.byClient c = some stored → guard stored = true →
      (set stored).gmailDraftId ≠ none → (set stored).clientDraftId = c →
      RowChange point (some stored) (set stored)) (d : String) :
    after.byClient d = table.byClient d ∨
      ∃ row, after.byClient d = some row ∧ RowChange point (table.byClient d) row := by
  obtain ⟨stored, hstored, hguard, rfl, hwrote⟩ := updateClientDraft_spec hwritten
  have hkey : (set stored).clientDraftId = c :=
    (hset stored).1.trans (table.client_of_byClient hstored)
  have hgmail : (set stored).gmailDraftId ≠ none := by
    obtain ⟨other, hother, hg⟩ := hbound
    rw [hstored] at hother
    cases hother
    rw [(hset stored).2, hg]
    exact Option.some_ne_none g
  refine hwrote.rows ?_ d
  rw [hkey, hstored]
  exact hchange stored hstored hguard hgmail hkey

theorem upsert_change {u : DraftUpsert} (hwritten : upsertClientDraft table u = some (after, row))
    (hchange : RowChange point (table.byClient u.clientDraftId)
      (u.row (table.byClient u.clientDraftId))) (c : String) :
    after.byClient c = table.byClient c ∨
      ∃ row, after.byClient c = some row ∧ RowChange point (table.byClient c) row := by
  obtain ⟨rfl, hwrote⟩ := upsertClientDraft_spec hwritten
  refine hwrote.rows ?_ c
  rwa [DraftUpsert.row_clientDraftId]

theorem DraftUpsert.row_bound {u : DraftUpsert} {stored : Option ClientDraft} {g : String}
    (h : u.gmailDraftId = some g) : (u.row stored).gmailDraftId ≠ none := by
  rw [DraftUpsert.row_gmailDraftId, h, Option.some_or]
  exact Option.some_ne_none g

theorem Editable.mutable {c : String} {g : Option String} (h : Editable table c g)
    (old : ClientDraft) (hold : table.byClient c = some old) : old.state.isMutable = true :=
  (h old hold).1

/-- **What a step does to the rows.** -/
theorem draftStep_rows {answer : Answer} (hok : point.Ok opened handle table)
    (hstep : draftStep codec handle table point answer = some (after, next)) (c : String) :
    after.byClient c = table.byClient c ∨
      ∃ row, after.byClient c = some row ∧ RowChange point (table.byClient c) row := by
  rcases draftStep_writes hstep with rfl | ⟨row, hwrites⟩
  · exact Or.inl rfl
  cases point with
  | saveCheckpoint =>
    exact upsert_change hwrites
      (.edited hok.1.editable.mutable (Or.inl (DraftUpsert.row_state _ _))) c
  | saveCreateFailed work error response =>
    obtain ⟨record, hrecord, hwritten⟩ := hwrites
    have hread := hok.1.read.trans hrecord
    have hkey := table.client_of_byClient hread
    refine upsert_change hwritten (.createFailed work error response rfl ?_ ?_) c
    · rw [DraftUpsert.row_clientDraftId]
      exact hkey
    · intro old hold
      exact hok.1.editable.mutable old (hkey ▸ hold)
  | saveGone | saveStoring | saveHydrated =>
    exact upsert_change hwrites
      (.edited (ResultOk.editable hok).mutable (Or.inr (DraftUpsert.row_bound rfl))) c
  | getStoring =>
    exact upsert_change hwrites
      (.edited (GetOk.editable hok).mutable (Or.inr (DraftUpsert.row_bound rfl))) c
  | deleteMarking =>
    refine update_change hwrites hok.2 (fun old _ hguard hbound _ => ?_) c
    have hstates := of_decide_eq_true hguard
    exact .deleted old rfl hstates.1 hstates.2 hbound
  | sendClaiming =>
    obtain ⟨g, hbound, -⟩ := hok.1.isBound
    exact update_change hwrites hbound
      (fun old _ hguard hbound _ => .claimed old rfl (of_decide_eq_true hguard) rfl hbound) c
  | sendRestoring sending clientSendId error rejected =>
    obtain ⟨g, hbound, -⟩ := hok.1.isBound
    refine update_change hwrites hbound (fun old hold _ hbound hkey => ?_) c
    rw [hok.1.read] at hold
    cases hold
    exact .restored sending clientSendId error rejected rfl rfl hok.2.2 hkey rfl hbound
  | sendFinalizing sending =>
    obtain ⟨g, hbound, -⟩ := hok.1.isBound
    refine update_change hwrites hbound (fun old hold _ hbound _ => ?_) c
    rw [hok.1.read] at hold
    cases hold
    exact .finalized sending rfl hok.2 rfl hbound
  | _ => exact hwrites.elim

end

end ElectronicMail.Drafts
