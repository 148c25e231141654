import ElectronicMail.Drafts.Ownership

/-!
# Steps of one operation and of the others

What a step writes, and that it leaves the operation where it knows what it has to
(`draftStep_ok`). A step of another operation, which holds other locks, takes nothing of
that away (`Point.Ok.frame`); the points at which an operation waits for its locks do not
even depend on that (`Point.Ok.waiting`).
-/

namespace ElectronicMail.Drafts

variable {c g client : String} {work : SaveWork} {request : MailDraftSaveRequest}
  {mapping : Option ClientDraft}

/-! ## The statements of an operation -/

section Statements

variable {opened : String → Prop} {handle : DraftHandle} {table after : DraftTable}
  {row : ClientDraft}

theorem upsert_ok {u : DraftUpsert} (hwritten : upsertClientDraft table u = some (after, row))
    (htable : TableOk opened table) (hguards : handle.Guards table u.clientDraftId)
    (heditable : Editable table u.clientDraftId u.gmailDraftId)
    (hscope : ∀ g, u.gmailDraftId = some g → OnDraft opened u.clientDraftId g)
    (hstate : u.gmailDraftId = none → u.state = .creating ∨ u.state = .failed) :
    TableOk opened after ∧ Moves handle table after ∧ after.byClient u.clientDraftId = some row ∧
      row.gmailDraftId = u.gmailDraftId := by
  obtain ⟨hrow, hwrote⟩ := upsertClientDraft_spec hwritten
  have hclient : row.clientDraftId = u.clientDraftId := by rw [hrow, DraftUpsert.row_clientDraftId]
  have hnew : row.state = u.state := by rw [hrow, DraftUpsert.row_state]
  have hgmail : row.gmailDraftId = u.gmailDraftId := by
    rw [hrow, DraftUpsert.row_gmailDraftId]
    cases hstored : table.byClient u.clientDraftId with
    | none => exact Option.or_none
    | some stored =>
      rcases (heditable stored hstored).2 with hnone | heq
      · rw [Option.bind_some, hnone, Option.or_none]
      · rw [Option.bind_some, heq, Option.or_self]
  obtain ⟨htable', hmoves⟩ := hwrote.ok htable (hclient ▸ hguards)
    (fun g hg => hgmail.trans (heditable.bound (hclient ▸ hg)))
    (fun hnone => hnew ▸ hstate (hgmail ▸ hnone))
    (fun g hg => hclient ▸ hscope g (hgmail ▸ hg))
  exact ⟨htable', hmoves, hclient ▸ hwrote.returned, hgmail⟩

theorem update_ok {guard : ClientDraft → Bool} {set : ClientDraft → ClientDraft}
    {hset : ∀ row, (set row).clientDraftId = row.clientDraftId ∧
      (set row).gmailDraftId = row.gmailDraftId}
    (hwritten : updateClientDraft table c guard set hset = some (after, row))
    (htable : TableOk opened table) (hbound : Bound table c g)
    (hgmail : handle.gmailDraftId = some g) :
    TableOk opened after ∧ Moves handle table after ∧ after.byClient c = some row ∧
      ∃ stored, table.byClient c = some stored ∧ guard stored = true ∧ row = set stored := by
  obtain ⟨stored, hstored, hguard, rfl, hwrote⟩ := updateClientDraft_spec hwritten
  have hkey : (set stored).clientDraftId = c :=
    (hset stored).1.trans (table.client_of_byClient hstored)
  have hstoredGmail : stored.gmailDraftId = some g := by
    obtain ⟨other, hother, hg⟩ := hbound
    rw [hstored] at hother
    cases hother
    exact hg
  have hnew : (set stored).gmailDraftId = some g := (hset stored).2.trans hstoredGmail
  obtain ⟨htable', hmoves⟩ := hwrote.ok htable (hkey.symm ▸ guards_of_bound hbound hgmail) (by
      rintro x ⟨other, hother, hx⟩
      rw [hkey, hstored] at hother
      cases hother
      exact (hset stored).2.trans hx)
    (fun hnone => by
      rw [hnew] at hnone
      cases hnone)
    (fun x hx => by
      rw [hnew] at hx
      cases hx
      rw [hkey]
      exact htable.onDraft _ _ hbound)
  exact ⟨htable', hmoves, hkey ▸ hwrote.returned, stored, hstored, hguard, rfl⟩

theorem checkpoint_ok
    (hwritten : upsertClientDraft table (checkpointUpsert work) = some (after, row))
    (htable : TableOk opened table)
    (hok : SaveOk opened handle table work.request work.existing work.gmailDraftId) :
    TableOk opened after ∧ Moves handle table after ∧
      CallOk opened handle after { work with existing := some row } := by
  have hguards := hok.editable.guards hok.client fun x hx => (hok.gmail x hx).1
  obtain ⟨htable', hmoves, hread, hgmail⟩ := upsert_ok hwritten htable hguards hok.editable
    (fun g hg => (hok.gmail g hg).2) (fun _ => Or.inl rfl)
  have hstate : row.state = .creating := by
    rw [(upsertClientDraft_spec hwritten).1, DraftUpsert.row_state]
    rfl
  refine ⟨htable', hmoves, ⟨⟨hok.client, hread, ?_, hok.gmail⟩, row, rfl, hgmail, fun _ => hstate⟩⟩
  intro other hother
  rw [show after.byClient work.request.clientDraftId = some row from hread] at hother
  cases hother
  exact ⟨by rw [hstate]; rfl, Or.inr hgmail⟩

theorem createFailure_ok {record : ClientDraft} {error : String}
    (hwritten : upsertClientDraft table (createFailureUpsert record error) = some (after, row))
    (htable : TableOk opened table) (hok : CallOk opened handle table work)
    (hrecord : work.existing = some record) :
    TableOk opened after ∧ Moves handle table after := by
  have hread := hok.read.trans hrecord
  have hkey := table.client_of_byClient hread
  have hgmail : record.gmailDraftId = work.gmailDraftId := by
    obtain ⟨other, hother, hg, -⟩ := hok.row
    rw [hrecord] at hother
    cases hother
    exact hg
  have heditable : Editable table record.clientDraftId record.gmailDraftId := by
    rw [hkey, hgmail]
    exact hok.editable
  have hguards := hok.editable.guards hok.client fun x hx => (hok.gmail x hx).1
  obtain ⟨htable', hmoves, -⟩ := upsert_ok hwritten htable (hkey.symm ▸ hguards) heditable
    (fun g hg => by
      rw [show (createFailureUpsert record error).clientDraftId = work.request.clientDraftId
        from hkey]
      exact (hok.gmail g (hgmail.symm.trans hg)).2) (fun _ => Or.inr rfl)
  exact ⟨htable', hmoves⟩

theorem ResultOk.guards (hok : ResultOk opened handle table request g) :
    handle.Guards table request.clientDraftId :=
  hok.editable.guards hok.client fun x hx => by
    cases hx
    exact hok.gmail

variable {error : Option String} {result : ProviderResult}

theorem result_ok {state : DraftState}
    (hwritten : upsertClientDraft table (resultUpsert work result state error) = some (after, row))
    (htable : TableOk opened table)
    (hok : ResultOk opened handle table work.request result.gmailDraftId) :
    TableOk opened after ∧ Moves handle table after ∧
      after.byClient work.request.clientDraftId = some row ∧
      row.gmailDraftId = some result.gmailDraftId ∧ row.state = state := by
  obtain ⟨htable', hmoves, hread, hgmail⟩ := upsert_ok hwritten htable hok.guards hok.editable
    (fun g hg => by
      cases hg
      exact hok.scope) (fun hnone => nomatch hnone)
  refine ⟨htable', hmoves, hread, hgmail, ?_⟩
  rw [(upsertClientDraft_spec hwritten).1, DraftUpsert.row_state]
  rfl

theorem resultOk_saved
    (hwritten : upsertClientDraft table (resultUpsert work result .saved error) = some (after, row))
    (htable : TableOk opened table)
    (hok : ResultOk opened handle table work.request result.gmailDraftId) :
    ResultOk opened handle after work.request result.gmailDraftId := by
  obtain ⟨-, -, hread, hgmail, hstate⟩ := result_ok hwritten htable hok
  refine ⟨hok.toHandleOk, ?_⟩
  intro other hother
  rw [hread] at hother
  cases hother
  exact ⟨by rw [hstate]; rfl, Or.inr hgmail⟩

theorem GetOk.isGuarded
    (hok : GetOk opened handle table g mapping client) : handle.Guards table client := by
  rcases hok.guards with hclient | hbound
  · refine hok.editable.guards hclient fun x hx => ?_
    cases hx
    exact hok.gmail
  · exact guards_of_bound hbound hok.gmail

theorem getUpsert_ok {message : DraftMessage}
    (hwritten : upsertClientDraft table (getUpsert g mapping client message) = some (after, row))
    (htable : TableOk opened table) (hok : GetOk opened handle table g mapping client) :
    TableOk opened after ∧ Moves handle table after := by
  obtain ⟨htable', hmoves, -⟩ := upsert_ok hwritten htable hok.isGuarded hok.editable
    (fun x hx => by
      cases hx
      exact hok.scope) (fun hnone => nomatch hnone)
  exact ⟨htable', hmoves⟩

theorem SendOk.isBound {sending : ClientDraft} (hok : SendOk handle table sending) :
    ∃ g, Bound table sending.clientDraftId g ∧ handle.gmailDraftId = some g := by
  obtain ⟨g, hg⟩ := hok.bound
  exact ⟨g, ⟨sending, hok.read, hg⟩, hok.gmail.trans hg⟩

theorem claim_ok {mapping : ClientDraft} {clientSendId : String}
    (hwritten : markClientDraftSending table mapping.clientDraftId clientSendId = some (after, row))
    (htable : TableOk opened table) (hok : SendOk handle table mapping) :
    TableOk opened after ∧ Moves handle table after ∧
      (SendOk handle after row ∧ row.state = .sending ∧ row.lastClientSendId = some clientSendId) ∧
      mapping.state = .saved := by
  obtain ⟨g, hbound, hgmail⟩ := hok.isBound
  obtain ⟨htable', hmoves, hread, stored, hstored, hguard, rfl⟩ :=
    update_ok hwritten htable hbound hgmail
  rw [hok.read] at hstored
  cases hstored
  exact ⟨htable', hmoves, ⟨⟨hok.client, hok.gmail, hok.bound, hread⟩, rfl, rfl⟩,
    of_decide_eq_true hguard⟩

end Statements

variable {point : Point}

/-! ## One step -/

section Step

variable {opened : String → Prop} {codec : DraftCodec} {handle : DraftHandle} {table : DraftTable}

theorem afterStatement_ok {written : Option (DraftTable × ClientDraft)}
    {returned : ClientDraft → Next} {nothing : Next} (htable : TableOk opened table)
    (hwritten : ∀ after row, written = some (after, row) →
      TableOk opened after ∧ Moves handle table after ∧ (returned row).Ok opened handle after)
    (hnothing : nothing.Ok opened handle table) :
    TableOk opened (afterStatement table written returned nothing).1 ∧
      Moves handle table (afterStatement table written returned nothing).1 ∧
      (afterStatement table written returned nothing).2.Ok opened handle
        (afterStatement table written returned nothing).1 := by
  cases h : written with
  | none => exact ⟨htable, Moves.refl handle table, hnothing⟩
  | some result => exact hwritten result.1 result.2 h

/-- **One step of an operation** keeps the table in order, writes guarded rows only and ends
where the operation knows what it has to. -/
theorem draftStep_ok (htable : TableOk opened table) {answer : Answer}
    (hok : point.Ok opened handle table) (hanswer : AnswersOnDraft opened point answer)
    {after : DraftTable} {next : Next}
    (hstep : draftStep codec handle table point answer = some (after, next)) :
    TableOk opened after ∧ Moves handle table after ∧ next.Ok opened handle after := by
  -- A point that only reads leaves the table alone.
  have hreads : ∀ {next' : Next}, some (table, next') = some (after, next) →
      next'.Ok opened handle table →
      TableOk opened after ∧ Moves handle table after ∧ next.Ok opened handle after := by
    intro next' heq hnext
    cases heq
    exact ⟨htable, Moves.refl handle table, hnext⟩
  have hwrites : ∀ {written : Option (DraftTable × ClientDraft)} {returned : ClientDraft → Next}
      {nothing : Next}, some (afterStatement table written returned nothing) = some (after, next) →
      (∀ after row, written = some (after, row) →
        TableOk opened after ∧ Moves handle table after ∧ (returned row).Ok opened handle after) →
      nothing.Ok opened handle table →
      TableOk opened after ∧ Moves handle table after ∧ next.Ok opened handle after := by
    intro written returned nothing heq hwritten hnothing
    have hresult := afterStatement_ok htable hwritten hnothing
    rw [Option.some.inj heq] at hresult
    exact hresult
  cases point with
  | saveEntered =>
    cases answer with
    | proceed => exact hreads hstep (enterSave_ok htable hok)
    | _ => cases hstep
  | saveAdopted =>
    cases answer with
    | proceed => exact hreads hstep (adoptedSave_ok hok)
    | _ => cases hstep
  | saveSearching =>
    cases answer with
    | found => exact hreads hstep (searchedSave_ok htable hok hanswer)
    | raised exc =>
      refine hreads hstep ?_
      unfold preparingFailed
      split <;> trivial
    | _ => cases hstep
  | savePreparing =>
    cases answer with
    | reads =>
      refine hreads hstep ?_
      split
      · trivial
      · exact preparedSave_ok htable hok.1 hok.2
    | invalid => exact hreads hstep trivial
    | raised exc =>
      refine hreads hstep ?_
      unfold preparingFailed
      split <;> trivial
    | _ => cases hstep
  | saveCheckpoint =>
    cases answer with
    | proceed => exact hwrites hstep (fun _ _ h => checkpoint_ok h htable hok.1) trivial
    | _ => cases hstep
  | saveCalling | sendCalling =>
    cases answer with
    | proceed => exact hreads hstep hok
    | _ => cases hstep
  | saveAwaiting =>
    cases answer with
    | resource => exact hreads hstep (providerAccepted_ok hok hanswer)
    | raised exc => exact hreads hstep (providerFailed_ok hok exc)
    | _ => cases hstep
  | saveCreateFailed work =>
    cases answer with
    | proceed =>
      simp only [draftStep] at hstep
      cases hexisting : work.existing with
      | none =>
        rw [hexisting] at hstep
        cases hstep
      | some =>
        rw [hexisting] at hstep
        refine hwrites hstep (fun _ _ h => ?_) trivial
        obtain ⟨htable', hmoves⟩ := createFailure_ok h htable hok.1 hexisting
        exact ⟨htable', hmoves, trivial⟩
    | _ => cases hstep
  | saveRebinding =>
    cases answer with
    | proceed => exact hreads hstep (reboundSave_ok hok)
    | _ => cases hstep
  | saveConfirming work result authoritative =>
    cases answer with
    | resource resource => exact hreads hstep (confirmedSave_ok hok authoritative resource)
    | raised exc => exact hreads hstep (confirmationFailed_ok hok exc)
    | _ => cases hstep
  | saveGone | saveHydrated =>
    cases answer with
    | proceed =>
      refine hwrites hstep (fun _ _ h => ?_) trivial
      obtain ⟨htable', hmoves, -⟩ := result_ok h htable hok
      exact ⟨htable', hmoves, trivial⟩
    | _ => cases hstep
  | saveStoring =>
    cases answer with
    | proceed =>
      refine hwrites hstep (fun _ row h => ?_) trivial
      obtain ⟨htable', hmoves, -⟩ := result_ok h htable hok
      exact ⟨htable', hmoves, storedSave_ok (resultOk_saved h htable hok) row⟩
    | _ => cases hstep
  | saveHydrating work result record =>
    cases answer with
    | resource resource => exact hreads hstep (hydratedSave_ok hok record resource)
    | raised exc => exact hreads hstep trivial
    | _ => cases hstep
  | saveReopening =>
    cases answer with
    | proceed => exact hreads hstep (reopened_ok hok)
    | refused => exact hreads hstep trivial
    | _ => cases hstep
  | getEntered =>
    cases answer with
    | proceed => exact hreads hstep (enterGet_ok htable hok)
    | _ => cases hstep
  | getFetching =>
    cases answer with
    | fetched message =>
      refine hreads hstep ?_
      cases message with
      | none => trivial
      | some m => exact hok
    | raised exc =>
      refine hreads hstep ?_
      unfold getFailed
      split
      · trivial
      · split <;> trivial
    | _ => cases hstep
  | getStoring =>
    cases answer with
    | proceed =>
      refine hwrites hstep (fun _ _ h => ?_) trivial
      obtain ⟨htable', hmoves⟩ := getUpsert_ok h htable hok
      exact ⟨htable', hmoves, trivial⟩
    | _ => cases hstep
  | deleteEntered g =>
    cases answer with
    | proceed => exact hreads hstep (enterDelete_ok hok)
    | _ => cases hstep
  | deleteFetching g mapping =>
    cases answer with
    | resource => exact hreads hstep hok
    | raised exc =>
      exact hreads hstep (deleteFailed_ok
        (show (Next.goto (.deleteCalling g mapping)).Ok opened handle table from hok) exc)
    | _ => cases hstep
  | deleteCalling =>
    cases answer with
    | proceed => exact hreads hstep (deletedAtGmail_ok hok)
    | raised exc => exact hreads hstep (deleteFailed_ok (deletedAtGmail_ok hok) exc)
    | _ => cases hstep
  | deleteMarking =>
    cases answer with
    | proceed =>
      refine hwrites hstep (fun _ _ h => ?_) trivial
      obtain ⟨htable', hmoves, -⟩ := update_ok h htable hok.2 hok.1
      exact ⟨htable', hmoves, trivial⟩
    | _ => cases hstep
  | sendEntered =>
    cases answer with
    | proceed => exact hreads hstep (enterSend_ok hok)
    | _ => cases hstep
  | sendClaiming =>
    cases answer with
    | proceed =>
      refine hwrites hstep (fun _ _ h => ?_) trivial
      obtain ⟨htable', hmoves, hsend, -⟩ := claim_ok h htable hok.1
      exact ⟨htable', hmoves, hsend⟩
    | _ => cases hstep
  | sendAwaiting =>
    cases answer with
    | resource resource => exact hreads hstep (sendAccepted_ok hok.1 hok.2.1 resource)
    | raised exc => exact hreads hstep (sendFailed_ok hok exc)
    | _ => cases hstep
  | sendRestoring | sendFinalizing =>
    cases answer with
    | proceed =>
      obtain ⟨g, hbound, hgmail⟩ := hok.1.isBound
      refine hwrites hstep (fun _ _ h => ?_) trivial
      obtain ⟨htable', hmoves, -⟩ := update_ok h htable hbound hgmail
      exact ⟨htable', hmoves, trivial⟩
    | _ => cases hstep
  | sendReconciling =>
    cases answer with
    | resource resource => exact hreads hstep (reconciledSend_ok hok.1 hok.2 resource)
    | missing | multiple | raised exc => exact hreads hstep trivial
    | _ => cases hstep

end Step

/-! ## Steps of other operations -/

section Frame

variable {opened : String → Prop} {handle other : DraftHandle} {table after : DraftTable}

theorem Editable.congr {g : Option String} (h : Editable table c g)
    (hread : after.byClient c = table.byClient c) : Editable after c g := by
  intro row hrow
  exact h row (hread ▸ hrow)

theorem Moves.read_eq (hmoves : Moves other table after) (hapart : handle.Apart other)
    (hguards : handle.Guards table c) : after.byClient c = table.byClient c :=
  (hmoves.guarded c).resolve_left (hapart.not_guards hguards)

theorem SaveOk.frame {existing : Option ClientDraft}
    {g : Option String} (hok : SaveOk opened handle table request existing g)
    (hapart : handle.Apart other) (hmoves : Moves other table after) :
    SaveOk opened handle after request existing g := by
  have hread := hmoves.read_eq hapart
    (hok.editable.guards hok.client fun x hx => (hok.gmail x hx).1)
  exact ⟨hok.client, hread.trans hok.read, hok.editable.congr hread, hok.gmail⟩

theorem CallOk.frame (hok : CallOk opened handle table work)
    (hapart : handle.Apart other) (hmoves : Moves other table after) :
    CallOk opened handle after work where
  toSaveOk := hok.toSaveOk.frame hapart hmoves
  row := hok.row

theorem ResultOk.frame (hok : ResultOk opened handle table request g) (hapart : handle.Apart other)
    (hmoves : Moves other table after) : ResultOk opened handle after request g where
  toHandleOk := hok.toHandleOk
  editable := hok.editable.congr (hmoves.read_eq hapart hok.guards)

theorem GetOk.frame (hok : GetOk opened handle table g mapping client) (hapart : handle.Apart other)
    (hmoves : Moves other table after) : GetOk opened handle after g mapping client := by
  have hread := hmoves.read_eq hapart hok.isGuarded
  exact ⟨hok.gmail, hok.editable.congr hread, hok.scope,
    hok.guards.imp_right (hmoves.bound client g), fun row hrow => hread.trans (hok.read row hrow)⟩

theorem SendOk.frame {sending : ClientDraft} (hok : SendOk handle table sending)
    (hapart : handle.Apart other) (hmoves : Moves other table after) :
    SendOk handle after sending := by
  obtain ⟨g, hbound, hgmail⟩ := hok.isBound
  have hread := hmoves.read_eq hapart (guards_of_bound hbound hgmail)
  exact ⟨hok.client, hok.gmail, hok.bound, hread.trans hok.read⟩

theorem Point.Ok.waiting (hwaiting : point.isWaiting = true) (hok : point.Ok opened handle table)
    (hbound : ∀ c g, Bound table c g → Bound after c g) : point.Ok opened handle after := by
  cases point with
  | saveEntered | saveAdopted | saveRebinding | deleteEntered g | sendEntered => exact hok
  | getEntered g mapping client =>
    refine ⟨hok.1, ?_⟩
    cases mapping with
    | none => exact hok.2
    | some row => exact hbound client g hok.2
  | _ => cases hwaiting

/-- **A step of an operation with other locks** leaves an operation what it knows. -/
theorem Point.Ok.frame (hok : point.Ok opened handle table)
    (hapart : handle.Apart other) (hmoves : Moves other table after) :
    point.Ok opened handle after := by
  cases point with
  | saveEntered | saveAdopted | saveRebinding | deleteEntered g | sendEntered => exact hok
  | saveSearching => exact SaveOk.frame hok hapart hmoves
  | savePreparing | saveCheckpoint | saveCreateFailed | sendClaiming | sendCalling
  | sendAwaiting | sendRestoring | sendReconciling row | sendFinalizing =>
    exact ⟨hok.1.frame hapart hmoves, hok.2⟩
  | saveCalling | saveAwaiting => exact CallOk.frame hok hapart hmoves
  | saveConfirming | saveGone | saveStoring | saveHydrating | saveHydrated =>
    exact ResultOk.frame hok hapart hmoves
  | saveReopening work g | deleteMarking g row => exact ⟨hok.1, hmoves.bound _ g hok.2⟩
  | getEntered => exact hok.waiting rfl hmoves.bound
  | getFetching | getStoring => exact GetOk.frame hok hapart hmoves
  | deleteFetching g | deleteCalling g =>
    exact ⟨hok.1, fun row hrow => hmoves.bound _ g (hok.2 row hrow)⟩

end Frame

end ElectronicMail.Drafts
