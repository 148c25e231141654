import ElectronicMail.Drafts.RowChanges
import ElectronicMail.Drafts.Sequence

/-!
# What a saved row says about Gmail

The hash of a saved row describes what Gmail holds, and Gmail holds the content of the last
acknowledged save (`RowHolds`). `Point.Holds` is what holds while an operation of a sequence
on one client draft runs, and a step keeps it (`draftStep_holds`) as long as Gmail does not
apply an update of a saved draft whose response is lost.
-/

namespace ElectronicMail.Drafts

open Google
open Sends (isDefiniteGoogleClientRejection)

/-! ## Rows -/

def HashHolds (codec : DraftCodec) (gmail : String → Option DraftContent) (row : ClientDraft) :
    Prop :=
  ∀ g request effective, row.gmailDraftId = some g →
    row.contentHash = draftContentHash codec request effective → gmail g = some effective.content

structure RowHolds (codec : DraftCodec) (gmail : String → Option DraftContent)
    (acknowledged : Option DraftContent) (row : ClientDraft) : Prop where
  hash : HashHolds codec gmail row
  /-- Gmail holds the content of the last acknowledged save. -/
  ack : ∀ g content, row.gmailDraftId = some g → acknowledged = some content →
    gmail g = some content

/-- After an acknowledged save the row is neither being created nor failed. -/
def AckedRow (table : DraftTable) (acknowledged : Option DraftContent) (c : String) : Prop :=
  acknowledged ≠ none →
    ∃ row, table.byClient c = some row ∧ row.state ≠ .creating ∧ row.state ≠ .failed

/-- What holds of the client draft `c` between two operations. -/
structure Settled (codec : DraftCodec) (table : DraftTable) (gmail : String → Option DraftContent)
    (acknowledged : Option DraftContent) (c : String) : Prop where
  rows : ∀ row, table.byClient c = some row → row.state = .saved →
    RowHolds codec gmail acknowledged row
  acked : AckedRow table acknowledged c

/-! ## Operations -/

structure Prepared (codec : DraftCodec) (work : SaveWork) : Prop where
  effective : ∃ existing target reads,
    effectiveDraft codec work.request existing target reads = some work.effective
  hash : work.contentHash = draftContentHash codec work.request work.effective

def CreatingHash (work : SaveWork) : Prop :=
  ∀ row, work.existing = some row → row.state = .creating → row.contentHash = work.contentHash

/-- The content that a save computed for its request is at Gmail, under the id of the
response. -/
def SavedAtGmail (codec : DraftCodec) (gmail : String → Option DraftContent) (point : Point)
    (response : MailDraftResponse) (request : MailDraftSaveRequest) : Prop :=
  ∃ work existing target reads g, point.work? = some work ∧ work.request = request ∧
    effectiveDraft codec request existing target reads = some work.effective ∧
    response.gmailDraftId = some g ∧ gmail g = some work.effective.content

section Points

variable (codec : DraftCodec) (table : DraftTable) (gmail : String → Option DraftContent)
  (acknowledged : Option DraftContent) (c : String)

/-- The row of `c` is being created, with a hash of the kind. -/
def CreatingRow (hash : String → Prop) : Prop :=
  ∃ row, table.byClient c = some row ∧ row.state = .creating ∧ hash row.contentHash

structure StoredHolds (work : SaveWork) (g : String) (record : ClientDraft) : Prop where
  prepared : Prepared codec work
  content : gmail g = some work.effective.content
  read : table.byClient c = some record
  state : record.state = .saved
  bound : record.gmailDraftId = some g
  hash : record.contentHash = work.contentHash

def CallerHolds (g client : String) (caller : Option SaveWork) : Prop :=
  ∀ work, caller = some work → Prepared codec work ∧ work.request.clientDraftId = c ∧
    client = c ∧ Bound table c g ∧ gmail g = some work.effective.content

/-- What holds at a point of a sequence on `c`. -/
def Point.Holds : Point → Prop
  | .saveEntered request =>
    request.clientDraftId = c ∧ Settled codec table gmail acknowledged c
  | .saveAdopted request _ =>
    request.clientDraftId = c ∧ Settled codec table gmail acknowledged c
  | .saveSearching request _ =>
    request.clientDraftId = c ∧ Settled codec table gmail acknowledged c
  | .savePreparing request _ _ =>
    request.clientDraftId = c ∧ Settled codec table gmail acknowledged c
  | .saveCheckpoint work =>
    work.request.clientDraftId = c ∧ Settled codec table gmail acknowledged c ∧
      Prepared codec work ∧ needsCheckpoint work.existing = true
  | .saveCalling work =>
    work.request.clientDraftId = c ∧ Settled codec table gmail acknowledged c ∧
      Prepared codec work ∧ CreatingHash work
  | .saveAwaiting work =>
    work.request.clientDraftId = c ∧ Settled codec table gmail acknowledged c ∧
      Prepared codec work ∧ CreatingHash work
  | .saveCreateFailed work _ response =>
    work.request.clientDraftId = c ∧ Settled codec table gmail acknowledged c ∧
      response.saves = false
  | .saveRebinding work result =>
    work.request.clientDraftId = c ∧ Settled codec table gmail acknowledged c ∧
      Prepared codec work ∧ gmail result.gmailDraftId = some work.effective.content ∧
      CreatingRow table c fun hash => hash = work.contentHash
  | .saveConfirming work result authoritative =>
    work.request.clientDraftId = c ∧ Settled codec table gmail acknowledged c ∧
      Prepared codec work ∧ gmail result.gmailDraftId = some work.effective.content ∧
      authoritative = none ∧ CreatingRow table c fun _ => True
  | .saveGone work _ =>
    work.request.clientDraftId = c ∧ Settled codec table gmail acknowledged c ∧
      CreatingRow table c fun _ => True
  | .saveStoring work result =>
    work.request.clientDraftId = c ∧ AckedRow table acknowledged c ∧ Prepared codec work ∧
      gmail result.gmailDraftId = some work.effective.content
  | .saveHydrating work result record =>
    work.request.clientDraftId = c ∧ StoredHolds codec table gmail c work result.gmailDraftId record
  | .saveHydrated work result record =>
    work.request.clientDraftId = c ∧ StoredHolds codec table gmail c work result.gmailDraftId record
  | .saveReopening work g =>
    work.request.clientDraftId = c ∧ Settled codec table gmail acknowledged c ∧
      Prepared codec work ∧ gmail g = some work.effective.content
  | .getEntered g _ client caller =>
    Settled codec table gmail acknowledged c ∧ CallerHolds codec table gmail c g client caller
  | .getFetching g mapping client caller =>
    Settled codec table gmail acknowledged c ∧
      CallerHolds codec table gmail c g client caller ∧ table.byGmail g = mapping
  | .getStoring g mapping client message caller =>
    Settled codec table gmail acknowledged c ∧
      CallerHolds codec table gmail c g client caller ∧ table.byGmail g = mapping ∧
      codec.BodyHashApart message.bodyHash
  | .sendEntered client _ _ => client = c ∧ Settled codec table gmail acknowledged c
  | .sendClaiming mapping _ =>
    mapping.clientDraftId = c ∧ Settled codec table gmail acknowledged c
  | .sendCalling sending _ =>
    sending.clientDraftId = c ∧ Settled codec table gmail acknowledged c ∧
      RowHolds codec gmail acknowledged sending
  | .sendAwaiting sending _ =>
    sending.clientDraftId = c ∧ Settled codec table gmail acknowledged c ∧
      RowHolds codec gmail acknowledged sending
  | .sendRestoring sending _ _ _ =>
    sending.clientDraftId = c ∧ Settled codec table gmail acknowledged c ∧
      RowHolds codec gmail acknowledged sending
  | .sendReconciling sending =>
    sending.clientDraftId = c ∧ Settled codec table gmail acknowledged c
  | .sendFinalizing sending _ _ =>
    sending.clientDraftId = c ∧ Settled codec table gmail acknowledged c
  -- A sequence has no deletes.
  | _ => False

structure Ends (point : Point) (result : Finish) : Prop where
  saved : ∀ response request, result = .draft response → response.state = .saved →
    point.request? = some request → SavedAtGmail codec gmail point response request
  settled : Settled codec table gmail (acknowledgedBy point.work? result acknowledged) c

def Next.Holds (point : Point) : Next → Prop
  | .goto next => next.Holds codec table gmail acknowledged c
  | .adopt _ next => next.Holds codec table gmail acknowledged c
  | .finish result => Ends codec table gmail acknowledged c point result

end Points

variable {row : ClientDraft}

section Facts

variable {opened : String → Prop} {codec : DraftCodec} {handle : DraftHandle}
  {table after : DraftTable} {gmail : String → Option DraftContent}
  {acknowledged : Option DraftContent} {c : String} {point : Point}

/-! ## Settled tables -/

theorem AckedRow.eq_none (h : AckedRow table acknowledged c)
    (hopen : ∀ row, table.byClient c = some row → row.state = .creating ∨ row.state = .failed) :
    acknowledged = none := by
  by_contra hne
  obtain ⟨row, hrow, hcreating, hfailed⟩ := h hne
  exact (hopen row hrow).elim hcreating hfailed

theorem CreatingRow.acknowledged_eq_none {hash : String → Prop} (h : CreatingRow table c hash)
    (hacked : AckedRow table acknowledged c) : acknowledged = none := by
  obtain ⟨row, hrow, hstate, -⟩ := h
  refine hacked.eq_none fun other hother => ?_
  rw [hrow] at hother
  cases hother
  exact Or.inl hstate

theorem settled_of_not_saved (hread : table.byClient c = some row)
    (hstate : row.state ≠ .saved) (hacked : AckedRow table acknowledged c) :
    Settled codec table gmail acknowledged c where
  rows other hother hsaved := by
    rw [hread] at hother
    cases hother
    exact absurd hsaved hstate
  acked := hacked

theorem settled_of_row (hread : table.byClient c = some row)
    (hrow : row.state = .saved → RowHolds codec gmail acknowledged row)
    (hopen : acknowledged ≠ none → row.state ≠ .creating ∧ row.state ≠ .failed) :
    Settled codec table gmail acknowledged c where
  rows other hother hsaved := by
    rw [hread] at hother
    cases hother
    exact hrow hsaved
  acked hne := ⟨row, hread, hopen hne⟩

theorem Settled.congr (h : Settled codec table gmail acknowledged c)
    (hread : after.byClient c = table.byClient c) : Settled codec after gmail acknowledged c where
  rows row hrow := h.rows row (hread ▸ hrow)
  acked hne := hread ▸ h.acked hne

theorem ends_of_not_saves {result : Finish} (hresult : result.saves = false)
    (hs : Settled codec table gmail acknowledged c) :
    Ends codec table gmail acknowledged c point result where
  saved response request heq hstate := by
    subst heq
    simp [Finish.saves, hstate] at hresult
  settled := by
    have hsame : acknowledgedBy point.work? result acknowledged = acknowledged := by
      unfold acknowledgedBy
      cases point.work? with
      | none => rfl
      | some => simp only [hresult]; rfl
    rwa [hsame]

theorem ends_of_saved {work : SaveWork} {g : String}
    (hwork : point.work? = some work) (hrequest : point.request? = some work.request)
    (hprepared : Prepared codec work) (hcontent : gmail g = some work.effective.content)
    (hread : table.byClient c = some row) (hstate : row.state = .saved)
    (hbound : row.gmailDraftId = some g) (hhash : HashHolds codec gmail row) :
    Ends codec table gmail acknowledged c point (.draft (draftResponse row)) where
  saved response request heq _ hpoint := by
    cases heq
    rw [hrequest] at hpoint
    cases hpoint
    obtain ⟨existing, target, reads, heffective⟩ := hprepared.effective
    exact ⟨work, existing, target, reads, g, hwork, rfl, heffective, hbound, hcontent⟩
  settled := by
    have hsaves : (Finish.draft (draftResponse row)).saves = true := by
      simp [Finish.saves, draftResponse, hstate, responseState]
    rw [hwork, acknowledgedBy, if_pos hsaves]
    refine settled_of_row hread (fun _ => ⟨hhash, ?_⟩) fun _ => by simp [hstate]
    rintro x content hx ⟨⟩
    rw [hbound] at hx
    cases hx
    exact hcontent

theorem hashHolds_of_prepared (hfacts : codec.DigestFacts) {work : SaveWork}
    {g : String} (hprepared : Prepared codec work)
    (hcontent : gmail g = some work.effective.content) (hbound : row.gmailDraftId = some g)
    (hhash : row.contentHash = work.contentHash) : HashHolds codec gmail row := by
  intro x request effective hx hsame
  rw [hbound] at hx
  cases hx
  rw [hcontent, content_eq_of_draftContentHash hfacts
    (hprepared.hash.symm.trans (hhash.symm.trans hsame))]

/-! ## The decisions of a save -/

section Saves

variable {request : MailDraftSaveRequest} {existing : Option ClientDraft} {g : String}
  {work : SaveWork} {result : ProviderResult}

theorem enterSave_holds (hclient : request.clientDraftId = c)
    (hs : Settled codec table gmail acknowledged c) (lock : Option String) :
    (enterSave lock request existing).Holds codec table gmail acknowledged c point := by
  unfold enterSave
  split
  · exact ends_of_not_saves rfl hs
  split
  · exact ⟨hclient, hs⟩
  split
  · exact ⟨hclient, hs⟩
  · exact ⟨hclient, hs⟩

theorem adoptedSave_holds (hclient : request.clientDraftId = c)
    (hs : Settled codec table gmail acknowledged c) :
    (adoptedSave request g existing).Holds codec table gmail acknowledged c point := by
  unfold adoptedSave
  split
  · exact ends_of_not_saves rfl hs
  · exact ⟨hclient, hs⟩

theorem preparingFailed_holds (hs : Settled codec table gmail acknowledged c)
    (exc : ServiceError) :
    (preparingFailed request exc).Holds codec table gmail acknowledged c point := by
  unfold preparingFailed
  split
  · exact ends_of_not_saves rfl hs
  · exact ends_of_not_saves rfl hs

theorem searchedSave_holds (hclient : request.clientDraftId = c)
    (hs : Settled codec table gmail acknowledged c) (lock found : Option String) :
    (searchedSave lock request existing found).Holds codec table gmail acknowledged c point := by
  unfold searchedSave
  split
  · split
    · exact ⟨hclient, hs⟩
    · exact ⟨hclient, hs⟩
  · split
    · exact ends_of_not_saves rfl hs
    · exact ⟨hclient, hs⟩

theorem preparedSave_holds (hclient : work.request.clientDraftId = c)
    (hs : Settled codec table gmail acknowledged c) (hprepared : Prepared codec work)
    (hread : table.byClient work.request.clientDraftId = work.existing) :
    (preparedSave work).Holds codec table gmail acknowledged c point := by
  rw [hclient] at hread
  unfold preparedSave
  split
  · case h_1 g hunchanged =>
      refine ⟨hclient, hs, hprepared, ?_⟩
      unfold unchangedDraft at hunchanged
      split at hunchanged
      · cases hunchanged
      case h_2 row hexisting =>
        split at hunchanged
        · case isTrue hsame =>
            exact (hs.rows row (hread.trans hexisting) hsame.1).hash g work.request
              work.effective hunchanged (hsame.2.trans hprepared.hash)
        · cases hunchanged
  · split
    · case isTrue hcheckpoint => exact ⟨hclient, hs, hprepared, hcheckpoint⟩
    · case isFalse hcheckpoint =>
        refine ⟨hclient, hs, hprepared, ?_⟩
        intro row hrow hstate
        exact absurd (by simp [needsCheckpoint, hrow, hstate]) hcheckpoint

theorem checkpoint_holds
    (hwritten : upsertClientDraft table (checkpointUpsert work) = some (after, row))
    (hclient : work.request.clientDraftId = c) (hs : Settled codec table gmail acknowledged c)
    (hprepared : Prepared codec work) (hcheckpoint : needsCheckpoint work.existing = true)
    (hread : table.byClient work.request.clientDraftId = work.existing) :
    (Point.saveCalling { work with existing := some row }).Holds codec after gmail acknowledged
      c := by
  obtain ⟨rfl, hwrote⟩ := upsertClientDraft_spec hwritten
  rw [hclient] at hread
  -- Nothing was acknowledged, since there was no row or an open one.
  have hnone : acknowledged = none := by
    refine hs.acked.eq_none fun row hrow => ?_
    rw [← hread, hrow] at hcheckpoint
    simpa [needsCheckpoint] using hcheckpoint
  have hread' := hwrote.returned
  rw [DraftUpsert.row_clientDraftId, show (checkpointUpsert work).clientDraftId = c from hclient]
    at hread'
  refine ⟨hclient, ?_, ⟨hprepared.effective, hprepared.hash⟩, ?_⟩
  · refine settled_of_not_saved hread' ?_ fun hne => absurd hnone hne
    rw [DraftUpsert.row_state]
    intro hsaved
    cases hsaved
  · rintro row ⟨⟩ -
    exact DraftUpsert.row_contentHash _ _

theorem providerFailed_holds (hclient : work.request.clientDraftId = c)
    (hs : Settled codec table gmail acknowledged c) (exc : ServiceError) :
    (providerFailed work exc).Holds codec table gmail acknowledged c point := by
  have hfinish : ∀ result : Finish, result.saves = false →
      (Next.finish result).Holds codec table gmail acknowledged c point :=
    fun _ hresult => ends_of_not_saves hresult hs
  have hcreate : ∀ error response, response.saves = false →
      (Next.goto (.saveCreateFailed work error response)).Holds codec table gmail acknowledged c
        point :=
    fun _ _ hresponse => ⟨hclient, hs, hresponse⟩
  unfold providerFailed
  cases exc with
  | credentialsUnavailable =>
    by_cases hnone : work.gmailDraftId.isNone = true
    · simpa only [hnone, if_true] using hcreate _ _ rfl
    · simpa only [hnone, Bool.false_eq_true, if_false] using hfinish _ rfl
  | http status =>
    by_cases hauth : isAuthStatus status = true
    · by_cases hnone : work.gmailDraftId.isNone = true
      · simpa only [hauth, hnone, if_true] using hcreate _ _ rfl
      · simpa only [hauth, hnone, if_true, Bool.false_eq_true, if_false] using hfinish _ rfl
    · by_cases hnone : work.gmailDraftId.isNone = true ∧
          isDefiniteGoogleClientRejection status = true
      · simpa only [hauth, hnone, and_self, if_true, Bool.false_eq_true, if_false] using
          hcreate _ _ rfl
      · simpa only [hauth, hnone, Bool.false_eq_true, if_false] using hfinish _ rfl
  | userMailWorkBlocked | connection | other => exact hfinish _ rfl

theorem CallOk.creatingRow (hok : CallOk opened handle table work)
    (hclient : work.request.clientDraftId = c) (hhash : CreatingHash work)
    (hnone : work.gmailDraftId = none) :
    CreatingRow table c fun hash => hash = work.contentHash := by
  obtain ⟨row, hrow, -, hstate⟩ := hok.row
  exact ⟨row, hclient ▸ hok.read.trans hrow, hstate hnone, hhash row hrow (hstate hnone)⟩

theorem CreatingRow.settled {hash : String → Prop} (h : CreatingRow table c hash)
    (hacked : AckedRow table acknowledged c) : Settled codec table gmail acknowledged c := by
  obtain ⟨row, hrow, hstate, -⟩ := h
  exact settled_of_not_saved hrow (by rw [hstate]; decide) hacked

theorem gmailAfter_resource (resource : GmailResource) (applied : Option String) {g : String}
    (hg : (given resource.id).or work.gmailDraftId = some g) :
    gmailAfter (.saveAwaiting work) (.resource resource) applied gmail =
      Function.update gmail g (some work.effective.content) := by
  simp only [gmailAfter, writtenDraft, isApplied, if_true, hg, Option.some_or]

theorem providerAccepted_holds (hok : CallOk opened handle table work)
    (hholds : (Point.saveAwaiting work).Holds codec table gmail acknowledged c)
    (resource : GmailResource) (applied : Option String) :
    (providerAccepted work resource).Holds codec table
      (gmailAfter (.saveAwaiting work) (.resource resource) applied gmail) acknowledged c
        point := by
  obtain ⟨hclient, hs, hprepared, hhash⟩ := hholds
  unfold providerAccepted
  split
  · case h_1 hg =>
      -- Without an id the draft was being created.
      have hnone := (Option.or_eq_none_iff.1 hg).2
      exact ends_of_not_saves rfl ((hok.creatingRow hclient hhash hnone).settled hs.acked)
  · case h_2 g hg =>
      rw [gmailAfter_resource resource applied hg]
      simp only
      split
      · case isTrue hnone =>
          have hrow := hok.creatingRow hclient hhash (Option.isNone_iff_eq_none.1 hnone)
          exact ⟨hclient, hrow.settled hs.acked, hprepared, Function.update_self _ _ _, hrow⟩
      · exact ⟨hclient, hs.acked, hprepared, Function.update_self _ _ _⟩

variable {record : ClientDraft}

theorem createFailure_holds {error : String} {response : Finish}
    (hwritten : upsertClientDraft table (createFailureUpsert record error) = some (after, row))
    (hok : CallOk opened handle table work) (hnone : work.gmailDraftId = none)
    (hrecord : work.existing = some record) (hclient : work.request.clientDraftId = c)
    (hs : Settled codec table gmail acknowledged c) (hresponse : response.saves = false) :
    Ends codec after gmail acknowledged c point response := by
  obtain ⟨rfl, hwrote⟩ := upsertClientDraft_spec hwritten
  have hread : table.byClient c = some record := hclient ▸ hok.read.trans hrecord
  have hstate : record.state = .creating := by
    obtain ⟨other, hother, -, hstate⟩ := hok.row
    rw [hrecord] at hother
    cases hother
    exact hstate hnone
  have hcreating : CreatingRow table c fun _ => True := ⟨record, hread, hstate, trivial⟩
  have hacked := hcreating.acknowledged_eq_none hs.acked
  have hread' := hwrote.returned
  rw [DraftUpsert.row_clientDraftId,
    show (createFailureUpsert record error).clientDraftId = c from table.client_of_byClient hread]
    at hread'
  refine ends_of_not_saves hresponse (settled_of_not_saved hread' ?_ fun hne => absurd hacked hne)
  rw [DraftUpsert.row_state]
  exact fun hsaved => nomatch hsaved

theorem reboundSave_holds
    (hholds : (Point.saveRebinding work result).Holds codec table gmail acknowledged c) :
    (reboundSave work result (table.byClient work.request.clientDraftId)).Holds codec table gmail
      acknowledged c point := by
  obtain ⟨hclient, hs, hprepared, hcontent, row, hrow, hstate, hhash⟩ := hholds
  unfold reboundSave
  split
  · exact ends_of_not_saves rfl hs
  refine ⟨hclient, hs, ⟨hprepared.effective, hprepared.hash⟩, hcontent, ?_,
    row, hrow, hstate, trivial⟩
  rw [hclient, hrow, authoritativeRebound]
  simp [hstate, hhash]

variable {authoritative : Option ClientDraft}

theorem confirmedSave_holds
    (hholds : (Point.saveConfirming work result authoritative).Holds codec table gmail
      acknowledged c) (resource : GmailResource) :
    (confirmedSave work result authoritative resource).Holds codec table gmail acknowledged c
      point := by
  obtain ⟨hclient, hs, hprepared, hcontent, rfl, -⟩ := hholds
  exact ⟨hclient, hs.acked, hprepared, hcontent⟩

theorem confirmationFailed_holds
    (hholds : (Point.saveConfirming work result authoritative).Holds codec table gmail
      acknowledged c) (exc : ServiceError) :
    (confirmationFailed work result exc).Holds codec table gmail acknowledged c point := by
  obtain ⟨hclient, hs, -, -, -, hrow⟩ := hholds
  unfold confirmationFailed
  split
  · exact ends_of_not_saves rfl hs
  split
  · exact ⟨hclient, hs, hrow⟩
  · exact ends_of_not_saves rfl hs

variable {error : Option String}

theorem result_read {state : DraftState}
    (hwritten : upsertClientDraft table (resultUpsert work result state error) = some (after, row))
    (hclient : work.request.clientDraftId = c) : after.byClient c = some row ∧ row.state = state ∧
      row.gmailDraftId = some result.gmailDraftId ∧ row.contentHash = work.contentHash := by
  obtain ⟨hrow, hwrote⟩ := upsertClientDraft_spec hwritten
  have hkey : row.clientDraftId = c := by
    rw [hrow, DraftUpsert.row_clientDraftId]
    exact hclient
  refine ⟨hkey ▸ hwrote.returned, ?_, ?_, ?_⟩
  · rw [hrow, DraftUpsert.row_state]
    rfl
  · rw [hrow, DraftUpsert.row_gmailDraftId]
    exact Option.some_or
  · rw [hrow, DraftUpsert.row_contentHash]
    rfl

theorem gone_holds {response : Finish}
    (hwritten : upsertClientDraft table (resultUpsert work result .deleted error) =
      some (after, row))
    (hholds : (Point.saveGone work result).Holds codec table gmail acknowledged c)
    (hresponse : response.saves = false) :
    Ends codec after gmail acknowledged c point response := by
  obtain ⟨hclient, hs, hrow⟩ := hholds
  obtain ⟨hread, hstate, -⟩ := result_read hwritten hclient
  refine ends_of_not_saves hresponse (settled_of_not_saved hread (by rw [hstate]; decide) ?_)
  exact fun hne => absurd (hrow.acknowledged_eq_none hs.acked) hne

theorem result_admitted (htable : TableOk opened table)
    (hok : ResultOk opened handle table work.request result.gmailDraftId)
    {stored : ClientDraft} (hread : table.byClient work.request.clientDraftId = some stored)
    (hstate : stored.state = .saved) (state : DraftState) (error : Option String) :
    upsertClientDraft table (resultUpsert work result state error) ≠ none := by
  have hbound : stored.gmailDraftId = some result.gmailDraftId := by
    refine (hok.editable stored hread).2.resolve_left fun hnone => ?_
    rcases htable.unbound _ stored hread hnone with hopen | hopen
    · rw [hstate] at hopen
      cases hopen
    · rw [hstate] at hopen
      cases hopen
  have hadmits : table.Admits ((resultUpsert work result state error).row
      (table.byClient work.request.clientDraftId)) := by
    refine table.admits_of_same_keys hread (DraftUpsert.row_clientDraftId _ _) ?_
    rw [DraftUpsert.row_gmailDraftId, hbound]
    exact Option.some_or
  unfold upsertClientDraft
  simp only [show (resultUpsert work result state error).clientDraftId =
    work.request.clientDraftId from rfl, hadmits, dif_pos, ne_eq, reduceCtorEq, not_false_eq_true]

theorem storing_refused (htable : TableOk opened table)
    (hok : ResultOk opened handle table work.request result.gmailDraftId)
    (hclient : work.request.clientDraftId = c) (hacked : AckedRow table acknowledged c)
    (hwritten : upsertClientDraft table (resultUpsert work result .saved none) = none) :
    Settled codec table gmail acknowledged c where
  rows _ hrow hstate :=
    absurd hwritten (result_admitted htable hok (hclient ▸ hrow) hstate _ _)
  acked := hacked

theorem stored_holds (hwritten : upsertClientDraft table (resultUpsert work result .saved none) =
      some (after, row))
    (hclient : work.request.clientDraftId = c) (hprepared : Prepared codec work)
    (hcontent : gmail result.gmailDraftId = some work.effective.content) :
    StoredHolds codec after gmail c work result.gmailDraftId row := by
  obtain ⟨hread, hstate, hbound, hhash⟩ := result_read hwritten hclient
  exact ⟨hprepared, hcontent, hread, hstate, hbound, hhash⟩

theorem StoredHolds.ends (hfacts : codec.DigestFacts)
    (h : StoredHolds codec table gmail c work g record) (hwork : point.work? = some work)
    (hrequest : point.request? = some work.request) :
    Ends codec table gmail acknowledged c point (.draft (draftResponse record)) :=
  ends_of_saved hwork hrequest h.prepared h.content h.read h.state h.bound
    (hashHolds_of_prepared hfacts h.prepared h.content h.bound h.hash)

end Saves

/-! ## The decisions of a get and a send -/

section Gets

variable {g client : String} {mapping : Option ClientDraft} {caller : Option SaveWork}

theorem Bound.byGmail {d : String} (h : Bound table d g) :
    ∃ row, table.byGmail g = some row ∧ row.clientDraftId = d := by
  obtain ⟨row, hrow, hg⟩ := h
  have hkey := table.client_of_byClient hrow
  exact ⟨row, table.byGmail_eq_some_iff.2 ⟨by rwa [hkey], hg⟩, hkey⟩

theorem reopened_holds {work : SaveWork}
    (hok : (Point.saveReopening work g).Ok opened handle table)
    (hholds : (Point.saveReopening work g).Holds codec table gmail acknowledged c) :
    (Point.getEntered g (table.byGmail g)
      ((table.byGmail g).elim (fallbackClientDraftId g) ClientDraft.clientDraftId)
        (some work)).Holds codec table gmail acknowledged c := by
  obtain ⟨hclient, hs, hprepared, hcontent⟩ := hholds
  have hbound : Bound table c g := hclient ▸ hok.2
  obtain ⟨row, hread, hkey⟩ := hbound.byGmail
  refine ⟨hs, ?_⟩
  rintro other ⟨⟩
  rw [hread]
  exact ⟨hprepared, hclient, hkey, hbound, hcontent⟩

theorem noneditable_not_saves (h : row.state.isFinal = true) :
    (Finish.draft (noneditableDraftResponse row)).saves = false := by
  cases hstate : row.state <;>
    simp_all [DraftState.isFinal, Finish.saves, noneditableDraftResponse, draftResponse,
      responseState]

theorem enterGet_holds (hok : (Point.getEntered g mapping client caller).Ok opened handle table)
    (hholds : (Point.getEntered g mapping client caller).Holds codec table gmail acknowledged c) :
    (enterGet g mapping client caller (table.byGmail g)).Holds codec table gmail acknowledged c
      point := by
  obtain ⟨hs, hcaller⟩ := hholds
  unfold enterGet
  cases hread : table.byGmail g with
  | some row =>
    by_cases hfinal : row.state.isFinal = true
    · simp only [hfinal, if_true]
      exact ends_of_not_saves (noneditable_not_saves hfinal) hs
    simp only [hfinal]
    refine ⟨hs, ?_, hread⟩
    intro work hwork
    obtain ⟨hprepared, hclient, -, hbound, hcontent⟩ := hcaller work hwork
    obtain ⟨other, hother, hkey⟩ := hbound.byGmail
    rw [hread] at hother
    cases hother
    exact ⟨hprepared, hclient, hkey, hbound, hcontent⟩
  | none =>
    refine ⟨hs, hcaller, ?_⟩
    rw [hread]
    cases mapping with
    | none => rfl
    | some row =>
      obtain ⟨other, hother, -⟩ := Bound.byGmail hok.2
      rw [hread] at hother
      cases hother

theorem getFailed_holds (hs : Settled codec table gmail acknowledged c) (exc : ServiceError) :
    (getFailed client exc).Holds codec table gmail acknowledged c point := by
  unfold getFailed
  split
  · exact ends_of_not_saves rfl hs
  split
  · exact ends_of_not_saves rfl hs
  · exact ends_of_not_saves rfl hs

/-- A get keeps the hash of a saved row; another row had nothing acknowledged, and the body
hash is no content hash. -/
theorem getUpsert_holds {message : DraftMessage}
    (hwritten : upsertClientDraft table (getUpsert g mapping client message) = some (after, row))
    (htable : TableOk opened table) (hok : GetOk opened handle table g mapping client)
    (hholds : (Point.getStoring g mapping client message caller).Holds codec table gmail
      acknowledged c) :
    Ends codec after gmail acknowledged c (.getStoring g mapping client message caller)
      (.draft (draftResponse row)) := by
  obtain ⟨hs, hcaller, hread, hbody⟩ := hholds
  obtain ⟨hrow, hwrote⟩ := upsertClientDraft_spec hwritten
  have hkey : row.clientDraftId = client := by
    rw [hrow, DraftUpsert.row_clientDraftId]
    rfl
  have hstate : row.state = .saved := by
    rw [hrow, DraftUpsert.row_state]
    rfl
  have hbound : row.gmailDraftId = some g := by
    rw [hrow, DraftUpsert.row_gmailDraftId]
    exact Option.some_or
  have hhash : row.contentHash = observedHash mapping message := by
    rw [hrow, DraftUpsert.row_contentHash]
    rfl
  by_cases hclient : client = c
  · have hread' : after.byClient c = some row := hclient ▸ hkey ▸ hwrote.returned
    have hholds' : RowHolds codec gmail acknowledged row := by
      by_cases hsaved : ∃ stored, mapping = some stored ∧ stored.state = .saved
      · obtain ⟨stored, rfl, hstored⟩ := hsaved
        have holds := hs.rows stored (hclient ▸ hok.read stored rfl) hstored
        have hg := (table.byGmail_eq_some_iff.1 hread).2
        have hsame : row.contentHash = stored.contentHash := by
          rw [hhash, observedHash, if_pos hstored]
        refine ⟨?_, ?_⟩
        · intro x request effective hx heq
          rw [hbound] at hx
          cases hx
          exact holds.hash g request effective hg (hsame.symm.trans heq)
        · intro x content hx
          rw [hbound] at hx
          cases hx
          exact holds.ack g content hg
      · have hobserved : row.contentHash = message.bodyHash := by
          rw [hhash]
          cases mapping with
          | none => rfl
          | some stored => exact if_neg fun hstored => hsaved ⟨stored, rfl, hstored⟩
        have hnone : acknowledged = none := by
          refine hs.acked.eq_none fun stored hstored => ?_
          obtain ⟨hmutable, hfree⟩ := hok.editable stored (hclient ▸ hstored)
          rcases hfree with hfree | hfree
          · exact htable.unbound c stored hstored hfree
          have hmapping : mapping = some stored := by
            rw [← hread]
            exact table.byGmail_eq_some_iff.2 ⟨by rwa [table.client_of_byClient hstored], hfree⟩
          cases hopen : stored.state with
          | creating => exact Or.inl rfl
          | failed => exact Or.inr rfl
          | saved => exact absurd ⟨stored, hmapping, hopen⟩ hsaved
          | sending | sent | deleted => rw [hopen] at hmutable; cases hmutable
        refine ⟨?_, ?_⟩
        · intro x request effective _ heq
          exact absurd (hobserved.symm.trans heq)
            (bodyHash_ne_draftContentHash hbody request effective)
        · rw [hnone]
          rintro x content - ⟨⟩
    cases caller with
    | none =>
      refine ⟨fun _ _ _ _ hrequest => (nomatch hrequest), ?_⟩
      exact settled_of_row hread' (fun _ => hholds') fun _ => by simp [hstate]
    | some work =>
      obtain ⟨hprepared, -, -, -, hcontent⟩ := hcaller work rfl
      exact ends_of_saved rfl rfl hprepared hcontent hread' hstate hbound hholds'.hash
  · -- A get of another client draft runs for no save.
    have hnone : caller = none := by
      cases caller with
      | none => rfl
      | some work => exact absurd (hcaller work rfl).2.2.1 hclient
    subst hnone
    refine ⟨fun _ _ _ _ hrequest => (nomatch hrequest), hs.congr (hwrote.others c ?_)⟩
    rw [hkey]
    exact Ne.symm hclient

end Gets

section Sends

variable {sending : ClientDraft} {clientSendId : String}

theorem enterSend_holds {g client : String} (hclient : client = c)
    (hs : Settled codec table gmail acknowledged c) :
    (enterSend g clientSendId (table.byClient client)).Holds codec table gmail acknowledged c
      point := by
  subst hclient
  unfold enterSend
  cases hread : table.byClient client with
  | none => exact ends_of_not_saves rfl hs
  | some row =>
    have hkey := table.client_of_byClient hread
    cases hg : row.gmailDraftId with
    | none =>
      simp only [hg]
      exact ends_of_not_saves rfl hs
    | some x =>
      by_cases hx : x = g
      · simp only [hg, ne_eq, hx, not_true_eq_false, if_false]
        cases hstate : row.state with
        | sent =>
          simp only
          split
          · exact ends_of_not_saves rfl hs
          · exact ends_of_not_saves rfl hs
        | sending =>
          simp only
          split
          · exact ends_of_not_saves rfl hs
          · exact ⟨hkey, hs⟩
        | saved => exact ⟨hkey, hs⟩
        | creating | failed | deleted => exact ends_of_not_saves rfl hs
      · simp only [hg, ne_eq, hx, not_false_eq_true, if_true]
        exact ends_of_not_saves rfl hs

theorem claim_holds {mapping : ClientDraft}
    (hwritten : markClientDraftSending table mapping.clientDraftId clientSendId = some (after, row))
    (hclient : mapping.clientDraftId = c) (hs : Settled codec table gmail acknowledged c) :
    (Point.sendCalling row clientSendId).Holds codec after gmail acknowledged c := by
  obtain ⟨stored, hstored, hguard, rfl, hwrote⟩ := updateClientDraft_spec hwritten
  have hkey : stored.clientDraftId = c := (table.client_of_byClient hstored).trans hclient
  rw [hclient] at hstored
  have hread : after.byClient c = some _ := hkey ▸ hwrote.returned
  have hholds := hs.rows stored hstored (of_decide_eq_true hguard)
  exact ⟨hkey, settled_of_row hread (fun h => nomatch h) fun _ => by simp,
    ⟨hholds.hash, hholds.ack⟩⟩

theorem sendAccepted_holds (hclient : sending.clientDraftId = c)
    (hs : Settled codec table gmail acknowledged c) (resource : GmailResource) :
    (sendAccepted sending resource).Holds codec table gmail acknowledged c point := by
  unfold sendAccepted
  split
  · exact ⟨hclient, hs⟩
  · exact ⟨hclient, hs⟩

theorem reconciledSend_holds (hclient : sending.clientDraftId = c)
    (hs : Settled codec table gmail acknowledged c) (resource : GmailResource) :
    (reconciledSend sending resource).Holds codec table gmail acknowledged c point := by
  unfold reconciledSend
  split
  · exact ends_of_not_saves rfl hs
  · exact ⟨hclient, hs⟩

theorem sendFailed_holds (hclient : sending.clientDraftId = c) (exc : ServiceError)
    (hs : Settled codec table gmail acknowledged c)
    (hrow : isDefiniteFailure exc = true → RowHolds codec gmail acknowledged sending) :
    (sendFailed sending clientSendId exc).Holds codec table gmail acknowledged c point := by
  unfold sendFailed
  split
  · exact ⟨hclient, hs, hrow rfl⟩
  · case h_2 status =>
      split
      · case isTrue hauth => exact ⟨hclient, hs, hrow (by simp [isDefiniteFailure, hauth])⟩
      split
      · exact ⟨hclient, hs⟩
      · split
        · case isTrue hrejected =>
            exact ⟨hclient, hs, hrow (by simp [isDefiniteFailure, hrejected])⟩
        · exact ends_of_not_saves rfl hs
  · exact ends_of_not_saves rfl hs

theorem restored_holds {error : String} {result : Finish}
    (hwritten : restoreClientDraftAfterDefiniteSendFailure table sending.clientDraftId clientSendId
      error = some (after, row))
    (hclient : sending.clientDraftId = c) (hread : table.byClient sending.clientDraftId = some sending)
    (hrow : RowHolds codec gmail acknowledged sending) (hresult : result.saves = false) :
    Ends codec after gmail acknowledged c point result := by
  obtain ⟨stored, hstored, -, rfl, hwrote⟩ := updateClientDraft_spec hwritten
  rw [hread] at hstored
  cases hstored
  have hread' : after.byClient c = some _ := hclient ▸ hwrote.returned
  exact ends_of_not_saves hresult
    (settled_of_row hread' (fun _ => ⟨hrow.hash, hrow.ack⟩) fun _ => by simp)

theorem restoredSend_not_saves (error : String) (rejected : Bool) (row : Option ClientDraft) :
    (restoredSend clientSendId error rejected row).saves = false := by
  cases rejected with
  | false => rfl
  | true => cases row <;> rfl

theorem reconcileFailed_not_saves (exc : ServiceError) :
    (reconcileFailed sending exc).saves = false := by
  unfold reconcileFailed
  split <;> rfl

theorem finalized_holds {id : String} {message thread : Option String} {result : Finish}
    (hwritten : markClientDraftSent table sending.clientDraftId id message thread =
      some (after, row)) (hclient : sending.clientDraftId = c) (hresult : result.saves = false) :
    Ends codec after gmail acknowledged c point result := by
  obtain ⟨stored, hstored, -, rfl, hwrote⟩ := updateClientDraft_spec hwritten
  have hkey : stored.clientDraftId = c := (table.client_of_byClient hstored).trans hclient
  have hread : after.byClient c = some _ := hkey ▸ hwrote.returned
  exact ends_of_not_saves hresult (settled_of_row hread (fun h => nomatch h) fun _ => by simp)

end Sends

/-! ## One step -/

section Step

variable {answer : Answer} {applied : Option String}

theorem lost_settled {work : SaveWork} {exc : ServiceError}
    (hok : CallOk opened handle table work) (hclient : work.request.clientDraftId = c)
    (hs : Settled codec table gmail acknowledged c)
    (hkeeps : isApplied (.raised exc) applied = true →
      ∀ row, work.existing = some row → row.state ≠ .saved) :
    Settled codec table (gmailAfter (.saveAwaiting work) (.raised exc) applied gmail) acknowledged
      c := by
  by_cases happlied : isApplied (.raised exc) applied = true
  · obtain ⟨row, hrow, -⟩ := hok.row
    exact settled_of_not_saved (hclient ▸ hok.read.trans hrow) (hkeeps happlied row hrow) hs.acked
  · have hsame : gmailAfter (.saveAwaiting work) (.raised exc) applied gmail = gmail := by
      simp only [gmailAfter, writtenDraft, happlied, Bool.false_eq_true, if_false]
    rwa [hsame]

theorem gmailAfter_definite {sending : ClientDraft} {clientSendId : String} {exc : ServiceError}
    (h : isDefiniteFailure exc = true) :
    gmailAfter (.sendAwaiting sending clientSendId) (.raised exc) applied gmail = gmail := by
  simp only [gmailAfter, deliveredDraft, isApplied, h, Bool.not_true, Bool.false_and,
    Bool.false_eq_true, if_false]

/-- **A step of an operation** of the sequence keeps what holds. -/
theorem draftStep_holds (hfacts : codec.DigestFacts) (htable : TableOk opened table)
    (hok : point.Ok opened handle table)
    (hholds : point.Holds codec table gmail acknowledged c)
    (hbody : ∀ message, answer = .fetched (some message) → codec.BodyHashApart message.bodyHash)
    (hkeeps : ∀ work exc, point = .saveAwaiting work → answer = .raised exc →
      isApplied answer applied = true → ∀ row, work.existing = some row → row.state ≠ .saved)
    {next : Next} (hstep : draftStep codec handle table point answer = some (after, next)) :
    next.Holds codec after (gmailAfter point answer applied gmail) acknowledged c point := by
  cases point with
  | saveEntered =>
    cases answer <;> cases hstep
    exact enterSave_holds hholds.1 hholds.2 _
  | saveAdopted =>
    cases answer <;> cases hstep
    exact adoptedSave_holds hholds.1 hholds.2
  | saveSearching =>
    cases answer <;> cases hstep
    · exact searchedSave_holds hholds.1 hholds.2 _ _
    · exact preparingFailed_holds hholds.2 _
  | savePreparing request existing g =>
    cases answer <;> cases hstep
    · case savePreparing.reads.refl reads =>
        split
        · exact ends_of_not_saves rfl hholds.2
        case h_2 effective heffective =>
          exact preparedSave_holds hholds.1 hholds.2 ⟨⟨existing, g, reads, heffective⟩, rfl⟩
            hok.1.read
    · exact ends_of_not_saves rfl hholds.2
    · exact preparingFailed_holds hholds.2 _
  | saveCheckpoint =>
    obtain ⟨hclient, hs, hprepared, hcheckpoint⟩ := hholds
    cases answer <;> try cases hstep
    rcases afterStatement_cases hstep with ⟨-, rfl, rfl⟩ | ⟨row, hwritten, rfl⟩
    · exact ends_of_not_saves rfl hs
    · exact checkpoint_holds hwritten hclient hs hprepared hcheckpoint hok.1.read
  | saveCalling | sendCalling =>
    cases answer <;> cases hstep
    exact hholds
  | saveAwaiting work =>
    cases answer <;> cases hstep
    · exact providerAccepted_holds hok hholds _ _
    · case saveAwaiting.raised.refl exc =>
        exact providerFailed_holds hholds.1
          (lost_settled hok hholds.1 hholds.2.1 (hkeeps work exc rfl rfl)) exc
  | saveCreateFailed =>
    obtain ⟨hclient, hs, hresponse⟩ := hholds
    obtain ⟨record, hrecord, -⟩ := hok.1.row
    cases answer <;> simp only [draftStep, hrecord] at hstep <;> try cases hstep
    rcases afterStatement_cases hstep with ⟨-, rfl, rfl⟩ | ⟨row, hwritten, rfl⟩
    · exact ends_of_not_saves rfl hs
    · exact createFailure_holds hwritten hok.1 hok.2 hrecord hclient hs hresponse
  | saveRebinding =>
    cases answer <;> cases hstep
    exact reboundSave_holds hholds
  | saveConfirming =>
    cases answer <;> cases hstep
    · exact confirmedSave_holds hholds _
    · exact confirmationFailed_holds hholds _
  | saveGone =>
    cases answer <;> try cases hstep
    rcases afterStatement_cases hstep with ⟨-, rfl, rfl⟩ | ⟨row, hwritten, rfl⟩
    · exact ends_of_not_saves rfl hholds.2.1
    · exact gone_holds hwritten hholds rfl
  | saveStoring =>
    obtain ⟨hclient, hacked, hprepared, hcontent⟩ := hholds
    cases answer <;> try cases hstep
    rcases afterStatement_cases hstep with ⟨hrefused, rfl, rfl⟩ | ⟨row, hwritten, rfl⟩
    · exact ends_of_not_saves rfl (storing_refused htable hok hclient hacked hrefused)
    have hstored := stored_holds hwritten hclient hprepared hcontent
    unfold storedSave
    split
    · exact hstored.ends hfacts rfl rfl
    · exact ⟨hclient, hstored⟩
  | saveHydrating =>
    cases answer <;> cases hstep
    · unfold hydratedSave
      split
      · exact hholds.2.ends hfacts rfl rfl
      · exact hholds
    · exact hholds.2.ends hfacts rfl rfl
  | saveHydrated =>
    obtain ⟨hclient, hstored⟩ := hholds
    cases answer <;> try cases hstep
    rcases afterStatement_cases hstep with ⟨-, rfl, rfl⟩ | ⟨row, hwritten, rfl⟩
    · exact hstored.ends hfacts rfl rfl
    · exact (stored_holds hwritten hclient hstored.prepared hstored.content).ends hfacts rfl rfl
  | saveReopening =>
    cases answer <;> cases hstep
    · exact reopened_holds hok hholds
    · exact ends_of_not_saves rfl hholds.2.1
  | getEntered =>
    cases answer <;> cases hstep
    exact enterGet_holds hok hholds
  | getFetching =>
    cases answer <;> cases hstep
    · case getFetching.fetched.refl message =>
        cases message with
        | none => exact ends_of_not_saves rfl hholds.1
        | some m => exact ⟨hholds.1, hholds.2.1, hholds.2.2, hbody m rfl⟩
    · exact getFailed_holds hholds.1 _
  | getStoring =>
    cases answer <;> try cases hstep
    rcases afterStatement_cases hstep with ⟨-, rfl, rfl⟩ | ⟨row, hwritten, rfl⟩
    · exact ends_of_not_saves rfl hholds.1
    · exact getUpsert_holds hwritten htable hok hholds
  | sendEntered =>
    cases answer <;> cases hstep
    exact enterSend_holds hholds.1 hholds.2
  | sendClaiming =>
    cases answer <;> try cases hstep
    rcases afterStatement_cases hstep with ⟨-, rfl, rfl⟩ | ⟨row, hwritten, rfl⟩
    · exact ends_of_not_saves rfl hholds.2
    · exact claim_holds hwritten hholds.1 hholds.2
  | sendAwaiting =>
    obtain ⟨hclient, hs, hrow⟩ := hholds
    -- The row is being sent and says nothing about Gmail.
    have hsettled : ∀ gmail', Settled codec table gmail' acknowledged c := fun gmail' =>
      settled_of_not_saved (hclient ▸ hok.1.read) (by rw [hok.2.1]; decide) hs.acked
    cases answer <;> cases hstep
    · exact sendAccepted_holds hclient (hsettled _) _
    · case sendAwaiting.raised.refl exc =>
        refine sendFailed_holds hclient exc (hsettled _) fun hdefinite => ?_
        rwa [gmailAfter_definite hdefinite]
  | sendRestoring =>
    obtain ⟨hclient, hs, hrow⟩ := hholds
    cases answer <;> try cases hstep
    rcases afterStatement_cases hstep with ⟨-, rfl, rfl⟩ | ⟨row, hwritten, rfl⟩
    · exact ends_of_not_saves (restoredSend_not_saves _ _ _) hs
    · exact restored_holds hwritten hclient hok.1.read hrow (restoredSend_not_saves _ _ _)
  | sendReconciling =>
    cases answer <;> cases hstep
    · exact reconciledSend_holds hholds.1 hholds.2 _
    · exact ends_of_not_saves rfl hholds.2
    · exact ends_of_not_saves rfl hholds.2
    · exact ends_of_not_saves (reconcileFailed_not_saves _) hholds.2
  | sendFinalizing =>
    cases answer <;> try cases hstep
    rcases afterStatement_cases hstep with ⟨-, rfl, rfl⟩ | ⟨row, hwritten, rfl⟩
    · exact ends_of_not_saves rfl hholds.2
    · exact finalized_holds hwritten hholds.1 rfl
  | _ => exact hholds.elim

end Step

end Facts

end ElectronicMail.Drafts
