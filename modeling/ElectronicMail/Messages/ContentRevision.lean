import ElectronicMail.Messages.Writes

/-!
# The content revision as a cache key

A client keeps a message as long as its `content_revision` stays the same. The key is
sound along a run of writes if the revision never decreases, a repeated upsert leaves
it alone, and it increases whenever a column that the reader shows changes
(`CacheKeySound`).

Every statement keeps this up except one: `mark_gmail_messages_body_fetch_state`
counts only the status `unavailable`, while a row that it marks `fetched` becomes
ready too (`fetchedMark_keeps_revision`). `cacheKeySound_iff` says that this is all.
-/

namespace ElectronicMail.Messages

open Foundations

/-! ## The property -/

structure ReaderView where
  gmailThreadId : Option String
  internalDate : Option String
  subject : Option String
  sender : Option String
  recipients : String
  headers : String
  snippet : Option String
  labelIds : List String
  rawPayload : String
  htmlBodySanitized : Option String
  htmlRenderDocument : Option String
  textBody : Option String
  attachmentDescriptors : String
  bodyReady : Bool
  deriving DecidableEq

def readerView (row : GmailMessage) : ReaderView where
  gmailThreadId := row.gmailThreadId
  internalDate := row.internalDate
  subject := row.subject
  sender := row.sender
  recipients := row.recipients
  headers := row.headers
  snippet := row.snippet
  labelIds := row.labelIds
  rawPayload := row.rawPayload
  htmlBodySanitized := row.htmlBodySanitized
  htmlRenderDocument := row.htmlRenderDocument
  textBody := row.textBody
  attachmentDescriptors := row.attachmentDescriptors
  bodyReady := row.bodyFetchStatus.isReady

/-- The revision does not decrease, and it increases if the reader shows something
else. -/
def RevisionSound (before after : GmailMessage) : Prop :=
  before.contentRevision ≤ after.contentRevision ∧
    (readerView after ≠ readerView before → before.contentRevision < after.contentRevision)

def storedRevision (table : MessageTable) (messageId : String) : Option Nat :=
  (table messageId).map GmailMessage.contentRevision

/-- A write is sound for every stored message, and a repeated upsert leaves every
revision as the first one left it. -/
def CacheKeySound (table : MessageTable) (w : MessageWrite) : Prop :=
  (∀ messageId before after, table messageId = some before →
    writeStep table w messageId = some after → RevisionSound before after) ∧
  ∀ u now, w = .upsert u → ∀ messageId,
    storedRevision (writeStep (writeStep table w) (.upsert { u with now := now })) messageId =
      storedRevision (writeStep table w) messageId

/-- A write that marks a stored row `fetched` whose body is not ready. -/
def MarksUnreadyFetched (table : MessageTable) : MessageWrite → Prop
  | .markBodyState messageIds status _ _ =>
    status = .fetched ∧ ∃ messageId ∈ messageIds, messageId ≠ "" ∧
      ∃ row, table messageId = some row ∧ row.bodyFetchStatus.isReady = false
  | _ => False

/-! ## Upserts -/

theorem mergedBodyFetchStatus_again (stored excluded : BodyFetchStatus) :
    mergedBodyFetchStatus (mergedBodyFetchStatus stored excluded) excluded =
      mergedBodyFetchStatus stored excluded := by
  cases stored <;> cases excluded <;> rfl

theorem caseNewerHistory_again {α : Type} (stored excluded : Option String) (kept taken : α) :
    caseNewerHistory (caseNewerHistory stored excluded stored excluded) excluded
        (caseNewerHistory stored excluded kept taken) taken =
      caseNewerHistory stored excluded kept taken := by
  cases hnew : numericHistoryId excluded with
  | none => simp only [caseNewerHistory, hnew]
  | some new =>
    cases hold : numericHistoryId stored with
    | none => simp [caseNewerHistory, hnew, hold]
    | some old =>
      rcases Nat.lt_or_ge old new with hlt | hge
      · simp [caseNewerHistory, hnew, hold, if_pos hlt]
      · simp [caseNewerHistory, hnew, hold, if_neg (Nat.not_lt.2 hge)]

theorem or_again {α : Type} (x y : Option α) : x.or (x.or y) = x.or y := by
  cases x <;> rfl

theorem not_revisionTest_mergeRow (now : String) (stored excluded : GmailMessage) :
    ¬ revisionTest (mergeRow now stored excluded) excluded := by
  unfold revisionTest
  have hhtml : excluded.htmlRenderDocument ≠ none →
      excluded.htmlRenderDocument = (mergeRow now stored excluded).htmlRenderDocument := by
    intro h
    exact (Option.or_of_isSome (Option.isSome_iff_ne_none.2 h)).symm
  have hsanitized : excluded.htmlBodySanitized ≠ none →
      excluded.htmlBodySanitized = (mergeRow now stored excluded).htmlBodySanitized := by
    intro h
    exact (Option.or_of_isSome (Option.isSome_iff_ne_none.2 h)).symm
  have htext : excluded.textBody ≠ none →
      excluded.textBody = (mergeRow now stored excluded).textBody := by
    intro h
    exact (Option.or_of_isSome (Option.isSome_iff_ne_none.2 h)).symm
  have hfetched : excluded.bodyFetchStatus = .fetched →
      (mergeRow now stored excluded).bodyFetchStatus = .fetched := fun h => if_pos h
  simp only [not_or, not_and, not_not]
  refine ⟨rfl, rfl, rfl, rfl, rfl, rfl, rfl, rfl, caseNewerHistory_again _ _ _ _,
    caseNewerHistory_again _ _ _ _, ?_, or_again _ _, or_again _ _, or_again _ _, ?_,
    mergedBodyFetchStatus_again _ _, hfetched, hhtml, hsanitized, htext⟩
  · simp only [mergeRow]
    split
    · rfl
    · rfl
  · simp only [mergeRow]
    split
    · rfl
    · rfl

theorem not_revisionTest_self (row : GmailMessage) : ¬ revisionTest row row := by
  have hhistory : ∀ {α : Type} (x : α), caseNewerHistory row.historyId row.historyId x x = x := by
    intro α x
    unfold caseNewerHistory
    split
    · rfl
    split
    · rfl
    · exact ite_self x
  have hstatus : mergedBodyFetchStatus row.bodyFetchStatus row.bodyFetchStatus =
      row.bodyFetchStatus := by
    cases row.bodyFetchStatus <;> rfl
  simp [revisionTest, hhistory, hstatus]

theorem readerView_mergeRow {stored excluded : GmailMessage}
    (h : ¬ revisionTest stored excluded) (now : String) :
    readerView (mergeRow now stored excluded) = readerView stored := by
  simp only [revisionTest, not_or, not_not] at h
  obtain ⟨hthread, hdate, hsubject, hsender, hrecipients, hheaders, hsnippet, -, -, hlabels,
    hraw, hrender, hsanitized, htext, hdescriptors, hstatus, -⟩ := h
  simp only [readerView, mergeRow, hthread, hdate, hsubject, hsender, hrecipients, hheaders,
    hsnippet, hlabels, hraw, hrender, hsanitized, htext, hdescriptors, hstatus]

theorem revisionSound_mergeRow (now : String) (stored excluded : GmailMessage) :
    RevisionSound stored (mergeRow now stored excluded) := by
  have hrevision : (mergeRow now stored excluded).contentRevision =
      if revisionTest stored excluded then stored.contentRevision + 1
      else stored.contentRevision := rfl
  by_cases htest : revisionTest stored excluded
  · rw [if_pos htest] at hrevision
    unfold RevisionSound
    omega
  · rw [if_neg htest] at hrevision
    refine ⟨by omega, ?_⟩
    intro hchanged
    exact absurd (readerView_mergeRow htest now) hchanged

theorem storedRevision_upsert_again (table : MessageTable) (u : Upsert) (now : String)
    (messageId : String) :
    storedRevision (applyUpsert (applyUpsert table u) { u with now := now }) messageId =
      storedRevision (applyUpsert table u) messageId := by
  unfold storedRevision
  rcases eq_or_ne messageId u.messageId with rfl | hne
  · have hagain := applyUpsert_self (applyUpsert table u) { u with now := now }
    dsimp only at hagain
    rw [hagain, applyUpsert_self]
    refine congrArg some ?_
    cases table u.messageId with
    | none => exact if_neg (not_revisionTest_self u.excluded)
    | some stored => exact if_neg (not_revisionTest_mergeRow u.now stored u.excluded)
  · rw [applyUpsert_of_ne (u := { u with now := now }) hne]

/-! ## The other writers -/

theorem RevisionSound.refl (row : GmailMessage) : RevisionSound row row :=
  ⟨Nat.le_refl _, fun h => absurd rfl h⟩

theorem revisionSound_forceRowLabels (labels : List String) (row : GmailMessage) :
    RevisionSound row (forceRowLabels labels row) := by
  unfold forceRowLabels
  by_cases hlabels : row.labelIds = labels.eraseDups
  · simp [RevisionSound, readerView, ← hlabels]
  · simp [RevisionSound, hlabels]

theorem revisionSound_updateRowBody (body : GmailMessage) (now : String) (row : GmailMessage) :
    RevisionSound row (updateRowBody body now row) := by
  unfold updateRowBody
  split
  · exact .refl row
  · exact ⟨Nat.le_succ _, fun _ => Nat.lt_succ_self _⟩

theorem revisionSound_backfillRowDescriptors (descriptors : String) (row : GmailMessage) :
    RevisionSound row (backfillRowDescriptors descriptors row) := by
  unfold backfillRowDescriptors
  split
  · exact .refl row
  by_cases hsame : row.attachmentDescriptors = descriptors
  · simp [RevisionSound, readerView, hsame]
  · simp [RevisionSound, hsame]

theorem readerView_markRowBodyState (status : BodyFetchStatus) (error : Option String)
    (now : String) (row : GmailMessage) :
    readerView (markRowBodyState status error now row) =
      { readerView row with
        bodyReady := if marksRow status row then status.isReady else row.bodyFetchStatus.isReady } := by
  unfold markRowBodyState
  split
  · rfl
  · rfl

/-- A mark is sound unless it marks a row `fetched` whose body is not ready. -/
theorem revisionSound_markRowBodyState_iff (status : BodyFetchStatus) (error : Option String)
    (now : String) (row : GmailMessage) :
    RevisionSound row (markRowBodyState status error now row) ↔
      ¬ (status = .fetched ∧ row.bodyFetchStatus.isReady = false) := by
  have hview := readerView_markRowBodyState status error now row
  constructor
  · rintro ⟨-, hchange⟩ ⟨rfl, hready⟩
    have hne : readerView (markRowBodyState .fetched error now row) ≠ readerView row := by
      intro heq
      rw [heq] at hview
      have hbody := congrArg ReaderView.bodyReady hview
      simp [readerView, marksRow, hready] at hbody
    have hlt := hchange hne
    simp [markRowBodyState, marksRow] at hlt
  · intro hnot
    -- Without readiness the status is `unavailable`, which counts, or leaves the
    -- readiness as it is; with readiness only `fetched` is written.
    cases hready : row.bodyFetchStatus.isReady with
    | true =>
      cases status with
      | fetched => simp [RevisionSound, markRowBodyState, marksRow, readerView, hready]
      | _ => simp [RevisionSound, markRowBodyState, marksRow, hready]
    | false =>
      cases status with
      | fetched => exact absurd ⟨rfl, hready⟩ hnot
      | unavailable => simp [RevisionSound, markRowBodyState, marksRow, hready]
      | _ => simp [RevisionSound, markRowBodyState, marksRow, readerView, hready]

/-! ## Runs of writes -/

/-- A write is sound exactly if it is not a `fetched` mark of a row whose body is not
ready. -/
theorem cacheKeySound_step_iff (table : MessageTable) (w : MessageWrite) :
    CacheKeySound table w ↔ ¬ MarksUnreadyFetched table w := by
  constructor
  · rintro ⟨hsound, -⟩ hmarks
    cases w with
    | markBodyState messageIds status error now =>
      obtain ⟨rfl, messageId, hmem, hid, row, hrow, hready⟩ := hmarks
      have hafter : writeStep table (.markBodyState messageIds .fetched error now) messageId =
          some (markRowBodyState .fetched error now row) := by
        rw [writeStep_markBodyState, if_pos ⟨hid, hmem⟩, hrow]
        rfl
      exact (revisionSound_markRowBodyState_iff .fetched error now row).1
        (hsound messageId row _ hrow hafter) ⟨rfl, hready⟩
    | _ => exact hmarks
  · intro hnot
    constructor
    · intro messageId before after hbefore hafter
      obtain ⟨after', hafter', hchange⟩ := writeStep_change w hbefore
      obtain rfl : after' = after := Option.some.inj (hafter'.symm.trans hafter)
      cases hchange with
      | unchanged => exact .refl before
      | merged u => exact revisionSound_mergeRow u.now before u.excluded
      | labels _ labels => exact revisionSound_forceRowLabels labels before
      | body _ body now => exact revisionSound_updateRowBody body now before
      | descriptors _ descriptors => exact revisionSound_backfillRowDescriptors descriptors before
      | state hid hmem =>
        rw [revisionSound_markRowBodyState_iff]
        rintro ⟨hstatus, hready⟩
        exact hnot ⟨hstatus, messageId, hmem, hid, before, hbefore, hready⟩
    · rintro u now rfl messageId
      exact storedRevision_upsert_again table u now messageId

/-- **The exact condition.** The revision is a sound cache key along a run of writes
exactly if no write of the run marks a stored row `fetched` whose body is not
ready. -/
theorem cacheKeySound_iff (table : MessageTable) (writes : List MessageWrite) :
    Along writeStep CacheKeySound table writes ↔
      Along writeStep (fun t w => ¬ MarksUnreadyFetched t w) table writes := by
  induction writes generalizing table with
  | nil => exact Iff.rfl
  | cons w writes ih =>
    exact and_congr (cacheKeySound_step_iff table w) (ih (writeStep table w))

/-! ## The failing write -/

def unfetchedMessage : GmailMessage where
  gmailThreadId := some "t1"
  historyId := some "7"
  labelIds := ["INBOX"]
  internalDate := some "2026-01-01T00:00:00Z"
  subject := some "Invoice"
  sender := some "sender@example.test"
  recipients := "{}"
  headers := "{}"
  snippet := some "Attached statement"
  rawPayload := "{}"
  htmlBodySanitized := none
  htmlRenderDocument := none
  textBody := none
  attachmentDescriptors := "[]"
  attachmentDescriptorsReady := false
  extractedSignals := "{}"
  bodyHash := "h1"
  bodyFetchStatus := .pending
  bodyFetchedAt := none
  bodyFetchError := none
  renderDocBytes := 0
  aiTitle := none
  aiTitleGeneratedAt := none
  contentRevision := 1

def fetchedMarkRun : List MessageWrite :=
  [.upsert ⟨"m1", unfetchedMessage, "2026-01-01T00:00:00Z"⟩,
    .markBodyState ["m1"] .fetched none "2026-01-02T00:00:00Z"]

/-- The mark makes the body ready at the same revision. -/
theorem fetchedMark_keeps_revision :
    ¬ Along writeStep CacheKeySound (fun _ => none) fetchedMarkRun := by
  rintro ⟨-, ⟨hsound, -⟩, -⟩
  have hmark := (hsound "m1" unfetchedMessage
    (markRowBodyState .fetched none "2026-01-02T00:00:00Z" unfetchedMessage) rfl rfl).2
  exact absurd (hmark (by decide)) (by decide)

end ElectronicMail.Messages
