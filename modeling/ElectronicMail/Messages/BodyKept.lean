import ElectronicMail.Messages.Params
import ElectronicMail.Messages.Writes

/-!
# Hydrated bodies are kept

A message whose body was downloaded keeps it: its status stays `fetched`, a status
`unavailable` becomes `fetched` at most, and an upsert of a metadata response leaves
every column that was read from the body as it is (`BodyKept`).

The status is kept by all three writers. Of the seven columns an upsert keeps five:
`extracted_signals_json` and `body_hash` are taken from the metadata response, which
computes them from the snippet. `bodyKept_iff` says that this is all.
-/

namespace ElectronicMail.Messages

open Foundations

/-- A call of one of the writers of bodies, for one message or a set of marks. -/
inductive BodyWrite where
  | upsert (record : GmailMessageRecord) (now : String)
  | updateBodies (record : GmailMessageRecord) (now : String)
  | markBodyState (messageIds : List String) (status : BodyFetchStatus)
      (error : Option String) (now : String)

structure BodyColumns where
  rawPayload : String
  htmlBodySanitized : Option String
  htmlRenderDocument : Option String
  textBody : Option String
  attachmentDescriptors : String
  extractedSignals : String
  bodyHash : String

def bodyColumns (row : GmailMessage) : BodyColumns where
  rawPayload := row.rawPayload
  htmlBodySanitized := row.htmlBodySanitized
  htmlRenderDocument := row.htmlRenderDocument
  textBody := row.textBody
  attachmentDescriptors := row.attachmentDescriptors
  extractedSignals := row.extractedSignals
  bodyHash := row.bodyHash

def StatusKept (before after : BodyFetchStatus) : Prop :=
  (before = .fetched → after = .fetched) ∧
    (before = .unavailable → after = .unavailable ∨ after = .fetched)

section Calls

variable (gmailAttachmentDescriptors : Json → List Json)

/-- The effect of a call. A body update of a record that is not written as fetched
raises before it writes. -/
def bodyStep (table : MessageTable) : BodyWrite → MessageTable
  | .upsert record now =>
    writeStep table
      (.upsert ⟨record.messageId, messageParams gmailAttachmentDescriptors now record, now⟩)
  | .updateBodies record now =>
    if paramsBodyFetchStatus record = .fetched then
      writeStep table
        (.updateBody record.messageId (messageParams gmailAttachmentDescriptors now record) now)
    else table
  | .markBodyState messageIds status error now =>
    writeStep table (.markBodyState messageIds status error now)

/-- A call keeps every status, and an upsert of a metadata-only record keeps the body
of a fetched message. -/
def BodyKept (table : MessageTable) (w : BodyWrite) : Prop :=
  (∀ messageId before after, table messageId = some before →
    bodyStep gmailAttachmentDescriptors table w messageId = some after →
      StatusKept before.bodyFetchStatus after.bodyFetchStatus) ∧
  ∀ record now before after, w = .upsert record now → MetadataOnly record →
    table record.messageId = some before → before.bodyFetchStatus = .fetched →
    bodyStep gmailAttachmentDescriptors table w record.messageId = some after →
      bodyColumns after = bodyColumns before

/-- A metadata-only upsert of a fetched message that has other signals or another
body hash. -/
def OverwritesSignals (table : MessageTable) (w : BodyWrite) : Prop :=
  ∃ record now before, w = .upsert record now ∧ MetadataOnly record ∧
    table record.messageId = some before ∧ before.bodyFetchStatus = .fetched ∧
      (record.extractedSignals.dumps ≠ before.extractedSignals ∨ record.bodyHash ≠ before.bodyHash)

end Calls

/-! ## The status -/

theorem StatusKept.refl (status : BodyFetchStatus) : StatusKept status status :=
  ⟨id, Or.inl⟩

/-- `fetched` is kept by anything that becomes `fetched`. -/
theorem StatusKept.fetched (status : BodyFetchStatus) : StatusKept status .fetched :=
  ⟨fun _ => rfl, fun _ => Or.inr rfl⟩

theorem statusKept_merged (stored excluded : BodyFetchStatus) :
    StatusKept stored (mergedBodyFetchStatus stored excluded) := by
  unfold mergedBodyFetchStatus
  split
  · exact .fetched stored
  split
  · exact .refl stored
  rename_i hready
  constructor
  · rintro rfl
    exact absurd BodyFetchStatus.isReady_fetched hready
  · rintro rfl
    exact absurd BodyFetchStatus.isReady_unavailable hready

theorem statusKept_updateRowBody (body : GmailMessage) (now : String) (row : GmailMessage) :
    StatusKept row.bodyFetchStatus (updateRowBody body now row).bodyFetchStatus := by
  unfold updateRowBody
  split
  · exact .refl _
  · exact .fetched _

theorem statusKept_markRowBodyState (status : BodyFetchStatus) (error : Option String)
    (now : String) (row : GmailMessage) :
    StatusKept row.bodyFetchStatus (markRowBodyState status error now row).bodyFetchStatus := by
  unfold markRowBodyState
  split
  · rename_i hmarks
    simp only [marksRow, Bool.or_eq_true, decide_eq_true_eq, Bool.not_eq_true'] at hmarks
    rcases hmarks with rfl | hready
    · exact .fetched _
    -- A row whose body is not ready is neither fetched nor unavailable.
    constructor
    · intro hfetched
      rw [hfetched] at hready
      cases hready
    · intro hunavailable
      rw [hunavailable] at hready
      cases hready
  · exact .refl _

theorem RowChange.statusKept {target : String} {row row' : GmailMessage} {w : MessageWrite}
    (h : RowChange target row w row') :
    StatusKept row.bodyFetchStatus row'.bodyFetchStatus := by
  cases h with
  | unchanged | labels => exact .refl _
  | merged u => exact statusKept_merged row.bodyFetchStatus u.excluded.bodyFetchStatus
  | body _ body now => exact statusKept_updateRowBody body now row
  | descriptors _ =>
    unfold backfillRowDescriptors
    split
    · exact .refl _
    · exact .refl _
  | state _ _ status error now => exact statusKept_markRowBodyState status error now row

theorem writeStep_statusKept {table : MessageTable} {w : MessageWrite} {messageId : String}
    {before after : GmailMessage} (hbefore : table messageId = some before)
    (hafter : writeStep table w messageId = some after) :
    StatusKept before.bodyFetchStatus after.bodyFetchStatus := by
  obtain ⟨row, hrow, hchange⟩ := writeStep_change w hbefore
  obtain rfl : row = after := Option.some.inj (hrow.symm.trans hafter)
  exact hchange.statusKept

section Runs

variable (gmailAttachmentDescriptors : Json → List Json)

theorem bodyStep_statusKept {table : MessageTable} {w : BodyWrite} {messageId : String}
    {before after : GmailMessage} (hbefore : table messageId = some before)
    (hafter : bodyStep gmailAttachmentDescriptors table w messageId = some after) :
    StatusKept before.bodyFetchStatus after.bodyFetchStatus := by
  cases w with
  | upsert | markBodyState =>
    simp only [bodyStep] at hafter
    exact writeStep_statusKept hbefore hafter
  | updateBodies =>
    simp only [bodyStep] at hafter
    split at hafter
    · exact writeStep_statusKept hbefore hafter
    · obtain rfl : before = after := Option.some.inj (hbefore.symm.trans hafter)
      exact .refl _

/-! ## The body under a metadata-only upsert -/

variable {record : GmailMessageRecord}

theorem bodyColumns_mergeRow (h : MetadataOnly record) (now : String) (stored : GmailMessage) :
    bodyColumns
        (mergeRow now stored (messageParams gmailAttachmentDescriptors now record)) =
      { bodyColumns stored with
        extractedSignals := record.extractedSignals.dumps
        bodyHash := record.bodyHash } := by
  have hbody := h.bringsBody gmailAttachmentDescriptors now
  have hready : (messageParams gmailAttachmentDescriptors now
      record).attachmentDescriptorsReady = false := h.descriptorsNotReady
  have hrender : (messageParams gmailAttachmentDescriptors now
      record).htmlRenderDocument = none := h.noRenderDocument
  have hsanitized : (messageParams gmailAttachmentDescriptors now
      record).htmlBodySanitized = none := h.noSanitized
  have htext : (messageParams gmailAttachmentDescriptors now record).textBody = none :=
    h.noText
  simp only [bodyColumns, mergeRow, hbody, hready, hrender, hsanitized, htext, Option.none_or,
    Bool.false_eq_true, if_false, BodyColumns.mk.injEq, true_and]
  exact ⟨rfl, rfl⟩

theorem bodyColumns_mergeRow_eq_iff (h : MetadataOnly record) (now : String)
    (stored : GmailMessage) : bodyColumns
        (mergeRow now stored (messageParams gmailAttachmentDescriptors now record)) =
      bodyColumns stored ↔
    record.extractedSignals.dumps = stored.extractedSignals ∧
      record.bodyHash = stored.bodyHash := by
  rw [bodyColumns_mergeRow gmailAttachmentDescriptors h]
  simp [bodyColumns]

theorem bodyStep_upsert_self (table : MessageTable) (record : GmailMessageRecord) (now : String)
    {stored : GmailMessage} (hstored : table record.messageId = some stored) :
    bodyStep gmailAttachmentDescriptors table (.upsert record now) record.messageId =
      some (mergeRow now stored (messageParams gmailAttachmentDescriptors now record)) := by
  have hself := applyUpsert_self table
    ⟨record.messageId, messageParams gmailAttachmentDescriptors now record, now⟩
  rw [hstored] at hself
  exact hself

/-! ## Runs of calls -/

/-- A call keeps statuses and bodies exactly if it is no upsert of a metadata-only
record over other signals or another hash of a fetched message. -/
theorem bodyKept_step_iff (table : MessageTable) (w : BodyWrite) :
    BodyKept gmailAttachmentDescriptors table w ↔ ¬ OverwritesSignals table w := by
  constructor
  · rintro ⟨-, hbody⟩ ⟨record, now, before, rfl, hmeta, hbefore, hfetched, hdiffers⟩
    have hafter := bodyStep_upsert_self gmailAttachmentDescriptors table record now hbefore
    have hkept := hbody record now before _ rfl hmeta hbefore hfetched hafter
    obtain ⟨hsignals, hhash⟩ :=
      (bodyColumns_mergeRow_eq_iff gmailAttachmentDescriptors hmeta now before).1 hkept
    rcases hdiffers with hne | hne
    · exact hne hsignals
    · exact hne hhash
  · intro hnot
    refine ⟨fun _ _ _ => bodyStep_statusKept gmailAttachmentDescriptors, ?_⟩
    rintro record now before after rfl hmeta hbefore hfetched hafter
    rw [bodyStep_upsert_self gmailAttachmentDescriptors table record now hbefore] at hafter
    obtain rfl := Option.some.inj hafter
    rw [bodyColumns_mergeRow_eq_iff gmailAttachmentDescriptors hmeta]
    by_contra hdiffers
    refine hnot ⟨record, now, before, rfl, hmeta, hbefore, hfetched, ?_⟩
    rwa [← not_and_or]

/-- **The exact condition.** Along a run of calls every status is kept and every
metadata-only upsert keeps the body of a fetched message exactly if no metadata-only
upsert of the run meets a fetched message with other signals or another body hash. -/
theorem bodyKept_iff (table : MessageTable) (writes : List BodyWrite) :
    Along (bodyStep gmailAttachmentDescriptors) (BodyKept gmailAttachmentDescriptors)
        table writes ↔
      Along (bodyStep gmailAttachmentDescriptors)
        (fun t w => ¬ OverwritesSignals t w) table writes := by
  induction writes generalizing table with
  | nil => exact Iff.rfl
  | cons w writes ih =>
    exact and_congr (bodyKept_step_iff gmailAttachmentDescriptors table w) (ih _)

end Runs

/-! ## The failing upsert -/

/-- A message as a metadata response brings it: the hash is the one of the snippet. -/
def metadataRecord : GmailMessageRecord where
  messageId := "m1"
  gmailThreadId := some "t1"
  historyId := some "8"
  labelIds := ["INBOX"]
  internalDate := some "2026-01-01T00:00:00Z"
  subject := some "Invoice"
  sender := some "sender@example.test"
  recipients := .dict []
  headers := .dict []
  snippet := some "Attached statement"
  rawPayload := .dict [("id", .text "m1"), ("payload", .dict [("mimeType", .text "text/plain")])]
  htmlBodySanitized := none
  htmlRenderDocument := none
  textBody := none
  extractedSignals := .dict []
  bodyHash := "hash of the snippet"
  bodyFetchStatus := none
  bodyFetchedAt := none
  bodyFetchError := none
  renderDocBytes := 0
  aiTitle := none
  aiTitleGeneratedAt := none
  contentRevision := 1
  attachmentDescriptors := []
  attachmentDescriptorsReady := false

def fullRecord : GmailMessageRecord :=
  { metadataRecord with
    textBody := some "The statement of January is attached."
    bodyHash := "hash of the body"
    bodyFetchStatus := some .fetched
    attachmentDescriptorsReady := true }

def metadataAfterFull : List BodyWrite :=
  [.upsert fullRecord "2026-01-01T00:00:00Z", .upsert metadataRecord "2026-01-02T00:00:00Z"]

/-- The metadata response replaces the hash of the body by the hash of the snippet. -/
theorem metadataAfterFull_replaces_hash :
    ¬ Along (bodyStep (fun _ => []))
      (BodyKept (fun _ => [])) (fun _ => none) metadataAfterFull := by
  rintro ⟨-, ⟨-, hbody⟩, -⟩
  have hkept := hbody metadataRecord "2026-01-02T00:00:00Z" _ _ rfl
    ⟨by decide, rfl, rfl, rfl, by decide⟩ rfl rfl rfl
  exact absurd (congrArg BodyColumns.bodyHash hkept) (by decide)

end ElectronicMail.Messages
