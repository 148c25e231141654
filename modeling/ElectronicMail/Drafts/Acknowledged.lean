import Mathlib.Logic.Equiv.List
import ElectronicMail.Foundations.Run
import ElectronicMail.Drafts.Holding

/-!
# An acknowledged save is what Gmail holds

In a sequence of saves, gets and sends of one client draft, a save that answers `saved`
should leave its content at Gmail, and a send should deliver the content of the last
acknowledged save (`SaveAcknowledged`).

The short cut for unchanged content trusts the hash of a saved row. An update of such a row
that Gmail applies while its response is lost changes the content under that hash, since
only rows that are being created or have failed are marked before the provider is called
(`LosesSavedUpdate`). A run without such a step keeps the property (`acknowledged_kept`).
-/

namespace ElectronicMail.Drafts

open Foundations

/-- What a step may acknowledge and deliver for the client draft `c`. -/
structure SaveAcknowledged (codec : DraftCodec) (c : String) (s : DraftWorld) (l : WorldLabel) :
    Prop where
  /-- A save that answers `saved` leaves its effective content at Gmail. -/
  saved : ∀ point response request, endsWith codec s l = some (point, .draft response) →
    response.state = .saved → point.request? = some request →
    SavedAtGmail codec (worldStep codec s l).gmail point response request
  /-- A send delivers the content of the last acknowledged save. -/
  delivered : ∀ g content, delivers codec s l = some (c, g) → s.acknowledged c = some content →
    s.gmail g = some content

/-- The labels of a sequence on the client draft `c`: saves and sends are of this client
draft, a get does not use its name for another Gmail draft, and Gmail answers a save with
drafts of its client. A body hash is no digest of a payload. -/
def SequenceOn (codec : DraftCodec) (opened : String → Prop) (c : String) (s : DraftWorld) :
    WorldLabel → Prop
  | .call (.save request) _ =>
    request.clientDraftId = c ∧
      ∀ g, given request.gmailDraftId = some g → OnDraft opened request.clientDraftId g
  | .call (.get _) _ => True
  | .call (.delete _) _ => False
  | .call (.send client _ _) _ => client = c
  | .answer answer _ =>
    match s.activity with
    | .idle => True
    | .resolving mailboxThreadId =>
      ∀ found, answer = .found found →
        opened ((given found).getD mailboxThreadId) ∧ (given found).getD mailboxThreadId ≠ ""
    | .working _ point =>
      AnswersOnDraft opened point answer ∧
        ∀ message, answer = .fetched (some message) → codec.BodyHashApart message.bodyHash

/-- Gmail applies the update of a saved draft, and its response is lost. -/
def LosesSavedUpdate (s : DraftWorld) : WorldLabel → Prop
  | .answer (.raised exc) applied =>
    match s.activity with
    | .working _ (.saveAwaiting work) =>
      isApplied (.raised exc) applied = true ∧ ∃ row, work.existing = some row ∧ row.state = .saved
    | _ => False
  | _ => False

/-! ## The invariant -/

/-- What holds between two steps of a sequence on `c`. -/
structure WorldOk (codec : DraftCodec) (opened : String → Prop) (c : String) (s : DraftWorld) :
    Prop where
  table : TableOk opened s.table
  activity :
    match s.activity with
    | .working handle point =>
      point.Ok opened handle s.table ∧ point.Holds codec s.table s.gmail (s.acknowledged c) c
    | _ => Settled codec s.table s.gmail (s.acknowledged c) c

section

variable {codec : DraftCodec} {opened : String → Prop} {c : String} {s : DraftWorld}

theorem worldOk_initial (gmail : String → Option DraftContent) :
    WorldOk codec opened c (DraftWorld.initial gmail) where
  table := tableOk_empty opened
  activity :=
    { rows := fun _ hrow => nomatch hrow
      acked := fun hne => absurd rfl hne }

theorem worldOk_lock (htable : TableOk opened s.table)
    (hs : Settled codec s.table s.gmail (s.acknowledged c) c) {g : String}
    {mapping : Option ClientDraft}
    (hmapping : ∀ row, mapping = some row → Bound s.table row.clientDraftId g)
    (hopened : mapping = none → opened g ∧ g ≠ "") :
    WorldOk codec opened c { s with activity := (lockGet g mapping).activity } := by
  refine ⟨htable, ⟨rfl, ?_⟩, hs, fun work hwork => nomatch hwork⟩
  cases mapping with
  | none => exact ⟨rfl, hopened rfl⟩
  | some row => exact hmapping row rfl

theorem worldOk_open (htable : TableOk opened s.table)
    (hs : Settled codec s.table s.gmail (s.acknowledged c) c) {call : DraftCall} {allowed : Bool}
    (hcall : SequenceOn codec opened c s (.call call allowed)) :
    WorldOk codec opened c { s with activity := (openCall codec s.table call).activity } := by
  cases call with
  | save =>
    simp only [openCall]
    split
    · exact ⟨htable, ⟨rfl, hcall.2⟩, hcall.1, hs⟩
    · exact ⟨htable, hs⟩
  | get mailboxThreadId =>
    simp only [openCall]
    cases hread : s.table.byGmail mailboxThreadId with
    | none => exact ⟨htable, hs⟩
    | some row =>
      refine worldOk_lock htable hs ?_ fun hnone => nomatch hnone
      rintro other ⟨⟩
      obtain ⟨hrow, hg⟩ := s.table.byGmail_eq_some_iff.1 hread
      exact ⟨row, hrow, hg⟩
  | delete g => exact hcall.elim
  | send => exact ⟨htable, rfl, hcall, hs⟩

theorem Point.Holds.client {table : DraftTable} {gmail : String → Option DraftContent}
    {acknowledged : Option DraftContent} {point : Point} {work : SaveWork}
    (hholds : point.Holds codec table gmail acknowledged c) (hwork : point.work? = some work) :
    work.request.clientDraftId = c := by
  cases point with
  | getEntered => exact (hholds.2 work hwork).2.1
  | getFetching | getStoring => exact (hholds.2.1 work hwork).2.1
  | _ =>
    cases hwork <;> exact hholds.1

theorem acknowledgedAfter_apply {work : Option SaveWork} (result : Finish)
    (acknowledged : String → Option DraftContent)
    (hclient : ∀ save, work = some save → save.request.clientDraftId = c) :
    acknowledgedAfter work result acknowledged c = acknowledgedBy work result (acknowledged c) := by
  cases work with
  | none => rfl
  | some save => rw [acknowledgedAfter, hclient save rfl, Function.update_self]

theorem worldOk_answer {handle : DraftHandle} {point : Point} {answer : Answer}
    {applied : Option String} {after : DraftTable} {next : Next}
    (hactivity : s.activity = .working handle point) (hfacts : codec.DigestFacts)
    (hs : WorldOk codec opened c s) (hl : SequenceOn codec opened c s (.answer answer applied))
    (hkeeps : ¬LosesSavedUpdate s (.answer answer applied))
    (hstep : draftStep codec handle s.table point answer = some (after, next)) :
    TableOk opened after ∧ next.Ok opened handle after ∧
      next.Holds codec after (gmailAfter point answer applied s.gmail) (s.acknowledged c) c
        point := by
  obtain ⟨htable, hown⟩ := hs
  rw [hactivity] at hown
  simp only [SequenceOn, hactivity] at hl
  obtain ⟨htable', -, hnext⟩ := draftStep_ok htable hown.1 hl.1 hstep
  refine ⟨htable', hnext, draftStep_holds hfacts htable hown.1 hown.2 hl.2 ?_ hstep⟩
  rintro work exc rfl rfl happlied row hrow hsaved
  refine hkeeps ?_
  simp only [LosesSavedUpdate, hactivity]
  exact ⟨happlied, row, hrow, hsaved⟩

theorem worldOk_step (hfacts : codec.DigestFacts) {l : WorldLabel} (hs : WorldOk codec opened c s)
    (hl : SequenceOn codec opened c s l) (hkeeps : ¬LosesSavedUpdate s l) :
    WorldOk codec opened c (worldStep codec s l) := by
  have hactivity := hs.activity
  cases l with
  | call call allowed =>
    simp only [worldStep]
    split
    · case h_1 hphase =>
        rw [hphase] at hactivity
        cases allowed with
        | false => exact ⟨hs.table, hactivity⟩
        | true => exact worldOk_open hs.table hactivity hl
    · exact hs
  | answer answer applied =>
    cases hphase : s.activity with
    | idle =>
      simp only [worldStep, hphase]
      exact hs
    | resolving =>
      simp only [worldStep, hphase]
      rw [hphase] at hactivity
      simp only [SequenceOn, hphase] at hl
      cases answer with
      | found =>
        exact worldOk_lock hs.table hactivity (fun _ h => by cases h) fun _ => hl _ rfl
      | raised exc => exact ⟨hs.table, hactivity⟩
      | _ => exact hs
    | working handle point =>
      cases hstep : draftStep codec handle s.table point answer with
      | none =>
        simp only [worldStep, hphase, hstep]
        exact hs
      | some result =>
        obtain ⟨after, next⟩ := result
        obtain ⟨htable, hnext, hholds⟩ := worldOk_answer hphase hfacts hs hl hkeeps hstep
        rw [worldStep_working hphase hstep]
        rw [hphase] at hactivity
        refine ⟨htable, ?_⟩
        cases next with
        | goto point' => exact ⟨hnext, hholds⟩
        | adopt g point' => exact ⟨hnext.2, hholds⟩
        | finish result =>
          have hsettled := hholds.settled
          rwa [← acknowledgedAfter_apply result s.acknowledged
            fun _ => hactivity.2.client] at hsettled

/-! ## Safety -/

theorem saveAcknowledged_step (hfacts : codec.DigestFacts) {l : WorldLabel}
    (hs : WorldOk codec opened c s) (hl : SequenceOn codec opened c s l)
    (hkeeps : ¬LosesSavedUpdate s l) : SaveAcknowledged codec c s l where
  saved := by
    intro point response request hends hstate hrequest
    obtain ⟨handle, answer, applied, after, rfl, hphase, hstep⟩ := endsWith_eq_some hends
    obtain ⟨-, -, hholds⟩ := worldOk_answer hphase hfacts hs hl hkeeps hstep
    rw [worldStep_working hphase hstep]
    exact hholds.saved response request rfl hstate hrequest
  delivered := by
    intro g content hdelivers hacknowledged
    obtain ⟨handle, sending, clientSendId, hphase, -, hg⟩ := delivers_eq_some hdelivers
    have hactivity := hs.activity
    rw [hphase] at hactivity
    exact hactivity.2.2.2.ack g content hg hacknowledged

end

/-- **Acknowledged saves.** In a sequence in which Gmail applies no update of a saved draft
whose response is lost, a save that answers `saved` leaves its content at Gmail, and a send
delivers the content of the last acknowledged save. -/
theorem acknowledged_kept (codec : DraftCodec) (hfacts : codec.DigestFacts)
    (opened : String → Prop) (c : String) (gmail : String → Option DraftContent)
    (labels : List WorldLabel)
    (hlabels : Along (worldStep codec) (SequenceOn codec opened c) (DraftWorld.initial gmail)
      labels)
    (hkeeps : Along (worldStep codec) (fun s l => ¬LosesSavedUpdate s l) (DraftWorld.initial gmail)
      labels) :
    Along (worldStep codec) (SaveAcknowledged codec c) (DraftWorld.initial gmail) labels := by
  refine along_of_step (I := WorldOk codec opened c) ?_ (worldOk_initial gmail) (hlabels.and hkeeps)
  rintro s l hs ⟨hl, hkeep⟩
  exact ⟨saveAcknowledged_step hfacts hs hl hkeep, worldOk_step hfacts hs hl hkeep⟩

/-! ## A lost response -/

instance encodableChar : Encodable Char :=
  Encodable.ofLeftInverse Char.toNat Char.ofNat Char.ofNat_toNat

instance encodableString : Encodable String :=
  Encodable.ofLeftInverse String.toList String.ofList fun _ => String.ofList_toList

instance encodableUInt8 : Encodable UInt8 :=
  Encodable.ofLeftInverse UInt8.toNat UInt8.ofNat fun _ => UInt8.ofNat_toNat

instance : Encodable AttachmentDigest :=
  Encodable.ofLeftInverse (fun a => (a.filename, a.mimeType, a.sha256))
    (fun a => ⟨a.1, a.2.1, a.2.2⟩) fun _ => rfl

instance : Encodable ThreadHeaders :=
  Encodable.ofLeftInverse (fun a => (a.inReplyTo, a.references)) (fun a => ⟨a.1, a.2⟩) fun _ => rfl

instance : Encodable ResponseMode :=
  Encodable.ofLeftInverse
    (fun mode => match mode with
      | .reply => none
      | .replyAll => some false
      | .forward => some true)
    (fun mode => match mode with
      | none => ResponseMode.reply
      | some false => .replyAll
      | some true => .forward)
    fun mode => by cases mode <;> rfl

instance : Encodable ResponseContext :=
  Encodable.ofLeftInverse
    (fun a => (a.responseMode, a.mailboxThreadId, a.sourceMessageId, a.includeQuotedOriginal,
      a.includeOriginalAttachments))
    (fun a => ⟨a.1, a.2.1, a.2.2.1, a.2.2.2.1, a.2.2.2.2⟩) fun _ => rfl

instance : Encodable HashPayload :=
  Encodable.ofLeftInverse
    (fun a => (a.toAddresses, a.ccAddresses, a.bccAddresses, a.subject, a.bodyText, a.bodyHtml,
      a.gmailThreadId, a.attachments, a.headers, a.responseContext))
    (fun (recipients, cc, bcc, subject, text, html, thread, attachments, headers, context) =>
      ⟨recipients, cc, bcc, subject, text, html, thread, attachments, headers, context⟩)
    fun _ => rfl

def noonDigest : String := "2cf0c715f6e7d637cf6f6487b8453efdf0653d8b770bdfc2462f23a82410f35a"

def oneDigest : String := "000e981497114f6b5e4b15437a76a25d250b8a73ef3254337834ad2c10eb24be"

def lunchRequest (bodyText : String) : MailDraftSaveRequest where
  clientDraftId := "draft-1"
  gmailDraftId := none
  gmailThreadId := some "thread-1"
  toAddresses := ["ada@example.com"]
  ccAddresses := []
  bccAddresses := []
  subject := "Lunch"
  bodyText := bodyText
  bodyHtml := none
  attachments := none
  retainedAttachmentIds := none
  responseMode := none
  mailboxThreadId := none
  sourceMessageId := none
  includeQuotedOriginal := true
  includeOriginalAttachments := true

def lunchPayload (bodyText : String) : HashPayload where
  toAddresses := ["ada@example.com"]
  ccAddresses := []
  bccAddresses := []
  subject := "Lunch"
  bodyText := bodyText
  bodyHtml := none
  gmailThreadId := some "thread-1"
  attachments := []
  headers := ⟨none, none⟩
  responseContext := none

/-- A codec with the digests of the two drafts, and with other texts for other payloads. -/
def lunchCodec : DraftCodec where
  validatedAddresses := some
  validSubject := fun _ => true
  validatedAttachments := some
  fileDigest := fun data => String.ofList (List.replicate (Encodable.encode data) '0')
  payloadDigest := fun payload =>
    if payload = lunchPayload "At noon." then noonDigest
    else if payload = lunchPayload "At one." then oneDigest
    else String.ofList (List.replicate (65 + Encodable.encode payload) '0')

def createdDraft : GmailResource := ⟨some "r-1", some "m-1", some "thread-1"⟩

def lunchReads : DraftReads := ⟨none, [], none⟩

def lunchMessage : DraftMessage where
  messageId := "m-2"
  gmailThreadId := some "thread-1"
  headers := []
  bodyHash := "6f661c8a898c1ad7f33d912d7230c26905ca77bbc7f28ea98f4054dbb8cdca93"

def firstSave : List WorldLabel :=
  [.call (.save (lunchRequest "At noon.")) true, .answer .proceed none, .answer (.found none) none,
    .answer (.reads lunchReads) none, .answer .proceed none, .answer .proceed none,
    .answer (.resource createdDraft) none, .answer .proceed none,
    .answer (.resource createdDraft) none, .answer .proceed none]

def lostSave : List WorldLabel :=
  [.call (.save (lunchRequest "At one.")) true, .answer .proceed none,
    .answer (.reads lunchReads) none, .answer .proceed none,
    .answer (.raised .connection) (some "r-1")]

def savedAgain : List WorldLabel :=
  [.call (.save (lunchRequest "At noon.")) true, .answer .proceed none,
    .answer (.reads lunchReads) none, .answer .proceed none, .answer .proceed none,
    .answer (.fetched (some lunchMessage)) none]

def savedLunch : ClientDraft where
  clientDraftId := "draft-1"
  gmailDraftId := some "r-1"
  gmailMessageId := some "m-1"
  gmailThreadId := some "thread-1"
  contentHash := noonDigest
  state := .saved
  lastClientSendId := none
  sentMessageId := none
  error := none

def lunchContent (bodyText : String) : DraftContent where
  toAddresses := ["ada@example.com"]
  ccAddresses := []
  bccAddresses := []
  subject := "Lunch"
  bodyText := bodyText
  bodyHtml := none
  headers := ⟨none, none⟩
  attachments := []

def savedAgainPoint : Point :=
  .getStoring "r-1" (some savedLunch) "draft-1" lunchMessage
    (some ⟨lunchRequest "At noon.", some savedLunch, some "r-1",
      ⟨lunchContent "At noon.", some "thread-1"⟩, noonDigest⟩)

theorem lunchCodec_facts : lunchCodec.DigestFacts where
  fileDigest_injective := by
    intro data data' h
    have hlength := congrArg String.length h
    simp only [lunchCodec, String.length_ofList, List.length_replicate] at hlength
    exact Encodable.encode_injective hlength
  payloadDigest_injective := by
    have hlong : ∀ n text, text.length = 64 →
        text ≠ String.ofList (List.replicate (65 + n) '0') := by
      rintro n _ hlength rfl
      simp only [String.length_ofList, List.length_replicate] at hlength
      omega
    have hnoon : noonDigest.length = 64 := by decide
    have hone : oneDigest.length = 64 := by decide
    intro payload payload' h
    simp only [lunchCodec] at h
    split at h
    · case isTrue hpayload =>
        split at h
        · case isTrue hpayload' => rw [hpayload, hpayload']
        · split at h
          · exact absurd h (by decide)
          · exact absurd h (hlong _ _ hnoon)
    · split at h
      · case isTrue hpayload =>
          split at h
          · exact absurd h (by decide)
          split at h
          · case isTrue hpayload' => rw [hpayload, hpayload']
          · exact absurd h (hlong _ _ hone)
      · split at h
        · exact absurd h.symm (hlong _ _ hnoon)
        · split at h
          · exact absurd h.symm (hlong _ _ hone)
          · have hlength := congrArg String.length h
            simp only [String.length_ofList, List.length_replicate] at hlength
            exact Encodable.encode_injective (Nat.add_left_cancel hlength)
  payloadDigest_hex := by
    intro payload
    simp only [lunchCodec]
    split
    · exact List.all_eq_true.1 (by decide)
    split
    · exact List.all_eq_true.1 (by decide)
    · simp [isHexDigit]

theorem lunchMessage_apart : lunchCodec.BodyHashApart lunchMessage.bodyHash where
  hex := List.all_eq_true.1 (by decide)
  apart := by
    intro payload h
    simp only [lunchCodec] at h
    split at h
    · exact absurd h (by decide)
    split at h
    · exact absurd h (by decide)
    have hlength := congrArg String.length h
    rw [String.length_ofList, List.length_replicate] at hlength
    have hbody : lunchMessage.bodyHash.length = 64 := by decide
    omega

/-- **The run.** The last save answers `saved` while Gmail holds the changed draft. -/
theorem acknowledged_lost :
    lunchCodec.DigestFacts ∧
      Along (worldStep lunchCodec) (SequenceOn lunchCodec (fun _ => False) "draft-1")
        (DraftWorld.initial fun _ => none)
        (firstSave ++ lostSave ++ savedAgain ++ [.answer .proceed none]) ∧
      ¬Along (worldStep lunchCodec) (SaveAcknowledged lunchCodec "draft-1")
        (DraftWorld.initial fun _ => none)
        (firstSave ++ lostSave ++ savedAgain ++ [.answer .proceed none]) := by
  refine ⟨lunchCodec_facts, ?_, ?_⟩
  · have hnone : ∀ g, given none = some g → OnDraft (fun _ => False) "draft-1" g :=
      fun g hg => nomatch hg
    have hdraft : ∀ g, given (some "r-1") = some g →
        OnDraft (fun _ => False) "draft-1" g ∧ ∀ x, none = some x → g = x := by
      rintro g ⟨⟩
      exact ⟨⟨by decide, fun _ h => h.elim⟩, fun _ h => nomatch h⟩
    have hbody : ∀ message, Answer.fetched (some lunchMessage) = .fetched (some message) →
        lunchCodec.BodyHashApart message.bodyHash := by
      rintro message ⟨⟩
      exact lunchMessage_apart
    exact ⟨⟨rfl, hnone⟩, ⟨trivial, fun _ h => nomatch h⟩, ⟨hnone, fun _ h => nomatch h⟩, ⟨trivial, fun _ h => nomatch h⟩, ⟨trivial, fun _ h => nomatch h⟩, ⟨trivial, fun _ h => nomatch h⟩,
      ⟨hdraft, fun _ h => nomatch h⟩, ⟨trivial, fun _ h => nomatch h⟩, ⟨trivial, fun _ h => nomatch h⟩, ⟨trivial, fun _ h => nomatch h⟩, ⟨rfl, hnone⟩, ⟨trivial, fun _ h => nomatch h⟩, ⟨trivial, fun _ h => nomatch h⟩, ⟨trivial, fun _ h => nomatch h⟩, ⟨trivial, fun _ h => nomatch h⟩, ⟨rfl, hnone⟩, ⟨trivial, fun _ h => nomatch h⟩, ⟨trivial, fun _ h => nomatch h⟩, ⟨trivial, fun _ h => nomatch h⟩, ⟨trivial, fun _ h => nomatch h⟩,
      ⟨trivial, hbody⟩, ⟨trivial, fun _ h => nomatch h⟩, trivial⟩
  · intro h
    have hends : endsWith lunchCodec
        (after (worldStep lunchCodec) (DraftWorld.initial fun _ => none)
          (firstSave ++ lostSave ++ savedAgain)) (.answer .proceed none) =
        some (savedAgainPoint,
          .draft ⟨"draft-1", some "r-1", some "m-2", some "thread-1", .saved, none⟩) := by
      decide +kernel
    have hgmail : (worldStep lunchCodec
        (after (worldStep lunchCodec) (DraftWorld.initial fun _ => none)
          (firstSave ++ lostSave ++ savedAgain)) (.answer .proceed none)).gmail "r-1" =
        some (lunchContent "At one.") := by
      decide +kernel
    obtain ⟨work, existing, target, reads, g, hwork, -, -, hg, hcontent⟩ :=
      h.last.saved _ _ _ hends rfl rfl
    cases hwork
    cases hg
    rw [hgmail] at hcontent
    exact absurd hcontent (by decide)

def lunchSend : List WorldLabel :=
  [.call (.send "draft-1" "r-1" "send-1") true, .answer .proceed none, .answer .proceed none,
    .answer .proceed none, .answer (.resource ⟨some "m-3", none, some "thread-1"⟩) none]

theorem acknowledged_kept_send :
    delivers lunchCodec (after (worldStep lunchCodec) (DraftWorld.initial fun _ => none)
        (firstSave ++ lunchSend.dropLast)) (.answer (.resource ⟨some "m-3", none, some "thread-1"⟩) none) =
      some ("draft-1", "r-1") ∧
    Along (worldStep lunchCodec) (SaveAcknowledged lunchCodec "draft-1")
      (DraftWorld.initial fun _ => none) (firstSave ++ lunchSend) := by
  refine ⟨by decide +kernel, acknowledged_kept lunchCodec lunchCodec_facts (fun _ => False)
    "draft-1" (fun _ => none) (firstSave ++ lunchSend) ?_ ?_⟩
  · have hnone : ∀ g, given none = some g → OnDraft (fun _ => False) "draft-1" g :=
      fun g hg => nomatch hg
    have hdraft : ∀ g, given (some "r-1") = some g →
        OnDraft (fun _ => False) "draft-1" g ∧ ∀ x, none = some x → g = x := by
      rintro g ⟨⟩
      exact ⟨⟨by decide, fun _ h => h.elim⟩, fun _ h => nomatch h⟩
    exact ⟨⟨rfl, hnone⟩, ⟨trivial, fun _ h => nomatch h⟩, ⟨hnone, fun _ h => nomatch h⟩, ⟨trivial, fun _ h => nomatch h⟩, ⟨trivial, fun _ h => nomatch h⟩, ⟨trivial, fun _ h => nomatch h⟩,
      ⟨hdraft, fun _ h => nomatch h⟩, ⟨trivial, fun _ h => nomatch h⟩, ⟨trivial, fun _ h => nomatch h⟩, ⟨trivial, fun _ h => nomatch h⟩, rfl, ⟨trivial, fun _ h => nomatch h⟩, ⟨trivial, fun _ h => nomatch h⟩, ⟨trivial, fun _ h => nomatch h⟩, ⟨trivial, fun _ h => nomatch h⟩, trivial⟩
  · exact ⟨id, id, id, id, id, id, id, id, id, id, id, id, id, id, id, trivial⟩

end ElectronicMail.Drafts
