import ElectronicMail.Drafts.Steps

/-!
# Operations one after the other

One operation at a time runs on the table and on Gmail. Every call of Gmail succeeds,
fails for certain, or is applied although its response is lost; with a lost response the
label says so. A call is applied where it succeeds, and where it fails without being a
definite failure and the label says that it was applied.

`DraftWorld` keeps the contents that Gmail holds and, for every client draft, the content
of the last save that was acknowledged.
-/

namespace ElectronicMail.Drafts

inductive Activity where
  | idle
  | resolving (mailboxThreadId : String)
  | working (handle : DraftHandle) (point : Point)

structure DraftWorld where
  table : DraftTable
  /-- The contents of the Gmail drafts. -/
  gmail : String → Option DraftContent
  activity : Activity
  /-- The content of the last acknowledged save of a client draft. -/
  acknowledged : String → Option DraftContent

def DraftWorld.initial (gmail : String → Option DraftContent) : DraftWorld :=
  ⟨DraftTable.empty, gmail, .idle, fun _ => none⟩

inductive WorldLabel where
  | call (call : DraftCall) (allowed : Bool)
  /-- An answer. `applied` is set if Gmail applied a call whose response does not say so; for
  a create it is the id of the new draft. -/
  | answer (answer : Answer) (applied : Option String)

/-! ## Effects on Gmail -/

def isApplied (answer : Answer) (applied : Option String) : Bool :=
  match answer with
  | .resource _ => true
  | .raised exc => !isDefiniteFailure exc && applied.isSome
  | _ => false

def writtenDraft (work : SaveWork) (answer : Answer) (applied : Option String) : Option String :=
  if isApplied answer applied then
    match answer with
    | .resource resource => ((given resource.id).or work.gmailDraftId).or applied
    | _ => work.gmailDraftId.or applied
  else none

def deliveredDraft (point : Point) (answer : Answer) (applied : Option String) : Option String :=
  match point with
  | .sendAwaiting sending _ =>
    if isApplied answer applied then sending.gmailDraftId else none
  | _ => none

/-- The Gmail drafts after a call is answered: a save writes its content, and a draft that
is sent is a draft no longer. -/
def gmailAfter (point : Point) (answer : Answer) (applied : Option String)
    (gmail : String → Option DraftContent) : String → Option DraftContent :=
  match point with
  | .saveAwaiting work =>
    match writtenDraft work answer applied with
    | none => gmail
    | some g => Function.update gmail g (some work.effective.content)
  | .sendAwaiting _ _ =>
    match deliveredDraft point answer applied with
    | none => gmail
    | some g => Function.update gmail g none
  | _ => gmail

/-! ## Acknowledged saves -/

def Point.request? : Point → Option MailDraftSaveRequest
  | .saveEntered request => some request
  | .saveAdopted request _ => some request
  | .saveSearching request _ => some request
  | .savePreparing request _ _ => some request
  | .saveCheckpoint work => some work.request
  | .saveCalling work => some work.request
  | .saveAwaiting work => some work.request
  | .saveCreateFailed work _ _ => some work.request
  | .saveRebinding work _ => some work.request
  | .saveConfirming work _ _ => some work.request
  | .saveGone work _ => some work.request
  | .saveStoring work _ => some work.request
  | .saveHydrating work _ _ => some work.request
  | .saveHydrated work _ _ => some work.request
  | .saveReopening work _ => some work.request
  | .getEntered _ _ _ caller => caller.map SaveWork.request
  | .getFetching _ _ _ caller => caller.map SaveWork.request
  | .getStoring _ _ _ _ caller => caller.map SaveWork.request
  | _ => none

def Point.work? : Point → Option SaveWork
  | .saveCheckpoint work => some work
  | .saveCalling work => some work
  | .saveAwaiting work => some work
  | .saveCreateFailed work _ _ => some work
  | .saveRebinding work _ => some work
  | .saveConfirming work _ _ => some work
  | .saveGone work _ => some work
  | .saveStoring work _ => some work
  | .saveHydrating work _ _ => some work
  | .saveHydrated work _ _ => some work
  | .saveReopening work _ => some work
  | .getEntered _ _ _ caller => caller
  | .getFetching _ _ _ caller => caller
  | .getStoring _ _ _ _ caller => caller
  | _ => none

/-- The response is a draft in the state `saved`. -/
def Finish.saves : Finish → Bool
  | .draft response => decide (response.state = .saved)
  | _ => false

/-- The acknowledged content of its client after a save ends: one that answers `saved`
acknowledges its content. -/
def acknowledgedBy (work : Option SaveWork) (result : Finish)
    (acknowledged : Option DraftContent) : Option DraftContent :=
  match work with
  | some work => if result.saves then some work.effective.content else acknowledged
  | none => acknowledged

def acknowledgedAfter (work : Option SaveWork) (result : Finish)
    (acknowledged : String → Option DraftContent) : String → Option DraftContent :=
  match work with
  | some save =>
    Function.update acknowledged save.request.clientDraftId
      (acknowledgedBy work result (acknowledged save.request.clientDraftId))
  | none => acknowledged

/-! ## Steps -/

def Opening.activity : Opening → Activity
  | .resolving mailboxThreadId => .resolving mailboxThreadId
  | .locking handle point => .working handle point
  | .finish _ => .idle

def Next.activity (handle : DraftHandle) : Next → Activity
  | .goto point => .working handle point
  | .adopt g point => .working ⟨handle.clientDraftId, some g⟩ point
  | .finish _ => .idle

def Next.acknowledged (work : Option SaveWork) (acknowledged : String → Option DraftContent) :
    Next → String → Option DraftContent
  | .finish result => acknowledgedAfter work result acknowledged
  | _ => acknowledged

def worldStep (codec : DraftCodec) (s : DraftWorld) : WorldLabel → DraftWorld
  | .call call allowed =>
    match s.activity with
    | .idle =>
      { s with activity := if allowed then (openCall codec s.table call).activity else .idle }
    | _ => s
  | .answer answer applied =>
    match s.activity with
    | .idle => s
    | .resolving mailboxThreadId =>
      match resolveGet mailboxThreadId answer with
      | none => s
      | some opening => { s with activity := opening.activity }
    | .working handle point =>
      match draftStep codec handle s.table point answer with
      | none => s
      | some (table, next) =>
        { table := table
          gmail := gmailAfter point answer applied s.gmail
          activity := next.activity handle
          acknowledged := next.acknowledged point.work? s.acknowledged }

def endsWith (codec : DraftCodec) (s : DraftWorld) : WorldLabel → Option (Point × Finish)
  | .call _ _ => none
  | .answer answer _ =>
    match s.activity with
    | .working handle point =>
      match draftStep codec handle s.table point answer with
      | some (_, .finish result) => some (point, result)
      | _ => none
    | _ => none

def delivers (codec : DraftCodec) (s : DraftWorld) : WorldLabel → Option (String × String)
  | .call _ _ => none
  | .answer answer applied =>
    match s.activity with
    | .working handle point =>
      if (draftStep codec handle s.table point answer).isSome then
        (deliveredDraft point answer applied).map fun g => (handle.clientDraftId, g)
      else none
    | _ => none

/-! ## What a step is -/

section

variable {codec : DraftCodec} {s : DraftWorld} {l : WorldLabel}

variable {point : Point} {applied : Option String}

theorem worldStep_working {handle : DraftHandle} {answer : Answer} {after : DraftTable}
    {next : Next} (hactivity : s.activity = .working handle point)
    (hstep : draftStep codec handle s.table point answer = some (after, next)) :
    worldStep codec s (.answer answer applied) =
      { table := after
        gmail := gmailAfter point answer applied s.gmail
        activity := next.activity handle
        acknowledged := next.acknowledged point.work? s.acknowledged } := by
  simp only [worldStep, hactivity, hstep]

theorem endsWith_eq_some {result : Finish} (h : endsWith codec s l = some (point, result)) :
    ∃ handle answer applied after, l = .answer answer applied ∧
      s.activity = .working handle point ∧
      draftStep codec handle s.table point answer = some (after, .finish result) := by
  unfold endsWith at h
  split at h
  · cases h
  case h_2 answer applied =>
    split at h
    · case h_1 handle point' hactivity =>
        split at h
        · case h_1 after result' hstep =>
            cases h
            exact ⟨handle, answer, applied, after, rfl, hactivity, hstep⟩
        · cases h
    · cases h

theorem deliveredDraft_eq_some {answer : Answer} {g : String}
    (h : deliveredDraft point answer applied = some g) :
    ∃ sending clientSendId, point = .sendAwaiting sending clientSendId ∧
      sending.gmailDraftId = some g := by
  unfold deliveredDraft at h
  split at h
  · case h_1 sending clientSendId =>
      split at h
      · exact ⟨sending, clientSendId, rfl, h⟩
      · cases h
  · cases h

theorem delivers_eq_some {c g : String} (h : delivers codec s l = some (c, g)) :
    ∃ handle sending clientSendId, s.activity = .working handle (.sendAwaiting sending clientSendId) ∧
      handle.clientDraftId = c ∧ sending.gmailDraftId = some g := by
  unfold delivers at h
  split at h
  · cases h
  split at h
  · case h_1 handle point hactivity =>
      split at h
      · obtain ⟨x, hx, heq⟩ := Option.map_eq_some_iff.1 h
        cases heq
        obtain ⟨sending, clientSendId, rfl, hg⟩ := deliveredDraft_eq_some hx
        exact ⟨handle, sending, clientSendId, hactivity, rfl, hg⟩
      · cases h
  · cases h

end

end ElectronicMail.Drafts
