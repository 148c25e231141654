import ElectronicMail.Accounts.AccountScope
import ElectronicMail.Accounts.ReplyMessage
import ElectronicMail.Recipients.Survive

/-!
# Replays of an account-scoped reply

`send_reply` makes its message anew from the thread that Gmail shows, and
`create_or_get_send` compares the hash of it with the hash of the stored one. A request that
is sent again with the same id is therefore taken for another one when the thread has
changed in what the message is made of: a reply that names no message answers the last one,
which is another one after the next mail.

`reply_replay_iff` says for exactly which changes of the thread the second request returns
the stored record.
-/

namespace ElectronicMail.Accounts

open Foundations
open Foundations.Table
open Foundations.Versions
open Foundations.RowPolicy
open Foundations.Text (truthy)
open Recipients (Fields)

/-! ## send_reply -/

/-- A call of `send_reply`, and what it meets: whether the account is ready and the scope
granted, the email of the account, and the records of the thread, `none` where the request
to Gmail raises. -/
structure ReplyCall where
  userId : String
  gmailAccountId : String
  mailboxThreadId : String
  request : MailReplyRequest
  ready : Bool
  granted : Bool
  email : Option String
  thread : Option (List ThreadMessage)
  workAllowed : Bool
  now : Nat
  serverSendId : String

/-- How `send_reply` ends. `accepted` is the response made of a record, with whether a
delivery job has been enqueued; `raised` is what `create_or_get_send` raises. -/
inductive ReplyOutcome where
  | accountUnavailable
  | reauthRequired
  | gmailError
  | failed (error : String)
  | accepted (row : Scoped SendColumns) (queued : Bool)
  | raised (result : AccountResult)

/-- `_queue_delivery` on what `create_or_get_send` gave. -/
def queueDelivery : AccountResult → ReplyOutcome
  | .send (some row) => .accepted row (row.columns.state ≠ .sent)
  | result => .raised result

/-- The call of `create_or_get_send`. -/
def ReplyCall.createCall (c : ReplyCall) (message : SendRequest) : ScopedCall where
  caller := .httpRoute
  userId := c.userId
  gmailAccountId := c.gmailAccountId
  workAllowed := c.workAllowed
  now := c.now
  call := .createOrGetSend c.serverSendId c.request.clientSendId message c.request.createdAt

/-- What `send_reply` makes of the request, `none` where Gmail raises. A thread of another
account is refused before Gmail is asked. -/
def ReplyCall.message (lib : ReplyLibrary) (c : ReplyCall) : Option (Except String SendRequest) :=
  match gmailThreadIdOf c.gmailAccountId c.mailboxThreadId, c.thread with
  | .ok _, none => none
  | .error e, none => some (.error e)
  | _, some records =>
    some (lib.messageOf c.request c.gmailAccountId c.mailboxThreadId c.email records)

def sendReply (lib : ReplyLibrary) (primary : String → Option String)
    (digest : SendRequest → String) (s : AccountStore) (c : ReplyCall) :
    AccountStore × ReplyOutcome :=
  if !c.ready then (s, .accountUnavailable)
  else if !c.granted then (s, .reauthRequired)
  else
    match c.message lib with
    | none => (s, .gmailError)
    | some (.error _) => (s, .failed "Operation failed.")
    | some (.ok message) =>
      if message.content.toJson.isEmpty && c.request.forwards then
        (s, .failed "Add at least one recipient.")
      else
        let called := runCall primary digest s (c.createCall message)
        (called.1, queueDelivery called.2)

/-! ## Statement -/

structure ReplyCall.Repeats (c c' : ReplyCall) : Prop where
  userId : c'.userId = c.userId
  gmailAccountId : c'.gmailAccountId = c.gmailAccountId
  mailboxThreadId : c'.mailboxThreadId = c.mailboxThreadId
  request : c'.request = c.request
  email : c'.email = c.email

structure ReplyCall.Works (c : ReplyCall) : Prop where
  ready : c.ready = true
  granted : c.granted = true
  workAllowed : c.workAllowed = true

def ReplyCall.source (c : ReplyCall) : Option ThreadMessage :=
  c.thread.bind fun records => (c.request.sourceOf (sortRecords records)).toOption

structure SameReply (lib : ReplyLibrary) (request : MailReplyRequest) (email : Option String)
    (m m' : ThreadMessage) : Prop where
  recipients : ∀ valid owner, lib.validatedFields request = .ok valid → email = some owner →
    lib.recipientsOf request valid (m'.source owner) =
      lib.recipientsOf request valid (m.source owner)
  subject : lib.subjectOf request m' = lib.subjectOf request m
  headers : request.headersOf m' = request.headersOf m
  quotes : request.quotes m' = request.quotes m

/-- The second call answers a message that makes the same reply as that of the first. -/
def SameSource (lib : ReplyLibrary) (c c' : ReplyCall) : Prop :=
  ∃ m m', c.source = some m ∧ c'.source = some m' ∧ SameReply lib c.request c.email m m'

/-- There is a message to answer, and the subject that it gives is on one line. -/
def ReplyCall.Answers (lib : ReplyLibrary) (c : ReplyCall) : Prop :=
  ∃ m, c.source = some m ∧ validateSubject (lib.subjectOf c.request m) = .ok ()

def ReplyCall.key (c : ReplyCall) : String × String × String :=
  (c.userId, c.gmailAccountId, c.request.clientSendId)

def Returns (outcome : ReplyOutcome) (s : AccountStore) (c : ReplyCall) (serverSendId : String) :
    Prop :=
  ∃ row queued, outcome = .accepted row queued ∧ row ∈ s.sends.rows ∧
    row.key SendColumns.clientSendId = c.key ∧ row.columns.serverSendId = serverSendId

/-! ## Messages -/

theorem except_bind_eq_ok {α β : Type} {x : Except String α} {f : α → Except String β} {b : β} :
    (x >>= f) = .ok b ↔ ∃ a, x = .ok a ∧ f a = .ok b := by
  cases x with
  | error e | ok a => simp [bind, Except.bind]

variable {m m' : ThreadMessage}

variable {request : MailReplyRequest}

theorem bodies_eq_iff :
    request.bodies m' = request.bodies m ↔ request.quotes m' = request.quotes m := by
  unfold MailReplyRequest.bodies MailReplyRequest.quotes
  by_cases hquoted : request.includeQuotedOriginal = true
  · simp only [hquoted, if_true, Prod.mk.injEq, Option.some.injEq, String.append_right_inj]
  · simp only [hquoted, if_false, Bool.false_eq_true]

theorem map_ofList_eq_iff {texts texts' : List (List Char)} :
    texts.map String.ofList = texts'.map String.ofList ↔ texts = texts' := by
  apply List.map_inj_right
  intro text text' h
  have hlist := congrArg String.toList h
  simpa using hlist

theorem fields_eq_iff {f f' : Fields} : f' = f ↔ f'.to = f.to ∧ f'.cc = f.cc ∧ f'.bcc = f.bcc := by
  cases f
  cases f'
  simp

variable {lib : ReplyLibrary}

theorem messageFor_eq_iff {account thread owner : String} {valid : Fields}
    {attachments : List (List (String × String))}
    (hvalid : lib.validatedFields request = .ok valid) :
    lib.messageFor request account thread valid attachments owner m' =
        lib.messageFor request account thread valid attachments owner m ↔
      SameReply lib request (some owner) m m' := by
  unfold ReplyLibrary.messageFor
  simp only [SendRequest.mk.injEq, Sends.SendContent.mk.injEq, true_and, and_true,
    map_ofList_eq_iff]
  constructor
  · rintro ⟨hto, hcc, hbcc, hsubject, hbody, hhtml, hheaders⟩
    refine ⟨?_, hsubject, hheaders, bodies_eq_iff.1 (Prod.ext hbody hhtml)⟩
    intro valid' owner' hvalid' howner
    rw [hvalid] at hvalid'
    cases hvalid'
    cases howner
    exact fields_eq_iff.2 ⟨hto, hcc, hbcc⟩
  · intro h
    obtain ⟨hto, hcc, hbcc⟩ := fields_eq_iff.1 (h.recipients valid owner hvalid rfl)
    obtain ⟨hbody, hhtml⟩ := Prod.ext_iff.1 (bodies_eq_iff.2 h.quotes)
    exact ⟨hto, hcc, hbcc, h.subject, hbody, hhtml, h.headers⟩

variable {email : Option String} {records : List ThreadMessage} {message : SendRequest}

/-- **What a message is made of.** -/
theorem messageOf_eq_ok {account mailboxThread : String} :
    lib.messageOf request account mailboxThread email records = .ok message ↔
      ∃ thread source owner valid attachments,
        gmailThreadIdOf account mailboxThread = .ok thread ∧
        request.sourceOf (sortRecords records) = .ok source ∧ email = some owner ∧
        lib.validatedFields request = .ok valid ∧
        lib.validatedAttachments request.attachments = .ok attachments ∧
        validateSubject (lib.subjectOf request source) = .ok () ∧
        message = lib.messageFor request account thread valid attachments owner source := by
  unfold ReplyLibrary.messageOf
  simp only [except_bind_eq_ok]
  constructor
  · rintro ⟨thread, hthread, source, hsource, owner, howner, valid, hvalid, attachments,
      hattachments, ⟨⟩, hsubject, hmessage⟩
    cases email with
    | none => cases howner
    | some =>
      cases howner
      cases hmessage
      exact ⟨thread, source, owner, valid, attachments, hthread, hsource, rfl, hvalid,
        hattachments, hsubject, rfl⟩
  · rintro ⟨thread, source, owner, valid, attachments, hthread, hsource, rfl, hvalid,
      hattachments, hsubject, rfl⟩
    exact ⟨thread, hthread, source, hsource, owner, rfl, valid, hvalid, attachments,
      hattachments, (), hsubject, rfl⟩

theorem message_eq_ok {c : ReplyCall} : c.message lib = some (.ok message) ↔
      ∃ thread source owner valid attachments,
        gmailThreadIdOf c.gmailAccountId c.mailboxThreadId = .ok thread ∧
        c.source = some source ∧ c.email = some owner ∧
        lib.validatedFields c.request = .ok valid ∧
        lib.validatedAttachments c.request.attachments = .ok attachments ∧
        validateSubject (lib.subjectOf c.request source) = .ok () ∧
        message =
          lib.messageFor c.request c.gmailAccountId thread valid attachments owner source := by
  unfold ReplyCall.message ReplyCall.source
  cases hthread : c.thread with
  | none =>
    cases gmailThreadIdOf c.gmailAccountId c.mailboxThreadId with
    | error e | ok => simp
  | some records =>
    have hsource : ∀ source,
        (c.request.sourceOf (sortRecords records)).toOption = some source ↔
          c.request.sourceOf (sortRecords records) = .ok source := by
      intro source
      cases c.request.sourceOf (sortRecords records) with
      | error e | ok m => simp [Except.toOption]
    simp only [Option.some.injEq, Option.bind_some, hsource]
    exact messageOf_eq_ok

section Twice

variable {lib : ReplyLibrary} {c c' : ReplyCall} {message message' : SendRequest}

/-- The request that has made a message once makes one whenever there is a message to answer
and its subject is on one line. -/
theorem message_again (hagain : c.Repeats c') (hmessage : c.message lib = some (.ok message))
    (hanswers : c'.Answers lib) : ∃ message', c'.message lib = some (.ok message') := by
  obtain ⟨thread, -, owner, valid, attachments, hthread, -, howner, hvalid, hattachments, -, -⟩ :=
    message_eq_ok.1 hmessage
  obtain ⟨source, hsource, hsubject⟩ := hanswers
  refine ⟨_, message_eq_ok.2 ⟨thread, source, owner, valid, attachments, ?_, hsource, ?_, ?_, ?_,
    hsubject, rfl⟩⟩
  · rw [hagain.gmailAccountId, hagain.mailboxThreadId]
    exact hthread
  · rw [hagain.email]
    exact howner
  · rw [hagain.request]
    exact hvalid
  · rw [hagain.request]
    exact hattachments

theorem answers_of_message (hmessage : c.message lib = some (.ok message)) : c.Answers lib := by
  obtain ⟨_, source, _, _, _, -, hsource, -, -, -, hsubject, -⟩ := message_eq_ok.1 hmessage
  exact ⟨source, hsource, hsubject⟩

section

variable (hagain : c.Repeats c') (hmessage : c.message lib = some (.ok message))
include hagain hmessage

theorem answers_of_sameSource (hsame : SameSource lib c c') :
    c'.Answers lib := by
  obtain ⟨source, hsource, hsubject⟩ := answers_of_message hmessage
  obtain ⟨m, m', hm, hm', hreply⟩ := hsame
  rw [hm] at hsource
  cases hsource
  refine ⟨m', hm', ?_⟩
  rw [hagain.request, hreply.subject]
  exact hsubject

theorem message_eq_iff (hmessage' : c'.message lib = some (.ok message')) :
    message' = message ↔ SameSource lib c c' := by
  obtain ⟨thread, source, owner, valid, attachments, hthread, hsource, howner, hvalid,
    hattachments, -, rfl⟩ := message_eq_ok.1 hmessage
  obtain ⟨thread', source', owner', valid', attachments', hthread', hsource', howner', hvalid',
    hattachments', -, rfl⟩ := message_eq_ok.1 hmessage'
  rw [hagain.gmailAccountId, hagain.mailboxThreadId, hthread] at hthread'
  rw [hagain.email, howner] at howner'
  rw [hagain.request, hvalid] at hvalid'
  rw [hagain.request, hattachments] at hattachments'
  cases hthread'
  cases howner'
  cases hvalid'
  cases hattachments'
  rw [hagain.request, hagain.gmailAccountId, messageFor_eq_iff hvalid, ← howner]
  constructor
  · intro hreply
    exact ⟨source, source', hsource, hsource', hreply⟩
  rintro ⟨m, m', hm, hm', hreply⟩
  rw [hsource] at hm
  rw [hsource'] at hm'
  cases hm
  cases hm'
  exact hreply

theorem recipientless_again (hmessage' : c'.message lib = some (.ok message')) :
    (message'.content.toJson.isEmpty && c'.request.forwards) =
      (message.content.toJson.isEmpty && c.request.forwards) := by
  obtain ⟨_, _, _, valid, _, -, -, -, hvalid, -, -, rfl⟩ := message_eq_ok.1 hmessage
  obtain ⟨_, _, _, valid', _, -, -, -, hvalid', -, -, rfl⟩ := message_eq_ok.1 hmessage'
  rw [hagain.request, hvalid] at hvalid'
  cases hvalid'
  rw [hagain.request]
  by_cases hforward : c.request.forwards = true
  · have hmode : c.request.mode = .forward := by simpa [MailReplyRequest.forwards] using hforward
    simp [ReplyLibrary.messageFor, ReplyLibrary.recipientsOf, hmode]
  · simp [hforward]

end

end Twice

/-! ## The record of a request -/

section Record

variable {α : Type} {allows : Scoped α → Bool} {clientId serverId : α → String} {row r : Scoped α}
  {t : Versioned (Scoped α)}

theorem CreateEffect.mem {result : Versioned (Scoped α) × Created α}
    (h : CreateEffect clientId serverId row t result) (hmem : r ∈ t.rows) : r ∈ result.1.rows := by
  cases h with
  | refused | missing | found => exact hmem
  | inserted => exact List.mem_append_left _ hmem

theorem createOrGetRow_allowed
    (h : (createOrGetRow allows clientId serverId row t).2 ≠ .refused) : allows row = true := by
  by_contra hrefused
  apply h
  unfold createOrGetRow
  rw [if_pos (by simpa using hrefused)]

theorem createOrGetRow_of_mem (ht : t.Recorded (Scoped.key clientId)) (hrow : allows row = true)
    (hmem : r ∈ t.rows) (hr : allows r = true) (hkey : r.key clientId = row.key clientId) :
    createOrGetRow allows clientId serverId row t = (t, .found r) := by
  have htaken : (t.rows.any fun r' =>
      decide (r'.gmailAccountId = row.gmailAccountId ∧
        clientId r'.columns = clientId row.columns)) = true := by
    simp only [Scoped.key, Prod.mk.injEq] at hkey
    exact List.any_eq_true.2 ⟨r, hmem, by simp [hkey.2.1, hkey.2.2]⟩
  have hfound : (select allows (fun r' => r'.key clientId = row.key clientId) t.rows).head? =
      some r := by
    have hselected : r ∈ select allows (fun r' => r'.key clientId = row.key clientId) t.rows :=
      mem_select.2 ⟨hmem, hr, decide_eq_true hkey⟩
    cases hhead : (select allows (fun r' => r'.key clientId = row.key clientId) t.rows).head? with
    | none =>
      rw [List.head?_eq_none_iff.1 hhead] at hselected
      cases hselected
    | some r' =>
      obtain ⟨hmem', -, hkey'⟩ := mem_select.1 (List.mem_of_mem_head? hhead)
      rw [ht.eq_of_key hmem' hmem ((of_decide_eq_true hkey').trans hkey.symm)]
  unfold createOrGetRow
  rw [if_neg (by simp [hrow]), if_pos htaken, hfound]

end Record

/-- The row is the record of a request: its key, its server id and its hash. -/
structure RecordOf (key : String × String × String) (serverSendId requestHash : String)
    (row : Scoped SendColumns) : Prop where
  key : row.key SendColumns.clientSendId = key
  serverSendId : row.columns.serverSendId = serverSendId
  requestHash : row.columns.requestHash = requestHash

section Calls

variable {primary : String → Option String} {digest : SendRequest → String}
  {key : String × String × String} {serverSendId requestHash : String}

structure Kept (key : String × String × String) (serverSendId requestHash : String)
    (s : AccountStore) : Prop where
  store : StoreOk s
  row : ∃ row ∈ s.sends.rows, RecordOf key serverSendId requestHash row

theorem kept_step (s : AccountStore) (c : ScopedCall) (h : Kept key serverSendId requestHash s) :
    Kept key serverSendId requestHash (callStep primary digest s c) := by
  refine ⟨storeOk_step s c h.store, ?_⟩
  have hrow := h.row
  unfold callStep runCall
  cases c.call with
  | createOrGetSend =>
    refine guarded_cases (P := fun result => ∃ row ∈ result.1.sends.rows,
      RecordOf key serverSendId requestHash row) ?_ hrow
    obtain ⟨row, hmem, hrecord⟩ := hrow
    refine ⟨row, ?_, hrecord⟩
    apply (createOrGetRow_effect _ _ _ _ s.sends).mem hmem
  | updateSend =>
    refine guarded_cases (P := fun result => ∃ row ∈ result.1.sends.rows,
      RecordOf key serverSendId requestHash row) ?_ hrow
    show ∃ row ∈ (s.sends.update _ _).rows, _
    rw [s.sends.update_rows]
    exact exists_updateWhere hrow fun row _ hrecord =>
      ⟨hrecord.key, hrecord.serverSendId, hrecord.requestHash⟩
  | getSend => exact hrow
  | listSends => exact hrow
  | createOrGetAction => exact guarded_cases (P := fun result => ∃ row ∈ result.1.sends.rows,
        RecordOf key serverSendId requestHash row) hrow hrow
  | updateAction => exact guarded_cases (P := fun result => ∃ row ∈ result.1.sends.rows,
        RecordOf key serverSendId requestHash row) hrow hrow
  | getAction => exact hrow
  | upsertDraft => exact guarded_cases (P := fun result => ∃ row ∈ result.1.sends.rows,
        RecordOf key serverSendId requestHash row) hrow hrow
  | updateDraftState => exact guarded_cases (P := fun result => ∃ row ∈ result.1.sends.rows,
        RecordOf key serverSendId requestHash row) hrow hrow
  | getDraft => exact hrow

/-- **A send keeps its identity.** In every sequence of calls on any accounts, a client send id and
a server send id name one send of their account, which stays with both ids and its hash. -/
theorem sends_keep_identity (primary : String → Option String) (digest : SendRequest → String)
    (earlier later : List ScopedCall) :
    let s := after (callStep primary digest) .initial earlier
    let s' := after (callStep primary digest) s later
    (s'.sends.rows.map (Scoped.key SendColumns.clientSendId)).Nodup ∧
      (s'.sends.rows.map (Scoped.key SendColumns.serverSendId)).Nodup ∧
      ∀ row ∈ s.sends.rows, ∃ row' ∈ s'.sends.rows,
        RecordOf (row.key SendColumns.clientSendId) row.columns.serverSendId
          row.columns.requestHash row' := by
  intro s s'
  have hs : StoreOk s := after_of_step storeOk_step storeOk_initial earlier
  have hs' : StoreOk s' := after_of_step storeOk_step hs later
  refine ⟨hs'.sendClient.keys, hs'.sendServer.keys, fun row hrow => ?_⟩
  exact (after_of_step kept_step ⟨hs, row, hrow, rfl, rfl, rfl⟩ later).row

variable {s : AccountStore} {c : ReplyCall} {message : SendRequest} {row : Scoped SendColumns}

/-- The account of the call is the one that the policy lets its transaction write for. -/
def ReplyCall.Allowed (primary : String → Option String) (c : ReplyCall) : Prop :=
  allowsAccount primary c.gmailAccountId c.userId c.gmailAccountId = true

/-- What `create_or_get_send` gives is stored, and is of the message or has no hash. -/
theorem createCall_accepts (hs : StoreOk s)
    (h : (runCall primary digest s (c.createCall message)).2 = .send (some row)) :
    c.Allowed primary ∧
      Kept c.key row.columns.serverSendId row.columns.requestHash
        (callStep primary digest s (c.createCall message)) ∧
      (row.columns.requestHash = "" ∨ row.columns.requestHash = digest message) := by
  have hstore : StoreOk (callStep primary digest s (c.createCall message)) := storeOk_step s _ hs
  unfold callStep at hstore ⊢
  by_cases hwork : c.workAllowed = true
  · simp only [runCall, ReplyCall.createCall, guarded, hwork, if_true] at h hstore ⊢
    generalize hnew : (⟨c.userId, c.gmailAccountId, newSend (digest message) c.serverSendId
      c.request.clientSendId message c.request.createdAt c.now⟩ : Scoped SendColumns) = new
      at h hstore ⊢
    have hallowed : c.Allowed primary := by
      have hnew' : Scoped.allowed primary c.gmailAccountId new = true := by
        apply createOrGetRow_allowed
        intro hrefused
        rw [hrefused] at h
        cases h
      rw [← hnew] at hnew'
      exact hnew'
    have heffect := createOrGetRow_effect (Scoped.allowed primary c.gmailAccountId)
      SendColumns.clientSendId SendColumns.serverSendId new s.sends
    refine ⟨hallowed, ?_⟩
    generalize createOrGetRow _ _ _ new s.sends = result at h hstore heffect ⊢
    cases heffect with
    | refused | missing => cases h
    | found r hmem hkey =>
      simp only [sendCreated] at h
      split at h
      · cases h
      rename_i hhash
      cases h
      rw [← hnew] at hkey
      refine ⟨⟨hstore, row, hmem, hkey, rfl, rfl⟩, ?_⟩
      by_contra hboth
      exact hhash (not_or.1 hboth)
    | inserted =>
      cases h
      subst hnew
      exact ⟨⟨hstore, _, List.mem_append_right _ (List.mem_singleton_self _), rfl, rfl, rfl⟩,
        Or.inr rfl⟩
  · simp [runCall, ReplyCall.createCall, guarded, hwork] at h

theorem createCall_again {requestHash serverSendId : String} (hwork : c.workAllowed = true)
    (hallowed : c.Allowed primary) (hkept : Kept c.key serverSendId requestHash s) :
    ∃ row ∈ s.sends.rows, RecordOf c.key serverSendId requestHash row ∧
      runCall primary digest s (c.createCall message) =
        (s, if requestHash ≠ "" ∧ requestHash ≠ digest message then .idempotencyConflict
          else .send (some row)) := by
  obtain ⟨row, hmem, hrecord⟩ := hkept.row
  refine ⟨row, hmem, hrecord, ?_⟩
  have howner : Scoped.allowed primary c.gmailAccountId row = true := by
    have hkey := hrecord.key
    simp only [Scoped.key, ReplyCall.key, Prod.mk.injEq] at hkey
    unfold Scoped.allowed
    rw [hkey.1, hkey.2.1]
    exact hallowed
  have hfound : createOrGetRow (Scoped.allowed primary c.gmailAccountId) SendColumns.clientSendId
      SendColumns.serverSendId ⟨c.userId, c.gmailAccountId, newSend (digest message) c.serverSendId
        c.request.clientSendId message c.request.createdAt c.now⟩ s.sends = (s.sends, .found row) :=
    createOrGetRow_of_mem hkept.store.sendClient hallowed hmem howner hrecord.key
  simp only [runCall, ReplyCall.createCall, guarded, hwork, if_true, hfound, sendCreated,
    hrecord.requestHash]

/-! ## Replays -/

theorem queueDelivery_eq_accepted {result : AccountResult} {queued : Bool}
    (h : queueDelivery result = .accepted row queued) : result = .send (some row) := by
  cases result with
  | send found =>
    cases found with
    | none => cases h
    | some r =>
      cases h
      rfl
  | _ => cases h

variable {lib : ReplyLibrary}

theorem sendReply_accepted {queued : Bool}
    (h : (sendReply lib primary digest s c).2 = .accepted row queued) :
    ∃ message, c.message lib = some (.ok message) ∧
      (message.content.toJson.isEmpty && c.request.forwards) = false ∧
      (sendReply lib primary digest s c).1 = callStep primary digest s (c.createCall message) ∧
      (runCall primary digest s (c.createCall message)).2 = .send (some row) := by
  unfold sendReply at h ⊢
  split at h
  · cases h
  split at h
  · cases h
  cases hmessage : c.message lib with
  | none => simp [hmessage] at h
  | some made =>
    cases made with
    | error e => simp [hmessage] at h
    | ok message =>
      simp only [hmessage] at h
      split at h
      · cases h
      rename_i hready hgranted hto
      refine ⟨message, rfl, by simpa using hto, ?_, ?_⟩
      · simp only [if_neg hready, if_neg hgranted, if_neg hto]
        rfl
      · exact queueDelivery_eq_accepted h

/-- A call that works hands its message to `create_or_get_send`. -/
theorem sendReply_of_message (hworks : c.Works) (hmessage : c.message lib = some (.ok message))
    (hto : (message.content.toJson.isEmpty && c.request.forwards) = false) :
    (sendReply lib primary digest s c).2 =
      queueDelivery (runCall primary digest s (c.createCall message)).2 := by
  unfold sendReply
  simp [hworks.ready, hworks.granted, hmessage, hto]

theorem returns_iff {later : AccountStore} {c' : ReplyCall}
    (hmessage : c.message lib = some (.ok message))
    (hto : (message.content.toJson.isEmpty && c.request.forwards) = false)
    (hallowed : c.Allowed primary) (hkept : Kept c.key serverSendId requestHash later)
    (hhash : requestHash = "" ∨ requestHash = digest message) (hagain : c.Repeats c')
    (hworks : c'.Works)
    (hdistinct : ∀ m', c'.message lib = some (.ok m') → digest m' = digest message → m' = message) :
    Returns (sendReply lib primary digest later c').2 later c' serverSendId ↔
      SameSource lib c c' ∨ requestHash = "" ∧ c'.Answers lib := by
  have hkey : c'.key = c.key := by
    simp only [ReplyCall.key, hagain.userId, hagain.gmailAccountId, hagain.request]
  have hallowed' : c'.Allowed primary := by
    unfold ReplyCall.Allowed
    rw [hagain.userId, hagain.gmailAccountId]
    exact hallowed
  rw [← hkey] at hkept
  constructor
  · rintro ⟨row', queued', haccepted, -⟩
    obtain ⟨message', hmessage', -, -, hcreated'⟩ := sendReply_accepted haccepted
    obtain ⟨r, -, -, hrun⟩ := createCall_again hworks.workAllowed hallowed' hkept
    rw [hrun] at hcreated'
    split at hcreated'
    · cases hcreated'
    rename_i hfits
    by_cases hempty : requestHash = ""
    · exact Or.inr ⟨hempty, answers_of_message hmessage'⟩
    left
    have hfirstHash : requestHash = digest message := hhash.resolve_left hempty
    have hsecondHash : requestHash = digest message' := by
      by_contra hne
      exact hfits ⟨hempty, hne⟩
    apply (message_eq_iff hagain hmessage hmessage').1
    exact hdistinct message' hmessage' (hsecondHash.symm.trans hfirstHash)
  · intro hcond
    have hanswers : c'.Answers lib := by
      rcases hcond with hsame | ⟨-, hanswers⟩
      · exact answers_of_sameSource hagain hmessage hsame
      · exact hanswers
    obtain ⟨message', hmessage'⟩ := message_again hagain hmessage hanswers
    obtain ⟨r, hmem, hrecord, hrun⟩ := createCall_again hworks.workAllowed hallowed' hkept
    have hfits : ¬ (requestHash ≠ "" ∧ requestHash ≠ digest message') := by
      rintro ⟨hne, hdiffers⟩
      rcases hcond with hsame | ⟨hempty, -⟩
      · rw [(message_eq_iff hagain hmessage hmessage').2 hsame] at hdiffers
        exact hdiffers (hhash.resolve_left hne)
      · exact hne hempty
    refine ⟨r, r.columns.state ≠ .sent, ?_, hmem, hrecord.key, hrecord.serverSendId⟩
    rw [sendReply_of_message hworks hmessage'
      ((recipientless_again hagain hmessage hmessage').trans hto), hrun, if_neg hfits]
    rfl

end Calls

/-- **When a reply that is sent again returns its record.** The tables are any whose unique
columns are unique, and any calls come in between. No two of the messages that the two calls
make have one hash. -/
theorem reply_replay_iff (lib : ReplyLibrary) (primary : String → Option String)
    (digest : SendRequest → String) {s : AccountStore} (hs : StoreOk s) {c c' : ReplyCall}
    (between : List ScopedCall) {row : Scoped SendColumns} {queued : Bool}
    (hfirst : (sendReply lib primary digest s c).2 = .accepted row queued)
    (hagain : c.Repeats c') (hworks : c'.Works)
    (hdistinct : ∀ m m', c.message lib = some (.ok m) → c'.message lib = some (.ok m') →
      digest m' = digest m → m' = m) :
    Returns
        (sendReply lib primary digest
          (after (callStep primary digest) (sendReply lib primary digest s c).1 between) c').2
        (after (callStep primary digest) (sendReply lib primary digest s c).1 between) c'
        row.columns.serverSendId ↔
      SameSource lib c c' ∨ row.columns.requestHash = "" ∧ c'.Answers lib := by
  obtain ⟨message, hmessage, hto, hstore, hcreated⟩ := sendReply_accepted hfirst
  obtain ⟨hallowed, hkept, hhash⟩ := createCall_accepts hs hcreated
  rw [← hstore] at hkept
  have hlater : Kept c.key row.columns.serverSendId row.columns.requestHash
      (after (callStep primary digest) (sendReply lib primary digest s c).1 between) :=
    after_of_step kept_step hkept between
  exact returns_iff hmessage hto hallowed hlater hhash hagain hworks fun m' => hdistinct _ m' hmessage

/-! ## A reply to a named message -/

def Relabeled (m m' : ThreadMessage) : Prop :=
  m' = { m with labelIds := m'.labelIds, updatedAt := m'.updatedAt, snippet := m'.snippet }

theorem sameReply_of_relabeled (h : Relabeled m m')
    (hquoted : request.includeQuotedOriginal = false ∨ truthy m.textBody = true ∨
      m'.snippet = m.snippet) : SameReply lib request email m m' := by
  rw [Relabeled] at h
  generalize m'.labelIds = labelIds, m'.updatedAt = updatedAt, m'.snippet = snippet at h hquoted
  subst h
  refine ⟨fun _ _ _ _ => rfl, rfl, rfl, ?_⟩
  rcases hquoted with hoff | htext | hsnippet
  · simp [MailReplyRequest.quotes, hoff]
  · simp [MailReplyRequest.quotes, ThreadMessage.context, orValue, htext]
  · rw [hsnippet]
    rfl

theorem source_of_named {c : ReplyCall} (hthread : c.thread = some records)
    (hnamed : c.request.sourceMessageId = some m.messageId) (hid : m.messageId ≠ "")
    (hunique : (records.map ThreadMessage.messageId).Nodup) (hmem : m ∈ records) :
    c.source = some m := by
  have hperm : (sortRecords records).Perm records := List.perm_insertionSort _ records
  have hsorted : m ∈ sortRecords records := hperm.mem_iff.2 hmem
  have hfind : (sortRecords records).find? (fun r => some r.messageId == some m.messageId) =
      some m := by
    have hat := rowAt_of_mem ThreadMessage.messageId
      ((hperm.map ThreadMessage.messageId).nodup_iff.2 hunique) hsorted
    simpa [rowAt, ← beq_iff_eq] using hat
  have htruthy : truthy (some m.messageId) = true := by simp [truthy, hid]
  unfold ReplyCall.source MailReplyRequest.sourceOf
  rw [hthread, Option.bind_some]
  cases hlast : (sortRecords records).getLast? with
  | none =>
    rw [List.getLast?_eq_none_iff.1 hlast] at hsorted
    cases hsorted
  | some =>
    simp only [hnamed, htruthy, if_true, hfind]
    rfl

/-! ## Two threads -/

def replyLibrary : ReplyLibrary := { Recipients.Library.simple with b64decode := fun _ => none }

def annMessage : ThreadMessage where
  messageId := "m1"
  labelIds := ["INBOX", "UNREAD"]
  internalDate := some "2026-09-01T09:00:00Z"
  updatedAt := "2026-09-01T09:01:00Z"
  subject := some "Lunch"
  sender := some "Ann <ann@y.org>"
  «to» := some "me@z.org"
  cc := none
  headers := [("message-id", "<m1@y.org>")]
  snippet := some "Lunch?"
  textBody := some "Lunch?"
  htmlBodySanitized := none

def bobMessage : ThreadMessage where
  messageId := "m2"
  labelIds := ["INBOX"]
  internalDate := some "2026-09-01T10:00:00Z"
  updatedAt := "2026-09-01T10:01:00Z"
  subject := some "Re: Lunch"
  sender := some "Bob <bob@x.org>"
  «to» := some "ann@y.org, me@z.org"
  cc := none
  headers := [("message-id", "<m2@x.org>")]
  snippet := some "Me too"
  textBody := some "Me too"
  htmlBodySanitized := none

def yesRequest (sourceMessageId : Option String) : MailReplyRequest where
  clientSendId := "send-1"
  sourceMessageId := sourceMessageId
  mode := .reply
  «to» := []
  cc := []
  bcc := []
  toSet := false
  ccSet := false
  subject := none
  bodyText := "Yes"
  bodyHtml := none
  attachments := []
  includeQuotedOriginal := false
  createdAt := "2026-09-01T09:30:00Z"

def yesCall (sourceMessageId : Option String) (thread : List ThreadMessage) (now : Nat)
    (serverSendId : String) : ReplyCall where
  userId := "u"
  gmailAccountId := "u"
  mailboxThreadId := "t1"
  request := yesRequest sourceMessageId
  ready := true
  granted := true
  email := some "me@z.org"
  thread := some thread
  workAllowed := true
  now := now
  serverSendId := serverSendId

/-- The message that the request makes of a message from `sender`. -/
def yesMessage (sender messageId : String) : SendRequest where
  sendType := "reply"
  mailboxThreadId := some "gmail-account:u:t1"
  gmailThreadId := some "t1"
  content := ⟨[sender], [], [], "Re: Lunch", "Yes", none,
    [("In-Reply-To", messageId), ("References", messageId)], []⟩

def yesDigest (request : SendRequest) : String :=
  if request = yesMessage "Ann <ann@y.org>" "<m1@y.org>" then
    "6bac3e1aab4a45db10b6580d479ef3232a660a73ac70b699a9061126e06e1dda"
  else "abed0b411c4bb1b0a75a8de901b329c58d812a5bd4e3e972ba4e62c49c93dce2"

def yesRow : Scoped SendColumns :=
  ⟨"u", "u", newSend (yesDigest (yesMessage "Ann <ann@y.org>" "<m1@y.org>")) "s1" "send-1"
    (yesMessage "Ann <ann@y.org>" "<m1@y.org>") "2026-09-01T09:30:00Z" 1⟩

theorem yes_message (sourceMessageId : Option String)
    (hnamed : sourceMessageId = none ∨ sourceMessageId = some "m1") :
    (yesCall sourceMessageId [annMessage] 1 "s1").message replyLibrary =
      some (.ok (yesMessage "Ann <ann@y.org>" "<m1@y.org>")) := by
  rcases hnamed with rfl | rfl
  · decide +kernel
  · decide +kernel

theorem yes_accepted (sourceMessageId : Option String)
    (hnamed : sourceMessageId = none ∨ sourceMessageId = some "m1") :
    (sendReply replyLibrary some yesDigest .initial
      (yesCall sourceMessageId [annMessage] 1 "s1")).2 = .accepted yesRow true := by
  rw [sendReply_of_message ⟨rfl, rfl, rfl⟩ (yes_message sourceMessageId hnamed) rfl]
  rfl

/-- The same request without a name, after Bob has written: it answers Bob now, and is taken
for another one. -/
theorem new_mail_conflicts :
    (yesCall none [annMessage] 1 "s1").Repeats (yesCall none [annMessage, bobMessage] 2 "s2") ∧
    (yesCall none [annMessage, bobMessage] 2 "s2").Works ∧
    (sendReply replyLibrary some yesDigest .initial (yesCall none [annMessage] 1 "s1")).2 =
      .accepted yesRow true ∧
    (sendReply replyLibrary some yesDigest
      (sendReply replyLibrary some yesDigest .initial (yesCall none [annMessage] 1 "s1")).1
      (yesCall none [annMessage, bobMessage] 2 "s2")).2 = .raised .idempotencyConflict := by
  have haccepted := yes_accepted none (Or.inl rfl)
  have hbob : (yesCall none [annMessage, bobMessage] 2 "s2").message replyLibrary =
      some (.ok (yesMessage "Bob <bob@x.org>" "<m2@x.org>")) := by decide +kernel
  obtain ⟨message, -, -, hstore, hcreated⟩ := sendReply_accepted haccepted
  obtain ⟨hallowed, hkept, -⟩ := createCall_accepts storeOk_initial hcreated
  refine ⟨⟨rfl, rfl, rfl, rfl, rfl⟩, ⟨rfl, rfl, rfl⟩, haccepted, ?_⟩
  rw [sendReply_of_message ⟨rfl, rfl, rfl⟩ hbob rfl, hstore]
  obtain ⟨r, -, -, hrun⟩ :=
    createCall_again (c := yesCall none [annMessage, bobMessage] 2 "s2") rfl hallowed hkept
  rw [hrun, if_pos (by decide +kernel)]
  rfl

def annRead : ThreadMessage :=
  { annMessage with
    labelIds := ["INBOX"]
    updatedAt := "2026-09-01T10:02:00Z"
    snippet := some "Lunch? …" }

/-- A request that names Ann's message finds its record, also when the message has been read,
Bob has written and the reply has been sent. -/
theorem named_reply_returns :
    Returns
      (sendReply replyLibrary some yesDigest
        (after (callStep some yesDigest)
          (sendReply replyLibrary some yesDigest .initial
            (yesCall (some "m1") [annMessage] 1 "s1")).1
          [⟨.httpRoute, "u", "u", true, 2, .updateSend "s1" .sent none (some "g1") (some "t1")⟩])
        (yesCall (some "m1") [annRead, bobMessage] 3 "s2")).2
      (after (callStep some yesDigest)
        (sendReply replyLibrary some yesDigest .initial (yesCall (some "m1") [annMessage] 1 "s1")).1
        [⟨.httpRoute, "u", "u", true, 2, .updateSend "s1" .sent none (some "g1") (some "t1")⟩])
      (yesCall (some "m1") [annRead, bobMessage] 3 "s2") "s1" := by
  have hagain : (yesCall (some "m1") [annRead, bobMessage] 3 "s2").message replyLibrary =
      some (.ok (yesMessage "Ann <ann@y.org>" "<m1@y.org>")) := by decide +kernel
  have hrepeats : (yesCall (some "m1") [annMessage] 1 "s1").Repeats
      (yesCall (some "m1") [annRead, bobMessage] 3 "s2") := ⟨rfl, rfl, rfl, rfl, rfl⟩
  refine (reply_replay_iff replyLibrary some yesDigest storeOk_initial _
    (yes_accepted (some "m1") (Or.inr rfl)) hrepeats ⟨rfl, rfl, rfl⟩ ?_).2 ?_
  · intro m m' hm hm' _
    rw [yes_message (some "m1") (Or.inr rfl)] at hm
    rw [hagain] at hm'
    cases hm
    cases hm'
    rfl
  · refine Or.inl ⟨annMessage, annRead, ?_, ?_, ?_⟩
    · exact source_of_named rfl rfl (by decide) (by decide) List.mem_cons_self
    · exact source_of_named rfl rfl (by decide) (by decide) List.mem_cons_self
    · exact sameReply_of_relabeled rfl (Or.inl rfl)

end ElectronicMail.Accounts
