import ElectronicMail.Accounts.ActionDelivery
import ElectronicMail.Accounts.DraftCalls
import ElectronicMail.Foundations.RowPolicy
import ElectronicMail.Foundations.Versions

/-!
# The account-scoped tables

The statements of `account_mail.py` over the sends, actions and drafts of all accounts,
under the row-level policy of the tables. Every write sets the account scope of its
transaction (`guard_user_mail_write`); the reads have the scope that their caller has
set, and a route sets none.

Each table carries the log of the row versions that its writes stored, which no
statement reads.
-/

namespace ElectronicMail.Accounts

open Foundations
open Foundations.Versions
open Foundations.RowPolicy
open Sends (SendState SendContent PendingSend)
open Actions (ActionState)
open Drafts (ClientDraft DraftState)

/-! ## Rows -/

structure Scoped (α : Type) where
  userId : String
  gmailAccountId : String
  columns : α
  deriving DecidableEq

def Scoped.key {α κ : Type} (column : α → κ) (row : Scoped α) : String × String × κ :=
  (row.userId, row.gmailAccountId, column row.columns)

/-- A row of `gmail_pending_sends`, without its owner. -/
structure SendColumns extends PendingSend where
  serverSendId : String
  clientSendId : String
  sendType : String
  mailboxThreadId : Option String
  requestHash : String
  createdAt : String
  queuedAt : Nat
  sentAt : Option Nat
  updatedAt : Nat
  deriving DecidableEq

/-- A row of `gmail_pending_thread_actions`, without its owner. -/
structure ActionColumns extends AccountAction where
  serverActionId : String
  clientActionId : String
  createdAt : String
  queuedAt : Nat
  appliedAt : Option Nat
  updatedAt : Nat

/-- A row of `gmail_client_drafts`, without its owner. -/
structure DraftColumns extends ClientDraft where
  createdAt : String
  savedAt : Option Nat
  updatedAt : Nat

structure AccountStore where
  sends : Versioned (Scoped SendColumns)
  actions : Versioned (Scoped ActionColumns)
  drafts : Versioned (Scoped DraftColumns)

def AccountStore.initial : AccountStore := ⟨.empty, .empty, .empty⟩

/-! ## The account scope -/

/-- A value of the context variable that `gmail_account_scope` has set. -/
structure ActiveAccount where
  id : String
  ne : id ≠ ""

/-- Where a call comes from. The account-scoped routes leave the context variable as it
is, unset; a worker sets it to the account of its job. -/
inductive Caller where
  | httpRoute
  | worker (account : ActiveAccount)

/-- `_set_account_scope`: the setting at the begin of a transaction. -/
def Caller.setting : Caller → String
  | .httpRoute => ""
  | .worker account => account.id

/-- `COALESCE(NULLIF(setting, ''), primary_gmail_account_id)`. -/
def accountScope (primary : Option String) (setting : String) : Option String :=
  if setting = "" then primary else some setting

/-- The policy of the tables, `USING` and `WITH CHECK`. -/
def allowsAccount (primary : String → Option String) (setting userId gmailAccountId : String) :
    Bool :=
  accountScope (primary userId) setting = some gmailAccountId

def Scoped.allowed {α : Type} (primary : String → Option String) (setting : String)
    (row : Scoped α) : Bool :=
  allowsAccount primary setting row.userId row.gmailAccountId

/-! ## Statements -/

/-- What `INSERT … ON CONFLICT DO NOTHING` and the `SELECT` after it give. -/
inductive Created (α : Type) where
  | refused
  | missing
  | found (row : Scoped α)
  | inserted (row : Scoped α)

section Statements

variable {α : Type} (allows : Scoped α → Bool)

/-- An insert that gives way to a row with the same account and client id, which is then
read. The primary key is the server id. -/
def createOrGetRow (clientId serverId : α → String) (row : Scoped α)
    (t : Versioned (Scoped α)) : Versioned (Scoped α) × Created α :=
  if !allows row then (t, .refused)
  else if t.rows.any fun r =>
      decide (r.gmailAccountId = row.gmailAccountId ∧ clientId r.columns = clientId row.columns)
  then
    match (select allows (fun r => r.key clientId = row.key clientId) t.rows).head? with
    | none => (t, .missing)
    | some r => (t, .found r)
  else if t.rows.any fun r => decide (serverId r.columns = serverId row.columns) then
    (t, .refused)
  else (t.insert row, .inserted row)

/-- An update of the row with a key. The new row has the owner of the old one, so the
`WITH CHECK` of the policy holds where its `USING` does. -/
def updateRow (column : α → String) (key : String × String × String) (f : α → α)
    (t : Versioned (Scoped α)) : Versioned (Scoped α) × Option (Scoped α) :=
  let p := fun r : Scoped α => allows r && decide (r.key column = key)
  let g := fun r : Scoped α => { r with columns := f r.columns }
  (t.update p g, (t.rows.find? p).map g)

end Statements

def gmailDraftTaken (rows : List (Scoped DraftColumns)) (row : Scoped DraftColumns) : Bool :=
  rows.any fun r =>
    decide (r.gmailAccountId = row.gmailAccountId ∧
      r.columns.clientDraftId ≠ row.columns.clientDraftId ∧
      r.columns.gmailDraftId.isSome ∧ r.columns.gmailDraftId = row.columns.gmailDraftId)

/-- `INSERT … ON CONFLICT (gmail_account_id, client_draft_id) DO UPDATE` of the row
`new`; `f` makes the new version of a row that is there. -/
def upsertRow (allows : Scoped DraftColumns → Bool) (new : Scoped DraftColumns)
    (f : DraftColumns → DraftColumns) (t : Versioned (Scoped DraftColumns)) :
    Versioned (Scoped DraftColumns) × Option (Scoped DraftColumns) :=
  let same := fun r : Scoped DraftColumns =>
    decide (r.gmailAccountId = new.gmailAccountId ∧
      r.columns.clientDraftId = new.columns.clientDraftId)
  let g := fun r : Scoped DraftColumns => { r with columns := f r.columns }
  if !allows new then (t, none)
  else
    match t.rows.find? same with
    | none => if gmailDraftTaken t.rows new then (t, none) else (t.insert new, some new)
    | some r =>
      if !allows r || gmailDraftTaken t.rows (g r) then (t, none)
      else (t.update same g, some (g r))

/-! ## Calls -/

structure SendRequest where
  sendType : String
  mailboxThreadId : Option String
  gmailThreadId : Option String
  content : SendContent
  deriving DecidableEq

/-- The functions of `account_mail.py` with their arguments. The server ids are those
that `uuid4` makes up. -/
inductive AccountCall where
  | createOrGetSend (serverSendId clientSendId : String) (request : SendRequest)
      (createdAt : String)
  | updateSend (serverSendId : String) (state : SendState)
      (error gmailMessageId gmailThreadId : Option String)
  | getSend (serverSendId : String)
  | listSends (limit : Int)
  | createOrGetAction (serverActionId clientActionId : String) (request : AccountActionRequest)
      (createdAt : String)
  | updateAction (serverActionId : String) (state : ActionState) (error : Option String)
  | getAction (serverActionId : String)
  | upsertDraft (clientDraftId : String) (gmailDraftId gmailMessageId gmailThreadId : Option String)
      (contentHash createdAt : String)
  | updateDraftState (clientDraftId : String) (state : DraftState)
      (clientSendId gmailMessageId gmailThreadId : Option String)
  | getDraft (clientDraftId gmailDraftId : Option String)

/-- A call for an account. `workAllowed` is the answer of the queries of
`guard_user_mail_write`, and `now` the time of the transaction. -/
structure ScopedCall where
  caller : Caller
  userId : String
  gmailAccountId : String
  workAllowed : Bool
  now : Nat
  call : AccountCall

inductive AccountResult where
  | send (row : Option (Scoped SendColumns))
  | sends (rows : List (Scoped SendColumns))
  | action (row : Option (Scoped ActionColumns))
  | draft (row : Option (Scoped DraftColumns))
  | idempotencyConflict
  | notPersisted
  | databaseError
  | workBlocked

/-- `create_or_get_send` on what the statements gave. -/
def sendCreated (requestHash : String) : Created SendColumns → AccountResult
  | .refused => .databaseError
  | .missing => .notPersisted
  | .found row =>
    if row.columns.requestHash ≠ "" ∧ row.columns.requestHash ≠ requestHash then
      .idempotencyConflict
    else .send (some row)
  | .inserted row => .send (some row)

/-- `create_or_get_action` on what the statements gave. -/
def actionCreated (request : AccountActionRequest) : Created ActionColumns → AccountResult
  | .refused => .databaseError
  | .missing => .notPersisted
  | .found row =>
    if row.columns.mailboxThreadId ≠ request.mailboxThreadId ∨
        row.columns.targetMessageId ≠ request.targetMessageId ∨
        row.columns.action ≠ request.action then
      .idempotencyConflict
    else .action (some row)
  | .inserted row => .action (some row)

/-- The row `create_or_get_send` inserts. -/
def newSend (requestHash serverSendId clientSendId : String) (request : SendRequest)
    (createdAt : String) (now : Nat) : SendColumns where
  toPendingSend := .new request.gmailThreadId request.content
  serverSendId := serverSendId
  clientSendId := clientSendId
  sendType := request.sendType
  mailboxThreadId := request.mailboxThreadId
  requestHash := requestHash
  createdAt := createdAt
  queuedAt := now
  sentAt := none
  updatedAt := now

/-- The `SET` of `update_send`. -/
def setSend (state : SendState) (error gmailMessageId gmailThreadId : Option String) (now : Nat)
    (row : SendColumns) : SendColumns :=
  { row with
    toPendingSend := updateSend state error gmailMessageId gmailThreadId row.toPendingSend
    sentAt := if state = .sent then some now else row.sentAt
    updatedAt := now }

/-- The row `create_or_get_action` inserts. -/
def newAction (serverActionId clientActionId : String) (request : AccountActionRequest)
    (createdAt : String) (now : Nat) : ActionColumns where
  toAccountAction := createOrGetAction none request
  serverActionId := serverActionId
  clientActionId := clientActionId
  createdAt := createdAt
  queuedAt := now
  appliedAt := none
  updatedAt := now

/-- The `SET` of `update_action`. -/
def setAction (state : ActionState) (error : Option String) (now : Nat) (row : ActionColumns) :
    ActionColumns :=
  { row with
    toAccountAction := updateAction state error row.toAccountAction
    appliedAt := if state = .applied then some now else row.appliedAt
    updatedAt := now }

/-- The row `upsert_draft` inserts. -/
def newDraft (clientDraftId : String) (gmailDraftId gmailMessageId gmailThreadId : Option String)
    (contentHash createdAt : String) (now : Nat) : DraftColumns where
  toClientDraft := upsertDraft clientDraftId gmailDraftId gmailMessageId gmailThreadId contentHash
    none
  createdAt := createdAt
  savedAt := some now
  updatedAt := now

/-- The `DO UPDATE SET` of `upsert_draft`. -/
def setDraft (clientDraftId : String) (gmailDraftId gmailMessageId gmailThreadId : Option String)
    (contentHash : String) (now : Nat) (row : DraftColumns) : DraftColumns :=
  { row with
    toClientDraft := upsertDraft clientDraftId gmailDraftId gmailMessageId gmailThreadId
      contentHash (some row.toClientDraft)
    savedAt := some now
    updatedAt := now }

/-- The `SET` of `update_draft_state`. -/
def setDraftState (state : DraftState) (clientSendId gmailMessageId gmailThreadId : Option String)
    (now : Nat) (row : DraftColumns) : DraftColumns :=
  { row with
    toClientDraft := updateDraftState state clientSendId gmailMessageId gmailThreadId
      row.toClientDraft
    updatedAt := now }

/-- `state IN ('queued', 'sending', 'failed')`. -/
def isListed (state : SendState) : Bool :=
  match state with
  | .queued => true
  | .sending => true
  | .failed => true
  | .sent => false

/-- `max(1, min(limit, 200))`. -/
def sendLimit (limit : Int) : Nat := (max 1 (min limit 200)).toNat

/-- `AND {column}=:value` of `get_draft`; `none` when it returns without a query. -/
def draftColumn (clientDraftId gmailDraftId : Option String) : Option (DraftColumns → Bool) :=
  if Text.truthy clientDraftId then some fun row => some row.clientDraftId = clientDraftId
  else if Text.truthy gmailDraftId then some fun row => row.gmailDraftId = gmailDraftId
  else none

section Step

variable (primary : String → Option String) (digest : SendRequest → String)

def guarded (c : ScopedCall) (s : AccountStore) (write : AccountStore × AccountResult) :
    AccountStore × AccountResult :=
  if c.workAllowed then write else (s, .workBlocked)

/-- A call: the tables after it and what it gives. The transaction of a write has the
account of the call as its scope, the one of a read what the caller has set. -/
def runCall (s : AccountStore) (c : ScopedCall) : AccountStore × AccountResult :=
  let writes {α : Type} : Scoped α → Bool := Scoped.allowed primary c.gmailAccountId
  let reads {α : Type} : Scoped α → Bool := Scoped.allowed primary c.caller.setting
  let owner {α : Type} (columns : α) : Scoped α := ⟨c.userId, c.gmailAccountId, columns⟩
  match c.call with
  | .createOrGetSend serverSendId clientSendId request createdAt =>
    let created := createOrGetRow writes SendColumns.clientSendId SendColumns.serverSendId
      (owner (newSend (digest request) serverSendId clientSendId request createdAt c.now)) s.sends
    guarded c s ({ s with sends := created.1 }, sendCreated (digest request) created.2)
  | .updateSend serverSendId state error gmailMessageId gmailThreadId =>
    let updated := updateRow writes SendColumns.serverSendId
      (c.userId, c.gmailAccountId, serverSendId)
      (setSend state error gmailMessageId gmailThreadId c.now) s.sends
    guarded c s ({ s with sends := updated.1 }, .send updated.2)
  | .getSend serverSendId =>
    (s, .send (select reads (fun r => r.key SendColumns.serverSendId =
      (c.userId, c.gmailAccountId, serverSendId)) s.sends.rows).head?)
  | .listSends limit =>
    (s, .sends (newestFirst (fun r => r.columns.updatedAt) (sendLimit limit)
      (select reads (fun r => decide (r.userId = c.userId ∧ r.gmailAccountId = c.gmailAccountId) &&
        isListed r.columns.state) s.sends.rows)))
  | .createOrGetAction serverActionId clientActionId request createdAt =>
    let created := createOrGetRow writes ActionColumns.clientActionId
      ActionColumns.serverActionId
      (owner (newAction serverActionId clientActionId request createdAt c.now)) s.actions
    guarded c s ({ s with actions := created.1 }, actionCreated request created.2)
  | .updateAction serverActionId state error =>
    let updated := updateRow writes ActionColumns.serverActionId
      (c.userId, c.gmailAccountId, serverActionId) (setAction state error c.now) s.actions
    guarded c s ({ s with actions := updated.1 }, .action updated.2)
  | .getAction serverActionId =>
    (s, .action (select reads (fun r => r.key ActionColumns.serverActionId =
      (c.userId, c.gmailAccountId, serverActionId)) s.actions.rows).head?)
  | .upsertDraft clientDraftId gmailDraftId gmailMessageId gmailThreadId contentHash createdAt =>
    let upserted := upsertRow writes
      (owner (newDraft clientDraftId gmailDraftId gmailMessageId gmailThreadId contentHash
        createdAt c.now))
      (setDraft clientDraftId gmailDraftId gmailMessageId gmailThreadId contentHash c.now)
      s.drafts
    guarded c s ({ s with drafts := upserted.1 },
      upserted.2.elim .databaseError fun row => .draft (some row))
  | .updateDraftState clientDraftId state clientSendId gmailMessageId gmailThreadId =>
    let updated := updateRow writes (fun row : DraftColumns => row.clientDraftId)
      (c.userId, c.gmailAccountId, clientDraftId)
      (setDraftState state clientSendId gmailMessageId gmailThreadId c.now) s.drafts
    guarded c s ({ s with drafts := updated.1 }, .draft updated.2)
  | .getDraft clientDraftId gmailDraftId =>
    (s, .draft ((draftColumn clientDraftId gmailDraftId).bind fun asked =>
      (select reads (fun r => decide (r.userId = c.userId ∧ r.gmailAccountId = c.gmailAccountId) &&
        asked r.columns) s.drafts.rows).head?))

def callStep (s : AccountStore) (c : ScopedCall) : AccountStore := (runCall primary digest s c).1

end Step

end ElectronicMail.Accounts
