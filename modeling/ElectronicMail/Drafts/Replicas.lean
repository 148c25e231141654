import ElectronicMail.Drafts.LockScopes
import ElectronicMail.Drafts.Steps

/-!
# Replicas on one table

Any number of operations of any number of replicas run on one table. A label opens an
operation, takes or gives back one lock, runs one step between two points, or crashes an
operation, which gives back all its locks; a label that is not enabled changes nothing, so
that every list of labels is an interleaving.

Besides the table, the locks and the operations, `DraftSystem` keeps the calls of
`create_gmail_draft` and of `send_gmail_draft`, the latest first, each with the answer of
Gmail once there is one.
-/

namespace ElectronicMail.Drafts

open Google

/-! ## Locks -/

inductive DraftKey where
  | gmailDraft (gmailDraftId : String)
  | clientDraft (clientDraftId : String)
  deriving DecidableEq

/-- The keys of `_ClientDraftLockHandle.acquire`, in its order. -/
def DraftHandle.keys (handle : DraftHandle) : List DraftKey :=
  (handle.gmailDraftId.map DraftKey.gmailDraft).toList ++ [.clientDraft handle.clientDraftId]

def DraftKey.lockKey (userId : String) : DraftKey → LockKey
  | .gmailDraft gmailDraftId => .gmailDraft userId gmailDraftId
  | .clientDraft clientDraftId => .clientDraft userId clientDraftId

theorem DraftHandle.keys_lockKey (handle : DraftHandle) (userId : String) :
    handle.keys.map (DraftKey.lockKey userId) =
      (draftLocks userId handle.clientDraftId handle.gmailDraftId).map (fun hold => hold.key) := by
  obtain ⟨client, gmail⟩ := handle
  cases gmail <;> rfl

theorem DraftHandle.keys_nodup (handle : DraftHandle) : handle.keys.Nodup := by
  obtain ⟨client, gmail⟩ := handle
  cases gmail with
  | none => exact List.nodup_singleton _
  | some g => simp [DraftHandle.keys]

theorem DraftHandle.apart_of_keys {handle other : DraftHandle}
    (h : ∀ key ∈ handle.keys, key ∉ other.keys) : handle.Apart other where
  client := by
    intro heq
    refine h (.clientDraft handle.clientDraftId) ?_ ?_ <;> simp [DraftHandle.keys, heq]
  gmail := by
    intro g hg hg'
    refine h (.gmailDraft g) ?_ ?_ <;> simp [DraftHandle.keys, hg, hg']

/-! ## Calls of Gmail -/

/-- A call that must not be made twice, with its answer once there is one. -/
structure CallRecord where
  exec : Nat
  clientDraftId : String
  clientSendId : Option String
  answer : Option Answer

def CallRecord.failed (definite : ServiceError → Bool) (call : CallRecord) : Bool :=
  match call.answer with
  | some (.raised exc) => definite exc
  | _ => false

/-- The call of `exec` is on its way. -/
def CallRecord.isOpen (exec : Nat) (call : CallRecord) : Prop :=
  call.exec = exec ∧ call.answer = none

instance (exec : Nat) (call : CallRecord) : Decidable (call.isOpen exec) :=
  inferInstanceAs (Decidable (call.exec = exec ∧ call.answer = none))

/-- Gmail answers the call of `exec` that is on its way. -/
def answered (exec : Nat) (answer : Answer) (calls : List CallRecord) : List CallRecord :=
  calls.map fun call => if call.isOpen exec then { call with answer := some answer } else call

/-- The calls of `create_gmail_draft` after a step at a point. -/
def createsAfter (exec : Nat) (point : Point) (answer : Answer) (creates : List CallRecord) :
    List CallRecord :=
  match point with
  | .saveCalling work =>
    if work.gmailDraftId = none then ⟨exec, work.request.clientDraftId, none, none⟩ :: creates
    else creates
  | .saveAwaiting work => if work.gmailDraftId = none then answered exec answer creates else creates
  | _ => creates

/-- The calls of `send_gmail_draft` after a step at a point. -/
def sendsAfter (exec : Nat) (point : Point) (answer : Answer) (sends : List CallRecord) :
    List CallRecord :=
  match point with
  | .sendCalling sending clientSendId =>
    ⟨exec, sending.clientDraftId, some clientSendId, none⟩ :: sends
  | .sendAwaiting _ _ => answered exec answer sends
  | _ => sends

/-! ## The system -/

inductive DraftPhase where
  | idle
  /-- A get looks for the draft of a thread. -/
  | resolving (mailboxThreadId : String)
  /-- The locks are taken one after the other. -/
  | acquiring (handle : DraftHandle) (taken rest : List DraftKey) (point : Point)
  | working (handle : DraftHandle) (point : Point)
  /-- The locks are given back one after the other, and others are taken if an adoption
  goes on. -/
  | releasing (left : List DraftKey) (next : Option (DraftHandle × Point))
  | finished

def DraftPhase.keys : DraftPhase → List DraftKey
  | .acquiring _ taken _ _ => taken
  | .working handle _ => handle.keys
  | .releasing left _ => left
  | _ => []

structure DraftSystem where
  table : DraftTable
  owner : DraftKey → Option Nat
  phase : Nat → DraftPhase
  creates : List CallRecord
  sends : List CallRecord

def DraftSystem.initial : DraftSystem :=
  ⟨DraftTable.empty, fun _ => none, fun _ => .idle, [], []⟩

inductive DraftLabel where
  /-- A call comes in; `allowed` is the answer of `_can_manage_drafts`. -/
  | start (exec : Nat) (call : DraftCall) (allowed : Bool)
  | acquire (exec : Nat)
  | step (exec : Nat) (answer : Answer)
  | release (exec : Nat)
  /-- The replica dies, or an exception leaves the operation. -/
  | crash (exec : Nat)

/-- Operation `i` goes on in `phase`. -/
def DraftSystem.goto (s : DraftSystem) (i : Nat) (phase : DraftPhase) : DraftSystem :=
  { s with phase := Function.update s.phase i phase }

def Opening.phase : Opening → DraftPhase
  | .resolving mailboxThreadId => .resolving mailboxThreadId
  | .locking handle point => .acquiring handle [] handle.keys point
  | .finish _ => .finished

def Next.phase (handle : DraftHandle) : Next → DraftPhase
  | .goto point => .working handle point
  | .adopt g point =>
    if handle.gmailDraftId = some g then .working handle point
    else .releasing handle.keys.reverse (some (⟨handle.clientDraftId, some g⟩, point))
  | .finish _ => .releasing handle.keys.reverse none

def acquiredPhase (handle : DraftHandle) (taken rest : List DraftKey) (point : Point) :
    DraftPhase :=
  match rest with
  | [] => .working handle point
  | _ :: _ => .acquiring handle taken rest point

def releasedPhase (left : List DraftKey) (next : Option (DraftHandle × Point)) : DraftPhase :=
  match left, next with
  | _ :: _, _ => .releasing left next
  | [], some (handle, point) => .acquiring handle [] handle.keys point
  | [], none => .finished

def draftSystemStep (codec : DraftCodec) (s : DraftSystem) : DraftLabel → DraftSystem
  | .start i call allowed =>
    match s.phase i with
    | .idle =>
      s.goto i (if allowed then (openCall codec s.table call).phase
        else (Opening.finish (refusedCall call)).phase)
    | _ => s
  | .acquire i =>
    match s.phase i with
    | .acquiring handle taken (key :: rest) point =>
      -- The session waits while another one has the lock.
      if s.owner key = none then
        { s.goto i (acquiredPhase handle (taken ++ [key]) rest point) with
          owner := Function.update s.owner key (some i) }
      else s
    | _ => s
  | .step i answer =>
    match s.phase i with
    | .resolving mailboxThreadId =>
      match resolveGet mailboxThreadId answer with
      | none => s
      | some opening => s.goto i opening.phase
    | .working handle point =>
      match draftStep codec handle s.table point answer with
      | none => s
      | some (table, next) =>
        { s.goto i (next.phase handle) with
          table := table
          creates := createsAfter i point answer s.creates
          sends := sendsAfter i point answer s.sends }
    | _ => s
  | .release i =>
    match s.phase i with
    | .releasing (key :: left) next =>
      { s.goto i (releasedPhase left next) with owner := Function.update s.owner key none }
    | _ => s
  | .crash i =>
    { s.goto i .finished with
      owner := fun key => if s.owner key = some i then none else s.owner key }

/-! ## Labels on their drafts -/

def CallOnDraft (opened : String → Prop) : DraftCall → Prop
  | .save request =>
    ∀ g, given request.gmailDraftId = some g → OnDraft opened request.clientDraftId g
  | _ => True

/-- The drafts that a label names: a save its own one, a get one of the opened ones, and
Gmail answers a save with a draft of its client. -/
def LabelOnDraft (opened : String → Prop) (s : DraftSystem) : DraftLabel → Prop
  | .start _ call _ => CallOnDraft opened call
  | .step i answer =>
    match s.phase i with
    | .resolving mailboxThreadId =>
      ∀ found, answer = .found found →
        opened ((given found).getD mailboxThreadId) ∧ (given found).getD mailboxThreadId ≠ ""
    | .working _ point => AnswersOnDraft opened point answer
    | _ => True
  | _ => True

@[simp] theorem draftGoto_table (s : DraftSystem) (i : Nat) (phase : DraftPhase) :
    (s.goto i phase).table = s.table := rfl

@[simp] theorem draftGoto_phase_self (s : DraftSystem) (i : Nat) (phase : DraftPhase) :
    (s.goto i phase).phase i = phase := by
  show Function.update s.phase i phase i = phase
  exact Function.update_self i phase s.phase

theorem draftGoto_phase_of_ne (s : DraftSystem) {i j : Nat} (phase : DraftPhase) (h : j ≠ i) :
    (s.goto i phase).phase j = s.phase j := by
  show Function.update s.phase i phase j = s.phase j
  exact Function.update_of_ne h phase s.phase

end ElectronicMail.Drafts
