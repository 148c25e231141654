import ElectronicMail.Actions.Labels
import ElectronicMail.Foundations.Dictionary
import ElectronicMail.Reader.Thread

/-!
# Optimistic labels of the reader

One thread in the reader. Star, unstar, mark read and mark unread change the labels that are
shown before they are sent. An action that finds its messages owns their label until it settles
or a later action takes it over; one that finds none leaves an override for the threads to come.
A fetch that was under way while labels changed keeps the ones that are shown.
-/

namespace ElectronicMail.Reader

open Foundations
open Actions (ThreadAction)

/-! ## Actions -/

/-- The labels that `readerLabelChange` knows. -/
inductive ReaderLabel where
  | unread
  | starred
  deriving DecidableEq

def ReaderLabel.id : ReaderLabel → String
  | .unread => "UNREAD"
  | .starred => "STARRED"

def readerLabelChange : ThreadAction → Option (ReaderLabel × Bool)
  | .markRead => some (.unread, false)
  | .markUnread => some (.unread, true)
  | .star => some (.starred, true)
  | .unstar => some (.starred, false)
  | .archive => none
  | .unarchive => none
  | .moveTrash => none
  | .restoreTrash => none
  | .markSpam => none
  | .notSpam => none
  | .deleteForever => none

/-- `targetMessageID == nil || message.id == targetMessageID`. -/
def targets (targetMessageId : Option String) (messageId : String) : Bool :=
  targetMessageId.isNone || targetMessageId == some messageId

structure ReaderLabelMutation where
  id : Nat
  label : ReaderLabel
  isPresent : Bool
  targetMessageId : Option String
  beganWithoutLoadedThread : Bool
  previousPresenceByMessageId : List (String × Bool)

/-- An entry of `readerLabelIntentOverrides`, under its label and its target. -/
structure ReaderLabelIntentOverride where
  label : ReaderLabel
  targetMessageId : Option String
  ownerId : Nat
  isPresent : Bool
  settled : Bool

/-- `ReaderLabelIntentKey`. -/
def ReaderLabelIntentOverride.key (intent : ReaderLabelIntentOverride) :
    ReaderLabel × Option String :=
  (intent.label, intent.targetMessageId)

/-! ## The state -/

structure ServerSnapshot where
  thread : ThreadReaderResponse
  nodup : (thread.messages.map ThreadMessage.id).Nodup

/-- The request in `inFlightThreads`: the generation at its start, and the answer. `settled`
says that no action was unsettled when it started and none has begun since. -/
structure ThreadFetch where
  labelMutationGeneration : Nat
  answer : Option ServerSnapshot
  settled : Bool

/-- The thread on the server and in the reader. `confirmed` is the answer that the latest fetch
brought, if it was started after every action had settled and none has begun since. -/
structure ReaderState where
  server : ServerSnapshot
  shown : Option ThreadReaderResponse
  owners : String → ReaderLabel → Option Nat
  generation : Nat
  labelGenerations : ReaderLabel → Nat
  overrides : List ReaderLabelIntentOverride
  mutations : List ReaderLabelMutation
  nextMutation : Nat
  inFlight : Option ThreadFetch
  confirmed : Option ServerSnapshot

def ReaderState.initial (server : ServerSnapshot) (shown : Option ThreadReaderResponse) :
    ReaderState where
  server := server
  shown := shown
  owners := fun _ _ => none
  generation := 0
  labelGenerations := fun _ => 0
  overrides := []
  mutations := []
  nextMutation := 0
  inFlight := none
  confirmed := none

def presence (shown : Option ThreadReaderResponse) (messageId : String) (label : ReaderLabel) :
    Option Bool :=
  (shown.bind fun thread => thread.messages.find? fun message => message.id == messageId).map
    fun message => message.hasLabel label.id

def ReaderState.targetMessages (s : ReaderState) (targetMessageId : Option String) :
    List ThreadMessage :=
  match s.shown with
  | none => []
  | some thread => thread.messages.filter fun message => targets targetMessageId message.id

def ReaderState.recordReaderLabelMutationGeneration (s : ReaderState) (label : ReaderLabel) :
    ReaderState :=
  { s with
    generation := s.generation + 1
    labelGenerations := fun l => if l = label then s.generation + 1 else s.labelGenerations l }

/-- `updateCachedReaderThread` of `currentThread.settingMessageLabel(…)`. -/
def ReaderState.settingShown (s : ReaderState) (label : ReaderLabel)
    (presenceByMessageId : List (String × Bool)) : ReaderState :=
  { s with
    shown := s.shown.map fun thread => thread.settingMessageLabel label.id presenceByMessageId }

/-! ## The beginning of an action -/

def overlaps (label : ReaderLabel) (targetMessageId : Option String)
    (intent : ReaderLabelIntentOverride) : Bool :=
  intent.label == label &&
    (intent.targetMessageId.isNone || targetMessageId.isNone ||
      intent.targetMessageId == targetMessageId)

def ReaderState.supersedeReaderLabelIntentOverrides (s : ReaderState) (label : ReaderLabel)
    (targetMessageId : Option String) : ReaderState :=
  { s with overrides := s.overrides.filter fun intent => !overlaps label targetMessageId intent }

def ReaderState.beginWithoutThread (s : ReaderState) (label : ReaderLabel) (isPresent : Bool)
    (targetMessageId : Option String) : ReaderState :=
  { s with
    overrides := Dictionary.put ReaderLabelIntentOverride.key
      { label := label
        targetMessageId := targetMessageId
        ownerId := s.nextMutation
        isPresent := isPresent
        settled := false } s.overrides
    mutations := s.mutations ++
      [{ id := s.nextMutation
         label := label
         isPresent := isPresent
         targetMessageId := targetMessageId
         beganWithoutLoadedThread := true
         previousPresenceByMessageId := [] }]
    nextMutation := s.nextMutation + 1 }

/-- An action that finds messages owns their label and shows its outcome. -/
def ReaderState.beginOnMessages (s : ReaderState) (label : ReaderLabel) (isPresent : Bool)
    (targetMessageId : Option String) (messages : List ThreadMessage) : ReaderState :=
  let previousPresence := messages.map fun message => (message.id, message.hasLabel label.id)
  let owned : ReaderState :=
    { s with
      owners := fun messageId l =>
        if l = label ∧ messageId ∈ previousPresence.map Prod.fst then some s.nextMutation
        else s.owners messageId l
      mutations := s.mutations ++
        [{ id := s.nextMutation
           label := label
           isPresent := isPresent
           targetMessageId := targetMessageId
           beganWithoutLoadedThread := false
           previousPresenceByMessageId := previousPresence }]
      nextMutation := s.nextMutation + 1 }
  owned.settingShown label (previousPresence.map fun entry => (entry.1, isPresent))

def ReaderState.beginReaderLabelMutation (s : ReaderState) (action : ThreadAction)
    (targetMessageId : Option String) : ReaderState :=
  match readerLabelChange action with
  | none => s
  | some (label, isPresent) =>
    let s := (s.recordReaderLabelMutationGeneration label).supersedeReaderLabelIntentOverrides
      label targetMessageId
    match s.targetMessages targetMessageId with
    | [] => s.beginWithoutThread label isPresent targetMessageId
    | messages => s.beginOnMessages label isPresent targetMessageId messages

/-! ## The end of an action -/

def ReaderState.finishWithoutThread (s : ReaderState) (mutation : ReaderLabelMutation)
    (succeeded : Bool) : ReaderState :=
  let key := (mutation.label, mutation.targetMessageId)
  match Table.rowAt ReaderLabelIntentOverride.key s.overrides key with
  | none => s
  | some intent =>
    if intent.ownerId ≠ mutation.id then s
    else if succeeded then
      let settled : ReaderState :=
        { s with
          overrides := Dictionary.put ReaderLabelIntentOverride.key
            { intent with settled := true } s.overrides }
      let confirmedPresence := (s.targetMessages mutation.targetMessageId).map fun message =>
        (message.id, mutation.isPresent)
      (settled.settingShown mutation.label
        confirmedPresence).recordReaderLabelMutationGeneration mutation.label
    else
      let dropped : ReaderState :=
        { s with overrides := Dictionary.drop ReaderLabelIntentOverride.key key s.overrides }
      dropped.recordReaderLabelMutationGeneration mutation.label

def ReaderState.owns (s : ReaderState) (mutation : ReaderLabelMutation) (messageId : String) :
    Bool :=
  s.owners messageId mutation.label == some mutation.id

/-- What the messages that the mutation owns show once it has settled. A failed one takes back
only a presence that is still its own. -/
def ReaderState.settledPresence (s : ReaderState) (mutation : ReaderLabelMutation)
    (succeeded : Bool) : List (String × Bool) :=
  mutation.previousPresenceByMessageId.filterMap fun entry =>
    if s.owns mutation entry.1 then
      if succeeded then some (entry.1, mutation.isPresent)
      else if presence s.shown entry.1 mutation.label = some mutation.isPresent then some entry
      else none
    else none

def ReaderState.finishOnMessages (s : ReaderState) (mutation : ReaderLabelMutation)
    (succeeded : Bool) : ReaderState :=
  let messageIds := mutation.previousPresenceByMessageId.map Prod.fst
  let released : ReaderState :=
    { s with
      owners := fun messageId l =>
        if l = mutation.label ∧ messageId ∈ messageIds ∧ s.owns mutation messageId then none
        else s.owners messageId l }
  let didSettleOwnedMutation :=
    mutation.previousPresenceByMessageId.any fun entry => s.owns mutation entry.1
  let recorded :=
    if didSettleOwnedMutation then released.recordReaderLabelMutationGeneration mutation.label
    else released
  recorded.settingShown mutation.label (s.settledPresence mutation succeeded)

def ReaderState.finishReaderLabelMutation (s : ReaderState) (mutation : ReaderLabelMutation)
    (succeeded : Bool) : ReaderState :=
  if mutation.beganWithoutLoadedThread then s.finishWithoutThread mutation succeeded
  else s.finishOnMessages mutation succeeded

/-- `applyConfirmedReaderLabelChange`, which is called for the actions that have not begun a
mutation. -/
def ReaderState.applyConfirmedReaderLabelChange (s : ReaderState) (action : ThreadAction)
    (targetMessageId : Option String) : ReaderState :=
  match readerLabelChange action with
  | none => s
  | some (label, isPresent) =>
    s.settingShown label <| ((s.targetMessages targetMessageId).filter fun message =>
        (s.owners message.id label).isNone).map fun message => (message.id, isPresent)

/-! ## The end of a fetch -/

/-- The labels that have changed since a generation are shown as they are. -/
def ReaderState.keepingChangedLabels (s : ReaderState) (fetchedThread : ThreadReaderResponse)
    (mutationGenerationAtStart : Nat) : ThreadReaderResponse :=
  if s.generation ≠ mutationGenerationAtStart then
    match s.shown with
    | none => fetchedThread
    | some currentThread =>
      let changedLabelIds := [ReaderLabel.unread, .starred].filter fun label =>
        decide (mutationGenerationAtStart < s.labelGenerations label)
      changedLabelIds.foldl
        (fun thread label => thread.settingMessageLabel label.id
          (currentThread.messages.map fun message => (message.id, message.hasLabel label.id)))
        fetchedThread
  else fetchedThread

/-- The overrides of settled actions. One that the thread agrees with is gone; the others are
kept, and the thread shows those of them that have settled. -/
def overriding : List ReaderLabelIntentOverride → ThreadReaderResponse →
    ThreadReaderResponse × List ReaderLabelIntentOverride
  | [], thread => (thread, [])
  | intent :: intents, thread =>
    let targetMessages := thread.messages.filter fun message =>
      targets intent.targetMessageId message.id
    if !intent.settled || targetMessages.isEmpty then
      let rest := overriding intents thread
      (rest.1, intent :: rest.2)
    else if targetMessages.all fun message =>
        message.hasLabel intent.label.id == intent.isPresent then
      overriding intents thread
    else
      let rest := overriding intents <| thread.settingMessageLabel intent.label.id
        (targetMessages.map fun message => (message.id, intent.isPresent))
      (rest.1, intent :: rest.2)

/-- `preservingReaderLabelMutations` on the answer of a request, which is then shown. -/
def ReaderState.install (s : ReaderState) (request : ThreadFetch) (answer : ServerSnapshot) :
    ReaderState :=
  let reconciled := overriding s.overrides
    (s.keepingChangedLabels answer.thread request.labelMutationGeneration)
  { s with
    shown := some reconciled.1
    overrides := reconciled.2
    inFlight := none
    confirmed := if request.settled then some answer else s.confirmed }

/-! ## Events -/

/-- What happens: the thread changes on the server; an action begins, or is done with or without
success; a request is started, is answered, arrives, or fails. -/
inductive LabelEvent where
  | change (server : ServerSnapshot)
  | begin (action : ThreadAction) (targetMessageId : Option String)
  | finish (mutation : Nat) (succeeded : Bool)
  | confirmOther (action : ThreadAction) (targetMessageId : Option String)
  | fetch (replacing : Bool)
  | answer
  | arrive
  | failFetch

/-- A request joins the one that is in flight, unless it replaces it, in which case the result
of the other is not accepted any more. -/
def ReaderState.startFetch (s : ReaderState) (replacing : Bool) : ReaderState :=
  if s.inFlight.isSome && !replacing then s
  else
    { s with
      inFlight := some
        { labelMutationGeneration := s.generation
          answer := none
          settled := s.mutations.isEmpty } }

def ReaderState.unsettle (s : ReaderState) : ReaderState :=
  { s with
    inFlight := s.inFlight.map fun request => { request with settled := false }
    confirmed := none }

def ReaderState.retire (s : ReaderState) (id : Nat) : ReaderState :=
  { s with mutations := s.mutations.filter fun mutation => !(mutation.id == id) }

/-- The thread of the reader, one event later. Whoever waits for the same request shows the same
thread, right after one another. -/
def ReaderState.step (s : ReaderState) : LabelEvent → ReaderState
  | .change server => { s with server := server }
  | .begin action targetMessageId =>
    if (readerLabelChange action).isSome then
      s.unsettle.beginReaderLabelMutation action targetMessageId
    else s
  | .finish id succeeded =>
    match s.mutations.find? fun mutation => mutation.id == id with
    | none => s
    | some mutation => (s.retire id).finishReaderLabelMutation mutation succeeded
  | .confirmOther action targetMessageId =>
    if (readerLabelChange action).isNone then
      s.applyConfirmedReaderLabelChange action targetMessageId
    else s
  | .fetch replacing => s.startFetch replacing
  | .answer =>
    { s with
      inFlight := s.inFlight.map fun request =>
        { request with answer := request.answer <|> some s.server } }
  | .arrive =>
    match s.inFlight with
    | some request =>
      match request.answer with
      | some answer => s.install request answer
      | none => s
    | none => s
  | .failFetch => { s with inFlight := none }

end ElectronicMail.Reader
