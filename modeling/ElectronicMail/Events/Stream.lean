import ElectronicMail.Events.Log
import ElectronicMail.Foundations.Run

/-!
# A stream of mailbox events

A stream reads the log once a second from the last id it has read, and hands the records to its
client one after another. A client that comes back names the last id it has received; without
one the stream starts immediately before the latest event, and says so in a first frame.
-/

namespace ElectronicMail.Events

open Foundations

def streamLimit : Nat := 100

/-- An open stream. The records of a read are handed over one by one before the next read, so
that `last_event_id` is the id of the last record by then: `lastEventId` stands for that value.
`inTransit` are the records that the client has not received yet, and `handshake` is the id of
the first frame while it has not. -/
structure Connection where
  lastEventId : Nat
  handshake : Option Nat
  inTransit : List MailboxEventRecord

/-- The log, a stream and its client. `owed` collects the events of the stream: those beyond its
start position, and those that commit after its start. -/
structure EventSystem where
  log : EventLog
  connection : Option Connection
  lastMailboxEventID : Option Nat
  received : List MailboxEventRecord
  owed : List MailboxEventRecord

def EventSystem.initial : EventSystem := ⟨.empty, none, none, [], []⟩

inductive EventStep where
  /-- a transaction inserts an event -/
  | insert (event : MailboxEventInsert)
  /-- the transaction of the event commits -/
  | commit (id : Nat)
  /-- the transaction of the event is rolled back -/
  | rollback (id : Nat)
  /-- the client opens the stream -/
  | connect
  /-- the stream reads the log -/
  | poll
  /-- the client receives the next frame -/
  | receive
  /-- the connection is lost -/
  | disconnect

/-- `max(baseline.id - 1, 0) if baseline is not None else 0`. -/
def startPosition (baseline : Option MailboxEventRecord) : Nat :=
  (baseline.map fun record => record.id - 1).getD 0

section Streaming

variable (accounts : Accounts) (scope : StreamScope)

def eventsAfter (id : Nat) (rows : List MailboxEventRecord) : List MailboxEventRecord :=
  Keyset.beyond MailboxEventRecord.id (some id) (rows.filter (scope.finds accounts))

/-- A stream without a `Last-Event-ID`. -/
def EventSystem.startFresh (s : EventSystem) : EventSystem :=
  let start := startPosition (latestMailboxEvent accounts scope s.log.rows)
  { s with
    connection := some ⟨start, some start, []⟩
    owed := eventsAfter accounts scope start s.log.rows }

def EventSystem.connect (s : EventSystem) : EventSystem :=
  match s.connection, s.lastMailboxEventID with
  | some _, _ => s
  | none, some lastEventId => { s with connection := some ⟨lastEventId, none, []⟩ }
  | none, none => s.startFresh accounts scope

def EventSystem.poll (s : EventSystem) : EventSystem :=
  match s.connection with
  | none => s
  | some connection =>
    let records := listMailboxEventsAfter accounts scope (some connection.lastEventId)
      streamLimit s.log.rows
    { s with
      connection := some
        { connection with
          lastEventId :=
            Keyset.nextBound MailboxEventRecord.id connection.lastEventId records
          inTransit := connection.inTransit ++ records } }

def EventSystem.receive (s : EventSystem) : EventSystem :=
  match s.connection with
  | none => s
  | some ⟨_, none, []⟩ => s
  | some ⟨lastEventId, some id, inTransit⟩ =>
    { s with
      connection := some ⟨lastEventId, none, inTransit⟩
      lastMailboxEventID := some id }
  | some ⟨lastEventId, none, record :: inTransit⟩ =>
    { s with
      connection := some ⟨lastEventId, none, inTransit⟩
      lastMailboxEventID := some record.id
      received := s.received ++ [record] }

def EventSystem.commit (id : Nat) (s : EventSystem) : EventSystem :=
  { s with
    log := s.log.commit id
    owed := s.owed ++ s.log.pending.filter fun row => row.id = id && scope.finds accounts row }

def EventSystem.step (s : EventSystem) : EventStep → EventSystem
  | .insert event => { s with log := s.log.insert accounts event }
  | .commit id => s.commit accounts scope id
  | .rollback id => { s with log := s.log.rollback id }
  | .connect => s.connect accounts scope
  | .poll => s.poll accounts scope
  | .receive => s.receive
  | .disconnect => { s with connection := none }

/-- The last id that the stream has read, or that it would start from. -/
def EventSystem.horizon (s : EventSystem) : Option Nat :=
  match s.connection with
  | some connection => some connection.lastEventId
  | none => s.lastMailboxEventID

/-- A commit in time: the stream has not read beyond the events that become visible. -/
def CommitsInTime (s : EventSystem) : EventStep → Prop
  | .commit id => ∀ row ∈ s.log.pending, row.id = id → scope.finds accounts row = true →
      ∀ read ∈ s.horizon, read < row.id
  | _ => True

instance decidableCommitsInTime (s : EventSystem) (l : EventStep) :
    Decidable (CommitsInTime accounts scope s l) := by
  cases l <;> unfold CommitsInTime <;> infer_instance

/-! ## Delivery -/

/-- The stream is opened, reads as often as `reads` and hands over as many frames as `frames`,
while nothing else happens. -/
def quiet (reads frames : Nat) : List EventStep :=
  .connect :: (List.replicate reads .poll ++ List.replicate frames .receive)

/-- Left alone for long enough, the client has each event of the stream exactly once, in the
order of the ids. -/
def DeliversAll (s : EventSystem) : Prop :=
  ∀ reads frames, s.log.rows.length ≤ streamLimit * reads → s.log.rows.length < frames →
    let final := after (EventSystem.step accounts scope) s (quiet reads frames)
    final.received.Pairwise (fun a b => a.id < b.id) ∧
      ∀ record, record ∈ final.received ↔ record ∈ final.owed

end Streaming

end ElectronicMail.Events
