import ElectronicMail.Foundations.Lines

/-!
# Events on the wire

An event is written as a frame of lines that an empty line ends. The client reads the stream
line by line, and its parser hands an event over when it is fed an empty line. The line reader of
the client skips empty lines, so that no event is ever handed over (`survives_iff`).

Characters stand for Unicode scalars. A line ends between two of them, so that the characters
that have arrived are what counts of a byte stream that has been cut anywhere.
-/

namespace ElectronicMail.Events

open Foundations

/-! ## The writer -/

/-- Where `str.splitlines` breaks a text. -/
def isLineBreak (c : Char) : Bool :=
  let n := c.toNat
  (10 ≤ n && n ≤ 13) || (28 ≤ n && n ≤ 30) || n = 0x85 || n = 0x2028 || n = 0x2029

/-- `text.splitlines()`, after `line` of an unfinished line. -/
def splitlinesFrom (line : List Char) : List Char → List (List Char)
  | [] => if line = [] then [] else [line]
  | '\r' :: '\n' :: text => line :: splitlinesFrom [] text
  | c :: text =>
    if isLineBreak c then line :: splitlinesFrom [] text else splitlinesFrom (line ++ [c]) text

/-- The arguments of `format_sse_event`. `data` is the payload as `json.dumps` writes it. -/
structure SseEvent where
  event : List Char
  data : List Char
  eventId : Option (List Char)

/-- `payload.splitlines() or [""]`. -/
def dataLines (data : List Char) : List (List Char) :=
  if splitlinesFrom [] data = [] then [[]] else splitlinesFrom [] data

def frameLines (e : SseEvent) : List (List Char) :=
  (e.eventId.toList.map fun id => "id: ".toList ++ id) ++ ["event: ".toList ++ e.event] ++
    (dataLines e.data).map fun line => "data: ".toList ++ line

def formatSseEvent (e : SseEvent) : List Char :=
  List.intercalate ['\n'] (frameLines e ++ [[], []])

def streamOf (events : List SseEvent) : List Char := events.flatMap formatSseEvent

/-! ## The parser -/

structure MailboxServerEvent where
  id : Option (List Char)
  event : List Char
  data : List Char
  deriving DecidableEq

structure ServerSentEventParser where
  id : Option (List Char)
  event : Option (List Char)
  dataLines : List (List Char)

def ServerSentEventParser.reset : ServerSentEventParser := ⟨none, none, []⟩

/-- `dispatch()`. -/
def ServerSentEventParser.dispatch (p : ServerSentEventParser) : Option MailboxServerEvent :=
  if p.id.isSome || p.event.isSome || !p.dataLines.isEmpty then
    some ⟨p.id, p.event.getD "message".toList, List.intercalate ['\n'] p.dataLines⟩
  else none

/-- The value of a line after its first colon, without a blank before it. -/
def fieldValue (line : List Char) : List Char :=
  match (line.dropWhile (· ≠ ':')).drop 1 with
  | ' ' :: value => value
  | value => value

def ServerSentEventParser.take (p : ServerSentEventParser) (line : List Char) :
    ServerSentEventParser :=
  if line.head? = some ':' then p
  else
    let field := line.takeWhile (· ≠ ':')
    if field = "id".toList then { p with id := some (fieldValue line) }
    else if field = "event".toList then { p with event := some (fieldValue line) }
    else if field = "data".toList then { p with dataLines := p.dataLines ++ [fieldValue line] }
    else p

/-- `feed(line:)`. -/
def ServerSentEventParser.feed (p : ServerSentEventParser) (line : List Char) :
    ServerSentEventParser × Option MailboxServerEvent :=
  if line = [] then (.reset, p.dispatch) else (p.take line, none)

/-! ## The client -/

def isNewline (c : Char) : Bool :=
  let n := c.toNat
  (10 ≤ n && n ≤ 13) || n = 0x85 || n = 0x2028 || n = 0x2029

/-- The loop of `runMailboxEventStream`: the line that has not been ended yet, the parser, and
the events that `handleMailboxServerEvent` has been called with. -/
structure StreamClient where
  unfinished : List Char
  parser : ServerSentEventParser
  handled : List MailboxServerEvent

def StreamClient.start : StreamClient := ⟨[], .reset, []⟩

def StreamClient.feed (client : StreamClient) (line : List Char) : StreamClient :=
  let fed := client.parser.feed line
  { client with parser := fed.1, handled := client.handled ++ fed.2.toList }

/-- A chunk of the stream arrives at a line reader that skips empty lines, or does not. -/
def StreamClient.receive (skipsEmptyLines : Bool) (client : StreamClient) (chunk : List Char) :
    StreamClient :=
  let lines := Lines.read isNewline client.unfinished chunk
  (lines.1.filter fun line => !(skipsEmptyLines && line.isEmpty)).foldl StreamClient.feed
    { client with unfinished := lines.2 }

/-- `bytes.lines` skips empty lines. -/
def runMailboxEventStream (chunks : List (List Char)) : StreamClient :=
  chunks.foldl (StreamClient.receive true) .start

def SseEvent.asServerEvent (e : SseEvent) : MailboxServerEvent := ⟨e.eventId, e.event, e.data⟩

/-- However the stream is cut into chunks, once the last character of an event has arrived, the
events up to it have been handed over, each of them once and in order. -/
def Survives (run : List (List Char) → StreamClient) (events : List SseEvent) : Prop :=
  ∀ count chunks, chunks.flatten = streamOf (events.take count) →
    (run chunks).handled = (events.take count).map SseEvent.asServerEvent

/-! ## No event is handed over -/

theorem StreamClient.handled_feeds {lines : List (List Char)} (h : ∀ line ∈ lines, line ≠ [])
    (client : StreamClient) :
    (lines.foldl StreamClient.feed client).handled = client.handled := by
  induction lines generalizing client with
  | nil => rfl
  | cons line lines ih =>
    have hline : line ≠ [] := h line List.mem_cons_self
    rw [List.foldl_cons, ih fun other hother => h other (List.mem_cons_of_mem _ hother)]
    simp [StreamClient.feed, ServerSentEventParser.feed, hline]

theorem StreamClient.handled_receive (client : StreamClient) (chunk : List Char) :
    (client.receive true chunk).handled = client.handled := by
  unfold StreamClient.receive
  apply StreamClient.handled_feeds
  intro line hline heq
  obtain rfl := heq
  simp at hline

theorem handled_runMailboxEventStream (chunks : List (List Char)) :
    (runMailboxEventStream chunks).handled = [] := by
  have hrun : ∀ client : StreamClient,
      (chunks.foldl (StreamClient.receive true) client).handled = client.handled := by
    induction chunks with
    | nil => exact fun _ => rfl
    | cons chunk chunks ih =>
      intro client
      rw [List.foldl_cons, ih, StreamClient.handled_receive]
  exact hrun .start

/-- **No event survives.** The client handles the events of a stream as it is to if and only if
there are none. -/
theorem survives_iff (events : List SseEvent) :
    Survives runMailboxEventStream events ↔ events = [] := by
  constructor
  · intro h
    have hall := h events.length [streamOf events] (by simp)
    rw [handled_runMailboxEventStream, List.take_length] at hall
    exact List.map_eq_nil_iff.1 hall.symm
  · rintro rfl count chunks _
    rw [handled_runMailboxEventStream]
    simp

theorem event_not_handled : ¬ ∀ events : List SseEvent, Survives runMailboxEventStream events := by
  intro h
  have hone := h [⟨"mailbox-changed".toList, "\x7b\x7d".toList, some "7".toList⟩] 1
    [formatSseEvent ⟨"mailbox-changed".toList, "\x7b\x7d".toList, some "7".toList⟩]
    (by decide)
  exact absurd hone (by decide)

/-! ## A reader that yields empty lines -/

end ElectronicMail.Events
