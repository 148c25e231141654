import ElectronicMail.Reader.Thread

/-!
# Writers of the cached thread

One thread of one user. The server answers each request with a page of the state the thread is
in then. Three parts of the app put answers into the local store: the client, which writes an
answer that is a whole thread and the threads of a batch; the coordinator of the offline
content, which reads pages of 100 and wants the same revision on every page; and the store,
which reads pages of 50 and gives what it has gathered the revision of the last page.
-/

namespace ElectronicMail.Reader

/-! ## The server -/

/-- The states of a thread on the server: a revision, and the messages of it in reading order.
The id of a message is a key. -/
structure ServerThread where
  messagesAt : String → List ThreadMessage
  nodup : ∀ revision, ((messagesAt revision).map ThreadMessage.id).Nodup

structure PageHead where
  entityId : String
  userId : String
  source : Option String
  gmailThreadId : Option String
  subject : Option String
  title : Option String
  summary : Option String

/-- `build_group_detail_response`: a page of the thread at a revision. -/
def ServerThread.page (server : ServerThread) (head : PageHead) (revision : String)
    (limit offset : Nat) : ThreadReaderResponse :=
  let messages := ((server.messagesAt revision).drop offset).take limit
  { entityId := head.entityId
    userId := head.userId
    source := head.source
    gmailThreadId := head.gmailThreadId
    subject := head.subject
    title := head.title
    summary := head.summary
    totalMessages := (server.messagesAt revision).length
    limit := limit
    offset := offset
    hasMore := decide (offset + messages.length < (server.messagesAt revision).length)
    messages := messages
    contentRevision := some revision }

/-! ## The pages of `performThreadPrefetch` -/

def threadFetchLimit : Nat := 50

/-- The variables of the request of `performThreadPrefetch` once the first page is there;
`stopped` is set where the loop breaks because a page was empty. -/
structure Gathered where
  firstPage : ThreadReaderResponse
  messages : List ThreadMessage
  source : Option String
  gmailThreadId : Option String
  subject : Option String
  title : Option String
  contentRevision : Option String
  totalMessages : Nat
  limit : Nat
  hasMore : Bool
  nextOffset : Nat
  pageCount : Nat
  stopped : Bool

def Gathered.start (firstPage : ThreadReaderResponse) : Gathered where
  firstPage := firstPage
  messages := firstPage.messages
  source := firstPage.source
  gmailThreadId := firstPage.gmailThreadId
  subject := firstPage.subject
  title := firstPage.title
  contentRevision := firstPage.contentRevision
  totalMessages := max firstPage.totalMessages firstPage.messages.length
  limit := firstPage.limit
  hasMore := firstPage.hasMore
  nextOffset := firstPage.offset + firstPage.messages.length
  pageCount := 0
  stopped := false

def Gathered.wantsPage (g : Gathered) : Bool :=
  !g.stopped && g.hasMore && decide (g.pageCount < 200) &&
    (decide (g.firstPage.offset < g.nextOffset) || decide (0 < g.pageCount))

/-- The body of the loop. `seenMessageIDs` are the ids of the messages gathered. -/
def Gathered.merging (g : Gathered) (page : ThreadReaderResponse) : Gathered :=
  let messages :=
    g.messages ++ newlyObserved (g.messages.map ThreadMessage.id) page.messages
  let followingOffset := g.nextOffset + page.messages.length
  let stopped := page.hasMore && !decide (g.nextOffset < followingOffset)
  { firstPage := g.firstPage
    messages := messages
    source := g.source <|> page.source
    gmailThreadId := g.gmailThreadId <|> page.gmailThreadId
    subject := g.subject <|> page.subject
    title := g.title <|> page.title
    contentRevision := page.contentRevision <|> g.contentRevision
    totalMessages := max (max g.totalMessages page.totalMessages) messages.length
    limit := max g.limit page.limit
    hasMore := page.hasMore
    nextOffset := if stopped then g.nextOffset else followingOffset
    pageCount := g.pageCount + 1
    stopped := stopped }

def Gathered.result (g : Gathered) : ThreadReaderResponse :=
  if g.pageCount = 0 then g.firstPage
  else
    { entityId := g.firstPage.entityId
      userId := g.firstPage.userId
      source := g.source
      gmailThreadId := g.gmailThreadId
      subject := g.subject
      title := g.title
      summary := none
      totalMessages := g.totalMessages
      limit := g.limit
      offset := 0
      hasMore := g.hasMore
      messages := g.messages
      contentRevision := g.contentRevision }

/-! ## The pages of `fetchCompletePaginatedThread` -/

def paginatedThreadPageSize : Nat := 100

def maximumPaginatedThreadPages : Nat := 10000

inductive PaginatedSnapshotError where
  | identityChanged
  | revisionChanged
  | repeatedPage
  | incomplete
  deriving DecidableEq

/-- The variables of `fetchCompletePaginatedThread` once the first page is there. -/
structure PaginatedSnapshot where
  snapshot : ThreadReaderResponse
  expectedEntityId : String
  expectedGmailThreadId : Option String
  expectedSource : Option String
  expectedRevision : Option String
  expectedTotalMessages : Nat
  offset : Nat
  deriving DecidableEq

def PaginatedSnapshot.start (page : ThreadReaderResponse) : PaginatedSnapshot where
  snapshot := page
  expectedEntityId := page.entityId
  expectedGmailThreadId := page.gmailThreadId
  expectedSource := page.source
  expectedRevision := page.contentRevision
  expectedTotalMessages := page.totalMessages
  offset := 0

/-- A page after the first. `seenMessageIDs` are the ids of the messages of the snapshot. -/
def PaginatedSnapshot.appending (s : PaginatedSnapshot) (page : ThreadReaderResponse) :
    Except PaginatedSnapshotError PaginatedSnapshot :=
  if page.entityId ≠ s.expectedEntityId ∨ page.gmailThreadId ≠ s.expectedGmailThreadId ∨
      page.source ≠ s.expectedSource ∨ page.totalMessages ≠ s.expectedTotalMessages then
    .error .identityChanged
  else if page.contentRevision ≠ s.expectedRevision then .error .revisionChanged
  else if page.hasMore ∧
      newlyObserved (s.snapshot.messages.map ThreadMessage.id) page.messages = [] then
    .error .repeatedPage
  else .ok { s with snapshot := s.snapshot.appendingPage page }

inductive PaginatedOutcome where
  | another (s : PaginatedSnapshot)
  | complete (thread : ThreadReaderResponse)
  deriving DecidableEq

def PaginatedSnapshot.concluding (s : PaginatedSnapshot) (page : ThreadReaderResponse) :
    Except PaginatedSnapshotError PaginatedOutcome :=
  if page.hasMore then
    if page.messages = [] then .error .repeatedPage
    else .ok (.another { s with offset := s.offset + page.messages.length })
  else if s.snapshot.messages.length = page.totalMessages ∧
      (s.snapshot.messages.all ThreadMessage.bodyComplete) then
    .ok (.complete s.snapshot)
  else .error .incomplete

def paginatedOffset : Option PaginatedSnapshot → Nat
  | none => 0
  | some s => s.offset

/-- The body of the loop of `fetchCompletePaginatedThread`. -/
def receivePaginated (threadId expectedUserId : String) (snapshot : Option PaginatedSnapshot)
    (page : ThreadReaderResponse) : Except PaginatedSnapshotError PaginatedOutcome :=
  if page.gmailThreadId.getD page.entityId ≠ threadId ∨ page.userId ≠ expectedUserId ∨
      page.offset ≠ paginatedOffset snapshot ∨
      paginatedThreadPageSize < page.messages.length then
    .error .identityChanged
  else
    match snapshot with
    | none => (PaginatedSnapshot.start page).concluding page
    | some s =>
      match s.appending page with
      | .error e => .error e
      | .ok next => next.concluding page

/-! ## The device -/

/-- Where a request is: `performThreadPrefetch` with what it has gathered; a call of the
client's `thread` by anyone else; a batch of the client or of the coordinator; the coordinator's
pages with the number of pages it may still ask for; a thread that has been fetched or read, for
everyone in the store who waits for it; a thread on its way to the local store. -/
inductive Stage where
  | prefetch (gathered : Option Gathered)
  | single (limit offset : Nat)
  | batch
  | paginated (snapshot : Option PaginatedSnapshot) (pagesLeft : Nat)
  | fetched (thread : ThreadReaderResponse)
  | writing (thread : ThreadReaderResponse)

/-- A request that is under way, with the answer that has not arrived yet. -/
structure Request where
  stage : Stage
  answer : Option ThreadReaderResponse

/-- The state the thread is in on the server, the copies the app keeps, and the requests that
are under way. `edited` lists the labels that the reader has edited, with their messages. -/
structure Device where
  userId : String
  threadId : String
  revision : String
  edited : List (String × String)
  stored : Option ThreadReaderResponse
  memory : Option ThreadReaderResponse
  opened : Option ThreadReaderResponse
  requests : List Request

def Device.launch (userId threadId revision : String) : Device where
  userId := userId
  threadId := threadId
  revision := revision
  edited := []
  stored := none
  memory := none
  opened := none
  requests := []

/-- What the client knows when an answer arrives: whether there is an expected user, and
`canPersistCurrentMailboxCache`. -/
structure Gates where
  knowsUser : Bool
  canPersist : Bool

/-- One call of `settingMessageLabel`. -/
structure LabelEdit where
  labelId : String
  presenceByMessageId : List (String × Bool)

def ThreadReaderResponse.editing (thread : ThreadReaderResponse) (edits : List LabelEdit) :
    ThreadReaderResponse :=
  edits.foldl (fun t e => t.settingMessageLabel e.labelId e.presenceByMessageId) thread

def LabelEdit.touched (edit : LabelEdit) : List (String × String) :=
  edit.presenceByMessageId.map fun entry => (entry.1, edit.labelId)

def Device.setRequest (d : Device) (i : Nat) (request : Request) : Device :=
  { d with requests := d.requests.set i request }

def Device.dropRequest (d : Device) (i : Nat) : Device :=
  { d with requests := d.requests.eraseIdx i }

def Device.store (d : Device) (thread : ThreadReaderResponse) : Device :=
  { d with stored := some thread }

/-- What the client's `thread` does with an answer; it throws on an answer of another user. -/
def Device.throughClient (d : Device) (gates : Gates) (response : ThreadReaderResponse) :
    Option Device :=
  if gates.knowsUser then
    if response.userId ≠ d.userId then none
    else if gates.canPersist ∧ response.offset = 0 ∧ response.hasMore = false then
      some (d.store response)
    else some d
  else some d

/-- What `performThreadPrefetch` makes of a page. -/
def gathering (gathered : Option Gathered) (page : ThreadReaderResponse) : Gathered :=
  match gathered with
  | none => Gathered.start page
  | some g => g.merging page

/-- The request of `performThreadPrefetch` goes on: the next page, or its value. -/
def Gathered.nextStage (g : Gathered) : Stage :=
  if g.wantsPage then .prefetch (some g) else .fetched g.result

/-- A page arrives at `performThreadPrefetch`, through the client. -/
def Device.receivePrefetch (d : Device) (i : Nat) (gates : Gates) (gathered : Option Gathered)
    (page : ThreadReaderResponse) : Device :=
  match d.throughClient gates page with
  | none => d.dropRequest i
  | some next =>
    if page.userId ≠ d.userId then next.dropRequest i
    else next.setRequest i ⟨(gathering gathered page).nextStage, none⟩

/-- An answer arrives at another caller of the client's `thread`. -/
def Device.receiveSingle (d : Device) (i : Nat) (gates : Gates)
    (response : ThreadReaderResponse) : Device :=
  match d.throughClient gates response with
  | none => d.dropRequest i
  | some next => next.dropRequest i

/-- The thread of a batch arrives, at the client or at the coordinator. -/
def Device.receiveBatch (d : Device) (i : Nat) (gates : Gates)
    (thread : ThreadReaderResponse) : Device :=
  if gates.knowsUser ∧ thread.userId = d.userId ∧
      thread.gmailThreadId.getD thread.entityId = d.threadId then
    (d.store thread).dropRequest i
  else d.dropRequest i

def Device.receivePaginated (d : Device) (i : Nat) (snapshot : Option PaginatedSnapshot)
    (pagesLeft : Nat) (page : ThreadReaderResponse) : Device :=
  match Reader.receivePaginated d.threadId d.userId snapshot page with
  | .error _ => d.dropRequest i
  | .ok (.complete thread) => d.setRequest i ⟨.writing thread, none⟩
  | .ok (.another s) =>
    if pagesLeft ≤ 1 then d.dropRequest i
    else d.setRequest i ⟨.paginated (some s) (pagesLeft - 1), none⟩

def requestedPage : Stage → Option (Nat × Nat)
  | .prefetch none => some (threadFetchLimit, 0)
  | .prefetch (some g) => some (threadFetchLimit, g.nextOffset)
  | .single limit offset => some (limit, offset)
  | .paginated snapshot _ => some (paginatedThreadPageSize, paginatedOffset snapshot)
  | .batch => none
  | .fetched _ => none
  | .writing _ => none

/-- The answer of the server to a request. A batch has complete threads only. -/
def ServerThread.answer (server : ServerThread) (head : PageHead) (revision : String)
    (stage : Stage) : Option ThreadReaderResponse :=
  match stage with
  | .batch => some (server.page head revision (server.messagesAt revision).length 0)
  | stage => (requestedPage stage).map fun page => server.page head revision page.1 page.2

inductive Start where
  | prefetch
  | single (limit offset : Nat)
  | batch
  | paginated

def Start.stage : Start → Stage
  | .prefetch => .prefetch none
  | .single limit offset => .single limit offset
  | .batch => .batch
  | .paginated => .paginated none maximumPaginatedThreadPages

/-- The test of `enqueueRows` and of `observe(hydratedThreads:)` on a cached copy: it is
complete, and its revision is the one the server has announced. -/
def keepsCopy (cached : Option ThreadReaderResponse) (contentRevision : Option String) : Bool :=
  let cachedIsComplete :=
    match cached with
    | none => false
    | some thread => thread.messages.all ThreadMessage.bodyComplete && !thread.hasMore
  let sameRevision :=
    contentRevision.isNone || cached.bind ThreadReaderResponse.contentRevision == contentRevision
  cachedIsComplete && sameRevision

/-- What happens: the thread changes on the server, a request is started, the server answers it,
its answer arrives, it fails; the store reads a cached copy, shows a thread that it has fetched
or read, or sends the opened one to be written; a write is carried out; the reader edits labels;
a copy goes. -/
inductive Event where
  | change (revision : String)
  | start (request : Start)
  | answer (i : Nat) (head : PageHead)
  | arrive (i : Nat) (gates : Gates)
  | fail (i : Nat)
  | readCached (fromMemory : Bool)
  | install (i : Nat) (edits : List LabelEdit)
  | persist
  | write (i : Nat)
  | edit (edit : LabelEdit)
  | removeStored
  | evict
  | close

/-- A thread is shown, its labels edited by `preservingReaderLabelMutations` or by the reader. -/
def Device.show (d : Device) (thread : ThreadReaderResponse) (edits : List LabelEdit) : Device :=
  { d with
    opened := some (thread.editing edits)
    memory := some (thread.editing edits)
    edited := edits.flatMap LabelEdit.touched ++ d.edited }

def Device.addRequest (d : Device) (stage : Stage) : Device :=
  { d with requests := d.requests ++ [⟨stage, none⟩] }

def Device.step (server : ServerThread) (d : Device) : Event → Device
  | .change revision => { d with revision := revision }
  | .start request => d.addRequest request.stage
  | .answer i head =>
    match d.requests[i]? with
    | some ⟨stage, none⟩ => d.setRequest i ⟨stage, server.answer head d.revision stage⟩
    | _ => d
  | .arrive i gates =>
    match d.requests[i]? with
    | some ⟨.prefetch gathered, some page⟩ => d.receivePrefetch i gates gathered page
    | some ⟨.single _ _, some response⟩ => d.receiveSingle i gates response
    | some ⟨.batch, some thread⟩ => d.receiveBatch i gates thread
    | some ⟨.paginated snapshot pagesLeft, some page⟩ =>
      d.receivePaginated i snapshot pagesLeft page
    | _ => d
  | .fail i => d.dropRequest i
  | .readCached fromMemory =>
    match if fromMemory then d.memory else d.stored with
    | some thread => d.addRequest (.fetched thread)
    | none => d
  | .install i edits =>
    match d.requests[i]? with
    | some ⟨.fetched thread, _⟩ =>
      (d.show thread edits).addRequest (.writing (thread.editing edits))
    | _ => d
  | .persist =>
    match d.opened with
    | some thread => d.addRequest (.writing thread)
    | none => d
  | .write i =>
    match d.requests[i]? with
    | some ⟨.writing thread, _⟩ => (d.store thread).dropRequest i
    | _ => d
  | .edit edit =>
    match d.opened with
    | some thread => d.show thread [edit]
    | none => d
  | .removeStored => { d with stored := none }
  | .evict => { d with memory := none }
  | .close => { d with opened := none }

end ElectronicMail.Reader
