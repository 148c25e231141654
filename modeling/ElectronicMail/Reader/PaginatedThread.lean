import ElectronicMail.Reader.RevisionKept

/-!
# A thread in pages

`fetchCompletePaginatedThread` asks for pages until there are no more. Whatever the backend
answers, the thread it returns has the identity and the revision of every page. A backend that
serves one thread gets it through, unless the pages are too many.
-/

namespace ElectronicMail.Reader

/-! ## The loop -/

/-- The answer to a request, by its number and offset; none where the call throws. -/
abbrev ThreadBackend := Nat → Nat → Option ThreadReaderResponse

/-- What the loop has done: the number of its requests, the pages, and the thread or the error,
which is none where the backend threw. -/
structure FetchRun where
  requests : Nat
  pages : List ThreadReaderResponse
  result : Except (Option PaginatedSnapshotError) ThreadReaderResponse

/-- The loop, with the number of pages it may still ask for and those it has. -/
def fetchPages (backend : ThreadBackend) (threadId expectedUserId : String) :
    Nat → Option PaginatedSnapshot → List ThreadReaderResponse → FetchRun
  | 0, _, pages => ⟨pages.length, pages, .error (some .incomplete)⟩
  | pagesLeft + 1, snapshot, pages =>
    match backend pages.length (paginatedOffset snapshot) with
    | none => ⟨pages.length + 1, pages, .error none⟩
    | some page =>
      match receivePaginated threadId expectedUserId snapshot page with
      | .error e => ⟨pages.length + 1, pages ++ [page], .error (some e)⟩
      | .ok (.complete thread) => ⟨pages.length + 1, pages ++ [page], .ok thread⟩
      | .ok (.another s) =>
        fetchPages backend threadId expectedUserId pagesLeft (some s) (pages ++ [page])

def fetchCompletePaginatedThread (backend : ThreadBackend) (threadId expectedUserId : String) :
    FetchRun :=
  fetchPages backend threadId expectedUserId maximumPaginatedThreadPages none []

def ThreadReaderResponse.HasDistinctIds (thread : ThreadReaderResponse) : Prop :=
  (thread.messages.map ThreadMessage.id).Nodup

structure SameThread (first page : ThreadReaderResponse) : Prop where
  entityId : page.entityId = first.entityId
  gmailThreadId : page.gmailThreadId = first.gmailThreadId
  userId : page.userId = first.userId
  source : page.source = first.source
  contentRevision : page.contentRevision = first.contentRevision
  totalMessages : page.totalMessages = first.totalMessages

/-- A snapshot that is complete, and of the thread of its pages. The message ids are distinct if
those of the first page are. -/
structure CompleteSnapshot (pages : List ThreadReaderResponse) (thread : ThreadReaderResponse) :
    Prop where
  all : ∀ page ∈ pages, SameThread thread page
  total : thread.messages.length = thread.totalMessages
  bodies : ∀ m ∈ thread.messages, m.bodyComplete = true
  ids : (∀ first ∈ pages.head?, first.HasDistinctIds) → thread.HasDistinctIds

/-- The backend serves a thread at a revision in pages of at most 100 messages. -/
structure Serves (backend : ThreadBackend) (server : ServerThread) (head : PageHead)
    (revision : String) (size : Nat → Nat → Nat) : Prop where
  pages : ∀ n offset, backend n offset = some (server.page head revision (size n offset) offset)
  sizes : ∀ n offset, 0 < size n offset ∧ size n offset ≤ paginatedThreadPageSize

def servedBy (size : Nat → Nat → Nat) : Nat → Nat
  | 0 => 0
  | n + 1 => servedBy size n + size n (servedBy size n)

/-! ## Pages -/

theorem newlyObserved_spec (seen : List String) (messages : List ThreadMessage) :
    ((newlyObserved seen messages).map ThreadMessage.id).Nodup ∧
      ∀ m ∈ newlyObserved seen messages, m.id ∉ seen := by
  induction messages generalizing seen with
  | nil => exact ⟨List.nodup_nil, fun m hm => nomatch hm⟩
  | cons message messages ih =>
    unfold newlyObserved
    split
    · exact ih seen
    next hnew =>
      obtain ⟨hnodup, hout⟩ := ih (message.id :: seen)
      refine ⟨List.nodup_cons.2 ⟨?_, hnodup⟩, ?_⟩
      · intro hin
        obtain ⟨m, hm, heq⟩ := List.mem_map.1 hin
        exact hout m hm (heq ▸ List.mem_cons_self)
      · intro m hm
        rcases List.mem_cons.1 hm with rfl | hm
        · exact hnew
        · exact fun hseen => hout m hm (List.mem_cons_of_mem _ hseen)

theorem ThreadReaderResponse.HasDistinctIds.appendingPage {thread : ThreadReaderResponse}
    (h : thread.HasDistinctIds) (page : ThreadReaderResponse) :
    (thread.appendingPage page).HasDistinctIds := by
  obtain ⟨hnodup, hout⟩ := newlyObserved_spec (thread.messages.map ThreadMessage.id) page.messages
  show ((thread.messages ++ newlyObserved _ page.messages).map ThreadMessage.id).Nodup
  rw [List.map_append, List.nodup_append]
  refine ⟨h, hnodup, ?_⟩
  rintro a ha b hb rfl
  obtain ⟨m, hm, rfl⟩ := List.mem_map.1 hb
  exact hout m hm ha

/-! ## Any backend -/

section Loop

variable {backend : ThreadBackend} {threadId userId : String} {s : PaginatedSnapshot}
  {page : ThreadReaderResponse} {pages : List ThreadReaderResponse}

structure PagesOk (userId : String) (pages : List ThreadReaderResponse) (s : PaginatedSnapshot) :
    Prop where
  user : s.snapshot.userId = userId
  all : ∀ page ∈ pages, page.entityId = s.expectedEntityId ∧
    page.gmailThreadId = s.expectedGmailThreadId ∧ page.userId = userId ∧
    page.source = s.expectedSource ∧ page.contentRevision = s.expectedRevision ∧
    page.totalMessages = s.expectedTotalMessages
  entity : s.snapshot.entityId = s.expectedEntityId
  gmail : s.snapshot.gmailThreadId = s.expectedGmailThreadId
  source : s.snapshot.source = s.expectedSource
  revision : s.snapshot.contentRevision = s.expectedRevision
  least : s.expectedTotalMessages ≤ s.snapshot.totalMessages
  most : s.snapshot.totalMessages ≤ max s.expectedTotalMessages s.snapshot.messages.length
  ids : (∀ first ∈ pages.head?, first.HasDistinctIds) → s.snapshot.HasDistinctIds

theorem pagesOk_start (page : ThreadReaderResponse) :
    PagesOk page.userId [page] (.start page) where
  user := rfl
  all := fun p hp => by
    obtain rfl := List.mem_singleton.1 hp
    exact ⟨rfl, rfl, rfl, rfl, rfl, rfl⟩
  entity := rfl
  gmail := rfl
  source := rfl
  revision := rfl
  least := Nat.le_refl _
  most := Nat.le_max_left _ _
  ids := fun h => h page rfl

variable {next : PaginatedSnapshot}

theorem appending_cases (h : s.appending page = .ok next) :
    next = { s with snapshot := s.snapshot.appendingPage page } ∧
      page.entityId = s.expectedEntityId ∧ page.gmailThreadId = s.expectedGmailThreadId ∧
      page.source = s.expectedSource ∧ page.totalMessages = s.expectedTotalMessages ∧
      page.contentRevision = s.expectedRevision := by
  unfold PaginatedSnapshot.appending at h
  split at h
  · cases h
  next hidentity =>
    split at h
    · cases h
    next hrevision =>
      split at h
      · cases h
      push Not at hidentity
      obtain ⟨hentity, hgmail, hsource, htotal⟩ := hidentity
      exact ⟨(Except.ok.inj h).symm, hentity, hgmail, hsource, htotal, not_not.1 hrevision⟩

theorem PagesOk.appending (h : PagesOk userId pages s) (hne : pages ≠ [])
    (huser : page.userId = userId) (hnext : s.appending page = .ok next) :
    PagesOk userId (pages ++ [page]) next := by
  obtain ⟨rfl, hentity, hgmail, hsource, htotal, hrevision⟩ := appending_cases hnext
  refine ⟨h.user, ?_, h.entity, ?_, ?_, ?_, ?_, ?_, ?_⟩
  · intro p hp
    rcases List.mem_append.1 hp with hp | hp
    · exact h.all p hp
    · rw [List.mem_singleton.1 hp]
      exact ⟨hentity, hgmail, huser, hsource, hrevision, htotal⟩
  · show (s.snapshot.gmailThreadId <|> page.gmailThreadId) = _
    rw [h.gmail, hgmail]
    cases s.expectedGmailThreadId <;> rfl
  · show (s.snapshot.source <|> page.source) = _
    rw [h.source, hsource]
    cases s.expectedSource <;> rfl
  · show (page.contentRevision <|> s.snapshot.contentRevision) = _
    rw [h.revision, hrevision]
    cases s.expectedRevision <;> rfl
  · exact h.least.trans ((Nat.le_max_left _ _).trans (Nat.le_max_left _ _))
  · have hmost := h.most
    have hlonger : s.snapshot.messages.length ≤
        (s.snapshot.appendingPage page).messages.length := by
      show _ ≤ List.length (_ ++ _)
      rw [List.length_append]
      exact Nat.le_add_right _ _
    show max (max s.snapshot.totalMessages page.totalMessages)
      (s.snapshot.appendingPage page).messages.length ≤
        max s.expectedTotalMessages (s.snapshot.appendingPage page).messages.length
    omega
  · intro hfirst
    rw [List.head?_append_of_ne_nil _ hne] at hfirst
    exact (h.ids hfirst).appendingPage page

variable {outcome : PaginatedOutcome}

theorem PagesOk.concluding (h : PagesOk userId pages s)
    (htotal : page.totalMessages = s.expectedTotalMessages)
    (houtcome : s.concluding page = .ok outcome) : match outcome with
    | .another next => PagesOk userId pages next
    | .complete thread => CompleteSnapshot pages thread := by
  unfold PaginatedSnapshot.concluding at houtcome
  split at houtcome
  · split at houtcome
    · cases houtcome
    · obtain rfl := Except.ok.inj houtcome
      exact ⟨h.user, h.all, h.entity, h.gmail, h.source, h.revision, h.least, h.most, h.ids⟩
  · split at houtcome
    · next hend =>
        obtain rfl := Except.ok.inj houtcome
        have hsnapshot : s.snapshot.totalMessages = s.expectedTotalMessages := by
          have hmost := h.most
          rw [hend.1, htotal, Nat.max_self] at hmost
          exact Nat.le_antisymm hmost h.least
        refine ⟨?_, by rw [hend.1, htotal, hsnapshot], List.all_eq_true.1 hend.2, h.ids⟩
        intro p hp
        obtain ⟨hentity, hgmail, huser, hsource, hrevision, hcount⟩ := h.all p hp
        exact ⟨hentity.trans h.entity.symm, hgmail.trans h.gmail.symm, huser.trans h.user.symm,
          hsource.trans h.source.symm, hrevision.trans h.revision.symm, hcount.trans hsnapshot.symm⟩
    · cases houtcome

def LoopOk (userId : String) (pages : List ThreadReaderResponse) :
    Option PaginatedSnapshot → Prop
  | none => pages = []
  | some s => pages ≠ [] ∧ PagesOk userId pages s

variable {snapshot : Option PaginatedSnapshot}

theorem LoopOk.receive (h : LoopOk userId pages snapshot)
    (houtcome : receivePaginated threadId userId snapshot page = .ok outcome) : match outcome with
    | .another next => LoopOk userId (pages ++ [page]) (some next)
    | .complete thread => CompleteSnapshot (pages ++ [page]) thread := by
  unfold receivePaginated at houtcome
  split at houtcome
  · cases houtcome
  next hidentity =>
    push Not at hidentity
    obtain ⟨-, huser, -⟩ := hidentity
    cases snapshot with
    | none =>
      obtain rfl : pages = [] := h
      have hstart := huser ▸ pagesOk_start page
      have hspec := hstart.concluding rfl houtcome
      cases outcome with
      | another => exact ⟨List.cons_ne_nil _ _, hspec⟩
      | complete => exact hspec
    | some s =>
      dsimp only at houtcome
      split at houtcome
      · cases houtcome
      next next hnext =>
        have hspec := (h.2.appending h.1 huser hnext).concluding ?_ houtcome
        · cases outcome with
          | another => exact ⟨by simp, hspec⟩
          | complete => exact hspec
        · obtain ⟨rfl, -, -, -, htotal, -⟩ := appending_cases hnext
          exact htotal

/-- **The loop**: it asks for no page beyond those it may ask for, and what it returns is
complete. -/
theorem LoopOk.fetchPages (backend : ThreadBackend) (threadId : String) (pagesLeft : Nat)
    (h : LoopOk userId pages snapshot) :
    (fetchPages backend threadId userId pagesLeft snapshot pages).requests ≤
        pages.length + pagesLeft ∧
      ∀ thread, (fetchPages backend threadId userId pagesLeft snapshot pages).result = .ok thread →
        CompleteSnapshot (fetchPages backend threadId userId pagesLeft snapshot pages).pages
          thread := by
  induction pagesLeft generalizing snapshot pages with
  | zero => exact ⟨Nat.le_refl _, fun thread hthread => nomatch hthread⟩
  | succ pagesLeft ih =>
    unfold Reader.fetchPages
    split
    · refine ⟨?_, fun thread hthread => nomatch hthread⟩
      show pages.length + 1 ≤ pages.length + (pagesLeft + 1)
      omega
    · next page hpage =>
        split
        · refine ⟨?_, fun thread hthread => nomatch hthread⟩
          show pages.length + 1 ≤ pages.length + (pagesLeft + 1)
          omega
        · next complete houtcome =>
            refine ⟨?_, ?_⟩
            · show pages.length + 1 ≤ pages.length + (pagesLeft + 1)
              omega
            · intro thread hthread
              cases hthread
              exact h.receive houtcome
        · next next houtcome =>
            obtain ⟨hrequests, hresult⟩ := ih (h.receive houtcome)
            refine ⟨?_, hresult⟩
            rw [List.length_append, List.length_singleton] at hrequests
            omega

end Loop

/-! ## A backend that serves one thread -/

section Served

variable {backend : ThreadBackend} {server : ServerThread} {head : PageHead} {revision : String}
  {size : Nat → Nat → Nat} {threadId : String} {pages : List ThreadReaderResponse}

structure Expecting (server : ServerThread) (head : PageHead) (revision : String)
    (s : PaginatedSnapshot) : Prop where
  entity : s.expectedEntityId = head.entityId
  gmail : s.expectedGmailThreadId = head.gmailThreadId
  source : s.expectedSource = head.source
  total : s.expectedTotalMessages = (server.messagesAt revision).length

/-- The loop has the first messages of the thread, and there are more. -/
def ReadTo (server : ServerThread) (head : PageHead) (revision : String) (offset : Nat) :
    Option PaginatedSnapshot → Prop
  | none => offset = 0
  | some s => HoldsFirst server s revision offset ∧ s.offset = offset ∧
      offset < (server.messagesAt revision).length ∧ Expecting server head revision s

/-- The page leaves the loop with more to read, or completes the thread. -/
def Advances (server : ServerThread) (head : PageHead) (revision : String) (offset : Nat)
    (outcome : Except PaginatedSnapshotError PaginatedOutcome) : Prop :=
  (∃ next, outcome = .ok (.another next) ∧ ReadTo server head revision offset (some next)) ∨
    ∃ thread, outcome = .ok (.complete thread) ∧ thread.messages = server.messagesAt revision ∧
      thread.contentRevision = some revision

theorem length_page (server : ServerThread) (head : PageHead) (revision : String)
    (offset limit : Nat) :
    (server.page head revision limit offset).messages.length =
      min limit ((server.messagesAt revision).length - offset) := by
  show (((server.messagesAt revision).drop offset).take limit).length = _
  rw [List.length_take, List.length_drop]

variable {offset limit : Nat}

theorem concluding_served {s : PaginatedSnapshot}
    (hbodies : ∀ m ∈ server.messagesAt revision, m.bodyComplete = true)
    (hholds : HoldsFirst server s revision (offset + limit)) (hoffset : s.offset = offset)
    (hlimit : 0 < limit) (hexpecting : Expecting server head revision s) :
    Advances server head revision (offset + limit)
      (s.concluding (server.page head revision limit offset)) := by
  have hlength := length_page server head revision offset limit
  unfold PaginatedSnapshot.concluding
  by_cases hmore : (server.page head revision limit offset).hasMore = true
  · have hlt : offset + (server.page head revision limit offset).messages.length <
        (server.messagesAt revision).length := of_decide_eq_true hmore
    have hpage : (server.page head revision limit offset).messages.length = limit := by omega
    have hne : (server.page head revision limit offset).messages ≠ [] := by
      intro hnil
      rw [hnil] at hpage
      exact Nat.lt_irrefl _ (hpage ▸ hlimit)
    rw [if_pos hmore, if_neg hne, hpage]
    refine Or.inl ⟨_, rfl, ⟨hholds.expected, hholds.carried, hholds.messages⟩, ?_, by omega,
      ⟨hexpecting.entity, hexpecting.gmail, hexpecting.source, hexpecting.total⟩⟩
    show s.offset + limit = offset + limit
    rw [hoffset]
  · have hend := take_add_limit_of_last (Bool.eq_false_iff.2 hmore)
    have hmessages : s.snapshot.messages = server.messagesAt revision :=
      hholds.messages.trans hend
    have hcomplete : s.snapshot.messages.length =
        (server.page head revision limit offset).totalMessages ∧
          s.snapshot.messages.all ThreadMessage.bodyComplete = true := by
      rw [hmessages]
      exact ⟨rfl, List.all_eq_true.2 hbodies⟩
    rw [if_neg hmore, if_pos hcomplete]
    exact Or.inr ⟨_, rfl, hmessages, hholds.carried⟩

variable {snapshot : Option PaginatedSnapshot}

/-- **One page of the thread.** -/
theorem receive_served (hbodies : ∀ m ∈ server.messagesAt revision, m.bodyComplete = true)
    (hread : ReadTo server head revision offset snapshot)
    (hthread : head.gmailThreadId.getD head.entityId = threadId) (hlimit : 0 < limit)
    (hmost : limit ≤ paginatedThreadPageSize) :
    Advances server head revision (offset + limit) (receivePaginated threadId head.userId snapshot
      (server.page head revision limit offset)) := by
  have hlength := length_page server head revision offset limit
  have hoffset : paginatedOffset snapshot = offset := by
    cases snapshot with
    | none => exact (show offset = 0 from hread).symm
    | some s => exact hread.2.1
  have hidentity : ¬ ((server.page head revision limit offset).gmailThreadId.getD
      (server.page head revision limit offset).entityId ≠ threadId ∨
      (server.page head revision limit offset).userId ≠ head.userId ∨
      (server.page head revision limit offset).offset ≠ paginatedOffset snapshot ∨
      paginatedThreadPageSize < (server.page head revision limit offset).messages.length) := by
    rw [hoffset]
    rintro (h | h | h | h)
    · exact h hthread
    · exact h rfl
    · exact h rfl
    · omega
  unfold receivePaginated
  rw [if_neg hidentity]
  cases snapshot with
  | none =>
    obtain rfl : offset = 0 := hread
    refine concluding_served hbodies ?_ rfl hlimit ⟨rfl, rfl, rfl, rfl⟩
    rw [Nat.zero_add]
    exact holdsFirst_start head revision limit
  | some s =>
    obtain ⟨hholds, rfl, hmore, hexpecting⟩ := hread
    have hpage : newlyObserved (s.snapshot.messages.map ThreadMessage.id)
        (server.page head revision limit s.offset).messages =
          (server.page head revision limit s.offset).messages := by
      have hall := take_append_newlyObserved (server.nodup revision) s.offset limit
      rw [List.take_add, ← hholds.messages] at hall
      exact List.append_cancel_left hall
    have hnew : ¬ ((server.page head revision limit s.offset).hasMore = true ∧
        newlyObserved (s.snapshot.messages.map ThreadMessage.id)
          (server.page head revision limit s.offset).messages = []) := by
      rw [hpage]
      rintro ⟨-, hnil⟩
      rw [hnil] at hlength
      simp only [List.length_nil] at hlength
      omega
    have hnext : s.appending (server.page head revision limit s.offset) =
        .ok { s with
          snapshot := s.snapshot.appendingPage (server.page head revision limit s.offset) } := by
      unfold PaginatedSnapshot.appending
      have hrevision : ¬ (server.page head revision limit s.offset).contentRevision ≠
          s.expectedRevision := not_not.2 hholds.expected.symm
      rw [if_neg, if_neg hrevision, if_neg hnew]
      simp [hexpecting.entity, hexpecting.gmail, hexpecting.source, hexpecting.total,
        ServerThread.page]
    simp only [hnext]
    exact concluding_served hbodies (hholds.appending hnext).1 rfl hlimit
      ⟨hexpecting.entity, hexpecting.gmail, hexpecting.source, hexpecting.total⟩

/-- **The loop over a thread**: it comes through when the pages it may ask for hold it. -/
theorem fetchPages_served (hserves : Serves backend server head revision size)
    (hbodies : ∀ m ∈ server.messagesAt revision, m.bodyComplete = true)
    (hthread : head.gmailThreadId.getD head.entityId = threadId) (pagesLeft : Nat)
    (hread : ReadTo server head revision (servedBy size pages.length) snapshot)
    (hleft : snapshot = none → 0 < pagesLeft)
    (henough : (server.messagesAt revision).length ≤ servedBy size (pages.length + pagesLeft)) :
    ∃ thread, (fetchPages backend threadId head.userId pagesLeft snapshot pages).result =
        .ok thread ∧
      thread.messages = server.messagesAt revision ∧ thread.contentRevision = some revision := by
  induction pagesLeft generalizing snapshot pages with
  | zero =>
    cases snapshot with
    | none => exact absurd (hleft rfl) (Nat.lt_irrefl 0)
    | some s => exact absurd hread.2.2.1 (Nat.not_lt.2 henough)
  | succ pagesLeft ih =>
    obtain ⟨hlimit, hmost⟩ := hserves.sizes pages.length (servedBy size pages.length)
    have hoffset : paginatedOffset snapshot = servedBy size pages.length := by
      cases snapshot with
      | none => exact (show _ = 0 from hread).symm
      | some s => exact hread.2.1
    unfold fetchPages
    rw [hoffset, hserves.pages]
    dsimp only
    rcases receive_served hbodies hread hthread hlimit hmost with
      ⟨next, hnext, hreads⟩ | ⟨thread, hcomplete, hspec⟩
    · rw [hnext]
      refine ih ?_ nofun ?_
      · rw [List.length_append]
        exact hreads
      · rw [List.length_append, List.length_singleton, Nat.add_assoc, Nat.add_comm 1]
        exact henough
    · rw [hcomplete]
      exact ⟨thread, rfl, hspec⟩

end Served

/-- **A paginated thread is complete.** Whatever the backend answers, a thread that is returned is
a complete snapshot of its pages, with at most `maximumPaginatedThreadPages` requests. A backend
that serves a thread with complete bodies in that many pages gets it through. -/
theorem fetchCompletePaginatedThread_spec (backend : ThreadBackend) (threadId userId : String) :
    ((fetchCompletePaginatedThread backend threadId userId).requests ≤
        maximumPaginatedThreadPages ∧
      ∀ thread, (fetchCompletePaginatedThread backend threadId userId).result = .ok thread →
        CompleteSnapshot (fetchCompletePaginatedThread backend threadId userId).pages thread) ∧
    ∀ server head revision size, Serves backend server head revision size →
      (∀ m ∈ server.messagesAt revision, m.bodyComplete = true) →
      head.gmailThreadId.getD head.entityId = threadId → head.userId = userId →
      (server.messagesAt revision).length ≤ servedBy size maximumPaginatedThreadPages →
      ∃ thread, (fetchCompletePaginatedThread backend threadId userId).result = .ok thread ∧
        thread.messages = server.messagesAt revision ∧ thread.contentRevision = some revision := by
  refine ⟨?_, ?_⟩
  · have hloop := LoopOk.fetchPages backend threadId maximumPaginatedThreadPages
      (show LoopOk userId [] none from rfl)
    rw [List.length_nil, Nat.zero_add] at hloop
    exact hloop
  · rintro server head revision size hserves hbodies hthread rfl henough
    refine fetchPages_served hserves hbodies hthread maximumPaginatedThreadPages
      (show _ = 0 from rfl) (fun _ => Nat.zero_lt_succ _) ?_
    rw [List.length_nil, Nat.zero_add]
    exact henough

def plainMessage (id : String) (bodyComplete : Bool) : ThreadMessage := ⟨id, bodyComplete, [], ""⟩

def plainHead : PageHead := ⟨"t1", "u1", none, none, none, none, none⟩

def plainThread (bodyComplete : Bool) : ServerThread where
  messagesAt := fun _ => [plainMessage "m1" bodyComplete]
  nodup := fun _ => by simp

def twicePage : ThreadReaderResponse :=
  { (plainThread true).page plainHead "r1" 100 0 with
    totalMessages := 2
    messages := [plainMessage "m1" true, plainMessage "m1" true] }

/-- The first page is taken with the ids it has, and a thread with an incomplete body does not
get through. -/
theorem first_page_unchecked :
    (∃ thread, (fetchCompletePaginatedThread (fun _ _ => some twicePage) "t1" "u1").result =
        .ok thread ∧ ¬ thread.HasDistinctIds) ∧
      (fetchCompletePaginatedThread
        (fun _ offset => some ((plainThread false).page plainHead "r1" 100 offset)) "t1" "u1").result =
        .error (some .incomplete) := by
  have htwice : receivePaginated "t1" "u1" none twicePage = .ok (.complete twicePage) := by decide
  have hincomplete : receivePaginated "t1" "u1" none
      ((plainThread false).page plainHead "r1" 100 0) = .error .incomplete := by decide
  refine ⟨⟨twicePage, ?_, ?_⟩, ?_⟩
  · simp only [fetchCompletePaginatedThread, maximumPaginatedThreadPages, fetchPages, htwice]
  · unfold ThreadReaderResponse.HasDistinctIds
    decide
  · simp only [fetchCompletePaginatedThread, maximumPaginatedThreadPages, fetchPages,
      paginatedOffset, hincomplete]

theorem plainThread_through :
    ∃ thread, (fetchCompletePaginatedThread
      (fun _ offset => some ((plainThread true).page plainHead "r1" 100 offset)) "t1" "u1").result =
        .ok thread ∧
      thread.messages = [plainMessage "m1" true] ∧ thread.contentRevision = some "r1" := by
  refine (fetchCompletePaginatedThread_spec _ "t1" "u1").2 (plainThread true) plainHead "r1"
    (fun _ _ => 100) ⟨fun _ _ => rfl, fun _ _ => by decide⟩ (by decide) rfl rfl ?_
  obtain ⟨n, hn⟩ : ∃ n, maximumPaginatedThreadPages = n + 1 := ⟨9999, rfl⟩
  rw [hn, servedBy]
  exact Nat.le_trans (by decide) (Nat.le_add_left 100 _)

end ElectronicMail.Reader
