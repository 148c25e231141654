import ElectronicMail.Mailbox.Chain
import ElectronicMail.Mailbox.Combined

/-!
# The chain of the combined mailbox

The combined page tells no generation, while the pages of the primary mailbox that follow it do.
A second page of the primary mailbox is thus of another identity than what it is to be put under,
and the chain starts again until it gives up (`Chain.endless`). It is complete when there is no
second page, and when the other accounts announce no more threads than they show
(`combined_complete_iff`).
-/

namespace ElectronicMail.Mailbox

open Foundations
open Offline (MailboxLabel)

inductive PagesFrom (servers : MailboxServers) :
    Option (List Char) → List GmailThreadRow → Prop where
  | last {cursor : Option (List Char)} {page : MailboxResponse}
      (hpage : servers .primary cursor = some page) (hend : nonempty page.nextCursor = none) :
      PagesFrom servers cursor page.rows
  | more {cursor : Option (List Char)} {page : MailboxResponse} {next : List Char}
      {rows : List GmailThreadRow} (hpage : servers .primary cursor = some page)
      (hnext : nonempty page.nextCursor = some next) (hrest : PagesFrom servers (some next) rows) :
      PagesFrom servers cursor (page.rows ++ rows)

/-- Several accounts, of which some may fail. The pages of the primary mailbox carry one
generation and partition its threads. Ids of accounts have no bar, as UUIDs have none. -/
structure CombinedMailbox where
  label : MailboxLabel
  accounts : GmailAccountsResponse
  servers : MailboxServers
  threads : List GmailThreadRow
  generation : List Char
  distinctThreads : (threads.map GmailThreadRow.threadId).Nodup
  distinctSources : (threads.map GmailThreadRow.latestSourceRecordId).Nodup
  plainIds : ∀ account ∈ accounts.accounts, '|' ∉ account.id
  labels : ∀ route cursor page, servers route cursor = some page → page.label = label
  generations : ∀ cursor page, servers .primary cursor = some page →
    nonempty page.syncGeneration = some generation
  totals : ∀ cursor page, servers .primary cursor = some page → page.totalThreads = threads.length
  partitioned : servers .primary none ≠ none →
    ∃ rows, PagesFrom servers none rows ∧ rows.Perm threads

namespace CombinedMailbox

def otherPages (m : CombinedMailbox) : List MailboxResponse :=
  m.accounts.others.filterMap fun account => m.servers (.account account.id) none

/-- `AppClient.mailbox` in the combined scope, as the chain asks it. -/
def ask (m : CombinedMailbox) : Ask := fun _ cursor =>
  mailbox (some m.accounts) .combined m.servers cursor

/-- The chain that starts from the first page returns every thread of the primary mailbox and
every row of the first page of each other account that can be reached exactly once, as a complete
snapshot. -/
def Complete (m : CombinedMailbox) : Prop :=
  ∀ fuel, maximumAutomaticMailboxPages < fuel → ∃ initial final snapshot,
    mailbox (some m.accounts) .combined m.servers none = some initial ∧
      completeMailboxSnapshot m.label m.ask fuel initial = some (final, .returned snapshot) ∧
      isCompleteMailboxSnapshot snapshot = true ∧
      snapshot.rows.Perm (m.threads ++ m.otherPages.flatMap MailboxResponse.rows)

/-- In every scope, a wrapped cursor is sent back to the mailbox that issued it only. -/
def KeepsCursors (m : CombinedMailbox) : Prop :=
  ∀ (scope : MailboxViewScope) (issuer : MailboxRoute) (cursor wrapped : List Char),
    (issuer = .primary ∨ ∃ account ∈ m.accounts.accounts, issuer = .account account.id) →
    wrappedMailboxCursor (some cursor) issuer = some wrapped →
    ∀ request ∈ sentRequests m.accounts scope (some wrapped), request = (issuer, some cursor)

/-- The primary mailbox has one page only, or cannot be reached and has no threads beside those
of another account; and the other accounts announce no more threads than their first pages have. -/
def Combinable (m : CombinedMailbox) : Prop :=
  (match m.servers .primary none with
    | some first => nonempty first.nextCursor = none
    | none => m.threads = [] ∧ m.otherPages ≠ []) ∧
  (m.otherPages.map MailboxResponse.totalThreads).sum ≤
    (m.otherPages.map MailboxResponse.visibleRows).sum

end CombinedMailbox

/-! ## Cursors -/

theorem CombinedMailbox.keepsCursors (m : CombinedMailbox) : m.KeepsCursors := by
  intro scope issuer cursor wrapped hissuer hwrapped request hrequest
  have hplain : issuer.Plain := by
    rcases hissuer with rfl | ⟨account, haccount, rfl⟩
    · trivial
    · exact m.plainIds account haccount
  unfold sentRequests at hrequest
  rw [if_neg (by simp), mailboxCursor_wrapped hplain hwrapped] at hrequest
  by_cases heq : issuer = scope.route m.accounts
  · rw [if_pos heq] at hrequest
    simp only [Option.toList_some, List.map_cons, List.map_nil, List.mem_singleton] at hrequest
    rw [hrequest, heq]
  · rw [if_neg heq] at hrequest
    cases hrequest

/-! ## The rows of the combined page -/

theorem allRows_placeRow (title : String) (sections : List GmailThreadSection)
    (row : GmailThreadRow) :
    Section.allRows (placeRow title sections row) = Section.allRows sections ++ [row] := by
  unfold placeRow
  cases hlast : sections.getLast? with
  | none =>
    rw [List.getLast?_eq_none_iff.1 hlast]
    rfl
  | some last =>
    have hsplit : sections.dropLast ++ [last] = sections := by
      rw [List.getLast?_eq_some_iff] at hlast
      obtain ⟨init, rfl⟩ := hlast
      simp
    simp only
    split
    · conv_rhs => rw [← hsplit]
      simp [Section.allRows]
    · simp [Section.allRows]

theorem allRows_placed (titled : List (String × GmailThreadRow)) (rows : List GmailThreadRow)
    (sections : List GmailThreadSection) :
    Section.allRows (rows.foldl
        (fun sections row => placeRow (titleOf titled row.threadId) sections row) sections) =
      Section.allRows sections ++ rows := by
  induction rows generalizing sections with
  | nil => simp
  | cons row rows ih =>
    rw [List.foldl_cons, ih, allRows_placeRow]
    simp

theorem map_snd_titledRows (responses : List MailboxResponse) :
    (titledRows responses).map Prod.snd = responses.flatMap MailboxResponse.rows := by
  simp only [titledRows, List.map_flatMap, List.map_map, Function.comp_def, List.map_id']
  rfl

theorem rows_combinedForPresentation (first : MailboxResponse) (others : List MailboxResponse)
    (cursor : Option (List Char)) (warnings : List String) :
    (combinedForPresentation first others cursor warnings).rows.Perm
      ((first :: others).flatMap MailboxResponse.rows) := by
  unfold combinedForPresentation MailboxResponse.rows
  simp only [allRows_placed, map_snd_titledRows]
  exact List.perm_insertionSort _ _

/-! ## The combined page -/

theorem nonempty_wrapped_eq_none {cursor : Option (List Char)} {route : MailboxRoute} :
    nonempty (wrappedMailboxCursor cursor route) = none ↔ nonempty cursor = none := by
  unfold wrappedMailboxCursor
  cases nonempty cursor with
  | none => simp [nonempty]
  | some => simp [nonempty, scopeText]

def CombinedMailbox.responses (m : CombinedMailbox) : List MailboxResponse :=
  (m.servers .primary none).toList ++ m.otherPages

structure IsCombined (m : CombinedMailbox) (page : MailboxResponse) : Prop where
  rows : page.rows.Perm (m.responses.flatMap MailboxResponse.rows)
  total : page.totalThreads = (m.responses.map MailboxResponse.totalThreads).sum
  nextCursor : page.nextCursor =
    wrappedMailboxCursor ((m.servers .primary none).bind MailboxResponse.nextCursor) .primary
  syncGeneration : page.syncGeneration = none
  fullImportRunning : page.fullImportRunning = some false
  fullImportCompleted : page.completions.fullImportCompleted = some true

variable {page : MailboxResponse}

variable {m : CombinedMailbox}

theorem isCombined_combinedPage (h : combinedPage m.accounts m.servers = some page) :
    IsCombined m page := by
  unfold combinedPage at h
  cases hresponses : m.responses with
  | nil =>
    have hnone : (m.servers .primary none).toList ++ m.accounts.others.filterMap
        (fun account => m.servers (.account account.id) none) = [] := hresponses
    simp [hnone] at h
  | cons first others =>
    have hsome : (m.servers .primary none).toList ++ m.accounts.others.filterMap
        (fun account => m.servers (.account account.id) none) = first :: others := hresponses
    simp only [hsome, Option.some.injEq] at h
    obtain rfl := h
    refine ⟨?_, ?_, rfl, rfl, rfl, rfl⟩
    · rw [hresponses]
      exact rows_combinedForPresentation first others _ _
    · rw [hresponses]
      rfl

theorem exists_combinedPage (h : m.responses ≠ []) :
    ∃ page, combinedPage m.accounts m.servers = some page := by
  unfold combinedPage
  cases hresponses : m.responses with
  | nil => exact absurd hresponses h
  | cons first others =>
    have hsome : (m.servers .primary none).toList ++ m.accounts.others.filterMap
        (fun account => m.servers (.account account.id) none) = first :: others := hresponses
    simp only [hsome]
    exact ⟨_, rfl⟩

theorem isComplete_iff (h : IsCombined m page) : isCompleteMailboxSnapshot page = true ↔
      nonempty page.nextCursor = none ∧ page.totalThreads ≤ page.rows.length := by
  unfold isCompleteMailboxSnapshot MailboxResponse.reachedEnd MailboxResponse.visibleRows
  rw [h.fullImportRunning, h.fullImportCompleted]
  simp only [Bool.and_eq_true, decide_eq_true_iff, Option.isNone_iff_eq_none]
  constructor
  · rintro ⟨⟨⟨-, hend⟩, -⟩, htotal⟩
    exact ⟨hend, htotal⟩
  · rintro ⟨hend, htotal⟩
    exact ⟨⟨⟨by decide, hend⟩, by omega⟩, htotal⟩

/-! ## A second page -/

/-- A chain of the combined page, while there is more of the primary mailbox. -/
structure Chain.Endless (c : Chain) : Prop where
  untold : nonempty c.accumulator.metadata.syncGeneration = none
  more : nonempty c.accumulator.metadata.nextCursor ≠ none

def NeverComplete (outcome : Outcome) : Prop :=
  ∀ snapshot, outcome = .returned snapshot → isCompleteMailboxSnapshot snapshot = false

theorem neverComplete_thrown (error : MailboxPaginationError) : NeverComplete (.thrown error) := by
  intro snapshot hreturned
  cases hreturned

variable {c : Chain}

section Endless

variable {m : CombinedMailbox} {first : MailboxResponse}
  (hfirst : m.servers .primary none = some first) (hmore : nonempty first.nextCursor ≠ none)

include hfirst hmore

theorem endless_start (hpage : combinedPage m.accounts m.servers = some page) (c : Chain)
    (hc : c.accumulator = .start page) : c.Endless := by
  have h := isCombined_combinedPage hpage
  refine ⟨?_, ?_⟩
  · rw [hc]
    show nonempty page.syncGeneration = none
    rw [h.syncGeneration]
    rfl
  · rw [hc]
    show nonempty page.nextCursor ≠ none
    rw [h.nextCursor, hfirst, Option.bind_some, Ne, nonempty_wrapped_eq_none]
    exact hmore

theorem Chain.Endless.restart (h : c.Endless) :
    Settles Chain.Endless NeverComplete (c.restart m.label m.ask) := by
  simp only [Chain.restart]
  split
  · split
    · exact neverComplete_thrown _
    · next sent restarted hanswer =>
        have hanswered := congrArg Prod.snd hanswer
        simp only [Chain.request] at hanswered
        split at hanswered
        · cases hanswered
        next response hresponse =>
          split at hanswered
          · cases hanswered
            have hpage : combinedPage m.accounts m.servers = some restarted := hresponse
            exact endless_start hfirst hmore hpage _ rfl
          · cases hanswered
  · intro snapshot hreturned
    cases hreturned
    have hopen : c.accumulator.snapshot.reachedEnd = false := by
      cases hcursor : nonempty c.accumulator.metadata.nextCursor with
      | none => exact absurd hcursor h.more
      | some cursor =>
        show (nonempty c.accumulator.metadata.nextCursor).isNone = false
        rw [hcursor]
        rfl
    simp [isCompleteMailboxSnapshot, hopen]

theorem Chain.Endless.receive (h : c.Endless)
    {generation : List Char} (hpage : nonempty page.syncGeneration = some generation) :
    Settles Chain.Endless NeverComplete (c.receive m.label m.ask page) := by
  have hother : mailboxPaginationIdentityMatches c.accumulator.metadata page = false := by
    unfold mailboxPaginationIdentityMatches
    rw [h.untold, hpage]
  unfold Chain.receive
  rw [hother]
  exact h.restart hfirst hmore

theorem Chain.Endless.turn (h : c.Endless) :
    Settles Chain.Endless NeverComplete (c.turn m.label m.ask) := by
  unfold Chain.turn
  split
  · next hend => exact absurd hend h.more
  next cursor hcursor =>
    simp only [Chain.follow]
    split
    · exact neverComplete_thrown _
    split
    · split
      · exact neverComplete_thrown _
      · next sent page hanswer =>
          have hsent : sent.Endless := by
            obtain rfl := congrArg Prod.fst hanswer
            exact ⟨h.untold, h.more⟩
          have hanswered := congrArg Prod.snd hanswer
          simp only [Chain.request] at hanswered
          split at hanswered
          · cases hanswered
          next response hresponse =>
            split at hanswered
            · cases hanswered
              have hrouted : routedPage m.servers .primary (some cursor) = some page := by
                simpa [CombinedMailbox.ask, mailbox, MailboxViewScope.route] using hresponse
              unfold routedPage at hrouted
              rw [Option.bind_eq_some_iff] at hrouted
              obtain ⟨provider, -, hserved⟩ := hrouted
              rw [Option.map_eq_some_iff] at hserved
              obtain ⟨served, hserved, rfl⟩ := hserved
              have hgeneration := m.generations provider served hserved
              exact hsent.receive hfirst hmore hgeneration
            · cases hanswered
    · exact neverComplete_thrown _

theorem not_complete_of_more : ¬ m.Complete := by
  intro hcomplete
  obtain ⟨initial, final, snapshot, hinitial, hrun, hsnapshot, -⟩ :=
    hcomplete (maximumAutomaticMailboxPages + 1) (Nat.lt_succ_self _)
  have hpage : combinedPage m.accounts m.servers = some initial := by
    simpa [mailbox] using hinitial
  have hstart := endless_start hfirst hmore hpage (.start initial) rfl
  unfold completeMailboxSnapshot at hrun
  split at hrun
  · next hend => exact absurd hend hstart.more
  · have hnever := Chain.outcome_of_turn (fun _ hc => hc.turn hfirst hmore) hstart hrun
    rw [hnever snapshot rfl] at hsnapshot
    cases hsnapshot

end Endless

/-! ## One page -/

theorem complete_iff_of_end
    (hend : nonempty ((m.servers .primary none).bind MailboxResponse.nextCursor) = none) :
    m.Complete ↔ m.responses ≠ [] ∧
      (m.responses.flatMap MailboxResponse.rows).Perm
        (m.threads ++ m.otherPages.flatMap MailboxResponse.rows) ∧
      (m.responses.map MailboxResponse.totalThreads).sum ≤
        (m.responses.flatMap MailboxResponse.rows).length := by
  have hwhole : ∀ page, combinedPage m.accounts m.servers = some page →
      nonempty page.nextCursor = none := by
    intro page hpage
    rw [(isCombined_combinedPage hpage).nextCursor, nonempty_wrapped_eq_none]
    exact hend
  constructor
  · intro hcomplete
    obtain ⟨initial, final, snapshot, hinitial, hrun, hsnapshot, hrows⟩ :=
      hcomplete (maximumAutomaticMailboxPages + 1) (Nat.lt_succ_self _)
    have hpage : combinedPage m.accounts m.servers = some initial := by
      simpa [mailbox] using hinitial
    have h := isCombined_combinedPage hpage
    have hsame : snapshot = initial := by
      simp only [completeMailboxSnapshot, hwhole initial hpage, completed] at hrun
      split at hrun
      · cases hrun
        rfl
      · cases hrun
    subst hsame
    refine ⟨?_, h.rows.symm.trans hrows, ?_⟩
    · intro hnone
      have hcombined := hpage
      unfold combinedPage at hcombined
      have hempty : (m.servers .primary none).toList ++ m.accounts.others.filterMap
          (fun account => m.servers (.account account.id) none) = [] := hnone
      simp [hempty] at hcombined
    · have htotal := ((isComplete_iff h).1 hsnapshot).2
      rw [h.total, h.rows.length_eq] at htotal
      exact htotal
  · rintro ⟨hresponses, hrows, htotal⟩ fuel -
    obtain ⟨page, hpage⟩ := exists_combinedPage hresponses
    have h := isCombined_combinedPage hpage
    have hcomplete : isCompleteMailboxSnapshot page = true := by
      apply (isComplete_iff h).2
      refine ⟨hwhole page hpage, ?_⟩
      rw [h.total, h.rows.length_eq]
      exact htotal
    refine ⟨page, .start page, page, ?_, ?_, hcomplete, h.rows.trans hrows⟩
    · simpa [mailbox] using hpage
    · simp [completeMailboxSnapshot, hwhole page hpage, completed,
        validatesCompletedMailboxSnapshot, hcomplete]

theorem length_flatMap_rows (pages : List MailboxResponse) :
    ((pages.flatMap MailboxResponse.rows).length : Int) =
      (pages.map MailboxResponse.visibleRows).sum := by
  induction pages with
  | nil => rfl
  | cons page pages ih =>
    rw [List.flatMap_cons, List.length_append, List.map_cons, List.sum_cons, ← ih]
    simp [MailboxResponse.visibleRows]

theorem CombinedMailbox.rows_perm_threads {first : MailboxResponse}
    (hfirst : m.servers .primary none = some first) (hend : nonempty first.nextCursor = none) :
    first.rows.Perm m.threads := by
  obtain ⟨rows, hpages, hrows⟩ := m.partitioned (by rw [hfirst]; exact Option.some_ne_none _)
  cases hpages with
  | last hpage _ =>
    rw [hfirst] at hpage
    obtain rfl := Option.some.inj hpage
    exact hrows
  | more hpage hnext _ =>
    rw [hfirst] at hpage
    obtain rfl := Option.some.inj hpage
    rw [hend] at hnext
    cases hnext

theorem combined_complete_iff (m : CombinedMailbox) :
    m.Complete ∧ m.KeepsCursors ↔ m.Combinable := by
  rw [and_iff_left m.keepsCursors]
  unfold CombinedMailbox.Combinable
  cases hprimary : m.servers .primary none with
  | none =>
    have hresponses : m.responses = m.otherPages := by
      simp [CombinedMailbox.responses, hprimary]
    rw [complete_iff_of_end (by rw [hprimary]; rfl), hresponses, length_flatMap_rows]
    simp only
    constructor
    · rintro ⟨hreached, hrows, htotal⟩
      have hlength := hrows.length_eq
      rw [List.length_append] at hlength
      exact ⟨⟨List.length_eq_zero_iff.1 (by omega), hreached⟩, htotal⟩
    · rintro ⟨⟨hthreads, hreached⟩, htotal⟩
      refine ⟨hreached, ?_, htotal⟩
      rw [hthreads, List.nil_append]
  | some first =>
    have hresponses : m.responses = first :: m.otherPages := by
      simp [CombinedMailbox.responses, hprimary]
    simp only
    by_cases hend : nonempty first.nextCursor = none
    · have hthreads := m.rows_perm_threads hprimary hend
      have htotals := m.totals none first hprimary
      rw [complete_iff_of_end (by rw [hprimary]; exact hend), hresponses, length_flatMap_rows,
        List.flatMap_cons, List.map_cons, List.map_cons, List.sum_cons, List.sum_cons, htotals]
      have hvisible : first.visibleRows = m.threads.length := by
        rw [MailboxResponse.visibleRows, hthreads.length_eq]
      rw [hvisible]
      constructor
      · rintro ⟨-, -, htotal⟩
        exact ⟨hend, by omega⟩
      · rintro ⟨-, htotal⟩
        exact ⟨by simp, hthreads.append_right _, by omega⟩
    · constructor
      · intro hcomplete
        exact absurd hcomplete (not_complete_of_more hprimary hend)
      · rintro ⟨hnone, -⟩
        exact absurd hnone hend

/-! ## Two pages of one account -/

def threadRow (threadId sourceId : String) : GmailThreadRow where
  threadId := threadId
  entityId := none
  aiGroupId := none
  latestSourceRecordId := sourceId
  lifecycleSourceIds := []
  latestMessageAt := none
  latestReceivedAt := ""
  content := ""

def pageOfTwo (nextCursor : Option (List Char)) (row : GmailThreadRow) : MailboxResponse where
  label := .inbox
  totalThreads := 2
  unreadThreads := none
  nextCursor := nextCursor
  loadedThreads := none
  windowDays := none
  sections := [⟨"earlier", "Earlier", [row]⟩]
  counts := ⟨none, none, none, none, none, none, none, none⟩
  pendingCount := none
  mailboxRevision := none
  generatedAt := none
  oldestImportedAt := none
  fullImportRunning := none
  completions := ⟨none, none, none, none⟩
  syncGeneration := some ['g']
  phase := none
  lastProgressAt := none
  accountWarnings := none

def twoPages : CombinedMailbox where
  label := .inbox
  accounts := ⟨[⟨['1'], "me@example.com", true, true⟩], ['1']⟩
  servers := fun route cursor =>
    match route, cursor with
    | .primary, none => some (pageOfTwo (some ['n']) (threadRow "a" "1"))
    | .primary, some _ => some (pageOfTwo none (threadRow "b" "2"))
    | .account _, _ => none
  threads := [threadRow "a" "1", threadRow "b" "2"]
  generation := ['g']
  distinctThreads := by decide
  distinctSources := by decide
  plainIds := by decide
  labels := by
    intro route cursor page hpage
    split at hpage <;> cases hpage <;> rfl
  generations := by
    intro cursor page hpage
    cases cursor <;> cases hpage <;> rfl
  totals := by
    intro cursor page hpage
    cases cursor <;> cases hpage <;> rfl
  partitioned := fun _ =>
    ⟨_, .more rfl (by decide : nonempty (some ['n']) = some ['n']) (.last rfl (by decide)), .refl _⟩

/-- One account with two pages is enough for the chain never to be complete. -/
theorem second_page_rejected : ¬ ∀ m : CombinedMailbox, m.Complete ∧ m.KeepsCursors := by
  intro h
  apply not_complete_of_more (m := twoPages) rfl (by decide)
  exact (h twoPages).1

end ElectronicMail.Mailbox
