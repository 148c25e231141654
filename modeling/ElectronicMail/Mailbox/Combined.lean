import Mathlib.Algebra.Ring.Int.Defs
import Mathlib.Data.List.Sort
import ElectronicMail.Mailbox.Snapshot

/-!
# Mailboxes of several accounts

In the combined scope the client puts the first pages of all accounts together into one page, and
then asks the primary account alone for more. A cursor is wrapped with the route of the mailbox
that issued it and is sent back to that mailbox only (`mailboxCursor_wrapped`).
-/

namespace ElectronicMail.Mailbox

/-! ## Accounts and routes -/

structure GmailAccount where
  id : List Char
  email : String
  isMailboxReadable : Bool
  isPrimary : Bool

structure GmailAccountsResponse where
  accounts : List GmailAccount
  primaryGmailAccountID : List Char

inductive MailboxViewScope where
  | combined
  | gmail (accountID : List Char)
  deriving DecidableEq

inductive MailboxRoute where
  | primary
  | account (id : List Char)
  deriving DecidableEq

def primaryText : List Char := ['p', 'r', 'i', 'm', 'a', 'r', 'y']

def accountText : List Char := ['a', 'c', 'c', 'o', 'u', 'n', 't', ':']

def scopeText : List Char := ['s', 'c', 'o', 'p', 'e']

def MailboxRoute.text : MailboxRoute → List Char
  | .primary => primaryText
  | .account id => accountText ++ id

def wrappedMailboxCursor (cursor : Option (List Char)) (route : MailboxRoute) :
    Option (List Char) :=
  (nonempty cursor).map fun cursor => scopeText ++ '|' :: (route.text ++ '|' :: cursor)

def splitBar (text : List Char) : Option (List Char × List Char) :=
  match text.dropWhile (· ≠ '|') with
  | [] => none
  | _ :: rest => some (text.takeWhile (· ≠ '|'), rest)

/-- `mailboxCursor`: the cursor that is sent to the mailbox of the route. -/
def mailboxCursor (cursor : Option (List Char)) (expectedRoute : MailboxRoute) :
    Option (Option (List Char)) :=
  match nonempty cursor with
  | none => some none
  | some cursor =>
    match splitBar cursor with
    | none => none
    | some (first, rest) =>
      match splitBar rest with
      | none => none
      | some (route, provider) =>
        if first = scopeText ∧ route = expectedRoute.text then some (some provider)
        else none

/-! ## One page of several -/

def GmailThreadRow.sortDate (row : GmailThreadRow) : String :=
  row.latestMessageAt.getD row.latestReceivedAt

def titledRows (responses : List MailboxResponse) : List (String × GmailThreadRow) :=
  responses.flatMap fun response =>
    response.sections.flatMap fun section_ => section_.rows.map fun row => (section_.title, row)

/-- `titleByThreadID[threadID] ?? "Earlier"`, where the last row of a thread has set the title. -/
def titleOf (titled : List (String × GmailThreadRow)) (threadId : String) : String :=
  ((titled.reverse.find? fun entry => entry.2.threadId = threadId).map Prod.fst).getD "Earlier"

/-- A row goes under the last section when that has its title, and else under a new one. -/
def placeRow (title : String) (sections : List GmailThreadSection) (row : GmailThreadRow) :
    List GmailThreadSection :=
  match sections.getLast? with
  | some last =>
    if last.title = title then sections.dropLast ++ [{ last with rows := last.rows ++ [row] }]
    else sections ++
      [⟨"combined:" ++ toString sections.length ++ ":" ++ row.threadId, title, [row]⟩]
  | none => [⟨"combined:" ++ toString sections.length ++ ":" ++ row.threadId, title, [row]⟩]

def laterTimestamp (a b : Offline.Timestamp) : Offline.Timestamp :=
  if a.text < b.text then b else a

/-- The number that stands for the phase `ready`. -/
def readyPhase : Nat := 0

/-- `combinedForPresentation`, of at least one response. -/
def combinedForPresentation (first : MailboxResponse) (others : List MailboxResponse)
    (primaryNextCursor : Option (List Char)) (accountWarnings : List String) : MailboxResponse :=
  let responses := first :: others
  let titled := titledRows responses
  let rows := (titled.map Prod.snd).insertionSort fun a b => b.sortDate ≤ a.sortDate
  { label := first.label
    totalThreads := (responses.map MailboxResponse.totalThreads).sum
    unreadThreads := some (responses.map fun response => response.unreadThreads.getD 0).sum
    nextCursor := primaryNextCursor
    loadedThreads := some rows.length
    windowDays := none
    sections := rows.foldl (fun sections row => placeRow (titleOf titled row.threadId) sections row)
      []
    counts :=
      { readyCount := some rows.length
        initialTargetCount := none
        initialMetadataCount := none
        initialBodyTargetCount := none
        initialBodyReadyCount := none
        historyMetadataCount := none
        historyBodyReadyCount := none
        estimatedTotalCount := none }
    pendingCount := some 0
    mailboxRevision := some
      (List.intercalate ['+'] (responses.filterMap MailboxResponse.mailboxRevision))
    generatedAt := (responses.filterMap MailboxResponse.generatedAt).foldl
      (fun latest time => some ((latest.map (laterTimestamp · time)).getD time)) none
    oldestImportedAt := none
    fullImportRunning := some false
    completions := ⟨some true, some true, none, none⟩
    syncGeneration := none
    phase := some readyPhase
    lastProgressAt := none
    accountWarnings := some accountWarnings }

/-! ## The client -/

/-- The answers to requests for pages of one label; `none` is a request that fails. -/
abbrev MailboxServers := MailboxRoute → Option (List Char) → Option MailboxResponse

/-- The accounts beside the primary one that are asked in the combined scope. -/
def GmailAccountsResponse.others (accounts : GmailAccountsResponse) : List GmailAccount :=
  accounts.accounts.filter fun account => account.isMailboxReadable && !account.isPrimary

def loadWarning (email : String) : String :=
  "Could not load " ++ email ++ ". Other accounts remain available."

def combinedPage (accounts : GmailAccountsResponse) (servers : MailboxServers) :
    Option MailboxResponse :=
  let primary := servers .primary none
  let primaryNextCursor := primary.bind MailboxResponse.nextCursor
  let email := ((accounts.accounts.find? GmailAccount.isPrimary).map GmailAccount.email).getD
    "primary Gmail"
  let warnings := (if primary.isNone then [loadWarning email] else []) ++
    (accounts.others.filter fun account => (servers (.account account.id) none).isNone).map
      fun account => loadWarning account.email
  match primary.toList ++
      accounts.others.filterMap (fun account => servers (.account account.id) none) with
  | [] => none
  | first :: others =>
    some
      { combinedForPresentation first others primaryNextCursor warnings with
        nextCursor := wrappedMailboxCursor primaryNextCursor .primary }

def MailboxViewScope.route (accounts : GmailAccountsResponse) : MailboxViewScope → MailboxRoute
  | .combined => .primary
  | .gmail accountID =>
    if accountID ≠ accounts.primaryGmailAccountID then .account accountID else .primary

def routedPage (servers : MailboxServers) (route : MailboxRoute) (cursor : Option (List Char)) :
    Option MailboxResponse :=
  (mailboxCursor cursor route).bind fun provider =>
    (servers route provider).map fun response =>
      { response with nextCursor := wrappedMailboxCursor response.nextCursor route }

def mailbox (accounts : Option GmailAccountsResponse) (scope : MailboxViewScope)
    (servers : MailboxServers) (cursor : Option (List Char)) : Option MailboxResponse :=
  match accounts with
  | none => servers .primary cursor
  | some accounts =>
    if scope = .combined ∧ cursor = none then combinedPage accounts servers
    else routedPage servers (scope.route accounts) cursor

/-- The requests that `AppClient.mailbox` sends, once accounts are configured. -/
def sentRequests (accounts : GmailAccountsResponse) (scope : MailboxViewScope)
    (cursor : Option (List Char)) : List (MailboxRoute × Option (List Char)) :=
  if scope = .combined ∧ cursor = none then
    (.primary, none) :: accounts.others.map fun account => (.account account.id, none)
  else
    (mailboxCursor cursor (scope.route accounts)).toList.map fun provider =>
      (scope.route accounts, provider)

/-! ## Cursors go back to their mailbox -/

def MailboxRoute.Plain : MailboxRoute → Prop
  | .primary => True
  | .account id => '|' ∉ id

variable {route : MailboxRoute}

theorem MailboxRoute.bar_not_mem_text (h : route.Plain) : '|' ∉ route.text := by
  cases route with
  | primary =>
    show '|' ∉ primaryText
    decide
  | account id =>
    intro hin
    rcases List.mem_append.1 hin with hin | hin
    · simp [accountText] at hin
    · exact h hin

theorem MailboxRoute.text_inj {other : MailboxRoute} (h : route.text = other.text) :
    route = other := by
  cases route with
  | primary =>
    cases other with
    | primary => rfl
    | account id => simp [MailboxRoute.text, primaryText, accountText] at h
  | account id =>
    cases other with
    | primary => simp [MailboxRoute.text, primaryText, accountText] at h
    | account => rw [List.append_cancel_left h]

theorem splitBar_append {text rest : List Char} (h : '|' ∉ text) :
    splitBar (text ++ '|' :: rest) = some (text, rest) := by
  have hkeep : ∀ c ∈ text, (c ≠ '|') = True := by
    intro c hc
    simp only [ne_eq, eq_iff_iff, iff_true]
    rintro rfl
    exact h hc
  unfold splitBar
  rw [List.dropWhile_append_of_pos (by simpa using hkeep),
    List.takeWhile_append_of_pos (by simpa using hkeep)]
  simp

theorem mailboxCursor_wrapped {expected : MailboxRoute} (hroute : route.Plain)
    {cursor wrapped : List Char} (h : wrappedMailboxCursor (some cursor) route = some wrapped) :
    mailboxCursor (some wrapped) expected =
      if route = expected then some (some cursor) else none := by
  unfold wrappedMailboxCursor at h
  cases hcursor : nonempty (some cursor) with
  | none =>
    rw [hcursor] at h
    cases h
  | some text =>
    have htext : text = cursor := by
      have hfilter := Option.filter_eq_some_iff.1 hcursor
      exact (Option.some.inj hfilter.1).symm
    rw [hcursor, htext, Option.map_some] at h
    obtain rfl := Option.some.inj h
    have hwhole : nonempty (some (scopeText ++ '|' :: (route.text ++ '|' :: cursor))) =
        some (scopeText ++ '|' :: (route.text ++ '|' :: cursor)) := by
      simp [nonempty]
    have hfirst : splitBar (scopeText ++ '|' :: (route.text ++ '|' :: cursor)) =
        some (scopeText, route.text ++ '|' :: cursor) := by
      apply splitBar_append
      simp [scopeText]
    unfold mailboxCursor
    rw [hwhole]
    simp only [hfirst, splitBar_append (MailboxRoute.bar_not_mem_text hroute), true_and]
    by_cases heq : route = expected
    · simp [heq]
    · rw [if_neg (fun htexts => heq (MailboxRoute.text_inj htexts)), if_neg heq]

end ElectronicMail.Mailbox
