import ElectronicMail.Mailbox.Snapshot

/-!
# Following a cursor chain

`completeMailboxSnapshot` asks for one page after another until there is no cursor left. A page
that another generation answers starts the chain again from the first page, a bounded number of
times. The requests are answered by `ask`, which is given how many there have been, so that the
server may change between any two of them.
-/

namespace ElectronicMail.Mailbox

open Offline (MailboxLabel)

def maximumAutomaticMailboxPages : Nat := 1000

def maximumMailboxReconciliationRestarts : Nat := 3

inductive MailboxPaginationError where
  | repeatedCursor
  | pageLimitExceeded
  | mismatchedLabel
  | incompleteSnapshot
  | client
  deriving DecidableEq

/-! ## Completeness and identity -/

def isCompleteMailboxSnapshot (mailbox : MailboxResponse) : Bool :=
  mailbox.fullImportRunning != some true &&
    mailbox.completions.fullImportCompleted != some false && mailbox.reachedEnd &&
    decide (mailbox.totalThreads ≤
      max (mailbox.loadedThreads.getD mailbox.visibleRows) mailbox.visibleRows) &&
    decide (mailbox.totalThreads ≤ mailbox.visibleRows)

/-- `validateCompletedMailboxSnapshot`: whether it lets the snapshot through. -/
def validatesCompletedMailboxSnapshot (mailbox : MailboxResponse) : Bool :=
  mailbox.fullImportRunning == some true ||
    mailbox.completions.fullImportCompleted == some false || isCompleteMailboxSnapshot mailbox

def mailboxRevisionsMatch (current page : MailboxResponse) : Bool :=
  nonempty current.mailboxRevision == nonempty page.mailboxRevision

def mailboxPaginationIdentityMatches (current page : MailboxResponse) : Bool :=
  match nonempty current.syncGeneration, nonempty page.syncGeneration with
  | some currentGeneration, some pageGeneration => currentGeneration == pageGeneration
  | none, none =>
    current.totalThreads == page.totalThreads && mailboxRevisionsMatch current page
  | _, _ => false

theorem generation_eq_of_identityMatches {current page : MailboxResponse}
    (h : mailboxPaginationIdentityMatches current page = true) :
    nonempty current.syncGeneration = nonempty page.syncGeneration := by
  unfold mailboxPaginationIdentityMatches at h
  split at h
  · next hcurrent hpage => rw [hcurrent, hpage, eq_of_beq h]
  · next hcurrent hpage => rw [hcurrent, hpage]
  · cases h

/-! ## The chain -/

abbrev Ask := Nat → Option (List Char) → Option MailboxResponse

inductive Outcome where
  | returned (snapshot : MailboxResponse)
  | thrown (error : MailboxPaginationError)
  deriving DecidableEq

/-- A chain under way. `requests` counts the requests that have been sent. -/
structure Chain where
  accumulator : MailboxPageAccumulator
  seenCursors : List (List Char)
  requestedPageCount : Nat
  reconciliationRestartCount : Nat
  requests : Nat

def Chain.start (initialSnapshot : MailboxResponse) : Chain where
  accumulator := .start initialSnapshot
  seenCursors := []
  requestedPageCount := 0
  reconciliationRestartCount := 0
  requests := 0

/-- What happens once there is no cursor left, or to a snapshot that has none. -/
def completed (snapshot : MailboxResponse) : Outcome :=
  if validatesCompletedMailboxSnapshot snapshot then .returned snapshot
  else .thrown .incompleteSnapshot

section Asking

variable (label : MailboxLabel) (ask : Ask)

def Chain.request (c : Chain) (cursor : Option (List Char)) :
    Chain × Except MailboxPaginationError MailboxResponse :=
  ({ c with requests := c.requests + 1 },
    match ask c.requests cursor with
    | none => .error .client
    | some response =>
      if response.label = label then .ok response else .error .mismatchedLabel)

/-- A page of another identity has come: the chain starts again, unless it has too often. -/
def Chain.restart (c : Chain) : Chain × Option Outcome :=
  let counted := { c with reconciliationRestartCount := c.reconciliationRestartCount + 1 }
  if counted.reconciliationRestartCount ≤ maximumMailboxReconciliationRestarts then
    match counted.request label ask none with
    | (sent, .error error) => (sent, some (.thrown error))
    | (sent, .ok restarted) =>
      ({ sent with accumulator := .start restarted, seenCursors := [] }, none)
  else (counted, some (.returned c.accumulator.snapshot))

def Chain.receive (c : Chain) (page : MailboxResponse) : Chain × Option Outcome :=
  if mailboxPaginationIdentityMatches c.accumulator.metadata page then
    ({ c with accumulator := c.accumulator.append page }, none)
  else c.restart label ask

def Chain.follow (c : Chain) (cursor : List Char) : Chain × Option Outcome :=
  if cursor ∈ c.seenCursors then (c, some (.thrown .repeatedCursor))
  else
    let counted : Chain :=
      { c with
        seenCursors := cursor :: c.seenCursors
        requestedPageCount := c.requestedPageCount + 1 }
    if counted.requestedPageCount ≤ maximumAutomaticMailboxPages then
      match counted.request label ask (some cursor) with
      | (sent, .error error) => (sent, some (.thrown error))
      | (sent, .ok page) => sent.receive label ask page
    else (counted, some (.thrown .pageLimitExceeded))

def Chain.turn (c : Chain) : Chain × Option Outcome :=
  match nonempty c.accumulator.metadata.nextCursor with
  | none => (c, some (completed c.accumulator.snapshot))
  | some cursor => c.follow label ask cursor

/-- At most `fuel` turns. -/
def Chain.run : Nat → Chain → Option (Chain × Outcome)
  | 0, _ => none
  | fuel + 1, c =>
    match c.turn label ask with
    | (next, some outcome) => some (next, outcome)
    | (next, none) => Chain.run fuel next

/-- `completeMailboxSnapshot(startingWith:context:)`, with the chain it ends in. -/
def completeMailboxSnapshot (fuel : Nat) (initialSnapshot : MailboxResponse) :
    Option (Chain × Outcome) :=
  match nonempty initialSnapshot.nextCursor with
  | none => some (.start initialSnapshot, completed initialSnapshot)
  | some _ => Chain.run label ask fuel (.start initialSnapshot)

/-! ## Termination -/

variable {label ask}

@[simp]
theorem Chain.request_counts (c : Chain) (cursor : Option (List Char)) :
    (c.request label ask cursor).1 = { c with requests := c.requests + 1 } := rfl

structure Chain.Counted (c : Chain) : Prop where
  pages : c.requestedPageCount ≤ maximumAutomaticMailboxPages
  restarts : c.reconciliationRestartCount ≤ maximumMailboxReconciliationRestarts
  requests : c.requests ≤ c.requestedPageCount + c.reconciliationRestartCount

def Chain.Bounded (c : Chain) : Prop :=
  c.requests ≤ maximumAutomaticMailboxPages +
    min c.reconciliationRestartCount maximumMailboxReconciliationRestarts

variable {c : Chain}

theorem Chain.Counted.bounded (h : c.Counted) : c.Bounded := by
  have hpages := h.pages
  have hrestarts := h.restarts
  have hrequests := h.requests
  unfold Chain.Bounded
  omega

theorem Chain.restart_counts (h : c.Counted) : match (c.restart label ask).2 with
    | some _ => (c.restart label ask).1.Bounded
    | none => (c.restart label ask).1.Counted ∧
        (c.restart label ask).1.requestedPageCount = c.requestedPageCount := by
  obtain ⟨hpages, hrestarts, hrequests⟩ := h
  simp only [Chain.restart]
  by_cases hmore : c.reconciliationRestartCount + 1 ≤ maximumMailboxReconciliationRestarts
  · rw [if_pos hmore]
    cases hanswer : (Chain.request label ask
        { c with reconciliationRestartCount := c.reconciliationRestartCount + 1 } none).2 with
    | error =>
      simp only [Chain.request] at hanswer
      simp only [Chain.request, hanswer, Chain.Bounded]
      omega
    | ok =>
      simp only [Chain.request] at hanswer
      simp only [Chain.request, hanswer]
      refine ⟨⟨hpages, hmore, ?_⟩, trivial⟩
      simp only
      omega
  · rw [if_neg hmore]
    simp only [Chain.Bounded]
    omega

theorem Chain.turn_counts (h : c.Counted) : match (c.turn label ask).2 with
    | some _ => (c.turn label ask).1.Bounded
    | none => (c.turn label ask).1.Counted ∧
        (c.turn label ask).1.requestedPageCount = c.requestedPageCount + 1 := by
  have hbounded := h.bounded
  obtain ⟨hpages, hrestarts, hrequests⟩ := h
  unfold Chain.turn
  cases nonempty c.accumulator.metadata.nextCursor with
  | none => exact hbounded
  | some cursor =>
    simp only [Chain.follow]
    by_cases hseen : cursor ∈ c.seenCursors
    · rw [if_pos hseen]
      exact hbounded
    rw [if_neg hseen]
    by_cases hmore : c.requestedPageCount + 1 ≤ maximumAutomaticMailboxPages
    · rw [if_pos hmore]
      simp only [Chain.request]
      have hcounted : Chain.Counted
          { c with
            seenCursors := cursor :: c.seenCursors
            requestedPageCount := c.requestedPageCount + 1
            requests := c.requests + 1 } := by
        refine ⟨hmore, hrestarts, ?_⟩
        simp only
        omega
      cases hanswer : (match ask c.requests (some cursor) with
          | none => Except.error MailboxPaginationError.client
          | some response =>
            if response.label = label then .ok response
            else .error .mismatchedLabel) with
      | error => exact hcounted.bounded
      | ok page =>
        simp only [Chain.receive]
        by_cases hidentity : mailboxPaginationIdentityMatches c.accumulator.metadata page
        · rw [if_pos hidentity]
          exact ⟨⟨hmore, hrestarts, hcounted.requests⟩, rfl⟩
        · rw [if_neg hidentity]
          exact Chain.restart_counts hcounted
    · rw [if_neg hmore]
      exact hbounded

variable {fuel : Nat}

theorem Chain.run_ends (h : c.Counted)
    (hfuel : maximumAutomaticMailboxPages < c.requestedPageCount + fuel) :
    ∃ final outcome, Chain.run label ask fuel c = some (final, outcome) ∧ final.Bounded := by
  induction fuel generalizing c with
  | zero =>
    have hpages := h.pages
    omega
  | succ fuel ih =>
    have hturn := @Chain.turn_counts label ask _ h
    unfold Chain.run
    cases hresult : c.turn label ask with
    | mk next outcome =>
      rw [hresult] at hturn
      cases outcome with
      | some outcome => exact ⟨next, outcome, rfl, hturn⟩
      | none =>
        obtain ⟨hcounted, hnext⟩ := hturn
        apply ih hcounted
        rw [hnext]
        omega

/-- What holds of a chain turn by turn, or of the outcome that a turn ends with. -/
def Settles (I : Chain → Prop) (Q : Outcome → Prop) : Chain × Option Outcome → Prop
  | (next, none) => I next
  | (_, some outcome) => Q outcome

theorem Chain.outcome_of_turn {I : Chain → Prop} {Q : Outcome → Prop}
    (hturn : ∀ c, I c → Settles I Q (c.turn label ask)) {final : Chain} {outcome : Outcome}
    (hc : I c) (hrun : Chain.run label ask fuel c = some (final, outcome)) : Q outcome := by
  induction fuel generalizing c with
  | zero => cases hrun
  | succ fuel ih =>
    have hnext := hturn c hc
    unfold Chain.run at hrun
    split at hrun
    · next hresult =>
        cases hrun
        rw [hresult] at hnext
        exact hnext
    · next hresult =>
        rw [hresult] at hnext
        exact ih hnext hrun

theorem Chain.counted_start (initialSnapshot : MailboxResponse) :
    (Chain.start initialSnapshot).Counted :=
  ⟨Nat.zero_le _, Nat.zero_le _, Nat.le_refl _⟩

variable (label ask) in
theorem completeMailboxSnapshot_ends (hfuel : maximumAutomaticMailboxPages < fuel)
    (initialSnapshot : MailboxResponse) :
    ∃ final outcome, completeMailboxSnapshot label ask fuel initialSnapshot =
      some (final, outcome) ∧ final.Bounded := by
  unfold completeMailboxSnapshot
  cases nonempty initialSnapshot.nextCursor with
  | none => exact ⟨_, _, rfl, (Chain.counted_start initialSnapshot).bounded⟩
  | some =>
    apply Chain.run_ends (Chain.counted_start initialSnapshot)
    simpa [Chain.start] using hfuel

end Asking

end ElectronicMail.Mailbox
