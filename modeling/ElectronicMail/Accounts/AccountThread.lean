import ElectronicMail.Foundations.Json
import ElectronicMail.Accounts.ReplyMessage

/-!
# A thread of a linked account

`build_account_thread_response` shows a page of the answer of `threads.get`. Its messages go
through `_thread_message_from_gmail`, which hands `reader_html_render_document` on, a name that
is bound nowhere. `pages_iff` says which threads can be paged through then.
-/

namespace ElectronicMail.Accounts

open Foundations

/-! ## The response -/

inductive Raised where
  | valueError (text : String)
  | typeError
  | nameError (name : String)
  | other (text : String)

/-- What the call relies on, for records of a type: `_record_from_payload`, the key of the sort,
the markup of the reader for the body and the render document, and
`build_thread_message_reader`. -/
structure ThreadLibrary (ρ : Type) where
  recordFromPayload : List (String × Json) → Except Raised ρ
  sortKey : ρ → String
  readerMarkup : ρ → Except Raised (Option String × Option String)
  messageReader : ρ → Option String → Option String → String

/-- A `ThreadMessage`, by its record. -/
structure ShownMessage (ρ : Type) where
  record : ρ
  htmlBody : Option String
  htmlRenderDocument : Option String
  reader : String

structure ThreadPage (ρ : Type) where
  totalMessages : Nat
  limit : Nat
  offset : Nat
  hasMore : Bool
  messages : List (ShownMessage ρ)

/-- What `_thread_message_from_gmail` has bound itself. The module binds no name that starts with
`reader_html`. -/
def boundNames : List String := ["html_body", "html_render_document"]

def nameValue {α : Type} (name : String) (value : α) : Except Raised α :=
  if name ∈ boundNames then .ok value else .error (.nameError name)

/-- The elements of `raw_messages` that are messages, where they can be iterated over. -/
def messageDicts (raw : Json) : Except Raised (List (List (String × Json))) :=
  match raw with
  | .list items => .ok (items.filterMap fun item =>
      match item with
      | .dict fields => some fields
      | _ => none)
  | .text _ => .ok []
  | .dict _ => .ok []
  | _ => .error .typeError

section Build

variable {ρ : Type} (lib : ThreadLibrary ρ)

def threadMessageFromGmail (record : ρ) : Except Raised (ShownMessage ρ) := do
  let (htmlBody, htmlRenderDocument) ← lib.readerMarkup record
  let readerDocument ← nameValue "reader_html_render_document" htmlRenderDocument
  let readerBody ← nameValue "reader_html_body" htmlBody
  return ⟨record, htmlBody, htmlRenderDocument, lib.messageReader record readerDocument readerBody⟩

/-- `records`, in order. -/
def threadRecords (payload : Json) : Except Raised (List ρ) := do
  let dicts ← messageDicts (payload.get "messages")
  let records ← dicts.mapM lib.recordFromPayload
  return records.insertionSort fun a b => lib.sortKey a ≤ lib.sortKey b

/-- The call, from the answer of `threads.get`. -/
def buildAccountThreadResponse (gmailAccountId gmailThreadId : String) (payload : Json)
    (limit offset : Nat) : Except Raised (ThreadPage ρ) := do
  if (parseScopedThreadId gmailThreadId).any fun parsed => parsed.1 ≠ gmailAccountId then
    throw (.valueError "Thread belongs to a different Gmail account")
  let records ← threadRecords lib payload
  let page := (records.drop offset).take limit
  let messages ← page.mapM (threadMessageFromGmail lib)
  return ⟨records.length, limit, offset, offset + page.length < records.length, messages⟩

/-! ## Paging -/

/-- No offset raises, and the pages from the start, until there are no more, show every message
once and in order, with the reader text of what is shown. -/
structure PagesExactly (gmailAccountId gmailThreadId : String) (payload : Json) (limit : Nat) :
    Prop where
  answers : ∀ offset, ∃ page,
    buildAccountThreadResponse lib gmailAccountId gmailThreadId payload limit offset = .ok page
  pages : ∃ records, threadRecords lib payload = .ok records ∧
    ∃ pages : List (ThreadPage ρ), pages ≠ [] ∧
      (∀ i page, pages[i]? = some page →
        buildAccountThreadResponse lib gmailAccountId gmailThreadId payload limit (i * limit) =
          .ok page ∧ page.hasMore = decide (i + 1 < pages.length)) ∧
      (pages.flatMap ThreadPage.messages).map ShownMessage.record = records ∧
      ∀ m ∈ pages.flatMap ThreadPage.messages,
        m.reader = lib.messageReader m.record m.htmlRenderDocument m.htmlBody

theorem mapM_cons_ok {α β : Type} {f : α → Except Raised β} {a : α} {as : List α} {bs : List β}
    (h : (a :: as).mapM f = .ok bs) : ∃ b, f a = .ok b ∧ bs ≠ [] := by
  rw [List.mapM_cons] at h
  cases hb : f a with
  | error e =>
    rw [hb] at h
    cases h
  | ok b =>
    cases hrest : as.mapM f with
    | error e =>
      rw [hb, hrest] at h
      cases h
    | ok rest =>
      rw [hb, hrest] at h
      cases h
      exact ⟨b, rfl, List.cons_ne_nil b rest⟩

theorem threadMessageFromGmail_raises (record : ρ) (m : ShownMessage ρ) :
    threadMessageFromGmail lib record ≠ .ok m := by
  unfold threadMessageFromGmail
  cases lib.readerMarkup record with
  | error e => nofun
  | ok markup =>
    have hname : nameValue "reader_html_render_document" markup.2 =
        .error (.nameError "reader_html_render_document") := if_neg (by decide)
    simp only [bind, Except.bind, hname]
    nofun

variable {gmailAccountId gmailThreadId : String}

theorem build_of_no_messages {payload : Json}
    (hthread : ∀ parsed ∈ parseScopedThreadId gmailThreadId, parsed.1 = gmailAccountId)
    (hnone : messageDicts (payload.get "messages") = .ok []) (limit offset : Nat) :
    buildAccountThreadResponse lib gmailAccountId gmailThreadId payload limit offset =
      .ok ⟨0, limit, offset, false, []⟩ := by
  have hown : ¬ ((parseScopedThreadId gmailThreadId).any fun parsed =>
      parsed.1 ≠ gmailAccountId) = true := by
    cases hparsed : parseScopedThreadId gmailThreadId with
    | none => simp
    | some parsed => simp [hthread parsed hparsed]
  have hrecords : threadRecords lib payload = .ok [] := by
    unfold threadRecords
    rw [hnone]
    rfl
  unfold buildAccountThreadResponse
  rw [if_neg hown, hrecords]
  simp only [bind, Except.bind, pure, Except.pure, List.drop_nil, List.take_nil, List.mapM_nil,
    List.length_nil]
  simp

theorem build_of_message {payload : Json} {fields : List (String × Json)}
    {dicts : List (List (String × Json))} {limit : Nat}
    (hsome : messageDicts (payload.get "messages") = .ok (fields :: dicts)) (hlimit : 0 < limit)
    (page : ThreadPage ρ) :
    buildAccountThreadResponse lib gmailAccountId gmailThreadId payload limit 0 ≠ .ok page := by
  intro hpage
  unfold buildAccountThreadResponse at hpage
  split at hpage
  · cases hpage
  unfold threadRecords at hpage
  rw [hsome] at hpage
  cases hrecords : (fields :: dicts).mapM lib.recordFromPayload with
  | error e =>
    simp only [bind, Except.bind, hrecords] at hpage
    cases hpage
  | ok records =>
    obtain ⟨-, -, hne⟩ := mapM_cons_ok hrecords
    have hsorted : records.insertionSort (fun a b => lib.sortKey a ≤ lib.sortKey b) ≠ [] := by
      intro hnil
      have hperm := List.perm_insertionSort (fun a b => lib.sortKey a ≤ lib.sortKey b) records
      rw [hnil] at hperm
      exact hne hperm.symm.eq_nil
    obtain ⟨first, rest, hfirst⟩ := List.exists_cons_of_ne_nil hsorted
    obtain ⟨n, rfl⟩ := Nat.exists_eq_succ_of_ne_zero hlimit.ne'
    simp only [bind, Except.bind, pure, Except.pure, hrecords, hfirst, List.drop_zero,
      List.take_succ_cons] at hpage
    cases hmessages : (first :: rest.take n).mapM (threadMessageFromGmail lib) with
    | error e =>
      rw [hmessages] at hpage
      cases hpage
    | ok =>
      obtain ⟨m, hm, -⟩ := mapM_cons_ok hmessages
      exact threadMessageFromGmail_raises lib first m hm

/-- **Which threads can be paged through**: those of the account whose answer has messages to
iterate over, none of which is a message. -/
theorem pages_iff (gmailAccountId gmailThreadId : String) (payload : Json) {limit : Nat}
    (hlimit : 0 < limit) :
    PagesExactly lib gmailAccountId gmailThreadId payload limit ↔
      (∀ parsed ∈ parseScopedThreadId gmailThreadId, parsed.1 = gmailAccountId) ∧
        messageDicts (payload.get "messages") = .ok [] := by
  constructor
  · intro h
    obtain ⟨page, hpage⟩ := h.answers 0
    obtain ⟨records, hrecords, -⟩ := h.pages
    refine ⟨?_, ?_⟩
    · intro parsed hparsed
      by_contra hother
      unfold buildAccountThreadResponse at hpage
      rw [hparsed, if_pos (by simpa using hother)] at hpage
      cases hpage
    · cases hdicts : messageDicts (payload.get "messages") with
      | error e =>
        rw [threadRecords, hdicts] at hrecords
        cases hrecords
      | ok dicts =>
        cases dicts with
        | nil => rfl
        | cons => exact absurd hpage (build_of_message lib hdicts hlimit page)
  · rintro ⟨hthread, hnone⟩
    have hbuild := build_of_no_messages lib hthread hnone limit
    refine ⟨fun offset => ⟨_, hbuild offset⟩, [], ?_, [⟨0, limit, 0, false, []⟩],
      List.cons_ne_nil _ _, ?_, rfl, nofun⟩
    · unfold threadRecords
      rw [hnone]
      rfl
    · intro i page hpage
      cases i with
      | zero =>
        cases hpage
        exact ⟨(Nat.zero_mul limit).symm ▸ hbuild 0, rfl⟩
      | succ i => cases hpage

end Build

def idLibrary : ThreadLibrary String where
  recordFromPayload := fun fields =>
    match fields.lookup "id" with
    | some (.text id) => .ok id
    | _ => .error (.other "KeyError")
  sortKey := id
  readerMarkup := fun _ => .ok (none, none)
  messageReader := fun record _ _ => record

/-- An answer of `threads.get`. -/
def threadOf (messages : List Json) : Json :=
  .dict [("id", .text "t1"), ("messages", .list messages)]

/-- The first message of a thread raises. -/
theorem first_message_raises :
    ¬ PagesExactly idLibrary "a1" "t1" (threadOf [.dict [("id", .text "m1")]]) 50 := by
  intro h
  obtain ⟨page, hpage⟩ := h.answers 0
  exact build_of_message idLibrary rfl (by decide) page hpage

theorem empty_thread_pages : PagesExactly idLibrary "a1" "t1" (threadOf []) 50 := by
  refine (pages_iff idLibrary "a1" "t1" (threadOf []) (by decide)).2 ⟨?_, rfl⟩
  have hplain : parseScopedThreadId "t1" = none := by decide +kernel
  rw [hplain]
  nofun

end ElectronicMail.Accounts
