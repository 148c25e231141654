import Mathlib.Data.List.Dedup
import Mathlib.Data.List.Perm.Basic
import ElectronicMail.Listing.Cursor

/-!
# Order generations of Gmail conversations

The tables a mailbox page reads, those of one Gmail account: the messages, the
published orders of `gmail_thread_order_state` and their ranked entries.
`replaceGmailThreadOrders` publishes a generation for some labels and keeps the one
before it; `resolveGmailThreadOrderGeneration` chooses the generation of a page.

The lemmas say what a publication does to the generation that was active
(`Active.publish`), to one that is retained, and to the other labels
(`publish_other`).
-/

namespace ElectronicMail.Listing

open Foundations

/-! ## Tables -/

/-- The columns of `gmail_messages` that a page filters, groups or orders by. -/
structure Message where
  messageId : String
  gmailThreadId : Option String
  labelIds : List String
  internalDate : Option Timestamp
  updatedAt : Timestamp
  subject : Option String
  sender : Option String
  snippet : Option String
  textBody : Option String
  recipients : Option String
  messageId_ne : messageId ≠ ""

/-- `COALESCE(NULLIF(gmail_thread_id, ''), message_id)`. -/
def Message.threadKey (message : Message) : String :=
  match message.gmailThreadId with
  | none => message.messageId
  | some threadId => if threadId = "" then message.messageId else threadId

/-- `COALESCE(internal_date, updated_at)`. -/
def Message.sortDate (message : Message) : Timestamp :=
  message.internalDate.getD message.updatedAt

theorem Message.threadKey_ne (message : Message) : message.threadKey ≠ "" := by
  unfold Message.threadKey
  split
  · exact message.messageId_ne
  split
  · exact message.messageId_ne
  · assumption

/-- A row of `gmail_thread_order_entries`. -/
structure OrderEntry where
  label : String
  generationId : String
  gmailThreadId : String
  position : Nat

def OrderEntry.key (entry : OrderEntry) : String × String × String :=
  (entry.label, entry.generationId, entry.gmailThreadId)

/-- A row of `gmail_thread_order_state`; a generation id is the text of a UUID. -/
structure OrderState where
  activeGenerationId : String
  previousGenerationId : Option String
  active_ne : activeGenerationId ≠ ""
  previous_ne : previousGenerationId ≠ some ""

structure Mailbox where
  messages : List Message
  orderState : String → Option OrderState
  entries : List OrderEntry
  entries_key : (entries.map OrderEntry.key).Nodup

def Mailbox.Retained (m : Mailbox) (label generationId : String) : Prop :=
  ∃ state ∈ m.orderState label,
    generationId = state.activeGenerationId ∨ some generationId = state.previousGenerationId

def Mailbox.Active (m : Mailbox) (label generationId : String) : Prop :=
  ∃ state ∈ m.orderState label, generationId = state.activeGenerationId

variable {m : Mailbox} {label generationId : String}

theorem Mailbox.Active.retained (h : m.Active label generationId) :
    m.Retained label generationId := by
  obtain ⟨state, hstate, rfl⟩ := h
  exact ⟨state, hstate, Or.inl rfl⟩

def Mailbox.position (m : Mailbox) (label generationId threadKey : String) : Option Nat :=
  (m.entries.find? fun entry => entry.key = (label, generationId, threadKey)).map
    OrderEntry.position

/-! ## Publishing -/

/-- `dict.fromkeys(ids)`: the first occurrence of each. -/
def fromkeys (ids : List String) : List String :=
  ids.foldl (fun seen id => if id ∈ seen then seen else seen ++ [id]) []

def newEntries (label generationId : String) (threadIds : List String) : List OrderEntry :=
  threadIds.zipIdx.map fun entry => ⟨label, generationId, entry.1, entry.2⟩

/-- The state row after `ON CONFLICT … DO UPDATE`. -/
def publishedState (generationId : String) (hne : generationId ≠ "") (before : Option OrderState) :
    OrderState where
  activeGenerationId := generationId
  previousGenerationId := before.map OrderState.activeGenerationId
  active_ne := hne
  previous_ne := by
    cases before with
    | none => simp
    | some state => simpa using state.active_ne

/-- The generations that are kept: the new one and the one that was active. -/
def keepGenerations (generationId : String) (before : Option OrderState) : List String :=
  generationId :: (before.map OrderState.activeGenerationId).toList

/-- `DELETE … WHERE label = :label AND NOT (generation_id = ANY(:keep_generations))`. -/
def dropGenerations (label : String) (keep : List String) (entries : List OrderEntry) :
    List OrderEntry :=
  entries.filter fun entry => !(entry.label = label && !keep.contains entry.generationId)

/-- One turn of the loop over the labels; nothing when an entry violates the primary
key. -/
def publish (label generationId : String) (hne : generationId ≠ "") (threadIds : List String)
    (m : Mailbox) : Option Mailbox :=
  let inserted := m.entries ++ newEntries label generationId threadIds
  let keep := keepGenerations generationId (m.orderState label)
  if h : (inserted.map OrderEntry.key).Nodup then
    some
      { messages := m.messages
        orderState := fun l =>
          if l = label then some (publishedState generationId hne (m.orderState label))
          else m.orderState l
        entries := dropGenerations label keep inserted
        entries_key := h.sublist (List.filter_sublist.map OrderEntry.key) }
  else none

/-- `sorted(normalized)` runs over these, those that are given. -/
def sortedLabels : List String :=
  ["all", "archive", "drafts", "inbox", "sent", "spam", "starred", "trash"]

/-- The thread ids a label ends up with in `normalized`; a later key that is
normalised to the same label replaces an earlier one. -/
def normalizedOrder (orderedThreadIdsByLabel : List (String × List String)) (label : String) :
    Option (List String) :=
  (orderedThreadIdsByLabel.reverse.find? fun item => normalizedMailboxLabel item.1 = label).map
    fun item => fromkeys (item.2.filter fun threadId => threadId ≠ "")

/-- The ids that `uuid4` gives to the labels of one call. -/
structure GenerationIds where
  id : String → String
  id_ne : ∀ label, id label ≠ ""

def publishLabel (ids : GenerationIds) (orderedThreadIdsByLabel : List (String × List String))
    (m : Mailbox) (label : String) : Option Mailbox :=
  match normalizedOrder orderedThreadIdsByLabel label with
  | none => some m
  | some threadIds => publish label (ids.id label) (ids.id_ne label) threadIds m

/-- `replace_gmail_thread_orders`: one transaction, after every label is checked. -/
def replaceGmailThreadOrders (ids : GenerationIds)
    (orderedThreadIdsByLabel : List (String × List String)) (m : Mailbox) : Mailbox :=
  if orderedThreadIdsByLabel.all
      (fun item => normalizedMailboxLabel item.1 = Text.lower (Text.strip item.1)) then
    (sortedLabels.foldlM (publishLabel ids orderedThreadIdsByLabel) m).getD m
  else m

/-! ## Resolving -/

/-- The thread keys of `eligible_threads`. -/
def eligibleThreads (eligible : Message → Bool) (messages : List Message) : List String :=
  ((messages.filter eligible).map Message.threadKey).dedup

theorem mem_eligibleThreads {eligible : Message → Bool} {messages : List Message} {key : String} :
    key ∈ eligibleThreads eligible messages ↔
      ∃ message ∈ messages, eligible message = true ∧ message.threadKey = key := by
  simp [eligibleThreads, and_assoc]

theorem nodup_eligibleThreads (eligible : Message → Bool) (messages : List Message) :
    (eligibleThreads eligible messages).Nodup := List.nodup_dedup _

def missingRank (m : Mailbox) (label generationId : String) : Bool :=
  (eligibleThreads (fun message => mailboxLabelClause label message.labelIds) m.messages).any
    fun key => (m.position label generationId key).isNone

def resolveGmailThreadOrderGeneration (m : Mailbox) (label : String)
    (cursorGenerationId : Option String) : Except MailboxCursorError (Option String) :=
  let mailboxLabel := normalizedMailboxLabel label
  match m.orderState mailboxLabel, cursorGenerationId with
  | none, none => .ok none
  | none, some _ => .error expiredCursor
  | some state, some generationId =>
    if generationId = state.activeGenerationId ∨
        some generationId = state.previousGenerationId then .ok (some generationId)
    else .error expiredCursor
  | some state, none =>
    .ok (if missingRank m mailboxLabel state.activeGenerationId then none
      else some state.activeGenerationId)

theorem resolve_of_retained (h : m.Retained (normalizedMailboxLabel label) generationId) :
    resolveGmailThreadOrderGeneration m label (some generationId) = .ok (some generationId) := by
  obtain ⟨state, hstate, hid⟩ := h
  rw [Option.mem_def] at hstate
  simp only [resolveGmailThreadOrderGeneration, hstate]
  exact if_pos hid

theorem resolve_first
    (h : resolveGmailThreadOrderGeneration m label none = .ok (some generationId)) :
    m.Active (normalizedMailboxLabel label) generationId ∧
      missingRank m (normalizedMailboxLabel label) generationId = false := by
  simp only [resolveGmailThreadOrderGeneration] at h
  cases hstate : m.orderState (normalizedMailboxLabel label) with
  | none =>
    rw [hstate] at h
    cases h
  | some state =>
    rw [hstate] at h
    simp only [Except.ok.injEq] at h
    split at h
    · cases h
    rename_i hrank
    obtain rfl := Option.some.inj h
    exact ⟨⟨state, hstate, rfl⟩, Bool.eq_false_iff.2 hrank⟩

theorem resolve_first_ok (m : Mailbox) (label : String) :
    ∃ generation, resolveGmailThreadOrderGeneration m label none = .ok generation := by
  simp only [resolveGmailThreadOrderGeneration]
  cases m.orderState (normalizedMailboxLabel label) with
  | none | some => exact ⟨_, rfl⟩

/-! ## What a publication keeps -/

def SameRanks (label generationId : String) (m m' : Mailbox) : Prop :=
  ∀ entry : OrderEntry, entry.label = label → entry.generationId = generationId →
    (entry ∈ m'.entries ↔ entry ∈ m.entries)

theorem SameRanks.trans {a b c : Mailbox} (h : SameRanks label generationId a b)
    (h' : SameRanks label generationId b c) : SameRanks label generationId a c := by
  intro entry hlabel hgeneration
  rw [h' entry hlabel hgeneration, h entry hlabel hgeneration]

theorem mem_newEntries {threadIds : List String} {entry : OrderEntry}
    (h : entry ∈ newEntries label generationId threadIds) :
    entry.label = label ∧ entry.generationId = generationId := by
  obtain ⟨item, -, rfl⟩ := List.mem_map.1 h
  exact ⟨rfl, rfl⟩

theorem position_eq_some_iff {key : String} {position : Nat} :
    m.position label generationId key = some position ↔
      (⟨label, generationId, key, position⟩ : OrderEntry) ∈ m.entries := by
  unfold Mailbox.position
  constructor
  · intro h
    obtain ⟨entry, hfind, rfl⟩ := Option.map_eq_some_iff.1 h
    have hmem := List.mem_of_find?_eq_some hfind
    have hkey : entry.key = (label, generationId, key) := by
      simpa using List.find?_some hfind
    obtain ⟨l, g, t, p⟩ := entry
    simp only [OrderEntry.key, Prod.mk.injEq] at hkey
    obtain ⟨rfl, rfl, rfl⟩ := hkey
    exact hmem
  · intro h
    cases hfind : m.entries.find? fun entry => entry.key = (label, generationId, key) with
    | none =>
      rw [List.find?_eq_none] at hfind
      exact absurd (by simp [OrderEntry.key]) (hfind _ h)
    | some entry =>
      have hmem := List.mem_of_find?_eq_some hfind
      have hkey : entry.key = (label, generationId, key) := by
        simpa using List.find?_some hfind
      have heq := List.inj_on_of_nodup_map m.entries_key hmem h hkey
      rw [heq]
      rfl

theorem SameRanks.position {m' : Mailbox} (h : SameRanks label generationId m m') (key : String) :
    m'.position label generationId key = m.position label generationId key := by
  apply Option.ext
  intro position
  rw [position_eq_some_iff, position_eq_some_iff]
  exact h _ rfl rfl

section Publish

variable {label generationId : String} {hne : generationId ≠ ""} {threadIds : List String}
  {m m' : Mailbox}

theorem publish_other (h : publish label generationId hne threadIds m = some m') {other : String}
    (hother : other ≠ label) :
    m'.orderState other = m.orderState other ∧ ∀ g, SameRanks other g m m' := by
  simp only [publish] at h
  split at h
  · obtain rfl := Option.some.inj h
    refine ⟨if_neg hother, ?_⟩
    intro g entry hlabel _
    have hnew : entry ∉ newEntries label generationId threadIds :=
      fun hmem => hother (hlabel.symm.trans (mem_newEntries hmem).1)
    have hkept : ¬ entry.label = label := fun e => hother (hlabel.symm.trans e)
    simp [dropGenerations, hnew, hkept]
  · cases h

theorem Mailbox.Active.publish (h : publish label generationId hne threadIds m = some m')
    {active : String} (hactive : m.Active label active) (hfresh : generationId ≠ active) :
    m'.Retained label active ∧ SameRanks label active m m' := by
  obtain ⟨state, hstate, rfl⟩ := hactive
  rw [Option.mem_def] at hstate
  simp only [Listing.publish] at h
  split at h
  · obtain rfl := Option.some.inj h
    refine ⟨⟨_, if_pos rfl, Or.inr ?_⟩, ?_⟩
    · simp [publishedState, hstate]
    · intro entry hlabel hgeneration
      have hnew : entry ∉ newEntries label generationId threadIds :=
        fun hmem => hfresh ((mem_newEntries hmem).2.symm.trans hgeneration)
      simp [dropGenerations, keepGenerations, hstate, hnew, hlabel, hgeneration]
  · cases h

end Publish

end ElectronicMail.Listing
