import Mathlib.Data.List.Dedup

/-!
# The mailbox at Gmail

Gmail as the synchronisation sees it: a history of events with increasing ids, of
which `messages.get` reads the last one of a message and `history.list` the ones
after a start id. The history is a list with the newest event first, and grows by
events that `accepts` lets through: a message is added once, and nothing happens to
it after its deletion.

What the proofs use of growth is `Grows`: old events stay and new ones have larger
ids, a message that is alive was alive ever since its first event, and a deletion
stays the last event of its message.
-/

namespace ElectronicMail.Sync

abbrev MessageId := String

inductive Change where
  | added (labels : List String)
  | relabeled (labels : List String)
  | deleted
  deriving DecidableEq

def Change.labels : Change → Option (List String)
  | .added labels => some labels
  | .relabeled labels => some labels
  | .deleted => none

structure Event where
  historyId : Nat
  messageId : MessageId
  change : Change
  deriving DecidableEq

abbrev Mailbox := List Event

/-- The `historyId` of the profile. -/
def currentHistoryId : Mailbox → Nat
  | [] => 0
  | e :: _ => e.historyId

def lastEvent : Mailbox → MessageId → Option Event
  | [], _ => none
  | e :: g, m => if e.messageId = m then some e else lastEvent g m

/-- What `messages.get` returns: the current labels and the id of the last event. -/
structure Snapshot where
  messageId : MessageId
  historyId : Nat
  labels : List String

/-- `messages.get`; `none` is the 404. -/
def getMessage (g : Mailbox) (m : MessageId) : Option Snapshot :=
  (lastEvent g m).bind fun e => e.change.labels.map fun labels => ⟨m, e.historyId, labels⟩

def Alive (g : Mailbox) (m : MessageId) : Prop := (getMessage g m).isSome = true

instance (g : Mailbox) (m : MessageId) : Decidable (Alive g m) :=
  inferInstanceAs (Decidable (_ = true))

def deletedAt (g : Mailbox) (m : MessageId) : Option Nat :=
  (lastEvent g m).bind fun e => if e.change = .deleted then some e.historyId else none

def accepts (g : Mailbox) (e : Event) : Bool :=
  decide (currentHistoryId g < e.historyId) &&
    match e.change with
    | .added _ => (lastEvent g e.messageId).isNone
    | _ => (getMessage g e.messageId).isSome

def WellFormed : Mailbox → Prop
  | [] => True
  | e :: g => accepts g e = true ∧ WellFormed g

/-- The message has an event after `s` and up to `x`. -/
def HasIn (g : Mailbox) (s x : Nat) (m : MessageId) : Prop :=
  ∃ e ∈ g, e.messageId = m ∧ s < e.historyId ∧ e.historyId ≤ x

/-- The message has an event up to `x`. -/
def Has (g : Mailbox) (x : Nat) (m : MessageId) : Prop :=
  ∃ e ∈ g, e.messageId = m ∧ e.historyId ≤ x

/-- The message existed when the history id was `x`. -/
def existedAt (g : Mailbox) (x : Nat) (m : MessageId) : Bool :=
  (getMessage (g.filter fun e => decide (e.historyId ≤ x)) m).isSome

/-! ## `history.list` -/

/-- What `_list_history_delta` returns. -/
structure HistoryDelta where
  messageIds : List MessageId
  deletedMessageIds : List MessageId
  latestHistoryId : Nat

/-- `_list_history_delta` from a start id, over the events of all pages. -/
def listHistory (g : Mailbox) (start : Nat) : HistoryDelta :=
  let window := g.filter fun e => decide (start < e.historyId)
  let deleted := (window.filter fun e => decide (e.change = .deleted)).map Event.messageId
  let changed := (window.filter fun e => decide (e.change ≠ .deleted)).map Event.messageId
  ⟨(changed.filter fun m => !deleted.contains m).dedup, deleted.dedup, currentHistoryId g⟩

/-! ## One event -/

variable {g : Mailbox} {m : MessageId}

theorem HasIn.has {s x : Nat} (h : HasIn g s x m) : Has g x m := by
  obtain ⟨e, he, hm, -, hx⟩ := h
  exact ⟨e, he, hm, hx⟩

/-- A message with an event up to `x` has one up to `s` or one in between. -/
theorem Has.split {x : Nat} (h : Has g x m) (s : Nat) : Has g s m ∨ HasIn g s x m := by
  obtain ⟨e, he, hm, hx⟩ := h
  by_cases hs : e.historyId ≤ s
  · exact Or.inl ⟨e, he, hm, hs⟩
  · exact Or.inr ⟨e, he, hm, by omega, hx⟩

theorem lastEvent_cons (e : Event) (g : Mailbox) (m : MessageId) :
    lastEvent (e :: g) m = if e.messageId = m then some e else lastEvent g m := rfl

theorem lastEvent_some {e : Event} (h : lastEvent g m = some e) : e ∈ g ∧ e.messageId = m := by
  induction g with
  | nil => cases h
  | cons e' g ih =>
    rw [lastEvent_cons] at h
    split at h
    · rename_i hid
      cases h
      exact ⟨List.mem_cons_self, hid⟩
    · exact ⟨List.mem_cons_of_mem e' (ih h).1, (ih h).2⟩

theorem lastEvent_eq_none (h : lastEvent g m = none) : ∀ e ∈ g, e.messageId ≠ m := by
  induction g with
  | nil => exact List.forall_mem_nil _
  | cons e' g ih =>
    rw [lastEvent_cons] at h
    split at h
    · cases h
    · rename_i hid
      exact List.forall_mem_cons.2 ⟨hid, ih h⟩

/-- What `messages.get` returns comes from an event. -/
theorem getMessage_some {snap : Snapshot} (h : getMessage g m = some snap) :
    ∃ e, lastEvent g m = some e ∧ e.change.labels = some snap.labels ∧
      e.historyId = snap.historyId ∧ snap.messageId = m := by
  unfold getMessage at h
  obtain ⟨e, he, hsnap⟩ := Option.bind_eq_some_iff.1 h
  obtain ⟨labels, hlabels, rfl⟩ := Option.map_eq_some_iff.1 hsnap
  exact ⟨e, he, hlabels, rfl, rfl⟩

theorem alive_iff : Alive g m ↔ ∃ e, lastEvent g m = some e ∧ e.change ≠ .deleted := by
  unfold Alive getMessage
  cases lastEvent g m with
  | none => simp
  | some e => cases hchange : e.change <;> simp [Change.labels, hchange]

theorem deletedAt_eq_some {d : Nat} : deletedAt g m = some d ↔
      ∃ e, lastEvent g m = some e ∧ e.change = .deleted ∧ e.historyId = d := by
  unfold deletedAt
  cases lastEvent g m with
  | none => simp
  | some e =>
    by_cases hchange : e.change = .deleted
    · simp [hchange]
    · simp [hchange]

theorem not_alive_of_deletedAt {d : Nat} (h : deletedAt g m = some d) : ¬ Alive g m := by
  obtain ⟨e, he, hdeleted, -⟩ := deletedAt_eq_some.1 h
  intro halive
  obtain ⟨e', he', hne⟩ := alive_iff.1 halive
  rw [he] at he'
  cases he'
  exact hne hdeleted

theorem alive_or_deleted {e : Event} (h : e ∈ g) :
    Alive g e.messageId ∨ ∃ d, deletedAt g e.messageId = some d := by
  cases hlast : lastEvent g e.messageId with
  | none => exact absurd rfl (lastEvent_eq_none hlast e h)
  | some last =>
    by_cases hchange : last.change = .deleted
    · exact Or.inr ⟨last.historyId, deletedAt_eq_some.2 ⟨last, hlast, hchange, rfl⟩⟩
    · exact Or.inl (alive_iff.2 ⟨last, hlast, hchange⟩)

/-! ## Growth -/

section Growth

variable {g : Mailbox}

variable {e : Event}

theorem currentHistoryId_lt (h : accepts g e = true) : currentHistoryId g < e.historyId := by
  unfold accepts at h
  exact of_decide_eq_true (Bool.and_eq_true_iff.1 h).1

theorem historyId_le_current (hg : WellFormed g) (he : e ∈ g) :
    e.historyId ≤ currentHistoryId g := by
  induction g with
  | nil => cases he
  | cons e' g ih =>
    rcases List.mem_cons.1 he with rfl | he
    · exact Nat.le_refl _
    have hold := ih hg.2 he
    have hlt := currentHistoryId_lt hg.1
    show e.historyId ≤ e'.historyId
    omega

variable {m : MessageId}

theorem historyId_le_lastEvent (hg : WellFormed g) {last : Event}
    (hlast : lastEvent g m = some last) (he : e ∈ g) (hm : e.messageId = m) :
    e.historyId ≤ last.historyId := by
  induction g with
  | nil => cases he
  | cons e' g ih =>
    rw [lastEvent_cons] at hlast
    split at hlast
    · cases hlast
      exact historyId_le_current hg he
    · rename_i hne
      rcases List.mem_cons.1 he with rfl | he
      · exact absurd hm hne
      · exact ih hg.2 hlast he

theorem event_unique (hg : WellFormed g) {e' : Event} (he : e ∈ g) (he' : e' ∈ g)
    (hid : e.historyId = e'.historyId) : e = e' := by
  induction g with
  | nil => cases he
  | cons e₀ g ih =>
    have hlt := currentHistoryId_lt hg.1
    rcases List.mem_cons.1 he with rfl | hold
    · rcases List.mem_cons.1 he' with rfl | hold'
      · rfl
      · have := historyId_le_current hg.2 hold'
        omega
    · rcases List.mem_cons.1 he' with rfl | hold'
      · have := historyId_le_current hg.2 hold
        omega
      · exact ih hg.2 hold hold'

theorem alive_of_cons (hg : WellFormed (e :: g)) (h : Alive (e :: g) m) {e' : Event} (he' : e' ∈ g)
    (hm : e'.messageId = m) : Alive g m := by
  obtain ⟨last, hlast, hne⟩ := alive_iff.1 h
  rw [lastEvent_cons] at hlast
  split at hlast
  · rename_i hid
    cases hlast
    have haccept := (Bool.and_eq_true_iff.1 hg.1).2
    cases hchange : e.change with
    | added =>
      -- An added message has no event yet.
      rw [hchange] at haccept
      have hnone := Option.isNone_iff_eq_none.1 haccept
      exact absurd (hm.trans hid.symm) (lastEvent_eq_none hnone e' he')
    | relabeled =>
      rw [hchange] at haccept
      rw [← hid]
      exact haccept
    | deleted => exact absurd hchange hne
  · exact alive_iff.2 ⟨last, hlast, hne⟩

variable {d : Nat}

theorem deletedAt_cons (hg : WellFormed (e :: g)) (h : deletedAt g m = some d) :
    deletedAt (e :: g) m = some d := by
  obtain ⟨last, hlast, hdeleted, hd⟩ := deletedAt_eq_some.1 h
  refine deletedAt_eq_some.2 ⟨last, ?_, hdeleted, hd⟩
  rw [lastEvent_cons]
  split
  · rename_i hid
    have haccept := (Bool.and_eq_true_iff.1 hg.1).2
    have hdead := not_alive_of_deletedAt h
    subst hid
    cases hchange : e.change with
    | added =>
      rw [hchange] at haccept
      rw [Option.isNone_iff_eq_none.1 haccept] at hlast
      cases hlast
    | relabeled | deleted =>
      rw [hchange] at haccept
      exact absurd haccept hdead
  · exact hlast

theorem deletedAt_of_cons (hg : WellFormed (e :: g)) (h : deletedAt (e :: g) m = some d) :
    deletedAt g m = some d ∨ currentHistoryId g < d := by
  obtain ⟨last, hlast, hdeleted, rfl⟩ := deletedAt_eq_some.1 h
  rw [lastEvent_cons] at hlast
  split at hlast
  · cases hlast
    exact Or.inr (currentHistoryId_lt hg.1)
  · exact Or.inl (deletedAt_eq_some.2 ⟨last, hlast, hdeleted, rfl⟩)

/-- What the later history `g'` tells about the earlier one `g`. -/
structure Grows (g g' : Mailbox) : Prop where
  wellFormed : WellFormed g'
  mem : ∀ e ∈ g, e ∈ g'
  newer : ∀ e ∈ g', e ∈ g ∨ currentHistoryId g < e.historyId
  alive : ∀ e ∈ g, Alive g' e.messageId → Alive g e.messageId
  deleted : ∀ m d, deletedAt g m = some d → deletedAt g' m = some d
  deletedNewer : ∀ m d, deletedAt g' m = some d → deletedAt g m = some d ∨ currentHistoryId g < d
  current : currentHistoryId g ≤ currentHistoryId g'

theorem Grows.refl (hg : WellFormed g) : Grows g g where
  wellFormed := hg
  mem _ he := he
  newer _ he := Or.inl he
  alive _ _ h := h
  deleted _ _ h := h
  deletedNewer _ _ h := Or.inl h
  current := Nat.le_refl _

theorem grows_cons (hg : WellFormed g) (he : accepts g e = true) : Grows g (e :: g) where
  wellFormed := ⟨he, hg⟩
  mem _ hmem := List.mem_cons_of_mem e hmem
  newer e' hmem := by
    rcases List.mem_cons.1 hmem with rfl | hold
    · exact Or.inr (currentHistoryId_lt he)
    · exact Or.inl hold
  alive _ hmem h := alive_of_cons ⟨he, hg⟩ h hmem rfl
  deleted _ _ h := deletedAt_cons ⟨he, hg⟩ h
  deletedNewer _ _ h := deletedAt_of_cons ⟨he, hg⟩ h
  current := Nat.le_of_lt (currentHistoryId_lt he)

variable {g' : Mailbox}

theorem Grows.mem_of_le (h : Grows g g') (he : e ∈ g') (hle : e.historyId ≤ currentHistoryId g) :
    e ∈ g := by
  rcases h.newer e he with hold | hnew
  · exact hold
  · omega

variable {x : Nat}

theorem Has.grows {g : Mailbox} (hg : Grows g g') (h : Has g x m) : Has g' x m := by
  obtain ⟨e, he, hrest⟩ := h
  exact ⟨e, hg.mem e he, hrest⟩

theorem Grows.has (h : Grows g g') (hm : Has g' x m) (hle : x ≤ currentHistoryId g) :
    Has g x m := by
  obtain ⟨e, he, hid, hx⟩ := hm
  exact ⟨e, h.mem_of_le he (Nat.le_trans hx hle), hid, hx⟩

theorem Grows.hasIn (h : Grows g g') {s : Nat} (hm : HasIn g' s x m)
    (hle : x ≤ currentHistoryId g) : HasIn g s x m := by
  obtain ⟨e, he, hid, hs, hx⟩ := hm
  exact ⟨e, h.mem_of_le he (Nat.le_trans hx hle), hid, hs, hx⟩

theorem Grows.alive_of_has (h : Grows g g') (hm : Has g x m) (halive : Alive g' m) : Alive g m := by
  obtain ⟨e, he, rfl, -⟩ := hm
  exact h.alive e he halive

theorem deletedAt_le_current (hg : WellFormed g) (h : deletedAt g m = some d) :
    d ≤ currentHistoryId g := by
  obtain ⟨last, hlast, -, rfl⟩ := deletedAt_eq_some.1 h
  exact historyId_le_current hg (lastEvent_some hlast).1

/-- What `messages.get` returns is as new as every event of the message. -/
theorem historyId_le_getMessage (hg : WellFormed g) {snap : Snapshot}
    (h : getMessage g m = some snap) (he : e ∈ g) (hm : e.messageId = m) :
    e.historyId ≤ snap.historyId := by
  obtain ⟨last, hlast, -, hid, -⟩ := getMessage_some h
  rw [← hid]
  exact historyId_le_lastEvent hg hlast he hm

/-! ## Listing the history -/

variable {start : Nat}

theorem mem_deletedMessageIds : m ∈ (listHistory g start).deletedMessageIds ↔
      ∃ e ∈ g, e.messageId = m ∧ start < e.historyId ∧ e.change = .deleted := by
  simp only [listHistory, List.mem_dedup, List.mem_map, List.mem_filter, decide_eq_true_eq]
  constructor
  · rintro ⟨e, ⟨⟨he, hstart⟩, hdeleted⟩, hm⟩
    exact ⟨e, he, hm, hstart, hdeleted⟩
  · rintro ⟨e, he, hm, hstart, hdeleted⟩
    exact ⟨e, ⟨⟨he, hstart⟩, hdeleted⟩, hm⟩

theorem deletedAt_of_event (hg : WellFormed g) (he : e ∈ g) (hdeleted : e.change = .deleted) :
    deletedAt g e.messageId = some e.historyId := by
  induction g with
  | nil => cases he
  | cons e' g ih =>
    rcases List.mem_cons.1 he with rfl | he
    · exact deletedAt_eq_some.2 ⟨e, by rw [lastEvent_cons, if_pos rfl], hdeleted, rfl⟩
    · exact deletedAt_cons hg (ih hg.2 he)

theorem deletedAt_of_listed (hg : WellFormed g) (h : m ∈ (listHistory g start).deletedMessageIds) :
    ∃ d, deletedAt g m = some d := by
  obtain ⟨e, he, rfl, -, hdeleted⟩ := mem_deletedMessageIds.1 h
  exact ⟨e.historyId, deletedAt_of_event hg he hdeleted⟩

theorem listed_of_deletedAt (h : deletedAt g m = some d) (hstart : start < d) :
    m ∈ (listHistory g start).deletedMessageIds := by
  obtain ⟨e, hlast, hdeleted, rfl⟩ := deletedAt_eq_some.1 h
  obtain ⟨he, hm⟩ := lastEvent_some hlast
  exact mem_deletedMessageIds.2 ⟨e, he, hm, hstart, hdeleted⟩

theorem listed_of_alive (hg : WellFormed g) (halive : Alive g m) (h : HasIn g start x m) :
    m ∈ (listHistory g start).messageIds := by
  obtain ⟨e, he, rfl, hstart, -⟩ := h
  have hchange : e.change ≠ .deleted := by
    intro hdeleted
    exact not_alive_of_deletedAt (deletedAt_of_event hg he hdeleted) halive
  have hnot : e.messageId ∉ (listHistory g start).deletedMessageIds := by
    intro hmem
    obtain ⟨d, hd⟩ := deletedAt_of_listed hg hmem
    exact not_alive_of_deletedAt hd halive
  simp only [listHistory, List.mem_dedup] at hnot ⊢
  simp only [List.mem_filter, List.mem_map, decide_eq_true_eq]
  exact ⟨⟨e, ⟨⟨he, hstart⟩, hchange⟩, rfl⟩, by simpa using hnot⟩

end Growth

end ElectronicMail.Sync
