import ElectronicMail.Foundations.Text

/-!
# Threads of the reader

A thread is read in pages. A page carries the revision of the whole thread, its total and
whether there is more; pages are put together by message id. The reader edits the labels of
messages before the server has answered.
-/

namespace ElectronicMail.Reader

open Foundations

/-! ## Messages -/

/-- A message of a thread. `content` stands for what neither the labels of the reader nor the
clean-up of incomplete bodies looks at. -/
structure ThreadMessage where
  id : String
  bodyComplete : Bool
  labelIds : List String
  content : String
  deriving DecidableEq

/-- `caseInsensitiveCompare(…) == .orderedSame`, on label ids. -/
def sameLabel (a b : String) : Bool := Text.lower a == Text.lower b

def ThreadMessage.hasLabel (message : ThreadMessage) (labelId : String) : Bool :=
  message.labelIds.any fun label => sameLabel label labelId

def ThreadMessage.settingLabel (message : ThreadMessage) (labelId : String) (isPresent : Bool) :
    ThreadMessage :=
  if message.hasLabel labelId = isPresent then message
  else
    let nextLabelIds := message.labelIds.filter fun label => !sameLabel label labelId
    { message with labelIds := if isPresent then nextLabelIds ++ [labelId] else nextLabelIds }

/-! ## Threads and their pages -/

structure ThreadReaderResponse where
  entityId : String
  userId : String
  source : Option String
  gmailThreadId : Option String
  subject : Option String
  title : Option String
  summary : Option String
  totalMessages : Nat
  limit : Nat
  offset : Nat
  hasMore : Bool
  messages : List ThreadMessage
  contentRevision : Option String
  deriving DecidableEq

/-- `presenceByMessageID` is a dictionary; the first entry of a key counts. -/
def ThreadReaderResponse.settingMessageLabel (thread : ThreadReaderResponse) (labelId : String)
    (presenceByMessageId : List (String × Bool)) : ThreadReaderResponse :=
  { thread with
    messages := thread.messages.map fun message =>
      match presenceByMessageId.lookup message.id with
      | none => message
      | some isPresent => message.settingLabel labelId isPresent }

/-- The messages whose id has not been seen, each id once:
`filter { seen.insert($0.id).inserted }`. -/
def newlyObserved (seen : List String) : List ThreadMessage → List ThreadMessage
  | [] => []
  | message :: messages =>
    if message.id ∈ seen then newlyObserved seen messages
    else message :: newlyObserved (message.id :: seen) messages

def ThreadReaderResponse.appendingPage (thread page : ThreadReaderResponse) :
    ThreadReaderResponse :=
  let appendedMessages :=
    thread.messages ++ newlyObserved (thread.messages.map ThreadMessage.id) page.messages
  { entityId := thread.entityId
    userId := thread.userId
    source := thread.source <|> page.source
    gmailThreadId := thread.gmailThreadId <|> page.gmailThreadId
    subject := thread.subject <|> page.subject
    title := thread.title <|> page.title
    summary := none
    totalMessages := max (max thread.totalMessages page.totalMessages) appendedMessages.length
    limit := max thread.limit page.limit
    offset := 0
    hasMore := page.hasMore
    messages := appendedMessages
    contentRevision := page.contentRevision <|> thread.contentRevision }

/-! ## Labels -/

section

variable (message : ThreadMessage) (labelId : String) (isPresent : Bool)

@[simp]
theorem id_settingLabel :
    (message.settingLabel labelId isPresent).id = message.id := by
  unfold ThreadMessage.settingLabel
  split <;> rfl

@[simp]
theorem bodyComplete_settingLabel :
    (message.settingLabel labelId isPresent).bodyComplete = message.bodyComplete := by
  unfold ThreadMessage.settingLabel
  split <;> rfl

@[simp]
theorem content_settingLabel :
    (message.settingLabel labelId isPresent).content = message.content := by
  unfold ThreadMessage.settingLabel
  split <;> rfl

theorem hasLabel_settingLabel (label : String) :
    (message.settingLabel labelId isPresent).hasLabel label =
      if sameLabel label labelId then isPresent else message.hasLabel label := by
  have hcomm : ∀ x : String, sameLabel label labelId = true →
      sameLabel x label = sameLabel x labelId := by
    intro x hlabel
    simp only [sameLabel, beq_iff_eq] at hlabel ⊢
    rw [hlabel]
  have hself : sameLabel labelId labelId = true := by simp [sameLabel]
  have hapart : ∀ x : String, sameLabel label labelId = false → sameLabel x labelId = true →
      sameLabel x label = false := by
    intro x hlabel hx
    rw [Bool.eq_false_iff] at hlabel ⊢
    intro hxl
    apply hlabel
    simp only [sameLabel, beq_iff_eq] at hxl hx ⊢
    rw [← hxl, hx]
  have hrest : (message.labelIds.filter fun x => !sameLabel x labelId).any
      (fun x => sameLabel x label) =
        if sameLabel label labelId then false else message.hasLabel label := by
    rw [List.any_filter]
    by_cases hlabel : sameLabel label labelId = true
    · simp [hcomm _ hlabel, hlabel]
    rw [if_neg hlabel]
    unfold ThreadMessage.hasLabel
    congr 1
    funext x
    cases hx : sameLabel x labelId with
    | false => simp
    | true => simp [hapart x (Bool.eq_false_iff.2 hlabel) hx]
  unfold ThreadMessage.settingLabel
  split
  · next hsame =>
      by_cases hlabel : sameLabel label labelId = true
      · rw [if_pos hlabel, ← hsame]
        unfold ThreadMessage.hasLabel
        congr 1
        funext x
        exact hcomm x hlabel
      · rw [if_neg hlabel]
  · cases isPresent with
    | false =>
      show (message.labelIds.filter fun x => !sameLabel x labelId).any _ = _
      rw [hrest]
    | true =>
      show ((message.labelIds.filter fun x => !sameLabel x labelId) ++ [labelId]).any _ = _
      rw [List.any_append, hrest]
      by_cases hlabel : sameLabel label labelId = true
      · simp [hlabel, hcomm labelId hlabel, hself]
      · have hother : sameLabel labelId label = false :=
          hapart labelId (Bool.eq_false_iff.2 hlabel) hself
        simp [hlabel, hother]

end

/-! ## Dictionaries of presence -/

theorem mem_of_lookup {entries : List (String × Bool)} {key : String} {value : Bool}
    (h : entries.lookup key = some value) : (key, value) ∈ entries := by
  induction entries with
  | nil => simp at h
  | cons entry entries ih =>
    rw [List.lookup_cons] at h
    split at h
    · next hkey =>
        obtain rfl := Option.some.inj h
        obtain rfl : key = entry.1 := by simpa using hkey
        exact List.mem_cons_self
    · exact List.mem_cons_of_mem _ (ih h)

/-! ## Messages that are new -/

variable {messages : List ThreadMessage}

theorem newlyObserved_eq_self {seen : List String} (hnodup : (messages.map ThreadMessage.id).Nodup)
    (hseen : ∀ m ∈ messages, m.id ∉ seen) : newlyObserved seen messages = messages := by
  induction messages generalizing seen with
  | nil => rfl
  | cons message messages ih =>
    rw [List.map_cons, List.nodup_cons] at hnodup
    have hnew : message.id ∉ seen := hseen message List.mem_cons_self
    have hrest : ∀ m ∈ messages, m.id ∉ message.id :: seen := by
      intro m hm hin
      rcases List.mem_cons.1 hin with heq | hin
      · exact hnodup.1 (heq ▸ List.mem_map_of_mem hm)
      · exact hseen m (List.mem_cons_of_mem _ hm) hin
    simp [newlyObserved, hnew, ih hnodup.2 hrest]

/-- Of the beginning of a list with distinct ids and a page that starts where it ends, all of
the page is new. -/
theorem take_append_newlyObserved (hnodup : (messages.map ThreadMessage.id).Nodup)
    (offset limit : Nat) : messages.take offset ++
        newlyObserved ((messages.take offset).map ThreadMessage.id)
          ((messages.drop offset).take limit) =
      messages.take (offset + limit) := by
  have hsplit := hnodup
  rw [← List.take_append_drop offset messages, List.map_append, List.nodup_append] at hsplit
  obtain ⟨_, hdrop, hapart⟩ := hsplit
  have hpage : (((messages.drop offset).take limit).map ThreadMessage.id).Nodup :=
    ((List.take_sublist limit _).map ThreadMessage.id).nodup hdrop
  rw [newlyObserved_eq_self hpage, List.take_add]
  intro m hm hin
  exact hapart m.id hin m.id (List.mem_map_of_mem (List.mem_of_mem_take hm)) rfl

end ElectronicMail.Reader
