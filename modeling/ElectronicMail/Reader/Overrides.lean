import ElectronicMail.Reader.LabelMutations

/-!
# Overrides of labels

`overriding` goes through the overrides one by one. Overrides that set one label of one message
overlap, and no two with different keys do, so the order does not matter: a message of the result
shows what an override that is kept asks for, and the labels of the server otherwise
(`overridden_overriding`).
-/

namespace ElectronicMail.Reader

/-- A message of the server and the reader's message: apart from the labels that an override
sets, they have the same ones. -/
structure ShowsOriginal (overrides : List ReaderLabelIntentOverride)
    (original message : ThreadMessage) : Prop where
  id : message.id = original.id
  bodyComplete : message.bodyComplete = original.bodyComplete
  content : message.content = original.content
  overridden : ∀ intent ∈ overrides, targets intent.targetMessageId message.id = true →
    message.hasLabel intent.label.id = intent.isPresent
  label : ∀ label, (∀ intent ∈ overrides, targets intent.targetMessageId message.id = true →
    sameLabel label intent.label.id = false) → message.hasLabel label = original.hasLabel label

def settledOf (overrides : List ReaderLabelIntentOverride) : List ReaderLabelIntentOverride :=
  overrides.filter ReaderLabelIntentOverride.settled

def KeysApart (overrides : List ReaderLabelIntentOverride) : Prop :=
  ∀ a ∈ overrides, ∀ b ∈ overrides, overlaps a.label a.targetMessageId b = true → a.key = b.key

theorem sameLabel_id (a b : ReaderLabel) : sameLabel a.id b.id = decide (a = b) := by
  cases a <;> cases b <;> decide +kernel

theorem overlaps_of_common {a b : ReaderLabelIntentOverride} {messageId : String}
    (ha : targets a.targetMessageId messageId = true)
    (hb : targets b.targetMessageId messageId = true)
    (hlabel : sameLabel a.label.id b.label.id = true) :
    overlaps a.label a.targetMessageId b = true := by
  rw [sameLabel_id, decide_eq_true_eq] at hlabel
  unfold targets at ha hb
  unfold overlaps
  cases hta : a.targetMessageId with
  | none => simp [hlabel]
  | some x =>
    cases htb : b.targetMessageId with
    | none => simp [hlabel]
    | some y =>
      have hx : x = messageId := by simpa [hta] using ha
      have hy : y = messageId := by simpa [htb] using hb
      simp [hlabel, hx, hy]

theorem lookup_map_id {β : Type} (messages : List ThreadMessage) (value : ThreadMessage → β)
    (messageId : String) :
    (messages.map fun message => (message.id, value message)).lookup messageId =
      (messages.find? fun message => message.id == messageId).map value := by
  induction messages with
  | nil => rfl
  | cons message messages ih =>
    rw [List.map_cons, List.lookup_cons, List.find?_cons]
    have hcomm : (messageId == message.id) = (message.id == messageId) := by
      rw [Bool.eq_iff_iff, beq_iff_eq, beq_iff_eq]
      exact eq_comm
    rw [hcomm]
    cases message.id == messageId with
    | true => rfl
    | false => exact ih

theorem isSome_find_id {messages : List ThreadMessage} {message : ThreadMessage}
    (h : message ∈ messages) :
    ∃ found, messages.find? (fun m => m.id == message.id) = some found := by
  cases hfind : messages.find? fun m => m.id == message.id with
  | some found => exact ⟨found, rfl⟩
  | none =>
    rw [List.find?_eq_none] at hfind
    exact absurd (by simp) (hfind message h)

theorem settingMessageLabel_targets (thread : ThreadReaderResponse)
    (intent : ReaderLabelIntentOverride) :
    thread.settingMessageLabel intent.label.id
        ((thread.messages.filter fun message => targets intent.targetMessageId message.id).map
          fun message => (message.id, intent.isPresent)) =
      { thread with
        messages := thread.messages.map fun message =>
          if targets intent.targetMessageId message.id then
            message.settingLabel intent.label.id intent.isPresent
          else message } := by
  unfold ThreadReaderResponse.settingMessageLabel
  congr 1
  apply List.map_congr_left
  intro message hmessage
  rw [lookup_map_id]
  by_cases htarget : targets intent.targetMessageId message.id = true
  · obtain ⟨found, hfound⟩ := isSome_find_id
      (List.mem_filter (p := fun m => targets intent.targetMessageId m.id).2 ⟨hmessage, htarget⟩)
    rw [hfound, if_pos htarget]
    rfl
  · have hnone : ((thread.messages.filter fun m => targets intent.targetMessageId m.id).find?
        fun m => m.id == message.id) = none := by
      rw [List.find?_eq_none]
      intro m hm heq
      have hin := (List.mem_filter.1 hm).2
      rw [beq_iff_eq.1 heq] at hin
      exact htarget hin
    rw [hnone, if_neg htarget]
    rfl

/-- What `overriding` makes of a thread: the messages show their originals up to the overrides
that are kept, and are the originals when no settled one is kept. -/
structure Overridden (overrides : List ReaderLabelIntentOverride)
    (thread shown : ThreadReaderResponse) : Prop where
  messages : List.Forall₂ (ShowsOriginal (settledOf overrides)) thread.messages shown.messages
  same : settledOf overrides = [] → shown = thread

theorem ShowsOriginal.refl (message : ThreadMessage) : ShowsOriginal [] message message where
  id := rfl
  bodyComplete := rfl
  content := rfl
  overridden := by
    intro intent hin
    cases hin
  label := fun _ _ => rfl

theorem Overridden.refl (thread : ThreadReaderResponse) : Overridden [] thread thread where
  messages := List.forall₂_same.2 fun message _ => ShowsOriginal.refl message
  same := fun _ => rfl

theorem overriding_sublist (intents : List ReaderLabelIntentOverride)
    (thread : ThreadReaderResponse) : (overriding intents thread).2.Sublist intents := by
  induction intents generalizing thread with
  | nil => exact .slnil
  | cons intent intents ih =>
    unfold overriding
    dsimp only
    split
    · exact (ih thread).cons_cons intent
    split
    · exact (ih thread).cons intent
    · exact (ih _).cons_cons intent

variable {overrides : List ReaderLabelIntentOverride}

variable {intent : ReaderLabelIntentOverride} {thread shown : ThreadReaderResponse}

/-- An override that no message of the thread is a target of, or that has not settled, does
nothing. -/
theorem Overridden.keeping (h : Overridden overrides thread shown) (hidle : intent.settled = true →
      ∀ message ∈ thread.messages, targets intent.targetMessageId message.id = false) :
    Overridden (intent :: overrides) thread shown := by
  cases hsettled : intent.settled with
  | false =>
    have hsame : settledOf (intent :: overrides) = settledOf overrides := by
      simp [settledOf, hsettled]
    exact ⟨by rw [hsame]; exact h.messages, by rw [hsame]; exact h.same⟩
  | true =>
    have hmore : settledOf (intent :: overrides) = intent :: settledOf overrides := by
      simp [settledOf, hsettled]
    refine ⟨?_, by rw [hmore]; intro hnil; cases hnil⟩
    rw [hmore]
    have hboth := (List.forall₂_and_left (p := fun message =>
      targets intent.targetMessageId message.id = false) _ _).2 ⟨hidle hsettled, h.messages⟩
    apply hboth.imp
    rintro original message ⟨hnot, hshows⟩
    refine ⟨hshows.id, hshows.bodyComplete, hshows.content, ?_, ?_⟩
    · intro other hin htarget
      rcases List.mem_cons.1 hin with rfl | hin
      · rw [hshows.id, hnot] at htarget
        cases htarget
      · exact hshows.overridden other hin htarget
    · intro label hlabel
      exact hshows.label label fun other hin => hlabel other (List.mem_cons_of_mem _ hin)

theorem Overridden.applying (hsettled : intent.settled = true)
    (hapart : ∀ other ∈ overrides, overlaps intent.label intent.targetMessageId other = false)
    (h : Overridden overrides
      { thread with
        messages := thread.messages.map fun message =>
          if targets intent.targetMessageId message.id then
            message.settingLabel intent.label.id intent.isPresent
          else message } shown) : Overridden (intent :: overrides) thread shown := by
  have hmore : settledOf (intent :: overrides) = intent :: settledOf overrides := by
    simp [settledOf, hsettled]
  refine ⟨?_, by rw [hmore]; intro hnil; cases hnil⟩
  rw [hmore]
  have hmessages := h.messages
  rw [List.forall₂_map_left_iff] at hmessages
  apply hmessages.imp
  intro original message hshows
  have hid : message.id = original.id := by
    rw [hshows.id]
    split <;> simp
  refine ⟨hid, ?_, ?_, ?_, ?_⟩
  · rw [hshows.bodyComplete]
    split <;> simp
  · rw [hshows.content]
    split <;> simp
  · intro other hin htarget
    rcases List.mem_cons.1 hin with heq | hin
    · -- no other override that is kept sets this label of the message
      rw [heq] at htarget ⊢
      have hlabel := hshows.label intent.label.id <| by
        intro other hother hcommon
        rw [Bool.eq_false_iff]
        intro hsame
        have hoverlap := overlaps_of_common htarget hcommon hsame
        rw [hapart other (List.mem_of_mem_filter hother)] at hoverlap
        cases hoverlap
      rw [hlabel, if_pos (by rw [← hid]; exact htarget), hasLabel_settingLabel, sameLabel_id]
      simp
    · exact hshows.overridden other hin htarget
  · intro label hlabel
    rw [hshows.label label fun other hin => hlabel other (List.mem_cons_of_mem _ hin)]
    split
    · next htarget =>
        rw [← hid] at htarget
        rw [hasLabel_settingLabel, hlabel intent List.mem_cons_self htarget]
        simp
    · rfl

theorem overridden_overriding {intents : List ReaderLabelIntentOverride}
    (hnodup : (intents.map ReaderLabelIntentOverride.key).Nodup) (hapart : KeysApart intents)
    (thread : ThreadReaderResponse) :
    Overridden (overriding intents thread).2 thread (overriding intents thread).1 := by
  induction intents generalizing thread with
  | nil => exact Overridden.refl thread
  | cons intent intents ih =>
    rw [List.map_cons, List.nodup_cons] at hnodup
    have hrest : KeysApart intents := fun a ha b hb =>
      hapart a (List.mem_cons_of_mem _ ha) b (List.mem_cons_of_mem _ hb)
    unfold overriding
    dsimp only
    split
    · next hidle =>
        refine (ih hnodup.2 hrest thread).keeping ?_
        intro hsettled message hmessage
        rw [hsettled, Bool.not_true, Bool.false_or, List.isEmpty_iff,
          List.filter_eq_nil_iff] at hidle
        exact Bool.eq_false_iff.2 (hidle message hmessage)
    · next hactive =>
        have hsettled : intent.settled = true := by
          cases hsettled : intent.settled with
          | true => rfl
          | false => simp [hsettled] at hactive
        split
        · exact ih hnodup.2 hrest thread
        rw [settingMessageLabel_targets]
        refine Overridden.applying hsettled ?_ (ih hnodup.2 hrest _)
        intro other hother
        rw [Bool.eq_false_iff]
        intro hoverlap
        have hin := (overriding_sublist intents _).subset hother
        have hkey := hapart intent List.mem_cons_self other (List.mem_cons_of_mem _ hin) hoverlap
        exact hnodup.1 (hkey ▸ List.mem_map_of_mem hin)

end ElectronicMail.Reader
