import ElectronicMail.Progress.Steps

/-!
# What `complete` means

The phase `complete` should mean that the history is complete, metadata and bodies, and
`history_body_complete` that no stored message has an unready body
(`CompleteMeansComplete`).

Upserts bring unready messages. They take the flag and the phase back, but only while
`sync_generation` is set, and a reconciliation that is finalized sets both whether it is
set or not. So the property fails exactly at an upsert that brings an unready message to a
complete history without a generation (`completeMeansComplete_iff`).
-/

namespace ElectronicMail.Progress

open Foundations
open Messages (BodyFetchStatus mergedBodyFetchStatus)

def Record.isReady (r : Record) : Bool := r.bodyFetchStatus.isReady

/-- `complete` means complete. -/
def CompleteMeansComplete (a : Account) : Prop :=
  (a.state.phase = some .complete →
    a.state.historyMetadataComplete = true ∧ a.state.historyBodyComplete = true) ∧
  (a.state.historyBodyComplete = true → ∀ m ∈ a.messages, m.isReady = true)

/-- The records bring a message that is not stored, and none of them brings its body. -/
def BringsUnready (messages : List StoredMessage) (records : List Record) : Prop :=
  ∃ r ∈ records, (∀ m ∈ messages, m.messageId ≠ r.messageId) ∧
    ∀ r' ∈ records, r'.messageId = r.messageId → r'.isReady = false

/-- An upsert that brings an unready message while the history counts as complete and no
generation is set. -/
def UncountedUpsert (a : Account) (call : Call) : Prop :=
  ∃ records, call = .upsert records ∧ a.state.syncGeneration = none ∧
    a.state.historyBodyComplete = true ∧ BringsUnready a.messages records

/-! ## Ready messages -/

theorem bodiesReady_iff {messages : List StoredMessage} :
    bodiesReady messages = true ↔ ∀ m ∈ messages, m.isReady = true := List.all_eq_true

theorem isReady_merged (stored excluded : BodyFetchStatus) :
    (mergedBodyFetchStatus stored excluded).isReady = (stored.isReady || excluded.isReady) := by
  cases stored <;> cases excluded <;> rfl

theorem isReady_mergedMessage (now : Nat) (r : Record) (m : StoredMessage) :
    (mergedMessage now r m).isReady = (m.isReady || r.isReady) :=
  isReady_merged m.bodyFetchStatus r.bodyFetchStatus

def StaysUnready (messages : List StoredMessage) (records : List Record) : Prop :=
  ∃ m ∈ messages, m.isReady = false ∧ ∀ r ∈ records, r.messageId = m.messageId → r.isReady = false

section Upserts

variable {messages : List StoredMessage} {r : Record} {records : List Record}

variable {stored : StoredMessage}

theorem upsertMessage_stored (now : Nat) (hstored : stored ∈ messages)
    (hid : stored.messageId = r.messageId) : upsertMessage now messages r =
      Table.updateWhere (fun m => m.messageId = r.messageId) (mergedMessage now r) messages := by
  unfold upsertMessage
  rw [if_pos]
  exact List.any_eq_true.2 ⟨stored, hstored, decide_eq_true hid⟩

theorem upsertMessage_new (now : Nat) (hnew : ∀ m ∈ messages, m.messageId ≠ r.messageId) :
    upsertMessage now messages r = messages ++ [insertedMessage now r] := by
  unfold upsertMessage
  rw [if_neg]
  intro hany
  obtain ⟨m, hm, hid⟩ := List.any_eq_true.1 hany
  exact hnew m hm (of_decide_eq_true hid)

/-- A record that meets a stored message: that message stays unready if it was and the
record is, and the other records are as new as before. -/
theorem unready_cons_stored (now : Nat) (hstored : stored ∈ messages)
    (hid : stored.messageId = r.messageId) : (StaysUnready (upsertMessage now messages r) records ∨
        BringsUnready (upsertMessage now messages r) records) ↔
      (StaysUnready messages (r :: records) ∨ BringsUnready messages (r :: records)) := by
  rw [upsertMessage_stored now hstored hid]
  have hids : ∀ id, (∀ m ∈ Table.updateWhere (fun m : StoredMessage => m.messageId = r.messageId)
      (mergedMessage now r) messages, m.messageId ≠ id) ↔ ∀ m ∈ messages, m.messageId ≠ id := by
    intro id
    have hmap : (Table.updateWhere (fun m : StoredMessage => m.messageId = r.messageId)
        (mergedMessage now r) messages).map StoredMessage.messageId =
          messages.map StoredMessage.messageId := Table.map_updateWhere fun _ _ _ => rfl
    constructor
    · intro h m hm heq
      have hmem : id ∈ messages.map StoredMessage.messageId := heq ▸ List.mem_map_of_mem hm
      rw [← hmap] at hmem
      obtain ⟨m', hm', heq'⟩ := List.mem_map.1 hmem
      exact h m' hm' heq'
    · intro h m hm heq
      have hmem := List.mem_map_of_mem (f := StoredMessage.messageId) hm
      rw [hmap, heq] at hmem
      obtain ⟨m', hm', heq'⟩ := List.mem_map.1 hmem
      exact h m' hm' heq'
  apply or_congr
  · constructor
    · rintro ⟨m', hm', hready, hrecords⟩
      obtain ⟨m, hm, rfl⟩ := Table.mem_updateWhere.1 hm'
      by_cases hsame : m.messageId = r.messageId
      · simp only [hsame, decide_true, if_true] at hready hrecords
        rw [isReady_mergedMessage, Bool.or_eq_false_iff] at hready
        refine ⟨m, hm, hready.1, ?_⟩
        intro r' hr' heq
        rcases List.mem_cons.1 hr' with rfl | hr'
        · exact hready.2
        · exact hrecords r' hr' heq
      · simp only [hsame, decide_false, Bool.false_eq_true, if_false] at hready hrecords
        refine ⟨m, hm, hready, ?_⟩
        intro r' hr' heq
        rcases List.mem_cons.1 hr' with rfl | hr'
        · exact absurd heq.symm hsame
        · exact hrecords r' hr' heq
    · rintro ⟨m, hm, hready, hrecords⟩
      by_cases hsame : m.messageId = r.messageId
      · refine ⟨mergedMessage now r m, Table.mem_updateWhere.2 ⟨m, hm, ?_⟩, ?_, ?_⟩
        · rw [if_pos (decide_eq_true hsame)]
        · rw [isReady_mergedMessage, hready, hrecords r List.mem_cons_self hsame.symm]
          rfl
        · intro r' hr' heq
          exact hrecords r' (List.mem_cons_of_mem r hr') heq
      · refine ⟨m, Table.mem_updateWhere.2 ⟨m, hm, ?_⟩, hready, ?_⟩
        · rw [if_neg]
          simpa using hsame
        · intro r' hr' heq
          exact hrecords r' (List.mem_cons_of_mem r hr') heq
  · constructor
    · rintro ⟨r', hr', hnew, hrecords⟩
      refine ⟨r', List.mem_cons_of_mem r hr', (hids r'.messageId).1 hnew, ?_⟩
      intro r'' hr'' heq
      rcases List.mem_cons.1 hr'' with rfl | hr''
      · exact absurd (hid.trans heq) ((hids r'.messageId).1 hnew stored hstored)
      · exact hrecords r'' hr'' heq
    · rintro ⟨r', hr', hnew, hrecords⟩
      rcases List.mem_cons.1 hr' with rfl | hr'
      · exact absurd hid (hnew stored hstored)
      · refine ⟨r', hr', (hids r'.messageId).2 hnew, ?_⟩
        intro r'' hr'' heq
        exact hrecords r'' (List.mem_cons_of_mem r hr'') heq

/-- A record that is new: its message is unready if it is, and the records after it that
are new are those of other messages. -/
theorem unready_cons_new (now : Nat) (hnew : ∀ m ∈ messages, m.messageId ≠ r.messageId) :
    (StaysUnready (upsertMessage now messages r) records ∨
        BringsUnready (upsertMessage now messages r) records) ↔
      (StaysUnready messages (r :: records) ∨ BringsUnready messages (r :: records)) := by
  rw [upsertMessage_new now hnew]
  constructor
  · rintro (⟨m, hm, hready, hrecords⟩ | ⟨r', hr', hnew', hrecords⟩)
    · rcases List.mem_append.1 hm with hold | hinserted
      · refine Or.inl ⟨m, hold, hready, ?_⟩
        intro r' hr' heq
        rcases List.mem_cons.1 hr' with rfl | hr'
        · exact absurd heq.symm (hnew m hold)
        · exact hrecords r' hr' heq
      · obtain rfl := List.mem_singleton.1 hinserted
        refine Or.inr ⟨r, List.mem_cons_self, hnew, ?_⟩
        intro r' hr' heq
        rcases List.mem_cons.1 hr' with rfl | hr'
        · exact hready
        · exact hrecords r' hr' heq
    · refine Or.inr ⟨r', List.mem_cons_of_mem r hr', ?_, ?_⟩
      · intro m hm
        exact hnew' m (List.mem_append_left _ hm)
      · intro r'' hr'' heq
        rcases List.mem_cons.1 hr'' with rfl | hr''
        · exact absurd heq (hnew' _ (List.mem_append_right _ List.mem_cons_self))
        · exact hrecords r'' hr'' heq
  · rintro (⟨m, hm, hready, hrecords⟩ | ⟨r', hr', hnew', hrecords⟩)
    · refine Or.inl ⟨m, List.mem_append_left _ hm, hready, ?_⟩
      intro r' hr' heq
      exact hrecords r' (List.mem_cons_of_mem r hr') heq
    · by_cases hsame : r.messageId = r'.messageId
      · refine Or.inl ⟨insertedMessage now r, List.mem_append_right _ List.mem_cons_self, ?_, ?_⟩
        · exact hrecords r List.mem_cons_self hsame
        · intro r'' hr'' heq
          exact hrecords r'' (List.mem_cons_of_mem r hr'') (Eq.trans heq hsame)
      · refine Or.inr ⟨r', ?_, ?_, ?_⟩
        · rcases List.mem_cons.1 hr' with rfl | hr'
          · exact absurd rfl hsame
          · exact hr'
        · intro m hm
          rcases List.mem_append.1 hm with hold | hinserted
          · exact hnew' m hold
          · obtain rfl := List.mem_singleton.1 hinserted
            exact hsame
        · intro r'' hr'' heq
          exact hrecords r'' (List.mem_cons_of_mem r hr'') heq

theorem unready_upsertMessages_iff (now : Nat) (messages : List StoredMessage)
    (records : List Record) :
    (∃ m ∈ upsertMessages now messages records, m.isReady = false) ↔
      StaysUnready messages records ∨ BringsUnready messages records := by
  induction records generalizing messages with
  | nil => simp [upsertMessages, StaysUnready, BringsUnready]
  | cons r records ih =>
    have hcons : upsertMessages now messages (r :: records) =
        upsertMessages now (upsertMessage now messages r) records := rfl
    rw [hcons, ih]
    by_cases hstored : ∃ m ∈ messages, m.messageId = r.messageId
    · obtain ⟨stored, hmem, hid⟩ := hstored
      exact unready_cons_stored now hmem hid
    · refine unready_cons_new now ?_
      intro m hm hid
      exact hstored ⟨m, hm, hid⟩

theorem bodiesReady_upsertMessages_iff (now : Nat) (hready : ∀ m ∈ messages, m.isReady = true) :
    bodiesReady (upsertMessages now messages records) = true ↔ ¬ BringsUnready messages records := by
  have hiff := unready_upsertMessages_iff now messages records
  have hstays : ¬ StaysUnready messages records := by
    rintro ⟨m, hm, hunready, -⟩
    rw [hready m hm] at hunready
    cases hunready
  rw [bodiesReady_iff]
  constructor
  · intro hall hbrings
    obtain ⟨m, hm, hunready⟩ := hiff.2 (Or.inr hbrings)
    rw [hall m hm] at hunready
    cases hunready
  · intro hnot m hm
    by_contra hunready
    rcases hiff.1 ⟨m, hm, Bool.eq_false_iff.2 hunready⟩ with h | h
    · exact hstays h
    · exact hnot h

end Upserts

/-! ## The invariant -/

/-- `complete` means complete, with the flag of the bodies only on top of the one of the
metadata. -/
structure CompleteSound (messages : List StoredMessage) (s : ImportState) : Prop where
  phase : s.phase = some .complete → s.historyBodyComplete = true
  bodies : s.historyBodyComplete = true → s.historyMetadataComplete = true
  ready : s.historyBodyComplete = true → ∀ m ∈ messages, m.isReady = true

variable {a : Account}

theorem CompleteSound.complete (h : CompleteSound a.messages a.state) : CompleteMeansComplete a :=
  ⟨fun hphase => ⟨h.bodies (h.phase hphase), h.phase hphase⟩, h.ready⟩

section Statements

variable {messages messages' : List StoredMessage} {s s' : ImportState}

theorem CompleteSound.of_state (h : CompleteSound messages s)
    (hphase : s'.phase = some .complete → s.phase = some .complete)
    (hbody : s'.historyBodyComplete = s.historyBodyComplete)
    (hmetadata : s'.historyMetadataComplete = s.historyMetadataComplete)
    (hmessages : (∀ m ∈ messages, m.isReady = true) → ∀ m ∈ messages', m.isReady = true) :
    CompleteSound messages' s' := by
  refine ⟨?_, ?_, ?_⟩
  · rw [hbody]
    exact h.phase ∘ hphase
  · rw [hbody, hmetadata]
    exact h.bodies
  · rw [hbody]
    exact hmessages ∘ h.ready

/-- The phase after a `CASE` with another result is `complete` only if the other branch
is. -/
theorem complete_ite {c : Prop} [Decidable c] {phase : SyncPhase} {other : Option SyncPhase}
    (h : (if c then some phase else other) = some .complete) (hphase : phase ≠ .complete) :
    other = some .complete := by
  by_cases hc : c
  · rw [if_pos hc] at h
    exact absurd (Option.some.inj h) hphase
  · rwa [if_neg hc] at h

/-- After an upsert the flag is taken back if a generation is set; without one the upsert
must leave ready messages ready. -/
theorem completeSound_reopenHistory (h : CompleteSound messages s)
    (hmessages : s.syncGeneration = none → s.historyBodyComplete = true →
      bodiesReady messages' = true) :
    CompleteSound messages' (s.reopenHistory (bodiesReady messages')) := by
  unfold ImportState.reopenHistory
  split
  · refine ⟨fun hphase => ?_, nofun, nofun⟩
    dsimp only at hphase
    split at hphase
    · cases hphase
    · rename_i hcomplete
      exact absurd hphase hcomplete
  · rename_i hguard
    refine ⟨h.phase, h.bodies, ?_⟩
    intro hbody
    rw [← bodiesReady_iff]
    cases hgeneration : s.syncGeneration with
    | none => exact hmessages hgeneration hbody
    | some =>
      by_contra hunready
      simp [hgeneration, h.bodies hbody, hunready] at hguard

theorem completeSound_bodyProgress (h : CompleteSound messages s) (initialReady ready : Nat) :
    CompleteSound messages (s.bodyProgress initialReady ready (bodiesReady messages)) := by
  unfold ImportState.bodyProgress
  split
  · cases hall : s.historyMetadataComplete && bodiesReady messages with
    | true =>
      rw [Bool.and_eq_true] at hall
      refine ⟨fun _ => ?_, fun _ => hall.1, fun _ => bodiesReady_iff.1 hall.2⟩
      simp
    | false =>
      refine ⟨?_, ?_, ?_⟩
      · intro hphase
        simp only [Bool.false_eq_true, if_false, Bool.or_false] at hphase ⊢
        exact h.phase (complete_ite hphase (by decide))
      · simpa using h.bodies
      · simpa using h.ready
  · exact h

theorem completeSound_finalize (threads ready : Nat) (s : ImportState)
    (h : CompleteSound messages s) :
    CompleteSound messages (s.finalize threads ready (bodiesReady messages)) := by
  refine ⟨?_, fun _ => rfl, fun hall => bodiesReady_iff.1 hall⟩
  intro hphase
  by_contra hunready
  -- The phase was `complete` before, and then every message was ready.
  have hnot : bodiesReady messages = false := Bool.eq_false_iff.2 hunready
  have hbefore : (s.finalize threads ready (bodiesReady messages)).phase =
      if s.windowServed then some .syncingHistory else s.phase := by
    rw [hnot]
    rfl
  rw [hbefore] at hphase
  have hready := h.ready (h.phase (complete_ite hphase (by decide)))
  rw [bodiesReady_iff.2 hready] at hnot
  cases hnot

end Statements

/-! ## Transactions -/

section Transactions

variable {a : Account}

theorem completeSound_upsertOnConnection (h : CompleteSound a.messages a.state)
    {records : List Record}
    (hrecords : a.state.syncGeneration = none → a.state.historyBodyComplete = true →
      ¬ BringsUnready a.messages records) :
    CompleteSound (upsertGmailMessagesOnConnection a records).messages
      (upsertGmailMessagesOnConnection a records).state := by
  unfold upsertGmailMessagesOnConnection
  by_cases hempty : records.isEmpty = true
  · simp only [hempty, if_true]
    rw [List.isEmpty_iff] at hempty
    rw [hempty]
    exact h
  · simp only [hempty, Bool.false_eq_true, if_false]
    refine completeSound_reopenHistory h ?_
    intro hgeneration hbody
    rw [bodiesReady_upsertMessages_iff a.now (h.ready hbody)]
    exact hrecords hgeneration hbody

theorem completeSound_upsert_generation (h : CompleteSound a.messages a.state)
    (hgeneration : a.state.syncGeneration ≠ none) (records : List Record) :
    CompleteSound (upsertGmailMessagesOnConnection a records).messages
      (upsertGmailMessagesOnConnection a records).state :=
  completeSound_upsertOnConnection h fun hnone _ => absurd hnone hgeneration

theorem completeSound_settled (h : CompleteSound a.messages a.state)
    {messages : List StoredMessage} (threads : List String)
    (hmessages : (∀ m ∈ a.messages, m.isReady = true) → ∀ m ∈ messages, m.isReady = true) :
    CompleteSound
      (updateGmailBodyProgressOnConnection
        (settleReadyEntries { a.begin with messages := messages } threads)).messages
      (updateGmailBodyProgressOnConnection
        (settleReadyEntries { a.begin with messages := messages } threads)).state :=
  completeSound_bodyProgress (h.of_state id rfl rfl hmessages) _ _

theorem ready_updateWhere {p : StoredMessage → Bool} {f : StoredMessage → StoredMessage}
    (hf : ∀ m, p m = true → m.isReady = true → (f m).isReady = true)
    (h : ∀ m ∈ a.messages, m.isReady = true) :
    ∀ m ∈ Table.updateWhere p f a.messages, m.isReady = true :=
  Table.forall_updateWhere h fun m _ hp hready => hf m hp hready

theorem completeSound_updateGmailMessageBodies (h : CompleteSound a.messages a.state)
    (records : List Record) :
    CompleteSound (updateGmailMessageBodies a records).messages
      (updateGmailMessageBodies a records).state := by
  unfold updateGmailMessageBodies
  split
  · exact h
  · exact completeSound_settled h _ (ready_updateWhere fun _ _ _ => rfl)

theorem ready_marked (ids : List String) (status : BodyFetchStatus)
    (h : ∀ m ∈ a.messages, m.isReady = true) :
    ∀ m ∈ Table.updateWhere (marksMessage ids status)
      (fun m => { m with bodyFetchStatus := status }) a.messages, m.isReady = true := by
  refine ready_updateWhere ?_ h
  intro m hmarks hready
  simp only [marksMessage, hready, Bool.not_true, Bool.or_false, Bool.and_eq_true,
    decide_eq_true_eq] at hmarks
  rw [hmarks.2]
  rfl

theorem completeSound_markBodyState (h : CompleteSound a.messages a.state)
    (messageIds : List String) (status : BodyFetchStatus) :
    CompleteSound (markGmailMessagesBodyFetchState a messageIds status).messages
      (markGmailMessagesBodyFetchState a messageIds status).state := by
  unfold markGmailMessagesBodyFetchState
  dsimp only
  split
  · exact h
  split
  · exact completeSound_settled h _ (ready_marked _ status)
  · exact h.of_state id rfl rfl (ready_marked _ status)

theorem ready_filter (p : StoredMessage → Bool) (h : ∀ m ∈ a.messages, m.isReady = true) :
    ∀ m ∈ a.messages.filter p, m.isReady = true := by
  intro m hm
  exact h m (List.mem_of_mem_filter hm)

section

variable (h : CompleteSound a.messages a.state)
include h

theorem completeSound_recounted :
    CompleteSound (updateGmailBodyProgressOnConnection (recountWindow a)).messages
      (updateGmailBodyProgressOnConnection (recountWindow a)).state := by
  refine completeSound_bodyProgress ?_ _ _
  unfold recountWindow
  split
  · exact h
  · exact h.of_state id rfl rfl id

theorem completeSound_delete (messageIds : List String) :
    CompleteSound (deleteGmailMessages a messageIds).messages
      (deleteGmailMessages a messageIds).state := by
  unfold deleteGmailMessages
  dsimp only
  split
  · refine completeSound_recounted ?_
    exact h.of_state id rfl rfl (ready_filter _)
  · exact h.of_state id rfl rfl (ready_filter _)

theorem completeSound_deltaCompleted :
    CompleteSound (markHistoryDeltaCompleted a).messages (markHistoryDeltaCompleted a).state := by
  refine ⟨?_, h.bodies, h.ready⟩
  intro hphase
  simp only [markHistoryDeltaCompleted] at hphase
  split at hphase
  · exact h.phase hphase
  split at hphase
  · rename_i hbody
    exact hbody
  · cases hphase

theorem completeSound_activate (generationId : String)
    (complete : Bool) :
    CompleteSound (activateExistingGmailProgressiveSync a generationId complete).messages
      (activateExistingGmailProgressiveSync a generationId complete).state := by
  unfold activateExistingGmailProgressiveSync
  dsimp only
  split
  · exact h
  refine ⟨?_, ?_, ?_⟩
  · intro hphase
    by_contra hbody
    have hnot : ((complete || a.state.fullBackfillCompleted) && bodiesReady a.messages) = false :=
      Bool.eq_false_iff.2 hbody
    simp only [ImportState.activate, hnot, Bool.false_eq_true, if_false] at hphase
    exact absurd (complete_ite hphase (by decide)) (by decide)
  · intro hbody
    exact (Bool.and_eq_true_iff.1 hbody).1
  · intro hbody
    exact bodiesReady_iff.1 (Bool.and_eq_true_iff.1 hbody).2

theorem completeSound_startProgress (generationId : String) :
    CompleteSound (startGmailSyncProgress a generationId).messages
      (startGmailSyncProgress a generationId).state := by
  unfold startGmailSyncProgress
  dsimp only
  split
  · exact h
  unfold ImportState.start
  split
  · refine h.of_state ?_ rfl rfl id
    intro hphase
    dsimp only at hphase
    split at hphase
    · exact hphase
    · cases hphase
  · exact ⟨nofun, nofun, nofun⟩

theorem completeSound_initializeWindow (generation : String) (threadIds : List String) (estimated : Nat) :
    CompleteSound (initializeGmailInitialWindow a generation threadIds estimated).messages
      (initializeGmailInitialWindow a generation threadIds estimated).state := by
  unfold initializeGmailInitialWindow
  dsimp only
  split
  · exact h
  refine h.of_state ?_ rfl rfl id
  intro hphase
  exact absurd (complete_ite hphase (by decide)) (by decide)

theorem completeSound_commitBatch (generation : String)
    (threadIds : List String) (records : List Record) (terminalMissing : List String) :
    CompleteSound
      (commitGmailInitialWindowMetadataBatch a generation threadIds records
        terminalMissing).messages
      (commitGmailInitialWindowMetadataBatch a generation threadIds records
        terminalMissing).state := by
  unfold commitGmailInitialWindowMetadataBatch
  dsimp only
  split
  · exact h
  rename_i hguard
  simp only [Bool.or_eq_true, not_or, decide_eq_true_eq, not_not] at hguard
  have hgeneration : a.begin.state.syncGeneration ≠ none := by
    have hsome : a.begin.state.syncGeneration = some generation := hguard.2
    rw [hsome]
    exact nofun
  have hbegin : CompleteSound a.begin.messages a.begin.state := h
  refine (completeSound_upsert_generation hbegin hgeneration records).of_state ?_ rfl rfl id
  intro hphase
  exact absurd (complete_ite (complete_ite hphase (by decide)) (by decide)) (by decide)

theorem completeSound_commitPage (generation expected : String) (next : Option String) (records : List Record)
    (conversationCount estimated : Nat) :
    CompleteSound
      (commitGmailReconciliationMetadataPage a generation expected next records conversationCount
        estimated).messages
      (commitGmailReconciliationMetadataPage a generation expected next records conversationCount
        estimated).state := by
  unfold commitGmailReconciliationMetadataPage
  split
  · rename_i hguard
    have hadvanced : CompleteSound a.messages (a.state.commitPage next estimated) := by
      refine h.of_state ?_ rfl rfl id
      intro hphase
      simp only [ImportState.commitPage] at hphase
      split at hphase
      · exact hphase
      · exact complete_ite hphase (by decide)
    have hgeneration : (a.state.commitPage next estimated).syncGeneration ≠ none := by
      have hsome : (a.state.commitPage next estimated).syncGeneration = some generation :=
        hguard.2.2
      rw [hsome]
      exact nofun
    have hupserted := completeSound_upsert_generation
      (a := { a.begin with state := a.state.commitPage next estimated }) hadvanced hgeneration
      records
    exact hupserted.of_state id rfl rfl id
  · exact h

theorem completeSound_finalizeReconciliation (generation : String) (final : Nat) :
    CompleteSound (finalizeGmailReconciliation a generation final).messages
      (finalizeGmailReconciliation a generation final).state := by
  unfold finalizeGmailReconciliation
  split
  · exact h
  split
  · refine completeSound_finalize _ _ a.state ?_
    exact h.of_state id rfl rfl (ready_filter _)
  · exact h

end

end Transactions

/-! ## Steps and runs -/

theorem step_completeSound (h : CompleteSound a.messages a.state) {call : Call}
    (hcall : ¬ UncountedUpsert a call) :
    CompleteSound (step a call).messages (step a call).state := by
  cases call with
  | upsert records =>
    have hbegin : CompleteSound a.begin.messages a.begin.state := h
    refine completeSound_upsertOnConnection hbegin ?_
    intro hgeneration hbody hbrings
    exact hcall ⟨records, rfl, hgeneration, hbody, hbrings⟩
  | updateBodies records => exact completeSound_updateGmailMessageBodies h records
  | markBodyState messageIds status => exact completeSound_markBodyState h messageIds status
  | markBodyComplete => exact completeSound_bodyProgress h _ _
  | delete messageIds => exact completeSound_delete h messageIds
  | importStarted | importError =>
    exact h.of_state (fun hphase => complete_ite hphase (by decide)) rfl rfl id
  | importCompleted =>
    exact h.of_state id rfl rfl id
  | deltaCompleted => exact completeSound_deltaCompleted h
  | activate generation complete => exact completeSound_activate h generation complete
  | startProgress generation => exact completeSound_startProgress h generation
  | initializeWindow generation threadIds estimated =>
    exact completeSound_initializeWindow h generation threadIds estimated
  | commitBatch generation threadIds records terminalMissing =>
    exact completeSound_commitBatch h generation threadIds records terminalMissing
  | startReconciliation =>
    simp only [step, startGmailReconciliation]
    split
    · exact h
    split
    · exact h.of_state id rfl rfl id
    · exact h
  | recordPage =>
    simp only [step, recordGmailReconciliationPage]
    split
    · exact h.of_state id rfl rfl id
    · exact h
  | recordSeen =>
    simp only [step, recordGmailReconciliationSeen]
    split
    · exact h
    · exact h
  | commitPage generation expected next records conversationCount estimated =>
    exact completeSound_commitPage h generation expected next records conversationCount estimated
  | finalize generation final => exact completeSound_finalizeReconciliation h generation final
  | reset =>
    simp only [step, resetGmailReconciliation]
    split
    · exact h.of_state id rfl rfl id
    · exact h

theorem not_complete_of_uncounted {call : Call} (hcall : UncountedUpsert a call) :
    ¬ CompleteMeansComplete (step a call) := by
  obtain ⟨records, rfl, hgeneration, hbody, hbrings⟩ := hcall
  rintro ⟨-, hready⟩
  have hstate : (step a (.upsert records)).state = a.state := by
    simp only [step, upsertGmailMessages, upsertGmailMessagesOnConnection,
      ImportState.reopenHistory]
    simp [Account.begin, hgeneration]
  obtain ⟨m, hm, hunready⟩ :=
    (unready_upsertMessages_iff (a.now + 1) a.messages records).2 (Or.inr hbrings)
  rw [hstate] at hready
  have htrue := hready hbody m hm
  rw [hunready] at htrue
  cases htrue

/-- From a sound state `complete` means complete throughout a run exactly if no upsert of
the run is uncounted. -/
theorem complete_iff_of_sound (h : CompleteSound a.messages a.state) (run : List Call) :
    Throughout step CompleteMeansComplete a run ↔
      Along step (fun a call => ¬ UncountedUpsert a call) a run := by
  induction run generalizing a with
  | nil => exact ⟨fun _ => trivial, fun _ => h.complete⟩
  | cons call run ih =>
    constructor
    · rintro ⟨-, hrest⟩
      have hnext : CompleteMeansComplete (step a call) := by
        cases run with
        | nil => exact hrest
        | cons _ _ => exact hrest.1
      have hcall : ¬ UncountedUpsert a call := fun hcall =>
        not_complete_of_uncounted hcall hnext
      exact ⟨hcall, (ih (step_completeSound h hcall)).1 hrest⟩
    · rintro ⟨hcall, hrest⟩
      exact ⟨h.complete, (ih (step_completeSound h hcall)).2 hrest⟩

theorem completeSound_empty : CompleteSound Account.empty.messages Account.empty.state := by
  refine ⟨?_, ?_, ?_⟩
  · intro hphase
    cases hphase
  · intro hbody
    cases hbody
  · intro hbody
    cases hbody

/-- **The exact condition.** In every run from an account before its first import,
`complete` means complete in every state reached exactly if no upsert of the run brings an
unready message to a complete history without a generation. -/
theorem completeMeansComplete_iff (run : List Call) :
    Throughout step CompleteMeansComplete Account.empty run ↔
      Along step (fun a call => ¬ UncountedUpsert a call) Account.empty run :=
  complete_iff_of_sound completeSound_empty run

/-! ## The failing upsert -/

/-- A mailbox is reconciled while it is empty and no generation is set, and then a message
arrives whose body is missing. -/
def lateMessage : List Call :=
  [.startReconciliation "g1" "c1", .recordPage "g1" "c1" none [], .finalize "g1" 5,
    .upsert [⟨"m1", some "t1", some 6, some 10, .missing⟩]]

theorem lateMessage_not_complete :
    ¬ Throughout step CompleteMeansComplete Account.empty lateMessage := by
  intro h
  have hlast := h.last
  have hready := hlast.2 (by decide) ⟨"m1", some "t1", some 6, some 10, .missing, 4⟩ (by decide)
  cases hready

end ElectronicMail.Progress
