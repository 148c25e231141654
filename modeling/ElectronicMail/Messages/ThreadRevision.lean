import Mathlib.Data.List.Nodup
import ElectronicMail.Foundations.LengthPrefix
import ElectronicMail.Messages.BodyKept
import ElectronicMail.Messages.ContentRevision

/-!
# The revision token of a thread

The reader and the thread list identify the state of a thread by a hash of one text:
the ids and content revisions of its messages, sorted by id, each as
`length:id:revision` with nothing between them. The service computes the text and two
SQL statements aggregate it.

The text is not a key for two reasons. A revision runs into the length that follows
it, so sets with an id that holds a colon in the wrong place share a text, and a
message that is deleted and imported again starts at the revision it was imported
with (`revisionToken_refuted`). `revisionToken_sound` says that the three
implementations agree, that sets of other ids have different texts, and that along a
run without such writes equal texts mean equal threads.
-/

namespace ElectronicMail.Messages

open Foundations
open Foundations.LengthPrefix (Splits frame frames frames_inj)

/-! ## The text that is hashed -/

structure ThreadMessage where
  messageId : String
  contentRevision : Nat

def sortedById (messages : List ThreadMessage) : List ThreadMessage :=
  messages.mergeSort fun a b => decide (a.messageId ≤ b.messageId)

/-- `f"{len(message_id)}:{message_id}:{max(1, int(content_revision or 1))}"`. -/
def revisionEntry (message : ThreadMessage) : String :=
  toString message.messageId.length ++ ":" ++ message.messageId ++ ":" ++
    toString (max 1 (if message.contentRevision = 0 then 1 else message.contentRevision))

/-- The text that `_gmail_thread_content_revision` hashes. -/
def gmailThreadContentRevision (messages : List ThreadMessage) : String :=
  String.join ((sortedById messages).map revisionEntry)

/-- `STRING_AGG(…, '')`, which is null on no rows. -/
def stringAgg (texts : List String) : Option String :=
  if texts = [] then none else some (String.join texts)

/-- `CHAR_LENGTH(message_id)::TEXT || ':' || message_id || ':' ||
GREATEST(content_revision, 1)::TEXT`. -/
def aggregatedEntry (message : ThreadMessage) : String :=
  toString message.messageId.length ++ (":" ++ (message.messageId ++ (":" ++
    toString (max message.contentRevision 1))))

/-- `COALESCE(STRING_AGG(… ORDER BY message_id), '')`. -/
def aggregatedRevision (rows : List ThreadMessage) : String :=
  (stringAgg ((sortedById rows).map aggregatedEntry)).getD ""

/-- The text behind `thread_content_revision` in `get_gmail_thread_message_page`. -/
def threadContentRevision (rows : List ThreadMessage) : String := aggregatedRevision rows

/-- The text behind `mailbox_content_revision` in `list_mailbox_thread_page`. -/
def mailboxContentRevision (rows : List ThreadMessage) : String := aggregatedRevision rows

/-- A finite set of messages with their revisions, whose ids do not split. -/
structure PlainMessages (messages : List ThreadMessage) : Prop where
  nodup : (messages.map ThreadMessage.messageId).Nodup
  id_ne : ∀ m ∈ messages, m.messageId ≠ ""
  revision_pos : ∀ m ∈ messages, 1 ≤ m.contentRevision
  plain : ∀ m ∈ messages, ¬ Splits m.messageId.toList

/-! ## The three implementations agree -/

theorem aggregatedEntry_eq (message : ThreadMessage) :
    aggregatedEntry message = revisionEntry message := by
  have hrevision : max message.contentRevision 1 =
      max 1 (if message.contentRevision = 0 then 1 else message.contentRevision) := by
    split <;> omega
  simp only [aggregatedEntry, revisionEntry, hrevision, String.append_assoc]

theorem aggregatedRevision_eq (rows : List ThreadMessage) :
    aggregatedRevision rows = gmailThreadContentRevision rows := by
  unfold aggregatedRevision gmailThreadContentRevision stringAgg
  rw [funext aggregatedEntry_eq]
  split
  · rename_i hnil
    rw [hnil]
    rfl
  · rfl

variable {A B : List ThreadMessage}

/-! ## One text for one set -/

theorem sortedById_congr (hnodup : (A.map ThreadMessage.messageId).Nodup) (hperm : A.Perm B) :
    sortedById A = sortedById B := by
  have hsorted : ∀ messages, List.Pairwise (fun a b => a.messageId ≤ b.messageId)
      (sortedById messages) := by
    intro messages
    have h : (sortedById messages).Pairwise fun a b => decide (a.messageId ≤ b.messageId) :=
      List.pairwise_mergeSort (fun a b c hab hbc => by
        simp only [decide_eq_true_eq] at *
        exact String.le_trans hab hbc)
        (fun a b => by simpa using String.le_total a.messageId b.messageId) messages
    simpa using h
  have hperm' : (sortedById A).Perm (sortedById B) :=
    (List.mergeSort_perm A _).trans (hperm.trans (List.mergeSort_perm B _).symm)
  apply hperm'.eq_of_pairwise _ (hsorted A) (hsorted B)
  intro a b ha hb hab hba
  apply List.inj_on_of_nodup_map hnodup (List.mem_mergeSort.1 ha)
    (hperm.mem_iff.2 (List.mem_mergeSort.1 hb))
  exact String.le_antisymm hab hba

variable {messages : List ThreadMessage}

theorem sortedById_of_pairwise (h : messages.Pairwise fun a b => a.messageId ≤ b.messageId) :
    sortedById messages = messages := by
  apply List.mergeSort_of_pairwise
  simpa using h

def asRecord (message : ThreadMessage) : List Char × Nat :=
  (message.messageId.toList, max 1 message.contentRevision)

theorem toList_revisionEntry (message : ThreadMessage) :
    (revisionEntry message).toList = frame (asRecord message) := by
  have hrevision : max 1 (if message.contentRevision = 0 then 1 else message.contentRevision) =
      max 1 message.contentRevision := by
    split <;> omega
  simp [revisionEntry, frame, asRecord, LengthPrefix.digits, hrevision, String.length_toList]

theorem toList_gmailThreadContentRevision (messages : List ThreadMessage) :
    (gmailThreadContentRevision messages).toList = frames ((sortedById messages).map asRecord) := by
  unfold gmailThreadContentRevision frames
  rw [String.toList_join, List.flatMap_map, List.flatMap_map]
  simp only [toList_revisionEntry]

def ofRecord (record : List Char × Nat) : ThreadMessage := ⟨String.ofList record.1, record.2⟩

theorem ofRecord_asRecord (hplain : PlainMessages messages) :
    ((sortedById messages).map asRecord).map ofRecord = sortedById messages := by
  rw [List.map_map]
  calc (sortedById messages).map (ofRecord ∘ asRecord) = (sortedById messages).map id := by
        apply List.map_congr_left
        intro m hm
        have hpos := hplain.revision_pos m (List.mem_mergeSort.1 hm)
        simp [ofRecord, asRecord, Nat.max_eq_right hpos]
    _ = sortedById messages := List.map_id _

/-- **Different texts for different sets**, as long as no id splits. -/
theorem gmailThreadContentRevision_eq_iff (hA : PlainMessages A) (hB : PlainMessages B) :
    gmailThreadContentRevision A = gmailThreadContentRevision B ↔ A.Perm B := by
  constructor
  · intro h
    have hrecords : ∀ {messages : List ThreadMessage}, PlainMessages messages →
        ∀ x ∈ (sortedById messages).map asRecord, x.1 ≠ [] ∧ ¬ Splits x.1 := by
      intro messages hplain x hx
      obtain ⟨m, hm, rfl⟩ := List.mem_map.1 hx
      have hmem := List.mem_mergeSort.1 hm
      exact ⟨fun hnil => hplain.id_ne m hmem (String.toList_eq_nil_iff.1 hnil), hplain.plain m hmem⟩
    have hlists := congrArg String.toList h
    rw [toList_gmailThreadContentRevision, toList_gmailThreadContentRevision] at hlists
    have hsame := frames_inj (hrecords hA) (hrecords hB) hlists
    have hsorted : sortedById A = sortedById B := by
      rw [← ofRecord_asRecord hA, ← ofRecord_asRecord hB, hsame]
    calc A.Perm (sortedById A) := (List.mergeSort_perm A _).symm
      _ = sortedById B := hsorted
      List.Perm _ B := List.mergeSort_perm B _
  · intro hperm
    unfold gmailThreadContentRevision
    rw [sortedById_congr hA.nodup hperm]

/-! ## Runs of writes and deletions -/

/-- A write to the messages of an account, or `delete_gmail_messages`. -/
inductive StoreWrite where
  | body (w : BodyWrite)
  | forceLabels (messageId : String) (labels : List String)
  | backfillDescriptors (messageId : String) (descriptors : String)
  | delete (messageIds : List String)

/-- The stored messages, with the highest revision that a deleted row of each id had. -/
structure MessageStore where
  table : MessageTable
  retired : String → Nat

def MessageStore.empty : MessageStore := ⟨fun _ => none, fun _ => 0⟩

/-- `DELETE FROM gmail_messages WHERE message_id = ANY(…)`; empty ids are dropped. -/
def deleteMessages (messageIds : List String) (s : MessageStore) : MessageStore where
  table := fun id => if id ≠ "" ∧ id ∈ messageIds then none else s.table id
  retired := fun id =>
    if id ≠ "" ∧ id ∈ messageIds then
      max (s.retired id) (((s.table id).map GmailMessage.contentRevision).getD 0)
    else s.retired id

/-- The key of the thread a row is in:
`COALESCE(NULLIF(gmail_thread_id, ''), message_id)`. -/
def threadKey (messageId : String) (row : GmailMessage) : String :=
  match row.gmailThreadId with
  | none => messageId
  | some threadId => if threadId = "" then messageId else threadId

def threadView (table : MessageTable) (thread messageId : String) : Option ReaderView :=
  ((table messageId).filter fun row => decide (threadKey messageId row = thread)).map readerView

structure ThreadRows (table : MessageTable) (thread : String) (rows : List ThreadMessage) :
    Prop where
  nodup : (rows.map ThreadMessage.messageId).Nodup
  mem_iff : ∀ m, m ∈ rows ↔ ∃ row, table m.messageId = some row ∧
    threadKey m.messageId row = thread ∧ row.contentRevision = m.contentRevision

variable {w : MessageWrite}

section Store

variable (gmailAttachmentDescriptors : Json → List Json)

def storeStep (s : MessageStore) : StoreWrite → MessageStore
  | .body w => { s with table := bodyStep gmailAttachmentDescriptors s.table w }
  | .forceLabels messageId labels =>
    { s with table := writeStep s.table (.forceLabels messageId labels) }
  | .backfillDescriptors messageId descriptors =>
    { s with table := writeStep s.table (.backfillDescriptors messageId descriptors) }
  | .delete messageIds => deleteMessages messageIds s

/-- What a write must not do: mark an unread body fetched, insert a message again at a
revision that it had before it was deleted, or insert an id that splits. -/
def KeepsToken (s : MessageStore) : StoreWrite → Prop
  | .body (.markBodyState messageIds status error now) =>
    ¬ MarksUnreadyFetched s.table (.markBodyState messageIds status error now)
  | .body (.upsert record _) =>
    s.table record.messageId = none →
      s.retired record.messageId < (max 1 record.contentRevision).toNat ∧
        record.messageId ≠ "" ∧ ¬ Splits record.messageId.toList
  | _ => True

/-! ## One write -/

theorem RevisionSound.trans {first second third : GmailMessage}
    (h : RevisionSound first second) (h' : RevisionSound second third) :
    RevisionSound first third := by
  refine ⟨Nat.le_trans h.1 h'.1, fun hview => ?_⟩
  by_cases hsecond : readerView second = readerView first
  · exact Nat.lt_of_le_of_lt h.1 (h'.2 (hsecond ▸ hview))
  · exact Nat.lt_of_lt_of_le (h.2 hsecond) h'.1

variable {table : MessageTable}

theorem writeStep_sound (hw : ¬ MarksUnreadyFetched table w) {messageId : String}
    {before : GmailMessage} (hbefore : table messageId = some before) :
    ∃ row, writeStep table w messageId = some row ∧ RevisionSound before row := by
  obtain ⟨row, hrow, -⟩ := writeStep_change w hbefore
  exact ⟨row, hrow, ((cacheKeySound_step_iff table w).2 hw).1 messageId before row hbefore hrow⟩

theorem writeStep_none {messageId : String} (hnone : table messageId = none)
    (hw : ∀ u, w = .upsert u → u.messageId ≠ messageId) : writeStep table w messageId = none := by
  have hupdate : ∀ target f, updateMessage table target f messageId = none := by
    intro target f
    rcases eq_or_ne messageId target with rfl | hne
    · rw [updateMessage_self, hnone]
      rfl
    · rw [updateMessage_of_ne hne, hnone]
  cases w with
  | upsert u => exact (applyUpsert_of_ne (Ne.symm (hw u rfl)) table).trans hnone
  | forceLabels =>
    simp only [writeStep]
    split
    · exact hnone
    · exact hupdate _ _
  | updateBody | backfillDescriptors => exact hupdate _ _
  | markBodyState =>
    rw [writeStep_markBodyState, hnone]
    simp

/-- What a write does to the row of one id: a stored row is changed soundly or deleted
and its revision retired, and a missing row stays missing or is inserted. -/
inductive IdChange (s s' : MessageStore) (messageId : String) : Prop where
  | changed {before row : GmailMessage} (hbefore : s.table messageId = some before)
      (hrow : s'.table messageId = some row) (hsound : RevisionSound before row)
      (hretired : s'.retired messageId = s.retired messageId)
  | deleted {before : GmailMessage} (hbefore : s.table messageId = some before)
      (hrow : s'.table messageId = none)
      (hretired : s'.retired messageId = max (s.retired messageId) before.contentRevision)
  | missing (hbefore : s.table messageId = none) (hrow : s'.table messageId = none)
      (hretired : s'.retired messageId = s.retired messageId)
  | inserted {row : GmailMessage} (hbefore : s.table messageId = none)
      (hrow : s'.table messageId = some row) (hretired : s'.retired messageId = s.retired messageId)
      (hnew : s.retired messageId < row.contentRevision) (hid : messageId ≠ "")
      (hplain : ¬ Splits messageId.toList)

/-- A statement of `gmail_messages` other than an upsert. -/
theorem idChange_of_writeStep (s : MessageStore)
    (hw : ¬ MarksUnreadyFetched s.table w) (hinsert : ∀ u, w ≠ .upsert u) (messageId : String) :
    IdChange s { s with table := writeStep s.table w } messageId := by
  cases hbefore : s.table messageId with
  | none =>
    exact .missing hbefore (writeStep_none hbefore fun u hu => absurd hu (hinsert u)) rfl
  | some =>
    obtain ⟨row, hrow, hsound⟩ := writeStep_sound hw hbefore
    exact .changed hbefore hrow hsound rfl

/-- **The step lemma.** -/
theorem idChange_storeStep (s : MessageStore) (w : StoreWrite) (hkeeps : KeepsToken s w)
    (messageId : String) :
    IdChange s (storeStep gmailAttachmentDescriptors s w) messageId := by
  cases w with
  | body w =>
    cases w with
    | upsert record now =>
      cases hbefore : s.table messageId with
      | some =>
        obtain ⟨row, hrow, hsound⟩ := writeStep_sound (w := .upsert ⟨record.messageId,
          messageParams gmailAttachmentDescriptors now record, now⟩) (fun h => h) hbefore
        exact .changed hbefore hrow hsound rfl
      | none =>
        rcases eq_or_ne messageId record.messageId with rfl | hne
        · obtain ⟨hnew, hid, hplain⟩ := hkeeps hbefore
          have hrow : applyUpsert s.table ⟨record.messageId,
              messageParams gmailAttachmentDescriptors now record, now⟩ record.messageId =
                some (messageParams gmailAttachmentDescriptors now record) := by
            rw [applyUpsert_self, hbefore]
            rfl
          exact .inserted hbefore hrow rfl hnew hid hplain
        · exact .missing hbefore ((applyUpsert_of_ne hne s.table).trans hbefore) rfl
    | updateBodies record now =>
      simp only [storeStep, bodyStep]
      split
      · exact idChange_of_writeStep s (w := .updateBody record.messageId
          (messageParams gmailAttachmentDescriptors now record) now) (fun h => h)
          (fun u h => by cases h) messageId
      · cases hbefore : s.table messageId with
        | none => exact .missing hbefore hbefore rfl
        | some before => exact .changed hbefore hbefore (.refl before) rfl
    | markBodyState =>
      exact idChange_of_writeStep s hkeeps (fun u h => by cases h) messageId
  | forceLabels target labels =>
    exact idChange_of_writeStep s (w := .forceLabels target labels) (fun h => h)
      (fun u h => by cases h) messageId
  | backfillDescriptors target descriptors =>
    exact idChange_of_writeStep s (w := .backfillDescriptors target descriptors) (fun h => h)
      (fun u h => by cases h) messageId
  | delete messageIds =>
    have htable : (storeStep gmailAttachmentDescriptors s (.delete messageIds)).table messageId =
        if messageId ≠ "" ∧ messageId ∈ messageIds then none else s.table messageId := rfl
    have hretired :
        (storeStep gmailAttachmentDescriptors s (.delete messageIds)).retired messageId =
          if messageId ≠ "" ∧ messageId ∈ messageIds then
            max (s.retired messageId)
              (((s.table messageId).map GmailMessage.contentRevision).getD 0)
          else s.retired messageId := rfl
    cases hbefore : s.table messageId with
    | none =>
      refine .missing hbefore ?_ ?_
      · rw [htable, hbefore, ite_self]
      · rw [hretired, hbefore]
        simp
    | some before =>
      by_cases hmem : messageId ≠ "" ∧ messageId ∈ messageIds
      · refine .deleted hbefore ?_ ?_
        · rw [htable, if_pos hmem]
        · rw [hretired, if_pos hmem, hbefore]
          rfl
      · refine .changed hbefore ?_ (.refl before) ?_
        · rw [htable, if_neg hmem, hbefore]
        · rw [hretired, if_neg hmem]

/-! ## Whole runs -/

variable {gmailAttachmentDescriptors}

def StoresPlain (s : MessageStore) : Prop :=
  ∀ messageId row, s.table messageId = some row →
    messageId ≠ "" ∧ ¬ Splits messageId.toList ∧ 1 ≤ row.contentRevision

/-- A row of the first state is still there with a sound revision, was deleted and its
revision retired, or is there again with a higher revision. -/
def Later (first s : MessageStore) : Prop :=
  ∀ messageId before, first.table messageId = some before →
    (∃ row, s.table messageId = some row ∧ RevisionSound before row) ∨
      (s.table messageId = none ∧ before.contentRevision ≤ s.retired messageId)

theorem storesPlain_step (s : MessageStore) (w : StoreWrite) (hs : StoresPlain s)
    (hkeeps : KeepsToken s w) : StoresPlain (storeStep gmailAttachmentDescriptors s w) := by
  intro messageId row hrow
  cases idChange_storeStep gmailAttachmentDescriptors s w hkeeps messageId with
  | changed hbefore hrow' hsound _ =>
    obtain rfl := Option.some.inj (hrow'.symm.trans hrow)
    obtain ⟨hid, hplain, hpos⟩ := hs messageId _ hbefore
    exact ⟨hid, hplain, Nat.le_trans hpos hsound.1⟩
  | deleted _ hnone _ | missing _ hnone _ => exact absurd (hnone.symm.trans hrow) (nofun)
  | inserted _ hrow' _ hnew hid hplain =>
    obtain rfl := Option.some.inj (hrow'.symm.trans hrow)
    exact ⟨hid, hplain, by omega⟩

theorem later_step (first s : MessageStore) (w : StoreWrite) (hs : Later first s)
    (hkeeps : KeepsToken s w) : Later first (storeStep gmailAttachmentDescriptors s w) := by
  intro messageId before hbefore
  rcases hs messageId before hbefore with ⟨row, hrow, hsound⟩ | ⟨hnone, hretired⟩
  · cases idChange_storeStep gmailAttachmentDescriptors s w hkeeps messageId with
    | changed hmiddle hrow' hsound' _ =>
      obtain rfl := Option.some.inj (hmiddle.symm.trans hrow)
      exact Or.inl ⟨_, hrow', hsound.trans hsound'⟩
    | deleted hmiddle hnone hretired =>
      obtain rfl := Option.some.inj (hmiddle.symm.trans hrow)
      refine Or.inr ⟨hnone, ?_⟩
      rw [hretired]
      exact Nat.le_trans hsound.1 (Nat.le_max_right _ _)
    | missing hmiddle _ _ | inserted hmiddle => exact absurd (hmiddle.symm.trans hrow) (nofun)
  · cases idChange_storeStep gmailAttachmentDescriptors s w hkeeps messageId with
    | changed hmiddle | deleted hmiddle _ _ => exact absurd (hnone.symm.trans hmiddle) (nofun)
    | missing _ hnone' hsame => exact Or.inr ⟨hnone', hsame ▸ hretired⟩
    | inserted _ hrow' _ hnew _ _ =>
      -- A message that comes back has a revision it never had.
      have hlt := Nat.lt_of_le_of_lt hretired hnew
      exact Or.inl ⟨_, hrow', Nat.le_of_lt hlt, fun _ => hlt⟩

variable {first : MessageStore} {writes : List StoreWrite}

theorem later_after
    (hkeeps : Along (storeStep gmailAttachmentDescriptors) KeepsToken first writes) :
    Later first (after (storeStep gmailAttachmentDescriptors) first writes) := by
  have hself : Later first first :=
    fun messageId before hbefore => Or.inl ⟨before, hbefore, .refl before⟩
  exact (throughout_of_step (I := Later first) (fun s w hs hw => later_step first s w hs hw)
    hself hkeeps).last

variable (gmailAttachmentDescriptors)

theorem storesPlain_after
    (hkeeps : Along (storeStep gmailAttachmentDescriptors) KeepsToken .empty writes) :
    StoresPlain (after (storeStep gmailAttachmentDescriptors) .empty writes) := by
  have hempty : StoresPlain .empty := fun messageId row hrow => nomatch hrow
  exact (throughout_of_step (I := StoresPlain) (fun s w hs hw => storesPlain_step s w hs hw)
    hempty hkeeps).last

theorem StoresPlain.rows {s : MessageStore} (hs : StoresPlain s) {thread : String}
    {rows : List ThreadMessage} (hrows : ThreadRows s.table thread rows) :
    PlainMessages rows := by
  have hstored : ∀ m ∈ rows,
      m.messageId ≠ "" ∧ ¬ Splits m.messageId.toList ∧ 1 ≤ m.contentRevision := by
    intro m hm
    obtain ⟨row, hrow, -, hrevision⟩ := (hrows.mem_iff m).1 hm
    exact hrevision ▸ hs m.messageId row hrow
  exact ⟨hrows.nodup, fun m hm => (hstored m hm).1, fun m hm => (hstored m hm).2.2,
    fun m hm => (hstored m hm).2.1⟩

theorem threadView_eq_of_later {s : MessageStore} (hlater : Later first s) {thread : String}
    (hA : ThreadRows first.table thread A) (hB : ThreadRows s.table thread B) (hperm : A.Perm B)
    (messageId : String) :
    threadView first.table thread messageId = threadView s.table thread messageId := by
  have hview : ∀ (table : MessageTable) row, table messageId = some row →
      threadKey messageId row = thread →
        threadView table thread messageId = some (readerView row) := by
    intro table row hrow hkey
    simp [threadView, hrow, hkey]
  by_cases hmem : ∃ m ∈ A, m.messageId = messageId
  · obtain ⟨m, hm, rfl⟩ := hmem
    obtain ⟨before, hbefore, hkey, hrevision⟩ := (hA.mem_iff m).1 hm
    obtain ⟨row, hrow, hkey', hrevision'⟩ := (hB.mem_iff m).1 (hperm.mem_iff.1 hm)
    rw [hview _ _ hbefore hkey, hview _ _ hrow hkey']
    rcases hlater m.messageId before hbefore with ⟨row', hrow', hsound⟩ | ⟨hnone, -⟩
    · obtain rfl := Option.some.inj (hrow'.symm.trans hrow)
      by_contra hne
      have hlt := hsound.2 fun heq => hne (congrArg some heq.symm)
      omega
    · exact absurd (hnone.symm.trans hrow) (nofun)
  · -- No row of the id is in the thread, before or after.
    have hnone : ∀ {table : MessageTable} {rows : List ThreadMessage},
        ThreadRows table thread rows → (∀ m ∈ rows, m.messageId ≠ messageId) →
          threadView table thread messageId = none := by
      intro table rows hrows habsent
      cases hrow : table messageId with
      | none => simp [threadView, hrow]
      | some row =>
        by_cases hkey : threadKey messageId row = thread
        · exact absurd rfl (habsent ⟨messageId, row.contentRevision⟩
            ((hrows.mem_iff _).2 ⟨row, hrow, hkey, rfl⟩))
        · simp [threadView, hrow, hkey]
    rw [hnone hA fun m hm heq => hmem ⟨m, hm, heq⟩,
      hnone hB fun m hm heq => hmem ⟨m, hperm.mem_iff.2 hm, heq⟩]

/-- **The revision token.** The service and both statements hash one text, which is
different for different sets of messages whose ids do not split. In a run of writes
without a `fetched` mark of an unread body, a message that comes back at a revision it
had, or an id that splits, two states of a thread with one text show the same. -/
theorem revisionToken_sound (writes : List StoreWrite)
    (hkeeps : Along (storeStep gmailAttachmentDescriptors) KeepsToken .empty writes) :
    (∀ messages, threadContentRevision messages = gmailThreadContentRevision messages ∧
        mailboxContentRevision messages = gmailThreadContentRevision messages) ∧
      (∀ A B, PlainMessages A → PlainMessages B →
        (gmailThreadContentRevision A = gmailThreadContentRevision B ↔ A.Perm B)) ∧
      ∀ pre pre', pre <+: writes → pre' <+: writes → ∀ thread A B,
        ThreadRows (after (storeStep gmailAttachmentDescriptors) .empty pre).table thread A →
        ThreadRows (after (storeStep gmailAttachmentDescriptors) .empty pre').table thread B →
        gmailThreadContentRevision A = gmailThreadContentRevision B →
          ∀ messageId,
            threadView (after (storeStep gmailAttachmentDescriptors) .empty pre).table
                thread messageId =
              threadView (after (storeStep gmailAttachmentDescriptors) .empty pre').table
                thread messageId := by
  refine ⟨fun messages => ⟨aggregatedRevision_eq messages, aggregatedRevision_eq messages⟩,
    fun A B hA hB => gmailThreadContentRevision_eq_iff hA hB, ?_⟩
  have hordered : ∀ pre rest, pre ++ rest <+: writes → ∀ thread A B,
      ThreadRows (after (storeStep gmailAttachmentDescriptors) .empty pre).table thread A →
      ThreadRows (after (storeStep gmailAttachmentDescriptors) .empty (pre ++ rest)).table
        thread B →
      gmailThreadContentRevision A = gmailThreadContentRevision B →
        ∀ messageId,
          threadView (after (storeStep gmailAttachmentDescriptors) .empty pre).table
              thread messageId =
            threadView (after (storeStep gmailAttachmentDescriptors) .empty (pre ++ rest)).table
              thread messageId := by
    intro pre rest hprefix thread A B hA hB htext messageId
    have hwhole := Along.initial hprefix hkeeps
    have hfirst := Along.initial (List.prefix_append pre rest) hwhole
    have hperm := (gmailThreadContentRevision_eq_iff ((storesPlain_after _ hfirst).rows hA)
      ((storesPlain_after _ hwhole).rows hB)).1 htext
    rw [after_append] at hB ⊢
    apply threadView_eq_of_later _ hA hB hperm
    exact later_after (Along.append_right hwhole)
  intro pre pre' hpre hpre' thread A B hA hB htext messageId
  rcases List.prefix_or_prefix_of_prefix hpre hpre' with ⟨rest, rfl⟩ | ⟨rest, rfl⟩
  · exact hordered pre rest hpre' thread A B hA hB htext messageId
  · exact (hordered pre' rest hpre thread B A hB hA htext.symm messageId).symm

end Store

/-! ## Two texts for two threads -/

theorem threadRows_singleton {table : MessageTable} {messageId : String} {row : GmailMessage}
    (hrow : table messageId = some row) (hother : ∀ other, other ≠ messageId → table other = none) :
    ThreadRows table (threadKey messageId row) [⟨messageId, row.contentRevision⟩] := by
  refine ⟨by simp, fun m => ?_⟩
  rw [List.mem_singleton]
  constructor
  · rintro rfl
    exact ⟨row, hrow, rfl, rfl⟩
  rintro ⟨row', hrow', -, hrevision⟩
  obtain ⟨id, revision⟩ := m
  have hid : id = messageId := by
    by_contra hne
    exact absurd ((hother id hne).symm.trans hrow') (nofun)
  subst hid
  obtain rfl := Option.some.inj (hrow.symm.trans hrow')
  exact congrArg (ThreadMessage.mk id) hrevision.symm

def reimportRun : List StoreWrite :=
  [.body (.upsert metadataRecord "2026-01-01T00:00:00Z"), .delete ["m1"],
    .body (.upsert { metadataRecord with subject := some "Reminder" } "2026-01-02T00:00:00Z")]

/-- The row of the message as it was first imported, and as it came back. -/
def importedRow : GmailMessage := messageParams (fun _ => []) "2026-01-01T00:00:00Z" metadataRecord

def reimportedRow : GmailMessage :=
  messageParams (fun _ => []) "2026-01-02T00:00:00Z"
    { metadataRecord with subject := some "Reminder" }

/-- Two sets of messages share a text, and the thread with the message that came back
has the text it had before the message was deleted. -/
theorem revisionToken_refuted :
    gmailThreadContentRevision [⟨"a", 1⟩, ⟨"b:16:cccccc", 1⟩] =
        gmailThreadContentRevision [⟨"a", 11⟩, ⟨"b", 1⟩, ⟨"cccccc", 1⟩] ∧
      ThreadRows (after (storeStep fun _ => []) .empty (reimportRun.take 1)).table "t1"
        [⟨"m1", 1⟩] ∧
      ThreadRows (after (storeStep fun _ => []) .empty reimportRun).table "t1" [⟨"m1", 1⟩] ∧
      threadView (after (storeStep fun _ => []) .empty (reimportRun.take 1)).table "t1" "m1" ≠
        threadView (after (storeStep fun _ => []) .empty reimportRun).table "t1" "m1" := by
  have hfirst : (after (storeStep fun _ => []) .empty (reimportRun.take 1)).table "m1" =
      some importedRow := rfl
  have hlast : (after (storeStep fun _ => []) .empty reimportRun).table "m1" =
      some reimportedRow := rfl
  refine ⟨?_, ?_, ?_, ?_⟩
  · simp only [gmailThreadContentRevision]
    rw [sortedById_of_pairwise (by decide +kernel), sortedById_of_pairwise (by decide +kernel)]
    decide +kernel
  · exact threadRows_singleton hfirst fun other hne => Function.update_of_ne hne _ _
  · refine threadRows_singleton hlast fun other hne => (Function.update_of_ne hne _ _).trans ?_
    show (if other ≠ "" ∧ other ∈ ["m1"] then none else _) = none
    split
    · rfl
    · exact Function.update_of_ne hne _ _
  · intro heq
    have hsubject := congrArg (fun view => view.map ReaderView.subject) heq
    exact absurd hsubject (by decide)

def labelRun : List StoreWrite :=
  [.body (.upsert metadataRecord "2026-01-01T00:00:00Z"), .forceLabels "m1" ["UNREAD"]]

/-- The labels change what the reader shows, so the text changes. -/
theorem revisionToken_sound_labelRun :
    gmailThreadContentRevision [⟨"m1", 1⟩] ≠ gmailThreadContentRevision [⟨"m1", 2⟩] := by
  intro htext
  have hplain : ¬ Splits "m1".toList := LengthPrefix.not_splits_of_not_mem (by decide)
  have hkeeps : Along (storeStep fun _ => []) KeepsToken .empty labelRun :=
    ⟨fun _ => ⟨by decide, by decide, hplain⟩, trivial, trivial⟩
  have hother : ∀ other, other ≠ "m1" →
      (after (storeStep fun _ => []) .empty (labelRun.take 1)).table other = none :=
    fun other hne => Function.update_of_ne hne _ _
  have hfirst : (after (storeStep fun _ => []) .empty (labelRun.take 1)).table "m1" =
      some importedRow := rfl
  have hlast : (after (storeStep fun _ => []) .empty labelRun).table "m1" =
      some (forceRowLabels ["UNREAD"] importedRow) := rfl
  have hview := (revisionToken_sound (fun _ => []) labelRun hkeeps).2.2 (labelRun.take 1) labelRun
    (List.take_prefix 1 labelRun) (List.prefix_refl labelRun) "t1" [⟨"m1", 1⟩] [⟨"m1", 2⟩]
    (threadRows_singleton hfirst hother)
    (threadRows_singleton hlast
      fun other hne => (Function.update_of_ne hne _ _).trans (hother other hne))
    htext "m1"
  have hlabels := congrArg (fun view => view.map ReaderView.labelIds) hview
  exact absurd hlabels (by decide)

end ElectronicMail.Messages
