import ElectronicMail.Mailbox.Snapshot

/-!
# The accumulator and the plain merge

`appendingPage` collects the merge keys of a mailbox anew for every page, and
`MailboxPageAccumulator` keeps them. The accumulator copies a mailbox without its account
warnings, which a page does away with in both.
-/

namespace ElectronicMail.Mailbox

open Foundations

def MailboxResponse.appendingPage (m page : MailboxResponse) : MailboxResponse :=
  let nextSections := ((Merged.start m.sections).append page.sections).sections
  { appendedMetadata m page m.visibleRows (Section.allRows nextSections).length with
    sections := nextSections }

/-- The loop of `append` over sections, with the rows that it has counted. -/
def Merged.appendCounting (merged : Merged) (appendedRows : Nat)
    (sections : List GmailThreadSection) : Merged × Nat :=
  sections.foldl (fun (m, n) section_ =>
    (m.appendSection section_, n + (uniqueRows section_.rows m.seenRowKeys).1.length))
    (merged, appendedRows)

/-- What `append` returns. -/
def MailboxPageAccumulator.appendedRows (a : MailboxPageAccumulator) (page : MailboxResponse) :
    Nat :=
  (a.merged.appendCounting 0 page.sections).2

inductive AccumulatorCall where
  | append (page : MailboxResponse)
  | reset (response : MailboxResponse)

def MailboxPageAccumulator.call (a : MailboxPageAccumulator) :
    AccumulatorCall → MailboxPageAccumulator
  | .append page => a.append page
  | .reset response => .start response

def MailboxResponse.call (m : MailboxResponse) : AccumulatorCall → MailboxResponse
  | .append page => m.appendingPage page
  | .reset response => response

def StartsFrom (initial : MailboxResponse) (calls : List AccumulatorCall) (m : MailboxResponse) :
    Prop :=
  calls = [] ∧ m = initial ∨ calls.getLast? = some (.reset m)

/-! ## Keys -/

/-- The keys are those of the rows, which are under distinct sections. -/
structure Merged.Indexed (merged : Merged) : Prop where
  ids : (Section.ids merged.sections).Nodup
  seen : ∀ key, key ∈ merged.seenRowKeys ↔ key ∈ (Section.allRows merged.sections).flatMap mergeKeys

theorem Merged.indexed_start {sections : List GmailThreadSection}
    (h : (Section.ids sections).Nodup) : (Merged.start sections).Indexed :=
  ⟨h, fun _ => Iff.rfl⟩

theorem mem_seen_uniqueRows (rows : List GmailThreadRow) (seen : List MergeKey) (key : MergeKey) :
    key ∈ (uniqueRows rows seen).2 ↔
      key ∈ seen ∨ key ∈ (uniqueRows rows seen).1.flatMap mergeKeys := by
  induction rows generalizing seen with
  | nil => simp [uniqueRows]
  | cons row rows ih =>
    unfold uniqueRows
    split
    · exact ih seen
    · simp only [ih, List.mem_append, List.flatMap_cons]
      tauto

theorem uniqueRows_congr (rows : List GmailThreadRow) {seen seen' : List MergeKey}
    (h : ∀ key, key ∈ seen ↔ key ∈ seen') :
    (uniqueRows rows seen).1 = (uniqueRows rows seen').1 := by
  induction rows generalizing seen seen' with
  | nil => rfl
  | cons row rows ih =>
    have hany : ((mergeKeys row).any fun key => seen.contains key) =
        (mergeKeys row).any fun key => seen'.contains key := by
      congr 1
      funext key
      rw [Bool.eq_iff_iff, List.contains_iff_mem, List.contains_iff_mem]
      exact h key
    unfold uniqueRows
    rw [hany]
    split
    · exact ih h
    have hkeys : ∀ key, key ∈ mergeKeys row ++ seen ↔ key ∈ mergeKeys row ++ seen' := by
      intro key
      rw [List.mem_append, List.mem_append, h key]
    simp only [ih hkeys]

section Merging

variable {merged merged' : Merged}

theorem Merged.Indexed.appendSection (h : merged.Indexed) (section_ : GmailThreadSection) :
    (merged.appendSection section_).Indexed where
  ids := Section.nodup_ids_extend h.ids _ _ _
  seen := fun key => by
    have hperm := (Section.allRows_extend h.ids section_.id section_.title
      (uniqueRows section_.rows merged.seenRowKeys).1).flatMap_right mergeKeys
    show key ∈ (uniqueRows section_.rows merged.seenRowKeys).2 ↔ _
    rw [mem_seen_uniqueRows, h.seen, ← List.mem_append, ← List.flatMap_append]
    exact hperm.mem_iff.symm

theorem Merged.Indexed.append (h : merged.Indexed) (sections : List GmailThreadSection) :
    (merged.append sections).Indexed := by
  induction sections generalizing merged with
  | nil => exact h
  | cons section_ sections ih => exact ih (h.appendSection section_)

theorem Merged.Indexed.append_sections (h : merged.Indexed) (h' : merged'.Indexed)
    (hsections : merged.sections = merged'.sections) (sections : List GmailThreadSection) :
    (merged.append sections).sections = (merged'.append sections).sections := by
  induction sections generalizing merged merged' with
  | nil => exact hsections
  | cons section_ sections ih =>
    refine ih (h.appendSection section_) (h'.appendSection section_) ?_
    have hkeys : ∀ key, key ∈ merged.seenRowKeys ↔ key ∈ merged'.seenRowKeys := by
      intro key
      rw [h.seen, h'.seen, hsections]
    simp only [Merged.appendSection, hsections, uniqueRows_congr section_.rows hkeys]

theorem Merged.Indexed.length_appendCounting (h : merged.Indexed) (n : Nat)
    (sections : List GmailThreadSection) :
    (merged.appendCounting n sections).1 = merged.append sections ∧
      (Section.allRows (merged.append sections).sections).length + n =
        (Section.allRows merged.sections).length + (merged.appendCounting n sections).2 := by
  induction sections generalizing merged n with
  | nil => exact ⟨rfl, rfl⟩
  | cons section_ sections ih =>
    have hgrown := (Section.allRows_extend h.ids section_.id section_.title
      (uniqueRows section_.rows merged.seenRowKeys).1).length_eq
    rw [List.length_append] at hgrown
    obtain ⟨hmerged, hlength⟩ := ih (h.appendSection section_)
      (n + (uniqueRows section_.rows merged.seenRowKeys).1.length)
    refine ⟨hmerged, ?_⟩
    show (Section.allRows ((merged.appendSection section_).append sections).sections).length + n =
      _ + ((merged.appendSection section_).appendCounting _ sections).2
    have hsection : (Section.allRows (merged.appendSection section_).sections).length =
      (Section.allRows merged.sections).length +
        (uniqueRows section_.rows merged.seenRowKeys).1.length := hgrown
    omega

end Merging

/-! ## Calls -/

structure Holds (a : MailboxPageAccumulator) (m : MailboxResponse) : Prop where
  metadata : a.metadata = { m with sections := [], accountWarnings := none }
  sections : a.merged.sections = m.sections
  indexed : a.merged.Indexed
  visible : a.visibleRowCount = m.visibleRows

section Calls

variable {a : MailboxPageAccumulator} {m : MailboxResponse}

theorem holds_start (h : (Section.ids m.sections).Nodup) : Holds (.start m) m :=
  ⟨rfl, rfl, Merged.indexed_start h, rfl⟩

theorem Holds.append (h : Holds a m) (page : MailboxResponse) :
    Holds (a.append page) (m.appendingPage page) := by
  have hids : (Section.ids m.sections).Nodup := h.sections ▸ h.indexed.ids
  have hsections : (a.merged.append page.sections).sections =
      ((Merged.start m.sections).append page.sections).sections :=
    h.indexed.append_sections (Merged.indexed_start hids) h.sections page.sections
  refine ⟨?_, hsections, h.indexed.append page.sections, ?_⟩
  · show appendedMetadata a.metadata page a.visibleRowCount _ = _
    rw [h.metadata, h.visible, hsections]
    rfl
  · show ((Section.allRows (a.merged.append page.sections).sections).length : Int) = _
    rw [hsections]
    rfl

theorem Holds.call (h : Holds a m) (c : AccumulatorCall)
    (hreset : ∀ r, c = .reset r → (Section.ids r.sections).Nodup) :
    Holds (a.call c) (m.call c) := by
  cases c with
  | append page => exact h.append page
  | reset response => exact holds_start (hreset response rfl)

theorem Holds.calls (h : Holds a m) (calls : List AccumulatorCall)
    (hresets : ∀ r, .reset r ∈ calls → (Section.ids r.sections).Nodup) :
    Holds (calls.foldl MailboxPageAccumulator.call a) (calls.foldl MailboxResponse.call m) := by
  induction calls generalizing a m with
  | nil => exact h
  | cons c calls ih =>
    refine ih (h.call c ?_) fun r hr => hresets r (List.mem_cons_of_mem _ hr)
    rintro r rfl
    exact hresets r List.mem_cons_self

theorem Holds.snapshot_iff (h : Holds a m) : a.snapshot = m ↔ m.accountWarnings = none := by
  have hsnapshot : a.snapshot = { m with accountWarnings := none } := by
    unfold MailboxPageAccumulator.snapshot
    rw [h.metadata, h.sections]
  rw [hsnapshot]
  constructor
  · intro heq
    exact (congrArg MailboxResponse.accountWarnings heq).symm
  · intro hnone
    cases m
    cases hnone
    rfl

end Calls

theorem accountWarnings_calls (initial : MailboxResponse) (calls : List AccumulatorCall) :
    (calls.foldl MailboxResponse.call initial).accountWarnings = none ↔
      ∀ m, StartsFrom initial calls m → m.accountWarnings = none := by
  rcases List.eq_nil_or_concat calls with rfl | ⟨rest, c, rfl⟩
  · constructor
    · rintro h m (⟨-, rfl⟩ | hlast)
      · exact h
      · cases hlast
    · exact fun h => h initial (Or.inl ⟨rfl, rfl⟩)
  · rw [List.concat_eq_append, List.foldl_append]
    cases c with
    | append =>
      refine ⟨?_, fun _ => rfl⟩
      rintro - m (⟨hnil, -⟩ | hlast)
      · simp at hnil
      · simp at hlast
    | reset response =>
      constructor
      · rintro h m (⟨hnil, -⟩ | hlast)
        · simp at hnil
        · rw [List.getLast?_append] at hlast
          cases hlast
          exact h
      · exact fun h => h response (Or.inr (by simp))

/-- **The accumulator and the plain merge.** After any calls from a mailbox with distinct
sections, the snapshot is what the plain merge gives, unless the mailbox has warnings and nothing
has been appended since it was given. Every `append` returns the number of rows that it adds. -/
theorem accumulator_eq_iff (initial : MailboxResponse) (calls : List AccumulatorCall)
    (hids : (Section.ids initial.sections).Nodup)
    (hresets : ∀ r, .reset r ∈ calls → (Section.ids r.sections).Nodup) :
    ((calls.foldl MailboxPageAccumulator.call (.start initial)).snapshot =
        calls.foldl MailboxResponse.call initial ↔
      ∀ m, StartsFrom initial calls m → m.accountWarnings = none) ∧
    ∀ page, let a := calls.foldl MailboxPageAccumulator.call (.start initial)
      (a.append page).snapshot.rows.length = a.snapshot.rows.length + a.appendedRows page ∧
        (a.append page).visibleRowCount = a.visibleRowCount + a.appendedRows page := by
  have hholds := (holds_start hids).calls calls hresets
  refine ⟨hholds.snapshot_iff.trans (accountWarnings_calls initial calls), ?_⟩
  intro page
  generalize calls.foldl MailboxPageAccumulator.call (.start initial) = a at hholds
  have hlength := (hholds.indexed.length_appendCounting 0 page.sections).2
  have hvisible : a.visibleRowCount = ((Section.allRows a.merged.sections).length : Int) := by
    rw [hholds.visible, hholds.sections]
    rfl
  refine ⟨hlength, ?_⟩
  rw [hvisible]
  show ((Section.allRows (a.merged.append page.sections).sections).length : Int) = _
  exact_mod_cast hlength

def warnedMailbox : MailboxResponse where
  label := .inbox
  totalThreads := 0
  unreadThreads := none
  nextCursor := none
  loadedThreads := none
  windowDays := none
  sections := []
  counts := ⟨none, none, none, none, none, none, none, none⟩
  pendingCount := none
  mailboxRevision := none
  generatedAt := none
  oldestImportedAt := none
  fullImportRunning := none
  completions := ⟨none, none, none, none⟩
  syncGeneration := none
  phase := none
  lastProgressAt := none
  accountWarnings := some ["Reconnect your account."]

/-- Without a page the snapshot has lost the warning. -/
theorem warning_lost : (MailboxPageAccumulator.start warnedMailbox).snapshot ≠ warnedMailbox := by
  decide

theorem accumulator_after_page :
    (MailboxPageAccumulator.start warnedMailbox |>.append warnedMailbox).snapshot =
      warnedMailbox.appendingPage warnedMailbox := by
  refine (accumulator_eq_iff warnedMailbox [.append warnedMailbox] List.nodup_nil ?_).1.2 ?_
  · intro r hr
    simp at hr
  · rintro m (⟨hnil, -⟩ | hlast)
    · cases hnil
    · simp at hlast

end ElectronicMail.Mailbox
