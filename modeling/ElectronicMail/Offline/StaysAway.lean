import ElectronicMail.Offline.MailboxStore
import ElectronicMail.Offline.Merging

/-!
# Replaced generations and removed threads

`stays_away` says when a generation that the stored mailbox has left is never stored again,
and a thread that has been removed does not come back by itself. `writeSession` tests only
its own snapshot against the retired generations, and clears tombstones by what its first
merge has given, so it must find in the session a mailbox of the stored generation, or bring
one that replaces both.
-/

namespace ElectronicMail.Offline

open Foundations

/-! ## The law -/

def MailboxResponse.threadIds (m : MailboxResponse) : List Nat :=
  m.rows.map GmailThreadRow.threadId

/-- The store, the generations that the stored mailbox has moved away from, and the removals
that nothing has undone. -/
structure StoreRun where
  store : MailboxStore
  left : List (List Char)
  removed : List Tombstone

def movedFrom (s s' : MailboxStore) : List (List Char) :=
  match s.mailbox.bind MailboxResponse.generation with
  | some generation =>
    if s'.mailbox.bind MailboxResponse.generation = some generation then [] else [generation]
  | none => []

def recordRemovals (threadIds : List Nat) (m : MailboxResponse) (removed : List Tombstone) :
    List Tombstone :=
  threadIds.map (fun t => ⟨m.scope, t, normalized m.mailboxRevision, progressDate m⟩) ++
    removed.filter fun t => !(t.scope == m.scope && threadIds.contains t.threadId)

/-- The removals that `writeMailbox` leaves. -/
def removedAfterWrite (incoming : MailboxResponse) (label : MailboxLabel) (edit : MailboxEdit)
    (removed : List Tombstone) : List Tombstone :=
  let recorded := recordRemovals edit.removingThreadIds incoming removed
  let cleared :=
    if edit.reentryLabels.contains label then
      clearForReentry edit.reenteringThreadIds incoming recorded
    else recorded
  clearIncluded incoming cleared

/-- The removals after a call: a call that names the thread for re-entry ends its removal, and
so does a complete snapshot with a later date and another revision that includes it. -/
def removedAfter (label : MailboxLabel) (r : StoreRun) : StoreCall → List Tombstone
  | .writeMailbox m edit =>
    if m.label ≠ label ∨ r.store.isRetired m = true then r.removed
    else
      removedAfterWrite (incomingOf m r.store.mailbox edit.removingThreadIds) label edit r.removed
  | .writeSession m =>
    if m.label ≠ label ∨ r.store.isRetired m = true then r.removed
    else clearIncluded m r.removed
  | .fails => r.removed

def StoreRun.step (label : MailboxLabel) (r : StoreRun) (c : StoreCall) : StoreRun where
  store := r.store.step label c
  left := movedFrom r.store (r.store.step label c) ++ r.left
  removed := removedAfter label r c

/-- No generation that has been left is stored, and no thread that has been removed under the
stored generation. -/
structure AwayKept (r : StoreRun) : Prop where
  generation : ∀ b ∈ r.store.mailbox, ∀ g ∈ b.generation, g ∉ r.left
  thread : ∀ b ∈ r.store.mailbox, ∀ t ∈ r.removed, ∀ g, b.generation = some g →
    t.scope = .generation g → t.threadId ∉ b.threadIds

def Replaces (cached incoming : MailboxResponse) : Prop :=
  incoming.generation.isSome = true ∧
    (cached.generation.isSome && isDemonstrablyOlder incoming cached) = false

instance (cached incoming : MailboxResponse) : Decidable (Replaces cached incoming) :=
  inferInstanceAs (Decidable (_ ∧ _))

def keptOf (cached incoming : MailboxResponse) : MailboxResponse :=
  if cached.generation = incoming.generation ∨ Replaces cached incoming then incoming else cached

/-- A snapshot that removes threads is of the stored generation, or replaces it. -/
def RemovesStored (s : MailboxStore) (m : MailboxResponse) (edit : MailboxEdit) : Prop :=
  edit.removingThreadIds ≠ [] → ∀ b ∈ s.mailbox,
    b.generation = (incomingOf m s.mailbox edit.removingThreadIds).generation ∨
      Replaces b (incomingOf m s.mailbox edit.removingThreadIds)

/-- What the merge with the mailbox of the session keeps is of the stored generation, or it is
the snapshot, and that replaces the stored mailbox, or it does not replace the stored mailbox,
and no thread is removed from that. -/
def SessionFollows (s : MailboxStore) (m : MailboxResponse) : Prop :=
  ∀ c ∈ s.session, ∀ b ∈ s.mailbox,
    (keptOf c m).generation = b.generation ∨ (keptOf c m = m ∧ Replaces b m) ∨
      (¬ Replaces b (keptOf c m) ∧ tombstonesOf b.scope s.tombstones = [])

def KeepsAway (r : StoreRun) : StoreCall → Prop
  | .writeMailbox m edit => RemovesStored r.store m edit
  | .writeSession m => SessionFollows r.store m
  | .fails => True

/-! ## Rows and generations -/

variable {threadIds : List Nat}

theorem mem_sectionRows_removeRows {sections : List GmailThreadSection} {r : GmailThreadRow} :
    r ∈ sectionRows (removeRows threadIds sections) ↔
      r ∈ sectionRows sections ∧ r.threadId ∉ threadIds := by
  rw [sectionRows_removeRows, List.mem_filter]
  simp

variable {m : MailboxResponse}

theorem mem_threadIds_removing {removed : List Nat} {t : Nat} :
    t ∈ (m.removingCachedThreadIds removed).threadIds ↔ t ∈ m.threadIds ∧ t ∉ removed := by
  unfold MailboxResponse.removingCachedThreadIds
  by_cases hnone : (m.rows.filter fun r => removed.contains r.threadId).isEmpty = true
  · simp only [hnone, if_true]
    have hout : ∀ r ∈ m.rows, r.threadId ∉ removed := by
      simpa [List.isEmpty_iff, List.filter_eq_nil_iff] using hnone
    constructor
    · intro ht
      obtain ⟨r, hr, rfl⟩ := List.mem_map.1 ht
      exact ⟨ht, hout r hr⟩
    · exact fun h => h.1
  · simp only [hnone]
    constructor
    · intro ht
      obtain ⟨r, hr, rfl⟩ := List.mem_map.1 ht
      obtain ⟨hr, hout⟩ := mem_sectionRows_removeRows.1 hr
      exact ⟨List.mem_map_of_mem hr, hout⟩
    · rintro ⟨ht, hout⟩
      obtain ⟨r, hr, rfl⟩ := List.mem_map.1 ht
      exact List.mem_map_of_mem (mem_sectionRows_removeRows.2 ⟨hr, hout⟩)

theorem removing_identity (m : MailboxResponse) (removed : List Nat) :
    (m.removingCachedThreadIds removed).label = m.label ∧
      (m.removingCachedThreadIds removed).generation = m.generation ∧
      (m.removingCachedThreadIds removed).scope = m.scope ∧
      progressDate (m.removingCachedThreadIds removed) = progressDate m := by
  unfold MailboxResponse.removingCachedThreadIds
  by_cases hnone : (m.rows.filter fun r => removed.contains r.threadId).isEmpty = true
  · simp only [hnone, if_true]
    exact ⟨trivial, trivial, trivial, trivial⟩
  · simp only [hnone]
    exact ⟨rfl, rfl, rfl, rfl⟩

variable {g : List Char}

theorem scope_of_generation (h : m.generation = some g) : m.scope = .generation g := by
  unfold MailboxResponse.scope
  rw [h]

theorem generation_of_scope (h : m.scope = .generation g) : m.generation = some g := by
  unfold MailboxResponse.scope at h
  split at h
  · next generation hgen => rw [hgen, GenerationScope.generation.inj h]
  · cases h
  · cases h

variable {cached incoming : MailboxResponse}

/-! ## One merge -/

theorem keptOf_of_eq
    (h : cached.generation = incoming.generation) : keptOf cached incoming = incoming :=
  if_pos (Or.inl h)

theorem cacheSafeSnapshot_of_ne
    (hlabel : cached.label = incoming.label) (h : cached.generation ≠ incoming.generation) :
    cacheSafeSnapshot cached incoming = keptOf cached incoming := by
  unfold cacheSafeSnapshot keptOf
  rw [if_neg (not_not.2 hlabel), if_pos h]
  cases hgen : incoming.generation with
  | none => simp [Replaces, hgen, hgen ▸ h]
  | some g =>
    by_cases hold : (cached.generation.isSome && isDemonstrablyOlder incoming cached) = true
    · simp [Replaces, hgen, hold, hgen ▸ h]
    · have hfalse := Bool.eq_false_iff.2 hold
      simp [Replaces, hgen, hfalse]

theorem cacheSafeSnapshot_generation (hlabel : cached.label = incoming.label) :
    (cacheSafeSnapshot cached incoming).generation = (keptOf cached incoming).generation := by
  by_cases h : cached.generation = incoming.generation
  · rw [keptOf_of_eq h]
    unfold cacheSafeSnapshot
    rw [if_neg (not_not.2 hlabel), if_neg (not_not.2 h)]
    split
    · split
      · exact h
      · rfl
    · exact generation_mergingSameGeneration h
  · rw [cacheSafeSnapshot_of_ne hlabel h]

theorem cacheSafeSnapshot_label (hlabel : cached.label = incoming.label) :
    (cacheSafeSnapshot cached incoming).label = incoming.label := by
  unfold cacheSafeSnapshot mergingSameGeneration
  rw [if_neg (not_not.2 hlabel)]
  split
  · split
    · exact hlabel
    · split
      · exact hlabel
      · rfl
  · split
    · split
      · exact hlabel
      · rfl
    · split
      · exact hlabel
      · rfl

variable {t : Tombstone}

variable {tombstones : List Tombstone}

theorem mem_tombstonesOf {scope : GenerationScope} :
    t ∈ tombstonesOf scope tombstones ↔ t ∈ tombstones ∧ t.scope = scope := by
  simp [tombstonesOf]

theorem applyingTombstones_clean (tombstones : List Tombstone) (m : MailboxResponse) :
    ∀ t ∈ tombstones, t.scope = m.scope →
      t.threadId ∉ (applyingTombstones tombstones m).threadIds := by
  intro t ht hscope hin
  apply (mem_threadIds_removing.1 hin).2
  exact List.mem_map_of_mem (mem_tombstonesOf.2 ⟨ht, hscope⟩)

/-- What `cacheSafeMailboxSnapshot` gives: the mailbox of the generation that is kept, without
the threads of its tombstones, which are the only ones left. -/
structure MergedInto (s : MailboxStore) (cached incoming : MailboxResponse) (s' : MailboxStore)
    (m : MailboxResponse) : Prop where
  label : m.label = incoming.label
  generation : m.generation = (keptOf cached incoming).generation
  progress : cached.generation ≠ incoming.generation →
    progressDate m = progressDate (keptOf cached incoming)
  retired : ∀ g ∈ s.retired, g ∈ s'.retired
  retires : cached.generation ≠ incoming.generation → Replaces cached incoming →
    ∀ g ∈ cached.generation, g ∈ s'.retired
  tombstones : s'.tombstones = tombstonesOf m.scope s.tombstones
  clean : ∀ t ∈ s'.tombstones, t.threadId ∉ m.threadIds

variable {s : MailboxStore}

theorem cacheSafe_merged (hlabel : cached.label = incoming.label) :
    MergedInto s cached incoming (s.cacheSafe cached incoming).1 (s.cacheSafe cached incoming).2 := by
  obtain ⟨hid, hgen, hscope, hdate⟩ := removing_identity (cacheSafeSnapshot cached incoming)
    ((tombstonesOf (cacheSafeSnapshot cached incoming).scope
      (s.cacheSafe cached incoming).1.tombstones).map Tombstone.threadId)
  refine ⟨hid.trans (cacheSafeSnapshot_label hlabel),
    hgen.trans (cacheSafeSnapshot_generation hlabel), ?_, ?_, ?_, ?_, ?_⟩
  · intro hne
    rw [← cacheSafeSnapshot_of_ne hlabel hne]
    exact hdate
  · exact fun g hg => List.mem_append_right _ hg
  · intro hne hreplaces g hg
    apply List.mem_append_left
    obtain ⟨g', hg'⟩ := Option.isSome_iff_exists.1 hreplaces.1
    have hkept : keptOf cached incoming = incoming := if_pos (Or.inr hreplaces)
    have hafter : (cacheSafeSnapshot cached incoming).generation = some g' := by
      rw [cacheSafeSnapshot_generation hlabel, hkept, hg']
    have hcached : cached.generation = some g := hg
    rw [hcached, hg'] at hne
    unfold retiredBy
    simp only [hcached, hg', hafter]
    rw [if_pos ⟨fun h => hne (congrArg some h), trivial⟩]
    exact List.mem_singleton_self g
  · exact (congrArg (fun scope => tombstonesOf scope s.tombstones) hscope).symm
  · intro t ht
    exact applyingTombstones_clean _ _ t ht (mem_tombstonesOf.1 ht).2

/-! ## Removals -/

theorem mem_clearForReentry : t ∈ clearForReentry threadIds m tombstones ↔
      t ∈ tombstones ∧ ¬ (t.scope = m.scope ∧ t.threadId ∈ threadIds) := by
  simp [clearForReentry, imp_iff_not_or]

variable {removed : List Tombstone}

theorem clearIncluded_mono (ht : t ∈ clearIncluded m removed) (hin : t ∈ tombstones) :
    t ∈ removed ∧ t ∈ clearIncluded m tombstones := by
  unfold clearIncluded at ht ⊢
  split at ht
  · exact ⟨(List.mem_filter.1 ht).1, List.mem_filter.2 ⟨hin, (List.mem_filter.1 ht).2⟩⟩
  · exact ⟨ht, hin⟩

theorem clearIncluded_subset (ht : t ∈ clearIncluded m removed) : t ∈ removed :=
  (clearIncluded_mono ht ht).1

variable {cached : Option MailboxResponse}

theorem clearForInclusion_of_included (ht : t ∈ clearIncluded m removed) (hin : t ∈ tombstones) :
    t ∈ clearForInclusion m cached tombstones := by
  unfold clearForInclusion
  split
  · exact (clearIncluded_mono ht hin).2
  · exact hin

variable {label : MailboxLabel}

/-- A removal that is still there after the call is one of the call, or it was there before,
and the tables keep it as far as they have had it. -/
theorem removedAfterWrite_cases {edit : MailboxEdit}
    (ht : t ∈ removedAfterWrite incoming label edit removed) :
    (edit.removingThreadIds ≠ [] ∧ t.scope = incoming.scope ∧
        t ∈ s.editedTombstones incoming label edit) ∨ (t ∈ removed ∧ (t ∈ s.tombstones →
        (edit.removingThreadIds ≠ [] → t.scope = incoming.scope) →
          t ∈ s.editedTombstones incoming label edit)) := by
  -- What the clearing lets through, it lets through of the tombstones too.
  have hkeeps : ∀ recorded : List Tombstone, t ∈ recorded →
      t ∈ clearForInclusion incoming s.mailbox
        (if edit.reentryLabels.contains label then
          clearForReentry edit.reenteringThreadIds incoming recorded
        else recorded) := by
    intro recorded hin
    refine clearForInclusion_of_included ht ?_
    have hcleared := clearIncluded_subset ht
    split at hcleared
    · next hre =>
        rw [if_pos hre]
        exact mem_clearForReentry.2 ⟨hin, (mem_clearForReentry.1 hcleared).2⟩
    · next hre =>
        rw [if_neg hre]
        exact hin
  have hrecorded : t ∈ recordRemovals edit.removingThreadIds incoming removed := by
    have hcleared := clearIncluded_subset ht
    split at hcleared
    · exact (mem_clearForReentry.1 hcleared).1
    · exact hcleared
  unfold MailboxStore.editedTombstones
  rcases List.mem_append.1 hrecorded with hnew | hold
  · obtain ⟨u, hu, rfl⟩ := List.mem_map.1 hnew
    have hne : edit.removingThreadIds ≠ [] := List.ne_nil_of_mem hu
    refine Or.inl ⟨hne, rfl, ?_⟩
    rw [if_neg (by simpa using hne)]
    exact hkeeps _ (List.mem_append_left _ hnew)
  · obtain ⟨hremoved, hout⟩ := List.mem_filter.1 hold
    refine Or.inr ⟨hremoved, fun hin hscope => ?_⟩
    by_cases hempty : edit.removingThreadIds = []
    · rw [if_pos (by simp [hempty])]
      exact hkeeps _ hin
    rw [if_neg (by simpa using hempty)]
    apply hkeeps
    have hscope := hscope hempty
    have hkept : t.threadId ∉ edit.removingThreadIds := by
      simpa [hscope] using hout
    exact List.mem_append_right _ (List.mem_filter.2
      ⟨mem_tombstonesOf.2 ⟨hin, hscope⟩, by simpa using hkept⟩)

/-! ## The invariant -/

/-- Every generation that has been left is retired, the session holds the stored generation or
one that has been left, and so does every removal, with its tombstone in the first case. -/
structure Fenced (label : MailboxLabel) (r : StoreRun) : Prop where
  sessionLabel : ∀ c ∈ r.store.session, c.label = label
  mailboxLabel : ∀ b ∈ r.store.mailbox, b.label = label
  both : r.store.session.isSome = true → r.store.mailbox.isSome = true
  fresh : r.store.mailbox = none → r.store.retired = []
  session : ∀ c ∈ r.store.session, ∀ g, c.generation = some g →
    g ∈ r.left ∨ ∃ b ∈ r.store.mailbox, b.generation = some g
  current : ∀ b ∈ r.store.mailbox, ∀ g ∈ b.generation, g ∉ r.left
  retired : ∀ g ∈ r.left, g ∈ r.store.retired
  removed : ∀ t ∈ r.removed, ∀ g, t.scope = .generation g → g ∈ r.left ∨
    ∃ b ∈ r.store.mailbox, b.generation = some g ∧ t ∈ r.store.tombstones
  clean : ∀ b ∈ r.store.mailbox, ∀ t ∈ r.store.tombstones, t.scope = b.scope →
    t.threadId ∉ b.threadIds

variable {r : StoreRun}

theorem awayKept_of_fenced (h : Fenced label r) : AwayKept r where
  generation := h.current
  thread := by
    intro b hb t ht g hg hscope
    rcases h.removed t ht g hscope with hleft | ⟨b', hb', _, hin⟩
    · exact absurd hleft (h.current b hb g hg)
    · cases hb.symm.trans hb'
      exact h.clean b hb t hin (hscope.trans (scope_of_generation hg).symm)

/-- The stored mailbox moves on: what is to be shown of the call. `b'` is what it stores. -/
structure StoresNext (label : MailboxLabel) (r : StoreRun) (s' : MailboxStore)
    (removed' : List Tombstone) (b' : MailboxResponse) : Prop where
  mailbox : s'.mailbox = some b'
  label : b'.label = label
  session : s'.session = r.store.session ∨ s'.session = some b'
  generation : ∀ g ∈ b'.generation, g ∈ r.store.retired →
    ∃ b ∈ r.store.mailbox, b.generation = some g
  retired : ∀ g ∈ r.store.retired, g ∈ s'.retired
  retires : ∀ b ∈ r.store.mailbox, ∀ g, b.generation = some g → b'.generation = some g ∨
    g ∈ s'.retired
  removed : ∀ t ∈ removed', ∀ g, t.scope = .generation g → g ∈ r.left ∨
    (∃ b ∈ r.store.mailbox, b.generation = some g ∧ b'.generation ≠ some g) ∨
      (b'.generation = some g ∧ t ∈ s'.tombstones)
  clean : ∀ t ∈ s'.tombstones, t.scope = b'.scope → t.threadId ∉ b'.threadIds

variable {s' : MailboxStore} {b' : MailboxResponse}

theorem mem_movedFrom (hs' : s'.mailbox = some b') :
    g ∈ movedFrom s s' ↔ ∃ b ∈ s.mailbox, b.generation = some g ∧ b'.generation ≠ some g := by
  unfold movedFrom
  rw [hs']
  cases hs : s.mailbox with
  | none => simp
  | some b =>
    cases hb : b.generation with
    | none => simp [hb]
    | some g₀ =>
      simp only [Option.bind_some, hb]
      split
      · next hsame =>
          simp only [List.not_mem_nil, Option.mem_def, Option.some.injEq, exists_eq_left',
            hb, false_iff, not_and, not_not]
          rintro rfl
          exact hsame
      · next hother =>
          simp only [List.mem_singleton, Option.mem_def, Option.some.injEq, exists_eq_left', hb]
          constructor
          · rintro rfl
            exact ⟨rfl, hother⟩
          · exact fun h => h.1.symm

variable {removed' : List Tombstone}

/-- **The invariant is kept by what stores the next mailbox.** -/
theorem fenced_of_storesNext (h : Fenced label r) (hnext : StoresNext label r s' removed' b') :
    Fenced label ⟨s', movedFrom r.store s' ++ r.left, removed'⟩ := by
  have hmoved : ∀ b ∈ r.store.mailbox, ∀ g, b.generation = some g → b'.generation ≠ some g →
      g ∈ movedFrom r.store s' ++ r.left := fun b hb g hg hne =>
    List.mem_append_left _ ((mem_movedFrom hnext.mailbox).2 ⟨b, hb, hg, hne⟩)
  have hstored : ∀ b ∈ s'.mailbox, b = b' := fun b hb =>
    (Option.some.inj (hnext.mailbox.symm.trans hb)).symm
  refine ⟨?_, ?_, ?_, ?_, ?_, ?_, ?_, ?_, ?_⟩
  · intro c hc
    rcases hnext.session with hsame | hnew
    · exact h.sessionLabel c (hsame ▸ hc)
    · rw [← Option.some.inj (hnew.symm.trans hc)]
      exact hnext.label
  · intro b hb
    rw [hstored b hb]
    exact hnext.label
  · intro _
    simp [hnext.mailbox]
  · intro hnone
    cases hnext.mailbox.symm.trans hnone
  · intro c hc g hg
    rcases hnext.session with hsame | hnew
    · rcases h.session c (hsame ▸ hc) g hg with hleft | ⟨b, hb, hbg⟩
      · exact Or.inl (List.mem_append_right _ hleft)
      · by_cases hstill : b'.generation = some g
        · exact Or.inr ⟨b', hnext.mailbox, hstill⟩
        · exact Or.inl (hmoved b hb g hbg hstill)
    · rw [← Option.some.inj (hnew.symm.trans hc)] at hg
      exact Or.inr ⟨b', hnext.mailbox, hg⟩
  · intro b hb g hg hleft
    rw [hstored b hb] at hg
    rcases List.mem_append.1 hleft with hmove | hleft
    · obtain ⟨_, _, _, hne⟩ := (mem_movedFrom hnext.mailbox).1 hmove
      exact hne hg
    · obtain ⟨b₀, hb₀, hg₀⟩ := hnext.generation g hg (h.retired g hleft)
      exact h.current b₀ hb₀ g hg₀ hleft
  · intro g hg
    rcases List.mem_append.1 hg with hmove | hleft
    · obtain ⟨b, hb, hbg, hne⟩ := (mem_movedFrom hnext.mailbox).1 hmove
      exact (hnext.retires b hb g hbg).resolve_left hne
    · exact hnext.retired g (h.retired g hleft)
  · intro t ht g hscope
    rcases hnext.removed t ht g hscope with hleft | ⟨b, hb, hbg, hne⟩ | ⟨hg, hin⟩
    · exact Or.inl (List.mem_append_right _ hleft)
    · exact Or.inl (hmoved b hb g hbg hne)
    · exact Or.inr ⟨b', hnext.mailbox, hg, hin⟩
  · intro b hb
    rw [hstored b hb]
    exact hnext.clean

/-! ## Merging into what is stored -/

theorem isRetired_eq_false : s.isRetired m = false ↔ ∀ g ∈ m.generation, g ∉ s.retired := by
  unfold MailboxStore.isRetired
  cases m.generation with
  | none | some g => simp

theorem replaces_congr {b m' : MailboxResponse} (hgen : m'.generation = m.generation)
    (hdate : progressDate m' = progressDate m) : Replaces b m' ↔ Replaces b m := by
  unfold Replaces isDemonstrablyOlder
  rw [hgen, hdate]

/-- A merge keeps the generation of one of the two, and that of the incoming snapshot when it
replaces the other. -/
theorem keptOf_generation_cases (c m : MailboxResponse) :
    (c.generation = m.generation ∧ (keptOf c m).generation = c.generation) ∨
      (c.generation ≠ m.generation ∧ Replaces c m ∧ keptOf c m = m) ∨
        (c.generation ≠ m.generation ∧ ¬ Replaces c m ∧ keptOf c m = c) := by
  by_cases heq : c.generation = m.generation
  · exact Or.inl ⟨heq, by rw [keptOf_of_eq heq, heq]⟩
  · by_cases hreplaces : Replaces c m
    · exact Or.inr (Or.inl ⟨heq, hreplaces, if_pos (Or.inr hreplaces)⟩)
    · exact Or.inr (Or.inr ⟨heq, hreplaces, if_neg (by simp [heq, hreplaces])⟩)

/-- The merge with the stored mailbox, after what has led to the store `w` and the snapshot
`m`. -/
theorem storesNext_merge (h : Fenced label r) {w : MailboxStore} (hm : m.label = label)
    (hretired : ∀ g ∈ r.store.retired, g ∈ w.retired) (hmailbox : s'.mailbox = some b')
    (hsession : s'.session = r.store.session ∨ s'.session = some b')
    (hs' : s'.retired = (w.mergeWith r.store.mailbox m).1.retired ∧
      s'.tombstones = (w.mergeWith r.store.mailbox m).1.tombstones)
    (hlabel : b'.label = (w.mergeWith r.store.mailbox m).2.label)
    (hgeneration : b'.generation = (w.mergeWith r.store.mailbox m).2.generation)
    (hclean : ∀ t ∈ s'.tombstones, t.scope = b'.scope → t.threadId ∉ b'.threadIds)
    (hgen : ∀ g ∈ b'.generation, g ∈ r.store.retired → ∃ b ∈ r.store.mailbox, b.generation = some g)
    (hremoved : ∀ t ∈ removed', ∀ g, t.scope = .generation g → g ∈ r.left ∨
      ((∃ b ∈ r.store.mailbox, b.generation = some g) ∧
          (b'.generation = some g → t ∈ w.tombstones)) ∨
        (b'.generation = some g ∧ t ∈ w.tombstones)) : StoresNext label r s' removed' b' := by
  have hstays : ∀ t ∈ w.tombstones, ∀ g, t.scope = .generation g → b'.generation = some g →
      t ∈ s'.tombstones := by
    intro t ht g hscope hg
    rw [hs'.2]
    cases hb : r.store.mailbox with
    | none => exact ht
    | some b =>
      have hmerged := cacheSafe_merged (s := w) ((h.mailboxLabel b hb).trans hm.symm)
      rw [hb] at hgeneration
      show t ∈ (w.cacheSafe b m).1.tombstones
      rw [hmerged.tombstones]
      have hgen' : (w.cacheSafe b m).2.generation = some g := hgeneration.symm.trans hg
      exact mem_tombstonesOf.2 ⟨ht, hscope.trans (scope_of_generation hgen').symm⟩
  refine ⟨hmailbox, ?_, hsession, hgen, ?_, ?_, ?_, hclean⟩
  · rw [hlabel]
    cases hb : r.store.mailbox with
    | none => exact hm
    | some b =>
      exact (cacheSafe_merged (s := w) ((h.mailboxLabel b hb).trans hm.symm)).label.trans hm
  · intro g hg
    rw [hs'.1]
    cases hb : r.store.mailbox with
    | none => exact hretired g hg
    | some b =>
      exact (cacheSafe_merged ((h.mailboxLabel b hb).trans hm.symm)).retired g (hretired g hg)
  · intro b hb g hg
    have hb : r.store.mailbox = some b := hb
    have hmerged := cacheSafe_merged (s := w) ((h.mailboxLabel b hb).trans hm.symm)
    rw [hb] at hgeneration hs'
    rw [hgeneration, hs'.1]
    show (w.cacheSafe b m).2.generation = some g ∨ g ∈ (w.cacheSafe b m).1.retired
    rcases keptOf_generation_cases b m with ⟨_, hkept⟩ | ⟨hne, hreplaces, _⟩ | ⟨_, _, hkept⟩
    · exact Or.inl (hmerged.generation.trans (hkept.trans hg))
    · exact Or.inr (hmerged.retires hne hreplaces g hg)
    · exact Or.inl (hmerged.generation.trans ((congrArg _ hkept).trans hg))
  · intro t ht g hscope
    rcases hremoved t ht g hscope with hleft | ⟨⟨b, hb, hbg⟩, hin⟩ | ⟨hg, hin⟩
    · exact Or.inl hleft
    · by_cases hg : b'.generation = some g
      · exact Or.inr (Or.inr ⟨hg, hstays t (hin hg) g hscope hg⟩)
      · exact Or.inr (Or.inl ⟨b, hb, hbg, hg⟩)
    · exact Or.inr (Or.inr ⟨hg, hstays t hin g hscope hg⟩)

theorem mergeWith_generation (hlabel : ∀ c ∈ cached, c.label = m.label) :
    (cached = none ∧ (s.mergeWith cached m).2.generation = m.generation) ∨
      ∃ c ∈ cached, (s.mergeWith cached m).2.generation = (keptOf c m).generation := by
  cases hc : cached with
  | none => exact Or.inl ⟨rfl, rfl⟩
  | some c => exact Or.inr ⟨c, rfl, (cacheSafe_merged (hlabel c hc)).generation⟩

/-! ## Calls -/

theorem incomingOf_generation (m : MailboxResponse) (cached : Option MailboxResponse)
    (removing : List Nat) :
    (incomingOf m cached removing).label = m.label ∧
      ((incomingOf m cached removing).generation = m.generation ∨
        ∃ b ∈ cached, (incomingOf m cached removing).generation = b.generation) := by
  unfold incomingOf
  split
  · next c =>
      unfold MailboxResponse.inheriting
      split
      · exact ⟨rfl, Or.inl rfl⟩
      refine ⟨rfl, ?_⟩
      cases hm : m.syncGeneration with
      | none =>
        refine Or.inr ⟨c, rfl, ?_⟩
        simp [MailboxResponse.generation]
      | some g =>
        refine Or.inl ?_
        simp [MailboxResponse.generation, hm]
  · exact ⟨rfl, Or.inl rfl⟩

theorem counted_identity (edit : MailboxEdit) (m incoming : MailboxResponse) :
    (edit.counted m incoming).label = m.label ∧
      (edit.counted m incoming).generation = m.generation ∧
      (edit.counted m incoming).scope = m.scope ∧
      (edit.counted m incoming).threadIds = m.threadIds := by
  unfold MailboxEdit.counted
  split
  · exact ⟨rfl, rfl, rfl, rfl⟩
  · exact ⟨rfl, rfl, rfl, rfl⟩

theorem mergeWith_session (s : MailboxStore) (cached : Option MailboxResponse)
    (m : MailboxResponse) : (s.mergeWith cached m).1.session = s.session := by
  unfold MailboxStore.mergeWith
  cases cached with
  | none | some c => rfl

theorem mergeStored_spec (hlabel : ∀ b ∈ s.mailbox, b.label = m.label) :
    (s.mergeStored m).1 = (s.mergeWith s.mailbox m).1 ∧
      (s.mergeStored m).2.label = (s.mergeWith s.mailbox m).2.label ∧
      (s.mergeStored m).2.generation = (s.mergeWith s.mailbox m).2.generation ∧
      ∀ t ∈ (s.mergeStored m).1.tombstones, t.scope = (s.mergeStored m).2.scope →
        t.threadId ∉ (s.mergeStored m).2.threadIds := by
  unfold MailboxStore.mergeStored MailboxStore.mergeWith
  cases hb : s.mailbox with
  | none =>
    obtain ⟨hid, hgen, hscope, _⟩ := removing_identity m
      ((tombstonesOf m.scope s.tombstones).map Tombstone.threadId)
    refine ⟨rfl, hid, hgen, fun t ht hin => ?_⟩
    exact applyingTombstones_clean s.tombstones m t ht (hin.trans hscope)
  | some b =>
    refine ⟨rfl, rfl, rfl, fun t ht _ => ?_⟩
    exact (cacheSafe_merged (hlabel b hb)).clean t ht

section

variable (h : Fenced label r)
include h

theorem storesNext_writeMailbox {edit : MailboxEdit} (hm : m.label = label)
    (hretired : r.store.isRetired m = false) (hgood : RemovesStored r.store m edit) :
    ∃ b', StoresNext label r (r.store.writeMailbox label m edit)
      (removedAfterWrite (incomingOf m r.store.mailbox edit.removingThreadIds) label edit
        r.removed) b' := by
  have hwrite : r.store.writeMailbox label m edit =
      let incoming := incomingOf m r.store.mailbox edit.removingThreadIds
      let merged := (r.store.edited incoming label edit).mergeStored incoming
      { merged.1 with mailbox := some (edit.counted merged.2 incoming) } := by
    unfold MailboxStore.writeMailbox
    rw [if_neg (not_not.2 hm), if_neg (by simp [hretired])]
  obtain ⟨hinclabel, hincgen⟩ := incomingOf_generation m r.store.mailbox edit.removingThreadIds
  unfold RemovesStored at hgood
  revert hgood hwrite hinclabel hincgen
  generalize incomingOf m r.store.mailbox edit.removingThreadIds = incoming
  intro hgood hwrite hinclabel hincgen
  have hinclabel := hinclabel.trans hm
  have hlabels : ∀ b ∈ r.store.mailbox, b.label = incoming.label :=
    fun b hb => (h.mailboxLabel b hb).trans hinclabel.symm
  obtain ⟨hstore, hmlabel, hmgen, hclean⟩ :=
    mergeStored_spec (s := r.store.edited incoming label edit) hlabels
  obtain ⟨hclabel, hcgen, hcscope, hcids⟩ := counted_identity edit
    ((r.store.edited incoming label edit).mergeStored incoming).2 incoming
  -- Of which generation the stored mailbox is then.
  have hkept := mergeWith_generation (s := r.store.edited incoming label edit) hlabels
  have hnext : (edit.counted ((r.store.edited incoming label edit).mergeStored incoming).2
      incoming).generation =
        ((r.store.edited incoming label edit).mergeWith r.store.mailbox incoming).2.generation :=
    hcgen.trans hmgen
  have hincretired : ∀ g ∈ incoming.generation, g ∈ r.store.retired →
      ∃ b ∈ r.store.mailbox, b.generation = some g := by
    intro g hg hret
    rcases hincgen with hsame | ⟨b, hb, hsame⟩
    · exact absurd hret (isRetired_eq_false.1 hretired g (hsame ▸ hg))
    · exact ⟨b, hb, hsame.symm.trans hg⟩
  -- A call that removes threads stores its own generation.
  have hremoving : edit.removingThreadIds ≠ [] →
      ((r.store.edited incoming label edit).mergeWith r.store.mailbox incoming).2.generation =
        incoming.generation := by
    intro hne
    rcases hkept with ⟨_, hgen⟩ | ⟨b, hb, hgen⟩
    · exact hgen
    · rw [hgen]
      have hkeeps : b.generation = incoming.generation ∨ Replaces b incoming := hgood hne b hb
      exact congrArg _ (if_pos hkeeps)
  rw [hwrite]
  refine ⟨_, storesNext_merge (w := r.store.edited incoming label edit) h hinclabel
    (fun g hg => hg) rfl (Or.inl ?_) ?_ (hclabel.trans hmlabel) hnext ?_ ?_ ?_⟩
  · show ((r.store.edited incoming label edit).mergeStored incoming).1.session = r.store.session
    rw [hstore]
    exact mergeWith_session _ _ _
  · have hstore : ((r.store.edited incoming label edit).mergeStored incoming).1 =
        ((r.store.edited incoming label edit).mergeWith r.store.mailbox incoming).1 := hstore
    rw [← hstore]
    exact ⟨rfl, rfl⟩
  · intro t ht hscope
    rw [hcids]
    exact hclean t ht (hscope.trans hcscope)
  · intro g hg hret
    rw [hnext] at hg
    rcases hkept with ⟨_, hgen⟩ | ⟨b, hb, hgen⟩
    · exact hincretired g (hgen ▸ hg) hret
    rw [hgen] at hg
    rcases keptOf_generation_cases b incoming with ⟨_, hk⟩ | ⟨_, _, hk⟩ | ⟨_, _, hk⟩
    · exact ⟨b, hb, hk.symm.trans hg⟩
    · exact hincretired g (hk ▸ hg) hret
    · exact ⟨b, hb, hk ▸ hg⟩
  · intro t ht g hscope
    rcases removedAfterWrite_cases (s := r.store) ht with ⟨hne, hin, htomb⟩ | ⟨hold, hkeep⟩
    · refine Or.inr (Or.inr ⟨?_, htomb⟩)
      rw [hnext, hremoving hne]
      exact generation_of_scope (hin.symm.trans hscope)
    · rcases h.removed t hold g hscope with hleft | ⟨b, hb, hbg, htomb⟩
      · exact Or.inl hleft
      · refine Or.inr (Or.inl ⟨⟨b, hb, hbg⟩, fun hg => hkeep htomb fun hne => ?_⟩)
        rw [hnext, hremoving hne] at hg
        exact hscope.trans (scope_of_generation hg).symm

/-- The second merge of `writeSession`, and what is kept of it. -/
theorem storesNext_keep {w : MailboxStore} (hm : m.label = label)
    (hretired : ∀ g ∈ r.store.retired, g ∈ w.retired)
    (hgen : ∀ g ∈ (w.mergeWith r.store.mailbox m).2.generation, g ∈ r.store.retired →
      ∃ b ∈ r.store.mailbox, b.generation = some g)
    (hremoved : ∀ t ∈ removed', ∀ g, t.scope = .generation g → g ∈ r.left ∨
      ((∃ b ∈ r.store.mailbox, b.generation = some g) ∧
        ((w.mergeWith r.store.mailbox m).2.generation = some g → t ∈ w.tombstones))) :
    ∃ b', StoresNext label r
      ((w.mergeWith r.store.mailbox m).1.keep (w.mergeWith r.store.mailbox m).2) removed'
      b' := by
  generalize hsecond : w.mergeWith r.store.mailbox m = second at hgen hremoved
  obtain ⟨hid, hsame, hscope, _⟩ := removing_identity second.2
    ((tombstonesOf second.2.scope second.1.tombstones).map Tombstone.threadId)
  refine ⟨applyingTombstones second.1.tombstones second.2,
    storesNext_merge (w := w) (m := m) h hm hretired rfl (Or.inr rfl) ?_ ?_ ?_ ?_ ?_ ?_⟩
  · rw [hsecond]
    exact ⟨rfl, rfl⟩
  · rw [hsecond]
    exact hid
  · rw [hsecond]
    exact hsame
  · intro t ht hin
    exact applyingTombstones_clean _ _ t ht (hin.trans hscope)
  · exact fun g hg => hgen g (hsame.symm.trans hg)
  · intro t ht g hin
    rcases hremoved t ht g hin with hleft | ⟨hb, htomb⟩
    · exact Or.inl hleft
    · exact Or.inr (Or.inl ⟨hb, fun hg => htomb (hsame.symm.trans hg)⟩)

/-- The merge with the mailbox of the session gives a snapshot of the stored generation, or one
that the stored mailbox gives way to, or one that it does not. -/
theorem sessionMerge_cases (hretired : r.store.isRetired m = false)
    (hgood : SessionFollows r.store m) {c b : MailboxResponse} (hc : r.store.session = some c)
    (hb : r.store.mailbox = some b) {m₁ : MailboxResponse}
    (hgen : m₁.generation = (keptOf c m).generation)
    (hdate : c.generation ≠ m.generation → progressDate m₁ = progressDate (keptOf c m)) :
    m₁.generation = b.generation ∨
      (m₁.generation = m.generation ∧ m₁.generation ≠ b.generation ∧ keptOf b m₁ = m₁) ∨
        (m₁.generation ≠ b.generation ∧ keptOf b m₁ = b ∧
          tombstonesOf b.scope r.store.tombstones = []) := by
  by_cases hsame : m₁.generation = b.generation
  · exact Or.inl hsame
  refine Or.inr ?_
  rw [hgen] at hsame
  -- Sessions of a third generation hold one that has been left.
  have hapart : c.generation = m.generation → m.generation = none := by
    intro heq
    cases hg : m.generation with
    | none => rfl
    | some g =>
      exfalso
      rcases h.session c hc g (heq.trans hg) with hleft | ⟨b', hb', hbg⟩
      · exact isRetired_eq_false.1 hretired g hg (h.retired g hleft)
      · cases hb.symm.trans hb'
        rw [keptOf_of_eq heq, hg, hbg] at hsame
        exact hsame rfl
  rcases hgood c hc b hb with hfirst | ⟨hkept, hreplaces⟩ | ⟨hnot, hempty⟩
  · exact absurd hfirst hsame
  · have hne : c.generation ≠ m.generation := by
      intro heq
      have hsome := hreplaces.1
      rw [hapart heq] at hsome
      cases hsome
    have hreplaces : Replaces b m₁ :=
      (replaces_congr (hkept ▸ hgen) ((hdate hne).trans (congrArg progressDate hkept))).2 hreplaces
    exact Or.inl ⟨hgen.trans (congrArg _ hkept), hgen ▸ hsame, if_pos (Or.inr hreplaces)⟩
  · refine Or.inr ⟨hgen ▸ hsame, ?_, hempty⟩
    have hstays : ¬ Replaces b m₁ := by
      by_cases heq : c.generation = m.generation
      · intro hreplaces
        have hsome := hreplaces.1
        rw [hgen, keptOf_of_eq heq, hapart heq] at hsome
        cases hsome
      · exact fun hreplaces => hnot ((replaces_congr hgen (hdate heq)).1 hreplaces)
    exact if_neg (by
      rintro (heq | hreplaces)
      · exact hsame (hgen ▸ heq.symm)
      · exact hstays hreplaces)

theorem removed_included (ht : t ∈ clearIncluded m r.removed)
    (hscope : t.scope = .generation g) : g ∈ r.left ∨ ∃ b ∈ r.store.mailbox,
      b.generation = some g ∧ t ∈ r.store.tombstones ∧ t ∈ (r.store.included m).tombstones := by
  rcases h.removed t (clearIncluded_subset ht) g hscope with hleft | ⟨b, hb, hbg, htomb⟩
  · exact Or.inl hleft
  · exact Or.inr ⟨b, hb, hbg, htomb, clearForInclusion_of_included ht htomb⟩

theorem storesNext_writeSession (hm : m.label = label)
    (hretired : r.store.isRetired m = false) (hgood : SessionFollows r.store m) :
    ∃ b', StoresNext label r (r.store.writeSession m) (clearIncluded m r.removed) b' := by
  have hown := isRetired_eq_false.1 hretired
  unfold MailboxStore.writeSession
  rw [if_neg (by simp [hretired])]
  cases hc : r.store.session with
  | none =>
    have hlabels : ∀ b ∈ r.store.mailbox, b.label = m.label :=
      fun b hb => (h.mailboxLabel b hb).trans hm.symm
    refine storesNext_keep (w := r.store.included m) h hm (fun g hg => hg) ?_ ?_
    · intro g hg hret
      rcases mergeWith_generation (s := r.store.included m) hlabels with
        ⟨_, hgen⟩ | ⟨b, hb, hgen⟩
      · exact absurd hret (hown g (hgen.symm.trans hg))
      · have hg := hgen.symm.trans hg
        rcases keptOf_generation_cases b m with ⟨_, hk⟩ | ⟨_, _, hk⟩ | ⟨_, _, hk⟩
        · exact ⟨b, hb, hk.symm.trans hg⟩
        · exact absurd hret (hown g (hk ▸ hg))
        · exact ⟨b, hb, hk ▸ hg⟩
    · intro t ht g hscope
      rcases removed_included h ht hscope with hleft | ⟨b, hb, hbg, _, hin⟩
      · exact Or.inl hleft
      · exact Or.inr ⟨⟨b, hb, hbg⟩, fun _ => hin⟩
  | some c =>
    obtain ⟨b, hb⟩ := Option.isSome_iff_exists.1 (h.both (by simp [hc]))
    have hfirst := cacheSafe_merged (s := r.store.included m) ((h.sessionLabel c hc).trans hm.symm)
    have hwith : (r.store.included m).mergeWith (some c) m =
        (r.store.included m).cacheSafe c m := rfl
    rw [hwith]
    generalize (r.store.included m).cacheSafe c m = first at hfirst
    have hm₁ : first.2.label = label := hfirst.label.trans hm
    have hgen₂ : (first.1.mergeWith r.store.mailbox first.2).2.generation =
        (keptOf b first.2).generation := by
      rw [hb]
      exact (cacheSafe_merged ((h.mailboxLabel b hb).trans hm₁.symm)).generation
    have hcases := sessionMerge_cases h hretired hgood hc hb hfirst.generation hfirst.progress
    refine storesNext_keep h hm₁ hfirst.retired ?_ ?_
    · intro g hg hret
      have hg := hgen₂.symm.trans hg
      rcases hcases with hsame | ⟨hmine, _, hk⟩ | ⟨_, hk, _⟩
      · rw [keptOf_of_eq hsame.symm, hsame] at hg
        exact ⟨b, hb, hg⟩
      · rw [hk, hmine] at hg
        exact absurd hret (hown g hg)
      · rw [hk] at hg
        exact ⟨b, hb, hg⟩
    · intro t ht g hscope
      rcases removed_included h ht hscope with hleft | ⟨b', hb', hbg, htomb, hin⟩
      · exact Or.inl hleft
      cases hb.symm.trans hb'
      refine Or.inr ⟨⟨b, hb, hbg⟩, fun hg => ?_⟩
      have hg := hgen₂.symm.trans hg
      rcases hcases with hsame | ⟨_, hne, hk⟩ | ⟨_, _, hempty⟩
      · rw [hfirst.tombstones]
        have hscope₁ : first.2.scope = .generation g :=
          scope_of_generation (hsame.trans hbg)
        exact mem_tombstonesOf.2 ⟨hin, hscope.trans hscope₁.symm⟩
      · rw [hk] at hg
        exact absurd (hg.trans hbg.symm) hne
      · have hmem : t ∈ tombstonesOf b.scope r.store.tombstones :=
          mem_tombstonesOf.2 ⟨htomb, hscope.trans (scope_of_generation hbg).symm⟩
        rw [hempty] at hmem
        cases hmem

end

/-! ## Runs -/

theorem fenced_of_same (h : Fenced label r) :
    Fenced label ⟨r.store, movedFrom r.store r.store ++ r.left, r.removed⟩ := by
  have hnone : movedFrom r.store r.store = [] := by
    unfold movedFrom
    split
    · next g hg => rw [if_pos hg]
    · rfl
  rw [hnone]
  exact h

theorem fenced_retiredSession (h : Fenced label r) (hretired : r.store.isRetired m = true) :
    Fenced label ⟨r.store.writeSession m,
      movedFrom r.store (r.store.writeSession m) ++ r.left, r.removed⟩ := by
  cases hb : r.store.mailbox with
  | none =>
    rw [isRetired_eq_false.2 (by simp [h.fresh hb])] at hretired
    cases hretired
  | some b =>
    have hwrite : r.store.writeSession m =
        { r.store with session := some b, mailbox := some b } := by
      unfold MailboxStore.writeSession
      rw [if_pos hretired]
      simp [hb]
    rw [hwrite]
    refine fenced_of_storesNext h ⟨rfl, h.mailboxLabel b hb, Or.inr rfl, ?_, fun g hg => hg,
      ?_, ?_, h.clean b hb⟩
    · exact fun g hg _ => ⟨b, hb, hg⟩
    · intro b' hb' g hg
      cases hb.symm.trans hb'
      exact Or.inl hg
    · intro t ht g hscope
      rcases h.removed t ht g hscope with hleft | ⟨b', hb', hbg, htomb⟩
      · exact Or.inl hleft
      · cases hb.symm.trans hb'
        exact Or.inr (Or.inr ⟨hbg, htomb⟩)

theorem fenced_step {c : StoreCall} (h : Fenced label r) (hgood : KeepsAway r c) :
    Fenced label (r.step label c) := by
  cases c with
  | writeMailbox m edit =>
    by_cases hm : m.label = label
    · cases hretired : r.store.isRetired m with
      | true =>
        have hsame : r.store.writeMailbox label m edit = r.store := by
          unfold MailboxStore.writeMailbox
          rw [if_neg (not_not.2 hm), if_pos hretired]
        simp only [StoreRun.step, MailboxStore.step, removedAfter, hsame]
        rw [if_pos (Or.inr hretired)]
        exact fenced_of_same h
      | false =>
        obtain ⟨b', hnext⟩ := storesNext_writeMailbox h hm hretired hgood
        simp only [StoreRun.step, MailboxStore.step, removedAfter]
        rw [if_neg (by simp [hm, hretired])]
        exact fenced_of_storesNext h hnext
    · have hsame : r.store.writeMailbox label m edit = r.store := by
        unfold MailboxStore.writeMailbox
        rw [if_pos hm]
      simp only [StoreRun.step, MailboxStore.step, removedAfter, hsame]
      rw [if_pos (Or.inl hm)]
      exact fenced_of_same h
  | writeSession m =>
    by_cases hm : m.label = label
    · simp only [StoreRun.step, MailboxStore.step, removedAfter]
      rw [if_pos hm]
      cases hretired : r.store.isRetired m with
      | true =>
        rw [if_pos (Or.inr rfl)]
        exact fenced_retiredSession h hretired
      | false =>
        obtain ⟨b', hnext⟩ := storesNext_writeSession h hm hretired hgood
        rw [if_neg (by simp [hm])]
        exact fenced_of_storesNext h hnext
    · simp only [StoreRun.step, MailboxStore.step, removedAfter]
      rw [if_neg hm, if_pos (Or.inl hm)]
      exact fenced_of_same h
  | fails => exact fenced_of_same h

def StoreRun.start : StoreRun := ⟨MailboxStore.empty, [], []⟩

/-- **What has been replaced or removed stays away** in every run in which a call that removes
threads is of the stored generation or replaces it, and `writeSession` finds in the session
what follows the stored mailbox. -/
theorem stays_away (label : MailboxLabel) (calls : List StoreCall)
    (h : Along (StoreRun.step label) KeepsAway StoreRun.start calls) :
    Throughout (StoreRun.step label) AwayKept StoreRun.start calls := by
  have hstart : Fenced label StoreRun.start := by
    refine ⟨?_, ?_, ?_, ?_, ?_, ?_, ?_, ?_, ?_⟩
    all_goals simp [StoreRun.start, MailboxStore.empty]
  exact (throughout_of_step (fun _ _ hr hc => fenced_step hr hc) hstart h).mono
    fun _ hr => awayKept_of_fenced hr

theorem stays_away_removed :
    Throughout (StoreRun.step .inbox) AwayKept StoreRun.start
      [.writeSession (pageOf (some ['a']) none [⟨1, true, 0⟩]),
        .writeMailbox (pageOf (some ['b']) none [⟨2, true, 0⟩, ⟨3, true, 0⟩]) ⟨[], [], []⟩,
        .writeMailbox (pageOf (some ['b']) none [⟨2, true, 0⟩]) ⟨[3], [], []⟩,
        .writeMailbox (pageOf (some ['b']) none [⟨2, true, 0⟩, ⟨3, true, 0⟩]) ⟨[], [], []⟩] := by
  apply stays_away
  refine ⟨?_, ?_, ?_, ?_, trivial⟩
  · intro c hc
    cases hc
  · exact fun hne => absurd rfl hne
  · intro _ b hb
    obtain rfl := Option.some.inj hb
    exact Or.inl (by decide +kernel)
  · exact fun hne => absurd rfl hne

/-- The session still holds the first generation when a snapshot without one arrives: the first
merge keeps it, and the second one stores it again. -/
theorem retired_generation_returns :
    ¬ Throughout (StoreRun.step .inbox) AwayKept StoreRun.start
      [.writeSession (pageOf (some ['a']) none [⟨1, true, 0⟩]),
        .writeMailbox (pageOf (some ['b']) none [⟨2, true, 0⟩]) ⟨[], [], []⟩,
        .writeSession (pageOf none none [⟨2, true, 0⟩])] := by
  intro h
  have hmailbox : ((after (StoreRun.step .inbox) StoreRun.start
      [.writeSession (pageOf (some ['a']) none [⟨1, true, 0⟩]),
        .writeMailbox (pageOf (some ['b']) none [⟨2, true, 0⟩]) ⟨[], [], []⟩,
        .writeSession (pageOf none none [⟨2, true, 0⟩])]).store.mailbox.bind
          MailboxResponse.generation) = some ['a'] := by decide +kernel
  obtain ⟨b, hb, hg⟩ := Option.bind_eq_some_iff.1 hmailbox
  exact h.last.generation b hb ['a'] hg (by decide +kernel)

end ElectronicMail.Offline
