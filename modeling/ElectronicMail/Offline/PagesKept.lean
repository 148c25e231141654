import ElectronicMail.Offline.StaysAway

/-!
# The pages of one generation

`pages_kept` is what the stored mailbox is after any calls with snapshots of one generation
none of which is complete. It has the threads that have been written and not removed since,
each once and in the copy of the last snapshot that was not older than the stored mailbox, as
long as `writeSession` finds in the session the mailbox that is stored. Its counts are in order,
and no progress goes back, in every run.
-/

namespace ElectronicMail.Offline

open Foundations

/-! ## The law -/

/-- The store, what is to be expected of its rows, the latest date that has been written, the
mailbox that was stored before the last call, and the last call. -/
structure PageRun where
  store : MailboxStore
  shelf : List GmailThreadRow
  date : Option Int
  before : Option MailboxResponse
  last : Option StoreCall

def activeTombstones (g : List Char) (s : MailboxStore) : List Nat :=
  (tombstonesOf (.generation g) s.tombstones).map Tombstone.threadId

/-- The rows of a snapshot go before the others, unless it is older, and removed threads go.
Of two copies the first one counts. -/
def shelve (older : Bool) (rows shelf : List GmailThreadRow) (removed : List Nat) :
    List GmailThreadRow :=
  (if older then shelf ++ rows else rows ++ shelf).filter fun r => !removed.contains r.threadId

def dateBefore : Option Int → Option Int → Bool
  | some d, some e => d < e
  | _, _ => false

def PageRun.written (g : List Char) (r : PageRun) (c : StoreCall) (store : MailboxStore)
    (m : MailboxResponse) : PageRun where
  store := store
  shelf := shelve (dateBefore (progressDate m) r.date) m.rows r.shelf (activeTombstones g store)
  date := monotonicMax r.date (progressDate m)
  before := r.store.mailbox
  last := some c

def PageRun.step (label : MailboxLabel) (g : List Char) (r : PageRun) (c : StoreCall) : PageRun :=
  match c with
  | .writeMailbox m edit =>
    r.written g c (r.store.step label c) (incomingOf m r.store.mailbox edit.removingThreadIds)
  | .writeSession m => r.written g c (r.store.step label c) m
  | .fails => r

def countLe : Option Int → Option Int → Prop
  | none, _ => True
  | some x, some y => x ≤ y
  | some _, none => False

def flagLe : Option Bool → Option Bool → Prop
  | none, _ => True
  | some p, some q => p = true → q = true
  | some _, none => False

structure CountsLe (a b : MailboxCounts) : Prop where
  readyCount : countLe a.readyCount b.readyCount
  initialTargetCount : countLe a.initialTargetCount b.initialTargetCount
  initialMetadataCount : countLe a.initialMetadataCount b.initialMetadataCount
  initialBodyTargetCount : countLe a.initialBodyTargetCount b.initialBodyTargetCount
  initialBodyReadyCount : countLe a.initialBodyReadyCount b.initialBodyReadyCount
  historyMetadataCount : countLe a.historyMetadataCount b.historyMetadataCount
  historyBodyReadyCount : countLe a.historyBodyReadyCount b.historyBodyReadyCount
  estimatedTotalCount : countLe a.estimatedTotalCount b.estimatedTotalCount

structure CompletionsLe (a b : MailboxCompletions) : Prop where
  fullImportCompleted : flagLe a.fullImportCompleted b.fullImportCompleted
  initialWindowComplete : flagLe a.initialWindowComplete b.initialWindowComplete
  historyMetadataComplete : flagLe a.historyMetadataComplete b.historyMetadataComplete
  historyBodyComplete : flagLe a.historyBodyComplete b.historyBodyComplete

/-- `totalThreads >= loadedThreads >=` the number of rows. -/
structure Counted (m : MailboxResponse) : Prop where
  rows : m.visibleRows ≤ m.loadedThreads.getD m.visibleRows
  loaded : m.loadedThreads.getD m.visibleRows ≤ m.totalThreads

/-- The counts of the stored mailbox are in order, and its progress is not behind that of the
one before. -/
structure CountsKept (r : PageRun) : Prop where
  counted : ∀ b ∈ r.store.mailbox, Counted b
  counts : ∀ a ∈ r.before, ∀ b ∈ r.store.mailbox, CountsLe a.counts b.counts
  completions : ∀ a ∈ r.before, ∀ b ∈ r.store.mailbox, CompletionsLe a.completions b.completions

/-- The stored mailbox has the threads that have been written and not removed since, each of
them once and in the copy to be expected, and writing the last snapshot again changes nothing,
when something had been stored before it, and it has no thread with an active tombstone. -/
structure PagesKept (label : MailboxLabel) (g : List Char) (r : PageRun) : Prop where
  once : ∀ b ∈ r.store.mailbox, b.threadIds.Nodup
  threads : ∀ b ∈ r.store.mailbox, ∀ t, t ∈ b.threadIds ↔ t ∈ r.shelf.map GmailThreadRow.threadId
  copies : ∀ b ∈ r.store.mailbox, ∀ t, rowOf b.rows t = rowOf r.shelf t
  again : ∀ m, r.last = some (.writeMailbox m ⟨[], [], []⟩) ∨ r.last = some (.writeSession m) →
    r.before.isSome = true → (∀ t ∈ activeTombstones g r.store, t ∉ m.threadIds) →
      ∀ c ∈ r.last, r.store.step label c = r.store

structure WellFormed (m : MailboxResponse) : Prop where
  once : m.threadIds.Nodup
  counted : Counted m

/-- The calls have snapshots of one label and one generation that are not complete. The first
one is well formed, and one that removes threads has its counts in order. -/
def Offers (label : MailboxLabel) (g : List Char) (r : PageRun) : StoreCall → Prop
  | .writeMailbox m edit =>
    m.label = label ∧ m.generation = some g ∧
      (incomingOf m r.store.mailbox edit.removingThreadIds).isAuthoritative = false ∧
      (r.store.mailbox = none → WellFormed m) ∧
      (edit.removingThreadIds ≠ [] → m.loadedThreads.getD 0 ≤ m.totalThreads)
  | .writeSession m =>
    m.label = label ∧ m.generation = some g ∧ m.isAuthoritative = false ∧
      (r.store.mailbox = none → WellFormed m)
  | .fails => True

/-- `writeSession` finds in the session the mailbox that is stored. -/
def SessionCurrent (r : PageRun) : StoreCall → Prop
  | .writeSession _ => r.store.session = none ∨ r.store.session = r.store.mailbox
  | .writeMailbox _ _ => True
  | .fails => True

instance (m : MailboxResponse) : Decidable (Counted m) :=
  decidable_of_iff (m.visibleRows ≤ m.loadedThreads.getD m.visibleRows ∧
      m.loadedThreads.getD m.visibleRows ≤ m.totalThreads)
    ⟨fun h => ⟨h.1, h.2⟩, fun h => ⟨h.rows, h.loaded⟩⟩

instance (m : MailboxResponse) : Decidable (WellFormed m) :=
  decidable_of_iff (m.threadIds.Nodup ∧ Counted m) ⟨fun h => ⟨h.1, h.2⟩, fun h => ⟨h.once, h.counted⟩⟩

instance (label : MailboxLabel) (g : List Char) (r : PageRun) :
    ∀ c, Decidable (Offers label g r c)
  | .writeMailbox _ _ => inferInstanceAs (Decidable (_ ∧ _ ∧ _ ∧ (_ → _) ∧ (_ → _)))
  | .writeSession _ => inferInstanceAs (Decidable (_ ∧ _ ∧ _ ∧ (_ → _)))
  | .fails => inferInstanceAs (Decidable True)

instance (r : PageRun) : ∀ c, Decidable (SessionCurrent r c)
  | .writeMailbox _ _ => inferInstanceAs (Decidable True)
  | .writeSession _ => inferInstanceAs (Decidable (_ ∨ _))
  | .fails => inferInstanceAs (Decidable True)

/-! ## Counts -/

theorem countLe_monotonicMax (x y : Option Int) : countLe x (monotonicMax x y) := by
  cases x with
  | none => exact trivial
  | some x =>
    cases y with
    | none => exact Int.le_refl x
    | some y => exact Int.le_max_left x y

theorem flagLe_monotonicCompletion (p q : Option Bool) : flagLe p (monotonicCompletion p q) := by
  rcases p with _ | _ | _ <;> rcases q with _ | _ | _ <;> simp [monotonicCompletion, flagLe]

theorem countsLe_merge (c m : MailboxCounts) : CountsLe c (c.merge m) := by
  constructor
  all_goals exact countLe_monotonicMax _ _

theorem completionsLe_merge (c m : MailboxCompletions) : CompletionsLe c (c.merge m) := by
  constructor
  all_goals exact flagLe_monotonicCompletion _ _

theorem countLe_refl (x : Option Int) : countLe x x := by
  cases x with
  | none => exact trivial
  | some x => exact Int.le_refl x

theorem countsLe_refl (c : MailboxCounts) : CountsLe c c := by
  constructor
  all_goals exact countLe_refl _

theorem flagLe_refl (p : Option Bool) : flagLe p p := by
  rcases p with _ | _ | _ <;> simp [flagLe]

theorem completionsLe_refl (c : MailboxCompletions) : CompletionsLe c c := by
  constructor
  all_goals exact flagLe_refl _

/-- A merge that keeps the progress of what was stored, with counts in order. -/
structure Advances (c p : MailboxResponse) : Prop where
  label : p.label = c.label
  generation : p.generation = c.generation
  counted : Counted p
  counts : CountsLe c.counts p.counts
  completions : CompletionsLe c.completions p.completions

theorem counted_merging (c m x y : MailboxResponse) : Counted (mergingPreferred c m x y) := by
  obtain ⟨hloaded, hthreads⟩ := loadedRows_merging c m x y
  have htotal := totalThreads_merging c m x y
  constructor
  · rw [hthreads, Option.getD_some]
    omega
  · rw [hthreads, Option.getD_some]
    omega

variable {c m : MailboxResponse}

/-- **A merge advances.** A complete snapshot must have its own counts in order. -/
theorem advances_cacheSafeSnapshot (hlabel : c.label = m.label)
    (hgen : c.generation = m.generation) (hc : Counted c)
    (hm : m.isAuthoritative = true → Counted m) : Advances c (cacheSafeSnapshot c m) := by
  have hsame := cacheSafeSnapshot_generation hlabel
  rw [keptOf_of_eq hgen, ← hgen] at hsame
  refine ⟨(cacheSafeSnapshot_label hlabel).trans hlabel.symm, hsame, ?_, ?_, ?_⟩
  all_goals
    unfold cacheSafeSnapshot mergingSameGeneration
    rw [if_neg (not_not.2 hlabel), if_neg (not_not.2 hgen)]
  · split
    · next hcomplete =>
        split
        · exact hc
        · exact ⟨(hm hcomplete).rows, (hm hcomplete).loaded⟩
    · split
      · exact counted_merging c m c m
      · exact counted_merging c m m c
  · split
    · split
      · exact countsLe_refl _
      · exact countsLe_merge _ _
    · split
      · exact countsLe_merge _ _
      · exact countsLe_merge _ _
  · split
    · split
      · exact completionsLe_refl _
      · exact completionsLe_merge _ _
    · split
      · exact completionsLe_merge _ _
      · exact completionsLe_merge _ _

theorem rows_removing (m : MailboxResponse) (removed : List Nat) :
    (m.removingCachedThreadIds removed).rows =
      m.rows.filter fun r => !removed.contains r.threadId := by
  unfold MailboxResponse.removingCachedThreadIds
  by_cases hnone : (m.rows.filter fun r => removed.contains r.threadId).isEmpty = true
  · simp only [hnone, if_true]
    symm
    rw [List.filter_eq_self]
    intro r hr
    have hout := List.filter_eq_nil_iff.1 (List.isEmpty_iff.1 hnone) r hr
    simpa using hout
  · simp only [hnone]
    exact sectionRows_removeRows removed m.sections

variable {removed : List Nat}

theorem removing_eq_self
    (h : ∀ t ∈ removed, t ∉ m.threadIds) : m.removingCachedThreadIds removed = m := by
  unfold MailboxResponse.removingCachedThreadIds
  have hnone : m.rows.filter (fun r => removed.contains r.threadId) = [] := by
    rw [List.filter_eq_nil_iff]
    intro r hr hin
    exact h r.threadId (by simpa using hin) (List.mem_map_of_mem hr)
  rw [hnone]
  rfl

theorem counted_removing (h : Counted m) (removed : List Nat) :
    Counted (m.removingCachedThreadIds removed) := by
  have hrows := rows_removing m removed
  have hvisible : (m.removingCachedThreadIds removed).visibleRows =
      ((sectionRows (removeRows removed m.sections)).length : Int) := by
    unfold MailboxResponse.visibleRows
    rw [hrows, sectionRows_removeRows]
    rfl
  obtain ⟨hvis, hload⟩ := h
  unfold MailboxResponse.removingCachedThreadIds at hvisible ⊢
  by_cases hnone : (m.rows.filter fun r => removed.contains r.threadId).isEmpty = true
  · simp only [hnone, if_true]
    exact ⟨hvis, hload⟩
  simp only [hnone] at hvisible ⊢
  cases hloaded : m.loadedThreads with
  | none =>
    constructor
    · simp only [Option.map_none]
      exact Int.le_refl _
    · simp only [Option.map_none, Option.getD_none, Bool.false_eq_true, if_false,
        MailboxResponse.visibleRows, MailboxResponse.rows]
      exact Int.le_max_left _ _
  | some =>
    rw [hloaded, Option.getD_some] at hvis hload
    constructor
    · simp only [Option.map_some, Option.getD_some, Bool.false_eq_true, if_false,
        MailboxResponse.visibleRows, MailboxResponse.rows]
      exact Int.le_max_left _ _
    · simp only [Option.map_some, Option.getD_some, Bool.false_eq_true, if_false]
      omega

theorem removing_progress (m : MailboxResponse) (removed : List Nat) :
    (m.removingCachedThreadIds removed).counts = m.counts ∧
      (m.removingCachedThreadIds removed).completions = m.completions := by
  unfold MailboxResponse.removingCachedThreadIds
  constructor
  all_goals
    dsimp only
    split
  all_goals rfl

variable {p : MailboxResponse}

theorem Advances.removing (h : Advances c p) (removed : List Nat) :
    Advances c (p.removingCachedThreadIds removed) := by
  obtain ⟨hid, hgen, _, _⟩ := removing_identity p removed
  obtain ⟨hcounts, hcompletions⟩ := removing_progress p removed
  refine ⟨hid.trans h.label, hgen.trans h.generation, counted_removing h.counted removed, ?_, ?_⟩
  · rw [hcounts]
    exact h.counts
  · rw [hcompletions]
    exact h.completions

variable {edit : MailboxEdit}

theorem Advances.edited (h : Advances c p)
    {incoming : MailboxResponse} (hincoming : edit.removingThreadIds ≠ [] →
      incoming.loadedThreads.getD 0 ≤ incoming.totalThreads) :
    Advances c (edit.counted p incoming) := by
  obtain ⟨hid, hgen, _, _⟩ := counted_identity edit p incoming
  refine ⟨hid.trans h.label, hgen.trans h.generation, ?_, ?_, ?_⟩
  · unfold MailboxEdit.counted
    split
    · exact h.counted
    next hne =>
      have hle := hincoming (by simpa using hne)
      have hvisible : (p.withMailboxCounts (max p.visibleRows incoming.totalThreads)
          (incoming.unreadThreads.or p.unreadThreads)
          (max p.visibleRows (incoming.loadedThreads.getD 0))).visibleRows = p.visibleRows :=
        rfl
      constructor
      · rw [hvisible]
        exact Int.le_max_left _ _
      · show max p.visibleRows (incoming.loadedThreads.getD 0) ≤
          max p.visibleRows incoming.totalThreads
        omega
  all_goals
    unfold MailboxEdit.counted
    split
  · exact h.counts
  · exact h.counts
  · exact h.completions
  · exact h.completions

theorem Advances.refl (h : Counted m) : Advances m m :=
  ⟨rfl, rfl, h, countsLe_refl _, completionsLe_refl _⟩

/-! ## Calls -/

structure IsOf (label : MailboxLabel) (g : List Char) (m : MailboxResponse) : Prop where
  label : m.label = label
  generation : m.generation = some g

variable {label : MailboxLabel} {g : List Char}

theorem IsOf.scope (h : IsOf label g m) : m.scope = .generation g :=
  scope_of_generation h.generation

theorem Advances.isOf (h : Advances c p) (hc : IsOf label g c) : IsOf label g p :=
  ⟨h.label.trans hc.label, h.generation.trans hc.generation⟩

theorem retiredBy_eq_nil (h : c.generation = m.generation) : retiredBy c m = [] := by
  unfold retiredBy
  split
  · next hc hm =>
      rw [if_neg]
      rintro ⟨hne, _⟩
      rw [hc, hm] at h
      exact hne (Option.some.inj h)
  · rfl

/-- What every call keeps: one label, one generation, nothing retired, and counts in order. -/
structure OneGeneration (label : MailboxLabel) (g : List Char) (s : MailboxStore) : Prop where
  mailbox : ∀ b ∈ s.mailbox, IsOf label g b ∧ Counted b
  session : ∀ c ∈ s.session, IsOf label g c ∧ Counted c
  both : s.session.isSome = true → s.mailbox.isSome = true
  retired : s.retired = []

section Call

variable {label : MailboxLabel} {g : List Char} {s : MailboxStore}

theorem OneGeneration.not_retired (h : OneGeneration label g s) (m : MailboxResponse) :
    s.isRetired m = false :=
  isRetired_eq_false.2 fun g' _ => by simp [h.retired]

theorem cacheSafe_advances (hc : IsOf label g c ∧ Counted c)
    (hm : IsOf label g m) (hcomplete : m.isAuthoritative = true → Counted m) :
    Advances c (s.cacheSafe c m).2 ∧ (s.cacheSafe c m).1.retired = s.retired ∧
      (s.cacheSafe c m).1.session = s.session ∧ (s.cacheSafe c m).1.mailbox = s.mailbox := by
  have hgen : c.generation = m.generation := hc.1.generation.trans hm.generation.symm
  refine ⟨?_, ?_, rfl, rfl⟩
  · exact (advances_cacheSafeSnapshot (hc.1.label.trans hm.label.symm) hgen hc.2
      hcomplete).removing _
  · show retiredBy c m ++ s.retired = s.retired
    rw [retiredBy_eq_nil hgen, List.nil_append]

theorem writeMailbox_eq (h : OneGeneration label g s) (hm : m.label = label) (edit : MailboxEdit) :
    s.writeMailbox label m edit =
      let incoming := incomingOf m s.mailbox edit.removingThreadIds
      let merged := (s.edited incoming label edit).mergeStored incoming
      { merged.1 with mailbox := some (edit.counted merged.2 incoming) } := by
  unfold MailboxStore.writeMailbox
  rw [if_neg (not_not.2 hm), if_neg (by simp [h.not_retired m])]

theorem incomingOf_isOf (h : OneGeneration label g s)
    (hm : IsOf label g m) (removing : List Nat) : IsOf label g (incomingOf m s.mailbox removing) := by
  obtain ⟨hlabel, hgen⟩ := incomingOf_generation m s.mailbox removing
  refine ⟨hlabel.trans hm.label, ?_⟩
  rcases hgen with hgen | ⟨b, hb, hgen⟩
  · exact hgen.trans hm.generation
  · exact hgen.trans (h.mailbox b hb).1.generation

theorem incomingOf_counts (m : MailboxResponse) (cached : Option MailboxResponse)
    (removing : List Nat) :
    (incomingOf m cached removing).totalThreads = m.totalThreads ∧
      (incomingOf m cached removing).loadedThreads = m.loadedThreads ∧
      (incomingOf m cached removing).rows = m.rows := by
  unfold incomingOf MailboxResponse.inheriting
  split
  · split
    · exact ⟨rfl, rfl, rfl⟩
    · exact ⟨rfl, rfl, rfl⟩
  · exact ⟨rfl, rfl, rfl⟩

structure MovesOn (label : MailboxLabel) (g : List Char) (s s' : MailboxStore)
    (b' : MailboxResponse) : Prop where
  mailbox : s'.mailbox = some b'
  session : s'.session = s.session ∨ s'.session = some b'
  retired : s'.retired = []
  isOf : IsOf label g b'
  counted : Counted b'
  advances : ∀ b ∈ s.mailbox, Advances b b'

section

variable (h : OneGeneration label g s)
include h

theorem MovesOn.oneGeneration {s' : MailboxStore} {b' : MailboxResponse} (hnext : MovesOn label g s s' b') :
    OneGeneration label g s' := by
  refine ⟨?_, ?_, ?_, hnext.retired⟩
  · intro b hb
    obtain rfl := Option.some.inj (hnext.mailbox.symm.trans hb)
    exact ⟨hnext.isOf, hnext.counted⟩
  · intro c hc
    rcases hnext.session with hsame | hnew
    · exact h.session c (hsame ▸ hc)
    · obtain rfl := Option.some.inj (hnew.symm.trans hc)
      exact ⟨hnext.isOf, hnext.counted⟩
  · intro _
    simp [hnext.mailbox]

theorem writeMailbox_movesOn (hm : IsOf label g m)
    (hunfinished : (incomingOf m s.mailbox edit.removingThreadIds).isAuthoritative = false)
    (hfirst : s.mailbox = none → WellFormed m)
    (hremoving : edit.removingThreadIds ≠ [] → m.loadedThreads.getD 0 ≤ m.totalThreads) :
    ∃ b', MovesOn label g s (s.writeMailbox label m edit) b' := by
  have hinc := incomingOf_isOf h hm edit.removingThreadIds
  obtain ⟨htotal, hloaded, hrows⟩ := incomingOf_counts m s.mailbox edit.removingThreadIds
  rw [writeMailbox_eq h hm.label edit]
  revert hunfinished hinc htotal hloaded hrows
  generalize hincoming : incomingOf m s.mailbox edit.removingThreadIds = incoming
  intro hunfinished hinc htotal hloaded hrows
  have hcounts : edit.removingThreadIds ≠ [] →
      incoming.loadedThreads.getD 0 ≤ incoming.totalThreads := by
    rw [htotal, hloaded]
    exact hremoving
  refine ⟨edit.counted ((s.edited incoming label edit).mergeStored incoming).2 incoming, ?_⟩
  unfold MailboxStore.mergeStored
  cases hb : s.mailbox with
  | none =>
    have hb' : (s.edited incoming label edit).mailbox = none := hb
    simp only [hb']
    have hwell := (hfirst hb).counted
    have hself : Counted incoming := by
      constructor
      · unfold MailboxResponse.visibleRows
        rw [hloaded, hrows]
        exact hwell.rows
      · unfold MailboxResponse.visibleRows
        rw [hloaded, hrows, htotal]
        exact hwell.loaded
    have hadv : Advances incoming (edit.counted (applyingTombstones
        (s.edited incoming label edit).tombstones incoming) incoming) :=
      ((Advances.refl hself).removing _).edited hcounts
    refine ⟨rfl, Or.inl rfl, h.retired, hadv.isOf hinc, hadv.counted, ?_⟩
    intro b hbb
    rw [hb] at hbb
    cases hbb
  | some b =>
    have hb' : (s.edited incoming label edit).mailbox = some b := hb
    simp only [hb']
    obtain ⟨hadv, hret, hses, _⟩ := cacheSafe_advances (s := s.edited incoming label edit)
      (h.mailbox b hb) hinc (by simp [hunfinished])
    have hadv := hadv.edited hcounts
    refine ⟨rfl, Or.inl hses, hret.trans h.retired, hadv.isOf (h.mailbox b hb).1, hadv.counted, ?_⟩
    intro b₀ hb₀
    rw [hb] at hb₀
    obtain rfl := Option.some.inj hb₀
    exact hadv

theorem writeSession_eq (m : MailboxResponse) :
    s.writeSession m =
      let first := (s.included m).mergeWith s.session m
      let second := first.1.mergeWith s.mailbox first.2
      second.1.keep second.2 := by
  unfold MailboxStore.writeSession
  rw [if_neg (by simp [h.not_retired m])]

theorem writeSession_movesOn (hm : IsOf label g m) (hunfinished : m.isAuthoritative = false)
    (hfirst : s.mailbox = none → WellFormed m) :
    ∃ b', MovesOn label g s (s.writeSession m) b' := by
  rw [writeSession_eq h m]
  cases hc : s.session with
  | none =>
    simp only [MailboxStore.mergeWith]
    cases hb : s.mailbox with
    | none =>
      have hadv := (Advances.refl (hfirst hb).counted).removing
        ((tombstonesOf m.scope (s.included m).tombstones).map Tombstone.threadId)
      refine ⟨_, rfl, Or.inr rfl, h.retired, hadv.isOf hm, hadv.counted, ?_⟩
      intro b hbb
      rw [hb] at hbb
      cases hbb
    | some b =>
      obtain ⟨hadv, hret, _, _⟩ := cacheSafe_advances (s := s.included m) (h.mailbox b hb) hm
        (by simp [hunfinished])
      have hadv := hadv.removing ((tombstonesOf ((s.included m).cacheSafe b m).2.scope
        ((s.included m).cacheSafe b m).1.tombstones).map Tombstone.threadId)
      refine ⟨_, rfl, Or.inr rfl, hret.trans h.retired, hadv.isOf (h.mailbox b hb).1,
        hadv.counted, ?_⟩
      intro b₀ hb₀
      rw [hb] at hb₀
      obtain rfl := Option.some.inj hb₀
      exact hadv
  | some c =>
    obtain ⟨b, hb⟩ := Option.isSome_iff_exists.1 (h.both (by simp [hc]))
    obtain ⟨hadv₁, hret₁, _, _⟩ := cacheSafe_advances (s := s.included m) (h.session c hc) hm
      (by simp [hunfinished])
    simp only [MailboxStore.mergeWith, hb]
    generalize (s.included m).cacheSafe c m = first at hadv₁ hret₁
    obtain ⟨hadv, hret, _, _⟩ := cacheSafe_advances (s := first.1) (h.mailbox b hb)
      (hadv₁.isOf (h.session c hc).1) fun _ => hadv₁.counted
    have hadv := hadv.removing ((tombstonesOf (first.1.cacheSafe b first.2).2.scope
      (first.1.cacheSafe b first.2).1.tombstones).map Tombstone.threadId)
    refine ⟨_, rfl, Or.inr rfl, hret.trans (hret₁.trans h.retired),
      hadv.isOf (h.mailbox b hb).1, hadv.counted, ?_⟩
    intro b₀ hb₀
    rw [hb] at hb₀
    obtain rfl := Option.some.inj hb₀
    exact hadv

end

end Call

/-! ## Rows -/

theorem dateBefore_progressDate (m c : MailboxResponse) :
    dateBefore (progressDate m) (progressDate c) = isDemonstrablyOlder m c := by
  unfold dateBefore isDemonstrablyOlder
  cases progressDate m with
  | none => rfl
  | some d => cases progressDate c <;> rfl

theorem rowOf_removing (m : MailboxResponse) (removed : List Nat) (t : Nat) :
    rowOf (m.removingCachedThreadIds removed).rows t =
      if t ∈ removed then none else rowOf m.rows t := by
  rw [rows_removing, rowOf_filter fun t => !removed.contains t]
  by_cases ht : t ∈ removed
  · simp [ht]
  · simp [ht]

theorem rowOf_shelve (older : Bool) (rows shelf : List GmailThreadRow) (removed : List Nat)
    (t : Nat) : rowOf (shelve older rows shelf removed) t =
      if t ∈ removed then none
      else if older then (rowOf shelf t).or (rowOf rows t)
      else (rowOf rows t).or (rowOf shelf t) := by
  unfold shelve
  rw [rowOf_filter fun t => !removed.contains t]
  by_cases ht : t ∈ removed
  · simp [ht]
  · cases older
    · simp [ht, rowOf_append]
    · simp [ht, rowOf_append]

theorem mem_threadIds {t : Nat} : t ∈ m.threadIds ↔ rowOf m.rows t ≠ none := by
  rw [Ne, rowOf_eq_none, not_not]
  rfl

theorem merge_rows (hlabel : c.label = m.label)
    (hgen : c.generation = m.generation) (hunfinished : m.isAuthoritative = false) :
    RowsDistinct (cacheSafeSnapshot c m).rows ∧
      progressDate (cacheSafeSnapshot c m) = monotonicMax (progressDate c) (progressDate m) ∧
      ∀ t, rowOf (cacheSafeSnapshot c m).rows t =
        if isDemonstrablyOlder m c then (rowOf c.rows t).or (rowOf m.rows t)
        else (rowOf m.rows t).or (rowOf c.rows t) := by
  have hmerge : cacheSafeSnapshot c m = mergingSameGeneration c m := by
    unfold cacheSafeSnapshot
    rw [if_neg (not_not.2 hlabel), if_neg (not_not.2 hgen), if_neg (by simp [hunfinished])]
  rw [hmerge]
  unfold mergingSameGeneration
  split
  · obtain ⟨hnormal, hrows, _⟩ := mergedSections_spec c.sections m.sections
    exact ⟨hnormal.rows, progressDate_of_latest rfl rfl, hrows⟩
  · obtain ⟨hnormal, hrows, _⟩ := mergedSections_spec m.sections c.sections
    exact ⟨hnormal.rows, progressDate_of_latest rfl rfl, hrows⟩

theorem merge_covering {q : MailboxResponse} (hlabel : c.label = q.label)
    (hgen : c.generation = q.generation) (hd : RowsDistinct q.rows)
    (hnewer : isDemonstrablyOlder q c = false) (hall : ∀ t ∈ c.threadIds, t ∈ q.threadIds) :
    RowsDistinct (cacheSafeSnapshot c q).rows ∧
      progressDate (cacheSafeSnapshot c q) = monotonicMax (progressDate c) (progressDate q) ∧
      ∀ t, rowOf (cacheSafeSnapshot c q).rows t = rowOf q.rows t := by
  cases hcomplete : q.isAuthoritative with
  | true =>
    have hmerge : cacheSafeSnapshot c q = q.withMonotonicProgress c := by
      unfold cacheSafeSnapshot
      rw [if_neg (not_not.2 hlabel), if_neg (not_not.2 hgen), if_pos hcomplete,
        if_neg (by simp [hnewer])]
    rw [hmerge]
    exact ⟨hd, progressDate_of_latest rfl rfl, fun _ => rfl⟩
  | false =>
    obtain ⟨hdistinct, hdate, hrows⟩ := merge_rows hlabel hgen hcomplete
    refine ⟨hdistinct, hdate, ?_⟩
    intro t
    rw [hrows t, if_neg (by simp [hnewer])]
    cases hq : rowOf q.rows t with
    | some r => rfl
    | none =>
      rw [Option.none_or]
      by_contra hc
      exact mem_threadIds.1 (hall t (mem_threadIds.2 hc)) hq

/-- A mailbox that has what the shelf has, its date, and no removed thread. -/
structure Holds (b : MailboxResponse) (shelf : List GmailThreadRow) (date : Option Int)
    (removed : List Nat) : Prop where
  once : RowsDistinct b.rows
  copies : ∀ t, rowOf b.rows t = rowOf shelf t
  date : progressDate b = date
  clean : ∀ t ∈ removed, t ∉ b.threadIds

theorem clean_removing (m : MailboxResponse) (removed : List Nat) :
    ∀ t ∈ removed, t ∉ (m.removingCachedThreadIds removed).threadIds := by
  intro t ht hin
  exact (mem_threadIds_removing.1 hin).2 ht

theorem distinct_removing (h : RowsDistinct m.rows) (removed : List Nat) :
    RowsDistinct (m.removingCachedThreadIds removed).rows := by
  rw [rows_removing]
  exact (List.filter_sublist.map _).nodup h

theorem holds_first (hd : RowsDistinct m.rows) (removed : List Nat) :
    Holds (m.removingCachedThreadIds removed)
      (shelve (dateBefore (progressDate m) none) m.rows [] removed)
      (monotonicMax none (progressDate m)) removed := by
  have hnot : dateBefore (progressDate m) none = false := by
    unfold dateBefore
    split
    · next heq => cases heq
    · rfl
  refine ⟨distinct_removing hd removed, ?_, (removing_identity m removed).2.2.2,
    clean_removing m removed⟩
  intro t
  rw [rowOf_removing, rowOf_shelve, hnot, if_neg Bool.false_ne_true]
  show _ = if t ∈ removed then none else (rowOf m.rows t).or none
  rw [Option.or_none]

variable {shelf : List GmailThreadRow}

variable {date : Option Int}

theorem Holds.merge {before : List Nat} (h : Holds c shelf date before) (hlabel : c.label = m.label)
    (hgen : c.generation = m.generation) (hunfinished : m.isAuthoritative = false)
    (removed : List Nat) : Holds ((cacheSafeSnapshot c m).removingCachedThreadIds removed)
      (shelve (dateBefore (progressDate m) date) m.rows shelf removed)
      (monotonicMax date (progressDate m)) removed := by
  obtain ⟨hdistinct, hdate, hrows⟩ := merge_rows hlabel hgen hunfinished
  refine ⟨distinct_removing hdistinct removed, ?_, ?_, clean_removing _ removed⟩
  · intro t
    rw [rowOf_removing, rowOf_shelve, hrows, ← h.date, dateBefore_progressDate, h.copies]
  · rw [← h.date, ← hdate]
    exact (removing_identity _ removed).2.2.2

theorem Holds.mergeAgain (h : Holds c shelf date removed) (hlabel : c.label = m.label)
    (hgen : c.generation = m.generation) (hunfinished : m.isAuthoritative = false) :
    Holds ((cacheSafeSnapshot c
        ((cacheSafeSnapshot c m).removingCachedThreadIds removed)).removingCachedThreadIds removed)
      (shelve (dateBefore (progressDate m) date) m.rows shelf removed)
      (monotonicMax date (progressDate m)) removed := by
  have hmerged := h.merge hlabel hgen hunfinished removed
  obtain ⟨hid, hsame, _, hremoved⟩ := removing_identity (cacheSafeSnapshot c m) removed
  obtain ⟨_, hdate, hrows⟩ := merge_rows hlabel hgen hunfinished
  have hlabel' : c.label = ((cacheSafeSnapshot c m).removingCachedThreadIds removed).label :=
    hlabel.trans ((cacheSafeSnapshot_label hlabel).symm.trans hid.symm)
  have hgen' : c.generation =
      ((cacheSafeSnapshot c m).removingCachedThreadIds removed).generation := by
    rw [hsame, cacheSafeSnapshot_generation hlabel, keptOf_of_eq hgen, hgen]
  have hnewer : isDemonstrablyOlder
      ((cacheSafeSnapshot c m).removingCachedThreadIds removed) c = false :=
    (older_merged (hremoved.trans hdate)).2
  obtain ⟨hdistinct, hlast, hcopies⟩ := merge_covering hlabel' hgen' hmerged.once hnewer (by
    intro t ht
    refine mem_threadIds_removing.2 ⟨mem_threadIds.2 ?_, fun hin => h.clean t hin ht⟩
    rw [hrows t]
    have hin := mem_threadIds.1 ht
    split
    · cases hrow : rowOf c.rows t with
      | none => exact absurd hrow hin
      | some r => simp
    · cases hrow : rowOf c.rows t with
      | none => exact absurd hrow hin
      | some r => simp)
  refine ⟨distinct_removing hdistinct removed, ?_, ?_, clean_removing _ removed⟩
  · intro t
    rw [rowOf_removing, hcopies, hmerged.copies, rowOf_shelve]
    split
    · rfl
    · rfl
  · rw [(removing_identity _ removed).2.2.2, hlast, hremoved, hdate, monotonicMax_cached, h.date]

variable {b : MailboxResponse}

theorem Holds.counted (h : Holds b shelf date removed) (edit : MailboxEdit)
    (incoming : MailboxResponse) : Holds (edit.counted b incoming) shelf date removed := by
  unfold MailboxEdit.counted
  split
  · exact h
  · exact ⟨h.once, h.copies, h.date, h.clean⟩

/-! ## Rows of the store -/

theorem tombstonesOf_self (scope : GenerationScope) (tombstones : List Tombstone) :
    tombstonesOf scope (tombstonesOf scope tombstones) = tombstonesOf scope tombstones := by
  unfold tombstonesOf
  rw [List.filter_filter]
  simp

theorem clearForInclusion_unfinished (h : m.isAuthoritative = false)
    (cached : Option MailboxResponse) (tombstones : List Tombstone) :
    clearForInclusion m cached tombstones = tombstones := by
  unfold clearForInclusion clearIncluded
  split
  · split
    · next hcomplete _ _ => exact absurd (hcomplete.symm.trans h) (by simp)
    · rfl
  · rfl

section Rows

variable {label : MailboxLabel} {g : List Char} {s : MailboxStore}

theorem cacheSafe_eq (hc : IsOf label g c) (hm : IsOf label g m) :
    s.cacheSafe c m = ({ s with tombstones:= tombstonesOf (.generation g) s.tombstones },
        (cacheSafeSnapshot c m).removingCachedThreadIds (activeTombstones g s)) := by
  have hgen : c.generation = m.generation := hc.generation.trans hm.generation.symm
  have hscope : (cacheSafeSnapshot c m).scope = .generation g := by
    apply scope_of_generation
    rw [cacheSafeSnapshot_generation (hc.label.trans hm.label.symm), keptOf_of_eq hgen,
      hm.generation]
  unfold MailboxStore.cacheSafe applyingTombstones activeTombstones
  simp only [hscope, tombstonesOf_self, retiredBy_eq_nil hgen, List.nil_append]

theorem applyingTombstones_eq (hm : IsOf label g m)
    (tombstones : List Tombstone) : applyingTombstones tombstones m =
      m.removingCachedThreadIds ((tombstonesOf (.generation g) tombstones).map Tombstone.threadId) := by
  unfold applyingTombstones
  rw [hm.scope]

/-- What a run has of the store: the shelf, its date, and no removed thread. -/
def Stored (g : List Char) (s : MailboxStore) (shelf : List GmailThreadRow)
    (date : Option Int) : Prop :=
  match s.mailbox with
  | none => shelf = [] ∧ date = none
  | some b => Holds b shelf date (activeTombstones g s)

variable {shelf : List GmailThreadRow} {date : Option Int}

theorem writeMailbox_stored (h : OneGeneration label g s) (hstored : Stored g s shelf date)
    (hm : IsOf label g m)
    (hunfinished : (incomingOf m s.mailbox edit.removingThreadIds).isAuthoritative = false)
    (hfirst : s.mailbox = none → WellFormed m) : Stored g (s.writeMailbox label m edit)
      (shelve (dateBefore (progressDate (incomingOf m s.mailbox edit.removingThreadIds)) date)
        (incomingOf m s.mailbox edit.removingThreadIds).rows shelf
        (activeTombstones g (s.writeMailbox label m edit)))
      (monotonicMax date (progressDate (incomingOf m s.mailbox edit.removingThreadIds))) := by
  have hinc := incomingOf_isOf h hm edit.removingThreadIds
  obtain ⟨_, _, hrows⟩ := incomingOf_counts m s.mailbox edit.removingThreadIds
  rw [writeMailbox_eq h hm.label edit]
  revert hunfinished hinc hrows
  generalize incomingOf m s.mailbox edit.removingThreadIds = incoming
  intro hunfinished hinc hrows
  unfold MailboxStore.mergeStored Stored at *
  cases hb : s.mailbox with
  | none =>
    have hb' : (s.edited incoming label edit).mailbox = none := hb
    rw [hb] at hstored
    obtain ⟨rfl, rfl⟩ := hstored
    simp only [hb']
    rw [applyingTombstones_eq hinc]
    have hd : RowsDistinct incoming.rows := by
      rw [hrows]
      exact (hfirst hb).once
    exact (holds_first hd _).counted edit incoming
  | some b =>
    have hb' : (s.edited incoming label edit).mailbox = some b := hb
    rw [hb] at hstored
    obtain ⟨hbof, _⟩ := h.mailbox b hb
    simp only [hb', cacheSafe_eq hbof hinc]
    have hmerged := hstored.merge (hbof.label.trans hinc.label.symm)
      (hbof.generation.trans hinc.generation.symm) hunfinished
      (activeTombstones g (s.edited incoming label edit))
    unfold activeTombstones at hmerged ⊢
    simp only [tombstonesOf_self]
    exact hmerged.counted edit incoming

/-- What `writeSession` stores over a stored mailbox that the session has too. -/
theorem writeSession_current (h : OneGeneration label g s)
    (hb : s.mailbox = some b) (hcurrent : s.session = none ∨ s.session = s.mailbox)
    (hm : IsOf label g m) (hunfinished : m.isAuthoritative = false) :
    ∃ b', s.writeSession m = { s with
          session := some b'
          mailbox := some b'
          tombstones := tombstonesOf (.generation g) s.tombstones } ∧
      (b' = (cacheSafeSnapshot b m).removingCachedThreadIds (activeTombstones g s) ∨
        b' = (cacheSafeSnapshot b ((cacheSafeSnapshot b m).removingCachedThreadIds
          (activeTombstones g s))).removingCachedThreadIds (activeTombstones g s)) := by
  obtain ⟨hbof, _⟩ := h.mailbox b hb
  have hincluded : s.included m = s := by
    unfold MailboxStore.included
    rw [clearForInclusion_unfinished hunfinished]
  have hactive : ∀ c b₁, activeTombstones g
      ⟨c, b₁, s.retired, tombstonesOf (.generation g) s.tombstones⟩ = activeTombstones g s := by
    intro _ _
    unfold activeTombstones
    simp only [tombstonesOf_self]
  have hmerged : IsOf label g
      ((cacheSafeSnapshot b m).removingCachedThreadIds (activeTombstones g s)) := by
    obtain ⟨hid, hsame, _, _⟩ := removing_identity (cacheSafeSnapshot b m) (activeTombstones g s)
    have hlabel := hbof.label.trans hm.label.symm
    have hgen := hbof.generation.trans hm.generation.symm
    refine ⟨hid.trans ((cacheSafeSnapshot_label hlabel).trans hm.label), ?_⟩
    rw [hsame, cacheSafeSnapshot_generation hlabel, keptOf_of_eq hgen, hm.generation]
  -- what is kept has had its tombstones applied already
  have hkeep : ∀ q : MailboxResponse, IsOf label g (q.removingCachedThreadIds (activeTombstones g s)) →
      applyingTombstones (tombstonesOf (.generation g) s.tombstones)
        (q.removingCachedThreadIds (activeTombstones g s)) =
          q.removingCachedThreadIds (activeTombstones g s) := by
    intro q hq
    rw [applyingTombstones_eq hq, tombstonesOf_self]
    exact removing_eq_self (clean_removing q (activeTombstones g s))
  rw [writeSession_eq h m, hincluded]
  rcases hcurrent with hnone | hsame
  · refine ⟨_, ?_, Or.inl rfl⟩
    simp only [MailboxStore.mergeWith, hnone, hb, cacheSafe_eq hbof hm, MailboxStore.keep]
    rw [hkeep _ hmerged]
  · refine ⟨_, ?_, Or.inr rfl⟩
    have hagain : IsOf label g ((cacheSafeSnapshot b ((cacheSafeSnapshot b m).removingCachedThreadIds
        (activeTombstones g s))).removingCachedThreadIds (activeTombstones g s)) := by
      obtain ⟨hid, hgen, _, _⟩ := removing_identity (cacheSafeSnapshot b
        ((cacheSafeSnapshot b m).removingCachedThreadIds (activeTombstones g s)))
        (activeTombstones g s)
      have hlabel := hbof.label.trans hmerged.label.symm
      refine ⟨hid.trans ((cacheSafeSnapshot_label hlabel).trans hmerged.label), ?_⟩
      rw [hgen, cacheSafeSnapshot_generation hlabel,
        keptOf_of_eq (hbof.generation.trans hmerged.generation.symm), hmerged.generation]
    simp only [MailboxStore.mergeWith, hsame.trans hb, hb, cacheSafe_eq hbof hm,
      cacheSafe_eq hbof hmerged, hactive, MailboxStore.keep, tombstonesOf_self]
    rw [hkeep _ hagain]

theorem writeSession_stored (h : OneGeneration label g s) (hstored : Stored g s shelf date)
    (hcurrent : s.session = none ∨ s.session = s.mailbox) (hm : IsOf label g m)
    (hunfinished : m.isAuthoritative = false) (hfirst : s.mailbox = none → WellFormed m) :
    Stored g (s.writeSession m) (shelve (dateBefore (progressDate m) date) m.rows shelf
        (activeTombstones g (s.writeSession m))) (monotonicMax date (progressDate m)) := by
  cases hb : s.mailbox with
  | none =>
    have hnone : s.session = none := by
      rcases hcurrent with hnone | hsame
      · exact hnone
      · exact hsame.trans hb
    have hincluded : s.included m = s := by
      unfold MailboxStore.included
      rw [clearForInclusion_unfinished hunfinished]
    unfold Stored at hstored
    rw [hb] at hstored
    obtain ⟨rfl, rfl⟩ := hstored
    rw [writeSession_eq h m, hincluded]
    simp only [MailboxStore.mergeWith, hnone, hb, MailboxStore.keep, Stored]
    rw [applyingTombstones_eq hm]
    exact holds_first (hfirst hb).once _
  | some b =>
    obtain ⟨hbof, _⟩ := h.mailbox b hb
    unfold Stored at hstored
    rw [hb] at hstored
    obtain ⟨b', hs', hb'⟩ := writeSession_current h hb hcurrent hm hunfinished
    have hactive : activeTombstones g (s.writeSession m) = activeTombstones g s := by
      rw [hs']
      unfold activeTombstones
      simp only [tombstonesOf_self]
    have hlabel := hbof.label.trans hm.label.symm
    have hgen := hbof.generation.trans hm.generation.symm
    have hmailbox : (s.writeSession m).mailbox = some b' := by rw [hs']
    unfold Stored
    rw [hmailbox, hactive]
    rcases hb' with rfl | rfl
    · exact hstored.merge hlabel hgen hunfinished _
    · exact hstored.mergeAgain hlabel hgen hunfinished

/-! ## Writing again -/

theorem merge_clean (h : Holds b shelf date removed) (hlabel : b.label = m.label)
    (hgen : b.generation = m.generation) (hunfinished : m.isAuthoritative = false)
    (hclean : ∀ t ∈ removed, t ∉ m.threadIds) :
    (cacheSafeSnapshot b m).removingCachedThreadIds removed = cacheSafeSnapshot b m := by
  apply removing_eq_self
  intro t ht hin
  obtain ⟨_, _, hrows⟩ := merge_rows hlabel hgen hunfinished
  have hb : rowOf b.rows t = none := rowOf_eq_none.2 (h.clean t ht)
  have hm : rowOf m.rows t = none := rowOf_eq_none.2 (hclean t ht)
  apply mem_threadIds.1 hin
  rw [hrows t, hb, hm]
  split
  · rfl
  · rfl

section

variable (h : OneGeneration label g s) (hb : s.mailbox = some b)
include h hb

theorem writeMailbox_plain (hm : IsOf label g m) (hunfinished : m.isAuthoritative = false) :
    s.writeMailbox label m ⟨[], [], []⟩ = { s with
        mailbox := some ((cacheSafeSnapshot b m).removingCachedThreadIds (activeTombstones g s))
        tombstones := tombstonesOf (.generation g) s.tombstones } := by
  have hedited : s.edited m label ⟨[], [], []⟩ = s := by
    unfold MailboxStore.edited MailboxStore.editedTombstones
    simp only [List.isEmpty_nil, if_true, List.contains_nil, Bool.false_eq_true, if_false]
    rw [clearForInclusion_unfinished hunfinished]
  have hincoming : ∀ cached, incomingOf m cached [] = m := fun _ => rfl
  rw [writeMailbox_eq h hm.label]
  simp only [hincoming, hedited, MailboxStore.mergeStored, hb, cacheSafe_eq (h.mailbox b hb).1 hm]
  rfl

/-- **Writing a page again changes nothing.** -/
theorem writeMailbox_again (hstored : Holds b shelf date (activeTombstones g s)) (hm : IsOf label g m)
    (hunfinished : m.isAuthoritative = false)
    (hnext : OneGeneration label g (s.writeMailbox label m ⟨[], [], []⟩))
    (hclean : ∀ t ∈ activeTombstones g (s.writeMailbox label m ⟨[], [], []⟩), t ∉ m.threadIds) :
    (s.writeMailbox label m ⟨[], [], []⟩).writeMailbox label m ⟨[], [], []⟩ =
      s.writeMailbox label m ⟨[], [], []⟩ := by
  have hlabel := (h.mailbox b hb).1.label.trans hm.label.symm
  have hgen := (h.mailbox b hb).1.generation.trans hm.generation.symm
  have hplain := writeMailbox_plain h hb hm hunfinished
  rw [hplain] at hnext hclean ⊢
  have hactive : ∀ b₁, activeTombstones g
      ⟨s.session, b₁, s.retired, tombstonesOf (.generation g) s.tombstones⟩ =
        activeTombstones g s := by
    intro _
    unfold activeTombstones
    simp only [tombstonesOf_self]
  rw [hactive] at hclean
  rw [merge_clean hstored hlabel hgen hunfinished hclean] at hnext ⊢
  rw [writeMailbox_plain hnext rfl hm hunfinished]
  obtain ⟨hsame, _, _⟩ := merge_absorbs hlabel hgen hstored.once hunfinished
  simp only [hactive, hsame, tombstonesOf_self, merge_clean hstored hlabel hgen hunfinished hclean]

/-- **And so does writing it with the session again.** -/
theorem writeSession_again (hcurrent : s.session = none ∨ s.session = s.mailbox)
    (hstored : Holds b shelf date (activeTombstones g s)) (hm : IsOf label g m)
    (hunfinished : m.isAuthoritative = false) (hnext : OneGeneration label g (s.writeSession m))
    (hclean : ∀ t ∈ activeTombstones g (s.writeSession m), t ∉ m.threadIds) :
    (s.writeSession m).writeSession m = s.writeSession m := by
  have hlabel := (h.mailbox b hb).1.label.trans hm.label.symm
  have hgen := (h.mailbox b hb).1.generation.trans hm.generation.symm
  obtain ⟨hsame, hback, hself⟩ := merge_absorbs hlabel hgen hstored.once hunfinished
  obtain ⟨b', hs', hb'⟩ := writeSession_current h hb hcurrent hm hunfinished
  have hactive : activeTombstones g (s.writeSession m) = activeTombstones g s := by
    rw [hs']
    unfold activeTombstones
    simp only [tombstonesOf_self]
  rw [hactive] at hclean
  have hkept := merge_clean hstored hlabel hgen hunfinished hclean
  have hmerged : b' = cacheSafeSnapshot b m := by
    rcases hb' with rfl | rfl
    · exact hkept
    · rw [hkept, hback, hkept]
  obtain ⟨b'', hs'', hb''⟩ := writeSession_current hnext (b := b') (by rw [hs'])
    (Or.inr (by rw [hs'])) hm hunfinished
  have hmerged' : b'' = b' := by
    subst hmerged
    rw [hsame, hactive, hkept, hself, hkept] at hb''
    rcases hb'' with rfl | rfl
    · rfl
    · rfl
  rw [hs'', hmerged', hs']
  simp only [tombstonesOf_self]

end

end Rows

variable {r : PageRun}

/-! ## Runs -/

theorem countsKept_of_movesOn {r' : PageRun} {b' : MailboxResponse}
    (hnext : MovesOn label g r.store r'.store b') (hbefore : r'.before = r.store.mailbox) :
    CountsKept r' := by
  have hmailbox : ∀ b ∈ r'.store.mailbox, b = b' := by
    intro b hb
    exact (Option.some.inj (hnext.mailbox.symm.trans hb)).symm
  constructor
  · intro b hb
    rw [hmailbox b hb]
    exact hnext.counted
  · intro a ha b hb
    rw [hmailbox b hb]
    exact (hnext.advances a (hbefore ▸ ha)).counts
  · intro a ha b hb
    rw [hmailbox b hb]
    exact (hnext.advances a (hbefore ▸ ha)).completions

structure CountsSafe (label : MailboxLabel) (g : List Char) (r : PageRun) : Prop where
  one : OneGeneration label g r.store
  kept : CountsKept r

theorem countsSafe_step {c : StoreCall} (h : CountsSafe label g r) (hc : Offers label g r c) :
    CountsSafe label g (r.step label g c) := by
  cases c with
  | writeMailbox m edit =>
    obtain ⟨hlabel, hgen, hunfinished, hfirst, hremoving⟩ := hc
    obtain ⟨b', hnext⟩ :=
      writeMailbox_movesOn h.one ⟨hlabel, hgen⟩ hunfinished hfirst hremoving
    exact ⟨hnext.oneGeneration h.one, countsKept_of_movesOn hnext rfl⟩
  | writeSession m =>
    obtain ⟨hlabel, hgen, hunfinished, hfirst⟩ := hc
    obtain ⟨b', hnext⟩ := writeSession_movesOn h.one ⟨hlabel, hgen⟩ hunfinished hfirst
    have hstore : (r.step label g (.writeSession m)).store = r.store.writeSession m :=
      if_pos hlabel
    rw [← hstore] at hnext
    exact ⟨hnext.oneGeneration h.one, countsKept_of_movesOn hnext rfl⟩
  | fails => exact h

structure PagesSafe (label : MailboxLabel) (g : List Char) (r : PageRun) : Prop where
  counts : CountsSafe label g r
  stored : Stored g r.store r.shelf r.date
  again : ∀ m, r.last = some (.writeMailbox m ⟨[], [], []⟩) ∨ r.last = some (.writeSession m) →
    r.before.isSome = true → (∀ t ∈ activeTombstones g r.store, t ∉ m.threadIds) →
      ∀ c ∈ r.last, r.store.step label c = r.store

theorem PagesSafe.kept (h : PagesSafe label g r) : PagesKept label g r := by
  have hholds : ∀ b ∈ r.store.mailbox, Holds b r.shelf r.date (activeTombstones g r.store) := by
    intro b hb
    have hstored := h.stored
    unfold Stored at hstored
    rw [hb] at hstored
    exact hstored
  refine ⟨fun b hb => (hholds b hb).once, ?_, fun b hb => (hholds b hb).copies, h.again⟩
  intro b hb t
  rw [mem_threadIds, (hholds b hb).copies, Ne, rowOf_eq_none, not_not]

theorem pagesSafe_step {c : StoreCall} (h : PagesSafe label g r)
    (hc : Offers label g r c ∧ SessionCurrent r c) : PagesSafe label g (r.step label g c) := by
  obtain ⟨hc, hcurrent⟩ := hc
  have hcounts := countsSafe_step h.counts hc
  refine ⟨hcounts, ?_, ?_⟩
  · cases c with
    | writeMailbox =>
      obtain ⟨hlabel, hgen, hunfinished, hfirst, _⟩ := hc
      exact writeMailbox_stored h.counts.one h.stored ⟨hlabel, hgen⟩ hunfinished hfirst
    | writeSession m =>
      obtain ⟨hlabel, hgen, hunfinished, hfirst⟩ := hc
      have hstore : r.store.step label (.writeSession m) = r.store.writeSession m :=
        if_pos hlabel
      have hstored :=
        writeSession_stored h.counts.one h.stored hcurrent ⟨hlabel, hgen⟩ hunfinished hfirst
      rw [← hstore] at hstored
      exact hstored
    | fails => exact h.stored
  · cases c with
    | writeMailbox =>
      intro m' hlast hbefore hclean c hc'
      obtain ⟨b, hb⟩ := Option.isSome_iff_exists.1 hbefore
      obtain ⟨hlabel, hgen, hunfinished, _, _⟩ := hc
      rcases hlast with hlast | hlast
      · obtain ⟨rfl, rfl⟩ := StoreCall.writeMailbox.inj (Option.some.inj hlast)
        obtain rfl := Option.some.inj hc'
        have hstored := h.stored
        unfold Stored at hstored
        rw [show r.store.mailbox = some b from hb] at hstored
        exact writeMailbox_again h.counts.one hb hstored ⟨hlabel, hgen⟩ hunfinished
          hcounts.one hclean
      · cases hlast
    | writeSession m =>
      intro m' hlast hbefore hclean c hc'
      obtain ⟨b, hb⟩ := Option.isSome_iff_exists.1 hbefore
      obtain ⟨hlabel, hgen, hunfinished, _⟩ := hc
      rcases hlast with hlast | hlast
      · cases hlast
      obtain rfl := StoreCall.writeSession.inj (Option.some.inj hlast)
      obtain rfl := Option.some.inj hc'
      have hstored := h.stored
      unfold Stored at hstored
      rw [show r.store.mailbox = some b from hb] at hstored
      have hstore : r.store.step label (.writeSession m) = r.store.writeSession m :=
        if_pos hlabel
      have hone := hcounts.one
      change OneGeneration label g (r.store.step label (.writeSession m)) at hone
      change ∀ t ∈ activeTombstones g (r.store.step label (.writeSession m)), _ at hclean
      show (r.store.step label (.writeSession m)).step label (.writeSession m) =
        r.store.step label (.writeSession m)
      rw [hstore] at hone hclean ⊢
      show (if m.label = label then _ else _) = _
      rw [if_pos hlabel]
      exact writeSession_again h.counts.one hb hcurrent hstored ⟨hlabel, hgen⟩ hunfinished
        hone hclean
    | fails => exact h.again

def PageRun.start : PageRun := ⟨.empty, [], none, none, none⟩

theorem pagesSafe_start (label : MailboxLabel) (g : List Char) :
    PagesSafe label g PageRun.start := by
  have hmailbox : PageRun.start.store.mailbox = none := rfl
  have hsession : PageRun.start.store.session = none := rfl
  refine ⟨⟨⟨?_, ?_, ?_, rfl⟩, ⟨?_, ?_, ?_⟩⟩, ⟨rfl, rfl⟩, ?_⟩
  · simp [hmailbox]
  · simp [hsession]
  · simp [hsession]
  · simp [hmailbox]
  · simp [hmailbox]
  · simp [hmailbox]
  · rintro m (hlast | hlast)
    · cases hlast
    · cases hlast

/-- **No page is lost.** The counts of the stored mailbox are in order, and its progress never
goes back. As long as `writeSession` finds the stored mailbox in the session, the stored mailbox
has the threads that have been written and not been removed since, once and in the copy to be
expected, and writing the last snapshot again changes nothing. -/
theorem pages_kept (label : MailboxLabel) (g : List Char) (calls : List StoreCall)
    (h : Along (PageRun.step label g) (Offers label g) PageRun.start calls) :
    Throughout (PageRun.step label g) CountsKept PageRun.start calls ∧
      (Along (PageRun.step label g) SessionCurrent PageRun.start calls →
        Throughout (PageRun.step label g) (PagesKept label g) PageRun.start calls) := by
  have hstart := pagesSafe_start label g
  constructor
  · apply (throughout_of_step _ hstart.counts h).mono fun _ hr => hr.kept
    exact fun r c hr hc => countsSafe_step hr hc
  · intro hcurrent
    apply (throughout_of_step _ hstart (h.and hcurrent)).mono fun _ hr => hr.kept
    exact fun r c hr hc => pagesSafe_step hr hc

theorem pages_kept_of_four :
    let page := fun d rows => pageOf (some ['g']) (some ⟨0, some d⟩) rows
    let calls : List StoreCall :=
      [.writeMailbox (page 5 [⟨1, false, 0⟩, ⟨2, false, 0⟩]) ⟨[], [], []⟩,
        .writeSession (page 5 [⟨1, false, 1⟩]),
        .writeMailbox (page 4 [⟨2, true, 1⟩, ⟨3, true, 1⟩]) ⟨[], [], []⟩,
        .writeMailbox (page 6 [⟨2, false, 2⟩]) ⟨[1], [], []⟩]
    Throughout (PageRun.step .inbox ['g']) CountsKept PageRun.start calls ∧
      Throughout (PageRun.step .inbox ['g']) (PagesKept .inbox ['g']) PageRun.start calls :=
  have h := pages_kept .inbox ['g'] _ (by decide +kernel)
  ⟨h.1, h.2 (by decide +kernel)⟩

def storedAfter (calls : List StoreCall) : Option MailboxResponse :=
  (after (MailboxStore.step .inbox) .empty calls).mailbox

/-- Of two pages of one date the second one gives the copy. A page that is older than the stored
mailbox does not, though it is newer than the page that gave the copy. The first page is stored
as it is, so that a thread it has twice is stored twice, and its counts need not be in order;
those of a page that removes a thread need not be either. Writing the first page again gives
the stored mailbox its count of rows. -/
theorem later_copy_kept :
    let page := fun d rows => pageOf (some ['g']) (some ⟨0, some d⟩) rows
    let twice := { page 5 [⟨1, false, 0⟩, ⟨1, false, 1⟩] with totalThreads := 1 }
    let uncounted := { page 5 [⟨1, false, 0⟩] with loadedThreads := none }
    (storedAfter [.writeMailbox (page 5 [⟨1, false, 0⟩]) ⟨[], [], []⟩,
        .writeMailbox (page 5 [⟨1, false, 1⟩]) ⟨[], [], []⟩]).map MailboxResponse.rows =
          some [⟨1, false, 1⟩] ∧
      (storedAfter [.writeMailbox (page 3 [⟨1, false, 0⟩]) ⟨[], [], []⟩,
        .writeMailbox (page 5 [⟨2, false, 0⟩]) ⟨[], [], []⟩,
        .writeMailbox (page 4 [⟨1, false, 1⟩]) ⟨[], [], []⟩]).map MailboxResponse.rows =
          some [⟨2, false, 0⟩, ⟨1, false, 0⟩] ∧
      storedAfter [.writeMailbox twice ⟨[], [], []⟩] = some twice ∧
      twice.isAuthoritative = false ∧ ¬ twice.threadIds.Nodup ∧ ¬ Counted twice ∧
      storedAfter [.writeMailbox uncounted ⟨[], [], []⟩, .writeMailbox uncounted ⟨[], [], []⟩] ≠
        storedAfter [.writeMailbox uncounted ⟨[], [], []⟩] := by
  decide +kernel

end ElectronicMail.Offline
