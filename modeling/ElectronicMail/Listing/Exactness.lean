import Mathlib.Data.String.Basic
import ElectronicMail.Foundations.Run
import ElectronicMail.Listing.Pagination

/-!
# What a listing returns

Between two page reads the messages may change in any way and orders may be
published. `pagination_exact` says what following the cursors returns: over a state
that stays as it is, every matching thread once and in order; over changing states,
no thread twice in Gmail order, and every thread that keeps matching with its sort key
exactly once.

A pinned generation is active at first and retained after one publication of its label
(`retained_of_changes`), and its ranks are never changed.
-/

namespace ElectronicMail.Listing

open Foundations

universe u

/-! ## Changes between reads -/

inductive Change where
  /-- The messages and their labels become these. -/
  | messages (rows : List Message)
  /-- `replace_gmail_thread_orders`. -/
  | replaceOrders (ids : GenerationIds) (orderedThreadIdsByLabel : List (String × List String))

def Change.apply (m : Mailbox) : Change → Mailbox
  | .messages rows => { m with messages := rows }
  | .replaceOrders ids ordered => replaceGmailThreadOrders ids ordered m

def Change.publishes (mailboxLabel : String) : Change → Bool
  | .messages _ => false
  | .replaceOrders _ ordered => (normalizedOrder ordered mailboxLabel).isSome

/-- `uuid4` gives ids that name no generation yet. -/
def Change.Fresh (m : Mailbox) : Change → Prop
  | .messages _ => True
  | .replaceOrders ids _ => ∀ label generationId, m.Retained label generationId →
      ∀ other, ids.id other ≠ generationId

/-- The states in which the pages are read: the first, and one after each group of
changes. -/
def readings (m : Mailbox) : List (List Change) → List Mailbox
  | [] => [m]
  | changes :: groups => m :: readings (after Change.apply m changes) groups

variable {ids : GenerationIds} {ordered : List (String × List String)} {m m' : Mailbox}

/-! ## A pinned generation is retained -/

section Pinned

variable {mailboxLabel generationId : String}

theorem publishLabel_other {label : String} (h : publishLabel ids ordered m label = some m')
    (hother : mailboxLabel = label → normalizedOrder ordered label = none) :
    m'.orderState mailboxLabel = m.orderState mailboxLabel ∧
      ∀ g, SameRanks mailboxLabel g m m' := by
  unfold publishLabel at h
  split at h
  · obtain rfl := Option.some.inj h
    exact ⟨rfl, fun g entry _ _ => Iff.rfl⟩
  · rename_i threadIds hthreads
    refine publish_other h ?_
    intro hlabel
    rw [hother hlabel] at hthreads
    cases hthreads

theorem publishLabels_other {labels : List String}
    (hother : ∀ label ∈ labels, mailboxLabel = label → normalizedOrder ordered label = none)
    (h : labels.foldlM (publishLabel ids ordered) m = some m') :
    m'.orderState mailboxLabel = m.orderState mailboxLabel ∧
      ∀ g, SameRanks mailboxLabel g m m' := by
  induction labels generalizing m with
  | nil =>
    obtain rfl := Option.some.inj h
    exact ⟨rfl, fun g entry _ _ => Iff.rfl⟩
  | cons label labels ih =>
    rw [List.foldlM_cons] at h
    obtain ⟨next, hnext, hrest⟩ := Option.bind_eq_some_iff.1 h
    obtain ⟨hstate, hranks⟩ := publishLabel_other hnext (hother label List.mem_cons_self)
    obtain ⟨hstate', hranks'⟩ :=
      ih (fun other h => hother other (List.mem_cons_of_mem _ h)) hrest
    exact ⟨hstate'.trans hstate, fun g => (hranks g).trans (hranks' g)⟩

theorem replaceGmailThreadOrders_cases (ids : GenerationIds)
    (ordered : List (String × List String)) (m : Mailbox) :
    replaceGmailThreadOrders ids ordered m = m ∨
      sortedLabels.foldlM (publishLabel ids ordered) m =
        some (replaceGmailThreadOrders ids ordered m) := by
  unfold replaceGmailThreadOrders
  split
  · cases hfold : sortedLabels.foldlM (publishLabel ids ordered) m with
    | none => exact Or.inl rfl
    | some m' => exact Or.inr rfl
  · exact Or.inl rfl

theorem nodup_sortedLabels : sortedLabels.Nodup := by decide

theorem retained_congr (h : m'.orderState mailboxLabel = m.orderState mailboxLabel) :
    (m'.Active mailboxLabel generationId ↔ m.Active mailboxLabel generationId) ∧
      (m'.Retained mailboxLabel generationId ↔ m.Retained mailboxLabel generationId) := by
  unfold Mailbox.Active Mailbox.Retained
  rw [h]
  exact ⟨Iff.rfl, Iff.rfl⟩

theorem active_publishLabels {labels : List String} (hlabels : labels.Nodup)
    (hactive : m.Active mailboxLabel generationId) (hfresh : ∀ other, ids.id other ≠ generationId)
    (h : labels.foldlM (publishLabel ids ordered) m = some m') :
    m'.Retained mailboxLabel generationId ∧ SameRanks mailboxLabel generationId m m' := by
  induction labels generalizing m with
  | nil =>
    obtain rfl := Option.some.inj h
    exact ⟨hactive.retained, fun entry _ _ => Iff.rfl⟩
  | cons label labels ih =>
    rw [List.nodup_cons] at hlabels
    rw [List.foldlM_cons] at h
    obtain ⟨next, hnext, hrest⟩ := Option.bind_eq_some_iff.1 h
    by_cases hlabel : mailboxLabel = label
    · subst hlabel
      have hothers : ∀ other ∈ labels, mailboxLabel = other →
          normalizedOrder ordered other = none := by
        rintro other hmem rfl
        exact absurd hmem hlabels.1
      obtain ⟨hstate, hranks⟩ := publishLabels_other hothers hrest
      rw [(retained_congr hstate).2]
      unfold publishLabel at hnext
      split at hnext
      · obtain rfl := Option.some.inj hnext
        exact ⟨hactive.retained, hranks generationId⟩
      · obtain ⟨hretained, hsame⟩ := hactive.publish hnext (hfresh mailboxLabel)
        exact ⟨hretained, hsame.trans (hranks generationId)⟩
    · obtain ⟨hstate, hranks⟩ := publishLabel_other hnext fun heq => absurd heq hlabel
      obtain ⟨hretained, hsame⟩ :=
        ih hlabels.2 ((retained_congr hstate).1.2 hactive) hrest
      exact ⟨hretained, (hranks generationId).trans hsame⟩

theorem apply_other {change : Change} (h : change.publishes mailboxLabel = false) (m : Mailbox) :
    (change.apply m).orderState mailboxLabel = m.orderState mailboxLabel ∧
      ∀ g, SameRanks mailboxLabel g m (change.apply m) := by
  cases change with
  | messages rows => exact ⟨rfl, fun g entry _ _ => Iff.rfl⟩
  | replaceOrders ids ordered =>
    have hnone : normalizedOrder ordered mailboxLabel = none :=
      Option.not_isSome_iff_eq_none.1 (Bool.eq_false_iff.1 h)
    show (replaceGmailThreadOrders ids ordered m).orderState mailboxLabel = _ ∧
      ∀ g, SameRanks mailboxLabel g m (replaceGmailThreadOrders ids ordered m)
    rcases replaceGmailThreadOrders_cases ids ordered m with hsame | hfold
    · rw [hsame]
      exact ⟨rfl, fun g entry _ _ => Iff.rfl⟩
    · exact publishLabels_other (fun label _ heq => heq ▸ hnone) hfold

theorem apply_active {change : Change} (hfresh : change.Fresh m)
    (hactive : m.Active mailboxLabel generationId) :
    (change.apply m).Retained mailboxLabel generationId ∧
      SameRanks mailboxLabel generationId m (change.apply m) := by
  cases change with
  | messages rows => exact ⟨hactive.retained, fun entry _ _ => Iff.rfl⟩
  | replaceOrders ids ordered =>
    show (replaceGmailThreadOrders ids ordered m).Retained mailboxLabel generationId ∧
      SameRanks mailboxLabel generationId m (replaceGmailThreadOrders ids ordered m)
    rcases replaceGmailThreadOrders_cases ids ordered m with hsame | hfold
    · rw [hsame]
      exact ⟨hactive.retained, fun entry _ _ => Iff.rfl⟩
    · exact active_publishLabels nodup_sortedLabels hactive
        (hfresh mailboxLabel generationId hactive.retained) hfold

theorem after_other {changes : List Change}
    (h : changes.countP (Change.publishes mailboxLabel) = 0) (m : Mailbox) :
    (after Change.apply m changes).orderState mailboxLabel = m.orderState mailboxLabel ∧
      ∀ g, SameRanks mailboxLabel g m (after Change.apply m changes) := by
  induction changes generalizing m with
  | nil => exact ⟨rfl, fun g entry _ _ => Iff.rfl⟩
  | cons change changes ih =>
    rw [List.countP_eq_zero] at h
    have hfirst := apply_other (Bool.eq_false_iff.2 (h change List.mem_cons_self)) m
    have hrest := ih (List.countP_eq_zero.2 fun c hc => h c (List.mem_cons_of_mem _ hc))
      (change.apply m)
    exact ⟨hrest.1.trans hfirst.1, fun g => (hfirst.2 g).trans (hrest.2 g)⟩

/-- **One publication is survived.** Where a label is published at most once, a
generation active at the start is retained in every state, with its ranks. -/
theorem retained_of_changes {changes : List Change}
    (hfresh : Along Change.apply Change.Fresh m changes)
    (hcount : changes.countP (Change.publishes mailboxLabel) ≤ 1)
    (hactive : m.Active mailboxLabel generationId) :
    (after Change.apply m changes).Retained mailboxLabel generationId ∧
      SameRanks mailboxLabel generationId m (after Change.apply m changes) := by
  induction changes generalizing m with
  | nil => exact ⟨hactive.retained, fun entry _ _ => Iff.rfl⟩
  | cons change changes ih =>
    rw [List.countP_cons] at hcount
    by_cases hpublishes : change.publishes mailboxLabel = true
    · rw [if_pos hpublishes] at hcount
      obtain ⟨hretained, hsame⟩ := apply_active hfresh.1 hactive
      obtain ⟨hstate, hranks⟩ := after_other
        (by omega : changes.countP (Change.publishes mailboxLabel) = 0) (change.apply m)
      exact ⟨(retained_congr hstate).2.2 hretained, hsame.trans (hranks generationId)⟩
    · rw [if_neg hpublishes, Nat.add_zero] at hcount
      obtain ⟨hstate, hranks⟩ := apply_other (Bool.eq_false_iff.2 hpublishes) m
      obtain ⟨hretained, hsame⟩ := ih hfresh.2 hcount ((retained_congr hstate).1.2 hactive)
      exact ⟨hretained, (hranks generationId).trans hsame⟩

theorem mem_readings {groups : List (List Change)} (h : m' ∈ readings m groups) :
    ∃ changes, changes <+: groups.flatten ∧ m' = after Change.apply m changes := by
  induction groups generalizing m with
  | nil =>
    rw [readings, List.mem_singleton] at h
    exact ⟨[], List.nil_prefix, h⟩
  | cons changes groups ih =>
    rcases List.mem_cons.1 h with rfl | h
    · exact ⟨[], List.nil_prefix, rfl⟩
    obtain ⟨rest, hbegins, rfl⟩ := ih h
    refine ⟨changes ++ rest, ?_, ?_⟩
    · rw [List.flatten_cons]
      exact List.prefix_append_right_inj changes |>.2 hbegins
    · rw [after_append]

theorem readings_retained {groups : List (List Change)}
    (hfresh : Along Change.apply Change.Fresh m groups.flatten)
    (hcount : groups.flatten.countP (Change.publishes mailboxLabel) ≤ 1)
    (hactive : m.Active mailboxLabel generationId) (h : m' ∈ readings m groups) :
    m'.Retained mailboxLabel generationId ∧ SameRanks mailboxLabel generationId m m' := by
  obtain ⟨changes, hbegins, rfl⟩ := mem_readings h
  exact retained_of_changes (hfresh.initial hbegins)
    (le_trans (hbegins.sublist.countP_le) hcount) hactive

end Pinned

/-! ## The order that is advertised -/

/-- Two states give a thread the same sort key in the order of a listing. -/
def SameSortKey (mailboxLabel : String) (generation : Option String) (m m' : Mailbox)
    (key : String) : Prop :=
  match generation with
  | some generationId =>
    m'.position mailboxLabel generationId key = m.position mailboxLabel generationId key
  | none => latestMatchingAt m'.messages key = latestMatchingAt m.messages key

/-- One thread comes before another: by the rank in the generation, or by the newest
message, newest first. -/
def AdvertisedBefore {κ : Type u} [LinearOrder κ] (collation : Collation κ)
    (mailboxLabel : String) (generation : Option String) (m : Mailbox) (key key' : String) :
    Prop :=
  match generation with
  | some generationId =>
    ∃ p p', m.position mailboxLabel generationId key = some p ∧
      m.position mailboxLabel generationId key' = some p' ∧
      (p < p' ∨ p = p' ∧ collation.weight key < collation.weight key')
  | none =>
    ∃ t t', latestMatchingAt m.messages key = some t ∧
      latestMatchingAt m.messages key' = some t' ∧
      (t' < t ∨ t' = t ∧ collation.weight key' < collation.weight key)

variable {key : String} {row : PageThread}

section Exact

variable {κ : Type u} [LinearOrder κ] {collation : Collation κ} {dbLower : String → String}
  {label : String} {limit : Int} {sinceIso : Option Timestamp} {searchQuery : Option String}

theorem matches_iff :
    Matches dbLower (normalizedMailboxLabel label) (listingFilter sinceIso searchQuery) m key ↔
      key ∈ eligibleThreads (listingEligible dbLower label sinceIso searchQuery) m.messages :=
  mem_eligibleThreads.symm

variable (collation) in
theorem rankKey_of_mem {generationId : String}
    (h : row ∈ rankTable dbLower label sinceIso searchQuery generationId m) :
    ∃ position, m.position (normalizedMailboxLabel label) generationId row.threadKey =
        some position ∧ row.rankKey collation = rankKey collation position row.threadKey := by
  obtain ⟨-, position, hrow, hposition⟩ := mem_rankedThreads.1 h
  refine ⟨position, hposition, ?_⟩
  rw [PageThread.rankKey, hrow]
  rfl

theorem latest_of_mem (h : row ∈ dateTable dbLower label sinceIso searchQuery m) :
    latestMatchingAt m.messages row.threadKey = some row.latestMatchingAt :=
  (mem_matchingThreads.1 (mem_datedThreads.1 h).1).2

theorem exists_dateRow
    (h : key ∈ eligibleThreads (listingEligible dbLower label sinceIso searchQuery) m.messages) :
    ∃ row ∈ dateTable dbLower label sinceIso searchQuery m, row.threadKey = key := by
  obtain ⟨latest, hthread⟩ := exists_matchingThread h
  exact ⟨⟨key, latest, none⟩, mem_datedThreads.2 ⟨hthread, rfl⟩, rfl⟩

theorem exists_rankRow {generationId : String} {position : Nat}
    (h : key ∈ eligibleThreads (listingEligible dbLower label sinceIso searchQuery) m.messages)
    (hposition : m.position (normalizedMailboxLabel label) generationId key = some position) :
    ∃ row ∈ rankTable dbLower label sinceIso searchQuery generationId m, row.threadKey = key := by
  obtain ⟨latest, hthread⟩ := exists_matchingThread h
  exact ⟨⟨key, latest, some position⟩, mem_rankedThreads.2 ⟨hthread, position, rfl, hposition⟩, rfl⟩

theorem listingEligible_quiet (hquery : (listingFilter sinceIso searchQuery).query = "")
    (hsince : sinceIso = none) :
    listingEligible dbLower label sinceIso searchQuery =
      fun message => mailboxLabelClause (normalizedMailboxLabel label) message.labelIds := by
  funext message
  subst hsince
  simp only [listingEligible, eligibleMessage, hquery, decide_true, Bool.true_or, Bool.and_true]
  simp [listingFilter]

theorem pinned_ranks {generationId : String}
    (h : pinnedGeneration label sinceIso searchQuery m = some generationId)
    (hkey : key ∈ eligibleThreads (listingEligible dbLower label sinceIso searchQuery) m.messages) :
    ∃ position, m.position (normalizedMailboxLabel label) generationId key = some position := by
  obtain ⟨hquery, hsince, -, hrank, -⟩ := pinned_spec h
  rw [listingEligible_quiet hquery hsince] at hkey
  have hsome := List.any_eq_false.1 hrank key hkey
  rw [← Option.isSome_iff_exists, Option.isSome_iff_ne_none]
  simpa using hsome

theorem rankKey_of_sameRanks {generationId : String}
    (hsame : SameRanks (normalizedMailboxLabel label) generationId m m')
    (h : row ∈ rankTable dbLower label sinceIso searchQuery generationId m') :
    row.rankKey collation = rankKey collation
      (((m.position (normalizedMailboxLabel label) generationId row.threadKey).getD 0 : Nat) : Int)
      row.threadKey := by
  obtain ⟨position, hposition, hkey⟩ := rankKey_of_mem collation h
  rw [hsame.position] at hposition
  rw [hkey, hposition]
  rfl

theorem advertised_of_rankKey {generationId : String} {a b : PageThread}
    (ha : a ∈ rankTable dbLower label sinceIso searchQuery generationId m)
    (hb : b ∈ rankTable dbLower label sinceIso searchQuery generationId m)
    (h : a.rankKey collation < b.rankKey collation) :
    AdvertisedBefore collation (normalizedMailboxLabel label) (some generationId) m a.threadKey
      b.threadKey := by
  obtain ⟨p, hp, hpa⟩ := rankKey_of_mem collation ha
  obtain ⟨q, hq, hqb⟩ := rankKey_of_mem collation hb
  rw [hpa, hqb] at h
  refine ⟨p, q, hp, hq, ?_⟩
  rcases Prod.Lex.toLex_lt_toLex.1 h with hlt | ⟨heq, hlt⟩
  · exact Or.inl (Int.ofNat_lt.1 hlt)
  · exact Or.inr ⟨Int.ofNat.inj heq, hlt⟩

theorem advertised_of_dateKey {a b : PageThread}
    (ha : a ∈ dateTable dbLower label sinceIso searchQuery m)
    (hb : b ∈ dateTable dbLower label sinceIso searchQuery m)
    (h : a.dateKey collation < b.dateKey collation) :
    AdvertisedBefore collation (normalizedMailboxLabel label) none m a.threadKey b.threadKey := by
  refine ⟨_, _, latest_of_mem ha, latest_of_mem hb, ?_⟩
  exact Prod.Lex.toLex_lt_toLex.1 (OrderDual.toDual_lt_toDual.1 h)

theorem followPages_threads {K : Type u} [LinearOrder K] {sortKey : PageThread → K}
    {rows : List PageThread} {before : String → String → Prop}
    (hkeys : (rows.map sortKey).Nodup) (hthreads : (rows.map PageThread.threadKey).Nodup)
    (hbefore : ∀ a ∈ rows, ∀ b ∈ rows, sortKey a < sortKey b → before a.threadKey b.threadKey)
    {size n : Nat} (hsize : 0 < size) (hn : rows.length < n) {walk : List PageThread × Option K}
    (hwalk : Keyset.followPages sortKey size none (List.replicate n rows) = walk) :
    walk.2 = none ∧ (walk.1.map PageThread.threadKey).Nodup ∧
      (∀ a, a ∈ walk.1 ↔ a ∈ rows) ∧ (walk.1.map PageThread.threadKey).Pairwise before := by
  have hall : ∀ table ∈ List.replicate n rows, (table.map sortKey).Nodup := by
    intro table htable
    rw [List.eq_of_mem_replicate htable]
    exact hkeys
  have hsorted := Keyset.followPages_sorted hsize hall none
  obtain ⟨hend, hmem⟩ := Keyset.followPages_static hsize hkeys hn
  rw [hwalk] at hsorted hend hmem
  refine ⟨hend, ?_, hmem, ?_⟩
  · rw [List.Nodup, List.pairwise_map]
    refine hsorted.imp_of_mem ?_
    intro a b ha hb hlt heq
    obtain rfl := List.inj_on_of_nodup_map hthreads ((hmem a).1 ha) ((hmem b).1 hb) heq
    exact lt_irrefl _ hlt
  · rw [List.pairwise_map]
    refine hsorted.imp_of_mem ?_
    intro a b ha hb
    exact hbefore a ((hmem a).1 ha) b ((hmem b).1 hb)

variable (collation dbLower label limit sinceIso searchQuery)

/-- **A listing of a state that stays as it is.** -/
theorem listing_static (m : Mailbox) {n : Nat}
    (hn : (eligibleThreads (listingEligible dbLower label sinceIso searchQuery)
      m.messages).length < n) :
    ∃ threads, followMailbox collation dbLower label limit sinceIso searchQuery
        (List.replicate n m) = .ok (threads, none) ∧
      (threads.map PageThread.threadKey).Nodup ∧
      (∀ key, key ∈ threads.map PageThread.threadKey ↔
        Matches dbLower (normalizedMailboxLabel label) (listingFilter sinceIso searchQuery) m key) ∧
      (threads.map PageThread.threadKey).Pairwise
        (AdvertisedBefore collation (normalizedMailboxLabel label)
          (pinnedGeneration label sinceIso searchQuery m) m) := by
  obtain ⟨n, rfl⟩ : ∃ k, n = k + 1 := ⟨n - 1, by omega⟩
  cases hpinned : pinnedGeneration label sinceIso searchQuery m with
  | some generationId =>
    have hretained : ∀ m' ∈ List.replicate n m,
        m'.Retained (normalizedMailboxLabel label) generationId := by
      intro m' hm'
      rw [List.eq_of_mem_replicate hm']
      exact (pinned_spec hpinned).2.2.1.retained
    obtain ⟨next, hwalk, hend⟩ := gmail_walk collation dbLower limit hpinned hretained
    rw [← List.replicate_succ, List.map_replicate] at hwalk hend
    obtain ⟨hnone, hnodup, hmem, hbefore⟩ := followPages_threads
      (nodup_rankTable collation generationId m) (nodup_threadKey_rankedThreads _ _)
      (fun a ha b hb => advertised_of_rankKey ha hb) (pageSize_pos limit)
      (lt_of_le_of_lt (length_le_of_threadKeys (nodup_threadKey_rankedThreads _ _)
        fun row h => rankTable_eligible h) hn) rfl
    rw [hend.2 hnone] at hwalk
    refine ⟨_, hwalk, hnodup, ?_, hbefore⟩
    intro key
    rw [matches_iff, List.mem_map]
    constructor
    · rintro ⟨row, hrow, rfl⟩
      exact rankTable_eligible ((hmem row).1 hrow)
    · intro hkey
      obtain ⟨position, hposition⟩ := pinned_ranks hpinned hkey
      obtain ⟨row, hrow, rfl⟩ := exists_rankRow hkey hposition
      exact ⟨row, (hmem row).2 hrow, rfl⟩
  | none =>
    obtain ⟨next, hwalk, hend⟩ := date_walk collation dbLower limit (List.replicate n m) hpinned
    rw [← List.replicate_succ, List.map_replicate] at hwalk hend
    obtain ⟨hnone, hnodup, hmem, hbefore⟩ := followPages_threads
      (nodup_dateTable collation m) nodup_threadKey_datedThreads
      (fun a ha b hb => advertised_of_dateKey ha hb) (pageSize_pos limit)
      (lt_of_le_of_lt (length_le_of_threadKeys nodup_threadKey_datedThreads
        fun row h => dateTable_eligible h) hn) rfl
    rw [hend.2 hnone] at hwalk
    refine ⟨_, hwalk, hnodup, ?_, hbefore⟩
    intro key
    rw [matches_iff, List.mem_map]
    constructor
    · rintro ⟨row, hrow, rfl⟩
      exact dateTable_eligible ((hmem row).1 hrow)
    · intro hkey
      obtain ⟨row, hrow, rfl⟩ := exists_dateRow hkey
      exact ⟨row, (hmem row).2 hrow, rfl⟩

/-- **A listing of states that change**, in Gmail order. -/
theorem listing_gmail {generationId : String}
    (hpinned : pinnedGeneration label sinceIso searchQuery m = some generationId)
    {states : List Mailbox}
    (hstates : ∀ m' ∈ m :: states, m'.Retained (normalizedMailboxLabel label) generationId ∧
      SameRanks (normalizedMailboxLabel label) generationId m m') :
    ∃ threads next, followMailbox collation dbLower label limit sinceIso searchQuery
        (m :: states) = .ok (threads, next) ∧ (threads.map PageThread.threadKey).Nodup ∧
      ∀ key, (∀ m' ∈ m :: states, Matches dbLower (normalizedMailboxLabel label)
          (listingFilter sinceIso searchQuery) m' key) →
        next = none → (threads.map PageThread.threadKey).count key = 1 := by
  obtain ⟨next, hwalk, hend⟩ := gmail_walk collation dbLower limit hpinned
    fun m' hm' => (hstates m' (List.mem_cons_of_mem _ hm')).1
  have hkeys : ∀ rows ∈ (m :: states).map
      (rankTable dbLower label sinceIso searchQuery generationId),
      (rows.map (PageThread.rankKey collation)).Nodup := by
    intro rows hrows
    obtain ⟨m', -, rfl⟩ := List.mem_map.1 hrows
    exact nodup_rankTable collation generationId m'
  have hkey : ∀ key, ∀ rows ∈ (m :: states).map
      (rankTable dbLower label sinceIso searchQuery generationId), ∀ row ∈ rows,
      row.threadKey = key → row.rankKey collation = rankKey collation
        (((m.position (normalizedMailboxLabel label) generationId key).getD 0 : Nat) : Int)
        key := by
    intro key rows hrows row hrow heq
    obtain ⟨m', hm', rfl⟩ := List.mem_map.1 hrows
    rw [rankKey_of_sameRanks (hstates m' hm').2 hrow, heq]
  refine ⟨_, next, hwalk, ?_, ?_⟩
  · rw [List.nodup_iff_count_le_one]
    intro key
    exact Keyset.count_followPages_le (pageSize_pos limit) hkeys (hkey key) none
  · intro key hmatches hnone
    refine Keyset.count_followPages_eq (pageSize_pos limit) hkeys (List.cons_ne_nil _ _)
      (hkey key) (fun a b => threadKey_of_rankKey) ?_ (hend.1 hnone)
    intro rows hrows
    obtain ⟨m', hm', rfl⟩ := List.mem_map.1 hrows
    obtain ⟨position, hposition⟩ :=
      pinned_ranks hpinned (matches_iff.1 (hmatches m List.mem_cons_self))
    rw [← (hstates m' hm').2.position] at hposition
    exact exists_rankRow (matches_iff.1 (hmatches m' hm')) hposition

theorem listing_date (hpinned : pinnedGeneration label sinceIso searchQuery m = none)
    (states : List Mailbox) :
    ∃ threads next, followMailbox collation dbLower label limit sinceIso searchQuery
        (m :: states) = .ok (threads, next) ∧
      ∀ key, (∀ m' ∈ m :: states, Matches dbLower (normalizedMailboxLabel label)
            (listingFilter sinceIso searchQuery) m' key ∧
          latestMatchingAt m'.messages key = latestMatchingAt m.messages key) →
        (threads.map PageThread.threadKey).count key ≤ 1 ∧
          (next = none → (threads.map PageThread.threadKey).count key = 1) := by
  obtain ⟨next, hwalk, hend⟩ := date_walk collation dbLower limit states hpinned
  have hkeys : ∀ rows ∈ (m :: states).map (dateTable dbLower label sinceIso searchQuery),
      (rows.map (PageThread.dateKey collation)).Nodup := by
    intro rows hrows
    obtain ⟨m', -, rfl⟩ := List.mem_map.1 hrows
    exact nodup_dateTable collation m'
  refine ⟨_, next, hwalk, ?_⟩
  intro key hstays
  obtain ⟨first, hfirst, hfirstKey⟩ :=
    exists_dateRow (matches_iff.1 (hstays m List.mem_cons_self).1)
  -- every row of the thread has the date of its row at the first read
  have hkey : ∀ rows ∈ (m :: states).map (dateTable dbLower label sinceIso searchQuery),
      ∀ row ∈ rows, row.threadKey = key → row.dateKey collation = first.dateKey collation := by
    intro rows hrows row hrow heq
    obtain ⟨m', hm', rfl⟩ := List.mem_map.1 hrows
    have hlatest := latest_of_mem hrow
    rw [heq, (hstays m' hm').2, ← hfirstKey, latest_of_mem hfirst] at hlatest
    rw [PageThread.dateKey, PageThread.dateKey, heq, hfirstKey, Option.some.inj hlatest]
  refine ⟨Keyset.count_followPages_le (pageSize_pos limit) hkeys hkey none, ?_⟩
  intro hnone
  refine Keyset.count_followPages_eq (pageSize_pos limit) hkeys (List.cons_ne_nil _ _) hkey
    (fun a b => threadKey_of_dateKey) ?_ (hend.1 hnone)
  intro rows hrows
  obtain ⟨m', hm', rfl⟩ := List.mem_map.1 hrows
  exact exists_dateRow (matches_iff.1 (hstays m' hm').1)

theorem readings_cons (m : Mailbox) (groups : List (List Change)) :
    ∃ states, readings m groups = m :: states := by
  cases groups with
  | nil => exact ⟨[], rfl⟩
  | cons => exact ⟨_, rfl⟩

/-- **Pagination is exact.** Over a state that stays as it is, following the cursors
returns every matching thread once, in the advertised order. Where messages and labels
change between the reads and the label is published at most once, no thread is
returned twice in Gmail order, and a thread that matches at every read with the same
sort key is returned at most once, and exactly once when the walk ends. -/
theorem pagination_exact (m : Mailbox) :
    (∀ n, (eligibleThreads (listingEligible dbLower label sinceIso searchQuery)
        m.messages).length < n →
      ∃ threads, followMailbox collation dbLower label limit sinceIso searchQuery
          (List.replicate n m) = .ok (threads, none) ∧
        (threads.map PageThread.threadKey).Nodup ∧
        (∀ key, key ∈ threads.map PageThread.threadKey ↔
          Matches dbLower (normalizedMailboxLabel label) (listingFilter sinceIso searchQuery) m
            key) ∧
        (threads.map PageThread.threadKey).Pairwise
          (AdvertisedBefore collation (normalizedMailboxLabel label)
            (pinnedGeneration label sinceIso searchQuery m) m)) ∧
    ∀ groups : List (List Change),
      Along Change.apply Change.Fresh m groups.flatten →
      groups.flatten.countP (Change.publishes (normalizedMailboxLabel label)) ≤ 1 →
      ∃ threads next, followMailbox collation dbLower label limit sinceIso searchQuery
          (readings m groups) = .ok (threads, next) ∧
        ((pinnedGeneration label sinceIso searchQuery m).isSome = true →
          (threads.map PageThread.threadKey).Nodup) ∧
        ∀ key, (∀ m' ∈ readings m groups,
            Matches dbLower (normalizedMailboxLabel label) (listingFilter sinceIso searchQuery)
              m' key ∧
            SameSortKey (normalizedMailboxLabel label)
              (pinnedGeneration label sinceIso searchQuery m) m m' key) →
          (threads.map PageThread.threadKey).count key ≤ 1 ∧
            (next = none → (threads.map PageThread.threadKey).count key = 1) := by
  constructor
  · intro n hn
    exact listing_static collation dbLower label limit sinceIso searchQuery m hn
  intro groups hfresh hcount
  obtain ⟨states, hstates⟩ := readings_cons m groups
  cases hpinned : pinnedGeneration label sinceIso searchQuery m with
  | some generationId =>
    have hactive := (pinned_spec hpinned).2.2.1
    obtain ⟨threads, next, hwalk, hnodup, hstays⟩ := listing_gmail collation dbLower label
      limit sinceIso searchQuery hpinned
      fun m' (hm' : m' ∈ m :: states) => readings_retained hfresh hcount hactive (hstates ▸ hm')
    rw [hstates]
    refine ⟨threads, next, hwalk, fun _ => hnodup, ?_⟩
    intro key hkey
    exact ⟨List.nodup_iff_count_le_one.1 hnodup key, hstays key fun m' hm' => (hkey m' hm').1⟩
  | none =>
    obtain ⟨threads, next, hwalk, hstays⟩ := listing_date collation dbLower label limit
      sinceIso searchQuery hpinned states
    rw [hstates]
    exact ⟨threads, next, hwalk, fun h => absurd h Bool.false_ne_true, hstays⟩

end Exact

/-! ## A listing while an order is published -/

def sampleDay (day : Nat) (h : day < 32) : Timestamp :=
  ⟨2026, 5, day, 12, 0, 0, 0, by decide, by decide, h, by decide, by decide, by decide, by decide⟩

def sampleMessage (id : String) (hid : id ≠ "") (day : Nat) (hday : day < 32) : Message :=
  ⟨id, none, ["INBOX"], some (sampleDay day hday), sampleDay day hday, none, none, none, none,
    none, hid⟩

def sampleMailbox : Mailbox where
  messages :=
    [sampleMessage "a" (by decide) 1 (by decide), sampleMessage "b" (by decide) 2 (by decide),
      sampleMessage "c" (by decide) 3 (by decide)]
  orderState := fun label =>
    if label = "inbox" then some ⟨"g0", none, by decide, by decide⟩ else none
  entries := newEntries "inbox" "g0" ["c", "b", "a"]
  entries_key := by decide

def codePoints : Collation String := ⟨id, fun _ _ h => h⟩

/-- An order that puts the thread read last first is published between two reads. -/
def sampleChanges : List (List Change) :=
  [[.replaceOrders ⟨fun _ => "g1", fun _ => by decide⟩ [("inbox", ["a", "b", "c"])]], []]

theorem sampleChanges_fresh : Along Change.apply Change.Fresh sampleMailbox sampleChanges.flatten := by
  refine ⟨?_, trivial⟩
  rintro label generationId ⟨state, hstate, hid⟩ _ rfl
  simp only [sampleMailbox, Option.mem_def] at hstate
  split at hstate
  · obtain rfl := Option.some.inj hstate
    rcases hid with hid | hid
    · exact absurd hid (by decide : ¬ "g1" = "g0")
    · cases hid
  · cases hstate

theorem pagination_exact_published :
    ∃ threads next, followMailbox codePoints id "inbox" 1 none none
        (readings sampleMailbox sampleChanges) = .ok (threads, next) ∧
      ((pinnedGeneration "inbox" none none sampleMailbox).isSome = true →
        (threads.map PageThread.threadKey).Nodup) := by
  obtain ⟨threads, next, hwalk, hnodup, -⟩ :=
    (pagination_exact codePoints id "inbox" 1 none none sampleMailbox).2 sampleChanges
      sampleChanges_fresh (by decide)
  exact ⟨threads, next, hwalk, hnodup⟩

end ElectronicMail.Listing
