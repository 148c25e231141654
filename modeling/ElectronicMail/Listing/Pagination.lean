import ElectronicMail.Listing.Page

/-!
# Pagination is exact

The first page pins the order of a listing: a generation, or the date. Following the
cursors from there is a keyset walk over the threads of the states in which the pages
are read (`gmail_walk`, `date_walk`), so that what the walk rules say of keys holds of
threads.
-/

namespace ElectronicMail.Listing

open Foundations

universe u

/-! ## Threads of a page -/

def Matches (dbLower : String → String) (mailboxLabel : String) (filter : ListingFilter)
    (m : Mailbox) (key : String) : Prop :=
  ∃ message ∈ m.messages,
    eligibleMessage dbLower mailboxLabel filter message = true ∧ message.threadKey = key

variable {messages : List Message}

theorem latestMatchingAt_isSome {message : Message}
    (h : message ∈ messages) : ∃ latest, latestMatchingAt messages message.threadKey = some latest := by
  rw [← Option.isSome_iff_exists, latestMatchingAt, List.isSome_max?_iff]
  intro hnil
  have hmem : message ∈ messages.filter fun other => other.threadKey = message.threadKey :=
    List.mem_filter.2 ⟨h, decide_eq_true rfl⟩
  rw [List.map_eq_nil_iff.1 hnil] at hmem
  cases hmem

variable {generationId : String} {thread : PageThread} {rows : List PageThread}

section Tables

variable {eligible : Message → Bool} {m : Mailbox}

theorem mem_matchingThreads {thread : MatchingThread} :
    thread ∈ matchingThreads eligible messages ↔
      thread.threadKey ∈ eligibleThreads eligible messages ∧
        latestMatchingAt messages thread.threadKey = some thread.latestMatchingAt := by
  obtain ⟨key, latest⟩ := thread
  simp only [matchingThreads, List.mem_filterMap, Option.map_eq_some_iff, MatchingThread.mk.injEq]
  constructor
  · rintro ⟨_, hkey, _, hlatest, rfl, rfl⟩
    exact ⟨hkey, hlatest⟩
  · rintro ⟨hkey, hlatest⟩
    exact ⟨key, hkey, latest, hlatest, rfl, rfl⟩

variable (eligible) in
theorem map_threadKey_matchingThreads_sublist (messages : List Message) :
    ((matchingThreads eligible messages).map MatchingThread.threadKey).Sublist
      (eligibleThreads eligible messages) := by
  unfold matchingThreads
  induction eligibleThreads eligible messages with
  | nil => exact List.Sublist.refl []
  | cons key keys ih =>
    cases hlatest : latestMatchingAt messages key with
    | none =>
      rw [List.filterMap_cons_none (by rw [hlatest]; rfl)]
      exact ih.cons key
    | some =>
      rw [List.filterMap_cons_some (by rw [hlatest]; rfl), List.map_cons]
      exact ih.cons_cons key

theorem exists_matchingThread {key : String} (h : key ∈ eligibleThreads eligible m.messages) :
    ∃ latest, (⟨key, latest⟩ : MatchingThread) ∈ matchingThreads eligible m.messages := by
  obtain ⟨message, hmessage, -, rfl⟩ := mem_eligibleThreads.1 h
  obtain ⟨latest, hlatest⟩ := latestMatchingAt_isSome hmessage
  exact ⟨latest, mem_matchingThreads.2 ⟨h, hlatest⟩⟩

theorem mem_rankedThreads {mailboxLabel : String} :
    thread ∈ rankedThreads m eligible mailboxLabel generationId ↔
      (⟨thread.threadKey, thread.latestMatchingAt⟩ : MatchingThread) ∈
          matchingThreads eligible m.messages ∧
        ∃ position, thread.mailboxOrderPosition = some position ∧
          m.position mailboxLabel generationId thread.threadKey = some position := by
  obtain ⟨key, latest, rank⟩ := thread
  simp only [rankedThreads, List.mem_flatMap, List.mem_map, List.mem_filter, decide_eq_true_eq,
    PageThread.mk.injEq, position_eq_some_iff]
  constructor
  · rintro ⟨thread, hthread, ⟨l, g, t, p⟩, ⟨hentry, hkey⟩, rfl, rfl, rfl⟩
    simp only [OrderEntry.key, Prod.mk.injEq] at hkey
    obtain ⟨rfl, rfl, rfl⟩ := hkey
    exact ⟨hthread, p, rfl, hentry⟩
  · rintro ⟨hthread, position, rfl, hentry⟩
    exact ⟨_, hthread, _, ⟨hentry, rfl⟩, rfl, rfl, rfl⟩

theorem mem_datedThreads :
    thread ∈ datedThreads m eligible ↔
      (⟨thread.threadKey, thread.latestMatchingAt⟩ : MatchingThread) ∈
          matchingThreads eligible m.messages ∧ thread.mailboxOrderPosition = none := by
  obtain ⟨key, latest, rank⟩ := thread
  simp only [datedThreads, List.mem_map, PageThread.mk.injEq]
  constructor
  · rintro ⟨thread, hthread, rfl, rfl, rfl⟩
    exact ⟨hthread, rfl⟩
  · rintro ⟨hthread, rfl⟩
    exact ⟨_, hthread, rfl, rfl, rfl⟩

theorem nodup_threadKey_datedThreads :
    ((datedThreads m eligible).map PageThread.threadKey).Nodup := by
  have hsub := map_threadKey_matchingThreads_sublist eligible m.messages
  rw [datedThreads, List.map_map]
  exact (nodup_eligibleThreads eligible m.messages).sublist hsub

theorem nodup_threadKey_rankedThreads (mailboxLabel generationId : String) :
    ((rankedThreads m eligible mailboxLabel generationId).map PageThread.threadKey).Nodup := by
  have hsub := map_threadKey_matchingThreads_sublist eligible m.messages
  have hthreads := (nodup_eligibleThreads eligible m.messages).sublist hsub
  rw [List.Nodup, List.pairwise_map] at hthreads ⊢
  rw [rankedThreads, List.pairwise_flatMap]
  constructor
  · intro thread _
    rw [List.pairwise_map]
    have hentries : m.entries.Pairwise fun a b => a.key ≠ b.key :=
      List.pairwise_map.1 m.entries_key
    refine List.Pairwise.imp_of_mem ?_ (hentries.filter _)
    intro a b ha hb hne
    have hkey := of_decide_eq_true (List.mem_filter.1 ha).2
    have hkey' := of_decide_eq_true (List.mem_filter.1 hb).2
    exact absurd (hkey.trans hkey'.symm) hne
  · refine hthreads.imp ?_
    intro a b hne row hrow row' hrow'
    obtain ⟨_, -, rfl⟩ := List.mem_map.1 hrow
    obtain ⟨_, -, rfl⟩ := List.mem_map.1 hrow'
    exact hne

theorem length_le_of_threadKeys (hnodup : (rows.map PageThread.threadKey).Nodup)
    (hkeys : ∀ row ∈ rows, row.threadKey ∈ eligibleThreads eligible m.messages) :
    rows.length ≤ (eligibleThreads eligible m.messages).length := by
  rw [← List.length_map PageThread.threadKey]
  apply (List.subperm_of_subset hnodup ?_).length_le
  intro key hkey
  obtain ⟨row, hrow, rfl⟩ := List.mem_map.1 hkey
  exact hkeys row hrow

end Tables

/-! ## One page -/

section Walk

variable {κ : Type u} [LinearOrder κ] (collation : Collation κ) (dbLower : String → String)
  (label : String) (limit : Int) (sinceIso : Option Timestamp) (searchQuery : Option String)

def listingEligible : Message → Bool :=
  eligibleMessage dbLower (normalizedMailboxLabel label) (listingFilter sinceIso searchQuery)

def pinnedGeneration (m : Mailbox) : Option String :=
  match pageOrder m (normalizedMailboxLabel label) none (listingFilter sinceIso searchQuery) with
  | .ok (.gmail generationId _) => some generationId
  | _ => none

def readThreads (m : Mailbox) (cursor : Option Json) :
    Except MailboxCursorError (List PageThread × Option Json) :=
  (listMailboxThreadPage collation dbLower m label limit cursor sinceIso searchQuery).map
    fun page => (page.threads, page.nextCursor)

def rankTable (generationId : String) (m : Mailbox) : List PageThread :=
  rankedThreads m (listingEligible dbLower label sinceIso searchQuery)
    (normalizedMailboxLabel label) generationId

def dateTable (m : Mailbox) : List PageThread :=
  datedThreads m (listingEligible dbLower label sinceIso searchQuery)

variable {collation dbLower label limit sinceIso searchQuery}

variable {m : Mailbox}

theorem Mailbox.Retained.ne_empty {mailboxLabel : String}
    (h : m.Retained mailboxLabel generationId) : generationId ≠ "" := by
  obtain ⟨state, -, hid | hid⟩ := h
  · rw [hid]
    exact state.active_ne
  · rintro rfl
    exact state.previous_ne hid.symm

variable (limit) in
theorem pageSize_pos : 0 < pageSize limit := by
  unfold pageSize
  omega

theorem pinned_spec (h : pinnedGeneration label sinceIso searchQuery m = some generationId) :
    (listingFilter sinceIso searchQuery).query = "" ∧ sinceIso = none ∧
      m.Active (normalizedMailboxLabel label) generationId ∧
      missingRank m (normalizedMailboxLabel label) generationId = false ∧
      pageOrder m (normalizedMailboxLabel label) none (listingFilter sinceIso searchQuery) =
        .ok (.gmail generationId none) := by
  unfold pinnedGeneration at h
  by_cases hquiet : (listingFilter sinceIso searchQuery).query = "" ∧
      (listingFilter sinceIso searchQuery).sinceIso.isNone = true
  · obtain ⟨generation, hgeneration⟩ := resolve_first_ok m (normalizedMailboxLabel label)
    have horder : pageOrder m (normalizedMailboxLabel label) none
        (listingFilter sinceIso searchQuery) =
        match generation with
        | some generationId => .ok (.gmail generationId none)
        | none => .ok (.date none) := by
      simp only [pageOrder, if_pos hquiet, hgeneration]
      cases generation with
      | none | some id => rfl
    cases generation with
    | none =>
      rw [horder] at h
      cases h
    | some id =>
      rw [horder] at h
      obtain rfl := Option.some.inj h
      have hfirst := resolve_first hgeneration
      rw [normalizedMailboxLabel_idem] at hfirst
      exact ⟨hquiet.1, Option.isNone_iff_eq_none.1 hquiet.2, hfirst.1, hfirst.2, horder⟩
  · have horder : pageOrder m (normalizedMailboxLabel label) none
        (listingFilter sinceIso searchQuery) = .ok (.date none) := by
      simp only [pageOrder, if_neg hquiet]
      rfl
    rw [horder] at h
    cases h

theorem unpinned_spec (h : pinnedGeneration label sinceIso searchQuery m = none) :
    pageOrder m (normalizedMailboxLabel label) none (listingFilter sinceIso searchQuery) =
      .ok (.date none) := by
  unfold pinnedGeneration at h
  by_cases hquiet : (listingFilter sinceIso searchQuery).query = "" ∧
      (listingFilter sinceIso searchQuery).sinceIso.isNone = true
  · obtain ⟨generation, hgeneration⟩ := resolve_first_ok m (normalizedMailboxLabel label)
    simp only [pageOrder, if_pos hquiet, hgeneration] at h ⊢
    cases generation with
    | none => rfl
    | some id => cases h
  · simp only [pageOrder, if_neg hquiet]
    rfl

theorem readThreads_pinned (h : pinnedGeneration label sinceIso searchQuery m = some generationId) :
    readThreads collation dbLower label limit sinceIso searchQuery m none =
      .ok (Keyset.readEncoded (PageThread.rankKey collation)
        (rankCursor (normalizedMailboxLabel label) generationId) (pageSize limit) none
        (rankTable dbLower label sinceIso searchQuery generationId m)) := by
  obtain ⟨-, -, -, -, horder⟩ := pinned_spec h
  simp only [readThreads, listMailboxThreadPage, horder]
  rfl

theorem readThreads_rankCursor (hquery : (listingFilter sinceIso searchQuery).query = "")
    (hsince : sinceIso = none) (hretained : m.Retained (normalizedMailboxLabel label) generationId)
    (hkey : thread.threadKey ≠ "") :
    readThreads collation dbLower label limit sinceIso searchQuery m
        (some (rankCursor (normalizedMailboxLabel label) generationId thread)) =
      .ok (Keyset.readEncoded (PageThread.rankKey collation)
        (rankCursor (normalizedMailboxLabel label) generationId) (pageSize limit)
        (some (thread.rankKey collation))
        (rankTable dbLower label sinceIso searchQuery generationId m)) := by
  have hdecoded := decode_encodeGmailOrderCursor (normalizedMailboxLabel label)
    hretained.ne_empty hkey (Int.natCast_nonneg (thread.mailboxOrderPosition.getD 0))
  rw [normalizedMailboxLabel_idem] at hdecoded
  have hresolved : resolveGmailThreadOrderGeneration m (normalizedMailboxLabel label)
      (some generationId) = .ok (some generationId) := by
    apply resolve_of_retained
    rwa [normalizedMailboxLabel_idem]
  have hfilter : ¬ ((listingFilter sinceIso searchQuery).query ≠ "" ∨
      (listingFilter sinceIso searchQuery).sinceIso.isSome = true ∨
        normalizedMailboxLabel label ≠ normalizedMailboxLabel label) := by
    rintro (h | h | h)
    · exact h hquery
    · rw [hsince] at h
      cases h
    · exact h rfl
  have horder : pageOrder m (normalizedMailboxLabel label)
      (some (rankCursor (normalizedMailboxLabel label) generationId thread))
      (listingFilter sinceIso searchQuery) =
      .ok (.gmail generationId
        (some (((thread.mailboxOrderPosition.getD 0 : Nat) : Int), thread.threadKey))) := by
    simp only [pageOrder, rankCursor, hdecoded]
    show (if _ then _ else _) = _
    rw [if_neg hfilter, hresolved]
    rfl
  simp only [readThreads, listMailboxThreadPage, horder]
  rfl

theorem readThreads_unpinned (h : pinnedGeneration label sinceIso searchQuery m = none) :
    readThreads collation dbLower label limit sinceIso searchQuery m none =
      .ok (Keyset.readEncoded (PageThread.dateKey collation) dateCursor (pageSize limit) none
        (dateTable dbLower label sinceIso searchQuery m)) := by
  simp only [readThreads, listMailboxThreadPage, unpinned_spec h]
  rfl

theorem readThreads_dateCursor (hkey : thread.threadKey ≠ "") :
    readThreads collation dbLower label limit sinceIso searchQuery m (some (dateCursor thread)) =
      .ok (Keyset.readEncoded (PageThread.dateKey collation) dateCursor (pageSize limit)
        (some (thread.dateKey collation)) (dateTable dbLower label sinceIso searchQuery m)) := by
  have horder : pageOrder m (normalizedMailboxLabel label) (some (dateCursor thread))
      (listingFilter sinceIso searchQuery) =
      .ok (.date (some (thread.latestMatchingAt, thread.threadKey))) := by
    simp only [pageOrder, dateCursor, decode_encodeMailboxCursor _ hkey]
    rfl
  simp only [readThreads, listMailboxThreadPage, horder]
  rfl

/-! ## Walks -/

variable (collation dbLower label limit sinceIso searchQuery) in
/-- Following `next_cursor` from the first page, over the states of the reads. -/
def followMailbox (states : List Mailbox) :
    Except MailboxCursorError (List PageThread × Option Json) :=
  Keyset.followCursor (readThreads collation dbLower label limit sinceIso searchQuery) none states

theorem threadKey_of_rankKey {a b : PageThread} (h : a.rankKey collation = b.rankKey collation) :
    a.threadKey = b.threadKey :=
  collation.injective (congrArg (fun key => (ofLex key).2) h)

theorem threadKey_of_dateKey {a b : PageThread} (h : a.dateKey collation = b.dateKey collation) :
    a.threadKey = b.threadKey :=
  collation.injective (congrArg (fun key => (ofLex (OrderDual.ofDual key)).2) h)

theorem nodup_rankKey (h : (rows.map PageThread.threadKey).Nodup) :
    (rows.map (PageThread.rankKey collation)).Nodup := by
  rw [List.Nodup, List.pairwise_map] at h ⊢
  exact h.imp fun hne heq => hne (threadKey_of_rankKey heq)

theorem nodup_dateKey (h : (rows.map PageThread.threadKey).Nodup) :
    (rows.map (PageThread.dateKey collation)).Nodup := by
  rw [List.Nodup, List.pairwise_map] at h ⊢
  exact h.imp fun hne heq => hne (threadKey_of_dateKey heq)

theorem eligible_ne_empty {eligible : Message → Bool} {key : String}
    (h : key ∈ eligibleThreads eligible messages) : key ≠ "" := by
  obtain ⟨message, -, -, rfl⟩ := mem_eligibleThreads.1 h
  exact message.threadKey_ne

theorem rankTable_eligible {row : PageThread}
    (h : row ∈ rankTable dbLower label sinceIso searchQuery generationId m) :
    row.threadKey ∈ eligibleThreads (listingEligible dbLower label sinceIso searchQuery)
      m.messages := (mem_matchingThreads.1 (mem_rankedThreads.1 h).1).1

theorem dateTable_eligible {row : PageThread}
    (h : row ∈ dateTable dbLower label sinceIso searchQuery m) :
    row.threadKey ∈ eligibleThreads (listingEligible dbLower label sinceIso searchQuery)
      m.messages := (mem_matchingThreads.1 (mem_datedThreads.1 h).1).1

variable (collation) in
theorem nodup_rankTable (generationId : String) (m : Mailbox) :
    ((rankTable dbLower label sinceIso searchQuery generationId m).map
      (PageThread.rankKey collation)).Nodup :=
  nodup_rankKey (nodup_threadKey_rankedThreads _ _)

variable (collation) in
theorem nodup_dateTable (m : Mailbox) :
    ((dateTable dbLower label sinceIso searchQuery m).map (PageThread.dateKey collation)).Nodup :=
  nodup_dateKey nodup_threadKey_datedThreads

variable (collation dbLower limit) in
/-- A listing in Gmail order is the keyset walk over the ranks of its generation, as
long as every state retains it. -/
theorem gmail_walk {states : List Mailbox}
    (hpinned : pinnedGeneration label sinceIso searchQuery m = some generationId)
    (hretained : ∀ m' ∈ states, m'.Retained (normalizedMailboxLabel label) generationId) :
    ∃ next, followMailbox collation dbLower label limit sinceIso searchQuery (m :: states) =
        .ok ((Keyset.followPages (PageThread.rankKey collation) (pageSize limit) none
          ((m :: states).map (rankTable dbLower label sinceIso searchQuery generationId))).1,
          next) ∧
      (next = none ↔ (Keyset.followPages (PageThread.rankKey collation) (pageSize limit) none
        ((m :: states).map (rankTable dbLower label sinceIso searchQuery generationId))).2 =
          none) := by
  obtain ⟨hquery, hsince, -⟩ := pinned_spec hpinned
  have hvalid : ∀ m' : Mailbox, ∀ row ∈ rankTable dbLower label sinceIso searchQuery generationId m',
      row.threadKey ≠ "" := fun m' row h => eligible_ne_empty (rankTable_eligible h)
  refine Keyset.followCursor_step (readThreads_pinned hpinned) ?_
  intro row hrow
  have hshown : row ∈ rankTable dbLower label sinceIso searchQuery generationId m :=
    (((Keyset.readPage_isPage (pageSize_pos limit) (nodup_rankTable collation generationId m)
      none).mem_iff row).1 hrow).1
  exact Keyset.followCursor_eq (pageSize_pos limit)
    (fun m' _ => nodup_rankTable collation generationId m') (fun m' _ => hvalid m')
    (fun m' hm' row hkey => readThreads_rankCursor hquery hsince (hretained m' hm') hkey)
    (hvalid m row hshown)

variable (collation dbLower limit) in
theorem date_walk (states : List Mailbox)
    (hpinned : pinnedGeneration label sinceIso searchQuery m = none) :
    ∃ next, followMailbox collation dbLower label limit sinceIso searchQuery (m :: states) =
        .ok ((Keyset.followPages (PageThread.dateKey collation) (pageSize limit) none
          ((m :: states).map (dateTable dbLower label sinceIso searchQuery))).1, next) ∧
      (next = none ↔ (Keyset.followPages (PageThread.dateKey collation) (pageSize limit) none
        ((m :: states).map (dateTable dbLower label sinceIso searchQuery))).2 = none) := by
  have hvalid : ∀ m' : Mailbox, ∀ row ∈ dateTable dbLower label sinceIso searchQuery m',
      row.threadKey ≠ "" := fun m' row h => eligible_ne_empty (dateTable_eligible h)
  refine Keyset.followCursor_step (readThreads_unpinned hpinned) ?_
  intro row hrow
  have hshown : row ∈ dateTable dbLower label sinceIso searchQuery m :=
    (((Keyset.readPage_isPage (pageSize_pos limit) (nodup_dateTable collation m) none).mem_iff
      row).1 hrow).1
  exact Keyset.followCursor_eq (pageSize_pos limit)
    (fun m' _ => nodup_dateTable collation m') (fun m' _ => hvalid m')
    (fun m' _ row hkey => readThreads_dateCursor hkey)
    (hvalid m row hshown)

end Walk

end ElectronicMail.Listing
