import ElectronicMail.Sync.Coverage

/-!
# The effect of each transaction

For every event at Gmail and every transaction: it evolves the world, and the tables
keep what they promise. The sweep of `finalize_gmail_reconciliation` is not here, as
it evolves the world only because it spares what exists.
-/

namespace ElectronicMail.Sync

section Effects

variable {listing : Listing} {w w' : World}

/-! ## Events and transactions -/

section

variable (hs : SharedOk listing w)
include hs

theorem evolves_gmail {e : Event} (he : accepts w.mailbox e = true) :
    Evolves w { w with mailbox := e :: w.mailbox } where
  grows := grows_cons hs.wellFormed he
  rows _ row _ h := ⟨row, h, Row.Le.refl row⟩
  young _ _ h := Or.inl h
  now := Nat.le_refl _
  scan s hs := Or.inl ⟨s, hs, Scan.Same.refl s, fun _ h => h⟩
  published := Nat.le_refl _
  purged _ h := h

theorem shared_gmail {e : Event} (he : accepts w.mailbox e = true) :
    SharedOk listing { w with mailbox := e :: w.mailbox } := by
  have hev := evolves_gmail hs he
  refine hs.evolves hev ?_ ?_ (fun _ hc => Or.inl hc) (fun _ hs' => Or.inl hs')
  · exact hs.rows.of_subset hev.grows (Nat.le_refl _) (fun _ _ h => h)
  · exact Nat.le_trans hs.reached hev.grows.current

variable {records : List Record}

theorem evolves_upserts {db : Database} (h : Upserts w.db.begin db records) :
    Evolves w { w with db := db } where
  grows := Grows.refl hs.wellFormed
  rows m row _ hrow := h.rows m row hrow
  young m row' hrow' := by
    rcases h.touched m row' hrow' with hrow | ⟨hnow, -⟩
    · exact Or.inl hrow
    · exact Or.inr (by rw [hnow]; exact Nat.lt_succ_self w.db.now)
  now := by
    show w.db.now ≤ db.now
    rw [h.now]
    exact Nat.le_succ w.db.now
  scan s hs' := by
    have hseen : db.seen = w.db.seen := h.seen
    have hstate : db.state = w.db.state := h.state
    exact Or.inl ⟨s, hstate ▸ hs', Scan.Same.refl s, fun m hm => hseen ▸ hm⟩
  published := Nat.le_refl _
  purged _ h := h

theorem rows_upserts {db : Database} (h : Upserts w.db.begin db records)
    (hrecords : RecordsOk w.mailbox records) : RowsOk { w with db := db } where
  known m row' hrow' := by
    rcases h.touched m row' hrow' with hrow | ⟨-, r, hr, rfl⟩
    · exact hs.rows.known m row' hrow
    · exact (hrecords r hr).1
  genuine m row' x hrow' hx := by
    rcases h.origin m row' x hrow' hx with ⟨r, hr, rfl, hid, hlabels⟩ | ⟨row, hrow, hid, hlabels⟩
    · exact hlabels ▸ (hrecords r hr).2 x hid
    · exact hlabels ▸ hs.rows.genuine m row x hrow hid
  age m row' hrow' := by
    have hnow : db.now = w.db.now + 1 := h.now
    show row'.updatedAt ≤ db.now
    rcases h.touched m row' hrow' with hrow | ⟨hage, -⟩
    · have := hs.rows.age m row' hrow
      omega
    · rw [begin_now] at hage
      omega

theorem shared_upserts {db : Database} (h : Upserts w.db.begin db records)
    (hrecords : RecordsOk w.mailbox records) : SharedOk listing { w with db := db } := by
  have hstate : db.state = w.db.state := h.state
  refine hs.evolves (evolves_upserts hs h) (rows_upserts hs h hrecords) hs.reached ?_ ?_
  · intro c hc
    exact Or.inl (hstate ▸ hc)
  · intro s hs'
    exact Or.inl (hstate ▸ hs')

end

variable {db : Database} {records : List Record}

theorem storedUpTo_of_brought (h : Upserts w.db.begin db records) {r : Record} (hr : r ∈ records)
    {x : Nat} (hupTo : RecordUpTo w.mailbox r x) :
    StoredUpTo { w with db := db } r.messageId x := by
  obtain ⟨h₀, hid, hall⟩ := hupTo
  obtain ⟨row', hrow', h', hid', hle⟩ := h.brought r hr h₀ hid
  refine ⟨row', hrow', h', hid', ?_⟩
  intro e he hm hx
  exact Nat.le_trans (hall e he hm hx) hle

section

variable (hs : SharedOk listing w)
include hs

theorem evolves_delete {deleted : List MessageId}
    (hdeleted : ∀ m ∈ deleted, ¬ Alive w.mailbox m) :
    Evolves w { w with
      db := deleteGmailMessages w.db deleted
      purged := deleted ++ w.purged } where
  grows := Grows.refl hs.wellFormed
  rows m row halive hrow := by
    have hnot : m ∉ deleted := fun hm => hdeleted m hm halive
    exact ⟨row, (if_neg hnot).trans hrow, Row.Le.refl row⟩
  young m row' hrow' := by
    by_cases hm : m ∈ deleted
    · cases (if_pos hm).symm.trans hrow'
    · exact Or.inl ((if_neg hm).symm.trans hrow')
  now := Nat.le_succ w.db.now
  scan s hs' := Or.inl ⟨s, hs', Scan.Same.refl s, fun _ h => h⟩
  published := Nat.le_refl _
  purged m hm := List.mem_append_right deleted hm

theorem shared_delete {deleted : List MessageId}
    (hdeleted : ∀ m ∈ deleted, ¬ Alive w.mailbox m) :
    SharedOk listing { w with
      db := deleteGmailMessages w.db deleted
      purged := deleted ++ w.purged } := by
  have hev := evolves_delete hs hdeleted
  refine hs.evolves hev ?_ hs.reached (fun _ hc => Or.inl hc) (fun _ hs' => Or.inl hs')
  refine hs.rows.of_subset hev.grows hev.now ?_
  intro m row hrow
  by_cases hm : m ∈ deleted
  · cases (if_pos hm).symm.trans hrow
  · exact (if_neg hm).symm.trans hrow

theorem evolves_state {db : Database} {published : Nat}
    (hmessages : db.messages = w.db.messages) (hnow : w.db.now ≤ db.now)
    (hpublished : w.published ≤ published)
    (hscan : ∀ s', db.state.reconcile = some s' →
      (∃ s, w.db.state.reconcile = some s ∧ s.Same s' ∧
        ∀ m, (s'.generation, m) ∈ w.db.seen → (s'.generation, m) ∈ db.seen) ∨
      w.db.now < s'.startedAt) :
    Evolves w { w with db := db, published := published } where
  grows := Grows.refl hs.wellFormed
  rows _ row _ h := ⟨row, hmessages ▸ h, Row.Le.refl row⟩
  young _ _ h := Or.inl (hmessages ▸ h)
  now := hnow
  scan := hscan
  published := hpublished
  purged _ h := h

theorem rows_state {db : Database} {published : Nat}
    (hmessages : db.messages = w.db.messages) (hnow : w.db.now ≤ db.now) :
    RowsOk { w with db := db, published := published } :=
  hs.rows.of_subset (Grows.refl hs.wellFormed) hnow (fun _ _ h => hmessages ▸ h)

theorem evolves_publish (latest : Nat) :
    Evolves w { w with
      db := markHistoryDeltaCompleted w.db latest
      published := max w.published latest } :=
  evolves_state hs rfl (Nat.le_succ _) (Nat.le_max_left _ _)
    (fun s hs' => Or.inl ⟨s, hs', Scan.Same.refl s, fun _ h => h⟩)

theorem shared_publish {latest : Nat}
    (hreached : latest ≤ currentHistoryId w.mailbox) (hfresh : Fresh w latest) :
    SharedOk listing { w with
      db := markHistoryDeltaCompleted w.db latest
      published := max w.published latest } := by
  have hev := evolves_publish hs latest
  refine hs.evolves hev (rows_state hs rfl (Nat.le_succ _)) (max_le hs.reached hreached) ?_
    (fun _ hs' => Or.inl hs')
  intro c hc
  cases hc
  rcases publishedHistoryId_cases w.db.state latest with hnew | hold
  · rw [hnew]
    exact Or.inr ⟨Nat.le_max_right _ _, hfresh.evolves hev hreached⟩
  · exact Or.inl hold

end

section

variable (db : Database) (generation : String) (baseline : Nat) (cursor : Cursor)

theorem start_cases :
    (db.state.reconcile = none ∧
      (startGmailReconciliation db generation baseline cursor).state.reconcile =
        some ⟨generation, some cursor, baseline, db.now + 1⟩ ∧
      (startGmailReconciliation db generation baseline cursor).state.authoritativeCursor = none) ∨
    ∃ scan, db.state.reconcile = some scan ∧
      (startGmailReconciliation db generation baseline cursor).state = db.state ∧
      (startGmailReconciliation db generation baseline cursor).seen =
        db.seen.filter fun entry => entry.1 = scan.generation := by
  unfold startGmailReconciliation
  cases hscan : db.state.reconcile with
  | none => exact Or.inl ⟨rfl, rfl, rfl⟩
  | some scan => exact Or.inr ⟨scan, rfl, rfl, rfl⟩

@[simp] theorem start_messages :
    (startGmailReconciliation db generation baseline cursor).messages = db.messages := by
  unfold startGmailReconciliation
  split
  · rfl
  · rfl

@[simp] theorem start_now :
    (startGmailReconciliation db generation baseline cursor).now = db.now + 1 := by
  unfold startGmailReconciliation
  split
  · rfl
  · rfl

theorem start_seen_subset :
    (startGmailReconciliation db generation baseline cursor).seen ⊆ db.seen := by
  unfold startGmailReconciliation
  split
  · exact List.filter_subset_self _
  · exact List.filter_subset_self _

end

theorem evolves_start (hs : SharedOk listing w) (generation : String) (baseline : Nat)
    (cursor : Cursor) :
    Evolves w { w with db := startGmailReconciliation w.db generation baseline cursor } := by
  refine evolves_state hs (start_messages _ _ _ _) (by simp) (Nat.le_refl _) ?_
  intro s' hs'
  rcases start_cases w.db generation baseline cursor with
    ⟨-, hnew, -⟩ | ⟨scan, hscan, hstate, hseen⟩
  · rw [hnew] at hs'
    cases hs'
    exact Or.inr (Nat.lt_succ_self w.db.now)
  · rw [hstate, hscan] at hs'
    cases hs'
    refine Or.inl ⟨s', hscan, Scan.Same.refl s', ?_⟩
    intro m hm
    rw [hseen]
    simpa using hm

variable {generation : String}

theorem shared_start (hs : SharedOk listing w) {baseline : Nat} (threadListing : Bool)
    (hbaseline : baseline ≤ currentHistoryId w.mailbox) : SharedOk listing { w with
      db := startGmailReconciliation w.db generation baseline (Cursor.initial threadListing) } := by
  refine hs.evolves (evolves_start hs generation baseline _)
    (rows_state hs (start_messages _ _ _ _) (by simp)) hs.reached ?_ ?_
  · intro c hc
    rcases start_cases w.db generation baseline (Cursor.initial threadListing) with
      ⟨-, -, hnone⟩ | ⟨scan, -, hstate, -⟩
    · cases hnone.symm.trans hc
    · exact Or.inl (hstate ▸ hc)
  · intro s' hs'
    rcases start_cases w.db generation baseline (Cursor.initial threadListing) with
      ⟨-, hnew, -⟩ | ⟨scan, -, hstate, -⟩
    · have hcovers : s' = ⟨generation, some (Cursor.initial threadListing), baseline,
          w.db.now + 1⟩ := Option.some.inj (hs'.symm.trans hnew)
      subst hcovers
      refine Or.inr ⟨by simp, hbaseline, ?_⟩
      intro m _ _
      exact Or.inl (listing.initial _ threadListing m)
    · exact Or.inl (hstate ▸ hs')

theorem startProgress_facts (db : Database) (generation : String) :
    (startGmailSyncProgress db generation).messages = db.messages ∧
      (startGmailSyncProgress db generation).state.reconcile = db.state.reconcile ∧
      (startGmailSyncProgress db generation).state.authoritativeCursor =
        db.state.authoritativeCursor ∧
      (startGmailSyncProgress db generation).seen = db.seen ∧
      (startGmailSyncProgress db generation).now = db.now + 1 := by
  unfold startGmailSyncProgress
  split
  · exact ⟨rfl, rfl, rfl, rfl, rfl⟩
  · exact ⟨rfl, rfl, rfl, rfl, rfl⟩

theorem stepOk_startProgress (hs : SharedOk listing w) (generation : String) :
    StepOk listing w { w with db := startGmailSyncProgress w.db generation } .idle := by
  obtain ⟨hmessages, hreconcile, hcursor, hseen, hnow⟩ := startProgress_facts w.db generation
  have hle : w.db.now ≤ (startGmailSyncProgress w.db generation).now := by omega
  have hev : Evolves w { w with db := startGmailSyncProgress w.db generation } := by
    refine evolves_state hs hmessages hle (Nat.le_refl _) ?_
    intro s hs'
    exact Or.inl ⟨s, hreconcile ▸ hs', Scan.Same.refl s, fun m hm => hseen ▸ hm⟩
  refine ⟨hev, hs.evolves hev (rows_state hs hmessages hle) hs.reached ?_ ?_, trivial⟩
  · intro c hc
    exact Or.inl (hcursor ▸ hc)
  · intro s hs'
    exact Or.inl (hreconcile ▸ hs')

/-! ## The pages of a scan -/

theorem evolves_page (hs : SharedOk listing w) (h : Upserts w.db.begin db records) {s : Scan}
    (hactive : w.db.state.reconcile = some s) (next : Option Cursor) (ids : List MessageId) :
    Evolves w { w with db := recordSeenPage db s next ids } := by
  have hup := evolves_upserts hs h
  refine ⟨hup.grows, hup.rows, hup.young, hup.now, ?_, hup.published, hup.purged⟩
  intro s' hs'
  cases hs'
  have hseen : db.seen = w.db.seen := h.seen
  exact Or.inl ⟨s, hactive, ⟨rfl, rfl, rfl⟩, fun m hm => List.mem_union_iff.2 (Or.inr (hseen ▸ hm))⟩

variable {ids : List MessageId}

theorem shared_page (hs : SharedOk listing w) (h : Upserts w.db.begin db records)
    (hrecords : RecordsOk w.mailbox records) {s : Scan} (hactive : w.db.state.reconcile = some s)
    {next : Option Cursor} (hids : ∀ m, Alive w.mailbox m → Has w.mailbox s.baseline m →
      listing.left s.startedAt s.cursor m = true → listing.left s.startedAt next m = false →
        m ∈ ids ∧ StoredUpTo { w with db := db } m s.baseline) :
    SharedOk listing { w with db := recordSeenPage db s next ids } := by
  have hev := evolves_page hs h hactive next ids
  have hup := evolves_upserts hs h
  have hrows := rows_upserts hs h hrecords
  have hstate : db.state = w.db.state := h.state
  have hcovers := hs.scan s hactive
  refine hs.evolves hev ⟨hrows.known, hrows.genuine, hrows.age⟩ hs.reached ?_ ?_
  · intro c hc
    exact Or.inl (hstate ▸ hc)
  intro s' hs'
  cases hs'
  refine Or.inr ⟨Nat.le_trans hcovers.started hev.now, hcovers.baseline, ?_⟩
  intro m halive hhas
  have hkept : listing.left s.startedAt s.cursor m = true ∨
      ((s.generation, m) ∈ w.db.seen ∧ StoredUpTo w m s.baseline) :=
    hcovers.covered m halive hhas
  cases hnext : listing.left s.startedAt next m with
  | true => exact Or.inl rfl
  | false =>
    -- What the cursor has passed is on the page or was seen before it.
    rcases hkept with hleft | ⟨hseen, hstored⟩
    · obtain ⟨hm, hstored⟩ := hids m halive hhas hleft hnext
      exact Or.inr ⟨List.mem_union_iff.2 (Or.inl (List.mem_map.2 ⟨m, hm, rfl⟩)), hstored⟩
    · have hdb : db.seen = w.db.seen := h.seen
      exact Or.inr ⟨List.mem_union_iff.2 (Or.inr (hdb ▸ hseen)),
        hstored.evolves hup hcovers.baseline halive⟩

theorem recordSeen_facts {db' : Database}
    (h : recordGmailReconciliationSeen db generation ids = some db') :
    db'.messages = db.messages ∧ db'.state = db.state ∧ db.now ≤ db'.now ∧
      (∀ entry ∈ db.seen, entry ∈ db'.seen) ∧ ∀ m ∈ ids, (generation, m) ∈ db'.seen := by
  unfold recordGmailReconciliationSeen at h
  split at h
  · rename_i hempty
    cases h
    rw [List.isEmpty_iff.1 hempty]
    exact ⟨rfl, rfl, Nat.le_refl _, fun _ h => h, List.forall_mem_nil _⟩
  · obtain ⟨scan, -, rfl⟩ := Option.map_eq_some_iff.1 h
    refine ⟨rfl, rfl, Nat.le_succ _, ?_, ?_⟩
    · intro entry hentry
      exact List.mem_union_iff.2 (Or.inr hentry)
    · intro m hm
      exact List.mem_union_iff.2 (Or.inl (List.mem_map.2 ⟨m, hm, rfl⟩))

theorem evolves_recordSeen (hs : SharedOk listing w)
    (h : recordGmailReconciliationSeen w.db generation ids = some db) :
    Evolves w { w with db := db } := by
  obtain ⟨hmessages, hstate, hnow, hkeeps, -⟩ := recordSeen_facts h
  refine evolves_state hs hmessages hnow (Nat.le_refl _) ?_
  intro s hs'
  exact Or.inl ⟨s, hstate ▸ hs', Scan.Same.refl s, fun m hm => hkeeps _ hm⟩

theorem shared_recordSeen (hs : SharedOk listing w)
    (h : recordGmailReconciliationSeen w.db generation ids = some db) :
    SharedOk listing { w with db := db } := by
  obtain ⟨hmessages, hstate, hnow, -, -⟩ := recordSeen_facts h
  refine hs.evolves (evolves_recordSeen hs h) (rows_state hs hmessages hnow) hs.reached ?_ ?_
  · intro c hc
    exact Or.inl (hstate ▸ hc)
  · intro s hs'
    exact Or.inl (hstate ▸ hs')

/-! ## The end of a scan without a sweep -/

theorem reset_cases (db : Database) (generation : String) :
    ((resetGmailReconciliation db generation).state.reconcile = none ∧
      (resetGmailReconciliation db generation).state.authoritativeCursor = none) ∨
    (db.state.generation ≠ some generation ∧
      (resetGmailReconciliation db generation).state = db.state) := by
  unfold resetGmailReconciliation
  by_cases h : db.state.generation = some generation
  · exact Or.inl (by simp [h, ImportState.authoritativeCursor])
  · exact Or.inr (by simp [h])

theorem reset_active (db : Database) (generation : String) {s : Scan}
    (h : db.state.reconcile = some s) :
    s.generation = generation ∨
      (resetGmailReconciliation db generation).state.reconcile = some s := by
  have hgeneration : db.state.generation = some s.generation := by
    rw [ImportState.generation, h]
    rfl
  by_cases heq : s.generation = generation
  · exact Or.inl heq
  refine Or.inr ?_
  have hne : db.state.generation ≠ some generation := by
    rw [hgeneration]
    exact fun h => heq (Option.some.inj h)
  unfold resetGmailReconciliation
  simp [hne, h]

theorem evolves_reset (hs : SharedOk listing w) (generation : String) :
    Evolves w { w with db := resetGmailReconciliation w.db generation } := by
  refine evolves_state hs rfl (Nat.le_succ _) (Nat.le_refl _) ?_
  intro s hs'
  rcases reset_cases w.db generation with ⟨hnone, -⟩ | ⟨hother, hstate⟩
  · cases hnone.symm.trans hs'
  have hactive : w.db.state.reconcile = some s := hstate ▸ hs'
  have hne : s.generation ≠ generation := by
    intro heq
    apply hother
    rw [ImportState.generation, hactive, ← heq]
    rfl
  refine Or.inl ⟨s, hactive, Scan.Same.refl s, ?_⟩
  intro m hm
  exact List.mem_filter.2 ⟨hm, decide_eq_true hne⟩

theorem stepOk_reset (hs : SharedOk listing w) (generation : String) :
    StepOk listing w { w with db := resetGmailReconciliation w.db generation } .idle := by
  have hev := evolves_reset hs generation
  refine ⟨hev, hs.evolves hev (rows_state hs rfl (Nat.le_succ _)) hs.reached ?_ ?_, trivial⟩
  · intro c hc
    rcases reset_cases w.db generation with ⟨-, hnone⟩ | ⟨-, hstate⟩
    · cases hnone.symm.trans hc
    · exact Or.inl (hstate ▸ hc)
  · intro s hs'
    rcases reset_cases w.db generation with ⟨hnone, -⟩ | ⟨-, hstate⟩
    · cases hnone.symm.trans hs'
    · exact Or.inl (hstate ▸ hs')

end Effects

end ElectronicMail.Sync
