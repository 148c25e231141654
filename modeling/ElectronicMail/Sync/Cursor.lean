import ElectronicMail.Sync.Live

/-!
# The authoritative cursor

A cursor `c` that is authoritative should mean that the stored rows are Gmail's state
up to `c` (`CursorSound`): a message whose last event is no later than `c` is stored
with its labels, and no message deleted by then is stored. The first half holds in
every run whose pages enumerate the mailbox. The second half does not: an import that
fetched a message before it was deleted stores it after the delta sync that carried
the deletion has published its cursor, and no later sync looks at that deletion again
(`resurrectingImport`).

`cursorSound_of_run` has both halves for every run in which no upsert brings back a
message whose deletion has been carried by a history window or is covered by a
published cursor. `DeletedOk` and `DeletedPhase` are the invariant: a stored row of a
deleted message was deleted after every published cursor and outside every window
handled, and a worker that is about to publish knows what its window has carried.
-/

namespace ElectronicMail.Sync

open Foundations

/-! ## The property -/

def CursorSound (w : World) : Prop :=
  ∀ c, w.db.state.authoritativeCursor = some c →
    (∀ m snapshot, getMessage w.mailbox m = some snapshot → snapshot.historyId ≤ c →
      ∃ row, w.db.messages m = some row ∧ row.historyId = some snapshot.historyId ∧
        row.labels = snapshot.labels) ∧
    ∀ m d, deletedAt w.mailbox m = some d → d ≤ c → w.db.messages m = none

def storedBy (w : World) : Act → Phase → List Record
  | .upsert, .hydrating purpose [] records => if purpose.isThreadPage then [] else records
  | .commitPage, .hydrating (.page scan (.threads token) next) [] records =>
    if (commitGmailReconciliationMetadataPage w.db scan.generation (.threads token) next
      records).isSome then records else []
  | _, _ => []

/-- The record is of a message that Gmail has deleted, and the deletion has been handled:
a history window has carried it or a published cursor covers it. A record without a
history id would stay out of reach of the sweep. -/
def BringsBack (w : World) (r : Record) : Prop :=
  ∃ d ∈ deletedAt w.mailbox r.messageId,
    d ≤ w.published ∨ r.messageId ∈ w.purged ∨ r.historyId = none

instance (w : World) (r : Record) : Decidable (BringsBack w r) :=
  inferInstanceAs (Decidable (∃ d ∈ deletedAt w.mailbox r.messageId, _))

def BringsNothingBack (w : World) : Step → Prop
  | .act worker a => ∀ r ∈ storedBy w a (w.phase worker), ¬ BringsBack w r
  | .gmail _ => True

instance (w : World) : ∀ s, Decidable (BringsNothingBack w s)
  | .act worker a => inferInstanceAs (Decidable (∀ r ∈ storedBy w a (w.phase worker), _))
  | .gmail _ => inferInstanceAs (Decidable True)

/-! ## Deleted messages -/

structure DeletedOk (w : World) : Prop where
  purged : ∀ m ∈ w.purged, ∃ d, deletedAt w.mailbox m = some d
  rows : ∀ m row d, w.db.messages m = some row → deletedAt w.mailbox m = some d →
    w.published < d ∧ m ∉ w.purged
  seen : ∀ entry ∈ w.db.seen, ∃ s, w.db.state.reconcile = some s ∧ entry.1 = s.generation ∧
    ∀ d, deletedAt w.mailbox entry.2 = some d → s.baseline < d
  unnumbered : ∀ s, w.db.state.reconcile = some s → ∀ m row d, w.db.messages m = some row →
    row.historyId = none → deletedAt w.mailbox m = some d → d ≤ s.baseline →
      row.updatedAt ≤ s.startedAt

/-- Every deletion up to the end of the batch's window is among `deleted`, has been
carried before, or lies before the window. -/
def Purpose.Purges (w : World) (deleted : List MessageId) : Purpose → Prop
  | .delta latest => ∀ m d, deletedAt w.mailbox m = some d → d ≤ latest →
      m ∈ deleted ∨ m ∈ w.purged ∨ d ≤ w.published
  | .final scan latest => ∀ m d, deletedAt w.mailbox m = some d → d ≤ latest →
      m ∈ deleted ∨ m ∈ w.purged ∨ d ≤ scan.baseline
  | _ => True

def Purpose.Fetched (w : World) (ids : List MessageId) : Purpose → Prop
  | .page scan _ _ => ∀ m ∈ ids, ∀ d, deletedAt w.mailbox m = some d → scan.baseline < d
  | .final scan _ => ∀ m ∈ ids, ∀ d, deletedAt w.mailbox m = some d → scan.baseline < d
  | _ => True

def DeletedPhase (w : World) : Phase → Prop
  | .listingDelta start => start ≤ w.published
  | .deleting purpose deleted _ => purpose.Purges w deleted
  | .hydrating purpose _ records =>
    purpose.Purges w [] ∧ purpose.Fetched w (records.map Record.messageId)
  | .publishing latest => (Purpose.delta latest).Purges w []
  | .recordingPage scan cursor next ids => (Purpose.page scan cursor next).Fetched w ids
  | .recordingSeen scan latest ids =>
    (Purpose.final scan latest).Purges w [] ∧ (Purpose.final scan latest).Fetched w ids
  | .finalizing scan latest => (Purpose.final scan latest).Purges w []
  | _ => True

section Deleted

variable {listing : Listing} {w w' : World}

variable {purpose : Purpose}

variable {deleted : List MessageId}

theorem Purpose.Purges.evolves (hev : Evolves w w') (hok : purpose.Ok w)
    (h : purpose.Purges w deleted) : purpose.Purges w' deleted := by
  cases purpose with
  | imported | page => trivial
  | delta latest =>
    intro m d hd hle
    have hlatest : latest ≤ currentHistoryId w.mailbox := hok
    rcases hev.grows.deletedNewer m d hd with hold | hnew
    · rcases h m d hold hle with hm | hm | hpublished
      · exact Or.inl hm
      · exact Or.inr (Or.inl (hev.purged m hm))
      · exact Or.inr (Or.inr (Nat.le_trans hpublished hev.published))
    · omega
  | final =>
    intro m d hd hle
    have hlatest := FinalOk.reached hok
    rcases hev.grows.deletedNewer m d hd with hold | hnew
    · rcases h m d hold hle with hm | hm | hbaseline
      · exact Or.inl hm
      · exact Or.inr (Or.inl (hev.purged m hm))
      · exact Or.inr (Or.inr hbaseline)
    · omega

variable {ids : List MessageId}

theorem baseline_lt_of_deleted (hev : Evolves w w') {baseline : Nat}
    (hbaseline : baseline ≤ currentHistoryId w.mailbox)
    (h : ∀ m ∈ ids, ∀ d, deletedAt w.mailbox m = some d → baseline < d) :
    ∀ m ∈ ids, ∀ d, deletedAt w'.mailbox m = some d → baseline < d := by
  intro m hm d hd
  rcases hev.grows.deletedNewer m d hd with hold | hnew
  · exact h m hm d hold
  · omega

theorem Purpose.Fetched.evolves (hev : Evolves w w') (hok : purpose.Ok w)
    (h : purpose.Fetched w ids) : purpose.Fetched w' ids := by
  cases purpose with
  | imported | delta => trivial
  | page => exact baseline_lt_of_deleted hev (ScanOk.baseline hok) h
  | final => exact baseline_lt_of_deleted hev (FinalOk.scanOk hok).baseline h

variable {phase : Phase}

theorem DeletedPhase.evolves (hev : Evolves w w') (hphase : PhaseOk listing w phase)
    (h : DeletedPhase w phase) : DeletedPhase w' phase := by
  cases phase with
  | listingDelta => exact Nat.le_trans h hev.published
  | deleting => exact Purpose.Purges.evolves hev hphase.1 h
  | hydrating =>
    exact ⟨h.1.evolves hev hphase.1, h.2.evolves hev hphase.1⟩
  | publishing latest =>
    exact Purpose.Purges.evolves hev (show (Purpose.delta latest).Ok w from hphase.1) h
  | recordingPage scan cursor next ids =>
    exact Purpose.Fetched.evolves hev (show (Purpose.page scan cursor next).Ok w from hphase.1) h
  | recordingSeen scan latest ids =>
    have hok : (Purpose.final scan latest).Ok w := hphase.1
    exact ⟨h.1.evolves hev hok, h.2.evolves hev hok⟩
  | finalizing scan latest =>
    exact Purpose.Purges.evolves hev (show (Purpose.final scan latest).Ok w from hphase.1) h
  | _ => trivial

structure DeletedStep (w' : World) (phase : Phase) : Prop where
  tables : DeletedOk w'
  phase : DeletedPhase w' phase

/-! ## Events and transactions -/

theorem deleted_gmail (hs : SharedOk listing w) (h : DeletedOk w) {e : Event}
    (he : accepts w.mailbox e = true) : DeletedOk { w with mailbox := e :: w.mailbox } := by
  have hgrows := grows_cons hs.wellFormed he
  refine ⟨?_, ?_, ?_, ?_⟩
  · intro m hm
    obtain ⟨d, hd⟩ := h.purged m hm
    exact ⟨d, hgrows.deleted m d hd⟩
  · intro m row d hrow hd
    rcases hgrows.deletedNewer m d hd with hold | hnew
    · exact h.rows m row d hrow hold
    refine ⟨Nat.lt_of_le_of_lt hs.reached hnew, ?_⟩
    -- A purged message was deleted before, and is not deleted again.
    intro hm
    obtain ⟨d', hd'⟩ := h.purged m hm
    have hsame := (hgrows.deleted m d' hd').symm.trans hd
    cases hsame
    have := deletedAt_le_current hs.wellFormed hd'
    omega
  · intro entry hentry
    obtain ⟨s, hactive, hgeneration, hbaseline⟩ := h.seen entry hentry
    refine ⟨s, hactive, hgeneration, ?_⟩
    intro d hd
    rcases hgrows.deletedNewer entry.2 d hd with hold | hnew
    · exact hbaseline d hold
    · have := (hs.scan s hactive).baseline
      omega
  · intro s hactive m row d hrow hnone hd hle
    rcases hgrows.deletedNewer m d hd with hold | hnew
    · exact h.unnumbered s hactive m row d hrow hnone hold hle
    · have := (hs.scan s hactive).baseline
      omega

variable {db : Database} {records : List Record}

theorem deletedRows_upserts (h : DeletedOk w) (hups : Upserts w.db.begin db records)
    (hback : ∀ r ∈ records, ¬ BringsBack w r) :
    ∀ m row d, db.messages m = some row → deletedAt w.mailbox m = some d →
      (w.published < d ∧ m ∉ w.purged) ∧ (row.historyId = none → w.db.messages m = some row) := by
  intro m row d hrow hd
  constructor
  · rcases hups.touched m row hrow with hold | ⟨-, r, hr, rfl⟩
    · exact h.rows m row d hold hd
    · constructor
      · by_contra hle
        exact hback r hr ⟨d, hd, Or.inl (by omega)⟩
      · intro hm
        exact hback r hr ⟨d, hd, Or.inr (Or.inl hm)⟩
  · intro hnone
    rcases hups.unnumbered m row hrow hnone with hold | ⟨r, hr, rfl, hid⟩
    · exact hold
    · exact absurd ⟨d, hd, Or.inr (Or.inr hid)⟩ (hback r hr)

theorem deleted_upserts (h : DeletedOk w) (hups : Upserts w.db.begin db records)
    (hback : ∀ r ∈ records, ¬ BringsBack w r) : DeletedOk { w with db := db } := by
  have hrows := deletedRows_upserts h hups hback
  have hstate : db.state = w.db.state := hups.state
  have hseen : db.seen = w.db.seen := hups.seen
  refine ⟨h.purged, fun m row d hrow hd => (hrows m row d hrow hd).1, ?_, ?_⟩
  · intro entry hentry
    obtain ⟨s, hactive, hrest⟩ := h.seen entry (hseen ▸ hentry)
    exact ⟨s, hstate ▸ hactive, hrest⟩
  · intro s hactive m row d hrow hnone hd hle
    exact h.unnumbered s (hstate ▸ hactive) m row d ((hrows m row d hrow hd).2 hnone) hnone hd hle

theorem deleted_delete (h : DeletedOk w)
    (hdeleted : ∀ m ∈ deleted, ¬ Alive w.mailbox m ∧ Known w.mailbox m) : DeletedOk { w with
      db := deleteGmailMessages w.db deleted
      purged := deleted ++ w.purged } := by
  have hkept : ∀ m row, (deleteGmailMessages w.db deleted).messages m = some row →
      m ∉ deleted ∧ w.db.messages m = some row := by
    intro m row hrow
    by_cases hm : m ∈ deleted
    · cases (if_pos hm).symm.trans hrow
    · exact ⟨hm, (if_neg hm).symm.trans hrow⟩
  refine ⟨?_, ?_, h.seen, ?_⟩
  · intro m hm
    rcases List.mem_append.1 hm with hm | hm
    · obtain ⟨hdead, e, he, rfl⟩ := hdeleted m hm
      rcases alive_or_deleted he with halive | hd
      · exact absurd halive hdead
      · exact hd
    · exact h.purged m hm
  · intro m row d hrow hd
    obtain ⟨hnot, hold⟩ := hkept m row hrow
    obtain ⟨hpublished, hpurged⟩ := h.rows m row d hold hd
    refine ⟨hpublished, ?_⟩
    intro hm
    rcases List.mem_append.1 hm with hm | hm
    · exact hnot hm
    · exact hpurged hm
  · intro s hactive m row d hrow hnone hd hle
    exact h.unnumbered s hactive m row d (hkept m row hrow).2 hnone hd hle

theorem deleted_publish (h : DeletedOk w) {latest : Nat}
    (hpurges : (Purpose.delta latest).Purges w []) :
    DeletedOk { w with
      db := markHistoryDeltaCompleted w.db latest
      published := max w.published latest } := by
  refine ⟨h.purged, ?_, h.seen, h.unnumbered⟩
  intro m row d hrow hd
  obtain ⟨hpublished, hpurged⟩ := h.rows m row d hrow hd
  refine ⟨max_lt hpublished ?_, hpurged⟩
  by_contra hle
  rcases hpurges m d hd (by omega) with hm | hm | hd'
  · cases hm
  · exact hpurged hm
  · omega

theorem deleted_start (hs : SharedOk listing w) (h : DeletedOk w) (generation : String)
    (baseline : Nat) (cursor : Cursor) :
    DeletedOk { w with db := startGmailReconciliation w.db generation baseline cursor } := by
  have hmessages := start_messages w.db generation baseline cursor
  refine ⟨h.purged, fun m row d hrow hd => h.rows m row d (hmessages ▸ hrow) hd, ?_, ?_⟩
  · intro entry hentry
    rcases start_cases w.db generation baseline cursor with
      ⟨hnone, -, -⟩ | ⟨scan, hactive, hstate, hseen⟩
    · -- Without a scan nothing was seen.
      have hold : entry ∈ w.db.seen := start_seen_subset w.db generation baseline cursor hentry
      obtain ⟨s, hactive, -⟩ := h.seen entry hold
      cases hnone.symm.trans hactive
    · have hold : entry ∈ w.db.seen := start_seen_subset w.db generation baseline cursor hentry
      obtain ⟨s, hs', hrest⟩ := h.seen entry hold
      exact ⟨s, hstate ▸ hs', hrest⟩
  · intro s hactive' m row d hrow hnone hd hle
    rcases start_cases w.db generation baseline cursor with
      ⟨-, hnew, -⟩ | ⟨scan, hactive, hstate, -⟩
    · cases hnew.symm.trans hactive'
      have := hs.rows.age m row (hmessages ▸ hrow)
      show row.updatedAt ≤ w.db.now + 1
      omega
    · exact h.unnumbered s (hstate ▸ hactive') m row d (hmessages ▸ hrow) hnone hd hle

theorem deleted_startProgress (h : DeletedOk w) (generation : String) :
    DeletedOk { w with db := startGmailSyncProgress w.db generation } := by
  obtain ⟨hmessages, hreconcile, -, hseen, -⟩ := startProgress_facts w.db generation
  refine ⟨h.purged, fun m row d hrow hd => h.rows m row d (hmessages ▸ hrow) hd, ?_, ?_⟩
  · intro entry hentry
    obtain ⟨s, hactive, hrest⟩ := h.seen entry (hseen ▸ hentry)
    exact ⟨s, hreconcile.trans hactive, hrest⟩
  · intro s hactive m row d hrow hnone hd hle
    exact h.unnumbered s (hreconcile.symm.trans hactive) m row d (hmessages ▸ hrow) hnone hd hle

theorem deleted_page (h : DeletedOk w) (hups : Upserts w.db.begin db records)
    (hback : ∀ r ∈ records, ¬ BringsBack w r) {s : Scan} (hactive : w.db.state.reconcile = some s)
    (next : Option Cursor)
    (hids : ∀ m ∈ ids, ∀ d, deletedAt w.mailbox m = some d → s.baseline < d) :
    DeletedOk { w with db := recordSeenPage db s next ids } := by
  have hrows := deletedRows_upserts h hups hback
  have hseen : db.seen = w.db.seen := hups.seen
  refine ⟨h.purged, fun m row d hrow hd => (hrows m row d hrow hd).1, ?_, ?_⟩
  · intro entry hentry
    refine ⟨_, rfl, ?_⟩
    rcases List.mem_union_iff.1 hentry with hnew | hold
    · obtain ⟨m, hm, rfl⟩ := List.mem_map.1 hnew
      exact ⟨rfl, hids m hm⟩
    · obtain ⟨s', hs', hrest⟩ := h.seen entry (hseen ▸ hold)
      cases hactive.symm.trans hs'
      exact hrest
  · intro s' hs' m row d hrow hnone hd hle
    cases hs'
    exact h.unnumbered s hactive m row d ((hrows m row d hrow hd).2 hnone) hnone hd hle

theorem mem_seen_of_recordSeen {db' : Database} {generation : String}
    (h : recordGmailReconciliationSeen db generation ids = some db') {entry : String × MessageId}
    (hentry : entry ∈ db'.seen) :
    entry ∈ db.seen ∨ ∃ s, db.state.activeScan generation none = some s ∧
      entry.1 = s.generation ∧ entry.2 ∈ ids := by
  unfold recordGmailReconciliationSeen at h
  split at h
  · cases h
    exact Or.inl hentry
  · obtain ⟨s, hactive, rfl⟩ := Option.map_eq_some_iff.1 h
    rcases List.mem_union_iff.1 hentry with hnew | hold
    · obtain ⟨m, hm, rfl⟩ := List.mem_map.1 hnew
      exact Or.inr ⟨s, hactive, (activeScan_eq_some.1 hactive).2.1.symm, hm⟩
    · exact Or.inl hold

theorem deleted_recordSeen (h : DeletedOk w) {scan : Scan} (hscan : ScanOk w scan)
    (hdb : recordGmailReconciliationSeen w.db scan.generation ids = some db)
    (hown : ∀ active ∈ w.db.state.activeScan scan.generation none,
      active.startedAt = scan.startedAt)
    (hids : ∀ m ∈ ids, ∀ d, deletedAt w.mailbox m = some d → scan.baseline < d) :
    DeletedOk { w with db := db } := by
  obtain ⟨hmessages, hstate, -, -, -⟩ := recordSeen_facts hdb
  refine ⟨h.purged, fun m row d hrow hd => h.rows m row d (hmessages ▸ hrow) hd, ?_, ?_⟩
  · intro entry hentry
    rcases mem_seen_of_recordSeen hdb hentry with hold | ⟨s, hactive, hgeneration, hm⟩
    · obtain ⟨s, hs', hrest⟩ := h.seen entry hold
      exact ⟨s, hstate ▸ hs', hrest⟩
    have hreconcile := (activeScan_eq_some.1 hactive).1
    have hsame := hscan.same s hreconcile (hown s hactive)
    refine ⟨s, hstate ▸ hreconcile, hgeneration, ?_⟩
    intro d hd
    rw [hsame.baseline]
    exact hids entry.2 hm d hd
  · intro s hs' m row d hrow hnone hd hle
    exact h.unnumbered s (hstate ▸ hs') m row d (hmessages ▸ hrow) hnone hd hle

theorem deleted_sweep (hs : SharedOk listing w) (h : DeletedOk w) {scan s : Scan} {latest : Nat}
    (hok : FinalOk w scan latest) (hpurges : (Purpose.final scan latest).Purges w [])
    (hactive : w.db.state.reconcile = some s) (hown : s.startedAt = scan.startedAt) :
    DeletedOk { w with db := sweep w.db s latest, published := max w.published latest } := by
  have hsame := hok.scanOk.same s hactive hown
  refine ⟨h.purged, ?_, ?_, fun s' hs' => nomatch hs'⟩
  · intro m row d hrow hd
    obtain ⟨hrow₀, hkept⟩ := Option.filter_eq_some_iff.1 hrow
    obtain ⟨hpublished, hpurged⟩ := h.rows m row d hrow₀ hd
    refine ⟨max_lt hpublished ?_, hpurged⟩
    by_contra hle
    have hlatest : d ≤ latest := by omega
    have hbaseline : d ≤ s.baseline := by
      rcases hpurges m d hd hlatest with hm | hm | hbaseline
      · cases hm
      · exact absurd hm hpurged
      · exact hsame.baseline ▸ hbaseline
    -- Deleted by the baseline: not seen, and caught by one of the two guards.
    have hunseen : (s.generation, m) ∉ w.db.seen := by
      intro hseen
      obtain ⟨s', hs', -, hlt⟩ := h.seen _ hseen
      cases hactive.symm.trans hs'
      have := hlt d hd
      omega
    have hold : row.isOld latest s.startedAt = true := by
      unfold Row.isOld
      cases hid : row.historyId with
      | none => exact decide_eq_true (h.unnumbered s hactive m row d hrow₀ hid hd hbaseline)
      | some historyId =>
        obtain ⟨e, he, hm, rfl, -⟩ := hs.rows.genuine m row historyId hrow₀ hid
        obtain ⟨last, hlast, -, rfl⟩ := deletedAt_eq_some.1 hd
        have hle := historyId_le_lastEvent hs.wellFormed hlast he hm
        exact decide_eq_true (Nat.le_trans hle hlatest)
    have hmissing : missing w.db s.generation latest s.startedAt m row = true := by
      unfold missing
      rw [hold]
      simpa using hunseen
    rw [hmissing] at hkept
    cases hkept
  · intro entry hentry
    obtain ⟨hold, hother⟩ := List.mem_filter.1 hentry
    obtain ⟨s', hs', hgeneration, -⟩ := h.seen entry hold
    cases hactive.symm.trans hs'
    exact absurd hgeneration (of_decide_eq_true hother)

theorem deleted_reset (h : DeletedOk w) (generation : String) :
    DeletedOk { w with db := resetGmailReconciliation w.db generation } := by
  refine ⟨h.purged, h.rows, ?_, ?_⟩
  · intro entry hentry
    obtain ⟨hold, hother⟩ := List.mem_filter.1 hentry
    obtain ⟨s, hs', hgeneration, hrest⟩ := h.seen entry hold
    rcases reset_active w.db generation hs' with hsame | hkept
    · exact absurd (hgeneration.trans hsame) (of_decide_eq_true hother)
    · exact ⟨s, hkept, hgeneration, hrest⟩
  · intro s hs' m row d hrow hnone hd hle
    rcases reset_cases w.db generation with ⟨hgone, -⟩ | ⟨-, hstate⟩
    · cases hgone.symm.trans hs'
    · exact h.unnumbered s (hstate ▸ hs') m row d hrow hnone hd hle

/-! ## Reading Gmail -/

theorem deletedPhase_listDelta {expired : Bool} {phase' : Phase} (hphase : DeletedPhase w phase)
    (h : listDelta w expired phase = some phase') : DeletedPhase w phase' := by
  cases phase with
  | listingDelta start =>
    have hstart : start ≤ w.published := hphase
    cases expired with
    | true =>
      cases h
      trivial
    | false =>
      cases h
      intro m d hd _
      by_cases hle : d ≤ start
      · exact Or.inr (Or.inr (Nat.le_trans hle hstart))
      · exact Or.inl (listed_of_deletedAt hd (by omega))
  | scanning scan =>
    unfold listDelta at h
    dsimp only at h
    split at h
    · cases h
    cases expired with
    | true =>
      cases h
      trivial
    | false =>
      cases h
      intro m d hd _
      by_cases hle : d ≤ scan.baseline
      · exact Or.inr (Or.inr hle)
      · exact Or.inl (listed_of_deletedAt hd (by omega))
  | _ => cases h

theorem deletedPhase_listedPage (scan : Scan) (cursor : Cursor) (page : Option Page) :
    DeletedPhase w (listedPage scan cursor page) := by
  unfold listedPage
  split
  · trivial
  · split
    · trivial
    · exact ⟨trivial, List.forall_mem_nil _⟩

theorem deletedPhase_hydrated {m : MessageId} {pending : List MessageId} (numbered : Bool)
    (hphase : DeletedPhase w (.hydrating purpose (m :: pending) records)) :
    DeletedPhase w (hydrated w numbered purpose m pending records) := by
  obtain ⟨hpurges, hfetched⟩ := hphase
  unfold hydrated
  cases hget : getMessage w.mailbox m with
  | none =>
    dsimp only
    split
    · exact ⟨hpurges, hfetched⟩
    · trivial
  | some snapshot =>
    obtain ⟨-, -, -, -, hm⟩ := getMessage_some hget
    -- What was just fetched is not deleted.
    have hnew : ∀ d, deletedAt w.mailbox (purpose.record numbered snapshot).messageId ≠ some d := by
      intro d hd
      rw [(record_facts purpose numbered snapshot).1, hm] at hd
      apply not_alive_of_deletedAt hd
      unfold Alive
      rw [hget]
      rfl
    refine ⟨hpurges, ?_⟩
    cases purpose with
    | imported | delta => trivial
    | page | final =>
      rw [List.map_append]
      intro m' hm' d hd
      rcases List.mem_append.1 hm' with hold | hone
      · exact hfetched m' hold d hd
      · cases List.mem_singleton.1 hone
        exact absurd hd (hnew d)

/-! ## All acts -/

theorem DeletedStep.read (h : DeletedOk w) (hphase : DeletedPhase w phase) : DeletedStep w phase :=
  ⟨h, hphase⟩

theorem deletedStep_upsert (h : DeletedOk w)
    (hphase : DeletedPhase w (.hydrating purpose [] records))
    (hback : ∀ r ∈ records, ¬ BringsBack w r) :
    DeletedStep { w with db := upsertGmailMessages w.db records }
      (purpose.afterUpsert records) := by
  obtain ⟨hpurges, hfetched⟩ := hphase
  refine ⟨deleted_upserts h (upserts_onConnection w.db.begin records) hback, ?_⟩
  cases purpose with
  | imported => trivial
  | delta => exact hpurges
  | page => exact hfetched
  | final => exact ⟨hpurges, hfetched⟩

/-- An act that commits to its own scan and brings nothing back keeps what the tables and
the workers promise about deleted messages. -/
theorem deletedStep_perform (hs : SharedOk listing w) (h : DeletedOk w) {a : Act} {phase' : Phase}
    (hok : PhaseOk listing w phase) (hphase : DeletedPhase w phase)
    (hown : ∀ commit ∈ commitOf a phase,
      ∀ active ∈ w.db.state.activeScan commit.1.generation commit.2,
        active.startedAt = commit.1.startedAt) (hback : ∀ r ∈ storedBy w a phase, ¬ BringsBack w r)
    (hw : perform w a phase = some (w', phase')) : DeletedStep w' phase' := by
  cases a with
  | stop =>
    cases hw
    exact DeletedStep.read h trivial
  | readState =>
    unfold perform at hw
    dsimp only at hw
    split at hw
    · cases hw
      exact DeletedStep.read h trivial
    · cases hw
  | readBaseline =>
    cases phase with
    | choosing =>
      cases hw
      exact DeletedStep.read h trivial
    | _ => cases hw
  | start =>
    cases phase with
    | starting generation baseline =>
      obtain ⟨scan, -, hw⟩ := Option.map_eq_some_iff.1 hw
      cases hw
      exact ⟨deleted_start hs h generation baseline _, trivial⟩
    | _ => cases hw
  | startProgress =>
    cases phase with
    | scanning scan =>
      cases hw
      exact ⟨deleted_startProgress h scan.generation, trivial⟩
    | _ => cases hw
  | readScan =>
    cases phase with
    | idle =>
      obtain ⟨scan, -, hw⟩ := Option.map_eq_some_iff.1 hw
      cases hw
      exact DeletedStep.read h trivial
    | _ => cases hw
  | readCursor =>
    cases phase with
    | idle =>
      obtain ⟨start, hstart, hw⟩ := Option.map_eq_some_iff.1 hw
      cases hw
      exact DeletedStep.read h (hs.cursor start hstart).1
    | _ => cases hw
  | listPage page =>
    cases phase with
    | scanning scan =>
      obtain ⟨cursor, -, hw⟩ := Option.map_eq_some_iff.1 hw
      cases hw
      exact DeletedStep.read h (deletedPhase_listedPage scan cursor page)
    | _ => cases hw
  | listHistory expired =>
    obtain ⟨next, hnext, hw⟩ := Option.map_eq_some_iff.1 hw
    cases hw
    exact DeletedStep.read h (deletedPhase_listDelta hphase hnext)
  | delete =>
    cases phase with
    | deleting purpose =>
      cases hw
      obtain ⟨-, hdeleted, -⟩ := hok
      refine ⟨deleted_delete h hdeleted, ?_, ?_⟩
      · -- What the window deletes has now been carried.
        cases purpose with
        | imported | page => trivial
        | delta =>
          intro m d hd hle
          rcases hphase m d hd hle with hm | hm | hpublished
          · exact Or.inr (Or.inl (List.mem_append_left _ hm))
          · exact Or.inr (Or.inl (List.mem_append_right _ hm))
          · exact Or.inr (Or.inr hpublished)
        | final =>
          intro m d hd hle
          rcases hphase m d hd hle with hm | hm | hbaseline
          · exact Or.inr (Or.inl (List.mem_append_left _ hm))
          · exact Or.inr (Or.inl (List.mem_append_right _ hm))
          · exact Or.inr (Or.inr hbaseline)
      · cases purpose with
        | imported | delta => trivial
        | page | final => exact List.forall_mem_nil _
    | _ => cases hw
  | beginImport ids =>
    cases phase with
    | idle =>
      cases hw
      exact DeletedStep.read h ⟨trivial, trivial⟩
    | _ => cases hw
  | hydrate numbered =>
    cases phase with
    | hydrating purpose pending =>
      cases pending with
      | nil => cases hw
      | cons =>
        cases hw
        exact DeletedStep.read h (deletedPhase_hydrated numbered hphase)
    | _ => cases hw
  | upsert =>
    cases phase with
    | hydrating purpose pending records =>
      cases pending with
      | nil =>
        unfold perform at hw
        unfold storedBy at hback
        dsimp only at hw hback
        split at hw
        · cases hw
        rename_i hpage
        rw [if_neg hpage] at hback
        cases hw
        exact deletedStep_upsert h hphase hback
      | cons => cases hw
    | _ => cases hw
  | commitPage =>
    unfold perform at hw
    dsimp only at hw
    split at hw
    · rename_i scan token next records
      split at hw
      · rename_i db hdb
        cases hw
        have hstored : ∀ r ∈ records, ¬ BringsBack w r := by
          intro r hr
          apply hback r
          show r ∈ if _ then records else []
          rw [hdb, if_pos (show (some db).isSome = true from rfl)]
          exact hr
        unfold commitGmailReconciliationMetadataPage at hdb
        split at hdb
        · obtain ⟨s, hactive, rfl⟩ := Option.map_eq_some_iff.1 hdb
          have hreconcile := (activeScan_eq_some.1 hactive).1
          have hsame := ScanOk.same hok.1 s hreconcile (hown _ rfl s hactive)
          refine ⟨deleted_page h (upserts_onConnection w.db.begin records) hstored hreconcile
            next ?_, trivial⟩
          rw [hsame.baseline]
          exact hphase.2
        · cases hdb
      · cases hw
        exact DeletedStep.read h trivial
    · cases hw
  | recordPage =>
    cases phase with
    | recordingPage scan cursor next ids =>
      unfold perform at hw
      dsimp only at hw
      split at hw
      · rename_i db hdb
        cases hw
        obtain ⟨s, hactive, rfl⟩ := Option.map_eq_some_iff.1 hdb
        have hreconcile := (activeScan_eq_some.1 hactive).1
        have hsame := ScanOk.same hok.1 s hreconcile (hown _ rfl s hactive)
        refine ⟨deleted_page h (Upserts.nil w.db.begin) (List.forall_mem_nil _) hreconcile
          next ?_, trivial⟩
        rw [hsame.baseline]
        exact hphase
      · cases hw
        exact DeletedStep.read h trivial
    | _ => cases hw
  | recordSeen =>
    cases phase with
    | recordingSeen scan latest ids =>
      unfold perform at hw
      dsimp only at hw
      split at hw
      · rename_i db hdb
        cases hw
        exact ⟨deleted_recordSeen h hok.1.scanOk hdb (hown _ rfl) hphase.2, hphase.1⟩
      · cases hw
        exact DeletedStep.read h trivial
    | _ => cases hw
  | publish =>
    cases phase with
    | publishing =>
      cases hw
      exact ⟨deleted_publish h hphase, trivial⟩
    | _ => cases hw
  | finalize =>
    cases phase with
    | finalizing scan latest =>
      unfold perform at hw
      dsimp only at hw
      split at hw
      · rename_i db hdb
        cases hw
        obtain ⟨s, hactive, rfl⟩ := Option.map_eq_some_iff.1 hdb
        have hreconcile := (activeScan_eq_some.1 hactive).1
        exact ⟨deleted_sweep hs h hok.1 hphase hreconcile (hown _ rfl s hactive), trivial⟩
      · cases hw
        exact DeletedStep.read h trivial
    | _ => cases hw
  | reset =>
    cases phase with
    | resetting generation =>
      cases hw
      exact ⟨deleted_reset h generation, trivial⟩
    | _ => cases hw

end Deleted

/-! ## Runs -/

section Runs

variable {listing : Listing} {w : World}

structure SyncInv (listing : Listing) (w : World) : Prop where
  live : LiveInv listing w
  tables : DeletedOk w
  phases : ∀ i, DeletedPhase w (w.phase i)

theorem syncInv_initial {g : Mailbox} (hg : WellFormed g) : SyncInv listing (World.initial g) := by
  refine ⟨liveInv_initial hg, ⟨List.forall_mem_nil _, ?_, List.forall_mem_nil _, ?_⟩,
    fun _ => trivial⟩
  · intro m row d hrow
    cases hrow
  · intro s hs
    cases hs

theorem syncInv_step (hinv : SyncInv listing w) {s : Step} (hlists : ListsMailbox listing w s)
    (hown : CommitsOwnScan w s) (hback : BringsNothingBack w s) :
    SyncInv listing (step w s) := by
  suffices h : DeletedOk (step w s) ∧ ∀ i, DeletedPhase (step w s) ((step w s).phase i) from
    ⟨liveInv_step hinv.live hlists hown, h.1, h.2⟩
  cases s with
  | gmail e =>
    unfold step
    dsimp only
    split
    · rename_i haccepts
      have hev := evolves_gmail hinv.live.shared haccepts
      exact ⟨deleted_gmail hinv.live.shared hinv.tables haccepts,
        fun i => (hinv.phases i).evolves hev (hinv.live.phases i)⟩
    · exact ⟨hinv.tables, hinv.phases⟩
  | act worker a =>
    unfold step
    dsimp only
    cases h : perform w a (w.phase worker) with
    | none => exact ⟨hinv.tables, hinv.phases⟩
    | some result =>
      obtain ⟨w', phase⟩ := result
      have hstep := stepOk_perform hinv.live.shared (hinv.live.phases worker) hlists hown h
      have hdeleted := deletedStep_perform hinv.live.shared hinv.tables
        (hinv.live.phases worker) (hinv.phases worker) hown hback h
      obtain ⟨hpurged, hrows, hseen, hunnumbered⟩ := hdeleted.tables
      refine ⟨⟨hpurged, hrows, hseen, hunnumbered⟩, ?_⟩
      intro i
      show DeletedPhase _ (Function.update w.phase worker phase i)
      by_cases hi : i = worker
      · subst hi
        rw [Function.update_self]
        exact hdeleted.phase.evolves
          ((Evolves.refl hstep.evolves.grows.wellFormed).enter _) hstep.phase
      · rw [Function.update_of_ne hi]
        exact (hinv.phases i).evolves (hstep.evolves.enter _) (hinv.live.phases i)

theorem row_eq_snapshot (hs : SharedOk listing w) {m : MessageId} {snapshot : Snapshot}
    (hget : getMessage w.mailbox m = some snapshot)
    (hstored : StoredUpTo w m snapshot.historyId) :
    ∃ row, w.db.messages m = some row ∧ row.historyId = some snapshot.historyId ∧
      row.labels = snapshot.labels := by
  obtain ⟨last, hlast, hlabels, hid, -⟩ := getMessage_some hget
  obtain ⟨hlastMem, hlastId⟩ := lastEvent_some hlast
  obtain ⟨row, hrow, h, hrowId, hall⟩ := hstored
  have hle := hall last hlastMem hlastId (Nat.le_of_eq hid)
  obtain ⟨e, he, hm, heid, helabels⟩ := hs.rows.genuine m row h hrow hrowId
  have hge := historyId_le_lastEvent hs.wellFormed hlast he hm
  have hsame : e = last := event_unique hs.wellFormed he hlastMem (by omega)
  subst hsame
  refine ⟨row, hrow, hrowId.trans (congrArg some (heid.symm.trans hid)), ?_⟩
  exact Option.some.inj (helabels.symm.trans hlabels)

theorem SyncInv.cursorSound (hinv : SyncInv listing w) : CursorSound w := by
  intro c hc
  have hs := hinv.live.shared
  obtain ⟨hpublished, hfresh⟩ := hs.cursor c hc
  constructor
  · intro m snapshot hget hle
    obtain ⟨last, hlast, -, hid, -⟩ := getMessage_some hget
    obtain ⟨hlastMem, hlastId⟩ := lastEvent_some hlast
    have halive : Alive w.mailbox m := by
      unfold Alive
      rw [hget]
      rfl
    obtain ⟨row, hrow, h, hrowId, hall⟩ :=
      hfresh m halive ⟨last, hlastMem, hlastId, hid ▸ hle⟩
    refine row_eq_snapshot hs hget ⟨row, hrow, h, hrowId, ?_⟩
    intro e he hm hx
    exact hall e he hm (Nat.le_trans hx hle)
  · intro m d hd hle
    cases hrow : w.db.messages m with
    | none => rfl
    | some row =>
      have hlt := (hinv.tables.rows m row d hrow hd).1
      omega

/-- **Soundness of the authoritative cursor.** In every run whose pages enumerate the
mailbox, whose commits go to the scan they were listed for, and in which no upsert brings
back a message whose deletion has been handled, the cursor is sound in every state. -/
theorem cursorSound_of_run (listing : Listing) {g : Mailbox} (hg : WellFormed g)
    {steps : List Step}
    (hrun : Along step
      (fun w s => ListsMailbox listing w s ∧ CommitsOwnScan w s ∧ BringsNothingBack w s)
      (World.initial g) steps) :
    Throughout step CursorSound (World.initial g) steps := by
  have hinv : Throughout step (SyncInv listing) (World.initial g) steps := by
    refine throughout_of_step ?_ (syncInv_initial hg) hrun
    rintro w s hinv ⟨hlists, hown, hback⟩
    exact syncInv_step hinv hlists hown hback
  exact hinv.mono (fun w => SyncInv.cursorSound)

end Runs

/-! ## An import that is too late -/

def oneMessage : Mailbox := [⟨1, "m", .added ["INBOX"]⟩]

def reconcileOneMessage : List Step :=
  [.readState false "g", .readBaseline, .start, .listPage (some ⟨["m"], none, none⟩),
    .hydrate true, .upsert, .recordPage, .listHistory false, .delete, .upsert, .recordSeen,
    .finalize].map (Step.act 0)

def deltaSync (worker : Nat) : List Step :=
  [.readCursor, .listHistory false, .delete, .upsert, .publish].map (Step.act worker)

/-- An import fetches the message. It is deleted, and a delta sync carries the deletion
and publishes its cursor. Then the import stores the message. -/
def resurrectingImport : List Step :=
  reconcileOneMessage ++ [.act 1 (.beginImport ["m"]), .act 1 (.hydrate true)] ++
  [.gmail ⟨2, "m", .deleted⟩] ++ deltaSync 2 ++ [.act 1 .upsert]

/-- The import brings back the message, under a cursor past its deletion. -/
theorem resurrectingImport_unsound :
    Along step (fun w s => ListsMailbox wholeListing w s ∧ CommitsOwnScan w s)
        (World.initial oneMessage) resurrectingImport ∧
      ¬ CursorSound (runFrom oneMessage resurrectingImport) := by
  refine ⟨by decide, ?_⟩
  intro h
  have hcursor : (runFrom oneMessage resurrectingImport).db.state.authoritativeCursor =
      some 2 := by decide
  have hdeleted : deletedAt (runFrom oneMessage resurrectingImport).mailbox "m" = some 2 := by
    decide
  have hstored : ((runFrom oneMessage resurrectingImport).db.messages "m").isSome = true := by
    decide
  have hgone := (h 2 hcursor).2 "m" 2 hdeleted (Nat.le_refl 2)
  rw [hgone] at hstored
  cases hstored

/-- The same import in time, and the deletion after it. -/
theorem cursorSound_of_run_promptImport :
    Throughout step CursorSound (World.initial oneMessage)
      (reconcileOneMessage ++
        [.act 1 (.beginImport ["m"]), .act 1 (.hydrate true), .act 1 .upsert] ++
        [.gmail ⟨2, "m", .deleted⟩] ++ deltaSync 2) := by
  have hg : WellFormed oneMessage := ⟨rfl, trivial⟩
  exact cursorSound_of_run wholeListing hg (by decide)

end ElectronicMail.Sync
