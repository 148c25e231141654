import ElectronicMail.Sync.Effects

/-!
# The sweep spares live mail

Every act of a worker keeps what the tables and the other workers promise
(`stepOk_perform`), and so does every run (`liveInv_step`). When a final step comes
to its sweep, every message that exists in Gmail and has an event up to
`final_history_id` has been seen: by a page if it had one up to the baseline, by the
final window otherwise. So the sweep removes no message that exists in Gmail when it
runs (`reconciliation_spares_live`). It may remove one that existed at
`final_history_id` and has been deleted since (`deletedInFinalWindow`).
-/

namespace ElectronicMail.Sync

open Foundations

section Acts

variable {listing : Listing} {w w' : World}

/-! ## The final step -/

variable {scan s : Scan} {latest : Nat} {m : MessageId}

section

variable (hs : SharedOk listing w) (hphase : PhaseOk listing w (.finalizing scan latest))
  (hactive : w.db.state.reconcile = some s) (hcursor : s.cursor = none)
  (hown : s.startedAt = scan.startedAt) (halive : Alive w.mailbox m)
include hs hphase hactive hcursor hown halive

theorem seen_of_finalizing (hhas : Has w.mailbox latest m) : (s.generation, m) ∈ w.db.seen ∧ StoredUpTo w m latest := by
  obtain ⟨hok, hseen⟩ := hphase
  have hsame := hok.scanOk.same s hactive hown
  by_cases hin : HasIn w.mailbox scan.baseline latest m
  · rw [hsame.generation]
    exact hseen s hactive hown m halive hin
  rcases hhas.split scan.baseline with hbaseline | hwindow
  · rw [← hsame.baseline] at hbaseline hin
    rcases (hs.scan s hactive).covered m halive hbaseline with hleft | ⟨hm, hstored⟩
    · rw [hcursor] at hleft
      cases hleft
    · exact ⟨hm, hstored.of_not_hasIn hin⟩
  · exact absurd hwindow hin

theorem not_missing_of_alive {row : Row} (hrow : w.db.messages m = some row) :
    missing w.db s.generation latest s.startedAt m row = false := by
  rw [Bool.eq_false_iff]
  intro hmissing
  unfold missing at hmissing
  obtain ⟨hunseen, hold⟩ := Bool.and_eq_true_iff.1 hmissing
  -- A row that the guards let through belongs to a message known by then.
  have hhas : Has w.mailbox latest m := by
    unfold Row.isOld at hold
    cases hid : row.historyId with
    | none =>
      rw [hid] at hold
      exact hphase.1.old m row hrow (hown ▸ of_decide_eq_true hold)
    | some h =>
      rw [hid] at hold
      obtain ⟨e, he, hm, rfl, -⟩ := hs.rows.genuine m row h hrow hid
      exact ⟨e, he, hm, of_decide_eq_true hold⟩
  have hseen := (seen_of_finalizing hs hphase hactive hcursor hown halive hhas).1
  simp [hseen] at hunseen

theorem sweep_messages_of_alive :
    (sweep w.db s latest).messages m = w.db.messages m := by
  show (w.db.messages m).filter _ = w.db.messages m
  cases hrow : w.db.messages m with
  | none => rfl
  | some row =>
    have hkept := not_missing_of_alive hs hphase hactive hcursor hown halive hrow
    simp [hkept]

end

variable {db : Database}

theorem sweep_messages_some {row : Row} (h : (sweep db s latest).messages m = some row) :
    db.messages m = some row :=
  (Option.filter_eq_some_iff.1 h).1

theorem stepOk_sweep (hs : SharedOk listing w)
    (hphase : PhaseOk listing w (.finalizing scan latest)) (hactive : w.db.state.reconcile = some s)
    (hcursor : s.cursor = none) (hown : s.startedAt = scan.startedAt) : StepOk listing w
      { w with db := sweep w.db s latest, published := max w.published latest } .idle := by
  have hev : Evolves w
      { w with db := sweep w.db s latest, published := max w.published latest } := by
    refine ⟨Grows.refl hs.wellFormed, ?_, ?_, Nat.le_succ _, ?_, Nat.le_max_left _ _, fun _ h => h⟩
    · intro m row halive hrow
      have hkept := sweep_messages_of_alive hs hphase hactive hcursor hown halive
      exact ⟨row, hkept.trans hrow, Row.Le.refl row⟩
    · intro m row hrow
      exact Or.inl (sweep_messages_some hrow)
    · intro s' hs'
      cases hs'
  have hreached := hphase.1.reached
  have hfresh : Fresh w latest := fun m halive hhas =>
    (seen_of_finalizing hs hphase hactive hcursor hown halive hhas).2
  refine ⟨hev, hs.evolves hev ?_ (max_le hs.reached hreached) ?_ ?_, trivial⟩
  · exact hs.rows.of_subset hev.grows hev.now (fun m row hrow => sweep_messages_some hrow)
  · intro c hc
    cases hc
    rcases publishedHistoryId_cases w.db.state latest with hnew | hold
    · rw [hnew]
      exact Or.inr ⟨Nat.le_max_right _ _, hfresh.evolves hev hreached⟩
    · exact Or.inl hold
  · intro s' hs'
    cases hs'

/-! ## Reading Gmail -/

theorem not_alive_of_listed (hw : WellFormed w.mailbox) {start : Nat}
    (h : m ∈ (listHistory w.mailbox start).deletedMessageIds) :
    ¬ Alive w.mailbox m ∧ Known w.mailbox m := by
  obtain ⟨e, he, hm, -, -⟩ := mem_deletedMessageIds.1 h
  obtain ⟨d, hd⟩ := deletedAt_of_listed hw h
  exact ⟨not_alive_of_deletedAt hd, e, he, hm⟩

theorem phaseOk_listDelta (hs : SharedOk listing w) {expired : Bool} {phase phase' : Phase}
    (hphase : PhaseOk listing w phase) (h : listDelta w expired phase = some phase') :
    PhaseOk listing w phase' := by
  have hlatest : ∀ start, (listHistory w.mailbox start).latestHistoryId =
    currentHistoryId w.mailbox := fun _ => rfl
  cases phase with
  | listingDelta start =>
    obtain ⟨hstart, hfresh⟩ := hphase
    cases expired with
    | true =>
      cases h
      trivial
    | false =>
      cases h
      refine ⟨max_le hstart (Nat.le_of_eq (hlatest start)),
        fun m hm => not_alive_of_listed hs.wellFormed hm, ?_⟩
      rintro m halive ⟨hhas, hnot⟩
      -- What the rows do not have yet has an event in the window.
      by_contra hunlisted
      have hnone : ∀ x, ¬ HasIn w.mailbox start x m := fun x hin =>
        hunlisted (listed_of_alive hs.wellFormed halive hin)
      rcases hhas.split start with hold | hin
      · exact hnot ((hfresh m halive hold).of_not_hasIn (hnone _))
      · exact hnone _ hin
  | scanning scan =>
    have hscan : ScanOk w scan := hphase
    unfold listDelta at h
    dsimp only at h
    split at h
    · cases h
    cases expired with
    | true =>
      cases h
      trivial
    | false =>
      cases h
      refine ⟨⟨hscan, max_le hscan.baseline (Nat.le_of_eq (hlatest scan.baseline)), ?_⟩,
        fun m hm => not_alive_of_listed hs.wellFormed hm, ?_⟩
      · intro m row hrow _
        obtain ⟨e, he, hm⟩ := hs.rows.known m row hrow
        have hle := historyId_le_current hs.wellFormed he
        exact ⟨e, he, hm, Nat.le_trans hle (Nat.le_max_right _ _)⟩
      · intro m halive hin
        exact listed_of_alive hs.wellFormed halive hin
  | _ => cases h

theorem phaseOk_listedPage (hphase : PhaseOk listing w (.scanning scan)) {cursor : Cursor}
    {page : Option Page} (hlists : ∀ p ∈ page, Enumerates listing w.mailbox scan cursor p) :
    PhaseOk listing w (listedPage scan cursor page) := by
  cases page with
  | none => trivial
  | some p =>
    unfold listedPage
    dsimp only
    split
    · trivial
    · refine ⟨hphase, List.forall_mem_nil _, ?_⟩
      rintro m halive ⟨⟨e, he, rfl, hbaseline⟩, htodo, hnext⟩
      rcases hlists p rfl e he hbaseline halive htodo with hm | hleft
      · exact Or.inl hm
      · cases hnext.symm.trans hleft

theorem record_facts (purpose : Purpose) (numbered : Bool) (snapshot : Snapshot) :
    (purpose.record numbered snapshot).messageId = snapshot.messageId ∧
      (purpose.record numbered snapshot).labels = snapshot.labels ∧
      (∀ h, (purpose.record numbered snapshot).historyId = some h → h = snapshot.historyId) ∧
      (purpose ≠ .imported →
        (purpose.record numbered snapshot).historyId = some snapshot.historyId) := by
  cases purpose with
  | imported =>
    refine ⟨rfl, rfl, ?_, fun h => absurd rfl h⟩
    intro h hid
    cases numbered with
    | true => exact (Option.some.inj hid).symm
    | false => cases hid
  | _ => exact ⟨rfl, rfl, fun h hid => (Option.some.inj hid).symm, fun _ => rfl⟩

variable {records : List Record}

variable {purpose : Purpose}

theorem phaseOk_hydrated (hs : SharedOk listing w) {pending : List MessageId} (numbered : Bool)
    (hphase : PhaseOk listing w (.hydrating purpose (m :: pending) records)) :
    PhaseOk listing w (hydrated w numbered purpose m pending records) := by
  obtain ⟨hok, hrecords, hpending⟩ := hphase
  unfold hydrated
  cases hget : getMessage w.mailbox m with
  | none =>
    dsimp only
    split
    · -- A message that is not there is not owed.
      refine ⟨hok, hrecords, ?_⟩
      intro m' halive howes
      rcases hpending m' halive howes with hm | hr
      · rcases List.mem_cons.1 hm with rfl | hm
        · unfold Alive at halive
          rw [hget] at halive
          cases halive
        · exact Or.inl hm
      · exact Or.inr hr
    · trivial
  | some snapshot =>
    obtain ⟨last, hlast, hlabels, hid, hm⟩ := getMessage_some hget
    obtain ⟨hlastMem, hlastId⟩ := lastEvent_some hlast
    obtain ⟨hmessage, hrlabels, hnumber, hnumbered⟩ := record_facts purpose numbered snapshot
    refine ⟨hok, ?_, ?_⟩
    · intro r hr
      rcases List.mem_append.1 hr with hr | hr
      · exact hrecords r hr
      cases List.mem_singleton.1 hr
      rw [hmessage, hm, hrlabels]
      refine ⟨⟨last, hlastMem, hlastId⟩, ?_⟩
      intro h hh
      exact ⟨last, hlastMem, hlastId, hid.trans (hnumber h hh).symm, hlabels⟩
    · intro m' halive howes
      rcases hpending m' halive howes with hm' | ⟨r, hr, hr'⟩
      · rcases List.mem_cons.1 hm' with rfl | hm'
        · have hpurpose : purpose ≠ .imported := by
            rintro rfl
            exact howes
          refine Or.inr ⟨_, List.mem_append_right records (List.mem_singleton_self _),
            hmessage.trans hm, snapshot.historyId, hnumbered hpurpose, ?_⟩
          intro e he heid _
          exact historyId_le_getMessage hs.wellFormed hget he (heid.trans (hmessage.trans hm))
        · exact Or.inl hm'
      · exact Or.inr ⟨r, List.mem_append_left _ hr, hr'⟩

/-! ## Storing what was fetched -/

theorem stored_of_hydrated (hphase : PhaseOk listing w (.hydrating purpose [] records))
    (h : Upserts w.db.begin db records) (halive : Alive w.mailbox m)
    (howes : purpose.Owes listing w m) :
    m ∈ records.map Record.messageId ∧ StoredUpTo { w with db := db } m purpose.upTo := by
  obtain ⟨-, -, hpending⟩ := hphase
  rcases hpending m halive howes with hm | ⟨r, hr, rfl, hupTo⟩
  · cases hm
  · exact ⟨List.mem_map.2 ⟨r, hr, rfl⟩, storedUpTo_of_brought h hr hupTo⟩

theorem stepOk_upsert (hs : SharedOk listing w)
    (hphase : PhaseOk listing w (.hydrating purpose [] records)) :
    StepOk listing w { w with db := upsertGmailMessages w.db records }
      (purpose.afterUpsert records) := by
  have h : Upserts w.db.begin (upsertGmailMessages w.db records) records :=
    upserts_onConnection w.db.begin records
  have hev := evolves_upserts hs h
  refine ⟨hev, shared_upserts hs h hphase.2.1, ?_⟩
  have hok := hphase.1
  cases purpose with
  | imported => trivial
  | delta latest =>
    refine ⟨hok, ?_⟩
    intro m halive hhas
    by_cases hstored : StoredUpTo w m latest
    · exact hstored.evolves hev hok halive
    · exact (stored_of_hydrated hphase h halive ⟨hhas, hstored⟩).2
  | page =>
    refine ⟨ScanOk.evolves hev hok, ?_⟩
    intro m halive howes
    exact stored_of_hydrated hphase h halive howes
  | final =>
    refine ⟨FinalOk.evolves hev hok, ?_⟩
    intro m halive hin
    exact stored_of_hydrated hphase h halive hin

theorem ScanOk.withCursor (h : ScanOk w scan) (next : Option Cursor) :
    ScanOk w { scan with cursor := next } where
  started := h.started
  baseline := h.baseline
  same s hs hstarted :=
    have hsame := h.same s hs hstarted
    ⟨hsame.startedAt, hsame.generation, hsame.baseline⟩

variable {ids : List MessageId}

theorem stepOk_page (hs : SharedOk listing w) (h : Upserts w.db.begin db records)
    (hrecords : RecordsOk w.mailbox records) (hscan : ScanOk w scan) {cursor : Cursor}
    {next : Option Cursor} (hactive : w.db.state.reconcile = some s)
    (hcursor : s.cursor = some cursor) (hown : s.startedAt = scan.startedAt)
    (hids : ∀ m, Alive w.mailbox m → (Purpose.page scan cursor next).Owes listing w m →
      m ∈ ids ∧ StoredUpTo { w with db := db } m scan.baseline) :
    StepOk listing w { w with db := recordSeenPage db s next ids }
      (.scanning { scan with cursor := next }) := by
  have hev := evolves_page hs h hactive next ids
  have hsame := hscan.same s hactive hown
  refine ⟨hev, shared_page hs h hrecords hactive ?_, (hscan.evolves hev).withCursor next⟩
  intro m halive hhas hleft hnext
  rw [hcursor] at hleft
  rw [hsame.baseline] at hhas ⊢
  rw [hown] at hleft hnext
  exact hids m halive ⟨hhas, hleft, hnext⟩

theorem stepOk_recordSeen (hs : SharedOk listing w)
    (hphase : PhaseOk listing w (.recordingSeen scan latest ids))
    (h : recordGmailReconciliationSeen w.db scan.generation ids = some db) :
    StepOk listing w { w with db := db } (.finalizing scan latest) := by
  obtain ⟨hok, hids⟩ := hphase
  have hev := evolves_recordSeen hs h
  refine ⟨hev, shared_recordSeen hs h, hok.evolves hev, ?_⟩
  intro s _ _ m halive hin
  obtain ⟨hm, hstored⟩ := hids m halive hin
  obtain ⟨-, -, -, -, hseen⟩ := recordSeen_facts h
  exact ⟨hseen m hm, hstored.evolves hev hok.reached halive⟩

/-! ## All acts -/

theorem stepOk_start (hs : SharedOk listing w) {generation : String} {baseline : Nat}
    {threadListing : Bool} (hbaseline : baseline ≤ currentHistoryId w.mailbox)
    (hscan : (startGmailReconciliation w.db generation baseline
      (Cursor.initial threadListing)).state.reconcile = some scan) : StepOk listing w { w with
      db := startGmailReconciliation w.db generation baseline (Cursor.initial threadListing) }
      (.scanning scan) := by
  have hshared : SharedOk listing { w with
      db := startGmailReconciliation w.db generation baseline (Cursor.initial threadListing) } :=
    shared_start hs threadListing hbaseline
  exact ⟨evolves_start hs generation baseline _, hshared, (hshared.scan scan hscan).scanOk hscan⟩

/-- An act whose listing enumerates and whose commit is one to its own scan keeps what
the tables and the workers promise. -/
theorem stepOk_perform (hs : SharedOk listing w) {a : Act} {phase phase' : Phase}
    (hphase : PhaseOk listing w phase)
    (hlists : ∀ listed ∈ listingOf a phase,
      Enumerates listing w.mailbox listed.1 listed.2.1 listed.2.2)
    (hown : ∀ commit ∈ commitOf a phase,
      ∀ active ∈ w.db.state.activeScan commit.1.generation commit.2,
        active.startedAt = commit.1.startedAt)
    (h : perform w a phase = some (w', phase')) : StepOk listing w w' phase' := by
  cases a with
  | stop =>
    cases h
    exact StepOk.read hs trivial
  | readState =>
    unfold perform at h
    dsimp only at h
    split at h
    · cases h
      exact StepOk.read hs trivial
    · cases h
  | readBaseline =>
    cases phase with
    | choosing =>
      cases h
      exact StepOk.read hs (Nat.le_refl _)
    | _ => cases h
  | start =>
    cases phase with
    | starting =>
      obtain ⟨scan, hscan, hw⟩ := Option.map_eq_some_iff.1 h
      cases hw
      exact stepOk_start hs hphase hscan
    | _ => cases h
  | startProgress =>
    cases phase with
    | scanning scan =>
      cases h
      exact stepOk_startProgress hs scan.generation
    | _ => cases h
  | readScan =>
    cases phase with
    | idle =>
      obtain ⟨scan, hscan, hw⟩ := Option.map_eq_some_iff.1 h
      cases hw
      exact StepOk.read hs ((hs.scan scan hscan).scanOk hscan)
    | _ => cases h
  | readCursor =>
    cases phase with
    | idle =>
      obtain ⟨start, hstart, hw⟩ := Option.map_eq_some_iff.1 h
      cases hw
      obtain ⟨hle, hfresh⟩ := hs.cursor start hstart
      exact StepOk.read hs ⟨Nat.le_trans hle hs.reached, hfresh⟩
    | _ => cases h
  | listPage =>
    cases phase with
    | scanning scan =>
      obtain ⟨cursor, hcursor, hw⟩ := Option.map_eq_some_iff.1 h
      cases hw
      refine StepOk.read hs (phaseOk_listedPage hphase ?_)
      rintro p rfl
      exact hlists (scan, cursor, p) (Option.map_eq_some_iff.2 ⟨cursor, hcursor, rfl⟩)
    | _ => cases h
  | listHistory expired =>
    obtain ⟨next, hnext, hw⟩ := Option.map_eq_some_iff.1 h
    cases hw
    exact StepOk.read hs (phaseOk_listDelta hs hphase hnext)
  | delete =>
    cases phase with
    | deleting =>
      cases h
      obtain ⟨hok, hdeleted, hchanged⟩ := hphase
      have hgone := fun m hm => (hdeleted m hm).1
      have hev := evolves_delete hs hgone
      refine ⟨hev, shared_delete hs hgone, hok.evolves hev, List.forall_mem_nil _, ?_⟩
      intro m halive howes
      exact Or.inl (hchanged m halive (howes.evolved hev hok halive).2)
    | _ => cases h
  | beginImport ids =>
    cases phase with
    | idle =>
      cases h
      exact StepOk.read hs ⟨trivial, List.forall_mem_nil _, fun _ _ howes => howes.elim⟩
    | _ => cases h
  | hydrate numbered =>
    cases phase with
    | hydrating purpose pending =>
      cases pending with
      | nil => cases h
      | cons =>
        cases h
        exact StepOk.read hs (phaseOk_hydrated hs numbered hphase)
    | _ => cases h
  | upsert =>
    cases phase with
    | hydrating purpose pending =>
      cases pending with
      | nil =>
        unfold perform at h
        dsimp only at h
        split at h
        · cases h
        · cases h
          exact stepOk_upsert hs hphase
      | cons => cases h
    | _ => cases h
  | commitPage =>
    unfold perform at h
    dsimp only at h
    split at h
    · rename_i scan token next records
      split at h
      · rename_i db hdb
        cases h
        -- The transaction went through: the scan is active and at this cursor.
        unfold commitGmailReconciliationMetadataPage at hdb
        split at hdb
        · obtain ⟨s, hactive, rfl⟩ := Option.map_eq_some_iff.1 hdb
          obtain ⟨hreconcile, -, hcursor⟩ := activeScan_eq_some.1 hactive
          have hups := upserts_onConnection w.db.begin records
          refine stepOk_page hs hups hphase.2.1 hphase.1 hreconcile hcursor
            (hown _ rfl s hactive) ?_
          intro m halive howes
          exact stored_of_hydrated hphase hups halive howes
        · cases hdb
      · cases h
        exact StepOk.read hs trivial
    · cases h
  | recordPage =>
    cases phase with
    | recordingPage scan cursor next ids =>
      unfold perform at h
      dsimp only at h
      split at h
      · rename_i db hdb
        cases h
        obtain ⟨s, hactive, rfl⟩ := Option.map_eq_some_iff.1 hdb
        obtain ⟨hreconcile, -, hcursor⟩ := activeScan_eq_some.1 hactive
        exact stepOk_page hs (Upserts.nil w.db.begin) (List.forall_mem_nil _) hphase.1
          hreconcile hcursor (hown _ rfl s hactive) hphase.2
      · cases h
        exact StepOk.read hs trivial
    | _ => cases h
  | recordSeen =>
    cases phase with
    | recordingSeen scan latest ids =>
      unfold perform at h
      dsimp only at h
      split at h
      · rename_i db hdb
        cases h
        exact stepOk_recordSeen hs hphase hdb
      · cases h
        exact StepOk.read hs trivial
    | _ => cases h
  | publish =>
    cases phase with
    | publishing latest =>
      cases h
      exact ⟨evolves_publish hs latest, shared_publish hs hphase.1 hphase.2, trivial⟩
    | _ => cases h
  | finalize =>
    cases phase with
    | finalizing scan latest =>
      unfold perform at h
      dsimp only at h
      split at h
      · rename_i db hdb
        cases h
        obtain ⟨s, hactive, rfl⟩ := Option.map_eq_some_iff.1 hdb
        obtain ⟨hreconcile, -, hcursor⟩ := activeScan_eq_some.1 hactive
        exact stepOk_sweep hs hphase hreconcile hcursor (hown _ rfl s hactive)
      · cases h
        exact StepOk.read hs trivial
    | _ => cases h
  | reset =>
    cases phase with
    | resetting generation =>
      cases h
      exact stepOk_reset hs generation
    | _ => cases h

end Acts

/-! ## Runs -/

section Runs

variable {listing : Listing} {w : World}

theorem Evolves.enter {w' : World} (h : Evolves w w') (phase : Nat → Phase) :
    Evolves w { w' with phase := phase } :=
  ⟨h.grows, h.rows, h.young, h.now, h.scan, h.published, h.purged⟩

theorem SharedOk.enter (h : SharedOk listing w) (phase : Nat → Phase) :
    SharedOk listing { w with phase := phase } :=
  ⟨h.wellFormed, ⟨h.rows.known, h.rows.genuine, h.rows.age⟩, h.reached, h.cursor,
    fun s hs => ⟨(h.scan s hs).started, (h.scan s hs).baseline, (h.scan s hs).covered⟩⟩

theorem LiveInv.of_stepOk (hinv : LiveInv listing w) {w' : World} {phase : Phase}
    (h : StepOk listing w w' phase) (worker : Nat) :
    LiveInv listing { w' with phase := Function.update w.phase worker phase } := by
  refine ⟨h.shared.enter _, ?_⟩
  intro i
  show PhaseOk listing _ (Function.update w.phase worker phase i)
  by_cases hi : i = worker
  · subst hi
    rw [Function.update_self]
    exact h.phase.evolves ((Evolves.refl h.evolves.grows.wellFormed).enter _)
  · rw [Function.update_of_ne hi]
    exact (hinv.phases i).evolves (h.evolves.enter _)

theorem liveInv_initial {g : Mailbox} (hg : WellFormed g) : LiveInv listing (World.initial g) := by
  refine ⟨⟨hg, ⟨?_, ?_, ?_⟩, Nat.zero_le _, ?_, ?_⟩, fun _ => trivial⟩
  · intro m row h
    cases h
  · intro m row x h
    cases h
  · intro m row h
    cases h
  · intro c h
    cases h
  · intro s h
    cases h

theorem liveInv_step (hinv : LiveInv listing w) {s : Step} (hlists : ListsMailbox listing w s)
    (hown : CommitsOwnScan w s) : LiveInv listing (step w s) := by
  cases s with
  | gmail e =>
    unfold step
    dsimp only
    split
    · rename_i haccepts
      have hev := evolves_gmail hinv.shared haccepts
      exact ⟨shared_gmail hinv.shared haccepts, fun i => (hinv.phases i).evolves hev⟩
    · exact hinv
  | act worker a =>
    unfold step
    dsimp only
    cases h : perform w a (w.phase worker) with
    | none => exact hinv
    | some result =>
      obtain ⟨w', phase⟩ := result
      exact hinv.of_stepOk (stepOk_perform hinv.shared (hinv.phases worker) hlists hown h) worker

/-- A finalization removes no message that exists in Gmail when it runs. -/
def SparesLive (w : World) (s : Step) : Prop :=
  ∀ worker, s = .act worker .finalize → ∀ m, (w.db.messages m).isSome = true →
    (step w s).db.messages m = none → ¬ Alive w.mailbox m

theorem LiveInv.sparesLive (hinv : LiveInv listing w) {s : Step} (hown : CommitsOwnScan w s) :
    SparesLive w s := by
  rintro worker rfl m hstored hgone halive
  have hkept : (step w (.act worker .finalize)).db.messages m = w.db.messages m := by
    have hphase := hinv.phases worker
    unfold step
    dsimp only
    cases hwhere : w.phase worker with
    | finalizing scan latest =>
      rw [hwhere] at hphase
      unfold perform
      dsimp only
      cases hdb : finalizeGmailReconciliation w.db scan.generation latest with
      | none => rfl
      | some db =>
        obtain ⟨s, hactive, rfl⟩ := Option.map_eq_some_iff.1 hdb
        obtain ⟨hreconcile, -, hcursor⟩ := activeScan_eq_some.1 hactive
        have hcommit : commitOf .finalize (w.phase worker) = some (scan, none) := by
          rw [hwhere]
          rfl
        exact sweep_messages_of_alive hinv.shared hphase hreconcile hcursor
          (hown _ hcommit s hactive) halive
    | _ => rfl
  rw [hkept] at hgone
  rw [hgone] at hstored
  cases hstored

/-- **Reconciliation spares live mail.** In every run whose pages enumerate the mailbox
and are committed to the scan they were listed for, whatever else the workers and Gmail
do, no finalization removes a message that exists in Gmail when it runs. -/
theorem reconciliation_spares_live (listing : Listing) {g : Mailbox} (hg : WellFormed g)
    {steps : List Step}
    (hrun : Along step (fun w s => ListsMailbox listing w s ∧ CommitsOwnScan w s)
      (World.initial g) steps) :
    Along step SparesLive (World.initial g) steps := by
  refine along_of_step (I := LiveInv listing) ?_ (liveInv_initial hg) hrun
  rintro w s hinv ⟨hlists, hown⟩
  exact ⟨hinv.sparesLive hown, liveInv_step hinv hlists hown⟩

end Runs

/-! ## A message deleted after the final listing -/

/-- A finalization removes no message that existed at its final history id. -/
def SparesExisting (w : World) (s : Step) : Prop :=
  ∀ worker scan latest, s = .act worker .finalize → w.phase worker = .finalizing scan latest →
    ∀ m, (w.db.messages m).isSome = true → (step w s).db.messages m = none →
      existedAt w.mailbox latest m = false

def wholeListing : Listing := ⟨fun _ _ _ => true, fun _ _ _ => rfl⟩

/-- The scan of an empty mailbox. A message comes, an import stores it, the final window
lists it, and it is deleted before the final step fetches it. -/
def deletedInFinalWindow : List Step :=
  ([.readState false "g", .readBaseline, .start, .listPage (some ⟨[], none, none⟩), .upsert,
    .recordPage].map (Step.act 0)) ++
  [.gmail ⟨1, "m", .added ["INBOX"]⟩] ++
  ([.beginImport ["m"], .hydrate true, .upsert].map (Step.act 1)) ++
  ([.listHistory false, .delete].map (Step.act 0)) ++
  [.gmail ⟨2, "m", .deleted⟩] ++
  ([.hydrate true, .upsert, .recordSeen].map (Step.act 0))

/-- The fetch answers 404, the message is not seen, and the sweep removes it although it
existed at the final history id. -/
theorem deletedInFinalWindow_sweeps_existing :
    Along step (fun w s => ListsMailbox wholeListing w s ∧ CommitsOwnScan w s)
        (World.initial []) (deletedInFinalWindow ++ [.act 0 .finalize]) ∧
      ¬ SparesExisting (runFrom [] deletedInFinalWindow) (.act 0 .finalize) := by
  refine ⟨by decide, ?_⟩
  intro h
  have hphase : (runFrom [] deletedInFinalWindow).phase 0 =
      .finalizing ⟨"g", none, 0, 1⟩ 1 := by decide
  have hstored : ((runFrom [] deletedInFinalWindow).db.messages "m").isSome = true := by decide
  have hgone : (step (runFrom [] deletedInFinalWindow) (.act 0 .finalize)).db.messages "m" =
      none := by decide
  have habsent := h 0 _ 1 rfl hphase "m" hstored hgone
  have hexisted : existedAt (runFrom [] deletedInFinalWindow).mailbox 1 "m" = true := by decide
  rw [hexisted] at habsent
  cases habsent

theorem reconciliation_spares_live_deletedInFinalWindow :
    Along step SparesLive (World.initial []) (deletedInFinalWindow ++ [.act 0 .finalize]) := by
  have hempty : WellFormed [] := trivial
  exact reconciliation_spares_live wholeListing hempty (by decide)

end ElectronicMail.Sync
