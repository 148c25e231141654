import ElectronicMail.Events.Stream

/-!
# Which events reach the client

As long as every event commits before the stream has read beyond its id, what the client has
received and what is under way is in the order of the ids, and all other events of the stream
are still ahead of it (`Following`). An event that commits too late is never read, so that this
is also the only way (`delivers_iff`).
-/

namespace ElectronicMail.Events

open Foundations

variable {id : Nat} {row : MailboxEventRecord}

section Streaming

variable {accounts : Accounts} {scope : StreamScope} {s : EventSystem}

/-! ## The invariant -/

def EventSystem.inTransit (s : EventSystem) : List MailboxEventRecord :=
  (s.connection.map Connection.inTransit).getD []

def EventSystem.floor (s : EventSystem) : Option Nat :=
  match s.connection with
  | some connection => connection.handshake <|> s.lastMailboxEventID
  | none => s.lastMailboxEventID

/-- A stream that has read up to `read`, of a client that has received up to `told`. -/
structure Following (accounts : Accounts) (scope : StreamScope) (s : EventSystem)
    (read told : Nat) : Prop where
  told_le : told ≤ read
  sorted : (s.received ++ s.inTransit).Pairwise fun a b => a.id < b.id
  received_le : ∀ row ∈ s.received, row.id ≤ told
  transit : ∀ row ∈ s.inTransit, told < row.id ∧ row.id ≤ read
  ahead : ∀ row ∈ s.owed, row ∈ s.received ++ s.inTransit ∨ read < row.id
  taken : ∀ row ∈ s.received ++ s.inTransit, row ∈ s.owed
  visible : s.owed ⊆ s.log.rows.filter (scope.finds accounts)
  later : eventsAfter accounts scope told s.log.rows ⊆ s.owed

structure Sound (accounts : Accounts) (scope : StreamScope) (s : EventSystem) : Prop where
  numbered : s.log.Numbered
  untold : s.lastMailboxEventID = none → s.received = []
  greeting : ∀ connection ∈ s.connection, connection.handshake ≠ none → s.lastMailboxEventID = none
  following : ∀ read ∈ s.horizon, ∃ told ∈ s.floor, Following accounts scope s read told

theorem sound_initial : Sound accounts scope .initial where
  numbered := EventLog.numbered_empty
  untold := fun _ => rfl
  greeting := fun _ h => nomatch h
  following := fun _ h => nomatch h

variable {rows : List MailboxEventRecord}

theorem mem_eventsAfter : row ∈ eventsAfter accounts scope id rows ↔
      row ∈ rows.filter (scope.finds accounts) ∧ id < row.id := by
  unfold eventsAfter
  rw [Keyset.mem_beyond]
  simp

theorem EventLog.Numbered.distinctFound {log : EventLog} (h : log.Numbered) :
    ((log.rows.filter (scope.finds accounts)).map MailboxEventRecord.id).Nodup :=
  h.distinctRows.sublist (List.filter_sublist.map _)

/-! ## The steps of the log -/

theorem Sound.withLog (h : Sound accounts scope s) {log : EventLog} (hnumbered : log.Numbered)
    (hrows : log.rows = s.log.rows) : Sound accounts scope { s with log := log } := by
  refine ⟨hnumbered, h.untold, h.greeting, ?_⟩
  intro read hread
  obtain ⟨told, htold, hfollowing⟩ := h.following read hread
  refine ⟨told, htold, ?_⟩
  obtain ⟨h1, h2, h3, h4, h5, h6, hvisible, hlater⟩ := hfollowing
  rw [← hrows] at hvisible hlater
  exact ⟨h1, h2, h3, h4, h5, h6, hvisible, hlater⟩

theorem mem_committed :
    row ∈ s.log.pending.filter (fun row => row.id = id && scope.finds accounts row) ↔
      row ∈ s.log.pending ∧ row.id = id ∧ scope.finds accounts row = true := by
  rw [List.mem_filter, Bool.and_eq_true, decide_eq_true_iff]

theorem mem_found_commit :
    row ∈ (s.log.commit id).rows.filter (scope.finds accounts) ↔
      row ∈ s.log.rows.filter (scope.finds accounts) ∨
        row ∈ s.log.pending.filter (fun row => row.id = id && scope.finds accounts row) := by
  rw [mem_committed, List.mem_filter, List.mem_filter]
  simp only [EventLog.commit, List.mem_append, List.mem_filter, decide_eq_true_iff]
  constructor
  · rintro ⟨hrow | ⟨hpending, hid⟩, hfinds⟩
    · exact .inl ⟨hrow, hfinds⟩
    · exact .inr ⟨hpending, hid, hfinds⟩
  · rintro (⟨hrow, hfinds⟩ | ⟨hpending, hid, hfinds⟩)
    · exact ⟨.inl hrow, hfinds⟩
    · exact ⟨.inr ⟨hpending, hid⟩, hfinds⟩

theorem Sound.commit (h : Sound accounts scope s)
    (hgood : CommitsInTime accounts scope s (.commit id)) :
    Sound accounts scope (s.commit accounts scope id) := by
  refine ⟨h.numbered.commit id, h.untold, h.greeting, ?_⟩
  intro read hread
  obtain ⟨told, htold, hfollowing⟩ := h.following read hread
  refine ⟨told, htold, hfollowing.told_le, hfollowing.sorted, hfollowing.received_le,
    hfollowing.transit, ?_, ?_, ?_, ?_⟩
  · intro row hrow
    rcases List.mem_append.1 hrow with hold | hnew
    · exact hfollowing.ahead row hold
    · obtain ⟨hpending, hid, hfinds⟩ := mem_committed.1 hnew
      exact .inr (hgood row hpending hid hfinds read hread)
  · intro row hrow
    exact List.mem_append_left _ (hfollowing.taken row hrow)
  · intro row hrow
    apply mem_found_commit.2
    rcases List.mem_append.1 hrow with hold | hnew
    · exact .inl (hfollowing.visible hold)
    · exact .inr hnew
  · intro row hrow
    obtain ⟨hfound, hbeyond⟩ := mem_eventsAfter.1 hrow
    apply List.mem_append.2
    rcases mem_found_commit.1 hfound with hold | hnew
    · exact .inl (hfollowing.later (mem_eventsAfter.2 ⟨hold, hbeyond⟩))
    · exact .inr hnew

/-! ## The steps of the stream -/

theorem Sound.connect (h : Sound accounts scope s) :
    Sound accounts scope (s.connect accounts scope) := by
  unfold EventSystem.connect
  split
  · exact h
  · next hclosed hlast =>
      refine ⟨h.numbered, h.untold, by simp, ?_⟩
      intro read hread
      have hbefore : s.horizon = some read := by
        unfold EventSystem.horizon
        rw [hclosed, hlast]
        exact hread
      obtain ⟨told, htold, hfollowing⟩ := h.following read hbefore
      have htransit : s.inTransit = [] := by simp [EventSystem.inTransit, hclosed]
      refine ⟨told, ?_, ?_⟩
      · simpa [EventSystem.floor, hclosed] using htold
      · obtain ⟨h1, h2, h3, h4, h5, h6, h7, h8⟩ := hfollowing
        rw [htransit] at h2 h4 h5 h6
        exact ⟨h1, h2, h3, h4, h5, h6, h7, h8⟩
  · next hclosed hlast =>
      refine ⟨h.numbered, h.untold, fun _ _ _ => hlast, ?_⟩
      intro read hread
      have hreceived := h.untold hlast
      obtain rfl := Option.some.inj hread
      refine ⟨_, rfl, le_rfl, ?_, ?_, ?_, ?_, ?_, ?_, fun _ hrow => hrow⟩
      · simp [EventSystem.startFresh, EventSystem.inTransit, hreceived]
      · simp [EventSystem.startFresh, hreceived]
      · simp [EventSystem.startFresh, EventSystem.inTransit]
      · intro row hrow
        exact .inr (mem_eventsAfter.1 hrow).2
      · simp [EventSystem.startFresh, EventSystem.inTransit, hreceived]
      · intro row hrow
        exact (mem_eventsAfter.1 hrow).1

theorem mem_listMailboxEventsAfter {last limit : Nat}
    (h : row ∈ listMailboxEventsAfter accounts scope (some last) limit rows) :
    row ∈ rows.filter (scope.finds accounts) ∧ last < row.id := by
  obtain ⟨hrow, hbeyond⟩ := Keyset.mem_of_mem_fetch h
  exact ⟨hrow, hbeyond last rfl⟩

section

variable (h : Sound accounts scope s)
include h

theorem Sound.poll : Sound accounts scope (s.poll accounts scope) := by
  unfold EventSystem.poll
  split
  · exact h
  next connection hopen =>
    refine ⟨h.numbered, h.untold, ?_, ?_⟩
    · intro opened hopened
      obtain rfl := Option.some.inj hopened
      exact h.greeting connection hopen
    intro read hread
    have hbefore : s.horizon = some connection.lastEventId := by
      unfold EventSystem.horizon
      rw [hopen]
    obtain ⟨told, htold, hfollowing⟩ := h.following _ hbefore
    have htransit : s.inTransit = connection.inTransit := by
      simp [EventSystem.inTransit, hopen]
    obtain rfl := Option.some.inj hread
    have hdistinct : ((s.log.rows.filter (scope.finds accounts)).map
        MailboxEventRecord.id).Nodup := h.numbered.distinctFound
    obtain ⟨hle, hsorted, hreceived, hunder, hahead, htaken, hvisible, hlater⟩ := hfollowing
    rw [htransit] at hsorted hunder hahead htaken
    have hrecords := Keyset.sorted_fetch hdistinct (max 1 (min streamLimit 500))
      (some connection.lastEventId)
    obtain ⟨hfrom, hto⟩ := Keyset.le_nextBound hrecords
      fun row hrow => (mem_listMailboxEventsAfter hrow).2
    have hsame : EventSystem.inTransit
        { s with
          connection := some
            { connection with
              lastEventId := Keyset.nextBound MailboxEventRecord.id connection.lastEventId
                (listMailboxEventsAfter accounts scope (some connection.lastEventId)
                  streamLimit s.log.rows)
              inTransit := connection.inTransit ++ listMailboxEventsAfter accounts scope
                (some connection.lastEventId) streamLimit s.log.rows } } =
        connection.inTransit ++ listMailboxEventsAfter accounts scope
          (some connection.lastEventId) streamLimit s.log.rows := rfl
    refine ⟨told, ?_, hle.trans hfrom, ?_, hreceived, ?_, ?_, ?_, hvisible, hlater⟩
    · simpa [EventSystem.floor, hopen] using htold
    · rw [hsame, ← List.append_assoc, List.pairwise_append]
      refine ⟨hsorted, hrecords, ?_⟩
      intro a ha b hb
      have hb' := (mem_listMailboxEventsAfter hb).2
      rcases List.mem_append.1 ha with ha | ha
      · exact lt_of_le_of_lt ((hreceived a ha).trans hle) hb'
      · exact lt_of_le_of_lt (hunder a ha).2 hb'
    · intro row hrow
      rw [hsame] at hrow
      rcases List.mem_append.1 hrow with hold | hnew
      · exact ⟨(hunder row hold).1, (hunder row hold).2.trans hfrom⟩
      · exact ⟨lt_of_le_of_lt hle (mem_listMailboxEventsAfter hnew).2, hto row hnew⟩
    · intro row hrow
      rw [hsame, ← List.append_assoc]
      rcases hahead row hrow with hin | hbeyond
      · exact .inl (List.mem_append_left _ hin)
      · rcases Keyset.mem_fetch_or_beyond hdistinct (hvisible hrow) hbeyond with hin | hout
        · exact .inl (List.mem_append_right _ hin)
        · exact .inr hout
    · intro row hrow
      rw [hsame, ← List.append_assoc] at hrow
      rcases List.mem_append.1 hrow with hold | hnew
      · exact htaken row hold
      · obtain ⟨hfound, hbeyond⟩ := mem_listMailboxEventsAfter hnew
        exact hlater (mem_eventsAfter.2 ⟨hfound, lt_of_le_of_lt hle hbeyond⟩)

theorem Sound.receive : Sound accounts scope s.receive := by
  unfold EventSystem.receive
  split
  · exact h
  · exact h
  · next lastEventId id inTransit hopen =>
      refine ⟨h.numbered, by simp, by simp, ?_⟩
      intro read hread
      have hbefore : s.horizon = some read := by
        unfold EventSystem.horizon
        rw [hopen]
        exact hread
      obtain ⟨told, htold, hfollowing⟩ := h.following read hbefore
      have htransit : s.inTransit = inTransit := by simp [EventSystem.inTransit, hopen]
      refine ⟨told, ?_, ?_⟩
      · simpa [EventSystem.floor, hopen] using htold
      · obtain ⟨h1, h2, h3, h4, h5, h6, h7, h8⟩ := hfollowing
        rw [htransit] at h2 h4 h5 h6
        exact ⟨h1, h2, h3, h4, h5, h6, h7, h8⟩
  · next lastEventId record inTransit hopen =>
      refine ⟨h.numbered, by simp, by simp, ?_⟩
      intro read hread
      have hbefore : s.horizon = some read := by
        unfold EventSystem.horizon
        rw [hopen]
        exact hread
      obtain ⟨told, htold, hfollowing⟩ := h.following read hbefore
      have htransit : s.inTransit = record :: inTransit := by
        simp [EventSystem.inTransit, hopen]
      obtain ⟨hle, hsorted, hreceived, hunder, hahead, htaken, hvisible, hlater⟩ := hfollowing
      rw [htransit] at hsorted hunder hahead htaken
      have hrecord := hunder record List.mem_cons_self
      have hmoved : s.received ++ record :: inTransit = (s.received ++ [record]) ++ inTransit :=
        (List.append_assoc s.received [record] inTransit).symm
      refine ⟨record.id, by simp [EventSystem.floor], hrecord.2, ?_, ?_, ?_, ?_, ?_, hvisible, ?_⟩
      · rw [hmoved] at hsorted
        exact hsorted
      · intro row hrow
        rcases List.mem_append.1 hrow with hold | hnew
        · exact (hreceived row hold).trans hrecord.1.le
        · obtain rfl := List.mem_singleton.1 hnew
          exact le_rfl
      · intro row hrow
        have hlt := (List.pairwise_cons.1 (List.pairwise_append.1 hsorted).2.1).1 row hrow
        exact ⟨hlt, (hunder row (List.mem_cons_of_mem _ hrow)).2⟩
      · intro row hrow
        rw [hmoved] at hahead
        exact hahead row hrow
      · intro row hrow
        rw [hmoved] at htaken
        exact htaken row hrow
      · intro row hrow
        obtain ⟨hfound, hbeyond⟩ := mem_eventsAfter.1 hrow
        exact hlater (mem_eventsAfter.2 ⟨hfound, hrecord.1.trans hbeyond⟩)

theorem Sound.disconnect : Sound accounts scope { s with connection := none } := by
  refine ⟨h.numbered, h.untold, by simp, ?_⟩
  intro told htold
  cases hopen : s.connection with
  | none =>
    obtain ⟨before, hbefore, hfollowing⟩ := h.following told (by
      unfold EventSystem.horizon
      rw [hopen]
      exact htold)
    have htransit : s.inTransit = [] := by simp [EventSystem.inTransit, hopen]
    refine ⟨before, ?_, ?_⟩
    · simpa [EventSystem.floor, hopen] using hbefore
    · obtain ⟨h1, h2, h3, h4, h5, h6, h7, h8⟩ := hfollowing
      rw [htransit] at h2 h4 h5 h6
      exact ⟨h1, h2, h3, h4, h5, h6, h7, h8⟩
  | some connection =>
    obtain ⟨before, hbefore, hfollowing⟩ := h.following connection.lastEventId (by
      unfold EventSystem.horizon
      rw [hopen]
      rfl)
    have hlast : s.lastMailboxEventID = some told := htold
    have hgreeted : connection.handshake = none := by
      by_contra hne
      rw [h.greeting connection hopen hne] at hlast
      cases hlast
    have hfloor : some told = some before := by
      simpa [EventSystem.floor, hopen, hgreeted, hlast] using hbefore
    obtain rfl := Option.some.inj hfloor
    have htransit : s.inTransit = connection.inTransit := by
      simp [EventSystem.inTransit, hopen]
    obtain ⟨hle, hsorted, hreceived, hunder, hahead, htaken, hvisible, hlater⟩ := hfollowing
    refine ⟨told, hlast, le_rfl, ?_, hreceived, ?_, ?_, ?_, hvisible, hlater⟩
    · simpa [EventSystem.inTransit] using (List.pairwise_append.1 hsorted).1
    · intro row hrow
      cases hrow
    · intro row hrow
      rcases hahead row hrow with hin | hbeyond
      · rcases List.mem_append.1 hin with hin | hin
        · exact .inl (List.mem_append_left _ hin)
        · exact .inr (hunder row hin).1
      · exact .inr (lt_of_le_of_lt hle hbeyond)
    · intro row hrow
      rcases List.mem_append.1 hrow with hin | hin
      · exact htaken row (List.mem_append_left _ hin)
      · cases hin

theorem Sound.step {l : EventStep}
    (hgood : CommitsInTime accounts scope s l) : Sound accounts scope (s.step accounts scope l) := by
  cases l with
  | insert event => exact h.withLog (h.numbered.insert accounts event) (EventLog.rows_insert _ _ _)
  | commit id => exact h.commit hgood
  | rollback id => exact h.withLog (h.numbered.rollback id) rfl
  | connect => exact h.connect
  | poll => exact h.poll
  | receive => exact h.receive
  | disconnect => exact h.disconnect

end

/-! ## Everything arrives -/

/-- An open stream over these rows, with no more than `unread` events left to read. -/
structure Reading (accounts : Accounts) (scope : StreamScope) (s : EventSystem)
    (table : List MailboxEventRecord) (unread : Nat) : Prop where
  numbered : s.log.Numbered
  rows : s.log.rows = table
  opened : s.connection ≠ none
  left : ∀ read ∈ s.horizon, (eventsAfter accounts scope read table).length ≤ unread

def EventSystem.frames (s : EventSystem) : Nat :=
  match s.connection with
  | none => 0
  | some connection => connection.handshake.toList.length + connection.inTransit.length

section Quiet

variable {table : List MailboxEventRecord} {unread : Nat}

theorem reading_connect (h : Sound accounts scope s) :
    Reading accounts scope (s.connect accounts scope) s.log.rows s.log.rows.length := by
  have hlog : (s.connect accounts scope).log = s.log := by
    unfold EventSystem.connect
    split <;> rfl
  refine ⟨h.connect.numbered, by rw [hlog], ?_, ?_⟩
  · unfold EventSystem.connect
    split
    · next hopen => simp [hopen]
    · simp
    · simp [EventSystem.startFresh]
  · intro read _
    exact (Keyset.beyond_sublist _ _).length_le.trans (List.length_filter_le _ _)

theorem Reading.poll (h : Reading accounts scope s table unread) :
    Reading accounts scope (s.poll accounts scope) table (unread - streamLimit) := by
  obtain ⟨connection, hopen⟩ := Option.ne_none_iff_exists'.1 h.opened
  have hbefore := h.left connection.lastEventId (by
    unfold EventSystem.horizon
    rw [hopen]
    rfl)
  have hdistinct : ((s.log.rows.filter (scope.finds accounts)).map
      MailboxEventRecord.id).Nodup := h.numbered.distinctFound
  have hless := Keyset.length_beyond_nextBound hdistinct (n := max 1 (min streamLimit 500))
    connection.lastEventId
  unfold EventSystem.poll
  rw [hopen]
  refine ⟨h.numbered, h.rows, by simp, ?_⟩
  intro read hread
  obtain rfl := Option.some.inj hread
  rw [← h.rows] at hbefore ⊢
  have hlimit : max 1 (min streamLimit 500) = streamLimit := rfl
  rw [hlimit] at hless
  exact hless.trans (Nat.sub_le_sub_right hbefore streamLimit)

theorem Reading.receive (h : Reading accounts scope s table unread) :
    Reading accounts scope s.receive table unread := by
  unfold EventSystem.receive
  split
  · exact h
  · exact h
  · next hopen =>
      refine ⟨h.numbered, h.rows, by simp, ?_⟩
      intro read hread
      apply h.left read
      unfold EventSystem.horizon
      rw [hopen]
      exact hread
  · next hopen =>
      refine ⟨h.numbered, h.rows, by simp, ?_⟩
      intro read hread
      apply h.left read
      unfold EventSystem.horizon
      rw [hopen]
      exact hread

theorem frames_receive (s : EventSystem) : s.receive.frames = s.frames - 1 := by
  unfold EventSystem.receive
  split
  · next hclosed => simp [EventSystem.frames, hclosed]
  · next hopen => simp [EventSystem.frames, hopen]
  · next hopen => simp [EventSystem.frames, hopen]
  · next hopen => simp [EventSystem.frames, hopen]

theorem Reading.polls (h : Reading accounts scope s table unread) (reads : Nat) :
    Reading accounts scope
      (after (EventSystem.step accounts scope) s (List.replicate reads .poll)) table
      (unread - streamLimit * reads) := by
  induction reads generalizing s unread with
  | zero => exact h
  | succ reads ih =>
    have hrest := ih h.poll
    have hunread : unread - streamLimit - streamLimit * reads =
        unread - streamLimit * (reads + 1) := by
      rw [Nat.mul_succ]
      omega
    rwa [hunread] at hrest

theorem Reading.receives (h : Reading accounts scope s table unread) (frames : Nat) :
    Reading accounts scope
        (after (EventSystem.step accounts scope) s (List.replicate frames .receive)) table unread ∧
      (after (EventSystem.step accounts scope) s (List.replicate frames .receive)).frames =
        s.frames - frames := by
  induction frames generalizing s with
  | zero => exact ⟨h, rfl⟩
  | succ frames ih =>
    obtain ⟨hrest, hframes⟩ := ih h.receive
    refine ⟨hrest, ?_⟩
    rw [frames_receive, Nat.sub_sub, Nat.add_comm 1 frames] at hframes
    exact hframes

end Quiet

theorem Sound.frames_le (h : Sound accounts scope s) : s.frames ≤ s.log.rows.length + 1 := by
  unfold EventSystem.frames
  split
  · exact Nat.zero_le _
  next connection hopen =>
    obtain ⟨told, htold, hfollowing⟩ := h.following connection.lastEventId (by
      unfold EventSystem.horizon
      rw [hopen]
      rfl)
    have htransit : s.inTransit = connection.inTransit := by
      simp [EventSystem.inTransit, hopen]
    have hsorted := (List.pairwise_append.1 hfollowing.sorted).2.1
    have hsub : s.inTransit.Subperm s.log.rows := by
      apply List.subperm_of_subset
      · exact hsorted.imp fun hlt heq => absurd (heq ▸ hlt) (lt_irrefl _)
      · intro row hrow
        have howed := hfollowing.taken row (List.mem_append_right _ hrow)
        exact (List.mem_filter.1 (hfollowing.visible howed)).1
    have hlength := hsub.length_le
    rw [htransit] at hlength
    have hgreeting : connection.handshake.toList.length ≤ 1 := by
      cases connection.handshake <;> simp
    omega

theorem mem_quiet {reads frames : Nat} {l : EventStep} (h : l ∈ quiet reads frames) :
    l = .connect ∨ l = .poll ∨ l = .receive := by
  rcases List.mem_cons.1 h with rfl | h
  · exact .inl rfl
  · rcases List.mem_append.1 h with h | h
    · exact .inr (.inl (List.eq_of_mem_replicate h))
    · exact .inr (.inr (List.eq_of_mem_replicate h))

theorem Sound.afterQuiet {ls : List EventStep} (h : Sound accounts scope s)
    (hls : ∀ l ∈ ls, l = .connect ∨ l = .poll ∨ l = .receive) :
    Sound accounts scope (after (EventSystem.step accounts scope) s ls) := by
  induction ls generalizing s with
  | nil => exact h
  | cons l ls ih =>
    have hgood : CommitsInTime accounts scope s l := by
      rcases hls l List.mem_cons_self with rfl | rfl | rfl <;> trivial
    exact ih (h.step hgood) fun l hl => hls l (List.mem_cons_of_mem _ hl)

theorem Sound.received_of_idle (h : Sound accounts scope s) {table : List MailboxEventRecord}
    (hreading : Reading accounts scope s table 0) (hframes : s.frames = 0) :
    s.received.Pairwise (fun a b => a.id < b.id) ∧ ∀ row, row ∈ s.received ↔ row ∈ s.owed := by
  obtain ⟨connection, hopen⟩ := Option.ne_none_iff_exists'.1 hreading.opened
  have hread : s.horizon = some connection.lastEventId := by
    unfold EventSystem.horizon
    rw [hopen]
  obtain ⟨told, -, hfollowing⟩ := h.following _ hread
  have hidle : s.inTransit = [] := by
    simp only [EventSystem.frames, hopen] at hframes
    have hlength : connection.inTransit.length = 0 := by omega
    simp [EventSystem.inTransit, hopen, List.eq_nil_of_length_eq_zero hlength]
  obtain ⟨hle, hsorted, -, -, hahead, htaken, hvisible, -⟩ := hfollowing
  rw [hidle, List.append_nil] at hsorted htaken hahead
  refine ⟨hsorted, ?_⟩
  intro row
  refine ⟨htaken row, ?_⟩
  intro howed
  rcases hahead row howed with hin | hbeyond
  · exact hin
  have hunread : row ∈ eventsAfter accounts scope connection.lastEventId table := by
    rw [← hreading.rows]
    exact mem_eventsAfter.2 ⟨hvisible howed, hbeyond⟩
  rw [List.eq_nil_of_length_eq_zero (Nat.le_zero.1 (hreading.left _ hread))] at hunread
  cases hunread

theorem Sound.deliversAll (h : Sound accounts scope s) : DeliversAll accounts scope s := by
  intro reads frames hreads hframes
  have hsplit : after (EventSystem.step accounts scope) s (quiet reads frames) =
      after (EventSystem.step accounts scope)
        (after (EventSystem.step accounts scope) (s.connect accounts scope)
          (List.replicate reads .poll)) (List.replicate frames .receive) :=
    after_append _ _ _
  have hpolls := (reading_connect h).polls reads
  rw [Nat.sub_eq_zero_of_le hreads] at hpolls
  obtain ⟨hreceives, hleft⟩ := hpolls.receives frames
  have hpolled : Sound accounts scope
      (after (EventSystem.step accounts scope) (s.connect accounts scope)
        (List.replicate reads .poll)) :=
    h.connect.afterQuiet fun l hl => .inr (.inl (List.eq_of_mem_replicate hl))
  have hfew := hpolled.frames_le
  rw [hpolls.rows] at hfew
  have hidle := Sound.received_of_idle
    (hpolled.afterQuiet fun l hl => .inr (.inr (List.eq_of_mem_replicate hl))) hreceives (by omega)
  simp only [hsplit]
  exact hidle

/-! ## An event that commits too late -/

structure Missed (row : MailboxEventRecord) (s : EventSystem) : Prop where
  owed : row ∈ s.owed
  notReceived : row ∉ s.received
  notInTransit : row ∉ s.inTransit
  behind : ∃ read ∈ s.horizon, row.id ≤ read

theorem Missed.connect (h : Missed row s) : Missed row (s.connect accounts scope) := by
  obtain ⟨howed, hreceived, htransit, read, hread, hle⟩ := h
  unfold EventSystem.connect
  split
  · exact ⟨howed, hreceived, htransit, read, hread, hle⟩
  · next hclosed hlast =>
      refine ⟨howed, hreceived, by simp [EventSystem.inTransit], read, ?_, hle⟩
      simpa [EventSystem.horizon, hclosed, hlast] using hread
  · next hclosed hlast => simp [EventSystem.horizon, hclosed, hlast] at hread

theorem Missed.poll (h : Missed row s) (hnumbered : s.log.Numbered) :
    Missed row (s.poll accounts scope) := by
  obtain ⟨howed, hreceived, htransit, read, hread, hle⟩ := h
  unfold EventSystem.poll
  split
  · exact ⟨howed, hreceived, htransit, read, hread, hle⟩
  next connection hopen =>
    have hlast : connection.lastEventId = read := by
      simpa [EventSystem.horizon, hopen] using hread
    have hdistinct : ((s.log.rows.filter (scope.finds accounts)).map
        MailboxEventRecord.id).Nodup := hnumbered.distinctFound
    have hfrom := (Keyset.le_nextBound
      (Keyset.sorted_fetch hdistinct (max 1 (min streamLimit 500)) (some connection.lastEventId))
      fun row hrow => (mem_listMailboxEventsAfter hrow).2).1
    refine ⟨howed, hreceived, ?_, _, rfl, (hle.trans hlast.ge).trans hfrom⟩
    intro hin
    rcases List.mem_append.1 hin with hold | hnew
    · exact htransit (by simpa [EventSystem.inTransit, hopen] using hold)
    · have hbeyond := (mem_listMailboxEventsAfter hnew).2
      omega

theorem Missed.receive (h : Missed row s) : Missed row s.receive := by
  obtain ⟨howed, hreceived, htransit, read, hread, hle⟩ := h
  unfold EventSystem.receive
  split
  · exact ⟨howed, hreceived, htransit, read, hread, hle⟩
  · exact ⟨howed, hreceived, htransit, read, hread, hle⟩
  · next hopen =>
      refine ⟨howed, hreceived, ?_, read, ?_, hle⟩
      · simpa [EventSystem.inTransit, hopen] using htransit
      · simpa [EventSystem.horizon, hopen] using hread
  · next record inTransit hopen =>
      have hout : row ∉ record :: inTransit := by
        simpa [EventSystem.inTransit, hopen] using htransit
      refine ⟨howed, ?_, ?_, read, ?_, hle⟩
      · intro hin
        rcases List.mem_append.1 hin with hin | hin
        · exact hreceived hin
        · exact hout (List.mem_singleton.1 hin ▸ List.mem_cons_self)
      · intro hin
        exact hout (List.mem_cons_of_mem _ hin)
      · simpa [EventSystem.horizon, hopen] using hread

theorem Missed.afterQuiet {ls : List EventStep} (h : Missed row s)
    (hnumbered : s.log.Numbered) (hls : ∀ l ∈ ls, l = .connect ∨ l = .poll ∨ l = .receive) :
    Missed row (after (EventSystem.step accounts scope) s ls) := by
  induction ls generalizing s with
  | nil => exact h
  | cons l ls ih =>
    have hrest : ∀ l ∈ ls, l = .connect ∨ l = .poll ∨ l = .receive :=
      fun l hl => hls l (List.mem_cons_of_mem _ hl)
    rcases hls l List.mem_cons_self with rfl | rfl | rfl
    · apply ih h.connect _ hrest
      simp only [EventSystem.connect]
      split <;> exact hnumbered
    · apply ih (h.poll hnumbered) _ hrest
      simp only [EventSystem.poll]
      split <;> exact hnumbered
    · apply ih h.receive _ hrest
      simp only [EventSystem.receive]
      split <;> exact hnumbered

theorem Sound.missed_of_late (h : Sound accounts scope s) {read : Nat}
    (hpending : row ∈ s.log.pending) (hfinds : scope.finds accounts row = true)
    (hread : read ∈ s.horizon) (hlate : row.id ≤ read) :
    Missed row (s.commit accounts scope row.id) := by
  obtain ⟨told, -, hfollowing⟩ := h.following read hread
  have hnew : row ∉ s.log.rows := by
    intro hrow
    have hdistinct := h.numbered.distinct
    rw [List.map_append, List.nodup_append] at hdistinct
    exact hdistinct.2.2 _ (List.mem_map_of_mem hpending) _ (List.mem_map_of_mem hrow) rfl
  have hout : row ∉ s.received ++ s.inTransit := by
    intro hin
    exact hnew (List.mem_filter.1 (hfollowing.visible (hfollowing.taken row hin))).1
  rw [List.mem_append, not_or] at hout
  refine ⟨?_, hout.1, hout.2, read, hread, hlate⟩
  exact List.mem_append_right _ (mem_committed.2 ⟨hpending, rfl, hfinds⟩)

/-- **Exactly the runs in which every event commits in time.** Throughout a run, a stream that is
left alone delivers each of its events exactly once and in the order of the ids, if and only if
no event of the stream commits after the stream has read a larger id or started beyond it. -/
theorem delivers_iff (accounts : Accounts) (scope : StreamScope) (ls : List EventStep) :
    Throughout (EventSystem.step accounts scope) (DeliversAll accounts scope) .initial ls ↔
      Along (EventSystem.step accounts scope) (CommitsInTime accounts scope) .initial ls := by
  apply throughout_iff_along (I := Sound accounts scope)
  · intro s h
    exact h.deliversAll
  · intro s l h hgood
    exact h.step hgood
  · intro s l h hdelivers
    cases l with
    | commit id =>
      intro row hpending hid hfinds read hread
      by_contra hlate
      obtain rfl := hid
      have hmissed := h.missed_of_late hpending hfinds hread (not_lt.1 hlate)
      have hnumbered := h.numbered.commit row.id
      obtain ⟨-, hall⟩ := hdelivers (s.log.commit row.id).rows.length
        ((s.log.commit row.id).rows.length + 1)
        (Nat.le_mul_of_pos_left _ (by decide)) (Nat.lt_succ_self _)
      have hafter : Missed row (after (EventSystem.step accounts scope)
          (s.commit accounts scope row.id) (quiet (s.log.commit row.id).rows.length
            ((s.log.commit row.id).rows.length + 1))) :=
        hmissed.afterQuiet hnumbered fun l hl => mem_quiet hl
      exact hafter.notReceived ((hall row).2 hafter.owed)
    | insert | rollback id | connect | poll | receive | disconnect => trivial
  · exact sound_initial

end Streaming

/-! ## Two transactions -/

def plainEvent : MailboxEventInsert := ⟨"u", none, "mailbox-changed", none, "\x7b\x7d", none, ""⟩

def onePrimary : Accounts := ⟨fun _ => some "a", true⟩

/-- The second of two events commits first, and is read before the other one commits. -/
def lateCommit : List EventStep :=
  [.connect, .insert plainEvent, .insert plainEvent, .commit 2, .poll, .receive, .receive,
    .commit 1]

theorem late_event_missed :
    ¬ ∀ (accounts : Accounts) (scope : StreamScope) (ls : List EventStep),
      Throughout (EventSystem.step accounts scope) (DeliversAll accounts scope) .initial ls := by
  intro h
  have hdelivers := (h onePrimary ⟨"u", none⟩ lateCommit).last
  obtain ⟨-, hall⟩ := hdelivers 1 4 (by decide +kernel) (by decide +kernel)
  have howed := (hall (insertedRow onePrimary 1 plainEvent)).2 (by decide +kernel)
  exact absurd howed (by decide +kernel)

end ElectronicMail.Events
