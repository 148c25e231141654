import ElectronicMail.Matters.Organizing

/-!
# Every processed message has a matter

The proof of `message_organized`. What one transaction does to the members and the
semantics of a message comes first; `OrganizingBase` are the keys, which every run keeps,
and `OrganizingKept` adds that no settled message waits, and that somebody is about to
assign every message that does.
-/

namespace ElectronicMail.Matters

open Foundations
open Foundations.Table
open Jobs (JobStatus)

variable {s : Tables} {g x : Nat}

/-! ## Members and semantics of a message -/

theorem hasMember_iff :
    s.hasMember g x = true ↔ ∃ r ∈ s.members, r.generationId = g ∧ r.messageId = x := by
  simp [Tables.hasMember]

theorem placed_iff (hs : Sound s) : s.Placed g x ↔ s.hasMember g x = true := by
  constructor
  · rintro ⟨r, hr, hof, _⟩
    exact hasMember_iff.2 ⟨r, hr, Member.isOf_iff.1 hof⟩
  intro h
  obtain ⟨r, hr, hg, hx⟩ := hasMember_iff.1 h
  refine ⟨r, hr, Member.isOf_iff.2 ⟨hg, hx⟩, ?_⟩
  intro r' hr' hof'
  obtain ⟨hg', hx'⟩ := Member.isOf_iff.1 hof'
  exact hs.unique r' hr' r hr (hg'.trans hg.symm) (hx'.trans hx.symm)

variable {a : Assignment} {locked : Option Nat} {s' : Tables}

theorem hasMember_written
    (hw : Written a locked s s') (h : s.hasMember g x = true) : s'.hasMember g x = true := by
  obtain ⟨r, hr, hg, hx⟩ := hasMember_iff.1 h
  rw [hasMember_iff, hw.members]
  unfold upsertMember
  by_cases hany : s.members.any
      (Member.isOf (a.row locked s).generationId (a.row locked s).messageId) = true
  · rw [if_pos hany]
    refine ⟨_, mem_updateWhere.2 ⟨r, hr, rfl⟩, ?_⟩
    by_cases hof : r.isOf (a.row locked s).generationId (a.row locked s).messageId = true
    · rw [if_pos hof]
      by_cases hlocked : r.membershipLocked = true
      · rw [if_pos hlocked]
        exact ⟨hg, hx⟩
      · rw [if_neg hlocked]
        exact ⟨hg, hx⟩
    · rw [if_neg hof]
      exact ⟨hg, hx⟩
  · rw [if_neg hany]
    exact ⟨r, List.mem_append_left _ hr, hg, hx⟩

theorem hasMember_assigned
    (hw : Written a locked s s') : s'.hasMember a.generationId a.messageId = true := by
  rw [hasMember_iff, hw.members]
  obtain ⟨r, hr, hof⟩ := exists_mem_upsertMember (a.row locked s) s.members
  exact ⟨r, hr, Member.isOf_iff.1 hof⟩

variable {g' : Nat}

theorem hasMember_merged {source target : Nat}
    (hm : Merged g source target s s') (h : s.hasMember g' x = true) :
    s'.hasMember g' x = true := by
  obtain ⟨r, hr, hg, hx⟩ := hasMember_iff.1 h
  rw [hasMember_iff, hm.members]
  refine ⟨_, mem_updateWhere.2 ⟨r, hr, rfl⟩, ?_⟩
  by_cases hsel : (r.isIn g source && !r.membershipLocked) = true
  · rw [if_pos hsel]
    exact ⟨hg, hx⟩
  · rw [if_neg hsel]
    exact ⟨hg, hx⟩

def Decision.Separates (d : Decision) (generationId messageId : Nat) : Prop :=
  d.decision = .separate ∧ generationId = d.generationId ∧ messageId ∈ d.messageIds

variable {d : Decision}

theorem hasMember_decided (hd : Decided d s s')
    (h : s.hasMember g x = true) : s'.hasMember g x = true ∨ d.Separates g x := by
  obtain ⟨r, hr, hg, hx⟩ := hasMember_iff.1 h
  by_cases hsel : d.selects r = true
  · obtain ⟨hsg, _, hsx⟩ := Member.isSelected_iff.1 hsel
    cases hdest : d.destination with
    | none =>
      right
      refine ⟨?_, hg.symm.trans hsg, hx ▸ hsx⟩
      unfold Decision.destination at hdest
      cases hk : d.decision <;> simp [hk] at hdest ⊢
    | some t =>
      left
      obtain ⟨r', hr', hg', hx', _⟩ := carryOut_locks hr hsel hdest
      rw [hasMember_iff, hd.members]
      exact ⟨r', hr', hg'.trans hg, hx'.trans hx⟩
  · left
    rw [Bool.not_eq_true] at hsel
    rw [hasMember_iff, hd.members]
    exact ⟨r, carryOut_keeps hr hsel, hg, hx⟩

variable {r : Semantics}

theorem semantics_decided {u : UserDecision} (hrecord : u.acceptedRecord s = some d)
    (hr : r ∈ (applyUserDecision u s).semantics) (hready : r.processingState = .ready) :
    r ∈ s.semantics ∧ ¬ d.Separates r.generationId r.messageId := by
  have hsem : (applyUserDecision u s).semantics = (d.carryOut s).semantics := by
    simp [applyUserDecision, hrecord, raiseRevision]
  rw [hsem] at hr
  unfold Decision.carryOut at hr
  cases hd : d.decision with
  | separate =>
    rw [hd] at hr
    obtain ⟨r₀, h₀, rfl⟩ := mem_updateWhere.1 hr
    by_cases hsel : (r₀.generationId == d.generationId && d.messageIds.contains r₀.messageId) = true
    · rw [if_pos hsel] at hready
      cases hready
    · rw [if_neg hsel]
      refine ⟨h₀, ?_⟩
      rintro ⟨_, hg, hx⟩
      exact hsel (by simp [hg, hx])
  | confirm | merge | move =>
    rw [hd] at hr
    exact ⟨hr, fun hsep => by simp [Decision.Separates, hd] at hsep⟩

theorem semanticsKeys_decided {u : UserDecision} (hrecord : u.acceptedRecord s = some d) :
    (applyUserDecision u s).semantics.map Semantics.key = s.semantics.map Semantics.key := by
  have hsem : (applyUserDecision u s).semantics = (d.carryOut s).semantics := by
    simp [applyUserDecision, hrecord, raiseRevision]
  rw [hsem]
  unfold Decision.carryOut
  cases d.decision with
  | separate => exact map_updateWhere fun _ _ _ => rfl
  | confirm | merge | move => rfl

theorem waits_iff :
    s.Waits g x ↔ (∃ r ∈ s.semantics, r.key = (g, x) ∧ r.processingState = .ready) ∧
      s.hasMember g x = false := by
  have hkey : ∀ r : Semantics, r.isOf g x = true ↔ r.key = (g, x) := by
    intro r
    simp [Semantics.key]
  unfold Tables.Waits
  simp only [hkey]

theorem waits_of (hready : ∀ r' ∈ s'.semantics, r'.key = (g, x) → r'.processingState = .ready →
      ∃ r ∈ s.semantics, r.key = r'.key ∧ r.processingState = .ready)
    (hmember : s.hasMember g x = true → s'.hasMember g x = true) (h : s'.Waits g x) :
    s.Waits g x := by
  obtain ⟨⟨r', hr', hkey, hr⟩, hnone⟩ := waits_iff.1 h
  obtain ⟨r, hmem, hkey', hrow⟩ := hready r' hr' hkey hr
  refine waits_iff.2 ⟨⟨r, hmem, hkey'.trans hkey, hrow⟩, ?_⟩
  rw [← Bool.not_eq_true]
  intro hhas
  rw [hmember hhas] at hnone
  cases hnone

variable {x' : Nat}

theorem waits_failMessageSemantics
    (h : (failMessageSemantics g x s).Waits g' x') : s.Waits g' x' ∧ ¬ (g' = g ∧ x' = x) := by
  obtain ⟨⟨r', hr', hkey, hr⟩, hnone⟩ := waits_iff.1 h
  obtain ⟨r, hmem, rfl⟩ := mem_updateWhere.1 hr'
  by_cases hof : r.isOf g x = true
  · rw [if_pos hof] at hr
    cases hr
  · rw [if_neg hof] at hkey hr
    refine ⟨waits_iff.2 ⟨⟨r, hmem, hkey, hr⟩, hnone⟩, ?_⟩
    rintro ⟨rfl, rfl⟩
    obtain ⟨hg, hx⟩ := Prod.mk.inj hkey
    exact hof (Semantics.isOf_iff.2 ⟨hg, hx⟩)

variable {reading : Reading}

theorem waits_completeMessageSemantics (h : (completeMessageSemantics g x reading s).Waits g' x') :
    s.Waits g' x' ∨ (g' = g ∧ x' = x ∧ ∃ r ∈ s.semantics, r.isOf g x = true) := by
  obtain ⟨⟨r', hr', hkey, hr⟩, hnone⟩ := waits_iff.1 h
  obtain ⟨r, hmem, rfl⟩ := mem_updateWhere.1 hr'
  by_cases hof : r.isOf g x = true
  · rw [if_pos hof] at hkey
    obtain ⟨hg, hx⟩ := Semantics.isOf_iff.1 hof
    obtain ⟨hg', hx'⟩ := Prod.mk.inj hkey
    have hg' : r.generationId = g' := hg'
    have hx' : r.messageId = x' := hx'
    exact Or.inr ⟨hg'.symm.trans hg, hx'.symm.trans hx, r, hmem, hof⟩
  · rw [if_neg hof] at hkey hr
    exact Or.inl (waits_iff.2 ⟨⟨r, hmem, hkey, hr⟩, hnone⟩)

/-! ## The keys -/

def AiJob.key (j : AiJob) : Nat × Nat × AiJobKind := (j.id, j.generationId, j.kind)

/-- The keys of the tables: every row of semantics is one of a message and a generation. -/
structure TablesKeyed (s : Tables) : Prop where
  sound : Sound s
  generations : ∀ g ∈ s.generations, g.id < s.nextId
  keys : (s.semantics.map Semantics.key).Nodup
  housed : ∀ k ∈ s.semantics.map Semantics.key, s.hasText k.1 k.2 = true
  jobs : JobsSound s

theorem JobsSound.of_jobs (h : JobsSound s) (hjobs : s'.jobs = s.jobs)
    (hnext : s.nextId ≤ s'.nextId) : JobsSound s' where
  ids := by
    rw [hjobs]
    exact h.ids
  below := by
    rw [hjobs]
    exact fun j hj => lt_of_lt_of_le (h.below j hj) hnext
  ordered := by
    rw [hjobs]
    exact h.ordered

section

variable (h : TablesKeyed s)
include h

theorem TablesKeyed.of (hsound : Sound s')
    (hgenerations : s'.generations = s.generations) (hmessages : s'.messages = s.messages)
    (hkeys : s'.semantics.map Semantics.key = s.semantics.map Semantics.key)
    (hnext : s.nextId ≤ s'.nextId) (hjobs : JobsSound s') : TablesKeyed s' where
  sound := hsound
  generations := by
    rw [hgenerations]
    exact fun g hg => lt_of_lt_of_le (h.generations g hg) hnext
  keys := by
    rw [hkeys]
    exact h.keys
  housed := by
    rw [hkeys]
    intro k hk
    have htext := h.housed k hk
    unfold Tables.hasText at htext ⊢
    rw [hmessages, hgenerations]
    exact htext
  jobs := hjobs

theorem TablesKeyed.of_jobs (hjobs : JobsSound s') (hframe : s' = { s with jobs:= s'.jobs, nextId := s'.nextId })
    (hnext : s.nextId ≤ s'.nextId) : TablesKeyed s' := by
  rw [hframe] at hjobs ⊢
  refine h.of ?_ rfl rfl rfl hnext hjobs
  exact h.sound.rewrite h.sound.unique h.sound.below rfl hnext h.sound.housed

theorem tablesKeyed_enqueue (g : Nat) (kind : AiJobKind) : TablesKeyed (enqueueAiJob g kind s) := by
  have hjobs := jobsSound_enqueue h.jobs g kind
  unfold enqueueAiJob at hjobs ⊢
  by_cases hany : (s.jobsOf g kind).any (fun j => j.status.isActive) = true
  · rw [if_pos hany]
    exact h
  · rw [if_neg hany] at hjobs ⊢
    exact h.of_jobs hjobs rfl (Nat.le_succ _)

theorem tablesKeyed_startJob (i : Nat) : TablesKeyed (startJob i s) :=
  h.of_jobs (jobsSound_startJob h.jobs i) rfl (Nat.le_refl _)

theorem tablesKeyed_closeJob (i : Nat) (status : JobStatus) : TablesKeyed (closeJob i status s) :=
  h.of_jobs (jobsSound_closeJob h.jobs i status) rfl (Nat.le_refl _)

theorem TablesKeyed.of_semantics {rows : List Semantics}
    (hkeys : rows.map Semantics.key = s.semantics.map Semantics.key) :
    TablesKeyed { s with semantics := rows } := by
  refine h.of ?_ rfl rfl hkeys (Nat.le_refl _) (h.jobs.of_jobs rfl (Nat.le_refl _))
  exact (SameRows.mk rfl rfl rfl : SameRows s { s with semantics := rows }).sound h.sound

theorem tablesKeyed_complete (g x : Nat) (reading : Reading) :
    TablesKeyed (completeMessageSemantics g x reading s) :=
  h.of_semantics (map_updateWhere fun _ _ _ => rfl)

theorem tablesKeyed_fail (g x : Nat) : TablesKeyed (failMessageSemantics g x s) :=
  h.of_semantics (map_updateWhere fun _ _ _ => rfl)

end

variable {go : Bool}

theorem tablesKeyed_begin
    (h : TablesKeyed s) (hbegin : beginMessageProcessing g x reading s = some (s', go)) :
    TablesKeyed s' := by
  obtain ⟨hkeys, _⟩ := beginMessageProcessing_rows hbegin
  rw [beginMessageProcessing_frame hbegin]
  rcases hkeys with hkeys | ⟨htext, hnew, hkeys⟩
  · exact h.of_semantics hkeys
  constructor
  · exact (SameRows.mk rfl rfl rfl : SameRows s { s with semantics := s'.semantics }).sound h.sound
  · exact h.generations
  · show (s'.semantics.map Semantics.key).Nodup
    rw [hkeys, List.nodup_append]
    refine ⟨h.keys, by simp, ?_⟩
    intro k hk k' hk' heq
    rw [heq, List.mem_singleton.1 hk'] at hk
    exact hnew hk
  · intro k hk
    replace hk : k ∈ s'.semantics.map Semantics.key := hk
    rw [hkeys, List.mem_append, List.mem_singleton] at hk
    rcases hk with hk | rfl
    · exact h.housed k hk
    · exact htext
  · exact h.jobs.of_jobs rfl (Nat.le_refl _)

theorem tablesKeyed_write
    (h : TablesKeyed s) (hwrite : writeAssignment a locked s = some s') : TablesKeyed s' := by
  have hw := writeAssignment_written hwrite
  have hnext := Nat.le_of_lt hw.nextId
  refine h.of (sound_writeAssignment h.sound h.generations hwrite) hw.generations hw.messages ?_
    hnext (h.jobs.of_jobs hw.jobs hnext)
  rw [hw.semantics]

theorem tablesKeyed_decide (h : TablesKeyed s) (u : UserDecision) :
    TablesKeyed (applyUserDecision u s) := by
  rcases applyUserDecision_cases u s with ⟨_, hsame⟩ | ⟨d, hrecord, hd⟩
  · rw [hsame]
    exact h
  · have hnext : s.nextId ≤ (applyUserDecision u s).nextId := by
      rw [hd.nextId]
      exact Nat.le_succ _
    exact h.of (sound_decided h.sound (accepted_of_record hrecord) hd) hd.generations hd.messages
      (semanticsKeys_decided hrecord) hnext (h.jobs.of_jobs hd.jobs hnext)

theorem tablesKeyed_merge (h : TablesKeyed s) (g source target : Nat)
    (status : MatterStatus) : TablesKeyed (mergeReconciledMatters g source target status s) := by
  rcases mergeReconciledMatters_cases g source target status s with hsame | hm
  · rw [hsame]
    exact h
  · refine h.of (sound_merged h.sound hm) hm.generations hm.messages ?_ hm.nextId
      (h.jobs.of_jobs hm.jobs hm.nextId)
    rw [hm.semantics]

/-! ## Runs -/

/-- The keys of the tables and of the workers: a worker works for a job that is there, and a
job is about a revision that has been read. -/
structure OrganizingKeyed (w : Organizing) : Prop where
  tables : TablesKeyed w.tables
  revisions : ∀ k ∈ w.tables.jobs.map AiJob.key, ∀ x revision,
    k.2.2 = .organize x revision → revision ≤ (w.texts x).contentRevision
  workers : (w.organizers.map Organizer.id).Nodup
  employed : ∀ o ∈ w.organizers, ∃ revision,
    (o.jobId, o.generationId, .organize o.messageId revision) ∈ w.tables.jobs.map AiJob.key

/-- No message that is settled waits, and somebody is about to assign every one that does. -/
structure OrganizingKept (w : Organizing) : Prop where
  keyed : OrganizingKeyed w
  placed : ∀ g x, w.Settled g x → ¬ w.tables.Waits g x
  waiting : ∀ g x, w.tables.Waits g x → w.IsAssigning g x

variable {w : Organizing}

theorem OrganizingKept.of {w' : Organizing} (h : OrganizingKept w) (hkeyed : OrganizingKeyed w')
    (hsettled : ∀ g x, w'.Settled g x → w.Settled g x)
    (hwaits : ∀ g x, w'.tables.Waits g x → w.tables.Waits g x)
    (hassigning : ∀ g x, w.IsAssigning g x → w'.tables.Waits g x → w'.IsAssigning g x) :
    OrganizingKept w' where
  keyed := hkeyed
  placed := fun g x hs hw => h.placed g x (hsettled g x hs) (hwaits g x hw)
  waiting := fun g x hw => hassigning g x (h.waiting g x (hwaits g x hw)) hw

theorem OrganizingKeyed.of {w' : Organizing} (h : OrganizingKeyed w)
    (htables : TablesKeyed w'.tables)
    (hjobs : w'.tables.jobs.map AiJob.key = w.tables.jobs.map AiJob.key)
    (htexts : ∀ x, (w.texts x).contentRevision ≤ (w'.texts x).contentRevision)
    (hworkers : (w'.organizers.map Organizer.id).Nodup)
    (hemployed : ∀ o' ∈ w'.organizers, ∃ o ∈ w.organizers, o'.jobId = o.jobId ∧
      o'.generationId = o.generationId ∧ o'.messageId = o.messageId) : OrganizingKeyed w' where
  tables := htables
  revisions := by
    rw [hjobs]
    exact fun k hk x revision hkind =>
      Nat.le_trans (h.revisions k hk x revision hkind) (htexts x)
  workers := hworkers
  employed := by
    rw [hjobs]
    intro o' ho'
    obtain ⟨o, ho, hjob, hg, hx⟩ := hemployed o' ho'
    rw [hjob, hg, hx]
    exact h.employed o ho

variable {k : Nat} {o : Organizer}

/-! ### Workers that go on and workers that leave -/

theorem organizer_mem (h : w.organizer k = some o) : o ∈ w.organizers ∧ o.id = k :=
  ⟨List.mem_of_find?_eq_some h, by simpa using List.find?_some h⟩

variable {o' : Organizer}

theorem OrganizingKeyed.organizer_unique (h : OrganizingKeyed w)
    (ho : w.organizer k = some o) (ho' : o' ∈ w.organizers) (hid : o'.id = k) :
    o' = o := by
  obtain ⟨hmem, hk⟩ := organizer_mem ho
  exact row_unique Organizer.id h.workers ho' hmem (hid.trans hk.symm)

theorem goOn_ids (w : Organizing) (k : Nat) (stage : OrganizeStage) :
    (w.goOn k stage).map Organizer.id = w.organizers.map Organizer.id :=
  map_updateWhere fun _ _ _ => rfl

variable {stage : OrganizeStage}

theorem mem_goOn (h : o' ∈ w.goOn k stage) : ∃ o ∈ w.organizers, o'.jobId = o.jobId ∧
      o'.generationId = o.generationId ∧ o'.messageId = o.messageId := by
  obtain ⟨o, ho, rfl⟩ := mem_updateWhere.1 h
  refine ⟨o, ho, ?_⟩
  by_cases hk : (o.id == k) = true
  · rw [if_pos hk]
    exact ⟨rfl, rfl, rfl⟩
  · rw [if_neg hk]
    exact ⟨rfl, rfl, rfl⟩

theorem goOn_keeps (h : o ∈ w.organizers) (hk : o.id ≠ k) : o ∈ w.goOn k stage := by
  refine mem_updateWhere.2 ⟨o, h, ?_⟩
  simp [hk]

theorem without_keeps (h : o ∈ w.organizers) (hk : o.id ≠ k) : o ∈ w.without k :=
  List.mem_filter.2 ⟨h, by simp [hk]⟩

theorem without_nodup (h : OrganizingKeyed w) (k : Nat) : ((w.without k).map Organizer.id).Nodup :=
  h.workers.sublist (List.filter_sublist.map Organizer.id)

theorem mem_without (h : o' ∈ w.without k) :
    ∃ o ∈ w.organizers, o'.jobId = o.jobId ∧ o'.generationId = o.generationId ∧
      o'.messageId = o.messageId :=
  ⟨o', List.mem_of_mem_filter h, rfl, rfl, rfl⟩

theorem isAssigning_cases (hw : OrganizingKeyed w)
    (ho : w.organizer k = some o) (h : w.IsAssigning g x) :
    (o.stage = .completed ∧ o.generationId = g ∧ o.messageId = x) ∨
      ∃ o' ∈ w.organizers, o'.id ≠ k ∧ o'.generationId = g ∧ o'.messageId = x ∧
        o'.stage = .completed := by
  obtain ⟨o', hmem, hg, hx, hstage⟩ := h
  by_cases hk : o'.id = k
  · rw [hw.organizer_unique ho hmem hk] at hg hx hstage
    exact Or.inl ⟨hstage, hg, hx⟩
  · exact Or.inr ⟨o', hmem, hk, hg, hx, hstage⟩

theorem isAssigning_goOn (hw : OrganizingKeyed w)
    (ho : w.organizer k = some o) (hstage : o.stage ≠ .completed)
    (h : w.IsAssigning g x) (s : Tables) (stage : OrganizeStage) :
    Organizing.IsAssigning { w with tables := s, organizers := w.goOn k stage } g x := by
  rcases isAssigning_cases hw ho h with ⟨hcompleted, _⟩ | ⟨o', hmem, hk, hrest⟩
  · exact absurd hcompleted hstage
  · exact ⟨o', goOn_keeps hmem hk, hrest⟩

section

variable (h : OrganizingKeyed w) (hs : TablesKeyed s)
include h hs

theorem OrganizingKeyed.goOn (hjobs : s.jobs = w.tables.jobs) (k : Nat) (stage : OrganizeStage) :
    OrganizingKeyed { w with tables := s, organizers := w.goOn k stage } := by
  refine h.of hs (congrArg _ hjobs) (fun _ => Nat.le_refl _) ?_ fun _ ho => mem_goOn ho
  show ((w.goOn k stage).map Organizer.id).Nodup
  rw [goOn_ids]
  exact h.workers

theorem OrganizingKeyed.without (hjobs : s.jobs.map AiJob.key = w.tables.jobs.map AiJob.key) (k : Nat) :
    OrganizingKeyed { w with tables := s, organizers := w.without k } :=
  h.of hs hjobs (fun _ => Nat.le_refl _) (without_nodup h k) fun _ ho => mem_without ho

theorem OrganizingKeyed.withTables (hjobs : s.jobs = w.tables.jobs) :
    OrganizingKeyed { w with tables := s } :=
  h.of hs (congrArg _ hjobs) (fun _ => Nat.le_refl _) h.workers fun o ho => ⟨o, ho, rfl, rfl, rfl⟩

end

theorem doneWith_of_jobs (hjobs : s'.jobs = s.jobs) {kind : AiJobKind}
    (h : s'.DoneWith g kind) : s.DoneWith g kind := by
  unfold Tables.DoneWith Tables.jobsOf at h ⊢
  rw [← hjobs]
  exact h

/-! ### The steps -/

theorem kept_enqueues (h : OrganizingKept w) (g x revision : Nat) :
    OrganizingKept (w.step (.enqueues g x revision)) := by
  unfold Organizing.step
  by_cases hread : revision ≤ (w.texts x).contentRevision
  · simp only [hread, if_true]
    have hframe : ∀ g' x', (enqueueAiJob g (.organize x revision) w.tables).Waits g' x' →
        w.tables.Waits g' x' := by
      unfold enqueueAiJob
      by_cases hany : (w.tables.jobsOf g (.organize x revision)).any
          (fun j => j.status.isActive) = true
      · rw [if_pos hany]
        exact fun _ _ hwait => hwait
      · rw [if_neg hany]
        exact fun _ _ hwait => hwait
    refine h.of ?_ (fun g' x' hs => doneWith_enqueue h.keyed.tables.jobs hs) hframe
      fun g' x' ha _ => ha
    have hjobs : ∀ k ∈ (enqueueAiJob g (.organize x revision) w.tables).jobs.map AiJob.key,
        k ∈ w.tables.jobs.map AiJob.key ∨ k.2.2 = .organize x revision := by
      unfold enqueueAiJob
      by_cases hany : (w.tables.jobsOf g (.organize x revision)).any
          (fun j => j.status.isActive) = true
      · rw [if_pos hany]
        exact fun k hk => Or.inl hk
      rw [if_neg hany]
      intro k hk
      rw [List.map_append, List.mem_append] at hk
      refine hk.imp id fun hk => ?_
      rw [List.mem_singleton.1 hk]
      rfl
    have hkeeps : ∀ k ∈ w.tables.jobs.map AiJob.key,
        k ∈ (enqueueAiJob g (.organize x revision) w.tables).jobs.map AiJob.key := by
      unfold enqueueAiJob
      by_cases hany : (w.tables.jobsOf g (.organize x revision)).any
          (fun j => j.status.isActive) = true
      · rw [if_pos hany]
        exact fun k hk => hk
      · rw [if_neg hany]
        intro k hk
        rw [List.map_append]
        exact List.mem_append_left _ hk
    refine ⟨tablesKeyed_enqueue h.keyed.tables _ _, ?_, h.keyed.workers, ?_⟩
    · intro k hk x' revision' hkind
      rcases hjobs k hk with hold | hnew
      · exact h.keyed.revisions k hold x' revision' hkind
      · obtain ⟨rfl, rfl⟩ := AiJobKind.organize.inj (hnew.symm.trans hkind)
        exact hread
    · intro o ho
      obtain ⟨revision', hk⟩ := h.keyed.employed o ho
      exact ⟨revision', hkeeps _ hk⟩
  · simp only [hread, if_false]
    exact h

theorem not_done_of_unread (h : OrganizingKeyed w) {revision : Nat}
    (hlt : (w.texts x).contentRevision < revision) :
    ¬ w.tables.DoneWith g (.organize x revision) := by
  rintro ⟨_, hlast⟩
  obtain ⟨j, hj, _⟩ := Option.map_eq_some_iff.1 hlast
  obtain ⟨hmem, _, hkind⟩ := mem_jobsOf.1 (List.mem_of_getLast? hj)
  have := h.revisions _ (List.mem_map.2 ⟨j, hmem, rfl⟩) x revision hkind
  omega

theorem kept_revises (h : OrganizingKept w) (x : Nat) (hash : String) :
    OrganizingKept (w.step (.revises x hash)) := by
  have hgrows : ∀ x', (w.texts x').contentRevision ≤
      ((w.step (.revises x hash)).texts x').contentRevision := by
    intro x'
    by_cases hx : x' = x
    · subst hx
      simp [Organizing.step]
    · simp [Organizing.step, hx]
  refine h.of ?_ ?_ (fun _ _ hwait => hwait) fun _ _ ha _ => ha
  · exact h.keyed.of h.keyed.tables rfl hgrows h.keyed.workers fun o ho => ⟨o, ho, rfl, rfl, rfl⟩
  intro g x' hs
  by_cases hx : x' = x
  · subst hx
    refine absurd hs (not_done_of_unread h.keyed ?_)
    simp [Organizing.step]
  · have hsame : (w.step (.revises x hash)).texts x' = w.texts x' := by
      simp [Organizing.step, hx]
    unfold Organizing.Settled at hs ⊢
    rw [hsame] at hs
    exact hs

theorem startJob_keys (i : Nat) (s : Tables) :
    (startJob i s).jobs.map AiJob.key = s.jobs.map AiJob.key :=
  map_updateWhere fun _ _ _ => rfl

theorem closeJob_keys (i : Nat) (status : JobStatus) (s : Tables) :
    (closeJob i status s).jobs.map AiJob.key = s.jobs.map AiJob.key :=
  map_updateWhere fun _ _ _ => rfl

section

variable (h : OrganizingKept w)
include h

theorem kept_claims (k jobId : Nat) : OrganizingKept (w.step (.claims k jobId)) := by
  simp only [Organizing.step]
  split
  · next id x revision g status hk hjob =>
      have hmem := List.mem_of_find?_eq_some hjob
      have hid : jobId = id := by
        have := List.find?_some hjob
        simp only [Bool.and_eq_true, beq_iff_eq] at this
        exact this.1.symm
      refine h.of ?_ ?_ (fun _ _ hwait => hwait) ?_
      · refine ⟨tablesKeyed_startJob h.keyed.tables jobId, ?_, ?_, ?_⟩
        · rw [startJob_keys]
          exact h.keyed.revisions
        · rw [List.map_cons, List.nodup_cons]
          refine ⟨?_, h.keyed.workers⟩
          intro hin
          obtain ⟨o, ho, hok⟩ := List.mem_map.1 hin
          refine List.find?_eq_none.1 hk o ho ?_
          simpa using hok
        · rw [startJob_keys]
          intro o ho
          rcases List.mem_cons.1 ho with rfl | ho
          · exact ⟨revision, List.mem_map.2 ⟨_, hmem, by rw [AiJob.key, hid]⟩⟩
          · exact h.keyed.employed o ho
      · exact fun g' x' hs => doneWith_startJob h.keyed.tables.jobs hs
      · rintro g' x' ⟨o, ho, hrest⟩ _
        exact ⟨o, List.mem_cons_of_mem _ ho, hrest⟩
  · exact h

theorem kept_goOn (ho : w.organizer k = some o) (hstage : o.stage ≠ .completed) (stage : OrganizeStage) :
    OrganizingKept { w with organizers := w.goOn k stage } :=
  h.of (h.keyed.goOn h.keyed.tables rfl k stage) (fun _ _ hs => hs) (fun _ _ hwait => hwait)
    fun _ _ ha _ => isAssigning_goOn h.keyed ho hstage ha w.tables stage

theorem kept_reads (k : Nat) : OrganizingKept (w.step (.reads k)) := by
  simp only [Organizing.step]
  split
  · next ho =>
      split
      · exact kept_goOn h ho (by simp) _
      · exact kept_goOn h ho (by simp) _
  · exact h

theorem kept_returns (k : Nat) : OrganizingKept (w.step (.returns k)) := by
  simp only [Organizing.step]
  split
  · next ho => exact kept_goOn h ho (by simp) _
  · exact h

theorem kept_begun (ho : w.organizer k = some o)
    (hstage : o.stage ≠ .completed)
    (hbegin : beginMessageProcessing g x reading w.tables = some (s, go)) (stage : OrganizeStage) :
    OrganizingKept { w with tables := s, organizers := w.goOn k stage } := by
  have hframe := beginMessageProcessing_frame hbegin
  have hjobs : s.jobs = w.tables.jobs := by rw [hframe]
  refine h.of (h.keyed.goOn (tablesKeyed_begin h.keyed.tables hbegin) hjobs k stage) ?_ ?_ ?_
  · exact fun g' x' hs => doneWith_of_jobs hjobs hs
  · intro g' x' hwait
    refine waits_of (fun r' hr' _ => (beginMessageProcessing_rows hbegin).2 r' hr') ?_ hwait
    unfold Tables.hasMember
    rw [hframe]
    exact id
  · exact fun g' x' ha _ => isAssigning_goOn h.keyed ho hstage ha s stage

theorem kept_begins (k : Nat) : OrganizingKept (w.step (.begins k)) := by
  simp only [Organizing.step]
  split
  · next ho =>
      split
      · exact h
      · next hbegin => exact kept_begun h ho (by simp) hbegin _
      · next hbegin => exact kept_begun h ho (by simp) hbegin _
  · exact h

theorem kept_completes (hgood : CompletesOpen w k) : OrganizingKept (w.step (.completes k)) := by
  simp only [Organizing.step]
  split
  · next id jobId g x reading ho =>
      have hwaits : ∀ g' x', (completeMessageSemantics g x reading w.tables).Waits g' x' →
          w.tables.Waits g' x' ∨ (g' = g ∧ x' = x ∧ ¬ w.Settled g x) := by
        intro g' x' hwait
        rcases waits_completeMessageSemantics hwait with hold | ⟨rfl, rfl, hrow⟩
        · exact Or.inl hold
        · exact Or.inr ⟨rfl, rfl, hgood _ ho ⟨reading, rfl⟩ hrow hwait.2⟩
      refine ⟨?_, ?_, ?_⟩
      · exact h.keyed.goOn (tablesKeyed_complete h.keyed.tables g x reading) rfl k .completed
      · intro g' x' hs hwait
        rcases hwaits g' x' hwait with hold | ⟨rfl, rfl, hopen⟩
        · exact h.placed g' x' hs hold
        · exact hopen hs
      · intro g' x' hwait
        rcases hwaits g' x' hwait with hold | ⟨rfl, rfl, _⟩
        · exact isAssigning_goOn h.keyed ho (by simp) (h.waiting g' x' hold) _ _
        · obtain ⟨hmem, hid⟩ := organizer_mem ho
          refine ⟨_, mem_updateWhere.2 ⟨_, hmem, rfl⟩, ?_⟩
          simp [show id = k from hid]
  · exact h

theorem kept_assigns (k : Nat) (a : Assignment)
    (locked : Option Nat) : OrganizingKept (w.step (.assigns k a locked)) := by
  simp only [Organizing.step]
  split
  · next o ho =>
      split
      · split
        · exact h
        · next s hwrite =>
            have hw := writeAssignment_written hwrite
            refine h.of (h.keyed.goOn (tablesKeyed_write h.keyed.tables hwrite) hw.jobs k _) ?_ ?_ ?_
            · exact fun g x hs => doneWith_of_jobs hw.jobs hs
            · intro g x hwait
              refine waits_of ?_ (hasMember_written hw) hwait
              rw [hw.semantics]
              exact fun r hr _ hready => ⟨r, hr, rfl, hready⟩
            · intro g x ha hwait
              rcases isAssigning_cases h.keyed ho ha with ⟨_, rfl, rfl⟩ | ⟨o', hmem, hk, hrest⟩
              · have hnone := hwait.2
                have hmember := hasMember_assigned hw
                simp only [Organizer.assignment] at hmember
                rw [hmember] at hnone
                cases hnone
              · exact ⟨o', goOn_keeps hmem hk, hrest⟩
      · exact h
  · exact h

end

/-! A report writes nothing but the status of a job. -/

theorem report_cases (w : Organizing) (o : Organizer) (status : JobStatus) (s : Tables) :
    (w.holders o.jobId = some o.id ∧ w.report o status s = closeJob o.jobId status s) ∨
      w.report o status s = s := by
  unfold Organizing.report
  by_cases hholds : w.holders o.jobId = some o.id
  · rw [if_pos hholds]
    exact Or.inl ⟨hholds, rfl⟩
  · rw [if_neg hholds]
    exact Or.inr rfl

theorem report_keys (w : Organizing) (o : Organizer) (status : JobStatus) (s : Tables) :
    (w.report o status s).jobs.map AiJob.key = s.jobs.map AiJob.key := by
  rcases report_cases w o status s with ⟨_, heq⟩ | heq
  · rw [heq, closeJob_keys]
  · rw [heq]

theorem tablesKeyed_report (h : TablesKeyed s) (w : Organizing) (o : Organizer)
    (status : JobStatus) : TablesKeyed (w.report o status s) := by
  rcases report_cases w o status s with ⟨_, heq⟩ | heq
  · rw [heq]
    exact tablesKeyed_closeJob h o.jobId status
  · rw [heq]
    exact h

@[simp]
theorem waits_report {status : JobStatus} : (w.report o status s).Waits g x ↔ s.Waits g x := by
  rcases report_cases w o status s with ⟨_, heq⟩ | heq
  · rw [heq]
    rfl
  · rw [heq]

theorem doneWith_reportFailed {requeue : Bool} (hs : JobsSound s) {kind : AiJobKind}
    (h : (w.report o (failedStatus requeue) s).DoneWith g kind) : s.DoneWith g kind := by
  rcases report_cases w o (failedStatus requeue) s with ⟨_, heq⟩ | heq
  · rw [heq] at h
    exact doneWith_closeFailed hs h
  · rw [heq] at h
    exact h

theorem kept_fails (h : OrganizingKept w) (k : Nat) (requeue : Bool) :
    OrganizingKept (w.step (.fails k requeue)) := by
  simp only [Organizing.step]
  split
  · next o ho =>
      split
      · have htables := tablesKeyed_fail h.keyed.tables o.generationId o.messageId
        refine h.of ?_ ?_ ?_ ?_
        · exact h.keyed.without (tablesKeyed_report htables w o _) (report_keys _ _ _ _) k
        · intro g x hs
          exact doneWith_of_jobs rfl (doneWith_reportFailed htables.jobs hs)
        · exact fun g x hwait => (waits_failMessageSemantics (waits_report.1 hwait)).1
        · intro g x ha hwait
          rcases isAssigning_cases h.keyed ho ha with ⟨_, rfl, rfl⟩ | ⟨o', hmem, hk, hrest⟩
          · exact absurd ⟨rfl, rfl⟩ (waits_failMessageSemantics (waits_report.1 hwait)).2
          · exact ⟨o', without_keeps hmem hk, hrest⟩
      · exact h
  · exact h

theorem kept_dies (h : OrganizingKept w) (hgood : DiesPlaced w k)
    (reported : Option Bool) : OrganizingKept (w.step (.dies k reported)) := by
  simp only [Organizing.step]
  split
  · next o ho =>
      have hassigning : ∀ g x, w.IsAssigning g x → w.tables.Waits g x →
          ∃ o' ∈ w.without k, o'.generationId = g ∧ o'.messageId = x ∧ o'.stage = .completed := by
        intro g x ha hwait
        rcases isAssigning_cases h.keyed ho ha with ⟨hstage, rfl, rfl⟩ | ⟨o', hmem, hk, hrest⟩
        · exact hgood o ho hstage hwait
        · exact ⟨o', without_keeps hmem hk, hrest⟩
      cases reported with
      | none =>
        exact h.of (h.keyed.without h.keyed.tables rfl k) (fun _ _ hs => hs)
          (fun _ _ hwait => hwait) hassigning
      | some =>
        refine h.of ?_ ?_ (fun g x hwait => waits_report.1 hwait)
          fun g x ha hwait => hassigning g x ha (waits_report.1 hwait)
        · exact h.keyed.without (tablesKeyed_report h.keyed.tables w o _) (report_keys _ _ _ _) k
        · exact fun g x hs => doneWith_reportFailed h.keyed.tables.jobs hs
  · exact h

theorem settled_ends (h : OrganizingKeyed w) (ho : w.organizer k = some o)
    (hs : (w.report o .succeeded w.tables).DoneWith g (.organize x (w.texts x).contentRevision)) :
    w.Settled g x ∨ (w.HoldsCurrent o ∧ o.generationId = g ∧ o.messageId = x) := by
  rcases report_cases w o .succeeded w.tables with ⟨hholds, heq⟩ | heq
  · rw [heq] at hs
    rcases (doneWith_closeSucceeded h.tables.jobs).1 hs with hold | ⟨j, hj, hid, hrunning, hg, hkind⟩
    · exact Or.inl hold
    right
    obtain ⟨revision, hmem⟩ := h.employed o (organizer_mem ho).1
    obtain ⟨j', hj', hkey⟩ := List.mem_map.1 hmem
    obtain ⟨hid', hrest⟩ := Prod.mk.inj hkey
    obtain ⟨hg', hkind'⟩ := Prod.mk.inj hrest
    obtain rfl := row_unique AiJob.id h.tables.jobs.ids hj hj' (hid.trans hid'.symm)
    obtain ⟨hx, _⟩ := AiJobKind.organize.inj (hkind'.symm.trans hkind)
    subst hx
    exact ⟨⟨hholds, j, hj, hid, hrunning, hkind⟩, hg'.symm.trans hg, rfl⟩
  · rw [heq] at hs
    exact Or.inl hs

theorem kept_ends (h : OrganizingKept w) (hgood : EndsAfter w k) :
    OrganizingKept (w.step (.ends k)) := by
  simp only [Organizing.step]
  split
  · next o ho =>
      split
      · next hover =>
          have hassigning : ∀ g x, w.IsAssigning g x →
              ∃ o' ∈ w.without k, o'.generationId = g ∧ o'.messageId = x ∧
                o'.stage = .completed := by
            intro g x ha
            rcases isAssigning_cases h.keyed ho ha with ⟨hstage, _⟩ | ⟨o', hmem, hk, hrest⟩
            · rw [hstage] at hover
              cases hover
            · exact ⟨o', without_keeps hmem hk, hrest⟩
          refine ⟨?_, ?_, ?_⟩
          · exact h.keyed.without (tablesKeyed_report h.keyed.tables w o _) (report_keys _ _ _ _) k
          · intro g x hs hwait
            rw [waits_report] at hwait
            rcases settled_ends h.keyed ho hs with hold | ⟨hcurrent, rfl, rfl⟩
            · exact h.placed g x hold hwait
            · exact hgood o ho hover hcurrent (h.waiting _ _ hwait) hwait
          · exact fun g x hwait => hassigning g x (h.waiting g x (waits_report.1 hwait))
      · exact h
  · exact h

theorem kept_decide (h : OrganizingKept w) (u : UserDecision) :
    OrganizingKept (w.step (.decide u)) := by
  rcases applyUserDecision_cases u w.tables with ⟨_, hsame⟩ | ⟨d, hrecord, hd⟩
  · simp only [Organizing.step, hsame]
    exact h
  refine h.of (h.keyed.withTables (tablesKeyed_decide h.keyed.tables u) hd.jobs) ?_ ?_
    fun _ _ ha _ => ha
  · exact fun g x hs => doneWith_of_jobs hd.jobs hs
  · intro g x hwait
    obtain ⟨⟨r, hr, hkey, hready⟩, hnone⟩ := waits_iff.1 hwait
    obtain ⟨hold, hsep⟩ := semantics_decided hrecord hr hready
    obtain ⟨rfl, rfl⟩ := Prod.mk.inj hkey
    refine waits_iff.2 ⟨⟨r, hold, rfl, hready⟩, ?_⟩
    rw [← Bool.not_eq_true]
    intro hmember
    rcases hasMember_decided hd hmember with hstill | hseparates
    · cases hstill.symm.trans hnone
    · exact hsep hseparates

theorem kept_mergeReconciled (h : OrganizingKept w) (g source target : Nat)
    (status : MatterStatus) :
    OrganizingKept (w.step (.mergeReconciled g source target status)) := by
  have hkeyed := tablesKeyed_merge h.keyed.tables g source target status
  rcases mergeReconciledMatters_cases g source target status w.tables with hsame | hm
  · simp only [Organizing.step, hsame]
    exact h
  refine h.of (h.keyed.withTables hkeyed hm.jobs) ?_ ?_ fun _ _ ha _ => ha
  · exact fun g' x hs => doneWith_of_jobs hm.jobs hs
  · intro g' x hwait
    refine waits_of ?_ (hasMember_merged hm) hwait
    rw [hm.semantics]
    exact fun r hr _ hready => ⟨r, hr, rfl, hready⟩

theorem kept_step {l : OrganizingLabel} (h : OrganizingKept w)
    (hgood : KeepsPlaced w l) : OrganizingKept (w.step l) := by
  cases l with
  | enqueues g x revision => exact kept_enqueues h g x revision
  | revises x hash => exact kept_revises h x hash
  | claims k jobId => exact kept_claims h k jobId
  | reads k => exact kept_reads h k
  | returns k => exact kept_returns h k
  | begins k => exact kept_begins h k
  | completes k => exact kept_completes h hgood
  | assigns k a locked => exact kept_assigns h k a locked
  | ends k => exact kept_ends h hgood
  | fails k requeue => exact kept_fails h k requeue
  | dies k reported => exact kept_dies h hgood reported
  | decide u => exact kept_decide h u
  | mergeReconciled g source target status => exact kept_mergeReconciled h g source target status

/-! ## Attempts -/

theorem Tables.Placed.hasMember (h : s.Placed g x) : s.hasMember g x = true := by
  obtain ⟨r, hr, hof, _⟩ := h
  exact List.any_eq_true.2 ⟨r, hr, hof⟩

theorem TablesKeyed.semantics_unique (h : TablesKeyed s)
    {r' : Semantics} (hr : r ∈ s.semantics) (hr' : r' ∈ s.semantics) (hof : r.isOf g x = true)
    (hof' : r'.isOf g x = true) : r = r' := by
  obtain ⟨hg, hx⟩ := Semantics.isOf_iff.1 hof
  obtain ⟨hg', hx'⟩ := Semantics.isOf_iff.1 hof'
  refine row_unique Semantics.key h.keys hr hr' ?_
  rw [Semantics.key, Semantics.key, hg, hx, hg', hx']

theorem TablesKeyed.hasText (h : TablesKeyed s)
    (hr : r ∈ s.semantics) (hof : r.isOf g x = true) : s.hasText g x = true := by
  obtain ⟨rfl, rfl⟩ := Semantics.isOf_iff.1 hof
  exact h.housed r.key (List.mem_map.2 ⟨r, hr, rfl⟩)

theorem exists_beginMessageProcessing (h : s.hasText g x = true)
    (reading : Reading) : ∃ s' go, beginMessageProcessing g x reading s = some (s', go) := by
  unfold beginMessageProcessing
  cases hfind : s.semantics.find? (Semantics.isOf g x) with
  | some r => exact ⟨_, _, rfl⟩
  | none =>
    simp only [h, if_true]
    exact ⟨_, _, rfl⟩

theorem beginMessageProcessing_finished
    (h : beginMessageProcessing g x reading s = some (s', false)) :
    ∃ r ∈ s.semantics, r.isOf g x = true ∧ r.processingState = .ready := by
  obtain ⟨r, hr, hof, hgo, -⟩ | ⟨-, -, hgo, -⟩ := beginMessageProcessing_cases h
  · have hready : (r.retake reading).processingState = .ready := by simpa using hgo
    exact ⟨r, hr, hof, (Semantics.retake_ready.1 hready).2⟩
  · cases hgo

theorem hasMember_begun (h : beginMessageProcessing g x reading s = some (s', go)) :
    s'.hasMember g' x' = s.hasMember g' x' := by
  unfold Tables.hasMember
  rw [beginMessageProcessing_frame h]

theorem attempt_waits (hs : TablesKeyed s) (h : s.Waits g x) :
    ∃ reading, ∀ a, ¬ (attempt g x reading a s).Placed g x := by
  obtain ⟨⟨r, hr, hof, hready⟩, hnone⟩ := h
  refine ⟨r.reading, fun a hplaced => ?_⟩
  obtain ⟨s', go, hbegin⟩ := exists_beginMessageProcessing (hs.hasText hr hof) r.reading
  have hgo : go = false := by
    have hstays : (r.retake r.reading).processingState = .ready :=
      Semantics.retake_ready.2 ⟨rfl, hready⟩
    obtain ⟨r₁, hfind⟩ : ∃ r₁, s.semantics.find? (Semantics.isOf g x) = some r₁ := by
      rw [← Option.isSome_iff_exists, List.find?_isSome]
      exact ⟨r, hr, hof⟩
    obtain rfl := hs.semantics_unique hr (List.mem_of_find?_eq_some hfind) hof
      (List.find?_some hfind)
    simp only [beginMessageProcessing, hfind, Option.some.injEq, Prod.mk.injEq] at hbegin
    rw [← hbegin.2, hstays]
    rfl
  subst hgo
  have hmember := hplaced.hasMember
  simp only [attempt, hbegin] at hmember
  rw [hasMember_begun hbegin] at hmember
  cases hmember.symm.trans hnone

theorem isWritable_of_text (hs : Sound s) (htext : s.hasText a.generationId a.messageId = true)
    (ha : ∀ t ∈ a.selectedMatterId, s.matters.any (Matter.is a.generationId t) = true) :
    a.isWritable (s.lockedMatterId a.generationId a.messageId) s = true := by
  obtain ⟨hmessage, hgeneration⟩ : s.messages.any (fun m => m.messageId == a.messageId) = true ∧
      s.generations.any (fun g => g.id == a.generationId) = true := by
    simpa [Tables.hasText] using htext
  have hdate : (s.dateOf a.messageId).isSome = true := by
    obtain ⟨m, hm, hid⟩ := List.any_eq_true.1 hmessage
    rw [Tables.dateOf, Option.isSome_map, List.find?_isSome]
    exact ⟨m, hm, hid⟩
  unfold Assignment.isWritable
  rw [hdate, hgeneration, Bool.true_and, Bool.true_and]
  cases hlocked : s.lockedMatterId a.generationId a.messageId with
  | none =>
    cases hselected : a.selectedMatterId with
    | none => rfl
    | some t => exact ha t hselected
  | some t =>
    rw [Tables.lockedMatterId, Option.map_eq_some_iff] at hlocked
    obtain ⟨r, hfind, rfl⟩ := hlocked
    have hof := List.find?_some hfind
    simp only [Bool.and_eq_true, Member.isOf_iff] at hof
    obtain ⟨m, hm, hid, hg⟩ := mem_matterKeys.1 (hs.housed r (List.mem_of_find?_eq_some hfind))
    exact List.any_eq_true.2 ⟨m, hm, Matter.is_iff.2 ⟨hid, hg.trans hof.1.1⟩⟩

/-- **The attempt on a message that does not wait** puts it into a matter. -/
theorem attempt_placed (hs : TablesKeyed s) (hwait : ¬ s.Waits g x)
    (htext : s.hasText g x = true) (reading : Reading)
    (ha : ∀ t ∈ a.selectedMatterId, s.matters.any (Matter.is g t) = true) :
    (attempt g x reading a s).Placed g x := by
  obtain ⟨s', go, hbegin⟩ := exists_beginMessageProcessing htext reading
  have hs' := tablesKeyed_begin hs hbegin
  cases go with
  | false =>
    simp only [attempt, hbegin]
    rw [placed_iff hs'.sound, hasMember_begun hbegin]
    obtain ⟨r, hr, hof, hready⟩ := beginMessageProcessing_finished hbegin
    by_contra hnone
    exact hwait ⟨⟨r, hr, hof, hready⟩, by simpa using hnone⟩
  | true =>
    simp only [attempt, hbegin, applyMatterAssignment]
    have hcompleted := tablesKeyed_complete hs' g x reading
    have hframe := beginMessageProcessing_frame hbegin
    have htext' : (completeMessageSemantics g x reading s').hasText g x = true := by
      rw [hframe]
      exact htext
    have ha' : ∀ t ∈ a.selectedMatterId,
        (completeMessageSemantics g x reading s').matters.any (Matter.is g t) = true := by
      rw [hframe]
      exact ha
    obtain ⟨s'', hwrite⟩ : ∃ s'', writeAssignment { a with generationId := g, messageId := x }
        ((completeMessageSemantics g x reading s').lockedMatterId g x)
        (completeMessageSemantics g x reading s') = some s'' := by
      unfold writeAssignment
      rw [if_pos (isWritable_of_text hcompleted.sound htext' ha')]
      exact ⟨_, rfl⟩
    rw [hwrite, Option.getD_some, placed_iff (tablesKeyed_write hcompleted hwrite).sound]
    exact hasMember_assigned (writeAssignment_written hwrite)

/-! ## The law -/

theorem organized_of_kept (h : OrganizingKept w) : Organized w where
  placed := by
    intro g x hs r hr hof hready
    rw [placed_iff h.keyed.tables.sound]
    by_contra hnone
    exact h.placed g x hs ⟨⟨r, hr, hof, hready⟩, by simpa using hnone⟩
  resumable := by
    intro g x hnobody htext reading a ha
    exact attempt_placed h.keyed.tables (fun hwait => hnobody (h.waiting g x hwait)) htext reading ha

theorem keepsPlaced_of_organized {l : OrganizingLabel} (h : OrganizingKept w)
    (hstep : Organized (w.step l)) : KeepsPlaced w l := by
  cases l with
  | completes k =>
    rintro ⟨id, jobId, g, x, stage⟩ ho ⟨reading, rfl⟩ ⟨r, hr, hof⟩ hnone hs
    simp only [Organizing.step, Option.mem_def.1 ho] at hstep
    have hplaced := hstep.placed g x hs
      { r with computedFrom := some reading, processingState := .ready, userSeparated := false }
      (mem_updateWhere.2 ⟨r, hr, (if_pos hof).symm⟩) hof rfl
    cases hplaced.hasMember.symm.trans hnone
  | ends k =>
    rintro o ho hover ⟨hholds, j, hj, hid, hrunning, hkind⟩ _ hwait
    simp only [Organizing.step, Option.mem_def.1 ho, hover, if_true, Organizing.report, hholds]
      at hstep
    have hg : j.generationId = o.generationId := by
      obtain ⟨revision, hmem⟩ := h.keyed.employed o (organizer_mem ho).1
      obtain ⟨j', hj', hkey⟩ := List.mem_map.1 hmem
      obtain ⟨hid', hrest⟩ := Prod.mk.inj hkey
      rw [row_unique AiJob.id h.keyed.tables.jobs.ids hj hj' (hid.trans hid'.symm)]
      exact (Prod.mk.inj hrest).1
    obtain ⟨⟨r, hr, hof, hready⟩, hnone⟩ := hwait
    have hs := (doneWith_closeSucceeded h.keyed.tables.jobs).2
      (Or.inr ⟨j, hj, hid, hrunning, hg, hkind⟩)
    have hplaced := hstep.placed o.generationId o.messageId hs r hr hof hready
    cases hplaced.hasMember.symm.trans hnone
  | dies k reported =>
    intro o ho hstage hwait
    by_contra hnobody
    obtain ⟨s, hs, heq, hwait'⟩ : ∃ s, TablesKeyed s ∧
        w.step (.dies k reported) = { w with tables := s, organizers := w.without k } ∧
        s.Waits o.generationId o.messageId := by
      simp only [Organizing.step, Option.mem_def.1 ho]
      cases reported with
      | none => exact ⟨_, h.keyed.tables, rfl, hwait⟩
      | some =>
        exact ⟨_, tablesKeyed_report h.keyed.tables w o _, rfl, waits_report.2 hwait⟩
    rw [heq] at hstep
    obtain ⟨reading, hfails⟩ := attempt_waits hs hwait'
    obtain ⟨⟨r, hr, hof, _⟩, _⟩ := hwait'
    exact hfails ⟨0, 0, none, .informational, [], false, .model⟩
      (hstep.resumable _ _ hnobody (hs.hasText hr hof) reading _ (by simp))
  | enqueues | revises | claims | reads k | returns k | begins k | assigns | fails | decide u
  | mergeReconciled => trivial

def Organizing.start (s : Tables) (texts : Nat → Reading) : Organizing :=
  ⟨{ s with semantics := [], jobs := [] }, texts, [], fun _ => none⟩

theorem kept_start (hs : Sound s) (hgenerations : ∀ g ∈ s.generations, g.id < s.nextId)
    (texts : Nat → Reading) : OrganizingKept (Organizing.start s texts) := by
  have hnone : ∀ g x, ¬ (Organizing.start s texts).tables.Waits g x := by
    rintro g x ⟨⟨r, hr, _⟩, _⟩
    cases hr
  refine ⟨⟨⟨?_, hgenerations, List.nodup_nil, ?_, ?_⟩, ?_, List.nodup_nil, ?_⟩, ?_, ?_⟩
  · exact (SameRows.mk rfl rfl rfl : SameRows s { s with semantics := [], jobs := [] }).sound hs
  · simp [Organizing.start]
  · exact ⟨by simp [Organizing.start], by simp [Organizing.start], by simp [Organizing.start]⟩
  · simp [Organizing.start]
  · simp [Organizing.start]
  · exact fun g x _ => hnone g x
  · exact fun g x hwait => absurd hwait (hnone g x)

/-- **Every processed message has a matter**, and every failure leaves something that the
next attempt completes, throughout exactly those runs in which no worker completes a message
that is settled and no member, no job for the current revision succeeds and no worker dies
while a message waits for an assignment that nobody else is about to make. -/
theorem message_organized {s : Tables} (hs : Sound s)
    (hgenerations : ∀ g ∈ s.generations, g.id < s.nextId) (texts : Nat → Reading)
    (ls : List OrganizingLabel) :
    Throughout Organizing.step Organized (Organizing.start s texts) ls ↔
      Along Organizing.step KeepsPlaced (Organizing.start s texts) ls := by
  refine throughout_iff_along ?_ ?_ ?_ (kept_start hs hgenerations texts)
  · exact fun w h => organized_of_kept h
  · exact fun w l h hl => kept_step h hl
  · exact fun w l h hstep => keepsPlaced_of_organized h hstep

def firstReading : Nat → Reading := fun _ => ⟨1, "text"⟩

theorem message_organized_once :
    Throughout Organizing.step Organized (Organizing.start oneMessage firstReading)
      [.enqueues 0 1 1, .claims 5 1] ↔
    Along Organizing.step KeepsPlaced (Organizing.start oneMessage firstReading)
      [.enqueues 0 1 1, .claims 5 1] :=
  message_organized ⟨by decide, by decide, by decide, by decide, by decide⟩ (by decide) _ _

/-- A worker dies after `complete_message_semantics`. The next attempt finds the row ready
for the same text and returns, the job succeeds, and the message has no matter. -/
theorem crash_leaves_no_matter :
    ¬ Throughout Organizing.step Organized (Organizing.start oneMessage firstReading)
      [.enqueues 0 1 1, .claims 5 1, .reads 5, .begins 5, .completes 5, .dies 5 none,
        .claims 6 1, .reads 6, .begins 6, .ends 6] := by
  intro h
  have hplaced := h.last.placed 0 1 (by decide +kernel)
    ⟨0, 1, 1, "text", .ready, false, some ⟨1, "text"⟩⟩ (by decide +kernel) rfl rfl
  have hmember := hplaced.hasMember
  revert hmember
  decide +kernel

end ElectronicMail.Matters
