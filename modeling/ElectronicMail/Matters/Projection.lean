import ElectronicMail.Matters.Subgoals

/-!
# The projection of messages into matters

`matters` repeats what follows from other rows: whether a matter has members, the date of
its latest member, and the status that its subgoals have together. Each transaction writes
a part of it. An assignment brings the matter it writes up to date and does not look at the
matter that its message leaves; a decision of the user changes members and leaves dates
alone; a merge of reconciled matters computes everything anew.

`projection_kept` says for exactly which runs the matters stay right.
-/

namespace ElectronicMail.Matters

open Foundations
open Foundations.Table

/-! ## The law -/

structure Projected (s : Tables) : Prop where
  oneMatter : ∀ r ∈ s.members, ∀ r' ∈ s.members, r.generationId = r'.generationId →
    r.messageId = r'.messageId → r.matterId = r'.matterId
  inhabited : ∀ m ∈ s.matters, m.visible = true → s.messageIdsOf m.generationId m.id ≠ []
  latest : ∀ m ∈ s.matters, m.visible = true → m.latestMessageAt = s.latestOf m.generationId m.id
  status : ∀ m ∈ s.matters, s.subgoalsOf m.generationId m.id ≠ [] →
    m.status = derivedMatterStatus (s.subgoalStatuses m.generationId m.id) m.status

inductive ProjectionLabel where
  | assign (a : Assignment)
  | mergeReconciled (generationId sourceMatterId targetMatterId : Nat) (status : MatterStatus)
  | decide (u : UserDecision)

/-- The tables after a transaction; one that raises leaves them as they are. -/
def projectionStep (s : Tables) : ProjectionLabel → Tables
  | .assign a => (applyMatterAssignment a s).getD s
  | .mergeReconciled g source target status => mergeReconciledMatters g source target status s
  | .decide u => applyUserDecision u s

/-- The date of the latest member of a matter when some messages leave it. -/
def Tables.latestWithout (s : Tables) (generationId matterId : Nat) (leaving : List Nat) :
    Option Nat :=
  (((s.messageIdsOf generationId matterId).filter fun x => !leaving.contains x).filterMap
    s.dateOf).max?

def Decision.leaving (d : Decision) : List Nat :=
  if d.destination = some d.matterId then [] else d.messageIds

/-- The matter that an assignment writes when it reads the lock itself. -/
def Assignment.written (a : Assignment) (s : Tables) : Nat :=
  a.matterId (s.lockedMatterId a.generationId a.messageId) s

/-- A visible matter that the message of an assignment leaves keeps its latest date. -/
def LeavesLatest (s : Tables) (a : Assignment) : Prop :=
  a.isWritable (s.lockedMatterId a.generationId a.messageId) s = true →
    ∀ m ∈ s.matters, m.visible = true → m.generationId = a.generationId → m.id ≠ a.written s →
      a.messageId ∈ s.messageIdsOf m.generationId m.id →
        s.latestWithout m.generationId m.id [a.messageId] = m.latestMessageAt

/-- The matter of a decision has the date of the latest message that remains, if one
does. -/
def SourceLatest (s : Tables) (d : Decision) : Prop :=
  ∀ m ∈ s.matters, m.is d.generationId d.matterId = true →
    ∀ latest ∈ s.latestWithout d.generationId d.matterId d.leaving, m.latestMessageAt = some latest

/-- A visible matter that messages are moved to is not older than they are. -/
def TargetLatest (s : Tables) (d : Decision) : Prop :=
  ∀ m ∈ s.matters, d.destination = some m.id → m.id ≠ d.matterId → m.visible = true →
    ∀ x ∈ d.messageIds, x ∈ s.messageIdsOf d.generationId d.matterId →
      ∀ date ∈ s.dateOf x, ∀ latest ∈ m.latestMessageAt, date ≤ latest

def DecidesLatest (s : Tables) (u : UserDecision) : Prop :=
  ∀ d ∈ u.acceptedRecord s, d.decision ≠ .confirm → SourceLatest s d ∧ TargetLatest s d

def DateKeeping (s : Tables) : ProjectionLabel → Prop
  | .assign a => LeavesLatest s a
  | .mergeReconciled _ _ _ _ => True
  | .decide u => DecidesLatest s u

instance (s : Tables) : (l : ProjectionLabel) → Decidable (DateKeeping s l)
  | .assign a => inferInstanceAs (Decidable
      (a.isWritable (s.lockedMatterId a.generationId a.messageId) s = true →
        ∀ m ∈ s.matters, m.visible = true → m.generationId = a.generationId → m.id ≠ a.written s →
          a.messageId ∈ s.messageIdsOf m.generationId m.id →
            s.latestWithout m.generationId m.id [a.messageId] = m.latestMessageAt))
  | .mergeReconciled _ _ _ _ => inferInstanceAs (Decidable True)
  | .decide u => inferInstanceAs (Decidable (∀ d ∈ u.acceptedRecord s, d.decision ≠ .confirm →
      (∀ m ∈ s.matters, m.is d.generationId d.matterId = true →
        ∀ latest ∈ s.latestWithout d.generationId d.matterId d.leaving,
          m.latestMessageAt = some latest) ∧
      (∀ m ∈ s.matters, d.destination = some m.id → m.id ≠ d.matterId → m.visible = true →
        ∀ x ∈ d.messageIds, x ∈ s.messageIdsOf d.generationId d.matterId →
          ∀ date ∈ s.dateOf x, ∀ latest ∈ m.latestMessageAt, date ≤ latest)))

structure ProjectionKept (s : Tables) : Prop where
  sound : Sound s
  subgoals : SubgoalsSound s
  generations : ∀ g ∈ s.generations, g.id < s.nextId
  dated : ∀ r ∈ s.members, (s.dateOf r.messageId).isSome = true
  projected : Projected s

/-! ## The latest date -/

theorem max?_congr {xs ys : List Nat} (h : ∀ x, x ∈ xs ↔ x ∈ ys) : xs.max? = ys.max? := by
  cases hy : ys.max? with
  | none =>
    rw [List.max?_eq_none_iff] at hy ⊢
    rw [List.eq_nil_iff_forall_not_mem]
    intro x hx
    simpa [hy] using (h x).1 hx
  | some n =>
    obtain ⟨hn, hmax⟩ := List.max?_eq_some_iff.1 hy
    exact List.max?_eq_some_iff.2 ⟨(h n).2 hn, fun x hx => hmax x ((h x).1 hx)⟩

variable {s s' : Tables} {g t : Nat}

theorem latestOf_congr {g' t' : Nat} (hdate : s'.messages = s.messages)
    (h : ∀ x, x ∈ s'.messageIdsOf g' t' ↔ x ∈ s.messageIdsOf g t) :
    s'.latestOf g' t' = s.latestOf g t := by
  have hdates : s'.dateOf = s.dateOf := by
    funext x
    rw [Tables.dateOf, hdate, Tables.dateOf]
  apply max?_congr
  intro n
  rw [List.mem_filterMap, List.mem_filterMap, hdates]
  constructor
  · rintro ⟨x, hx, hn⟩
    exact ⟨x, (h x).1 hx, hn⟩
  · rintro ⟨x, hx, hn⟩
    exact ⟨x, (h x).2 hx, hn⟩

theorem latestOf_without {leaving : List Nat} (hdate : s'.messages = s.messages)
    (h : ∀ x, x ∈ s'.messageIdsOf g t ↔ x ∈ s.messageIdsOf g t ∧ x ∉ leaving) :
    s'.latestOf g t = s.latestWithout g t leaving := by
  have hdates : s'.dateOf = s.dateOf := by
    funext x
    rw [Tables.dateOf, hdate, Tables.dateOf]
  apply max?_congr
  intro n
  rw [List.mem_filterMap, List.mem_filterMap, hdates]
  constructor
  · rintro ⟨x, hx, hn⟩
    obtain ⟨hin, hstays⟩ := (h x).1 hx
    exact ⟨x, List.mem_filter.2 ⟨hin, by simpa using hstays⟩, hn⟩
  · rintro ⟨x, hx, hn⟩
    obtain ⟨hin, hstays⟩ := List.mem_filter.1 hx
    exact ⟨x, (h x).2 ⟨hin, by simpa using hstays⟩, hn⟩

variable {n : Nat}

theorem latestOf_eq_some :
    s.latestOf g t = some n ↔ (∃ x ∈ s.messageIdsOf g t, s.dateOf x = some n) ∧
      ∀ x ∈ s.messageIdsOf g t, ∀ date ∈ s.dateOf x, date ≤ n := by
  rw [Tables.latestOf, List.max?_eq_some_iff]
  simp only [List.mem_filterMap]
  constructor
  · rintro ⟨hn, hmax⟩
    exact ⟨hn, fun x hx date hdate => hmax date ⟨x, hx, hdate⟩⟩
  · rintro ⟨hn, hmax⟩
    refine ⟨hn, ?_⟩
    rintro date ⟨x, hx, hdate⟩
    exact hmax x hx date hdate

theorem exists_latestOf (hdated : ∀ r ∈ s.members, (s.dateOf r.messageId).isSome = true)
    (h : s.messageIdsOf g t ≠ []) : ∃ n, s.latestOf g t = some n := by
  obtain ⟨x, hx⟩ := List.exists_mem_of_ne_nil _ h
  obtain ⟨r, hr, _, _, rfl⟩ := Tables.mem_messageIdsOf.1 hx
  obtain ⟨n, hn⟩ := Option.isSome_iff_exists.1 (hdated r hr)
  have hne : s.latestOf g t ≠ none := by
    rw [Tables.latestOf, ne_eq, List.max?_eq_none_iff]
    exact List.ne_nil_of_mem (List.mem_filterMap.2 ⟨r.messageId, hx, hn⟩)
  exact Option.ne_none_iff_exists'.1 hne

theorem messageIdsOf_ne_nil (h : s.latestOf g t = some n) : s.messageIdsOf g t ≠ [] := by
  obtain ⟨⟨x, hx, _⟩, _⟩ := latestOf_eq_some.1 h
  exact List.ne_nil_of_mem hx

variable {a : Assignment} {x : Nat}

/-! ## Members after a transaction -/

/-- **Members after an assignment** that has read the lock: its message is in the matter it
writes, and everything else is where it was. -/
theorem mem_messageIdsOf_applied (hs : Sound s)
    (hw : Written a (s.lockedMatterId a.generationId a.messageId) s s') :
    x ∈ s'.messageIdsOf g t ↔ (x ∈ s.messageIdsOf g t ∧ ¬ (g = a.generationId ∧ x = a.messageId)) ∨
        (g = a.generationId ∧ x = a.messageId ∧ t = a.written s) := by
  have hkey : ∀ r₁ ∈ s.members, ∀ r₂ ∈ s.members,
      r₁.isOf a.generationId a.messageId = true → r₂.isOf a.generationId a.messageId = true →
        r₁ = r₂ := by
    intro r₁ h₁ r₂ h₂ hof₁ hof₂
    obtain ⟨hg₁, hx₁⟩ := Member.isOf_iff.1 hof₁
    obtain ⟨hg₂, hx₂⟩ := Member.isOf_iff.1 hof₂
    exact hs.unique r₁ h₁ r₂ h₂ (hg₁.trans hg₂.symm) (hx₁.trans hx₂.symm)
  -- The locked member of the message is in the matter that is written.
  have hlocked : ∀ r ∈ s.members, r.isOf a.generationId a.messageId = true →
      r.membershipLocked = true → r.matterId = a.written s := by
    intro r hr hof hl
    unfold Assignment.written Assignment.matterId Tables.lockedMatterId
    cases hfind : s.members.find? fun m =>
        m.isOf a.generationId a.messageId && m.membershipLocked with
    | none =>
      have := List.find?_eq_none.1 hfind r hr
      simp [hof, hl] at this
    | some r' =>
      have hr' := List.mem_of_find?_eq_some hfind
      have hp := List.find?_some hfind
      simp only [Bool.and_eq_true] at hp
      rw [hkey r hr r' hr' hof hp.1]
      rfl
  -- The member of the message after the assignment.
  have hof' : ∀ r ∈ s'.members, r.isOf a.generationId a.messageId = true →
      r.matterId = a.written s := by
    intro r hr hof
    rw [hw.members] at hr
    rcases mem_upsertMember rfl hkey hr with ⟨hold, hkeep⟩ | ⟨_, _, ht, _⟩
    · rcases hkeep with hnot | hl
      · rw [show r.isOf a.generationId a.messageId = false from hnot] at hof
        cases hof
      · exact hlocked r hold hof hl
    · exact ht
  simp only [Tables.mem_messageIdsOf]
  constructor
  · rintro ⟨r, hr, rfl, rfl, rfl⟩
    by_cases hof : r.isOf a.generationId a.messageId = true
    · obtain ⟨hg, hx⟩ := Member.isOf_iff.1 hof
      exact Or.inr ⟨hg, hx, hof' r hr hof⟩
    left
    rw [hw.members] at hr
    rcases mem_upsertMember rfl hkey hr with ⟨hold, _⟩ | ⟨hg, hx, _⟩
    · refine ⟨⟨r, hold, rfl, rfl, rfl⟩, ?_⟩
      rintro ⟨hg, hx⟩
      exact hof (Member.isOf_iff.2 ⟨hg, hx⟩)
    · exact absurd (Member.isOf_iff.2 ⟨hg, hx⟩) hof
  · rintro (⟨⟨r, hr, rfl, rfl, rfl⟩, hnot⟩ | ⟨rfl, rfl, rfl⟩)
    · have hnof : r.isOf a.generationId a.messageId = false := by
        rw [← Bool.not_eq_true]
        exact fun hof => hnot (Member.isOf_iff.1 hof)
      refine ⟨r, ?_, rfl, rfl, rfl⟩
      rw [hw.members]
      exact upsertMember_keeps hr (Or.inl hnof)
    · obtain ⟨r, hr, hof⟩ := exists_mem_upsertMember
        (a.row (s.lockedMatterId a.generationId a.messageId) s) s.members
      rw [← hw.members] at hr
      obtain ⟨hg, hx⟩ := Member.isOf_iff.1 hof
      exact ⟨r, hr, hg, hof' r hr hof, hx⟩

variable {source target : Nat}

/-- **Members after a merge** of reconciled matters: those of the source are in the
target. -/
theorem mem_messageIdsOf_merged {g' t' : Nat} (hm : Merged g source target s s') :
    x ∈ s'.messageIdsOf g' t' ↔ (x ∈ s.messageIdsOf g' t' ∧ ¬ (g' = g ∧ t' = source)) ∨
        (g' = g ∧ t' = target ∧ x ∈ s.messageIdsOf g source) := by
  obtain ⟨_, _, _, hfree, _⟩ := mergeable_facts hm.mergeable
  simp only [Tables.mem_messageIdsOf]
  constructor
  · rintro ⟨r, hr, rfl, rfl, rfl⟩
    obtain ⟨r₀, h₀, hg, hx, _, hcase⟩ := mem_merged hm hr
    rcases hcase with ⟨ht, hnot⟩ | ⟨hin, hs, ht, _⟩
    · left
      refine ⟨⟨r₀, h₀, hg.symm, ht.symm, hx.symm⟩, ?_⟩
      rintro ⟨hg', hs'⟩
      exact hnot (hg.symm.trans hg') (ht.symm.trans hs')
    · exact Or.inr ⟨hg.trans hin, ht, r₀, h₀, hin, hs, hx.symm⟩
  · rintro (⟨⟨r, hr, rfl, rfl, rfl⟩, hnot⟩ | ⟨rfl, rfl, r, hr, hg, ht, rfl⟩)
    · refine ⟨r, ?_, rfl, rfl, rfl⟩
      rw [hm.members]
      refine mem_updateWhere.2 ⟨r, hr, ?_⟩
      rw [if_neg]
      simp only [Bool.and_eq_true, Member.isIn_iff]
      exact fun h => hnot h.1
    · refine ⟨{ r with matterId := t' }, ?_, hg, rfl, rfl⟩
      rw [hm.members]
      refine mem_updateWhere.2 ⟨r, hr, ?_⟩
      simp [hg, ht, hfree r hr hg ht]

variable {d : Decision}

/-- **Members after a decision**: the selected messages have left the matter for its
destination, if it has one. -/
theorem mem_messageIdsOf_decided (hd : Decided d s s') :
    x ∈ s'.messageIdsOf g t ↔ (x ∈ s.messageIdsOf g t ∧
        ¬ (g = d.generationId ∧ t = d.matterId ∧ x ∈ d.messageIds)) ∨
      (g = d.generationId ∧ d.destination = some t ∧ x ∈ d.messageIds ∧
        x ∈ s.messageIdsOf d.generationId d.matterId) := by
  simp only [Tables.mem_messageIdsOf]
  constructor
  · rintro ⟨r, hr, rfl, rfl, rfl⟩
    rw [hd.members] at hr
    rcases mem_carryOut hr with ⟨hold, hsel⟩ | ⟨r₀, h₀, hsel, hg, hx, _, hdest⟩
    · left
      refine ⟨⟨r, hold, rfl, rfl, rfl⟩, ?_⟩
      intro hin
      rw [show d.selects r = true from Member.isSelected_iff.2 hin] at hsel
      cases hsel
    · obtain ⟨hsg, hst, hsx⟩ := Member.isSelected_iff.1 hsel
      rw [← hx] at hsx
      exact Or.inr ⟨hg.trans hsg, hdest, hsx, r₀, h₀, hsg, hst, hx.symm⟩
  · rintro (⟨⟨r, hr, rfl, rfl, rfl⟩, hnot⟩ | ⟨rfl, hdest, hx, r, hr, hg, ht, rfl⟩)
    · refine ⟨r, ?_, rfl, rfl, rfl⟩
      rw [hd.members]
      apply carryOut_keeps hr
      rw [← Bool.not_eq_true]
      exact fun hsel => hnot (Member.isSelected_iff.1 hsel)
    · have hsel : d.selects r = true := Member.isSelected_iff.2 ⟨hg, ht, hx⟩
      obtain ⟨r', hr', hg', hx', ht', _⟩ := carryOut_locks hr hsel hdest
      rw [← hd.members] at hr'
      exact ⟨r', hr', hg'.trans hg, ht', hx'⟩

/-! ## Matters after a transaction -/

/-- The matter is the same but for its status, its state and its revision. -/
structure Matter.SameDates (m m' : Matter) : Prop where
  id : m'.id = m.id
  generationId : m'.generationId = m.generationId
  latest : m'.latestMessageAt = m.latestMessageAt

variable {locked : Option Nat} {m' : Matter}

/-- A matter after the upserts of an assignment: another one as it was, the written one with
the date of its message, or a new one. -/
theorem matter_placed (hs : Sound s)
    (hw : a.isWritable locked s = true) (hm : m' ∈ (placeMessage a locked s).matters) :
    (∃ m ∈ s.matters, m.id ≠ a.matterId locked s ∧ m' = m) ∨
    (∃ m ∈ s.matters, m.id = a.matterId locked s ∧ m.generationId = a.generationId ∧
      m'.id = m.id ∧ m'.generationId = m.generationId ∧ m'.visible = m.visible ∧
      m'.latestMessageAt = some (greatest m.latestMessageAt ((s.dateOf a.messageId).getD 0)) ∧
      ((a.row locked s).provisional = true → m'.status = m.status)) ∨
    (a.matterId locked s = s.nextId ∧ m'.id = s.nextId ∧ m'.generationId = a.generationId ∧
      m'.latestMessageAt = some ((s.dateOf a.messageId).getD 0)) := by
  have hm : m' ∈ upsertMatter a.generationId (a.matterId locked s)
    ((s.dateOf a.messageId).getD 0) a.status (a.row locked s).provisional s.matters := hm
  unfold upsertMatter at hm
  by_cases hany : s.matters.any (fun m => m.id == a.matterId locked s) = true
  · rw [if_pos hany] at hm
    obtain ⟨m, h₀, rfl⟩ := mem_updateWhere.1 hm
    by_cases hid : (m.id == a.matterId locked s) = true
    · rw [if_pos hid]
      rw [beq_iff_eq] at hid
      right
      left
      have hgen : m.generationId = a.generationId := by
        rcases matterId_cases hw with hold | hnew
        · obtain ⟨m₀, hm₀, hid₀, hg₀⟩ := mem_matterKeys.1 hold
          rw [hs.matter_unique h₀ hm₀ (hid.trans hid₀.symm)]
          exact hg₀
        · have := hs.matterBelow _ (mem_matterKeys.2 ⟨m, h₀, rfl, rfl⟩)
          rw [hid, hnew] at this
          exact absurd this (Nat.lt_irrefl _)
      refine ⟨m, h₀, hid, hgen, rfl, rfl, rfl, rfl, ?_⟩
      intro hp
      simp [hp]
    · rw [if_neg hid]
      exact Or.inl ⟨m, h₀, by simpa using hid, rfl⟩
  · rw [if_neg hany, List.mem_append, List.mem_singleton] at hm
    have hnone : ∀ m ∈ s.matters, m.id ≠ a.matterId locked s := by
      intro m hm hid
      exact hany (List.any_eq_true.2 ⟨m, hm, by simp [hid]⟩)
    rcases hm with hm | rfl
    · exact Or.inl ⟨m', hm, hnone m' hm, rfl⟩
    right
    right
    rcases matterId_cases hw with hold | hnew
    · obtain ⟨m₀, hm₀, hid₀, _⟩ := mem_matterKeys.1 hold
      exact absurd hid₀ (hnone m₀ hm₀)
    · exact ⟨hnew, hnew, rfl, rfl⟩

variable {m : Matter}

theorem mem_placed (hm : m ∈ s.matters) (hid : m.id ≠ a.matterId locked s) :
    m ∈ (placeMessage a locked s).matters := by
  show m ∈ upsertMatter _ _ _ _ _ s.matters
  unfold upsertMatter
  by_cases hany : s.matters.any (fun m => m.id == a.matterId locked s) = true
  · rw [if_pos hany]
    exact mem_updateWhere.2 ⟨m, hm, by simp [hid]⟩
  · rw [if_neg hany]
    exact List.mem_append_left _ hm

variable {fallback : MatterStatus}

theorem matter_derived (hm : m' ∈ (deriveStatus g t fallback s).matters) :
    ∃ m ∈ s.matters, m.SameDates m' ∧ m'.visible = m.visible ∧ (m.is g t = false → m' = m) ∧
      (m.is g t = true → m'.status = derivedMatterStatus (s.subgoalStatuses g t) fallback) := by
  obtain ⟨m, h₀, rfl⟩ := mem_updateWhere.1 hm
  by_cases his : m.is g t = true
  · rw [if_pos his]
    refine ⟨m, h₀, ⟨rfl, rfl, rfl⟩, rfl, ?_, fun _ => rfl⟩
    intro hnot
    rw [his] at hnot
    cases hnot
  · rw [if_neg his]
    exact ⟨m, h₀, ⟨rfl, rfl, rfl⟩, rfl, fun _ => rfl, fun h => absurd h his⟩

theorem mem_derived (hm : m ∈ s.matters) (hnot : m.is g t = false) :
    m ∈ (deriveStatus g t fallback s).matters :=
  mem_updateWhere.2 ⟨m, hm, by simp [hnot]⟩

theorem derivedMatterStatus_fallback {statuses : List MatterStatus} (h : statuses ≠ [])
    (fallback fallback' : MatterStatus) :
    derivedMatterStatus statuses fallback = derivedMatterStatus statuses fallback' := by
  have hne : statuses.isEmpty = false := by
    cases statuses with
    | nil => exact absurd rfl h
    | cons _ _ => rfl
  simp [derivedMatterStatus, hne]

/-- **Matters after an assignment**: the written one has the date of its message and the
status of its subgoals, the others stay as they are. -/
structure Applied (a : Assignment) (locked : Option Nat) (s s' : Tables) : Prop where
  matters : ∀ m' ∈ s'.matters,
    (∃ m ∈ s.matters, m.id ≠ a.matterId locked s ∧ m' = m) ∨
    (∃ m ∈ s.matters, m.id = a.matterId locked s ∧ m'.id = m.id ∧
      m'.generationId = a.generationId ∧ m.generationId = a.generationId ∧
      m'.visible = m.visible ∧ m'.latestMessageAt =
        some (greatest m.latestMessageAt ((s.dateOf a.messageId).getD 0))) ∨
    (a.matterId locked s = s.nextId ∧ m'.id = s.nextId ∧ m'.generationId = a.generationId ∧
      m'.latestMessageAt = some ((s.dateOf a.messageId).getD 0))
  keeps : ∀ m ∈ s.matters, m.id ≠ a.matterId locked s → m ∈ s'.matters
  others : ∀ g t, ¬ (g = a.generationId ∧ t = a.matterId locked s) →
    s'.subgoalsOf g t = s.subgoalsOf g t
  status : ∀ m' ∈ s'.matters, m'.id = a.matterId locked s →
    s'.subgoalsOf m'.generationId m'.id ≠ [] →
      m'.status = derivedMatterStatus (s'.subgoalStatuses m'.generationId m'.id) a.status ∨
      (s'.subgoals = s.subgoals ∧ ∃ m ∈ s.matters, m.id = m'.id ∧
        m.generationId = m'.generationId ∧ m'.status = m.status)

theorem subgoalsSound_placed (hs : Sound s)
    (hsub : SubgoalsSound s) (hw : a.isWritable locked s = true) :
    SubgoalsSound (placeMessage a locked s) ∧
      (a.matterId locked s, a.generationId) ∈ (placeMessage a locked s).matterKeys := by
  have hnext : s.nextId ≤ (placeMessage a locked s).nextId := Nat.le_succ _
  rcases matterKeys_placeMessage hs hw with ⟨hin, heq⟩ | ⟨hnew, heq⟩
  · refine ⟨hsub.of_eq rfl ?_ hnext, heq ▸ hin⟩
    intro k hk
    rw [heq]
    exact hk
  · refine ⟨hsub.of_eq rfl ?_ hnext, ?_⟩
    · intro k hk
      rw [heq]
      exact List.mem_append_left _ hk
    · rw [heq, hnew]
      simp

theorem writeAssignment_applied
    (hs : Sound s) (hsub : SubgoalsSound s) (h : writeAssignment a locked s = some s') :
    Applied a locked s s' ∧ SubgoalsSound s' := by
  have hw := (writeAssignment_written h).writable
  obtain ⟨hplaced, hown⟩ := subgoalsSound_placed hs hsub hw
  unfold writeAssignment at h
  rw [if_pos hw, Option.some.injEq] at h
  by_cases hp : (a.row locked s).provisional = true
  · rw [if_pos hp] at h
    subst h
    refine ⟨⟨?_, fun m hm hid => mem_placed hm hid, fun _ _ _ => rfl, ?_⟩, hplaced⟩
    · intro m' hm'
      rcases matter_placed hs hw hm' with hother | ⟨m, hm, hid, hg, hid', hg', hv, hl, _⟩ | hnew
      · exact Or.inl hother
      · exact Or.inr (Or.inl ⟨m, hm, hid, hid', hg'.trans hg, hg, hv, hl⟩)
      · exact Or.inr (Or.inr hnew)
    · intro m' hm' hid hne
      right
      refine ⟨rfl, ?_⟩
      rcases matter_placed hs hw hm' with ⟨m, _, hne', rfl⟩ |
        ⟨m, hm, _, _, hid', hg', _, _, hstatus⟩ | ⟨_, hid', hg', _⟩
      · exact absurd hid hne'
      · exact ⟨m, hm, hid'.symm, hg'.symm, hstatus hp⟩
      · -- A new matter has no subgoals.
        obtain ⟨r, hr⟩ := List.exists_mem_of_ne_nil _ hne
        obtain ⟨hmem, hin⟩ := List.mem_filter.1 hr
        have := hs.matterBelow _ (hsub.housed r hmem)
        rw [(Subgoal.isIn_iff.1 hin).2, hid'] at this
        exact absurd this (Nat.lt_irrefl _)
  · rw [if_neg hp] at h
    subst h
    refine ⟨⟨?_, ?_, ?_, ?_⟩, ?_⟩
    · intro m' hm'
      obtain ⟨m₁, h₁, hsame, hv₁, hother, _⟩ := matter_derived hm'
      rcases matter_placed hs hw h₁ with ⟨m, hm, hid, rfl⟩ | ⟨m, hm, hid, hg, hid', hg', hv, hl, _⟩ |
        ⟨hnew, hid', hg', hl⟩
      · left
        refine ⟨m₁, hm, hid, hother ?_⟩
        rw [← Bool.not_eq_true]
        exact fun his => hid (Matter.is_iff.1 his).1
      · right
        left
        exact ⟨m, hm, hid, hsame.id.trans hid', hsame.generationId.trans (hg'.trans hg), hg,
          hv₁.trans hv, hsame.latest.trans hl⟩
      · right
        right
        exact ⟨hnew, hsame.id.trans hid', hsame.generationId.trans hg', hsame.latest.trans hl⟩
    · intro m hm hid
      apply mem_derived
      · exact mem_placed hm hid
      · rw [← Bool.not_eq_true]
        exact fun his => hid (Matter.is_iff.1 his).1
    · intro g t hother
      exact writeSubgoals_others hplaced hother
    · intro m' hm' hid _
      obtain ⟨m₁, h₁, hsame, _, _, hstatus⟩ := matter_derived hm'
      left
      have hg : m'.generationId = a.generationId := by
        rcases matter_placed hs hw h₁ with ⟨m, _, hne', rfl⟩ | ⟨m, _, _, hg, _, hg', _⟩ |
          ⟨_, _, hg', _⟩
        · exact absurd (hsame.id.symm.trans hid) hne'
        · exact hsame.generationId.trans (hg'.trans hg)
        · exact hsame.generationId.trans hg'
      rw [hg, hid]
      exact hstatus (Matter.is_iff.2 ⟨hsame.id.symm.trans hid, hsame.generationId.symm.trans hg⟩)
    · exact (subgoalsSound_writeSubgoals hplaced hown).of_eq rfl
        (fun k hk => by rw [matterKeys_deriveStatus]; exact hk) (Nat.le_refl _)

/-- **Matters and subgoals after a merge**: the source is hidden and has no subgoals, the
target has been computed anew, and the others stay as they are. -/
structure Reconciled (g source target : Nat) (status : MatterStatus) (s s' : Tables) : Prop where
  merged : Merged g source target s s'
  matters : ∀ m' ∈ s'.matters, ∃ m ∈ s.matters, m'.id = m.id ∧ m'.generationId = m.generationId ∧
    ((m.is g source = true ∧ m'.visible = false) ∨
      (m.is g target = true ∧ m'.visible = m.visible ∧
        m'.latestMessageAt = s'.latestOf g target ∧
        m'.status = derivedMatterStatus (s'.subgoalStatuses g target) status) ∨
      (m.is g source = false ∧ m.is g target = false ∧ m' = m))
  others : ∀ g' t', ¬ (g' = g ∧ (t' = source ∨ t' = target)) →
    s'.subgoalsOf g' t' = s.subgoalsOf g' t'
  emptied : s'.subgoalsOf g source = []

def Tables.begun (s : Tables) : Tables := { s with nextId := s.nextId + 1, now := s.now + 1 }

theorem SubgoalsSound.begun (h : SubgoalsSound s) : SubgoalsSound s.begun :=
  h.of_eq rfl (fun _ hk => hk) (Nat.le_succ _)

variable {status : MatterStatus}

theorem matter_closed (hne : source ≠ target)
    (hm : m' ∈ (closeReconciled g source target status s).matters) :
    ∃ m ∈ s.matters, m'.id = m.id ∧ m'.generationId = m.generationId ∧
      ((m.is g source = true ∧ m'.visible = false) ∨
        (m.is g target = true ∧ m'.visible = m.visible ∧
          m'.latestMessageAt = s.latestOf g target ∧
          m'.status = derivedMatterStatus (s.subgoalStatuses g target) status) ∨
        (m.is g source = false ∧ m.is g target = false ∧ m' = m)) := by
  obtain ⟨m₁, h₁, rfl⟩ := mem_updateWhere.1 hm
  obtain ⟨m, h₀, rfl⟩ := mem_updateWhere.1 h₁
  refine ⟨m, h₀, ?_⟩
  by_cases htarget : m.is g target = true
  · have hsource : m.is g source = false := by
      rw [← Bool.not_eq_true]
      intro hin
      exact hne ((Matter.is_iff.1 hin).1.symm.trans (Matter.is_iff.1 htarget).1)
    rw [if_pos htarget, if_neg]
    · exact ⟨rfl, rfl, Or.inr (Or.inl ⟨htarget, rfl, rfl, rfl⟩)⟩
    · rw [Bool.not_eq_true]
      exact hsource
  · rw [if_neg htarget]
    by_cases hsource : m.is g source = true
    · rw [if_pos hsource]
      exact ⟨rfl, rfl, Or.inl ⟨hsource, rfl⟩⟩
    · rw [if_neg hsource]
      rw [Bool.not_eq_true] at hsource htarget
      exact ⟨rfl, rfl, Or.inr (Or.inr ⟨hsource, htarget, rfl⟩)⟩

theorem mergeReconciledMatters_reconciled (hsub : SubgoalsSound s)
    (hm : Merged g source target s (mergeReconciledMatters g source target status s)) :
    Reconciled g source target status s (mergeReconciledMatters g source target status s) ∧
      SubgoalsSound (mergeReconciledMatters g source target status s) := by
  obtain ⟨hne, _, ⟨m, hmem, hid, hg, _⟩, _, _⟩ := mergeable_facts hm.mergeable
  have htarget : (target, g) ∈ s.begun.matterKeys := mem_matterKeys.2 ⟨m, hmem, hid, hg⟩
  have heq : mergeReconciledMatters g source target status s =
      raiseRevision (closeReconciled g source target status (moveReconciled g source target s.begun)) := by
    rw [mergeReconciledMatters, if_pos hm.mergeable]
    rfl
  refine ⟨⟨hm, ?_, ?_, ?_⟩, ?_⟩
  · intro m' hm'
    rw [heq] at hm' ⊢
    exact matter_closed hne hm'
  · intro g' t' hother
    rw [heq]
    refine (mergeKept_moveReconciled hne hsub.begun (Subgoal.isIn g' t') ?_ ?_).2
    · intro r hr
      obtain ⟨hrg, hrt⟩ := Subgoal.isIn_iff.1 hr
      rw [← Bool.not_eq_true, Subgoal.isIn_iff, hrg, hrt]
      rintro ⟨rfl, rfl⟩
      exact hother ⟨rfl, Or.inl rfl⟩
    · intro r hr
      obtain ⟨hrg, hrt⟩ := Subgoal.isIn_iff.1 hr
      rw [← Bool.not_eq_true, Subgoal.isIn_iff, hrg, hrt]
      rintro ⟨rfl, rfl⟩
      exact hother ⟨rfl, Or.inr rfl⟩
  · rw [heq]
    obtain ⟨hkept, _⟩ := mergeKept_moveReconciled (g := g) hne hsub.begun (fun _ => false)
      (fun _ _ => rfl) (fun _ _ => rfl)
    show (moveReconciled g source target s.begun).subgoals.filter _ = []
    rw [List.filter_eq_nil_iff]
    intro r hr hin
    obtain ⟨e, he, _⟩ := hkept.left r hr hin
    simp at he
  · have hmoved := subgoalsSound_moveReconciled hne hsub.begun htarget
    rw [heq]
    refine hmoved.of_eq rfl ?_ (Nat.le_refl _)
    intro k hk
    have hkeys := matterKeys_closeReconciled g source target status
      (moveReconciled g source target s.begun)
    show k ∈ (closeReconciled g source target status (moveReconciled g source target s.begun)).matterKeys
    rw [hkeys]
    exact hk

/-- What a decision does to a matter: only that of a decision that changes its members is
shown or hidden, by whether it has some left. -/
structure CarriedOut (d : Decision) (s' : Tables) (m m' : Matter) : Prop where
  sameDates : m.SameDates m'
  status : m'.status = m.status
  frame : d.decision = .confirm ∨ m.id ≠ d.matterId → m'.visible = m.visible
  shown : d.decision ≠ .confirm → m.id = d.matterId →
    (m'.visible = true ↔ s'.messageIdsOf d.generationId d.matterId ≠ [])

theorem any_matterId (h : ∀ r ∈ s.members, r.matterId = t → r.generationId = g) :
    s.members.any (fun r => r.matterId == t) = true ↔ s.messageIdsOf g t ≠ [] := by
  rw [List.any_eq_true]
  constructor
  · rintro ⟨r, hr, ht⟩
    rw [beq_iff_eq] at ht
    exact List.ne_nil_of_mem (Tables.mem_messageIdsOf.2 ⟨r, hr, h r hr ht, ht, rfl⟩)
  · intro hne
    obtain ⟨x, hx⟩ := List.exists_mem_of_ne_nil _ hne
    obtain ⟨r, hr, _, ht, _⟩ := Tables.mem_messageIdsOf.1 hx
    exact ⟨r, hr, by simp [ht]⟩

variable {selected : List Nat}

theorem matter_moved (hd : d.decision ≠ .confirm) (hg : d.generationId = g) (ht : d.matterId = t)
    (hgen : ∀ r ∈ (moveMembers g t target selected s).members, r.matterId = t →
      r.generationId = g) (hm : m' ∈ (moveMembers g t target selected s).matters) :
    ∃ m ∈ s.matters, CarriedOut d (moveMembers g t target selected s) m m' := by
  obtain ⟨m₁, h₁, rfl⟩ := mem_updateWhere.1 hm
  obtain ⟨m, h₀, rfl⟩ := mem_updateWhere.1 h₁
  have hshown := any_matterId hgen
  refine ⟨m, h₀, ?_⟩
  by_cases htarget : (m.id == target) = true
  · rw [if_pos htarget]
    by_cases hsource : (m.id == t) = true
    · rw [if_pos hsource]
      refine ⟨⟨rfl, rfl, rfl⟩, rfl, ?_, fun _ _ => ?_⟩
      · rintro (hc | hne)
        · exact absurd hc hd
        · exact absurd ((beq_iff_eq.1 hsource).trans ht.symm) hne
      · rw [hg, ht]
        exact hshown
    · rw [if_neg hsource]
      refine ⟨⟨rfl, rfl, rfl⟩, rfl, fun _ => rfl, ?_⟩
      intro _ hid
      exact absurd (beq_iff_eq.2 (hid.trans ht)) hsource
  · rw [if_neg htarget]
    by_cases hsource : (m.id == t) = true
    · rw [if_pos hsource]
      refine ⟨⟨rfl, rfl, rfl⟩, rfl, ?_, fun _ _ => ?_⟩
      · rintro (hc | hne)
        · exact absurd hc hd
        · exact absurd ((beq_iff_eq.1 hsource).trans ht.symm) hne
      · rw [hg, ht]
        exact hshown
    · rw [if_neg hsource]
      refine ⟨⟨rfl, rfl, rfl⟩, rfl, fun _ => rfl, ?_⟩
      intro _ hid
      exact absurd (beq_iff_eq.2 (hid.trans ht)) hsource

theorem matter_separated (hs : Sound s) (hd : d.decision ≠ .confirm) (hg : d.generationId = g)
    (ht : d.matterId = t) (hin : (t, g) ∈ s.matterKeys)
    (hm : m' ∈ (separateMembers g t selected s).matters) :
    ∃ m ∈ s.matters, CarriedOut d (separateMembers g t selected s) m m' := by
  obtain ⟨m, h₀, rfl⟩ := mem_updateWhere.1 hm
  refine ⟨m, h₀, ?_⟩
  by_cases his : m.is g t = true
  · rw [if_pos his]
    refine ⟨⟨rfl, rfl, rfl⟩, rfl, ?_, fun _ _ => ?_⟩
    · rintro (hc | hne)
      · exact absurd hc hd
      · exact absurd ((Matter.is_iff.1 his).1.trans ht.symm) hne
    · rw [hg, ht]
      simp [separateMembers, Tables.messageIdsOf, Tables.membersOf]
  · rw [if_neg his]
    refine ⟨⟨rfl, rfl, rfl⟩, rfl, fun _ => rfl, ?_⟩
    intro _ hid
    obtain ⟨m₀, hm₀, hid₀, hg₀⟩ := mem_matterKeys.1 hin
    have hsame := hs.matter_unique h₀ hm₀ ((hid.trans ht).trans hid₀.symm)
    exact absurd (Matter.is_iff.2 ⟨hid.trans ht, hsame ▸ hg₀⟩) his

variable {u : UserDecision}

theorem matter_carriedOut (hs : Sound s) (ha : Accepted u d s)
    (hhoused : ∀ r ∈ (d.carryOut s).members, (r.matterId, r.generationId) ∈ s.matterKeys)
    (hm : m' ∈ (d.carryOut s).matters) :
    ∃ m ∈ s.matters, CarriedOut d (d.carryOut s) m m' := by
  obtain ⟨m₀, hm₀, hid₀, hg₀⟩ := mem_matterKeys.1 ha.matter
  have hgen : ∀ r ∈ (d.carryOut s).members, r.matterId = d.matterId →
      r.generationId = d.generationId := by
    intro r hr hrt
    obtain ⟨m₁, hm₁, hid₁, hg₁⟩ := mem_matterKeys.1 (hhoused r hr)
    rw [← hg₁, hs.matter_unique hm₁ hm₀ (hid₁.trans (hrt.trans hid₀.symm))]
    exact hg₀
  unfold Decision.carryOut at hm hgen ⊢
  cases hd : d.decision with
  | confirm =>
    rw [hd] at hm
    obtain ⟨m, h₀, rfl⟩ := mem_updateWhere.1 hm
    refine ⟨m, h₀, ?_⟩
    by_cases hid : (m.id == d.matterId) = true
    · rw [if_pos hid]
      exact ⟨⟨rfl, rfl, rfl⟩, rfl, fun _ => rfl, fun hne => absurd hd hne⟩
    · rw [if_neg hid]
      exact ⟨⟨rfl, rfl, rfl⟩, rfl, fun _ => rfl, fun hne => absurd hd hne⟩
  | separate =>
    rw [hd] at hm
    exact matter_separated hs (by simp [hd]) rfl rfl ha.matter hm
  | merge | move =>
    rw [hd] at hm hgen
    exact matter_moved (by simp [hd]) rfl rfl hgen hm

/-! ## The invariant -/

theorem subgoals_decided (hrecord : u.acceptedRecord s = some d) :
    (applyUserDecision u s).subgoals = s.subgoals ∧
      (applyUserDecision u s).matters = (d.carryOut s).matters := by
  have hcarry : (d.carryOut s).subgoals = s.subgoals := by
    unfold Decision.carryOut
    cases d.decision <;> rfl
  simp [applyUserDecision, hrecord, raiseRevision, hcarry]

theorem dated_of (hdated : ∀ r ∈ s.members, (s.dateOf r.messageId).isSome = true)
    (hmessages : s'.messages = s.messages)
    (h : ∀ g t x, x ∈ s'.messageIdsOf g t → (∃ g₀ t₀, x ∈ s.messageIdsOf g₀ t₀) ∨
      (s.dateOf x).isSome = true) :
    ∀ r ∈ s'.members, (s'.dateOf r.messageId).isSome = true := by
  intro r hr
  rw [Tables.dateOf, hmessages]
  show (s.dateOf r.messageId).isSome = true
  rcases h _ _ _ (Tables.mem_messageIdsOf.2 ⟨r, hr, rfl, rfl, rfl⟩) with ⟨g, t, hx⟩ | hsome
  · obtain ⟨r₀, h₀, _, _, hid⟩ := Tables.mem_messageIdsOf.1 hx
    rw [← hid]
    exact hdated r₀ h₀
  · exact hsome

theorem projected_of_latest (hsound : Sound s') (hlatest : ∀ m' ∈ s'.matters, m'.visible = true →
      ∃ n, m'.latestMessageAt = some n ∧ s'.latestOf m'.generationId m'.id = some n)
    (hstatus : ∀ m' ∈ s'.matters, s'.subgoalsOf m'.generationId m'.id ≠ [] →
      m'.status = derivedMatterStatus (s'.subgoalStatuses m'.generationId m'.id) m'.status) :
    Projected s' where
  oneMatter := by
    intro r hr r' hr' hg hx
    rw [hsound.unique r hr r' hr' hg hx]
  inhabited := by
    intro m hm hv
    obtain ⟨n, _, hn⟩ := hlatest m hm hv
    exact messageIdsOf_ne_nil hn
  latest := by
    intro m hm hv
    obtain ⟨n, hn, hn'⟩ := hlatest m hm hv
    rw [hn, hn']
  status := hstatus

theorem ProjectionKept.latest (h : ProjectionKept s) (hm : m ∈ s.matters) (hv : m.visible = true) :
    ∃ n, m.latestMessageAt = some n ∧ s.latestOf m.generationId m.id = some n := by
  obtain ⟨n, hn⟩ := exists_latestOf h.dated (h.projected.inhabited m hm hv)
  exact ⟨n, (h.projected.latest m hm hv).trans hn, hn⟩

theorem subgoalStatuses_congr
    (h : s'.subgoalsOf g t = s.subgoalsOf g t) : s'.subgoalStatuses g t = s.subgoalStatuses g t := by
  rw [Tables.subgoalStatuses, h, Tables.subgoalStatuses]

section

variable (h : ProjectionKept s)
include h

section

variable (hw : Written a (s.lockedMatterId a.generationId a.messageId) s s')
include hw

theorem latestOf_left (hid : m.id ≠ a.written s) :
    (m.generationId = a.generationId ∧ a.messageId ∈ s.messageIdsOf m.generationId m.id ∧
      s'.latestOf m.generationId m.id = s.latestWithout m.generationId m.id [a.messageId]) ∨
    s'.latestOf m.generationId m.id = s.latestOf m.generationId m.id := by
  have hmem : ∀ x, x ∈ s'.messageIdsOf m.generationId m.id ↔
      x ∈ s.messageIdsOf m.generationId m.id ∧
        ¬ (m.generationId = a.generationId ∧ x = a.messageId) := by
    intro x
    rw [mem_messageIdsOf_applied h.sound hw]
    simp [hid]
  by_cases hin : m.generationId = a.generationId ∧ a.messageId ∈ s.messageIdsOf m.generationId m.id
  · left
    refine ⟨hin.1, hin.2, latestOf_without hw.messages ?_⟩
    intro x
    rw [hmem x]
    simp [hin.1]
  · right
    apply latestOf_congr hw.messages
    intro x
    rw [hmem x]
    constructor
    · exact And.left
    · intro hx
      refine ⟨hx, ?_⟩
      rintro ⟨hg, rfl⟩
      exact hin ⟨hg, hx⟩

theorem latestOf_written {date : Nat}
    (hdate : s.dateOf a.messageId = some date)
    (hold : s.latestOf a.generationId (a.written s) = some n) :
    s'.latestOf a.generationId (a.written s) = some (max n date) := by
  have hmem := fun x => mem_messageIdsOf_applied (g := a.generationId) (t := a.written s) (x := x)
    h.sound hw
  have hdates : s'.dateOf = s.dateOf := by
    funext x
    rw [Tables.dateOf, hw.messages, Tables.dateOf]
  have hx := (hmem a.messageId).2 (Or.inr ⟨rfl, rfl, rfl⟩)
  obtain ⟨⟨y, hy, hyn⟩, hmax⟩ := latestOf_eq_some.1 hold
  apply latestOf_eq_some.2
  rw [hdates]
  constructor
  · rcases Nat.le_total n date with hle | hle
    · exact ⟨a.messageId, hx, by rw [hdate, Nat.max_eq_right hle]⟩
    · by_cases hya : y = a.messageId
      · rw [hya, hdate] at hyn
        exact ⟨a.messageId, hx, by rw [hdate, Option.some.inj hyn, Nat.max_self]⟩
      · refine ⟨y, ?_, by rw [hyn, Nat.max_eq_left hle]⟩
        exact (hmem y).2 (Or.inl ⟨hy, fun hcon => hya hcon.2⟩)
  · intro z hz dz hdz
    rcases (hmem z).1 hz with ⟨hold', _⟩ | ⟨_, rfl, _⟩
    · exact Nat.le_trans (hmax z hold' dz hdz) (Nat.le_max_left _ _)
    · rw [Option.mem_def, hdate] at hdz
      rw [Option.some.inj hdz]
      exact Nat.le_max_right _ _

theorem latestOf_new {date : Nat}
    (hdate : s.dateOf a.messageId = some date) (hnew : a.written s = s.nextId) :
    s'.latestOf a.generationId (a.written s) = some date := by
  have hmem := fun x => mem_messageIdsOf_applied (g := a.generationId) (t := a.written s) (x := x)
    h.sound hw
  have hdates : s'.dateOf = s.dateOf := by
    funext x
    rw [Tables.dateOf, hw.messages, Tables.dateOf]
  have hnone : ∀ x, x ∉ s.messageIdsOf a.generationId (a.written s) := by
    intro x hx
    obtain ⟨r, hr, _, ht, _⟩ := Tables.mem_messageIdsOf.1 hx
    have := h.sound.matterBelow _ (h.sound.housed r hr)
    rw [ht, hnew] at this
    exact absurd this (Nat.lt_irrefl _)
  apply latestOf_eq_some.2
  rw [hdates]
  constructor
  · exact ⟨a.messageId, (hmem _).2 (Or.inr ⟨rfl, rfl, rfl⟩), hdate⟩
  · intro z hz dz hdz
    rcases (hmem z).1 hz with ⟨hold, _⟩ | ⟨_, rfl, _⟩
    · exact absurd hold (hnone z)
    · rw [Option.mem_def, hdate] at hdz
      exact le_of_eq (Option.some.inj hdz).symm

end

theorem status_applied (happlied : Applied a (s.lockedMatterId a.generationId a.messageId) s s')
    (hm' : m' ∈ s'.matters) (hne : s'.subgoalsOf m'.generationId m'.id ≠ []) :
    m'.status = derivedMatterStatus (s'.subgoalStatuses m'.generationId m'.id) m'.status := by
  by_cases hid : m'.id = a.written s
  · rcases happlied.status m' hm' hid hne with hderived | ⟨hsame, m, hm, hid₀, hg₀, hstatus⟩
    · rw [derivedMatterStatus_fallback _ m'.status a.status]
      · exact hderived
      · simpa [Tables.subgoalStatuses] using hne
    · have hsubs : ∀ g t, s'.subgoalsOf g t = s.subgoalsOf g t := by
        intro g t
        rw [Tables.subgoalsOf, hsame, Tables.subgoalsOf]
      rw [hsubs, ← hid₀, ← hg₀] at hne
      rw [subgoalStatuses_congr (hsubs _ _), hstatus, ← hid₀, ← hg₀]
      exact h.projected.status m hm hne
  · rcases happlied.matters m' hm' with ⟨m, hm, _, rfl⟩ | ⟨m, _, hid₀, hid', _⟩ | ⟨hnew, hid', _⟩
    · have hsubs := happlied.others m'.generationId m'.id (fun hcon => hid hcon.2)
      rw [hsubs] at hne
      rw [subgoalStatuses_congr hsubs]
      exact h.projected.status m' hm hne
    · exact absurd (hid'.trans hid₀) hid
    · exact absurd (hid'.trans hnew.symm) hid

theorem projectionKept_assign (hgood : LeavesLatest s a) (happly : applyMatterAssignment a s = some s') :
    ProjectionKept s' := by
  have hw := writeAssignment_written happly
  have hsound := sound_writeAssignment h.sound h.generations happly
  obtain ⟨happlied, hsub⟩ := writeAssignment_applied h.sound h.subgoals happly
  obtain ⟨date, hdate⟩ : ∃ date, s.dateOf a.messageId = some date := by
    have := hw.writable
    simp only [Assignment.isWritable, Bool.and_eq_true] at this
    exact Option.isSome_iff_exists.1 this.1.1
  refine ⟨hsound, hsub, ?_, ?_, ?_⟩
  · intro g hg
    rw [hw.generations] at hg
    exact Nat.lt_trans (h.generations g hg) hw.nextId
  · apply dated_of h.dated hw.messages
    intro g t x hx
    rcases (mem_messageIdsOf_applied h.sound hw).1 hx with ⟨hold, _⟩ | ⟨_, rfl, _⟩
    · exact Or.inl ⟨g, t, hold⟩
    · exact Or.inr (by rw [hdate]; rfl)
  · apply projected_of_latest hsound
    · intro m' hm' hv
      rcases happlied.matters m' hm' with ⟨m, hm, hid, rfl⟩ |
        ⟨m, hm, hid, hid', hg', hg, hv', hl⟩ | ⟨hnew, hid', hg', hl⟩
      · -- A matter that is not written has the date of those that remain.
        obtain ⟨n, hn, hold⟩ := h.latest hm hv
        refine ⟨n, hn, ?_⟩
        rcases latestOf_left h hw hid with ⟨hgen, hin, hleft⟩ | hsame
        · rw [hleft, hgood hw.writable m' hm hv hgen hid hin, hn]
        · rw [hsame, hold]
      · rw [hv'] at hv
        obtain ⟨n, hn, hold⟩ := h.latest hm hv
        refine ⟨max n date, by rw [hl, hn, hdate]; rfl, ?_⟩
        rw [hg, hid] at hold
        rw [hg', hid', hid]
        exact latestOf_written h hw hdate hold
      · refine ⟨date, by rw [hl, hdate]; rfl, ?_⟩
        rw [hg', hid', ← hnew]
        exact latestOf_new h hw hdate hnew
    · exact fun m' hm' hne => status_applied h happlied hm' hne

end

/-! ## Merges -/

theorem projectionKept_merge (h : ProjectionKept s)
    (hm : Merged g source target s (mergeReconciledMatters g source target status s)) :
    ProjectionKept (mergeReconciledMatters g source target status s) := by
  obtain ⟨hr, hsub⟩ := mergeReconciledMatters_reconciled h.subgoals hm
  obtain ⟨hne, _, ⟨m₀, hm₀, hid₀, hg₀, hv₀⟩, _, _⟩ := mergeable_facts hm.mergeable
  have hsound := sound_merged h.sound hm
  have hdated : ∀ r ∈ (mergeReconciledMatters g source target status s).members,
      ((mergeReconciledMatters g source target status s).dateOf r.messageId).isSome = true := by
    apply dated_of h.dated hm.messages
    intro g' t' x hx
    rcases (mem_messageIdsOf_merged hm).1 hx with ⟨hold, _⟩ | ⟨_, _, hold⟩
    · exact Or.inl ⟨_, _, hold⟩
    · exact Or.inl ⟨_, _, hold⟩
  refine ⟨hsound, hsub, ?_, hdated, ?_⟩
  · intro x hx
    rw [hm.generations] at hx
    exact lt_of_lt_of_le (h.generations x hx) hm.nextId
  · apply projected_of_latest hsound
    · intro m' hm' hv
      obtain ⟨m, hmem, hid, hgen, hcase⟩ := hr.matters m' hm'
      rcases hcase with ⟨_, hhidden⟩ | ⟨htarget, _, hl, _⟩ | ⟨hs, ht, rfl⟩
      · rw [hhidden] at hv
        cases hv
      · -- The target still has its members, and its date is computed from them.
        obtain ⟨htid, htg⟩ := Matter.is_iff.1 htarget
        have hsome : (mergeReconciledMatters g source target status s).messageIdsOf g target ≠ [] := by
          have hold := h.projected.inhabited m₀ hm₀ hv₀
          rw [hid₀, hg₀] at hold
          obtain ⟨x, hx⟩ := List.exists_mem_of_ne_nil _ hold
          refine List.ne_nil_of_mem ((mem_messageIdsOf_merged hm).2 (Or.inl ⟨hx, ?_⟩))
          exact fun hcon => hne hcon.2.symm
        obtain ⟨n, hn⟩ := exists_latestOf hdated hsome
        refine ⟨n, hl.trans hn, ?_⟩
        rw [hid, hgen, htid, htg]
        exact hn
      · obtain ⟨n, hn, hold⟩ := h.latest hmem hv
        refine ⟨n, hn, ?_⟩
        rw [← hold]
        apply latestOf_congr hm.messages
        intro x
        rw [mem_messageIdsOf_merged hm]
        rw [← Bool.not_eq_true, Matter.is_iff] at hs ht
        constructor
        · rintro (⟨hx, _⟩ | ⟨hg', ht', _⟩)
          · exact hx
          · exact absurd ⟨ht', hg'⟩ ht
        · exact fun hx => Or.inl ⟨hx, fun hcon => hs ⟨hcon.2, hcon.1⟩⟩
    · intro m' hm' hsubs
      obtain ⟨m, hmem, hid, hgen, hcase⟩ := hr.matters m' hm'
      rcases hcase with ⟨hs, _⟩ | ⟨htarget, _, _, hstatus⟩ | ⟨hs, ht, rfl⟩
      · obtain ⟨hsid, hsg⟩ := Matter.is_iff.1 hs
        rw [hid, hgen, hsid, hsg] at hsubs
        exact absurd hr.emptied hsubs
      · obtain ⟨htid, htg⟩ := Matter.is_iff.1 htarget
        rw [hid, hgen, htid, htg] at hsubs ⊢
        rw [derivedMatterStatus_fallback _ m'.status status]
        · exact hstatus
        · simpa [Tables.subgoalStatuses] using hsubs
      · have hsame := hr.others m'.generationId m'.id (by
          rw [← Bool.not_eq_true, Matter.is_iff] at hs ht
          rintro ⟨hg', ht' | ht'⟩
          · exact hs ⟨ht', hg'⟩
          · exact ht ⟨ht', hg'⟩)
        rw [hsame] at hsubs
        rw [subgoalStatuses_congr hsame]
        exact h.projected.status m' hmem hsubs

/-! ## Decisions -/

theorem latestOf_source (hd : Decided d s s') :
    s'.latestOf d.generationId d.matterId = s.latestWithout d.generationId d.matterId d.leaving := by
  apply latestOf_without hd.messages
  intro x
  rw [mem_messageIdsOf_decided hd, Decision.leaving]
  by_cases hdest : d.destination = some d.matterId
  · rw [if_pos hdest]
    simp only [true_and, List.not_mem_nil, not_false_eq_true, and_true, hdest]
    constructor
    · rintro (⟨hx, _⟩ | ⟨_, hx⟩)
      · exact hx
      · exact hx
    · intro hx
      by_cases hsel : x ∈ d.messageIds
      · exact Or.inr ⟨hsel, hx⟩
      · exact Or.inl ⟨hx, hsel⟩
  · simp [hdest]

theorem latestOf_elsewhere (hd : Decided d s s') (hsource : ¬ (g = d.generationId ∧ t = d.matterId))
    (htarget : ¬ (g = d.generationId ∧ d.destination = some t)) :
    s'.latestOf g t = s.latestOf g t := by
  apply latestOf_congr hd.messages
  intro x
  rw [mem_messageIdsOf_decided hd]
  constructor
  · rintro (⟨hx, _⟩ | ⟨hg, hdest, _⟩)
    · exact hx
    · exact absurd ⟨hg, hdest⟩ htarget
  · exact fun hx => Or.inl ⟨hx, fun hcon => hsource ⟨hcon.1, hcon.2.1⟩⟩

theorem latestOf_target (hd : Decided d s s')
    (hne : t ≠ d.matterId) (hold : s.latestOf d.generationId t = some n)
    (hmoved : ∀ x ∈ d.messageIds, x ∈ s.messageIdsOf d.generationId d.matterId →
      ∀ date ∈ s.dateOf x, date ≤ n) : s'.latestOf d.generationId t = some n := by
  have hdates : s'.dateOf = s.dateOf := by
    funext x
    rw [Tables.dateOf, hd.messages, Tables.dateOf]
  obtain ⟨⟨y, hy, hyn⟩, hmax⟩ := latestOf_eq_some.1 hold
  apply latestOf_eq_some.2
  rw [hdates]
  constructor
  · exact ⟨y, (mem_messageIdsOf_decided hd).2 (Or.inl ⟨hy, fun hcon => hne hcon.2.1⟩), hyn⟩
  · intro z hz date hdate
    rcases (mem_messageIdsOf_decided hd).1 hz with ⟨hz, _⟩ | ⟨_, _, hsel, hz⟩
    · exact hmax z hz date hdate
    · exact hmoved z hsel hz date hdate

theorem is_of_matterId (hs : Sound s)
    (ha : Accepted u d s) (hm : m ∈ s.matters) (hid : m.id = d.matterId) :
    m.generationId = d.generationId := by
  obtain ⟨m₀, hm₀, hid₀, hg₀⟩ := mem_matterKeys.1 ha.matter
  rw [hs.matter_unique hm hm₀ (hid.trans hid₀.symm)]
  exact hg₀

theorem generation_of_destination (hs : Sound s)
    (ha : Accepted u d s) (hm : m ∈ s.matters) (hdest : d.destination = some m.id) :
    m.generationId = d.generationId := by
  obtain ⟨m₀, hm₀, hid₀, hg₀⟩ := mem_matterKeys.1 (ha.destination_mem hdest)
  rw [hs.matter_unique hm hm₀ hid₀.symm]
  exact hg₀

theorem matters_decided (hs : Sound s)
    (hrecord : u.acceptedRecord s = some d) (hd : Decided d s (applyUserDecision u s)) :
    ∀ m' ∈ (applyUserDecision u s).matters, ∃ m ∈ s.matters,
      CarriedOut d (applyUserDecision u s) m m' := by
  have ha := accepted_of_record hrecord
  obtain ⟨_, hmatters⟩ := subgoals_decided hrecord
  have hsound := sound_decided hs ha hd
  intro m' hm'
  rw [hmatters] at hm'
  obtain ⟨m, hm, hc⟩ := matter_carriedOut hs ha (by
    intro r hr
    have := hsound.housed r (hd.members ▸ hr)
    rw [hd.matterKeys] at this
    exact this) hm'
  refine ⟨m, hm, hc.sameDates, hc.status, hc.frame, ?_⟩
  intro hne hid
  rw [hc.shown hne hid, Tables.messageIdsOf, Tables.messageIdsOf, Tables.membersOf,
    Tables.membersOf, hd.members]

theorem dated_decided (h : ProjectionKept s) (hd : Decided d s s') :
    ∀ r ∈ s'.members, (s'.dateOf r.messageId).isSome = true := by
  apply dated_of h.dated hd.messages
  intro g t x hx
  rcases (mem_messageIdsOf_decided hd).1 hx with ⟨hold, _⟩ | ⟨_, _, _, hold⟩
  · exact Or.inl ⟨_, _, hold⟩
  · exact Or.inl ⟨_, _, hold⟩

theorem projectionKept_decide
    (h : ProjectionKept s) (hgood : DecidesLatest s u) (hrecord : u.acceptedRecord s = some d)
    (hd : Decided d s (applyUserDecision u s)) : ProjectionKept (applyUserDecision u s) := by
  have ha := accepted_of_record hrecord
  have hsound := sound_decided h.sound ha hd
  have hmatters := matters_decided h.sound hrecord hd
  obtain ⟨hsubs, _⟩ := subgoals_decided hrecord
  have hnext : s.nextId ≤ (applyUserDecision u s).nextId := by
    rw [hd.nextId]
    exact Nat.le_succ _
  refine ⟨hsound, h.subgoals.of_eq hsubs ?_ hnext, ?_, dated_decided h hd, ?_⟩
  · intro k hk
    rw [hd.matterKeys]
    exact hk
  · intro g hg
    rw [hd.generations] at hg
    exact lt_of_lt_of_le (h.generations g hg) hnext
  · apply projected_of_latest hsound
    · intro m' hm' hv
      obtain ⟨m, hm, hc⟩ := hmatters m' hm'
      rw [hc.sameDates.id, hc.sameDates.generationId, hc.sameDates.latest]
      by_cases hconfirm : d.decision = .confirm
      · -- A confirmation leaves all members where they are.
        rw [hc.frame (Or.inl hconfirm)] at hv
        obtain ⟨n, hn, hold⟩ := h.latest hm hv
        have hdest : d.destination = some d.matterId := by
          simp [Decision.destination, hconfirm]
        refine ⟨n, hn, ?_⟩
        by_cases hid : m.id = d.matterId
        · have hg := is_of_matterId h.sound ha hm hid
          rw [hg, hid] at hold ⊢
          rw [latestOf_source hd, Decision.leaving, if_pos hdest, ← hold]
          simp [Tables.latestWithout, Tables.latestOf]
        · rw [latestOf_elsewhere hd, hold]
          · exact fun hcon => hid hcon.2
          · rw [hdest]
            exact fun hcon => hid (Option.some.inj hcon.2).symm
      · obtain ⟨hsource, htarget⟩ := hgood d hrecord hconfirm
        by_cases hid : m.id = d.matterId
        · -- The matter of the decision has the date of those that remain.
          have hg := is_of_matterId h.sound ha hm hid
          rw [hc.shown hconfirm hid] at hv
          obtain ⟨n, hn⟩ := exists_latestOf (dated_decided h hd) hv
          rw [hg, hid]
          refine ⟨n, ?_, hn⟩
          rw [latestOf_source hd] at hn
          exact hsource m hm (Matter.is_iff.2 ⟨hid, hg⟩) n hn
        · rw [hc.frame (Or.inr hid)] at hv
          obtain ⟨n, hn, hold⟩ := h.latest hm hv
          refine ⟨n, hn, ?_⟩
          by_cases hdest : d.destination = some m.id
          · have hg := generation_of_destination h.sound ha hm hdest
            rw [hg] at hold ⊢
            apply latestOf_target hd hid hold
            intro x hx hin date hdate
            exact htarget m hm hdest hid hv x hx hin date hdate n hn
          · rw [latestOf_elsewhere hd, hold]
            · exact fun hcon => hid hcon.2
            · exact fun hcon => hdest hcon.2
    · intro m' hm' hne
      obtain ⟨m, hm, hc⟩ := hmatters m' hm'
      have hsame : ∀ g t, (applyUserDecision u s).subgoalsOf g t = s.subgoalsOf g t := by
        intro g t
        rw [Tables.subgoalsOf, hsubs, Tables.subgoalsOf]
      rw [hsame, hc.sameDates.id, hc.sameDates.generationId] at hne
      rw [subgoalStatuses_congr (hsame _ _), hc.status, hc.sameDates.id, hc.sameDates.generationId]
      exact h.projected.status m hm hne

/-! ## Runs -/

theorem projectionKept_step {l : ProjectionLabel} (h : ProjectionKept s)
    (hgood : DateKeeping s l) : ProjectionKept (projectionStep s l) := by
  cases l with
  | assign a =>
    cases happly : applyMatterAssignment a s with
    | none => simpa [projectionStep, happly] using h
    | some s' => simpa [projectionStep, happly] using projectionKept_assign h hgood happly
  | mergeReconciled g source target status =>
    rcases mergeReconciledMatters_cases g source target status s with hsame | hm
    · simp only [projectionStep, hsame]
      exact h
    · exact projectionKept_merge h hm
  | decide u =>
    rcases applyUserDecision_cases u s with ⟨_, hsame⟩ | ⟨d, hrecord, hd⟩
    · simp only [projectionStep, hsame]
      exact h
    · exact projectionKept_decide h hgood hrecord hd

theorem dateKeeping_of_projected {l : ProjectionLabel} (h : ProjectionKept s)
    (hprojected : Projected (projectionStep s l)) : DateKeeping s l := by
  cases l with
  | assign a =>
    intro hwritable m hm hv hg hid hin
    obtain ⟨s', happly⟩ : ∃ s', applyMatterAssignment a s = some s' := by
      rw [applyMatterAssignment, writeAssignment, if_pos hwritable]
      exact ⟨_, rfl⟩
    have hprojected : Projected s' := by simpa [projectionStep, happly] using hprojected
    obtain ⟨happlied, _⟩ := writeAssignment_applied h.sound h.subgoals happly
    have hw := writeAssignment_written happly
    rw [hprojected.latest m (happlied.keeps m hm hid) hv]
    symm
    apply latestOf_without hw.messages
    intro x
    rw [mem_messageIdsOf_applied h.sound hw]
    simp [hg, hid]
  | mergeReconciled => trivial
  | decide u =>
    intro d hrecord hconfirm
    rcases applyUserDecision_cases u s with ⟨hnone, _⟩ | ⟨d', hrecord', hd⟩
    · rw [hnone] at hrecord
      cases hrecord
    obtain rfl := Option.some.inj (hrecord.symm.trans hrecord')
    have ha := accepted_of_record hrecord'
    have hafter : ∀ m ∈ s.matters, ∃ m' ∈ (applyUserDecision u s).matters,
        CarriedOut d (applyUserDecision u s) m m' := by
      intro m hm
      have hkey : (m.id, m.generationId) ∈ (applyUserDecision u s).matterKeys := by
        rw [hd.matterKeys]
        exact mem_matterKeys.2 ⟨m, hm, rfl, rfl⟩
      obtain ⟨m', hm', hid', _⟩ := mem_matterKeys.1 hkey
      obtain ⟨m₀, hm₀, hc⟩ := matters_decided h.sound hrecord' hd m' hm'
      have hsame := h.sound.matter_unique hm₀ hm (hc.sameDates.id.symm.trans hid')
      exact ⟨m', hm', hsame ▸ hc⟩
    constructor
    · intro m hm his latest hlatest
      obtain ⟨hid, hg⟩ := Matter.is_iff.1 his
      obtain ⟨m', hm', hc⟩ := hafter m hm
      rw [Option.mem_def, ← latestOf_source hd] at hlatest
      have hv : m'.visible = true := (hc.shown hconfirm hid).2 (messageIdsOf_ne_nil hlatest)
      rw [← hc.sameDates.latest, hprojected.latest m' hm' hv, hc.sameDates.id,
        hc.sameDates.generationId, hid, hg]
      exact hlatest
    · intro m hm hdest hid hv x hx hin date hdate latest hlatest
      obtain ⟨m', hm', hc⟩ := hafter m hm
      have hv' : m'.visible = true := (hc.frame (Or.inr hid)).trans hv
      have hright := hprojected.latest m' hm' hv'
      rw [hc.sameDates.latest, hc.sameDates.id, hc.sameDates.generationId,
        generation_of_destination h.sound ha hm hdest, Option.mem_def.1 hlatest] at hright
      have hmem : x ∈ (applyUserDecision u s).messageIdsOf d.generationId m.id :=
        (mem_messageIdsOf_decided hd).2 (Or.inr ⟨rfl, hdest, hx, hin⟩)
      apply (latestOf_eq_some.1 hright.symm).2 x hmem
      show date ∈ (applyUserDecision u s).dateOf x
      rw [Tables.dateOf, hd.messages]
      exact hdate

def Tables.unsorted (s : Tables) : Tables :=
  { s with matters := [], members := [], subgoals := [], decisions := [] }

/-- **The matters are right in every state** of exactly those runs in which every step keeps
the dates, from any profile, generations and messages. -/
theorem projection_kept (s : Tables) (hs : ∀ g ∈ s.generations, g.id < s.nextId)
    (ls : List ProjectionLabel) :
    Throughout projectionStep Projected s.unsorted ls ↔
      Along projectionStep DateKeeping s.unsorted ls := by
  have hstart : ProjectionKept s.unsorted := by
    refine ⟨⟨?_, ?_, ?_, ?_, ?_⟩, ⟨?_, ?_, ?_⟩, hs, ?_, ⟨?_, ?_, ?_, ?_⟩⟩ <;>
      simp [Tables.unsorted, Tables.matterKeys]
  apply throughout_iff_along _ _ _ hstart
  · exact fun s h => h.projected
  · exact fun s l h hl => projectionKept_step h hl
  · exact fun s l h hl => dateKeeping_of_projected h hl

/-- An enabled account with an active generation and two messages that wait for a matter. -/
def unsortedPair : Tables :=
  { Tables.fresh [⟨1, 10⟩, ⟨2, 20⟩] with
    profile := some ⟨true, true, .focused, .live, some 0, 1⟩
    generations := [⟨0, .active, .focused, none, false⟩]
    nextId := 1 }

def sortPair : List ProjectionLabel :=
  [.assign ⟨0, 1, none, .needsYou, [], false, .model⟩,
   .assign ⟨0, 2, some 1, .needsYou, [], false, .model⟩]

/-- The user separates the older message, and the matter keeps the date of the later one. -/
theorem projection_kept_separateOlder :
    Throughout projectionStep Projected unsortedPair.unsorted
      (sortPair ++ [.decide ⟨"separate", .separate, 1, none, [1], 2⟩]) :=
  (projection_kept unsortedPair (by decide) _).2 (by decide +kernel)

/-- The user separates the later message, and the matter keeps its date. -/
theorem separated_date_remains :
    ¬ Throughout projectionStep Projected unsortedPair.unsorted
      (sortPair ++ [.decide ⟨"separate", .separate, 1, none, [2], 2⟩]) := by
  intro h
  have hlatest := h.last.latest
  revert hlatest
  decide +kernel

end ElectronicMail.Matters
