import ElectronicMail.Matters.Lifecycle
import ElectronicMail.Matters.Membership

/-!
# What the transactions do to the members

For each transaction the rows of `matter_members` after it, and the tables it leaves
alone. `Keyed` is the primary key, a message is in one matter of a generation, with what
keeps it when a generation is copied: the generations of the members are old.
-/

namespace ElectronicMail.Matters

open Foundations.Table

variable {row r : Member} {ms : List Member}

/-! ## One statement -/

/-- A member after an upsert is one that the upsert leaves alone, or the written one, and
then no member of its message is locked. -/
theorem mem_upsertMember (hrow : row.membershipLocked = false)
    (hkey : ∀ r₁ ∈ ms, ∀ r₂ ∈ ms, r₁.isOf row.generationId row.messageId = true →
      r₂.isOf row.generationId row.messageId = true → r₁ = r₂) (h : r ∈ upsertMember row ms) :
    (r ∈ ms ∧ (r.isOf row.generationId row.messageId = false ∨ r.membershipLocked = true)) ∨
      (r.generationId = row.generationId ∧ r.messageId = row.messageId ∧
        r.matterId = row.matterId ∧ r.membershipLocked = false ∧
        ∀ r₀ ∈ ms, r₀.isOf row.generationId row.messageId = true →
          r₀.membershipLocked = false) := by
  unfold upsertMember at h
  by_cases hany : ms.any (Member.isOf row.generationId row.messageId) = true
  · rw [if_pos hany] at h
    obtain ⟨r₀, h₀, rfl⟩ := mem_updateWhere.1 h
    by_cases hof : r₀.isOf row.generationId row.messageId = true
    · rw [if_pos hof]
      by_cases hlocked : r₀.membershipLocked = true
      · rw [if_pos hlocked]
        exact Or.inl ⟨h₀, Or.inr hlocked⟩
      rw [if_neg hlocked]
      obtain ⟨hg, hx⟩ := Member.isOf_iff.1 hof
      refine Or.inr ⟨hg, hx, rfl, by simpa using hlocked, ?_⟩
      intro r₁ h₁ hof₁
      rw [hkey r₁ h₁ r₀ h₀ hof₁ hof]
      simpa using hlocked
    · rw [if_neg hof]
      exact Or.inl ⟨h₀, Or.inl (Bool.not_eq_true _ ▸ hof)⟩
  · rw [if_neg hany, List.mem_append, List.mem_singleton] at h
    have hnone : ∀ r₀ ∈ ms, ¬ r₀.isOf row.generationId row.messageId = true :=
      fun r₀ h₀ hof => hany (List.any_eq_true.2 ⟨r₀, h₀, hof⟩)
    rcases h with h | rfl
    · exact Or.inl ⟨h, Or.inl (Bool.not_eq_true _ ▸ hnone r h)⟩
    · exact Or.inr ⟨rfl, rfl, rfl, hrow, fun r₀ h₀ hof => absurd hof (hnone r₀ h₀)⟩

theorem upsertMember_keeps (h : r ∈ ms)
    (hkeep : r.isOf row.generationId row.messageId = false ∨ r.membershipLocked = true) :
    r ∈ upsertMember row ms := by
  unfold upsertMember
  by_cases hany : ms.any (Member.isOf row.generationId row.messageId) = true
  · rw [if_pos hany]
    refine mem_updateWhere.2 ⟨r, h, ?_⟩
    rcases hkeep with hof | hlocked
    · simp [hof]
    · simp [hlocked]
  · rw [if_neg hany]
    exact List.mem_append_left _ h

theorem exists_mem_upsertMember (row : Member) (ms : List Member) :
    ∃ r ∈ upsertMember row ms, r.isOf row.generationId row.messageId = true := by
  unfold upsertMember
  by_cases hany : ms.any (Member.isOf row.generationId row.messageId) = true
  · rw [if_pos hany]
    obtain ⟨r, hr, hof⟩ := List.any_eq_true.1 hany
    refine ⟨_, mem_updateWhere.2 ⟨r, hr, rfl⟩, ?_⟩
    rw [if_pos hof]
    by_cases hlocked : r.membershipLocked = true
    · rw [if_pos hlocked]
      exact hof
    · rw [if_neg hlocked]
      exact hof
  · rw [if_neg hany]
    exact ⟨row, by simp, by simp⟩

/-! ## Keys and foreign keys -/

def Tables.matterKeys (s : Tables) : List (Nat × Nat) :=
  s.matters.map fun m => (m.id, m.generationId)

/-- The primary keys of members and matters, the matter of every member, and no row with
an id to come. -/
structure Sound (s : Tables) : Prop where
  unique : ∀ r ∈ s.members, ∀ r' ∈ s.members, r.generationId = r'.generationId →
    r.messageId = r'.messageId → r = r'
  below : ∀ r ∈ s.members, r.generationId < s.nextId
  matterIds : (s.matterKeys.map Prod.fst).Nodup
  matterBelow : ∀ k ∈ s.matterKeys, k.1 < s.nextId
  housed : ∀ r ∈ s.members, (r.matterId, r.generationId) ∈ s.matterKeys

theorem sound_fresh (messages : List Message) : Sound (Tables.fresh messages) where
  unique := by simp [Tables.fresh]
  below := by simp [Tables.fresh]
  matterIds := by simp [Tables.fresh, Tables.matterKeys]
  matterBelow := by simp [Tables.fresh, Tables.matterKeys]
  housed := by simp [Tables.fresh]

variable {s : Tables} {t g : Nat}

theorem mem_matterKeys :
    (t, g) ∈ s.matterKeys ↔ ∃ m ∈ s.matters, m.id = t ∧ m.generationId = g := by
  simp [Tables.matterKeys]

theorem Sound.matter_unique (h : Sound s) {m m' : Matter} (hm : m ∈ s.matters)
    (hm' : m' ∈ s.matters) (hid : m.id = m'.id) : m = m' := by
  have hnodup : (s.matters.map (·.id)).Nodup := by
    have := h.matterIds
    rw [Tables.matterKeys, List.map_map] at this
    exact this
  exact row_unique (·.id) hnodup hm hm' hid

theorem matterKeys_updateWhere {p : Matter → Bool} {f : Matter → Matter} {ms : List Matter}
    (hf : ∀ m, (f m).id = m.id ∧ (f m).generationId = m.generationId) :
    (updateWhere p f ms).map (fun m => (m.id, m.generationId)) =
      ms.map fun m => (m.id, m.generationId) := by
  apply map_updateWhere
  intro m _ _
  rw [(hf m).1, (hf m).2]

variable {s' : Tables}

/-- The rows may be rewritten in the matters that are there, as long as the members keep
their primary key. -/
theorem Sound.rewrite (h : Sound s)
    (hunique : ∀ r ∈ s'.members, ∀ r' ∈ s'.members, r.generationId = r'.generationId →
      r.messageId = r'.messageId → r = r') (hbelow : ∀ r ∈ s'.members, r.generationId < s.nextId)
    (hkeys : s'.matterKeys = s.matterKeys) (hnext : s.nextId ≤ s'.nextId)
    (hhoused : ∀ r ∈ s'.members, (r.matterId, r.generationId) ∈ s.matterKeys) : Sound s' where
  unique := hunique
  below := fun r hr => lt_of_lt_of_le (hbelow r hr) hnext
  matterIds := by
    rw [hkeys]
    exact h.matterIds
  matterBelow := by
    intro k hk
    rw [hkeys] at hk
    exact lt_of_lt_of_le (h.matterBelow k hk) hnext
  housed := by
    rw [hkeys]
    exact hhoused

structure SameRows (s s' : Tables) : Prop where
  members : s'.members = s.members
  matters : s'.matters = s.matters
  nextId : s'.nextId = s.nextId

theorem SameRows.sound (h : SameRows s s') (hs : Sound s) : Sound s' := by
  apply hs.rewrite
  · rw [h.members]
    exact hs.unique
  · rw [h.members]
    exact hs.below
  · rw [Tables.matterKeys, h.matters, Tables.matterKeys]
  · exact le_of_eq h.nextId.symm
  · rw [h.members]
    exact hs.housed

theorem unique_updateWhere {p : Member → Bool} {f : Member → Member}
    (hf : ∀ r, (f r).generationId = r.generationId ∧ (f r).messageId = r.messageId)
    (h : ∀ r ∈ ms, ∀ r' ∈ ms, r.generationId = r'.generationId →
      r.messageId = r'.messageId → r = r') :
    ∀ r ∈ updateWhere p f ms, ∀ r' ∈ updateWhere p f ms, r.generationId = r'.generationId →
      r.messageId = r'.messageId → r = r' := by
  have hkey : ∀ r : Member, (if p r then f r else r).generationId = r.generationId ∧
      (if p r then f r else r).messageId = r.messageId := by
    intro r
    by_cases hp : p r = true
    · rw [if_pos hp]
      exact hf r
    · rw [if_neg hp]
      exact ⟨rfl, rfl⟩
  intro r hr r' hr' hg hx
  obtain ⟨r₀, h₀, rfl⟩ := mem_updateWhere.1 hr
  obtain ⟨r₀', h₀', rfl⟩ := mem_updateWhere.1 hr'
  rw [(hkey r₀).1, (hkey r₀').1] at hg
  rw [(hkey r₀).2, (hkey r₀').2] at hx
  rw [h r₀ h₀ r₀' h₀' hg hx]

theorem unique_upsertMember (h : ∀ r ∈ ms, ∀ r' ∈ ms, r.generationId = r'.generationId →
      r.messageId = r'.messageId → r = r') :
    ∀ r ∈ upsertMember row ms, ∀ r' ∈ upsertMember row ms, r.generationId = r'.generationId →
      r.messageId = r'.messageId → r = r' := by
  unfold upsertMember
  by_cases hany : ms.any (Member.isOf row.generationId row.messageId) = true
  · rw [if_pos hany]
    apply unique_updateWhere _ h
    intro r
    by_cases hlocked : r.membershipLocked = true
    · rw [if_pos hlocked]
      exact ⟨rfl, rfl⟩
    · rw [if_neg hlocked]
      exact ⟨rfl, rfl⟩
  · rw [if_neg hany]
    have hnone : ∀ r ∈ ms, r.generationId = row.generationId → r.messageId ≠ row.messageId := by
      intro r hr hg hx
      exact hany (List.any_eq_true.2 ⟨r, hr, by simp [hg, hx]⟩)
    intro r hr r' hr' hg hx
    rw [List.mem_append, List.mem_singleton] at hr hr'
    rcases hr with hr | rfl
    · rcases hr' with hr' | rfl
      · exact h r hr r' hr' hg hx
      · exact absurd hx (hnone r hr hg)
    · rcases hr' with hr' | rfl
      · exact absurd hx.symm (hnone r' hr' hg.symm)
      · rfl

/-! ## apply_matter_assignment -/

theorem round_nextId (g t now : Nat) (existing : List Subgoal) (loop : SubgoalLoop)
    (u : SubgoalUpdate) : loop.nextId ≤ (loop.round g t now existing u).nextId := by
  unfold SubgoalLoop.round
  split
  · exact Nat.le_refl _
  split
  · dsimp only
    split
    · exact Nat.le_refl _
    · exact Nat.le_succ _
  · exact Nat.le_refl _

theorem foldl_round_nextId (g t now : Nat) (existing : List Subgoal) (us : List SubgoalUpdate)
    (loop : SubgoalLoop) :
    loop.nextId ≤ (us.foldl (SubgoalLoop.round g t now existing) loop).nextId := by
  induction us generalizing loop with
  | nil => exact Nat.le_refl _
  | cons u us ih => exact Nat.le_trans (round_nextId g t now existing loop u) (ih _)

theorem matterKeys_deriveStatus (g t : Nat) (fallback : MatterStatus) (s : Tables) :
    (deriveStatus g t fallback s).matterKeys = s.matterKeys :=
  matterKeys_updateWhere fun _ => ⟨rfl, rfl⟩

/-- What an assignment that succeeds leaves behind in the other tables. -/
structure Written (a : Assignment) (locked : Option Nat) (s s' : Tables) : Prop where
  writable : a.isWritable locked s = true
  members : s'.members = upsertMember (a.row locked s) s.members
  matterKeys : s'.matterKeys = (placeMessage a locked s).matterKeys
  generations : s'.generations = s.generations
  profile : s'.profile = s.profile
  decisions : s'.decisions = s.decisions
  semantics : s'.semantics = s.semantics
  messages : s'.messages = s.messages
  jobs : s'.jobs = s.jobs
  nextId : s.nextId < s'.nextId

variable {a : Assignment} {locked : Option Nat}

theorem writeAssignment_written (h : writeAssignment a locked s = some s') : Written a locked s s' := by
  unfold writeAssignment at h
  by_cases hw : a.isWritable locked s = true
  · rw [if_pos hw, Option.some.injEq] at h
    by_cases hp : (a.row locked s).provisional = true
    · rw [if_pos hp] at h
      subst h
      exact ⟨hw, rfl, rfl, rfl, rfl, rfl, rfl, rfl, rfl, Nat.lt_succ_self _⟩
    · rw [if_neg hp] at h
      subst h
      exact ⟨hw, rfl, matterKeys_deriveStatus _ _ _ _, rfl, rfl, rfl, rfl, rfl, rfl,
        Nat.lt_of_succ_le (foldl_round_nextId _ _ _ _ _ ⟨s.subgoals, [], s.nextId + 1⟩)⟩
  · rw [if_neg hw] at h
    cases h

theorem matterId_cases (h : a.isWritable locked s = true) :
    (a.matterId locked s, a.generationId) ∈ s.matterKeys ∨ a.matterId locked s = s.nextId := by
  unfold Assignment.isWritable at h
  unfold Assignment.matterId
  cases hm : locked.or a.selectedMatterId with
  | none => exact Or.inr rfl
  | some t =>
    left
    simp only [hm, Bool.and_eq_true, Option.all_some, List.any_eq_true, Matter.is_iff] at h
    obtain ⟨m, hmem, hid, hgen⟩ := h.2
    exact mem_matterKeys.2 ⟨m, hmem, hid, hgen⟩

theorem matterKeys_placeMessage (hs : Sound s) (h : a.isWritable locked s = true) :
    ((a.matterId locked s, a.generationId) ∈ s.matterKeys ∧
      (placeMessage a locked s).matterKeys = s.matterKeys) ∨ (a.matterId locked s = s.nextId ∧
      (placeMessage a locked s).matterKeys = s.matterKeys ++ [(s.nextId, a.generationId)]) := by
  rcases matterId_cases h with hold | hnew
  · left
    refine ⟨hold, ?_⟩
    obtain ⟨m, hm, hid, _⟩ := mem_matterKeys.1 hold
    have hany : s.matters.any (fun m => m.id == a.matterId locked s) = true :=
      List.any_eq_true.2 ⟨m, hm, by simp [hid]⟩
    show (upsertMatter _ _ _ _ _ s.matters).map _ = _
    rw [upsertMatter, if_pos hany]
    exact matterKeys_updateWhere fun _ => ⟨rfl, rfl⟩
  · right
    refine ⟨hnew, ?_⟩
    have hnone : ¬ s.matters.any (fun m => m.id == a.matterId locked s) = true := by
      intro hany
      obtain ⟨m, hm, hid⟩ := List.any_eq_true.1 hany
      rw [hnew, beq_iff_eq] at hid
      have := hs.matterBelow (m.id, m.generationId) (List.mem_map.2 ⟨m, hm, rfl⟩)
      simp only [hid] at this
      omega
    show (upsertMatter _ _ _ _ _ s.matters).map _ = _
    rw [upsertMatter, if_neg hnone, List.map_append, hnew]
    rfl

theorem sound_writeAssignment (hs : Sound s) (hgeneration : ∀ g ∈ s.generations, g.id < s.nextId)
    (h : writeAssignment a locked s = some s') : Sound s' := by
  have hw := writeAssignment_written h
  have hrow : a.generationId < s.nextId := by
    have := hw.writable
    simp only [Assignment.isWritable, Bool.and_eq_true, List.any_eq_true, beq_iff_eq] at this
    obtain ⟨g, hg, hid⟩ := this.1.2
    rw [← hid]
    exact hgeneration g hg
  have hkey : ∀ r₁ ∈ s.members, ∀ r₂ ∈ s.members,
      r₁.isOf a.generationId a.messageId = true → r₂.isOf a.generationId a.messageId = true →
        r₁ = r₂ := by
    intro r₁ h₁ r₂ h₂ hof₁ hof₂
    obtain ⟨hg₁, hx₁⟩ := Member.isOf_iff.1 hof₁
    obtain ⟨hg₂, hx₂⟩ := Member.isOf_iff.1 hof₂
    exact hs.unique r₁ h₁ r₂ h₂ (hg₁.trans hg₂.symm) (hx₁.trans hx₂.symm)
  have hmem : ∀ r ∈ s'.members, r ∈ s.members ∨
      (r.generationId = a.generationId ∧ r.matterId = a.matterId locked s) := by
    intro r hr
    rw [hw.members] at hr
    rcases mem_upsertMember rfl hkey hr with ⟨hold, _⟩ | ⟨hg, _, ht, _⟩
    · exact Or.inl hold
    · exact Or.inr ⟨hg, ht⟩
  have hkeys := matterKeys_placeMessage hs hw.writable
  rw [← hw.matterKeys] at hkeys
  have hsub : ∀ k ∈ s.matterKeys, k ∈ s'.matterKeys := by
    intro k hk
    rcases hkeys with ⟨_, heq⟩ | ⟨_, heq⟩
    · rw [heq]
      exact hk
    · rw [heq]
      exact List.mem_append_left _ hk
  constructor
  · rw [hw.members]
    exact unique_upsertMember hs.unique
  · intro r hr
    rcases hmem r hr with hold | ⟨hg, _⟩
    · exact Nat.lt_trans (hs.below r hold) hw.nextId
    · rw [hg]
      exact Nat.lt_trans hrow hw.nextId
  · rcases hkeys with ⟨_, heq⟩ | ⟨_, heq⟩
    · rw [heq]
      exact hs.matterIds
    · rw [heq, List.map_append, List.nodup_append]
      refine ⟨hs.matterIds, by simp, ?_⟩
      intro x hx y hy
      obtain ⟨k, hk, rfl⟩ := List.mem_map.1 hx
      have := hs.matterBelow k hk
      simp at hy
      omega
  · intro k hk
    rcases hkeys with ⟨_, heq⟩ | ⟨_, heq⟩
    · rw [heq] at hk
      exact Nat.lt_trans (hs.matterBelow k hk) hw.nextId
    · rw [heq, List.mem_append, List.mem_singleton] at hk
      rcases hk with hk | rfl
      · exact Nat.lt_trans (hs.matterBelow k hk) hw.nextId
      · exact hw.nextId
  · intro r hr
    rcases hmem r hr with hold | ⟨hg, ht⟩
    · exact hsub _ (hs.housed r hold)
    rw [hg, ht]
    rcases hkeys with ⟨hin, heq⟩ | ⟨hnew, heq⟩
    · rw [heq]
      exact hin
    · rw [heq, hnew]
      simp

/-! ## merge_reconciled_matters -/

/-- What a merge of reconciled matters leaves behind, its own rows apart. -/
structure Merged (g source target : Nat) (s s' : Tables) : Prop where
  mergeable : s.mergeable g source target = true
  members : s'.members = updateWhere (fun m => m.isIn g source && !m.membershipLocked)
    (fun m => { m with matterId := target }) s.members
  matterKeys : s'.matterKeys = s.matterKeys
  generations : s'.generations = s.generations
  profiled : s'.profile.isSome = s.profile.isSome
  pointer : s'.currentGeneration = s.currentGeneration
  decisions : s'.decisions = s.decisions
  semantics : s'.semantics = s.semantics
  messages : s'.messages = s.messages
  jobs : s'.jobs = s.jobs
  nextId : s.nextId ≤ s'.nextId

theorem matterKeys_closeReconciled (g source target : Nat) (status : MatterStatus) (s : Tables) :
    (closeReconciled g source target status s).matterKeys = s.matterKeys := by
  unfold closeReconciled Tables.matterKeys
  dsimp only
  rw [matterKeys_updateWhere, matterKeys_updateWhere]
  · exact fun _ => ⟨rfl, rfl⟩
  · exact fun _ => ⟨rfl, rfl⟩

theorem mergeReconciledMatters_cases (g source target : Nat) (status : MatterStatus) (s : Tables) :
    mergeReconciledMatters g source target status s = s ∨
      Merged g source target s (mergeReconciledMatters g source target status s) := by
  unfold mergeReconciledMatters
  by_cases hm : s.mergeable g source target = true
  · rw [if_pos hm]
    right
    refine ⟨hm, rfl, ?_, rfl, ?_, ?_, rfl, rfl, rfl, rfl, Nat.le_succ _⟩
    · exact matterKeys_closeReconciled _ _ _ _ _
    · simp [raiseRevision, closeReconciled, moveReconciled]
    · cases hp : s.profile <;>
        simp [raiseRevision, closeReconciled, moveReconciled, Tables.currentGeneration, hp]
  · rw [if_neg hm]
    exact Or.inl rfl

variable {source : Nat}

variable {target : Nat}

theorem mergeable_facts (h : s.mergeable g source target = true) :
    source ≠ target ∧ (∃ m ∈ s.matters, m.id = source ∧ m.generationId = g ∧ m.visible = true) ∧
      (∃ m ∈ s.matters, m.id = target ∧ m.generationId = g ∧ m.visible = true) ∧
      (∀ r ∈ s.members, r.generationId = g → r.matterId = source → r.membershipLocked = false) ∧
      s.prohibited g source target = false := by
  simp only [Tables.mergeable, Tables.bothVisible, Bool.and_eq_true, bne_iff_ne, ne_eq,
    List.all_cons, List.all_nil, List.any_eq_true, Matter.is_iff, Bool.not_eq_true',
    List.isEmpty_eq_false_iff, List.any_eq_false, Tables.mem_membersOf] at h
  obtain ⟨⟨⟨⟨⟨hne, ⟨m, hm, ⟨hmid, hmg⟩, hmv⟩, ⟨m', hm', ⟨hm'id, hm'g⟩, hm'v⟩, _⟩, _⟩, _⟩, hfree⟩,
    hallowed⟩ := h
  refine ⟨hne, ⟨m, hm, hmid, hmg, hmv⟩, ⟨m', hm', hm'id, hm'g, hm'v⟩, ?_, hallowed⟩
  intro r hr hrg hrt
  simpa using hfree r ⟨hr, hrg, hrt⟩

theorem mem_merged (h : Merged g source target s s') (hr : r ∈ s'.members) :
    ∃ r₀ ∈ s.members, r.generationId = r₀.generationId ∧ r.messageId = r₀.messageId ∧
      r.membershipLocked = r₀.membershipLocked ∧
      ((r.matterId = r₀.matterId ∧ (r₀.generationId = g → r₀.matterId ≠ source)) ∨
        (r₀.generationId = g ∧ r₀.matterId = source ∧ r.matterId = target ∧
          r₀.membershipLocked = false)) := by
  rw [h.members] at hr
  obtain ⟨r₀, h₀, rfl⟩ := mem_updateWhere.1 hr
  obtain ⟨_, _, _, hfree, _⟩ := mergeable_facts h.mergeable
  by_cases hin : r₀.generationId = g ∧ r₀.matterId = source
  · have hunlocked := hfree r₀ h₀ hin.1 hin.2
    refine ⟨r₀, h₀, ?_⟩
    simp [hin.1, hin.2, hunlocked]
  · refine ⟨r₀, h₀, ?_⟩
    have hsel : (r₀.isIn g source && !r₀.membershipLocked) = false := by
      by_contra hsel
      simp only [Bool.not_eq_false, Bool.and_eq_true, Member.isIn_iff] at hsel
      exact hin hsel.1
    rw [hsel]
    exact ⟨rfl, rfl, rfl, Or.inl ⟨rfl, fun hg ht => hin ⟨hg, ht⟩⟩⟩

theorem sound_merged (hs : Sound s) (h : Merged g source target s s') : Sound s' := by
  apply hs.rewrite
  · rw [h.members]
    exact unique_updateWhere (fun _ => ⟨rfl, rfl⟩) hs.unique
  · intro r hr
    obtain ⟨r₀, h₀, hg, _⟩ := mem_merged h hr
    rw [hg]
    exact hs.below r₀ h₀
  · exact h.matterKeys
  · exact h.nextId
  · intro r hr
    obtain ⟨r₀, h₀, hg, _, _, hcase⟩ := mem_merged h hr
    rcases hcase with ⟨ht, _⟩ | ⟨hg₀, _, ht, _⟩
    · rw [hg, ht]
      exact hs.housed r₀ h₀
    · obtain ⟨_, _, ⟨m, hm, hid, hmg, _⟩, _⟩ := mergeable_facts h.mergeable
      rw [hg, ht, hg₀]
      exact mem_matterKeys.2 ⟨m, hm, hid, hmg⟩

/-! ## apply_user_decision -/

structure Decided (d : Decision) (s s' : Tables) : Prop where
  members : s'.members = (d.carryOut s).members
  matterKeys : s'.matterKeys = s.matterKeys
  generations : s'.generations = s.generations
  profiled : s'.profile.isSome = s.profile.isSome
  pointer : s'.currentGeneration = s.currentGeneration
  decisions : s'.decisions = s.decisions ++ [d]
  messages : s'.messages = s.messages
  jobs : s'.jobs = s.jobs
  nextId : s'.nextId = s.nextId + 1

theorem matterKeys_moveMembers (g t target : Nat) (selected : List Nat) (s : Tables) :
    (moveMembers g t target selected s).matterKeys = s.matterKeys := by
  unfold moveMembers Tables.matterKeys
  dsimp only
  rw [matterKeys_updateWhere, matterKeys_updateWhere]
  · exact fun _ => ⟨rfl, rfl⟩
  · exact fun _ => ⟨rfl, rfl⟩

theorem carryOut_frame (d : Decision) (s : Tables) :
    (d.carryOut s).matterKeys = s.matterKeys ∧ (d.carryOut s).generations = s.generations ∧
      (d.carryOut s).profile = s.profile ∧ (d.carryOut s).messages = s.messages ∧
      (d.carryOut s).jobs = s.jobs := by
  unfold Decision.carryOut
  cases d.decision with
  | confirm | separate => exact ⟨matterKeys_updateWhere fun _ => ⟨rfl, rfl⟩, rfl, rfl, rfl, rfl⟩
  | merge | move => exact ⟨matterKeys_moveMembers _ _ _ _ _, rfl, rfl, rfl, rfl⟩

theorem applyUserDecision_cases (u : UserDecision) (s : Tables) :
    (u.acceptedRecord s = none ∧ applyUserDecision u s = s) ∨
      ∃ d, u.acceptedRecord s = some d ∧ Decided d s (applyUserDecision u s) := by
  unfold applyUserDecision
  cases hd : u.acceptedRecord s with
  | none => exact Or.inl ⟨rfl, rfl⟩
  | some d =>
    right
    obtain ⟨hkeys, hgens, hprofile, hmessages, hjobs⟩ := carryOut_frame d s
    refine ⟨d, rfl, rfl, hkeys, hgens, ?_, ?_, rfl, hmessages, hjobs, rfl⟩
    · simp [raiseRevision, hprofile]
    · cases hp : s.profile <;> simp [raiseRevision, Tables.currentGeneration, hprofile, hp]

structure Accepted (u : UserDecision) (d : Decision) (s : Tables) : Prop where
  id : d.id = s.nextId
  matter : (d.matterId, d.generationId) ∈ s.matterKeys
  target : d.decision = .merge ∨ d.decision = .move →
    (d.targetMatterId.getD d.matterId, d.generationId) ∈ s.matterKeys
  others : d.decision = .separate → ∀ x, x ∈ d.otherMessageIds ↔
    x ∈ s.messageIdsOf d.generationId d.matterId ∧ x ∉ d.messageIds

variable {u : UserDecision} {d : Decision}

theorem accepted_of_record (h : u.acceptedRecord s = some d) : Accepted u d s := by
  unfold UserDecision.acceptedRecord at h
  cases hm : s.matters.find? fun m => m.id == u.matterId with
  | none => simp [hm] at h
  | some m =>
    by_cases ha : u.accepted m s = true
    · simp only [hm, if_pos ha, Option.some.injEq] at h
      subst h
      have hmem : m ∈ s.matters := List.mem_of_find?_eq_some hm
      have hid : m.id = u.matterId := by simpa using List.find?_some hm
      refine ⟨rfl, mem_matterKeys.2 ⟨m, hmem, hid, rfl⟩, ?_, ?_⟩
      · intro hkind
        have htarget : u.targetMatterId.any
            (fun t => s.matters.any (Matter.is m.generationId t)) = true := by
          simp only [UserDecision.accepted, Bool.and_eq_true] at ha
          have ha := ha.2
          rcases hkind with hk | hk
          · have hk : u.decision = .merge := hk
            simpa [hk] using ha
          · have hk : u.decision = .move := hk
            simpa [hk] using ha
        show ((u.targetMatterId.getD u.matterId), m.generationId) ∈ s.matterKeys
        cases ht : u.targetMatterId with
        | none => simp [ht] at htarget
        | some t =>
          rw [ht, Option.any_some, List.any_eq_true] at htarget
          obtain ⟨m', hm', his⟩ := htarget
          obtain ⟨hid', hgen'⟩ := Matter.is_iff.1 his
          exact mem_matterKeys.2 ⟨m', hm', hid', hgen'⟩
      · intro hkind x
        have hkind : u.decision = .separate := hkind
        simp [UserDecision.record, hkind]
    · simp [hm, ha] at h

@[simp]
theorem Member.isSelected_iff {selected : List Nat} {m : Member} :
    m.isSelected g t selected = true ↔
      m.generationId = g ∧ m.matterId = t ∧ m.messageId ∈ selected := by
  simp [Member.isSelected, and_assoc]

/-- The matter that a decision leaves its selected messages in, if it leaves them in one. -/
def Decision.destination (d : Decision) : Option Nat :=
  match d.decision with
  | .confirm => some d.matterId
  | .separate => none
  | .merge | .move => some (d.targetMatterId.getD d.matterId)

def Decision.selects (d : Decision) (r : Member) : Bool :=
  r.isSelected d.generationId d.matterId d.messageIds

/-- **Members after a decision**: those it does not select, as they were, and those it
selects, locked into its destination. -/
theorem mem_carryOut (hr : r ∈ (d.carryOut s).members) :
    (r ∈ s.members ∧ d.selects r = false) ∨
      ∃ r₀ ∈ s.members, d.selects r₀ = true ∧ r.generationId = r₀.generationId ∧
        r.messageId = r₀.messageId ∧ r.membershipLocked = true ∧
        d.destination = some r.matterId := by
  have hupdate : ∀ f : Member → Member,
      r ∈ updateWhere (Member.isSelected d.generationId d.matterId d.messageIds) f s.members →
        (r ∈ s.members ∧ d.selects r = false) ∨ ∃ r₀ ∈ s.members, d.selects r₀ = true ∧ r = f r₀ := by
    intro f hr
    obtain ⟨r₀, h₀, rfl⟩ := mem_updateWhere.1 hr
    by_cases hsel : r₀.isSelected d.generationId d.matterId d.messageIds = true
    · rw [if_pos hsel]
      exact Or.inr ⟨r₀, h₀, hsel, rfl⟩
    · rw [if_neg hsel]
      exact Or.inl ⟨h₀, Bool.not_eq_true _ ▸ hsel⟩
  unfold Decision.carryOut at hr
  cases hd : d.decision with
  | confirm =>
    rw [hd] at hr
    rcases hupdate _ hr with hold | ⟨r₀, h₀, hsel, rfl⟩
    · exact Or.inl hold
    · refine Or.inr ⟨r₀, h₀, hsel, rfl, rfl, rfl, ?_⟩
      have := (Member.isSelected_iff.1 hsel).2.1
      simp [Decision.destination, hd, this]
  | separate =>
    rw [hd] at hr
    obtain ⟨h₀, hsel⟩ := List.mem_filter.1 hr
    exact Or.inl ⟨h₀, by simpa [Decision.selects] using hsel⟩
  | merge | move =>
    rw [hd] at hr
    rcases hupdate _ hr with hold | ⟨r₀, h₀, hsel, rfl⟩
    · exact Or.inl hold
    · exact Or.inr ⟨r₀, h₀, hsel, rfl, rfl, rfl, by simp [Decision.destination, hd]⟩

theorem carryOut_keeps (hr : r ∈ s.members)
    (hsel : d.selects r = false) : r ∈ (d.carryOut s).members := by
  have hsel' : r.isSelected d.generationId d.matterId d.messageIds = false := hsel
  unfold Decision.carryOut
  cases d.decision with
  | confirm | merge | move => exact mem_updateWhere.2 ⟨r, hr, by simp [hsel']⟩
  | separate => exact List.mem_filter.2 ⟨hr, by simp [hsel']⟩

theorem carryOut_locks (hr : r ∈ s.members)
    (hsel : d.selects r = true) (ht : d.destination = some t) :
    ∃ r' ∈ (d.carryOut s).members, r'.generationId = r.generationId ∧
      r'.messageId = r.messageId ∧ r'.matterId = t ∧ r'.membershipLocked = true := by
  have hsel' : r.isSelected d.generationId d.matterId d.messageIds = true := hsel
  unfold Decision.carryOut
  unfold Decision.destination at ht
  cases hd : d.decision with
  | confirm =>
    rw [hd] at ht
    obtain rfl := Option.some.inj ht
    refine ⟨_, mem_updateWhere.2 ⟨r, hr, rfl⟩, ?_⟩
    rw [if_pos hsel']
    exact ⟨rfl, rfl, (Member.isSelected_iff.1 hsel').2.1, rfl⟩
  | separate =>
    rw [hd] at ht
    cases ht
  | merge | move =>
    rw [hd] at ht
    obtain rfl := Option.some.inj ht
    refine ⟨_, mem_updateWhere.2 ⟨r, hr, rfl⟩, ?_⟩
    rw [if_pos hsel']
    exact ⟨rfl, rfl, rfl, rfl⟩

theorem unique_carryOut (hs : Sound s) :
    ∀ r ∈ (d.carryOut s).members, ∀ r' ∈ (d.carryOut s).members,
      r.generationId = r'.generationId → r.messageId = r'.messageId → r = r' := by
  unfold Decision.carryOut
  cases d.decision with
  | confirm | merge | move => exact unique_updateWhere (fun _ => ⟨rfl, rfl⟩) hs.unique
  | separate =>
    intro r hr r' hr'
    exact hs.unique r (List.mem_filter.1 hr).1 r' (List.mem_filter.1 hr').1

theorem Accepted.destination_mem
    (ha : Accepted u d s) (ht : d.destination = some t) : (t, d.generationId) ∈ s.matterKeys := by
  unfold Decision.destination at ht
  cases hd : d.decision with
  | confirm =>
    rw [hd] at ht
    obtain rfl := Option.some.inj ht
    exact ha.matter
  | separate =>
    rw [hd] at ht
    cases ht
  | merge =>
    rw [hd] at ht
    obtain rfl := Option.some.inj ht
    exact ha.target (Or.inl hd)
  | move =>
    rw [hd] at ht
    obtain rfl := Option.some.inj ht
    exact ha.target (Or.inr hd)

theorem sound_decided (hs : Sound s) (ha : Accepted u d s) (h : Decided d s s') : Sound s' := by
  apply hs.rewrite
  · rw [h.members]
    exact unique_carryOut hs
  · intro r hr
    rw [h.members] at hr
    rcases mem_carryOut hr with ⟨hold, _⟩ | ⟨r₀, h₀, _, hg, _⟩
    · exact hs.below r hold
    · rw [hg]
      exact hs.below r₀ h₀
  · exact h.matterKeys
  · rw [h.nextId]
    exact Nat.le_succ _
  · intro r hr
    rw [h.members] at hr
    rcases mem_carryOut hr with ⟨hold, _⟩ | ⟨r₀, h₀, hsel, hg, _, _, ht⟩
    · exact hs.housed r hold
    · rw [hg, (Member.isSelected_iff.1 hsel).1]
      exact ha.destination_mem ht

variable {first : Nat}

/-! ## create_generation -/

theorem copies_injective {c c' : Matter × Nat}
    (hc : c ∈ s.copies source first) (hc' : c' ∈ s.copies source first) (h : c.2 = c'.2) :
    c = c' := by
  obtain ⟨m, i⟩ := c
  obtain ⟨m', i'⟩ := c'
  obtain rfl : i = i' := h
  obtain ⟨_, hm⟩ := List.mk_mem_zipIdx_iff_le_and_getElem?_sub.1 hc
  obtain ⟨_, hm'⟩ := List.mk_mem_zipIdx_iff_le_and_getElem?_sub.1 hc'
  rw [hm] at hm'
  rw [Option.some.inj hm']

theorem copies_ids {c : Matter × Nat} (hc : c ∈ s.copies source first) :
    c.1 ∈ s.protectedMatters source ∧ first ≤ c.2 ∧
      c.2 < first + (s.copies source first).length := by
  obtain ⟨m, i⟩ := c
  obtain ⟨hle, hget⟩ := List.mk_mem_zipIdx_iff_le_and_getElem?_sub.1 hc
  obtain ⟨hlt, hm⟩ := List.getElem?_eq_some_iff.1 hget
  refine ⟨hm ▸ List.getElem_mem hlt, hle, ?_⟩
  rw [Tables.copies, List.length_zipIdx]
  show i < _
  omega

theorem exists_copy {m : Matter}
    (hm : m ∈ s.protectedMatters source) : ∃ i, (m, i) ∈ s.copies source first := by
  obtain ⟨k, hk, hget⟩ := List.mem_iff_getElem.1 hm
  refine ⟨first + k, List.mk_mem_zipIdx_iff_le_and_getElem?_sub.2 ⟨Nat.le_add_right _ _, ?_⟩⟩
  rw [Nat.add_sub_cancel_left]
  exact List.getElem?_eq_some_iff.2 ⟨hk, hget⟩

variable {style : GroupingStyle} {status : GenerationStatus} {source : Option Nat}

/-- The members after a generation has been created: those before, and the copies of the
locked members of its source. -/
theorem mem_createGeneration :
    r ∈ (createGeneration style status source s).members ↔ r ∈ s.members ∨
      ∃ g, source = some g ∧ ∃ c ∈ s.copies g (s.nextId + 1),
        ∃ r₀ ∈ s.lockedMembersOf g c.1.id, r = r₀.copy s.nextId c.2 := by
  cases source with
  | none => simp [createGeneration]
  | some g =>
    show r ∈ s.members ++ ((s.copies g (s.nextId + 1)).flatMap fun c =>
      (s.lockedMembersOf g c.1.id).map (Member.copy s.nextId c.2)) ↔ _
    rw [List.mem_append, List.mem_flatMap]
    constructor
    · rintro (hold | ⟨c, hc, hr⟩)
      · exact Or.inl hold
      · obtain ⟨r₀, h₀, rfl⟩ := List.mem_map.1 hr
        exact Or.inr ⟨g, rfl, c, hc, r₀, h₀, rfl⟩
    · rintro (hold | ⟨g', hg', c, hc, r₀, h₀, rfl⟩)
      · exact Or.inl hold
      · obtain rfl := Option.some.inj hg'
        exact Or.inr ⟨c, hc, List.mem_map.2 ⟨r₀, h₀, rfl⟩⟩

theorem matterKeys_createGeneration (style : GroupingStyle) (status : GenerationStatus)
    (source : Option Nat) (s : Tables) :
    (createGeneration style status source s).matterKeys = s.matterKeys ++
      (source.elim [] fun g => (s.copies g (s.nextId + 1)).map fun c => (c.2, s.nextId)) := by
  cases source with
  | none => exact (List.append_nil _).symm
  | some g =>
    show (s.matters ++ (s.copies g (s.nextId + 1)).map fun c => c.1.copy s.nextId c.2).map _ = _
    rw [List.map_append, List.map_map]
    rfl

theorem nextId_createGeneration (style : GroupingStyle) (status : GenerationStatus)
    (source : Option Nat) (s : Tables) :
    (createGeneration style status source s).nextId =
      s.nextId + 1 + source.elim 0 fun g => (s.copies g (s.nextId + 1)).length := by
  cases source <;> rfl

@[simp]
theorem mem_lockedMembersOf :
    r ∈ s.lockedMembersOf g t ↔ r ∈ s.members ∧ r.generationId = g ∧ r.matterId = t ∧
      r.membershipLocked = true := by
  simp [Tables.lockedMembersOf, and_assoc]

theorem sound_createGeneration (hs : Sound s) : Sound (createGeneration style status source s) := by
  have hnext : s.nextId < (createGeneration style status source s).nextId := by
    rw [nextId_createGeneration]
    omega
  have hfresh : ∀ k ∈ source.elim [] (fun g => (s.copies g (s.nextId + 1)).map
      fun c => (c.2, s.nextId)), s.nextId < k.1 ∧
        k.1 < (createGeneration style status source s).nextId := by
    intro k hk
    rw [nextId_createGeneration]
    cases source with
    | none => simp at hk
    | some g =>
      obtain ⟨c, hc, rfl⟩ := List.mem_map.1 hk
      obtain ⟨_, hle, hlt⟩ := copies_ids hc
      exact ⟨hle, hlt⟩
  constructor
  · intro r hr r' hr' hg hx
    rcases mem_createGeneration.1 hr with hold | ⟨g, rfl, c, hc, r₀, h₀, rfl⟩
    · rcases mem_createGeneration.1 hr' with hold' | ⟨g, rfl, c, hc, r₀, h₀, rfl⟩
      · exact hs.unique r hold r' hold' hg hx
      · have := hs.below r hold
        rw [hg] at this
        exact absurd this (Nat.lt_irrefl _)
    · rcases mem_createGeneration.1 hr' with hold' | ⟨g', hg', c', hc', r₀', h₀', rfl⟩
      · have := hs.below r' hold'
        rw [← hg] at this
        exact absurd this (Nat.lt_irrefl _)
      · obtain rfl := Option.some.inj hg'
        obtain ⟨hm₀, hg₀, ht₀, _⟩ := mem_lockedMembersOf.1 h₀
        obtain ⟨hm₀', hg₀', ht₀', _⟩ := mem_lockedMembersOf.1 h₀'
        have hsame : r₀ = r₀' := hs.unique r₀ hm₀ r₀' hm₀' (hg₀.trans hg₀'.symm) hx
        have hcc : c = c' := by
          have hmem := (List.mem_filter.1 (copies_ids hc).1).1
          have hmem' := (List.mem_filter.1 (copies_ids hc').1).1
          have hid : c.1.id = c'.1.id := by rw [← ht₀, ← ht₀', hsame]
          have hm : c.1 = c'.1 := hs.matter_unique hmem hmem' hid
          obtain ⟨m, i⟩ := c
          obtain ⟨m', i'⟩ := c'
          obtain rfl : m = m' := hm
          have hnodup : (s.protectedMatters g).Nodup := by
            apply List.Nodup.filter
            have := hs.matterIds
            rw [Tables.matterKeys, List.map_map] at this
            exact List.Nodup.of_map _ this
          obtain ⟨hle, hget⟩ := List.mk_mem_zipIdx_iff_le_and_getElem?_sub.1 hc
          obtain ⟨hle', hget'⟩ := List.mk_mem_zipIdx_iff_le_and_getElem?_sub.1 hc'
          obtain ⟨hlt, hm⟩ := List.getElem?_eq_some_iff.1 hget
          obtain ⟨hlt', hm'⟩ := List.getElem?_eq_some_iff.1 hget'
          have := (List.Nodup.getElem_inj_iff hnodup).1 (hm.trans hm'.symm)
          have hi : i = i' := by omega
          rw [hi]
        rw [hsame, hcc]
  · intro r hr
    rcases mem_createGeneration.1 hr with hold | ⟨g, rfl, c, hc, r₀, h₀, rfl⟩
    · exact Nat.lt_trans (hs.below r hold) hnext
    · exact hnext
  · rw [matterKeys_createGeneration, List.map_append, List.nodup_append]
    refine ⟨hs.matterIds, ?_, ?_⟩
    · cases source with
      | none => exact List.nodup_nil
      | some g =>
        show (((s.copies g (s.nextId + 1)).map fun c => (c.2, s.nextId)).map Prod.fst).Nodup
        rw [List.map_map]
        have : (Prod.fst ∘ fun c : Matter × Nat => (c.2, s.nextId)) = Prod.snd := rfl
        rw [this, Tables.copies, List.zipIdx_map_snd]
        exact List.nodup_range'
    · intro x hx y hy
      obtain ⟨k, hk, rfl⟩ := List.mem_map.1 hx
      obtain ⟨k', hk', rfl⟩ := List.mem_map.1 hy
      have := hs.matterBelow k hk
      have := (hfresh k' hk').1
      omega
  · intro k hk
    rw [matterKeys_createGeneration, List.mem_append] at hk
    rcases hk with hk | hk
    · exact Nat.lt_trans (hs.matterBelow k hk) hnext
    · exact (hfresh k hk).2
  · intro r hr
    rw [matterKeys_createGeneration, List.mem_append]
    rcases mem_createGeneration.1 hr with hold | ⟨g, rfl, c, hc, r₀, h₀, rfl⟩
    · exact Or.inl (hs.housed r hold)
    · right
      exact List.mem_map.2 ⟨c, hc, rfl⟩

end ElectronicMail.Matters
