import ElectronicMail.Matters.Lifecycle

/-!
# The latest rebuild wins

At most one generation is active, whatever happens. That the active generation is the one
requested last, and that it has the style of the profile when nothing is being rebuilt, is
not looked after: `promote_generation` takes any rebuild, whenever it was requested, and
`update_profile` changes the style of the profile of a switched off AI inbox without
touching its generation. `InOrder` says which requests do neither, and
`latest_rebuild_wins` that a run of such requests is as it should be.
-/

namespace ElectronicMail.Matters

open Foundations
open Foundations.Table

/-! ## Rebuilds in the order of their requests -/

def Tables.rebuilding (s : Tables) : Bool := s.generations.any Generation.isRebuild

variable {s : Tables}

theorem rebuilding_eq_false : s.rebuilding = false ↔ ∀ g ∈ s.generations, g.isRebuild = false := by
  simp [Tables.rebuilding]

/-- The tables, with the ids of the generations that have been active before. -/
structure History where
  tables : Tables
  everActive : List Nat

def History.step (on : Bool) (h : History) (r : Request) : History :=
  ⟨r.run on h.tables, h.everActive ++ h.tables.activeIds⟩

def History.start (messages : List Message) : History := ⟨Tables.fresh messages, []⟩

/-- At most one generation is active, the profile points to it, it has the style of the
profile when no rebuild is in progress, and no generation that was active before was
requested after it. -/
structure LatestWins (h : History) : Prop where
  one : ∀ a ∈ h.tables.generations, ∀ b ∈ h.tables.generations,
    a.status = .active → b.status = .active → a = b
  pointer : ∀ p, h.tables.profile = some p → ∀ g, p.activeGenerationId = some g →
    ∃ a ∈ h.tables.generations, a.status = .active ∧ a.id = g
  style : h.tables.rebuilding = false → ∀ a ∈ h.tables.generations, a.status = .active →
    ∀ p, h.tables.profile = some p → a.groupingStyle = p.groupingStyle
  latest : ∀ a ∈ h.tables.generations, a.status = .active → ∀ e ∈ h.everActive, e ≤ a.id

/-- An update of the profile that leaves the AI inbox off does not change the style while
a generation is active and none is being rebuilt. -/
def StyleInOrder (on : Bool) (s : Tables) : Request → Prop
  | .updateProfile u => u.resolvedEnabled on s = false → s.rebuilding = false →
      s.activeIds ≠ [] → u.resolvedStyle s = s.currentStyle
  | _ => True

/-- A promotion takes a generation requested after the active one, and when no other
rebuild is left its style is that of the profile. -/
def PromotionInOrder (s : Tables) (r : Request) : Prop :=
  ∀ i ∈ r.promotes s, (∀ a ∈ s.activeIds, a < i) ∧
    ((∀ g ∈ s.generations, g.isRebuild = true → g.id = i) →
      ∀ g ∈ s.generations, g.id = i → g.groupingStyle = s.currentStyle)

def InOrder (on : Bool) (s : Tables) (r : Request) : Prop :=
  StyleInOrder on s r ∧ PromotionInOrder s r

instance (on : Bool) (s : Tables) : (r : Request) → Decidable (StyleInOrder on s r)
  | .updateProfile u => inferInstanceAs (Decidable (u.resolvedEnabled on s = false →
      s.rebuilding = false → s.activeIds ≠ [] → u.resolvedStyle s = s.currentStyle))
  | .startShadowGeneration _ | .finalizeGeneration _ _ | .promoteGeneration _ | .deleteAiData =>
    inferInstanceAs (Decidable True)

instance (s : Tables) (r : Request) : Decidable (PromotionInOrder s r) :=
  inferInstanceAs (Decidable (∀ i ∈ r.promotes s, (∀ a ∈ s.activeIds, a < i) ∧
    ((∀ g ∈ s.generations, g.isRebuild = true → g.id = i) →
      ∀ g ∈ s.generations, g.id = i → g.groupingStyle = s.currentStyle)))

instance (on : Bool) (s : Tables) (r : Request) : Decidable (InOrder on s r) :=
  inferInstanceAs (Decidable (StyleInOrder on s r ∧ PromotionInOrder s r))

/-- The invariant of a run in order. `idle` carries the order over a time without an
active generation. -/
structure Ordered (h : History) : Prop where
  life : Lifecycle h.tables
  style : h.tables.rebuilding = false → ∀ a ∈ h.tables.generations, a.status = .active →
    a.groupingStyle = h.tables.currentStyle
  known : ∀ e ∈ h.everActive, e < h.tables.nextId
  latest : ∀ a ∈ h.tables.activeIds, ∀ e ∈ h.everActive, e ≤ a
  idle : h.tables.activeIds = [] → ∀ e ∈ h.everActive, ∀ g ∈ h.tables.generations, e < g.id

variable {h : History}

theorem Ordered.latestWins (ho : Ordered h) : LatestWins h where
  one := fun _ ha _ hb ha' hb' => ho.life.one ha hb ha' hb'
  pointer := by
    intro p hp g hg
    apply ho.life.active_iff.2
    simp [Tables.currentGeneration, hp, hg]
  style := by
    intro hidle a ha ha' p hp
    rw [ho.style hidle a ha ha']
    simp [Tables.currentStyle, hp]
  latest := by
    intro a ha ha' e he
    exact ho.latest a.id (Tables.mem_activeIds.2 ⟨a, ha, ha', rfl⟩) e he

theorem ordered_start (messages : List Message) : Ordered (History.start messages) where
  life := lifecycle_fresh messages
  style := by simp [History.start, Tables.fresh]
  known := by simp [History.start]
  latest := by simp [History.start]
  idle := by simp [History.start]

theorem nextId_run (on : Bool) (s : Tables) (r : Request) : s.nextId ≤ (r.run on s).nextId := by
  cases r with
  | updateProfile u =>
    cases h : updateProfile on u s with
    | none => simp [Request.run, h]
    | some result =>
      obtain ⟨s', built⟩ := result
      have hrun : Request.run on s (.updateProfile u) = s' := by simp [Request.run, h]
      rw [hrun]
      rcases updateProfile_cases h with ⟨_, _, _, he⟩ | ⟨_, he⟩ | ⟨_, _, _, he⟩ | ⟨_, he⟩
      · rw [he]
        exact Nat.le_of_succ_le (createGeneration_nextId (u.resolvedStyle s) .active none s)
      · rw [he]
        exact Nat.le_of_succ_le
          (createGeneration_nextId (u.resolvedStyle s) .building s.currentGeneration s)
      · rw [he]
        exact Nat.le_refl _
      · rw [he]
        exact Nat.le_refl _
  | startShadowGeneration style =>
    cases h : startShadowGeneration style s with
    | none => simp [Request.run, h]
    | some s' =>
      obtain ⟨_, _, _, _, hnext, _⟩ := startShadowGeneration_cases h
      simp [Request.run, h]
      omega
  | finalizeGeneration status g =>
    cases status with
    | building =>
      show s.nextId ≤ (promoteGeneration g s).nextId
      by_cases h : s.promotable g = true
      · rw [(promoteGeneration_eq h).2.1]
      · rw [promoteGeneration_of_not (by simpa using h)]
    | shadow | active | superseded | failed => exact Nat.le_refl _
  | promoteGeneration g =>
    show s.nextId ≤ (promoteGeneration g s).nextId
    by_cases h : s.promotable g = true
    · rw [(promoteGeneration_eq h).2.1]
    · rw [promoteGeneration_of_not (by simpa using h)]
  | deleteAiData => exact Nat.le_refl _

/-- The order after a request that keeps what is active, and creates generations with
fresh ids only. -/
theorem Ordered.of_activeIds (ho : Ordered h) (hlife : Lifecycle s)
    (hstyle : s.rebuilding = false → ∀ a ∈ s.generations, a.status = .active →
      a.groupingStyle = s.currentStyle)
    (hnext : h.tables.nextId ≤ s.nextId) (hactive : s.activeIds = h.tables.activeIds)
    (hfresh : ∀ g ∈ s.generations, (∃ g₀ ∈ h.tables.generations, g₀.id = g.id) ∨
      h.tables.nextId ≤ g.id) :
    Ordered ⟨s, h.everActive ++ h.tables.activeIds⟩ where
  life := hlife
  style := hstyle
  known := by
    intro e he
    rcases List.mem_append.1 he with he | he
    · exact lt_of_lt_of_le (ho.known e he) hnext
    · obtain ⟨g, hg, _, rfl⟩ := Tables.mem_activeIds.1 he
      exact lt_of_lt_of_le (ho.life.idsBelow g hg) hnext
  latest := by
    intro a ha e he
    rw [hactive] at ha
    rcases List.mem_append.1 he with he | he
    · exact ho.latest a ha e he
    · rw [ho.life.pointed, Option.mem_toList] at ha he
      exact le_of_eq (Option.some.inj (he.symm.trans ha))
  idle := by
    intro hidle e he g hg
    rw [hactive] at hidle
    rw [hidle, List.append_nil] at he
    rcases hfresh g hg with ⟨g₀, hg₀, hid⟩ | hle
    · rw [← hid]
      exact ho.idle hidle e he g₀ hg₀
    · exact lt_of_lt_of_le (ho.known e he) hle

variable {i : Nat}

section

variable (ho : Ordered h)
include ho

/-- The order after a request that makes the generation `i` the active one. -/
theorem Ordered.of_replaced (hlife : Lifecycle s)
    (hstyle : s.rebuilding = false → ∀ a ∈ s.generations, a.status = .active →
      a.groupingStyle = s.currentStyle)
    (hnext : h.tables.nextId ≤ s.nextId) (hactive : s.activeIds = [i])
    (hlater : ∀ a ∈ h.tables.activeIds, a < i)
    (hidle : h.tables.activeIds = [] → ∀ e ∈ h.everActive, e < i) :
    Ordered ⟨s, h.everActive ++ h.tables.activeIds⟩ where
  life := hlife
  style := hstyle
  known := by
    intro e he
    rcases List.mem_append.1 he with he | he
    · exact lt_of_lt_of_le (ho.known e he) hnext
    · obtain ⟨g, hg, _, rfl⟩ := Tables.mem_activeIds.1 he
      exact lt_of_lt_of_le (ho.life.idsBelow g hg) hnext
  latest := by
    intro a ha e he
    rw [hactive, List.mem_singleton] at ha
    subst ha
    rcases List.mem_append.1 he with he | he
    · cases hactive₀ : h.tables.activeIds with
      | nil => exact Nat.le_of_lt (hidle hactive₀ e he)
      | cons b bs =>
        have hb : b ∈ h.tables.activeIds := by simp [hactive₀]
        exact Nat.le_of_lt (lt_of_le_of_lt (ho.latest b hb e he) (hlater b hb))
    · exact Nat.le_of_lt (hlater e he)
  idle := by
    intro hnone
    rw [hactive] at hnone
    cases hnone

theorem ordered_updateProfile {on : Bool} {u : ProfileUpdate} {s' : Tables}
    {built : Option Nat}
    (hgood : u.resolvedEnabled on h.tables = false → h.tables.rebuilding = false →
      h.tables.activeIds ≠ [] → u.resolvedStyle h.tables = h.tables.currentStyle)
    (hrun : updateProfile on u h.tables = some (s', built)) (hnext : h.tables.nextId ≤ s'.nextId) :
    Ordered ⟨s', h.everActive ++ h.tables.activeIds⟩ := by
  have hlife := lifecycle_updateProfile ho.life hrun
  rcases updateProfile_cases hrun with ⟨_, hactive, _, rfl⟩ | ⟨_, rfl⟩ | ⟨g, hg, _, rfl⟩ | ⟨hkept, rfl⟩
  · -- The first active generation.
    refine ho.of_replaced (i := h.tables.nextId) hlife ?_ hnext ?_ ?_ ?_
    · intro _ a ha ha'
      rw [upsertProfile_currentStyle]
      rw [upsertProfile_generations, createGeneration_generations, List.mem_append,
        List.mem_singleton] at ha
      rcases ha with ha | rfl
      · have : a.id ∈ h.tables.activeIds := Tables.mem_activeIds.2 ⟨a, ha, ha', rfl⟩
        simp [hactive] at this
      · rfl
    · rw [Tables.activeIds_eq, upsertProfile_generations, createGeneration_generations,
        activeIdsOf_append, ← Tables.activeIds_eq, hactive]
      rfl
    · simp [hactive]
    · exact fun _ => ho.known
  · -- A rebuild is requested.
    apply ho.of_activeIds hlife
    · intro hidle
      rw [rebuilding_eq_false] at hidle
      have := hidle ⟨h.tables.nextId, .building, u.resolvedStyle h.tables,
        h.tables.currentGeneration, false⟩ (by simp)
      simp [Generation.isRebuild, GenerationStatus.isRebuild] at this
    · exact hnext
    · rw [Tables.activeIds_eq, upsertProfile_generations, createGeneration_generations,
        activeIdsOf_append, ← Tables.activeIds_eq]
      simp [activeIdsOf, Generation.isActive]
    · intro x hx
      rw [upsertProfile_generations, createGeneration_generations, List.mem_append,
        List.mem_singleton] at hx
      rcases hx with hx | rfl
      · exact Or.inl ⟨x, hx, rfl⟩
      · exact Or.inr (Nat.le_refl _)
  · -- The style of the active generation changes with that of the profile.
    have hmem : ∀ x ∈ (restyleActive g (u.resolvedStyle h.tables) h.tables).generations,
        ∃ x₀ ∈ h.tables.generations, x = if x₀.id == g && x₀.isActive then
          { x₀ with groupingStyle := u.resolvedStyle h.tables } else x₀ :=
      fun x hx => mem_updateWhere.1 hx
    apply ho.of_activeIds hlife
    · intro _ a ha ha'
      rw [upsertProfile_currentStyle]
      obtain ⟨a₀, ha₀, rfl⟩ := hmem a ha
      by_cases hsel : (a₀.id == g && a₀.isActive) = true
      · simp [hsel]
      · rw [if_neg hsel] at ha'
        have : a₀.id = g := by
          have hcurrent := ho.life.active_iff.1 ⟨a₀, ha₀, ha', rfl⟩
          exact Option.some.inj (hcurrent.symm.trans hg)
        simp [this, ha'] at hsel
    · exact hnext
    · exact activeIdsOf_updateWhere fun _ _ _ => ⟨rfl, rfl⟩
    · intro x hx
      obtain ⟨x₀, hx₀, rfl⟩ := hmem x hx
      refine Or.inl ⟨x₀, hx₀, ?_⟩
      by_cases hsel : (x₀.id == g && x₀.isActive) = true
      · simp [hsel]
      · rw [if_neg hsel]
  · -- Only the profile changes.
    apply ho.of_activeIds hlife
    · intro hidle a ha ha'
      have hne : h.tables.activeIds ≠ [] :=
        List.ne_nil_of_mem (Tables.mem_activeIds.2 ⟨a, ha, ha', rfl⟩)
      have hsame : u.resolvedStyle h.tables = h.tables.currentStyle := by
        rcases hkept with hoff | hsame
        · exact hgood hoff hidle hne
        · exact hsame
      rw [upsertProfile_currentStyle, hsame]
      exact ho.style hidle a ha ha'
    · exact hnext
    · rfl
    · exact fun x hx => Or.inl ⟨x, hx, rfl⟩

theorem ordered_promote (hpromotable : h.tables.promotable i = true) (hlater : ∀ a ∈ h.tables.activeIds, a < i)
    (hstyle : (∀ g ∈ h.tables.generations, g.isRebuild = true → g.id = i) →
      ∀ g ∈ h.tables.generations, g.id = i → g.groupingStyle = h.tables.currentStyle) :
    Ordered ⟨promoteGeneration i h.tables, h.everActive ++ h.tables.activeIds⟩ := by
  obtain ⟨hgens, hnext, hprofile⟩ := promoteGeneration_eq hpromotable
  have hcurrentStyle : (promoteGeneration i h.tables).currentStyle = h.tables.currentStyle := by
    cases hp : h.tables.profile <;> simp [Tables.currentStyle, hprofile, hp]
  apply ho.of_replaced (lifecycle_promote ho.life) (i := i)
  · intro hidle a ha ha'
    rw [hcurrentStyle]
    have hid : a.id = i := by
      have hia : a.id ∈ (promoteGeneration i h.tables).activeIds :=
        Tables.mem_activeIds.2 ⟨a, ha, ha', rfl⟩
      rw [activeIds_promote ho.life hpromotable] at hia
      exact List.mem_singleton.1 hia
    -- Every other rebuild is still there after the promotion.
    have honly : ∀ g ∈ h.tables.generations, g.isRebuild = true → g.id = i := by
      intro g hg hrebuild
      by_contra hne
      have hnot : g.isActive = false := by
        cases hs : g.status <;> simp_all [Generation.isRebuild, GenerationStatus.isRebuild,
          Generation.isActive]
      have hmem : g ∈ (promoteGeneration i h.tables).generations := by
        rw [hgens]
        refine mem_updateWhere.2 ⟨g, mem_updateWhere.2 ⟨g, hg, ?_⟩, ?_⟩
        · simp [hnot]
        · simp [hne]
      rw [rebuilding_eq_false.1 hidle g hmem] at hrebuild
      cases hrebuild
    rw [hgens] at ha
    obtain ⟨b, hb, rfl⟩ := mem_updateWhere.1 ha
    obtain ⟨c, hc, rfl⟩ := mem_updateWhere.1 hb
    have hcid : c.id = i := by
      by_contra hci
      by_cases hca : c.isActive = true
      · simp [hca, hci] at hid
      · simp [hca, hci] at hid
    have := hstyle honly c hc hcid
    by_cases hca : c.isActive = true
    · simpa [hca, hcid] using this
    · simpa [hca, hcid] using this
  · exact le_of_eq hnext.symm
  · exact activeIds_promote ho.life hpromotable
  · exact hlater
  · intro hnone e he
    obtain ⟨g, hg, hid, _⟩ := promotable_iff.1 hpromotable
    rw [← hid]
    exact ho.idle hnone e he g hg

theorem ordered_startShadow {style : GroupingStyle} {s' : Tables}
    (hrun : startShadowGeneration style h.tables = some s') :
    Ordered ⟨s', h.everActive ++ h.tables.activeIds⟩ := by
  obtain ⟨_, _, _, hgens, hnext, _⟩ := startShadowGeneration_cases hrun
  apply ho.of_activeIds (lifecycle_startShadow ho.life hrun)
  · intro hidle
    rw [rebuilding_eq_false, hgens] at hidle
    have := hidle ⟨h.tables.nextId, .shadow, style, h.tables.currentGeneration, false⟩ (by simp)
    simp [Generation.isRebuild, GenerationStatus.isRebuild] at this
  · exact Nat.le_of_succ_le hnext
  · rw [Tables.activeIds_eq, hgens, activeIdsOf_append, Tables.activeIds_eq]
    rw [activeIdsOf_updateWhere]
    · simp [activeIdsOf, Generation.isActive]
    · intro g _ hg
      rw [beq_iff_eq] at hg
      simp [Generation.isActive, hg]
  · intro x hx
    rw [hgens, List.mem_append, List.mem_singleton] at hx
    rcases hx with hx | rfl
    · obtain ⟨x₀, hx₀, rfl⟩ := mem_updateWhere.1 hx
      refine Or.inl ⟨x₀, hx₀, ?_⟩
      by_cases hsel : (x₀.status == .shadow) = true
      · simp [hsel]
      · rw [if_neg hsel]
    · exact Or.inr (Nat.le_refl _)

theorem ordered_complete :
    Ordered ⟨completeShadowGeneration i h.tables, h.everActive ++ h.tables.activeIds⟩ := by
  have hmem : ∀ x ∈ (completeShadowGeneration i h.tables).generations,
      ∃ x₀ ∈ h.tables.generations, x.id = x₀.id ∧ x.status = x₀.status ∧
        x.groupingStyle = x₀.groupingStyle := by
    intro x hx
    obtain ⟨x₀, hx₀, rfl⟩ := mem_updateWhere.1 hx
    refine ⟨x₀, hx₀, ?_⟩
    by_cases hsel : (x₀.id == i && x₀.status == .shadow) = true
    · rw [if_pos hsel]
      exact ⟨rfl, rfl, rfl⟩
    · rw [if_neg hsel]
      exact ⟨rfl, rfl, rfl⟩
  apply ho.of_activeIds (lifecycle_complete ho.life)
  · intro hidle a ha ha'
    have hidle₀ : h.tables.rebuilding = false := by
      rw [rebuilding_eq_false] at hidle ⊢
      intro g hg
      have := hidle (if g.id == i && g.status == .shadow then { g with completed := true } else g)
        (mem_updateWhere.2 ⟨g, hg, rfl⟩)
      by_cases hsel : (g.id == i && g.status == .shadow) = true
      · rw [if_pos hsel] at this
        exact this
      · rw [if_neg hsel] at this
        exact this
    obtain ⟨a₀, ha₀, _, hstatus, hstyle⟩ := hmem a ha
    rw [hstyle]
    exact ho.style hidle₀ a₀ ha₀ (hstatus ▸ ha')
  · exact Nat.le_refl _
  · exact activeIdsOf_updateWhere fun _ _ _ => ⟨rfl, rfl⟩
  · intro x hx
    obtain ⟨x₀, hx₀, hid, _, _⟩ := hmem x hx
    exact Or.inl ⟨x₀, hx₀, hid.symm⟩

theorem ordered_delete :
    Ordered ⟨deleteAiData h.tables, h.everActive ++ h.tables.activeIds⟩ where
  life := lifecycle_delete
  style := by simp [deleteAiData]
  known := by
    intro e he
    rcases List.mem_append.1 he with he | he
    · exact ho.known e he
    · obtain ⟨g, hg, _, rfl⟩ := Tables.mem_activeIds.1 he
      exact ho.life.idsBelow g hg
  latest := by simp [deleteAiData, Tables.activeIds]
  idle := by simp [deleteAiData]

theorem ordered_same : Ordered ⟨h.tables, h.everActive ++ h.tables.activeIds⟩ :=
  ho.of_activeIds ho.life ho.style (Nat.le_refl _) rfl fun x hx => Or.inl ⟨x, hx, rfl⟩

/-- **A request in order keeps the order.** -/
theorem ordered_step {on : Bool} {r : Request}
    (hr : InOrder on h.tables r) : Ordered (h.step on r) := by
  have hpromote : ∀ i, r.promotes h.tables = (if h.tables.promotable i then some i else none) →
      Ordered ⟨promoteGeneration i h.tables, h.everActive ++ h.tables.activeIds⟩ := by
    intro i hi
    by_cases hp : h.tables.promotable i = true
    · rw [if_pos hp] at hi
      obtain ⟨hlater, hstyle⟩ := hr.2 i hi
      exact ordered_promote ho hp hlater hstyle
    · rw [promoteGeneration_of_not (by simpa using hp)]
      exact ordered_same ho
  cases r with
  | updateProfile u =>
    cases hrun : updateProfile on u h.tables with
    | none => simpa [History.step, Request.run, hrun] using ordered_same ho
    | some result =>
      have hnext := nextId_run on h.tables (.updateProfile u)
      obtain ⟨s', built⟩ := result
      have hres : Request.run on h.tables (.updateProfile u) = s' := by
        simp [Request.run, hrun]
      unfold History.step
      rw [hres] at hnext ⊢
      exact ordered_updateProfile ho hr.1 hrun hnext
  | startShadowGeneration style =>
    cases hrun : startShadowGeneration style h.tables with
    | none => simpa [History.step, Request.run, hrun] using ordered_same ho
    | some s' => simpa [History.step, Request.run, hrun] using ordered_startShadow ho hrun
  | finalizeGeneration status g =>
    cases status with
    | shadow => exact ordered_complete ho
    | building => exact hpromote g rfl
    | active | superseded | failed => exact ordered_same ho
  | promoteGeneration g => exact hpromote g rfl
  | deleteAiData => exact ordered_delete ho

end

/-- **The latest rebuild wins** in every run of requests in order. -/
theorem latest_rebuild_wins (on : Bool) (messages : List Message) (rs : List Request)
    (h : Along (History.step on) (fun h r => InOrder on h.tables r) (History.start messages) rs) :
    Throughout (History.step on) LatestWins (History.start messages) rs := by
  have hordered : Throughout (History.step on) Ordered (History.start messages) rs :=
    throughout_of_step (fun _ _ ho hr => ordered_step ho hr) (ordered_start messages) h
  exact hordered.mono fun _ ho => ho.latestWins

/-- The AI inbox is switched on, and two rebuilds are requested one after the other. -/
def twoRebuilds : List Request :=
  [.updateProfile ⟨some true, some true, none, true⟩,
   .updateProfile ⟨none, none, some .broader, true⟩,
   .updateProfile ⟨none, none, some .focused, true⟩]

/-- In order the second rebuild is promoted alone, or after the first one. -/
theorem latest_rebuild_wins_twoRebuilds :
    Throughout (History.step true) LatestWins (History.start [])
      (twoRebuilds ++ [.finalizeGeneration .building 1, .finalizeGeneration .building 2]) :=
  latest_rebuild_wins true [] _ (by decide +kernel)

/-- The rebuild that was requested first is finished last, and replaces the other one. -/
theorem earlier_rebuild_wins :
    ¬ Throughout (History.step true) LatestWins (History.start [])
      (twoRebuilds ++ [.finalizeGeneration .building 2, .finalizeGeneration .building 1]) := by
  intro h
  have hlast := h.last.latest ⟨1, .active, .broader, some 0, true⟩ (by decide +kernel) rfl 2
    (by decide +kernel)
  exact absurd hlast (by decide)

end ElectronicMail.Matters
