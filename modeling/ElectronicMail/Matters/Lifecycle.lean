import ElectronicMail.Matters.Generations

/-!
# The lifecycle of a generation

What each transaction does to the generations and the profile, and what every run keeps
of them: ids are distinct, at most one generation is active, and the profile points to it
(`lifecycle_run`).
-/

namespace ElectronicMail.Matters

open Foundations
open Foundations.Table

/-! ## What the operations do to the generations -/

def activeIdsOf (gs : List Generation) : List Nat := (gs.filter Generation.isActive).map (·.id)

theorem Tables.activeIds_eq (s : Tables) : s.activeIds = activeIdsOf s.generations := rfl

@[simp]
theorem activeIdsOf_nil : activeIdsOf [] = [] := rfl

variable {gs : List Generation} {i : Nat}

theorem mem_activeIdsOf : i ∈ activeIdsOf gs ↔ ∃ g ∈ gs, g.status = .active ∧ g.id = i := by
  simp [activeIdsOf, and_assoc]

variable {s : Tables}

theorem Tables.mem_activeIds :
    i ∈ s.activeIds ↔ ∃ g ∈ s.generations, g.status = .active ∧ g.id = i :=
  mem_activeIdsOf

theorem activeIdsOf_append (gs hs : List Generation) :
    activeIdsOf (gs ++ hs) = activeIdsOf gs ++ activeIdsOf hs := by
  simp [activeIdsOf]

variable {p : Generation → Bool} {f : Generation → Generation}

theorem activeIdsOf_updateWhere
    (h : ∀ g ∈ gs, p g = true → (f g).id = g.id ∧ (f g).isActive = g.isActive) :
    activeIdsOf (updateWhere p f gs) = activeIdsOf gs := by
  induction gs with
  | nil => rfl
  | cons g gs ih =>
    have ih := ih fun x hx => h x (List.mem_cons_of_mem g hx)
    have hg : (if p g then f g else g).id = g.id ∧
        (if p g then f g else g).isActive = g.isActive := by
      by_cases hp : p g = true
      · rw [if_pos hp]
        exact h g List.mem_cons_self hp
      · rw [if_neg hp]
        exact ⟨rfl, rfl⟩
    simp only [activeIdsOf, updateWhere] at ih
    simp only [activeIdsOf, updateWhere, List.map_cons, List.filter_cons, hg.2]
    by_cases ha : g.isActive = true
    · simp [ha, ih, hg.1]
    · simp [ha, ih]

theorem activeIdsOf_promoted (hids : (gs.map (·.id)).Nodup) (hi : i ∈ gs.map (·.id)) :
    activeIdsOf (updateWhere (fun g => g.id == i) (fun g => { g with status:= .active, completed := true })
      (updateWhere Generation.isActive (fun g => { g with status := .superseded }) gs)) = [i] := by
  have hmap : activeIdsOf (updateWhere (fun g => g.id == i)
      (fun g => { g with status := .active, completed := true })
      (updateWhere Generation.isActive (fun g => { g with status := .superseded }) gs))
      = (gs.map (·.id)).filter (· == i) := by
    clear hids hi
    unfold activeIdsOf updateWhere
    induction gs with
    | nil => rfl
    | cons g gs ih =>
      rw [List.map_cons, List.map_cons, List.map_cons, List.filter_cons, List.filter_cons]
      by_cases hg : g.id = i
      · by_cases ha : g.status = .active
        · simpa [hg, ha] using ih
        · simpa [hg, ha] using ih
      · by_cases ha : g.status = .active
        · simpa [hg, ha] using ih
        · simpa [hg, ha] using ih
  rw [hmap, List.filter_beq, List.count_eq_one_of_mem hids hi]
  rfl

section

variable (style : GroupingStyle) (status : GenerationStatus) (source : Option Nat) (s : Tables)

@[simp]
theorem createGeneration_generations :
    (createGeneration style status source s).generations =
      s.generations ++ [⟨s.nextId, status, style, source, false⟩] := by
  cases source <;> rfl

@[simp]
theorem createGeneration_profile :
    (createGeneration style status source s).profile = s.profile := by
  cases source <;> rfl

theorem createGeneration_nextId :
    s.nextId + 1 ≤ (createGeneration style status source s).nextId := by
  cases source with
  | none => exact Nat.le_refl _
  | some => exact Nat.le_add_right _ _

end

/-! ## The lifecycle -/

/-- What every run keeps. `pointed` says at once that at most one generation is active
and that the profile points to it. -/
structure Lifecycle (s : Tables) : Prop where
  idsBelow : ∀ g ∈ s.generations, g.id < s.nextId
  idsNodup : (s.generations.map (·.id)).Nodup
  pointed : s.activeIds = s.currentGeneration.toList
  profiled : s.profile = none → s.generations = []

theorem lifecycle_fresh (messages : List Message) : Lifecycle (Tables.fresh messages) where
  idsBelow := by simp [Tables.fresh]
  idsNodup := by simp [Tables.fresh]
  pointed := by simp [Tables.fresh, Tables.activeIds, Tables.currentGeneration]
  profiled := fun _ => rfl

theorem Lifecycle.one (h : Lifecycle s) {a b : Generation} (ha : a ∈ s.generations)
    (hb : b ∈ s.generations) (ha' : a.status = .active) (hb' : b.status = .active) : a = b := by
  have hia : a.id ∈ s.activeIds := Tables.mem_activeIds.2 ⟨a, ha, ha', rfl⟩
  have hib : b.id ∈ s.activeIds := Tables.mem_activeIds.2 ⟨b, hb, hb', rfl⟩
  rw [h.pointed, Option.mem_toList] at hia hib
  have hid : a.id = b.id := Option.some.inj (hia.symm.trans hib)
  exact row_unique (·.id) h.idsNodup ha hb hid

theorem Lifecycle.active_iff (h : Lifecycle s) :
    (∃ g ∈ s.generations, g.status = .active ∧ g.id = i) ↔ s.currentGeneration = some i := by
  rw [← Tables.mem_activeIds, h.pointed, Option.mem_toList]

variable {s' : Tables}

theorem Lifecycle.of_frame (h : Lifecycle s)
    (hgens : s'.generations = s.generations) (hpointer : s'.currentGeneration = s.currentGeneration)
    (hprofiled : s'.profile.isSome = s.profile.isSome) (hnext : s.nextId ≤ s'.nextId) :
    Lifecycle s' where
  idsBelow := by
    intro g hg
    rw [hgens] at hg
    exact lt_of_lt_of_le (h.idsBelow g hg) hnext
  idsNodup := by
    rw [hgens]
    exact h.idsNodup
  pointed := by
    rw [hpointer, ← h.pointed, Tables.activeIds_eq, Tables.activeIds_eq, hgens]
  profiled := by
    intro hnone
    rw [hgens]
    apply h.profiled
    rw [hnone] at hprofiled
    simpa using hprofiled.symm

theorem Lifecycle.create (h : Lifecycle s) (style : GroupingStyle)
    (status : GenerationStatus) (source : Option Nat) :
    (∀ g ∈ (createGeneration style status source s).generations,
      g.id < (createGeneration style status source s).nextId) ∧
      (((createGeneration style status source s).generations).map (·.id)).Nodup := by
  have hnext := createGeneration_nextId style status source s
  constructor
  · intro g hg
    rw [createGeneration_generations, List.mem_append, List.mem_singleton] at hg
    rcases hg with hg | rfl
    · have := h.idsBelow g hg
      omega
    · exact hnext
  · rw [createGeneration_generations, List.map_append, List.nodup_append]
    refine ⟨h.idsNodup, by simp, ?_⟩
    intro a ha b hb
    obtain ⟨g, hg, rfl⟩ := List.mem_map.1 ha
    have := h.idsBelow g hg
    simp at hb
    omega

theorem ids_updateWhere {n : Nat} (hf : ∀ g, (f g).id = g.id) (hlt : ∀ g ∈ gs, g.id < n)
    (hnodup : (gs.map (·.id)).Nodup) :
    (∀ g ∈ updateWhere p f gs, g.id < n) ∧ ((updateWhere p f gs).map (·.id)).Nodup := by
  constructor
  · refine forall_updateWhere hlt ?_
    intro g _ _ hg
    rw [hf]
    exact hg
  · rw [map_updateWhere (fun g _ _ => hf g)]
    exact hnodup

section

variable (consented enabled : Bool) (style : GroupingStyle) (current : Option Nat) (s : Tables)

@[simp]
theorem upsertProfile_generations :
    (upsertProfile consented enabled style current s).generations = s.generations := rfl

@[simp]
theorem upsertProfile_currentStyle :
    (upsertProfile consented enabled style current s).currentStyle = style := by
  cases hp : s.profile <;> simp [upsertProfile, Tables.currentStyle, hp]

@[simp]
theorem upsertProfile_currentGeneration :
    (upsertProfile consented enabled style current s).currentGeneration =
      s.currentGeneration.or current := by
  cases hp : s.profile <;> simp [upsertProfile, Tables.currentGeneration, hp]

theorem upsertProfile_profile_ne_none :
    (upsertProfile consented enabled style current s).profile ≠ none := by
  simp [upsertProfile]

end

theorem Lifecycle.upsert (hbelow : ∀ g ∈ s.generations, g.id < s.nextId)
    (hnodup : (s.generations.map (·.id)).Nodup) (consented enabled : Bool) (style : GroupingStyle)
    (current : Option Nat) (hp : s.activeIds = (s.currentGeneration.or current).toList) :
    Lifecycle (upsertProfile consented enabled style current s) where
  idsBelow := hbelow
  idsNodup := hnodup
  pointed := by
    rw [upsertProfile_currentGeneration]
    exact hp
  profiled := fun h => (upsertProfile_profile_ne_none _ _ _ _ _ h).elim

/-- **What `update_profile` does.** It keeps the generations, adds the first active one,
adds a rebuild, or changes the style of the active one; in each case the profile gets the
resolved style. -/
theorem updateProfile_cases {on : Bool} {u : ProfileUpdate} {built : Option Nat}
    (h : updateProfile on u s = some (s', built)) :
    (s.currentGeneration = none ∧ s.activeIds = [] ∧ u.resolvedEnabled on s = true ∧
      s' = upsertProfile (u.resolvedConsent s) true (u.resolvedStyle s) (some s.nextId)
        (createGeneration (u.resolvedStyle s) .active none s)) ∨ (u.resolvedEnabled on s = true ∧
      s' = upsertProfile (u.resolvedConsent s) true (u.resolvedStyle s) s.currentGeneration
        (createGeneration (u.resolvedStyle s) .building s.currentGeneration s)) ∨
    (∃ g, s.currentGeneration = some g ∧ u.resolvedEnabled on s = true ∧
      s' = upsertProfile (u.resolvedConsent s) true (u.resolvedStyle s) (some g)
        (restyleActive g (u.resolvedStyle s) s)) ∨
    ((u.resolvedEnabled on s = false ∨ u.resolvedStyle s = s.currentStyle) ∧
      s' = upsertProfile (u.resolvedConsent s) (u.resolvedEnabled on s) (u.resolvedStyle s)
        s.currentGeneration s) := by
  unfold updateProfile at h
  by_cases hon : u.resolvedEnabled on s = true
  · by_cases hcurrent : s.currentGeneration = none
    · -- Switched on without a generation.
      simp only [hon, hcurrent, Option.isNone_none, Bool.and_self, if_true] at h
      by_cases hreviewed : s.profile.any Profile.isReviewed = true
      · simp [hreviewed] at h
      by_cases hactive : s.generations.any Generation.isActive = true
      · simp [hactive] at h
      · simp only [hreviewed, hactive] at h
        refine Or.inl ⟨hcurrent, ?_, hon, ?_⟩
        · simp only [List.any_eq_true, not_exists, not_and] at hactive
          simp only [Tables.activeIds, List.map_eq_nil_iff, List.filter_eq_nil_iff]
          exact hactive
        · simp at h
          exact h.1.symm
    · obtain ⟨g, hg⟩ := Option.ne_none_iff_exists'.1 hcurrent
      by_cases hstyle : u.resolvedStyle s = s.currentStyle
      · refine Or.inr (Or.inr (Or.inr ⟨Or.inr hstyle, ?_⟩))
        simp [hon, hg, hstyle] at h
        simpa [hon, hg, hstyle] using h.1.symm
      · by_cases hrebuild : u.rebuildExisting = true
        · refine Or.inr (Or.inl ⟨hon, ?_⟩)
          simp [hon, hg, hstyle, hrebuild] at h
          simpa [hg] using h.1.symm
        · refine Or.inr (Or.inr (Or.inl ⟨g, hg, hon, ?_⟩))
          simp [hon, hg, hstyle, hrebuild] at h
          exact h.1.symm
  · rw [Bool.not_eq_true] at hon
    refine Or.inr (Or.inr (Or.inr ⟨Or.inl hon, ?_⟩))
    simp [hon] at h
    simpa [hon] using h.1.symm

theorem lifecycle_updateProfile {on : Bool} {u : ProfileUpdate}
    {built : Option Nat} (hs : Lifecycle s) (h : updateProfile on u s = some (s', built)) :
    Lifecycle s' := by
  rcases updateProfile_cases h with ⟨hcurrent, hactive, _, rfl⟩ | ⟨_, rfl⟩ | ⟨g, hg, _, rfl⟩ |
    ⟨_, rfl⟩
  · obtain ⟨hbelow, hnodup⟩ := hs.create (u.resolvedStyle s) .active none
    apply Lifecycle.upsert hbelow hnodup
    rw [Tables.activeIds_eq, createGeneration_generations, activeIdsOf_append,
      ← Tables.activeIds_eq, hactive]
    show [s.nextId] = (s.currentGeneration.or (some s.nextId)).toList
    rw [hcurrent]
    rfl
  · obtain ⟨hbelow, hnodup⟩ := hs.create (u.resolvedStyle s) .building s.currentGeneration
    apply Lifecycle.upsert hbelow hnodup
    rw [Tables.activeIds_eq, createGeneration_generations, activeIdsOf_append,
      ← Tables.activeIds_eq, hs.pointed]
    simp [activeIdsOf, Tables.currentGeneration]
  · obtain ⟨hbelow, hnodup⟩ := ids_updateWhere (p := fun x => x.id == g && x.isActive)
      (f := fun x => { x with groupingStyle := u.resolvedStyle s }) (fun _ => rfl)
      hs.idsBelow hs.idsNodup
    apply Lifecycle.upsert hbelow hnodup
    have hkept : activeIdsOf (restyleActive g (u.resolvedStyle s) s).generations = s.activeIds :=
      activeIdsOf_updateWhere fun _ _ _ => ⟨rfl, rfl⟩
    rw [Tables.activeIds_eq, hkept, hs.pointed]
    show s.currentGeneration.toList = (s.currentGeneration.or (some g)).toList
    rw [hg]
    rfl
  · apply Lifecycle.upsert hs.idsBelow hs.idsNodup
    rw [hs.pointed]
    cases s.currentGeneration <;> rfl

variable {style : GroupingStyle}

/-- What `start_shadow_generation` does: the shadows are superseded, and a new one is
created from the generation of the profile. -/
theorem startShadowGeneration_cases (h : startShadowGeneration style s = some s') :
    ∃ p, s.profile = some p ∧ p.consented = true ∧
      s'.generations = updateWhere (fun g => g.status == .shadow) (fun g => { g with status:= .superseded }) s.generations ++
          [⟨s.nextId, .shadow, style, s.currentGeneration, false⟩] ∧
      s.nextId + 1 ≤ s'.nextId ∧
      s'.profile = some
        { p with groupingStyle := style, rolloutMode := .shadow, revision := p.revision + 1 } := by
  unfold startShadowGeneration at h
  cases hp : s.profile with
  | none => simp [hp] at h
  | some p =>
    by_cases hc : p.consented = true
    · simp only [hp] at h
      rw [if_pos hc, Option.some.injEq] at h
      subst h
      have hcurrent : s.currentGeneration = p.activeGenerationId := by
        simp [Tables.currentGeneration, hp]
      refine ⟨p, rfl, hc, ?_, ?_, rfl⟩
      · show (createGeneration _ _ _ _).generations = _
        rw [createGeneration_generations, hcurrent]
        rfl
      · exact createGeneration_nextId style .shadow p.activeGenerationId (supersedeShadows s)
    · simp [hp, hc] at h

theorem lifecycle_startShadow (hs : Lifecycle s) (h : startShadowGeneration style s = some s') :
    Lifecycle s' := by
  obtain ⟨p, hp, _, hgens, hnext, hprofile⟩ := startShadowGeneration_cases h
  obtain ⟨hbelow, hnodup⟩ := ids_updateWhere (p := fun x => x.status == .shadow)
    (f := fun x => { x with status := .superseded }) (fun _ => rfl) hs.idsBelow hs.idsNodup
  have hactive : activeIdsOf (updateWhere (fun g => g.status == .shadow)
      (fun g => { g with status := .superseded }) s.generations) = s.activeIds := by
    apply activeIdsOf_updateWhere
    intro g _ hg
    rw [beq_iff_eq] at hg
    simp [Generation.isActive, hg]
  constructor
  · intro g hg
    rw [hgens, List.mem_append, List.mem_singleton] at hg
    rcases hg with hg | rfl
    · have := hbelow g hg
      omega
    · exact hnext
  · rw [hgens, List.map_append, List.nodup_append]
    refine ⟨hnodup, by simp, ?_⟩
    intro a ha b hb
    obtain ⟨g, hg, rfl⟩ := List.mem_map.1 ha
    have := hbelow g hg
    simp at hb
    omega
  · rw [Tables.activeIds_eq, hgens, activeIdsOf_append, hactive, hs.pointed]
    simp [activeIdsOf, Generation.isActive, Tables.currentGeneration, hprofile, hp]
  · intro hnone
    rw [hprofile] at hnone
    cases hnone

theorem promoteGeneration_of_not (h : s.promotable i = false) : promoteGeneration i s = s := by
  simp [promoteGeneration, h]

theorem promotable_iff :
    s.promotable i = true ↔ ∃ g ∈ s.generations, g.id = i ∧ g.isRebuild = true := by
  simp [Tables.promotable]

theorem promoteGeneration_eq (h : s.promotable i = true) :
    (promoteGeneration i s).generations =
      updateWhere (fun g => g.id == i) (fun g => { g with status := .active, completed := true })
        (updateWhere Generation.isActive (fun g => { g with status := .superseded })
          s.generations) ∧
    (promoteGeneration i s).nextId = s.nextId ∧
    (promoteGeneration i s).profile = s.profile.map fun p =>
      { p with
        activeGenerationId := some i, enabled := true, rolloutMode := .live,
        revision := p.revision + 1 } := by
  simp [promoteGeneration, h, cancelFinalize, cancelJobs]

theorem promoteGeneration_frame (i : Nat) (s : Tables) :
    (promoteGeneration i s).members = s.members ∧ (promoteGeneration i s).matters = s.matters ∧
      (promoteGeneration i s).decisions = s.decisions ∧
      (promoteGeneration i s).nextId = s.nextId ∧
      (promoteGeneration i s).generations.map (·.id) = s.generations.map (·.id) := by
  by_cases h : s.promotable i = true
  · have hids : (promoteGeneration i s).generations.map (·.id) = s.generations.map (·.id) := by
      rw [(promoteGeneration_eq h).1, map_updateWhere, map_updateWhere]
      · exact fun _ _ _ => rfl
      · exact fun _ _ _ => rfl
    refine ⟨?_, ?_, ?_, (promoteGeneration_eq h).2.1, hids⟩
    · simp [promoteGeneration, h, cancelFinalize, cancelJobs]
    · simp [promoteGeneration, h, cancelFinalize, cancelJobs]
    · simp [promoteGeneration, h, cancelFinalize, cancelJobs]
  · rw [promoteGeneration_of_not (by simpa using h)]
    exact ⟨rfl, rfl, rfl, rfl, rfl⟩

theorem activeIds_promote (hs : Lifecycle s)
    (h : s.promotable i = true) : (promoteGeneration i s).activeIds = [i] := by
  rw [Tables.activeIds_eq, (promoteGeneration_eq h).1]
  obtain ⟨g, hg, hi, _⟩ := promotable_iff.1 h
  exact activeIdsOf_promoted hs.idsNodup (List.mem_map.2 ⟨g, hg, hi⟩)

theorem lifecycle_promote (hs : Lifecycle s) : Lifecycle (promoteGeneration i s) := by
  by_cases h : s.promotable i = true
  · obtain ⟨hgens, hnext, hprofile⟩ := promoteGeneration_eq h
    obtain ⟨hbelow, hnodup⟩ := ids_updateWhere (p := Generation.isActive)
      (f := fun x => { x with status := .superseded }) (fun _ => rfl) hs.idsBelow hs.idsNodup
    obtain ⟨hbelow, hnodup⟩ := ids_updateWhere (p := fun x => x.id == i)
      (f := fun x => { x with status := .active, completed := true }) (fun _ => rfl) hbelow hnodup
    constructor
    · rw [hgens, hnext]
      exact hbelow
    · rw [hgens]
      exact hnodup
    · rw [activeIds_promote hs h]
      cases hp : s.profile with
      | none =>
        obtain ⟨g, hg, _⟩ := promotable_iff.1 h
        rw [hs.profiled hp] at hg
        simp at hg
      | some p => simp [Tables.currentGeneration, hprofile, hp]
    · intro hnone
      rw [hprofile, Option.map_eq_none_iff] at hnone
      rw [hgens, hs.profiled hnone]
      rfl
  · rw [promoteGeneration_of_not (by simpa using h)]
    exact hs

theorem lifecycle_complete (hs : Lifecycle s) : Lifecycle (completeShadowGeneration i s) := by
  obtain ⟨hbelow, hnodup⟩ := ids_updateWhere (p := fun x => x.id == i && x.status == .shadow)
    (f := fun x => { x with completed := true }) (fun _ => rfl) hs.idsBelow hs.idsNodup
  refine ⟨hbelow, hnodup, ?_, ?_⟩
  · have hkept : (completeShadowGeneration i s).activeIds = s.activeIds :=
      activeIdsOf_updateWhere fun _ _ _ => ⟨rfl, rfl⟩
    rw [hkept]
    exact hs.pointed
  · intro hnone
    show updateWhere _ _ s.generations = []
    rw [hs.profiled hnone]
    rfl

theorem lifecycle_delete : Lifecycle (deleteAiData s) where
  idsBelow := by simp [deleteAiData]
  idsNodup := by simp [deleteAiData]
  pointed := by simp [deleteAiData, Tables.activeIds, Tables.currentGeneration]
  profiled := fun _ => rfl

/-- **Every request keeps the lifecycle.** -/
theorem lifecycle_run (on : Bool) (r : Request) (hs : Lifecycle s) : Lifecycle (r.run on s) := by
  cases r with
  | updateProfile u =>
    cases h : updateProfile on u s with
    | none => simpa [Request.run, h] using hs
    | some result =>
      obtain ⟨s', built⟩ := result
      simpa [Request.run, h] using lifecycle_updateProfile hs h
  | startShadowGeneration style =>
    cases h : startShadowGeneration style s with
    | none => simpa [Request.run, h] using hs
    | some s' => simpa [Request.run, h] using lifecycle_startShadow hs h
  | finalizeGeneration status g =>
    cases status with
    | shadow => exact lifecycle_complete hs
    | building => exact lifecycle_promote hs
    | active | superseded | failed => exact hs
  | promoteGeneration g => exact lifecycle_promote hs
  | deleteAiData => exact lifecycle_delete

end ElectronicMail.Matters
