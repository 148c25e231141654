import ElectronicMail.Matters.Members

/-!
# What the transactions do to the subgoals

An assignment that is not provisional writes subgoals of its own matter, and a merge of
reconciled matters takes those of the source over into the target, one after the other. In
both cases the subgoals of all other matters stay as they are, and after a merge the source
has none. `SubgoalsSound` is the primary key and the foreign key of the rows.
-/

namespace ElectronicMail.Matters

open Foundations.Table

variable {g t : Nat}

@[simp]
theorem Subgoal.isIn_iff {r : Subgoal} :
    r.isIn g t = true ↔ r.generationId = g ∧ r.matterId = t := by
  simp [Subgoal.isIn]

/-- The primary key of the subgoals, no subgoal with an id to come, and the matter of every
subgoal. -/
structure SubgoalsSound (s : Tables) : Prop where
  ids : (s.subgoals.map Subgoal.id).Nodup
  below : ∀ r ∈ s.subgoals, r.id < s.nextId
  housed : ∀ r ∈ s.subgoals, (r.matterId, r.generationId) ∈ s.matterKeys

variable {s : Tables}

theorem SubgoalsSound.of_eq {s' : Tables} (h : SubgoalsSound s) (hsub : s'.subgoals = s.subgoals)
    (hkeys : ∀ k ∈ s.matterKeys, k ∈ s'.matterKeys) (hnext : s.nextId ≤ s'.nextId) :
    SubgoalsSound s' where
  ids := by
    rw [hsub]
    exact h.ids
  below := by
    rw [hsub]
    exact fun r hr => lt_of_lt_of_le (h.below r hr) hnext
  housed := by
    rw [hsub]
    exact fun r hr => hkeys _ (h.housed r hr)

/-! ## The subgoals of an assignment -/

/-- What the loop over the subgoals of an assignment keeps: distinct ids below the next
one, and the rows that it may update are those of its matter. `others` are the rows of
some other matter. -/
structure LoopKept (g t : Nat) (existing : List Subgoal) (q : Subgoal → Bool)
    (others : List Subgoal) (loop : SubgoalLoop) : Prop where
  ids : (loop.subgoals.map Subgoal.id).Nodup
  below : ∀ r ∈ loop.subgoals, r.id < loop.nextId
  own : ∀ r ∈ loop.subgoals, (∃ e ∈ existing, e.id = r.id) → r.isIn g t = true
  others : loop.subgoals.filter q = others

variable {now : Nat} {existing : List Subgoal} {q : Subgoal → Bool} {loop : SubgoalLoop}

variable {others : List Subgoal}

theorem loopKept_round (hq : ∀ r : Subgoal, r.isIn g t = true → q r = false)
    (h : LoopKept g t existing q others loop) (u : SubgoalUpdate) :
    LoopKept g t existing q others (loop.round g t now existing u) := by
  unfold SubgoalLoop.round
  cases u.canonicalKey with
  | none => exact h
  | some key =>
    dsimp only
    by_cases hgood : (u.developed && u.status.ofSubgoal && !loop.processedKeys.contains key) = true
    · rw [if_pos hgood]
      cases hfound : (existing.find? fun e => some e.id == u.existingSubgoalId).or
          (existing.find? fun e => e.canonicalKey == key) with
      | some e =>
        have he : e ∈ existing := by
          rcases Option.or_eq_some_iff.1 hfound with hf | ⟨_, hf⟩
          · exact List.mem_of_find?_eq_some hf
          · exact List.mem_of_find?_eq_some hf
        constructor
        · rw [map_updateWhere]
          · exact h.ids
          · exact fun _ _ _ => rfl
        · exact forall_updateWhere h.below fun _ _ _ hr => hr
        · intro r hr hin
          obtain ⟨r₀, h₀, rfl⟩ := mem_updateWhere.1 hr
          by_cases hid : (r₀.id == e.id) = true
          · rw [if_pos hid] at hin ⊢
            exact h.own r₀ h₀ hin
          · rw [if_neg hid] at hin ⊢
            exact h.own r₀ h₀ hin
        · rw [← h.others]
          apply filter_updateWhere
          intro r hr hid
          rw [beq_iff_eq] at hid
          have hown := h.own r hr ⟨e, he, hid.symm⟩
          exact ⟨hq r hown, hq _ hown⟩
      | none =>
        constructor
        · rw [List.map_append, List.nodup_append]
          refine ⟨h.ids, by simp, ?_⟩
          intro x hx y hy
          obtain ⟨r, hr, rfl⟩ := List.mem_map.1 hx
          have := h.below r hr
          simp at hy
          omega
        · intro r hr
          rcases List.mem_append.1 hr with hr | hr
          · exact Nat.lt_succ_of_lt (h.below r hr)
          · rw [List.mem_singleton.1 hr]
            exact Nat.lt_succ_self _
        · intro r hr hin
          rcases List.mem_append.1 hr with hr | hr
          · exact h.own r hr hin
          · rw [List.mem_singleton.1 hr]
            simp
        · rw [List.filter_append, h.others]
          simp [hq]
    · rw [if_neg hgood]
      exact h

theorem loopKept_foldl (hq : ∀ r : Subgoal, r.isIn g t = true → q r = false)
    (us : List SubgoalUpdate) (h : LoopKept g t existing q others loop) :
    LoopKept g t existing q others (us.foldl (SubgoalLoop.round g t now existing) loop) := by
  induction us generalizing loop with
  | nil => exact h
  | cons u us ih => exact ih (loopKept_round hq h u)

variable {P : Nat × Nat → Prop}

theorem round_housed (hown : P (t, g)) (u : SubgoalUpdate)
    (h : ∀ r ∈ loop.subgoals, P (r.matterId, r.generationId)) :
    ∀ r ∈ (loop.round g t now existing u).subgoals, P (r.matterId, r.generationId) := by
  unfold SubgoalLoop.round
  cases u.canonicalKey with
  | none => exact h
  | some key =>
    dsimp only
    by_cases hgood : (u.developed && u.status.ofSubgoal && !loop.processedKeys.contains key) = true
    · rw [if_pos hgood]
      cases (existing.find? fun e => some e.id == u.existingSubgoalId).or
          (existing.find? fun e => e.canonicalKey == key) with
      | some e => exact forall_updateWhere h fun _ _ _ hr => hr
      | none =>
        intro r hr
        rcases List.mem_append.1 hr with hr | hr
        · exact h r hr
        · rw [List.mem_singleton.1 hr]
          exact hown
    · rw [if_neg hgood]
      exact h

theorem foldl_round_housed (hown : P (t, g)) (us : List SubgoalUpdate)
    (h : ∀ r ∈ loop.subgoals, P (r.matterId, r.generationId)) :
    ∀ r ∈ (us.foldl (SubgoalLoop.round g t now existing) loop).subgoals,
      P (r.matterId, r.generationId) := by
  induction us generalizing loop with
  | nil => exact h
  | cons u us ih => exact ih (round_housed hown u h)

theorem loopKept_writeSubgoals (us : List SubgoalUpdate) (hs : SubgoalsSound s)
    (hq : ∀ r : Subgoal, r.isIn g t = true → q r = false) :
    LoopKept g t (s.subgoalsOf g t) q (s.subgoals.filter q)
      ((us.take 12).foldl (SubgoalLoop.round g t s.now (s.subgoalsOf g t))
        ⟨s.subgoals, [], s.nextId⟩) := by
  apply loopKept_foldl hq
  refine ⟨hs.ids, hs.below, ?_, rfl⟩
  rintro r hr ⟨e, he, hid⟩
  obtain ⟨hmem, hin⟩ := List.mem_filter.1 he
  rw [← row_unique Subgoal.id hs.ids hmem hr hid]
  exact hin

variable {us : List SubgoalUpdate}

/-- **An assignment writes subgoals of its own matter only.** -/
theorem writeSubgoals_others {g' t' : Nat} (hs : SubgoalsSound s) (hother : ¬ (g' = g ∧ t' = t)) :
    (writeSubgoals g t us s).subgoalsOf g' t' = s.subgoalsOf g' t' := by
  apply (loopKept_writeSubgoals us hs _).others
  intro r hr
  obtain ⟨hg, ht⟩ := Subgoal.isIn_iff.1 hr
  rw [← Bool.not_eq_true, Subgoal.isIn_iff, hg, ht]
  rintro ⟨rfl, rfl⟩
  exact hother ⟨rfl, rfl⟩

theorem subgoalsSound_writeSubgoals (hs : SubgoalsSound s) (hown : (t, g) ∈ s.matterKeys) :
    SubgoalsSound (writeSubgoals g t us s) := by
  have hkept := loopKept_writeSubgoals (g := g) (t := t) (q := fun _ => false) us hs
    (fun _ _ => rfl)
  exact ⟨hkept.ids, hkept.below,
    foldl_round_housed (P := fun k => k ∈ s.matterKeys) hown (us.take 12) hs.housed⟩

/-! ## The subgoals of a merge -/

/-- The row is one of those before the loop, where it was or in the target. -/
def ComesFrom (g target : Nat) (start : List Subgoal) (r : Subgoal) : Prop :=
  ∃ r₀ ∈ start, r₀.id = r.id ∧
    (r.isIn g target = true ∨ (r.matterId = r₀.matterId ∧ r.generationId = r₀.generationId))

/-- What the loop over the subgoals of the source keeps. `rest` are the subgoals that it
has still to go through; only these are left in the source. -/
structure MergeKept (g source target : Nat) (start all rest subgoals : List Subgoal) : Prop where
  ids : (subgoals.map Subgoal.id).Nodup
  own : ∀ r ∈ subgoals, (∃ e ∈ all, e.id = r.id) → r.isIn g source = true ∨ r.isIn g target = true
  left : ∀ r ∈ subgoals, r.isIn g source = true → ∃ e ∈ rest, e.id = r.id
  origin : ∀ r ∈ subgoals, ComesFrom g target start r

theorem nodup_map_filter {α κ : Type*} {key : α → κ} {p : α → Bool} {rows : List α}
    (h : (rows.map key).Nodup) : ((rows.filter p).map key).Nodup :=
  List.Nodup.sublist (List.filter_sublist.map key) h

variable {source target : Nat}

variable {start subgoals : List Subgoal}

theorem mergeKept_round (now : Nat) {all rest : List Subgoal} {e : Subgoal} (hne : source ≠ target)
    (he : e ∈ all) (h : MergeKept g source target start all (e :: rest) subgoals)
    (q : Subgoal → Bool) (hsource : ∀ r : Subgoal, r.isIn g source = true → q r = false)
    (htarget : ∀ r : Subgoal, r.isIn g target = true → q r = false) :
    MergeKept g source target start all rest (mergeSubgoal g target now subgoals e) ∧
      (mergeSubgoal g target now subgoals e).filter q = subgoals.filter q := by
  have hboth : ∀ r : Subgoal, r.isIn g source = true ∨ r.isIn g target = true → q r = false := by
    rintro r (hr | hr)
    · exact hsource r hr
    · exact htarget r hr
  unfold mergeSubgoal
  cases hfound : subgoals.find? fun r => r.isIn g target && r.canonicalKey == e.canonicalKey with
  | none =>
    -- The subgoal moves to the target.
    dsimp only
    have hmoved : ∀ r ∈ subgoals, (r.id == e.id) = true →
        ({ r with matterId := target, updatedAt := now } : Subgoal).isIn g target = true := by
      intro r hr hid
      rw [beq_iff_eq] at hid
      rcases h.own r hr ⟨e, he, hid.symm⟩ with hin | hin
      · simpa using (Subgoal.isIn_iff.1 hin).1
      · simpa using (Subgoal.isIn_iff.1 hin).1
    refine ⟨⟨?_, ?_, ?_, ?_⟩, ?_⟩
    · rw [map_updateWhere]
      · exact h.ids
      · exact fun _ _ _ => rfl
    · intro r hr hin
      obtain ⟨r₀, h₀, rfl⟩ := mem_updateWhere.1 hr
      by_cases hid : (r₀.id == e.id) = true
      · rw [if_pos hid]
        exact Or.inr (hmoved r₀ h₀ hid)
      · rw [if_neg hid] at hin ⊢
        exact h.own r₀ h₀ hin
    · intro r hr hin
      obtain ⟨r₀, h₀, rfl⟩ := mem_updateWhere.1 hr
      by_cases hid : (r₀.id == e.id) = true
      · rw [if_pos hid] at hin
        exact absurd (Subgoal.isIn_iff.1 hin).2.symm hne
      · rw [if_neg hid] at hin ⊢
        obtain ⟨e', he', hid'⟩ := h.left r₀ h₀ hin
        rcases List.mem_cons.1 he' with rfl | he'
        · exact absurd (beq_iff_eq.2 hid'.symm) hid
        · exact ⟨e', he', hid'⟩
    · intro r hr
      obtain ⟨r₀, h₀, rfl⟩ := mem_updateWhere.1 hr
      obtain ⟨r₁, h₁, hid₁, hcase⟩ := h.origin r₀ h₀
      by_cases hid : (r₀.id == e.id) = true
      · rw [if_pos hid]
        exact ⟨r₁, h₁, hid₁, Or.inl (hmoved r₀ h₀ hid)⟩
      · rw [if_neg hid]
        exact ⟨r₁, h₁, hid₁, hcase⟩
    · apply filter_updateWhere
      intro r hr hid
      refine ⟨?_, htarget _ (hmoved r hr hid)⟩
      rw [beq_iff_eq] at hid
      exact hboth r (h.own r hr ⟨e, he, hid.symm⟩)
  | some existing =>
    -- The subgoal is folded into the one of the target with its key.
    dsimp only
    have hexisting := List.mem_of_find?_eq_some hfound
    have hin : existing.isIn g target = true := by
      have := List.find?_some hfound
      simp only [Bool.and_eq_true] at this
      exact this.1
    have hrow : ∀ r ∈ subgoals, (r.id == existing.id) = true → r.isIn g target = true := by
      intro r hr hid
      rw [beq_iff_eq] at hid
      rw [row_unique Subgoal.id h.ids hr hexisting hid]
      exact hin
    have hmem : ∀ r : Subgoal, r ∈ (updateWhere (fun r => r.id == existing.id)
        (fun r => { r with
          status := if existing.updatedAt ≤ e.updatedAt then e.status else existing.status,
          updatedAt := now }) subgoals).filter (fun r => r.id != e.id) →
        r.id ≠ e.id ∧ ∃ r₀ ∈ subgoals, r₀.id = r.id ∧ r₀.matterId = r.matterId ∧
          r₀.generationId = r.generationId := by
      intro r hr
      obtain ⟨hr, hid⟩ := List.mem_filter.1 hr
      obtain ⟨r₀, h₀, rfl⟩ := mem_updateWhere.1 hr
      refine ⟨by simpa using hid, r₀, h₀, ?_⟩
      by_cases hsel : (r₀.id == existing.id) = true
      · rw [if_pos hsel]
        exact ⟨rfl, rfl, rfl⟩
      · rw [if_neg hsel]
        exact ⟨rfl, rfl, rfl⟩
    have hsame : ∀ r r₀ : Subgoal, r₀.matterId = r.matterId → r₀.generationId = r.generationId →
        ∀ t, r.isIn g t = r₀.isIn g t := by
      intro r r₀ ht hg t
      rw [Subgoal.isIn, ← ht, ← hg, Subgoal.isIn]
    refine ⟨⟨?_, ?_, ?_, ?_⟩, ?_⟩
    · apply nodup_map_filter
      rw [map_updateWhere]
      · exact h.ids
      · exact fun _ _ _ => rfl
    · rintro r hr ⟨e', he', hid'⟩
      obtain ⟨_, r₀, h₀, hid, ht, hg⟩ := hmem r hr
      rw [hsame r r₀ ht hg, hsame r r₀ ht hg]
      exact h.own r₀ h₀ ⟨e', he', hid'.trans hid.symm⟩
    · intro r hr hleft
      obtain ⟨hne', r₀, h₀, hid, ht, hg⟩ := hmem r hr
      rw [hsame r r₀ ht hg] at hleft
      obtain ⟨e', he', hid'⟩ := h.left r₀ h₀ hleft
      rcases List.mem_cons.1 he' with rfl | he'
      · exact absurd (hid.symm.trans hid'.symm) hne'
      · exact ⟨e', he', hid'.trans hid⟩
    · intro r hr
      obtain ⟨_, r₀, h₀, hid, ht, hg⟩ := hmem r hr
      obtain ⟨r₁, h₁, hid₁, hcase⟩ := h.origin r₀ h₀
      rw [← hsame r r₀ ht hg, ht, hg] at hcase
      exact ⟨r₁, h₁, hid₁.trans hid, hcase⟩
    · rw [List.filter_filter]
      have hdrop : ∀ r ∈ updateWhere (fun r => r.id == existing.id)
          (fun r : Subgoal => { r with
            status := if existing.updatedAt ≤ e.updatedAt then e.status else existing.status,
            updatedAt := now }) subgoals, (q r && r.id != e.id) = q r := by
        intro r hr
        obtain ⟨r₀, h₀, rfl⟩ := mem_updateWhere.1 hr
        by_cases hsel : (r₀.id == existing.id) = true
        · have hnew : q { r₀ with
              status := if existing.updatedAt ≤ e.updatedAt then e.status else existing.status,
              updatedAt := now } = false := htarget _ (hrow r₀ h₀ hsel)
          rw [if_pos hsel, hnew]
          rfl
        · rw [if_neg hsel]
          by_cases hid : r₀.id = e.id
          · rw [hboth r₀ (h.own r₀ h₀ ⟨e, he, hid.symm⟩)]
            rfl
          · simp [hid]
      rw [List.filter_congr hdrop]
      apply filter_updateWhere
      intro r hr hid
      exact ⟨htarget r (hrow r hr hid), htarget _ (hrow r hr hid)⟩

theorem mergeKept_foldl {all rest : List Subgoal} (hne : source ≠ target)
    (hall : ∀ e ∈ rest, e ∈ all) (h : MergeKept g source target start all rest subgoals)
    (q : Subgoal → Bool) (hsource : ∀ r : Subgoal, r.isIn g source = true → q r = false)
    (htarget : ∀ r : Subgoal, r.isIn g target = true → q r = false) :
    MergeKept g source target start all [] (rest.foldl (mergeSubgoal g target now) subgoals) ∧
      (rest.foldl (mergeSubgoal g target now) subgoals).filter q = subgoals.filter q := by
  induction rest generalizing subgoals with
  | nil => exact ⟨h, rfl⟩
  | cons e rest ih =>
    obtain ⟨hround, hsame⟩ := mergeKept_round now hne (hall e List.mem_cons_self) h q
      hsource htarget
    obtain ⟨hrest, hsame'⟩ := ih (fun x hx => hall x (List.mem_cons_of_mem e hx)) hround
    exact ⟨hrest, hsame'.trans hsame⟩

/-- **The subgoals after a merge**: the source has none, and those of other matters are as
they were. -/
theorem mergeKept_moveReconciled (hne : source ≠ target)
    (hsub : SubgoalsSound s) (q : Subgoal → Bool)
    (hsource : ∀ r : Subgoal, r.isIn g source = true → q r = false)
    (htarget : ∀ r : Subgoal, r.isIn g target = true → q r = false) :
    MergeKept g source target s.subgoals (s.subgoalsOf g source) []
        (moveReconciled g source target s).subgoals ∧
      (moveReconciled g source target s).subgoals.filter q = s.subgoals.filter q := by
  refine mergeKept_foldl hne (fun _ he => he) ⟨hsub.ids, ?_, ?_, ?_⟩ q hsource htarget
  · rintro r hr ⟨e, he, hid⟩
    obtain ⟨hmem, hin⟩ := List.mem_filter.1 he
    rw [← row_unique Subgoal.id hsub.ids hmem hr hid]
    exact Or.inl hin
  · intro r hr hin
    exact ⟨r, List.mem_filter.2 ⟨hr, hin⟩, rfl⟩
  · exact fun r hr => ⟨r, hr, rfl, Or.inr ⟨rfl, rfl⟩⟩

theorem subgoalsSound_moveReconciled (hne : source ≠ target)
    (hsub : SubgoalsSound s) (hin : (target, g) ∈ s.matterKeys) :
    SubgoalsSound (moveReconciled g source target s) := by
  obtain ⟨hkept, _⟩ := mergeKept_moveReconciled (g := g) hne hsub (fun _ => false)
    (fun _ _ => rfl) (fun _ _ => rfl)
  refine ⟨hkept.ids, ?_, ?_⟩
  · intro r hr
    obtain ⟨r₀, h₀, hid, _⟩ := hkept.origin r hr
    rw [← hid]
    exact hsub.below r₀ h₀
  · intro r hr
    obtain ⟨r₀, h₀, _, hcase⟩ := hkept.origin r hr
    show (r.matterId, r.generationId) ∈ s.matterKeys
    rcases hcase with htarget | ⟨ht, hg⟩
    · obtain ⟨hg, ht⟩ := Subgoal.isIn_iff.1 htarget
      rw [hg, ht]
      exact hin
    · rw [hg, ht]
      exact hsub.housed r₀ h₀

end ElectronicMail.Matters
