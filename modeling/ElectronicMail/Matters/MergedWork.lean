import ElectronicMail.Matters.Subgoals

/-!
# What a merge does with the work

A merge puts the members of one matter into another one and hides the first. The user's
merge, in `apply_user_decision`, consists of three updates and none is of subgoals; the
merge of reconciled matters goes through the subgoals of the source as well.

`KeepsWork` is what either should do. `merges_keep_work_iff` says that the merge of
reconciled matters does it always, and the user's merge exactly where the target has a
subgoal for each of the source already.
-/

namespace ElectronicMail.Matters

open Foundations.Table

def MatterStatus.isOpen : MatterStatus → Bool
  | .needsYou | .waitingOnOthers | .inProgress => true
  | .completed | .partiallyCompleted | .failed | .cancelled | .informational => false

def Tables.IsVisible (s : Tables) (generationId matterId : Nat) : Prop :=
  ∃ m ∈ s.matters, m.is generationId matterId = true ∧ m.visible = true

def Tables.subgoalKeysOf (s : Tables) (generationId matterId : Nat) : List Nat :=
  (s.subgoalsOf generationId matterId).map Subgoal.canonicalKey

/-- A visible matter has the subgoal open: the row itself, or one of the target with its
key. -/
def Tables.StillOpen (s : Tables) (generationId targetMatterId : Nat) (e : Subgoal) : Prop :=
  ∃ r ∈ s.subgoals, r.generationId = generationId ∧ r.canonicalKey = e.canonicalKey ∧
    r.status.isOpen = true ∧ (r.id = e.id ∨ r.matterId = targetMatterId) ∧
    s.IsVisible generationId r.matterId

/-- A newer subgoal of the target with the same key says that it is closed. -/
def Tables.ClosedSince (s : Tables) (generationId targetMatterId : Nat) (e : Subgoal) : Prop :=
  ∃ f ∈ s.subgoalsOf generationId targetMatterId, f.canonicalKey = e.canonicalKey ∧
    e.updatedAt < f.updatedAt ∧ f.status.isOpen = false

/-- What the merge of a source into a target should do: the target has the members of both,
and subgoals with the keys of both, and what is open in the source stays open unless it has
been closed since. -/
structure KeepsWork (g source target : Nat) (s s' : Tables) : Prop where
  members : ∀ x, x ∈ s'.messageIdsOf g target ↔
    x ∈ s.messageIdsOf g source ∨ x ∈ s.messageIdsOf g target
  subgoals : ∀ k, k ∈ s'.subgoalKeysOf g target ↔
    k ∈ s.subgoalKeysOf g source ∨ k ∈ s.subgoalKeysOf g target
  stillOpen : ∀ e ∈ s.subgoalsOf g source, e.status.isOpen = true →
    s'.StillOpen g target e ∨ s.ClosedSince g target e

/-- The target has a subgoal for each of the source, which is open, or newer, where that of
the source is open. -/
def Tables.Covers (s : Tables) (g source target : Nat) : Prop :=
  ∀ e ∈ s.subgoalsOf g source, ∃ f ∈ s.subgoalsOf g target, f.canonicalKey = e.canonicalKey ∧
    (e.status.isOpen = true → f.status.isOpen = true ∨ e.updatedAt < f.updatedAt)

/-- `UNIQUE (generation_id, matter_id, canonical_key)`. -/
def Tables.KeysUnique (s : Tables) : Prop :=
  ∀ r ∈ s.subgoals, ∀ r' ∈ s.subgoals, r.generationId = r'.generationId →
    r.matterId = r'.matterId → r.canonicalKey = r'.canonicalKey → r = r'

variable {t : Nat}

variable {s : Tables} {g : Nat}

@[simp]
theorem Tables.mem_subgoalsOf {r : Subgoal} :
    r ∈ s.subgoalsOf g t ↔ r ∈ s.subgoals ∧ r.generationId = g ∧ r.matterId = t := by
  simp [Tables.subgoalsOf]

@[simp]
theorem Tables.mem_subgoalKeysOf {k : Nat} : k ∈ s.subgoalKeysOf g t ↔
      ∃ r ∈ s.subgoals, (r.generationId = g ∧ r.matterId = t) ∧ r.canonicalKey = k := by
  simp [Tables.subgoalKeysOf, and_assoc]

/-! ## The loop over the subgoals of the source -/

/-- The target has the subgoal, open if it was, or it has been closed since. -/
def Carried (g target : Nat) (s : Tables) (subgoals : List Subgoal) (e : Subgoal) : Prop :=
  ∃ r ∈ subgoals, r.isIn g target = true ∧ r.canonicalKey = e.canonicalKey ∧
    (e.status.isOpen = true → r.status.isOpen = true ∨ s.ClosedSince g target e)

/-- What the loop keeps. `rest` are the subgoals of the source still to go through: they are
as they were, and so is a subgoal of the target that has the key of one of them. -/
structure WorkKept (g source target : Nat) (s : Tables) (rest subgoals : List Subgoal) :
    Prop where
  ids : (subgoals.map Subgoal.id).Nodup
  waiting : ∀ e ∈ rest, e ∈ subgoals
  old : ∀ r ∈ subgoals, r.isIn g target = true →
    (∃ e ∈ rest, e.canonicalKey = r.canonicalKey) → r ∈ s.subgoals
  known : ∀ r ∈ subgoals, r.isIn g target = true →
    r.canonicalKey ∈ s.subgoalKeysOf g source ∨ r.canonicalKey ∈ s.subgoalKeysOf g target
  kept : ∀ k ∈ s.subgoalKeysOf g target, ∃ r ∈ subgoals, r.isIn g target = true ∧ r.canonicalKey = k
  done : ∀ e ∈ s.subgoalsOf g source, e ∈ rest ∨ Carried g target s subgoals e

theorem subgoal_unique (hkeys : s.KeysUnique) {e e' : Subgoal} (he : e ∈ s.subgoalsOf g t)
    (he' : e' ∈ s.subgoalsOf g t) (hkey : e.canonicalKey = e'.canonicalKey) : e = e' := by
  obtain ⟨hmem, hg, ht⟩ := Tables.mem_subgoalsOf.1 he
  obtain ⟨hmem', hg', ht'⟩ := Tables.mem_subgoalsOf.1 he'
  exact hkeys e hmem e' hmem' (hg.trans hg'.symm) (ht.trans ht'.symm) hkey

section Round

variable {g source target now : Nat} {s : Tables} {rest subgoals : List Subgoal} {e : Subgoal}

theorem id_ne_of_target (hne : source ≠ target) (h : WorkKept g source target s (e :: rest) subgoals)
    (he : e ∈ s.subgoalsOf g source) {r : Subgoal} (hr : r ∈ subgoals)
    (hin : r.isIn g target = true) : r.id ≠ e.id := by
  intro hid
  have hsame : r = e := row_unique Subgoal.id h.ids hr (h.waiting e List.mem_cons_self) hid
  rw [hsame] at hin
  exact hne ((Tables.mem_subgoalsOf.1 he).2.2.symm.trans (Subgoal.isIn_iff.1 hin).2)

theorem id_ne_of_waiting (hnodup : (e :: rest).Nodup)
    (h : WorkKept g source target s (e :: rest) subgoals) {a : Subgoal} (ha : a ∈ rest) :
    a.id ≠ e.id := by
  intro hid
  have hsame : a = e := row_unique Subgoal.id h.ids (h.waiting a (List.mem_cons_of_mem e ha))
    (h.waiting e List.mem_cons_self) hid
  rw [hsame] at ha
  exact (List.nodup_cons.1 hnodup).1 ha

theorem workKept_move (hne : source ≠ target) (hkeys : s.KeysUnique)
    (hall : ∀ a ∈ e :: rest, a ∈ s.subgoalsOf g source) (hnodup : (e :: rest).Nodup)
    (h : WorkKept g source target s (e :: rest) subgoals) :
    WorkKept g source target s rest (updateWhere (fun r => r.id == e.id)
      (fun r => { r with matterId := target, updatedAt := now }) subgoals) := by
  have he := hall e List.mem_cons_self
  obtain ⟨hmem, hg, _⟩ := Tables.mem_subgoalsOf.1 he
  have hwaits := h.waiting e List.mem_cons_self
  -- The rows afterwards: the moved one, and the others as they were.
  have hrows : ∀ r' ∈ updateWhere (fun r : Subgoal => r.id == e.id)
      (fun r => { r with matterId := target, updatedAt := now }) subgoals,
      r' = { e with matterId := target, updatedAt := now } ∨ r' ∈ subgoals ∧ r'.id ≠ e.id := by
    intro r' hr'
    obtain ⟨r, hr, rfl⟩ := mem_updateWhere.1 hr'
    by_cases hid : (r.id == e.id) = true
    · left
      rw [if_pos hid, row_unique Subgoal.id h.ids hr hwaits (beq_iff_eq.1 hid)]
    · right
      rw [if_neg hid]
      exact ⟨hr, fun heq => hid (beq_iff_eq.2 heq)⟩
  have hother : ∀ r ∈ subgoals, r.id ≠ e.id → r ∈ updateWhere (fun r : Subgoal => r.id == e.id)
      (fun r => { r with matterId := target, updatedAt := now }) subgoals := by
    intro r hr hid
    refine mem_updateWhere.2 ⟨r, hr, ?_⟩
    rw [if_neg (by simpa using hid)]
  have hmoved : { e with matterId := target, updatedAt := now } ∈
      updateWhere (fun r : Subgoal => r.id == e.id)
        (fun r => { r with matterId := target, updatedAt := now }) subgoals := by
    refine mem_updateWhere.2 ⟨e, hwaits, ?_⟩
    rw [if_pos (beq_self_eq_true e.id)]
  constructor
  · rw [map_updateWhere]
    · exact h.ids
    · exact fun _ _ _ => rfl
  · intro a ha
    exact hother a (h.waiting a (List.mem_cons_of_mem e ha)) (id_ne_of_waiting hnodup h ha)
  · intro r' hr' hin ⟨a, ha, hkey⟩
    rcases hrows r' hr' with rfl | ⟨hr, _⟩
    · have hsame := subgoal_unique hkeys (hall a (List.mem_cons_of_mem e ha)) he hkey
      rw [hsame] at ha
      exact absurd ha (List.nodup_cons.1 hnodup).1
    · exact h.old r' hr hin ⟨a, List.mem_cons_of_mem e ha, hkey⟩
  · intro r' hr' hin
    rcases hrows r' hr' with rfl | ⟨hr, _⟩
    · have hsource : e.canonicalKey ∈ s.subgoalKeysOf g source := List.mem_map_of_mem he
      exact Or.inl hsource
    · exact h.known r' hr hin
  · intro k hk
    obtain ⟨r, hr, hin, hkey⟩ := h.kept k hk
    exact ⟨r, hother r hr (id_ne_of_target hne h he hr hin), hin, hkey⟩
  · intro a ha
    rcases h.done a ha with hwait | ⟨r, hr, hin, hrest⟩
    · rcases List.mem_cons.1 hwait with rfl | hwait
      · exact Or.inr ⟨_, hmoved, by simp [hg], rfl, fun hopen => Or.inl hopen⟩
      · exact Or.inl hwait
    · exact Or.inr ⟨r, hother r hr (id_ne_of_target hne h he hr hin), hin, hrest⟩

theorem workKept_fold (hne : source ≠ target) (hkeys : s.KeysUnique)
    (hall : ∀ a ∈ e :: rest, a ∈ s.subgoalsOf g source) (hnodup : (e :: rest).Nodup)
    (h : WorkKept g source target s (e :: rest) subgoals) {f : Subgoal} (hf : f ∈ subgoals)
    (hin : f.isIn g target = true) (hkey : f.canonicalKey = e.canonicalKey) :
    WorkKept g source target s rest ((updateWhere (fun r => r.id == f.id)
      (fun r => { r with
        status := if f.updatedAt ≤ e.updatedAt then e.status else f.status, updatedAt := now })
      subgoals).filter fun r => r.id != e.id) := by
  have he := hall e List.mem_cons_self
  have hfe := id_ne_of_target hne h he hf hin
  have hstart : f ∈ s.subgoalsOf g target := by
    have hold := h.old f hf hin ⟨e, List.mem_cons_self, hkey.symm⟩
    exact Tables.mem_subgoalsOf.2 ⟨hold, Subgoal.isIn_iff.1 hin⟩
  have hfolded : { f with
      status := if f.updatedAt ≤ e.updatedAt then e.status else f.status, updatedAt := now } ∈
      (updateWhere (fun r : Subgoal => r.id == f.id) (fun r => { r with
        status := if f.updatedAt ≤ e.updatedAt then e.status else f.status, updatedAt := now })
        subgoals).filter fun r => r.id != e.id := by
    refine List.mem_filter.2 ⟨mem_updateWhere.2 ⟨f, hf, ?_⟩, by simpa using hfe⟩
    rw [if_pos (beq_self_eq_true f.id)]
  have hother : ∀ r ∈ subgoals, r.id ≠ f.id → r.id ≠ e.id → r ∈
      (updateWhere (fun r : Subgoal => r.id == f.id) (fun r => { r with
        status := if f.updatedAt ≤ e.updatedAt then e.status else f.status, updatedAt := now })
        subgoals).filter fun r => r.id != e.id := by
    intro r hr hid hid'
    refine List.mem_filter.2 ⟨mem_updateWhere.2 ⟨r, hr, ?_⟩, by simpa using hid'⟩
    rw [if_neg (by simpa using hid)]
  -- The rows afterwards: the folded one, and others as they were.
  have hrows : ∀ r' ∈ (updateWhere (fun r : Subgoal => r.id == f.id) (fun r => { r with
        status := if f.updatedAt ≤ e.updatedAt then e.status else f.status, updatedAt := now })
        subgoals).filter fun r => r.id != e.id,
      r' = { f with
        status := if f.updatedAt ≤ e.updatedAt then e.status else f.status, updatedAt := now } ∨
        r' ∈ subgoals := by
    intro r' hr'
    obtain ⟨r, hr, rfl⟩ := mem_updateWhere.1 (List.mem_filter.1 hr').1
    by_cases hid : (r.id == f.id) = true
    · left
      rw [if_pos hid, row_unique Subgoal.id h.ids hr hf (beq_iff_eq.1 hid)]
    · right
      rw [if_neg hid]
      exact hr
  have hlast : ∀ a ∈ rest, a.canonicalKey ≠ e.canonicalKey := by
    intro a ha heq
    have hsame := subgoal_unique hkeys (hall a (List.mem_cons_of_mem e ha)) he heq
    rw [hsame] at ha
    exact (List.nodup_cons.1 hnodup).1 ha
  constructor
  · apply nodup_map_filter
    rw [map_updateWhere]
    · exact h.ids
    · exact fun _ _ _ => rfl
  · intro a ha
    apply hother a (h.waiting a (List.mem_cons_of_mem e ha)) _ (id_ne_of_waiting hnodup h ha)
    intro hid
    have hsame : a = f :=
      row_unique Subgoal.id h.ids (h.waiting a (List.mem_cons_of_mem e ha)) hf hid
    exact hlast a ha (by rw [hsame, hkey])
  · intro r' hr' hin' ⟨a, ha, hkey'⟩
    rcases hrows r' hr' with rfl | hr
    · exact absurd (hkey'.trans hkey) (hlast a ha)
    · exact h.old r' hr hin' ⟨a, List.mem_cons_of_mem e ha, hkey'⟩
  · intro r' hr' hin'
    rcases hrows r' hr' with rfl | hr
    · exact h.known f hf hin
    · exact h.known r' hr hin'
  · intro k hk
    obtain ⟨r, hr, hin', hkey'⟩ := h.kept k hk
    by_cases hid : r.id = f.id
    · have hsame : r = f := row_unique Subgoal.id h.ids hr hf hid
      exact ⟨_, hfolded, hin, hsame ▸ hkey'⟩
    · exact ⟨r, hother r hr hid (id_ne_of_target hne h he hr hin'), hin', hkey'⟩
  · intro a ha
    by_cases hae : a = e
    · right
      rw [hae]
      refine ⟨_, hfolded, hin, hkey, ?_⟩
      intro hopen
      by_cases hnewer : f.updatedAt ≤ e.updatedAt
      · simp [hnewer, hopen]
      · by_cases hfopen : f.status.isOpen = true
        · simp [hnewer, hfopen]
        · exact Or.inr ⟨f, hstart, hkey, Nat.lt_of_not_le hnewer, by simpa using hfopen⟩
    · rcases h.done a ha with hwait | ⟨r, hr, hin', hkey', hopen⟩
      · exact Or.inl ((List.mem_cons.1 hwait).resolve_left hae)
      · right
        refine ⟨r, hother r hr ?_ (id_ne_of_target hne h he hr hin'), hin', hkey', hopen⟩
        intro hid
        have hsame : r = f := row_unique Subgoal.id h.ids hr hf hid
        apply hae
        apply subgoal_unique hkeys ha he
        rw [← hkey', hsame, hkey]

end Round

variable {source target : Nat}

theorem workKept_round {now : Nat} {rest subgoals : List Subgoal} {e : Subgoal}
    (hne : source ≠ target) (hkeys : s.KeysUnique)
    (hall : ∀ a ∈ e :: rest, a ∈ s.subgoalsOf g source) (hnodup : (e :: rest).Nodup)
    (h : WorkKept g source target s (e :: rest) subgoals) :
    WorkKept g source target s rest (mergeSubgoal g target now subgoals e) := by
  unfold mergeSubgoal
  cases hfound : subgoals.find? fun r => r.isIn g target && r.canonicalKey == e.canonicalKey with
  | none => exact workKept_move hne hkeys hall hnodup h
  | some f =>
    have hf := List.find?_some hfound
    simp only [Bool.and_eq_true, beq_iff_eq] at hf
    exact workKept_fold hne hkeys hall hnodup h (List.mem_of_find?_eq_some hfound) hf.1 hf.2

theorem workKept_foldl {now : Nat} {rest subgoals : List Subgoal} (hne : source ≠ target)
    (hkeys : s.KeysUnique) (hall : ∀ a ∈ rest, a ∈ s.subgoalsOf g source) (hnodup : rest.Nodup)
    (h : WorkKept g source target s rest subgoals) :
    WorkKept g source target s [] (rest.foldl (mergeSubgoal g target now) subgoals) := by
  induction rest generalizing subgoals with
  | nil => exact h
  | cons e rest ih =>
    exact ih (fun a ha => hall a (List.mem_cons_of_mem e ha)) (List.nodup_cons.1 hnodup).2
      (workKept_round hne hkeys hall hnodup h)

theorem workKept_start (hsub : SubgoalsSound s) :
    WorkKept g source target s (s.subgoalsOf g source) s.subgoals where
  ids := hsub.ids
  waiting _ he := (Tables.mem_subgoalsOf.1 he).1
  old _ hr _ _ := hr
  known r hr hin := Or.inr (List.mem_map_of_mem (List.mem_filter.2 ⟨hr, hin⟩))
  kept k hk := by
    obtain ⟨r, hr, hin, hkey⟩ := Tables.mem_subgoalKeysOf.1 hk
    exact ⟨r, hr, Subgoal.isIn_iff.2 hin, hkey⟩
  done _ he := Or.inl he

variable {status : MatterStatus}

/-! ## The merge of reconciled matters -/

section

variable (h : s.mergeable g source target = true)
include h

theorem subgoals_mergeReconciled :
    (mergeReconciledMatters g source target status s).subgoals =
      (s.subgoalsOf g source).foldl (mergeSubgoal g target (s.now + 1)) s.subgoals := by
  rw [mergeReconciledMatters, if_pos h]
  rfl

theorem members_mergeReconciled :
    (mergeReconciledMatters g source target status s).members =
      updateWhere (fun m => m.isIn g source && !m.membershipLocked) (fun m => { m with matterId:= target }) s.members := by
  rw [mergeReconciledMatters, if_pos h]
  rfl

theorem isVisible_mergeReconciled :
    (mergeReconciledMatters g source target status s).IsVisible g target := by
  obtain ⟨hne, _, ⟨m, hm, hid, hg, hvisible⟩, _⟩ := mergeable_facts h
  rw [mergeReconciledMatters, if_pos h]
  apply exists_updateWhere
  · apply exists_updateWhere
    · exact ⟨m, hm, Matter.is_iff.2 ⟨hid, hg⟩, hvisible⟩
    · exact fun _ _ hkept => hkept
  · intro m' hsource htarget
    exact absurd ((Matter.is_iff.1 hsource).1.symm.trans (Matter.is_iff.1 htarget.1).1) hne

end

/-- **The merge of reconciled matters keeps the work.** -/
theorem keepsWork_mergeReconciled (hsub : SubgoalsSound s) (hkeys : s.KeysUnique)
    (h : s.mergeable g source target = true) :
    KeepsWork g source target s (mergeReconciledMatters g source target status s) := by
  obtain ⟨hne, _, _, hfree, _⟩ := mergeable_facts h
  have hnodup : (s.subgoalsOf g source).Nodup :=
    (List.Nodup.of_map Subgoal.id hsub.ids).filter _
  have hkept : WorkKept g source target s []
      (mergeReconciledMatters g source target status s).subgoals := by
    rw [subgoals_mergeReconciled h]
    exact workKept_foldl hne hkeys (fun _ ha => ha) hnodup (workKept_start hsub)
  constructor
  · intro x
    rw [Tables.mem_messageIdsOf, Tables.mem_messageIdsOf, Tables.mem_messageIdsOf,
      members_mergeReconciled h]
    constructor
    · rintro ⟨r, hr, hg, ht, hx⟩
      obtain ⟨r₀, h₀, rfl⟩ := mem_updateWhere.1 hr
      by_cases hin : r₀.isIn g source = true
      · obtain ⟨hg₀, ht₀⟩ := Member.isIn_iff.1 hin
        left
        refine ⟨r₀, h₀, hg₀, ht₀, ?_⟩
        simpa [hg₀, ht₀, hfree r₀ h₀ hg₀ ht₀] using hx
      · rw [Bool.not_eq_true] at hin
        simp only [hin, Bool.false_and, Bool.false_eq_true, if_false] at hg ht hx
        exact Or.inr ⟨r₀, h₀, hg, ht, hx⟩
    · rintro (⟨r, hr, hg, ht, hx⟩ | ⟨r, hr, hg, ht, hx⟩)
      · refine ⟨_, mem_updateWhere.2 ⟨r, hr, rfl⟩, ?_⟩
        simp [hg, ht, hx, hfree r hr hg ht]
      · refine ⟨r, mem_updateWhere.2 ⟨r, hr, ?_⟩, hg, ht, hx⟩
        have hin : r.isIn g source = false := by
          rw [← Bool.not_eq_true, Member.isIn_iff, ht]
          exact fun hsame => hne hsame.2.symm
        simp [hin]
  · intro k
    constructor
    · intro hk
      obtain ⟨r, hr, hin, rfl⟩ := Tables.mem_subgoalKeysOf.1 hk
      exact hkept.known r hr (Subgoal.isIn_iff.2 hin)
    · rintro (hk | hk)
      · obtain ⟨e, he, hin, rfl⟩ := Tables.mem_subgoalKeysOf.1 hk
        rcases hkept.done e (Tables.mem_subgoalsOf.2 ⟨he, hin⟩) with hwait | hcarried
        · exact absurd hwait List.not_mem_nil
        · obtain ⟨r, hr, hin', hkey, _⟩ := hcarried
          exact Tables.mem_subgoalKeysOf.2 ⟨r, hr, Subgoal.isIn_iff.1 hin', hkey⟩
      · obtain ⟨r, hr, hin, hkey⟩ := hkept.kept k hk
        exact Tables.mem_subgoalKeysOf.2 ⟨r, hr, Subgoal.isIn_iff.1 hin, hkey⟩
  · intro e he hopen
    rcases hkept.done e he with hwait | ⟨r, hr, hin, hkey, hstill⟩
    · exact absurd hwait List.not_mem_nil
    obtain ⟨hrg, hrt⟩ := Subgoal.isIn_iff.1 hin
    rcases hstill hopen with hropen | hclosed
    · left
      refine ⟨r, hr, hrg, hkey, hropen, Or.inr hrt, ?_⟩
      rw [hrt]
      exact isVisible_mergeReconciled h
    · exact Or.inr hclosed

/-! ## The user's merge -/

structure AsksToMerge (u : UserDecision) (source target : Nat) : Prop where
  decision : u.decision = .merge
  matter : u.matterId = source
  target : u.targetMatterId = some target

theorem bothVisible_facts (h : s.bothVisible g source target = true) :
    source ≠ target ∧ s.IsVisible g source ∧ s.IsVisible g target := by
  simp only [Tables.bothVisible, Bool.and_eq_true, bne_iff_ne, ne_eq, List.all_cons, List.all_nil,
    List.any_eq_true] at h
  obtain ⟨hne, hsource, htarget, _⟩ := h
  exact ⟨hne, hsource, htarget⟩

theorem acceptedRecord_merge {u : UserDecision} {d : Decision} (hs : Sound s)
    (hsource : s.IsVisible g source) (hu : AsksToMerge u source target)
    (h : u.acceptedRecord s = some d) :
    d.decision = .merge ∧ d.generationId = g ∧ d.matterId = source ∧
      d.targetMatterId = some target ∧ d.messageIds = s.messageIdsOf g source := by
  obtain ⟨m, hm, his, _⟩ := hsource
  obtain ⟨hid, hg⟩ := Matter.is_iff.1 his
  unfold UserDecision.acceptedRecord at h
  cases hfound : s.matters.find? fun m => m.id == u.matterId with
  | none => simp [hfound] at h
  | some m' =>
    have hid' : m'.id = u.matterId := by simpa using List.find?_some hfound
    have hsame : m' = m := by
      apply hs.matter_unique (List.mem_of_find?_eq_some hfound) hm
      rw [hid', hu.matter, hid]
    rw [hfound] at h
    by_cases ha : u.accepted m' s = true
    · simp only [if_pos ha, Option.some.injEq] at h
      rw [hsame, hg] at h
      subst h
      refine ⟨hu.decision, rfl, hu.matter, hu.target, ?_⟩
      simp [UserDecision.record, UserDecision.selectedIds, hu.decision, hu.matter]
    · simp [ha] at h

section UserMerge

variable {u : UserDecision} {d : Decision} {g source target : Nat} {s : Tables}

section

variable (hs : Sound s) (hsource : s.IsVisible g source) (hu : AsksToMerge u source target)
  (h : u.acceptedRecord s = some d)
include hs hsource hu h

/-- An accepted merge of the user moves the members of the source, and nothing else but
flags of the two matters. -/
theorem applyUserDecision_merge :
    applyUserDecision u s = raiseRevision
      { moveMembers g source target (s.messageIdsOf g source) s with
        decisions := s.decisions ++ [d], nextId := s.nextId + 1, now := s.now + 1 } := by
  obtain ⟨hkind, hg, hmatter, htarget, hselected⟩ := acceptedRecord_merge hs hsource hu h
  have hcarry : d.carryOut s = moveMembers g source target (s.messageIdsOf g source) s := by
    simp [Decision.carryOut, hkind, hg, hmatter, htarget, hselected]
  unfold applyUserDecision
  rw [h]
  dsimp only
  rw [hcarry]

theorem subgoals_userMerge :
    (applyUserDecision u s).subgoals = s.subgoals := by
  rw [applyUserDecision_merge hs hsource hu h]
  rfl

theorem members_userMerge (hne : source ≠ target)
    (x : Nat) :
    x ∈ (applyUserDecision u s).messageIdsOf g target ↔
      x ∈ s.messageIdsOf g source ∨ x ∈ s.messageIdsOf g target := by
  have hmembers : (applyUserDecision u s).members =
      updateWhere (Member.isSelected g source (s.messageIdsOf g source))
        (fun m => { m with
          matterId := target, membershipSource := .user, provisional := false,
          userConfirmed := true, membershipLocked := true })
        s.members := by
    rw [applyUserDecision_merge hs hsource hu h]
    rfl
  have hselected : ∀ r ∈ s.members, r.generationId = g → r.matterId = source →
      r.isSelected g source (s.messageIdsOf g source) = true := by
    intro r hr hg ht
    exact Member.isSelected_iff.2 ⟨hg, ht, Tables.mem_messageIdsOf.2 ⟨r, hr, hg, ht, rfl⟩⟩
  rw [Tables.mem_messageIdsOf, Tables.mem_messageIdsOf, Tables.mem_messageIdsOf, hmembers]
  constructor
  · rintro ⟨r, hr, hg, ht, hx⟩
    obtain ⟨r₀, h₀, rfl⟩ := mem_updateWhere.1 hr
    by_cases hin : r₀.isSelected g source (s.messageIdsOf g source) = true
    · obtain ⟨hg₀, ht₀, _⟩ := Member.isSelected_iff.1 hin
      rw [if_pos hin] at hx
      exact Or.inl ⟨r₀, h₀, hg₀, ht₀, hx⟩
    · rw [if_neg hin] at hg ht hx
      exact Or.inr ⟨r₀, h₀, hg, ht, hx⟩
  · rintro (⟨r, hr, hg, ht, hx⟩ | ⟨r, hr, hg, ht, hx⟩)
    · refine ⟨_, mem_updateWhere.2 ⟨r, hr, rfl⟩, ?_⟩
      rw [if_pos (hselected r hr hg ht)]
      exact ⟨hg, rfl, hx⟩
    · refine ⟨r, mem_updateWhere.2 ⟨r, hr, ?_⟩, hg, ht, hx⟩
      have hother : ¬ r.isSelected g source (s.messageIdsOf g source) = true := by
        intro hin
        exact hne ((Member.isSelected_iff.1 hin).2.1.symm.trans ht)
      rw [if_neg hother]

end

theorem isVisible_userMerge (hs : Sound s) (hsource : s.IsVisible g source)
    (htarget : s.IsVisible g target) (hu : AsksToMerge u source target)
    (h : u.acceptedRecord s = some d) (hne : source ≠ target) :
    (applyUserDecision u s).IsVisible g target ∧ ¬ (applyUserDecision u s).IsVisible g source := by
  rw [applyUserDecision_merge hs hsource hu h]
  constructor
  · apply exists_updateWhere
    · apply exists_updateWhere htarget
      exact fun _ _ hkept => hkept
    · intro m hid hkept
      rw [beq_iff_eq] at hid
      exact absurd (hid.symm.trans (Matter.is_iff.1 hkept.1).1) hne
  · rintro ⟨m', hm', his, hvisible⟩
    obtain ⟨m, _, rfl⟩ := mem_updateWhere.1 hm'
    by_cases hid : (m.id == source) = true
    · rw [if_pos hid] at hvisible
      -- A member of the source would have been one of the messages that moved.
      obtain ⟨r', hr', hin⟩ := List.any_eq_true.1 hvisible
      rw [beq_iff_eq] at hin
      obtain ⟨r, hr, rfl⟩ := mem_updateWhere.1 hr'
      by_cases hsel : r.isSelected g source (s.messageIdsOf g source) = true
      · rw [if_pos hsel] at hin
        exact hne hin.symm
      rw [if_neg hsel] at hin
      obtain ⟨m₁, hm₁, hid₁, hg₁⟩ := mem_matterKeys.1 (hs.housed r hr)
      obtain ⟨m₂, hm₂, his₂, _⟩ := hsource
      obtain ⟨hid₂, hg₂⟩ := Matter.is_iff.1 his₂
      have hsame := hs.matter_unique hm₁ hm₂ (hid₁.trans (hin.trans hid₂.symm))
      have hg : r.generationId = g := by rw [← hg₁, hsame, hg₂]
      exact hsel (Member.isSelected_iff.2
        ⟨hg, hin, Tables.mem_messageIdsOf.2 ⟨r, hr, hg, hin, rfl⟩⟩)
    · rw [if_neg hid] at his
      exact hid (beq_iff_eq.2 (Matter.is_iff.1 his).1)

/-- **The user's merge keeps the work** exactly where the target covers the source. -/
theorem keepsWork_userMerge_iff (hs : Sound s) (hsub : SubgoalsSound s)
    (hsource : s.IsVisible g source) (htarget : s.IsVisible g target)
    (hu : AsksToMerge u source target) (h : u.acceptedRecord s = some d) (hne : source ≠ target) :
    KeepsWork g source target s (applyUserDecision u s) ↔ s.Covers g source target := by
  have hsubgoals := subgoals_userMerge hs hsource hu h
  obtain ⟨hvisible, hhidden⟩ := isVisible_userMerge hs hsource htarget hu h hne
  constructor
  · intro hkeeps e he
    obtain ⟨hmem, hg, ht⟩ := Tables.mem_subgoalsOf.1 he
    have hkey : e.canonicalKey ∈ (applyUserDecision u s).subgoalKeysOf g target := by
      rw [hkeeps.subgoals]
      exact Or.inl (List.mem_map_of_mem he)
    by_cases hopen : e.status.isOpen = true
    · rcases hkeeps.stillOpen e he hopen with hstill | ⟨f, hf, hkey', hnewer, _⟩
      · obtain ⟨r, hr, hrg, hrkey, hropen, hwhich, hshown⟩ := hstill
        rw [hsubgoals] at hr
        rcases hwhich with hid | hrt
        · -- The row itself is left in the source, which is hidden.
          have hsame : r = e := row_unique Subgoal.id hsub.ids hr hmem hid
          rw [hsame, ht] at hshown
          exact absurd hshown hhidden
        · exact ⟨r, Tables.mem_subgoalsOf.2 ⟨hr, hrg, hrt⟩, hrkey, fun _ => Or.inl hropen⟩
      · exact ⟨f, hf, hkey', fun _ => Or.inr hnewer⟩
    · obtain ⟨f, hf, hin, hfkey⟩ := Tables.mem_subgoalKeysOf.1 hkey
      rw [hsubgoals] at hf
      exact ⟨f, Tables.mem_subgoalsOf.2 ⟨hf, hin⟩, hfkey, fun ho => absurd ho hopen⟩
  · intro hcovers
    constructor
    · exact members_userMerge hs hsource hu h hne
    · intro k
      rw [Tables.subgoalKeysOf, Tables.subgoalsOf, hsubgoals]
      constructor
      · exact fun hk => Or.inr hk
      rintro (hk | hk)
      · obtain ⟨e, he, hin, rfl⟩ := Tables.mem_subgoalKeysOf.1 hk
        obtain ⟨f, hf, hkey, _⟩ := hcovers e (Tables.mem_subgoalsOf.2 ⟨he, hin⟩)
        rw [← hkey]
        exact List.mem_map_of_mem hf
      · exact hk
    · intro e he hopen
      obtain ⟨f, hf, hkey, hcase⟩ := hcovers e he
      obtain ⟨hmem, hg, ht⟩ := Tables.mem_subgoalsOf.1 hf
      by_cases hfopen : f.status.isOpen = true
      · left
        refine ⟨f, hsubgoals ▸ hmem, hg, hkey, hfopen, Or.inr ht, ?_⟩
        rw [ht]
        exact hvisible
      · right
        exact ⟨f, hf, hkey, (hcase hopen).resolve_left hfopen, by simpa using hfopen⟩

end UserMerge

/-! ## Both merges -/

/-- **What the merges do with the work of the source**: the merge of reconciled matters
keeps it, and the user's merge keeps it exactly where the target covers it. -/
theorem merges_keep_work_iff {g source target : Nat} {s : Tables} (hs : Sound s)
    (hsub : SubgoalsSound s) (hkeys : s.KeysUnique)
    (hvisible : s.bothVisible g source target = true) :
    (∀ u d, AsksToMerge u source target → u.acceptedRecord s = some d →
      (KeepsWork g source target s (applyUserDecision u s) ↔ s.Covers g source target)) ∧
    ∀ status, s.mergeable g source target = true →
      KeepsWork g source target s (mergeReconciledMatters g source target status s) := by
  obtain ⟨hne, hsource, htarget⟩ := bothVisible_facts hvisible
  constructor
  · intro u d hu h
    exact keepsWork_userMerge_iff hs hsub hsource htarget hu h hne
  · intro status h
    exact keepsWork_mergeReconciled hsub hkeys h

/-- Two matters of a message each, and the open subgoal of the second. -/
def twoMatters : Tables :=
  { Tables.fresh [⟨1, 10⟩, ⟨2, 20⟩] with
    profile := some ⟨true, true, .focused, .live, some 0, 1⟩
    generations := [⟨0, .active, .focused, none, false⟩]
    matters := [⟨3, 0, .needsYou, .automatic, some 10, true, 1⟩,
      ⟨4, 0, .needsYou, .automatic, some 20, true, 1⟩]
    members := [⟨0, 3, 1, .model, false, false, false⟩, ⟨0, 4, 2, .model, false, false, false⟩]
    subgoals := [⟨5, 0, 4, 77, .needsYou, 1⟩]
    nextId := 6
    now := 1 }

def mergeSecond : UserDecision := ⟨"decision-1", .merge, 4, some 3, [], 1⟩

theorem sound_twoMatters : Sound twoMatters where
  unique := by decide
  below := by decide
  matterIds := by decide
  matterBelow := by decide
  housed := by decide

theorem subgoalsSound_twoMatters : SubgoalsSound twoMatters where
  ids := by decide
  below := by decide
  housed := by decide

theorem keysUnique_twoMatters : twoMatters.KeysUnique := by
  unfold Tables.KeysUnique
  decide

/-- The open subgoal stays behind in the matter that the merge hides. -/
theorem open_subgoal_hidden :
    Sound twoMatters ∧ SubgoalsSound twoMatters ∧ twoMatters.KeysUnique ∧
      twoMatters.bothVisible 0 4 3 = true ∧ AsksToMerge mergeSecond 4 3 ∧
      (mergeSecond.acceptedRecord twoMatters).isSome = true ∧
      ¬ KeepsWork 0 4 3 twoMatters (applyUserDecision mergeSecond twoMatters) := by
  refine ⟨sound_twoMatters, subgoalsSound_twoMatters, keysUnique_twoMatters, by decide,
    ⟨rfl, rfl, rfl⟩, by decide, ?_⟩
  intro h
  have hkey := (h.subgoals 77).2 (Or.inl (by decide))
  revert hkey
  decide

/-- The merge of reconciled matters takes the subgoal along. -/
theorem open_subgoal_moved :
    KeepsWork 0 4 3 twoMatters (mergeReconciledMatters 0 4 3 .needsYou twoMatters) ∧
      (KeepsWork 0 4 3 twoMatters (applyUserDecision mergeSecond twoMatters) ↔
        twoMatters.Covers 0 4 3) := by
  have hvisible : twoMatters.bothVisible 0 4 3 = true := by decide
  have hrecord : mergeSecond.acceptedRecord twoMatters =
      some ⟨6, 0, .merge, 4, some 3, [2], [], "decision-1"⟩ := by decide
  obtain ⟨huser, hreconciled⟩ := merges_keep_work_iff sound_twoMatters subgoalsSound_twoMatters
    keysUnique_twoMatters hvisible
  exact ⟨hreconciled .needsYou (by decide), huser mergeSecond _ ⟨rfl, rfl, rfl⟩ hrecord⟩

end ElectronicMail.Matters
