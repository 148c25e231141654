import ElectronicMail.Matters.SubgoalGoals

/-!
# Every goal of an answer has its row

`KeepsGoals` says of one assignment that every accepted entry ends up in a row of its own,
that rows which no entry addresses stay as they are, and that every row has the key of its
goal. Renaming a subgoal breaks this: the row gets the new goal under the key of the old
one, and a later entry with the old goal, of the same answer or of another one, is then
written over it.

`subgoals_kept_iff` says for exactly which runs nothing of the kind happens.
-/

namespace ElectronicMail.Matters

open Foundations
open Foundations.Table
open Foundations.Text (truncate)

def GoalRow.Holds (b : GoalBatch) (e : SubgoalEntry) (r : GoalRow) : Prop :=
  r.isIn b.generationId b.matterId = true ∧ r.goal = e.goalText ∧ r.status = e.status ∧
    r.latestDevelopment = e.development

/-- What an assignment should do to the subgoals. `own` gives every accepted entry its row,
which is the one that the entry names if there is one. -/
structure KeepsGoals (lib : TextDigest) (s : Goals) (b : GoalBatch) : Prop where
  represented : ∃ own : SubgoalEntry → Nat,
    (∀ e ∈ b.accepted lib, ∃ r ∈ (s.assign lib b).rows, r.id = own e ∧ r.Holds b e) ∧
    (∀ e ∈ b.accepted lib, ∀ e' ∈ b.accepted lib, own e = own e' → e = e') ∧
    ∀ e ∈ b.accepted lib, ∀ g ∈ s.stored b, some g.id = e.existingSubgoalId → own e = g.id
  unchanged : ∀ g ∈ s.rows, (∀ e ∈ b.accepted lib, e.existing lib (s.stored b) ≠ some g) →
    g ∈ (s.assign lib b).rows
  keyed : ∀ r ∈ (s.assign lib b).rows, r.canonicalKey = canonicalSubgoalKey lib r.goal

/-- The texts of the entries are not cut off, and no entry gives the subgoal that it names a
goal with another key. -/
def KeepsKeys (lib : TextDigest) (s : Goals) (b : GoalBatch) : Prop :=
  ∀ e ∈ b.accepted lib, e.goalText.toList.length ≤ 600 ∧ e.development.toList.length ≤ 1000 ∧
    ∀ g ∈ s.stored b, some g.id = e.existingSubgoalId → g.canonicalKey = e.key lib

/-! ## What an assignment does in any case -/

/-- What the loop keeps whatever it is given: the rows of the table are there under their
ids and keys, those that no entry has addressed as they were, and no text is too long. -/
structure LoopShape (lib : TextDigest) (s : Goals) (b : GoalBatch) (done : List SubgoalEntry)
    (loop : GoalLoop) : Prop where
  ids : (loop.rows.map GoalRow.id).Nodup
  below : ∀ r ∈ loop.rows, r.id < loop.nextId
  start : s.nextId ≤ loop.nextId
  there : ∀ g ∈ s.rows, ∃ r ∈ loop.rows, r.id = g.id ∧ r.canonicalKey = g.canonicalKey ∧
    r.isIn b.generationId b.matterId = g.isIn b.generationId b.matterId
  untouched : ∀ g ∈ s.rows, (∀ e ∈ done, e.existing lib (s.stored b) ≠ some g) → g ∈ loop.rows
  fits : ∀ r ∈ loop.rows, r.goal.toList.length ≤ 600 ∧ r.latestDevelopment.toList.length ≤ 1000

structure GoalsSound (s : Goals) : Prop where
  ids : (s.rows.map GoalRow.id).Nodup
  below : ∀ r ∈ s.rows, r.id < s.nextId
  fits : ∀ r ∈ s.rows, r.goal.toList.length ≤ 600 ∧ r.latestDevelopment.toList.length ≤ 1000

variable {s : Goals} {b : GoalBatch}

@[simp]
theorem Goals.mem_stored {r : GoalRow} :
    r ∈ s.stored b ↔ r ∈ s.rows ∧ r.isIn b.generationId b.matterId = true :=
  List.mem_filter

variable {lib : TextDigest} {e : SubgoalEntry}

variable {stored : List GoalRow}

theorem existing_eq_some {g : GoalRow} (h : e.existing lib stored = some g) :
    g ∈ stored ∧ (some g.id = e.existingSubgoalId ∨ g.canonicalKey = e.key lib) := by
  rcases Option.or_eq_some_iff.1 h with hid | ⟨_, hkey⟩
  · have hfound := List.find?_some hid
    exact ⟨List.mem_of_find?_eq_some hid, Or.inl (beq_iff_eq.1 hfound)⟩
  · have hfound := List.find?_some hkey
    exact ⟨List.mem_reverse.1 (List.mem_of_find?_eq_some hkey), Or.inr (beq_iff_eq.1 hfound)⟩

theorem existing_of_named {g : GoalRow} (hg : g ∈ stored) (hid : some g.id = e.existingSubgoalId) :
    ∃ g', e.existing lib stored = some g' ∧ g'.id = g.id := by
  unfold SubgoalEntry.existing
  cases hfound : stored.find? fun r => some r.id == e.existingSubgoalId with
  | none =>
    have hnone := List.find?_eq_none.1 hfound g hg
    exact absurd (beq_iff_eq.2 hid) hnone
  | some g' =>
    have hid' := List.find?_some hfound
    rw [beq_iff_eq, ← hid] at hid'
    exact ⟨g', rfl, Option.some.inj hid'⟩

theorem loopShape_start (h : GoalsSound s) : LoopShape lib s b [] ⟨s.rows, [], s.nextId⟩ :=
  ⟨h.ids, h.below, Nat.le_refl _, fun g hg => ⟨g, hg, rfl, rfl, rfl⟩, fun _ hg _ => hg, h.fits⟩

variable {now : Nat} {done : List SubgoalEntry} {loop : GoalLoop}

theorem loopShape_upsert (hs : GoalsSound s) (h : LoopShape lib s b done loop) (e : SubgoalEntry) :
    LoopShape lib s b (done ++ [e]) (loop.upsert lib b now (s.stored b) e) := by
  have hcut : (truncate 600 e.goalText).toList.length ≤ 600 ∧
      (truncate 1000 e.development).toList.length ≤ 1000 :=
    ⟨Text.truncate_length_le 600 _, Text.truncate_length_le 1000 _⟩
  unfold GoalLoop.upsert
  cases hfound : e.existing lib (s.stored b) with
  | some g =>
    dsimp only
    have hg := (Goals.mem_stored.1 (existing_eq_some hfound).1).1
    constructor
    · rw [map_updateWhere fun r _ _ => GoalRow.update_id b now e r]
      exact h.ids
    · apply forall_updateWhere h.below
      intro r _ _ hr
      rw [GoalRow.update_id]
      exact hr
    · exact h.start
    · intro g' hg'
      obtain ⟨r, hr, hid, hkey, hin⟩ := h.there g' hg'
      refine ⟨_, mem_updateWhere.2 ⟨r, hr, rfl⟩, ?_⟩
      by_cases hsel : (r.id == g.id) = true
      · rw [if_pos hsel, GoalRow.update_id, GoalRow.update_canonicalKey, GoalRow.update_isIn]
        exact ⟨hid, hkey, hin⟩
      · rw [if_neg hsel]
        exact ⟨hid, hkey, hin⟩
    · intro g' hg' hnone
      have hr := h.untouched g' hg' fun a ha => hnone a (List.mem_append_left _ ha)
      refine mem_updateWhere.2 ⟨g', hr, ?_⟩
      have hother : ¬ (g'.id == g.id) = true := by
        intro hid
        have hsame := row_unique GoalRow.id hs.ids hg' hg (beq_iff_eq.1 hid)
        apply hnone e (List.mem_append_right _ List.mem_cons_self)
        rw [hfound, hsame]
      rw [if_neg hother]
    · apply forall_updateWhere h.fits
      intro r _ _ _
      rw [GoalRow.update_goal, GoalRow.update_latestDevelopment]
      exact hcut
  | none =>
    dsimp only
    constructor
    · rw [List.map_append, List.nodup_append]
      refine ⟨h.ids, List.nodup_singleton _, ?_⟩
      intro x hx y hy
      obtain ⟨r, hr, rfl⟩ := List.mem_map.1 hx
      rw [List.mem_singleton.1 hy]
      exact Nat.ne_of_lt (h.below r hr)
    · intro r hr
      rcases List.mem_append.1 hr with hr | hr
      · exact Nat.lt_succ_of_lt (h.below r hr)
      · rw [List.mem_singleton.1 hr]
        exact Nat.lt_succ_self _
    · exact Nat.le_succ_of_le h.start
    · intro g' hg'
      obtain ⟨r, hr, hrest⟩ := h.there g' hg'
      exact ⟨r, List.mem_append_left _ hr, hrest⟩
    · intro g' hg' hnone
      exact List.mem_append_left _
        (h.untouched g' hg' fun a ha => hnone a (List.mem_append_left _ ha))
    · intro r hr
      rcases List.mem_append.1 hr with hr | hr
      · exact h.fits r hr
      · rw [List.mem_singleton.1 hr]
        exact hcut

theorem loopShape_foldl (hs : GoalsSound s) (entries : List SubgoalEntry)
    (h : LoopShape lib s b done loop) :
    LoopShape lib s b (done ++ entries)
      (entries.foldl (GoalLoop.upsert lib b now (s.stored b)) loop) := by
  induction entries generalizing done loop with
  | nil =>
    rw [List.append_nil]
    exact h
  | cons e rest ih =>
    have hupsert : LoopShape lib s b (done ++ [e]) (loop.upsert lib b now (s.stored b) e) :=
      loopShape_upsert hs h e
    have hrest := ih hupsert
    rw [List.append_assoc] at hrest
    exact hrest

def Goals.loopOf (lib : TextDigest) (s : Goals) (b : GoalBatch) : GoalLoop :=
  (b.accepted lib).foldl (GoalLoop.upsert lib b (s.now + 1) (s.stored b)) ⟨s.rows, [], s.nextId⟩

theorem assign_eq (lib : TextDigest) (s : Goals) (b : GoalBatch) :
    s.assign lib b = ⟨(s.loopOf lib b).rows, (s.loopOf lib b).nextId, s.now + 1⟩ := by
  rw [Goals.assign, foldl_round]
  rfl

theorem loopShape_loopOf (b : GoalBatch) (hs : GoalsSound s) :
    LoopShape lib s b (b.accepted lib) (s.loopOf lib b) :=
  loopShape_foldl hs (b.accepted lib) (loopShape_start hs)

theorem goalsSound_assign (b : GoalBatch) (hs : GoalsSound s) : GoalsSound (s.assign lib b) := by
  have h : LoopShape lib s b (b.accepted lib) (s.loopOf lib b) := loopShape_loopOf b hs
  rw [assign_eq]
  exact ⟨h.ids, h.below, h.fits⟩

/-! ## What it does where the keys are kept -/

def Keyed (lib : TextDigest) (rows : List GoalRow) : Prop :=
  ∀ r ∈ rows, r.canonicalKey = canonicalSubgoalKey lib r.goal

/-- Every entry that the loop has gone through has a row under its key, which is the row
that it names if there is one. -/
def EntriesWritten (lib : TextDigest) (s : Goals) (b : GoalBatch) (done : List SubgoalEntry)
    (rows : List GoalRow) : Prop :=
  ∀ e ∈ done, ∃ r ∈ rows, r.canonicalKey = e.key lib ∧ r.Holds b e ∧
    ∀ g ∈ s.stored b, some g.id = e.existingSubgoalId → r.id = g.id

theorem written_upsert (h : LoopShape lib s b done loop)
    (hkeyed : Keyed lib loop.rows) (hwritten : EntriesWritten lib s b done loop.rows)
    (hnew : ∀ a ∈ done, a.key lib ≠ e.key lib)
    (hgoal : e.goalText.toList.length ≤ 600) (hdev : e.development.toList.length ≤ 1000)
    (hnamed : ∀ g ∈ s.stored b, some g.id = e.existingSubgoalId → g.canonicalKey = e.key lib) :
    Keyed lib (loop.upsert lib b now (s.stored b) e).rows ∧
      EntriesWritten lib s b (done ++ [e]) (loop.upsert lib b now (s.stored b) e).rows := by
  have hcut := Text.truncate_eq_self hgoal
  have hcut' := Text.truncate_eq_self hdev
  unfold GoalLoop.upsert
  cases hfound : e.existing lib (s.stored b) with
  | some g =>
    dsimp only
    obtain ⟨hstored, hwhich⟩ := existing_eq_some hfound
    have hkey : g.canonicalKey = e.key lib := hwhich.elim (hnamed g hstored) id
    obtain ⟨hg, hin⟩ := Goals.mem_stored.1 hstored
    obtain ⟨r₀, h₀, hid₀, hkey₀, hin₀⟩ := h.there g hg
    have hrow : ∀ r ∈ loop.rows, (r.id == g.id) = true → r = r₀ := by
      intro r hr hid
      exact row_unique GoalRow.id h.ids hr h₀ ((beq_iff_eq.1 hid).trans hid₀.symm)
    constructor
    · apply forall_updateWhere hkeyed
      intro r hr hid _
      rw [GoalRow.update_canonicalKey, GoalRow.update_goal, hrow r hr hid, hkey₀, hkey, hcut]
      rfl
    · intro a ha
      rcases List.mem_append.1 ha with ha | ha
      · obtain ⟨r, hr, hkeyr, hrest⟩ := hwritten a ha
        refine ⟨r, mem_updateWhere.2 ⟨r, hr, ?_⟩, hkeyr, hrest⟩
        have hother : ¬ (r.id == g.id) = true := by
          intro hid
          apply hnew a ha
          rw [← hkeyr, hrow r hr hid, hkey₀, hkey]
        rw [if_neg hother]
      · rw [List.mem_singleton.1 ha]
        refine ⟨r₀.update b now e, mem_updateWhere.2 ⟨r₀, h₀, ?_⟩, ?_, ⟨?_, hcut, rfl, hcut'⟩, ?_⟩
        · rw [if_pos (beq_iff_eq.2 hid₀)]
        · rw [GoalRow.update_canonicalKey, hkey₀, hkey]
        · rw [GoalRow.update_isIn, hin₀, hin]
        · intro g' hg' hid
          obtain ⟨g'', hfound', hid'⟩ := existing_of_named hg' hid
          rw [hfound] at hfound'
          rw [GoalRow.update_id, hid₀, Option.some.inj hfound', hid']
  | none =>
    dsimp only
    constructor
    · intro r hr
      rcases List.mem_append.1 hr with hr | hr
      · exact hkeyed r hr
      · rw [List.mem_singleton.1 hr]
        exact congrArg (canonicalSubgoalKey lib) hcut.symm
    · intro a ha
      rcases List.mem_append.1 ha with ha | ha
      · obtain ⟨r, hr, hrest⟩ := hwritten a ha
        exact ⟨r, List.mem_append_left _ hr, hrest⟩
      rw [List.mem_singleton.1 ha]
      refine ⟨_, List.mem_append_right _ List.mem_cons_self, rfl,
        ⟨by simp [GoalRow.insert, GoalRow.isIn], hcut, rfl, hcut'⟩, ?_⟩
      intro g' hg' hid
      obtain ⟨g'', hfound', -⟩ := existing_of_named hg' hid
      rw [hfound] at hfound'
      cases hfound'

theorem written_foldl (hs : GoalsSound s) (entries : List SubgoalEntry)
    (h : LoopShape lib s b done loop) (hkeyed : Keyed lib loop.rows)
    (hwritten : EntriesWritten lib s b done loop.rows)
    (hkeys : ((done ++ entries).map (SubgoalEntry.key lib)).Nodup)
    (hgood : ∀ e ∈ entries, e.goalText.toList.length ≤ 600 ∧
      e.development.toList.length ≤ 1000 ∧
      ∀ g ∈ s.stored b, some g.id = e.existingSubgoalId → g.canonicalKey = e.key lib) :
    Keyed lib (entries.foldl (GoalLoop.upsert lib b now (s.stored b)) loop).rows ∧
      EntriesWritten lib s b (done ++ entries)
        (entries.foldl (GoalLoop.upsert lib b now (s.stored b)) loop).rows := by
  induction entries generalizing done loop with
  | nil =>
    rw [List.append_nil]
    exact ⟨hkeyed, hwritten⟩
  | cons e rest ih =>
    have hshape : LoopShape lib s b (done ++ [e]) (loop.upsert lib b now (s.stored b) e) :=
      loopShape_upsert hs h e
    obtain ⟨hgoal, hdev, hnamed⟩ := hgood e List.mem_cons_self
    have hnew : ∀ a ∈ done, a.key lib ≠ e.key lib := by
      intro a ha
      rw [List.map_append, List.nodup_append] at hkeys
      exact hkeys.2.2 _ (List.mem_map_of_mem ha) _ (List.mem_map_of_mem List.mem_cons_self)
    obtain ⟨hkeyed', hwritten'⟩ : Keyed lib (loop.upsert lib b now (s.stored b) e).rows ∧
        EntriesWritten lib s b (done ++ [e]) (loop.upsert lib b now (s.stored b) e).rows :=
      written_upsert h hkeyed hwritten hnew hgoal hdev hnamed
    have happend : done ++ e :: rest = done ++ [e] ++ rest := by simp
    rw [happend] at hkeys ⊢
    exact ih hshape hkeyed' hwritten' hkeys fun a ha => hgood a (List.mem_cons_of_mem e ha)

/-- **An assignment that keeps the keys keeps the goals.** -/
theorem keepsGoals_of_keepsKeys
    (hs : GoalsSound s) (hkeyed : Keyed lib s.rows) (hgood : KeepsKeys lib s b) :
    KeepsGoals lib s b := by
  have hshape : LoopShape lib s b (b.accepted lib) (s.loopOf lib b) := loopShape_loopOf b hs
  obtain ⟨hkeyed', hwritten⟩ : Keyed lib (s.loopOf lib b).rows ∧
      EntriesWritten lib s b (b.accepted lib) (s.loopOf lib b).rows := by
    exact written_foldl hs (b.accepted lib) (loopShape_start hs) hkeyed
      (fun _ he => absurd he List.not_mem_nil) (acceptedFrom_keys (b.subgoals.take 12) []).2 hgood
  have hrows : (s.assign lib b).rows = (s.loopOf lib b).rows := by rw [assign_eq]
  constructor
  · rw [hrows]
    have hids : ∀ e ∈ b.accepted lib, ∃ id : Nat, (∃ r ∈ (s.loopOf lib b).rows, r.id = id ∧
        r.canonicalKey = e.key lib ∧ r.Holds b e) ∧
        ∀ g ∈ s.stored b, some g.id = e.existingSubgoalId → id = g.id := by
      intro e he
      obtain ⟨r, hr, hkey, hholds, hnamed⟩ := hwritten e he
      exact ⟨r.id, ⟨r, hr, rfl, hkey, hholds⟩, hnamed⟩
    choose! own hown hnamed using hids
    refine ⟨own, ?_, ?_, hnamed⟩
    · intro e he
      obtain ⟨r, hr, hid, -, hholds⟩ := hown e he
      exact ⟨r, hr, hid, hholds⟩
    · intro e he e' he' hsame
      obtain ⟨r, hr, hid, hkey, -⟩ := hown e he
      obtain ⟨r', hr', hid', hkey', -⟩ := hown e' he'
      have hrow := row_unique GoalRow.id hshape.ids hr hr' (by rw [hid, hid', hsame])
      exact accepted_unique he he' (by rw [← hkey, ← hkey', hrow])
  · rw [hrows]
    exact hshape.untouched
  · rw [hrows]
    exact hkeyed'

theorem keepsKeys_of_keepsGoals (hs : GoalsSound s) (h : KeepsGoals lib s b) : KeepsKeys lib s b := by
  have hshape : LoopShape lib s b (b.accepted lib) (s.loopOf lib b) := loopShape_loopOf b hs
  have hrows : (s.assign lib b).rows = (s.loopOf lib b).rows := by rw [assign_eq]
  obtain ⟨own, hown, -, hnamed⟩ := h.represented
  have hkeyed := h.keyed
  rw [hrows] at hown hkeyed
  intro e he
  obtain ⟨r, hr, hid, -, hgoal, -, hdev⟩ := hown e he
  obtain ⟨hfits, hfits'⟩ := hshape.fits r hr
  refine ⟨hgoal ▸ hfits, hdev ▸ hfits', ?_⟩
  intro g hg hnames
  -- The row that the entry names still has the key that it had.
  obtain ⟨r', hr', hid', hkey', -⟩ := hshape.there g (Goals.mem_stored.1 hg).1
  have hsame : r' = r := row_unique GoalRow.id hshape.ids hr' hr
    (hid'.trans ((hnamed e he g hg hnames).symm.trans hid.symm))
  rw [← hkey', hsame, hkeyed r hr, hgoal]
  rfl

/-! ## Runs -/

/-- **Every goal of every answer has its row**, in exactly those runs of assignments in
which no text is cut off and no entry renames the subgoal that it names. -/
theorem subgoals_kept_iff (lib : TextDigest) (batches : List GoalBatch) :
    Along (Goals.assign lib) (KeepsGoals lib) Goals.empty batches ↔
      Along (Goals.assign lib) (KeepsKeys lib) Goals.empty batches := by
  have hstart : GoalsSound Goals.empty ∧ Keyed lib Goals.empty.rows :=
    ⟨⟨List.nodup_nil, fun _ hr => absurd hr List.not_mem_nil,
      fun _ hr => absurd hr List.not_mem_nil⟩, fun _ hr => absurd hr List.not_mem_nil⟩
  constructor
  · apply along_of_step (I := fun s => GoalsSound s ∧ Keyed lib s.rows) _ hstart
    intro s b ⟨hs, _⟩ h
    exact ⟨keepsKeys_of_keepsGoals hs h, goalsSound_assign b hs, h.keyed⟩
  · apply along_of_step (I := fun s => GoalsSound s ∧ Keyed lib s.rows) _ hstart
    intro s b ⟨hs, hkeyed⟩ hgood
    have h := keepsGoals_of_keepsKeys hs hkeyed hgood
    exact ⟨h, goalsSound_assign b hs, h.keyed⟩

def flightDigest : TextDigest where
  casefold := Text.lower
  sha256 text :=
    if text = "book the flight" then
      "66ba0ebfc1618423da3b326e179a70db45bf661b47b67d0f349cd093aa298d86"
    else if text = "book the hotel" then
      "17c3438697f58850bca3df9b9d7e9c47b3e6ca32abdc11006a49e405e63a7311"
    else ""

/-- The answer for the first message of a matter: the flight has to be booked. -/
def bookFlight : GoalBatch where
  generationId := 0
  matterId := 1
  messageId := 10
  memberIds := [10]
  subgoals := [⟨none, some "Book the flight", .needsYou, some "No offer yet", [10]⟩]

/-- The answer for the second message: the old subgoal is about the hotel now, and there is
a new one about the flight. -/
def bookHotel : GoalBatch where
  generationId := 0
  matterId := 1
  messageId := 11
  memberIds := [10, 11]
  subgoals := [⟨some 0, some "Book the hotel", .needsYou, some "Rooms are held", [11]⟩,
    ⟨none, some "Book the flight", .completed, some "The ticket is here", [11]⟩]

/-- The second entry is written over the first: the key of the flight leads to the row that
has just been given to the hotel. -/
theorem hotel_overwritten : ¬ ∀ (lib : TextDigest) (batches : List GoalBatch),
    Along (Goals.assign lib) (KeepsGoals lib) Goals.empty batches := by
  intro h
  obtain ⟨own, hown, -, -⟩ := (h flightDigest [bookFlight, bookHotel]).2.1.represented
  obtain ⟨r, hr, -, -, hgoal, -⟩ := hown
    ⟨some 0, some "Book the hotel", .needsYou, some "Rooms are held", [11]⟩ (by decide +kernel)
  have hall : ∀ r ∈ (after (Goals.assign flightDigest) Goals.empty [bookFlight, bookHotel]).rows,
      r.goal = "Book the flight" := by decide +kernel
  have hflight := hall r hr
  rw [hgoal] at hflight
  revert hflight
  decide +kernel

end ElectronicMail.Matters
