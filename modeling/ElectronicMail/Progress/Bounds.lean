import ElectronicMail.Progress.Steps

/-!
# The progress is monotone and bounded

Within one generation no counter of the progress goes down and the flags
`initial_window_complete` and `history_metadata_complete` stay set (`ProgressLe`), and
in every state the counters are within their bounds (`Bounded`).

The counters are recomputed from the window entries and the messages, so the bounds
come from an invariant between the three: the entries are those of the active
generation, their positions are `0, 1, …` and at most a hundred, a window without
entries counts nothing, and a window that is not discovered yet has no entries
(`ProgressSound`). Every statement on the import state has one lemma for the invariant
and one for `ProgressLe`.

An import error is the exception: a window that was discovered empty and then marked
failed is discovered again, and `initial_window_complete` may be cleared.
-/

namespace ElectronicMail.Progress

open Foundations
open Messages (BodyFetchStatus)

/-! ## The properties -/

structure Counters where
  initialTarget : Nat
  initialMetadata : Nat
  initialBodyTarget : Nat
  initialBodyReady : Nat
  historyMetadata : Nat
  historyBodyReady : Nat
  estimatedTotal : Nat

def ImportState.counters (s : ImportState) : Counters where
  initialTarget := s.initialTargetCount
  initialMetadata := s.initialMetadataCount
  initialBodyTarget := s.initialBodyTargetCount
  initialBodyReady := s.initialBodyReadyCount
  historyMetadata := s.historyMetadataCount
  historyBodyReady := s.historyBodyReadyCount
  estimatedTotal := s.estimatedTotalCount

structure CountersLe (c c' : Counters) : Prop where
  initialTarget : c.initialTarget ≤ c'.initialTarget
  initialMetadata : c.initialMetadata ≤ c'.initialMetadata
  initialBodyTarget : c.initialBodyTarget ≤ c'.initialBodyTarget
  initialBodyReady : c.initialBodyReady ≤ c'.initialBodyReady
  historyMetadata : c.historyMetadata ≤ c'.historyMetadata
  historyBodyReady : c.historyBodyReady ≤ c'.historyBodyReady
  estimatedTotal : c.estimatedTotal ≤ c'.estimatedTotal

structure ProgressLe (s s' : ImportState) : Prop where
  counters : CountersLe s.counters s'.counters
  windowComplete : s.initialWindowComplete = true → s'.initialWindowComplete = true
  metadataComplete : s.historyMetadataComplete = true → s'.historyMetadataComplete = true

structure Bounded (c : Counters) : Prop where
  target : c.initialTarget ≤ 100
  metadata : c.initialMetadata ≤ c.initialTarget
  bodyTarget : c.initialBodyTarget ≤ 25
  bodyReady : c.initialBodyReady ≤ c.initialBodyTarget
  historyBody : c.historyBodyReady ≤ c.historyMetadata

def ProgressKept (a : Account) (call : Call) : Prop :=
  (step a call).state.syncGeneration = a.state.syncGeneration →
    ProgressLe a.state (step a call).state

theorem CountersLe.refl (c : Counters) : CountersLe c c :=
  ⟨Nat.le_refl _, Nat.le_refl _, Nat.le_refl _, Nat.le_refl _, Nat.le_refl _, Nat.le_refl _,
    Nat.le_refl _⟩

theorem CountersLe.trans {c c' c'' : Counters} (h : CountersLe c c') (h' : CountersLe c' c'') :
    CountersLe c c'' where
  initialTarget := Nat.le_trans h.initialTarget h'.initialTarget
  initialMetadata := Nat.le_trans h.initialMetadata h'.initialMetadata
  initialBodyTarget := Nat.le_trans h.initialBodyTarget h'.initialBodyTarget
  initialBodyReady := Nat.le_trans h.initialBodyReady h'.initialBodyReady
  historyMetadata := Nat.le_trans h.historyMetadata h'.historyMetadata
  historyBodyReady := Nat.le_trans h.historyBodyReady h'.historyBodyReady
  estimatedTotal := Nat.le_trans h.estimatedTotal h'.estimatedTotal

theorem ProgressLe.refl (s : ImportState) : ProgressLe s s := ⟨.refl _, id, id⟩

variable {s' : ImportState}

variable {s : ImportState}

theorem ProgressLe.trans {s'' : ImportState} (h : ProgressLe s s') (h' : ProgressLe s' s'') :
    ProgressLe s s'' :=
  ⟨h.counters.trans h'.counters, h'.windowComplete ∘ h.windowComplete,
    h'.metadataComplete ∘ h.metadataComplete⟩

/-! ## The invariant -/

def PhaseUndiscovered (phase : Option SyncPhase) : Prop :=
  phase = none ∨ phase = some .discoveringRecent

def Undiscovered (s : ImportState) : Prop := PhaseUndiscovered s.phase

variable {phase : SyncPhase}

theorem not_phaseUndiscovered (h : phase ≠ .discoveringRecent) :
    ¬ PhaseUndiscovered (some phase) := by
  rintro (hnone | hdiscovering)
  · cases hnone
  · exact h (Option.some.inj hdiscovering)

structure WindowUncounted (c : Counters) : Prop where
  target : c.initialTarget = 0
  metadata : c.initialMetadata = 0
  bodyTarget : c.initialBodyTarget = 0
  bodyReady : c.initialBodyReady = 0

structure ProgressSound (entries : List WindowEntry) (s : ImportState) : Prop where
  generation : ∀ e ∈ entries, s.syncGeneration = some e.generationId
  positions : entries.map WindowEntry.position = List.range entries.length
  capped : entries.length ≤ 100
  bounded : Bounded s.counters
  uncounted : entries = [] → WindowUncounted s.counters
  undiscovered : Undiscovered s → entries = [] ∧ s.initialWindowComplete = false

def slots (entries : List WindowEntry) : List (String × Nat) :=
  entries.map fun e => (e.generationId, e.position)

theorem slots_updateWhere {p : WindowEntry → Bool} {f : WindowEntry → WindowEntry}
    (hgeneration : ∀ e, (f e).generationId = e.generationId)
    (hposition : ∀ e, (f e).position = e.position) (entries : List WindowEntry) :
    slots (Table.updateWhere p f entries) = slots entries := by
  apply Table.map_updateWhere
  intro e _ _
  rw [hgeneration, hposition]

variable {entries : List WindowEntry}

theorem ProgressSound.of_slots {entries' : List WindowEntry} (h : ProgressSound entries s)
    (hslots : slots entries' = slots entries) : ProgressSound entries' s := by
  have hlength : entries'.length = entries.length := by
    have := congrArg List.length hslots
    simpa [slots] using this
  have hnil : entries' = [] → entries = [] := by
    intro hempty
    rw [← List.length_eq_zero_iff, ← hlength, hempty]
    rfl
  have hgenerations : entries'.map WindowEntry.generationId =
      entries.map WindowEntry.generationId := by
    have := congrArg (List.map Prod.fst) hslots
    simpa [slots, Function.comp_def] using this
  have hpositions : entries'.map WindowEntry.position = entries.map WindowEntry.position := by
    have := congrArg (List.map Prod.snd) hslots
    simpa [slots, Function.comp_def] using this
  refine ⟨?_, ?_, ?_, h.bounded, fun hempty => h.uncounted (hnil hempty), ?_⟩
  · intro e he
    have hmem : e.generationId ∈ entries.map WindowEntry.generationId := by
      rw [← hgenerations]
      exact List.mem_map_of_mem he
    obtain ⟨e₀, he₀, heq⟩ := List.mem_map.1 hmem
    rw [← heq]
    exact h.generation e₀ he₀
  · rw [hpositions, hlength]
    exact h.positions
  · rw [hlength]
    exact h.capped
  · intro hundiscovered
    obtain ⟨hempty, hcomplete⟩ := h.undiscovered hundiscovered
    refine ⟨?_, hcomplete⟩
    rw [← List.length_eq_zero_iff, hlength, hempty]
    rfl

/-- A change of the import state within the generation is sound if the counters stay
within their bounds, those of an empty window stay zero, and an undiscovered window was
undiscovered before. -/
theorem ProgressSound.of_state (h : ProgressSound entries s)
    (hgeneration : s'.syncGeneration = s.syncGeneration) (hbounded : Bounded s'.counters)
    (huncounted : entries = [] → WindowUncounted s'.counters) (hundiscovered : Undiscovered s' →
      Undiscovered s ∧ (entries = [] → s'.initialWindowComplete = s.initialWindowComplete)) :
    ProgressSound entries s' where
  generation := by
    intro e he
    rw [hgeneration]
    exact h.generation e he
  positions := h.positions
  capped := h.capped
  bounded := hbounded
  uncounted := huncounted
  undiscovered hs' := by
    obtain ⟨hs, hsame⟩ := hundiscovered hs'
    obtain ⟨hempty, hwindow⟩ := h.undiscovered hs
    exact ⟨hempty, (hsame hempty).trans hwindow⟩

theorem ProgressSound.of_phase (h : ProgressSound entries s)
    (hgeneration : s'.syncGeneration = s.syncGeneration) (hcounters : s'.counters = s.counters)
    (hwindow : s'.initialWindowComplete = s.initialWindowComplete)
    (hphase : Undiscovered s' → Undiscovered s) : ProgressSound entries s' := by
  refine h.of_state hgeneration ?_ ?_ fun hs' => ⟨hphase hs', fun _ => hwindow⟩
  · rw [hcounters]
    exact h.bounded
  · rw [hcounters]
    exact h.uncounted

/-! ## Counts of the entries -/

/-- Of positions `0, 1, …, n - 1` at most `k` are below `k`. -/
theorem countP_range_lt_le (n k : Nat) :
    (List.range n).countP (fun position => decide (position < k)) ≤ k := by
  induction n with
  | zero => simp
  | succ n ih =>
    rw [List.range_succ, List.countP_append]
    by_cases hlt : n < k
    · have hle : (List.range n).countP (fun position => decide (position < k)) ≤ n := by
        have := List.countP_le_length (p := fun position => decide (position < k))
          (l := List.range n)
        simpa using this
      have hone : [n].countP (fun position => decide (position < k)) ≤ 1 :=
        List.countP_le_length
      omega
    · have hnone : [n].countP (fun position => decide (position < k)) = 0 := by simp [hlt]
      omega

section Counts

variable {entries : List WindowEntry} {s : ImportState}

theorem bodyReadyCount_le (h : ProgressSound entries s) (generation : String) (limit : Nat) :
    bodyReadyCount entries generation limit ≤ limit := by
  calc bodyReadyCount entries generation limit
      ≤ entries.countP (fun e => decide (e.position < limit)) := by
        apply List.countP_mono_left
        intro e _ he
        simp only [Bool.and_eq_true] at he
        exact he.2
    _ = (entries.map WindowEntry.position).countP (fun position => decide (position < limit)) := by
        rw [List.countP_map]
        rfl
    _ ≤ limit := by
        rw [h.positions]
        exact countP_range_lt_le entries.length limit

theorem metadataCount_le (entries : List WindowEntry) (generation : String) :
    metadataCount entries generation ≤ targetCount entries generation := by
  apply List.countP_mono_left
  intro e _ he
  simp only [Bool.and_eq_true] at he
  exact he.1

theorem bodyReadyCount_le_target (entries : List WindowEntry) (generation : String)
    (limit : Nat) : bodyReadyCount entries generation limit ≤ targetCount entries generation := by
  apply List.countP_mono_left
  intro e _ he
  simp only [Bool.and_eq_true] at he
  exact he.1.1

theorem targetCount_le (h : ProgressSound entries s) (generation : String) :
    targetCount entries generation ≤ 100 :=
  Nat.le_trans List.countP_le_length h.capped

end Counts

theorem readyThreads_le (messages : List StoredMessage) :
    (readyThreads messages).length ≤ (threadKeys messages).length :=
  List.length_filter_le _ _

variable {ready : Nat} {allReady : Bool}

/-! ## The statements on the import state -/

section Statements

variable {entries : List WindowEntry} {s : ImportState}

variable {other : Option SyncPhase}

/-- The phase after a `CASE` with a discovered result is undiscovered only if the other
branch is. -/
theorem undiscovered_ite {c : Prop} [Decidable c]
    (h : PhaseUndiscovered (if c then some phase else other))
    (hphase : phase ≠ .discoveringRecent) : PhaseUndiscovered other := by
  by_cases hc : c
  · rw [if_pos hc] at h
    exact absurd h (not_phaseUndiscovered hphase)
  · rwa [if_neg hc] at h

theorem progressLe_reopenHistory (s : ImportState) (allReady : Bool) :
    ProgressLe s (s.reopenHistory allReady) := by
  unfold ImportState.reopenHistory
  split
  · exact ⟨.refl _, id, id⟩
  · exact .refl s

theorem generation_reopenHistory (s : ImportState) (allReady : Bool) :
    (s.reopenHistory allReady).syncGeneration = s.syncGeneration := by
  unfold ImportState.reopenHistory
  split
  · rfl
  · rfl

theorem sound_reopenHistory (h : ProgressSound entries s) (allReady : Bool) :
    ProgressSound entries (s.reopenHistory allReady) := by
  unfold ImportState.reopenHistory
  split
  · refine h.of_phase rfl rfl rfl ?_
    intro hs'
    exact undiscovered_ite hs' (by decide)
  · exact h

theorem progressLe_bodyProgress (s : ImportState) (initialReady ready : Nat) (allReady : Bool) :
    ProgressLe s (s.bodyProgress initialReady ready allReady) := by
  unfold ImportState.bodyProgress
  split
  · refine ⟨⟨Nat.le_refl _, Nat.le_refl _, Nat.le_refl _, ?_, Nat.le_refl _, ?_, Nat.le_refl _⟩,
      id, id⟩
    · exact Nat.le_max_left _ _
    · exact Nat.le_max_left _ _
  · exact .refl s

theorem generation_bodyProgress (s : ImportState) (initialReady ready : Nat) (allReady : Bool) :
    (s.bodyProgress initialReady ready allReady).syncGeneration = s.syncGeneration := by
  unfold ImportState.bodyProgress
  split
  · rfl
  · rfl

variable {initialReady : Nat}

theorem sound_bodyProgress (h : ProgressSound entries s)
    (hready : initialReady ≤ s.initialBodyTargetCount) (ready : Nat) (allReady : Bool) :
    ProgressSound entries (s.bodyProgress initialReady ready allReady) := by
  unfold ImportState.bodyProgress
  split
  · have hbounded := h.bounded
    refine h.of_state rfl ?_ ?_ ?_
    · refine ⟨hbounded.target, hbounded.metadata, hbounded.bodyTarget, ?_, ?_⟩
      · exact Nat.max_le.2 ⟨hbounded.bodyReady, hready⟩
      · exact Nat.max_le.2 ⟨hbounded.historyBody, Nat.min_le_left _ _⟩
    · intro hempty
      have hzero := h.uncounted hempty
      have hnone : initialReady = 0 := Nat.le_zero.1 (hzero.bodyTarget ▸ hready)
      refine ⟨hzero.target, hzero.metadata, hzero.bodyTarget, ?_⟩
      have hbodyReady : s.initialBodyReadyCount = 0 := hzero.bodyReady
      simp [ImportState.counters, hnone, hbodyReady]
    · intro hs'
      have hphase := undiscovered_ite hs' (by decide)
      exact ⟨undiscovered_ite hphase (by decide), fun _ => rfl⟩
  · exact h

theorem progressLe_countWindow (s : ImportState) (target metadata bodyReady : Nat) :
    ProgressLe s (s.countWindow target metadata bodyReady) := by
  refine ⟨⟨?_, ?_, ?_, ?_, Nat.le_refl _, Nat.le_refl _, Nat.le_refl _⟩, ?_, id⟩
  · exact Nat.le_max_left _ _
  · exact Nat.le_max_left _ _
  · exact Nat.le_max_left _ _
  · exact Nat.le_max_left _ _
  · intro hcomplete
    simp [ImportState.countWindow, hcomplete]

structure Counted (entries : List WindowEntry) (target metadata bodyReady : Nat) : Prop where
  targetLe : target ≤ 100
  metadataLe : metadata ≤ target
  bodyReadyLe : bodyReady ≤ min 25 target
  emptyWindow : entries = [] → target = 0

theorem counted (h : ProgressSound entries s) (generation : String) :
    Counted entries (targetCount entries generation) (metadataCount entries generation)
      (bodyReadyCount entries generation 25) where
  targetLe := targetCount_le h generation
  metadataLe := metadataCount_le entries generation
  bodyReadyLe := Nat.le_min.2
    ⟨bodyReadyCount_le h generation 25, bodyReadyCount_le_target entries generation 25⟩
  emptyWindow hempty := by
    rw [hempty]
    rfl

variable {target metadata bodyReady : Nat}

theorem bounded_countWindow (h : Bounded s.counters)
    (hcounted : Counted entries target metadata bodyReady) :
    Bounded (s.countWindow target metadata bodyReady).counters := by
  obtain ⟨htarget, hmetadata, hbodyTarget, hbodyReady, hhistory⟩ := h
  obtain ⟨ht, hm, hb, -⟩ := hcounted
  simp only [ImportState.counters] at htarget hmetadata hbodyTarget hbodyReady hhistory
  refine ⟨?_, ?_, ?_, ?_, hhistory⟩
  all_goals
    simp only [ImportState.counters, ImportState.countWindow]
    omega

theorem uncounted_countWindow (h : WindowUncounted s.counters)
    (hcounted : Counted entries target metadata bodyReady) (hempty : entries = []) :
    WindowUncounted (s.countWindow target metadata bodyReady).counters := by
  obtain ⟨htarget, hmetadata, hbodyTarget, hbodyReady⟩ := h
  obtain ⟨-, hm, hb, hzero⟩ := hcounted
  have ht := hzero hempty
  simp only [ImportState.counters] at htarget hmetadata hbodyTarget hbodyReady
  refine ⟨?_, ?_, ?_, ?_⟩
  all_goals
    simp only [ImportState.counters, ImportState.countWindow]
    omega

theorem sound_countWindow (h : ProgressSound entries s) (hentries : entries ≠ [])
    (hcounted : Counted entries target metadata bodyReady) :
    ProgressSound entries (s.countWindow target metadata bodyReady) := by
  refine h.of_state rfl (bounded_countWindow h.bounded hcounted) ?_ ?_
  · intro hempty
    exact absurd hempty hentries
  · intro hs'
    exact ⟨hs', fun hempty => absurd hempty hentries⟩

theorem progressLe_commitBatch (s : ImportState) (target metadata bodyReady : Nat) :
    ProgressLe s (s.commitBatch target metadata bodyReady) := by
  have hcount := progressLe_countWindow s target metadata bodyReady
  exact ⟨hcount.counters, hcount.windowComplete, id⟩

theorem sound_commitBatch (h : ProgressSound entries s)
    (hcounted : Counted entries target metadata bodyReady) :
    ProgressSound entries (s.commitBatch target metadata bodyReady) := by
  refine h.of_state rfl (bounded_countWindow h.bounded hcounted) ?_ ?_
  · intro hempty
    exact uncounted_countWindow (h.uncounted hempty) hcounted hempty
  · intro hs'
    have hphase := undiscovered_ite hs' (by decide)
    exact absurd (undiscovered_ite hphase (by decide)) (not_phaseUndiscovered (by decide))

theorem sound_discover (h : ProgressSound [] s) {rows : List WindowEntry}
    (hgeneration : ∀ e ∈ rows, s.syncGeneration = some e.generationId)
    (hpositions : rows.map WindowEntry.position = List.range rows.length)
    (hcapped : rows.length ≤ 100) (estimated : Nat) :
    ProgressSound rows (s.discover rows.length estimated) where
  generation := hgeneration
  positions := hpositions
  capped := hcapped
  bounded := by
    have hzero := h.uncounted rfl
    have hmetadata : s.initialMetadataCount = 0 := hzero.metadata
    have hbodyReady : s.initialBodyReadyCount = 0 := hzero.bodyReady
    refine ⟨hcapped, ?_, Nat.min_le_left _ _, ?_, h.bounded.historyBody⟩
    · simp [ImportState.counters, ImportState.discover, hmetadata]
    · simp [ImportState.counters, ImportState.discover, hbodyReady]
  uncounted := by
    rintro rfl
    have hzero := h.uncounted rfl
    exact ⟨rfl, hzero.metadata, rfl, hzero.bodyReady⟩
  undiscovered := by
    intro hs'
    exact absurd (undiscovered_ite hs' (by decide)) (not_phaseUndiscovered (by decide))

theorem progressLe_discover (h : ProgressSound [] s) (hcomplete : s.initialWindowComplete = false)
    (target estimated : Nat) : ProgressLe s (s.discover target estimated) := by
  have hzero := h.uncounted rfl
  refine ⟨⟨?_, Nat.le_refl _, ?_, Nat.le_refl _, Nat.le_refl _, Nat.le_refl _, ?_⟩, ?_, id⟩
  · exact hzero.target ▸ Nat.zero_le _
  · exact hzero.bodyTarget ▸ Nat.zero_le _
  · exact Nat.le_max_left _ _
  · intro htrue
    rw [hcomplete] at htrue
    cases htrue

theorem progressLe_commitPage (s : ImportState) (next : Option String) (estimated : Nat) :
    ProgressLe s (s.commitPage next estimated) :=
  ⟨⟨Nat.le_refl _, Nat.le_refl _, Nat.le_refl _, Nat.le_refl _, Nat.le_refl _, Nat.le_refl _,
    Nat.le_max_left _ _⟩, id, id⟩

theorem sound_commitPage (h : ProgressSound entries s) (next : Option String) (estimated : Nat) :
    ProgressSound entries (s.commitPage next estimated) := by
  have hbounded := h.bounded
  refine h.of_state rfl ⟨hbounded.target, hbounded.metadata, hbounded.bodyTarget,
    hbounded.bodyReady, hbounded.historyBody⟩ ?_ ?_
  · intro hempty
    have hzero := h.uncounted hempty
    exact ⟨hzero.target, hzero.metadata, hzero.bodyTarget, hzero.bodyReady⟩
  · intro hs'
    refine ⟨?_, fun _ => rfl⟩
    unfold Undiscovered ImportState.commitPage at hs'
    dsimp only at hs'
    split at hs'
    · exact hs'
    · exact undiscovered_ite hs' (by decide)

theorem progressLe_finalize (s : ImportState) (threads ready : Nat) (allReady : Bool) :
    ProgressLe s (s.finalize threads ready allReady) :=
  ⟨⟨Nat.le_refl _, Nat.le_refl _, Nat.le_refl _, Nat.le_refl _, Nat.le_max_left _ _,
    Nat.le_max_left _ _, Nat.le_max_left _ _⟩, id, fun _ => rfl⟩

theorem sound_finalize (h : ProgressSound entries s) {threads : Nat}
    (hready : ready ≤ threads) (allReady : Bool) :
    ProgressSound entries (s.finalize threads ready allReady) := by
  have hbounded := h.bounded
  refine h.of_state rfl ⟨hbounded.target, hbounded.metadata, hbounded.bodyTarget,
    hbounded.bodyReady, ?_⟩ ?_ ?_
  · have hhistory : s.historyBodyReadyCount ≤ s.historyMetadataCount := hbounded.historyBody
    simp only [ImportState.counters, ImportState.finalize]
    omega
  · intro hempty
    have hzero := h.uncounted hempty
    exact ⟨hzero.target, hzero.metadata, hzero.bodyTarget, hzero.bodyReady⟩
  · intro hs'
    have hphase := undiscovered_ite hs' (by decide)
    exact ⟨undiscovered_ite hphase (by decide), fun _ => rfl⟩

/-! ## Failed imports -/

/-- The phase after a `CASE` with another result is `failed` only if the other branch is. -/
theorem failed_ite {c : Prop} [Decidable c] (h : (if c then some phase else other) = some .failed)
    (hphase : phase ≠ .failed) : other = some .failed := by
  by_cases hc : c
  · rw [if_pos hc] at h
    exact absurd (Option.some.inj h) hphase
  · rwa [if_neg hc] at h

theorem failed_reopenHistory
    (h : (s.reopenHistory allReady).phase = some .failed) : s.phase = some .failed := by
  unfold ImportState.reopenHistory at h
  split at h
  · exact failed_ite h (by decide)
  · exact h

theorem failed_bodyProgress
    (h : (s.bodyProgress initialReady ready allReady).phase = some .failed) :
    s.phase = some .failed := by
  unfold ImportState.bodyProgress at h
  split at h
  · exact failed_ite (failed_ite h (by decide)) (by decide)
  · exact h

theorem failed_commitPage {next : Option String} {estimated : Nat}
    (h : (s.commitPage next estimated).phase = some .failed) : s.phase = some .failed := by
  unfold ImportState.commitPage at h
  dsimp only at h
  split at h
  · exact h
  · exact failed_ite h (by decide)

theorem failed_finalize {threads : Nat}
    (h : (s.finalize threads ready allReady).phase = some .failed) : s.phase = some .failed :=
  failed_ite (failed_ite h (by decide)) (by decide)

end Statements

/-! ## Transactions -/

/-- What a transaction within a generation does: it keeps the invariant and the progress,
and it does not mark the import failed. -/
structure Advances (a a' : Account) : Prop where
  sound : ProgressSound a'.entries a'.state
  generation : a'.state.syncGeneration = a.state.syncGeneration
  progress : ProgressLe a.state a'.state
  failed : a'.state.phase = some .failed → a.state.phase = some .failed

variable {a' : Account}

variable {a : Account}

theorem Advances.trans {a'' : Account} (h : Advances a a') (h' : Advances a' a'') :
    Advances a a'' :=
  ⟨h'.sound, h'.generation.trans h.generation, h.progress.trans h'.progress, h.failed ∘ h'.failed⟩

section Transactions

variable {a : Account}

section

variable (h : ProgressSound a.entries a.state)
include h

theorem Advances.of_eq (hentries : a'.entries = a.entries) (hstate : a'.state = a.state) : Advances a a' := by
  refine ⟨?_, congrArg _ hstate, ?_, ?_⟩
  · rw [hentries, hstate]
    exact h
  · rw [hstate]
    exact .refl _
  · rw [hstate]
    exact id

theorem Advances.of_slots (hslots : slots a'.entries = slots a.entries) (hstate : a'.state = a.state) :
    Advances a a' := by
  refine ⟨?_, congrArg _ hstate, ?_, ?_⟩
  · rw [hstate]
    exact h.of_slots hslots
  · rw [hstate]
    exact .refl _
  · rw [hstate]
    exact id

theorem advances_upsertOnConnection (records : List Record) : Advances a (upsertGmailMessagesOnConnection a records) := by
  unfold upsertGmailMessagesOnConnection
  by_cases hempty : records.isEmpty = true
  · simp only [hempty, if_true]
    exact .of_eq h rfl rfl
  · simp only [hempty, Bool.false_eq_true, if_false]
    exact ⟨sound_reopenHistory h _, generation_reopenHistory _ _, progressLe_reopenHistory _ _,
      failed_reopenHistory⟩

theorem advances_bodyProgress : Advances a (updateGmailBodyProgressOnConnection a) := by
  refine ⟨sound_bodyProgress h ?_ _ _, generation_bodyProgress _ _ _ _,
    progressLe_bodyProgress _ _ _ _, failed_bodyProgress⟩
  cases a.state.syncGeneration with
  | none => exact Nat.zero_le _
  | some generation => exact bodyReadyCount_le h generation _

theorem advances_settled (messages : List StoredMessage)
    (threads : List String) :
    Advances a
      (updateGmailBodyProgressOnConnection
        (settleReadyEntries { a.begin with messages := messages } threads)) := by
  have hslots : slots (settleReadyEntries { a.begin with messages := messages } threads).entries =
      slots a.entries :=
    slots_updateWhere (f := WindowEntry.settleBody) (fun _ => rfl) (fun _ => rfl) a.entries
  have hsettled : Advances a (settleReadyEntries { a.begin with messages := messages } threads) :=
    .of_slots h hslots rfl
  exact hsettled.trans (advances_bodyProgress hsettled.sound)

theorem advances_updateGmailMessageBodies (records : List Record) : Advances a (updateGmailMessageBodies a records) := by
  unfold updateGmailMessageBodies
  split
  · exact .of_eq h rfl rfl
  · exact advances_settled h _ _

theorem advances_markBodyState (messageIds : List String)
    (status : BodyFetchStatus) :
    Advances a (markGmailMessagesBodyFetchState a messageIds status) := by
  unfold markGmailMessagesBodyFetchState
  dsimp only
  split
  · exact .of_eq h rfl rfl
  split
  · exact advances_settled h _ _
  · exact .of_eq h rfl rfl

end

theorem slots_resolveEntries (s : ImportState) (messages : List StoredMessage)
    (threads : List String) (entries : List WindowEntry) :
    slots (resolveEntries s messages threads entries) = slots entries := by
  unfold resolveEntries
  rw [slots_updateWhere (f := WindowEntry.settleBody) (fun _ => rfl) (fun _ => rfl),
    slots_updateWhere (f := WindowEntry.settle) (fun _ => rfl) (fun _ => rfl)]

section

variable (h : ProgressSound a.entries a.state)
include h

theorem advances_recounted (hentries : a.entries ≠ []) :
    Advances a (updateGmailBodyProgressOnConnection (recountWindow a)) := by
  have hrecounted : Advances a (recountWindow a) := by
    unfold recountWindow
    split
    · exact .of_eq h rfl rfl
    · exact ⟨sound_countWindow h hentries (counted h _), rfl, progressLe_countWindow _ _ _ _, id⟩
  exact hrecounted.trans (advances_bodyProgress hrecounted.sound)

theorem advances_delete (messageIds : List String) :
    Advances a (deleteGmailMessages a messageIds) := by
  unfold deleteGmailMessages
  dsimp only
  split
  · rename_i hresolved
    have hslots := slots_resolveEntries a.state
      (a.messages.filter fun m => m.messageId ∉ uniqueIds messageIds)
      ((a.messages.filter fun m => m.messageId ∈ uniqueIds messageIds).map threadKey) a.entries
    refine Advances.trans ?_ (advances_recounted ?_ ?_)
    · exact .of_slots h hslots rfl
    · exact h.of_slots hslots
    · -- Some entry was resolved, so the window has entries.
      intro hempty
      rw [show resolveEntries _ _ _ _ = [] from hempty] at hslots
      have hnone : a.entries = [] := List.map_eq_nil_iff.1 hslots.symm
      obtain ⟨e, he, -⟩ := List.any_eq_true.1 hresolved
      rw [hnone] at he
      cases he
  · exact .of_slots h (slots_resolveEntries _ _ _ _) rfl

theorem advances_importStarted : Advances a (markImportStarted a) :=
  ⟨h.of_phase rfl rfl rfl fun hs' => undiscovered_ite hs' (by decide), rfl, ⟨.refl _, id, id⟩,
    fun hs' => failed_ite hs' (by decide)⟩

theorem advances_importCompleted (firstBatch backfillCursor backfillCompleted : Bool) :
    Advances a (markImportCompleted a firstBatch backfillCursor backfillCompleted) :=
  ⟨h.of_phase rfl rfl rfl id, rfl, ⟨.refl _, id, id⟩, id⟩

theorem advances_deltaCompleted : Advances a (markHistoryDeltaCompleted a) := by
  by_cases hnone : a.state.syncGeneration.isNone = true
  · have hphase : (markHistoryDeltaCompleted a).state.phase = a.state.phase := if_pos hnone
    refine ⟨h.of_phase rfl rfl rfl ?_, rfl, ⟨.refl _, id, id⟩, ?_⟩
    · unfold Undiscovered
      rw [hphase]
      exact id
    · rw [hphase]
      exact id
  · have hphase : (markHistoryDeltaCompleted a).state.phase =
        if a.state.historyBodyComplete then some .complete else some .usable := if_neg hnone
    refine ⟨h.of_phase rfl rfl rfl ?_, rfl, ⟨.refl _, id, id⟩, ?_⟩
    · intro hs'
      unfold Undiscovered at hs'
      rw [hphase] at hs'
      exact absurd (undiscovered_ite hs' (by decide)) (not_phaseUndiscovered (by decide))
    · intro hs'
      rw [hphase] at hs'
      exact absurd (failed_ite hs' (by decide)) (by decide)

theorem advances_commitBatch (generation : String)
    (threadIds : List String) (records : List Record) (terminalMissing : List String) :
    Advances a
      (commitGmailInitialWindowMetadataBatch a generation threadIds records terminalMissing) := by
  unfold commitGmailInitialWindowMetadataBatch
  dsimp only
  split
  · exact .of_eq h rfl rfl
  have hupserted := advances_upsertOnConnection (a := a.begin) h records
  have hslots : slots (Table.updateWhere (listsEntry generation (uniqueIds threadIds))
      (hydrateEntry (upsertGmailMessagesOnConnection a.begin records).messages)
      (Table.updateWhere (listsEntry generation (uniqueIds terminalMissing)) WindowEntry.settle
        a.entries)) = slots a.entries := by
    rw [slots_updateWhere (f := hydrateEntry _) (fun _ => rfl) (fun _ => rfl),
      slots_updateWhere (f := WindowEntry.settle) (fun _ => rfl) (fun _ => rfl)]
  have hsound := hupserted.sound.of_slots hslots
  refine ⟨sound_commitBatch hsound (counted hsound generation), hupserted.generation, ?_, ?_⟩
  · exact hupserted.progress.trans (progressLe_commitBatch _ _ _ _)
  · intro hs'
    exact absurd (failed_ite (failed_ite hs' (by decide)) (by decide)) (by decide)

theorem advances_startReconciliation (generation initialCursor : String) :
    Advances a (startGmailReconciliation a generation initialCursor) := by
  unfold startGmailReconciliation
  dsimp only
  split
  · exact .of_eq h rfl rfl
  split
  · exact ⟨h.of_phase rfl rfl rfl id, rfl, ⟨.refl _, id, id⟩, id⟩
  · exact .of_eq h rfl rfl

theorem advances_recordPage (generation expected : String)
    (next : Option String) (messageIds : List String) :
    Advances a (recordGmailReconciliationPage a generation expected next messageIds) := by
  unfold recordGmailReconciliationPage
  split
  · exact ⟨h.of_phase rfl rfl rfl id, rfl, ⟨.refl _, id, id⟩, id⟩
  · exact .of_eq h rfl rfl

theorem advances_recordSeen (generation : String)
    (messageIds : List String) :
    Advances a (recordGmailReconciliationSeen a generation messageIds) := by
  unfold recordGmailReconciliationSeen
  split
  · exact .of_eq h rfl rfl
  · exact .of_eq h rfl rfl

theorem advances_historyMetadata (count : Nat)
    (seen : List (String × String)) :
    Advances a
      { a with
        seen := seen
        state := { a.state with
          historyMetadataCount := max a.state.historyMetadataCount count } } := by
  have hbounded := h.bounded
  refine ⟨h.of_state rfl ⟨hbounded.target, hbounded.metadata, hbounded.bodyTarget,
    hbounded.bodyReady, ?_⟩ ?_ fun hs' => ⟨hs', fun _ => rfl⟩, rfl, ?_, id⟩
  · exact Nat.le_trans hbounded.historyBody (Nat.le_max_left _ _)
  · intro hempty
    have hzero := h.uncounted hempty
    exact ⟨hzero.target, hzero.metadata, hzero.bodyTarget, hzero.bodyReady⟩
  · exact ⟨⟨Nat.le_refl _, Nat.le_refl _, Nat.le_refl _, Nat.le_refl _, Nat.le_max_left _ _,
      Nat.le_refl _, Nat.le_refl _⟩, id, id⟩

theorem advances_commitPage (generation expected : String)
    (next : Option String) (records : List Record) (conversationCount estimated : Nat) :
    Advances a
      (commitGmailReconciliationMetadataPage a generation expected next records conversationCount
        estimated) := by
  unfold commitGmailReconciliationMetadataPage
  split
  · have hadvanced : Advances a { a.begin with state := a.state.commitPage next estimated } :=
      ⟨sound_commitPage h next estimated, rfl, progressLe_commitPage _ _ _, failed_commitPage⟩
    have hupserted := advances_upsertOnConnection hadvanced.sound records
    exact hadvanced.trans (hupserted.trans (advances_historyMetadata hupserted.sound _ _))
  · exact .of_eq h rfl rfl

theorem advances_finalize (generation : String)
    (final : Nat) : Advances a (finalizeGmailReconciliation a generation final) := by
  unfold finalizeGmailReconciliation
  split
  · exact .of_eq h rfl rfl
  split
  · exact ⟨sound_finalize h (readyThreads_le _) _, rfl, progressLe_finalize _ _ _ _,
      failed_finalize⟩
  · exact .of_eq h rfl rfl

theorem advances_reset (generation : String) :
    Advances a (resetGmailReconciliation a generation) := by
  unfold resetGmailReconciliation
  split
  · exact ⟨h.of_phase rfl rfl rfl id, rfl, ⟨.refl _, id, id⟩, id⟩
  · exact .of_eq h rfl rfl

end

/-! ## The discovery of the window -/

theorem positions_mapIdx {α : Type} {f : Nat → α → WindowEntry}
    (hf : ∀ position x, (f position x).position = position) (xs : List α) :
    (xs.mapIdx f).map WindowEntry.position = List.range (xs.mapIdx f).length := by
  apply List.ext_getElem
  · simp
  · intro position h₁ h₂
    simp [hf]

theorem insertEntries_nil (rows : List WindowEntry) : insertEntries [] rows = rows := by
  simp [insertEntries]

theorem entries_nil_of_any (h : ProgressSound a.entries a.state) {generation : String}
    (hgeneration : a.state.syncGeneration = some generation)
    (hany : a.entries.any (fun e => e.generationId = generation) = false) : a.entries = [] := by
  rw [List.eq_nil_iff_forall_not_mem]
  intro e he
  have heq := h.generation e he
  rw [hgeneration] at heq
  have hne := List.any_eq_false.1 hany e he
  exact hne (decide_eq_true (Option.some.inj heq).symm)

theorem initializeWindow_spec (h : ProgressSound a.entries a.state) (generation : String)
    (threadIds : List String) (estimated : Nat) :
    ProgressSound (initializeGmailInitialWindow a generation threadIds estimated).entries
        (initializeGmailInitialWindow a generation threadIds estimated).state ∧
      (initializeGmailInitialWindow a generation threadIds estimated).state.syncGeneration =
        a.state.syncGeneration ∧
      (a.state.phase ≠ some .failed →
        ProgressLe a.state
            (initializeGmailInitialWindow a generation threadIds estimated).state ∧
          (initializeGmailInitialWindow a generation threadIds estimated).state.phase ≠
            some .failed) := by
  unfold initializeGmailInitialWindow
  dsimp only
  split
  · exact ⟨h, rfl, fun hfailed => ⟨.refl _, hfailed⟩⟩
  rename_i hguard
  simp only [Bool.or_eq_true, decide_eq_true_eq, not_or, not_not, Bool.not_eq_true] at hguard
  obtain ⟨hgeneration, hdiscovered⟩ := hguard
  simp only [alreadyDiscovered, Bool.or_eq_false_iff] at hdiscovered
  obtain ⟨hany, hphase⟩ := hdiscovered
  have hnil := entries_nil_of_any h hgeneration hany
  rw [hnil] at h ⊢
  rw [insertEntries_nil]
  set threads := (uniqueIds threadIds).take 100
  have hlength : (discoveredEntries generation threads).length = threads.length := by
    simp [discoveredEntries]
  refine ⟨?_, rfl, ?_⟩
  · rw [← hlength]
    have hcapped : (discoveredEntries generation threads).length ≤ 100 := by
      rw [hlength]
      exact List.length_take_le 100 _
    refine sound_discover h ?_ (positions_mapIdx (fun _ _ => rfl) threads) hcapped estimated
    intro e he
    obtain ⟨position, hlt, rfl⟩ := List.mem_mapIdx.1 he
    exact hgeneration
  · intro hfailed
    -- The phase is null or `discovering_recent`, so the window is not complete.
    have hundiscovered : Undiscovered a.state := by
      unfold Undiscovered PhaseUndiscovered
      cases hcase : a.state.phase with
      | none => exact Or.inl rfl
      | some phase =>
        rw [hcase] at hphase hfailed
        cases phase with
        | discoveringRecent => exact Or.inr rfl
        | failed => exact absurd rfl hfailed
        | _ => cases hphase
    refine ⟨progressLe_discover h (h.undiscovered hundiscovered).2 _ _, ?_⟩
    intro hs'
    exact absurd (failed_ite hs' (by decide)) (by decide)

/-! ## Changes of the generation -/

theorem startProgress_spec (h : ProgressSound a.entries a.state) (generationId : String) :
    ProgressSound (startGmailSyncProgress a generationId).entries
        (startGmailSyncProgress a generationId).state ∧
      ((startGmailSyncProgress a generationId).state.syncGeneration = a.state.syncGeneration →
        ProgressLe a.state (startGmailSyncProgress a generationId).state ∧
          (a.state.phase ≠ some .failed →
            (startGmailSyncProgress a generationId).state.phase ≠ some .failed)) ∧
      ((startGmailSyncProgress a generationId).state.syncGeneration ≠ a.state.syncGeneration →
        (startGmailSyncProgress a generationId).state.phase ≠ some .failed) := by
  unfold startGmailSyncProgress
  dsimp only
  set generation := Text.strip generationId
  split
  · exact ⟨h, fun _ => ⟨.refl _, id⟩, fun hne => absurd rfl hne⟩
  by_cases hsame : a.state.syncGeneration = some generation
  · have hall : (a.entries.filter fun e => e.generationId = generation) = a.entries := by
      rw [List.filter_eq_self]
      intro e he
      have heq := h.generation e he
      rw [hsame] at heq
      exact decide_eq_true (Option.some.inj heq).symm
    have hstart : a.state.start generation =
        { a.state with
          phase := if a.state.phase.isSome then a.state.phase else some .discoveringRecent } :=
      if_pos hsame
    simp only [hall, hstart]
    refine ⟨h.of_phase rfl rfl rfl ?_, fun _ => ⟨⟨.refl _, id, id⟩, ?_⟩, fun hne => absurd rfl hne⟩
    · intro hs'
      cases hphase : a.state.phase with
      | none => exact Or.inl hphase
      | some =>
        simp only [Undiscovered, hphase, Option.isSome_some, if_true] at hs'
        simpa only [Undiscovered, hphase] using hs'
    · intro hfailed
      cases hphase : a.state.phase with
      | none => simp
      | some => simpa [hphase] using hfailed
  · have hnone : (a.entries.filter fun e => e.generationId = generation) = [] := by
      rw [List.filter_eq_nil_iff]
      intro e he heq
      have hgeneration := h.generation e he
      rw [of_decide_eq_true heq] at hgeneration
      exact hsame hgeneration
    simp only [hnone, ImportState.start, if_neg hsame]
    refine ⟨?_, fun heq => absurd heq.symm hsame, fun _ => by decide⟩
    refine ⟨nofun, rfl, Nat.zero_le _, ?_, fun _ => ⟨rfl, rfl, rfl, rfl⟩, fun _ => ⟨rfl, rfl⟩⟩
    exact ⟨Nat.zero_le _, Nat.le_refl _, Nat.zero_le _, Nat.le_refl _, Nat.le_refl _⟩

theorem activate_spec (h : ProgressSound a.entries a.state) (generationId : String)
    (complete : Bool) :
    ProgressSound (activateExistingGmailProgressiveSync a generationId complete).entries
        (activateExistingGmailProgressiveSync a generationId complete).state ∧
      (activateExistingGmailProgressiveSync a generationId complete = a ∨
        (activateExistingGmailProgressiveSync a generationId complete).state.syncGeneration ≠
            a.state.syncGeneration ∧
          (activateExistingGmailProgressiveSync a generationId complete).state.phase ≠
            some .failed) := by
  unfold activateExistingGmailProgressiveSync
  dsimp only
  set generation := Text.strip generationId
  split
  · exact ⟨h, Or.inl rfl⟩
  rename_i hguard
  simp only [Bool.or_eq_true, not_or, Bool.not_eq_true, Option.isSome_eq_false_iff,
    Option.isNone_iff_eq_none] at hguard
  obtain ⟨⟨-, hgeneration⟩, -⟩ := hguard
  have hnil : a.entries = [] := by
    rw [List.eq_nil_iff_forall_not_mem]
    intro e he
    have heq := h.generation e he
    rw [hgeneration] at heq
    cases heq
  rw [hnil, insertEntries_nil]
  set rows := activatedEntries a.messages generation
  have htarget : targetCount rows generation ≤ rows.length := List.countP_le_length
  have hlength : rows.length ≤ 100 := by
    simp only [rows, activatedEntries, List.length_mapIdx]
    exact List.length_take_le 100 _
  refine ⟨⟨?_, positions_mapIdx (fun _ _ => rfl) _, hlength, ?_, ?_, ?_⟩, Or.inr ⟨?_, ?_⟩⟩
  · intro e he
    obtain ⟨position, hlt, rfl⟩ := List.mem_mapIdx.1 he
    rfl
  · exact ⟨Nat.le_trans htarget hlength, Nat.le_refl _, Nat.min_le_left _ _, Nat.min_le_left _ _,
      Nat.min_le_left _ _⟩
  · intro hempty
    have hrows : rows = [] := hempty
    rw [hrows]
    exact ⟨rfl, rfl, rfl, rfl⟩
  · intro hs'
    exact absurd (undiscovered_ite (undiscovered_ite hs' (by decide)) (by decide))
      (not_phaseUndiscovered (by decide))
  · rw [hgeneration]
    exact nofun
  · intro hs'
    exact absurd (failed_ite (failed_ite hs' (by decide)) (by decide)) (by decide)

end Transactions

/-! ## Steps and runs -/

theorem sound_empty : ProgressSound Account.empty.entries Account.empty.state :=
  ⟨nofun, rfl, Nat.zero_le _,
    ⟨Nat.zero_le _, Nat.le_refl _, Nat.zero_le _, Nat.le_refl _, Nat.le_refl _⟩,
    fun _ => ⟨rfl, rfl, rfl, rfl⟩, fun _ => ⟨rfl, rfl⟩⟩

/-- The calls that neither discover the window, nor change the generation, nor mark an
error. -/
def isPlain : Call → Bool
  | .importError => false
  | .activate _ _ => false
  | .startProgress _ => false
  | .initializeWindow _ _ _ => false
  | _ => true

variable {call : Call}

section

variable (h : ProgressSound a.entries a.state)
include h

theorem step_advances (hplain : isPlain call = true) :
    Advances a (step a call) := by
  cases call with
  | upsert records =>
    have hbegin : Advances a a.begin := .of_eq h rfl rfl
    exact hbegin.trans (advances_upsertOnConnection hbegin.sound records)
  | updateBodies records => exact advances_updateGmailMessageBodies h records
  | markBodyState messageIds status => exact advances_markBodyState h messageIds status
  | markBodyComplete =>
    have hbegin : Advances a a.begin := .of_eq h rfl rfl
    exact hbegin.trans (advances_bodyProgress hbegin.sound)
  | delete messageIds => exact advances_delete h messageIds
  | importStarted => exact advances_importStarted h
  | importCompleted firstBatch backfillCursor backfillCompleted =>
    exact advances_importCompleted h firstBatch backfillCursor backfillCompleted
  | deltaCompleted => exact advances_deltaCompleted h
  | importError | activate | startProgress | initializeWindow => cases hplain
  | commitBatch generation threadIds records terminalMissing =>
    exact advances_commitBatch h generation threadIds records terminalMissing
  | startReconciliation generation initialCursor =>
    exact advances_startReconciliation h generation initialCursor
  | recordPage generation expected next messageIds =>
    exact advances_recordPage h generation expected next messageIds
  | recordSeen generation messageIds => exact advances_recordSeen h generation messageIds
  | commitPage generation expected next records conversationCount estimated =>
    exact advances_commitPage h generation expected next records conversationCount estimated
  | finalize generation final => exact advances_finalize h generation final
  | reset generation => exact advances_reset h generation

theorem step_sound (call : Call) :
    ProgressSound (step a call).entries (step a call).state := by
  by_cases hplain : isPlain call = true
  · exact (step_advances h hplain).sound
  cases call with
  | importError =>
    refine h.of_phase rfl rfl rfl ?_
    intro hs'
    exact undiscovered_ite hs' (by decide)
  | activate generation complete => exact (activate_spec h generation complete).1
  | startProgress generation => exact (startProgress_spec h generation).1
  | initializeWindow generation threadIds estimated =>
    exact (initializeWindow_spec h generation threadIds estimated).1
  | _ => exact absurd rfl hplain

/-- Unless the import has failed, every call keeps the progress of its generation, and
only an error marks it failed. -/
theorem step_kept (hfailed : a.state.phase ≠ some .failed)
    (hcall : call ≠ .importError) :
    ProgressKept a call ∧ (step a call).state.phase ≠ some .failed := by
  by_cases hplain : isPlain call = true
  · have hadvances := step_advances h hplain
    exact ⟨fun _ => hadvances.progress, fun hs' => hfailed (hadvances.failed hs')⟩
  cases call with
  | importError => exact absurd rfl hcall
  | activate generation complete =>
    rcases (activate_spec h generation complete).2 with heq | ⟨hne, hphase⟩
    · have hstep : step a (.activate generation complete) = a := heq
      unfold ProgressKept
      rw [hstep]
      exact ⟨fun _ => .refl _, hfailed⟩
    · exact ⟨fun heq => absurd heq hne, hphase⟩
  | startProgress generation =>
    obtain ⟨-, hsame, hother⟩ := startProgress_spec h generation
    refine ⟨fun heq => (hsame heq).1, ?_⟩
    by_cases heq : (startGmailSyncProgress a generation).state.syncGeneration =
        a.state.syncGeneration
    · exact (hsame heq).2 hfailed
    · exact hother heq
  | initializeWindow generation threadIds estimated =>
    obtain ⟨-, -, hkept⟩ := initializeWindow_spec h generation threadIds estimated
    exact ⟨fun _ => (hkept hfailed).1, (hkept hfailed).2⟩
  | _ => exact absurd rfl hplain

theorem fresh_not_failed (hfresh : (step a call).state.syncGeneration ≠ a.state.syncGeneration) :
    (step a call).state.phase ≠ some .failed := by
  by_cases hplain : isPlain call = true
  · exact absurd (step_advances h hplain).generation hfresh
  cases call with
  | importError => exact absurd rfl hfresh
  | activate generation complete =>
    rcases (activate_spec h generation complete).2 with heq | ⟨-, hphase⟩
    · exact absurd (congrArg (fun x : Account => x.state.syncGeneration) heq) hfresh
    · exact hphase
  | startProgress generation => exact (startProgress_spec h generation).2.2 hfresh
  | initializeWindow generation threadIds estimated =>
    exact absurd (initializeWindow_spec h generation threadIds estimated).2.1 hfresh
  | _ => exact absurd rfl hplain

end

/-- **Bounded.** Every state of every run is sound, so its counters are within their
bounds. -/
theorem throughout_sound (run : List Call) :
    Throughout step (fun a => ProgressSound a.entries a.state) Account.empty run :=
  throughout_of_step (fun _ call h _ => step_sound h call) sound_empty
    (along_of_forall (fun _ _ => trivial) _ _)

/-- **Monotone and bounded.** After any run, a call that begins a generation is followed
by any calls but import errors: each of them that stays in its generation keeps every
counter and both flags of the metadata, and every state of the whole run is within the
bounds. -/
theorem progress_monotone_bounded (earlier : List Call) (first : Call) (later : List Call)
    (hfresh : (step (after step Account.empty earlier) first).state.syncGeneration ≠
      (after step Account.empty earlier).state.syncGeneration)
    (hlater : ∀ call ∈ later, call ≠ .importError) :
    Along step ProgressKept (step (after step Account.empty earlier) first) later ∧
      Throughout step (fun a => Bounded a.state.counters) Account.empty
        (earlier ++ first :: later) := by
  have hsound : ProgressSound (after step Account.empty earlier).entries
      (after step Account.empty earlier).state := (throughout_sound earlier).last
  refine ⟨?_, (throughout_sound _).mono fun _ h => h.bounded⟩
  have hstart : ProgressSound (step (after step Account.empty earlier) first).entries
      (step (after step Account.empty earlier) first).state := step_sound hsound first
  have hphase := fresh_not_failed hsound hfresh
  generalize step (after step Account.empty earlier) first = a at hstart hphase
  clear hfresh hsound
  induction later generalizing a with
  | nil => trivial
  | cons call later ih =>
    obtain ⟨hkept, hnext⟩ := step_kept hstart hphase (hlater call List.mem_cons_self)
    refine ⟨hkept, ih ?_ _ (step_sound hstart call) hnext⟩
    intro call' hmem
    exact hlater call' (List.mem_cons_of_mem call hmem)

/-- The first calls of a progressive import: the window of two threads is discovered, one
batch brings the first thread, a deletion resolves the second, and the first body
arrives. -/
def bootstrapCalls : List Call :=
  [.initializeWindow "g1" ["t1", "t2"] 2,
    .commitBatch "g1" ["t1", "t2"]
      [⟨"m1", some "t1", some 5, some 10, .missing⟩, ⟨"m2", some "t2", some 6, some 20, .missing⟩]
      [],
    .delete ["m2"],
    .updateBodies [⟨"m1", some "t1", some 5, some 10, .fetched⟩]]

theorem progress_monotone_bounded_bootstrap :
    Along step ProgressKept
        (step (after step Account.empty [.startReconciliation "g1" "c1"]) (.startProgress "g1"))
        bootstrapCalls ∧
      Throughout step (fun a => Bounded a.state.counters) Account.empty
        ([.startReconciliation "g1" "c1"] ++ .startProgress "g1" :: bootstrapCalls) :=
  progress_monotone_bounded [.startReconciliation "g1" "c1"] (.startProgress "g1") bootstrapCalls
    (by decide) (by decide)

end ElectronicMail.Progress
