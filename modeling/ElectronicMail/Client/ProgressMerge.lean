import ElectronicMail.Foundations.Newest
import Mathlib.Data.List.Nodup

/-!
# Progress that several endpoints report

The client hears of the progress of an import from several endpoints, and merges what it has heard,
earlier results of merging included. The newest report decides on the generation, and the reports
of that generation bring their counters. `newestMerged_join` says that this is a join: nothing that
has been counted is lost, and neither the order of the reports nor the grouping matters.
-/

namespace ElectronicMail.Client

open Foundations.Newest

/-! ## The reports -/

/-- `MailboxSyncProgress`. -/
@[ext] structure MailboxSyncProgress where
  syncGeneration : Option String := none
  phase : Option String := none
  initialTargetCount : Option Int := none
  initialMetadataCount : Option Int := none
  initialBodyTargetCount : Option Int := none
  initialBodyReadyCount : Option Int := none
  historyMetadataCount : Option Int := none
  historyBodyReadyCount : Option Int := none
  estimatedTotalCount : Option Int := none
  initialWindowComplete : Option Bool := none
  historyMetadataComplete : Option Bool := none
  historyBodyComplete : Option Bool := none
  lastProgressAt : Option String := none
  deriving DecidableEq

namespace MailboxSyncProgress

def hasReportedProgress (p : MailboxSyncProgress) : Bool :=
  p.syncGeneration.isSome || p.phase.isSome || p.initialTargetCount.isSome ||
    p.initialMetadataCount.isSome || p.initialBodyTargetCount.isSome ||
    p.initialBodyReadyCount.isSome || p.historyMetadataCount.isSome ||
    p.historyBodyReadyCount.isSome || p.estimatedTotalCount.isSome ||
    p.initialWindowComplete.isSome || p.historyMetadataComplete.isSome ||
    p.historyBodyComplete.isSome || p.lastProgressAt.isSome

def counters : List (MailboxSyncProgress → Option Int) :=
  [initialTargetCount, initialMetadataCount, initialBodyTargetCount, initialBodyReadyCount,
    historyMetadataCount, historyBodyReadyCount, estimatedTotalCount]

def completions : List (MailboxSyncProgress → Option Bool) :=
  [initialWindowComplete, historyMetadataComplete, historyBodyComplete]

def monotonicCompletion (values : List (Option Bool)) : Option Bool :=
  if values.contains (some true) then some true
  else if values.contains (some false) then some false else none

section Merging

-- `fractional` and `plain` are the two formatters of `progressDate`.
variable {δ : Type} [LinearOrder δ] (fractional plain : String → Option δ)

def progressDate (value : Option String) : Option δ :=
  value.bind fun value => (fractional value).or (plain value)

/-- `isNewer`, of reports with their offsets. -/
def isNewer (lhs rhs : MailboxSyncProgress × Nat) : Bool :=
  match progressDate fractional plain lhs.1.lastProgressAt,
      progressDate fractional plain rhs.1.lastProgressAt with
  | some lhsDate, some rhsDate => if lhsDate = rhsDate then rhs.2 < lhs.2 else rhsDate < lhsDate
  | some _, none => true
  | none, some _ => false
  | none, none => rhs.2 < lhs.2

/-- The value that `newestMerged` returns. -/
def merged (newest : MailboxSyncProgress) (compatible : List MailboxSyncProgress) :
    MailboxSyncProgress where
  syncGeneration := newest.syncGeneration
  phase := newest.phase
  initialTargetCount := (compatible.filterMap initialTargetCount).max?
  initialMetadataCount := (compatible.filterMap initialMetadataCount).max?
  initialBodyTargetCount := (compatible.filterMap initialBodyTargetCount).max?
  initialBodyReadyCount := (compatible.filterMap initialBodyReadyCount).max?
  historyMetadataCount := (compatible.filterMap historyMetadataCount).max?
  historyBodyReadyCount := (compatible.filterMap historyBodyReadyCount).max?
  estimatedTotalCount := (compatible.filterMap estimatedTotalCount).max?
  initialWindowComplete := monotonicCompletion (compatible.map initialWindowComplete)
  historyMetadataComplete := monotonicCompletion (compatible.map historyMetadataComplete)
  historyBodyComplete := monotonicCompletion (compatible.map historyBodyComplete)
  lastProgressAt := newest.lastProgressAt

def newestMerged (candidates : List MailboxSyncProgress) : MailboxSyncProgress :=
  let reported := candidates.zipIdx.filter fun candidate => candidate.1.hasReportedProgress
  match reported with
  | [] => {}
  | first :: rest =>
    let newest := rest.foldl (fun newest candidate =>
      if isNewer fractional plain candidate newest then candidate else newest) first
    merged newest.1 ((reported.map Prod.fst).filter fun candidate =>
      candidate.syncGeneration = newest.1.syncGeneration)

/-! ## What is expected of merging -/

def dateKey (p : MailboxSyncProgress) : WithBot δ :=
  match progressDate fractional plain p.lastProgressAt with
  | some date => date
  | none => ⊥

def reports (candidates : List MailboxSyncProgress) : List MailboxSyncProgress :=
  candidates.filter hasReportedProgress

def IsNewest (candidates : List MailboxSyncProgress) (p : MailboxSyncProgress) : Prop :=
  ∃ before behind, reports candidates = before ++ p :: behind ∧
    (∀ q ∈ before, dateKey fractional plain q ≤ dateKey fractional plain p) ∧
    ∀ q ∈ behind, dateKey fractional plain q < dateKey fractional plain p

def NotLower {τ : Type} [LE τ] (value other : Option τ) : Prop := ∀ v ∈ value, ∃ w ∈ other, v ≤ w

end Merging

/-! ## The fields of a merged value -/

theorem monotonicCompletion_eq (values : List (Option Bool)) :
    monotonicCompletion values = (values.filterMap id).max? := by
  have hmem (b : Bool) : b ∈ values.filterMap id ↔ some b ∈ values := by simp
  unfold monotonicCompletion
  split
  · next htrue =>
    have htrue := (hmem true).2 (by simpa using htrue)
    exact (List.max?_eq_some_iff.2 ⟨htrue, fun b _ => Bool.le_true b⟩).symm
  next htrue =>
  have hnot : true ∉ values.filterMap id := fun hin => htrue (by simpa using (hmem true).1 hin)
  split
  · next hfalse =>
    have hfalse := (hmem false).2 (by simpa using hfalse)
    refine (List.max?_eq_some_iff.2 ⟨hfalse, fun b hb => ?_⟩).symm
    cases b with
    | false => exact le_refl _
    | true => exact absurd hb hnot
  · next hfalse =>
    refine (List.max?_eq_none_iff.2 (List.eq_nil_iff_forall_not_mem.2 fun b hb => ?_)).symm
    cases b with
    | false => exact hfalse (by simpa using (hmem false).1 hb)
    | true => exact hnot hb

theorem counter_merged {f : MailboxSyncProgress → Option Int} (hf : f ∈ counters)
    (p : MailboxSyncProgress) (l : List MailboxSyncProgress) :
    f (merged p l) = (l.filterMap f).max? := by
  simp only [counters, List.mem_cons, List.not_mem_nil, or_false] at hf
  rcases hf with rfl | rfl | rfl | rfl | rfl | rfl | rfl <;> rfl

theorem completion_merged {f : MailboxSyncProgress → Option Bool} (hf : f ∈ completions)
    (p : MailboxSyncProgress) (l : List MailboxSyncProgress) :
    f (merged p l) = (l.filterMap f).max? := by
  have hmap : (l.map f).filterMap id = l.filterMap f := by
    rw [List.filterMap_map]
    rfl
  rw [← hmap, ← monotonicCompletion_eq]
  simp only [completions, List.mem_cons, List.not_mem_nil, or_false] at hf
  rcases hf with rfl | rfl | rfl <;> rfl

theorem reported_of_counter {f : MailboxSyncProgress → Option Int} (hf : f ∈ counters)
    {p : MailboxSyncProgress} {v : Int} (hv : f p = some v) : p.hasReportedProgress = true := by
  simp only [counters, List.mem_cons, List.not_mem_nil, or_false] at hf
  rcases hf with rfl | rfl | rfl | rfl | rfl | rfl | rfl <;> simp [hasReportedProgress, hv]

theorem reported_of_completion {f : MailboxSyncProgress → Option Bool} (hf : f ∈ completions)
    {p : MailboxSyncProgress} {v : Bool} (hv : f p = some v) : p.hasReportedProgress = true := by
  simp only [completions, List.mem_cons, List.not_mem_nil, or_false] at hf
  rcases hf with rfl | rfl | rfl <;> simp [hasReportedProgress, hv]

theorem eq_of_fields {p q : MailboxSyncProgress} (hgeneration : p.syncGeneration = q.syncGeneration)
    (hphase : p.phase = q.phase) (hdate : p.lastProgressAt = q.lastProgressAt)
    (hcounters : ∀ f ∈ counters, f p = f q) (hcompletions : ∀ f ∈ completions, f p = f q) :
    p = q := by
  simp only [counters, completions, List.forall_mem_cons, List.not_mem_nil] at hcounters hcompletions
  ext1 <;> simp_all only

section Runs

variable {δ : Type} [LinearOrder δ] {fractional plain : String → Option δ}

/-! ## The loop -/

theorem isNewer_iff {candidate newest : MailboxSyncProgress × Nat} (h : newest.2 < candidate.2) :
    isNewer fractional plain candidate newest = true ↔
      dateKey fractional plain newest.1 ≤ dateKey fractional plain candidate.1 := by
  unfold isNewer dateKey
  cases progressDate fractional plain candidate.1.lastProgressAt with
  | none => cases progressDate fractional plain newest.1.lastProgressAt <;> simp [h]
  | some date =>
    cases progressDate fractional plain newest.1.lastProgressAt with
    | none => simp
    | some newestDate =>
      rcases eq_or_ne date newestDate with rfl | hne
      · simp [h]
      · simp [hne, le_iff_lt_or_eq, hne.symm]

theorem loop_eq (rest : List (MailboxSyncProgress × Nat)) (first : MailboxSyncProgress × Nat)
    (h : (first :: rest).Pairwise fun a b => a.2 < b.2) :
    (rest.foldl (fun newest candidate =>
        if isNewer fractional plain candidate newest then candidate else newest) first).1 =
      (rest.map Prod.fst).foldl (latest (dateKey fractional plain)) first.1 := by
  induction rest generalizing first with
  | nil => rfl
  | cons candidate rest ih =>
    obtain ⟨hfirst, hrest⟩ := List.pairwise_cons.1 h
    have hnewer := @isNewer_iff _ _ fractional plain _ _
      (hfirst candidate List.mem_cons_self)
    rw [List.foldl_cons, List.map_cons, List.foldl_cons, latest]
    by_cases hle : dateKey fractional plain first.1 ≤ dateKey fractional plain candidate.1
    · rw [if_pos hle, if_pos (hnewer.2 hle)]
      exact ih candidate hrest
    · rw [if_neg hle, if_neg fun hn => hle (hnewer.1 hn)]
      refine ih first (List.pairwise_cons.2 ⟨fun b hb => ?_, (List.pairwise_cons.1 hrest).2⟩)
      exact hfirst b (List.mem_cons_of_mem _ hb)

variable (fractional plain) in
def newestOf : List MailboxSyncProgress → Option MailboxSyncProgress
  | [] => none
  | first :: rest => some (rest.foldl (latest (dateKey fractional plain)) first)

variable (fractional plain) in
theorem newestMerged_eq (candidates : List MailboxSyncProgress) :
    newestMerged fractional plain candidates =
      match newestOf fractional plain (reports candidates) with
      | none => {}
      | some newest => merged newest ((reports candidates).filter fun candidate =>
          candidate.syncGeneration = newest.syncGeneration) := by
  have hreports : (candidates.zipIdx.filter fun candidate => candidate.1.hasReportedProgress).map
      Prod.fst = reports candidates := by
    have hfst : candidates.zipIdx.map Prod.fst = candidates := List.zipIdx_map_fst 0 candidates
    rw [reports, ← congrArg (List.filter hasReportedProgress) hfst, List.filter_map]
    rfl
  have hoffsets : (candidates.zipIdx.filter fun candidate =>
      candidate.1.hasReportedProgress).Pairwise fun a b => a.2 < b.2 := by
    have hrange : (candidates.zipIdx.map Prod.snd).Pairwise (· < ·) := by
      rw [List.zipIdx_map_snd]
      exact List.pairwise_lt_range'
    exact (List.pairwise_map.1 hrange).filter _
  unfold newestMerged
  dsimp only
  cases hzip : candidates.zipIdx.filter fun candidate => candidate.1.hasReportedProgress with
  | nil =>
    rw [hzip] at hreports
    rw [← hreports]
    rfl
  | cons first rest =>
    rw [hzip] at hreports hoffsets
    rw [← hreports]
    dsimp only
    rw [loop_eq rest first hoffsets]
    rfl

variable {xs ys : List MailboxSyncProgress} {newest : MailboxSyncProgress}

theorem newestOf_cons (first : MailboxSyncProgress) (rest : List MailboxSyncProgress) :
    newestOf fractional plain (first :: rest) =
      some (rest.foldl (latest (dateKey fractional plain)) first) := rfl

theorem newestOf_append (h : newestOf fractional plain xs = some newest) :
    newestOf fractional plain (xs ++ ys) = newestOf fractional plain (newest :: ys) := by
  cases xs with
  | nil => cases h
  | cons first rest =>
    rw [newestOf_cons, Option.some.injEq] at h
    rw [List.cons_append, newestOf_cons, newestOf_cons, List.foldl_append, h]

theorem newestOf_mem (h : newestOf fractional plain xs = some newest) : newest ∈ xs := by
  cases xs with
  | nil => cases h
  | cons first rest =>
    rw [newestOf_cons, Option.some.injEq] at h
    exact h ▸ foldl_latest_mem first rest

theorem le_newestOf (h : newestOf fractional plain xs = some newest) {p : MailboxSyncProgress}
    (hp : p ∈ xs) : dateKey fractional plain p ≤ dateKey fractional plain newest := by
  cases xs with
  | nil => cases h
  | cons first rest =>
    rw [newestOf_cons, Option.some.injEq] at h
    exact h ▸ le_foldl_latest hp

theorem newestOf_perm (h : xs.Perm ys) (hdates : (xs.map (dateKey fractional plain)).Nodup) :
    newestOf fractional plain ys = newestOf fractional plain xs := by
  cases hx : newestOf fractional plain xs with
  | none =>
    cases xs with
    | nil => rw [List.nil_perm.1 h]; rfl
    | cons first rest => cases hx
  | some newest =>
    cases hy : newestOf fractional plain ys with
    | none =>
      cases ys with
      | nil => exact absurd (h.mem_iff.1 (newestOf_mem hx)) List.not_mem_nil
      | cons first rest => cases hy
    | some newest' =>
      have hmem : newest' ∈ xs := h.mem_iff.2 (newestOf_mem hy)
      have hle := le_newestOf hx hmem
      have hge := le_newestOf hy (h.mem_iff.1 (newestOf_mem hx))
      rw [List.inj_on_of_nodup_map hdates hmem (newestOf_mem hx) (le_antisymm hle hge)]

/-! ## Merging again -/

theorem max?_filterMap_perm {τ : Type} [LinearOrder τ] (f : MailboxSyncProgress → Option τ)
    (h : xs.Perm ys) : (ys.filterMap f).max? = (xs.filterMap f).max? :=
  max?_congr (fun v hv => ⟨v, (h.filterMap f).mem_iff.2 hv, le_refl v⟩)
    fun v hv => ⟨v, (h.filterMap f).mem_iff.1 hv, le_refl v⟩

theorem max?_filterMap_again {τ : Type} [LinearOrder τ] {f : MailboxSyncProgress → Option τ}
    {p : MailboxSyncProgress} (h : f p = (xs.filterMap f).max?) :
    ((p :: ys).filterMap f).max? = ((xs ++ ys).filterMap f).max? := by
  rw [List.filterMap_append]
  apply max?_congr
  · intro v hv
    obtain ⟨q, hq, hfq⟩ := List.mem_filterMap.1 hv
    rcases List.mem_cons.1 hq with rfl | hq
    · have hmax := List.max?_eq_some_iff.1 (h.symm.trans hfq)
      exact ⟨v, List.mem_append_left _ hmax.1, le_refl v⟩
    · exact ⟨v, List.mem_append_right _ (List.mem_filterMap.2 ⟨q, hq, hfq⟩), le_refl v⟩
  · intro v hv
    rcases List.mem_append.1 hv with hv | hv
    · cases hp : f p with
      | none =>
        rw [hp] at h
        rw [List.max?_eq_none_iff.1 h.symm] at hv
        cases hv
      | some w =>
        have hmax := List.max?_eq_some_iff.1 (h.symm.trans hp)
        exact ⟨w, List.mem_filterMap.2 ⟨p, List.mem_cons_self, hp⟩, hmax.2 v hv⟩
    · obtain ⟨q, hq, hfq⟩ := List.mem_filterMap.1 hv
      exact ⟨v, List.mem_filterMap.2 ⟨q, List.mem_cons_of_mem _ hq, hfq⟩, le_refl v⟩

theorem notLower_of_max {τ : Type} [LinearOrder τ] {f : MailboxSyncProgress → Option τ}
    {p q : MailboxSyncProgress} (hq : q ∈ xs) (h : f p = (xs.filterMap f).max?) :
    NotLower (f q) (f p) := by
  intro v hv
  have hin : v ∈ xs.filterMap f := List.mem_filterMap.2 ⟨q, hq, hv⟩
  cases hp : f p with
  | none =>
    rw [hp] at h
    rw [List.max?_eq_none_iff.1 h.symm] at hin
    cases hin
  | some w => exact ⟨w, rfl, (List.max?_eq_some_iff.1 (h.symm.trans hp)).2 v hin⟩

theorem reported_merged (hnewest : newest.hasReportedProgress = true) (hmem : newest ∈ xs) :
    (merged newest xs).hasReportedProgress = true := by
  by_cases hcounter : ∃ f ∈ counters, ∃ v, f newest = some v
  · obtain ⟨f, hf, v, hv⟩ := hcounter
    obtain ⟨w, hw, -⟩ := notLower_of_max hmem (counter_merged hf newest xs) v hv
    exact reported_of_counter hf hw
  by_cases hcompletion : ∃ f ∈ completions, ∃ v, f newest = some v
  · obtain ⟨f, hf, v, hv⟩ := hcompletion
    obtain ⟨w, hw, -⟩ := notLower_of_max hmem (completion_merged hf newest xs) v hv
    exact reported_of_completion hf hw
  -- Else it is the generation, the phase or the date that is reported.
  have hnone (f) (hf : f ∈ counters) : f newest = none :=
    Option.eq_none_iff_forall_ne_some.2 fun v hv => hcounter ⟨f, hf, v, hv⟩
  have hnone' (f) (hf : f ∈ completions) : f newest = none :=
    Option.eq_none_iff_forall_ne_some.2 fun v hv => hcompletion ⟨f, hf, v, hv⟩
  simp only [counters, completions, List.forall_mem_cons] at hnone hnone'
  simp only [hasReportedProgress, hnone, hnone', Option.isSome_none, Bool.or_false,
    Bool.or_eq_true] at hnewest
  simp only [hasReportedProgress, merged, Bool.or_eq_true]
  tauto

theorem newestMerged_again (hnewest : newestOf fractional plain (reports xs) = some newest)
    (hys : ∀ q ∈ reports ys, q.syncGeneration = (newestMerged fractional plain xs).syncGeneration) :
    newestMerged fractional plain (newestMerged fractional plain xs :: ys) =
      newestMerged fractional plain (xs ++ ys) := by
  have hmem := newestOf_mem hnewest
  have hmerged : newestMerged fractional plain xs = merged newest ((reports xs).filter
      fun candidate => candidate.syncGeneration = newest.syncGeneration) := by
    rw [newestMerged_eq, hnewest]
  rw [hmerged] at hys ⊢
  generalize hl : (reports xs).filter (fun candidate =>
    candidate.syncGeneration = newest.syncGeneration) = l at hys ⊢
  have hin : newest ∈ l := hl ▸ List.mem_filter.2 ⟨hmem, decide_eq_true rfl⟩
  have hreport := reported_merged (List.mem_filter.1 hmem).2 hin
  have hgeneration : ∀ q ∈ merged newest l :: reports ys,
      q.syncGeneration = newest.syncGeneration := by
    intro q hq
    rcases List.mem_cons.1 hq with rfl | hq
    · rfl
    · exact hys q hq
  have hkept : (reports ys).filter (fun candidate =>
      candidate.syncGeneration = newest.syncGeneration) = reports ys :=
    List.filter_eq_self.2 fun q hq => decide_eq_true (hys q hq)
  have hcons : reports (merged newest l :: ys) = merged newest l :: reports ys :=
    List.filter_cons_of_pos hreport
  have happend : reports (xs ++ ys) = reports xs ++ reports ys := List.filter_append ..
  rw [newestMerged_eq, newestMerged_eq fractional plain (xs ++ ys), hcons, happend,
    newestOf_append hnewest, newestOf_cons, newestOf_cons]
  have hkey : dateKey fractional plain (merged newest l) = dateKey fractional plain newest := rfl
  -- The two loops end with the same report, or with the two values that they start from.
  obtain ⟨p, q, hp, hq, hpq, hpg, hpphase, hpdate⟩ : ∃ p q,
      (reports ys).foldl (latest (dateKey fractional plain)) (merged newest l) = p ∧
      (reports ys).foldl (latest (dateKey fractional plain)) newest = q ∧
      p.syncGeneration = q.syncGeneration ∧ p.syncGeneration = newest.syncGeneration ∧
      p.phase = q.phase ∧ p.lastProgressAt = q.lastProgressAt := by
    rcases foldl_latest_congr hkey (reports ys) with ⟨hp, hq⟩ | heq
    · exact ⟨_, _, hp, hq, rfl, rfl, rfl, rfl⟩
    · exact ⟨_, _, rfl, heq.symm, rfl, hgeneration _ (foldl_latest_mem _ _), rfl, rfl⟩
  rw [hp, hq]
  dsimp only
  rw [← hpq, hpg, List.filter_append, hl, List.filter_eq_self.2 (by simpa using hgeneration),
    hkept]
  refine eq_of_fields hpq hpphase hpdate (fun f hf => ?_) fun f hf => ?_
  · rw [counter_merged hf, counter_merged hf, max?_filterMap_again (counter_merged hf newest l)]
  · rw [completion_merged hf, completion_merged hf,
      max?_filterMap_again (completion_merged hf newest l)]

end Runs

section Join

variable {δ : Type} [LinearOrder δ] (fractional plain : String → Option δ)

theorem newest_taken {xs : List MailboxSyncProgress} {p : MailboxSyncProgress} (hp : p ∈ xs)
    (hreported : p.hasReportedProgress = true) :
    ∃ newest, IsNewest fractional plain xs newest ∧
      newestMerged fractional plain xs = merged newest ((reports xs).filter fun candidate =>
        candidate.syncGeneration = newest.syncGeneration) := by
  have hin : p ∈ reports xs := List.mem_filter.2 ⟨hp, hreported⟩
  rw [newestMerged_eq]
  unfold IsNewest
  cases hxs : reports xs with
  | nil =>
    rw [hxs] at hin
    cases hin
  | cons first rest => exact ⟨_, foldl_latest_split _ first rest, rfl⟩

/-- **Merging progress is a join.** The newest report decides on the generation, the phase and the
date; no counter and no completion of that generation is lost; the order of reports with different
dates does not matter; and results may be merged again with reports of their generation. -/
theorem newestMerged_join (xs : List MailboxSyncProgress) :
    (∀ p ∈ xs, p.hasReportedProgress = true → ∃ newest, IsNewest fractional plain xs newest ∧
      (newestMerged fractional plain xs).syncGeneration = newest.syncGeneration ∧
      (newestMerged fractional plain xs).phase = newest.phase ∧
      (newestMerged fractional plain xs).lastProgressAt = newest.lastProgressAt) ∧
    (∀ p ∈ xs, p.syncGeneration = (newestMerged fractional plain xs).syncGeneration →
      (∀ f ∈ counters, NotLower (f p) (f (newestMerged fractional plain xs))) ∧
      ∀ f ∈ completions, NotLower (f p) (f (newestMerged fractional plain xs))) ∧
    (∀ ys, xs.Perm ys → ((reports xs).map (dateKey fractional plain)).Nodup →
      newestMerged fractional plain ys = newestMerged fractional plain xs) ∧
    ∀ ys, (∀ q ∈ reports ys,
        q.syncGeneration = (newestMerged fractional plain xs).syncGeneration) →
      newestMerged fractional plain (newestMerged fractional plain xs :: ys) =
        newestMerged fractional plain (xs ++ ys) := by
  refine ⟨fun p hp hreported => ?_, fun p hp hgeneration => ?_, fun ys hperm hdates => ?_,
    fun ys hys => ?_⟩
  · obtain ⟨newest, hnewest, heq⟩ := newest_taken fractional plain hp hreported
    rw [heq]
    exact ⟨newest, hnewest, rfl, rfl, rfl⟩
  · have hkept (hreported : p.hasReportedProgress = true) : ∃ newest l, p ∈ l ∧
        newestMerged fractional plain xs = merged newest l := by
      obtain ⟨newest, -, heq⟩ := newest_taken fractional plain hp hreported
      rw [heq] at hgeneration
      refine ⟨newest, _, List.mem_filter.2 ⟨List.mem_filter.2 ⟨hp, hreported⟩, ?_⟩, heq⟩
      exact decide_eq_true hgeneration
    constructor
    · intro f hf v hv
      obtain ⟨newest, l, hin, heq⟩ := hkept (reported_of_counter hf hv)
      exact notLower_of_max hin (heq ▸ counter_merged hf newest l) v hv
    · intro f hf v hv
      obtain ⟨newest, l, hin, heq⟩ := hkept (reported_of_completion hf hv)
      exact notLower_of_max hin (heq ▸ completion_merged hf newest l) v hv
  · have hreports : (reports xs).Perm (reports ys) := hperm.filter _
    rw [newestMerged_eq, newestMerged_eq, newestOf_perm hreports hdates]
    cases newestOf fractional plain (reports xs) with
    | none => rfl
    | some newest =>
      have hl := hreports.filter fun candidate => candidate.syncGeneration = newest.syncGeneration
      refine eq_of_fields rfl rfl rfl (fun f hf => ?_) fun f hf => ?_
      · rw [counter_merged hf, counter_merged hf, max?_filterMap_perm f hl]
      · rw [completion_merged hf, completion_merged hf, max?_filterMap_perm f hl]
  · have happend : reports (xs ++ ys) = reports xs ++ reports ys := List.filter_append ..
    cases hnewest : newestOf fractional plain (reports xs) with
    | none =>
      have hempty : newestMerged fractional plain xs = {} := by rw [newestMerged_eq, hnewest]
      have hxs : reports xs = [] := by
        cases hxs : reports xs with
        | nil => rfl
        | cons first rest => rw [hxs] at hnewest; cases hnewest
      rw [hempty, newestMerged_eq, newestMerged_eq fractional plain (xs ++ ys), happend, hxs]
      rfl
    | some newest =>
      exact newestMerged_again hnewest hys

end Join

end MailboxSyncProgress

end ElectronicMail.Client
