import ElectronicMail.Offline.MailboxSnapshot
import Mathlib.Data.List.Perm.Subperm

/-!
# Merging snapshots of one generation

`mergedSections` keeps the first copy of every thread, and merging a snapshot again into what
has come of it changes nothing (`merge_absorbs`).
-/

namespace ElectronicMail.Offline

/-! ## The copy of a thread -/

def rowOf (rows : List GmailThreadRow) (t : Nat) : Option GmailThreadRow :=
  rows.find? fun r => r.threadId == t

def RowsDistinct (rows : List GmailThreadRow) : Prop :=
  (rows.map GmailThreadRow.threadId).Nodup

theorem rowOf_append (rows rows' : List GmailThreadRow) (t : Nat) :
    rowOf (rows ++ rows') t = (rowOf rows t).or (rowOf rows' t) := by
  simp [rowOf, List.find?_append]

variable {t : Nat}

variable {rows : List GmailThreadRow}

theorem rowOf_eq_none : rowOf rows t = none ↔ t ∉ rows.map GmailThreadRow.threadId := by
  simp [rowOf, List.find?_eq_none]

variable {r : GmailThreadRow}

theorem rowOf_mem (h : rowOf rows t = some r) : r ∈ rows ∧ r.threadId = t := by
  refine ⟨List.mem_of_find?_eq_some h, ?_⟩
  simpa using List.find?_some h

theorem rowOf_eq_some (hd : RowsDistinct rows) (hr : r ∈ rows) :
    rowOf rows r.threadId = some r := by
  induction rows with
  | nil => cases hr
  | cons a rows ih =>
    obtain ⟨hout, hd⟩ := List.nodup_cons.1 hd
    rcases List.mem_cons.1 hr with rfl | hr
    · simp [rowOf]
    have hne : a.threadId ≠ r.threadId := by
      intro heq
      exact hout (heq ▸ List.mem_map_of_mem hr)
    have hskip : rowOf (a :: rows) r.threadId = rowOf rows r.threadId := by
      simp [rowOf, hne]
    rw [hskip]
    exact ih hd hr

theorem rowOf_perm {rows' : List GmailThreadRow} (h : rows.Perm rows') (hd : RowsDistinct rows)
    (t : Nat) : rowOf rows t = rowOf rows' t := by
  have hd' : RowsDistinct rows' := (h.map _).nodup hd
  cases hrow : rowOf rows t with
  | none =>
    rw [rowOf_eq_none] at hrow
    exact (rowOf_eq_none.2 fun hin => hrow ((h.map _).mem_iff.2 hin)).symm
  | some r =>
    obtain ⟨hmem, rfl⟩ := rowOf_mem hrow
    exact (rowOf_eq_some hd' (h.mem_iff.1 hmem)).symm

theorem rowOf_filter (p : Nat → Bool) (rows : List GmailThreadRow) (t : Nat) :
    rowOf (rows.filter fun r => p r.threadId) t = if p t then rowOf rows t else none := by
  unfold rowOf
  rw [List.find?_filter]
  by_cases hp : p t = true
  · rw [if_pos hp]
    congr 1
    funext r
    by_cases ht : r.threadId = t
    · simp [ht, hp]
    · simp [ht]
  · rw [if_neg hp, List.find?_eq_none]
    intro r _ hr
    simp only [decide_eq_true_eq, beq_iff_eq] at hr
    exact hp (hr.2 ▸ hr.1)

/-! ## Rows that have not been seen -/

theorem unseenRows_append (rows rows' : List GmailThreadRow) (seen : List Nat) :
    unseenRows (rows ++ rows') seen =
      ((unseenRows rows seen).1 ++ (unseenRows rows' (unseenRows rows seen).2).1,
        (unseenRows rows' (unseenRows rows seen).2).2) := by
  induction rows generalizing seen with
  | nil => rfl
  | cons r rows ih =>
    by_cases hseen : seen.contains r.threadId = true
    · simp only [List.cons_append, unseenRows, hseen, if_true]
      exact ih seen
    · simp only [List.cons_append, unseenRows, hseen, Bool.false_eq_true, if_false]
      rw [ih]

variable {seen : List Nat}

theorem mem_seen :
    t ∈ (unseenRows rows seen).2 ↔ t ∈ seen ∨ t ∈ rows.map GmailThreadRow.threadId := by
  induction rows generalizing seen with
  | nil => simp [unseenRows]
  | cons r rows ih =>
    by_cases hseen : seen.contains r.threadId = true
    · have hin : r.threadId ∈ seen := by simpa using hseen
      simp only [unseenRows, hseen, if_true, ih, List.map_cons, List.mem_cons]
      constructor
      · rintro (h | h)
        · exact Or.inl h
        · exact Or.inr (Or.inr h)
      · rintro (h | rfl | h)
        · exact Or.inl h
        · exact Or.inl hin
        · exact Or.inr h
    · simp only [unseenRows, hseen, Bool.false_eq_true, if_false, ih, List.map_cons, List.mem_cons]
      tauto

theorem mem_unseenRows (h : r ∈ (unseenRows rows seen).1) : r ∈ rows ∧ r.threadId ∉ seen := by
  induction rows generalizing seen with
  | nil => cases h
  | cons a rows ih =>
    by_cases hseen : seen.contains a.threadId = true
    · simp only [unseenRows, hseen, if_true] at h
      obtain ⟨hr, hout⟩ := ih h
      exact ⟨List.mem_cons_of_mem a hr, hout⟩
    · simp only [unseenRows, hseen, Bool.false_eq_true, if_false] at h
      rcases List.mem_cons.1 h with rfl | h
      · exact ⟨List.mem_cons_self, by simpa using hseen⟩
      · obtain ⟨hr, hout⟩ := ih h
        exact ⟨List.mem_cons_of_mem a hr, fun hin => hout (List.mem_cons_of_mem _ hin)⟩

theorem unseenRows_distinct (rows : List GmailThreadRow) (seen : List Nat) :
    RowsDistinct (unseenRows rows seen).1 := by
  induction rows generalizing seen with
  | nil => exact List.nodup_nil
  | cons r rows ih =>
    by_cases hseen : seen.contains r.threadId = true
    · simp only [unseenRows, hseen, if_true]
      exact ih seen
    · simp only [unseenRows, hseen, Bool.false_eq_true, if_false]
      refine List.nodup_cons.2 ⟨?_, ih _⟩
      intro hin
      obtain ⟨r', hr', heq⟩ := List.mem_map.1 hin
      exact (mem_unseenRows hr').2 (heq ▸ List.mem_cons_self)

theorem rowOf_unseenRows (rows : List GmailThreadRow) (seen : List Nat) (t : Nat) :
    rowOf (unseenRows rows seen).1 t = if t ∈ seen then none else rowOf rows t := by
  induction rows generalizing seen with
  | nil => simp [unseenRows, rowOf]
  | cons r rows ih =>
    by_cases hseen : seen.contains r.threadId = true
    · have hin : r.threadId ∈ seen := by simpa using hseen
      simp only [unseenRows, hseen, if_true, ih]
      by_cases ht : t ∈ seen
      · simp [ht]
      · have hne : r.threadId ≠ t := fun heq => ht (heq ▸ hin)
        simp [ht, rowOf, hne]
    · have hout : r.threadId ∉ seen := by simpa using hseen
      simp only [unseenRows, hseen, Bool.false_eq_true, if_false]
      by_cases ht : r.threadId = t
      · subst ht
        simp [rowOf, hout]
      · have hskip : ∀ rest, rowOf (r :: rest) t = rowOf rest t := by
          intro rest
          simp [rowOf, ht]
        rw [hskip, hskip, ih]
        simp [List.mem_cons, Ne.symm ht]

theorem unseenRows_eq_nil (h : ∀ r ∈ rows, r.threadId ∈ seen) :
    unseenRows rows seen = ([], seen) := by
  induction rows with
  | nil => rfl
  | cons r rows ih =>
    have hseen : seen.contains r.threadId = true := by
      simpa using h r List.mem_cons_self
    simp only [unseenRows, hseen, if_true]
    exact ih fun r' hr' => h r' (List.mem_cons_of_mem r hr')

theorem unseenRows_eq_self (hd : RowsDistinct rows) (h : ∀ r ∈ rows, r.threadId ∉ seen) :
    (unseenRows rows seen).1 = rows := by
  induction rows generalizing seen with
  | nil => rfl
  | cons r rows ih =>
    obtain ⟨hout, hd⟩ := List.nodup_cons.1 hd
    have hseen : seen.contains r.threadId = false := by
      simpa using h r List.mem_cons_self
    simp only [unseenRows, hseen, Bool.false_eq_true, if_false]
    rw [ih hd]
    intro r' hr' hin
    rcases List.mem_cons.1 hin with heq | hin
    · exact hout (heq ▸ List.mem_map_of_mem hr')
    · exact h r' (List.mem_cons_of_mem r hr') hin

/-! ## Sections -/

def sectionIds (sections : List GmailThreadSection) : List Nat :=
  sections.map GmailThreadSection.id

structure Normal (sections : List GmailThreadSection) : Prop where
  ids : (sectionIds sections).Nodup
  rows : RowsDistinct (sectionRows sections)

structure Gathered (merged : List GmailThreadSection × List Nat) : Prop where
  normal : Normal merged.1
  seen : ∀ t, t ∈ merged.2 ↔ t ∈ (sectionRows merged.1).map GmailThreadRow.threadId

variable {sections : List GmailThreadSection}

theorem openSection_spec (h : (sectionIds sections).Nodup) (source : GmailThreadSection) :
    (sectionIds (openSection sections source)).Nodup ∧
      source.id ∈ sectionIds (openSection sections source) ∧
      sectionRows (openSection sections source) = sectionRows sections ∧
      ∀ i ∈ sectionIds sections, i ∈ sectionIds (openSection sections source) := by
  unfold openSection
  split
  · next hany =>
      refine ⟨h, ?_, rfl, fun i hi => hi⟩
      obtain ⟨s, hs, hid⟩ := List.any_eq_true.1 hany
      exact beq_iff_eq.1 hid ▸ List.mem_map_of_mem hs
  · next hany =>
      have hout : source.id ∉ sectionIds sections := by
        intro hin
        obtain ⟨s, hs, hid⟩ := List.mem_map.1 hin
        exact hany (List.any_eq_true.2 ⟨s, hs, by simp [hid]⟩)
      refine ⟨?_, by simp [sectionIds], by simp [sectionRows], ?_⟩
      · unfold sectionIds at hout h ⊢
        rw [List.map_append]
        refine List.nodup_append.2 ⟨h, by simp, ?_⟩
        intro i hi j hj heq
        obtain rfl : j = source.id := by simpa using hj
        exact hout (heq ▸ hi)
      · intro i hi
        unfold sectionIds at hi ⊢
        rw [List.map_append]
        exact List.mem_append_left _ hi

theorem takeRows_id (i : Nat) (rows : List GmailThreadRow) (s : GmailThreadSection) :
    (takeRows i rows s).id = s.id := by
  unfold takeRows
  split
  · rfl
  · rfl

variable {i : Nat}

theorem map_takeRows_of_out (h : i ∉ sectionIds sections) (rows : List GmailThreadRow) :
    sections.map (takeRows i rows) = sections := by
  conv_rhs => rw [← List.map_id sections]
  apply List.map_congr_left
  intro s hs
  have hne : s.id ≠ i := fun heq => h (heq ▸ List.mem_map_of_mem hs)
  simp [takeRows, hne]

theorem sectionRows_takeRows (h : (sectionIds sections).Nodup)
    (hi : i ∈ sectionIds sections) (rows : List GmailThreadRow) :
    (sectionRows (sections.map (takeRows i rows))).Perm (sectionRows sections ++ rows) := by
  induction sections with
  | nil => cases hi
  | cons s sections ih =>
    obtain ⟨hout, hd⟩ := List.nodup_cons.1 h
    simp only [sectionRows, List.map_cons, List.flatMap_cons]
    by_cases hs : s.id = i
    · rw [map_takeRows_of_out (hs ▸ hout)]
      simp only [takeRows, hs, beq_self_eq_true, if_true, List.append_assoc]
      exact List.Perm.append_left _ List.perm_append_comm
    · have hin : i ∈ sectionIds sections := by
        rcases List.mem_cons.1 hi with heq | hin
        · exact absurd heq.symm hs
        · exact hin
      have hsame : takeRows i rows s = s := by simp [takeRows, hs]
      rw [hsame, List.append_assoc]
      exact List.Perm.append_left _ (ih hd hin)

theorem appendSection_eq (merged : List GmailThreadSection × List Nat)
    (source : GmailThreadSection) :
    appendSection merged source =
      ((openSection merged.1 source).map
          (takeRows source.id (unseenRows source.rows merged.2).1),
        (unseenRows source.rows merged.2).2) := rfl

theorem sectionIds_takeRows (sections : List GmailThreadSection) (i : Nat)
    (rows : List GmailThreadRow) :
    sectionIds (sections.map (takeRows i rows)) = sectionIds sections := by
  unfold sectionIds
  rw [List.map_map]
  apply List.map_congr_left
  intro s _
  exact takeRows_id i rows s

variable {merged : List GmailThreadSection × List Nat}

/-- **One section of the loop.** -/
theorem appendSection_spec (h : Gathered merged) (source : GmailThreadSection) :
    Gathered (appendSection merged source) ∧ (sectionRows (appendSection merged source).1).Perm
        (sectionRows merged.1 ++ (unseenRows source.rows merged.2).1) ∧
      (appendSection merged source).2 = (unseenRows source.rows merged.2).2 ∧
      ∀ i, i ∈ sectionIds merged.1 ∨ i = source.id →
        i ∈ sectionIds (appendSection merged source).1 := by
  obtain ⟨hids, hin, hrows, hsub⟩ := openSection_spec h.normal.ids source
  have hperm := sectionRows_takeRows hids hin (unseenRows source.rows merged.2).1
  rw [hrows] at hperm
  have hd : RowsDistinct (sectionRows merged.1 ++ (unseenRows source.rows merged.2).1) := by
    unfold RowsDistinct
    rw [List.map_append]
    refine List.nodup_append.2 ⟨h.normal.rows, unseenRows_distinct _ _, ?_⟩
    intro t ht t' ht' heq
    obtain ⟨r, hr, rfl⟩ := List.mem_map.1 ht'
    exact (mem_unseenRows hr).2 ((h.seen _).2 (heq ▸ ht))
  rw [appendSection_eq]
  refine ⟨⟨⟨?_, (hperm.map _).nodup_iff.2 hd⟩, ?_⟩, hperm, rfl, ?_⟩
  · rw [sectionIds_takeRows]
    exact hids
  · intro t
    rw [mem_seen, h.seen, (hperm.map _).mem_iff, List.map_append, List.mem_append]
    constructor
    · rintro (ht | ht)
      · exact Or.inl ht
      · by_cases hseen : t ∈ merged.2
        · exact Or.inl ((h.seen t).1 hseen)
        · refine Or.inr ?_
          by_contra hnone
          have hrow := rowOf_eq_none.2 hnone
          rw [rowOf_unseenRows, if_neg hseen] at hrow
          exact rowOf_eq_none.1 hrow ht
    · rintro (ht | ht)
      · exact Or.inl ht
      · obtain ⟨r, hr, rfl⟩ := List.mem_map.1 ht
        exact Or.inr (List.mem_map_of_mem (mem_unseenRows hr).1)
  · intro i hi
    rw [sectionIds_takeRows]
    rcases hi with hi | rfl
    · exact hsub i hi
    · exact hin

/-- **The loop of `append`.** -/
theorem foldl_appendSection (h : Gathered merged) (sources : List GmailThreadSection) :
    Gathered (sources.foldl appendSection merged) ∧
      (sectionRows (sources.foldl appendSection merged).1).Perm
        (sectionRows merged.1 ++ (unseenRows (sectionRows sources) merged.2).1) ∧
      ∀ i, i ∈ sectionIds merged.1 ∨ i ∈ sectionIds sources →
        i ∈ sectionIds (sources.foldl appendSection merged).1 := by
  induction sources generalizing merged with
  | nil =>
    refine ⟨h, by simp [sectionRows, unseenRows], ?_⟩
    intro i hi
    simpa [sectionIds] using hi
  | cons s sources ih =>
    obtain ⟨hnext, hperm, hseen, hids⟩ := appendSection_spec h s
    obtain ⟨hall, hperm', hids'⟩ := ih hnext
    refine ⟨hall, ?_, ?_⟩
    · have hsplit : sectionRows (s :: sources) = s.rows ++ sectionRows sources := rfl
      rw [hsplit, unseenRows_append]
      rw [hseen] at hperm'
      refine hperm'.trans ?_
      rw [← List.append_assoc]
      exact hperm.append_right _
    · intro i hi
      apply hids'
      rcases hi with hi | hi
      · exact Or.inl (hids i (Or.inl hi))
      · rcases List.mem_cons.1 hi with rfl | hi
        · exact Or.inl (hids _ (Or.inr rfl))
        · exact Or.inr hi

theorem gathered_nil : Gathered ([], []) := by
  refine ⟨⟨List.nodup_nil, List.nodup_nil⟩, ?_⟩
  intro t
  simp [sectionRows]

/-- **The first copy of every thread is kept**, and every section. -/
theorem mergedSections_spec (primary secondary : List GmailThreadSection) :
    Normal (mergedSections primary secondary) ∧
      (∀ t, rowOf (sectionRows (mergedSections primary secondary)) t =
        (rowOf (sectionRows primary) t).or (rowOf (sectionRows secondary) t)) ∧
      ∀ i, i ∈ sectionIds primary ∨ i ∈ sectionIds secondary →
        i ∈ sectionIds (mergedSections primary secondary) := by
  obtain ⟨hfirst, hperm, hids⟩ := foldl_appendSection gathered_nil primary
  obtain ⟨hsecond, hperm', hids'⟩ := foldl_appendSection hfirst secondary
  refine ⟨hsecond.normal, ?_, ?_⟩
  · intro t
    unfold mergedSections
    rw [rowOf_perm hperm' hsecond.normal.rows, rowOf_append, rowOf_unseenRows,
      rowOf_perm hperm hfirst.normal.rows]
    have hnone : rowOf (sectionRows ([] : List GmailThreadSection)) t = none := rfl
    rw [rowOf_append, hnone, Option.none_or, rowOf_unseenRows, if_neg (by simp)]
    cases hrow : rowOf (sectionRows primary) t with
    | some r => simp
    | none =>
      have hunseen : t ∉ (primary.foldl appendSection ([], [])).2 := by
        rw [hfirst.seen, (hperm.map _).mem_iff, ← rowOf_eq_none, rowOf_append, hnone,
          Option.none_or, rowOf_unseenRows, if_neg (by simp)]
        exact hrow
      rw [if_neg hunseen]
  · intro i hi
    apply hids'
    rcases hi with hi | hi
    · exact Or.inl (hids i (Or.inr hi))
    · exact Or.inr hi

theorem sectionRows_removeRows (threadIds : List Nat) (sections : List GmailThreadSection) :
    sectionRows (removeRows threadIds sections) =
      (sectionRows sections).filter fun r => !threadIds.contains r.threadId := by
  induction sections with
  | nil => rfl
  | cons s sections ih =>
    simp only [sectionRows, removeRows, List.flatMap_cons, List.filterMap_cons,
      List.filter_append] at ih ⊢
    by_cases hempty : (s.rows.filter fun r => !threadIds.contains r.threadId).isEmpty = true
    · rw [if_pos hempty, List.isEmpty_iff.1 hempty, List.nil_append]
      exact ih
    · rw [if_neg hempty, List.flatMap_cons, ih]

/-! ## Sections that are merged again -/

/-- The sections of the second list begin with those of the first, and each of them has the
rows of the other one first. -/
inductive Extends : List GmailThreadSection → List GmailThreadSection → Prop where
  | nil (sections : List GmailThreadSection) : Extends [] sections
  | cons {a b : GmailThreadSection} {sections sections' : List GmailThreadSection}
      (id : a.id = b.id) (title : a.title = b.title) (rows : a.rows <+: b.rows)
      (rest : Extends sections sections') : Extends (a :: sections) (b :: sections')

theorem Extends.refl (sections : List GmailThreadSection) : Extends sections sections := by
  induction sections with
  | nil => exact Extends.nil []
  | cons s sections ih => exact Extends.cons rfl rfl (List.prefix_refl _) ih

variable {a b : List GmailThreadSection}

theorem Extends.trans {c : List GmailThreadSection} (h : Extends a b) (h' : Extends b c) :
    Extends a c := by
  induction h generalizing c with
  | nil => exact Extends.nil c
  | cons id title rows rest ih =>
    cases h' with
    | cons id' title' rows' rest' =>
      exact Extends.cons (id.trans id') (title.trans title') (rows.trans rows') (ih rest')

theorem Extends.append (a b : List GmailThreadSection) : Extends a (a ++ b) := by
  induction a with
  | nil => exact Extends.nil _
  | cons s a ih => exact Extends.cons rfl rfl (List.prefix_refl _) ih

theorem extends_takeRows (sections : List GmailThreadSection) (i : Nat)
    (rows : List GmailThreadRow) :
    Extends sections (sections.map (takeRows i rows)) := by
  induction sections with
  | nil => exact Extends.nil _
  | cons s sections ih =>
    by_cases hs : s.id = i
    · have htaken : takeRows i rows s = { s with rows := s.rows ++ rows } := by
        simp [takeRows, hs]
      rw [List.map_cons, htaken]
      exact Extends.cons rfl rfl (List.prefix_append _ _) ih
    · have hsame : takeRows i rows s = s := by simp [takeRows, hs]
      rw [List.map_cons, hsame]
      exact Extends.cons rfl rfl (List.prefix_refl _) ih

theorem extends_appendSection (merged : List GmailThreadSection × List Nat)
    (source : GmailThreadSection) : Extends merged.1 (appendSection merged source).1 := by
  rw [appendSection_eq]
  refine Extends.trans ?_ (extends_takeRows _ _ _)
  unfold openSection
  split
  · exact Extends.refl _
  · exact Extends.append _ _

theorem extends_foldl (sources : List GmailThreadSection)
    (merged : List GmailThreadSection × List Nat) :
    Extends merged.1 (sources.foldl appendSection merged).1 := by
  induction sources generalizing merged with
  | nil => exact Extends.refl _
  | cons s sources ih => exact (extends_appendSection merged s).trans (ih _)

theorem sectionRows_append (a b : List GmailThreadSection) :
    sectionRows (a ++ b) = sectionRows a ++ sectionRows b := by
  simp [sectionRows]

theorem sectionIds_append (a b : List GmailThreadSection) :
    sectionIds (a ++ b) = sectionIds a ++ sectionIds b := by
  simp [sectionIds]

theorem later_ids (h : Extends a b) (hi : i ∈ sectionIds a) : i ∈ sectionIds b := by
  induction h with
  | nil => cases hi
  | cons id title rows rest ih =>
    rcases List.mem_cons.1 hi with rfl | hi
    · exact List.mem_cons.2 (Or.inl id)
    · exact List.mem_cons_of_mem _ (ih hi)

theorem later_rows (h : Extends a b) (ht : t ∈ (sectionRows a).map GmailThreadRow.threadId) :
    t ∈ (sectionRows b).map GmailThreadRow.threadId := by
  induction h with
  | nil => cases ht
  | cons id title rows rest ih =>
    simp only [sectionRows, List.flatMap_cons, List.map_append, List.mem_append] at ht ih ⊢
    rcases ht with ht | ht
    · exact Or.inl ((rows.sublist.map _).subset ht)
    · exact Or.inr (ih ht)

variable {done begun : List GmailThreadSection}

/-- A section of a normal list, appended to what the list begins with: the section is opened or
filled up. -/
theorem appendSection_extending {rest : List GmailThreadSection} {r : GmailThreadSection}
    (hbegun : Extends begun (r :: rest)) (hnormal : Normal (done ++ r :: rest))
    (hseen : ∀ t, t ∈ seen ↔ t ∈ (sectionRows (done ++ begun)).map GmailThreadRow.threadId) :
    ∃ begun', Extends begun' rest ∧
      (appendSection (done ++ begun, seen) r).1 = (done ++ [r]) ++ begun' ∧
      ∀ t, t ∈ (appendSection (done ++ begun, seen) r).2 ↔
        t ∈ (sectionRows ((done ++ [r]) ++ begun')).map GmailThreadRow.threadId := by
  have hids := hnormal.ids
  rw [sectionIds_append] at hids
  have hout : r.id ∉ sectionIds done := fun hin =>
    (List.nodup_append.1 hids).2.2 r.id hin r.id List.mem_cons_self rfl
  have hrest : r.id ∉ sectionIds rest := (List.nodup_cons.1 (List.nodup_append.1 hids).2.1).1
  have hrows := hnormal.rows
  unfold RowsDistinct at hrows
  rw [sectionRows_append, List.map_append] at hrows
  have hr : RowsDistinct r.rows := by
    have htail := (List.nodup_append.1 hrows).2.1
    rw [show sectionRows (r :: rest) = r.rows ++ sectionRows rest from rfl,
      List.map_append] at htail
    exact (List.nodup_append.1 htail).1
  have hdone : ∀ r' ∈ r.rows, r'.threadId ∉ (sectionRows done).map GmailThreadRow.threadId := by
    intro r' hr' hin
    refine (List.nodup_append.1 hrows).2.2 _ hin _ ?_ rfl
    exact List.mem_map_of_mem (List.mem_append_left _ hr')
  rw [appendSection_eq]
  cases hbegun with
  | nil =>
    have hclosed : ((done ++ []).any fun s => s.id == r.id) = false := by
      rw [List.append_nil, Bool.eq_false_iff]
      intro hany
      obtain ⟨s, hs, hid⟩ := List.any_eq_true.1 hany
      exact hout (beq_iff_eq.1 hid ▸ List.mem_map_of_mem hs)
    have hself : (unseenRows r.rows seen).1 = r.rows := by
      refine unseenRows_eq_self hr fun r' hr' hin => hdone r' hr' ?_
      rw [hseen, List.append_nil] at hin
      exact hin
    refine ⟨[], Extends.nil rest, ?_, ?_⟩
    · unfold openSection
      rw [hclosed]
      simp only [Bool.false_eq_true, if_false, List.append_nil, List.map_append]
      rw [map_takeRows_of_out hout, hself]
      simp [takeRows]
    · intro t
      rw [mem_seen, hseen]
      simp [sectionRows]
  | cons id title rows tail =>
    next a begun =>
    obtain ⟨more, hmore⟩ := rows
    have hopen : ((done ++ a :: begun).any fun s => s.id == r.id) = true :=
      List.any_eq_true.2 ⟨a, by simp, by simp [id]⟩
    -- Of the rows of the section, those that it has already have been seen.
    have hmine : (unseenRows r.rows seen).1 = more := by
      rw [← hmore, unseenRows_append]
      have hleft : unseenRows a.rows seen = ([], seen) := by
        apply unseenRows_eq_nil
        intro r' hr'
        rw [hseen]
        refine List.mem_map_of_mem ?_
        simp only [sectionRows, List.flatMap_append, List.flatMap_cons, List.mem_append]
        exact Or.inr (Or.inl hr')
      rw [hleft, List.nil_append]
      rw [← hmore] at hr hdone
      unfold RowsDistinct at hr
      rw [List.map_append] at hr
      refine unseenRows_eq_self (List.nodup_append.1 hr).2.1 fun r' hr' hin => ?_
      rw [hseen] at hin
      simp only [sectionRows, List.flatMap_append, List.flatMap_cons, List.map_append,
        List.mem_append] at hin
      rcases hin with hin | hin | hin
      · exact hdone r' (List.mem_append_right _ hr') hin
      · exact (List.nodup_append.1 hr).2.2 _ hin _ (List.mem_map_of_mem hr') rfl
      · -- Rows that a later section has begun with are rows of that section.
        have hlater := later_rows tail hin
        have htail := (List.nodup_append.1 hrows).2.1
        rw [show sectionRows (r :: rest) = r.rows ++ sectionRows rest from rfl,
          List.map_append] at htail
        refine (List.nodup_append.1 htail).2.2 _ ?_ _ hlater rfl
        rw [← hmore]
        exact List.mem_map_of_mem (List.mem_append_right _ hr')
    refine ⟨begun, tail, ?_, ?_⟩
    · unfold openSection
      rw [hopen]
      simp only [if_true, List.map_append, List.map_cons]
      rw [map_takeRows_of_out hout, hmine]
      have hbegun : r.id ∉ sectionIds begun := fun hin => hrest (later_ids tail hin)
      rw [map_takeRows_of_out hbegun]
      obtain ⟨i, ti, rs⟩ := r
      obtain ⟨i', ti', rs'⟩ := a
      cases id
      cases title
      cases hmore
      simp [takeRows]
    · intro t
      rw [mem_seen, hseen, ← hmore]
      simp only [sectionRows, List.flatMap_append, List.flatMap_cons, List.flatMap_nil,
        List.append_nil, List.map_append, List.mem_append, ← hmore]
      tauto

/-- **What a normal list begins with, and the list appended to it, make the list.** -/
theorem foldl_extending (hbegun : Extends begun sections) (hnormal : Normal (done ++ sections))
    (hseen : ∀ t, t ∈ seen ↔ t ∈ (sectionRows (done ++ begun)).map GmailThreadRow.threadId) :
    (sections.foldl appendSection (done ++ begun, seen)).1 = done ++ sections ∧
      ∀ t, t ∈ (sections.foldl appendSection (done ++ begun, seen)).2 ↔
        t ∈ (sectionRows (done ++ sections)).map GmailThreadRow.threadId := by
  induction sections generalizing done begun seen with
  | nil =>
    cases hbegun
    exact ⟨rfl, hseen⟩
  | cons r rest ih =>
    obtain ⟨begun', hrest, hnext, hnextSeen⟩ := appendSection_extending hbegun hnormal hseen
    have hsplit : done ++ r :: rest = (done ++ [r]) ++ rest := by simp
    rw [hsplit] at hnormal ⊢
    have hpair : appendSection (done ++ begun, seen) r =
        ((done ++ [r]) ++ begun', (appendSection (done ++ begun, seen) r).2) :=
      Prod.ext hnext rfl
    rw [List.foldl_cons, hpair]
    exact ih hrest hnormal hnextSeen

theorem foldl_absorbed
    {sources : List GmailThreadSection} (hids : ∀ s ∈ sources, s.id ∈ sectionIds merged.1)
    (hrows : ∀ s ∈ sources, ∀ r ∈ s.rows, r.threadId ∈ merged.2) :
    sources.foldl appendSection merged = merged := by
  induction sources with
  | nil => rfl
  | cons s sources ih =>
    have hopen : openSection merged.1 s = merged.1 := by
      obtain ⟨s', hs', hid⟩ := List.mem_map.1 (hids s List.mem_cons_self)
      exact if_pos (List.any_eq_true.2 ⟨s', hs', by simp [hid]⟩)
    have hsame : appendSection merged s = merged := by
      rw [appendSection_eq, hopen, unseenRows_eq_nil (hrows s List.mem_cons_self)]
      refine Prod.ext ?_ rfl
      show merged.1.map (takeRows s.id []) = merged.1
      conv_rhs => rw [← List.map_id merged.1]
      apply List.map_congr_left
      intro s' _
      unfold takeRows
      split
      · simp
      · rfl
    rw [List.foldl_cons, hsame]
    exact ih (fun s' hs' => hids s' (List.mem_cons_of_mem s hs'))
      fun s' hs' => hrows s' (List.mem_cons_of_mem s hs')

structure Within (sections merged : List GmailThreadSection) : Prop where
  ids : ∀ i ∈ sectionIds sections, i ∈ sectionIds merged
  rows : ∀ t ∈ (sectionRows sections).map GmailThreadRow.threadId,
    t ∈ (sectionRows merged).map GmailThreadRow.threadId

theorem foldl_normal (h : Normal sections) :
    (sections.foldl appendSection ([], [])).1 = sections ∧
      ∀ t, t ∈ (sections.foldl appendSection ([], [])).2 ↔
        t ∈ (sectionRows sections).map GmailThreadRow.threadId := by
  have hseen : ∀ t, t ∈ ([] : List Nat) ↔
      t ∈ (sectionRows ([] ++ [])).map GmailThreadRow.threadId := by
    simp [sectionRows]
  have hnormal : Normal ([] ++ sections) := h
  exact foldl_extending (Extends.nil sections) hnormal hseen

theorem mergedSections_of_within {secondary : List GmailThreadSection}
    (h : Normal sections) (hin : Within secondary sections) :
    mergedSections sections secondary = sections := by
  obtain ⟨hsame, hseen⟩ := foldl_normal h
  unfold mergedSections
  rw [foldl_absorbed]
  · exact hsame
  · intro s hs
    rw [hsame]
    exact hin.ids s.id (List.mem_map_of_mem hs)
  · intro s hs r hr
    rw [hseen]
    apply hin.rows
    exact List.mem_map_of_mem (List.mem_flatMap.2 ⟨s, hs, hr⟩)

section

variable (primary secondary : List GmailThreadSection)

theorem within_primary :
    Within primary (mergedSections primary secondary) := by
  obtain ⟨_, hrow, hids⟩ := mergedSections_spec primary secondary
  refine ⟨fun i hi => hids i (Or.inl hi), fun t ht => ?_⟩
  by_contra hnone
  have hrow' := rowOf_eq_none.2 hnone
  rw [hrow t, Option.or_eq_none_iff] at hrow'
  exact rowOf_eq_none.1 hrow'.1 ht

theorem within_secondary :
    Within secondary (mergedSections primary secondary) := by
  obtain ⟨_, hrow, hids⟩ := mergedSections_spec primary secondary
  refine ⟨fun i hi => hids i (Or.inr hi), fun t ht => ?_⟩
  by_contra hnone
  have hrow' := rowOf_eq_none.2 hnone
  rw [hrow t, Option.or_eq_none_iff] at hrow'
  exact rowOf_eq_none.1 hrow'.2 ht

/-- **Merging the primary sections again changes nothing.** -/
theorem mergedSections_again :
    mergedSections primary (mergedSections primary secondary) =
      mergedSections primary secondary := by
  obtain ⟨hfirst, _, _⟩ := foldl_appendSection gathered_nil primary
  have hextends := extends_foldl secondary (primary.foldl appendSection ([], []))
  have hnormal : Normal ([] ++ mergedSections primary secondary) :=
    (mergedSections_spec primary secondary).1
  exact (foldl_extending hextends hnormal hfirst.seen).1

end

/-! ## Values that are merged again -/

section Values

variable (a b f : Option Timestamp) (x y : Option Int) (p q : Option Bool)

theorem monotonicMax_again : monotonicMax (monotonicMax x y) y = monotonicMax x y := by
  cases x with
  | none | some x => cases y <;> simp [monotonicMax]

theorem monotonicMax_cached : monotonicMax x (monotonicMax x y) = monotonicMax x y := by
  cases x with
  | none => rfl
  | some x => cases y <;> simp [monotonicMax]

theorem monotonicMax_self : monotonicMax x x = x := by
  cases x <;> simp [monotonicMax]

theorem monotonicCompletion_again :
    monotonicCompletion (monotonicCompletion p q) q = monotonicCompletion p q := by
  rcases p with _ | _ | _ <;> rcases q with _ | _ | _ <;> rfl

theorem monotonicCompletion_cached :
    monotonicCompletion p (monotonicCompletion p q) = monotonicCompletion p q := by
  rcases p with _ | _ | _ <;> rcases q with _ | _ | _ <;> rfl

theorem monotonicCompletion_self : monotonicCompletion p p = p := by
  rcases p with _ | _ | _ <;> rfl

theorem date_latestTimestampValue : timestampDate (latestTimestampValue a b) =
    monotonicMax (timestampDate a) (timestampDate b) := by
  unfold latestTimestampValue
  cases ha : timestampDate a with
  | none =>
    cases hb : timestampDate b with
    | none =>
      cases b with
      | none => simp [monotonicMax, ha]
      | some t => simpa [monotonicMax] using hb
    | some d => simpa [monotonicMax] using hb
  | some d =>
    cases hb : timestampDate b with
    | none => simpa [monotonicMax] using ha
    | some d' =>
      by_cases hle : d' ≥ d
      · have hmax : max d d' = d' := by omega
        simp [hle, hb, monotonicMax, hmax]
      · have hmax : max d d' = d := by omega
        simp [hle, ha, monotonicMax, hmax]

theorem latestTimestampValue_self : latestTimestampValue a a = a := by
  unfold latestTimestampValue
  cases timestampDate a <;> simp

theorem latestTimestampValue_again :
    latestTimestampValue (latestTimestampValue a b) b = latestTimestampValue a b := by
  have hdate := date_latestTimestampValue a b
  unfold latestTimestampValue at hdate ⊢
  cases ha : timestampDate a with
  | none =>
    cases hb : timestampDate b with
    | none =>
      rw [ha, hb] at hdate
      cases b with
      | none => simp [ha]
      | some t => simp [hb]
    | some d => simp [hb]
  | some d =>
    cases hb : timestampDate b with
    | none => simp [ha]
    | some d' =>
      by_cases hle : d' ≥ d
      · simp [hle, hb]
      · simp [hle, ha]

theorem latestTimestampValue_cached :
    latestTimestampValue a (latestTimestampValue a b) = latestTimestampValue a b := by
  unfold latestTimestampValue
  cases ha : timestampDate a with
  | none =>
    cases hb : timestampDate b with
    | none =>
      cases b with
      | none => simp [ha]
      | some t => simp [hb]
    | some d => simp [hb]
  | some d =>
    cases hb : timestampDate b with
    | none => simp [ha]
    | some d' =>
      by_cases hle : d' ≥ d
      · simp [hle, hb]
      · simp [hle, ha]

theorem date_fallback (h : f = a ∨ f = b) (ha : timestampDate a = none)
    (hb : timestampDate b = none) : timestampDate (f.or (b.or a)) = none := by
  cases f with
  | none => cases b with
    | none => simpa using ha
    | some t => simpa using hb
  | some t =>
    rcases h with rfl | rfl
    · simpa using ha
    · simpa using hb

/-- The earliest of two, the second of which has been merged in before. The fallback is the
merged value, or it was the second one before too. -/
theorem earliestTimestampValue_again {f' : Option Timestamp}
    (h : f = a ∨ f = b) (hf' : f' = earliestTimestampValue a b f ∨ (f' = b ∧ f = b)) :
    earliestTimestampValue (earliestTimestampValue a b f) b f' = earliestTimestampValue a b f := by
  unfold earliestTimestampValue at hf' ⊢
  cases ha : timestampDate a with
  | none =>
    cases hb : timestampDate b with
    | none =>
      rw [ha, hb] at hf'
      have hnone := date_fallback a b f h ha hb
      simp only [hnone]
      rcases hf' with hf' | ⟨rfl, rfl⟩
      · rw [hf']
        cases f <;> cases b <;> cases a <;> simp
      · cases f <;> simp
    | some d => simp [hb]
  | some d =>
    cases hb : timestampDate b with
    | none => simp [ha]
    | some d' =>
      by_cases hlt : d' < d
      · simp [hlt, hb]
      · simp [hlt, ha]

theorem earliestTimestampValue_cached (h : f = a ∨ f = b) :
    earliestTimestampValue a (earliestTimestampValue a b f) (earliestTimestampValue a b f) =
      earliestTimestampValue a b f := by
  unfold earliestTimestampValue
  cases ha : timestampDate a with
  | none =>
    cases hb : timestampDate b with
    | none =>
      have hnone := date_fallback a b f h ha hb
      simp only [hnone]
      cases f <;> cases b <;> cases a <;> simp
    | some d => simp [hb]
  | some d =>
    cases hb : timestampDate b with
    | none => simp [ha]
    | some d' =>
      by_cases hlt : d' < d
      · simp [hlt, hb]
      · simp [hlt, ha]

theorem earliestTimestampValue_self : earliestTimestampValue a a a = a := by
  unfold earliestTimestampValue
  cases timestampDate a with
  | none => cases a <;> simp
  | some d => simp

end Values

theorem counts_again (c m : MailboxCounts) : (c.merge m).merge m = c.merge m := by
  apply MailboxCounts.ext
  all_goals exact monotonicMax_again _ _

theorem counts_cached (c m : MailboxCounts) : c.merge (c.merge m) = c.merge m := by
  apply MailboxCounts.ext
  all_goals exact monotonicMax_cached _ _

theorem counts_self (c : MailboxCounts) : c.merge c = c := by
  apply MailboxCounts.ext
  all_goals exact monotonicMax_self _

theorem completions_again (c m : MailboxCompletions) : (c.merge m).merge m = c.merge m := by
  apply MailboxCompletions.ext
  all_goals exact monotonicCompletion_again _ _

theorem completions_cached (c m : MailboxCompletions) : c.merge (c.merge m) = c.merge m := by
  apply MailboxCompletions.ext
  all_goals exact monotonicCompletion_cached _ _

theorem completions_self (c : MailboxCompletions) : c.merge c = c := by
  apply MailboxCompletions.ext
  all_goals exact monotonicCompletion_self _

/-! ## Snapshots that are merged again -/

theorem progressDate_eq (m : MailboxResponse) :
    progressDate m = monotonicMax (timestampDate m.lastProgressAt) (timestampDate m.generatedAt) := by
  unfold progressDate monotonicMax
  cases timestampDate m.lastProgressAt with
  | none | some d => cases timestampDate m.generatedAt <;> rfl

variable {c m : MailboxResponse}

variable {p : MailboxResponse}

theorem progressDate_of_latest
    (hlast : p.lastProgressAt = latestTimestampValue c.lastProgressAt m.lastProgressAt)
    (hgenerated : p.generatedAt = latestTimestampValue c.generatedAt m.generatedAt) :
    progressDate p = monotonicMax (progressDate c) (progressDate m) := by
  rw [progressDate_eq, progressDate_eq, progressDate_eq, hlast, hgenerated,
    date_latestTimestampValue, date_latestTimestampValue]
  generalize timestampDate c.lastProgressAt = a
  generalize timestampDate m.lastProgressAt = b
  generalize timestampDate c.generatedAt = a'
  generalize timestampDate m.generatedAt = b'
  cases a <;> cases b <;> cases a' <;> cases b' <;> simp [monotonicMax] <;> omega

theorem older_merged (hp : progressDate p = monotonicMax (progressDate c) (progressDate m)) :
    isDemonstrablyOlder m p = isDemonstrablyOlder m c ∧ isDemonstrablyOlder p c = false := by
  unfold isDemonstrablyOlder
  rw [hp]
  cases progressDate c with
  | none => cases progressDate m <;> simp [monotonicMax]
  | some d =>
    cases progressDate m with
    | none => simp [monotonicMax]
    | some e =>
      simp only [monotonicMax, decide_eq_false_iff_not, decide_eq_decide]
      omega

theorem older_self (m : MailboxResponse) : isDemonstrablyOlder m m = false := by
  unfold isDemonstrablyOlder
  cases progressDate m <;> simp

theorem visibleRows_le (hd : RowsDistinct c.rows) (hin : Within c.sections p.sections) :
    c.visibleRows ≤ p.visibleRows := by
  have hsub : c.rows.map GmailThreadRow.threadId ⊆ p.rows.map GmailThreadRow.threadId :=
    fun t ht => hin.rows t ht
  have hlength := (List.Nodup.subperm hd hsub).length_le
  rw [List.length_map, List.length_map] at hlength
  unfold MailboxResponse.visibleRows
  omega

theorem loadedRows_merging (c m x y : MailboxResponse) :
    (mergingPreferred c m x y).loadedRows =
        max (max (mergingPreferred c m x y).visibleRows c.loadedRows) m.loadedRows ∧
      (mergingPreferred c m x y).loadedThreads = some (mergingPreferred c m x y).loadedRows := by
  have hloaded : (mergingPreferred c m x y).loadedThreads =
      some (max (max (mergingPreferred c m x y).visibleRows c.loadedRows) m.loadedRows) := rfl
  have hrows : (mergingPreferred c m x y).loadedRows =
      max (max (mergingPreferred c m x y).visibleRows c.loadedRows) m.loadedRows := by
    unfold MailboxResponse.loadedRows at hloaded ⊢
    rw [hloaded]
    simp only [Option.getD_some]
    omega
  exact ⟨hrows, hrows ▸ hloaded⟩

theorem totalThreads_merging (c m x y : MailboxResponse) :
    (mergingPreferred c m x y).totalThreads =
      max (max c.totalThreads m.totalThreads) (mergingPreferred c m x y).loadedRows := by
  rw [(loadedRows_merging c m x y).1]
  rfl

theorem deeper_of_le (hloaded : c.loadedRows ≤ p.loadedRows)
    (hvisible : c.visibleRows ≤ p.visibleRows) : deeper c p p = p ∧ deeper p c p = p := by
  unfold deeper
  constructor
  · rw [if_neg (by omega), ite_self]
  · split
    · rfl
    · rw [if_neg (by omega)]

theorem deeper_again (hc : c.loadedRows ≤ p.loadedRows) (hm : m.loadedRows ≤ p.loadedRows)
    (hvisible : c.visibleRows ≤ p.visibleRows) :
    (deeper p m p = p ∨ (deeper p m p = m ∧ deeper c m c = m)) ∧
      (deeper p m m = p ∨ (deeper p m m = m ∧ deeper c m m = m)) := by
  unfold deeper
  constructor
  · by_cases hmore : p.loadedRows > m.loadedRows ∨
        (p.loadedRows = m.loadedRows ∧ p.visibleRows > m.visibleRows)
    · exact Or.inl (if_pos hmore)
    · rw [if_neg hmore]
      by_cases hless : m.visibleRows > p.visibleRows
      · refine Or.inr ⟨if_pos (by omega), ?_⟩
        rw [if_neg (by omega), if_pos (by omega)]
      · exact Or.inl (if_neg (by omega))
  · by_cases hmore : p.loadedRows > m.loadedRows ∨
        (p.loadedRows = m.loadedRows ∧ p.visibleRows > m.visibleRows)
    · exact Or.inl (if_pos hmore)
    · rw [if_neg hmore, ite_self]
      refine Or.inr ⟨rfl, ?_⟩
      rw [if_neg (by omega), ite_self]

theorem deeper_cases (c m x : MailboxResponse) (hx : x = c ∨ x = m) :
    deeper c m x = c ∨ deeper c m x = m := by
  unfold deeper
  split
  · exact Or.inl rfl
  split
  · exact Or.inr rfl
  · exact hx

section Or

variable {α : Type} (a b : Option α)

theorem or_again : (a.or b).or b = a.or b := by cases a <;> cases b <;> rfl

theorem or_primary : a.or (a.or b) = a.or b := by cases a <;> rfl

theorem or_back : (a.or b).or a = a.or b := by cases a <;> cases b <;> rfl

theorem or_same : a.or a = a := by cases a <;> rfl

end Or

theorem normalized_or (a b : Option (List Char)) (h : normalized a = normalized b) :
    normalized (a.or b) = normalized a := by
  cases a with
  | none => exact h.symm
  | some => rfl

theorem generation_mergingSameGeneration {cached incoming : MailboxResponse}
    (h : cached.generation = incoming.generation) :
    (mergingSameGeneration cached incoming).generation = incoming.generation := by
  unfold mergingSameGeneration
  split
  · exact (normalized_or _ _ h).trans h
  · exact normalized_or _ _ h.symm

/-- **Merging a snapshot again**, which comes second when it was older than what was stored
and first when it was not. -/
theorem mergingPreferred_again {x y x' y' : MailboxResponse} (hp : p = mergingPreferred c m x y)
    (hxy : (x = c ∧ y = m ∧ x' = p ∧ y' = m) ∨ (x = m ∧ y = c ∧ x' = m ∧ y' = p))
    (hd : RowsDistinct c.rows) : mergingPreferred p m x' y' = p := by
  obtain ⟨hloaded, hthreads⟩ := loadedRows_merging c m x y
  have htotal := totalThreads_merging c m x y
  rw [← hp] at hloaded hthreads htotal
  have hsections : p.sections = mergedSections x.sections y.sections := hp ▸ rfl
  have hvisible : c.visibleRows ≤ p.visibleRows := by
    refine visibleRows_le hd ?_
    rw [hsections]
    rcases hxy with ⟨rfl, _⟩ | ⟨_, rfl, _⟩
    · exact within_primary _ _
    · exact within_secondary _ _
  have hdeeper : deeper p m x' = p ∨ (deeper p m x' = m ∧ deeper c m x = m) := by
    have hagain := deeper_again (m := m) (by omega : c.loadedRows ≤ p.loadedRows) (by omega)
      hvisible
    rcases hxy with ⟨rfl, _, rfl, _⟩ | ⟨rfl, _, rfl, _⟩
    · exact hagain.1
    · exact hagain.2
  have hwithin : mergedSections x'.sections y'.sections = p.sections := by
    rcases hxy with ⟨rfl, rfl, rfl, rfl⟩ | ⟨rfl, rfl, rfl, rfl⟩
    · refine mergedSections_of_within ?_ (hsections ▸ within_secondary _ _)
      exact hsections ▸ (mergedSections_spec _ _).1
    · rw [hsections]
      exact mergedSections_again _ _
  have hor : ∀ {α : Type} (f : MailboxResponse → Option α), f p = (f x).or (f y) →
      (f x').or (f y') = f p := by
    intro α f hf
    rcases hxy with ⟨rfl, rfl, rfl, rfl⟩ | ⟨rfl, rfl, rfl, rfl⟩
    · rw [hf]
      exact or_again _ _
    · rw [hf]
      exact or_primary _ _
  have hagain : (mergingPreferred p m x' y').loadedRows = p.loadedRows := by
    have hsame : (mergingPreferred p m x' y').visibleRows = p.visibleRows := by
      show ((sectionRows (mergedSections _ _)).length : Int) = _
      rw [hwithin]
      rfl
    rw [(loadedRows_merging _ _ _ _).1, hsame]
    omega
  have hcompletions : p.completions = c.completions.merge m.completions := hp ▸ rfl
  have hfull : p.completions.merge m.completions = p.completions :=
    hcompletions ▸ completions_again _ _
  have holdest : p.oldestImportedAt = earliestTimestampValue c.oldestImportedAt
      m.oldestImportedAt (deeper c m x).oldestImportedAt := hp ▸ rfl
  apply MailboxResponse.ext
  · rcases hxy with ⟨rfl, _, rfl, _⟩ | ⟨rfl, _, rfl, _⟩
    · rfl
    · exact hp ▸ rfl
  · rw [totalThreads_merging, hagain]
    omega
  · exact hor MailboxResponse.unreadThreads (hp ▸ rfl)
  · show (deeper p m x').nextCursor = _
    rcases hdeeper with h | ⟨h, h'⟩
    · rw [h]
    · have hcursor : p.nextCursor = (deeper c m x).nextCursor := hp ▸ rfl
      rw [hcursor, h, h']
  · rw [(loadedRows_merging _ _ _ _).2, hagain, hthreads]
  · exact hor MailboxResponse.windowDays (hp ▸ rfl)
  · exact hwithin
  · exact hp ▸ counts_again _ _
  · exact hor MailboxResponse.pendingCount (hp ▸ rfl)
  · exact hor MailboxResponse.mailboxRevision (hp ▸ rfl)
  · exact hp ▸ latestTimestampValue_again _ _
  · show earliestTimestampValue _ _ (deeper p m x').oldestImportedAt = _
    rw [holdest]
    apply earliestTimestampValue_again
    · rcases deeper_cases c m x (hxy.imp And.left And.left) with h | h
      · exact Or.inl (congrArg _ h)
      · exact Or.inr (congrArg _ h)
    · rcases hdeeper with h | ⟨h, h'⟩
      · exact Or.inl ((congrArg _ h).trans holdest)
      · exact Or.inr ⟨congrArg _ h, congrArg _ h'⟩
  · show (if (p.completions.merge m.completions).fullImportCompleted = some true then _
      else x'.fullImportRunning.or y'.fullImportRunning) = _
    have hrunning : p.fullImportRunning = if p.completions.fullImportCompleted = some true
      then some false else x.fullImportRunning.or y.fullImportRunning := hp ▸ rfl
    rw [hfull]
    split
    · next hdone => exact (hrunning.trans (if_pos hdone)).symm
    · next hdone => exact hor MailboxResponse.fullImportRunning (hrunning.trans (if_neg hdone))
  · exact hfull
  · exact hor MailboxResponse.syncGeneration (hp ▸ rfl)
  · exact hor MailboxResponse.phase (hp ▸ rfl)
  · exact hp ▸ latestTimestampValue_again _ _
  · exact hp ▸ rfl

/-- A snapshot has all that another one of its label has, so that merging it into that gives
the snapshot itself. -/
structure Covers (p c : MailboxResponse) : Prop where
  label : c.label = p.label
  normal : Normal p.sections
  within : Within c.sections p.sections
  loaded : p.loadedThreads = some p.loadedRows
  depth : c.loadedRows ≤ p.loadedRows ∧ c.visibleRows ≤ p.visibleRows
  total : c.totalThreads ≤ p.totalThreads ∧ p.loadedRows ≤ p.totalThreads
  unread : p.unreadThreads.or c.unreadThreads = p.unreadThreads
  window : p.windowDays.or c.windowDays = p.windowDays
  counts : c.counts.merge p.counts = p.counts
  pending : p.pendingCount.or c.pendingCount = p.pendingCount
  revision : p.mailboxRevision.or c.mailboxRevision = p.mailboxRevision
  generated : latestTimestampValue c.generatedAt p.generatedAt = p.generatedAt
  oldest : earliestTimestampValue c.oldestImportedAt p.oldestImportedAt p.oldestImportedAt =
    p.oldestImportedAt
  running : p.completions.fullImportCompleted = some true → p.fullImportRunning = some false
  stillRunning : p.fullImportRunning.or c.fullImportRunning = p.fullImportRunning ∨
    p.completions.fullImportCompleted = some true
  completions : c.completions.merge p.completions = p.completions
  generation : p.syncGeneration.or c.syncGeneration = p.syncGeneration
  phase : p.phase.or c.phase = p.phase
  progress : latestTimestampValue c.lastProgressAt p.lastProgressAt = p.lastProgressAt
  warnings : p.accountWarnings = none

theorem Covers.mergingPreferred_eq (h : Covers p c) : mergingPreferred c p p c = p := by
  have hsections : mergedSections p.sections c.sections = p.sections :=
    mergedSections_of_within h.normal h.within
  have hdeeper := (deeper_of_le h.depth.1 h.depth.2).1
  have hloaded := h.depth.1
  have htotal := h.total
  have hself : p.visibleRows ≤ p.loadedRows := by
    unfold MailboxResponse.loadedRows
    omega
  have hagain : (mergingPreferred c p p c).loadedRows = p.loadedRows := by
    have hsame : (mergingPreferred c p p c).visibleRows = p.visibleRows := by
      show ((sectionRows (mergedSections _ _)).length : Int) = _
      rw [hsections]
      rfl
    rw [(loadedRows_merging _ _ _ _).1, hsame]
    omega
  apply MailboxResponse.ext
  · rfl
  · rw [totalThreads_merging, hagain]
    omega
  · exact h.unread
  · show (deeper c p p).nextCursor = _
    rw [hdeeper]
  · rw [(loadedRows_merging _ _ _ _).2, hagain, h.loaded]
  · exact h.window
  · exact hsections
  · exact h.counts
  · exact h.pending
  · exact h.revision
  · exact h.generated
  · show earliestTimestampValue _ _ (deeper c p p).oldestImportedAt = _
    rw [hdeeper]
    exact h.oldest
  · simp only [mergingPreferred, h.completions]
    split
    · next hdone => exact (h.running hdone).symm
    · next hdone => exact h.stillRunning.resolve_right hdone
  · exact h.completions
  · exact h.generation
  · exact h.phase
  · exact h.progress
  · exact h.warnings.symm

theorem Covers.withMonotonicProgress_eq (h : Covers p c) : p.withMonotonicProgress c = p := by
  apply MailboxResponse.ext
  all_goals try rfl
  · exact h.counts
  · exact h.generated
  · exact h.oldest
  · simp only [MailboxResponse.withMonotonicProgress, h.completions]
    split
    · next hdone => exact (h.running hdone).symm
    · rfl
  · exact h.completions
  · exact h.progress
  · exact h.warnings.symm

/-- **Merging what covers the stored snapshot gives it.** -/
theorem Covers.cacheSafeSnapshot_eq (h : Covers p c) (hgen : c.generation = p.generation)
    (holder : isDemonstrablyOlder p c = false) : cacheSafeSnapshot c p = p := by
  unfold cacheSafeSnapshot mergingSameGeneration
  rw [if_neg (not_not.2 h.label), if_neg (not_not.2 hgen), holder]
  simp only [Bool.false_eq_true, if_false]
  split
  · exact h.withMonotonicProgress_eq
  · exact h.mergingPreferred_eq

theorem covers_merging {x y : MailboxResponse} (hlabel : c.label = m.label)
    (hxy : (x = c ∧ y = m) ∨ (x = m ∧ y = c)) (hd : RowsDistinct c.rows) :
    Covers (mergingPreferred c m x y) c ∧
      Covers (mergingPreferred c m x y) (mergingPreferred c m x y) := by
  obtain ⟨hloaded, hthreads⟩ := loadedRows_merging c m x y
  have htotal := totalThreads_merging c m x y
  have hspec := mergedSections_spec x.sections y.sections
  have hwithin : Within c.sections (mergingPreferred c m x y).sections := by
    rcases hxy with ⟨rfl, _⟩ | ⟨_, rfl⟩
    · exact within_primary _ _
    · exact within_secondary _ _
  have hrunning : (mergingPreferred c m x y).completions.fullImportCompleted = some true →
      (mergingPreferred c m x y).fullImportRunning = some false := fun h => if_pos h
  have hor : ∀ {α : Type} (f : MailboxResponse → Option α),
      ((f x).or (f y)).or (f c) = (f x).or (f y) := by
    intro α f
    rcases hxy with ⟨rfl, _⟩ | ⟨_, rfl⟩
    · exact or_back _ _
    · exact or_again _ _
  have holdest : (deeper c m x).oldestImportedAt = c.oldestImportedAt ∨
      (deeper c m x).oldestImportedAt = m.oldestImportedAt := by
    have hx : x = c ∨ x = m := hxy.imp And.left And.left
    rcases deeper_cases c m x hx with h | h
    · exact Or.inl (congrArg _ h)
    · exact Or.inr (congrArg _ h)
  have hvisible := visibleRows_le hd hwithin
  constructor
  · exact {
      label := by
        rcases hxy with ⟨rfl, _⟩ | ⟨rfl, _⟩
        · rfl
        · exact hlabel
      normal := hspec.1
      within := hwithin
      loaded := hthreads
      depth := ⟨by omega, hvisible⟩
      total := ⟨by omega, by omega⟩
      unread := hor MailboxResponse.unreadThreads
      window := hor MailboxResponse.windowDays
      counts := counts_cached _ _
      pending := hor MailboxResponse.pendingCount
      revision := hor MailboxResponse.mailboxRevision
      generated := latestTimestampValue_cached _ _
      oldest := earliestTimestampValue_cached _ _ _ holdest
      running := hrunning
      stillRunning := by
        by_cases hdone : (mergingPreferred c m x y).completions.fullImportCompleted = some true
        · exact Or.inr hdone
        refine Or.inl ?_
        have hsame : (mergingPreferred c m x y).fullImportRunning =
            x.fullImportRunning.or y.fullImportRunning := if_neg hdone
        rw [hsame]
        exact hor MailboxResponse.fullImportRunning
      completions := completions_cached _ _
      generation := hor MailboxResponse.syncGeneration
      phase := hor MailboxResponse.phase
      progress := latestTimestampValue_cached _ _
      warnings := rfl }
  · exact {
      label := rfl
      normal := hspec.1
      within := ⟨fun _ h => h, fun _ h => h⟩
      loaded := hthreads
      depth := ⟨Int.le_refl _, Int.le_refl _⟩
      total := ⟨Int.le_refl _, by omega⟩
      unread := or_same _
      window := or_same _
      counts := counts_self _
      pending := or_same _
      revision := or_same _
      generated := latestTimestampValue_self _
      oldest := earliestTimestampValue_self _
      running := hrunning
      stillRunning := Or.inl (or_same _)
      completions := completions_self _
      generation := or_same _
      phase := or_same _
      progress := latestTimestampValue_self _
      warnings := rfl }

/-- **Merging a snapshot again changes nothing**, and neither does merging the result into
what was stored before or into itself. -/
theorem merge_absorbs (hlabel : c.label = m.label)
    (hgen : c.generation = m.generation) (hd : RowsDistinct c.rows)
    (hunfinished : m.isAuthoritative = false) :
    let p := cacheSafeSnapshot c m
    cacheSafeSnapshot p m = p ∧ cacheSafeSnapshot c p = p ∧ cacheSafeSnapshot p p = p := by
  have hmerge : cacheSafeSnapshot c m = mergingSameGeneration c m := by
    unfold cacheSafeSnapshot
    rw [if_neg (not_not.2 hlabel), if_neg (not_not.2 hgen), if_neg (by simp [hunfinished])]
  have hpgen := generation_mergingSameGeneration hgen
  have hdate : progressDate (mergingSameGeneration c m) =
      monotonicMax (progressDate c) (progressDate m) := by
    unfold mergingSameGeneration
    split
    · exact progressDate_of_latest rfl rfl
    · exact progressDate_of_latest rfl rfl
  obtain ⟨hsame, hnot⟩ := older_merged hdate
  have hcovers : Covers (mergingSameGeneration c m) c ∧
      Covers (mergingSameGeneration c m) (mergingSameGeneration c m) := by
    unfold mergingSameGeneration
    split
    · exact covers_merging hlabel (Or.inl ⟨rfl, rfl⟩) hd
    · exact covers_merging hlabel (Or.inr ⟨rfl, rfl⟩) hd
  simp only [hmerge]
  refine ⟨?_, hcovers.1.cacheSafeSnapshot_eq (hgen.trans hpgen.symm) hnot,
    hcovers.2.cacheSafeSnapshot_eq rfl (older_self _)⟩
  have hplabel : (mergingSameGeneration c m).label = m.label :=
    hcovers.1.label.symm.trans hlabel
  unfold cacheSafeSnapshot
  rw [if_neg (not_not.2 hplabel), if_neg (not_not.2 hpgen), if_neg (by simp [hunfinished])]
  show (if isDemonstrablyOlder m (mergingSameGeneration c m) then _ else _) = _
  rw [hsame]
  unfold mergingSameGeneration
  split
  · exact mergingPreferred_again rfl (Or.inl ⟨rfl, rfl, rfl, rfl⟩) hd
  · exact mergingPreferred_again rfl (Or.inr ⟨rfl, rfl, rfl, rfl⟩) hd

end ElectronicMail.Offline
