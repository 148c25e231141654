import Mathlib.Data.List.Nodup

/-!
# Tables as lists of rows

A table is the list of its rows. `updateWhere` is `UPDATE … SET … WHERE …`,
`selectFirst` is `SELECT … ORDER BY … LIMIT 1` with a strict order on rows, and
`insertUnlessConflict` is `INSERT … ON CONFLICT DO NOTHING`. The lemmas say what
each statement does to membership, to a key column and to the row of one key, so
that a statement of a program is reasoned about through its predicate and its
row function only.
-/

namespace ElectronicMail.Foundations.Table

universe u v

variable {α : Type u} {κ : Type v}

/-! ## Updates -/

/-- `UPDATE rows SET f WHERE p`. -/
def updateWhere (p : α → Bool) (f : α → α) (rows : List α) : List α :=
  rows.map fun r => if p r then f r else r

variable {p : α → Bool} {f : α → α} {rows : List α}

variable {r : α}

theorem mem_updateWhere :
    r ∈ updateWhere p f rows ↔ ∃ r₀ ∈ rows, r = if p r₀ then f r₀ else r₀ := by
  unfold updateWhere
  rw [List.mem_map]
  constructor
  · rintro ⟨r₀, h₀, rfl⟩
    exact ⟨r₀, h₀, rfl⟩
  · rintro ⟨r₀, h₀, rfl⟩
    exact ⟨r₀, h₀, rfl⟩

theorem forall_updateWhere {I : α → Prop} (h : ∀ r ∈ rows, I r)
    (hf : ∀ r ∈ rows, p r = true → I r → I (f r)) : ∀ r ∈ updateWhere p f rows, I r := by
  intro r hr
  obtain ⟨r₀, h₀, rfl⟩ := mem_updateWhere.1 hr
  by_cases hp : p r₀ = true
  · rw [if_pos hp]
    exact hf r₀ h₀ hp (h r₀ h₀)
  · rw [if_neg hp]
    exact h r₀ h₀

theorem exists_updateWhere {I : α → Prop} (h : ∃ r ∈ rows, I r)
    (hf : ∀ r, p r = true → I r → I (f r)) : ∃ r ∈ updateWhere p f rows, I r := by
  obtain ⟨r, hr, hI⟩ := h
  refine ⟨_, mem_updateWhere.2 ⟨r, hr, rfl⟩, ?_⟩
  by_cases hp : p r = true
  · rw [if_pos hp]
    exact hf r hp hI
  · rw [if_neg hp]
    exact hI

theorem updateWhere_eq_self (h : ∀ r ∈ rows, p r = false) : updateWhere p f rows = rows := by
  unfold updateWhere
  calc rows.map (fun r => if p r then f r else r)
      = rows.map id := by
        apply List.map_congr_left
        intro r hr
        simp [h r hr]
    _ = rows := List.map_id rows

theorem map_updateWhere {key : α → κ} (h : ∀ r ∈ rows, p r = true → key (f r) = key r) :
    (updateWhere p f rows).map key = rows.map key := by
  unfold updateWhere
  rw [List.map_map]
  apply List.map_congr_left
  intro r hr
  show key (if p r then f r else r) = key r
  by_cases hp : p r = true
  · rw [if_pos hp, h r hr hp]
  · rw [if_neg hp]

/-- A query finds the same rows when it finds none of the updated ones, before or after the
update. -/
theorem filter_updateWhere {q : α → Bool}
    (h : ∀ r ∈ rows, p r = true → q r = false ∧ q (f r) = false) :
    (updateWhere p f rows).filter q = rows.filter q := by
  induction rows with
  | nil => rfl
  | cons r rows ih =>
    have ih := ih fun x hx => h x (List.mem_cons_of_mem r hx)
    simp only [updateWhere] at ih
    simp only [updateWhere, List.map_cons, List.filter_cons]
    by_cases hp : p r = true
    · obtain ⟨hq, hqf⟩ := h r List.mem_cons_self hp
      simp [hp, hq, hqf, ih]
    · simp [hp, ih]

/-! ## The row of a key -/

section Key

variable [DecidableEq κ] (key : α → κ)

/-- The row with key `k`, when `key` is the primary key. -/
def rowAt (rows : List α) (k : κ) : Option α :=
  rows.find? fun r => decide (key r = k)

variable {rows : List α}

theorem rowAt_mem {k : κ} {r : α} (h : rowAt key rows k = some r) : r ∈ rows ∧ key r = k := by
  refine ⟨List.mem_of_find?_eq_some h, ?_⟩
  exact of_decide_eq_true (List.find?_some (p := fun r => decide (key r = k)) h)

theorem rowAt_of_mem {r : α} (hk : (rows.map key).Nodup) (hr : r ∈ rows) :
    rowAt key rows (key r) = some r := by
  induction rows with
  | nil => simp at hr
  | cons a rows ih =>
    rw [List.map_cons, List.nodup_cons] at hk
    rcases List.mem_cons.1 hr with rfl | hr
    · simp [rowAt]
    have hne : key a ≠ key r := by
      intro h
      exact hk.1 (h ▸ List.mem_map_of_mem hr)
    have : rowAt key (a :: rows) (key r) = rowAt key rows (key r) := by
      simp [rowAt, hne]
    rw [this]
    exact ih hk.2 hr

theorem row_unique {r r' : α} (hk : (rows.map key).Nodup) (hr : r ∈ rows) (hr' : r' ∈ rows)
    (h : key r = key r') : r = r' := by
  have h₁ := rowAt_of_mem key hk hr
  rw [h, rowAt_of_mem key hk hr'] at h₁
  exact (Option.some.inj h₁).symm

theorem rowAt_eq_none {k : κ} : rowAt key rows k = none ↔ ∀ r ∈ rows, key r ≠ k := by
  unfold rowAt
  rw [List.find?_eq_none]
  simp

theorem rowAt_updateWhere {p : α → Bool} {f : α → α} (rows : List α) (k : κ)
    (h : ∀ r ∈ rows, p r = true → key (f r) = key r) :
    rowAt key (updateWhere p f rows) k =
      (rowAt key rows k).map fun r => if p r then f r else r := by
  induction rows with
  | nil => rfl
  | cons a rows ih =>
    have ih := ih fun r hr => h r (List.mem_cons_of_mem a hr)
    have ha : key (if p a then f a else a) = key a := by
      by_cases hp : p a = true
      · rw [if_pos hp, h a List.mem_cons_self hp]
      · rw [if_neg hp]
    by_cases hk : key a = k
    · simp [rowAt, updateWhere, ha, hk]
    · have h₁ : rowAt key (a :: rows) k = rowAt key rows k := by simp [rowAt, hk]
      have h₂ : rowAt key (updateWhere p f (a :: rows)) k = rowAt key (updateWhere p f rows) k := by
        simp [rowAt, updateWhere, ha, hk]
      rw [h₁, h₂, ih]

end Key

/-! ## Selecting one row -/

/-- `ORDER BY … LIMIT 1` over `rows`: a row no other row is strictly before. Of
several such rows it takes the one that comes first in the table. -/
def selectFirst (before : α → α → Bool) : List α → Option α
  | [] => none
  | r :: rows =>
    match selectFirst before rows with
    | none => some r
    | some best => if before best r then some best else some r

variable {before : α → α → Bool}

theorem selectFirst_mem (h : selectFirst before rows = some r) : r ∈ rows := by
  induction rows generalizing r with
  | nil => simp [selectFirst] at h
  | cons a rows ih =>
    unfold selectFirst at h
    cases hs : selectFirst before rows with
    | none =>
      rw [hs] at h
      rw [← Option.some.inj h]
      exact List.mem_cons_self
    | some best =>
      rw [hs] at h
      by_cases hb : before best a = true
      · simp only [hb, if_true] at h
        rw [← Option.some.inj h]
        exact List.mem_cons_of_mem a (ih hs)
      · simp only [hb] at h
        rw [← Option.some.inj h]
        exact List.mem_cons_self

theorem selectFirst_eq_none : selectFirst before rows = none ↔ rows = [] := by
  cases rows with
  | nil => simp [selectFirst]
  | cons a rows =>
    unfold selectFirst
    cases selectFirst before rows with
    | none => simp
    | some best => by_cases hb : before best a = true <;> simp [hb]

/-! ## Inserts -/

/-- `INSERT … ON CONFLICT DO NOTHING`: nothing happens when some row conflicts. -/
def insertUnlessConflict (conflict : α → Bool) (row : α) (rows : List α) : List α :=
  if rows.any conflict then rows else rows ++ [row]

variable {conflict : α → Bool}

theorem mem_insertUnlessConflict {row : α} (h : r ∈ insertUnlessConflict conflict row rows) :
    r ∈ rows ∨ r = row := by
  unfold insertUnlessConflict at h
  by_cases hc : rows.any conflict = true
  · rw [if_pos hc] at h
    exact Or.inl h
  · rw [if_neg hc, List.mem_append] at h
    rcases h with h | h
    · exact Or.inl h
    · exact Or.inr (List.mem_singleton.1 h)

theorem subset_insertUnlessConflict {row : α} (h : r ∈ rows) :
    r ∈ insertUnlessConflict conflict row rows := by
  unfold insertUnlessConflict
  by_cases hc : rows.any conflict = true
  · rw [if_pos hc]
    exact h
  · rw [if_neg hc]
    exact List.mem_append_left _ h

theorem nodup_insertUnlessConflict {key : α → κ} {row : α} (hk : (rows.map key).Nodup)
    (hc : ∀ r ∈ rows, key r = key row → conflict r = true) :
    ((insertUnlessConflict conflict row rows).map key).Nodup := by
  unfold insertUnlessConflict
  by_cases h : rows.any conflict = true
  · rw [if_pos h]
    exact hk
  rw [if_neg h, List.map_append, List.nodup_append]
  refine ⟨hk, by simp, ?_⟩
  intro a ha b hb
  obtain ⟨r, hr, rfl⟩ := List.mem_map.1 ha
  rw [List.map_cons, List.map_nil, List.mem_singleton] at hb
  subst hb
  intro heq
  exact h (List.any_eq_true.2 ⟨r, hr, hc r hr heq⟩)

end ElectronicMail.Foundations.Table
