import ElectronicMail.Foundations.Table

/-!
# Dictionaries as tables

A dictionary is a table whose rows have distinct keys. `put` is `dict[key row] = row`, and
`drop` is `dict[k] = nil`; `Table.rowAt` looks a key up.
-/

namespace ElectronicMail.Foundations.Dictionary

universe u v

variable {α : Type u} {κ : Type v} [DecidableEq κ] (key : α → κ)

def drop (k : κ) (rows : List α) : List α :=
  rows.filter fun r => decide (key r ≠ k)

def put (row : α) (rows : List α) : List α :=
  row :: drop key (key row) rows

variable {key}

variable {rows : List α}

@[simp]
theorem mem_drop {k : κ} {r : α} : r ∈ drop key k rows ↔ r ∈ rows ∧ key r ≠ k := by
  simp [drop]

@[simp]
theorem mem_put {row : α} {r : α} :
    r ∈ put key row rows ↔ r = row ∨ (r ∈ rows ∧ key r ≠ key row) := by
  simp [put]

theorem nodup_drop (h : (rows.map key).Nodup) (k : κ) : ((drop key k rows).map key).Nodup :=
  (List.filter_sublist.map key).nodup h

theorem nodup_put (h : (rows.map key).Nodup) (row : α) : ((put key row rows).map key).Nodup := by
  unfold put
  rw [List.map_cons, List.nodup_cons]
  refine ⟨?_, nodup_drop h _⟩
  intro hin
  obtain ⟨r, hr, hkey⟩ := List.mem_map.1 hin
  exact (mem_drop.1 hr).2 hkey

end ElectronicMail.Foundations.Dictionary
