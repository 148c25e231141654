import Mathlib.Data.List.Sort
import ElectronicMail.Foundations.Table

/-!
# Tables and the versions of their rows

`Versioned` is a table with the log of the row versions that its writes have stored,
the newest first. `Recorded key` says that the table holds, for every key, the newest
version with that key; inserts of new keys and updates of one row keep it. A read by
key then returns what the last write of the key stored (`find?_eq_rowAt`), and the rows
of the table are the versions that no later write has replaced (`mem_rows_iff`).

`newestFirst` is `ORDER BY time DESC LIMIT n`, and `IsNewest` says what it returns
without an order among rows of one time.
-/

namespace ElectronicMail.Foundations.Versions

open Foundations.Table

universe u v

variable {α : Type u} {κ : Type v}

/-- A table, and the versions that its writes stored, the newest first. -/
structure Versioned (α : Type u) where
  rows : List α
  log : List α

def Versioned.empty : Versioned α := ⟨[], []⟩

def Versioned.insert (t : Versioned α) (row : α) : Versioned α :=
  ⟨t.rows ++ [row], row :: t.log⟩

/-- An update of the row that `p` selects. -/
def Versioned.update (t : Versioned α) (p : α → Bool) (f : α → α) : Versioned α :=
  match t.rows.find? p with
  | none => t
  | some row => ⟨updateWhere p f t.rows, f row :: t.log⟩

theorem Versioned.update_rows (t : Versioned α) (p : α → Bool) (f : α → α) :
    (t.update p f).rows = updateWhere p f t.rows := by
  unfold Versioned.update
  cases hfind : t.rows.find? p with
  | some row => rfl
  | none =>
    have hnone : ∀ r ∈ t.rows, p r = false := by
      intro r hr
      exact Bool.eq_false_iff.2 (List.find?_eq_none.1 hfind r hr)
    exact (updateWhere_eq_self hnone).symm

section Recorded

variable [DecidableEq κ] (key : α → κ)

def IsCurrent (log : List α) (row : α) : Prop := rowAt key log (key row) = some row

instance [DecidableEq α] (log : List α) (row : α) : Decidable (IsCurrent key log row) :=
  inferInstanceAs (Decidable (_ = _))

structure Versioned.Recorded (t : Versioned α) : Prop where
  keys : (t.rows.map key).Nodup
  newest : ∀ k, rowAt key t.rows k = rowAt key t.log k

variable {key}

theorem recorded_empty : (Versioned.empty : Versioned α).Recorded key :=
  ⟨List.nodup_nil, fun _ => rfl⟩

theorem rowAt_cons (row : α) (rows : List α) (k : κ) :
    rowAt key (row :: rows) k = if key row = k then some row else rowAt key rows k := by
  by_cases h : key row = k
  · simp [rowAt, h]
  · simp [rowAt, h]

theorem rowAt_append_of_ne {rows : List α} {row : α} {k : κ} (h : key row ≠ k) :
    rowAt key (rows ++ [row]) k = rowAt key rows k := by
  simp [rowAt, List.find?_append, h]

namespace Versioned.Recorded

variable {t : Versioned α}

theorem insert (h : t.Recorded key) {row : α} (hnew : ∀ r ∈ t.rows, key r ≠ key row) :
    (t.insert row).Recorded key := by
  constructor
  · show ((t.rows ++ [row]).map key).Nodup
    rw [List.map_append, List.map_singleton, List.nodup_append]
    refine ⟨h.keys, List.nodup_singleton _, ?_⟩
    intro a ha b hb
    obtain ⟨r, hr, rfl⟩ := List.mem_map.1 ha
    rw [List.mem_singleton.1 hb]
    exact hnew r hr
  · intro k
    show rowAt key (t.rows ++ [row]) k = rowAt key (row :: t.log) k
    rw [rowAt_cons, ← h.newest k]
    by_cases hk : key row = k
    · rw [if_pos hk]
      have hnone : rowAt key t.rows k = none := (rowAt_eq_none key).2 fun r hr => hk ▸ hnew r hr
      rw [rowAt] at hnone ⊢
      rw [List.find?_append, hnone]
      simp [hk]
    · rw [if_neg hk, rowAt_append_of_ne hk]

theorem update (h : t.Recorded key) {p : α → Bool} {f : α → α}
    (hone : ∀ r ∈ t.rows, ∀ r' ∈ t.rows, p r = true → p r' = true → r = r')
    (hkey : ∀ r ∈ t.rows, p r = true → key (f r) = key r) : (t.update p f).Recorded key := by
  unfold Versioned.update
  cases hfind : t.rows.find? p with
  | none => exact h
  | some row =>
    have hmem : row ∈ t.rows := List.mem_of_find?_eq_some hfind
    have hp : p row = true := List.find?_some hfind
    constructor
    · show ((updateWhere p f t.rows).map key).Nodup
      rw [map_updateWhere hkey]
      exact h.keys
    · intro k
      show rowAt key (updateWhere p f t.rows) k = rowAt key (f row :: t.log) k
      rw [rowAt_updateWhere key t.rows k hkey, rowAt_cons, hkey row hmem hp, ← h.newest k]
      by_cases hk : key row = k
      · rw [if_pos hk, ← hk, rowAt_of_mem key h.keys hmem]
        simp [hp]
      rw [if_neg hk]
      cases hat : rowAt key t.rows k with
      | none => rfl
      | some r =>
        obtain ⟨hr, hrk⟩ := rowAt_mem key hat
        have hnot : ¬ p r = true := by
          intro hpr
          exact hk (hone r hr row hmem hpr hp ▸ hrk)
        simp [hnot]

theorem mem_rows_iff (h : t.Recorded key) {row : α} : row ∈ t.rows ↔ IsCurrent key t.log row := by
  unfold IsCurrent
  rw [← h.newest]
  constructor
  · intro hmem
    exact rowAt_of_mem key h.keys hmem
  · intro hat
    exact (rowAt_mem key hat).1

theorem eq_of_key (h : t.Recorded key) {r r' : α} (hr : r ∈ t.rows) (hr' : r' ∈ t.rows)
    (hkey : key r = key r') : r = r' :=
  row_unique key h.keys hr hr' hkey

end Versioned.Recorded

end Recorded

/-! ## The newest rows -/

section Newest

variable (time : α → Nat)

/-- `ORDER BY time DESC LIMIT n`. -/
def newestFirst (n : Nat) (rows : List α) : List α :=
  (rows.insertionSort fun a b => time b ≤ time a).take n

/-- At most `n` of the rows `among`, in order, and none that is left out is newer. -/
structure IsNewest (n : Nat) (among : α → Prop) (page : List α) : Prop where
  mem : ∀ a ∈ page, among a
  nodup : page.Nodup
  sorted : page.Pairwise fun a b => time b ≤ time a
  length_le : page.length ≤ n
  full : ∀ a, among a → a ∈ page ∨ page.length = n ∧ ∀ b ∈ page, time a ≤ time b

theorem newestFirst_isNewest {n : Nat} {rows : List α} (hnodup : rows.Nodup) :
    IsNewest time n (· ∈ rows) (newestFirst time n rows) := by
  have : Std.Total fun a b : α => time b ≤ time a := ⟨fun a b => le_total (time b) (time a)⟩
  have : IsTrans α fun a b => time b ≤ time a := ⟨fun _ _ _ h h' => le_trans h' h⟩
  have hsorted := List.pairwise_insertionSort (fun a b => time b ≤ time a) rows
  have hperm := List.perm_insertionSort (fun a b => time b ≤ time a) rows
  unfold newestFirst
  generalize rows.insertionSort (fun a b => time b ≤ time a) = found at hsorted hperm
  constructor
  · intro a ha
    exact hperm.mem_iff.1 (List.mem_of_mem_take ha)
  · exact (hperm.nodup_iff.2 hnodup).sublist (List.take_sublist n found)
  · exact hsorted.sublist (List.take_sublist n found)
  · exact List.length_take_le n found
  · intro a ha
    rw [← hperm.mem_iff, ← List.take_append_drop n found, List.mem_append] at ha
    rcases ha with ha | ha
    · exact Or.inl ha
    refine Or.inr ⟨?_, ?_⟩
    · rw [List.length_take]
      have hpos : 0 < (found.drop n).length := List.length_pos_of_mem ha
      rw [List.length_drop] at hpos
      omega
    · intro b hb
      rw [← List.take_append_drop n found, List.pairwise_append] at hsorted
      exact hsorted.2.2 b hb a ha

variable {time}

theorem isNewest_nil_iff {n : Nat} (hn : 0 < n) {among : α → Prop} :
    IsNewest time n among [] ↔ ∀ a, ¬ among a := by
  constructor
  · intro h a ha
    rcases h.full a ha with hmem | ⟨hlen, -⟩
    · exact (List.not_mem_nil hmem).elim
    · exact absurd hlen (by simp; omega)
  · intro h
    refine ⟨by simp, List.nodup_nil, List.Pairwise.nil, Nat.zero_le n, ?_⟩
    intro a ha
    exact absurd ha (h a)

end Newest

end ElectronicMail.Foundations.Versions
