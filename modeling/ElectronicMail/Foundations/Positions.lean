import Mathlib.Data.List.Perm.Subperm
import Mathlib.Data.List.Range

/-!
# Positions in a list

The entries of a list that meet a condition are counted by their positions.
-/

namespace ElectronicMail.Foundations

universe u

variable {α : Type u}

def positions (p : α → Bool) (xs : List α) : List Nat :=
  (xs.zipIdx.filter fun x => p x.1).map Prod.snd

variable {p : α → Bool} {xs : List α}

theorem mem_positions {i : Nat} : i ∈ positions p xs ↔ ∃ x, xs[i]? = some x ∧ p x = true := by
  unfold positions
  rw [List.mem_map]
  constructor
  · rintro ⟨⟨x, j⟩, hx, rfl⟩
    obtain ⟨hmem, hp⟩ := List.mem_filter.1 hx
    exact ⟨x, List.mem_zipIdx_iff_getElem?.1 hmem, hp⟩
  · rintro ⟨x, hx, hp⟩
    exact ⟨(x, i), List.mem_filter.2 ⟨List.mem_zipIdx_iff_getElem?.2 hx, hp⟩, rfl⟩

theorem nodup_positions (p : α → Bool) (xs : List α) : (positions p xs).Nodup := by
  have hall : (xs.zipIdx.map Prod.snd).Nodup := by
    rw [List.zipIdx_map_snd]
    exact List.nodup_range'
  exact (List.filter_sublist.map Prod.snd).nodup hall

theorem length_positions (p : α → Bool) (xs : List α) :
    (positions p xs).length = (xs.filter p).length := by
  have hfirst : (xs.zipIdx.filter fun x => p x.1).map Prod.fst = xs.filter p := by
    conv_rhs => rw [← List.zipIdx_map_fst 0 xs, List.filter_map]
    rfl
  unfold positions
  rw [← hfirst, List.length_map, List.length_map]

theorem length_filter_le_of_positions {is : List Nat}
    (h : ∀ (i : Nat) (x : α), xs[i]? = some x → p x = true → i ∈ is) :
    (xs.filter p).length ≤ is.length := by
  rw [← length_positions]
  apply (List.Nodup.subperm (nodup_positions p xs) _).length_le
  intro i hi
  obtain ⟨x, hx, hp⟩ := mem_positions.1 hi
  exact h i x hx hp

theorem length_filter_le_of_pointwise {q : α → Bool} {ys : List α}
    (h : ∀ (i : Nat) (y : α), ys[i]? = some y → q y = true → ∃ x, xs[i]? = some x ∧ p x = true) :
    (ys.filter q).length ≤ (xs.filter p).length := by
  rw [← length_positions p]
  exact length_filter_le_of_positions fun i y hy hq => mem_positions.2 (h i y hy hq)

end ElectronicMail.Foundations
