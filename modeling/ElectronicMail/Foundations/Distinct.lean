import Mathlib.Data.List.Basic

/-!
# Lists without repetitions

`List.eraseDups` keeps the first of several equal entries, as `list(dict.fromkeys(…))` does.
`firstsBy` keeps the first of several entries with one key, and none whose key is taken.
-/

namespace ElectronicMail.Foundations

universe u v

variable {α : Type u} {β : Type v}

theorem length_eraseDups_le [BEq α] (xs : List α) : xs.eraseDups.length ≤ xs.length := by
  induction hn : xs.length using Nat.strongRecOn generalizing xs with
  | ind n ih =>
    cases xs with
    | nil => simp
    | cons x xs =>
      rw [List.length_cons] at hn
      have hfilter := List.length_filter_le (fun y => !y == x) xs
      have hrest := ih _ (by omega) (xs.filter fun y => !y == x) rfl
      rw [List.eraseDups_cons, List.length_cons]
      omega

theorem nodup_eraseDups [BEq α] [LawfulBEq α] (xs : List α) : xs.eraseDups.Nodup := by
  induction hn : xs.length using Nat.strongRecOn generalizing xs with
  | ind n ih =>
    cases xs with
    | nil => simp
    | cons x xs =>
      rw [List.length_cons] at hn
      have hfilter := List.length_filter_le (fun y => !y == x) xs
      rw [List.eraseDups_cons, List.nodup_cons]
      refine ⟨?_, ih _ (by omega) _ rfl⟩
      rw [List.mem_eraseDups]
      intro hmem
      simp at hmem

/-! ## One entry for each key -/

section FirstsBy

variable [DecidableEq β] (key : α → β)

/-- The entries that are the first with their key, where the keys in `taken` have gone before. -/
def firstsBy (taken : List β) : List α → List α
  | [] => []
  | x :: xs => if key x ∈ taken then firstsBy taken xs else x :: firstsBy (key x :: taken) xs

variable {key} {taken : List β} {x : α}

theorem firstsBy_of_mem (h : key x ∈ taken) (xs : List α) :
    firstsBy key taken (x :: xs) = firstsBy key taken xs := if_pos h

theorem firstsBy_of_notMem (h : key x ∉ taken) (xs : List α) :
    firstsBy key taken (x :: xs) = x :: firstsBy key (key x :: taken) xs := if_neg h

theorem firstsBy_congr {other : List β} {xs : List α}
    (h : ∀ x ∈ xs, key x ∈ taken ↔ key x ∈ other) :
    firstsBy key taken xs = firstsBy key other xs := by
  induction xs generalizing taken other with
  | nil => rfl
  | cons x xs ih =>
    have hx := h x List.mem_cons_self
    have hrest : ∀ y ∈ xs, key y ∈ taken ↔ key y ∈ other :=
      fun y hy => h y (List.mem_cons_of_mem _ hy)
    by_cases htaken : key x ∈ taken
    · rw [firstsBy_of_mem htaken, firstsBy_of_mem (hx.1 htaken), ih hrest]
    · rw [firstsBy_of_notMem htaken, firstsBy_of_notMem fun h => htaken (hx.2 h), ih fun y hy => ?_]
      rw [List.mem_cons, List.mem_cons, hrest y hy]

theorem firstsBy_sublist (taken : List β) (xs : List α) : (firstsBy key taken xs).Sublist xs := by
  induction xs generalizing taken with
  | nil => exact List.Sublist.refl _
  | cons x xs ih =>
    by_cases hx : key x ∈ taken
    · rw [firstsBy_of_mem hx]
      exact (ih taken).cons x
    · rw [firstsBy_of_notMem hx]
      exact (ih _).cons_cons x

theorem key_notMem_of_mem_firstsBy {xs : List α} (h : x ∈ firstsBy key taken xs) :
    key x ∉ taken := by
  induction xs generalizing taken with
  | nil => cases h
  | cons y xs ih =>
    by_cases hy : key y ∈ taken
    · rw [firstsBy_of_mem hy] at h
      exact ih h
    · rw [firstsBy_of_notMem hy] at h
      rcases List.mem_cons.1 h with rfl | h
      · exact hy
      · exact fun hmem => ih h (List.mem_cons_of_mem _ hmem)

theorem nodup_firstsBy (taken : List β) (xs : List α) :
    ((firstsBy key taken xs).map key).Nodup := by
  induction xs generalizing taken with
  | nil => exact List.nodup_nil
  | cons x xs ih =>
    by_cases hx : key x ∈ taken
    · rw [firstsBy_of_mem hx]
      exact ih taken
    rw [firstsBy_of_notMem hx]
    refine List.nodup_cons.2 ⟨?_, ih _⟩
    intro hmem
    obtain ⟨y, hy, hkey⟩ := List.mem_map.1 hmem
    exact key_notMem_of_mem_firstsBy hy (hkey ▸ List.mem_cons_self ..)

theorem filter_firstsBy {dropped : List β} {p : α → Bool} (hp : ∀ x, p x = true ↔ key x ∉ dropped)
    (taken : List β) (xs : List α) :
    (firstsBy key taken xs).filter p = firstsBy key (taken ++ dropped) xs := by
  induction xs generalizing taken with
  | nil => rfl
  | cons x xs ih =>
    by_cases htaken : key x ∈ taken
    · rw [firstsBy_of_mem htaken, ih, firstsBy_of_mem (List.mem_append_left _ htaken)]
    rw [firstsBy_of_notMem htaken]
    by_cases hdropped : key x ∈ dropped
    · have hx : ¬ p x = true := fun hpx => (hp x).1 hpx hdropped
      rw [List.filter_cons_of_neg hx, ih, firstsBy_of_mem (List.mem_append_right _ hdropped)]
      refine firstsBy_congr fun y _ => ?_
      rw [List.cons_append, List.mem_cons]
      refine or_iff_right_of_imp fun heq => ?_
      rw [heq]
      exact List.mem_append_right _ hdropped
    · have hnot : key x ∉ taken ++ dropped := by simp [htaken, hdropped]
      rw [List.filter_cons_of_pos ((hp x).2 hdropped), ih, firstsBy_of_notMem hnot, List.cons_append]

theorem firstsBy_firstsBy {fewer : List β} (h : ∀ b ∈ fewer, b ∈ taken) (xs : List α) :
    firstsBy key taken (firstsBy key fewer xs) = firstsBy key taken xs := by
  induction xs generalizing taken fewer with
  | nil => rfl
  | cons x xs ih =>
    by_cases hfewer : key x ∈ fewer
    · rw [firstsBy_of_mem hfewer, ih h, firstsBy_of_mem (h _ hfewer)]
    rw [firstsBy_of_notMem hfewer]
    by_cases htaken : key x ∈ taken
    · rw [firstsBy_of_mem htaken, firstsBy_of_mem htaken]
      apply ih
      intro b hb
      rcases List.mem_cons.1 hb with rfl | hb
      · exact htaken
      · exact h b hb
    · rw [firstsBy_of_notMem htaken, firstsBy_of_notMem htaken]
      congr 1
      apply ih
      intro b hb
      rcases List.mem_cons.1 hb with rfl | hb
      · exact List.mem_cons_self ..
      · exact List.mem_cons_of_mem _ (h b hb)

theorem firstsBy_eq_self {xs : List α} (hkeys : (xs.map key).Nodup)
    (htaken : ∀ x ∈ xs, key x ∉ taken) : firstsBy key taken xs = xs := by
  induction xs generalizing taken with
  | nil => rfl
  | cons x xs ih =>
    obtain ⟨hx, hkeys⟩ := List.nodup_cons.1 hkeys
    rw [firstsBy_of_notMem (htaken x List.mem_cons_self), ih hkeys fun y hy hin => ?_]
    rcases List.mem_cons.1 hin with heq | hin
    · exact hx (heq ▸ List.mem_map_of_mem hy)
    · exact htaken y (List.mem_cons_of_mem _ hy) hin

end FirstsBy

theorem map_firstsBy [DecidableEq β] {γ : Type u} {f : γ → α} {key : α → β} (taken : List β)
    (xs : List γ) :
    (firstsBy (fun x => key (f x)) taken xs).map f = firstsBy key taken (xs.map f) := by
  induction xs generalizing taken with
  | nil => rfl
  | cons x xs ih =>
    have hskip := @firstsBy_of_mem _ _ _ (fun x => key (f x)) taken x
    have htake := @firstsBy_of_notMem _ _ _ (fun x => key (f x)) taken x
    by_cases hx : key (f x) ∈ taken
    · rw [hskip hx, ih, List.map_cons, firstsBy_of_mem hx]
    · rw [htake hx, List.map_cons, ih, List.map_cons, firstsBy_of_notMem hx]

/-! ## Sorting by a strict order -/

section Sorting

variable {lt : α → α → Bool} {xs ys : List α}

theorem pairwise_mergeSort_of_mem
    (htrans : ∀ a ∈ xs, ∀ b ∈ xs, ∀ c ∈ xs, lt a b = true → lt b c = true → lt a c = true)
    (htotal : ∀ a ∈ xs, ∀ b ∈ xs, lt a b = true ∨ lt b a = true) (hys : ∀ y ∈ ys, y ∈ xs) :
    (ys.mergeSort lt).Pairwise fun a b => lt a b = true := by
  let restricted (a b : { x // x ∈ xs }) : Bool := lt a.1 b.1
  have hsorted := @List.pairwise_mergeSort _ restricted
    (fun a b c => htrans a a.2 b b.2 c c.2)
    (fun a b => by simpa [restricted] using htotal a a.2 b b.2) (ys.attachWith (· ∈ xs) hys)
  have hmap := List.map_mergeSort (r := restricted) (s := lt) (f := Subtype.val)
    (l := ys.attachWith (· ∈ xs) hys) fun a _ b _ => rfl
  rw [List.attachWith_map_subtype_val] at hmap
  rw [← hmap]
  exact List.pairwise_map.2 hsorted

end Sorting

end ElectronicMail.Foundations
